import Mathlib
import EngineFuzz.Program.Instruction
import EngineFuzz.Proofs.Json.Floats
import EngineFuzz.Proofs.Script.Strings

/-!
# Line ends in textual forms

The textual form of an instruction goes over a line end only where it writes the text of a payload
as it is, without quotes and escapes.

* `hasLineEnd`, `linesOf`: whether a text goes over a line end, and its lines.
* `ended`: lines with their ends; `linesOf_ended`: the lines of such a text.
* `Operation.bareTexts`: the payloads that are written as they are.
* `Instruction.hasLineEnd_text`: the main statement.
-/

namespace EngineFuzz

/-- Whether there is a line end in a text. -/
def hasLineEnd (s : String) : Bool := s.toList.any isLineEnd

variable {s t separator : String} {ss : List String} {c : Char} {cs ds : List Char}

/-! ### Texts that are put together -/

@[simp] lemma hasLineEnd_append : hasLineEnd (s ++ t) = (hasLineEnd s || hasLineEnd t) := by
  rw [hasLineEnd, String.toList_append, List.any_append]
  rfl

lemma hasLineEnd_ofList {cs : List Char} : hasLineEnd (String.ofList cs) = cs.any isLineEnd := by
  rw [hasLineEnd, String.toList_ofList]

@[simp] lemma hasLineEnd_ite {p : Prop} [Decidable p] :
    hasLineEnd (if p then s else t) = if p then hasLineEnd s else hasLineEnd t :=
  apply_ite hasLineEnd ..

lemma hasLineEnd_joined (h : hasLineEnd separator = false) :
    hasLineEnd (joined separator ss) = ss.any hasLineEnd := by
  induction ss with
  | nil => rfl
  | cons s ss ih =>
      cases ss with
      | nil => rw [joined, List.any_cons, List.any_nil, Bool.or_false]
      | cons s' ss =>
          rw [joined, hasLineEnd_append, hasLineEnd_append, h, ih, List.any_cons, Bool.or_false]
          · rfl
          · exact List.cons_ne_nil _ _

@[simp] lemma hasLineEnd_bracketed : hasLineEnd (bracketed ss) = ss.any hasLineEnd := by
  have hopen : hasLineEnd "[" = false := by decide
  have hclose : hasLineEnd "]" = false := by decide
  rw [bracketed, hasLineEnd_append, hasLineEnd_append, hopen, hclose,
    hasLineEnd_joined (by decide), Bool.false_or, Bool.or_false]

/-! ### Lines -/

/-- The lines of a text, without the characters that end them. -/
def linesOf (s : String) : List String := (s.toList.splitOnP isLineEnd).map String.ofList

/-- Lines with their ends. -/
def ended (lines : List String) : String := String.join (lines.map (· ++ "\n"))

lemma ended_cons {lines : List String} : ended (s :: lines) = s ++ "\n" ++ ended lines := by
  rw [ended, List.map_cons, String.join_cons]
  rfl

lemma linesOf_append_cons (hc : isLineEnd c = true) (h : s.toList = cs ++ c :: ds) :
    linesOf s = linesOf (String.ofList cs) ++ linesOf (String.ofList ds) := by
  rw [linesOf, h, List.splitOnP_append_cons cs ds hc, List.map_append, linesOf, linesOf,
    String.toList_ofList, String.toList_ofList]

lemma linesOf_ended {lines : List String} :
    linesOf (ended lines) = lines.flatMap linesOf ++ [""] := by
  induction lines with
  | nil => rfl
  | cons s lines ih =>
      have hsplit : (ended (s :: lines)).toList = s.toList ++ '\n' :: (ended lines).toList := by
        rw [ended_cons, String.toList_append, String.toList_append, List.append_assoc]
        rfl
      rw [linesOf_append_cons (by decide) hsplit, String.ofList_toList, String.ofList_toList, ih,
        List.flatMap_cons, List.append_assoc]

lemma linesOf_eq_singleton (h : hasLineEnd s = false) : linesOf s = [s] := by
  have hchars : ∀ c ∈ s.toList, isLineEnd c = false := by
    simpa [hasLineEnd] using h
  rw [linesOf, List.splitOnP_eq_singleton hchars, List.map_singleton, String.ofList_toList]

lemma length_linesOf_pos (s : String) : 0 < (linesOf s).length := by
  rw [linesOf, List.length_map, List.length_pos_iff]
  exact List.splitOnP_ne_nil _ _

lemma one_lt_length_linesOf (h : hasLineEnd s = true) : 1 < (linesOf s).length := by
  obtain ⟨c, hmem, hc⟩ := List.any_eq_true.mp h
  obtain ⟨cs, ds, hsplit⟩ := List.mem_iff_append.mp hmem
  have hcs := length_linesOf_pos (String.ofList cs)
  have hds := length_linesOf_pos (String.ofList ds)
  rw [linesOf_append_cons hc hsplit, List.length_append]
  omega

/-! ### Numbers -/

/-- Characters without a line end among them. -/
def OneLine (cs : List Char) : Prop := ∀ c ∈ cs, isLineEnd c = false

instance : Decidable (OneLine cs) := List.decidableBAll ..

lemma OneLine.any_eq (h : OneLine cs) : cs.any isLineEnd = false :=
  List.any_eq_false.mpr fun c hc => by rw [h c hc]; exact Bool.false_ne_true

lemma OneLine.append (h : OneLine cs) (h' : OneLine ds) : OneLine (cs ++ ds) :=
  List.forall_mem_append.mpr ⟨h, h'⟩

lemma OneLine.cons (h : isLineEnd c = false) (h' : OneLine cs) : OneLine (c :: cs) :=
  List.forall_mem_cons.mpr ⟨h, h'⟩

lemma isLineEnd_of_isDigit (h : c.isDigit = true) : isLineEnd c = false := by
  rw [Bool.eq_false_iff]
  intro hend
  simp only [isLineEnd, Bool.or_eq_true, decide_eq_true_eq] at hend
  rcases hend with (((rfl | rfl) | rfl) | rfl) <;> exact absurd h (by decide)

lemma oneLine_of_isDigit (h : ∀ c ∈ cs, c.isDigit = true) : OneLine cs :=
  fun c hc => isLineEnd_of_isDigit (h c hc)

lemma oneLine_natDigits (n : Nat) : OneLine (natDigits n) :=
  oneLine_of_isDigit (startsNumber_natDigits n).isDigit

@[simp] lemma hasLineEnd_natText (n : Nat) : hasLineEnd (natText n) = false := by
  rw [natText, hasLineEnd_ofList, (oneLine_natDigits n).any_eq]

@[simp] lemma hasLineEnd_intText (n : Int) : hasLineEnd (intText n) = false := by
  have hone : OneLine (intDigits n) := by
    rw [intDigits]
    split
    · exact .cons (by decide) (oneLine_natDigits _)
    · exact oneLine_natDigits _
  rw [intText, hasLineEnd_ofList, hone.any_eq]

@[simp] lemma hasLineEnd_boolText (b : Bool) : hasLineEnd (boolText b) = false := by
  cases b <;> decide

lemma oneLine_signedText (negative : Bool) (h : OneLine cs) : OneLine (signedText negative cs) := by
  rw [signedText]
  split
  · exact .cons (by decide) h
  · exact h

lemma oneLine_positional (d : Decimal) : OneLine (DigitText.ofDecimal d).positional := by
  have hdigits : ∀ c ∈ (DigitText.ofDecimal d).digits, c.isDigit = true :=
    (startsNumber_natDigits d.significand).isDigit
  have hzeros (n : Nat) : OneLine (DigitText.zeros n) :=
    oneLine_of_isDigit (DigitText.isDigit_zeros n)
  rw [DigitText.positional]
  split
  · exact .append (oneLine_of_isDigit hdigits) (hzeros _)
  · split
    · exact .append (oneLine_of_isDigit fun c hc => hdigits c (List.mem_of_mem_take hc))
        (.cons (by decide) (oneLine_of_isDigit fun c hc => hdigits c (List.mem_of_mem_drop hc)))
    · exact .cons (by decide) (.cons (by decide) (.append (hzeros _) (oneLine_of_isDigit hdigits)))

lemma oneLine_plainText (f : Format) (word : Nat) : OneLine (f.plainText word) := by
  unfold Format.plainText
  split
  · exact by decide
  · exact oneLine_signedText _ (by decide)
  · exact oneLine_signedText _ (by decide)
  · exact oneLine_signedText _ (oneLine_positional _)

@[simp] lemma Double.hasLineEnd_plainText (x : Double) : hasLineEnd x.plainText = false := by
  rw [Double.plainText, hasLineEnd_ofList, (oneLine_plainText _ _).any_eq]

@[simp] lemma Single.hasLineEnd_plainText (x : Single) : hasLineEnd x.plainText = false := by
  rw [Single.plainText, hasLineEnd_ofList, (oneLine_plainText _ _).any_eq]

/-! ### Quoted texts -/

lemma oneLine_hexText (n : Nat) : OneLine (hexText n) := by
  have hdigit (n : Nat) (h : n < 16) : isLineEnd (hexDigit n) = false := by
    interval_cases n <;> decide
  induction n using hexText.induct with
  | case1 n h =>
      rw [hexText, if_pos h]
      exact .cons (hdigit n h) nofun
  | case2 n h ih =>
      rw [hexText, if_neg h]
      exact .append ih (.cons (hdigit _ (Nat.mod_lt _ (by decide))) nofun)

-- The table of hidden characters is long, and the separators are in the midst of it.
set_option maxRecDepth 2000 in
/-- Line ends are escaped between quotes. -/
lemma oneLine_escapeShown (c : Char) : OneLine (escapeShown c) := by
  unfold escapeShown
  iterate 6
    split
    · decide
  rename_i hr hn _ _
  split
  · rename_i hshown
    refine .cons ?_ nofun
    rw [Bool.eq_false_iff]
    intro hend
    simp only [isLineEnd, Bool.or_eq_true, decide_eq_true_eq] at hend
    rcases hend with (((rfl | rfl) | rfl) | rfl)
    · exact hn rfl
    · exact hr rfl
    · exact absurd hshown (by decide)
    · exact absurd hshown (by decide)
  · exact .append (.append (by decide) (oneLine_hexText _)) (by decide)

@[simp] lemma hasLineEnd_quoted (s : String) : hasLineEnd (quoted s) = false := by
  have hone : OneLine ('"' :: (s.toList.flatMap escapeShown ++ ['"'])) := by
    refine .cons (by decide) (.append (fun c hc => ?_) (by decide))
    obtain ⟨d, -, hd⟩ := List.mem_flatMap.mp hc
    exact oneLine_escapeShown d c hd
  rw [quoted, hasLineEnd_ofList, hone.any_eq]

/-! ### Operations -/

@[simp] lemma hasLineEnd_wasmType (t : WasmType) : hasLineEnd t.text = false := by
  cases t <;> decide

@[simp] lemma hasLineEnd_signature (f : FunctionSignature) : hasLineEnd f.text = false := by
  have harrow : hasLineEnd " => " = false := by decide
  simp [FunctionSignature.text, harrow, Function.comp_def]

@[simp] lemma hasLineEnd_wasmLiteral (v : WasmLiteral) : hasLineEnd v.text = false := by
  cases v <;> simp [WasmLiteral.text] <;> decide

@[simp] lemma hasLineEnd_limitsText (least : UInt32) (most : Option UInt32) :
    hasLineEnd (Operation.limitsText least most) = false := by
  cases most <;> simp [Operation.limitsText, maximumText, optionText] <;> decide

namespace Operation

@[simp] lemma hasLineEnd_ticked (s : String) : hasLineEnd (ticked s) = hasLineEnd s := by
  have htick : hasLineEnd "'" = false := by decide
  rw [ticked, hasLineEnd_append, hasLineEnd_append, htick, Bool.false_or, Bool.or_false]

/-- The payloads that the textual form writes as they are. -/
def bareTexts : Operation → List String
  | loadRegExp pattern flags => [pattern, flags]
  | loadBuiltin s | getProperty s | setProperty s | deleteProperty s | callMethod s _ _
  | getWasmExport s | getWasmGlobal s => [s]
  | createObject names => names
  | _ => []

lemma hasLineEnd_name (op : Operation) : hasLineEnd op.name = false := by
  cases op <;> exact hasLineEnd_ofList.trans (by decide)

@[simp] lemma hasLineEnd_binaryToken (op : BinaryOperator) : hasLineEnd op.token = false := by
  cases op <;> exact hasLineEnd_ofList.trans (by decide)

@[simp] lemma hasLineEnd_unaryToken (op : UnaryOperator) : hasLineEnd op.token = false := by
  cases op <;> exact hasLineEnd_ofList.trans (by decide)

@[simp] lemma hasLineEnd_comparatorToken (op : Comparator) : hasLineEnd op.token = false := by
  cases op <;> exact hasLineEnd_ofList.trans (by decide)

lemma hasLineEnd_width (w : Width) : hasLineEnd (Enumeration.name w) = false := by
  cases w <;> exact hasLineEnd_ofList.trans (by decide)

lemma hasLineEnd_widthText {α : Type} [Enumeration α] {op : α} (w : Width)
    (h : hasLineEnd (Enumeration.name op) = false) : hasLineEnd (widthText w op) = false := by
  rw [widthText, hasLineEnd_append, hasLineEnd_append, hasLineEnd_width, h]
  rfl

lemma any_hasLineEnd_payloadWords (op : Operation) :
    op.payloadWords.any hasLineEnd = op.bareTexts.any hasLineEnd := by
  have hslash : hasLineEnd "/" = false := by decide
  have hplus : hasLineEnd "+" = false := by decide
  have hguarded : hasLineEnd "(guarded)" = false := by decide
  have hmutable : hasLineEnd "mutable" = false := by decide
  have hshared : hasLineEnd "shared" = false := by decide
  cases op with
  | callFunction n guarded | construct n guarded =>
      cases guarded <;> simp [payloadWords, bareTexts, hguarded]
  | callMethod method n guarded => cases guarded <;> simp [payloadWords, bareTexts, hguarded]
  | createWasmGlobal v m | wasmDefineGlobal v m =>
      cases m <;> simp [payloadWords, bareTexts, hmutable]
  | createWasmMemory least most shared => cases shared <;> simp [payloadWords, bareTexts, hshared]
  | wasmIntBinary w op | wasmIntUnary w op | wasmIntCompare w op | wasmFloatBinary w op
  | wasmFloatUnary w op | wasmFloatCompare w op =>
      have hword := @hasLineEnd_widthText _ _ op w
        (by cases op <;> exact hasLineEnd_ofList.trans (by decide))
      simp [payloadWords, bareTexts, hword]
  | _ =>
      simp [payloadWords, bareTexts, hslash, hplus, hasLineEnd_width, Function.comp_def]

/-- The textual form of an operation. -/
lemma hasLineEnd_text (op : Operation) : hasLineEnd op.text = op.bareTexts.any hasLineEnd := by
  rw [text, hasLineEnd_joined (by decide), List.any_cons, hasLineEnd_name, Bool.false_or,
    any_hasLineEnd_payloadWords]

end Operation

@[simp] lemma hasLineEnd_variablesText (vs : List Variable) :
    hasLineEnd (variablesText vs) = false := by
  have hletter : hasLineEnd "v" = false := by decide
  rw [variablesText, hasLineEnd_joined (by decide), List.any_map]
  simp [Variable.text, hletter]

/-- **The textual form of an instruction** goes over a line end only in a payload that is written
as it is. -/
theorem Instruction.hasLineEnd_text (i : Instruction) :
    hasLineEnd i.text = i.operation.bareTexts.any hasLineEnd := by
  have hempty : hasLineEnd "" = false := by decide
  have hspace : hasLineEnd " " = false := by decide
  have hleft : hasLineEnd " <- " = false := by decide
  have hright : hasLineEnd " -> " = false := by decide
  rw [← Operation.hasLineEnd_text]
  simp [text, hempty, hspace, hleft, hright]

end EngineFuzz
