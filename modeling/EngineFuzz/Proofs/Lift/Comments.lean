import Mathlib
import EngineFuzz.Proofs.Lift.MissingOperands
import EngineFuzz.Proofs.Lift.ScopedScripts
import EngineFuzz.Proofs.Script.LineEnds

/-!
# Scripts with comments

Lifting with comments writes what lifting without them writes, with one comment for each
instruction in between.  A comment stays on one line unless the textual form of its instruction
goes over a line end: then the rest of it is read as part of the script.

* `Commented`: lines with comments between them.
* `Lifter.step_commented`, `Lifter.run_commented`: what lifting writes with comments.
* `Program.lift_commented`: the scripts, and when each comment is a line of its own.
-/

namespace EngineFuzz

/-! ### Comments between lines -/

/-- The comment with the textual form of an instruction. -/
def commentLine (level : Nat) (i : Instruction) : String :=
  ScriptWriter.indentation level ++ ("// " ++ i.text)

/-- The last lines are those in front of them with one comment for each of the instructions in
between, in order. -/
inductive Commented : List Instruction → List String → List String → Prop
  | nil : Commented [] [] []
  | line {is : List Instruction} {ls ms : List String} (s : String) (tail : Commented is ls ms) :
      Commented is (s :: ls) (s :: ms)
  | comment {is : List Instruction} {ls ms : List String} (level : Nat) (i : Instruction)
      (tail : Commented is ls ms) : Commented (i :: is) ls (commentLine level i :: ms)

namespace Commented

variable {is js : List Instruction} {ls ls' ms ms' : List String}

lemma lines (ls : List String) : Commented [] ls ls := by
  induction ls with
  | nil => exact .nil
  | cons s ls ih => exact .line s ih

lemma append (h : Commented is ls ms) (h' : Commented js ls' ms') :
    Commented (is ++ js) (ls ++ ls') (ms ++ ms') := by
  induction h with
  | nil => exact h'
  | line s _ ih => exact .line s ih
  | comment level i _ ih => exact .comment level i ih

/-- The comments are all that is added. -/
lemma length_eq (h : Commented is ls ms) : ms.length = ls.length + is.length := by
  induction h with
  | nil => rfl
  | line s _ ih => rw [List.length_cons, List.length_cons, ih, Nat.add_right_comm]
  | comment level i _ ih => rw [List.length_cons, List.length_cons, ih, Nat.add_assoc]

end Commented

lemma hasLineEnd_commentLine (level : Nat) (i : Instruction) :
    hasLineEnd (commentLine level i) = hasLineEnd i.text := by
  have hslashes : hasLineEnd "// " = false := by decide
  have hspaces : OneLine (List.replicate (4 * level) ' ') := fun c hc => by
    rw [List.eq_of_mem_replicate hc]
    rfl
  rw [commentLine, hasLineEnd_append, hasLineEnd_append, hslashes, ScriptWriter.indentation,
    hasLineEnd_ofList, hspaces.any_eq, Bool.false_or, Bool.false_or]

namespace Commented

variable {is : List Instruction} {ls ms : List String}

/-- Comments that go over no line end are lines, also where the lines between them are split. -/
lemma flatMap_linesOf (h : Commented is ls ms) (hi : ∀ i ∈ is, hasLineEnd i.text = false) :
    Commented is (ls.flatMap linesOf) (ms.flatMap linesOf) := by
  induction h with
  | nil => exact .nil
  | line s _ ih => exact (lines (linesOf s)).append (ih hi)
  | comment level i _ ih =>
      obtain ⟨hfirst, hrest⟩ := List.forall_mem_cons.mp hi
      rw [← hasLineEnd_commentLine level] at hfirst
      rw [List.flatMap_cons, linesOf_eq_singleton hfirst]
      exact .comment level i (ih hrest)

/-- Comments are at least as many lines as they are, and more if one of them goes over a line
end. -/
lemma length_flatMap_linesOf (h : Commented is ls ms) :
    (ls.flatMap linesOf).length + is.length ≤ (ms.flatMap linesOf).length ∧
      ((ms.flatMap linesOf).length = (ls.flatMap linesOf).length + is.length →
        ∀ i ∈ is, hasLineEnd i.text = false) := by
  induction h with
  | nil => exact ⟨le_rfl, fun _ => List.forall_mem_nil _⟩
  | line s _ ih =>
      obtain ⟨hle, heq⟩ := ih
      simp only [List.flatMap_cons, List.length_append]
      exact ⟨by omega, fun h => heq (by omega)⟩
  | comment level i _ ih =>
      obtain ⟨hle, heq⟩ := ih
      have hpos := length_linesOf_pos (commentLine level i)
      simp only [List.flatMap_cons, List.length_append, List.length_cons]
      refine ⟨by omega, fun h => List.forall_mem_cons.mpr ⟨?_, heq (by omega)⟩⟩
      by_contra hend
      rw [Bool.not_eq_false, ← hasLineEnd_commentLine level] at hend
      have hlong := one_lt_length_linesOf hend
      omega

end Commented

/-! ### Writers -/

namespace ScriptWriter

variable {w v : ScriptWriter} {is : List Instruction}

/-- The lines that are written so far. -/
def Wrote (w : ScriptWriter) (ls : List String) : Prop := w.lines.reverse = ls.map (· ++ "\n")

lemma Wrote.emit {ls : List String} (h : w.Wrote ls) (s : String) :
    (w.emit s).Wrote (ls ++ [indentation w.level ++ s]) := by
  rw [Wrote, ScriptWriter.emit, List.reverse_cons, h, List.map_append, List.map_singleton]

lemma Wrote.text_eq {ls : List String} (h : w.Wrote ls) : w.text = ended ls := by
  rw [text, h, ended]

/-- The writer has written what the other one has, and comments for instructions in between. -/
structure CommentedBy (w : ScriptWriter) (is : List Instruction) (v : ScriptWriter) : Prop where
  level_eq : w.level = v.level
  lines : ∃ ls ms, v.Wrote ls ∧ w.Wrote ms ∧ Commented is ls ms

lemma CommentedBy.emit (h : w.CommentedBy is v) (s : String) :
    (w.emit s).CommentedBy is (v.emit s) := by
  obtain ⟨hlevel, ls, ms, hls, hms, hc⟩ := h
  refine ⟨hlevel, _, _, hls.emit s, hms.emit s, ?_⟩
  have happend := hc.append (.lines [indentation v.level ++ s])
  rw [List.append_nil] at happend
  rwa [hlevel]

lemma CommentedBy.withLevel (h : w.CommentedBy is v) (f : Nat → Nat) :
    CommentedBy { w with level := f w.level } is { v with level := f v.level } :=
  ⟨congrArg f h.level_eq, h.lines⟩

lemma CommentedBy.write (h : w.CommentedBy is v) (line : ScriptLine) :
    (w.write line).CommentedBy is (v.write line) := by
  obtain ⟨kind, parts⟩ := line
  cases kind with
  | plain => exact h.emit _
  | opening => exact (h.emit _).withLevel (· + 1)
  | closing => exact (h.withLevel (· - 1)).emit _
  | reopening => exact ((h.withLevel (· - 1)).emit _).withLevel (· + 1)

lemma CommentedBy.writeAll (h : w.CommentedBy is v) (lines : List ScriptLine) :
    (w.writeAll lines).CommentedBy is (v.writeAll lines) := by
  induction lines generalizing w v with
  | nil => exact h
  | cons line lines ih => exact ih (h.write line)

lemma CommentedBy.comment (h : w.CommentedBy is v) (i : Instruction) :
    (w.emit ("// " ++ i.text)).CommentedBy (is ++ [i]) v := by
  obtain ⟨hlevel, ls, ms, hls, hms, hc⟩ := h
  refine ⟨hlevel, ls, _, hls, hms.emit _, ?_⟩
  have happend := hc.append (.comment w.level i .nil)
  rwa [List.append_nil] at happend

end ScriptWriter

/-! ### Lifting -/

namespace Lifter

variable {l : Lifter} {w w' : ScriptWriter} {i : Instruction}

/-- What is written of an instruction does not depend on what is written before. -/
lemma instruction_congr (ha : i.hasConsistentArity = true) (h : l.instruction w i = .ok w')
    (v : ScriptWriter) : l.instruction v i = .ok (v.writeAll (l.lines i)) := by
  have hhome : i.operation.home = .script := by
    obtain ⟨op, inputs, outputs, innerOutputs⟩ := i
    cases op <;> first | rfl | cases h
  have hbegin : i.operation ≠ .beginWasmModule := by
    intro hop
    rw [instruction, hop] at h
    exact nomatch h
  have hsmall : i.CountSmall := by
    by_contra hc
    refine inputs_ne_nil h (fun hnone => hc fun n hn => ?_) (i.inputs_eq_nil ha hc)
    rw [hnone] at hn
    cases hn
  obtain ⟨v', hv'⟩ := exists_instruction (l := l) (w := v) ha hsmall hhome hbegin
  rw [hv', instruction_eq ha hv']

lemma module_congr {m : EncodedModule} (h : l.module w m i = .ok w') (v : ScriptWriter) :
    l.module v m i = .ok (v.writeAll (l.moduleLines m i)) := by
  obtain ⟨v', hv'⟩ : ∃ v', l.module v m i = .ok v' := by
    unfold module at h ⊢
    split at h
    · rename_i ho
      exact ⟨_, rfl⟩
    · exact nomatch h
  rw [hv', module_eq hv']

variable {s s' : Progress} {is js : List Instruction} {index : Nat}

/-- **An instruction with a comment** is lifted to the same lines behind the comment. -/
theorem step_commented (hc : w.CommentedBy is s.writer) (ha : i.hasConsistentArity = true)
    (h : l.step false s index i = .ok s') :
    ∃ w', l.step true { s with writer := w } index i = .ok { s' with writer := w' } ∧
      w'.CommentedBy (is ++ [i]) s'.writer := by
  obtain ⟨v, inside, modules⟩ := s
  have hcomment := hc.comment i
  by_cases hbegin : i.operation = .beginWasmModule
  · rw [step, hbegin] at h ⊢
    obtain rfl := Except.ok.inj h
    exact ⟨_, rfl, hcomment⟩
  by_cases hend : i.operation = .endWasmModule
  · rw [step, hend] at h ⊢
    dsimp only at h ⊢
    split at h
    · cases h
    · rename_i m _
      obtain ⟨v', hv', h⟩ := bind_eq_ok_iff.mp h
      obtain rfl := Except.ok.inj h
      have hv' : l.module v m i = .ok v' := hv'
      refine ⟨(w.emit ("// " ++ i.text)).writeAll (l.moduleLines m i), ?_, ?_⟩
      · rw [if_pos rfl, module_congr hv']
        rfl
      · rw [module_eq hv']
        exact hcomment.writeAll _
  rw [step_eq hbegin hend] at h ⊢
  cases inside with
  | true =>
      obtain rfl := Except.ok.inj h
      exact ⟨_, rfl, hcomment⟩
  | false =>
      obtain ⟨v', hv', h⟩ := bind_eq_ok_iff.mp (show (do
        let writer ← l.instruction v i
        return (⟨writer, false, modules⟩ : Progress)) = .ok s' from h)
      obtain rfl := Except.ok.inj h
      refine ⟨(w.emit ("// " ++ i.text)).writeAll (l.lines i), ?_, ?_⟩
      · change (do
          let writer ← l.instruction (w.emit ("// " ++ i.text)) i
          return (⟨writer, false, modules⟩ : Progress)) = _
        rw [instruction_congr ha hv']
        rfl
      · rw [instruction_eq ha hv']
        exact hcomment.writeAll _

/-- **Instructions with comments** are lifted to the same lines with the comments in between. -/
theorem run_commented (hc : w.CommentedBy is s.writer) (ha : ∀ i ∈ js, i.hasConsistentArity = true)
    (h : l.run false s index js = .ok s') :
    ∃ w', l.run true { s with writer := w } index js = .ok { s' with writer := w' } ∧
      w'.CommentedBy (is ++ js) s'.writer := by
  induction js generalizing is s w index with
  | nil =>
      obtain rfl := Except.ok.inj h
      exact ⟨w, rfl, by rwa [List.append_nil]⟩
  | cons i js ih =>
      obtain ⟨hi, hrest⟩ := List.forall_mem_cons.mp ha
      obtain ⟨s₁, hs₁, h⟩ := bind_eq_ok_iff.mp h
      obtain ⟨w₁, hw₁, hc₁⟩ := step_commented hc hi hs₁
      obtain ⟨w', hw', hc'⟩ := ih hc₁ hrest h
      refine ⟨w', ?_, by rwa [List.append_assoc] at hc'⟩
      rw [run, hw₁]
      exact hw'

end Lifter

/-! ### Programs -/

namespace Program

variable {p : Program} {e : Environment} {plain : String}

/-- **Scripts with comments.**  A program that is lifted is also lifted with comments: what is
written is the same, with one comment for each instruction in between, in order.  Each comment is
one line of the script, and the others are the lines of the script without comments, exactly if no
payload that the textual form writes as it is goes over a line end. -/
theorem lift_commented (h : p.lift e false = .ok plain) :
    ∃ commented, p.lift e true = .ok commented ∧
      (∃ ls ms, plain = ended ls ∧ commented = ended ms ∧ Commented p.instructions ls ms) ∧
      (Commented p.instructions (linesOf plain) (linesOf commented) ↔
        ∀ i ∈ p.instructions, ∀ s ∈ i.operation.bareTexts, hasLineEnd s = false) := by
  obtain ⟨u, harity, -⟩ := bind_eq_ok_iff.mp h
  obtain ⟨encoded, q, henc, hq, rfl⟩ := exists_run_of_lift h
  have hstart : ScriptWriter.empty.CommentedBy [] .empty := ⟨rfl, [], [], rfl, rfl, .nil⟩
  obtain ⟨w, hw, -, ls, ms, hls, hms, hc⟩ :=
    Lifter.run_commented hstart (hasConsistentArity_of_forM harity) hq
  rw [List.nil_append] at hc
  refine ⟨w.text, ?_, ⟨ls, ms, hls.text_eq, hms.text_eq, hc⟩, ?_⟩
  · rw [lift, harity]
    change (do
      let modules ← p.encodeModules e
      let final ← (Lifter.ofInstructions p.instructions).run true ⟨.empty, false, modules⟩ 0
        p.instructions
      return final.writer.text) = _
    rw [henc]
    change (do
      let final ← (Lifter.ofInstructions p.instructions).run true ⟨.empty, false, encoded⟩ 0
        p.instructions
      return final.writer.text) = _
    rw [hw]
    rfl
  · have hbare : (∀ i ∈ p.instructions, ∀ s ∈ i.operation.bareTexts, hasLineEnd s = false) ↔
        ∀ i ∈ p.instructions, hasLineEnd i.text = false := by
      simp [Instruction.hasLineEnd_text]
    rw [hbare, hls.text_eq, hms.text_eq, linesOf_ended, linesOf_ended]
    constructor
    · intro hlines
      have hlength := hlines.length_eq
      rw [List.length_append, List.length_append] at hlength
      exact hc.length_flatMap_linesOf.2 (by omega)
    · intro hi
      have hlines := (hc.flatMap_linesOf hi).append (.lines [""])
      rwa [List.append_nil] at hlines

end Program

/-- A program with a line end in a constant. -/
def lineEndConstant : Program := .ofInstructions [⟨.loadString "a\nb", [], [⟨0⟩], []⟩]

theorem lift_commented_lineEndConstant :
    lineEndConstant.lift .script false = .ok "const v0 = \"a\\nb\";\n" ∧
      ∃ commented, lineEndConstant.lift .script true = .ok commented ∧
        Commented lineEndConstant.instructions (linesOf "const v0 = \"a\\nb\";\n")
          (linesOf commented) := by
  have hplain : lineEndConstant.lift .script false = .ok "const v0 = \"a\\nb\";\n" := by
    decide +kernel
  obtain ⟨commented, hcommented, -, hlines⟩ := Program.lift_commented hplain
  exact ⟨hplain, commented, hcommented, hlines.mpr (by decide)⟩

/-- A program with a line end in the name of a property. -/
def lineEndProperty : Program :=
  .ofInstructions [⟨.loadNull, [], [⟨0⟩], []⟩, ⟨.getProperty "a\nthrow 0//", [⟨0⟩], [⟨1⟩], []⟩]

/-- It is accepted, and what follows the line end is a statement of the script with comments. -/
theorem lift_lineEndProperty :
    lineEndProperty.validate .script = .ok () ∧
      ∃ plain commented, lineEndProperty.lift .script false = .ok plain ∧
        lineEndProperty.lift .script true = .ok commented ∧
        ¬Commented lineEndProperty.instructions (linesOf plain) (linesOf commented) ∧
        "throw 0//' v0" ∈ linesOf commented := by
  refine ⟨?_, "const v0 = null;\nconst v1 = v0[\"a\\nthrow 0//\"];\n",
    "// v0 <- LoadNull\nconst v0 = null;\n// v1 <- GetProperty 'a\nthrow 0//' v0\n" ++
      "const v1 = v0[\"a\\nthrow 0//\"];\n", by decide +kernel, by decide +kernel, fun h => ?_,
    by decide⟩
  · rw [Program.validate_eq_ok_iff]
    refine ⟨_, .cons (Validator.step_mk rfl (by simp) (by decide) rfl rfl rfl)
      (.cons (Validator.step_mk rfl (fun v hv => ?_) (by decide) ?_ rfl rfl) (.nil _)), rfl⟩
    · rw [List.mem_singleton.mp hv]
      exact ScopeState.isVisible_apply_of_mem (by decide) (by decide)
    · rw [List.map_cons, Typer.typeOf_apply_of_outputs rfl (by decide) (by decide) rfl rfl]
      rfl
  · exact absurd h.length_eq (by decide)

end EngineFuzz
