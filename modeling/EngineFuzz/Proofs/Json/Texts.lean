import Mathlib
import EngineFuzz.Proofs.Json.Numerals
import EngineFuzz.Proofs.Json.Strings

/-!
# Values as they are written

A value is read back from its text, one item a line: the text is cut into the tokens of the value,
and these are put together again.

* `Json.Readable`: the values that can be read.
* `Json.tokens`: the tokens of a value.
* `JsonToken.Scans`: a text that is cut into tokens, with a rule for each kind of text, and
  `Json.scans_prettyText`.
* `Json.Parses`: tokens that are put together to a value, and `Json.parses_tokens`.
* `Json.parse?_pretty`: the main statement.
-/

namespace EngineFuzz

/-! ### Values -/

namespace Json

/-- Values that have a text: all their numbers are numerals. -/
inductive Readable : Json → Prop where
  | null : Readable .null
  | bool (b : Bool) : Readable (.bool b)
  | number {n : Numeral} (wellFormed : n.WellFormed) : Readable (.number (String.ofList n.text))
  | string (s : String) : Readable (.string s)
  | array {items : List Json} (readable : ∀ v ∈ items, Readable v) : Readable (.array items)
  | object {fields : List (String × Json)} (readable : ∀ f ∈ fields, Readable f.2) :
      Readable (.object fields)

/-- Tokens with a comma between them. -/
def separated : List (List JsonToken) → List JsonToken
  | [] => []
  | [t] => t
  | t :: rest => t ++ .comma :: separated rest

mutual
/-- The tokens of a value. -/
def tokens : Json → List JsonToken
  | null => [.null]
  | bool b => [.bool b]
  | number text => [.number text]
  | string s => [.string (some s)]
  | array items => .openArray :: (separated (itemTokens items) ++ [.closeArray])
  | object fields => .openObject :: (separated (fieldTokens fields) ++ [.closeObject])
  | illFormed => []

/-- The tokens of the items of an array. -/
def itemTokens : List Json → List (List JsonToken)
  | [] => []
  | v :: rest => v.tokens :: itemTokens rest

/-- The tokens of the fields of an object. -/
def fieldTokens : List (String × Json) → List (List JsonToken)
  | [] => []
  | (name, v) :: rest => (.string (some name) :: .colon :: v.tokens) :: fieldTokens rest
end

end Json

/-! ### Cutting texts into tokens -/

namespace JsonToken

variable {c : Char} {done more : List JsonToken} {text rest : List Char} {token : JsonToken}

/-- A number or a word ends where the text goes on like this. -/
def Delimits (rest : List Char) : Prop :=
  ∀ c ∈ rest.head?, isNumeric c = false ∧ c.isLower = false

/-- A text is cut into tokens, whatever has been cut before and whatever follows a delimiter. -/
def Scans (text : List Char) (tokens : List JsonToken) : Prop :=
  ∀ done rest, Delimits rest →
    scan? .between done (text ++ rest) = scan? .between (tokens.reverse ++ done) rest

lemma delimits_cons (hn : isNumeric c = false) (hl : c.isLower = false) : Delimits (c :: rest) := by
  intro d hd
  obtain rfl := Option.some.inj hd
  exact ⟨hn, hl⟩

/-- A token that is complete at the next character is complete there. -/
lemma scan?_complete {mode : Mode} (hfinish : finish? mode = some [token])
    (hstep : ∀ c ∈ rest.head?,
      step? mode c = (startToken? c).map fun next => (token :: next.1, next.2)) :
    scan? mode done rest = scan? .between (token :: done) rest := by
  cases rest with
  | nil =>
      rw [scan?, scan?, hfinish]
      rfl
  | cons c rest =>
      rw [scan?, scan?, hstep c rfl, step?]
      cases startToken? c with
      | none => rfl
      | some next =>
          change scan? next.2 ((token :: next.1).reverse ++ done) rest = _
          rw [List.reverse_cons, List.append_assoc]
          rfl

/-- A character that starts a number or a word. -/
lemma scan?_start {mode : Mode} (h : startToken? c = some ([], mode)) :
    scan? .between done (c :: rest) = scan? mode done rest :=
  scan?_silent (show step? .between c = some ([], mode) from h)

/-- A character that is a token of its own. -/
lemma scan?_punctuation (h : startToken? c = some ([token], .between)) :
    scan? .between done (c :: rest) = scan? .between (token :: done) rest :=
  scan?_cons (show step? .between c = some ([token], .between) from h)

/-- Blanks are skipped. -/
lemma scan?_blank (h : isBlank c = true) :
    scan? .between done (c :: rest) = scan? .between done rest := by
  refine scan?_silent ?_
  rw [step?, startToken?, if_pos h]

lemma scan?_newLine (level : Nat) :
    scan? .between done (Json.newLine level ++ rest) = scan? .between done rest := by
  rw [Json.newLine, List.cons_append, scan?_blank rfl]
  induction 2 * level with
  | zero => rfl
  | succ n ih => rw [List.replicate_succ, List.cons_append, scan?_blank rfl, ih]

/-! Words and numbers -/

lemma scan?_word {word : List Char} (h : ∀ c ∈ word, c.isLower = true) :
    scan? (.inWord text) done (word ++ rest) =
      scan? (.inWord (word.reverse ++ text)) done rest := by
  induction word generalizing text with
  | nil => rfl
  | cons c word ih =>
      obtain ⟨hc, hword⟩ := List.forall_mem_cons.mp h
      have hstep : step? (.inWord text) c = some ([], .inWord (c :: text)) := by
        rw [step?, if_pos hc]
      rw [List.cons_append, scan?_silent hstep, ih hword,
        List.reverse_cons, List.append_assoc, List.singleton_append]

lemma scan?_numeric {digits : List Char} (h : ∀ c ∈ digits, isNumeric c = true) :
    scan? (.inNumber text) done (digits ++ rest) =
      scan? (.inNumber (digits.reverse ++ text)) done rest := by
  induction digits generalizing text with
  | nil => rfl
  | cons c digits ih =>
      obtain ⟨hc, hdigits⟩ := List.forall_mem_cons.mp h
      have hstep : step? (.inNumber text) c = some ([], .inNumber (c :: text)) := by
        rw [step?, if_pos hc]
      rw [List.cons_append, scan?_silent hstep, ih hdigits,
        List.reverse_cons, List.append_assoc, List.singleton_append]

/-- One of the three words. -/
lemma scans_word {word : List Char} (hstart : startToken? c = some ([], .inWord [c]))
    (hlower : word.all Char.isLower = true) (hword : ofWord? (c :: word) = some token) :
    Scans (c :: word) [token] := by
  intro done rest hr
  have hback : (word.reverse ++ [c]).reverse = c :: word := by simp
  rw [List.cons_append, scan?_start hstart, scan?_word (List.all_eq_true.mp hlower)]
  refine scan?_complete ?_ fun d hd => ?_
  · rw [finish?, hback, hword]
    rfl
  · rw [step?, if_neg (by simp [(hr d hd).2]), hback, hword]
    cases startToken? d <;> rfl

/-- The characters of a numeral. -/
lemma isNumeric_text {n : Numeral} (h : n.WellFormed) : ∀ c ∈ n.text, isNumeric c = true := by
  have hdigit (c : Char) (hc : c.isDigit = true) : isNumeric c = true := by
    simp [isNumeric, hc]
  have hexp : ∀ c ∈ Numeral.exponentText n.exponent?, isNumeric c = true := by
    cases n.exponent? with
    | none => exact List.forall_mem_nil _
    | some e =>
        refine List.forall_mem_cons.mpr ⟨by decide, List.forall_mem_cons.mpr ⟨?_, ?_⟩⟩
        · split <;> decide
        · exact fun c hc => hdigit c ((startsNumber_natDigits _).isDigit c hc)
  have hfraction : ∀ c ∈ Numeral.fractionText n.fraction?, isNumeric c = true := by
    cases hf : n.fraction? with
    | none => exact List.forall_mem_nil _
    | some digits =>
        exact List.forall_mem_cons.mpr
          ⟨by decide, fun c hc => hdigit c ((h.fraction digits hf).isDigit c hc)⟩
  have hunsigned := List.forall_mem_append.mpr ⟨fun c hc => hdigit c (h.whole.isDigit c hc),
    List.forall_mem_append.mpr ⟨hfraction, hexp⟩⟩
  rw [Numeral.text, signedText]
  split
  · exact List.forall_mem_cons.mpr ⟨by decide, hunsigned⟩
  · exact hunsigned

/-- A numeral starts with a digit or a minus sign. -/
lemma exists_text_eq {n : Numeral} (h : n.WellFormed) :
    ∃ c cs, n.text = c :: cs ∧ (c.isDigit || c = '-') = true := by
  obtain ⟨c, cs, hc⟩ := List.exists_cons_of_ne_nil h.whole.ne_nil
  rw [Numeral.text, signedText]
  split
  · exact ⟨_, _, rfl, by decide⟩
  · rw [hc]
    exact ⟨c, _, rfl, by simp [h.whole.isDigit c (hc ▸ List.mem_cons_self ..)]⟩

/-- What starts a number is no blank and no quote. -/
lemma startToken?_number (h : (c.isDigit || c = '-') = true) :
    startToken? c = some ([], .inNumber [c]) := by
  have hblank : isBlank c = false := by
    by_contra hb
    simp only [isBlank, Bool.not_eq_false, Bool.or_eq_true, decide_eq_true_eq] at hb
    rcases hb with ((rfl | rfl) | rfl) | rfl <;> exact absurd h (by decide)
  have hquote : c ≠ '"' := by
    rintro rfl
    exact absurd h (by decide)
  rw [startToken?, hblank, if_neg Bool.false_ne_true, if_neg hquote, if_pos h]

/-- A number. -/
lemma scans_number {n : Numeral} (h : n.WellFormed) :
    Scans n.text [.number (String.ofList n.text)] := by
  intro done rest hr
  have hnumber : ofNumber? n.text = some (.number (String.ofList n.text)) := by
    rw [ofNumber?, Numeral.ofText?_text h]
    rfl
  have hnumeric := isNumeric_text h
  obtain ⟨c, cs, hc, hstart⟩ := exists_text_eq h
  rw [hc] at hnumber hnumeric ⊢
  have hback : (cs.reverse ++ [c]).reverse = c :: cs := by simp
  rw [List.cons_append, scan?_start (startToken?_number hstart),
    scan?_numeric (List.forall_mem_cons.mp hnumeric).2]
  refine scan?_complete ?_ fun d hd => ?_
  · rw [finish?, hback, hnumber]
    rfl
  · rw [step?, if_neg (by simp [(hr d hd).1]), hback, hnumber]
    cases startToken? d <;> rfl

/-! Containers -/

lemma scans_cons (h : startToken? c = some ([token], .between)) {tokens : List JsonToken}
    (ht : Scans text tokens) : Scans (c :: text) (token :: tokens) := by
  intro done rest hr
  rw [List.cons_append, scan?_punctuation h, ht _ _ hr, List.reverse_cons, List.append_assoc,
    List.singleton_append]

lemma scans_blank (h : isBlank c = true) {tokens : List JsonToken} (ht : Scans text tokens) :
    Scans (c :: text) tokens := by
  intro done rest hr
  rw [List.cons_append, scan?_blank h, ht _ _ hr]

/-- Items with a comma and a new line between them. -/
lemma scans_commaSeparated {items : List (List Char)} {tokens : List (List JsonToken)}
    (h : List.Forall₂ Scans items tokens) (level : Nat) :
    Scans (Json.commaSeparated (Json.newLine level) items) (Json.separated tokens) := by
  induction h with
  | nil => exact fun done rest _ => rfl
  | @cons item tokens items rest hi hrest ih =>
      cases hrest with
      | nil => exact hi
      | @cons item' tokens' items' rest' hi' hrest' =>
          intro done rest'' hr
          have hcomma : startToken? ',' = some ([.comma], .between) := rfl
          rw [Json.commaSeparated, Json.separated, List.append_assoc, List.cons_append,
            hi _ _ (delimits_cons rfl rfl), scan?_punctuation hcomma, List.append_assoc,
            scan?_newLine, ih _ _ hr]
          simp
          all_goals simp

/-- A container with one item a line. -/
lemma scans_block {opening closing : Char} {first last : JsonToken} {items : List (List Char)}
    {tokens : List (List JsonToken)} (hopen : startToken? opening = some ([first], .between))
    (hclose : startToken? closing = some ([last], .between))
    (h : List.Forall₂ Scans items tokens) (level : Nat) :
    Scans (Json.block opening closing level items)
      (first :: (Json.separated tokens ++ [last])) := by
  intro done rest hr
  unfold Json.block
  cases h with
  | nil =>
      change scan? .between done (opening :: closing :: rest) = _
      rw [scan?_punctuation hopen, scan?_punctuation hclose]
      rfl
  | @cons item ts items' rest' hi hrest =>
      have hitems := scans_commaSeparated (.cons hi hrest) (level + 1)
      have hline : Delimits (Json.newLine level ++ closing :: rest) := delimits_cons rfl rfl
      rw [List.isEmpty_cons, if_neg Bool.false_ne_true, List.cons_append,
        scan?_punctuation hopen]
      simp only [List.append_assoc, List.singleton_append]
      rw [scan?_newLine, hitems _ _ hline, scan?_newLine, scan?_punctuation hclose]
      simp

end JsonToken

namespace Json

open JsonToken

/-- A container is cut into tokens if all its items are. -/
lemma forall₂_prettyItems {items : List Json} {level : Nat}
    (h : ∀ v ∈ items, Scans (v.prettyText level) v.tokens) :
    List.Forall₂ Scans (prettyItems level items) (itemTokens items) := by
  induction items with
  | nil => exact .nil
  | cons v items ih =>
      obtain ⟨hv, hitems⟩ := List.forall_mem_cons.mp h
      exact .cons hv (ih hitems)

lemma forall₂_prettyFields {fields : List (String × Json)} {level : Nat}
    (h : ∀ f ∈ fields, Scans (f.2.prettyText level) f.2.tokens) :
    List.Forall₂ Scans (prettyFields level fields) (fieldTokens fields) := by
  induction fields with
  | nil => exact .nil
  | cons f fields ih =>
      obtain ⟨hf, hfields⟩ := List.forall_mem_cons.mp h
      refine .cons ?_ (ih hfields)
      intro done rest hr
      rw [List.append_assoc, scan?_jsonQuoted]
      exact (scans_cons rfl (scans_blank rfl hf) _ _ hr).trans (by simp)

/-- **The text of a value is cut into its tokens.** -/
theorem scans_prettyText {v : Json} (h : v.Readable) (level : Nat) :
    Scans (v.prettyText level) v.tokens := by
  induction h generalizing level with
  | null =>
      change Scans ['n', 'u', 'l', 'l'] _
      exact scans_word rfl rfl rfl
  | bool b =>
      cases b
      · change Scans ['f', 'a', 'l', 's', 'e'] _
        exact scans_word rfl rfl rfl
      · change Scans ['t', 'r', 'u', 'e'] _
        exact scans_word rfl rfl rfl
  | number h =>
      change Scans (String.ofList _).toList _
      rw [String.toList_ofList]
      exact scans_number h
  | string s =>
      intro done rest _
      exact scan?_jsonQuoted s
  | array _ ih => exact scans_block rfl rfl (forall₂_prettyItems fun v hv => ih v hv _) level
  | object _ ih => exact scans_block rfl rfl (forall₂_prettyFields fun f hf => ih f hf _) level

theorem ofText?_pretty {v : Json} (h : v.Readable) : ofText? v.pretty.toList = some v.tokens := by
  have hscan := scans_prettyText h 0 [] [] fun _ hc => by cases hc
  rw [List.append_nil] at hscan
  rw [pretty, String.toList_ofList, ofText?, hscan]
  simp [scan?, finish?]

/-! ### Putting tokens together -/

section Containers

open ParserState

/-- Tokens are put together to a value, whatever is open and whatever follows.  They do not start
with what closes an array. -/
structure Parses (v : Json) (tokens : List JsonToken) : Prop where
  exists_cons : ∃ t ts, tokens = t :: ts ∧ t ≠ .closeArray
  run_append : ∀ stack rest,
    run ⟨stack, .value⟩ (tokens ++ rest) = (complete v stack).bind (run · rest)

lemma parses_leaf {v : Json} {token : JsonToken} (hne : token ≠ .closeArray)
    (h : ∀ stack, startValue token stack = complete v stack) : Parses v [token] := by
  refine ⟨⟨token, [], rfl, hne⟩, fun stack rest => ?_⟩
  change (startValue token stack).bind (run · rest) = _
  rw [h]

variable {α : Type}

/-- A kind of container: how it stands open with its parts in reverse, what a part starts with, the
token that closes it, and the value that it is then. -/
structure ContainerKind (α : Type) where
  opened : List α → OpenContainer
  part : Expectation
  closing : JsonToken
  value : List α → Json
  closing_ne_comma : closing ≠ .comma
  afterComma_opened : ∀ done stack,
    afterComma (opened done :: stack) = some ⟨opened done :: stack, part⟩
  close_opened : ∀ done stack,
    close closing (opened done :: stack) = complete (value done.reverse) stack

namespace ContainerKind

variable {kind : ContainerKind α} {done parts : List α} {stack : List OpenContainer}
  {tokens : List (List JsonToken)} {rest : List JsonToken}

/-- Tokens are put together to a part of an open container. -/
def ParsesPart (kind : ContainerKind α) (a : α) (tokens : List JsonToken) : Prop :=
  ∀ done stack rest, run ⟨kind.opened done :: stack, kind.part⟩ (tokens ++ rest) =
    run ⟨kind.opened (a :: done) :: stack, .commaOrEnd⟩ rest

lemma run_comma : run ⟨kind.opened done :: stack, .commaOrEnd⟩ (.comma :: rest) =
    run ⟨kind.opened done :: stack, kind.part⟩ rest := by
  change (afterComma (kind.opened done :: stack)).bind (run · rest) = _
  rw [kind.afterComma_opened]
  rfl

lemma run_closing : run ⟨kind.opened done :: stack, .commaOrEnd⟩ (kind.closing :: rest) =
    (complete (kind.value done.reverse) stack).bind (run · rest) := by
  rw [run, step, if_neg kind.closing_ne_comma, kind.close_opened]

/-- Parts with commas between them, up to what closes the container. -/
lemma run_separated (h : List.Forall₂ kind.ParsesPart parts tokens) (hne : parts ≠ []) :
    run ⟨kind.opened done :: stack, kind.part⟩ (separated tokens ++ kind.closing :: rest) =
      (complete (kind.value (done.reverse ++ parts)) stack).bind (run · rest) := by
  induction h generalizing done with
  | nil => exact absurd rfl hne
  | @cons a ts parts tokens ha hrest ih =>
      have hdone (parts : List α) : (a :: done).reverse ++ parts = done.reverse ++ a :: parts := by
        simp
      cases hrest with
      | nil => rw [separated, ha, run_closing, ← hdone, List.append_nil]
      | cons hb hrest =>
          rw [separated, List.append_assoc, ha, List.cons_append, run_comma,
            ih (List.cons_ne_nil _ _), hdone]
          all_goals exact fun h => by cases h

/-- Arrays. -/
def array : ContainerKind Json where
  opened := .array
  part := .value
  closing := .closeArray
  value := .array
  closing_ne_comma := by decide
  afterComma_opened _ _ := rfl
  close_opened _ _ := rfl

/-- Objects. -/
def object : ContainerKind (String × Json) where
  opened fields := .object fields true
  part := .name
  closing := .closeObject
  value := .object
  closing_ne_comma := by decide
  afterComma_opened _ _ := rfl
  close_opened _ _ := rfl

end ContainerKind

lemma exists_separated_itemTokens {v : Json} (items : List Json) (h : Parses v v.tokens) :
    ∃ t ts, separated (itemTokens (v :: items)) = t :: ts ∧ t ≠ .closeArray := by
  obtain ⟨t, ts, hv, ht⟩ := h.exists_cons
  rw [itemTokens, hv]
  cases items with
  | nil => exact ⟨t, ts, rfl, ht⟩
  | cons w items => exact ⟨t, _, rfl, ht⟩

lemma parses_array {items : List Json} (h : ∀ v ∈ items, Parses v v.tokens) :
    Parses (.array items) (tokens (.array items)) := by
  refine ⟨⟨_, _, rfl, by decide⟩, fun stack rest => ?_⟩
  have hparts : List.Forall₂ ContainerKind.array.ParsesPart items (itemTokens items) := by
    induction items with
    | nil => exact .nil
    | cons v items ih =>
        obtain ⟨hv, hitems⟩ := List.forall_mem_cons.mp h
        exact .cons (fun done stack rest => hv.run_append _ _) (ih hitems)
  cases items with
  | nil => rfl
  | cons v items =>
      obtain ⟨t, ts, hfirst, ht⟩ := exists_separated_itemTokens items (h v (List.mem_cons_self ..))
      have hopen : run ⟨stack, .value⟩ (tokens (.array (v :: items)) ++ rest) =
          run ⟨.array [] :: stack, .value⟩
            (separated (itemTokens (v :: items)) ++ .closeArray :: rest) := by
        rw [tokens, List.cons_append, List.append_assoc, hfirst]
        change (step ⟨.array [] :: stack, .valueOrEnd⟩ t).bind _ = _
        rw [step, if_neg ht]
        rfl
      exact hopen.trans (ContainerKind.run_separated hparts (List.cons_ne_nil _ _))

lemma parses_object {fields : List (String × Json)} (h : ∀ f ∈ fields, Parses f.2 f.2.tokens) :
    Parses (.object fields) (tokens (.object fields)) := by
  refine ⟨⟨_, _, rfl, by decide⟩, fun stack rest => ?_⟩
  have hparts : List.Forall₂ ContainerKind.object.ParsesPart fields (fieldTokens fields) := by
    induction fields with
    | nil => exact .nil
    | cons f fields ih =>
        obtain ⟨hf, hfields⟩ := List.forall_mem_cons.mp h
        exact .cons (fun done stack rest => hf.run_append _ _) (ih hfields)
  cases fields with
  | nil => rfl
  | cons f fields =>
      have hopen : run ⟨stack, .value⟩ (tokens (.object (f :: fields)) ++ rest) =
          run ⟨.object [] true :: stack, .name⟩
            (separated (fieldTokens (f :: fields)) ++ .closeObject :: rest) := by
        rw [tokens, List.cons_append, List.append_assoc]
        cases fields <;> rfl
      exact hopen.trans (ContainerKind.run_separated hparts (List.cons_ne_nil _ _))

end Containers

/-- **The tokens of a value are put together to it.** -/
theorem parses_tokens {v : Json} (h : v.Readable) : Parses v v.tokens := by
  induction h with
  | null => exact parses_leaf (by decide) fun _ => rfl
  | bool b | number _ | string s => exact parses_leaf (fun h => by cases h) fun _ => rfl
  | array _ ih => exact parses_array ih
  | object _ ih => exact parses_object ih

/-- **A value is read back from its text.** -/
theorem parse?_pretty {v : Json} (h : v.Readable) : parse? v.pretty = some v := by
  have hrun := (parses_tokens h).run_append [] []
  rw [List.append_nil] at hrun
  rw [parse?, ofText?_pretty h, Option.bind_some, ofTokens?, hrun]
  rfl

end Json

end EngineFuzz
