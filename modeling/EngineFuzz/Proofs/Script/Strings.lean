import Mathlib
import EngineFuzz.Script.Literal
import EngineFuzz.Proofs.Json.Strings

/-!
# Strings in scripts

A string literal of a script goes on up to the first quote that is not escaped.  Scripts know more
escapes than JSON does, but those of JSON mean the same in both.

* `StringLiteral.read?`: the code units of a literal, with every escape that scripts have.
* `StringLiteral.decode?`: the string that a literal denotes, and what follows it.
* `StringLiteral.Body`: what may stand between the quotes when JSON escapes are written.
* `StringLiteral.decode?_string`: a string is decoded from its literal.
* `StringLiteral.exists_body`: nothing between the quotes ends the literal or the line.
-/

namespace EngineFuzz

/-- The characters that end a line of a script. -/
def isLineEnd (c : Char) : Bool := c = '\n' || c = '\r' || c = '\u2028' || c = '\u2029'

namespace StringLiteral

/-! ### Reading a literal -/

/-- What is being read behind the opening quote. -/
inductive Mode where
  | plain
  /-- After a backslash. -/
  | escape
  /-- Hexadecimal digits, so many of them still to come. -/
  | hex (left value : Nat)
  /-- Hexadecimal digits up to a brace. -/
  | braced (value? : Option Nat)

/-- The character that one after a backslash stands for; most stand for themselves. -/
def escaped : Char → Char
  | 'b' => '\x08'
  | 't' => '\t'
  | 'n' => '\n'
  | 'v' => '\x0b'
  | 'f' => '\x0c'
  | 'r' => '\r'
  | c => c

/-- One more code unit in front. -/
def withUnit (unit : Nat) (read? : Option (List Nat × List Char)) :
    Option (List Nat × List Char) :=
  read?.map fun (units, rest) => (unit :: units, rest)

/-- The code units up to the closing quote, and what follows the quote.  A character that is not
escaped is one unit.  A line ends the literal too early, unless the end of the line is escaped and
with that left out; digits after a backslash are an error, but for a zero that stands alone. -/
def read? : Mode → List Char → Option (List Nat × List Char)
  | _, [] => none
  | .plain, c :: rest =>
    if c = '"' then some ([], rest)
    else if c = '\\' then read? .escape rest
    else if c = '\n' ∨ c = '\r' then none
    else withUnit c.toNat (read? .plain rest)
  | .escape, '\r' :: '\n' :: rest => read? .plain rest
  | .escape, 'u' :: '\x7b' :: rest => read? (.braced none) rest
  | .escape, c :: rest =>
    if c = 'x' then read? (.hex 2 0) rest
    else if c = 'u' then read? (.hex 4 0) rest
    else if isLineEnd c then read? .plain rest
    else if c.isDigit then
      if c = '0' && !rest.head?.any Char.isDigit then withUnit 0 (read? .plain rest) else none
    else withUnit (escaped c).toNat (read? .plain rest)
  | .hex left value, c :: rest =>
    match hexDigit? c with
    | none => none
    | some d =>
      if left ≤ 1 then withUnit (16 * value + d) (read? .plain rest)
      else read? (.hex (left - 1) (16 * value + d)) rest
  | .braced value?, c :: rest =>
    if c = '\x7d' then
      match value? with
      | none => none
      | some value => if value ≤ 0x10ffff then withUnit value (read? .plain rest) else none
    else
      match hexDigit? c with
      | none => none
      | some d => read? (.braced (some (16 * value?.getD 0 + d))) rest

/-- The string that a literal between double quotes denotes, and what follows the literal.  A
surrogate without partner is no character. -/
def decode? : List Char → Option (String × List Char)
  | '"' :: body => do
    let (units, rest) ← read? .plain body
    let cs ← JsonToken.joinUnits? units
    return (String.ofList cs, rest)
  | _ => none

/-- Every kind of escape, and a quote that ends the literal. -/
example : decode? "\"\\x41\\u0042\\u\x7b43\x7d\\v\\0\\q\\\n\"\"".toList =
    some (String.ofList ['A', 'B', 'C', '\x0b', '\x00', 'q'], ['"']) := by
  decide

/-! ### What is written -/

variable {c : Char} {rest : List Char}

lemma read?_plain (h : JsonToken.Plain c) :
    read? .plain (c :: rest) = withUnit c.toNat (read? .plain rest) := by
  have hline : ¬(c = '\n' ∨ c = '\r') := by
    rintro (rfl | rfl) <;> exact absurd h.not_control (by decide)
  change (if c = '"' then _ else if c = '\\' then _ else
    if c = '\n' ∨ c = '\r' then none else _) = _
  rw [if_neg h.not_quote, if_neg h.not_backslash, if_neg hline]

/-- An escape of JSON means the same in a script. -/
lemma read?_letter {letter : Char} (h : JsonToken.escaped? letter = some c) :
    read? .plain ('\\' :: letter :: rest) = withUnit c.toNat (read? .plain rest) := by
  unfold JsonToken.escaped? at h
  split at h
  all_goals
    cases h
  all_goals rfl

lemma read?_unicode (h : rest.head? ≠ some '\x7b') :
    read? .plain ('\\' :: 'u' :: rest) = read? (.hex 4 0) rest := by
  have hescape : read? .plain ('\\' :: 'u' :: rest) = read? .escape ('u' :: rest) := rfl
  rw [hescape, read?]
  · rfl
  · exact nofun
  · rintro rest' - rfl
    exact h rfl

lemma read?_digit {d left value : Nat} (hd : hexDigit? c = some d) :
    read? (.hex left value) (c :: rest) =
      if left ≤ 1 then withUnit (16 * value + d) (read? .plain rest)
      else read? (.hex (left - 1) (16 * value + d)) rest := by
  change (match hexDigit? c with
    | none => none
    | some d => if left ≤ 1 then withUnit (16 * value + d) (read? .plain rest)
      else read? (.hex (left - 1) (16 * value + d)) rest) = _
  rw [hd]

/-- A digit that is not the last. -/
lemma read?_hex {d left value : Nat} (hd : hexDigit? c = some d) :
    read? (.hex (left + 2) value) (c :: rest) = read? (.hex (left + 1) (16 * value + d)) rest :=
  (read?_digit hd).trans (if_neg (by omega))

lemma read?_hex_last {d value : Nat} (hd : hexDigit? c = some d) :
    read? (.hex 1 value) (c :: rest) = withUnit (16 * value + d) (read? .plain rest) :=
  (read?_digit hd).trans (if_pos le_rfl)

/-- Control characters are written with four digits. -/
lemma read?_digits {n : Nat} (h : n < 0x20) :
    read? .plain ('\\' :: 'u' :: '0' :: '0' :: hexDigit (n / 16) :: hexDigit (n % 16) :: rest) =
      withUnit n (read? .plain rest) := by
  have hzero : hexDigit? '0' = some 0 := rfl
  have hhigh := JsonToken.hexDigit?_hexDigit (show n / 16 < 16 by omega)
  have hlow := JsonToken.hexDigit?_hexDigit (show n % 16 < 16 by omega)
  calc
    _ = read? (.hex 4 0) ('0' :: '0' :: hexDigit (n / 16) :: hexDigit (n % 16) :: rest) :=
        read?_unicode fun h => absurd (Option.some.inj h) (by decide)
    _ = read? (.hex 2 0) (hexDigit (n / 16) :: hexDigit (n % 16) :: rest) :=
        (read?_hex hzero).trans (read?_hex hzero)
    _ = withUnit (16 * (16 * 0 + n / 16) + n % 16) (read? .plain rest) :=
        (read?_hex hhigh).trans (read?_hex_last hlow)
    _ = withUnit n (read? .plain rest) := by
        rw [show 16 * (16 * 0 + n / 16) + n % 16 = n by omega]

/-- What is written for a character is read as that character. -/
lemma read?_escapeJson (c : Char) (rest : List Char) :
    read? .plain (escapeJson c ++ rest) = withUnit c.toNat (read? .plain rest) := by
  rcases JsonToken.escapeJson_cases c with ⟨h, hc⟩ | ⟨letter, h, -, -, hl⟩ | ⟨h, hc⟩
  · rw [h]
    exact read?_plain hc
  · rw [h]
    exact read?_letter hl
  · rw [h]
    exact read?_digits hc

/-- What is written for characters is read up to the quote behind it. -/
lemma read?_flatMap (cs rest : List Char) :
    read? .plain (cs.flatMap escapeJson ++ '"' :: rest) = some (cs.map (·.toNat), rest) := by
  induction cs with
  | nil => rfl
  | cons c cs ih =>
      rw [List.flatMap_cons, List.append_assoc, read?_escapeJson, ih]
      rfl

/-- **A string is decoded** from its literal, whatever follows the literal. -/
theorem decode?_string (s : String) (rest : List Char) :
    decode? ((Literal.string s).toList ++ rest) = some (s, rest) := by
  rw [Literal.string, jsonQuoted, String.toList_ofList, List.cons_append, List.append_assoc,
    List.singleton_append, decode?, read?_flatMap]
  change (JsonToken.joinUnits? (s.toList.map (·.toNat))).bind _ = _
  rw [JsonToken.joinUnits?_map, Option.bind_some, String.ofList_toList]
  rfl

/-! ### What stands between the quotes -/

/-- A quote or a backslash is part of an escape, and no character is a control character. -/
inductive Body : List Char → Prop
  | nil : Body []
  | plain {c : Char} {rest : List Char} (h : JsonToken.Plain c) : Body rest → Body (c :: rest)
  | letter {c : Char} {rest : List Char} (h : (JsonToken.escaped? c).isSome) :
      Body rest → Body ('\\' :: c :: rest)
  | digits (digits : List Char) {rest : List Char} (hlength : digits.length = 4)
      (h : ∀ d ∈ digits, (hexDigit? d).isSome) :
      Body rest → Body ('\\' :: 'u' :: (digits ++ rest))

lemma body_escapeJson (c : Char) (h : Body rest) : Body (escapeJson c ++ rest) := by
  rcases JsonToken.escapeJson_cases c with ⟨hc, hp⟩ | ⟨letter, hc, -, -, hl⟩ | ⟨hc, hn⟩
  · rw [hc]
    exact .plain hp h
  · rw [hc]
    exact .letter (by rw [hl]; rfl) h
  · have hhigh := JsonToken.hexDigit?_hexDigit (show c.toNat / 16 < 16 by omega)
    have hlow := JsonToken.hexDigit?_hexDigit (show c.toNat % 16 < 16 by omega)
    rw [hc]
    refine .digits ['0', '0', hexDigit (c.toNat / 16), hexDigit (c.toNat % 16)] rfl ?_ h
    simp only [List.forall_mem_cons, List.not_mem_nil, false_implies, implies_true, and_true, hhigh,
      hlow]
    exact ⟨rfl, rfl, rfl, rfl⟩

lemma body_flatMap (cs : List Char) : Body (cs.flatMap escapeJson) := by
  induction cs with
  | nil => exact .nil
  | cons c cs ih => exact body_escapeJson c ih

lemma le_toNat_escapeJson : ∀ d ∈ escapeJson c, 0x20 ≤ d.toNat := by
  rcases JsonToken.escapeJson_cases c with ⟨hc, hp⟩ | ⟨letter, hc, -, hl, -⟩ | ⟨hc, hn⟩
  · rw [hc, List.forall_mem_singleton]
    exact hp.not_control
  · rw [hc, List.forall_mem_cons, List.forall_mem_singleton]
    exact ⟨by decide, hl⟩
  · rw [hc]
    simp only [List.forall_mem_cons, List.not_mem_nil, false_implies, implies_true, and_true]
    exact ⟨by decide, by decide, by decide, by decide,
      (JsonToken.plain_hexDigit (by omega)).not_control,
      (JsonToken.plain_hexDigit (by omega)).not_control⟩

/-- **Nothing between the quotes** ends the literal or hides in it. -/
theorem exists_body (s : String) :
    ∃ body, (Literal.string s).toList = '"' :: (body ++ ['"']) ∧ Body body ∧
      ∀ c ∈ (Literal.string s).toList, 0x20 ≤ c.toNat := by
  refine ⟨s.toList.flatMap escapeJson, ?_, body_flatMap s.toList, ?_⟩
  · rw [Literal.string, jsonQuoted, String.toList_ofList]
  · rw [Literal.string, jsonQuoted, String.toList_ofList, List.forall_mem_cons,
      List.forall_mem_append, List.forall_mem_singleton]
    refine ⟨by decide, fun d hd => ?_, by decide⟩
    obtain ⟨c, -, hd⟩ := List.mem_flatMap.mp hd
    exact le_toNat_escapeJson d hd

end StringLiteral

end EngineFuzz
