import Mathlib
import EngineFuzz.Json.Decode

/-!
# Strings as they are written

A quoted string is read back character by character: what is escaped is unescaped, and nothing that
stands between the quotes ends the string.

* `JsonToken.scan?_escapeJson`, `JsonToken.units?_escapeJson`: one character.
* `JsonToken.ofStringBody?_flatMap`: what stands between the quotes.
* `JsonToken.scan?_jsonQuoted`: a whole string.
-/

namespace EngineFuzz

namespace JsonToken

variable {c : Char} {done : List JsonToken} {body rest : List Char}

/-! ### The machine inside of a string -/

lemma scan?_cons {mode mode' : Mode} {more : List JsonToken}
    (h : step? mode c = some (more, mode')) :
    scan? mode done (c :: rest) = scan? mode' (more.reverse ++ done) rest := by
  rw [scan?, h]

/-- A character that completes no token. -/
lemma scan?_silent {mode mode' : Mode} (h : step? mode c = some ([], mode')) :
    scan? mode done (c :: rest) = scan? mode' done rest := scan?_cons h

/-- Characters that need no escape. -/
structure Plain (c : Char) : Prop where
  not_quote : c ≠ '"'
  not_backslash : c ≠ '\\'
  not_control : 0x20 ≤ c.toNat

lemma scan?_plain (h : Plain c) :
    scan? (.inString body) done (c :: rest) = scan? (.inString (c :: body)) done rest := by
  refine scan?_silent ?_
  rw [step?, if_neg h.not_quote, if_neg h.not_backslash, if_neg (Nat.not_lt.mpr h.not_control)]

lemma scan?_escaped (h : 0x20 ≤ c.toNat) :
    scan? (.inString body) done ('\\' :: c :: rest) =
      scan? (.inString (c :: '\\' :: body)) done rest := by
  have hstep : step? (.inEscape ('\\' :: body)) c = some ([], .inString (c :: '\\' :: body)) := by
    rw [step?, if_neg (Nat.not_lt.mpr h)]
  exact (scan?_silent rfl).trans (scan?_silent hstep)

/-! ### Hexadecimal digits -/

lemma plain_hexDigit {n : Nat} (h : n < 16) : Plain (hexDigit n) := by
  interval_cases n <;> exact ⟨by decide, by decide, by decide⟩

lemma hexDigit?_hexDigit {n : Nat} (h : n < 16) : hexDigit? (hexDigit n) = some n := by
  interval_cases n <;> rfl

/-- Control characters are written with four digits. -/
lemma escapeJson_control (h : c.toNat < 0x20) :
    hexByte c.toNat.toUInt8 = [hexDigit (c.toNat / 16), hexDigit (c.toNat % 16)] := by
  have hbyte : c.toNat.toUInt8.toNat = c.toNat := UInt8.toNat_ofNat_of_lt' (h.trans (by decide))
  rw [hexByte, hbyte]

lemma hexUnit?_control {n : Nat} (h : n < 0x20) :
    hexUnit? '0' '0' (hexDigit (n / 16)) (hexDigit (n % 16)) = some n := by
  rw [hexUnit?, hexDigit?_hexDigit (by omega), hexDigit?_hexDigit (by omega)]
  change some (((0 * 16 + 0) * 16 + n / 16) * 16 + n % 16) = some n
  exact congrArg some (by omega)

/-! ### One character -/

/-- How a character is written: as it is, with a letter, or with four digits. -/
lemma escapeJson_cases (c : Char) :
    (escapeJson c = [c] ∧ Plain c) ∨
      (∃ letter, escapeJson c = ['\\', letter] ∧ letter ≠ 'u' ∧ 0x20 ≤ letter.toNat ∧
        escaped? letter = some c) ∨
      (escapeJson c = ['\\', 'u', '0', '0', hexDigit (c.toNat / 16), hexDigit (c.toNat % 16)] ∧
        c.toNat < 0x20) := by
  unfold escapeJson
  iterate 7
    split
    · rename_i h
      subst h
      exact .inr (.inl ⟨_, rfl, by decide, by decide, rfl⟩)
  split
  · rename_i h
    rw [escapeJson_control h]
    exact .inr (.inr ⟨rfl, h⟩)
  · rename_i h₁ h₂ _ _ _ _ _ h
    exact .inl ⟨rfl, h₁, h₂, Nat.not_lt.mp h⟩

/-- The machine goes over what is written for a character and stays in the string. -/
lemma scan?_escapeJson (c : Char) :
    scan? (.inString body) done (escapeJson c ++ rest) =
      scan? (.inString ((escapeJson c).reverse ++ body)) done rest := by
  rcases escapeJson_cases c with ⟨h, hc⟩ | ⟨letter, h, -, hl, -⟩ | ⟨h, hc⟩
  · rw [h]
    exact scan?_plain hc
  · rw [h]
    exact scan?_escaped hl
  · rw [h]
    have hzero : Plain '0' := ⟨by decide, by decide, by decide⟩
    calc
      _ = scan? (.inString ('u' :: '\\' :: body)) done ('0' :: '0' :: hexDigit (c.toNat / 16) ::
            hexDigit (c.toNat % 16) :: rest) := scan?_escaped (by decide)
      _ = scan? (.inString ('0' :: '0' :: 'u' :: '\\' :: body)) done
            (hexDigit (c.toNat / 16) :: hexDigit (c.toNat % 16) :: rest) :=
          (scan?_plain hzero).trans (scan?_plain hzero)
      _ = _ := (scan?_plain (plain_hexDigit (by omega))).trans
          (scan?_plain (plain_hexDigit (by omega)))

/-- What is written for a character is one unit. -/
lemma units?_escapeJson (c : Char) :
    units? (escapeJson c ++ rest) = (units? rest).map (c.toNat :: ·) := by
  rcases escapeJson_cases c with ⟨h, hc⟩ | ⟨letter, h, hu, -, hl⟩ | ⟨h, hc⟩
  · have hb := hc.not_backslash
    rw [h, List.singleton_append, units?]
    · simp only [ne_eq, hb, not_false_eq_true, guard_true]
      cases units? rest <;> rfl
    · exact fun a b d e rest' heq => absurd heq hb
    · exact fun a rest' heq => absurd heq hb
  · rw [h, List.cons_append, List.singleton_append, units?]
    · rw [hl]
      cases units? rest <;> rfl
    · exact fun a b d e rest' heq => absurd heq hu
  · rw [h]
    change (do return (← hexUnit? '0' '0' (hexDigit (c.toNat / 16)) (hexDigit (c.toNat % 16))) ::
      (← units? rest)) = _
    rw [hexUnit?_control hc]
    cases units? rest <;> rfl

/-! ### Whole strings -/

lemma units?_flatMap (cs : List Char) :
    units? (cs.flatMap escapeJson) = some (cs.map (·.toNat)) := by
  induction cs with
  | nil => rfl
  | cons c cs ih =>
      rw [List.flatMap_cons, units?_escapeJson, ih]
      rfl

/-- Characters are no surrogates. -/
lemma not_surrogate (c : Char) :
    isHighSurrogate c.toNat = false ∧ isLowSurrogate c.toNat = false := by
  have hvalid : c.toNat < 0xd800 ∨ 0xdfff < c.toNat ∧ c.toNat < 0x110000 := c.valid
  simp only [isHighSurrogate, isLowSurrogate, Bool.and_eq_false_iff, decide_eq_false_iff_not]
  omega

lemma joinUnits?_map (cs : List Char) : joinUnits? (cs.map (·.toNat)) = some cs := by
  induction cs with
  | nil => rfl
  | cons c cs ih =>
      obtain ⟨hhigh, hlow⟩ := not_surrogate c
      cases cs with
      | nil => simp [joinUnits?, hhigh, hlow, Char.ofNat_toNat]
      | cons d ds =>
          rw [List.map_cons] at ih
          simp only [List.map_cons, joinUnits?, hhigh, hlow, Bool.false_eq_true, if_false, ih,
            Option.map_some, Char.ofNat_toNat]

/-- What stands between the quotes of a string gives its characters. -/
lemma ofStringBody?_flatMap (cs : List Char) :
    ofStringBody? (cs.flatMap escapeJson) = some (.string (some (String.ofList cs))) := by
  rw [ofStringBody?, units?_flatMap, Option.map_some, joinUnits?_map]
  rfl

/-- The machine goes over what is written for characters and stays in the string. -/
lemma scan?_flatMap (cs : List Char) :
    scan? (.inString body) done (cs.flatMap escapeJson ++ rest) =
      scan? (.inString ((cs.flatMap escapeJson).reverse ++ body)) done rest := by
  induction cs generalizing body with
  | nil => rfl
  | cons c cs ih =>
      rw [List.flatMap_cons, List.append_assoc, scan?_escapeJson, ih, List.reverse_append,
        List.append_assoc]

/-- **A string is read back** from its quoted form. -/
theorem scan?_jsonQuoted (s : String) :
    scan? .between done ((jsonQuoted s).toList ++ rest) =
      scan? .between (.string (some s) :: done) rest := by
  have hclose : step? (.inString (s.toList.flatMap escapeJson).reverse) '"' =
      some ([.string (some s)], .between) := by
    rw [step?, if_pos rfl, List.reverse_reverse, ofStringBody?_flatMap, String.ofList_toList]
    rfl
  rw [jsonQuoted, String.toList_ofList, List.cons_append, List.append_assoc, List.singleton_append]
  calc
    _ = scan? (.inString []) done (s.toList.flatMap escapeJson ++ '"' :: rest) :=
        scan?_silent rfl
    _ = scan? (.inString (s.toList.flatMap escapeJson).reverse) done ('"' :: rest) := by
        rw [scan?_flatMap, List.append_nil]
    _ = _ := scan?_cons hclose

end JsonToken

end EngineFuzz
