import Mathlib
import EngineFuzz.Json.Decode

/-!
# Numbers as they are written

A number that has been written is read back part by part: its sign, the digits before and after the
point and the exponent.

* `Decimal.digitsOf`: the digits of a natural, `Numeral.natOf_natDigits` their value.
* `Numeral.text`: the text of a numeral, and `Numeral.WellFormed`: the numerals that have one.
* `Numeral.ofText?_text`: a well formed numeral is read back from its text.
* `Json.toInt?_ofInt`: integers, and `Json.toUInt64?_ofNat` and its like.
-/

namespace EngineFuzz

/-! ### Digits -/

lemma isDigit_digitChar {d : Nat} (h : d < 10) : (digitChar d).isDigit = true := by
  interval_cases d <;> rfl

lemma digitValue_digitChar {d : Nat} (h : d < 10) : Numeral.digitValue (digitChar d) = d := by
  interval_cases d <;> rfl

lemma digitChar_ne_zero {d : Nat} (h : d < 10) (h0 : d ≠ 0) : digitChar d ≠ '0' := by
  interval_cases d <;> first | exact absurd rfl h0 | decide

namespace Decimal

variable {n : Nat}

lemma digitsOf_of_lt (h : n < 10) : digitsOf n = [n] := by
  rw [digitsOf, if_pos h]

lemma digitsOf_of_le (h : 10 ≤ n) : digitsOf n = digitsOf (n / 10) ++ [n % 10] := by
  rw [digitsOf, if_neg (Nat.not_lt.mpr h)]

lemma lt_ten_of_mem_digitsOf : ∀ d ∈ digitsOf n, d < 10 := by
  induction n using digitsOf.induct with
  | case1 n h =>
      rw [digitsOf_of_lt h]
      simpa using h
  | case2 n h ih =>
      rw [digitsOf_of_le (Nat.not_lt.mp h)]
      intro d hd
      rcases List.mem_append.mp hd with hd | hd
      · exact ih d hd
      · rw [List.mem_singleton.mp hd]
        exact Nat.mod_lt n (by decide)

/-- A natural has digits, and only zero begins with a zero. -/
lemma exists_digitsOf_eq (n : Nat) : ∃ d ds, digitsOf n = d :: ds ∧ (d = 0 → n = 0) := by
  induction n using digitsOf.induct with
  | case1 n h => exact ⟨n, [], digitsOf_of_lt h, id⟩
  | case2 n h ih =>
      obtain ⟨d, ds, hds, hd⟩ := ih
      refine ⟨d, ds ++ [n % 10], by rw [digitsOf_of_le (Nat.not_lt.mp h), hds]; rfl, fun h0 => ?_⟩
      have := hd h0
      omega

end Decimal

/-- Digits that begin a JSON number: they are not none, and a zero is not followed by others. -/
structure StartsNumber (digits : List Char) : Prop where
  isDigit : ∀ c ∈ digits, c.isDigit = true
  ne_nil : digits ≠ []
  zero : digits.head? = some '0' → digits = ['0']

/-- Digits one by one, at least one of them. -/
structure IsDigits (digits : List Char) : Prop where
  isDigit : ∀ c ∈ digits, c.isDigit = true
  ne_nil : digits ≠ []

lemma StartsNumber.isDigits {digits : List Char} (h : StartsNumber digits) : IsDigits digits :=
  ⟨h.isDigit, h.ne_nil⟩

lemma startsNumber_natDigits (n : Nat) : StartsNumber (natDigits n) := by
  obtain ⟨d, ds, hds, hd⟩ := Decimal.exists_digitsOf_eq n
  have hlt := Decimal.lt_ten_of_mem_digitsOf (n := n)
  refine ⟨?_, ?_, fun hz => ?_⟩
  · rw [natDigits, List.forall_mem_map]
    exact fun d hd => isDigit_digitChar (hlt d hd)
  · rw [natDigits, hds]
    exact List.cons_ne_nil _ _
  · rw [natDigits, hds, List.map_cons, List.head?_cons, Option.some.injEq] at hz
    have hd0 : d = 0 := by
      by_contra hne
      exact digitChar_ne_zero (hlt d (hds ▸ List.mem_cons_self ..)) hne hz
    rw [hd hd0, natDigits, Decimal.digitsOf_of_lt (by decide)]
    rfl

namespace Numeral

variable {digits rest : List Char} {n : Nat}

lemma natOf_append_singleton {c : Char} :
    natOf (digits ++ [c]) = 10 * natOf digits + digitValue c := by
  rw [natOf, List.foldl_append]
  rfl

/-- The digits of a natural have its value. -/
lemma natOf_natDigits (n : Nat) : natOf (natDigits n) = n := by
  induction n using Decimal.digitsOf.induct with
  | case1 n h =>
      rw [natDigits, Decimal.digitsOf_of_lt h]
      exact (Nat.zero_add _).trans (digitValue_digitChar h)
  | case2 n h ih =>
      rw [natDigits, Decimal.digitsOf_of_le (Nat.not_lt.mp h), List.map_append, List.map_singleton,
        natOf_append_singleton, digitValue_digitChar (Nat.mod_lt n (by decide)), ← natDigits, ih]
      omega

/-! ### The parts of a numeral -/

/-- The text behind a run of digits does not go on with one. -/
def NoDigit (rest : List Char) : Prop := ∀ c ∈ rest.head?, c.isDigit = false

lemma spanDigits_append (h : ∀ c ∈ digits, c.isDigit = true) (hr : NoDigit rest) :
    spanDigits (digits ++ rest) = (digits, rest) := by
  rw [spanDigits, List.span_eq_takeWhile_dropWhile, List.takeWhile_append_of_pos h,
    List.dropWhile_append_of_pos h]
  cases rest with
  | nil => simp
  | cons c rest =>
      have hc : c.isDigit = false := hr c rfl
      simp [hc]

lemma integerPart?_append (h : StartsNumber digits) (hr : NoDigit rest) :
    integerPart? (digits ++ rest) = some (digits, rest) := by
  rw [integerPart?, spanDigits_append h.isDigit hr]
  split
  · rename_i heq
    exact absurd (Prod.mk.inj heq).1 h.ne_nil
  · rename_i heq
    obtain ⟨rfl, -⟩ := Prod.mk.inj heq
    exact absurd (h.zero rfl) (by simp)
  · rfl

/-- The text of a fraction. -/
def fractionText : Option (List Char) → List Char
  | some digits => '.' :: digits
  | none => []

lemma fractionPart?_append {fraction? : Option (List Char)} (h : ∀ ds ∈ fraction?, IsDigits ds)
    (hr : NoDigit rest) (hp : rest.head? ≠ some '.') :
    fractionPart? (fractionText fraction? ++ rest) = some (fraction?, rest) := by
  cases fraction? with
  | none =>
      cases rest with
      | nil => rfl
      | cons c rest =>
          rw [fractionText, List.nil_append, fractionPart?]
          rintro s heq
          obtain ⟨rfl, -⟩ := List.cons.inj heq
          exact hp rfl
  | some ds =>
      obtain ⟨hds, hne⟩ := h ds rfl
      rw [fractionText, List.cons_append, fractionPart?, spanDigits_append hds hr]
      split
      · rename_i heq
        exact absurd (Prod.mk.inj heq).1 hne
      · rename_i heq
        obtain ⟨rfl, rfl⟩ := Prod.mk.inj heq
        rfl

/-- The text of an exponent, which always has a sign. -/
def exponentText : Option Int → List Char
  | some e => 'e' :: (if e < 0 then '-' else '+') :: natDigits e.natAbs
  | none => []

lemma exponentDigits?_natDigits (negative : Bool) :
    exponentDigits? negative (natDigits n) = some (if negative then -(n : Int) else n, []) := by
  have hstart := startsNumber_natDigits n
  have hspan : spanDigits (natDigits n ++ []) = (natDigits n, []) :=
    spanDigits_append hstart.isDigit fun c hc => by cases hc
  rw [List.append_nil] at hspan
  rw [exponentDigits?, hspan]
  split
  · rename_i heq
    exact absurd (Prod.mk.inj heq).1 hstart.ne_nil
  · rename_i heq
    obtain ⟨rfl, rfl⟩ := Prod.mk.inj heq
    rw [natOf_natDigits]

lemma exponentPart?_exponentText (exponent? : Option Int) :
    exponentPart? (exponentText exponent?) = some (exponent?, []) := by
  cases exponent? with
  | none => rfl
  | some e =>
      rw [exponentText]
      by_cases he : e < 0
      · rw [if_pos he]
        change (exponentDigits? true (natDigits e.natAbs)).map _ = _
        rw [exponentDigits?_natDigits, if_pos rfl, Option.map_some]
        exact congrArg (fun e' => some (some e', ([] : List Char))) (by omega)
      · rw [if_neg he]
        change (exponentDigits? false (natDigits e.natAbs)).map _ = _
        rw [exponentDigits?_natDigits, if_neg Bool.false_ne_true, Option.map_some]
        exact congrArg (fun e' => some (some e', ([] : List Char))) (by omega)

/-- The text of a numeral. -/
def text (n : Numeral) : List Char :=
  signedText n.negative (n.whole ++ (fractionText n.fraction? ++ exponentText n.exponent?))

/-- The numerals that are written. -/
structure WellFormed (n : Numeral) : Prop where
  whole : StartsNumber n.whole
  fraction : ∀ digits ∈ n.fraction?, IsDigits digits

lemma noDigit_exponentText (exponent? : Option Int) : NoDigit (exponentText exponent?) := by
  cases exponent? with
  | none => exact fun c hc => by cases hc
  | some e =>
      intro c hc
      obtain rfl := Option.some.inj hc
      rfl

lemma head?_exponentText_ne (exponent? : Option Int) :
    (exponentText exponent?).head? ≠ some '.' := by
  cases exponent? with
  | none => exact fun h => by cases h
  | some e => exact fun h => absurd (Option.some.inj h) (by decide)

lemma noDigit_fractionText_append {fraction? : Option (List Char)} (h : NoDigit rest) :
    NoDigit (fractionText fraction? ++ rest) := by
  cases fraction? with
  | none => exact h
  | some digits =>
      intro c hc
      obtain rfl := Option.some.inj hc
      rfl

lemma unsigned?_text {n : Numeral} (h : n.WellFormed) :
    unsigned? n.negative (n.whole ++ (fractionText n.fraction? ++ exponentText n.exponent?)) =
      some n := by
  have hexp := noDigit_exponentText n.exponent?
  rw [unsigned?, integerPart?_append h.whole (noDigit_fractionText_append hexp)]
  change (fractionPart? (fractionText n.fraction? ++ exponentText n.exponent?)).bind _ = _
  rw [fractionPart?_append h.fraction hexp (head?_exponentText_ne _)]
  change (exponentPart? (exponentText n.exponent?)).bind _ = _
  rw [exponentPart?_exponentText]
  rfl

/-- **A numeral is read back** from its text. -/
theorem ofText?_text {n : Numeral} (h : n.WellFormed) : ofText? n.text = some n := by
  have hunsigned := unsigned?_text h
  obtain ⟨c, cs, hc⟩ := List.exists_cons_of_ne_nil h.whole.ne_nil
  rw [text]
  cases hn : n.negative with
  | true =>
      rw [hn] at hunsigned
      exact hunsigned
  | false =>
      rw [hn] at hunsigned
      have hne : c ≠ '-' := by
        rintro rfl
        exact absurd (h.whole.isDigit '-' (hc ▸ List.mem_cons_self ..)) (by decide)
      rw [signedText, if_neg Bool.false_ne_true, ofText?]
      · exact hunsigned
      · intro s hs
        rw [hc] at hs
        exact hne (List.cons.inj hs).1

end Numeral

/-! ### Integers -/

/-- The numeral that an integer is written as. -/
def Numeral.ofInt (n : Int) : Numeral := ⟨decide (n < 0), natDigits n.natAbs, none, none⟩

lemma Numeral.wellFormed_ofInt (n : Int) : (Numeral.ofInt n).WellFormed where
  whole := startsNumber_natDigits n.natAbs
  fraction := fun digits h => by cases h

lemma Numeral.text_ofInt (n : Int) : (Numeral.ofInt n).text = (intText n).toList := by
  rw [text, ofInt, intText, String.toList_ofList, intDigits, fractionText, exponentText,
    List.append_nil, List.append_nil, signedText]
  simp only [decide_eq_true_eq]

lemma Numeral.toInt?_ofInt (n : Int) : (Numeral.ofInt n).toInt? = some n := by
  rw [toInt?, ofInt, natOf_natDigits]
  by_cases hn : n < 0
  · have hne : n.natAbs ≠ 0 := by omega
    simp only [Option.isSome_none, Bool.or_self, Bool.false_eq_true, if_false, hn, decide_true,
      if_true, if_neg hne, Option.some.injEq]
    omega
  · simp only [Option.isSome_none, Bool.or_self, Bool.false_eq_true, if_false, hn, decide_false,
      Option.some.injEq]
    omega

namespace Json

lemma toInt?_ofInt (n : Int) : (ofInt n).toInt? = some n := by
  rw [ofInt, toInt?, ← Numeral.text_ofInt, Numeral.ofText?_text (Numeral.wellFormed_ofInt n)]
  exact Numeral.toInt?_ofInt n

lemma ofNat_eq_ofInt (n : Nat) : ofNat n = ofInt n := by
  rw [ofNat, ofInt, natText, intText, intDigits, if_neg (by omega), Int.natAbs_natCast]

/-- Integers within bounds are read back. -/
lemma toIntIn?_ofInt {least most n : Int} (hl : least ≤ n) (hm : n ≤ most) :
    (ofInt n).toIntIn? least most = some n := by
  rw [toIntIn?, toInt?_ofInt]
  simp [hl, hm]

lemma toUInt8?_ofNat (v : UInt8) : (ofNat v.toNat).toUInt8? = some v := by
  have hv := v.toNat_lt
  rw [ofNat_eq_ofInt, toUInt8?, toIntIn?_ofInt (by omega) (by omega)]
  simp

lemma toUInt32?_ofNat (v : UInt32) : (ofNat v.toNat).toUInt32? = some v := by
  have hv := v.toNat_lt
  rw [ofNat_eq_ofInt, toUInt32?, toIntIn?_ofInt (by omega) (by omega)]
  simp

lemma toUInt64?_ofNat (v : UInt64) : (ofNat v.toNat).toUInt64? = some v := by
  have hv := v.toNat_lt
  rw [ofNat_eq_ofInt, toUInt64?, toIntIn?_ofInt (by omega) (by omega)]
  simp

lemma toInt32?_ofInt (v : Int32) : (ofInt v.toInt).toInt32? = some v := by
  have hl := v.le_toInt
  have hm := v.toInt_lt
  rw [toInt32?, toIntIn?_ofInt (by omega) (by omega)]
  simp

lemma toInt64?_ofInt (v : Int64) : (ofInt v.toInt).toInt64? = some v := by
  have hl := v.le_toInt
  have hm := v.toInt_lt
  rw [toInt64?, toIntIn?_ofInt (by omega) (by omega)]
  simp

end Json

end EngineFuzz
