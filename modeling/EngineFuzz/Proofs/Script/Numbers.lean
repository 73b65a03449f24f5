import Mathlib
import EngineFuzz.Script.Literal
import EngineFuzz.Proofs.Float.Digits
import EngineFuzz.Proofs.Float.Rationals
import EngineFuzz.Proofs.Json.Readings

/-!
# Numbers in scripts

The text of a number in a script is that of a numeral, which denotes the shortest decimal of the
number exactly.  Reading it as the nearest double gives the number back.

* `DigitText.scriptNumeral`: the numeral that a script writes for digits with a point.
* `Numeral.Plain`: a numeral without redundant zeros, with `DigitText.plain_scriptNumeral`.
* `Numeral.value`, `Numeral.nearestDouble`: what a numeral denotes and the double nearest to it.
* `Literal.readNumber?`: the double that a number text of a script is read as.
* `Literal.float_denotes`: the main statement.
-/

namespace EngineFuzz

/-! ### The numeral of a text -/

namespace DigitText

variable {t : DigitText} {negative : Bool}

/-- The numeral that a script writes; an integral number has no point. -/
def scriptNumeral (t : DigitText) (negative : Bool) : Numeral :=
  if t.digits.length ≤ t.point ∧ t.point ≤ 21 then
    ⟨negative, t.digits ++ zeros (t.point - t.digits.length).toNat, none, none⟩
  else t.numeral (-6) 21 negative

lemma text_scriptNumeral (h : t.digits ≠ []) (negative : Bool) :
    (t.scriptNumeral negative).text = signedText negative t.scriptForm := by
  have hlength : 0 < t.digits.length := List.length_pos_of_ne_nil h
  rw [scriptNumeral]
  split
  · rename_i hint
    rw [scriptForm, if_pos (by omega), positional, if_pos hint.1, Numeral.text,
      Numeral.fractionText, Numeral.exponentText, List.append_nil, List.append_nil]
  · rename_i hint
    rw [text_numeral h, scriptForm, jsonForm]
    split
    · rw [if_neg (by omega)]
    · rfl

lemma wellFormed_scriptNumeral (h : t.Writable) (negative : Bool) :
    (t.scriptNumeral negative).WellFormed := by
  rw [scriptNumeral]
  split
  · rename_i hint
    refine ⟨startsNumber_append_zeros h.digits fun hz => ?_, nofun⟩
    have := h.point hz
    rw [hz, List.length_singleton]
    omega
  · exact wellFormed_numeral h negative

lemma negative_scriptNumeral : (t.scriptNumeral negative).negative = negative := by
  rw [scriptNumeral]
  split
  · rfl
  · exact negative_numeral

/-- The numeral denotes the decimal exactly. -/
lemma value_scriptNumeral (d : Decimal) (negative : Bool) :
    ((ofDecimal d).scriptNumeral negative).decimal.value = d.value := by
  rw [scriptNumeral]
  split
  · rename_i hint
    have hdigits : Numeral.natOf (ofDecimal d).digits = d.significand :=
      Numeral.natOf_natDigits d.significand
    have hpoint : (ofDecimal d).point = d.exponent + (ofDecimal d).digits.length := rfl
    obtain ⟨k, hk⟩ := Int.eq_ofNat_of_zero_le (Int.sub_nonneg_of_le hint.1)
    have hexp : d.exponent = k := by omega
    have hvalue : Numeral.natOf ((ofDecimal d).digits ++ zeros k ++ []) =
        d.significand * 10 ^ k := by
      rw [List.append_nil, Numeral.natOf_append, Numeral.natOf_zeros, hdigits, zeros,
        List.length_replicate, Nat.add_zero]
    rw [hk, Int.toNat_natCast]
    simp only [Numeral.decimal, Decimal.value, Option.getD_none, hvalue, hexp]
    simp
  · exact value_numeral d

/-- Exponents are written for points far to the left or to the right. -/
lemma isSome_exponent?_scriptNumeral (h : t.digits ≠ []) :
    (t.scriptNumeral negative).exponent?.isSome ↔ t.point ≤ -6 ∨ 21 < t.point := by
  have hlength : 0 < t.digits.length := List.length_pos_of_ne_nil h
  rw [scriptNumeral]
  split
  · exact iff_of_false Bool.false_ne_true (by omega)
  · rename_i hint
    rw [numeral]
    split
    · rw [if_neg (by omega)]
      split
      · exact iff_of_false Bool.false_ne_true (by omega)
      · exact iff_of_false Bool.false_ne_true (by omega)
    · exact iff_of_true rfl (by omega)

end DigitText

/-- No zero of the numeral is redundant: a zero before the point stands there alone, the digits
behind the point do not end in one, and with an exponent there is one digit before the point, which
is not zero. -/
structure Numeral.Plain (n : Numeral) : Prop where
  whole : n.whole.head? = some '0' → n.whole = ['0']
  fraction : ∀ digits ∈ n.fraction?, digits ≠ [] ∧ digits.getLast? ≠ some '0'
  exponent : n.exponent?.isSome → ∃ d, d ≠ '0' ∧ n.whole = [d]

namespace DigitText

variable {t : DigitText} {negative : Bool}

/-- The digits that stand behind a point are the last ones. -/
lemma getLast?_fraction_scriptNumeral (h : t.digits ≠ [])
    (hlast : t.digits.getLast? ≠ some '0') {ds : List Char}
    (hds : (t.scriptNumeral negative).fraction? = some ds) : ds.getLast? ≠ some '0' := by
  rw [scriptNumeral] at hds
  split at hds
  · cases hds
  · rename_i hint
    rw [numeral] at hds
    split at hds
    · rw [if_neg (by omega)] at hds
      split at hds
      · obtain rfl := Option.some.inj hds
        rw [List.getLast?_drop]
        split
        · exact Option.some_ne_none _ ∘ Eq.symm
        · exact hlast
      · obtain rfl := Option.some.inj hds
        rwa [List.getLast?_append_of_ne_nil _ h]
    · dsimp only at hds
      split at hds
      · cases hds
      · obtain rfl := Option.some.inj hds
        rw [List.getLast?_tail]
        split
        · exact Option.some_ne_none _ ∘ Eq.symm
        · exact hlast

/-- With an exponent the first digit stands alone before the point. -/
lemma whole_scriptNumeral_of_exponent? (h : (t.scriptNumeral negative).exponent?.isSome) :
    (t.scriptNumeral negative).whole = t.digits.take 1 := by
  rw [scriptNumeral] at h ⊢
  split at h
  · cases h
  · rename_i hint
    rw [if_neg hint]
    rw [numeral] at h ⊢
    split at h
    · split at h
      · cases h
      · split at h
        · cases h
        · cases h
    · rename_i hpoint
      rw [if_neg hpoint]

/-- **No zero is redundant** if the digits neither begin nor end with one. -/
lemma plain_scriptNumeral (h : t.Writable) (hfirst : t.digits.head? ≠ some '0')
    (hlast : t.digits.getLast? ≠ some '0') : (t.scriptNumeral negative).Plain := by
  have hwell := wellFormed_scriptNumeral h negative
  refine ⟨hwell.whole.zero, fun ds hds => ⟨(hwell.fraction ds hds).ne_nil, ?_⟩, fun hexp => ?_⟩
  · exact getLast?_fraction_scriptNumeral h.digits.ne_nil hlast hds
  · obtain ⟨d, ds, hd⟩ := List.exists_cons_of_ne_nil h.digits.ne_nil
    rw [hd, List.head?_cons] at hfirst
    refine ⟨d, fun h0 => hfirst (congrArg some h0), ?_⟩
    rw [whole_scriptNumeral_of_exponent? hexp, hd]
    rfl

end DigitText

/-! ### Reading -/

namespace Numeral

/-- The number that a numeral denotes. -/
def value (n : Numeral) : ℚ := Number.signed n.negative n.decimal.value

/-- The double that is nearest to a numeral; a zero has its sign. -/
def nearestDouble (n : Numeral) : Double :=
  .ofWord (Format.double.withSign n.negative (Format.double.roundAbs n.value))

end Numeral

namespace Literal

/-- The double that a number text of a script is read as. -/
def readNumber? (text : String) : Option Double :=
  match Numeral.ofText? text.toList with
  | some n => some n.nearestDouble
  | none =>
    if text = "NaN" then some .nan
    else if text = "Infinity" then some .infinity
    else if text = "-Infinity" then some (.ofNumber (.infinite true))
    else none

end Literal

namespace Double

variable {x : Double} {q : ℚ} {negative : Bool} {m : Nat} {e : Int}

/-- The decimal that a finite double is written as, without its sign. -/
def shortestDecimal (x : Double) : Decimal :=
  Format.double.shortest .up (x.bits.toNat % Format.double.signBit)

/-- The numeral that a double is written as in a script. -/
def scriptNumeral (x : Double) : Numeral :=
  (DigitText.ofDecimal x.shortestDecimal).scriptNumeral x.value.isNegative

lemma writable_shortestDecimal (x : Double) : (DigitText.ofDecimal x.shortestDecimal).Writable :=
  DigitText.writable_ofDecimal (Format.exponent_shortest Format.double _ .up)

lemma wellFormed_scriptNumeral (x : Double) : x.scriptNumeral.WellFormed :=
  DigitText.wellFormed_scriptNumeral x.writable_shortestDecimal _

/-- The text of a number is that of its numeral. -/
lemma scriptText_eq (h : x.value = .finite negative m e) (hm : m ≠ 0) :
    x.scriptText = String.ofList x.scriptNumeral.text := by
  obtain ⟨k, rfl⟩ := Nat.exists_eq_succ_of_ne_zero hm
  rw [scriptNumeral, DigitText.text_scriptNumeral x.writable_shortestDecimal.digits.ne_nil,
    scriptText, h]
  rfl

lemma ofText?_scriptText (h : x.value = .finite negative m e) (hm : m ≠ 0) :
    Numeral.ofText? x.scriptText.toList = some x.scriptNumeral := by
  rw [scriptText_eq h hm, String.toList_ofList, Numeral.ofText?_text x.wellFormed_scriptNumeral]

/-- An integral number below `10 ^ 21` has no digit behind the point. -/
lemma integral_scriptNumeral (h : x.value = .finite negative m e) (hm : m ≠ 0) {n : Nat}
    (hn : (n : ℚ) = m * 2 ^ e) (hlt : n < 10 ^ 21) :
    x.scriptNumeral.fraction? = none ∧ x.scriptNumeral.exponent? = none := by
  obtain ⟨hword, -⟩ := Format.denotes_of_decode h
  have hm' := Nat.pos_of_ne_zero hm
  have hne : x.shortestDecimal.significand ≠ 0 :=
    Format.significand_shortest_ne_zero hword hm' .up
  have hexp : 0 ≤ x.shortestDecimal.exponent :=
    Format.exponent_shortest_nonneg (by decide) hword hm' hn .up
  -- the power of ten is a double
  obtain ⟨word, hpow⟩ := Format.exists_gridValue (f := .double) (m := 5 ^ 21) (e := 21)
    (by decide) (by decide)
  have hpow : Format.double.gridValue word = 10 ^ (21 : Int) := by
    rw [hpow]
    norm_num
  have hvalue : x.shortestDecimal.value < 10 ^ (21 : Int) := by
    rw [← hpow]
    refine Format.value_shortest_lt (by decide) hword hm' ?_ .up
    rw [← hn, hpow]
    exact_mod_cast hlt
  have hpoint : (DigitText.ofDecimal x.shortestDecimal).point ≤ 21 := by
    rw [DigitText.point_ofDecimal hne]
    have := (Int.lt_zpow_iff_log_lt (b := 10) (by decide) (Decimal.value_pos hne)).mp hvalue
    omega
  have hlength : ((DigitText.ofDecimal x.shortestDecimal).digits.length : Int) ≤
      (DigitText.ofDecimal x.shortestDecimal).point :=
    le_add_of_nonneg_left hexp
  rw [scriptNumeral, DigitText.scriptNumeral, if_pos ⟨hlength, hpoint⟩]
  exact ⟨rfl, rfl⟩

/-- The digits neither begin nor end with a zero. -/
lemma plain_scriptNumeral (h : x.value = .finite negative m e) (hm : m ≠ 0) :
    x.scriptNumeral.Plain := by
  obtain ⟨hword, -⟩ := Format.denotes_of_decode h
  have hne : x.shortestDecimal.significand ≠ 0 :=
    Format.significand_shortest_ne_zero hword (Nat.pos_of_ne_zero hm) .up
  have hlast : x.shortestDecimal.significand % 10 ≠ 0 :=
    Format.significand_shortest hword (Nat.pos_of_ne_zero hm) .up
  refine DigitText.plain_scriptNumeral x.writable_shortestDecimal (fun h0 => hne ?_) ?_
  · have hdigits : natDigits x.shortestDecimal.significand = ['0'] :=
      x.writable_shortestDecimal.digits.zero h0
    rw [← Numeral.natOf_natDigits x.shortestDecimal.significand, hdigits]
    rfl
  · rw [DigitText.ofDecimal, List.getLast?_map, Decimal.digits, Decimal.getLast?_digitsOf]
    exact fun h0 => digitChar_ne_zero (Nat.mod_lt _ (by decide)) hlast (Option.some.inj h0)

/-- The numeral is rounded to the double. -/
lemma nearestDouble_scriptNumeral (h : x.value = .finite negative m e) (hm : m ≠ 0) :
    x.scriptNumeral.nearestDouble = x := by
  obtain ⟨hword, -⟩ := Format.denotes_of_decode h
  have hround : Format.double.roundAbs x.scriptNumeral.value =
      x.bits.toNat % Format.double.signBit := by
    rw [← Format.roundAbs_value_shortest (by decide) hword (Nat.pos_of_ne_zero hm) .up]
    refine Format.roundAbs_congr ?_
    rw [Numeral.value, Number.abs_signed, scriptNumeral, DigitText.value_scriptNumeral]
    rfl
  have hnegative : x.scriptNumeral.negative = negative := by
    rw [scriptNumeral, DigitText.negative_scriptNumeral, h]
    rfl
  rw [Numeral.nearestDouble, hround, hnegative, ← eq_ofWord h]

/-- No decimal that is rounded to the double has fewer digits. -/
lemma length_digits_shortestDecimal_le (h : x.value = .finite negative m e) (hm : m ≠ 0)
    {sign : Bool} {d : Decimal}
    (hd : Format.double.RoundsTo (Number.signed sign d.value) (.finite negative m e)) :
    x.shortestDecimal.digits.length ≤ d.digits.length := by
  obtain ⟨hword, -⟩ := Format.denotes_of_decode h
  have hnear := hd.isNearest hword
  have hnonneg : 0 ≤ d.value := by
    rw [Decimal.value]
    positivity
  rw [Number.abs_signed, abs_of_nonneg hnonneg] at hnear
  exact Format.length_digits_shortest_le (by decide) hword (Nat.pos_of_ne_zero hm) hnear .up

/-- Only zeros have no bit but the sign. -/
lemma isZero_eq_false (h : x.value = .finite negative m e) (hm : m ≠ 0) : x.isZero = false := by
  obtain ⟨hword, -⟩ := Format.denotes_of_decode h
  rw [isZero, beq_eq_false_iff_ne]
  intro h0
  have hmod := congrArg UInt64.toNat h0
  rw [UInt64.toNat_and] at hmod
  have hand : x.bits.toNat % 2 ^ 63 = 0 := by
    rw [← Nat.and_two_pow_sub_one_eq_mod]
    exact hmod
  have hpos := hword.word_eq
  change x.bits.toNat % 2 ^ 63 = _ at hpos
  omega

lemma eq_ofWord_of_infinite (h : x.value = .infinite negative) :
    x = .ofWord (Format.double.withSign negative Format.double.infinity) := by
  rw [value, Format.decode] at h
  split at h
  · cases h
  split at h
  · rename_i hmagnitude
    rw [← Number.infinite.inj h, ← hmagnitude]
    exact x.eq_ofWord_mod
  · dsimp only at h
    split at h
    · cases h
    · cases h

end Double

namespace Literal

/-- **Number texts are read as the number that was written**, zeros with their sign. -/
theorem readNumber?_float {x : Double} (h : x.isNaN = false) : readNumber? (float x) = some x := by
  cases hx : x.value with
  | nan =>
      rw [Double.isNaN, hx] at h
      cases h
  | infinite negative =>
      rw [Double.eq_ofWord_of_infinite hx]
      cases negative <;> decide
  | finite negative m e =>
      by_cases hm : m = 0
      · subst hm
        rw [Double.eq_ofWord_zero hx]
        cases negative <;> decide +kernel
      · rw [float, Double.isZero_eq_false hx hm, Bool.false_and, if_neg Bool.false_ne_true,
          readNumber?, Double.ofText?_scriptText hx hm]
        exact congrArg some (Double.nearestDouble_scriptNumeral hx hm)

/-- **Number texts denote the number.**  The text of a finite number that is not zero is that of a
numeral without redundant zeros, whose value is the shortest decimal that is rounded to the number,
with its sign; exponents and points are written by the place of the point.  Each number text is read
as the number that was written. -/
theorem float_denotes (x : Double) :
    (∀ q, x.value.toRat? = some q → q ≠ 0 →
      ∃ n : Numeral, x.scriptText = String.ofList n.text ∧
        Numeral.ofText? x.scriptText.toList = some n ∧
        n.value = Number.signed (decide (q < 0)) x.shortestDecimal.value ∧
        (∀ d : Decimal, Format.double.RoundsTo (Number.signed (decide (q < 0)) d.value) x.value →
          x.shortestDecimal.digits.length ≤ d.digits.length) ∧
        (n.exponent?.isSome ↔
          (DigitText.ofDecimal x.shortestDecimal).point ≤ -6 ∨
            21 < (DigitText.ofDecimal x.shortestDecimal).point) ∧
        (∀ i : Int, q = i → |q| < 10 ^ 21 → n.fraction? = none ∧ n.exponent? = none) ∧
        n.Plain) ∧
      (x.isNaN = false → readNumber? (float x) = some x) := by
  refine ⟨fun q hq hne => ?_, readNumber?_float⟩
  obtain ⟨negative, m, e, hx, habs, hsign⟩ := Number.exists_finite hq
  have hm : m ≠ 0 := by
    rintro rfl
    rw [Nat.cast_zero, zero_mul, eq_comm, abs_eq_zero] at habs
    exact hne habs
  refine ⟨x.scriptNumeral, Double.scriptText_eq hx hm, Double.ofText?_scriptText hx hm, ?_,
    fun d hd => Double.length_digits_shortestDecimal_le hx hm (hx ▸ hd),
    DigitText.isSome_exponent?_scriptNumeral x.writable_shortestDecimal.digits.ne_nil,
    fun i hi hlt => ?_, Double.plain_scriptNumeral hx hm⟩
  · rw [Numeral.value, Double.scriptNumeral, DigitText.negative_scriptNumeral,
      DigitText.value_scriptNumeral, hx, ← hsign hne]
    rfl
  · refine Double.integral_scriptNumeral hx hm (n := i.natAbs) ?_ ?_
    · rw [habs, hi, Nat.cast_natAbs, Int.cast_abs]
    · rw [hi, ← Int.cast_abs, ← Nat.cast_natAbs] at hlt
      exact_mod_cast hlt

/-- One and a half is written with a digit behind the point. -/
theorem float_denotes_three_halves :
    (∃ n : Numeral, Numeral.ofText? (float ⟨0x3ff8000000000000⟩).toList = some n ∧
      n.value = 3 / 2 ∧ n.exponent? = none ∧ n.Plain) ∧
    readNumber? (float ⟨0x3ff8000000000000⟩) = some ⟨0x3ff8000000000000⟩ := by
  obtain ⟨hfinite, hread⟩ := float_denotes ⟨0x3ff8000000000000⟩
  have hvalue : (⟨0x3ff8000000000000⟩ : Double).value = .finite false (3 * 2 ^ 51) (-52) := by
    decide
  have hq : (⟨0x3ff8000000000000⟩ : Double).value.toRat? = some (3 / 2) := by
    rw [hvalue]
    norm_num [Number.toRat?, Number.signed]
  have hshortest : (⟨0x3ff8000000000000⟩ : Double).shortestDecimal = ⟨15, -1⟩ := by decide +kernel
  obtain ⟨n, -, hread', hn, -, hexp, -, hplain⟩ := hfinite (3 / 2) hq (by norm_num)
  refine ⟨⟨n, hread', ?_, ?_, hplain⟩, hread (by decide)⟩
  · rw [hn, hshortest]
    norm_num [Number.signed, Decimal.value]
  · rw [hshortest] at hexp
    exact Option.not_isSome_iff_eq_none.mp fun h => absurd (hexp.mp h) (by decide +kernel)

end Literal

end EngineFuzz
