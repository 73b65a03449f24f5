import Mathlib
import EngineFuzz.Wasm.Numeric
import EngineFuzz.Proofs.Float.Doubles
import EngineFuzz.Proofs.Float.Rationals
import EngineFuzz.Proofs.Float.RoundedTwice

/-!
# Arithmetic on singles

At 32 bits an instruction is computed on doubles and its result is rounded to a single.  For sums,
differences, products and quotients this is the single that is nearest to the exact result.

* `FloatBinaryOp.exactResult?`: the exact result of an instruction.
* `FloatBinaryOp.exists_onDoubles_eq`: on doubles the result is rounded once.
* `Width.roundDouble_ofWord`: rounding a double to a single.
* `FloatBinaryOp.eval_bits32`: the main statement.
-/

namespace EngineFuzz

variable {x y q : ℚ}

namespace Format

variable {f : Format} {word : Nat}

/-- What is not beyond infinity is no NaN. -/
lemma decode_withSign_ne_nan (h : word ≤ f.infinity) (negative : Bool) :
    f.decode (f.withSign negative word) ≠ .nan := by
  rcases h.lt_or_eq with hlt | rfl
  · obtain ⟨m, e, hword⟩ := exists_denotes_of_lt hlt
    rw [decode_withSign hword]
    exact nofun
  · rw [decode_withSign_infinity]
    exact nofun

lemma withSign_lt (h : word ≤ f.infinity) (negative : Bool) :
    f.withSign negative word < 2 * f.signBit := by
  have hsign := h.trans_lt f.infinity_lt_signBit
  cases negative with
  | false =>
      rw [withSign_false]
      omega
  | true =>
      rw [withSign, if_pos rfl]
      omega

lemma roundQuotient_le_infinity (num den : Nat) : f.roundQuotient num den ≤ f.infinity := by
  rw [roundQuotient]
  split
  · exact Nat.zero_le _
  · exact Nat.min_le_right _ _

end Format

namespace Double

lemma value_withSign {word : Nat} (h : word ≤ Format.double.infinity) (negative : Bool) :
    (ofWord (Format.double.withSign negative word)).value =
      Format.double.decode (Format.double.withSign negative word) := by
  rw [value, ofWord]
  exact congrArg _ (UInt64.toNat_ofNat_of_lt' (Format.withSign_lt h negative))

lemma isNaN_ofNumber {n : Number} (h : n ≠ .nan) : (ofNumber n).isNaN = false := by
  rw [isNaN, beq_eq_false_iff_ne]
  cases n with
  | nan => exact absurd rfl h
  | infinite negative =>
      rw [ofNumber, Format.encode, value_withSign (le_refl _)]
      exact Format.decode_withSign_ne_nan (le_refl _) negative
  | finite negative m e =>
      have hle := Format.double.roundQuotient_le_infinity
        (m * Nat.pow 2 e.toNat) (Nat.pow 2 (-e).toNat)
      rw [ofNumber, Format.encode, Format.roundScaled, value_withSign hle]
      exact Format.decode_withSign_ne_nan hle negative

end Double

namespace Single

variable {a : Single}

lemma value_withSign {word : Nat} (h : word ≤ Format.single.infinity) (negative : Bool) :
    (ofWord (Format.single.withSign negative word)).value =
      Format.single.decode (Format.single.withSign negative word) := by
  rw [value, ofWord]
  exact congrArg _ (UInt32.toNat_ofNat_of_lt' (Format.withSign_lt h negative))

lemma isValue (h : a.value.toRat? = some x) : Format.single.IsValue x := by
  obtain ⟨negative, m, e, hvalue, habs, -⟩ := Number.exists_finite h
  exact ⟨_, m, e, (Format.denotes_of_decode hvalue).1, habs.symm⟩

/-- Widening keeps the number. -/
lemma toRat?_toDouble (h : a.value.toRat? = some x) : a.toDouble.value.toRat? = some x := by
  obtain ⟨negative, m, e, hvalue, habs, -⟩ := Number.exists_finite h
  obtain ⟨hm, he, he'⟩ := (Format.denotes_of_decode hvalue).1.single_bounds
  obtain ⟨word, hword, hlt⟩ := Format.exists_gridValue_double (m := m) (e := e)
    (hm.le.trans (by decide)) (by omega) (by omega)
  rw [habs] at hword hlt
  obtain ⟨m', e', hdenotes, habs', hround⟩ := Format.exists_denotes_of_eq hword hlt
  rw [hvalue, Number.toRat?, habs] at h
  rw [toDouble, hvalue, Double.ofNumber, Format.encode, Format.roundScaled_eq_roundAbs habs, hround,
    Double.value_withSign hdenotes.lt_infinity.le, Format.decode_withSign hdenotes, Number.toRat?,
    habs', h]

end Single

/-! ### Rounding to a double first -/

/-- The double is finite, and the single that is nearest to it is the one that is nearest to the
exact number. -/
lemma Format.RoundedTwice.exists_roundsTo (h : RoundedTwice q) :
    ∃ (d : Number) (r : ℚ), double.RoundsTo q d ∧ d.toRat? = some r ∧
      single.RoundsTo r (single.decode (single.withSign (decide (q < 0)) (single.roundAbs q))) := by
  obtain ⟨word, m, e, hword, hround, hzero, hsingle⟩ := h
  have hd := roundsTo (f := double) (by decide) q
  rw [hround, decode_withSign hword] at hd
  have hnonneg : (0 : ℚ) ≤ m * 2 ^ e := by positivity
  have habs : (m : ℚ) * 2 ^ e = |Number.signed (decide (q < 0)) (m * 2 ^ e)| := by
    rw [Number.abs_signed, abs_of_nonneg hnonneg]
  have hsign : decide (Number.signed (decide (q < 0)) (m * 2 ^ e) < 0) = decide (q < 0) := by
    rcases hnonneg.lt_or_eq with hpos | h0
    · exact Number.decide_signed_neg _ hpos
    · have hm : m = 0 := by
        rcases mul_eq_zero.mp h0.symm with hm | he
        · exact_mod_cast hm
        · exact absurd he (zpow_ne_zero e two_ne_zero)
      rw [hzero hm, ← h0]
      rfl
  refine ⟨_, _, hd, rfl, ?_⟩
  have hr := roundsTo (f := single) (by decide) (Number.signed (decide (q < 0)) (m * 2 ^ e))
  rwa [hsign, ← roundScaled_eq_roundAbs habs, hsingle] at hr

/-! ### Instructions -/

/-- A double is rounded to the single that its exact number is rounded to, if it can be rounded
twice. -/
lemma Width.roundDouble_ofWord (h : Format.RoundedTwice q) (negative : Bool) :
    Width.bits32.roundDouble
        (.ofWord (Format.double.withSign negative (Format.double.roundAbs q))) =
      .ofNumber (Format.single.decode
        (Format.single.withSign negative (Format.single.roundAbs q))) := by
  obtain ⟨word, m, e, hword, hround, -, hsingle⟩ := h
  have hle : Format.single.roundAbs q ≤ Format.single.infinity :=
    Format.roundQuotient_le_infinity _ _
  have hvalue : (Double.ofWord (Format.double.withSign negative word)).value =
      .finite negative m e := by
    rw [Double.value_withSign hword.lt_infinity.le, Format.decode_withSign hword]
  have hnan : (Double.ofWord (Format.double.withSign negative word)).isNaN = false := by
    rw [Double.isNaN, hvalue]
    rfl
  have hnan' := Double.isNaN_ofNumber (Format.decode_withSign_ne_nan hle negative)
  rw [roundDouble, hround, Single.ofDoubleKeepingSign, if_neg (by rw [hnan]; decide),
    Single.ofDouble, hvalue, Single.ofNumber, Format.encode, hsingle, Single.toDoubleKeepingSign,
    Single.toDouble, Single.value_withSign hle]
  exact if_neg fun h => Bool.false_ne_true (hnan'.symm.trans h.1)

namespace FloatBinaryOp

variable {op : FloatBinaryOp} {a b : Single}

/-- The exact result of an arithmetic instruction; a quotient by zero has none. -/
def exactResult? (op : FloatBinaryOp) (x y : ℚ) : Option ℚ :=
  match op with
  | add => some (x + y)
  | sub => some (x - y)
  | mul => some (x * y)
  | div => if y = 0 then none else some (x / y)
  | min | max | copysign => none

/-- On doubles the exact result is rounded once. -/
theorem exists_onDoubles_eq {u v : Double} (hu : u.value.toRat? = some x)
    (hv : v.value.toRat? = some y) (hq : op.exactResult? x y = some q) :
    ∃ negative,
      op.onDoubles u v = .ofWord (Format.double.withSign negative (Format.double.roundAbs q)) ∧
        (q ≠ 0 → negative = decide (q < 0)) := by
  have hrounded {n : Number} (h : n.toRat? = some q) : ∃ negative,
      Double.ofNumber n = .ofWord (Format.double.withSign negative (Format.double.roundAbs q)) ∧
        (q ≠ 0 → negative = decide (q < 0)) := by
    obtain ⟨negative, hencode, hsign⟩ := Number.exists_encode_eq (f := .double) h
    exact ⟨negative, congrArg Double.ofWord hencode, hsign⟩
  cases op with
  | add =>
      obtain rfl := Option.some.inj hq
      exact hrounded (Number.toRat?_add hu hv)
  | sub =>
      obtain rfl := Option.some.inj hq
      exact hrounded (Number.toRat?_sub hu hv)
  | mul =>
      obtain rfl := Option.some.inj hq
      exact hrounded (Number.toRat?_mul hu hv)
  | div =>
      rw [exactResult?, Option.ite_none_left_eq_some] at hq
      obtain ⟨hy, hq⟩ := hq
      obtain rfl := Option.some.inj hq
      obtain ⟨negative, hdivide, hsign⟩ := Number.exists_divideIn_eq (f := .double) hu hv hy
      exact ⟨negative, congrArg Double.ofWord hdivide, hsign⟩
  | min => cases hq
  | max => cases hq
  | copysign => cases hq

/-- The exact result for two singles can be rounded twice. -/
theorem roundedTwice (hx : Format.single.IsValue x) (hy : Format.single.IsValue y)
    (hq : op.exactResult? x y = some q) : Format.RoundedTwice q := by
  cases op with
  | add =>
      obtain rfl := Option.some.inj hq
      exact hx.roundedTwice_add hy
  | sub =>
      obtain rfl := Option.some.inj hq
      exact sub_eq_add_neg x y ▸ hx.roundedTwice_add hy.neg
  | mul =>
      obtain rfl := Option.some.inj hq
      exact hx.roundedTwice_mul hy
  | div =>
      rw [exactResult?, Option.ite_none_left_eq_some] at hq
      obtain ⟨hy0, hq⟩ := hq
      obtain rfl := Option.some.inj hq
      exact hx.roundedTwice_div hy hy0
  | min => cases hq
  | max => cases hq
  | copysign => cases hq

/-- **At 32 bits the exact result is rounded once**: the nearest double is finite, the single that
is nearest to it is the one nearest to the exact result, and this single is what the instruction
gives, for whatever doubles are rounded to the operands.  Only the sign of a zero that is exact
depends on more than the exact result. -/
theorem eval_bits32 (ha : a.value.toRat? = some x) (hb : b.value.toRat? = some y)
    (hq : op.exactResult? x y = some q) :
    ∃ (d : Number) (r : ℚ) (n : Number), Format.double.RoundsTo q d ∧ d.toRat? = some r ∧
      Format.single.RoundsTo r n ∧ Format.single.RoundsTo q n ∧
      ∀ u v : Double, Width.bits32.roundDouble u = a.toDouble →
        Width.bits32.roundDouble v = b.toDouble →
          (q ≠ 0 → op.eval .bits32 u v = .ofNumber n) ∧
          (q = 0 → (op.eval .bits32 u v).isZero = true) := by
  have htwice := roundedTwice (Single.isValue ha) (Single.isValue hb) hq
  obtain ⟨d, r, hd, hr, hn⟩ := htwice.exists_roundsTo
  refine ⟨d, r, _, hd, hr, hn, Format.roundsTo (by decide) q, fun u v hu hv => ?_⟩
  obtain ⟨negative, hdoubles, hsign⟩ :=
    exists_onDoubles_eq (Single.toRat?_toDouble ha) (Single.toRat?_toDouble hb) hq
  rw [eval, hu, hv, hdoubles, Width.roundDouble_ofWord htwice]
  refine ⟨fun hne => by rw [hsign hne], ?_⟩
  rintro rfl
  cases negative <;> decide

/-- A third, from one and three. -/
theorem eval_bits32_third :
    ∃ (d : Number) (r : ℚ) (n : Number), Format.double.RoundsTo (1 / 3) d ∧ d.toRat? = some r ∧
      Format.single.RoundsTo r n ∧ Format.single.RoundsTo (1 / 3) n ∧
      div.eval .bits32 (.ofInt 1) (.ofInt 3) = .ofNumber n := by
  have ha : (Single.ofInt 1).value.toRat? = some 1 := by
    have h : (Single.ofInt 1).value = .finite false (2 ^ 23) (-23) := by decide
    rw [h]
    norm_num [Number.toRat?, Number.signed]
  have hb : (Single.ofInt 3).value.toRat? = some 3 := by
    have h : (Single.ofInt 3).value = .finite false (3 * 2 ^ 22) (-22) := by decide
    rw [h]
    norm_num [Number.toRat?, Number.signed]
  have hq : div.exactResult? 1 3 = some (1 / 3) := by rw [exactResult?, if_neg (by norm_num)]
  obtain ⟨d, r, n, hd, hr, hn, hn', heval⟩ := eval_bits32 ha hb hq
  exact ⟨d, r, n, hd, hr, hn, hn',
    (heval (.ofInt 1) (.ofInt 3) (by decide) (by decide)).1 (by norm_num)⟩

end FloatBinaryOp

end EngineFuzz
