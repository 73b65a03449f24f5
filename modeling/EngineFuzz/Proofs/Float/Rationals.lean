import Mathlib
import EngineFuzz.Float.Arithmetic
import EngineFuzz.Proofs.Float.Nearest

/-!
# Arithmetic on rationals

A finite number is a rational.  Sums and products are exact, and what is left to a format is to
round the rational.

* `Number.toRat?`: the rational that a finite number is.
* `Number.toRat?_add`, `Number.toRat?_sub`, `Number.toRat?_mul`: exact arithmetic.
* `Number.exists_encode_eq`, `Number.exists_divideIn_eq`: numbers and quotients are rounded once.
-/

namespace EngineFuzz.Number

variable {f : Format} {m : Nat} {e : Int} {X Y : Number} {x y q : ℚ}

/-- A magnitude with a sign. -/
def signed (negative : Bool) (q : ℚ) : ℚ := if negative then -q else q

lemma abs_signed (negative : Bool) (q : ℚ) : |signed negative q| = |q| := by
  cases negative with
  | false => rfl
  | true => exact abs_neg q

lemma decide_signed_neg (negative : Bool) (h : 0 < q) :
    decide (signed negative q < 0) = negative := by
  cases negative with
  | false => exact decide_eq_false h.le.not_gt
  | true => exact decide_eq_true (neg_neg_of_pos h)

/-- The rational that a finite number is. -/
def toRat? : Number → Option ℚ
  | finite negative m e => some (signed negative (m * 2 ^ e))
  | _ => none

/-- A finite number has the magnitude of its rational, and unless this is zero its sign. -/
lemma exists_finite (h : X.toRat? = some q) :
    ∃ negative m e, X = .finite negative m e ∧ m * 2 ^ e = |q| ∧
      (q ≠ 0 → negative = decide (q < 0)) := by
  cases X with
  | nan => cases h
  | infinite negative => cases h
  | finite negative m e =>
      obtain rfl := Option.some.inj h
      have hnonneg : (0 : ℚ) ≤ m * 2 ^ e := by positivity
      refine ⟨negative, m, e, rfl, by rw [abs_signed, abs_of_nonneg hnonneg], fun hne => ?_⟩
      have hpos : (0 : ℚ) < m * 2 ^ e := hnonneg.lt_of_ne fun h0 => hne (by
        rw [← h0]
        cases negative <;> simp [signed])
      exact (decide_signed_neg negative hpos).symm

/-! ### Exact arithmetic -/

lemma toRat?_neg (h : X.toRat? = some x) : X.neg.toRat? = some (-x) := by
  cases X with
  | nan => cases h
  | infinite negative => cases h
  | finite negative m e =>
      obtain rfl := Option.some.inj h
      cases negative with
      | false => rfl
      | true => exact congrArg some (neg_neg _).symm

lemma toRat?_mul (hx : X.toRat? = some x) (hy : Y.toRat? = some y) :
    (X.mul Y).toRat? = some (x * y) := by
  obtain ⟨s, m, e, rfl, -⟩ := exists_finite hx
  obtain ⟨t, n, d, rfl, -⟩ := exists_finite hy
  obtain rfl := Option.some.inj hx
  obtain rfl := Option.some.inj hy
  have hexact : ((m * n : Nat) : ℚ) * 2 ^ (e + d) = m * 2 ^ e * (n * 2 ^ d) := by
    rw [zpow_add₀ two_ne_zero]
    push_cast
    ring
  rw [mul, toRat?, hexact]
  cases s <;> cases t <;> simp [signed]

/-- An integer with its sign, at an exponent. -/
lemma toRat?_ofInt (a e : Int) :
    (finite (decide (a < 0)) a.natAbs e).toRat? = some ((a : ℚ) * 2 ^ e) := by
  rw [toRat?]
  by_cases h : a < 0
  · rw [decide_eq_true h, Nat.cast_natAbs, abs_of_neg h, Int.cast_neg, neg_mul, signed, if_pos rfl,
      neg_neg]
  · rw [decide_eq_false h, Nat.cast_natAbs, abs_of_nonneg (not_lt.mp h), signed,
      if_neg Bool.false_ne_true]

/-- A mantissa with its sign as an integer, at a smaller exponent. -/
private def atPlace (negative : Bool) (m : Nat) (e place : Int) : Int :=
  if negative then -(m * Nat.pow 2 (e - place).toNat : Nat)
  else (m * Nat.pow 2 (e - place).toNat : Nat)

private lemma atPlace_mul_pow (negative : Bool) (m : Nat) {place : Int} (h : place ≤ e) :
    (atPlace negative m e place : ℚ) * 2 ^ place = signed negative (m * 2 ^ e) := by
  obtain ⟨k, rfl⟩ : ∃ k : Nat, e = place + k := ⟨(e - place).toNat, by omega⟩
  rw [atPlace, add_sub_cancel_left, Int.toNat_natCast, zpow_add₀ two_ne_zero, zpow_natCast]
  cases negative <;> simp [signed] <;> ring

lemma toRat?_add (hx : X.toRat? = some x) (hy : Y.toRat? = some y) :
    (X.add Y).toRat? = some (x + y) := by
  obtain ⟨s, m, e, rfl, -⟩ := exists_finite hx
  obtain ⟨t, n, d, rfl, -⟩ := exists_finite hy
  obtain rfl := Option.some.inj hx
  obtain rfl := Option.some.inj hy
  let place : Int := Min.min e d
  let sum : Int := atPlace s m e place + atPlace t n d place
  have hadd : (finite s m e).add (finite t n d) =
      if sum = 0 then finite (s && t) 0 place
      else finite (decide (sum < 0)) sum.natAbs place := rfl
  have hsum : (sum : ℚ) * 2 ^ place = signed s (m * 2 ^ e) + signed t (n * 2 ^ d) := by
    rw [Int.cast_add, add_mul, atPlace_mul_pow s m (min_le_left e d),
      atPlace_mul_pow t n (min_le_right e d)]
  rw [hadd, ← hsum]
  split
  · rename_i hzero
    rw [hzero, toRat?, Nat.cast_zero, Int.cast_zero, zero_mul]
    cases s && t <;> simp [signed]
  · exact toRat?_ofInt _ _

lemma toRat?_sub (hx : X.toRat? = some x) (hy : Y.toRat? = some y) :
    (X.sub Y).toRat? = some (x - y) := by
  rw [sub_eq_add_neg]
  exact toRat?_add hx (toRat?_neg hy)

/-! ### Rounding -/

/-- A finite number is rounded as its rational is. -/
theorem exists_encode_eq (h : X.toRat? = some q) :
    ∃ negative, f.encode X = f.withSign negative (f.roundAbs q) ∧
      (q ≠ 0 → negative = decide (q < 0)) := by
  obtain ⟨negative, m, e, rfl, habs, hsign⟩ := exists_finite h
  exact ⟨negative, by rw [Format.encode, Format.roundScaled_eq_roundAbs habs], hsign⟩

/-- A quotient has the sign of both terms. -/
lemma decide_div_neg (hx : x ≠ 0) (hy : y ≠ 0) :
    decide (x / y < 0) = (decide (x < 0) ^^ decide (y < 0)) := by
  rcases lt_or_gt_of_ne hx with hx | hx <;> rcases lt_or_gt_of_ne hy with hy | hy <;>
    simp [div_neg_iff, hx, hy, hx.not_gt, hy.not_gt]

/-- A quotient is rounded once. -/
theorem exists_divideIn_eq (hx : X.toRat? = some x) (hy : Y.toRat? = some y) (hy0 : y ≠ 0) :
    ∃ negative, X.divideIn f Y = f.withSign negative (f.roundAbs (x / y)) ∧
      (x / y ≠ 0 → negative = decide (x / y < 0)) := by
  obtain ⟨s, m, e, rfl, hxm, hs⟩ := exists_finite hx
  obtain ⟨t, n, d, rfl, hyn, ht⟩ := exists_finite hy
  have hn : n ≠ 0 := fun h0 => by
    rw [h0, Nat.cast_zero, zero_mul, eq_comm, abs_eq_zero] at hyn
    exact hy0 hyn
  have hquotient : ((Format.scaled m n (e - d)).1 : ℚ) / (Format.scaled m n (e - d)).2 =
      |x / y| := by
    rw [Format.scaled_eq, abs_div, ← hxm, ← hyn, zpow_sub₀ two_ne_zero]
    field_simp
  refine ⟨s ^^ t, ?_, fun hne => ?_⟩
  · rw [divideIn, if_neg hn]
    exact congrArg (f.withSign (s ^^ t)) (Format.roundQuotient_eq_roundAbs
      (Format.scaled_snd_pos m (Nat.pos_of_ne_zero hn) (e - d)) hquotient)
  · have hx0 : x ≠ 0 := fun h0 => hne (by rw [h0, zero_div])
    rw [hs hx0, ht hy0, decide_div_neg hx0 hy0]

end EngineFuzz.Number
