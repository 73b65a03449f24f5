import Mathlib
import EngineFuzz.Proofs.Float.Nearest
import EngineFuzz.Proofs.Float.Shortest

/-!
# Rounding twice

A sum, product or quotient of two singles can be rounded to a double first: rounding this double to
a single gives what rounding the exact result gives.  A product is a double itself.  A sum is a
double too, unless one operand is so much smaller that both roundings come back to the other.  A
quotient of two mantissas of 24 digits is not near to a midpoint of two singles, unless it is that
midpoint, and a midpoint is a double.

* `Format.IsValue`: a rational that is a number of the format, up to its sign.
* `Format.RoundedTwice`: rounding to a double first makes no difference.
* `Format.RoundedTwice.of_gridValue`, `Format.RoundedTwice.of_stable`: the two ways to it.
* `Format.IsValue.roundedTwice_mul`, `Format.IsValue.roundedTwice_add`,
  `Format.IsValue.roundedTwice_div`: the main statements.
-/

namespace EngineFuzz.Format

variable {f : Format} {word m n : Nat} {d e : Int} {q r x y : ℚ}

/-- The magnitude of a rational is a number of the format. -/
def IsValue (f : Format) (x : ℚ) : Prop := ∃ word m e, f.Denotes word m e ∧ |x| = m * 2 ^ e

lemma IsValue.neg (h : f.IsValue x) : f.IsValue (-x) := by
  obtain ⟨word, m, e, hword, hx⟩ := h
  exact ⟨word, m, e, hword, (abs_neg x).trans hx⟩

/-- Rounding to a double, and then to a single, is rounding to a single. -/
def RoundedTwice (q : ℚ) : Prop :=
  ∃ word m e, double.Denotes word m e ∧ double.roundAbs q = word ∧ (m = 0 → q = 0) ∧
    single.roundScaled m e = single.roundAbs q

/-! ### Two ways to round twice -/

/-- The grid goes on at the power of two that would be next. -/
lemma gridValue_infinity_double : double.gridValue double.infinity = 2 ^ (1024 : Int) := by
  have h := gridValue_add (f := double) (k := 2046) (m := 2 ^ 52) (by decide) (.inl (le_refl _))
  rw [show double.infinity = 2046 * 2 ^ double.fractionBits + 2 ^ 52 from rfl, h, Nat.cast_pow,
    Nat.cast_two, ← zpow_natCast, ← zpow_add₀ two_ne_zero]
  rfl

/-- Below the power of two that would be next, a point of the grid is a double. -/
lemma exists_denotes_of_gridValue (h : double.gridValue word < 2 ^ (1024 : Int)) :
    ∃ m e, double.Denotes word m e ∧ m * 2 ^ e = double.gridValue word := by
  rw [← gridValue_infinity_double, double.strictMono_gridValue.lt_iff_lt] at h
  obtain ⟨m, e, hword⟩ := exists_denotes_of_lt h
  exact ⟨m, e, hword, hword.gridValue_eq.symm⟩

/-- What is a double is rounded to itself. -/
lemma exists_denotes_of_eq (h : double.gridValue word = |q|) (hq : |q| < 2 ^ (1024 : Int)) :
    ∃ m e, double.Denotes word m e ∧ m * 2 ^ e = |q| ∧ double.roundAbs q = word := by
  obtain ⟨m, e, hword, hvalue⟩ := exists_denotes_of_gridValue (h ▸ hq)
  have hnear := double.isNearest_gridValue word
  rw [h] at hnear
  refine ⟨m, e, hword, hvalue.trans h, ?_⟩
  rw [roundAbs_eq (by decide) hnear, Nat.min_eq_left hword.lt_infinity.le]

/-- What is a double is rounded to itself first. -/
lemma RoundedTwice.of_gridValue (h : double.gridValue word = |q|) (hq : |q| < 2 ^ (1024 : Int)) :
    RoundedTwice q := by
  obtain ⟨m, e, hword, hvalue, hround⟩ := exists_denotes_of_eq h hq
  refine ⟨word, m, e, hword, hround, fun hm => ?_, roundScaled_eq_roundAbs hvalue⟩
  rw [hm, Nat.cast_zero, zero_mul] at hvalue
  exact abs_eq_zero.mp hvalue.symm

/-- A mantissa of at most 53 digits is a double. -/
lemma exists_gridValue_double (hm : m ≤ 2 ^ 53) (he : -1074 ≤ e) (he' : e < 971) :
    ∃ word, double.gridValue word = m * 2 ^ e ∧ (m : ℚ) * 2 ^ e < 2 ^ (1024 : Int) := by
  obtain ⟨word, hword⟩ := exists_gridValue (f := double) hm he
  have hm' : (m : ℚ) ≤ 2 ^ 53 := by exact_mod_cast hm
  refine ⟨word, hword, ?_⟩
  calc
    (m : ℚ) * 2 ^ e ≤ 2 ^ 53 * 2 ^ e := by gcongr
    _ < 2 ^ 53 * 2 ^ (971 : Int) := by gcongr; exact one_lt_two
    _ = 2 ^ (1024 : Int) := by rw [← zpow_natCast, ← zpow_add₀ two_ne_zero]; rfl

lemma RoundedTwice.of_mantissa (h : |q| = m * 2 ^ e) (hm : m ≤ 2 ^ 53) (he : -1074 ≤ e)
    (he' : e < 971) : RoundedTwice q := by
  obtain ⟨word, hword, hlt⟩ := exists_gridValue_double hm he he'
  exact of_gridValue (hword.trans h.symm) (h.trans_lt hlt)

/-- The double is nearer than one part in `2 ^ 53`, so that nothing changes if all that is so near
is rounded alike. -/
lemma RoundedTwice.of_stable (hlow : 2 ^ (-1022 : Int) ≤ |q|) (hhigh : |q| ≤ 2 ^ e) (he : e ≤ 1022)
    (h : ∀ r, |(r - |q|)| ≤ |q| / 2 ^ 53 → single.roundAbs r = single.roundAbs q) :
    RoundedTwice q := by
  have hq : 0 < |q| := lt_of_lt_of_le (by positivity) hlow
  obtain ⟨k, n, hat, hround⟩ := double.exists_roundsAt_abs (abs_pos.mp hq)
  have hunit : 2 ^ 52 * 2 ^ (double.minExponent + k) ≤ |q| := by
    refine hat.normal.elim (fun h0 => le_of_eq_of_le ?_ hlow) id
    rw [h0, ← zpow_natCast, ← zpow_add₀ two_ne_zero]
    rfl
  have hnear : |(double.gridValue (k * 2 ^ double.fractionBits + n) - |q|)| ≤ |q| / 2 ^ 53 := by
    rw [hat.gridValue_eq, abs_sub_comm]
    refine hat.near.trans ?_
    linarith only [hunit]
  have hlt : double.gridValue (k * 2 ^ double.fractionBits + n) < 2 ^ (1024 : Int) := by
    have hhalf := (abs_le.mp hnear).2
    calc
      double.gridValue (k * 2 ^ double.fractionBits + n) ≤ |q| * 2 := by linarith only [hhalf, hq]
      _ ≤ 2 ^ e * 2 := by gcongr
      _ = 2 ^ (e + 1) := (zpow_add_one₀ two_ne_zero e).symm
      _ < 2 ^ (1024 : Int) := zpow_lt_zpow_right₀ one_lt_two (by omega)
  obtain ⟨m, e, hword, hvalue⟩ := exists_denotes_of_gridValue hlt
  refine ⟨_, m, e, hword, ?_, fun hm => ?_, ?_⟩
  · rw [hround, Nat.min_eq_left hword.lt_infinity.le]
  · rw [← hvalue, hm, Nat.cast_zero, zero_mul, zero_sub, abs_neg, abs_abs] at hnear
    linarith only [hnear, hq]
  · rw [← h _ hnear]
    exact roundScaled_eq_roundAbs (hvalue.trans (abs_of_nonneg (double.gridValue_nonneg _)).symm)

/-! ### Products -/

/-- The mantissas of the singles have 24 digits. -/
lemma Denotes.single_bounds (h : single.Denotes word m e) :
    m < 2 ^ 24 ∧ -149 ≤ e ∧ e ≤ 232 := by
  have he : (-149 : Int) ≤ e := h.minExponent_le
  have he' : e + 24 ≤ 256 := h.exponent_bounds.2
  exact ⟨h.mantissa_lt, he, by omega⟩

/-- **A product of singles** is a double. -/
theorem IsValue.roundedTwice_mul (hx : single.IsValue x) (hy : single.IsValue y) :
    RoundedTwice (x * y) := by
  obtain ⟨_, m, e, hm, hx⟩ := hx
  obtain ⟨_, n, d, hn, hy⟩ := hy
  obtain ⟨hm, he, he'⟩ := hm.single_bounds
  obtain ⟨hn, hd, hd'⟩ := hn.single_bounds
  have hmn : m * n ≤ 2 ^ 24 * 2 ^ 24 := Nat.mul_le_mul hm.le hn.le
  refine .of_mantissa (m := m * n) (e := e + d) ?_ (hmn.trans (by norm_num)) (by omega) (by omega)
  rw [abs_mul, hx, hy, zpow_add₀ two_ne_zero]
  push_cast
  ring

/-! ### Sums -/

/-- What is near to a number of the format is rounded to it. -/
lemma roundAbs_eq_of_near (h : f.Denotes word m e) (hm : 0 < m)
    (hnear : |(|q| - m * 2 ^ e)| < 2 ^ e / 4) : f.roundAbs q = word := by
  rw [← natAbs_num_div_den q] at hnear
  exact roundQuotient_eq_of_near h hm q.den_pos hnear

/-- The mantissa with its sign. -/
lemma exists_signed (h : |x| = m * 2 ^ e) : ∃ a : Int, a.natAbs = m ∧ x = a * 2 ^ e := by
  rcases abs_choice x with hx | hx
  · exact ⟨m, rfl, by rw [← hx, h, Int.cast_natCast]⟩
  · refine ⟨-m, by simp, ?_⟩
    rw [← neg_neg x, ← hx, h]
    push_cast
    ring

/-- A sum is a double if the exponents are not far apart. -/
lemma roundedTwice_of_close {a b : Int} (h : x + y = a * 2 ^ e + b * 2 ^ d) (hed : d ≤ e)
    (hclose : e ≤ d + 28) (ha : a.natAbs < 2 ^ 24) (hb : b.natAbs < 2 ^ 24) (hd : -149 ≤ d)
    (hd' : d ≤ 232) : RoundedTwice (x + y) := by
  obtain ⟨k, rfl⟩ : ∃ k : Nat, e = d + k := ⟨(e - d).toNat, by omega⟩
  have hk : 2 ^ k ≤ 2 ^ 28 := Nat.pow_le_pow_right (by decide) (by omega)
  have hsum : (a * 2 ^ k + b).natAbs ≤ 2 ^ 53 := by
    calc
      (a * 2 ^ k + b).natAbs ≤ a.natAbs * 2 ^ k + b.natAbs := by
        refine (Int.natAbs_add_le _ _).trans ?_
        rw [Int.natAbs_mul, Int.natAbs_pow]
        rfl
      _ ≤ 2 ^ 24 * 2 ^ 28 + 2 ^ 24 := Nat.add_le_add (Nat.mul_le_mul ha.le hk) hb.le
      _ ≤ 2 ^ 53 := by norm_num
  refine .of_mantissa (e := d) ?_ hsum (by omega) (by omega)
  rw [h, Nat.cast_natAbs, Int.cast_abs, ← abs_of_pos (show (0 : ℚ) < 2 ^ d by positivity),
    ← abs_mul, abs_of_pos (show (0 : ℚ) < 2 ^ d by positivity), zpow_add₀ two_ne_zero,
    zpow_natCast]
  push_cast
  congr 1
  ring

/-- A sum is rounded to the greater operand, by either rounding, if the other is far smaller. -/
lemma roundedTwice_of_far (h : single.Denotes word m e) (hm : 0 < m) (hx : |x| = m * 2 ^ e)
    (hy : |y| < 2 ^ e / 16) : RoundedTwice (x + y) := by
  obtain ⟨hm24, he, he'⟩ := h.single_bounds
  have hunit : (0 : ℚ) < 2 ^ e := by positivity
  have hm1 : (1 : ℚ) ≤ m := by exact_mod_cast hm
  have hm2 : (m : ℚ) ≤ 2 ^ 24 := by exact_mod_cast hm24.le
  have hge : 2 ^ e ≤ |x| := by
    rw [hx]
    exact le_mul_of_one_le_left hunit.le hm1
  have hle : |x| ≤ 2 ^ 24 * 2 ^ e := by
    rw [hx]
    gcongr
  have hsum : |(|x + y| - |x|)| < 2 ^ e / 16 := by
    have := abs_abs_sub_abs_le_abs_sub (x + y) x
    rw [add_sub_cancel_left] at this
    exact this.trans_lt hy
  obtain ⟨hlow, hhigh⟩ := abs_lt.mp hsum
  refine .of_stable (e := 25 + e) ?_ ?_ (by omega) fun r hr => ?_
  · calc
      (2 : ℚ) ^ (-1022 : Int) ≤ 2 ^ (e - 1) := zpow_le_zpow_right₀ one_le_two (by omega)
      _ = 2 ^ e / 2 := zpow_sub_one₀ two_ne_zero e
      _ ≤ |x + y| := by linarith
  · calc
      |x + y| ≤ 2 ^ 25 * 2 ^ e := by linarith
      _ = 2 ^ (25 + e) := (zpow_add₀ two_ne_zero 25 e).symm
  · have hr' : |(r - |x + y|)| ≤ 2 ^ e / 16 := hr.trans (by linarith)
    have hrx : |(r - |x|)| < 2 ^ e / 8 := by
      have := abs_sub_le r |x + y| |x|
      linarith
    have hrpos : 0 ≤ r := by
      have := (abs_lt.mp hrx).1
      linarith
    rw [hx] at hrx hsum
    rw [roundAbs_eq_of_near h hm (by rw [abs_of_nonneg hrpos]; linarith),
      roundAbs_eq_of_near h hm (by linarith)]

/-- **A sum of singles** can be rounded twice. -/
theorem IsValue.roundedTwice_add (hx : single.IsValue x) (hy : single.IsValue y) :
    RoundedTwice (x + y) := by
  obtain ⟨word, m, e, hm, hxm⟩ := hx
  obtain ⟨word', n, d, hn, hyn⟩ := hy
  wlog hed : d ≤ e generalizing x y m n d e word word'
  · rw [add_comm]
    exact this word' n d hn hyn word m e hm hxm (not_le.mp hed).le
  obtain ⟨hm24, he, he'⟩ := hm.single_bounds
  obtain ⟨hn24, hd, hd'⟩ := hn.single_bounds
  by_cases hfar : d + 28 < e ∧ 0 < m
  · refine roundedTwice_of_far hm hfar.2 hxm ?_
    have hn' : (n : ℚ) < 2 ^ 24 := by exact_mod_cast hn24
    have hpow : (2 : ℚ) ^ (28 + d) ≤ 2 ^ e := zpow_le_zpow_right₀ one_le_two (by omega)
    have hsplit : (2 : ℚ) ^ (28 + d) = 2 ^ 28 * 2 ^ d := zpow_add₀ two_ne_zero 28 d
    calc
      |y| < 2 ^ 24 * 2 ^ d := hyn.trans_lt (by gcongr)
      _ ≤ 2 ^ e / 16 := by linarith
  · obtain ⟨a, ha, hxa⟩ := exists_signed hxm
    obtain ⟨b, hb, hyb⟩ := exists_signed hyn
    by_cases hm0 : 0 < m
    · exact roundedTwice_of_close (a := a) (b := b) (by rw [hxa, hyb]) hed (by omega) (by omega)
        (by omega) hd hd'
    · obtain rfl : a = 0 := by omega
      refine roundedTwice_of_close (a := 0) (b := b) (e := d) ?_ (le_refl d) (by omega) (by decide)
        (by omega) hd hd'
      rw [hxa, hyb]
      simp

/-! ### Quotients -/

/-- A quotient of mantissas of 24 digits is that of a mantissa of 25 digits, or keeps a distance. -/
lemma quotient_gap {k j : Int} {u : Nat} (hm : m < 2 ^ 24) (hm0 : 0 < m) (hn : n < 2 ^ 24)
    (hn0 : 0 < n) (hu : u < 2 ^ 25) (hne : (m : ℚ) / n * 2 ^ k ≠ u * 2 ^ j) :
    (m : ℚ) / n * 2 ^ k / 2 ^ 53 < |(m : ℚ) / n * 2 ^ k - u * 2 ^ j| := by
  have hn1 : (0 : ℚ) < n := by exact_mod_cast hn0
  have hm1 : (0 : ℚ) < m := by exact_mod_cast hm0
  have hnle : (n : ℚ) < 2 ^ 24 := by exact_mod_cast hn
  have hmle : (m : ℚ) < 2 ^ 24 := by exact_mod_cast hm
  have hule : (u : ℚ) < 2 ^ 25 := by exact_mod_cast hu
  -- both are multiples of the same unit, an `n`-th of the smaller power
  have hdist {t : Int} (hk : t ≤ k) (hj : t ≤ j) :
      2 ^ t / n ≤ |(m : ℚ) / n * 2 ^ k - u * 2 ^ j| := by
    obtain ⟨a, rfl⟩ : ∃ a : Nat, k = t + a := ⟨(k - t).toNat, by omega⟩
    obtain ⟨b, rfl⟩ : ∃ b : Nat, j = t + b := ⟨(j - t).toNat, by omega⟩
    have hsplit : (m : ℚ) / n * 2 ^ (t + a) - u * 2 ^ (t + b) =
        2 ^ t / n * ((m * 2 ^ a - u * 2 ^ b * n : Int) : ℚ) := by
      rw [zpow_add₀ two_ne_zero, zpow_add₀ two_ne_zero, zpow_natCast, zpow_natCast]
      push_cast
      field_simp
    have hpos : (0 : ℚ) < 2 ^ t / n := by positivity
    have hint : (m * 2 ^ a - u * 2 ^ b * n : Int) ≠ 0 := fun h0 => by
      rw [h0, Int.cast_zero, mul_zero] at hsplit
      exact hne (sub_eq_zero.mp hsplit)
    rw [hsplit, abs_mul, abs_of_pos hpos, ← Int.cast_abs]
    exact le_mul_of_one_le_right hpos.le (by exact_mod_cast Int.one_le_abs hint)
  rcases le_total k j with h | h
  · calc
      (m : ℚ) / n * 2 ^ k / 2 ^ 53 = (m : ℚ) / 2 ^ 53 * ((2 : ℚ) ^ k / n) := by ring
      _ < (2 : ℚ) ^ k / n := mul_lt_of_lt_one_left (by positivity) (by linarith)
      _ ≤ |(m : ℚ) / n * 2 ^ k - u * 2 ^ j| := hdist (le_refl k) h
  · by_cases htwice : 2 * (u * 2 ^ j) ≤ (m : ℚ) / n * 2 ^ k
    · have hpos : (0 : ℚ) < m / n * 2 ^ k := by positivity
      refine lt_of_lt_of_le ?_ (le_abs_self _)
      linarith
    · calc
        (m : ℚ) / n * 2 ^ k / 2 ^ 53 < 2 * (2 ^ 25 * 2 ^ j) / 2 ^ 53 := by
          have : (u : ℚ) * 2 ^ j ≤ 2 ^ 25 * 2 ^ j := by gcongr
          linarith
        _ ≤ 2 ^ j / 2 ^ 24 := by
          have : (0 : ℚ) < 2 ^ j := by positivity
          linarith
        _ ≤ 2 ^ j / n := by gcongr
        _ ≤ |(m : ℚ) / n * 2 ^ k - u * 2 ^ j| := hdist h (le_refl j)

/-- A midpoint of two singles has a mantissa of 25 digits. -/
lemma exists_midpoint_single (word : Nat) :
    ∃ (u : Nat) (j : Int), u < 2 ^ 25 ∧ -150 ≤ j ∧ single.midpoint word = u * 2 ^ j := by
  obtain ⟨k, m, h, hm⟩ := exists_midpoint single word
  have hmin : single.minExponent = -149 := rfl
  exact ⟨m, _, hm, by omega, h⟩

/-- **A quotient of singles** can be rounded twice. -/
theorem IsValue.roundedTwice_div (hx : single.IsValue x) (hy : single.IsValue y) (hy0 : y ≠ 0) :
    RoundedTwice (x / y) := by
  obtain ⟨_, m, e, hm, hx⟩ := hx
  obtain ⟨_, n, d, hn, hy⟩ := hy
  obtain ⟨hm24, he, he'⟩ := hm.single_bounds
  obtain ⟨hn24, hd, hd'⟩ := hn.single_bounds
  have hq : |x / y| = (m : ℚ) / n * 2 ^ (e - d) := by
    rw [abs_div, hx, hy, zpow_sub₀ two_ne_zero]
    ring
  have hn0 : 0 < n := Nat.pos_of_ne_zero fun h0 => by
    rw [h0, Nat.cast_zero, zero_mul, abs_eq_zero] at hy
    exact hy0 hy
  have hm1 : (m : ℚ) / n ≤ 2 ^ 24 := by
    have hn1 : (1 : ℚ) ≤ n := by exact_mod_cast hn0
    exact (div_le_self (Nat.cast_nonneg m) hn1).trans (by exact_mod_cast hm24.le)
  have hhigh : |x / y| ≤ 2 ^ (24 + (e - d)) := by
    rw [hq, zpow_add₀ two_ne_zero]
    exact mul_le_mul_of_nonneg_right hm1 (by positivity)
  rcases Nat.eq_zero_or_pos m with rfl | hm0
  · refine .of_mantissa (m := 0) (e := 0) ?_ (Nat.zero_le _) (by omega) (by omega)
    rw [hq]
    simp
  by_cases hmid : ∃ v, |x / y| = single.midpoint v
  · -- a midpoint is a double
    obtain ⟨v, hv⟩ := hmid
    obtain ⟨u, j, hu, hj, hvalue⟩ := exists_midpoint_single v
    obtain ⟨word, hword⟩ := exists_gridValue (f := double) (m := u) (e := j)
      (hu.le.trans (by decide)) ((by decide : (-1074 : Int) ≤ -150).trans hj)
    refine .of_gridValue (hword.trans (hvalue.symm.trans hv.symm)) (hhigh.trans_lt ?_)
    exact zpow_lt_zpow_right₀ one_lt_two (by omega)
  · have hne (v : Nat) : |x / y| ≠ single.midpoint v := fun h => hmid ⟨v, h⟩
    obtain ⟨word, hnear, hround⟩ := exists_isNearest (f := single) (by decide) (x / y)
    refine .of_stable ?_ hhigh (by omega) fun r hr => ?_
    · have hn1 : (1 : ℚ) / 2 ^ 24 ≤ m / n := by
        have : (1 : ℚ) ≤ m := by exact_mod_cast hm0
        have : (n : ℚ) ≤ 2 ^ 24 := by exact_mod_cast hn24.le
        gcongr
      calc
        (2 : ℚ) ^ (-1022 : Int) ≤ 2 ^ ((e - d) - 24) := zpow_le_zpow_right₀ one_le_two (by omega)
        _ = 1 / 2 ^ 24 * 2 ^ (e - d) := by
          rw [zpow_sub₀ two_ne_zero]
          ring
        _ ≤ m / n * 2 ^ (e - d) := by gcongr
        _ = |x / y| := hq.symm
    · have hgap (v : Nat) : |(r - |x / y|)| < |(|x / y| - single.midpoint v)| := by
        obtain ⟨u, j, hu, -, hvalue⟩ := exists_midpoint_single v
        have hv := hne v
        rw [hq, hvalue] at hv ⊢
        rw [hq] at hr
        exact hr.trans_lt (quotient_gap hm24 hm0 hn24 hn0 hu hv)
      have hr0 : 0 ≤ r := by
        have := (abs_le.mp hr).1
        have := abs_nonneg (x / y)
        linarith
      have hnear' : single.IsNearest |r| word := by
        rw [abs_of_nonneg hr0]
        refine hnear.congr (fun v => ⟨fun hv => ?_, fun hv => ?_⟩) hne
        · have h := hgap v
          rw [abs_of_neg (sub_neg.mpr hv)] at h
          linarith [(abs_lt.mp h).2]
        · have h := hgap v
          rw [abs_of_pos (sub_pos.mpr hv)] at h
          linarith [(abs_lt.mp h).1]
      rw [roundAbs_eq (by decide) hnear', hround]

end EngineFuzz.Format
