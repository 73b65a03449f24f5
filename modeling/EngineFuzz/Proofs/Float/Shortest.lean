import Mathlib
import EngineFuzz.Float.Decimal
import EngineFuzz.Proofs.Float.Rounding

/-!
# Shortest decimals

The word that a decimal is rounded to depends on its value only, and the shortest decimal of a word
is rounded to that word.

* `Decimal.value`: the number that a decimal denotes.
* `Format.ofDecimal_congr`, `Format.ofDecimal_eq_of_near`: rounding a decimal.
* `Format.ofDecimal_shortest`: the main statement.
-/

namespace EngineFuzz

namespace Decimal

/-- The number that a decimal denotes. -/
def value (d : Decimal) : ℚ := d.significand * 10 ^ d.exponent

lemma log10_eq (n : Nat) : log10 n = Nat.log 10 n := by
  induction n using log10.induct with
  | case1 n h => rw [log10, if_pos h, Nat.log_of_lt h]
  | case2 n h ih =>
      rw [log10, if_neg h, ih, Nat.log_of_one_lt_of_le (by decide) (Nat.not_lt.mp h)]

variable {d : Decimal}

lemma quotient_snd_pos (d : Decimal) : 0 < d.quotient.2 := Nat.pow_pos (by decide)

lemma quotient_eq (d : Decimal) : (d.quotient.1 : ℚ) / d.quotient.2 = d.value := by
  have hpow (n : Nat) : ((Nat.pow 10 n : Nat) : ℚ) = 10 ^ n := by simp
  unfold quotient value
  push_cast [hpow]
  rcases le_total 0 d.exponent with h | h
  · obtain ⟨n, hn⟩ := Int.eq_ofNat_of_zero_le h
    rw [hn]
    simp
  · obtain ⟨n, hn⟩ := Int.eq_ofNat_of_zero_le (Int.neg_nonneg_of_nonpos h)
    have hexp : d.exponent = -(n : Int) := by omega
    rw [hexp]
    simp [div_eq_mul_inv]

lemma value_pos (h : d.significand ≠ 0) : 0 < d.value :=
  mul_pos (by exact_mod_cast Nat.pos_of_ne_zero h) (by positivity)

/-- The exponent of the first digit is the decimal logarithm. -/
lemma leadingExponent_eq (h : d.significand ≠ 0) : d.leadingExponent = Int.log 10 d.value := by
  have hv := value_pos h
  have hpow : (0 : ℚ) < 10 ^ d.exponent := by positivity
  have hlog := log10_eq d.significand
  have hlow : (10 : ℚ) ^ d.leadingExponent ≤ d.value := by
    have hnat : 10 ^ log10 d.significand ≤ d.significand := hlog ▸ Nat.pow_log_le_self 10 h
    rw [leadingExponent, value, zpow_add₀ (by norm_num), mul_comm, zpow_natCast]
    gcongr
    exact_mod_cast hnat
  have hhigh : d.value < (10 : ℚ) ^ (d.leadingExponent + 1) := by
    have hnat : d.significand < 10 ^ (log10 d.significand + 1) :=
      hlog ▸ Nat.lt_pow_succ_log_self (by decide) _
    have hsplit : d.leadingExponent + 1 = d.exponent + (log10 d.significand + 1 : Nat) := by
      rw [leadingExponent]
      push_cast
      ring
    rw [hsplit, value, zpow_add₀ (by norm_num), mul_comm (10 ^ d.exponent), zpow_natCast]
    gcongr
    exact_mod_cast hnat
  have hle (x : Int) : (10 : ℚ) ^ x ≤ d.value ↔ x ≤ Int.log 10 d.value := by
    rw [← Int.zpow_le_iff_le_log (by decide) hv, Nat.cast_ofNat]
  have := (hle _).mp hlow
  have := (not_congr (hle _)).mp (not_le.mpr hhigh)
  omega

/-- Trimming keeps the number. -/
lemma value_trim (d : Decimal) : d.trim.value = d.value := by
  induction d using trim.induct with
  | case1 d h0 =>
      rw [trim, dif_pos h0, value, value, h0]
      simp
  | case2 d h0 hmod ih =>
      rw [trim, dif_neg h0, if_pos hmod, ih]
      obtain ⟨n, hn⟩ := Nat.dvd_of_mod_eq_zero hmod
      simp only [value, hn, Nat.mul_div_cancel_left n (show 0 < 10 by decide)]
      rw [zpow_add₀ (by norm_num)]
      push_cast
      ring
  | case3 d h0 hmod => rw [trim, dif_neg h0, if_neg hmod]

end Decimal

namespace Format

variable {f : Format} {d d' : Decimal} {word m : Nat} {e : Int}

/-! ### Rounding decimals -/

/-- Decimals that denote the same number are rounded alike. -/
theorem ofDecimal_congr (h : d.value = d'.value) : f.ofDecimal d = f.ofDecimal d' := by
  have hzero (d : Decimal) : d.significand = 0 ↔ d.value = 0 := by
    constructor
    · intro h0
      rw [Decimal.value, h0]
      simp
    · intro hv
      by_contra h0
      exact (Decimal.value_pos h0).ne' hv
  have hiff : d.significand = 0 ↔ d'.significand = 0 := by rw [hzero, hzero, h]
  by_cases h0 : d.significand = 0
  · rw [ofDecimal, ofDecimal, if_pos h0, if_pos (hiff.mp h0)]
  have h0' : d'.significand ≠ 0 := fun hz => h0 (hiff.mpr hz)
  have hlead : d.leadingExponent = d'.leadingExponent := by
    rw [Decimal.leadingExponent_eq h0, Decimal.leadingExponent_eq h0', h]
  have hround : f.roundQuotient d.quotient.1 d.quotient.2 =
      f.roundQuotient d'.quotient.1 d'.quotient.2 :=
    roundQuotient_congr d.quotient_snd_pos d'.quotient_snd_pos
      (d.quotient_eq.trans (h.trans d'.quotient_eq.symm))
  rw [ofDecimal, ofDecimal, if_neg h0, if_neg h0', hlead]
  exact if_congr Iff.rfl rfl (if_congr Iff.rfl rfl hround)

/-- The exponents of a format lie within twice its range. -/
lemma Denotes.exponent_bounds (h : f.Denotes word m e) :
    2 - (2 ^ f.exponentBits + f.fractionBits : Nat) ≤ e ∧
      e + (f.fractionBits + 1 : Nat) ≤ (2 ^ f.exponentBits : Nat) := by
  have hunit : 0 < 2 ^ f.fractionBits := Nat.two_pow_pos _
  obtain ⟨k, hk⟩ := Int.eq_ofNat_of_zero_le (Int.sub_nonneg_of_le h.minExponent_le)
  have hword := h.word_eq
  rw [hk, Int.toNat_natCast] at hword
  have hlt : k * 2 ^ f.fractionBits < (2 ^ f.exponentBits - 1) * 2 ^ f.fractionBits :=
    lt_of_le_of_lt (by omega) h.lt_infinity
  have hk' : k < 2 ^ f.exponentBits - 1 := (Nat.mul_lt_mul_right hunit).mp hlt
  have hmin : f.minExponent = 2 - (2 ^ (f.exponentBits - 1) : Nat) - f.fractionBits := rfl
  have hhalf : 2 ^ f.exponentBits = 2 * 2 ^ (f.exponentBits - 1) := by
    obtain ⟨n, hn⟩ : ∃ n, f.exponentBits = n + 1 := by
      refine Nat.exists_eq_succ_of_ne_zero fun h0 => ?_
      rw [h0] at hk'
      omega
    rw [hn, Nat.add_sub_cancel, Nat.pow_succ]
    omega
  have hpos : 0 < 2 ^ (f.exponentBits - 1) := Nat.two_pow_pos _
  omega

/-- A decimal that is neither far below nor far above a number of the format is in range. -/
lemma ofDecimal_eq_roundQuotient (h : f.Denotes word m e) (hlow : 2 ^ e / 4 ≤ d.value)
    (hhigh : d.value < 2 ^ (f.fractionBits + 1) * 2 ^ e) :
    f.ofDecimal d = f.roundQuotient d.quotient.1 d.quotient.2 := by
  have hunit : (0 : ℚ) < 2 ^ e := by positivity
  have hpos : 0 < d.value := by linarith
  have h0 : d.significand ≠ 0 := by
    intro h0
    rw [Decimal.value, h0] at hpos
    simp at hpos
  have hle (x : Int) : (10 : ℚ) ^ x ≤ d.value ↔ x ≤ d.leadingExponent := by
    rw [Decimal.leadingExponent_eq h0, ← Int.zpow_le_iff_le_log (by decide) hpos, Nat.cast_ofNat]
  obtain ⟨hmin, hmax⟩ := h.exponent_bounds
  -- neither of the two shortcuts is taken
  have hlarge : d.leadingExponent ≤ (2 ^ f.exponentBits : Nat) := by
    have hbound : d.value < 10 ^ ((2 ^ f.exponentBits : Nat) : Int) := by
      calc
        d.value < 2 ^ (f.fractionBits + 1) * 2 ^ e := hhigh
        _ = 2 ^ (e + (f.fractionBits + 1 : Nat)) := by
          rw [zpow_add₀ two_ne_zero, zpow_natCast, mul_comm]
        _ ≤ 2 ^ ((2 ^ f.exponentBits : Nat) : Int) := zpow_le_zpow_right₀ one_le_two hmax
        _ ≤ 10 ^ ((2 ^ f.exponentBits : Nat) : Int) := by
          rw [zpow_natCast, zpow_natCast]
          gcongr
          norm_num
    have := (not_congr (hle _)).mp (not_le.mpr hbound)
    omega
  have hsmall : -((2 ^ f.exponentBits + f.fractionBits : Nat) : Int) ≤ d.leadingExponent := by
    rw [← hle]
    calc
      (10 : ℚ) ^ (-((2 ^ f.exponentBits + f.fractionBits : Nat) : Int))
        ≤ 2 ^ (-((2 ^ f.exponentBits + f.fractionBits : Nat) : Int)) := by
          rw [zpow_neg, zpow_neg, zpow_natCast, zpow_natCast]
          gcongr
          norm_num
      _ ≤ 2 ^ (e - 2) := zpow_le_zpow_right₀ one_le_two (by omega)
      _ = 2 ^ e / 4 := by
          rw [zpow_sub₀ two_ne_zero]
          norm_num
      _ ≤ d.value := hlow
  rw [ofDecimal, if_neg h0]
  simp only [Nat.pow_eq]
  rw [if_neg (by exact_mod_cast not_lt.mpr hlarge), if_neg (by push_cast at hsmall ⊢; omega)]

/-- A decimal near to a number of the format is rounded to it. -/
theorem ofDecimal_eq_of_near (h : f.Denotes word m e) (hm : 0 < m)
    (hnear : |d.value - m * 2 ^ e| < 2 ^ e / 4) : f.ofDecimal d = word := by
  have hunit : (0 : ℚ) < 2 ^ e := by positivity
  have hm' : (1 : ℚ) ≤ m := by exact_mod_cast hm
  have hmantissa : (m : ℚ) + 1 ≤ 2 ^ (f.fractionBits + 1) := by exact_mod_cast h.mantissa_lt
  obtain ⟨hlow, hhigh⟩ := abs_lt.mp hnear
  rw [ofDecimal_eq_roundQuotient h (by nlinarith) (by nlinarith)]
  refine roundQuotient_eq_of_near h hm d.quotient_snd_pos ?_
  rwa [d.quotient_eq]

/-- A decimal that is rounded to a number of the format is not out of range. -/
lemma roundQuotient_of_ofDecimal (h : f.Denotes word m e) (hm : 0 < m)
    (hround : f.ofDecimal d = word) : f.roundQuotient d.quotient.1 d.quotient.2 = word := by
  have hpos : 0 < word := by
    rw [h.word_eq]
    omega
  rw [ofDecimal] at hround
  dsimp only at hround
  split at hround
  · omega
  split at hround
  · exact absurd hround.symm h.lt_infinity.ne
  split at hround
  · omega
  exact hround

/-! ### Searching the grids -/

variable {tie : Tie} {num den : Nat} {place : Int}

lemma nearer_cases (tie : Tie) (below above : Decimal) (upward : Ordering) :
    nearer tie below above upward = below ∨ nearer tie below above upward = above := by
  cases upward with
  | lt => exact .inr rfl
  | gt => exact .inl rfl
  | eq =>
      cases tie with
      | up => exact .inr rfl
      | even => exact ite_eq_or_eq ..

/-- The decimal that a grid gives is rounded to the word. -/
lemma ofDecimal_onGrid? (h : f.onGrid? tie word num den place = some d) : f.ofDecimal d = word := by
  rcases hgrid : gridNeighbours num den place with ⟨below, above, upward⟩
  rw [onGrid?, hgrid] at h
  dsimp only at h
  split at h
  · rename_i hbelow habove
    rcases nearer_cases tie below above upward with heq | heq
    · rw [← Option.some.inj h, heq, eq_of_beq hbelow]
    · rw [← Option.some.inj h, heq, eq_of_beq habove]
  · rename_i hbelow _
    rw [← Option.some.inj h, eq_of_beq hbelow]
  · rename_i _ habove
    rw [← Option.some.inj h, eq_of_beq habove]
  · cases h

/-- A quotient lies between its neighbours on a grid, and below the upper one. -/
lemma gridNeighbours_bounds (num den : Nat) (place : Int) :
    (gridNeighbours num den place).1.value ≤ num / den ∧
      (num : ℚ) / den < (gridNeighbours num den place).2.1.value := by
  have hstep : (0 : ℚ) < 10 ^ place := by positivity
  let steps : Nat := (num * Nat.pow 10 (-place).toNat) / (den * Nat.pow 10 place.toNat)
  have hsteps : ((num * Nat.pow 10 (-place).toNat : Nat) : ℚ) /
      (den * Nat.pow 10 place.toNat : Nat) = num / den * 10 ^ (-place) := by
    have h := Decimal.quotient_eq ⟨num, -place⟩
    rw [Decimal.quotient, Decimal.value, neg_neg] at h
    dsimp only at h
    rw [Nat.cast_mul den, mul_comm (den : ℚ), ← div_div, h]
    ring
  have hlow : (steps : ℚ) ≤ num / den * 10 ^ (-place) := hsteps ▸ Nat.cast_div_le
  have hhigh : (num : ℚ) / den * 10 ^ (-place) < (steps + 1 : Nat) := by
    rw [← hsteps]
    have := Nat.lt_floor_add_one
      (((num * Nat.pow 10 (-place).toNat : Nat) : ℚ) / (den * Nat.pow 10 place.toNat : Nat))
    rwa [Nat.floor_div_eq_div, ← Nat.cast_add_one] at this
  have hback : (num : ℚ) / den = num / den * 10 ^ (-place) * 10 ^ place := by
    rw [mul_assoc, ← zpow_add₀ (by norm_num), neg_add_cancel, zpow_zero, mul_one]
  rw [hback]
  exact ⟨mul_le_mul_of_nonneg_right hlow hstep.le, mul_lt_mul_of_pos_right hhigh hstep⟩

/-- The lower neighbour on a grid lies less than a step below. -/
lemma gridNeighbours_near (num den : Nat) (place : Int) :
    |(gridNeighbours num den place).1.value - num / den| < 10 ^ place := by
  obtain ⟨hlow, hhigh⟩ := gridNeighbours_bounds num den place
  have hstep : (gridNeighbours num den place).2.1.value =
      (gridNeighbours num den place).1.value + 10 ^ place := by
    simp only [gridNeighbours, Decimal.value]
    push_cast
    ring
  rw [abs_of_nonpos (by linarith)]
  linarith

/-- Ever finer grids end with a decimal that is rounded to the word, when the finest one is so fine
that no other word is near. -/
lemma ofDecimal_firstGrid (h : f.Denotes word m e) (hm : 0 < m)
    (hvalue : (num : ℚ) / den = m * 2 ^ e) {count : Nat}
    (hfine : (10 : ℚ) ^ (place - count) ≤ 2 ^ e / 4) :
    f.ofDecimal (f.firstGrid tie word num den count place) = word := by
  induction count generalizing place with
  | zero =>
      refine ofDecimal_eq_of_near h hm ?_
      rw [← hvalue]
      rw [Nat.cast_zero, sub_zero] at hfine
      exact (gridNeighbours_near ..).trans_le hfine
  | succ count ih =>
      rw [firstGrid]
      cases hgrid : f.onGrid? tie word num den place with
      | some d => exact ofDecimal_onGrid? hgrid
      | none =>
          refine ih ?_
          rwa [sub_sub, add_comm 1, ← Nat.cast_succ]

/-- The first grid is that of the first digit, or a finer one. -/
lemma pow_quotientLog10_le (hn : 0 < num) (hd : 0 < den) :
    (10 : ℚ) ^ quotientLog10 num den ≤ num / den := by
  have hd' : (0 : ℚ) < den := by exact_mod_cast hd
  rw [quotientLog10]
  split
  · rename_i hle
    have hdiv : num / den ≠ 0 := (Nat.div_pos hle hd).ne'
    rw [Decimal.log10_eq, zpow_natCast]
    calc
      (10 : ℚ) ^ Nat.log 10 (num / den) ≤ (num / den : Nat) := by
        exact_mod_cast Nat.pow_log_le_self 10 hdiv
      _ ≤ num / den := Nat.cast_div_le
  · have hlt := Nat.lt_pow_succ_log_self (show 1 < 10 by decide) ((den - 1) / num)
    rw [Nat.div_lt_iff_lt_mul hn, Nat.succ_eq_add_one] at hlt
    rw [Decimal.log10_eq, zpow_neg, zpow_natCast, le_div_iff₀ hd', inv_mul_le_iff₀ (by positivity)]
    exact_mod_cast (by omega : den ≤ 10 ^ (Nat.log 10 ((den - 1) / num) + 1) * num)

/-- **The shortest decimal of a word is rounded to it.** -/
theorem ofDecimal_shortest (h : f.Denotes word m e) (hm : 0 < m) (tie : Tie) :
    f.ofDecimal (f.shortest tie word) = word := by
  let num : Nat := m * Nat.pow 2 e.toNat
  let den : Nat := Nat.pow 2 (-e).toNat
  have hn : 0 < num := Nat.mul_pos hm (Nat.pow_pos (by decide))
  have hd : 0 < den := Nat.pow_pos (by decide)
  have hvalue : (num : ℚ) / den = m * 2 ^ e := quotient_scaled m e
  have hshortest : f.shortest tie word =
      (f.firstGrid tie word num den (f.fractionBits + 2) (quotientLog10 num den)).trim := by
    rw [shortest, decode_eq_iff.mpr h]
    exact if_neg hm.ne'
  rw [hshortest, ofDecimal_congr (Decimal.value_trim _)]
  refine ofDecimal_firstGrid h hm hvalue ?_
  have hunit : (0 : ℚ) < 2 ^ e := by positivity
  have hmantissa : (m : ℚ) ≤ 2 ^ f.fractionBits * 2 := by
    rw [← pow_succ]
    exact_mod_cast h.mantissa_lt.le
  have hpow : (2 : ℚ) ^ f.fractionBits * 100 ≤ 10 ^ (f.fractionBits + 2) := by
    rw [pow_add]
    have : (2 : ℚ) ^ f.fractionBits ≤ 10 ^ f.fractionBits := by
      gcongr
      norm_num
    linarith
  rw [zpow_sub₀ (by norm_num), zpow_natCast, div_le_iff₀ (by positivity)]
  calc
    (10 : ℚ) ^ quotientLog10 num den ≤ m * 2 ^ e := hvalue ▸ pow_quotientLog10_le hn hd
    _ ≤ 2 ^ f.fractionBits * 2 * 2 ^ e := by gcongr
    _ ≤ 2 ^ e / 4 * (2 ^ f.fractionBits * 100) := by
      have : (0 : ℚ) < 2 ^ f.fractionBits * 2 ^ e := by positivity
      linarith
    _ ≤ 2 ^ e / 4 * 10 ^ (f.fractionBits + 2) := by gcongr

end Format

end EngineFuzz
