import Mathlib
import EngineFuzz.Float.Format

/-!
# Rounding to a format

The word that a quotient is rounded to depends on its value only.  A word stands for a mantissa and
an exponent, and every quotient near enough to what it stands for is rounded to it.

* `Format.divideToEven_eq`: the nearest natural.
* `Format.lastPlace_eq`: the last place is the binary logarithm, less the bits of the fraction.
* `Format.roundQuotient_congr`: equal quotients are rounded alike.
* `Format.Denotes`: what a word stands for, with `Format.decode_eq_iff`.
* `Format.roundQuotient_eq_of_near`: the main statement.
-/

namespace EngineFuzz.Format

variable {f : Format} {num den num' den' : Nat}

/-! ### The nearest natural -/

/-- A natural that is less than a half away is the nearest one. -/
lemma divideToEven_eq {n : Nat} (hd : 0 < den) (h : |(num : ℚ) / den - n| < 1 / 2) :
    divideToEven num den = n := by
  have hd' : (0 : ℚ) < den := by exact_mod_cast hd
  obtain ⟨hlow, hhigh⟩ := abs_lt.mp h
  have hlow' : 2 * (n * den) < 2 * num + den := by
    have : (n : ℚ) * den - den / 2 < num := by
      have := (lt_div_iff₀ hd').mp (show (n : ℚ) - 1 / 2 < num / den by linarith)
      linarith
    exact_mod_cast (by linarith : (2 : ℚ) * (n * den) < 2 * num + den)
  have hhigh' : 2 * num < 2 * (n * den) + den := by
    have : (num : ℚ) < n * den + den / 2 := by
      have := (div_lt_iff₀ hd').mp (show (num : ℚ) / den < n + 1 / 2 by linarith)
      linarith
    exact_mod_cast (by linarith : (2 : ℚ) * num < 2 * (n * den) + den)
  have hmod := Nat.div_add_mod num den
  have hlt := Nat.mod_lt num hd
  have hq : num / den = n ∧ 2 * (num % den) < den ∨ num / den + 1 = n ∧ den < 2 * (num % den) := by
    rcases Nat.lt_trichotomy (num / den) n with hlt' | heq | hgt
    · obtain ⟨k, rfl⟩ := Nat.exists_eq_add_of_lt hlt'
      cases k with
      | zero => exact .inr ⟨rfl, by nlinarith⟩
      | succ k => nlinarith
    · subst heq
      exact .inl ⟨rfl, by nlinarith⟩
    · have := (Nat.le_div_iff_mul_le hd).mp (show n + 1 ≤ num / den from hgt)
      nlinarith
  unfold divideToEven
  rcases hq with ⟨rfl, hr⟩ | ⟨rfl, hr⟩
  · simp only [if_pos hr]
  · simp only [if_neg (Nat.not_lt.mpr hr.le), if_pos hr]

/-- Equal quotients have the same nearest natural. -/
lemma divideToEven_congr (hd : 0 < den) (hd' : 0 < den') (h : num * den' = num' * den) :
    divideToEven num den = divideToEven num' den' := by
  have hscale (c n d : Nat) (hc : 0 < c) : divideToEven (c * n) (c * d) = divideToEven n d := by
    unfold divideToEven
    simp only [Nat.mul_div_mul_left _ _ hc, Nat.mul_mod_mul_left, Nat.mul_left_comm 2 c,
      Nat.mul_lt_mul_left hc]
  calc
    divideToEven num den = divideToEven (den' * num) (den' * den) := (hscale _ _ _ hd').symm
    _ = divideToEven (den * num') (den * den') := by
      rw [Nat.mul_comm den' num, h, Nat.mul_comm num' den, Nat.mul_comm den' den]
    _ = divideToEven num' den' := hscale _ _ _ hd

/-! ### The last place -/

lemma scaled_snd_pos (num : Nat) (hd : 0 < den) (shift : Int) : 0 < (scaled num den shift).2 :=
  Nat.mul_pos hd (Nat.pow_pos (by decide))

/-- Scaling multiplies the quotient by a power of two. -/
lemma scaled_eq (num den : Nat) (shift : Int) :
    ((scaled num den shift).1 : ℚ) / (scaled num den shift).2 = num / den * 2 ^ shift := by
  have hpow (n : Nat) : ((Nat.pow 2 n : Nat) : ℚ) = 2 ^ n := by simp
  unfold scaled
  push_cast [hpow]
  rcases le_total 0 shift with h | h
  · obtain ⟨n, rfl⟩ := Int.eq_ofNat_of_zero_le h
    simp
    ring
  · obtain ⟨n, hn⟩ := Int.eq_ofNat_of_zero_le (Int.neg_nonneg_of_nonpos h)
    have hshift : shift = -(n : Int) := by omega
    subst hshift
    simp
    field_simp

/-- The binary logarithm of a quotient is that of the numerator, less that of the denominator, or
one less. -/
lemma log_quotient (hn : 0 < num) (hd : 0 < den) :
    Int.log 2 ((num : ℚ) / den) =
      if (num : ℚ) / den < 2 ^ ((num.log2 : Int) - den.log2) then (num.log2 : Int) - den.log2 - 1
      else (num.log2 : Int) - den.log2 := by
  have hn' : (0 : ℚ) < num := by exact_mod_cast hn
  have hd' : (0 : ℚ) < den := by exact_mod_cast hd
  have hq : (0 : ℚ) < num / den := div_pos hn' hd'
  have hnum : (2 : ℚ) ^ num.log2 ≤ num ∧ (num : ℚ) < 2 ^ (num.log2 + 1) :=
    ⟨by exact_mod_cast Nat.log2_self_le hn.ne', by exact_mod_cast Nat.lt_log2_self⟩
  have hden : (2 : ℚ) ^ den.log2 ≤ den ∧ (den : ℚ) < 2 ^ (den.log2 + 1) :=
    ⟨by exact_mod_cast Nat.log2_self_le hd.ne', by exact_mod_cast Nat.lt_log2_self⟩
  have hlow : (2 : ℚ) ^ ((num.log2 : Int) - den.log2 - 1) ≤ num / den := by
    rw [le_div_iff₀ hd']
    calc
      (2 : ℚ) ^ ((num.log2 : Int) - den.log2 - 1) * den
        ≤ 2 ^ ((num.log2 : Int) - den.log2 - 1) * 2 ^ (den.log2 + 1) := by gcongr; exact hden.2.le
      _ = 2 ^ num.log2 := by
        rw [← zpow_natCast, ← zpow_natCast, ← zpow_add₀ two_ne_zero]
        congr 1
        push_cast
        ring
      _ ≤ num := hnum.1
  have hhigh : (num : ℚ) / den < 2 ^ ((num.log2 : Int) - den.log2 + 1) := by
    rw [div_lt_iff₀ hd']
    calc
      (num : ℚ) < 2 ^ (num.log2 + 1) := hnum.2
      _ = 2 ^ ((num.log2 : Int) - den.log2 + 1) * 2 ^ den.log2 := by
        rw [← zpow_natCast, ← zpow_natCast, ← zpow_add₀ two_ne_zero]
        congr 1
        push_cast
        ring
      _ ≤ 2 ^ ((num.log2 : Int) - den.log2 + 1) * den := by gcongr; exact hden.1
  have hle (x : Int) : (2 : ℚ) ^ x ≤ num / den ↔ x ≤ Int.log 2 ((num : ℚ) / den) := by
    rw [← Int.zpow_le_iff_le_log one_lt_two hq, Nat.cast_ofNat]
  have hlow' := (hle _).mp hlow
  have hhigh' := (not_congr (hle _)).mp (not_le.mpr hhigh)
  split
  · rename_i h
    have := (not_congr (hle _)).mp (not_le.mpr h)
    omega
  · rename_i h
    have := (hle _).mp (not_lt.mp h)
    omega

/-- The last place of a quotient is its binary logarithm, less the bits of the fraction, but not
below that of the subnormal values. -/
lemma lastPlace_eq (hn : 0 < num) (hd : 0 < den) :
    f.lastPlace num den =
      max (Int.log 2 ((num : ℚ) / den) - f.fractionBits) f.minExponent := by
  let estimate : Int := (num.log2 : Int) - den.log2 - f.fractionBits
  have hpos := scaled_snd_pos num hd (-estimate)
  have hpos' : (0 : ℚ) < (scaled num den (-estimate)).2 := by exact_mod_cast hpos
  have hiff : (scaled num den (-estimate)).1 / (scaled num den (-estimate)).2 <
      Nat.pow 2 f.fractionBits ↔ (num : ℚ) / den < 2 ^ ((num.log2 : Int) - den.log2) := by
    have hsplit : (2 : ℚ) ^ ((num.log2 : Int) - den.log2) * 2 ^ (-estimate) =
        2 ^ f.fractionBits := by
      rw [← zpow_natCast, ← zpow_add₀ two_ne_zero]
      congr 1
      omega
    have hquotient : (scaled num den (-estimate)).1 / (scaled num den (-estimate)).2 <
        Nat.pow 2 f.fractionBits ↔
          ((scaled num den (-estimate)).1 : ℚ) / (scaled num den (-estimate)).2 <
            2 ^ f.fractionBits := by
      rw [Nat.div_lt_iff_lt_mul hpos, div_lt_iff₀ hpos']
      exact_mod_cast Iff.rfl
    rw [hquotient, scaled_eq, ← hsplit, mul_lt_mul_iff_of_pos_right (by positivity)]
  rw [log_quotient hn hd, lastPlace]
  change max (if (scaled num den (-estimate)).1 / (scaled num den (-estimate)).2 <
    Nat.pow 2 f.fractionBits then estimate - 1 else estimate) _ = _
  rw [if_congr hiff rfl rfl]
  congr 1
  split <;> omega

/-! ### Rounding -/

/-- Equal quotients are rounded alike. -/
theorem roundQuotient_congr (hd : 0 < den) (hd' : 0 < den')
    (h : (num : ℚ) / den = num' / den') : f.roundQuotient num den = f.roundQuotient num' den' := by
  have hcross : num * den' = num' * den := by
    rw [div_eq_div_iff (by exact_mod_cast hd.ne') (by exact_mod_cast hd'.ne')] at h
    exact_mod_cast h
  have hzero : num = 0 ↔ num' = 0 := by
    rw [← mul_eq_zero_iff_right hd'.ne', hcross, mul_eq_zero_iff_right hd.ne']
  by_cases hn : num = 0
  · rw [roundQuotient, roundQuotient, if_pos hn, if_pos (hzero.mp hn)]
  have hn' : num' ≠ 0 := fun h0 => hn (hzero.mpr h0)
  have hplace : f.lastPlace num den = f.lastPlace num' den' := by
    rw [lastPlace_eq (Nat.pos_of_ne_zero hn) hd, lastPlace_eq (Nat.pos_of_ne_zero hn') hd', h]
  have hscaled (shift : Int) : divideToEven (scaled num den shift).1 (scaled num den shift).2 =
      divideToEven (scaled num' den' shift).1 (scaled num' den' shift).2 := by
    refine divideToEven_congr (scaled_snd_pos _ hd _) (scaled_snd_pos _ hd' _) ?_
    simp only [scaled]
    rw [Nat.mul_mul_mul_comm, hcross, Nat.mul_mul_mul_comm]
  rw [roundQuotient, roundQuotient, if_neg hn, if_neg hn', hplace]
  exact congrArg (fun n => min (_ + n) _) (hscaled _)

/-- A mantissa at an exponent as a quotient. -/
lemma quotient_scaled (m : Nat) (e : Int) :
    ((m * Nat.pow 2 e.toNat : Nat) : ℚ) / (Nat.pow 2 (-e).toNat : Nat) = m * 2 ^ e := by
  have h := scaled_eq m 1 e
  rwa [scaled, Nat.one_mul, Nat.cast_one, div_one] at h

lemma roundScaled_eq {m : Nat} {e : Int} (hd : 0 < den) (h : (num : ℚ) / den = m * 2 ^ e) :
    f.roundScaled m e = f.roundQuotient num den :=
  roundQuotient_congr (Nat.pow_pos (by decide)) hd ((quotient_scaled m e).trans h.symm)

lemma roundQuotient_eq {n : Nat} {place : Int} (hn : 0 < num) (hd : 0 < den)
    (hplace : f.lastPlace num den = place)
    (hnear : |(num : ℚ) / den * 2 ^ (-place) - n| < 1 / 2) :
    f.roundQuotient num den =
      min ((place - f.minExponent).toNat * 2 ^ f.fractionBits + n) f.infinity := by
  subst hplace
  rw [← scaled_eq] at hnear
  rw [roundQuotient, if_neg hn.ne']
  exact congrArg (fun n => min (_ + n) _) (divideToEven_eq (scaled_snd_pos _ hd _) hnear)

lemma withSign_false (word : Nat) : f.withSign false word = word := if_neg Bool.false_ne_true

lemma encode_finite (m : Nat) (e : Int) : f.encode (.finite false m e) = f.roundScaled m e :=
  f.withSign_false _

/-! ### What words stand for -/

/-- The magnitude word of `m * 2 ^ e`: the mantissa has as many digits as the format keeps, or fewer
at the least exponent. -/
structure Denotes (f : Format) (word m : Nat) (e : Int) : Prop where
  minExponent_le : f.minExponent ≤ e
  mantissa_lt : m < 2 ^ (f.fractionBits + 1)
  normal : 2 ^ f.fractionBits ≤ m ∨ e = f.minExponent
  word_eq : word = (e - f.minExponent).toNat * 2 ^ f.fractionBits + m
  lt_infinity : word < f.infinity

lemma infinity_lt_signBit (f : Format) : f.infinity < f.signBit := by
  have hpos : 0 < 2 ^ f.fractionBits := Nat.two_pow_pos _
  have hexp : 0 < 2 ^ f.exponentBits := Nat.two_pow_pos _
  change (2 ^ f.exponentBits - 1) * 2 ^ f.fractionBits < 2 ^ (f.fractionBits + f.exponentBits)
  rw [Nat.pow_add, Nat.mul_comm (2 ^ f.fractionBits)]
  exact (Nat.mul_lt_mul_right hpos).mpr (by omega)

/-- **What a magnitude word stands for.** -/
theorem decode_eq_iff {word m : Nat} {e : Int} :
    f.decode word = .finite false m e ↔ f.Denotes word m e := by
  have hunit : 0 < 2 ^ f.fractionBits := Nat.two_pow_pos _
  have hdecode (h : word < f.infinity) : f.decode word =
      if word / 2 ^ f.fractionBits = 0 then
        .finite false (word % 2 ^ f.fractionBits) f.minExponent
      else .finite false (2 ^ f.fractionBits + word % 2 ^ f.fractionBits)
        (f.minExponent + (word / 2 ^ f.fractionBits - 1 : Nat)) := by
    have hsign := h.trans f.infinity_lt_signBit
    simp only [decode, Nat.mod_eq_of_lt hsign, if_neg (Nat.not_lt.mpr h.le), if_neg h.ne,
      decide_eq_false (Nat.not_le.mpr hsign), Nat.pow_eq]
  constructor
  · intro h
    have hlt : word < f.infinity := by
      simp only [decode] at h
      split at h
      · cases h
      split at h
      · cases h
      rename_i hgt hne
      have hneg : decide (f.signBit ≤ word) = false := by
        split at h
        · exact (Number.finite.inj h).1
        · exact (Number.finite.inj h).1
      rw [Nat.mod_eq_of_lt (Nat.not_le.mp (of_decide_eq_false hneg))] at hgt hne
      omega
    have hmod := Nat.mod_lt word hunit
    have hdiv := Nat.div_add_mod word (2 ^ f.fractionBits)
    rw [hdecode hlt] at h
    split at h
    · rename_i hzero
      obtain ⟨-, rfl, rfl⟩ := Number.finite.inj h
      refine ⟨le_refl _, by rw [Nat.pow_succ]; omega, .inr rfl, ?_, hlt⟩
      rw [hzero, Nat.mul_zero, Nat.zero_add] at hdiv
      simp [hdiv]
    · rename_i hzero
      obtain ⟨-, rfl, rfl⟩ := Number.finite.inj h
      refine ⟨by omega, by rw [Nat.pow_succ]; omega, .inl (Nat.le_add_right _ _), ?_, hlt⟩
      obtain ⟨k, hk⟩ := Nat.exists_eq_succ_of_ne_zero hzero
      rw [hk, Nat.mul_succ] at hdiv
      rw [hk, Nat.succ_sub_one, add_sub_cancel_left, Int.toNat_natCast, Nat.mul_comm]
      omega
  · intro h
    rw [hdecode h.lt_infinity]
    obtain ⟨k, hk⟩ := Int.eq_ofNat_of_zero_le (Int.sub_nonneg_of_le h.minExponent_le)
    have hword := h.word_eq
    rw [hk, Int.toNat_natCast] at hword
    by_cases hm : 2 ^ f.fractionBits ≤ m
    · obtain ⟨r, rfl⟩ := Nat.exists_eq_add_of_le hm
      have hr : r < 2 ^ f.fractionBits := by
        have := h.mantissa_lt
        rw [Nat.pow_succ] at this
        omega
      have hword' : word = r + 2 ^ f.fractionBits * (k + 1) := by
        rw [hword, Nat.mul_succ, Nat.mul_comm k]
        omega
      rw [hword', Nat.add_mul_div_left _ _ hunit, Nat.add_mul_mod_self_left,
        Nat.div_eq_of_lt hr, Nat.mod_eq_of_lt hr, if_neg (by omega)]
      congr 1
      omega
    · obtain rfl := h.normal.resolve_left hm
      have hk0 : k = 0 := by omega
      rw [hk0, Nat.zero_mul, Nat.zero_add] at hword
      subst hword
      rw [if_pos (Nat.div_eq_of_lt (Nat.not_le.mp hm)), Nat.mod_eq_of_lt (Nat.not_le.mp hm)]

/-- The sign of a word does not bear on its magnitude. -/
lemma denotes_of_decode {word m : Nat} {e : Int} {negative : Bool}
    (h : f.decode word = .finite negative m e) :
    f.Denotes (word % f.signBit) m e ∧ negative = decide (f.signBit ≤ word) := by
  have hlt : word % f.signBit < f.signBit := Nat.mod_lt _ (Nat.pow_pos (by decide))
  have hsign : decide (f.signBit ≤ word % f.signBit) = false :=
    decide_eq_false (Nat.not_le.mpr hlt)
  rw [← decode_eq_iff]
  simp only [decode, Nat.mod_mod, hsign] at h ⊢
  split at h
  · cases h
  split at h
  · cases h
  rename_i hgt hne
  rw [if_neg hgt, if_neg hne]
  split at h
  · rename_i hzero
    obtain ⟨hneg, hm, he⟩ := Number.finite.inj h
    exact ⟨by rw [if_pos hzero, hm, he], hneg.symm⟩
  · rename_i hzero
    obtain ⟨hneg, hm, he⟩ := Number.finite.inj h
    exact ⟨by rw [if_neg hzero, hm, he], hneg.symm⟩

/-- **What is near to a number of the format** is rounded to it.  Below a power of two the numbers
lie twice as dense, so that a quarter of the last place is near enough on both sides. -/
theorem roundQuotient_eq_of_near {word m : Nat} {e : Int} (h : f.Denotes word m e) (hm : 0 < m)
    (hd : 0 < den) (hnear : |(num : ℚ) / den - m * 2 ^ e| < 2 ^ e / 4) :
    f.roundQuotient num den = word := by
  have hunit : (0 : ℚ) < 2 ^ e := by positivity
  have hm' : (1 : ℚ) ≤ m := by exact_mod_cast hm
  have hbits : (1 : ℚ) ≤ 2 ^ f.fractionBits := one_le_pow₀ one_le_two
  obtain ⟨hlow, hhigh⟩ := abs_lt.mp hnear
  have hq : (0 : ℚ) < num / den := by nlinarith
  have hn : 0 < num := by
    rcases Nat.eq_zero_or_pos num with rfl | hn
    · simp at hq
    · exact hn
  have hle (x : Int) : (2 : ℚ) ^ x ≤ num / den ↔ x ≤ Int.log 2 ((num : ℚ) / den) := by
    rw [← Int.zpow_le_iff_le_log one_lt_two hq, Nat.cast_ofNat]
  have hscale (e : Int) (n : Nat) : (2 : ℚ) ^ (e + n) = 2 ^ n * 2 ^ e := by
    rw [zpow_add₀ two_ne_zero, zpow_natCast, mul_comm]
  have htop : Int.log 2 ((num : ℚ) / den) < e + (f.fractionBits + 1 : Nat) := by
    rw [← not_le, ← hle, not_le, hscale]
    have : (m : ℚ) + 1 ≤ 2 ^ (f.fractionBits + 1) := by exact_mod_cast h.mantissa_lt
    nlinarith
  have hplace := lastPlace_eq (f := f) hn hd
  have hmin := h.minExponent_le
  by_cases hnormal : e + f.fractionBits ≤ Int.log 2 ((num : ℚ) / den) ∨ e = f.minExponent
  · -- the place is that of the number
    have hlast : f.lastPlace num den = e := by
      rw [hplace]
      omega
    have hscaled : |(num : ℚ) / den * 2 ^ (-e) - m| < 1 / 2 := by
      have hsplit : (num : ℚ) / den * 2 ^ (-e) - m = (num / den - m * 2 ^ e) / 2 ^ e := by
        rw [zpow_neg]
        field_simp
      rw [hsplit, abs_div, abs_of_pos hunit, div_lt_iff₀ hunit]
      linarith
    rw [roundQuotient_eq hn hd hlast hscaled, ← h.word_eq, Nat.min_eq_left h.lt_infinity.le]
  · -- just below a power of two the place is one less
    obtain ⟨hlog, hne⟩ := not_or.mp hnormal
    have hmantissa : m = 2 ^ f.fractionBits := by
      refine le_antisymm ?_ (h.normal.resolve_right hne)
      by_contra hgt
      have hgt' : (2 : ℚ) ^ f.fractionBits + 1 ≤ m := by exact_mod_cast not_le.mp hgt
      rw [← hle, not_le, hscale] at hlog
      nlinarith
    have hlast : f.lastPlace num den = e - 1 := by
      have hhalf : e - 1 + f.fractionBits ≤ Int.log 2 ((num : ℚ) / den) := by
        rw [← hle, hscale, zpow_sub_one₀ two_ne_zero]
        rw [hmantissa] at hlow
        push_cast at hlow
        nlinarith
      rw [hplace]
      omega
    have hscaled :
        |(num : ℚ) / den * 2 ^ (-(e - 1)) - (2 ^ (f.fractionBits + 1) : Nat)| < 1 / 2 := by
      have hsplit : (num : ℚ) / den * 2 ^ (-(e - 1)) - (2 ^ (f.fractionBits + 1) : Nat) =
          (num / den - m * 2 ^ e) * 2 / 2 ^ e := by
        rw [neg_sub, zpow_sub₀ two_ne_zero, hmantissa]
        push_cast
        field_simp
        ring
      rw [hsplit, abs_div, abs_of_pos hunit, div_lt_iff₀ hunit, abs_mul, abs_two]
      linarith
    have hword : (e - 1 - f.minExponent).toNat * 2 ^ f.fractionBits + 2 ^ (f.fractionBits + 1) =
        word := by
      rw [h.word_eq, hmantissa]
      obtain ⟨k, hk⟩ := Int.eq_ofNat_of_zero_le (show 0 ≤ e - 1 - f.minExponent by omega)
      have hk' : e - f.minExponent = (k + 1 : Nat) := by omega
      rw [hk, hk', Int.toNat_natCast, Int.toNat_natCast, Nat.pow_succ]
      ring
    rw [roundQuotient_eq hn hd hlast hscaled, hword, Nat.min_eq_left h.lt_infinity.le]

/-- A number of the format is rounded to itself. -/
theorem roundQuotient_of_eq {word m : Nat} {e : Int} (h : f.Denotes word m e) (hm : 0 < m)
    (hd : 0 < den) (heq : (num : ℚ) / den = m * 2 ^ e) : f.roundQuotient num den = word := by
  refine roundQuotient_eq_of_near h hm hd ?_
  rw [heq, sub_self, abs_zero]
  positivity

lemma roundScaled_of_denotes {word m : Nat} {e : Int} (h : f.Denotes word m e) (hm : 0 < m) :
    f.roundScaled m e = word :=
  roundQuotient_of_eq h hm (Nat.pow_pos (by decide)) (quotient_scaled m e)

end EngineFuzz.Format
