import Mathlib
import EngineFuzz.Float.Text
import EngineFuzz.Proofs.Float.Nearest
import EngineFuzz.Proofs.Float.Shortest

/-!
# Digits of the shortest decimal

Of all decimals that are rounded to a word the shortest one has the fewest digits, and the last of
them is not a zero.  For an integral number no digit stands behind the point, and the decimal is
below every power of ten that is a number of the format itself and above the number.

* `DigitText.point_ofDecimal`: the place of the point is the decimal logarithm.
* `Decimal.significand_trim`: trimmed decimals do not end in a zero.
* `Format.onGrid?_ne_none`: a grid with a decimal of the word is found.
* `Format.length_digits_shortest_le`: the main statement, that no decimal has fewer digits.
* `Format.exponent_shortest_nonneg`, `Format.value_shortest_lt`: integral numbers and bounds.
-/

namespace EngineFuzz

/-! ### Digits of decimals -/

namespace Decimal

variable {d : Decimal}

lemma length_digitsOf (n : Nat) : (digitsOf n).length = log10 n + 1 := by
  induction n using digitsOf.induct with
  | case1 n h => rw [digitsOf, if_pos h, log10, if_pos h, List.length_singleton]
  | case2 n h ih =>
      rw [digitsOf, if_neg h, log10, if_neg h, List.length_append, ih, List.length_singleton]

lemma getLast?_digitsOf (n : Nat) : (digitsOf n).getLast? = some (n % 10) := by
  rw [digitsOf]
  split
  · rename_i h
    rw [List.getLast?_singleton, Nat.mod_eq_of_lt h]
  · exact List.getLast?_concat ..

/-- A trimmed decimal does not end in a zero. -/
lemma significand_trim (h : d.trim.significand ≠ 0) : d.trim.significand % 10 ≠ 0 := by
  induction d using trim.induct with
  | case1 d h0 =>
      rw [trim, dif_pos h0] at h
      exact absurd rfl h
  | case2 d h0 hmod ih =>
      rw [trim, dif_neg h0, if_pos hmod] at h ⊢
      exact ih h
  | case3 d h0 hmod =>
      rw [trim, dif_neg h0, if_neg hmod]
      exact hmod

/-- Trimming only raises the exponent. -/
lemma exponent_le_trim (h : d.significand ≠ 0) : d.exponent ≤ d.trim.exponent := by
  induction d using trim.induct with
  | case1 d h0 => exact absurd h0 h
  | case2 d h0 hmod ih =>
      rw [trim, dif_neg h0, if_pos hmod]
      exact (Int.le_add_one le_rfl).trans (ih (show d.significand / 10 ≠ 0 by omega))
  | case3 d h0 hmod => rw [trim, dif_neg h0, if_neg hmod]

lemma length_digits (h : d.significand ≠ 0) :
    (d.digits.length : Int) = Int.log 10 d.value - d.exponent + 1 := by
  rw [digits, length_digitsOf, ← leadingExponent_eq h, leadingExponent]
  push_cast
  ring

/-- A power of ten has one digit unless it ends in a zero. -/
lemma significand_eq_one {j : Int} (h : d.value = 10 ^ j) (hmod : d.significand % 10 ≠ 0) :
    d.significand = 1 := by
  have h0 : d.significand ≠ 0 := fun h0 => hmod (by rw [h0])
  have hlog := leadingExponent_eq h0
  have hten : Int.log 10 ((10 : ℚ) ^ j) = j := by
    exact_mod_cast Int.log_zpow (R := ℚ) (b := 10) (by decide) j
  rw [h, hten, leadingExponent] at hlog
  have hpow : d.significand = 10 ^ log10 d.significand := by
    rw [value, ← hlog, zpow_add₀ (by norm_num), mul_comm, zpow_natCast] at h
    exact_mod_cast mul_left_cancel₀ (zpow_ne_zero _ (by norm_num)) h
  cases hn : log10 d.significand with
  | zero => rw [hpow, hn, pow_zero]
  | succ n =>
      rw [hn, pow_succ] at hpow
      exact absurd (by rw [hpow, Nat.mul_mod_left]) hmod

end Decimal

/-- The place of the point is that behind the first digit. -/
lemma DigitText.point_ofDecimal {d : Decimal} (h : d.significand ≠ 0) :
    (ofDecimal d).point = Int.log 10 d.value + 1 := by
  have hlength := Decimal.length_digits h
  change d.exponent + ((d.digits.map digitChar).length : Int) = _
  rw [List.length_map, hlength]
  ring

/-! ### Decimals that are rounded to a word -/

namespace Format

variable {f : Format} {tie : Tie} {word m num den : Nat} {e place : Int} {d : Decimal}

lemma Denotes.isNearest (h : f.Denotes word m e) : f.IsNearest (m * 2 ^ e) word :=
  h.gridValue_eq ▸ f.isNearest_gridValue word

lemma significand_ne_zero_of_isNearest (h : f.Denotes word m e) (hm : 0 < m)
    (hnear : f.IsNearest d.value word) : d.significand ≠ 0 := by
  intro h0
  rw [Decimal.value, h0, Nat.cast_zero, zero_mul, ← f.gridValue_zero] at hnear
  have hzero := (f.isNearest_gridValue 0).unique hnear
  have hword := h.word_eq
  omega

/-- A decimal is rounded to the word of the nearest number. -/
lemma ofDecimal_of_isNearest (hf : 0 < f.fractionBits) (h : f.Denotes word m e) (hm : 0 < m)
    (hnear : f.IsNearest d.value word) : f.ofDecimal d = word := by
  have hpos := Decimal.value_pos (significand_ne_zero_of_isNearest h hm hnear)
  have hunit : (0 : ℚ) < 2 ^ e := by positivity
  have hm' : (1 : ℚ) ≤ m := by exact_mod_cast hm
  have hmantissa : (m : ℚ) + 1 ≤ 2 ^ (f.fractionBits + 1) := by exact_mod_cast h.mantissa_lt
  obtain ⟨hbelow, habove, -⟩ := isNearest_iff.mp hnear
  have hlow : 2 ^ e / 4 ≤ d.value := by
    obtain ⟨v, rfl⟩ := Nat.exists_eq_add_one_of_ne_zero (n := word) (by have := h.word_eq; omega)
    have hmid := (hbelow v rfl).1
    rw [midpoint, h.gridValue_eq] at hmid
    nlinarith [f.gridValue_nonneg v]
  have hhigh : d.value < 2 ^ (f.fractionBits + 1) * 2 ^ e := by
    obtain ⟨k, hk⟩ := Int.eq_ofNat_of_zero_le (Int.sub_nonneg_of_le h.minExponent_le)
    obtain rfl : e = f.minExponent + k := by omega
    have hword := h.word_eq
    rw [hk, Int.toNat_natCast] at hword
    rw [midpoint, h.gridValue_eq, hword, gridValue_succ h.mantissa_lt
      (h.normal.imp_right fun h0 => by omega), ← hword, h.gridValue_eq] at habove
    nlinarith
  rw [ofDecimal_eq_roundQuotient h hlow hhigh, roundQuotient_eq_roundAbs d.quotient_snd_pos
    (d.quotient_eq.trans (abs_of_pos hpos).symm), roundAbs_eq hf (abs_of_pos hpos ▸ hnear),
    Nat.min_eq_left h.lt_infinity.le]

lemma isNearest_of_ofDecimal (hf : 0 < f.fractionBits) (h : f.Denotes word m e) (hm : 0 < m)
    (hround : f.ofDecimal d = word) : f.IsNearest d.value word := by
  have hnonneg : 0 ≤ d.value := by
    rw [Decimal.value]
    positivity
  have hquotient := roundQuotient_of_ofDecimal h hm hround
  obtain ⟨v, hnear, hv⟩ := exists_isNearest hf d.value
  rw [roundQuotient_eq_roundAbs d.quotient_snd_pos
    (d.quotient_eq.trans (abs_of_nonneg hnonneg).symm), hv] at hquotient
  rw [abs_of_nonneg hnonneg] at hnear
  have hlt := h.lt_infinity
  obtain rfl : v = word := by omega
  exact hnear

/-! ### The grids that are searched -/

/-- Between the neighbours on a grid there is no other point of it. -/
lemma gridNeighbours_closest (num den : Nat) (hd : d.exponent = place) :
    (d.value ≤ num / den → d.value ≤ (gridNeighbours num den place).1.value) ∧
      ((num : ℚ) / den < d.value → (gridNeighbours num den place).2.1.value ≤ d.value) := by
  subst hd
  obtain ⟨hlow, hhigh⟩ := gridNeighbours_bounds num den d.exponent
  have hstep : (0 : ℚ) < 10 ^ d.exponent := by positivity
  constructor
  · intro hle
    have hlt := lt_of_mul_lt_mul_right (hle.trans_lt hhigh) hstep.le
    exact mul_le_mul_of_nonneg_right
      (Nat.cast_le.mpr (Nat.lt_succ_iff.mp (Nat.cast_lt.mp hlt))) hstep.le
  · intro hlt
    have hlt := lt_of_mul_lt_mul_right (hlow.trans_lt hlt) hstep.le
    exact mul_le_mul_of_nonneg_right
      (Nat.cast_le.mpr (Nat.succ_le_of_lt (Nat.cast_lt.mp hlt))) hstep.le

/-- A grid with a decimal that is rounded to the word has a neighbour that is. -/
lemma onGrid?_ne_none (hf : 0 < f.fractionBits) (h : f.Denotes word m e) (hm : 0 < m)
    (hvalue : (num : ℚ) / den = m * 2 ^ e) (hnear : f.IsNearest d.value word) :
    f.onGrid? tie word num den d.exponent ≠ none := by
  obtain ⟨hlow, hhigh⟩ := gridNeighbours_bounds num den d.exponent
  obtain ⟨hbelow, habove⟩ := gridNeighbours_closest num den (d := d) rfl
  have hself := h.isNearest
  rw [← hvalue] at hself
  have hround : f.ofDecimal (gridNeighbours num den d.exponent).1 = word ∨
      f.ofDecimal (gridNeighbours num den d.exponent).2.1 = word := by
    rcases le_or_gt d.value ((num : ℚ) / den) with hle | hlt
    · exact .inl (ofDecimal_of_isNearest hf h hm (hnear.between hself (hbelow hle) hlow))
    · exact .inr (ofDecimal_of_isNearest hf h hm (hself.between hnear hhigh.le (habove hlt)))
  rw [onGrid?]
  rcases hgrid : gridNeighbours num den d.exponent with ⟨below, above, upward⟩
  rw [hgrid] at hround
  dsimp only at hround ⊢
  split
  · exact Option.some_ne_none _
  · exact Option.some_ne_none _
  · exact Option.some_ne_none _
  · rename_i hb ha
    rcases hround with hr | hr
    · exact absurd (beq_iff_eq.mpr hr) (by rw [hb]; decide)
    · exact absurd (beq_iff_eq.mpr hr) (by rw [ha]; decide)

lemma onGrid?_cases (h : f.onGrid? tie word num den place = some d) :
    d = (gridNeighbours num den place).1 ∨ d = (gridNeighbours num den place).2.1 := by
  rcases hgrid : gridNeighbours num den place with ⟨below, above, upward⟩
  rw [onGrid?, hgrid] at h
  dsimp only at h ⊢
  split at h
  · rw [← Option.some.inj h]
    exact nearer_cases tie below above upward
  · exact .inl (Option.some.inj h).symm
  · exact .inr (Option.some.inj h).symm
  · cases h

/-- The search ends at a neighbour on a grid, and goes past none that has a decimal. -/
lemma firstGrid_cases (f : Format) (tie : Tie) (word num den count : Nat) (place : Int) :
    ∃ p ≤ place, (∀ q ≤ place, f.onGrid? tie word num den q ≠ none → q ≤ p) ∧
      (f.firstGrid tie word num den count place = (gridNeighbours num den p).1 ∨
        f.firstGrid tie word num den count place = (gridNeighbours num den p).2.1) := by
  induction count generalizing place with
  | zero => exact ⟨place, le_rfl, fun _ hq _ => hq, .inl rfl⟩
  | succ count ih =>
      rw [firstGrid]
      cases hgrid : f.onGrid? tie word num den place with
      | some d => exact ⟨place, le_rfl, fun _ hq _ => hq, onGrid?_cases hgrid⟩
      | none =>
          obtain ⟨p, hp, hmax, hcases⟩ := ih (place - 1)
          refine ⟨p, by omega, fun q hq hne => hmax q ?_ hne, hcases⟩
          rcases hq.lt_or_eq with hlt | rfl
          · omega
          · exact absurd hgrid hne

/-- The first digit of a quotient stands on the first grid. -/
lemma quotientLog10_eq (hn : 0 < num) (hd : 0 < den) :
    quotientLog10 num den = Int.log 10 ((num : ℚ) / den) := by
  have hd' : (0 : ℚ) < den := by exact_mod_cast hd
  have hpos : (0 : ℚ) < num / den := div_pos (by exact_mod_cast hn) hd'
  have hhigh : (num : ℚ) / den < 10 ^ (quotientLog10 num den + 1) := by
    rw [quotientLog10]
    split
    · rename_i hle
      rw [Decimal.log10_eq, div_lt_iff₀ hd']
      have hlt := Nat.lt_pow_succ_log_self (show 1 < 10 by decide) (num / den)
      rw [Nat.div_lt_iff_lt_mul hd] at hlt
      exact_mod_cast hlt
    · rename_i hlt
      have hdiv : (den - 1) / num ≠ 0 := (Nat.div_pos (by omega) hn).ne'
      have hle := Nat.pow_log_le_self 10 hdiv
      rw [Nat.le_div_iff_mul_le hn] at hle
      have hexp : -((log10 ((den - 1) / num) + 1 : Nat) : Int) + 1 =
          -(log10 ((den - 1) / num) : Nat) := by
        push_cast
        ring
      rw [hexp, Decimal.log10_eq, zpow_neg, zpow_natCast, div_lt_iff₀ hd', lt_inv_mul_iff₀
        (by positivity)]
      exact_mod_cast (by omega : 10 ^ Nat.log 10 ((den - 1) / num) * num < den)
  have hle (x : Int) : (10 : ℚ) ^ x ≤ num / den ↔ x ≤ Int.log 10 ((num : ℚ) / den) := by
    rw [← Int.zpow_le_iff_le_log (by decide) hpos, Nat.cast_ofNat]
  have := (hle _).mp (pow_quotientLog10_le hn hd)
  have := (not_congr (hle _)).mp (not_le.mpr hhigh)
  omega

/-! ### The shortest decimal -/

lemma isNearest_shortest (hf : 0 < f.fractionBits) (h : f.Denotes word m e) (hm : 0 < m)
    (tie : Tie) : f.IsNearest (f.shortest tie word).value word :=
  isNearest_of_ofDecimal hf h hm (ofDecimal_shortest h hm tie)

lemma significand_shortest_ne_zero (h : f.Denotes word m e) (hm : 0 < m) (tie : Tie) :
    (f.shortest tie word).significand ≠ 0 := by
  intro h0
  have hround := ofDecimal_shortest h hm tie
  rw [ofDecimal, if_pos h0, h.word_eq] at hround
  omega

/-- The shortest decimal does not end in a zero. -/
lemma significand_shortest (h : f.Denotes word m e) (hm : 0 < m) (tie : Tie) :
    (f.shortest tie word).significand % 10 ≠ 0 := by
  have h0 := significand_shortest_ne_zero h hm tie
  unfold shortest at h0 ⊢
  rw [decode_eq_iff.mpr h] at h0 ⊢
  simp only [if_neg hm.ne'] at h0 ⊢
  exact Decimal.significand_trim h0

/-- The shortest decimal is rounded to the word. -/
lemma roundAbs_value_shortest (hf : 0 < f.fractionBits) (h : f.Denotes word m e) (hm : 0 < m)
    (tie : Tie) : f.roundAbs (f.shortest tie word).value = word := by
  have hpos := Decimal.value_pos (significand_shortest_ne_zero h hm tie)
  rw [roundAbs_eq hf (abs_of_pos hpos ▸ isNearest_shortest hf h hm tie),
    Nat.min_eq_left h.lt_infinity.le]

/-- The shortest decimal is that of a neighbour on the first grid that has a decimal. -/
lemma exists_neighbour_shortest (hf : 0 < f.fractionBits) (h : f.Denotes word m e) (hm : 0 < m)
    (tie : Tie) : ∃ (num den : Nat) (p : Int), (num : ℚ) / den = m * 2 ^ e ∧
      p ≤ Int.log 10 ((m : ℚ) * 2 ^ e) ∧ p ≤ (f.shortest tie word).exponent ∧
      (∀ d : Decimal, f.IsNearest d.value word → d.exponent ≤ Int.log 10 ((m : ℚ) * 2 ^ e) →
        d.exponent ≤ p) ∧
      ((f.shortest tie word).value = (gridNeighbours num den p).1.value ∨
        (f.shortest tie word).value = (gridNeighbours num den p).2.1.value) := by
  let num : Nat := m * Nat.pow 2 e.toNat
  let den : Nat := Nat.pow 2 (-e).toNat
  have hn : 0 < num := Nat.mul_pos hm (Nat.pow_pos (by decide))
  have hd : 0 < den := Nat.pow_pos (by decide)
  have hvalue : (num : ℚ) / den = m * 2 ^ e := quotient_scaled m e
  let first : Decimal :=
    f.firstGrid tie word num den (f.fractionBits + 2) (quotientLog10 num den)
  have hshortest : f.shortest tie word = first.trim := by
    rw [shortest, decode_eq_iff.mpr h]
    exact if_neg hm.ne'
  have hfirst : first.significand ≠ 0 := fun h0 => by
    refine significand_shortest_ne_zero h hm tie ?_
    rw [hshortest, Decimal.trim, dif_pos h0]
  obtain ⟨p, hp, hmax, hcases⟩ := f.firstGrid_cases tie word num den (f.fractionBits + 2)
    (quotientLog10 num den)
  rw [quotientLog10_eq hn hd, hvalue] at hp hmax
  have hexp : first.exponent = p := by
    rcases hcases with heq | heq
    · exact congrArg Decimal.exponent heq
    · exact congrArg Decimal.exponent heq
  refine ⟨num, den, p, hvalue, hp, ?_, fun d hnear hle => ?_, ?_⟩
  · rw [hshortest, ← hexp]
    exact Decimal.exponent_le_trim hfirst
  · exact hmax _ hle (onGrid?_ne_none hf h hm hvalue hnear)
  · rw [hshortest, Decimal.value_trim]
    exact hcases.imp (congrArg Decimal.value) (congrArg Decimal.value)

/-- No decimal is on a coarser grid, as far as the grids are searched. -/
lemma le_exponent_shortest (hf : 0 < f.fractionBits) (h : f.Denotes word m e) (hm : 0 < m)
    (hnear : f.IsNearest d.value word) (hd : d.exponent ≤ Int.log 10 ((m : ℚ) * 2 ^ e))
    (tie : Tie) : d.exponent ≤ (f.shortest tie word).exponent := by
  obtain ⟨num, den, p, -, -, hp, hmax, -⟩ := exists_neighbour_shortest hf h hm tie
  exact (hmax d hnear hd).trans hp

/-- The shortest decimal has as many places before the point as the number, or is the next power of
ten. -/
lemma value_shortest_bounds (hf : 0 < f.fractionBits) (h : f.Denotes word m e) (hm : 0 < m)
    (tie : Tie) : (10 : ℚ) ^ Int.log 10 ((m : ℚ) * 2 ^ e) ≤ (f.shortest tie word).value ∧
      (f.shortest tie word).value ≤ 10 ^ (Int.log 10 ((m : ℚ) * 2 ^ e) + 1) := by
  have hpos : (0 : ℚ) < m * 2 ^ e := mul_pos (by exact_mod_cast hm) (by positivity)
  have hlow : (10 : ℚ) ^ Int.log 10 ((m : ℚ) * 2 ^ e) ≤ m * 2 ^ e := by
    exact_mod_cast Int.zpow_log_le_self (b := 10) (by decide) hpos
  have hhigh : (m : ℚ) * 2 ^ e < 10 ^ (Int.log 10 ((m : ℚ) * 2 ^ e) + 1) := by
    exact_mod_cast Int.lt_zpow_succ_log_self (b := 10) (by decide) ((m : ℚ) * 2 ^ e)
  obtain ⟨num, den, p, hvalue, hp, -, -, hcases⟩ := exists_neighbour_shortest hf h hm tie
  obtain ⟨hbelow, habove⟩ := gridNeighbours_bounds num den p
  generalize Int.log 10 ((m : ℚ) * 2 ^ e) = place at *
  -- powers of ten that are not smaller than a step are points of the grid
  have hpoint {j : Int} (hj : p ≤ j) : ∃ d : Decimal, d.exponent = p ∧ d.value = 10 ^ j := by
    refine ⟨⟨10 ^ (j - p).toNat, p⟩, rfl, ?_⟩
    rw [Decimal.value, Nat.cast_pow, Nat.cast_ofNat, ← zpow_natCast, Int.toNat_of_nonneg (by omega)]
    exact (zpow_add₀ (by norm_num) (j - p) p).symm.trans (by rw [sub_add_cancel])
  obtain ⟨d, hd, hdv⟩ := hpoint hp
  obtain ⟨d', hd', hdv'⟩ := hpoint (j := place + 1) (by omega)
  rw [← hvalue] at hlow hhigh
  have hfirst := (gridNeighbours_closest num den hd).1 (hdv ▸ hlow)
  have hlast := (gridNeighbours_closest num den hd').2 (hdv' ▸ hhigh)
  rw [hdv] at hfirst
  rw [hdv'] at hlast
  rcases hcases with heq | heq
  · rw [heq]
    exact ⟨hfirst, by linarith⟩
  · rw [heq]
    exact ⟨by linarith, hlast⟩

/-- **The shortest decimal** has no more digits than any other decimal that is rounded to the
word. -/
theorem length_digits_shortest_le (hf : 0 < f.fractionBits) (h : f.Denotes word m e) (hm : 0 < m)
    (hnear : f.IsNearest d.value word) (tie : Tie) :
    (f.shortest tie word).digits.length ≤ d.digits.length := by
  have hd := Decimal.value_pos (significand_ne_zero_of_isNearest h hm hnear)
  have hs := Decimal.value_pos (significand_shortest_ne_zero h hm tie)
  have hv : (0 : ℚ) < m * 2 ^ e := mul_pos (by exact_mod_cast hm) (by positivity)
  have hlog {q : ℚ} (hq : 0 < q) (x : Int) : (10 : ℚ) ^ x ≤ q ↔ x ≤ Int.log 10 q := by
    rw [← Int.zpow_le_iff_le_log (by decide) hq, Nat.cast_ofNat]
  have hlength := Decimal.length_digits (significand_shortest_ne_zero h hm tie)
  have hlength' := Decimal.length_digits (significand_ne_zero_of_isNearest h hm hnear)
  have hnonempty : 0 < d.digits.length := by
    rw [Decimal.digits, Decimal.length_digitsOf]
    exact Nat.succ_pos _
  obtain ⟨hlow, hhigh⟩ := value_shortest_bounds hf h hm tie
  by_cases htop : (f.shortest tie word).value = 10 ^ (Int.log 10 ((m : ℚ) * 2 ^ e) + 1)
  · have hone := Decimal.significand_eq_one htop (significand_shortest h hm tie)
    rw [Decimal.digits, hone, Decimal.digitsOf, if_pos (by decide)]
    exact hnonempty
  have hplace : Int.log 10 (f.shortest tie word).value = Int.log 10 ((m : ℚ) * 2 ^ e) := by
    have := (hlog hs _).mp hlow
    have := (not_congr (hlog hs _)).mp (not_le.mpr (hhigh.lt_of_ne htop))
    omega
  have hgrid : Int.log 10 ((m : ℚ) * 2 ^ e) ≤ (f.shortest tie word).exponent ∨
      d.exponent ≤ (f.shortest tie word).exponent ∧
        Int.log 10 ((m : ℚ) * 2 ^ e) ≤ Int.log 10 d.value := by
    have hself := h.isNearest
    have hfirst := (hlog hv _).mpr (le_refl (Int.log 10 ((m : ℚ) * 2 ^ e)))
    have hnext := not_le.mp ((not_congr (hlog hv _)).mpr
      (not_le.mpr (Int.lt_add_one_of_le (le_refl (Int.log 10 ((m : ℚ) * 2 ^ e))))))
    generalize hL : Int.log 10 ((m : ℚ) * 2 ^ e) = place at *
    rcases lt_or_ge d.value (10 ^ place) with hlt | hge
    · -- the power of ten in between is rounded to the word
      have hone : (⟨1, place⟩ : Decimal).value = 10 ^ place := by simp [Decimal.value]
      refine .inl (le_exponent_shortest (d := ⟨1, place⟩) hf h hm ?_ hL.ge tie)
      rw [hone]
      exact hnear.between hself hlt.le hfirst
    · by_cases hexp : d.exponent ≤ place
      · exact .inr ⟨le_exponent_shortest hf h hm hnear (hL ▸ hexp) tie, (hlog hd _).mp hge⟩
      · have hten : (⟨10, place⟩ : Decimal).value = 10 ^ (place + 1) := by
          rw [Decimal.value, zpow_add_one₀ (by norm_num), mul_comm]
          rfl
        refine .inl (le_exponent_shortest (d := ⟨10, place⟩) hf h hm ?_ hL.ge tie)
        rw [hten]
        refine hself.between hnear hnext.le ?_
        have hone : (1 : ℚ) ≤ d.significand := by
          exact_mod_cast Nat.pos_of_ne_zero (significand_ne_zero_of_isNearest h hm hnear)
        calc
          (10 : ℚ) ^ (place + 1) ≤ 10 ^ d.exponent := zpow_le_zpow_right₀ (by norm_num) (by omega)
          _ ≤ d.value := le_mul_of_one_le_left (by positivity) hone
  rw [hplace] at hlength
  omega

/-- **The shortest decimal of an integral number** is integral. -/
theorem exponent_shortest_nonneg (hf : 0 < f.fractionBits) (h : f.Denotes word m e) (hm : 0 < m)
    {n : Nat} (hvalue : (n : ℚ) = m * 2 ^ e) (tie : Tie) : 0 ≤ (f.shortest tie word).exponent := by
  have hself : (⟨n, 0⟩ : Decimal).value = m * 2 ^ e := by
    rw [← hvalue, Decimal.value, zpow_zero, mul_one]
  refine le_exponent_shortest (d := ⟨n, 0⟩) hf h hm (hself ▸ h.isNearest) ?_ tie
  rw [← hvalue, Int.log_natCast]
  exact Int.natCast_nonneg _

/-- **The shortest decimal of a number** is below every number of the format that is greater. -/
theorem value_shortest_lt (hf : 0 < f.fractionBits) (h : f.Denotes word m e) (hm : 0 < m)
    {word' : Nat} (hlt : m * 2 ^ e < f.gridValue word') (tie : Tie) :
    (f.shortest tie word).value < f.gridValue word' := by
  by_contra hle
  have hle := not_lt.mp hle
  have hnear := (isNearest_shortest hf h hm tie).le word'
  rw [h.gridValue_eq, abs_of_nonneg (by linarith), abs_of_nonneg (by linarith)] at hnear
  linarith

end Format

end EngineFuzz
