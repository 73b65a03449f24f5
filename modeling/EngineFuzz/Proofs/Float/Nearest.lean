import Mathlib
import EngineFuzz.Proofs.Float.Rounding

/-!
# The nearest number of a format

The numbers of a format lie on a grid, and a rational is rounded to the point of the grid that is
nearest to it.  Of two points that are equally near, the one with the even word is taken.  Overflow
is decided on the same grid, continued beyond the greatest number.

* `Format.gridValue`: the number of a word, with `Format.strictMono_gridValue`.
* `Format.IsNearest`: what rounding to nearest means, with `Format.isNearest_iff` by midpoints.
* `Format.roundAbs`, `Format.RoundsTo`: rounding a rational.
* `Format.exists_isNearest`: the main statement, that rounding is to nearest.
-/

namespace EngineFuzz

namespace Format

variable {f : Format} {word k m n num den : Nat} {e : Int} {q : ℚ}

/-! ### The grid -/

/-- How far the last place of a word lies above that of the subnormal values. -/
def level (f : Format) (word : Nat) : Nat := word / 2 ^ f.fractionBits - 1

/-- The number that a magnitude word stands for.  From the word of infinity on, the grid goes on as
if there were more exponents. -/
def gridValue (f : Format) (word : Nat) : ℚ :=
  (word - f.level word * 2 ^ f.fractionBits : Nat) * 2 ^ (f.minExponent + f.level word)

/-- The point halfway between a word and the next. -/
def midpoint (f : Format) (word : Nat) : ℚ := (f.gridValue word + f.gridValue (word + 1)) / 2

/-- A mantissa in its level; the one after the last is the first of the next level. -/
lemma gridValue_add (hm : m ≤ 2 ^ (f.fractionBits + 1)) (hn : 2 ^ f.fractionBits ≤ m ∨ k = 0) :
    f.gridValue (k * 2 ^ f.fractionBits + m) = m * 2 ^ (f.minExponent + k) := by
  have hunit : 0 < 2 ^ f.fractionBits := Nat.two_pow_pos _
  rw [pow_succ] at hm
  rcases hm.lt_or_eq with hlt | rfl
  · have hlevel : f.level (k * 2 ^ f.fractionBits + m) = k := by
      rw [level, Nat.add_comm, Nat.add_mul_div_right _ _ hunit]
      rcases hn with hn | rfl
      · rw [Nat.div_eq_of_lt_le (k := 1) (by omega) (by omega)]
        omega
      · have : m / 2 ^ f.fractionBits < 2 := Nat.div_lt_of_lt_mul hlt
        omega
    rw [gridValue, hlevel, Nat.add_sub_cancel_left]
  · have hlevel : f.level (k * 2 ^ f.fractionBits + 2 ^ f.fractionBits * 2) = k + 1 := by
      rw [level, Nat.mul_comm (2 ^ f.fractionBits) 2, ← Nat.add_mul, Nat.mul_div_cancel _ hunit]
      omega
    have hrest : k * 2 ^ f.fractionBits + 2 ^ f.fractionBits * 2 - (k + 1) * 2 ^ f.fractionBits =
        2 ^ f.fractionBits := by
      rw [Nat.add_mul]
      omega
    rw [gridValue, hlevel, hrest]
    push_cast
    rw [← add_assoc, zpow_add_one₀ two_ne_zero]
    ring

/-- Each word is a mantissa in a level. -/
lemma exists_level (f : Format) (word : Nat) :
    ∃ k m, word = k * 2 ^ f.fractionBits + m ∧ m < 2 ^ (f.fractionBits + 1) ∧
      (2 ^ f.fractionBits ≤ m ∨ k = 0) := by
  have hmod := Nat.mod_lt word (Nat.two_pow_pos f.fractionBits)
  have hdiv := Nat.div_add_mod' word (2 ^ f.fractionBits)
  rw [pow_succ]
  cases hk : word / 2 ^ f.fractionBits with
  | zero => exact ⟨0, word, by omega, by rw [hk] at hdiv; omega, .inr rfl⟩
  | succ k =>
      rw [hk, Nat.add_mul] at hdiv
      exact ⟨k, 2 ^ f.fractionBits + word % 2 ^ f.fractionBits, by omega, by omega,
        .inl (Nat.le_add_right _ _)⟩

/-- From one point to the next it is a unit in the last place. -/
lemma gridValue_succ (hm : m < 2 ^ (f.fractionBits + 1)) (hn : 2 ^ f.fractionBits ≤ m ∨ k = 0) :
    f.gridValue (k * 2 ^ f.fractionBits + m + 1) =
      f.gridValue (k * 2 ^ f.fractionBits + m) + 2 ^ (f.minExponent + k) := by
  have hn' : 2 ^ f.fractionBits ≤ m + 1 ∨ k = 0 := hn.imp_left (Nat.le_succ_of_le ·)
  rw [gridValue_add hm.le hn, add_assoc, gridValue_add hm hn']
  push_cast
  ring

lemma strictMono_gridValue (f : Format) : StrictMono f.gridValue := by
  refine strictMono_nat_of_lt_succ fun word => ?_
  obtain ⟨k, m, rfl, hm, hn⟩ := f.exists_level word
  rw [gridValue_succ hm hn]
  exact lt_add_of_pos_right _ (by positivity)

lemma gridValue_zero (f : Format) : f.gridValue 0 = 0 := by
  simpa using gridValue_add (f := f) (k := 0) (Nat.zero_le _) (.inr rfl)

lemma gridValue_nonneg (f : Format) (word : Nat) : 0 ≤ f.gridValue word :=
  f.gridValue_zero ▸ f.strictMono_gridValue.monotone word.zero_le

/-- A word below infinity has its place on the grid. -/
lemma Denotes.gridValue_eq (h : f.Denotes word m e) : f.gridValue word = m * 2 ^ e := by
  obtain ⟨k, hk⟩ := Int.eq_ofNat_of_zero_le (Int.sub_nonneg_of_le h.minExponent_le)
  have he : e = f.minExponent + k := by omega
  have hword := h.word_eq
  rw [hk, Int.toNat_natCast] at hword
  rw [hword, gridValue_add h.mantissa_lt.le (h.normal.imp_right fun h0 => by omega), he]

/-- A mantissa of as many digits as the format keeps lies on the grid, whatever its exponent. -/
lemma exists_gridValue (hm : m ≤ 2 ^ (f.fractionBits + 1)) (he : f.minExponent ≤ e) :
    ∃ word, f.gridValue word = m * 2 ^ e := by
  obtain ⟨k, rfl⟩ : ∃ k : Nat, e = f.minExponent + k := ⟨(e - f.minExponent).toNat, by omega⟩
  clear he
  induction k generalizing m with
  | zero => exact ⟨_, gridValue_add (k := 0) hm (.inr rfl)⟩
  | succ k ih =>
      by_cases hn : 2 ^ f.fractionBits ≤ m
      · exact ⟨_, gridValue_add hm (.inl hn)⟩
      · -- a short mantissa is doubled
        obtain ⟨word, hword⟩ := ih (m := 2 * m) (by rw [pow_succ]; omega)
        refine ⟨word, hword.trans ?_⟩
        push_cast
        rw [← add_assoc, zpow_add_one₀ two_ne_zero]
        ring

/-- Midpoints have one digit more than the numbers. -/
lemma exists_midpoint (f : Format) (word : Nat) :
    ∃ k m, f.midpoint word = (m : Nat) * 2 ^ (f.minExponent - 1 + (k : Nat)) ∧
      m < 2 ^ (f.fractionBits + 2) := by
  obtain ⟨k, m, rfl, hm, hn⟩ := f.exists_level word
  refine ⟨k, 2 * m + 1, ?_, ?_⟩
  · rw [midpoint, gridValue_succ hm hn, gridValue_add hm.le hn]
    have hhalf : f.minExponent - 1 + k = f.minExponent + k - 1 := by ring
    push_cast
    rw [hhalf, zpow_sub_one₀ two_ne_zero]
    ring
  · rw [pow_succ] at hm ⊢
    rw [pow_succ]
    omega

/-! ### Rounding to nearest -/

/-- **Rounding to nearest**: no point of the grid is nearer, and if another one is equally near then
the word is even. -/
structure IsNearest (f : Format) (q : ℚ) (word : Nat) : Prop where
  le : ∀ v, |q - f.gridValue word| ≤ |q - f.gridValue v|
  even : ∀ v, v ≠ word → |q - f.gridValue word| = |q - f.gridValue v| → Even word

lemma abs_sub_le_iff_le_half {a b : ℚ} (h : a < b) : |q - a| ≤ |q - b| ↔ q ≤ (a + b) / 2 := by
  rw [← sq_le_sq]
  constructor <;> intro hq <;> nlinarith

lemma abs_sub_le_iff_half_le {a b : ℚ} (h : a < b) : |q - b| ≤ |q - a| ↔ (a + b) / 2 ≤ q := by
  rw [← sq_le_sq]
  constructor <;> intro hq <;> nlinarith

/-- The nearest point lies between the midpoints around it, and an odd one strictly. -/
theorem isNearest_iff : f.IsNearest q word ↔
    (∀ v, v + 1 = word → f.midpoint v ≤ q ∧ (f.midpoint v = q → Even word)) ∧
      q ≤ f.midpoint word ∧ (q = f.midpoint word → Even word) := by
  have hmono := f.strictMono_gridValue
  constructor
  · intro h
    refine ⟨?_, ?_, fun heq => ?_⟩
    · rintro v rfl
      have hlt := hmono (Nat.lt_succ_self v)
      refine ⟨(abs_sub_le_iff_half_le hlt).mp (h.le v), fun heq => ?_⟩
      exact h.even v (Nat.ne_of_lt (Nat.lt_succ_self v))
        ((h.le v).antisymm ((abs_sub_le_iff_le_half hlt).mpr heq.ge))
    · exact (abs_sub_le_iff_le_half (hmono (Nat.lt_succ_self word))).mp (h.le _)
    · exact h.even (word + 1) (Nat.succ_ne_self word)
        ((h.le _).antisymm ((abs_sub_le_iff_half_le (hmono (Nat.lt_succ_self word))).mpr heq.ge))
  · rintro ⟨hbelow, habove, heven⟩
    -- any other point is compared with the neighbour on its side
    have hbefore (v : Nat) (hv : v < word) :
        (f.gridValue v + f.gridValue word) / 2 ≤ q ∧
          (q = (f.gridValue v + f.gridValue word) / 2 → Even word) := by
      obtain ⟨u, rfl⟩ := Nat.exists_eq_add_one_of_ne_zero (Nat.ne_zero_of_lt hv)
      obtain ⟨hle, he⟩ := hbelow u rfl
      have hu : f.gridValue v ≤ f.gridValue u := hmono.monotone (Nat.lt_succ_iff.mp hv)
      rw [midpoint] at hle he
      exact ⟨by linarith, fun heq => he (by linarith)⟩
    have hafter (v : Nat) (hv : word < v) :
        q ≤ (f.gridValue word + f.gridValue v) / 2 ∧
          (q = (f.gridValue word + f.gridValue v) / 2 → Even word) := by
      have hu : f.gridValue (word + 1) ≤ f.gridValue v := hmono.monotone hv
      rw [midpoint] at habove heven
      exact ⟨by linarith, fun heq => heven (by linarith)⟩
    refine ⟨fun v => ?_, fun v hne heq => ?_⟩
    · rcases Nat.lt_trichotomy v word with hv | rfl | hv
      · exact (abs_sub_le_iff_half_le (hmono hv)).mpr (hbefore v hv).1
      · exact le_refl _
      · exact (abs_sub_le_iff_le_half (hmono hv)).mpr (hafter v hv).1
    · rcases Nat.lt_or_gt_of_ne hne with hv | hv
      · exact (hbefore v hv).2
          (((abs_sub_le_iff_le_half (hmono hv)).mp heq.ge).antisymm (hbefore v hv).1)
      · exact (hafter v hv).2
          ((hafter v hv).1.antisymm ((abs_sub_le_iff_half_le (hmono hv)).mp heq.ge))

lemma isNearest_gridValue (f : Format) (word : Nat) : f.IsNearest (f.gridValue word) word := by
  have hmono := f.strictMono_gridValue
  refine ⟨fun v => ?_, fun v hne heq => ?_⟩
  · rw [sub_self, abs_zero]
    exact abs_nonneg _
  · rw [sub_self, abs_zero, eq_comm, abs_eq_zero, sub_eq_zero] at heq
    exact absurd (hmono.injective heq).symm hne

/-- There is one nearest point only. -/
lemma IsNearest.unique {word' : Nat} (h : f.IsNearest q word) (h' : f.IsNearest q word') :
    word = word' := by
  wlog hlt : word < word' generalizing word word'
  · rcases Nat.lt_trichotomy word word' with hv | rfl | hv
    · exact this h h' hv
    · rfl
    · exact (this h' h hv).symm
  exfalso
  have hmono := f.strictMono_gridValue
  have heq := (h.le word').antisymm (h'.le word)
  -- both are even, and an odd word lies between them
  obtain ⟨a, ha⟩ := h.even word' hlt.ne' heq
  obtain ⟨b, hb⟩ := h'.even word hlt.ne heq.symm
  have hnext : f.gridValue (word + 1) < f.gridValue word' := hmono (by omega)
  have habove := (isNearest_iff.mp h).2.1
  have hbelow := (abs_sub_le_iff_half_le (hmono hlt)).mp (h'.le word)
  rw [midpoint] at habove
  linarith

/-- What lies between two numbers that are rounded alike is rounded as they are. -/
lemma IsNearest.between {r x : ℚ} (h : f.IsNearest q word) (h' : f.IsNearest r word) (hq : q ≤ x)
    (hr : x ≤ r) : f.IsNearest x word := by
  rw [isNearest_iff] at h h' ⊢
  refine ⟨fun v hv => ?_, h'.2.1.trans' hr, fun heq => h'.2.2 (h'.2.1.antisymm (heq ▸ hr))⟩
  obtain ⟨hle, heven⟩ := h.1 v hv
  exact ⟨hle.trans hq, fun heq => heven (hle.antisymm (heq ▸ hq))⟩

/-- What lies on the same side of every midpoint is rounded alike. -/
lemma IsNearest.congr {r : ℚ} (h : f.IsNearest q word)
    (hside : ∀ v, (q < f.midpoint v → r < f.midpoint v) ∧ (f.midpoint v < q → f.midpoint v < r))
    (heq : ∀ v, q ≠ f.midpoint v) : f.IsNearest r word := by
  rw [isNearest_iff] at h ⊢
  obtain ⟨hbelow, habove, -⟩ := h
  have hr := (hside word).1 (habove.lt_of_ne (heq word))
  refine ⟨fun v hv => ?_, hr.le, fun h0 => absurd h0 hr.ne⟩
  have hr := (hside v).2 ((hbelow v hv).1.lt_of_ne (heq v).symm)
  exact ⟨hr.le, fun h0 => absurd h0 hr.ne⟩

/-! ### What rounding computes -/

/-- The quotient is divided to the nearest natural, a half to the even one. -/
lemma divideToEven_near (num : Nat) (hd : 0 < den) :
    |(num : ℚ) / den - divideToEven num den| ≤ 1 / 2 ∧
      (|(num : ℚ) / den - divideToEven num den| = 1 / 2 → Even (divideToEven num den)) := by
  have hd' : (0 : ℚ) < den := by exact_mod_cast hd
  have hmod := Nat.mod_lt num hd
  have hsplit : (num : ℚ) / den = (num / den : Nat) + (num % den : Nat) / den := by
    rw [div_eq_iff hd'.ne', add_mul, div_mul_cancel₀ _ hd'.ne']
    exact_mod_cast (Nat.div_add_mod' num den).symm
  have hr : (0 : ℚ) ≤ (num % den : Nat) / den := by positivity
  have hr' : ((num % den : Nat) : ℚ) / den < 1 := by
    rw [div_lt_one hd']
    exact_mod_cast hmod
  have hlt : 2 * (num % den) < den ↔ ((num % den : Nat) : ℚ) / den < 1 / 2 := by
    rw [div_lt_div_iff₀ hd' two_pos, one_mul, mul_comm]
    exact_mod_cast Iff.rfl
  have hgt : den < 2 * (num % den) ↔ 1 / 2 < ((num % den : Nat) : ℚ) / den := by
    rw [div_lt_div_iff₀ two_pos hd', one_mul, mul_comm ((num % den : Nat) : ℚ)]
    exact_mod_cast Iff.rfl
  rw [divideToEven, hsplit]
  generalize ((num % den : Nat) : ℚ) / den = r at *
  split_ifs with h₁ h₂ h₃
  · have := hlt.mp h₁
    rw [add_sub_cancel_left, abs_of_nonneg hr]
    exact ⟨this.le, fun h => absurd h this.ne⟩
  · have := hgt.mp h₂
    push_cast
    rw [add_sub_add_left_eq_sub, abs_of_neg (by linarith)]
    exact ⟨by linarith, fun h => by linarith⟩
  · rw [add_sub_cancel_left, abs_of_nonneg hr]
    exact ⟨not_lt.mp fun h => h₂ (hgt.mpr h), fun _ => Nat.even_iff.mpr h₃⟩
  · have := not_lt.mp fun h => h₁ (hlt.mpr h)
    push_cast
    rw [add_sub_add_left_eq_sub, abs_of_neg (by linarith)]
    refine ⟨by linarith, fun _ => Nat.even_add_one.mpr fun h => h₃ (Nat.even_iff.mp h)⟩

/-- A number is rounded to a mantissa of its level. -/
structure RoundsAt (f : Format) (q : ℚ) (k n : Nat) : Prop where
  normal : k = 0 ∨ 2 ^ f.fractionBits * 2 ^ (f.minExponent + k) ≤ q
  lt : q < 2 ^ (f.fractionBits + 1) * 2 ^ (f.minExponent + k)
  near : |q - n * 2 ^ (f.minExponent + k)| ≤ 2 ^ (f.minExponent + k) / 2
  even : |q - n * 2 ^ (f.minExponent + k)| = 2 ^ (f.minExponent + k) / 2 → Even n

/-- **What rounding does** to a positive quotient. -/
theorem exists_roundsAt (f : Format) (hn : 0 < num) (hd : 0 < den) :
    ∃ k n, f.RoundsAt ((num : ℚ) / den) k n ∧
      f.roundQuotient num den = min (k * 2 ^ f.fractionBits + n) f.infinity := by
  have hq : (0 : ℚ) < num / den := div_pos (by exact_mod_cast hn) (by exact_mod_cast hd)
  have hplace := lastPlace_eq (f := f) hn hd
  obtain ⟨k, hk⟩ := Int.eq_ofNat_of_zero_le
    (show 0 ≤ f.lastPlace num den - f.minExponent by omega)
  have hplace' : f.lastPlace num den = f.minExponent + k := by omega
  let scaledPair := scaled num den (-(f.minExponent + k))
  have hunit : (0 : ℚ) < 2 ^ (f.minExponent + k) := by positivity
  obtain ⟨hnear, heven⟩ :=
    divideToEven_near scaledPair.1 (scaled_snd_pos num hd (-(f.minExponent + k)))
  have hscale (n : Nat) : |(num : ℚ) / den - n * 2 ^ (f.minExponent + k)| =
      |(scaledPair.1 : ℚ) / scaledPair.2 - n| * 2 ^ (f.minExponent + k) := by
    rw [scaled_eq, ← abs_of_pos hunit, ← abs_mul, abs_of_pos hunit, sub_mul, mul_assoc,
      ← zpow_add₀ two_ne_zero, neg_add_cancel, zpow_zero, mul_one]
  have hle (x : Int) : (2 : ℚ) ^ x ≤ num / den ↔ x ≤ Int.log 2 ((num : ℚ) / den) := by
    rw [← Int.zpow_le_iff_le_log one_lt_two hq, Nat.cast_ofNat]
  refine ⟨k, divideToEven scaledPair.1 scaledPair.2, ⟨?_, ?_, ?_, fun h => heven ?_⟩, ?_⟩
  · by_cases h0 : k = 0
    · exact .inl h0
    · refine .inr ?_
      rw [← zpow_natCast, ← zpow_add₀ two_ne_zero, hle]
      omega
  · rw [← not_le, ← zpow_natCast, ← zpow_add₀ two_ne_zero, hle]
    push_cast
    omega
  · rw [hscale]
    linarith [mul_le_mul_of_nonneg_right hnear hunit.le]
  · rw [hscale] at h
    exact mul_right_cancel₀ hunit.ne' (h.trans (by ring))
  · rw [roundQuotient, if_neg hn.ne', hplace']
    dsimp only
    rw [add_sub_cancel_left, Int.toNat_natCast]
    rfl

lemma RoundsAt.le (h : f.RoundsAt q k n) : n ≤ 2 ^ (f.fractionBits + 1) := by
  have hunit : (0 : ℚ) < 2 ^ (f.minExponent + k) := by positivity
  obtain ⟨hlow, -⟩ := abs_le.mp h.near
  have hlt : (n : ℚ) * 2 ^ (f.minExponent + k) <
      (2 ^ (f.fractionBits + 1) + 1) * 2 ^ (f.minExponent + k) := by
    linarith [h.lt]
  have : (n : ℚ) < 2 ^ (f.fractionBits + 1) + 1 := lt_of_mul_lt_mul_right hlt hunit.le
  exact Nat.lt_succ_iff.mp (by exact_mod_cast this)

lemma RoundsAt.ge (h : f.RoundsAt q k n) : 2 ^ f.fractionBits ≤ n ∨ k = 0 := by
  refine h.normal.symm.imp_left fun hq => ?_
  have hunit : (0 : ℚ) < 2 ^ (f.minExponent + k) := by positivity
  obtain ⟨-, hhigh⟩ := abs_le.mp h.near
  have hlt : (2 ^ f.fractionBits : ℚ) * 2 ^ (f.minExponent + k) <
      (n + 1) * 2 ^ (f.minExponent + k) := by
    linarith
  have : (2 ^ f.fractionBits : ℚ) < n + 1 := lt_of_mul_lt_mul_right hlt hunit.le
  exact Nat.lt_succ_iff.mp (by exact_mod_cast this)

lemma RoundsAt.gridValue_eq (h : f.RoundsAt q k n) :
    f.gridValue (k * 2 ^ f.fractionBits + n) = n * 2 ^ (f.minExponent + k) :=
  gridValue_add h.le h.ge

/-- **The mantissa of its level** is the nearest point of the whole grid. -/
theorem RoundsAt.isNearest (h : f.RoundsAt q k n) (hf : 0 < f.fractionBits) :
    f.IsNearest q (k * 2 ^ f.fractionBits + n) := by
  have hunit : (0 : ℚ) < 2 ^ (f.minExponent + k) := by positivity
  have hmono := f.strictMono_gridValue
  obtain ⟨hlow, hhigh⟩ := abs_le.mp h.near
  have heven (hn : Even n) : Even (k * 2 ^ f.fractionBits + n) :=
    ((even_two.pow_of_ne_zero hf.ne').mul_left k).add hn
  have hvalue := h.gridValue_eq
  rw [isNearest_iff]
  refine ⟨fun v hv => ?_, ?_⟩
  · have hlt := hmono (Nat.lt_of_succ_le hv.le)
    by_cases hq : f.gridValue (k * 2 ^ f.fractionBits + n) ≤ q
    · -- the point itself is above the midpoint
      have hmid : f.midpoint v < q := by
        rw [midpoint, hv]
        linarith
      exact ⟨hmid.le, fun h0 => absurd h0 hmid.ne⟩
    · -- below the point the grid goes on with the same unit
      rw [hvalue, not_le] at hq
      have hn : 2 ^ f.fractionBits < n ∨ k = 0 := by
        refine h.normal.symm.imp_left fun hnormal => ?_
        have := lt_of_mul_lt_mul_right (hnormal.trans_lt hq) hunit.le
        exact_mod_cast this
      obtain ⟨n, rfl⟩ : ∃ n', n = n' + 1 := Nat.exists_eq_add_one_of_ne_zero fun h0 => by
        subst h0
        obtain rfl := hn.resolve_left (Nat.not_lt_zero _)
        omega
      obtain rfl : v = k * 2 ^ f.fractionBits + n := by omega
      have hstep := gridValue_succ (f := f) (Nat.lt_of_succ_le h.le)
        (hn.imp_left Nat.lt_succ_iff.mp)
      have hmid : f.midpoint (k * 2 ^ f.fractionBits + n) =
          (n + 1 : Nat) * 2 ^ (f.minExponent + k) - 2 ^ (f.minExponent + k) / 2 := by
        rw [midpoint, hv, ← hvalue, ← add_assoc, hstep]
        ring
      rw [hmid]
      refine ⟨by linarith, fun heq => heven (h.even ?_)⟩
      rw [← heq, sub_sub_cancel_left, abs_neg, abs_of_pos (by positivity)]
  · have hlt := hmono (Nat.lt_succ_self (k * 2 ^ f.fractionBits + n))
    by_cases hq : q ≤ f.gridValue (k * 2 ^ f.fractionBits + n)
    · have hmid : q < f.midpoint (k * 2 ^ f.fractionBits + n) := by
        rw [midpoint]
        linarith
      exact ⟨hmid.le, fun h0 => absurd h0 hmid.ne⟩
    · rw [hvalue, not_le] at hq
      have hn : n < 2 ^ (f.fractionBits + 1) := by
        have := lt_of_mul_lt_mul_right (hq.trans h.lt) hunit.le
        exact_mod_cast this
      have hmid : f.midpoint (k * 2 ^ f.fractionBits + n) =
          n * 2 ^ (f.minExponent + k) + 2 ^ (f.minExponent + k) / 2 := by
        rw [midpoint, gridValue_succ hn h.ge, hvalue]
        ring
      rw [hmid]
      refine ⟨by linarith, fun heq => heven (h.even ?_)⟩
      rw [heq, add_sub_cancel_left, abs_of_pos (by positivity)]

/-! ### Rationals -/

/-- The magnitude word that a rational is rounded to. -/
def roundAbs (f : Format) (q : ℚ) : Nat := f.roundQuotient q.num.natAbs q.den

lemma natAbs_num_div_den (q : ℚ) : (q.num.natAbs : ℚ) / q.den = |q| := by
  rw [Rat.abs_def, Rat.divInt_eq_div]
  simp

lemma roundQuotient_eq_roundAbs (hd : 0 < den) (h : (num : ℚ) / den = |q|) :
    f.roundQuotient num den = f.roundAbs q :=
  roundQuotient_congr hd q.den_pos (h.trans (natAbs_num_div_den q).symm)

lemma roundAbs_congr {r : ℚ} (h : |q| = |r|) : f.roundAbs q = f.roundAbs r :=
  roundQuotient_eq_roundAbs q.den_pos ((natAbs_num_div_den q).trans h)

lemma roundScaled_eq_roundAbs (h : m * 2 ^ e = |q|) : f.roundScaled m e = f.roundAbs q :=
  roundScaled_eq q.den_pos ((natAbs_num_div_den q).trans h.symm)

lemma exists_roundsAt_abs (f : Format) (hq : q ≠ 0) :
    ∃ k n, f.RoundsAt |q| k n ∧ f.roundAbs q = min (k * 2 ^ f.fractionBits + n) f.infinity := by
  rw [← natAbs_num_div_den]
  exact f.exists_roundsAt (Int.natAbs_pos.mpr (Rat.num_ne_zero.mpr hq)) q.den_pos

/-- **Rounding is to nearest**, with what lies beyond the greatest number cut off at infinity. -/
theorem exists_isNearest (hf : 0 < f.fractionBits) (q : ℚ) :
    ∃ word, f.IsNearest |q| word ∧ f.roundAbs q = min word f.infinity := by
  by_cases hq : q = 0
  · subst hq
    refine ⟨0, ?_, ?_⟩
    · rw [abs_zero, ← f.gridValue_zero]
      exact f.isNearest_gridValue 0
    · rw [Nat.zero_min]
      rfl
  · obtain ⟨k, n, h, hround⟩ := f.exists_roundsAt_abs hq
    exact ⟨_, h.isNearest hf, hround⟩

lemma roundAbs_eq (hf : 0 < f.fractionBits) (h : f.IsNearest |q| word) :
    f.roundAbs q = min word f.infinity := by
  obtain ⟨word', h', hround⟩ := exists_isNearest hf q
  rw [hround, h.unique h']

/-- A number is what a rational is rounded to: the nearest one with the sign of the rational, or
infinity. -/
def RoundsTo (f : Format) (q : ℚ) (x : Number) : Prop :=
  ∃ word, f.IsNearest |q| word ∧ x = f.decode (f.withSign (decide (q < 0)) (min word f.infinity))

lemma roundsTo (hf : 0 < f.fractionBits) (q : ℚ) :
    f.RoundsTo q (f.decode (f.withSign (decide (q < 0)) (f.roundAbs q))) := by
  obtain ⟨word, h, hround⟩ := exists_isNearest hf q
  exact ⟨word, h, by rw [hround]⟩

/-- A rational is rounded to one number only. -/
lemma RoundsTo.unique {x y : Number} (hx : f.RoundsTo q x) (hy : f.RoundsTo q y) : x = y := by
  obtain ⟨word, h, rfl⟩ := hx
  obtain ⟨word', h', rfl⟩ := hy
  rw [h.unique h']

/-! ### Signs -/

lemma withSign_mod (negative : Bool) (h : word < f.signBit) :
    f.withSign negative word % f.signBit = word := by
  cases negative with
  | false => exact Nat.mod_eq_of_lt h
  | true => exact (Nat.add_mod_left ..).trans (Nat.mod_eq_of_lt h)

lemma signBit_le_withSign (negative : Bool) (h : word < f.signBit) :
    decide (f.signBit ≤ f.withSign negative word) = negative := by
  cases negative with
  | false => exact decide_eq_false (Nat.not_le.mpr h)
  | true => exact decide_eq_true (Nat.le_add_right ..)

/-- A word below infinity is that of a finite number. -/
lemma exists_denotes_of_lt (h : word < f.infinity) : ∃ m e, f.Denotes word m e := by
  have hsign := h.trans f.infinity_lt_signBit
  have hdecode := decode.eq_1 f word
  simp only [Nat.mod_eq_of_lt hsign, decide_eq_false (Nat.not_le.mpr hsign),
    if_neg (Nat.not_lt.mpr h.le), if_neg h.ne] at hdecode
  split at hdecode
  · exact ⟨_, _, decode_eq_iff.mp hdecode⟩
  · exact ⟨_, _, decode_eq_iff.mp hdecode⟩

/-- The sign of a word is that of its number. -/
lemma decode_withSign (h : f.Denotes word m e) (negative : Bool) :
    f.decode (f.withSign negative word) = .finite negative m e := by
  have hsign := h.lt_infinity.trans f.infinity_lt_signBit
  have hdecode := decode_eq_iff.mpr h
  rw [decode] at hdecode ⊢
  simp only [withSign_mod _ hsign, signBit_le_withSign _ hsign, Nat.mod_eq_of_lt hsign,
    if_neg (Nat.not_lt.mpr h.lt_infinity.le), if_neg h.lt_infinity.ne] at hdecode ⊢
  split at hdecode
  · rename_i hzero
    obtain ⟨-, rfl, rfl⟩ := Number.finite.inj hdecode
    rw [if_pos hzero]
  · rename_i hzero
    obtain ⟨-, rfl, rfl⟩ := Number.finite.inj hdecode
    rw [if_neg hzero]

lemma decode_withSign_infinity (f : Format) (negative : Bool) :
    f.decode (f.withSign negative f.infinity) = .infinite negative := by
  rw [decode]
  simp only [withSign_mod _ f.infinity_lt_signBit, signBit_le_withSign _ f.infinity_lt_signBit,
    gt_iff_lt, lt_irrefl, if_false, if_true]

/-- What is rounded to a finite number has the word of this number as the nearest. -/
lemma RoundsTo.isNearest {negative : Bool} (h : f.RoundsTo q (.finite negative m e))
    (hword : f.Denotes word m e) : f.IsNearest |q| word := by
  obtain ⟨v, hnear, hv⟩ := h
  have hsign := (Nat.min_le_right v f.infinity).trans_lt f.infinity_lt_signBit
  have heq := (denotes_of_decode hv.symm).1.word_eq
  rw [withSign_mod _ hsign, ← hword.word_eq] at heq
  have hlt := hword.lt_infinity
  obtain rfl : v = word := by omega
  exact hnear

end Format

end EngineFuzz
