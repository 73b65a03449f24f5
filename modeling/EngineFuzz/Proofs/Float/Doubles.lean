import Mathlib
import EngineFuzz.Float.Arithmetic
import EngineFuzz.Proofs.Float.Rounding

/-!
# Products and quotients of doubles

A positive finite double has a value.  A product and a quotient are the exact one, rounded once.

* `Double.Means`: the positive number that a double is.
* `Double.exists_means`: a natural of few digits, times a power of two, is a double.
* `Double.mul_eq`, `Double.div_eq`: products and quotients.
-/

namespace EngineFuzz

namespace Format

variable {word m : Nat} {e : Int}

lemma Denotes.lt_signBit {f : Format} (h : f.Denotes word m e) : word < f.signBit :=
  h.lt_infinity.trans f.infinity_lt_signBit

/-- A mantissa of fewer digits than the format keeps, at an exponent within the range, is that of a
word. -/
lemma exists_denotes {a : Nat} (ha : 0 < a) (ha' : a < 2 ^ 53) {n : Nat} (hn : n ≤ 64) :
    ∃ word m e, double.Denotes word m e ∧ 0 < m ∧ (m : ℚ) * 2 ^ e = a * 2 ^ n := by
  have hlow := Nat.log2_self_le ha.ne'
  have hhigh : a < 2 ^ (a.log2 + 1) := Nat.lt_log2_self
  have hlog : a.log2 ≤ 52 := Nat.lt_succ_iff.mp ((Nat.log2_lt ha.ne').mpr ha')
  have hmantissa : 2 ^ 52 ≤ a * 2 ^ (52 - a.log2) ∧ a * 2 ^ (52 - a.log2) < 2 ^ 53 := by
    constructor
    · calc
        2 ^ 52 = 2 ^ a.log2 * 2 ^ (52 - a.log2) := by rw [← Nat.pow_add]; congr 1; omega
        _ ≤ a * 2 ^ (52 - a.log2) := Nat.mul_le_mul_right _ hlow
    · calc
        a * 2 ^ (52 - a.log2) < 2 ^ (a.log2 + 1) * 2 ^ (52 - a.log2) :=
          Nat.mul_lt_mul_of_pos_right hhigh (Nat.two_pow_pos _)
        _ = 2 ^ 53 := by rw [← Nat.pow_add]; congr 1; omega
  refine ⟨_, a * 2 ^ (52 - a.log2), (n : Int) - (52 - a.log2 : Nat),
    ⟨?_, hmantissa.2, .inl hmantissa.1, rfl, ?_⟩, ?_, ?_⟩
  · change (-1074 : Int) ≤ _
    omega
  · change ((n : Int) - (52 - a.log2 : Nat) - (-1074)).toNat * 2 ^ 52 + _ < 2047 * 2 ^ 52
    have : ((n : Int) - (52 - a.log2 : Nat) - (-1074)).toNat ≤ 1138 := by omega
    have := Nat.mul_le_mul_right (2 ^ 52) this
    omega
  · exact Nat.mul_pos ha (Nat.two_pow_pos _)
  · push_cast
    rw [zpow_sub₀ two_ne_zero, zpow_natCast, zpow_natCast]
    field_simp

end Format

namespace Double

variable {x y : Double} {a b : ℚ}

/-- The positive number that a double is. -/
def Means (x : Double) (a : ℚ) : Prop :=
  ∃ word m e, Format.double.Denotes word m e ∧ 0 < m ∧ x = .ofWord word ∧ (m : ℚ) * 2 ^ e = a

lemma toNat_ofWord {word m : Nat} {e : Int} (h : Format.double.Denotes word m e) :
    (ofWord word).bits.toNat = word := by
  have hlt : word < 2 ^ 63 := h.lt_signBit
  exact UInt64.toNat_ofNat_of_lt' (hlt.trans (by decide))

lemma value_ofWord {word m : Nat} {e : Int} (h : Format.double.Denotes word m e) :
    (ofWord word).value = .finite false m e := by
  rw [value, toNat_ofWord h, Format.decode_eq_iff.mpr h]

/-- The product is rounded once. -/
lemma mul_eq (hx : x.Means a) (hy : y.Means b) {num den : Nat} (hd : 0 < den)
    (h : (num : ℚ) / den = a * b) : x.mul y = .ofWord (Format.double.roundQuotient num den) := by
  obtain ⟨wx, m, e, hwx, -, rfl, rfl⟩ := hx
  obtain ⟨wy, n, d, hwy, -, rfl, rfl⟩ := hy
  have hexact : (num : ℚ) / den = (m * n : Nat) * 2 ^ (e + d) := by
    rw [h, zpow_add₀ two_ne_zero]
    push_cast
    ring
  rw [mul, value_ofWord hwx, value_ofWord hwy, Number.mul, Bool.xor_false, ofNumber,
    Format.encode_finite, Format.roundScaled_eq hd hexact]

/-- The quotient is rounded once. -/
lemma div_eq (hx : x.Means a) (hy : y.Means b) {num den : Nat} (hd : 0 < den)
    (h : (num : ℚ) / den = a / b) : x.div y = .ofWord (Format.double.roundQuotient num den) := by
  obtain ⟨wx, m, e, hwx, -, rfl, rfl⟩ := hx
  obtain ⟨wy, n, d, hwy, hn, rfl, rfl⟩ := hy
  have hexact :
      ((Format.scaled m n (e - d)).1 : ℚ) / (Format.scaled m n (e - d)).2 = num / den := by
    rw [Format.scaled_eq, h, zpow_sub₀ two_ne_zero]
    field_simp
  have hround := Format.roundQuotient_congr (f := .double)
    (Format.scaled_snd_pos m hn (e - d)) hd hexact
  rw [div, value_ofWord hwx, value_ofWord hwy, Number.divideIn, if_neg hn.ne', Bool.xor_false]
  simp only [Format.withSign_false]
  rw [hround]

/-- A natural of few digits, times a power of two, is a double. -/
lemma means_ofNumber {s n : Nat} (hs : 0 < s) (hs' : s < 2 ^ 53) (hn : n ≤ 64) :
    (ofNumber (.finite false (s * 2 ^ n) 0)).Means (s * 2 ^ n) := by
  obtain ⟨word, m, e, hword, hm, hvalue⟩ := Format.exists_denotes hs hs' hn
  refine ⟨word, m, e, hword, hm, ?_, hvalue⟩
  have hround : Format.double.roundScaled (s * 2 ^ n) 0 = word := by
    refine Format.roundQuotient_of_eq hword hm (Nat.pow_pos (by decide)) ?_
    rw [Format.quotient_scaled, hvalue]
    push_cast
    simp
  rw [ofNumber, Format.encode_finite, hround]

end Double

end EngineFuzz
