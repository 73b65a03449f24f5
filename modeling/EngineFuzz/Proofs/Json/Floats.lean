import Mathlib
import EngineFuzz.Proofs.Json.Numerals

/-!
# Floating-point numbers as they are written

The text of a finite floating-point number is that of a numeral, whatever digits it has.

* `DigitText.numeral`: the numeral that digits with a point are written as, with
  `DigitText.text_numeral` and `DigitText.wellFormed_numeral`.
* `Format.jsonText?_eq_text`: the text of a number is that of a well formed numeral.
-/

namespace EngineFuzz

namespace Decimal

variable {d : Decimal}

/-- Trimming leaves one zero only. -/
lemma trim_of_significand_eq_zero (h : d.trim.significand = 0) : d.trim = ⟨0, 0⟩ := by
  induction d using trim.induct with
  | case1 d h0 => rw [trim, dif_pos h0]
  | case2 d h0 hmod ih =>
      rw [trim, dif_neg h0, if_pos hmod] at h ⊢
      exact ih h
  | case3 d h0 hmod =>
      rw [trim, dif_neg h0, if_neg hmod] at h
      exact absurd h h0

end Decimal

namespace DigitText

variable {t : DigitText} {low high : Int}

/-- The numeral that digits with a point are written as. -/
def numeral (low high : Int) (t : DigitText) (negative : Bool) : Numeral :=
  if low < t.point ∧ t.point ≤ high then
    if t.digits.length ≤ t.point then
      ⟨negative, t.digits ++ zeros (t.point - t.digits.length).toNat, some ['0'], none⟩
    else if 0 < t.point then
      ⟨negative, t.digits.take t.point.toNat, some (t.digits.drop t.point.toNat), none⟩
    else ⟨negative, ['0'], some (zeros (-t.point).toNat ++ t.digits), none⟩
  else
    ⟨negative, t.digits.take 1, if t.digits.tail = [] then none else some t.digits.tail,
      some (t.point - 1)⟩

/-- Digits that can be written: a zero stands alone, in front of the point. -/
structure Writable (t : DigitText) : Prop where
  digits : StartsNumber t.digits
  point : t.digits = ['0'] → t.point ≤ 1

lemma isDigit_zeros (n : Nat) : ∀ c ∈ zeros n, c.isDigit = true := by
  intro c hc
  rw [(List.mem_replicate.mp hc).2]
  rfl

lemma startsNumber_zero : StartsNumber ['0'] :=
  ⟨List.forall_mem_singleton.mpr rfl, List.cons_ne_nil _ _, fun _ => rfl⟩

/-- The first digit, and with it the digits up to a place, begin a number. -/
lemma startsNumber_take {digits : List Char} {n : Nat} (h : StartsNumber digits) (hn : 0 < n) :
    StartsNumber (digits.take n) := by
  obtain ⟨c, cs, rfl⟩ := List.exists_cons_of_ne_nil h.ne_nil
  obtain ⟨n, rfl⟩ := Nat.exists_eq_add_one.mpr hn
  refine ⟨fun c hc => h.isDigit c (List.mem_of_mem_take hc), List.cons_ne_nil _ _, fun hz => ?_⟩
  have hc : c = '0' := Option.some.inj hz
  subst hc
  obtain ⟨-, rfl⟩ := List.cons.inj (h.zero rfl)
  simp

/-- Digits that are followed by zeros begin a number, unless they are zero. -/
lemma startsNumber_append_zeros {digits : List Char} {n : Nat} (h : StartsNumber digits)
    (hz : digits = ['0'] → n = 0) : StartsNumber (digits ++ zeros n) := by
  obtain ⟨c, cs, rfl⟩ := List.exists_cons_of_ne_nil h.ne_nil
  refine ⟨?_, List.cons_ne_nil _ _, fun hzero => ?_⟩
  · exact List.forall_mem_append.mpr ⟨h.isDigit, isDigit_zeros n⟩
  · have hdigits := h.zero hzero
    rw [hz hdigits, hdigits]
    rfl

/-- **What is written is the text of a numeral.** -/
lemma text_numeral (h : t.digits ≠ []) (negative : Bool) :
    (t.numeral low high negative).text = signedText negative (t.jsonForm low high) := by
  rw [numeral, jsonForm]
  split
  · split
    · rename_i hlen
      rw [Numeral.text, positional, if_pos hlen]
      rfl
    · rename_i hlen
      rw [positional, if_neg hlen]
      split
      · rw [Numeral.text, Numeral.fractionText, Numeral.exponentText, List.append_nil]
      · rw [Numeral.text, Numeral.fractionText, Numeral.exponentText, List.append_nil]
        rfl
  · obtain ⟨c, cs, hc⟩ := List.exists_cons_of_ne_nil h
    rw [Numeral.text, scientific, hc]
    cases cs with
    | nil => rfl
    | cons d ds => rfl

lemma wellFormed_numeral (h : t.Writable) (negative : Bool) :
    (t.numeral low high negative).WellFormed := by
  have hdigits := h.digits.isDigit
  rw [numeral]
  split
  · split
    · refine ⟨startsNumber_append_zeros h.digits fun hz => ?_, fun ds hds => ?_⟩
      · have := h.point hz
        rw [hz, List.length_singleton]
        omega
      · obtain rfl := Option.some.inj hds
        exact startsNumber_zero.isDigits
    · rename_i hlen
      split
      · rename_i hpos
        refine ⟨startsNumber_take h.digits (by omega), fun ds hds => ?_⟩
        obtain rfl := Option.some.inj hds
        refine ⟨fun c hc => hdigits c (List.mem_of_mem_drop hc), fun hnil => ?_⟩
        have := List.drop_eq_nil_iff.mp hnil
        omega
      · refine ⟨startsNumber_zero, fun ds hds => ?_⟩
        obtain rfl := Option.some.inj hds
        exact ⟨List.forall_mem_append.mpr ⟨isDigit_zeros _, hdigits⟩,
          List.append_ne_nil_of_right_ne_nil _ h.digits.ne_nil⟩
  · refine ⟨startsNumber_take h.digits Nat.one_pos, fun ds hds => ?_⟩
    dsimp only at hds
    split at hds
    · cases hds
    · rename_i hne
      obtain rfl := Option.some.inj hds
      exact ⟨fun c hc => hdigits c (List.mem_of_mem_tail hc), hne⟩

/-- Decimals without superfluous zeros can be written. -/
lemma writable_ofDecimal {d : Decimal} (h : d.significand = 0 → d.exponent = 0) :
    (ofDecimal d).Writable where
  digits := startsNumber_natDigits d.significand
  point hz := by
    have hz : natDigits d.significand = ['0'] := hz
    have hsig : d.significand = 0 := by
      rw [← Numeral.natOf_natDigits d.significand, hz]
      rfl
    change d.exponent + ((natDigits d.significand).length : Int) ≤ 1
    rw [h hsig, hz]
    decide

end DigitText

namespace Format

variable {f : Format} {word : Nat} {low high : Int} {text : List Char}

/-- The shortest decimal has no superfluous zeros. -/
lemma exponent_shortest (f : Format) (word : Nat) (tie : Tie)
    (h : (f.shortest tie word).significand = 0) :
    (f.shortest tie word).exponent = 0 := by
  unfold shortest at h ⊢
  split
  · split
    · rfl
    · rename_i hdecode hm
      simp only [hdecode, if_neg hm] at h
      rw [Decimal.trim_of_significand_eq_zero h]
  · rfl

/-- Only finite numbers have a text. -/
lemma exists_decode_of_jsonText? (h : f.jsonText? low high word = some text) :
    ∃ negative m e, f.decode word = .finite negative m e := by
  unfold jsonText? at h
  cases hx : f.decode word with
  | finite negative m e => exact ⟨_, _, _, rfl⟩
  | nan => simp [hx] at h
  | infinite negative => simp [hx] at h

/-- **The text of a number** is that of a well formed numeral. -/
lemma jsonText?_eq_text (h : f.jsonText? low high word = some text) :
    ∃ n : Numeral, n.WellFormed ∧ n.text = text := by
  unfold jsonText? at h
  split at h
  · rename_i negative _ _
    refine ⟨⟨negative, ['0'], some ['0'], none⟩, ⟨DigitText.startsNumber_zero, ?_⟩,
      Option.some.inj h⟩
    intro ds hds
    obtain rfl := Option.some.inj hds
    exact DigitText.startsNumber_zero.isDigits
  · rename_i negative _ _ _ _
    obtain rfl := Option.some.inj h
    have hw := DigitText.writable_ofDecimal (exponent_shortest f (word % f.signBit) .even)
    exact ⟨_, DigitText.wellFormed_numeral hw negative, DigitText.text_numeral hw.digits.ne_nil _⟩
  · cases h

end Format

end EngineFuzz
