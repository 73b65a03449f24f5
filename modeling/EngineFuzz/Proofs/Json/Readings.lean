import Mathlib
import EngineFuzz.Proofs.Float.Doubles
import EngineFuzz.Proofs.Float.Shortest
import EngineFuzz.Proofs.Json.Floats

/-!
# Floating-point numbers as they are read

The text of a finite double denotes a decimal that is rounded to the double.  The reader comes to
this double if the digits and the power of ten are doubles themselves.

* `Numeral.decimal`: the decimal that a numeral denotes, with `DigitText.value_numeral`.
* `Numeral.kept_eq_decimal`: few digits are all kept.
* `Numeral.scale?_eq`: a product or quotient of two doubles is rounded once.
* `Double.exists_numeral`: the numeral of a double denotes a decimal that is rounded to the double.
* `Double.reread?`: what a double comes back as, with `Double.reread?_eq_self` for short ones.
-/

namespace EngineFuzz

namespace Numeral

variable {digits : List Char} {n : Nat}

/-! ### Digits -/

lemma digitValue_le {c : Char} (h : c.isDigit = true) : digitValue c ≤ 9 := by
  simp only [Char.isDigit, Bool.and_eq_true, decide_eq_true_eq] at h
  have : c.toNat ≤ '9'.toNat := h.2
  exact Nat.sub_le_sub_right this '0'.toNat

lemma foldl_digits (n : Nat) (digits : List Char) :
    digits.foldl (fun n c => 10 * n + digitValue c) n = n * 10 ^ digits.length + natOf digits := by
  induction digits using List.reverseRecOn with
  | nil => simp [natOf]
  | append_singleton digits c ih =>
      rw [List.foldl_append, ih, natOf_append_singleton, List.length_append, List.length_singleton,
        Nat.pow_succ]
      simp only [List.foldl_cons, List.foldl_nil]
      ring

lemma natOf_append (digits more : List Char) :
    natOf (digits ++ more) = natOf digits * 10 ^ more.length + natOf more := by
  rw [natOf, List.foldl_append, foldl_digits]
  rfl

lemma natOf_zeros (n : Nat) : natOf (DigitText.zeros n) = 0 := by
  induction n with
  | zero => rfl
  | succ n ih =>
      rw [DigitText.zeros, List.replicate_succ', natOf_append, ← DigitText.zeros, ih]
      rfl

lemma le_accumulate (n : Nat) (digits : List Char) : n ≤ (accumulate n digits).1 := by
  induction digits generalizing n with
  | nil => exact le_refl n
  | cons c digits ih =>
      rw [accumulate]
      split
      · exact le_trans (by omega) (ih _)
      · exact le_refl n

/-- Few digits are all kept. -/
lemma accumulate_eq (h : (accumulate n digits).1 < 2 ^ 53) (hd : ∀ c ∈ digits, c.isDigit = true) :
    accumulate n digits = (n * 10 ^ digits.length + natOf digits, []) := by
  rw [← foldl_digits]
  induction digits generalizing n with
  | nil => rfl
  | cons c digits ih =>
      obtain ⟨hc, hdigits⟩ := List.forall_mem_cons.mp hd
      have hvalue := digitValue_le hc
      rw [accumulate] at h ⊢
      split
      · rename_i hfits
        rw [if_pos hfits] at h
        exact ih h hdigits
      · rename_i hfits
        rw [if_neg hfits] at h
        dsimp only at h
        omega

/-! ### The decimal of a numeral -/

/-- The decimal that a numeral denotes, apart from its sign. -/
def decimal (n : Numeral) : Decimal :=
  ⟨natOf (n.whole ++ n.fraction?.getD []), n.exponent?.getD 0 - (n.fraction?.getD []).length⟩

/-- Few digits are all kept. -/
lemma kept_eq_decimal {n : Numeral} (h : n.WellFormed) (hkept : n.kept.significand < 2 ^ 53) :
    n.kept = n.decimal := by
  have hfraction : ∀ c ∈ n.fraction?.getD [], c.isDigit = true := by
    cases hf : n.fraction? with
    | none => exact List.forall_mem_nil _
    | some digits => exact (h.fraction digits hf).isDigit
  have hsignificand : (accumulate (accumulate 0 n.whole).1 (n.fraction?.getD [])).1 < 2 ^ 53 :=
    hkept
  have hwhole : accumulate 0 n.whole = (natOf n.whole, []) := by
    rw [accumulate_eq ((le_accumulate _ _).trans_lt hsignificand) h.whole.isDigit, Nat.zero_mul,
      Nat.zero_add]
  rw [hwhole] at hsignificand
  rw [kept, decimal, hwhole]
  dsimp only
  rw [accumulate_eq hsignificand hfraction, natOf_append]
  simp

end Numeral

namespace DigitText

variable {low high : Int} {negative : Bool}

lemma negative_numeral {t : DigitText} : (t.numeral low high negative).negative = negative := by
  rw [numeral]
  repeat' split
  all_goals rfl

/-- The numeral that a decimal is written as denotes that decimal. -/
lemma value_numeral (d : Decimal) :
    ((ofDecimal d).numeral low high negative).decimal.value = d.value := by
  have hdigits : Numeral.natOf (ofDecimal d).digits = d.significand :=
    Numeral.natOf_natDigits d.significand
  have hpoint : (ofDecimal d).point = d.exponent + (ofDecimal d).digits.length := rfl
  rw [numeral]
  split
  · split
    · rename_i hlen
      -- the point stands behind the digits, and a zero behind it
      obtain ⟨k, hk⟩ := Int.eq_ofNat_of_zero_le (Int.sub_nonneg_of_le hlen)
      have hexp : d.exponent = k := by omega
      have hvalue : Numeral.natOf ((ofDecimal d).digits ++ zeros k ++ ['0']) =
          d.significand * 10 ^ k * 10 := by
        rw [Numeral.natOf_append, Numeral.natOf_append, Numeral.natOf_zeros, hdigits]
        simp [zeros, Numeral.natOf, Numeral.digitValue]
      rw [hk, Int.toNat_natCast]
      simp only [Numeral.decimal, Decimal.value, Option.getD_some, Option.getD_none, hvalue, hexp]
      simp
    · rename_i hlen
      refine congrArg Decimal.value ?_
      split
      · rename_i hpos
        simp only [Numeral.decimal, Option.getD_some, Option.getD_none, List.take_append_drop,
          hdigits, List.length_drop]
        exact congrArg (Decimal.mk _) (by omega)
      · have hzeros : Numeral.natOf (['0'] ++ (zeros (-(ofDecimal d).point).toNat ++
            (ofDecimal d).digits)) = d.significand := by
          rw [Numeral.natOf_append, Numeral.natOf_append, Numeral.natOf_zeros, hdigits]
          simp [Numeral.natOf, Numeral.digitValue]
        simp only [Numeral.decimal, Option.getD_some, Option.getD_none, hzeros, List.length_append]
        rw [zeros, List.length_replicate]
        exact congrArg (Decimal.mk _) (by omega)
  · refine congrArg Decimal.value ?_
    obtain ⟨c, cs, hc⟩ := List.exists_cons_of_ne_nil (startsNumber_natDigits d.significand).ne_nil
    have hc : (ofDecimal d).digits = c :: cs := hc
    have hfraction : (if (ofDecimal d).digits.tail = [] then none
        else some (ofDecimal d).digits.tail).getD [] = cs := by
      rw [hc, List.tail_cons]
      split
      · rename_i hnil
        exact hnil.symm
      · rfl
    rw [hc] at hdigits hpoint
    simp only [Numeral.decimal, hfraction, Option.getD_some]
    rw [hc]
    change Decimal.mk (Numeral.natOf (c :: cs)) _ = d
    rw [hdigits]
    exact congrArg (Decimal.mk _) (by rw [hpoint, List.length_cons]; omega)

end DigitText

/-! ### Scaling -/

namespace Numeral

variable {word m s : Nat} {e k : Int}

lemma isFinite_ofWord (h : Format.double.Denotes word m e) :
    (Double.ofWord word).isFinite = true := by
  rw [Double.isFinite, Double.value_ofWord h]

/-- Small powers of ten are doubles. -/
lemma means_powerOfTen {n : Nat} (hn : n ≤ 22) : (powerOfTen n).Means (10 ^ n) := by
  have hfive : 5 ^ n < 2 ^ 53 :=
    (Nat.pow_le_pow_right (by decide) hn).trans_lt (show 5 ^ 22 < 2 ^ 53 by norm_num)
  have h := Double.means_ofNumber (n := n) (Nat.pow_pos (by decide)) hfive (by omega)
  have hten : 5 ^ n * 2 ^ n = Nat.pow 10 n := (Nat.mul_pow 5 2 n).symm
  have hten' : ((5 ^ n : Nat) : ℚ) * 2 ^ n = 10 ^ n := by
    push_cast
    rw [← mul_pow]
    norm_num
  rwa [hten, hten'] at h

/-- **A significand and a power of ten that are doubles** are scaled with a single rounding. -/
theorem scale?_eq (hs : 0 < s) (hs' : s < 2 ^ 53) (hk : k.natAbs ≤ 22)
    (h : Format.double.Denotes word m e) (hm : 0 < m)
    (hround : Format.double.ofDecimal ⟨s, k⟩ = word) :
    scale? (.ofNumber (.finite false s 0)) k = some (.ofWord word) := by
  have hx : (Double.ofNumber (.finite false s 0)).Means s := by
    simpa using Double.means_ofNumber (n := 0) hs hs' (by decide)
  have hword := Format.roundQuotient_of_ofDecimal h hm hround
  have hquotient := Decimal.quotient_eq ⟨s, k⟩
  have hpos := Decimal.quotient_snd_pos ⟨s, k⟩
  have hsmall : k.natAbs ≤ maxPower := hk.trans (by decide)
  rw [Decimal.value] at hquotient
  rw [scale?, if_pos hsmall]
  split
  · rename_i hnonneg
    have habs : (10 : ℚ) ^ k = 10 ^ k.natAbs := by
      rw [← zpow_natCast, Int.natAbs_of_nonneg hnonneg]
    rw [habs] at hquotient
    have hmul := Double.mul_eq hx (means_powerOfTen hk) hpos hquotient
    rw [hword] at hmul
    dsimp only
    rw [hmul, if_pos (isFinite_ofWord h)]
  · rename_i hnegative
    have habs : (10 : ℚ) ^ k = (10 ^ k.natAbs)⁻¹ := by
      rw [← zpow_natCast, ← zpow_neg, Int.ofNat_natAbs_of_nonpos (by omega), neg_neg]
    rw [habs, ← div_eq_mul_inv] at hquotient
    have hdiv := Double.div_eq hx (means_powerOfTen hk) hpos hquotient
    rw [hword] at hdiv
    rw [hdiv]

/-- The double that a numeral is read as is the nearest one, if its digits and its power of ten are
doubles. -/
theorem toDouble?_eq {n : Numeral} (hs : 0 < n.kept.significand) (hs' : n.kept.significand < 2 ^ 53)
    (hk : n.kept.exponent.natAbs ≤ 22) (h : Format.double.Denotes word m e) (hm : 0 < m)
    (hround : Format.double.ofDecimal n.kept = word) :
    n.toDouble? = some (.ofWord (Format.double.withSign n.negative word)) := by
  rw [toDouble?]
  change (scale? (.ofNumber (.finite false n.kept.significand 0)) n.kept.exponent).bind _ = _
  rw [scale?_eq hs hs' hk h hm hround, Option.bind_some]
  cases n.negative with
  | false =>
      rw [Format.withSign_false, if_neg Bool.false_ne_true]
      rfl
  | true =>
      rw [if_pos rfl, Double.value_ofWord h, Number.neg, Double.ofNumber, Format.encode,
        Format.roundScaled_of_denotes h hm]
      rfl

end Numeral

/-! ### Doubles -/

namespace Double

variable {x : Double} {negative : Bool} {m : Nat} {e : Int}

/-- A double is its sign and its magnitude. -/
lemma eq_ofWord_mod (x : Double) :
    x = .ofWord (Format.double.withSign (decide (Format.double.signBit ≤ x.bits.toNat))
      (x.bits.toNat % Format.double.signBit)) := by
  have hlt : x.bits.toNat < 2 * Format.double.signBit := x.bits.toNat_lt
  have hword : Format.double.withSign (decide (Format.double.signBit ≤ x.bits.toNat))
      (x.bits.toNat % Format.double.signBit) = x.bits.toNat := by
    rw [Format.withSign]
    by_cases hsign : Format.double.signBit ≤ x.bits.toNat
    · rw [if_pos (decide_eq_true hsign), Nat.mod_eq_sub_mod hsign, Nat.mod_eq_of_lt (by omega)]
      omega
    · rw [if_neg (by simpa using hsign), Nat.mod_eq_of_lt (by omega)]
  rw [hword]
  exact congrArg Double.mk UInt64.ofNat_toNat.symm

lemma eq_ofWord (h : x.value = .finite negative m e) :
    x = .ofWord (Format.double.withSign negative (x.bits.toNat % Format.double.signBit)) := by
  rw [(Format.denotes_of_decode h).2]
  exact x.eq_ofWord_mod

lemma eq_ofWord_zero (h : x.value = .finite negative 0 e) :
    x = .ofWord (Format.double.withSign negative 0) := by
  obtain ⟨hword, -⟩ := Format.denotes_of_decode h
  have hzero : x.bits.toNat % Format.double.signBit = 0 := by
    have he := hword.normal.resolve_left (Nat.not_le.mpr (Nat.two_pow_pos _))
    rw [hword.word_eq, he, sub_self]
    rfl
  rw [← hzero]
  exact eq_ofWord h

/-- The numeral of a double that is not zero denotes a decimal that is rounded to the double. -/
theorem exists_numeral (h : x.value = .finite negative m e) (hm : m ≠ 0) :
    ∃ n : Numeral, n.WellFormed ∧ n.negative = negative ∧
      x.jsonText? = some (String.ofList n.text) ∧
      Format.double.ofDecimal n.decimal = x.bits.toNat % Format.double.signBit := by
  obtain ⟨hword, -⟩ := Format.denotes_of_decode h
  let d := Format.double.shortest .even (x.bits.toNat % Format.double.signBit)
  have hwritable : (DigitText.ofDecimal d).Writable :=
    DigitText.writable_ofDecimal (Format.exponent_shortest Format.double _ .even)
  refine ⟨(DigitText.ofDecimal d).numeral (-5) 16 negative,
    DigitText.wellFormed_numeral hwritable negative, DigitText.negative_numeral, ?_, ?_⟩
  · have hdecode : Format.double.decode x.bits.toNat = .finite negative m e := h
    obtain ⟨k, rfl⟩ := Nat.exists_eq_succ_of_ne_zero hm
    rw [DigitText.text_numeral hwritable.digits.ne_nil, jsonText?, Format.jsonText?, hdecode]
    rfl
  · rw [Format.ofDecimal_congr (DigitText.value_numeral d)]
    exact Format.ofDecimal_shortest hword (Nat.pos_of_ne_zero hm) .even

/-- The double that the JSON value of a double is read as. -/
def reread? (x : Double) : Option Double := (Json.ofDouble x).toDouble?

/-- The numeral that a double is written as. -/
def numeral? (x : Double) : Option Numeral :=
  x.jsonText?.bind fun text => Numeral.ofText? text.toList

/-- The digits and the power of ten that a double is written with are doubles themselves. -/
def IsShort (x : Double) : Prop :=
  ∃ n ∈ x.numeral?, n.kept.significand < 2 ^ 53 ∧ n.kept.exponent.natAbs ≤ 22

/-- Only finite doubles have a text. -/
lemma exists_value_of_jsonText? {text : String} (h : x.jsonText? = some text) :
    ∃ negative m e, x.value = .finite negative m e := by
  obtain ⟨cs, hcs, -⟩ := Option.map_eq_some_iff.mp h
  exact Format.exists_decode_of_jsonText? hcs

/-- What is not finite is written as null, which is no number. -/
lemma isFinite_of_reread? {y : Double} (h : x.reread? = some y) : x.isFinite = true := by
  unfold reread? Json.ofDouble at h
  split at h
  · rename_i text htext
    obtain ⟨negative, m, e, hx⟩ := exists_value_of_jsonText? htext
    rw [isFinite, hx]
  · cases h

/-- Zeros come back with their sign. -/
lemma reread?_zero (h : x.value = .finite negative 0 e) : x.reread? = some x := by
  rw [eq_ofWord_zero h]
  cases negative <;> decide +kernel

/-- **A short double comes back** from its text. -/
theorem reread?_eq_self (h : x.IsShort) : x.reread? = some x := by
  obtain ⟨n, hn, hs, hk⟩ := h
  obtain ⟨text, htext', -⟩ := Option.bind_eq_some_iff.mp hn
  obtain ⟨negative, m, e, hx⟩ := exists_value_of_jsonText? htext'
  by_cases hm : m = 0
  · subst hm
    exact reread?_zero hx
  obtain ⟨n', hwell, hneg, htext, hround⟩ := exists_numeral hx hm
  have hread : Numeral.ofText? (String.ofList n'.text).toList = some n' := by
    rw [String.toList_ofList, Numeral.ofText?_text hwell]
  have hn' : x.numeral? = some n' := by
    rw [numeral?, htext, Option.bind_some, hread]
  obtain rfl := Option.some.inj (hn'.symm.trans hn)
  rw [← Numeral.kept_eq_decimal hwell hs] at hround
  obtain ⟨hword, -⟩ := Format.denotes_of_decode hx
  have hpos : 0 < n'.kept.significand := by
    refine Nat.pos_of_ne_zero fun hzero => ?_
    rw [Format.ofDecimal, if_pos hzero, hword.word_eq] at hround
    omega
  have hjson : x.reread? = n'.toDouble? := by
    rw [reread?, Json.ofDouble, htext]
    change (Numeral.ofText? _).bind _ = _
    rw [hread, Option.bind_some]
  rw [hjson, Numeral.toDouble?_eq hpos hs hk hword (Nat.pos_of_ne_zero hm) hround, hneg,
    ← eq_ofWord hx]

/-- One and a half is written with two digits. -/
example : IsShort ⟨0x3ff8000000000000⟩ :=
  ⟨⟨false, ['1'], some ['5'], none⟩, by decide +kernel, by decide, by decide⟩

end Double

end EngineFuzz
