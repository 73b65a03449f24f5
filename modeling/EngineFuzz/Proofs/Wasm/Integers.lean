import Mathlib
import EngineFuzz.Execution.Data

/-!
# Integer instructions on numbers

What the integer instructions of WebAssembly compute, told in whole numbers.  A word stands for the
number in its lowest bits, with or without a sign; an instruction computes a whole number from
these, of which the result keeps the lowest bits.  On the way the words are compared with the bit
vectors of the machine.

* `Width.unsigned`, `Width.signed`: the numbers that a word stands for.
* `IntBinaryOp.Traps`, `IntBinaryOp.number`, `IntUnaryOp.Counts`, `IntCompareOp.Holds`: what the
  instructions are to compute.
* `Width.intBinary_eq` and its kind: the words of the reference and the bit vectors of the machine.
* `Width.integers_exact`: they do compute it.
-/

namespace EngineFuzz

namespace Width

/-- The number in the lowest bits of a word. -/
def unsigned (width : Width) (x : UInt64) : ℕ := x.toNat % 2 ^ width.bits

/-- The same bits read in two's complement. -/
def signed (width : Width) (x : UInt64) : ℤ :=
  if 2 * width.unsigned x < 2 ^ width.bits then width.unsigned x
  else width.unsigned x - 2 ^ width.bits

end Width

namespace IntBinaryOp

/-- Whether the instruction gives a quotient or a remainder. -/
def divides : IntBinaryOp → Bool
  | divS | divU | remS | remU => true
  | _ => false

/-- The instruction traps: there is nothing to divide by, or the quotient is too large. -/
def Traps (op : IntBinaryOp) (width : Width) (x y : UInt64) (kind : TrapKind) : Prop :=
  (kind = .integerDivisionByZero ∧ op.divides = true ∧ width.unsigned y = 0) ∨
    (kind = .integerOverflow ∧ op = divS ∧ width.signed x = -2 ^ (width.bits - 1) ∧
      width.signed y = -1)

/-- The whole number of which the result keeps the lowest bits.  A rotation is a shift together with
the bits that the shift loses. -/
def number (op : IntBinaryOp) (width : Width) (x y : UInt64) : ℤ :=
  let count := y.toNat % width.bits
  match op with
  | add => width.unsigned x + width.unsigned y
  | sub => width.unsigned x - width.unsigned y
  | mul => width.unsigned x * width.unsigned y
  | divS => (width.signed x).tdiv (width.signed y)
  | divU => (width.unsigned x / width.unsigned y : ℕ)
  | remS => (width.signed x).tmod (width.signed y)
  | remU => (width.unsigned x % width.unsigned y : ℕ)
  | and => (width.unsigned x &&& width.unsigned y : ℕ)
  | or => (width.unsigned x ||| width.unsigned y : ℕ)
  | xor => (width.unsigned x ^^^ width.unsigned y : ℕ)
  | shl => width.unsigned x * 2 ^ count
  | shrS => width.signed x / 2 ^ count
  | shrU => (width.unsigned x / 2 ^ count : ℕ)
  | rotl => width.unsigned x * 2 ^ count + (width.unsigned x / 2 ^ (width.bits - count) : ℕ)
  | rotr => (width.unsigned x / 2 ^ count : ℕ) + width.unsigned x * 2 ^ (width.bits - count)

end IntBinaryOp

/-- The instruction finds `n` bits of a kind in a number of `w` bits: zeros above the highest one,
zeros below the lowest one, or ones. -/
def IntUnaryOp.Counts (op : IntUnaryOp) (w u n : ℕ) : Prop :=
  match op with
  | clz => IsGreatest {k | k ≤ w ∧ u < 2 ^ (w - k)} n
  | ctz => IsGreatest {k | k ≤ w ∧ 2 ^ k ∣ u} n
  | popcnt => n = ((Finset.range w).filter fun i => u.testBit i = true).card

/-- The comparison holds of two words. -/
def IntCompareOp.Holds (op : IntCompareOp) (width : Width) (x y : UInt64) : Prop :=
  match op with
  | eq => width.unsigned x = width.unsigned y
  | ne => width.unsigned x ≠ width.unsigned y
  | ltS => width.signed x < width.signed y
  | ltU => width.unsigned x < width.unsigned y
  | gtS => width.signed x > width.signed y
  | gtU => width.unsigned x > width.unsigned y
  | leS => width.signed x ≤ width.signed y
  | leU => width.unsigned x ≤ width.unsigned y
  | geS => width.signed x ≥ width.signed y
  | geU => width.unsigned x ≥ width.unsigned y

/-! ### Words as bit vectors -/

section BitVec

variable {w : ℕ} {a b : BitVec w}

/-- A bit vector keeps the lowest bits of the number that it stands for with a sign. -/
lemma toNat_eq_toInt_emod : (a.toNat : ℤ) = a.toInt % 2 ^ w := by
  have h : (a.toNat : ℤ) < ((2 ^ w : ℕ) : ℤ) := by exact_mod_cast a.isLt
  rw [BitVec.toInt_eq_toNat_bmod]
  have hb := Int.bmod_emod (x := (a.toNat : ℤ)) (m := 2 ^ w)
  push_cast at hb h ⊢
  rw [hb, Int.emod_eq_of_lt (Int.natCast_nonneg _) h]

/-- The rest modulo a power of two does not depend on the sign. -/
lemma toNat_smod {k : ℕ} (hk : k ≤ w) (hb : b.toInt = 2 ^ k) :
    (a.smod b).toNat = a.toNat % 2 ^ k := by
  have hsmod : ((a.smod b).toNat : ℤ) = a.toInt % 2 ^ k % 2 ^ w := by
    rw [toNat_eq_toInt_emod, BitVec.toInt_smod, hb, Int.fmod_eq_emod_of_nonneg _ (by positivity)]
  have hlt : a.toInt % 2 ^ k < 2 ^ w :=
    (Int.emod_lt_of_pos _ (by positivity)).trans_le (pow_le_pow_right₀ (by norm_num) hk)
  have hmod : ((a.toNat % 2 ^ k : ℕ) : ℤ) = a.toInt % 2 ^ k := by
    push_cast
    rw [toNat_eq_toInt_emod, Int.emod_emod_of_dvd _ (pow_dvd_pow 2 hk)]
  rw [Int.emod_eq_of_lt (Int.emod_nonneg _ (by positivity)) hlt, ← hmod] at hsmod
  exact_mod_cast hsmod

end BitVec

namespace IntBinaryOp

/-- The instruction on 32-bit words, on their bits. -/
lemma toBitVec_onWords32 (op : IntBinaryOp) (x y : UInt32) :
    (op.onWords32 x y).map (·.toBitVec) = op.eval x.toBitVec y.toBitVec := by
  have hzero : y = 0 ↔ y.toBitVec = 0 := UInt32.toBitVec_inj.symm
  have hsigned : y.toInt32 = 0 ↔ y.toBitVec = 0 := Int32.toBitVec_inj.symm
  have hmin : x.toInt32 = Int32.minValue ↔ x.toBitVec = BitVec.intMin 32 := Int32.toBitVec_inj.symm
  have hones : y.toInt32 = -1 ↔ y.toBitVec = BitVec.allOnes 32 := Int32.toBitVec_inj.symm
  cases op with
  | divS =>
      simp only [onWords32, eval, hsigned, hmin, hones]
      split_ifs <;> rfl
  | remS =>
      simp only [onWords32, eval, hsigned]
      split_ifs <;> rfl
  | divU | remU =>
      simp only [onWords32, eval, hzero]
      split_ifs <;> rfl
  | shrS =>
      have hcount : (y.toBitVec.smod 32#32).toNat = y.toNat % 32 :=
        toNat_smod (k := 5) (by decide) (by decide)
      simp [onWords32, eval, Except.map, hcount]
  | shl | shrU | rotl | rotr => simp [onWords32, eval, Except.map]
  | _ => rfl

/-- The instruction on 64-bit words, on their bits. -/
lemma toBitVec_onWords64 (op : IntBinaryOp) (x y : UInt64) :
    (op.onWords64 x y).map (·.toBitVec) = op.eval x.toBitVec y.toBitVec := by
  have hzero : y = 0 ↔ y.toBitVec = 0 := UInt64.toBitVec_inj.symm
  have hsigned : y.toInt64 = 0 ↔ y.toBitVec = 0 := Int64.toBitVec_inj.symm
  have hmin : x.toInt64 = Int64.minValue ↔ x.toBitVec = BitVec.intMin 64 := Int64.toBitVec_inj.symm
  have hones : y.toInt64 = -1 ↔ y.toBitVec = BitVec.allOnes 64 := Int64.toBitVec_inj.symm
  -- counts are cut to 32 bits, which keeps their rest modulo the width
  have hcut : y.toNat % 64 % 4294967296 = y.toNat % 64 := by omega
  cases op with
  | divS =>
      simp only [onWords64, eval, hsigned, hmin, hones]
      split_ifs <;> rfl
  | remS =>
      simp only [onWords64, eval, hsigned]
      split_ifs <;> rfl
  | divU | remU =>
      simp only [onWords64, eval, hzero]
      split_ifs <;> rfl
  | shrS =>
      have hcount : ((y.toBitVec % 4294967296#64).smod 64#64).toNat =
          (y.toBitVec % 4294967296#64).toNat % 64 := toNat_smod (k := 6) (by decide) (by decide)
      simp [onWords64, eval, Except.map, hcount, Nat.mod_mod_of_dvd]
  | shl | shrU => simp [onWords64, eval, Except.map]
  | rotl | rotr => simp [onWords64, eval, Except.map, hcut]
  | _ => rfl

end IntBinaryOp

section Counts

variable {w : ℕ} {x : BitVec w}

lemma clzAuxRec_eq {n : ℕ} (h : n < w) :
    x.clzAuxRec n = .ofNat w (w - 1 - n + leadingZeros x (n + 1)) := by
  induction n with
  | zero =>
      rw [BitVec.clzAuxRec, leadingZeros]
      split
      · rfl
      · exact congrArg (BitVec.ofNat w) (by simp only [leadingZeros]; omega)
  | succ n ih =>
      rw [BitVec.clzAuxRec, leadingZeros]
      split
      · rfl
      · rw [ih (by omega)]
        exact congrArg (BitVec.ofNat w) (by omega)

lemma clz_eq (hw : 0 < w) : x.clz = .ofNat w (leadingZeros x w) := by
  rw [BitVec.clz, clzAuxRec_eq (by omega), Nat.sub_self, Nat.zero_add, Nat.sub_add_cancel hw]

lemma leadingZeros_reverse {i n : ℕ} (h : i + n = w) :
    leadingZeros x.reverse n = trailingZeros x i n := by
  induction n generalizing i with
  | zero => rfl
  | succ n ih =>
      have hbit : x.reverse.getLsbD n = x.getLsbD i := by
        rw [BitVec.getLsbD_reverse, BitVec.getMsbD_eq_getLsbD, decide_eq_true (by omega),
          Bool.true_and]
        exact congrArg x.getLsbD (by omega)
      have hrest : i + 1 + n = w := by omega
      rw [leadingZeros, trailingZeros, hbit, ih hrest]

lemma cpopNatRec_eq {n count : ℕ} : x.cpopNatRec n count = count + onesCount x n := by
  induction n generalizing count with
  | zero => rfl
  | succ n ih => rw [BitVec.cpopNatRec_succ, ih, onesCount, Nat.add_assoc]

/-- The library counts bits as the machine does. -/
lemma IntUnaryOp.eval_eq (hw : 0 < w) :
    clz.eval x = x.clz ∧ ctz.eval x = x.ctz ∧ popcnt.eval x = x.cpop := by
  refine ⟨(clz_eq hw).symm, ?_, ?_⟩
  · rw [BitVec.ctz, clz_eq hw, leadingZeros_reverse (Nat.zero_add w)]
    rfl
  · rw [BitVec.cpop, cpopNatRec_eq, Nat.zero_add]
    rfl

end Counts

namespace IntUnaryOp

/-- The instruction on a 32-bit word, on its bits. -/
lemma toBitVec_onWords32 (op : IntUnaryOp) (x : UInt32) :
    (op.onWords32 x).toBitVec = op.eval x.toBitVec := by
  obtain ⟨hclz, hctz, hpopcnt⟩ := eval_eq (x := x.toBitVec) (by decide)
  cases op with
  | clz => exact hclz.symm
  | ctz => exact hctz.symm
  | popcnt => exact hpopcnt.symm

/-- The instruction on a 64-bit word, on its bits. -/
lemma toBitVec_onWords64 (op : IntUnaryOp) (x : UInt64) :
    (op.onWords64 x).toBitVec = op.eval x.toBitVec := by
  obtain ⟨hclz, hctz, hpopcnt⟩ := eval_eq (x := x.toBitVec) (by decide)
  cases op with
  | clz => exact hclz.symm
  | ctz => exact hctz.symm
  | popcnt => exact hpopcnt.symm

end IntUnaryOp

/-- A comparison of words that stand for the same numbers as some bit vectors. -/
lemma IntCompareOp.onWords_eq (op : IntCompareOp) {w : ℕ} {a b : BitVec w} {x y : UInt64}
    {sx sy : Int64} (hx : x.toNat = a.toNat) (hy : y.toNat = b.toNat) (hsx : sx.toInt = a.toInt)
    (hsy : sy.toInt = b.toInt) : op.onWords x y sx sy = op.eval a b := by
  have heq : x = y ↔ a = b := by rw [← UInt64.toNat_inj, hx, hy, BitVec.toNat_inj]
  cases op with
  | eq => exact Bool.eq_iff_iff.mpr (by rw [onWords, eval, beq_iff_eq, beq_iff_eq, heq])
  | ne => exact Bool.eq_iff_iff.mpr (by rw [onWords, eval, bne_iff_ne, bne_iff_ne, ne_eq, heq])
  | ltS | gtS => simp only [onWords, eval, gt_iff_lt, Int64.lt_iff_toInt_lt, BitVec.slt, hsx, hsy]
  | leS | geS => simp only [onWords, eval, ge_iff_le, Int64.le_iff_toInt_le, BitVec.sle, hsx, hsy]
  | ltU | gtU => simp only [onWords, eval, gt_iff_lt, UInt64.lt_iff_toNat_lt, BitVec.ult, hx, hy]
  | leU | geU => simp only [onWords, eval, ge_iff_le, UInt64.le_iff_toNat_le, BitVec.ule, hx, hy]

namespace Width

/-- The integer in the low bits of a word. -/
def ofWord (width : Width) (x : UInt64) : BitVec width.bits := .ofNat _ x.toNat

/-- The word of an integer, with zeros above. -/
def toWord {width : Width} (b : BitVec width.bits) : UInt64 := b.toNat.toUInt64

variable {width : Width} {x y : UInt64}

lemma toNat_ofWord : (width.ofWord x).toNat = width.unsigned x := BitVec.toNat_ofNat ..

lemma toInt_ofWord : (width.ofWord x).toInt = width.signed x := by
  rw [BitVec.toInt_eq_toNat_cond, toNat_ofWord, signed]
  norm_cast

/-- A bit vector of the width fits into a word. -/
lemma toNat_toWord {b : BitVec width.bits} : (toWord b).toNat = b.toNat := by
  have hb : b.toNat < 2 ^ 64 :=
    b.isLt.trans_le (Nat.pow_le_pow_right Nat.two_pos (by cases width <;> decide))
  rw [toWord, Nat.toUInt64_eq, UInt64.toNat_ofNat_of_lt' hb]

/-- The count of a shift may be taken from the whole word. -/
lemma unsigned_mod_bits : width.unsigned y % width.bits = y.toNat % width.bits :=
  Nat.mod_mod_of_dvd _ (by cases width <;> decide)

/-- The lowest bits of a word are all that counts. -/
lemma ofWord_congr {x' : UInt64} (h : width.unsigned x' = width.unsigned x) :
    width.ofWord x' = width.ofWord x :=
  BitVec.eq_of_toNat_eq (by rw [toNat_ofWord, toNat_ofWord, h])

lemma ofWord_bits32 : bits32.ofWord x = x.toUInt32.toBitVec :=
  BitVec.eq_of_toNat_eq (by rw [toNat_ofWord, unsigned]; simp [bits])

lemma ofWord_bits64 : bits64.ofWord x = x.toBitVec :=
  BitVec.eq_of_toNat_eq (by rw [toNat_ofWord, unsigned]; simp [bits])

lemma toWord_bits32 {z : UInt32} : @toWord bits32 z.toBitVec = z.toUInt64 :=
  UInt64.toNat_inj.mp ((@toNat_toWord bits32 z.toBitVec).trans (UInt32.toNat_toUInt64 z).symm)

lemma toWord_bits64 {z : UInt64} : @toWord bits64 z.toBitVec = z :=
  UInt64.toNat_inj.mp (@toNat_toWord bits64 z.toBitVec)

/-- **Instructions on words and on bit vectors.** -/
lemma intBinary_eq {op : IntBinaryOp} :
    width.intBinary op x y = (op.eval (width.ofWord x) (width.ofWord y)).map toWord := by
  cases width with
  | bits32 =>
      rw [ofWord_bits32, ofWord_bits32]
      change _ = Except.map _ (IntBinaryOp.eval op x.toUInt32.toBitVec y.toUInt32.toBitVec)
      rw [← IntBinaryOp.toBitVec_onWords32, intBinary]
      cases op.onWords32 x.toUInt32 y.toUInt32 with
      | error => rfl
      | ok z => exact congrArg Except.ok toWord_bits32.symm
  | bits64 =>
      rw [ofWord_bits64, ofWord_bits64]
      change _ = Except.map _ (IntBinaryOp.eval op x.toBitVec y.toBitVec)
      rw [← IntBinaryOp.toBitVec_onWords64, intBinary]
      cases op.onWords64 x y with
      | error => rfl
      | ok z => exact congrArg Except.ok toWord_bits64.symm

lemma intUnary_eq {op : IntUnaryOp} : width.intUnary op x = toWord (op.eval (width.ofWord x)) := by
  cases width with
  | bits32 =>
      rw [ofWord_bits32]
      exact toWord_bits32.symm.trans (congrArg toWord (op.toBitVec_onWords32 x.toUInt32))
  | bits64 =>
      rw [ofWord_bits64]
      exact toWord_bits64.symm.trans (congrArg toWord (op.toBitVec_onWords64 x))

lemma intEqz_iff : width.intEqz x = true ↔ width.unsigned x = 0 := by
  cases width with
  | bits32 =>
      refine beq_iff_eq.trans (UInt32.toNat_inj.symm.trans ?_)
      rw [UInt64.toNat_toUInt32]
      rfl
  | bits64 =>
      refine beq_iff_eq.trans (UInt64.toNat_inj.symm.trans ?_)
      rw [unsigned, Nat.mod_eq_of_lt (show x.toNat < 2 ^ bits64.bits from x.toNat_lt)]
      rfl

lemma intEqz_eq : width.intEqz x = (width.ofWord x == 0) := by
  refine Bool.eq_iff_iff.mpr (intEqz_iff.trans ?_)
  rw [beq_iff_eq, ← BitVec.toNat_inj, toNat_ofWord]
  rfl

lemma intCompare_eq {op : IntCompareOp} :
    width.intCompare op x y = op.eval (width.ofWord x) (width.ofWord y) := by
  cases width with
  | bits32 =>
      rw [ofWord_bits32, ofWord_bits32]
      exact op.onWords_eq (UInt32.toNat_toUInt64 _) (UInt32.toNat_toUInt64 _)
        (Int32.toInt_toInt64 _) (Int32.toInt_toInt64 _)
  | bits64 =>
      rw [ofWord_bits64, ofWord_bits64]
      exact op.onWords_eq rfl rfl rfl rfl

end Width

/-! ### Results -/

section BitVec

variable {w : ℕ} {a b : BitVec w}

/-- A number that fits keeps all its bits. -/
lemma emod_eq_of_eq_toNat {n : ℕ} (h : a.toNat = n) : (a.toNat : ℤ) = (n : ℤ) % 2 ^ w := by
  subst h
  rw [Int.emod_eq_of_lt (Int.natCast_nonneg _) (by exact_mod_cast a.isLt)]

/-- The bits that a rotation moves to the low end do not meet the others. -/
lemma shift_or_eq_add {n k : ℕ} (hk : k ≤ w) (hn : n < 2 ^ w) :
    n <<< k % 2 ^ w ||| n >>> (w - k) = (n * 2 ^ k + n / 2 ^ (w - k)) % 2 ^ w := by
  have hsplit : 2 ^ w = 2 ^ k * 2 ^ (w - k) := by rw [← pow_add, Nat.add_sub_cancel' hk]
  have hlow : n / 2 ^ (w - k) < 2 ^ k := by
    rw [Nat.div_lt_iff_lt_mul (Nat.two_pow_pos _), ← hsplit]
    exact hn
  have hhigh : n * 2 ^ k % 2 ^ w = 2 ^ k * (n % 2 ^ (w - k)) := by
    rw [hsplit, Nat.mul_comm n, Nat.mul_mod_mul_left]
  rw [Nat.shiftLeft_eq, Nat.shiftRight_eq_div_pow, hhigh, ← Nat.two_pow_add_eq_or_of_lt hlow,
    Nat.add_mod, hhigh]
  have hmod : n % 2 ^ (w - k) < 2 ^ (w - k) := Nat.mod_lt _ (Nat.two_pow_pos _)
  have hfit : 2 ^ k * (n % 2 ^ (w - k)) + n / 2 ^ (w - k) < 2 ^ w := by
    rw [hsplit]
    nlinarith [Nat.mul_le_mul_left (2 ^ k) (Nat.succ_le_of_lt hmod)]
  have hle : n / 2 ^ (w - k) < 2 ^ w := by omega
  rw [Nat.mod_eq_of_lt hle, Nat.mod_eq_of_lt hfit]

end BitVec

namespace IntBinaryOp

variable {w : ℕ} {a b : BitVec w} {op : IntBinaryOp}

/-- **Traps**, on bit vectors. -/
lemma eval_eq_error_iff (hw : 0 < w) {kind : TrapKind} : op.eval a b = .error kind ↔
    (kind = .integerDivisionByZero ∧ op.divides = true ∧ b.toNat = 0) ∨
      (kind = .integerOverflow ∧ op = divS ∧ a.toInt = -2 ^ (w - 1) ∧ b.toInt = -1) := by
  have hzero : b = 0 ↔ b.toNat = 0 := by
    rw [← BitVec.toNat_inj]
    simp
  have hmin : a = BitVec.intMin w ↔ a.toInt = -2 ^ (w - 1) := by
    rw [← BitVec.toInt_inj, BitVec.toInt_intMin,
      Nat.mod_eq_of_lt (Nat.pow_lt_pow_right Nat.one_lt_two (Nat.sub_lt hw Nat.one_pos))]
    norm_cast
  have hones : b = BitVec.allOnes w ↔ b.toInt = -1 := by
    rw [← BitVec.toInt_inj, BitVec.toInt_allOnes, if_pos hw]
  cases op with
  | divS =>
      simp only [eval]
      split_ifs with hb ho
      · refine ⟨fun h => .inl ⟨(Except.error.inj h).symm, rfl, hzero.mp hb⟩, ?_⟩
        rintro (⟨rfl, -⟩ | ⟨-, -, -, hy⟩)
        · rfl
        · simp [hb] at hy
      · refine ⟨fun h => .inr ⟨(Except.error.inj h).symm, trivial, hmin.mp ho.1, hones.mp ho.2⟩, ?_⟩
        rintro (⟨-, -, hy⟩ | ⟨rfl, -⟩)
        · exact absurd (hzero.mpr hy) hb
        · rfl
      · refine ⟨fun h => (by cases h), ?_⟩
        rintro (⟨-, -, hy⟩ | ⟨-, -, hx, hy⟩)
        · exact absurd (hzero.mpr hy) hb
        · exact absurd ⟨hmin.mpr hx, hones.mpr hy⟩ ho
  | divU | remS | remU =>
      simp only [eval]
      split_ifs with hb
      · refine ⟨fun h => .inl ⟨(Except.error.inj h).symm, rfl, hzero.mp hb⟩, ?_⟩
        rintro (⟨rfl, -⟩ | ⟨-, hop, -⟩)
        · rfl
        · cases hop
      · refine ⟨fun h => (by cases h), ?_⟩
        rintro (⟨-, -, hy⟩ | ⟨-, hop, -⟩)
        · exact absurd (hzero.mpr hy) hb
        · cases hop
  | _ => simp [eval, divides]

end IntBinaryOp

namespace Width

variable {width : Width} {x y : UInt64} {op : IntBinaryOp}

/-- **Results**, on bit vectors: they keep the lowest bits of the number. -/
lemma toNat_of_eval_eq_ok {z : BitVec width.bits}
    (h : op.eval (width.ofWord x) (width.ofWord y) = .ok z) :
    (z.toNat : ℤ) = op.number width x y % 2 ^ width.bits := by
  have hcount : y.toNat % width.bits < width.bits :=
    Nat.mod_lt _ (by cases width <;> decide)
  have hx : width.unsigned x < 2 ^ width.bits := Nat.mod_lt _ (Nat.two_pow_pos _)
  cases op with
  | add =>
      cases h
      rw [BitVec.toNat_add, toNat_ofWord, toNat_ofWord]
      push_cast
      rfl
  | sub =>
      cases h
      have hle : width.unsigned y ≤ 2 ^ width.bits := (Nat.mod_lt _ (Nat.two_pow_pos _)).le
      rw [BitVec.toNat_sub, toNat_ofWord, toNat_ofWord]
      push_cast [hle]
      rw [IntBinaryOp.number, Int.emod_eq_emod_iff_emod_sub_eq_zero]
      ring_nf
      simp
  | mul =>
      cases h
      rw [BitVec.toNat_mul, toNat_ofWord, toNat_ofWord]
      push_cast
      rfl
  | divS =>
      simp only [IntBinaryOp.eval] at h
      split_ifs at h with hy ho
      cases h
      have hne : width.ofWord x ≠ BitVec.intMin _ ∨ width.ofWord y ≠ -1#_ := by
        rw [BitVec.neg_one_eq_allOnes]
        exact not_and_or.mp ho
      rw [toNat_eq_toInt_emod, BitVec.toInt_sdiv_of_ne_or_ne _ _ hne, toInt_ofWord, toInt_ofWord]
      rfl
  | remS =>
      simp only [IntBinaryOp.eval] at h
      split_ifs at h with hy
      cases h
      rw [toNat_eq_toInt_emod, BitVec.toInt_srem, toInt_ofWord, toInt_ofWord]
      rfl
  | divU =>
      simp only [IntBinaryOp.eval] at h
      split_ifs at h with hy
      cases h
      exact emod_eq_of_eq_toNat (by rw [BitVec.toNat_udiv, toNat_ofWord, toNat_ofWord])
  | remU =>
      simp only [IntBinaryOp.eval] at h
      split_ifs at h with hy
      cases h
      exact emod_eq_of_eq_toNat (by rw [BitVec.toNat_umod, toNat_ofWord, toNat_ofWord])
  | and =>
      cases h
      exact emod_eq_of_eq_toNat (by rw [BitVec.toNat_and, toNat_ofWord, toNat_ofWord])
  | or =>
      cases h
      exact emod_eq_of_eq_toNat (by rw [BitVec.toNat_or, toNat_ofWord, toNat_ofWord])
  | xor =>
      cases h
      exact emod_eq_of_eq_toNat (by rw [BitVec.toNat_xor, toNat_ofWord, toNat_ofWord])
  | shl =>
      cases h
      rw [BitVec.toNat_shiftLeft, toNat_ofWord, toNat_ofWord, unsigned_mod_bits, Nat.shiftLeft_eq]
      push_cast
      rfl
  | shrS =>
      cases h
      rw [toNat_eq_toInt_emod, BitVec.toInt_sshiftRight, toInt_ofWord, toNat_ofWord,
        unsigned_mod_bits, Int.shiftRight_eq_div_pow]
      push_cast
      rfl
  | shrU =>
      cases h
      refine emod_eq_of_eq_toNat ?_
      rw [BitVec.toNat_ushiftRight, toNat_ofWord, toNat_ofWord, unsigned_mod_bits,
        Nat.shiftRight_eq_div_pow]
  | rotl =>
      cases h
      rw [BitVec.toNat_rotateLeft, toNat_ofWord, toNat_ofWord, Nat.mod_mod, unsigned_mod_bits,
        shift_or_eq_add hcount.le hx]
      push_cast
      rfl
  | rotr =>
      cases h
      have hback : width.bits - (width.bits - y.toNat % width.bits) = y.toNat % width.bits :=
        Nat.sub_sub_self hcount.le
      rw [BitVec.toNat_rotateRight, toNat_ofWord, toNat_ofWord, Nat.mod_mod, unsigned_mod_bits,
        Nat.or_comm]
      nth_rewrite 2 [← hback]
      rw [shift_or_eq_add (Nat.sub_le ..) hx, hback, Nat.add_comm]
      push_cast
      rfl

end Width

/-! ### Counts of bits -/

section Counts

variable {w : ℕ} {x : BitVec w}

lemma leadingZeros_isGreatest (n : ℕ) :
    IsGreatest {k | k ≤ n ∧ x.toNat % 2 ^ n < 2 ^ (n - k)} (leadingZeros x n) := by
  induction n with
  | zero => exact ⟨⟨le_rfl, by simp [Nat.mod_one]⟩, fun k hk => hk.1⟩
  | succ n ih =>
      have hbit : x.toNat % 2 ^ (n + 1) = 2 ^ n * (x.getLsbD n).toNat + x.toNat % 2 ^ n := by
        rw [Nat.mod_pow_succ, BitVec.getLsbD, Nat.toNat_testBit, Nat.add_comm]
      rw [leadingZeros]
      cases hx : x.getLsbD n with
      | true =>
          rw [if_pos rfl]
          refine ⟨⟨Nat.zero_le _, Nat.mod_lt _ (Nat.two_pow_pos _)⟩, fun k hk => ?_⟩
          obtain ⟨hk, hlt⟩ := hk
          rw [hbit, hx, Bool.toNat_true, Nat.mul_one] at hlt
          have hpow : n < n + 1 - k := (Nat.pow_lt_pow_iff_right Nat.one_lt_two).mp (by omega)
          omega
      | false =>
          rw [if_neg Bool.false_ne_true]
          rw [hx, Bool.toNat_false, Nat.mul_zero, Nat.zero_add] at hbit
          obtain ⟨⟨hle, hlt⟩, hmost⟩ := ih
          refine ⟨⟨by omega, by rw [hbit, Nat.add_sub_add_right]; exact hlt⟩, fun k hk => ?_⟩
          obtain ⟨hk, hlt⟩ := hk
          cases k with
          | zero => exact Nat.zero_le _
          | succ k =>
              rw [hbit, Nat.add_sub_add_right] at hlt
              exact Nat.succ_le_succ (hmost ⟨Nat.le_of_succ_le_succ hk, hlt⟩)

lemma trailingZeros_isGreatest (i n : ℕ) :
    IsGreatest {k | k ≤ n ∧ 2 ^ k ∣ x.toNat / 2 ^ i} (trailingZeros x i n) := by
  induction n generalizing i with
  | zero => exact ⟨⟨le_rfl, one_dvd _⟩, fun k hk => hk.1⟩
  | succ n ih =>
      have hbit : x.toNat / 2 ^ i % 2 = (x.getLsbD i).toNat := by
        rw [BitVec.getLsbD, Nat.toNat_testBit]
      have hhalf : x.toNat / 2 ^ i / 2 = x.toNat / 2 ^ (i + 1) := by
        rw [Nat.div_div_eq_div_mul, pow_succ]
      rw [trailingZeros]
      cases hx : x.getLsbD i with
      | true =>
          rw [hx, Bool.toNat_true] at hbit
          rw [if_pos rfl]
          refine ⟨⟨Nat.zero_le _, one_dvd _⟩, fun k hk => ?_⟩
          obtain ⟨-, hdvd⟩ := hk
          by_contra hpos
          have htwo := (dvd_pow_self 2 (Nat.not_le.mp hpos).ne').trans hdvd
          omega
      | false =>
          rw [hx, Bool.toNat_false] at hbit
          have heven : x.toNat / 2 ^ i = 2 * (x.toNat / 2 ^ (i + 1)) := by omega
          have hstep : ∀ k, 2 ^ (k + 1) ∣ x.toNat / 2 ^ i ↔ 2 ^ k ∣ x.toNat / 2 ^ (i + 1) := by
            intro k
            rw [heven, pow_succ', Nat.mul_dvd_mul_iff_left Nat.two_pos]
          obtain ⟨⟨hle, hdvd⟩, hmost⟩ := ih (i + 1)
          rw [if_neg Bool.false_ne_true]
          refine ⟨⟨by omega, (hstep _).mpr hdvd⟩, fun k hk => ?_⟩
          obtain ⟨hk, hdvd⟩ := hk
          cases k with
          | zero => exact Nat.zero_le _
          | succ k =>
              exact Nat.succ_le_succ (hmost ⟨Nat.le_of_succ_le_succ hk, (hstep k).mp hdvd⟩)

lemma onesCount_eq (n : ℕ) :
    onesCount x n = ((Finset.range n).filter fun i => x.toNat.testBit i = true).card := by
  induction n with
  | zero => rfl
  | succ n ih =>
      rw [onesCount, ih, Finset.range_add_one, Finset.filter_insert, BitVec.getLsbD]
      cases hx : x.toNat.testBit n with
      | true =>
          rw [if_pos rfl, Finset.card_insert_of_notMem (by simp), Bool.toNat_true, Nat.add_comm]
      | false => rw [if_neg Bool.false_ne_true, Bool.toNat_false, Nat.zero_add]

/-- **Counts**, on bit vectors. -/
lemma IntUnaryOp.counts_eval (op : IntUnaryOp) : op.Counts w x.toNat (op.eval x).toNat := by
  have hw : w < 2 ^ w := Nat.lt_two_pow_self
  have hx : x.toNat % 2 ^ w = x.toNat := Nat.mod_eq_of_lt x.isLt
  cases op with
  | clz =>
      have h := leadingZeros_isGreatest (x := x) w
      rw [hx] at h
      rwa [eval, BitVec.toNat_ofNat, Nat.mod_eq_of_lt (h.1.1.trans_lt hw)]
  | ctz =>
      have h := trailingZeros_isGreatest (x := x) 0 w
      rw [pow_zero, Nat.div_one] at h
      rwa [eval, BitVec.toNat_ofNat, Nat.mod_eq_of_lt (h.1.1.trans_lt hw)]
  | popcnt =>
      have hle : onesCount x w ≤ w := by
        rw [onesCount_eq]
        exact (Finset.card_filter_le ..).trans (Finset.card_range w).le
      rw [eval, BitVec.toNat_ofNat, Nat.mod_eq_of_lt (hle.trans_lt hw)]
      exact onesCount_eq w

end Counts

namespace Width

variable {width : Width} {x y : UInt64}

/-- **Comparisons.** -/
lemma intCompare_iff {op : IntCompareOp} :
    width.intCompare op x y = true ↔ op.Holds width x y := by
  have heq : width.ofWord x = width.ofWord y ↔ width.unsigned x = width.unsigned y := by
    rw [← BitVec.toNat_inj, toNat_ofWord, toNat_ofWord]
  rw [intCompare_eq]
  cases op with
  | eq => exact beq_iff_eq.trans heq
  | ne => exact bne_iff_ne.trans heq.not
  | ltS | gtS =>
      rw [IntCompareOp.eval, BitVec.slt_iff_toInt_lt, toInt_ofWord, toInt_ofWord]
      rfl
  | ltU | gtU =>
      rw [IntCompareOp.eval, BitVec.ult_iff_toNat_lt, toNat_ofWord, toNat_ofWord]
      rfl
  | leS | geS =>
      rw [IntCompareOp.eval, BitVec.sle_iff_toInt_le, toInt_ofWord, toInt_ofWord]
      rfl
  | leU | geU =>
      rw [IntCompareOp.eval, BitVec.ule_iff_toNat_le, toNat_ofWord, toNat_ofWord]
      rfl

lemma intBinary_eq_error_iff {op : IntBinaryOp} {kind : TrapKind} :
    width.intBinary op x y = .error kind ↔ op.Traps width x y kind := by
  have hw : 0 < width.bits := by cases width <;> decide
  have hmap : width.intBinary op x y = .error kind ↔
      op.eval (width.ofWord x) (width.ofWord y) = .error kind := by
    rw [intBinary_eq]
    cases op.eval (width.ofWord x) (width.ofWord y) <;> simp [Except.map]
  rw [hmap, IntBinaryOp.eval_eq_error_iff hw, toNat_ofWord, toInt_ofWord, toInt_ofWord]
  rfl

lemma toNat_of_intBinary_eq_ok {op : IntBinaryOp} {z : UInt64}
    (h : width.intBinary op x y = .ok z) :
    (z.toNat : ℤ) = op.number width x y % 2 ^ width.bits := by
  rw [intBinary_eq] at h
  cases he : op.eval (width.ofWord x) (width.ofWord y) with
  | error kind =>
      rw [he] at h
      cases h
  | ok b =>
      rw [he] at h
      cases h
      rw [toNat_toWord]
      exact toNat_of_eval_eq_ok he

/-- **The integer instructions compute what they are to compute**: they trap on the inputs that
`IntBinaryOp.Traps` lists and on no others, results keep the lowest bits of the number that the
instruction computes, and the bits of the operands above the width do not matter. -/
theorem integers_exact (width : Width) (x y : UInt64) :
    (∀ op kind, width.intBinary op x y = .error kind ↔ op.Traps width x y kind) ∧
    (∀ op z, width.intBinary op x y = .ok z →
      (z.toNat : ℤ) = op.number width x y % 2 ^ width.bits ∧ z.toNat < 2 ^ width.bits) ∧
    (∀ op, op.Counts width.bits (width.unsigned x) (width.intUnary op x).toNat ∧
      (width.intUnary op x).toNat < 2 ^ width.bits) ∧
    (∀ op, width.intCompare op x y = true ↔ op.Holds width x y) ∧
    (width.intEqz x = true ↔ width.unsigned x = 0) ∧
    ∀ x' y', width.unsigned x' = width.unsigned x → width.unsigned y' = width.unsigned y →
      (∀ op, width.intBinary op x' y' = width.intBinary op x y) ∧
      (∀ op, width.intUnary op x' = width.intUnary op x) ∧
      (∀ op, width.intCompare op x' y' = width.intCompare op x y) ∧
      width.intEqz x' = width.intEqz x := by
  refine ⟨fun op kind => intBinary_eq_error_iff, fun op z h => ?_, fun op => ?_,
    fun op => intCompare_iff, intEqz_iff, fun x' y' hx hy => ?_⟩
  · have hz := toNat_of_intBinary_eq_ok h
    have hlt : op.number width x y % 2 ^ width.bits < 2 ^ width.bits :=
      Int.emod_lt_of_pos _ (by positivity)
    refine ⟨hz, ?_⟩
    rw [← hz] at hlt
    exact_mod_cast hlt
  · rw [intUnary_eq, toNat_toWord, ← toNat_ofWord]
    exact ⟨op.counts_eval, BitVec.isLt _⟩
  · have hx' := ofWord_congr hx
    have hy' := ofWord_congr hy
    simp only [intBinary_eq, intUnary_eq, intCompare_eq, intEqz_eq, hx', hy', implies_true,
      and_self]

/-- The least number divided by minus one is too large at its own width, and not when it stands in
the lower half of a word. -/
theorem integers_exact_minimum :
    bits32.intBinary .divS 0x80000000 0xffffffff = .error .integerOverflow ∧
    bits64.intBinary .divS 0x80000000 0xffffffffffffffff = .ok 0xffffffff80000000 ∧
    bits32.intUnary .ctz 0x100000000 = bits32.intUnary .ctz 0 := by
  refine ⟨((integers_exact .bits32 0x80000000 0xffffffff).1 .divS .integerOverflow).mpr
    (.inr ⟨rfl, rfl, by decide, by decide⟩), by decide, ?_⟩
  exact ((integers_exact .bits32 0 0).2.2.2.2.2 0x100000000 0 (by decide) rfl).2.1 .ctz

end Width

end EngineFuzz
