import EngineFuzz.Float.Arithmetic
import EngineFuzz.Program.Operator
import EngineFuzz.Wasm.Trap

/-!
# Numeric instructions

What the numeric instructions of WebAssembly compute, as a reference for those that run them.  The
words that the instructions take and give are 64 bits wide.  Integer instructions of 32 bits work on
the low halves of their operands and put zeros above the result.  Floating-point instructions are
computed on doubles; at 32 bits the operands and the result are rounded to singles.

* `Width.intBinary`, `Width.intUnary`, `Width.intEqz`, `Width.intCompare`: on words.
* `FloatBinaryOp.eval`, `FloatUnaryOp.eval`, `FloatCompareOp.eval`: on doubles.
-/

namespace EngineFuzz

namespace IntBinaryOp

/-- The instruction on 32-bit words.  Division and remainder trap on a divisor of zero, and signed
division on the one quotient that is too large. -/
def onWords32 (op : IntBinaryOp) (x y : UInt32) : Except TrapKind UInt32 :=
  let sx := x.toInt32
  let sy := y.toInt32
  match op with
  | add => .ok (x + y)
  | sub => .ok (x - y)
  | mul => .ok (x * y)
  | divS =>
    if sy = 0 then .error .integerDivisionByZero
    else if sx = Int32.minValue ∧ sy = -1 then .error .integerOverflow
    else .ok (sx / sy).toUInt32
  | divU => if y = 0 then .error .integerDivisionByZero else .ok (x / y)
  | remS => if sy = 0 then .error .integerDivisionByZero else .ok (sx % sy).toUInt32
  | remU => if y = 0 then .error .integerDivisionByZero else .ok (x % y)
  | and => .ok (x &&& y)
  | or => .ok (x ||| y)
  | xor => .ok (x ^^^ y)
  -- the operators of shifts count modulo the width
  | shl => .ok (x <<< y)
  | shrS => .ok (sx >>> sy).toUInt32
  | shrU => .ok (x >>> y)
  | rotl => .ok (.ofBitVec (x.toBitVec.rotateLeft (y % 32).toNat))
  | rotr => .ok (.ofBitVec (x.toBitVec.rotateRight (y % 32).toNat))

/-- The instruction on 64-bit words, with the same traps.  The counts of shifts and rotations are
32-bit words. -/
def onWords64 (op : IntBinaryOp) (x y : UInt64) : Except TrapKind UInt64 :=
  let sx := x.toInt64
  let sy := y.toInt64
  match op with
  | add => .ok (x + y)
  | sub => .ok (x - y)
  | mul => .ok (x * y)
  | divS =>
    if sy = 0 then .error .integerDivisionByZero
    else if sx = Int64.minValue ∧ sy = -1 then .error .integerOverflow
    else .ok (sx / sy).toUInt64
  | divU => if y = 0 then .error .integerDivisionByZero else .ok (x / y)
  | remS => if sy = 0 then .error .integerDivisionByZero else .ok (sx % sy).toUInt64
  | remU => if y = 0 then .error .integerDivisionByZero else .ok (x % y)
  | and => .ok (x &&& y)
  | or => .ok (x ||| y)
  | xor => .ok (x ^^^ y)
  | shl => .ok (x <<< y.toUInt32.toUInt64)
  | shrS => .ok (sx >>> y.toUInt32.toUInt64.toInt64).toUInt64
  | shrU => .ok (x >>> y.toUInt32.toUInt64)
  | rotl => .ok (.ofBitVec (x.toBitVec.rotateLeft (y % 64).toUInt32.toNat))
  | rotr => .ok (.ofBitVec (x.toBitVec.rotateRight (y % 64).toUInt32.toNat))

end IntBinaryOp

namespace IntUnaryOp

/-- Zeros before the highest one, zeros behind the lowest one, or ones of a 32-bit word. -/
def onWords32 (op : IntUnaryOp) (x : UInt32) : UInt32 :=
  match op with
  | clz => .ofBitVec x.toBitVec.clz
  | ctz => .ofBitVec x.toBitVec.ctz
  | popcnt => .ofBitVec x.toBitVec.cpop

/-- The same for a 64-bit word. -/
def onWords64 (op : IntUnaryOp) (x : UInt64) : UInt64 :=
  match op with
  | clz => .ofBitVec x.toBitVec.clz
  | ctz => .ofBitVec x.toBitVec.ctz
  | popcnt => .ofBitVec x.toBitVec.cpop

end IntUnaryOp

/-- A comparison of two words, which are given without and with a sign. -/
def IntCompareOp.onWords (op : IntCompareOp) (x y : UInt64) (sx sy : Int64) : Bool :=
  match op with
  | eq => x == y
  | ne => x != y
  | ltS => sx < sy
  | ltU => x < y
  | gtS => sx > sy
  | gtU => x > y
  | leS => sx ≤ sy
  | leU => x ≤ y
  | geS => sx ≥ sy
  | geU => x ≥ y

namespace Width

/-- A binary integer instruction. -/
def intBinary (width : Width) (op : IntBinaryOp) (x y : UInt64) : Except TrapKind UInt64 :=
  match width with
  | bits32 => (op.onWords32 x.toUInt32 y.toUInt32).map (·.toUInt64)
  | bits64 => op.onWords64 x y

/-- A unary integer instruction. -/
def intUnary (width : Width) (op : IntUnaryOp) (x : UInt64) : UInt64 :=
  match width with
  | bits32 => (op.onWords32 x.toUInt32).toUInt64
  | bits64 => op.onWords64 x

/-- Whether an integer is zero. -/
def intEqz (width : Width) (x : UInt64) : Bool :=
  match width with
  | bits32 => x.toUInt32 == 0
  | bits64 => x == 0

/-- An integer comparison. -/
def intCompare (width : Width) (op : IntCompareOp) (x y : UInt64) : Bool :=
  match width with
  | bits32 => op.onWords x.toUInt32.toUInt64 y.toUInt32.toUInt64 x.toUInt32.toInt32.toInt64
      y.toUInt32.toInt32.toInt64
  | bits64 => op.onWords x y x.toInt64 y.toInt64

end Width

namespace Double

/-- The word with the sign of another. -/
def copySign (x y : Double) : Double :=
  ⟨(x.bits &&& 0x7fffffffffffffff) ||| (y.bits &&& 0x8000000000000000)⟩

/-- The word with the other sign. -/
def negate (x : Double) : Double := ⟨x.bits ^^^ 0x8000000000000000⟩

/-- The word with a positive sign. -/
def magnitude (x : Double) : Double := ⟨x.bits &&& 0x7fffffffffffffff⟩

end Double

namespace Single

/-- The word with the sign of another. -/
def copySign (x y : Single) : Single := ⟨(x.bits &&& 0x7fffffff) ||| (y.bits &&& 0x80000000)⟩

/-- The word with the other sign. -/
def negate (x : Single) : Single := ⟨x.bits ^^^ 0x80000000⟩

/-- The word with a positive sign. -/
def magnitude (x : Single) : Single := ⟨x.bits &&& 0x7fffffff⟩

/-- The nearest single; a NaN keeps its sign and nothing else. -/
def ofDoubleKeepingSign (x : Double) : Single :=
  if x.isNaN then
    ⟨if x.isNegative then 0xffc00000 else 0x7fc00000⟩
  else .ofDouble x

/-- The double of the same value; a NaN keeps its sign. -/
def toDoubleKeepingSign (x : Single) : Double :=
  let d := x.toDouble
  if d.isNaN ∧ x.bits ≥ 0x80000000 then d.negate else d

end Single

namespace Width

/-- The value rounded to the width. -/
def roundDouble (width : Width) (x : Double) : Double :=
  match width with
  | bits32 => (Single.ofDoubleKeepingSign x).toDoubleKeepingSign
  | bits64 => x

end Width

namespace FloatBinaryOp

/-- The instruction on doubles. -/
def onDoubles (op : FloatBinaryOp) (x y : Double) : Double :=
  match op with
  | add => .ofNumber (x.value.add y.value)
  | sub => .ofNumber (x.value.sub y.value)
  | mul => .ofNumber (x.value.mul y.value)
  | div => .ofWord (x.value.divideIn .double y.value)
  | min => .ofNumber (x.value.min y.value)
  | max => .ofNumber (x.value.max y.value)
  | copysign => x.copySign y

/-- The instruction at a width; operands and result are rounded to it. -/
def eval (width : Width) (op : FloatBinaryOp) (x y : Double) : Double :=
  width.roundDouble (op.onDoubles (width.roundDouble x) (width.roundDouble y))

end FloatBinaryOp

namespace FloatUnaryOp

/-- The instruction on doubles. -/
def onDoubles (op : FloatUnaryOp) (x : Double) : Double :=
  match op with
  | abs => x.magnitude
  | neg => x.negate
  | ceil => .ofNumber (x.value.toIntegral .ceil)
  | floor => .ofNumber (x.value.toIntegral .floor)
  | trunc => .ofNumber (x.value.toIntegral .trunc)
  | nearest => .ofNumber (x.value.toIntegral .nearest)
  | sqrt => .ofNumber x.value.sqrt

/-- The instruction at a width; operand and result are rounded to it. -/
def eval (width : Width) (op : FloatUnaryOp) (x : Double) : Double :=
  width.roundDouble (op.onDoubles (width.roundDouble x))

end FloatUnaryOp

/-- A comparison with a NaN holds only of "not equal". -/
def FloatCompareOp.eval (op : FloatCompareOp) (x y : Double) : Bool :=
  match x.value.compare? y.value, op with
  | none, ne => true
  | none, _ => false
  | some o, eq => o == .eq
  | some o, ne => o != .eq
  | some o, lt => o == .lt
  | some o, gt => o == .gt
  | some o, le => o != .gt
  | some o, ge => o != .lt

end EngineFuzz
