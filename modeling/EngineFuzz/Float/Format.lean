/-!
# Binary floating-point formats

A format is fixed by the widths of its fraction and exponent fields.  Values are kept as words;
this module reads a word as an exact number (`Format.decode`) and rounds an exact quotient of
naturals to the nearest value of the format, ties to the even one (`Format.round`).

* `Format.decode`: a word is a NaN, an infinity or `± mantissa * 2 ^ exponent`.
* `Format.roundQuotient`: the word nearest to a quotient, with gradual underflow and overflow to
  infinity.
* `Double` and `Single`: words of the two formats in use.
-/

namespace EngineFuzz

/-- A binary interchange format with a sign bit, an exponent field and a fraction field. -/
structure Format where
  fractionBits : Nat
  exponentBits : Nat
deriving DecidableEq, Repr

namespace Format

/-- The 64-bit format. -/
def double : Format := ⟨52, 11⟩

/-- The 32-bit format. -/
def single : Format := ⟨23, 8⟩

/-- The exponent of the last place of the subnormal values. -/
def minExponent (f : Format) : Int := 2 - (Nat.pow 2 (f.exponentBits - 1) : Int) - f.fractionBits

/-- The magnitude word of infinity; a greater magnitude is a NaN. -/
def infinity (f : Format) : Nat := (Nat.pow 2 f.exponentBits - 1) * Nat.pow 2 f.fractionBits

/-- The word whose only bit is the sign. -/
def signBit (f : Format) : Nat := Nat.pow 2 (f.fractionBits + f.exponentBits)

/-- The magnitude word of the canonical NaN. -/
def quietNaN (f : Format) : Nat := f.infinity + Nat.pow 2 (f.fractionBits - 1)

end Format

/-- What a word of a format stands for. -/
inductive Number where
  | nan
  | infinite (negative : Bool)
  /-- The number `± mantissa * 2 ^ exponent`; zero keeps its sign. -/
  | finite (negative : Bool) (mantissa : Nat) (exponent : Int)
deriving DecidableEq, Repr

namespace Format

/-- The number that a word stands for.  A normal value has the implicit leading bit. -/
def decode (f : Format) (word : Nat) : Number :=
  let negative := decide (f.signBit ≤ word)
  let magnitude := word % f.signBit
  if magnitude > f.infinity then .nan
  else if magnitude = f.infinity then .infinite negative
  else
    let e := magnitude / Nat.pow 2 f.fractionBits
    let fraction := magnitude % Nat.pow 2 f.fractionBits
    if e = 0 then .finite negative fraction f.minExponent
    else .finite negative (Nat.pow 2 f.fractionBits + fraction) (f.minExponent + (e - 1 : Nat))

/-- The quotient of two naturals to the nearest natural, a half to the even neighbour. -/
def divideToEven (num den : Nat) : Nat :=
  let q := num / den
  let r := num % den
  if 2 * r < den then q
  else if den < 2 * r then q + 1
  else if q % 2 = 0 then q else q + 1

/-- Numerator and denominator of `num / den * 2 ^ shift`. -/
def scaled (num den : Nat) (shift : Int) : Nat × Nat :=
  (num * Nat.pow 2 shift.toNat, den * Nat.pow 2 (-shift).toNat)

/-- The exponent of the last place kept when `num / den` is rounded: the quotient then has
`fractionBits + 1` binary digits, unless that would go below the subnormal values. -/
def lastPlace (f : Format) (num den : Nat) : Int :=
  let estimate : Int := (Nat.log2 num : Int) - Nat.log2 den - f.fractionBits
  -- the estimate is the exponent or one too large
  let (n, d) := scaled num den (-estimate)
  let exact := if n / d < Nat.pow 2 f.fractionBits then estimate - 1 else estimate
  max exact f.minExponent

/-- The magnitude word nearest to `num / den`, ties to even.  The exponent field and the fraction
add up because the leading digit of a normal value carries into the exponent. -/
def roundQuotient (f : Format) (num den : Nat) : Nat :=
  if num = 0 then 0
  else
    let place := f.lastPlace num den
    let (n, d) := scaled num den (-place)
    let word := (place - f.minExponent).toNat * Nat.pow 2 f.fractionBits + divideToEven n d
    min word f.infinity

/-- The magnitude word nearest to `mantissa * 2 ^ exponent`. -/
def roundScaled (f : Format) (mantissa : Nat) (exponent : Int) : Nat :=
  f.roundQuotient (mantissa * Nat.pow 2 exponent.toNat) (Nat.pow 2 (-exponent).toNat)

/-- A magnitude word with a sign. -/
def withSign (f : Format) (negative : Bool) (magnitude : Nat) : Nat :=
  if negative then f.signBit + magnitude else magnitude

/-- The word nearest to a number. -/
def encode (f : Format) : Number → Nat
  | .nan => f.quietNaN
  | .infinite negative => f.withSign negative f.infinity
  | .finite negative mantissa exponent => f.withSign negative (f.roundScaled mantissa exponent)

end Format

/-- A 64-bit floating-point value, as its word. -/
structure Double where
  bits : UInt64
deriving DecidableEq, Repr, Hashable, Inhabited

/-- A 32-bit floating-point value, as its word. -/
structure Single where
  bits : UInt32
deriving DecidableEq, Repr, Hashable, Inhabited

namespace Double

/-- The double of a 64-bit word. -/
def ofWord (word : Nat) : Double := ⟨word.toUInt64⟩

/-- The number that the word stands for. -/
def value (x : Double) : Number := Format.double.decode x.bits.toNat

/-- The double nearest to a number. -/
def ofNumber (n : Number) : Double := ofWord (Format.double.encode n)

/-- The double nearest to an integer. -/
def ofInt (n : Int) : Double := ofNumber (.finite (decide (n < 0)) n.natAbs 0)

/-- The quiet NaN with a positive sign. -/
def nan : Double := ofNumber .nan

/-- Positive infinity. -/
def infinity : Double := ofNumber (.infinite false)

/-- Positive zero. -/
def zero : Double := ⟨0⟩

/-- Whether the word is one of the NaNs. -/
def isNaN (x : Double) : Bool := x.value == .nan

/-- Whether the word is neither a NaN nor an infinity. -/
def isFinite (x : Double) : Bool :=
  match x.value with
  | .finite .. => true
  | _ => false

/-- Whether the sign bit is set, that of a NaN included. -/
def isNegative (x : Double) : Bool := x.bits ≥ 0x8000000000000000

/-- Whether the value is zero of either sign. -/
def isZero (x : Double) : Bool := x.bits &&& 0x7fffffffffffffff == 0

end Double

namespace Single

/-- The single of a 32-bit word. -/
def ofWord (word : Nat) : Single := ⟨word.toUInt32⟩

/-- The number that the word stands for. -/
def value (x : Single) : Number := Format.single.decode x.bits.toNat

/-- The single nearest to a number. -/
def ofNumber (n : Number) : Single := ofWord (Format.single.encode n)

/-- The single nearest to an integer. -/
def ofInt (n : Int) : Single := ofNumber (.finite (decide (n < 0)) n.natAbs 0)

/-- Positive zero. -/
def zero : Single := ⟨0⟩

/-- Widening is exact. -/
def toDouble (x : Single) : Double := Double.ofNumber x.value

/-- The single nearest to a double. -/
def ofDouble (x : Double) : Single := ofNumber x.value

end Single

end EngineFuzz
