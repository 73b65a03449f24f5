import EngineFuzz.Float.Format

/-!
# Floating-point arithmetic

Each operation computes the exact result on decoded numbers and leaves the rounding to
`Format.encode`, so that one rounding is all that separates it from the rationals.

* `Number.add`, `Number.mul`, `Number.sqrt`: exact, or exact up to digits that no
  rounding can see.
* `Number.divideIn`: the quotient rounded into a format.
* `Number.toIntegral`: rounding to an integer in one of four ways.
* `Number.compare?`: the order of numbers, undefined on NaN.
* `Double.mul`, `Double.div`: products and quotients of doubles.
-/

namespace EngineFuzz

/-- How a number is rounded to an integer. -/
inductive IntegralMode where
  | ceil
  | floor
  | trunc
  /-- To the nearest integer, a half to the even one. -/
  | nearest
deriving DecidableEq, Repr

namespace Number

/-- Whether the number is undefined. -/
def isNaN : Number → Bool
  | nan => true
  | _ => false

/-- Whether the sign is negative, that of zero and infinity included. -/
def isNegative : Number → Bool
  | nan => false
  | infinite negative => negative
  | finite negative _ _ => negative

/-- Whether the number is zero of either sign. -/
def isZero : Number → Bool
  | finite _ 0 _ => true
  | _ => false

/-- The number with the other sign. -/
def neg : Number → Number
  | nan => nan
  | infinite s => infinite !s
  | finite s m e => finite (!s) m e

/-- The number with a positive sign. -/
def abs : Number → Number
  | nan => nan
  | infinite _ => infinite false
  | finite _ m e => finite false m e

/-- The first number with the sign of the second. -/
def copySign (x y : Number) : Number :=
  if y.isNegative then x.abs.neg else x.abs

/-- A mantissa with its sign, at a smaller exponent. -/
private def signedAt (negative : Bool) (m : Nat) (e place : Int) : Int :=
  let v : Int := m * Nat.pow 2 (e - place).toNat
  if negative then -v else v

/-- The exact sum.  A sum of zero is positive unless both terms are negative. -/
def add : Number → Number → Number
  | nan, _ | _, nan => nan
  | infinite s, infinite t => if s = t then infinite s else nan
  | infinite s, _ => infinite s
  | _, infinite t => infinite t
  | finite s m e, finite t n d =>
    let place := min e d
    let sum := signedAt s m e place + signedAt t n d place
    if sum = 0 then finite (s && t) 0 place
    else finite (decide (sum < 0)) sum.natAbs place

/-- The exact difference. -/
def sub (x y : Number) : Number := x.add y.neg

/-- The exact product. -/
def mul : Number → Number → Number
  | nan, _ | _, nan => nan
  | infinite s, y => if y.isZero then nan else infinite (s ^^ y.isNegative)
  | x, infinite t => if x.isZero then nan else infinite (x.isNegative ^^ t)
  | finite s m e, finite t n d => finite (s ^^ t) (m * n) (e + d)

/-- The word of a format nearest to the exact quotient. -/
def divideIn (f : Format) : Number → Number → Nat
  | nan, _ | _, nan | infinite _, infinite _ => f.encode nan
  | infinite s, finite t _ _ => f.encode (infinite (s ^^ t))
  | finite s _ e, infinite t => f.encode (finite (s ^^ t) 0 e)
  | finite s m e, finite t n d =>
    if n = 0 then
      if m = 0 then f.encode nan else f.encode (infinite (s ^^ t))
    else
      let (num, den) := Format.scaled m n (e - d)
      f.withSign (s ^^ t) (f.roundQuotient num den)

/-- The integer square root. -/
def intSqrt (n : Nat) : Nat :=
  if n < 2 then n
  else
    let r := 2 * intSqrt (n / 4)
    if (r + 1) * (r + 1) ≤ n then r + 1 else r

/-- The square root with at least 64 digits.  When digits are cut off, one more digit is set, so
that the result lies strictly between the same neighbours of every narrower format. -/
def sqrt : Number → Number
  | nan => nan
  | infinite negative => if negative then nan else infinite false
  | finite negative m e =>
    if m = 0 then finite negative 0 e
    else if negative then nan
    else
      let shift : Nat := if e % 2 = 0 then 128 else 129
      let n := m * Nat.pow 2 shift
      let r := intSqrt n
      let half := (e - (shift : Int)) / 2
      if r * r = n then finite false r half else finite false (2 * r + 1) (half - 1)

/-- Rounds a magnitude that is `q` and a remainder `r` out of `unit`. -/
private def roundMagnitude (mode : IntegralMode) (negative : Bool) (q r unit : Nat) : Nat :=
  match mode with
  | .trunc => q
  | .ceil => if r = 0 || negative then q else q + 1
  | .floor => if r = 0 || !negative then q else q + 1
  | .nearest =>
    if 2 * r < unit then q
    else if unit < 2 * r then q + 1
    else if q % 2 = 0 then q else q + 1

/-- The number rounded to an integer; a result of zero keeps the sign. -/
def toIntegral (mode : IntegralMode) : Number → Number
  | finite negative m e =>
    if 0 ≤ e then finite negative m e
    else
      let unit := Nat.pow 2 (-e).toNat
      finite negative (roundMagnitude mode negative (m / unit) (m % unit) unit) 0
  | x => x

/-- The order of two numbers; none when one is a NaN. -/
def compare? : Number → Number → Option Ordering
  | nan, _ | _, nan => none
  | infinite s, infinite t => some (compare t.toNat s.toNat)
  | infinite s, _ => some (if s then .lt else .gt)
  | _, infinite t => some (if t then .gt else .lt)
  | finite s m e, finite t n d =>
    let place := min e d
    some (compare (signedAt s m e place) (signedAt t n d place))

/-- The lesser number; a NaN wins, and a negative zero is less than a positive one. -/
def min (x y : Number) : Number :=
  match x.compare? y with
  | none => nan
  | some .lt => x
  | some .gt => y
  | some .eq => if x.isNegative then x else y

/-- The greater number; a NaN wins, and a positive zero is greater than a negative one. -/
def max (x y : Number) : Number :=
  match x.compare? y with
  | none => nan
  | some .lt => y
  | some .gt => x
  | some .eq => if x.isNegative then y else x

end Number

namespace Double

/-- The double nearest to the product. -/
def mul (x y : Double) : Double := .ofNumber (x.value.mul y.value)

/-- The double nearest to the quotient. -/
def div (x y : Double) : Double := .ofWord (x.value.divideIn .double y.value)

end Double

end EngineFuzz
