import EngineFuzz.Float.Arithmetic
import EngineFuzz.Float.Decimal

/-!
# JSON numbers

`Numeral.ofText?` reads the number grammar: an optional minus sign, an integer part without
superfluous leading zeros, an optional fraction and an optional exponent.

A floating-point number is read in two steps.  As many digits as fit a word of 64 bits become a
significand, and this is then multiplied or divided by a power of ten.  Each step rounds, so that
the result is near to the number but need not be the nearest double.

* `Numeral.ofText?`: the parts of a number.
* `Numeral.toInt?`: integers.
* `Numeral.toDouble?`: floating-point numbers.
-/

namespace EngineFuzz

/-- The parts of a JSON number. -/
structure Numeral where
  negative : Bool
  /-- The digits before the point. -/
  whole : List Char
  /-- The digits after the point, if there is one. -/
  fraction? : Option (List Char)
  exponent? : Option Int
deriving DecidableEq, Repr

namespace Numeral

/-- The value of a decimal digit. -/
def digitValue (c : Char) : Nat := c.toNat - '0'.toNat

/-- The value of a run of decimal digits. -/
def natOf (digits : List Char) : Nat := digits.foldl (fun n c => 10 * n + digitValue c) 0

/-- A run of digits at the start of a text, and what follows. -/
def spanDigits (s : List Char) : List Char × List Char := s.span Char.isDigit

/-- The integer part: one zero, or digits that do not start with one. -/
def integerPart? (s : List Char) : Option (List Char × List Char) :=
  match spanDigits s with
  | ([], _) => none
  | ('0' :: _ :: _, _) => none
  | split => some split

/-- The digits after a point, if there is one. -/
def fractionPart? : List Char → Option (Option (List Char) × List Char)
  | '.' :: s =>
    match spanDigits s with
    | ([], _) => none
    | (digits, rest) => some (some digits, rest)
  | s => some (none, s)

/-- The digits of an exponent. -/
def exponentDigits? (negative : Bool) (s : List Char) : Option (Int × List Char) :=
  match spanDigits s with
  | ([], _) => none
  | (digits, rest) => some (if negative then -(natOf digits : Int) else natOf digits, rest)

/-- The exponent, if there is one. -/
def exponentPart? : List Char → Option (Option Int × List Char)
  | c :: s =>
    if c = 'e' ∨ c = 'E' then
      let exponent :=
        match s with
        | '-' :: s => exponentDigits? true s
        | '+' :: s => exponentDigits? false s
        | s => exponentDigits? false s
      exponent.map fun (e, rest) => (some e, rest)
    else some (none, c :: s)
  | [] => some (none, [])

/-- A number without its sign. -/
def unsigned? (negative : Bool) (s : List Char) : Option Numeral := do
  let (whole, s) ← integerPart? s
  let (fraction?, s) ← fractionPart? s
  let (exponent?, s) ← exponentPart? s
  guard s.isEmpty
  return { negative, whole, fraction?, exponent? }

/-- Reads the whole text as a number. -/
def ofText? : List Char → Option Numeral
  | '-' :: s => unsigned? true s
  | s => unsigned? false s

/-- The integer that a number without fraction and exponent denotes.  A negative zero is none. -/
def toInt? (n : Numeral) : Option Int :=
  if n.fraction?.isSome || n.exponent?.isSome then none
  else if n.negative then
    if natOf n.whole = 0 then none else some (-natOf n.whole)
  else some (natOf n.whole)

/-- Appends digits to a number as long as it fits 64 bits; the digits that do not fit are left. -/
def accumulate (n : Nat) : List Char → Nat × List Char
  | [] => (n, [])
  | c :: rest =>
    if 10 * n + digitValue c ≤ 0xffffffffffffffff then accumulate (10 * n + digitValue c) rest
    else (n, c :: rest)

/-- The digits that are kept, as a significand, and their exponent.  Digits that are left out before
the point raise the exponent, those that are kept after it lower it. -/
def kept (n : Numeral) : Decimal :=
  let (whole, left) := accumulate 0 n.whole
  let fraction := n.fraction?.getD []
  let (significand, rest) := accumulate whole fraction
  ⟨significand, n.exponent?.getD 0 + left.length - (fraction.length - rest.length : Nat)⟩

/-- The double nearest to a power of ten. -/
def powerOfTen (n : Nat) : Double := .ofNumber (.finite false (Nat.pow 10 n) 0)

/-- The greatest exponent of a power of ten that is a finite double. -/
def maxPower : Nat := 308

/-- Multiplies or divides by a power of ten; a result out of range fails.  What is too small is
brought into range by several divisions, or vanishes on the way. -/
def scale? (x : Double) (exponent : Int) : Option Double :=
  if exponent.natAbs ≤ maxPower then
    if 0 ≤ exponent then
      let y := x.mul (powerOfTen exponent.natAbs)
      if y.isFinite then some y else none
    else some (x.div (powerOfTen exponent.natAbs))
  else if x.isZero then some x
  else if 0 ≤ exponent then none
  else scale? (x.div (powerOfTen maxPower)) (exponent + maxPower)
termination_by exponent.natAbs
decreasing_by
  simp only [maxPower] at *
  omega

/-- The double that a number is read as; one that is out of range is none. -/
def toDouble? (n : Numeral) : Option Double := do
  let decimal := n.kept
  let magnitude ← scale? (.ofNumber (.finite false decimal.significand 0)) decimal.exponent
  return if n.negative then .ofNumber magnitude.value.neg else magnitude

end Numeral

end EngineFuzz
