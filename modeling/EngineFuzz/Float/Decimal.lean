import EngineFuzz.Float.Format

/-!
# Decimal numbers and floating-point formats

A decimal is `significand * 10 ^ exponent`.  This module rounds a decimal to a format and finds
the shortest decimal that rounds to a given value.

* `Format.ofDecimal`: the word nearest to a decimal.
* `Format.shortest`: of the decimals with the fewest digits that round to a value, the nearest
  one.  Only the two neighbours of the value on a decimal grid have to be tried: if any point of
  the grid rounds to the value, one of them does.
-/

namespace EngineFuzz

/-- The number `significand * 10 ^ exponent`. -/
structure Decimal where
  significand : Nat
  exponent : Int
deriving DecidableEq, Repr

/-- Which of two equally near decimals is taken. -/
inductive Tie where
  | up
  | even
deriving DecidableEq, Repr

/-- The integer part of the decimal logarithm; 0 for 0. -/
def log10 (n : Nat) : Nat :=
  if n < 10 then 0 else log10 (n / 10) + 1

namespace Decimal

/-- Numerator and denominator. -/
def quotient (d : Decimal) : Nat × Nat :=
  (d.significand * Nat.pow 10 d.exponent.toNat, Nat.pow 10 (-d.exponent).toNat)

/-- The exponent of the first digit. -/
def leadingExponent (d : Decimal) : Int := d.exponent + log10 d.significand

/-- The decimal digits of a natural, most significant first. -/
def digitsOf (n : Nat) : List Nat :=
  if n < 10 then [n] else digitsOf (n / 10) ++ [n % 10]

/-- The digits of the significand, most significant first. -/
def digits (d : Decimal) : List Nat := digitsOf d.significand

/-- The same number without trailing zeros in the significand. -/
def trim (d : Decimal) : Decimal :=
  if _h : d.significand = 0 then ⟨0, 0⟩
  else if d.significand % 10 = 0 then trim ⟨d.significand / 10, d.exponent + 1⟩
  else d
termination_by d.significand
decreasing_by exact Nat.div_lt_self (by omega) (by omega)

end Decimal

namespace Format

/-- The magnitude word nearest to a decimal.  Exponents far outside the format's range need no
power of ten. -/
def ofDecimal (f : Format) (d : Decimal) : Nat :=
  let e := d.leadingExponent
  if d.significand = 0 then 0
  else if (Nat.pow 2 f.exponentBits : Int) < e then f.infinity
  else if e < -(Nat.pow 2 f.exponentBits + f.fractionBits : Int) then 0
  else
    let (num, den) := d.quotient
    f.roundQuotient num den

/-- The integer part of the decimal logarithm of `num / den`. -/
def quotientLog10 (num den : Nat) : Int :=
  if den ≤ num then log10 (num / den)
  else -(log10 ((den - 1) / num) + 1 : Nat)

/-- The neighbours of `num / den` on the grid of the multiples of `10 ^ place`: the decimal below,
the decimal above and how the distance to the upper one compares with that to the lower one. -/
def gridNeighbours (num den : Nat) (place : Int) : Decimal × Decimal × Ordering :=
  let n := num * Nat.pow 10 (-place).toNat
  let d := den * Nat.pow 10 place.toNat
  (⟨n / d, place⟩, ⟨n / d + 1, place⟩, compare d (2 * (n % d)))

/-- Of two neighbouring decimals the nearer one. -/
def nearer (tie : Tie) (below above : Decimal) (upward : Ordering) : Decimal :=
  match upward, tie with
  | .lt, _ => above
  | .gt, _ => below
  | .eq, .up => above
  | .eq, .even => if below.significand % 2 = 0 then below else above

/-- The decimal on one grid that rounds to the word, if there is one. -/
def onGrid? (f : Format) (tie : Tie) (word num den : Nat) (place : Int) : Option Decimal :=
  let (below, above, upward) := gridNeighbours num den place
  match f.ofDecimal below == word, f.ofDecimal above == word with
  | true, true => some (nearer tie below above upward)
  | true, false => some below
  | false, true => some above
  | false, false => none

/-- Tries ever finer grids, at most `count` of them. -/
def firstGrid (f : Format) (tie : Tie) (word num den : Nat) : Nat → Int → Decimal
  | 0, place => (gridNeighbours num den place).1
  | count + 1, place =>
    match f.onGrid? tie word num den place with
    | some d => d
    | none => f.firstGrid tie word num den count (place - 1)

/-- The shortest decimal that rounds to a finite magnitude word, and of these the nearest.  Every
value of a format is told apart by about a third as many digits as it has binary ones; the number
of grids tried is the safe bound `fractionBits + 2`. -/
def shortest (f : Format) (tie : Tie) (word : Nat) : Decimal :=
  match f.decode word with
  | .finite _ m e =>
    if m = 0 then ⟨0, 0⟩
    else
      let num := m * Nat.pow 2 e.toNat
      let den := Nat.pow 2 (-e).toNat
      (f.firstGrid tie word num den (f.fractionBits + 2) (quotientLog10 num den)).trim
  | _ => ⟨0, 0⟩

end Format

end EngineFuzz
