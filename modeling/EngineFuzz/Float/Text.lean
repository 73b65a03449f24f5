import EngineFuzz.Text.Decimal

/-!
# Texts of floating-point values

Four texts are built from the shortest digits of a value.

* `Double.plainText`, `Single.plainText`: positional, never an exponent.
* `Double.scriptText`: what a script engine prints, positional from `1e-6` up to below `1e21`.
* `Double.jsonText?`, `Single.jsonText?`: a JSON number, always with a point or an exponent.

With `d₁ … dₖ` the digits and `n` the place of the point, the value is `0.d₁ … dₖ * 10 ^ n`.
-/

namespace EngineFuzz

/-- The digits of a decimal and the place of the point before or after them. -/
structure DigitText where
  digits : List Char
  point : Int
deriving DecidableEq, Repr

namespace DigitText

/-- The digits of a decimal and the place of its point. -/
def ofDecimal (d : Decimal) : DigitText :=
  let ds := d.digits.map digitChar
  ⟨ds, d.exponent + ds.length⟩

/-- As many zeros. -/
def zeros (n : Nat) : List Char := List.replicate n '0'

/-- Positional notation; an integral value has no point. -/
def positional (t : DigitText) : List Char :=
  if t.digits.length ≤ t.point then
    t.digits ++ zeros (t.point - t.digits.length).toNat
  else if 0 < t.point then
    t.digits.take t.point.toNat ++ '.' :: t.digits.drop t.point.toNat
  else
    '0' :: '.' :: (zeros (-t.point).toNat ++ t.digits)

/-- Exponent notation with one digit before the point and a signed exponent. -/
def scientific (t : DigitText) : List Char :=
  let e := t.point - 1
  let exponent := 'e' :: (if e < 0 then '-' else '+') :: natDigits e.natAbs
  match t.digits with
  | [] => '0' :: exponent
  | [d] => d :: exponent
  | d :: rest => d :: '.' :: (rest ++ exponent)

/-- Positional up to 21 places before the point and 6 zeros after it. -/
def scriptForm (t : DigitText) : List Char :=
  if -6 < t.point ∧ t.point ≤ 21 then t.positional else t.scientific

/-- Positional where the point lies above `low` and not above `high`, and then with a point. -/
def jsonForm (low high : Int) (t : DigitText) : List Char :=
  if low < t.point ∧ t.point ≤ high then
    if t.digits.length ≤ t.point then t.positional ++ ['.', '0'] else t.positional
  else t.scientific

end DigitText

/-- A text with the sign of a word in front. -/
def signedText (negative : Bool) (text : List Char) : List Char :=
  if negative then '-' :: text else text

namespace Format

/-- Positional text of a word, `NaN`, `inf` or `-inf`. -/
def plainText (f : Format) (word : Nat) : List Char :=
  match f.decode word with
  | .nan => "NaN".toList
  | .infinite negative => signedText negative "inf".toList
  | .finite negative 0 _ => signedText negative ['0']
  | .finite negative _ _ =>
    signedText negative (DigitText.ofDecimal (f.shortest .up (word % f.signBit))).positional

/-- The JSON number of a finite word, positional where the point lies above `low` and not above
`high`. -/
def jsonText? (f : Format) (low high : Int) (word : Nat) : Option (List Char) :=
  match f.decode word with
  | .finite negative 0 _ => some (signedText negative "0.0".toList)
  | .finite negative _ _ =>
    some (signedText negative
      ((DigitText.ofDecimal (f.shortest .even (word % f.signBit))).jsonForm low high))
  | _ => none

end Format

namespace Double

/-- The shortest digits that read back, always in positional notation. -/
def plainText (x : Double) : String := String.ofList (Format.double.plainText x.bits.toNat)

/-- The text in JSON, positional from `1e-5` up to below `1e16`; only finite numbers have one. -/
def jsonText? (x : Double) : Option String :=
  (Format.double.jsonText? (-5) 16 x.bits.toNat).map String.ofList

/-- The text a script engine gives a number; zero has no sign. -/
def scriptText (x : Double) : String :=
  match x.value with
  | .nan => "NaN"
  | .infinite negative => if negative then "-Infinity" else "Infinity"
  | .finite _ 0 _ => "0"
  | .finite negative _ _ =>
    let word := x.bits.toNat % Format.double.signBit
    String.ofList
      (signedText negative (DigitText.ofDecimal (Format.double.shortest .up word)).scriptForm)

end Double

namespace Single

/-- The shortest digits that read back, always in positional notation. -/
def plainText (x : Single) : String := String.ofList (Format.single.plainText x.bits.toNat)

/-- The text in JSON, positional from `1e-6` up to below `1e13`; only finite numbers have one. -/
def jsonText? (x : Single) : Option String :=
  (Format.single.jsonText? (-6) 13 x.bits.toNat).map String.ofList

end Single

end EngineFuzz
