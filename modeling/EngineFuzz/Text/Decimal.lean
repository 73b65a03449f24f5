import EngineFuzz.Float.Decimal

/-!
# Decimal texts of integers

The digits of naturals and integers as characters, and the lists of texts that the textual forms
are made of.
-/

namespace EngineFuzz

/-- The character of a decimal digit. -/
def digitChar (d : Nat) : Char := Char.ofNat ('0'.toNat + d)

/-- The decimal digits of a natural. -/
def natDigits (n : Nat) : List Char := (Decimal.digitsOf n).map digitChar

/-- The decimal digits of an integer, after a minus sign if it is negative. -/
def intDigits (n : Int) : List Char :=
  if n < 0 then '-' :: natDigits n.natAbs else natDigits n.natAbs

/-- The decimal text of a natural. -/
def natText (n : Nat) : String := String.ofList (natDigits n)

/-- The decimal text of an integer. -/
def intText (n : Int) : String := String.ofList (intDigits n)

/-- Texts with a separator between them. -/
def joined (separator : String) : List String → String
  | [] => ""
  | [s] => s
  | s :: rest => s ++ separator ++ joined separator rest

/-- Texts between brackets, with commas. -/
def bracketed (items : List String) : String := "[" ++ joined ", " items ++ "]"

/-- The text of a truth value. -/
def boolText (b : Bool) : String := if b then "true" else "false"

/-- The text of an optional part: `Some(…)` or `None`. -/
def optionText : Option String → String
  | some s => "Some(" ++ s ++ ")"
  | none => "None"

end EngineFuzz
