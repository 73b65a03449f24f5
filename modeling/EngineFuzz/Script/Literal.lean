import EngineFuzz.Float.Text
import EngineFuzz.Text.Quoted
import EngineFuzz.Wasm.Type

/-!
# Literals of the script language

How values, names and property accesses are written in a script.
-/

namespace EngineFuzz.Literal

/-- An integer. -/
def integer (value : Int64) : String := intText value.toInt

/-- A BigInt ends in the letter `n`. -/
def bigInt (value : Int64) : String := intText value.toInt ++ "n"

/-- A number; unlike the text a script prints, it keeps the sign of zero. -/
def float (value : Double) : String :=
  if value.isZero && value.isNegative then "-0" else value.scriptText

/-- A string in quotes; the escapes of JSON are those of scripts. -/
def string (value : String) : String := jsonQuoted value

/-- A pattern between slashes, and its flags. -/
def regExp (pattern flags : String) : String := "/" ++ pattern ++ "/" ++ flags

/-- A WebAssembly literal as a script sees it: 64-bit integers are big integers and references are
null. -/
def wasmValue : WasmLiteral → String
  | .i32 v => intText v.toInt
  | .i64 v => bigInt v
  | .f32 v => float v.toDouble
  | .f64 v => float v
  | .nullRef _ => "null"

/-- What a name may start with. -/
def isIdentifierStart (c : Char) : Bool := c.isAlpha || c = '_' || c = '$'

/-- What a name may go on with. -/
def isIdentifierPart (c : Char) : Bool := c.isAlphanum || c = '_' || c = '$'

/-- Whether a name may follow a dot: a letter, an underscore or a dollar sign, and then digits as
well.  Letters are those of ASCII. -/
def isIdentifier (name : String) : Bool :=
  match name.toList with
  | [] => false
  | c :: rest => isIdentifierStart c && rest.all isIdentifierPart

/-- The access to a property, after a dot if the name allows it. -/
def member (object name : String) : String :=
  if isIdentifier name then object ++ "." ++ name else object ++ "[" ++ string name ++ "]"

/-- The name of a property in an object literal. -/
def propertyKey (name : String) : String := if isIdentifier name then name else string name

/-- The bytes as decimal numbers in an array. -/
def byteArray (bytes : List UInt8) : String := bracketed (bytes.map fun b => natText b.toNat)

end EngineFuzz.Literal
