import EngineFuzz.Generation.RandomValue

/-!
# Generators of script values

Each makes a fresh value.
-/

namespace EngineFuzz.Generate

open Build

/-- A random integer. -/
def integerValue : Build Unit := do
  let _ ← freshInteger

/-- A random BigInt. -/
def bigIntValue : Build Unit := do
  let _ ← bigInt (← randomInteger)

/-- A double as a fresh value. -/
def freshFloat : Build Variable := do value (.loadFloat (← randomFloat)) []

/-- A random double. -/
def floatValue : Build Unit := do
  let _ ← freshFloat

/-- A string as a fresh value. -/
def freshString : Build Variable := do text (← randomString)

/-- A random string. -/
def stringValue : Build Unit := do
  let _ ← freshString

/-- A random truth value. -/
def booleanValue : Build Unit := do
  let _ ← value (.loadBoolean (← Draw.chance 50)) []

/-- The undefined value. -/
def undefinedValue : Build Unit := do
  let _ ← value .loadUndefined []

/-- The null value. -/
def nullValue : Build Unit := do
  let _ ← value .loadNull []

/-- A regular expression of the pool. -/
def regExpValue : Build Unit := do
  let (pattern, flags) ← randomRegExp
  let _ ← value (.loadRegExp pattern flags) []

/-- A random builtin. -/
def builtinValue : Build Unit := do
  let _ ← builtin (← randomBuiltin)

/-- An object with up to three properties. -/
def objectLiteral : Build Unit := do
  let names ← times (← Draw.nat64 0 3) randomPropertyName
  let names := names.eraseDups
  let values ← times names.length randomScriptValue
  let _ ← object (names.zip values)

/-- An array of visible values. -/
def arrayValue : Build Unit := do
  let _ ← array (← times (← Draw.nat32 0 4) randomScriptValue)

/-- An array of fresh integers. -/
def integerArray : Build Unit := do
  let _ ← array (← times (← Draw.nat32 1 6) freshInteger)

/-- An array of fresh doubles. -/
def floatArray : Build Unit := do
  let _ ← array (← times (← Draw.nat32 1 6) freshFloat)

/-- The constructors of typed arrays that are used. -/
def typedArrayNames : List String :=
  ["Uint8Array", "Int32Array", "Float64Array", "BigInt64Array"]

/-- A typed array of up to 64 elements. -/
def typedArray : Build Unit := do
  let constructor ← builtin (← Draw.chooseD typedArrayNames "Uint8Array")
  let length ← integer (← Draw.int64 0 64)
  let _ ← construct constructor [length] false

/-- A function without parameters that returns a visible value. -/
def trivialFunction : Build Unit := do
  let _ ← function 0 fun _ => do giveBack (some (← randomScriptValue))

end EngineFuzz.Generate
