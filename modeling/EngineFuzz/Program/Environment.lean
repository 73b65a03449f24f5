import EngineFuzz.NameMap
import EngineFuzz.Program.StaticType

/-!
# Environments

An environment lists the builtins of a script engine with their types, the methods of groups of
objects, and the pools that random names and values are drawn from.
-/

namespace EngineFuzz

/-- What a script finds in place, and the pools that random values come from. -/
structure Environment where
  builtins : NameMap StaticType
  groupMethods : List (String × List String)
  propertyNames : List String
  methodNames : List String
  integers : List Int64
  floats : List Double
  strings : List String
  regExpPatterns : List String
  regExpFlags : List String

namespace Environment

private def constructors : List String :=
  ["Object", "Array", "Function", "Map", "Set", "WeakMap", "Promise", "Proxy", "RegExp", "Date",
    "Error", "ArrayBuffer", "DataView", "Uint8Array", "Int32Array", "Float64Array",
    "BigInt64Array", "Number", "String", "Boolean", "BigInt", "Symbol", "parseInt", "parseFloat"]

private def groups : List String := ["Math", "JSON", "Reflect", "Atomics", "WebAssembly"]

/-- A generic script engine with the WebAssembly interface. -/
def script : Environment where
  builtins := .ofList <|
    constructors.map (·, .function 1) ++ groups.map (fun g => (g, .object (some g))) ++
      [("globalThis", .object none), ("NaN", .float), ("Infinity", .float)]
  groupMethods := [
    ("Math", ["abs", "ceil", "floor", "max", "min", "round", "sqrt", "sign", "trunc", "pow",
      "clz32", "fround", "imul", "log", "exp", "sin", "cos", "atan2", "hypot"]),
    ("JSON", ["parse", "stringify"]),
    ("Reflect", ["ownKeys", "getPrototypeOf", "has", "get", "set", "defineProperty"]),
    ("Atomics", ["add", "load", "store", "exchange", "compareExchange", "notify"]),
    ("WebAssembly", ["validate", "compile", "instantiate"])]
  propertyNames := ["a", "b", "c", "d", "e", "x", "y", "length", "value", "buffer", "byteLength",
    "prototype", "constructor", "__proto__", "toString", "valueOf", "exports"]
  methodNames := ["toString", "valueOf", "hasOwnProperty", "push", "pop", "shift", "slice",
    "splice", "join", "map", "filter", "indexOf", "reverse", "sort", "concat", "fill", "at",
    "keys", "set", "get", "grow"]
  integers := [0, 1, -1, 2, 3, 7, 16, 64, 255, 256, 1024, 4096, 65535, 65536, 2147483647,
    -2147483648, 4294967295, 4294967296, 9007199254740991, -9007199254740991]
  -- 0, -0, 0.5, 1.5, -1.5, 3.14, 1e-300, 1e300, the distance from 1 to the next double, the
  -- greatest double, the least normal one, NaN and the infinities
  floats := [⟨0⟩, ⟨0x8000000000000000⟩, ⟨0x3fe0000000000000⟩, ⟨0x3ff8000000000000⟩,
    ⟨0xbff8000000000000⟩, ⟨0x40091eb851eb851f⟩, ⟨0x01a56e1fc2f8f359⟩, ⟨0x7e37e43c8800759c⟩,
    ⟨0x3cb0000000000000⟩, ⟨0x7fefffffffffffff⟩, ⟨0x0010000000000000⟩, ⟨0x7ff8000000000000⟩,
    ⟨0x7ff0000000000000⟩, ⟨0xfff0000000000000⟩]
  strings := ["", "foo", "bar", "length", "0", "-1", "NaN", "valueOf", "\x00", "a\nb",
    "\x7b\"a\":1,\"b\":[1,2]\x7d", "[1,2,3]"]
  regExpPatterns := ["a+", "(a|b)*c", "\\d\x7b2,4\x7d", "[^x]", "^$", "(?<n>.)\\k<n>", "\\bfoo"]
  regExpFlags := ["", "g", "i", "m", "gi", "u", "y", "s"]

/-- Declares a builtin, in place of one with the same name. -/
def withBuiltin (e : Environment) (name : String) (type : StaticType) : Environment :=
  { e with builtins := e.builtins.insert name type }

/-- The type of the builtin with a name. -/
def builtinType? (e : Environment) (name : String) : Option StaticType := e.builtins.find? name

/-- The methods of the objects of a group. -/
def methodsOf (e : Environment) (group : String) : List String :=
  ((e.groupMethods.find? fun g => g.1 == group).map (·.2)).getD []

/-- Whether every builtin has a type of the script's side. -/
def IsScriptTyped (e : Environment) : Prop :=
  ∀ b ∈ e.builtins.entries, b.2.isScriptValue = true

end Environment

end EngineFuzz
