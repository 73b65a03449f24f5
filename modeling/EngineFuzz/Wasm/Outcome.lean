import EngineFuzz.Wasm.Json
import EngineFuzz.Wasm.Trap

/-!
# Outcomes of executions

An exported function returns values or traps; both are data.

* `Outcome.text`: what a script sees that prints the result.
-/

namespace EngineFuzz

/-- A value that an export returns or takes. -/
inductive WasmValue where
  | i32 (value : Int32)
  | i64 (value : Int64)
  | f32 (value : Single)
  | f64 (value : Double)
  /-- A reference, of which only null is told apart. -/
  | reference (isNull : Bool)
deriving DecidableEq, Repr, Inhabited

namespace WasmValue

/-- The text that a script gives the value. -/
def text : WasmValue → String
  | i32 v => intText v.toInt
  | i64 v => intText v.toInt
  | f32 v => v.toDouble.scriptText
  | f64 v => v.scriptText
  | reference true => "null"
  | reference false => "[object WebAssembly.Reference]"

/-- The value that a variant denotes. -/
def ofJson? (v : Json) : Option WasmValue := do
  match ← v.variant? with
  | ("I32", some v) => return i32 (← v.toInt32?)
  | ("I64", some v) => return i64 (← v.toInt64?)
  | ("F32", some v) => return f32 ⟨← v.toUInt32?⟩
  | ("F64", some v) => return f64 ⟨← v.toUInt64?⟩
  | ("Ref", some v) =>
    match ← v.record? ["is_null"] with
    | [isNull] => return reference (← requiredField? Json.toBool? isNull)
    | _ => none
  | _ => none

/-- Floating-point values are written as their words, so that every NaN is kept. -/
def toJson : WasmValue → Json
  | i32 v => .tagged "I32" (.ofInt v.toInt)
  | i64 v => .tagged "I64" (.ofInt v.toInt)
  | f32 v => .tagged "F32" (.ofNat v.bits.toNat)
  | f64 v => .tagged "F64" (.ofNat v.bits.toNat)
  | reference isNull => .tagged "Ref" (.object [("is_null", .bool isNull)])

end WasmValue

/-- How an execution ended. -/
inductive Outcome where
  | returned (values : List WasmValue)
  | trapped (kind : TrapKind)
deriving DecidableEq, Repr, Inhabited

namespace Outcome

/-- Whether the execution was cut off. -/
def isTrap : Outcome → Bool
  | trapped _ => true
  | returned _ => false

/-- The text that a script gives the result. -/
def text : Outcome → String
  | returned [] => "undefined"
  | returned values => joined "," (values.map (·.text))
  | trapped kind => "RuntimeError: " ++ Enumeration.name kind

/-- The outcome that a variant denotes. -/
def ofJson? (v : Json) : Option Outcome := do
  match ← v.variant? with
  | ("Returned", some v) => return returned (← v.toList? WasmValue.ofJson?)
  | ("Trapped", some v) => return trapped (← v.toMember?)
  | _ => none

/-- The outcome as a variant. -/
def toJson : Outcome → Json
  | returned values => .tagged "Returned" (.ofList (·.toJson) values)
  | trapped kind => .tagged "Trapped" (.ofMember kind)

end Outcome

end EngineFuzz
