import EngineFuzz.Program.Schema
import EngineFuzz.Wasm.Json

/-!
# The JSON program format

An operation is a variant with its fields by name; see `Operation.variants`.

* `Program.ofJson?`, `Program.toJson`: programs as JSON values.
* `Program.parseJson?`, `Program.jsonText`: programs as JSON texts.
-/

namespace EngineFuzz

namespace FieldKind

/-- The value of a field of a kind.  Only an optional field may be missing. -/
def read? (kind : FieldKind) (v : Option Json) : Option FieldValue :=
  match kind with
  | integer => do return .integer (← requiredField? Json.toInt64? v)
  | size => do return .size (← requiredField? Json.toUInt64? v)
  | word => do return .word (← requiredField? Json.toUInt32? v)
  | optionalWord => do return .optionalWord (← optionalField? Json.toUInt32? v)
  | flag => do return .flag (← requiredField? Json.toBool? v)
  | double => do return .double (← requiredField? Json.toDouble? v)
  | text => do return .text (← requiredField? Json.toText? v)
  | texts => do return .texts (← requiredField? (·.toList? Json.toText?) v)
  | bytes => do return .bytes (← requiredField? (·.toList? Json.toUInt8?) v)
  | choice names => do
    let name ←
      match ← v with
      | .string s => some s
      | .object [(s, .null)] => some s
      | _ => none
    return .choice (← names.findIdx? (· == name))
  | literal => do return .literal (← requiredField? WasmLiteral.ofJson? v)
  | signature => do return .signature (← requiredField? FunctionSignature.ofJson? v)

/-- The JSON value of a field. -/
def write (kind : FieldKind) (value : FieldValue) : Json :=
  match value with
  | .integer v => .ofInt v.toInt
  | .size v => .ofNat v.toNat
  | .word v => .ofNat v.toNat
  | .optionalWord v => .ofOption (fun n => .ofNat n.toNat) v
  | .flag v => .bool v
  | .double v => .ofDouble v
  | .text v => .string v
  | .texts v => .ofList .string v
  | .bytes v => .ofList (fun b => .ofNat b.toNat) v
  | .choice index =>
    match kind with
    | choice names => .ofOption .string names[index]?
    | _ => .null
  | .literal v => v.toJson
  | .signature v => v.toJson

end FieldKind

namespace Operation

/-- The values of fields of the given kinds. -/
def readFields? : List (String × FieldKind) → List (Option Json) → Option (List FieldValue)
  | (_, kind) :: fields, v :: values => do
    let first ← kind.read? v
    let rest ← readFields? fields values
    return first :: rest
  | [], [] => some []
  | _, _ => none

/-- The operation that a variant with its payload denotes. -/
def ofJson? (v : Json) : Option Operation := do
  let (name, content) ← v.variant?
  let number ← variants.findIdx? (·.name == name)
  let shape ← variants[number]?
  if shape.fields.isEmpty then
    if Json.isUnit content then ofPayload? number [] else none
  else
    ofPayload? number (← readFields? shape.fields (← (← content).record? (shape.fields.map (·.1))))

/-- The fields of a variant with their values. -/
def writeFields : List (String × FieldKind) → List FieldValue → List (String × Json)
  | (name, kind) :: fields, value :: values => (name, kind.write value) :: writeFields fields values
  | _, _ => []

/-- The operation as a variant with its payload. -/
def toJson (op : Operation) : Json :=
  let (number, values) := op.toPayload
  match variants[number]? with
  | none => .null
  | some shape =>
    if shape.fields.isEmpty then .string shape.name
    else .tagged shape.name (.object (writeFields shape.fields values))

end Operation

namespace Variable

/-- The variable with a number. -/
def ofJson? (v : Json) : Option Variable := v.toUInt32?.map (⟨·⟩)

/-- The number of the variable. -/
def toJson (v : Variable) : Json := .ofNat v.number.toNat

end Variable

namespace Instruction

/-- The instruction that a record denotes. -/
def ofJson? (v : Json) : Option Instruction := do
  match ← v.record? ["operation", "inputs", "outputs", "inner_outputs"] with
  | [operation, inputs, outputs, innerOutputs] =>
    let readAll := requiredField? (·.toList? Variable.ofJson?)
    return ⟨← requiredField? Operation.ofJson? operation, ← readAll inputs, ← readAll outputs,
      ← readAll innerOutputs⟩
  | _ => none

/-- The instruction as a record. -/
def toJson (i : Instruction) : Json :=
  .object [("operation", i.operation.toJson), ("inputs", .ofList (·.toJson) i.inputs),
    ("outputs", .ofList (·.toJson) i.outputs),
    ("inner_outputs", .ofList (·.toJson) i.innerOutputs)]

end Instruction

namespace Program

/-- The program that a record denotes, of whatever version. -/
def ofJson? (v : Json) : Option Program := do
  match ← v.record? ["instructions", "version"] with
  | [instructions, version] =>
    return ⟨← requiredField? (·.toList? Instruction.ofJson?) instructions,
      ← requiredField? Json.toUInt32? version⟩
  | _ => none

/-- The program as a record. -/
def toJson (p : Program) : Json :=
  .object [("instructions", .ofList (·.toJson) p.instructions),
    ("version", .ofNat p.version.toNat)]

/-- The program that a JSON text denotes. -/
def parseJson? (text : String) : Option Program := (Json.parse? text).bind ofJson?

/-- The JSON text, one item a line. -/
def jsonText (p : Program) : String := p.toJson.pretty

end Program

end EngineFuzz
