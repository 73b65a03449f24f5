import Mathlib
import EngineFuzz.Program.Json
import EngineFuzz.Proofs.Json.Readings
import EngineFuzz.Proofs.Json.Records

/-!
# Programs as JSON texts

What comes back when a program is written as a JSON text and read again.  All of it does but for
its floating-point numbers: these are written with their shortest digits and read with roundings of
their own, so that they may come back as a neighbour, or not at all if they are not finite.

* `Operation.reread?`, `Program.reread?`: what operations and programs come back as.
* `FieldKind.read?_write`, `Operation.ofJson?_toJson`: fields and operations.
* `Program.parseJson?_jsonText`: what a program comes back as.
* `Program.parseJson?_jsonText_eq_some_iff`: the main statement, which programs come back.
-/

namespace EngineFuzz

/-! ### What comes back -/

/-- The single that the JSON value of a single is read as. -/
def Single.reread? (x : Single) : Option Single := (Json.ofSingle x).toSingle?

/-- Whether the word is neither a NaN nor an infinity. -/
def Single.isFinite (x : Single) : Bool :=
  match x.value with
  | .finite .. => true
  | _ => false

namespace WasmLiteral

/-- The doubles of a literal. -/
def doubles : WasmLiteral → List Double
  | f64 x => [x]
  | _ => []

/-- The singles of a literal. -/
def singles : WasmLiteral → List Single
  | f32 x => [x]
  | _ => []

/-- The literal that the JSON value of a literal is read as. -/
def reread? : WasmLiteral → Option WasmLiteral
  | f32 x => x.reread?.map f32
  | f64 x => x.reread?.map f64
  | l => some l

end WasmLiteral

/-- The field value that the JSON value of a field is read as. -/
def FieldValue.reread? : FieldValue → Option FieldValue
  | double x => x.reread?.map double
  | literal l => l.reread?.map literal
  | value => some value

namespace Operation

/-- The literal of an operation that has one. -/
def literal? : Operation → Option WasmLiteral
  | createWasmGlobal l _ | wasmDefineGlobal l _ | wasmConst l => some l
  | _ => none

/-- The doubles that an operation carries. -/
def doubles : Operation → List Double
  | loadFloat x => [x]
  | op => op.literal?.elim [] (·.doubles)

/-- The singles that an operation carries. -/
def singles (op : Operation) : List Single := op.literal?.elim [] (·.singles)

/-- The operation that the JSON value of an operation is read as. -/
def reread? : Operation → Option Operation
  | loadFloat x => x.reread?.map loadFloat
  | createWasmGlobal l isMutable => l.reread?.map (createWasmGlobal · isMutable)
  | wasmDefineGlobal l isMutable => l.reread?.map (wasmDefineGlobal · isMutable)
  | wasmConst l => l.reread?.map wasmConst
  | op => some op

end Operation

/-- The instruction that the JSON value of an instruction is read as. -/
def Instruction.reread? (i : Instruction) : Option Instruction :=
  i.operation.reread?.map ({ i with operation := · })

namespace Program

/-- The doubles of a program. -/
def doubles (p : Program) : List Double := p.instructions.flatMap (·.operation.doubles)

/-- The singles of a program. -/
def singles (p : Program) : List Single := p.instructions.flatMap (·.operation.singles)

/-- The program that the JSON text of a program is read as. -/
def reread? (p : Program) : Option Program :=
  (p.instructions.mapM Instruction.reread?).map ({ p with instructions := · })

end Program

/-! ### Floating-point numbers -/

/-- What is not finite is written as null, which is no number. -/
lemma Single.isFinite_of_reread? {x y : Single} (h : x.reread? = some y) : x.isFinite = true := by
  unfold reread? Json.ofSingle at h
  split at h
  · rename_i text htext
    obtain ⟨cs, hcs, -⟩ := Option.map_eq_some_iff.mp htext
    obtain ⟨negative, m, e, hx⟩ := Format.exists_decode_of_jsonText? hcs
    rw [isFinite, value, hx]
  · cases h

/-! ### Fields -/

namespace WasmLiteral

lemma readable_toJson (l : WasmLiteral) : l.toJson.Readable := by
  cases l with
  | i32 v => exact .tagged (.ofInt _)
  | i64 v => exact .tagged (.ofInt _)
  | f32 x => exact .tagged (.ofSingle x)
  | f64 x => exact .tagged (.ofDouble x)
  | nullRef t => exact .tagged (.ofMember t)

lemma ofJson?_toJson (l : WasmLiteral) : ofJson? l.toJson = l.reread? := by
  cases l with
  | i32 v =>
      change (Json.ofInt v.toInt).toInt32?.bind (some ∘ i32) = _
      rw [Json.toInt32?_ofInt]
      rfl
  | i64 v =>
      change (Json.ofInt v.toInt).toInt64?.bind (some ∘ i64) = _
      rw [Json.toInt64?_ofInt]
      rfl
  | f32 x => exact Option.map_eq_bind.symm
  | f64 x => exact Option.map_eq_bind.symm
  | nullRef t =>
      change (Json.ofMember t).toMember?.bind (some ∘ nullRef) = _
      rw [Json.toMember?_ofMember]
      rfl

end WasmLiteral

namespace FieldKind

variable {kind : FieldKind} {value : FieldValue}

/-- The names to choose from. -/
def options : FieldKind → List String
  | choice names => names
  | _ => []

lemma readable_write (kind : FieldKind) (value : FieldValue) : (kind.write value).Readable := by
  cases value with
  | integer v => exact .ofInt _
  | size v => exact .ofNat _
  | word v => exact .ofNat _
  | optionalWord v => exact .ofOption (fun _ => .ofNat _) v
  | flag b => exact .bool b
  | double x => exact .ofDouble x
  | text s => exact .string s
  | texts s => exact .ofList .string s
  | bytes bs => exact .ofList (fun _ => .ofNat _) bs
  | choice index =>
      cases kind with
      | choice names => exact .ofOption .string _
      | _ => exact .null
  | literal l => exact l.readable_toJson
  | signature s => exact s.readable_toJson

/-- A field that must be there is what is made of its value. -/
lemma required_eq {α : Type} {reader : Json → Option α} {wrap : α → FieldValue} {v : Json}
    {a? : Option α} (h : reader v = a?) :
    (do return wrap (← requiredField? reader (some v)) : Option FieldValue) = a?.map wrap := by
  rw [requiredField?, Option.bind_some, h]
  exact Option.map_eq_bind.symm

/-- **A field is read** as what its value comes back as. -/
theorem read?_write (hd : kind.options.Nodup) (h : kind.Holds value) :
    kind.read? (some (kind.write value)) = value.reread? := by
  cases kind with
  | integer =>
      obtain ⟨v, rfl⟩ := h.exists_eq
      exact required_eq (Json.toInt64?_ofInt v)
  | size =>
      obtain ⟨v, rfl⟩ := h.exists_eq
      exact required_eq (Json.toUInt64?_ofNat v)
  | word =>
      obtain ⟨v, rfl⟩ := h.exists_eq
      exact required_eq (Json.toUInt32?_ofNat v)
  | optionalWord =>
      obtain ⟨v, rfl⟩ := h.exists_eq
      cases v with
      | none => rfl
      | some v =>
          change (((Json.ofNat v.toNat).toUInt32?.map some).bind fun n? => _) = _
          rw [Json.toUInt32?_ofNat]
          rfl
  | flag =>
      obtain ⟨b, rfl⟩ := h.exists_eq
      rfl
  | double =>
      obtain ⟨x, rfl⟩ := h.exists_eq
      exact required_eq rfl
  | text =>
      obtain ⟨s, rfl⟩ := h.exists_eq
      rfl
  | texts =>
      obtain ⟨s, rfl⟩ := h.exists_eq
      have hitem (s : String) : (Json.string s).toText? = some s := rfl
      exact required_eq (Json.toList?_ofList_eq_some hitem s)
  | bytes =>
      obtain ⟨bs, rfl⟩ := h.exists_eq
      exact required_eq (Json.toList?_ofList_eq_some Json.toUInt8?_ofNat bs)
  | choice names =>
      obtain ⟨index, rfl, hlt, -⟩ := h.exists_eq
      have hindex : names[index]? = some names[index] := List.getElem?_eq_getElem hlt
      have hfind : names.findIdx? (· == names[index]) = some index :=
        findIdx?_eq_some (f := id) (by rwa [List.map_id]) hindex
      rw [write, hindex]
      change (names.findIdx? (· == names[index])).bind _ = _
      rw [hfind]
      rfl
  | literal =>
      obtain ⟨l, rfl⟩ := h.exists_eq
      exact required_eq l.ofJson?_toJson
  | signature =>
      obtain ⟨s, rfl⟩ := h.exists_eq
      exact required_eq s.ofJson?_toJson

end FieldKind

/-! ### Operations -/

namespace Operation

variable {fields : List (String × FieldKind)} {values : List FieldValue}

lemma names_writeFields (h : List.Forall₂ (fun field value => field.2.Holds value) fields values) :
    (writeFields fields values).map (·.1) = fields.map (·.1) := by
  induction h with
  | nil => rfl
  | cons _ _ ih => exact congrArg (_ :: ·) ih

lemma readable_writeFields (fields : List (String × FieldKind)) (values : List FieldValue) :
    ∀ f ∈ writeFields fields values, f.2.Readable := by
  induction fields generalizing values with
  | nil => exact List.forall_mem_nil _
  | cons field fields ih =>
      cases values with
      | nil => exact List.forall_mem_nil _
      | cons value values =>
          exact List.forall_mem_cons.mpr ⟨field.2.readable_write value, ih values⟩

lemma readFields?_writeFields (hd : ∀ field ∈ fields, field.2.options.Nodup)
    (h : List.Forall₂ (fun field value => field.2.Holds value) fields values) :
    readFields? fields ((writeFields fields values).map fun f => some f.2) =
      values.mapM FieldValue.reread? := by
  induction h with
  | nil => rfl
  | @cons field value fields values hv hrest ih =>
      obtain ⟨hfirst, hfields⟩ := List.forall_mem_cons.mp hd
      rw [List.mapM_cons, ← FieldKind.read?_write hfirst hv, ← ih hfields]
      rfl

/-- Names of variants and of their fields, and names to choose from, differ. -/
lemma distinct_names : (variants.map (·.name)).Nodup ∧ ∀ shape ∈ variants,
    (shape.fields.map (·.1)).Nodup ∧ ∀ field ∈ shape.fields, field.2.options.Nodup := by
  decide

lemma toJson_eq {op : Operation} {shape : VariantShape}
    (h : variants[op.toPayload.1]? = some shape) :
    op.toJson = if shape.fields.isEmpty then .string shape.name
      else .tagged shape.name (.object (writeFields shape.fields op.toPayload.2)) := by
  simp only [toJson, h]

lemma readable_toJson (op : Operation) : op.toJson.Readable := by
  obtain ⟨shape, hshape, -⟩ := op.exists_shape
  rw [toJson_eq hshape]
  split
  · exact .string _
  · exact .tagged (.object (readable_writeFields _ _))

/-- What an operation comes back as is what its payload comes back as. -/
lemma bind_ofPayload?_reread? (op : Operation) :
    (op.toPayload.2.mapM FieldValue.reread?).bind (ofPayload? op.toPayload.1) = op.reread? := by
  have hplain (h : op.toPayload.2.mapM FieldValue.reread? = some op.toPayload.2) :
      (op.toPayload.2.mapM FieldValue.reread?).bind (ofPayload? op.toPayload.1) = some op := by
    rw [h]
    exact ofPayload?_toPayload op
  cases op with
  | loadFloat x =>
      rw [toPayload, List.mapM_cons, FieldValue.reread?, reread?]
      cases x.reread? <;> rfl
  | createWasmGlobal l isMutable | wasmDefineGlobal l isMutable | wasmConst l =>
      rw [toPayload, List.mapM_cons, FieldValue.reread?, reread?]
      cases l.reread? <;> rfl
  | _ => exact hplain rfl

/-- **An operation is read** as what it comes back as. -/
theorem ofJson?_toJson (op : Operation) : ofJson? op.toJson = op.reread? := by
  obtain ⟨shape, hshape, hholds⟩ := op.exists_shape
  obtain ⟨hnames, hdistinct⟩ := distinct_names
  obtain ⟨hfieldNames, hoptions⟩ := hdistinct shape (List.mem_of_getElem? hshape)
  have hnumber : variants.findIdx? (·.name == shape.name) = some op.toPayload.1 :=
    findIdx?_eq_some hnames hshape
  rw [toJson_eq hshape, ← bind_ofPayload?_reread?]
  split
  · rename_i hempty
    have hvalues : op.toPayload.2 = [] := by
      rw [List.isEmpty_iff.mp hempty] at hholds
      exact List.forall₂_nil_left_iff.mp hholds
    rw [ofJson?, hvalues]
    change (variants.findIdx? (·.name == shape.name)).bind _ = _
    rw [hnumber, Option.bind_some, hshape]
    change (if shape.fields.isEmpty then _ else _) = _
    rw [if_pos hempty]
    rfl
  · rename_i hfields
    have hrecord : (Json.object (writeFields shape.fields op.toPayload.2)).record?
        (shape.fields.map (·.1)) = _ :=
      Json.record?_object (names_writeFields hholds) hfieldNames
    rw [ofJson?]
    change (variants.findIdx? (·.name == shape.name)).bind _ = _
    rw [hnumber, Option.bind_some, hshape]
    change (if shape.fields.isEmpty then _ else _) = _
    rw [if_neg hfields]
    change ((Json.object _).record? _).bind (fun values => (readFields? _ values).bind _) = _
    rw [hrecord, Option.bind_some, readFields?_writeFields hoptions hholds]

end Operation

/-! ### Programs -/

namespace Instruction

lemma readable_variables (vs : List Variable) : (Json.ofList (·.toJson) vs : Json).Readable :=
  .ofList (fun v : Variable => .ofNat v.number.toNat) vs

lemma readable_toJson (i : Instruction) : i.toJson.Readable := by
  refine .object ?_
  simp only [List.forall_mem_cons]
  exact ⟨i.operation.readable_toJson, readable_variables _, readable_variables _,
    readable_variables _, List.forall_mem_nil _⟩

lemma toList?_variables (vs : List Variable) :
    (Json.ofList (·.toJson) vs : Json).toList? Variable.ofJson? = some vs := by
  refine Json.toList?_ofList_eq_some (fun v : Variable => ?_) vs
  rw [Variable.ofJson?, Variable.toJson, Json.toUInt32?_ofNat]
  rfl

lemma ofJson?_toJson (i : Instruction) : ofJson? i.toJson = i.reread? := by
  have hrecord : i.toJson.record? ["operation", "inputs", "outputs", "inner_outputs"] = _ :=
    Json.record?_object rfl (by decide)
  rw [ofJson?, hrecord]
  simp only [Option.bind_eq_bind, Option.bind_some, List.map_cons, List.map_nil, requiredField?,
    toList?_variables, i.operation.ofJson?_toJson, Option.pure_def]
  exact Option.map_eq_bind.symm

end Instruction

namespace Program

lemma readable_toJson (p : Program) : p.toJson.Readable := by
  refine .object ?_
  simp only [List.forall_mem_cons]
  exact ⟨.ofList Instruction.readable_toJson _, .ofNat _, List.forall_mem_nil _⟩

lemma ofJson?_toJson (p : Program) : ofJson? p.toJson = p.reread? := by
  have hrecord : p.toJson.record? ["instructions", "version"] = _ :=
    Json.record?_object rfl (by decide)
  rw [ofJson?, hrecord]
  simp only [Option.bind_eq_bind, Option.bind_some, List.map_cons, List.map_nil, requiredField?,
    Json.toList?_ofList, Instruction.ofJson?_toJson, Json.toUInt32?_ofNat, Option.pure_def]
  exact Option.map_eq_bind.symm

/-- **What the JSON text of a program is read as.** -/
theorem parseJson?_jsonText (p : Program) : parseJson? p.jsonText = p.reread? := by
  rw [parseJson?, jsonText, Json.parse?_pretty p.readable_toJson, Option.bind_some, ofJson?_toJson]

end Program

/-! ### Which programs come back -/

namespace WasmLiteral

lemma reread?_eq_some_iff (l : WasmLiteral) : l.reread? = some l ↔
    (∀ x ∈ l.doubles, x.reread? = some x) ∧ ∀ x ∈ l.singles, x.reread? = some x := by
  cases l <;> simp [reread?, doubles, singles, Option.map_eq_some_iff]

end WasmLiteral

namespace Operation

lemma reread?_eq_some_iff (op : Operation) : op.reread? = some op ↔
    (∀ x ∈ op.doubles, x.reread? = some x) ∧ ∀ x ∈ op.singles, x.reread? = some x := by
  cases op with
  | loadFloat x => simp [reread?, doubles, singles, literal?, Option.map_eq_some_iff]
  | createWasmGlobal l isMutable | wasmDefineGlobal l isMutable | wasmConst l =>
      simp [reread?, doubles, singles, literal?, ← WasmLiteral.reread?_eq_some_iff]
  | _ => exact ⟨fun _ => ⟨List.forall_mem_nil _, List.forall_mem_nil _⟩, fun _ => rfl⟩

end Operation

lemma Instruction.reread?_eq_some_iff (i : Instruction) :
    i.reread? = some i ↔ i.operation.reread? = some i.operation := by
  rw [reread?, Option.map_eq_some_iff]
  constructor
  · rintro ⟨op, hop, h⟩
    rw [hop, ← h]
  · exact fun h => ⟨i.operation, h, rfl⟩

namespace Program

lemma reread?_eq_some_iff (p : Program) : p.reread? = some p ↔
    (∀ x ∈ p.doubles, x.reread? = some x) ∧ ∀ x ∈ p.singles, x.reread? = some x := by
  have hinstructions : p.reread? = some p ↔
      p.instructions.mapM Instruction.reread? = some p.instructions := by
    rw [reread?, Option.map_eq_some_iff]
    constructor
    · rintro ⟨is, his, h⟩
      rw [his, ← h]
    · exact fun h => ⟨p.instructions, h, rfl⟩
  rw [hinstructions, mapM_eq_some_iff, List.forall₂_same, doubles, singles,
    List.forall_mem_flatMap, List.forall_mem_flatMap]
  simp only [Instruction.reread?_eq_some_iff, Operation.reread?_eq_some_iff, forall_and]

/-- **A program comes back** from its JSON text but for its floating-point numbers, and as it was
exactly if each of these does.  Doubles with a short text do; what is not finite does not. -/
theorem parseJson?_jsonText_eq_some_iff (p : Program) :
    parseJson? p.jsonText = p.reread? ∧
      (parseJson? p.jsonText = some p ↔
        (∀ x ∈ p.doubles, x.isFinite = true ∧ x.reread? = some x) ∧
          ∀ x ∈ p.singles, x.isFinite = true ∧ x.reread? = some x) ∧
      ∀ x ∈ p.doubles, x.IsShort → x.reread? = some x := by
  have hdouble (x : Double) : x.isFinite = true ∧ x.reread? = some x ↔ x.reread? = some x :=
    and_iff_right_of_imp Double.isFinite_of_reread?
  have hsingle (x : Single) : x.isFinite = true ∧ x.reread? = some x ↔ x.reread? = some x :=
    and_iff_right_of_imp Single.isFinite_of_reread?
  refine ⟨parseJson?_jsonText p, ?_, fun x _ => Double.reread?_eq_self⟩
  simp only [parseJson?_jsonText, reread?_eq_some_iff, hdouble, hsingle]

/-- A program that loads a floating-point number. -/
def loading (x : Double) : Program := .ofInstructions [⟨.loadFloat x, [], [⟨0⟩], []⟩]

/-- Finite numbers need not come back.  Both here are written as `7.038531e-26`.  The double comes
back as its neighbour, as the power of ten that the digits are divided by is not exact.  The single
would be lost if all texts were read as the nearest double: this is the double above, which lies in
the middle between two singles and is rounded to the other one. -/
theorem parseJson?_jsonText_finite :
    (∀ x ∈ (loading ⟨0x3ab5c87fb0000000⟩).doubles, x.isFinite = true) ∧
      (loading ⟨0x3ab5c87fb0000000⟩).singles = [] ∧
      parseJson? (loading ⟨0x3ab5c87fb0000000⟩).jsonText = some (loading ⟨0x3ab5c87fafffffff⟩) ∧
      (⟨0x3ab5c87fb0000000⟩ : Double).jsonText? = some "7.038531e-26" ∧
      (⟨0x15ae43fd⟩ : Single).jsonText? = some "7.038531e-26" ∧
      (Numeral.ofText? "7.038531e-26".toList).map (fun n => Format.double.ofDecimal n.kept) =
        some 0x3ab5c87fb0000000 ∧
      Single.ofDouble ⟨0x3ab5c87fb0000000⟩ = ⟨0x15ae43fe⟩ := by
  rw [parseJson?_jsonText]
  decide +kernel

end Program

end EngineFuzz
