import Mathlib
import EngineFuzz.Analysis.Validation

/-!
# Types behind an instruction

What the typer knows behind an instruction, in terms of what it knew in front.

* `Typer.typeOf_apply_of_not_mem`: an instruction types no variables but those it defines.
* `Typer.map_typeOf_outputs`, `Typer.map_typeOf_innerOutputs`: the types of those.
* `Typer.modules_apply`: the layouts of the modules being defined.
-/

namespace EngineFuzz

namespace Operation

/-- Whether the operation imports an entity into the module around it. -/
def isImport : Operation → Bool
  | wasmImportGlobal | wasmImportTable | wasmImportMemory | wasmImportFunction _ => true
  | _ => false

/-- Whether the operation defines an entity of the module around it. -/
def isDefinition : Operation → Bool
  | wasmDefineGlobal .. | wasmDefineTable .. | wasmDefineMemory .. | endWasmFunction _ => true
  | _ => false

/-- The entities that an operation declares with a variable of some type: one if it defines or
imports anything, else none. -/
def entries (op : Operation) (source : Option Variable) (v : Variable) (type : StaticType) :
    List ModuleEntity :=
  match type.entity? with
  | none => []
  | some entity =>
    if op.isDefinition then [⟨v, entity, none⟩]
    else if op.isImport then source.toList.map fun s => ⟨v, entity, some s⟩
    else []

lemma entries_of_not {op : Operation} {source : Option Variable} {v : Variable}
    {type : StaticType} (h₁ : op.isDefinition = false) (h₂ : op.isImport = false) :
    op.entries source v type = [] := by
  unfold entries
  split <;> simp [h₁, h₂]

end Operation

/-- The layout with further entities behind those that it has. -/
def ModuleLayout.extend (l : ModuleLayout) (es : List ModuleEntity) : ModuleLayout :=
  ⟨l.entities ++ es⟩

@[simp] lemma ModuleLayout.extend_nil {l : ModuleLayout} : l.extend [] = l := by
  simp [extend]

namespace Typer

variable {t : Typer} {i : Instruction} {v w : Variable} {vs : List Variable}
  {types : List StaticType} {type : StaticType}

/-! ### Recording types -/

lemma typeOf_record : (t.record v type).typeOf w = if v = w then type else t.typeOf w := by
  simp only [typeOf, record, Std.TreeMap.getD_insert, Std.compare_eq_iff_eq]

@[simp] lemma modules_record : (t.record v type).modules = t.modules := rfl

@[simp] lemma environment_record : (t.record v type).environment = t.environment := rfl

lemma recordAll_cons : t.recordAll (v :: vs) (type :: types) =
    (t.record v type).recordAll vs types := rfl

@[simp] lemma recordAll_nil : t.recordAll [] types = t := rfl

@[simp] lemma recordAll_nil_right : t.recordAll vs [] = t := by
  simp [recordAll]

@[simp] lemma modules_recordAll : (t.recordAll vs types).modules = t.modules := by
  induction vs generalizing t types with
  | nil => rfl
  | cons v vs ih =>
      cases types with
      | nil => simp
      | cons type types => rw [recordAll_cons, ih, modules_record]

@[simp] lemma environment_recordAll : (t.recordAll vs types).environment = t.environment := by
  induction vs generalizing t types with
  | nil => rfl
  | cons v vs ih =>
      cases types with
      | nil => simp
      | cons type types => rw [recordAll_cons, ih, environment_record]

lemma typeOf_recordAll_of_not_mem (h : w ∉ vs) : (t.recordAll vs types).typeOf w = t.typeOf w := by
  induction vs generalizing t types with
  | nil => rfl
  | cons v vs ih =>
      rw [List.mem_cons, not_or] at h
      cases types with
      | nil => simp
      | cons type types => rw [recordAll_cons, ih h.2, typeOf_record, if_neg (Ne.symm h.1)]

lemma map_typeOf_recordAll (hn : vs.Nodup) (hl : vs.length = types.length) :
    vs.map (t.recordAll vs types).typeOf = types := by
  induction vs generalizing t types with
  | nil => cases types with
    | nil => rfl
    | cons type types => simp at hl
  | cons v vs ih =>
      cases types with
      | nil => simp at hl
      | cons type types =>
          obtain ⟨hv, hn⟩ := List.nodup_cons.mp hn
          rw [recordAll_cons, List.map_cons, typeOf_recordAll_of_not_mem hv, typeOf_record,
            if_pos rfl, ih hn (by simpa using hl)]

lemma typeOf_mapModule {f : ModuleLayout → ModuleLayout} : (t.mapModule f).typeOf = t.typeOf := by
  unfold mapModule
  split <;> rfl

lemma environment_mapModule {f : ModuleLayout → ModuleLayout} :
    (t.mapModule f).environment = t.environment := by
  unfold mapModule
  split <;> rfl

lemma modules_mapModule {f : ModuleLayout → ModuleLayout} :
    (t.mapModule f).modules = t.modules.modifyHead f := by
  unfold mapModule
  split <;> simp_all

lemma mapModule_extend_nil : t.mapModule (·.extend []) = t := by
  obtain ⟨_, _, modules⟩ := t
  cases modules with
  | nil => rfl
  | cons layout outer => simp [mapModule]

lemma recordEntity_of_output?_eq_none (h : i.output? = none) : t.recordEntity i = t := by
  rw [recordEntity, h]

/-- What an instruction records in the module around it. -/
lemma recordEntity_of_output?_eq_some (h : i.output? = some v) : t.recordEntity i =
    t.mapModule (·.extend (i.operation.entries i.inputs.head? v (t.typeOf v))) := by
  rw [recordEntity, h]
  -- the operation matters for entities only
  dsimp only
  cases t.typeOf v with
  | wasmEntity entity =>
      dsimp only
      generalize i.operation = op, i.inputs.head? = source
      cases op <;> cases source <;> first | rfl | exact mapModule_extend_nil.symm
  | _ => exact mapModule_extend_nil.symm

lemma typeOf_recordEntity : (t.recordEntity i).typeOf = t.typeOf := by
  cases ho : i.output? with
  | none => rw [recordEntity_of_output?_eq_none ho]
  | some v => rw [recordEntity_of_output?_eq_some ho, typeOf_mapModule]

lemma environment_recordEntity : (t.recordEntity i).environment = t.environment := by
  cases ho : i.output? with
  | none => rw [recordEntity_of_output?_eq_none ho]
  | some v => rw [recordEntity_of_output?_eq_some ho, environment_mapModule]

/-! ### The types of one instruction -/

/-- The typer with the types of the outputs and of the inner outputs of an instruction that ends
no module. -/
def recordOutputs (t : Typer) (i : Instruction) : Typer :=
  (t.recordAll i.outputs (t.outputTypes i.operation i.inputs)).recordAll i.innerOutputs
    (innerOutputTypes i.operation i.innerOutputs.length)

lemma apply_endWasmModule (h : i.operation = .endWasmModule) :
    t.apply i = t.endModule i.outputs := by
  rw [apply, h]

lemma apply_beginWasmModule (h : i.operation = .beginWasmModule) :
    t.apply i = { t.recordOutputs i with modules := .empty :: (t.recordOutputs i).modules } := by
  rw [apply, recordOutputs, h]

lemma apply_of_ne (h₁ : i.operation ≠ .beginWasmModule) (h₂ : i.operation ≠ .endWasmModule) :
    t.apply i = (t.recordOutputs i).recordEntity i := by
  rw [apply, recordOutputs]
  split
  · contradiction
  · split
    · contradiction
    · rfl

lemma typeOf_apply (h : i.operation ≠ .endWasmModule) :
    (t.apply i).typeOf = (t.recordOutputs i).typeOf := by
  by_cases hb : i.operation = .beginWasmModule
  · rw [apply_beginWasmModule hb]
    rfl
  · rw [apply_of_ne hb h, typeOf_recordEntity]

lemma typeOf_endModule_of_not_mem (h : w ∉ vs) : (t.endModule vs).typeOf w = t.typeOf w := by
  unfold endModule
  split
  · simp only [List.mem_cons, List.not_mem_nil, or_false, not_or] at h
    rw [typeOf_record, if_neg (Ne.symm h.2), typeOf_record, if_neg (Ne.symm h.1)]
    rfl
  · rfl

/-- The variables that an instruction does not define keep their types. -/
lemma typeOf_apply_of_not_mem (h : v ∉ i.definedVariables) :
    (t.apply i).typeOf v = t.typeOf v := by
  rw [Instruction.definedVariables, List.mem_append, not_or] at h
  by_cases he : i.operation = .endWasmModule
  · rw [apply_endWasmModule he, typeOf_endModule_of_not_mem h.1]
  · rw [typeOf_apply he, recordOutputs, typeOf_recordAll_of_not_mem h.2,
      typeOf_recordAll_of_not_mem h.1]

lemma environment_apply : (t.apply i).environment = t.environment := by
  by_cases he : i.operation = .endWasmModule
  · rw [apply_endWasmModule he]
    unfold endModule
    split <;> rfl
  · by_cases hb : i.operation = .beginWasmModule
    · rw [apply_beginWasmModule hb, recordOutputs]
      simp
    · rw [apply_of_ne hb he, environment_recordEntity, recordOutputs]
      simp

lemma length_outputTypes {op : Operation} {inputs : List Variable} :
    (t.outputTypes op inputs).length = op.numOutputs := by
  cases op <;> first | rfl | exact List.length_replicate | exact List.length_map ..

lemma length_innerOutputTypes {op : Operation} :
    (innerOutputTypes op op.numInnerOutputs).length = op.numInnerOutputs := by
  cases op with
  | beginPlainFunction n => exact List.length_replicate.trans (Nat.min_self _)
  | beginWasmFunction signature => exact List.length_map ..
  | _ => rfl

end Typer

/-! ### Operands that are as many as the operation has -/

namespace Instruction

variable {i : Instruction}

lemma hasConsistentArity_iff :
    i.hasConsistentArity = true ↔ i.inputs.length = i.operation.numInputs ∧
      i.outputs.length = i.operation.numOutputs ∧
        i.innerOutputs.length = i.operation.numInnerOutputs := by
  simp [hasConsistentArity, and_assoc]

end Instruction

namespace Typer

variable {t : Typer} {i : Instruction} {v : Variable}

/-- **The outputs of an instruction** that ends no module get the types of its operation. -/
theorem map_typeOf_outputs (ha : i.hasConsistentArity = true) (hn : i.definedVariables.Nodup)
    (he : i.operation ≠ .endWasmModule) :
    i.outputs.map (t.apply i).typeOf = t.outputTypes i.operation i.inputs := by
  obtain ⟨-, ho, -⟩ := Instruction.hasConsistentArity_iff.mp ha
  obtain ⟨hn₁, -, hd⟩ := List.nodup_append'.mp hn
  have hl : i.outputs.length = (t.outputTypes i.operation i.inputs).length := by
    rw [ho, length_outputTypes]
  rw [typeOf_apply he, ← map_typeOf_recordAll hn₁ hl (t := t)]
  refine List.map_congr_left fun v hv => ?_
  rw [recordOutputs, typeOf_recordAll_of_not_mem fun h => hd hv h]

/-- **The variables inside the block** that an instruction opens get the types of its operation. -/
theorem map_typeOf_innerOutputs (ha : i.hasConsistentArity = true)
    (hn : i.definedVariables.Nodup) (he : i.operation ≠ .endWasmModule) :
    i.innerOutputs.map (t.apply i).typeOf =
      innerOutputTypes i.operation i.operation.numInnerOutputs := by
  obtain ⟨-, -, hi⟩ := Instruction.hasConsistentArity_iff.mp ha
  obtain ⟨-, hn₂, -⟩ := List.nodup_append'.mp hn
  rw [typeOf_apply he, recordOutputs, hi]
  exact map_typeOf_recordAll hn₂ (by rw [hi, length_innerOutputTypes])

lemma typeOf_apply_of_outputs {type : StaticType} (ha : i.hasConsistentArity = true)
    (hn : i.definedVariables.Nodup) (he : i.operation ≠ .endWasmModule) (hv : i.outputs = [v])
    (ht : t.outputTypes i.operation i.inputs = [type]) : (t.apply i).typeOf v = type := by
  have h := map_typeOf_outputs ha hn he (t := t)
  rw [hv, ht] at h
  exact List.head_eq_of_cons_eq h

lemma typeOf_apply_of_innerOutputs {type : StaticType} (ha : i.hasConsistentArity = true)
    (hn : i.definedVariables.Nodup) (he : i.operation ≠ .endWasmModule)
    (hv : i.innerOutputs = [v])
    (ht : innerOutputTypes i.operation i.operation.numInnerOutputs = [type]) :
    (t.apply i).typeOf v = type := by
  have h := map_typeOf_innerOutputs ha hn he (t := t)
  rw [hv, ht] at h
  exact List.head_eq_of_cons_eq h

/-! ### Layouts -/

/-- The entities that an instruction declares in the module around it: at most one. -/
def declared (t : Typer) (i : Instruction) : List ModuleEntity :=
  match i.output? with
  | none => []
  | some v => i.operation.entries i.inputs.head? v (t.resultType i.operation i.inputs)

lemma outputTypes_of_isDefinition_or_isImport {op : Operation} {inputs : List Variable}
    (h : op.isDefinition = true ∨ op.isImport = true) :
    t.outputTypes op inputs = [t.resultType op inputs] := by
  cases op <;>
    first | rfl | exact absurd h (not_or.mpr ⟨Bool.false_ne_true, Bool.false_ne_true⟩)

lemma outputTypes_loadGlobal {vs : List Variable} {type : WasmType} {isMutable : Bool}
    (h : t.typeOf v = .wasmEntity (.global type isMutable)) :
    t.outputTypes .wasmLoadGlobal (v :: vs) = [.wasm type] := by
  change [t.resultType .wasmLoadGlobal (v :: vs)] = _
  unfold resultType
  simp [h]

lemma outputTypes_tableGet {vs : List Variable} {element : WasmType} {least : UInt32}
    {most : Option UInt32} (h : t.typeOf v = .wasmEntity (.table element least most)) :
    t.outputTypes .wasmTableGet (v :: vs) = [.wasm element] := by
  change [t.resultType .wasmTableGet (v :: vs)] = _
  unfold resultType
  simp [h]

lemma typeOf_recordOutputs_output? (ha : i.hasConsistentArity = true)
    (hn : i.definedVariables.Nodup)
    (he : i.operation.isDefinition = true ∨ i.operation.isImport = true)
    (hv : i.output? = some v) :
    (t.recordOutputs i).typeOf v = t.resultType i.operation i.inputs := by
  have hne : i.operation ≠ .endWasmModule := by
    intro h
    rw [h] at he
    exact absurd he (by decide)
  have h := map_typeOf_outputs ha hn hne (t := t)
  rw [typeOf_apply hne, outputTypes_of_isDefinition_or_isImport he] at h
  have ho : i.outputs = [v] := by
    obtain ⟨u, hu⟩ := List.length_eq_one_iff.mp (by simpa using congrArg List.length h)
    rw [Instruction.output?, hu] at hv
    rw [hu, Option.some.inj hv]
  simpa [ho] using h

lemma modules_apply_beginWasmModule (h : i.operation = .beginWasmModule) :
    (t.apply i).modules = .empty :: t.modules := by
  rw [apply_beginWasmModule h, recordOutputs]
  simp

lemma modules_apply_endWasmModule (h : i.operation = .endWasmModule) :
    (t.apply i).modules = t.modules.tail := by
  rw [apply_endWasmModule h]
  unfold endModule
  split <;> rfl

/-- **Layouts behind an instruction**: what begins and ends no module extends the layout of the
module around it by what it declares. -/
theorem modules_apply (ha : i.hasConsistentArity = true) (hn : i.definedVariables.Nodup)
    (h₁ : i.operation ≠ .beginWasmModule) (h₂ : i.operation ≠ .endWasmModule) :
    (t.apply i).modules = t.modules.modifyHead (·.extend (t.declared i)) := by
  have hm : (t.recordOutputs i).modules = t.modules := by simp [recordOutputs]
  have hid : t.modules.modifyHead (·.extend []) = t.modules := by
    cases t.modules <;> simp
  rw [apply_of_ne h₁ h₂, declared]
  cases ho : i.output? with
  | none => rw [recordEntity_of_output?_eq_none ho, hm, hid]
  | some v =>
      rw [recordEntity_of_output?_eq_some ho, modules_mapModule, hm]
      by_cases he : i.operation.isDefinition = true ∨ i.operation.isImport = true
      · rw [typeOf_recordOutputs_output? ha hn he ho]
      · rw [not_or, Bool.not_eq_true, Bool.not_eq_true] at he
        dsimp only
        rw [Operation.entries_of_not he.1 he.2, Operation.entries_of_not he.1 he.2]

end Typer

end EngineFuzz
