import Mathlib
import EngineFuzz.Analysis.Validation

/-!
# Operands of accepted instructions

What the types of the operands are, for each operation inside functions whose operands are of more
than one kind.

* `Operation.hasPlace`, `Instruction.values`: the operands whose values are read.
* `Operation.accepts_loadGlobal` and its kind: the types that the validator asks for.
-/

namespace EngineFuzz

namespace Operation

/-- Whether the first operand names an entity, a label or the target of an assignment; its value is
not read. -/
def hasPlace : Operation → Bool
  | wasmLoadGlobal | wasmStoreGlobal | wasmTableGet | wasmTableSet | wasmMemoryLoad ..
  | wasmMemoryStore .. | wasmCallFunction _ | wasmReassign | wasmBranch | wasmBranchIf => true
  | _ => false

end Operation

/-- The operands whose values an instruction reads. -/
def Instruction.values (i : Instruction) : List Variable :=
  if i.operation.hasPlace then i.inputs.tail else i.inputs

namespace StaticType

variable {t : StaticType} {type : WasmType} {width : Width}

lemma isWasmValue_iff : t.isWasmValue type = true ↔ t = .wasm type := by
  cases t <;> simp [isWasmValue]

lemma intWidth?_eq_some_iff : t.intWidth? = some width ↔ t = .wasm width.intType := by
  cases t with
  | wasm type =>
      cases type <;> cases width <;> simp [intWidth?, wasmType?, Width.ofInt?, Width.intType]
  | _ => simp [intWidth?, wasmType?]

lemma floatWidth?_eq_some_iff : t.floatWidth? = some width ↔ t = .wasm width.floatType := by
  cases t with
  | wasm type =>
      cases type <;> cases width <;> simp [floatWidth?, wasmType?, Width.ofFloat?, Width.floatType]
  | _ => simp [floatWidth?, wasmType?]

/-- Values of functions have types of WebAssembly. -/
lemma exists_eq_map_wasm {ts : List StaticType} (h : ∀ t ∈ ts, t.isAnyWasmValue = true) :
    ∃ types : List WasmType, ts = types.map .wasm := by
  induction ts with
  | nil => exact ⟨[], rfl⟩
  | cons t ts ih =>
      obtain ⟨types, ht⟩ := ih fun u hu => h u (List.mem_cons_of_mem _ hu)
      have hw := h t (List.mem_cons_self ..)
      cases t with
      | wasm type => exact ⟨type :: types, by rw [ht, List.map_cons]⟩
      | _ => cases hw

end StaticType

namespace Operation

variable {ts : List StaticType} {function : Option FunctionSignature}

lemma eq_replicate_of_all_intWidth? {width : Width}
    (h : ts.all (fun t => t.intWidth? == some width) = true) :
    ts = List.replicate ts.length (.wasm width.intType) := by
  rw [List.eq_replicate_iff]
  refine ⟨rfl, fun t ht => ?_⟩
  exact StaticType.intWidth?_eq_some_iff.mp (by simpa using List.all_eq_true.mp h t ht)

lemma eq_replicate_of_all_floatWidth? {width : Width}
    (h : ts.all (fun t => t.floatWidth? == some width) = true) :
    ts = List.replicate ts.length (.wasm width.floatType) := by
  rw [List.eq_replicate_iff]
  refine ⟨rfl, fun t ht => ?_⟩
  exact StaticType.floatWidth?_eq_some_iff.mp (by simpa using List.all_eq_true.mp h t ht)

lemma accepts_loadGlobal (h : wasmLoadGlobal.acceptsInputs ts function = true) :
    ∃ type isMutable, ts = [.wasmEntity (.global type isMutable)] := by
  unfold acceptsInputs at h
  dsimp only at h
  split at h
  · exact ⟨_, _, rfl⟩
  · exact nomatch h

lemma accepts_storeGlobal (h : wasmStoreGlobal.acceptsInputs ts function = true) :
    ∃ type, ts = [.wasmEntity (.global type true), .wasm type] := by
  unfold acceptsInputs at h
  dsimp only at h
  split at h
  · rw [StaticType.isWasmValue_iff] at h
    exact ⟨_, by rw [h]⟩
  · exact nomatch h

lemma accepts_tableGet (h : wasmTableGet.acceptsInputs ts function = true) :
    ∃ element least most, ts = [.wasmEntity (.table element least most), .wasm .i32] := by
  unfold acceptsInputs at h
  dsimp only at h
  split at h
  · rw [StaticType.isWasmValue_iff] at h
    exact ⟨_, _, _, by rw [h]⟩
  · exact nomatch h

lemma accepts_tableSet (h : wasmTableSet.acceptsInputs ts function = true) :
    ∃ element least most,
      ts = [.wasmEntity (.table element least most), .wasm .i32, .wasm element] := by
  unfold acceptsInputs at h
  dsimp only at h
  split at h
  · rw [Bool.and_eq_true, StaticType.isWasmValue_iff, StaticType.isWasmValue_iff] at h
    exact ⟨_, _, _, by rw [h.1, h.2]⟩
  · exact nomatch h

lemma accepts_memoryLoad {type : WasmType} {offset : UInt64}
    (h : (wasmMemoryLoad type offset).acceptsInputs ts function = true) :
    type.isNumeric = true ∧
      ∃ least most shared, ts = [.wasmEntity (.memory least most shared), .wasm .i32] := by
  unfold acceptsInputs at h
  dsimp only at h
  split at h
  · rw [Bool.and_eq_true, StaticType.isWasmValue_iff] at h
    exact ⟨h.1, _, _, _, by rw [h.2]⟩
  · exact nomatch h

lemma accepts_memoryStore {type : WasmType} {offset : UInt64}
    (h : (wasmMemoryStore type offset).acceptsInputs ts function = true) :
    type.isNumeric = true ∧ ∃ least most shared,
      ts = [.wasmEntity (.memory least most shared), .wasm .i32, .wasm type] := by
  unfold acceptsInputs at h
  dsimp only at h
  split at h
  · rw [Bool.and_eq_true, Bool.and_eq_true, StaticType.isWasmValue_iff,
      StaticType.isWasmValue_iff] at h
    exact ⟨h.1.1, _, _, _, by rw [h.1.2, h.2]⟩
  · exact nomatch h

/-- Values that have the types of a list, one each. -/
lemma eq_map_wasm_of_all_zip {values : List StaticType} {types : List WasmType}
    (hl : values.length = types.length)
    (h : (values.zip types).all (fun (value, type) => value.isWasmValue type) = true) :
    values = types.map .wasm := by
  induction values generalizing types with
  | nil => cases types with
    | nil => rfl
    | cons type types => simp at hl
  | cons value values ih =>
      cases types with
      | nil => simp at hl
      | cons type types =>
          simp only [List.zip_cons_cons, List.all_cons, Bool.and_eq_true,
            StaticType.isWasmValue_iff] at h
          rw [List.map_cons, h.1, ih (by simpa using hl) h.2]

lemma accepts_call {signature : FunctionSignature}
    (h : (wasmCallFunction signature).acceptsInputs ts function = true) :
    ts = .wasmEntity (.function signature) :: signature.params.map .wasm := by
  unfold acceptsInputs at h
  dsimp only at h
  split at h
  · simp only [Bool.and_eq_true, beq_iff_eq] at h
    obtain ⟨⟨rfl, hl⟩, ha⟩ := h
    rw [eq_map_wasm_of_all_zip hl ha]
  · exact nomatch h

lemma accepts_reassign (h : wasmReassign.acceptsInputs ts function = true) :
    ∃ type, ts = [.wasm type, .wasm type] := by
  unfold acceptsInputs at h
  dsimp only at h
  split at h
  · rename_i target value
    simp only [Bool.and_eq_true, beq_iff_eq] at h
    obtain ⟨ht, rfl⟩ := h
    cases target with
    | wasm type => exact ⟨type, rfl⟩
    | _ => cases ht
  · exact nomatch h

lemma accepts_return {hasValue : Bool}
    (h : (wasmReturn hasValue).acceptsInputs ts function = true) :
    ∃ signature, function = some signature ∧ ts = signature.result.toList.map .wasm ∧
      hasValue = signature.result.isSome := by
  unfold acceptsInputs at h
  dsimp only at h
  split at h
  · exact nomatch h
  · rename_i signature
    refine ⟨signature, rfl, ?_⟩
    split at h
    · rename_i result value hr
      rw [Bool.and_eq_true, StaticType.isWasmValue_iff] at h
      simp [hr, h.1, h.2]
    · rename_i hr
      simpa [hr] using h
    · exact nomatch h

lemma accepts_end {signature : FunctionSignature} (hl : ts.length = signature.results.length)
    (h : (endWasmFunction signature).acceptsInputs ts function = true) :
    ts = signature.results.map .wasm :=
  eq_map_wasm_of_all_zip hl h

lemma accepts_if (h : wasmBeginIf.acceptsInputs ts function = true) : ts = [.wasm .i32] := by
  unfold acceptsInputs at h
  dsimp only at h
  split at h
  · rw [StaticType.isWasmValue_iff.mp h]
  · exact nomatch h

lemma accepts_branch (h : wasmBranch.acceptsInputs ts function = true) : ts = [.label] := by
  unfold acceptsInputs at h
  dsimp only at h
  split at h
  · rfl
  · exact nomatch h

lemma accepts_branchIf (h : wasmBranchIf.acceptsInputs ts function = true) :
    ts = [.label, .wasm .i32] := by
  unfold acceptsInputs at h
  dsimp only at h
  split at h
  · rw [StaticType.isWasmValue_iff.mp h]
  · exact nomatch h

end Operation

end EngineFuzz
