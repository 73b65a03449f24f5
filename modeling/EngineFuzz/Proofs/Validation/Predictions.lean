import Mathlib
import EngineFuzz.Proofs.Layout.Exports
import EngineFuzz.Proofs.Validation.FunctionEnds

/-!
# Predicted types

Before an instruction is appended the typer tells which types its outputs would get.  Here these
predictions are compared with what the typer records when it goes past the instruction.

* `Typer.Unambiguous`: no output is defined once more with another type.
* `Typer.map_typeOf_eq_iff`: predictions of an instruction that ends no module.
* `Typer.map_typeOf_endModule`: what is recorded at the end of a module.
* `Program.recorded_eq_predicted_iff`: in accepted programs, exactly which predictions come true.
* `recorded_ne_predicted_memory`: those for the end of a module with an entity do not.
-/

namespace EngineFuzz

namespace Typer

variable {t : Typer} {i : Instruction} {v w : Variable} {vs : List Variable}
  {types : List StaticType}

/-- The outputs of an instruction with the types predicted for them. -/
def predictions (t : Typer) (i : Instruction) : List (Variable × StaticType) :=
  i.outputs.zip (t.outputTypes i.operation i.inputs)

/-- The variables inside the block that an instruction opens, with their types. -/
def innerPredictions (i : Instruction) : List (Variable × StaticType) :=
  i.innerOutputs.zip (innerOutputTypes i.operation i.innerOutputs.length)

/-- No output is defined once more with another type. -/
def Unambiguous (t : Typer) (i : Instruction) : Prop :=
  ∀ x ∈ t.predictions i, ∀ y ∈ t.predictions i ++ innerPredictions i, y.1 = x.1 → y.2 = x.2

/-! ### What is recorded -/

/-- A variable that gets types has one of them afterwards. -/
lemma mem_zip_recordAll (hl : vs.length = types.length) (hv : v ∈ vs) :
    (v, (t.recordAll vs types).typeOf v) ∈ vs.zip types := by
  induction vs generalizing t types with
  | nil => exact absurd hv List.not_mem_nil
  | cons w vs ih =>
      cases types with
      | nil => cases hl
      | cons type types =>
          rw [recordAll_cons, List.zip_cons_cons]
          by_cases hmem : v ∈ vs
          · exact List.mem_cons_of_mem _ (ih (Nat.succ.inj hl) hmem)
          · obtain rfl := (List.mem_cons.mp hv).resolve_right hmem
            rw [typeOf_recordAll_of_not_mem hmem, typeOf_record, if_pos rfl]
            exact List.mem_cons_self ..

lemma length_predictions (ha : i.hasConsistentArity = true) :
    i.outputs.length = (t.outputTypes i.operation i.inputs).length := by
  rw [length_outputTypes, (Instruction.hasConsistentArity_iff.mp ha).2.1]

lemma length_innerPredictions (ha : i.hasConsistentArity = true) :
    i.innerOutputs.length = (innerOutputTypes i.operation i.innerOutputs.length).length := by
  rw [(Instruction.hasConsistentArity_iff.mp ha).2.2, length_innerOutputTypes]

/-- The types of the outputs are those predicted if each of them is. -/
lemma map_typeOf_eq_iff_forall (ha : i.hasConsistentArity = true) {f : Variable → StaticType} :
    i.outputs.map f = t.outputTypes i.operation i.inputs ↔
      ∀ x ∈ t.predictions i, f x.1 = x.2 := by
  rw [← List.forall₂_eq_eq_eq, List.forall₂_map_left_iff, List.forall₂_iff_zip,
    and_iff_right (length_predictions ha)]
  exact ⟨fun h x hx => h hx, fun h v type hx => h (v, type) hx⟩

/-- An output has one of the types that its instruction gives it. -/
lemma mem_predictions_typeOf (ha : i.hasConsistentArity = true) (he : i.operation ≠ .endWasmModule)
    (hv : v ∈ i.outputs) :
    (v ∈ i.innerOutputs → (v, (t.apply i).typeOf v) ∈ innerPredictions i) ∧
      (v, (t.apply i).typeOf v) ∈ t.predictions i ++ innerPredictions i := by
  rw [typeOf_apply he, recordOutputs]
  have hin : v ∈ i.innerOutputs → _ := mem_zip_recordAll (length_innerPredictions ha)
    (t := t.recordAll i.outputs (t.outputTypes i.operation i.inputs))
  refine ⟨hin, List.mem_append.mpr ?_⟩
  by_cases hmem : v ∈ i.innerOutputs
  · exact .inr (hin hmem)
  · rw [typeOf_recordAll_of_not_mem hmem]
    exact .inl (mem_zip_recordAll (length_predictions ha) hv)

/-- Beside an output the variables inside of a block are parameters, which may be anything. -/
lemma eq_anything_of_mem_innerPredictions (ha : i.hasConsistentArity = true) (hv : v ∈ i.outputs)
    {x : Variable × StaticType} (hx : x ∈ innerPredictions i) : x.2 = .anything := by
  have hout : i.operation.numOutputs ≠ 0 := by
    rw [← (Instruction.hasConsistentArity_iff.mp ha).2.1]
    exact (List.length_pos_of_mem hv).ne'
  have hmem : x.2 ∈ innerOutputTypes i.operation i.innerOutputs.length :=
    (List.of_mem_zip (a := x.1) (b := x.2) hx).2
  revert hout hmem
  cases i.operation with
  | beginPlainFunction n => exact fun _ h => List.eq_of_mem_replicate h
  | _ => first | exact fun h _ => absurd rfl h | exact fun _ h => absurd h List.not_mem_nil

/-- **Predictions come true**, at an instruction that ends no module, exactly if no output is
defined once more with another type. -/
theorem map_typeOf_eq_iff (ha : i.hasConsistentArity = true) (he : i.operation ≠ .endWasmModule) :
    i.outputs.map (t.apply i).typeOf = t.outputTypes i.operation i.inputs ↔ t.Unambiguous i := by
  rw [map_typeOf_eq_iff_forall ha]
  have hout : ∀ x ∈ t.predictions i, x.1 ∈ i.outputs := fun x hx =>
    (List.of_mem_zip (a := x.1) (b := x.2) hx).1
  constructor
  · intro h x hx y hy hvar
    rcases List.mem_append.mp hy with hy | hy
    · rw [← h x hx, ← h y hy, hvar]
    · -- the last type of the variable is that of a parameter, and so is the other one
      have hin : x.1 ∈ i.innerOutputs := hvar ▸ (List.of_mem_zip (a := y.1) (b := y.2) hy).1
      have hlast := (mem_predictions_typeOf (t := t) ha he (hout x hx)).1 hin
      rw [eq_anything_of_mem_innerPredictions ha (hout x hx) hy, ← h x hx]
      exact (eq_anything_of_mem_innerPredictions ha (hout x hx) hlast).symm
  · intro h x hx
    exact h x hx _ (mem_predictions_typeOf ha he (hout x hx)).2 rfl

/-! ### The end of a module -/

/-- **At the end of a module** its variables get the signature of the layout. -/
lemma map_typeOf_endModule (hne : v ≠ w) : [v, w].map (t.endModule [v, w]).typeOf =
    [.wasmModule ((t.currentModule?.map (·.signature)).getD .empty),
      .wasmExports ((t.currentModule?.map (·.signature)).getD .empty)] := by
  simp only [List.map_cons, List.map_nil, endModule, typeOf_record, if_pos, if_neg hne.symm]
  rfl

lemma typeOf_endModule_self : (t.endModule [v, v]).typeOf v =
    .wasmExports ((t.currentModule?.map (·.signature)).getD .empty) := by
  rw [endModule, typeOf_record, if_pos rfl]
  rfl

lemma signature_currentModule?_eq_empty_iff :
    (t.currentModule?.map (·.signature)).getD .empty = .empty ↔
      ∀ l ∈ t.currentModule?, l.entities = [] := by
  cases t.currentModule? with
  | none => simp
  | some l => simp [ModuleLayout.signature_eq_empty_iff]

/-- **Predictions come true**, at the end of a module, exactly if its two variables differ and it
has no entities. -/
theorem map_typeOf_eq_iff_of_endWasmModule (ha : i.hasConsistentArity = true)
    (he : i.operation = .endWasmModule) :
    i.outputs.map (t.apply i).typeOf = t.outputTypes i.operation i.inputs ↔
      t.Unambiguous i ∧ ∀ l ∈ t.currentModule?, l.entities = [] := by
  obtain ⟨v, w, ho⟩ : ∃ v w, i.outputs = [v, w] := by
    rw [← List.length_eq_two, (Instruction.hasConsistentArity_iff.mp ha).2.1, he]
    rfl
  have hout : t.predictions i = [(v, .wasmModule .empty), (w, .wasmExports .empty)] := by
    rw [predictions, ho, he]
    rfl
  have hin : innerPredictions i = [] := by
    rw [innerPredictions, he]
    exact List.zip_nil_right
  have hu : t.Unambiguous i ↔ v ≠ w := by
    rw [Unambiguous, hin, hout]
    by_cases hvw : v = w
    · simp [hvw]
    · simp [hvw, Ne.symm hvw]
  rw [hu, ← signature_currentModule?_eq_empty_iff, apply_endWasmModule he, ho, he]
  by_cases hvw : v = w
  · subst hvw
    simp [typeOf_endModule_self, outputTypes]
  · rw [map_typeOf_endModule hvw]
    simp [outputTypes, hvw]

/-! ### Instructions whose variables differ -/

/-- An instruction that defines no variable twice is unambiguous. -/
lemma unambiguous_of_nodup (ha : i.hasConsistentArity = true) (hn : i.definedVariables.Nodup) :
    t.Unambiguous i := by
  have hvars : (t.predictions i ++ innerPredictions i).map Prod.fst = i.definedVariables := by
    rw [List.map_append, predictions, innerPredictions,
      List.map_fst_zip (length_predictions ha).le, List.map_fst_zip (length_innerPredictions ha).le]
    rfl
  intro x hx y hy hvar
  rw [List.inj_on_of_nodup_map (hvars ▸ hn) hy (List.mem_append_left _ hx) hvar]

end Typer

/-- **Predicted and recorded types.**  At an instruction of an accepted program the outputs get the
types that are predicted in front of it, exactly if none of them is defined once more with another
type and the instruction does not end a module with an entity.  The first holds unless the
instruction defines the variable with the greatest number. -/
theorem Program.recorded_eq_predicted_iff {p : Program} {e : Environment}
    {before after : List Instruction} {i : Instruction} (h : p.validate e = .ok ())
    (hp : p.instructions = before ++ i :: after) :
    (i.outputs.map ((Typer.behind e before).apply i).typeOf =
        (Typer.behind e before).outputTypes i.operation i.inputs ↔
      (Typer.behind e before).Unambiguous i ∧ (i.operation = .endWasmModule →
        ∀ l ∈ (Typer.behind e before).currentModule?, l.entities = [])) ∧
    (i.NumbersSmall → (Typer.behind e before).Unambiguous i) := by
  obtain ⟨s, hs, -⟩ := validate_eq_ok_iff.mp h
  rw [hp] at hs
  obtain ⟨m, -, hrest⟩ := Validator.steps_append_iff.mp hs
  obtain ⟨m', hstep, -⟩ := Validator.steps_cons_iff.mp hrest
  obtain ⟨next, ha, -⟩ := Validator.step_eq_ok_iff.mp hstep
  refine ⟨?_, fun hn => ?_⟩
  · by_cases he : i.operation = .endWasmModule
    · rw [Typer.map_typeOf_eq_iff_of_endWasmModule ha.arity he, forall_prop_of_true he]
    · rw [Typer.map_typeOf_eq_iff ha.arity he, and_iff_left fun hend => absurd hend he]
  · exact Typer.unambiguous_of_nodup ha.arity (Validator.Sound.nodup_definedVariables ha hn)

/-! ### Predictions that do not come true -/

/-- A program with a module that defines a memory. -/
def memoryModule : Program := .ofInstructions [
  ⟨.beginWasmModule, [], [], []⟩,
  ⟨.wasmDefineMemory 1 none, [], [⟨0⟩], []⟩,
  ⟨.endWasmModule, [], [⟨1⟩, ⟨2⟩], []⟩]

/-- The types in front of the end of the module. -/
def memoryModuleTyper : Typer := .behind .script (memoryModule.instructions.take 2)

/-- The layout of the module at its end. -/
def memoryModuleLayout : ModuleLayout := .addDefinition .empty ⟨0⟩ (.memory 1 none false)

lemma currentModule?_memoryModule :
    memoryModuleTyper.currentModule? = some memoryModuleLayout := by
  have hmodules : (((Typer.start .script).apply ⟨.beginWasmModule, [], [], []⟩).apply
      ⟨.wasmDefineMemory 1 none, [], [⟨0⟩], []⟩).modules = [memoryModuleLayout] := by
    rw [Typer.modules_apply rfl (by decide) (by decide) (by decide),
      Typer.modules_apply_beginWasmModule rfl]
    rfl
  exact congrArg List.head? hmodules

lemma validate_memoryModule : memoryModule.validate .script = .ok () := by
  rw [Program.validate_eq_ok_iff]
  refine ⟨_, .cons (Validator.step_mk rfl (by simp) (by decide) rfl rfl rfl)
    (.cons (Validator.step_mk rfl (by simp) (by decide) rfl rfl rfl)
    (.cons (Validator.step_mk rfl (by simp) (by decide) rfl rfl ?_) (.nil _))), rfl⟩
  have hcurrent := currentModule?_memoryModule
  rw [memoryModuleTyper] at hcurrent
  unfold Validator.checkImports
  exact hcurrent ▸ rfl

/-- The type of the memory is recorded as it is predicted. -/
theorem recorded_eq_predicted_memory :
    let before : List Instruction := [⟨.beginWasmModule, [], [], []⟩]
    let i : Instruction := ⟨.wasmDefineMemory 1 none, [], [⟨0⟩], []⟩
    memoryModule.validate .script = .ok () ∧
      memoryModule.instructions = before ++ i :: [⟨.endWasmModule, [], [⟨1⟩, ⟨2⟩], []⟩] ∧
      [⟨0⟩].map ((Typer.behind .script before).apply i).typeOf =
        (Typer.behind .script before).outputTypes i.operation i.inputs := by
  intro before i
  have hinstructions : memoryModule.instructions = before ++ i :: _ := rfl
  have hiff := Program.recorded_eq_predicted_iff validate_memoryModule hinstructions
  exact ⟨validate_memoryModule, rfl,
    hiff.1.mpr ⟨hiff.2 (by decide), fun h => absurd h (by decide)⟩⟩

/-- **The signature of a module is not predicted.**  The program is accepted; in front of the end of
its module an empty signature is predicted, and one that exports the memory is recorded. -/
theorem recorded_ne_predicted_memory :
    memoryModule.validate .script = .ok () ∧
      memoryModuleTyper.outputTypes .endWasmModule [] = [.wasmModule .empty, .wasmExports .empty] ∧
      [⟨1⟩, ⟨2⟩].map (memoryModuleTyper.apply ⟨.endWasmModule, [], [⟨1⟩, ⟨2⟩], []⟩).typeOf =
        [.wasmModule ⟨[], [⟨"memory0", .memory 1 none false⟩]⟩,
          .wasmExports ⟨[], [⟨"memory0", .memory 1 none false⟩]⟩] := by
  have hsignature : memoryModuleLayout.signature = ⟨[], [⟨"memory0", .memory 1 none false⟩]⟩ := by
    decide_cbv
  refine ⟨validate_memoryModule, rfl, ?_⟩
  rw [Typer.apply_endWasmModule rfl, Typer.map_typeOf_endModule (by decide),
    currentModule?_memoryModule, Option.map_some, Option.getD_some, hsignature]

end EngineFuzz
