import Mathlib
import EngineFuzz.Proofs.Execution.Direct
import EngineFuzz.Proofs.Lift.Modules
import EngineFuzz.Proofs.Validation.Layouts

/-!
# Declarations

The layout of a module lists what instructions of its body declare, in their order.

* `Instruction.Declares`: an instruction that declares an entity.
* `ModuleRun.LowersTo.declares`: the entities of a lowered module.
* `ModuleRun.LowersTo.declares_filter`: those of one kind.
-/

namespace EngineFuzz

/-- The entity that an operation declares, if its payload tells. -/
def Operation.declaredEntity? : Operation → Option EntityType
  | wasmImportFunction signature | endWasmFunction signature => some (.function signature)
  | wasmDefineGlobal value isMutable => some (.global value.type isMutable)
  | wasmDefineTable element least most => some (.table element least most)
  | wasmDefineMemory least most => some (.memory least most false)
  | _ => none

/-- The instruction declares the entity. -/
structure Instruction.Declares (i : Instruction) (e : ModuleEntity) : Prop where
  outputs : i.outputs = [e.var]
  category : Direct.category? i.operation = some e.category
  isImport : i.operation.isImport = e.isImport
  isDefinition : i.operation.isDefinition = !e.isImport
  source : ∀ source ∈ e.source, i.inputs = [source]
  entity : ∀ entity ∈ i.operation.declaredEntity?, e.entity = entity

/-- Whether the instruction declares an entity of a module. -/
def Instruction.isDeclaration (i : Instruction) : Bool := (Direct.category? i.operation).isSome

/-! ### One instruction -/

namespace Typer

variable {t : Typer} {i : Instruction}

/-- An import has the category of its kind, whatever its source is. -/
lemma exists_importedEntity (t : Typer) (source : Option Variable) (default : EntityType) :
    ∃ entity, t.importedEntity source default = .wasmEntity entity ∧
      entity.category = default.category := by
  unfold importedEntity
  split
  · split
    · rename_i h
      exact ⟨_, rfl, h⟩
    · exact ⟨_, rfl, rfl⟩
  · exact ⟨_, rfl, rfl⟩

lemma declared_of_isDeclaration (ha : i.hasConsistentArity = true) (h : i.isDeclaration = true) :
    ∃ e, t.declared i = [e] ∧ i.Declares e := by
  obtain ⟨hi, ho, -⟩ := Instruction.hasConsistentArity_iff.mp ha
  obtain ⟨op, inputs, outputs, innerOutputs⟩ := i
  -- an import of something that has a type of its own
  have himport : ∀ default, op.numInputs = 1 → op.numOutputs = 1 → op.isImport = true →
      op.isDefinition = false → Direct.category? op = some default.category →
      op.declaredEntity? = none →
      t.resultType op inputs = t.importedEntity inputs.head? default →
      ∃ e, t.declared ⟨op, inputs, outputs, innerOutputs⟩ = [e] ∧
        Instruction.Declares ⟨op, inputs, outputs, innerOutputs⟩ e := by
    intro default hi₁ ho₁ himp hdef hcat hsig hres
    obtain ⟨source, rfl⟩ := List.length_eq_one_iff.mp (hi.trans hi₁)
    obtain ⟨v, rfl⟩ := List.length_eq_one_iff.mp (ho.trans ho₁)
    obtain ⟨entity, hent, hc⟩ := exists_importedEntity t (some source) default
    refine ⟨⟨v, entity, some source⟩, ?_, rfl, ?_, himp, hdef, ?_, fun s hs => ?_⟩
    · have hr : t.resultType op [source] = .wasmEntity entity := hres.trans hent
      change op.entries (some source) v (t.resultType op [source]) = _
      rw [hr, Operation.entries]
      simp [StaticType.entity?, hdef, himp]
    · rw [hcat, ModuleEntity.category, hc]
    · rintro _ ⟨⟩
      rfl
    · rw [hsig] at hs
      cases hs
  cases op with
  | wasmImportGlobal => exact himport (.global .i32 false) rfl rfl rfl rfl rfl rfl rfl
  | wasmImportTable => exact himport (.table .funcRef 0 none) rfl rfl rfl rfl rfl rfl rfl
  | wasmImportMemory => exact himport (.memory 0 none false) rfl rfl rfl rfl rfl rfl rfl
  | wasmImportFunction signature =>
      obtain ⟨source, rfl⟩ := List.length_eq_one_iff.mp hi
      obtain ⟨v, rfl⟩ := List.length_eq_one_iff.mp ho
      refine ⟨⟨v, .function signature, some source⟩, rfl, rfl, rfl, rfl, rfl, ?_, ?_⟩ <;>
      · rintro _ ⟨⟩
        rfl
  | endWasmFunction signature =>
      obtain ⟨v, rfl⟩ := List.length_eq_one_iff.mp ho
      exact ⟨⟨v, .function signature, none⟩, rfl, rfl, rfl, rfl, rfl,
        (fun _ h => by cases h), fun _ h => by cases h; rfl⟩
  | wasmDefineGlobal value isMutable =>
      obtain ⟨v, rfl⟩ := List.length_eq_one_iff.mp ho
      exact ⟨⟨v, .global value.type isMutable, none⟩, rfl, rfl, rfl, rfl, rfl,
        (fun _ h => by cases h), fun _ h => by cases h; rfl⟩
  | wasmDefineTable element least most =>
      obtain ⟨v, rfl⟩ := List.length_eq_one_iff.mp ho
      exact ⟨⟨v, .table element least most, none⟩, rfl, rfl, rfl, rfl, rfl,
        (fun _ h => by cases h), fun _ h => by cases h; rfl⟩
  | wasmDefineMemory least most =>
      obtain ⟨v, rfl⟩ := List.length_eq_one_iff.mp ho
      exact ⟨⟨v, .memory least most false, none⟩, rfl, rfl, rfl, rfl, rfl,
        (fun _ h => by cases h), fun _ h => by cases h; rfl⟩
  | _ => exact absurd h Bool.false_ne_true

lemma declared_of_not_isDeclaration (h : i.isDeclaration = false) : t.declared i = [] := by
  have hop : i.operation.isDefinition = false ∧ i.operation.isImport = false := by
    unfold Instruction.isDeclaration at h
    cases hop : i.operation <;> rw [hop] at h <;> first | exact ⟨rfl, rfl⟩ | cases h
  unfold declared
  split
  · rfl
  · exact Operation.entries_of_not hop.1 hop.2

end Typer

/-! ### Layouts -/

/-- The entities of a layout are those that instructions of the module declare. -/
lemma Validator.Steps.exists_declares {s s' : Validator} {is : List Instruction}
    {layout : ModuleLayout} (hs : Steps s is s') (hn : ∀ i ∈ is, i.NumbersSmall)
    (hm : ∀ i ∈ is, i.operation ≠ .beginWasmModule ∧ i.operation ≠ .endWasmModule)
    (hl : s.typer.currentModule? = some layout) :
    ∃ es, s'.typer.currentModule? = some (layout.extend es) ∧
      List.Forall₂ Instruction.Declares (is.filter (·.isDeclaration)) es := by
  induction hs generalizing layout with
  | nil s =>
      refine ⟨[], ?_, .nil⟩
      rw [hl, ModuleLayout.extend, List.append_nil]
  | @cons s m s' i is head _ ih =>
      obtain ⟨hni, hnr⟩ := List.forall_mem_cons.mp hn
      obtain ⟨hmi, hmr⟩ := List.forall_mem_cons.mp hm
      obtain ⟨next, ha, -⟩ := step_eq_ok_iff.mp head
      obtain ⟨es, hl', hes⟩ := ih hnr hmr (currentModule?_of_step head hni hmi.1 hmi.2 hl)
      cases hd : i.isDeclaration with
      | false =>
          rw [Typer.declared_of_not_isDeclaration hd] at hl'
          refine ⟨es, by simpa [ModuleLayout.extend] using hl', ?_⟩
          rwa [List.filter_cons_of_neg (by simpa using hd)]
      | true =>
          obtain ⟨e, he, hdecl⟩ := Typer.declared_of_isDeclaration (t := s.typer) ha.arity hd
          rw [he] at hl'
          refine ⟨e :: es, by simpa [ModuleLayout.extend] using hl', ?_⟩
          rw [List.filter_cons_of_pos hd]
          exact .cons hdecl hes

/-- The ends of functions in a module body. -/
lemma Validator.Body.filter_endsFunction {s s' : Validator} {is : List Instruction}
    {fs : List FunctionRun} (h : s.Body is fs s') :
    (is.filter fun i => i.operation.endsFunction) = fs.map (·.last) := by
  induction h with
  | nil s => rfl
  | entity declares open_ head tail ih =>
      rw [List.filter_cons_of_neg (by simpa using open_), ih]
  | @function s' is fs f tail ih =>
      have hinside : (f.inside.filter fun i => i.operation.endsFunction) = [] :=
        List.filter_eq_nil_iff.mpr fun i hi => by simpa using f.open_inside i hi
      rw [List.filter_append, FunctionRun.instructions, List.filter_cons_of_neg, List.filter_append,
        hinside, List.filter_cons_of_pos, ih]
      · rfl
      · rw [f.last_operation]
        rfl
      · rw [f.first_operation]
        exact Bool.false_ne_true

namespace ModuleRun.LowersTo

variable {m : ModuleRun} {t : Typer} {layout : ModuleLayout} {module : WasmModule}
  {c : EntityCategory} {index : Nat} {e : ModuleEntity} {v : Variable}

/-- The instructions in the body of a module declare the entities of its layout, in order. -/
lemma declares (h : m.LowersTo t layout module) :
    List.Forall₂ Instruction.Declares (m.body.filter (·.isDeclaration)) layout.entities := by
  have hp := h.sound.fits.toPlaced
  have hopened : m.opened.typer.currentModule? = some .empty := by
    obtain ⟨next, -, ho⟩ := Validator.step_eq_ok_iff.mp m.step_first
    rw [ho, Typer.currentModule?, Typer.modules_apply_beginWasmModule m.first_operation]
    rfl
  obtain ⟨es, hl, hes⟩ := m.passes.steps.exists_declares
    (fun i hi => h.small i (mem_instructions_of_mem_body hi))
    (m.passes.not_module_boundary (Validator.placed_of_step hp m.step_first)) hopened
  have hlayout : layout = ModuleLayout.empty.extend es :=
    Option.some.inj (h.current.symm.trans hl)
  rw [hlayout]
  exact hes

/-- Declarations of one kind declare the entities of this kind. -/
lemma declares_filter (h : m.LowersTo t layout module) {p : Instruction → Bool}
    {q : ModuleEntity → Bool} (hpq : ∀ i e, Instruction.Declares i e → p i = q e)
    (hp : ∀ i, p i = true → i.isDeclaration = true) :
    List.Forall₂ Instruction.Declares (m.body.filter p) (layout.entities.filter q) := by
  have hfilter : m.body.filter p = (m.body.filter (·.isDeclaration)).filter p := by
    rw [List.filter_filter]
    refine List.filter_congr fun i _ => ?_
    cases hi : p i with
    | false => rfl
    | true => rw [hp i hi, Bool.and_self]
  rw [hfilter]
  exact List.rel_filter (fun i e hie => iff_of_eq (congrArg (· = true) (hpq i e hie))) h.declares

end ModuleRun.LowersTo

end EngineFuzz
