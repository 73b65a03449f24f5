import Mathlib
import EngineFuzz.Proofs.Layout.EntityTypes
import EngineFuzz.Proofs.Validation.Modules

/-!
# What modules declare

The layout of an accepted module lists its functions in order, and its tables hold references if
all payloads say so.

* `Validator.Body.definedSignatures_eq`: the functions that a module defines are those that end in
  its body, in order.
* `Operation.hasValidPayload`, `Typer.HoldsReferences`: tables of references stay tables of
  references.
-/

namespace EngineFuzz

namespace ModuleLayout

variable {l : ModuleLayout} {es : List ModuleEntity}

/-- The signatures of functions among entities that are definitions. -/
def functionsOf (es : List ModuleEntity) : List FunctionSignature :=
  es.filterMap fun e => if e.isImport then none else e.entity.function?

lemma definedSignatures_eq : l.definedSignatures = functionsOf l.entities := by
  rw [definedSignatures, definitions_eq, List.filterMap_filter, functionsOf]
  refine List.filterMap_congr fun e _ => ?_
  cases hi : e.isImport with
  | true => simp
  | false =>
      cases he : e.entity <;>
        simp [ModuleEntity.category, EntityType.category, EntityType.function?, he]

lemma definedSignatures_extend :
    (l.extend es).definedSignatures = l.definedSignatures ++ functionsOf es := by
  rw [definedSignatures_eq, definedSignatures_eq, extend, functionsOf, functionsOf, functionsOf,
    List.filterMap_append]

end ModuleLayout

namespace Typer

variable {t : Typer} {i : Instruction}

/-- Only the end of a function defines one. -/
lemma functionsOf_declared (h : i.operation.endsFunction = false) :
    ModuleLayout.functionsOf (t.declared i) = [] := by
  rw [ModuleLayout.functionsOf, List.filterMap_eq_nil_iff]
  intro e he
  unfold declared at he
  split at he
  · exact absurd he List.not_mem_nil
  · rename_i v hv
    rw [Operation.entries] at he
    split at he
    · exact absurd he List.not_mem_nil
    · rename_i entity hentity
      split at he
      · rename_i hd
        rw [List.mem_singleton.mp he]
        -- a definition that is not the end of a function is no function
        revert hentity h hd
        cases i.operation <;>
          first
          | exact fun h _ _ => absurd h.symm Bool.false_ne_true
          | exact fun _ _ hd => absurd hd Bool.false_ne_true
          | (intro h hentity hd
             rw [← Option.some.inj hentity]
             rfl)
      · split at he
        · obtain ⟨s, -, rfl⟩ := List.mem_map.mp he
          rfl
        · exact absurd he List.not_mem_nil

/-- The end of a function defines it. -/
lemma functionsOf_declared_endWasmFunction {closer : FunctionSignature}
    (ha : i.hasConsistentArity = true) (h : i.operation = .endWasmFunction closer) :
    ModuleLayout.functionsOf (t.declared i) = [closer] := by
  have ho := (Instruction.hasConsistentArity_iff.mp ha).2.1
  rw [h] at ho
  obtain ⟨v, hv⟩ := List.length_eq_one_iff.mp ho
  rw [declared, Instruction.output?, hv, h]
  rfl

end Typer

namespace Validator

variable {s s' : Validator} {i : Instruction} {is : List Instruction} {layout : ModuleLayout}

/-- An instruction of a module extends the layout of the module. -/
lemma currentModule?_of_step (hs : s.step i = .ok s') (hn : i.NumbersSmall)
    (h₁ : i.operation ≠ .beginWasmModule) (h₂ : i.operation ≠ .endWasmModule)
    (hl : s.typer.currentModule? = some layout) :
    s'.typer.currentModule? = some (layout.extend (s.typer.declared i)) := by
  obtain ⟨next, ha, rfl⟩ := step_eq_ok_iff.mp hs
  rw [Typer.currentModule?] at hl ⊢
  rw [Typer.modules_apply ha.arity (Sound.nodup_definedVariables ha hn) h₁ h₂,
    List.head?_modifyHead, hl]
  rfl

/-- Instructions of a module among which no function ends define no functions. -/
lemma Steps.exists_currentModule? (hs : Steps s is s') (hn : ∀ i ∈ is, i.NumbersSmall)
    (hm : ∀ i ∈ is, i.operation ≠ .beginWasmModule ∧ i.operation ≠ .endWasmModule)
    (ho : ∀ i ∈ is, i.operation.endsFunction = false) (hl : s.typer.currentModule? = some layout) :
    ∃ layout', s'.typer.currentModule? = some layout' ∧
      layout'.definedSignatures = layout.definedSignatures := by
  induction hs generalizing layout with
  | nil s => exact ⟨layout, hl, rfl⟩
  | cons head _ ih =>
      obtain ⟨hni, hnr⟩ := List.forall_mem_cons.mp hn
      obtain ⟨hmi, hmr⟩ := List.forall_mem_cons.mp hm
      obtain ⟨hoi, hor⟩ := List.forall_mem_cons.mp ho
      obtain ⟨layout', hl', hd⟩ := ih hnr hmr hor (currentModule?_of_step head hni hmi.1 hmi.2 hl)
      refine ⟨layout', hl', hd.trans ?_⟩
      rw [ModuleLayout.definedSignatures_extend, Typer.functionsOf_declared hoi, List.append_nil]

/-- A function defines itself at its end. -/
lemma exists_currentModule?_of_function (f : FunctionRun) (hp : f.front.scopes.Placed)
    (hn : ∀ i ∈ f.instructions, i.NumbersSmall) (hl : f.front.typer.currentModule? = some layout) :
    ∃ layout', f.back.typer.currentModule? = some layout' ∧
      layout'.definedSignatures = layout.definedSignatures ++ [f.closer] := by
  have hbound := f.not_module_boundary hp
  have hbegin : ∀ i ∈ f.first :: f.inside, i ∈ f.instructions := by
    simp only [FunctionRun.instructions, List.mem_cons, List.mem_append]
    tauto
  have hlast : f.last ∈ f.instructions := by simp [FunctionRun.instructions]
  obtain ⟨layout', hl', hd⟩ := (Steps.cons f.step_first f.steps_inside).exists_currentModule?
    (fun i hi => hn i (hbegin i hi)) (fun i hi => hbound i (hbegin i hi))
    (List.forall_mem_cons.mpr ⟨by rw [f.first_operation]; rfl, f.open_inside⟩) hl
  refine ⟨_, currentModule?_of_step f.step_last (hn _ hlast) (hbound _ hlast).1 (hbound _ hlast).2
    hl', ?_⟩
  obtain ⟨next, ha, -⟩ := step_eq_ok_iff.mp f.step_last
  rw [ModuleLayout.definedSignatures_extend, hd,
    Typer.functionsOf_declared_endWasmFunction ha.arity f.last_operation]

/-- **The functions that a module defines** are those that end in its body, in order. -/
theorem Body.definedSignatures_eq {fs : List FunctionRun} (h : Body s is fs s')
    (hp : s.scopes.Placed) (hn : ∀ i ∈ is, i.NumbersSmall)
    (hl : s.typer.currentModule? = some layout) :
    ∃ layout', s'.typer.currentModule? = some layout' ∧
      layout'.definedSignatures = layout.definedSignatures ++ fs.map (·.closer) := by
  induction h generalizing layout with
  | nil s => exact ⟨layout, hl, by simp⟩
  | @entity s m s' i is fs declares open_ head tail ih =>
      obtain ⟨hni, hnr⟩ := List.forall_mem_cons.mp hn
      have hbound : i.operation ≠ .beginWasmModule ∧ i.operation ≠ .endWasmModule := by
        refine ⟨fun he => ?_, fun he => ?_⟩ <;>
        · rw [he] at declares
          exact absurd declares (by decide)
      obtain ⟨layout', hl', hd⟩ := ih (placed_of_step hp head) hnr
        (currentModule?_of_step head hni hbound.1 hbound.2 hl)
      refine ⟨layout', hl', hd.trans ?_⟩
      rw [ModuleLayout.definedSignatures_extend, Typer.functionsOf_declared open_, List.append_nil]
  | function f tail ih =>
      have hf : ∀ i ∈ f.instructions, i.NumbersSmall := fun i hi => hn i (List.mem_append_left _ hi)
      obtain ⟨layout₁, hl₁, hd₁⟩ := exists_currentModule?_of_function f hp hf hl
      obtain ⟨layout', hl', hd⟩ := ih (f.steps.placed hp)
        (fun i hi => hn i (List.mem_append_right _ hi)) hl₁
      refine ⟨layout', hl', ?_⟩
      rw [hd, hd₁, List.append_assoc]
      rfl

end Validator

/-! ### Tables of references -/

/-- What the rules of WebAssembly ask of a payload: null references and the elements of tables have
types of references, and offsets are words of 32 bits. -/
def Operation.hasValidPayload : Operation → Bool
  | wasmConst (.nullRef type) | createWasmGlobal (.nullRef type) _
  | wasmDefineGlobal (.nullRef type) _ => type.isReference
  | createWasmTable element .. | wasmDefineTable element .. => element.isReference
  | wasmMemoryLoad _ offset | wasmMemoryStore _ offset => decide (offset < 0x100000000)
  | _ => true

/-- If the type is that of a table, the table holds references. -/
def StaticType.holdsReferences : StaticType → Bool
  | wasmObject (.table element ..) | wasmEntity (.table element ..) => element.isReference
  | _ => true

/-- The tables among the builtins hold references. -/
def Environment.HoldsReferences (e : Environment) : Prop :=
  ∀ b ∈ e.builtins.entries, b.2.holdsReferences = true

lemma Environment.holdsReferences_script : script.HoldsReferences := by
  intro b hb
  rcases type_of_mem_script hb with h | ⟨group, h⟩ | h <;> rw [h] <;> rfl

/-- The tables that variables stand for hold references. -/
structure Typer.HoldsReferences (t : Typer) : Prop where
  tables : ∀ v, (t.typeOf v).holdsReferences = true
  builtins : t.environment.HoldsReferences

namespace Typer

variable {t : Typer} {i : Instruction} {op : Operation} {inputs : List Variable} {n : Nat}
  {type : StaticType}

lemma holdsReferences_start {e : Environment} (h : e.HoldsReferences) :
    (start e).HoldsReferences where
  tables v := by
    rw [typeOf, start, Std.TreeMap.getD_emptyc]
    rfl
  builtins := h

lemma holdsReferences_importedEntity (h : t.HoldsReferences) {source : Option Variable}
    {default : EntityType} (hd : (StaticType.wasmEntity default).holdsReferences = true) :
    (t.importedEntity source default).holdsReferences = true := by
  unfold importedEntity
  split
  · rename_i entity he
    obtain ⟨v, rfl, hv⟩ := Option.map_eq_some_iff.mp he
    split
    · have := h.tables v
      rw [hv] at this
      cases entity <;> exact this
    · exact hd
  · exact hd

lemma holdsReferences_builtinType {e : Environment} (h : e.HoldsReferences) {name : String} :
    ((e.builtinType? name).getD .anything).holdsReferences = true := by
  cases hb : e.builtinType? name with
  | none => rfl
  | some type =>
      rw [Environment.builtinType?, NameMap.find?, Option.map_eq_some_iff] at hb
      obtain ⟨b, hb, rfl⟩ := hb
      exact h b (List.mem_of_find?_eq_some hb)

/-- No table gets values of another kind by an instruction with a valid payload. -/
lemma holdsReferences_outputTypes (h : t.HoldsReferences) (hp : op.hasValidPayload = true)
    (ht : type ∈ t.outputTypes op inputs) : type.holdsReferences = true := by
  cases op with
  | loadBuiltin name =>
      rw [List.eq_of_mem_replicate ht]
      exact holdsReferences_builtinType h.builtins
  | binaryOperation op =>
      rw [List.eq_of_mem_replicate ht]
      change (op.resultType _ _).holdsReferences = true
      unfold BinaryOperator.resultType
      split <;> first | rfl | (split <;> first | rfl | (split <;> rfl))
  | unaryOperation op =>
      rw [List.eq_of_mem_replicate ht]
      change (op.resultType _).holdsReferences = true
      unfold UnaryOperator.resultType
      split <;> first | rfl | (split <;> first | rfl | (split <;> rfl))
  | construct n guarded =>
      rw [List.eq_of_mem_replicate ht]
      cases guarded <;> rfl
  | createWasmTable element least most =>
      rw [List.eq_of_mem_replicate ht]
      exact hp
  | instantiateWasm n =>
      rw [List.eq_of_mem_replicate ht]
      unfold resultType
      dsimp only
      split <;> rfl
  | endWasmModule =>
      simp only [outputTypes, List.mem_cons, List.not_mem_nil, or_false] at ht
      rcases ht with rfl | rfl <;> rfl
  | wasmDefineTable element least most =>
      rw [List.eq_of_mem_replicate ht]
      exact hp
  | wasmImportGlobal | wasmImportTable | wasmImportMemory =>
      rw [List.eq_of_mem_replicate ht]
      exact holdsReferences_importedEntity h rfl
  | wasmCallFunction signature =>
      obtain ⟨u, -, rfl⟩ := List.mem_map.mp (show type ∈ signature.results.map .wasm from ht)
      rfl
  | wasmLoadGlobal | wasmTableGet =>
      rw [List.eq_of_mem_replicate ht]
      unfold resultType
      dsimp only
      split <;> rfl
  | _ =>
      first
      | exact absurd (show type ∈ [] from ht) List.not_mem_nil
      | (rw [List.eq_of_mem_replicate ht]; rfl)

lemma holdsReferences_innerOutputTypes (ht : type ∈ innerOutputTypes op n) :
    type.holdsReferences = true := by
  cases op with
  | beginPlainFunction m =>
      rw [List.eq_of_mem_replicate ht]
      rfl
  | beginWasmFunction signature =>
      obtain ⟨u, -, rfl⟩ := List.mem_map.mp (show type ∈ signature.params.map .wasm from ht)
      rfl
  | _ =>
      first
      | exact absurd (show type ∈ [] from ht) List.not_mem_nil
      | (rw [List.mem_singleton.mp ht]; rfl)

/-- **Tables go on holding references** behind an instruction with a valid payload. -/
theorem HoldsReferences.apply (h : t.HoldsReferences) (ha : i.hasConsistentArity = true)
    (hn : i.definedVariables.Nodup) (hp : i.operation.hasValidPayload = true) :
    (t.apply i).HoldsReferences := by
  refine ⟨fun v => ?_, by rw [environment_apply]; exact h.builtins⟩
  by_cases hv : v ∈ i.definedVariables
  · by_cases he : i.operation = .endWasmModule
    · rw [apply_endWasmModule he]
      unfold endModule
      split
      · rw [typeOf_record]
        split
        · rfl
        · rw [typeOf_record]
          split
          · rfl
          · exact h.tables v
      · exact h.tables v
    · rcases List.mem_append.mp hv with hv | hv
      · have hm : (t.apply i).typeOf v ∈ t.outputTypes i.operation i.inputs := by
          rw [← map_typeOf_outputs ha hn he]
          exact List.mem_map_of_mem hv
        exact holdsReferences_outputTypes h hp hm
      · have hm : (t.apply i).typeOf v ∈
            innerOutputTypes i.operation i.operation.numInnerOutputs := by
          rw [← map_typeOf_innerOutputs ha hn he]
          exact List.mem_map_of_mem hv
        exact holdsReferences_innerOutputTypes hm
  · rw [typeOf_apply_of_not_mem hv]
    exact h.tables v

end Typer

/-- Tables hold references at every position of an accepted list of instructions with valid
payloads. -/
lemma Validator.Steps.holdsReferences {s s' : Validator} {is : List Instruction}
    (hs : Steps s is s') (h : s.typer.HoldsReferences) (hn : ∀ i ∈ is, i.NumbersSmall)
    (hp : ∀ i ∈ is, i.operation.hasValidPayload = true) : s'.typer.HoldsReferences := by
  induction hs with
  | nil s => exact h
  | cons head _ ih =>
      obtain ⟨hni, hnr⟩ := List.forall_mem_cons.mp hn
      obtain ⟨hpi, hpr⟩ := List.forall_mem_cons.mp hp
      obtain ⟨next, ha, rfl⟩ := step_eq_ok_iff.mp head
      exact ih (h.apply ha.arity (Sound.nodup_definedVariables ha hni) hpi) hnr hpr

end EngineFuzz
