import Mathlib
import EngineFuzz.Execution.Instance
import EngineFuzz.Proofs.Lift.IndexSpaces
import EngineFuzz.Proofs.Validation.Freshness

/-!
# Values for the imports of accepted programs

The host makes the values for the imports of a module anew, from the instructions that define their
sources.  The imports got their types on another way: from those instructions to the types of the
sources, from there to the entities that the module imports, and on into its signature.  In an
accepted program both ways come to the same type.

* `HostImport.importType`: the type of a host value, as an import has it.
* `Typer.object?_resultType`: an object for modules has the type that its instruction gives it.
* `Typer.Supplied`: the imports that have been declared have the types of their sources, with
  `Typer.Supplied.apply`.
* `Program.host_values_match`: the main statement.
-/

namespace EngineFuzz

namespace HostImport

/-- The type that an import has which the value is made for. -/
def importType : HostImport → EntityType
  | global value isMutable => .global value.type isMutable
  | memory least most shared => .memory least most shared
  | table element least most => .table element least most
  | function signature => .function signature

lemma limitsWithin_self (least : UInt32) (most : Option UInt32) :
    limitsWithin least most least most = true := by
  cases most <;> simp [limitsWithin]

/-- **A value suits the imports that it is made for**, although a shared memory gets a maximum. -/
theorem isSuppliedBy_entityType (value : HostImport) :
    value.importType.isSuppliedBy value.entityType = true := by
  cases value with
  | global value isMutable => simp [importType, entityType, EntityType.isSuppliedBy]
  | memory least most shared =>
      cases shared with
      | false => simp [importType, entityType, EntityType.isSuppliedBy, limitsWithin_self]
      | true => cases most <;> simp [importType, entityType, EntityType.isSuppliedBy, limitsWithin]
  | table element least most =>
      cases element <;> exact limitsWithin_self least most
  | function signature => simp [importType, entityType, EntityType.isSuppliedBy]

end HostImport

/-! ### Objects for modules -/

namespace Operation

/-- The type of the object for modules that the operation creates. -/
def createdEntity? : Operation → Option EntityType
  | createWasmGlobal value isMutable => some (.global value.type isMutable)
  | createWasmMemory least most shared => some (.memory least most shared)
  | createWasmTable element least most => some (.table element least most)
  | _ => none

/-- An import of anything but a function takes an object of its own category. -/
lemma accepts_import {op : Operation} {type : StaticType} {function : Option FunctionSignature}
    (hi : op.isImport = true) (hf : ∀ signature, op ≠ .wasmImportFunction signature)
    (ha : op.acceptsInputs [type] function = true) :
    ∃ entity, type = .wasmObject entity ∧ Direct.category? op = some entity.category := by
  cases op with
  | wasmImportGlobal | wasmImportTable | wasmImportMemory =>
      cases type with
      | wasmObject entity => cases entity <;> first | exact ⟨_, rfl, rfl⟩ | exact nomatch ha
      | _ => exact nomatch ha
  | wasmImportFunction signature => exact absurd rfl (hf signature)
  | _ => exact nomatch hi

/-- The host makes a value of the type of the object. -/
lemma exists_supply? {op : Operation} {entity : EntityType} (h : op.createdEntity? = some entity) :
    ∃ value, HostImport.supply? entity (some op) = some value ∧ value.importType = entity := by
  cases op with
  | createWasmGlobal | createWasmMemory | createWasmTable =>
      obtain rfl := Option.some.inj h
      exact ⟨_, rfl, rfl⟩
  | _ => exact nomatch h

end Operation

/-- The type of the object for modules, if it is one. -/
def StaticType.object? : StaticType → Option EntityType
  | wasmObject entity => some entity
  | _ => none

/-- No builtin is an object for modules. -/
def Environment.HoldsNoObjects (e : Environment) : Prop :=
  ∀ b ∈ e.builtins.entries, b.2.object? = none

lemma Environment.holdsNoObjects_script : script.HoldsNoObjects := by
  intro b hb
  rcases type_of_mem_script hb with h | ⟨group, h⟩ | h <;> rw [h] <;> rfl

namespace Typer

variable {t : Typer} {i : Instruction} {op : Operation} {inputs : List Variable} {v : Variable}
  {entity : EntityType}

lemma object?_builtinType {e : Environment} (h : e.HoldsNoObjects) {name : String} :
    ((e.builtinType? name).getD .anything).object? = none := by
  cases hb : e.builtinType? name with
  | none => rfl
  | some type =>
      rw [Environment.builtinType?, NameMap.find?, Option.map_eq_some_iff] at hb
      obtain ⟨b, hb, rfl⟩ := hb
      exact h b (List.mem_of_find?_eq_some hb)

lemma object?_importedEntity (source : Option Variable) (default : EntityType) :
    (t.importedEntity source default).object? = none := by
  unfold importedEntity
  split
  · split <;> rfl
  · rfl

/-- **Objects for modules come from the instructions that create them.** -/
theorem object?_resultType (h : t.environment.HoldsNoObjects) :
    (t.resultType op inputs).object? = op.createdEntity? := by
  cases op with
  | loadBuiltin name => exact object?_builtinType h
  | binaryOperation op =>
      change (op.resultType _ _).object? = none
      unfold BinaryOperator.resultType
      split <;> first | rfl | (split <;> first | rfl | (split <;> rfl))
  | unaryOperation op =>
      change (op.resultType _).object? = none
      unfold UnaryOperator.resultType
      split <;> first | rfl | (split <;> first | rfl | (split <;> rfl))
  | construct n guarded => cases guarded <;> rfl
  | instantiateWasm n =>
      unfold resultType
      dsimp only
      split <;> rfl
  | wasmImportGlobal | wasmImportTable | wasmImportMemory => exact object?_importedEntity _ _
  | wasmLoadGlobal | wasmTableGet =>
      unfold resultType
      dsimp only
      split <;> rfl
  | _ => rfl

lemma object?_of_mem_outputTypes (h : t.environment.HoldsNoObjects) {type : StaticType}
    (ht : type ∈ t.outputTypes op inputs) (ho : type.object? = some entity) :
    op.createdEntity? = some entity := by
  cases op with
  | wasmCallFunction signature =>
      obtain ⟨u, -, rfl⟩ := List.mem_map.mp (show type ∈ signature.results.map .wasm from ht)
      cases ho
  | endWasmModule =>
      simp only [outputTypes, List.mem_cons, List.not_mem_nil, or_false] at ht
      rcases ht with rfl | rfl <;> cases ho
  | _ =>
      rw [List.eq_of_mem_replicate ht, object?_resultType h] at ho
      exact ho

lemma object?_of_mem_innerOutputTypes {n : Nat} {type : StaticType}
    (ht : type ∈ innerOutputTypes op n) : type.object? = none := by
  cases op with
  | beginPlainFunction m =>
      rw [List.eq_of_mem_replicate ht]
      rfl
  | beginWasmFunction signature =>
      obtain ⟨u, -, rfl⟩ := List.mem_map.mp (show type ∈ signature.params.map .wasm from ht)
      rfl
  | _ =>
      first
      | exact absurd (show type ∈ [] from ht) List.not_mem_nil
      | (rw [List.mem_singleton.mp ht]; rfl)

/-- A variable that an instruction makes an object for modules is an output of it. -/
lemma object?_of_mem_definedVariables (h : t.environment.HoldsNoObjects)
    (ha : i.hasConsistentArity = true) (hn : i.definedVariables.Nodup)
    (hv : v ∈ i.definedVariables) (ho : ((t.apply i).typeOf v).object? = some entity) :
    i.operation.createdEntity? = some entity := by
  by_cases he : i.operation = .endWasmModule
  · -- the outputs are the module and its exports
    obtain ⟨-, hout, hinner⟩ := Instruction.hasConsistentArity_iff.mp ha
    rw [he] at hout hinner
    rw [Instruction.definedVariables, List.eq_nil_of_length_eq_zero hinner, List.append_nil] at hv
    obtain ⟨compiled, exports, hpair⟩ := List.length_eq_two.mp hout
    rw [apply_endWasmModule he, hpair, endModule, typeOf_record] at ho
    split at ho
    · cases ho
    · rename_i hne
      rw [hpair, List.mem_pair] at hv
      rw [typeOf_record, if_pos (hv.resolve_right (Ne.symm hne)).symm] at ho
      cases ho
  · rcases List.mem_append.mp hv with hv | hv
    · have hm : (t.apply i).typeOf v ∈ t.outputTypes i.operation i.inputs := by
        rw [← map_typeOf_outputs ha hn he]
        exact List.mem_map_of_mem hv
      exact object?_of_mem_outputTypes h hm ho
    · have hm : (t.apply i).typeOf v ∈
          innerOutputTypes i.operation i.operation.numInnerOutputs := by
        rw [← map_typeOf_innerOutputs ha hn he]
        exact List.mem_map_of_mem hv
      rw [object?_of_mem_innerOutputTypes hm] at ho
      cases ho

/-- What an accepted import declares is a function or has the type of its source. -/
lemma resultType_of_isImport {source : Variable} {function : Option FunctionSignature}
    (hi : op.isImport = true) (ha : op.acceptsInputs [t.typeOf source] function = true) :
    (∃ signature, t.resultType op [source] = .wasmEntity (.function signature)) ∨
      ∃ entity, t.typeOf source = .wasmObject entity ∧
        t.resultType op [source] = .wasmEntity entity := by
  -- an import whose source is an object of its own category
  have hentity : ∀ (default entity : EntityType), t.typeOf source = .wasmObject entity →
      entity.category = default.category →
      t.importedEntity (some source) default = .wasmEntity entity := by
    intro default entity ht hc
    simp [importedEntity, ht, hc]
  cases op with
  | wasmImportFunction signature => exact .inl ⟨signature, rfl⟩
  | wasmImportGlobal | wasmImportTable | wasmImportMemory =>
      obtain ⟨entity, ht, hc⟩ := Operation.accepts_import hi nofun ha
      exact .inr ⟨entity, ht, hentity _ entity ht (Option.some.inj hc).symm⟩
  | _ => exact nomatch hi

end Typer

/-! ### What imports are taken from -/

/-- One of the instructions creates the object for modules that the variable stands for. -/
def CreatedIn (is : List Instruction) (v : Variable) (entity : EntityType) : Prop :=
  ∃ i ∈ is, v ∈ i.definedVariables ∧ i.operation.createdEntity? = some entity

lemma CreatedIn.append {is : List Instruction} {v : Variable} {entity : EntityType}
    (h : CreatedIn is v entity) (js : List Instruction) : CreatedIn (is ++ js) v entity := by
  obtain ⟨i, hi, h⟩ := h
  exact ⟨i, List.mem_append_left _ hi, h⟩

/-- Where the objects for modules come from, behind some instructions, and what has been imported:
functions, and entities that have the types of their sources. -/
structure Typer.Supplied (t : Typer) (is : List Instruction) : Prop where
  builtins : t.environment.HoldsNoObjects
  objects : ∀ v entity, t.typeOf v = .wasmObject entity → CreatedIn is v entity
  imports : ∀ layout ∈ t.modules, ∀ e ∈ layout.entities, ∀ source ∈ e.source,
    (∃ signature, e.entity = .function signature) ∨ CreatedIn is source e.entity

namespace Typer

variable {t : Typer} {i : Instruction} {is : List Instruction}

lemma supplied_start {e : Environment} (h : e.HoldsNoObjects) : (start e).Supplied [] where
  builtins := h
  objects v entity hv := by
    rw [typeOf, start, Std.TreeMap.getD_emptyc] at hv
    cases hv
  imports := by simp [start]

/-- A declared entity is what the result of the instruction is. -/
lemma resultType_of_mem_declared {e : ModuleEntity} (h : e ∈ t.declared i) :
    t.resultType i.operation i.inputs = .wasmEntity e.entity := by
  unfold declared at h
  split at h
  · exact nomatch h
  · unfold Operation.entries at h
    split at h
    · exact nomatch h
    · rename_i entity ht
      have hr : t.resultType i.operation i.inputs = .wasmEntity entity := by
        cases hr : t.resultType i.operation i.inputs <;> rw [hr] at ht <;>
          first | exact congrArg _ (Option.some.inj ht) | exact nomatch ht
      split at h
      · rw [List.mem_singleton.mp h, hr]
      · split at h
        · obtain ⟨source, -, rfl⟩ := List.mem_map.mp h
          exact hr
        · exact nomatch h

/-- An import that is declared is a function or has the type of its source. -/
lemma Supplied.declared (h : t.Supplied is) (ha : i.hasConsistentArity = true)
    {function : Option FunctionSignature}
    (hi : i.operation.acceptsInputs (i.inputs.map t.typeOf) function = true) {e : ModuleEntity}
    (he : e ∈ t.declared i) {source : Variable} (hs : source ∈ e.source) :
    (∃ signature, e.entity = .function signature) ∨ CreatedIn is source e.entity := by
  cases hd : i.isDeclaration with
  | false =>
      rw [declared_of_not_isDeclaration hd] at he
      exact nomatch he
  | true =>
      obtain ⟨e', hdecl, hdeclares⟩ := declared_of_isDeclaration (t := t) ha hd
      have hentity := resultType_of_mem_declared he
      rw [hdecl] at he
      obtain rfl := List.mem_singleton.mp he
      have himport : i.operation.isImport = true := by
        rw [hdeclares.isImport, ModuleEntity.isImport, hs]
        rfl
      rw [hdeclares.source source hs] at hi hentity
      rcases resultType_of_isImport himport hi with ⟨signature, hr⟩ | ⟨entity, ht, hr⟩
      · rw [hr] at hentity
        exact .inl ⟨signature, (StaticType.wasmEntity.inj hentity).symm⟩
      · rw [hr] at hentity
        obtain rfl := StaticType.wasmEntity.inj hentity
        exact .inr (h.objects source _ ht)

/-- **Imports are supplied** behind every accepted instruction. -/
theorem Supplied.apply (h : t.Supplied is) (ha : i.hasConsistentArity = true)
    (hn : i.definedVariables.Nodup) {function : Option FunctionSignature}
    (hi : i.operation.acceptsInputs (i.inputs.map t.typeOf) function = true) :
    (t.apply i).Supplied (is ++ [i]) := by
  have hold : ∀ layout ∈ t.modules, ∀ e ∈ layout.entities, ∀ source ∈ e.source,
      (∃ signature, e.entity = .function signature) ∨ CreatedIn (is ++ [i]) source e.entity :=
    fun layout hl e he source hs => (h.imports layout hl e he source hs).imp_right (·.append _)
  refine ⟨by rw [environment_apply]; exact h.builtins, fun v entity hv => ?_, ?_⟩
  · by_cases hd : v ∈ i.definedVariables
    · refine ⟨i, by simp, hd, object?_of_mem_definedVariables h.builtins ha hn hd ?_⟩
      rw [hv]
      rfl
    · rw [typeOf_apply_of_not_mem hd] at hv
      exact (h.objects v entity hv).append _
  · by_cases hb : i.operation = .beginWasmModule
    · rw [modules_apply_beginWasmModule hb]
      exact List.forall_mem_cons.mpr ⟨by simp [ModuleLayout.empty], hold⟩
    by_cases he : i.operation = .endWasmModule
    · rw [modules_apply_endWasmModule he]
      exact fun layout hl => hold layout (List.mem_of_mem_tail hl)
    · rw [modules_apply ha hn hb he]
      cases hm : t.modules with
      | nil => simp
      | cons layout outer =>
          rw [hm] at hold
          obtain ⟨hl, houter⟩ := List.forall_mem_cons.mp hold
          rw [List.modifyHead_cons, List.forall_mem_cons]
          refine ⟨fun e he source hs => ?_, houter⟩
          rcases List.mem_append.mp he with he | he
          · exact hl e he source hs
          · exact (h.declared ha hi he hs).imp_right (·.append _)

end Typer

/-- Imports are supplied at every position of an accepted list of instructions. -/
lemma Validator.Steps.supplied {s s' : Validator} {is js : List Instruction} (hs : Steps s js s')
    (h : s.typer.Supplied is) (hn : ∀ i ∈ js, i.NumbersSmall) :
    s'.typer.Supplied (is ++ js) := by
  induction hs generalizing is with
  | nil s => rwa [List.append_nil]
  | cons head _ ih =>
      obtain ⟨hni, hnr⟩ := List.forall_mem_cons.mp hn
      obtain ⟨next, ha, rfl⟩ := step_eq_ok_iff.mp head
      rw [List.append_cons]
      exact ih (h.apply ha.arity (Sound.nodup_definedVariables ha hni) ha.inputs) hnr

/-! ### The values of the host -/

/-- Among instructions that define different variables a definition is found. -/
lemma Program.definitionOf?_eq {p : Program} {i : Instruction} {v : Variable}
    (hn : (p.instructions.flatMap (·.definedVariables)).Nodup) (hi : i ∈ p.instructions)
    (hv : v ∈ i.definedVariables) : p.definitionOf? v = some i := by
  obtain ⟨before, after, hsplit⟩ := List.append_of_mem hi
  rw [hsplit, List.flatMap_append, List.flatMap_cons] at hn
  have hbefore : before.find? (fun j => j.definedVariables.contains v) = none := by
    refine List.find?_eq_none.mpr fun j hj hc => ?_
    exact (List.nodup_append'.mp hn).2.2
      (List.mem_flatMap.mpr ⟨j, hj, List.contains_iff_mem.mp hc⟩) (List.mem_append_left _ hv)
  rw [definitionOf?, hsplit, List.find?_append, hbefore, Option.none_or, List.find?_cons]
  simp [hv]

/-- Imports whose sources are supplied get values of their types. -/
lemma Program.exists_hostImports {p : Program} {c : EncodedModule} {layout : ModuleLayout}
    (hn : (p.instructions.flatMap (·.definedVariables)).Nodup)
    (hsources : c.importSources = layout.imports.filterMap (·.source))
    (hsignature : c.signature = layout.signature)
    (h : ∀ e ∈ layout.entities, ∀ source ∈ e.source,
      (∃ signature, e.entity = .function signature) ∨
        CreatedIn p.instructions source e.entity) :
    ∃ values, p.hostImports c = .ok values ∧
      values.map (·.importType) = c.signature.imports := by
  have hvalue : ∀ e ∈ layout.entities, ∀ source ∈ e.source, ∃ value,
      HostImport.supply? e.entity ((p.definitionOf? source).map (·.operation)) = some value ∧
        value.importType = e.entity := by
    intro e he source hs
    rcases h e he source hs with ⟨signature, hf⟩ | ⟨i, hi, hv, hcreated⟩
    · rw [hf]
      exact ⟨.function signature, rfl, rfl⟩
    · rw [definitionOf?_eq hn hi hv]
      exact Operation.exists_supply? hcreated
  have himports : ∀ e ∈ layout.imports, e ∈ layout.entities ∧ e.source.isSome = true :=
    fun e he => List.mem_filter.mp he
  have hall : c.signature.imports = layout.imports.map (·.entity) := by rw [hsignature]; rfl
  rw [hall, hostImports, hsources, hall]
  simp only [mapM_eq_ok_iff]
  generalize layout.imports = es at himports
  -- the imports are numbered from any number on
  generalize 0 = index
  induction es generalizing index with
  | nil => exact ⟨[], .nil, rfl⟩
  | cons e es ih =>
      obtain ⟨⟨he, hsome⟩, hes⟩ := List.forall_mem_cons.mp himports
      obtain ⟨source, hs⟩ := Option.isSome_iff_exists.mp hsome
      obtain ⟨value, hv, ht⟩ := hvalue e he source hs
      obtain ⟨values, hvs, hts⟩ := ih hes (index + 1)
      refine ⟨value :: values, ?_, by rw [List.map_cons, List.map_cons, ht, hts]⟩
      rw [List.filterMap_cons, hs, List.map_cons, List.zip_cons_cons, List.zipIdx_cons]
      refine .cons ?_ hvs
      simp only [hv]

/-- No module is refused for values that are made for its imports. -/
lemma ModuleInstance.start_ne_unsuitableImport {settings : RuntimeSettings} {c : EncodedModule}
    {values : List HostImport} (h : values.map (·.importType) = c.body.importTypes) :
    start settings c values ≠ .error .unsuitableImport := by
  have hsuit : ∀ x ∈ c.body.importTypes.zip values, x.1.isSuppliedBy x.2.entityType = true := by
    have hzip : c.body.importTypes.zip values =
        values.map fun value => (value.importType, value) := by
      rw [← h]
      simpa using List.zip_map' (f := HostImport.importType) (g := id) (l := values)
    rw [hzip, List.forall_mem_map]
    exact fun value _ => value.isSuppliedBy_entityType
  unfold start
  split
  · rintro ⟨⟩
  · split
    · rintro ⟨⟩
    · rw [List.all_eq_true.mpr hsuit]
      rintro ⟨⟩

/-- **Host values match imports.**  The modules of an accepted program are encoded.  For each of
them the host makes as many values as the module has imports, and the value with a number has the
type of the import with this number, so that no module is refused for a value of another type. -/
theorem Program.host_values_match {p : Program} (h : p.validate .script = .ok ())
    (hn : p.NumbersSmall) : ∃ encoded, p.encodeModules .script = .ok encoded ∧
      ∀ c ∈ encoded, ∃ values, p.hostImports c = .ok values ∧
        values.length = c.body.imports.length ∧
        values.map (·.importType) = c.signature.imports ∧
        ∀ settings, ModuleInstance.start settings c values ≠ .error .unsuitableImport := by
  obtain ⟨s, ms, encoded, hms, henc, hall, -, -⟩ :=
    exists_modules h Environment.isScriptTyped_script hn
  refine ⟨encoded, henc, fun c hc => ?_⟩
  obtain ⟨m, -, layout, hm⟩ : ∃ m ∈ ms, ∃ layout, m.EncodesTo p .script s.typer layout c := by
    obtain ⟨k, hk, rfl⟩ := List.getElem_of_mem hc
    obtain ⟨hl, hat⟩ := List.forall₂_iff_get.mp hall
    exact ⟨ms[k], List.getElem_mem _, hat k (hl ▸ hk) hk⟩
  -- the imports are supplied in front of the end of the module
  have hsupplied : m.closed.typer.Supplied ([] ++ p.instructions.take c.last) :=
    hm.passed.supplied (Typer.supplied_start Environment.holdsNoObjects_script)
      fun i hi => hn i (List.mem_of_mem_take hi)
  have hlayout : layout ∈ m.closed.typer.modules := List.mem_of_mem_head? hm.lowers.current
  obtain ⟨values, hvalues, htypes⟩ := exists_hostImports (hms.steps.nodup_definedVariables hn)
    hm.sources hm.signature fun e he source hs =>
      (hsupplied.imports layout hlayout e he source hs).imp_right fun ⟨i, hi, hcreated⟩ =>
        ⟨i, List.mem_of_mem_take hi, hcreated⟩
  have himports : c.body.importTypes = c.signature.imports := by
    rw [LoweringContext.importTypes_eq hm.lowers.lowered, hm.signature]
    rfl
  refine ⟨values, hvalues, ?_, htypes, fun settings => ?_⟩
  · have hlength := congrArg List.length htypes
    rw [List.length_map, hm.signature] at hlength
    rw [hlength, ← (LoweringContext.forall₂_importedEntity? hm.lowers.lowered).length_eq]
    exact List.length_map ..
  · exact ModuleInstance.start_ne_unsuitableImport (htypes.trans himports.symm)

/-! ### A memory that is imported twice -/

/-- A program with a shared memory that two modules import. -/
def sharing : Program := .ofInstructions [
  ⟨.createWasmMemory 1 (some 2) true, [], [⟨0⟩], []⟩,
  ⟨.beginWasmModule, [], [], []⟩,
  ⟨.wasmImportMemory, [⟨0⟩], [⟨1⟩], []⟩,
  ⟨.endWasmModule, [], [⟨2⟩, ⟨3⟩], []⟩,
  ⟨.beginWasmModule, [], [], []⟩,
  ⟨.wasmImportMemory, [⟨0⟩], [⟨4⟩], []⟩,
  ⟨.endWasmModule, [], [⟨5⟩, ⟨6⟩], []⟩]

/-- A module may end behind its first entity. -/
lemma checkImports_of_modules_eq {t : Typer} {i : Instruction} {outer : List ModuleLayout}
    (ha : i.hasConsistentArity = true) (hn : i.definedVariables.Nodup)
    (hd : i.isDeclaration = true) (hm : t.modules = .empty :: outer) :
    Validator.checkImports (t.apply i) .endWasmModule = .ok () := by
  obtain ⟨e, he, -⟩ := Typer.declared_of_isDeclaration (t := t) ha hd
  have h₁ : i.operation ≠ .beginWasmModule := fun h => by
    rw [Instruction.isDeclaration, h] at hd
    cases hd
  have h₂ : i.operation ≠ .endWasmModule := fun h => by
    rw [Instruction.isDeclaration, h] at hd
    cases hd
  have hone : (t.apply i).currentModule?.bind (·.orderingViolation?) = none := by
    rw [Typer.currentModule?, Typer.modules_apply ha hn h₁ h₂, hm, he]
    change ModuleLayout.orderingViolation? ⟨[e]⟩ = none
    simp [ModuleLayout.orderingViolation?, ModuleLayout.firstViolation]
  unfold Validator.checkImports
  rw [hone]

lemma validate_sharing (e : Environment) : sharing.validate e = .ok () := by
  rw [Program.validate_eq_ok_iff]
  refine ⟨_, .cons (Validator.step_mk rfl (by simp) (by decide) rfl rfl rfl)
    (.cons (Validator.step_mk rfl (by simp) (by decide) rfl rfl rfl)
    (.cons (Validator.step_mk rfl ?_ (by decide) ?_ rfl rfl)
    (.cons (Validator.step_mk rfl (by simp) (by decide) rfl rfl ?_)
    (.cons (Validator.step_mk rfl (by simp) (by decide) rfl rfl rfl)
    (.cons (Validator.step_mk rfl ?_ (by decide) ?_ rfl rfl)
    (.cons (Validator.step_mk rfl (by simp) (by decide) rfl rfl ?_)
    (.nil _))))))), rfl⟩
  · intro v hv
    rw [List.mem_singleton.mp hv]
    exact ScopeState.isVisible_apply_of_isVisible
      (ScopeState.isVisible_apply_of_mem (by decide) (by decide)) rfl
  · rw [List.map_cons, Typer.typeOf_apply_of_not_mem (by decide),
      Typer.typeOf_apply_of_outputs rfl (by decide) (by decide) rfl rfl]
    rfl
  · exact checkImports_of_modules_eq rfl (by decide) rfl (Typer.modules_apply_beginWasmModule rfl)
  · intro v hv
    rw [List.mem_singleton.mp hv]
    refine ScopeState.isVisible_apply_of_isVisible ?_ rfl
    -- the memory is declared outside of the module that ends
    rw [ScopeState.apply_of_not_isBlockStart rfl, ScopeState.declared,
      ScopeState.isVisible_declareAll, ScopeState.outside_of_isBlockEnd rfl]
    refine .inr (ScopeState.isVisible_leave.mpr ⟨by decide, ?_⟩)
    exact ScopeState.isVisible_apply_of_isVisible (ScopeState.isVisible_apply_of_isVisible
      (ScopeState.isVisible_apply_of_mem (by decide) (by decide)) rfl) rfl
  · rw [List.map_cons, Typer.typeOf_apply_of_not_mem (by decide),
      Typer.typeOf_apply_of_not_mem (by decide), Typer.typeOf_apply_of_not_mem (by decide),
      Typer.typeOf_apply_of_not_mem (by decide),
      Typer.typeOf_apply_of_outputs rfl (by decide) (by decide) rfl rfl]
    rfl
  · exact checkImports_of_modules_eq rfl (by decide) rfl (Typer.modules_apply_beginWasmModule rfl)

/-- Two modules import one memory. -/
theorem host_values_match_sharing : sharing.validate .script = .ok () ∧ sharing.NumbersSmall ∧
    ∃ encoded, sharing.encodeModules .script = .ok encoded ∧
      ∀ c ∈ encoded, ∃ values, sharing.hostImports c = .ok values ∧
        values.length = c.body.imports.length ∧
        values.map (·.importType) = c.signature.imports ∧
        ∀ settings, ModuleInstance.start settings c values ≠ .error .unsuitableImport :=
  ⟨validate_sharing .script, by decide,
    Program.host_values_match (validate_sharing .script) (by decide)⟩

end EngineFuzz
