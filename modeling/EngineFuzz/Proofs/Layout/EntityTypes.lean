import Mathlib
import EngineFuzz.Lift.Module
import EngineFuzz.Proofs.Layout.IndexSpace
import EngineFuzz.Proofs.Result
import EngineFuzz.Wasm.Typing

/-!
# Index spaces of lowered modules

The sections of a lowered module list the entities of its layout, so that code sees every entity
at the index that the layout gives it.  The signatures of all functions of the layout are in the
type section, so that none of them is looked up in vain.

* `ModuleLayout.entityTypes`: the entities of a layout as code sees them.
* `LoweringContext.exists_module_iff`: only the bodies of functions decide whether a module is
  lowered.
* `LoweringContext.importTypes_eq`, `LoweringContext.definedSignatures?_eq`,
  `LoweringContext.entityTypes_eq`: the entities of a lowered module are the same.
* `ModuleLayout.functions_getElem?` and its kind: an entity at its index.
-/

namespace EngineFuzz

namespace EntityType

/-- The signature, if the entity is a function. -/
def function? : EntityType → Option FunctionSignature
  | function signature => some signature
  | _ => none

/-- The type of the table, if the entity is one. -/
def table? : EntityType → Option TableType
  | table element least most => some ⟨element, least, most⟩
  | _ => none

/-- The type of the memory, if the entity is one. -/
def memory? : EntityType → Option MemoryType
  | memory least most shared => some ⟨least, most, shared⟩
  | _ => none

/-- The type of the global, if the entity is one. -/
def global? : EntityType → Option GlobalType
  | global type isMutable => some ⟨type, isMutable⟩
  | _ => none

variable {e : EntityType}

lemma isSome_function?_iff : e.function?.isSome = true ↔ e.category = .function := by
  cases e <;> simp [function?, category]

lemma isSome_table?_iff : e.table?.isSome = true ↔ e.category = .table := by
  cases e <;> simp [table?, category]

lemma isSome_memory?_iff : e.memory?.isSome = true ↔ e.category = .memory := by
  cases e <;> simp [memory?, category]

lemma isSome_global?_iff : e.global?.isSome = true ↔ e.category = .global := by
  cases e <;> simp [global?, category]

end EntityType

/-! ### Views of the entities of one category -/

section Views

variable {β : Type} {f : EntityType → Option β} {c : EntityCategory} {es : List ModuleEntity}
  {l : ModuleLayout}

/-- Entities that a view shows are those of its category. -/
lemma filterMap_filter_category (hf : ∀ e, (f e).isSome = true ↔ e.category = c) :
    (es.filter fun e => e.category == c).filterMap (fun e => f e.entity) =
      es.filterMap fun e => f e.entity := by
  rw [List.filterMap_filter]
  refine List.filterMap_congr fun e _ => ?_
  split
  · rfl
  · rename_i h
    cases hs : f e.entity with
    | none => rfl
    | some b =>
        have := (hf e.entity).mp (by rw [hs]; rfl)
        exact absurd (beq_iff_eq.mpr this) h

/-- The imports that a view shows. -/
lemma filterMap_imports (hf : ∀ e, (f e).isSome = true ↔ e.category = c) :
    (l.imports.map (·.entity)).filterMap f = (l.importsOf c).filterMap fun e => f e.entity := by
  rw [List.filterMap_map, ModuleLayout.importsOf, filterMap_filter_category hf]
  rfl

/-- Where every member is shown, the places stay the same. -/
lemma getElem?_filterMap {α : Type} {g : α → Option β} {as : List α} {k : Nat} {a : α} {b : β}
    (h : ∀ a ∈ as, (g a).isSome = true) (hk : as[k]? = some a) (hb : g a = some b) :
    (as.filterMap g)[k]? = some b := by
  induction as generalizing k with
  | nil => simp at hk
  | cons a' as ih =>
      obtain ⟨ha', has⟩ := List.forall_mem_cons.mp h
      obtain ⟨b', hb'⟩ := Option.isSome_iff_exists.mp ha'
      rw [List.filterMap_cons, hb']
      cases k with
      | zero =>
          simp only [List.getElem?_cons_zero, Option.some.injEq] at hk ⊢
          rw [hk, hb] at hb'
          exact (Option.some.inj hb').symm
      | succ k => exact ih has hk

/-- As many entities are shown as there are in the category. -/
lemma length_filterMap_ordered (hf : ∀ e, (f e).isSome = true ↔ e.category = c) :
    ((l.ordered c).filterMap fun e => f e.entity).length = (l.ordered c).length := by
  rw [List.length_filterMap_eq_countP]
  exact List.countP_eq_length.mpr fun e he => (hf _).mpr (ModuleLayout.mem_of_mem_ordered he).2

/-- An entity is shown at its index. -/
lemma getElem?_ordered (hf : ∀ e, (f e).isSome = true ↔ e.category = c) {k : Nat}
    {e : ModuleEntity} {b : β} (hk : (l.ordered c)[k]? = some e) (hb : f e.entity = some b) :
    ((l.ordered c).filterMap fun e => f e.entity)[k]? = some b :=
  getElem?_filterMap (fun _ he => (hf _).mpr (ModuleLayout.mem_of_mem_ordered he).2) hk hb

end Views

/-! ### Layouts -/

namespace ModuleLayout

variable {l : ModuleLayout} {index : Nat} {e : ModuleEntity}

/-- The signatures of the functions that the module defines. -/
def definedSignatures (l : ModuleLayout) : List FunctionSignature :=
  (l.definitions .function).filterMap fun e => e.entity.function?

/-- The entities as function bodies refer to them. -/
def entityTypes (l : ModuleLayout) : EntityTypes where
  functions := (l.ordered .function).filterMap fun e => e.entity.function?
  tables := ((l.ordered .table).filterMap fun e => e.entity.table?).map (·.element.asReference)
  memoryCount := (l.ordered .memory).length
  globals := (l.ordered .global).filterMap fun e => e.entity.global?

lemma functions_getElem? {signature : FunctionSignature}
    (h : (l.ordered .function)[index]? = some e) (he : e.entity = .function signature) :
    l.entityTypes.functions[index]? = some signature :=
  getElem?_ordered (fun _ => EntityType.isSome_function?_iff) h (by rw [he]; rfl)

lemma tables_getElem? {element : WasmType} {least : UInt32} {most : Option UInt32}
    (h : (l.ordered .table)[index]? = some e) (he : e.entity = .table element least most) :
    l.entityTypes.tables[index]? = some element.asReference := by
  have ht : ((l.ordered .table).filterMap fun e => e.entity.table?)[index]? =
      some ⟨element, least, most⟩ :=
    getElem?_ordered (fun _ => EntityType.isSome_table?_iff) h (by rw [he]; rfl)
  rw [entityTypes, List.getElem?_map, ht]
  rfl

lemma lt_memoryCount (h : (l.ordered .memory)[index]? = some e) :
    index < l.entityTypes.memoryCount :=
  (List.getElem?_eq_some_iff.mp h).1

lemma globals_getElem? {type : WasmType} {isMutable : Bool}
    (h : (l.ordered .global)[index]? = some e) (he : e.entity = .global type isMutable) :
    l.entityTypes.globals[index]? = some ⟨type, isMutable⟩ :=
  getElem?_ordered (fun _ => EntityType.isSome_global?_iff) h (by rw [he]; rfl)

/-! ### Numbers of signatures -/

lemma mem_distinct {α : Type} [BEq α] [LawfulBEq α] {items : List α} {a : α} (h : a ∈ items) :
    a ∈ distinct items := by
  have hfold : ∀ (items seen : List α), a ∈ seen ∨ a ∈ items →
      a ∈ items.foldl (fun seen a => if seen.contains a then seen else a :: seen) seen := by
    intro items
    induction items with
    | nil => exact fun seen h => h.resolve_right List.not_mem_nil
    | cons b items ih =>
        intro seen h
        refine ih _ ?_
        dsimp only
        rcases h with h | h
        · left
          split
          · exact h
          · exact List.mem_cons_of_mem _ h
        · rcases List.mem_cons.mp h with rfl | h
          · left
            split
            · rename_i hs
              exact List.contains_iff_mem.mp hs
            · exact List.mem_cons_self ..
          · exact .inr h
  rw [distinct, List.mem_reverse]
  exact hfold items [] (.inr h)

/-- Every function has a signature with a number. -/
lemma mem_functionTypes {signature : FunctionSignature} (he : e ∈ l.entities)
    (h : e.entity = .function signature) : signature ∈ l.functionTypes :=
  mem_distinct (List.mem_filterMap.mpr ⟨e, he, by rw [h]⟩)

end ModuleLayout

/-! ### Lowered modules -/

namespace LoweringContext

variable {context : LoweringContext} {body : List Instruction} {m : WasmModule}
  {types : List FunctionSignature} {signature : FunctionSignature} {number : Nat}

/-- What is found under the number of a signature. -/
lemma getElem?_typeIndex (h : typeIndex types signature = .ok number) :
    types[number]? = some signature := by
  unfold typeIndex at h
  split at h
  · rename_i index hindex
    obtain rfl := Except.ok.inj h
    obtain ⟨hlt, heq, -⟩ := List.findIdx?_eq_some_iff_getElem.mp hindex
    rw [List.getElem?_eq_getElem hlt, beq_iff_eq.mp heq]
  · exact nomatch h

/-- **A signature in the type section has a number.** -/
lemma exists_typeIndex (h : signature ∈ types) :
    ∃ number, typeIndex types signature = .ok number := by
  unfold typeIndex
  split
  · exact ⟨_, rfl⟩
  · rename_i hnone
    have := List.findIdx?_eq_none_iff.mp hnone signature h
    simp at this

/-- The type of an import is that of its entity. -/
lemma importedEntity?_eq {x : ModuleEntity × Nat} {i : ImportEntry} (ht : m.types = types)
    (h : importEntry types x = .ok i) : m.importedEntity? i = some x.1.entity ∧
      i.module = WasmModule.importModule ∧ i.name = WasmModule.importName x.2 := by
  obtain ⟨type, htype, h⟩ := bind_eq_ok_iff.mp h
  obtain rfl := pure_eq_ok_iff.mp h
  refine ⟨?_, rfl, rfl⟩
  cases hent : x.1.entity with
  | function signature =>
      rw [hent] at htype
      obtain ⟨number, hn, htype⟩ := bind_eq_ok_iff.mp htype
      obtain rfl := pure_eq_ok_iff.mp htype
      rw [WasmModule.importedEntity?, ht]
      exact congrArg (Option.map EntityType.function) (getElem?_typeIndex hn)
  | _ =>
      rw [hent] at htype
      obtain rfl := Except.ok.inj htype
      rfl

/-- An entity whose signature, if it is a function, is in the type section can be imported. -/
lemma exists_importEntry {x : ModuleEntity × Nat}
    (h : ∀ signature, x.1.entity = .function signature → signature ∈ types) :
    ∃ i, importEntry types x = .ok i := by
  have htype : ∃ type, importType types x.1.entity = .ok type := by
    cases hent : x.1.entity with
    | function signature =>
        obtain ⟨number, hn⟩ := exists_typeIndex (h signature hent)
        exact ⟨.function number, bind_eq_ok_iff.mpr ⟨number, hn, rfl⟩⟩
    | _ => exact ⟨_, rfl⟩
  obtain ⟨type, htype⟩ := htype
  exact ⟨_, bind_eq_ok_iff.mpr ⟨type, htype, rfl⟩⟩

/-- What the sections of a lowered module are made of. -/
structure Lowers (context : LoweringContext) (body : List Instruction) (m : WasmModule) :
    Prop where
  types : m.types = context.layout.functionTypes
  imports : List.Forall₂ (fun x i => importEntry context.layout.functionTypes x = .ok i)
    context.layout.imports.zipIdx m.imports
  functions : List.Forall₂ (fun s n => typeIndex context.layout.functionTypes s = .ok n)
    context.layout.definedSignatures m.functions
  tables : m.tables = (context.layout.definitions .table).filterMap fun e => e.entity.table?
  memories : m.memories = (context.layout.definitions .memory).filterMap fun e => e.entity.memory?
  globals : m.globals = (context.layout.definitions .global).filterMap fun e =>
    e.entity.global?.map fun type => (type, initialValue body e.var type.type)
  exports : m.exports = context.layout.entities.filterMap (exportEntry context.layout)
  bodies : context.functionBodies body = .ok m.bodies

/-- How a module is lowered. -/
lemma module_eq_ok_iff : context.module body = .ok m ↔ context.Lowers body m := by
  constructor
  · intro h
    obtain ⟨imports, himports, h⟩ := bind_eq_ok_iff.mp h
    obtain ⟨functions, hfunctions, h⟩ := bind_eq_ok_iff.mp h
    obtain ⟨bodies, hbodies, h⟩ := bind_eq_ok_iff.mp h
    obtain rfl := pure_eq_ok_iff.mp h
    refine ⟨rfl, mapM_eq_ok_iff.mp himports, mapM_eq_ok_iff.mp hfunctions, rfl, rfl, ?_, rfl,
      hbodies⟩
    refine List.filterMap_congr fun e _ => ?_
    cases e.entity <;> rfl
  · rintro ⟨htypes, himports, hfunctions, htables, hmemories, hglobals, hexports, hbodies⟩
    refine bind_eq_ok_iff.mpr ⟨_, mapM_eq_ok_iff.mpr himports, ?_⟩
    refine bind_eq_ok_iff.mpr ⟨_, mapM_eq_ok_iff.mpr hfunctions, ?_⟩
    refine bind_eq_ok_iff.mpr ⟨_, hbodies, pure_eq_ok_iff.mpr ?_⟩
    obtain ⟨types, imports, functions, tables, memories, globals, exports, bodies⟩ := m
    cases htypes
    cases htables
    cases hmemories
    cases hexports
    cases hglobals
    refine congrArg (fun globals => WasmModule.mk _ _ _ _ _ globals _ _)
      (List.filterMap_congr fun e _ => ?_)
    cases e.entity <;> rfl

/-- A list can be mapped if each of its members can. -/
lemma exists_forall₂ {α β : Type} {R : α → β → Prop} {as : List α} (h : ∀ a ∈ as, ∃ b, R a b) :
    ∃ bs, List.Forall₂ R as bs := by
  induction as with
  | nil => exact ⟨[], .nil⟩
  | cons a as ih =>
      obtain ⟨⟨b, hb⟩, has⟩ := List.forall_mem_cons.mp h
      obtain ⟨bs, hbs⟩ := ih has
      exact ⟨b :: bs, .cons hb hbs⟩

/-- **No signature is looked up in vain**: whether a module is lowered depends on the bodies of its
functions alone. -/
theorem exists_module_iff {bodies : List FunctionBody} :
    (∃ m, context.module body = .ok m ∧ m.bodies = bodies) ↔
      context.functionBodies body = .ok bodies := by
  constructor
  · rintro ⟨m, hm, rfl⟩
    exact (module_eq_ok_iff.mp hm).bodies
  · intro h
    obtain ⟨imports, himports⟩ : ∃ imports : List ImportEntry, List.Forall₂
        (fun x i => importEntry context.layout.functionTypes x = .ok i)
        context.layout.imports.zipIdx imports := by
      refine exists_forall₂ fun x hx => exists_importEntry fun signature hs => ?_
      exact ModuleLayout.mem_functionTypes
        (List.mem_of_mem_filter (List.fst_mem_of_mem_zipIdx hx)) hs
    obtain ⟨functions, hfunctions⟩ : ∃ functions : List Nat, List.Forall₂
        (fun s n => typeIndex context.layout.functionTypes s = .ok n)
        context.layout.definedSignatures functions := by
      refine exists_forall₂ fun s hs => exists_typeIndex ?_
      obtain ⟨e, he, hs⟩ := List.mem_filterMap.mp hs
      rw [ModuleLayout.definitions_eq] at he
      refine ModuleLayout.mem_functionTypes (List.mem_of_mem_filter he) ?_
      cases hent : e.entity with
      | function signature =>
          rw [hent] at hs
          rw [Option.some.inj hs]
      | _ => rw [hent] at hs; cases hs
    exact ⟨⟨_, imports, functions, _, _, _, _, bodies⟩,
      module_eq_ok_iff.mpr ⟨rfl, himports, hfunctions, rfl, rfl, rfl, rfl, h⟩, rfl⟩

variable (h : context.module body = .ok m)

include h in
/-- **The imports of a lowered module** are those of its layout, and have their numbers in their
names. -/
theorem forall₂_imports : List.Forall₂ (fun x i => m.importedEntity? i = some x.1.entity ∧
    i.module = WasmModule.importModule ∧ i.name = WasmModule.importName x.2)
      context.layout.imports.zipIdx m.imports := by
  have hl := module_eq_ok_iff.mp h
  exact hl.imports.imp fun x i hi => importedEntity?_eq hl.types hi

include h in
lemma forall₂_importedEntity? :
    List.Forall₂ (fun e i => m.importedEntity? i = some e.entity) context.layout.imports
      m.imports := by
  have hall := (forall₂_imports h).imp fun _ _ hi => hi.1
  rw [← List.zipIdx_map_fst 0 context.layout.imports, List.forall₂_map_left_iff]
  exact hall

include h in
/-- The types of the imports are those of the entities. -/
theorem importTypes_eq : m.importTypes = context.layout.imports.map (·.entity) := by
  have hall : ∀ {es : List ModuleEntity} {is : List ImportEntry},
      List.Forall₂ (fun e i => m.importedEntity? i = some e.entity) es is →
        is.filterMap m.importedEntity? = es.map (·.entity) := by
    intro es is his
    induction his with
    | nil => rfl
    | cons hx _ ih => rw [List.filterMap_cons, hx, List.map_cons, ← ih]
  exact hall (forall₂_importedEntity? h)

include h in
/-- The signatures of the defined functions of a lowered module are those of its layout. -/
theorem definedSignatures?_eq : m.definedSignatures? = some context.layout.definedSignatures := by
  have hl := module_eq_ok_iff.mp h
  have hall : ∀ {ss : List FunctionSignature} {ns : List Nat},
      List.Forall₂ (fun s n => typeIndex context.layout.functionTypes s = .ok n) ss ns →
        (ns.mapM fun n => m.types[n]?) = some ss := by
    intro ss ns hns
    induction hns with
    | nil => rfl
    | cons hs _ ih =>
        rw [List.mapM_cons, ih, hl.types, getElem?_typeIndex hs]
        rfl
  exact hall hl.functions

include h in
/-- **The entities of a lowered module** are those of its layout. -/
theorem entityTypes_eq :
    m.entityTypes context.layout.definedSignatures = context.layout.entityTypes := by
  have hl := module_eq_ok_iff.mp h
  have himports := importTypes_eq h
  have hfunctions : m.importTypes.filterMap EntityType.function? ++
      context.layout.definedSignatures = context.layout.entityTypes.functions := by
    rw [himports, filterMap_imports fun _ => EntityType.isSome_function?_iff,
      ModuleLayout.definedSignatures, ← List.filterMap_append]
    rfl
  have htables : (m.importTypes.filterMap EntityType.table? ++ m.tables).map
      (·.element.asReference) = context.layout.entityTypes.tables := by
    rw [himports, hl.tables, filterMap_imports fun _ => EntityType.isSome_table?_iff,
      ← List.filterMap_append]
    rfl
  have hmemories : (m.importTypes.filterMap EntityType.memory? ++ m.memories).length =
      context.layout.entityTypes.memoryCount := by
    rw [himports, hl.memories, filterMap_imports fun _ => EntityType.isSome_memory?_iff,
      ← List.filterMap_append]
    exact length_filterMap_ordered fun _ => EntityType.isSome_memory?_iff
  have hglobals : m.importTypes.filterMap EntityType.global? ++ m.globals.map (·.1) =
      context.layout.entityTypes.globals := by
    have hdefined : m.globals.map (·.1) =
        (context.layout.definitions .global).filterMap fun e => e.entity.global? := by
      rw [hl.globals, List.map_filterMap]
      refine List.filterMap_congr fun e _ => ?_
      cases e.entity.global? <;> rfl
    rw [himports, hdefined, filterMap_imports fun _ => EntityType.isSome_global?_iff,
      ← List.filterMap_append]
    rfl
  rw [WasmModule.entityTypes, EntityTypes.mk.injEq]
  exact ⟨hfunctions, htables, hmemories, hglobals⟩

end LoweringContext

end EngineFuzz
