import Mathlib
import EngineFuzz.Lift.Script
import EngineFuzz.Proofs.Layout.EntityTypes
import EngineFuzz.Proofs.Layout.Exports
import EngineFuzz.Proofs.Lift.Declarations

/-!
# The index spaces of emitted modules

The sections of an emitted module fill one index space for each category: first the imports of the
category, in the order of the import section, then the items of the section of the category.  The
instructions in the body of a module declare the same entities, and the layout gives them the same
places.

* `WasmModule.indexSpace`, `WasmModule.entity?`: the entities of an emitted module.
* `ModuleRun.LowersTo.indexSpace_eq`: an index space follows the instructions.
* `ModuleRun.LowersTo.initialValue_eq`: a global starts with the literal of its own definition.
* `ModuleRun.LowersTo.exports_perm`: the exports are those of the signature.
-/

namespace EngineFuzz

/-- Where an entity of an emitted module comes from. -/
inductive Origin where
  /-- An item of the import section. -/
  | imported (number : Nat)
  /-- An item of the section of the category. -/
  | defined (number : Nat)

/-- The index space that an import falls into. -/
def ImportType.category : ImportType → EntityCategory
  | function _ => .function
  | table _ => .table
  | memory _ => .memory
  | global _ => .global

namespace WasmModule

/-- The number of items in the section of a category. -/
def definedCount (m : WasmModule) : EntityCategory → Nat
  | .function => m.functions.length
  | .table => m.tables.length
  | .memory => m.memories.length
  | .global => m.globals.length

/-- The entities of a category by their indices. -/
def indexSpace (m : WasmModule) (c : EntityCategory) : List Origin :=
  (m.imports.zipIdx.filterMap fun (i, number) =>
    if i.type.category = c then some (.imported number) else none) ++
  (List.range (m.definedCount c)).map .defined

/-- The type of a defined function. -/
def function? (m : WasmModule) (number : Nat) : Option EntityType :=
  m.types[number]?.map .function

/-- The type of an entity of a category. -/
def typeOf? (m : WasmModule) (c : EntityCategory) : Origin → Option EntityType
  | .imported number => m.imports[number]?.bind m.importedEntity?
  | .defined number =>
    match c with
    | .function => m.functions[number]?.bind m.function?
    | .table => m.tables[number]?.map fun t => .table t.element t.minimum t.maximum
    | .memory => m.memories[number]?.map fun t => .memory t.minimum t.maximum t.shared
    | .global => m.globals[number]?.map fun g => .global g.1.type g.1.isMutable

/-- The type of the entity with an index in a category. -/
def entity? (m : WasmModule) (c : EntityCategory) (index : Nat) : Option EntityType :=
  (m.indexSpace c)[index]?.bind (m.typeOf? c)

/-- An import falls into the index space of its entity. -/
lemma category_eq {m : WasmModule} {i : ImportEntry} {t : EntityType}
    (h : m.importedEntity? i = some t) : i.type.category = t.category := by
  unfold importedEntity? at h
  split at h
  · obtain ⟨signature, -, rfl⟩ := Option.map_eq_some_iff.mp h
    rename_i hi
    rw [hi]
    rfl
  all_goals
    rename_i hi
    obtain rfl := Option.some.inj h
    rw [hi]
    rfl

end WasmModule

/-! ### The instructions of a body -/

/-- The instructions that import an entity. -/
def importsIn (body : List Instruction) : List Instruction :=
  body.filter (·.operation.isImport)

/-- The instructions that define an entity of a category.  A function is defined at its end. -/
def definitionsIn (body : List Instruction) (c : EntityCategory) : List Instruction :=
  body.filter fun i => i.operation.isDefinition && Direct.category? i.operation == some c

/-- The instructions that declare an entity of a category, imports first. -/
def declarationsIn (body : List Instruction) (c : EntityCategory) : List Instruction :=
  (importsIn body).filter (fun i => Direct.category? i.operation == some c) ++
    definitionsIn body c

/-- The instruction that an entity of a category comes from. -/
def Origin.instruction? (body : List Instruction) (c : EntityCategory) :
    Origin → Option Instruction
  | imported number => (importsIn body)[number]?
  | defined number => (definitionsIn body c)[number]?

lemma definitionsIn_function (body : List Instruction) : definitionsIn body .function =
    body.filter fun i => i.operation.endsFunction := by
  refine List.filter_congr fun i _ => ?_
  cases i.operation <;> rfl

/-! ### Numbered lists -/

section Numbered

variable {α β γ : Type} {R : α → β → Prop} {as : List α} {bs : List β}

lemma map_range_getElem? (as : List α) (f : α → Option β) :
    ((List.range as.length).map fun k => as[k]?.bind f) = as.map f := by
  refine List.ext_getElem (by simp) fun k h₁ h₂ => ?_
  have hk : k < as.length := by simpa using h₂
  simp [List.getElem?_eq_getElem hk]

/-- Where two lists go together, the numbers of the members of a kind in the one lead to those in
the other. -/
lemma map_numbers (h : List.Forall₂ R as bs) {p : α → Bool} {q : β → Bool}
    (hpq : ∀ a b, R a b → p a = q b) (f : α → Option γ) (done : List α) :
    ((bs.zipIdx done.length).filterMap fun (b, k) => if q b then some k else none).map
      (fun k => (done ++ as)[k]?.bind f) = (as.filter p).map f := by
  induction h generalizing done with
  | nil => rfl
  | @cons a b as bs hab _ ih =>
      have hrest := ih (done ++ [a])
      rw [List.length_append, List.length_singleton, List.append_assoc] at hrest
      rw [List.zipIdx_cons, List.filterMap_cons]
      dsimp only
      cases hq : q b with
      | false =>
          rw [List.filter_cons_of_neg (by rw [hpq a b hab, hq]; exact Bool.false_ne_true)]
          exact hrest
      | true =>
          rw [List.filter_cons_of_pos (by rw [hpq a b hab, hq]), if_pos rfl, List.map_cons,
            List.map_cons]
          refine congrArg₂ _ ?_ hrest
          rw [List.getElem?_append_right (le_refl _), Nat.sub_self]
          rfl

/-- What a view makes of the members that it shows. -/
lemma forall₂_filterMap {view : α → Option β} (h : ∀ a ∈ as, ∃ b, view a = some b ∧ R a b) :
    List.Forall₂ R as (as.filterMap view) := by
  induction as with
  | nil => exact .nil
  | cons a as ih =>
      obtain ⟨⟨b, hb, hab⟩, has⟩ := List.forall_mem_cons.mp h
      rw [List.filterMap_cons, hb]
      exact .cons hab (ih has)

lemma map_eq_of_forall₂ {f : α → γ} {g : β → γ} (h : List.Forall₂ (fun a b => g b = f a) as bs) :
    bs.map g = as.map f := by
  induction h with
  | nil => rfl
  | cons hab _ ih => rw [List.map_cons, List.map_cons, hab, ih]

lemma bind_getElem?_eq {f : α → Option γ} {g : β → Option γ} {k : Nat}
    (h : List.Forall₂ (fun a b => g b = f a) as bs) : bs[k]?.bind g = as[k]?.bind f := by
  have hat := congrArg (·[k]?) (map_eq_of_forall₂ h)
  simp only [List.getElem?_map] at hat
  cases hb : bs[k]? <;> cases ha : as[k]? <;> rw [ha, hb] at hat <;>
    first | exact Option.some.inj hat | rfl | cases hat

/-- Lists that go together with a list in between. -/
lemma forall₂_trans {S : β → γ → Prop} {T : α → γ → Prop} {cs : List γ}
    (h : List.Forall₂ R as bs) (h' : List.Forall₂ S bs cs)
    (ht : ∀ a b c, R a b → S b c → T a c) : List.Forall₂ T as cs := by
  induction h generalizing cs with
  | nil =>
      obtain rfl := List.forall₂_nil_left_iff.mp h'
      exact .nil
  | @cons a b as bs hab _ ih =>
      cases h' with
      | cons hbc hrest => exact .cons (ht a b _ hab hbc) (ih hrest)

lemma exists_getElem?_of_forall₂ {k : Nat} {a : α} (h : List.Forall₂ R as bs)
    (ha : as[k]? = some a) : ∃ b, bs[k]? = some b ∧ R a b := by
  obtain ⟨hk, rfl⟩ := List.getElem?_eq_some_iff.mp ha
  obtain ⟨hl, hat⟩ := List.forall₂_iff_get.mp h
  exact ⟨bs.get ⟨k, hl ▸ hk⟩, List.getElem?_eq_getElem _, hat k hk (hl ▸ hk)⟩

end Numbered

/-! ### Lowered modules -/

namespace ModuleRun.LowersTo

variable {m : ModuleRun} {t : Typer} {layout : ModuleLayout} {module : WasmModule}
  {c : EntityCategory} {index number : Nat} {e : ModuleEntity} {i : Instruction}

/-- The variable of an entity has the type of the entity. -/
lemma typeOf_entity (h : m.LowersTo t layout module) (he : e ∈ layout.entities) :
    t.typeOf e.var = .wasmEntity e.entity := by
  have hs : m.closed.Sound := (h.sound.step m.step_first (h.small _ (List.mem_cons_self ..))).steps
    m.passes.steps fun i hi => h.small i (mem_instructions_of_mem_body hi)
  obtain ⟨next, ha, -⟩ := Validator.step_eq_ok_iff.mp m.step_last
  have hw : OpenBlock.worldOf m.closed.scopes.blocks = .module := by
    rw [hs.fits.worldOf_eq_home ha.position, m.last_operation]
    rfl
  obtain ⟨top, rest, hsc, htop, -⟩ := hs.fits.exists_scopes
  rw [hw] at htop
  obtain ⟨layout', hl, hvs, htypes⟩ := htop
  obtain rfl : layout' = layout := Option.some.inj (hl.symm.trans h.current)
  rw [← htypes e he]
  refine h.covers.types e.var (hs.old _ ?_)
  have hmem : e.var ∈ top.reverse := by
    rw [← hvs]
    exact List.mem_map_of_mem he
  rw [hsc, List.flatten_cons]
  exact List.mem_append_left _ (List.mem_reverse.mp hmem)

lemma forall₂_imports (h : m.LowersTo t layout module) :
    List.Forall₂ Instruction.Declares (importsIn m.body) layout.imports := by
  refine h.declares_filter (fun i e hie => hie.isImport) fun i hi => ?_
  unfold Instruction.isDeclaration
  cases hop : i.operation <;> rw [hop] at hi <;>
    first | rfl | exact absurd hi Bool.false_ne_true

lemma forall₂_definitions (h : m.LowersTo t layout module) (c : EntityCategory) :
    List.Forall₂ Instruction.Declares (definitionsIn m.body c) (layout.definitions c) := by
  refine h.declares_filter (fun i e hie => ?_) fun i hi => ?_
  · rw [hie.isDefinition, hie.category]
    rfl
  · rw [Bool.and_eq_true, beq_iff_eq] at hi
    rw [Instruction.isDeclaration, hi.2]
    rfl

/-- The instructions that declare an entity of a category declare those of the layout. -/
lemma forall₂_declarations (h : m.LowersTo t layout module) (c : EntityCategory) :
    List.Forall₂ Instruction.Declares (declarationsIn m.body c) (layout.ordered c) := by
  refine List.rel_append (List.rel_filter (fun i e hie => ?_) h.forall₂_imports)
    (h.forall₂_definitions c)
  change (Direct.category? i.operation == some c) = true ↔ (e.category == c) = true
  rw [hie.category]
  exact Iff.rfl

/-- The section of a category has the types of the entities that the layout defines. -/
lemma map_typeOf?_defined (h : m.LowersTo t layout module) (c : EntityCategory) :
    ((List.range (module.definedCount c)).map fun k => module.typeOf? c (.defined k)) =
      (layout.definitions c).map fun e => some e.entity := by
  have hl := LoweringContext.module_eq_ok_iff.mp h.lowered
  have hmem : ∀ e ∈ layout.definitions c, e ∈ layout.entities ∧ e.entity.category = c := fun e he =>
    ModuleLayout.mem_of_mem_ordered (List.mem_append_right _ he)
  cases c with
  | function =>
      -- the numbers of signatures lead to the signatures of the definitions
      have hsignatures : module.functions.map module.function? =
          layout.definedSignatures.map fun s => some (.function s) := by
        refine map_eq_of_forall₂ (hl.functions.imp fun s number hs => ?_)
        rw [WasmModule.function?, hl.types, LoweringContext.getElem?_typeIndex hs]
        rfl
      refine ((map_range_getElem? _ _).trans hsignatures).trans ?_
      refine map_eq_of_forall₂ (forall₂_filterMap fun e he => ?_)
      obtain ⟨-, hcat⟩ := hmem e he
      cases hent : e.entity with
      | function signature => exact ⟨_, rfl, rfl⟩
      | _ => cases (hcat.symm.trans (congrArg _ hent))
  | table =>
      simp only [WasmModule.typeOf?, Option.map_eq_bind, WasmModule.definedCount, hl.tables]
      refine (map_range_getElem? _ _).trans (map_eq_of_forall₂ (forall₂_filterMap fun e he => ?_))
      obtain ⟨-, hcat⟩ := hmem e he
      cases hent : e.entity with
      | table element least most => exact ⟨_, rfl, rfl⟩
      | _ => cases (hcat.symm.trans (congrArg _ hent))
  | memory =>
      simp only [WasmModule.typeOf?, Option.map_eq_bind, WasmModule.definedCount, hl.memories]
      refine (map_range_getElem? _ _).trans (map_eq_of_forall₂ (forall₂_filterMap fun e he => ?_))
      obtain ⟨-, hcat⟩ := hmem e he
      cases hent : e.entity with
      | memory least most shared => exact ⟨_, rfl, rfl⟩
      | _ => cases (hcat.symm.trans (congrArg _ hent))
  | global =>
      simp only [WasmModule.typeOf?, Option.map_eq_bind, WasmModule.definedCount, hl.globals]
      refine (map_range_getElem? _ _).trans (map_eq_of_forall₂ (forall₂_filterMap fun e he => ?_))
      obtain ⟨-, hcat⟩ := hmem e he
      cases hent : e.entity with
      | global type isMutable => exact ⟨_, rfl, rfl⟩
      | _ => cases (hcat.symm.trans (congrArg _ hent))

/-- An item of the section of a category has the type of the entity. -/
lemma typeOf?_defined (h : m.LowersTo t layout module)
    (he : (layout.definitions c)[number]? = some e) :
    module.typeOf? c (.defined number) = some e.entity := by
  have hat := congrArg (·[number]?) (h.map_typeOf?_defined c)
  simp only [List.getElem?_map, he, Option.map_some] at hat
  obtain ⟨k, hk, htype⟩ := Option.map_eq_some_iff.mp hat
  obtain ⟨hlt, rfl⟩ := List.getElem?_eq_some_iff.mp hk
  rw [← htype, List.getElem_range]

/-- As many entities are defined as the layout has. -/
lemma definedCount_eq (h : m.LowersTo t layout module) (c : EntityCategory) :
    module.definedCount c = (layout.definitions c).length := by
  simpa using congrArg List.length (h.map_typeOf?_defined c)

/-- **An index space follows the instructions**: imports of the category first, then definitions. -/
theorem indexSpace_eq (h : m.LowersTo t layout module) (c : EntityCategory) :
    (module.indexSpace c).map (Origin.instruction? m.body c) =
      (declarationsIn m.body c).map some := by
  rw [WasmModule.indexSpace, declarationsIn, List.map_append, List.map_append]
  refine congrArg₂ _ ?_ ?_
  · have hin : List.Forall₂ (fun (i : Instruction) (item : ImportEntry) =>
        Direct.category? i.operation = some item.type.category) (importsIn m.body)
          module.imports := by
      refine forall₂_trans h.forall₂_imports
        (LoweringContext.forall₂_importedEntity? h.lowered) fun i e item hie hitem => ?_
      rw [hie.category, WasmModule.category_eq hitem]
      rfl
    have hnum := map_numbers hin (p := fun i => Direct.category? i.operation == some c)
      (q := fun item => decide (item.type.category = c))
      (fun i item hc => by rw [hc]; exact Bool.eq_iff_iff.mpr (by simp)) some []
    rw [← hnum, List.map_filterMap, List.map_filterMap]
    refine List.filterMap_congr fun x _ => ?_
    obtain ⟨item, k⟩ := x
    by_cases hc : item.type.category = c <;> simp [hc, Origin.instruction?]
  · rw [List.map_map, h.definedCount_eq, ← (h.forall₂_definitions c).length_eq,
      ← map_range_getElem? (definitionsIn m.body c) some]
    refine List.map_congr_left fun k _ => ?_
    simp [Origin.instruction?]

/-- **The types in an index space** are those of the entities of the layout. -/
theorem map_typeOf?_indexSpace (h : m.LowersTo t layout module) (c : EntityCategory) :
    (module.indexSpace c).map (module.typeOf? c) =
      (layout.ordered c).map fun e => some e.entity := by
  rw [WasmModule.indexSpace, ModuleLayout.ordered, List.map_append, List.map_append]
  refine congrArg₂ _ ?_ ?_
  · have hsame : List.Forall₂ (fun (e : ModuleEntity) item =>
        module.importedEntity? item = some e.entity) layout.imports module.imports :=
      LoweringContext.forall₂_importedEntity? h.lowered
    have hnum := map_numbers hsame (p := fun e => e.category == c)
      (q := fun item => decide (item.type.category = c))
      (fun e item he => by
        rw [WasmModule.category_eq he]
        exact Bool.eq_iff_iff.mpr (by simp [ModuleEntity.category]))
      (fun e => some e.entity) []
    rw [ModuleLayout.importsOf, ← hnum, List.map_filterMap, List.map_filterMap]
    refine List.filterMap_congr fun x _ => ?_
    obtain ⟨item, k⟩ := x
    have htype : module.imports[k]?.bind module.importedEntity? =
        layout.imports[k]?.bind fun e => some e.entity :=
      bind_getElem?_eq hsame
    by_cases hc : item.type.category = c <;> simp [hc, WasmModule.typeOf?, htype]
  · rw [List.map_map]
    exact h.map_typeOf?_defined c

/-- An entity of the layout is the entity of the emitted module with the same index. -/
lemma entity?_eq (h : m.LowersTo t layout module) (he : (layout.ordered c)[index]? = some e) :
    module.entity? c index = some e.entity := by
  have hat := congrArg (·[index]?) (h.map_typeOf?_indexSpace c)
  simp only [List.getElem?_map, he, Option.map_some] at hat
  obtain ⟨origin, ho, htype⟩ := Option.map_eq_some_iff.mp hat
  rw [WasmModule.entity?, ho, Option.bind_some, htype]

/-! ### Initial values -/

/-- **A global starts with the literal of its own definition.** -/
theorem initialValue_eq (h : m.LowersTo t layout module) {value : WasmLiteral} {isMutable : Bool}
    {type : WasmType} (hi : (definitionsIn m.body .global)[number]? = some i)
    (hop : i.operation = .wasmDefineGlobal value isMutable) (he : i.outputs = [e.var]) :
    LoweringContext.initialValue m.body e.var type = value := by
  have hnodup : ((definitionsIn m.body .global).map (·.outputs)).Nodup := by
    have hvars : (layout.definitions .global).map (fun e => [e.var]) =
        (definitionsIn m.body .global).map (·.outputs) :=
      map_eq_of_forall₂ ((h.forall₂_definitions .global).imp fun i e hie => hie.outputs.symm)
    have hsub := (ModuleLayout.nodup_ordered h.covers.distinct .global).sublist
      ((List.sublist_append_right ..).map _)
    have hsingle : Function.Injective fun v : Variable => [v] := fun u v huv => by simpa using huv
    have hmap := hsub.map hsingle
    rw [List.map_map] at hmap
    rw [← hvars]
    exact hmap
  rw [LoweringContext.initialValue]
  generalize hvalues : m.body.filterMap _ = values
  -- only the definition of the global gives its variable
  have hall : ∀ x ∈ values, x = value := by
    intro x hx
    rw [← hvalues, List.mem_filterMap] at hx
    obtain ⟨j, hj, hx⟩ := hx
    split at hx
    · rename_i value' isMutable' output hop' hout
      split at hx
      · rename_i hvar
        have hjd : j ∈ definitionsIn m.body .global :=
          List.mem_filter.mpr ⟨hj, by rw [hop']; rfl⟩
        obtain ⟨k, hk⟩ := List.mem_iff_getElem?.mp hjd
        obtain ⟨e', -, hje⟩ := exists_getElem?_of_forall₂ (h.forall₂_definitions .global) hk
        have houts : j.outputs = i.outputs := by
          rw [Instruction.output?, hje.outputs, List.head?_cons, Option.some.injEq] at hout
          rw [hje.outputs, he, hout, hvar]
        obtain rfl := List.inj_on_of_nodup_map hnodup hjd (List.mem_of_getElem? hi) houts
        rw [hop] at hop'
        cases hop'
        exact (Option.some.inj hx).symm
      · cases hx
    · cases hx
  have hmem : value ∈ values := by
    rw [← hvalues, List.mem_filterMap]
    refine ⟨i, (List.mem_filter.mp (List.mem_of_getElem? hi)).1, ?_⟩
    rw [hop, Instruction.output?, he]
    exact if_pos rfl
  have hne := List.ne_nil_of_mem hmem
  rw [List.getLast?_eq_some_getLast hne]
  exact hall _ (List.getLast_mem hne)

/-- A defined global has its own type and its own literal. -/
theorem exists_global (h : m.LowersTo t layout module)
    (hi : (definitionsIn m.body .global)[number]? = some i) : ∃ value isMutable,
      i.operation = .wasmDefineGlobal value isMutable ∧
        module.globals[number]? = some (⟨value.type, isMutable⟩, value) := by
  obtain ⟨e, he, hie⟩ := exists_getElem?_of_forall₂ (h.forall₂_definitions .global) hi
  obtain ⟨value, isMutable, hop⟩ : ∃ value isMutable,
      i.operation = .wasmDefineGlobal value isMutable := by
    have hdef := (List.mem_filter.mp (List.mem_of_getElem? hi)).2
    cases hop : i.operation <;> rw [hop] at hdef <;>
      first | exact ⟨_, _, rfl⟩ | exact absurd hdef Bool.false_ne_true
  have hent : e.entity = .global value.type isMutable := hie.entity _ (by rw [hop]; rfl)
  refine ⟨value, isMutable, hop, ?_⟩
  rw [(LoweringContext.module_eq_ok_iff.mp h.lowered).globals]
  refine getElem?_filterMap (fun e he => ?_) he ?_
  · have hcat : e.entity.category = .global :=
      (ModuleLayout.mem_of_mem_ordered (List.mem_append_right _ he)).2
    cases hent : e.entity with
    | global type isMutable => rfl
    | _ => cases (hcat.symm.trans (congrArg _ hent))
  · simp only [hent, h.initialValue_eq hi hop hie.outputs]
    rfl

/-! ### Exports -/

lemma exists_of_mem_exports {x : ExportEntry} (h : m.LowersTo t layout module)
    (hx : x ∈ module.exports) :
    ∃ v, layout.exportName? v = some x.name ∧ layout.indexOf? v = some x.index := by
  rw [(LoweringContext.module_eq_ok_iff.mp h.lowered).exports] at hx
  obtain ⟨e, -, hentry⟩ := List.mem_filterMap.mp hx
  obtain ⟨name, hname, hentry⟩ := Option.bind_eq_some_iff.mp hentry
  obtain ⟨index, hindex, hentry⟩ := Option.bind_eq_some_iff.mp hentry
  obtain rfl := Option.some.inj hentry
  exact ⟨e.var, hname, hindex⟩

/-- **The exports are those of the signature**, each with the entity that stands at its index. -/
theorem exports_perm (h : m.LowersTo t layout module) :
    (module.exports.map fun x => (x.name, module.entity? x.category x.index)).Perm
      (layout.signature.exports.map fun x => (x.name, some x.entity)) := by
  -- both sides list the entities of the layout
  let item (e : ModuleEntity) : String × Option EntityType :=
    ((layout.exportName? e.var).getD "", some e.entity)
  have hexports : module.exports.map (fun x => (x.name, module.entity? x.category x.index)) =
      layout.entities.map item := by
    rw [(LoweringContext.module_eq_ok_iff.mp h.lowered).exports]
    refine map_eq_of_forall₂ (forall₂_filterMap fun e he => ?_)
    obtain ⟨index, hindex, hat⟩ := ModuleLayout.exists_indexOf? h.covers.distinct he
    have hname := ModuleLayout.exportName?_eq h.covers.distinct hat
    refine ⟨⟨ModuleLayout.nameOf e.category index, e.category, index⟩, ?_, ?_⟩
    · rw [LoweringContext.exportEntry, hname, hindex]
      rfl
    · change (_, _) = (_, _)
      rw [hname, h.entity?_eq hat]
      rfl
  have hsignature : layout.signature.exports.map (fun x => (x.name, some x.entity)) =
      (EntityCategory.all.flatMap layout.ordered).map item := by
    have h := congrArg (List.map fun x : Option String × EntityType => (x.1.getD "", some x.2))
      (ModuleLayout.exports_eq h.covers.distinct)
    rwa [List.map_map, List.map_map] at h
  rw [hexports, hsignature]
  exact layout.perm_flatMap_ordered.map item

/-! ### Functions -/

/-- **A defined function has its own signature and its own body**, in the order of the ends. -/
theorem exists_function (h : m.LowersTo t layout module)
    (hi : (definitionsIn m.body .function)[number]? = some i) :
    ∃ before first inside after opener signature lowered,
      m.body = before ++ first :: (inside ++ i :: after) ∧
      first.operation = .beginWasmFunction opener ∧
      (∀ j ∈ inside, j.operation.endsFunction = false) ∧
      i.operation = .endWasmFunction signature ∧
      module.functions[number]?.bind (module.types[·]?) = some signature ∧
      Lowering.function ⟨t, layout⟩ first.innerOutputs inside i.inputs = .ok lowered ∧
      module.bodies[number]? = some ⟨lowered.localTypes.reverse, lowered.code.reverse⟩ := by
  obtain ⟨e, he, hie⟩ := exists_getElem?_of_forall₂ (h.forall₂_definitions .function) hi
  rw [definitionsIn_function, m.passes.filter_endsFunction, List.getElem?_map,
    Option.map_eq_some_iff] at hi
  obtain ⟨f, hf, rfl⟩ := hi
  obtain ⟨body, hbody, code, l, htrace, rfl⟩ := exists_getElem?_of_forall₂ h.bodies hf
  obtain ⟨before, after, hsplit, -, -⟩ := m.passes.exists_split f (List.mem_of_getElem? hf)
  obtain ⟨lowered, hlow, hl⟩ := bind_eq_ok_iff.mp (FunctionRun.body_eq htrace)
  refine ⟨before, f.first, f.inside, after, f.opener, f.closer, lowered, ?_, f.first_operation,
    f.open_inside, f.last_operation, ?_, hlow, by rw [hbody, pure_eq_ok_iff.mp hl]⟩
  · rw [hsplit, FunctionRun.instructions, List.cons_append, List.append_assoc]
    rfl
  · have htype : module.functions[number]?.bind module.function? = some (.function f.closer) := by
      rw [← hie.entity (.function f.closer) (by rw [f.last_operation]; rfl)]
      exact h.typeOf?_defined he
    obtain ⟨k, hk, htype⟩ := Option.bind_eq_some_iff.mp htype
    obtain ⟨signature, hs, heq⟩ := Option.map_eq_some_iff.mp htype
    rw [hk, Option.bind_some, hs, EntityType.function.inj heq]

end ModuleRun.LowersTo

end EngineFuzz
