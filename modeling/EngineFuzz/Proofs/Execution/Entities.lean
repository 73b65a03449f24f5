import Mathlib
import EngineFuzz.Execution.Instance
import EngineFuzz.Proofs.Execution.Positions
import EngineFuzz.Proofs.Lift.Declarations
import EngineFuzz.Proofs.Lift.TypedModules

/-!
# The entities of modules

The variables of a module body stand for the entities of its layout, in the same order.  So a place
in the one is an index in the other, and the functions of the one are those of the machine.

* `ModuleRun.LowersTo.entitiesOf_eq`: the index spaces of a lowered module.
* `ModuleRun.LowersTo.exists_links`: its functions, each with its code.
-/

namespace EngineFuzz

namespace ModuleRun.LowersTo

variable {m : ModuleRun} {t : Typer} {layout : ModuleLayout} {module : WasmModule}
  {c : EntityCategory} {index : Nat} {e : ModuleEntity} {v : Variable}

lemma flatMap_outputs {is : List Instruction} {es : List ModuleEntity}
    (h : List.Forall₂ Instruction.Declares is es) : is.flatMap (·.outputs) = es.map (·.var) := by
  induction h with
  | nil => rfl
  | cons hi _ ih =>
      rw [List.flatMap_cons, List.map_cons, hi.outputs, ih]
      rfl

/-- **The index spaces of a lowered module**: the variables of a category stand for the entities of
the category. -/
theorem entitiesOf_eq (h : m.LowersTo t layout module) :
    Direct.entitiesOf m.body c = (layout.ordered c).map (·.var) := by
  have hpart : ∀ (f : Instruction → Bool) (b : Bool),
      (∀ i e, Instruction.Declares i e → f i = (e.isImport == b)) →
      ((m.body.filter fun i => Direct.category? i.operation == some c).filter f).flatMap
          (·.outputs) =
        (layout.entities.filter fun e => e.category == c && e.isImport == b).map (·.var) := by
    intro f b hf
    rw [List.filter_filter]
    refine flatMap_outputs (h.declares_filter (fun i e hie => ?_) fun i hi => ?_)
    · rw [hie.category, hf i e hie, Bool.and_comm]
      rfl
    · rw [Bool.and_eq_true, beq_iff_eq] at hi
      rw [Instruction.isDeclaration, hi.2]
      rfl
  rw [Direct.entitiesOf, ModuleLayout.ordered, ModuleLayout.importsOf_eq,
    ModuleLayout.definitions_eq, List.map_append]
  refine congrArg₂ _ (hpart _ true fun i e hie => ?_) (hpart _ false fun i e hie => ?_)
  · rw [hie.isImport]
    cases e.isImport <;> rfl
  · rw [hie.isDefinition]
    cases e.isImport <;> rfl

/-- **The place of an entity** in a module body is its index. -/
theorem place?_eq (h : m.LowersTo t layout module) (he : (layout.ordered c)[index]? = some e) :
    Direct.place? m.body c e.var = some index := by
  obtain ⟨hlt, hat⟩ := List.getElem?_eq_some_iff.mp he
  rw [Direct.place?, h.entitiesOf_eq, List.findIdx?_eq_some_iff_getElem]
  have hlen : index < ((layout.ordered c).map (·.var)).length := by rwa [List.length_map]
  refine ⟨hlen, by simp [hat], fun j hj heq => ?_⟩
  have hvar : ((layout.ordered c).map (·.var))[j] = ((layout.ordered c).map (·.var))[index] := by
    rw [beq_iff_eq.mp heq, List.getElem_map, hat]
  exact Nat.ne_of_lt hj ((ModuleLayout.nodup_ordered h.covers.distinct c).getElem_inj_iff.mp hvar)

end ModuleRun.LowersTo

/-! ### Functions -/

/-- The function is built as it should be: it ends as it began, has at most one result, and its
payloads are those of WebAssembly. -/
structure LoweredFunction.WellBuilt {context : LoweringContext} (F : LoweredFunction context) :
    Prop where
  ends : F.run.closer = F.run.opener
  results : F.run.opener.results.length ≤ 1
  payloads : ∀ i ∈ F.run.inside, i.operation.namesReferences = true

/-- What a function means and what the machine runs for it. -/
inductive Direct.Callee.Runs (context : LoweringContext) :
    Direct.Callee → EngineFuzz.Callee → Prop where
  | host (name : String) (signature : FunctionSignature) :
      Runs context (.host name signature) (.host name signature)
  | code (F : LoweredFunction context) (wellBuilt : F.WellBuilt) (frameSize : Nat) :
      Runs context (.code F.run.source) (.code F.run.closer F.body frameSize)

/-- A function of a module with what it means and with what the machine runs for it. -/
structure FunctionLink (context : LoweringContext) where
  entity : ModuleEntity
  meaning : Direct.Callee
  callee : Callee
  signature : entity.entity = .function callee.signature
  runs : meaning.Runs context callee

/-- The function as the module body has it. -/
def FunctionLink.declared {context : LoweringContext} (l : FunctionLink context) :
    Variable × Direct.Callee := (l.entity.var, l.meaning)

/-- The machine runs the functions of a module body. -/
structure MachineSetup.Runs (setup : MachineSetup) (context : LoweringContext)
    (body : List Instruction) : Prop where
  place : ∀ (c : EntityCategory) (index : Nat) (e : ModuleEntity),
    (context.layout.ordered c)[index]? = some e → Direct.place? body c e.var = some index
  callee : ∀ (index : Nat) (e : ModuleEntity),
    (context.layout.ordered .function)[index]? = some e →
      ∃ link : FunctionLink context, link.entity = e ∧
        Direct.callee? body e.var = some link.meaning ∧ setup.functions[index]? = some link.callee

namespace Direct

variable {context : LoweringContext} {is : List Instruction} {es : List ModuleEntity}

/-- Imported functions. -/
lemma exists_links_imported {module : WasmModule} {items : List ImportEntry}
    (h : List.Forall₂ Instruction.Declares is es)
    (hi : ∀ i ∈ is, i.operation.isImport = true) (k : Nat)
    (hm : List.Forall₂ (fun x item => module.importedEntity? item = some x.1.entity ∧
      item.module = WasmModule.importModule ∧ item.name = WasmModule.importName x.2)
        (es.zipIdx k) items) :
    ∃ links : List (FunctionLink context),
      ((is.zipIdx k).filterMap fun (i, index) =>
        match i.operation, i.output? with
        | .wasmImportFunction signature, some v =>
          some (v, Callee.host (WasmModule.importName index) signature)
        | _, _ => none) = links.map (·.declared) ∧
      items.filterMap module.importedCallee? = links.map (·.callee) ∧
      (es.filter fun e => e.category == .function) = links.map (·.entity) := by
  induction h generalizing k items with
  | nil =>
      obtain rfl := List.forall₂_nil_left_iff.mp hm
      exact ⟨[], rfl, rfl, rfl⟩
  | @cons i e is es hie _ ih =>
      obtain ⟨hi, his⟩ := List.forall_mem_cons.mp hi
      rw [List.zipIdx_cons] at hm
      obtain ⟨item, items, ⟨hentity, -, hname⟩, hrest, rfl⟩ := List.forall₂_cons_left_iff.mp hm
      obtain ⟨links, h₁, h₂, h₃⟩ := ih his (k + 1) hrest
      dsimp only at hentity hname
      have hout : i.output? = some e.var := by rw [Instruction.output?, hie.outputs]; rfl
      by_cases hf : ∃ signature, i.operation = .wasmImportFunction signature
      · obtain ⟨signature, hf⟩ := hf
        have he : e.entity = .function signature := hie.entity _ (by rw [hf]; rfl)
        let link : FunctionLink context := ⟨e, .host (WasmModule.importName k) signature,
          .host (WasmModule.importName k) signature, he, .host _ _⟩
        refine ⟨link :: links, ?_, ?_, ?_⟩
        · rw [List.zipIdx_cons, List.filterMap_cons, h₁]
          dsimp only
          rw [hf, hout]
          rfl
        · rw [List.filterMap_cons, h₂, WasmModule.importedCallee?, hentity, he, hname]
          rfl
        · rw [List.filter_cons_of_pos (by rw [ModuleEntity.category, he]; rfl), h₃]
          rfl
      · have hc : e.category ≠ .function := by
          intro hc
          have hcat := hie.category
          rw [hc] at hcat
          cases hop : i.operation <;> rw [hop] at hcat hi <;>
            first
            | exact hf ⟨_, hop⟩
            | exact absurd hi Bool.false_ne_true
            | cases Option.some.inj hcat
        refine ⟨links, ?_, ?_, ?_⟩
        · rw [List.zipIdx_cons, List.filterMap_cons, h₁]
          dsimp only
          split
          · rename_i heq
            split at heq
            · rename_i hop _
              exact absurd ⟨_, hop⟩ hf
            · rfl
          · rename_i heq
            split at heq
            · rename_i hop _
              exact absurd ⟨_, hop⟩ hf
            · cases heq
        · have hnone : module.importedCallee? item = none := by
            rw [WasmModule.importedCallee?, hentity]
            cases he : e.entity with
            | function signature => exact absurd (by rw [ModuleEntity.category, he]; rfl) hc
            | _ => rfl
          rw [List.filterMap_cons, hnone, h₂]
        · rw [List.filter_cons_of_neg (by simpa using hc), h₃]

/-- A function is read up to its end. -/
lemma definedFunctions_some {first last : Instruction} {inside done after : List Instruction}
    {closer : FunctionSignature} (ho : ∀ i ∈ inside, i.operation.endsFunction = false)
    (hl : last.operation = .endWasmFunction closer) :
    definedFunctions (some (first, done)) (inside ++ last :: after) =
      last.outputs.map (fun v =>
        (v, .code ⟨first.innerOutputs, done.reverse ++ inside, last.inputs⟩)) ++
          definedFunctions none after := by
  induction inside generalizing done with
  | nil =>
      rw [List.nil_append, List.append_nil]
      simp [definedFunctions, hl]
  | cons i inside ih =>
      obtain ⟨hi, ho⟩ := List.forall_mem_cons.mp ho
      have hskip : definedFunctions (some (first, done)) (i :: (inside ++ last :: after)) =
          definedFunctions (some (first, i :: done)) (inside ++ last :: after) := by
        have hend : ∀ signature, i.operation ≠ .endWasmFunction signature := by
          intro signature hop
          rw [hop] at hi
          exact nomatch hi
        simp [definedFunctions]
      rw [List.cons_append, hskip, ih ho, List.reverse_cons, List.append_assoc]
      rfl

end Direct

/-- The functions that a module body defines are those that end in it. -/
lemma Validator.Body.definedFunctions_eq {s s' : Validator} {is : List Instruction}
    {fs : List FunctionRun} (h : s.Body is fs s') : Direct.definedFunctions none is =
      fs.flatMap fun f => f.last.outputs.map fun v => (v, .code f.source) := by
  induction h with
  | nil s => rfl
  | @entity s m s' i is fs declares open_ head tail ih =>
      have hbegin : ∀ signature, i.operation ≠ .beginWasmFunction signature := by
        intro signature hop
        rw [hop] at declares
        exact absurd declares (by simp [Operation.isDefinition, Operation.isImport])
      rw [← ih]
      simp [Direct.definedFunctions]
  | @function s' is fs f tail ih =>
      have happ : f.instructions ++ is = f.first :: (f.inside ++ f.last :: is) := by
        simp [FunctionRun.instructions]
      have hbegin : Direct.definedFunctions none (f.first :: (f.inside ++ f.last :: is)) =
          Direct.definedFunctions (some (f.first, [])) (f.inside ++ f.last :: is) := by
        simp [Direct.definedFunctions, f.first_operation]
      rw [happ, hbegin, Direct.definedFunctions_some f.open_inside f.last_operation, ih]
      rfl

/-- A lowered function with its code. -/
lemma FunctionRun.LowersTo.exists_loweredFunction {context : LoweringContext} {f : FunctionRun}
    {body : FunctionBody} (h : f.LowersTo context body) (hn : f.first.NumbersSmall) :
    ∃ F : LoweredFunction context, F.run = f ∧ F.body = body := by
  obtain ⟨code, l, ht, rfl⟩ := h
  obtain ⟨next, ha, -⟩ := Validator.step_eq_ok_iff.mp f.step_first
  obtain ⟨-, hni, -⟩ :=
    List.nodup_append'.mp (Validator.Sound.nodup_definedVariables ha hn)
  exact ⟨⟨f, hni, code, l, ht⟩, rfl, rfl⟩

/-- Defined functions. -/
lemma exists_links_defined {context : LoweringContext} {fs : List FunctionRun}
    {bodies : List FunctionBody} {es : List ModuleEntity}
    (h : List.Forall₂ (·.LowersTo context ·) fs bodies)
    (he : List.Forall₂ Instruction.Declares (fs.map (·.last)) es)
    (hf : ∀ f ∈ fs, f.first.NumbersSmall ∧ f.closer = f.opener ∧ f.opener.results.length ≤ 1 ∧
      ∀ i ∈ f.inside, i.operation.namesReferences = true)
    (signatures : List FunctionSignature) :
    ∃ links : List (FunctionLink context),
      (fs.flatMap fun f => f.last.outputs.map fun v => (v, Direct.Callee.code f.source)) =
        links.map (·.declared) ∧
      (((fs.map (·.closer)).zip bodies).map fun (signature, body) =>
        Callee.code signature body (body.frameSize signatures signature)) =
          links.map (·.callee) ∧
      es = links.map (·.entity) := by
  induction h generalizing es with
  | nil =>
      cases he
      exact ⟨[], rfl, rfl, rfl⟩
  | @cons f body fs bodies hlow _ ih =>
      cases he with
      | @cons _ e _ es hlast hrest =>
          obtain ⟨⟨hsmall, hends, hresults, hpayloads⟩, hfs⟩ := List.forall_mem_cons.mp hf
          obtain ⟨links, h₁, h₂, rfl⟩ := ih hrest hfs
          obtain ⟨F, rfl, rfl⟩ := hlow.exists_loweredFunction hsmall
          have hentity : e.entity = .function F.run.closer :=
            hlast.entity _ (by rw [F.run.last_operation]; rfl)
          let link : FunctionLink context := ⟨e, .code F.run.source,
            .code F.run.closer F.body (F.body.frameSize signatures F.run.closer), hentity,
            .code F ⟨hends, hresults, hpayloads⟩ _⟩
          refine ⟨link :: links, ?_, ?_, rfl⟩
          · rw [List.flatMap_cons, h₁, hlast.outputs]
            rfl
          · rw [List.map_cons, List.zip_cons_cons, List.map_cons, h₂]
            rfl

namespace ModuleRun.LowersTo

variable {m : ModuleRun} {t : Typer} {layout : ModuleLayout} {module : WasmModule}

/-- **The functions of a lowered module**, each with what it means and with what the machine runs
for it. -/
theorem exists_links (h : m.LowersTo t layout module)
    (hf : ∀ f ∈ m.functions, f.closer = f.opener ∧ f.opener.results.length ≤ 1)
    (hp : ∀ i ∈ m.instructions, i.operation.namesReferences = true) :
    ∃ links : List (FunctionLink ⟨t, layout⟩), Direct.functions m.body = links.map (·.declared) ∧
      module.callees = links.map (·.callee) ∧
      layout.ordered .function = links.map (·.entity) := by
  -- the imported functions
  have hdeclares : List.Forall₂ Instruction.Declares (m.body.filter (·.operation.isImport))
      layout.imports := by
    refine h.declares_filter (fun i e hie => hie.isImport) fun i hi => ?_
    unfold Instruction.isDeclaration
    cases hop : i.operation <;> rw [hop] at hi <;>
      first | rfl | exact absurd hi Bool.false_ne_true
  have himports : ∃ links : List (FunctionLink ⟨t, layout⟩), _ := Direct.exists_links_imported
    hdeclares (fun i hi => (List.mem_filter.mp hi).2) 0 (LoweringContext.forall₂_imports h.lowered)
  obtain ⟨imported, hi₁, hi₂, hi₃⟩ := himports
  -- the defined functions
  have hends : List.Forall₂ Instruction.Declares (m.functions.map (·.last))
      (layout.definitions .function) := by
    rw [← m.passes.filter_endsFunction, ModuleLayout.definitions]
    refine h.declares_filter (fun i e hie => ?_) fun i hi => ?_
    · have hcat := hie.category
      rw [← hie.isDefinition]
      cases hop : i.operation <;> rw [hop] at hcat <;>
        first
        | (rw [← Option.some.inj hcat]; rfl)
        | cases hcat
    · unfold Instruction.isDeclaration
      cases hop : i.operation <;> rw [hop] at hi <;>
        first | rfl | exact absurd hi Bool.false_ne_true
  have hfunctions : ∀ f ∈ m.functions, f.first.NumbersSmall ∧ f.closer = f.opener ∧
      f.opener.results.length ≤ 1 ∧ ∀ i ∈ f.inside, i.operation.namesReferences = true := by
    intro f hmem
    obtain ⟨before, after, hsplit, -, -⟩ := m.passes.exists_split f hmem
    have hin : ∀ i ∈ f.instructions, i ∈ m.instructions := fun i hi => by
      refine mem_instructions_of_mem_body ?_
      rw [hsplit]
      exact List.mem_append_right _ (List.mem_append_left _ hi)
    obtain ⟨hclose, hone⟩ := hf f hmem
    refine ⟨h.small _ (hin _ (List.mem_cons_self ..)), hclose, hone, fun i hi => hp i (hin i ?_)⟩
    exact List.mem_cons_of_mem _ (List.mem_append_left _ hi)
  obtain ⟨defined, hd₁, hd₂, hd₃⟩ := exists_links_defined h.bodies hends hfunctions
    (module.importedCallees.map (·.signature) ++ layout.definedSignatures)
  refine ⟨imported ++ defined, ?_, ?_, ?_⟩
  · have himported : Direct.importedFunctions m.body = imported.map (·.declared) := hi₁
    rw [Direct.functions, himported, m.passes.definedFunctions_eq, hd₁, List.map_append]
  · have himported : module.importedCallees = imported.map (·.callee) := hi₂
    have hdefined : module.definedSignatures?.getD [] = m.functions.map (·.closer) := by
      rw [LoweringContext.definedSignatures?_eq h.lowered]
      exact h.definedSignatures_eq
    have hlayout : layout.definedSignatures = m.functions.map (·.closer) := h.definedSignatures_eq
    rw [WasmModule.callees, hdefined, List.map_append, ← hd₂, ← himported, hlayout]
  · rw [ModuleLayout.ordered, ModuleLayout.importsOf, hi₃, hd₃, List.map_append]

/-- **The machine runs a lowered module**: places are indices, and the variable of a function stands
for what the machine runs. -/
theorem runs (h : m.LowersTo t layout module)
    (hf : ∀ f ∈ m.functions, f.closer = f.opener ∧ f.opener.results.length ≤ 1)
    (hp : ∀ i ∈ m.instructions, i.operation.namesReferences = true) (stackSize : Nat)
    (host : Host) :
    MachineSetup.Runs ⟨module.callees.toArray, stackSize, host⟩ ⟨t, layout⟩ m.body := by
  obtain ⟨links, h₁, h₂, h₃⟩ := h.exists_links hf hp
  refine ⟨fun c index e he => h.place?_eq he, fun index e he => ?_⟩
  rw [h₃, List.getElem?_map, Option.map_eq_some_iff] at he
  obtain ⟨link, hlink, rfl⟩ := he
  refine ⟨link, rfl, ?_, ?_⟩
  · -- no function before has the variable
    have hnodup : (links.map fun l => l.entity.var).Nodup := by
      have hn := ModuleLayout.nodup_ordered h.covers.distinct .function
      rwa [h₃, List.map_map] at hn
    have hmem : link ∈ links := List.mem_of_getElem? hlink
    rw [Direct.callee?, h₁, List.find?_map, Option.map_map]
    cases hfind : links.find? ((fun f : Variable × Direct.Callee => f.1 == link.entity.var) ∘
        (·.declared)) with
    | none =>
        have := List.find?_eq_none.mp hfind link hmem
        simp [FunctionLink.declared] at this
    | some link' =>
        have hvar : link'.entity.var = link.entity.var := by
          simpa [FunctionLink.declared] using List.find?_some hfind
        obtain rfl := List.inj_on_of_nodup_map hnodup (List.mem_of_find?_eq_some hfind) hmem hvar
        rfl
  · rw [List.getElem?_toArray, h₂, List.getElem?_map, hlink]
    rfl

end ModuleRun.LowersTo

end EngineFuzz
