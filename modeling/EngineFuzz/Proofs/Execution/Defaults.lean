import Mathlib
import EngineFuzz.Execution.Instance
import EngineFuzz.Proofs.Layout.EntityTypes
import EngineFuzz.Proofs.Layout.Exports
import EngineFuzz.Proofs.Lift.IndexSpaces
import EngineFuzz.Proofs.Validation.FunctionEnds

/-!
# Zeros and nulls for parameters

Every exported function of a program is called with a zero or a null for each parameter.  On their
way to the function the nulls lose the kind of reference that they are: all of them arrive as nulls
for something external.  So the arguments suit all parameters but references to functions, and a
function with such a parameter ends the calls for the whole program.

* `ModuleInstance.passedDefaults_eq`: what arrives at a function.
* `ModuleInstance.hasFunction_of_start`: the exports of an instance are functions of their
  signatures.
* `ExportOutcome.ofExports_eq_error_iff`: how the calls for one instance can fail.
* `Program.defaults_suit_iff`: the main statement.
-/

namespace EngineFuzz

/-- Whether a function takes references to functions. -/
def FunctionSignature.takesFunctions (s : FunctionSignature) : Bool := s.params.contains .funcRef

/-! ### The first error -/

section Errors

variable {ε α β : Type}

/-- A sequence fails where one of its parts does. -/
lemma bind_eq_error_iff {x : Except ε α} {f : α → Except ε β} {e : ε} :
    x >>= f = .error e ↔ x = .error e ∨ ∃ a, x = .ok a ∧ f a = .error e := by
  cases x <;> simp [bind, Except.bind]

/-- The first error of a list is behind members without one. -/
lemma mapM_eq_error_iff {f : α → Except ε β} {as : List α} {e : ε} :
    as.mapM f = .error e ↔ ∃ before a after, as = before ++ a :: after ∧
      (∀ b ∈ before, ∃ r, f b = .ok r) ∧ f a = .error e := by
  induction as with
  | nil => simp [pure, Except.pure]
  | cons a as ih =>
      have hhead : (a :: as).mapM f = .error e ↔
          f a = .error e ∨ ∃ r, f a = .ok r ∧ as.mapM f = .error e := by
        rw [List.mapM_cons, bind_eq_error_iff]
        refine or_congr_right (exists_congr fun r => and_congr_right fun _ => ?_)
        cases as.mapM f <;> simp [bind, Except.bind, pure, Except.pure]
      rw [hhead, ih]
      constructor
      · rintro (h | ⟨r, hr, before, b, after, rfl, hbefore, hb⟩)
        · exact ⟨[], a, as, rfl, by simp, h⟩
        · exact ⟨a :: before, b, after, rfl, List.forall_mem_cons.mpr ⟨⟨r, hr⟩, hbefore⟩, hb⟩
      · rintro ⟨_ | ⟨b', before⟩, b, after, hsplit, hbefore, hb⟩
        · obtain ⟨rfl, rfl⟩ := List.cons.inj hsplit
          exact .inl hb
        · obtain ⟨rfl, rfl⟩ := List.cons.inj hsplit
          obtain ⟨⟨r, hr⟩, hrest⟩ := List.forall_mem_cons.mp hbefore
          exact .inr ⟨r, hr, before, b, after, rfl, hrest, hb⟩

end Errors

/-! ### Arguments -/

namespace ModuleInstance

variable {signature : FunctionSignature} {i : ModuleInstance} {name : String}

/-- What a function gets that is called with zeros and nulls. -/
def passedDefaults (signature : FunctionSignature) : List MachineValue :=
  (defaultArguments signature).map (·.argument)

/-- **Each parameter gets its zero or its null**, but a reference to a function gets the null of
the other kind. -/
theorem passedDefaults_eq (signature : FunctionSignature) : passedDefaults signature =
    signature.params.map fun t => if t = .funcRef then .reference .externRef none else .zero t := by
  rw [passedDefaults, defaultArguments, List.map_map]
  refine List.map_congr_left fun t _ => ?_
  cases t <;> rfl

/-- **Zeros and nulls have the types of the parameters** if none is a reference to a function. -/
theorem types_passedDefaults_iff : (passedDefaults signature).map (·.type) = signature.params ↔
    signature.takesFunctions = false := by
  rw [passedDefaults_eq, List.map_map, FunctionSignature.takesFunctions, ← Bool.not_eq_true,
    List.contains_iff_mem]
  have htype : ∀ t : WasmType,
      (if t = .funcRef then MachineValue.reference .externRef none else .zero t).type = t ↔
        t ≠ .funcRef := by
    intro t
    cases t <;> decide
  conv_lhs => rhs; rw [← List.map_id signature.params]
  rw [List.map_inj_left]
  exact ⟨fun h hf => (htype _).mp (h _ hf) rfl, fun h t ht => (htype t).mpr fun he => h (he ▸ ht)⟩

/-! ### Calls -/

/-- Under the name a function of the signature is exported. -/
def HasFunction (i : ModuleInstance) (name : String) (signature : FunctionSignature) : Prop :=
  ∃ callee, (i.findExport? .function name).bind (i.setup.functions[·]?) = some callee ∧
    callee.signature = signature

/-- A call changes nothing but the store. -/
lemma exists_invoke_eq (i : ModuleInstance) (name : String) (args : List WasmValue) :
    ∃ store, (i.invoke name args).2 = { i with store } := by
  unfold invoke
  split
  · exact ⟨i.store, rfl⟩
  · dsimp only
    split
    · exact ⟨i.store, rfl⟩
    · split <;> exact ⟨_, rfl⟩

lemma hasFunction_invoke (other : String) (args : List WasmValue)
    (h : i.HasFunction name signature) : (i.invoke other args).2.HasFunction name signature := by
  obtain ⟨store, hstore⟩ := i.exists_invoke_eq other args
  rw [hstore]
  exact h

/-- **A function that takes references to functions cannot be called** with zeros and nulls, and
every other function can. -/
theorem HasFunction.invokeWithDefaults_eq_error_iff {e : RunError}
    (h : i.HasFunction name signature) : (i.invokeWithDefaults name signature).1 = .error e ↔
      signature.takesFunctions = true ∧ e = .unsuitableArguments name := by
  obtain ⟨callee, hcallee, rfl⟩ := h
  rw [invokeWithDefaults, invoke, hcallee]
  dsimp only
  split
  · rename_i hne
    have htakes := Bool.not_eq_false _ ▸ mt types_passedDefaults_iff.mpr hne
    simp [htakes, eq_comm]
  · rename_i heq
    have htakes := types_passedDefaults_iff.mp (not_not.mp heq)
    rw [htakes]
    split <;> simp

end ModuleInstance

/-- **Calls fail at the first function that takes references to functions**, and only there. -/
theorem ExportOutcome.ofExports_eq_error_iff {index : Nat} {i : ModuleInstance}
    {exports : List (String × FunctionSignature)} {e : RunError}
    (h : ∀ x ∈ exports, i.HasFunction x.1 x.2) : ofExports index i exports = .error e ↔
      ∃ x, exports.find? (·.2.takesFunctions) = some x ∧ e = .unsuitableArguments x.1 := by
  induction exports generalizing i with
  | nil => simp [ofExports]
  | cons x exports ih =>
      obtain ⟨name, signature⟩ := x
      obtain ⟨hfirst, hrest⟩ := List.forall_mem_cons.mp h
      have hnext := ih fun x hx => ModuleInstance.hasFunction_invoke name
        (ModuleInstance.defaultArguments signature) (hrest x hx)
      have hcall := fun e => hfirst.invokeWithDefaults_eq_error_iff (e := e)
      rw [ofExports, List.find?_cons]
      dsimp only
      cases htakes : signature.takesFunctions with
      | true =>
          have herror := (hcall (.unsuitableArguments name)).mpr ⟨htakes, rfl⟩
          rw [herror, bind_eq_error_iff]
          simp [eq_comm]
      | false =>
          cases hresult : (i.invokeWithDefaults name signature).1 with
          | error e' => cases htakes.symm.trans ((hcall e').mp hresult).1
          | ok outcome =>
              rw [← hnext, ModuleInstance.invokeWithDefaults, bind_eq_error_iff]
              simp [bind_eq_error_iff, pure, Except.pure]

/-! ### The functions of an instance -/

section Instances

variable {context : LoweringContext} {body : List Instruction} {m : WasmModule}

/-- Every entity of a layout has an index and a name, also one whose variable is not its own. -/
lemma ModuleLayout.exists_exportName? {l : ModuleLayout} {e : ModuleEntity} (he : e ∈ l.entities) :
    ∃ name index, l.exportName? e.var = some name ∧ l.indexOf? e.var = some index := by
  obtain ⟨target, htarget⟩ : ∃ target, l.entityOf? e.var = some target :=
    Option.isSome_iff_exists.mp (List.find?_isSome.mpr ⟨e, he, by simp⟩)
  have hmem := List.mem_of_find?_eq_some htarget
  have hvar : target.var = e.var := by simpa using List.find?_some htarget
  obtain ⟨position, hposition⟩ : ∃ position, (l.entities.filter fun e' =>
      e'.category == target.category && e'.isImport == target.isImport).findIdx?
        (fun e' => e'.var == e.var) = some position :=
    Option.isSome_iff_exists.mp (List.findIdx?_isSome.trans
      (List.any_eq_true.mpr ⟨target, by simp [hmem], by simp [hvar]⟩))
  have hindex : l.indexOf? e.var = some (if target.isImport then position
      else (l.importsOf target.category).length + position) := by
    rw [indexOf?, htarget]
    simp [hposition]
  exact ⟨_, _, by rw [exportName?, htarget, hindex]; rfl, hindex⟩

/-- **The entities of a lowered module have different variables** if its exports have different
names. -/
theorem LoweringContext.nodup_of_nodup_exports (h : context.module body = .ok m)
    (hn : (m.exports.map (·.name)).Nodup) : (context.layout.entities.map (·.var)).Nodup := by
  rw [(module_eq_ok_iff.mp h).exports] at hn
  have hnames : ∀ es : List ModuleEntity, (∀ e ∈ es, e ∈ context.layout.entities) →
      (es.filterMap (exportEntry context.layout)).map (·.name) =
        (es.map (·.var)).map fun v => (context.layout.exportName? v).getD "" := by
    intro es hes
    induction es with
    | nil => rfl
    | cons e es ih =>
        obtain ⟨he, hes⟩ := List.forall_mem_cons.mp hes
        obtain ⟨name, index, hname, hindex⟩ := ModuleLayout.exists_exportName? he
        have hentry : exportEntry context.layout e = some ⟨name, e.category, index⟩ := by
          rw [exportEntry, hname, hindex]
          rfl
        rw [List.filterMap_cons, hentry, List.map_cons, List.map_cons, List.map_cons, ih hes, hname]
        rfl
  rw [hnames _ fun _ => id] at hn
  exact hn.of_map _

/-- The functions of a module have the signatures of its index space if there are as many bodies as
signatures. -/
lemma WasmModule.signatures_callees {defined : List FunctionSignature}
    (hd : m.definedSignatures? = some defined) (hl : defined.length = m.bodies.length) :
    m.callees.map (·.signature) = (m.entityTypes defined).functions := by
  have himported : m.importedCallees.map (·.signature) = m.importedFunctions := by
    rw [importedCallees, importedFunctions, importTypes, List.map_filterMap,
      List.filterMap_filterMap]
    refine List.filterMap_congr fun i _ => ?_
    rw [importedCallee?]
    cases m.importedEntity? i with
    | none => rfl
    | some entity => cases entity <;> rfl
  have hdefined : (defined.zip m.bodies).map (·.1) = defined := List.map_fst_zip hl.le
  rw [callees, List.map_append, himported, hd, entityTypes]
  refine congrArg _ (Eq.trans ?_ hdefined)
  rw [List.map_map]
  rfl

/-- An accepted module exports different names and has a body for each signature. -/
lemma WasmModule.nodup_exports_of_isValid {defined : List FunctionSignature}
    (h : m.isValid = true) (hd : m.definedSignatures? = some defined) :
    (m.exports.map (·.name)).Nodup ∧ defined.length = m.bodies.length := by
  rw [isValid, hd] at h
  simp only [Bool.and_eq_true, decide_eq_true_eq, beq_iff_eq] at h
  exact ⟨h.1.1.2, h.1.2⟩

/-- Entities of a lowered module are exported under the names of their indices. -/
lemma LoweringContext.mem_exports_iff (h : context.module body = .ok m)
    (hn : (context.layout.entities.map (·.var)).Nodup) {x : ExportEntry} : x ∈ m.exports ↔
      x.name = ModuleLayout.nameOf x.category x.index ∧
        x.index < (context.layout.ordered x.category).length := by
  rw [(module_eq_ok_iff.mp h).exports, List.mem_filterMap]
  have hentry : ∀ {e : ModuleEntity} {c : EntityCategory} {index : Nat},
      (context.layout.ordered c)[index]? = some e →
        exportEntry context.layout e = some ⟨ModuleLayout.nameOf c index, c, index⟩ := by
    intro e c index hat
    have hc := (ModuleLayout.mem_of_mem_ordered (List.mem_of_getElem? hat)).2
    rw [exportEntry, ModuleLayout.exportName?_eq hn hat, ModuleLayout.indexOf?_eq hn hat, hc]
    rfl
  constructor
  · rintro ⟨e, he, hx⟩
    obtain ⟨index, -, hat⟩ := ModuleLayout.exists_indexOf? hn he
    obtain rfl := Option.some.inj ((hentry hat).symm.trans hx)
    exact ⟨rfl, (List.getElem?_eq_some_iff.mp hat).1⟩
  · rintro ⟨hname, hlt⟩
    have hat := List.getElem?_eq_getElem hlt
    refine ⟨_, (ModuleLayout.mem_of_mem_ordered (List.mem_of_getElem? hat)).1, ?_⟩
    rw [hentry hat, ← hname]

end Instances

namespace ModuleInstance

variable {settings : RuntimeSettings} {c : EncodedModule} {imports : List HostImport}
  {i : ModuleInstance} {context : LoweringContext} {body : List Instruction}

/-- An instance has the functions and the exports of its module, which is accepted. -/
lemma start_eq_ok (h : start settings c imports = .ok i) : c.body.isValid = true ∧
    i.setup.functions = c.body.callees.toArray ∧ i.exports = c.body.exports ∧
      i.signature = c.signature := by
  unfold start at h
  split at h
  · exact nomatch h
  · rename_i hvalid
    split at h
    · exact nomatch h
    · split at h
      · exact nomatch h
      · obtain rfl := Except.ok.inj h
        exact ⟨by simpa using hvalid, rfl, rfl, rfl⟩

/-- **The exported functions of an instance have the signatures that its module gives them.** -/
theorem hasFunction_of_start (hb : context.module body = .ok c.body)
    (hs : c.signature = context.layout.signature) (h : start settings c imports = .ok i) :
    ∀ x ∈ i.functionExports, i.HasFunction x.1 x.2 := by
  obtain ⟨hvalid, hfunctions, hexports, hsignature⟩ := start_eq_ok h
  have hdefined := LoweringContext.definedSignatures?_eq hb
  obtain ⟨hnames, hlength⟩ := WasmModule.nodup_exports_of_isValid hvalid hdefined
  have hn := LoweringContext.nodup_of_nodup_exports hb hnames
  have hcallees := WasmModule.signatures_callees hdefined hlength
  rw [LoweringContext.entityTypes_eq hb] at hcallees
  rintro ⟨name, signature⟩ hx
  -- the export is a function of the layout, named by its index
  obtain ⟨index, e, hat, hentity, rfl⟩ : ∃ index e,
      (context.layout.ordered .function)[index]? = some e ∧ e.entity = .function signature ∧
        ModuleLayout.nameOf .function index = name := by
    rw [functionExports, hsignature, hs] at hx
    obtain ⟨x, hexport, hx⟩ := List.mem_filterMap.mp hx
    obtain ⟨category, -, hexport⟩ := List.mem_flatMap.mp hexport
    obtain ⟨index, hlt, rfl⟩ := List.mem_mapIdx.mp hexport
    have hat := List.getElem?_eq_getElem hlt
    cases hentity : ((context.layout.ordered category)[index]).entity with
    | function signature' =>
        simp only [hentity, Option.some.injEq, Prod.mk.injEq] at hx
        obtain ⟨rfl, rfl⟩ := hx
        have hc := (ModuleLayout.mem_of_mem_ordered (List.mem_of_getElem? hat)).2
        rw [ModuleEntity.category, hentity] at hc
        obtain rfl := hc
        exact ⟨index, _, hat, hentity, rfl⟩
    | _ => simp [hentity] at hx
  -- no other export has the name
  have hfind : i.findExport? .function (ModuleLayout.nameOf .function index) = some index := by
    have hmem : ⟨ModuleLayout.nameOf .function index, .function, index⟩ ∈ c.body.exports :=
      (LoweringContext.mem_exports_iff hb hn).mpr ⟨rfl, (List.getElem?_eq_some_iff.mp hat).1⟩
    obtain ⟨found, hfound⟩ : ∃ found, (i.exports.find? fun e =>
        e.name == ModuleLayout.nameOf .function index && e.category == .function) = some found :=
      Option.isSome_iff_exists.mp (List.find?_isSome.mpr ⟨_, hexports ▸ hmem, by simp⟩)
    have hname := ((LoweringContext.mem_exports_iff hb hn).mp
      (hexports ▸ List.mem_of_find?_eq_some hfound)).1
    have heq := List.find?_some hfound
    rw [Bool.and_eq_true, beq_iff_eq, hname] at heq
    rw [findExport?, hfound, Option.map_some, (ModuleLayout.nameOf_inj heq.1).2]
  have hsig : (c.body.callees.map (·.signature))[index]? = some signature := by
    rw [hcallees]
    exact ModuleLayout.functions_getElem? hat hentity
  rw [List.getElem?_map, Option.map_eq_some_iff] at hsig
  obtain ⟨callee, hcallee, hsig⟩ := hsig
  refine ⟨callee, ?_, hsig⟩
  rw [hfind, hfunctions, Option.bind_some, List.getElem?_toArray, hcallee]

end ModuleInstance

/-! ### Programs -/

namespace Program

variable {p : Program} {settings : RuntimeSettings} {environment : Environment}
  {c : EncodedModule} {modules : List EncodedModule} {i : ModuleInstance} {name : String}

/-- The modules of a program are lowered, each with the signature of its layout. -/
lemma exists_lowered (h : p.encodeModules environment = .ok modules) (hc : c ∈ modules) :
    ∃ context body, LoweringContext.module context body = .ok c.body ∧
      c.signature = context.layout.signature := by
  obtain ⟨scan, -, h⟩ := bind_eq_ok_iff.mp h
  obtain ⟨k, hk⟩ := List.mem_iff_getElem?.mp hc
  obtain ⟨span, -, hspan⟩ := exists_getElem?_of_forall₂ (mapM_eq_ok_iff.mp h).flip hk
  obtain ⟨lowered, hlowered, hc⟩ := bind_eq_ok_iff.mp hspan
  rw [← pure_eq_ok_iff.mp hc]
  exact ⟨⟨scan.typer, span.layout⟩, _, hlowered, rfl⟩

lemma runnableModules_eq_ok (h : p.runnableModules settings environment = .ok modules) :
    p.encodeModules environment = .ok modules := by
  unfold runnableModules at h
  split at h
  · exact nomatch h
  · cases hm : p.encodeModules environment with
    | error e =>
        rw [hm] at h
        exact nomatch h
    | ok encoded =>
        rw [hm] at h
        exact congrArg _ (Except.ok.inj h)

lemma runnableModules_ne_unsuitableArguments :
    p.runnableModules settings environment ≠ .error (.unsuitableArguments name) := by
  unfold runnableModules
  split
  · nofun
  · cases p.encodeModules environment <;> nofun

lemma instantiateModule_ne_unsuitableArguments :
    p.instantiateModule settings c ≠ .error (.unsuitableArguments name) := by
  unfold instantiateModule
  cases p.hostImports c with
  | error e => nofun
  | ok imports =>
      change ModuleInstance.start settings c imports ≠ _
      unfold ModuleInstance.start
      repeat (split; · nofun)
      nofun

/-- The exports of an instance of a lowered module are functions of their signatures. -/
lemma hasFunction_of_instantiateModule (h : p.encodeModules environment = .ok modules)
    (hc : c ∈ modules) (hi : p.instantiateModule settings c = .ok i) :
    ∀ x ∈ i.functionExports, i.HasFunction x.1 x.2 := by
  obtain ⟨context, body, hlowered, hsignature⟩ := exists_lowered h hc
  obtain ⟨imports, -, hi⟩ := bind_eq_ok_iff.mp hi
  exact ModuleInstance.hasFunction_of_start hlowered hsignature hi

/-- A module has an instance, and `found` is the first of its exported functions that takes
references to functions. -/
def FirstTaking (p : Program) (settings : RuntimeSettings) (c : EncodedModule)
    (found : Option (String × FunctionSignature)) : Prop :=
  ∃ i, p.instantiateModule settings c = .ok i ∧
    i.functionExports.find? (·.2.takesFunctions) = found

/-- The outcomes of the functions that a module exports. -/
def moduleOutcomes (p : Program) (settings : RuntimeSettings) (c : EncodedModule) (index : Nat) :
    Except RunError (List ExportOutcome) := do
  let i ← p.instantiateModule settings c
  ExportOutcome.ofExports index i i.functionExports

lemma moduleOutcomes_eq_error_iff (h : p.encodeModules environment = .ok modules)
    (hc : c ∈ modules) {index : Nat} :
    p.moduleOutcomes settings c index = .error (.unsuitableArguments name) ↔
      ∃ signature, p.FirstTaking settings c (some (name, signature)) := by
  rw [moduleOutcomes, bind_eq_error_iff,
    or_iff_right instantiateModule_ne_unsuitableArguments]
  constructor
  · rintro ⟨i, hi, herror⟩
    rw [ExportOutcome.ofExports_eq_error_iff (hasFunction_of_instantiateModule h hc hi)] at herror
    obtain ⟨⟨name, signature⟩, hfind, heq⟩ := herror
    obtain rfl := RunError.unsuitableArguments.inj heq
    exact ⟨signature, i, hi, hfind⟩
  · rintro ⟨signature, i, hi, hfind⟩
    refine ⟨i, hi, ?_⟩
    rw [ExportOutcome.ofExports_eq_error_iff (hasFunction_of_instantiateModule h hc hi)]
    exact ⟨_, hfind, rfl⟩

lemma exists_moduleOutcomes_iff (h : p.encodeModules environment = .ok modules)
    (hc : c ∈ modules) {index : Nat} :
    (∃ outcomes, p.moduleOutcomes settings c index = .ok outcomes) ↔
      p.FirstTaking settings c none := by
  constructor
  · rintro ⟨outcomes, houtcomes⟩
    obtain ⟨i, hi, hok⟩ := bind_eq_ok_iff.mp houtcomes
    refine ⟨i, hi, ?_⟩
    cases hfind : i.functionExports.find? (·.2.takesFunctions) with
    | none => rfl
    | some x =>
        have herror : ExportOutcome.ofExports index i i.functionExports =
            .error (.unsuitableArguments x.1) :=
          (ExportOutcome.ofExports_eq_error_iff (hasFunction_of_instantiateModule h hc hi)).mpr
            ⟨x, hfind, rfl⟩
        exact nomatch hok.symm.trans herror
  · rintro ⟨i, hi, hfind⟩
    rw [moduleOutcomes, hi]
    change ∃ outcomes, ExportOutcome.ofExports index i i.functionExports = .ok outcomes
    cases hresult : ExportOutcome.ofExports index i i.functionExports with
    | ok outcomes => exact ⟨outcomes, rfl⟩
    | error e =>
        obtain ⟨x, hx, -⟩ := (ExportOutcome.ofExports_eq_error_iff
          (hasFunction_of_instantiateModule h hc hi)).mp hresult
        exact nomatch hfind.symm.trans hx

/-- Calling all functions fails for the arguments where the outcomes of a module do. -/
lemma execute_eq_error_iff : p.execute settings environment = .error (.unsuitableArguments name) ↔
    ∃ before c after,
      p.runnableModules settings environment = .ok (before ++ c :: after) ∧
      (∀ b ∈ before.zipIdx, ∃ r, p.moduleOutcomes settings b.1 b.2 = .ok r) ∧
      p.moduleOutcomes settings c before.length = .error (.unsuitableArguments name) := by
  rw [execute, bind_eq_error_iff, or_iff_right runnableModules_ne_unsuitableArguments]
  constructor
  · rintro ⟨modules, hmodules, herror⟩
    rw [bind_eq_error_iff, or_iff_left (by rintro ⟨_, -, h⟩; exact nomatch h),
      mapM_eq_error_iff] at herror
    obtain ⟨_, ⟨c, index⟩, _, hsplit, hbefore, hc⟩ := herror
    obtain ⟨before, rest, rfl, rfl, hrest⟩ := List.zipIdx_eq_append_iff.mp hsplit
    obtain ⟨c', after, rfl, hhead, -⟩ := List.zipIdx_eq_cons_iff.mp hrest.symm
    rw [Nat.zero_add] at hhead
    obtain ⟨rfl, rfl⟩ := Prod.mk.inj hhead
    exact ⟨before, c, after, hmodules, hbefore, hc⟩
  · rintro ⟨before, c, after, hmodules, hbefore, hc⟩
    refine ⟨_, hmodules, ?_⟩
    rw [bind_eq_error_iff, mapM_eq_error_iff]
    refine .inl ⟨before.zipIdx, (c, before.length), after.zipIdx (before.length + 1), ?_,
      hbefore, hc⟩
    rw [List.zipIdx_append, List.zipIdx_cons, Nat.zero_add]

/-- Calling all functions fails for the arguments at the first function that takes references to
functions, if all modules up to that one have instances. -/
lemma execute_eq_unsuitableArguments_iff :
    p.execute settings environment = .error (.unsuitableArguments name) ↔
      ∃ before c after signature,
        p.runnableModules settings environment = .ok (before ++ c :: after) ∧
        (∀ b ∈ before, p.FirstTaking settings b none) ∧
        p.FirstTaking settings c (some (name, signature)) := by
  rw [execute_eq_error_iff]
  refine exists_congr fun before => exists_congr fun c => exists_congr fun after => ?_
  rw [exists_and_left]
  refine and_congr_right fun hmodules => ?_
  have hencoded := runnableModules_eq_ok hmodules
  rw [exists_and_left, moduleOutcomes_eq_error_iff hencoded (by simp)]
  refine and_congr_left fun _ => ?_
  have hmember : ∀ b ∈ before, ∀ index, (∃ r, p.moduleOutcomes settings b index = .ok r) ↔
      p.FirstTaking settings b none :=
    fun b hb _ => exists_moduleOutcomes_iff hencoded (List.mem_append_left _ hb)
  constructor
  · intro h b hb
    obtain ⟨index, hindex⟩ := List.mem_iff_getElem?.mp hb
    exact (hmember b hb index).mp (h (b, index) (List.mem_zipIdx_iff_getElem?.mpr hindex))
  · rintro h ⟨b, index⟩ hb
    exact (hmember b (List.fst_mem_of_mem_zipIdx hb) index).mpr
      (h b (List.fst_mem_of_mem_zipIdx hb))

/-- **Zeros and nulls suit all parameters but references to functions.**  A function gets one
argument for each parameter, the zero or the null of its type, but for a reference to a function the
null of the other kind; so the types are those of the parameters exactly if none is such a
reference.  Calling every exported function of a program fails for the arguments exactly at the
first function with such a parameter, if all modules up to that one have instances. -/
theorem defaults_suit_iff (p : Program) (settings : RuntimeSettings) (environment : Environment) :
    (∀ signature, ModuleInstance.passedDefaults signature =
      signature.params.map fun t => if t = .funcRef then .reference .externRef none else .zero t) ∧
    (∀ signature, (ModuleInstance.passedDefaults signature).map (·.type) = signature.params ↔
      .funcRef ∉ signature.params) ∧
    ∀ name, p.execute settings environment = .error (.unsuitableArguments name) ↔
      ∃ before c after signature,
        p.runnableModules settings environment = .ok (before ++ c :: after) ∧
        (∀ b ∈ before, p.FirstTaking settings b none) ∧
        p.FirstTaking settings c (some (name, signature)) := by
  refine ⟨ModuleInstance.passedDefaults_eq, fun signature => ?_,
    fun name => execute_eq_unsuitableArguments_iff⟩
  rw [ModuleInstance.types_passedDefaults_iff, FunctionSignature.takesFunctions,
    ← Bool.not_eq_true, List.contains_iff_mem]

end Program

/-! ### A function that cannot be called -/

/-- A program with a function that takes a reference to a function and does nothing. -/
def referenceTaking : Program := .ofInstructions [
  ⟨.beginWasmModule, [], [], []⟩,
  ⟨.beginWasmFunction ⟨[.funcRef], []⟩, [], [], [⟨0⟩]⟩,
  ⟨.endWasmFunction ⟨[.funcRef], []⟩, [], [⟨1⟩], []⟩,
  ⟨.endWasmModule, [], [⟨2⟩, ⟨3⟩], []⟩]

/-- The module of the program. -/
def referenceTakingModule : EncodedModule where
  first := 0
  last := 3
  body := {
    types := [⟨[.funcRef], []⟩]
    imports := []
    functions := [0]
    tables := []
    memories := []
    globals := []
    exports := [⟨"function0", .function, 0⟩]
    bodies := [⟨[], [.blockEnd]⟩] }
  importSources := []
  signature := ⟨[], [⟨"function0", .function ⟨[.funcRef], []⟩⟩]⟩

lemma validate_referenceTaking (e : Environment) : referenceTaking.validate e = .ok () := by
  rw [Program.validate_eq_ok_iff]
  refine ⟨_, .cons (Validator.step_mk rfl (by simp) (by decide) rfl rfl rfl)
    (.cons (Validator.step_mk rfl (by simp) (by decide) rfl rfl rfl)
    (.cons (Validator.step_mk rfl (by simp) (by decide) rfl rfl rfl)
    (.cons (Validator.step_mk rfl (by simp) (by decide) rfl rfl ?_) (.nil _)))), rfl⟩
  unfold Validator.checkImports
  rw [Typer.currentModule?]
  repeat rw [Typer.modules_apply rfl (by decide) (by decide) (by decide)]
  rw [Typer.modules_apply_beginWasmModule rfl]
  rfl

/-- The layout of the module. -/
def referenceTakingLayout : ModuleLayout :=
  ⟨[⟨⟨1⟩, .function ⟨[.funcRef], []⟩, none⟩]⟩

lemma module_referenceTaking (t : Typer) :
    LoweringContext.module ⟨t, referenceTakingLayout⟩
      ((referenceTaking.instructions.take 3).drop 1) = .ok referenceTakingModule.body := by
  have hbodies : LoweringContext.functionBodies ⟨t, referenceTakingLayout⟩
      ((referenceTaking.instructions.take 3).drop 1) = .ok [⟨[], [.blockEnd]⟩] := by
    change LoweringContext.functionBodies _
      [⟨.beginWasmFunction ⟨[.funcRef], []⟩, [], [], [⟨0⟩]⟩,
        ⟨.endWasmFunction ⟨[.funcRef], []⟩, [], [⟨1⟩], []⟩] = _
    rw [LoweringContext.functionBodies]
    dsimp only
    split
    · rename_i h
      cases h
    · rename_i inside last after h
      obtain ⟨rfl, rfl, rfl⟩ : inside = [] ∧ last = _ ∧ after = [] := by
        simpa [LoweringContext.spanFunction, eq_comm] using h
      rw [LoweringContext.functionBodies]
      rfl
  rw [LoweringContext.module, hbodies]
  refine congrArg Except.ok ?_
  dsimp only
  decide_cbv

lemma encodeModules_referenceTaking (e : Environment) :
    referenceTaking.encodeModules e = .ok [referenceTakingModule] := by
  let t : Typer := (((Typer.start e).apply ⟨.beginWasmModule, [], [], []⟩).apply
    ⟨.beginWasmFunction ⟨[.funcRef], []⟩, [], [], [⟨0⟩]⟩).apply
      ⟨.endWasmFunction ⟨[.funcRef], []⟩, [], [⟨1⟩], []⟩
  have hlayout : t.currentModule? = some referenceTakingLayout := by
    rw [Typer.currentModule?]
    repeat rw [Typer.modules_apply rfl (by decide) (by decide) (by decide)]
    rw [Typer.modules_apply_beginWasmModule rfl]
    rfl
  have hscan : ModuleScan.run ⟨.start e, none, []⟩ 0 referenceTaking.instructions =
      .ok ⟨t.apply ⟨.endWasmModule, [], [⟨2⟩, ⟨3⟩], []⟩, none,
        [⟨0, 3, referenceTakingLayout⟩]⟩ := by
    change Except.ok (ModuleScan.mk _ none [⟨0, 3, t.currentModule?.getD _⟩]) = _
    rw [hlayout]
    rfl
  rw [Program.encodeModules, hscan]
  change [_].mapM (referenceTaking.encodeSpan _) = _
  refine mapM_eq_ok_iff.mpr (.cons ?_ .nil)
  rw [Program.encodeSpan]
  dsimp only
  rw [module_referenceTaking]
  have hsignature : referenceTakingLayout.signature = referenceTakingModule.signature := by
    decide_cbv
  change Except.ok (EncodedModule.mk 0 3 _ _ referenceTakingLayout.signature) = _
  rw [hsignature]
  rfl

/-- **A function that takes a reference to a function cannot be called with a null**, also in an
accepted program. -/
theorem execute_referenceTaking :
    (ModuleInstance.passedDefaults ⟨[.funcRef], []⟩).map (·.type) ≠ [.funcRef] ∧
    referenceTaking.validate .script = .ok () ∧
    referenceTaking.execute {} .script = .error (.unsuitableArguments "function0") := by
  refine ⟨by decide, validate_referenceTaking .script, ?_⟩
  rw [Program.execute_eq_unsuitableArguments_iff]
  have hvalid : referenceTakingModule.body.isValid = true := by decide
  obtain ⟨i, hi, hsignature⟩ : ∃ i, referenceTaking.instantiateModule {} referenceTakingModule =
      .ok i ∧ i.signature = referenceTakingModule.signature := by
    rw [Program.instantiateModule]
    change ∃ i, ModuleInstance.start {} referenceTakingModule [] = .ok i ∧ _
    rw [ModuleInstance.start, hvalid]
    exact ⟨_, rfl, rfl⟩
  refine ⟨[], referenceTakingModule, [], ⟨[.funcRef], []⟩, ?_, by simp, i, hi, ?_⟩
  · rw [Program.runnableModules, encodeModules_referenceTaking]
    rfl
  · rw [ModuleInstance.functionExports, hsignature]
    rfl

end EngineFuzz
