import Mathlib
import EngineFuzz.Proofs.Lift.EmittedModules

/-!
# Call graphs of emitted modules

A variable that stands for a function is declared at the end of the function.  So a function of a
module calls imports and functions that were defined before it, all of which have smaller indices.

* `WasmModule.Calls`: the calls between the functions of an emitted module.
* `Lowering.Trace.exists_declared`: what a body calls was declared in front of it.
* `ModuleRun.LowersTo.calls_lt`: a callee has a smaller index than its caller.
* `Program.calls_descend`: the main statement.
-/

namespace EngineFuzz

/-- The code of the function with an index calls the function with another one. -/
def WasmModule.Calls (m : WasmModule) (caller callee : Nat) : Prop :=
  ∃ number body, (m.indexSpace .function)[caller]? = some (.defined number) ∧
    m.bodies[number]? = some body ∧ .call callee ∈ body.code

/-! ### Calls in the code of a function -/

namespace Lowering

variable {context : LoweringContext} {params : List WasmType} {function : OpenBlock}
  {around : List OpenBlock} {p m p' : Point} {i : Instruction} {target : Instr}
  {is : List Instruction} {code : List Instr} {l : Lowering} {callee : Nat}

lemma call_not_mem_pushes {vs : List Variable} : Instr.call callee ∉ l.pushes vs := by
  intro h
  rw [pushes, List.mem_filterMap] at h
  obtain ⟨v, -, h⟩ := h
  obtain ⟨index, -, h⟩ := Option.map_eq_some_iff.mp h
  cases h

/-- A call in the code of an instruction is its counterpart. -/
lemma call_mem_codeOf (h : .call callee ∈ l.codeOf i target) : target = .call callee := by
  rw [codeOf, List.mem_append, List.mem_cons] at h
  rcases h with h | h | h
  · exact absurd h call_not_mem_pushes
  · exact h.symm
  · obtain ⟨index, -, h⟩ := List.mem_map.mp h
    cases h

/-- The counterpart of nothing but a call is a call. -/
lemma exists_of_target?_call (h : target? context l i = some (.call callee)) :
    ∃ signature, i.operation = .wasmCallFunction signature ∧
      i.inputs.head?.bind context.layout.indexOf? = some callee := by
  obtain ⟨op, inputs, outputs, innerOutputs⟩ := i
  cases op with
  | wasmCallFunction signature =>
      obtain ⟨index, hi, hc⟩ := Option.map_eq_some_iff.mp h
      exact ⟨signature, rfl, by rw [hi, Instr.call.inj hc]⟩
  | wasmMemoryLoad type offset =>
      obtain ⟨-, index, -, hc⟩ := target?_memoryLoad h
      cases hc
  | wasmMemoryStore type offset =>
      obtain ⟨-, index, -, hc⟩ := target?_memoryStore h
      cases hc
  | wasmLoadGlobal | wasmStoreGlobal | wasmTableGet | wasmTableSet | wasmReassign | wasmBranch
    | wasmBranchIf =>
      obtain ⟨index, -, hc⟩ := Option.map_eq_some_iff.mp h
      cases hc
  | _ => cases h

/-- The validator goes through the instructions of a trace. -/
lemma Trace.steps (h : Trace context params function around p is code p') :
    Validator.Steps p.state is p'.state := by
  induction h with
  | nil _ => exact .nil _
  | cons _ head _ ih => exact .cons head.step ih

/-- **What a body calls was declared in front of it**: at the call the function that has the index
stands in the layout of the module. -/
theorem Trace.exists_declared (h : Trace context params function around p is code p')
    (hc : .call callee ∈ code) : ∃ before after state, is = before ++ after ∧
      Validator.Steps p.state before state ∧ Validator.Steps state after p'.state ∧
      ∃ layout, state.typer.currentModule? = some layout ∧ ∃ e ∈ layout.entities,
        e.category = .function ∧ context.layout.indexOf? e.var = some callee := by
  induction h with
  | nil fits => exact nomatch hc
  | @cons p m p' i target is code fits head tail ih =>
      rcases List.mem_append.mp hc with hc | hc
      · have hcounterpart := head.counterpart
        rw [call_mem_codeOf hc] at hcounterpart
        obtain ⟨signature, hop, hindex⟩ := exists_of_target?_call hcounterpart
        obtain ⟨v, hv, hindex⟩ := Option.bind_eq_some_iff.mp hindex
        obtain ⟨next, ha, -⟩ := Validator.step_eq_ok_iff.mp head.step
        have hacc := ha.inputs
        rw [hop] at hacc
        obtain ⟨vs, hvs⟩ : ∃ vs, i.inputs = v :: vs := List.head?_eq_some_iff.mp hv
        obtain ⟨entity, htype, hcat⟩ : ∃ entity, p.state.typer.typeOf v = .wasmEntity entity ∧
            entity.category = .function := by
          rw [Validator.inputTypes, hvs, List.map_cons] at hacc
          exact ⟨_, (List.cons.inj (Operation.accepts_call hacc)).1, rfl⟩
        have hvisible := ha.visible v (by rw [hvs]; exact List.mem_cons_self ..)
        rw [fits.sound.fits.tracks.visible] at hvisible
        obtain ⟨layout, hl, e, he, hvar, hent⟩ := fits.sound.fits.exists_entity hvisible htype
        exact ⟨[], i :: is, p.state, rfl, .nil _, .cons head.step tail.steps, layout, hl, e, he,
          (congrArg _ hent).trans hcat, by rw [hvar, hindex]⟩
      · obtain ⟨before, after, state, rfl, hbefore, hafter, hdeclared⟩ := ih hc
        exact ⟨i :: before, after, state, rfl, .cons head.step hbefore, hafter, hdeclared⟩

end Lowering

/-! ### Calls in a module -/

namespace ModuleRun.LowersTo

variable {m : ModuleRun} {t : Typer} {layout : ModuleLayout} {module : WasmModule}
  {caller callee number : Nat} {e : ModuleEntity}

/-- The index of a defined function is its place behind the imports of functions. -/
lemma eq_of_getElem?_indexSpace (h : m.LowersTo t layout module)
    (hc : (module.indexSpace .function)[caller]? = some (.defined number)) :
    caller = (layout.importsOf .function).length + number := by
  have hlen : (module.indexSpace .function).length = (layout.ordered .function).length := by
    simpa using congrArg List.length (h.map_typeOf?_indexSpace .function)
  rw [WasmModule.indexSpace, ModuleLayout.ordered, List.length_append, List.length_append,
    List.length_map, List.length_range, h.definedCount_eq] at hlen
  have himports : ∀ o ∈ module.imports.zipIdx.filterMap (fun x =>
      if x.1.type.category = .function then some (Origin.imported x.2) else none),
      o ≠ .defined number := by
    rintro o ho rfl
    obtain ⟨⟨type, k⟩, -, ho⟩ := List.mem_filterMap.mp ho
    dsimp only at ho
    split at ho
    · cases Option.some.inj ho
    · cases ho
  rw [WasmModule.indexSpace] at hc
  rcases lt_or_ge caller (layout.importsOf .function).length with hlt | hge
  · rw [List.getElem?_append_left (by omega)] at hc
    exact absurd rfl (himports _ (List.mem_of_getElem? hc))
  · rw [List.getElem?_append_right (by omega), List.getElem?_map] at hc
    obtain ⟨k, hk, hd⟩ := Option.map_eq_some_iff.mp hc
    obtain ⟨hlt, rfl⟩ := List.getElem?_eq_some_iff.mp hk
    rw [List.getElem_range] at hd
    have := Origin.defined.inj hd
    omega

/-- **A callee has a smaller index than its caller.** -/
theorem calls_lt (h : m.LowersTo t layout module) (hc : module.Calls caller callee) :
    callee < caller := by
  obtain ⟨number, body, hcaller, hbody, hcall⟩ := hc
  -- the function that calls
  obtain ⟨f, hf, code, l, htrace, rfl⟩ := exists_getElem?_of_forall₂ h.bodies.flip hbody
  have hfm := List.mem_of_getElem? hf
  obtain ⟨before, after, hsplit, hbefore, hafter⟩ := m.passes.exists_split f hfm
  have hcode : .call callee ∈ code := by
    simpa [Lowering.call_not_mem_pushes] using hcall
  obtain ⟨early, late, state, hinside, -, hlate, layout₀, hl₀, x, hx, hcat, hindex⟩ :=
    htrace.exists_declared hcode
  -- behind the call there is the end of the function, which declares it
  have hsteps : Validator.Steps state (late ++ f.last :: after) m.closed :=
    Validator.steps_append_iff.mpr ⟨_, hlate, .cons f.step_last hafter⟩
  have hmem : ∀ i ∈ late ++ f.last :: after, i ∈ m.body := by
    intro i hi
    rw [hsplit, FunctionRun.instructions, hinside]
    simp only [List.mem_append, List.mem_cons, List.not_mem_nil, or_false] at hi ⊢
    tauto
  have hplaced := Validator.placed_of_step h.sound.fits.toPlaced m.step_first
  obtain ⟨es, hl, hes⟩ := hsteps.exists_declares
    (fun i hi => h.small i (mem_instructions_of_mem_body (hmem i hi)))
    (fun i hi => m.passes.not_module_boundary hplaced i (hmem i hi)) hl₀
  have hentities : layout.entities = layout₀.entities ++ es := by
    rw [Option.some.inj (h.current.symm.trans hl)]
    rfl
  have hlast : f.last ∈ (late ++ f.last :: after).filter (·.isDeclaration) := by
    refine List.mem_filter.mpr ⟨by simp, ?_⟩
    rw [Instruction.isDeclaration, f.last_operation]
    rfl
  obtain ⟨k, hk⟩ := List.mem_iff_getElem?.mp hlast
  obtain ⟨e, he, hdecl⟩ := exists_getElem?_of_forall₂ hes hk
  -- the index of the function
  have hdef : (definitionsIn m.body .function)[number]? = some f.last := by
    rw [definitionsIn_function, m.passes.filter_endsFunction, List.getElem?_map, hf,
      Option.map_some]
  obtain ⟨e', he', hdecl'⟩ := exists_getElem?_of_forall₂ (h.forall₂_definitions .function) hdef
  have hvar : e'.var = e.var := by
    simpa using hdecl'.outputs.symm.trans hdecl.outputs
  have hcaller' : layout.indexOf? e.var = some caller := by
    rw [← hvar, h.eq_of_getElem?_indexSpace hcaller]
    refine ModuleLayout.indexOf?_eq h.covers.distinct (c := .function) ?_
    rw [ModuleLayout.ordered, List.getElem?_append_right (Nat.le_add_right ..),
      Nat.add_sub_cancel_left, he']
  have hfunction : e.category = .function := by
    have hc := hdecl.category
    rw [f.last_operation] at hc
    exact (Option.some.inj hc).symm
  have himport : e.isImport = false := by
    rw [← hdecl.isImport, f.last_operation]
    rfl
  exact ModuleLayout.indexOf?_lt h.covers.distinct hentities hx (List.mem_of_getElem? he)
    (hcat.trans hfunction.symm) himport hindex hcaller'

end ModuleRun.LowersTo

/-- A chain of calls is no longer than the index of its first function. -/
lemma WasmModule.length_le_of_calls {m : WasmModule}
    (h : ∀ caller callee, m.Calls caller callee → callee < caller) {first : Nat} {rest : List Nat}
    (hc : (first :: rest).IsChain m.Calls) : rest.length ≤ first := by
  induction rest generalizing first with
  | nil => exact Nat.zero_le _
  | cons next rest ih =>
      obtain ⟨hcall, hrest⟩ := List.isChain_cons_cons.mp hc
      have hlt := h _ _ hcall
      have hle := ih hrest
      rw [List.length_cons]
      omega

/-- **The calls of a module descend.**  In each emitted module of an accepted program what a
function calls has a smaller index than the function, so that a chain of calls has no more members
than the module has functions. -/
theorem Program.calls_descend {p : Program} {e : Environment} (h : p.validate e = .ok ())
    (he : e.IsScriptTyped) (hn : p.NumbersSmall) : ∃ encoded, p.encodeModules e = .ok encoded ∧
      ∀ c ∈ encoded, (∀ caller callee, c.body.Calls caller callee → callee < caller) ∧
        ∀ first rest, (first :: rest).IsChain c.body.Calls →
          first < (c.body.indexSpace .function).length →
            (first :: rest).length ≤ (c.body.indexSpace .function).length := by
  obtain ⟨s, ms, encoded, -, henc, hall, -, -⟩ := exists_modules h he hn
  refine ⟨encoded, henc, fun c hc => ?_⟩
  obtain ⟨k, hk, rfl⟩ := List.getElem_of_mem hc
  obtain ⟨hl, hat⟩ := List.forall₂_iff_get.mp hall
  obtain ⟨layout, hm⟩ := hat k (hl ▸ hk) hk
  have hlt : ∀ caller callee, encoded[k].body.Calls caller callee → callee < caller :=
    fun caller callee hcall => hm.lowers.calls_lt hcall
  refine ⟨hlt, fun first rest hchain hfirst => ?_⟩
  have := WasmModule.length_le_of_calls hlt hchain
  rw [List.length_cons]
  omega

/-- A program with a module of two functions, the second of which calls the first. -/
def relay : Program := .ofInstructions [
  ⟨.beginWasmModule, [], [], []⟩,
  ⟨.beginWasmFunction ⟨[], []⟩, [], [], []⟩,
  ⟨.endWasmFunction ⟨[], []⟩, [], [⟨0⟩], []⟩,
  ⟨.beginWasmFunction ⟨[], []⟩, [], [], []⟩,
  ⟨.wasmCallFunction ⟨[], []⟩, [⟨0⟩], [], []⟩,
  ⟨.endWasmFunction ⟨[], []⟩, [], [⟨1⟩], []⟩,
  ⟨.endWasmModule, [], [⟨2⟩, ⟨3⟩], []⟩]

lemma validate_relay (e : Environment) : relay.validate e = .ok () := by
  rw [Program.validate_eq_ok_iff]
  refine ⟨_, .cons (Validator.step_mk rfl (by simp) (by decide) rfl rfl rfl)
    (.cons (Validator.step_mk rfl (by simp) (by decide) rfl rfl rfl)
    (.cons (Validator.step_mk rfl (by simp) (by decide) rfl rfl rfl)
    (.cons (Validator.step_mk rfl (by simp) (by decide) rfl rfl rfl)
    (.cons (Validator.step_mk rfl ?_ (by decide) ?_ rfl rfl)
    (.cons (Validator.step_mk rfl (by simp) (by decide) rfl rfl rfl)
    (.cons (Validator.step_mk rfl (by simp) (by decide) rfl rfl ?_)
    (.nil _))))))), rfl⟩
  · intro v hv
    rw [List.mem_singleton.mp hv]
    exact ScopeState.isVisible_apply_of_isVisible
      (ScopeState.isVisible_apply_of_mem (by decide) (by decide)) rfl
  · rw [List.map_cons, Typer.typeOf_apply_of_not_mem (by decide),
      Typer.typeOf_apply_of_outputs rfl (by decide) (by decide) rfl rfl]
    rfl
  · unfold Validator.checkImports
    rw [Typer.currentModule?]
    repeat rw [Typer.modules_apply rfl (by decide) (by decide) (by decide)]
    rw [Typer.modules_apply_beginWasmModule rfl]
    rfl

theorem calls_descend_relay : ∃ encoded, relay.encodeModules .script = .ok encoded ∧
    ∀ c ∈ encoded, (∀ caller callee, c.body.Calls caller callee → callee < caller) ∧
      ∀ first rest, (first :: rest).IsChain c.body.Calls →
        first < (c.body.indexSpace .function).length →
          (first :: rest).length ≤ (c.body.indexSpace .function).length :=
  Program.calls_descend (validate_relay .script) Environment.isScriptTyped_script (by decide)

end EngineFuzz
