import Mathlib
import EngineFuzz.Proofs.Lift.IndexSpaces
import EngineFuzz.Proofs.Validation.Freshness

/-!
# The scopes around a module

What stands in a module declares its variables in scopes inside of the module.  Those around it stay
as they are, and what the imports of the module are taken from is in them.

* `Validator.Steps.scopedInModule`: the scopes around a module, at each position inside.
* `ModuleRun.scopes_back`: the scopes behind a module.
* `ModuleRun.LowersTo.mem_scopes_of_source`: the sources of imports are in scope in front of the
  module.
-/

namespace EngineFuzz

namespace ScopeState

variable {s : ScopeState} {i : Instruction} {module : OpenBlock} {around : List OpenBlock}
  {outer : List (List Variable)}

/-- Inside a module the scopes around it are some of the outermost ones. -/
structure ScopedInModule (s : ScopeState) (module : OpenBlock) (around : List OpenBlock)
    (outer : List (List Variable)) : Prop extends s.InModule module around where
  length : s.scopes.length = s.blocks.length + 1
  outer_length : outer.length = around.length + 1
  suffix : outer <:+ s.scopes

namespace ScopedInModule

/-- The block that an instruction ends inside a module is not the module. -/
lemma suffix_outside (h : s.ScopedInModule module around outer) (hc : s.check i = .ok ())
    (he : i.operation ≠ .endWasmModule) :
    outer <:+ (s.outside i).scopes ∧ outer.length < (s.outside i).scopes.length := by
  obtain ⟨⟨⟨inner, hb, -⟩, hk⟩, hl, ho, hsuffix⟩ := h
  have hlen : s.scopes.length = inner.length + outer.length + 1 := by
    rw [hl, hb, ho, List.length_append, List.length_cons]
  cases hend : i.operation.isBlockEnd with
  | false =>
      rw [outside_of_not_isBlockEnd hend]
      exact ⟨hsuffix, by omega⟩
  | true =>
      obtain ⟨b, bs, hbs, hkb⟩ := exists_cons_of_checkBlockEnd ((check_eq_ok_iff.mp hc).1 hend) hend
      cases inner with
      | nil =>
          rw [hb, List.nil_append, List.cons.injEq] at hbs
          exact absurd (InModule.eq_endWasmModule hend (hkb ▸ hbs.1 ▸ hk)) he
      | cons c inner =>
          rw [List.length_cons] at hlen
          obtain ⟨x, rest, hs⟩ := List.exists_cons_of_length_pos (l := s.scopes) (by omega)
          rw [outside_of_isBlockEnd hend]
          change outer <:+ s.scopes.tail ∧ outer.length < s.scopes.tail.length
          rw [hs, List.suffix_cons_iff] at hsuffix
          rw [hs, List.length_cons] at hlen
          rw [hs, List.tail_cons]
          refine ⟨hsuffix.resolve_left fun heq => ?_, by omega⟩
          have := congrArg List.length heq
          rw [List.length_cons] at this
          omega

/-- An instruction inside a module leaves the scopes around the module as they are. -/
lemma apply (h : s.ScopedInModule module around outer) (hp : s.Placed) (hc : s.check i = .ok ())
    (he : i.operation ≠ .endWasmModule) : (s.apply i).ScopedInModule module around outer := by
  refine ⟨h.toInModule.apply hp hc he, length_apply h.length hc, h.outer_length, ?_⟩
  obtain ⟨hsuffix, hlt⟩ := h.suffix_outside hc he
  obtain ⟨top, rest, hs⟩ := exists_outside h.length hc
  have hrest : outer <:+ rest := by
    rw [hs, List.suffix_cons_iff] at hsuffix
    refine hsuffix.resolve_left fun heq => ?_
    rw [hs, heq] at hlt
    exact absurd hlt (lt_irrefl _)
  rw [scopes_apply hs]
  exact (hrest.trans (List.suffix_cons _ _)).trans (List.suffix_append _ _)

/-- Between functions there is one scope inside the module. -/
lemma scopes_eq (h : s.ScopedInModule module around outer) (hb : s.blocks = module :: around) :
    ∃ inside, s.scopes = inside :: outer := by
  obtain ⟨xs, hxs⟩ := h.suffix
  have hl := h.length
  rw [← hxs, hb, List.length_append, h.outer_length, List.length_cons] at hl
  obtain ⟨inside, rfl⟩ := List.length_eq_one_iff.mp (show xs.length = 1 by omega)
  exact ⟨inside, hxs.symm⟩

end ScopedInModule

end ScopeState

namespace Validator

variable {s s' : Validator} {is : List Instruction} {module : OpenBlock} {around : List OpenBlock}
  {outer : List (List Variable)}

/-- Each open block has a scope, and so has the program. -/
lemma Steps.length_scopes (hs : Steps s is s')
    (h : s.scopes.scopes.length = s.scopes.blocks.length + 1) :
    s'.scopes.scopes.length = s'.scopes.blocks.length + 1 := by
  induction hs with
  | nil s => exact h
  | cons head _ ih =>
      obtain ⟨next, ha, rfl⟩ := step_eq_ok_iff.mp head
      exact ih (ScopeState.length_apply h ha.position)

/-- **The scopes around a module** are the same at each position inside of it. -/
theorem Steps.scopedInModule (hs : Steps s is s') (hp : s.scopes.Placed)
    (h : s.scopes.ScopedInModule module around outer)
    (he : ∀ i ∈ is, i.operation ≠ .endWasmModule) :
    s'.scopes.ScopedInModule module around outer := by
  induction hs with
  | nil s => exact h
  | cons head tail ih =>
      obtain ⟨hi, hrest⟩ := List.forall_mem_cons.mp he
      have hp' := placed_of_step hp head
      obtain ⟨next, ha, rfl⟩ := step_eq_ok_iff.mp head
      exact ih hp' (h.apply hp ha.position hi) hrest

end Validator

namespace ModuleRun

variable {m : ModuleRun} {t : Typer} {layout : ModuleLayout} {module : WasmModule}

/-- Behind its first instruction the position is inside the module. -/
lemma scopedInModule_opened (hl : m.front.scopes.scopes.length = m.front.scopes.blocks.length + 1) :
    m.opened.scopes.ScopedInModule ⟨.wasmModule, false, none⟩ m.front.scopes.blocks
      m.front.scopes.scopes := by
  obtain ⟨next, ha, ho⟩ := Validator.step_eq_ok_iff.mp m.step_first
  have hn := (Instruction.hasConsistentArity_iff.mp ha.arity).2
  rw [m.first_operation] at hn
  have houtputs : m.first.outputs = [] := List.eq_nil_of_length_eq_zero hn.1
  obtain ⟨top, rest, hs⟩ := List.exists_cons_of_length_pos (l := m.front.scopes.scopes) (by omega)
  have hend : m.first.operation.isBlockEnd = false := by rw [m.first_operation]; rfl
  have hstart : m.first.operation.isBlockStart = true := by rw [m.first_operation]; rfl
  have hb : m.opened.scopes.blocks = ⟨.wasmModule, false, none⟩ :: m.front.scopes.blocks := by
    rw [ho, ScopeState.blocks_apply, ScopeState.opened, ScopeState.closed?, m.first_operation]
    rfl
  refine ⟨⟨⟨[], hb, by simp⟩, rfl⟩, ?_, hl, ?_⟩
  · rw [ho]
    exact ScopeState.length_apply hl ha.position
  · rw [ho, ScopeState.scopes_apply (by rw [ScopeState.outside_of_not_isBlockEnd hend, hs]), hstart,
      houtputs, hs]
    exact List.suffix_append _ _

/-- At each position in the body of a module the scopes around the module are as in front of it. -/
lemma scopedInModule (hp : m.front.scopes.Placed)
    (hl : m.front.scopes.scopes.length = m.front.scopes.blocks.length + 1)
    {before after : List Instruction} {s : Validator} (hb : m.body = before ++ after)
    (hs : Validator.Steps m.opened before s) :
    s.scopes.ScopedInModule ⟨.wasmModule, false, none⟩ m.front.scopes.blocks
      m.front.scopes.scopes := by
  have hopened := Validator.placed_of_step hp m.step_first
  refine hs.scopedInModule hopened (scopedInModule_opened hl) fun i hi => ?_
  refine (m.passes.not_module_boundary hopened i ?_).2
  rw [hb]
  exact List.mem_append_left _ hi

/-- Behind a module its outputs are declared in the scopes in front of it. -/
lemma scopes_back (hp : m.front.scopes.Placed)
    (hl : m.front.scopes.scopes.length = m.front.scopes.blocks.length + 1)
    {top : List Variable} {rest : List (List Variable)} (hs : m.front.scopes.scopes = top :: rest) :
    m.back.scopes.scopes = (m.last.outputs.reverse ++ top) :: rest := by
  have hclosed := scopedInModule hp hl (List.append_nil _).symm m.passes.steps
  obtain ⟨next, ha, hback⟩ := Validator.step_eq_ok_iff.mp m.step_last
  obtain ⟨inside, hin⟩ :=
    hclosed.scopes_eq (hclosed.toInModule.blocks_eq ha.position m.last_operation)
  have hend : m.last.operation.isBlockEnd = true := by rw [m.last_operation]; rfl
  have hstart : m.last.operation.isBlockStart = false := by rw [m.last_operation]; rfl
  have hout : (m.closed.scopes.outside m.last).scopes = top :: rest := by
    rw [ScopeState.outside_of_isBlockEnd hend, ScopeState.leave, hin, hs, List.tail_cons]
  rw [hback, ScopeState.scopes_apply hout, hstart]
  rfl

/-- What an import is taken from has no type that belongs into modules. -/
lemma ne_wasmEntity_of_acceptsInputs {op : Operation} {type : StaticType}
    {function : Option FunctionSignature} (h : op.isImport = true)
    (ha : op.acceptsInputs [type] function = true) (entity : EntityType) :
    type ≠ .wasmEntity entity := by
  rintro rfl
  cases op with
  | wasmImportGlobal | wasmImportTable | wasmImportMemory | wasmImportFunction signature =>
      exact Bool.false_ne_true ha
  | _ => exact Bool.false_ne_true h

/-- **The sources of imports** are in scope in front of the module. -/
theorem LowersTo.mem_scopes_of_source (h : m.LowersTo t layout module)
    (hl : m.front.scopes.scopes.length = m.front.scopes.blocks.length + 1) {e : ModuleEntity}
    (he : e ∈ layout.entities) {source : Variable} (hsource : e.source = some source) :
    source ∈ m.front.scopes.scopes.flatten := by
  have hp := h.sound.fits.toPlaced
  -- the instruction that declares the import, and the state in front of it
  obtain ⟨k, hk⟩ := List.mem_iff_getElem?.mp he
  obtain ⟨i, hi, hdecl⟩ := exists_getElem?_of_forall₂ h.declares.flip hk
  have hmem := (List.mem_filter.mp (List.mem_of_getElem? hi)).1
  obtain ⟨before, after, hsplit⟩ := List.append_of_mem hmem
  obtain ⟨s, hbefore, hafter⟩ := Validator.steps_append_iff.mp (hsplit ▸ m.passes.steps)
  obtain ⟨s', hstep, -⟩ := Validator.steps_cons_iff.mp hafter
  obtain ⟨next, ha, -⟩ := Validator.step_eq_ok_iff.mp hstep
  have himport : i.operation.isImport = true := by
    rw [hdecl.isImport, ModuleEntity.isImport, hsource]
    rfl
  have hinputs : i.inputs = [source] := hdecl.source source hsource
  have hsound : s.Sound := (h.sound.step m.step_first (h.small _ (List.mem_cons_self ..))).steps
    hbefore fun j hj => h.small j (mem_instructions_of_mem_body (by rw [hsplit]; simp [hj]))
  have hscoped := scopedInModule hp hl hsplit hbefore
  -- it stands between functions
  have hworld : OpenBlock.worldOf s.scopes.blocks = .module := by
    rw [hsound.fits.toPlaced.worldOf_eq_home ha.position]
    cases hop : i.operation <;> rw [hop] at himport <;> first | rfl | cases himport
  have hblocks : s.scopes.blocks = ⟨.wasmModule, false, none⟩ :: m.front.scopes.blocks := by
    obtain ⟨inner, hb, hinner⟩ := hscoped.blocks
    cases inner with
    | nil => exact hb
    | cons b inner =>
        rw [hb] at hworld
        exact nomatch (hinner b (List.mem_cons_self ..)).symm.trans hworld
  obtain ⟨inside, hs⟩ := hscoped.scopes_eq hblocks
  -- what is declared in the module is an entity, which no import is taken from
  have hv := (hsound.fits.tracks.visible source).mp (ha.visible source (by simp [hinputs]))
  rw [hs, List.flatten_cons, List.mem_append] at hv
  refine hv.resolve_left fun hin => ?_
  obtain ⟨top, rest, hs', hholds, -⟩ := hsound.fits.exists_scopes
  rw [hs, List.cons.injEq] at hs'
  rw [← hs'.1, hworld] at hholds
  obtain ⟨entities, -, hvars, htypes⟩ := hholds
  rw [← List.mem_reverse, ← hvars] at hin
  obtain ⟨d, hd, rfl⟩ := List.mem_map.mp hin
  have hacc := ha.inputs
  rw [Validator.inputTypes, hinputs] at hacc
  exact ne_wasmEntity_of_acceptsInputs himport hacc d.entity (htypes d hd)

end ModuleRun

end EngineFuzz
