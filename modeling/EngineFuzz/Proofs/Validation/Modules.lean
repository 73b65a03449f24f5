import Mathlib
import EngineFuzz.Proofs.Validation.FunctionBlocks

/-!
# Modules and functions of accepted programs

An accepted program is a script with modules in it, and the body of a module is a list of entities
with functions in it.  Here both are told apart, with the states of the validator around each
module and each function.

* `FunctionRun`, `Validator.Body`: the functions in the body of a module.
* `ModuleRun`, `Validator.Script`: the modules in a script.
* `Validator.Steps.exists_body`, `Validator.Steps.exists_script`: accepted instructions are such
  bodies and scripts.
-/

namespace EngineFuzz

/-- A function that the validator has gone through. -/
structure FunctionRun where
  first : Instruction
  inside : List Instruction
  last : Instruction
  /-- The signature of the first instruction. -/
  opener : FunctionSignature
  /-- The signature of the last instruction. -/
  closer : FunctionSignature
  /-- The states around the first and around the last instruction. -/
  front : Validator
  opened : Validator
  closed : Validator
  back : Validator
  first_operation : first.operation = .beginWasmFunction opener
  last_operation : last.operation = .endWasmFunction closer
  open_inside : ∀ i ∈ inside, i.operation.endsFunction = false
  step_first : front.step first = .ok opened
  steps_inside : Validator.Steps opened inside closed
  step_last : closed.step last = .ok back

namespace FunctionRun

/-- All instructions of the function. -/
def instructions (f : FunctionRun) : List Instruction := f.first :: (f.inside ++ [f.last])

lemma steps (f : FunctionRun) : Validator.Steps f.front f.instructions f.back :=
  .cons f.step_first (Validator.steps_append_iff.mpr
    ⟨f.closed, f.steps_inside, Validator.steps_singleton_iff.mpr f.step_last⟩)

/-- Behind its first instruction the position is inside the function. -/
lemma inFunction_opened (f : FunctionRun) : f.opened.scopes.InFunction []
    (ScopeState.functionBlock f.opener) f.front.scopes.blocks := by
  obtain ⟨next, -, h⟩ := Validator.step_eq_ok_iff.mp f.step_first
  rw [h]
  exact ScopeState.inFunction_apply_beginWasmFunction f.first_operation

lemma placed_opened (f : FunctionRun) (h : f.front.scopes.Placed) : f.opened.scopes.Placed :=
  Validator.placed_of_step h f.step_first

/-- A function begins and ends no module. -/
lemma not_module_boundary (f : FunctionRun) (h : f.front.scopes.Placed) :
    ∀ i ∈ f.instructions, i.operation ≠ .beginWasmModule ∧ i.operation ≠ .endWasmModule := by
  have hall := (f.steps_inside.exists_inFunction (f.placed_opened h) f.inFunction_opened
    f.open_inside).2
  intro i hi
  rcases List.mem_cons.mp hi with rfl | hi
  · rw [f.first_operation]
    exact ⟨nofun, nofun⟩
  · rcases List.mem_append.mp hi with hi | hi
    · have hhome := hall i hi
      refine ⟨fun he => ?_, fun he => ?_⟩ <;> rw [he] at hhome
      · exact nomatch (show World.script = .function from hhome)
      · exact nomatch (show World.module = .function from hhome)
    · rw [List.mem_singleton.mp hi, f.last_operation]
      exact ⟨nofun, nofun⟩

end FunctionRun

namespace Validator

variable {s s' : Validator} {i : Instruction} {is : List Instruction}

/-- The validator goes through a part of the body of a module, with these functions in it. -/
inductive Body : Validator → List Instruction → List FunctionRun → Validator → Prop where
  | nil (s : Validator) : Body s [] [] s
  | entity {s m s' : Validator} {i : Instruction} {is : List Instruction} {fs : List FunctionRun}
      (declares : i.operation.isDefinition = true ∨ i.operation.isImport = true)
      (open_ : i.operation.endsFunction = false) (head : s.step i = .ok m)
      (tail : Body m is fs s') : Body s (i :: is) fs s'
  | function {s' : Validator} {is : List Instruction} {fs : List FunctionRun} (f : FunctionRun)
      (tail : Body f.back is fs s') : Body f.front (f.instructions ++ is) (f :: fs) s'

lemma Body.steps {fs : List FunctionRun} (h : Body s is fs s') : Steps s is s' := by
  induction h with
  | nil s => exact .nil s
  | entity _ _ head _ ih => exact .cons head ih
  | function f _ ih => exact steps_append_iff.mpr ⟨f.back, f.steps, ih⟩

/-- A function in the body of a module lies between states of the body. -/
lemma Body.exists_split {fs : List FunctionRun} (h : Body s is fs s') : ∀ f ∈ fs,
    ∃ before after, is = before ++ (f.instructions ++ after) ∧ Steps s before f.front ∧
      Steps f.back after s' := by
  induction h with
  | nil s => simp
  | entity _ _ head _ ih =>
      intro f hf
      obtain ⟨before, after, rfl, hb, ha⟩ := ih f hf
      exact ⟨_ :: before, after, rfl, .cons head hb, ha⟩
  | function g tail ih =>
      refine List.forall_mem_cons.mpr ⟨⟨[], _, rfl, .nil _, tail.steps⟩, fun f hf => ?_⟩
      obtain ⟨before, after, rfl, hb, ha⟩ := ih f hf
      exact ⟨g.instructions ++ before, after, by simp, steps_append_iff.mpr ⟨_, g.steps, hb⟩, ha⟩

/-- A body begins and ends no module. -/
lemma Body.not_module_boundary {fs : List FunctionRun} (h : Body s is fs s')
    (hp : s.scopes.Placed) :
    ∀ i ∈ is, i.operation ≠ .beginWasmModule ∧ i.operation ≠ .endWasmModule := by
  induction h with
  | nil s => simp
  | entity declares open_ head tail ih =>
      refine List.forall_mem_cons.mpr ⟨⟨fun he => ?_, fun he => ?_⟩,
        ih (placed_of_step hp head)⟩ <;>
      · rw [he] at declares
        exact absurd declares (by decide)
  | function f tail ih =>
      intro i hi
      rcases List.mem_append.mp hi with hi | hi
      · exact f.not_module_boundary hp i hi
      · exact ih (f.steps.placed hp) i hi

/-! ### The end of a function -/

/-- Inside a function that is closed later there is an end of it. -/
lemma Steps.exists_function {inner : List OpenBlock} {function : OpenBlock}
    {around : List OpenBlock} (hs : Steps s is s') (hp : s.scopes.Placed)
    (h : s.scopes.InFunction inner function around) (he : s'.scopes.blocks = around) :
    ∃ inside last after m m', is = inside ++ last :: after ∧ Steps s inside m ∧
      m.step last = .ok m' ∧ Steps m' after s' ∧
        (∀ i ∈ inside, i.operation.endsFunction = false) ∧ m'.scopes.blocks = around ∧
          ∃ closer, last.operation = .endWasmFunction closer := by
  induction hs generalizing inner with
  | nil s =>
      -- the function is still open
      have hl := congrArg List.length (h.blocks.symm.trans he)
      simp at hl
      omega
  | @cons s m s' i is head tail ih =>
      have hp' := placed_of_step hp head
      by_cases hend : i.operation.endsFunction = true
      · obtain ⟨closer, hop⟩ : ∃ closer, i.operation = .endWasmFunction closer := by
          cases hop : i.operation <;> rw [hop] at hend <;>
            first | exact ⟨_, rfl⟩ | exact absurd hend Bool.false_ne_true
        refine ⟨[], i, is, s, m, rfl, .nil s, head, tail, by simp, ?_, closer, hop⟩
        obtain ⟨next, ha, rfl⟩ := step_eq_ok_iff.mp head
        have hb := h.blocks
        rw [h.eq_nil_of_endsFunction ha.position hend] at hb
        rw [ScopeState.blocks_apply, ScopeState.opened, hop, hb]
        rfl
      · rw [Bool.not_eq_true] at hend
        obtain ⟨next, ha, hm⟩ := step_eq_ok_iff.mp head
        have hin : m.scopes.InFunction (s.scopes.innerBehind inner i) function around := by
          rw [hm]
          exact h.apply hp ha.position hend
        obtain ⟨inside, last, after, a, b, rfl, hin', hlast, hafter, hopen, hb, hcl⟩ :=
          ih hp' hin he
        refine ⟨i :: inside, last, after, a, b, rfl, .cons head hin', hlast, hafter, ?_, hb, hcl⟩
        intro j hj
        rcases List.mem_cons.mp hj with rfl | hj
        · exact hend
        · exact hopen j hj

/-! ### The body of a module -/

end Validator

/-- What stands in the body of a module. -/
lemma Operation.cases_of_home_module {op : Operation} (h : op.home = .module) :
    op = .endWasmModule ∨ (∃ signature, op = .beginWasmFunction signature) ∨
      (op.isDefinition = true ∨ op.isImport = true) ∧ op.endsFunction = false ∧
        op.isBlockStart = false ∧ op.isBlockEnd = false := by
  cases op <;>
    first
    | exact .inl rfl
    | exact .inr (.inl ⟨_, rfl⟩)
    | exact .inr (.inr ⟨.inl rfl, rfl, rfl, rfl⟩)
    | exact .inr (.inr ⟨.inr rfl, rfl, rfl, rfl⟩)
    | cases (show World.script = .module from h)
    | cases (show World.function = .module from h)

namespace Validator

variable {s s' : Validator} {i : Instruction} {is : List Instruction}

/-- **Accepted instructions inside a module** are entities and functions. -/
theorem Steps.exists_body {module : OpenBlock} {around : List OpenBlock} (hs : Steps s is s')
    (hp : s.scopes.Placed) (hk : module.kind = .wasmModule)
    (hb : s.scopes.blocks = module :: around) (hb' : s'.scopes.blocks = module :: around)
    (hne : ∀ i ∈ is, i.operation ≠ .endWasmModule) : ∃ fs, Body s is fs s' := by
  -- a function is gone through in one go, so the induction is on the length
  induction hl : is.length using Nat.strong_induction_on generalizing s is with
  | _ n ih =>
    cases hs with
    | nil => exact ⟨[], .nil _⟩
    | @cons _ m _ i is head tail =>
        have hp' := placed_of_step hp head
        obtain ⟨next, ha, hm⟩ := step_eq_ok_iff.mp head
        have hhome : i.operation.home = .module := by
          rw [← hp.worldOf_eq_home ha.position, hb, OpenBlock.worldOf, hk]
          rfl
        rcases Operation.cases_of_home_module hhome with h | ⟨opener, h⟩ | ⟨hd, ho, hbs, hbe⟩
        · exact absurd h (hne i (List.mem_cons_self ..))
        · have hin : m.scopes.InFunction [] (ScopeState.functionBlock opener)
              (module :: around) := by
            rw [hm, ← hb]
            exact ScopeState.inFunction_apply_beginWasmFunction h
          obtain ⟨inside, last, after, a, b, rfl, hinside, hlast, hafter, hopen, hbb, closer,
            hcl⟩ :=
            tail.exists_function hp' hin hb'
          have hlen : after.length < n := by
            rw [← hl]
            simp only [List.length_cons, List.length_append]
            omega
          obtain ⟨fs, hfs⟩ := ih _ hlen hafter (placed_of_step (hinside.placed hp') hlast) hbb
            (fun j hj => hne j (by simp [hj])) rfl
          have hrun := Body.function ⟨i, inside, last, opener, closer, s, m, a, b, h, hcl, hopen,
            head, hinside, hlast⟩ hfs
          rw [FunctionRun.instructions, List.cons_append, List.append_assoc] at hrun
          exact ⟨_, hrun⟩
        · have hmb : m.scopes.blocks = module :: around := by
            rw [hm, ScopeState.blocks_apply, ScopeState.opened, hbs, hbe, hb]
            rfl
          obtain ⟨fs, hfs⟩ := ih _ (by rw [← hl]; simp) tail hp' hmb
            (fun j hj => hne j (List.mem_cons_of_mem _ hj)) rfl
          exact ⟨fs, .entity hd ho head hfs⟩

end Validator

/-! ### Modules -/

/-- A module that the validator has gone through. -/
structure ModuleRun where
  first : Instruction
  body : List Instruction
  last : Instruction
  functions : List FunctionRun
  /-- The states around the first and around the last instruction. -/
  front : Validator
  opened : Validator
  closed : Validator
  back : Validator
  first_operation : first.operation = .beginWasmModule
  last_operation : last.operation = .endWasmModule
  step_first : front.step first = .ok opened
  passes : opened.Body body functions closed
  step_last : closed.step last = .ok back

namespace ModuleRun

/-- All instructions of the module. -/
def instructions (m : ModuleRun) : List Instruction := m.first :: (m.body ++ [m.last])

lemma steps (m : ModuleRun) : Validator.Steps m.front m.instructions m.back :=
  .cons m.step_first (Validator.steps_append_iff.mpr
    ⟨m.closed, m.passes.steps, Validator.steps_singleton_iff.mpr m.step_last⟩)

end ModuleRun

namespace Validator

variable {s s' : Validator} {i : Instruction} {is : List Instruction}

/-- The validator goes through a part of the script, with these modules in it. -/
inductive Script : Validator → List Instruction → List ModuleRun → Validator → Prop where
  | nil (s : Validator) : Script s [] [] s
  | script {s m s' : Validator} {i : Instruction} {is : List Instruction} {ms : List ModuleRun}
      (home : i.operation.home = .script) (other : i.operation ≠ .beginWasmModule)
      (head : s.step i = .ok m) (tail : Script m is ms s') : Script s (i :: is) ms s'
  | module {s' : Validator} {is : List Instruction} {ms : List ModuleRun} (m : ModuleRun)
      (tail : Script m.back is ms s') : Script m.front (m.instructions ++ is) (m :: ms) s'

lemma Script.steps {ms : List ModuleRun} (h : Script s is ms s') : Steps s is s' := by
  induction h with
  | nil s => exact .nil s
  | script _ _ head _ ih => exact .cons head ih
  | module m _ ih => exact steps_append_iff.mpr ⟨m.back, m.steps, ih⟩

/-- A module in a script lies between states of the script. -/
lemma Script.exists_split {ms : List ModuleRun} (h : Script s is ms s') : ∀ m ∈ ms,
    ∃ before after, is = before ++ (m.instructions ++ after) ∧ Steps s before m.front ∧
      Steps m.back after s' := by
  induction h with
  | nil s => simp
  | script _ _ head _ ih =>
      intro m hm
      obtain ⟨before, after, rfl, hb, ha⟩ := ih m hm
      exact ⟨_ :: before, after, rfl, .cons head hb, ha⟩
  | module n tail ih =>
      refine List.forall_mem_cons.mpr ⟨⟨[], _, rfl, .nil _, tail.steps⟩, fun m hm => ?_⟩
      obtain ⟨before, after, rfl, hb, ha⟩ := ih m hm
      exact ⟨n.instructions ++ before, after, by simp, steps_append_iff.mpr ⟨_, n.steps, hb⟩, ha⟩

end Validator

namespace ScopeState

variable {s : ScopeState} {i : Instruction} {module : OpenBlock} {around : List OpenBlock}

/-- A position inside a module, which stands in the blocks `around`. -/
structure InModule (s : ScopeState) (module : OpenBlock) (around : List OpenBlock) : Prop where
  blocks : ∃ inner, s.blocks = inner ++ module :: around ∧
    ∀ b ∈ inner, b.kind.inside = .function
  kind : module.kind = .wasmModule

namespace InModule

lemma worldOf_ne (h : s.InModule module around) : OpenBlock.worldOf s.blocks ≠ .script := by
  obtain ⟨⟨inner, hb, hc⟩, hk⟩ := h
  rw [hb]
  cases inner with
  | nil => simp [OpenBlock.worldOf, hk, BlockKind.inside]
  | cons b inner => simp [OpenBlock.worldOf, hc b (List.mem_cons_self ..)]

lemma eq_endWasmModule {op : Operation} (h : op.isBlockEnd = true) (hk : op.kind = .wasmModule) :
    op = .endWasmModule := by
  have hi : op.kind.inside = .module := by rw [hk]; rfl
  cases op <;>
    first
    | rfl
    | cases (show World.script = .module from hi)
    | cases (show World.function = .module from hi)
    | cases h

/-- A position inside a module stays inside, unless the module ends. -/
lemma apply (h : s.InModule module around) (hp : s.Placed) (hc : s.check i = .ok ())
    (he : i.operation ≠ .endWasmModule) : (s.apply i).InModule module around := by
  have hhome : i.operation.home ≠ .script := by
    rw [← hp.worldOf_eq_home hc]
    exact h.worldOf_ne
  obtain ⟨⟨inner, hb, hinner⟩, hk⟩ := h
  have hopened : ∀ b ∈ s.opened i, b.kind.inside = .function := by
    intro b hmem
    unfold opened at hmem
    split at hmem
    · rename_i hs
      rw [Operation.home_of_isBlockStart hs] at hhome
      rw [List.mem_singleton.mp hmem, kind_openedBlock (check_eq_ok_iff.mp hc).1]
      revert hhome
      cases i.operation.kind <;> simp [BlockKind.outside, BlockKind.inside]
    · exact absurd hmem List.not_mem_nil
  refine ⟨?_, hk⟩
  cases hend : i.operation.isBlockEnd with
  | false =>
      refine ⟨s.opened i ++ inner, ?_, fun b hmem => ?_⟩
      · rw [blocks_apply, hend, if_neg Bool.false_ne_true, hb, List.append_assoc]
      · exact (List.mem_append.mp hmem).elim (hopened b) (hinner b)
  | true =>
      obtain ⟨b, bs, hbs, hkb⟩ := exists_cons_of_checkBlockEnd ((check_eq_ok_iff.mp hc).1 hend) hend
      cases inner with
      | nil =>
          rw [hb, List.nil_append, List.cons.injEq] at hbs
          exact absurd (eq_endWasmModule hend (hkb ▸ hbs.1 ▸ hk)) he
      | cons c inner =>
          refine ⟨s.opened i ++ inner, ?_, fun b hmem => ?_⟩
          · rw [blocks_apply, hend, if_pos rfl, hb, List.append_assoc]
            rfl
          · refine (List.mem_append.mp hmem).elim (hopened b) fun hmem => ?_
            exact hinner b (List.mem_cons_of_mem _ hmem)

/-- At the end of a module all functions inside are closed. -/
lemma blocks_eq (h : s.InModule module around) (hc : s.check i = .ok ())
    (he : i.operation = .endWasmModule) : s.blocks = module :: around := by
  obtain ⟨⟨inner, hb, hinner⟩, hk⟩ := h
  have hend : i.operation.isBlockEnd = true := by rw [he]; rfl
  obtain ⟨b, bs, hbs, hkb⟩ := exists_cons_of_checkBlockEnd ((check_eq_ok_iff.mp hc).1 hend) hend
  cases inner with
  | nil => exact hb
  | cons c inner =>
      rw [hb, List.cons_append, List.cons.injEq] at hbs
      have hcc := hinner c (List.mem_cons_self ..)
      rw [hbs.1, hkb, he] at hcc
      exact nomatch (show World.module = .function from hcc)

end InModule

end ScopeState

namespace Validator

variable {s s' : Validator} {i : Instruction} {is : List Instruction}

/-- Inside a module that is closed later there is an end of it. -/
lemma Steps.exists_module {module : OpenBlock} {around : List OpenBlock} (hs : Steps s is s')
    (hp : s.scopes.Placed) (h : s.scopes.InModule module around)
    (he : OpenBlock.worldOf s'.scopes.blocks = .script) :
    ∃ inside last after m m', is = inside ++ last :: after ∧ Steps s inside m ∧
      m.step last = .ok m' ∧ Steps m' after s' ∧ (∀ i ∈ inside, i.operation ≠ .endWasmModule) ∧
        m.scopes.blocks = module :: around ∧ last.operation = .endWasmModule := by
  induction hs with
  | nil s => exact absurd he h.worldOf_ne
  | @cons s m s' i is head tail ih =>
      have hp' := placed_of_step hp head
      obtain ⟨next, ha, hm⟩ := step_eq_ok_iff.mp head
      by_cases hend : i.operation = .endWasmModule
      · exact ⟨[], i, is, s, m, rfl, .nil s, head, tail, by simp, h.blocks_eq ha.position hend,
          hend⟩
      · have hin : m.scopes.InModule module around := by
          rw [hm]
          exact h.apply hp ha.position hend
        obtain ⟨inside, last, after, a, b, rfl, hin', hlast, hafter, hopen, hb, hop⟩ :=
          ih hp' hin he
        refine ⟨i :: inside, last, after, a, b, rfl, .cons head hin', hlast, hafter, ?_, hb, hop⟩
        intro j hj
        rcases List.mem_cons.mp hj with rfl | hj
        · exact hend
        · exact hopen j hj

/-- What opens no block leads to where its outputs belong to. -/
lemma worldOf_of_not_isBlockStart (hp : s.scopes.Placed) (hs : s.step i = .ok s')
    (hb : i.operation.isBlockStart = false) :
    OpenBlock.worldOf s'.scopes.blocks = i.operation.site := by
  obtain ⟨next, ha, rfl⟩ := step_eq_ok_iff.mp hs
  rw [ScopeState.apply_of_not_isBlockStart hb, hp.worldOf_declared ha.position]

/-- In the script stand the operations of the script. -/
lemma worldOf_of_step (hp : s.scopes.Placed) (hs : s.step i = .ok s')
    (hw : OpenBlock.worldOf s.scopes.blocks = .script) (hne : i.operation ≠ .beginWasmModule) :
    i.operation.home = .script ∧ OpenBlock.worldOf s'.scopes.blocks = .script := by
  obtain ⟨next, ha, he⟩ := step_eq_ok_iff.mp hs
  have hhome := (hp.worldOf_eq_home ha.position).symm.trans hw
  refine ⟨hhome, ?_⟩
  cases hb : i.operation.isBlockStart with
  | true =>
      rw [he, ScopeState.apply_of_isBlockStart hb, ScopeState.blocks_enter, OpenBlock.worldOf,
        ScopeState.kind_openedBlock (ScopeState.check_eq_ok_iff.mp ha.position).1]
      rw [Operation.home_of_isBlockStart hb] at hhome
      cases hop : i.operation <;> rw [hop] at hhome hb hne <;>
        first | rfl | (cases hb; done) | (cases hhome; done) | exact absurd rfl hne
  | false =>
      rw [worldOf_of_not_isBlockStart hp hs hb, Operation.site]
      split
      · rename_i hend
        rw [Operation.home_of_isBlockEnd hend] at hhome
        revert hhome
        cases i.operation.kind <;> simp [BlockKind.inside, BlockKind.outside]
      · exact hhome

/-- **Accepted instructions of the script** are operations of the script and modules. -/
theorem Steps.exists_script (hs : Steps s is s') (hp : s.scopes.Placed)
    (hw : OpenBlock.worldOf s.scopes.blocks = .script)
    (hw' : OpenBlock.worldOf s'.scopes.blocks = .script) : ∃ ms, Script s is ms s' := by
  induction hl : is.length using Nat.strong_induction_on generalizing s is with
  | _ n ih =>
    cases hs with
    | nil => exact ⟨[], .nil _⟩
    | @cons _ m _ i is head tail =>
        have hp' := placed_of_step hp head
        by_cases hop : i.operation = .beginWasmModule
        · obtain ⟨next, ha, hm⟩ := step_eq_ok_iff.mp head
          have hmb : m.scopes.blocks = ⟨.wasmModule, false, none⟩ :: s.scopes.blocks := by
            rw [hm, ScopeState.blocks_apply, ScopeState.opened, ScopeState.closed?, hop]
            rfl
          obtain ⟨body, last, after, a, b, rfl, hbody, hlast, hafter, hne, hab, hcl⟩ :=
            tail.exists_module hp' ⟨⟨[], hmb, by simp⟩, rfl⟩ hw'
          obtain ⟨fs, hfs⟩ := hbody.exists_body hp' rfl hmb hab hne
          have hpa := hbody.placed hp'
          have hwb : OpenBlock.worldOf b.scopes.blocks = .script := by
            rw [worldOf_of_not_isBlockStart hpa hlast (by rw [hcl]; rfl), hcl]
            rfl
          have hlen : after.length < n := by
            rw [← hl]
            simp only [List.length_cons, List.length_append]
            omega
          obtain ⟨ms, hms⟩ := ih _ hlen hafter (placed_of_step hpa hlast) hwb rfl
          have hrun := Script.module ⟨i, body, last, fs, s, m, a, b, hop, hcl, head, hfs, hlast⟩ hms
          rw [ModuleRun.instructions, List.cons_append, List.append_assoc] at hrun
          exact ⟨_, hrun⟩
        · obtain ⟨hhome, hwm⟩ := worldOf_of_step hp head hw hop
          obtain ⟨ms, hms⟩ := ih _ (by rw [← hl]; simp) tail hp' hwm rfl
          exact ⟨ms, .script hhome hop head hms⟩

end Validator

end EngineFuzz
