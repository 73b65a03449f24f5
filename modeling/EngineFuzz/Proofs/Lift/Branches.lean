import Mathlib
import EngineFuzz.Proofs.Lift.CallGraph
import EngineFuzz.Proofs.Lift.ControlFrames

/-!
# Branches and their labels

A label is resolved into a branch depth by its place among the labels of the open blocks.  At every
position of an accepted function this depth leads to the frame of code that the block with the label
opened.

* `Validator.Script.exists_function`: where a function of a program lies among its modules.
* `Lowering.Resolves`: what holds of the labels and branches at a position of a function.
* `Program.branches_reach`: all positions of all functions of an accepted program.
-/

namespace EngineFuzz

/-! ### Where functions lie -/

/-- Behind the first instruction of a function stand operations of functions. -/
lemma FunctionRun.home_of_mem (f : FunctionRun) (hp : f.front.scopes.Placed) {i : Instruction}
    (hi : i ∈ f.inside ++ [f.last]) : i.operation.home = .function := by
  rcases List.mem_append.mp hi with hi | hi
  · exact (f.steps_inside.exists_inFunction (f.placed_opened hp) f.inFunction_opened
      f.open_inside).2 i hi
  · rw [List.mem_singleton.mp hi, f.last_operation]
    rfl

namespace Validator

variable {s s' : Validator} {is before rest : List Instruction} {i : Instruction}
  {signature : FunctionSignature}

/-- What begins a function in the body of a module begins one of the functions of the body. -/
lemma Body.exists_function {fs : List FunctionRun} (h : Body s is fs s') (hp : s.scopes.Placed)
    (his : is = before ++ i :: rest) (hi : i.operation = .beginWasmFunction signature) :
    ∃ (number : Nat) (f : FunctionRun) (after : List Instruction), fs[number]? = some f ∧
      Steps s before f.front ∧ i :: rest = f.instructions ++ after := by
  induction h generalizing before with
  | nil s => exact absurd his (by simp)
  | @entity s m s' j is fs declares open_ head tail ih =>
      cases before with
      | nil =>
          obtain ⟨rfl, -⟩ := List.cons.inj his
          rw [hi] at declares
          exact absurd declares (by simp [Operation.isDefinition, Operation.isImport])
      | cons k before =>
          obtain ⟨rfl, htail⟩ := List.cons.inj his
          obtain ⟨number, f, after, hf, hsteps, hafter⟩ := ih (placed_of_step hp head) htail
          exact ⟨number, f, after, hf, .cons head hsteps, hafter⟩
  | @function s' is fs g tail ih =>
      rcases exists_of_append_eq_append_cons his with ⟨mid, rfl, hmid⟩ | ⟨mid, hg, rfl⟩
      · obtain ⟨number, f, after, hf, hsteps, hafter⟩ := ih (g.steps.placed hp) hmid
        exact ⟨number + 1, f, after, hf, steps_append_iff.mpr ⟨_, g.steps, hsteps⟩, hafter⟩
      · cases before with
        | nil => exact ⟨0, g, is, rfl, .nil _, by rw [hg]; rfl⟩
        | cons k before =>
            -- inside of a function no other function begins
            obtain ⟨-, hmid⟩ := List.cons.inj (show g.first :: (g.inside ++ [g.last]) = _ from hg)
            have hhome := g.home_of_mem hp (i := i) (by rw [hmid]; simp)
            rw [hi] at hhome
            cases (show World.module = .function from hhome)

/-- **What begins a function in a script** begins one of the functions of its modules.  The module
is as many modules behind the first one as there are beginnings of modules in front of it. -/
theorem Script.exists_function {ms : List ModuleRun} (h : Script s is ms s')
    (hp : s.scopes.Placed) (start : Nat) (his : is = before ++ i :: rest)
    (hi : i.operation = .beginWasmFunction signature) :
    ∃ (k first number : Nat) (m : ModuleRun) (f : FunctionRun) (early late : List Instruction),
      ms[k]? = some m ∧ (is.findIdxs Instruction.beginsModule start)[k]? = some first ∧
        m.functions[number]? = some f ∧ Steps s before f.front ∧
        m.body = early ++ (f.instructions ++ late) ∧
        start + before.length = first + 1 + early.length ∧
        ∃ after, i :: rest = f.instructions ++ after := by
  induction h generalizing before start with
  | nil s => exact absurd his (by simp)
  | @script s a s' j is ms home other head tail ih =>
      cases before with
      | nil =>
          obtain ⟨rfl, -⟩ := List.cons.inj his
          rw [hi] at home
          cases (show World.module = .script from home)
      | cons k before =>
          obtain ⟨rfl, htail⟩ := List.cons.inj his
          obtain ⟨k, first, number, m, f, early, late, hm, hfirst, hf, hsteps, hbody, hplace,
            hafter⟩ := ih (placed_of_step hp head) (start + 1) htail
          refine ⟨k, first, number, m, f, early, late, hm, ?_, hf, .cons head hsteps, hbody, ?_,
            hafter⟩
          · rw [List.findIdxs_cons, if_neg (by simpa [Instruction.beginsModule] using other)]
            exact hfirst
          · rw [List.length_cons]
            omega
  | @module s' is ms n tail ih =>
      rcases exists_of_append_eq_append_cons his with ⟨mid, rfl, hmid⟩ | ⟨mid, hn, rfl⟩
      · obtain ⟨k, first, number, m, f, early, late, hm, hfirst, hf, hsteps, hbody, hplace,
          hafter⟩ := ih (n.steps.placed hp) (start + n.instructions.length) hmid
        refine ⟨k + 1, first, number, m, f, early, late, hm, ?_, hf,
          steps_append_iff.mpr ⟨_, n.steps, hsteps⟩, hbody, ?_, hafter⟩
        · rw [List.findIdxs_append, ModuleRun.findIdxs_beginsModule hp]
          exact hfirst
        · rw [List.length_append]
          omega
      · cases before with
        | nil =>
            -- a module begins with an instruction of its own
            obtain ⟨rfl, -⟩ := List.cons.inj (show n.first :: (n.body ++ [n.last]) = _ from hn)
            cases n.first_operation.symm.trans hi
        | cons k before =>
            obtain ⟨rfl, htail⟩ := List.cons.inj (show n.first :: (n.body ++ [n.last]) = _ from hn)
            rcases exists_of_append_eq_append_cons htail with ⟨mid', rfl, hlast⟩ | ⟨late, hb, rfl⟩
            · have hmem : i ∈ [n.last] := by
                rw [hlast]
                simp
              rw [List.mem_singleton.mp hmem, n.last_operation] at hi
              cases hi
            · obtain ⟨number, f, after, hf, hsteps, hafter⟩ :=
                n.passes.exists_function (placed_of_step hp n.step_first) hb hi
              refine ⟨0, start, number, n, f, before, after, rfl, ?_, hf, .cons n.step_first hsteps,
                by rw [hb, hafter], ?_, after ++ ([n.last] ++ is), ?_⟩
              · rw [List.findIdxs_append, ModuleRun.findIdxs_beginsModule hp]
                rfl
              · rw [List.length_cons]
                omega
              · rw [← List.append_assoc, ← hafter]
                simp

end Validator

/-- A function of a program and a function that the validator goes through at the same place are the
same. -/
lemma FunctionSpan.eq_of_instructions {p : Program} (f : FunctionSpan p) {g : FunctionRun}
    {after : List Instruction}
    (h : f.first :: (f.inside ++ f.last :: f.after) = g.instructions ++ after) :
    f.first = g.first ∧ f.inside = g.inside ∧ f.last = g.last ∧ f.opener = g.opener := by
  obtain ⟨hfirst, hrest⟩ := List.cons.inj
    (show f.first :: (f.inside ++ f.last :: f.after) =
      g.first :: (g.inside ++ [g.last] ++ after) from h)
  rw [List.append_assoc] at hrest
  have hf : LoweringContext.spanFunction (f.inside ++ f.last :: f.after) =
      some (f.inside, f.last, f.after) :=
    LoweringContext.spanFunction_eq f.open_inside (by rw [f.last_operation]; rfl)
  have hg : LoweringContext.spanFunction (g.inside ++ g.last :: after) =
      some (g.inside, g.last, after) :=
    LoweringContext.spanFunction_eq g.open_inside (by rw [g.last_operation]; rfl)
  rw [hrest] at hf
  obtain ⟨hinside, hbehind⟩ := Prod.mk.inj (Option.some.inj (hf.symm.trans hg))
  obtain ⟨hlast, -⟩ := Prod.mk.inj hbehind
  refine ⟨hfirst, hinside, hlast, ?_⟩
  have hop := f.first_operation
  rw [hfirst, g.first_operation] at hop
  exact (Operation.beginWasmFunction.inj hop).symm

/-! ### One position -/

/-- What an operation that branches to its first operand is lowered to, given the depth. -/
def Operation.branch? : Operation → Option (Nat → Instr)
  | wasmBranch => some .br
  | wasmBranchIf => some .brIf
  | _ => none

namespace Lowering

variable {context : LoweringContext} {types : List WasmType} {function : OpenBlock}
  {around : List OpenBlock} {p m : Point} {i : Instruction} {target : Instr}

/-- At a position of a function, behind the instructions `is` and in front of `rest`, the labels
lead to the frames that the blocks with these labels opened. -/
structure Resolves (context : LoweringContext) (params : List Variable)
    (is rest : List Instruction) (p : Point) (frames : List ControlFrame) : Prop
    extends Aligned context params is p frames where
  /-- There are as many labels as frames, and no label is there twice. -/
  count : p.labels.length = frames.length
  distinct : p.labels.Nodup
  /-- The depth of a label in scope counts the frames inside the one of its block. -/
  depth : ∀ v, p.state.scopes.isVisible v = true → p.state.typer.typeOf v = .label →
    ∃ depth n frame, p.lowering.depthOf v = .ok depth ∧ (openBlocks is)[depth]? = some n ∧
      HasLabel is n v ∧ frames[depth]? = some frame ∧ OpensFrame context params is n frame
  /-- A branch that comes next is to the depth of a label in scope. -/
  branch : ∀ i make, rest.head? = some i → i.operation.branch? = some make → ∃ v depth l,
    i.inputs.head? = some v ∧ p.state.scopes.isVisible v = true ∧
      p.state.typer.typeOf v = .label ∧ p.lowering.depthOf v = .ok depth ∧
      instruction context p.lowering i = .ok l ∧ l.code.head? = some (make depth)

/-- A branch is lowered to one with the depth of its label. -/
lemma Passes.exists_depth (hi : Passes context p i target m) {make : Nat → Instr}
    (hb : i.operation.branch? = some make) : ∃ v depth, i.inputs.head? = some v ∧
      p.state.scopes.isVisible v = true ∧ p.state.typer.typeOf v = .label ∧
      p.lowering.depthOf v = .ok depth ∧ m.lowering.code.head? = some (make depth) := by
  obtain ⟨next, ha, -⟩ := Validator.step_eq_ok_iff.mp hi.step
  have hcode := hi.code_eq
  have hin := ha.inputs
  have ho := (Instruction.hasConsistentArity_iff.mp ha.arity).2.1
  have ht := hi.counterpart
  have hvisible := ha.visible
  clear hi ha
  obtain ⟨op, inputs, outputs, innerOutputs⟩ := i
  -- the label is the first operand, and nothing follows the branch
  have hlast : ∀ v rest, inputs = v :: rest → p.state.typer.typeOf v = .label →
      outputs = [] → ((inputs.head?.bind p.lowering.depth?).map make) = some target →
        ∃ v depth, inputs.head? = some v ∧ p.state.scopes.isVisible v = true ∧
          p.state.typer.typeOf v = .label ∧ p.lowering.depthOf v = .ok depth ∧
          m.lowering.code.head? = some (make depth) := by
    rintro v rest rfl htype rfl hmake
    obtain ⟨depth, hd, rfl⟩ := Option.map_eq_some_iff.mp hmake
    refine ⟨v, depth, rfl, hvisible v (List.mem_cons_self ..), htype, depthOf_eq hd, ?_⟩
    rw [hcode, codeOf, pops_eq_nil rfl]
    simp
  cases op with
  | wasmBranch =>
      obtain rfl := Option.some.inj hb
      obtain ⟨v, rfl, htype⟩ := List.map_eq_singleton_iff.mp (Operation.accepts_branch hin)
      exact hlast v [] rfl htype (List.length_eq_zero_iff.mp ho) ht
  | wasmBranchIf =>
      obtain rfl := Option.some.inj hb
      obtain ⟨v, w, rfl, htype, -⟩ := map_eq_pair_iff.mp (Operation.accepts_branchIf hin)
      exact hlast v [w] rfl htype (List.length_eq_zero_iff.mp ho) ht
  | _ => cases hb

end Lowering

/-! ### One function -/

namespace FunctionRun

variable {context : LoweringContext} {f : FunctionRun} {code : List Instr} {l : Lowering}

/-- At the beginning of a function nothing is open. -/
lemma aligned_entry (f : FunctionRun) (context : LoweringContext) :
    Lowering.Aligned context f.first.innerOutputs [] f.entry [] :=
  ⟨rfl, rfl, .nil, .nil, .nil, .nil⟩

/-- **Labels are resolved** at every position of a function. -/
theorem exists_resolves
    (h : Lowering.Trace context f.opener.params (ScopeState.functionBlock f.opener)
      f.front.scopes.blocks f.entry f.inside code ⟨f.closed, [], l⟩)
    {done rest : List Instruction} (hsplit : f.inside = done ++ rest) :
    ∃ q frames, Validator.Steps f.opened done q.state ∧
      q.state.scopes.blocks =
        q.inner ++ ScopeState.functionBlock f.opener :: f.front.scopes.blocks ∧
      Lowering.Resolves context f.first.innerOutputs done rest q frames := by
  rw [hsplit] at h
  obtain ⟨q, before, behind, hbefore, hbehind⟩ := h.exists_middle
  obtain ⟨frames, ha⟩ := hbefore.exists_aligned (f.aligned_entry context)
  rw [List.nil_append] at ha
  have hfits := hbefore.fits_end
  refine ⟨q, frames, hbefore.steps, hfits.follows.inside.blocks, ha, ?_, ?_, ?_, ?_⟩
  · exact ha.labels.length_eq.symm.trans ha.opened.length_eq
  · exact hfits.follows.nodup_labels hfits.sound.fits.tracks
  · exact fun v hv ht => ha.exists_frame hfits hv ht
  · intro i make hi hb
    obtain ⟨rest, rfl⟩ := List.head?_eq_some_iff.mp hi
    cases hbehind with
    | @cons p m p' i target is code fits head tail =>
        obtain ⟨v, depth, hv, hvisible, htype, hd, hcode⟩ := head.exists_depth hb
        exact ⟨v, depth, _, hv, hvisible, htype, hd, head.lowered, hcode⟩

/-- At the end of a function, behind its results, no frame is open. -/
lemma controlFrames?_results
    (h : Lowering.Trace context f.opener.params (ScopeState.functionBlock f.opener)
      f.front.scopes.blocks f.entry f.inside code ⟨f.closed, [], l⟩) (vs : List Variable) :
    Instr.controlFrames? (code ++ l.pushes vs) = some [] := by
  obtain ⟨frames, ha⟩ := h.exists_aligned (f.aligned_entry context)
  obtain rfl := List.forall₂_nil_left_iff.mp ha.openers
  have hcode : l.code = code.reverse := h.code_eq.trans (List.append_nil _)
  have hframes := ha.code
  rw [show l.code.reverse = code by rw [hcode, List.reverse_reverse]] at hframes
  rw [Instr.controlFrames?_append_of_isFlat Lowering.isFlat_pushes, hframes]

/-- The body of a function closes no frame but its own with its last instruction. -/
lemma LowersTo.exists_function {body : FunctionBody} (h : f.LowersTo context body) :
    ∃ lowered before, Lowering.function context f.first.innerOutputs f.inside f.last.inputs =
        .ok lowered ∧ body = ⟨lowered.localTypes.reverse, lowered.code.reverse⟩ ∧
      lowered.code = .blockEnd :: before ∧ Instr.controlFrames? before.reverse = some [] := by
  obtain ⟨code, l, htrace, rfl⟩ := h
  obtain ⟨lowered, hfunction, hbody⟩ := bind_eq_ok_iff.mp (body_eq htrace)
  have hbody := pure_eq_ok_iff.mp hbody
  have hcode : lowered.code.reverse = code ++ (l.pushes f.last.inputs ++ [.blockEnd]) :=
    congrArg FunctionBody.code hbody
  refine ⟨lowered, (code ++ l.pushes f.last.inputs).reverse, hfunction, hbody.symm, ?_, ?_⟩
  · rw [← List.reverse_inj, hcode]
    simp
  · rw [List.reverse_reverse]
    exact controlFrames?_results htrace _

end FunctionRun

/-! ### All functions -/

/-- **Branches reach the block that defined their label.**  Each function of an accepted program is
lowered to one of the bodies of the module around it.  At every position of the function the labels
of the lowering are the inner outputs of its open blocks, there are as many frames open in the code
so far, and the depth of a label in scope counts the frames inside the one that was opened by the
instruction with this label; where the last instruction ends the body, no frame is open. -/
theorem Program.branches_reach {p : Program} {e : Environment} (h : p.validate e = .ok ())
    (he : e.IsScriptTyped) (hn : p.NumbersSmall) (f : FunctionSpan p) :
    ∃ (encoded : List EncodedModule) (c : EncodedModule) (layout : ModuleLayout) (number : Nat)
      (lowered : Lowering) (before : List Instr),
      p.encodeModules e = .ok encoded ∧ c ∈ encoded ∧
      (c.first < f.before.length ∧ f.before.length + f.inside.length + 1 < c.last) ∧
      (Typer.behind e (p.instructions.take c.last)).currentModule? = some layout ∧
      (definitionsIn ((p.instructions.take c.last).drop (c.first + 1)) .function)[number]? =
        some f.last ∧
      Lowering.function ⟨Typer.behind e p.instructions, layout⟩ f.first.innerOutputs f.inside
        f.last.inputs = .ok lowered ∧
      c.body.bodies[number]? = some ⟨lowered.localTypes.reverse, lowered.code.reverse⟩ ∧
      (lowered.code = .blockEnd :: before ∧ Instr.controlFrames? before.reverse = some []) ∧
      ∀ done rest, f.inside = done ++ rest → ∃ q frames,
        Validator.Steps (.start e) (f.before ++ f.first :: done) q.state ∧
        (∃ around, q.state.scopes.blocks =
          q.inner ++ ScopeState.functionBlock f.opener :: around) ∧
        Lowering.Resolves ⟨Typer.behind e p.instructions, layout⟩ f.first.innerOutputs done rest q
          frames := by
  obtain ⟨s, ms, encoded, hms, henc, hall, hfirst, -⟩ := exists_modules h he hn
  -- the function among those of the modules
  obtain ⟨k, first, number, m, g, early, late, hm, hat, hg, hsteps, hbody, hplace, after, hafter⟩ :=
    hms.exists_function Validator.placed_start 0 f.instructions_eq f.first_operation
  obtain ⟨hgf, hgi, hgl, hgo⟩ := f.eq_of_instructions hafter
  obtain ⟨c, hc, layout, hmc⟩ := exists_getElem?_of_forall₂ hall hm
  obtain ⟨body, hbodies, hlowers⟩ := exists_getElem?_of_forall₂ hmc.lowers.bodies hg
  obtain ⟨lowered, before, hfunction, rfl, hend⟩ := hlowers.exists_function
  obtain ⟨code, l, htrace, -⟩ := hlowers
  have hbehind : Typer.behind e p.instructions = s.typer := hms.steps.typer_eq.symm
  have hcfirst : c.first = first := by
    rw [← hfirst, List.getElem?_map, hc] at hat
    exact Option.some.inj hat
  rw [hbehind, hgf, hgi, hgl, hgo]
  refine ⟨encoded, c, layout, number, lowered, before, henc, List.mem_of_getElem? hc,
    ⟨by omega, ?_⟩, ?_, ?_, hfunction, hbodies, hend, fun done rest hsplit => ?_⟩
  · have hlength := congrArg List.length (hmc.inside.trans hbody)
    have hlt := (List.getElem?_eq_some_iff.mp hmc.last).1
    simp only [FunctionRun.instructions, List.length_drop, List.length_append, List.length_cons,
      List.length_take, List.length_nil] at hlength
    omega
  · rw [show Typer.behind e (p.instructions.take c.last) = m.closed.typer from
      hmc.passed.typer_eq.symm]
    exact hmc.lowers.current
  · rw [hmc.inside, definitionsIn_function, m.passes.filter_endsFunction, List.getElem?_map, hg,
      Option.map_some]
  · obtain ⟨q, frames, hdone, hblocks, hresolves⟩ := FunctionRun.exists_resolves htrace hsplit
    exact ⟨q, frames, Validator.steps_append_iff.mpr ⟨g.front, hsteps, .cons g.step_first hdone⟩,
      ⟨_, hblocks⟩, hresolves⟩

/-- A program with a function of one conditional block in another one; the second part of the inner
block branches to the outer one. -/
def branching : Program := .ofInstructions [
  ⟨.beginWasmModule, [], [], []⟩,
  ⟨.beginWasmFunction ⟨[.i32], []⟩, [], [], [⟨0⟩]⟩,
  ⟨.wasmBeginBlock, [], [], [⟨1⟩]⟩,
  ⟨.wasmBeginIf, [⟨0⟩], [], [⟨2⟩]⟩,
  ⟨.wasmBranchIf, [⟨2⟩, ⟨0⟩], [], []⟩,
  ⟨.wasmBeginElse, [], [], [⟨3⟩]⟩,
  ⟨.wasmBranch, [⟨1⟩], [], []⟩,
  ⟨.wasmEndIf, [], [], []⟩,
  ⟨.wasmEndBlock, [], [], []⟩,
  ⟨.endWasmFunction ⟨[.i32], []⟩, [], [⟨4⟩], []⟩,
  ⟨.endWasmModule, [], [⟨5⟩, ⟨6⟩], []⟩]

lemma validate_branching (e : Environment) : branching.validate e = .ok () := by
  rw [Program.validate_eq_ok_iff]
  refine ⟨_, .cons (Validator.step_mk rfl (by simp) (by decide) rfl rfl rfl)
    (.cons (Validator.step_mk rfl (by simp) (by decide) rfl rfl rfl)
    (.cons (Validator.step_mk rfl (by simp) (by decide) rfl rfl rfl)
    (.cons (Validator.step_mk rfl ?_ (by decide) ?_ rfl rfl)
    (.cons (Validator.step_mk rfl ?_ (by decide) ?_ rfl rfl)
    (.cons (Validator.step_mk rfl (by simp) (by decide) rfl rfl rfl)
    (.cons (Validator.step_mk rfl ?_ (by decide) ?_ rfl rfl)
    (.cons (Validator.step_mk rfl (by simp) (by decide) rfl rfl rfl)
    (.cons (Validator.step_mk rfl (by simp) (by decide) rfl rfl rfl)
    (.cons (Validator.step_mk rfl (by simp) (by decide) rfl rfl rfl)
    (.cons (Validator.step_mk rfl (by simp) (by decide) rfl rfl ?_)
    (.nil _))))))))))), rfl⟩
  · intro v hv
    rw [List.mem_singleton.mp hv]
    exact ScopeState.isVisible_apply_of_isVisible
      (ScopeState.isVisible_apply_of_mem (by decide) (by decide)) rfl
  · rw [List.map_cons, Typer.typeOf_apply_of_not_mem (by decide),
      Typer.typeOf_apply_of_innerOutputs rfl (by decide) (by decide) rfl rfl]
    rfl
  · intro v hv
    rcases List.mem_pair.mp hv with rfl | rfl
    · exact ScopeState.isVisible_apply_of_mem (by decide) (by decide)
    · iterate 2 refine ScopeState.isVisible_apply_of_isVisible ?_ rfl
      exact ScopeState.isVisible_apply_of_mem (by decide) (by decide)
  · rw [List.map_cons, List.map_cons,
      Typer.typeOf_apply_of_innerOutputs (v := ⟨2⟩) rfl (by decide) (by decide) rfl rfl,
      Typer.typeOf_apply_of_not_mem (by decide), Typer.typeOf_apply_of_not_mem (by decide),
      Typer.typeOf_apply_of_innerOutputs rfl (by decide) (by decide) rfl rfl]
    rfl
  · intro v hv
    rw [List.mem_singleton.mp hv]
    -- the label is from outside of the part that ends
    rw [ScopeState.apply_of_isBlockStart rfl, ScopeState.isVisible_enter, ScopeState.declared,
      ScopeState.isVisible_declareAll, ScopeState.outside_of_isBlockEnd rfl]
    refine .inr (.inr (ScopeState.isVisible_leave.mpr ⟨by decide, ?_⟩))
    iterate 2 refine ScopeState.isVisible_apply_of_isVisible ?_ rfl
    exact ScopeState.isVisible_apply_of_mem (by decide) (by decide)
  · rw [List.map_cons, Typer.typeOf_apply_of_not_mem (by decide),
      Typer.typeOf_apply_of_not_mem (by decide), Typer.typeOf_apply_of_not_mem (by decide),
      Typer.typeOf_apply_of_innerOutputs rfl (by decide) (by decide) rfl rfl]
    rfl
  · unfold Validator.checkImports
    rw [Typer.currentModule?]
    repeat rw [Typer.modules_apply rfl (by decide) (by decide) (by decide)]
    rw [Typer.modules_apply_beginWasmModule rfl]
    rfl

/-- The function of the program. -/
def branchingSpan : FunctionSpan branching where
  before := [⟨.beginWasmModule, [], [], []⟩]
  first := ⟨.beginWasmFunction ⟨[.i32], []⟩, [], [], [⟨0⟩]⟩
  inside := [
    ⟨.wasmBeginBlock, [], [], [⟨1⟩]⟩,
    ⟨.wasmBeginIf, [⟨0⟩], [], [⟨2⟩]⟩,
    ⟨.wasmBranchIf, [⟨2⟩, ⟨0⟩], [], []⟩,
    ⟨.wasmBeginElse, [], [], [⟨3⟩]⟩,
    ⟨.wasmBranch, [⟨1⟩], [], []⟩,
    ⟨.wasmEndIf, [], [], []⟩,
    ⟨.wasmEndBlock, [], [], []⟩]
  last := ⟨.endWasmFunction ⟨[.i32], []⟩, [], [⟨4⟩], []⟩
  after := [⟨.endWasmModule, [], [⟨5⟩, ⟨6⟩], []⟩]
  opener := ⟨[.i32], []⟩
  closer := ⟨[.i32], []⟩
  first_operation := rfl
  last_operation := rfl
  open_inside := by decide
  instructions_eq := rfl

/-- In the second part of the inner block two frames are open, and the branch to the outer block
goes out of the one that the second part belongs to. -/
theorem branches_reach_branching : branching.validate .script = .ok () ∧ branching.NumbersSmall ∧
    ∃ (context : LoweringContext) (q : Lowering.Point) (frames : List ControlFrame),
      Lowering.Resolves context [⟨0⟩] (branchingSpan.inside.take 4) (branchingSpan.inside.drop 4) q
        frames ∧
      q.labels = [⟨3⟩, ⟨1⟩] ∧ frames.map (·.opener) = [.elseThen, .block] ∧
      ∃ l, Lowering.instruction context q.lowering ⟨.wasmBranch, [⟨1⟩], [], []⟩ = .ok l ∧
        l.code.head? = some (.br 1) := by
  refine ⟨validate_branching .script, by decide, ?_⟩
  obtain ⟨-, -, layout, -, -, -, -, -, -, -, -, -, -, -, hall⟩ :=
    Program.branches_reach (validate_branching .script) Environment.isScriptTyped_script (by decide)
      branchingSpan
  obtain ⟨q, frames, -, -, hq⟩ := hall (branchingSpan.inside.take 4) (branchingSpan.inside.drop 4)
    (List.take_append_drop 4 _).symm
  have hopen : openBlocks (branchingSpan.inside.take 4) = [3, 0] := by decide
  have hlabels : q.labels = [⟨3⟩, ⟨1⟩] := by
    have h := hopen ▸ hq.labels
    generalize q.labels = labels at h
    obtain - | ⟨⟨i, hi, hv⟩, - | ⟨⟨j, hj, hw⟩, - | -⟩⟩ := h
    obtain rfl := Option.some.inj hi
    obtain rfl := Option.some.inj hj
    rw [← List.singleton_inj.mp hv, ← List.singleton_inj.mp hw]
  refine ⟨_, q, frames, hq, hlabels, ?_, ?_⟩
  · have h := hopen ▸ hq.opened
    obtain - | ⟨⟨i, -, -, hi, hv, -⟩, - | ⟨⟨j, -, -, hj, hw, -⟩, - | -⟩⟩ := h
    obtain rfl := Option.some.inj hi
    obtain rfl := Option.some.inj hj
    rw [List.map_cons, List.map_singleton, ← Option.some.inj hv, ← Option.some.inj hw]
  · obtain ⟨v, depth, l, hv, -, -, hdepth, hl, hcode⟩ := hq.branch _ _ rfl rfl
    obtain rfl := Option.some.inj hv
    have hone : q.lowering.depthOf ⟨1⟩ = .ok 1 := by
      refine Lowering.depthOf_eq ?_
      rw [Lowering.depth?, show q.lowering.labels = _ from hlabels]
      rfl
    rw [Except.ok.inj (hone.symm.trans hdepth)]
    exact ⟨l, hl, hcode⟩

end EngineFuzz
