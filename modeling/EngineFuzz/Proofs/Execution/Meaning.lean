import Mathlib
import EngineFuzz.Proofs.Execution.Simulation

/-!
# The machine does what functions mean

The functions of an accepted program have a meaning that does not refer to their code.  The machine,
which runs their code, comes to the same results, traps and stores, if it has fuel and stack enough.

* `Direct.State.Mirrors.reaches_step`, `Direct.State.exists_reaches_run`: one step of the functions,
  and a number of steps.
* `MachineSetup.Agrees`: what an invocation comes to, and what the functions come to.
* `Program.functions_agree`: all functions of all modules of an accepted program.
-/

namespace EngineFuzz

open Lowering

variable {context : LoweringContext} {setup : MachineSetup} {body : List Instruction}

namespace Direct.State

/-! ### Steps -/

/-- How many steps the machine takes at most for a step of the functions. -/
def cost (s : State) : Nat :=
  1 + pending s.callers +
    match s.active.rest with
    | [] => s.active.function.results.length
    | i :: _ => i.values.length + i.outputs.length

/-- **A step of the functions** is some steps of the machine. -/
theorem Mirrors.reaches_step {s : State} {m : Machine} (h : s.Mirrors context m)
    (hs : setup.Runs context body) (hfuel : s.cost + 2 ≤ m.fuel)
    (hroom : setup.frameBound ≤ m.active.room) :
    m.Reaches setup context 1 s.cost (Direct.step setup.host body s) := by
  obtain ⟨store, ⟨function, values, rest⟩, callers⟩ := s
  obtain ⟨store', fuel, a, as⟩ := m
  obtain ⟨hstore, hactive, hc⟩ := h
  obtain rfl : store = store' := hstore
  cases hactive with
  | @intro F p code locals labels room mirrors position =>
      obtain rfl : function = F.run.source := mirrors.function
      cases rest with
      | nil =>
          -- the end of the function
          obtain ⟨rfl, rfl⟩ := position.eq_done
          obtain ⟨next, ha, -⟩ := Validator.step_eq_ok_iff.mp F.run.step_last
          have hvalues : F.run.last.values = F.run.last.inputs := by
            rw [Instruction.values, F.run.last_operation]
            rfl
          obtain ⟨xs, hxs, hholds⟩ :=
            mirrors.keeps.exists_args position ha (by rw [F.run.last_operation]; rfl)
          rw [hvalues] at hxs hholds
          have hlen : xs.length = F.run.opener.results.length := by
            rw [← hholds.length_eq, (Instruction.hasConsistentArity_iff.mp ha.arity).1,
              F.run.last_operation, ← mirrors.wellBuilt.ends]
            rfl
          have hlabels : labels = [] := by
            have hl := mirrors.labels
            rw [LoweredFunction.labels_done] at hl
            exact List.forall₂_nil_left_iff.mp hl
          subst hlabels
          have hstep : Direct.step setup.host body ⟨store, ⟨F.run.source, values, []⟩, callers⟩ =
              (State.mk store ⟨F.run.source, values, []⟩ callers).leave xs := by
            have hresults : values.getAll? F.run.source.results = some xs := hxs
            rw [Direct.step]
            dsimp only
            rw [hresults]
          have hpush : (Machine.mk store fuel ⟨locals, [], F.ending, [],
              F.run.opener.results.length, room⟩ as).run setup F.run.last.inputs.length = _ :=
            Machine.run_pushes hholds
          rw [List.append_nil] at hpush
          have hleave : (Machine.mk store (fuel - F.run.last.inputs.length) ⟨locals, xs.reverse,
              [.blockEnd], [], F.run.opener.results.length, room⟩ as).step setup =
                (Machine.mk store (fuel - F.run.last.inputs.length) ⟨locals, xs.reverse,
                  [], [], F.run.opener.results.length, room⟩ as).leave := rfl
          rw [hstep]
          refine ((hc.reaches_leave hlen hleave).of_run hpush).mono (Nat.le_add_left ..) ?_
          rw [cost, Nat.add_comm]
          rfl
      | cons i rest =>
          obtain ⟨target, m, code, hi, rfl, hm⟩ := position.exists_passes
          obtain ⟨next, ha, -⟩ := Validator.step_eq_ok_iff.mp hi.step
          have hhome := position.fits.follows.inside.home position.fits.sound.fits.toPlaced
            ha.position
          obtain ⟨args, hargs, hholds⟩ := mirrors.keeps.exists_args position ha hhome
          have hpoised : F.Poised p i target m ⟨F.run.source, values, rest⟩ code locals labels :=
            ⟨⟨mirrors.wellBuilt, rfl, mirrors.keeps, mirrors.labels⟩, position, hi, hm⟩
          have hlen : args.length = i.operation.numValues :=
            hholds.length_eq.symm.trans hpoised.length_values
          have hstep : Direct.step setup.host body
              ⟨store, ⟨F.run.source, values, i :: rest⟩, callers⟩ =
              (State.mk store ⟨F.run.source, values, rest⟩ callers).execute setup.host body i
                args := by
            rw [Direct.step]
            dsimp only
            rw [hargs]
            rfl
          have hcode : p.lowering.codeOf i target ++ code ++ F.ending =
              p.lowering.pushes i.values ++
                (target :: (p.lowering.pops i ++ (code ++ F.ending))) := by
            simp [codeOf]
          have hpush : (Machine.mk store fuel ⟨locals, [], p.lowering.pushes i.values ++
              (target :: (p.lowering.pops i ++ (code ++ F.ending))), labels,
              F.run.opener.results.length, room⟩ as).run setup i.values.length = _ :=
            Machine.run_pushes hholds
          rw [List.append_nil] at hpush
          have hcost : cost ⟨store, ⟨F.run.source, values, i :: rest⟩, callers⟩ =
              i.values.length + (1 + i.outputs.length + pending callers) := by
            rw [cost]
            dsimp only
            omega
          rw [hcost] at hfuel
          rw [hstep, hcode, hcost]
          have hleft : 2 < fuel - i.values.length := by
            dsimp only at hfuel
            omega
          exact ((hpoised.reaches_execute hs hc hlen hleft hroom).of_run hpush).mono
            (Nat.le_add_left ..) (Nat.le_refl _)

/-- **A number of steps of the functions** is some steps of the machine, as many at least, if there
is fuel and stack enough. -/
theorem exists_reaches_run {callees : Array EngineFuzz.Callee} {host : Host}
    (hs : ∀ stackSize, MachineSetup.Runs ⟨callees, stackSize, host⟩ context body) (steps : Nat)
    (s : State) :
    ∃ enough, ∀ (stackSize : Nat) (m : Machine), s.Mirrors context m → enough ≤ m.fuel →
      (∀ a ∈ m.active :: m.callers, enough ≤ a.room) →
        m.Reaches ⟨callees, stackSize, host⟩ context steps enough
          (Direct.run host body steps s) := by
  let frames := MachineSetup.frameBound ⟨callees, 0, host⟩
  induction steps generalizing s with
  | zero => exact ⟨0, fun _ m hm _ _ => Machine.reaches_of_mirrors hm⟩
  | succ steps ih =>
      -- what is enough for the first step
      have hfirst : ∀ (stackSize : Nat) (m : Machine), s.Mirrors context m →
          s.cost + 2 + frames ≤ m.fuel →
          (∀ a ∈ m.active :: m.callers, s.cost + 2 + frames ≤ a.room) →
            m.Reaches ⟨callees, stackSize, host⟩ context 1 s.cost (Direct.step host body s) := by
        intro stackSize m hm hfuel hroom
        have := hroom m.active (List.mem_cons_self ..)
        refine hm.reaches_step (hs stackSize) (by omega) ?_
        change frames ≤ m.active.room
        omega
      cases hstep : Direct.step host body s with
      | running s' =>
          obtain ⟨enough, henough⟩ := ih s'
          have hrun : Direct.run host body (steps + 1) s = Direct.run host body steps s' := by
            rw [Direct.run, hstep]
          refine ⟨s.cost + 2 + frames + s.cost * 2 + s.cost * frames + enough,
            fun stackSize m hm hfuel hroom => ?_⟩
          have hreach := hfirst stackSize m hm (by omega) fun a ha => by
            have := hroom a ha
            omega
          rw [hstep] at hreach
          obtain ⟨j, m', hj, hcost, hjrun, hm'⟩ := hreach
          have hused : m.Spends m' (j * 2)
              (j * MachineSetup.frameBound ⟨callees, stackSize, host⟩) :=
            Machine.spends_of_run hjrun
          have hspends : m.Spends m' (j * 2) (j * frames) := hused
          have hbound : j * frames ≤ s.cost * frames := Nat.mul_le_mul_right _ hcost
          rw [hrun]
          refine ((henough stackSize m' hm' ?_ fun a ha => ?_).of_run hjrun).mono (by omega)
            (by omega)
          · have := hspends.fuel
            omega
          · obtain ⟨b, hb, hba⟩ := hspends.room a ha
            have := hroom b hb
            omega
      | _ =>
          have hrun : Direct.run host body (steps + 1) s = Direct.step host body s := by
            rw [Direct.run, hstep]
          refine ⟨s.cost + 2 + frames, fun stackSize m hm hfuel hroom => ?_⟩
          have hreach := hfirst stackSize m hm hfuel hroom
          rw [hstep] at hrun hreach
          rw [hrun]
          obtain ⟨j, hj, hjrun⟩ := hreach
          exact ⟨j, by omega, hjrun⟩

end Direct.State

/-! ### Invocations -/

namespace MachineSetup

/-- What an invocation comes to, where so many steps of the functions come to something: the same
results, the same trap, or no end within as many steps of the machine, and the same store. -/
def Agrees (setup : MachineSetup) (fuel : Nat) (store : Store) (callee : Callee)
    (args : List MachineValue) (steps : Nat) : Direct.Progress → Prop
  | .running s => ∃ signature body frameSize, callee = .code signature body frameSize ∧
      ∃ (k : Nat) (m : Machine), steps ≤ k ∧ m.store = s.store ∧
        (Machine.mk store (fuel - 1)
          (Machine.activation signature body args (setup.stackSize - frameSize)) []).run setup k =
            .running m
  | .returned values store' => setup.invoke fuel store callee args = .returned values store'
  | .trapped kind store' => setup.invoke fuel store callee args = .trapped kind store'
  | .stuck => setup.invoke fuel store callee args = .stuck

end MachineSetup

namespace LoweredFunction

variable {F : LoweredFunction context}

/-- The machine starts where the function does. -/
lemma mirrors_start (hw : F.WellBuilt) {args : List MachineValue}
    (hl : args.length = F.run.source.params.length) (store : Store) (fuel room : Nat) :
    (Direct.State.start F.run.source args store).Mirrors context
      ⟨store, fuel, Machine.activation F.run.closer F.body args room, []⟩ := by
  have hentry : F.Mirrors F.run.entry (F.run.source.enter args)
      (args ++ F.body.locals.map MachineValue.zero).toArray [] :=
    ⟨hw, rfl, F.keeps_entry hl, .nil⟩
  have hactive := Direct.Frame.Active.intro room hentry F.at_entry
  rw [← hw.ends] at hactive
  exact ⟨rfl, hactive, .nil _⟩

/-- **The machine does what a function means.** -/
theorem exists_agrees (hw : F.WellBuilt) {callees : Array Callee} {host : Host}
    (hs : ∀ stackSize, MachineSetup.Runs ⟨callees, stackSize, host⟩ context body) (frameSize : Nat)
    {args : List MachineValue} (hl : args.length = F.run.source.params.length) (store : Store)
    (steps : Nat) : ∃ enough, ∀ fuel stackSize, enough ≤ fuel → enough ≤ stackSize →
      MachineSetup.Agrees ⟨callees, stackSize, host⟩ fuel store
        (.code F.run.closer F.body frameSize) args steps
          (Direct.run host body steps (.start F.run.source args store)) := by
  obtain ⟨enough, henough⟩ :=
    Direct.State.exists_reaches_run hs steps (.start F.run.source args store)
  refine ⟨enough + frameSize + 2, fun fuel stackSize hfuel hstack => ?_⟩
  have hreach := henough stackSize _
    (F.mirrors_start hw hl store (fuel - 1) (stackSize - frameSize)) (by dsimp only; omega)
    fun a ha => by
      rw [List.mem_singleton.mp ha]
      change enough ≤ stackSize - frameSize
      omega
  generalize hstart : Machine.mk store (fuel - 1) (Machine.activation F.run.closer F.body args
    (stackSize - frameSize)) [] = m at hreach
  have hinvoke : MachineSetup.invoke ⟨callees, stackSize, host⟩ fuel store
      (.code F.run.closer F.body frameSize) args =
        m.run ⟨callees, stackSize, host⟩
          (MachineSetup.stepBound ⟨callees, stackSize, host⟩ fuel) := by
    rw [MachineSetup.invoke]
    dsimp only
    rw [if_neg (by omega), hstart, Machine.fueled, if_neg (by rw [← hstart]; dsimp only; omega)]
  -- the machine ends within the steps that are enough
  have hend : ∀ {j : Nat} {progress : Progress}, j ≤ enough →
      m.run ⟨callees, stackSize, host⟩ j = progress → (∀ m', progress ≠ .running m') →
        MachineSetup.invoke ⟨callees, stackSize, host⟩ fuel store
          (.code F.run.closer F.body frameSize) args = progress := by
    intro j progress hj hrun hnot
    have hbound : j ≤ MachineSetup.stepBound ⟨callees, stackSize, host⟩ fuel := by
      rw [MachineSetup.stepBound]
      have : 2 * fuel + 4 ≤
          (2 * fuel + 4) * (MachineSetup.codeLength ⟨callees, stackSize, host⟩ + 2) :=
        Nat.le_mul_of_pos_right _ (Nat.succ_pos _)
      omega
    obtain ⟨k, hk⟩ := Nat.exists_eq_add_of_le hbound
    rw [hinvoke, hk, Machine.run_of_not_running fun m' => by rw [hrun]; exact hnot m', hrun]
  cases hrun : Direct.run host body steps (.start F.run.source args store) with
  | running s =>
      rw [hrun] at hreach
      obtain ⟨j, m', hj, -, hjrun, hm'⟩ := hreach
      rw [← hstart] at hjrun
      exact ⟨_, _, _, rfl, j, m', hj, hm'.store.symm, hjrun⟩
  | returned values store' | trapped kind store' | stuck =>
      rw [hrun] at hreach
      obtain ⟨j, hj, hjrun⟩ := hreach
      exact hend hj hjrun fun _ h => by cases h

end LoweredFunction

/-! ### The functions of a program -/

/-- The machine has for a function what the function means: functions of the host are themselves,
and the code of others agrees with them whatever the host does, on all arguments, in every store,
for any number of steps. -/
def Direct.Callee.AgreesWith (body : List Instruction) (callees : Array EngineFuzz.Callee) :
    Direct.Callee → EngineFuzz.Callee → Prop
  | .host name signature, callee => callee = .host name signature
  | .code f, callee => ∀ (host : Host) (args : List MachineValue) (store : Store) (steps : Nat),
      args.length = f.params.length → ∃ enough, ∀ fuel stackSize, enough ≤ fuel →
        enough ≤ stackSize →
          MachineSetup.Agrees ⟨callees, stackSize, host⟩ fuel store callee args steps
            (Direct.run host body steps (.start f args store))

/-- What the validator leaves to those who build programs, as far as it matters to the meaning of
functions. -/
structure Program.Meaningful (p : Program) : Prop where
  ends : ∀ f : FunctionSpan p, f.closer = f.opener
  results : ∀ f : FunctionSpan p, f.opener.results.length ≤ 1
  payloads : ∀ i ∈ p.instructions, i.operation.namesReferences = true

namespace Program

variable {p : Program} {e : Environment}

/-- The functions of an encoded module agree with those of its body. -/
lemma functions_agree_of_encodesTo {m : ModuleRun} {t : Typer} {layout : ModuleLayout}
    {c : EncodedModule} (h : m.EncodesTo p e t layout c)
    (hf : ∀ f ∈ m.functions, f.closer = f.opener ∧ f.opener.results.length ≤ 1)
    (hp : ∀ i ∈ m.instructions, i.operation.namesReferences = true) :
    List.Forall₂ (fun f callee => f.2.AgreesWith m.body c.body.callees.toArray callee)
      (Direct.functions m.body) c.body.callees := by
  obtain ⟨links, hfunctions, hcallees, -⟩ := h.lowers.exists_links hf hp
  rw [hfunctions]
  nth_rewrite 2 [hcallees]
  rw [List.forall₂_map_left_iff, List.forall₂_map_right_iff, List.forall₂_same]
  intro link _
  have hruns := link.runs
  change link.meaning.AgreesWith m.body c.body.callees.toArray link.callee
  generalize link.meaning = meaning at hruns
  generalize link.callee = callee at hruns
  cases hruns with
  | host name signature => rfl
  | code F wellBuilt frameSize =>
      intro host args store steps hl
      exact F.exists_agrees wellBuilt (fun stackSize => h.lowers.runs hf hp stackSize host)
        frameSize hl store steps

/-- **The functions of an accepted program mean what their code does.**  The modules of the program
are encoded, and each function in the body of a module, imported or defined, agrees with the
function of the encoded module that has the same index. -/
theorem functions_agree (h : p.validate e = .ok ()) (he : e.IsScriptTyped) (hn : p.NumbersSmall)
    (hm : p.Meaningful) : ∃ encoded, p.encodeModules e = .ok encoded ∧ ∀ c ∈ encoded,
      let body := (p.instructions.take c.last).drop (c.first + 1)
      List.Forall₂ (fun f callee => f.2.AgreesWith body c.body.callees.toArray callee)
        (Direct.functions body) c.body.callees := by
  obtain ⟨s, ms, encoded, hms, henc, hall, -, -⟩ := exists_modules h he hn
  refine ⟨encoded, henc, fun c hc => ?_⟩
  obtain ⟨m, hmem, layout, hcm⟩ : ∃ m ∈ ms, ∃ layout, m.EncodesTo p e s.typer layout c := by
    obtain ⟨k, hk, rfl⟩ := List.getElem_of_mem hc
    obtain ⟨hl, hat⟩ := List.forall₂_iff_get.mp hall
    exact ⟨ms[k], List.getElem_mem _, hat k (hl ▸ hk) hk⟩
  obtain ⟨before, after, hsplit, -, -⟩ := hms.exists_split m hmem
  dsimp only
  rw [hcm.inside]
  refine functions_agree_of_encodesTo hcm (fun f hf => ?_) fun i hi => hm.payloads i ?_
  · obtain ⟨before', after', hbody, -, -⟩ := m.passes.exists_split f hf
    have hspan : p.instructions = before ++ (m.first :: before') ++
        (f.instructions ++ (after' ++ m.last :: after)) := by
      rw [hsplit, ModuleRun.instructions, hbody]
      simp
    exact ⟨hm.ends (f.span hspan), hm.results (f.span hspan)⟩
  · rw [hsplit]
    exact List.mem_append_right _ (List.mem_append_left _ hi)

/-- What is built as the rules of WebAssembly ask is built as its meaning asks. -/
lemma WellBuilt.meaningful (h : p.WellBuilt) : p.Meaningful := by
  refine ⟨h.ends, h.results, fun i hi => ?_⟩
  have hp := h.payloads i hi
  generalize i.operation = op at hp
  cases op with
  | wasmConst value | createWasmGlobal value | wasmDefineGlobal value =>
      cases value <;> first | rfl | exact hp
  | createWasmTable | wasmDefineTable => exact hp
  | _ => rfl

end Program

/-- A function that works on imported and defined entities of all categories. -/
theorem functions_agree_ledger :
    ∃ encoded, ledger.encodeModules .script = .ok encoded ∧ ∀ c ∈ encoded,
      let body := (ledger.instructions.take c.last).drop (c.first + 1)
      List.Forall₂ (fun f callee => f.2.AgreesWith body c.body.callees.toArray callee)
        (Direct.functions body) c.body.callees :=
  Program.functions_agree validate_ledger Environment.isScriptTyped_script (by decide)
    wellBuilt_ledger.meaningful

end EngineFuzz
