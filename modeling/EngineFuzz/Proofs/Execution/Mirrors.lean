import Mathlib
import EngineFuzz.Proofs.Execution.Entities
import EngineFuzz.Proofs.Execution.Locals

/-!
# Frames and activations

An active function of the machine mirrors a frame: it stands at the same position, its locals hold
the values of the variables in scope, and its labels are where branches to the labels in scope
continue.  A caller mirrors its frame too, up to the results that it still has to pop.

* `Direct.State.Mirrors`: a machine and the state that it mirrors.
* `Machine.Reaches`: what some steps of the machine have to do with a step of the functions.
* `Direct.Callers.reaches_leave`: functions end alike.
* `LoweredFunction.Poised.resume`: an instruction ends with its results in the locals of its
  outputs.
-/

namespace EngineFuzz

open Lowering

variable {context : LoweringContext} {setup : MachineSetup}

namespace LoweredFunction

/-- The values of a frame are in the locals of the function, and each label that is open at the
position is a label of the machine. -/
structure Mirrors (F : LoweredFunction context) (p : Point) (frame : Direct.Frame)
    (locals : Array MachineValue) (labels : List Label) : Prop where
  wellBuilt : F.WellBuilt
  function : frame.function = F.run.source
  keeps : F.Keeps p frame.values locals
  labels : List.Forall₂ F.LabelOf p.labels labels

/-- A frame has gone past an instruction that still has to take effect. -/
structure Poised (F : LoweredFunction context) (p : Point) (i : Instruction) (target : Instr)
    (m : Point) (frame : Direct.Frame) (code : List Instr) (locals : Array MachineValue)
    (labels : List Label) : Prop extends F.Mirrors p frame locals labels where
  front : F.At p (i :: frame.rest) (p.lowering.codeOf i target ++ code)
  passes : Passes context p i target m
  behind : F.At m frame.rest code

end LoweredFunction

namespace Direct

/-- The machine runs the function of a frame, between two instructions. -/
inductive Frame.Active (context : LoweringContext) (frame : Frame) : Activation → Prop where
  | intro {F : LoweredFunction context} {p : Point} {code : List Instr}
      {locals : Array MachineValue} {labels : List Label} (room : Nat)
      (mirrors : F.Mirrors p frame locals labels) (position : F.At p frame.rest code) :
      Active context frame
        ⟨locals, [], code ++ F.ending, labels, F.run.opener.results.length, room⟩

/-- The function of a frame waits for the results of a call, which these variables get. -/
inductive Frame.Waiting (context : LoweringContext) (frame : Frame) :
    List Variable → Activation → Prop where
  | intro {F : LoweredFunction context} {p m : Point} {i : Instruction} {target : Instr}
      {code : List Instr} {locals : Array MachineValue} {labels : List Label} (room : Nat)
      (poised : F.Poised p i target m frame code locals labels) (same : m.labels = p.labels) :
      Waiting context frame i.outputs ⟨locals, [], p.lowering.pops i ++ (code ++ F.ending), labels,
        F.run.opener.results.length, room⟩

/-- The callers of a function that yields a number of results. -/
inductive Callers (context : LoweringContext) :
    Nat → List (Frame × List Variable) → List Activation → Prop where
  | nil (count : Nat) : Callers context count [] []
  | cons {frame : Frame} {outputs : List Variable} {a : Activation}
      {callers : List (Frame × List Variable)} {as : List Activation}
      (waiting : frame.Waiting context outputs a)
      (rest : Callers context a.resultCount callers as) :
      Callers context outputs.length ((frame, outputs) :: callers) (a :: as)

/-- How many results the latest caller waits for. -/
def pending (callers : List (Frame × List Variable)) : Nat :=
  (callers.head?.map fun c => c.2.length).getD 0

/-- The machine is where the functions are. -/
structure State.Mirrors (context : LoweringContext) (s : State) (m : Machine) : Prop where
  store : s.store = m.store
  active : s.active.Active context m.active
  callers : Callers context m.active.resultCount s.callers m.callers

end Direct

namespace Machine

/-- Some steps of the machine, at least `low` if it is still running and at most `high`, lead to
what the functions have got to. -/
def Reaches (setup : MachineSetup) (context : LoweringContext) (low high : Nat) (m : Machine) :
    Direct.Progress → Prop
  | .running s => ∃ j m', low ≤ j ∧ j ≤ high ∧ m.run setup j = .running m' ∧ s.Mirrors context m'
  | .returned values store => ∃ j ≤ high, m.run setup j = .returned values store
  | .trapped kind store => ∃ j ≤ high, m.run setup j = .trapped kind store
  | .stuck => ∃ j ≤ high, m.run setup j = .stuck

variable {m m' : Machine} {low high j : Nat} {progress : Direct.Progress}

lemma Reaches.mono (h : m.Reaches setup context low high progress) {low' high' : Nat}
    (hl : low' ≤ low) (hh : high ≤ high') : m.Reaches setup context low' high' progress := by
  cases progress with
  | running s =>
      obtain ⟨j, m', hlj, hj, hrun, hm⟩ := h
      exact ⟨j, m', hl.trans hlj, hj.trans hh, hrun, hm⟩
  | _ =>
      obtain ⟨j, hj, hrun⟩ := h
      exact ⟨j, hj.trans hh, hrun⟩

/-- Steps in front of others. -/
lemma Reaches.of_run (hr : m.run setup j = .running m')
    (h : m'.Reaches setup context low high progress) :
    m.Reaches setup context (j + low) (j + high) progress := by
  cases progress with
  | running s =>
      obtain ⟨k, m'', hlk, hk, hrun, hm⟩ := h
      exact ⟨j + k, m'', by omega, by omega, (run_of_running hr).trans hrun, hm⟩
  | _ =>
      obtain ⟨k, hk, hrun⟩ := h
      exact ⟨j + k, by omega, (run_of_running hr).trans hrun⟩

lemma Reaches.of_step (hr : m.step setup = .running m')
    (h : m'.Reaches setup context low high progress) :
    m.Reaches setup context (1 + low) (1 + high) progress :=
  h.of_run (run_one.trans hr)

/-- The machine already is where the functions are. -/
lemma reaches_of_mirrors {s : Direct.State} (h : s.Mirrors context m) :
    m.Reaches setup context 0 0 (.running s) :=
  ⟨0, m, Nat.le_refl 0, Nat.le_refl 0, rfl, h⟩

lemma reaches_returned {values : List MachineValue} {store : Store}
    (h : m.step setup = .returned values store) :
    m.Reaches setup context low 1 (.returned values store) :=
  ⟨1, Nat.le_refl 1, run_one.trans h⟩

lemma reaches_trapped {kind : TrapKind} {store : Store}
    (h : m.step setup = .trapped kind store) :
    m.Reaches setup context low 1 (.trapped kind store) :=
  ⟨1, Nat.le_refl 1, run_one.trans h⟩

lemma reaches_stuck (h : m.step setup = .stuck) : m.Reaches setup context low 1 .stuck :=
  ⟨1, Nat.le_refl 1, run_one.trans h⟩

end Machine

/-! ### The end of an instruction -/

namespace LoweredFunction

variable {F : LoweredFunction context} {p m : Point} {i : Instruction} {target : Instr}
  {frame : Direct.Frame} {code : List Instr} {locals : Array MachineValue}
  {labels labels' : List Label} {xs : List MachineValue} {store : Store} {fuel count room : Nat}
  {as : List Activation} {callers : List (Direct.Frame × List Variable)} {machine : Machine}

namespace Poised

/-- **The results of an instruction** are popped into the locals of its outputs. -/
lemma resume (h : F.Poised p i target m frame code locals labels) (hl : m.labels = p.labels)
    (hx : xs.length = i.outputs.length)
    (hc : Direct.Callers context F.run.opener.results.length callers as) :
    (Machine.mk store fuel ⟨locals, xs.reverse, p.lowering.pops i ++ (code ++ F.ending), labels,
      F.run.opener.results.length, room⟩ as).Reaches setup context 0 i.outputs.length
        (.running ((Direct.State.mk store frame callers).bind i.outputs xs)) := by
  have hroom : p.lowering.localCount + xs.reverse.length ≤ locals.size := by
    rw [h.keeps.size, List.length_reverse, hx, ← h.passes.localCount_eq]
    exact h.behind.localCount_le
  have hpops : p.lowering.pops i =
      (List.range' p.lowering.localCount xs.reverse.length).map .localSet := by
    rw [List.length_reverse, hx]
    rfl
  have hrun : (Machine.mk store fuel ⟨locals, xs.reverse ++ [],
      (List.range' p.lowering.localCount xs.reverse.length).map .localSet ++ (code ++ F.ending),
      labels, F.run.opener.results.length, room⟩ as).run setup xs.reverse.length = _ :=
    Machine.run_pops hroom
  rw [List.append_nil, ← hpops] at hrun
  have hlen : xs.reverse.length ≤ i.outputs.length := by rw [List.length_reverse, hx]
  refine ⟨_, _, Nat.zero_le _, hlen, hrun, rfl, ?_, hc⟩
  exact .intro room ⟨h.wellBuilt, h.function, h.keeps.setAll h.front h.passes h.behind hx,
    hl ▸ h.labels⟩ h.behind

/-- Behind an instruction without outputs the machine goes on with the same values, or with those
that the instruction has changed. -/
lemma reaches_behind (h : F.Poised p i target m frame code locals labels) (ho : i.outputs = [])
    {values : Direct.Values} {locals' : Array MachineValue} (hk : F.Keeps p values locals')
    (hl : List.Forall₂ F.LabelOf m.labels labels')
    (hc : Direct.Callers context F.run.opener.results.length callers as)
    (hm : machine.step setup = .running (Machine.mk store fuel ⟨locals', [], code ++ F.ending,
      labels', F.run.opener.results.length, room⟩ as)) :
    machine.Reaches setup context 1 1 (.running ⟨store, { frame with values }, callers⟩) := by
  have hkeeps : F.Keeps m values locals' := hk.mono fun v hv => by
    rcases h.passes.mem_scopes h.front.fits hv with hv | hv | hv
    · rw [ho] at hv
      exact absurd hv List.not_mem_nil
    · exact .inr (h.passes.typeOf_label h.front.fits h.behind.fits hv)
    · exact .inl hv
  have hmirrors : F.Mirrors m { frame with values } locals' labels' :=
    ⟨h.wellBuilt, h.function, hkeeps, hl⟩
  exact (Machine.reaches_of_mirrors ⟨rfl, .intro room hmirrors h.behind, hc⟩).of_step hm

end Poised

end LoweredFunction

/-! ### The end of a function -/

/-- **Functions end alike**: the results go to the caller, or to whoever has started the machine. -/
lemma Direct.Callers.reaches_leave {count : Nat}
    {callers : List (Direct.Frame × List Variable)} {as : List Activation}
    (hc : Direct.Callers context count callers as) {xs : List MachineValue} (hx : xs.length = count)
    {m : Machine} {store : Store} {frame : Direct.Frame} {fuel room : Nat}
    {locals : Array MachineValue} {code : List Instr} {labels : List Label}
    (hm : m.step setup =
      (Machine.mk store fuel ⟨locals, xs.reverse, code, labels, count, room⟩ as).leave) :
    m.Reaches setup context 1 (1 + Direct.pending callers)
      ((Direct.State.mk store frame callers).leave xs) := by
  have htake : xs.reverse.take count = xs.reverse :=
    List.take_of_length_le (by rw [List.length_reverse, hx])
  rw [Machine.leave] at hm
  dsimp only at hm
  rw [htake, if_neg (by rw [List.length_reverse, hx]; exact Nat.lt_irrefl _)] at hm
  cases hc with
  | nil =>
      rw [List.reverse_reverse] at hm
      exact Machine.reaches_returned hm
  | @cons caller outputs a callers as hwait hrest =>
      have hleave : (Direct.State.mk store frame ((caller, outputs) :: callers)).leave xs =
          .running ((Direct.State.mk store caller callers).bind outputs xs) := by
        rw [Direct.State.leave]
        exact if_pos hx
      rw [hleave]
      cases hwait with
      | intro room' poised same =>
          dsimp only at hm
          rw [List.append_nil] at hm
          exact (poised.resume same hx hrest).of_step hm

end EngineFuzz
