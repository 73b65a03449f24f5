import Mathlib
import EngineFuzz.Execution.Machine
import EngineFuzz.Proofs.Execution.Data

/-!
# Runs of the machine

What the machine does in several steps: it pushes the values of locals, pops operands into locals,
and uses up fuel and stack, a little in each step.

* `Machine.run_of_running`: a run goes on where a shorter one stands.
* `Machine.run_pushes`, `Machine.run_pops`: the two ends of the code of an instruction.
* `Machine.spends_of_run`: how much fuel and stack a run uses up at most.
-/

namespace EngineFuzz

/-- Whether the instruction works on data, and leaves control to the next one. -/
def Instr.isData : Instr → Bool
  | block | loop | ifThen | elseThen | blockEnd | br _ | brIf _ | ret | unreachable
  | call _ => false
  | _ => true

lemma Instr.fuelCost_le {i : Instr} : i.fuelCost ≤ 1 := by
  cases i <;> first | exact Nat.le_refl 1 | exact Nat.zero_le 1

/-- How much of the stack the function takes while it is active. -/
def Callee.frameSize : Callee → Nat
  | host .. => 0
  | code _ _ size => size

/-- All frames together, one of each function; no single one takes more. -/
def MachineSetup.frameBound (setup : MachineSetup) : Nat :=
  (setup.functions.toList.map (·.frameSize)).sum

lemma MachineSetup.frameSize_le {setup : MachineSetup} {index : Nat} {callee : Callee}
    (h : setup.functions[index]? = some callee) : callee.frameSize ≤ setup.frameBound := by
  rw [← Array.getElem?_toList] at h
  exact List.le_sum_of_mem (List.mem_map_of_mem (List.mem_of_getElem? h))

/-! ### Locals -/

/-- The locals with values put at an index and those after it. -/
def setFrom (locals : Array MachineValue) (index : Nat) : List MachineValue → Array MachineValue
  | [] => locals
  | x :: xs => setFrom (locals.setIfInBounds index x) (index + 1) xs

section SetFrom

variable {locals : Array MachineValue} {index j : Nat} {xs : List MachineValue}

@[simp] lemma size_setFrom : (setFrom locals index xs).size = locals.size := by
  induction xs generalizing locals index with
  | nil => rfl
  | cons x xs ih => rw [setFrom, ih, Array.size_setIfInBounds]

/-- Locals below stay as they are. -/
lemma getElem?_setFrom_of_lt (h : j < index) : (setFrom locals index xs)[j]? = locals[j]? := by
  induction xs generalizing locals index with
  | nil => rfl
  | cons x xs ih =>
      rw [setFrom, ih (by omega), Array.getElem?_setIfInBounds_ne (by omega)]

/-- The values stand side by side. -/
lemma getElem?_setFrom (h : index + xs.length ≤ locals.size) (hj : j < xs.length) :
    (setFrom locals index xs)[index + j]? = xs[j]? := by
  induction xs generalizing locals index j with
  | nil => exact absurd hj (Nat.not_lt_zero j)
  | cons x xs ih =>
      rw [List.length_cons] at h hj
      rw [setFrom]
      cases j with
      | zero =>
          change (setFrom (locals.setIfInBounds index x) (index + 1) xs)[index]? = some x
          rw [getElem?_setFrom_of_lt (Nat.lt_add_one index),
            Array.getElem?_setIfInBounds_self_of_lt (by omega)]
      | succ j =>
          rw [show index + (j + 1) = index + 1 + j by omega,
            ih (by rw [Array.size_setIfInBounds]; omega) (by omega), List.getElem?_cons_succ]

end SetFrom

/-- The local of a variable has a value. -/
def Lowering.Holds (l : Lowering) (locals : Array MachineValue) (v : Variable)
    (x : MachineValue) : Prop :=
  ∃ index, l.local? v = some index ∧ locals[index]? = some x

namespace Machine

variable {setup : MachineSetup} {m m' : Machine} {j k : Nat} {store : Store} {fuel : Nat}
  {locals : Array MachineValue} {operands : List MachineValue} {code : List Instr}
  {labels : List Label} {count room : Nat} {callers : List Activation} {xs : List MachineValue}

/-! ### Runs one after another -/

/-- A run goes on where a shorter one stands. -/
lemma run_of_running (h : m.run setup j = .running m') :
    m.run setup (j + k) = m'.run setup k := by
  induction j generalizing m with
  | zero =>
      obtain rfl := Progress.running.inj h
      rw [Nat.zero_add]
  | succ j ih =>
      rw [Nat.add_right_comm, run]
      rw [run] at h
      cases hs : m.step setup with
      | running m₁ =>
          rw [hs] at h
          exact ih h
      | _ =>
          rw [hs] at h
          exact nomatch h

/-- A run that has ended does not go on. -/
lemma run_of_not_running (h : ∀ m', m.run setup j ≠ .running m') :
    m.run setup (j + k) = m.run setup j := by
  induction j generalizing m with
  | zero => exact absurd rfl (h m)
  | succ j ih =>
      rw [Nat.add_right_comm, run, run]
      rw [run] at h
      cases hs : m.step setup with
      | running m₁ =>
          rw [hs] at h
          exact ih h
      | _ => rfl

lemma run_one : m.run setup 1 = m.step setup := by
  rw [run]
  cases m.step setup <;> rfl

/-! ### The code of an instruction -/

/-- An instruction on data works on the store, the locals and the operands. -/
lemma step_of_isData {i : Instr} (h : i.isData = true) :
    (Machine.mk store fuel ⟨locals, operands, i :: code, labels, count, room⟩ callers).step setup =
      match (DataState.mk store locals operands).apply i with
      | .ok s => .running ⟨s.store, fuel - 1, ⟨s.locals, s.operands, code, labels, count, room⟩,
          callers⟩
      | .error (.trap kind) => .trapped kind store
      | .error .stuck => .stuck := by
  cases i <;> first | rfl | cases h

/-- The values of variables are pushed, the first one first. -/
lemma run_pushes {l : Lowering} {vs : List Variable} (h : List.Forall₂ (l.Holds locals) vs xs) :
    (Machine.mk store fuel ⟨locals, operands, l.pushes vs ++ code, labels, count, room⟩
      callers).run setup vs.length =
        .running ⟨store, fuel - vs.length,
          ⟨locals, xs.reverse ++ operands, code, labels, count, room⟩, callers⟩ := by
  induction h generalizing fuel operands with
  | nil => rfl
  | @cons v x vs xs hv _ ih =>
      obtain ⟨index, hi, hx⟩ := hv
      have hpush : l.pushes (v :: vs) = .localGet index :: l.pushes vs := by
        rw [Lowering.pushes, List.filterMap_cons, hi]
        rfl
      have hstep : (Machine.mk store fuel ⟨locals, operands, l.pushes (v :: vs) ++ code, labels,
          count, room⟩ callers).step setup = .running ⟨store, fuel - 1,
            ⟨locals, x :: operands, l.pushes vs ++ code, labels, count, room⟩, callers⟩ := by
        have happly : (DataState.mk store locals operands).apply (.localGet index) =
            .ok ⟨store, locals, x :: operands⟩ := by
          change (do return DataState.push _ (← MachineValue.orStuck locals[index]?)) = _
          rw [hx]
          rfl
        rw [hpush, List.cons_append, step_of_isData rfl, happly]
      rw [List.length_cons, run, hstep]
      dsimp only
      rw [ih, Nat.sub_sub, Nat.add_comm 1, List.reverse_cons, List.append_assoc]
      rfl

lemma step_localSet {index : Nat} {x : MachineValue} (h : index < locals.size) :
    (Machine.mk store fuel ⟨locals, x :: operands, .localSet index :: code, labels, count, room⟩
      callers).step setup = .running ⟨store, fuel - 1,
        ⟨locals.setIfInBounds index x, operands, code, labels, count, room⟩, callers⟩ := by
  have happly : (DataState.mk store locals (x :: operands)).apply (.localSet index) =
      .ok ⟨store, locals.setIfInBounds index x, operands⟩ := by
    change (if h : index < locals.size then _ else _) = _
    rw [dif_pos h, Array.setIfInBounds, dif_pos h]
  rw [step_of_isData rfl, happly]

/-- Operands are popped into locals, the topmost first. -/
lemma run_pops {index : Nat} (h : index + xs.length ≤ locals.size) :
    (Machine.mk store fuel ⟨locals, xs ++ operands,
      (List.range' index xs.length).map .localSet ++ code, labels, count, room⟩ callers).run setup
        xs.length = .running ⟨store, fuel - xs.length,
          ⟨setFrom locals index xs, operands, code, labels, count, room⟩, callers⟩ := by
  induction xs generalizing fuel locals index with
  | nil => rfl
  | cons x xs ih =>
      rw [List.length_cons] at h
      rw [List.length_cons, List.range'_succ, List.map_cons, run]
      rw [List.cons_append, List.cons_append, step_localSet (by omega)]
      dsimp only
      rw [ih (by rw [Array.size_setIfInBounds]; omega), Nat.sub_sub, Nat.add_comm 1]
      rfl

/-! ### What is used up -/

/-- From one machine to another at most so much fuel is used up, and so much room. -/
structure Spends (m m' : Machine) (fuel room : Nat) : Prop where
  fuel : m.fuel ≤ m'.fuel + fuel
  room : ∀ a ∈ m'.active :: m'.callers, ∃ b ∈ m.active :: m.callers, b.room ≤ a.room + room

namespace Spends

variable {m'' : Machine} {fuel' room' : Nat}

lemma refl (m : Machine) : m.Spends m 0 0 := ⟨Nat.le_refl _, fun a ha => ⟨a, ha, Nat.le_refl _⟩⟩

lemma trans (h : m.Spends m' fuel room) (h' : m'.Spends m'' fuel' room') :
    m.Spends m'' (fuel + fuel') (room + room') := by
  refine ⟨?_, fun a ha => ?_⟩
  · have := h.fuel
    have := h'.fuel
    omega
  · obtain ⟨b, hb, hba⟩ := h'.room a ha
    obtain ⟨c, hc, hcb⟩ := h.room b hb
    exact ⟨c, hc, by omega⟩

lemma mono (h : m.Spends m' fuel room) (hf : fuel ≤ fuel') (hr : room ≤ room') :
    m.Spends m' fuel' room' := by
  refine ⟨h.fuel.trans (by omega), fun a ha => ?_⟩
  obtain ⟨b, hb, hba⟩ := h.room a ha
  exact ⟨b, hb, by omega⟩

/-- Only the room of the active function counts. -/
lemma of_active (hf : m.fuel ≤ m'.fuel + fuel) (hr : m.active.room ≤ m'.active.room + room)
    (hc : m'.callers = m.callers) : m.Spends m' fuel room := by
  refine ⟨hf, fun a ha => ?_⟩
  rcases List.mem_cons.mp ha with rfl | ha
  · exact ⟨m.active, List.mem_cons_self .., hr⟩
  · exact ⟨a, List.mem_cons_of_mem _ (hc ▸ ha), Nat.le_add_right ..⟩

lemma of_same (hf : m'.fuel = m.fuel) (hr : m'.active.room = m.active.room)
    (hc : m'.callers = m.callers) (h : m'.Spends m'' fuel room) : m.Spends m'' fuel room := by
  have hsame : m.Spends m' 0 0 := .of_active hf.ge hr.ge hc
  exact (hsame.trans h).mono (Nat.zero_add _).le (Nat.zero_add _).le

end Spends

lemma spends_of_leave (h : m.leave = .running m') : m.Spends m' 0 0 := by
  unfold leave at h
  dsimp only at h
  split at h
  · exact nomatch h
  · split at h
    · exact nomatch h
    · rename_i caller callers hc
      obtain rfl := Progress.running.inj h
      refine ⟨Nat.le_refl _, fun a ha => ?_⟩
      rcases List.mem_cons.mp ha with rfl | ha
      · exact ⟨caller, by rw [hc]; simp, Nat.le_refl _⟩
      · exact ⟨a, by rw [hc]; simp [ha], Nat.le_refl _⟩

lemma spends_of_fueled (h : m.fueled = .running m') : m.Spends m' 0 0 := by
  unfold fueled at h
  split at h
  · exact nomatch h
  · obtain rfl := Progress.running.inj h
    exact .refl m

lemma spends_of_branch {depth : Nat} (h : m.branch depth = .running m') : m.Spends m' 0 0 := by
  unfold branch at h
  split at h
  · split at h
    · exact spends_of_leave h
    · exact nomatch h
  · dsimp only at h
    split at h
    · refine .of_same ?_ ?_ ?_ (spends_of_fueled h) <;> rfl
    · obtain rfl := Progress.running.inj h
      exact .of_active (Nat.le_refl _) (Nat.le_refl _) rfl

lemma spends_of_leaveBlock (h : m.leaveBlock = .running m') : m.Spends m' 0 0 := by
  unfold leaveBlock at h
  split at h
  · exact spends_of_leave h
  · obtain rfl := Progress.running.inj h
    exact .of_active (Nat.le_refl _) (Nat.le_refl _) rfl

lemma spends_of_call {index : Nat} (h : m.call setup index = .running m') :
    m.Spends m' 1 setup.frameBound := by
  unfold call at h
  split at h
  · exact nomatch h
  · rename_i callee hcallee
    dsimp only at h
    split at h
    · exact nomatch h
    · split at h
      · split at h
        · obtain rfl := Progress.running.inj h
          exact .of_active (Nat.le_add_right ..) (Nat.le_add_right ..) rfl
        · exact nomatch h
        · exact nomatch h
      · rename_i signature body frameSize _
        split at h
        · exact nomatch h
        · have hsize : frameSize ≤ setup.frameBound := setup.frameSize_le hcallee
          have hentered : ∀ (m₁ : Machine) (caller : Activation), m₁.callers = caller :: m.callers →
              caller.room = m.active.room → m.fuel ≤ m₁.fuel + 1 →
              m₁.active.room = m.active.room - frameSize → m.Spends m₁ 1 setup.frameBound := by
            intro m₁ caller hc hcaller hf hr
            refine ⟨hf, fun a ha => ?_⟩
            rw [hc, List.mem_cons, List.mem_cons] at ha
            rcases ha with rfl | rfl | ha
            · exact ⟨m.active, List.mem_cons_self .., by omega⟩
            · exact ⟨m.active, List.mem_cons_self .., by omega⟩
            · exact ⟨a, List.mem_cons_of_mem _ ha, Nat.le_add_right ..⟩
          refine (hentered _ _ rfl ?_ ?_ ?_).trans (spends_of_fueled h)
          · rfl
          · dsimp only
            omega
          · rfl

lemma eq_of_popCondition {condition : Bool} (h : m.popCondition = some (condition, m')) :
    ∃ operands, m' = { m with active := { m.active with operands } } := by
  unfold popCondition at h
  split at h
  · rename_i operands _
    exact ⟨operands, (Prod.mk.inj (Option.some.inj h)).2.symm⟩
  · exact nomatch h

/-- **What a step uses up**: two units of fuel at most, and no more room than a frame takes. -/
theorem spends_of_step (h : m.step setup = .running m') : m.Spends m' 2 setup.frameBound := by
  obtain ⟨store, fuel, ⟨locals, operands, code, labels, count, room⟩, callers⟩ := m
  cases code with
  | nil => exact nomatch h
  | cons i code =>
      have hcost := Instr.fuelCost_le (i := i)
      -- what is used up behind the instruction, given the operands there
      have hbehind : ∀ (operands' : List MachineValue) {f r : Nat},
          Machine.Spends ⟨store, fuel - i.fuelCost,
            ⟨locals, operands', code, labels, count, room⟩, callers⟩ m' f r → f ≤ 1 →
          r ≤ setup.frameBound →
          (Machine.mk store fuel ⟨locals, operands, i :: code, labels, count, room⟩
            callers).Spends m' 2 setup.frameBound := by
        intro operands' f r h hf hr
        have htaken : (Machine.mk store fuel ⟨locals, operands, i :: code, labels, count, room⟩
            callers).Spends ⟨store, fuel - i.fuelCost,
              ⟨locals, operands', code, labels, count, room⟩, callers⟩ 1 0 :=
          .of_active (by dsimp only; omega) (Nat.le_refl _) rfl
        exact (htaken.trans h).mono (by omega) (by omega)
      by_cases hd : i.isData = true
      · rw [step_of_isData hd] at h
        split at h
        · obtain rfl := Progress.running.inj h
          exact .of_active (by dsimp only; omega) (Nat.le_add_right ..) rfl
        · exact nomatch h
        · exact nomatch h
      · change execute setup _ i = _ at h
        cases i with
        | block =>
            obtain rfl := Progress.running.inj h
            exact .of_active (Nat.le_add_right ..) (Nat.le_add_right ..) rfl
        | loop =>
            refine .of_same ?_ ?_ ?_ ((spends_of_fueled h).mono (Nat.zero_le 2) (Nat.zero_le _)) <;>
              rfl
        | ifThen =>
            unfold execute at h
            dsimp only at h
            split at h
            · exact nomatch h
            · rename_i condition m₁ hpop
              obtain ⟨operands', rfl⟩ := eq_of_popCondition hpop
              refine hbehind operands' (f := 0) (r := 0) ?_ (by omega) (by omega)
              split at h
              · obtain rfl := Progress.running.inj h
                exact .of_active (Nat.le_refl _) (Nat.le_refl _) rfl
              · split at h <;>
                · obtain rfl := Progress.running.inj h
                  exact .of_active (Nat.le_refl _) (Nat.le_refl _) rfl
        | elseThen => exact hbehind _ (spends_of_branch h) (by omega) (by omega)
        | blockEnd => exact hbehind _ (spends_of_leaveBlock h) (by omega) (by omega)
        | br depth => exact hbehind _ (spends_of_branch h) (by omega) (by omega)
        | brIf depth =>
            unfold execute at h
            dsimp only at h
            split at h
            · exact nomatch h
            · rename_i condition m₁ hpop
              obtain ⟨operands', rfl⟩ := eq_of_popCondition hpop
              refine hbehind operands' (f := 0) (r := 0) ?_ (by omega) (by omega)
              split at h
              · exact spends_of_branch h
              · obtain rfl := Progress.running.inj h
                exact .refl _
        | ret => exact hbehind _ (spends_of_leave h) (by omega) (by omega)
        | unreachable => exact nomatch h
        | call index => exact hbehind _ (spends_of_call h) (by omega) (by omega)
        | _ => exact absurd rfl hd

/-- What a run uses up. -/
theorem spends_of_run (h : m.run setup k = .running m') :
    m.Spends m' (k * 2) (k * setup.frameBound) := by
  induction k generalizing m with
  | zero =>
      obtain rfl := Progress.running.inj h
      exact (Spends.refl m).mono (Nat.zero_le _) (Nat.zero_le _)
  | succ k ih =>
      rw [run] at h
      cases hs : m.step setup with
      | running m₁ =>
          rw [hs] at h
          refine ((spends_of_step hs).trans (ih h)).mono ?_ ?_
          · rw [Nat.succ_mul, Nat.add_comm]
          · rw [Nat.succ_mul, Nat.add_comm]
      | _ =>
          rw [hs] at h
          exact nomatch h

end Machine

end EngineFuzz
