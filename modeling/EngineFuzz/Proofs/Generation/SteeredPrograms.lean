import Mathlib
import EngineFuzz.Proofs.Generation.Validity

/-!
# Programs whose loops end

All loops of a program count down from ten, and nothing else in the program has to do with what
steers them.

* `CountedLoop.Alone`: the label and the counter of a loop occur nowhere else.
* `Program.Steered`: each loop of the program is of this kind.
* `Steers.exists_code`: a loop in steered code, with what uses neither its label nor its counter.
* `Program.steered_of_steers`: steered code makes an accepted program steered.
-/

namespace EngineFuzz

/-- Neither the label nor the counter of the loop occurs in the instruction. -/
def CountedLoop.Unused (l : CountedLoop) (i : Instruction) : Prop :=
  ∀ v ∈ [l.label, l.counter], v ∉ i.inputs ∧ v ∉ i.definedVariables

/-- The label and the counter of a loop with these instructions around it are four variables with
those at the end of its body, and they occur nowhere else. -/
structure CountedLoop.Alone (l : CountedLoop) (before after : List Instruction) : Prop where
  label : l.label ≠ l.counter
  one : l.one ≠ l.label ∧ l.one ≠ l.counter
  next : l.next ≠ l.label ∧ l.next ≠ l.counter
  unused : ∀ i ∈ before ++ l.body ++ after, l.Unused i

/-- Each instruction that begins a loop is the second one of a loop that counts down from ten, and
neither the label nor the counter of this loop occurs anywhere else. -/
def Program.Steered (p : Program) : Prop :=
  ∀ before i rest, p.instructions = before ++ i :: rest → i.operation = .wasmBeginLoop →
    ∃ (l : CountedLoop) (front after : List Instruction), before.length = front.length + 1 ∧
      p.instructions = front ++ l.code ++ after ∧ l.Alone front after

/-! ### Loops in steered code -/

namespace CountedLoop

variable {l : CountedLoop}

lemma definedVariables_code : l.code.flatMap (·.definedVariables) =
    l.counter :: l.label :: (l.body.flatMap (·.definedVariables) ++ [l.one, l.next]) := by
  simp [code, entry, exit, Instruction.definedVariables]

lemma operation_ne_of_mem_exit {i : Instruction} (h : i ∈ l.exit) :
    i.operation ≠ .wasmBeginLoop := by
  simp only [exit, List.mem_cons, List.not_mem_nil, or_false] at h
  rcases h with rfl | rfl | rfl | rfl | rfl <;> exact Operation.noConfusion

lemma code_eq : l.code = ⟨.wasmConst (.i32 10), [], [l.counter], []⟩ ::
    ⟨.wasmBeginLoop, [], [], [l.label]⟩ :: (l.body ++ l.exit) := by
  simp [code, entry]

/-- Where a loop begins in the code of a loop: at the second place, or in the body. -/
lemma position {before rest : List Instruction} {i : Instruction} (h : l.code = before ++ i :: rest)
    (hi : i.operation = .wasmBeginLoop) : before.length = 1 ∨
      ∃ before' rest', l.body = before' ++ i :: rest' ∧ before = l.entry ++ before' ∧
        rest = rest' ++ l.exit := by
  rw [code_eq, List.cons_eq_append_iff] at h
  rcases h with ⟨rfl, h⟩ | ⟨before, rfl, h⟩
  · obtain ⟨rfl, -⟩ := List.cons.inj h
    cases hi
  rw [List.cons_eq_append_iff] at h
  rcases h with ⟨rfl, -⟩ | ⟨before', rfl, h⟩
  · exact .inl rfl
  rcases exists_of_append_eq_append_cons h with ⟨c, -, hexit⟩ | ⟨c, hbody, hrest⟩
  · have hmem : i ∈ l.exit := by
      rw [hexit]
      exact List.mem_append_right _ (List.mem_cons_self ..)
    exact absurd hi (operation_ne_of_mem_exit hmem)
  · exact .inr ⟨before', c, hbody, rfl, hrest⟩

/-- The end of the body uses what steers the loop. -/
lemma mem_of_mem_inputs_exit {i : Instruction} {v : Variable} (h : i ∈ l.exit)
    (hv : v ∈ i.inputs) : v ∈ [l.counter, l.label, l.one, l.next] := by
  simp only [exit, List.mem_cons, List.not_mem_nil, or_false] at h
  rcases h with rfl | rfl | rfl | rfl | rfl <;> simp at hv ⊢ <;> tauto

end CountedLoop

namespace Steers

variable {S S' T : List Variable} {is before rest : List Instruction} {i : Instruction}
  {l : CountedLoop} {v : Variable}

/-- What steers loops did so before or is defined. -/
lemma mem_or_mem (h : Steers S is S') (hv : v ∈ S') :
    v ∈ S ∨ v ∈ is.flatMap (·.definedVariables) := by
  induction h with
  | nil S => exact .inl hv
  | plain edge inputs _ ih =>
      refine (ih hv).imp_right fun h => ?_
      rw [List.flatMap_cons]
      exact List.mem_append_right _ h
  | loop l body _ ihb ih =>
      rw [List.flatMap_append, CountedLoop.definedVariables_code]
      simp only [List.mem_append, List.mem_cons] at ih ihb ⊢
      rcases ih hv with h | h
      · rcases ihb h with (h | h | h) | h <;> tauto
      · tauto

/-- Where variables are defined once, so they are in the body of a loop and behind the loop. -/
lemma once_of_loop (body : Steers (l.label :: l.counter :: S) l.body T)
    (hn : ((l.code ++ is).flatMap (·.definedVariables)).Nodup)
    (hd : S.Disjoint ((l.code ++ is).flatMap (·.definedVariables))) :
    ((l.body.flatMap (·.definedVariables)).Nodup ∧
      (l.label :: l.counter :: S).Disjoint (l.body.flatMap (·.definedVariables))) ∧
    ((is.flatMap (·.definedVariables)).Nodup ∧
      T.Disjoint (is.flatMap (·.definedVariables))) := by
  rw [List.flatMap_append, CountedLoop.definedVariables_code] at hn hd
  obtain ⟨hloop, hrest, hdisj⟩ := List.nodup_append'.mp hn
  obtain ⟨hloopS, hrestS⟩ := List.disjoint_append_right.mp hd
  obtain ⟨hc, hloop⟩ := List.nodup_cons.mp hloop
  obtain ⟨hl, hloop⟩ := List.nodup_cons.mp hloop
  obtain ⟨hbody, -, -⟩ := List.nodup_append'.mp hloop
  simp only [List.mem_cons, List.mem_append, not_or] at hc hl
  refine ⟨⟨hbody, ?_⟩, hrest, fun v hv hmem => ?_⟩
  · refine List.disjoint_cons_left.mpr ⟨hl.1, List.disjoint_cons_left.mpr ⟨hc.2.1, ?_⟩⟩
    exact fun v hv hmem => hloopS hv (by simp [hmem])
  · have hout : v ∉ l.counter :: l.label ::
        (l.body.flatMap (·.definedVariables) ++ [l.one, l.next]) :=
      fun hin => hdisj hin hmem
    simp only [List.mem_cons, List.mem_append, not_or] at hout
    rcases body.mem_or_mem hv with h | h
    · simp only [List.mem_cons] at h
      rcases h with h | h | h
      · exact hout.2.1 h
      · exact hout.1 h
      · exact hrestS h hmem
    · exact hout.2.2.1 h

/-- Where variables are defined once, nothing uses a variable that steered a loop before. -/
lemma not_mem_inputs (h : Steers S is S') (hn : (is.flatMap (·.definedVariables)).Nodup)
    (hd : S.Disjoint (is.flatMap (·.definedVariables))) (hv : v ∈ S) :
    ∀ j ∈ is, v ∉ j.inputs := by
  induction h with
  | nil S => exact fun j hj => absurd hj List.not_mem_nil
  | plain edge inputs _ ih =>
      rw [List.flatMap_cons] at hn hd
      refine List.forall_mem_cons.mpr ⟨fun hin => inputs hin hv, ?_⟩
      exact ih (List.nodup_append'.mp hn).2.1 (List.disjoint_append_right.mp hd).2 hv
  | @loop S T S' l is body tail ihb ih =>
      obtain ⟨⟨hnb, hdb⟩, hnr, hdr⟩ := body.once_of_loop hn hd
      have hv' : v ∈ l.label :: l.counter :: S :=
        List.mem_cons_of_mem _ (List.mem_cons_of_mem _ hv)
      have hnot := hd hv
      rw [List.flatMap_append, CountedLoop.definedVariables_code] at hnot
      simp only [List.mem_append, List.mem_cons] at hnot
      intro j hj hin
      rw [CountedLoop.code, CountedLoop.entry, List.mem_append, List.mem_append,
        List.mem_append] at hj
      rcases hj with ((hj | hj) | hj) | hj
      · simp only [List.mem_cons, List.not_mem_nil, or_false] at hj
        rcases hj with rfl | rfl <;> exact absurd hin List.not_mem_nil
      · exact ihb hnb hdb hv' j hj hin
      · have := CountedLoop.mem_of_mem_inputs_exit hj hin
        simp only [List.mem_cons] at this
        tauto
      · exact ih hnr hdr (body.subset hv') j hj hin

/-- **A loop in steered code** counts down from ten, and neither its body nor what follows uses its
label or its counter. -/
theorem exists_code (h : Steers S is S') (hn : (is.flatMap (·.definedVariables)).Nodup)
    (hd : S.Disjoint (is.flatMap (·.definedVariables))) (he : is = before ++ i :: rest)
    (hi : i.operation = .wasmBeginLoop) :
    ∃ (l : CountedLoop) (front after : List Instruction), before.length = front.length + 1 ∧
      is = front ++ l.code ++ after ∧ l.label ∈ S' ∧ l.counter ∈ S' ∧
      ∀ v ∈ [l.label, l.counter], ∀ j ∈ l.body ++ after, v ∉ j.inputs := by
  induction h generalizing before rest with
  | nil S => simp at he
  | @plain S S' j is edge inputs tail ih =>
      rw [List.flatMap_cons] at hn hd
      cases before with
      | nil =>
          obtain ⟨rfl, rfl⟩ := List.cons.inj he
          rw [hi] at edge
          cases edge
      | cons k before =>
          obtain ⟨rfl, hrest⟩ := List.cons.inj he
          obtain ⟨l, front, after, hl, his, hlabel, hcounter, hunused⟩ :=
            ih (List.nodup_append'.mp hn).2.1 (List.disjoint_append_right.mp hd).2 hrest
          exact ⟨l, j :: front, after, by simp [hl], by simp [his], hlabel, hcounter, hunused⟩
  | @loop S T S' l is body tail ihb ih =>
      obtain ⟨⟨hnb, hdb⟩, hnr, hdr⟩ := body.once_of_loop hn hd
      rcases exists_of_append_eq_append_cons he with ⟨c, rfl, his⟩ | ⟨c, hcode, rfl⟩
      · -- behind the loop
        obtain ⟨l', front, after, hl, his', hlabel, hcounter, hunused⟩ := ih hnr hdr his
        exact ⟨l', l.code ++ front, after, by simp [hl, Nat.add_assoc], by simp [his'], hlabel,
          hcounter, hunused⟩
      rcases CountedLoop.position hcode hi with hone | ⟨before', c', hbody, rfl, -⟩
      · -- the loop itself
        refine ⟨l, [], is, hone, by simp, ?_, ?_, fun v hv => ?_⟩
        · exact tail.subset (body.subset (List.mem_cons_self ..))
        · exact tail.subset (body.subset (List.mem_cons_of_mem _ (List.mem_cons_self ..)))
        · have hv' : v ∈ l.label :: l.counter :: S := List.mem_append_left S hv
          refine List.forall_mem_append.mpr ⟨body.not_mem_inputs hnb hdb hv', ?_⟩
          exact tail.not_mem_inputs hnr hdr (body.subset hv')
      · -- a loop in the body
        obtain ⟨l', front, after, hl, hb, hlabel, hcounter, hunused⟩ := ihb hnb hdb hbody
        refine ⟨l', l.entry ++ front, after ++ l.exit ++ is, ?_, ?_, tail.subset hlabel,
          tail.subset hcounter, fun v hv => ?_⟩
        · simp [hl, Nat.add_assoc]
        · rw [CountedLoop.code, hb]
          simp
        · have hvT : v ∈ T := by
            simp only [List.mem_cons, List.not_mem_nil, or_false] at hv
            rcases hv with rfl | rfl
            · exact hlabel
            · exact hcounter
          have hvb : v ∈ l.body.flatMap (·.definedVariables) := by
            rw [hb, List.flatMap_append, List.flatMap_append, CountedLoop.definedVariables_code]
            simp only [List.mem_cons, List.not_mem_nil, or_false] at hv
            simp only [List.mem_append, List.mem_cons]
            tauto
          rw [← List.append_assoc, ← List.append_assoc]
          refine List.forall_mem_append.mpr ⟨List.forall_mem_append.mpr ⟨hunused v hv, ?_⟩,
            tail.not_mem_inputs hnr hdr hvT⟩
          -- what steers the outer loop is not defined in its body
          intro j hj hin
          have hmem := CountedLoop.mem_of_mem_inputs_exit hj hin
          rw [List.flatMap_append, CountedLoop.definedVariables_code] at hn
          have hcode := (List.nodup_append'.mp hn).1
          simp only [List.nodup_cons, List.mem_cons, List.mem_append, not_or] at hcode
          simp only [List.mem_cons, List.not_mem_nil, or_false] at hmem
          rcases hmem with rfl | rfl | hmem
          · exact hcode.1.2.1 hvb
          · exact hcode.2.1.1 hvb
          · exact (List.nodup_append'.mp hcode.2.2).2.2 hvb (by simpa using hmem)

end Steers

/-! ### Accepted programs -/

namespace Validator

variable {s s' : Validator} {is js : List Instruction} {v : Variable}

/-- What accepted instructions read is not fresh behind them. -/
lemma Steps.inputs_lt (hs : Steps s is s') (hr : s.Regular) (hn : ∀ i ∈ is, i.NumbersSmall) :
    s.nextFresh ≤ s'.nextFresh ∧ ∀ i ∈ is, ∀ v ∈ i.inputs, v.number < s'.nextFresh := by
  induction hs with
  | nil s => exact ⟨UInt32.le_refl _, by simp⟩
  | cons head tail ih =>
      obtain ⟨hi, hrest⟩ := List.forall_mem_cons.mp hn
      obtain ⟨next, ha, rfl⟩ := step_eq_ok_iff.mp head
      obtain ⟨hle, htail⟩ := ih (hr.step ha hi) hrest
      have hfirst := (checkFresh_eq_ok ha.fresh hi).1
      refine ⟨UInt32.le_trans hfirst hle, List.forall_mem_cons.mpr ⟨fun v hv => ?_, htail⟩⟩
      refine UInt32.lt_of_lt_of_le (hr.old v ?_) (UInt32.le_trans hfirst hle)
      exact (hr.tracks.visible v).mp (ha.visible v hv)

/-- Nothing is read in front of its definition. -/
lemma Steps.not_mem_inputs (hs : Steps s (is ++ js) s') (hr : s.Regular)
    (hn : ∀ i ∈ is ++ js, i.NumbersSmall) (hv : v ∈ js.flatMap (·.definedVariables)) :
    ∀ i ∈ is, v ∉ i.inputs := by
  obtain ⟨m, his, hjs⟩ := steps_append_iff.mp hs
  obtain ⟨hni, hnj⟩ := List.forall_mem_append.mp hn
  intro i hi hin
  have hlt := (his.inputs_lt hr hni).2 i hi v hin
  exact UInt32.not_lt.mpr (hjs.fresh_definedVariables hnj v hv) hlt

end Validator

variable {p : Program} {e : Environment} {l : CountedLoop} {front after : List Instruction}

/-- In an accepted program the label and the counter of a loop occur nowhere else if nothing behind
its beginning uses them but its end. -/
lemma Program.alone (h : p.validate e = .ok ()) (hn : p.NumbersSmall)
    (hp : p.instructions = front ++ l.code ++ after)
    (hu : ∀ v ∈ [l.label, l.counter], ∀ j ∈ l.body ++ after, v ∉ j.inputs) :
    l.Alone front after := by
  obtain ⟨s, hs, -⟩ := validate_eq_ok_iff.mp h
  have hsmall : ∀ i ∈ p.instructions, i.NumbersSmall := hn
  have hnodup := hs.nodup_definedVariables hn
  rw [hp, List.append_assoc] at hs hsmall
  rw [hp, List.flatMap_append, List.flatMap_append, CountedLoop.definedVariables_code] at hnodup
  obtain ⟨hloop, -, hafter⟩ := List.nodup_append'.mp hnodup
  obtain ⟨-, hloop, hfront⟩ := List.nodup_append'.mp hloop
  obtain ⟨hc, hloop⟩ := List.nodup_cons.mp hloop
  obtain ⟨hl, hloop⟩ := List.nodup_cons.mp hloop
  simp only [List.mem_cons, List.mem_append, List.not_mem_nil, or_false, not_or] at hc hl
  refine ⟨Ne.symm hc.1, ⟨Ne.symm hl.2.1, Ne.symm hc.2.2.1⟩, ⟨Ne.symm hl.2.2, Ne.symm hc.2.2.2⟩,
    fun i hi v hv => ⟨?_, fun hd => ?_⟩⟩
  · rw [List.append_assoc, List.mem_append] at hi
    rcases hi with hi | hi
    · refine hs.not_mem_inputs Validator.regular_start hsmall ?_ i hi
      rw [List.flatMap_append, CountedLoop.definedVariables_code]
      simp only [List.mem_cons, List.not_mem_nil, or_false] at hv
      rcases hv with rfl | rfl <;> simp
    · exact hu v hv i hi
  · have hmem (xs : List Instruction) (hx : i ∈ xs) : v ∈ xs.flatMap (·.definedVariables) :=
      List.mem_flatMap.mpr ⟨i, hx, hd⟩
    have hv' : v ∈ l.counter :: l.label :: (l.body.flatMap (·.definedVariables) ++
        [l.one, l.next]) := by
      simp only [List.mem_cons, List.not_mem_nil, or_false] at hv
      rcases hv with rfl | rfl <;> simp
    rw [List.mem_append, List.mem_append] at hi
    rcases hi with (hi | hi) | hi
    · exact hfront (hmem _ hi) hv'
    · simp only [List.mem_cons, List.not_mem_nil, or_false] at hv
      rcases hv with rfl | rfl
      · exact hl.1 (hmem _ hi)
      · exact hc.2.1 (hmem _ hi)
    · exact hafter (List.mem_append_right _ hv') (hmem _ hi)

/-- **Steered code** makes an accepted program steered. -/
theorem Program.steered_of_steers {S : List Variable} (h : p.validate e = .ok ())
    (hn : p.NumbersSmall) (hs : Steers [] p.instructions S) : p.Steered := by
  obtain ⟨s, hsteps, -⟩ := validate_eq_ok_iff.mp h
  intro before i rest hp hi
  obtain ⟨l, front, after, hl, his, -, -, hu⟩ := hs.exists_code (hsteps.nodup_definedVariables hn)
    (List.disjoint_nil_left _) hp hi
  exact ⟨l, front, after, hl, his, alone h hn his hu⟩

/-! ### Generated programs -/

/-- The variables that the program defines, and the operands of each instruction, are not too many
for the words that count them. -/
structure Program.Bounded (p : Program) : Prop where
  numbers : (p.instructions.flatMap (·.definedVariables)).length < 2 ^ 32 - 1
  operands : ∀ i ∈ p.instructions, i.inputs.length < 2 ^ 64 - 1

/-- **Generated programs are steered**, whatever is drawn and whatever the settings are. -/
theorem GenerationPlan.steered {toolbox : Toolbox} {words : WordSource} {plan : GenerationPlan}
    (he : toolbox.environment.IsScriptTyped)
    (hp : (plan.code (.start toolbox words)).2.finalize.1 = .ok p) (hb : p.Bounded) :
    p.Steered := by
  -- a computation that gives up leaves a problem, so that no program is returned
  let _ : Regard := ⟨False, True⟩
  obtain ⟨rfl, hvalid⟩ := Builder.of_finalize_eq_ok hp
  have hb' : (plan.code (.start toolbox words)).2.Regarded :=
    ⟨⟨hb.numbers, hb.operands⟩, False.elim, fun _ hstop => nomatch
      (Builder.problem?_of_finalize hp).symm.trans hstop⟩
  have hext : (Builder.start toolbox words).GoesOn (plan.code (.start toolbox words)).2 :=
    Builder.goesOn_generationPlan he (.inl trivial)
  obtain ⟨S, hsteers, -⟩ := hext.guides hb' _ (List.nil_append _).symm [] nofun
  exact Program.steered_of_steers hvalid (hext.sound hb').small hsteers

end EngineFuzz
