import Mathlib
import EngineFuzz.Lift.Script
import EngineFuzz.Proofs.Lift.Modules
import EngineFuzz.Proofs.Validation.FunctionEnds

/-!
# Accepted programs are lifted

Once the modules of an accepted program are lowered, each instruction of the script around them has
the operands that its text is made of, and each end of a module finds its module.

* `Lifter.exists_instruction`: the lines of an instruction of the script.
* `Lifter.exists_run`: the lines of a script with modules in it.
* `Program.lift_eq_ok`: an accepted program is lifted without an error.
-/

namespace EngineFuzz

/-! ### Counts of arguments -/

namespace Operation

/-- The number of arguments that the payload gives, for operations with one operand more. -/
def argumentCount? : Operation → Option UInt64
  | callFunction n _ | callMethod _ n _ | construct n _ | instantiateWasm n => some n
  | _ => none

end Operation

namespace Validator

/-- The greatest count: with one operand more it is none. -/
def lastCount : UInt64 := 0xffffffffffffffff

end Validator

/-- The instruction does not have the greatest count of arguments. -/
def Instruction.CountSmall (i : Instruction) : Prop :=
  ∀ n ∈ i.operation.argumentCount?, n < Validator.lastCount

/-- No instruction has the greatest count of arguments. -/
def Program.CountsSmall (p : Program) : Prop := ∀ i ∈ p.instructions, i.CountSmall

/-- Where arguments are counted there is an operand in front of them. -/
lemma Validator.exists_cons_of_count {n : UInt64} (h : n < lastCount) {vs : List Variable}
    (hl : vs.length = (1 + n).toNat) : ∃ v rest, vs = v :: rest := by
  refine List.exists_cons_of_length_pos ?_
  rw [hl, UInt64.toNat_add]
  rw [UInt64.lt_iff_toNat_lt] at h
  simp only [lastCount, UInt64.reduceToNat] at h ⊢
  omega

/-! ### Instructions of the script -/

namespace Lifter

variable {l : Lifter} {w : ScriptWriter} {i : Instruction}

lemma exists_call {v : Variable} {vs : List Variable} {text : String} {handler : Handler}
    (h : i.outputs = v :: vs) : ∃ w', l.call w i text handler = .ok w' := by
  unfold call
  split
  · exact ⟨_, rfl⟩
  · rw [defineOutput, Instruction.output?, h]
    exact ⟨_, rfl⟩

/-- **An instruction of the script** has the operands that its lines are made of. -/
theorem exists_instruction (ha : i.hasConsistentArity = true) (hc : i.CountSmall)
    (hhome : i.operation.home = .script) (hne : i.operation ≠ .beginWasmModule) :
    ∃ w', l.instruction w i = .ok w' := by
  obtain ⟨hi, ho, hn⟩ := Instruction.hasConsistentArity_iff.mp ha
  obtain ⟨op, inputs, outputs, innerOutputs⟩ := i
  dsimp only at hi ho hn hhome hne
  cases op with
  -- operations whose operands are counted
  | callFunction n guarded | callMethod method n guarded | construct n guarded =>
      obtain ⟨o, rfl⟩ := List.length_eq_one_iff.mp ho
      obtain ⟨v, rest, rfl⟩ := Validator.exists_cons_of_count (hc n rfl) hi
      exact exists_call rfl
  | instantiateWasm n =>
      obtain ⟨v, rest, rfl⟩ := Validator.exists_cons_of_count (hc n rfl) hi
      exact ⟨_, rfl⟩
  -- operations that open blocks with variables inside
  | beginPlainFunction n =>
      obtain ⟨o, rfl⟩ := List.length_eq_one_iff.mp ho
      exact ⟨_, rfl⟩
  | beginRepeatLoop n | beginCatch =>
      obtain ⟨v, rfl⟩ := List.length_eq_one_iff.mp hn
      exact ⟨_, rfl⟩
  | returnValue hasValue =>
      cases hasValue with
      | false => exact ⟨_, rfl⟩
      | true =>
          obtain ⟨v, rfl⟩ := List.length_eq_one_iff.mp hi
          exact ⟨_, rfl⟩
  | beginWasmModule => exact absurd rfl hne
  -- the others differ in how many operands they have
  | _ =>
      first
      | exact ⟨_, rfl⟩
      | (obtain ⟨o, rfl⟩ := List.length_eq_one_iff.mp ho
         exact ⟨_, rfl⟩)
      | (obtain ⟨v, rfl⟩ := List.length_eq_one_iff.mp hi
         exact ⟨_, rfl⟩)
      | (obtain ⟨v, rfl⟩ := List.length_eq_one_iff.mp hi
         obtain ⟨o, rfl⟩ := List.length_eq_one_iff.mp ho
         exact ⟨_, rfl⟩)
      | (obtain ⟨v, u, rfl⟩ := List.length_eq_two.mp hi
         exact ⟨_, rfl⟩)
      | (obtain ⟨v, u, rfl⟩ := List.length_eq_two.mp hi
         obtain ⟨o, rfl⟩ := List.length_eq_one_iff.mp ho
         exact ⟨_, rfl⟩)
      | (obtain ⟨v, u, x, rfl⟩ := List.length_eq_three.mp hi
         exact ⟨_, rfl⟩)
      | cases (show World.module = .script from hhome)
      | cases (show World.function = .script from hhome)

/-! ### Scripts with modules in them -/

variable {comments : Bool} {modules : List EncodedModule} {index : Nat} {p p' : Progress}
  {is js : List Instruction}

lemma run_append (h : l.run comments p index is = .ok p') :
    l.run comments p index (is ++ js) = l.run comments p' (index + is.length) js := by
  induction is generalizing p index with
  | nil =>
      rw [run, Except.ok.injEq] at h
      rw [h]
      rfl
  | cons i is ih =>
      rw [run, bind_eq_ok_iff] at h
      obtain ⟨m, hm, h⟩ := h
      rw [List.cons_append, run, hm, List.length_cons, Nat.add_comm is.length, ← Nat.add_assoc]
      exact ih h

lemma step_eq (h₁ : i.operation ≠ .beginWasmModule) (h₂ : i.operation ≠ .endWasmModule) :
    l.step comments p index i = (do
      let w := if comments then p.writer.emit ("// " ++ i.text) else p.writer
      if p.inModule then return { p with writer := w }
      else return { p with writer := ← l.instruction w i }) := by
  rw [step]
  split
  · contradiction
  · contradiction
  · rfl

/-- Inside a module nothing is written but comments. -/
lemma exists_run_inModule (w : ScriptWriter) (index : Nat)
    (hm : ∀ i ∈ is, i.operation ≠ .beginWasmModule ∧ i.operation ≠ .endWasmModule) :
    ∃ w', l.run comments ⟨w, true, modules⟩ index is = .ok ⟨w', true, modules⟩ := by
  induction is generalizing w index with
  | nil => exact ⟨w, rfl⟩
  | cons i is ih =>
      obtain ⟨⟨h₁, h₂⟩, hrest⟩ := List.forall_mem_cons.mp hm
      rw [run, step_eq h₁ h₂]
      exact ih _ _ hrest

/-- A module is written at its end, where a lowered module is found. -/
lemma exists_run_module {m : ModuleRun} (w : ScriptWriter) (hp : m.front.scopes.Placed)
    (hf : ∃ c ∈ modules, c.last = index + m.body.length + 1) :
    ∃ w', l.run comments ⟨w, false, modules⟩ index m.instructions =
      .ok ⟨w', false, modules⟩ := by
  obtain ⟨w₁, hbody⟩ : ∃ w₁, l.run comments
      ⟨if comments then w.emit ("// " ++ m.first.text) else w, true, modules⟩ (index + 1) m.body =
        .ok ⟨w₁, true, modules⟩ := exists_run_inModule _ _
    (m.passes.not_module_boundary (Validator.placed_of_step hp m.step_first))
  have hfirst : l.step comments ⟨w, false, modules⟩ index m.first =
      .ok ⟨if comments then w.emit ("// " ++ m.first.text) else w, true, modules⟩ := by
    rw [step, m.first_operation]
    rfl
  obtain ⟨c, hc⟩ : ∃ c, modules.find? (fun c => c.last == index + 1 + m.body.length) = some c := by
    rw [← Option.isSome_iff_exists, List.find?_isSome]
    obtain ⟨c, hmem, hc⟩ := hf
    exact ⟨c, hmem, by simp [hc, Nat.add_right_comm]⟩
  obtain ⟨next, ha, -⟩ := Validator.step_eq_ok_iff.mp m.step_last
  have ho := (Instruction.hasConsistentArity_iff.mp ha.arity).2.1
  rw [m.last_operation] at ho
  obtain ⟨compiled, exports, ho⟩ := List.length_eq_two.mp ho
  obtain ⟨w₂, hw₂⟩ : ∃ w₂, l.module
      (if comments then w₁.emit ("// " ++ m.last.text) else w₁) c m.last = .ok w₂ := by
    rw [module, ho]
    exact ⟨_, rfl⟩
  have hlast : l.step comments ⟨w₁, true, modules⟩ (index + 1 + m.body.length) m.last =
      .ok ⟨w₂, false, modules⟩ := by
    rw [step, m.last_operation]
    dsimp only
    rw [hc]
    change (do
      let writer ← l.module (if comments then w₁.emit ("// " ++ m.last.text) else w₁) c m.last
      return (⟨writer, false, modules⟩ : Progress)) = _
    rw [hw₂]
    rfl
  refine ⟨w₂, ?_⟩
  rw [ModuleRun.instructions, run, hfirst]
  change l.run comments ⟨_, true, modules⟩ (index + 1) (m.body ++ [m.last]) = _
  rw [run_append hbody, run, hlast]
  rfl

/-- **A script with modules in it** is written if every end of a module finds its module. -/
theorem exists_run {s s' : Validator} {ms : List ModuleRun} (w : ScriptWriter)
    (h : s.Script is ms s')
    (hp : s.scopes.Placed) (hc : ∀ i ∈ is, i.CountSmall)
    (hf : ∀ k ∈ is.findIdxs Instruction.endsModule index, ∃ c ∈ modules, c.last = k) :
    ∃ w', l.run comments ⟨w, false, modules⟩ index is = .ok ⟨w', false, modules⟩ := by
  induction h generalizing w index with
  | nil s => exact ⟨w, rfl⟩
  | @script s a s' i is ms home other head tail ih =>
      have hend : i.operation ≠ .endWasmModule := by
        intro he
        rw [he] at home
        exact nomatch (show World.module = .script from home)
      obtain ⟨hci, hcr⟩ := List.forall_mem_cons.mp hc
      obtain ⟨next, ha, -⟩ := Validator.step_eq_ok_iff.mp head
      obtain ⟨w₁, hw₁⟩ : ∃ w₁, l.instruction
          (if comments then w.emit ("// " ++ i.text) else w) i = .ok w₁ :=
        exists_instruction ha.arity hci home other
      rw [List.findIdxs_cons, if_neg (by simpa [Instruction.endsModule] using hend)] at hf
      obtain ⟨w₂, hw₂⟩ := ih w₁ (Validator.placed_of_step hp head) hcr hf
      refine ⟨w₂, ?_⟩
      rw [run, step_eq other hend]
      change (do
        let p ← (do
          let w ← l.instruction (if comments then w.emit ("// " ++ i.text) else w) i
          return (⟨w, false, modules⟩ : Progress))
        l.run comments p (index + 1) is) = _
      rw [hw₁]
      exact hw₂
  | @module s' is ms m tail ih =>
      rw [List.findIdxs_append, ModuleRun.findIdxs_endsModule hp, List.singleton_append,
        List.forall_mem_cons] at hf
      obtain ⟨w₁, hw₁⟩ := exists_run_module w hp hf.1
      obtain ⟨w₂, hw₂⟩ := ih w₁ (m.steps.placed hp)
        (fun i hi => hc i (List.mem_append_right _ hi)) hf.2
      refine ⟨w₂, ?_⟩
      rw [run_append hw₁]
      exact hw₂

end Lifter

/-! ### Programs -/

lemma Validator.Steps.forM_checkArity {s s' : Validator} {is : List Instruction}
    (h : Steps s is s') : is.forM (·.checkArity) = .ok () := by
  induction h with
  | nil s => rfl
  | cons head _ ih =>
      obtain ⟨next, ha, -⟩ := step_eq_ok_iff.mp head
      change (do let _ ← Instruction.checkArity _; List.forM _ _) = _
      rw [Instruction.checkArity, if_pos ha.arity]
      exact ih

namespace Program

variable {p : Program} {e : Environment}

/-- The text of a script is what was written when all modules were lowered. -/
lemma exists_run_of_lift {comments : Bool} {text : String} (h : p.lift e comments = .ok text) :
    ∃ encoded q, p.encodeModules e = .ok encoded ∧ (Lifter.ofInstructions p.instructions).run
      comments ⟨.empty, false, encoded⟩ 0 p.instructions = .ok q ∧ q.writer.text = text := by
  obtain ⟨-, -, h⟩ := bind_eq_ok_iff.mp h
  obtain ⟨encoded, henc, h⟩ := bind_eq_ok_iff.mp h
  obtain ⟨q, hq, h⟩ := bind_eq_ok_iff.mp h
  exact ⟨encoded, q, henc, hq, Except.ok.inj h⟩

/-- **Accepted programs are lifted.**  All modules of an accepted program are lowered, one for each
instruction that begins a module, in order, and the program is lifted, with comments or without. -/
theorem lift_eq_ok (h : p.validate e = .ok ()) (he : e.IsScriptTyped) (hn : p.NumbersSmall)
    (hc : p.CountsSmall) :
    (∃ encoded, p.encodeModules e = .ok encoded ∧
      encoded.map (·.first) = p.instructions.findIdxs Instruction.beginsModule) ∧
    ∀ comments, ∃ text, p.lift e comments = .ok text := by
  obtain ⟨s, ms, encoded, hms, henc, -, hfirst, hlast⟩ := exists_encodedModules h he hn
  refine ⟨⟨encoded, henc, hfirst⟩, fun comments => ?_⟩
  obtain ⟨w, hw⟩ : ∃ w, (Lifter.ofInstructions p.instructions).run comments
      ⟨.empty, false, encoded⟩ 0 p.instructions = .ok ⟨w, false, encoded⟩ := by
    refine Lifter.exists_run .empty hms Validator.placed_start hc fun k hk => ?_
    rw [← hlast] at hk
    exact List.mem_map.mp hk
  refine ⟨w.text, ?_⟩
  rw [lift, hms.steps.forM_checkArity]
  change (do
    let modules ← p.encodeModules e
    let final ← (Lifter.ofInstructions p.instructions).run comments ⟨.empty, false, modules⟩ 0
      p.instructions
    return final.writer.text) = _
  rw [henc]
  change (do
    let final ← (Lifter.ofInstructions p.instructions).run comments ⟨.empty, false, encoded⟩ 0
      p.instructions
    return final.writer.text) = _
  rw [hw]
  rfl

end Program

theorem lift_ledger :
    (∃ encoded, ledger.encodeModules .script = .ok encoded ∧
      encoded.map (·.first) = ledger.instructions.findIdxs Instruction.beginsModule) ∧
    ∀ comments, ∃ text, ledger.lift .script comments = .ok text := by
  refine Program.lift_eq_ok validate_ledger Environment.isScriptTyped_script
    (by decide) fun i hi n hn => ?_
  fin_cases hi <;> exact nomatch hn

end EngineFuzz
