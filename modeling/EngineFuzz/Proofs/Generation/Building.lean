import Mathlib
import EngineFuzz.Generation.Builder
import EngineFuzz.Proofs.Validation.Freshness

/-!
# Programs under construction

A builder keeps the scopes and types that the validator has at the end of the program, so that an
instruction that the validator admits there leaves the program well formed.  The builder checks each
instruction when it is appended and reports the first fault in the end; the validator checks a whole
program and stops at the first fault.  Both come to the same verdict about every list of emitted
instructions.

* `Builder.validator`, `Builder.Clean`: what the validator knows at the end of the program, and
  that it has accepted all of it.
* `Builder.Takes`: what an operation and its inputs have to satisfy to be appended with fresh
  outputs, with `Builder.Clean.emit`.
* `Builder.Clean.finalize`: a clean builder without open blocks gives a program.
* `Builder.InStep`: builder and validator agree on the instructions so far, with
  `Builder.InStep.emit` and `Builder.InStep.mapM_emit`.
* `Builder.InStep.verdict_iff`: the builder has found no fault and no block is open exactly if the
  program is accepted.
* `Builder.finalize_emitted_iff`: the main statement.
-/

namespace EngineFuzz

namespace Builder

variable {b : Builder} {i : Instruction} {op : Operation} {inputs vs : List Variable}
  {first next : UInt32} {m n : Nat}

/-- What the validator knows at the end of the program. -/
def validator (b : Builder) : Validator := ⟨b.scopes, b.typer, b.nextVariable⟩

/-- The validator accepts all instructions, and nothing else has gone wrong. -/
structure Clean (b : Builder) : Prop where
  flawless : b.problem? = none
  accepted : Validator.Steps (.start b.toolbox.environment) b.instructions.toList b.validator

lemma clean_start {toolbox : Toolbox} {words : WordSource} : (start toolbox words).Clean where
  flawless := rfl
  accepted := .nil _

/-! ### Appending -/

lemma problem?_append :
    (b.append i).problem? = b.problem?.or ((b.fault? i).map (.instruction i)) := rfl

lemma toList_instructions_append :
    (b.append i).instructions.toList = b.instructions.toList ++ [i] := by
  change (b.instructions.push i).toList = _
  rw [Array.toList_push]

/-- The builder counts as far as the validator does. -/
lemma nextAfter_eq (h : Validator.checkFresh first vs = .ok next) :
    nextAfter first vs = next := by
  induction vs generalizing first with
  | nil => exact Except.ok.inj h
  | cons v vs ih =>
      rw [Validator.checkFresh] at h
      split at h
      · cases h
      · rename_i hlt
        have hle : first ≤ v.number := UInt32.not_lt.mp hlt
        have := ih h
        rw [nextAfter] at this
        rw [nextAfter, List.foldl_cons, if_pos hle, this]

lemma fault?_eq_none (ha : b.validator.Admits i next) : b.fault? i = none := by
  have hu : Validator.checkUse b.scopes b.typer i = .ok () :=
    Validator.checkUse_eq_ok_iff.mpr ⟨ha.arity, ha.visible, ha.position, ha.inputs⟩
  have ho : Validator.checkImports b.typer i.operation = .ok () := ha.ordered
  rw [fault?, hu, ho]

/-- What the validator knows behind an instruction that it admits. -/
lemma validator_append (ha : b.validator.Admits i next) :
    (b.append i).validator = ⟨b.scopes.apply i, b.typer.apply i, next⟩ := by
  change (⟨b.scopes.apply i, b.typer.apply i, nextAfter b.nextVariable i.definedVariables⟩ :
    Validator) = _
  have hn : nextAfter b.nextVariable i.definedVariables = next := nextAfter_eq ha.fresh
  rw [hn]

/-- **An admitted instruction** leaves the program well formed. -/
theorem Clean.append (h : b.Clean) (ha : b.validator.Admits i next) : (b.append i).Clean where
  flawless := by rw [problem?_append, h.flawless, fault?_eq_none ha]; rfl
  accepted := by
    rw [toList_instructions_append, validator_append ha]
    refine Validator.steps_append_iff.mpr ⟨b.validator, h.accepted, ?_⟩
    exact Validator.steps_singleton_iff.mpr (Validator.step_eq_ok_iff.mpr ⟨next, ha, rfl⟩)

/-! ### Fresh variables -/

@[simp] lemma length_freshVariables : (freshVariables first n).length = n := by
  simp [freshVariables]

lemma add_toUInt32_succ : first + (n + 1).toUInt32 = first + 1 + n.toUInt32 := by
  rw [Nat.toUInt32_eq, Nat.toUInt32_eq, UInt32.ofNat_add, UInt32.add_comm (.ofNat n),
    UInt32.add_assoc]
  rfl

lemma freshVariables_succ :
    freshVariables first (n + 1) = ⟨first⟩ :: freshVariables (first + 1) n := by
  rw [freshVariables, List.range_succ_eq_map, List.map_cons, List.map_map, freshVariables]
  congr 1
  · simp
  · exact List.map_congr_left fun k _ => congrArg _ add_toUInt32_succ

lemma freshVariables_add : freshVariables first (m + n) =
    freshVariables first m ++ freshVariables (first + m.toUInt32) n := by
  induction m generalizing first with
  | zero => simp [freshVariables]
  | succ m ih =>
      rw [Nat.add_right_comm, freshVariables_succ, ih, freshVariables_succ, List.cons_append,
        add_toUInt32_succ]

/-- Fresh variables pass the check for freshness. -/
lemma checkFresh_freshVariables :
    Validator.checkFresh first (freshVariables first n) = .ok (first + n.toUInt32) := by
  induction n generalizing first with
  | zero => simp [freshVariables, Validator.checkFresh]
  | succ n ih =>
      rw [freshVariables_succ, Validator.checkFresh, if_neg (UInt32.lt_irrefl _), ih,
        add_toUInt32_succ]

/-- The instruction that an operation is appended as. -/
def emitted (b : Builder) (op : Operation) (inputs : List Variable) : Instruction :=
  (b.emit op inputs).1

lemma emit_eq : b.emit op inputs = (b.emitted op inputs, b.append (b.emitted op inputs)) := rfl

lemma definedVariables_emitted : (b.emitted op inputs).definedVariables =
    freshVariables b.nextVariable (op.numOutputs + op.numInnerOutputs) :=
  freshVariables_add.symm

/-- What the validator asks of an operation with fresh outputs. -/
structure Takes (b : Builder) (op : Operation) (inputs : List Variable) : Prop where
  count : inputs.length = op.numInputs
  visible : ∀ v ∈ inputs, b.scopes.isVisible v = true
  position : b.scopes.check (b.emitted op inputs) = .ok ()
  inputTypes : op.acceptsInputs (inputs.map b.typeOf) b.scopes.currentFunction? = true
  ordered : Validator.checkImports b.typer op = .ok ()

lemma hasConsistentArity_emitted (h : inputs.length = op.numInputs) :
    (b.emitted op inputs).hasConsistentArity = true :=
  Instruction.hasConsistentArity_iff.mpr ⟨h, length_freshVariables, length_freshVariables⟩

lemma Takes.admits (h : b.Takes op inputs) : b.validator.Admits (b.emitted op inputs)
    (b.nextVariable + (op.numOutputs + op.numInnerOutputs).toUInt32) where
  arity := hasConsistentArity_emitted h.count
  visible := h.visible
  position := h.position
  inputs := h.inputTypes
  fresh := by
    rw [definedVariables_emitted]
    exact checkFresh_freshVariables
  ordered := h.ordered

/-- **Appending an operation** that fits leaves the program well formed. -/
theorem Clean.emit (h : b.Clean) (ht : b.Takes op inputs) : (b.emit op inputs).2.Clean :=
  h.append ht.admits

/-! ### The end -/

/-- **A clean builder** without open blocks gives its program, which is accepted. -/
theorem Clean.finalize (h : b.Clean) (hb : b.scopes.blocks = []) :
    b.finalize = (.ok (.ofInstructions b.instructions.toList), b.reset) ∧
      (Program.ofInstructions b.instructions.toList).validate b.toolbox.environment = .ok () := by
  have hv : (Program.ofInstructions b.instructions.toList).validate b.toolbox.environment =
      .ok () := Program.validate_eq_ok_iff.mpr ⟨b.validator, h.accepted, hb⟩
  have hd : b.scopes.depth = 0 := by rw [ScopeState.depth, hb, List.length_nil]
  refine ⟨?_, hv⟩
  rw [Builder.finalize, h.flawless]
  simp only [hd, ne_eq, not_true_eq_false, if_false, hv]

/-! ### Checking while building -/

variable {calls : List (Operation × List Variable)}

/-- No fault means that the checks of the validator for anything but fresh variables are passed. -/
lemma fault?_eq_none_iff : b.fault? i = none ↔
    Validator.checkUse b.scopes b.typer i = .ok () ∧
      Validator.checkImports b.typer i.operation = .ok () := by
  unfold fault?
  cases Validator.checkUse b.scopes b.typer i <;>
    cases Validator.checkImports b.typer i.operation <;> simp

/-- Fresh variables leave nothing but the checks of the builder to the validator. -/
lemma exists_admits_emitted_iff :
    (∃ next, b.validator.Admits (b.emitted op inputs) next) ↔
      b.fault? (b.emitted op inputs) = none := by
  constructor
  · rintro ⟨next, ha⟩
    exact fault?_eq_none ha
  · intro h
    obtain ⟨hu, ordered⟩ := fault?_eq_none_iff.mp h
    obtain ⟨arity, visible, position, types⟩ := Validator.checkUse_eq_ok_iff.mp hu
    refine ⟨b.nextVariable + (op.numOutputs + op.numInnerOutputs).toUInt32, arity, visible,
      position, types, ?_, ordered⟩
    rw [definedVariables_emitted]
    exact checkFresh_freshVariables

/-- The builder has found a fault exactly if the validator does not accept the instructions so
far. -/
structure InStep (b : Builder) : Prop where
  clean : b.problem? = none → b.Clean
  flawed : b.problem? ≠ none →
    ∀ s, ¬Validator.Steps (.start b.toolbox.environment) b.instructions.toList s

lemma inStep_start {toolbox : Toolbox} {words : WordSource} : (start toolbox words).InStep where
  clean _ := clean_start
  flawed h := absurd rfl h

/-- **One emitted instruction** is judged alike. -/
theorem InStep.emit (h : b.InStep) : (b.emit op inputs).2.InStep := by
  rw [emit_eq]
  cases hp : b.problem? with
  | some problem =>
      -- a fault is never taken back, and what goes on a list that is refused is refused
      have hp' : (b.append (b.emitted op inputs)).problem? = some problem := by
        rw [problem?_append, hp]
        rfl
      refine ⟨fun hn => ?_, fun _ s hs => ?_⟩
      · rw [hp'] at hn
        exact nomatch hn
      · rw [toList_instructions_append] at hs
        obtain ⟨m, hm, -⟩ := Validator.steps_append_iff.mp hs
        exact h.flawed (by simp [hp]) m hm
  | none =>
      have hclean := h.clean hp
      refine ⟨fun hn => ?_, fun hn s hs => hn ?_⟩
      · rw [problem?_append, hp, Option.none_or, Option.map_eq_none_iff] at hn
        obtain ⟨next, ha⟩ := exists_admits_emitted_iff.mpr hn
        exact hclean.append ha
      · rw [toList_instructions_append] at hs
        obtain ⟨m, hm, hi⟩ := Validator.steps_append_iff.mp hs
        obtain rfl := hm.unique hclean.accepted
        obtain ⟨next, ha, -⟩ := Validator.step_eq_ok_iff.mp (Validator.steps_singleton_iff.mp hi)
        rw [problem?_append, hp, fault?_eq_none ha]
        rfl

/-- **Emitted instructions** are judged alike, and they are what is appended.  Each has the
operation and the inputs of its call. -/
theorem InStep.mapM_emit (h : b.InStep) :
    let r := (calls.mapM fun c => Build.emit c.1 c.2) b
    r.2.InStep ∧ r.2.toolbox = b.toolbox ∧
      r.2.instructions.toList = b.instructions.toList ++ r.1 ∧
      List.Forall₂ (fun c i => i.operation = c.1 ∧ i.inputs = c.2) calls r.1 := by
  induction calls generalizing b with
  | nil => exact ⟨h, rfl, (List.append_nil _).symm, .nil⟩
  | cons c calls ih =>
      have hc : (b.emit c.1 c.2).2.InStep := h.emit
      obtain ⟨hr, ht, hi, hcalls⟩ := ih hc
      rw [List.mapM_cons]
      refine ⟨hr, ht, hi.trans ?_, .cons ⟨rfl, rfl⟩ hcalls⟩
      rw [emit_eq, toList_instructions_append, List.append_assoc]
      rfl

/-- **The verdict of the builder** is that of the validator. -/
theorem InStep.verdict_iff (h : b.InStep) : b.problem? = none ∧ b.scopes.depth = 0 ↔
    (Program.ofInstructions b.instructions.toList).validate b.toolbox.environment = .ok () := by
  constructor
  · rintro ⟨hp, hd⟩
    exact ((h.clean hp).finalize (List.length_eq_zero_iff.mp hd)).2
  · intro hv
    obtain ⟨s, hs, hb⟩ := Program.validate_eq_ok_iff.mp hv
    by_cases hp : b.problem? = none
    · rw [hs.unique (h.clean hp).accepted] at hb
      exact ⟨hp, List.length_eq_zero_iff.mpr hb⟩
    · exact absurd hs (h.flawed hp s)

/-- A finished program is what was appended, and is accepted. -/
lemma of_finalize_eq_ok {p : Program} (h : b.finalize.1 = .ok p) :
    p = .ofInstructions b.instructions.toList ∧ p.validate b.toolbox.environment = .ok () := by
  unfold finalize at h
  dsimp only at h
  split at h
  · exact nomatch h
  · split at h
    · exact nomatch h
    · split at h
      · exact nomatch h
      · rename_i hv
        obtain rfl := Except.ok.inj h
        exact ⟨rfl, hv⟩

/-- A builder that has met a problem returns no program. -/
lemma problem?_of_finalize {p : Program} (h : b.finalize.1 = .ok p) : b.problem? = none := by
  cases hp : b.problem? with
  | none => rfl
  | some problem => simp [finalize, hp] at h

/-- **Checking while building agrees with checking in the end.**  Instructions that are emitted from
the start on, with the operations and inputs that are asked for, are returned as a program exactly
if the validator accepts them, and the checks of the builder alone come to the same verdict. -/
theorem finalize_emitted_iff (toolbox : Toolbox) (words : WordSource)
    (calls : List (Operation × List Variable)) :
    let r := (calls.mapM fun c => Build.emit c.1 c.2) (start toolbox words)
    List.Forall₂ (fun c i => i.operation = c.1 ∧ i.inputs = c.2) calls r.1 ∧
    (∀ p, r.2.finalize.1 = .ok p ↔
      p = .ofInstructions r.1 ∧ p.validate toolbox.environment = .ok ()) ∧
    (r.2.problem? = none ∧ r.2.scopes.depth = 0 ↔
      (Program.ofInstructions r.1).validate toolbox.environment = .ok ()) := by
  intro r
  obtain ⟨hstep, htoolbox, hemitted, hcalls⟩ :
      r.2.InStep ∧ r.2.toolbox = toolbox ∧ r.2.instructions.toList = r.1 ∧
        List.Forall₂ (fun c i => i.operation = c.1 ∧ i.inputs = c.2) calls r.1 :=
    inStep_start.mapM_emit
  have hverdict := hstep.verdict_iff
  rw [hemitted, htoolbox] at hverdict
  refine ⟨hcalls, fun p => ⟨fun hp => ?_, ?_⟩, hverdict⟩
  · have hfinished := of_finalize_eq_ok hp
    rwa [hemitted, htoolbox] at hfinished
  · rintro ⟨rfl, hv⟩
    obtain ⟨hproblem, hdepth⟩ := hverdict.mpr hv
    rw [((hstep.clean hproblem).finalize (List.length_eq_zero_iff.mp hdepth)).1, hemitted]

end Builder

end EngineFuzz
