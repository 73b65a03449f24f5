import Mathlib
import EngineFuzz.Proofs.Validation.Soundness

/-!
# Variables in scope

What holds of the scopes at every position of an accepted list of instructions, whatever the types
of its variables are.

* `ScopeState.Tracks.apply`, `ScopeState.length_apply`, `ScopeState.mem_of_mem_apply`: the scopes
  behind one instruction.
* `Validator.Regular`: what is in scope is visible, is in one scope and is not fresh; there is one
  scope more than there are open blocks.
* `Validator.Steps.regular`: this holds at every position.
* `Validator.Steps.nodup_definedVariables`: no variable is defined twice.
-/

namespace EngineFuzz

/-- What is in scope is visible, is in one scope and is not fresh. -/
structure Validator.Regular (s : Validator) : Prop where
  tracks : s.scopes.Tracks
  /-- Each open block has a scope, and so has the program. -/
  length : s.scopes.scopes.length = s.scopes.blocks.length + 1
  old : ∀ v ∈ s.scopes.scopes.flatten, v.number < s.nextFresh

namespace ScopeState

variable {s : ScopeState} {i : Instruction}

/-- An instruction that ends a block leaves the scope of the block. -/
lemma length_outside (h : s.scopes.length = s.blocks.length + 1) (hc : s.check i = .ok ()) :
    (s.outside i).scopes.length = (s.outside i).blocks.length + 1 := by
  unfold outside
  cases he : i.operation.isBlockEnd with
  | false => exact h
  | true =>
      obtain ⟨b, bs, hb, -⟩ := exists_cons_of_checkBlockEnd ((check_eq_ok_iff.mp hc).1 he) he
      change s.scopes.tail.length = s.blocks.tail.length + 1
      rw [List.length_tail, h, hb]
      rfl

lemma Tracks.outside (h : s.Tracks) : (s.outside i).Tracks := by
  unfold ScopeState.outside
  split
  · exact h.leave
  · exact h

/-- What is in scope where the outputs are declared was in scope before. -/
lemma mem_of_mem_outside {v : Variable} (h : v ∈ (s.outside i).scopes.flatten) :
    v ∈ s.scopes.flatten := by
  unfold outside at h
  split at h
  · change v ∈ s.scopes.tail.flatten at h
    cases hs : s.scopes with
    | nil =>
        rw [hs] at h
        exact h
    | cons top rest =>
        rw [hs, List.tail_cons] at h
        exact List.mem_append_right _ h
  · exact h

/-- There is always a scope to declare variables in. -/
lemma exists_outside (h : s.scopes.length = s.blocks.length + 1) (hc : s.check i = .ok ()) :
    ∃ top rest, (s.outside i).scopes = top :: rest := by
  have hl := length_outside h hc
  cases hs : (s.outside i).scopes with
  | nil => simp [hs] at hl
  | cons top rest => exact ⟨top, rest, rfl⟩

/-- Each open block has a scope, and so has the program, behind every instruction. -/
lemma length_apply (h : s.scopes.length = s.blocks.length + 1) (hc : s.check i = .ok ()) :
    (s.apply i).scopes.length = (s.apply i).blocks.length + 1 := by
  obtain ⟨top, rest, hs⟩ := exists_outside h hc
  have hlen : (s.declared i).scopes.length = (s.declared i).blocks.length + 1 := by
    rw [declared, blocks_declareAll, ← length_outside h hc, hs, scopes_declareAll hs]
    rfl
  cases hb : i.operation.isBlockStart with
  | false =>
      rw [apply_of_not_isBlockStart hb]
      exact hlen
  | true =>
      rw [apply_of_isBlockStart hb, scopes_enter, blocks_enter, List.length_cons,
        List.length_cons, hlen]

/-- What is in scope behind an instruction was in scope before or is defined by it. -/
lemma mem_of_mem_apply {v : Variable} (h : s.scopes.length = s.blocks.length + 1)
    (hc : s.check i = .ok ()) (hv : v ∈ (s.apply i).scopes.flatten) :
    v ∈ i.definedVariables ∨ v ∈ s.scopes.flatten := by
  obtain ⟨top, rest, hs⟩ := exists_outside h hc
  have hdecl : (s.declared i).scopes = (i.outputs.reverse ++ top) :: rest := scopes_declareAll hs
  have hold : v ∈ (s.declared i).scopes.flatten →
      v ∈ i.definedVariables ∨ v ∈ s.scopes.flatten := by
    intro hv
    rw [hdecl, List.flatten_cons, List.append_assoc, List.mem_append, List.mem_reverse] at hv
    refine hv.imp (List.mem_append_left _) fun hf => mem_of_mem_outside (i := i) ?_
    rw [hs]
    exact hf
  cases hb : i.operation.isBlockStart with
  | false =>
      rw [apply_of_not_isBlockStart hb] at hv
      exact hold hv
  | true =>
      rw [apply_of_isBlockStart hb, scopes_enter, List.flatten_cons, List.mem_append,
        List.mem_reverse] at hv
      exact hv.elim (fun hi => .inl (List.mem_append_right _ hi)) hold

/-- An instruction that defines new variables keeps track of what is visible. -/
theorem Tracks.apply (h : s.Tracks) (hl : s.scopes.length = s.blocks.length + 1)
    (hc : s.check i = .ok ()) (hn : i.definedVariables.Nodup)
    (hd : i.definedVariables.Disjoint s.scopes.flatten) : (s.apply i).Tracks := by
  obtain ⟨hno, hni, hoi⟩ := List.nodup_append'.mp hn
  obtain ⟨top, rest, hs⟩ := exists_outside hl hc
  have hdecl : (s.declared i).scopes = (i.outputs.reverse ++ top) :: rest := scopes_declareAll hs
  have htracks : (s.declared i).Tracks := h.outside.declareAll hs hno fun v hv hf =>
    hd (List.mem_append_left _ hv) (mem_of_mem_outside hf)
  cases hb : i.operation.isBlockStart with
  | false =>
      rw [apply_of_not_isBlockStart hb]
      exact htracks
  | true =>
      rw [apply_of_isBlockStart hb]
      refine htracks.enter hni fun v hv hf => ?_
      rw [hdecl, List.flatten_cons, List.append_assoc, List.mem_append, List.mem_reverse] at hf
      rcases hf with ho | hf
      · exact hoi ho hv
      · refine hd (List.mem_append_right _ hv) (mem_of_mem_outside (i := i) ?_)
        rw [hs]
        exact hf

end ScopeState

namespace Validator

variable {s s' : Validator} {i : Instruction} {is : List Instruction} {next : UInt32}

lemma regular_start {e : Environment} : (start e).Regular where
  tracks := ScopeState.tracks_start
  length := rfl
  old := by simp [start, ScopeState.start]

namespace Regular

lemma disjoint_definedVariables (h : s.Regular) (ha : s.Admits i next) (hn : i.NumbersSmall) :
    i.definedVariables.Disjoint s.scopes.scopes.flatten := by
  intro v hv hf
  exact UInt32.not_lt.mpr ((checkFresh_eq_ok ha.fresh hn).2.1 v hv).1 (h.old v hf)

/-- What is in scope behind an instruction was in scope before or is defined by it. -/
lemma mem_apply (h : s.Regular) (ha : s.Admits i next) {v : Variable}
    (hv : v ∈ (s.scopes.apply i).scopes.flatten) :
    v ∈ i.definedVariables ∨ v ∈ s.scopes.scopes.flatten :=
  ScopeState.mem_of_mem_apply h.length ha.position hv

/-- **The scopes behind an instruction** are as regular as those in front of it. -/
theorem step (h : s.Regular) (ha : s.Admits i next) (hn : i.NumbersSmall) :
    Regular ⟨s.scopes.apply i, s.typer.apply i, next⟩ := by
  obtain ⟨hle, hrange, -⟩ := checkFresh_eq_ok ha.fresh hn
  refine ⟨?_, ScopeState.length_apply h.length ha.position, fun v hv => ?_⟩
  · exact h.tracks.apply h.length ha.position (Sound.nodup_definedVariables ha hn)
      (h.disjoint_definedVariables ha hn)
  · rcases h.mem_apply ha hv with hd | hf
    · exact (hrange v hd).2
    · exact UInt32.lt_of_lt_of_le (h.old v hf) hle

end Regular

/-- **Regularity at every position** of an accepted list of instructions. -/
theorem Steps.regular (hs : Steps s is s') (hn : ∀ i ∈ is, i.NumbersSmall) (h : s.Regular) :
    s'.Regular := by
  induction hs with
  | nil s => exact h
  | cons head tail ih =>
      obtain ⟨next, ha, rfl⟩ := step_eq_ok_iff.mp head
      refine ih (fun i hi => hn i (List.mem_cons_of_mem _ hi)) (h.step ha (hn _ ?_))
      exact List.mem_cons_self ..

/-- What accepted instructions define is fresh in front of them. -/
lemma Steps.fresh_definedVariables (hs : Steps s is s') (hn : ∀ i ∈ is, i.NumbersSmall) :
    ∀ v ∈ is.flatMap (·.definedVariables), s.nextFresh ≤ v.number := by
  induction hs with
  | nil s => simp
  | cons head tail ih =>
      obtain ⟨hi, hrest⟩ := List.forall_mem_cons.mp hn
      obtain ⟨next, ha, rfl⟩ := step_eq_ok_iff.mp head
      obtain ⟨hle, hrange, -⟩ := checkFresh_eq_ok ha.fresh hi
      intro v hv
      rw [List.flatMap_cons, List.mem_append] at hv
      exact hv.elim (fun hv => (hrange v hv).1) fun hv => UInt32.le_trans hle (ih hrest v hv)

lemma Steps.definedVariables_lt (hs : Steps s is s') (hn : ∀ i ∈ is, i.NumbersSmall) :
    ∀ v ∈ is.flatMap (·.definedVariables), v.number < s'.nextFresh := by
  induction hs with
  | nil s => simp
  | cons head tail ih =>
      obtain ⟨hi, hrest⟩ := List.forall_mem_cons.mp hn
      obtain ⟨next, ha, rfl⟩ := step_eq_ok_iff.mp head
      intro v hv
      rw [List.flatMap_cons, List.mem_append] at hv
      rcases hv with hv | hv
      · have hlt := ((checkFresh_eq_ok ha.fresh hi).2.1 v hv).2
        exact UInt32.lt_of_lt_of_le hlt (tail.typeOf_eq hrest).1
      · exact ih hrest v hv

/-- **No variable is defined twice** in an accepted list of instructions. -/
theorem Steps.nodup_definedVariables (hs : Steps s is s') (hn : ∀ i ∈ is, i.NumbersSmall) :
    (is.flatMap (·.definedVariables)).Nodup := by
  induction hs with
  | nil s => exact List.nodup_nil
  | cons head tail ih =>
      obtain ⟨hi, hrest⟩ := List.forall_mem_cons.mp hn
      obtain ⟨next, ha, rfl⟩ := step_eq_ok_iff.mp head
      obtain ⟨-, hrange, -⟩ := checkFresh_eq_ok ha.fresh hi
      rw [List.flatMap_cons]
      refine List.nodup_append'.mpr ⟨Sound.nodup_definedVariables ha hi, ih hrest, ?_⟩
      exact fun v hv hv' =>
        UInt32.not_lt.mpr (tail.fresh_definedVariables hrest v hv') (hrange v hv).2

end Validator

end EngineFuzz
