import Mathlib
import EngineFuzz.Proofs.Validation.FunctionEnds
import EngineFuzz.Proofs.Validation.Freshness
import EngineFuzz.Proofs.Validation.Nesting

/-!
# Lexical scopes

Blocks are named by the positions of the instructions that open them.  A variable that an accepted
program reads was declared by an earlier instruction, and the blocks around its declaration are
still open.

* `Instruction.blocksOutside`, `Instruction.blocksBehind`, `openBlocks`: the blocks around a
  position of a list of instructions.
* `DeclaredIn`: where a list of instructions declares a variable.
* `ScopeState.Lexical`: what is visible was declared in the open blocks, with
  `Validator.Steps.lexical`.
* `Program.well_scoped`: the main statement.
-/

namespace EngineFuzz

/-- The blocks in which an instruction declares its outputs: the blocks around it, but not the one
that it ends. -/
def Instruction.blocksOutside (i : Instruction) (around : List Nat) : List Nat :=
  if i.operation.isBlockEnd then around.tail else around

/-- The blocks around what follows the instruction at a position. -/
def Instruction.blocksBehind (i : Instruction) (position : Nat) (around : List Nat) : List Nat :=
  if i.operation.isBlockStart then position :: i.blocksOutside around else i.blocksOutside around

/-- The blocks that are open behind some instructions, the innermost first. -/
def openBlocks (is : List Instruction) : List Nat :=
  is.zipIdx.foldl (fun around p => p.1.blocksBehind p.2 around) []

/-- An instruction of the list declares the variable in these blocks. -/
def DeclaredIn (is : List Instruction) (around : List Nat) (v : Variable) : Prop :=
  ∃ n j, is[n]? = some j ∧
    (v ∈ j.outputs ∧ j.blocksOutside (openBlocks (is.take n)) = around ∨
      v ∈ j.innerOutputs ∧ n :: j.blocksOutside (openBlocks (is.take n)) = around)

variable {is : List Instruction} {i : Instruction} {v : Variable} {around : List Nat}

lemma openBlocks_append_singleton :
    openBlocks (is ++ [i]) = i.blocksBehind is.length (openBlocks is) := by
  simp [openBlocks, List.zipIdx_append]

/-- A block that is open was open in front of the latest instruction, unless this opened it. -/
lemma Instruction.mem_blocksOutside_of_ne {position b : Nat}
    (h : b ∈ i.blocksBehind position around) (hb : b ≠ position) : b ∈ i.blocksOutside around := by
  unfold blocksBehind at h
  split at h
  · exact (List.mem_cons.mp h).resolve_left hb
  · exact h

lemma Instruction.mem_of_mem_blocksOutside {b : Nat} (h : b ∈ i.blocksOutside around) :
    b ∈ around := by
  unfold blocksOutside at h
  split at h
  · exact List.mem_of_mem_tail h
  · exact h

lemma DeclaredIn.append (h : DeclaredIn is around v) (js : List Instruction) :
    DeclaredIn (is ++ js) around v := by
  obtain ⟨n, j, hj, hv⟩ := h
  have hn : n < is.length := (List.getElem?_eq_some_iff.mp hj).1
  refine ⟨n, j, by rw [List.getElem?_append_left hn, hj], ?_⟩
  rwa [List.take_append_of_le_length hn.le]

lemma declaredIn_outputs (h : v ∈ i.outputs) :
    DeclaredIn (is ++ [i]) (i.blocksOutside (openBlocks is)) v :=
  ⟨is.length, i, by simp, .inl ⟨h, by simp⟩⟩

lemma declaredIn_innerOutputs (h : v ∈ i.innerOutputs) :
    DeclaredIn (is ++ [i]) (is.length :: i.blocksOutside (openBlocks is)) v :=
  ⟨is.length, i, by simp, .inr ⟨h, by simp⟩⟩

/-- The longest tail of a list is the list. -/
lemma tails_eq : around.tails = around :: around.tails.tail := by
  cases around <;> rfl

/-! ### The scopes of open blocks -/

/-- Each open block has a scope, whose variables were declared in it, and what is visible is in one
of the scopes. -/
structure ScopeState.Lexical (s : ScopeState) (is : List Instruction) : Prop where
  length : s.scopes.length = s.blocks.length + 1
  places : List.Forall₂ (fun around scope => ∀ v ∈ scope, DeclaredIn is around v)
    (openBlocks is).tails s.scopes
  visible : ∀ v, s.isVisible v = true → v ∈ s.scopes.flatten

namespace ScopeState

variable {s s' : ScopeState}

lemma lexical_start : start.Lexical [] where
  length := rfl
  places := .cons (by simp) .nil
  visible v h := by simp [start, isVisible] at h

/-- The scopes behind the block that an instruction ends. -/
lemma Lexical.outside (h : s.Lexical is) (hc : s.check i = .ok ()) :
    List.Forall₂ (fun around scope => ∀ v ∈ scope, DeclaredIn is around v)
      (i.blocksOutside (openBlocks is)).tails (s.outside i).scopes ∧
    ∀ v, (s.outside i).isVisible v = true → v ∈ (s.outside i).scopes.flatten := by
  cases he : i.operation.isBlockEnd with
  | false =>
      rw [outside_of_not_isBlockEnd he, Instruction.blocksOutside, he, if_neg Bool.false_ne_true]
      exact ⟨h.places, h.visible⟩
  | true =>
      obtain ⟨b, bs, hb, -⟩ := exists_cons_of_checkBlockEnd ((check_eq_ok_iff.mp hc).1 he) he
      have hl := h.length
      have hd := h.places
      rw [outside_of_isBlockEnd he, Instruction.blocksOutside, if_pos he]
      cases ho : openBlocks is with
      | nil =>
          -- a block is open, so that there are two scopes at least
          have := hd.length_eq
          rw [ho, hl, hb] at this
          simp at this
      | cons n around =>
          rw [ho, List.tails_cons, List.forall₂_cons_left_iff] at hd
          obtain ⟨top, rest, -, hrest, hs⟩ := hd
          have hleave : s.leave.scopes = rest := by rw [ScopeState.leave, hs, List.tail_cons]
          rw [hleave]
          refine ⟨hrest, fun v hv => ?_⟩
          obtain ⟨hn, hv⟩ := isVisible_leave.mp hv
          have hv := h.visible v hv
          rw [hs, List.headD_cons] at hn
          rw [hs, List.flatten_cons, List.mem_append] at hv
          exact hv.resolve_left hn

/-- **One instruction** declares its variables in the blocks around it. -/
theorem Lexical.apply (h : s.Lexical is) (hc : s.check i = .ok ()) :
    (s.apply i).Lexical (is ++ [i]) := by
  obtain ⟨hout, hvis⟩ := h.outside hc
  obtain ⟨top, rest, hs⟩ := exists_outside h.length hc
  have hdecl : (s.declared i).scopes = (i.outputs.reverse ++ top) :: rest := scopes_declareAll hs
  -- behind the outputs
  have hdeclared : List.Forall₂ (fun around scope => ∀ v ∈ scope, DeclaredIn (is ++ [i]) around v)
      (i.blocksOutside (openBlocks is)).tails (s.declared i).scopes := by
    have hgrow := hout.imp fun _ _ h v hv => (h v hv).append [i]
    rw [hs, tails_eq, List.forall₂_cons] at hgrow
    rw [hdecl, tails_eq]
    refine .cons (fun v hv => ?_) hgrow.2
    rw [List.mem_append, List.mem_reverse] at hv
    exact hv.elim declaredIn_outputs (hgrow.1 v)
  have hvisible : ∀ v, (s.declared i).isVisible v = true → v ∈ (s.declared i).scopes.flatten := by
    intro v hv
    rw [declared, isVisible_declareAll] at hv
    rw [hdecl, List.flatten_cons, List.append_assoc, List.mem_append, List.mem_reverse]
    refine hv.imp_right fun hv => ?_
    have := hvis v hv
    rwa [hs, List.flatten_cons] at this
  refine ⟨length_apply h.length hc, ?_, ?_⟩
  · rw [openBlocks_append_singleton, Instruction.blocksBehind]
    cases hb : i.operation.isBlockStart with
    | false =>
        rw [apply_of_not_isBlockStart hb, if_neg Bool.false_ne_true]
        exact hdeclared
    | true =>
        rw [apply_of_isBlockStart hb, scopes_enter, if_pos rfl, List.tails_cons]
        exact .cons (fun v hv => declaredIn_innerOutputs (List.mem_reverse.mp hv)) hdeclared
  · intro v hv
    cases hb : i.operation.isBlockStart with
    | false =>
        rw [apply_of_not_isBlockStart hb] at hv ⊢
        exact hvisible v hv
    | true =>
        rw [apply_of_isBlockStart hb, isVisible_enter] at hv
        rw [apply_of_isBlockStart hb, scopes_enter, List.flatten_cons, List.mem_append,
          List.mem_reverse]
        exact hv.imp_right (hvisible v)

/-- What is visible was declared in blocks that are open. -/
lemma Lexical.exists_declaredIn (h : s.Lexical is) (hv : s.isVisible v = true) :
    ∃ around, around <:+ openBlocks is ∧ DeclaredIn is around v := by
  obtain ⟨scope, hs, hv⟩ := List.mem_flatten.mp (h.visible v hv)
  obtain ⟨n, hn, rfl⟩ := List.mem_iff_getElem.mp hs
  have hn' : n < (openBlocks is).tails.length := by rwa [h.places.length_eq]
  refine ⟨(openBlocks is).tails[n], ?_, ?_⟩
  · exact (List.mem_tails _ _).mp (List.getElem_mem hn')
  · exact h.places.get hn' hn v hv

end ScopeState

namespace Validator

variable {s s' : Validator}

/-- What is visible at a position of an accepted list of instructions was declared in blocks that
are open there. -/
lemma Steps.lexical {js : List Instruction} (hs : Steps s js s') (h : s.scopes.Lexical is) :
    s'.scopes.Lexical (is ++ js) := by
  induction hs generalizing is with
  | nil s => rwa [List.append_nil]
  | cons head tail ih =>
      obtain ⟨next, ha, rfl⟩ := step_eq_ok_iff.mp head
      rw [List.append_cons]
      exact ih (h.apply ha.position)

end Validator

/-- What is visible behind instructions that define new variables only is tracked. -/
lemma ScopeState.tracks_of_run {s s' : ScopeState} (hr : s.run is = .ok s') (h : s.Tracks)
    (hl : s.scopes.length = s.blocks.length + 1)
    (hn : (is.flatMap (·.definedVariables)).Nodup)
    (hd : (is.flatMap (·.definedVariables)).Disjoint s.scopes.flatten) : s'.Tracks := by
  induction is generalizing s with
  | nil => exact Except.ok.inj hr ▸ h
  | cons i is ih =>
      obtain ⟨hc, hr⟩ := run_cons_eq_ok_iff.mp hr
      rw [List.flatMap_cons] at hn hd
      obtain ⟨hni, hnis, hdis⟩ := List.nodup_append'.mp hn
      obtain ⟨hdi, hds⟩ := List.disjoint_append_left.mp hd
      refine ih hr (h.apply hl hc hni hdi) (length_apply hl hc) hnis fun v hv hf => ?_
      rcases mem_of_mem_apply hl hc hf with hi | hf
      · exact hdis hi hv
      · exact hds hv hf

/-- **Accepted programs are well scoped.**  Every variable that an instruction reads was declared by
an earlier one, and the blocks around the declaration are still open; if the variables that checked
instructions define are distinct, then exactly those that are listed are visible, and none is
listed twice. -/
theorem Program.well_scoped :
    (∀ (p : Program) (environment : Environment), p.validate environment = .ok () →
      ∀ (n : Nat) (i : Instruction), p.instructions[n]? = some i → ∀ v ∈ i.inputs,
        ∃ (m : Nat) (j : Instruction), m < n ∧ p.instructions[m]? = some j ∧
          (v ∈ j.outputs ∧ j.blocksOutside (openBlocks (p.instructions.take m)) <:+
              openBlocks (p.instructions.take n) ∨
            v ∈ j.innerOutputs ∧ m :: j.blocksOutside (openBlocks (p.instructions.take m)) <:+
              openBlocks (p.instructions.take n))) ∧
      ∀ (is : List Instruction) (s : ScopeState), ScopeState.start.run is = .ok s →
        (is.flatMap (·.definedVariables)).Nodup →
          (∀ v, s.isVisible v = true ↔ v ∈ s.visibleVariables) ∧ s.visibleVariables.Nodup := by
  refine ⟨fun p environment hp n i hi v hv => ?_, fun is s hr hn => ?_⟩
  · obtain ⟨s, hsteps, -⟩ := Program.validate_eq_ok_iff.mp hp
    obtain ⟨hn, rfl⟩ := List.getElem?_eq_some_iff.mp hi
    rw [← List.take_append_drop n p.instructions, List.drop_eq_getElem_cons hn] at hsteps
    obtain ⟨a, ha, hrest⟩ := Validator.steps_append_iff.mp hsteps
    obtain ⟨b, hb, -⟩ := Validator.steps_cons_iff.mp hrest
    obtain ⟨next, hadm, -⟩ := Validator.step_eq_ok_iff.mp hb
    have hlex := ha.lexical ScopeState.lexical_start
    rw [List.nil_append] at hlex
    obtain ⟨around, hsuffix, m, j, hj, hdecl⟩ := hlex.exists_declaredIn (hadm.visible v hv)
    have hm : m < n := by
      have := (List.getElem?_eq_some_iff.mp hj).1
      rw [List.length_take] at this
      omega
    rw [List.getElem?_take_of_lt hm] at hj
    rw [List.take_take, Nat.min_eq_left hm.le] at hdecl
    refine ⟨m, j, hm, hj, hdecl.imp (fun h => ⟨h.1, ?_⟩) fun h => ⟨h.1, ?_⟩⟩
    · rw [h.2]
      exact hsuffix
    · rw [h.2]
      exact hsuffix
  · have h : s.Tracks := ScopeState.tracks_of_run hr ScopeState.tracks_start rfl hn (by
      simp [ScopeState.start])
    rw [ScopeState.visibleVariables]
    exact ⟨fun v => by rw [List.mem_reverse, h.visible], List.nodup_reverse.mpr h.distinct⟩

/-- The parameter that the function of a program adds one to is in scope, and so is all that is
listed as visible behind the function. -/
theorem well_scoped_successor :
    (∃ (m : Nat) (j : Instruction), m < 3 ∧ successor.instructions[m]? = some j ∧
      (⟨0⟩ ∈ j.outputs ∧ j.blocksOutside (openBlocks (successor.instructions.take m)) <:+
          openBlocks (successor.instructions.take 3) ∨
        ⟨0⟩ ∈ j.innerOutputs ∧ m :: j.blocksOutside (openBlocks (successor.instructions.take m)) <:+
          openBlocks (successor.instructions.take 3))) ∧
      ∃ s, ScopeState.start.run (successor.instructions.take 6) = .ok s ∧
        (∀ v, s.isVisible v = true ↔ v ∈ s.visibleVariables) ∧ s.visibleVariables.Nodup := by
  obtain ⟨hinputs, hvisible⟩ := Program.well_scoped
  refine ⟨hinputs successor .script (validate_successor .script) 3 _ rfl ⟨0⟩ (by decide), ?_⟩
  exact ⟨_, rfl, hvisible (successor.instructions.take 6) _ rfl (by decide)⟩

end EngineFuzz
