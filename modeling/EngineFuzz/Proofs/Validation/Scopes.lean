import Mathlib
import EngineFuzz.Analysis.Scope

/-!
# Scopes behind an instruction

An instruction leaves a block, declares its outputs and enters a block, as far as it does each of
these.  What is visible is kept beside the scopes that determine it.

* `ScopeState.outside`, `ScopeState.scopes_apply`, `ScopeState.blocks_apply`: the state behind an
  instruction.
* `ScopeState.Tracks`: the visible variables are those of the scopes, with
  `ScopeState.Tracks.leave`, `ScopeState.Tracks.declareAll` and `ScopeState.Tracks.enter`.
-/

namespace EngineFuzz

namespace ScopeState

variable {s : ScopeState} {i : Instruction} {v : Variable} {vs top : List Variable}
  {rest : List (List Variable)}

/-! ### Declarations -/

lemma declareAll_cons : s.declareAll (v :: vs) = (s.declare v).declareAll vs := rfl

@[simp] lemma declareAll_nil : s.declareAll [] = s := rfl

@[simp] lemma contexts_declareAll : (s.declareAll vs).contexts = s.contexts := by
  induction vs generalizing s with
  | nil => rfl
  | cons v vs ih => rw [declareAll_cons, ih, declare]

@[simp] lemma blocks_declareAll : (s.declareAll vs).blocks = s.blocks := by
  induction vs generalizing s with
  | nil => rfl
  | cons v vs ih => rw [declareAll_cons, ih, declare]

lemma scopes_declareAll (h : s.scopes = top :: rest) :
    (s.declareAll vs).scopes = (vs.reverse ++ top) :: rest := by
  induction vs generalizing s top with
  | nil => simpa using h
  | cons v vs ih =>
      have hd : (s.declare v).scopes = (v :: top) :: rest := by simp [declare, h]
      rw [declareAll_cons, ih hd]
      simp

lemma isVisible_declareAll :
    (s.declareAll vs).isVisible v = true ↔ v ∈ vs ∨ s.isVisible v = true := by
  induction vs generalizing s with
  | nil => simp
  | cons u vs ih =>
      rw [declareAll_cons, ih, List.mem_cons]
      have hd : (s.declare u).isVisible v = true ↔ v = u ∨ s.isVisible v = true := by
        simp only [isVisible, declare, Std.TreeSet.contains_insert, Bool.or_eq_true, beq_iff_eq,
          Std.compare_eq_iff_eq, eq_comm (a := v)]
      rw [hd]
      tauto

/-! ### Leaving a block -/

lemma contains_foldl_erase {visible : Std.TreeSet Variable} :
    (vs.foldl (·.erase ·) visible).contains v = true ↔ v ∉ vs ∧ visible.contains v = true := by
  induction vs generalizing visible with
  | nil => simp
  | cons u vs ih =>
      rw [List.foldl_cons, ih, Std.TreeSet.contains_erase, List.mem_cons, not_or]
      simp only [Bool.and_eq_true, bne_iff_ne, ne_eq, Std.compare_eq_iff_eq, eq_comm (a := u)]
      tauto

lemma isVisible_leave :
    s.leave.isVisible v = true ↔ v ∉ s.scopes.headD [] ∧ s.isVisible v = true :=
  contains_foldl_erase

/-! ### Behind an instruction -/

/-- The state in which an instruction declares its outputs: behind the block that it ends, if it
ends one. -/
def outside (s : ScopeState) (i : Instruction) : ScopeState :=
  if i.operation.isBlockEnd then s.leave else s

/-- The state behind the outputs of an instruction. -/
def declared (s : ScopeState) (i : Instruction) : ScopeState :=
  (s.outside i).declareAll i.outputs

/-- The block that an instruction ends. -/
def closed? (s : ScopeState) (i : Instruction) : Option OpenBlock :=
  if i.operation.isBlockEnd then s.blocks.head? else none

/-- The block that an instruction opens. -/
def opened (s : ScopeState) (i : Instruction) : List OpenBlock :=
  if i.operation.isBlockStart then [openedBlock i.operation (s.closed? i)] else []

lemma apply_of_isBlockStart (h : i.operation.isBlockStart = true) :
    s.apply i = (s.declared i).enter i (s.closed? i) := by
  rw [apply, if_pos h]
  rfl

lemma apply_of_not_isBlockStart (h : i.operation.isBlockStart = false) :
    s.apply i = s.declared i := by
  rw [apply, if_neg (by simp [h])]
  rfl

lemma outside_of_isBlockEnd (h : i.operation.isBlockEnd = true) : s.outside i = s.leave := by
  rw [outside, if_pos h]

lemma outside_of_not_isBlockEnd (h : i.operation.isBlockEnd = false) : s.outside i = s := by
  rw [outside, if_neg (by simp [h])]

lemma blocks_declared : (s.declared i).blocks =
    if i.operation.isBlockEnd then s.blocks.tail else s.blocks := by
  rw [declared, blocks_declareAll, outside]
  split <;> rfl

lemma scopes_enter {closed? : Option OpenBlock} :
    (s.enter i closed?).scopes = i.innerOutputs.reverse :: s.scopes := by
  rw [enter]
  exact (scopes_declareAll rfl).trans (by simp)

lemma contexts_enter {closed? : Option OpenBlock} :
    (s.enter i closed?).contexts = i.operation.innerContext s.context :: s.contexts := by
  rw [enter]
  exact contexts_declareAll

lemma blocks_enter {closed? : Option OpenBlock} :
    (s.enter i closed?).blocks = openedBlock i.operation closed? :: s.blocks := by
  rw [enter]
  exact congrArg _ blocks_declareAll

lemma isVisible_enter {closed? : Option OpenBlock} :
    (s.enter i closed?).isVisible v = true ↔ v ∈ i.innerOutputs ∨ s.isVisible v = true := by
  rw [enter]
  exact isVisible_declareAll

/-- The blocks behind an instruction. -/
lemma blocks_apply : (s.apply i).blocks =
    s.opened i ++ if i.operation.isBlockEnd then s.blocks.tail else s.blocks := by
  unfold opened
  cases h : i.operation.isBlockStart with
  | true =>
      rw [apply_of_isBlockStart h, blocks_enter, blocks_declared]
      rfl
  | false =>
      rw [apply_of_not_isBlockStart h, blocks_declared]
      rfl

/-- The scopes behind an instruction. -/
lemma scopes_apply (h : (s.outside i).scopes = top :: rest) : (s.apply i).scopes =
    (if i.operation.isBlockStart then [i.innerOutputs.reverse] else []) ++
      (i.outputs.reverse ++ top) :: rest := by
  have hd : (s.declared i).scopes = (i.outputs.reverse ++ top) :: rest := scopes_declareAll h
  cases hb : i.operation.isBlockStart with
  | true =>
      rw [apply_of_isBlockStart hb, scopes_enter, hd]
      rfl
  | false =>
      rw [apply_of_not_isBlockStart hb, hd]
      rfl

/-- The variables in scope behind an instruction are those that it defines and those in scope where
it declares its outputs. -/
lemma mem_flatten_apply (h : (s.outside i).scopes ≠ [])
    (hi : i.operation.isBlockStart = false → i.innerOutputs = []) :
    v ∈ (s.apply i).scopes.flatten ↔
      v ∈ i.definedVariables ∨ v ∈ (s.outside i).scopes.flatten := by
  obtain ⟨top, rest, hs⟩ := List.exists_cons_of_ne_nil h
  rw [scopes_apply hs, hs, Instruction.definedVariables]
  cases hb : i.operation.isBlockStart with
  | true =>
      simp only [if_true, List.cons_append, List.nil_append, List.flatten_cons, List.mem_append,
        List.mem_reverse]
      tauto
  | false =>
      rw [hi hb]
      simp only [Bool.false_eq_true, if_false, List.nil_append, List.append_nil,
        List.flatten_cons, List.mem_append, List.mem_reverse]
      tauto

/-! ### What is visible -/

lemma isVisible_apply_of_mem (h : v ∈ i.definedVariables)
    (hi : i.operation.isBlockStart = false → i.innerOutputs = []) :
    (s.apply i).isVisible v = true := by
  rw [Instruction.definedVariables, List.mem_append] at h
  cases hb : i.operation.isBlockStart with
  | true =>
      rw [apply_of_isBlockStart hb, isVisible_enter, declared, isVisible_declareAll]
      tauto
  | false =>
      rw [hi hb] at h
      rw [apply_of_not_isBlockStart hb, declared, isVisible_declareAll]
      exact .inl (h.resolve_right List.not_mem_nil)

lemma isVisible_apply_of_isVisible (h : s.isVisible v = true)
    (he : i.operation.isBlockEnd = false) : (s.apply i).isVisible v = true := by
  have hd : (s.declared i).isVisible v = true := by
    rw [declared, outside_of_not_isBlockEnd he, isVisible_declareAll]
    exact .inr h
  cases hb : i.operation.isBlockStart with
  | true =>
      rw [apply_of_isBlockStart hb, isVisible_enter]
      exact .inr hd
  | false =>
      rw [apply_of_not_isBlockStart hb]
      exact hd

/-- The visible variables are those of the scopes, and each of them is in one scope, once. -/
structure Tracks (s : ScopeState) : Prop where
  visible : ∀ v, s.isVisible v = true ↔ v ∈ s.scopes.flatten
  distinct : s.scopes.flatten.Nodup

lemma tracks_start : start.Tracks where
  visible v := by simp [start, isVisible]
  distinct := by simp [start]

lemma Tracks.leave (h : s.Tracks) : s.leave.Tracks := by
  obtain ⟨hv, hd⟩ := h
  have hs : s.leave.scopes = s.scopes.tail := rfl
  cases hc : s.scopes with
  | nil =>
      refine ⟨fun v => ?_, by simp [hs, hc]⟩
      rw [isVisible_leave, hv v, hs, hc]
      simp
  | cons top rest =>
      rw [hc, List.flatten_cons, List.nodup_append'] at hd
      refine ⟨fun v => ?_, by simpa [hs, hc] using hd.2.1⟩
      rw [isVisible_leave, hv v, hs, hc, List.headD_cons, List.flatten_cons, List.mem_append,
        List.tail_cons]
      constructor
      · rintro ⟨hn, ht | hr⟩
        · exact absurd ht hn
        · exact hr
      · exact fun hr => ⟨fun ht => hd.2.2 ht hr, .inr hr⟩

lemma Tracks.declareAll (h : s.Tracks) (hs : s.scopes = top :: rest) (hn : vs.Nodup)
    (hd : vs.Disjoint s.scopes.flatten) : (s.declareAll vs).Tracks := by
  have hsc : (s.declareAll vs).scopes = (vs.reverse ++ top) :: rest := scopes_declareAll hs
  have hf : (s.declareAll vs).scopes.flatten = vs.reverse ++ s.scopes.flatten := by
    rw [hsc, hs]
    simp
  refine ⟨fun v => ?_, ?_⟩
  · rw [isVisible_declareAll, h.visible, hf, List.mem_append, List.mem_reverse]
  · rw [hf, List.nodup_append']
    refine ⟨List.nodup_reverse.mpr hn, h.distinct, fun v hv hw => ?_⟩
    exact hd (List.mem_reverse.mp hv) hw

lemma Tracks.enter (h : s.Tracks) {closed? : Option OpenBlock} (hn : i.innerOutputs.Nodup)
    (hd : i.innerOutputs.Disjoint s.scopes.flatten) : (s.enter i closed?).Tracks := by
  refine ⟨fun v => ?_, ?_⟩
  · rw [isVisible_enter, h.visible, scopes_enter, List.flatten_cons, List.mem_append,
      List.mem_reverse]
  · rw [scopes_enter, List.flatten_cons, List.nodup_append']
    refine ⟨List.nodup_reverse.mpr hn, h.distinct, fun v hv hw => ?_⟩
    exact hd (List.mem_reverse.mp hv) hw

end ScopeState

end EngineFuzz
