import Mathlib
import EngineFuzz.Analysis.Validation
import EngineFuzz.Proofs.Result

/-!
# Accepted instructions

The validator goes past one instruction after another.  Here a single step is opened once and for
all, and runs become a relation that can be cut at every instruction.

* `Validator.step_eq_ok_iff`: what an accepted instruction satisfies, as a list of named facts
  (`Validator.Admits`), and the state behind it.
* `Validator.Steps`: the states in front of and behind a list of accepted instructions, with
  `Validator.run_eq_ok_iff` and `Validator.steps_append_iff`.
* `Program.validate_eq_ok_iff`: an accepted program is a run that leaves no block open.
* `Validator.checkFresh_eq_ok`: the variables of an accepted instruction are in order, unless
  their numbers reach the greatest word.
-/

namespace EngineFuzz

/-- A member of two lists is in the second one or in the first one. -/
lemma exists_of_append_eq_append_cons {α : Type} {xs ys before rest : List α} {a : α}
    (h : xs ++ ys = before ++ a :: rest) : (∃ c, before = xs ++ c ∧ ys = c ++ a :: rest) ∨
      ∃ c, xs = before ++ a :: c ∧ rest = c ++ ys := by
  rcases List.append_eq_append_iff.mp h with ⟨c, hb, hys⟩ | ⟨c, hxs, hr⟩
  · exact .inl ⟨c, hb, hys⟩
  · cases c with
    | nil => exact .inl ⟨[], by rw [hxs, List.append_nil, List.append_nil], hr.symm⟩
    | cons b c =>
        obtain ⟨rfl, rfl⟩ := List.cons.inj hr
        exact .inr ⟨c, hxs, rfl⟩

namespace Validator

/-- The greatest word: the number of no variable that is followed by a fresh one. -/
def lastWord : UInt32 := 0xffffffff

/-- What the validator asks of an instruction in a state; `next` is the least fresh word behind
it. -/
structure Admits (s : Validator) (i : Instruction) (next : UInt32) : Prop where
  arity : i.hasConsistentArity = true
  visible : ∀ v ∈ i.inputs, s.scopes.isVisible v = true
  position : s.scopes.check i = .ok ()
  inputs : i.operation.acceptsInputs (inputTypes s.typer i) s.scopes.currentFunction? = true
  fresh : checkFresh s.nextFresh i.definedVariables = .ok next
  ordered : checkImports s.typer i.operation = .ok ()

/-- The checks of an instruction without those of the variables that it defines. -/
lemma checkUse_eq_ok_iff {scopes : ScopeState} {typer : Typer} {i : Instruction} :
    checkUse scopes typer i = .ok () ↔
      i.hasConsistentArity = true ∧ (∀ v ∈ i.inputs, scopes.isVisible v = true) ∧
        scopes.check i = .ok () ∧
        i.operation.acceptsInputs (inputTypes typer i) scopes.currentFunction? = true := by
  unfold checkUse
  cases ha : i.hasConsistentArity with
  | false => simp
  | true =>
      cases hf : i.inputs.find? (!scopes.isVisible ·) with
      | some v =>
          have hv : scopes.isVisible v = false := by simpa using List.find?_some hf
          have hm := List.mem_of_find?_eq_some hf
          simp only [Bool.not_true, Bool.false_eq_true, if_false, throw_bind, reduceCtorEq,
            false_iff]
          rintro ⟨-, hall, -⟩
          rw [hall v hm] at hv
          exact Bool.noConfusion hv
      | none =>
          have hall : ∀ v ∈ i.inputs, scopes.isVisible v = true := by
            simpa using List.find?_eq_none.mp hf
          cases hc : scopes.check i with
          | error e => simp
          | ok u =>
              cases hi : i.operation.acceptsInputs (inputTypes typer i)
                  scopes.currentFunction? with
              | false => simp
              | true => simpa using hall

/-- **An accepted instruction**: the checks that it passes, and the state behind it. -/
theorem step_eq_ok_iff {s s' : Validator} {i : Instruction} :
    s.step i = .ok s' ↔
      ∃ next, s.Admits i next ∧ s' = ⟨s.scopes.apply i, s.typer.apply i, next⟩ := by
  simp only [step, bind_eq_ok_iff, pure_eq_ok_iff]
  constructor
  · rintro ⟨_, hu, next, hf, _, ho, rfl⟩
    obtain ⟨h1, h2, h3, h4⟩ := checkUse_eq_ok_iff.mp hu
    exact ⟨next, ⟨h1, h2, h3, h4, hf, ho⟩, rfl⟩
  · rintro ⟨next, h, rfl⟩
    have hu := checkUse_eq_ok_iff.mpr ⟨h.arity, h.visible, h.position, h.inputs⟩
    exact ⟨(), hu, next, h.fresh, (), h.ordered, rfl⟩

/-- An instruction is accepted where the parts of the state allow it. -/
lemma step_mk {scopes : ScopeState} {typer : Typer} {nextFresh next : UInt32} {i : Instruction}
    (arity : i.hasConsistentArity = true) (visible : ∀ v ∈ i.inputs, scopes.isVisible v = true)
    (position : scopes.check i = .ok ())
    (inputs : i.operation.acceptsInputs (i.inputs.map typer.typeOf) scopes.currentFunction? = true)
    (fresh : checkFresh nextFresh i.definedVariables = .ok next)
    (ordered : checkImports typer i.operation = .ok ()) :
    step ⟨scopes, typer, nextFresh⟩ i = .ok ⟨scopes.apply i, typer.apply i, next⟩ :=
  step_eq_ok_iff.mpr ⟨next, ⟨arity, visible, position, inputs, fresh, ordered⟩, rfl⟩

/-! ### Runs -/

/-- The validator accepts the instructions in the first state and is in the second state behind
them. -/
inductive Steps : Validator → List Instruction → Validator → Prop where
  | nil (s : Validator) : Steps s [] s
  | cons {s m s' : Validator} {i : Instruction} {is : List Instruction}
      (head : s.step i = .ok m) (tail : Steps m is s') : Steps s (i :: is) s'

lemma steps_nil_iff {s s' : Validator} : Steps s [] s' ↔ s' = s :=
  ⟨fun h => by cases h; rfl, fun h => h ▸ .nil s⟩

lemma steps_cons_iff {s s' : Validator} {i : Instruction} {is : List Instruction} :
    Steps s (i :: is) s' ↔ ∃ m, s.step i = .ok m ∧ Steps m is s' := by
  constructor
  · rintro ⟨⟩
    exact ⟨_, ‹_›, ‹_›⟩
  · rintro ⟨m, hm, ht⟩
    exact .cons hm ht

lemma steps_singleton_iff {s s' : Validator} {i : Instruction} :
    Steps s [i] s' ↔ s.step i = .ok s' := by
  simp [steps_cons_iff, steps_nil_iff, eq_comm]

/-- A run can be cut anywhere. -/
lemma steps_append_iff {s s' : Validator} {is js : List Instruction} :
    Steps s (is ++ js) s' ↔ ∃ m, Steps s is m ∧ Steps m js s' := by
  induction is generalizing s with
  | nil => simp [steps_nil_iff]
  | cons i is ih =>
      simp only [List.cons_append, steps_cons_iff, ih]
      constructor
      · rintro ⟨a, ha, b, hb, hjs⟩
        exact ⟨b, ⟨a, ha, hb⟩, hjs⟩
      · rintro ⟨b, ⟨a, ha, hb⟩, hjs⟩
        exact ⟨a, ha, b, hb, hjs⟩

/-- The place from which the instructions are counted shows in errors only. -/
lemma run_eq_ok_iff {s s' : Validator} {index : Nat} {is : List Instruction} :
    s.run index is = .ok s' ↔ Steps s is s' := by
  induction is generalizing s index with
  | nil => simp [run, steps_nil_iff, eq_comm]
  | cons i is ih =>
      rw [run, steps_cons_iff]
      cases hs : s.step i with
      | error e => simp
      | ok m => simp [ih]

/-- The states of a run are determined by its instructions. -/
lemma Steps.unique {s a b : Validator} {is : List Instruction} (ha : Steps s is a)
    (hb : Steps s is b) : a = b := by
  have h : s.run 0 is = .ok a := run_eq_ok_iff.mpr ha
  rw [run_eq_ok_iff.mpr hb] at h
  exact (Except.ok.inj h).symm

/-- Accepted instructions have as many operands as their operations. -/
lemma Steps.hasConsistentArity {s s' : Validator} {is : List Instruction} (h : Steps s is s') :
    ∀ i ∈ is, i.hasConsistentArity = true := by
  induction h with
  | nil s => simp
  | cons head _ ih =>
      obtain ⟨next, ha, -⟩ := step_eq_ok_iff.mp head
      exact List.forall_mem_cons.mpr ⟨ha.arity, ih⟩

end Validator

/-- **An accepted program** is a run from the start that leaves no block open. -/
theorem Program.validate_eq_ok_iff {p : Program} {environment : Environment} :
    p.validate environment = .ok () ↔
      ∃ s, Validator.Steps (.start environment) p.instructions s ∧ s.scopes.blocks = [] := by
  unfold Program.validate
  cases hr : (Validator.start environment).run 0 p.instructions with
  | error e =>
      simp only [reduceCtorEq, false_iff]
      rintro ⟨s, hs, -⟩
      rw [Validator.run_eq_ok_iff.mpr hs] at hr
      exact nomatch hr
  | ok s =>
      have hs := Validator.run_eq_ok_iff.mp hr
      have hd : s.scopes.depth = 0 ↔ s.scopes.blocks = [] := by
        rw [ScopeState.depth, List.length_eq_zero_iff]
      constructor
      · intro h
        refine ⟨s, hs, hd.mp ?_⟩
        by_contra hne
        simp [hne] at h
      · rintro ⟨s', hs', hb⟩
        rw [hs.unique hs'] at hd ⊢
        simp [hd.mpr hb]

/-! ### Fresh variables -/

/-- The number of no variable of the instruction is the greatest word. -/
def Instruction.NumbersSmall (i : Instruction) : Prop :=
  ∀ v ∈ i.definedVariables, v.number < Validator.lastWord

/-- The number of no variable that a program defines is the greatest word. -/
def Program.NumbersSmall (p : Program) : Prop := ∀ i ∈ p.instructions, i.NumbersSmall

instance (i : Instruction) : Decidable i.NumbersSmall :=
  inferInstanceAs (Decidable (∀ v ∈ i.definedVariables, _))

instance (p : Program) : Decidable p.NumbersSmall :=
  inferInstanceAs (Decidable (∀ i ∈ p.instructions, _))

namespace Validator

lemma lt_add_one_of_lt_lastWord {n : UInt32} (h : n < lastWord) : n < n + 1 := by
  rw [UInt32.lt_iff_toNat_lt] at h ⊢
  rw [UInt32.toNat_add]
  simp only [lastWord, UInt32.reduceToNat] at h ⊢
  omega

lemma add_one_le_of_lt {m n : UInt32} (h : m < n) : m + 1 ≤ n := by
  have hn := n.toNat_lt
  rw [UInt32.lt_iff_toNat_lt] at h
  rw [UInt32.le_iff_toNat_le, UInt32.toNat_add]
  simp only [UInt32.reduceToNat]
  omega

/-- Variables that pass the check for freshness have numbers from `first` up to, but not
including, `next`, each greater than the one before. -/
lemma checkFresh_eq_ok {first next : UInt32} {vs : List Variable}
    (h : checkFresh first vs = .ok next) (hs : ∀ v ∈ vs, v.number < lastWord) :
    first ≤ next ∧ (∀ v ∈ vs, first ≤ v.number ∧ v.number < next) ∧
      vs.Pairwise fun v w => v.number < w.number := by
  induction vs generalizing first with
  | nil =>
      simp only [checkFresh, Except.ok.injEq] at h
      simp [h]
  | cons v vs ih =>
      rw [checkFresh] at h
      split at h
      · cases h
      · rename_i hlt
        have hv : v.number < v.number + 1 :=
          lt_add_one_of_lt_lastWord (hs v (List.mem_cons_self ..))
        obtain ⟨hle, hall, hpw⟩ := ih h fun w hw => hs w (List.mem_cons_of_mem _ hw)
        have hfirst : first ≤ v.number := UInt32.not_lt.mp hlt
        refine ⟨?_, ?_, ?_⟩
        · exact UInt32.le_trans hfirst (UInt32.le_trans (UInt32.le_of_lt hv) hle)
        · intro w hw
          rcases List.mem_cons.mp hw with rfl | hw
          · exact ⟨hfirst, UInt32.lt_of_lt_of_le hv hle⟩
          · obtain ⟨h1, h2⟩ := hall w hw
            exact ⟨UInt32.le_trans hfirst (UInt32.le_trans (UInt32.le_of_lt hv) h1), h2⟩
        · refine List.pairwise_cons.mpr ⟨fun w hw => ?_, hpw⟩
          exact UInt32.lt_of_lt_of_le hv (hall w hw).1

end Validator

end EngineFuzz
