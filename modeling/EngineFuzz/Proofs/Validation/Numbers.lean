import Mathlib
import EngineFuzz.Program.Format
import EngineFuzz.Proofs.Validation.Steps

/-!
# The numbers of variables

The validator keeps the word that follows the latest variable, and what a program defines next may
not be below it.  Behind the greatest word comes zero, and from there on every variable is fresh
again.  Without that word numbers only grow.

* `Variable.Precedes`: what the validator asks of two variables that are defined one after the
  other, with `Validator.checkFresh_isOk_iff` and `Validator.Steps.checkFresh`.
* `Validator.summands`: the numbers to which the validator adds one on its way.
* `Program.precedes_nextVariable`: the next variable of a program.
* `Program.numbers_fresh_iff`: numbers are fresh exactly if the greatest word is not among them.
* `recurring`: an accepted program that defines a variable twice.
-/

namespace EngineFuzz

/-- The variables that the program defines, in its order. -/
def Program.definedVariables (p : Program) : List Variable :=
  p.instructions.flatMap (·.definedVariables)

/-- The first variable is followed by the second one, or by any variable if its number is the
greatest word. -/
def Variable.Precedes (v w : Variable) : Prop :=
  v.number < w.number ∨ v.number = Validator.lastWord

namespace Validator

variable {s s' : Validator} {is : List Instruction} {vs ws : List Variable}
  {first next last : UInt32}

/-- A word comes behind the successor of another one if it is greater, and always if there is no
greater one. -/
lemma add_one_le_iff {m n : UInt32} : m + 1 ≤ n ↔ m < n ∨ m = lastWord := by
  have hm := m.toNat_lt
  rw [UInt32.le_iff_toNat_le, UInt32.lt_iff_toNat_lt, UInt32.toNat_add, ← UInt32.toNat_inj]
  simp only [lastWord, UInt32.reduceToNat]
  omega

/-! ### The check for freshness -/

lemma checkFresh_cons {v : Variable} :
    checkFresh first (v :: vs) = .ok next ↔
      first ≤ v.number ∧ checkFresh (v.number + 1) vs = .ok next := by
  rw [checkFresh]
  split
  · rename_i hlt
    simp [UInt32.not_le.mpr hlt]
  · rename_i hlt
    simp [UInt32.not_lt.mp hlt]

lemma checkFresh_append (hv : checkFresh first vs = .ok next)
    (hw : checkFresh next ws = .ok last) : checkFresh first (vs ++ ws) = .ok last := by
  induction vs generalizing first with
  | nil =>
      obtain rfl := Except.ok.inj hv
      exact hw
  | cons v vs ih =>
      obtain ⟨hle, hv⟩ := checkFresh_cons.mp hv
      exact checkFresh_cons.mpr ⟨hle, ih hv⟩

/-- **Which variables are fresh**: those that begin behind the least fresh word, each of which
precedes the next one. -/
lemma checkFresh_isOk_iff :
    (∃ next, checkFresh first vs = .ok next) ↔
      (∀ v ∈ vs.head?, first ≤ v.number) ∧ vs.IsChain Variable.Precedes := by
  induction vs generalizing first with
  | nil => simp [checkFresh]
  | cons v vs ih =>
      simp only [checkFresh_cons, exists_and_left, ih, add_one_le_iff, List.isChain_cons,
        List.head?_cons, Option.mem_some_iff, forall_eq', Variable.Precedes]

/-- A run checks all variables that its instructions define, one after the other. -/
lemma Steps.checkFresh (h : Steps s is s') :
    checkFresh s.nextFresh (is.flatMap (·.definedVariables)) = .ok s'.nextFresh := by
  induction h with
  | nil s => rfl
  | cons head _ ih =>
      obtain ⟨next, ha, rfl⟩ := step_eq_ok_iff.mp head
      exact checkFresh_append ha.fresh ih

/-! ### What the validator adds to -/

/-- The numbers to which the check for freshness adds one, up to the first variable that is not
fresh. -/
def summandsFresh (nextFresh : UInt32) : List Variable → List UInt32
  | [] => []
  | v :: rest =>
    if v.number < nextFresh then [] else v.number :: summandsFresh (v.number + 1) rest

/-- The numbers to which the validator adds one on its way over the instructions. -/
def summands (s : Validator) : List Instruction → List UInt32
  | [] => []
  | i :: rest =>
    match checkUse s.scopes s.typer i, s.step i with
    | .error _, _ => []
    | .ok (), .error _ => summandsFresh s.nextFresh i.definedVariables
    | .ok (), .ok s' => summandsFresh s.nextFresh i.definedVariables ++ s'.summands rest

/-- The validator adds to numbers of defined variables only. -/
lemma exists_of_mem_summandsFresh {n : UInt32} (h : n ∈ summandsFresh first vs) :
    ∃ v ∈ vs, v.number = n := by
  induction vs generalizing first with
  | nil => exact absurd h List.not_mem_nil
  | cons v vs ih =>
      rw [summandsFresh] at h
      split at h
      · exact absurd h List.not_mem_nil
      · rcases List.mem_cons.mp h with rfl | h
        · exact ⟨v, List.mem_cons_self .., rfl⟩
        · obtain ⟨w, hw, hn⟩ := ih h
          exact ⟨w, List.mem_cons_of_mem _ hw, hn⟩

lemma exists_of_mem_summands {n : UInt32} (h : n ∈ s.summands is) :
    ∃ v ∈ is.flatMap (·.definedVariables), v.number = n := by
  induction is generalizing s with
  | nil => exact absurd h List.not_mem_nil
  | cons i is ih =>
      have hfirst (hn : n ∈ summandsFresh s.nextFresh i.definedVariables) :
          ∃ v ∈ (i :: is).flatMap (·.definedVariables), v.number = n := by
        obtain ⟨v, hv, hvn⟩ := exists_of_mem_summandsFresh hn
        exact ⟨v, List.mem_append_left _ hv, hvn⟩
      rw [summands] at h
      split at h
      · exact absurd h List.not_mem_nil
      · exact hfirst h
      · rcases List.mem_append.mp h with h | h
        · exact hfirst h
        · obtain ⟨v, hv, hvn⟩ := ih h
          exact ⟨v, List.mem_append_right _ hv, hvn⟩

lemma summandsFresh_eq (h : checkFresh first vs = .ok next) :
    summandsFresh first vs = vs.map (·.number) := by
  induction vs generalizing first with
  | nil => rfl
  | cons v vs ih =>
      obtain ⟨hle, h⟩ := checkFresh_cons.mp h
      rw [summandsFresh, if_neg (UInt32.not_lt.mpr hle), ih h, List.map_cons]

/-- On its way over accepted instructions the validator adds to the numbers of all variables. -/
lemma Steps.summands_eq (h : Steps s is s') :
    s.summands is = (is.flatMap (·.definedVariables)).map (·.number) := by
  induction h with
  | nil s => rfl
  | @cons s m s' i is head _ ih =>
      obtain ⟨next, ha, -⟩ := step_eq_ok_iff.mp head
      have hu : checkUse s.scopes s.typer i = .ok () :=
        checkUse_eq_ok_iff.mpr ⟨ha.arity, ha.visible, ha.position, ha.inputs⟩
      rw [summands, hu, head]
      change summandsFresh s.nextFresh i.definedVariables ++ m.summands is = _
      rw [summandsFresh_eq ha.fresh, ih, List.flatMap_cons, List.map_append]

end Validator

/-! ### Programs -/

namespace Program

variable {p : Program} {e : Environment}

/-- The numbers to which the validator adds one on its way over the program. -/
def summands (p : Program) (e : Environment) : List UInt32 :=
  (Validator.start e).summands p.instructions

lemma numbersSmall_iff :
    p.NumbersSmall ↔ ∀ v ∈ p.definedVariables, v.number < Validator.lastWord := by
  constructor
  · intro h v hv
    obtain ⟨i, hi, hvi⟩ := List.mem_flatMap.mp hv
    exact h i hi v hvi
  · intro h i hi v hv
    exact h v (List.mem_flatMap.mpr ⟨i, hi, hv⟩)

/-- In an accepted program each variable precedes the next one. -/
lemma isChain_definedVariables (h : p.validate e = .ok ()) :
    p.definedVariables.IsChain Variable.Precedes := by
  obtain ⟨s, hs, -⟩ := validate_eq_ok_iff.mp h
  exact (Validator.checkFresh_isOk_iff.mp ⟨_, hs.checkFresh⟩).2

/-- In an accepted program without the greatest word numbers grow. -/
lemma pairwise_definedVariables (h : p.validate e = .ok ()) (hn : p.NumbersSmall) :
    p.definedVariables.Pairwise fun v w => v.number < w.number := by
  obtain ⟨s, hs, -⟩ := validate_eq_ok_iff.mp h
  exact (Validator.checkFresh_eq_ok hs.checkFresh (numbersSmall_iff.mp hn)).2.2

/-- On its way over an accepted program the validator adds to the numbers of all variables. -/
lemma summands_eq (h : p.validate e = .ok ()) :
    p.summands e = p.definedVariables.map (·.number) := by
  obtain ⟨s, hs, -⟩ := validate_eq_ok_iff.mp h
  exact hs.summands_eq

/-! The next variable is the greatest successor. -/

lemma left_le_max (m n : UInt32) : m ≤ max m n := by
  change m ≤ if m ≤ n then n else m
  split
  · assumption
  · exact UInt32.le_refl m

lemma right_le_max (m n : UInt32) : n ≤ max m n := by
  change n ≤ if m ≤ n then n else m
  split
  · exact UInt32.le_refl n
  · rename_i h
    exact UInt32.le_of_lt (UInt32.not_le.mp h)

lemma le_foldl_successors (vs : List Variable) (m : UInt32) :
    m ≤ vs.foldl (fun n v => max n (v.number + 1)) m := by
  induction vs generalizing m with
  | nil => exact UInt32.le_refl m
  | cons v vs ih => exact UInt32.le_trans (left_le_max m _) (ih _)

lemma successor_le_foldl {vs : List Variable} {v : Variable} (h : v ∈ vs) (m : UInt32) :
    v.number + 1 ≤ vs.foldl (fun n v => max n (v.number + 1)) m := by
  induction vs generalizing m with
  | nil => exact absurd h List.not_mem_nil
  | cons w vs ih =>
      rcases List.mem_cons.mp h with rfl | h
      · exact UInt32.le_trans (right_le_max m _) (le_foldl_successors vs _)
      · exact ih h _

/-- Every variable of a program precedes the next variable. -/
lemma precedes_nextVariable {v : Variable} (h : v ∈ p.definedVariables) :
    v.Precedes ⟨p.nextVariable⟩ :=
  Validator.add_one_le_iff.mp (successor_le_foldl h 0)

/-- **When numbers are fresh.**  In an accepted program each variable precedes the next one, and
every variable of a program precedes its next variable.  The validator adds one to no greatest word,
numbers in accepted programs grow and the next variable is greater than all others, exactly if the
greatest word is the number of no variable. -/
theorem numbers_fresh_iff (p : Program) (e : Environment) :
    (p.validate e = .ok () → p.definedVariables.IsChain Variable.Precedes) ∧
      (∀ v ∈ p.definedVariables, v.Precedes ⟨p.nextVariable⟩) ∧
      ((∀ n ∈ p.summands e, n < Validator.lastWord) ∧
        (p.validate e = .ok () →
          p.definedVariables.Pairwise fun v w => v.number < w.number) ∧
        (∀ v ∈ p.definedVariables, v.number < p.nextVariable) ↔ p.NumbersSmall) := by
  refine ⟨isChain_definedVariables, fun v hv => precedes_nextVariable hv, ?_, fun hn => ?_⟩
  · -- no word is greater than the greatest one
    rintro ⟨-, -, hnext⟩
    refine numbersSmall_iff.mpr fun v hv => ?_
    have hlt := hnext v hv
    have hle := p.nextVariable.toNat_lt
    rw [UInt32.lt_iff_toNat_lt] at hlt ⊢
    simp only [Validator.lastWord, UInt32.reduceToNat]
    omega
  · have hsmall := numbersSmall_iff.mp hn
    refine ⟨fun n h => ?_, fun h => pairwise_definedVariables h hn, fun v hv => ?_⟩
    · obtain ⟨v, hv, rfl⟩ := Validator.exists_of_mem_summands h
      exact hsmall v hv
    · exact (precedes_nextVariable hv).resolve_right (UInt32.ne_of_lt (hsmall v hv))

end Program

/-- A program that defines the variable `v0` twice, with the greatest word in between. -/
def recurring : Program := .ofInstructions [
  ⟨.loadNull, [], [⟨0⟩], []⟩,
  ⟨.loadNull, [], [⟨Validator.lastWord⟩], []⟩,
  ⟨.loadNull, [], [⟨0⟩], []⟩]

lemma validate_recurring : recurring.validate .script = .ok () := by
  rw [Program.validate_eq_ok_iff]
  exact ⟨_, .cons (Validator.step_mk rfl (by simp) (by decide) rfl rfl rfl)
    (.cons (Validator.step_mk rfl (by simp) (by decide) rfl rfl rfl)
    (.cons (Validator.step_mk rfl (by simp) (by decide) rfl rfl rfl) (.nil _))), rfl⟩

/-- It comes back from its stored form and is accepted.  The validator adds to the greatest word, a
variable recurs, and the next variable is below one that the program defines. -/
theorem numbers_not_fresh_recurring :
    Program.ofBytes recurring.toBytes = .ok recurring ∧
      recurring.validate .script = .ok () ∧
      Validator.lastWord ∈ recurring.summands .script ∧
      ¬recurring.definedVariables.Nodup ∧
      ∃ v ∈ recurring.definedVariables, recurring.nextVariable < v.number := by
  refine ⟨by decide, validate_recurring, ?_, by decide, by decide⟩
  rw [Program.summands_eq validate_recurring]
  decide

end EngineFuzz
