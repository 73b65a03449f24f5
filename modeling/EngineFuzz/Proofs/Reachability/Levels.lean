import Mathlib
import EngineFuzz.Proofs.Reachability.LiveCode

/-!
# The scope rule

A jump makes dead what follows it, up to the end of the block that it stands in.  The rule says so
about a whole list of instructions, by the levels of its positions; the analysis of reachability
goes over the list once, with one flag for each open scope.

* `level`: how deep the position of an instruction is.
* `Kills`: a jump whose scope has not ended since.
* `MarkedBehind`: each flag of a stack is on exactly if a jump kills its scope, with its steps
  `MarkedBehind.opens`, `MarkedBehind.jump` and `MarkedBehind.pass`.
* `WellNested.markedBehind`: the flags of the analysis are so after every prefix.
* `WellNested.isDead_iff`: the analysis computes the scope rule.
-/

namespace EngineFuzz

/-- How many blocks an instruction stands in: those that are open behind the block that it ends, and
without the one that it begins. -/
def level (is : List Instruction) (k : Nat) : Nat :=
  match is[k]? with
  | some i => (i.blocksOutside (openBlocks (is.take k))).length
  | none => (openBlocks is).length

/-- The instruction at `j` is a jump, and among the instructions from there to the position `n`
none has left the scope of the jump. -/
structure Kills (is : List Instruction) (j n : Nat) : Prop where
  isJump : HasAt is (·.isJump) j
  before : j < n
  inside : ∀ k, j < k → k < n → level is j ≤ level is k

/-- The flag of each scope says whether a jump in it, or in a scope around it, kills the code at the
position.  The outermost scope has level zero. -/
def MarkedBehind (is : List Instruction) (n : Nat) (flags : List Bool) : Prop :=
  ∀ flag outer, (flag :: outer) <:+ flags →
    (flag = true ↔ ∃ j, Kills is j n ∧ level is j ≤ outer.length)

section Levels

variable {is : List Instruction} {i : Instruction} {j n : Nat} {flags : List Bool}

lemma level_eq (hi : is[n]? = some i) :
    level is n = (i.blocksOutside (openBlocks (is.take n))).length := by
  rw [level, hi]

/-- The flags around an instruction are those of its level and of the levels below. -/
lemma WellNested.length_around (h : WellNested is) (hi : is[n]? = some i) :
    (Reachability.around is n).length = level is n + 1 := by
  rw [(h.flags_around hi).length_eq, level_eq hi]

/-! ### What kills the code behind one more instruction -/

/-- A jump that kills the code behind an instruction is this instruction, or it has killed the code
before and the instruction is not outside of its scope. -/
lemma kills_succ_iff (hi : is[n]? = some i) :
    Kills is j (n + 1) ↔
      Kills is j n ∧ level is j ≤ level is n ∨ j = n ∧ i.operation.isJump = true := by
  constructor
  · intro h
    rcases Nat.lt_succ_iff_lt_or_eq.mp h.before with hj | rfl
    · exact .inl ⟨⟨h.isJump, hj, fun k hjk hk => h.inside k hjk (by omega)⟩,
        h.inside n hj (by omega)⟩
    · obtain ⟨i', hi', hjump⟩ := h.isJump.exists_instruction
      obtain rfl := Option.some.inj (hi.symm.trans hi')
      exact .inr ⟨rfl, hjump⟩
  · rintro (⟨h, hlevel⟩ | ⟨rfl, hjump⟩)
    · refine ⟨h.isJump, by have := h.before; omega, fun k hjk hk => ?_⟩
      rcases Nat.lt_succ_iff_lt_or_eq.mp hk with hk | rfl
      · exact h.inside k hjk hk
      · exact hlevel
    · exact ⟨hasAt_of_getElem? hi hjump, by omega, fun k hjk hk => by omega⟩

/-- No jump kills the code behind it beyond its own level. -/
lemma Kills.level_le (hi : is[n]? = some i) (h : Kills is j (n + 1)) : level is j ≤ level is n := by
  rcases (kills_succ_iff hi).mp h with ⟨-, hlevel⟩ | ⟨rfl, -⟩
  · exact hlevel
  · exact le_rfl

/-- In the scopes around an instruction that is no jump, or that stands further inside, nothing is
killed and nothing comes to life. -/
lemma exists_kills_succ_iff (hi : is[n]? = some i) {l : Nat} (hl : l ≤ level is n)
    (hj : i.operation.isJump = false ∨ l < level is n) :
    (∃ j, Kills is j (n + 1) ∧ level is j ≤ l) ↔ ∃ j, Kills is j n ∧ level is j ≤ l := by
  constructor
  · rintro ⟨j, h, hjl⟩
    rcases (kills_succ_iff hi).mp h with ⟨h, -⟩ | ⟨rfl, hjump⟩
    · exact ⟨j, h, hjl⟩
    · rcases hj with hj | hlt
      · exact absurd (hj.symm.trans hjump) Bool.false_ne_true
      · omega
  · rintro ⟨j, h, hjl⟩
    exact ⟨j, (kills_succ_iff hi).mpr (.inl ⟨h, hjl.trans hl⟩), hjl⟩

/-! ### The flags of the analysis -/

namespace MarkedBehind

/-- Ending a block does not touch the flags of the scopes around it. -/
lemma outside (h : MarkedBehind is n flags) : MarkedBehind is n (Reachability.outside i flags) := by
  intro flag outer hs
  refine h flag outer (hs.trans ?_)
  unfold Reachability.outside
  split
  · exact List.tail_suffix flags
  · exact List.suffix_refl flags

/-- The innermost flag. -/
lemma isDeadIn_iff (h : MarkedBehind is n flags) {l : Nat} (hl : flags.length = l + 1) :
    isDeadIn flags = true ↔ ∃ j, Kills is j n ∧ level is j ≤ l := by
  obtain ⟨flag, outer, rfl⟩ := List.exists_cons_of_length_eq_add_one hl
  obtain rfl : outer.length = l := by simpa using hl
  exact h flag outer (List.suffix_refl _)

/-- The scopes around an instruction that does not jump keep their flags. -/
lemma pass (hi : is[n]? = some i) (h : MarkedBehind is n flags)
    (hl : flags.length = level is n + 1) (hj : i.operation.isJump = false) :
    MarkedBehind is (n + 1) flags := by
  intro flag outer hs
  have hlen := hs.length_le
  rw [List.length_cons, hl] at hlen
  rw [h flag outer hs, exists_kills_succ_iff hi (by omega) (.inl hj)]

/-- A scope that opens is as dead as the scope around it: no jump has been in it yet. -/
lemma opens (hi : is[n]? = some i) (h : MarkedBehind is n flags)
    (hl : flags.length = level is n + 1) (hj : i.operation.isJump = false) :
    MarkedBehind is (n + 1) (isDeadIn flags :: flags) := by
  intro flag outer hs
  rcases List.suffix_cons_iff.mp hs with heq | hs
  · obtain ⟨rfl, rfl⟩ := List.cons.inj heq
    rw [h.isDeadIn_iff hl, ← exists_kills_succ_iff hi le_rfl (.inl hj), hl]
    constructor
    · rintro ⟨j, hk, hle⟩
      exact ⟨j, hk, by omega⟩
    · rintro ⟨j, hk, -⟩
      exact ⟨j, hk, hk.level_le hi⟩
  · exact h.pass hi hl hj flag outer hs

/-- A jump kills its own scope, and no scope around it. -/
lemma jump (hi : is[n]? = some i) (h : MarkedBehind is n flags)
    (hl : flags.length = level is n + 1) (hj : i.operation.isJump = true) :
    MarkedBehind is (n + 1) (Reachability.markDead flags) := by
  obtain ⟨first, rest, rfl⟩ := List.exists_cons_of_length_eq_add_one hl
  have hrest : rest.length = level is n := by simpa using hl
  intro flag outer hs
  rcases List.suffix_cons_iff.mp hs with heq | hs
  · obtain ⟨rfl, rfl⟩ := List.cons.inj heq
    exact iff_of_true rfl ⟨n, (kills_succ_iff hi).mpr (.inr ⟨rfl, hj⟩), hrest.ge⟩
  · have hlen := hs.length_le
    rw [List.length_cons, hrest] at hlen
    rw [h flag outer (hs.trans (List.suffix_cons first rest)),
      exists_kills_succ_iff hi (by omega) (.inr (by omega))]

/-- A jump in dead code changes nothing: its scope has been killed before. -/
lemma jump_dead (hi : is[n]? = some i) (h : MarkedBehind is n flags)
    (hl : flags.length = level is n + 1) (hj : i.operation.isJump = true)
    (hd : isDeadIn flags = true) : MarkedBehind is (n + 1) flags := by
  have hmark : Reachability.markDead flags = flags := by
    obtain ⟨first, rest, rfl⟩ := List.exists_cons_of_length_eq_add_one hl
    obtain rfl : first = true := hd
    rfl
  rw [← hmark]
  exact h.jump hi hl hj

end MarkedBehind

/-- **One instruction** keeps each flag in line with the jumps that came before. -/
lemma WellNested.markedBehind_succ (h : WellNested is) (hi : is[n]? = some i)
    (hm : MarkedBehind is n (Reachability.behind (is.take n)).scopes) :
    MarkedBehind is (n + 1) (Reachability.behind (is.take (n + 1))).scopes := by
  have hout := hm.outside (i := i)
  have hl := h.length_around hi
  rw [Reachability.around_eq hi] at hl
  rw [Reachability.behind_take_succ hi, Reachability.apply_eq (h.two_le hi)]
  cases hs : i.operation.isBlockStart with
  | true =>
      have hj := Operation.isJump_of_isBlockStart hs
      rw [hj]
      exact hout.opens hi hl hj
  | false =>
      cases hj : i.operation.isJump with
      | false => exact hout.pass hi hl hj
      | true =>
          cases hd : isDeadIn (Reachability.outside i (Reachability.behind (is.take n)).scopes) with
          | false => exact hout.jump hi hl hj
          | true => exact hout.jump_dead hi hl hj hd

/-- **The flags at every position** are those of the scope rule. -/
theorem WellNested.markedBehind (h : WellNested is) (hn : n ≤ is.length) :
    MarkedBehind is n (Reachability.behind (is.take n)).scopes := by
  induction n with
  | zero =>
      intro flag outer hs
      rw [show (Reachability.behind (is.take 0)).scopes = [false] from rfl] at hs
      obtain ⟨rfl, -⟩ := List.cons.inj ((List.suffix_cons_iff.mp hs).resolve_right (by simp))
      refine iff_of_false Bool.false_ne_true ?_
      rintro ⟨j, hk, -⟩
      exact Nat.not_lt_zero _ hk.before
  | succ n ih => exact h.markedBehind_succ (List.getElem?_eq_getElem hn) (ih (by omega))

/-- **The analysis computes the scope rule.**  Behind the instructions up to and including the one
at a position, the analysis calls the latest one dead exactly if there is a jump somewhere before it
whose level no instruction has left since, this one included. -/
theorem WellNested.isDead_iff (h : WellNested is) (hn : n < is.length) :
    (Reachability.behind (is.take (n + 1))).isDead = true ↔
      ∃ j < n, HasAt is (·.isJump) j ∧ ∀ k, j < k → k ≤ n → level is j ≤ level is k := by
  have hi : is[n]? = some is[n] := List.getElem?_eq_getElem hn
  have hout := (h.markedBehind hn.le).outside (i := is[n])
  rw [← Reachability.around_eq hi] at hout
  have hflag := h.flaggedDead_eq hi
  rw [flaggedDead] at hflag
  rw [hflag, hout.isDeadIn_iff (h.length_around hi)]
  constructor
  · rintro ⟨j, hk, hle⟩
    refine ⟨j, hk.before, hk.isJump, fun k hjk hkn => ?_⟩
    rcases Nat.lt_or_eq_of_le hkn with hlt | rfl
    · exact hk.inside k hjk hlt
    · exact hle
  · rintro ⟨j, hjn, hjump, hinside⟩
    exact ⟨j, ⟨hjump, hjn, fun k hjk hkn => hinside k hjk hkn.le⟩, hinside n hjn le_rfl⟩

/-- In the function that throws, the code behind the exception is dead; behind the function it is
not. -/
theorem WellNested.isDead_iff_thrower :
    (∃ j < 3, HasAt thrower.instructions (·.isJump) j ∧
      ∀ k, j < k → k ≤ 3 → level thrower.instructions j ≤ level thrower.instructions k) ∧
    ¬∃ j < 5, HasAt thrower.instructions (·.isJump) j ∧
      ∀ k, j < k → k ≤ 5 → level thrower.instructions j ≤ level thrower.instructions k := by
  have hn : WellNested thrower.instructions := Program.wellNested (validate_thrower .script)
  refine ⟨(hn.isDead_iff (by decide)).mp rfl, fun h => ?_⟩
  exact absurd ((hn.isDead_iff (by decide)).mpr h) Bool.false_ne_true

end Levels

end EngineFuzz
