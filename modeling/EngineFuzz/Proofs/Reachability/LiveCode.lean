import Mathlib
import EngineFuzz.Analysis.Reachability
import EngineFuzz.Proofs.Reachability.ControlFlow

/-!
# Code that is executed is not flagged

The analysis of reachability keeps a flag for each open block.  In a well nested list of
instructions the flags belong to the open blocks, a block in dead code is dead, and the ends of a
block are as dead as its beginning.  So control never gets to an instruction that is flagged.

* `Reachability.behind`, `Reachability.around`, `flaggedDead`: the flags at a position.
* `Flags`: flags and open blocks, with `WellNested.flags_openBlocks`.
* `Live.next`, `Live.of_closes`, `Live.of_mem_openBlocks`, `Live.flow`: how life goes on.
* `Program.executed_not_dead`: the main statement.
-/

namespace EngineFuzz

namespace Reachability

/-- The state of the analysis behind some instructions. -/
def behind (is : List Instruction) : Reachability := is.foldl apply start

/-- The flags of the scopes that an instruction lives in: those of the open blocks, but not that of
the one that it ends. -/
def outside (i : Instruction) (scopes : List Bool) : List Bool :=
  if i.operation.isBlockEnd then scopes.tail else scopes

/-- The flags of the scopes that the instruction at a position lives in. -/
def around (is : List Instruction) (k : Nat) : List Bool :=
  match is[k]? with
  | some i => outside i (behind (is.take k)).scopes
  | none => (behind is).scopes

end Reachability

/-- Whether the analysis flags the instruction at a position as dead. -/
def flaggedDead (is : List Instruction) (k : Nat) : Bool :=
  (Reachability.behind (is.take (k + 1))).isDead

/-- The innermost flag. -/
def isDeadIn (scopes : List Bool) : Bool := scopes.headD false

/-- The flags of open blocks.  Below the flag of a block there are the flags that its beginning
lives in, and what is inside a dead scope is dead. -/
inductive Flags (is : List Instruction) : List Nat → List Bool → Prop where
  | outermost (flag : Bool) : Flags is [] [flag]
  | inside {b : Nat} {outer : List Nat} {flag : Bool} {flags : List Bool}
      (beginning : Reachability.around is b = flags) (below : Flags is outer flags)
      (dead : isDeadIn flags = true → flag = true) : Flags is (b :: outer) (flag :: flags)

section Flags

variable {is : List Instruction} {i : Instruction} {blocks : List Nat} {flags : List Bool}
  {b k m first last : Nat}

lemma Flags.length_eq (h : Flags is blocks flags) : flags.length = blocks.length + 1 := by
  induction h with
  | outermost flag => rfl
  | inside beginning below dead ih => rw [List.length_cons, List.length_cons, ih]

lemma Flags.outside (h : Flags is blocks flags) (he : i.operation.isBlockEnd = true → blocks ≠ []) :
    Flags is (i.blocksOutside blocks) (Reachability.outside i flags) := by
  unfold Instruction.blocksOutside Reachability.outside
  cases hend : i.operation.isBlockEnd with
  | false => exact h
  | true =>
      cases h with
      | outermost flag => exact absurd rfl (he hend)
      | inside _ below _ => exact below

/-- Outside of a block there are the flags that its beginning lives in. -/
lemma Flags.tail_eq {outer : List Nat} (h : Flags is (b :: outer) flags) :
    flags.tail = Reachability.around is b := by
  cases h with
  | inside beginning below dead => exact beginning.symm

/-- A jump marks the scope that it stands in. -/
lemma Flags.markDead (h : Flags is blocks flags) :
    Flags is blocks (Reachability.markDead flags) := by
  cases h with
  | outermost flag => exact .outermost true
  | inside beginning below dead => exact .inside beginning below fun _ => rfl

/-- In a live scope all open blocks are live. -/
lemma Flags.live (h : Flags is blocks flags) (hl : isDeadIn flags = false) (hb : b ∈ blocks) :
    isDeadIn (Reachability.around is b) = false := by
  induction h with
  | outermost flag => exact nomatch hb
  | @inside b' outer flag flags beginning below dead ih =>
      have hbelow : isDeadIn flags = false := by
        cases hd : isDeadIn flags with
        | false => rfl
        | true => exact absurd (dead hd) (by simpa [isDeadIn] using hl)
      rcases List.mem_cons.mp hb with rfl | hb
      · rw [beginning, hbelow]
      · exact ih hbelow hb

/-- What ends a block jumps nowhere. -/
lemma Operation.isJump_of_isBlockEnd {op : Operation} (h : op.isBlockEnd = true) :
    op.isJump = false := by
  cases op <;> first | rfl | exact absurd h Bool.false_ne_true

lemma Operation.isJump_of_isBlockStart {op : Operation} (h : op.isBlockStart = true) :
    op.isJump = false := by
  cases op <;> first | rfl | exact absurd h Bool.false_ne_true

/-- The operations that the analysis takes for jumps never go on. -/
lemma Operation.isJump_of_not_transfers {op : Operation} (h : op.transfers = false) :
    op.isJump = false := by
  cases op <;> first | rfl | exact absurd h.symm Bool.false_ne_true

/-! ### One instruction -/

lemma Reachability.apply_eq {r : Reachability}
    (h : i.operation.isBlockEnd = true → 2 ≤ r.scopes.length) :
    r.apply i =
      let inside := if i.operation.isBlockStart then
        isDeadIn (outside i r.scopes) :: outside i r.scopes else outside i r.scopes
      ⟨if i.operation.isJump && !isDeadIn (outside i r.scopes) then markDead inside else inside,
        isDeadIn (outside i r.scopes)⟩ := by
  unfold Reachability.apply outside
  cases he : i.operation.isBlockEnd with
  | false => rfl
  | true =>
      obtain ⟨x, y, rest, hs⟩ : ∃ x y rest, r.scopes = x :: y :: rest := by
        match hs : r.scopes, h he with
        | x :: y :: rest, _ => exact ⟨x, y, rest, rfl⟩
      rw [hs]
      rfl

/-- Flags and blocks stay together over an instruction. -/
lemma Flags.apply {r : Reachability} (h : Flags is blocks r.scopes)
    (he : i.operation.isBlockEnd = true → blocks ≠ [])
    (hk : Reachability.around is k = Reachability.outside i r.scopes) :
    Flags is (i.blocksBehind k blocks) (r.apply i).scopes := by
  have hout := h.outside he
  have hlen : i.operation.isBlockEnd = true → 2 ≤ r.scopes.length := by
    intro hend
    have := List.length_pos_iff.mpr (he hend)
    rw [h.length_eq]
    omega
  rw [Reachability.apply_eq hlen, Instruction.blocksBehind]
  cases hs : i.operation.isBlockStart with
  | true =>
      rw [Operation.isJump_of_isBlockStart hs]
      exact .inside hk hout id
  | false =>
      change Flags is (i.blocksOutside blocks) (if _ then Reachability.markDead _ else _)
      split
      · exact hout.markDead
      · exact hout

lemma Reachability.behind_take_succ (h : is[k]? = some i) :
    behind (is.take (k + 1)) = (behind (is.take k)).apply i := by
  obtain ⟨hk, rfl⟩ := List.getElem?_eq_some_iff.mp h
  rw [← List.take_append_getElem hk, behind, List.foldl_append]
  rfl

lemma Reachability.around_eq (h : is[k]? = some i) :
    around is k = outside i (behind (is.take k)).scopes := by
  rw [around, h]

/-- **The flags are those of the open blocks**, at every position. -/
theorem WellNested.flags_openBlocks (h : WellNested is) (hk : k ≤ is.length) :
    Flags is (openBlocks (is.take k)) (Reachability.behind (is.take k)).scopes := by
  induction k with
  | zero => exact .outermost false
  | succ k ih =>
      have hi : is[k]? = some is[k] := List.getElem?_eq_getElem hk
      rw [openBlocks_take_succ hi, Reachability.behind_take_succ hi]
      exact (ih (by omega)).apply (h k _ hi) (Reachability.around_eq hi)

lemma WellNested.flags_around (h : WellNested is) (hi : is[k]? = some i) :
    Flags is (i.blocksOutside (openBlocks (is.take k))) (Reachability.around is k) := by
  have hk : k < is.length := (List.getElem?_eq_some_iff.mp hi).1
  rw [Reachability.around_eq hi]
  exact (h.flags_openBlocks hk.le).outside (h k i hi)

lemma WellNested.two_le (h : WellNested is) (hi : is[k]? = some i)
    (he : i.operation.isBlockEnd = true) : 2 ≤ (Reachability.behind (is.take k)).scopes.length := by
  have hk : k < is.length := (List.getElem?_eq_some_iff.mp hi).1
  rw [(h.flags_openBlocks hk.le).length_eq]
  have := List.length_pos_iff.mpr (h k i hi he)
  omega

/-- An instruction is as dead as the scope that it lives in. -/
lemma WellNested.flaggedDead_eq (h : WellNested is) (hi : is[k]? = some i) :
    flaggedDead is k = isDeadIn (Reachability.around is k) := by
  rw [flaggedDead, Reachability.behind_take_succ hi, Reachability.apply_eq (h.two_le hi),
    Reachability.around_eq hi]

/-! ### How life goes on -/

/-- If there is an instruction at the position, it is not flagged. -/
def Live (is : List Instruction) (k : Nat) : Prop :=
  ∀ i, is[k]? = some i → isDeadIn (Reachability.around is k) = false

lemma HasAt.exists_instruction {p : Operation → Bool} (h : HasAt is p k) :
    ∃ i, is[k]? = some i ∧ p i.operation = true := by
  obtain ⟨op, hop, hp⟩ := h
  obtain ⟨i, hi, rfl⟩ := Option.map_eq_some_iff.mp hop
  exact ⟨i, hi, hp⟩

lemma hasAt_of_getElem? {p : Operation → Bool} (hi : is[k]? = some i)
    (hp : p i.operation = true) : HasAt is p k :=
  ⟨i.operation, by rw [operationAt?, hi, Option.map_some], hp⟩

lemma exists_of_operationAt? {op : Operation} (h : operationAt? is k = some op) :
    ∃ i, is[k]? = some i ∧ i.operation = op := Option.map_eq_some_iff.mp h

namespace Live

/-- What comes next to a live instruction that is no jump is live. -/
lemma next (h : WellNested is) (hl : Live is k) (hi : is[k]? = some i)
    (hj : i.operation.isJump = false) : Live is (k + 1) := by
  intro j hjk
  have hk : k < is.length := (List.getElem?_eq_some_iff.mp hi).1
  have hflags := h.flags_openBlocks (k := k + 1) hk
  have hdead : isDeadIn (Reachability.outside i (Reachability.behind (is.take k)).scopes) =
      false := by
    rw [← Reachability.around_eq hi]
    exact hl i hi
  have hhead : isDeadIn (Reachability.behind (is.take (k + 1))).scopes = false := by
    rw [Reachability.behind_take_succ hi, Reachability.apply_eq (h.two_le hi), hj]
    cases i.operation.isBlockStart with
    | true => exact hdead
    | false => exact hdead
  rw [Reachability.around_eq hjk, Reachability.outside]
  split
  · -- the block that ends there stands in a live scope
    rename_i he
    have hne := h (k + 1) j hjk he
    obtain ⟨b, outer, hc⟩ := List.exists_cons_of_ne_nil hne
    have hb := hflags.live hhead (b := b) (by rw [hc]; exact List.mem_cons_self ..)
    rw [hc] at hflags
    rwa [hflags.tail_eq]
  · exact hhead

/-- The blocks that a live instruction stands in are live. -/
lemma of_mem_blocksOutside (h : WellNested is) (hl : Live is k) (hi : is[k]? = some i)
    (hb : b ∈ i.blocksOutside (openBlocks (is.take k))) : Live is b :=
  fun _ _ => (h.flags_around hi).live (hl i hi) hb

/-- The blocks that are open at a live instruction are live, if it ends none. -/
lemma of_mem_openBlocks (h : WellNested is) (hl : Live is k) (hi : is[k]? = some i)
    (he : i.operation.isBlockEnd = false) (hb : b ∈ openBlocks (is.take k)) : Live is b := by
  refine of_mem_blocksOutside h hl hi ?_
  rwa [Instruction.blocksOutside, if_neg (by simp [he])]

/-- The end of a block, or of a part of one, is as live as its beginning. -/
lemma iff_of_closes (h : WellNested is) (hc : Closes is first last) (hf : first < is.length) :
    Live is first ↔ Live is last := by
  obtain ⟨i, hi, he⟩ := hc.isBlockEnd.exists_instruction
  have hlast : last < is.length := (List.getElem?_eq_some_iff.mp hi).1
  obtain ⟨outer, ho⟩ : ∃ outer, openBlocks (is.take last) = first :: outer :=
    List.head?_eq_some_iff.mp hc.innermost
  have hflags := h.flags_openBlocks hlast.le
  rw [ho] at hflags
  have haround : Reachability.around is last = Reachability.around is first := by
    rw [Reachability.around_eq hi, Reachability.outside, if_pos he]
    exact hflags.tail_eq
  constructor
  · intro hl j _
    rw [haround]
    exact hl _ (List.getElem?_eq_getElem hf)
  · intro hl j _
    rw [← haround]
    exact hl i hi

/-- The end of a block that a live instruction begins is live. -/
lemma closes (h : WellNested is) (hl : Live is first) (hf : first < is.length)
    (hc : Closes is first last) : Live is last := (iff_of_closes h hc hf).mp hl

/-- What comes behind a live instruction that is no jump is live. -/
lemma follows (h : WellNested is) (hl : Live is k) (hi : is[k]? = some i)
    (hj : i.operation.isJump = false) (hm : Follows is k m) : Live is m := by
  have hnext := hl.next h hi hj
  cases hm with
  | next plain => exact hnext
  | behind second hc =>
      obtain ⟨j, hj, -⟩ := second.exists_instruction
      exact hnext.closes h (List.getElem?_eq_some_iff.mp hj).1 hc

/-- What comes behind the end of a block that a live instruction begins is live. -/
lemma closes_follows (h : WellNested is) (hl : Live is first) (hf : first < is.length)
    (hc : Closes is first last) (hm : Follows is last m) : Live is m := by
  obtain ⟨i, hi, he⟩ := hc.isBlockEnd.exists_instruction
  exact (hl.closes h hf hc).follows h hi (Operation.isJump_of_isBlockEnd he) hm

lemma finishes_follows (h : WellNested is) (hl : Live is first) (hf : first < is.length)
    (hc : Finishes is first last) (hm : Follows is last m) : Live is m := by
  cases hc with
  | only hc _ => exact hl.closes_follows h hf hc hm
  | @switched middle _ hc second hc' =>
      obtain ⟨j, hj, -⟩ := second.exists_instruction
      exact (hl.closes h hf hc).closes_follows h (List.getElem?_eq_some_iff.mp hj).1 hc' hm

/-- The handler of an exception is live: its block is one that the instruction stands in. -/
lemma catches (h : WellNested is) (hl : Live is k) (hc : Catches is k m) : Live is m := by
  obtain ⟨first, -, hcloses, hfk, hkm⟩ := hc
  obtain ⟨j, hj, -⟩ := hcloses.isBlockEnd.exists_instruction
  have hm : m < is.length := (List.getElem?_eq_some_iff.mp hj).1
  have hi : is[k]? = some is[k] := List.getElem?_eq_getElem (by omega)
  have hopen : first ∈ openBlocks (is.take (k + 1)) := by
    refine mem_openBlocks_of_le hm.le ?_ (by omega) hkm
    exact List.mem_of_mem_head? hcloses.innermost
  rw [openBlocks_take_succ hi] at hopen
  have hfirst := hl.of_mem_blocksOutside h hi
    (Instruction.mem_blocksOutside_of_ne hopen (by omega))
  exact hfirst.closes h (by omega) hcloses

/-- The innermost block of a kind around a live instruction is live. -/
lemma innermost {p : Operation → Bool} (h : WellNested is) (hl : Live is k)
    (hi : is[k]? = some i) (he : i.operation.isBlockEnd = false)
    (hb : Innermost is p k first) : Live is first ∧ first < is.length := by
  obtain ⟨inner, outer, ho, hp, -⟩ := hb
  obtain ⟨j, hj, -⟩ := hp.exists_instruction
  refine ⟨hl.of_mem_openBlocks h hi he ?_, (List.getElem?_eq_some_iff.mp hj).1⟩
  rw [ho]
  exact List.mem_append_right _ (List.mem_cons_self ..)

end Live

lemma Operation.isBlockEnd_of_returns {op : Operation} (h : op.returns = true) :
    op.isBlockEnd = false := by
  cases op <;> first | rfl | exact absurd h Bool.false_ne_true

lemma Operation.isBlockEnd_of_branches {op : Operation} (h : op.branches = true) :
    op.isBlockEnd = false := by
  cases op <;> first | rfl | exact absurd h Bool.false_ne_true

lemma Operation.isJump_of_beginsFunction {op : Operation} (h : op.beginsFunction = true) :
    op.isJump = false := by
  cases op <;> first | rfl | exact absurd h Bool.false_ne_true

/-- **One move** inside of an activation leads from live code to live code. -/
theorem Live.flow (h : WellNested is) (hl : Live is k) (hm : Flow is k m) : Live is m := by
  cases hm with
  | next goesOn follows =>
      obtain ⟨i, hi, ht⟩ := goesOn.exists_instruction
      exact hl.follows h hi (Operation.isJump_of_not_transfers (by simpa using ht)) follows
  | skip condition closes =>
      obtain ⟨i, hi, -⟩ := condition.exists_instruction
      exact hl.closes h (List.getElem?_eq_some_iff.mp hi).1 closes
  | done loop closes follows =>
      obtain ⟨i, hi, -⟩ := loop.exists_instruction
      exact hl.closes_follows h (List.getElem?_eq_some_iff.mp hi).1 closes follows
  | round loop closes =>
      obtain ⟨i, hi, -⟩ := loop.exists_instruction
      exact (Live.iff_of_closes h closes (List.getElem?_eq_some_iff.mp hi).1).mpr hl
  | define function closes follows =>
      obtain ⟨i, hi, -⟩ := function.exists_instruction
      exact hl.closes_follows h (List.getElem?_eq_some_iff.mp hi).1 closes follows
  | raise catches => exact hl.catches h catches
  | returns operation function closes =>
      obtain ⟨i, hi, hop⟩ := operation.exists_instruction
      obtain ⟨hfirst, hlt⟩ := hl.innermost h hi (Operation.isBlockEnd_of_returns hop) function
      exact hfirst.closes h hlt closes
  | breaks operation loop closes follows =>
      obtain ⟨i, hi, hop⟩ := exists_of_operationAt? operation
      obtain ⟨hfirst, hlt⟩ := hl.innermost h hi (by rw [hop]; rfl) loop
      exact hfirst.closes_follows h hlt closes follows
  | continues operation loop closes =>
      obtain ⟨i, hi, hop⟩ := exists_of_operationAt? operation
      obtain ⟨hfirst, hlt⟩ := hl.innermost h hi (by rw [hop]; rfl) loop
      exact hfirst.closes h hlt closes
  | branchBack at_ operation target opened opener labels loop =>
      exact hl.of_mem_openBlocks h at_ (Operation.isBlockEnd_of_branches operation) opened
  | branchOut at_ operation target opened opener labels block finishes follows =>
      have hfirst := hl.of_mem_openBlocks h at_ (Operation.isBlockEnd_of_branches operation) opened
      exact hfirst.finishes_follows h (List.getElem?_eq_some_iff.mp opener).1 finishes follows

end Flags

/-! ### Executions -/

/-- Whatever has been executed is live, and so is what is going to be executed. -/
structure Control.AllLive (is : List Instruction) (s : Control) : Prop where
  position : Live is s.position
  callers : ∀ k ∈ s.callers, Live is k
  executed : ∀ k ∈ s.executed, Live is k

namespace Control

variable {is : List Instruction} {s s' : Control}

/-- **One step** of an execution keeps all code live that it touches. -/
theorem AllLive.step (hn : WellNested is) (h : s.AllLive is) (hs : Step is s s') :
    s'.AllLive is := by
  have hseen : ∀ k ∈ s.position :: s.executed, Live is k :=
    List.forall_mem_cons.mpr ⟨h.position, h.executed⟩
  cases hs with
  | flow flow => exact ⟨h.position.flow hn flow, h.callers, hseen⟩
  | call begun function follows =>
      obtain ⟨i, hi, hop⟩ := function.exists_instruction
      have hbody := (h.executed _ begun).follows hn hi (Operation.isJump_of_beginsFunction hop)
        follows
      exact ⟨hbody, List.forall_mem_cons.mpr ⟨h.position, h.callers⟩, hseen⟩
  | comeBack function closes =>
      obtain ⟨hcaller, hcallers⟩ := List.forall_mem_cons.mp h.callers
      exact ⟨hcaller, hcallers, hseen⟩
  | unwind catches =>
      obtain ⟨-, hcallers⟩ := List.forall_mem_append.mp h.callers
      obtain ⟨hcaller, hcallers⟩ := List.forall_mem_cons.mp hcallers
      exact ⟨hcaller.catches hn catches, hcallers, hseen⟩

/-- Whole executions touch live code only. -/
theorem Executes.allLive (hn : WellNested is) (h : Executes is s) : s.AllLive is := by
  induction h with
  | refl =>
      refine ⟨fun i hi => ?_, nofun, nofun⟩
      rw [Reachability.around_eq hi, Reachability.outside]
      split <;> rfl
  | tail _ hstep ih => exact ih.step hn hstep

end Control

/-- **Flagged code is never executed.**  No execution of an accepted program, of whatever length,
comes to an instruction that the analysis of reachability flags as dead. -/
theorem Program.executed_not_dead {p : Program} {environment : Environment}
    (h : p.validate environment = .ok ()) {s : Control}
    (hs : Control.Executes p.instructions s) (hk : s.position < p.instructions.length) :
    flaggedDead p.instructions s.position = false := by
  have hn := Program.wellNested h
  have hi := List.getElem?_eq_getElem hk
  rw [hn.flaggedDead_eq hi]
  exact (hs.allLive hn).position _ hi

/-! ### A function that throws -/

/-- A program with a function that throws, and with code behind the exception. -/
def thrower : Program := .ofInstructions [
  ⟨.beginTry, [], [], []⟩,
  ⟨.beginPlainFunction 0, [], [⟨0⟩], []⟩,
  ⟨.throwException, [⟨0⟩], [], []⟩,
  ⟨.loadNull, [], [⟨1⟩], []⟩,
  ⟨.endPlainFunction, [], [], []⟩,
  ⟨.loadNull, [], [⟨2⟩], []⟩,
  ⟨.beginCatch, [], [], [⟨3⟩]⟩,
  ⟨.endTryCatch, [], [], []⟩]

lemma validate_thrower (e : Environment) : thrower.validate e = .ok () := by
  rw [Program.validate_eq_ok_iff]
  refine ⟨_, .cons (Validator.step_mk rfl (by simp) (by decide) rfl rfl rfl)
    (.cons (Validator.step_mk rfl (by simp) (by decide) rfl rfl rfl)
    (.cons (Validator.step_mk rfl ?_ (by decide) ?_ rfl rfl)
    (.cons (Validator.step_mk rfl (by simp) (by decide) rfl rfl rfl)
    (.cons (Validator.step_mk rfl (by simp) (by decide) rfl rfl rfl)
    (.cons (Validator.step_mk rfl (by simp) (by decide) rfl rfl rfl)
    (.cons (Validator.step_mk rfl (by simp) (by decide) rfl rfl rfl)
    (.cons (Validator.step_mk rfl (by simp) (by decide) rfl rfl rfl)
    (.nil _)))))))), rfl⟩
  · intro v hv
    rw [List.mem_singleton.mp hv]
    exact ScopeState.isVisible_apply_of_mem (by decide) (by decide)
  · rw [List.map_cons, Typer.typeOf_apply_of_outputs rfl (by decide) (by decide) rfl rfl]
    rfl

/-- The function is defined and called behind its definition, where the exception is caught. -/
lemma executes_thrower : Control.Executes thrower.instructions ⟨6, [], [2, 5, 1, 0]⟩ := by
  have hopen : Closes thrower.instructions 1 4 := ⟨⟨_, rfl, rfl⟩, rfl⟩
  have hcatch : Closes thrower.instructions 0 6 := ⟨⟨_, rfl, rfl⟩, rfl⟩
  have hplain : ∀ k op, operationAt? thrower.instructions (k + 1) = some op →
      op.isSecondPart = false → Follows thrower.instructions k (k + 1) := by
    refine fun k op hop hp => .next ?_
    rintro ⟨op', hop', hp'⟩
    obtain rfl := Option.some.inj (hop.symm.trans hop')
    exact absurd hp' (by simp [hp])
  have hbegin : Control.Step thrower.instructions .start ⟨1, [], [0]⟩ :=
    .flow (.next ⟨_, rfl, rfl⟩ (hplain 0 _ rfl rfl))
  have hdefine : Control.Step thrower.instructions ⟨1, [], [0]⟩ ⟨5, [], [1, 0]⟩ :=
    .flow (.define ⟨_, rfl, rfl⟩ hopen (hplain 4 _ rfl rfl))
  have hcall : Control.Step thrower.instructions ⟨5, [], [1, 0]⟩ ⟨2, [5], [5, 1, 0]⟩ :=
    .call (by decide) ⟨_, rfl, rfl⟩ (hplain 1 _ rfl rfl)
  have hthrow : Control.Step thrower.instructions ⟨2, [5], [5, 1, 0]⟩ ⟨6, [], [2, 5, 1, 0]⟩ :=
    @Control.Step.unwind _ 2 5 6 [] [] [5, 1, 0] ⟨0, rfl, hcatch, by decide, by decide⟩
  exact (((Relation.ReflTransGen.single hbegin).tail hdefine).tail hcall).tail hthrow

/-- The handler runs, and what stands behind the exception is flagged. -/
theorem executed_not_dead_thrower :
    flaggedDead thrower.instructions 3 = true ∧ flaggedDead thrower.instructions 6 = false :=
  ⟨rfl, Program.executed_not_dead (validate_thrower .script) executes_thrower (by decide)⟩

end EngineFuzz
