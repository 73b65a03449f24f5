import Mathlib
import EngineFuzz.Proofs.Validation.LexicalScope

/-!
# The flow of control

How control goes through the instructions of a program, told from their structure alone.  Values are
left out: wherever a value decides, each way may be taken.  So there are more executions here than a
program really has, and what no execution does the program does not do.

* `Closes`, `Finishes`, `Follows`: the ends of blocks, and what comes behind an instruction.
* `Flow`: where control goes inside of one activation.
* `Control`, `Control.Step`, `Control.Executes`: activations and executions.
* `WellNested`: every end of a block has a block to end, with `Program.wellNested`.
-/

namespace EngineFuzz

/-- Whether the operation closes the first part of a block and opens the second. -/
def Operation.isSecondPart : Operation → Bool
  | beginElse | beginCatch | wasmBeginElse => true
  | _ => false

/-- Whether control never goes on behind the operation. -/
def Operation.transfers : Operation → Bool
  | returnValue _ | throwException | loopBreak | loopContinue | wasmReturn _ | wasmBranch
  | wasmUnreachable => true
  | _ => false

/-- Whether the operation begins a block that may be left out. -/
def Operation.isCondition : Operation → Bool
  | beginIf | wasmBeginIf => true
  | _ => false

/-- Whether the operation begins a loop. -/
def Operation.beginsLoop : Operation → Bool
  | beginRepeatLoop _ | wasmBeginLoop => true
  | _ => false

/-- Whether the operation begins the body of a function. -/
def Operation.beginsFunction : Operation → Bool
  | beginPlainFunction _ | beginWasmFunction _ => true
  | _ => false

/-- Whether the operation returns from a function. -/
def Operation.returns : Operation → Bool
  | returnValue _ | wasmReturn _ => true
  | _ => false

/-- Whether the operation goes to a label, or may do so. -/
def Operation.branches : Operation → Bool
  | wasmBranch | wasmBranchIf => true
  | _ => false

/-! ### Blocks by their positions -/

/-- The operation at a position. -/
def operationAt? (is : List Instruction) (k : Nat) : Option Operation := is[k]?.map (·.operation)

/-- A position has an operation of a kind. -/
def HasAt (is : List Instruction) (p : Operation → Bool) (k : Nat) : Prop :=
  ∃ op, operationAt? is k = some op ∧ p op = true

/-- The instruction at `last` ends the block, or the part of one, that begins at `first`. -/
structure Closes (is : List Instruction) (first last : Nat) : Prop where
  isBlockEnd : HasAt is (·.isBlockEnd) last
  innermost : (openBlocks (is.take last)).head? = some first

/-- The instruction at `last` ends the block to which the part that begins at `first` belongs. -/
inductive Finishes (is : List Instruction) (first : Nat) : Nat → Prop where
  | only {last : Nat} (closes : Closes is first last) (whole : ¬HasAt is (·.isSecondPart) last) :
      Finishes is first last
  | switched {middle last : Nat} (closes : Closes is first middle)
      (second : HasAt is (·.isSecondPart) middle) (closes' : Closes is middle last) :
      Finishes is first last

/-- What comes behind the instruction at `k`.  Behind the first part of a block this is the end of
the block, not its second part. -/
inductive Follows (is : List Instruction) (k : Nat) : Nat → Prop where
  | next (plain : ¬HasAt is (·.isSecondPart) (k + 1)) : Follows is k (k + 1)
  | behind {last : Nat} (second : HasAt is (·.isSecondPart) (k + 1))
      (closes : Closes is (k + 1) last) : Follows is k last

/-- The innermost block of a kind around a position. -/
def Innermost (is : List Instruction) (p : Operation → Bool) (k first : Nat) : Prop :=
  ∃ inner outer, openBlocks (is.take k) = inner ++ first :: outer ∧ HasAt is p first ∧
    ∀ b ∈ inner, ¬HasAt is p b

/-- The handler of a `try` block that stands around a position. -/
def Catches (is : List Instruction) (k handler : Nat) : Prop :=
  ∃ first, operationAt? is first = some .beginTry ∧ Closes is first handler ∧
    first < k ∧ k < handler

/-! ### Executions -/

/-- Control goes from one position to another without entering or leaving a function. -/
inductive Flow (is : List Instruction) : Nat → Nat → Prop where
  /-- A condition holds, a loop goes round, a function ends where it stands: whatever does not
  transfer control may be followed by what comes behind it. -/
  | next {k m : Nat} (goesOn : HasAt is (fun op => !op.transfers) k) (follows : Follows is k m) :
      Flow is k m
  /-- A condition does not hold: the second part is next, or the end. -/
  | skip {k last : Nat} (condition : HasAt is (·.isCondition) k) (closes : Closes is k last) :
      Flow is k last
  /-- A loop has no more rounds. -/
  | done {k last m : Nat} (loop : HasAt is (·.beginsLoop) k) (closes : Closes is k last)
      (follows : Follows is last m) : Flow is k m
  /-- The next round of a loop. -/
  | round {first k : Nat} (loop : HasAt is (·.beginsLoop) first) (closes : Closes is first k) :
      Flow is k first
  /-- A function is defined, and its body does not run. -/
  | define {k last m : Nat} (function : HasAt is (·.beginsFunction) k) (closes : Closes is k last)
      (follows : Follows is last m) : Flow is k m
  /-- An exception is caught. -/
  | raise {k handler : Nat} (catches : Catches is k handler) : Flow is k handler
  | returns {k first last : Nat} (operation : HasAt is (·.returns) k)
      (function : Innermost is (·.beginsFunction) k first) (closes : Closes is first last) :
      Flow is k last
  | breaks {k first last m : Nat} (operation : operationAt? is k = some .loopBreak)
      (loop : Innermost is (·.beginsLoop) k first) (closes : Closes is first last)
      (follows : Follows is last m) : Flow is k m
  | continues {k first last : Nat} (operation : operationAt? is k = some .loopContinue)
      (loop : Innermost is (·.beginsLoop) k first) (closes : Closes is first last) :
      Flow is k last
  /-- A branch to the label of a loop begins the loop again. -/
  | branchBack {k first : Nat} {i j : Instruction} {label : Variable} (at_ : is[k]? = some i)
      (operation : i.operation.branches = true) (target : i.inputs.head? = some label)
      (opened : first ∈ openBlocks (is.take k)) (opener : is[first]? = some j)
      (labels : label ∈ j.innerOutputs) (loop : j.operation.beginsLoop = true) : Flow is k first
  /-- A branch to the label of another block goes behind the block. -/
  | branchOut {k first last m : Nat} {i j : Instruction} {label : Variable} (at_ : is[k]? = some i)
      (operation : i.operation.branches = true) (target : i.inputs.head? = some label)
      (opened : first ∈ openBlocks (is.take k)) (opener : is[first]? = some j)
      (labels : label ∈ j.innerOutputs) (block : j.operation.beginsLoop = false)
      (finishes : Finishes is first last) (follows : Follows is last m) : Flow is k m

/-- Where an execution stands. -/
structure Control where
  /-- The instruction that is being executed. -/
  position : Nat
  /-- The instructions in the course of which functions were entered that have not returned, the
  innermost first. -/
  callers : List Nat
  /-- The instructions that have been executed. -/
  executed : List Nat

namespace Control

/-- At the start of a program nothing has been executed. -/
def start : Control := ⟨0, [], []⟩

/-- One step of an execution.  Any instruction may call a function whose beginning has been
executed, and go on when the function has returned: scripts call functions to convert values,
too. -/
inductive Step (is : List Instruction) : Control → Control → Prop where
  | flow {k m : Nat} {cs seen : List Nat} (flow : Flow is k m) :
      Step is ⟨k, cs, seen⟩ ⟨m, cs, k :: seen⟩
  | call {k first m : Nat} {cs seen : List Nat} (begun : first ∈ seen)
      (function : HasAt is (·.beginsFunction) first) (follows : Follows is first m) :
      Step is ⟨k, cs, seen⟩ ⟨m, k :: cs, k :: seen⟩
  | comeBack {k first caller : Nat} {cs seen : List Nat}
      (function : HasAt is (·.beginsFunction) first) (closes : Closes is first k) :
      Step is ⟨k, caller :: cs, seen⟩ ⟨caller, cs, k :: seen⟩
  /-- An exception leaves functions up to one whose caller handles it. -/
  | unwind {k caller handler : Nat} {left cs seen : List Nat}
      (catches : Catches is caller handler) :
      Step is ⟨k, left ++ caller :: cs, seen⟩ ⟨handler, cs, k :: seen⟩

/-- Some execution comes to the state; the instruction at its position is executed. -/
def Executes (is : List Instruction) (s : Control) : Prop :=
  Relation.ReflTransGen (Step is) start s

end Control

/-! ### Nesting -/

/-- Every instruction that ends a block has an open block to end. -/
def WellNested (is : List Instruction) : Prop :=
  ∀ k i, is[k]? = some i → i.operation.isBlockEnd = true → openBlocks (is.take k) ≠ []

/-- Accepted programs are well nested. -/
lemma Program.wellNested {p : Program} {environment : Environment}
    (h : p.validate environment = .ok ()) : WellNested p.instructions := by
  intro k i hi he
  obtain ⟨s, hsteps, -⟩ := Program.validate_eq_ok_iff.mp h
  obtain ⟨hk, rfl⟩ := List.getElem?_eq_some_iff.mp hi
  rw [← List.take_append_drop k p.instructions, List.drop_eq_getElem_cons hk] at hsteps
  obtain ⟨a, ha, hrest⟩ := Validator.steps_append_iff.mp hsteps
  obtain ⟨b, hb, -⟩ := Validator.steps_cons_iff.mp hrest
  obtain ⟨next, hadm, -⟩ := Validator.step_eq_ok_iff.mp hb
  have hlex := ha.lexical ScopeState.lexical_start
  rw [List.nil_append] at hlex
  obtain ⟨block, blocks, hblocks, -⟩ := ScopeState.exists_cons_of_checkBlockEnd
    ((ScopeState.check_eq_ok_iff.mp hadm.position).1 he) he
  intro hnil
  have hlen := hlex.places.length_eq
  rw [hnil, hlex.length, hblocks] at hlen
  simp at hlen

variable {is : List Instruction} {i : Instruction} {b k m : Nat}

lemma openBlocks_take_succ (h : is[k]? = some i) :
    openBlocks (is.take (k + 1)) = i.blocksBehind k (openBlocks (is.take k)) := by
  obtain ⟨hk, rfl⟩ := List.getElem?_eq_some_iff.mp h
  rw [← List.take_append_getElem hk, openBlocks_append_singleton, List.length_take,
    Nat.min_eq_left hk.le]

/-- A block that is open at a position was open ever since it began. -/
lemma mem_openBlocks_of_le (hm : m ≤ is.length) (h : b ∈ openBlocks (is.take m)) (hbk : b < k)
    (hkm : k ≤ m) : b ∈ openBlocks (is.take k) := by
  induction m, hkm using Nat.le_induction with
  | base => exact h
  | succ m hkm ih =>
      refine ih (by omega) ?_
      rw [openBlocks_take_succ (List.getElem?_eq_getElem (by omega))] at h
      exact Instruction.mem_of_mem_blocksOutside
        (Instruction.mem_blocksOutside_of_ne h (by omega))

end EngineFuzz
