import EngineFuzz.Program.Instruction

/-!
# Unreachable code

After an unconditional transfer of control the rest of its scope cannot be reached.  The analysis
keeps one flag for each open scope.
-/

namespace EngineFuzz

/-- What is known about reachability behind an instruction. -/
structure Reachability where
  /-- Whether the rest of each open scope is dead, the innermost scope first. -/
  scopes : List Bool
  /-- Whether the latest instruction is dead. -/
  isDead : Bool
deriving DecidableEq, Repr

namespace Reachability

/-- At the start of a program everything can be reached. -/
def start : Reachability := ⟨[false], false⟩

/-- How many blocks are open. -/
def depth (r : Reachability) : Nat := r.scopes.length - 1

/-- Marks the rest of the innermost scope as dead. -/
def markDead : List Bool → List Bool
  | [] => []
  | _ :: outer => true :: outer

/-- The state after an instruction.  One that closes a block, or a part of it, lives or dies with
the enclosing scope; a scope that opens starts out as the scope around it. -/
def apply (r : Reachability) (i : Instruction) : Reachability :=
  let outside :=
    match i.operation.isBlockEnd, r.scopes with
    | true, _ :: s :: outer => s :: outer
    | _, scopes => scopes
  let dead := outside.headD false
  let inside := if i.operation.isBlockStart then dead :: outside else outside
  ⟨if i.operation.isJump && !dead then markDead inside else inside, dead⟩

end Reachability

end EngineFuzz
