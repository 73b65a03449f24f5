import EngineFuzz.Analysis.Reachability
import EngineFuzz.Generation.Run
import EngineFuzz.Mutation.Payload
import EngineFuzz.Mutation.Wiring

/-!
# Mutation of programs

A program is rebuilt instruction by instruction: chosen ones are handed to a mutator and all others
are adopted.  Instructions that steer WebAssembly loops are never chosen, and their outputs are
hidden, so that every loop still ends.

* `MutatorKind.candidates`: the instructions that a mutator accepts.
* `Program.loopControl`: the instructions that steer loops.
* `Mutation.rebuild`: a program with some instructions changed.
* `Mutation.mutate`: a mutant that is well formed.
-/

namespace EngineFuzz

namespace MutatorKind

/-- Whether the mutator changes instructions of this form. -/
def accepts (i : Instruction) : MutatorKind → Bool
  | wasm => i.operation.isWasmAccess
  | operation => i.operation.hasPayload
  | input =>
    !i.inputs.isEmpty &&
      match i.operation with
      | .reassign | .wasmReassign => false
      | _ => true
  | codeGen => !i.operation.isJump

/-- For each instruction from a position on, whether the mutator accepts it.  Unreachable ones are
left alone. -/
def candidatesFrom (m : MutatorKind) (r : Reachability) : List Instruction → List Bool
  | [] => []
  | i :: rest =>
    let r := r.apply i
    (!r.isDead && m.accepts i) :: candidatesFrom m r rest

/-- For each instruction of a program, whether the mutator accepts it. -/
def candidates (m : MutatorKind) (p : Program) : List Bool :=
  m.candidatesFrom .start p.instructions

/-- Adopts an instruction with a change, or with code behind it. -/
def change (m : MutatorKind) (budget : Nat) (i : Instruction) : Build Unit :=
  match m with
  | wasm => Mutation.changeAccess i
  | operation => Mutation.changePayload i
  | input => Mutation.changeInput i
  | codeGen => do
    Build.adopt i
    Build.build budget

end MutatorKind

/-! ### Loops -/

/-- The variables that steer loops: labels of loops and variables that are reassigned. -/
def Instruction.steering (i : Instruction) : List Variable :=
  match i.operation with
  | .wasmBeginLoop => i.innerOutputs
  | .wasmReassign => i.inputs.take 1
  | _ => []

namespace Program

/-- For each instruction, whether it steers a loop: it has to do with a steering variable, or it
defines an operand of one that does. -/
def loopControl (p : Program) : List Bool :=
  let collect (vs : List Variable) : Std.TreeSet Variable := .ofList vs
  let steering := collect (p.instructions.flatMap (·.steering))
  let touches (i : Instruction) : Bool :=
    i.inputs.any steering.contains || i.definedVariables.any steering.contains
  let operands := collect ((p.instructions.filter touches).flatMap (·.inputs))
  p.instructions.map fun i => touches i || i.outputs.any operands.contains

end Program

namespace Mutation

/-! ### Rebuilding -/

/-- What happens to an instruction when its program is rebuilt. -/
structure Treatment where
  instruction : Instruction
  isChosen : Bool
  isFrozen : Bool

/-- The instructions with flags; a missing flag is false. -/
def treatments (instructions : List Instruction) (chosen frozen : List Bool) : List Treatment :=
  match instructions with
  | [] => []
  | i :: rest =>
    ⟨i, chosen.headD false, frozen.headD false⟩ :: treatments rest chosen.tail frozen.tail

/-- Hides a variable of the adopted program. -/
def hideAdopted (v : Variable) : Build Unit := do
  if let some renamed ← Build.look (·.renamed? v) then Build.hide renamed

def treat (change : Instruction → Build Unit) (t : Treatment) : Build Unit := do
  if t.isChosen then change t.instruction else Build.adopt t.instruction
  if t.isFrozen then t.instruction.definedVariables.forM hideAdopted

/-- Rebuilds a program from the beginning. -/
def rebuild (change : Instruction → Build Unit) (ts : List Treatment) :
    Build (Except FinalizeError Program) := do
  modify (·.reset)
  Build.beginAdoption
  ts.forM (treat change)
  modifyGet Builder.finalize

/-! ### Mutants -/

/-- Why there is no mutant. -/
inductive NoMutant where
  | noMutators
  | noValidMutant (attempts : Nat)
deriving DecidableEq, Repr

/-- The wording of the error. -/
def NoMutant.message : NoMutant → String
  | noMutators => "every mutator has weight 0"
  | noValidMutant attempts => "no valid mutant after " ++ natText attempts ++ " attempts"

/-- The positions of the flags that are set. -/
def positions (flags : List Bool) : List Nat :=
  (flags.zipIdx.filter (·.1)).map (·.2)

/-- For each position below `size`, whether it is in the list. -/
def flagsOf (size : Nat) (positions : List Nat) : List Bool :=
  let members : Std.TreeSet Nat := .ofList positions
  (List.range size).map members.contains

/-- One attempt with a mutator; none if it accepts no instruction. -/
def attempt (m : MutatorKind) (settings : MutationSettings) (p : Program) (frozen : List Bool) :
    Build (Option (Except FinalizeError Program)) := do
  let candidates := positions (List.zipWith (fun c f => c && !f) (m.candidates p) frozen)
  if candidates.isEmpty then return none
  let most := min (max settings.maxSimultaneousMutations.toNat 1) candidates.length
  let count ← Draw.nat64 1 most
  let sample ← Draw.sample candidates.length count
  let chosen := flagsOf p.size (sample.filterMap (candidates[·]?))
  let result ← rebuild (m.change settings.codegenBudget.toNat)
    (treatments p.instructions chosen frozen)
  return some result

/-- At most `attempts` attempts, until a mutant is well formed. -/
def attempts (settings : MutationSettings) (p : Program) (frozen : List Bool) :
    Nat → Build (Except NoMutant Program)
  | 0 => return .error (.noValidMutant settings.maxAttempts.toNat)
  | n + 1 => do
    let mutators ← Build.look (·.toolbox.mutators)
    match ← mutators.chooseIndexWhere fun _ _ => true with
    | none => return .error .noMutators
    | some index =>
      match mutators.get? index with
      | none => attempts settings p frozen n
      | some m =>
        match ← attempt m settings p frozen with
        | some (.ok mutant) => return .ok mutant
        | _ => attempts settings p frozen n

/-- A mutant of a program. -/
def mutate (p : Program) : Build (Except NoMutant Program) := do
  let settings ← Build.look (·.toolbox.settings.mutation)
  attempts settings p p.loopControl settings.maxAttempts.toNat

end Mutation

end EngineFuzz
