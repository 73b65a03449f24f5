import EngineFuzz.Execution.Data
import EngineFuzz.Wasm.Module

/-!
# The machine

Runs the code of functions one instruction at a time.  An active function keeps the code that is
left and, for each open block, where a branch out of it continues.  Nearly every instruction uses
up fuel; how much is left is looked at when a function is entered and when a loop starts over, so
that every run ends.

* `Machine.step`: one instruction.
* `Machine.run`: the whole run, which `MachineSetup.stepBound` steps suffice for.
-/

namespace EngineFuzz

/-- A function of a module that is ready to run. -/
inductive Callee where
  /-- A function of the host, which it imports under a name. -/
  | host (name : String) (signature : FunctionSignature)
  /-- A function of the module takes some of the stack while it is active. -/
  | code (signature : FunctionSignature) (body : FunctionBody) (frameSize : Nat)
deriving DecidableEq, Repr, Inhabited

/-- The parameters and results of the function. -/
def Callee.signature : Callee → FunctionSignature
  | host _ signature => signature
  | code signature .. => signature

/-- What stays the same while a machine runs. -/
structure MachineSetup where
  functions : Array Callee
  /-- How much of the stack is there for active functions, in bytes. -/
  stackSize : Nat
  host : Host

/-- Where a branch continues. -/
structure Label where
  /-- For a loop its body, for another block what follows its end. -/
  code : List Instr
  isLoop : Bool
  /-- The operands below the block. -/
  operands : List MachineValue
deriving DecidableEq, Repr, Inhabited

/-- A function that has been called and has not returned. -/
structure Activation where
  locals : Array MachineValue
  operands : List MachineValue
  /-- The code that is left. -/
  code : List Instr
  /-- The open blocks, the innermost first. -/
  labels : List Label
  resultCount : Nat
  /-- How much of the stack is left for other functions. -/
  room : Nat

/-- A machine in the midst of an invocation. -/
structure Machine where
  store : Store
  /-- The fuel that is left. -/
  fuel : Nat
  active : Activation
  /-- The callers of the active function, the latest first. -/
  callers : List Activation

/-- What a step leads to. -/
inductive Progress where
  | running (m : Machine)
  | returned (values : List MachineValue) (store : Store)
  | trapped (kind : TrapKind) (store : Store)
  /-- The code breaks the rules of types. -/
  | stuck

namespace Instr

/-- The fuel that an instruction uses. -/
def fuelCost : Instr → Nat
  | block | loop | elseThen | blockEnd | ret | unreachable => 0
  | _ => 1

/-- What follows the end of the block that the code is in, where `depth` blocks inside are open. -/
def afterEnd (depth : Nat) : List Instr → List Instr
  | [] => []
  | i :: rest =>
    match i, depth with
    | .block, _ | .loop, _ | .ifThen, _ => afterEnd (depth + 1) rest
    | .blockEnd, 0 => rest
    | .blockEnd, depth + 1 => afterEnd depth rest
    | _, _ => afterEnd depth rest

/-- The second part of the conditional block that the code is in, where `depth` blocks inside are
open; nothing if it has only one part. -/
def elsePart? (depth : Nat) : List Instr → Option (List Instr)
  | [] => none
  | i :: rest =>
    match i, depth with
    | .block, _ | .loop, _ | .ifThen, _ => elsePart? (depth + 1) rest
    | .elseThen, 0 => some rest
    | .blockEnd, 0 => none
    | .blockEnd, depth + 1 => elsePart? depth rest
    | _, _ => elsePart? depth rest

end Instr

namespace Machine

/-- Ends the active function. -/
def leave (m : Machine) : Progress :=
  let values := m.active.operands.take m.active.resultCount
  if values.length < m.active.resultCount then .stuck
  else
    match m.callers with
    | [] => .returned values.reverse m.store
    | caller :: callers =>
      .running { m with active := { caller with operands := values ++ caller.operands }, callers }

/-- Goes on if there is fuel. -/
def fueled (m : Machine) : Progress :=
  if m.fuel = 0 then .trapped .outOfFuel m.store else .running m

/-- Leaves the blocks inside the one that a branch names, and goes where it continues. -/
def branch (m : Machine) (depth : Nat) : Progress :=
  match m.active.labels.drop depth with
  | [] => if depth = m.active.labels.length then m.leave else .stuck
  | target :: outer =>
    let labels := if target.isLoop then target :: outer else outer
    let m := { m with active := { m.active with
      code := target.code, operands := target.operands, labels } }
    if target.isLoop then m.fueled else .running m

/-- Opens a block. -/
def enterBlock (m : Machine) (label : Label) : Machine :=
  { m with active := { m.active with labels := label :: m.active.labels } }

/-- Leaves the innermost block, or the function. -/
def leaveBlock (m : Machine) : Progress :=
  match m.active.labels with
  | [] => m.leave
  | _ :: labels => .running { m with active := { m.active with labels } }

/-- The activation of a function. -/
def activation (signature : FunctionSignature) (body : FunctionBody) (args : List MachineValue)
    (room : Nat) : Activation where
  locals := (args ++ body.locals.map MachineValue.zero).toArray
  operands := []
  code := body.code
  labels := []
  resultCount := signature.results.length
  room

/-- Calls a function with the topmost operands. -/
def call (setup : MachineSetup) (m : Machine) (index : Nat) : Progress :=
  match setup.functions[index]? with
  | none => .stuck
  | some callee =>
    let count := callee.signature.params.length
    if m.active.operands.length < count then .stuck
    else
      let args := (m.active.operands.take count).reverse
      let operands := m.active.operands.drop count
      let caller := { m.active with operands }
      match callee with
      | .host name signature =>
        match setup.host.call ⟨name, args⟩ signature m.store with
        | (.ok values, store) =>
          .running { m with
            store
            active := { caller with operands := values.reverse ++ operands } }
        | (.error (.trap kind), store) => .trapped kind store
        | (.error .stuck, _) => .stuck
      | .code signature body frameSize =>
        if caller.room < frameSize then .trapped .stackOverflow m.store
        else
          { m with
            fuel := m.fuel - 1
            active := activation signature body args (caller.room - frameSize)
            callers := caller :: m.callers }.fueled

/-- The choice of a conditional instruction and the machine without the operand that makes it. -/
def popCondition (m : Machine) : Option (Bool × Machine) :=
  match m.active.operands with
  | .i32 condition :: operands =>
    some (condition != 0, { m with active := { m.active with operands } })
  | _ => none

/-- An instruction on data. -/
def applyData (m : Machine) (i : Instr) : Progress :=
  match (DataState.mk m.store m.active.locals m.active.operands).apply i with
  | .ok s =>
    .running { m with
      store := s.store
      active := { m.active with locals := s.locals, operands := s.operands } }
  | .error (.trap kind) => .trapped kind m.store
  | .error .stuck => .stuck

/-- The effect of an instruction that has been taken off the code. -/
def execute (setup : MachineSetup) (m : Machine) : Instr → Progress
  | .block => .running (m.enterBlock ⟨Instr.afterEnd 0 m.active.code, false, m.active.operands⟩)
  | .loop => (m.enterBlock ⟨m.active.code, true, m.active.operands⟩).fueled
  | .ifThen =>
    match m.popCondition with
    | none => .stuck
    | some (condition, m) =>
      let after := Instr.afterEnd 0 m.active.code
      let label : Label := ⟨after, false, m.active.operands⟩
      if condition then .running (m.enterBlock label)
      else
        match Instr.elsePart? 0 m.active.code with
        | some code => .running ({ m with active := { m.active with code } }.enterBlock label)
        | none => .running { m with active := { m.active with code := after } }
  | .elseThen => m.branch 0
  | .blockEnd => m.leaveBlock
  | .br depth => m.branch depth
  | .brIf depth =>
    match m.popCondition with
    | none => .stuck
    | some (condition, m) => if condition then m.branch depth else .running m
  | .ret => m.leave
  | .unreachable => .trapped .unreachable m.store
  | .call index => m.call setup index
  | i => m.applyData i

/-- One instruction. -/
def step (setup : MachineSetup) (m : Machine) : Progress :=
  match m.active.code with
  | [] => .stuck
  | i :: code =>
    { m with fuel := m.fuel - i.fuelCost, active := { m.active with code } }.execute setup i

/-- At most so many steps. -/
def run (setup : MachineSetup) : Nat → Machine → Progress
  | 0, m => .running m
  | steps + 1, m =>
    match m.step setup with
    | .running m => m.run setup steps
    | other => other

end Machine

namespace MachineSetup

/-- The length of the longest body. -/
def codeLength (setup : MachineSetup) : Nat :=
  setup.functions.foldl (fun longest callee =>
    match callee with
    | .host .. => longest
    | .code _ body _ => max longest body.code.length) 0

/-- How many steps a run takes at most.  Control goes forward except where a loop starts over, and
goes to another function where one is called or returns; each time but for returning, fuel is used
and looked at. -/
def stepBound (setup : MachineSetup) (fuel : Nat) : Nat := (2 * fuel + 4) * (setup.codeLength + 2)

/-- Runs a function on arguments with some fuel. -/
def invoke (setup : MachineSetup) (fuel : Nat) (store : Store) (callee : Callee)
    (args : List MachineValue) : Progress :=
  match callee with
  | .host name signature =>
    match setup.host.call ⟨name, args⟩ signature store with
    | (.ok values, store) => .returned values store
    | (.error (.trap kind), store) => .trapped kind store
    | (.error .stuck, _) => .stuck
  | .code signature body frameSize =>
    if setup.stackSize < frameSize then .trapped .stackOverflow store
    else
      let first := Machine.activation signature body args (setup.stackSize - frameSize)
      match (Machine.mk store (fuel - 1) first []).fueled with
      | .running m => m.run setup (setup.stepBound fuel)
      | other => other

end MachineSetup

end EngineFuzz
