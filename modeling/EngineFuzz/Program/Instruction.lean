import EngineFuzz.Program.Operation

/-!
# Instructions and programs

An instruction binds an operation to variables: those it reads, those it defines for what follows
and those it defines inside the block it opens.  A program is a list of instructions.
-/

namespace EngineFuzz

/-- A variable of a program, known by its number. -/
structure Variable where
  number : UInt32
deriving DecidableEq, Repr, Inhabited

namespace Variable

instance : Ord Variable := ⟨fun v w => compare v.number w.number⟩

instance : Std.TransOrd Variable where
  eq_swap {v w} := Std.OrientedOrd.eq_swap (a := v.number) (b := w.number)
  isLE_trans {u v w} := Std.TransOrd.isLE_trans (a := u.number) (b := v.number) (c := w.number)

instance : Std.LawfulEqOrd Variable where
  eq_of_compare {v w} h := by
    obtain ⟨m⟩ := v
    obtain ⟨n⟩ := w
    exact congrArg mk (Std.LawfulEqOrd.eq_of_compare h)

/-- The letter `v` and the number. -/
def text (v : Variable) : String := "v" ++ natText v.number.toNat

end Variable

/-- Variables with commas between them. -/
def variablesText (vs : List Variable) : String := joined ", " (vs.map (·.text))

/-- An operation with its operands. -/
structure Instruction where
  operation : Operation
  inputs : List Variable
  outputs : List Variable
  innerOutputs : List Variable
deriving DecidableEq, Repr, Inhabited

namespace Instruction

/-- Whether the operands are as many as the operation has. -/
def hasConsistentArity (i : Instruction) : Bool :=
  i.inputs.length == i.operation.numInputs && i.outputs.length == i.operation.numOutputs &&
    i.innerOutputs.length == i.operation.numInnerOutputs

/-- The first output. -/
def output? (i : Instruction) : Option Variable := i.outputs.head?

/-- All variables that the instruction defines. -/
def definedVariables (i : Instruction) : List Variable := i.outputs ++ i.innerOutputs

/-- The textual form: `outputs <- operation inputs -> inner outputs`. -/
def text (i : Instruction) : String :=
  (if i.outputs.isEmpty then "" else variablesText i.outputs ++ " <- ") ++ i.operation.text ++
    (if i.inputs.isEmpty then "" else " " ++ variablesText i.inputs) ++
    (if i.innerOutputs.isEmpty then "" else " -> " ++ variablesText i.innerOutputs)

end Instruction

/-- The version that the binary format carries. -/
def formatVersion : UInt32 := 1

/-- A list of instructions with the version of their format. -/
structure Program where
  instructions : List Instruction
  version : UInt32
deriving DecidableEq, Repr, Inhabited

namespace Program

/-- A program of the current version. -/
def ofInstructions (instructions : List Instruction) : Program := ⟨instructions, formatVersion⟩

/-- How many instructions there are. -/
def size (p : Program) : Nat := p.instructions.length

/-- The greatest of the words that follow the defined variables; 0 when there are none. -/
def nextVariable (p : Program) : UInt32 :=
  (p.instructions.flatMap (·.definedVariables)).foldl (fun n v => max n (v.number + 1)) 0

/-- The first instruction that defines a variable. -/
def definitionOf? (p : Program) (v : Variable) : Option Instruction :=
  p.instructions.find? fun i => i.definedVariables.contains v

/-- How many modules the program defines. -/
def moduleCount (p : Program) : Nat :=
  (p.instructions.filter fun i => i.operation matches .beginWasmModule).length

/-- Whether the program has a module. -/
def containsWasm (p : Program) : Bool :=
  p.instructions.any fun i => i.operation matches .beginWasmModule

/-- The lines of the text of instructions inside `depth` blocks. -/
def indentedLines (depth : Nat) : List Instruction → List String
  | [] => []
  | i :: rest =>
    let depth := if i.operation.isBlockEnd then depth - 1 else depth
    let line := String.ofList (List.replicate (4 * depth) ' ') ++ i.text ++ "\n"
    line :: indentedLines (if i.operation.isBlockStart then depth + 1 else depth) rest

/-- The textual form, one instruction a line, bodies of blocks indented. -/
def text (p : Program) : String := joined "" (indentedLines 0 p.instructions)

end Program

end EngineFuzz
