import EngineFuzz.Analysis.Validation
import EngineFuzz.Generation.Toolbox

/-!
# Building programs

A builder holds a program under construction together with the scopes and types at its end, so
that generators can ask for visible variables of a type.  It appends every instruction that it is
given and remembers the first one that is wrong; `Builder.finalize` then refuses the program.

* `Builder.append`, `Build.emit`: new instructions.
* `Builder.visibleVariables`, `Build.randomVariable`: variables to use in them.
* `Build.adopt`: instructions of another program, with their variables renamed.
* `Builder.finalize`: the program, if it is well formed.
-/

namespace EngineFuzz

/-- The first thing that went wrong while a program was built, or what it stopped at. -/
inductive BuildProblem where
  | instruction (i : Instruction) (fault : InstructionFault)
  | unknownInput (v : Variable)
  /-- The computation could not go on, because a function has no parameters. -/
  | missingParameter
deriving DecidableEq, Repr

/-- The wording for a program under construction, which has no later lines. -/
def BuildProblem.faultMessage : InstructionFault → String
  | .notVisible v => v.text ++ " is not visible"
  | .lateImport c => Enumeration.name c ++ " import declared after a definition"
  | fault => fault.message

/-- The wording of the problem. -/
def BuildProblem.message : BuildProblem → String
  | instruction i fault => faultMessage fault ++ " (" ++ i.text ++ ")"
  | unknownInput v => "adopted input " ++ v.text ++ " was never defined"
  | missingParameter => "index out of bounds: the len is 0 but the index is 0"

/-- Why a program cannot be finished. -/
inductive FinalizeError where
  | problem (p : BuildProblem)
  | openBlocks (count : Nat)
  | invalid (e : ValidationError)
deriving DecidableEq, Repr

/-- The wording of the error. -/
def FinalizeError.message : FinalizeError → String
  | problem p => p.message
  | openBlocks count => natText count ++ " block(s) left open"
  | invalid e => e.message

/-- A program under construction. -/
structure Builder where
  toolbox : Toolbox
  words : WordSource
  instructions : Array Instruction
  nextVariable : UInt32
  scopes : ScopeState
  typer : Typer
  /-- Variables that are not offered to generators. -/
  hidden : Std.TreeSet Variable
  /-- The generators that take part. -/
  generators : WeightedList Generator
  /-- How many nested builds are going on. -/
  recursionDepth : Nat
  problem? : Option BuildProblem
  /-- What the variables of an adopted program are called here. -/
  newNames : Std.TreeMap Variable Variable

/-- A computation that adds to a program under construction. -/
abbrev Build := StateM Builder

namespace Builder

/-- An empty program; random numbers come from `words`. -/
def start (toolbox : Toolbox) (words : WordSource) : Builder where
  toolbox
  words
  instructions := #[]
  nextVariable := 0
  scopes := .start
  typer := .start toolbox.environment
  hidden := ∅
  generators := toolbox.generators
  recursionDepth := 0
  problem? := none
  newNames := ∅

/-- A builder whose random numbers are determined by a seed. -/
def ofSeed (toolbox : Toolbox) (seed : UInt64) : Builder := start toolbox (.ofSeed seed)

/-- Drops the program.  The random numbers go on. -/
def reset (b : Builder) : Builder := start b.toolbox b.words

/-- How many instructions there are. -/
def size (b : Builder) : Nat := b.instructions.size

/-- The limits that the builder keeps to. -/
def settings (b : Builder) : BuilderSettings := b.toolbox.settings.builder

/-- The type of a variable at the end of the program. -/
def typeOf (b : Builder) (v : Variable) : StaticType := b.typer.typeOf v

/-! ### Instructions -/

/-- What is wrong with an instruction at the end of the program. -/
def fault? (b : Builder) (i : Instruction) : Option InstructionFault :=
  match Validator.checkUse b.scopes b.typer i, Validator.checkImports b.typer i.operation with
  | .error fault, _ | .ok (), .error fault => some fault
  | .ok (), .ok () => none

/-- The least word above a bound and above all of these variables. -/
def nextAfter (bound : UInt32) (vs : List Variable) : UInt32 :=
  vs.foldl (fun n v => if n ≤ v.number then v.number + 1 else n) bound

/-- Appends an instruction whose variables are known. -/
def append (b : Builder) (i : Instruction) : Builder :=
  let problem? := b.problem?.or ((b.fault? i).map (.instruction i))
  match b with
  | { toolbox, words, instructions, nextVariable, scopes, typer, hidden, generators,
      recursionDepth, newNames, .. } =>
    { toolbox, words, hidden, generators, recursionDepth, newNames, problem?
      instructions := instructions.push i
      nextVariable := nextAfter nextVariable i.definedVariables
      scopes := scopes.apply i
      typer := typer.apply i }

/-- The `count` variables from a word on. -/
def freshVariables (first : UInt32) (count : Nat) : List Variable :=
  (List.range count).map fun k => ⟨first + k.toUInt32⟩

/-- Appends an operation with fresh outputs. -/
def emit (b : Builder) (op : Operation) (inputs : List Variable) : Instruction × Builder :=
  let outputs := freshVariables b.nextVariable op.numOutputs
  let innerOutputs :=
    freshVariables (b.nextVariable + op.numOutputs.toUInt32) op.numInnerOutputs
  let i : Instruction := ⟨op, inputs, outputs, innerOutputs⟩
  (i, b.append i)

/-! ### Variables -/

/-- The visible variables that are not hidden, in the order of their declaration. -/
def visibleVariables (b : Builder) : List Variable :=
  b.scopes.visibleVariables.filter fun v => !b.hidden.contains v

/-- The visible variables of an accepted type. -/
def candidates (b : Builder) (accepts : StaticType → Bool) : List Variable :=
  b.visibleVariables.filter fun v => accepts (b.typeOf v)

/-- The types of the visible variables. -/
def visibleTypes (b : Builder) : List StaticType := b.visibleVariables.map b.typeOf

/-- Whether a visible variable has an accepted type. -/
def hasVariable (b : Builder) (accepts : StaticType → Bool) : Bool := b.visibleTypes.any accepts

/-- Whether an import of the category may be declared in the module being defined. -/
def canImport (b : Builder) (c : EntityCategory) : Bool :=
  match b.typer.currentModule? with
  | some layout => layout.canImport c
  | none => false

/-- How many entities of a category the module being defined has. -/
def entityCount (b : Builder) (c : EntityCategory) : Nat :=
  match b.typer.currentModule? with
  | some layout => layout.count c
  | none => 0

/-! ### Adoption -/

/-- What a variable of the adopted program is called here. -/
def renamed? (b : Builder) (v : Variable) : Option Variable := b.newNames[v]?

/-- The inputs of an adopted instruction under their names here. -/
def adoptedInputs (b : Builder) (i : Instruction) : List Variable :=
  i.inputs.map fun v => (b.renamed? v).getD v

/-- Remembers the first input that the adopted program has not defined. -/
def noteUnknown (b : Builder) (i : Instruction) : Builder :=
  match i.inputs.find? fun v => !b.newNames.contains v with
  | none => b
  | some v => { b with problem? := b.problem?.or (some (.unknownInput v)) }

/-- Renames variables as long as there are both old and new ones. -/
def rename (b : Builder) (old new : List Variable) : Builder :=
  { b with newNames := (old.zip new).foldl (fun m (o, n) => m.insert o n) b.newNames }

/-- Appends an operation in place of an adopted instruction. -/
def adoptAs (b : Builder) (i : Instruction) (op : Operation) (inputs : List Variable) : Builder :=
  let (emitted, b) := b.emit op inputs
  (b.rename i.outputs emitted.outputs).rename i.innerOutputs emitted.innerOutputs

/-- Appends an adopted instruction. -/
def adopt (b : Builder) (i : Instruction) : Builder :=
  (b.noteUnknown i).adoptAs i i.operation (b.adoptedInputs i)

/-! ### The end -/

/-- The program, if it is well formed, and an empty builder. -/
def finalize (b : Builder) : Except FinalizeError Program × Builder :=
  let program := Program.ofInstructions b.instructions.toList
  let result : Except FinalizeError Program :=
    match b.problem? with
    | some p => .error (.problem p)
    | none =>
      if b.scopes.depth ≠ 0 then .error (.openBlocks b.scopes.depth)
      else
        match program.validate b.toolbox.environment with
        | .error e => .error (.invalid e)
        | .ok () => .ok program
  (result, b.reset)

end Builder

namespace Build

/-- Uses the random words of the builder. -/
def draw {α : Type} (d : Draw α) : Build α := fun b =>
  let (a, words) := d b.words
  (a, { b with words })

instance : MonadLift Draw Build := ⟨draw⟩

/-- Appends an operation with fresh outputs. -/
def emit (op : Operation) (inputs : List Variable) : Build Instruction := fun b => b.emit op inputs

/-- Appends an operation for its effect. -/
def perform (op : Operation) (inputs : List Variable) : Build Unit := do
  let _ ← emit op inputs

/-- Appends an operation with one output. -/
def value (op : Operation) (inputs : List Variable) : Build Variable := fun b =>
  let output : Variable := ⟨b.nextVariable⟩
  (output, b.append ⟨op, inputs, [output], []⟩)

/-- The type of a variable at the end of the program. -/
def typeOf (v : Variable) : Build StaticType := fun b => (b.typeOf v, b)

/-- Keeps a variable from generators. -/
def hide (v : Variable) : Build Unit := modify fun b => { b with hidden := b.hidden.insert v }

/-- Offers a variable to generators again. -/
def unhide (v : Variable) : Build Unit := modify fun b => { b with hidden := b.hidden.erase v }

/-- A visible variable of an accepted type. -/
def randomVariable (accepts : StaticType → Bool) : Build (Option Variable) := fun b =>
  draw (Draw.choose (b.candidates accepts)) b

/-- A visible variable of a type. -/
def randomOfType (type : StaticType) : Build (Option Variable) := randomVariable (· == type)

/-- Gives up: whatever else has gone wrong, this is the problem. -/
def stop (problem : BuildProblem) : Build Unit :=
  modify fun b => { b with problem? := some problem }

/-- Starts on another program to adopt instructions of. -/
def beginAdoption : Build Unit := modify fun b => { b with newNames := ∅ }

/-- Appends an instruction of the adopted program under its names here. -/
def adopt (i : Instruction) : Build Unit := modify (·.adopt i)

/-- The inputs of an adopted instruction under their names here; each has to have one. -/
def adoptedInputs (i : Instruction) : Build (List Variable) := fun b =>
  (b.adoptedInputs i, b.noteUnknown i)

/-- Appends an operation in place of an adopted instruction. -/
def adoptAs (i : Instruction) (op : Operation) (inputs : List Variable) : Build Unit :=
  modify (·.adoptAs i op inputs)

/-- Runs a computation with other generators taking part. -/
def withGenerators {α : Type} (generators : WeightedList Generator) (body : Build α) : Build α :=
  fun b =>
    let saved := b.generators
    let (a, b) := body { b with generators }
    (a, { b with generators := saved })

end Build

end EngineFuzz
