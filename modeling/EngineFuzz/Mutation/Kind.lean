import EngineFuzz.Config.WeightTable
import EngineFuzz.Enumeration

/-!
# Mutators

A mutator changes some instructions of a program while the program is rebuilt.  This module lists
the mutators with their weights.
-/

namespace EngineFuzz

/-- The mutators, by what they change. -/
inductive MutatorKind where
  | wasm | operation | input | codeGen
deriving DecidableEq, Repr, Inhabited

instance : Enumeration MutatorKind where
  all := [.wasm, .operation, .input, .codeGen]
  name
    | .wasm => "WasmMutator"
    | .operation => "OperationMutator"
    | .input => "InputMutator"
    | .codeGen => "CodeGenMutator"

namespace MutatorKind

/-- How often a mutator is drawn. -/
def weight : MutatorKind → UInt32
  | wasm => 3
  | operation | input => 2
  | codeGen => 1

/-- The built-in weights of the mutators. -/
def weights : WeightTable :=
  ⟨"mutator", Enumeration.all.map fun (m : MutatorKind) => (Enumeration.name m, m.weight)⟩

end MutatorKind

end EngineFuzz
