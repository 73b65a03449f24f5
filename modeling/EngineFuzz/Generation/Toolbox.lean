import EngineFuzz.Config.Settings
import EngineFuzz.Generation.Generator
import EngineFuzz.Generation.Template
import EngineFuzz.Mutation.Kind
import EngineFuzz.Program.Environment

/-!
# Toolboxes

What the generation of programs draws from: an environment, the settings, and the generators,
templates and mutators with the weights that the settings give them.
-/

namespace EngineFuzz

/-- What builders, workers and mutations share. -/
structure Toolbox where
  environment : Environment
  settings : Settings
  /-- The generators that a builder starts with. -/
  generators : WeightedList Generator
  /-- The generators that begin a program. -/
  valueGenerators : WeightedList Generator
  /-- The generators of WebAssembly scenarios. -/
  wasmGenerators : WeightedList Generator
  templates : WeightedList Template
  mutators : WeightedList MutatorKind

namespace WeightTable

/-- The table with weights replaced, unless a name is unknown. -/
def overridden (t : WeightTable) (weights : NameMap UInt32) : Except UnknownName WeightTable :=
  match t.override weights with
  | (table, none) => .ok table
  | (_, some unknown) => .error unknown

end WeightTable

/-- The members of an enumeration with the weights that a table has for their names. -/
def WeightTable.members (α : Type) [Enumeration α] (table : WeightTable) : WeightedList α :=
  ⟨Enumeration.all.map fun a => (a, (table.weight? (Enumeration.name a)).getD 0)⟩

namespace Toolbox

/-- The tools that settings describe.  They may not name unknown components. -/
def ofSettings (settings : Settings) (environment : Environment) : Except UnknownName Toolbox := do
  let generators ← Generator.weights.overridden settings.weights.generators
  let templates ← Template.weights.overridden settings.weights.templates
  let mutators ← MutatorKind.weights.overridden settings.weights.mutators
  let weighted (gs : List Generator) : WeightedList Generator :=
    (Generator.weighted gs).reweighted generators (·.name)
  return {
    environment, settings
    generators := weighted Generator.standard
    valueGenerators := weighted Generator.values
    wasmGenerators := weighted Generator.wasm
    templates := templates.members Template
    mutators := mutators.members MutatorKind }

end Toolbox

end EngineFuzz
