import EngineFuzz.Json.Decode
import EngineFuzz.NameMap
import EngineFuzz.Wasm.Json

/-!
# Settings

All settings of the fuzzer with their defaults, and their JSON form.  Every field of every group
may be left out.

* `Settings.parse`: the settings that a JSON text gives, if they are acceptable.
-/

namespace EngineFuzz

/-- Limits of the program builder. -/
structure BuilderSettings where
  /-- How deep recursive generators may nest before only the others are eligible. -/
  maxRecursionDepth : UInt64 := 3
  /-- How many values are generated in front of a program. -/
  prefixSize : UInt64 := 5
  /-- The most instructions that a recursive build is given. -/
  recursiveBudget : UInt64 := 8
  /-- After how many draws in a row that append nothing a build gives up. -/
  maxConsecutiveFailures : UInt64 := 10
  /-- The most parameters of generated functions. -/
  maxParameters : UInt64 := 3
deriving DecidableEq, Repr

/-- Limits of mutations. -/
structure MutationSettings where
  /-- The most instructions that one mutation changes. -/
  maxSimultaneousMutations : UInt64 := 3
  /-- How often a mutation is tried. -/
  maxAttempts : UInt64 := 10
  /-- The budget of the mutator that inserts code. -/
  codegenBudget : UInt64 := 5
deriving DecidableEq, Repr

/-- How scripts are written. -/
structure LiftingSettings where
  /-- Whether each instruction is shown as a comment. -/
  includeComments : Bool := false
deriving DecidableEq, Repr

/-- Limits of running modules. -/
structure RuntimeSettings where
  /-- The fuel of each invocation. -/
  maxFuel : UInt64 := 100000
  /-- The stack of WebAssembly functions in bytes. -/
  maxWasmStack : UInt64 := 524288
deriving DecidableEq, Repr

/-- What a session does, and where it puts the programs that it keeps. -/
structure SessionSettings where
  workers : UInt64 := 1
  /-- How many programs each worker makes. -/
  iterations : UInt64 := 100
  /-- The instruction budget of a program. -/
  instructions : UInt64 := 120
  /-- How many mutations each program undergoes. -/
  mutationRounds : UInt64 := 5
  /-- How often a program with a module is tried for. -/
  moduleGenerationAttempts : UInt64 := 50
  seed : UInt64 := 0
  outputDir : String := "./wasp-out"
  /-- Whether every program is stored, and not only those that trapped. -/
  storeAll : Bool := false
  executeModules : Bool := true
deriving DecidableEq, Repr

/-- Weights that replace the built-in ones. -/
structure WeightSettings where
  generators : NameMap UInt32 := .empty
  templates : NameMap UInt32 := .empty
  mutators : NameMap UInt32 := .empty
deriving DecidableEq, Repr

/-- All settings. -/
structure Settings where
  builder : BuilderSettings := {}
  mutation : MutationSettings := {}
  lifting : LiftingSettings := {}
  runtime : RuntimeSettings := {}
  session : SessionSettings := {}
  weights : WeightSettings := {}
deriving DecidableEq, Repr

/-- Why a text gives no settings. -/
inductive SettingsError where
  | malformed
  | noWorkers
  | noMutations
deriving DecidableEq, Repr

/-- The wording of the error. -/
def SettingsError.message : SettingsError → String
  | malformed => "malformed settings"
  | noWorkers => "session.workers must be at least 1"
  | noMutations => "mutation.max_simultaneous_mutations must be at least 1"

/-- A field that keeps its default when it is missing. -/
def fieldOr? {α : Type} (default : α) (reader : Json → Option α) : Option Json → Option α
  | none => some default
  | some v => reader v

namespace NameMap

/-- The table that a JSON object denotes; the last of several values of a name counts. -/
def ofJson? {α : Type} (reader : Json → Option α) : Json → Option (NameMap α)
  | .object fields => do
    let entries ← fields.mapM fun (name, v) => do return (name, ← reader v)
    return NameMap.ofList entries
  | _ => none

/-- The table as a JSON object, in the order of the names. -/
def toJson {α : Type} (writer : α → Json) (m : NameMap α) : Json :=
  .object (m.entries.map fun (name, v) => (name, writer v))

end NameMap

private def wordJson (n : UInt64) : Json := .ofNat n.toNat

namespace BuilderSettings

/-- The settings that a JSON value denotes. -/
def ofJson? (v : Json) : Option BuilderSettings := do
  let d : BuilderSettings := {}
  match ← v.recordWithDefaults? ["max_recursion_depth", "prefix_size", "recursive_budget",
      "max_consecutive_failures", "max_parameters"] with
  | [depth, size, budget, failures, parameters] =>
    return {
      maxRecursionDepth := ← fieldOr? d.maxRecursionDepth Json.toUInt64? depth
      prefixSize := ← fieldOr? d.prefixSize Json.toUInt64? size
      recursiveBudget := ← fieldOr? d.recursiveBudget Json.toUInt64? budget
      maxConsecutiveFailures := ← fieldOr? d.maxConsecutiveFailures Json.toUInt64? failures
      maxParameters := ← fieldOr? d.maxParameters Json.toUInt64? parameters }
  | _ => none

/-- The settings with all fields. -/
def toJson (s : BuilderSettings) : Json :=
  .object [("max_recursion_depth", wordJson s.maxRecursionDepth),
    ("prefix_size", wordJson s.prefixSize), ("recursive_budget", wordJson s.recursiveBudget),
    ("max_consecutive_failures", wordJson s.maxConsecutiveFailures),
    ("max_parameters", wordJson s.maxParameters)]

end BuilderSettings

namespace MutationSettings

/-- The settings that a JSON value denotes. -/
def ofJson? (v : Json) : Option MutationSettings := do
  let d : MutationSettings := {}
  match ← v.recordWithDefaults?
      ["max_simultaneous_mutations", "max_attempts", "codegen_budget"] with
  | [mutations, attempts, budget] =>
    return {
      maxSimultaneousMutations :=
        ← fieldOr? d.maxSimultaneousMutations Json.toUInt64? mutations
      maxAttempts := ← fieldOr? d.maxAttempts Json.toUInt64? attempts
      codegenBudget := ← fieldOr? d.codegenBudget Json.toUInt64? budget }
  | _ => none

/-- The settings with all fields. -/
def toJson (s : MutationSettings) : Json :=
  .object [("max_simultaneous_mutations", wordJson s.maxSimultaneousMutations),
    ("max_attempts", wordJson s.maxAttempts), ("codegen_budget", wordJson s.codegenBudget)]

end MutationSettings

namespace LiftingSettings

/-- The settings that a JSON value denotes. -/
def ofJson? (v : Json) : Option LiftingSettings := do
  let d : LiftingSettings := {}
  match ← v.recordWithDefaults? ["include_comments"] with
  | [comments] => return { includeComments := ← fieldOr? d.includeComments Json.toBool? comments }
  | _ => none

/-- The settings with all fields. -/
def toJson (s : LiftingSettings) : Json := .object [("include_comments", .bool s.includeComments)]

end LiftingSettings

namespace RuntimeSettings

/-- The settings that a JSON value denotes. -/
def ofJson? (v : Json) : Option RuntimeSettings := do
  let d : RuntimeSettings := {}
  match ← v.recordWithDefaults? ["max_fuel", "max_wasm_stack"] with
  | [fuel, stack] =>
    return {
      maxFuel := ← fieldOr? d.maxFuel Json.toUInt64? fuel
      maxWasmStack := ← fieldOr? d.maxWasmStack Json.toUInt64? stack }
  | _ => none

/-- The settings with all fields. -/
def toJson (s : RuntimeSettings) : Json :=
  .object [("max_fuel", wordJson s.maxFuel), ("max_wasm_stack", wordJson s.maxWasmStack)]

end RuntimeSettings

namespace SessionSettings

/-- The settings that a JSON value denotes. -/
def ofJson? (v : Json) : Option SessionSettings := do
  let d : SessionSettings := {}
  match ← v.recordWithDefaults? ["workers", "iterations", "instructions", "mutation_rounds",
      "module_generation_attempts", "seed", "output_dir", "store_all", "execute_modules"] with
  | [workers, iterations, instructions, rounds, attempts, seed, outputDir, storeAll, execute] =>
    return {
      workers := ← fieldOr? d.workers Json.toUInt64? workers
      iterations := ← fieldOr? d.iterations Json.toUInt64? iterations
      instructions := ← fieldOr? d.instructions Json.toUInt64? instructions
      mutationRounds := ← fieldOr? d.mutationRounds Json.toUInt64? rounds
      moduleGenerationAttempts := ← fieldOr? d.moduleGenerationAttempts Json.toUInt64? attempts
      seed := ← fieldOr? d.seed Json.toUInt64? seed
      outputDir := ← fieldOr? d.outputDir Json.toText? outputDir
      storeAll := ← fieldOr? d.storeAll Json.toBool? storeAll
      executeModules := ← fieldOr? d.executeModules Json.toBool? execute }
  | _ => none

/-- The settings with all fields. -/
def toJson (s : SessionSettings) : Json :=
  .object [("workers", wordJson s.workers), ("iterations", wordJson s.iterations),
    ("instructions", wordJson s.instructions), ("mutation_rounds", wordJson s.mutationRounds),
    ("module_generation_attempts", wordJson s.moduleGenerationAttempts),
    ("seed", wordJson s.seed), ("output_dir", .string s.outputDir),
    ("store_all", .bool s.storeAll), ("execute_modules", .bool s.executeModules)]

end SessionSettings

namespace WeightSettings

/-- The weights that a JSON value denotes. -/
def ofJson? (v : Json) : Option WeightSettings := do
  let weights := NameMap.ofJson? Json.toUInt32?
  match ← v.recordWithDefaults? ["generators", "templates", "mutators"] with
  | [generators, templates, mutators] =>
    return {
      generators := ← fieldOr? .empty weights generators
      templates := ← fieldOr? .empty weights templates
      mutators := ← fieldOr? .empty weights mutators }
  | _ => none

/-- The weights with all tables, which may be empty. -/
def toJson (s : WeightSettings) : Json :=
  let weights := NameMap.toJson fun (n : UInt32) => .ofNat n.toNat
  .object [("generators", weights s.generators), ("templates", weights s.templates),
    ("mutators", weights s.mutators)]

end WeightSettings

namespace Settings

/-- The settings that a JSON value denotes, whether they are acceptable or not. -/
def ofJson? (v : Json) : Option Settings := do
  match ← v.recordWithDefaults?
      ["builder", "mutation", "lifting", "runtime", "session", "weights"] with
  | [builder, mutation, lifting, runtime, session, weights] =>
    return {
      builder := ← fieldOr? {} BuilderSettings.ofJson? builder
      mutation := ← fieldOr? {} MutationSettings.ofJson? mutation
      lifting := ← fieldOr? {} LiftingSettings.ofJson? lifting
      runtime := ← fieldOr? {} RuntimeSettings.ofJson? runtime
      session := ← fieldOr? {} SessionSettings.ofJson? session
      weights := ← fieldOr? {} WeightSettings.ofJson? weights }
  | _ => none

/-- The settings with all fields of all groups. -/
def toJson (s : Settings) : Json :=
  .object [("builder", s.builder.toJson), ("mutation", s.mutation.toJson),
    ("lifting", s.lifting.toJson), ("runtime", s.runtime.toJson),
    ("session", s.session.toJson), ("weights", s.weights.toJson)]

/-- At least one worker, and at least one mutation at a time. -/
def check (s : Settings) : Except SettingsError Unit :=
  if s.session.workers = 0 then .error .noWorkers
  else if s.mutation.maxSimultaneousMutations = 0 then .error .noMutations
  else .ok ()

/-- Settings from a JSON value. -/
def ofJson (v : Json) : Except SettingsError Settings :=
  match ofJson? v with
  | none => .error .malformed
  | some s => s.check.map fun _ => s

/-- Settings from a JSON text. -/
def parse (text : String) : Except SettingsError Settings :=
  match Json.parse? text with
  | none => .error .malformed
  | some v => ofJson v

end Settings

end EngineFuzz
