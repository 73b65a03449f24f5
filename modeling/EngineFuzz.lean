import EngineFuzz.Analysis.ModuleLayout
import EngineFuzz.Analysis.Reachability
import EngineFuzz.Analysis.Scope
import EngineFuzz.Analysis.Typer
import EngineFuzz.Analysis.Validation
import EngineFuzz.Binary.Codec
import EngineFuzz.Config.Settings
import EngineFuzz.Config.WeightTable
import EngineFuzz.Enumeration
import EngineFuzz.Execution.Data
import EngineFuzz.Execution.HostImport
import EngineFuzz.Execution.Instance
import EngineFuzz.Execution.Machine
import EngineFuzz.Execution.Memory
import EngineFuzz.Failure
import EngineFuzz.Float.Arithmetic
import EngineFuzz.Float.Decimal
import EngineFuzz.Float.Format
import EngineFuzz.Float.Text
import EngineFuzz.Generation.Builder
import EngineFuzz.Generation.FunctionBody
import EngineFuzz.Generation.Generator
import EngineFuzz.Generation.MapObjects
import EngineFuzz.Generation.ModuleBody
import EngineFuzz.Generation.RandomValue
import EngineFuzz.Generation.Run
import EngineFuzz.Generation.Scenario
import EngineFuzz.Generation.ScriptCode
import EngineFuzz.Generation.Statement
import EngineFuzz.Generation.Template
import EngineFuzz.Generation.Toolbox
import EngineFuzz.Generation.Values
import EngineFuzz.Generation.WasmUse
import EngineFuzz.Json.Decode
import EngineFuzz.Json.Numeral
import EngineFuzz.Json.Reader
import EngineFuzz.Json.Value
import EngineFuzz.Lift.Error
import EngineFuzz.Lift.Function
import EngineFuzz.Lift.Module
import EngineFuzz.Lift.Script
import EngineFuzz.Main
import EngineFuzz.Mutation.Engine
import EngineFuzz.Mutation.Kind
import EngineFuzz.Mutation.Payload
import EngineFuzz.Mutation.Wiring
import EngineFuzz.NameMap
import EngineFuzz.Program.Binary
import EngineFuzz.Program.Environment
import EngineFuzz.Program.Format
import EngineFuzz.Program.Instruction
import EngineFuzz.Program.Json
import EngineFuzz.Program.Operation
import EngineFuzz.Program.Operator
import EngineFuzz.Program.Schema
import EngineFuzz.Program.StaticType
import EngineFuzz.Proofs.Config.WeightTables
import EngineFuzz.Proofs.Execution.Blocks
import EngineFuzz.Proofs.Execution.Data
import EngineFuzz.Proofs.Execution.Defaults
import EngineFuzz.Proofs.Execution.Direct
import EngineFuzz.Proofs.Execution.Entities
import EngineFuzz.Proofs.Execution.HostValues
import EngineFuzz.Proofs.Execution.Locals
import EngineFuzz.Proofs.Execution.Meaning
import EngineFuzz.Proofs.Execution.Mirrors
import EngineFuzz.Proofs.Execution.Positions
import EngineFuzz.Proofs.Execution.Runs
import EngineFuzz.Proofs.Execution.Simulation
import EngineFuzz.Proofs.Float.Digits
import EngineFuzz.Proofs.Float.Doubles
import EngineFuzz.Proofs.Float.Nearest
import EngineFuzz.Proofs.Float.Rationals
import EngineFuzz.Proofs.Float.RoundedTwice
import EngineFuzz.Proofs.Float.Rounding
import EngineFuzz.Proofs.Float.Shortest
import EngineFuzz.Proofs.Format.Binary
import EngineFuzz.Proofs.Format.Codec
import EngineFuzz.Proofs.Format.Json
import EngineFuzz.Proofs.Format.Schema
import EngineFuzz.Proofs.Format.Versions
import EngineFuzz.Proofs.Generation.Appending
import EngineFuzz.Proofs.Generation.Balance
import EngineFuzz.Proofs.Generation.Blocks
import EngineFuzz.Proofs.Generation.Budgets
import EngineFuzz.Proofs.Generation.Building
import EngineFuzz.Proofs.Generation.Drawing
import EngineFuzz.Proofs.Generation.Faultless
import EngineFuzz.Proofs.Generation.Growth
import EngineFuzz.Proofs.Generation.Insertions
import EngineFuzz.Proofs.Generation.Loops
import EngineFuzz.Proofs.Generation.ModuleGenerators
import EngineFuzz.Proofs.Generation.Operands
import EngineFuzz.Proofs.Generation.Running
import EngineFuzz.Proofs.Generation.ScriptGenerators
import EngineFuzz.Proofs.Generation.ScriptTemplates
import EngineFuzz.Proofs.Generation.Statements
import EngineFuzz.Proofs.Generation.SteeredPrograms
import EngineFuzz.Proofs.Generation.Steering
import EngineFuzz.Proofs.Generation.Validity
import EngineFuzz.Proofs.Generation.WasmTemplates
import EngineFuzz.Proofs.Generation.WasmUse
import EngineFuzz.Proofs.Json.Floats
import EngineFuzz.Proofs.Json.Numerals
import EngineFuzz.Proofs.Json.Readings
import EngineFuzz.Proofs.Json.Records
import EngineFuzz.Proofs.Json.Sizes
import EngineFuzz.Proofs.Json.Strings
import EngineFuzz.Proofs.Json.Texts
import EngineFuzz.Proofs.Layout.EntityTypes
import EngineFuzz.Proofs.Layout.Exports
import EngineFuzz.Proofs.Layout.IndexSpace
import EngineFuzz.Proofs.Layout.Ordering
import EngineFuzz.Proofs.Lift.Branches
import EngineFuzz.Proofs.Lift.CallGraph
import EngineFuzz.Proofs.Lift.Comments
import EngineFuzz.Proofs.Lift.ControlFrames
import EngineFuzz.Proofs.Lift.Declarations
import EngineFuzz.Proofs.Lift.EmittedModules
import EngineFuzz.Proofs.Lift.Following
import EngineFuzz.Proofs.Lift.ImportSources
import EngineFuzz.Proofs.Lift.IndexSpaces
import EngineFuzz.Proofs.Lift.MissingOperands
import EngineFuzz.Proofs.Lift.Modules
import EngineFuzz.Proofs.Lift.ScopedScripts
import EngineFuzz.Proofs.Lift.ScriptLines
import EngineFuzz.Proofs.Lift.ScriptScopes
import EngineFuzz.Proofs.Lift.Scripts
import EngineFuzz.Proofs.Lift.Shape
import EngineFuzz.Proofs.Lift.Traces
import EngineFuzz.Proofs.Lift.TypedModules
import EngineFuzz.Proofs.Lift.Typing
import EngineFuzz.Proofs.Mutation.Adoption
import EngineFuzz.Proofs.Mutation.Changes
import EngineFuzz.Proofs.Mutation.Insertion
import EngineFuzz.Proofs.Mutation.Mutants
import EngineFuzz.Proofs.Mutation.RebuiltLoops
import EngineFuzz.Proofs.Mutation.Renaming
import EngineFuzz.Proofs.Mutation.Replacement
import EngineFuzz.Proofs.Mutation.SteeredMutants
import EngineFuzz.Proofs.Mutation.Treatments
import EngineFuzz.Proofs.Random.WeightedChoice
import EngineFuzz.Proofs.Reachability.ControlFlow
import EngineFuzz.Proofs.Reachability.Levels
import EngineFuzz.Proofs.Reachability.LiveCode
import EngineFuzz.Proofs.Result
import EngineFuzz.Proofs.Script.Accesses
import EngineFuzz.Proofs.Script.LineEnds
import EngineFuzz.Proofs.Script.Numbers
import EngineFuzz.Proofs.Script.Strings
import EngineFuzz.Proofs.Session.Counters
import EngineFuzz.Proofs.Validation.Freshness
import EngineFuzz.Proofs.Validation.FunctionBlocks
import EngineFuzz.Proofs.Validation.FunctionEnds
import EngineFuzz.Proofs.Validation.Grammar
import EngineFuzz.Proofs.Validation.Layouts
import EngineFuzz.Proofs.Validation.LexicalScope
import EngineFuzz.Proofs.Validation.Modules
import EngineFuzz.Proofs.Validation.Nesting
import EngineFuzz.Proofs.Validation.Numbers
import EngineFuzz.Proofs.Validation.Operands
import EngineFuzz.Proofs.Validation.Predictions
import EngineFuzz.Proofs.Validation.Scopes
import EngineFuzz.Proofs.Validation.Soundness
import EngineFuzz.Proofs.Validation.Steps
import EngineFuzz.Proofs.Validation.Surroundings
import EngineFuzz.Proofs.Validation.Typer
import EngineFuzz.Proofs.Validation.ValueWorlds
import EngineFuzz.Proofs.Validation.Worlds
import EngineFuzz.Proofs.Wasm.Floats
import EngineFuzz.Proofs.Wasm.Integers
import EngineFuzz.Random.ChaCha
import EngineFuzz.Random.Draw
import EngineFuzz.Random.Weighted
import EngineFuzz.Random.WordSource
import EngineFuzz.Recipe.Action
import EngineFuzz.Recipe.Run
import EngineFuzz.Recipe.Step
import EngineFuzz.Script.Literal
import EngineFuzz.Script.Writer
import EngineFuzz.Session.Case
import EngineFuzz.Session.Trial
import EngineFuzz.Session.Worker
import EngineFuzz.Text.Decimal
import EngineFuzz.Text.Hex
import EngineFuzz.Text.Printable
import EngineFuzz.Text.Quoted
import EngineFuzz.Text.Timestamp
import EngineFuzz.Wasm.Encode
import EngineFuzz.Wasm.Instr
import EngineFuzz.Wasm.Json
import EngineFuzz.Wasm.Module
import EngineFuzz.Wasm.Numeric
import EngineFuzz.Wasm.Outcome
import EngineFuzz.Wasm.Trap
import EngineFuzz.Wasm.Type
import EngineFuzz.Wasm.Typing
