import EngineFuzz.Generation.Scenario
import EngineFuzz.Lift.Script
import EngineFuzz.Session.Trial

/-!
# Workers

A session has workers, each with a builder and random words of its own, so that the seed of the
session determines all its programs.  In every iteration a worker draws templates until a program
has a module, mutates it, makes it into a script and runs its modules.

* `Worker.iterate`: one iteration.
* `Session.start`: the workers of a session.
-/

namespace EngineFuzz

/-- A worker, and what its builder has come to. -/
structure Worker where
  number : UInt64
  builder : Builder

namespace Worker

/-- What the seeds of two neighbouring workers differ by. -/
def seedStep : UInt64 := 0x9e3779b97f4a7c15

/-- The seed of a worker. -/
def seedOf (seed number : UInt64) : UInt64 := seed + number * seedStep

/-- The worker with a number, before its first iteration. -/
def start (toolbox : Toolbox) (number : UInt64) : Worker :=
  ⟨number, .ofSeed toolbox (seedOf toolbox.settings.session.seed number)⟩

/-- A program of a template, filled up to the budget. -/
def fromTemplate (budget : Nat) (t : Template) : Build (Except FinalizeError Program) := do
  t.code
  let size ← Build.look (·.size)
  if size < budget then Build.build (budget - size)
  fun b => b.finalize

/-- At most so many attempts, until a program has a module. -/
def generate (settings : SessionSettings) :
    Nat → Build (Except GenerationError (Template × Program))
  | 0 => return .error (.noModules settings.moduleGenerationAttempts.toNat)
  | attempts + 1 => do
    match ← (← Build.look (·.toolbox.templates)).choose with
    | none => return .error .noTemplates
    | some t =>
      match ← fromTemplate settings.instructions.toNat t with
      | .ok p => if p.containsWasm then return .ok (t, p) else generate settings attempts
      | .error _ => generate settings attempts

/-- Rounds of mutation, and which of them succeeded.  A mutant without a module is dropped. -/
def mutate (p : Program) : Nat → Build (Program × List Bool)
  | 0 => return (p, [])
  | rounds + 1 => do
    let result ← Mutation.mutate p
    let mutant? := result.toOption.filter (·.containsWasm)
    let (p, flags) ← mutate (mutant?.getD p) rounds
    return (p, mutant?.isSome :: flags)

/-- What running the modules of a program gives, if modules are to be run. -/
def execute (toolbox : Toolbox) (p : Program) : Except RunError (List ExportOutcome) :=
  if toolbox.settings.session.executeModules then
    p.execute toolbox.settings.runtime toolbox.environment
  else .ok []

/-- One iteration, as a build. -/
def iteration : Build Iteration := do
  let toolbox ← Build.look (·.toolbox)
  let settings := toolbox.settings.session
  match ← generate settings settings.moduleGenerationAttempts.toNat with
  | .error e => return .notGenerated e
  | .ok (template, p) =>
    let (program, rounds) ← mutate p settings.mutationRounds.toNat
    match program.lift toolbox.environment toolbox.settings.lifting.includeComments with
    | .error e => return .notLifted rounds e
    | .ok script =>
      return .tried rounds ⟨template, program, script, execute toolbox program⟩

/-- One iteration, and the worker after it. -/
def iterate (w : Worker) : Iteration × Worker :=
  let (result, builder) := iteration w.builder
  (result, { w with builder })

/-- The next iterations, as many as are asked for. -/
def iterations (w : Worker) : Nat → List Iteration
  | 0 => []
  | count + 1 =>
    let (result, w) := w.iterate
    result :: w.iterations count

end Worker

namespace Session

/-- The workers of a session, if their modules can be run. -/
def start (settings : Settings) : Except Failure (List Worker) := do
  let toolbox ← orFailure (Toolbox.ofSettings settings .script)
  if settings.session.executeModules ∧ settings.runtime.maxWasmStack = 0 then
    throw (ToFailure.toFailure RunError.noStack)
  return (List.range settings.session.workers.toNat).map fun n => .start toolbox n.toUInt64

end Session

end EngineFuzz
