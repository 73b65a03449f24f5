import EngineFuzz.Failure
import EngineFuzz.Session.Case

/-!
# Trials

A trial takes one program through a session: it is generated, mutated, made into a script, its
modules are run, and it is kept if that showed something.

* `Trial.reason?`: why a program is kept.
* `Iteration`: how far a trial got.
* `Statistics.ofIteration`: what it counts for.
-/

namespace EngineFuzz

/-- A program with its script and what came of running its modules. -/
structure Trial where
  template : Template
  program : Program
  script : String
  execution : Except RunError (List ExportOutcome)

/-- Whether the outcome is a trap other than running out of fuel, which generated loops do. -/
def Outcome.isTelling : Outcome → Bool
  | .trapped kind => kind != .outOfFuel
  | .returned _ => false

namespace Trial

/-- The outcomes of the exports that have been called. -/
def outcomes (t : Trial) : List ExportOutcome := t.execution.toOption.getD []

/-- Why the modules could not be run. -/
def error? (t : Trial) : Option RunError :=
  match t.execution with
  | .error e => some e
  | .ok _ => none

/-- Why the program is kept, if it is. -/
def reason? (storeAll : Bool) (t : Trial) : Option CaseReason :=
  if t.error?.isSome then some .executionFailed
  else if t.outcomes.any fun o => o.outcome.isTelling then some .trapped
  else if storeAll then some .storeAll
  else none

/-- What is stored about the trial. -/
def facts (worker iteration : UInt64) (reason : CaseReason) (t : Trial) : CaseFacts where
  worker
  iteration
  template := Enumeration.name t.template
  instructionCount := t.program.size.toUInt64
  moduleCount := t.program.moduleCount.toUInt64
  reason
  outcomes := t.outcomes
  error? := t.error?.map fun e => (ToFailure.toFailure e).text

end Trial

/-- Why there is no program to try. -/
inductive GenerationError where
  | noTemplates
  | noModules (attempts : Nat)
deriving DecidableEq, Repr

/-- The wording of the error. -/
def GenerationError.message : GenerationError → String
  | noTemplates => "every template has weight 0"
  | noModules attempts =>
    "no program with WebAssembly after " ++ natText attempts ++ " attempts"

instance : ToFailure GenerationError where
  toFailure
    | .noTemplates => ⟨.config, GenerationError.noTemplates.message⟩
    | e => ⟨.invalidState, e.message⟩

/-- How far an iteration got.  The flags say which rounds of mutation succeeded. -/
inductive Iteration where
  | notGenerated (e : GenerationError)
  | notLifted (rounds : List Bool) (e : LiftError)
  | tried (rounds : List Bool) (t : Trial)

/-- What has been counted in some iterations.  `Statistics.words` are the counters that are kept. -/
structure Statistics where
  programs : Nat := 0
  generationFailures : Nat := 0
  mutations : Nat := 0
  failedMutations : Nat := 0
  modules : Nat := 0
  exports : Nat := 0
  traps : Nat := 0
  executionFailures : Nat := 0
  stored : Nat := 0
deriving DecidableEq, Repr, Inhabited

namespace Statistics

/-- The counts of two sets of iterations together. -/
def merge (a b : Statistics) : Statistics where
  programs := a.programs + b.programs
  generationFailures := a.generationFailures + b.generationFailures
  mutations := a.mutations + b.mutations
  failedMutations := a.failedMutations + b.failedMutations
  modules := a.modules + b.modules
  exports := a.exports + b.exports
  traps := a.traps + b.traps
  executionFailures := a.executionFailures + b.executionFailures
  stored := a.stored + b.stored

/-- The counts of rounds of mutation. -/
def ofRounds (rounds : List Bool) : Statistics :=
  { programs := 1, mutations := rounds.count true, failedMutations := rounds.count false }

/-- The counts of one iteration.  A program that is to be kept counts as stored if `stores`, which
says whether the storage took it. -/
def ofIteration (storeAll stores : Bool) : Iteration → Statistics
  | .notGenerated _ => { generationFailures := 1 }
  | .notLifted rounds _ => ofRounds rounds
  | .tried rounds t =>
    { ofRounds rounds with
      modules := t.program.moduleCount
      exports := t.outcomes.length
      traps := t.outcomes.countP fun o => o.outcome.isTrap
      executionFailures := t.error?.isSome.toNat
      stored := ((t.reason? storeAll).isSome && stores).toNat }

/-- The counts of all sets of iterations together. -/
def mergeAll (all : List Statistics) : Statistics := all.foldl merge {}

/-- The counters under their names.  They are words, so that they wrap around at `2 ^ 64`. -/
def words (s : Statistics) : List (String × UInt64) :=
  [("programs", s.programs.toUInt64), ("generation_failures", s.generationFailures.toUInt64),
    ("mutations", s.mutations.toUInt64), ("failed_mutations", s.failedMutations.toUInt64),
    ("modules", s.modules.toUInt64), ("exports", s.exports.toUInt64),
    ("traps", s.traps.toUInt64), ("execution_failures", s.executionFailures.toUInt64),
    ("stored", s.stored.toUInt64)]

/-- The counters as a record. -/
def toJson (s : Statistics) : Json :=
  .object (s.words.map fun (name, count) => (name, .ofNat count.toNat))

end Statistics

end EngineFuzz
