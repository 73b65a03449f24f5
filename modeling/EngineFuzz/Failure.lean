import EngineFuzz.Execution.Instance
import EngineFuzz.Mutation.Engine
import EngineFuzz.Program.Format

/-!
# Failures

What a user is told when something cannot be done: the part of the work that failed and what the
matter is.

* `Failure.text`: the whole message.
* `ToFailure`: the failures that the causes of each part amount to.
-/

namespace EngineFuzz

/-- The part of the work that failed. -/
inductive FailureKind where
  | io | serialization | wasm | validation | lifting | config | notFound | invalidState | other
deriving DecidableEq, Repr, Inhabited

instance : Enumeration FailureKind where
  all := [.io, .serialization, .wasm, .validation, .lifting, .config, .notFound, .invalidState,
    .other]
  name
    | .io => "Io" | .serialization => "Serialization" | .wasm => "Wasm"
    | .validation => "Validation" | .lifting => "Lifting" | .config => "Config"
    | .notFound => "NotFound" | .invalidState => "InvalidState" | .other => "Other"

/-- What messages about the part start with. -/
def FailureKind.heading : FailureKind → String
  | io => "IO error" | serialization => "Serialization error" | wasm => "WASM error"
  | validation => "Validation error" | lifting => "Lifting error"
  | config => "Configuration error" | notFound => "Not found" | invalidState => "Invalid state"
  | other => "Other error"

/-- A failure as it is reported. -/
structure Failure where
  kind : FailureKind
  message : String
deriving DecidableEq, Repr, Inhabited

/-- The heading of the kind and the message. -/
def Failure.text (f : Failure) : String := f.kind.heading ++ ": " ++ f.message

/-- Causes that a user is told about. -/
class ToFailure (ε : Type) where
  toFailure : ε → Failure

instance : ToFailure FormatError where
  toFailure e := ⟨.serialization, e.message⟩

instance : ToFailure SettingsError where
  toFailure
    | .malformed => ⟨.serialization, SettingsError.malformed.message⟩
    | e => ⟨.config, e.message⟩

instance : ToFailure UnknownName where
  toFailure e := ⟨.config, e.message⟩

instance : ToFailure ValidationError where
  toFailure e := ⟨.validation, e.message⟩

instance : ToFailure FinalizeError where
  toFailure
    | .problem .missingParameter => ⟨.other, BuildProblem.missingParameter.message⟩
    | e => ⟨.validation, e.message⟩

instance : ToFailure LiftError where
  toFailure e := ⟨.lifting, e.message⟩

instance : ToFailure Mutation.NoMutant where
  toFailure
    | .noMutators => ⟨.config, Mutation.NoMutant.noMutators.message⟩
    | e => ⟨.invalidState, e.message⟩

instance : ToFailure RunError where
  toFailure e :=
    let kind :=
      match e with
      | .lifting _ => FailureKind.lifting
      | .noModule .. | .noHostValue _ | .noFunction _ | .noGlobal _ => .notFound
      | .noStack | .rejected | .unmakeableImport | .unsuitableImport
      | .unsuitableArguments _ => .wasm
    ⟨kind, e.message⟩

/-- The result, or what a user is told instead. -/
def orFailure {ε α : Type} [ToFailure ε] (result : Except ε α) : Except Failure α :=
  result.mapError ToFailure.toFailure

end EngineFuzz
