import EngineFuzz.Program.Binary
import EngineFuzz.Program.Json

/-!
# Stored programs

Reading programs from their stored forms, with the causes of failure.
-/

namespace EngineFuzz

/-- Why a stored program cannot be read. -/
inductive FormatError where
  | malformed
  | unsupportedVersion (version : UInt32)
deriving DecidableEq, Repr

/-- The wording of the error. -/
def FormatError.message : FormatError → String
  | malformed => "malformed program"
  | unsupportedVersion version => "unsupported program version " ++ natText version.toNat

namespace Program

/-- The program that some bytes start with; only the current version is read. -/
def ofBytes (bytes : List UInt8) : Except FormatError Program :=
  match readBytes? bytes with
  | none => .error .malformed
  | some p =>
    if p.version = formatVersion then .ok p else .error (.unsupportedVersion p.version)

/-- The program of a JSON value, of any version. -/
def ofJson (v : Json) : Except FormatError Program :=
  match ofJson? v with
  | some p => .ok p
  | none => .error .malformed

/-- The program of a JSON text, of any version. -/
def parseJson (text : String) : Except FormatError Program :=
  match parseJson? text with
  | some p => .ok p
  | none => .error .malformed

end Program

end EngineFuzz
