import EngineFuzz.Execution.Instance
import EngineFuzz.Program.Binary
import EngineFuzz.Text.Hex
import EngineFuzz.Text.Timestamp

/-!
# Cases

A program that is kept gets a directory of its own with four files: the script, the program in its
binary form and as a text, and a summary of what became of it.

* `CaseSummary.directoryName`: the name of the directory, by which cases sort in time.
* `CaseSummary.text`: the file with the summary.
-/

namespace EngineFuzz

/-- Why a case is kept. -/
inductive CaseReason where
  | trapped | executionFailed | storeAll
deriving DecidableEq, Repr, Inhabited

instance : Enumeration CaseReason where
  all := [.trapped, .executionFailed, .storeAll]
  name
    | .trapped => "trapped" | .executionFailed => "execution_failed" | .storeAll => "store_all"

/-- What is known of a case from making it. -/
structure CaseFacts where
  worker : UInt64
  iteration : UInt64
  template : String
  instructionCount : UInt64
  moduleCount : UInt64
  reason : CaseReason
  outcomes : List ExportOutcome
  /-- Why the modules could not be run. -/
  error? : Option String
deriving DecidableEq, Repr

/-- The name of a case, 128 bits. -/
structure CaseId where
  bits : BitVec 128
deriving DecidableEq, Repr, Inhabited

/-- What is stored about a case. -/
structure CaseSummary where
  id : CaseId
  createdAt : Timestamp
  facts : CaseFacts
deriving DecidableEq, Repr

namespace CaseId

def digits (id : CaseId) : List Char := (paddedHex 32 id.bits.toNat).toList

/-- The first eight digits. -/
def shortText (id : CaseId) : String := String.ofList (id.digits.take 8)

/-- Puts dashes between groups of 8, 4, 4, 4 and 12 digits. -/
def text (id : CaseId) : String :=
  let d := id.digits
  String.ofList (d.take 8 ++ '-' :: (d.drop 8).take 4 ++ '-' :: (d.drop 12).take 4 ++
    '-' :: (d.drop 16).take 4 ++ '-' :: d.drop 20)

def ofDigits? (digits : List Char) : Option CaseId := do
  guard (digits.length = 32)
  return ⟨.ofNat 128 (← hexNat? (String.ofList digits))⟩

/-- The digits of a text with dashes between the groups. -/
def groupedDigits? (text : List Char) : Option (List Char) := do
  guard (text.length = 36 ∧ [8, 13, 18, 23].all fun i => text[i]? == some '-')
  return text.take 8 ++ (text.drop 9).take 4 ++ (text.drop 14).take 4 ++ (text.drop 19).take 4 ++
    text.drop 24

/-- Digits alone, or with dashes; those with dashes may stand in braces or after a label. -/
def parse? (text : String) : Option CaseId :=
  let s := text.toList
  let label := "urn:uuid:".toList
  if s.length = 32 then ofDigits? s
  else if s.length = 36 then (groupedDigits? s).bind ofDigits?
  else if s.length = 38 ∧ s.head? = some '\x7b' ∧ s.getLast? = some '\x7d' then
    (groupedDigits? ((s.drop 1).take 36)).bind ofDigits?
  else if s.take 9 = label then (groupedDigits? (s.drop 9)).bind ofDigits?
  else none

end CaseId

namespace ExportOutcome

/-- The outcome that a record denotes. -/
def ofJson? (v : Json) : Option ExportOutcome := do
  match ← v.record? ["module", "export", "outcome"] with
  | [index, name, outcome] =>
    return ⟨(← requiredField? Json.toUInt64? index).toNat, ← requiredField? Json.toText? name,
      ← requiredField? Outcome.ofJson? outcome⟩
  | _ => none

/-- The outcome as a record. -/
def toJson (o : ExportOutcome) : Json :=
  .object [("module", .ofNat o.moduleIndex), ("export", .string o.name),
    ("outcome", o.outcome.toJson)]

end ExportOutcome

namespace CaseFacts

/-- The fields of the summary. -/
def fields (f : CaseFacts) : List (String × Json) :=
  [("worker", .ofNat f.worker.toNat), ("iteration", .ofNat f.iteration.toNat),
    ("template", .string f.template), ("instructions", .ofNat f.instructionCount.toNat),
    ("modules", .ofNat f.moduleCount.toNat), ("reason", .ofMember f.reason),
    ("outcomes", .ofList (·.toJson) f.outcomes), ("error", .ofOption Json.string f.error?)]

end CaseFacts

namespace CaseSummary

/-- The summary that a record denotes. -/
def ofJson? (v : Json) : Option CaseSummary := do
  match ← v.record? ["id", "created_at", "worker", "iteration", "template", "instructions",
      "modules", "reason", "outcomes", "error"] with
  | [id, createdAt, worker, iteration, template, instructions, modules, reason, outcomes, error] =>
    return {
      id := ← requiredField? (fun v => v.toText?.bind CaseId.parse?) id
      createdAt := ← requiredField? (fun v => v.toText?.bind Timestamp.parse?) createdAt
      facts := {
        worker := ← requiredField? Json.toUInt64? worker
        iteration := ← requiredField? Json.toUInt64? iteration
        template := ← requiredField? Json.toText? template
        instructionCount := ← requiredField? Json.toUInt64? instructions
        moduleCount := ← requiredField? Json.toUInt64? modules
        reason := ← requiredField? Json.toMember? reason
        outcomes := ← requiredField? (·.toList? ExportOutcome.ofJson?) outcomes
        error? := ← optionalField? Json.toText? error } }
  | _ => none

/-- The summary as a record. -/
def toJson (s : CaseSummary) : Json :=
  .object (("id", .string s.id.text) :: ("created_at", .string s.createdAt.text) :: s.facts.fields)

/-- The file with the summary. -/
def text (s : CaseSummary) : String := s.toJson.pretty

/-- The name of the directory. -/
def directoryName (s : CaseSummary) : String :=
  s.createdAt.compactText ++ "-w" ++ natText s.facts.worker.toNat ++ "-i" ++
    natText s.facts.iteration.toNat ++ "-" ++ s.id.shortText

end CaseSummary

end EngineFuzz
