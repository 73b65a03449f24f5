import EngineFuzz.Session.Worker

/-!
# The command line

Reads settings as JSON from standard input, no input meaning the defaults, and runs a session.  A
line of JSON is printed for every case that is kept, and at the end one with the statistics.
-/

namespace EngineFuzz.CommandLine

/-- All of a stream. -/
partial def readAll (input : IO.FS.Stream) (text : String) : IO String := do
  let line ← input.getLine
  if line.isEmpty then return text
  readAll input (text ++ line)

/-- The line about an iteration, if its case is kept. -/
def caseLine? (storeAll : Bool) (worker iteration : UInt64) : Iteration → Option String
  | .tried _ t => do
    let facts := t.facts worker iteration (← t.reason? storeAll)
    return (Json.object (facts.fields ++ [("script", .string t.script)])).compact
  | _ => none

/-- Runs the iterations of a worker from `done` on, and gives their counts. -/
partial def runWorker (settings : SessionSettings) (output : IO.FS.Stream) (w : Worker)
    (done : UInt64) (counts : Statistics) : IO Statistics := do
  if done == settings.iterations then return counts
  let (result, w) := w.iterate
  if let some line := caseLine? settings.storeAll w.number done result then
    output.putStrLn line
    output.flush
  runWorker settings output w (done + 1)
    (counts.merge (.ofIteration settings.storeAll true result))

/-- The settings that the input gives; without any, the default ones. -/
def settingsOf (text : String) : Except Failure Settings :=
  if text.toList.all isBlank then .ok {} else orFailure (Settings.parse text)

/-- Runs a session; the result is the exit code. -/
def run (input output errors : IO.FS.Stream) : IO UInt32 := do
  let text ← readAll input ""
  match settingsOf text with
  | .error e => errors.putStrLn e.text; return 1
  | .ok settings =>
    match Session.start settings with
    | .error e => errors.putStrLn e.text; return 1
    | .ok workers =>
      let mut counts : Statistics := {}
      for w in workers do
        counts ← runWorker settings.session output w 0 counts
      output.putStrLn counts.toJson.compact
      return 0

end EngineFuzz.CommandLine

/-- Runs a session and prints what it kept and what it counted. -/
def main : IO UInt32 := do
  EngineFuzz.CommandLine.run (← IO.getStdin) (← IO.getStdout) (← IO.getStderr)
