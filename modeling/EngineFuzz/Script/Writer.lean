/-!
# Writing indented lines

The levels of indentation follow the blocks of a script.
-/

namespace EngineFuzz

/-- Lines written so far, the latest first, and the current level. -/
structure ScriptWriter where
  lines : List String
  level : Nat
deriving Repr

namespace ScriptWriter

/-- Nothing is written yet. -/
def empty : ScriptWriter := ⟨[], 0⟩

/-- Four spaces a level. -/
def indentation (level : Nat) : String := String.ofList (List.replicate (4 * level) ' ')

/-- Writes a line at the current level. -/
def emit (w : ScriptWriter) (line : String) : ScriptWriter :=
  { w with lines := (indentation w.level ++ line ++ "\n") :: w.lines }

/-- Writes a line that opens a block. -/
def openBlock (w : ScriptWriter) (line : String) : ScriptWriter :=
  let written := w.emit line
  { written with level := written.level + 1 }

/-- Writes a line that closes a block. -/
def closeBlock (w : ScriptWriter) (line : String) : ScriptWriter :=
  { w with level := w.level - 1 }.emit line

/-- Writes a line that closes a block and opens the next. -/
def reopenBlock (w : ScriptWriter) (line : String) : ScriptWriter :=
  let closed := w.closeBlock line
  { closed with level := closed.level + 1 }

/-- All lines, in order. -/
def text (w : ScriptWriter) : String := String.join w.lines.reverse

end ScriptWriter

end EngineFuzz
