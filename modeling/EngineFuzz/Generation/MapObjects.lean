import EngineFuzz.Generation.ScriptCode

/-!
# Generators of objects that share few property names

Objects get some of six properties in varying order and are then loaded from and stored to.
-/

namespace EngineFuzz.Generate

open Build

/-- The property names that all such objects share. -/
def mapProperties : List String := ["a", "b", "c", "d", "e", "f"]

/-- How often a function is called in a loop. -/
def hotIterations : Nat := 100

/-- Calls a function with one argument for each parameter. -/
def callOnce (f : Variable) : Build Unit := do
  let _ ← call f (← randomArguments f) false

/-- Adds up to `n` properties with other names. -/
def moreMapProperties (properties : List (String × Variable)) :
    Nat → Build (List (String × Variable))
  | 0 => return properties
  | n + 1 => do
    let name ← Draw.chooseD mapProperties "a"
    if properties.any fun p => p.1 == name then moreMapProperties properties n
    else moreMapProperties (properties ++ [(name, ← randomScriptValue)]) n

/-- From one to four properties, the first of which is "a". -/
def randomMapProperties : Build (List (String × Variable)) := do
  moreMapProperties [("a", ← randomScriptValue)] 3

/-- An integer, a double or a string. -/
def primitiveValue : Build Unit := do
  match ← Draw.nat32 0 2 with
  | 0 => integerValue
  | 1 => floatValue
  | _ => stringValue

/-- A new object with some of the properties. -/
def freshMapObject : Build Variable := do object (← randomMapProperties)

/-- Makes a new object. -/
def mapObject : Build Unit := do
  let _ ← freshMapObject

/-- A function that makes objects, and some calls of it. -/
def objectMaker : Build Unit := do
  let maker ← function (← randomParameterCount) fun _ => do giveBack (some (← freshMapObject))
  let calls ← Draw.nat32 1 3
  let _ ← times calls (callOnce maker)

/-- Loads one of the properties. -/
def mapPropertyLoad (target : Variable) : Build Unit := do
  let _ ← property target (← Draw.chooseD mapProperties "a")

/-- Stores a visible value in one of the properties. -/
def storeMapProperty (target : Variable) : Build Unit := do
  let name ← Draw.chooseD mapProperties "a"
  setProperty target name (← randomScriptValue)

/-- Stores from one to three times. -/
def mapPropertyStore (target : Variable) : Build Unit := do
  let stores ← Draw.nat32 1 3
  let _ ← times stores (storeMapProperty target)

/-- A function with nested code and three calls of it. -/
def functionDefinition (nested : Build Unit) : Build Unit := do
  let f ← functionWith (← randomParameterCount) nested
  let _ ← times 3 (callOnce f)

/-- Calls a function in a loop, always with the same arguments. -/
def repeatedCall (f : Variable) : Build Unit := do
  let args ← randomArguments f
  repeatBlock hotIterations.toUInt32 fun _ => do
    let _ ← call f args false

end EngineFuzz.Generate
