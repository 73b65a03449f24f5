import EngineFuzz.Generation.Values

/-!
# Generators of script operations and control flow

A generator that builds nested code is given the computation that does so.
-/

namespace EngineFuzz.Generate

open Build

/-! ### Properties and elements -/

/-- Reads a property. -/
def propertyRetrieval (target : Variable) : Build Unit := do
  let _ ← property target (← randomPropertyName)

/-- Writes a visible value to a property. -/
def propertyAssignment (target : Variable) : Build Unit := do
  let name ← randomPropertyName
  setProperty target name (← randomScriptValue)

/-- Removes a property. -/
def propertyRemoval (target : Variable) : Build Unit := do
  let _ ← value (.deleteProperty (← randomPropertyName)) [target]

/-- A small index with a probability in percent, or else any integer. -/
def randomIndex (percent : Nat) : Build Int64 := do
  if ← Draw.chance percent then return Int64.ofInt (← Draw.int64 0 15)
  else return Int64.ofInt (← randomInteger)

/-- Reads an element, mostly at a small index. -/
def elementRetrieval (target : Variable) : Build Unit := do
  let _ ← value (.getElement (← randomIndex 90)) [target]

/-- Writes a visible value to an element, mostly at a small index. -/
def elementAssignment (target : Variable) : Build Unit := do
  let index ← randomIndex 90
  perform (.setElement index) [target, ← randomScriptValue]

/-- Reads the property that a visible value names. -/
def computedRetrieval (target : Variable) : Build Unit := do
  let _ ← value .getComputedProperty [target, ← randomScriptValue]

/-- Writes to the property that a visible value names. -/
def computedAssignment (target : Variable) : Build Unit := do
  let key ← randomScriptValue
  perform .setComputedProperty [target, key, ← randomScriptValue]

/-! ### Calls -/

/-- Calls a method; an exception is caught. -/
def methodCall (target : Variable) : Build Unit := do
  let name ← randomMethodName target
  let args ← times (← randomParameterCount) randomScriptValue
  let _ ← callMethod target name args true

/-- Calls a function; half of the time an exception is caught. -/
def functionCall (target : Variable) : Build Unit := do
  let args ← randomArguments target
  let _ ← call target args (← Draw.chance 50)

/-- Calls a constructor; an exception is caught. -/
def constructorCall (target : Variable) : Build Unit := do
  let _ ← construct target (← randomArguments target) true

/-- The builtin groups whose methods are called. -/
def apiGroups : List String := ["Math", "JSON", "Reflect", "Atomics"]

/-- A call of a method of one of the builtin groups.  Those of "Math" do not throw. -/
def apiMethodCall : Build Unit := do
  let group ← Draw.chooseD apiGroups "Math"
  let target ← builtin group
  let name ← randomMethodName target
  let args ← times (← Draw.nat32 1 2) randomScriptValue
  let _ ← callMethod target name args (group != "Math")

/-! ### Operators -/

/-- A right operand, which is a BigInt exactly if the left one is. -/
def operandFor (lhs : Variable) : Build Variable := do
  if (← typeOf lhs) = .bigInt then
    match ← randomOfType .bigInt with
    | some rhs => return rhs
    | none => bigInt (← randomInteger)
  else
    match ← randomVariable fun t => t.isScriptValue && t != .bigInt with
    | some rhs => return rhs
    | none => freshInteger

/-- An unsigned shift is not defined for BigInts. -/
def binaryOperation (lhs : Variable) : Build Unit := do
  let rhs ← operandFor lhs
  let op ← Draw.chooseMember BinaryOperator
  let isBigInt := (← typeOf lhs) == .bigInt
  let _ ← binary lhs rhs (if op = .unRShift && isBigInt then .rShift else op)

/-- A unary plus is not defined for BigInts. -/
def unaryOperation (input : Variable) : Build Unit := do
  let op ← Draw.chooseMember UnaryOperator
  let isBigInt := (← typeOf input) == .bigInt
  let _ ← value (.unaryOperation (if op = .plus && isBigInt then .minus else op)) [input]

/-- Compares two values that may be compared. -/
def comparison (lhs : Variable) : Build Unit := do
  let rhs ← operandFor lhs
  let _ ← compare lhs rhs (← Draw.chooseMember Comparator)

/-- A fresh integer or double. -/
def freshNumber : Build Variable := do
  if ← Draw.chance 50 then freshInteger else freshFloat

/-- A number, mostly a visible one. -/
def numberValue : Build Variable := do
  match ← randomVariable StaticType.isNumber with
  | some v => if ← Draw.chance 70 then return v else freshNumber
  | none => freshNumber

/-- Operators whose results for numbers are numbers. -/
def numberOperators : List BinaryOperator := Enumeration.all.take 12

/-- Combines a number with further ones. -/
def combineNumbers (v : Variable) : Nat → Build Variable
  | 0 => return v
  | n + 1 => do
    let rhs ← numberValue
    let op ← Draw.chooseD numberOperators .add
    combineNumbers (← binary v rhs op) n

/-- Combines up to five numbers, and sometimes calls a method of "Math" with the result. -/
def numberComputation : Build Unit := do
  let first ← numberValue
  let result ← combineNumbers first (← Draw.nat32 1 4)
  if ← Draw.chance 30 then
    let math ← builtin "Math"
    let name ← randomMethodName math
    let _ ← callMethod math name [result] false

/-- Gives a variable another value of its static type with `assignment`. -/
def assignSameType (assignment : Operation) (target : Variable) : Build Unit := do
  let type ← typeOf target
  if let some v ← randomOfType type then
    if v ≠ target then perform assignment [target, v]

/-- Gives a variable another value of its static type. -/
def reassignment (target : Variable) : Build Unit := assignSameType .reassign target

/-! ### Control flow -/

/-- A function that runs `body` and returns a visible value. -/
def functionWith (parameters : Nat) (body : Build Unit) : Build Variable :=
  function parameters fun _ => do
    body
    giveBack (some (← randomScriptValue))

/-- A function with nested code. -/
def plainFunction (nested : Build Unit) : Build Unit := do
  let _ ← functionWith (← randomParameterCount) nested

/-- Nested code under a condition, half of the time with an alternative. -/
def ifElse (nested : Build Unit) (condition : Variable) : Build Unit := do
  if ← Draw.chance 50 then ifElseBlock condition nested fun _ => nested
  else ifBlock condition nested

/-- How often generated loops run. -/
def loopCounts : List UInt32 := [1, 2, 5, 10, 25, 100]

/-- Nested code in a counting loop. -/
def repeatLoop (nested : Build Unit) : Build Unit := do
  let iterations ← Draw.chooseD loopCounts 10
  repeatBlock iterations fun _ => nested

/-- Nested code with nested code as its handler. -/
def tryCatch (nested : Build Unit) : Build Unit := tryBlock nested fun _ _ => nested

/-- Returns a visible value. -/
def returnValue : Build Unit := do giveBack (some (← randomScriptValue))

/-- Leaves the loop. -/
def loopBreak : Build Unit := perform .loopBreak []

/-- Goes on with the next iteration. -/
def loopContinue : Build Unit := perform .loopContinue []

/-- Throws a value. -/
def throwValue (v : Variable) : Build Unit := perform .throwException [v]

end EngineFuzz.Generate
