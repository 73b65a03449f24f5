import EngineFuzz.Generation.FunctionBody
import EngineFuzz.Generation.MapObjects
import EngineFuzz.Generation.ModuleBody

/-!
# Running generators

A build draws generators until it has appended enough instructions, or until too many draws in a
row have appended nothing.  Recursive generators build nested code in turn, as long as the nesting
is not too deep.

* `Generator.code`: the code that a generator appends.
* `Build.build`: a build with a budget.
* `Build.nested`: the build that a recursive generator starts.
-/

namespace EngineFuzz

open Generate in
/-- Appends the code of a generator.  `nested` builds nested code, and `v` is what it reads. -/
def Generator.code (nested : Build Unit) (v : Variable) : Generator → Build Unit
  | integer => integerValue
  | bigInt => bigIntValue
  | float => floatValue
  | string => stringValue
  | boolean => booleanValue
  | undefined => undefinedValue
  | null => nullValue
  | regExp => regExpValue
  | builtin => builtinValue
  | objectLiteral => Generate.objectLiteral
  | array => arrayValue
  | integerArray => Generate.integerArray
  | floatArray => Generate.floatArray
  | typedArray => Generate.typedArray
  | trivialFunction => Generate.trivialFunction
  | propertyRetrieval => Generate.propertyRetrieval v
  | propertyAssignment => Generate.propertyAssignment v
  | propertyRemoval => Generate.propertyRemoval v
  | elementRetrieval => Generate.elementRetrieval v
  | elementAssignment => Generate.elementAssignment v
  | computedPropertyRetrieval => computedRetrieval v
  | computedPropertyAssignment => computedAssignment v
  | methodCall => Generate.methodCall v
  | functionCall => Generate.functionCall v
  | constructorCall => Generate.constructorCall v
  | apiMethodCall => Generate.apiMethodCall
  | binaryOperation => Generate.binaryOperation v
  | unaryOperation => Generate.unaryOperation v
  | comparison => Generate.comparison v
  | numberComputation => Generate.numberComputation
  | reassignment => Generate.reassignment v
  | plainFunction => Generate.plainFunction nested
  | ifElse => Generate.ifElse nested v
  | repeatLoop => Generate.repeatLoop nested
  | tryCatch => Generate.tryCatch nested
  | returnValue => Generate.returnValue
  | loopBreak => Generate.loopBreak
  | loopContinue => Generate.loopContinue
  | throwValue => Generate.throwValue v
  | wasmModule => Generate.wasmModule nested
  | wasmInstantiate => Generate.wasmInstantiate v
  | wasmExportCall => Generate.wasmExportCall v
  | wasmMemoryOperations => Generate.wasmMemoryOperations v
  | wasmGlobal => Generate.wasmGlobal v
  | wasmMemory => Generate.wasmMemory v
  | wasmTable => Generate.wasmTable
  | wasmMemoryBoundary => Generate.wasmMemoryBoundary
  | wasmConcurrentAccess => Generate.wasmConcurrentAccess
  | wasmMemoryAccess => Generate.wasmMemoryAccess
  | wasmSimd => Generate.wasmSimd
  | wasmRandomBytes => Generate.wasmRandomBytes
  | wasmDefineGlobal => Generate.wasmDefineGlobal
  | wasmImportGlobal => Generate.wasmImportGlobal v
  | wasmDefineTable => Generate.wasmDefineTable
  | wasmImportTable => Generate.wasmImportTable v
  | wasmDefineMemory => Generate.wasmDefineMemory
  | wasmImportMemory => Generate.wasmImportMemory v
  | wasmImportFunction => Generate.wasmImportFunction v
  | wasmFunction => wasmFunctionDefinition nested
  | wasmConst => Generate.wasmConst
  | wasmIntBinary => Generate.wasmIntBinary
  | wasmIntUnary => Generate.wasmIntUnary
  | wasmIntEqz => Generate.wasmIntEqz
  | wasmIntCompare => Generate.wasmIntCompare
  | wasmFloatBinary => Generate.wasmFloatBinary
  | wasmFloatUnary => Generate.wasmFloatUnary
  | wasmFloatCompare => Generate.wasmFloatCompare
  | wasmGlobalLoad => Generate.wasmGlobalLoad v
  | wasmGlobalStore => Generate.wasmGlobalStore v
  | wasmTableGet => Generate.wasmTableGet v
  | wasmTableSet => Generate.wasmTableSet v
  | wasmMemoryLoad => Generate.wasmMemoryLoad v
  | wasmMemoryStore => Generate.wasmMemoryStore v
  | wasmCall => wasmFunctionCall v
  | wasmReassign => Generate.wasmReassign v
  | wasmBlock => wasmBlockCode nested
  | wasmLoop => wasmLoopCode nested
  | wasmIf => wasmIfCode nested
  | wasmBranch => Generate.wasmBranch v
  | wasmBranchIf => Generate.wasmBranchIf v
  | wasmReturn => Generate.wasmReturn
  | wasmUnreachable => Generate.wasmUnreachable
  | primitiveValue => Generate.primitiveValue
  | mapObject => Generate.mapObject
  | objectMaker => Generate.objectMaker
  | mapPropertyStore => Generate.mapPropertyStore v
  | mapPropertyLoad => Generate.mapPropertyLoad v
  | functionDefinition => Generate.functionDefinition nested
  | singleCall => callOnce v
  | repeatedCall => Generate.repeatedCall v

namespace InputContract

/-- Whether variables of these types can satisfy the contract. -/
def isSatisfiable (visible : List StaticType) : InputContract → Bool
  | none | preferred _ => true
  | one => visible.any StaticType.isScriptValue
  | required accepts => visible.any accepts

/-- Draws what a generator reads.  A generator that reads nothing is given some variable. -/
def bind : InputContract → Build (Option Variable)
  | none => return some ⟨0⟩
  | one => Build.randomVariable StaticType.isScriptValue
  | required accepts => Build.randomVariable accepts
  | preferred accepts => do
    let preferred? ← Build.randomVariable accepts
    if preferred?.isSome then return preferred? else Build.randomVariable StaticType.isScriptValue

end InputContract

namespace Builder

/-- Whether a generator may run at the end of the program. -/
def isEligible (b : Builder) (allowNesting : Bool) (visible : List StaticType) (g : Generator) :
    Bool :=
  b.scopes.context.contains g.info.context && (allowNesting || !g.info.isRecursive) &&
    g.info.inputs.isSatisfiable visible

/-- For each generator that takes part, whether it may run at the end of the program. -/
def eligibility (b : Builder) (allowNesting : Bool) : Array Bool :=
  let visible := b.visibleTypes
  (b.generators.items.map fun m => b.isEligible allowNesting visible m.1).toArray

/-- Draws generators until `remaining` instructions have been appended or `limit` draws in a row,
of which `failures` are past, have appended nothing. -/
def buildLoop (run : Build Bool) (limit remaining failures : Nat) (b : Builder) : Builder :=
  if remaining = 0 then b
  else
    let before := b.size
    let (ran, b) := run b
    let appended := b.size - before
    if ran && appended ≠ 0 then buildLoop run limit (remaining - appended) 0 b
    else if failures + 1 ≥ limit then b
    else buildLoop run limit remaining (failures + 1) b
termination_by remaining * (limit + 1) + (limit - failures)
decreasing_by
  · rename_i h
    simp only [Bool.and_eq_true, decide_eq_true_eq] at h
    have hlt := Nat.sub_lt (Nat.pos_of_ne_zero ‹remaining ≠ 0›) (Nat.pos_of_ne_zero h.2)
    have hle := Nat.mul_le_mul_right (limit + 1) (Nat.succ_le_of_lt hlt)
    rw [Nat.succ_mul] at hle
    exact Nat.lt_of_lt_of_le (Nat.add_lt_add_left (Nat.lt_succ_of_le (Nat.sub_le _ _)) _)
      (Nat.le_add_right_of_le hle)
  · omega

end Builder

namespace Build

/-- Runs a generator, if it finds what it reads. -/
def runWith (nested : Build Unit) (g : Generator) : Build Bool := do
  match ← g.info.inputs.bind with
  | none => return false
  | some v =>
    g.code nested v
    return true

/-- Runs one of the eligible generators, drawn by weight. -/
def runRandomWith (allowNesting : Bool) (nested : Build Unit) : Build Bool := do
  let generators ← look (·.generators)
  let eligibility ← look (·.eligibility allowNesting)
  match ← generators.chooseIndexWhere fun index _ => eligibility.getD index false with
  | none => return false
  | some index =>
    match generators.get? index with
    | none => return false
    | some g => runWith nested g

/-- Builds with a budget. -/
def buildWith (allowNesting : Bool) (nested : Build Unit) (budget : Nat) : Build Unit := fun b =>
  let limit := b.settings.maxConsecutiveFailures.toNat
  ((), b.buildLoop (runRandomWith allowNesting nested) limit budget 0)

/-- Counts a build as nested while it goes on. -/
def deeper (body : Build Unit) : Build Unit := do
  modify fun b => { b with recursionDepth := b.recursionDepth + 1 }
  body
  modify fun b => { b with recursionDepth := b.recursionDepth - 1 }

/-- A budget for nested code. -/
def nestedBudget : Build Nat := do
  Draw.nat64 1 (max (← look (·.settings.recursiveBudget)).toNat 1)

/-- Builds where `levels` more levels of nesting are allowed. -/
def buildAt (levels budget : Nat) : Build Unit :=
  match levels with
  | 0 => buildWith false (pure ()) budget
  | n + 1 => buildWith true (do deeper (buildAt n (← nestedBudget))) budget

/-- How many more levels of nesting are allowed. -/
def levels : Build Nat := look fun b => b.settings.maxRecursionDepth.toNat - b.recursionDepth

/-- Appends about `budget` instructions. -/
def build (budget : Nat) : Build Unit := do buildAt (← levels) budget

/-- Builds nested code with a random budget. -/
def nested : Build Unit := do
  let budget ← nestedBudget
  deeper (buildAt ((← levels) - 1) budget)

/-- Runs a generator at the end of the program, if it finds what it reads. -/
def runGenerator (g : Generator) : Build Bool := runWith nested g

/-- Runs one of the eligible generators. -/
def runRandom : Build Bool := do runRandomWith (decide ((← levels) ≠ 0)) nested

/-- Makes some values for later generators to use. -/
def values : Build Unit := do
  let size ← look (·.settings.prefixSize)
  withGenerators (← look (·.toolbox.valueGenerators)) (build size.toNat)

end Build

end EngineFuzz
