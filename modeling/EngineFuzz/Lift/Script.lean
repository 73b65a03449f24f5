import EngineFuzz.Lift.Module
import EngineFuzz.Script.Literal
import EngineFuzz.Script.Writer

/-!
# Lifting programs to scripts

Each variable is written as `v` and its number.  Variables that are reassigned are declared with
`let`, all others with `const`.  An operation that may throw stands in a `try` statement, so that
its output is undefined afterwards instead of the script ending.

* `Lifter.instruction`: the lines of one instruction.
* `Program.lift`: the script of a program.
-/

namespace EngineFuzz

/-- What happens with an exception of a guarded operation. -/
inductive Handler where
  | ignore
  | reportTrap
  | reportInstantiation
deriving DecidableEq, Repr

/-- The clause that handles the exception. -/
def Handler.clause : Handler → String
  | ignore => "catch (e) \x7b\x7d"
  | reportTrap =>
    "catch (e) \x7b if (e instanceof WebAssembly.RuntimeError) output(\"trap: \" + e.message); \x7d"
  | reportInstantiation =>
    "catch (e) \x7b output(\"instantiation failed: \" + e.message); \x7d"

/-- What is known of the program around an instruction. -/
structure Lifter where
  /-- The variables that some instruction reassigns. -/
  reassigned : List Variable
  /-- The variables that hold functions read from the exports of an instance. -/
  wasmFunctions : List Variable

namespace Lifter

/-- What has to be known of these instructions before they are lifted. -/
def ofInstructions (instructions : List Instruction) : Lifter where
  reassigned := instructions.filterMap fun i =>
    match i.operation with
    | .reassign => i.inputs.head?
    | _ => none
  wasmFunctions := instructions.filterMap fun i =>
    match i.operation with
    | .getWasmExport _ => i.output?
    | _ => none

/-- Text in braces. -/
def braced (s : String) : String := "\x7b " ++ s ++ " \x7d"

/-- The text of an object without fields. -/
def emptyBraces : String := "\x7b\x7d"

/-- A statement that may throw, with its handler. -/
def tryStatement (statement : String) (handler : Handler) : String :=
  "try " ++ braced (statement ++ ";") ++ " " ++ handler.clause

/-- How a variable is declared. -/
def keyword (l : Lifter) (v : Variable) : String :=
  if l.reassigned.contains v then "let" else "const"

/-- Declares a variable. -/
def define (l : Lifter) (w : ScriptWriter) (v : Variable) (expression : String) : ScriptWriter :=
  w.emit (l.keyword v ++ " " ++ v.text ++ " = " ++ expression ++ ";")

/-- Declares the output of an instruction. -/
def defineOutput (l : Lifter) (w : ScriptWriter) (i : Instruction) (expression : String) :
    Except LiftError ScriptWriter :=
  match i.output? with
  | none => .error (.noOutput i.operation)
  | some v => .ok (l.define w v expression)

/-- An expression that may throw; its value goes into the output, if there is one. -/
def guarded (w : ScriptWriter) (output? : Option Variable) (expression : String)
    (handler : Handler) : ScriptWriter :=
  match output? with
  | some v =>
    (w.emit ("let " ++ v.text ++ ";")).emit (tryStatement (v.text ++ " = " ++ expression) handler)
  | none => w.emit (tryStatement expression handler)

/-- A call, guarded if the operation says so. -/
def call (l : Lifter) (w : ScriptWriter) (i : Instruction) (expression : String)
    (handler : Handler) : Except LiftError ScriptWriter :=
  if i.operation.isGuarded then .ok (guarded w i.output? expression handler)
  else l.defineOutput w i expression

/-- The property of an object that may be undefined. -/
def optionalMember (object : Variable) (name : String) : String :=
  if Literal.isIdentifier name then object.text ++ "?." ++ name
  else object.text ++ "?.[" ++ Literal.string name ++ "]"

/-- The fields of an import object, the first of which has the number `index`. -/
def importFields (index : Nat) : List Variable → List String
  | [] => []
  | v :: rest =>
    (WasmModule.importName index ++ ": " ++ v.text) :: importFields (index + 1) rest

/-- The object that supplies the imports of a module. -/
def importObject (sources : List Variable) : String :=
  if sources.isEmpty then emptyBraces
  else braced (WasmModule.importModule ++ ": " ++ braced (joined ", " (importFields 0 sources)))

/-- The expression for the exports of a new instance. -/
def instanceExports (module : Variable) (sources : List Variable) : String :=
  "new WebAssembly.Instance(" ++ module.text ++ ", " ++ importObject sources ++ ").exports"

/-- The end of a module: the compiled module and the exports of an instance. -/
def module (l : Lifter) (w : ScriptWriter) (m : EncodedModule) (i : Instruction) :
    Except LiftError ScriptWriter :=
  match i.outputs with
  | [compiled, exports] =>
    let source := "new WebAssembly.Module(new Uint8Array(" ++ Literal.byteArray m.bytes ++ "))"
    .ok (guarded (l.define w compiled source) (some exports)
      (instanceExports compiled m.importSources) .reportInstantiation)
  | _ => .error .moduleOutputs

/-- An object literal. -/
def objectLiteral (names : List String) (values : List Variable) : String :=
  let fields := (names.zip values).map fun (name, v) => Literal.propertyKey name ++ ": " ++ v.text
  if fields.isEmpty then emptyBraces else braced (joined ", " fields)

/-- Operands in parentheses. -/
def arguments (vs : List Variable) : String := "(" ++ variablesText vs ++ ")"

/-- A quoted field of a descriptor. -/
def quotedField (name value : String) : String := name ++ ": \"" ++ value ++ "\""

/-- Minimum and maximum in a descriptor. -/
def limitFields (minimum : UInt32) (maximum : Option UInt32) : List String :=
  ("initial: " ++ natText minimum.toNat) ::
    (maximum.map fun n => "maximum: " ++ natText n.toNat).toList

/-- The lines of one instruction outside of modules. -/
def instruction (l : Lifter) (w : ScriptWriter) (i : Instruction) :
    Except LiftError ScriptWriter :=
  let output := l.defineOutput w i
  match i.operation with
  | .loadInteger v => output (Literal.integer v)
  | .loadBigInt v => output (Literal.bigInt v)
  | .loadFloat v => output (Literal.float v)
  | .loadString v => output (Literal.string v)
  | .loadBoolean v => output (boolText v)
  | .loadUndefined => output "undefined"
  | .loadNull => output "null"
  | .loadRegExp pattern flags => output (Literal.regExp pattern flags)
  | .loadBuiltin name => output name
  | .createObject names => output (objectLiteral names i.inputs)
  | .createArray _ => output ("[" ++ variablesText i.inputs ++ "]")
  | .getProperty name => do output (Literal.member (← i.inputAt 0).text name)
  | .setProperty name => do
    return w.emit (Literal.member (← i.inputAt 0).text name ++ " = " ++ (← i.inputAt 1).text ++ ";")
  | .deleteProperty name => do output ("delete " ++ Literal.member (← i.inputAt 0).text name)
  | .getElement index => do
    output ((← i.inputAt 0).text ++ "[" ++ intText index.toInt ++ "]")
  | .setElement index => do
    return w.emit ((← i.inputAt 0).text ++ "[" ++ intText index.toInt ++ "] = " ++
      (← i.inputAt 1).text ++ ";")
  | .getComputedProperty => do
    output ((← i.inputAt 0).text ++ "[" ++ (← i.inputAt 1).text ++ "]")
  | .setComputedProperty => do
    return w.emit ((← i.inputAt 0).text ++ "[" ++ (← i.inputAt 1).text ++ "] = " ++
      (← i.inputAt 2).text ++ ";")
  | .callFunction .. => do
    let callee ← i.inputAt 0
    let handler := if l.wasmFunctions.contains callee then Handler.reportTrap else .ignore
    l.call w i (callee.text ++ arguments i.inputs.tail) handler
  | .callMethod method _ _ => do
    let callee := Literal.member (← i.inputAt 0).text method
    l.call w i (callee ++ arguments i.inputs.tail) .ignore
  | .construct .. => do
    l.call w i ("new " ++ (← i.inputAt 0).text ++ arguments i.inputs.tail) .ignore
  | .binaryOperation op => do
    output ((← i.inputAt 0).text ++ " " ++ op.token ++ " " ++ (← i.inputAt 1).text)
  | .unaryOperation op => do output (op.token ++ (← i.inputAt 0).text)
  | .compare op => do
    output ((← i.inputAt 0).text ++ " " ++ op.token ++ " " ++ (← i.inputAt 1).text)
  | .reassign => do
    return w.emit ((← i.inputAt 0).text ++ " = " ++ (← i.inputAt 1).text ++ ";")
  | .beginPlainFunction _ =>
    match i.output? with
    | none => .error .functionWithoutOutput
    | some f => .ok (w.openBlock ("function " ++ f.text ++ arguments i.innerOutputs ++ " \x7b"))
  | .endPlainFunction | .endIf | .endRepeatLoop | .endTryCatch => .ok (w.closeBlock "\x7d")
  | .returnValue true => do return w.emit ("return " ++ (← i.inputAt 0).text ++ ";")
  | .returnValue false => .ok (w.emit "return;")
  | .beginIf => do return w.openBlock ("if (" ++ (← i.inputAt 0).text ++ ") \x7b")
  | .beginElse => .ok (w.reopenBlock "\x7d else \x7b")
  | .beginRepeatLoop iterations =>
    match i.innerOutputs.head? with
    | none => .error .loopWithoutCounter
    | some counter =>
      let index := "i" ++ natText counter.number.toNat
      let opened := w.openBlock ("for (let " ++ index ++ " = 0; " ++ index ++ " < " ++
        natText iterations.toNat ++ "; " ++ index ++ "++) \x7b")
      .ok (l.define opened counter index)
  | .loopBreak => .ok (w.emit "break;")
  | .loopContinue => .ok (w.emit "continue;")
  | .beginTry => .ok (w.openBlock "try \x7b")
  | .beginCatch =>
    match i.innerOutputs.head? with
    | none => .error .catchWithoutVariable
    | some v => .ok (w.reopenBlock ("\x7d catch (" ++ v.text ++ ") \x7b"))
  | .throwException => do return w.emit ("throw " ++ (← i.inputAt 0).text ++ ";")
  | .createWasmGlobal value isMutable =>
    output ("new WebAssembly.Global(" ++
      braced (quotedField "value" value.type.descriptorName ++ ", mutable: " ++
        boolText isMutable) ++
      ", " ++ Literal.wasmValue value ++ ")")
  | .createWasmMemory least most shared =>
    let fields := limitFields least most ++ if shared then ["shared: true"] else []
    output ("new WebAssembly.Memory(" ++ braced (joined ", " fields) ++ ")")
  | .createWasmTable element least most =>
    let fields := quotedField "element" element.descriptorName :: limitFields least most
    output ("new WebAssembly.Table(" ++ braced (joined ", " fields) ++ ")")
  | .instantiateWasm _ => do
    let instantiated := instanceExports (← i.inputAt 0) i.inputs.tail
    return guarded w i.output? instantiated .reportInstantiation
  | .getWasmExport name => do output (optionalMember (← i.inputAt 0) name)
  | .getWasmMemory index => do
    output (optionalMember (← i.inputAt 0) ("memory" ++ natText index.toNat))
  | .writeWasmMemory offset bytes => do
    let statement := "new Uint8Array(" ++ (← i.inputAt 0).text ++ ".buffer).set(" ++
      Literal.byteArray bytes ++ ", " ++ natText offset.toNat ++ ")"
    return guarded w none statement .ignore
  | .getWasmGlobal name => do output (optionalMember (← i.inputAt 0) name ++ "?.value")
  | .beginWasmModule | .endWasmModule => .error .moduleBoundary
  | op => .error (.outsideModule op)

/-- The state while a program is lifted. -/
structure Progress where
  writer : ScriptWriter
  inModule : Bool
  /-- The modules that are still to come. -/
  modules : List EncodedModule

/-- Goes past the instruction with the number `index`.  The instructions of a module are part of
its binary form. -/
def step (l : Lifter) (includeComments : Bool) (s : Progress) (index : Nat) (i : Instruction) :
    Except LiftError Progress := do
  let w := if includeComments then s.writer.emit ("// " ++ i.text) else s.writer
  match i.operation with
  | .beginWasmModule => return { s with writer := w, inModule := true }
  | .endWasmModule =>
    match s.modules.find? fun m => m.last == index with
    | none => throw (.noModuleEndsAt index)
    | some m => return { s with writer := ← l.module w m i, inModule := false }
  | _ =>
    if s.inModule then return { s with writer := w }
    else return { s with writer := ← l.instruction w i }

/-- Goes past instructions, the first of which has the number `index`. -/
def run (l : Lifter) (includeComments : Bool) (s : Progress) (index : Nat) :
    List Instruction → Except LiftError Progress
  | [] => .ok s
  | i :: rest => do l.run includeComments (← l.step includeComments s index i) (index + 1) rest

end Lifter

/-- The script of a program, with the instructions as comments if asked for. -/
def Program.lift (p : Program) (environment : Environment) (includeComments : Bool) :
    Except LiftError String := do
  p.instructions.forM (·.checkArity)
  let modules ← p.encodeModules environment
  let lifter := Lifter.ofInstructions p.instructions
  let final ← lifter.run includeComments ⟨.empty, false, modules⟩ 0 p.instructions
  return final.writer.text

end EngineFuzz
