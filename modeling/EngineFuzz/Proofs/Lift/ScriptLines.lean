import Mathlib
import EngineFuzz.Proofs.Lift.Scripts

/-!
# Lines of a script

The lines that lifting writes, with the variables in them told apart: those that a line reads, those
that it assigns and those that it declares.

* `LinePart`, `ScriptLine`: lines as they are made of parts.
* `ScriptWriter.writeAll`: what the writer makes of them.
* `Lifter.lines`, `Lifter.moduleLines`, `Lifter.allLines`: the lines of an instruction, of the end
  of a module and of a program.
* `Lifter.instruction_eq`, `Lifter.module_eq`, `Lifter.run_eq`: these lines are what lifting writes.
-/

namespace EngineFuzz

/-- How a line declares a variable. -/
inductive Declarator where
  | constant | letting | function | parameter | caught
deriving DecidableEq, Repr

namespace Declarator

/-- What stands in front of the variable. -/
def keyword : Declarator → String
  | constant => "const "
  | letting => "let "
  | function => "function "
  | parameter | caught => ""

/-- Whether the variable belongs to the block that the line opens. -/
def isInner : Declarator → Bool
  | parameter | caught => true
  | _ => false

end Declarator

/-- A part of a line. -/
inductive LinePart where
  | text (s : String)
  /-- A variable that is read. -/
  | operand (v : Variable)
  /-- A variable that is assigned. -/
  | target (v : Variable)
  | binding (how : Declarator) (v : Variable)
deriving DecidableEq, Repr

/-- What a line does to the blocks around it. -/
inductive LineKind where
  | plain | opening | closing | reopening
deriving DecidableEq, Repr

namespace LineKind

/-- Whether a block ends in front of the line. -/
def closes : LineKind → Bool
  | closing | reopening => true
  | _ => false

/-- Whether a block begins behind the line. -/
def opens : LineKind → Bool
  | opening | reopening => true
  | _ => false

end LineKind

/-- A line of a script. -/
structure ScriptLine where
  kind : LineKind
  parts : List LinePart
deriving DecidableEq, Repr

/-! ### Texts -/

/-- The text of a part. -/
def LinePart.render : LinePart → String
  | text s => s
  | operand v | target v => v.text
  | binding how v => how.keyword ++ v.text

/-- The text of parts. -/
def renderParts : List LinePart → String
  | [] => ""
  | part :: parts => part.render ++ renderParts parts

@[simp] lemma renderParts_nil : renderParts [] = "" := rfl

@[simp] lemma renderParts_cons {part : LinePart} {parts : List LinePart} :
    renderParts (part :: parts) = part.render ++ renderParts parts := rfl

@[simp] lemma renderParts_append {parts parts' : List LinePart} :
    renderParts (parts ++ parts') = renderParts parts ++ renderParts parts' := by
  induction parts with
  | nil => simp
  | cons part parts ih => simp [ih, String.append_assoc]

namespace ScriptWriter

/-- Writes a line. -/
def write (w : ScriptWriter) (line : ScriptLine) : ScriptWriter :=
  match line.kind with
  | .plain => w.emit (renderParts line.parts)
  | .opening => w.openBlock (renderParts line.parts)
  | .closing => w.closeBlock (renderParts line.parts)
  | .reopening => w.reopenBlock (renderParts line.parts)

@[simp] lemma write_plain {w : ScriptWriter} {parts : List LinePart} :
    w.write ⟨.plain, parts⟩ = w.emit (renderParts parts) := rfl

@[simp] lemma write_opening {w : ScriptWriter} {parts : List LinePart} :
    w.write ⟨.opening, parts⟩ = w.openBlock (renderParts parts) := rfl

@[simp] lemma write_closing {w : ScriptWriter} {parts : List LinePart} :
    w.write ⟨.closing, parts⟩ = w.closeBlock (renderParts parts) := rfl

@[simp] lemma write_reopening {w : ScriptWriter} {parts : List LinePart} :
    w.write ⟨.reopening, parts⟩ = w.reopenBlock (renderParts parts) := rfl

/-- Writes lines, in order. -/
def writeAll (w : ScriptWriter) (lines : List ScriptLine) : ScriptWriter := lines.foldl write w

@[simp] lemma writeAll_nil {w : ScriptWriter} : w.writeAll [] = w := rfl

@[simp] lemma writeAll_cons {w : ScriptWriter} {line : ScriptLine} {lines : List ScriptLine} :
    w.writeAll (line :: lines) = (w.write line).writeAll lines := rfl

lemma writeAll_append {w : ScriptWriter} {lines lines' : List ScriptLine} :
    w.writeAll (lines ++ lines') = (w.writeAll lines).writeAll lines' :=
  List.foldl_append

end ScriptWriter

/-! ### Lists of operands -/

namespace LinePart

/-- Variables with commas between them. -/
def listed (part : Variable → LinePart) : List Variable → List LinePart
  | [] => []
  | [v] => [part v]
  | v :: rest => part v :: text ", " :: listed part rest

/-- Named fields with commas between them. -/
def fields : List (String × Variable) → List LinePart
  | [] => []
  | [(name, v)] => [text (name ++ ": "), operand v]
  | (name, v) :: rest => text (name ++ ": ") :: operand v :: text ", " :: fields rest

/-- Operands in parentheses. -/
def arguments (vs : List Variable) : List LinePart :=
  text "(" :: (listed operand vs ++ [text ")"])

/-- Parts in braces. -/
def braced (parts : List LinePart) : List LinePart := text "\x7b " :: (parts ++ [text " \x7d"])

/-- An object literal. -/
def object (pairs : List (String × Variable)) : List LinePart :=
  if pairs.isEmpty then [text Lifter.emptyBraces] else braced (fields pairs)

/-- The access to a property. -/
def member (o : Variable) (name : String) : List LinePart :=
  [operand o, text (if Literal.isIdentifier name then "." ++ name
    else "[" ++ Literal.string name ++ "]")]

/-- The access to a property of an object that may be undefined. -/
def optionalMember (o : Variable) (name : String) : List LinePart :=
  [operand o, text (if Literal.isIdentifier name then "?." ++ name
    else "?.[" ++ Literal.string name ++ "]")]

/-- The fields of an import object with their names. -/
def importPairs (index : Nat) : List Variable → List (String × Variable)
  | [] => []
  | v :: rest => (WasmModule.importName index, v) :: importPairs (index + 1) rest

/-- The object that supplies the imports of a module. -/
def imports (sources : List Variable) : List LinePart :=
  if sources.isEmpty then [text Lifter.emptyBraces]
  else braced (text (WasmModule.importModule ++ ": ") :: braced (fields (importPairs 0 sources)))

/-- The exports of a new instance. -/
def instanceExports (module : Variable) (sources : List Variable) : List LinePart :=
  text "new WebAssembly.Instance(" :: operand module :: text ", " ::
    (imports sources ++ [text ").exports"])

/-- A statement that may throw, with its handler. -/
def tryStatement (statement : List LinePart) (handler : Handler) : List LinePart :=
  text "try " :: (braced (statement ++ [text ";"]) ++ [text " ", text handler.clause])

variable {vs : List Variable} {o : Variable} {name : String} {pairs : List (String × Variable)}

lemma render_listed {part : Variable → LinePart} (h : ∀ v, (part v).render = v.text) :
    renderParts (listed part vs) = variablesText vs := by
  induction vs with
  | nil => rfl
  | cons v rest ih =>
      cases rest with
      | nil => simp [listed, h, variablesText, joined]
      | cons u rest =>
          rw [listed, renderParts_cons, renderParts_cons, ih, h]
          · simp [variablesText, joined, render, String.append_assoc]
          · exact List.cons_ne_nil _ _

lemma render_fields :
    renderParts (fields pairs) = joined ", " (pairs.map fun p => p.1 ++ ": " ++ p.2.text) := by
  induction pairs with
  | nil => rfl
  | cons p rest ih =>
      cases rest with
      | nil => simp [fields, render, joined]
      | cons q rest =>
          rw [fields, renderParts_cons, renderParts_cons, renderParts_cons, ih]
          · simp [joined, render, String.append_assoc]
          · exact List.cons_ne_nil _ _

@[simp] lemma render_operands : renderParts (listed operand vs) = variablesText vs :=
  render_listed fun _ => rfl

@[simp] lemma render_arguments : renderParts (arguments vs) = Lifter.arguments vs := by
  simp [arguments, Lifter.arguments, render, String.append_assoc]

@[simp] lemma render_braced {parts : List LinePart} :
    renderParts (braced parts) = Lifter.braced (renderParts parts) := by
  simp [braced, Lifter.braced, render, String.append_assoc]

@[simp] lemma render_object {names : List String} :
    renderParts (object ((names.zip vs).map fun p => (Literal.propertyKey p.1, p.2))) =
      Lifter.objectLiteral names vs := by
  unfold object Lifter.objectLiteral
  simp only [List.isEmpty_map]
  split
  · simp [render]
  · simp [render_fields, Function.comp_def]

@[simp] lemma render_member : renderParts (member o name) = Literal.member o.text name := by
  unfold member Literal.member
  split <;> simp [render, String.append_assoc]

@[simp] lemma render_optionalMember :
    renderParts (optionalMember o name) = Lifter.optionalMember o name := by
  unfold optionalMember Lifter.optionalMember
  split <;> simp [render, String.append_assoc]

lemma map_importPairs {index : Nat} :
    ((importPairs index vs).map fun p => p.1 ++ ": " ++ p.2.text) =
      Lifter.importFields index vs := by
  induction vs generalizing index with
  | nil => rfl
  | cons v rest ih => rw [importPairs, List.map_cons, ih, Lifter.importFields]

@[simp] lemma render_imports : renderParts (imports vs) = Lifter.importObject vs := by
  unfold imports Lifter.importObject
  split
  · simp [render]
  · rw [render_braced, renderParts_cons, render_braced, render_fields, map_importPairs]
    rfl

@[simp] lemma render_instanceExports :
    renderParts (instanceExports o vs) = Lifter.instanceExports o vs := by
  unfold instanceExports Lifter.instanceExports
  simp only [renderParts_cons, renderParts_append, render_imports, renderParts_nil, render]
  simp only [String.append_empty]
  simp only [String.append_assoc]

@[simp] lemma render_tryStatement {statement : List LinePart} {handler : Handler} :
    renderParts (tryStatement statement handler) =
      Lifter.tryStatement (renderParts statement) handler := by
  simp [tryStatement, Lifter.tryStatement, render, String.append_assoc]

end LinePart

/-! ### The lines of an instruction -/

namespace Lifter

open LinePart

/-- The expression that gives the output of an instruction. -/
def expression (i : Instruction) : List LinePart :=
  let input (k : Nat) := i.inputs.getD k default
  match i.operation with
  | .loadInteger v => [text (Literal.integer v)]
  | .loadBigInt v => [text (Literal.bigInt v)]
  | .loadFloat v => [text (Literal.float v)]
  | .loadString v => [text (Literal.string v)]
  | .loadBoolean v => [text (boolText v)]
  | .loadUndefined => [text "undefined"]
  | .loadNull => [text "null"]
  | .loadRegExp pattern flags => [text (Literal.regExp pattern flags)]
  | .loadBuiltin name => [text name]
  | .createObject names => object ((names.zip i.inputs).map fun p => (Literal.propertyKey p.1, p.2))
  | .createArray _ => text "[" :: (listed operand i.inputs ++ [text "]"])
  | .getProperty name => member (input 0) name
  | .deleteProperty name => text "delete " :: member (input 0) name
  | .getElement index => [operand (input 0), text ("[" ++ intText index.toInt ++ "]")]
  | .getComputedProperty => [operand (input 0), text "[", operand (input 1), text "]"]
  | .callFunction .. => operand (input 0) :: LinePart.arguments i.inputs.tail
  | .callMethod method _ _ => member (input 0) method ++ LinePart.arguments i.inputs.tail
  | .construct .. => text "new " :: operand (input 0) :: LinePart.arguments i.inputs.tail
  | .binaryOperation op => [operand (input 0), text (" " ++ op.token ++ " "), operand (input 1)]
  | .unaryOperation op => [text op.token, operand (input 0)]
  | .compare op => [operand (input 0), text (" " ++ op.token ++ " "), operand (input 1)]
  | .createWasmGlobal value isMutable =>
    [text ("new WebAssembly.Global(" ++
      braced (quotedField "value" value.type.descriptorName ++ ", mutable: " ++
        boolText isMutable) ++
      ", " ++ Literal.wasmValue value ++ ")")]
  | .createWasmMemory least most shared =>
    let fields := limitFields least most ++ if shared then ["shared: true"] else []
    [text ("new WebAssembly.Memory(" ++ braced (joined ", " fields) ++ ")")]
  | .createWasmTable element least most =>
    let fields := quotedField "element" element.descriptorName :: limitFields least most
    [text ("new WebAssembly.Table(" ++ braced (joined ", " fields) ++ ")")]
  | .instantiateWasm _ => LinePart.instanceExports (input 0) i.inputs.tail
  | .getWasmExport name => LinePart.optionalMember (input 0) name
  | .getWasmMemory index => LinePart.optionalMember (input 0) ("memory" ++ natText index.toNat)
  | .getWasmGlobal name => LinePart.optionalMember (input 0) name ++ [text "?.value"]
  | _ => []

/-- How a variable is declared. -/
def declarator (l : Lifter) (v : Variable) : Declarator :=
  if l.reassigned.contains v then .letting else .constant

/-- The line that declares a variable. -/
def defineLine (l : Lifter) (v : Variable) (expression : List LinePart) : ScriptLine :=
  ⟨.plain, binding (l.declarator v) v :: text " = " :: (expression ++ [text ";"])⟩

/-- The lines that declare a variable and try to give it a value. -/
def guardedLines (v : Variable) (expression : List LinePart) (handler : Handler) :
    List ScriptLine :=
  [⟨.plain, [binding .letting v, text ";"]⟩,
    ⟨.plain, LinePart.tryStatement (target v :: text " = " :: expression) handler⟩]

/-- The lines of a call. -/
def callLines (l : Lifter) (i : Instruction) (handler : Handler) : List ScriptLine :=
  if i.operation.isGuarded then guardedLines (i.outputs.headD default) (expression i) handler
  else [l.defineLine (i.outputs.headD default) (expression i)]

/-- The line that begins a function. -/
def functionLine (f : Variable) (parameters : List Variable) : ScriptLine :=
  ⟨.opening, binding .function f :: text "(" ::
    (listed (binding .parameter) parameters ++ [text ") \x7b"])⟩

/-- The lines of one instruction outside of modules. -/
def lines (l : Lifter) (i : Instruction) : List ScriptLine :=
  let input (k : Nat) := i.inputs.getD k default
  let output := i.outputs.headD default
  let inner := i.innerOutputs.headD default
  match i.operation with
  | .setProperty name =>
    [⟨.plain, member (input 0) name ++ [text " = ", operand (input 1), text ";"]⟩]
  | .setElement index =>
    [⟨.plain, [operand (input 0), text ("[" ++ intText index.toInt ++ "] = "), operand (input 1),
      text ";"]⟩]
  | .setComputedProperty =>
    [⟨.plain, [operand (input 0), text "[", operand (input 1), text "] = ", operand (input 2),
      text ";"]⟩]
  | .callFunction .. =>
    l.callLines i (if l.wasmFunctions.contains (input 0) then .reportTrap else .ignore)
  | .callMethod .. | .construct .. => l.callLines i .ignore
  | .reassign => [⟨.plain, [target (input 0), text " = ", operand (input 1), text ";"]⟩]
  | .beginPlainFunction _ =>
    [functionLine output i.innerOutputs]
  | .endPlainFunction | .endIf | .endRepeatLoop | .endTryCatch => [⟨.closing, [text "\x7d"]⟩]
  | .returnValue true => [⟨.plain, [text "return ", operand (input 0), text ";"]⟩]
  | .returnValue false => [⟨.plain, [text "return;"]⟩]
  | .beginIf => [⟨.opening, [text "if (", operand (input 0), text ") \x7b"]⟩]
  | .beginElse => [⟨.reopening, [text "\x7d else \x7b"]⟩]
  | .beginRepeatLoop iterations =>
    let index := "i" ++ natText inner.number.toNat
    [⟨.opening, [text ("for (let " ++ index ++ " = 0; " ++ index ++ " < " ++
        natText iterations.toNat ++ "; " ++ index ++ "++) \x7b")]⟩,
      l.defineLine inner [text index]]
  | .loopBreak => [⟨.plain, [text "break;"]⟩]
  | .loopContinue => [⟨.plain, [text "continue;"]⟩]
  | .beginTry => [⟨.opening, [text "try \x7b"]⟩]
  | .beginCatch => [⟨.reopening, [text "\x7d catch (", binding .caught inner, text ") \x7b"]⟩]
  | .throwException => [⟨.plain, [text "throw ", operand (input 0), text ";"]⟩]
  | .instantiateWasm _ => guardedLines output (expression i) .reportInstantiation
  | .writeWasmMemory offset bytes =>
    [⟨.plain, LinePart.tryStatement [text "new Uint8Array(", operand (input 0),
      text (".buffer).set(" ++ Literal.byteArray bytes ++ ", " ++ natText offset.toNat ++ ")")]
      .ignore⟩]
  | _ => [l.defineLine output (expression i)]

/-- The lines of the end of a module. -/
def moduleLines (l : Lifter) (m : EncodedModule) (i : Instruction) : List ScriptLine :=
  let compiled := i.outputs.getD 0 default
  l.defineLine compiled
      [text ("new WebAssembly.Module(new Uint8Array(" ++ Literal.byteArray m.bytes ++ "))")] ::
    guardedLines (i.outputs.getD 1 default) (LinePart.instanceExports compiled m.importSources)
      .reportInstantiation

/-- The lines of instructions, the first of which has the number `index` and stands inside a module
or outside.  The instructions of a module are part of its binary form. -/
def allLines (l : Lifter) (modules : List EncodedModule) (index : Nat) (inside : Bool) :
    List Instruction → List ScriptLine
  | [] => []
  | i :: rest =>
    match i.operation with
    | .beginWasmModule => l.allLines modules (index + 1) true rest
    | .endWasmModule =>
      ((modules.find? fun m => m.last == index).map (l.moduleLines · i)).getD [] ++
        l.allLines modules (index + 1) false rest
    | _ => (if inside then [] else l.lines i) ++ l.allLines modules (index + 1) inside rest

lemma allLines_cons {l : Lifter} {modules : List EncodedModule} {index : Nat} {inside : Bool}
    {i : Instruction} {is : List Instruction} (hbegin : i.operation ≠ .beginWasmModule)
    (hend : i.operation ≠ .endWasmModule) :
    l.allLines modules index inside (i :: is) =
      (if inside then [] else l.lines i) ++ l.allLines modules (index + 1) inside is := by
  rw [allLines]
  split
  · contradiction
  · contradiction
  · rfl

/-! ### Lifting writes these lines -/

variable {l : Lifter} {w w' : ScriptWriter} {i : Instruction} {v : Variable}
  {parts : List LinePart} {handler : Handler}

@[simp] lemma keyword_declarator : (l.declarator v).keyword = l.keyword v ++ " " := by
  unfold declarator keyword
  split <;> rfl

@[simp] lemma write_defineLine :
    w.write (l.defineLine v parts) = l.define w v (renderParts parts) := by
  simp [defineLine, define, render, String.append_assoc]

@[simp] lemma writeAll_guardedLines :
    w.writeAll (guardedLines v parts handler) =
      guarded w (some v) (renderParts parts) handler := by
  simp [guardedLines, guarded, render, Declarator.keyword, String.append_assoc]

lemma call_eq (ho : i.outputs = [v])
    (h : l.call w i (renderParts (expression i)) handler = .ok w') :
    w' = w.writeAll (l.callLines i handler) := by
  unfold call defineOutput at h
  unfold callLines
  rw [Instruction.output?, ho] at h
  rw [ho]
  split at h
  · rw [if_pos ‹_›]
    exact (Except.ok.inj h).symm.trans writeAll_guardedLines.symm
  · rw [if_neg ‹_›]
    exact (Except.ok.inj h).symm.trans write_defineLine.symm

/-- **The lines of an instruction** of the script are what lifting it writes. -/
theorem instruction_eq (ha : i.hasConsistentArity = true) (h : l.instruction w i = .ok w') :
    w' = w.writeAll (l.lines i) := by
  obtain ⟨hi, ho, hn⟩ := Instruction.hasConsistentArity_iff.mp ha
  obtain ⟨op, inputs, outputs, innerOutputs⟩ := i
  dsimp only at hi ho hn
  cases op with
  -- operations whose operands are counted
  | callFunction n guarded =>
      obtain ⟨o, rfl⟩ := List.length_eq_one_iff.mp ho
      cases inputs with
      | nil => cases h
      | cons f args =>
          refine call_eq rfl ?_
          rw [expression, renderParts_cons, render_arguments]
          exact h
  | callMethod method n guarded =>
      obtain ⟨o, rfl⟩ := List.length_eq_one_iff.mp ho
      cases inputs with
      | nil => cases h
      | cons f args =>
          refine call_eq rfl ?_
          rw [expression, renderParts_append, render_member, render_arguments]
          exact h
  | construct n guarded =>
      obtain ⟨o, rfl⟩ := List.length_eq_one_iff.mp ho
      cases inputs with
      | nil => cases h
      | cons f args =>
          refine call_eq rfl ?_
          rw [expression, renderParts_cons, renderParts_cons, render_arguments,
            ← String.append_assoc]
          exact h
  | instantiateWasm n =>
      obtain ⟨o, rfl⟩ := List.length_eq_one_iff.mp ho
      cases inputs with
      | nil => cases h
      | cons m sources =>
          obtain rfl := Except.ok.inj h
          simp [lines, expression, Instruction.output?]
  | beginPlainFunction n =>
      obtain ⟨o, rfl⟩ := List.length_eq_one_iff.mp ho
      obtain rfl := Except.ok.inj h
      have hp : renderParts (listed (binding .parameter) innerOutputs) =
          variablesText innerOutputs := render_listed fun v => by simp [render, Declarator.keyword]
      simp [lines, functionLine, render, Declarator.keyword, hp, arguments,
        String.append_assoc]
  | beginRepeatLoop n =>
      obtain ⟨v, rfl⟩ := List.length_eq_one_iff.mp hn
      obtain rfl := Except.ok.inj h
      simp [lines, render, String.append_assoc]
  | beginCatch =>
      obtain ⟨v, rfl⟩ := List.length_eq_one_iff.mp hn
      obtain rfl := Except.ok.inj h
      simp [lines, render, Declarator.keyword, String.append_assoc]
  | returnValue hasValue =>
      cases hasValue with
      | false =>
          obtain rfl := Except.ok.inj h
          simp [lines, render]
      | true =>
          obtain ⟨v, rfl⟩ := List.length_eq_one_iff.mp hi
          obtain rfl := Except.ok.inj h
          simp [lines, render, String.append_assoc]
  -- the others differ in how many operands they have
  | _ =>
      first
      | (obtain rfl := Except.ok.inj h
         simp [lines, render])
      | (obtain ⟨o, rfl⟩ := List.length_eq_one_iff.mp ho
         obtain rfl := Except.ok.inj h
         simp [lines, expression, render, String.append_assoc])
      | (obtain ⟨v, rfl⟩ := List.length_eq_one_iff.mp hi
         obtain rfl := Except.ok.inj h
         simp [lines, guarded, render, String.append_assoc])
      | (obtain ⟨v, rfl⟩ := List.length_eq_one_iff.mp hi
         obtain ⟨o, rfl⟩ := List.length_eq_one_iff.mp ho
         obtain rfl := Except.ok.inj h
         simp [lines, expression, render, String.append_assoc])
      | (obtain ⟨v, u, rfl⟩ := List.length_eq_two.mp hi
         obtain rfl := Except.ok.inj h
         simp [lines, render, String.append_assoc])
      | (obtain ⟨v, u, rfl⟩ := List.length_eq_two.mp hi
         obtain ⟨o, rfl⟩ := List.length_eq_one_iff.mp ho
         obtain rfl := Except.ok.inj h
         simp [lines, expression, render, String.append_assoc])
      | (obtain ⟨v, u, x, rfl⟩ := List.length_eq_three.mp hi
         obtain rfl := Except.ok.inj h
         simp [lines, render, String.append_assoc])
      | cases h

/-- **The lines of the end of a module** are what lifting it writes. -/
theorem module_eq {m : EncodedModule} (h : l.module w m i = .ok w') :
    w' = w.writeAll (l.moduleLines m i) := by
  unfold module at h
  split at h
  · rename_i compiled exports ho
    rw [moduleLines, ho, ScriptWriter.writeAll_cons, write_defineLine, List.getD_cons_zero,
      List.getD_cons_succ, List.getD_cons_zero, writeAll_guardedLines, render_instanceExports]
    obtain rfl := Except.ok.inj h
    simp [render]
  · exact nomatch h

/-- **The lines of instructions** are what lifting them without comments writes. -/
theorem run_eq {modules : List EncodedModule} {inside : Bool} {index : Nat} {p : Progress}
    {is : List Instruction} (ha : ∀ i ∈ is, i.hasConsistentArity = true)
    (h : l.run false ⟨w, inside, modules⟩ index is = .ok p) :
    p.writer = w.writeAll (l.allLines modules index inside is) := by
  induction is generalizing w inside index with
  | nil =>
      obtain rfl := Except.ok.inj h
      rfl
  | cons i is ih =>
      obtain ⟨hi, hrest⟩ := List.forall_mem_cons.mp ha
      rw [run, bind_eq_ok_iff] at h
      obtain ⟨q, hq, h⟩ := h
      by_cases hbegin : i.operation = .beginWasmModule
      · rw [step, hbegin] at hq
        obtain rfl := Except.ok.inj hq
        rw [allLines, hbegin]
        exact ih hrest h
      by_cases hend : i.operation = .endWasmModule
      · rw [step, hend] at hq
        rw [allLines, hend]
        dsimp only at hq ⊢
        split at hq
        · cases hq
        · rename_i m hm
          obtain ⟨w₁, hw₁, hq⟩ := bind_eq_ok_iff.mp hq
          obtain rfl := Except.ok.inj hq
          have hw₁ : l.module w m i = .ok w₁ := hw₁
          rw [hm, ScriptWriter.writeAll_append, Option.map_some, Option.getD_some,
            ← module_eq hw₁]
          exact ih hrest h
      · rw [step_eq hbegin hend] at hq
        rw [allLines_cons hbegin hend, ScriptWriter.writeAll_append]
        cases inside with
        | true =>
            obtain rfl := Except.ok.inj hq
            exact ih hrest h
        | false =>
            obtain ⟨w₁, hw₁, hq⟩ := bind_eq_ok_iff.mp (show (do
              let w ← l.instruction w i
              return (⟨w, false, modules⟩ : Progress)) = .ok q from hq)
            obtain rfl := Except.ok.inj hq
            rw [if_neg Bool.false_ne_true, ← instruction_eq hi hw₁]
            exact ih hrest h

end Lifter

end EngineFuzz
