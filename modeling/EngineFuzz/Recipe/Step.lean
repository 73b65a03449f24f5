import EngineFuzz.Generation.Scenario
import EngineFuzz.Program.Json
import EngineFuzz.Text.Hex

/-!
# Recipes

A recipe is a list of steps that drive a builder.  A step names an action, says what the action
needs, and may hold the steps of up to two parts; variables are given by number or by a name that
an earlier step has bound.  Each step is answered by a report.

Recipes are how tests say what a builder is to do.  Nothing but their runner is made of them: what
is proved of builders is proved of the computations that the actions stand for.

* `Recipe.Step.ofJson`: a step from a JSON object.
* `Recipe.Operands`: the variables and payloads that a step holds.
* `Recipe.Report`: what a step has done.
-/

namespace EngineFuzz.Recipe

/-- The fields of a step, and the steps of its parts. -/
inductive Step where
  | mk (fields : Json) (body other : List Step)

/-- A step of a JSON object; parts that lie deeper than `depth` are left out. -/
def Step.ofJson (depth : Nat) (v : Json) : Step :=
  match depth with
  | 0 => ⟨v, [], []⟩
  | n + 1 => ⟨v, (v.itemsOf "body").map (ofJson n), (v.itemsOf "else").map (ofJson n)⟩

/-- How deep the parts of steps may lie. -/
def mostDepth : Nat := 200

/-- The steps of JSON objects. -/
def ofItems (items : List Json) : List Step := items.map (Step.ofJson mostDepth)

/-- Why a step cannot be carried out. -/
inductive StepError where
  | unknownAction
  /-- A field is missing, or it does not hold what the action needs. -/
  | unusable (field : String)
deriving DecidableEq, Repr

/-- What steps have bound. -/
structure Bindings where
  names : List (String × Variable)
  /-- The last program that was finished. -/
  last? : Option Program

namespace Bindings

/-- Nothing is bound, and no program has been finished. -/
def empty : Bindings := ⟨[], none⟩

/-- The variable that a JSON value refers to. -/
def find? (bs : Bindings) : Json → Option Variable
  | .string name => (bs.names.find? fun n => n.1 == name).map (·.2)
  | v => v.toUInt32?.map (⟨·⟩)

/-- Binds the name that a field holds. -/
def bind (bs : Bindings) (fields : Json) (field : String) (v : Variable) : Bindings :=
  match fields.textField? field with
  | some name => { bs with names := (name, v) :: bs.names }
  | none => bs

/-- Binds the names that a field holds, as long as there are variables. -/
def bindAll (bs : Bindings) (fields : Json) (field : String) (vs : List Variable) : Bindings :=
  let names := (fields.itemsOf field).filterMap Json.toText?
  { bs with names := (names.zip vs).reverse ++ bs.names }

/-- Binds the variables that a step yields: the field "all_as" names all of them, and the field
"as" the first. -/
def bindYield (bs : Bindings) (fields : Json) (vs : List Variable) : Bindings :=
  match vs with
  | [] => bs
  | v :: _ => (bs.bindAll fields "all_as" vs).bind fields "as" v

end Bindings

/-- What a step has done.  Parts of a block have reports of their own. -/
inductive Report where
  | refused (e : StepError)
  /-- The end of a program. -/
  | finished (fields : Json) (result : Except FinalizeError Program)
  /-- A value, if the step yields one, and the instructions that it has appended. -/
  | done (result? : Option Json) (added : List Instruction)
  /-- The instructions in front of the first part, the reports of the parts with the instruction
  between them, and the instructions behind. -/
  | block (result? : Option Json) (opened : List Instruction) (body : List Report)
      (switch? : Option Instruction) (other : List Report) (added : List Instruction)
  /-- A report and a random word that was drawn after the step. -/
  | withWord (report : Report) (word : UInt64)

/-! ### Fields -/

/-- A step together with what has been bound. -/
structure Operands where
  fields : Json
  bindings : Bindings

/-- The result of reading the fields of a step. -/
abbrev Read (α : Type) := Except StepError α

namespace Operands

variable {α : Type}

/-- What a field holds. -/
def need (o : Operands) (field : String) (reader : Json → Option α) : Read α :=
  match (o.fields.field? field).bind reader with
  | some a => .ok a
  | none => .error (.unusable field)

def text (o : Operands) (field : String) : Read String := o.need field Json.toText?

def word64 (o : Operands) (field : String) : Read UInt64 := o.need field Json.toUInt64?

def signature (o : Operands) : Read FunctionSignature :=
  o.need "signature" FunctionSignature.ofJson?

def literal (o : Operands) : Read WasmLiteral := o.need "value" WasmLiteral.ofJson?

def operation (o : Operands) : Read Operation := o.need "operation" Operation.ofJson?

def instruction (o : Operands) : Read Instruction := o.need "instruction" Instruction.ofJson?

def member [Enumeration α] (o : Operands) (field : String) : Read α := o.need field Json.toMember?

/-- The upper limit, if there is one. -/
def maximum (o : Operands) : Read (Option UInt32) :=
  match o.fields.field? "max" with
  | none => .ok none
  | some _ => do return some (← o.need "max" Json.toUInt32?)

def var (o : Operands) (field : String) : Read Variable := o.need field o.bindings.find?

/-- The variable of a field that may be left out. -/
def var? (o : Operands) (field : String) : Read (Option Variable) :=
  match o.fields.field? field with
  | none => .ok none
  | some _ => do return some (← o.var field)

/-- The variables of the field "args". -/
def args (o : Operands) : Read (List Variable) :=
  match (o.fields.itemsOf "args").mapM o.bindings.find? with
  | some vs => .ok vs
  | none => .error (.unusable "args")

def isSet (o : Operands) (field : String) : Bool := o.fields.isSet field

end Operands

end EngineFuzz.Recipe
