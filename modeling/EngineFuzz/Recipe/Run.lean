import EngineFuzz.Recipe.Action

/-!
# Running recipes

The actions that open blocks, and the steps of a recipe in order.

* `Recipe.runSteps`: the reports of a list of steps, one for each (`Recipe.length_runSteps`).
* `Recipe.program`: the program that a recipe makes.
-/

namespace EngineFuzz.Recipe

/-- The steps of a part of a block, as a computation on what has been bound. -/
abbrev Steps := Bindings → Build (Bindings × List Report)

/-- What a step has done, and what is bound after it. -/
abbrev Outcome := Bindings × Report

/-- The instructions from a position on. -/
def since (start : Nat) : Build (List Instruction) :=
  Build.look fun b => b.instructions.toList.drop start

/-- A part of a block that has been run: what was bound, the instructions in front of it, its
reports and where it ended. -/
structure Part where
  bindings : Bindings
  opened : List Instruction
  reports : List Report
  stop : Nat

/-- Runs the first part of a block that began at `start`. -/
def firstPart (start : Nat) (steps : Steps) (bs : Bindings) : Build Part := do
  let opened ← since start
  let (bindings, reports) ← steps bs
  return ⟨bindings, opened, reports, ← Build.look (·.size)⟩

/-- Both parts of a block, with the instruction between them. -/
structure TwoParts where
  first : Part
  switch? : Option Instruction
  second : Part

/-- Runs the second part of a block. -/
def secondPart (steps : Steps) (first : Part) (bs : Bindings) : Build TwoParts := do
  let switch? ← Build.look (·.instructions.back?)
  return ⟨first, switch?, ← firstPart (← Build.look (·.size)) steps bs⟩

/-- The report of a block with one part. -/
def Part.close (p : Part) (result? : Option Json) : Build Outcome := do
  return (p.bindings, .block result? p.opened p.reports none [] (← since p.stop))

/-- The report of a block with two parts. -/
def TwoParts.close (t : TwoParts) : Build Outcome := do
  return (t.second.bindings,
    .block none t.first.opened t.first.reports t.switch? t.second.reports
      (← since t.second.stop))

/-- An action that opens a block. -/
def blockAction? (o : Operands) (start : Nat) (body other : Steps) :
    String → Read (Option (Build Outcome))
  | "plain_function" => do
    let parameters ← o.word64 "params"
    return some do
      let (f, p) ← Build.functionBlock parameters.toNat fun params =>
        firstPart start body (o.bindings.bindAll o.fields "params_as" params)
      { p with bindings := p.bindings.bindYield o.fields [f] }.close (some (variableJson f))
  | "if" => do
    let condition ← o.var "value"
    return some do
      (← Build.ifBlock condition (firstPart start body o.bindings)).close none
  | "if_else" => do
    let condition ← o.var "value"
    return some do
      (← Build.ifElseBlock condition (firstPart start body o.bindings) fun p =>
        secondPart other p p.bindings).close
  | "repeat_loop" => do
    let iterations ← o.need "iterations" Json.toUInt32?
    return some do
      (← Build.repeatBlock iterations fun i =>
        firstPart start body (o.bindings.bind o.fields "counter_as" i)).close none
  | "try_catch" =>
    return some do
      (← Build.tryBlock (firstPart start body o.bindings) fun p e =>
        secondPart other p (p.bindings.bind o.fields "exception_as" e)).close
  | "wasm_module" =>
    return some do
      let (m, exports, p) ← Build.moduleBlock (firstPart start body o.bindings)
      { p with bindings := p.bindings.bindYield o.fields [m, exports] }.close
        (some (variablesJson [m, exports]))
  | "wasm_function" => do
    let signature ← o.signature
    return some do
      let (f, p) ← Build.wasmFunctionBlock signature fun params => do
        let p ← firstPart start body (o.bindings.bindAll o.fields "params_as" params)
        return ((o.fields.field? "result").bind p.bindings.find?, p)
      { p with bindings := p.bindings.bindYield o.fields [f] }.close (some (variableJson f))
  | "wasm_block" =>
    return some do
      (← Build.wasmBlock fun l =>
        firstPart start body (o.bindings.bind o.fields "label_as" l)).close none
  | "wasm_loop" =>
    return some do
      (← Build.wasmLoop fun l =>
        firstPart start body (o.bindings.bind o.fields "label_as" l)).close none
  | "wasm_counted_loop" =>
    return some do (← Build.countedLoop (firstPart start body o.bindings)).close none
  | "wasm_if" => do
    let condition ← o.var "value"
    return some do
      (← Build.wasmIf condition fun l =>
        firstPart start body (o.bindings.bind o.fields "label_as" l)).close none
  | "wasm_if_else" => do
    let condition ← o.var "value"
    return some do
      (← Build.wasmIfElse condition
        (fun l => firstPart start body (o.bindings.bind o.fields "label_as" l))
        fun p l => secondPart other p (p.bindings.bind o.fields "else_label_as" l)).close
  | _ => .ok none

/-- The generators that a step names, with their weights. -/
def Operands.generators (o : Operands) (toolbox : Toolbox) : Read (WeightedList Generator) :=
  o.need "set" fun
    | .string "all" => some toolbox.generators
    | .string "values" => some toolbox.valueGenerators
    | .string "wasm" => some toolbox.wasmGenerators
    | v => do
      let members ← v.toList? fun
        | .array [name, weight] => do
          return (← Generator.ofName? (← name.toText?), ← weight.toUInt32?)
        | _ => none
      return ⟨members⟩

/-- Binds what an action yields, and reports it with the instructions that it has appended. -/
def reported (o : Operands) (start : Nat) (result? : Option Json) (yielded : List Variable) :
    Build Outcome := do
  return (o.bindings.bindYield o.fields yielded, .done result? (← since start))

/-- Ends the program. -/
def finish (o : Operands) : Build Outcome := do
  match ← modifyGet Builder.finalize with
  | .ok p => return ({ o.bindings with last? := some p }, .finished o.fields (.ok p))
  | .error e => return (o.bindings, .finished o.fields (.error e))

/-- Actions that bind more than one variable, or that concern the whole builder. -/
def wideAction? (o : Operands) (toolbox : Toolbox) (start : Nat) (body : Steps) :
    String → Read (Option (Build Outcome))
  | "finalize" => .ok (some (finish o))
  | "random_module" =>
    return some do
      let (m, exports) ← Generate.randomModule Build.nested
      reported o start (some (variablesJson [m, exports])) [m, exports]
  | "wasm_call_function" => do
    let f ← o.var "function"
    let args ← o.args
    return some do
      let results ← Build.wasmCall f args
      reported o start (some (variablesJson results)) results
  | "emit" => do
    let op ← o.operation
    let args ← o.args
    return some do
      let i ← Build.emit op args
      reported o start (some (.array [variablesJson i.outputs, variablesJson i.innerOutputs]))
        (i.outputs ++ i.innerOutputs)
  | "with_generators" => do
    let generators ← o.generators toolbox
    return some do
      let p ← Build.withGenerators generators (firstPart start body o.bindings)
      p.close (some (natJson (← Build.look (·.generators.size))))
  | _ => .ok none

/-- The action of a step. -/
def action (o : Operands) (toolbox : Toolbox) (start : Nat) (body other : Steps) (name : String) :
    Read (Build Outcome) := do
  if let some outcome ← wideAction? o toolbox start body name then return outcome
  if let some outcome ← blockAction? o start body other name then return outcome
  if let some act ← valueAction? o name then
    return do
      let v ← act
      reported o start (some (variableJson v)) [v]
  if let some act ← silentAction? o name then
    return do
      act
      reported o start none []
  if let some act ← queryAction? o name then
    return do
      let answer ← act
      reported o start (some answer.shown) answer.yielded
  throw .unknownAction

/-- Runs a step whose parts are known. -/
def runWith (fields : Json) (body other : Steps) (bs : Bindings) : Build Outcome := do
  let (toolbox, start) ← Build.look fun b => (b.toolbox, b.size)
  let o : Operands := ⟨fields, bs⟩
  match o.text "do" >>= action o toolbox start body other with
  | .error e => return (bs, .refused e)
  | .ok outcome =>
    let (bs, report) ← outcome
    if o.isSet "rng" then return (bs, .withWord report (← Draw.next64)) else return (bs, report)

mutual

/-- Carries out one step, with the steps inside it. -/
def runStep : Step → Bindings → Build Outcome
  | ⟨fields, body, other⟩ => runWith fields (runSteps body) (runSteps other)

/-- Runs steps one after the other. -/
def runSteps : List Step → Steps
  | [], bs => return (bs, [])
  | step :: rest, bs => do
    let (bs, report) ← runStep step bs
    let (bs, reports) ← runSteps rest bs
    return (bs, report :: reports)

end

/-- The reports of a recipe. -/
def reports (steps : List Step) (b : Builder) : List Report :=
  (runSteps steps .empty b).1.2

/-- The program that a recipe makes. -/
def program (steps : List Step) (b : Builder) : Except FinalizeError Program :=
  (runSteps steps .empty b).2.finalize.1

/-! ### Steps and reports -/

/-- A step that cannot be read is reported, and changes nothing. -/
theorem runStep_of_error {fields : Json} {body other : List Step} {bs : Bindings} {b : Builder}
    {e : StepError}
    (h : (Operands.mk fields bs).text "do" >>=
      action ⟨fields, bs⟩ b.toolbox b.size (runSteps body) (runSteps other) = .error e) :
    runStep ⟨fields, body, other⟩ bs b = ((bs, .refused e), b) := by
  rw [runStep]
  unfold runWith
  change (match (Operands.mk fields bs).text "do" >>=
    action ⟨fields, bs⟩ b.toolbox b.size (runSteps body) (runSteps other) with
    | .error e => (pure (bs, Report.refused e) : Build Outcome)
    | .ok outcome => _) b = _
  rw [h]
  rfl

/-- **Every step is answered** by one report. -/
theorem length_runSteps (steps : List Step) (bs : Bindings) (b : Builder) :
    (runSteps steps bs b).1.2.length = steps.length := by
  induction steps generalizing bs b with
  | nil => rw [runSteps]; rfl
  | cons step rest ih =>
      rw [runSteps]
      exact congrArg (· + 1) (ih (runStep step bs b).1.1 (runStep step bs b).2)

end EngineFuzz.Recipe
