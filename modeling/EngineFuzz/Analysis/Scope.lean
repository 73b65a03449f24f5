import EngineFuzz.Program.Instruction
import Std.Data.TreeSet

/-!
# Scopes, contexts and open blocks

`ScopeState` follows a list of instructions and knows which variables are visible, which contexts
the position is in and which blocks are open.

* `ScopeState.check`: whether an instruction may stand at the current position.
* `ScopeState.apply`: the state after an instruction.
-/

namespace EngineFuzz

/-- A block that is open. -/
structure OpenBlock where
  kind : BlockKind
  /-- Whether its else or catch part has begun. -/
  switched : Bool
  /-- The signature, if the block is a WebAssembly function. -/
  signature : Option FunctionSignature
deriving DecidableEq, Repr, Inhabited

/-- The state at a position.  Of all lists the innermost member comes first. -/
structure ScopeState where
  /-- The variables of each scope, the latest first. -/
  scopes : List (List Variable)
  visible : Std.TreeSet Variable
  contexts : List Context
  blocks : List OpenBlock

/-- Why an instruction may not stand at a position. -/
inductive ScopeError where
  | noOpenBlock (operation : Operation)
  | otherBlock (operation : Operation) (kind : BlockKind)
  | secondPart (operation : Operation)
  | tryWithoutCatch
  | missingContext (operation : Operation) (required present : Context)
deriving DecidableEq, Repr

/-- The wording of the error. -/
def ScopeError.message : ScopeError → String
  | noOpenBlock op => op.name ++ " without an open block"
  | otherBlock op kind => op.name ++ " closes a " ++ kind.text ++ " block"
  | secondPart op => "second " ++ op.name ++ " in one block"
  | tryWithoutCatch => "try block without catch"
  | missingContext op required present =>
    op.name ++ " requires context " ++ required.text ++ " but position has " ++ present.text

namespace ScopeState

/-- The state at the start of a program. -/
def start : ScopeState where
  scopes := [[]]
  visible := ∅
  contexts := [.script]
  blocks := []

/-- The context of the current position. -/
def context (s : ScopeState) : Context := s.contexts.headD .script

/-- Whether a variable may be used at the current position. -/
def isVisible (s : ScopeState) (v : Variable) : Bool := s.visible.contains v

/-- The visible variables in the order of their declaration. -/
def visibleVariables (s : ScopeState) : List Variable := s.scopes.flatten.reverse

/-- The variables of the innermost scope in the order of their declaration. -/
def innermostVariables (s : ScopeState) : List Variable := (s.scopes.headD []).reverse

/-- How many blocks are open. -/
def depth (s : ScopeState) : Nat := s.blocks.length

/-- Whether a block of a kind is open, not necessarily the innermost. -/
def isInside (s : ScopeState) (kind : BlockKind) : Bool := s.blocks.any fun b => b.kind == kind

/-- The signature of the WebAssembly function around the position. -/
def currentFunction? (s : ScopeState) : Option FunctionSignature :=
  (s.blocks.find? fun b => b.kind == .wasmFunction).bind (·.signature)

/-- Whether the operation may continue or close the innermost block. -/
def checkBlockEnd (s : ScopeState) (op : Operation) : Except ScopeError Unit :=
  match s.blocks with
  | [] => .error (.noOpenBlock op)
  | b :: _ =>
    if some b.kind ≠ op.blockKind? then .error (.otherBlock op b.kind)
    else
      match op with
      | .beginElse | .wasmBeginElse | .beginCatch =>
        if b.switched then .error (.secondPart op) else .ok ()
      | .endTryCatch => if b.switched then .ok () else .error .tryWithoutCatch
      | _ => .ok ()

/-- Whether the position provides the context that the operation requires. -/
def checkContext (s : ScopeState) (op : Operation) : Except ScopeError Unit :=
  if s.context.contains op.requiredContext then .ok ()
  else .error (.missingContext op op.requiredContext s.context)

/-- Whether an instruction may stand at the current position. -/
def check (s : ScopeState) (i : Instruction) : Except ScopeError Unit := do
  if i.operation.isBlockEnd then s.checkBlockEnd i.operation
  s.checkContext i.operation

/-- Declares a variable in the innermost scope. -/
def declare (s : ScopeState) (v : Variable) : ScopeState :=
  { s with
    scopes :=
      match s.scopes with
      | [] => []
      | scope :: outer => (v :: scope) :: outer
    visible := s.visible.insert v }

/-- Declares variables in the innermost scope, in order. -/
def declareAll (s : ScopeState) (vs : List Variable) : ScopeState := vs.foldl declare s

/-- Leaves the innermost block.  The outermost context stays. -/
def leave (s : ScopeState) : ScopeState where
  scopes := s.scopes.tail
  visible := (s.scopes.headD []).foldl (·.erase ·) s.visible
  contexts :=
    match s.contexts with
    | _ :: c :: outer => c :: outer
    | contexts => contexts
  blocks := s.blocks.tail

/-- The block that an operation opens, or continues when it has closed a part of one. -/
def openedBlock (op : Operation) (closed? : Option OpenBlock) : OpenBlock :=
  match closed? with
  | some b => { b with switched := true }
  | none =>
    { kind := op.blockKind?.getD .branch
      switched := false
      signature :=
        match op with
        | .beginWasmFunction signature => some signature
        | _ => none }

/-- Enters the block that an operation opens. -/
def enter (s : ScopeState) (i : Instruction) (closed? : Option OpenBlock) : ScopeState :=
  let inside : ScopeState :=
    { s with
      contexts := i.operation.innerContext s.context :: s.contexts
      scopes := [] :: s.scopes }
  let declared := inside.declareAll i.innerOutputs
  { declared with blocks := openedBlock i.operation closed? :: declared.blocks }

/-- The state after an instruction: it leaves a block, declares its outputs and enters a block, as
far as it does each of these. -/
def apply (s : ScopeState) (i : Instruction) : ScopeState :=
  let ends := i.operation.isBlockEnd
  let closed? := if ends then s.blocks.head? else none
  let outside := if ends then s.leave else s
  let declared := outside.declareAll i.outputs
  if i.operation.isBlockStart then declared.enter i closed? else declared

end ScopeState

end EngineFuzz
