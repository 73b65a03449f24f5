import Mathlib
import EngineFuzz.Proofs.Validation.Worlds

/-!
# A grammar of nested blocks

Which statements and which blocks stand in a region of a program: in the script, in the body of a
module or in the body of a function.

* `Operation.statement?`, `Region.Allows`, `Region.Block`, `Region.TwoParts`: the productions.
* `Region.Derives`: the lists of instructions that derive from a region.
* `Region.context`, `Region.Opens`: the context that a region provides, and the operations that open
  a block there.
* `Region.Block.facts`, `Region.TwoParts.facts_middle`, `Region.TwoParts.facts_last`,
  `Region.Opens.facts`: what the operations of the productions are; conversely
  `Region.exists_statement`, `Region.exists_opens`, `Region.Opens.exists_twoParts`,
  `Region.Opens.block` and `Region.TwoParts.closes`.
-/

namespace EngineFuzz

/-! ### The productions -/

/-- The regions of a program: the script, inside a function of the script or not and inside a loop
or not, the bodies of modules and the bodies of their functions. -/
inductive Region where
  | script (inSubroutine inLoop : Bool)
  | wasmModule
  | wasmFunction
deriving DecidableEq, Repr

/-- The kinds of statements. -/
inductive Statement where
  /-- What stands anywhere in the script. -/
  | script
  /-- What leaves a function of the script. -/
  | subroutineExit
  /-- What leaves a loop of the script or a round of it. -/
  | loopExit
  | wasmModule
  | wasmFunction
deriving DecidableEq, Repr

namespace Operation

/-- The kind of statement that the operation is, if it is one. -/
def statement? : Operation → Option Statement
  | loadInteger _ | loadBigInt _ | loadFloat _ | loadString _ | loadBoolean _ | loadUndefined
  | loadNull | loadRegExp .. | loadBuiltin _ | createObject _ | createArray _
  | getProperty _ | setProperty _ | deleteProperty _ | getElement _ | setElement _
  | getComputedProperty | setComputedProperty
  | callFunction .. | callMethod .. | construct .. | binaryOperation _ | unaryOperation _
  | compare _ | reassign | throwException
  | createWasmGlobal .. | createWasmMemory .. | createWasmTable .. | instantiateWasm _
  | getWasmExport _ | getWasmMemory _ | writeWasmMemory .. | getWasmGlobal _ => some .script
  | returnValue _ => some .subroutineExit
  | loopBreak | loopContinue => some .loopExit
  | wasmDefineGlobal .. | wasmImportGlobal | wasmDefineTable .. | wasmImportTable
  | wasmDefineMemory .. | wasmImportMemory | wasmImportFunction _ => some .wasmModule
  | wasmConst _ | wasmIntBinary .. | wasmIntUnary .. | wasmIntEqz _ | wasmIntCompare ..
  | wasmFloatBinary .. | wasmFloatUnary .. | wasmFloatCompare ..
  | wasmLoadGlobal | wasmStoreGlobal | wasmTableGet | wasmTableSet | wasmMemoryLoad ..
  | wasmMemoryStore .. | wasmCallFunction _ | wasmReassign | wasmReturn _ | wasmBranch
  | wasmBranchIf | wasmUnreachable => some .wasmFunction
  | _ => none

end Operation

namespace Region

/-- The kinds of statements that stand in a region. -/
inductive Allows : Region → Statement → Prop where
  | script {f l : Bool} : Allows (script f l) .script
  | subroutineExit {l : Bool} : Allows (script true l) .subroutineExit
  | loopExit {f : Bool} : Allows (script f true) .loopExit
  | wasmModule : Allows wasmModule .wasmModule
  | wasmFunction : Allows wasmFunction .wasmFunction

/-- The blocks of a region: what opens the block, the region inside and what closes the block. -/
inductive Block : Region → Operation → Region → Operation → Prop where
  | plainFunction {f l : Bool} {n : UInt64} :
      Block (script f l) (.beginPlainFunction n) (script true false) .endPlainFunction
  | branch {f l : Bool} : Block (script f l) .beginIf (script f l) .endIf
  | repeatLoop {f l : Bool} {n : UInt32} :
      Block (script f l) (.beginRepeatLoop n) (script f true) .endRepeatLoop
  | wasmModule {f l : Bool} : Block (script f l) .beginWasmModule wasmModule .endWasmModule
  | wasmFunction {s s' : FunctionSignature} :
      Block wasmModule (.beginWasmFunction s) wasmFunction (.endWasmFunction s')
  | wasmBlock : Block wasmFunction .wasmBeginBlock wasmFunction .wasmEndBlock
  | wasmLoop : Block wasmFunction .wasmBeginLoop wasmFunction .wasmEndLoop
  | wasmIf : Block wasmFunction .wasmBeginIf wasmFunction .wasmEndIf

/-- The blocks of two parts.  Both parts are of the region that the block stands in; the operations
are what opens the block, what stands between the parts and what closes the block. -/
inductive TwoParts : Region → Operation → Operation → Operation → Prop where
  | branch {f l : Bool} : TwoParts (script f l) .beginIf .beginElse .endIf
  | tryCatch {f l : Bool} : TwoParts (script f l) .beginTry .beginCatch .endTryCatch
  | wasmIf : TwoParts wasmFunction .wasmBeginIf .wasmBeginElse .wasmEndIf

/-- The instructions derive from the region. -/
inductive Derives : Region → List Instruction → Prop where
  | nil {r : Region} : Derives r []
  | statement {r : Region} {k : Statement} {i : Instruction} {is : List Instruction}
      (kind : i.operation.statement? = some k) (allowed : r.Allows k) (rest : Derives r is) :
      Derives r (i :: is)
  | block {r inner : Region} {first last : Instruction} {body is : List Instruction}
      (production : Block r first.operation inner last.operation)
      (inside : Derives inner body) (rest : Derives r is) :
      Derives r (first :: (body ++ last :: is))
  | twoParts {r : Region} {first middle last : Instruction} {body body' is : List Instruction}
      (production : TwoParts r first.operation middle.operation last.operation)
      (inside : Derives r body) (inside' : Derives r body') (rest : Derives r is) :
      Derives r (first :: (body ++ middle :: (body' ++ last :: is)))

end Region

/-! ### Contexts -/

/-- The context that positions of a region provide. -/
def Region.context : Region → Context
  | script f l =>
    let c : Context := if f then .union .script .subroutine else .script
    if l then c.union .loop else c
  | wasmModule => .wasmModule
  | wasmFunction => .wasmFunction

/-- The context that statements require. -/
def Statement.context : Statement → Context
  | script => .script
  | subroutineExit => .subroutine
  | loopExit => .loop
  | wasmModule => .wasmModule
  | wasmFunction => .wasmFunction

/-- The operation opens a block in the first region, with the second region inside. -/
inductive Region.Opens : Region → Operation → Region → Prop where
  | plainFunction {f l : Bool} {n : UInt64} :
      Opens (script f l) (.beginPlainFunction n) (script true false)
  | branch {f l : Bool} : Opens (script f l) .beginIf (script f l)
  | repeatLoop {f l : Bool} {n : UInt32} : Opens (script f l) (.beginRepeatLoop n) (script f true)
  | tryCatch {f l : Bool} : Opens (script f l) .beginTry (script f l)
  | wasmModule {f l : Bool} : Opens (script f l) .beginWasmModule wasmModule
  | wasmFunction {s : FunctionSignature} : Opens wasmModule (.beginWasmFunction s) wasmFunction
  | wasmBlock : Opens wasmFunction .wasmBeginBlock wasmFunction
  | wasmLoop : Opens wasmFunction .wasmBeginLoop wasmFunction
  | wasmIf : Opens wasmFunction .wasmBeginIf wasmFunction

namespace Region

/-! ### The operations of the productions -/

variable {r inner : Region} {op first middle last : Operation} {k : Statement}

lemma exists_statement (hs : op.isBlockStart = false) (he : op.isBlockEnd = false) :
    ∃ k, op.statement? = some k := by
  cases op <;> first | exact ⟨_, rfl⟩ | exact Bool.noConfusion hs | exact Bool.noConfusion he

lemma of_statement (h : op.statement? = some k) :
    op.isBlockStart = false ∧ op.isBlockEnd = false ∧ op.requiredContext = k.context := by
  cases op <;> cases h <;> exact ⟨rfl, rfl, rfl⟩

/-- A region provides the context that a statement requires exactly if the statement stands
there. -/
lemma contains_iff_allows : r.context.contains k.context = true ↔ r.Allows k := by
  cases r with
  | script f l =>
      cases f <;> cases l <;> cases k <;>
        first
        | exact iff_of_true rfl (by constructor)
        | exact iff_of_false (by decide) (by rintro ⟨⟩)
  | wasmModule | wasmFunction =>
      cases k <;>
        first
        | exact iff_of_true rfl (by constructor)
        | exact iff_of_false (by decide) (by rintro ⟨⟩)

/-- Where the context of an operation that opens a block is provided, there is a region inside. -/
lemma exists_opens (hs : op.isBlockStart = true) (he : op.isBlockEnd = false)
    (hc : r.context.contains op.requiredContext = true) : ∃ inner, r.Opens op inner := by
  have ha : ∀ k : Statement, r.context.contains k.context = true → r.Allows k :=
    fun _ => contains_iff_allows.mp
  cases op with
  | beginPlainFunction n => cases ha .script hc; exact ⟨_, .plainFunction⟩
  | beginIf => cases ha .script hc; exact ⟨_, .branch⟩
  | beginRepeatLoop n => cases ha .script hc; exact ⟨_, .repeatLoop⟩
  | beginTry => cases ha .script hc; exact ⟨_, .tryCatch⟩
  | beginWasmModule => cases ha .script hc; exact ⟨_, .wasmModule⟩
  | beginWasmFunction s => cases ha .wasmModule hc; exact ⟨_, .wasmFunction⟩
  | wasmBeginBlock => cases ha .wasmFunction hc; exact ⟨_, .wasmBlock⟩
  | wasmBeginLoop => cases ha .wasmFunction hc; exact ⟨_, .wasmLoop⟩
  | wasmBeginIf => cases ha .wasmFunction hc; exact ⟨_, .wasmIf⟩
  | _ => first | exact Bool.noConfusion hs | exact Bool.noConfusion he

lemma contains_empty : r.context.contains .empty = true := by
  cases r with
  | script f l => cases f <;> cases l <;> rfl
  | wasmModule => rfl
  | wasmFunction => rfl

/-- What opens a block continues no other one, and its context is provided. -/
lemma Opens.facts (h : r.Opens op inner) :
    op.isBlockStart = true ∧ op.isBlockEnd = false ∧
      r.context.contains op.requiredContext = true ∧
        op.innerContext r.context = inner.context := by
  have hc : ∀ {r : Region} {k : Statement}, r.Allows k → r.context.contains k.context = true :=
    contains_iff_allows.mpr
  cases h with
  | repeatLoop =>
      rename_i f l n
      exact ⟨rfl, rfl, hc .script, by cases f <;> cases l <;> rfl⟩
  | wasmFunction => exact ⟨rfl, rfl, hc .wasmModule, rfl⟩
  | wasmBlock | wasmLoop | wasmIf => exact ⟨rfl, rfl, hc .wasmFunction, rfl⟩
  | _ => exact ⟨rfl, rfl, hc .script, rfl⟩

lemma Opens.unique {inner' : Region} (h : r.Opens op inner) (h' : r.Opens op inner') :
    inner = inner' := by
  cases h <;> cases h' <;> rfl

lemma Block.opens (h : Block r first inner last) : r.Opens first inner := by
  cases h <;> constructor

lemma TwoParts.opens (h : TwoParts r first middle last) : r.Opens first r := by
  cases h <;> constructor

/-- What opens a block determines the rest of the production. -/
lemma TwoParts.trans {middle' last' : Operation} (h : TwoParts r first middle last)
    (h' : TwoParts r first middle' last') : TwoParts r first middle last' := by
  cases h <;> cases h' <;> constructor

/-- What closes a block closes one of its own kind, which is not one that needs a second part. -/
lemma Block.facts (h : Block r first inner last) :
    last.isBlockStart = false ∧ last.isBlockEnd = true ∧ last.kind = first.kind ∧
      last ≠ .endTryCatch ∧ inner.context.contains last.requiredContext = true := by
  have hc : ∀ {r : Region} {k : Statement}, r.Allows k → r.context.contains k.context = true :=
    contains_iff_allows.mpr
  cases h with
  | wasmModule => exact ⟨rfl, rfl, rfl, nofun, hc .wasmModule⟩
  | wasmFunction | wasmBlock | wasmLoop | wasmIf =>
      exact ⟨rfl, rfl, rfl, nofun, hc .wasmFunction⟩
  | _ => exact ⟨rfl, rfl, rfl, nofun, contains_empty⟩

/-- What stands between the parts of a block continues the block in the same context. -/
lemma TwoParts.facts_middle (h : TwoParts r first middle last) :
    middle.isBlockStart = true ∧ middle.isBlockEnd = true ∧ middle.kind = first.kind ∧
      r.context.contains middle.requiredContext = true ∧
        middle.innerContext r.context = r.context := by
  cases h with
  | wasmIf => exact ⟨rfl, rfl, rfl, contains_iff_allows.mpr .wasmFunction, rfl⟩
  | _ => exact ⟨rfl, rfl, rfl, contains_empty, rfl⟩

lemma TwoParts.facts_last (h : TwoParts r first middle last) :
    last.isBlockStart = false ∧ last.isBlockEnd = true ∧ last.kind = first.kind ∧
      r.context.contains last.requiredContext = true := by
  cases h with
  | wasmIf => exact ⟨rfl, rfl, rfl, contains_iff_allows.mpr .wasmFunction⟩
  | _ => exact ⟨rfl, rfl, rfl, contains_empty⟩

/-- An operation that continues a block of the kind begins its second part. -/
lemma Opens.exists_twoParts (h : r.Opens first inner) (hs : op.isBlockStart = true)
    (he : op.isBlockEnd = true) (hk : op.kind = first.kind) :
    ∃ last, TwoParts r first op last := by
  cases op with
  | beginElse => cases h <;> first | exact ⟨_, .branch⟩ | cases hk
  | beginCatch => cases h <;> first | exact ⟨_, .tryCatch⟩ | cases hk
  | wasmBeginElse => cases h <;> first | exact ⟨_, .wasmIf⟩ | cases hk
  | _ => first | exact Bool.noConfusion hs | exact Bool.noConfusion he

/-- An operation that only closes a block of the kind closes it, unless it needs a second part. -/
lemma Opens.block (h : r.Opens first inner) (hs : op.isBlockStart = false)
    (he : op.isBlockEnd = true) (hk : op.kind = first.kind) (ht : op ≠ .endTryCatch) :
    Block r first inner op := by
  cases op with
  | endTryCatch => exact absurd rfl ht
  | endPlainFunction | endIf | endRepeatLoop | endWasmModule | endWasmFunction | wasmEndBlock
    | wasmEndLoop | wasmEndIf => cases h <;> first | constructor | cases hk
  | _ => first | exact Bool.noConfusion hs | exact Bool.noConfusion he

/-- An operation that only closes a block of the kind closes it behind its second part. -/
lemma TwoParts.closes (h : TwoParts r first middle last)
    (hs : op.isBlockStart = false) (he : op.isBlockEnd = true) (hk : op.kind = first.kind) :
    TwoParts r first middle op := by
  cases op with
  | endPlainFunction | endIf | endRepeatLoop | endTryCatch | endWasmModule | endWasmFunction
    | wasmEndBlock | wasmEndLoop | wasmEndIf => cases h <;> first | constructor | cases hk
  | _ => first | exact Bool.noConfusion hs | exact Bool.noConfusion he

end Region

end EngineFuzz
