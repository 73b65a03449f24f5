import Mathlib
import EngineFuzz.Lift.Function
import EngineFuzz.Proofs.Result
import EngineFuzz.Proofs.Validation.Worlds

/-!
# The shape of lowered instructions

Every instruction of a function body is lowered to the same pattern: the values that it reads are
pushed, one instruction is applied to them, and the results are popped into new locals.

* `Lowering.target?`: the instruction that is applied to what is pushed.
* `Lowering.getAll_eq`, `Lowering.foldlM_set_eq`: the two ends of the pattern.
* `Lowering.instruction_eq`: the pattern.
-/

namespace EngineFuzz

namespace Lowering

variable {context : LoweringContext} {s s' : Lowering} {i : Instruction} {v w : Variable}
  {vs : List Variable} {is js : List Instr}

/-- The local of a variable, if it has one. -/
def local? (s : Lowering) (v : Variable) : Option Nat :=
  (s.locals.find? fun p => p.1 == v).map (·.2)

/-- How many open blocks a branch to a label leaves, if the label is open. -/
def depth? (s : Lowering) (label : Variable) : Option Nat := s.labels.findIdx? fun l => l == label

/-- The instruction that is applied to the values that an instruction reads. -/
def target? (context : LoweringContext) (s : Lowering) (i : Instruction) : Option Instr :=
  let entity := i.inputs.head?.bind context.layout.indexOf?
  match i.operation with
  | .wasmConst value => some (.const value)
  | .wasmIntBinary width op => some (.intBinary width op)
  | .wasmIntUnary width op => some (.intUnary width op)
  | .wasmIntEqz width => some (.intEqz width)
  | .wasmIntCompare width op => some (.intCompare width op)
  | .wasmFloatBinary width op => some (.floatBinary width op)
  | .wasmFloatUnary width op => some (.floatUnary width op)
  | .wasmFloatCompare width op => some (.floatCompare width op)
  | .wasmLoadGlobal => entity.map .globalGet
  | .wasmStoreGlobal => entity.map .globalSet
  | .wasmTableGet => entity.map .tableGet
  | .wasmTableSet => entity.map .tableSet
  | .wasmMemoryLoad type offset => if type.isReference then none else entity.map (.load type offset)
  | .wasmMemoryStore type offset =>
    if type.isReference then none else entity.map (.store type offset)
  | .wasmCallFunction _ => entity.map .call
  | .wasmReassign => (i.inputs.head?.bind s.local?).map .localSet
  | .wasmReturn _ => some .ret
  | .wasmBeginBlock => some .block
  | .wasmBeginLoop => some .loop
  | .wasmBeginIf => some .ifThen
  | .wasmBeginElse => some .elseThen
  | .wasmEndBlock | .wasmEndLoop | .wasmEndIf => some .blockEnd
  | .wasmBranch => (i.inputs.head?.bind s.depth?).map .br
  | .wasmBranchIf => (i.inputs.head?.bind s.depth?).map .brIf
  | .wasmUnreachable => some .unreachable
  | _ => none

lemma target?_memoryLoad {type : WasmType} {offset : UInt64}
    {inputs outputs innerOutputs : List Variable} {target : Instr}
    (h : target? context s ⟨.wasmMemoryLoad type offset, inputs, outputs, innerOutputs⟩ =
      some target) :
    type.isReference = false ∧ ∃ index,
      inputs.head?.bind context.layout.indexOf? = some index ∧
        target = .load type offset index := by
  change (if type.isReference then none else
    (inputs.head?.bind context.layout.indexOf?).map (Instr.load type offset)) = some target at h
  split at h
  · exact nomatch h
  · rename_i hr
    obtain ⟨index, hi, rfl⟩ := Option.map_eq_some_iff.mp h
    exact ⟨Bool.eq_false_iff.mpr hr, index, hi, rfl⟩

lemma target?_memoryStore {type : WasmType} {offset : UInt64}
    {inputs outputs innerOutputs : List Variable} {target : Instr}
    (h : target? context s ⟨.wasmMemoryStore type offset, inputs, outputs, innerOutputs⟩ =
      some target) :
    type.isReference = false ∧ ∃ index,
      inputs.head?.bind context.layout.indexOf? = some index ∧
        target = .store type offset index := by
  change (if type.isReference then none else
    (inputs.head?.bind context.layout.indexOf?).map (Instr.store type offset)) = some target at h
  split at h
  · exact nomatch h
  · rename_i hr
    obtain ⟨index, hi, rfl⟩ := Option.map_eq_some_iff.mp h
    exact ⟨Bool.eq_false_iff.mpr hr, index, hi, rfl⟩

/-- The labels of the blocks that are open behind an instruction. -/
def labelsBehind (labels : List Variable) (i : Instruction) : List Variable :=
  i.innerOutputs ++ if i.operation.isBlockEnd then labels.tail else labels

/-! ### Emitting code -/

/-- Appends several instructions. -/
def emitAll (s : Lowering) (is : List Instr) : Lowering := { s with code := is.reverse ++ s.code }

lemma emitAll_append : s.emitAll (is ++ js) = (s.emitAll is).emitAll js := by
  simp [emitAll]

@[simp] lemma local?_emitAll : (s.emitAll is).local? v = s.local? v := rfl

lemma localOf_eq_ok_iff {index : Nat} : s.localOf v = .ok index ↔ s.local? v = some index := by
  unfold localOf local?
  cases s.locals.find? fun p => p.1 == v with
  | none => simp
  | some p => simp

/-! ### Pushing values -/

/-- The instructions that push the values of variables with locals. -/
def pushes (s : Lowering) (vs : List Variable) : List Instr :=
  vs.filterMap fun v => (s.local? v).map .localGet

lemma get_eq {index : Nat} (h : s.local? v = some index) :
    s.get v = .ok (s.emitAll [.localGet index]) := by
  rw [get, localOf_eq_ok_iff.mpr h]
  rfl

/-- The values of variables that have locals are pushed. -/
lemma getAll_eq (h : ∀ v ∈ vs, (s.local? v).isSome = true) :
    s.getAll vs = .ok (s.emitAll (s.pushes vs)) := by
  rw [getAll]
  induction vs generalizing s with
  | nil => rfl
  | cons v vs ih =>
      obtain ⟨index, hi⟩ := Option.isSome_iff_exists.mp (h v (List.mem_cons_self ..))
      rw [List.foldlM_cons, get_eq hi]
      change vs.foldlM get (s.emitAll [.localGet index]) = _
      rw [ih (s := s.emitAll [.localGet index]) fun w hw => h w (List.mem_cons_of_mem _ hw),
        ← emitAll_append]
      simp only [pushes, List.filterMap_cons, hi, Option.map_some, local?_emitAll]
      rfl

/-! ### Popping results -/

/-- Makes a local of some type for a variable and pops a value into it. -/
def define (s : Lowering) (v : Variable) (type : WasmType) : Lowering :=
  let index := s.numParams + s.localTypes.length
  { s with
    localTypes := type :: s.localTypes
    locals := (v, index) :: s.locals
    code := .localSet index :: s.code }

/-- Makes locals for variables, in order, as long as there are both variables and types. -/
def defineAll (s : Lowering) (vs : List Variable) (types : List WasmType) : Lowering :=
  (vs.zip types).foldl (fun s (v, type) => s.define v type) s

lemma set_eq {type : WasmType} (h : context.typer.typeOf v = .wasm type) :
    s.set context v = .ok (s.define v type) := by
  rw [set, h]
  rfl

/-- The results go into new locals of their types. -/
lemma foldlM_set_eq {types : List WasmType} (h : vs.map context.typer.typeOf = types.map .wasm) :
    vs.foldlM (set context) s = .ok (s.defineAll vs types) := by
  induction vs generalizing s types with
  | nil => rfl
  | cons v vs ih =>
      obtain ⟨type, rest, rfl, hv, hvs⟩ := List.map_eq_cons_iff.mp h.symm
      rw [List.foldlM_cons, set_eq hv.symm]
      exact ih hvs.symm

/-! ### The pattern -/

lemma set_eq_foldlM : s.set context v = [v].reverse.foldlM (set context) s := (bind_pure _).symm

lemma get_eq_getAll : s.get v = s.getAll [v] := (bind_pure _).symm

lemma entity_eq {index : Nat} (h : context.layout.indexOf? v = some index) :
    entity context v = .ok index := by
  rw [entity, h]

lemma depthOf_eq {depth : Nat} (h : s.depth? v = some depth) : s.depthOf v = .ok depth := by
  rw [depth?] at h
  rw [depthOf, h]

lemma local?_of_get (h : s.get w = .ok s') : s'.local? v = s.local? v := by
  obtain ⟨index, -, h⟩ := bind_eq_ok_iff.mp h
  rw [← pure_eq_ok_iff.mp h]
  rfl

lemma closeBlock_eq (h : s.labels ≠ []) :
    s.closeBlock = .ok { s.emit .blockEnd with labels := s.labels.tail } := by
  obtain ⟨locals, numParams, localTypes, labels, code⟩ := s
  cases labels with
  | nil => exact absurd rfl h
  | cons _ labels => rfl

/-- **Every instruction of a function is lowered to one pattern**: it pushes values, applies an
instruction, opens and closes blocks and pops its outputs, the last one first. -/
theorem instruction_eq {target : Instr} (ha : i.hasConsistentArity = true)
    (ht : target? context s i = some target)
    (hl : i.operation.isBlockEnd = true → s.labels ≠ []) :
    instruction context s i = (do
      let pushed ← s.getAll i.values
      i.outputs.reverse.foldlM (set context)
        { pushed.emit target with labels := labelsBehind pushed.labels i }) := by
  obtain ⟨hi, ho, hn⟩ := Instruction.hasConsistentArity_iff.mp ha
  obtain ⟨op, inputs, outputs, innerOutputs⟩ := i
  dsimp only at hi ho hn ht hl
  cases op with
  | wasmConst value =>
      obtain ⟨v, rfl⟩ := List.length_eq_one_iff.mp ho
      obtain rfl := List.length_eq_zero_iff.mp hi
      obtain rfl := List.length_eq_zero_iff.mp hn
      obtain rfl := Option.some.inj ht
      exact set_eq_foldlM
  | wasmIntBinary width op | wasmIntUnary width op | wasmIntEqz width | wasmIntCompare width op
  | wasmFloatBinary width op | wasmFloatUnary width op | wasmFloatCompare width op =>
      obtain ⟨v, rfl⟩ := List.length_eq_one_iff.mp ho
      obtain rfl := List.length_eq_zero_iff.mp hn
      obtain rfl := Option.some.inj ht
      exact congrArg _ (funext fun pushed => set_eq_foldlM)
  | wasmLoadGlobal =>
      obtain ⟨v, rfl⟩ := List.length_eq_one_iff.mp ho
      obtain ⟨a, rfl⟩ := List.length_eq_one_iff.mp hi
      obtain rfl := List.length_eq_zero_iff.mp hn
      obtain ⟨index, hx, rfl⟩ := Option.map_eq_some_iff.mp ht
      change (do let index ← entity context a; (s.emit (.globalGet index)).set context v) = _
      rw [entity_eq hx]
      exact set_eq_foldlM
  | wasmStoreGlobal =>
      obtain rfl := List.length_eq_zero_iff.mp ho
      obtain ⟨a, b, rfl⟩ := List.length_eq_two.mp hi
      obtain rfl := List.length_eq_zero_iff.mp hn
      obtain ⟨index, hx, rfl⟩ := Option.map_eq_some_iff.mp ht
      change (do
        let index ← entity context a
        return (← s.get b).emit (.globalSet index)) = _
      rw [entity_eq hx, get_eq_getAll]
      rfl
  | wasmTableGet =>
      obtain ⟨v, rfl⟩ := List.length_eq_one_iff.mp ho
      obtain ⟨a, b, rfl⟩ := List.length_eq_two.mp hi
      obtain rfl := List.length_eq_zero_iff.mp hn
      obtain ⟨index, hx, rfl⟩ := Option.map_eq_some_iff.mp ht
      change (do
        let index ← entity context a
        ((← s.get b).emit (.tableGet index)).set context v) = _
      rw [entity_eq hx, get_eq_getAll]
      exact congrArg _ (funext fun pushed => set_eq_foldlM)
  | wasmTableSet =>
      obtain rfl := List.length_eq_zero_iff.mp ho
      obtain ⟨a, b, c, rfl⟩ := List.length_eq_three.mp hi
      obtain rfl := List.length_eq_zero_iff.mp hn
      obtain ⟨index, hx, rfl⟩ := Option.map_eq_some_iff.mp ht
      change (do
        let index ← entity context a
        return (← s.getAll [b, c]).emit (.tableSet index)) = _
      rw [entity_eq hx]
      rfl
  | wasmMemoryLoad type offset =>
      obtain ⟨v, rfl⟩ := List.length_eq_one_iff.mp ho
      obtain ⟨a, b, rfl⟩ := List.length_eq_two.mp hi
      obtain rfl := List.length_eq_zero_iff.mp hn
      obtain ⟨hr, index, hx, rfl⟩ := target?_memoryLoad ht
      change (do
        let memory ← entity context a
        let addressed ← s.get b
        if type.isReference then throw (LiftError.loadOf type)
        (addressed.emit (.load type offset memory)).set context v) = _
      rw [entity_eq hx, hr, get_eq_getAll]
      exact congrArg _ (funext fun pushed => set_eq_foldlM)
  | wasmMemoryStore type offset =>
      obtain rfl := List.length_eq_zero_iff.mp ho
      obtain ⟨a, b, c, rfl⟩ := List.length_eq_three.mp hi
      obtain rfl := List.length_eq_zero_iff.mp hn
      obtain ⟨hr, index, hx, rfl⟩ := target?_memoryStore ht
      change (do
        let memory ← entity context a
        let loaded ← s.getAll [b, c]
        if type.isReference then throw (LiftError.storeOf type)
        return loaded.emit (.store type offset memory)) = _
      rw [entity_eq hx, hr]
      rfl
  | wasmCallFunction signature =>
      obtain rfl := List.length_eq_zero_iff.mp hn
      cases inputs with
      | nil =>
          change 0 = 1 + _ at hi
          omega
      | cons a args =>
          obtain ⟨index, hx, rfl⟩ := Option.map_eq_some_iff.mp ht
          change (do
            let callee ← entity context a
            let called := (← s.getAll args).emit (.call callee)
            outputs.reverse.foldlM (set context) called) = _
          rw [entity_eq hx]
          rfl
  | wasmReassign =>
      obtain rfl := List.length_eq_zero_iff.mp ho
      obtain ⟨a, b, rfl⟩ := List.length_eq_two.mp hi
      obtain rfl := List.length_eq_zero_iff.mp hn
      obtain ⟨index, hx, rfl⟩ := Option.map_eq_some_iff.mp ht
      change (do
        let loaded ← s.get b
        return loaded.emit (.localSet (← loaded.localOf a))) = (do
        let pushed ← s.getAll [b]
        return { pushed.emit (.localSet index) with labels := labelsBehind pushed.labels _ })
      rw [← get_eq_getAll]
      cases hg : s.get b with
      | error e => rfl
      | ok loaded =>
          have hlocal : loaded.localOf a = .ok index := by
            rw [localOf_eq_ok_iff, local?_of_get hg]
            exact hx
          change (do return loaded.emit (.localSet (← loaded.localOf a))) = _
          rw [hlocal]
          rfl
  | wasmReturn hasValue =>
      obtain rfl := List.length_eq_zero_iff.mp ho
      obtain rfl := List.length_eq_zero_iff.mp hn
      obtain rfl := Option.some.inj ht
      rfl
  | wasmBeginBlock | wasmBeginLoop =>
      obtain rfl := List.length_eq_zero_iff.mp ho
      obtain rfl := List.length_eq_zero_iff.mp hi
      obtain ⟨label, rfl⟩ := List.length_eq_one_iff.mp hn
      obtain rfl := Option.some.inj ht
      rfl
  | wasmBeginIf =>
      obtain rfl := List.length_eq_zero_iff.mp ho
      obtain ⟨a, rfl⟩ := List.length_eq_one_iff.mp hi
      obtain ⟨label, rfl⟩ := List.length_eq_one_iff.mp hn
      obtain rfl := Option.some.inj ht
      change (do (← s.get a).openBlock _ .ifThen) = _
      rw [get_eq_getAll]
      rfl
  | wasmBeginElse =>
      obtain rfl := List.length_eq_zero_iff.mp ho
      obtain rfl := List.length_eq_zero_iff.mp hi
      obtain ⟨label, rfl⟩ := List.length_eq_one_iff.mp hn
      obtain rfl := Option.some.inj ht
      obtain ⟨locals, numParams, localTypes, labels, code⟩ := s
      cases labels with
      | nil => exact absurd rfl (hl rfl)
      | cons _ labels => rfl
  | wasmEndBlock | wasmEndLoop | wasmEndIf =>
      obtain rfl := List.length_eq_zero_iff.mp ho
      obtain rfl := List.length_eq_zero_iff.mp hi
      obtain rfl := List.length_eq_zero_iff.mp hn
      obtain rfl := Option.some.inj ht
      exact closeBlock_eq (hl rfl)
  | wasmBranch =>
      obtain rfl := List.length_eq_zero_iff.mp ho
      obtain ⟨a, rfl⟩ := List.length_eq_one_iff.mp hi
      obtain rfl := List.length_eq_zero_iff.mp hn
      obtain ⟨index, hx, rfl⟩ := Option.map_eq_some_iff.mp ht
      change (do return s.emit (.br (← s.depthOf a))) = _
      rw [depthOf_eq hx]
      rfl
  | wasmBranchIf =>
      obtain rfl := List.length_eq_zero_iff.mp ho
      obtain ⟨a, b, rfl⟩ := List.length_eq_two.mp hi
      obtain rfl := List.length_eq_zero_iff.mp hn
      obtain ⟨index, hx, rfl⟩ := Option.map_eq_some_iff.mp ht
      change (do
        let depth ← s.depthOf a
        return (← s.get b).emit (.brIf depth)) = _
      rw [depthOf_eq hx, get_eq_getAll]
      rfl
  | wasmUnreachable =>
      obtain rfl := List.length_eq_zero_iff.mp ho
      obtain rfl := List.length_eq_zero_iff.mp hi
      obtain rfl := List.length_eq_zero_iff.mp hn
      obtain rfl := Option.some.inj ht
      rfl
  | _ => cases ht

end Lowering

end EngineFuzz
