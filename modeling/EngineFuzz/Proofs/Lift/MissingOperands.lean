import Mathlib
import EngineFuzz.Program.Format
import EngineFuzz.Proofs.Lift.Scripts

/-!
# Operands that are looked for by their places

The lines of a script and the code of a function are made from operands that are looked for by their
places, and a module is cut out of its program.  Whatever the program is, the pieces exist where
instructions have as many operands as their operations.  The exception are operations with the
greatest count of arguments: with the callee they have no operands, and the callee is missing.

* `Operation.reads`: how many inputs have to be there.
* `FindsOperands`: a computation that does not come to a missing operand.
* `Instruction.numInputs_eq_iff`, `Instruction.reads_le_iff`: what the greatest count does.
* `Lowering.findsOperands_instruction`, `Lifter.findsOperands_instruction`: one instruction.
* `ModuleScan.Within`: the spans of modules lie in their programs.
* `Program.lift_findsOperands`: whole programs.
* `uncounted`: a program whose callee is missing.
-/

namespace EngineFuzz

/-- How many inputs there have to be: those that the lines or the code of the operation look for by
their places.  Other inputs are read as a list. -/
def Operation.reads : Operation → Nat
  | setComputedProperty => 3
  | setProperty _ | setElement _ | getComputedProperty | binaryOperation _ | compare _ | reassign
  | wasmStoreGlobal | wasmTableGet | wasmMemoryLoad .. | wasmReassign | wasmBranchIf => 2
  | getProperty _ | deleteProperty _ | getElement _ | callFunction .. | callMethod .. | construct ..
  | unaryOperation _ | returnValue true | beginIf | throwException | instantiateWasm _
  | getWasmExport _ | getWasmMemory _ | writeWasmMemory .. | getWasmGlobal _
  | wasmLoadGlobal | wasmTableSet | wasmMemoryStore .. | wasmCallFunction _ | wasmBeginIf
  | wasmBranch => 1
  | _ => 0

/-- How many inputs the payload of the operation asks for: the counted arguments and the operand in
front of them. -/
def Operation.statedInputs (op : Operation) : Nat :=
  match op.argumentCount? with
  | some n => 1 + n.toNat
  | none => op.numInputs

/-- The computation does not come to a missing operand. -/
def FindsOperands {α : Type} (r : Except LiftError α) : Prop :=
  ∀ op, r ≠ .error (.missingOperand op)

/-! ### Counts of operands -/

namespace Validator

/-- With one more, a count is what it should be unless it is the greatest one. -/
lemma one_add_toNat_eq_iff {n : UInt64} : (1 + n).toNat = 1 + n.toNat ↔ n < lastCount := by
  have hn := n.toNat_lt
  rw [UInt64.toNat_add, UInt64.lt_iff_toNat_lt]
  simp only [lastCount, UInt64.reduceToNat]
  omega

lemma one_le_one_add_iff {n : UInt64} : 1 ≤ (1 + n).toNat ↔ n < lastCount := by
  have hn := n.toNat_lt
  rw [UInt64.toNat_add, UInt64.lt_iff_toNat_lt]
  simp only [lastCount, UInt64.reduceToNat]
  omega

end Validator

namespace Operation

variable {op : Operation} {n : UInt64}

lemma numInputs_of_argumentCount (h : op.argumentCount? = some n) :
    op.numInputs = (1 + n).toNat := by
  cases op <;> first | cases h; rfl | cases h

lemma reads_of_argumentCount (h : op.argumentCount? = some n) : op.reads = 1 := by
  cases op <;> first | rfl | cases h

/-- An operation without counted arguments has as many inputs as it needs. -/
lemma reads_le_numInputs (h : op.argumentCount? = none) : op.reads ≤ op.numInputs := by
  cases op with
  | callFunction n guarded | callMethod method n guarded | construct n guarded
  | instantiateWasm n => cases h
  | returnValue hasValue => cases hasValue <;> exact le_rfl
  | wasmCallFunction signature => exact Nat.le_add_right 1 _
  | wasmTableSet | wasmMemoryStore type offset => exact Nat.le_add_right 1 2
  | _ => first | exact le_rfl | exact Nat.zero_le _

end Operation

namespace Instruction

variable {i : Instruction}

/-- The number of inputs is the one that the payload asks for, unless arguments have the greatest
count. -/
lemma numInputs_eq_iff : i.operation.numInputs = i.operation.statedInputs ↔ i.CountSmall := by
  unfold Operation.statedInputs CountSmall
  cases hc : i.operation.argumentCount? with
  | none => simp
  | some n =>
      simp only [Operation.numInputs_of_argumentCount hc, Validator.one_add_toNat_eq_iff,
        Option.mem_some_iff, forall_eq']

/-- As many operands as the operation has are as many as it needs, unless arguments have the
greatest count. -/
lemma reads_le_iff (h : i.hasConsistentArity = true) :
    i.operation.reads ≤ i.inputs.length ↔ i.CountSmall := by
  rw [(hasConsistentArity_iff.mp h).1, CountSmall]
  cases hc : i.operation.argumentCount? with
  | none => simp [Operation.reads_le_numInputs hc]
  | some n =>
      simp only [Operation.numInputs_of_argumentCount hc, Operation.reads_of_argumentCount hc,
        Validator.one_le_one_add_iff, Option.mem_some_iff, forall_eq']

/-- The greatest count comes with no operands at all. -/
lemma inputs_eq_nil (h : i.hasConsistentArity = true) (hc : ¬i.CountSmall) : i.inputs = [] := by
  rw [← reads_le_iff h] at hc
  have hlt : i.inputs.length < i.operation.reads := Nat.not_le.mp hc
  cases hcount : i.operation.argumentCount? with
  | none =>
      have hle := Operation.reads_le_numInputs hcount
      rw [(hasConsistentArity_iff.mp h).1] at hlt
      omega
  | some n =>
      rw [Operation.reads_of_argumentCount hcount] at hlt
      exact List.length_eq_zero_iff.mp (by omega)

lemma checkArity_eq_ok_iff {u : Unit} : i.checkArity = .ok u ↔ i.hasConsistentArity = true := by
  unfold checkArity
  cases i.hasConsistentArity with
  | true => exact iff_of_true rfl rfl
  | false => exact iff_of_false (fun h => by cases h) Bool.false_ne_true

end Instruction

/-! ### Computations -/

namespace FindsOperands

variable {α β σ : Type} {r : Except LiftError α}

lemma ok {a : α} : FindsOperands (.ok a : Except LiftError α) := fun _ h => by cases h

/-- Other errors are none about operands. -/
lemma error {e : LiftError} (h : ∀ op, e ≠ .missingOperand op) :
    FindsOperands (.error e : Except LiftError α) := fun op he => h op (Except.error.inj he)

lemma bind {f : α → Except LiftError β} (h : FindsOperands r)
    (hf : ∀ a, r = .ok a → FindsOperands (f a)) : FindsOperands (r >>= f) := by
  cases r with
  | error e => exact fun op he => h op (congrArg Except.error (Except.error.inj he))
  | ok a => exact hf a rfl

/-- An operand is found if there are enough of them for its place. -/
lemma bind_inputAt {i : Instruction} {k n : Nat} {f : Variable → Except LiftError β}
    (hn : n ≤ i.inputs.length) (hk : k < n) (hf : ∀ v, FindsOperands (f v)) :
    FindsOperands (i.inputAt k >>= f) := by
  rw [Instruction.inputAt, List.getElem?_eq_getElem (Nat.lt_of_lt_of_le hk hn)]
  exact hf _

lemma checkArity {i : Instruction} : FindsOperands i.checkArity := by
  unfold Instruction.checkArity
  split
  · exact ok
  · exact error fun op he => by cases he

lemma foldlM {f : σ → α → Except LiftError σ} {as : List α} {s : σ}
    (h : ∀ s, ∀ a ∈ as, FindsOperands (f s a)) : FindsOperands (as.foldlM f s) := by
  induction as generalizing s with
  | nil => exact ok
  | cons a as ih =>
      rw [List.foldlM_cons]
      exact (h s a (List.mem_cons_self ..)).bind fun s' _ =>
        ih fun s b hb => h s b (List.mem_cons_of_mem _ hb)

lemma mapM {f : α → Except LiftError β} {as : List α} (h : ∀ a ∈ as, FindsOperands (f a)) :
    FindsOperands (as.mapM f) := by
  induction as with
  | nil => exact ok
  | cons a as ih =>
      rw [List.mapM_cons]
      refine (h a (List.mem_cons_self ..)).bind fun b _ => ?_
      exact (ih fun c hc => h c (List.mem_cons_of_mem _ hc)).bind fun bs _ => ok

end FindsOperands

/-! ### Function bodies -/

namespace Lowering

open FindsOperands

variable {context : LoweringContext} {s : Lowering} {i : Instruction} {v : Variable}

lemma findsOperands_localOf : FindsOperands (s.localOf v) := by
  unfold localOf
  split
  · exact ok
  · exact error fun op he => by cases he

lemma findsOperands_get : FindsOperands (s.get v) := findsOperands_localOf.bind fun _ _ => ok

lemma findsOperands_getAll {vs : List Variable} : FindsOperands (s.getAll vs) :=
  foldlM fun _ _ _ => findsOperands_get

lemma findsOperands_set : FindsOperands (s.set context v) := by
  unfold set
  split
  · exact error fun op he => by cases he
  · exact ok

lemma findsOperands_setOutput : FindsOperands (s.setOutput context i) := by
  unfold setOutput
  split
  · exact error fun op he => by cases he
  · exact findsOperands_set

lemma findsOperands_entity : FindsOperands (entity context v) := by
  unfold entity
  split
  · exact ok
  · exact error fun op he => by cases he

lemma findsOperands_depthOf : FindsOperands (s.depthOf v) := by
  unfold depthOf
  split
  · exact ok
  · exact error fun op he => by cases he

lemma findsOperands_openBlock {instr : Instr} : FindsOperands (s.openBlock i instr) := by
  unfold openBlock
  split
  · exact error fun op he => by cases he
  · exact ok

lemma findsOperands_closeBlock : FindsOperands s.closeBlock := by
  unfold closeBlock
  split
  · exact error fun op he => by cases he
  · exact ok

lemma findsOperands_compute {instr : Instr} : FindsOperands (s.compute context i instr) :=
  findsOperands_getAll.bind fun _ _ => findsOperands_setOutput

/-- **The code of an instruction** is made of inputs that exist, if they are as many as it needs. -/
theorem findsOperands_instruction (h : i.operation.argumentCount? = none →
    i.operation.reads ≤ i.inputs.length) : FindsOperands (instruction context s i) := by
  obtain ⟨op, inputs, outputs, innerOutputs⟩ := i
  dsimp only at h
  cases op with
  | wasmConst value => exact findsOperands_setOutput
  | wasmIntBinary width op | wasmIntUnary width op | wasmIntEqz width | wasmIntCompare width op
  | wasmFloatBinary width op | wasmFloatUnary width op | wasmFloatCompare width op =>
      exact findsOperands_compute
  | wasmLoadGlobal =>
      exact bind_inputAt (h rfl) Nat.one_pos fun _ =>
        findsOperands_entity.bind fun _ _ => findsOperands_setOutput
  | wasmStoreGlobal =>
      exact bind_inputAt (h rfl) Nat.two_pos fun _ =>
        findsOperands_entity.bind fun _ _ => bind_inputAt (h rfl) Nat.one_lt_two fun _ =>
          findsOperands_get.bind fun _ _ => ok
  | wasmTableGet =>
      exact bind_inputAt (h rfl) Nat.two_pos fun _ =>
        findsOperands_entity.bind fun _ _ => bind_inputAt (h rfl) Nat.one_lt_two fun _ =>
          findsOperands_get.bind fun _ _ => findsOperands_setOutput
  | wasmTableSet =>
      exact bind_inputAt (h rfl) Nat.one_pos fun _ =>
        findsOperands_entity.bind fun _ _ => findsOperands_getAll.bind fun _ _ => ok
  | wasmMemoryLoad type offset =>
      refine bind_inputAt (h rfl) Nat.two_pos fun _ =>
        findsOperands_entity.bind fun _ _ => bind_inputAt (h rfl) Nat.one_lt_two fun _ =>
          findsOperands_get.bind fun _ _ => ?_
      cases type.isReference with
      | true => exact error fun op he => by cases he
      | false => exact findsOperands_setOutput
  | wasmMemoryStore type offset =>
      refine bind_inputAt (h rfl) Nat.one_pos fun _ =>
        findsOperands_entity.bind fun _ _ => findsOperands_getAll.bind fun _ _ => ?_
      cases type.isReference with
      | true => exact error fun op he => by cases he
      | false => exact ok
  | wasmCallFunction signature =>
      exact bind_inputAt (h rfl) Nat.one_pos fun _ =>
        findsOperands_entity.bind fun _ _ => findsOperands_getAll.bind fun _ _ =>
          foldlM fun _ _ _ => findsOperands_set
  | wasmReassign =>
      exact bind_inputAt (h rfl) Nat.one_lt_two fun _ =>
        findsOperands_get.bind fun _ _ => bind_inputAt (h rfl) Nat.two_pos fun _ =>
          findsOperands_localOf.bind fun _ _ => ok
  | wasmReturn hasValue => exact findsOperands_getAll.bind fun _ _ => ok
  | wasmBeginBlock | wasmBeginLoop => exact findsOperands_openBlock
  | wasmBeginIf =>
      exact bind_inputAt (h rfl) Nat.one_pos fun _ =>
        findsOperands_get.bind fun _ _ => findsOperands_openBlock
  | wasmBeginElse =>
      cases hl : s.labels with
      | nil =>
          rw [instruction, hl]
          exact error fun op he => by cases he
      | cons label labels =>
          rw [instruction, hl]
          exact findsOperands_openBlock
  | wasmEndBlock | wasmEndLoop | wasmEndIf => exact findsOperands_closeBlock
  | wasmBranch =>
      exact bind_inputAt (h rfl) Nat.one_pos fun _ => findsOperands_depthOf.bind fun _ _ => ok
  | wasmBranchIf =>
      exact bind_inputAt (h rfl) Nat.two_pos fun _ =>
        findsOperands_depthOf.bind fun _ _ => bind_inputAt (h rfl) Nat.one_lt_two fun _ =>
          findsOperands_get.bind fun _ _ => ok
  | wasmUnreachable => exact ok
  -- the others do not stand in functions of modules
  | _ => exact error fun op he => by cases he

lemma findsOperands_function {params results : List Variable} {body : List Instruction}
    (h : ∀ i ∈ body, i.operation.argumentCount? = none → i.operation.reads ≤ i.inputs.length) :
    FindsOperands (function context params body results) :=
  FindsOperands.bind (foldlM fun _ i hi => findsOperands_instruction (h i hi)) fun _ _ =>
    findsOperands_getAll.bind fun _ _ => ok

end Lowering

/-! ### Modules -/

namespace LoweringContext

open FindsOperands

variable {context : LoweringContext} {is inside after : List Instruction} {i last : Instruction}

/-- What a function is split into comes from the instructions that it is split off from. -/
lemma subset_of_spanFunction (h : spanFunction is = some (inside, last, after)) :
    inside ⊆ is ∧ after ⊆ is := by
  induction is generalizing inside with
  | nil => cases h
  | cons i is ih =>
      rw [spanFunction] at h
      split at h
      · simp only [Option.some.injEq, Prod.mk.injEq] at h
        obtain ⟨rfl, rfl, rfl⟩ := h
        exact ⟨List.nil_subset _, List.subset_cons_self ..⟩
      · obtain ⟨parts, hs, hparts⟩ := Option.map_eq_some_iff.mp h
        simp only [Prod.mk.injEq] at hparts
        obtain ⟨rfl, rfl, rfl⟩ := hparts
        obtain ⟨hinside, hafter⟩ := ih hs
        exact ⟨List.cons_subset_cons i hinside, List.Subset.trans hafter (List.subset_cons_self ..)⟩

lemma findsOperands_functionBody
    (h : ∀ i ∈ inside, i.operation.argumentCount? = none → i.operation.reads ≤ i.inputs.length) :
    FindsOperands (context.functionBody (i :: (inside ++ [last]))) := by
  rw [functionBody_eq]
  exact FindsOperands.bind (Lowering.findsOperands_function h) fun _ _ => ok

lemma findsOperands_functionBodies
    (h : ∀ i ∈ is, i.operation.argumentCount? = none → i.operation.reads ≤ i.inputs.length) :
    FindsOperands (context.functionBodies is) := by
  induction is using functionBodies.induct with
  | case1 =>
      rw [functionBodies]
      exact ok
  | case2 i rest signature hop hspan =>
      rw [functionBodies, hop]
      dsimp only
      split
      · exact error fun op he => by cases he
      · rename_i hsome
        exact absurd (hspan.symm.trans hsome) (by simp)
  | case3 i rest signature hop inside last after hspan ih =>
      obtain ⟨hinside, hafter⟩ := subset_of_spanFunction hspan
      have hrest (j) (hj : j ∈ rest) := h j (List.mem_cons_of_mem i hj)
      rw [functionBodies, hop]
      dsimp only
      split
      · exact error fun op he => by cases he
      · rename_i hsome
        obtain ⟨rfl, rfl, rfl⟩ : _ = inside ∧ _ = last ∧ _ = after := by
          simpa [hspan, eq_comm] using hsome
        exact FindsOperands.bind
          (findsOperands_functionBody fun j hj => hrest j (hinside hj)) fun _ _ =>
          FindsOperands.bind (ih fun j hj => hrest j (hafter hj)) fun _ _ => ok
  | case4 i rest hop ih =>
      rw [functionBodies]
      split
      · rename_i signature hbegin
        exact absurd hbegin (hop signature)
      · exact ih fun j hj => h j (List.mem_cons_of_mem i hj)

lemma findsOperands_typeIndex {types : List FunctionSignature} {signature : FunctionSignature} :
    FindsOperands (typeIndex types signature) := by
  unfold typeIndex
  split
  · exact ok
  · exact error fun op he => by cases he

lemma findsOperands_importType {types : List FunctionSignature} {entity : EntityType} :
    FindsOperands (importType types entity) := by
  cases entity with
  | function signature => exact findsOperands_typeIndex.bind fun _ _ => ok
  | _ => exact ok

lemma findsOperands_module
    (h : ∀ i ∈ is, i.operation.argumentCount? = none → i.operation.reads ≤ i.inputs.length) :
    FindsOperands (context.module is) := by
  refine FindsOperands.bind
    (mapM fun _ _ => findsOperands_importType.bind fun _ _ => ok) fun _ _ => ?_
  refine FindsOperands.bind (mapM fun _ _ => findsOperands_typeIndex) fun _ _ => ?_
  exact (findsOperands_functionBodies h).bind fun _ _ => ok

end LoweringContext

namespace ModuleScan

variable {s s' : ModuleScan} {is : List Instruction} {i : Instruction} {index : Nat}

/-- What the search has found in front of a position lies in front of it. -/
structure Within (s : ModuleScan) (index : Nat) : Prop where
  begin : ∀ first ∈ s.begin?, first < index
  spans : ∀ m ∈ s.spans, m.first < m.last ∧ m.last < index

lemma Within.mono {bound : Nat} (h : s.Within index) (hb : index ≤ bound) : s.Within bound :=
  ⟨fun first hf => (h.begin first hf).trans_le hb,
    fun m hm => ⟨(h.spans m hm).1, (h.spans m hm).2.trans_le hb⟩⟩

/-- **One instruction**: a module ends behind its beginning. -/
lemma Within.step (h : s.Within index) (hs : s.step index i = .ok s') : s'.Within (index + 1) := by
  have hlate := h.mono index.le_succ
  obtain ⟨-, -, hs⟩ := bind_eq_ok_iff.mp hs
  split at hs
  · obtain rfl := Except.ok.inj hs
    refine ⟨fun first hf => ?_, hlate.spans⟩
    cases hf
    exact index.lt_succ_self
  · cases hs
  · rename_i first _ hbegin
    obtain rfl := Except.ok.inj hs
    refine ⟨fun _ hf => ?_, List.forall_mem_cons.mpr ⟨⟨?_, ?_⟩, hlate.spans⟩⟩
    · cases hf
    · exact h.begin first hbegin
    · exact index.lt_succ_self
  · obtain rfl := Except.ok.inj hs
    exact ⟨hlate.begin, hlate.spans⟩

/-- **All spans** that the search finds lie in the instructions that it goes past. -/
theorem Within.run (h : s.Within index) (hr : s.run index is = .ok s') :
    s'.Within (index + is.length) := by
  induction is generalizing s index with
  | nil =>
      obtain rfl := Except.ok.inj hr
      exact h
  | cons i is ih =>
      obtain ⟨m, hm, hr⟩ := bind_eq_ok_iff.mp hr
      rw [List.length_cons, Nat.add_comm is.length, ← Nat.add_assoc]
      exact ih (h.step hm) hr

open FindsOperands in
lemma findsOperands_run : FindsOperands (s.run index is) := by
  induction is generalizing s index with
  | nil => exact ok
  | cons i is ih =>
      refine FindsOperands.bind (checkArity.bind fun _ _ => ?_) fun _ _ => ih
      dsimp only
      split
      · exact ok
      · exact error fun op he => by cases he
      · exact ok
      · exact ok

/-- The search goes past instructions with as many operands as their operations only. -/
lemma hasConsistentArity_of_run (hr : s.run index is = .ok s') :
    ∀ i ∈ is, i.hasConsistentArity = true := by
  induction is generalizing s index with
  | nil => exact List.forall_mem_nil _
  | cons i is ih =>
      obtain ⟨m, hm, hr⟩ := bind_eq_ok_iff.mp hr
      obtain ⟨u, hu, -⟩ := bind_eq_ok_iff.mp hm
      exact List.forall_mem_cons.mpr ⟨Instruction.checkArity_eq_ok_iff.mp hu, ih hr⟩

end ModuleScan

/-! ### Scripts -/

namespace Lifter

open FindsOperands

variable {l : Lifter} {w : ScriptWriter} {i : Instruction} {comments : Bool} {q : Progress}
  {index : Nat} {is : List Instruction}

lemma findsOperands_defineOutput {text : String} : FindsOperands (l.defineOutput w i text) := by
  unfold defineOutput
  split
  · exact error fun op he => by cases he
  · exact ok

lemma findsOperands_call {text : String} {handler : Handler} :
    FindsOperands (l.call w i text handler) := by
  unfold call
  split
  · exact ok
  · exact findsOperands_defineOutput

lemma findsOperands_module {m : EncodedModule} : FindsOperands (l.module w m i) := by
  unfold module
  split
  · exact ok
  · exact error fun op he => by cases he

/-- **The lines of an instruction** are made of inputs that exist, if they are as many as it
needs. -/
theorem findsOperands_instruction (h : i.operation.reads ≤ i.inputs.length) :
    FindsOperands (l.instruction w i) := by
  obtain ⟨op, inputs, outputs, innerOutputs⟩ := i
  dsimp only at h
  cases op with
  | setComputedProperty =>
      exact bind_inputAt h (by decide) fun _ => bind_inputAt h (by decide) fun _ =>
        bind_inputAt h (by decide) fun _ => ok
  | setProperty name | setElement index | reassign =>
      exact bind_inputAt h Nat.two_pos fun _ => bind_inputAt h Nat.one_lt_two fun _ => ok
  | getComputedProperty | binaryOperation op | compare op =>
      exact bind_inputAt h Nat.two_pos fun _ => bind_inputAt h Nat.one_lt_two fun _ =>
        findsOperands_defineOutput
  | getProperty name | deleteProperty name | getElement index | unaryOperation op
  | getWasmExport name | getWasmMemory index | getWasmGlobal name =>
      exact bind_inputAt h Nat.one_pos fun _ => findsOperands_defineOutput
  | callFunction n guarded | callMethod method n guarded | construct n guarded =>
      exact bind_inputAt h Nat.one_pos fun _ => findsOperands_call
  | beginIf | throwException | instantiateWasm n | writeWasmMemory offset bytes =>
      exact bind_inputAt h Nat.one_pos fun _ => ok
  | returnValue hasValue =>
      cases hasValue with
      | false => exact ok
      | true => exact bind_inputAt h Nat.one_pos fun _ => ok
  | beginPlainFunction n =>
      cases outputs with
      | nil => exact error fun op he => by cases he
      | cons v vs => exact ok
  | beginRepeatLoop n | beginCatch =>
      cases innerOutputs with
      | nil => exact error fun op he => by cases he
      | cons v vs => exact ok
  -- the others look for no input, or do not stand in scripts
  | _ =>
      first
      | exact findsOperands_defineOutput
      | exact ok
      | exact error fun op he => by cases he

lemma findsOperands_step (h : i.operation.reads ≤ i.inputs.length) :
    FindsOperands (l.step comments q index i) := by
  unfold step
  dsimp only
  split
  · exact ok
  · split
    · exact error fun op he => by cases he
    · exact findsOperands_module.bind fun _ _ => ok
  · split
    · exact ok
    · exact (findsOperands_instruction h).bind fun _ _ => ok

lemma findsOperands_run (h : ∀ i ∈ is, i.operation.reads ≤ i.inputs.length) :
    FindsOperands (l.run comments q index is) := by
  induction is generalizing q index with
  | nil => exact ok
  | cons i is ih =>
      obtain ⟨hi, hrest⟩ := List.forall_mem_cons.mp h
      exact (findsOperands_step hi).bind fun _ _ => ih hrest

end Lifter

/-! ### Programs -/

namespace Program

open FindsOperands

variable {p : Program} {e : Environment}

/-- The modules of a program are lowered, or the reason why not is none about operands. -/
lemma findsOperands_encodeModules : FindsOperands (p.encodeModules e) := by
  refine ModuleScan.findsOperands_run.bind fun scan hscan => ?_
  have harity := ModuleScan.hasConsistentArity_of_run hscan
  refine mapM fun span _ => FindsOperands.bind ?_ fun _ _ => ok
  refine LoweringContext.findsOperands_module fun i hi hc => ?_
  have hmem : i ∈ p.instructions := List.mem_of_mem_take (List.mem_of_mem_drop hi)
  refine (Instruction.reads_le_iff (harity i hmem)).mpr fun n hn => ?_
  rw [hc] at hn
  cases hn

lemma hasConsistentArity_of_forM {is : List Instruction} {u : PUnit}
    (h : is.forM (·.checkArity) = .ok u) : ∀ i ∈ is, i.hasConsistentArity = true := by
  induction is with
  | nil => exact List.forall_mem_nil _
  | cons i is ih =>
      obtain ⟨_, hu, h⟩ := bind_eq_ok_iff.mp h
      exact List.forall_mem_cons.mpr ⟨Instruction.checkArity_eq_ok_iff.mp hu, ih h⟩

lemma findsOperands_forM {is : List Instruction} : FindsOperands (is.forM (·.checkArity)) := by
  induction is with
  | nil => exact ok
  | cons i is ih => exact checkArity.bind fun _ _ => ih

/-- A program is lifted, or the reason why not is none about operands, if no arguments have the
greatest count. -/
lemma findsOperands_lift {comments : Bool} (h : p.CountsSmall) :
    FindsOperands (p.lift e comments) := by
  refine findsOperands_forM.bind fun _ hforM => findsOperands_encodeModules.bind fun _ _ => ?_
  refine (Lifter.findsOperands_run fun i hi => ?_).bind fun _ _ => ok
  exact (Instruction.reads_le_iff (hasConsistentArity_of_forM hforM i hi)).mpr (h i hi)

end Program

/-- The lines of an instruction with consistent counts are made of inputs that exist, exactly if its
arguments do not have the greatest count. -/
lemma Lifter.findsOperands_instruction_iff {i : Instruction} (h : i.hasConsistentArity = true) :
    (∀ (l : Lifter) (w : ScriptWriter), FindsOperands (l.instruction w i)) ↔ i.CountSmall := by
  constructor
  · intro hfinds
    by_contra hc
    have hnil := i.inputs_eq_nil h hc
    refine hfinds ⟨[], []⟩ .empty i.operation ?_
    obtain ⟨op, inputs, outputs, innerOutputs⟩ := i
    obtain rfl : inputs = [] := hnil
    cases op <;> first | rfl | exact absurd (fun _ hn => by cases hn) hc
  · exact fun hc l w => findsOperands_instruction ((Instruction.reads_le_iff h).mpr hc)

/-- **Operands that exist.**  The modules that are found in a program lie in it, and lowering them
comes to no missing operand; nor does lifting the program, unless some arguments have the greatest
count.  For each instruction this count is the only one whose sum with the other operands is wrong,
and with as many operands as the operation has, the only one for which an input is missing. -/
theorem Program.lift_findsOperands (p : Program) (e : Environment) :
    (∀ scan, ModuleScan.run ⟨.start e, none, []⟩ 0 p.instructions = .ok scan →
        ∀ m ∈ scan.spans, m.first < m.last ∧ m.last < p.instructions.length) ∧
      FindsOperands (p.encodeModules e) ∧
      (p.CountsSmall → ∀ comments, FindsOperands (p.lift e comments)) ∧
      ∀ i ∈ p.instructions,
        (i.operation.numInputs = i.operation.statedInputs ↔ i.CountSmall) ∧
          (i.hasConsistentArity = true →
            (i.operation.reads ≤ i.inputs.length ↔ i.CountSmall) ∧
              ((∀ (l : Lifter) (w : ScriptWriter), FindsOperands (l.instruction w i)) ↔
                i.CountSmall)) := by
  refine ⟨fun scan hscan => ?_, findsOperands_encodeModules, fun h _ => findsOperands_lift h,
    fun i _ => ⟨Instruction.numInputs_eq_iff, fun h => ?_⟩⟩
  · have hstart : (ModuleScan.mk (.start e) none []).Within 0 :=
      ⟨fun _ h => (by cases h), List.forall_mem_nil _⟩
    have hwithin := hstart.run hscan
    rw [Nat.zero_add] at hwithin
    exact hwithin.spans
  · exact ⟨Instruction.reads_le_iff h, Lifter.findsOperands_instruction_iff h⟩

/-- A program that calls a function with the greatest count of arguments. -/
def uncounted : Program :=
  .ofInstructions [⟨.callFunction Validator.lastCount false, [], [⟨0⟩], []⟩]

/-- It comes back from its stored form and is accepted, as its operation has no operands; then the
callee is missing. -/
theorem lift_uncounted :
    Program.ofBytes uncounted.toBytes = .ok uncounted ∧
      uncounted.validate .script = .ok () ∧
      (∀ i ∈ uncounted.instructions, i.operation.numInputs = 0 ∧
        i.operation.statedInputs = 18446744073709551616) ∧
      ∀ comments, ¬FindsOperands (uncounted.lift .script comments) := by
  refine ⟨by decide, ?_, by decide, fun comments h => ?_⟩
  · rw [Program.validate_eq_ok_iff]
    exact ⟨_, .cons (Validator.step_mk rfl (by simp) (by decide) rfl rfl rfl) (.nil _), rfl⟩
  · exact h (.callFunction Validator.lastCount false) (by cases comments <;> rfl)

end EngineFuzz
