import Mathlib
import EngineFuzz.Proofs.Execution.Direct
import EngineFuzz.Proofs.Lift.Shape
import EngineFuzz.Proofs.Lift.Typing
import EngineFuzz.Proofs.Wasm.Integers

/-!
# Operations on data and their instructions

Between two instructions of a function the operand stack is empty, so that an instruction on data
finds the values that its operation reads, the last of them on top, and nothing else.

* `MachineValue.intBinary_eq` and its kind: integers as words and as bits.
* `DataState.apply_target`: an operation on data and its instruction have the same effect.
-/

namespace EngineFuzz

/-! ### Integers -/

namespace MachineValue

variable {width : Width} {x y : MachineValue}

lemma toBits?_eq : x.toBits? width = (x.toWord? width).map width.ofWord := by
  cases width with
  | bits32 =>
      cases x with
      | i32 n =>
          have hn : n.toBitVec = BitVec.ofNat 32 n.toUInt32.toUInt64.toNat := by
            apply BitVec.eq_of_toNat_eq
            simp
          exact congrArg some hn
      | _ => rfl
  | bits64 =>
      cases x with
      | i64 n =>
          have hn : n.toBitVec = BitVec.ofNat 64 n.toUInt64.toNat := by
            apply BitVec.eq_of_toNat_eq
            simp
          exact congrArg some hn
      | _ => rfl

lemma ofBits_eq (b : BitVec width.bits) : ofBits b = ofWord width (Width.toWord b) := by
  cases width with
  | bits32 =>
      have hw : b.toNat.toUInt64.toUInt32.toInt32.toBitVec.toNat = b.toNat % 2 ^ 32 := by simp
      have hb : b.toNat.toUInt64.toUInt32.toInt32 = .ofBitVec b :=
        Int32.toBitVec_inj.mp (BitVec.eq_of_toNat_eq (hw.trans (Nat.mod_eq_of_lt b.isLt)))
      exact congrArg i32 hb.symm
  | bits64 =>
      have hw : b.toNat.toUInt64.toInt64.toBitVec.toNat = b.toNat % 2 ^ 64 := by simp
      have hb : b.toNat.toUInt64.toInt64 = .ofBitVec b :=
        Int64.toBitVec_inj.mp (BitVec.eq_of_toNat_eq (hw.trans (Nat.mod_eq_of_lt b.isLt)))
      exact congrArg i64 hb.symm

lemma intBinary_eq {op : IntBinaryOp} : intBinary width op x y = wordBinary width op x y := by
  rw [intBinary, wordBinary, toBits?_eq, toBits?_eq]
  cases x.toWord? width with
  | none => rfl
  | some a =>
      cases y.toWord? width with
      | none => rfl
      | some b =>
          change (do return ofBits (← (op.eval (width.ofWord a) (width.ofWord b)).mapError
            Fault.trap)) = (do return ofWord width (← (width.intBinary op a b).mapError Fault.trap))
          rw [Width.intBinary_eq]
          cases op.eval (width.ofWord a) (width.ofWord b) with
          | error kind => rfl
          | ok result => exact congrArg Except.ok (ofBits_eq result)

lemma intUnary_eq {op : IntUnaryOp} : intUnary width op x = wordUnary width op x := by
  rw [intUnary, wordUnary, toBits?_eq]
  cases x.toWord? width with
  | none => rfl
  | some a =>
      change Except.ok (ofBits (op.eval (width.ofWord a))) =
        Except.ok (ofWord width (width.intUnary op a))
      rw [Width.intUnary_eq, ofBits_eq]

lemma intEqz_eq : intEqz width x = wordEqz width x := by
  rw [intEqz, wordEqz, toBits?_eq]
  cases x.toWord? width with
  | none => rfl
  | some a => exact congrArg (fun b => Except.ok (ofBool b)) Width.intEqz_eq.symm

lemma intCompare_eq {op : IntCompareOp} : intCompare width op x y = wordCompare width op x y := by
  rw [intCompare, wordCompare, toBits?_eq, toBits?_eq]
  cases x.toWord? width with
  | none => rfl
  | some a =>
      cases y.toWord? width with
      | none => rfl
      | some b => exact congrArg (fun b => Except.ok (ofBool b)) Width.intCompare_eq.symm

end MachineValue

/-- A literal with a valid payload is its own operand. -/
lemma WasmLiteral.operand_eq {value : WasmLiteral}
    (h : (Operation.wasmConst value).namesReferences = true) : value.operand = value := by
  cases value with
  | nullRef type => exact congrArg nullRef (WasmType.asReference_eq h)
  | _ => rfl

/-! ### Operations on data -/

namespace Operation

/-- The index space of the entity that the operation works on. -/
def usedCategory? : Operation → Option EntityCategory
  | wasmLoadGlobal | wasmStoreGlobal => some .global
  | wasmTableGet | wasmTableSet => some .table
  | wasmMemoryLoad .. | wasmMemoryStore .. => some .memory
  | wasmCallFunction _ => some .function
  | _ => none

/-- Whether the operation, in a function, works on data: it computes, or it reads or changes an
entity. -/
def isData : Operation → Bool
  | wasmConst _ | wasmIntBinary .. | wasmIntUnary .. | wasmIntEqz _ | wasmIntCompare ..
  | wasmFloatBinary .. | wasmFloatUnary .. | wasmFloatCompare .. | wasmLoadGlobal
  | wasmStoreGlobal | wasmTableGet | wasmTableSet | wasmMemoryLoad .. | wasmMemoryStore .. => true
  | _ => false

end Operation

namespace DataState

variable {s : DataState} {x y : MachineValue} {store : Store} {locals : Array MachineValue}

lemma unary_eq {f : MachineValue → Except Fault MachineValue} :
    (DataState.mk store locals [x]).unary f =
      ((f x).map fun r => ([r], store)).map fun r => ⟨r.2, locals, r.1.reverse⟩ := by
  change (do return DataState.mk store locals [← f x]) = _
  cases f x <;> rfl

lemma binary_eq {f : MachineValue → MachineValue → Except Fault MachineValue} :
    (DataState.mk store locals [y, x]).binary f =
      ((f x y).map fun r => ([r], store)).map fun r => ⟨r.2, locals, r.1.reverse⟩ := by
  change (do return DataState.mk store locals [← f x y]) = _
  cases f x y <;> rfl

lemma setGlobal_eq {index : Nat} : (DataState.mk store locals [x]).setGlobal index =
    (store.setGlobal (some index) x).map fun store => ⟨store, locals, []⟩ := by
  change (if index < store.globals.length then _ else _) =
    Except.map _ (if index < store.globals.length then _ else _)
  split <;> rfl

lemma tableGet_eq {index : Nat} {place : Int32} :
    (DataState.mk store locals [.i32 place]).tableGet index =
      (store.referenceAt (some index) place).map fun value => ⟨store, locals, [value]⟩ := by
  unfold tableGet Store.referenceAt
  rw [Option.bind_some]
  cases store.tables[index]? with
  | none => rfl
  | some table =>
      simp only [MachineValue.orStuck, bind, Except.bind]
      cases table.get? place.toUInt32.toNat <;> rfl

lemma tableSet_eq {index : Nat} {type : WasmType} {target : Option Nat} {place : Int32} :
    (DataState.mk store locals [.reference type target, .i32 place]).tableSet index =
      (store.setReference (some index) place type target).map fun store =>
        ⟨store, locals, []⟩ := by
  unfold tableSet Store.setReference
  change _ = Except.map _ (do
    let table ← MachineValue.orStuck store.tables[index]?
    if type = table.element then _ else _)
  cases store.tables[index]? with
  | none => rfl
  | some table =>
      simp only [MachineValue.orStuck, bind, Except.bind]
      by_cases ht : type = table.element
      · rw [if_neg (not_not.mpr ht), if_pos ht]
        cases table.set? place.toUInt32.toNat target <;> rfl
      · rw [if_pos ht, if_neg ht]
        rfl

lemma loadNumber_eq {index : Nat} {type : WasmType} {offset : UInt64} {address : Int32} :
    (DataState.mk store locals [.i32 address]).loadNumber type offset index =
      (store.numberAt (some index) type (address.toUInt32.toNat + offset.toNat)).map fun value =>
        ⟨store, locals, [value]⟩ := by
  unfold loadNumber Store.numberAt
  rw [Option.bind_some]
  cases store.memories[index]? with
  | none => rfl
  | some memory =>
      simp only [MachineValue.orStuck, bind, Except.bind]
      cases memory.read? (address.toUInt32.toNat + offset.toNat) type.byteWidth <;> rfl

lemma storeNumber_eq {index : Nat} {type : WasmType} {offset : UInt64} {address : Int32} :
    (DataState.mk store locals [x, .i32 address]).storeNumber type offset index =
      (store.setNumber (some index) type (address.toUInt32.toNat + offset.toNat) x).map
        fun store => ⟨store, locals, []⟩ := by
  unfold storeNumber Store.setNumber
  change _ = Except.map _ (do
    let memory ← MachineValue.orStuck store.memories[index]?
    if x.type = type then _ else _)
  cases store.memories[index]? with
  | none => rfl
  | some memory =>
      simp only [MachineValue.orStuck, bind, Except.bind]
      by_cases ht : x.type = type
      · rw [if_neg (not_not.mpr ht), if_pos ht]
        cases memory.write? (address.toUInt32.toNat + offset.toNat) x.toBytes <;> rfl
      · rw [if_pos ht, if_neg ht]
        rfl

/-- **An operation on data and its instruction have the same effect** on the values that the
operation reads. -/
theorem apply_target {context : LoweringContext} {l : Lowering} {i : Instruction} {target : Instr}
    {place? : EntityCategory → Option Nat} {args : List MachineValue}
    (ht : Lowering.target? context l i = some target) (hd : i.operation.isData = true)
    (ha : i.hasConsistentArity = true) (hp : i.operation.namesReferences = true)
    (hplace : ∀ c, i.operation.usedCategory? = some c →
      place? c = i.inputs.head?.bind context.layout.indexOf?)
    (hargs : args.length = i.values.length) :
    (DataState.mk store locals args.reverse).apply target =
      (Direct.applyData place? store i.operation args).map fun r =>
        ⟨r.2, locals, r.1.reverse⟩ := by
  have hl := (Instruction.hasConsistentArity_iff.mp ha).1
  obtain ⟨op, inputs, outputs, innerOutputs⟩ := i
  dsimp only at hl hd hp hplace
  cases op with
  | wasmConst value =>
      obtain rfl := List.length_eq_zero_iff.mp hl
      obtain rfl := List.length_eq_zero_iff.mp hargs
      obtain rfl := Option.some.inj ht
      change Except.ok (DataState.mk store locals [.ofLiteral value.operand]) = _
      rw [WasmLiteral.operand_eq hp]
      rfl
  | wasmIntBinary width op =>
      obtain ⟨x, y, rfl⟩ := List.length_eq_two.mp (hargs.trans hl)
      obtain rfl := Option.some.inj ht
      refine binary_eq.trans ?_
      rw [MachineValue.intBinary_eq]
      rfl
  | wasmIntUnary width op =>
      obtain ⟨x, rfl⟩ := List.length_eq_one_iff.mp (hargs.trans hl)
      obtain rfl := Option.some.inj ht
      refine unary_eq.trans ?_
      rw [MachineValue.intUnary_eq]
      rfl
  | wasmIntEqz width =>
      obtain ⟨x, rfl⟩ := List.length_eq_one_iff.mp (hargs.trans hl)
      obtain rfl := Option.some.inj ht
      refine unary_eq.trans ?_
      rw [MachineValue.intEqz_eq]
      rfl
  | wasmIntCompare width op =>
      obtain ⟨x, y, rfl⟩ := List.length_eq_two.mp (hargs.trans hl)
      obtain rfl := Option.some.inj ht
      refine binary_eq.trans ?_
      rw [MachineValue.intCompare_eq]
      rfl
  | wasmFloatBinary width op =>
      obtain ⟨x, y, rfl⟩ := List.length_eq_two.mp (hargs.trans hl)
      obtain rfl := Option.some.inj ht
      exact binary_eq
  | wasmFloatUnary width op =>
      obtain ⟨x, rfl⟩ := List.length_eq_one_iff.mp (hargs.trans hl)
      obtain rfl := Option.some.inj ht
      exact unary_eq
  | wasmFloatCompare width op =>
      obtain ⟨x, y, rfl⟩ := List.length_eq_two.mp (hargs.trans hl)
      obtain rfl := Option.some.inj ht
      exact binary_eq
  | wasmLoadGlobal =>
      obtain ⟨v, rfl⟩ := List.length_eq_one_iff.mp hl
      obtain rfl := List.length_eq_zero_iff.mp hargs
      obtain ⟨index, hi, rfl⟩ := Option.map_eq_some_iff.mp ht
      have hx : place? .global = some index := (hplace _ rfl).trans hi
      rw [Direct.applyData, hx]
      change (do
        let value ← MachineValue.orStuck store.globals[index]?
        return (DataState.mk store locals []).push value) = _
      rw [Option.bind_some]
      cases store.globals[index]? <;> rfl
  | wasmStoreGlobal =>
      obtain ⟨v, w, rfl⟩ := List.length_eq_two.mp hl
      obtain ⟨value, rfl⟩ := List.length_eq_one_iff.mp hargs
      obtain ⟨index, hi, rfl⟩ := Option.map_eq_some_iff.mp ht
      have hx : place? .global = some index := (hplace _ rfl).trans hi
      refine setGlobal_eq.trans ?_
      rw [Direct.applyData, hx]
      cases store.setGlobal (some index) value <;> rfl
  | wasmTableGet =>
      obtain ⟨v, w, rfl⟩ := List.length_eq_two.mp hl
      obtain ⟨place, rfl⟩ := List.length_eq_one_iff.mp hargs
      obtain ⟨index, hi, rfl⟩ := Option.map_eq_some_iff.mp ht
      have hx : place? .table = some index := (hplace _ rfl).trans hi
      cases place with
      | i32 place =>
          refine tableGet_eq.trans ?_
          rw [Direct.applyData, hx]
          cases store.referenceAt (some index) place <;> rfl
      | _ => rfl
  | wasmTableSet =>
      obtain ⟨a, b, c, rfl⟩ := List.length_eq_three.mp hl
      obtain ⟨place, value, rfl⟩ := List.length_eq_two.mp hargs
      obtain ⟨index, hi, rfl⟩ := Option.map_eq_some_iff.mp ht
      have hx : place? .table = some index := (hplace _ rfl).trans hi
      cases value with
      | reference type target =>
          cases place with
          | i32 place =>
              refine tableSet_eq.trans ?_
              rw [Direct.applyData, hx]
              cases store.setReference (some index) place type target <;> rfl
          | _ => rfl
      | _ => cases place <;> rfl
  | wasmMemoryLoad type offset =>
      obtain ⟨v, w, rfl⟩ := List.length_eq_two.mp hl
      obtain ⟨address, rfl⟩ := List.length_eq_one_iff.mp hargs
      obtain ⟨-, index, hi, rfl⟩ := Lowering.target?_memoryLoad ht
      have hx : place? .memory = some index := (hplace _ rfl).trans hi
      cases address with
      | i32 address =>
          refine loadNumber_eq.trans ?_
          rw [Direct.applyData, hx]
          cases store.numberAt (some index) type _ <;> rfl
      | _ => rfl
  | wasmMemoryStore type offset =>
      obtain ⟨a, b, c, rfl⟩ := List.length_eq_three.mp hl
      obtain ⟨address, value, rfl⟩ := List.length_eq_two.mp hargs
      obtain ⟨-, index, hi, rfl⟩ := Lowering.target?_memoryStore ht
      have hx : place? .memory = some index := (hplace _ rfl).trans hi
      cases address with
      | i32 address =>
          refine storeNumber_eq.trans ?_
          rw [Direct.applyData, hx]
          cases store.setNumber (some index) type _ value <;> rfl
      | _ => rfl
  | _ => exact absurd hd Bool.false_ne_true

end DataState

end EngineFuzz
