import Mathlib
import EngineFuzz.Proofs.Layout.IndexSpace
import EngineFuzz.Proofs.Lift.Shape
import EngineFuzz.Proofs.Validation.FunctionBlocks

/-!
# Lowering beside validation

While the validator goes through a function, the lowering of the function keeps a local for every
visible value and a label for every open block.

* `LoweringContext.Covers`: the types and entities that a function is lowered with are those that
  the validator sees.
* `Lowering.Follows`: the state of the lowering belongs to that of the validator.
* `Lowering.Follows.step`: an accepted instruction of a function is lowered, and the states go on
  belonging together.
-/

namespace EngineFuzz

/-! ### Operands -/

/-- Behind an instruction of a function its outputs are in the function. -/
lemma Operation.site_of_home {op : Operation} (h : op.home = .function)
    (he : op.endsFunction = false) : op.site = .function := by
  cases hb : op.isBlockEnd with
  | false => rw [site, if_neg (by simp [hb]), h]
  | true =>
      have hc := isControl_of_isBlockEnd h he hb
      rw [site, if_pos hb]
      revert hc
      cases op.kind <;> simp [BlockKind.isControl, BlockKind.outside]

/-- The operands that an instruction of a function reads are values of functions. -/
lemma Operation.exists_value_types {op : Operation} {ts : List StaticType}
    {function : Option FunctionSignature} (h : op.home = .function)
    (hl : ts.length = op.numInputs) (ha : op.acceptsInputs ts function = true) :
    ∃ types : List WasmType, (if op.hasPlace then ts.tail else ts) = types.map .wasm := by
  cases op with
  | wasmIntBinary width op | wasmIntUnary width op | wasmIntEqz width | wasmIntCompare width op =>
      exact ⟨_, (eq_replicate_of_all_intWidth? ha).trans List.map_replicate.symm⟩
  | wasmFloatBinary width op | wasmFloatUnary width op | wasmFloatCompare width op =>
      exact ⟨_, (eq_replicate_of_all_floatWidth? ha).trans List.map_replicate.symm⟩
  | wasmLoadGlobal =>
      obtain ⟨type, isMutable, rfl⟩ := accepts_loadGlobal ha
      exact ⟨[], rfl⟩
  | wasmStoreGlobal =>
      obtain ⟨type, rfl⟩ := accepts_storeGlobal ha
      exact ⟨[type], rfl⟩
  | wasmTableGet =>
      obtain ⟨element, least, most, rfl⟩ := accepts_tableGet ha
      exact ⟨[.i32], rfl⟩
  | wasmTableSet =>
      obtain ⟨element, least, most, rfl⟩ := accepts_tableSet ha
      exact ⟨[.i32, element], rfl⟩
  | wasmMemoryLoad type offset =>
      obtain ⟨-, least, most, shared, rfl⟩ := accepts_memoryLoad ha
      exact ⟨[.i32], rfl⟩
  | wasmMemoryStore type offset =>
      obtain ⟨-, least, most, shared, rfl⟩ := accepts_memoryStore ha
      exact ⟨[.i32, type], rfl⟩
  | wasmCallFunction signature =>
      rw [accepts_call ha]
      exact ⟨signature.params, rfl⟩
  | wasmReassign =>
      obtain ⟨type, rfl⟩ := accepts_reassign ha
      exact ⟨[type], rfl⟩
  | wasmReturn hasValue =>
      obtain ⟨signature, -, rfl, -⟩ := accepts_return ha
      exact ⟨_, rfl⟩
  | wasmBeginIf =>
      rw [accepts_if ha]
      exact ⟨[.i32], rfl⟩
  | wasmBranch =>
      rw [accepts_branch ha]
      exact ⟨[], rfl⟩
  | wasmBranchIf =>
      rw [accepts_branchIf ha]
      exact ⟨[.i32], rfl⟩
  | endWasmFunction signature => exact ⟨_, accepts_end hl ha⟩
  | _ =>
      first
      | exact ⟨[], List.length_eq_zero_iff.mp hl⟩
      | cases (show World.script = .function from h)
      | cases (show World.module = .function from h)

/-! ### The relation -/

/-- Types and entities are those that the validator sees; the context may know more of them. -/
structure LoweringContext.Covers (context : LoweringContext) (s : Validator) : Prop where
  types : ∀ v : Variable, v.number < s.nextFresh → context.typer.typeOf v = s.typer.typeOf v
  entities : ∀ layout, s.typer.currentModule? = some layout →
    ∀ e ∈ layout.entities, e ∈ context.layout.entities
  distinct : (context.layout.entities.map (·.var)).Nodup

/-- The types of the locals that there are so far, the parameters first. -/
def Lowering.typesOfLocals (l : Lowering) (params : List WasmType) : List WasmType :=
  params ++ l.localTypes.reverse

/-- The lowering of a function with these parameters keeps a local for every visible value and a
label for every open block. -/
structure Lowering.Follows (l : Lowering) (params : List WasmType) (s : Validator)
    (inner : List OpenBlock) (function : OpenBlock) (around : List OpenBlock) : Prop where
  inside : s.scopes.InFunction inner function around
  length_inner : inner.length = l.labels.length
  values : ∀ v ∈ s.scopes.scopes.flatten, ∀ type, s.typer.typeOf v = .wasm type →
    ∃ index, l.local? v = some index ∧ (l.typesOfLocals params)[index]? = some type
  labels : ∀ v ∈ s.scopes.scopes.flatten, s.typer.typeOf v = .label → v ∈ l.labels
  scopes : List.Forall₂ (· ∈ ·) l.labels (s.scopes.scopes.take l.labels.length)
  numParams : l.numParams = params.length
  indices : l.locals.map (·.2) = (List.range (l.numParams + l.localTypes.length)).reverse

/-- What covers the state behind an instruction of a module covers the state in front. -/
lemma LoweringContext.Covers.of_step {context : LoweringContext} {s s' : Validator}
    {i : Instruction} (h : context.Covers s') (hstep : s.step i = .ok s')
    (hn : i.NumbersSmall) (h₁ : i.operation ≠ .beginWasmModule)
    (h₂ : i.operation ≠ .endWasmModule) : context.Covers s := by
  obtain ⟨next, ha, rfl⟩ := Validator.step_eq_ok_iff.mp hstep
  obtain ⟨hle, hrange, -⟩ := Validator.checkFresh_eq_ok ha.fresh hn
  refine ⟨fun v hv => ?_, fun layout hl e he => ?_, h.distinct⟩
  · rw [h.types v (UInt32.lt_of_lt_of_le hv hle)]
    exact Typer.typeOf_apply_of_not_mem fun hd => UInt32.not_lt.mpr (hrange v hd).1 hv
  · refine h.entities (layout.extend (s.typer.declared i)) ?_ e (List.mem_append_left _ he)
    have hnd := Validator.Sound.nodup_definedVariables ha hn
    rw [Typer.currentModule?] at hl ⊢
    rw [Typer.modules_apply ha.arity hnd h₁ h₂, List.head?_modifyHead, hl]
    rfl

lemma LoweringContext.Covers.of_steps {context : LoweringContext} {s s' : Validator}
    {is : List Instruction} (h : context.Covers s') (hsteps : Validator.Steps s is s')
    (hn : ∀ i ∈ is, i.NumbersSmall)
    (hm : ∀ i ∈ is, i.operation ≠ .beginWasmModule ∧ i.operation ≠ .endWasmModule) :
    context.Covers s := by
  induction hsteps with
  | nil s => exact h
  | cons head tail ih =>
      obtain ⟨h₁, h₂⟩ := hm _ (List.mem_cons_self ..)
      refine (ih h (fun i hi => hn i (List.mem_cons_of_mem _ hi))
        fun i hi => hm i (List.mem_cons_of_mem _ hi)).of_step head (hn _ (List.mem_cons_self ..))
          h₁ h₂

namespace Lowering

variable {context : LoweringContext} {l : Lowering} {params : List WasmType} {s s' : Validator}
  {function : OpenBlock} {inner around : List OpenBlock} {i : Instruction} {v w : Variable}
  {vs : List Variable} {types : List WasmType} {type : WasmType}

/-! ### New locals -/

@[simp] lemma labels_define : (l.define v type).labels = l.labels := rfl

lemma defineAll_cons : l.defineAll (v :: vs) (type :: types) =
    (l.define v type).defineAll vs types := rfl

lemma labels_defineAll : (l.defineAll vs types).labels = l.labels := by
  induction vs generalizing l types with
  | nil => rfl
  | cons v vs ih => cases types with
    | nil => rfl
    | cons type types => rw [defineAll_cons, ih, labels_define]

lemma numParams_defineAll : (l.defineAll vs types).numParams = l.numParams := by
  induction vs generalizing l types with
  | nil => rfl
  | cons v vs ih => cases types with
    | nil => rfl
    | cons type types => rw [defineAll_cons, ih]; rfl

lemma localTypes_defineAll (hl : vs.length = types.length) :
    (l.defineAll vs types).localTypes = types.reverse ++ l.localTypes := by
  induction vs generalizing l types with
  | nil =>
      rw [List.length_eq_zero_iff.mp hl.symm]
      rfl
  | cons v vs ih =>
      obtain ⟨type, types, rfl⟩ := List.exists_cons_of_length_eq_add_one hl.symm
      rw [defineAll_cons, ih (by simpa using hl)]
      simp [define]

lemma indices_define
    (h : l.locals.map (·.2) = (List.range (l.numParams + l.localTypes.length)).reverse) :
    (l.define v type).locals.map (·.2) =
      (List.range ((l.define v type).numParams + (l.define v type).localTypes.length)).reverse := by
  simp only [define, List.map_cons, h, List.length_cons, ← Nat.add_assoc, List.range_succ,
    List.reverse_append, List.reverse_cons, List.reverse_nil, List.nil_append, List.cons_append]

lemma indices_defineAll
    (h : l.locals.map (·.2) = (List.range (l.numParams + l.localTypes.length)).reverse) :
    (l.defineAll vs types).locals.map (·.2) = (List.range ((l.defineAll vs types).numParams +
      (l.defineAll vs types).localTypes.length)).reverse := by
  induction vs generalizing l types with
  | nil => exact h
  | cons v vs ih => cases types with
    | nil => exact h
    | cons type types => exact ih (indices_define h)

lemma local?_define : (l.define v type).local? w =
    if v = w then some (l.numParams + l.localTypes.length) else l.local? w := by
  rw [local?, define, List.find?_cons]
  by_cases h : v = w
  · simp [h]
  · rw [beq_eq_false_iff_ne.mpr h, if_neg h]
    rfl

lemma local?_defineAll_of_not_mem (h : w ∉ vs) : (l.defineAll vs types).local? w = l.local? w := by
  induction vs generalizing l types with
  | nil => rfl
  | cons v vs ih => cases types with
    | nil => rfl
    | cons type types =>
        rw [List.mem_cons, not_or] at h
        rw [defineAll_cons, ih h.2, local?_define, if_neg (Ne.symm h.1)]

/-- A new local has the type that it is made with. -/
lemma exists_local?_defineAll (hp : l.numParams = params.length) (hl : vs.length = types.length)
    (hn : vs.Nodup) {k : Nat} (hv : vs[k]? = some v) (ht : types[k]? = some type) :
    ∃ index, (l.defineAll vs types).local? v = some index ∧
      ((l.defineAll vs types).typesOfLocals params)[index]? = some type := by
  induction vs generalizing l types k with
  | nil => simp at hv
  | cons u vs ih =>
      obtain ⟨type', types, rfl⟩ := List.exists_cons_of_length_eq_add_one hl.symm
      obtain ⟨hu, hn⟩ := List.nodup_cons.mp hn
      have hl' : vs.length = types.length := by simpa using hl
      cases k with
      | zero =>
          simp only [List.getElem?_cons_zero, Option.some.injEq] at hv ht
          subst hv ht
          refine ⟨l.numParams + l.localTypes.length, ?_, ?_⟩
          · rw [defineAll_cons, local?_defineAll_of_not_mem hu, local?_define, if_pos rfl]
          · rw [typesOfLocals, localTypes_defineAll hl, hp, List.reverse_append,
              List.reverse_reverse, List.getElem?_append_right (Nat.le_add_right ..),
              Nat.add_sub_cancel_left, List.getElem?_append_right (by simp)]
            simp
      | succ k => exact ih hp hl' hn hv ht

/-! ### The instruction that is applied -/

/-- A variable of an entity has an index, and the entity stands there. -/
lemma exists_index (hc : context.Covers s) (hf : s.scopes.Fits s.typer) {entity : EntityType}
    (hv : v ∈ s.scopes.scopes.flatten) (ht : s.typer.typeOf v = .wasmEntity entity) :
    ∃ index e, context.layout.indexOf? v = some index ∧
      (context.layout.ordered entity.category)[index]? = some e ∧ e.var = v ∧
        e.entity = entity := by
  obtain ⟨layout, hl, e, he, rfl, rfl⟩ := hf.exists_entity hv ht
  obtain ⟨index, hi, ho⟩ := ModuleLayout.exists_indexOf? hc.distinct (hc.entities layout hl e he)
  exact ⟨index, e, hi, ho, rfl, rfl⟩

/-- A label in scope is open. -/
lemma Follows.exists_depth (h : l.Follows params s inner function around)
    (hv : v ∈ s.scopes.scopes.flatten) (ht : s.typer.typeOf v = .label) :
    ∃ depth, l.depth? v = some depth := by
  have hm := h.labels v hv ht
  cases hd : l.depth? v with
  | some depth => exact ⟨depth, rfl⟩
  | none =>
      have := List.findIdx?_eq_none_iff.mp hd v hm
      simp at this

/-- Every accepted instruction of a function has a counterpart. -/
lemma Follows.exists_target (h : l.Follows params s inner function around) (hs : s.Sound)
    {next : UInt32} (ha : s.Admits i next) (hc : context.Covers s)
    (hhome : i.operation.home = .function) (hend : i.operation.endsFunction = false) :
    ∃ target, target? context l i = some target := by
  obtain ⟨op, inputs, outputs, innerOutputs⟩ := i
  have hin : op.acceptsInputs (inputs.map s.typer.typeOf) s.scopes.currentFunction? = true :=
    ha.inputs
  have hscope : ∀ v ∈ inputs, v ∈ s.scopes.scopes.flatten := fun v hv =>
    (hs.fits.tracks.visible v).mp (ha.visible v hv)
  -- an operation whose first operand is an entity
  have hplace : ∀ entity (f : Nat → Instr),
      (inputs.map s.typer.typeOf).head? = some (.wasmEntity entity) →
        ∃ target, (inputs.head?.bind context.layout.indexOf?).map f = some target := by
    intro entity f hh
    rw [List.head?_map, Option.map_eq_some_iff] at hh
    obtain ⟨v, hv, ht⟩ := hh
    obtain ⟨index, e, hi, -⟩ :=
      exists_index hc hs.fits (hscope v (List.mem_of_mem_head? hv)) ht
    exact ⟨f index, by rw [hv, Option.bind_some, hi]; rfl⟩
  -- an operation whose first operand is a label
  have hlabel : ∀ f : Nat → Instr, (inputs.map s.typer.typeOf).head? = some .label →
      ∃ target, (inputs.head?.bind l.depth?).map f = some target := by
    intro f hh
    rw [List.head?_map, Option.map_eq_some_iff] at hh
    obtain ⟨v, hv, ht⟩ := hh
    obtain ⟨depth, hd⟩ := h.exists_depth (hscope v (List.mem_of_mem_head? hv)) ht
    exact ⟨f depth, by rw [hv, Option.bind_some, hd]; rfl⟩
  cases op with
  | wasmLoadGlobal =>
      obtain ⟨type, isMutable, ht⟩ := Operation.accepts_loadGlobal hin
      exact hplace _ _ (by rw [ht]; rfl)
  | wasmStoreGlobal =>
      obtain ⟨type, ht⟩ := Operation.accepts_storeGlobal hin
      exact hplace _ _ (by rw [ht]; rfl)
  | wasmTableGet =>
      obtain ⟨element, least, most, ht⟩ := Operation.accepts_tableGet hin
      exact hplace _ _ (by rw [ht]; rfl)
  | wasmTableSet =>
      obtain ⟨element, least, most, ht⟩ := Operation.accepts_tableSet hin
      exact hplace _ _ (by rw [ht]; rfl)
  | wasmMemoryLoad type offset =>
      obtain ⟨hnum, least, most, shared, ht⟩ := Operation.accepts_memoryLoad hin
      obtain ⟨target, htarget⟩ := hplace _ (.load type offset) (by rw [ht]; rfl)
      refine ⟨target, ?_⟩
      rw [← htarget]
      exact if_neg (by simpa [WasmType.isNumeric] using hnum)
  | wasmMemoryStore type offset =>
      obtain ⟨hnum, least, most, shared, ht⟩ := Operation.accepts_memoryStore hin
      obtain ⟨target, htarget⟩ := hplace _ (.store type offset) (by rw [ht]; rfl)
      refine ⟨target, ?_⟩
      rw [← htarget]
      exact if_neg (by simpa [WasmType.isNumeric] using hnum)
  | wasmCallFunction signature =>
      exact hplace _ _ (by rw [Operation.accepts_call hin]; rfl)
  | wasmReassign =>
      obtain ⟨type, ht⟩ := Operation.accepts_reassign hin
      obtain ⟨v, rest, rfl, hv, -⟩ := List.map_eq_cons_iff.mp ht
      obtain ⟨index, hi, -⟩ := h.values v (hscope v (List.mem_cons_self ..)) type hv
      exact ⟨.localSet index, by simp [target?, hi]⟩
  | wasmBranch => exact hlabel _ (by rw [Operation.accepts_branch hin]; rfl)
  | wasmBranchIf => exact hlabel _ (by rw [Operation.accepts_branchIf hin]; rfl)
  | _ =>
      first
      | exact ⟨_, rfl⟩
      | cases (show World.script = .function from hhome)
      | cases (show World.module = .function from hhome)
      | cases hend

/-! ### One instruction -/

/-- The state behind an instruction: it pushes values, applies the counterpart and pops its outputs,
the last of which comes first. -/
def behind (l : Lowering) (i : Instruction) (target : Instr) (types : List WasmType) : Lowering :=
  { (l.emitAll (l.pushes i.values)).emit target with
    labels := labelsBehind l.labels i }.defineAll i.outputs.reverse types

lemma mem_inputs_of_mem_values (h : v ∈ i.values) : v ∈ i.inputs := by
  rw [Instruction.values] at h
  split at h
  · exact List.mem_of_mem_tail h
  · exact h

/-- Every operand that is read has a local. -/
lemma Follows.values_isSome (h : l.Follows params s inner function around) (hs : s.Sound)
    {next : UInt32} (ha : s.Admits i next) (hhome : i.operation.home = .function) :
    ∀ v ∈ i.values, ∃ type index, s.typer.typeOf v = .wasm type ∧ l.local? v = some index ∧
      (l.typesOfLocals params)[index]? = some type := by
  intro v hv
  obtain ⟨types, htypes⟩ := Operation.exists_value_types hhome
    ((List.length_map _).trans (Instruction.hasConsistentArity_iff.mp ha.arity).1) ha.inputs
  have hmap : i.values.map s.typer.typeOf = types.map .wasm := by
    rw [← htypes, Instruction.values]
    split
    · rw [List.map_tail]
    · rfl
  obtain ⟨type, -, ht⟩ : ∃ type ∈ types, .wasm type = s.typer.typeOf v := by
    rw [← List.mem_map, ← hmap]
    exact List.mem_map_of_mem hv
  obtain ⟨index, hi, hx⟩ :=
    h.values v ((hs.fits.tracks.visible v).mp (ha.visible v (mem_inputs_of_mem_values hv))) type
      ht.symm
  exact ⟨type, index, ht.symm, hi, hx⟩

lemma labels_behind {target : Instr} :
    (l.behind i target types).labels = labelsBehind l.labels i := by
  rw [behind, labels_defineAll]

/-- An instruction of a function defines a label inside the block that it opens. -/
lemma length_innerOutputs (ha : i.hasConsistentArity = true)
    (hhome : i.operation.home = .function) :
    i.innerOutputs.length = (s.scopes.opened i).length := by
  rw [(Instruction.hasConsistentArity_iff.mp ha).2.2, ScopeState.opened]
  cases hop : i.operation <;> rw [hop] at hhome <;>
    first
    | rfl
    | cases (show World.script = .function from hhome)
    | cases (show World.module = .function from hhome)

/-- The variables inside the blocks of functions are labels. -/
lemma typeOf_innerOutputs {t : Typer} (ha : i.hasConsistentArity = true)
    (hn : i.definedVariables.Nodup) (hhome : i.operation.home = .function)
    (hv : v ∈ i.innerOutputs) : (t.apply i).typeOf v = .label := by
  have hne : i.operation ≠ .endWasmModule := by
    intro he
    rw [he] at hhome
    exact nomatch (show World.module = .function from hhome)
  have hm : (t.apply i).typeOf v ∈
      Typer.innerOutputTypes i.operation i.operation.numInnerOutputs := by
    rw [← Typer.map_typeOf_innerOutputs ha hn hne]
    exact List.mem_map_of_mem hv
  cases hop : i.operation <;> rw [hop] at hhome hm <;>
    first
    | exact List.mem_singleton.mp hm
    | exact absurd hm List.not_mem_nil
    | cases (show World.script = .function from hhome)
    | cases (show World.module = .function from hhome)

/-- The outputs of an instruction of a function are values of the function. -/
lemma exists_output_types {t : Typer} (ha : i.hasConsistentArity = true)
    (hn : i.definedVariables.Nodup) (hhome : i.operation.home = .function)
    (hend : i.operation.endsFunction = false) {signature : Option FunctionSignature}
    (hi : i.operation.acceptsInputs (i.inputs.map t.typeOf) signature = true) :
    ∃ types : List WasmType, i.outputs.reverse.map (t.apply i).typeOf = types.map .wasm := by
  have hne : i.operation ≠ .endWasmModule := by
    intro he
    rw [he] at hhome
    exact nomatch (show World.module = .function from hhome)
  have hall := Typer.outputs_function (Operation.site_of_home hhome hend) hi
  rw [← Typer.map_typeOf_outputs ha hn hne] at hall
  refine StaticType.exists_eq_map_wasm fun type ht => hall type ?_
  rwa [List.map_reverse, List.mem_reverse] at ht

/-- Labels that stay in scope behind an instruction stay open. -/
lemma Follows.mem_labels_outside (h : l.Follows params s inner function around)
    (ht : s.scopes.Tracks) (hv : v ∈ (s.scopes.outside i).scopes.flatten)
    (hl : s.typer.typeOf v = .label) :
    v ∈ if i.operation.isBlockEnd then l.labels.tail else l.labels := by
  cases hend : i.operation.isBlockEnd with
  | false =>
      rw [ScopeState.outside_of_not_isBlockEnd hend] at hv
      exact h.labels v hv hl
  | true =>
      rw [ScopeState.outside_of_isBlockEnd hend] at hv
      change v ∈ s.scopes.scopes.tail.flatten at hv
      have hd := ht.distinct
      have hsc := h.scopes
      rw [if_pos rfl]
      cases hs : s.scopes.scopes with
      | nil =>
          rw [hs] at hv
          simp at hv
      | cons top rest =>
          rw [hs, List.tail_cons] at hv
          rw [hs, List.flatten_cons, List.nodup_append'] at hd
          have hm := h.labels v (by rw [hs]; exact List.mem_append_right _ hv) hl
          cases hlab : l.labels with
          | nil =>
              rw [hlab] at hm
              simp at hm
          | cons label labels =>
              -- the label of the block is in the scope that is left
              rw [hlab, hs, List.length_cons, List.take_succ_cons] at hsc
              have htop := (List.forall₂_cons.mp hsc).1
              rw [hlab] at hm
              refine (List.mem_cons.mp hm).resolve_left fun he => ?_
              exact hd.2.2 (he ▸ htop) hv

/-- The label of every open block is in the scope of the block. -/
lemma Follows.scopes_behind (h : l.Follows params s inner function around) {top : List Variable}
    {rest : List (List Variable)} (hsc : (s.scopes.outside i).scopes = top :: rest)
    (hl : i.innerOutputs.length = (s.scopes.opened i).length)
    (hi : i.operation.isBlockStart = false → i.innerOutputs = []) :
    List.Forall₂ (· ∈ ·) (labelsBehind l.labels i)
      ((s.scopes.apply i).scopes.take (labelsBehind l.labels i).length) := by
  have hbase : ∀ base, base = (if i.operation.isBlockEnd then l.labels.tail else l.labels) →
      List.Forall₂ (· ∈ ·) base (((i.outputs.reverse ++ top) :: rest).take base.length) := by
    rintro base rfl
    have hw : List.Forall₂ (· ∈ ·)
        (if i.operation.isBlockEnd then l.labels.tail else l.labels)
        ((top :: rest).take
          (if i.operation.isBlockEnd then l.labels.tail else l.labels).length) := by
      have hls := h.scopes
      rw [← hsc]
      cases hend : i.operation.isBlockEnd with
      | false =>
          rw [ScopeState.outside_of_not_isBlockEnd hend]
          exact hls
      | true =>
          rw [ScopeState.outside_of_isBlockEnd hend]
          cases hlab : l.labels with
          | nil => exact .nil
          | cons label labels =>
              rw [hlab, List.length_cons] at hls
              cases hss : s.scopes.scopes with
              | nil =>
                  rw [hss, List.take_nil] at hls
                  exact nomatch hls
              | cons scope scopes =>
                  rw [hss, List.take_succ_cons] at hls
                  rw [ScopeState.leave, hss]
                  exact (List.forall₂_cons.mp hls).2
    revert hw
    generalize (if i.operation.isBlockEnd then l.labels.tail else l.labels) = base
    intro hw
    cases base with
    | nil => exact .nil
    | cons label base =>
        obtain ⟨hlab, hrest⟩ := List.forall₂_cons.mp hw
        exact .cons (List.mem_append_right _ hlab) hrest
  rw [labelsBehind, ScopeState.scopes_apply hsc]
  cases hb : i.operation.isBlockStart with
  | false =>
      rw [hi hb, if_neg Bool.false_ne_true, List.nil_append, List.nil_append]
      exact hbase _ rfl
  | true =>
      rw [ScopeState.opened, if_pos hb] at hl
      obtain ⟨label, hlab⟩ := List.length_eq_one_iff.mp hl
      rw [hlab, if_pos rfl]
      exact .cons (List.mem_singleton_self _) (hbase _ rfl)

/-- **An accepted instruction of a function is lowered**, and behind it the lowering still follows
the validator. -/
theorem Follows.step (h : l.Follows params s inner function around) (hs : s.Sound)
    (hstep : s.step i = .ok s') (hn : i.NumbersSmall) (hend : i.operation.endsFunction = false)
    (hc : context.Covers s) (hc' : context.Covers s') :
    ∃ target types, target? context l i = some target ∧
      i.outputs.reverse.map s'.typer.typeOf = types.map .wasm ∧
        instruction context l i = .ok (l.behind i target types) ∧
          (l.behind i target types).Follows params s' (s.scopes.innerBehind inner i) function
            around := by
  have hs' := hs.step hstep hn
  obtain ⟨next, ha, rfl⟩ := Validator.step_eq_ok_iff.mp hstep
  have hp := hs.fits.toPlaced
  have hhome := h.inside.home hp ha.position
  have hin' := h.inside.apply hp ha.position hend
  have hnd := Validator.Sound.nodup_definedVariables ha hn
  obtain ⟨hno, hni, hoi⟩ := List.nodup_append'.mp hnd
  obtain ⟨target, htarget⟩ := h.exists_target hs ha hc hhome hend
  have hvals := h.values_isSome hs ha hhome
  obtain ⟨types, htypes⟩ := exists_output_types ha.arity hnd hhome hend ha.inputs
  obtain ⟨houtside, hsub⟩ := hs.fits.outside ha.position
  obtain ⟨top, rest, hsc, -, -⟩ := houtside.exists_scopes
  have hinner : i.operation.isBlockStart = false → i.innerOutputs = [] := by
    intro hb
    rw [← List.length_eq_zero_iff, (Instruction.hasConsistentArity_iff.mp ha.arity).2.2,
      Operation.numInnerOutputs_of_not hb]
  have hmem : ∀ v, v ∈ (s.scopes.apply i).scopes.flatten ↔
      v ∈ i.definedVariables ∨ v ∈ (s.scopes.outside i).scopes.flatten := fun v =>
    ScopeState.mem_flatten_apply (by simp [hsc]) hinner
  have hlen : i.outputs.reverse.length = types.length := by
    simpa using congrArg List.length htypes
  have hold : ∀ v ∈ (s.scopes.outside i).scopes.flatten,
      v ∉ i.definedVariables ∧ (s.typer.apply i).typeOf v = s.typer.typeOf v := fun v hv =>
    ⟨fun hd => hs.disjoint_definedVariables ha hn hd (hsub v hv), hs.typeOf_apply ha hn (hsub v hv)⟩
  have houtput : ∀ v ∈ i.outputs, ∃ k : Nat, i.outputs.reverse[k]? = some v ∧
      ∀ type, (s.typer.apply i).typeOf v = .wasm type → types[k]? = some type := by
    intro v hv
    obtain ⟨k, hk⟩ := List.getElem?_of_mem (List.mem_reverse.mpr hv)
    refine ⟨k, hk, fun type ht => ?_⟩
    have hk' := congrArg (·[k]?) htypes
    simp only [List.getElem?_map, hk, Option.map_some, ht] at hk'
    obtain ⟨type', hx, hxe⟩ := Option.map_eq_some_iff.mp hk'.symm
    rw [hx, StaticType.wasm.inj hxe]
  refine ⟨target, types, htarget, htypes, ?_, ?_⟩
  · have hl : i.operation.isBlockEnd = true → l.labels ≠ [] := by
      intro he hnil
      obtain ⟨b, rest, hb, -⟩ := h.inside.exists_cons_of_isBlockEnd hp ha.position hend he
      have := h.length_inner
      rw [hb, hnil] at this
      exact nomatch this
    have hget : l.getAll i.values = .ok (l.emitAll (l.pushes i.values)) :=
      getAll_eq fun v hv => by
        obtain ⟨type, index, -, hx, -⟩ := hvals v hv
        rw [hx]
        rfl
    rw [instruction_eq ha.arity htarget hl, hget]
    refine foldlM_set_eq (htypes ▸ List.map_congr_left fun v hv => hc'.types v (hs'.old v ?_))
    exact (hmem v).mpr (.inl (List.mem_append_left _ (List.mem_reverse.mp hv)))
  · refine ⟨hin', ?_, fun v hv type ht => ?_, fun v hv ht => ?_, ?_, ?_, ?_⟩
    · rw [labels_behind, labelsBehind, ScopeState.innerBehind, List.length_append,
        List.length_append, length_innerOutputs ha.arity hhome (s := s)]
      split
      · rw [List.length_tail, List.length_tail, h.length_inner]
      · rw [h.length_inner]
    · rcases (hmem v).mp hv with hd | ho
      · rcases List.mem_append.mp hd with hd | hd
        · obtain ⟨k, hk, htk⟩ := houtput v hd
          exact exists_local?_defineAll h.numParams hlen (List.nodup_reverse.mpr hno) hk
            (htk type ht)
        · rw [typeOf_innerOutputs ha.arity hnd hhome hd] at ht
          exact nomatch ht
      · obtain ⟨hnot, hty⟩ := hold v ho
        obtain ⟨index, hi, hx⟩ := h.values v (hsub v ho) type (hty ▸ ht)
        refine ⟨index, ?_, ?_⟩
        · refine (local?_defineAll_of_not_mem fun hv => hnot ?_).trans hi
          exact List.mem_append_left _ (List.mem_reverse.mp hv)
        · rw [typesOfLocals, behind, localTypes_defineAll hlen, List.reverse_append,
            ← List.append_assoc]
          exact (List.getElem?_append_left (List.getElem?_eq_some_iff.mp hx).1).trans hx
    · rw [labels_behind, labelsBehind]
      rcases (hmem v).mp hv with hd | ho
      · rcases List.mem_append.mp hd with hd | hd
        · obtain ⟨type, -, htype⟩ : ∃ type ∈ types, .wasm type = (s.typer.apply i).typeOf v := by
            rw [← List.mem_map, ← htypes]
            exact List.mem_map_of_mem (List.mem_reverse.mpr hd)
          rw [← htype] at ht
          exact nomatch ht
        · exact List.mem_append_left _ hd
      · exact List.mem_append_right _
          (h.mem_labels_outside hs.fits.tracks ho ((hold v ho).2 ▸ ht))
    · rw [labels_behind]
      exact h.scopes_behind hsc (length_innerOutputs ha.arity hhome) hinner
    · rw [behind, numParams_defineAll]
      exact h.numParams
    · exact indices_defineAll h.indices

end Lowering

end EngineFuzz
