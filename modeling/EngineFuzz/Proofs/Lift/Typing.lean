import Mathlib
import EngineFuzz.Proofs.Lift.Traces
import EngineFuzz.Proofs.Validation.Layouts

/-!
# The types of lowered code

The code of an accepted function follows the rules of types: between instructions no operands are
left, and each open block of the function is an open block of code.

* `BodyTyping.foldlM_pushes`, `BodyTyping.foldlM_pops`: the two ends of the pattern.
* `Lowering.Passes.exists_operandTypes`: what an instruction takes and gives is what the validator
  sees.
* `Lowering.Passes.exists_blocks`, `Lowering.Trace.exists_blocks`: the code of one instruction and
  the code of a trace.
-/

namespace EngineFuzz

namespace TypedBlock

variable {o : BlockOpener} {u : Bool} {ts os : List WasmType}

/-- Operands that lie on top are taken. -/
lemma pop?_append : (TypedBlock.mk o (ts ++ os) u).pop? ts = some ⟨o, os, u⟩ := by
  induction ts with
  | nil => rfl
  | cons t ts ih =>
      rw [pop?]
      simpa using ih

end TypedBlock

/-- What opened the block of code that a block is lowered to. -/
def OpenBlock.opener (b : OpenBlock) : BlockOpener :=
  match b.kind, b.switched with
  | .wasmBlock, _ => .block
  | .wasmLoop, _ => .loop
  | .wasmIf, false => .ifThen
  | .wasmIf, true => .elseThen
  | _, _ => .body

/-- The open blocks of code are those that open blocks are lowered to, and no operands are left in
them. -/
def TypedBlock.Mirror (bs : List OpenBlock) (blocks : List TypedBlock) : Prop :=
  List.Forall₂ (fun b t => t.opener = b.opener ∧ t.operands = []) bs blocks

namespace BodyTyping

variable {c : BodyTyping} {i : Instr} {o : BlockOpener} {u : Bool} {ts rs os : List WasmType}
  {outer : List TypedBlock} {l : Lowering} {vs : List Variable} {n : Nat}

/-- An instruction on data replaces the operands that it takes by those that it gives. -/
lemma step?_eq (h : c.operandTypes? i = some (ts, rs)) :
    c.step? (⟨o, ts ++ os, u⟩ :: outer) i = some (⟨o, rs.reverse ++ os, u⟩ :: outer) := by
  have hdata : c.step? (⟨o, ts ++ os, u⟩ :: outer) i = (do
      let types ← c.operandTypes? i
      return (← (TypedBlock.mk o (ts ++ os) u).pop? types.1).push types.2 :: outer) := by
    cases i <;> first | rfl | cases h
  rw [hdata, h]
  change (do return (← (TypedBlock.mk o (ts ++ os) u).pop? ts).push rs :: outer) = _
  rw [TypedBlock.pop?_append]
  rfl

/-- Values with locals are pushed. -/
lemma foldlM_pushes (h : List.Forall₂ (fun v t => ∃ index, l.local? v = some index ∧
      c.locals[index]? = some t) vs ts) :
    (l.pushes vs).foldlM c.step? (⟨o, os, u⟩ :: outer) =
      some (⟨o, ts.reverse ++ os, u⟩ :: outer) := by
  induction h generalizing os with
  | nil => rfl
  | @cons v t vs ts hv _ ih =>
      obtain ⟨index, hi, hx⟩ := hv
      have htypes : c.operandTypes? (.localGet index) = some ([], [t]) := by
        change (do return ([], [← c.locals[index]?])) = _
        rw [hx]
        rfl
      have hstep : c.step? (⟨o, os, u⟩ :: outer) (.localGet index) =
          some (⟨o, t :: os, u⟩ :: outer) := step?_eq htypes
      have hpushes : l.pushes (v :: vs) = .localGet index :: l.pushes vs := by
        rw [Lowering.pushes, List.filterMap_cons, hi]
        rfl
      rw [hpushes, List.foldlM_cons, hstep]
      change (l.pushes vs).foldlM c.step? (⟨o, t :: os, u⟩ :: outer) = _
      rw [ih, List.reverse_cons, List.append_assoc]
      rfl

/-- Results are popped into locals of their types. -/
lemma foldlM_pops (h : ∀ k t, ts[k]? = some t → c.locals[n + k]? = some t) :
    ((List.range' n ts.length).map Instr.localSet).foldlM c.step? (⟨o, ts ++ os, u⟩ :: outer) =
      some (⟨o, os, u⟩ :: outer) := by
  induction ts generalizing n with
  | nil => rfl
  | cons t ts ih =>
      have htypes : c.operandTypes? (.localSet n) = some ([t], []) := by
        change (do return ([← c.locals[n]?], [])) = _
        rw [show c.locals[n]? = some t from h 0 t rfl]
        rfl
      have hstep : c.step? (⟨o, (t :: ts) ++ os, u⟩ :: outer) (.localSet n) =
          some (⟨o, ts ++ os, u⟩ :: outer) := step?_eq htypes
      rw [List.length_cons, List.range'_succ, List.map_cons, List.foldlM_cons, hstep]
      refine ih fun k t hk => ?_
      rw [Nat.add_assoc, Nat.add_comm 1]
      exact h (k + 1) t hk

/-! ### Instructions that direct control -/

lemma step?_blockEnd (h : o ≠ .body) :
    c.step? (⟨o, [], u⟩ :: outer) .blockEnd = some outer := by
  change (do
    let top ← (TypedBlock.mk o [] u).pop? (if o = BlockOpener.body then c.results else []).reverse
    if top.operands = [] then some outer else none) = _
  rw [if_neg h]
  rfl

/-- The end of a body takes the results of the function. -/
lemma step?_blockEnd_body :
    c.step? (⟨.body, c.results.reverse, u⟩ :: outer) .blockEnd = some outer := by
  have hpop : (TypedBlock.mk .body (c.results.reverse ++ []) u).pop? c.results.reverse =
      some ⟨.body, [], u⟩ := TypedBlock.pop?_append
  rw [List.append_nil] at hpop
  change (do
    let top ← (TypedBlock.mk BlockOpener.body c.results.reverse u).pop? c.results.reverse
    if top.operands = [] then some outer else none) = _
  rw [hpop]
  rfl

lemma step?_ret :
    c.step? (⟨o, c.results.reverse, u⟩ :: outer) .ret = some (⟨o, [], true⟩ :: outer) := by
  have hpop : (TypedBlock.mk o (c.results.reverse ++ []) u).pop? c.results.reverse =
      some ⟨o, [], u⟩ := TypedBlock.pop?_append
  rw [List.append_nil] at hpop
  change (do
    let _ ← (TypedBlock.mk o c.results.reverse u).pop? c.results.reverse
    return (TypedBlock.mk o c.results.reverse u).diverged :: outer) = _
  rw [hpop]
  rfl

lemma step?_br {depth : Nat} (h : c.labelTypes? (⟨o, [], u⟩ :: outer) depth = some []) :
    c.step? (⟨o, [], u⟩ :: outer) (.br depth) = some (⟨o, [], true⟩ :: outer) := by
  change (do
    let types ← c.labelTypes? (⟨o, [], u⟩ :: outer) depth
    let _ ← (TypedBlock.mk o [] u).pop? types.reverse
    return (TypedBlock.mk o [] u).diverged :: outer) = _
  rw [h]
  rfl

lemma step?_brIf {depth : Nat} (h : c.labelTypes? (⟨o, [.i32], u⟩ :: outer) depth = some []) :
    c.step? (⟨o, [.i32], u⟩ :: outer) (.brIf depth) = some (⟨o, [], u⟩ :: outer) := by
  change (do
    let types ← c.labelTypes? (⟨o, [.i32], u⟩ :: outer) depth
    return (← (← (TypedBlock.mk o [.i32] u).pop? [.i32]).pop? types.reverse).push types ::
      outer) = _
  rw [h]
  rfl

end BodyTyping

namespace Operation

/-- Whether the operation, in a function, decides where control goes. -/
def directsControl : Operation → Bool
  | wasmReturn _ | wasmBeginBlock | wasmEndBlock | wasmBeginLoop | wasmEndLoop | wasmBeginIf
  | wasmBeginElse | wasmEndIf | wasmBranch | wasmBranchIf | wasmUnreachable => true
  | _ => false

end Operation

lemma map_eq_pair_iff {α β : Type} {f : α → β} {l : List α} {x y : β} :
    l.map f = [x, y] ↔ ∃ a b, l = [a, b] ∧ f a = x ∧ f b = y := by
  constructor
  · intro h
    obtain ⟨a, rest, rfl, ha, h⟩ := List.map_eq_cons_iff.mp h
    obtain ⟨b, rfl, hb⟩ := List.map_eq_singleton_iff.mp h
    exact ⟨a, b, rfl, ha, hb⟩
  · rintro ⟨a, b, rfl, rfl, rfl⟩
    rfl

/-- A literal with a valid payload pushes a value of its type. -/
lemma WasmLiteral.pushedType_eq {value : WasmLiteral}
    (h : (Operation.wasmConst value).hasValidPayload = true) : value.pushedType = value.type := by
  cases value with
  | nullRef type => cases type <;> first | rfl | cases h
  | _ => rfl

lemma WasmType.asReference_eq {type : WasmType} (h : type.isReference = true) :
    type.asReference = type := by
  cases type <;> first | rfl | cases h

namespace Lowering

variable {context : LoweringContext} {params : List WasmType} {function : OpenBlock}
  {around : List OpenBlock} {p m p' : Point} {i : Instruction} {target : Instr}
  {is : List Instruction} {code : List Instr} {c : BodyTyping}

/-- What stands in a list stands in those that continue it. -/
lemma getElem?_of_prefix {types later : List WasmType} {index : Nat} {type : WasmType}
    (h : types <+: later) (hx : types[index]? = some type) : later[index]? = some type := by
  obtain ⟨rest, rfl⟩ := h
  exact (List.getElem?_append_left (List.getElem?_eq_some_iff.mp hx).1).trans hx

/-- What code is checked against fits the positions of a function: entities are those of the
layout, locals continue the ones made so far, and tables hold references. -/
structure Point.TypedBy (c : BodyTyping) (context : LoweringContext) (params : List WasmType)
    (p : Point) : Prop where
  entities : c.entities = context.layout.entityTypes
  locals : p.lowering.typesOfLocals params <+: c.locals
  tables : p.state.typer.HoldsReferences

lemma Point.TypedBy.allowsAccess {type : WasmType} {offset : UInt64} {memory : Nat}
    {e : ModuleEntity} (h : p.TypedBy c context params) (hn : type.isNumeric = true)
    (ho : decide (offset < 0x100000000) = true)
    (he : (context.layout.ordered .memory)[memory]? = some e) :
    c.allowsAccess type offset memory = true := by
  rw [BodyTyping.allowsAccess, h.entities, hn, ho,
    decide_eq_true (ModuleLayout.lt_memoryCount he)]
  rfl

/-- **What an instruction on data takes and gives** is what the validator sees. -/
lemma Passes.exists_operandTypes (h : Passes context p i target m)
    (hf : p.Fits context params function around) (hc : p.TypedBy c context params)
    (hp : i.operation.hasValidPayload = true) (hd : i.operation.directsControl = false) :
    ∃ ts rs : List WasmType, i.values.map p.state.typer.typeOf = ts.map .wasm ∧
      i.outputs.map m.state.typer.typeOf = rs.map .wasm ∧
        c.operandTypes? target = some (ts.reverse, rs) := by
  have hs := hf.sound
  obtain ⟨next, ha, hm⟩ := Validator.step_eq_ok_iff.mp h.step
  have hhome := hf.follows.inside.home hs.fits.toPlaced ha.position
  have hend := h.open_
  have ht := h.counterpart
  have hvisible := ha.visible
  have hin := ha.inputs
  have hl := (Instruction.hasConsistentArity_iff.mp ha.arity).1
  have hout : i.outputs.map m.state.typer.typeOf =
      p.state.typer.outputTypes i.operation i.inputs := by
    rw [hm]
    refine Typer.map_typeOf_outputs ha.arity (Validator.Sound.nodup_definedVariables ha h.small) ?_
    intro he
    rw [he] at hhome
    cases (show World.module = .function from hhome)
  clear hm h
  obtain ⟨op, inputs, outputs, innerOutputs⟩ := i
  dsimp only at hhome hend hvisible hl hout hp hd
  change op.acceptsInputs (inputs.map p.state.typer.typeOf) _ = true at hin
  have hindex : ∀ {v : Variable} {entity : EntityType}, v ∈ inputs →
      p.state.typer.typeOf v = .wasmEntity entity → ∃ index e,
        context.layout.indexOf? v = some index ∧
          (context.layout.ordered entity.category)[index]? = some e ∧ e.entity = entity := by
    intro v entity hv he
    obtain ⟨index, e, hi, ho, -, hent⟩ := exists_index hf.covers hs.fits
      ((hs.fits.tracks.visible v).mp (hvisible v hv)) he
    exact ⟨index, e, hi, ho, hent⟩
  cases op with
  | wasmConst value =>
      obtain rfl := List.length_eq_zero_iff.mp hl
      obtain rfl := Option.some.inj ht
      refine ⟨[], [value.type], rfl, hout, ?_⟩
      rw [BodyTyping.operandTypes?, WasmLiteral.pushedType_eq hp]
      rfl
  | wasmIntBinary width op =>
      obtain rfl := Option.some.inj ht
      refine ⟨[width.intType, width.intType], [width.intType], ?_, hout, rfl⟩
      exact (Operation.eq_replicate_of_all_intWidth? hin).trans (by rw [List.length_map, hl]; rfl)
  | wasmIntUnary width op =>
      obtain rfl := Option.some.inj ht
      refine ⟨[width.intType], [width.intType], ?_, hout, rfl⟩
      exact (Operation.eq_replicate_of_all_intWidth? hin).trans (by rw [List.length_map, hl]; rfl)
  | wasmIntEqz width =>
      obtain rfl := Option.some.inj ht
      refine ⟨[width.intType], [.i32], ?_, hout, rfl⟩
      exact (Operation.eq_replicate_of_all_intWidth? hin).trans (by rw [List.length_map, hl]; rfl)
  | wasmIntCompare width op =>
      obtain rfl := Option.some.inj ht
      refine ⟨[width.intType, width.intType], [.i32], ?_, hout, rfl⟩
      exact (Operation.eq_replicate_of_all_intWidth? hin).trans (by rw [List.length_map, hl]; rfl)
  | wasmFloatBinary width op =>
      obtain rfl := Option.some.inj ht
      refine ⟨[width.floatType, width.floatType], [width.floatType], ?_, hout, rfl⟩
      exact (Operation.eq_replicate_of_all_floatWidth? hin).trans (by rw [List.length_map, hl]; rfl)
  | wasmFloatUnary width op =>
      obtain rfl := Option.some.inj ht
      refine ⟨[width.floatType], [width.floatType], ?_, hout, rfl⟩
      exact (Operation.eq_replicate_of_all_floatWidth? hin).trans (by rw [List.length_map, hl]; rfl)
  | wasmFloatCompare width op =>
      obtain rfl := Option.some.inj ht
      refine ⟨[width.floatType, width.floatType], [.i32], ?_, hout, rfl⟩
      exact (Operation.eq_replicate_of_all_floatWidth? hin).trans (by rw [List.length_map, hl]; rfl)
  | wasmLoadGlobal =>
      obtain ⟨type, isMutable, hts⟩ := Operation.accepts_loadGlobal hin
      obtain ⟨v, rfl, hv⟩ := List.map_eq_singleton_iff.mp hts
      obtain ⟨index, e, hi, ho, hent⟩ := hindex (List.mem_singleton_self v) hv
      change (context.layout.indexOf? v).map Instr.globalGet = some target at ht
      rw [hi] at ht
      obtain rfl := Option.some.inj ht
      refine ⟨[], [type], rfl, hout.trans (Typer.outputTypes_loadGlobal hv), ?_⟩
      rw [BodyTyping.operandTypes?, hc.entities, ModuleLayout.globals_getElem? ho hent]
      rfl
  | wasmStoreGlobal =>
      obtain ⟨type, hts⟩ := Operation.accepts_storeGlobal hin
      obtain ⟨v, w, rfl, hv, hw⟩ := map_eq_pair_iff.mp hts
      obtain ⟨index, e, hi, ho, hent⟩ := hindex (List.mem_cons_self ..) hv
      change (context.layout.indexOf? v).map Instr.globalSet = some target at ht
      rw [hi] at ht
      obtain rfl := Option.some.inj ht
      refine ⟨[type], [], congrArg (· :: []) hw, hout, ?_⟩
      rw [BodyTyping.operandTypes?, hc.entities, ModuleLayout.globals_getElem? ho hent]
      rfl
  | wasmTableGet =>
      obtain ⟨element, least, most, hts⟩ := Operation.accepts_tableGet hin
      obtain ⟨v, w, rfl, hv, hw⟩ := map_eq_pair_iff.mp hts
      obtain ⟨index, e, hi, ho, hent⟩ := hindex (List.mem_cons_self ..) hv
      have hr := hc.tables.tables v
      rw [hv] at hr
      change (context.layout.indexOf? v).map Instr.tableGet = some target at ht
      rw [hi] at ht
      obtain rfl := Option.some.inj ht
      refine ⟨[.i32], [element], congrArg (· :: []) hw,
        hout.trans (Typer.outputTypes_tableGet hv), ?_⟩
      rw [BodyTyping.operandTypes?, hc.entities, ModuleLayout.tables_getElem? ho hent,
        WasmType.asReference_eq hr]
      rfl
  | wasmTableSet =>
      obtain ⟨element, least, most, hts⟩ := Operation.accepts_tableSet hin
      obtain ⟨v, rest, rfl, hv, hrest⟩ := List.map_eq_cons_iff.mp hts
      obtain ⟨index, e, hi, ho, hent⟩ := hindex (List.mem_cons_self ..) hv
      have hr := hc.tables.tables v
      rw [hv] at hr
      change (context.layout.indexOf? v).map Instr.tableSet = some target at ht
      rw [hi] at ht
      obtain rfl := Option.some.inj ht
      refine ⟨[.i32, element], [], hrest, hout, ?_⟩
      rw [BodyTyping.operandTypes?, hc.entities, ModuleLayout.tables_getElem? ho hent,
        WasmType.asReference_eq hr]
      rfl
  | wasmMemoryLoad type offset =>
      obtain ⟨hnum, least, most, shared, hts⟩ := Operation.accepts_memoryLoad hin
      obtain ⟨v, w, rfl, hv, hw⟩ := map_eq_pair_iff.mp hts
      obtain ⟨index, e, hi, ho, hent⟩ := hindex (List.mem_cons_self ..) hv
      change (if type.isReference then none else
        (context.layout.indexOf? v).map (Instr.load type offset)) = some target at ht
      rw [if_neg (by simpa [WasmType.isNumeric] using hnum), hi] at ht
      obtain rfl := Option.some.inj ht
      refine ⟨[.i32], [type], congrArg (· :: []) hw, hout, ?_⟩
      rw [BodyTyping.operandTypes?, if_pos (hc.allowsAccess hnum hp ho)]
      rfl
  | wasmMemoryStore type offset =>
      obtain ⟨hnum, least, most, shared, hts⟩ := Operation.accepts_memoryStore hin
      obtain ⟨v, rest, rfl, hv, hrest⟩ := List.map_eq_cons_iff.mp hts
      obtain ⟨index, e, hi, ho, hent⟩ := hindex (List.mem_cons_self ..) hv
      change (if type.isReference then none else
        (context.layout.indexOf? v).map (Instr.store type offset)) = some target at ht
      rw [if_neg (by simpa [WasmType.isNumeric] using hnum), hi] at ht
      obtain rfl := Option.some.inj ht
      refine ⟨[.i32, type], [], hrest, hout, ?_⟩
      rw [BodyTyping.operandTypes?, if_pos (hc.allowsAccess hnum hp ho)]
      rfl
  | wasmCallFunction signature =>
      obtain ⟨v, rest, rfl, hv, hrest⟩ := List.map_eq_cons_iff.mp (Operation.accepts_call hin)
      obtain ⟨index, e, hi, ho, hent⟩ := hindex (List.mem_cons_self ..) hv
      change (context.layout.indexOf? v).map Instr.call = some target at ht
      rw [hi] at ht
      obtain rfl := Option.some.inj ht
      refine ⟨signature.params, signature.results, hrest, hout, ?_⟩
      rw [BodyTyping.operandTypes?, hc.entities, ModuleLayout.functions_getElem? ho hent]
      rfl
  | wasmReassign =>
      obtain ⟨type, hts⟩ := Operation.accepts_reassign hin
      obtain ⟨v, w, rfl, hv, hw⟩ := map_eq_pair_iff.mp hts
      obtain ⟨index, hi, hx⟩ := hf.follows.values v
        ((hs.fits.tracks.visible v).mp (hvisible v (List.mem_cons_self ..))) type hv
      change (p.lowering.local? v).map Instr.localSet = some target at ht
      rw [hi] at ht
      obtain rfl := Option.some.inj ht
      refine ⟨[type], [], congrArg (· :: []) hw, hout, ?_⟩
      rw [BodyTyping.operandTypes?, getElem?_of_prefix hc.locals hx]
      rfl
  | _ =>
      first
      | exact absurd hd.symm Bool.false_ne_true
      | exact absurd hend.symm Bool.false_ne_true
      | cases (show World.script = .function from hhome)
      | cases (show World.module = .function from hhome)

/-! ### Control -/

lemma typesOfLocals_behind {l : Lowering} {types : List WasmType}
    (hl : i.outputs.length = types.length) :
    (l.behind i target types).typesOfLocals params = l.typesOfLocals params ++ types := by
  rw [typesOfLocals, behind, localTypes_defineAll (by simpa using hl), List.reverse_append,
    List.reverse_reverse, ← List.append_assoc]
  rfl

/-- The values that are read lie in locals of their types. -/
lemma forall₂_values {l : Lowering} {t : Typer} {vs : List Variable} {ts : List WasmType}
    (h : l.typesOfLocals params <+: c.locals)
    (hv : ∀ v ∈ vs, ∃ type index, t.typeOf v = .wasm type ∧ l.local? v = some index ∧
      (l.typesOfLocals params)[index]? = some type)
    (hts : vs.map t.typeOf = ts.map .wasm) :
    List.Forall₂ (fun v t => ∃ index, l.local? v = some index ∧ c.locals[index]? = some t)
      vs ts := by
  induction vs generalizing ts with
  | nil =>
      rw [List.map_eq_nil_iff.mp hts.symm]
      exact .nil
  | cons v vs ih =>
      obtain ⟨t, rest, rfl, ht, hrest⟩ := List.map_eq_cons_iff.mp hts.symm
      obtain ⟨hhead, htail⟩ := List.forall_mem_cons.mp hv
      obtain ⟨type, index, htype, hi, hx⟩ := hhead
      rw [htype, StaticType.wasm.injEq] at ht
      exact .cons ⟨index, hi, ht ▸ getElem?_of_prefix h hx⟩ (ih htail hrest.symm)

end Lowering

namespace OpenBlock

variable {b : OpenBlock} {bs inner : List OpenBlock} {function : OpenBlock}
  {blocks : List TypedBlock} {c : BodyTyping} {depth : Nat}

lemma opener_ne_body (h : b.kind.isControl = true) : b.opener ≠ .body := by
  obtain ⟨kind, switched, signature⟩ := b
  revert h
  cases kind <;> cases switched <;> simp [BlockKind.isControl, opener]

/-- A branch to a block inside the function takes no operands along. -/
lemma labelTypes?_eq (hm : TypedBlock.Mirror (inner ++ [function]) blocks)
    (hc : ∀ b ∈ inner, b.kind.isControl = true) (hd : depth < inner.length) :
    c.labelTypes? blocks depth = some [] := by
  obtain ⟨hl, hall⟩ := List.forall₂_iff_get.mp hm
  have hlt : depth < (inner ++ [function]).length := by
    rw [List.length_append]
    omega
  have hb := (hall depth hlt (hl ▸ hlt)).1
  rw [List.get_eq_getElem, List.get_eq_getElem, List.getElem_append_left hd] at hb
  have hne := opener_ne_body (hc _ (List.getElem_mem hd))
  rw [← hb] at hne
  rw [BodyTyping.labelTypes?, List.getElem?_eq_getElem (hl ▸ hlt)]
  dsimp only [Option.bind_eq_bind, Option.bind_some]
  split
  · contradiction
  · rfl

end OpenBlock

/-- The first part of a conditional block is switched to the second one once. -/
lemma ScopeState.not_switched_of_beginElse {s : ScopeState} {b : OpenBlock} {bs : List OpenBlock}
    (h : s.checkBlockEnd .wasmBeginElse = .ok ()) (hb : s.blocks = b :: bs) :
    b.switched = false := by
  unfold checkBlockEnd at h
  rw [hb] at h
  dsimp only at h
  split at h
  · exact nomatch h
  · cases hs : b.switched with
    | false => rfl
    | true =>
        rw [hs] at h
        exact nomatch h

namespace Lowering

variable {context : LoweringContext} {params : List WasmType} {function : OpenBlock}
  {around : List OpenBlock} {p m p' : Point} {i : Instruction} {target : Instr}
  {is : List Instruction} {code : List Instr} {c : BodyTyping} {o : BlockOpener} {u : Bool}
  {outer : List TypedBlock}

/-- What never continues leaves no operands. -/
lemma diverged {bs : List OpenBlock} (h : TypedBlock.Mirror bs (⟨o, [], u⟩ :: outer)) :
    TypedBlock.Mirror bs (⟨o, [], true⟩ :: outer) := by
  cases h with
  | cons hb hrest => exact .cons ⟨hb.1, rfl⟩ hrest

/-- **An instruction that directs control** does so between open blocks of code. -/
lemma Passes.exists_blocks_of_control (h : Passes context p i target m)
    (hf : p.Fits context params function around)
    (hr : ∀ signature ∈ function.signature, signature.result.toList = c.results)
    (hd : i.operation.directsControl = true)
    (hb : TypedBlock.Mirror (p.inner ++ [function]) (⟨o, [], u⟩ :: outer)) :
    ∃ (ts : List WasmType) (blocks : List TypedBlock),
      i.values.map p.state.typer.typeOf = ts.map .wasm ∧ i.outputs = [] ∧
      c.step? (⟨o, ts.reverse, u⟩ :: outer) target = some blocks ∧
        TypedBlock.Mirror (m.inner ++ [function]) blocks := by
  have hs := hf.sound
  obtain ⟨next, ha, -⟩ := Validator.step_eq_ok_iff.mp h.step
  have hend := h.open_
  have ht := h.counterpart
  have hin := ha.inputs
  have hin' := hf.follows.inside
  have hm := h.inner
  have hclose := hin'.exists_cons_of_isBlockEnd hs.fits.toPlaced ha.position hend
  have helse := (ScopeState.check_eq_ok_iff.mp ha.position).1
  have hcf := hin'.currentFunction?
  obtain ⟨hl, ho, -⟩ := Instruction.hasConsistentArity_iff.mp ha.arity
  clear h ha
  obtain ⟨op, inputs, outputs, innerOutputs⟩ := i
  dsimp only at hend hl ho hd hclose helse
  change op.acceptsInputs (inputs.map p.state.typer.typeOf) _ = true at hin
  rw [hm]
  -- the innermost block when an instruction ends it
  have hinner : ∀ {b : OpenBlock} {rest : List OpenBlock}, p.inner = b :: rest →
      o = b.opener ∧ o ≠ .body ∧ TypedBlock.Mirror (rest ++ [function]) outer := by
    intro b rest hbr
    rw [hbr] at hb
    obtain ⟨⟨hob, -⟩, hrest⟩ := List.forall₂_cons.mp hb
    have hne := OpenBlock.opener_ne_body (hin'.control b (by rw [hbr]; exact List.mem_cons_self ..))
    have hob' : o = b.opener := hob
    exact ⟨hob', hob' ▸ hne, hrest⟩
  have hdepth : ∀ {v : Variable} {depth : Nat} (os : List WasmType),
      p.lowering.depth? v = some depth →
        c.labelTypes? (⟨o, os, u⟩ :: outer) depth = some [] := by
    intro v depth os hv
    have hos : c.labelTypes? (⟨o, os, u⟩ :: outer) depth =
        c.labelTypes? (⟨o, [], u⟩ :: outer) depth := by cases depth <;> rfl
    rw [hos]
    refine OpenBlock.labelTypes?_eq hb hin'.control ?_
    rw [hf.follows.length_inner]
    exact (List.findIdx?_eq_some_iff_getElem.mp hv).1
  cases op with
  | wasmBeginBlock | wasmBeginLoop =>
      obtain rfl := List.length_eq_zero_iff.mp hl
      obtain rfl := Option.some.inj ht
      exact ⟨[], _, rfl, List.length_eq_zero_iff.mp ho, rfl, .cons ⟨rfl, rfl⟩ hb⟩
  | wasmBeginIf =>
      obtain rfl := Option.some.inj ht
      exact ⟨[.i32], _, Operation.accepts_if hin, List.length_eq_zero_iff.mp ho, rfl,
        .cons ⟨rfl, rfl⟩ hb⟩
  | wasmBeginElse =>
      obtain rfl := List.length_eq_zero_iff.mp hl
      obtain rfl := Option.some.inj ht
      obtain ⟨b, rest, hbr, hk⟩ := hclose rfl
      obtain ⟨hob, -, hrest⟩ := hinner hbr
      have hblocks : p.state.scopes.blocks = b :: (rest ++ function :: around) := by
        rw [hin'.blocks, hbr]
        rfl
      have hsw := ScopeState.not_switched_of_beginElse (helse rfl) hblocks
      have ho' : o = .ifThen := by
        rw [hob, OpenBlock.opener, hk, hsw]
        rfl
      have hbehind : p.state.scopes.innerBehind p.inner
          ⟨.wasmBeginElse, [], outputs, innerOutputs⟩ = { b with switched := true } :: rest := by
        change ScopeState.openedBlock .wasmBeginElse p.state.scopes.blocks.head? ::
          p.inner.tail = _
        rw [hblocks, hbr]
        rfl
      refine ⟨[], .start .elseThen :: outer, rfl, List.length_eq_zero_iff.mp ho, ?_, ?_⟩
      · rw [ho']
        rfl
      · rw [hbehind]
        refine .cons ⟨?_, rfl⟩ hrest
        rw [OpenBlock.opener, hk]
        rfl
  | wasmEndBlock | wasmEndLoop | wasmEndIf =>
      obtain rfl := List.length_eq_zero_iff.mp hl
      obtain rfl := Option.some.inj ht
      obtain ⟨b, rest, hbr, -⟩ := hclose rfl
      obtain ⟨-, hne, hrest⟩ := hinner hbr
      refine ⟨[], outer, rfl, List.length_eq_zero_iff.mp ho, BodyTyping.step?_blockEnd hne, ?_⟩
      rw [hbr]
      exact hrest
  | wasmReturn hasValue =>
      obtain rfl := Option.some.inj ht
      obtain ⟨signature, hsig, hts, -⟩ := Operation.accepts_return hin
      rw [hcf] at hsig
      refine ⟨c.results, _, hts.trans (by rw [hr _ hsig]), List.length_eq_zero_iff.mp ho,
        BodyTyping.step?_ret, diverged hb⟩
  | wasmBranch =>
      obtain ⟨v, rfl, -⟩ := List.map_eq_singleton_iff.mp (Operation.accepts_branch hin)
      change (p.lowering.depth? v).map Instr.br = some target at ht
      obtain ⟨depth, hv, rfl⟩ := Option.map_eq_some_iff.mp ht
      exact ⟨[], _, rfl, List.length_eq_zero_iff.mp ho, BodyTyping.step?_br (hdepth [] hv),
        diverged hb⟩
  | wasmBranchIf =>
      obtain ⟨v, w, rfl, -, hw⟩ := map_eq_pair_iff.mp (Operation.accepts_branchIf hin)
      change (p.lowering.depth? v).map Instr.brIf = some target at ht
      obtain ⟨depth, hv, rfl⟩ := Option.map_eq_some_iff.mp ht
      exact ⟨[.i32], _, congrArg (· :: []) hw, List.length_eq_zero_iff.mp ho,
        BodyTyping.step?_brIf (hdepth [.i32] hv), hb⟩
  | wasmUnreachable =>
      obtain rfl := List.length_eq_zero_iff.mp hl
      obtain rfl := Option.some.inj ht
      exact ⟨[], _, rfl, List.length_eq_zero_iff.mp ho, rfl, diverged hb⟩
  | _ => exact absurd hd Bool.false_ne_true

/-! ### The code of traces -/

/-- Pushing the values that an instruction reads brings its counterpart into position. -/
lemma foldlM_codeOf {l : Lowering} {ts : List WasmType} {blocks : List TypedBlock}
    (hv : List.Forall₂ (fun v t => ∃ index, l.local? v = some index ∧ c.locals[index]? = some t)
      i.values ts)
    (ht : c.step? (⟨o, ts.reverse, u⟩ :: outer) target = some blocks) :
    (l.codeOf i target).foldlM c.step? (⟨o, [], u⟩ :: outer) =
      (l.pops i).foldlM c.step? blocks := by
  rw [codeOf, List.foldlM_append, BodyTyping.foldlM_pushes hv, List.append_nil]
  change (target :: l.pops i).foldlM c.step? (⟨o, ts.reverse, u⟩ :: outer) = _
  rw [List.foldlM_cons, ht]
  rfl

lemma isBlock_of_not_directsControl {op : Operation} (h : op.home = .function)
    (he : op.endsFunction = false) (hd : op.directsControl = false) :
    op.isBlockStart = false ∧ op.isBlockEnd = false := by
  cases op <;>
    first
    | exact ⟨rfl, rfl⟩
    | exact absurd hd.symm Bool.false_ne_true
    | exact absurd he.symm Bool.false_ne_true
    | cases (show World.script = .function from h)
    | cases (show World.module = .function from h)

/-- **The code of an instruction follows the rules of types**, and behind it no operands are left
in the open blocks. -/
theorem Passes.exists_blocks (h : Passes context p i target m)
    (hf : p.Fits context params function around) (hc : p.TypedBy c context params)
    (hm : m.lowering.typesOfLocals params <+: c.locals) (hp : i.operation.hasValidPayload = true)
    (hr : ∀ signature ∈ function.signature, signature.result.toList = c.results)
    {blocks : List TypedBlock} (hb : TypedBlock.Mirror (p.inner ++ [function]) blocks) :
    ∃ blocks', (p.lowering.codeOf i target).foldlM c.step? blocks = some blocks' ∧
      TypedBlock.Mirror (m.inner ++ [function]) blocks' := by
  have hs := hf.sound
  obtain ⟨next, ha, -⟩ := Validator.step_eq_ok_iff.mp h.step
  have hhome := hf.follows.inside.home hs.fits.toPlaced ha.position
  have hvals := hf.follows.values_isSome hs ha hhome
  obtain ⟨⟨o, os, u⟩, outer, rfl⟩ : ∃ top outer, blocks = top :: outer := by
    refine List.exists_cons_of_length_pos ?_
    rw [← hb.length_eq, List.length_append, List.length_singleton]
    omega
  obtain rfl : os = [] := by
    cases hi : p.inner with
    | nil =>
        rw [hi] at hb
        exact (List.forall₂_cons.mp hb).1.2
    | cons b rest =>
        rw [hi] at hb
        exact (List.forall₂_cons.mp hb).1.2
  cases hd : i.operation.directsControl with
  | true =>
      obtain ⟨ts, blocks', hts, ho, hstep, hmirror⟩ := h.exists_blocks_of_control hf hr hd hb
      refine ⟨blocks', ?_, hmirror⟩
      rw [foldlM_codeOf (forall₂_values hc.locals hvals hts) hstep, pops, ho]
      rfl
  | false =>
      obtain ⟨ts, rs, hts, hrs, hop⟩ := h.exists_operandTypes hf hc hp hd
      obtain ⟨types, htypes, hbehind⟩ := h.behind
      -- the outputs, the last of which comes first, have these types
      obtain rfl : types = rs.reverse := by
        rw [List.map_reverse, hrs, ← List.map_reverse] at htypes
        exact (List.map_injective_iff.mpr (fun _ _ h => StaticType.wasm.inj h) htypes).symm
      have hlen : i.outputs.length = rs.reverse.length := by
        simpa using congrArg List.length hrs
      have hstep : c.step? (⟨o, ts.reverse, u⟩ :: outer) target =
          some (⟨o, rs.reverse ++ [], u⟩ :: outer) := by
        rw [← List.append_nil ts.reverse]
        exact BodyTyping.step?_eq hop
      obtain ⟨hbs, hbe⟩ := isBlock_of_not_directsControl hhome h.open_ hd
      have hinner : m.inner = p.inner := by
        rw [h.inner, ScopeState.innerBehind, ScopeState.opened, hbs, hbe]
        rfl
      refine ⟨⟨o, [], u⟩ :: outer, ?_, by rw [hinner]; exact hb⟩
      rw [foldlM_codeOf (forall₂_values hc.locals hvals hts) hstep, pops, hlen]
      refine BodyTyping.foldlM_pops fun k t hk => ?_
      obtain ⟨later, hl⟩ := hm
      rw [← hl, hbehind, typesOfLocals_behind hlen, hf.follows.numParams]
      have hn : params.length + p.lowering.localTypes.length =
          (p.lowering.typesOfLocals params).length := by simp [typesOfLocals]
      rw [hn, List.append_assoc, List.getElem?_append_right (Nat.le_add_right ..),
        Nat.add_sub_cancel_left, List.getElem?_append_left (List.getElem?_eq_some_iff.mp hk).1, hk]

namespace Trace

/-- Locals are only added. -/
lemma typesOfLocals_grow (h : Trace context params function around p is code p') :
    p.lowering.typesOfLocals params <+: p'.lowering.typesOfLocals params := by
  induction h with
  | nil => exact List.prefix_rfl
  | cons _ head _ ih =>
      obtain ⟨types, htypes, hbehind⟩ := head.behind
      refine List.IsPrefix.trans ?_ ih
      rw [hbehind, typesOfLocals_behind (by simpa using congrArg List.length htypes)]
      exact List.prefix_append ..

/-- **The code of a trace follows the rules of types.** -/
theorem exists_blocks (h : Trace context params function around p is code p')
    (he : c.entities = context.layout.entityTypes)
    (hl : p'.lowering.typesOfLocals params <+: c.locals) (ht : p.state.typer.HoldsReferences)
    (hp : ∀ i ∈ is, i.operation.hasValidPayload = true)
    (hr : ∀ signature ∈ function.signature, signature.result.toList = c.results)
    {blocks : List TypedBlock} (hb : TypedBlock.Mirror (p.inner ++ [function]) blocks) :
    ∃ blocks', code.foldlM c.step? blocks = some blocks' ∧
      TypedBlock.Mirror (p'.inner ++ [function]) blocks' := by
  induction h generalizing blocks with
  | nil => exact ⟨blocks, rfl, hb⟩
  | @cons p m p' i target is code fits head tail ih =>
      obtain ⟨hpi, hpr⟩ := List.forall_mem_cons.mp hp
      have hm := tail.typesOfLocals_grow.trans hl
      have hpm := (Trace.cons fits head tail).typesOfLocals_grow.trans hl
      obtain ⟨blocks₁, h₁, hb₁⟩ := head.exists_blocks fits ⟨he, hpm, ht⟩ hm hpi hr hb
      obtain ⟨next, ha, hs⟩ := Validator.step_eq_ok_iff.mp head.step
      have ht' : m.state.typer.HoldsReferences := by
        rw [hs]
        exact ht.apply ha.arity (Validator.Sound.nodup_definedVariables ha head.small) hpi
      obtain ⟨blocks', h₂, hb'⟩ := ih hl ht' hpr hb₁
      refine ⟨blocks', ?_, hb'⟩
      rw [List.foldlM_append, h₁]
      exact h₂

end Trace

end Lowering

end EngineFuzz
