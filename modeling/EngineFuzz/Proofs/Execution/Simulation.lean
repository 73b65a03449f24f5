import Mathlib
import EngineFuzz.Proofs.Execution.Mirrors

/-!
# One instruction and its code

Each instruction of a function takes effect as its counterpart does in the code, once the values
that it reads are on the stack.

* `LoweredFunction.Poised.reaches_data`, `LoweredFunction.Poised.reaches_branch`,
  `LoweredFunction.Poised.reaches_if`, `LoweredFunction.Poised.reaches_call`: one kind of
  instruction each.
* `LoweredFunction.Poised.reaches_execute`: any instruction.
* `Direct.State.Mirrors.reaches_step`: a step of the functions.
-/

namespace EngineFuzz

open Lowering

/-! ### Operations on data -/

namespace Operation

variable {op : Operation} {function : Option FunctionSignature} {ts : List StaticType}
  {c : EntityCategory}

/-- The first operand of an operation on an entity is an entity of the category. -/
lemma exists_entity_of_usedCategory? (hu : op.usedCategory? = some c)
    (h : op.acceptsInputs ts function = true) :
    ∃ entity rest, ts = .wasmEntity entity :: rest ∧ entity.category = c := by
  cases op with
  | wasmLoadGlobal =>
      obtain ⟨type, isMutable, rfl⟩ := accepts_loadGlobal h
      exact ⟨_, _, rfl, Option.some.inj hu⟩
  | wasmStoreGlobal =>
      obtain ⟨type, rfl⟩ := accepts_storeGlobal h
      exact ⟨_, _, rfl, Option.some.inj hu⟩
  | wasmTableGet =>
      obtain ⟨element, least, most, rfl⟩ := accepts_tableGet h
      exact ⟨_, _, rfl, Option.some.inj hu⟩
  | wasmTableSet =>
      obtain ⟨element, least, most, rfl⟩ := accepts_tableSet h
      exact ⟨_, _, rfl, Option.some.inj hu⟩
  | wasmMemoryLoad type offset =>
      obtain ⟨-, least, most, shared, rfl⟩ := accepts_memoryLoad h
      exact ⟨_, _, rfl, Option.some.inj hu⟩
  | wasmMemoryStore type offset =>
      obtain ⟨-, least, most, shared, rfl⟩ := accepts_memoryStore h
      exact ⟨_, _, rfl, Option.some.inj hu⟩
  | wasmCallFunction signature =>
      obtain rfl := accepts_call h
      exact ⟨_, _, rfl, Option.some.inj hu⟩
  | _ => cases hu

/-- How many values the operation reads. -/
def numValues (op : Operation) : Nat := if op.hasPlace then op.numInputs - 1 else op.numInputs

/-- An operation on data neither opens nor closes a block. -/
lemma noBlock_of_isData (h : op.isData = true) :
    op.isBlockStart = false ∧ op.isBlockEnd = false := by
  cases op <;> first | exact ⟨rfl, rfl⟩ | cases h

end Operation

namespace Direct

variable {host : Host} {body : List Instruction} {s : State} {i : Instruction}
  {args results : List MachineValue} {place? : EntityCategory → Option Nat} {store store' : Store}
  {op : Operation}

/-- The effect of an operation on data. -/
lemma State.execute_of_isData (h : i.operation.isData = true) : s.execute host body i args =
    match applyData (fun c => i.inputs.head?.bind (Direct.place? body c)) s.store i.operation
        args with
    | .ok (results, store) => .running ({ s with store }.bind i.outputs results)
    | .error (.trap kind) => .trapped kind s.store
    | .error .stuck => .stuck := by
  rw [State.execute.eq_def]
  cases hop : i.operation <;> rw [hop] at h <;> first | rfl | cases h

/-- An operation on data has as many results as outputs. -/
lemma length_of_applyData (hd : op.isData = true)
    (h : applyData place? store op args = .ok (results, store')) :
    results.length = op.numOutputs := by
  have hmap : ∀ {α : Type} {x : Except Fault α} {f : α → List MachineValue × Store} {n : Nat},
      (∀ a, (f a).1.length = n) → x.map f = .ok (results, store') → results.length = n := by
    intro α x f n hf hx
    cases x with
    | error e => exact nomatch hx
    | ok a =>
        have := hf a
        rwa [show f a = (results, store') from Except.ok.inj hx] at this
  unfold applyData at h
  split at h <;>
    first
    | exact hmap (fun _ => rfl) h
    | (rw [← (Prod.mk.inj (Except.ok.inj h)).1]; rfl)
    | cases h

end Direct

lemma Lowering.isData_target? {context : LoweringContext} {l : Lowering} {i : Instruction}
    {target : Instr} (h : target? context l i = some target) (hd : i.operation.isData = true) :
    target.isData = true := by
  obtain ⟨op, inputs, outputs, innerOutputs⟩ := i
  cases op with
  | wasmMemoryLoad type offset =>
      obtain ⟨-, index, -, rfl⟩ := target?_memoryLoad h
      rfl
  | wasmMemoryStore type offset =>
      obtain ⟨-, index, -, rfl⟩ := target?_memoryStore h
      rfl
  | _ =>
      first
      | (obtain rfl := Option.some.inj h; rfl)
      | (obtain ⟨index, -, rfl⟩ := Option.map_eq_some_iff.mp h; rfl)
      | cases hd

/-- What the host gives has the types of the results. -/
lemma Host.length_of_call {host : Host} {call : HostCall} {signature : FunctionSignature}
    {store store' : Store} {values : List MachineValue}
    (h : host.call call signature store = (.ok values, store')) :
    values.length = signature.results.length := by
  unfold Host.call at h
  dsimp only at h
  split at h
  · exact nomatch (Prod.mk.inj h).1
  · split at h
    · rename_i ht
      obtain rfl := Except.ok.inj (Prod.mk.inj h).1
      rw [← ht, List.length_map]
    · exact nomatch (Prod.mk.inj h).1

/-- What follows a call of a function, when the arguments have left the stack. -/
def Machine.enter (host : Host) (m : Machine) (callee : Callee) (args : List MachineValue) :
    Progress :=
  match callee with
  | .host name signature =>
    match host.call ⟨name, args⟩ signature m.store with
    | (.ok values, store) =>
      .running { m with
        store
        active := { m.active with operands := values.reverse ++ m.active.operands } }
    | (.error (.trap kind), store) => .trapped kind store
    | (.error .stuck, _) => .stuck
  | .code signature body frameSize =>
    if m.active.room < frameSize then .trapped .stackOverflow m.store
    else
      Machine.fueled
        { m with
          fuel := m.fuel - 1
          active := Machine.activation signature body args (m.active.room - frameSize)
          callers := m.active :: m.callers }

namespace LoweredFunction

variable {context : LoweringContext} {setup : MachineSetup} {F : LoweredFunction context}
  {p m q : Point} {i : Instruction} {target : Instr} {frame : Direct.Frame} {code : List Instr}
  {locals : Array MachineValue} {labels : List Label} {args : List MachineValue} {store : Store}
  {fuel room : Nat} {as : List Activation} {callers : List (Direct.Frame × List Variable)}
  {body : List Instruction} {machine : Machine} {label : Variable} {depth : Nat}

/-- The machine in front of the counterpart of an instruction, with the values that the instruction
reads on the stack. -/
def loaded (F : LoweredFunction context) (p : Point) (i : Instruction) (target : Instr)
    (code : List Instr) (locals : Array MachineValue) (labels : List Label)
    (args : List MachineValue) (store : Store) (fuel room : Nat) (as : List Activation) : Machine :=
  ⟨store, fuel, ⟨locals, args.reverse, target :: (p.lowering.pops i ++ (code ++ F.ending)), labels,
    F.run.opener.results.length, room⟩, as⟩

namespace Poised

/-! ### What is known of the instruction -/

lemma length_values (h : F.Poised p i target m frame code locals labels) :
    i.values.length = i.operation.numValues := by
  obtain ⟨next, ha, -⟩ := Validator.step_eq_ok_iff.mp h.passes.step
  rw [Instruction.values, Operation.numValues]
  split
  · rw [List.length_tail, (Instruction.hasConsistentArity_iff.mp ha.arity).1]
  · exact (Instruction.hasConsistentArity_iff.mp ha.arity).1

lemma exists_admits (h : F.Poised p i target m frame code locals labels) :
    ∃ next, p.state.Admits i next := by
  obtain ⟨next, ha, -⟩ := Validator.step_eq_ok_iff.mp h.passes.step
  exact ⟨next, ha⟩

lemma home (h : F.Poised p i target m frame code locals labels) : i.operation.home = .function := by
  obtain ⟨next, ha⟩ := h.exists_admits
  exact h.front.fits.follows.inside.home h.front.fits.sound.fits.toPlaced ha.position

/-- The instruction is one of those of the function. -/
lemma mem_inside (h : F.Poised p i target m frame code locals labels) : i ∈ F.run.inside := by
  obtain ⟨mid, midCode, his, -, -⟩ := h.front.before
  rw [his]
  exact List.mem_append_right _ (List.mem_cons_self ..)

/-- What opens and closes no block leaves the labels as they are. -/
lemma labels_eq (h : F.Poised p i target m frame code locals labels)
    (hs : i.operation.isBlockStart = false) (he : i.operation.isBlockEnd = false) :
    m.labels = p.labels := by
  cases h.passes.nests h.front.fits with
  | stays _ _ _ _ labels _ => exact labels
  | opens start => exact absurd (hs.symm.trans start) Bool.false_ne_true
  | switches start => exact absurd (hs.symm.trans start) Bool.false_ne_true
  | closes _ isEnd => exact absurd (he.symm.trans isEnd) Bool.false_ne_true

/-- The entity that the first operand stands for. -/
lemma exists_place (h : F.Poised p i target m frame code locals labels) {c : EntityCategory}
    (hu : i.operation.usedCategory? = some c) : ∃ v index e, i.inputs.head? = some v ∧
      context.layout.indexOf? v = some index ∧ (context.layout.ordered c)[index]? = some e ∧
        e.var = v ∧ p.state.typer.typeOf v = .wasmEntity e.entity := by
  obtain ⟨next, ha⟩ := h.exists_admits
  obtain ⟨entity, rest, hts, rfl⟩ := Operation.exists_entity_of_usedCategory? hu ha.inputs
  have hhead := congrArg List.head? hts
  rw [Validator.inputTypes, List.head?_map, List.head?_cons, Option.map_eq_some_iff] at hhead
  obtain ⟨v, hv, ht⟩ := hhead
  have hscope : v ∈ p.scopes.flatten := (h.front.fits.sound.fits.tracks.visible v).mp
    (ha.visible v (List.mem_of_mem_head? hv))
  obtain ⟨index, e, hi, ho, rfl, he⟩ :=
    exists_index h.front.fits.covers h.front.fits.sound.fits hscope ht
  exact ⟨e.var, index, e, hv, hi, ho, rfl, by rw [ht, he]⟩

/-! ### Data -/

/-- **Operations on data.** -/
theorem reaches_data (h : F.Poised p i target m frame code locals labels)
    (hs : setup.Runs context body)
    (hc : Direct.Callers context F.run.opener.results.length callers as)
    (hargs : args.length = i.operation.numValues) (hd : i.operation.isData = true) :
    (F.loaded p i target code locals labels args store fuel room as).Reaches setup context 1
      (1 + i.outputs.length)
        ((Direct.State.mk store frame callers).execute setup.host body i args) := by
  obtain ⟨next, ha⟩ := h.exists_admits
  have hplace : ∀ c, i.operation.usedCategory? = some c →
      i.inputs.head?.bind (Direct.place? body c) =
        i.inputs.head?.bind context.layout.indexOf? := by
    intro c hu
    obtain ⟨v, index, e, hv, hi, ho, rfl, -⟩ := h.exists_place hu
    rw [hv, Option.bind_some, Option.bind_some, hi, hs.place c index e ho]
  have happly : (DataState.mk store locals args.reverse).apply target = _ :=
    DataState.apply_target h.passes.counterpart hd ha.arity (h.wellBuilt.payloads i h.mem_inside)
      hplace (hargs.trans h.length_values.symm)
  have hstep : (F.loaded p i target code locals labels args store fuel room as).step setup = _ :=
    Machine.step_of_isData (isData_target? h.passes.counterpart hd)
  rw [happly] at hstep
  rw [Direct.State.execute_of_isData hd]
  obtain ⟨hnoStart, hnoEnd⟩ := Operation.noBlock_of_isData hd
  cases hres : Direct.applyData (fun c => i.inputs.head?.bind (Direct.place? body c)) store
      i.operation args with
  | ok r =>
      obtain ⟨results, store'⟩ := r
      rw [hres] at hstep
      have hlen : results.length = i.outputs.length := by
        rw [Direct.length_of_applyData hd hres]
        exact (Instruction.hasConsistentArity_iff.mp ha.arity).2.1.symm
      exact (h.resume (h.labels_eq hnoStart hnoEnd) hlen hc).of_step hstep
  | error fault =>
      rw [hres] at hstep
      cases fault with
      | trap kind =>
          exact (Machine.reaches_trapped hstep).mono (Nat.le_refl _) (Nat.le_add_right ..)
      | stuck => exact (Machine.reaches_stuck hstep).mono (Nat.le_refl _) (Nat.le_add_right ..)

/-! ### Branches -/

/-- The machine continues where a branch leads. -/
lemma reaches_continues (h : F.Poised p i target m frame code locals labels)
    (hc : Direct.Callers context F.run.opener.results.length callers as)
    {rest left : List Instruction} {leftCode : List Instr} {l : Label}
    {operands : List MachineValue} {here : List Instr}
    (hl : labels[depth]? = some l) (hlabel : F.LabelOf label l)
    (hq : F.Continues p rest depth label l q left leftCode) (hfuel : 0 < fuel)
    (hm : machine.step setup = (Machine.mk store fuel
      ⟨locals, operands, here, labels, F.run.opener.results.length, room⟩ as).branch depth) :
    machine.Reaches setup context 1 1 (.running ⟨store, { frame with rest := left }, callers⟩) := by
  have hdrop : labels.drop depth = l :: labels.drop (depth + 1) := by
    obtain ⟨hlt, rfl⟩ := List.getElem?_eq_some_iff.mp hl
    exact List.drop_eq_getElem_cons hlt
  have hbranch : (Machine.mk store fuel
      ⟨locals, operands, here, labels, F.run.opener.results.length, room⟩ as).branch depth =
      .running ⟨store, fuel, ⟨locals, [], leftCode ++ F.ending,
        labels.drop (if l.isLoop then depth else depth + 1), F.run.opener.results.length, room⟩,
          as⟩ := by
    rw [Machine.branch]
    dsimp only
    rw [hdrop]
    dsimp only
    rw [hlabel.operands_eq, hq.code]
    cases l.isLoop with
    | false => rfl
    | true =>
        rw [if_pos rfl, if_pos rfl, if_pos rfl, hdrop, Machine.fueled]
        exact if_neg (Nat.ne_of_gt hfuel)
  have hmirrors : F.Mirrors q { frame with rest := left } locals
      (labels.drop (if l.isLoop then depth else depth + 1)) := by
    refine ⟨h.wellBuilt, h.function, h.keeps.mono fun v hv => .inl (hq.scopes v hv), ?_⟩
    rw [hq.labels]
    exact List.forall₂_drop _ h.labels
  exact (Machine.reaches_of_mirrors ⟨rfl, .intro room hmirrors hq.position, hc⟩).of_step
    (hm.trans hbranch)

/-- An open label is a label of the machine. -/
lemma exists_label (h : F.Poised p i target m frame code locals labels)
    (hd : p.labels[depth]? = some label) : ∃ l, labels[depth]? = some l ∧ F.LabelOf label l := by
  obtain ⟨hlt, rfl⟩ := List.getElem?_eq_some_iff.mp hd
  have hlt' : depth < labels.length := h.labels.length_eq ▸ hlt
  exact ⟨labels[depth], List.getElem?_eq_getElem hlt',
    (List.forall₂_iff_get.mp h.labels).2 depth hlt hlt'⟩

/-- **Branches.** -/
theorem reaches_branch (h : F.Poised p i target m frame code locals labels)
    (hc : Direct.Callers context F.run.opener.results.length callers as)
    (hd : i.inputs.head?.bind p.lowering.depth? = some depth) {operands : List MachineValue}
    {here : List Instr} (hfuel : 0 < fuel)
    (hm : machine.step setup = (Machine.mk store fuel
      ⟨locals, operands, here, labels, F.run.opener.results.length, room⟩ as).branch depth) :
    machine.Reaches setup context 1 1
      ((Direct.State.mk store frame callers).branch i.inputs.head?) := by
  obtain ⟨label, hv, hdepth⟩ := Option.bind_eq_some_iff.mp hd
  have hat : p.labels[depth]? = some label := by
    obtain ⟨hlt, heq, -⟩ := List.findIdx?_eq_some_iff_getElem.mp hdepth
    rw [List.getElem?_eq_getElem hlt, beq_iff_eq.mp heq]
  obtain ⟨l, hl, hlabel⟩ := h.exists_label hat
  obtain ⟨q, left, leftCode, hq⟩ := h.front.exists_continues hat hlabel
  have hbranch : (Direct.State.mk store frame callers).branch (some label) =
      .running ⟨store, { frame with rest := left }, callers⟩ := by
    have htarget : frame.function.target? label = some left := by
      rw [h.function]
      exact hq.source
    rw [Direct.State.branch, Option.bind_some]
    dsimp only
    rw [htarget]
    rfl
  rw [hv, hbranch]
  exact h.reaches_continues hc hl hlabel hq hfuel hm

/-! ### Blocks -/

/-- An instruction that opens a block. -/
lemma exists_opens (h : F.Poised p i target m frame code locals labels)
    (hs : i.operation.isBlockStart = true) (he : i.operation.isBlockEnd = false) :
    ∃ label, i.outputs = [] ∧ m.labels = label :: p.labels ∧ F.Opens label i m frame.rest code := by
  cases h.passes.nests h.front.fits with
  | opens _ _ _ outputs inner labels =>
      exact ⟨_, outputs, labels,
        h.front.opens h.passes (by rw [inner]; exact List.mem_cons_self ..)⟩
  | switches _ isEnd => exact absurd (he.symm.trans isEnd) Bool.false_ne_true
  | closes noStart => exact absurd (noStart.symm.trans hs) Bool.false_ne_true
  | stays noStart => exact absurd (noStart.symm.trans hs) Bool.false_ne_true

/-- Blocks that control enters in any case. -/
theorem reaches_begin (h : F.Poised p i target m frame code locals labels)
    (hc : Direct.Callers context F.run.opener.results.length callers as)
    (hargs : args.length = i.operation.numValues) (hfuel : 0 < fuel)
    (hop : i.operation = .wasmBeginBlock ∨ i.operation = .wasmBeginLoop) :
    (F.loaded p i target code locals labels args store fuel room as).Reaches setup context 1 1
      ((Direct.State.mk store frame callers).execute setup.host body i args) := by
  obtain ⟨next, ha⟩ := h.exists_admits
  have htarget := h.passes.counterpart
  rcases hop with hop | hop
  · obtain ⟨label, ho, hlabels, hopens⟩ := h.exists_opens (by rw [hop]; rfl) (by rw [hop]; rfl)
    rw [hop] at hargs
    obtain rfl : args = [] := List.length_eq_zero_iff.mp hargs
    obtain rfl : target = .block := by
      rw [target?, hop] at htarget
      exact (Option.some.inj htarget).symm
    have hexec : (Direct.State.mk store frame callers).execute setup.host body i [] =
        .running ⟨store, frame, callers⟩ := by
      rw [Direct.State.execute.eq_def, hop]
    rw [hexec, loaded, pops_eq_nil ho]
    refine h.reaches_behind ho h.keeps ?_ hc rfl
    rw [hlabels]
    exact .cons (.block hopens (by rw [hop]; exact Operation.noConfusion)) h.labels
  · obtain ⟨label, ho, hlabels, hopens⟩ := h.exists_opens (by rw [hop]; rfl) (by rw [hop]; rfl)
    rw [hop] at hargs
    obtain rfl : args = [] := List.length_eq_zero_iff.mp hargs
    obtain rfl : target = .loop := by
      rw [target?, hop] at htarget
      exact (Option.some.inj htarget).symm
    have hexec : (Direct.State.mk store frame callers).execute setup.host body i [] =
        .running ⟨store, frame, callers⟩ := by
      rw [Direct.State.execute.eq_def, hop]
    rw [hexec, loaded, pops_eq_nil ho]
    have hlabel : List.Forall₂ F.LabelOf m.labels (⟨code ++ F.ending, true, []⟩ :: labels) := by
      rw [hlabels]
      exact .cons (.loop hopens hop) h.labels
    exact h.reaches_behind ho h.keeps hlabel hc (if_neg (Nat.ne_of_gt hfuel))

/-- The end of a block. -/
theorem reaches_end (h : F.Poised p i target m frame code locals labels)
    (hc : Direct.Callers context F.run.opener.results.length callers as)
    (hargs : args.length = i.operation.numValues)
    (hop : i.operation = .wasmEndBlock ∨ i.operation = .wasmEndLoop ∨ i.operation = .wasmEndIf) :
    (F.loaded p i target code locals labels args store fuel room as).Reaches setup context 1 1
      ((Direct.State.mk store frame callers).execute setup.host body i args) := by
  obtain ⟨next, ha⟩ := h.exists_admits
  obtain rfl : args = [] := by
    rcases hop with hop | hop | hop <;>
    · rw [hop] at hargs
      exact List.length_eq_zero_iff.mp hargs
  have hexec : (Direct.State.mk store frame callers).execute setup.host body i [] =
      .running ⟨store, frame, callers⟩ := by
    rw [Direct.State.execute.eq_def]
    rcases hop with hop | hop | hop <;> rw [hop]
  have hends : i.operation.isBlockStart = false ∧ i.operation.isBlockEnd = true := by
    rcases hop with hop | hop | hop <;> rw [hop] <;> exact ⟨rfl, rfl⟩
  cases h.passes.nests h.front.fits with
  | closes _ _ target_end ho _ hlabels =>
      subst target_end
      obtain ⟨label, outer, hp⟩ := List.exists_cons_of_ne_nil hlabels.1
      have hl := h.labels
      rw [hp] at hl
      cases hl with
      | @cons _ l _ ls _ hrest =>
          rw [hexec, loaded, pops_eq_nil ho]
          refine h.reaches_behind ho h.keeps ?_ hc rfl
          rw [hlabels.2, hp]
          exact hrest
  | opens start => exact absurd (hends.1.symm.trans start) Bool.false_ne_true
  | switches start => exact absurd (hends.1.symm.trans start) Bool.false_ne_true
  | stays _ noEnd => exact absurd (noEnd.symm.trans hends.2) Bool.false_ne_true

/-- Control that gets to a second part goes past it. -/
theorem reaches_else (h : F.Poised p i target m frame code locals labels)
    (hc : Direct.Callers context F.run.opener.results.length callers as)
    (hfuel : 1 < fuel) (hop : i.operation = .wasmBeginElse) :
    (F.loaded p i target code locals labels args store fuel room as).Reaches setup context 1 1
      ((Direct.State.mk store frame callers).execute setup.host body i args) := by
  obtain ⟨next, ha⟩ := h.exists_admits
  have hexec : (Direct.State.mk store frame callers).execute setup.host body i args =
      .running ⟨store, { frame with rest := Direct.afterBlock 0 frame.rest }, callers⟩ := by
    rw [Direct.State.execute.eq_def, hop]
    rfl
  have hstart : i.operation.isBlockStart = true := by rw [hop]; rfl
  have hend : i.operation.isBlockEnd = true := by rw [hop]; rfl
  cases h.passes.nests h.front.fits with
  | switches _ _ target_else ho _ hlabels =>
      subst target_else
      obtain ⟨label, outer, hp⟩ := List.exists_cons_of_ne_nil hlabels.1
      have hat : p.labels[0]? = some label := by rw [hp]; rfl
      obtain ⟨l, hl, hlabel⟩ := h.exists_label hat
      obtain ⟨q, left, leftCode, hq⟩ := h.front.exists_continues hat hlabel
      -- the innermost block is a conditional one, and no loop
      have hnoLoop : l.isLoop = false := by
        by_contra hloop
        obtain ⟨block, outer, hb, hk⟩ := hq.loop (Bool.eq_true_of_not_eq_false hloop)
        obtain ⟨b, rest, hb', hk'⟩ := h.front.fits.follows.inside.exists_cons_of_isBlockEnd
          h.front.fits.sound.fits.toPlaced ha.position h.passes.open_ hend
        rw [List.drop_zero, hb'] at hb
        rw [(List.cons.inj hb).1, hk, hop] at hk'
        exact nomatch hk'
      have hleft : Direct.afterBlock 0 frame.rest = left := by
        rw [← hq.behind hnoLoop, Direct.afterBlock_switches hstart hend]
      rw [hexec, hleft]
      refine h.reaches_continues hc hl hlabel hq ?_ rfl
      exact Nat.lt_of_succ_lt hfuel
  | opens _ noEnd => exact absurd (noEnd.symm.trans hend) Bool.false_ne_true
  | closes noStart => exact absurd (noStart.symm.trans hstart) Bool.false_ne_true
  | stays _ noEnd => exact absurd (noEnd.symm.trans hend) Bool.false_ne_true

/-- Behind a conditional block whose condition is false. -/
lemma reaches_skip (h : F.Poised p i .ifThen m frame code locals labels)
    (hc : Direct.Callers context F.run.opener.results.length callers as) {opened : Label}
    (hop : i.operation = .wasmBeginIf)
    (hlabel : opened = ⟨Instr.afterEnd 0 (code ++ F.ending), false, []⟩)
    (hm : machine.step setup = match Instr.elsePart? 0 (code ++ F.ending) with
      | some here => .running (Machine.mk store fuel ⟨locals, [], here, opened :: labels,
          F.run.opener.results.length, room⟩ as)
      | none => .running (Machine.mk store fuel ⟨locals, [], Instr.afterEnd 0 (code ++ F.ending),
          labels, F.run.opener.results.length, room⟩ as)) :
    machine.Reaches setup context 1 1 (.running
      ((Direct.State.mk store frame callers).goto
        ((Direct.secondPart? 0 frame.rest).getD (Direct.afterBlock 0 frame.rest)))) := by
  obtain ⟨label, ho, hlabels, hopens⟩ := h.exists_opens (by rw [hop]; rfl) (by rw [hop]; rfl)
  have hpos : 0 < m.labels.length := by rw [hlabels]; exact Nat.zero_lt_succ _
  have hscopes : m.scopes.drop 1 = p.scopes := by
    cases h.passes.nests h.front.fits with
    | opens _ _ _ _ _ _ scopes => rw [scopes]; rfl
    | switches _ isEnd => rw [hop] at isEnd; exact nomatch isEnd
    | closes _ isEnd => rw [hop] at isEnd; exact nomatch isEnd
    | stays noStart => rw [hop] at noStart; exact nomatch noStart
  have hdrop : m.labels.drop 1 = p.labels := by rw [hlabels]; rfl
  rcases h.behind.behind.exists_secondPart labels_done hpos with
    ⟨hnone, hcode⟩ | ⟨q, j, r, rest, restCode, hj, hvia, hsec⟩
  · -- there is no second part
    obtain ⟨q, rest, restCode, hvia, hexit⟩ := h.behind.behind.exists_exit labels_done hpos
    rw [hcode, hexit.code_eq] at hm
    rw [hnone, Option.getD_none, hexit.rest_eq]
    have hmirrors : F.Mirrors q { frame with rest } locals labels := by
      refine ⟨h.wellBuilt, h.function, h.keeps.mono fun v hv => .inl ?_, ?_⟩
      · rwa [hexit.scopes, Nat.zero_add, hscopes] at hv
      · rw [hexit.labels, Nat.zero_add, hdrop]
        exact h.labels
    exact (Machine.reaches_of_mirrors ⟨rfl, .intro room hmirrors (h.behind.trans hvia), hc⟩).of_step
      hm
  · -- there is one, which begins with the instruction `j`
    have hq : F.At q (j :: rest) (q.lowering.codeOf j .elseThen ++ restCode) := h.behind.trans hvia
    rw [hsec.code_eq] at hm
    rw [hsec.rest_eq, Option.getD_some]
    cases hj.nests hq.fits with
    | @switches label' _ _ _ _ inner hlabels' scopes =>
        have hopens' : F.Opens label' j r rest restCode :=
          hq.opens hj (by rw [inner]; exact List.mem_cons_self ..)
        have hnoLoop : j.operation ≠ .wasmBeginLoop := by
          intro hloop
          have := hsec.isEnd
          rw [hloop] at this
          exact nomatch this
        have hr : F.At r rest restCode := hq.of_passes hj
        have hmirrors : F.Mirrors r { frame with rest } locals (opened :: labels) := by
          refine ⟨h.wellBuilt, h.function, h.keeps.mono fun v hv => ?_, ?_⟩
          · rw [scopes, hsec.scopes, Nat.zero_add, hscopes, List.flatten_cons, List.mem_append,
              ← inner] at hv
            exact hv.symm.imp_right (hj.typeOf_label hq.fits hr.fits)
          · rw [hlabels'.2, hsec.labels, Nat.zero_add, hdrop, hlabel, hsec.afterEnd]
            exact .cons (.block hopens' hnoLoop) h.labels
        exact (Machine.reaches_of_mirrors ⟨rfl, .intro room hmirrors hr, hc⟩).of_step hm
    | opens _ _ target_opens => exact nomatch target_opens
    | closes _ _ target_end => exact nomatch target_end
    | stays _ noEnd => exact absurd (noEnd.symm.trans hsec.isEnd) Bool.false_ne_true

/-- **Conditional blocks.** -/
theorem reaches_if (h : F.Poised p i target m frame code locals labels)
    (hc : Direct.Callers context F.run.opener.results.length callers as)
    (hargs : args.length = i.operation.numValues) (hop : i.operation = .wasmBeginIf) :
    (F.loaded p i target code locals labels args store fuel room as).Reaches setup context 1 1
      ((Direct.State.mk store frame callers).execute setup.host body i args) := by
  obtain ⟨next, ha⟩ := h.exists_admits
  have htarget := h.passes.counterpart
  obtain rfl : target = .ifThen := by
    rw [target?, hop] at htarget
    exact (Option.some.inj htarget).symm
  obtain ⟨label, ho, hlabels, hopens⟩ := h.exists_opens (by rw [hop]; rfl) (by rw [hop]; rfl)
  rw [hop] at hargs
  obtain ⟨x, rfl⟩ := List.length_eq_one_iff.mp hargs
  rw [loaded, pops_eq_nil ho, List.nil_append]
  have hstuck : (∀ c, x ≠ .i32 c) →
      (Direct.State.mk store frame callers).execute setup.host body i [x] = .stuck := by
    intro hx
    rw [Direct.State.execute.eq_def, hop]
    cases x <;> first | rfl | exact absurd rfl (hx _)
  cases x with
  | i32 condition =>
      have hexec : (Direct.State.mk store frame callers).execute setup.host body i
          [.i32 condition] =
          if condition ≠ 0 then .running ⟨store, frame, callers⟩
          else .running ((Direct.State.mk store frame callers).goto
            ((Direct.secondPart? 0 frame.rest).getD (Direct.afterBlock 0 frame.rest))) := by
        rw [Direct.State.execute.eq_def, hop]
      rw [hexec]
      by_cases hz : condition = 0
      · subst hz
        rw [if_neg (not_not.mpr rfl)]
        exact h.reaches_skip hc hop rfl rfl
      · rw [if_pos hz]
        have hlabel : List.Forall₂ F.LabelOf m.labels
            (⟨Instr.afterEnd 0 (code ++ F.ending), false, []⟩ :: labels) := by
          rw [hlabels]
          exact .cons (.block hopens (by rw [hop]; exact Operation.noConfusion)) h.labels
        exact h.reaches_behind ho h.keeps hlabel hc (if_pos (bne_iff_ne.mpr hz))
  | _ => rw [hstuck fun _ h => by cases h]; exact Machine.reaches_stuck rfl

/-- **Branches under a condition.** -/
theorem reaches_branchIf (h : F.Poised p i target m frame code locals labels)
    (hc : Direct.Callers context F.run.opener.results.length callers as)
    (hargs : args.length = i.operation.numValues) (hfuel : 1 < fuel)
    (hop : i.operation = .wasmBranchIf) :
    (F.loaded p i target code locals labels args store fuel room as).Reaches setup context 1 1
      ((Direct.State.mk store frame callers).execute setup.host body i args) := by
  obtain ⟨next, ha⟩ := h.exists_admits
  obtain ⟨-, hout, -⟩ := Instruction.hasConsistentArity_iff.mp ha.arity
  have htarget := h.passes.counterpart
  rw [target?, hop] at htarget
  obtain ⟨depth, hdepth, rfl⟩ := Option.map_eq_some_iff.mp htarget
  have ho : i.outputs = [] := List.length_eq_zero_iff.mp (by rw [hout, hop]; rfl)
  rw [hop] at hargs
  obtain ⟨x, rfl⟩ := List.length_eq_one_iff.mp hargs
  rw [loaded, pops_eq_nil ho, List.nil_append]
  have hstuck : (∀ c, x ≠ .i32 c) →
      (Direct.State.mk store frame callers).execute setup.host body i [x] = .stuck := by
    intro hx
    rw [Direct.State.execute.eq_def, hop]
    cases x <;> first | rfl | exact absurd rfl (hx _)
  cases x with
  | i32 condition =>
      have hexec : (Direct.State.mk store frame callers).execute setup.host body i
          [.i32 condition] =
          if condition ≠ 0 then (Direct.State.mk store frame callers).branch i.inputs.head?
          else .running ⟨store, frame, callers⟩ := by
        rw [Direct.State.execute.eq_def, hop]
      rw [hexec]
      by_cases hz : condition = 0
      · subst hz
        rw [if_neg (not_not.mpr rfl)]
        have hlabel : List.Forall₂ F.LabelOf m.labels labels := by
          rw [h.labels_eq (by rw [hop]; rfl) (by rw [hop]; rfl)]
          exact h.labels
        exact h.reaches_behind ho h.keeps hlabel hc rfl
      · rw [if_pos hz]
        exact h.reaches_branch hc hdepth (Nat.sub_pos_of_lt hfuel) (if_pos (bne_iff_ne.mpr hz))
  | _ => rw [hstuck fun _ h => by cases h]; exact Machine.reaches_stuck rfl

/-! ### Values and calls -/

/-- An assignment to a variable. -/
theorem reaches_reassign (h : F.Poised p i target m frame code locals labels)
    (hc : Direct.Callers context F.run.opener.results.length callers as)
    (hargs : args.length = i.operation.numValues) (hop : i.operation = .wasmReassign) :
    (F.loaded p i target code locals labels args store fuel room as).Reaches setup context 1 1
      ((Direct.State.mk store frame callers).execute setup.host body i args) := by
  obtain ⟨next, ha⟩ := h.exists_admits
  obtain ⟨hin, hout, -⟩ := Instruction.hasConsistentArity_iff.mp ha.arity
  have htarget := h.passes.counterpart
  rw [target?, hop] at htarget
  obtain ⟨index, hindex, rfl⟩ := Option.map_eq_some_iff.mp htarget
  rw [hop] at hin hout hargs
  have ho : i.outputs = [] := List.length_eq_zero_iff.mp hout
  obtain ⟨v, w, hvw⟩ := List.length_eq_two.mp hin
  obtain ⟨x, rfl⟩ := List.length_eq_one_iff.mp hargs
  rw [hvw] at hindex
  have hscope : v ∈ p.scopes.flatten := (h.front.fits.sound.fits.tracks.visible v).mp
    (ha.visible v (by rw [hvw]; exact List.mem_cons_self ..))
  have hexec : (Direct.State.mk store frame callers).execute setup.host body i [x] =
      .running ⟨store, { frame with values := frame.values.set v x }, callers⟩ := by
    rw [Direct.State.execute.eq_def, hop]
    dsimp only
    rw [hvw]
    rfl
  have hlabel : List.Forall₂ F.LabelOf m.labels labels := by
    rw [h.labels_eq (by rw [hop]; rfl) (by rw [hop]; rfl)]
    exact h.labels
  have hlt : index < locals.size := by
    rw [h.keeps.size]
    exact Nat.lt_of_lt_of_le (h.front.fits.follows.local?_lt hindex) h.front.localCount_le
  rw [hexec, loaded, pops_eq_nil ho]
  exact h.reaches_behind ho (h.keeps.reassign h.front hscope hindex) hlabel hc
    (Machine.step_localSet hlt)

/-- A return gives as many values as the function has results. -/
lemma length_return (h : F.Poised p i target m frame code locals labels) {hasValue : Bool}
    (hop : i.operation = .wasmReturn hasValue) :
    i.operation.numValues = F.run.opener.results.length := by
  obtain ⟨next, ha⟩ := h.exists_admits
  have hin := ha.inputs
  rw [h.front.fits.follows.inside.currentFunction?, hop] at hin
  obtain ⟨signature, hs, -, hv⟩ := Operation.accepts_return hin
  obtain rfl : F.run.opener = signature := Option.some.inj hs
  have hone := h.wellBuilt.results
  rw [hop, hv, FunctionSignature.result]
  cases hr : F.run.opener.results with
  | nil => rfl
  | cons t ts =>
      rw [hr, List.length_cons] at hone
      rw [List.length_cons, Nat.le_zero.mp (Nat.le_of_succ_le_succ hone)]
      rfl

/-- **Returns.** -/
theorem reaches_return (h : F.Poised p i target m frame code locals labels)
    (hc : Direct.Callers context F.run.opener.results.length callers as)
    (hargs : args.length = i.operation.numValues) {hasValue : Bool}
    (hop : i.operation = .wasmReturn hasValue) :
    (F.loaded p i target code locals labels args store fuel room as).Reaches setup context 1
      (1 + Direct.pending callers)
        ((Direct.State.mk store frame callers).execute setup.host body i args) := by
  have htarget := h.passes.counterpart
  obtain rfl : target = .ret := by
    rw [target?, hop] at htarget
    exact (Option.some.inj htarget).symm
  have hexec : (Direct.State.mk store frame callers).execute setup.host body i args =
      (Direct.State.mk store frame callers).leave args := by
    rw [Direct.State.execute.eq_def, hop]
  rw [hexec]
  exact hc.reaches_leave (hargs.trans (h.length_return hop)) rfl

/-- **Calls.** -/
theorem reaches_call (h : F.Poised p i target m frame code locals labels)
    (hs : setup.Runs context body)
    (hc : Direct.Callers context F.run.opener.results.length callers as)
    (hargs : args.length = i.operation.numValues) (hfuel : 2 < fuel)
    (hroom : setup.frameBound ≤ room) {signature : FunctionSignature}
    (hop : i.operation = .wasmCallFunction signature) :
    (F.loaded p i target code locals labels args store fuel room as).Reaches setup context 1
      (1 + i.outputs.length)
        ((Direct.State.mk store frame callers).execute setup.host body i args) := by
  obtain ⟨next, ha⟩ := h.exists_admits
  have hout := (Instruction.hasConsistentArity_iff.mp ha.arity).2.1
  obtain ⟨v, index, e, hv, hi, he, rfl, htype⟩ := h.exists_place (c := .function) (by rw [hop]; rfl)
  have hentity : e.entity = .function signature := by
    have hin := ha.inputs
    rw [hop] at hin
    have hhead := congrArg List.head? (Operation.accepts_call hin)
    rw [Validator.inputTypes, List.head?_map, hv, Option.map_some, List.head?_cons, htype] at hhead
    exact StaticType.wasmEntity.inj (Option.some.inj hhead)
  obtain ⟨link, rfl, hcallee, hfunction⟩ := hs.callee index e he
  obtain rfl : link.callee.signature = signature :=
    EntityType.function.inj (link.signature.symm.trans hentity)
  obtain rfl : target = .call index := by
    have htarget := h.passes.counterpart
    rw [target?, hop] at htarget
    obtain ⟨k, hk, rfl⟩ := Option.map_eq_some_iff.mp htarget
    rw [hv, Option.bind_some, hi] at hk
    rw [Option.some.inj hk]
  have hsame := h.labels_eq (by rw [hop]; rfl) (by rw [hop]; rfl)
  have hexec : (Direct.State.mk store frame callers).execute setup.host body i args =
      (Direct.State.mk store frame callers).call setup.host body (some link.entity.var) i.outputs
        args := by
    rw [Direct.State.execute.eq_def, hop]
    dsimp only
    rw [hv]
  -- the arguments are all that is on the stack
  have hcount : args.length = link.callee.signature.params.length := by
    rw [hargs, hop]
    exact Nat.add_sub_cancel_left ..
  have hstep : (F.loaded p i (.call index) code locals labels args store fuel room as).step setup =
      (Machine.mk store (fuel - 1) ⟨locals, [], p.lowering.pops i ++ (code ++ F.ending), labels,
        F.run.opener.results.length, room⟩ as).enter setup.host link.callee args := by
    have hlen : args.reverse.length = link.callee.signature.params.length := by
      rw [List.length_reverse, hcount]
    change (Machine.mk store (fuel - 1) ⟨locals, args.reverse,
      p.lowering.pops i ++ (code ++ F.ending), labels, F.run.opener.results.length, room⟩
        as).call setup index = _
    rw [Machine.call, hfunction]
    dsimp only
    rewrite [if_neg (by rw [hlen]; exact Nat.lt_irrefl _), List.take_of_length_le hlen.le,
      List.drop_of_length_le hlen.le, List.reverse_reverse]
    cases link.callee <;> rfl
  rw [hexec, Direct.State.call, Option.bind_some, hcallee]
  have hout' : i.outputs.length = link.callee.signature.results.length := by rw [hout, hop]; rfl
  have hruns := link.runs
  cases hmeaning : link.meaning with
  | host name signature =>
      rw [hmeaning] at hruns
      generalize link.callee = callee at hruns hstep hout'
      cases hruns
      dsimp only [Machine.enter] at hstep ⊢
      have hresults : ∀ {results : List MachineValue} {store' : Store},
          setup.host.call ⟨name, args⟩ signature store = (.ok results, store') →
            results.length = i.outputs.length := by
        intro results store' hcall
        rw [hout', Host.length_of_call hcall]
        rfl
      cases hcall : setup.host.call ⟨name, args⟩ signature store with
      | mk result store' =>
          rw [hcall] at hstep
          cases result with
          | ok results =>
              dsimp only at hstep ⊢
              rw [List.append_nil] at hstep
              exact (h.resume hsame (hresults hcall) hc).of_step hstep
          | error fault =>
              cases fault with
              | trap kind =>
                  exact (Machine.reaches_trapped hstep).mono (Nat.le_refl _) (Nat.le_add_right ..)
              | stuck =>
                  exact (Machine.reaches_stuck hstep).mono (Nat.le_refl _) (Nat.le_add_right ..)
  | code f =>
      rw [hmeaning] at hruns
      have hsize := MachineSetup.frameSize_le hfunction
      generalize link.callee = callee at hruns hstep hout' hcount hsize
      cases hruns with
      | code G wellBuilt frameSize =>
          have hparams : args.length = G.run.source.params.length := by
            obtain ⟨next, hfirst, -⟩ := Validator.step_eq_ok_iff.mp G.run.step_first
            have hinner := (Instruction.hasConsistentArity_iff.mp hfirst.arity).2.2
            rw [G.run.first_operation] at hinner
            rw [hcount]
            change G.run.closer.params.length = _
            rw [wellBuilt.ends]
            exact hinner.symm
          have hframe : frameSize ≤ setup.frameBound := hsize
          dsimp only [Machine.enter] at hstep ⊢
          rw [if_pos hparams]
          rw [if_neg (Nat.not_lt.mpr (hframe.trans hroom)), Machine.fueled,
            if_neg (by dsimp only; omega)] at hstep
          refine Machine.Reaches.mono ((Machine.reaches_of_mirrors ⟨rfl, ?_, ?_⟩).of_step hstep)
            (Nat.le_refl _) (Nat.le_add_right ..)
          · have hentry : G.Mirrors G.run.entry (G.run.source.enter args)
                (args ++ G.body.locals.map MachineValue.zero).toArray [] :=
              ⟨wellBuilt, rfl, G.keeps_entry hparams, .nil⟩
            have hactive := Direct.Frame.Active.intro (room - frameSize) hentry G.at_entry
            rwa [← wellBuilt.ends] at hactive
          · have hcallers := Direct.Callers.cons (.intro room h hsame) hc
            rwa [hout'] at hcallers

/-! ### Any instruction -/

/-- **An instruction takes effect as its counterpart does**, if there is fuel and stack left. -/
theorem reaches_execute (h : F.Poised p i target m frame code locals labels)
    (hs : setup.Runs context body)
    (hc : Direct.Callers context F.run.opener.results.length callers as)
    (hargs : args.length = i.operation.numValues) (hfuel : 2 < fuel)
    (hroom : setup.frameBound ≤ room) :
    (F.loaded p i target code locals labels args store fuel room as).Reaches setup context 1
      (1 + i.outputs.length + Direct.pending callers)
        ((Direct.State.mk store frame callers).execute setup.host body i args) := by
  have hone : ∀ {progress}, (F.loaded p i target code locals labels args store fuel room
      as).Reaches setup context 1 1 progress → (F.loaded p i target code locals labels args store
        fuel room as).Reaches setup context 1 (1 + i.outputs.length + Direct.pending callers)
          progress := fun hr => hr.mono (Nat.le_refl _) (by omega)
  have hhome := h.home
  have hopen := h.passes.open_
  cases hop : i.operation with
  | wasmReassign => exact hone (h.reaches_reassign hc hargs hop)
  | wasmReturn hasValue =>
      exact (h.reaches_return hc hargs hop).mono (Nat.le_refl _) (by omega)
  | wasmBeginBlock => exact hone (h.reaches_begin hc hargs (by omega) (.inl hop))
  | wasmBeginLoop => exact hone (h.reaches_begin hc hargs (by omega) (.inr hop))
  | wasmEndBlock => exact hone (h.reaches_end hc hargs (.inl hop))
  | wasmEndLoop => exact hone (h.reaches_end hc hargs (.inr (.inl hop)))
  | wasmEndIf => exact hone (h.reaches_end hc hargs (.inr (.inr hop)))
  | wasmBeginIf => exact hone (h.reaches_if hc hargs hop)
  | wasmBeginElse => exact hone (h.reaches_else hc (by omega) hop)
  | wasmBranchIf => exact hone (h.reaches_branchIf hc hargs (by omega) hop)
  | wasmBranch =>
      have htarget := h.passes.counterpart
      rw [target?, hop] at htarget
      obtain ⟨depth, hdepth, rfl⟩ := Option.map_eq_some_iff.mp htarget
      have hexec : (Direct.State.mk store frame callers).execute setup.host body i args =
          (Direct.State.mk store frame callers).branch i.inputs.head? := by
        rw [Direct.State.execute.eq_def, hop]
      rw [hexec]
      refine hone (h.reaches_branch hc hdepth ?_ rfl)
      change 0 < fuel - 1
      omega
  | wasmUnreachable =>
      have htarget := h.passes.counterpart
      rw [target?, hop] at htarget
      obtain rfl := Option.some.inj htarget
      have hexec : (Direct.State.mk store frame callers).execute setup.host body i args =
          .trapped .unreachable store := by
        rw [Direct.State.execute.eq_def, hop]
      rw [hexec]
      exact hone (Machine.reaches_trapped rfl)
  | wasmCallFunction signature =>
      exact (h.reaches_call hs hc hargs hfuel hroom hop).mono (Nat.le_refl _) (by omega)
  | _ =>
      first
      | exact (h.reaches_data hs hc hargs (by rw [hop]; rfl)).mono (Nat.le_refl _) (by omega)
      | (rw [hop] at hhome; cases (show World.script = .function from hhome))
      | (rw [hop] at hhome; cases (show World.module = .function from hhome))
      | (rw [hop] at hopen; cases hopen)

end Poised

end LoweredFunction

end EngineFuzz
