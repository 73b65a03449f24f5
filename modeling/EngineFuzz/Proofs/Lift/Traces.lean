import Mathlib
import EngineFuzz.Lift.Module
import EngineFuzz.Proofs.Lift.Following
import EngineFuzz.Proofs.Validation.Modules

/-!
# Function bodies, instruction by instruction

The validator and the lowering go through the body of a function side by side.  A trace lists the
positions on the way with the code between them; what is proved of lowered code is proved by
induction on traces.

* `Lowering.Point`, `Lowering.Passes`: a position, and one instruction between two positions.
* `Lowering.Trace`: the instructions between two positions and their code.
* `FunctionRun.exists_trace`, `FunctionRun.body_eq`: an accepted function has a trace from its
  beginning to its end, and the code of the trace is that of its body.
* `Validator.Body.exists_bodies`: the functions of an accepted module are lowered, in order.
-/

namespace EngineFuzz

namespace Lowering

/-- A position in a function, as the validator and the lowering see it. -/
structure Point where
  state : Validator
  /-- The blocks that are open inside the function. -/
  inner : List OpenBlock
  lowering : Lowering

/-- The instructions that pop the results of an instruction into new locals. -/
def pops (l : Lowering) (i : Instruction) : List Instr :=
  (List.range' (l.numParams + l.localTypes.length) i.outputs.length).map .localSet

/-- The code of an instruction with this counterpart. -/
def codeOf (l : Lowering) (i : Instruction) (target : Instr) : List Instr :=
  l.pushes i.values ++ target :: l.pops i

/-- What holds at the positions of an accepted function with these parameters, which stands in the
blocks `around`. -/
structure Point.Fits (context : LoweringContext) (params : List WasmType) (function : OpenBlock)
    (around : List OpenBlock) (p : Point) : Prop where
  sound : p.state.Sound
  follows : p.lowering.Follows params p.state p.inner function around
  covers : context.Covers p.state

/-- An instruction between two positions; `target` is applied to the values that it reads. -/
structure Passes (context : LoweringContext) (p : Point) (i : Instruction) (target : Instr)
    (p' : Point) : Prop where
  step : p.state.step i = .ok p'.state
  small : i.NumbersSmall
  open_ : i.operation.endsFunction = false
  counterpart : target? context p.lowering i = some target
  lowered : instruction context p.lowering i = .ok p'.lowering
  behind : ∃ types, i.outputs.reverse.map p'.state.typer.typeOf = types.map .wasm ∧
    p'.lowering = p.lowering.behind i target types
  inner : p'.inner = p.state.scopes.innerBehind p.inner i

/-- The instructions between two positions of an accepted function, and their code. -/
inductive Trace (context : LoweringContext) (params : List WasmType) (function : OpenBlock)
    (around : List OpenBlock) : Point → List Instruction → List Instr → Point → Prop where
  | nil {p : Point} (fits : p.Fits context params function around) :
      Trace context params function around p [] [] p
  | cons {p m p' : Point} {i : Instruction} {target : Instr} {is : List Instruction}
      {code : List Instr} (fits : p.Fits context params function around)
      (head : Passes context p i target m)
      (tail : Trace context params function around m is code p') :
      Trace context params function around p (i :: is) (p.lowering.codeOf i target ++ code) p'

variable {context : LoweringContext} {params : List WasmType} {function : OpenBlock}
  {around : List OpenBlock} {p m p' : Point} {i : Instruction} {target : Instr}
  {is : List Instruction} {code : List Instr} {l : Lowering} {vs : List Variable}
  {types : List WasmType}

/-! ### The code of one instruction -/

lemma code_defineAll (hl : vs.length = types.length) : (l.defineAll vs types).code =
    ((List.range' (l.numParams + l.localTypes.length) vs.length).map Instr.localSet).reverse ++
      l.code := by
  induction vs generalizing l types with
  | nil => rfl
  | cons v vs ih =>
      obtain ⟨type, types, rfl⟩ := List.exists_cons_of_length_eq_add_one hl.symm
      rw [defineAll_cons, ih (by simpa using hl), List.length_cons, List.range'_succ]
      simp [define, Nat.add_assoc]

lemma code_behind (hl : i.outputs.length = types.length) :
    (l.behind i target types).code = (l.codeOf i target).reverse ++ l.code := by
  rw [behind, code_defineAll (by simpa using hl), codeOf, pops, List.length_reverse]
  simp [emit, emitAll]

lemma Passes.code_eq (h : Passes context p i target m) :
    m.lowering.code = (p.lowering.codeOf i target).reverse ++ p.lowering.code := by
  obtain ⟨types, ht, hb⟩ := h.behind
  rw [hb, code_behind (by simpa using congrArg List.length ht)]

/-- **Where an instruction is accepted, it is lowered.** -/
lemma Point.Fits.exists_passes (h : p.Fits context params function around) {s' : Validator}
    (hstep : p.state.step i = .ok s') (hn : i.NumbersSmall)
    (hend : i.operation.endsFunction = false) (hc : context.Covers s') :
    ∃ target m, Passes context p i target m ∧ m.state = s' ∧
      m.Fits context params function around := by
  obtain ⟨target, types, ht, hts, hl, hf⟩ := h.follows.step h.sound hstep hn hend h.covers hc
  exact ⟨target, ⟨s', _, _⟩, ⟨hstep, hn, hend, ht, hl, ⟨types, hts, rfl⟩, rfl⟩, rfl,
    h.sound.step hstep hn, hf, hc⟩

/-! ### Traces -/

namespace Trace

lemma fits_start (h : Trace context params function around p is code p') :
    p.Fits context params function around := by
  cases h <;> assumption

lemma fits_end (h : Trace context params function around p is code p') :
    p'.Fits context params function around := by
  induction h with
  | nil fits => exact fits
  | cons _ _ _ ih => exact ih

/-- The instructions of a trace are lowered one after another. -/
lemma foldlM_eq (h : Trace context params function around p is code p') :
    is.foldlM (instruction context) p.lowering = .ok p'.lowering := by
  induction h with
  | nil => rfl
  | cons _ head _ ih =>
      rw [List.foldlM_cons, head.lowered]
      exact ih

lemma code_eq (h : Trace context params function around p is code p') :
    p'.lowering.code = code.reverse ++ p.lowering.code := by
  induction h with
  | nil => rfl
  | cons _ head _ ih => rw [ih, head.code_eq, List.reverse_append, List.append_assoc]

end Trace

/-- **Accepted instructions of a function have a trace.** -/
theorem Point.Fits.exists_trace {s s' : Validator} {inner : List OpenBlock}
    (h : Point.Fits context params function around ⟨s, inner, l⟩) (hsteps : Validator.Steps s is s')
    (hn : ∀ i ∈ is, i.NumbersSmall) (hend : ∀ i ∈ is, i.operation.endsFunction = false)
    (hc : context.Covers s') : ∃ code inner' l',
      Trace context params function around ⟨s, inner, l⟩ is code ⟨s', inner', l'⟩ := by
  induction hsteps generalizing inner l with
  | nil s => exact ⟨[], inner, l, .nil h⟩
  | @cons s m s' i is head tail ih =>
      have hhead := hn i (List.mem_cons_self ..)
      have hrest := fun j hj => hn j (List.mem_cons_of_mem _ hj)
      have hopen := fun j hj => hend j (List.mem_cons_of_mem _ hj)
      have hin := h.follows.inside.apply h.sound.fits.toPlaced
        (Validator.step_eq_ok_iff.mp head).choose_spec.1.position (hend i (List.mem_cons_self ..))
      have hm : context.Covers m := by
        refine hc.of_steps tail hrest fun j hj => ?_
        have hhome := (tail.exists_inFunction
          (Validator.placed_of_step h.sound.fits.toPlaced head)
          (by rw [(Validator.step_eq_ok_iff.mp head).choose_spec.2]; exact hin) hopen).2 j hj
        refine ⟨fun he => ?_, fun he => ?_⟩ <;> rw [he] at hhome
        · exact nomatch (show World.script = .function from hhome)
        · exact nomatch (show World.module = .function from hhome)
      obtain ⟨target, ⟨m', inner', l'⟩, hp, rfl, hf⟩ :=
        h.exists_passes head hhead (hend i (List.mem_cons_self ..)) hm
      obtain ⟨code, inner'', l'', ht⟩ := ih hf hrest hopen hc
      exact ⟨_, _, _, .cons h hp ht⟩

/-! ### The ends of a function -/

lemma locals_start : (start vs).locals = vs.zipIdx.reverse := rfl

/-- Parameters are the first locals. -/
lemma local?_start (hn : vs.Nodup) {k : Nat} {v : Variable} (hv : vs[k]? = some v) :
    (start vs).local? v = some k := by
  have hmem : (v, k) ∈ vs.zipIdx.reverse := by
    rw [List.mem_reverse, List.mem_zipIdx_iff_getElem?]
    exact hv
  rw [local?, locals_start]
  cases hf : vs.zipIdx.reverse.find? fun p => p.1 == v with
  | none =>
      have := List.find?_eq_none.mp hf _ hmem
      simp at this
  | some q =>
      obtain ⟨w, j⟩ := q
      have hw : w = v := by simpa using List.find?_some hf
      have hj := List.mem_of_find?_eq_some hf
      rw [List.mem_reverse, List.mem_zipIdx_iff_getElem?, hw] at hj
      obtain ⟨hlt, he⟩ := List.getElem?_eq_some_iff.mp hj
      obtain ⟨hlt', he'⟩ := List.getElem?_eq_some_iff.mp hv
      rw [Option.map_some, (List.Nodup.getElem_inj_iff hn).mp (he.trans he'.symm)]

end Lowering

namespace FunctionRun

variable {context : LoweringContext} {f : FunctionRun}

/-- The position behind the first instruction of the function. -/
def entry (f : FunctionRun) : Lowering.Point := ⟨f.opened, [], .start f.first.innerOutputs⟩

/-- The parameters of the function have the types of its signature. -/
lemma map_typeOf_params (f : FunctionRun) (hn : f.first.NumbersSmall) :
    f.first.innerOutputs.map f.opened.typer.typeOf = f.opener.params.map .wasm := by
  obtain ⟨next, ha, h⟩ := Validator.step_eq_ok_iff.mp f.step_first
  rw [h]
  have hm := Typer.map_typeOf_innerOutputs ha.arity (Validator.Sound.nodup_definedVariables ha hn)
    (by rw [f.first_operation]; nofun) (t := f.front.typer)
  rw [hm, f.first_operation]
  rfl

/-- At the beginning of a function the parameters, and nothing else, are values in scope. -/
lemma follows_entry (f : FunctionRun) (hs : f.front.Sound) (hn : f.first.NumbersSmall) :
    f.entry.lowering.Follows f.opener.params f.opened [] (ScopeState.functionBlock f.opener)
      f.front.scopes.blocks := by
  have htypes := f.map_typeOf_params hn
  have hlen : f.first.innerOutputs.length = f.opener.params.length := by
    simpa using congrArg List.length htypes
  have hsound := hs.step f.step_first hn
  obtain ⟨next, ha, he⟩ := Validator.step_eq_ok_iff.mp f.step_first
  obtain ⟨-, hni, -⟩ := List.nodup_append'.mp (Validator.Sound.nodup_definedVariables ha hn)
  have hworld : OpenBlock.worldOf f.front.scopes.blocks ≠ .function := by
    rw [hs.fits.worldOf_eq_home ha.position, f.first_operation]
    exact fun h => nomatch (show World.module = .function from h)
  -- a value or a label in scope is a parameter
  have hparam : ∀ v ∈ f.opened.scopes.scopes.flatten,
      (∃ type, f.opened.typer.typeOf v = .wasm type) ∨ f.opened.typer.typeOf v = .label →
        v ∈ f.first.innerOutputs := by
    intro v hv ht
    have ho : f.first.outputs = [] := by
      have := (Instruction.hasConsistentArity_iff.mp ha.arity).2.1
      rw [f.first_operation] at this
      exact List.length_eq_zero_iff.mp this
    have hout : f.front.scopes.outside f.first = f.front.scopes :=
      ScopeState.outside_of_not_isBlockEnd (by rw [f.first_operation]; rfl)
    rw [he] at hv ht
    obtain ⟨top, rest, hsc, -, -⟩ := hs.fits.exists_scopes
    rw [ScopeState.mem_flatten_apply (by rw [hout, hsc]; simp)
      (by rw [f.first_operation]; exact nofun), Instruction.definedVariables, ho,
      List.nil_append, hout] at hv
    refine hv.resolve_right fun hv => ?_
    obtain ⟨hw, hl⟩ := hs.fits.not_value_of_worldOf hworld hv
    rw [hs.typeOf_apply ha hn hv] at ht
    rcases ht with ⟨type, ht⟩ | ht
    · exact hw type ht
    · exact hl ht
  have hat : ∀ k : Nat, (f.first.innerOutputs[k]?).map f.opened.typer.typeOf =
      (f.opener.params[k]?).map .wasm := by
    intro k
    rw [← List.getElem?_map, ← List.getElem?_map, htypes]
  refine ⟨f.inFunction_opened, rfl, fun v hv type ht => ?_, fun v hv ht => ?_, .nil, hlen, ?_⟩
  · obtain ⟨k, hk⟩ := List.getElem?_of_mem (hparam v hv (.inl ⟨type, ht⟩))
    refine ⟨k, Lowering.local?_start hni hk, ?_⟩
    have := hat k
    rw [hk, Option.map_some, ht] at this
    obtain ⟨type', htype, he'⟩ := Option.map_eq_some_iff.mp this.symm
    rw [StaticType.wasm.inj he'] at htype
    simpa [Lowering.typesOfLocals, entry, Lowering.start] using htype
  · obtain ⟨k, hk⟩ := List.getElem?_of_mem (hparam v hv (.inr ht))
    have := hat k
    rw [hk, Option.map_some, ht] at this
    obtain ⟨type, -, he'⟩ := Option.map_eq_some_iff.mp this.symm
    cases he'
  · simp [entry, Lowering.start, List.map_reverse, List.zipIdx_map_snd, List.range_eq_range']

/-- **An accepted function has a trace** from its beginning to its end. -/
theorem exists_trace (f : FunctionRun) (hs : f.front.Sound)
    (hn : ∀ i ∈ f.instructions, i.NumbersSmall) (hc : context.Covers f.closed) :
    ∃ code l, Lowering.Trace context f.opener.params (ScopeState.functionBlock f.opener)
      f.front.scopes.blocks f.entry f.inside code ⟨f.closed, [], l⟩ := by
  have hfirst : f.first.NumbersSmall := hn _ (List.mem_cons_self ..)
  have hinside : ∀ i ∈ f.inside, i.NumbersSmall := fun i hi =>
    hn i (List.mem_cons_of_mem _ (List.mem_append_left _ hi))
  have hbound : ∀ i ∈ f.inside,
      i.operation ≠ .beginWasmModule ∧ i.operation ≠ .endWasmModule := fun i hi =>
    f.not_module_boundary hs.fits.toPlaced i (List.mem_cons_of_mem _ (List.mem_append_left _ hi))
  have hentry : f.entry.Fits context f.opener.params (ScopeState.functionBlock f.opener)
      f.front.scopes.blocks :=
    ⟨hs.step f.step_first hfirst, f.follows_entry hs hfirst,
      hc.of_steps f.steps_inside hinside hbound⟩
  obtain ⟨code, inner, l, ht⟩ := hentry.exists_trace f.steps_inside hinside f.open_inside hc
  obtain ⟨next, ha, -⟩ := Validator.step_eq_ok_iff.mp f.step_last
  obtain rfl := ht.fits_end.follows.inside.eq_nil_of_endsFunction ha.position
    (by rw [f.last_operation]; rfl)
  exact ⟨code, l, ht⟩

/-- The body that the function is lowered to. -/
def body (f : FunctionRun) (context : LoweringContext) : Except LiftError FunctionBody := do
  let lowered ← Lowering.function context f.first.innerOutputs f.inside f.last.inputs
  return ⟨lowered.localTypes.reverse, lowered.code.reverse⟩

/-- The function is lowered to a body: it has a trace, and the code of the trace, followed by that
of the end, is the code of the body. -/
def LowersTo (f : FunctionRun) (context : LoweringContext) (body : FunctionBody) : Prop :=
  ∃ code l, Lowering.Trace context f.opener.params (ScopeState.functionBlock f.opener)
      f.front.scopes.blocks f.entry f.inside code ⟨f.closed, [], l⟩ ∧
    body = ⟨l.localTypes.reverse, code ++ (l.pushes f.last.inputs ++ [.blockEnd])⟩

/-- The results of a function are values with locals. -/
lemma exists_types_of_results {l : Lowering}
    (hf : Lowering.Point.Fits context f.opener.params (ScopeState.functionBlock f.opener)
      f.front.scopes.blocks ⟨f.closed, [], l⟩) :
    ∀ v ∈ f.last.inputs, ∃ type index, f.closed.typer.typeOf v = .wasm type ∧
      l.local? v = some index ∧ (l.typesOfLocals f.opener.params)[index]? = some type := by
  obtain ⟨next, ha, -⟩ := Validator.step_eq_ok_iff.mp f.step_last
  have hvals := hf.follows.values_isSome hf.sound ha (by rw [f.last_operation]; rfl)
  rwa [Instruction.values, f.last_operation] at hvals

/-- **The body of a function** is the code of its trace, followed by that of its end. -/
theorem body_eq {code : List Instr} {l : Lowering}
    (h : Lowering.Trace context f.opener.params (ScopeState.functionBlock f.opener)
      f.front.scopes.blocks f.entry f.inside code ⟨f.closed, [], l⟩) :
    f.body context =
      .ok ⟨l.localTypes.reverse, code ++ (l.pushes f.last.inputs ++ [.blockEnd])⟩ := by
  have hget : l.getAll f.last.inputs = .ok (l.emitAll (l.pushes f.last.inputs)) :=
    Lowering.getAll_eq fun v hv => by
      obtain ⟨type, index, -, hi, -⟩ := exists_types_of_results h.fits_end v hv
      rw [hi]
      rfl
  have hcode : l.code = code.reverse := h.code_eq.trans (List.append_nil _)
  have hlow : Lowering.function context f.first.innerOutputs f.inside f.last.inputs =
      .ok ((l.emitAll (l.pushes f.last.inputs)).emit .blockEnd) := by
    rw [Lowering.function]
    change (do
      let lowered ← f.inside.foldlM (Lowering.instruction context) f.entry.lowering
      return (← lowered.getAll f.last.inputs).emit .blockEnd) = _
    rw [h.foldlM_eq]
    change (do return (← l.getAll f.last.inputs).emit .blockEnd) = _
    rw [hget]
    rfl
  rw [body, hlow]
  simp [Lowering.emit, Lowering.emitAll, hcode, pure, Except.pure, bind, Except.bind]

end FunctionRun

/-! ### The functions of a module -/

namespace LoweringContext

variable {context : LoweringContext}

/-- A function is split off at its end. -/
lemma spanFunction_eq {inside after : List Instruction} {last : Instruction}
    (ho : ∀ i ∈ inside, i.operation.endsFunction = false)
    (hl : last.operation.endsFunction = true) :
    spanFunction (inside ++ last :: after) = some (inside, last, after) := by
  induction inside with
  | nil =>
      rw [List.nil_append, spanFunction]
      split
      · rfl
      · rename_i hne
        cases hop : last.operation <;> rw [hop] at hl <;>
          first | exact absurd hop (hne _) | cases hl
  | cons i inside ih =>
      rw [List.cons_append, spanFunction, ih fun j hj => ho j (List.mem_cons_of_mem _ hj)]
      have hi := ho i (List.mem_cons_self ..)
      split
      · rename_i heq
        rw [heq] at hi
        cases hi
      · rfl

/-- A function that has been split off is not empty. -/
lemma functionBody_eq {first last : Instruction} {inside : List Instruction} :
    context.functionBody (first :: (inside ++ [last])) = (do
      let lowered ← Lowering.function context first.innerOutputs inside last.inputs
      return ⟨lowered.localTypes.reverse, lowered.code.reverse⟩) := by
  have hlast : (first :: (inside ++ [last])).getLast? = some last :=
    List.getLast?_concat (l := first :: inside)
  rw [functionBody, hlast, List.head?_cons, List.tail_cons, List.dropLast_concat]

/-- The bodies in the body of a module are those of its functions. -/
lemma functionBodies_eq {s s' : Validator} {is : List Instruction} {fs : List FunctionRun}
    (h : s.Body is fs s') : context.functionBodies is = fs.mapM (·.body context) := by
  induction h with
  | nil s => rw [functionBodies]; rfl
  | @entity s m s' i is fs declares open_ head tail ih =>
      rw [functionBodies]
      split
      · rename_i heq
        rw [heq] at declares
        exact absurd declares (by simp [Operation.isDefinition, Operation.isImport])
      · exact ih
  | @function s' is fs f tail ih =>
      have hspan : spanFunction (f.inside ++ f.last :: is) = some (f.inside, f.last, is) :=
        spanFunction_eq f.open_inside (by rw [f.last_operation]; rfl)
      have happ : f.instructions ++ is = f.first :: (f.inside ++ f.last :: is) := by
        simp [FunctionRun.instructions]
      rw [happ, functionBodies, List.mapM_cons, FunctionRun.body, ← ih]
      split
      · split
        · rename_i hnone
          rw [hspan] at hnone
          cases hnone
        · rename_i inside last after hsome
          rw [hspan, Option.some.injEq, Prod.mk.injEq, Prod.mk.injEq] at hsome
          obtain ⟨rfl, rfl, rfl⟩ := hsome
          rw [functionBody_eq]
      · rename_i hne
        exact absurd f.first_operation (hne _)

end LoweringContext

/-- **The functions of an accepted module are lowered**, in order. -/
theorem Validator.Body.exists_bodies {context : LoweringContext} {s s' : Validator}
    {is : List Instruction} {fs : List FunctionRun} (h : s.Body is fs s') (hs : s.Sound)
    (hn : ∀ i ∈ is, i.NumbersSmall) (hc : context.Covers s') :
    ∃ bodies, context.functionBodies is = .ok bodies ∧
      List.Forall₂ (·.LowersTo context ·) fs bodies := by
  rw [LoweringContext.functionBodies_eq h]
  simp only [mapM_eq_ok_iff]
  induction h with
  | nil s => exact ⟨[], .nil, .nil⟩
  | entity declares open_ head tail ih =>
      exact ih (hs.step head (hn _ (List.mem_cons_self ..)))
        (fun i hi => hn i (List.mem_cons_of_mem _ hi)) hc
  | @function s' is fs f tail ih =>
      have hf : ∀ i ∈ f.instructions, i.NumbersSmall := fun i hi =>
        hn i (List.mem_append_left _ hi)
      have hrest : ∀ i ∈ is, i.NumbersSmall := fun i hi => hn i (List.mem_append_right _ hi)
      have hback := hs.steps f.steps hf
      obtain ⟨bodies, hb, hall⟩ := ih hback hrest hc
      have hcov : context.Covers f.back :=
        hc.of_steps tail.steps hrest (tail.not_module_boundary hback.fits.toPlaced)
      have hlast : context.Covers f.closed := by
        refine hcov.of_step f.step_last (hf _ ?_) ?_ ?_
        · simp [FunctionRun.instructions]
        · rw [f.last_operation]; exact fun h => by cases h
        · rw [f.last_operation]; exact fun h => by cases h
      obtain ⟨code, l, ht⟩ := f.exists_trace hs hf hlast
      exact ⟨_, .cons (FunctionRun.body_eq ht) hb,
        .cons ⟨code, l, ht, rfl⟩ hall⟩

end EngineFuzz
