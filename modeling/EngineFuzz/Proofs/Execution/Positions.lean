import Mathlib
import EngineFuzz.Proofs.Execution.Blocks

/-!
# Positions and labels

The positions in a lowered function.  Each label that is open at a position belongs to a block that
begins at an earlier one, and a branch to it leads to a position again.

* `LoweredFunction`, `LoweredFunction.At`: a function with its code, and its positions.
* `LoweredFunction.At.encloses`: the blocks that are open at a position.
* `LoweredFunction.At.exists_continues`: where a branch to an open label continues.
-/

namespace EngineFuzz

/-- The function as the program gives it. -/
def FunctionRun.source (f : FunctionRun) : FunctionCode :=
  ⟨f.first.innerOutputs, f.inside, f.last.inputs⟩

/-- A function with the code that it is lowered to. -/
structure LoweredFunction (context : LoweringContext) where
  run : FunctionRun
  nodup_params : run.first.innerOutputs.Nodup
  code : List Instr
  /-- The state of the lowering at the end. -/
  lowering : Lowering
  trace : Lowering.Trace context run.opener.params (ScopeState.functionBlock run.opener)
    run.front.scopes.blocks run.entry run.inside code ⟨run.closed, [], lowering⟩

namespace Lowering

variable {context : LoweringContext} {params : List WasmType} {function : OpenBlock}
  {around : List OpenBlock} {p m m' p' q : Point} {i : Instruction} {target target' : Instr}
  {is : List Instruction} {code code' : List Instr} {v : Variable}

/-! ### Traces again -/

/-- The position behind an instruction is determined by the one in front. -/
lemma Passes.unique (h : Passes context p i target m) (h' : Passes context p i target' m') :
    target = target' ∧ m = m' := by
  obtain ⟨s, inner, l⟩ := m
  obtain ⟨s', inner', l'⟩ := m'
  obtain rfl : s = s' := Except.ok.inj (h.step.symm.trans h'.step)
  obtain rfl : l = l' := Except.ok.inj (h.lowered.symm.trans h'.lowered)
  obtain rfl : inner = inner' := h.inner.trans h'.inner.symm
  exact ⟨Option.some.inj (h.counterpart.symm.trans h'.counterpart), rfl⟩

lemma Passes.nextFresh_le (h : Passes context p i target m) :
    p.state.nextFresh ≤ m.state.nextFresh ∧ ∀ v ∈ i.definedVariables,
      p.state.nextFresh ≤ v.number ∧ v.number < m.state.nextFresh := by
  obtain ⟨next, ha, hm⟩ := Validator.step_eq_ok_iff.mp h.step
  obtain ⟨hle, hrange, -⟩ := Validator.checkFresh_eq_ok ha.fresh h.small
  rw [hm]
  exact ⟨hle, hrange⟩

namespace Trace

lemma unique (h : Trace context params function around p is code p')
    (h' : Trace context params function around p is code' q) : code = code' ∧ p' = q := by
  induction h generalizing code' with
  | nil =>
      cases h'
      exact ⟨rfl, rfl⟩
  | cons _ head _ ih =>
      cases h' with
      | cons _ head' tail' =>
          obtain ⟨rfl, rfl⟩ := head.unique head'
          obtain ⟨rfl, rfl⟩ := ih tail'
          exact ⟨rfl, rfl⟩

/-- Variables that are defined on the way have old numbers at the end. -/
lemma nextFresh_le (h : Trace context params function around p is code p') :
    p.state.nextFresh ≤ p'.state.nextFresh ∧
      ∀ i ∈ is, ∀ v ∈ i.definedVariables, v.number < p'.state.nextFresh := by
  induction h with
  | nil => exact ⟨UInt32.le_refl _, by simp⟩
  | cons _ head _ ih =>
      obtain ⟨hle, hnew⟩ := head.nextFresh_le
      refine ⟨UInt32.le_trans hle ih.1, List.forall_mem_cons.mpr ⟨fun v hv => ?_, ih.2⟩⟩
      exact UInt32.lt_of_lt_of_le (hnew v hv).2 ih.1

/-- A variable keeps its local. -/
lemma local?_eq (h : Trace context params function around p is code p')
    (hv : v.number < p.state.nextFresh) : p'.lowering.local? v = p.lowering.local? v := by
  induction h with
  | nil => rfl
  | @cons p m p' i target is code _ head _ ih =>
      obtain ⟨hle, hnew⟩ := head.nextFresh_le
      obtain ⟨types, -, hb⟩ := head.behind
      rw [ih (UInt32.lt_of_lt_of_le hv hle), hb]
      refine local?_defineAll_of_not_mem fun hmem => ?_
      have hdef := List.mem_append_left i.innerOutputs (List.mem_reverse.mp hmem)
      exact UInt32.not_lt.mpr (hnew v hdef).1 hv

end Trace

end Lowering

/-- The instruction that has a label is found, if none before has the label. -/
lemma Direct.findLabel?_append {label : Variable} {before rest : List Instruction}
    {i : Instruction} (hb : ∀ j ∈ before, label ∉ j.innerOutputs) (hi : label ∈ i.innerOutputs) :
    findLabel? label (before ++ i :: rest) = some (i, rest) := by
  induction before with
  | nil =>
      rw [List.nil_append, findLabel?, if_pos (by simpa using hi)]
  | cons j before ih =>
      obtain ⟨hj, hb⟩ := List.forall_mem_cons.mp hb
      rw [List.cons_append, findLabel?, if_neg (by simpa using hj), ih hb]

namespace LoweredFunction

open Lowering

variable {context : LoweringContext} {F : LoweredFunction context} {p q m b b' : Point}
  {i j : Instruction} {target : Instr} {rest rest' : List Instruction} {code code' : List Instr}
  {label : Variable} {depth : Nat}

/-- The position in front of the end. -/
def done (F : LoweredFunction context) : Point := ⟨F.run.closed, [], F.lowering⟩

/-- A position in the function, where `rest` is left with its code. -/
def At (F : LoweredFunction context) (p : Point) (rest : List Instruction) (code : List Instr) :
    Prop :=
  Via context F.run.opener.params (ScopeState.functionBlock F.run.opener) F.run.front.scopes.blocks
    F.run.entry F.run.inside F.code F.done p rest code

/-- The code behind that of the body: it pushes the results and ends. -/
def ending (F : LoweredFunction context) : List Instr :=
  F.lowering.pushes F.run.last.inputs ++ [.blockEnd]

/-- The body that the function is lowered to. -/
def body (F : LoweredFunction context) : FunctionBody :=
  ⟨F.lowering.localTypes.reverse, F.code ++ F.ending⟩

lemma labels_done : F.done.labels = [] := by
  have hl := F.trace.fits_end.follows.length_inner
  exact List.length_eq_zero_iff.mp hl.symm

/-! ### Positions -/

lemma at_entry : F.At F.run.entry F.run.inside F.code := Via.refl F.trace

lemma At.fits (h : F.At p rest code) :
    p.Fits context F.run.opener.params (ScopeState.functionBlock F.run.opener)
      F.run.front.scopes.blocks :=
  h.behind.fits_start

/-- Where nothing is left, the function is at its end. -/
lemma At.eq_done (h : F.At p [] code) : p = F.done ∧ code = [] := by
  have ht := h.behind
  generalize hd : F.done = d at ht
  cases ht with
  | nil => exact ⟨rfl, rfl⟩

/-- One instruction leads from a position to another. -/
lemma At.exists_passes (h : F.At p (i :: rest) code) : ∃ target m code',
    Passes context p i target m ∧
      code = p.lowering.codeOf i target ++ code' ∧ F.At m rest code' := by
  have ht := h.behind
  generalize hd : F.done = d at ht
  cases ht with
  | cons fits head tail =>
      subst hd
      exact ⟨_, _, _, head, rfl, h.trans ((Via.refl tail).cons fits head)⟩

/-- Behind an instruction stands a position. -/
lemma At.of_passes (h : F.At p (i :: rest) (p.lowering.codeOf i target ++ code))
    (hi : Passes context p i target m) : F.At m rest code := by
  obtain ⟨target', m', code', hi', hcode, hm⟩ := h.exists_passes
  obtain ⟨rfl, rfl⟩ := hi.unique hi'
  obtain rfl := List.append_cancel_left hcode
  exact hm

/-- A position is determined by what is left. -/
lemma At.unique (h : F.At b rest code) (h' : F.At b' rest code') : b = b' ∧ code = code' := by
  obtain ⟨⟨mid, midCode, his, hcode, hmid⟩, -⟩ := h
  obtain ⟨⟨mid', midCode', his', hcode', hmid'⟩, -⟩ := h'
  obtain rfl : mid = mid' := List.append_cancel_right (his.symm.trans his')
  obtain ⟨rfl, rfl⟩ := hmid.unique hmid'
  exact ⟨rfl, List.append_cancel_left (hcode.symm.trans hcode')⟩

/-! ### Labels -/

/-- The block of a label begins with the instruction `i`, behind which stands the position `b`. -/
structure Opens (F : LoweredFunction context) (label : Variable) (i : Instruction) (b : Point)
    (rest : List Instruction) (code : List Instr) : Prop where
  found : Direct.findLabel? label F.run.inside = some (i, rest)
  position : F.At b rest code
  block : ∃ block outer, b.inner = block :: outer ∧ block.kind = i.operation.kind

lemma Opens.unique (h : F.Opens label i b rest code) (h' : F.Opens label j b' rest' code') :
    i = j ∧ rest = rest' ∧ b = b' ∧ code = code' := by
  obtain ⟨rfl, rfl⟩ := Prod.mk.inj (Option.some.inj (h.found.symm.trans h'.found))
  obtain ⟨rfl, rfl⟩ := h.position.unique h'.position
  exact ⟨rfl, rfl, rfl, rfl⟩

/-- An instruction with a label opens the block of the label. -/
lemma At.opens (h : F.At p (i :: rest) (p.lowering.codeOf i target ++ code))
    (hi : Passes context p i target m) (hl : label ∈ i.innerOutputs) :
    F.Opens label i m rest code := by
  obtain ⟨mid, midCode, his, -, hmid⟩ := h.before
  refine ⟨?_, h.of_passes hi, ?_⟩
  · rw [his]
    -- the label is new
    refine Direct.findLabel?_append (fun j hj hmem => ?_) hl
    have hold := hmid.nextFresh_le.2 j hj label (List.mem_append_right _ hmem)
    exact UInt32.not_lt.mpr (hi.nextFresh_le.2 label (List.mem_append_right _ hl)).1 hold
  · have hstart : i.operation.isBlockStart = true := by
      cases hi.nests h.fits with
      | opens start => exact start
      | switches start => exact start
      | closes _ _ _ _ inner | stays _ _ _ inner =>
          rw [inner] at hl
          exact absurd hl List.not_mem_nil
    obtain ⟨next, ha, -⟩ := Validator.step_eq_ok_iff.mp hi.step
    rw [hi.inner, ScopeState.innerBehind, ScopeState.opened, if_pos hstart]
    exact ⟨_, _, rfl, ScopeState.kind_openedBlock (ScopeState.check_eq_ok_iff.mp ha.position).1⟩

/-- The position `b` is at the beginning of the block that the position `p` is in, where `depth`
blocks inside are open. -/
structure IsInside (p : Point) (rest : List Instruction) (code : List Instr) (depth : Nat)
    (label : Variable) (b : Point) (rest' : List Instruction) (code' : List Instr) : Prop where
  labels : b.labels = p.labels.drop depth
  inner : b.inner = p.inner.drop depth
  scopes : b.scopes = [label] :: p.scopes.drop (depth + 1)
  afterBlock : Direct.afterBlock depth rest = Direct.afterBlock 0 rest'
  afterEnd : ∀ tail, Instr.afterEnd depth (code ++ tail) = Instr.afterEnd 0 (code' ++ tail)

/-- Each open label at a position belongs to a block that the position is in. -/
def Encloses (F : LoweredFunction context) (p : Point) (rest : List Instruction)
    (code : List Instr) : Prop :=
  ∀ depth label, p.labels[depth]? = some label → ∃ i b rest' code',
    F.Opens label i b rest' code' ∧ IsInside p rest code depth label b rest' code'

/-- One instruction keeps the blocks around, and opens, switches or closes the innermost. -/
lemma Encloses.step (h : F.Encloses p (i :: rest) (p.lowering.codeOf i target ++ code))
    (hp : F.At p (i :: rest) (p.lowering.codeOf i target ++ code))
    (hi : Passes context p i target m) : F.Encloses m rest code := by
  -- a block around stays around, `d` blocks inside before and `d'` behind
  have hpass : ∀ {d d' label}, (p.labels[d]? = some label) →
      Direct.afterBlock d (i :: rest) = Direct.afterBlock d' rest →
      (∀ c, Instr.afterEnd d (p.lowering.codeOf i target ++ c) = Instr.afterEnd d' c) →
      m.labels.drop d' = p.labels.drop d → m.inner.drop d' = p.inner.drop d →
      m.scopes.drop (d' + 1) = p.scopes.drop (d + 1) →
      ∃ i b rest' code', F.Opens label i b rest' code' ∧
        IsInside m rest code d' label b rest' code' := by
    intro d d' label hlabel hblock hend hlabels hinner hscopes
    obtain ⟨j, b, rest', code', ho, hin⟩ := h d label hlabel
    refine ⟨j, b, rest', code', ho, hin.labels.trans hlabels.symm, hin.inner.trans hinner.symm, ?_,
      hblock.symm.trans hin.afterBlock, fun tail => ?_⟩
    · rw [hin.scopes, hscopes]
    · rw [← hend, ← List.append_assoc, hin.afterEnd]
  -- a new block is open, with nothing inside
  have hnew : ∀ {label scopes}, i.innerOutputs = [label] → m.scopes = [label] :: scopes →
      ∃ i b rest' code', F.Opens label i b rest' code' ∧
        IsInside m rest code 0 label b rest' code' := by
    intro label scopes hinner hscopes
    have ho := hp.opens hi (by rw [hinner]; exact List.mem_singleton_self label)
    exact ⟨i, m, rest, code, ho, rfl, rfl, by rw [hscopes]; rfl, rfl, fun _ => rfl⟩
  have hmi := hi.inner
  rw [ScopeState.innerBehind, ScopeState.opened] at hmi
  intro d label hd
  cases hi.nests hp.fits with
  | opens start noEnd target_opens outputs inner labels scopes =>
      rw [labels] at hd
      cases d with
      | zero =>
          obtain rfl := Option.some.inj hd
          exact hnew inner scopes
      | succ d =>
          rw [if_pos start, noEnd, if_neg Bool.false_ne_true] at hmi
          refine hpass hd (Direct.afterBlock_opens start noEnd) (fun c => ?_) ?_ ?_ ?_
          · rw [afterEnd_codeOf outputs, Instr.afterEnd_of_opensBlock target_opens]
          · rw [labels, List.drop_succ_cons]
          · rw [hmi, List.singleton_append, List.drop_succ_cons]
          · rw [scopes, List.drop_succ_cons]
  | switches start isEnd target_else outputs inner labels scopes =>
      rw [labels.2] at hd
      cases d with
      | zero =>
          obtain rfl := Option.some.inj hd
          exact hnew inner scopes
      | succ d =>
          rw [if_pos start, if_pos isEnd] at hmi
          refine hpass (d := d + 1) (by simpa using hd) (Direct.afterBlock_switches start isEnd)
            (fun c => ?_) ?_ ?_ ?_
          · rw [afterEnd_codeOf outputs, target_else]
            rfl
          · rw [labels.2, List.drop_succ_cons, List.drop_tail]
          · rw [hmi, List.singleton_append, List.drop_succ_cons, List.drop_tail]
          · rw [scopes, List.drop_succ_cons, List.drop_tail]
  | closes noStart isEnd target_end outputs inner labels scopes =>
      rw [labels.2] at hd
      rw [noStart, if_neg Bool.false_ne_true, if_pos isEnd, List.nil_append] at hmi
      refine hpass (d := d + 1) (by simpa using hd) (Direct.afterBlock_closes noStart isEnd)
        (fun c => ?_) ?_ ?_ ?_
      · rw [afterEnd_codeOf outputs, target_end]
        rfl
      · rw [labels.2, List.drop_tail]
      · rw [hmi, List.drop_tail]
      · rw [scopes, List.drop_tail]
  | stays noStart noEnd target_flat inner labels scopes =>
      obtain ⟨top, outer, hps, hms⟩ := scopes
      rw [labels] at hd
      rw [noStart, if_neg Bool.false_ne_true, noEnd, if_neg Bool.false_ne_true,
        List.nil_append] at hmi
      refine hpass hd (Direct.afterBlock_stays noStart noEnd)
        (fun c => Instr.afterEnd_of_isFlat (isFlat_codeOf target_flat)) (by rw [labels])
        (by rw [hmi]) ?_
      rw [hps, hms, List.drop_succ_cons, List.drop_succ_cons]

/-- **The blocks that are open at a position** begin at positions. -/
theorem At.encloses (h : F.At p rest code) : F.Encloses p rest code := by
  -- along the way from the beginning to the position
  have hway : ∀ {p₀ mid midCode}, Trace context F.run.opener.params
      (ScopeState.functionBlock F.run.opener) F.run.front.scopes.blocks p₀ mid midCode p →
      F.At p₀ (mid ++ rest) (midCode ++ code) → F.Encloses p₀ (mid ++ rest) (midCode ++ code) →
      F.Encloses p rest code := by
    intro p₀ mid midCode hmid
    induction hmid with
    | nil => exact fun _ h => h
    | cons fits head tail ih =>
        intro hat henc
        rw [List.append_assoc] at hat henc
        exact ih h (hat.of_passes head) (henc.step hat head)
  obtain ⟨mid, midCode, his, hcode, hmid⟩ := h.before
  refine hway hmid (by rw [← his, ← hcode]; exact at_entry) fun d label hd => ?_
  exact nomatch hd

/-! ### Branches -/

/-- Where a branch to a label continues in the code of the function: at the beginning of the code of
a loop, or behind that of another block. -/
inductive LabelOf (F : LoweredFunction context) (label : Variable) : Label → Prop where
  | loop {i : Instruction} {b : Point} {rest : List Instruction} {code : List Instr}
      (opens : F.Opens label i b rest code) (isLoop : i.operation = .wasmBeginLoop) :
      LabelOf F label ⟨code ++ F.ending, true, []⟩
  | block {i : Instruction} {b : Point} {rest : List Instruction} {code : List Instr}
      (opens : F.Opens label i b rest code) (noLoop : i.operation ≠ .wasmBeginLoop) :
      LabelOf F label ⟨Instr.afterEnd 0 (code ++ F.ending), false, []⟩

lemma LabelOf.operands_eq {target : Label} (h : F.LabelOf label target) : target.operands = [] := by
  cases h <;> rfl

/-- A branch from the position `p` that leaves `depth` blocks inside continues at the position
`q`. -/
structure Continues (F : LoweredFunction context) (p : Point) (rest : List Instruction)
    (depth : Nat) (label : Variable) (target : Label) (q : Point) (left : List Instruction)
    (leftCode : List Instr) : Prop where
  position : F.At q left leftCode
  source : F.run.source.target? label = some left
  code : target.code = leftCode ++ F.ending
  labels : q.labels = p.labels.drop (if target.isLoop then depth else depth + 1)
  scopes : ∀ v ∈ q.scopes.flatten, v ∈ p.scopes.flatten
  behind : target.isLoop = false → Direct.afterBlock depth rest = left
  loop : target.isLoop = true → ∃ block outer, p.inner.drop depth = block :: outer ∧
    block.kind = .wasmLoop

/-- **Where a branch to an open label continues.** -/
theorem At.exists_continues (h : F.At p rest code) (hd : p.labels[depth]? = some label)
    {target : Label} (hl : F.LabelOf label target) :
    ∃ q left leftCode, F.Continues p rest depth label target q left leftCode := by
  obtain ⟨i, b, rest', code', ho, hin⟩ := h.encloses depth label hd
  have hdrop : ∀ v ∈ (p.scopes.drop (depth + 1)).flatten, v ∈ p.scopes.flatten := by
    intro v hv
    obtain ⟨scope, hs, hv⟩ := List.mem_flatten.mp hv
    exact List.mem_flatten.mpr ⟨scope, List.mem_of_mem_drop hs, hv⟩
  have htarget : F.run.source.target? label = some
      (if i.operation = .wasmBeginLoop then rest' else Direct.afterBlock 0 rest') := by
    rw [FunctionCode.target?, FunctionRun.source, ho.found]
    rfl
  cases hl with
  | loop opens isLoop =>
      obtain ⟨rfl, rfl, rfl, rfl⟩ := ho.unique opens
      rw [if_pos isLoop] at htarget
      refine ⟨b, rest', code', ho.position, htarget, rfl, hin.labels, fun v hv => ?_, nofun,
        fun _ => ?_⟩
      · rw [hin.scopes, List.flatten_cons, List.mem_append, List.mem_singleton] at hv
        rcases hv with rfl | hv
        · -- the label of an open block is in scope
          have hscopes := h.fits.follows.scopes
          obtain ⟨hlt, hat⟩ := List.getElem?_eq_some_iff.mp hd
          have hmem := (List.forall₂_iff_get.mp hscopes).2 depth hlt (hscopes.length_eq ▸ hlt)
          have hv : v = p.lowering.labels.get ⟨depth, hlt⟩ := hat.symm
          rw [hv]
          exact List.mem_flatten.mpr ⟨_, List.mem_of_mem_take (List.get_mem _ _), hmem⟩
        · exact hdrop v hv
      · obtain ⟨block, outer, hb, hk⟩ := ho.block
        exact ⟨block, outer, hin.inner.symm.trans hb, by rw [hk, isLoop]; rfl⟩
  | block opens noLoop =>
      obtain ⟨rfl, rfl, rfl, rfl⟩ := ho.unique opens
      rw [if_neg noLoop] at htarget
      have hpos : 0 < b.labels.length := by
        rw [hin.labels, List.length_drop]
        have := (List.getElem?_eq_some_iff.mp hd).1
        omega
      obtain ⟨q, left, leftCode, hvia, hexit⟩ := ho.position.behind.exists_exit labels_done hpos
      refine ⟨q, left, leftCode, ho.position.trans hvia, ?_, hexit.code_eq _, ?_, fun v hv => ?_,
        fun _ => hin.afterBlock.trans hexit.rest_eq, nofun⟩
      · rw [htarget, hexit.rest_eq]
      · rw [hexit.labels, hin.labels, List.drop_drop]
        rfl
      · rw [hexit.scopes, hin.scopes] at hv
        exact hdrop v hv

end LoweredFunction

end EngineFuzz
