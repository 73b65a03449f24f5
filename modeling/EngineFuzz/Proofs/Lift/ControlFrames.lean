import Mathlib
import EngineFuzz.Proofs.Execution.Blocks
import EngineFuzz.Proofs.Lift.IndexSpaces
import EngineFuzz.Proofs.Lift.Typing
import EngineFuzz.Proofs.Validation.ValueWorlds

/-!
# Control frames

In the code of a function blocks are instructions of their own: one opens a frame, one goes on to
the second part of a frame, one closes it.  While a function is lowered, the frames of its code, the
labels of the lowering and the blocks of the validator stem from the same instructions.

* `Instr.controlFrames?`: the frames that are open behind some code.
* `Lowering.OpensFrame`: which instruction of a function a frame stems from.
* `Lowering.Aligned`: the stacks that belong together, with `Lowering.Aligned.step` for one
  instruction and `Lowering.Trace.exists_aligned` for the instructions between two positions.
-/

namespace EngineFuzz

/-- A frame of code that is open. -/
structure ControlFrame where
  /-- What opened the frame, or began the part of it that is open. -/
  opener : BlockOpener
  /-- Where in the code this stands. -/
  position : Nat
deriving DecidableEq

namespace Instr

/-- The open frames, the innermost first, behind an instruction that stands at some position.  A
frame that is not open cannot be closed, and only the first part of a conditional one has a second
part. -/
def framesBehind? (frames : List ControlFrame) : Instr × Nat → Option (List ControlFrame)
  | (.block, n) => some (⟨.block, n⟩ :: frames)
  | (.loop, n) => some (⟨.loop, n⟩ :: frames)
  | (.ifThen, n) => some (⟨.ifThen, n⟩ :: frames)
  | (.elseThen, n) =>
    match frames with
    | ⟨.ifThen, _⟩ :: outer => some (⟨.elseThen, n⟩ :: outer)
    | _ => none
  | (.blockEnd, _) =>
    match frames with
    | _ :: outer => some outer
    | [] => none
  | _ => some frames

/-- The frames that are open behind some code, the innermost first. -/
def controlFrames? (code : List Instr) : Option (List ControlFrame) :=
  code.zipIdx.foldlM framesBehind? []

variable {i : Instr} {is code : List Instr} {frames : List ControlFrame} {n : Nat}

lemma controlFrames?_append : controlFrames? (code ++ is) =
    (controlFrames? code).bind ((is.zipIdx code.length).foldlM framesBehind? ·) := by
  rw [controlFrames?, List.zipIdx_append, List.foldlM_append, Nat.zero_add]
  rfl

lemma framesBehind?_of_isFlat (h : i.isFlat = true) :
    framesBehind? frames (i, n) = some frames := by
  cases i <;> first | rfl | cases h

/-- What opens, switches and closes no blocks leaves the frames alone. -/
lemma controlFrames?_append_of_isFlat (h : ∀ i ∈ is, i.isFlat = true) :
    controlFrames? (code ++ is) = controlFrames? code := by
  rw [controlFrames?_append]
  generalize code.length = n
  cases controlFrames? code with
  | none => rfl
  | some frames =>
      rw [Option.bind_some]
      induction is generalizing n with
      | nil => rfl
      | cons i is ih =>
          obtain ⟨hi, his⟩ := List.forall_mem_cons.mp h
          rw [List.zipIdx_cons, List.foldlM_cons, framesBehind?_of_isFlat hi]
          exact ih his (n + 1)

lemma controlFrames?_concat (h : controlFrames? code = some frames) :
    controlFrames? (code ++ [i]) = framesBehind? frames (i, code.length) := by
  rw [controlFrames?_append, h]
  exact bind_pure _

end Instr

/-- What an instruction of a function opens in code, or begins the second part of. -/
def Operation.opener? : Operation → Option BlockOpener
  | wasmBeginBlock => some .block
  | wasmBeginLoop => some .loop
  | wasmBeginIf => some .ifThen
  | wasmBeginElse => some .elseThen
  | _ => none

/-- The instruction at a position has this label as its inner output. -/
def HasLabel (is : List Instruction) (n : Nat) (label : Variable) : Prop :=
  ∃ i, is[n]? = some i ∧ i.innerOutputs = [label]

/-- Positions of open blocks keep their labels. -/
lemma HasLabel.append {is : List Instruction} {n : Nat} {label : Variable}
    (h : HasLabel is n label) (hn : n < is.length) (js : List Instruction) :
    HasLabel (is ++ js) n label := by
  obtain ⟨i, hi, hl⟩ := h
  exact ⟨i, by rw [List.getElem?_append_left hn, hi], hl⟩

/-! ### One instruction behind others -/

section OneInstruction

variable {α : Type} {is : List Instruction} {i : Instruction} {xs new : List α}
  {R : List Instruction → Nat → α → Prop}

lemma openBlocks_concat : openBlocks (is ++ [i]) =
    (if i.operation.isBlockStart then [is.length] else []) ++ i.blocksOutside (openBlocks is) := by
  rw [openBlocks_append_singleton, Instruction.blocksBehind]
  split <;> rfl

/-- What ends a block leaves the innermost one in both lists. -/
lemma forall₂_outside {β : Type} {Q : β → α → Prop} {ys : List β} {ends : Bool}
    (h : List.Forall₂ Q ys xs) :
    List.Forall₂ Q (if ends then ys.tail else ys) (if ends then xs.tail else xs) := by
  cases ends with
  | false => exact h
  | true =>
      cases h with
      | nil => exact .nil
      | cons _ rest => exact rest

/-- What open blocks are related to changes as they do. -/
lemma forall₂_openBlocks_concat (h : List.Forall₂ (R is) (openBlocks is) xs)
    (hold : ∀ n x, n < is.length → R is n x → R (is ++ [i]) n x)
    (hnew : List.Forall₂ (R (is ++ [i]))
      (if i.operation.isBlockStart then [is.length] else []) new) :
    List.Forall₂ (R (is ++ [i])) (openBlocks (is ++ [i]))
      (new ++ if i.operation.isBlockEnd then xs.tail else xs) := by
  have hgrown : List.Forall₂ (R (is ++ [i])) (openBlocks is) xs := by
    refine List.forall₂_iff_zip.mpr ⟨h.length_eq, fun hmem => ?_⟩
    exact hold _ _ (lt_of_mem_openBlocks (List.of_mem_zip hmem).1)
      ((List.forall₂_iff_zip.mp h).2 hmem)
  rw [openBlocks_concat, Instruction.blocksOutside]
  exact List.rel_append hnew (forall₂_outside hgrown)

end OneInstruction

namespace Lowering

variable {context : LoweringContext} {params : List Variable} {types : List WasmType}
  {function : OpenBlock} {around : List OpenBlock} {p m p' : Point} {i : Instruction}
  {target : Instr} {is js : List Instruction} {code : List Instr} {frames : List ControlFrame}
  {frame : ControlFrame} {l : Lowering} {n : Nat}

/-- The frame was opened by the code of the instruction at a position of a function. -/
def OpensFrame (context : LoweringContext) (params : List Variable) (is : List Instruction)
    (n : Nat) (frame : ControlFrame) : Prop :=
  ∃ i before behind, is[n]? = some i ∧ i.operation.opener? = some frame.opener ∧
    (is.take n).foldlM (instruction context) (start params) = .ok before ∧
    instruction context before i = .ok behind ∧
    before.code.length ≤ frame.position ∧ frame.position < behind.code.length

/-- The blocks that are open behind some instructions of a function: the validator knows them, the
lowering has their labels, and its code has their frames. -/
structure Aligned (context : LoweringContext) (params : List Variable) (is : List Instruction)
    (p : Point) (frames : List ControlFrame) : Prop where
  lowered : is.foldlM (instruction context) (start params) = .ok p.lowering
  code : Instr.controlFrames? p.lowering.code.reverse = some frames
  blocks : List.Forall₂ (OpenBlock.OpenedAt is) (openBlocks is) p.inner
  labels : List.Forall₂ (HasLabel is) (openBlocks is) p.labels
  opened : List.Forall₂ (OpensFrame context params is) (openBlocks is) frames
  openers : List.Forall₂ (fun b (frame : ControlFrame) => frame.opener = b.opener) p.inner frames

/-! ### One instruction -/

/-- The frames of an instruction whose code opens one at a position. -/
def framesOf (i : Instruction) (position : Nat) : List ControlFrame :=
  (i.operation.opener?.map (ControlFrame.mk · position)).toList

/-- Only what opens a block of a function, or its second part, opens a frame. -/
lemma isSome_opener? (h : target? context l i = some target) :
    i.operation.opener?.isSome = i.operation.isBlockStart := by
  obtain ⟨op, inputs, outputs, innerOutputs⟩ := i
  cases op <;> first | rfl | cases h

/-- The counterpart of what opens a block opens a frame. -/
lemma framesBehind?_of_start (h : target? context l i = some target)
    (hs : i.operation.isBlockStart = true) (he : i.operation.isBlockEnd = false) :
    Instr.framesBehind? frames (target, n) = some (framesOf i n ++ frames) := by
  obtain ⟨op, inputs, outputs, innerOutputs⟩ := i
  cases op with
  | wasmBeginBlock | wasmBeginLoop | wasmBeginIf =>
      obtain rfl := Option.some.inj h
      rfl
  | wasmBeginElse => cases he
  | _ => first | exact absurd hs Bool.false_ne_true | cases h

lemma OpensFrame.append (h : OpensFrame context params is n frame) (hn : n < is.length)
    (js : List Instruction) : OpensFrame context params (is ++ js) n frame := by
  obtain ⟨i, before, behind, hi, h⟩ := h
  refine ⟨i, before, behind, by rw [List.getElem?_append_left hn, hi], ?_⟩
  rwa [List.take_append_of_le_length hn.le]

lemma framesOf_of_not_start (h : target? context l i = some target)
    (hs : i.operation.isBlockStart = false) : framesOf i n = [] := by
  have ho := isSome_opener? h
  rw [hs, Option.isSome_eq_false_iff, Option.isNone_iff_eq_none] at ho
  rw [framesOf, ho]
  rfl

/-- What begins the second part of a block in code does so in the function. -/
lemma eq_beginElse_of_target? (h : target? context l i = some .elseThen) :
    i.operation = .wasmBeginElse := by
  obtain ⟨op, inputs, outputs, innerOutputs⟩ := i
  cases op with
  | wasmBeginElse => rfl
  | wasmMemoryLoad type offset =>
      obtain ⟨-, index, -, hx⟩ := target?_memoryLoad h
      cases hx
  | wasmMemoryStore type offset =>
      obtain ⟨-, index, -, hx⟩ := target?_memoryStore h
      cases hx
  | wasmLoadGlobal | wasmStoreGlobal | wasmTableGet | wasmTableSet | wasmCallFunction
    | wasmReassign | wasmBranch | wasmBranchIf =>
      obtain ⟨index, -, hx⟩ := Option.map_eq_some_iff.mp h
      cases hx
  | _ => cases h

/-- The second part of a block begins where the first part of a conditional one is innermost. -/
lemma Passes.exists_conditional (hi : Passes context p i .elseThen m)
    (hf : p.Fits context types function around) : ∃ b rest, p.inner = b :: rest ∧
      p.state.scopes.blocks.head? = some b ∧ b.kind = .wasmIf ∧ b.switched = false := by
  have hop := eq_beginElse_of_target? hi.counterpart
  obtain ⟨next, ha, -⟩ := Validator.step_eq_ok_iff.mp hi.step
  have hinside := hf.follows.inside
  obtain ⟨b, rest, hb, hk⟩ := hinside.exists_cons_of_isBlockEnd hf.sound.fits.toPlaced ha.position
    hi.open_ (by rw [hop]; rfl)
  have hblocks : p.state.scopes.blocks = b :: (rest ++ function :: around) := by
    rw [hinside.blocks, hb]
    rfl
  have hcheck := (ScopeState.check_eq_ok_iff.mp ha.position).1
  rw [hop] at hcheck hk
  exact ⟨b, rest, hb, by rw [hblocks]; rfl, hk,
    ScopeState.not_switched_of_beginElse (hcheck rfl) hblocks⟩

/-- The block that an instruction opens, and the frame that its code opens, are alike. -/
lemma Passes.openers (hi : Passes context p i target m)
    (hf : p.Fits context types function around) (n : Nat) :
    List.Forall₂ (fun b (frame : ControlFrame) => frame.opener = b.opener)
      (p.state.scopes.opened i) (framesOf i n) := by
  cases hs : i.operation.isBlockStart with
  | false =>
      rw [framesOf_of_not_start hi.counterpart hs, ScopeState.opened, hs]
      exact .nil
  | true =>
      have ht := nests_target? hi.counterpart
      rw [ScopeState.opened, if_pos hs]
      cases he : i.operation.isBlockEnd with
      | true =>
          rw [hs, he] at ht
          obtain rfl : target = .elseThen := ht
          obtain ⟨b, rest, -, hb, hk, -⟩ := hi.exists_conditional hf
          rw [framesOf, ScopeState.closed?, he, if_pos rfl, hb,
            eq_beginElse_of_target? hi.counterpart]
          refine .cons ?_ .nil
          rw [ScopeState.openedBlock, OpenBlock.opener, hk]
      | false =>
          have htarget := hi.counterpart
          rw [ScopeState.closed?, he, framesOf]
          clear ht hi
          obtain ⟨op, inputs, outputs, innerOutputs⟩ := i
          cases op with
          | wasmBeginBlock | wasmBeginLoop | wasmBeginIf => exact .cons rfl .nil
          | wasmBeginElse => cases he
          | _ => first | exact absurd hs Bool.false_ne_true | cases htarget

/-- The code of an instruction without results. -/
lemma controlFrames?_codeOf {code : List Instr} (h : Instr.controlFrames? code = some frames)
    (ho : i.outputs = []) : Instr.controlFrames? (code ++ l.codeOf i target) =
      Instr.framesBehind? frames (target, code.length + (l.pushes i.values).length) := by
  rw [codeOf, pops_eq_nil ho, ← List.append_assoc, Instr.controlFrames?_concat,
    List.length_append]
  rw [Instr.controlFrames?_append_of_isFlat isFlat_pushes, h]

/-- Where the code of an instruction has its counterpart. -/
def targetPosition (l : Lowering) (i : Instruction) : Nat :=
  l.code.length + (l.pushes i.values).length

/-- **Frames open, switch and close** as the blocks of the function do. -/
theorem Aligned.controlFrames?_eq (h : Aligned context params is p frames)
    (hf : p.Fits context types function around) (hi : Passes context p i target m) :
    Instr.controlFrames? m.lowering.code.reverse =
      some (framesOf i (p.lowering.targetPosition i) ++
        if i.operation.isBlockEnd then frames.tail else frames) := by
  have hcode : m.lowering.code.reverse =
      p.lowering.code.reverse ++ p.lowering.codeOf i target := by
    rw [hi.code_eq, List.reverse_append, List.reverse_reverse]
  have hlength : p.lowering.code.reverse.length + (p.lowering.pushes i.values).length =
      p.lowering.targetPosition i := by
    rw [List.length_reverse, targetPosition]
  rw [hcode]
  cases hi.nests hf with
  | opens start noEnd target_opens outputs =>
      rw [controlFrames?_codeOf h.code outputs, hlength,
        framesBehind?_of_start hi.counterpart start noEnd, noEnd]
      rfl
  | switches start isEnd target_else outputs =>
      subst target_else
      obtain ⟨b, rest, hb, -, hk, hs⟩ := hi.exists_conditional hf
      have hopeners := h.openers
      rw [hb, List.forall₂_cons_left_iff] at hopeners
      obtain ⟨⟨opener, n⟩, outer, hopener, -, rfl⟩ := hopeners
      obtain rfl : opener = .ifThen := by
        rw [show opener = b.opener from hopener, OpenBlock.opener, hk, hs]
      rw [controlFrames?_codeOf h.code outputs, hlength, isEnd, framesOf,
        eq_beginElse_of_target? hi.counterpart]
      rfl
  | closes noStart isEnd target_end outputs inner labels =>
      subst target_end
      have hlen := h.labels.length_eq.symm.trans h.opened.length_eq
      obtain ⟨frame, outer, rfl⟩ : ∃ frame outer, frames = frame :: outer := by
        refine List.exists_cons_of_length_pos ?_
        rw [← hlen]
        exact List.length_pos_of_ne_nil labels.1
      rw [controlFrames?_codeOf h.code outputs, framesOf_of_not_start hi.counterpart noStart,
        isEnd]
      rfl
  | stays noStart noEnd target_flat =>
      rw [Instr.controlFrames?_append_of_isFlat (isFlat_codeOf target_flat), h.code,
        framesOf_of_not_start hi.counterpart noStart, noEnd]
      rfl

/-- **One instruction** keeps the stacks aligned. -/
theorem Aligned.step (h : Aligned context params is p frames)
    (hf : p.Fits context types function around) (hi : Passes context p i target m) :
    Aligned context params (is ++ [i]) m (framesOf i (p.lowering.targetPosition i) ++
      if i.operation.isBlockEnd then frames.tail else frames) := by
  obtain ⟨next, ha, -⟩ := Validator.step_eq_ok_iff.mp hi.step
  have hhome := hf.follows.inside.home hf.sound.fits.toPlaced ha.position
  refine ⟨?_, h.controlFrames?_eq hf hi, ?_, ?_, ?_, ?_⟩
  · rw [List.foldlM_append, h.lowered]
    exact (bind_pure _).trans hi.lowered
  · rw [hi.inner, ScopeState.innerBehind]
    refine forall₂_openBlocks_concat h.blocks (fun _ _ _ hb => hb.append [i]) ?_
    rw [ScopeState.opened]
    split
    · rename_i hs
      exact .cons ⟨i, by simp, hs,
        ScopeState.kind_openedBlock (ScopeState.check_eq_ok_iff.mp ha.position).1⟩ .nil
    · exact .nil
  · obtain ⟨types, -, hb⟩ := hi.behind
    rw [Point.labels, hb, labels_behind, labelsBehind]
    refine forall₂_openBlocks_concat h.labels (fun _ _ hn hl => hl.append hn [i]) ?_
    have hlen := length_innerOutputs ha.arity hhome (s := p.state)
    rw [ScopeState.opened] at hlen
    split at hlen
    · rename_i hs
      obtain ⟨label, hl⟩ := List.length_eq_one_iff.mp hlen
      rw [hl, if_pos hs]
      exact .cons ⟨i, by simp, hl⟩ .nil
    · rename_i hs
      rw [List.length_eq_zero_iff.mp hlen, if_neg hs]
      exact .nil
  · refine forall₂_openBlocks_concat h.opened (fun _ _ hn ho => ho.append hn [i]) ?_
    have hopener := isSome_opener? hi.counterpart
    rw [framesOf]
    cases ho : i.operation.opener? with
    | none =>
        rw [ho] at hopener
        rw [← hopener]
        exact .nil
    | some opener =>
        rw [ho] at hopener
        rw [← hopener]
        refine .cons ⟨i, p.lowering, m.lowering, by simp, ho, ?_, hi.lowered,
          Nat.le_add_right .., ?_⟩ .nil
        · rw [List.take_left]
          exact h.lowered
        · rw [hi.code_eq, codeOf]
          simp only [targetPosition, List.length_append, List.length_reverse, List.length_cons]
          omega
  · rw [hi.inner, ScopeState.innerBehind]
    exact List.rel_append (hi.openers hf _) (forall₂_outside h.openers)

/-! ### Several instructions -/

namespace Trace

/-- **The stacks stay aligned** on the way from one position to another. -/
theorem exists_aligned (h : Trace context types function around p js code p')
    (ha : Aligned context params is p frames) :
    ∃ frames', Aligned context params (is ++ js) p' frames' := by
  induction h generalizing is frames with
  | nil =>
      rw [List.append_nil]
      exact ⟨frames, ha⟩
  | cons fits head _ ih =>
      rw [List.append_cons]
      exact ih (ha.step fits head)

/-- A trace is cut at any position. -/
lemma exists_middle (h : Trace context types function around p (is ++ js) code p') :
    ∃ q before behind, Trace context types function around p is before q ∧
      Trace context types function around q js behind p' := by
  induction is generalizing p code with
  | nil => exact ⟨p, [], code, .nil h.fits_start, h⟩
  | cons i is ih =>
      rw [List.cons_append] at h
      cases h with
      | cons fits head tail =>
          obtain ⟨q, before, behind, hbefore, hbehind⟩ := ih tail
          exact ⟨q, _, behind, .cons fits head hbefore, hbehind⟩

end Trace

/-! ### Labels in scope -/

/-- The members of disjoint lists are different. -/
lemma nodup_of_forall₂_mem {vs : List Variable} {scopes : List (List Variable)}
    (h : List.Forall₂ (· ∈ ·) vs scopes) (hd : scopes.flatten.Nodup) :
    vs ⊆ scopes.flatten ∧ vs.Nodup := by
  induction h with
  | nil => exact ⟨List.nil_subset _, List.nodup_nil⟩
  | @cons v scope vs scopes head _ ih =>
      rw [List.flatten_cons, List.nodup_append'] at hd
      obtain ⟨hsub, hn⟩ := ih hd.2.1
      rw [List.flatten_cons]
      refine ⟨List.cons_subset.mpr ⟨List.mem_append_left _ head,
        fun w hw => List.mem_append_right _ (hsub hw)⟩, List.nodup_cons.mpr ⟨fun hv => ?_, hn⟩⟩
      exact hd.2.2 head (hsub hv)

/-- Different open blocks have different labels. -/
lemma Follows.nodup_labels {inner : List OpenBlock} {s : Validator}
    (h : l.Follows types s inner function around) (ht : s.scopes.Tracks) : l.labels.Nodup :=
  (nodup_of_forall₂_mem h.scopes (ht.distinct.sublist
    (List.take_sublist l.labels.length s.scopes.scopes).flatten)).2

/-- **The depth of a label in scope** counts the frames inside the one that the block with the label
opened. -/
theorem Aligned.exists_frame (h : Aligned context params is p frames)
    (hf : p.Fits context types function around) {v : Variable}
    (hv : p.state.scopes.isVisible v = true) (ht : p.state.typer.typeOf v = .label) :
    ∃ depth n frame, p.lowering.depthOf v = .ok depth ∧ (openBlocks is)[depth]? = some n ∧
      HasLabel is n v ∧ frames[depth]? = some frame ∧ OpensFrame context params is n frame := by
  rw [hf.sound.fits.tracks.visible] at hv
  obtain ⟨depth, hd⟩ := hf.follows.exists_depth hv ht
  obtain ⟨hlt, hlabel, -⟩ := List.findIdx?_eq_some_iff_getElem.mp hd
  have hat : p.labels[depth]? = some v :=
    List.getElem?_eq_some_iff.mpr ⟨hlt, by simpa using hlabel⟩
  obtain ⟨n, hn, hl⟩ := exists_getElem?_of_forall₂ h.labels.flip hat
  obtain ⟨frame, hframe, ho⟩ := exists_getElem?_of_forall₂ h.opened hn
  exact ⟨depth, n, frame, depthOf_eq hd, hn, hl, hframe, ho⟩

end Lowering

end EngineFuzz
