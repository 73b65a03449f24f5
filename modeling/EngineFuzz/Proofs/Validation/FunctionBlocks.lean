import Mathlib
import EngineFuzz.Proofs.Validation.Soundness

/-!
# Positions inside functions

Inside a function the open blocks are those that direct control, the function, and the blocks
around it, which stay as they are up to the end of the function.

* `ScopeState.InFunction`: a position inside a function.
* `Validator.Steps.exists_inFunction`: the position stays inside up to the end of the function.
-/

namespace EngineFuzz

namespace Operation

/-- Whether the operation is the end of a function. -/
def endsFunction : Operation → Bool
  | endWasmFunction _ => true
  | _ => false

variable {op : Operation}

lemma isControl_of_isBlockStart (h : op.home = .function) (hb : op.isBlockStart = true) :
    op.kind.isControl = true := by
  rw [home_of_isBlockStart hb] at h
  revert h
  cases op.kind <;> simp [BlockKind.outside, BlockKind.isControl]

lemma isControl_of_isBlockEnd (h : op.home = .function) (he : op.endsFunction = false)
    (hb : op.isBlockEnd = true) : op.kind.isControl = true := by
  rw [home_of_isBlockEnd hb] at h
  cases op <;>
    first
    | rfl
    | cases (show World.script = .function from h)
    | cases (show World.module = .function from h)
    | exact absurd he.symm Bool.false_ne_true
    | cases hb

end Operation

/-- A position inside a function, which stands in the blocks `around`; the blocks `inner` are open
inside. -/
structure ScopeState.InFunction (s : ScopeState) (inner : List OpenBlock) (function : OpenBlock)
    (around : List OpenBlock) : Prop where
  blocks : s.blocks = inner ++ function :: around
  control : ∀ b ∈ inner, b.kind.isControl = true
  kind : function.kind = .wasmFunction

namespace ScopeState

variable {s : ScopeState} {i : Instruction} {function : OpenBlock} {inner around : List OpenBlock}

/-- The blocks that are open inside a function behind an instruction. -/
def innerBehind (s : ScopeState) (inner : List OpenBlock) (i : Instruction) : List OpenBlock :=
  s.opened i ++ if i.operation.isBlockEnd then inner.tail else inner

namespace InFunction

lemma worldOf (h : s.InFunction inner function around) :
    OpenBlock.worldOf s.blocks = .function := by
  obtain ⟨hb, hc, hk⟩ := h
  rw [hb]
  cases inner with
  | nil => simp [OpenBlock.worldOf, hk, BlockKind.inside]
  | cons b inner =>
      have := hc b (List.mem_cons_self ..)
      revert this
      simp only [List.cons_append, OpenBlock.worldOf]
      cases b.kind <;> simp [BlockKind.isControl, BlockKind.inside]

lemma currentFunction? (h : s.InFunction inner function around) :
    s.currentFunction? = function.signature := by
  obtain ⟨hb, hc, hk⟩ := h
  have hf : inner.find? (fun b => b.kind == .wasmFunction) = none := by
    rw [List.find?_eq_none]
    intro b hmem
    have := hc b hmem
    revert this
    cases b.kind <;> simp [BlockKind.isControl]
  rw [ScopeState.currentFunction?, hb, List.find?_append, hf, Option.none_or,
    List.find?_cons_of_pos (by simp [hk])]
  rfl

lemma home (h : s.InFunction inner function around) (hp : s.Placed) (hc : s.check i = .ok ()) :
    i.operation.home = .function :=
  (hp.worldOf_eq_home hc).symm.trans h.worldOf

/-- What ends a block inside a function ends the innermost one that directs control. -/
lemma exists_cons_of_isBlockEnd (h : s.InFunction inner function around) (hp : s.Placed)
    (hc : s.check i = .ok ()) (he : i.operation.endsFunction = false)
    (hend : i.operation.isBlockEnd = true) :
    ∃ b rest, inner = b :: rest ∧ b.kind = i.operation.kind := by
  obtain ⟨b, bs, hbs, hkb⟩ := exists_cons_of_checkBlockEnd ((check_eq_ok_iff.mp hc).1 hend) hend
  cases inner with
  | nil =>
      -- the innermost block is the function itself, which directs no control
      have hbc := Operation.isControl_of_isBlockEnd (h.home hp hc) he hend
      rw [h.blocks, List.nil_append, List.cons.injEq] at hbs
      rw [← hkb, ← hbs.1, h.kind] at hbc
      exact nomatch hbc
  | cons c inner =>
      rw [h.blocks, List.cons_append, List.cons.injEq] at hbs
      exact ⟨c, inner, rfl, hbs.1 ▸ hkb⟩

/-- A position inside a function stays inside, unless the function ends. -/
lemma apply (h : s.InFunction inner function around) (hp : s.Placed) (hc : s.check i = .ok ())
    (he : i.operation.endsFunction = false) :
    (s.apply i).InFunction (s.innerBehind inner i) function around := by
  have hopened : ∀ b ∈ s.opened i, b.kind.isControl = true := by
    intro b hmem
    unfold opened at hmem
    split at hmem
    · rename_i hs
      rw [List.mem_singleton.mp hmem, kind_openedBlock (check_eq_ok_iff.mp hc).1]
      exact Operation.isControl_of_isBlockStart (h.home hp hc) hs
    · exact absurd hmem List.not_mem_nil
  unfold innerBehind
  cases hend : i.operation.isBlockEnd with
  | false =>
      refine ⟨?_, fun b hmem => ?_, h.kind⟩
      · rw [blocks_apply, hend, if_neg Bool.false_ne_true, if_neg Bool.false_ne_true, h.blocks,
          List.append_assoc]
      · exact (List.mem_append.mp hmem).elim (hopened b) (h.control b)
  | true =>
      obtain ⟨b, rest, rfl, -⟩ := h.exists_cons_of_isBlockEnd hp hc he hend
      refine ⟨?_, fun c hmem => ?_, h.kind⟩
      · rw [blocks_apply, hend, if_pos rfl, if_pos rfl, h.blocks, List.append_assoc]
        rfl
      · refine (List.mem_append.mp hmem).elim (hopened c) fun hmem => ?_
        exact h.control c (List.mem_cons_of_mem _ hmem)

/-- At the end of a function all blocks inside are closed. -/
lemma eq_nil_of_endsFunction (h : s.InFunction inner function around) (hc : s.check i = .ok ())
    (he : i.operation.endsFunction = true) : inner = [] := by
  have hend : i.operation.isBlockEnd = true ∧ i.operation.kind = .wasmFunction := by
    cases hop : i.operation <;> rw [hop] at he <;> first | exact ⟨rfl, rfl⟩ | cases he
  obtain ⟨b, bs, hbs, hkb⟩ :=
    exists_cons_of_checkBlockEnd ((check_eq_ok_iff.mp hc).1 hend.1) hend.1
  cases inner with
  | nil => rfl
  | cons c inner =>
      rw [h.blocks, List.cons_append, List.cons.injEq] at hbs
      have hcc := h.control c (List.mem_cons_self ..)
      rw [hbs.1, hkb, hend.2] at hcc
      exact nomatch hcc

end InFunction

/-- The block of a function with this signature. -/
def functionBlock (signature : FunctionSignature) : OpenBlock :=
  ⟨.wasmFunction, false, some signature⟩

lemma blocks_apply_beginWasmFunction {signature : FunctionSignature}
    (h : i.operation = .beginWasmFunction signature) :
    (s.apply i).blocks = functionBlock signature :: s.blocks := by
  rw [blocks_apply, opened, closed?, h]
  rfl

lemma inFunction_apply_beginWasmFunction {signature : FunctionSignature}
    (h : i.operation = .beginWasmFunction signature) :
    (s.apply i).InFunction [] (functionBlock signature) s.blocks :=
  ⟨blocks_apply_beginWasmFunction h, by simp, rfl⟩

end ScopeState

/-- The position stays inside a function up to its end, and there stand operations of functions. -/
lemma Validator.Steps.exists_inFunction {s s' : Validator} {is : List Instruction}
    {inner : List OpenBlock} {function : OpenBlock} {around : List OpenBlock}
    (hs : Steps s is s') (hp : s.scopes.Placed)
    (h : s.scopes.InFunction inner function around)
    (he : ∀ i ∈ is, i.operation.endsFunction = false) :
    (∃ inner', s'.scopes.InFunction inner' function around) ∧
      ∀ i ∈ is, i.operation.home = .function := by
  induction hs generalizing inner with
  | nil s => exact ⟨⟨inner, h⟩, by simp⟩
  | cons head tail ih =>
      have hp' := placed_of_step hp head
      obtain ⟨next, ha, rfl⟩ := step_eq_ok_iff.mp head
      obtain ⟨hin, hall⟩ := ih hp' (h.apply hp ha.position (he _ (List.mem_cons_self ..)))
        fun i hi => he i (List.mem_cons_of_mem _ hi)
      exact ⟨hin, List.forall_mem_cons.mpr ⟨h.home hp ha.position, hall⟩⟩

end EngineFuzz
