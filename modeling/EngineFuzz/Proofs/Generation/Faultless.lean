import Mathlib
import EngineFuzz.Proofs.Generation.Growth
import EngineFuzz.Proofs.Validation.FunctionEnds

/-!
# Programs without a fault

A builder that returns its program has found no fault in it, so that every instruction was admitted,
whoever appended it.

* `Validator.Steps.length_modules`: there is a layout for each open module.
* `Builder.faultless_of_finalize`: a program that is returned has no fault.
* `Builder.Sound.reaches_emit_of_faultless`: where faults are left out of account, every operation
  may be appended.
-/

namespace EngineFuzz

/-! ### Open modules -/

/-- Whether the block is a module. -/
def OpenBlock.isModule (b : OpenBlock) : Bool := b.kind == .wasmModule

/-- The block that an operation opens or closes is a module only if the operation begins or ends
one. -/
lemma Operation.kind_ne_wasmModule {op : Operation}
    (h : op.isBlockStart = true ∨ op.isBlockEnd = true) (hb : op ≠ .beginWasmModule)
    (he : op ≠ .endWasmModule) : op.kind ≠ .wasmModule := by
  cases op <;>
    first
    | exact absurd rfl hb
    | exact absurd rfl he
    | exact absurd h (by decide)
    | (intro hk; exact BlockKind.noConfusion hk)

namespace Validator

variable {s s' : Validator} {i : Instruction} {is : List Instruction} {next : UInt32}

/-- There is a layout for each open module. -/
def LaysOut (s : Validator) : Prop :=
  s.typer.modules.length = s.scopes.blocks.countP OpenBlock.isModule

lemma LaysOut.step (h : s.LaysOut) (ha : s.Admits i next) :
    LaysOut ⟨s.scopes.apply i, s.typer.apply i, next⟩ := by
  have hpos := (ScopeState.check_eq_ok_iff.mp ha.position).1
  unfold LaysOut at h ⊢
  dsimp only
  rw [ScopeState.blocks_apply, List.countP_append]
  by_cases hb : i.operation = .beginWasmModule
  · have hopened : s.scopes.opened i = [⟨.wasmModule, false, none⟩] := by
      rw [ScopeState.opened, ScopeState.closed?, hb]
      rfl
    rw [Typer.modules_apply_beginWasmModule hb, List.length_cons, h, hopened, hb]
    exact Nat.add_comm ..
  by_cases he : i.operation = .endWasmModule
  · have hopened : s.scopes.opened i = [] := by
      rw [ScopeState.opened, he]
      rfl
    have hend : i.operation.isBlockEnd = true := by rw [he]; rfl
    obtain ⟨b, bs, hbs, hk⟩ := ScopeState.exists_cons_of_checkBlockEnd (hpos hend) hend
    have hmodule : b.isModule = true := by
      rw [he] at hk
      exact beq_iff_eq.mpr hk
    rw [Typer.modules_apply_endWasmModule he, List.length_tail, h, hopened, if_pos hend, hbs,
      List.tail_cons, List.countP_cons_of_pos hmodule]
    exact (Nat.zero_add _).symm
  -- what else opens or closes a block changes neither number
  have hplain (b : OpenBlock) (h' : i.operation.isBlockStart = true ∨ i.operation.isBlockEnd = true)
      (hk : b.kind = i.operation.kind) : ¬b.isModule = true := fun hm =>
    Operation.kind_ne_wasmModule h' hb he (hk.symm.trans (beq_iff_eq.mp hm))
  have hopened : (s.scopes.opened i).countP OpenBlock.isModule = 0 := by
    unfold ScopeState.opened
    split
    · rename_i hs
      rw [List.countP_cons_of_neg (hplain _ (.inl hs) (ScopeState.kind_openedBlock hpos)),
        List.countP_nil]
    · rfl
  have hclosed : (if i.operation.isBlockEnd = true then s.scopes.blocks.tail
      else s.scopes.blocks).countP OpenBlock.isModule =
        s.scopes.blocks.countP OpenBlock.isModule := by
    split
    · rename_i hend
      obtain ⟨b, bs, hbs, hk⟩ := ScopeState.exists_cons_of_checkBlockEnd (hpos hend) hend
      rw [hbs, List.tail_cons, List.countP_cons_of_neg (hplain b (.inr hend) hk)]
    · rfl
  obtain ⟨es, hes⟩ := Typer.exists_modules_apply (t := s.typer) hb he
  rw [hes, List.length_modifyHead, h, hopened, hclosed, Nat.zero_add]

/-- **There is a layout for each open module** behind accepted instructions. -/
theorem Steps.laysOut (hs : Steps s is s') (h : s.LaysOut) : s'.LaysOut := by
  induction hs with
  | nil s => exact h
  | cons head tail ih =>
      obtain ⟨next, ha, rfl⟩ := step_eq_ok_iff.mp head
      exact ih (h.step ha)

end Validator

/-! ### Faults -/

namespace Builder

variable [Regard] {b : Builder} {op : Operation} {inputs : List Variable} {p : Program}

omit [Regard] in
/-- **A program that is returned** has no fault. -/
theorem faultless_of_finalize (ht : b.Tracked) (h : b.finalize.1 = .ok p) : b.Faultless := by
  obtain ⟨rfl, hvalid⟩ := of_finalize_eq_ok h
  obtain ⟨s, hs, hblocks⟩ := Program.validate_eq_ok_iff.mp hvalid
  refine ⟨problem?_of_finalize h, fun l hl => ?_⟩
  -- all modules are closed
  have hmodules := hs.laysOut (by rfl)
  rw [Validator.LaysOut, hblocks, List.countP_nil, List.length_eq_zero_iff] at hmodules
  have htyper : b.typer = s.typer := ht.trans hs.typer_eq.symm
  rw [htyper, hmodules] at hl
  exact absurd hl List.not_mem_nil

/-- **Where faults are left out of account**, every operation may be appended. -/
theorem Sound.reaches_emit_of_faultless (hr : Regard.faultless) (hs : b.Sound) :
    b.Reaches (b.emit op inputs).2 where
  sound hb := by
    have hf := hb.faultless hr
    obtain ⟨next, ha⟩ := exists_admits_emitted_iff.mpr hf.of_append.2
    exact (hs hb.of_emit).emit_admitted ha hb.toBounded hf.ordered
  toolbox := rfl
  tracked := Tracked.emit
  grows := ⟨_, toList_instructions_emit⟩
  regarded := Regarded.of_emit
  hidden _ _ _ _ := rfl

end Builder

end EngineFuzz
