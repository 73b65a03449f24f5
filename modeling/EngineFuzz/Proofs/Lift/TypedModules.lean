import Mathlib
import EngineFuzz.Proofs.Lift.Modules
import EngineFuzz.Proofs.Lift.Typing
import EngineFuzz.Proofs.Validation.FunctionEnds

/-!
# The types of lowered modules

The body of each function of an accepted program follows the rules of types, provided the program
is built as the rules of WebAssembly ask where the validator does not.

* `Program.WellBuilt`: what the validator leaves to those who build programs.
* `FunctionRun.LowersTo.accepts`: the body of one function.
* `Program.bodies_accepted`: the bodies of all functions of all modules.
-/

namespace EngineFuzz

/-- What the validator leaves to those who build programs: functions end with the signature that
they began with and have at most one result, and payloads are those of WebAssembly. -/
structure Program.WellBuilt (p : Program) : Prop where
  ends : ∀ f : FunctionSpan p, f.closer = f.opener
  results : ∀ f : FunctionSpan p, f.opener.results.length ≤ 1
  payloads : ∀ i ∈ p.instructions, i.operation.hasValidPayload = true

/-! ### One function -/

namespace FunctionRun

variable {f : FunctionRun} {context : LoweringContext} {body : FunctionBody}

/-- The place of the function in a program. -/
def span (f : FunctionRun) {p : Program} {before after : List Instruction}
    (h : p.instructions = before ++ (f.instructions ++ after)) : FunctionSpan p where
  before
  first := f.first
  inside := f.inside
  last := f.last
  after
  opener := f.opener
  closer := f.closer
  first_operation := f.first_operation
  last_operation := f.last_operation
  open_inside := f.open_inside
  instructions_eq := by
    rw [h, instructions, List.cons_append, List.append_assoc]
    rfl

/-- **The body of a function follows the rules of types.** -/
theorem LowersTo.accepts (h : f.LowersTo context body) (ht : f.opened.typer.HoldsReferences)
    (hp : ∀ i ∈ f.inside, i.operation.hasValidPayload = true) (he : f.closer = f.opener)
    (hr : f.opener.results.length ≤ 1) :
    BodyTyping.accepts ⟨context.layout.entityTypes, f.opener.params ++ body.locals,
      f.opener.results⟩ body.code = true := by
  obtain ⟨code, l, htrace, rfl⟩ := h
  let c : BodyTyping :=
    ⟨context.layout.entityTypes, f.opener.params ++ l.localTypes.reverse, f.opener.results⟩
  change c.accepts (code ++ (l.pushes f.last.inputs ++ [.blockEnd])) = true
  have hone : ∀ signature ∈ (ScopeState.functionBlock f.opener).signature,
      signature.result.toList = f.opener.results := by
    intro signature hs
    obtain rfl : f.opener = signature := Option.some.inj hs
    rw [FunctionSignature.result]
    revert hr
    rcases f.opener.results with _ | ⟨type, _ | ⟨type', types⟩⟩ <;> simp
  have hlocals : l.typesOfLocals f.opener.params <+: f.opener.params ++ l.localTypes.reverse :=
    List.prefix_rfl
  have hstart : TypedBlock.Mirror (f.entry.inner ++ [ScopeState.functionBlock f.opener])
      [.start .body] := .cons ⟨rfl, rfl⟩ .nil
  -- the code of the trace leaves the block of the body, without operands
  obtain ⟨blocks, hcode, hblocks⟩ :=
    htrace.exists_blocks (c := c) rfl hlocals ht hp hone hstart
  obtain ⟨⟨o, os, u⟩, rest, ⟨ho, hos⟩, hrest, rfl⟩ := List.forall₂_cons_left_iff.mp hblocks
  obtain rfl := List.forall₂_nil_left_iff.mp hrest
  obtain rfl : o = .body := ho
  obtain rfl : os = [] := hos
  -- the results lie on top at the end
  have hfits := htrace.fits_end
  have hresults : f.last.inputs.map f.closed.typer.typeOf = f.opener.results.map .wasm := by
    obtain ⟨next, ha, -⟩ := Validator.step_eq_ok_iff.mp f.step_last
    have hin := ha.inputs
    have hl := (Instruction.hasConsistentArity_iff.mp ha.arity).1
    rw [f.last_operation] at hin hl
    rw [← he]
    exact Operation.accepts_end ((List.length_map _).trans hl) hin
  have hvals := Lowering.forall₂_values (c := c) hlocals (exists_types_of_results hfits) hresults
  rw [BodyTyping.accepts, List.foldlM_append, hcode]
  change (List.foldlM c.step? [TypedBlock.mk .body [] u]
    (l.pushes f.last.inputs ++ [.blockEnd]) == some []) = true
  rw [List.foldlM_append, BodyTyping.foldlM_pushes hvals, List.append_nil]
  change (List.foldlM c.step? [TypedBlock.mk .body c.results.reverse u] [.blockEnd] ==
    some []) = true
  rw [List.foldlM_cons, BodyTyping.step?_blockEnd_body]
  rfl

end FunctionRun

/-! ### One module -/

namespace ModuleRun

variable {m : ModuleRun} {t : Typer} {layout : ModuleLayout} {module : WasmModule}

/-- The functions that a lowered module defines are those that end in its body, in order. -/
lemma LowersTo.definedSignatures_eq (h : m.LowersTo t layout module) :
    layout.definedSignatures = m.functions.map (·.closer) := by
  have hp := h.sound.fits.toPlaced
  have hopened : m.opened.typer.currentModule? = some .empty := by
    obtain ⟨next, -, ho⟩ := Validator.step_eq_ok_iff.mp m.step_first
    rw [ho, Typer.currentModule?, Typer.modules_apply_beginWasmModule m.first_operation]
    rfl
  obtain ⟨layout', hl, hd⟩ := m.passes.definedSignatures_eq
    (Validator.placed_of_step hp m.step_first)
    (fun i hi => h.small i (mem_instructions_of_mem_body hi)) hopened
  obtain rfl : layout' = layout := Option.some.inj (hl.symm.trans h.current)
  exact hd

/-- **The bodies of a lowered module follow the rules of types**, each with the signature that the
module declares for its function. -/
theorem LowersTo.accepts_bodies (h : m.LowersTo t layout module)
    (ht : m.front.typer.HoldsReferences)
    (hp : ∀ i ∈ m.instructions, i.operation.hasValidPayload = true)
    (hf : ∀ f ∈ m.functions, f.closer = f.opener ∧ f.opener.results.length ≤ 1) :
    ∃ defined, module.definedSignatures? = some defined ∧
      List.Forall₂ (fun signature (body : FunctionBody) =>
        BodyTyping.accepts ⟨module.entityTypes defined, signature.params ++ body.locals,
          signature.results⟩ body.code = true) defined module.bodies := by
  refine ⟨layout.definedSignatures, LoweringContext.definedSignatures?_eq h.lowered, ?_⟩
  have hentities : module.entityTypes layout.definedSignatures = layout.entityTypes :=
    LoweringContext.entityTypes_eq h.lowered
  rw [hentities, h.definedSignatures_eq, List.forall₂_map_left_iff]
  -- tables hold references in front of each function
  have htables : ∀ f ∈ m.functions, f.opened.typer.HoldsReferences ∧
      ∀ i ∈ f.inside, i.operation.hasValidPayload = true := by
    intro f hmem
    obtain ⟨before, after, hsplit, hbefore, -⟩ := m.passes.exists_split f hmem
    have hin : ∀ i, i ∈ before ∨ i ∈ f.first :: f.inside → i ∈ m.instructions := by
      intro i hi
      refine mem_instructions_of_mem_body ?_
      rw [hsplit, List.mem_append, List.mem_append, FunctionRun.instructions, ← List.cons_append,
        List.mem_append]
      tauto
    have hsteps : Validator.Steps m.front (m.first :: (before ++ [f.first])) f.opened :=
      .cons m.step_first (Validator.steps_append_iff.mpr
        ⟨f.front, hbefore, Validator.steps_singleton_iff.mpr f.step_first⟩)
    have hmem : ∀ i ∈ m.first :: (before ++ [f.first]), i ∈ m.instructions := by
      intro i hi
      rw [List.mem_cons, List.mem_append, List.mem_singleton] at hi
      rcases hi with rfl | hi | rfl
      · exact List.mem_cons_self ..
      · exact hin i (.inl hi)
      · exact hin _ (.inr (List.mem_cons_self ..))
    exact ⟨hsteps.holdsReferences ht (fun i hi => h.small i (hmem i hi))
        fun i hi => hp i (hmem i hi),
      fun i hi => hp i (hin i (.inr (List.mem_cons_of_mem _ hi)))⟩
  refine List.forall₂_iff_zip.mpr ⟨h.bodies.length_eq, fun {f body} hmem => ?_⟩
  have hlow := (List.forall₂_iff_zip.mp h.bodies).2 hmem
  have hmf := (List.of_mem_zip hmem).1
  obtain ⟨hclose, hone⟩ := hf f hmf
  rw [hclose]
  exact hlow.accepts (htables f hmf).1 (htables f hmf).2 hclose hone

end ModuleRun

/-! ### All modules -/

/-- **The bodies of all functions of an accepted program follow the rules of types**, each with the
signature that its module declares for the function. -/
theorem Program.bodies_accepted {p : Program} {e : Environment} (h : p.validate e = .ok ())
    (he : e.IsScriptTyped) (ht : e.HoldsReferences) (hn : p.NumbersSmall) (hw : p.WellBuilt) :
    ∃ encoded, p.encodeModules e = .ok encoded ∧ ∀ c ∈ encoded, ∃ defined,
      c.body.definedSignatures? = some defined ∧
        List.Forall₂ (fun signature (body : FunctionBody) =>
          BodyTyping.accepts ⟨c.body.entityTypes defined, signature.params ++ body.locals,
            signature.results⟩ body.code = true) defined c.body.bodies := by
  obtain ⟨s, ms, encoded, hms, henc, hall, -, -⟩ := exists_encodedModules h he hn
  refine ⟨encoded, henc, fun c hc => ?_⟩
  obtain ⟨m, hm, layout, hlow⟩ : ∃ m ∈ ms, ∃ layout, m.LowersTo s.typer layout c.body := by
    obtain ⟨k, hk, rfl⟩ := List.getElem_of_mem hc
    obtain ⟨hl, hat⟩ := List.forall₂_iff_get.mp hall
    exact ⟨ms[k], List.getElem_mem _, hat k (hl ▸ hk) hk⟩
  obtain ⟨before, after, hsplit, hbefore, -⟩ := hms.exists_split m hm
  refine hlow.accepts_bodies ?_ ?_ ?_
  · refine hbefore.holdsReferences (Typer.holdsReferences_start ht) (fun i hi => hn i ?_)
      fun i hi => hw.payloads i ?_ <;>
    · rw [hsplit]
      exact List.mem_append_left _ hi
  · intro i hi
    refine hw.payloads i ?_
    rw [hsplit]
    exact List.mem_append_right _ (List.mem_append_left _ hi)
  · intro f hf
    obtain ⟨before', after', hbody, -, -⟩ := m.passes.exists_split f hf
    have hspan : p.instructions = before ++ (m.first :: before') ++
        (f.instructions ++ (after' ++ m.last :: after)) := by
      rw [hsplit, ModuleRun.instructions, hbody]
      simp
    exact ⟨hw.ends (f.span hspan), hw.results (f.span hspan)⟩

/-- A program whose functions all begin and end with one signature. -/
lemma Program.WellBuilt.of_signature {p : Program} (signature : FunctionSignature)
    (hopener : ∀ i ∈ p.instructions, ∀ s, i.operation = .beginWasmFunction s → s = signature)
    (hcloser : ∀ i ∈ p.instructions, ∀ s, i.operation = .endWasmFunction s → s = signature)
    (hlength : signature.results.length ≤ 1)
    (hpayloads : ∀ i ∈ p.instructions, i.operation.hasValidPayload = true) : p.WellBuilt := by
  have hfirst : ∀ f : FunctionSpan p, f.opener = signature := fun f =>
    hopener f.first (by rw [f.instructions_eq]; simp) _ f.first_operation
  have hlast : ∀ f : FunctionSpan p, f.closer = signature := fun f =>
    hcloser f.last (by rw [f.instructions_eq]; simp) _ f.last_operation
  refine ⟨fun f => ?_, fun f => ?_, hpayloads⟩
  · rw [hfirst, hlast]
  · rw [hfirst]
    exact hlength

lemma wellBuilt_successor : successor.WellBuilt := by
  refine .of_signature ⟨[.i32], [.i32]⟩ (fun i hi s h => ?_) (fun i hi s h => ?_)
    (by decide) (by decide)
  · fin_cases hi <;> first | exact (Operation.beginWasmFunction.inj h).symm | exact nomatch h
  · fin_cases hi <;> first | exact (Operation.endWasmFunction.inj h).symm | exact nomatch h

lemma wellBuilt_ledger : ledger.WellBuilt := by
  refine .of_signature ⟨[.i32], [.i32]⟩ (fun i hi s h => ?_) (fun i hi s h => ?_)
    (by decide) (by decide)
  · fin_cases hi <;> first | exact (Operation.beginWasmFunction.inj h).symm | exact nomatch h
  · fin_cases hi <;> first | exact (Operation.endWasmFunction.inj h).symm | exact nomatch h

theorem bodies_accepted_successor :
    ∃ encoded, successor.encodeModules .script = .ok encoded ∧ ∀ c ∈ encoded, ∃ defined,
      c.body.definedSignatures? = some defined ∧
        List.Forall₂ (fun signature (body : FunctionBody) =>
          BodyTyping.accepts ⟨c.body.entityTypes defined, signature.params ++ body.locals,
            signature.results⟩ body.code = true) defined c.body.bodies :=
  Program.bodies_accepted (validate_successor .script) Environment.isScriptTyped_script
    Environment.holdsReferences_script (by decide) wellBuilt_successor

end EngineFuzz
