import Mathlib
import EngineFuzz.Proofs.Generation.Appending

/-!
# Blocks

A computation that opens a block closes it again.  From the instruction that opens the block to the
one that closes it, the program ends inside the block; what is known outside is known again behind
the block.

* `Builder.Within`: the program ends inside a block that was opened at the end of another.
* `Build.LeavesAt`: the computation starts inside a block and closes it.
* `Build.AppendsAt.opens`, `Build.LeavesAt.bind`, `Build.LeavesAt.switches`,
  `Build.LeavesAt.closes`: rules for the parts of a block.
-/

namespace EngineFuzz

/-- The place inside a block that is opened at a place. -/
def Place.inside (p : Place) (block : OpenBlock) (c : Context) : Place where
  context := c
  function? := if block.kind = .wasmFunction then block.signature else p.function?

lemma ScopeState.Opens.currentFunction? {s s' : ScopeState} {block : OpenBlock} {c : Context}
    (h : s.Opens block c s') : s'.currentFunction? =
      if block.kind = .wasmFunction then block.signature else s.currentFunction? := by
  rw [ScopeState.currentFunction?, h.blocks]
  split
  · rename_i hk
    rw [List.find?_cons_of_pos (by simpa using hk)]
    rfl
  · rename_i hk
    rw [List.find?_cons_of_neg (by simpa using hk)]
    rfl

namespace Operation

variable {op : Operation}

lemma importCategory?_of_isBlockStart (h : op.isBlockStart = true) :
    op.importCategory? = none := by
  cases op <;> first | rfl | exact (Bool.false_ne_true h).elim

lemma importCategory?_of_isBlockEnd (h : op.isBlockEnd = true) : op.importCategory? = none := by
  cases op <;> first | rfl | exact (Bool.false_ne_true h).elim

end Operation

namespace Builder

variable {o b b' : Builder} {p p' : Place} {Γ Γ' Δ : Known} {block : OpenBlock} {c d : Context}
  {op : Operation} {inputs : List Variable} {v : Variable} {t : StaticType}

/-- The variables may be used and have these types. -/
def Offers (b : Builder) (Γ : Known) : Prop :=
  ∀ v t, (v, t) ∈ Γ → b.Usable v ∧ b.typeOf v = t

lemma Offers.append (h : b.Offers Δ) (h' : b.Offers Γ) : b.Offers (Δ ++ Γ) :=
  fun v t hv => (List.mem_append.mp hv).elim (h v t) (h' v t)

lemma Offers.knows (h : b.Offers Γ) (hk : b.Sees p []) : b.Knows p Γ where
  context := hk.context
  function := hk.function
  visible v t hv := ⟨(h v t hv).1.visible, (h v t hv).2⟩
  free v hv := by
    obtain ⟨t, ht⟩ := Known.mem_vars_iff.mp hv
    exact (h v t ht).1.type

/-- The known variables may be used, and so they may behind the block that is open. -/
def KnowsBehind (b : Builder) (Γ : Known) : Prop :=
  ∀ v t, (v, t) ∈ Γ → v ∈ b.scopes.scopes.tail.flatten ∧ b.Usable v ∧ b.typeOf v = t

lemma KnowsBehind.offers (h : b.KnowsBehind Γ) : b.Offers Γ := fun v t hv => (h v t hv).2

lemma KnowsBehind.append (h : b.KnowsBehind Δ) (h' : b.KnowsBehind Γ) :
    b.KnowsBehind (Δ ++ Γ) :=
  fun v t hv => (List.mem_append.mp hv).elim (h v t) (h' v t)

variable [Regard]

/-- The program ends inside a block that was opened at the end of another.  Behind the block, at the
one place, some variables are known, and inside, at the other place, some more. -/
structure Within (o : Builder) (p : Place) (block : OpenBlock) (Γ : Known) (b : Builder)
    (p' : Place) (Γ' : Known) : Prop where
  opens : ∃ c, o.Opens block c b
  place : b.Regarded → o.Sees p []
  behind : b.Regarded → b.KnowsBehind Γ
  inside : b.Regarded → b.Knows p' Γ'

namespace Within

lemma sound (h : o.Within p block Γ b p' Γ') : b.Sound := h.opens.choose_spec.sound

/-- Code inside the block changes nothing outside. -/
lemma goes_on (h : o.Within p block Γ b p' Γ') (hs : o.Sound) (he : b.Extends b')
    (hk : b'.Regarded → b'.Knows p' Δ) : o.Within p block Γ b' p' (Δ ++ Γ') := by
  obtain ⟨⟨c, ho⟩, hp, hout, hin⟩ := h
  refine ⟨⟨c, ho.trans hs he⟩, fun hb => hp (he.regarded hb), fun hb v t hv => ?_,
    fun hb => (hk hb).append ((hin (he.regarded hb)).mono ho.sound he hb)⟩
  obtain ⟨hscope, hu, ht⟩ := hout (he.regarded hb) v t hv
  obtain ⟨hu', ht'⟩ := he.toReaches.usable ho.sound hb hu (he.isVisible ho.sound hb hu.visible)
  refine ⟨?_, hu', ht'.trans ht⟩
  rw [(he.scopes hb).outer]
  exact hscope

end Within

/-! ### The operation that opens a block -/

/-- The variables inside a block get the types of the operation that opens it. -/
lemma typeOf_inner_emitted (hs : b.Settled) (hf : b.Fits op inputs)
    (hb : (b.emit op inputs).2.Regarded) (hst : op.isBlockStart = true)
    (hv : (v, t) ∈ (b.emitted op inputs).innerOutputs.zip
      (Typer.innerOutputTypes op op.numInnerOutputs)) : (b.emit op inputs).2.typeOf v = t := by
  have ha := (hf.takes hs).admits
  have hm : (b.emitted op inputs).innerOutputs.map (b.emit op inputs).2.typeOf =
      Typer.innerOutputTypes op op.numInnerOutputs :=
    Typer.map_typeOf_innerOutputs ha.arity
      (Validator.Sound.nodup_definedVariables ha (hs.small_emitted hb.toBounded))
      (Operation.ne_endWasmModule hst)
  rw [← hm, ← List.map_prod_left_eq_zip, List.mem_map] at hv
  obtain ⟨w, -, hw⟩ := hv
  obtain ⟨rfl, rfl⟩ := Prod.mk.inj hw
  rfl

/-- The variables of a block, with the types that its operation gives them. -/
def inner (b : Builder) (op : Operation) (inputs : List Variable) : Known :=
  (b.emitted op inputs).innerOutputs.zip (Typer.innerOutputTypes op op.numInnerOutputs)

/-- The variables of a block may be used inside of it. -/
lemma Settled.offers_inner (hs : b.Settled) (hf : b.Fits op inputs)
    (hb : (b.emit op inputs).2.Regarded) (hst : op.isBlockStart = true) :
    (b.emit op inputs).2.Offers (b.inner op inputs) := fun _ _ hv =>
  ⟨usable_emitted hs hb (List.mem_append_right _ (List.of_mem_zip hv).1),
    typeOf_inner_emitted hs hf hb hst hv⟩

namespace Opens

/-- What is visible outside of a block is so inside. -/
lemma sees (ho : o.Opens block c b) (hs : o.Sound) (hb : b.Regarded) (hk : o.Sees p Γ)
    (hc : c.contains d = true) : b.Sees (p.inside block d) Γ where
  context := by
    rw [(ho.scopes hb).context]
    exact hc
  function := by
    rw [(ho.scopes hb).currentFunction?, hk.function]
    rfl
  visible v t hv := by
    obtain ⟨hvis, ht⟩ := hk.visible v t hv
    have hold := (hs (ho.regarded hb)).lt_next hvis
    exact ⟨ho.isVisible hs hb hvis, ((ho.toReaches.steps hs hb).2 v hold).trans ht⟩

/-- What is known outside of a block is known behind it. -/
lemma knowsBehind (ho : o.Opens block c b) (hs : o.Sound) (hb : b.Regarded) (hk : o.Knows p Γ) :
    b.KnowsBehind Γ := by
  intro v t hv
  have hu := hk.usable (Known.mem_vars_iff.mpr ⟨t, hv⟩)
  obtain ⟨hu', ht⟩ := ho.toReaches.usable hs hb hu (ho.isVisible hs hb hu.visible)
  refine ⟨?_, hu', ht.trans (hk.visible v t hv).2⟩
  exact (ho.scopes hb).behind.mem_flatten ((hs (ho.regarded hb)).isVisible_iff.mp hu.visible)

end Opens

/-- An operation that opens a block fits where it is allowed. -/
lemma Knows.fits_start (hk : b.Regarded → b.Knows p Γ) (ha : p.Allows Γ op inputs)
    (hst : op.isBlockStart = true) (he : op.isBlockEnd = false)
    (hb : (b.emit op inputs).2.Regarded) (hs : b.Settled) : b.Fits op inputs := by
  refine (hk (hb.of_emit)).fits hs hb ha (by simp [he]) fun c hc => ?_
  rw [Operation.importCategory?_of_isBlockStart hst] at hc
  exact nomatch hc

/-- **The operation that opens a block.** -/
theorem Sound.within_emit (hs : b.Sound) (hk : b.Regarded → b.Knows p Γ) (ha : p.Allows Γ op inputs)
    (hst : op.isBlockStart = true) (he : op.isBlockEnd = false)
    (hc : ∀ c : Context, c.contains p.context = true → (op.innerContext c).contains d = true) :
    b.Within p (ScopeState.openedBlock op none)
      ((b.emitted op inputs).outputs.zip (b.typer.outputTypes op inputs) ++ Γ)
      (b.emit op inputs).2 (p.inside (ScopeState.openedBlock op none) d)
      (b.inner op inputs ++
        ((b.emitted op inputs).outputs.zip (b.typer.outputTypes op inputs) ++ Γ)) := by
  have hfits := Knows.fits_start hk ha hst he
  have ho := hs.opens_emit hfits hst he
  have hbehind : (b.emit op inputs).2.Regarded → (b.emit op inputs).2.KnowsBehind
      ((b.emitted op inputs).outputs.zip (b.typer.outputTypes op inputs) ++ Γ) := by
    intro hb
    have hset := hs (ho.regarded hb)
    refine KnowsBehind.append (fun v t hv => ⟨?_, ?_, ?_⟩)
      (ho.knowsBehind hs hb (hk (ho.regarded hb)))
    · exact ScopeState.mem_tail_apply_of_mem_outputs hset.scopes_ne_nil hst he
        (List.of_mem_zip hv).1
    · exact usable_emitted hset hb (List.mem_append_left _ (List.of_mem_zip hv).1)
    · exact typeOf_emitted hset (hfits hb hset) hb (Operation.ne_endWasmModule hst) hv
  refine ⟨⟨_, ho⟩, fun hb => (hk (ho.regarded hb)).toSees.nil.toSees, hbehind, fun hb => ?_⟩
  have hkb := hk (ho.regarded hb)
  have hset := hs (ho.regarded hb)
  have hplace := ho.sees hs hb hkb.toSees.nil.toSees (hc _ hkb.context)
  exact ((hset.offers_inner (hfits hb hset) hb hst).append (hbehind hb).offers).knows hplace

/-! ### The operation that opens the second part of a block -/

section

variable (hw : o.Within p block Γ b p' Γ') (ha : p'.Allows Γ' op inputs)
  (hcheck : block.check op = .ok ()) (he : op.isBlockEnd = true)
include hw ha hcheck he

lemma Within.fits (hb : (b.emit op inputs).2.Regarded) (hset : b.Settled) : b.Fits op inputs := by
  obtain ⟨c, ho⟩ := hw.opens
  have hb' : b.Regarded := hb.of_emit
  refine (hw.inside hb').fits hset hb ha (fun _ => ?_) fun c hc => ?_
  · rw [ScopeState.checkBlockEnd_eq (ho.scopes hb').blocks]
    exact hcheck
  · rw [Operation.importCategory?_of_isBlockEnd he] at hc
    exact nomatch hc

lemma Within.guides_emit (hg : o.Guides b) (hl : op.isLoopEdge = false) :
    o.Guides (b.emit op inputs).2 := by
  obtain ⟨c, ho⟩ := hw.opens
  have hr := ho.sound.reaches_emit (hw.fits ha hcheck he)
  refine hg.trans ho.toReaches hr ?_
  refine ho.sound.guides_emit hr hl fun hb _ v hv => ?_
  exact (hw.inside (hr.regarded hb)).usable (ha.known hv)

variable (hs : o.Sound)
include hs

/-- **The operation that opens the second part of a block.** -/
theorem Within.switch_emit (hst : op.isBlockStart = true)
    (hc : ∀ c : Context, c.contains p.context = true → (op.innerContext c).contains d = true) :
    o.Within p { block with switched := true } Γ (b.emit op inputs).2
      (p.inside { block with switched := true } d) (b.inner op inputs ++ Γ) := by
  have hf := hw.fits ha hcheck he
  obtain ⟨⟨c, ho⟩, hp, hout, -⟩ := hw
  have ho' := ho.switch hs hf hst he
  have hr := ho.sound.reaches_emit hf
  have hbehind : (b.emit op inputs).2.Regarded → (b.emit op inputs).2.KnowsBehind Γ := by
    intro hb v t hv
    have hb' := hr.regarded hb
    obtain ⟨hscope, hu, ht⟩ := hout hb' v t hv
    have hscope' : v ∈ (b.emit op inputs).2.scopes.scopes.tail.flatten :=
      ScopeState.mem_tail_apply (i := b.emitted op inputs) (ho.tail_ne_nil hb') hst he hscope
    have hvis : (b.emit op inputs).2.scopes.isVisible v = true := by
      obtain ⟨scope, hmem, hv⟩ := List.mem_flatten.mp hscope'
      exact (ho'.sound hb).isVisible_iff.mpr
        (List.mem_flatten.mpr ⟨scope, List.mem_of_mem_tail hmem, hv⟩)
    obtain ⟨hu', ht'⟩ := hr.usable ho.sound hb hu hvis
    exact ⟨hscope', hu', ht'.trans ht⟩
  refine ⟨⟨_, ho'⟩, fun hb => hp (hr.regarded hb), hbehind, fun hb => ?_⟩
  have hset := ho.sound (hr.regarded hb)
  have hplace := ho'.sees hs hb (hp (hr.regarded hb)) (hc _ (hp (hr.regarded hb)).context)
  exact ((hset.offers_inner (hf hb hset) hb hst).append (hbehind hb).offers).knows hplace

/-! ### The operation that closes a block -/

/-- **The operation that closes a block**: the program goes on behind it. -/
theorem Within.close_emit (hst : op.isBlockStart = false) :
    o.Extends (b.emit op inputs).2 ∧ ∃ Δ : Known, Δ.vars = (b.emitted op inputs).outputs ∧
      (op ≠ .endWasmModule → Δ = (b.emitted op inputs).outputs.zip
        (b.typer.outputTypes op inputs)) ∧
      ((b.emit op inputs).2.Regarded → (b.emit op inputs).2.Knows p (Δ ++ Γ)) := by
  have hf := hw.fits ha hcheck he
  obtain ⟨⟨c, ho⟩, hp, hout, -⟩ := hw
  have hext := ho.close hs hf hst he
  have hr := ho.sound.reaches_emit hf
  have hout' : (b.emit op inputs).2.Regarded → (b.emit op inputs).2.Offers Γ := by
    intro hb v t hv
    have hb' := hr.regarded hb
    obtain ⟨hscope, hu, ht⟩ := hout hb' v t hv
    have hin : v ∈ (b.emit op inputs).2.scopes.scopes.flatten :=
      (ScopeState.leave_extends_apply (i := b.emitted op inputs) (ho.tail_ne_nil hb') hst
        he).mem_flatten hscope
    obtain ⟨hu', ht'⟩ := hr.usable ho.sound hb hu ((hext.sound hb).isVisible_iff.mpr hin)
    exact ⟨hu', ht'.trans ht⟩
  have hdefined : (b.emit op inputs).2.Regarded → ∀ v ∈ (b.emitted op inputs).outputs,
      (b.emit op inputs).2.Usable v := fun hb v hv =>
    usable_emitted (ho.sound (hr.regarded hb)) hb (List.mem_append_left _ hv)
  have hplace : (b.emit op inputs).2.Regarded → (b.emit op inputs).2.Sees p [] := fun hb =>
    (hp (hr.regarded hb)).mono hs hext hb
  by_cases hm : op = .endWasmModule
  · refine ⟨hext, (b.emitted op inputs).outputs.map fun v => (v, (b.emit op inputs).2.typeOf v),
      by simp [Known.vars, Function.comp_def], fun h => absurd hm h, fun hb => ?_⟩
    refine Offers.knows (Offers.append (fun v t hv => ?_) (hout' hb)) (hplace hb)
    obtain ⟨w, hw, hwt⟩ := List.mem_map.mp hv
    obtain ⟨rfl, rfl⟩ := Prod.mk.inj hwt
    exact ⟨hdefined hb w hw, rfl⟩
  · refine ⟨hext, (b.emitted op inputs).outputs.zip (b.typer.outputTypes op inputs),
      Known.vars_zip ?_, fun _ => rfl, fun hb => ?_⟩
    · exact length_freshVariables.trans Typer.length_outputTypes.symm
    · refine Offers.knows (Offers.append (fun v t hv => ⟨?_, ?_⟩) (hout' hb)) (hplace hb)
      · exact hdefined hb v (List.of_mem_zip hv).1
      · have hsound := ho.sound (hr.regarded hb)
        exact typeOf_emitted hsound (hf hb hsound) hb hm hv

end

end Builder

namespace Build

variable [Regard] {α β : Type} {o b : Builder} {p p' : Place} {Γ Γ' Δ : Known} {block : OpenBlock}
  {d : Context} {op : Operation} {inputs : List Variable} {m : Build α} {f : α → Build β}
  {g : Instruction → Build β} {P : α → Known → Prop} {Q : β → Known → Prop} {v : Variable}

/-- The computation starts inside a block and closes it; behind the block it knows variables that,
with its result, satisfy a condition. -/
def LeavesAt (o : Builder) (p : Place) (block : OpenBlock) (Γ : Known) (b : Builder) (p' : Place)
    (Γ' : Known) (m : Build α) (Q : α → Known → Prop) : Prop :=
  o.Sound → o.Within p block Γ b p' Γ' → o.Guides b → o.Yields p (Q (m b).1) (m b).2

/-- Code inside a block, before the block is closed. -/
theorem LeavesAt.bind (hm : AppendsAt b p' Γ' m P)
    (hf : ∀ a Δ, P a Δ → LeavesAt o p block Γ (m b).2 p' (Δ ++ Γ') (f a) Q) :
    LeavesAt o p block Γ b p' Γ' (m >>= f) Q := by
  intro hs hw hguides
  obtain ⟨he, hg, Δ, hP, hΔ⟩ := hm hw.sound hw.inside
  exact hf _ Δ hP hs (hw.goes_on hs he hΔ)
    (hguides.trans hw.opens.choose_spec.toReaches he.toReaches hg)

/-- The types of what an operation defines. -/
def outputs (b : Builder) (op : Operation) (inputs : List Variable) : Known :=
  (b.emitted op inputs).outputs.zip (b.typer.outputTypes op inputs)

/-- An operation that opens a block. -/
theorem AppendsAt.opens (ha : p.Allows Γ op inputs) (hst : op.isBlockStart = true)
    (he : op.isBlockEnd = false) (hl : op.isLoopEdge = false)
    (hc : ∀ c : Context, c.contains p.context = true → (op.innerContext c).contains d = true)
    (hg : LeavesAt b p (ScopeState.openedBlock op none) (outputs b op inputs ++ Γ)
      (b.emit op inputs).2 (p.inside (ScopeState.openedBlock op none) d)
      (b.inner op inputs ++ (outputs b op inputs ++ Γ)) (g (b.emitted op inputs)) Q) :
    AppendsAt b p Γ (Build.emit op inputs >>= g) Q :=
  fun hs hk => by
    have hw := hs.within_emit hk ha hst he hc
    have hr := hw.opens.choose_spec.toReaches
    exact hg hs hw <| hs.guides_emit hr hl fun hb _ v hv =>
      (hk (hr.regarded hb)).usable (ha.known hv)

section

variable (ha : p'.Allows Γ' op inputs) (hcheck : block.check op = .ok ())
  (he : op.isBlockEnd = true) (hl : op.isLoopEdge = false)
include ha hcheck he hl

/-- An operation that opens the second part of a block. -/
theorem LeavesAt.switches (hst : op.isBlockStart = true)
    (hc : ∀ c : Context, c.contains p.context = true → (op.innerContext c).contains d = true)
    (hg : LeavesAt o p { block with switched := true } Γ (b.emit op inputs).2
      (p.inside { block with switched := true } d) (b.inner op inputs ++ Γ)
      (g (b.emitted op inputs)) Q) :
    LeavesAt o p block Γ b p' Γ' (emit op inputs >>= g) Q :=
  fun hs hw hguides => hg hs (hw.switch_emit ha hcheck he hs hst hc)
    (hw.guides_emit ha hcheck he hguides hl)

/-- An operation that closes a block. -/
theorem LeavesAt.closes (hst : op.isBlockStart = false)
    (hg : ∀ Δ : Known, Δ.vars = (b.emitted op inputs).outputs →
      (op ≠ .endWasmModule → Δ = outputs b op inputs) →
      AppendsAt (b.emit op inputs).2 p (Δ ++ Γ) (g (b.emitted op inputs)) Q) :
    LeavesAt o p block Γ b p' Γ' (emit op inputs >>= g) Q := by
  intro hs hw hguides
  have hguides := hw.guides_emit ha hcheck he hguides hl
  obtain ⟨hext, Δ, hvars, htypes, hknows⟩ := hw.close_emit ha hcheck he hs hst
  obtain ⟨he', hg', Δ', hQ, hΔ'⟩ := hg Δ hvars htypes hext.sound hknows
  exact ⟨hext.trans hs he', hguides.trans hext.toReaches he'.toReaches hg', Δ', hQ, hΔ'⟩

end

end Build

namespace Build

variable {b : Builder} {op : Operation} {inputs : List Variable}

/-! ### Variables of blocks -/

lemma outputs_eq_nil (h : op.numOutputs = 0) : outputs b op inputs = [] := by
  change (Builder.freshVariables b.nextVariable op.numOutputs).zip _ = []
  rw [h]
  rfl

lemma inner_eq_nil (h : op.numInnerOutputs = 0) : b.inner op inputs = [] := by
  change (Builder.freshVariables _ op.numInnerOutputs).zip _ = []
  rw [h]
  rfl

lemma inner_eq_single {type : StaticType} (h : op.numInnerOutputs = 1)
    (ht : Typer.innerOutputTypes op 1 = [type]) :
    b.inner op inputs = [(firstOf (b.emitted op inputs).innerOutputs, type)] := by
  change (Builder.freshVariables _ op.numInnerOutputs).zip (Typer.innerOutputTypes op _) =
    [(firstOf (Builder.freshVariables _ op.numInnerOutputs), type)]
  rw [h, ht]
  rfl

end Build

/-- The operation closes the block in the context, and does nothing else. -/
structure Operation.Closes (op : Operation) (block : OpenBlock) (c : Context) : Prop where
  ends : op.isBlockEnd = true
  starts : op.isBlockStart = false
  edge : op.isLoopEdge = false
  check : block.check op = .ok ()
  context : c.contains op.requiredContext = true
  numInputs : op.numInputs = 0
  inputs : ∀ f?, op.acceptsInputs [] f? = true

namespace Build

variable [Regard] {α β : Type} {o b : Builder} {p p' : Place} {Γ Γ' Δ : Known} {block : OpenBlock}
  {op : Operation} {a : α} {Q : α → Known → Prop}

/-- An operation that closes a block, at the end of a computation. -/
lemma LeavesAt.closed (h : op.Closes block p'.context) (hQ : Q a Δ) (hΔ : Δ ⊆ Γ) :
    LeavesAt o p block Γ b p' Γ' (emit op [] >>= fun _ => pure a) Q :=
  .closes (.noInputs h.context h.numInputs h.inputs) h.check h.ends h.edge h.starts
    fun _ _ _ => .pure hQ (List.subset_append_of_subset_right _ hΔ)

end Build

end EngineFuzz
