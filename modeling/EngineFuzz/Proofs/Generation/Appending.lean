import Mathlib
import EngineFuzz.Proofs.Generation.Drawing
import EngineFuzz.Proofs.Generation.Growth

/-!
# Computations that append well-formed code

What a computation may append depends on the place at which it runs and on the variables that it
knows there.  Both are described from outside, so that rules tell what a computation appends from
what its parts append.

* `Place`, `Known`: where a computation runs, and the variables that it knows, with their types.
* `Builder.Knows`: the program ends at such a place, where these variables may be used.
* `Build.Appends`: the computation appends well-formed code at the place, and knows further
  variables in the end; with a rule for each way to make a computation from others.
* `Place.Allows`: what an operation and its inputs have to satisfy, with `Build.appends_value` and
  `Build.appends_perform`.
-/

namespace EngineFuzz

/-- Where a computation runs: the contexts that the position provides at least, and the signature of
the function around it. -/
structure Place where
  context : Context
  function? : Option FunctionSignature

/-- Variables with their types. -/
abbrev Known := List (Variable × StaticType)

/-- The variables that are known. -/
def Known.vars (Γ : Known) : List Variable := Γ.map Prod.fst

namespace Known

variable {Γ Δ : Known} {v : Variable} {t : StaticType} {vs : List Variable} {ts : List StaticType}

@[simp] lemma vars_nil : vars [] = [] := rfl

@[simp] lemma vars_cons : vars ((v, t) :: Γ) = v :: vars Γ := rfl

@[simp] lemma vars_append : vars (Δ ++ Γ) = vars Δ ++ vars Γ := List.map_append

lemma mem_vars_iff : v ∈ vars Γ ↔ ∃ t, (v, t) ∈ Γ := by
  simp [vars]

lemma vars_zip (h : vs.length = ts.length) : vars (vs.zip ts) = vs :=
  List.map_fst_zip h.le

end Known

namespace Context

variable {c d e : Context}

lemma contains_trans (h : c.contains d = true) (h' : d.contains e = true) :
    c.contains e = true := by
  have hd : c.bits &&& d.bits = d.bits := eq_of_beq h
  have he : d.bits &&& e.bits = e.bits := eq_of_beq h'
  have : c.bits &&& e.bits = e.bits := by
    rw [← he, ← UInt8.and_assoc, hd]
  exact beq_iff_eq.mpr this

@[simp] lemma contains_self : c.contains c = true := by simp [contains]

@[simp] lemma contains_empty : c.contains .empty = true := by simp [contains, empty]

end Context

/-- The types that variables may have, as far as the place and the known variables tell. -/
structure Place.Types (p : Place) (Γ : Known) (τ : Variable → StaticType) : Prop where
  known : ∀ v t, (v, t) ∈ Γ → τ v = t
  script : p.context.isScript = true → ∀ v ∈ Γ.vars, (τ v).isScriptValue = true
  function : p.context.isWasmFunction = true → p.function?.isSome = true

lemma Place.Types.unique {p : Place} {Γ : Known} {τ : Variable → StaticType} {t t' : StaticType}
    (h : p.Types Γ τ) (v : Variable) (ht : (v, t) ∈ Γ) (ht' : (v, t') ∈ Γ) : t = t' :=
  (h.known v t ht).symm.trans (h.known v t' ht')

namespace Builder

variable {b b' : Builder} {p : Place} {Γ Δ : Known} {op : Operation} {inputs : List Variable}
  {v : Variable} {t : StaticType}

/-- The program ends at the place, and the variables are visible there. -/
structure Sees (b : Builder) (p : Place) (Γ : Known) : Prop where
  context : b.scopes.context.contains p.context = true
  function : b.scopes.currentFunction? = p.function?
  visible : ∀ v t, (v, t) ∈ Γ → b.scopes.isVisible v = true ∧ b.typeOf v = t

/-- The program ends at the place, and the known variables may be used there. -/
structure Knows (b : Builder) (p : Place) (Γ : Known) : Prop extends b.Sees p Γ where
  free : ∀ v ∈ Γ.vars, b.hidden.contains v = true → (b.typeOf v).isScriptValue = true

namespace Sees

lemma nil (h : b.Sees p Γ) : b.Knows p [] where
  context := h.context
  function := h.function
  visible := nofun
  free := nofun

lemma mono [Regard] (h : b.Sees p Γ) (hs : b.Sound) (he : b.Extends b') (hb : b'.Regarded) :
    b'.Sees p Γ where
  context := by
    rw [(he.scopes hb).context]
    exact h.context
  function := (he.scopes hb).currentFunction?.trans h.function
  visible v t hv := by
    obtain ⟨hvis, ht⟩ := h.visible v t hv
    have hold := (hs (he.regarded hb)).lt_next hvis
    exact ⟨he.isVisible hs hb hvis, ((he.toReaches.steps hs hb).2 v hold).trans ht⟩

lemma append (h : b.Sees p Δ) (h' : b.Sees p Γ) : b.Sees p (Δ ++ Γ) where
  context := h.context
  function := h.function
  visible v t hv := (List.mem_append.mp hv).elim (h.visible v t) (h'.visible v t)

lemma isVisible (h : b.Sees p Γ) (hv : v ∈ Γ.vars) : b.scopes.isVisible v = true := by
  obtain ⟨t, ht⟩ := Known.mem_vars_iff.mp hv
  exact (h.visible v t ht).1

/-- In a well-formed program variables have types that the place and the visible variables allow. -/
lemma types (h : b.Sees p Γ) (hs : b.Settled) : p.Types Γ b.typeOf where
  known v t hv := (h.visible v t hv).2
  script hp v hv := by
    refine hs.sound.fits.isScriptValue ?_ (hs.isVisible_iff.mp (h.isVisible hv))
    exact Context.contains_trans h.context hp
  function hp := by
    rw [← h.function]
    refine hs.placed.exists_signature hs.signed ?_
    have hc : b.scopes.context.contains Operation.wasmUnreachable.requiredContext = true :=
      Context.contains_trans h.context hp
    exact hs.placed.worldOf_of_contains hc rfl

end Sees

namespace Knows

lemma usable (h : b.Knows p Γ) (hv : v ∈ Γ.vars) : b.Usable v := ⟨h.isVisible hv, h.free v hv⟩

lemma mono [Regard] (h : b.Knows p Γ) (hs : b.Sound) (he : b.Extends b') (hb : b'.Regarded) :
    b'.Knows p Γ where
  toSees := h.toSees.mono hs he hb
  free v hv := by
    have hu := h.usable hv
    exact (he.toReaches.usable hs hb hu (he.isVisible hs hb hu.visible)).1.type

lemma append (h : b.Knows p Δ) (h' : b.Knows p Γ) : b.Knows p (Δ ++ Γ) where
  toSees := h.toSees.append h'.toSees
  free v hv := by
    rw [Known.vars_append, List.mem_append] at hv
    exact hv.elim (h.free v) (h'.free v)

lemma subset (h : b.Knows p Γ) (hΔ : Δ ⊆ Γ) : b.Knows p Δ where
  context := h.context
  function := h.function
  visible v t hv := h.visible v t (hΔ hv)
  free v hv := by
    obtain ⟨t, ht⟩ := Known.mem_vars_iff.mp hv
    exact h.free v (Known.mem_vars_iff.mpr ⟨t, hΔ ht⟩)

/-- A variable that may be used, with its type. -/
lemma single (h : b.Knows p Γ) (hv : b.Usable v) : b.Knows p [(v, b.typeOf v)] where
  context := h.context
  function := h.function
  visible w t hw := by
    obtain ⟨rfl, rfl⟩ := Prod.mk.inj (List.mem_singleton.mp hw)
    exact ⟨hv.visible, rfl⟩
  free w hw := by
    obtain rfl : w = v := by simpa using hw
    exact hv.type

end Knows

/-- From one program to another: the second goes on the first with well-formed code, and variables
are known there that satisfy a condition. -/
structure Yields [Regard] (b : Builder) (p : Place) (Q : Known → Prop) (b' : Builder) : Prop where
  goesOn : b.Extends b'
  guides : b.Guides b'
  known : ∃ Δ, Q Δ ∧ (b'.Regarded → b'.Knows p Δ)

end Builder

namespace Build

variable [Regard] {α β : Type} {b : Builder} {p : Place} {Γ Δ : Known} {op : Operation}
  {inputs : List Variable} {m : Build α} {f : α → Build β} {P Q' : α → Known → Prop}
  {Q : β → Known → Prop} {v : Variable} {t : StaticType}

/-- At the end of a program the computation appends well-formed code.  In the end it knows variables
that, with its result, satisfy a condition. -/
def AppendsAt (b : Builder) (p : Place) (Γ : Known) (m : Build α) (Q : α → Known → Prop) : Prop :=
  b.Sound → (b.Regarded → b.Knows p Γ) → b.Yields p (Q (m b).1) (m b).2

/-- At the end of every program at the place the computation appends well-formed code. -/
def Appends (p : Place) (Γ : Known) (m : Build α) (Q : α → Known → Prop) : Prop :=
  ∀ b, AppendsAt b p Γ m Q

/-! ### Computations made from others -/

namespace AppendsAt

lemma mono (h : AppendsAt b p Γ m P) (hQ : ∀ a Δ, P a Δ → Q' a Δ) : AppendsAt b p Γ m Q' :=
  fun hs hk => by
    obtain ⟨he, hg, Δ, hP, hΔ⟩ := h hs hk
    exact ⟨he, hg, Δ, hQ _ _ hP, hΔ⟩

/-- One computation after another, which may know that the first one has gone on. -/
theorem bind_extends (hm : AppendsAt b p Γ m P)
    (hf : ∀ a Δ, P a Δ → b.Extends (m b).2 → AppendsAt (m b).2 p (Δ ++ Γ) (f a) Q) :
    AppendsAt b p Γ (m >>= f) Q := by
  intro hs hk
  obtain ⟨he, hg, Δ, hP, hΔ⟩ := hm hs hk
  have hk' : (m b).2.Regarded → (m b).2.Knows p (Δ ++ Γ) := fun hb =>
    (hΔ hb).append ((hk (he.regarded hb)).mono hs he hb)
  obtain ⟨he', hg', Δ', hQ, hΔ'⟩ := hf _ Δ hP he he.sound hk'
  exact ⟨he.trans hs he', hg.trans he.toReaches he'.toReaches hg', Δ', hQ, hΔ'⟩

/-- One computation after another. -/
theorem bind (hm : AppendsAt b p Γ m P)
    (hf : ∀ a Δ, P a Δ → AppendsAt (m b).2 p (Δ ++ Γ) (f a) Q) : AppendsAt b p Γ (m >>= f) Q :=
  hm.bind_extends fun a Δ h _ => hf a Δ h

/-- The same program, in a builder that hides the same. -/
lemma of_agrees {b' : Builder} (ha : b.Agrees b') (hh : b'.hidden = b.hidden)
    (hn : b'.newNames = b.newNames) (hm : ∃ Δ ⊆ Γ, Q' (m b).1 Δ) (hb' : (m b).2 = b') :
    AppendsAt b p Γ m Q' := by
  intro hs hk
  have he : b.Extends b' := .of_agrees hs ha hh hn
  obtain ⟨Δ, hΔ, hQ⟩ := hm
  rw [← hb'] at he ha
  refine ⟨he, he.toReaches.guides hs ha.instructions, Δ, hQ, fun hb => ?_⟩
  exact ((hk (he.regarded hb)).mono hs he hb).subset hΔ

lemma pure {a : α} (h : Q' a Δ) (hΔ : Δ ⊆ Γ) : AppendsAt b p Γ (pure a) Q' :=
  have ha : b.Agrees b := ⟨rfl, rfl, rfl, rfl, rfl, rfl⟩
  .of_agrees ha rfl rfl ⟨Δ, hΔ, h⟩ rfl

/-- A computation that only draws. -/
lemma of_draws {P : α → Prop} (h : Draws m b P) : AppendsAt b p Γ m fun a Δ => P a ∧ Δ = [] := by
  obtain ⟨hP, words, hw⟩ := h
  have ha : b.Agrees { b with words } := ⟨rfl, rfl, rfl, rfl, rfl, rfl⟩
  exact .of_agrees ha rfl rfl ⟨[], List.nil_subset _, hP, rfl⟩ hw

lemma draws {P : α → Prop} (h : Draws m b P)
    (hf : ∀ a words, P a → AppendsAt { b with words } p Γ (f a) Q) :
    AppendsAt b p Γ (m >>= f) Q := by
  refine (of_draws h).bind fun a Δ ⟨hP, hΔ⟩ => ?_
  obtain ⟨-, words, hw⟩ := h
  rw [hw, hΔ, List.nil_append]
  exact hf a words hP

/-- Drawing a variable. -/
lemma of_randomVariable {accepts : StaticType → Bool} :
    AppendsAt b p Γ (randomVariable accepts) fun found? Δ =>
      ∀ v, found? = some v → ∃ t, accepts t = true ∧ Δ = [(v, t)] := by
  intro hs hk
  obtain ⟨hdrawn, words, hw⟩ := @draws_randomVariable b accepts
  have ha : b.Agrees { b with words } := ⟨rfl, rfl, rfl, rfl, rfl, rfl⟩
  have he : b.Extends { b with words } := .of_agrees hs ha rfl rfl
  rw [hw]
  refine ⟨he, he.toReaches.guides hs rfl, ?_⟩
  cases hr : (randomVariable accepts b).1 with
  | none => exact ⟨[], nofun, fun hb => ((hk (he.regarded hb)).mono hs he hb).subset (by simp)⟩
  | some v =>
      obtain ⟨hv, hacc⟩ := hdrawn v hr
      obtain ⟨hscope, hhidden⟩ := Builder.mem_visibleVariables_iff.mp hv
      refine ⟨[(v, b.typeOf v)], fun w hw => ?_, fun hb => ?_⟩
      · obtain rfl := Option.some.inj hw
        exact ⟨_, hacc, rfl⟩
      · have hb' := he.regarded hb
        have hkb := (hk hb').mono hs he hb
        refine hkb.single (v := v) ⟨(hs hb').isVisible_iff.mpr hscope, fun hh => ?_⟩
        change b.hidden.contains v = true at hh
        rw [hhidden] at hh
        cases hh

end AppendsAt

namespace Appends

lemma mono (h : Appends p Γ m P) (hQ : ∀ a Δ, P a Δ → Q' a Δ) : Appends p Γ m Q' :=
  fun b => (h b).mono hQ

/-- **One computation after another.** -/
theorem bind (hm : Appends p Γ m P) (hf : ∀ a Δ, P a Δ → Appends p (Δ ++ Γ) (f a) Q) :
    Appends p Γ (m >>= f) Q :=
  fun b => (hm b).bind fun a Δ h => hf a Δ h _

lemma pure {a : α} (h : Q' a Δ) (hΔ : Δ ⊆ Γ) : Appends p Γ (pure a) Q' := fun _ => .pure h hΔ

lemma of_draws {P : α → Prop} (h : ∀ b, Draws m b P) : Appends p Γ m fun a Δ => P a ∧ Δ = [] :=
  fun b => .of_draws (h b)

/-- Draws in front of a computation. -/
lemma draws {P : α → Prop} (h : ∀ b, Draws m b P) (hf : ∀ a, P a → Appends p Γ (f a) Q) :
    Appends p Γ (m >>= f) Q :=
  fun b => .draws (h b) fun a _ hP => hf a hP _

/-- A draw in front of a computation. -/
lemma draw {d : Draw α} (hf : ∀ a, Appends p Γ (f a) Q) :
    Appends p Γ ((liftM d : Build α) >>= f) Q :=
  draws (fun _ => draws_any) fun a _ => hf a

lemma look {g : Builder → α} (hf : ∀ a, Appends p Γ (f a) Q) : Appends p Γ (look g >>= f) Q :=
  fun b => hf (g b) b

/-- The type of a known variable. -/
lemma typeOf {f : StaticType → Build β} (hv : v ∈ Γ.vars)
    (hf : ∀ t, Appends p ((v, t) :: Γ) (f t) Q) : Appends p Γ (typeOf v >>= f) Q := by
  intro b hs hk
  refine hf (b.typeOf v) b hs fun hb => ?_
  exact ((hk hb).single ((hk hb).usable hv)).append (hk hb)

/-- A visible variable, if there is one of an accepted type. -/
lemma randomVariable {accepts : StaticType → Bool} {f : Option Variable → Build β}
    (hnone : Appends p Γ (f none) Q)
    (hsome : ∀ v t, accepts t = true → Appends p ((v, t) :: Γ) (f (some v)) Q) :
    Appends p Γ (randomVariable accepts >>= f) Q := by
  refine Appends.bind (fun b => .of_randomVariable) fun found? Δ h => ?_
  cases found? with
  | none => exact fun b hs hk => hnone b hs fun hb => (hk hb).subset (List.subset_append_right ..)
  | some v =>
      obtain ⟨t, ht, rfl⟩ := h v rfl
      exact hsome v t ht

/-- A visible variable, if there is one of a type. -/
lemma randomOfType {f : Option Variable → Build β} (hnone : Appends p Γ (f none) Q)
    (hsome : ∀ v, Appends p ((v, t) :: Γ) (f (some v)) Q) :
    Appends p Γ (randomOfType t >>= f) Q :=
  Appends.randomVariable hnone fun v _ ht => eq_of_beq ht ▸ hsome v

/-- A computation runs the same when more is known. -/
lemma weaken (h : Appends p Δ m Q') (hΔ : Δ ⊆ Γ) : Appends p Γ m Q' :=
  fun b hs hk => h b hs fun hb => (hk hb).subset hΔ

end Appends

end Build

/-! ### Operations -/

namespace Operation

/-- Whether the operation opens and closes no block and imports nothing. -/
def isPlain (op : Operation) : Bool := !op.isBlockStart && !op.isBlockEnd && !op.isImport

variable {op : Operation} {ts : List StaticType} {function : Option FunctionSignature}

lemma isPlain_iff : op.isPlain = true ↔
    op.isBlockStart = false ∧ op.isBlockEnd = false ∧ op.isImport = false := by
  simp [isPlain, and_assoc]

lemma importCategory?_eq_none (h : op.isImport = false) : op.importCategory? = none := by
  cases op <;> first | rfl | cases h

lemma isLoopEdge_eq_false (hs : op.isBlockStart = false) (he : op.isBlockEnd = false) :
    op.isLoopEdge = false := by
  cases op <;>
    first
    | rfl
    | exact (Bool.false_ne_true hs.symm).elim
    | exact (Bool.false_ne_true he.symm).elim

/-- Operations of the script take values of the script. -/
lemma acceptsInputs_of_home (h : op.home = .script) :
    op.acceptsInputs ts function = ts.all (·.isScriptValue) := by
  cases op <;>
    first
    | rfl
    | cases (show World.module = .script from h)
    | cases (show World.function = .script from h)

end Operation

/-- What an operation and its inputs have to satisfy at a place, as far as the place and the known
variables tell. -/
structure Place.Allows (p : Place) (Γ : Known) (op : Operation) (inputs : List Variable) :
    Prop where
  count : ∀ τ, p.Types Γ τ → inputs.length < 2 ^ 64 - 1 → inputs.length = op.numInputs
  known : inputs ⊆ Γ.vars
  context : p.context.contains op.requiredContext = true
  inputTypes : ∀ τ, p.Types Γ τ → op.acceptsInputs (inputs.map τ) p.function? = true

/-- An operation without inputs is allowed wherever the context is right. -/
lemma Place.Allows.noInputs {p : Place} {Γ : Known} {op : Operation}
    (hc : p.context.contains op.requiredContext = true) (hn : op.numInputs = 0)
    (ha : ∀ f?, op.acceptsInputs [] f? = true) : p.Allows Γ op [] where
  count _ _ _ := hn.symm
  known := List.nil_subset _
  context := hc
  inputTypes _ _ := ha _

/-- Code of the script may use all variables that are known there. -/
lemma Place.Allows.script {p : Place} {Γ : Known} {op : Operation} {inputs : List Variable}
    (hp : p.context.isScript = true) (hop : op.home = .script)
    (hc : p.context.contains op.requiredContext = true) (hi : inputs ⊆ Γ.vars)
    (hn : inputs.length < 2 ^ 64 - 1 → inputs.length = op.numInputs) : p.Allows Γ op inputs where
  count _ _ := hn
  known := hi
  context := hc
  inputTypes τ hτ := by
    rw [Operation.acceptsInputs_of_home hop, List.all_map, List.all_eq_true]
    exact fun v hv => hτ.script hp v (hi hv)

/-- An operation whose operands have known types. -/
lemma Place.Allows.typed {p : Place} {Γ : Known} {op : Operation} {inputs : List Variable}
    (ts : List StaticType) (hc : p.context.contains op.requiredContext = true)
    (hi : List.Forall₂ (fun v t => (v, t) ∈ Γ) inputs ts) (hn : ts.length = op.numInputs)
    (ha : ∀ τ, p.Types Γ τ → op.acceptsInputs ts p.function? = true) : p.Allows Γ op inputs where
  count _ _ _ := hi.length_eq.trans hn
  known := by
    clear hn ha
    induction hi with
    | nil => exact List.nil_subset _
    | cons head _ ih => exact List.cons_subset.mpr ⟨Known.mem_vars_iff.mpr ⟨_, head⟩, ih⟩
  context := hc
  inputTypes τ hτ := by
    have hmap : List.Forall₂ Eq (inputs.map τ) ts :=
      List.forall₂_map_left_iff.mpr (hi.imp fun v t hv => hτ.known v t hv)
    rw [List.forall₂_eq_eq_eq] at hmap
    rw [hmap]
    exact ha τ hτ

namespace Builder

variable [Regard] {b b' : Builder} {p : Place} {Γ Δ : Known} {op : Operation}
  {inputs : List Variable} {v : Variable} {t : StaticType}

/-- An operation that the place allows fits. -/
lemma Sees.fits (hk : b.Sees p Γ) (hs : b.Settled) (hb : (b.emit op inputs).2.Regarded)
    (ha : p.Allows Γ op inputs)
    (hend : op.isBlockEnd = true → b.scopes.checkBlockEnd op = .ok ())
    (him : ∀ c, op.importCategory? = some c → b.canImport c = true) : b.Fits op inputs where
  count := ha.count _ (hk.types hs) (hb.operands (b.emitted op inputs) (by
    rw [toList_instructions_emit]
    exact List.mem_append_right _ (List.mem_singleton_self _)))
  visible v hv := hk.isVisible (ha.known hv)
  ending := hend
  context := Context.contains_trans hk.context ha.context
  inputTypes := by
    rw [hk.function]
    exact ha.inputTypes _ (hk.types hs)
  importable := him

/-- The variables that an operation defines may be used. -/
lemma usable_emitted (hs : b.Settled)
    (hb : (b.emit op inputs).2.Regarded) (hv : v ∈ (b.emitted op inputs).definedVariables) :
    (b.emit op inputs).2.Usable v := by
  have hn := hs.small_emitted hb.toBounded
  refine ⟨ScopeState.isVisible_apply_of_mem hv fun hst => ?_, fun hh => ?_⟩
  · have hl : (b.emitted op inputs).innerOutputs.length = op.numInnerOutputs :=
      length_freshVariables
    rw [Operation.numInnerOutputs_of_not hst] at hl
    exact List.length_eq_zero_iff.mp hl
  · -- nothing is hidden before it is defined
    change b.hidden.contains v = true at hh
    have hlt := hs.hiddenOld v hh
    rw [definedVariables_emitted] at hv
    have hlen := hb.numbers
    rw [length_allocated_emit, ← hs.next] at hlen
    have hle := (mem_freshVariables hv (by omega)).1
    rw [UInt32.lt_iff_toNat_lt] at hlt
    omega

/-- The outputs of an operation get the types of the operation. -/
lemma typeOf_emitted (hs : b.Settled) (hf : b.Fits op inputs)
    (hb : (b.emit op inputs).2.Regarded) (he : op ≠ .endWasmModule)
    (hv : (v, t) ∈ (b.emitted op inputs).outputs.zip (b.typer.outputTypes op inputs)) :
    (b.emit op inputs).2.typeOf v = t := by
  have ha := (hf.takes hs).admits
  have hm : (b.emitted op inputs).outputs.map (b.emit op inputs).2.typeOf =
      b.typer.outputTypes op inputs :=
    Typer.map_typeOf_outputs ha.arity
      (Validator.Sound.nodup_definedVariables ha (hs.small_emitted hb.toBounded)) he
  rw [← hm, ← List.map_prod_left_eq_zip, List.mem_map] at hv
  obtain ⟨w, -, hw⟩ := hv
  obtain ⟨rfl, rfl⟩ := Prod.mk.inj hw
  rfl

/-- **A plain operation**: the program goes on, and the outputs are known. -/
theorem Sound.emit_plain (hs : b.Sound) (hk : b.Regarded → b.Sees p Γ) (ha : p.Allows Γ op inputs)
    (hst : op.isBlockStart = false) (he : op.isBlockEnd = false)
    (him : b.Regarded → b.Settled → ∀ c, op.importCategory? = some c → b.canImport c = true) :
    b.Extends (b.emit op inputs).2 ∧ ((b.emit op inputs).2.Regarded →
      (b.emit op inputs).2.Knows p
        ((b.emitted op inputs).outputs.zip (b.typer.outputTypes op inputs))) := by
  have hf : (b.emit op inputs).2.Regarded → b.Settled → b.Fits op inputs := fun hb hset => by
    have hb' : b.Regarded := hb.of_emit
    exact (hk hb').fits hset hb ha (by simp [he]) (him hb' hset)
  have hext := hs.extends_emit hf hst he
  refine ⟨hext, fun hb => ?_⟩
  have hset := hs (hext.regarded hb)
  have hkb := (hk (hext.regarded hb)).mono hs hext hb
  have hu : ∀ v t, (v, t) ∈ (b.emitted op inputs).outputs.zip (b.typer.outputTypes op inputs) →
      (b.emit op inputs).2.Usable v := fun v t hv =>
    usable_emitted hset hb (List.mem_append_left _ (List.of_mem_zip hv).1)
  refine ⟨⟨hkb.context, hkb.function, fun v t hv => ⟨(hu v t hv).visible, ?_⟩⟩, fun v hv => ?_⟩
  · refine typeOf_emitted hset (hf hb hset) hb (fun h => ?_) hv
    rw [h] at he
    exact nomatch he
  · obtain ⟨t, ht⟩ := Known.mem_vars_iff.mp hv
    exact (hu v t ht).type

end Builder

namespace Build

variable {α β : Type} {b : Builder} {p : Place} {Γ Δ : Known} {op : Operation}
  {inputs : List Variable} {Q : α → Known → Prop} {v : Variable} {type : StaticType}
  {types : List StaticType}

lemma emitted_eq (ho : op.numOutputs = 1) (hi : op.numInnerOutputs = 0) :
    b.emitted op inputs = ⟨op, inputs, [⟨b.nextVariable⟩], []⟩ := by
  change (⟨op, inputs, Builder.freshVariables b.nextVariable op.numOutputs,
    Builder.freshVariables _ op.numInnerOutputs⟩ : Instruction) = _
  rw [ho, hi, Builder.freshVariables_succ]
  rfl

/-- Appending an operation with one output. -/
lemma value_eq (ho : op.numOutputs = 1) (hi : op.numInnerOutputs = 0) :
    value op inputs = emit op inputs >>= fun i => pure (firstOf i.outputs) := by
  funext b
  change _ = (firstOf (b.emitted op inputs).outputs, b.append (b.emitted op inputs))
  rw [emitted_eq ho hi]
  rfl

variable [Regard]

/-- An operation that opens and closes no block. -/
theorem AppendsAt.emit (ha : p.Allows Γ op inputs) (hst : op.isBlockStart = false)
    (he : op.isBlockEnd = false)
    (him : b.Regarded → b.Settled → ∀ c, op.importCategory? = some c → b.canImport c = true)
    (ht : b.Regarded → p.Types Γ b.typeOf → b.typer.outputTypes op inputs = types) :
    AppendsAt b p Γ (emit op inputs) fun i Δ =>
      i.outputs.length = op.numOutputs ∧ Δ = i.outputs.zip types := by
  intro hs hk
  obtain ⟨hext, hknown⟩ := hs.emit_plain (fun hb => (hk hb).toSees) ha hst he him
  refine ⟨hext, ?_, _, ⟨Builder.length_freshVariables, rfl⟩, fun hb => ?_⟩
  · refine hs.guides_emit hext.toReaches (Operation.isLoopEdge_eq_false hst he) fun hb _ v hv => ?_
    exact (hk (hext.regarded hb)).usable (ha.known hv)
  · have hb' := hext.regarded hb
    have := hknown hb
    rwa [ht hb' ((hk hb').toSees.types (hs hb'))] at this

section

variable (ha : p.Allows Γ op inputs) (hst : op.isBlockStart = false) (he : op.isBlockEnd = false)
  (him : b.Regarded → b.Settled → ∀ c, op.importCategory? = some c → b.canImport c = true)
include ha hst he him

/-- An operation with one output, whose type follows from what is known. -/
theorem AppendsAt.value (ho : op.numOutputs = 1)
    (ht : b.Regarded → p.Types Γ b.typeOf → b.typer.outputTypes op inputs = [type]) :
    AppendsAt b p Γ (value op inputs) fun v Δ => Δ = [(v, type)] := by
  rw [value_eq ho (Operation.numInnerOutputs_of_not hst)]
  refine (AppendsAt.emit ha hst he him ht).bind fun i Δ ⟨hl, hΔ⟩ => ?_
  obtain ⟨v, hv⟩ := List.length_eq_one_iff.mp (hl.trans ho)
  rw [hv] at hΔ ⊢
  exact .pure rfl (by simp [hΔ, firstOf])

/-- An operation with one output, whose type does not matter. -/
lemma AppendsAt.value_vars (ho : op.numOutputs = 1) :
    AppendsAt b p Γ (Build.value op inputs) fun v Δ => Δ.vars = [v] := by
  have hl : (b.typer.outputTypes op inputs).length = op.numOutputs := Typer.length_outputTypes
  obtain ⟨type, ht⟩ := List.length_eq_one_iff.mp (hl.trans ho)
  exact (AppendsAt.value ha hst he him ho fun _ _ => ht).mono fun v Δ h => by rw [h]; rfl

/-- An operation that is appended for its effect. -/
lemma AppendsAt.perform : AppendsAt b p Γ (perform op inputs) fun _ Δ => Δ = [] :=
  (AppendsAt.emit ha hst he him fun _ _ => rfl).bind fun _ _ _ => .pure rfl (List.nil_subset _)

end

/-! ### Plain operations at places -/

section

variable (hop : op.isPlain = true) (ha : p.Allows Γ op inputs)
include hop ha

/-- **A plain operation with one output** whose type follows from what is known. -/
theorem appends_value (ho : op.numOutputs = 1)
    (ht : ∀ t : Typer, p.Types Γ t.typeOf → t.outputTypes op inputs = [type]) :
    Appends p Γ (value op inputs) fun v Δ => Δ = [(v, type)] := by
  obtain ⟨hst, he, hi⟩ := Operation.isPlain_iff.mp hop
  exact fun b => .value ha hst he
    (fun _ _ c hc => by rw [Operation.importCategory?_eq_none hi] at hc; exact nomatch hc) ho
    fun _ h => ht _ h

/-- **A plain operation with one output.** -/
theorem appends_value_vars (ho : op.numOutputs = 1) :
    Appends p Γ (value op inputs) fun v Δ => Δ.vars = [v] := by
  obtain ⟨hst, he, hi⟩ := Operation.isPlain_iff.mp hop
  exact fun b => .value_vars ha hst he
    (fun _ _ c hc => by rw [Operation.importCategory?_eq_none hi] at hc; exact nomatch hc) ho

/-- **A plain operation** that is appended for its effect. -/
theorem appends_perform : Appends p Γ (perform op inputs) fun _ Δ => Δ = [] := by
  obtain ⟨hst, he, hi⟩ := Operation.isPlain_iff.mp hop
  exact fun b => .perform ha hst he
    (fun _ _ c hc => by rw [Operation.importCategory?_eq_none hi] at hc; exact nomatch hc)

end

end Build

end EngineFuzz
