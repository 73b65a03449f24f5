import Mathlib
import EngineFuzz.Proofs.Generation.Statements

/-!
# Counted loops

A counted loop hides its counter and its label before the code inside is generated, so that this
code uses neither of them, and goes on to hide them.

* `Build.appends_countedLoop`: a counted loop is well formed, and nothing but the loop itself uses
  what steers it.
-/

namespace EngineFuzz

namespace Build

variable {α : Type} {b o : Builder} {p p' : Place} {Γ Δ : Known} {op : Operation}
  {inputs : List Variable} {v c l : Variable}

/-! ### Instructions with few variables -/

lemma emitted_effect (ho : op.numOutputs = 0) (hi : op.numInnerOutputs = 0) :
    b.emitted op inputs = ⟨op, inputs, [], []⟩ := by
  change (⟨op, inputs, Builder.freshVariables b.nextVariable op.numOutputs,
    Builder.freshVariables _ op.numInnerOutputs⟩ : Instruction) = _
  rw [ho, hi]
  rfl

lemma emitted_value (ho : op.numOutputs = 1) (hi : op.numInnerOutputs = 0) :
    b.emitted op inputs = ⟨op, inputs, [firstOf (b.emitted op inputs).outputs], []⟩ := by
  rw [emitted_eq ho hi]
  rfl

lemma emitted_inner (ho : op.numOutputs = 0) (hi : op.numInnerOutputs = 1) :
    b.emitted op inputs = ⟨op, inputs, [], [firstOf (b.emitted op inputs).innerOutputs]⟩ := by
  change (⟨op, inputs, Builder.freshVariables b.nextVariable op.numOutputs,
    Builder.freshVariables _ op.numInnerOutputs⟩ : Instruction) = ⟨op, inputs, [],
      [firstOf (Builder.freshVariables _ op.numInnerOutputs)]⟩
  rw [ho, hi]
  rfl

lemma emit_bind {f : Instruction → Build α} :
    (emit op inputs >>= f) b = f (b.emitted op inputs) (b.emit op inputs).2 := rfl

/-- The end of the body of a counted loop. -/
def countDown (counter label : Variable) : Build Unit := do
  let i ← emit (.wasmConst (.i32 1)) []
  let j ← emit (.wasmIntBinary .bits32 .sub) [counter, firstOf i.outputs]
  let _ ← emit .wasmReassign [counter, firstOf j.outputs]
  let _ ← emit .wasmBranchIf [label, firstOf j.outputs]

lemma countDown_eq {one next : Variable}
    (hone : firstOf (b.emitted (.wasmConst (.i32 1)) []).outputs = one)
    (hnext : firstOf ((b.emit (.wasmConst (.i32 1)) []).2.emitted
      (.wasmIntBinary .bits32 .sub) [c, one]).outputs = next) :
    (countDown c l b).2 = ((((b.emit (.wasmConst (.i32 1)) []).2.emit
      (.wasmIntBinary .bits32 .sub) [c, one]).2.emit .wasmReassign [c, next]).2.emit
        .wasmBranchIf [l, next]).2 := by
  simp only [countDown, emit_bind, hone, hnext]
  rfl

/-- The beginning of a counted loop, with its counter and its label. -/
def enterLoop : Build (Variable × Variable) := do
  let i ← emit (.wasmConst (.i32 10)) []
  hide (firstOf i.outputs)
  let j ← emit .wasmBeginLoop []
  hide (firstOf j.innerOutputs)
  return (firstOf i.outputs, firstOf j.innerOutputs)

lemma countedLoop_eq {body : Build α} : countedLoop body = (do
    let (counter, label) ← enterLoop
    let a ← body
    countDown counter label
    let _ ← emit .wasmEndLoop []
    return a) := by
  have hone : wasmInteger 1 = emit (.wasmConst (.i32 1)) [] >>= fun i => pure (firstOf i.outputs) :=
    value_eq rfl rfl
  have hten : wasmInteger loopIterations =
      emit (.wasmConst (.i32 10)) [] >>= fun i => pure (firstOf i.outputs) := value_eq rfl rfl
  have hsub (inputs : List Variable) : value (.wasmIntBinary .bits32 .sub) inputs =
      emit (.wasmIntBinary .bits32 .sub) inputs >>= fun i => pure (firstOf i.outputs) :=
    value_eq rfl rfl
  simp only [countedLoop, hone, hten, hsub]
  rfl

end Build

namespace Builder

variable {b b' o : Builder} {p p' : Place} {Γ Δ : Known} {op : Operation}
  {inputs : List Variable} {v c l : Variable} {t : StaticType} {block : OpenBlock} {d d' : Context}

/-! ### Variables that are hidden -/

lemma Sees.hide (h : b.Sees p Γ) : (Build.hide v b).2.Sees p Γ := ⟨h.context, h.function, h.visible⟩

/-- A variable of a function that is hidden steers a loop. -/
lemma Sees.guards (h : b.Sees p Γ) (hs : b.Settled) (hv : (v, t) ∈ Γ)
    (ht : t.isScriptValue = false) : (Build.hide v b).2.Guards v where
  hidden := by rw [contains_hide, beq_self_eq_true, Bool.true_or]
  type := by rw [← ht, ← (h.visible v t hv).2]; rfl
  old := hs.lt_next (h.visible v t hv).1

variable [Regard]

/-- What is known outside of a block is known inside. -/
lemma Opens.within (ho : o.Opens block d b) (hs : o.Sound) (hk : o.Regarded → o.Knows p Γ)
    (hd : d.contains d' = true) : o.Within p block Γ b (p.inside block d') Γ where
  opens := ⟨d, ho⟩
  place hb := (hk (ho.regarded hb)).toSees.nil.toSees
  behind hb := ho.knowsBehind hs hb (hk (ho.regarded hb))
  inside hb := (ho.knowsBehind hs hb (hk (ho.regarded hb))).offers.knows
    (ho.sees hs hb (hk (ho.regarded hb)).toSees.nil.toSees hd)

/-- Code inside a block, of which nothing is known. -/
lemma Within.extend (h : o.Within p block Γ b p' Δ) (hs : o.Sound) (he : b.Extends b') :
    o.Within p block Γ b' p' Δ :=
  h.goes_on hs he fun hb => ((h.inside (he.regarded hb)).mono h.sound he hb).toSees.nil

/-- A plain operation on visible variables. -/
lemma Sound.emit_sees (hs : b.Sound) (hk : b.Regarded → b.Sees p Γ) (hop : op.isPlain = true)
    (ha : p.Allows Γ op inputs) : b.Extends (b.emit op inputs).2 ∧
      ((b.emit op inputs).2.Regarded → (b.emit op inputs).2.Sees p
        ((b.emitted op inputs).outputs.zip (b.typer.outputTypes op inputs) ++ Γ)) := by
  obtain ⟨hst, he, hi⟩ := Operation.isPlain_iff.mp hop
  obtain ⟨hext, hknows⟩ := hs.emit_plain hk ha hst he fun _ _ c hc => by
    rw [Operation.importCategory?_eq_none hi] at hc
    exact nomatch hc
  exact ⟨hext, fun hb => (hknows hb).toSees.append ((hk (hext.regarded hb)).mono hs hext hb)⟩

/-- A plain operation with one output. -/
lemma Sound.value_sees (hs : b.Sound) (hk : b.Regarded → b.Sees p Γ) (hop : op.isPlain = true)
    (ha : p.Allows Γ op inputs) (ho : op.numOutputs = 1)
    (ht : b.typer.outputTypes op inputs = [t]) : b.Extends (b.emit op inputs).2 ∧
      ((b.emit op inputs).2.Regarded → (b.emit op inputs).2.Sees p
        ((Build.firstOf (b.emitted op inputs).outputs, t) :: Γ)) := by
  have h := hs.emit_sees hk hop ha
  rw [ht] at h
  change _ ∧ (_ → Sees _ p ((freshVariables b.nextVariable op.numOutputs).zip [t] ++ Γ)) at h
  change _ ∧ (_ → Sees _ p ((Build.firstOf (freshVariables b.nextVariable op.numOutputs), t) :: Γ))
  rw [ho] at h ⊢
  exact h

/-- A plain operation without outputs. -/
lemma Sound.effect_sees (hs : b.Sound) (hk : b.Regarded → b.Sees p Γ) (hop : op.isPlain = true)
    (ha : p.Allows Γ op inputs) : b.Extends (b.emit op inputs).2 ∧
      ((b.emit op inputs).2.Regarded → (b.emit op inputs).2.Sees p Γ) := by
  obtain ⟨hext, -⟩ := hs.emit_sees hk hop ha
  exact ⟨hext, fun hb => (hk (hext.regarded hb)).mono hs hext hb⟩

section

variable (hp : p.context.isWasmFunction = true) (hs : b.Sound)
include hp hs

/-- The counter of a loop, which is hidden. -/
lemma Sound.hides_counter (hk : b.Regarded → b.Knows p Γ) :
    let c := Build.firstOf (b.emitted (.wasmConst (.i32 10)) []).outputs
    let b' := (Build.hide c (b.emit (.wasmConst (.i32 10)) []).2).2
    b.Extends b' ∧ (b'.Regarded → b'.Guards c ∧ b'.Sees p [(c, .wasm .i32)]) := by
  intro c b'
  have hop : p.Allows [] (.wasmConst (.i32 10)) [] := .noInputs hp rfl fun _ => rfl
  obtain ⟨hext, hsees⟩ := hs.emit_sees (fun hb => (hk hb).toSees.nil.toSees) rfl hop
  have hc : c.number = b.nextVariable := UInt32.add_zero _
  have hknown : (b.emit (.wasmConst (.i32 10)) []).2.Regarded →
      (b.emit (.wasmConst (.i32 10)) []).2.Sees p [(c, .wasm .i32)] := hsees
  refine ⟨hext.hide fun hb => ⟨?_, fun h => ?_⟩, fun hb => ?_⟩
  · exact (hext.sound hb).lt_next ((hknown hb).visible c _ (List.mem_singleton_self _)).1
  · exact absurd h (by rw [hc]; exact UInt32.lt_irrefl _)
  · have hb' := agrees_hide.regarded hb
    exact ⟨(hknown hb').guards (hext.sound hb') (List.mem_singleton_self _) rfl, (hknown hb').hide⟩

/-- The label of a loop, which is hidden. -/
lemma Sound.hides_label (hk : b.Regarded → b.Knows p Γ) :
    let l := Build.firstOf (b.emitted .wasmBeginLoop []).innerOutputs
    let b' := (Build.hide l (b.emit .wasmBeginLoop []).2).2
    let p' := p.inside (ScopeState.openedBlock .wasmBeginLoop none) .wasmFunction
    b.Opens (ScopeState.openedBlock .wasmBeginLoop none) .wasmFunction b' ∧
      (b'.Regarded → b'.Guards l ∧ b'.Sees p' [(l, .label)]) := by
  intro l b' p'
  have hop : p.Allows Γ .wasmBeginLoop [] := .noInputs hp rfl fun _ => rfl
  have ho := hs.opens_emit (Knows.fits_start hk hop rfl rfl) rfl rfl
  have hw := hs.within_emit hk hop rfl rfl (d := .wasmFunction) fun _ _ => Context.contains_self
  have hknown : (b.emit .wasmBeginLoop []).2.Regarded →
      (b.emit .wasmBeginLoop []).2.Sees p' [(l, .label)] := fun hb =>
    ((hw.inside hb).subset (List.subset_append_left ..)).toSees
  have hl : l.number = b.nextVariable := by
    change b.nextVariable + 0 + 0 = b.nextVariable
    rw [UInt32.add_zero, UInt32.add_zero]
  refine ⟨ho.hide fun hb => ⟨?_, fun h => ?_⟩, fun hb => ?_⟩
  · exact (ho.sound hb).lt_next ((hknown hb).visible l _ (List.mem_singleton_self _)).1
  · exact absurd h (by rw [hl]; exact UInt32.lt_irrefl _)
  · have hb' := agrees_hide.regarded hb
    exact ⟨(hknown hb').guards (ho.sound hb') (List.mem_singleton_self _) rfl, (hknown hb').hide⟩

/-- A counted loop is entered. -/
lemma Sound.enters_loop (hk : b.Regarded → b.Knows p Γ) :
    let b' := (Build.enterLoop b).2
    let c := (Build.enterLoop b).1.1
    let l := (Build.enterLoop b).1.2
    let p' := p.inside (ScopeState.openedBlock .wasmBeginLoop none) .wasmFunction
    ∃ o : Builder, b.Extends o ∧
      o.Within p (ScopeState.openedBlock .wasmBeginLoop none) Γ b' p' Γ ∧
        (b'.Regarded → b'.Guards c ∧ b'.Guards l ∧
          b'.Sees p' [(c, .wasm .i32), (l, .label)]) := by
  intro b' c l p'
  obtain ⟨he, hcounter⟩ := hs.hides_counter hp hk
  have hk' := fun hb => (hk (he.regarded hb)).mono hs he hb
  obtain ⟨ho, hlabel⟩ := he.sound.hides_label hp hk'
  refine ⟨_, he, ho.within he.sound hk' Context.contains_self, fun hb => ?_⟩
  obtain ⟨hc, hcs⟩ := hcounter (ho.regarded hb)
  obtain ⟨hl, hls⟩ := hlabel hb
  have hcs' := ho.sees he.sound hb hcs Context.contains_self
  exact ⟨ho.toReaches.guards he.sound hb hc, hl, hcs'.append hls⟩

/-- The end of the body of a counted loop is well formed. -/
lemma Sound.extends_countDown
    (hsees : b.Regarded → b.Sees p [(c, .wasm .i32), (l, .label)]) :
    b.Extends (Build.countDown c l b).2 := by
  -- the constant, the difference, the assignment and the branch
  have hconst : p.Allows [(c, .wasm .i32), (l, .label)] (.wasmConst (.i32 1)) [] :=
    .noInputs hp rfl fun _ => rfl
  obtain ⟨he₁, hs₁⟩ := hs.value_sees hsees rfl hconst rfl rfl
  generalize hone : Build.firstOf (b.emitted (.wasmConst (.i32 1)) []).outputs = one at hs₁
  have hsub : p.Allows [(one, .wasm .i32), (c, .wasm .i32), (l, .label)]
      (.wasmIntBinary .bits32 .sub) [c, one] :=
    .typed [.wasm .i32, .wasm .i32] hp (by simp) rfl fun _ _ => rfl
  obtain ⟨he₂, hs₂⟩ := he₁.sound.value_sees hs₁ rfl hsub rfl rfl
  generalize hnext : Build.firstOf ((b.emit (.wasmConst (.i32 1)) []).2.emitted
    (.wasmIntBinary .bits32 .sub) [c, one]).outputs = next at hs₂
  have hassign : p.Allows ((next, .wasm .i32) :: [(one, .wasm .i32), (c, .wasm .i32), (l, .label)])
      .wasmReassign [c, next] :=
    .typed [.wasm .i32, .wasm .i32] hp (by simp) rfl fun _ _ => rfl
  obtain ⟨he₃, hs₃⟩ := he₂.sound.effect_sees hs₂ rfl hassign
  have hbranch : p.Allows ((next, .wasm .i32) :: [(one, .wasm .i32), (c, .wasm .i32), (l, .label)])
      .wasmBranchIf [l, next] :=
    .typed [.label, .wasm .i32] hp (by simp) rfl fun _ _ => rfl
  obtain ⟨he₄, -⟩ := he₃.sound.effect_sees hs₃ rfl hbranch
  rw [Build.countDown_eq hone hnext]
  exact ((he₁.trans hs he₂).trans hs he₃).trans hs he₄

end

omit [Regard] in
/-- The instructions at the end of the body of a counted loop. -/
lemma toList_countDown : ∃ one next,
    (Build.countDown c l b).2.instructions.toList = b.instructions.toList ++
      [⟨.wasmConst (.i32 1), [], [one], []⟩,
        ⟨.wasmIntBinary .bits32 .sub, [c, one], [next], []⟩,
        ⟨.wasmReassign, [c, next], [], []⟩, ⟨.wasmBranchIf, [l, next], [], []⟩] := by
  have h₁ := @toList_instructions_emit b (.wasmConst (.i32 1)) []
  rw [Build.emitted_value rfl rfl] at h₁
  generalize hone : Build.firstOf (b.emitted (.wasmConst (.i32 1)) []).outputs = one at h₁
  have h₂ := @toList_instructions_emit (b.emit (.wasmConst (.i32 1)) []).2
    (.wasmIntBinary .bits32 .sub) [c, one]
  rw [Build.emitted_value rfl rfl, h₁] at h₂
  generalize hnext : Build.firstOf ((b.emit (.wasmConst (.i32 1)) []).2.emitted
    (.wasmIntBinary .bits32 .sub) [c, one]).outputs = next at h₂
  have h₃ := @toList_instructions_emit ((b.emit (.wasmConst (.i32 1)) []).2.emit
    (.wasmIntBinary .bits32 .sub) [c, one]).2 .wasmReassign [c, next]
  rw [Build.emitted_effect rfl rfl, h₂] at h₃
  have h₄ := @toList_instructions_emit (((b.emit (.wasmConst (.i32 1)) []).2.emit
    (.wasmIntBinary .bits32 .sub) [c, one]).2.emit .wasmReassign [c, next]).2
    .wasmBranchIf [l, next]
  rw [Build.emitted_effect rfl rfl, h₃, List.append_assoc, List.append_assoc,
    List.append_assoc] at h₄
  rw [Build.countDown_eq hone hnext]
  exact ⟨one, next, h₄⟩

end Builder

namespace Build

variable [Regard] {α : Type} {b : Builder} {p : Place} {Γ : Known} {body : Build α}

omit [Regard] in
lemma enterLoop_eq {counter label : Variable}
    (hcounter : firstOf (b.emitted (.wasmConst (.i32 10)) []).outputs = counter)
    (hlabel : firstOf ((hide counter (b.emit (.wasmConst (.i32 10)) []).2).2.emitted
      .wasmBeginLoop []).innerOutputs = label) :
    enterLoop b = ((counter, label), (hide label ((hide counter
      (b.emit (.wasmConst (.i32 10)) []).2).2.emit .wasmBeginLoop []).2).2) := by
  have hhide {β : Type} {v : Variable} {f : Build β} {b' : Builder} :
      (do hide v; f) b' = f (hide v b').2 := rfl
  simp only [enterLoop, emit_bind, hhide, hcounter, hlabel]
  rfl

omit [Regard] in
/-- The first instructions of a counted loop. -/
lemma toList_enterLoop : (enterLoop b).2.instructions.toList = b.instructions.toList ++
    [⟨.wasmConst (.i32 10), [], [(enterLoop b).1.1], []⟩,
      ⟨.wasmBeginLoop, [], [], [(enterLoop b).1.2]⟩] := by
  have hlabel (b' : Builder) : (b'.emit .wasmBeginLoop []).2.instructions.toList =
      b'.instructions.toList ++ [⟨.wasmBeginLoop, [], [],
        [firstOf (b'.emitted .wasmBeginLoop []).innerOutputs]⟩] := by
    rw [← emitted_inner rfl rfl, Builder.toList_instructions_emit]
  rw [enterLoop_eq rfl rfl, Builder.agrees_hide.instructions, hlabel,
    Builder.agrees_hide.instructions, Builder.toList_instructions_emit, List.append_assoc]
  nth_rewrite 1 [emitted_value rfl rfl]
  rfl

/-- **A counted loop** is well formed if its body is, and nothing else uses what steers it. -/
theorem appends_countedLoop (hp : p.context.isWasmFunction = true)
    (hbody : ∀ p' : Place, p'.context.isWasmFunction = true →
      Appends p' Γ body fun _ _ => True) :
    Appends p Γ (countedLoop body) fun _ Δ => Δ = [] := by
  intro b hs hk
  have hin : Context.wasmFunction.isWasmFunction = true := Context.contains_self
  obtain ⟨o, heo, hw, hloop⟩ := hs.enters_loop hp hk
  have hlist := toList_enterLoop (b := b)
  rw [countedLoop_eq]
  change b.Yields p _ ((do
    let a ← body
    countDown (enterLoop b).1.1 (enterLoop b).1.2
    let _ ← emit .wasmEndLoop []
    return a) (enterLoop b).2).2
  generalize (enterLoop b).2 = b₁ at *
  generalize (enterLoop b).1.1 = c at *
  generalize (enterLoop b).1.2 = l at *
  change b.Yields p _ ((countDown c l (body b₁).2).2.emit .wasmEndLoop []).2
  -- the body, the end of the body, and the end of the loop
  obtain ⟨he₂, hg₂, -⟩ := hbody _ hin b₁ hw.sound hw.inside
  generalize (body b₁).2 = b₂ at *
  have hw₂ := hw.extend heo.sound he₂
  have he₃ := hw₂.sound.extends_countDown hin fun hb =>
    (hloop (he₂.regarded hb)).2.2.mono hw.sound he₂ hb
  obtain ⟨one, next, hlist₃⟩ := Builder.toList_countDown (b := b₂) (c := c) (l := l)
  generalize (countDown c l b₂).2 = b₃ at *
  have hw₃ := hw₂.extend heo.sound he₃
  have hend (q : Place) (hq : q.context = .wasmFunction) : q.Allows Γ .wasmEndLoop [] :=
    .noInputs (by rw [hq]; exact hin) rfl fun _ => rfl
  obtain ⟨he₄, -⟩ := hw₃.close_emit (hend _ rfl) rfl rfl heo.sound rfl
  have hext := heo.trans hs he₄
  have hr₄ := hw₃.sound.reaches_emit (hw₃.fits (hend _ rfl) rfl rfl)
  have hlist₄ := @Builder.toList_instructions_emit b₃ .wasmEndLoop []
  rw [emitted_effect rfl rfl] at hlist₄
  generalize (b₃.emit .wasmEndLoop []).2 = b₄ at *
  refine ⟨hext, fun hb is his S hS => ?_, [], rfl, fun hb =>
    (((hk (hext.regarded hb)).mono hs hext hb)).toSees.nil⟩
  obtain ⟨js, hjs⟩ := he₂.toReaches.grows
  obtain rfl : is = (CountedLoop.mk c l one next js).code := by
    rw [hlist₄, hlist₃, hjs, hlist] at his
    simp only [List.append_assoc, List.append_cancel_left_eq] at his
    rw [← his]
    simp [CountedLoop.code, CountedLoop.entry, CountedLoop.exit]
  -- what steers the loop is kept from the body, and goes on to be kept from generators
  have hb₃ := hr₄.regarded hb
  have hb₂ := he₃.regarded hb₃
  have hb₁ := he₂.regarded hb₂
  obtain ⟨hc, hl, -⟩ := hloop hb₁
  obtain ⟨S', hsteers, hS'⟩ := hg₂ hb₂ js hjs (l :: c :: S) fun v hv => by
    rcases List.mem_cons.mp hv with rfl | hv
    · exact hl
    rcases List.mem_cons.mp hv with rfl | hv
    · exact hc
    · exact (heo.toReaches.trans hs hw.opens.choose_spec.toReaches).guards hs hb₁ (hS v hv)
  exact ⟨S', .counted hsteers, fun v hv => hr₄.guards hw₃.sound hb
    (he₃.toReaches.guards hw₂.sound hb₃ (hS' v hv))⟩

end Build

end EngineFuzz
