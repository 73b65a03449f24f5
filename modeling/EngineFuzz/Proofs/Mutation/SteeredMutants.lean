import Mathlib
import EngineFuzz.Proofs.Mutation.RebuiltLoops

/-!
# Loops of mutants

What steers the loops of a program is frozen while a mutant is made, so that the loops of the mutant
are counted as those of the program are.

* `Program.isControl_of_code`: what steers a counted loop is frozen.
* `Mutation.Treats.steered`, `Mutation.rebuild_steered`: a program that is rebuilt is steered.
* `Toolbox.loops_steered`: generated programs are steered, and so are mutants of steered programs.
-/

namespace EngineFuzz

/-! ### Frozen instructions -/

namespace Program

variable {p : Program} {l : CountedLoop} {front after : List Instruction} {i j : Instruction}
  {v : Variable}

/-- Whether the variable steers a loop of the program. -/
def isSteering (p : Program) (v : Variable) : Bool :=
  (Std.TreeSet.ofList (p.instructions.flatMap (·.steering))).contains v

/-- Whether the instruction has to do with a variable that steers a loop. -/
def touches (p : Program) (i : Instruction) : Bool :=
  i.inputs.any p.isSteering || i.definedVariables.any p.isSteering

/-- Whether the instruction steers a loop. -/
def isControl (p : Program) (i : Instruction) : Bool :=
  p.touches i || i.outputs.any
    (Std.TreeSet.ofList ((p.instructions.filter p.touches).flatMap (·.inputs))).contains

lemma loopControl_eq : p.loopControl = p.instructions.map p.isControl := rfl

lemma isSteering_of_mem (hi : i ∈ p.instructions) (hv : v ∈ i.steering) :
    p.isSteering v = true := by
  rw [isSteering, Std.TreeSet.contains_ofList, List.contains_iff_mem]
  exact List.mem_flatMap.mpr ⟨i, hi, hv⟩

lemma touches_of_mem (hv : v ∈ i.inputs ∨ v ∈ i.definedVariables) (h : p.isSteering v = true) :
    p.touches i = true := by
  rw [touches, Bool.or_eq_true, List.any_eq_true, List.any_eq_true]
  exact hv.imp (fun hv => ⟨v, hv, h⟩) fun hv => ⟨v, hv, h⟩

lemma isControl_of_touches (h : p.touches i = true) : p.isControl i = true := by
  rw [isControl, h, Bool.true_or]

/-- An operand of an instruction that has to do with a steering variable. -/
lemma isControl_of_operand (hj : j ∈ p.instructions) (h : p.touches j = true) (hv : v ∈ j.inputs)
    (hi : v ∈ i.outputs) : p.isControl i = true := by
  rw [isControl, Bool.or_eq_true, List.any_eq_true]
  refine .inr ⟨v, hi, ?_⟩
  rw [Std.TreeSet.contains_ofList, List.contains_iff_mem]
  exact List.mem_flatMap.mpr ⟨j, List.mem_filter.mpr ⟨hj, h⟩, hv⟩

/-- **What steers a counted loop** is frozen, apart from the end of the loop. -/
theorem isControl_of_code (hp : p.instructions = front ++ l.code ++ after)
    (hi : i ∈ l.entry ++ l.exit.dropLast) : p.isControl i = true := by
  have hmem {k : Instruction} (hk : k ∈ l.entry ++ l.exit) : k ∈ p.instructions := by
    rw [hp, CountedLoop.code]
    simp only [List.mem_append] at hk ⊢
    tauto
  have hlabel : p.isSteering l.label = true :=
    isSteering_of_mem (i := ⟨.wasmBeginLoop, [], [], [l.label]⟩)
      (hmem (by simp [CountedLoop.entry])) (by simp [Instruction.steering])
  have hcounter : p.isSteering l.counter = true :=
    isSteering_of_mem (i := ⟨.wasmReassign, [l.counter, l.next], [], []⟩)
      (hmem (by simp [CountedLoop.exit])) (by simp [Instruction.steering])
  have hsub : p.touches ⟨.wasmIntBinary .bits32 .sub, [l.counter, l.one], [l.next], []⟩ = true :=
    touches_of_mem (.inl (by simp)) hcounter
  simp only [CountedLoop.entry, CountedLoop.exit, List.dropLast, List.mem_append, List.mem_cons,
    List.not_mem_nil, or_false] at hi
  rcases hi with (rfl | rfl) | rfl | rfl | rfl | rfl
  · exact isControl_of_touches
      (touches_of_mem (.inr (by simp [Instruction.definedVariables])) hcounter)
  · exact isControl_of_touches
      (touches_of_mem (.inr (by simp [Instruction.definedVariables])) hlabel)
  · exact isControl_of_operand (hmem (by simp [CountedLoop.exit])) hsub (v := l.one) (by simp)
      (by simp)
  · exact isControl_of_touches hsub
  · exact isControl_of_touches (touches_of_mem (.inl (by simp)) hcounter)
  · exact isControl_of_touches (touches_of_mem (.inl (by simp)) hlabel)

end Program

namespace Mutation

variable {p mutant : Program} {ts : List Treatment} {is : List Instruction} {t : Treatment}
  {b : Builder} {chosen : List Bool} {f : Instruction → Bool}

lemma map_instruction_treatments {frozen : List Bool} :
    (treatments is chosen frozen).map (·.instruction) = is := by
  induction is generalizing chosen frozen with
  | nil => rfl
  | cons i is ih => rw [treatments, List.map_cons, ih]

/-- Flags that are computed from the instructions. -/
lemma isFrozen_of_mem_treatments (ht : t ∈ treatments is chosen (is.map f)) :
    t.isFrozen = f t.instruction := by
  induction is generalizing chosen with
  | nil => cases ht
  | cons i is ih =>
      rw [treatments, List.map_cons, List.headD_cons, List.tail_cons] at ht
      rcases List.mem_cons.mp ht with rfl | ht
      · rfl
      · exact ih ht

/-- What is chosen is not frozen. -/
def Spares (ts : List Treatment) : Prop := ∀ t ∈ ts, t.isFrozen = true → t.isChosen = false

/-- **A program that is rebuilt** from a steered one is steered, whichever mutator is at work. -/
theorem Treats.steered [Regard] {b' : Builder} {js : List Instruction} {e : Environment}
    (h : Treats ts b b' js) (hs : b.Sound) (hn : b.Named) (hb : b'.Regarded)
    (hts : ts.map (·.instruction) = p.instructions)
    (hfrozen : ∀ t ∈ ts, t.isFrozen = p.isControl t.instruction) (hspares : Spares ts)
    (hp : p.Steered) (hjs : mutant.instructions = js) (hvalid : mutant.validate e = .ok ())
    (hsmall : mutant.NumbersSmall) : mutant.Steered := by
  intro before i rest hi hop
  rw [hjs] at hi
  obtain ⟨ts₁, t, ts₂, m, m', j, gen, js₁, js₂, k, rest', rfl, h₁, hr, ht, h₂, rfl, hj, rfl⟩ :=
    h.exists_of_mem hi
  have hm : m.Sound := (h₁.reaches hs).sound
  by_cases hloop : t.instruction.operation = .wasmBeginLoop
  · -- the loop was there before
    obtain ⟨l, front, after, hl, hpl, halone⟩ := hp (ts₁.map (·.instruction)) t.instruction
      (ts₂.map (·.instruction)) (by rw [← hts, List.map_append, List.map_cons]) hloop
    obtain ⟨tf, tc, body, countDown, last, ta, rfl, rfl, rfl, rfl, hL⟩ :=
      Treatment.exists_loop (hts.trans hpl) (by simpa using hl)
    have hkept : ∀ e ∈ tc :: t :: countDown, e.IsKept := by
      intro e he
      have hmem : e ∈ tf ++ [tc] ++ t :: (body ++ (countDown ++ last :: ta)) := by
        simp only [List.mem_cons, List.mem_append, List.not_mem_nil, or_false] at he ⊢
        tauto
      have hcode : e.instruction ∈ l.entry ++ l.exit.dropLast := by
        rw [CountedLoop.entry, ← hL.countDown, ← hL.counter, ← hL.label]
        simp only [List.mem_cons, List.mem_append, List.not_mem_nil, or_false] at he ⊢
        rcases he with rfl | rfl | he
        · exact .inl (.inl rfl)
        · exact .inl (.inr rfl)
        · exact .inr (List.mem_map_of_mem he)
      have hf := (hfrozen e hmem).trans (Program.isControl_of_code hpl hcode)
      exact ⟨hf, hspares e hmem hf⟩
    obtain ⟨rfl, l', front', after', hlen, heq, hu⟩ :=
      Treats.exists_copied h₁ hr ht h₂ hs hn hb hL hkept halone
    obtain ⟨rfl, rfl, rfl⟩ : k = [] ∧ j = i ∧ rest' = [] := by
      cases k <;> simp_all
    have hmutant : mutant.instructions = front' ++ l'.code ++ after' := by
      rw [hjs, hi, ← heq]
      simp
    exact ⟨l', front', after', by simpa using hlen, hmutant, Program.alone hvalid hsmall hmutant hu⟩
  · -- the loop was inserted
    cases k with
    | nil =>
        obtain ⟨rfl, -⟩ := List.cons.inj hj
        have hform := ht.form
        rw [hop] at hform
        exact absurd (Operation.eq_wasmBeginLoop_of_form hform.symm) hloop
    | cons j' k =>
        obtain ⟨rfl, hgen⟩ := List.cons.inj hj
        have hbm := hr.regarded ((h₂.reaches hr.sound).regarded hb)
        obtain ⟨l, front, after, hl, hgen', hu⟩ := Treats.exists_generated hm (h₁.named hs hbm hn)
          hr ht h₂ hb hgen hop
        have hmutant : mutant.instructions = (js₁ ++ j :: front) ++ l.code ++ (after ++ js₂) := by
          have : mutant.instructions = js₁ ++ j :: gen ++ js₂ := by
            rw [hjs, hi, hgen]
            simp
          rw [this, hgen']
          simp
        exact ⟨l, js₁ ++ j :: front, after ++ js₂, by simp [hl, Nat.add_assoc], hmutant,
          Program.alone hvalid hsmall hmutant hu⟩

/-! ### Mutants -/

/-- **A program that is rebuilt** without a fault is accepted and steered if the old one is. -/
theorem rebuild_steered {m : MutatorKind} (budget : Nat)
    (he : b.toolbox.environment.IsScriptTyped) (h : p.validate b.toolbox.environment = .ok ())
    (hp : p.Steered) (hspares : Spares (treatments p.instructions chosen p.loopControl)) :
    let r := rebuild (m.change budget) (treatments p.instructions chosen p.loopControl) b
    r.2.toolbox = b.toolbox ∧ ∀ mutant, r.1 = .ok mutant → mutant.Bounded →
      mutant.validate b.toolbox.environment = .ok () ∧ mutant.Steered := by
  -- programs with a fault are left out of account
  let _ : Regard := ⟨True, False⟩
  generalize hts : treatments p.instructions chosen p.loopControl = ts at hspares
  have hmap : ts.map (·.instruction) = p.instructions := by rw [← hts, map_instruction_treatments]
  obtain ⟨s, hsteps, -⟩ := Program.validate_eq_ok_iff.mp h
  have harity : ∀ t ∈ ts, t.instruction.hasConsistentArity = true := fun t ht =>
    hsteps.hasConsistentArity _ (hmap ▸ List.mem_map_of_mem ht)
  let start : Builder := { b.reset with newNames := ∅ }
  have hsound : start.Sound := fun _ => Builder.settled_start he
  have hreaches := reaches_treatments trivial m budget hsound harity
  intro r
  have hr : r = (ts.forM (treat (m.change budget)) start).2.finalize := rfl
  generalize hb' : (ts.forM (treat (m.change budget)) start).2 = b' at hr hreaches
  rw [hr]
  have htool : b'.toolbox = b.toolbox := hreaches.toolbox
  refine ⟨htool, fun mutant hm hbounded => ?_⟩
  obtain ⟨rfl, hvalid⟩ := Builder.of_finalize_eq_ok hm
  rw [htool] at hvalid
  have hreg : b'.Regarded := ⟨⟨hbounded.numbers, hbounded.operands⟩, fun _ =>
    Builder.faultless_of_finalize (hreaches.tracked rfl) hm, False.elim⟩
  obtain ⟨js, hjs⟩ := exists_treats trivial m budget hsound harity (hb' ▸ hreg)
  rw [hb'] at hjs
  refine ⟨hvalid, hjs.steered hsound ?_ hreg hmap ?_ hspares hp hjs.instructions hvalid
    (hreaches.sound hreg).small⟩
  · intro u v huv
    simp [Builder.renamed?, start] at huv
  · rw [← hts]
    exact fun t ht => isFrozen_of_mem_treatments ht

lemma getElem?_treatments {frozen : List Bool} {k : ℕ} : (treatments is chosen frozen)[k]? =
    is[k]?.map fun i => ⟨i, chosen[k]?.getD false, frozen[k]?.getD false⟩ := by
  induction is generalizing chosen frozen k with
  | nil => rfl
  | cons i is ih =>
      rw [treatments]
      cases k with
      | zero => simp [List.headD_eq_head?_getD, List.head?_eq_getElem?]
      | succ k => simp [ih]

lemma mem_positions {flags : List Bool} {k : ℕ} : k ∈ positions flags ↔ flags[k]? = some true := by
  simp only [positions, List.mem_map, List.mem_filter, List.mem_zipIdx_iff_getElem?]
  constructor
  · rintro ⟨⟨flag, k⟩, ⟨h, hf⟩, rfl⟩
    dsimp only at h hf
    rw [h, hf]
  · exact fun h => ⟨(true, k), ⟨h, rfl⟩, rfl⟩

lemma getElem?_flagsOf {n k : ℕ} {ks : List ℕ} (h : (flagsOf n ks)[k]? = some true) :
    k ∈ ks := by
  simp only [flagsOf, List.getElem?_map, Option.map_eq_some_iff] at h
  obtain ⟨k', hk, hc⟩ := h
  rw [Std.TreeSet.contains_ofList, List.contains_iff_mem] at hc
  obtain ⟨hlt, hk⟩ := List.getElem?_eq_some_iff.mp hk
  rw [List.getElem_range] at hk
  exact hk ▸ hc

/-- What is chosen is a candidate. -/
lemma getElem?_of_isChosen {size : ℕ} {ks : List ℕ} {frozen flags : List Bool}
    (h : ∀ k ∈ ks, k ∈ positions flags) (ht : t ∈ treatments is (flagsOf size ks) frozen)
    (hc : t.isChosen = true) : ∃ k : ℕ, is[k]? = some t.instruction ∧
      t.isFrozen = frozen[k]?.getD false ∧ flags[k]? = some true := by
  obtain ⟨k, hk⟩ := List.getElem?_of_mem ht
  rw [getElem?_treatments] at hk
  obtain ⟨i, hi, rfl⟩ := Option.map_eq_some_iff.mp hk
  refine ⟨k, hi, rfl, mem_positions.mp (h k (getElem?_flagsOf (n := size) ?_))⟩
  cases hf : (flagsOf size ks)[k]? with
  | none => simp [hf] at hc
  | some flag => simpa [hf] using hc

/-- A candidate is accepted by the mutator. -/
lemma accepts_of_candidatesFrom {m : MutatorKind} {r : Reachability} {k : ℕ} {i : Instruction}
    (h : (m.candidatesFrom r is)[k]? = some true) (hi : is[k]? = some i) : m.accepts i = true := by
  induction is generalizing r k with
  | nil => cases hi
  | cons j is ih =>
      rw [MutatorKind.candidatesFrom] at h
      cases k with
      | zero =>
          obtain rfl := Option.some.inj hi
          exact (Bool.and_eq_true_iff.mp (Option.some.inj h)).2
      | succ k => exact ih h hi

/-- An attempt rebuilds the program, if there is something to change: instructions that the mutator
accepts and that are not frozen. -/
lemma attempt_eq (m : MutatorKind) (settings : MutationSettings) (frozen : List Bool) :
    let candidates := positions (List.zipWith (fun c f => c && !f) (m.candidates p) frozen)
    candidates = [] ∧ attempt m settings p frozen b = (none, b) ∨ ∃ words chosen,
      (∀ t ∈ treatments p.instructions chosen frozen, t.isChosen = true →
        t.isFrozen = false ∧ m.accepts t.instruction = true) ∧
      let r := rebuild (m.change settings.codegenBudget.toNat)
        (treatments p.instructions chosen frozen) { b with words }
      attempt m settings p frozen b = (some r.1, r.2) := by
  intro candidates
  have hcandidates (sample : List ℕ) (k : ℕ) (hk : k ∈ sample.filterMap (candidates[·]?)) :
      k ∈ candidates := by
    obtain ⟨index, -, hindex⟩ := List.mem_filterMap.mp hk
    exact List.mem_of_getElem? hindex
  unfold attempt
  dsimp only
  split
  · rename_i hempty
    exact .inl ⟨List.isEmpty_iff.mp hempty, rfl⟩
  · let most := min (max settings.maxSimultaneousMutations.toNat 1) candidates.length
    let count := Draw.nat64 1 most b.words
    let sample := Draw.sample candidates.length count.1 count.2
    refine .inr ⟨sample.2, flagsOf p.size (sample.1.filterMap (candidates[·]?)), ?_, rfl⟩
    intro t ht hc
    obtain ⟨k, hi, hf, hz⟩ := getElem?_of_isChosen (hcandidates sample.1) ht hc
    obtain ⟨accepts, flag, haccepts, hflag, hand⟩ := List.getElem?_zipWith_eq_some.mp hz
    obtain ⟨rfl, hflag'⟩ := Bool.and_eq_true_iff.mp hand
    refine ⟨?_, accepts_of_candidatesFrom haccepts hi⟩
    rw [hf, hflag]
    simpa using hflag'

/-- One attempt keeps the tools, and its mutant is accepted and steered if the program is. -/
lemma attempt_steered (m : MutatorKind) (settings : MutationSettings)
    (he : b.toolbox.environment.IsScriptTyped) (h : p.validate b.toolbox.environment = .ok ())
    (hp : p.Steered) :
    let r := attempt m settings p p.loopControl b
    r.2.toolbox = b.toolbox ∧ ∀ mutant, r.1 = some (.ok mutant) → mutant.Bounded →
      mutant.validate b.toolbox.environment = .ok () ∧ mutant.Steered := by
  intro r
  rcases attempt_eq m settings p.loopControl (p := p) (b := b) with
    ⟨-, hr⟩ | ⟨words, chosen, hchosen, hr⟩
  · change r = _ at hr
    rw [hr]
    exact ⟨rfl, fun _ h => by cases h⟩
  · change r = _ at hr
    rw [hr]
    have hspares : Spares (treatments p.instructions chosen p.loopControl) := by
      intro t ht hf
      by_contra hc
      rw [(hchosen t ht (Bool.eq_true_of_not_eq_false hc)).1] at hf
      cases hf
    obtain ⟨htool, hmutant⟩ := rebuild_steered (m := m) (b := { b with words })
      settings.codegenBudget.toNat he h hp hspares
    exact ⟨htool, fun mutant hm => hmutant mutant (Option.some.inj hm)⟩

lemma attempts_succ {settings : MutationSettings} {frozen : List Bool} {n : ℕ} :
    attempts settings p frozen (n + 1) b =
      (match (b.toolbox.mutators.chooseIndexWhere (fun _ _ => true) b.words).1 with
        | none => return .error .noMutators
        | some index =>
          match b.toolbox.mutators.get? index with
          | none => attempts settings p frozen n
          | some m => do
            match ← attempt m settings p frozen with
            | some (.ok mutant) => return .ok mutant
            | _ => attempts settings p frozen n : Build _)
        { b with words := (b.toolbox.mutators.chooseIndexWhere (fun _ _ => true) b.words).2 } :=
  rfl

/-- **All attempts**: the mutant is accepted and steered if the program is. -/
theorem attempts_steered {settings : MutationSettings} {n : ℕ}
    (he : b.toolbox.environment.IsScriptTyped) (h : p.validate b.toolbox.environment = .ok ())
    (hp : p.Steered) (hm : (attempts settings p p.loopControl n b).1 = .ok mutant)
    (hb : mutant.Bounded) :
    mutant.validate b.toolbox.environment = .ok () ∧ mutant.Steered := by
  induction n generalizing b with
  | zero => cases hm
  | succ n ih =>
      rw [attempts_succ] at hm
      generalize hc : ({ b with words := _ } : Builder) = c at hm
      have htool : c.toolbox = b.toolbox := by rw [← hc]
      rw [← htool] at he h ⊢
      cases hd : (b.toolbox.mutators.chooseIndexWhere (fun _ _ => true) b.words).1 with
      | none =>
          rw [hd] at hm
          cases hm
      | some index =>
          rw [hd] at hm
          dsimp only at hm
          cases hg : b.toolbox.mutators.get? index with
          | none =>
              rw [hg] at hm
              exact ih he h hm
          | some m =>
              rw [hg] at hm
              obtain ⟨htool, hmutant⟩ := attempt_steered (b := c) m settings he h hp
              generalize hr : attempt m settings p p.loopControl c = r at htool hmutant
              obtain ⟨result, b'⟩ := r
              dsimp only [bind, StateT.bind] at hm
              rw [hr] at hm
              rcases result with _ | _ | found
              · rw [← htool] at he h ⊢
                exact ih he h hm
              · rw [← htool] at he h ⊢
                exact ih he h hm
              · obtain rfl := Except.ok.inj hm
                exact hmutant found rfl hb

end Mutation

/-- **Loops stay bounded.**  With builtins that are values of scripts, every program that a template
or a sequence of calls leads to is steered, whatever is drawn and whatever the settings are, and so
is every mutant of an accepted program that is steered, whichever mutators are drawn.  The mutant is
accepted, so that it may be changed again.  The programs may not be too large to be counted. -/
theorem Toolbox.loops_steered (toolbox : Toolbox) (he : toolbox.environment.IsScriptTyped) :
    (∀ (words : WordSource) (plan : GenerationPlan) (p : Program),
      (plan.code (.start toolbox words)).2.finalize.1 = .ok p → p.Bounded → p.Steered) ∧
    ∀ (b : Builder) (p mutant : Program), b.toolbox = toolbox →
      p.validate toolbox.environment = .ok () → p.Steered →
      (Mutation.mutate p b).1 = .ok mutant → mutant.Bounded →
      mutant.validate toolbox.environment = .ok () ∧ mutant.Steered := by
  refine ⟨fun words plan p hp hb => GenerationPlan.steered he hp hb, ?_⟩
  rintro b p mutant rfl h hp hm hb
  exact Mutation.attempts_steered he h hp hm hb

/-! ### A program with a loop -/

/-- A script value and a function with a loop. -/
def countdown : Program := .ofInstructions [
  ⟨.loadInteger 0, [], [⟨0⟩], []⟩,
  ⟨.beginWasmModule, [], [], []⟩,
  ⟨.beginWasmFunction ⟨[], []⟩, [], [], []⟩,
  ⟨.wasmConst (.i32 10), [], [⟨1⟩], []⟩,
  ⟨.wasmBeginLoop, [], [], [⟨2⟩]⟩,
  ⟨.wasmConst (.i32 1), [], [⟨3⟩], []⟩,
  ⟨.wasmIntBinary .bits32 .sub, [⟨1⟩, ⟨3⟩], [⟨4⟩], []⟩,
  ⟨.wasmReassign, [⟨1⟩, ⟨4⟩], [], []⟩,
  ⟨.wasmBranchIf, [⟨2⟩, ⟨4⟩], [], []⟩,
  ⟨.wasmEndLoop, [], [], []⟩,
  ⟨.endWasmFunction ⟨[], []⟩, [], [⟨5⟩], []⟩,
  ⟨.endWasmModule, [], [⟨6⟩, ⟨7⟩], []⟩]

lemma validate_countdown (e : Environment) : countdown.validate e = .ok () := by
  rw [Program.validate_eq_ok_iff]
  refine ⟨_, .cons (Validator.step_mk rfl (by simp) (by decide) rfl rfl rfl)
    (.cons (Validator.step_mk rfl (by simp) (by decide) rfl rfl rfl)
    (.cons (Validator.step_mk rfl (by simp) (by decide) rfl rfl rfl)
    (.cons (Validator.step_mk rfl (by simp) (by decide) rfl rfl rfl)
    (.cons (Validator.step_mk rfl (by simp) (by decide) rfl rfl rfl)
    (.cons (Validator.step_mk rfl (by simp) (by decide) rfl rfl rfl)
    (.cons (Validator.step_mk rfl ?_ (by decide) ?_ rfl rfl)
    (.cons (Validator.step_mk rfl ?_ (by decide) ?_ rfl rfl)
    (.cons (Validator.step_mk rfl ?_ (by decide) ?_ rfl rfl)
    (.cons (Validator.step_mk rfl (by simp) (by decide) rfl rfl rfl)
    (.cons (Validator.step_mk rfl (by simp) (by decide) rfl rfl rfl)
    (.cons (Validator.step_mk rfl (by simp) (by decide) rfl rfl ?_)
    (.nil _)))))))))))), rfl⟩
  · -- the difference
    refine List.forall_mem_cons.mpr ⟨?_, List.forall_mem_singleton.mpr ?_⟩
    · iterate 2 refine ScopeState.isVisible_apply_of_isVisible ?_ rfl
      exact ScopeState.isVisible_apply_of_mem (by decide) (by decide)
    · exact ScopeState.isVisible_apply_of_mem (by decide) (by decide)
  · rw [List.map_cons, List.map_cons, Typer.typeOf_apply_of_not_mem (v := ⟨1⟩) (by decide),
      Typer.typeOf_apply_of_not_mem (v := ⟨1⟩) (by decide),
      Typer.typeOf_apply_of_outputs (v := ⟨1⟩) rfl (by decide) (by decide) rfl rfl,
      Typer.typeOf_apply_of_outputs (v := ⟨3⟩) rfl (by decide) (by decide) rfl rfl]
    rfl
  · refine List.forall_mem_cons.mpr ⟨?_, List.forall_mem_singleton.mpr ?_⟩
    · iterate 3 refine ScopeState.isVisible_apply_of_isVisible ?_ rfl
      exact ScopeState.isVisible_apply_of_mem (by decide) (by decide)
    · exact ScopeState.isVisible_apply_of_mem (by decide) (by decide)
  · rw [List.map_cons, List.map_cons, Typer.typeOf_apply_of_not_mem (v := ⟨1⟩) (by decide),
      Typer.typeOf_apply_of_not_mem (v := ⟨1⟩) (by decide),
      Typer.typeOf_apply_of_not_mem (v := ⟨1⟩) (by decide),
      Typer.typeOf_apply_of_outputs (v := ⟨1⟩) rfl (by decide) (by decide) rfl rfl,
      Typer.typeOf_apply_of_outputs (v := ⟨4⟩) rfl (by decide) (by decide) rfl rfl]
    rfl
  · refine List.forall_mem_cons.mpr ⟨?_, List.forall_mem_singleton.mpr ?_⟩
    · iterate 3 refine ScopeState.isVisible_apply_of_isVisible ?_ rfl
      exact ScopeState.isVisible_apply_of_mem (by decide) (by decide)
    · refine ScopeState.isVisible_apply_of_isVisible ?_ rfl
      exact ScopeState.isVisible_apply_of_mem (by decide) (by decide)
  · rw [List.map_cons, List.map_cons, Typer.typeOf_apply_of_not_mem (v := ⟨2⟩) (by decide),
      Typer.typeOf_apply_of_not_mem (v := ⟨2⟩) (by decide),
      Typer.typeOf_apply_of_not_mem (v := ⟨2⟩) (by decide),
      Typer.typeOf_apply_of_innerOutputs (v := ⟨2⟩) rfl (by decide) (by decide) rfl rfl,
      Typer.typeOf_apply_of_not_mem (v := ⟨4⟩) (by decide),
      Typer.typeOf_apply_of_outputs (v := ⟨4⟩) rfl (by decide) (by decide) rfl rfl]
    rfl
  · unfold Validator.checkImports
    rw [Typer.currentModule?]
    repeat rw [Typer.modules_apply rfl (by decide) (by decide) (by decide)]
    rw [Typer.modules_apply_beginWasmModule rfl]
    rfl

lemma steered_countdown : countdown.Steered := by
  refine Program.steered_of_steers (validate_countdown .script) (by decide) (S := [⟨2⟩, ⟨1⟩]) ?_
  refine .plain rfl (by simp) (.plain rfl (by simp) (.plain rfl (by simp)
    (.loop ⟨⟨1⟩, ⟨2⟩, ⟨3⟩, ⟨4⟩, []⟩ (.nil _)
      (.plain rfl (by simp) (.plain rfl (by simp) (.nil _))))))

namespace Mutation

variable {p : Program} {b : Builder}

/-- A mutator that inserts no code rebuilds an accepted program. -/
lemma exists_rebuilt {m : MutatorKind} (hm : m ≠ .codeGen) (budget : ℕ) (chosen frozen : List Bool)
    (h : p.validate b.toolbox.environment = .ok ()) (hn : p.NumbersSmall) :
    ∃ mutant r, (rebuild (m.change budget) (treatments p.instructions chosen frozen) b).1 =
      .ok mutant ∧ mutant.validate b.toolbox.environment = .ok () ∧
        List.Forall₂ (·.Yields r ·) (treatments p.instructions chosen frozen)
          mutant.instructions := by
  obtain ⟨s, hs, hblocks⟩ := Program.validate_eq_ok_iff.mp h
  obtain ⟨b', hb'⟩ : ∃ b', ((treatments p.instructions chosen frozen).forM (treat (m.change budget))
    { b.reset with newNames := ∅ }).2 = b' := ⟨_, rfl⟩
  obtain ⟨js, hins, htool, hfollows, hyields, -⟩ :=
    follows_treatments hm budget follows_start hs hn hb'
  obtain ⟨hfin, hvalid⟩ :=
    hfollows.clean.finalize (hfollows.renames.scopes.blocks.trans hblocks)
  rw [htool] at hvalid
  rw [hins] at hfin hvalid
  refine ⟨_, _, ?_, hvalid, hyields⟩
  change (((treatments p.instructions chosen frozen).forM (treat (m.change budget))
    { b.reset with newNames := ∅ }).2.finalize).1 = _
  rw [hb', hfin]

/-- What becomes of few instructions with few operands, where nothing but integers of the script are
chosen. -/
lemma small_of_yields {ts : List Treatment} {js : List Instruction} {r : Variable → Variable}
    (h : List.Forall₂ (·.Yields r ·) ts js) (ha : ∀ j ∈ js, j.hasConsistentArity = true)
    (hc : ∀ t ∈ ts, t.isChosen = true → ∃ n, t.instruction.operation = .loadInteger n)
    (hb : ∀ t ∈ ts, t.instruction.inputs.length < 2 ^ 64 - 1) :
    (js.flatMap (·.definedVariables)).length =
        ((ts.map (·.instruction)).flatMap (·.definedVariables)).length ∧
      ∀ j ∈ js, j.inputs.length < 2 ^ 64 - 1 := by
  induction h with
  | nil => exact ⟨rfl, by simp⟩
  | @cons t j ts js hy _ ih =>
      obtain ⟨hj, ha⟩ := List.forall_mem_cons.mp ha
      obtain ⟨ht, hc⟩ := List.forall_mem_cons.mp hc
      obtain ⟨hi, hb⟩ := List.forall_mem_cons.mp hb
      obtain ⟨hlength, hsmall⟩ := ih ha hc hb
      refine ⟨?_, List.forall_mem_cons.mpr ⟨?_, hsmall⟩⟩
      · have hd : j.definedVariables.length = t.instruction.definedVariables.length := by
          simp [Instruction.definedVariables, hy.outputs, hy.innerOutputs]
        simp only [List.flatMap_cons, List.map_cons, List.length_append, hlength, hd]
      · cases hcho : t.isChosen with
        | false =>
            rw [(hy.kept hcho).2, List.length_map]
            exact hi
        | true =>
            obtain ⟨n, hn⟩ := ht hcho
            have hname := hy.name
            rw [hn] at hname
            rw [(Instruction.hasConsistentArity_iff.mp hj).1]
            cases hop : j.operation <;> rw [hop] at hname <;>
              first
              | exact Nat.zero_lt_succ _
              | simp [Operation.name] at hname

end Mutation

/-- The built-in tools and random words that are all the same. -/
def halfBuilder : Builder := .start .standard (.ofFunction fun _ => 0x80000000)

/-- The integer is not frozen. -/
lemma isControl_integer : countdown.isControl ⟨.loadInteger 0, [], [⟨0⟩], []⟩ = false := by
  have hsteering : countdown.isSteering ⟨0⟩ = false := by
    rw [Program.isSteering, Std.TreeSet.contains_ofList]
    decide
  have hoperand : ⟨0⟩ ∉ (countdown.instructions.filter countdown.touches).flatMap (·.inputs) := by
    rw [List.mem_flatMap]
    rintro ⟨i, hi, hv⟩
    exact absurd hv ((by decide : ∀ i ∈ countdown.instructions, ⟨0⟩ ∉ i.inputs) i
      (List.mem_of_mem_filter hi))
  simp [Program.isControl, Program.touches, Instruction.definedVariables, hsteering, hoperand]

/-- Of what has a payload, only the integer is not frozen. -/
lemma eq_loadInteger_of_isControl {i : Instruction} (hi : i ∈ countdown.instructions)
    (ha : MutatorKind.operation.accepts i = true) (hc : countdown.isControl i = false) :
    ∃ n, i.operation = .loadInteger n := by
  have hcode : countdown.instructions = countdown.instructions.take 3 ++
    (CountedLoop.mk ⟨1⟩ ⟨2⟩ ⟨3⟩ ⟨4⟩ []).code ++ countdown.instructions.drop 10 := rfl
  have hcontrol := Program.isControl_of_code (i := i) hcode
  rw [hc] at hcontrol
  simp only [countdown, Program.ofInstructions, List.mem_cons, List.not_mem_nil, or_false] at hi
  rcases hi with rfl | rfl | rfl | rfl | rfl | rfl | rfl | rfl | rfl | rfl | rfl | rfl
  · exact ⟨0, rfl⟩
  all_goals first
    | exact absurd ha (by decide)
    | exact absurd (hcontrol (by decide)) (by decide)

lemma mutate_countdown : ∃ mutant, (Mutation.mutate countdown halfBuilder).1 = .ok mutant ∧
    mutant.Bounded := by
  have hm : (halfBuilder.toolbox.mutators.chooseIndexWhere (fun _ _ => true)
      halfBuilder.words).1 = some 1 := by
    decide_cbv
  have hget : halfBuilder.toolbox.mutators.get? 1 = some .operation := by
    decide
  change ∃ mutant, (Mutation.attempts {} countdown countdown.loopControl (9 + 1) halfBuilder).1 =
    .ok mutant ∧ _
  rw [Mutation.attempts_succ, hm]
  dsimp only
  rw [hget]
  generalize hb : ({ halfBuilder with words := _ } : Builder) = b
  rcases Mutation.attempt_eq .operation {} countdown.loopControl (p := countdown) (b := b)
    with ⟨hnone, -⟩ | ⟨words, chosen, hchosen, hr⟩
  · -- the integer is a candidate
    have hmem : 0 ∈ Mutation.positions (List.zipWith (fun c f => c && !f)
        (MutatorKind.operation.candidates countdown) countdown.loopControl) := by
      rw [Mutation.mem_positions, List.getElem?_zipWith_eq_some]
      refine ⟨true, false, rfl, ?_, rfl⟩
      rw [Program.loopControl_eq]
      exact congrArg some isControl_integer
    rw [hnone] at hmem
    exact absurd hmem List.not_mem_nil
  · have hvalid : countdown.validate b.toolbox.environment = .ok () := validate_countdown _
    obtain ⟨mutant, r, hmutant, hv, hyields⟩ := Mutation.exists_rebuilt (m := .operation)
      (b := { b with words }) (by decide) (({} : MutationSettings).codegenBudget.toNat) chosen
      countdown.loopControl hvalid (by decide)
    obtain ⟨s, hs, -⟩ := Program.validate_eq_ok_iff.mp hv
    obtain ⟨hnumbers, hoperands⟩ := Mutation.small_of_yields hyields hs.hasConsistentArity
      (fun t ht hc => by
        obtain ⟨hf, ha⟩ := hchosen t ht hc
        refine eq_loadInteger_of_isControl ?_ ha ?_
        · have hi := List.mem_map_of_mem (f := (·.instruction)) ht
          rwa [Mutation.map_instruction_treatments] at hi
        · rw [← hf]
          exact (Mutation.isFrozen_of_mem_treatments ht).symm)
      fun t ht => by
        have hi := List.mem_map_of_mem (f := (·.instruction)) ht
        rw [Mutation.map_instruction_treatments] at hi
        exact (by decide : ∀ i ∈ countdown.instructions, i.inputs.length < 2 ^ 64 - 1) _ hi
    refine ⟨mutant, ?_, ?_, hoperands⟩
    · dsimp only [bind, StateT.bind]
      rw [hr]
      dsimp only
      rw [hmutant]
      rfl
    · rw [hnumbers, Mutation.map_instruction_treatments]
      decide

/-- A program with a loop that the built-in tools make, and a mutant of a program with a loop. -/
theorem loops_steered_countdown :
    (∃ p, (GenerationPlan.usesTable.code (.start .standard .spread)).2.finalize.1 = .ok p ∧
      (∃ i ∈ p.instructions, i.operation = .wasmBeginLoop) ∧ p.Steered) ∧
    ∃ mutant, (Mutation.mutate countdown halfBuilder).1 = .ok mutant ∧
      mutant.validate .script = .ok () ∧ mutant.Steered := by
  have he : Toolbox.standard.environment.IsScriptTyped := Environment.isScriptTyped_script
  obtain ⟨hgenerated, hmutated⟩ := Toolbox.standard.loops_steered he
  obtain ⟨mutant, hm, hb⟩ := mutate_countdown
  refine ⟨?_, mutant, hm, ?_⟩
  · obtain ⟨hbounded, -, hloop⟩ := GenerationPlan.bounded_usesTable
    obtain ⟨hset, -, hblocks⟩ := Builder.settled_generationPlan he hbounded fun h => h
    have hfin := congrArg Prod.fst (hset.toClean.finalize hblocks).1
    exact ⟨_, hfin, hloop, hgenerated .spread GenerationPlan.usesTable _ hfin
      ⟨hbounded.numbers, hbounded.operands⟩⟩
  · exact hmutated halfBuilder countdown mutant rfl (validate_countdown _) steered_countdown hm hb

end EngineFuzz
