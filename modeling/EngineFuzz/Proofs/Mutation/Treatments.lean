import Mathlib
import EngineFuzz.Proofs.Generation.Faultless
import EngineFuzz.Proofs.Generation.Running
import EngineFuzz.Proofs.Generation.SteeredPrograms
import EngineFuzz.Proofs.Mutation.Mutants

/-!
# Instructions while a program is rebuilt

Whichever mutator is at work, in place of an instruction stands one of the same form, which may be
followed by generated code.  Nothing is said of programs with a fault, since none is returned.

* `Mutation.Places`: a computation that appends what is put in place of an instruction.
* `Mutation.Treated`: what becomes of an instruction, with `Mutation.exists_treated`.
* `Mutation.Treats`: what becomes of many instructions, with `Mutation.exists_treats`.
-/

namespace EngineFuzz

namespace Builder

variable {b b' : Builder} {i : Instruction} {op : Operation} {inputs : List Variable}

/-! ### Unknown inputs -/

/-- Where an input is unknown there is a problem. -/
lemma noteUnknown_cases : b.noteUnknown i = b ∨
    ∃ problem, b.noteUnknown i = { b with problem? := some problem } := by
  unfold noteUnknown
  split
  · exact .inl rfl
  · cases b.problem? with
    | none => exact .inr ⟨_, rfl⟩
    | some problem => exact .inr ⟨problem, rfl⟩

/-- An input that is noted as unknown is so for ever. -/
lemma noteUnknown_noteUnknown : (b.noteUnknown i).noteUnknown i = b.noteUnknown i := by
  have hn : (b.noteUnknown i).newNames = b.newNames := by
    unfold noteUnknown
    split <;> rfl
  cases hf : i.inputs.find? fun v => !b.newNames.contains v with
  | none => rw [show b.noteUnknown i = b by rw [noteUnknown, hf], noteUnknown, hf]
  | some v =>
      have hb : b.noteUnknown i =
          { b with problem? := b.problem?.or (some (.unknownInput v)) } := by
        rw [noteUnknown, hf]
      rw [noteUnknown, hn, hf, hb]
      cases b.problem? <;> rfl

/-- Without a problem all inputs have new names. -/
lemma renamed?_of_noteUnknown (h : (b.noteUnknown i).problem? = none) {u : Variable}
    (hu : u ∈ i.inputs) : ∃ v, b.renamed? u = some v := by
  have hf : i.inputs.find? (fun v => !b.newNames.contains v) = none := by
    cases hf : i.inputs.find? fun v => !b.newNames.contains v with
    | none => rfl
    | some v =>
        rw [noteUnknown, hf] at h
        cases hp : b.problem? <;> simp [hp] at h
  have hc : b.newNames.contains u = true := by simpa using List.find?_eq_none.mp hf u hu
  rw [Std.TreeMap.contains_eq_isSome_getElem?] at hc
  exact Option.isSome_iff_exists.mp hc

variable [Regard]

/-- Noting an unknown input is a fault. -/
lemma Sound.reaches_noteUnknown (hr : Regard.faultless) (hs : b.Sound) :
    b.Reaches (b.noteUnknown i) := by
  rcases noteUnknown_cases (b := b) (i := i) with h | ⟨problem, h⟩
  · rw [h]
    exact .refl hs
  · have hnot : ¬(b.noteUnknown i).Regarded := fun hb => by
      have hp := (hb.faultless hr).problem?
      rw [h] at hp
      cases hp
    refine ⟨fun hb => absurd hb hnot, ?_, fun ht => ?_, ⟨[], ?_⟩, fun hb => absurd hb hnot,
      fun hb => absurd hb hnot⟩
    · rw [h]
    · rw [h]
      exact ht
    · rw [h, List.append_nil]

/-- Where no fault is found all inputs are known. -/
lemma Regarded.noteUnknown_eq (hr : Regard.faultless) (hb : (b.noteUnknown i).Regarded) :
    b.noteUnknown i = b := by
  rcases noteUnknown_cases (b := b) (i := i) with h | ⟨problem, h⟩
  · exact h
  · have hp := (hb.faultless hr).problem?
    rw [h] at hp
    cases hp

/-- An operation is appended in place of an instruction. -/
lemma Sound.reaches_adoptAs (hr : Regard.faultless) (hs : b.Sound) :
    b.Reaches (b.adoptAs i op inputs) := by
  have he : b.Reaches (b.emit op inputs).2 := hs.reaches_emit_of_faultless hr
  exact he.trans hs (.of_agrees he.sound ⟨rfl, rfl, rfl, rfl, rfl, rfl⟩ rfl)

/-- New variables are hidden. -/
lemma Reaches.with_hidden (h : b.Reaches b') {hidden : Std.TreeSet Variable}
    (hm : ∀ v, b'.hidden.contains v = true → hidden.contains v = true)
    (hh : b'.Regarded → ∀ v, hidden.contains v = true → b'.hidden.contains v = true ∨
      b.nextVariable ≤ v.number ∧ v.number < b'.nextVariable) :
    b.Reaches { b' with hidden } := by
  have ha : b'.Agrees { b' with hidden } := ⟨rfl, rfl, rfl, rfl, rfl, rfl⟩
  refine ⟨ha.sound h.sound fun hb v hv => ?_, h.toolbox, h.tracked, h.grows,
    fun hb => h.regarded (ha.regarded hb), fun hb v hv ht => ?_⟩
  · have hb' := ha.regarded hb
    rcases hh hb' v hv with hv | ⟨-, hv⟩
    · exact (h.sound hb').hiddenOld v hv
    · exact hv
  · have hb' := ha.regarded hb
    have hsame : hidden.contains v = b'.hidden.contains v := Bool.eq_iff_iff.mpr
      ⟨fun h' => (hh hb' v h').resolve_right fun h' => UInt32.not_lt.mpr h'.1 hv, hm v⟩
    exact hsame.trans (h.hidden hb' v hv ht)

end Builder

namespace Mutation

open Build

variable {b b' : Builder} {i j : Instruction} {op : Operation} {inputs : List Variable}
  {f : Build Unit} {t : Treatment}

/-! ### What is put in place of an instruction -/

/-- In the second program an operation is put in place of an instruction.  It has the form of the
old one, and its inputs are those of the instruction or variables that are offered to generators. -/
def Places (i : Instruction) (b b' : Builder) : Prop :=
  ∃ op inputs words, b' = ({ b with words } : Builder).adoptAs i op inputs ∧
    op.form = i.operation.form ∧ ∀ v ∈ inputs, v ∈ b.adoptedInputs i ∨ v ∈ b.visibleVariables

lemma places_adoptAs (hf : op.form = i.operation.form)
    (hv : ∀ v ∈ inputs, v ∈ b.adoptedInputs i ∨ v ∈ b.visibleVariables) :
    Places i b (adoptAs i op inputs b).2 := ⟨op, inputs, b.words, rfl, hf, hv⟩

/-- Something is drawn first. -/
lemma Places.bind {α : Type} {P : α → Prop} {c : Build α} {f : α → Build Unit}
    (hc : Draws c b P)
    (hf : ∀ a words, P a → Places i { b with words } (f a { b with words }).2) :
    Places i b ((c >>= f) b).2 := by
  obtain ⟨hP, words, hw⟩ := hc
  obtain ⟨op, inputs, words', hrun, hform, hv⟩ := hf _ words hP
  have hbind : (c >>= f) b = f (c b).1 (c b).2 := rfl
  refine ⟨op, inputs, words', ?_, hform, hv⟩
  rw [hbind, hw, hrun]

/-- The inputs are adopted first. -/
lemma places_of_adoptedInputs {f : List Variable → Build Unit}
    (hf : ∀ c : Builder, c.noteUnknown i = c → Places i c (f (c.adoptedInputs i) c).2) :
    Places i (b.noteUnknown i) ((adoptedInputs i >>= f) b).2 := by
  have hn : b.adoptedInputs i = (b.noteUnknown i).adoptedInputs i := by
    unfold Builder.noteUnknown
    split <;> rfl
  have h := hf (b.noteUnknown i) Builder.noteUnknown_noteUnknown
  rw [← hn] at h
  exact h

lemma places_changeInput : Places i (b.noteUnknown i) (changeInput i b).2 :=
  places_of_adoptedInputs fun _ _ =>
    Places.bind draws_withOtherInput fun _ _ hin => places_adoptAs rfl hin.2

lemma places_changePayload : Places i (b.noteUnknown i) (changePayload i b).2 := by
  refine places_of_adoptedInputs fun c _ => ?_
  refine Places.bind draws_otherPayload fun changed? words hchanged => ?_
  split
  · exact places_adoptAs rfl fun v => .inl
  · rename_i changed
    let same := c.typer.outputTypes changed (c.adoptedInputs i) ==
      c.typer.outputTypes i.operation (c.adoptedInputs i)
    change Places i _ (adoptAs i (if same then changed else i.operation) (c.adoptedInputs i) _).2
    refine places_adoptAs ?_ fun v => .inl
    split
    · exact (hchanged changed rfl).1
    · rfl

/-- Another use of an instance has the form of the old one, with inputs that are offered. -/
lemma draws_otherAccess_form {target : Variable} (ht : target ∈ inputs) :
    Draws (otherAccess op target inputs) b fun x => x.1.form = op.form ∧
      ∀ v ∈ x.2, v ∈ inputs ∨ v ∈ b.visibleVariables := by
  unfold otherAccess
  split
  · refine Draws.lift fun words words' => ?_
    refine draws_someScriptValues.bind fun imports words'' himports => Draws.pure ⟨rfl, ?_⟩
    exact List.forall_mem_cons.mpr ⟨.inl ht, fun v hv => .inr (himports.2 v hv).1⟩
  · exact draws_accessName.any fun name words => Draws.pure ⟨rfl, fun v => .inl⟩
  · exact Draws.lift fun words words' => Draws.pure ⟨rfl, fun v => .inl⟩
  · exact Draws.lift fun _ _ => Draws.lift fun _ _ => Draws.pure ⟨rfl, fun v => .inl⟩
  · exact draws_accessName.any fun name words => Draws.pure ⟨rfl, fun v => .inl⟩
  · exact Draws.pure ⟨rfl, fun v => .inl⟩

lemma places_changeAccess : Places i (b.noteUnknown i) (changeAccess i b).2 := by
  refine places_of_adoptedInputs fun c hc => ?_
  cases htarget : (c.adoptedInputs i).head? with
  | none =>
      -- the instruction is adopted as it is, and its inputs are checked again
      change Places i c ((c.noteUnknown i).adoptAs i i.operation _)
      rw [hc]
      exact places_adoptAs rfl fun v => .inl
  | some target =>
      exact Places.bind (draws_otherAccess_form (List.mem_of_mem_head? htarget))
        fun x words hx => places_adoptAs hx.1 hx.2

/-- **Mutators that insert no code** put an operation of the same form in place of an
instruction. -/
theorem places_change {m : MutatorKind} (hm : m ≠ .codeGen) (budget : Nat) :
    Places i (b.noteUnknown i) (m.change budget i b).2 := by
  cases m with
  | wasm => exact places_changeAccess
  | operation => exact places_changePayload
  | input => exact places_changeInput
  | codeGen => exact absurd rfl hm

/-! ### One instruction -/

variable [Regard] {gen : List Instruction} {m : Builder}

/-- What is put in place of an instruction is well formed. -/
lemma Places.reaches (h : Places i (b.noteUnknown i) m) (hr : Regard.faultless) (hs : b.Sound) :
    b.Reaches m ∧ (m.Regarded → b.noteUnknown i = b) := by
  obtain ⟨op, inputs, words, rfl, -⟩ := h
  have hn := hs.reaches_noteUnknown hr (i := i)
  have hw : (b.noteUnknown i).Reaches { b.noteUnknown i with words } :=
    .of_agrees hn.sound ⟨rfl, rfl, rfl, rfl, rfl, rfl⟩ rfl
  have ha : ({ b.noteUnknown i with words } : Builder).Reaches
      (({ b.noteUnknown i with words } : Builder).adoptAs i op inputs) :=
    hw.sound.reaches_adoptAs hr
  have hna := hw.trans hn.sound ha
  exact ⟨hn.trans hs hna, fun hb => (hna.regarded hb).noteUnknown_eq hr⟩

/-- What becomes of an instruction: it yields one instruction and the generated code behind it. -/
structure Treated (t : Treatment) (b b' : Builder) (j : Instruction) (gen : List Instruction) :
    Prop where
  instructions : b'.instructions.toList = b.instructions.toList ++ j :: gen
  emitted : j = b.emitted j.operation j.inputs
  form : j.operation.form = t.instruction.operation.form
  /-- An instruction that is not chosen is kept but for the names. -/
  kept : t.isChosen = false → j.operation = t.instruction.operation ∧
    j.inputs = b.adoptedInputs t.instruction ∧ gen = []
  inputs : ∀ v ∈ j.inputs, (∃ u ∈ t.instruction.inputs, b.renamed? u = some v) ∨
    v ∈ b.visibleVariables
  names : b'.newNames = (b.rename t.instruction.definedVariables j.definedVariables).newNames
  hides : t.isFrozen = true → ∀ u ∈ t.instruction.definedVariables, ∀ v,
    b'.renamed? u = some v → b'.hidden.contains v = true
  /-- The generated code uses nothing that is kept from generators. -/
  steers : ∀ S : List Variable, (∀ v ∈ S, b.Guards v) →
    ∃ S', Steers S gen S' ∧ ∀ v ∈ S', b'.Guards v

omit [Regard] in
/-- First an operation is put in place of the instruction, and then code may be generated. -/
lemma exists_places (m : MutatorKind) (budget : Nat) : ∃ c : Builder,
    Places t.instruction (b.noteUnknown t.instruction) c ∧
    (t.isChosen = false → c = b.adopt t.instruction) ∧
    (((if t.isChosen then m.change budget t.instruction else Build.adopt t.instruction) b).2 = c ∨
      t.isChosen = true ∧
        ((if t.isChosen then m.change budget t.instruction else Build.adopt t.instruction) b).2 =
          (build budget c).2) := by
  have hadopt : Places t.instruction (b.noteUnknown t.instruction) (b.adopt t.instruction) :=
    ⟨t.instruction.operation, b.adoptedInputs t.instruction, _, rfl, rfl, fun v hv => .inl (by
      unfold Builder.noteUnknown
      split <;> exact hv)⟩
  cases hc : t.isChosen with
  | false => exact ⟨_, hadopt, fun _ => rfl, .inl rfl⟩
  | true =>
      by_cases hm : m = .codeGen
      · subst hm
        exact ⟨_, hadopt, (absurd · (by decide)), .inr ⟨rfl, rfl⟩⟩
      · exact ⟨_, places_change hm budget, (absurd · (by decide)), .inl rfl⟩

omit [Regard] in
/-- The program and the names behind what is put in place of an instruction. -/
lemma Places.exists_emitted (h : Places i b m) (harity : i.hasConsistentArity = true) :
    ∃ j : Instruction, m.instructions.toList = b.instructions.toList ++ [j] ∧
      j = b.emitted j.operation j.inputs ∧ j.operation.form = i.operation.form ∧
      (∀ v ∈ j.inputs, v ∈ b.adoptedInputs i ∨ v ∈ b.visibleVariables) ∧
      m.newNames = (b.rename i.definedVariables j.definedVariables).newNames := by
  obtain ⟨op, inputs, words, rfl, hform, hinputs⟩ := h
  obtain ⟨-, ho, -⟩ := Instruction.hasConsistentArity_iff.mp harity
  refine ⟨b.emitted op inputs, Builder.toList_instructions_append, rfl, hform, hinputs, ?_⟩
  rw [Builder.adoptAs_eq]
  · rfl
  · rw [ho, ← Operation.numOutputs_form, ← hform, Operation.numOutputs_form]

omit [Regard] in
/-- As many variables are defined in place of an instruction. -/
lemma length_definedVariables_eq (harity : i.hasConsistentArity = true)
    (he : j = b.emitted j.operation j.inputs) (hf : j.operation.form = i.operation.form) :
    i.definedVariables.length = j.definedVariables.length := by
  obtain ⟨-, ho, hi⟩ := Instruction.hasConsistentArity_iff.mp harity
  rw [he, Builder.definedVariables_emitted, Builder.length_freshVariables,
    Instruction.definedVariables, List.length_append, ho, hi, ← Operation.numOutputs_form, ← hf,
    Operation.numOutputs_form, ← Operation.numInnerOutputs_form, ← hf,
    Operation.numInnerOutputs_form]

omit [Regard] in
/-- Where no fault is found the adopted inputs have new names. -/
lemma exists_renamed?_of_mem_adoptedInputs {v : Variable} (hp : (b.noteUnknown i).problem? = none)
    (hv : v ∈ b.adoptedInputs i) : ∃ u ∈ i.inputs, b.renamed? u = some v := by
  obtain ⟨u, hu, rfl⟩ := List.mem_map.mp hv
  obtain ⟨w, hw⟩ := Builder.renamed?_of_noteUnknown hp hu
  exact ⟨u, hu, by rw [hw]; rfl⟩

/-- **One instruction**, whichever mutator is at work. -/
theorem exists_treated (hr : Regard.faultless) (m : MutatorKind) (budget : Nat) (hs : b.Sound)
    (harity : t.instruction.hasConsistentArity = true) :
    b.Reaches (treat (m.change budget) t b).2 ∧ ((treat (m.change budget) t b).2.Regarded →
      ∃ j gen, Treated t b (treat (m.change budget) t b).2 j gen) := by
  obtain ⟨c, hplaces, hkept, hrun⟩ := exists_places (b := b) (t := t) m budget
  rw [treat_eq]
  generalize ((if t.isChosen then m.change budget t.instruction else Build.adopt t.instruction) b).2
    = d at *
  obtain ⟨hc, hknown⟩ := hplaces.reaches hr hs
  -- then code may be generated
  have hd : c.GoesOn d := by
    rcases hrun with rfl | ⟨-, rfl⟩
    · exact .refl hc.sound
    · exact Builder.nests_iff.mp nests_build c hc.sound
  obtain ⟨gen, hgen⟩ := hd.grows
  have hbd := hc.trans hs hd.toReaches
  have hplaced (hb : d.Regarded) : Places t.instruction b c := by
    rw [hknown (hd.regarded hb)] at hplaces
    exact hplaces
  -- hiding comes last
  obtain ⟨hidden, hh, hcontains⟩ : ∃ hidden : Std.TreeSet Variable,
      ((if t.isFrozen then t.instruction.definedVariables.forM hideAdopted else pure ()) d).2 =
        { d with hidden } ∧ ∀ w, hidden.contains w = true ↔ d.hidden.contains w = true ∨
          t.isFrozen = true ∧ ∃ u ∈ t.instruction.definedVariables, d.renamed? u = some w := by
    cases t.isFrozen with
    | false => exact ⟨d.hidden, rfl, by simp⟩
    | true =>
        obtain ⟨hidden, hh, hcontains⟩ := @exists_hidden d t.instruction.definedVariables
        exact ⟨hidden, hh, fun w => by simp [hcontains]⟩
  rw [hh]
  have hagrees : d.Agrees { d with hidden } := ⟨rfl, rfl, rfl, rfl, rfl, rfl⟩
  have hnames (hb : d.Regarded) {u v : Variable} (hu : u ∈ t.instruction.definedVariables)
      (hv : d.renamed? u = some v) : b.nextVariable ≤ v.number ∧ v.number < d.nextVariable := by
    obtain ⟨j, hj, he, hform, -, hnew⟩ := (hplaced hb).exists_emitted harity
    obtain ⟨w, hw, hrename⟩ := b.exists_renamed?_rename hu
      (length_definedVariables_eq harity he hform)
    have hd' : d.renamed? u = some w := by
      rw [Builder.renamed?, hd.newNames, hnew]
      exact hrename
    obtain rfl : w = v := Option.some.inj (hd'.symm.trans hv)
    obtain ⟨hle, hlt⟩ := (hc.definedVariables hs (hd.regarded hb) hj).2 w (by simpa using hw)
    exact ⟨hle, UInt32.lt_of_lt_of_le hlt (hd.toReaches.steps hc.sound hb).1⟩
  refine ⟨hbd.with_hidden (fun w hw => (hcontains w).mpr (.inl hw)) fun hb w hw => ?_,
    fun hb => ?_⟩
  · refine ((hcontains w).mp hw).imp_right fun h => ?_
    obtain ⟨-, u, hu, hu'⟩ := h
    exact hnames hb hu hu'
  have hb' : d.Regarded := hagrees.regarded hb
  obtain ⟨j, hj, he, hform, hinputs, hnew⟩ := (hplaced hb').exists_emitted harity
  have hnoted : (b.noteUnknown t.instruction).problem? = none := by
    rw [hknown (hd.regarded hb')]
    exact ((hbd.regarded hb').faultless hr).problem?
  refine ⟨j, gen, ⟨?_, he, hform, fun hu => ?_, fun v hv => ?_, hd.newNames.trans hnew,
    fun hf u hu v hv => (hcontains v).mpr (.inr ⟨hf, u, hu, hv⟩), fun S hS => ?_⟩⟩
  · change d.instructions.toList = _
    rw [hgen, hj, List.append_assoc, List.singleton_append]
  · have hc' := hkept hu
    rw [Builder.adopt, hknown (hd.regarded hb')] at hc'
    have hlist := Builder.toList_instructions_append (b := b)
      (i := b.emitted t.instruction.operation (b.adoptedInputs t.instruction))
    obtain rfl : j = b.emitted t.instruction.operation (b.adoptedInputs t.instruction) := by
      rw [hc'] at hj
      exact List.singleton_inj.mp (List.append_cancel_left (hj.symm.trans hlist))
    have hdc : d = c := hrun.resolve_right fun h => by simp [hu] at h
    rw [hdc] at hgen
    exact ⟨rfl, rfl, by simpa using hgen⟩
  · exact (hinputs v hv).imp_left (exists_renamed?_of_mem_adoptedInputs hnoted)
  · obtain ⟨S', hsteers, hS'⟩ := hd.guides hb' gen hgen S fun v hv =>
      hc.guards hs (hd.regarded hb') (hS v hv)
    exact ⟨S', hsteers, fun v hv => ⟨(hcontains v).mpr (.inl (hS' v hv).hidden), (hS' v hv).type,
      (hS' v hv).old⟩⟩

/-! ### Many instructions -/

/-- What becomes of one instruction after the other. -/
inductive Treats : List Treatment → Builder → Builder → List Instruction → Prop where
  | nil (b : Builder) : Treats [] b b []
  | cons {t : Treatment} {ts : List Treatment} {b m b' : Builder} {j : Instruction}
      {gen js : List Instruction} (reaches : b.Reaches m) (head : Treated t b m j gen)
      (tail : Treats ts m b' js) : Treats (t :: ts) b b' (j :: gen ++ js)

namespace Treats

variable {ts us : List Treatment} {js before rest : List Instruction}

lemma reaches (h : Treats ts b b' js) (hs : b.Sound) : b.Reaches b' := by
  induction h with
  | nil b => exact .refl hs
  | cons reaches _ _ ih => exact reaches.trans hs (ih reaches.sound)

lemma instructions (h : Treats ts b b' js) :
    b'.instructions.toList = b.instructions.toList ++ js := by
  induction h with
  | nil b => rw [List.append_nil]
  | cons _ head _ ih => rw [ih, head.instructions, List.append_assoc]

/-- What becomes of the first instructions and of the others. -/
lemma exists_of_append (h : Treats (ts ++ us) b b' js) :
    ∃ m is js', js = is ++ js' ∧ Treats ts b m is ∧ Treats us m b' js' := by
  induction ts generalizing b js with
  | nil => exact ⟨b, [], js, rfl, .nil b, h⟩
  | cons t ts ih =>
      cases h with
      | cons reaches head tail =>
          obtain ⟨m, is, js', rfl, hts, hus⟩ := ih tail
          exact ⟨m, _, js', (List.append_assoc ..).symm, .cons reaches head hts, hus⟩

/-- Each instruction of the mutant is there because of one of the program. -/
lemma exists_of_mem (h : Treats ts b b' js) (he : js = before ++ i :: rest) :
    ∃ ts₁ t ts₂ m m' j gen js₁ js₂ k rest', ts = ts₁ ++ t :: ts₂ ∧ Treats ts₁ b m js₁ ∧
      m.Reaches m' ∧ Treated t m m' j gen ∧ Treats ts₂ m' b' js₂ ∧ before = js₁ ++ k ∧
      j :: gen = k ++ i :: rest' ∧ rest = rest' ++ js₂ := by
  induction h generalizing before rest with
  | nil b => simp at he
  | @cons t ts b m b' j gen js reaches head tail ih =>
      rcases exists_of_append_eq_append_cons he with ⟨c, rfl, hc⟩ | ⟨c, hc, rfl⟩
      · obtain ⟨ts₁, t', ts₂, n, n', j', gen', js₁, js₂, k, rest', rfl, h₁, hr, ht, h₂, rfl, hj,
          rfl⟩ := ih hc
        exact ⟨t :: ts₁, t', ts₂, n, n', j', gen', _, js₂, k, rest', rfl, .cons reaches head h₁, hr,
          ht, h₂, (List.append_assoc ..).symm, hj, rfl⟩
      · exact ⟨[], t, ts, b, m, j, gen, [], js, before, c, rfl, .nil b, reaches, head, tail, rfl,
          hc, rfl⟩

end Treats

/-- What is put in place of many instructions is well formed. -/
lemma reaches_treatments (hr : Regard.faultless) (m : MutatorKind) (budget : Nat)
    {ts : List Treatment} (hs : b.Sound)
    (harity : ∀ t ∈ ts, t.instruction.hasConsistentArity = true) :
    b.Reaches (ts.forM (treat (m.change budget)) b).2 := by
  induction ts generalizing b with
  | nil => exact .refl hs
  | cons t ts ih =>
      obtain ⟨ht, hts⟩ := List.forall_mem_cons.mp harity
      have hfirst := (exists_treated hr m budget hs ht).1
      exact hfirst.trans hs (ih hfirst.sound hts)

/-- **Many instructions**, whichever mutator is at work. -/
theorem exists_treats (hr : Regard.faultless) (m : MutatorKind) (budget : Nat) {ts : List Treatment}
    (hs : b.Sound) (harity : ∀ t ∈ ts, t.instruction.hasConsistentArity = true)
    (hb : (ts.forM (treat (m.change budget)) b).2.Regarded) :
    ∃ js, Treats ts b (ts.forM (treat (m.change budget)) b).2 js := by
  induction ts generalizing b with
  | nil => exact ⟨[], .nil b⟩
  | cons t ts ih =>
      obtain ⟨ht, hts⟩ := List.forall_mem_cons.mp harity
      obtain ⟨hfirst, htreated⟩ := exists_treated hr m budget hs ht
      have hrest := reaches_treatments hr m budget hfirst.sound hts
      obtain ⟨j, gen, hj⟩ := htreated (hrest.regarded hb)
      obtain ⟨js, hjs⟩ := ih hfirst.sound hts hb
      exact ⟨_, .cons hfirst hj hjs⟩

end Mutation

end EngineFuzz
