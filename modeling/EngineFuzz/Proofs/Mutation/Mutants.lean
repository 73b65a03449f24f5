import Mathlib
import EngineFuzz.Proofs.Mutation.Changes
import EngineFuzz.Proofs.Validation.FunctionEnds

/-!
# Mutants of accepted programs

A mutator that inserts no code never fails on an accepted program: whatever instructions are chosen
and whatever is drawn, the program that is rebuilt is accepted, and it differs from the old one in
the chosen instructions only, up to an order-preserving renaming that keeps all types.

* `Mutation.Treatment.Yields`: what becomes of an instruction.
* `Mutation.follows_treat`, `Mutation.follows_treatments`: one instruction, and all of them.
* `Mutation.rebuild_eq_ok`: the program that is rebuilt.
-/

namespace EngineFuzz

namespace Mutation

variable {b : Builder} {s s' : Validator} {next : UInt32} {t : Treatment}
  {known : List Variable} {r r' : Variable → Variable} {j : Instruction}

/-- What becomes of an instruction: the operation keeps its name, the outputs are renamed, and an
instruction that is not chosen is kept but for the names. -/
structure Treatment.Yields (t : Treatment) (r : Variable → Variable) (j : Instruction) : Prop where
  name : j.operation.name = t.instruction.operation.name
  outputs : j.outputs = t.instruction.outputs.map r
  innerOutputs : j.innerOutputs = t.instruction.innerOutputs.map r
  kept : t.isChosen = false →
    j.operation = t.instruction.operation ∧ j.inputs = t.instruction.inputs.map r

/-- Only the names of the instruction's own variables matter. -/
lemma Treatment.Yields.congr (h : t.Yields r j)
    (hi : ∀ v ∈ t.instruction.inputs, r' v = r v)
    (hd : ∀ v ∈ t.instruction.definedVariables, r' v = r v) : t.Yields r' j where
  name := h.name
  outputs := h.outputs.trans
    (List.map_congr_left fun v hv => (hd v (List.mem_append_left _ hv)).symm)
  innerOutputs := h.innerOutputs.trans
    (List.map_congr_left fun v hv => (hd v (List.mem_append_right _ hv)).symm)
  kept hc := (h.kept hc).imp_right fun hin =>
    hin.trans (List.map_congr_left fun v hv => (hi v hv).symm)

/-- Hiding variables of the adopted program hides their new names and changes nothing else. -/
lemma exists_hidden {vs : List Variable} : ∃ hidden : Std.TreeSet Variable,
    (vs.forM hideAdopted b).2 = { b with hidden } ∧ ∀ w, hidden.contains w = true ↔
      b.hidden.contains w = true ∨ ∃ v ∈ vs, b.renamed? v = some w := by
  induction vs generalizing b with
  | nil => exact ⟨b.hidden, rfl, by simp⟩
  | cons v vs ih =>
      have hrun : ((v :: vs).forM hideAdopted b).2 = (vs.forM hideAdopted (hideAdopted v b).2).2 :=
        rfl
      have hone : ∃ hidden : Std.TreeSet Variable, (hideAdopted v b).2 = { b with hidden } ∧
          ∀ w, hidden.contains w = true ↔ b.hidden.contains w = true ∨ b.renamed? v = some w := by
        cases hr : b.renamed? v with
        | none =>
            refine ⟨b.hidden, ?_, by simp⟩
            simp [hideAdopted, Build.look, hr, bind, StateT.bind, pure, StateT.pure]
        | some renamed =>
            refine ⟨b.hidden.insert renamed, ?_, fun w => ?_⟩
            · simp only [hideAdopted, Build.look, hr, bind, StateT.bind]
              rfl
            · rw [Std.TreeSet.contains_insert, Bool.or_eq_true, beq_iff_eq, Option.some.injEq,
                Std.compare_eq_iff_eq, or_comm]
      obtain ⟨hidden, hh, hcontains⟩ := hone
      obtain ⟨hidden', hh', hcontains'⟩ := ih (b := { b with hidden })
      refine ⟨hidden', by rw [hrun, hh, hh'], fun w => ?_⟩
      rw [hcontains', hcontains, List.exists_mem_cons_iff, or_assoc]
      rfl

/-- First the instruction is changed or adopted, then what it defines may be hidden. -/
lemma treat_eq {change : Instruction → Build Unit} : (treat change t b).2 =
    ((if t.isFrozen then t.instruction.definedVariables.forM hideAdopted else pure ())
      ((if t.isChosen then change t.instruction else Build.adopt t.instruction) b).2).2 := by
  unfold treat
  cases t.isChosen <;> cases t.isFrozen <;> rfl

/-- **One instruction**: it yields one instruction, and the builder follows the validator behind
it. -/
theorem follows_treat {m : MutatorKind} (hm : m ≠ .codeGen) (budget : Nat)
    (h : b.Follows known s) (ha : s.Admits t.instruction next)
    (hn : t.instruction.NumbersSmall) :
    ∃ j, (treat (m.change budget) t b).2.instructions.toList = b.instructions.toList ++ [j] ∧
      (treat (m.change budget) t b).2.toolbox = b.toolbox ∧
      (treat (m.change budget) t b).2.Follows (known ++ t.instruction.definedVariables)
        ⟨s.scopes.apply t.instruction, s.typer.apply t.instruction, next⟩ ∧
      t.Yields (treat (m.change budget) t b).2.newName j ∧
      ∀ v ∈ known, (treat (m.change budget) t b).2.newName v = b.newName v := by
  -- what is appended, before anything is hidden
  obtain ⟨op, inputs, words, hrun, hj, hkept⟩ : ∃ op inputs words,
      ((if t.isChosen then m.change budget t.instruction else Build.adopt t.instruction) b).2 =
        ({ b with words } : Builder).adoptAs t.instruction op inputs ∧
      t.instruction.StandsFor (b.emitted op inputs) s b.validator ∧
      (t.isChosen = false →
        op = t.instruction.operation ∧ inputs = b.adoptedInputs t.instruction) := by
    cases hc : t.isChosen with
    | true =>
        obtain ⟨op, inputs, words, hrun, hj, -⟩ := MutatorKind.replaces hm budget h ha
        exact ⟨op, inputs, words, congrArg Prod.snd hrun, hj, nofun⟩
    | false =>
        refine ⟨t.instruction.operation, b.adoptedInputs t.instruction, b.words, ?_,
          h.standsFor_adopted ha, fun _ => ⟨rfl, rfl⟩⟩
        change (b.noteUnknown t.instruction).adoptAs t.instruction _ _ = _
        rw [h.noteUnknown ha]
  have hadopt := (h.with_words words).adoptAs ha hn hj
  obtain ⟨hfollows, ho, hi, hknown⟩ := hadopt
  -- hiding comes last
  obtain ⟨hidden, hh⟩ : ∃ hidden, (treat (m.change budget) t b).2 =
      { ({ b with words } : Builder).adoptAs t.instruction op inputs with hidden } := by
    rw [treat_eq, hrun]
    split
    · obtain ⟨hidden, hh, -⟩ := exists_hidden
      exact ⟨hidden, hh⟩
    · exact ⟨_, rfl⟩
  rw [hh]
  refine ⟨b.emitted op inputs, Builder.toList_instructions_append, rfl, hfollows.with_hidden hidden,
    ⟨?_, ho, hi, fun hc => ?_⟩, hknown⟩
  · rw [← Operation.name_form]
    exact (congrArg Operation.name hj.form).trans Operation.name_form
  · obtain ⟨rfl, rfl⟩ := hkept hc
    refine ⟨rfl, ?_⟩
    change t.instruction.inputs.map b.newName = _
    exact List.map_congr_left fun v hv => (hknown v (h.visible (ha.visible v hv)).1).symm

/-- **All instructions**: the builder follows the validator to the end of the program. -/
theorem follows_treatments {m : MutatorKind} (hm : m ≠ .codeGen) (budget : Nat)
    {is : List Instruction} {chosen frozen : List Bool} (h : b.Follows known s)
    (hs : Validator.Steps s is s') (hn : ∀ i ∈ is, i.NumbersSmall) {b' : Builder}
    (hb' : ((treatments is chosen frozen).forM (treat (m.change budget)) b).2 = b') :
    ∃ js, b'.instructions.toList = b.instructions.toList ++ js ∧ b'.toolbox = b.toolbox ∧
      b'.Follows (known ++ is.flatMap (·.definedVariables)) s' ∧
      List.Forall₂ (·.Yields b'.newName ·) (treatments is chosen frozen) js ∧
      ∀ v ∈ known, b'.newName v = b.newName v := by
  induction is generalizing b known s chosen frozen with
  | nil =>
      rw [Validator.steps_nil_iff.mp hs]
      cases hb'
      refine ⟨[], (List.append_nil _).symm, rfl, ?_, .nil, fun v _ => rfl⟩
      rw [List.flatMap_nil, List.append_nil]
      exact h
  | cons i is ih =>
      obtain ⟨m', hhead, htail⟩ := Validator.steps_cons_iff.mp hs
      obtain ⟨next, ha, rfl⟩ := Validator.step_eq_ok_iff.mp hhead
      have hi : i.NumbersSmall := hn i (List.mem_cons_self ..)
      let t : Treatment := ⟨i, chosen.headD false, frozen.headD false⟩
      obtain ⟨j, hins, htool, hfollows, hyields, hnames⟩ := follows_treat (t := t) hm budget h ha hi
      obtain ⟨js, hins', htool', hfollows', hyields', hnames'⟩ := ih hfollows htail
        (fun j hj => hn j (List.mem_cons_of_mem _ hj)) hb'
      refine ⟨j :: js, ?_, htool'.trans htool, ?_, .cons ?_ hyields', fun v hv => ?_⟩
      · rw [hins', hins, List.append_assoc, List.singleton_append]
      · rw [List.flatMap_cons, ← List.append_assoc]
        exact hfollows'
      · refine hyields.congr (fun v hv => hnames' v (List.mem_append_left _ ?_))
          fun v hv => hnames' v (List.mem_append_right _ hv)
        exact (h.visible (ha.visible v hv)).1
      · rw [hnames' v (List.mem_append_left _ hv), hnames v hv]

/-- An empty builder stands where the validator stands in front of the program. -/
lemma follows_start : ({ b.reset with newNames := ∅ } : Builder).Follows []
    (.start b.toolbox.environment) where
  clean := ⟨rfl, .nil _⟩
  renames :=
    { regular := Validator.regular_start
      regular' := Validator.regular_start
      scopes := ⟨rfl, rfl, rfl⟩
      environment := rfl
      modules := rfl
      next := UInt32.le_refl _
      inScope := by simp [Validator.start, ScopeState.start]
      old := nofun
      new := nofun
      ordered := nofun
      types := nofun }
  named := nofun

lemma length_treatments {is : List Instruction} {chosen frozen : List Bool} :
    (treatments is chosen frozen).length = is.length := by
  induction is generalizing chosen frozen with
  | nil => rfl
  | cons i is ih => rw [treatments, List.length_cons, List.length_cons, ih]

/-- The mutant is a program with new names for its variables and with changes in the chosen
instructions that no type depends on. -/
structure Resembles (e : Environment) (p mutant : Program) (ts : List Treatment)
    (r : Variable → Variable) : Prop where
  size : mutant.size = p.size
  instructions : List.Forall₂ (·.Yields r ·) ts mutant.instructions
  /-- The renaming keeps the order of the variables. -/
  ordered : ∀ v ∈ p.instructions.flatMap (·.definedVariables),
    ∀ w ∈ p.instructions.flatMap (·.definedVariables),
      v.number < w.number → (r v).number < (r w).number
  types : ∀ v ∈ p.instructions.flatMap (·.definedVariables),
    (Typer.behind e mutant.instructions).typeOf (r v) = (Typer.behind e p.instructions).typeOf v

/-- **Mutants of accepted programs.**  A mutator that inserts no code rebuilds an accepted program
without an error, whatever instructions are chosen, whatever is drawn and whatever the builder held
before.  There is a renaming that keeps the order of the variables such that every instruction keeps
its operation's name and its renamed outputs, the instructions that are not chosen are kept but for
the names, and every variable has the type under its new name that it had before. -/
theorem rebuild_eq_ok {m : MutatorKind} (hm : m ≠ .codeGen) (budget : Nat) (b : Builder)
    {p : Program} (chosen frozen : List Bool) (h : p.validate b.toolbox.environment = .ok ())
    (hn : p.NumbersSmall) :
    ∃ (mutant : Program) (b' : Builder) (r : Variable → Variable),
      rebuild (m.change budget) (treatments p.instructions chosen frozen) b = (.ok mutant, b') ∧
      mutant.validate b.toolbox.environment = .ok () ∧
      Resembles b.toolbox.environment p mutant (treatments p.instructions chosen frozen) r := by
  obtain ⟨s, hs, hblocks⟩ := Program.validate_eq_ok_iff.mp h
  have hrun : rebuild (m.change budget) (treatments p.instructions chosen frozen) b =
      ((treatments p.instructions chosen frozen).forM (treat (m.change budget))
        { b.reset with newNames := ∅ }).2.finalize := rfl
  generalize hb' : ((treatments p.instructions chosen frozen).forM (treat (m.change budget))
    { b.reset with newNames := ∅ }).2 = b' at hrun
  obtain ⟨js, hins, htool, hfollows, hyields, -⟩ :=
    follows_treatments hm budget follows_start hs hn hb'
  have hjs : b'.instructions.toList = js := hins
  have henv : b'.toolbox.environment = b.toolbox.environment := congrArg _ htool
  obtain ⟨hfin, hvalid⟩ := hfollows.clean.finalize (hfollows.renames.scopes.blocks.trans hblocks)
  rw [henv, hjs] at hvalid
  rw [hjs] at hfin
  refine ⟨.ofInstructions js, b'.reset, b'.newName, hrun.trans hfin, hvalid,
    ⟨?_, hyields, hfollows.renames.ordered, fun v hv => ?_⟩⟩
  · exact hyields.length_eq.symm.trans length_treatments
  · have ht : b'.typer = Typer.behind b.toolbox.environment js := by
      have hsteps := hfollows.clean.accepted
      rw [henv, hjs] at hsteps
      exact hsteps.typer_eq
    have ht' : s.typer = Typer.behind b.toolbox.environment p.instructions := hs.typer_eq
    have htype := hfollows.renames.types v hv
    rw [ht'] at htype
    change b'.typer.typeOf _ = _ at htype
    rw [ht] at htype
    exact htype

/-- A builder without generators that draws nothing but zeros. -/
def idleBuilder : Builder :=
  .start ⟨.script, {}, .empty, .empty, .empty, .empty, .empty⟩ (.ofFunction fun _ => 0)

/-- The constant of the program is chosen to get another payload. -/
theorem rebuild_successor : ∃ (mutant : Program) (b' : Builder) (r : Variable → Variable),
    rebuild (MutatorKind.operation.change 0)
      (treatments successor.instructions [false, false, true] []) idleBuilder = (.ok mutant, b') ∧
    mutant.validate .script = .ok () ∧
    Resembles .script successor mutant
      (treatments successor.instructions [false, false, true] []) r :=
  rebuild_eq_ok (by decide) 0 idleBuilder _ _ (validate_successor .script) (by decide)

end Mutation

end EngineFuzz
