import Mathlib
import EngineFuzz.Proofs.Generation.Insertions
import EngineFuzz.Proofs.Mutation.Treatments

/-!
# Code that is inserted

The mutator that generates code takes nothing away from a program.  The instructions get new names
for their variables, and behind some of those that are chosen stands balanced code with variables
of its own.

* `Instruction.renamed`, `Mutation.interleaved`: an instruction under new names, and instructions
  with segments between them.
* `Mutation.exists_segment`, `Mutation.exists_segments`: what is put behind one instruction, and
  behind each of many.
* `Mutation.Extended`, `Mutation.Apart`: a program with segments, and segments that have nothing to
  do with the rest.
* `Mutation.rebuild_extended`: the program that is rebuilt.
-/

namespace EngineFuzz

namespace Instruction

variable {i : Instruction} {r r' : Variable → Variable}

/-- The instruction under new names. -/
def renamed (r : Variable → Variable) (i : Instruction) : Instruction :=
  ⟨i.operation, i.inputs.map r, i.outputs.map r, i.innerOutputs.map r⟩

lemma definedVariables_renamed :
    (i.renamed r).definedVariables = i.definedVariables.map r := List.map_append.symm

end Instruction

/-! ### Variables that are read -/

/-- What accepted instructions read was in scope before or is defined by one of them. -/
lemma Validator.Steps.inputs_subset {s s' : Validator} {is : List Instruction}
    (hs : Validator.Steps s is s') (hn : ∀ i ∈ is, i.NumbersSmall) (hr : s.Regular) :
    ∀ i ∈ is, ∀ v ∈ i.inputs,
      v ∈ s.scopes.scopes.flatten ∨ v ∈ is.flatMap (·.definedVariables) := by
  induction hs with
  | nil s => nofun
  | @cons s m s' i is head tail ih =>
      obtain ⟨hi, hrest⟩ := List.forall_mem_cons.mp hn
      obtain ⟨next, ha, rfl⟩ := step_eq_ok_iff.mp head
      refine List.forall_mem_cons.mpr ⟨fun v hv => ?_, fun j hj v hv => ?_⟩
      · exact .inl ((hr.tracks.visible v).mp (ha.visible v hv))
      · rw [List.flatMap_cons, List.mem_append]
        rcases ih hrest (hr.step ha hi) j hj v hv with hscope | hlater
        · exact (hr.mem_apply ha hscope).symm.imp_right .inl
        · exact .inr (.inr hlater)

/-- As many fresh variables as there are words differ from each other. -/
lemma Builder.nodup_freshVariables {first : UInt32} {n : ℕ} (h : n ≤ 2 ^ 32) :
    (freshVariables first n).Nodup := by
  refine List.Nodup.map_on (fun k hk l hl heq => ?_) List.nodup_range
  rw [List.mem_range] at hk hl
  have hwords : k.toUInt32 = l.toUInt32 := by simpa using heq
  have hnat := congrArg UInt32.toNat hwords
  simp only [Nat.toUInt32_eq, UInt32.toNat_ofNat'] at hnat
  omega

namespace Mutation

open Builder

variable {b b' : Builder} {s s' : Validator} {t : Treatment} {r r' : Variable → Variable}
  {is : List Instruction} {segments : List (List Instruction)} {chosen frozen : List Bool}

/-! ### Segments between instructions -/

/-- The instructions under new names, with a segment behind each. -/
def interleaved (r : Variable → Variable) (is : List Instruction)
    (segments : List (List Instruction)) : List Instruction :=
  (List.zipWith (fun i segment => i.renamed r :: segment) is segments).flatten

lemma interleaved_cons {i : Instruction} {segment : List Instruction} :
    interleaved r (i :: is) (segment :: segments) =
      i.renamed r :: segment ++ interleaved r is segments := rfl

/-- The variables are those of the instructions, under new names, and those of the segments. -/
lemma perm_definedVariables_interleaved (h : is.length = segments.length) :
    ((interleaved r is segments).flatMap (·.definedVariables)).Perm
      ((is.flatMap (·.definedVariables)).map r ++
        segments.flatten.flatMap (·.definedVariables)) := by
  induction is generalizing segments with
  | nil =>
      obtain rfl := List.length_eq_zero_iff.mp h.symm
      exact .nil
  | cons i is ih =>
      cases segments with
      | nil => cases h
      | cons segment segments =>
          have hrest := ih (Nat.succ.inj h)
          rw [interleaved_cons, List.cons_append, List.flatMap_cons, List.flatMap_append,
            Instruction.definedVariables_renamed, List.flatMap_cons, List.map_append,
            List.flatten_cons, List.flatMap_append, List.append_assoc]
          exact .append_left _ ((hrest.append_left _).trans (List.perm_append_comm_assoc ..))

/-! ### Code behind an instruction -/

/-- An adopted instruction appears under the names that its inputs have and its own variables are
given. -/
lemma emits_adopt {i : Instruction} (harity : i.hasConsistentArity = true)
    (hn : i.definedVariables.Nodup) :
    (∀ v ∉ i.definedVariables, (b.adopt i).newName v = b.newName v) ∧
      ∀ r : Variable → Variable, (∀ v ∈ i.inputs, r v = b.newName v) →
        (∀ v ∈ i.definedVariables, r v = (b.adopt i).newName v) →
        b.Emits (b.adopt i) [i.renamed r] := by
  obtain ⟨-, ho, hi⟩ := Instruction.hasConsistentArity_iff.mp harity
  obtain ⟨problem?, hnoted⟩ : ∃ problem?, b.noteUnknown i = { b with problem? } := by
    rcases noteUnknown_cases (b := b) (i := i) with h | ⟨problem, h⟩
    · exact ⟨b.problem?, h⟩
    · exact ⟨_, h⟩
  let c : Builder := { b with problem? }
  have hadopt : b.adopt i = c.adoptAs i i.operation (b.adoptedInputs i) := by rw [adopt, hnoted]
  obtain ⟨houtputs, hinner, hothers⟩ := newName_adoptAs (b := c) (b.adoptedInputs i) hn ho hi
  refine hadopt ▸ ⟨hothers, fun r hin hd => ?_⟩
  have hrenamed : i.renamed r = c.emitted i.operation (b.adoptedInputs i) := by
    have hold : i.inputs.map r = b.adoptedInputs i := List.map_congr_left hin
    have hout : i.outputs.map r = (c.emitted i.operation (b.adoptedInputs i)).outputs :=
      houtputs ▸ List.map_congr_left fun v hv => hd v (List.mem_append_left _ hv)
    have hinn : i.innerOutputs.map r = (c.emitted i.operation (b.adoptedInputs i)).innerOutputs :=
      hinner ▸ List.map_congr_left fun v hv => hd v (List.mem_append_right _ hv)
    rw [Instruction.renamed, hold, hout, hinn]
    rfl
  have hemits : c.Emits (c.emit i.operation (b.adoptedInputs i)).2 [i.renamed r] :=
    hrenamed ▸ emits_emit
  exact ⟨hemits.instructions, hemits.defined, hemits.next⟩

/-- **Code behind an instruction** is balanced, and there is none if the instruction is not
chosen. -/
theorem exists_segment (budget : ℕ) (harity : t.instruction.hasConsistentArity = true)
    (hn : t.instruction.definedVariables.Nodup)
    (hb' : (treat (MutatorKind.codeGen.change budget) t b).2 = b') :
    (∀ v ∉ t.instruction.definedVariables, b'.newName v = b.newName v) ∧
    ∃ segment, Balanced segment ∧ (segment ≠ [] → t.isChosen = true) ∧
      ∀ r : Variable → Variable, (∀ v ∈ t.instruction.inputs, r v = b.newName v) →
        (∀ v ∈ t.instruction.definedVariables, r v = b'.newName v) →
        b.Emits b' (t.instruction.renamed r :: segment) := by
  obtain ⟨hothers, hemits⟩ := emits_adopt (b := b) harity hn
  -- a build leaves the names as they are
  obtain ⟨c, segment, hc, hbalanced, hchosen, hnames, hsegment⟩ : ∃ c segment,
      ((if t.isChosen then MutatorKind.codeGen.change budget t.instruction
        else Build.adopt t.instruction) b).2 = c ∧ Balanced segment ∧
      (segment ≠ [] → t.isChosen = true) ∧ c.newNames = (b.adopt t.instruction).newNames ∧
      (b.adopt t.instruction).Emits c segment := by
    cases t.isChosen with
    | false => exact ⟨_, [], rfl, .nil, nofun, rfl, .nil rfl rfl⟩
    | true =>
        have hbuild : Build.Inserts (b.adopt t.instruction).frame (Build.build budget)
          (Build.build budget) := Build.inserts_build
        obtain ⟨-, hframe, segment, hsegment, hbalanced⟩ := hbuild _ rfl
        exact ⟨_, segment, rfl, hbalanced, fun _ => rfl, congrArg Frame.newNames hframe, hsegment⟩
  obtain ⟨hidden, rfl⟩ : ∃ hidden, b' = { c with hidden } := by
    rw [← hb', treat_eq, hc]
    split
    · obtain ⟨hidden, hh, -⟩ := @exists_hidden c t.instruction.definedVariables
      exact ⟨hidden, hh⟩
    · exact ⟨_, rfl⟩
  have hname : ({ c with hidden } : Builder).newName = (b.adopt t.instruction).newName :=
    congrArg (fun (names : Std.TreeMap Variable Variable) v => names[v]?.getD v) hnames
  rw [hname]
  refine ⟨hothers, segment, hbalanced, hchosen, fun r hin hd => ?_⟩
  have hall := (hemits r hin hd).trans hsegment
  exact ⟨hall.instructions, hall.defined, hall.next⟩

/-- **Code behind each instruction**: names that are given once are kept. -/
theorem exists_segments (budget : ℕ) (hs : Validator.Steps s is s') (hr : s.Regular)
    (hn : ∀ i ∈ is, i.NumbersSmall)
    (hb' : ((treatments is chosen frozen).forM (treat (MutatorKind.codeGen.change budget)) b).2 =
      b') :
    (∀ v : Variable, v.number < s.nextFresh → b'.newName v = b.newName v) ∧
    ∃ segments, (∀ segment ∈ segments, Balanced segment) ∧
      List.Forall₂ (fun t segment => segment ≠ [] → t.isChosen = true)
        (treatments is chosen frozen) segments ∧
      b.Emits b' (interleaved b'.newName is segments) := by
  induction is generalizing b s chosen frozen with
  | nil =>
      cases hb'
      exact ⟨fun _ _ => rfl, [], nofun, .nil, .nil rfl rfl⟩
  | cons i is ih =>
      obtain ⟨m, hhead, htail⟩ := Validator.steps_cons_iff.mp hs
      obtain ⟨next, ha, rfl⟩ := Validator.step_eq_ok_iff.mp hhead
      obtain ⟨hi, hrest⟩ := List.forall_mem_cons.mp hn
      obtain ⟨hle, hrange, -⟩ := Validator.checkFresh_eq_ok ha.fresh hi
      let t : Treatment := ⟨i, chosen.headD false, frozen.headD false⟩
      obtain ⟨hkept, segment, hbalanced, hchosen, hemits⟩ := exists_segment (t := t) (b := b) budget
        ha.arity (Validator.Sound.nodup_definedVariables ha hi) rfl
      obtain ⟨hkept', segments, hbalanced', hchosen', hemits'⟩ :=
        ih htail (hr.step ha hi) hrest hb'
      -- what is old in front of the instruction is not defined by it
      have hold (v : Variable) (hv : v.number < s.nextFresh) : b'.newName v = b.newName v :=
        (hkept' v (UInt32.lt_of_lt_of_le hv hle)).trans
          (hkept v fun hd => UInt32.not_lt.mpr (hrange v hd).1 hv)
      refine ⟨hold, segment :: segments, List.forall_mem_cons.mpr ⟨hbalanced, hbalanced'⟩,
        .cons hchosen hchosen', (hemits b'.newName (fun v hv => ?_) fun v hv => ?_).trans hemits'⟩
      · exact hold v (hr.old v ((hr.tracks.visible v).mp (ha.visible v hv)))
      · exact hkept' v (hrange v hv).2

/-! ### The program that is rebuilt -/

/-- The mutant is the program with new names for its variables and with a segment behind each
instruction, which is empty unless the instruction is chosen. -/
structure Extended (p mutant : Program) (ts : List Treatment) (r : Variable → Variable)
    (segments : List (List Instruction)) : Prop where
  instructions : mutant.instructions = interleaved r p.instructions segments
  chosen : List.Forall₂ (fun t segment => segment ≠ [] → t.isChosen = true) ts segments
  balanced : ∀ segment ∈ segments, Balanced segment

/-- The variables keep apart: those of the program have different names, and none of those that
segments define is among them or is read by an instruction of the program. -/
structure Apart (p : Program) (r : Variable → Variable) (segments : List (List Instruction)) :
    Prop where
  injective : ∀ v ∈ p.instructions.flatMap (·.definedVariables),
    ∀ w ∈ p.instructions.flatMap (·.definedVariables), r v = r w → v = w
  defined : ∀ segment ∈ segments, ∀ v ∈ segment.flatMap (·.definedVariables),
    v ∉ (p.instructions.flatMap (·.definedVariables)).map r
  unread : ∀ segment ∈ segments, ∀ v ∈ segment.flatMap (·.definedVariables),
    ∀ i ∈ p.instructions, v ∉ (i.renamed r).inputs

/-- **Insertion of code.**  Whatever instructions are chosen, whatever is drawn and whatever the
builder held before, if an accepted program is rebuilt without an error by the mutator that
generates code, then the mutant is the program with new names for its variables and with balanced
code behind some of the chosen instructions.  The names differ from each other and from those that
the new code defines, as long as there are not more variables than words to number them. -/
theorem rebuild_extended (budget : ℕ) (b : Builder) {p mutant : Program} (chosen frozen : List Bool)
    {b' : Builder} (h : p.validate b.toolbox.environment = .ok ()) (hn : p.NumbersSmall)
    (hrun : rebuild (MutatorKind.codeGen.change budget)
      (treatments p.instructions chosen frozen) b = (.ok mutant, b')) :
    ∃ (r : Variable → Variable) (segments : List (List Instruction)),
      Extended p mutant (treatments p.instructions chosen frozen) r segments ∧
      ((mutant.instructions.flatMap (·.definedVariables)).length ≤ 2 ^ 32 →
        Apart p r segments) := by
  obtain ⟨s, hs, -⟩ := Program.validate_eq_ok_iff.mp h
  have hfinal : rebuild (MutatorKind.codeGen.change budget)
      (treatments p.instructions chosen frozen) b =
      ((treatments p.instructions chosen frozen).forM (treat (MutatorKind.codeGen.change budget))
        { b.reset with newNames := ∅ }).2.finalize := rfl
  generalize hc : ((treatments p.instructions chosen frozen).forM
    (treat (MutatorKind.codeGen.change budget)) { b.reset with newNames := ∅ }).2 = c at hfinal
  obtain ⟨-, segments, hbalanced, hchosen, hemits⟩ :=
    exists_segments budget hs Validator.regular_start hn hc
  obtain ⟨rfl, -⟩ := of_finalize_eq_ok (congrArg Prod.fst (hfinal.symm.trans hrun))
  have hcode : (Program.ofInstructions c.instructions.toList).instructions =
      interleaved c.newName p.instructions segments := hemits.instructions
  refine ⟨c.newName, segments, ⟨hcode, hchosen, hbalanced⟩, fun hcount => ?_⟩
  rw [hcode] at hcount
  have hlength : p.instructions.length = segments.length :=
    length_treatments.symm.trans hchosen.length_eq
  have hnodup := (perm_definedVariables_interleaved hlength (r := c.newName)).nodup_iff.mp
    (hemits.defined ▸ nodup_freshVariables hcount)
  obtain ⟨hnames, -, hdisjoint⟩ := List.nodup_append'.mp hnodup
  have hsegment {segment : List Instruction} (hseg : segment ∈ segments) {v : Variable}
      (hv : v ∈ segment.flatMap (·.definedVariables)) :
      v ∉ (p.instructions.flatMap (·.definedVariables)).map c.newName := by
    obtain ⟨i, hi, hd⟩ := List.mem_flatMap.mp hv
    exact fun hold => hdisjoint hold
      (List.mem_flatMap.mpr ⟨i, List.mem_flatten.mpr ⟨segment, hseg, hi⟩, hd⟩)
  refine ⟨fun v hv w hw => List.inj_on_of_nodup_map hnames hv hw,
    fun segment hseg v hv => hsegment hseg hv, fun segment hseg v hv i hi hin => ?_⟩
  obtain ⟨u, hu, rfl⟩ := List.mem_map.mp hin
  refine hsegment hseg hv (List.mem_map_of_mem ?_)
  exact (hs.inputs_subset hn Validator.regular_start i hi u hu).resolve_left (by
    simp [Validator.start, ScopeState.start])

/-- A try block with nothing in it. -/
def emptyTry : Program := .ofInstructions [
  ⟨.beginTry, [], [], []⟩,
  ⟨.beginCatch, [], [], [⟨0⟩]⟩,
  ⟨.endTryCatch, [], [], []⟩]

/-- The try block with a value in it, so that the caught one gets another name. -/
def nullTry : Program := .ofInstructions [
  ⟨.beginTry, [], [], []⟩,
  ⟨.loadNull, [], [⟨0⟩], []⟩,
  ⟨.beginCatch, [], [], [⟨1⟩]⟩,
  ⟨.endTryCatch, [], [], []⟩]

/-- A builder with a single generator that draws nothing but zeros. -/
def nullBuilder : Builder :=
  .start ⟨.script, {}, ⟨[(.null, 1)]⟩, .empty, .empty, .empty, .empty⟩ (.ofFunction fun _ => 0)

lemma rebuild_emptyTry : (rebuild (MutatorKind.codeGen.change 1)
    (treatments emptyTry.instructions [true] []) nullBuilder).1 = .ok nullTry := by
  decide +kernel

/-- The opening instruction of the block is chosen to get a value behind it. -/
theorem extended_emptyTry : ∃ (r : Variable → Variable) (segments : List (List Instruction)),
    Extended emptyTry nullTry (treatments emptyTry.instructions [true] []) r segments ∧
    Apart emptyTry r segments := by
  have hvalid : emptyTry.validate nullBuilder.toolbox.environment = .ok () := by decide
  obtain ⟨r, segments, hextended, hapart⟩ := rebuild_extended 1 nullBuilder [true] [] hvalid
    (by decide) (Prod.ext rebuild_emptyTry rfl)
  exact ⟨r, segments, hextended, hapart (by decide)⟩

end Mutation

end EngineFuzz
