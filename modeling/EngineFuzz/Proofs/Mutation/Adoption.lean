import Mathlib
import EngineFuzz.Proofs.Generation.Drawing
import EngineFuzz.Proofs.Mutation.Replacement

/-!
# Adopted instructions

While a program is rebuilt, the builder keeps the new names of the variables that have been defined
so far.

* `Builder.newName`: what a variable of the adopted program is called.
* `Builder.Follows`: the builder stands where the validator of the adopted program stands.
* `Builder.Follows.adoptAs`: it does so again behind an instruction and what replaces it.
* `Builder.Follows.standsFor`, `Builder.Follows.standsFor_adopted`: replacements with inputs of the
  same types, and the adopted instruction itself.
-/

namespace EngineFuzz

namespace Builder

variable {b : Builder} {old new : List Variable} {v : Variable} {i : Instruction}
  {op : Operation} {inputs : List Variable}

/-- What a variable of the adopted program is called; one without a new name keeps its own. -/
def newName (b : Builder) (v : Variable) : Variable := (b.renamed? v).getD v

lemma adoptedInputs_eq : b.adoptedInputs i = i.inputs.map b.newName := rfl

/-! ### New names -/

lemma rename_cons {o n : Variable} : b.rename (o :: old) (n :: new) =
    ({ b with newNames := b.newNames.insert o n } : Builder).rename old new := rfl

lemma renamed?_insert {o n : Variable} :
    ({ b with newNames := b.newNames.insert o n } : Builder).renamed? v =
      if o = v then some n else b.renamed? v := by
  change (b.newNames.insert o n)[v]? = _
  rw [Std.TreeMap.getElem?_insert]
  by_cases h : o = v
  · rw [if_pos h, if_pos (by simpa using h)]
  · rw [if_neg h, if_neg (by simpa using h)]
    rfl

lemma renamed?_rename_of_not_mem (h : v ∉ old) :
    (b.rename old new).renamed? v = b.renamed? v := by
  induction old generalizing b new with
  | nil => rfl
  | cons o old ih =>
      rw [List.mem_cons, not_or] at h
      cases new with
      | nil => rfl
      | cons n new => rw [rename_cons, ih h.2, renamed?_insert, if_neg (Ne.symm h.1)]

/-- A new name was there before or is one of those that are given. -/
lemma mem_of_renamed?_rename (h : (b.rename old new).renamed? u = some v) :
    b.renamed? u = some v ∨ v ∈ new := by
  induction old generalizing b new with
  | nil => exact .inl h
  | cons o old ih =>
      cases new with
      | nil => exact .inl h
      | cons n new =>
          rw [rename_cons] at h
          rcases ih h with h | h
          · rw [renamed?_insert] at h
            split at h
            · rw [← Option.some.inj h]
              exact .inr (List.mem_cons_self ..)
            · exact .inl h
          · exact .inr (List.mem_cons_of_mem _ h)

lemma map_renamed?_rename (hn : old.Nodup) (hl : old.length = new.length) :
    old.map (b.rename old new).renamed? = new.map some := by
  induction old generalizing b new with
  | nil => rw [List.length_eq_zero_iff.mp hl.symm, List.map_nil, List.map_nil]
  | cons o old ih =>
      cases new with
      | nil => simp at hl
      | cons n new =>
          obtain ⟨ho, hn⟩ := List.nodup_cons.mp hn
          rw [rename_cons, List.map_cons, List.map_cons, renamed?_rename_of_not_mem ho,
            renamed?_insert, if_pos rfl, ih hn (by simpa using hl)]

/-- Each variable that is given a new name has one of them. -/
lemma exists_renamed?_rename (h : v ∈ old) (hl : old.length = new.length) :
    ∃ w ∈ new, (b.rename old new).renamed? v = some w := by
  induction old generalizing b new with
  | nil => exact absurd h List.not_mem_nil
  | cons o old ih =>
      cases new with
      | nil => simp at hl
      | cons n new =>
          rw [rename_cons]
          by_cases hv : v ∈ old
          · obtain ⟨w, hw, hr⟩ := ih hv (by simpa using hl)
              (b := { b with newNames := b.newNames.insert o n })
            exact ⟨w, List.mem_cons_of_mem _ hw, hr⟩
          · obtain rfl := (List.mem_cons.mp h).resolve_right hv
            refine ⟨n, List.mem_cons_self .., ?_⟩
            rw [renamed?_rename_of_not_mem hv, renamed?_insert, if_pos rfl]

lemma rename_append {old' new' : List Variable} (hl : old.length = new.length) :
    (b.rename old new).rename old' new' = b.rename (old ++ old') (new ++ new') := by
  rw [rename, rename, rename, List.zip_append hl, List.foldl_append]

lemma newName_rename_of_not_mem (h : v ∉ old) : (b.rename old new).newName v = b.newName v :=
  congrArg (·.getD v) (renamed?_rename_of_not_mem h)

lemma map_newName_rename (hn : old.Nodup) (hl : old.length = new.length) :
    old.map (b.rename old new).newName = new := by
  have h := map_renamed?_rename (b := b) hn hl
  refine List.ext_getElem? fun k => ?_
  have hk := congrArg (·[k]?) h
  simp only [List.getElem?_map] at hk ⊢
  cases ho : old[k]? with
  | none =>
      rw [ho, Option.map_none] at hk
      rw [Option.map_none, Option.map_eq_none_iff.mp hk.symm]
  | some o =>
      rw [ho, Option.map_some] at hk
      obtain ⟨n, hn, hno⟩ := Option.map_eq_some_iff.mp hk.symm
      rw [Option.map_some, hn, newName, ← hno]
      rfl

lemma contains_rename (hl : old.length = new.length) :
    (b.rename old new).newNames.contains v = true ↔
      v ∈ old ∨ b.newNames.contains v = true := by
  induction old generalizing b new with
  | nil => simp [rename]
  | cons o old ih =>
      cases new with
      | nil => simp at hl
      | cons n new =>
          rw [rename_cons, ih (by simpa using hl), Std.TreeMap.contains_insert, Bool.or_eq_true,
            beq_iff_eq, Std.compare_eq_iff_eq, List.mem_cons, eq_comm (a := o)]
          tauto

/-- The inputs have new names, so that none is noted as unknown. -/
lemma noteUnknown_eq (h : ∀ v ∈ i.inputs, b.newNames.contains v = true) : b.noteUnknown i = b := by
  have hf : i.inputs.find? (fun v => !b.newNames.contains v) = none :=
    List.find?_eq_none.mpr fun v hv => by simp [h v hv]
  rw [noteUnknown, hf]

/-- The names behind an instruction whose variables are named after those that are emitted. -/
lemma adoptAs_eq (ho : i.outputs.length = op.numOutputs) :
    b.adoptAs i op inputs = (b.emit op inputs).2.rename i.definedVariables
      (b.emitted op inputs).definedVariables :=
  rename_append (ho.trans length_freshVariables.symm)

/-- The names behind an instruction whose outputs are named after those that are emitted. -/
lemma newName_adoptAs (inputs : List Variable) (hn : i.definedVariables.Nodup)
    (ho : i.outputs.length = op.numOutputs) (hi : i.innerOutputs.length = op.numInnerOutputs) :
    (b.emitted op inputs).outputs = i.outputs.map (b.adoptAs i op inputs).newName ∧
      (b.emitted op inputs).innerOutputs = i.innerOutputs.map (b.adoptAs i op inputs).newName ∧
        ∀ v, v ∉ i.definedVariables → (b.adoptAs i op inputs).newName v = b.newName v := by
  obtain ⟨hno, hni, hdisj⟩ := List.nodup_append'.mp hn
  have hlo : i.outputs.length = (b.emitted op inputs).outputs.length :=
    ho.trans length_freshVariables.symm
  have hli : i.innerOutputs.length = (b.emitted op inputs).innerOutputs.length :=
    hi.trans length_freshVariables.symm
  have hadopt : b.adoptAs i op inputs = (((b.append (b.emitted op inputs)).rename i.outputs
    (b.emitted op inputs).outputs).rename i.innerOutputs (b.emitted op inputs).innerOutputs) := rfl
  refine ⟨?_, ?_, fun v hv => ?_⟩
  · rw [hadopt]
    have hmap := map_newName_rename hno hlo (b := b.append (b.emitted op inputs))
    refine hmap.symm.trans (List.map_congr_left fun v hv => ?_)
    exact (newName_rename_of_not_mem fun hv' => hdisj hv hv').symm
  · rw [hadopt, map_newName_rename hni hli]
  · rw [Instruction.definedVariables, List.mem_append, not_or] at hv
    rw [hadopt, newName_rename_of_not_mem hv.2, newName_rename_of_not_mem hv.1]
    rfl

/-! ### The builder beside the validator -/

/-- The builder has rebuilt what the validator has passed: it knows the same, and it has a new name
for every variable that has been defined. -/
structure Follows (b : Builder) (known : List Variable) (s : Validator) : Prop where
  clean : b.Clean
  renames : Validator.Renames known b.newName s b.validator
  named : ∀ v ∈ known, b.newNames.contains v = true

namespace Follows

variable {known : List Variable} {s : Validator} {next : UInt32}

/-- The random words do not matter. -/
lemma with_words (h : b.Follows known s) (words : WordSource) :
    ({ b with words } : Builder).Follows known s :=
  ⟨⟨h.clean.flawless, h.clean.accepted⟩, h.renames, h.named⟩

/-- The hidden variables do not matter. -/
lemma with_hidden (h : b.Follows known s) (hidden : Std.TreeSet Variable) :
    ({ b with hidden } : Builder).Follows known s :=
  ⟨⟨h.clean.flawless, h.clean.accepted⟩, h.renames, h.named⟩

/-- A visible variable is known and visible under its new name, with the same type. -/
lemma visible (h : b.Follows known s) {v : Variable} (hv : s.scopes.isVisible v = true) :
    v ∈ known ∧ b.scopes.isVisible (b.newName v) = true ∧
      b.typeOf (b.newName v) = s.typer.typeOf v := by
  have hk : v ∈ known := h.renames.inScope v ((h.renames.regular.tracks.visible v).mp hv)
  exact ⟨hk, h.renames.scopes.isVisible h.renames.regular.tracks h.renames.regular'.tracks hv,
    h.renames.types v hk⟩

lemma noteUnknown (h : b.Follows known s) (ha : s.Admits i next) : b.noteUnknown i = b :=
  noteUnknown_eq fun v hv => h.named v (h.visible (ha.visible v hv)).1

/-- What is offered to generators is visible. -/
lemma isVisible_of_mem (h : b.Follows known s) {v : Variable} (hv : v ∈ b.visibleVariables) :
    b.scopes.isVisible v = true :=
  (h.renames.regular'.tracks.visible v).mpr (mem_visibleVariables_iff.mp hv).1

/-- The adopted inputs are visible and have the types that they had. -/
lemma adoptedInputs (h : b.Follows known s) (ha : s.Admits i next) :
    (∀ v ∈ b.adoptedInputs i, b.scopes.isVisible v = true) ∧
      (b.adoptedInputs i).map b.typeOf = i.inputs.map s.typer.typeOf := by
  rw [adoptedInputs_eq, List.map_map]
  refine ⟨fun v hv => ?_, List.map_congr_left fun v hv => (h.visible (ha.visible v hv)).2.2⟩
  obtain ⟨w, hw, rfl⟩ := List.mem_map.mp hv
  exact (h.visible (ha.visible w hw)).2.1

/-- **Behind an instruction** and what replaces it the builder follows the validator again. -/
theorem adoptAs (h : b.Follows known s) (ha : s.Admits i next) (hn : i.NumbersSmall)
    (hj : i.StandsFor (b.emitted op inputs) s b.validator) :
    (b.adoptAs i op inputs).Follows (known ++ i.definedVariables)
        ⟨s.scopes.apply i, s.typer.apply i, next⟩ ∧
      (b.emitted op inputs).outputs = i.outputs.map (b.adoptAs i op inputs).newName ∧
      (b.emitted op inputs).innerOutputs = i.innerOutputs.map (b.adoptAs i op inputs).newName ∧
      ∀ v ∈ known, (b.adoptAs i op inputs).newName v = b.newName v := by
  obtain ⟨-, hlo, hli⟩ := Instruction.hasConsistentArity_iff.mp ha.arity
  have hno : i.outputs.length = op.numOutputs := hlo.trans hj.numOutputs.symm
  have hni : i.innerOutputs.length = op.numInnerOutputs := hli.trans hj.numInnerOutputs.symm
  obtain ⟨ho, hi, hr⟩ :=
    newName_adoptAs inputs (Validator.Sound.nodup_definedVariables ha hn) hno hni
  have hknown : ∀ v ∈ known, (b.adoptAs i op inputs).newName v = b.newName v := by
    refine fun v hv => hr v fun hd => ?_
    exact UInt32.not_lt.mpr ((Validator.checkFresh_eq_ok ha.fresh hn).2.1 v hd).1
      (h.renames.old v hv)
  have hadmits := hj.admits h.renames ha
  have hclean := h.clean.append hadmits
  have hval : (b.adoptAs i op inputs).validator =
      ⟨b.scopes.apply (b.emitted op inputs), b.typer.apply (b.emitted op inputs),
        b.nextVariable + i.definedVariables.length.toUInt32⟩ := validator_append hadmits
  refine ⟨⟨⟨hclean.flawless, hclean.accepted⟩, ?_, fun v hv => ?_⟩, ho, hi, hknown⟩
  · rw [hval]
    exact h.renames.apply ha hn hj hknown ho hi
  · change ((((b.append (b.emitted op inputs)).rename i.outputs _).rename i.innerOutputs
      _).newNames.contains v) = true
    rw [contains_rename (hni.trans length_freshVariables.symm),
      contains_rename (hno.trans length_freshVariables.symm)]
    rcases List.mem_append.mp hv with hv | hv
    · exact .inr (.inr (h.named v hv))
    · rcases List.mem_append.mp hv with hv | hv
      · exact .inr (.inl hv)
      · exact .inl hv

/-! ### What may replace an instruction -/

/-- An operation of the same form whose outputs have the same types, with inputs of the same
types. -/
lemma standsFor (h : b.Follows known s) (ha : s.Admits i next)
    (hform : op.form = i.operation.form) (hnum : op.numInputs = i.operation.numInputs)
    (hvisible : ∀ v ∈ inputs, b.scopes.isVisible v = true)
    (htypes : inputs.map b.typeOf = i.inputs.map s.typer.typeOf)
    (houtputs : b.typer.outputTypes op inputs = b.typer.outputTypes i.operation inputs) :
    i.StandsFor (b.emitted op inputs) s b.validator where
  form := hform
  count := by
    obtain ⟨hc, -, -⟩ := Instruction.hasConsistentArity_iff.mp ha.arity
    have hl := congrArg List.length htypes
    rw [List.length_map, List.length_map] at hl
    exact hl.trans (hc.trans hnum.symm)
  visible := hvisible
  inputTypes := by
    change i.operation.acceptsInputs (inputs.map b.typeOf) _ = true
    rw [htypes]
    exact ha.inputs
  outputTypes := houtputs.trans (Typer.outputTypes_congr h.renames.environment htypes)
  outputs := rfl
  innerOutputs := rfl

/-- The operation itself, with inputs of the same types. -/
lemma standsFor_inputs (h : b.Follows known s) (ha : s.Admits i next)
    (hvisible : ∀ v ∈ inputs, b.scopes.isVisible v = true)
    (htypes : inputs.map b.typeOf = i.inputs.map s.typer.typeOf) :
    i.StandsFor (b.emitted i.operation inputs) s b.validator :=
  h.standsFor ha rfl rfl hvisible htypes rfl

/-- The instruction itself, under the new names. -/
lemma standsFor_adopted (h : b.Follows known s) (ha : s.Admits i next) :
    i.StandsFor (b.emitted i.operation (b.adoptedInputs i)) s b.validator :=
  h.standsFor_inputs ha (h.adoptedInputs ha).1 (h.adoptedInputs ha).2

end Follows

end Builder

end EngineFuzz
