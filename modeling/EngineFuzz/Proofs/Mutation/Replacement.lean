import Mathlib
import EngineFuzz.Proofs.Mutation.Renaming

/-!
# Instructions that replace others

While a program is rebuilt, the validator of the new program knows what the validator of the old
one knows, under other names.  An instruction stands for one of the old program if it has the same
form, visible inputs of acceptable types, and outputs of the same types.

* `Validator.Renames`: what the validator knows, under other names.
* `Instruction.StandsFor`: an instruction that may replace another one.
* `Instruction.StandsFor.admits`: the validator admits what stands for an admitted instruction.
* `Validator.Renames.apply`: behind it the validator knows the same again.
-/

namespace EngineFuzz

/-- The second validator knows what the first knows, with new names for the variables that are known
so far.  The new names are in the order of the old ones and are not greater. -/
structure Validator.Renames (known : List Variable) (r : Variable → Variable)
    (s s' : Validator) : Prop where
  regular : s.Regular
  regular' : s'.Regular
  scopes : s.scopes.Renames r s'.scopes
  environment : s'.typer.environment = s.typer.environment
  modules : s'.typer.modules.map (·.shape) = s.typer.modules.map (·.shape)
  next : s'.nextFresh ≤ s.nextFresh
  inScope : ∀ v ∈ s.scopes.scopes.flatten, v ∈ known
  old : ∀ v ∈ known, v.number < s.nextFresh
  new : ∀ v ∈ known, (r v).number < s'.nextFresh
  ordered : ∀ v ∈ known, ∀ w ∈ known, v.number < w.number → (r v).number < (r w).number
  types : ∀ v ∈ known, s'.typer.typeOf (r v) = s.typer.typeOf v

/-- An instruction that may replace another one, where the validators `s` and `s'` stand in front
of them: it has the same form, inputs that fit, fresh outputs, and the outputs have the same
types. -/
structure Instruction.StandsFor (i j : Instruction) (s s' : Validator) : Prop where
  form : j.operation.form = i.operation.form
  count : j.inputs.length = j.operation.numInputs
  visible : ∀ v ∈ j.inputs, s'.scopes.isVisible v = true
  inputTypes : i.operation.acceptsInputs (j.inputs.map s'.typer.typeOf)
    s.scopes.currentFunction? = true
  outputTypes : s'.typer.outputTypes j.operation j.inputs =
    s.typer.outputTypes i.operation i.inputs
  outputs : j.outputs = Builder.freshVariables s'.nextFresh j.operation.numOutputs
  innerOutputs : j.innerOutputs = Builder.freshVariables
    (s'.nextFresh + j.operation.numOutputs.toUInt32) j.operation.numInnerOutputs

namespace Validator

/-! ### New numbers -/

/-- Fresh variables that start lower stay lower. -/
lemma checkFresh_freshVariables_le {first first' next : UInt32} {vs : List Variable}
    (h : checkFresh first vs = .ok next) (hs : ∀ v ∈ vs, v.number < lastWord)
    (hle : first' ≤ first) :
    first' + vs.length.toUInt32 ≤ next ∧
      List.Forall₂ (fun w v => w.number ≤ v.number)
        (Builder.freshVariables first' vs.length) vs := by
  induction vs generalizing first first' with
  | nil =>
      rw [← Except.ok.inj h]
      exact ⟨by simpa using hle, by simp [Builder.freshVariables]⟩
  | cons v vs ih =>
      rw [checkFresh] at h
      split at h
      · cases h
      · rename_i hlt
        have hv : first' ≤ v.number := UInt32.le_trans hle (UInt32.not_lt.mp hlt)
        have hsucc : first' + 1 ≤ v.number + 1 := by
          refine add_one_le_of_lt (UInt32.lt_of_le_of_lt hv ?_)
          exact lt_add_one_of_lt_lastWord (hs v (List.mem_cons_self ..))
        obtain ⟨hn, hall⟩ := ih h (fun w hw => hs w (List.mem_cons_of_mem _ hw)) hsucc
        rw [List.length_cons, Builder.add_toUInt32_succ, Builder.freshVariables_succ]
        exact ⟨hn, .cons hv hall⟩

/-- Where both names of variables increase, one order follows from the other. -/
lemma ordered_of_pairwise {r : Variable → Variable} {vs : List Variable}
    (h : vs.Pairwise fun v w => v.number < w.number)
    (h' : (vs.map r).Pairwise fun v w => v.number < w.number) :
    ∀ v ∈ vs, ∀ w ∈ vs, v.number < w.number → (r v).number < (r w).number := by
  induction vs with
  | nil => exact fun v hv => absurd hv List.not_mem_nil
  | cons u vs ih =>
      obtain ⟨hu, hvs⟩ := List.pairwise_cons.mp h
      obtain ⟨hu', hvs'⟩ := List.pairwise_cons.mp h'
      intro v hv w hw hlt
      rcases List.mem_cons.mp hv with rfl | hv₁ <;> rcases List.mem_cons.mp hw with rfl | hw₁
      · exact absurd hlt (UInt32.lt_irrefl _)
      · exact hu' _ (List.mem_map_of_mem hw₁)
      · exact absurd (UInt32.lt_trans hlt (hu v hv₁)) (UInt32.lt_irrefl _)
      · exact ih hvs hvs' v hv₁ w hw₁ hlt

end Validator

namespace Instruction.StandsFor

open Validator

variable {i j : Instruction} {s s' : Validator} {next : UInt32} {known : List Variable}
  {r r' : Variable → Variable}

lemma numOutputs (hj : i.StandsFor j s s') :
    j.operation.numOutputs = i.operation.numOutputs := by
  rw [← Operation.numOutputs_form, hj.form, Operation.numOutputs_form]

lemma numInnerOutputs (hj : i.StandsFor j s s') :
    j.operation.numInnerOutputs = i.operation.numInnerOutputs := by
  rw [← Operation.numInnerOutputs_form, hj.form, Operation.numInnerOutputs_form]

lemma arity (hj : i.StandsFor j s s') : j.hasConsistentArity = true := by
  refine hasConsistentArity_iff.mpr ⟨hj.count, ?_, ?_⟩
  · rw [hj.outputs, Builder.length_freshVariables]
  · rw [hj.innerOutputs, Builder.length_freshVariables]

lemma definedVariables (hj : i.StandsFor j s s') (ha : s.Admits i next) :
    j.definedVariables = Builder.freshVariables s'.nextFresh i.definedVariables.length := by
  obtain ⟨-, ho, hi⟩ := hasConsistentArity_iff.mp ha.arity
  rw [Instruction.definedVariables, Instruction.definedVariables, List.length_append, ho, hi,
    ← hj.numOutputs, ← hj.numInnerOutputs, Builder.freshVariables_add, ← hj.outputs,
    ← hj.innerOutputs]

/-- The new numbers are not greater than the old ones. -/
lemma numbers_le (hj : i.StandsFor j s s') (h : Renames known r s s') (ha : s.Admits i next)
    (hn : i.NumbersSmall) :
    List.Forall₂ (fun w v => w.number ≤ v.number) j.definedVariables i.definedVariables := by
  rw [hj.definedVariables ha]
  exact (checkFresh_freshVariables_le ha.fresh hn h.next).2

lemma numbersSmall (hj : i.StandsFor j s s') (h : Renames known r s s') (ha : s.Admits i next)
    (hn : i.NumbersSmall) : j.NumbersSmall := by
  intro w hw
  obtain ⟨k, hk, rfl⟩ := List.getElem_of_mem hw
  obtain ⟨hl, hall⟩ := List.forall₂_iff_get.mp (hj.numbers_le h ha hn)
  refine UInt32.lt_of_le_of_lt (hall k hk (hl ▸ hk)) (hn _ ?_)
  exact List.getElem_mem _

/-- At the end of a module the imports precede the definitions as they did. -/
lemma imports (hj : i.StandsFor j s s') (h : Renames known r s s') (ha : s.Admits i next) :
    checkImports s'.typer j.operation = .ok () := by
  have hi := ha.ordered
  by_cases he : i.operation.isBlockEnd = true
  · rw [Operation.eq_of_form_of_isBlockEnd hj.form he]
    have hm : s'.typer.currentModule?.bind (·.orderingViolation?) =
        s.typer.currentModule?.bind (·.orderingViolation?) := by
      have hmods := h.modules
      unfold Typer.currentModule?
      cases hl : s.typer.modules with
      | nil =>
          rw [hl, List.map_nil, List.map_eq_nil_iff] at hmods
          rw [hmods]
      | cons layout outer =>
          rw [hl, List.map_cons] at hmods
          obtain ⟨layout', outer', hl', hs, -⟩ := List.map_eq_cons_iff.mp hmods
          rw [hl']
          exact ModuleLayout.orderingViolation?_eq_of_shape hs
    unfold checkImports
    rw [hm]
    exact hi
  · have hne : j.operation ≠ .endWasmModule := by
      intro hend
      rw [← Operation.isBlockEnd_form, ← hj.form, hend] at he
      exact he rfl
    unfold checkImports
    split
    · contradiction
    · rfl

/-- **The validator admits** an instruction that stands for an admitted one. -/
theorem admits (hj : i.StandsFor j s s') (h : Renames known r s s') (ha : s.Admits i next) :
    s'.Admits j (s'.nextFresh + i.definedVariables.length.toUInt32) where
  arity := hj.arity
  visible := hj.visible
  position := h.scopes.check hj.form ha.position
  inputs := by
    rw [← Operation.acceptsInputs_form, hj.form, Operation.acceptsInputs_form,
      h.scopes.currentFunction?]
    exact hj.inputTypes
  fresh := by
    rw [hj.definedVariables ha]
    exact Builder.checkFresh_freshVariables
  ordered := hj.imports h ha

/-- An instruction that imports an entity has an input. -/
lemma isSome_head? (ha : i.hasConsistentArity = true) (hi : i.operation.isImport = true) :
    i.inputs.head?.isSome = true := by
  obtain ⟨hc, -, -⟩ := hasConsistentArity_iff.mp ha
  have hone : i.operation.numInputs = 1 := by
    revert hi
    cases i.operation <;> intro hi <;> first | rfl | cases hi
  rw [hone] at hc
  cases hs : i.inputs with
  | nil => simp [hs] at hc
  | cons v vs => rfl

/-- Both instructions declare entities of the same shape. -/
lemma declared (hj : i.StandsFor j s s') (ha : s.Admits i next) :
    (s'.typer.declared j).map ModuleLayout.entityShape =
      (s.typer.declared i).map ModuleLayout.entityShape := by
  have hdef : j.operation.isDefinition = i.operation.isDefinition := by
    rw [← Operation.isDefinition_form, hj.form, Operation.isDefinition_form]
  have himp : j.operation.isImport = i.operation.isImport := by
    rw [← Operation.isImport_form, hj.form, Operation.isImport_form]
  obtain ⟨-, ho, -⟩ := hasConsistentArity_iff.mp ha.arity
  obtain ⟨-, ho', -⟩ := hasConsistentArity_iff.mp hj.arity
  have hsome : j.output?.isSome = i.output?.isSome := by
    rw [hj.numOutputs, ← ho] at ho'
    unfold output?
    cases hi : i.outputs with
    | nil =>
        rw [hi, List.length_nil, List.length_eq_zero_iff] at ho'
        rw [ho']
    | cons v vs =>
        obtain ⟨v', vs', hj'⟩ := List.exists_cons_of_length_eq_add_one (ho'.trans (by rw [hi]; rfl))
        rw [hj']
        rfl
  unfold Typer.declared
  cases hi : i.output? with
  | none =>
      rw [hi] at hsome
      rw [Option.isNone_iff_eq_none.mp (Option.isSome_eq_false_iff.mp hsome)]
  | some v =>
      rw [hi] at hsome
      obtain ⟨v', hv'⟩ := Option.isSome_iff_exists.mp hsome
      rw [hv']
      dsimp only
      by_cases he : i.operation.isDefinition = true ∨ i.operation.isImport = true
      · have he' : j.operation.isDefinition = true ∨ j.operation.isImport = true := by
          rwa [hdef, himp]
        have hr : s'.typer.resultType j.operation j.inputs =
            s.typer.resultType i.operation i.inputs := by
          have ht := hj.outputTypes
          rw [Typer.outputTypes_of_isDefinition_or_isImport he,
            Typer.outputTypes_of_isDefinition_or_isImport he'] at ht
          exact List.head_eq_of_cons_eq ht
        rw [hr]
        have hop : ∀ source type, j.operation.entries source v' type =
            i.operation.entries source v' type := by
          intro source type
          unfold Operation.entries
          rw [hdef, himp]
        rw [hop]
        by_cases hi' : i.operation.isImport = true
        · refine Operation.map_entityShape_entries ?_
          rw [isSome_head? hj.arity (himp.trans hi'), isSome_head? ha.arity hi']
        · -- a definition has no source
          unfold Operation.entries
          rw [he.resolve_right hi']
          split <;> rfl
      · rw [not_or, Bool.not_eq_true, Bool.not_eq_true] at he
        rw [Operation.entries_of_not he.1 he.2,
          Operation.entries_of_not (hdef.trans he.1) (himp.trans he.2)]

/-- Behind both instructions the modules being defined have the same shapes. -/
lemma modules_apply (hj : i.StandsFor j s s') (h : Renames known r s s') (ha : s.Admits i next)
    (hn : i.NumbersSmall) :
    (s'.typer.apply j).modules.map (·.shape) = (s.typer.apply i).modules.map (·.shape) := by
  have hmods := h.modules
  by_cases he : i.operation = .endWasmModule
  · have hje : j.operation = .endWasmModule := by
      rw [Operation.eq_of_form_of_isBlockEnd hj.form (by rw [he]; rfl), he]
    rw [Typer.modules_apply_endWasmModule he, Typer.modules_apply_endWasmModule hje,
      List.map_tail, List.map_tail, hmods]
  by_cases hb : i.operation = .beginWasmModule
  · have hjb := (Operation.form_eq_beginWasmModule_iff hj.form).mpr hb
    rw [Typer.modules_apply_beginWasmModule hb, Typer.modules_apply_beginWasmModule hjb,
      List.map_cons, List.map_cons, hmods]
  have hje := mt (Operation.form_eq_endWasmModule_iff hj.form).mp he
  have hjb := mt (Operation.form_eq_beginWasmModule_iff hj.form).mp hb
  have hnj := Sound.nodup_definedVariables (hj.admits h ha) (hj.numbersSmall h ha hn)
  rw [Typer.modules_apply ha.arity (Sound.nodup_definedVariables ha hn) hb he,
    Typer.modules_apply hj.arity hnj hjb hje]
  cases hl : s.typer.modules with
  | nil =>
      rw [hl, List.map_nil, List.map_eq_nil_iff] at hmods
      rw [hmods]
      rfl
  | cons layout outer =>
      rw [hl, List.map_cons] at hmods
      obtain ⟨layout', outer', hl', hs, hrest⟩ := List.map_eq_cons_iff.mp hmods
      rw [hl', List.modifyHead_cons, List.modifyHead_cons, List.map_cons, List.map_cons, hrest,
        ModuleLayout.shape_extend, ModuleLayout.shape_extend, hs, hj.declared ha]

/-- The variables that an instruction defines have the types of those that the other defines. -/
lemma types_definedVariables (hj : i.StandsFor j s s') (h : Renames known r s s')
    (ha : s.Admits i next) (hn : i.NumbersSmall) (ho : j.outputs = i.outputs.map r')
    (hi : j.innerOutputs = i.innerOutputs.map r') :
    ∀ v ∈ i.definedVariables, (s'.typer.apply j).typeOf (r' v) = (s.typer.apply i).typeOf v := by
  have hnd := Sound.nodup_definedVariables ha hn
  have hnj := Sound.nodup_definedVariables (hj.admits h ha) (hj.numbersSmall h ha hn)
  obtain ⟨-, hlen, hlen'⟩ := hasConsistentArity_iff.mp ha.arity
  intro v hv
  rcases List.mem_append.mp hv with hv | hv
  · by_cases he : i.operation = .endWasmModule
    · have hje : j.operation = .endWasmModule := by
        rw [Operation.eq_of_form_of_isBlockEnd hj.form (by rw [he]; rfl), he]
      rw [he] at hlen
      obtain ⟨module, exports, hout⟩ := List.length_eq_two.mp hlen
      have hne : exports ≠ module := by
        rw [Instruction.definedVariables, hout] at hnd
        exact fun heq => by simp [heq] at hnd
      have hne' : r' exports ≠ r' module := by
        rw [Instruction.definedVariables, ho, hout] at hnj
        exact fun heq => by simp [heq] at hnj
      have hsig : ((s'.typer.modules.head?.map (·.signature)).getD .empty) =
          ((s.typer.modules.head?.map (·.signature)).getD .empty) := by
        have hmods := h.modules
        cases hl : s.typer.modules with
        | nil =>
            rw [hl, List.map_nil, List.map_eq_nil_iff] at hmods
            rw [hmods]
        | cons layout outer =>
            rw [hl, List.map_cons] at hmods
            obtain ⟨layout', outer', hl', hs, -⟩ := List.map_eq_cons_iff.mp hmods
            rw [hl']
            exact ModuleLayout.signature_eq_of_shape hs
      obtain ⟨hm, hx⟩ := Typer.typeOf_endModule (t := s.typer) hne
      obtain ⟨hm', hx'⟩ := Typer.typeOf_endModule (t := s'.typer) hne'
      rw [Typer.apply_endWasmModule he, Typer.apply_endWasmModule hje, ho, hout]
      rw [hout, List.mem_pair] at hv
      rcases hv with rfl | rfl
      · exact hm'.trans (by rw [hsig, hm])
      · exact hx'.trans (by rw [hsig, hx])
    · have hje := mt (Operation.form_eq_endWasmModule_iff hj.form).mp he
      have hout := (Typer.map_typeOf_outputs hj.arity hnj hje).trans
        (hj.outputTypes.trans (Typer.map_typeOf_outputs ha.arity hnd he).symm)
      rw [ho, List.map_map] at hout
      exact List.map_inj_left.mp hout v hv
  · by_cases he : i.operation = .endWasmModule
    · have hnil : i.innerOutputs = [] := List.length_eq_zero_iff.mp (hlen'.trans (by rw [he]; rfl))
      rw [hnil] at hv
      exact absurd hv List.not_mem_nil
    · have hje := mt (Operation.form_eq_endWasmModule_iff hj.form).mp he
      have hin : Typer.innerOutputTypes j.operation j.operation.numInnerOutputs =
          Typer.innerOutputTypes i.operation i.operation.numInnerOutputs := by
        rw [hj.numInnerOutputs, ← Operation.innerOutputTypes_form, hj.form,
          Operation.innerOutputTypes_form]
      have hinner := (Typer.map_typeOf_innerOutputs hj.arity hnj hje (t := s'.typer)).trans
        (hin.trans (Typer.map_typeOf_innerOutputs ha.arity hnd he (t := s.typer)).symm)
      rw [hi, List.map_map] at hinner
      exact List.map_inj_left.mp hinner v hv

end Instruction.StandsFor

namespace Validator.Renames

variable {i j : Instruction} {s s' : Validator} {next : UInt32} {known : List Variable}
  {r r' : Variable → Variable}

/-- The new names of known variables are not fresh, those of defined ones are. -/
lemma new_apply (h : Renames known r s s') (ha : s.Admits i next) (hn : i.NumbersSmall)
    (hj : i.StandsFor j s s') (hr : ∀ v ∈ known, r' v = r v)
    (hd : j.definedVariables = i.definedVariables.map r') :
    s'.nextFresh ≤ s'.nextFresh + i.definedVariables.length.toUInt32 ∧
      (∀ v ∈ known, (r' v).number < s'.nextFresh) ∧
        ∀ v ∈ i.definedVariables, s'.nextFresh ≤ (r' v).number ∧
          (r' v).number < s'.nextFresh + i.definedVariables.length.toUInt32 := by
  obtain ⟨hle, hrange, -⟩ := checkFresh_eq_ok (hj.admits h ha).fresh (hj.numbersSmall h ha hn)
  refine ⟨hle, fun v hv => ?_, fun v hv => hrange _ ?_⟩
  · rw [hr v hv]
    exact h.new v hv
  · rw [hd]
    exact List.mem_map_of_mem hv

/-- **Replacing an instruction**: behind an instruction and one that stands for it the validators
know the same again, if the new names are given to what is defined. -/
theorem apply (h : Renames known r s s') (ha : s.Admits i next) (hn : i.NumbersSmall)
    (hj : i.StandsFor j s s') (hr : ∀ v ∈ known, r' v = r v)
    (ho : j.outputs = i.outputs.map r') (hi : j.innerOutputs = i.innerOutputs.map r') :
    Renames (known ++ i.definedVariables) r' ⟨s.scopes.apply i, s.typer.apply i, next⟩
      ⟨s'.scopes.apply j, s'.typer.apply j,
        s'.nextFresh + i.definedVariables.length.toUInt32⟩ := by
  obtain ⟨hle, hrange, hpair⟩ := checkFresh_eq_ok ha.fresh hn
  have hd : j.definedVariables = i.definedVariables.map r' := by
    rw [Instruction.definedVariables, ho, hi, Instruction.definedVariables, List.map_append]
  have hpair' : (i.definedVariables.map r').Pairwise fun v w => v.number < w.number := by
    rw [← hd]
    exact (checkFresh_eq_ok (hj.admits h ha).fresh (hj.numbersSmall h ha hn)).2.2
  obtain ⟨hle', hknown, hdefined⟩ := h.new_apply ha hn hj hr hd
  refine ⟨h.regular.step ha hn,
    h.regular'.step (hj.admits h ha) (hj.numbersSmall h ha hn),
    (h.scopes.congr fun v hv => hr v (h.inScope v hv)).apply hj.form ho hi, ?_,
    hj.modules_apply h ha hn, (checkFresh_freshVariables_le ha.fresh hn h.next).1, ?_, ?_, ?_, ?_,
    ?_⟩
  · rw [Typer.environment_apply, Typer.environment_apply, h.environment]
  · intro v hv
    rcases h.regular.mem_apply ha hv with hv | hv
    · exact List.mem_append_right _ hv
    · exact List.mem_append_left _ (h.inScope v hv)
  · intro v hv
    rcases List.mem_append.mp hv with hv | hv
    · exact UInt32.lt_of_lt_of_le (h.old v hv) hle
    · exact (hrange v hv).2
  · intro v hv
    rcases List.mem_append.mp hv with hv | hv
    · exact UInt32.lt_of_lt_of_le (hknown v hv) hle'
    · exact (hdefined v hv).2
  · intro v hv w hw hlt
    rcases List.mem_append.mp hv with hv | hv <;> rcases List.mem_append.mp hw with hw | hw
    · rw [hr v hv, hr w hw]
      exact h.ordered v hv w hw hlt
    · exact UInt32.lt_of_lt_of_le (hknown v hv) (hdefined w hw).1
    · have := UInt32.lt_of_lt_of_le (UInt32.lt_trans hlt (h.old w hw)) (hrange v hv).1
      exact absurd this (UInt32.lt_irrefl _)
    · exact ordered_of_pairwise hpair hpair' v hv w hw hlt
  · intro v hv
    rcases List.mem_append.mp hv with hv | hv
    · have hnot : v ∉ i.definedVariables := fun hmem =>
        UInt32.not_lt.mpr (hrange v hmem).1 (h.old v hv)
      have hnot' : r' v ∉ j.definedVariables := by
        rw [hd]
        intro hmem
        obtain ⟨w, hw, heq⟩ := List.mem_map.mp hmem
        exact UInt32.not_lt.mpr (hdefined w hw).1 (heq ▸ hknown v hv)
      rw [Typer.typeOf_apply_of_not_mem hnot, Typer.typeOf_apply_of_not_mem hnot', hr v hv]
      exact h.types v hv
    · exact hj.types_definedVariables h ha hn ho hi v hv

end Validator.Renames

end EngineFuzz
