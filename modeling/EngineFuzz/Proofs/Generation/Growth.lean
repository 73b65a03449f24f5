import Mathlib
import EngineFuzz.Proofs.Generation.Building
import EngineFuzz.Proofs.Generation.Steering
import EngineFuzz.Proofs.Validation.Surroundings

/-!
# Programs that grow

Code that is appended leaves the program well formed as long as variables and operands can be
counted.  A program that can be counted could be counted all along, so that what is said of builders
here is said under the condition that this is so.

* `Builder.Regarded`, `Builder.Settled`, `Builder.Sound`: programs that can be counted, well-formed
  programs, and those that are well formed if they can be counted.
* `Builder.Reaches`, `Builder.Extends`, `Builder.Opens`: one program goes on another, in the same
  block or in an inner one.
* `Builder.Steers`: the loops of the new code are counted, and nothing else uses what steers a loop.
-/

namespace EngineFuzz

namespace Builder

/-! ### Programs that can be counted -/

/-- The variables that the program defines. -/
def allocated (b : Builder) : List Variable :=
  b.instructions.toList.flatMap (·.definedVariables)

/-- The variables, and the operands of each instruction, are not too many for the words that count
them.  A list of so many operands would not fit into memory either. -/
structure Bounded (b : Builder) : Prop where
  numbers : b.allocated.length < 2 ^ 32 - 1
  operands : ∀ i ∈ b.instructions.toList, i.inputs.length < 2 ^ 64 - 1

instance (b : Builder) : Decidable b.Bounded :=
  decidable_of_iff (b.allocated.length < 2 ^ 32 - 1 ∧
      ∀ i ∈ b.instructions.toList, i.inputs.length < 2 ^ 64 - 1)
    ⟨fun h => ⟨h.1, h.2⟩, fun h => ⟨h.numbers, h.operands⟩⟩

/-- Nothing has been found wrong with the program, and no module being defined has an import behind
a definition of its category, which would be found at the end of the module. -/
structure Faultless (b : Builder) : Prop where
  problem? : b.problem? = none
  ordered : b.typer.Ordered

end Builder

/-- Which programs something is said of: all that can be counted, or those without a fault among
them, or those that the computation has not given up on. -/
class Regard where
  faultless : Prop
  unstopped : Prop

namespace Builder

variable {b b' b'' : Builder} {op : Operation} {inputs : List Variable} {v : Variable}
  {is : List Instruction} {block : OpenBlock} {c : Context}

/-- Something is said of the program. -/
structure Regarded [Regard] (b : Builder) : Prop extends b.Bounded where
  faultless : Regard.faultless → b.Faultless
  unstopped : Regard.unstopped → b.problem? ≠ some .missingParameter

/-- A program that goes on another and can be counted. -/
lemma Bounded.of_append (h : b'.Bounded)
    (he : b'.instructions.toList = b.instructions.toList ++ is) : b.Bounded where
  numbers := by
    have hv := h.numbers
    rw [allocated, he, List.flatMap_append, List.length_append] at hv
    rw [allocated]
    omega
  operands i hi := h.operands i (by rw [he]; exact List.mem_append_left _ hi)

/-- Where an instruction leaves no fault there was none before. -/
lemma Faultless.of_append {i : Instruction} (h : (b.append i).Faultless) :
    b.Faultless ∧ b.fault? i = none := by
  obtain ⟨hp, hf⟩ := Option.or_eq_none_iff.mp (problem?_append.symm.trans h.problem?)
  have hf' : b.fault? i = none := Option.map_eq_none_iff.mp hf
  exact ⟨⟨hp, Typer.Ordered.of_apply h.ordered (fault?_eq_none_iff.mp hf').2⟩, hf'⟩

lemma Regarded.of_emit [Regard] (h : (b.emit op inputs).2.Regarded) : b.Regarded where
  toBounded := h.toBounded.of_append toList_instructions_append
  faultless hr := (h.faultless hr).of_append.1
  unstopped hr hp := h.unstopped hr (problem?_append.trans (by rw [hp, Option.some_or]))

/-- The program is well formed so far: the validator accepts it, its variables are numbered one
after another, and its imports are in order. -/
structure Settled (b : Builder) : Prop extends b.Clean where
  small : ∀ i ∈ b.instructions.toList, i.NumbersSmall
  next : b.nextVariable.toNat = b.allocated.length
  hiddenOld : ∀ v, b.hidden.contains v = true → v.number < b.nextVariable
  ordered : b.typer.Ordered
  scripted : b.toolbox.environment.IsScriptTyped

/-- The program is well formed if something is said of it. -/
def Sound [Regard] (b : Builder) : Prop := b.Regarded → b.Settled

namespace Settled

lemma sound (h : b.Settled) : b.validator.Sound :=
  (Validator.sound_start h.scripted).steps h.accepted h.small

lemma placed (h : b.Settled) : b.scopes.Placed := h.sound.fits.toPlaced

lemma contexts_ne_nil (h : b.Settled) : b.scopes.contexts ≠ [] := h.placed.contexts_ne_nil

lemma scopes_ne_nil (h : b.Settled) : b.scopes.scopes ≠ [] := by
  obtain ⟨top, rest, hs, -⟩ := h.sound.fits.exists_scopes
  change b.scopes.scopes = _ at hs
  simp [hs]

lemma isVisible_iff (h : b.Settled) :
    b.scopes.isVisible v = true ↔ v ∈ b.scopes.scopes.flatten := h.sound.fits.tracks.visible v

lemma lt_next (h : b.Settled) (hv : b.scopes.isVisible v = true) : v.number < b.nextVariable :=
  h.sound.old v (h.isVisible_iff.mp hv)

lemma signed (h : b.Settled) : ∀ block ∈ b.scopes.blocks, block.Signed :=
  h.accepted.signed (by simp [Validator.start, ScopeState.start])

lemma scopes_length (h : b.Settled) :
    b.scopes.scopes.length = b.scopes.blocks.length + 1 :=
  (h.accepted.regular h.small Validator.regular_start).length

end Settled

lemma settled_start {toolbox : Toolbox} {words : WordSource}
    (h : toolbox.environment.IsScriptTyped) : (start toolbox words).Settled where
  toClean := clean_start
  small := by simp [start]
  next := rfl
  hiddenOld := by simp [start]
  ordered := by simp [Typer.Ordered, start, Typer.start]
  scripted := h

/-- Two builders hold the same program, whatever else they hold. -/
structure Agrees (b b' : Builder) : Prop where
  toolbox : b'.toolbox = b.toolbox
  instructions : b'.instructions = b.instructions
  nextVariable : b'.nextVariable = b.nextVariable
  scopes : b'.scopes = b.scopes
  typer : b'.typer = b.typer
  problem? : b'.problem? = b.problem?

namespace Agrees

lemma allocated (h : b.Agrees b') : b'.allocated = b.allocated := by
  rw [Builder.allocated, Builder.allocated, h.instructions]

lemma regarded [Regard] (h : b.Agrees b') (hb : b'.Regarded) : b.Regarded where
  toBounded := hb.toBounded.of_append (by rw [h.instructions, List.append_nil])
  faultless hr := ⟨h.problem?.symm.trans (hb.faultless hr).problem?,
    h.typer ▸ (hb.faultless hr).ordered⟩
  unstopped hr := h.problem? ▸ hb.unstopped hr

lemma settled (h : b.Agrees b') (hs : b.Settled)
    (hh : ∀ v, b'.hidden.contains v = true → v.number < b.nextVariable) : b'.Settled where
  flawless := h.problem?.trans hs.flawless
  accepted := by
    have hv : b'.validator = b.validator := by
      rw [validator, validator, h.scopes, h.typer, h.nextVariable]
    rw [hv, h.toolbox, h.instructions]
    exact hs.accepted
  small := by
    rw [h.instructions]
    exact hs.small
  next := by
    rw [h.allocated, h.nextVariable]
    exact hs.next
  hiddenOld := by
    rw [h.nextVariable]
    exact hh
  ordered := by
    rw [h.typer]
    exact hs.ordered
  scripted := by
    rw [h.toolbox]
    exact hs.scripted

lemma sound [Regard] (h : b.Agrees b') (hs : b.Sound)
    (hh : b'.Regarded → ∀ v, b'.hidden.contains v = true → v.number < b.nextVariable) : b'.Sound :=
  fun hb => h.settled (hs (h.regarded hb)) (hh hb)

end Agrees

lemma agrees_hide : b.Agrees (Build.hide v b).2 := ⟨rfl, rfl, rfl, rfl, rfl, rfl⟩

lemma contains_hide {w : Variable} :
    (Build.hide v b).2.hidden.contains w = (v == w || b.hidden.contains w) := by
  have hvw : (compare v w == .eq) = (v == w) :=
    Bool.eq_iff_iff.mpr (by rw [beq_iff_eq, beq_iff_eq, Std.compare_eq_iff_eq])
  rw [← hvw]
  exact Std.TreeSet.contains_insert

/-! ### Appending one instruction -/

lemma mem_freshVariables {first : UInt32} {n : Nat} (hv : v ∈ freshVariables first n)
    (hn : first.toNat + n < 2 ^ 32) :
    first.toNat ≤ v.number.toNat ∧ v.number.toNat < first.toNat + n := by
  obtain ⟨k, hk, rfl⟩ := List.mem_map.mp hv
  rw [List.mem_range] at hk
  have he : (first + k.toUInt32).toNat = first.toNat + k := by
    rw [UInt32.toNat_add, Nat.toUInt32_eq, UInt32.toNat_ofNat', Nat.add_mod_mod,
      Nat.mod_eq_of_lt (by omega)]
  change first.toNat ≤ (first + k.toUInt32).toNat ∧ (first + k.toUInt32).toNat < _
  omega

lemma toList_instructions_emit :
    (b.emit op inputs).2.instructions.toList =
      b.instructions.toList ++ [b.emitted op inputs] := toList_instructions_append

lemma length_allocated_emit : (b.emit op inputs).2.allocated.length =
    b.allocated.length + (op.numOutputs + op.numInnerOutputs) := by
  rw [allocated, toList_instructions_emit, List.flatMap_append, List.length_append, allocated,
    List.flatMap_singleton, definedVariables_emitted, length_freshVariables]

/-- What an operation and its inputs have to satisfy at the end of a well-formed program. -/
structure Fits (b : Builder) (op : Operation) (inputs : List Variable) : Prop where
  count : inputs.length = op.numInputs
  visible : ∀ v ∈ inputs, b.scopes.isVisible v = true
  ending : op.isBlockEnd = true → b.scopes.checkBlockEnd op = .ok ()
  context : b.scopes.context.contains op.requiredContext = true
  inputTypes : op.acceptsInputs (inputs.map b.typeOf) b.scopes.currentFunction? = true
  importable : ∀ c, op.importCategory? = some c → b.canImport c = true

lemma checkImports_eq_ok {t : Typer} (h : t.Ordered) : Validator.checkImports t op = .ok () := by
  have hn : t.currentModule?.bind (·.orderingViolation?) = none := by
    rw [Typer.currentModule?]
    cases hm : t.modules with
    | nil => rfl
    | cons l ls => exact h l (by rw [hm]; exact List.mem_cons_self ..)
  unfold Validator.checkImports
  rw [hn]
  split
  · rename_i hc
    cases hc
  · rfl

lemma Fits.takes (h : b.Fits op inputs) (hs : b.Settled) : b.Takes op inputs where
  count := h.count
  visible := h.visible
  position := ScopeState.check_eq_ok_iff.mpr ⟨h.ending, h.context⟩
  inputTypes := h.inputTypes
  ordered := checkImports_eq_ok hs.ordered

namespace Settled

lemma small_emitted (hs : b.Settled) (hb : (b.emit op inputs).2.Bounded) :
    (b.emitted op inputs).NumbersSmall := by
  intro v hv
  have hlen := hb.numbers
  rw [length_allocated_emit, ← hs.next] at hlen
  rw [definedVariables_emitted] at hv
  obtain ⟨-, hlt⟩ := mem_freshVariables hv (by omega)
  rw [UInt32.lt_iff_toNat_lt]
  simp only [Validator.lastWord, UInt32.reduceToNat]
  omega

/-- An operation that the validator admits leaves the program well formed, if the modules being
defined stay in order. -/
lemma emit_admitted (hs : b.Settled) {next : UInt32}
    (ha : b.validator.Admits (b.emitted op inputs) next) (hb : (b.emit op inputs).2.Bounded)
    (ho : (b.emit op inputs).2.typer.Ordered) : (b.emit op inputs).2.Settled := by
  have hn := hs.small_emitted hb
  have hnext : (b.emit op inputs).2.nextVariable = next :=
    congrArg Validator.nextFresh (validator_append ha)
  obtain rfl : b.nextVariable + (op.numOutputs + op.numInnerOutputs).toUInt32 = next := by
    have hf : Validator.checkFresh b.nextVariable (b.emitted op inputs).definedVariables =
      .ok next := ha.fresh
    rw [definedVariables_emitted, checkFresh_freshVariables] at hf
    exact Except.ok.inj hf
  have hclean := hs.toClean.append ha
  refine ⟨⟨hclean.flawless, hclean.accepted⟩, fun i hi => ?_, ?_, fun v hv => ?_, ho, hs.scripted⟩
  · rw [toList_instructions_emit, List.mem_append, List.mem_singleton] at hi
    rcases hi with hi | rfl
    · exact hs.small i hi
    · exact hn
  · have hlen := hb.numbers
    rw [length_allocated_emit] at hlen ⊢
    rw [hnext, UInt32.toNat_add, Nat.toUInt32_eq, UInt32.toNat_ofNat', hs.next, Nat.add_mod_mod,
      Nat.mod_eq_of_lt (by omega)]
  · obtain ⟨hle, -⟩ := Validator.checkFresh_eq_ok ha.fresh hn
    rw [hnext]
    exact UInt32.lt_of_lt_of_le (hs.hiddenOld v hv) hle

/-- **An operation that fits** leaves the program well formed. -/
theorem emit (hs : b.Settled) (hf : b.Fits op inputs) (hb : (b.emit op inputs).2.Bounded) :
    (b.emit op inputs).2.Settled := by
  have ha := (hf.takes hs).admits
  have hn := hs.small_emitted hb
  refine hs.emit_admitted ha hb ?_
  refine hs.ordered.apply ha.arity (Validator.Sound.nodup_definedVariables ha hn)
    fun c hc l hl => ?_
  have hi := hf.importable c hc
  rw [canImport, Option.mem_def.mp hl] at hi
  exact hi

end Settled

/-! ### Programs that go on others -/

variable [Regard]

/-- The types are those behind the instructions. -/
def Tracked (b : Builder) : Prop :=
  b.typer = b.instructions.toList.foldl Typer.apply (.start b.toolbox.environment)

/-- The second program is the first one with further code, which is well formed. -/
structure Reaches (b b' : Builder) : Prop where
  sound : b'.Sound
  toolbox : b'.toolbox = b.toolbox
  tracked : b.Tracked → b'.Tracked
  grows : ∃ is, b'.instructions.toList = b.instructions.toList ++ is
  regarded : b'.Regarded → b.Regarded
  /-- Nothing but new variables and values of the script is hidden, or not any more. -/
  hidden : b'.Regarded → ∀ v : Variable, v.number < b.nextVariable →
    (b.typeOf v).isScriptValue = false → b'.hidden.contains v = b.hidden.contains v

namespace Reaches

/-- The validator accepts the further code behind the first program. -/
lemma accepted (h : b.Reaches b') (hs : b.Sound) (hb : b'.Regarded)
    (he : b'.instructions.toList = b.instructions.toList ++ is) :
    Validator.Steps b.validator is b'.validator := by
  have hacc := (h.sound hb).accepted
  rw [he, h.toolbox, Validator.steps_append_iff] at hacc
  obtain ⟨m, hm, hrest⟩ := hacc
  obtain rfl : m = b.validator := hm.unique (hs (h.regarded hb)).accepted
  exact hrest

/-- Numbers only rise, and old variables keep their types. -/
lemma steps (h : b.Reaches b') (hs : b.Sound) (hb : b'.Regarded) :
    b.nextVariable ≤ b'.nextVariable ∧
      ∀ v : Variable, v.number < b.nextVariable → b'.typeOf v = b.typeOf v := by
  obtain ⟨is, he⟩ := h.grows
  refine (h.accepted hs hb he).typeOf_eq fun i hi => (h.sound hb).small i ?_
  rw [he]
  exact List.mem_append_right _ hi

/-- What the further code defines is new, and it is defined once. -/
lemma definedVariables (h : b.Reaches b') (hs : b.Sound) (hb : b'.Regarded)
    (he : b'.instructions.toList = b.instructions.toList ++ is) :
    (is.flatMap (·.definedVariables)).Nodup ∧ ∀ v ∈ is.flatMap (·.definedVariables),
      b.nextVariable ≤ v.number ∧ v.number < b'.nextVariable := by
  have hacc := h.accepted hs hb he
  have hn : ∀ i ∈ is, i.NumbersSmall := fun i hi => (h.sound hb).small i (by
    rw [he]
    exact List.mem_append_right _ hi)
  exact ⟨hacc.nodup_definedVariables hn, fun v hv =>
    ⟨hacc.fresh_definedVariables hn v hv, hacc.definedVariables_lt hn v hv⟩⟩

lemma refl (hs : b.Sound) : b.Reaches b where
  sound := hs
  toolbox := rfl
  tracked := id
  grows := ⟨[], by rw [List.append_nil]⟩
  regarded := id
  hidden _ _ _ _ := rfl

lemma trans (hs : b.Sound) (h : b.Reaches b') (h' : b'.Reaches b'') : b.Reaches b'' where
  sound := h'.sound
  toolbox := h'.toolbox.trans h.toolbox
  tracked ht := h'.tracked (h.tracked ht)
  grows := by
    obtain ⟨is, he⟩ := h.grows
    obtain ⟨js, he'⟩ := h'.grows
    exact ⟨is ++ js, by rw [he', he, List.append_assoc]⟩
  regarded hb := h.regarded (h'.regarded hb)
  hidden hb v hv ht := by
    have hb' := h'.regarded hb
    obtain ⟨hle, htypes⟩ := h.steps hs hb'
    rw [h'.hidden hb v (UInt32.lt_of_lt_of_le hv hle) (by rw [htypes v hv]; exact ht),
      h.hidden hb' v hv ht]

/-- The same program in a builder that hides the same. -/
lemma of_agrees (hs : b.Sound) (h : b.Agrees b') (hh : b'.hidden = b.hidden) : b.Reaches b' where
  sound := h.sound hs fun hb => by
    rw [hh]
    exact (hs (h.regarded hb)).hiddenOld
  toolbox := h.toolbox
  tracked ht := by
    rw [Tracked, h.typer, h.instructions, h.toolbox]
    exact ht
  grows := ⟨[], by rw [h.instructions, List.append_nil]⟩
  regarded := h.regarded
  hidden _ v _ _ := by rw [hh]

/-- A variable is hidden that is new or a value of the script. -/
lemma hide (h : b.Reaches b') (hv : b'.Regarded → v.number < b'.nextVariable ∧
      (v.number < b.nextVariable → (b.typeOf v).isScriptValue = true)) :
    b.Reaches (Build.hide v b').2 := by
  have ha : b'.Agrees (Build.hide v b').2 := agrees_hide
  refine ⟨ha.sound h.sound fun hb w hw => ?_, h.toolbox, h.tracked, h.grows,
    fun hb => h.regarded (ha.regarded hb), fun hb w hw ht => ?_⟩
  · rw [contains_hide, Bool.or_eq_true, beq_iff_eq] at hw
    have hb' := ha.regarded hb
    rcases hw with rfl | hw
    · exact (hv hb').1
    · exact (h.sound hb').hiddenOld w hw
  · have hb' := ha.regarded hb
    have hne : v ≠ w := by
      rintro rfl
      rw [(hv hb').2 hw] at ht
      exact nomatch ht
    rw [contains_hide, beq_eq_false_iff_ne.mpr hne, Bool.false_or]
    exact h.hidden hb' w hw ht

end Reaches

omit [Regard] in
lemma Tracked.emit (h : b.Tracked) : (b.emit op inputs).2.Tracked := by
  rw [Tracked, toList_instructions_emit, List.foldl_append, List.foldl_cons, List.foldl_nil]
  exact congrArg (Typer.apply · (b.emitted op inputs)) h

/-- An operation that fits is appended. -/
lemma Sound.reaches_emit (hs : b.Sound)
    (hf : (b.emit op inputs).2.Regarded → b.Settled → b.Fits op inputs) :
    b.Reaches (b.emit op inputs).2 where
  sound hb := by
    have hset : b.Settled := hs hb.of_emit
    exact hset.emit (hf hb hset) hb.toBounded
  toolbox := rfl
  tracked := Tracked.emit
  grows := ⟨_, toList_instructions_emit⟩
  regarded := Regarded.of_emit
  hidden _ _ _ _ := rfl

/-- The second program goes on the first one and ends in the same block.  No variable of an adopted
program gets another name. -/
structure Extends (b b' : Builder) : Prop extends b.Reaches b' where
  scopes : b'.Regarded → b.scopes.Extends b'.scopes
  newNames : b'.newNames = b.newNames

/-- The second program goes on the first one and ends in an inner block. -/
structure Opens (b : Builder) (block : OpenBlock) (c : Context) (b' : Builder) : Prop
    extends b.Reaches b' where
  scopes : b'.Regarded → b.scopes.Opens block c b'.scopes
  newNames : b'.newNames = b.newNames

namespace Extends

lemma refl (hs : b.Sound) : b.Extends b := ⟨.refl hs, fun _ => .refl, rfl⟩

lemma trans (hs : b.Sound) (h : b.Extends b') (h' : b'.Extends b'') : b.Extends b'' :=
  ⟨h.toReaches.trans hs h'.toReaches,
    fun hb => (h.scopes (h'.regarded hb)).trans (h'.scopes hb), h'.newNames.trans h.newNames⟩

lemma of_agrees (hs : b.Sound) (h : b.Agrees b') (hh : b'.hidden = b.hidden)
    (hn : b'.newNames = b.newNames) : b.Extends b' :=
  ⟨.of_agrees hs h hh, fun _ => by rw [h.scopes]; exact .refl, hn⟩

lemma hide (h : b.Extends b') (hv : b'.Regarded → v.number < b'.nextVariable ∧
      (v.number < b.nextVariable → (b.typeOf v).isScriptValue = true)) :
    b.Extends (Build.hide v b').2 :=
  ⟨h.toReaches.hide hv, fun hb => h.scopes (agrees_hide.regarded hb), h.newNames⟩

lemma isVisible (h : b.Extends b') (hs : b.Sound) (hb : b'.Regarded)
    (hv : b.scopes.isVisible v = true) : b'.scopes.isVisible v = true := by
  rw [(h.sound hb).isVisible_iff]
  exact (h.scopes hb).mem_flatten ((hs (h.regarded hb)).isVisible_iff.mp hv)

end Extends

namespace Opens

lemma trans (hs : b.Sound) (h : b.Opens block c b') (h' : b'.Extends b'') : b.Opens block c b'' :=
  ⟨h.toReaches.trans hs h'.toReaches,
    fun hb => (h.scopes (h'.regarded hb)).trans (h'.scopes hb), h'.newNames.trans h.newNames⟩

lemma hide (h : b.Opens block c b') (hv : b'.Regarded → v.number < b'.nextVariable ∧
      (v.number < b.nextVariable → (b.typeOf v).isScriptValue = true)) :
    b.Opens block c (Build.hide v b').2 :=
  ⟨h.toReaches.hide hv, fun hb => h.scopes (agrees_hide.regarded hb), h.newNames⟩

lemma isVisible (h : b.Opens block c b') (hs : b.Sound) (hb : b'.Regarded)
    (hv : b.scopes.isVisible v = true) : b'.scopes.isVisible v = true := by
  rw [(h.sound hb).isVisible_iff]
  exact (h.scopes hb).mem_flatten ((hs (h.regarded hb)).isVisible_iff.mp hv)

lemma tail_ne_nil (h : b.Opens block c b') (hb : b'.Regarded) : b'.scopes.scopes.tail ≠ [] := by
  have hl := (h.sound hb).scopes_length
  rw [(h.scopes hb).blocks, List.length_cons] at hl
  intro ht
  have := congrArg List.length ht
  rw [List.length_tail, List.length_nil] at this
  omega

end Opens

/-! ### Plain operations, and those that open and close blocks -/

variable (hs : b.Sound)
include hs

lemma Sound.extends_emit (hf : (b.emit op inputs).2.Regarded → b.Settled → b.Fits op inputs)
    (hst : op.isBlockStart = false) (he : op.isBlockEnd = false) :
    b.Extends (b.emit op inputs).2 := by
  have hr := hs.reaches_emit hf
  exact ⟨hr, fun hb => ScopeState.extends_apply (hs (hr.regarded hb)).scopes_ne_nil hst he, rfl⟩

lemma Sound.opens_emit (hf : (b.emit op inputs).2.Regarded → b.Settled → b.Fits op inputs)
    (hst : op.isBlockStart = true) (he : op.isBlockEnd = false) :
    b.Opens (ScopeState.openedBlock op none) (op.innerContext b.scopes.context)
      (b.emit op inputs).2 := by
  have hr := hs.reaches_emit hf
  refine ⟨hr, fun hb => ?_, rfl⟩
  have hset := hs (hr.regarded hb)
  exact ScopeState.opens_apply (i := b.emitted op inputs) hset.scopes_ne_nil hset.contexts_ne_nil
    hst he

/-- The operation that closes the block. -/
lemma Opens.close (h : b.Opens block c b')
    (hf : (b'.emit op inputs).2.Regarded → b'.Settled → b'.Fits op inputs)
    (hst : op.isBlockStart = false) (he : op.isBlockEnd = true) :
    b.Extends (b'.emit op inputs).2 := by
  have hr := h.sound.reaches_emit hf
  refine ⟨h.toReaches.trans hs hr, fun hb => ?_, h.newNames⟩
  have hb' := hr.regarded hb
  exact (h.scopes hb').close (h.tail_ne_nil hb') hst he

/-- The operation that opens the second part of the block. -/
lemma Opens.switch (h : b.Opens block c b')
    (hf : (b'.emit op inputs).2.Regarded → b'.Settled → b'.Fits op inputs)
    (hst : op.isBlockStart = true) (he : op.isBlockEnd = true) :
    b.Opens { block with switched := true } (op.innerContext b.scopes.context)
      (b'.emit op inputs).2 := by
  have hr := h.sound.reaches_emit hf
  refine ⟨h.toReaches.trans hs hr, fun hb => ?_, h.newNames⟩
  have hb' := hr.regarded hb
  exact (h.scopes hb').switch (i := b'.emitted op inputs) (h.tail_ne_nil hb')
    (hs (h.regarded hb')).contexts_ne_nil hst he

omit hs

/-! ### What steers loops -/

/-- The variable is kept from generators and is no value of the script. -/
structure Guards (b : Builder) (v : Variable) : Prop where
  hidden : b.hidden.contains v = true
  type : (b.typeOf v).isScriptValue = false
  old : v.number < b.nextVariable

/-- The variable may be used, and it is not kept from generators unless it is a value of the
script. -/
structure Usable (b : Builder) (v : Variable) : Prop where
  visible : b.scopes.isVisible v = true
  type : b.hidden.contains v = true → (b.typeOf v).isScriptValue = true

omit [Regard] in
lemma Usable.not_guards (h : b.Usable v) : ¬b.Guards v := fun hg => by
  have := h.type hg.hidden
  rw [hg.type] at this
  cases this

namespace Reaches

lemma guards (h : b.Reaches b') (hs : b.Sound) (hb : b'.Regarded) (hv : b.Guards v) :
    b'.Guards v := by
  obtain ⟨hle, htypes⟩ := h.steps hs hb
  refine ⟨?_, ?_, UInt32.lt_of_lt_of_le hv.old hle⟩
  · rw [h.hidden hb v hv.old hv.type]
    exact hv.hidden
  · rw [htypes v hv.old]
    exact hv.type

lemma usable (h : b.Reaches b') (hs : b.Sound) (hb : b'.Regarded) (hv : b.Usable v)
    (hvis : b'.scopes.isVisible v = true) : b'.Usable v ∧ b'.typeOf v = b.typeOf v := by
  have hold : v.number < b.nextVariable := (hs (h.regarded hb)).lt_next hv.visible
  have htype := (h.steps hs hb).2 v hold
  refine ⟨⟨hvis, fun hh => ?_⟩, htype⟩
  rw [htype]
  by_contra hn
  rw [Bool.not_eq_true] at hn
  rw [h.hidden hb v hold hn] at hh
  rw [hv.type hh] at hn
  exact nomatch hn

end Reaches

/-- Between the two programs all loops are counted, and nothing else uses what steers a loop: what
was kept from generators, and what steers the new loops, is kept from them in the end. -/
def Guides (b b' : Builder) : Prop :=
  b'.Regarded → ∀ is, b'.instructions.toList = b.instructions.toList ++ is →
    ∀ S : List Variable, (∀ v ∈ S, b.Guards v) →
      ∃ S', Steers S is S' ∧ ∀ v ∈ S', b'.Guards v

/-- Between programs with the same instructions there are no loops. -/
lemma Reaches.guides (h : b.Reaches b') (hs : b.Sound) (he : b'.instructions = b.instructions) :
    b.Guides b' := by
  intro hb is his S hS
  obtain rfl : is = [] := by simpa [he] using his
  exact ⟨S, .nil S, fun v hv => h.guards hs hb (hS v hv)⟩

lemma Guides.trans (h : b.Reaches b') (h' : b'.Reaches b'') (hg : b.Guides b')
    (hg' : b'.Guides b'') : b.Guides b'' := by
  intro hb js hjs S hS
  obtain ⟨is, his⟩ := h.grows
  obtain ⟨is', his'⟩ := h'.grows
  obtain rfl : js = is ++ is' := by
    rw [his', his, List.append_assoc] at hjs
    exact (List.append_cancel_left hjs).symm
  obtain ⟨T, hT, hTg⟩ := hg (h'.regarded hb) is his S hS
  obtain ⟨S', hS', hSg⟩ := hg' hb is' his' T hTg
  exact ⟨S', hT.append hS', hSg⟩

/-- An operation uses what may be used. -/
lemma Sound.guides_emit (hs : b.Sound)
    (hr : b.Reaches (b.emit op inputs).2) (hl : op.isLoopEdge = false)
    (hu : (b.emit op inputs).2.Regarded → b.Settled → ∀ v ∈ inputs, b.Usable v) :
    b.Guides (b.emit op inputs).2 := by
  intro hb is his S hS
  obtain rfl : is = [b.emitted op inputs] := by
    rw [toList_instructions_emit] at his
    exact (List.append_cancel_left his).symm
  refine ⟨S, .single hl fun v hv hvS => ?_, fun v hv => hr.guards hs hb (hS v hv)⟩
  exact (hu hb (hs (hr.regarded hb)) v hv).not_guards (hS v hvS)

end Builder

end EngineFuzz
