import Mathlib
import EngineFuzz.Mutation.Engine
import EngineFuzz.Proofs.Mutation.Adoption

/-!
# What mutators put in place of an instruction

Each mutator that inserts no code draws another payload, another input or another use of an
instance, and appends an instruction that stands for the old one.

* `Mutation.Replaces`: a computation that appends what stands for an instruction.
* `Mutation.draws_otherPayload`: another payload keeps the form of an operation.
* `MutatorKind.replaces`: all mutators but the one that inserts code replace instructions.
-/

namespace EngineFuzz

namespace Mutation

open Build

variable {b : Builder} {s : Validator} {next : UInt32} {i : Instruction} {op : Operation}
  {known inputs : List Variable}

/-- The computation appends what stands for an instruction.  The inputs are those of the instruction
or variables that are offered to generators. -/
def Replaces (c : Build Unit) (i : Instruction) (s : Validator) (b : Builder) : Prop :=
  ∃ op inputs words, c b = ((), ({ b with words } : Builder).adoptAs i op inputs) ∧
    i.StandsFor (b.emitted op inputs) s b.validator ∧
      ∀ v ∈ inputs, v ∈ b.adoptedInputs i ∨ v ∈ b.visibleVariables

lemma replaces_adoptAs (hj : i.StandsFor (b.emitted op inputs) s b.validator)
    (hv : ∀ v ∈ inputs, v ∈ b.adoptedInputs i ∨ v ∈ b.visibleVariables) :
    Replaces (adoptAs i op inputs) i s b :=
  ⟨op, inputs, b.words, rfl, hj, hv⟩

/-- Something is drawn first. -/
lemma Replaces.bind {α : Type} {P : α → Prop} {c : Build α} {f : α → Build Unit}
    (hc : Draws c b P) (hf : ∀ a words, P a → Replaces (f a) i s { b with words }) :
    Replaces (c >>= f) i s b := by
  obtain ⟨hP, words, hw⟩ := hc
  obtain ⟨op, inputs, words', hrun, hj, hv⟩ := hf _ words hP
  have hbind : (c >>= f) b = f (c b).1 (c b).2 := rfl
  refine ⟨op, inputs, words', ?_, hj, hv⟩
  rw [hbind, hw, hrun]

/-- The inputs are adopted first. -/
lemma replaces_of_adoptedInputs (h : b.Follows known s) (ha : s.Admits i next)
    {f : List Variable → Build Unit} (hf : Replaces (f (b.adoptedInputs i)) i s b) :
    Replaces (adoptedInputs i >>= f) i s b := by
  have hrun : (adoptedInputs i >>= f) b = f (b.adoptedInputs i) (b.noteUnknown i) := rfl
  rw [h.noteUnknown ha] at hrun
  rw [Replaces, hrun]
  exact hf

/-- Adopting an instruction replaces it by itself. -/
lemma replaces_adopt (h : b.Follows known s) (ha : s.Admits i next) : Replaces (adopt i) i s b := by
  refine ⟨i.operation, b.adoptedInputs i, b.words, ?_, h.standsFor_adopted ha, fun v => .inl⟩
  change ((), (b.noteUnknown i).adoptAs i i.operation (b.adoptedInputs i)) = _
  rw [h.noteUnknown ha]

/-! ### Another input -/

/-- The inputs with one of them replaced by a variable that is offered and has its type. -/
lemma draws_withOtherInput : Draws (withOtherInput inputs) b fun inputs' =>
    inputs'.map b.typeOf = inputs.map b.typeOf ∧
      ∀ v ∈ inputs', v ∈ inputs ∨ v ∈ b.visibleVariables := by
  have hsame : ∀ words, Draws (pure inputs) { b with words } fun inputs' : List Variable =>
      inputs'.map b.typeOf = inputs.map b.typeOf ∧
        ∀ v ∈ inputs', v ∈ inputs ∨ v ∈ b.visibleVariables :=
    fun words => Draws.pure ⟨rfl, fun v => .inl⟩
  refine Draws.look (Draws.lift fun words words' => ?_)
  split
  · exact hsame words'
  · rename_i slot _
    split
    · exact hsame words'
    · rename_i v hv
      refine Draws.typeOf (draws_randomOfType.bind fun found? words'' hfound => ?_)
      split
      · exact hsame words''
      · rename_i w
        obtain ⟨hw, htype⟩ := hfound w rfl
        refine Draws.pure ⟨?_, fun u hu => ?_⟩
        · rw [List.map_set]
          refine List.ext_getElem? fun k => ?_
          rw [List.getElem?_set]
          split
          · rename_i hk
            rw [← hk, List.getElem?_map, hv]
            split
            · exact congrArg some htype
            · rename_i hlt
              rw [List.length_map] at hlt
              exact absurd (List.getElem?_eq_some_iff.mp hv).1 hlt
          · rfl
        · rcases List.mem_or_eq_of_mem_set hu with hu | rfl
          · exact .inl hu
          · exact .inr hw

lemma replaces_changeInput (h : b.Follows known s) (ha : s.Admits i next) :
    Replaces (changeInput i) i s b := by
  obtain ⟨hvisible, htypes⟩ := h.adoptedInputs ha
  refine replaces_of_adoptedInputs h ha ?_
  refine Replaces.bind draws_withOtherInput fun inputs words hin => ?_
  refine replaces_adoptAs (h.standsFor_inputs ha (fun v hv => ?_) (hin.1.trans htypes)) hin.2
  rcases hin.2 v hv with hv | hv
  · exact hvisible v hv
  · exact h.isVisible_of_mem hv

/-! ### Another payload -/

/-- The operation that is put in place has the same form, and as many inputs. -/
def KeepsForm (op : Operation) (changed? : Option Operation) : Prop :=
  ∀ changed, changed? = some changed →
    changed.form = op.form ∧ ∀ numImports, op ≠ .instantiateWasm numImports

lemma keepsForm_none : KeepsForm op none := fun _ h => nomatch h

lemma keepsForm_some {changed : Operation} (hf : changed.form = op.form)
    (hi : ∀ numImports, op ≠ .instantiateWasm numImports) : KeepsForm op (some changed) := by
  rintro _ ⟨⟩
  exact ⟨hf, hi⟩

lemma draws_randomIndex {percent : Nat} :
    Draws (Generate.randomIndex percent) b fun _ => True := by
  refine Draws.lift fun words words' => ?_
  split
  · exact Draws.lift fun _ _ => Draws.pure trivial
  · exact draws_randomInteger.any fun _ _ => Draws.pure trivial

/-- An operation that is made of something drawn. -/
lemma draws_changed {α : Type} {c : Build α} {P : α → Prop} {make : α → Operation}
    (hc : Draws c b P) (hf : ∀ a, (make a).form = op.form)
    (hi : ∀ numImports, op ≠ .instantiateWasm numImports) :
    Draws (c >>= fun a => pure (some (make a))) b (KeepsForm op) :=
  hc.any fun a _ => Draws.pure (keepsForm_some (hf a) hi)

lemma draws_otherRegExp {pattern flags : String} :
    Draws (otherRegExp pattern flags) b (KeepsForm (.loadRegExp pattern flags)) := by
  refine Draws.look (Draws.lift fun words words' => ?_)
  split
  · refine Draws.lift fun words words' => Draws.pure ?_
    cases (Draw.choose _ words).1 with
    | none => exact keepsForm_none
    | some pattern => exact keepsForm_some rfl nofun
  · refine Draws.lift fun words words' => Draws.pure ?_
    cases (Draw.choose _ words).1 with
    | none => exact keepsForm_none
    | some flags => exact keepsForm_some rfl nofun

lemma draws_otherPropertyNames {names : List String} :
    Draws (otherPropertyNames names) b (KeepsForm (.createObject names)) := by
  refine draws_randomPropertyName.any fun name words => ?_
  split
  · exact Draws.pure keepsForm_none
  · refine Draws.lift fun words words' => Draws.pure (keepsForm_some ?_ nofun)
    simp only [Operation.form, List.length_set]

lemma draws_otherBinaryOperator {old : BinaryOperator} :
    Draws (otherBinaryOperator inputs) b (KeepsForm (.binaryOperation old)) := by
  refine Draws.lift fun words words' => Draws.look ?_
  split
  · exact Draws.pure keepsForm_none
  · exact Draws.pure (keepsForm_some rfl nofun)

lemma draws_otherUnaryOperator {old : UnaryOperator} :
    Draws (otherUnaryOperator inputs) b (KeepsForm (.unaryOperation old)) := by
  refine Draws.lift fun words words' => Draws.look ?_
  split
  · exact Draws.pure keepsForm_none
  · exact Draws.pure (keepsForm_some rfl nofun)

lemma draws_otherScriptPayload :
    Draws (otherScriptPayload op inputs) b (KeepsForm op) := by
  cases op with
  | loadInteger n => exact draws_changed draws_randomInteger (fun _ => rfl) nofun
  | loadBigInt n => exact draws_changed draws_randomInteger (fun _ => rfl) nofun
  | loadFloat x => exact draws_changed draws_randomFloat (fun _ => rfl) nofun
  | loadString s => exact draws_changed draws_randomString (fun _ => rfl) nofun
  | loadBoolean x => exact Draws.pure (keepsForm_some rfl nofun)
  | loadRegExp pattern flags => exact draws_otherRegExp
  | loadBuiltin name => exact draws_changed draws_randomBuiltin (fun _ => rfl) nofun
  | createObject names => exact draws_otherPropertyNames
  | getProperty name | setProperty name | deleteProperty name =>
      exact draws_changed draws_randomPropertyName (fun _ => rfl) nofun
  | getElement index => exact draws_changed draws_randomIndex (fun _ => rfl) nofun
  | setElement index => exact draws_changed draws_randomIndex (fun _ => rfl) nofun
  | callFunction numArgs guarded => exact Draws.pure (keepsForm_some rfl nofun)
  | callMethod method numArgs guarded =>
      change Draws (otherMethod numArgs guarded inputs) b _
      unfold otherMethod
      split
      · exact Draws.pure keepsForm_none
      · exact draws_changed draws_randomMethodName (fun _ => rfl) nofun
  | binaryOperation op => exact draws_otherBinaryOperator
  | unaryOperation op => exact draws_otherUnaryOperator
  | compare op => exact draws_changed draws_any (fun _ => rfl) nofun
  | beginRepeatLoop n => exact draws_changed draws_any (fun _ => rfl) nofun
  | _ => exact Draws.pure keepsForm_none

lemma draws_otherWasmPayload : Draws (otherWasmPayload op) b (KeepsForm op) := by
  cases op with
  | createWasmGlobal v isMutable | wasmDefineGlobal v isMutable | wasmConst v =>
      exact draws_changed draws_randomLiteral (fun _ => rfl) nofun
  | wasmIntBinary | wasmIntUnary | wasmIntCompare | wasmFloatBinary | wasmFloatUnary
  | wasmFloatCompare | wasmMemoryLoad | wasmMemoryStore =>
      exact draws_changed draws_any (fun _ => rfl) nofun
  | _ => exact Draws.pure keepsForm_none

/-- **Another payload** keeps the form of an operation. -/
theorem draws_otherPayload : Draws (otherPayload op inputs) b (KeepsForm op) := by
  refine draws_otherScriptPayload.bind fun changed? words hchanged => ?_
  split
  · exact Draws.pure hchanged
  · exact draws_otherWasmPayload

lemma replaces_changePayload (h : b.Follows known s) (ha : s.Admits i next) :
    Replaces (changePayload i) i s b := by
  obtain ⟨hvisible, htypes⟩ := h.adoptedInputs ha
  refine replaces_of_adoptedInputs h ha ?_
  refine Replaces.bind draws_otherPayload fun changed? words hchanged => ?_
  split
  · exact replaces_adoptAs (h.standsFor_adopted ha) fun v => .inl
  · rename_i changed
    obtain ⟨hform, hnum⟩ := hchanged changed rfl
    let same := b.typer.outputTypes changed (b.adoptedInputs i) ==
      b.typer.outputTypes i.operation (b.adoptedInputs i)
    change Replaces (adoptAs i (if same then changed else i.operation) (b.adoptedInputs i)) i s _
    cases hs : same with
    | false => exact replaces_adoptAs (h.standsFor_adopted ha) fun v => .inl
    | true =>
        refine replaces_adoptAs (h.standsFor ha hform ?_ hvisible htypes (eq_of_beq hs))
          fun v => .inl
        exact Operation.numInputs_eq_of_form hform hnum

/-! ### Another use of an instance -/

/-- Some values of the script, which are offered. -/
lemma draws_someScriptValues {n : Nat} : Draws (someScriptValues n) b fun vs =>
    vs.length ≤ n ∧ ∀ v ∈ vs, v ∈ b.visibleVariables ∧ (b.typeOf v).isScriptValue = true := by
  induction n generalizing b with
  | zero => exact Draws.pure ⟨Nat.le_refl _, fun v hv => absurd hv List.not_mem_nil⟩
  | succ n ih =>
      refine draws_randomVariable.bind fun found? words hfound => ?_
      split
      · exact ih.mono fun vs ⟨hl, hvs⟩ => ⟨Nat.le_succ_of_le hl, hvs⟩
      · rename_i v
        refine Draws.bind ih fun vs words' ⟨hl, hvs⟩ => Draws.pure ⟨?_, ?_⟩
        · exact Nat.succ_le_succ hl
        · exact List.forall_mem_cons.mpr ⟨hfound v rfl, hvs⟩

/-- An instance with other imports stands for one of the same module. -/
lemma standsFor_instantiateWasm (h : b.Follows known s) (ha : s.Admits i next) {n : UInt64}
    (hi : i.operation = .instantiateWasm n) {target : Variable} {imports : List Variable}
    (htarget : (b.adoptedInputs i).head? = some target) (hl : imports.length ≤ 3)
    (himports : ∀ v ∈ imports, v ∈ b.visibleVariables ∧ (b.typeOf v).isScriptValue = true) :
    i.StandsFor (b.emitted (.instantiateWasm imports.length.toUInt64) (target :: imports)) s
      b.validator where
  form := by rw [hi]; rfl
  count := by
    have hlen : imports.length.toUInt64.toNat = imports.length := by
      rw [Nat.toUInt64_eq, UInt64.toNat_ofNat']
      exact Nat.mod_eq_of_lt (by omega)
    change imports.length + 1 = (1 + imports.length.toUInt64).toNat
    rw [UInt64.toNat_add, hlen, Nat.mod_eq_of_lt (by simp; omega)]
    exact Nat.add_comm ..
  visible := List.forall_mem_cons.mpr
    ⟨(h.adoptedInputs ha).1 _ (List.mem_of_mem_head? htarget),
      fun v hv => h.isVisible_of_mem (himports v hv).1⟩
  inputTypes := by
    have hscript := ha.inputs
    rw [hi] at hscript ⊢
    change ((target :: imports).map b.typeOf).all (·.isScriptValue) = true
    have hall : ∀ type ∈ (b.adoptedInputs i).map b.typeOf, type.isScriptValue = true := by
      rw [(h.adoptedInputs ha).2]
      exact List.all_eq_true.mp hscript
    rw [List.all_map, List.all_eq_true]
    refine List.forall_mem_cons.mpr ⟨hall _ (List.mem_map_of_mem ?_), fun v hv => (himports v hv).2⟩
    exact List.mem_of_mem_head? htarget
  outputTypes := by
    have htypes : b.typer.outputTypes i.operation (b.adoptedInputs i) =
        s.typer.outputTypes i.operation i.inputs :=
      Typer.outputTypes_congr h.renames.environment (h.adoptedInputs ha).2
    rw [← htypes, hi]
    cases hin : b.adoptedInputs i with
    | nil =>
        rw [hin] at htarget
        exact nomatch htarget
    | cons v vs =>
        rw [hin] at htarget
        cases htarget
        rfl
  outputs := rfl
  innerOutputs := rfl

lemma draws_accessName {exports : Variable} {pool : List String} {stem : String} :
    Draws (accessName exports pool stem) b fun _ => True := by
  refine Draws.lift fun words words' => ?_
  split
  · refine Draws.typeOf (Draws.lift fun words words' => ?_)
    split
    · exact Draws.pure trivial
    · exact draws_any
  · exact draws_any

/-- The use of an instance with another payload stands for the old one. -/
lemma draws_otherAccess (h : b.Follows known s) (ha : s.Admits i next) {target : Variable}
    (htarget : (b.adoptedInputs i).head? = some target) :
    Draws (otherAccess i.operation target (b.adoptedInputs i)) b fun x =>
      i.StandsFor (b.emitted x.1 x.2) s b.validator ∧
        ∀ v ∈ x.2, v ∈ b.adoptedInputs i ∨ v ∈ b.visibleVariables := by
  obtain ⟨hvisible, htypes⟩ := h.adoptedInputs ha
  have hother : ∀ {op : Operation}, op.form = i.operation.form →
      op.numInputs = i.operation.numInputs →
      b.typer.outputTypes op (b.adoptedInputs i) =
        b.typer.outputTypes i.operation (b.adoptedInputs i) →
      i.StandsFor (b.emitted op (b.adoptedInputs i)) s b.validator ∧
        ∀ v ∈ b.adoptedInputs i, v ∈ b.adoptedInputs i ∨ v ∈ b.visibleVariables :=
    fun hform hnum hout => ⟨h.standsFor ha hform hnum hvisible htypes hout, fun v => .inl⟩
  unfold otherAccess
  split
  · rename_i n hi
    refine Draws.lift fun words words' => ?_
    refine draws_someScriptValues.bind fun imports words'' himports =>
      Draws.pure ⟨?_, fun v hv => ?_⟩
    · refine standsFor_instantiateWasm h ha hi htarget (himports.1.trans ?_) himports.2
      exact Draw.nat64_le (by omega) (by omega)
    · rcases List.mem_cons.mp hv with rfl | hv
      · exact .inl (List.mem_of_mem_head? htarget)
      · exact .inr (himports.2 v hv).1
  · rename_i name hi
    refine draws_accessName.any fun name words => Draws.pure (hother ?_ ?_ ?_) <;> rw [hi] <;> rfl
  · rename_i index hi
    refine Draws.lift fun words words' => Draws.pure (hother ?_ ?_ ?_) <;> rw [hi] <;> rfl
  · rename_i offset bytes hi
    refine Draws.lift fun words words' => Draws.lift fun _ _ => Draws.pure (hother ?_ ?_ ?_) <;>
      rw [hi] <;> rfl
  · rename_i name hi
    refine draws_accessName.any fun name words => Draws.pure (hother ?_ ?_ ?_) <;> rw [hi] <;> rfl
  · exact Draws.pure (hother rfl rfl rfl)

lemma replaces_changeAccess (h : b.Follows known s) (ha : s.Admits i next) :
    Replaces (changeAccess i) i s b := by
  refine replaces_of_adoptedInputs h ha ?_
  cases htarget : (b.adoptedInputs i).head? with
  | none => exact replaces_adopt h ha
  | some target =>
      exact Replaces.bind (draws_otherAccess h ha htarget) fun x words hx =>
        replaces_adoptAs hx.1 hx.2

end Mutation

/-- **Mutators that insert no code** put in place of each instruction one that stands for it. -/
theorem MutatorKind.replaces {m : MutatorKind} (hm : m ≠ .codeGen) (budget : Nat) {b : Builder}
    {s : Validator} {next : UInt32} {i : Instruction} {known : List Variable}
    (h : b.Follows known s) (ha : s.Admits i next) :
    Mutation.Replaces (m.change budget i) i s b := by
  cases m with
  | wasm => exact Mutation.replaces_changeAccess h ha
  | operation => exact Mutation.replaces_changePayload h ha
  | input => exact Mutation.replaces_changeInput h ha
  | codeGen => exact absurd rfl hm

end EngineFuzz
