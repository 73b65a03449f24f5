import Mathlib
import EngineFuzz.Proofs.Generation.Loops
import EngineFuzz.Proofs.Generation.ScriptGenerators

/-!
# Generators of modules

Each generator of module bodies and of function bodies appends well-formed code wherever it may
stand.

* `Place.Allows.typed`: operations whose operands have known types.
* `Build.AppendsAt.importing`: an import, as long as its category may be imported.
* `Generate.appends_wasmFunctionWith`, `Generate.appends_randomModule`: functions and modules with
  generated code.
-/

namespace EngineFuzz

namespace Operation

variable {op : Operation}

/-- An import has one operand and one output. -/
lemma isImport_eq_true (h : op.isImport = true) : op.isBlockStart = false ∧ op.isBlockEnd = false ∧
    op.numInputs = 1 ∧ op.numOutputs = 1 ∧ op.requiredContext = .wasmModule := by
  cases op <;> first | exact ⟨rfl, rfl, rfl, rfl, rfl⟩ | exact (Bool.false_ne_true h).elim

end Operation

namespace StaticType

variable {t : StaticType}

lemma isGlobalEntity_iff :
    t.isGlobalEntity = true ↔ ∃ type isMutable, t = .wasmEntity (.global type isMutable) := by
  cases t with
  | wasmEntity e => cases e <;> simp [isGlobalEntity]
  | _ => simp [isGlobalEntity]

lemma isMutableGlobalEntity_iff :
    t.isMutableGlobalEntity = true ↔ ∃ type, t = .wasmEntity (.global type true) := by
  cases t with
  | wasmEntity e =>
      cases e with
      | global type isMutable => cases isMutable <;> simp [isMutableGlobalEntity]
      | _ => simp [isMutableGlobalEntity]
  | _ => simp [isMutableGlobalEntity]

lemma isMemoryEntity_iff : t.isMemoryEntity = true ↔
    ∃ minimum maximum shared, t = .wasmEntity (.memory minimum maximum shared) := by
  cases t with
  | wasmEntity e => cases e <;> simp [isMemoryEntity]
  | _ => simp [isMemoryEntity]

/-- Functions may be imported under every signature. -/
lemma acceptsInputs_importFunction {signature : FunctionSignature}
    {s? : Option FunctionSignature} (h : t.isCallable = true) :
    (Operation.wasmImportFunction signature).acceptsInputs [t] s? = true := by
  cases t <;> first | rfl | exact (Bool.false_ne_true h).elim

lemma isLabel_iff : t.isLabel = true ↔ t = .label := by
  cases t <;> simp [isLabel]

end StaticType

namespace Build

variable {α β : Type} {b : Builder} {p : Place} {Γ Δ : Known} {v w : Variable} {op : Operation}
  {inputs : List Variable} {m : Build α} {f : α → Build β} {P : α → Known → Prop}
  {Q : β → Known → Prop} {t : StaticType} {type : WasmType} {c : EntityCategory}

/-! ### What only draws -/

lemma draws_randomReferenceType : Draws randomReferenceType b fun _ => True := draws_any

lemma draws_randomLimits {least more : ℕ} : Draws (randomLimits least more) b fun _ => True := by
  refine Draws.lift fun _ _ => Draws.lift fun _ _ => ?_
  split
  · exact Draws.lift fun _ _ => Draws.pure trivial
  · exact Draws.pure trivial

/-- A random signature has at most one result. -/
lemma draws_randomSignature : Draws randomSignature b fun s => s.results.length ≤ 1 := by
  refine Draws.any draws_randomParameterCount fun n _ => ?_
  refine Draws.any (draws_times fun _ => draws_randomNumericType) fun params _ => ?_
  refine Draws.lift fun _ _ => ?_
  split
  · exact Draws.bind (draws_times fun _ => draws_randomNumericType) fun results _ h =>
      Draws.pure h.1.le
  · exact Draws.pure (Nat.zero_le 1)

/-! ### What a computation asks the builder -/

variable [Regard]

/-- The signature of the function around the position. -/
lemma Appends.currentFunction {f : Option FunctionSignature → Build β}
    (hf : ∀ s?, Appends ⟨p.context, s?⟩ Γ (f s?) Q) :
    Appends p Γ (Build.look (fun b => b.scopes.currentFunction?) >>= f) Q := by
  intro b hs hk
  obtain ⟨he, hg, Δ, hQ, hΔ⟩ := hf b.scopes.currentFunction? b hs fun hb =>
    ⟨⟨(hk hb).context, rfl, (hk hb).visible⟩, (hk hb).free⟩
  refine ⟨he, hg, Δ, hQ, fun hb => ?_⟩
  obtain ⟨⟨hc, -, hvis⟩, hfree⟩ := hΔ hb
  exact ⟨⟨hc, ((hk (he.regarded hb)).mono hs he hb).function, hvis⟩, hfree⟩

lemma AppendsAt.look {α : Type} {g : Builder → α} {f : α → Build β}
    (h : AppendsAt b p Γ (f (g b)) Q) : AppendsAt b p Γ (Build.look g >>= f) Q := h

lemma AppendsAt.draw {d : Draw α} (hf : ∀ a words, AppendsAt { b with words } p Γ (f a) Q) :
    AppendsAt b p Γ ((liftM d : Build α) >>= f) Q :=
  .draws draws_any fun a words _ => hf a words

/-- A visible variable, if there is one of an accepted type. -/
lemma AppendsAt.randomVariable {accepts : StaticType → Bool} {f : Option Variable → Build β}
    (hnone : ∀ words, AppendsAt { b with words } p Γ (f none) Q)
    (hsome : ∀ v t words, accepts t = true →
      AppendsAt { b with words } p ((v, t) :: Γ) (f (some v)) Q) :
    AppendsAt b p Γ (Build.randomVariable accepts >>= f) Q := by
  obtain ⟨-, words, hw⟩ := @draws_randomVariable b accepts
  refine AppendsAt.of_randomVariable.bind fun found? Δ h => ?_
  rw [hw]
  cases found? with
  | none => exact fun hs hk => hnone words hs fun hb =>
      (hk hb).subset (List.subset_append_right ..)
  | some v =>
      obtain ⟨t, ht, rfl⟩ := h v rfl
      exact hsome v t words ht

/-! ### Imports -/

/-- An import, as long as its category may be imported. -/
theorem AppendsAt.importing (hp : p.context.isWasmModule = true) (hop : op.isImport = true)
    (hv : (v, t) ∈ Γ) (ha : op.acceptsInputs [t] p.function? = true)
    (hc : ∀ c, op.importCategory? = some c → b.canImport c = true) :
    AppendsAt b p Γ (Build.value op [v]) fun v Δ => Δ.vars = [v] := by
  obtain ⟨hst, he, hi, ho, hcontext⟩ := Operation.isImport_eq_true hop
  exact .value_vars (.typed [t] (by rw [hcontext]; exact hp) (by simpa using hv) hi.symm
    fun _ _ => ha) hst he (fun _ _ => hc) ho

/-- Code that runs as long as a category may be imported. -/
lemma appends_whenImportable {m : Build Unit}
    (hm : ∀ b, b.canImport c = true → AppendsAt b p Γ m fun _ Δ => Δ = []) :
    Appends p Γ (do if ← look (·.canImport c) then m) fun _ Δ => Δ = [] := by
  intro b
  refine AppendsAt.look ?_
  split
  · exact hm b ‹_›
  · exact .pure rfl (List.nil_subset _)

end Build

namespace Generate

open Build

variable {p : Place} {Γ : Known} {v w : Variable} {nested : Build Unit} {n : ℕ} {b : Builder}
  {t : StaticType} {type : WasmType}

/-! ### Function bodies -/

lemma draws_randomWidth : Draws randomWidth b fun _ => True := by
  refine Draws.lift fun _ _ => ?_
  split <;> exact Draws.pure trivial

variable [Regard]

section

variable (hp : p.context.isWasmFunction = true)
include hp

lemma appends_wasmConst : Appends p Γ wasmConst fun _ Δ => Δ = [] :=
  .draws (fun _ => draws_randomNumericType) fun _ _ =>
    .draws (fun _ => draws_randomLiteral) fun _ _ => (Build.appends_wasmConst hp).drop

/-- Two values of a type. -/
lemma appends_wasmPair : Appends p Γ (wasmPair type) fun vs Δ =>
    List.Forall₂ (fun v t => (v, t) ∈ Δ) vs [.wasm type, .wasm type] := by
  refine (appends_wasmValueOf hp).bind fun v Δ hv => (appends_wasmValueOf hp).bind fun w Δ' hw => ?_
  exact .pure (Δ := Δ' ++ Δ) (by simp [hv, hw]) (by simp)

/-- An operation on two values of one type. -/
lemma appends_onPair {op : Operation} (hop : op.isPlain = true) (ho : op.numOutputs = 1)
    (hc : op.requiredContext = .wasmFunction) (hn : op.numInputs = 2)
    (ha : ∀ s?, op.acceptsInputs [.wasm type, .wasm type] s? = true) :
    Appends p Γ (do let _ ← value op (← wasmPair type)) fun _ Δ => Δ = [] := by
  refine (appends_wasmPair hp).bind fun vs Δ hvs => ?_
  refine (appends_value_vars hop (.typed [.wasm type, .wasm type] (by rw [hc]; exact hp) ?_ hn.symm
    fun _ _ => ha _) ho).drop
  exact hvs.imp fun v t h => List.mem_append_left _ h

/-- An operation on one value. -/
lemma appends_onValue {op : Operation} (hop : op.isPlain = true) (ho : op.numOutputs = 1)
    (hc : op.requiredContext = .wasmFunction) (hn : op.numInputs = 1)
    (ha : ∀ s?, op.acceptsInputs [.wasm type] s? = true) :
    Appends p Γ (do let _ ← value op [← wasmValueOf type]) fun _ Δ => Δ = [] := by
  refine (appends_wasmValueOf hp).bind fun v Δ hv => ?_
  exact (appends_value_vars hop (.typed [.wasm type] (by rw [hc]; exact hp) (by simp [hv]) hn.symm
    fun _ _ => ha _) ho).drop

lemma appends_wasmIntBinary : Appends p Γ wasmIntBinary fun _ Δ => Δ = [] :=
  .draws (fun _ => draws_randomWidth) fun width _ => .draw fun _ =>
    appends_onPair hp rfl rfl rfl rfl fun _ => by cases width <;> rfl

lemma appends_wasmIntUnary : Appends p Γ wasmIntUnary fun _ Δ => Δ = [] :=
  .draws (fun _ => draws_randomWidth) fun width _ => .draw fun _ =>
    appends_onValue hp rfl rfl rfl rfl fun _ => by cases width <;> rfl

lemma appends_wasmIntEqz : Appends p Γ wasmIntEqz fun _ Δ => Δ = [] :=
  .draws (fun _ => draws_randomWidth) fun width _ =>
    appends_onValue hp rfl rfl rfl rfl fun _ => by cases width <;> rfl

lemma appends_wasmIntCompare : Appends p Γ wasmIntCompare fun _ Δ => Δ = [] :=
  .draws (fun _ => draws_randomWidth) fun width _ => .draw fun _ =>
    appends_onPair hp rfl rfl rfl rfl fun _ => by cases width <;> rfl

lemma appends_wasmFloatBinary : Appends p Γ wasmFloatBinary fun _ Δ => Δ = [] :=
  .draws (fun _ => draws_randomWidth) fun width _ => .draw fun _ =>
    appends_onPair hp rfl rfl rfl rfl fun _ => by cases width <;> rfl

lemma appends_wasmFloatUnary : Appends p Γ wasmFloatUnary fun _ Δ => Δ = [] :=
  .draws (fun _ => draws_randomWidth) fun width _ => .draw fun _ =>
    appends_onValue hp rfl rfl rfl rfl fun _ => by cases width <;> rfl

lemma appends_wasmFloatCompare : Appends p Γ wasmFloatCompare fun _ Δ => Δ = [] :=
  .draws (fun _ => draws_randomWidth) fun width _ => .draw fun _ =>
    appends_onPair hp rfl rfl rfl rfl fun _ => by cases width <;> rfl

/-! ### Entities in function bodies -/

lemma appends_wasmGlobalLoad (hv : (v, t) ∈ Γ) (ht : t.isGlobalEntity = true) :
    Appends p Γ (wasmGlobalLoad v) fun _ Δ => Δ = [] := by
  obtain ⟨type, isMutable, rfl⟩ := StaticType.isGlobalEntity_iff.mp ht
  have hop : p.Allows Γ .wasmLoadGlobal [v] :=
    .typed [_] hp (by simpa using hv) rfl fun _ _ => rfl
  exact (appends_value_vars rfl hop rfl).drop

lemma appends_wasmGlobalStore (hv : (v, t) ∈ Γ) (ht : t.isMutableGlobalEntity = true) :
    Appends p Γ (wasmGlobalStore v) fun _ Δ => Δ = [] := by
  obtain ⟨type, rfl⟩ := StaticType.isMutableGlobalEntity_iff.mp ht
  refine Appends.typeOf (Known.mem_vars_iff.mpr ⟨_, hv⟩) fun t' => ?_
  split
  · rename_i type' isMutable
    refine (appends_wasmValueOf hp).bind fun w Δ hw => appends_perform rfl ?_
    refine .typed [.wasmEntity (.global type' isMutable), .wasm type'] hp (by simp [hw]) rfl
      fun τ hτ => ?_
    have heq : StaticType.wasmEntity (.global type true) = .wasmEntity (.global type' isMutable) :=
      hτ.unique v (by simp [hv]) (by simp)
    cases heq
    exact isWasmValue_iff.mpr rfl
  · exact .pure rfl (List.nil_subset _)

lemma appends_indexBelow : Appends p Γ (indexBelow n) fun v Δ => Δ = [(v, .wasm .i32)] := by
  refine .draw fun below => ?_
  split
  · exact .draw fun _ => appends_wasmInteger hp
  · exact appends_wasmValueOf hp

lemma appends_wasmTableGet (hv : v ∈ Γ.vars) :
    Appends p Γ (wasmTableGet v) fun _ Δ => Δ = [] := by
  refine Appends.typeOf hv fun t => ?_
  split
  · rename_i element minimum maximum
    refine (appends_indexBelow hp).bind fun index Δ hindex => ?_
    have hop : p.Allows (Δ ++ (v, .wasmEntity (.table element minimum maximum)) :: Γ)
        .wasmTableGet [v, index] :=
      .typed [.wasmEntity (.table element minimum maximum), .wasm .i32] hp (by simp [hindex]) rfl
        fun _ _ => rfl
    exact (appends_value_vars rfl hop rfl).drop
  · exact .pure rfl (List.nil_subset _)

lemma appends_wasmTableSet (hv : v ∈ Γ.vars) :
    Appends p Γ (wasmTableSet v) fun _ Δ => Δ = [] := by
  refine Appends.typeOf hv fun t => ?_
  split
  · rename_i element minimum maximum
    refine (appends_indexBelow hp).bind fun index Δ hindex => ?_
    refine (appends_wasmValueOf hp).bind fun w Δ' hw => appends_perform rfl ?_
    exact .typed [.wasmEntity (.table element minimum maximum), .wasm .i32, .wasm element] hp
      (by simp [hindex, hw]) rfl fun _ _ => isWasmValue_iff.mpr rfl
  · exact .pure rfl (List.nil_subset _)

lemma appends_memoryOperands (hv : v ∈ Γ.vars) :
    Appends p Γ (memoryOperands v type) fun r Δ => Δ = [(r.1, .wasm .i32)] := by
  refine Appends.typeOf hv fun t => ?_
  refine .draw fun small => ?_
  have hindex (bound offset : ℕ) : Appends p ((v, t) :: Γ)
      (indexBelow bound >>= fun address => pure (address, offset.toUInt64))
      fun r Δ => Δ = [(r.1, .wasm .i32)] :=
    (appends_indexBelow hp).bind fun address Δ h => .pure h (List.subset_append_left ..)
  cases small with
  | true => exact hindex _ 0
  | false => exact .draw fun offset => hindex _ offset

lemma appends_wasmMemoryLoad (hv : (v, t) ∈ Γ) (ht : t.isMemoryEntity = true) :
    Appends p Γ (wasmMemoryLoad v) fun _ Δ => Δ = [] := by
  obtain ⟨minimum, maximum, shared, rfl⟩ := StaticType.isMemoryEntity_iff.mp ht
  refine .draws (fun _ => draws_randomNumericType) fun type htype => ?_
  refine (appends_memoryOperands hp (Known.mem_vars_iff.mpr ⟨_, hv⟩)).bind fun r Δ hr => ?_
  have hop : p.Allows (Δ ++ Γ) (.wasmMemoryLoad type r.2) [v, r.1] :=
    .typed [.wasmEntity (.memory minimum maximum shared), .wasm .i32] hp (by simp [hr, hv]) rfl
      fun _ _ => Bool.and_eq_true_iff.mpr ⟨htype, rfl⟩
  exact (appends_value_vars rfl hop rfl).drop

lemma appends_wasmMemoryStore (hv : (v, t) ∈ Γ) (ht : t.isMemoryEntity = true) :
    Appends p Γ (wasmMemoryStore v) fun _ Δ => Δ = [] := by
  obtain ⟨minimum, maximum, shared, rfl⟩ := StaticType.isMemoryEntity_iff.mp ht
  refine .draws (fun _ => draws_randomNumericType) fun type htype => ?_
  refine (appends_memoryOperands hp (Known.mem_vars_iff.mpr ⟨_, hv⟩)).bind fun r Δ hr => ?_
  refine (appends_wasmValueOf hp).bind fun w Δ' hw => appends_perform rfl ?_
  exact .typed [.wasmEntity (.memory minimum maximum shared), .wasm .i32, .wasm type] hp
    (by simp [hr, hw, hv]) rfl fun _ _ => Bool.and_eq_true_iff.mpr
      ⟨Bool.and_eq_true_iff.mpr ⟨htype, rfl⟩, isWasmValue_iff.mpr rfl⟩

/-! ### Calls and control flow in function bodies -/

omit hp in
/-- The signature with which a variable is called. -/
def calleeSignature : StaticType → FunctionSignature
  | .wasmEntity (.function signature) => signature
  | _ => ⟨[], []⟩

/-- A call of a function of the module. -/
theorem appends_wasmCall (signature : FunctionSignature) {args : List Variable}
    (hv : (v, .wasmEntity (.function signature)) ∈ Γ)
    (hargs : List.Forall₂ (fun type v => (v, .wasm type) ∈ Γ) signature.params args) :
    Appends p Γ (Build.wasmCall v args) fun vs Δ => vs ⊆ Δ.vars := by
  refine Appends.typeOf (Known.mem_vars_iff.mpr ⟨_, hv⟩) fun t => ?_
  change Appends p _ (emit (.wasmCallFunction (calleeSignature t)) (v :: args) >>= fun i =>
    pure i.outputs) _
  have hcallee (τ) (hτ : p.Types ((v, t) :: Γ) τ) : calleeSignature t = signature := by
    obtain rfl : t = .wasmEntity (.function signature) := hτ.unique v (by simp) (by simp [hv])
    rfl
  have hop : p.Allows ((v, t) :: Γ) (.wasmCallFunction (calleeSignature t)) (v :: args) := {
    count := fun τ hτ _ => by
      rw [hcallee τ hτ, List.length_cons, ← hargs.length_eq, Nat.add_comm]
      rfl
    known := by
      have := vars_of_wasm hargs
      rw [Known.vars_cons]
      exact List.cons_subset_cons _ this
    context := hp
    inputTypes := fun τ hτ => by
      have hv' : τ v = .wasmEntity (.function signature) := hτ.known v _ (by simp [hv])
      have hall := all_isWasmValue (hargs.imp fun type w hw => hτ.known w _ (by simp [hw]))
      rw [hcallee τ hτ, List.map_cons, hv']
      simp [Operation.acceptsInputs, hall, hargs.length_eq] }
  intro b
  refine (AppendsAt.emit hop rfl rfl (fun _ _ => nofun) fun _ _ => rfl).bind fun i Δ ⟨hl, hΔ⟩ => ?_
  refine .pure (Δ := Δ) ?_ (List.subset_append_left ..)
  rw [hΔ, Known.vars_zip]
  · exact List.Subset.refl _
  · rw [hl]
    exact (List.length_map ..).symm

lemma appends_wasmFunctionCall (hv : v ∈ Γ.vars) :
    Appends p Γ (wasmFunctionCall v) fun _ Δ => Δ = [] := by
  refine Appends.typeOf hv fun t => ?_
  split
  · refine (appends_wasmValuesOf hp).bind fun args Δ hargs => ?_
    exact (appends_wasmCall hp _ (by simp) (hargs.imp fun type w h => by simp [h])).drop
  · exact .pure rfl (List.nil_subset _)

lemma appends_wasmReassign (hv : (v, t) ∈ Γ) (ht : t.isAnyWasmValue = true) :
    Appends p Γ (wasmReassign v) fun _ Δ => Δ = [] := by
  refine Appends.typeOf (Known.mem_vars_iff.mpr ⟨_, hv⟩) fun t' => ?_
  refine .randomOfType (.pure rfl (List.nil_subset _)) fun w => ?_
  dsimp only
  split
  · refine appends_perform rfl (.typed [t', t'] hp (by simp) rfl fun τ hτ => ?_)
    obtain rfl : t = t' := hτ.unique v (by simp [hv]) (by simp)
    exact Bool.and_eq_true_iff.mpr ⟨ht, beq_self_eq_true t⟩
  · exact .pure rfl (List.nil_subset _)

section

variable (hn : Nests nested)
include hn

lemma appends_wasmBlockCode : Appends p Γ (wasmBlockCode nested) fun _ Δ => Δ = [] :=
  appends_wasmBlock hp fun _ _ _ => hn.appends

lemma appends_wasmLoopCode : Appends p Γ (wasmLoopCode nested) fun _ Δ => Δ = [] :=
  appends_countedLoop hp fun _ _ => hn.appends

lemma appends_wasmIfCode : Appends p Γ (wasmIfCode nested) fun _ Δ => Δ = [] := by
  refine (appends_wasmValueOf hp).bind fun v Δ hv => .draw fun alternative => ?_
  split
  · exact appends_wasmIfElse hp (by simp [hv]) (fun _ _ _ => hn.appends) fun _ _ _ _ => hn.appends
  · exact appends_wasmIf hp (by simp [hv]) fun _ _ _ => hn.appends

end

lemma appends_wasmBranch (hv : (v, t) ∈ Γ) (ht : t.isLabel = true) :
    Appends p Γ (wasmBranch v) fun _ Δ => Δ = [] := by
  rw [StaticType.isLabel_iff.mp ht] at hv
  exact appends_perform rfl (.typed [.label] hp (by simpa using hv) rfl fun _ _ => rfl)

lemma appends_wasmBranchIf (hv : (v, t) ∈ Γ) (ht : t.isLabel = true) :
    Appends p Γ (wasmBranchIf v) fun _ Δ => Δ = [] := by
  rw [StaticType.isLabel_iff.mp ht] at hv
  refine (appends_wasmValueOf hp).bind fun w Δ hw => appends_perform rfl ?_
  exact .typed [.label, .wasm .i32] hp (by simp [hv, hw]) rfl fun _ _ => rfl

/-- A value for the result of a signature. -/
lemma appends_resultFor {signature : FunctionSignature} :
    Appends p Γ (resultFor signature) fun result? Δ => ∀ v ∈ result?, v ∈ Δ.vars := by
  rw [resultFor]
  cases signature.result with
  | none => exact .pure (Δ := []) nofun (List.nil_subset _)
  | some type =>
      refine (appends_wasmValueOf hp).bind fun v Δ hv => .pure (Δ := Δ) ?_ (by simp)
      simp [hv]

lemma appends_wasmReturn : Appends p Γ wasmReturn fun _ Δ => Δ = [] := by
  refine .currentFunction fun s? => ?_
  cases s? with
  | none =>
      refine appends_perform rfl (.typed [] hp .nil rfl fun τ hτ => ?_)
      exact absurd (hτ.function hp) Bool.false_ne_true
  | some signature =>
      change Appends _ _ (resultFor signature >>= wasmGiveBack) _
      rw [resultFor]
      cases hr : signature.result with
      | none =>
          refine appends_perform rfl (.typed [] hp .nil rfl fun τ hτ => ?_)
          simp [Operation.acceptsInputs, hr]
      | some type =>
          change Appends _ _ (wasmValueOf type >>= fun v => wasmGiveBack (some v)) _
          refine (appends_wasmValueOf (p := ⟨p.context, some signature⟩) hp).bind fun v Δ hv => ?_
          have hop : Place.Allows ⟨p.context, some signature⟩ (Δ ++ Γ) (.wasmReturn true) [v] :=
            .typed [.wasm type] hp (by simp [hv]) rfl fun _ _ => by
              simp [Operation.acceptsInputs, hr, isWasmValue_iff]
          exact appends_perform rfl hop

lemma appends_wasmUnreachable : Appends p Γ wasmUnreachable fun _ Δ => Δ = [] :=
  appends_perform rfl (.noInputs hp rfl fun _ => rfl)

end

/-! ### Module bodies -/

section

variable (hp : p.context.isWasmModule = true)
include hp

/-- A definition of a module that reads nothing. -/
lemma appends_definition {op : Operation} (hop : op.isPlain = true) (ho : op.numOutputs = 1)
    (hc : op.requiredContext = .wasmModule) (hn : op.numInputs = 0)
    (ha : ∀ s?, op.acceptsInputs [] s? = true) (ht : ∀ ty : Typer, ty.outputTypes op [] = [t]) :
    Appends p Γ (value op []) fun v Δ => Δ = [(v, t)] :=
  appends_value hop (.noInputs (by rw [hc]; exact hp) hn ha) ho fun ty _ => ht ty

lemma appends_wasmDefineGlobal : Appends p Γ wasmDefineGlobal fun _ Δ => Δ = [] := by
  have hdefine (literal : WasmLiteral) : Appends p Γ (do
      let _ ← value (.wasmDefineGlobal literal (← Draw.chance 50)) []) fun _ Δ => Δ = [] :=
    .draw fun _ => (appends_definition hp rfl rfl rfl rfl (fun _ => rfl) fun _ => rfl).drop
  refine .draw fun reference => ?_
  cases reference with
  | true => exact .draws (fun _ => draws_randomReferenceType) fun _ _ => hdefine _
  | false =>
      exact .draws (fun _ => draws_randomNumericType) fun _ _ =>
        .draws (fun _ => draws_randomLiteral) fun _ _ => hdefine _

lemma appends_wasmDefineTable : Appends p Γ wasmDefineTable fun _ Δ => Δ = [] :=
  .draws (fun _ => draws_randomReferenceType) fun _ _ =>
    .draws (fun _ => draws_randomLimits) fun _ _ =>
      (appends_definition hp rfl rfl rfl rfl (fun _ => rfl) fun _ => rfl).drop

lemma appends_wasmDefineMemory : Appends p Γ wasmDefineMemory fun _ Δ => Δ = [] := by
  refine .look fun memories => ?_
  split
  · exact .draws (fun _ => draws_randomLimits) fun _ _ =>
      (appends_definition hp rfl rfl rfl rfl (fun _ => rfl) fun _ => rfl).drop
  · exact .pure rfl (List.nil_subset _)

/-- An import whose result is dropped. -/
lemma AppendsAt.importing_drop {op : Operation} (hop : op.isImport = true) (hv : (v, t) ∈ Γ)
    (ha : op.acceptsInputs [t] p.function? = true)
    (hc : ∀ c, op.importCategory? = some c → b.canImport c = true) :
    AppendsAt b p Γ (do let _ ← value op [v]) fun _ Δ => Δ = [] :=
  (AppendsAt.importing hp hop hv ha hc).bind fun _ _ _ => .pure rfl (List.nil_subset _)

lemma appends_wasmImportGlobal (hv : (v, t) ∈ Γ) (ht : t.isGlobalObject = true) :
    Appends p Γ (wasmImportGlobal v) fun _ Δ => Δ = [] :=
  appends_whenImportable fun b hb => AppendsAt.importing_drop hp rfl hv ht fun c hc => by
    obtain rfl := Option.some.inj hc
    exact hb

lemma appends_wasmImportTable (hv : (v, t) ∈ Γ) (ht : t.isTableObject = true) :
    Appends p Γ (wasmImportTable v) fun _ Δ => Δ = [] :=
  appends_whenImportable fun b hb => AppendsAt.importing_drop hp rfl hv ht fun c hc => by
    obtain rfl := Option.some.inj hc
    exact hb

lemma appends_wasmImportMemory (hv : (v, t) ∈ Γ) (ht : t.isMemoryObject = true) :
    Appends p Γ (wasmImportMemory v) fun _ Δ => Δ = [] := by
  intro b
  refine AppendsAt.look ?_
  split
  · rename_i hb
    refine AppendsAt.importing_drop hp rfl hv ht fun c hc => ?_
    obtain rfl := Option.some.inj hc
    exact (Bool.and_eq_true_iff.mp hb).1
  · exact .pure rfl (List.nil_subset _)

lemma appends_wasmImportFunction (hv : (v, t) ∈ Γ) (ht : t.isCallable = true) :
    Appends p Γ (wasmImportFunction v) fun _ Δ => Δ = [] := by
  refine appends_whenImportable fun b hb => .draws draws_randomSignature fun s words _ => ?_
  refine AppendsAt.importing_drop hp rfl hv ?_ fun c hc => ?_
  · exact StaticType.acceptsInputs_importFunction ht
  · obtain rfl := Option.some.inj hc
    exact hb

/-- A function of a module that runs a computation and yields a value of its result type. -/
theorem appends_wasmFunctionWith {signature : FunctionSignature} {body : Build Unit}
    (hl : signature.results.length ≤ 1)
    (hbody : ∀ p' : Place, p'.context.isWasmFunction = true → Appends p' Γ body fun _ _ => True) :
    Appends p Γ (wasmFunctionWith signature body)
      fun v Δ => Δ = [(v, .wasmEntity (.function signature))] := by
  refine appends_wasmFunction hp hl fun p' hp' vs _ => ?_
  refine Appends.weaken ?_ (List.subset_append_right ..)
  exact (hbody p' hp').bind fun _ Δ _ => appends_resultFor hp'

/-- A function of a module with a random signature. -/
lemma appends_randomWasmFunction {body : Build Unit}
    (hbody : ∀ p' : Place, p'.context.isWasmFunction = true → Appends p' Γ body fun _ _ => True) :
    Appends p Γ (randomWasmFunction body) fun v Δ => v ∈ Δ.vars :=
  .draws (fun _ => draws_randomSignature) fun _ hl =>
    (appends_wasmFunctionWith hp hl hbody).mono fun v Δ h => by simp [h]

lemma appends_wasmFunctionDefinition (hn : Nests nested) :
    Appends p Γ (wasmFunctionDefinition nested) fun _ Δ => Δ = [] :=
  (appends_randomWasmFunction hp fun _ _ => hn.appends).drop

/-! ### Modules with imports -/

lemma appends_importEntity {c : EntityCategory} {op : Operation} {accepts : StaticType → Bool}
    (hop : op.isImport = true) (hc : op.importCategory? = some c)
    (ha : ∀ t, accepts t = true → op.acceptsInputs [t] p.function? = true) :
    Appends p Γ (importEntity c op accepts) fun _ Δ => Δ = [] := by
  refine appends_whenImportable fun b hb => .draw fun wanted words => ?_
  split
  · refine .randomVariable (fun _ => .pure rfl (List.nil_subset _)) fun v t words ht => ?_
    refine AppendsAt.importing_drop hp hop (List.mem_cons_self ..) (ha t ht) fun c' hc' => ?_
    obtain rfl := Option.some.inj (hc.symm.trans hc')
    exact hb
  · exact .pure rfl (List.nil_subset _)

lemma appends_importEntities : Appends p Γ importEntities fun _ Δ => Δ = [] := by
  refine (appends_importEntity hp rfl rfl fun _ h => h).silent fun _ => ?_
  refine (appends_importEntity hp rfl rfl fun _ h => h).silent fun _ => ?_
  refine (appends_importEntity hp rfl rfl fun _ h => h).silent fun _ => ?_
  refine appends_whenImportable fun b hb => .draw fun wanted words => ?_
  split
  · refine .randomVariable (fun _ => .pure rfl (List.nil_subset _)) fun v t words ht => ?_
    refine .draws draws_randomSignature fun s words _ => ?_
    refine AppendsAt.importing_drop hp rfl (List.mem_cons_self ..) ?_ fun c hc => ?_
    · exact StaticType.acceptsInputs_importFunction ht
    · obtain rfl := Option.some.inj hc
      exact hb
  · exact .pure rfl (List.nil_subset _)

end

/-- A module with imports, nested code and at least one function. -/
theorem appends_randomModule (hp : p.context.isScript = true) (hn : Nests nested) :
    Appends p Γ (randomModule nested) fun r Δ => r.1 ∈ Δ.vars ∧ r.2 ∈ Δ.vars := by
  refine appends_module hp fun b p' hp' _ => ?_
  refine Appends.true (Q := fun _ Δ => Δ = []) ?_ b
  refine (appends_importEntities hp').silent fun _ => ?_
  refine (hn p' Γ).silent fun _ => .look fun count => ?_
  split
  · exact (appends_randomWasmFunction hp' fun _ _ => hn.appends).drop
  · exact .pure rfl (List.nil_subset _)

end Generate

end EngineFuzz
