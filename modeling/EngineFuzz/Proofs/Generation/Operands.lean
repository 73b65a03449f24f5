import Mathlib
import EngineFuzz.Generation.WasmUse
import EngineFuzz.Proofs.Generation.Appending

/-!
# Values and operands

What the small computations append from which generators are made: one operation, a random operand,
a list of operands.  In script code it only matters which variables are known; in functions of
modules it also matters which types they have.

* `Build.Appends.times`, `Build.Appends.mapM`: computations that are repeated.
* `Build.appends_scriptValue`, `Build.appends_scriptEffect`: operations of the script.
* `Build.appends_randomScriptValue`, `Build.appends_randomArguments`: operands of script code.
* `Build.appends_wasmValueOf`: operands of code in functions.
-/

namespace EngineFuzz

namespace Build

variable [Regard] {α β : Type} {p : Place} {Γ Δ : Known} {v w : Variable} {vs : List Variable}
  {op : Operation} {inputs : List Variable} {m : Build α} {f : α → Build β} {P : α → Known → Prop}
  {Q : β → Known → Prop} {n : ℕ} {type : WasmType}

/-! ### Computations in a row -/

namespace Appends

/-- A computation whose result is dropped. -/
lemma drop (hm : Appends p Γ m P) :
    Appends p Γ (m >>= fun _ => Pure.pure ()) fun _ Δ => Δ = [] :=
  hm.bind fun _ _ _ => .pure rfl (List.nil_subset _)

/-- A computation that tells nothing. -/
lemma silent {m : Build α} {f : α → Build β} (hm : Appends p Γ m fun _ Δ => Δ = [])
    (hf : ∀ a, Appends p Γ (f a) Q) : Appends p Γ (m >>= f) Q :=
  hm.bind fun a Δ hΔ => by
    rw [hΔ, List.nil_append]
    exact hf a

/-- The same computation over and over. -/
lemma times (hm : ∀ Γ', Γ ⊆ Γ' → Appends p Γ' m fun _ _ => True) :
    Appends p Γ (times n m) fun as _ => as.length = n := by
  induction n generalizing Γ with
  | zero => exact .pure rfl (List.nil_subset _)
  | succ n ih =>
      refine (hm Γ (List.Subset.refl _)).bind fun a Δ _ => ?_
      refine (ih fun Γ' h => hm Γ' (List.Subset.trans (List.subset_append_right ..) h)).bind
        fun as Δ' has => ?_
      exact .pure (Δ := []) (by rw [List.length_cons, has]) (List.nil_subset _)

/-- A list of operands. -/
lemma timesVariable {m : Build Variable}
    (hm : ∀ Γ', Γ ⊆ Γ' → Appends p Γ' m fun v Δ => v ∈ Δ.vars) :
    Appends p Γ (Build.times n m) fun vs Δ => vs.length = n ∧ vs ⊆ Δ.vars := by
  induction n generalizing Γ with
  | zero => exact .pure (Δ := []) ⟨rfl, List.nil_subset _⟩ (List.nil_subset _)
  | succ n ih =>
      refine (hm Γ (List.Subset.refl _)).bind fun v Δ hv => ?_
      refine (ih fun Γ' h => hm Γ' (List.Subset.trans (List.subset_append_right ..) h)).bind
        fun vs Δ' ⟨hl, hvs⟩ => ?_
      refine .pure (Δ := Δ' ++ Δ) ⟨by rw [List.length_cons, hl], ?_⟩ ?_
      · rw [Known.vars_append, List.cons_subset, List.mem_append]
        exact ⟨.inr hv, List.Subset.trans hvs (List.subset_append_left ..)⟩
      · rw [← List.append_assoc]
        exact List.subset_append_left ..

/-- An operand for each member of a list. -/
lemma mapM {g : α → Build Variable} {R : α → StaticType → Prop} {as : List α}
    (hg : ∀ a ∈ as, ∀ Γ', Γ ⊆ Γ' → Appends p Γ' (g a) fun v Δ => ∃ t, (v, t) ∈ Δ ∧ R a t) :
    Appends p Γ (as.mapM g) fun vs Δ =>
      List.Forall₂ (fun a v => ∃ t, (v, t) ∈ Δ ∧ R a t) as vs := by
  induction as generalizing Γ with
  | nil => exact .pure (Δ := []) .nil (List.nil_subset _)
  | cons a as ih =>
      rw [List.mapM_cons]
      refine (hg a (List.mem_cons_self ..) Γ (List.Subset.refl _)).bind fun v Δ ⟨t, hv, ht⟩ => ?_
      refine (ih fun a ha Γ' h => hg a (List.mem_cons_of_mem _ ha) Γ'
        (List.Subset.trans (List.subset_append_right ..) h)).bind fun vs Δ' hvs => ?_
      refine .pure (Δ := Δ' ++ Δ) (.cons ⟨t, List.mem_append_right _ hv, ht⟩ ?_) ?_
      · exact hvs.imp fun a w ⟨t, hw, ht⟩ => ⟨t, List.mem_append_left _ hw, ht⟩
      · rw [← List.append_assoc]
        exact List.subset_append_left ..

/-- Code for each member of a list. -/
lemma forM {g : α → Build Unit} {as : List α}
    (hg : ∀ a ∈ as, Appends p Γ (g a) fun _ Δ => Δ = []) :
    Appends p Γ (as.forM g) fun _ Δ => Δ = [] := by
  induction as with
  | nil => exact .pure rfl (List.nil_subset _)
  | cons a as ih =>
      change Appends p Γ (g a >>= fun _ => as.forM g) _
      exact (hg a (List.mem_cons_self ..)).silent fun _ =>
        ih fun a ha => hg a (List.mem_cons_of_mem _ ha)

end Appends

omit [Regard] in
lemma vars_of_forall₂ {R : α → StaticType → Prop} {as : List α}
    (h : List.Forall₂ (fun a v => ∃ t, (v, t) ∈ Δ ∧ R a t) as vs) :
    vs.length = as.length ∧ vs ⊆ Δ.vars := by
  refine ⟨h.length_eq.symm, ?_⟩
  induction h with
  | nil => exact List.nil_subset _
  | cons head _ ih =>
      obtain ⟨t, hv, -⟩ := head
      exact List.cons_subset.mpr ⟨Known.mem_vars_iff.mpr ⟨t, hv⟩, ih⟩

omit [Regard] in
/-- The number of arguments is counted as long as there are not too many. -/
lemma toNat_toUInt64 {k : ℕ} (h : k < 2 ^ 64) : k.toUInt64.toNat = k := by
  rw [Nat.toUInt64_eq, UInt64.toNat_ofNat_of_lt' h]

omit [Regard] in
/-- The number of operands behind a first one. -/
lemma toNat_one_add_toUInt64 {k : ℕ} (h : k + 1 < 2 ^ 64) : (1 + k.toUInt64).toNat = k + 1 := by
  rw [UInt64.toNat_add, toNat_toUInt64 (by omega), UInt64.toNat_one]
  omega

end Build

/-- A plain operation of the script that may stand anywhere in script code. -/
structure Operation.IsScriptCode (op : Operation) : Prop where
  plain : op.isPlain = true
  home : op.home = .script
  context : op.requiredContext = .script

namespace Build

variable [Regard] {α β : Type} {p : Place} {Γ Δ : Known} {v w : Variable} {vs : List Variable}
  {op : Operation} {inputs : List Variable} {n : ℕ} {type : WasmType}

omit [Regard] in
lemma draws_randomParameterCount {b : Builder} :
    Draws randomParameterCount b fun _ => True :=
  Draws.look draws_any

section

variable (hp : p.context.isScript = true)
include hp

/-- An operation of the script with one output. -/
theorem appends_scriptValue (hop : op.IsScriptCode) (ho : op.numOutputs = 1)
    (hi : inputs ⊆ Γ.vars) (hn : inputs.length < 2 ^ 64 - 1 → inputs.length = op.numInputs) :
    Appends p Γ (value op inputs) fun v Δ => v ∈ Δ.vars :=
  (appends_value_vars hop.plain
    (.script hp hop.home (by rw [hop.context]; exact hp) hi hn) ho).mono fun v Δ h => by simp [h]

/-- An operation of the script that is appended for its effect. -/
theorem appends_scriptEffect (hop : op.IsScriptCode) (hi : inputs ⊆ Γ.vars)
    (hn : inputs.length < 2 ^ 64 - 1 → inputs.length = op.numInputs) :
    Appends p Γ (perform op inputs) fun _ Δ => Δ = [] :=
  appends_perform hop.plain (.script hp hop.home (by rw [hop.context]; exact hp) hi hn)

/-- A value that is made of no other. -/
lemma appends_constant (hop : op.IsScriptCode) (ho : op.numOutputs = 1) (hn : op.numInputs = 0) :
    Appends p Γ (value op []) fun v Δ => v ∈ Δ.vars :=
  appends_scriptValue hp hop ho (List.nil_subset _) fun _ => hn.symm

lemma appends_integer {k : ℤ} : Appends p Γ (integer k) fun v Δ => v ∈ Δ.vars :=
  appends_constant hp ⟨rfl, rfl, rfl⟩ rfl rfl

lemma appends_bigInt {k : ℤ} : Appends p Γ (bigInt k) fun v Δ => v ∈ Δ.vars :=
  appends_constant hp ⟨rfl, rfl, rfl⟩ rfl rfl

lemma appends_text {s : String} : Appends p Γ (text s) fun v Δ => v ∈ Δ.vars :=
  appends_constant hp ⟨rfl, rfl, rfl⟩ rfl rfl

lemma appends_builtin {name : String} : Appends p Γ (builtin name) fun v Δ => v ∈ Δ.vars :=
  appends_constant hp ⟨rfl, rfl, rfl⟩ rfl rfl

lemma appends_object {properties : List (String × Variable)}
    (h : properties.map (·.2) ⊆ Γ.vars) :
    Appends p Γ (object properties) fun v Δ => v ∈ Δ.vars :=
  appends_scriptValue hp ⟨rfl, rfl, rfl⟩ rfl h fun _ =>
    (List.length_map ..).trans (List.length_map ..).symm

lemma appends_array (h : vs ⊆ Γ.vars) : Appends p Γ (array vs) fun v Δ => v ∈ Δ.vars :=
  appends_scriptValue hp ⟨rfl, rfl, rfl⟩ rfl h fun hn =>
    (toNat_toUInt64 (by omega)).symm

lemma appends_property {name : String} (h : v ∈ Γ.vars) :
    Appends p Γ (property v name) fun v Δ => v ∈ Δ.vars :=
  appends_scriptValue hp ⟨rfl, rfl, rfl⟩ rfl (by simpa using h) fun _ => rfl

lemma appends_setProperty {name : String} (hv : v ∈ Γ.vars) (hw : w ∈ Γ.vars) :
    Appends p Γ (setProperty v name w) fun _ Δ => Δ = [] :=
  appends_scriptEffect hp ⟨rfl, rfl, rfl⟩ (by simp [hv, hw]) fun _ => rfl

lemma appends_call {guarded : Bool} (hv : v ∈ Γ.vars) (h : vs ⊆ Γ.vars) :
    Appends p Γ (call v vs guarded) fun v Δ => v ∈ Δ.vars :=
  appends_scriptValue hp ⟨rfl, rfl, rfl⟩ rfl (List.cons_subset.mpr ⟨hv, h⟩) fun hn =>
    (toNat_one_add_toUInt64 (by simpa using Nat.lt_of_lt_pred hn)).symm

lemma appends_callMethod {guarded : Bool} {name : String} (hv : v ∈ Γ.vars) (h : vs ⊆ Γ.vars) :
    Appends p Γ (callMethod v name vs guarded) fun v Δ => v ∈ Δ.vars :=
  appends_scriptValue hp ⟨rfl, rfl, rfl⟩ rfl (List.cons_subset.mpr ⟨hv, h⟩) fun hn =>
    (toNat_one_add_toUInt64 (by simpa using Nat.lt_of_lt_pred hn)).symm

lemma appends_construct {guarded : Bool} (hv : v ∈ Γ.vars) (h : vs ⊆ Γ.vars) :
    Appends p Γ (construct v vs guarded) fun v Δ => v ∈ Δ.vars :=
  appends_scriptValue hp ⟨rfl, rfl, rfl⟩ rfl (List.cons_subset.mpr ⟨hv, h⟩) fun hn =>
    (toNat_one_add_toUInt64 (by simpa using Nat.lt_of_lt_pred hn)).symm

lemma appends_binary {o : BinaryOperator} (hv : v ∈ Γ.vars) (hw : w ∈ Γ.vars) :
    Appends p Γ (binary v w o) fun v Δ => v ∈ Δ.vars :=
  appends_scriptValue hp ⟨rfl, rfl, rfl⟩ rfl (by simp [hv, hw]) fun _ => rfl

lemma appends_compare {o : Comparator} (hv : v ∈ Γ.vars) (hw : w ∈ Γ.vars) :
    Appends p Γ (compare v w o) fun v Δ => v ∈ Δ.vars :=
  appends_scriptValue hp ⟨rfl, rfl, rfl⟩ rfl (by simp [hv, hw]) fun _ => rfl

lemma appends_instantiate (hv : v ∈ Γ.vars) (h : vs ⊆ Γ.vars) :
    Appends p Γ (instantiate v vs) fun v Δ => v ∈ Δ.vars :=
  appends_scriptValue hp ⟨rfl, rfl, rfl⟩ rfl (List.cons_subset.mpr ⟨hv, h⟩) fun hn =>
    (toNat_one_add_toUInt64 (by simpa using Nat.lt_of_lt_pred hn)).symm

lemma appends_exported {name : String} (h : v ∈ Γ.vars) :
    Appends p Γ (exported v name) fun v Δ => Δ = [(v, .anything)] :=
  appends_value rfl (.script hp rfl hp (by simpa using h) fun _ => rfl) rfl fun _ _ => rfl

lemma appends_exportedMemory {k : ℕ} (h : v ∈ Γ.vars) :
    Appends p Γ (exportedMemory v k) fun v Δ => v ∈ Δ.vars :=
  appends_scriptValue hp ⟨rfl, rfl, rfl⟩ rfl (by simpa using h) fun _ => rfl

lemma appends_exportedGlobal {name : String} (h : v ∈ Γ.vars) :
    Appends p Γ (exportedGlobal v name) fun v Δ => v ∈ Δ.vars :=
  appends_scriptValue hp ⟨rfl, rfl, rfl⟩ rfl (by simpa using h) fun _ => rfl

lemma appends_writeMemory {k : ℕ} {bytes : List UInt8} (h : v ∈ Γ.vars) :
    Appends p Γ (writeMemory v k bytes) fun _ Δ => Δ = [] :=
  appends_scriptEffect hp ⟨rfl, rfl, rfl⟩ (by simpa using h) fun _ => rfl

/-! ### Random operands of the script -/

lemma appends_freshInteger : Appends p Γ freshInteger fun v Δ => v ∈ Δ.vars :=
  .draws (fun _ => draws_randomInteger) fun _ _ => appends_integer hp

/-- A script value, which is fresh if none is visible. -/
lemma appends_randomScriptValue : Appends p Γ randomScriptValue fun v Δ => v ∈ Δ.vars := by
  refine Appends.randomVariable (appends_freshInteger hp) fun v t _ => ?_
  exact .pure (Δ := [(v, t)]) (by simp) (by simp)

lemma appends_randomScriptValues :
    Appends p Γ (times n randomScriptValue) fun vs Δ => vs.length = n ∧ vs ⊆ Δ.vars :=
  .timesVariable fun _ _ => appends_randomScriptValue hp

/-- Arguments for a call. -/
lemma appends_randomArguments (h : v ∈ Γ.vars) :
    Appends p Γ (randomArguments v) fun vs Δ => vs ⊆ Δ.vars := by
  refine Appends.typeOf h fun t => ?_
  split
  · exact (appends_randomScriptValues hp).mono fun _ _ h => h.2
  · refine .draws (fun _ => draws_randomParameterCount) fun _ _ => ?_
    exact (appends_randomScriptValues hp).mono fun _ _ h => h.2

lemma appends_giveBack (hs : p.context.contains .subroutine = true) (h : v ∈ Γ.vars) :
    Appends p Γ (giveBack (some v)) fun _ Δ => Δ = [] :=
  appends_perform rfl (.script hp rfl hs (by simpa using h) fun _ => rfl)

end

/-! ### Operands in functions of modules -/

omit [Regard] in
lemma draws_randomNumericType {b : Builder} :
    Draws randomNumericType b fun type => type.isNumeric = true :=
  Draws.draw fun _ =>
    have h : ∀ type ∈ WasmType.i32 :: WasmType.numeric, type.isNumeric = true := by decide
    h _ Draw.chooseD_mem

section

variable (hp : p.context.isWasmFunction = true)
include hp

/-- A constant. -/
lemma appends_wasmConst {literal : WasmLiteral} : Appends p Γ (value (.wasmConst literal) [])
    fun v Δ => Δ = [(v, .wasm literal.type)] :=
  appends_value rfl (.noInputs hp rfl fun _ => rfl) rfl fun _ _ => rfl

lemma appends_wasmInteger {k : ℤ} :
    Appends p Γ (wasmInteger k) fun v Δ => Δ = [(v, .wasm .i32)] :=
  appends_wasmConst hp

/-- A value of a type: a visible one, or a constant. -/
theorem appends_wasmValueOf :
    Appends p Γ (wasmValueOf type) fun v Δ => Δ = [(v, .wasm type)] := by
  have hconst : Appends p Γ (do value (.wasmConst (← randomLiteral type)) [])
      fun v Δ => Δ = [(v, .wasm type)] :=
    .draws (fun _ => draws_randomLiteral) fun literal hl => hl ▸ appends_wasmConst hp
  refine Appends.draw fun visible => ?_
  cases visible with
  | false => exact hconst
  | true =>
      refine Appends.randomOfType hconst fun v => ?_
      exact .pure rfl (by simp)

/-- Values of several types. -/
lemma appends_wasmValuesOf {types : List WasmType} :
    Appends p Γ (types.mapM wasmValueOf) fun vs Δ =>
      List.Forall₂ (fun type v => (v, .wasm type) ∈ Δ) types vs := by
  refine (Appends.mapM (R := fun type t => t = .wasm type) fun type _ Γ' _ => ?_).mono
    fun vs Δ h => h.imp fun type v ⟨t, hv, ht⟩ => ht ▸ hv
  exact (appends_wasmValueOf hp).mono fun v Δ h => ⟨_, by simp [h], rfl⟩

end

end Build

end EngineFuzz
