import Mathlib
import EngineFuzz.Proofs.Generation.ModuleGenerators

/-!
# Generators of script code that uses WebAssembly

Each generator of script code that makes, instantiates or uses modules, memories, globals and tables
appends well-formed code wherever a script may stand.

* `Generate.appends_callExport`: calls of exported functions.
* `Generate.appends_importsFor`: values for the imports of a module.
-/

namespace EngineFuzz

namespace Build

/-- Operands for each member of a list. -/
lemma Appends.mapVariable [Regard] {α : Type} {p : Place} {Γ : Known}
    {g : α → Build Variable} {as : List α}
    (hg : ∀ a ∈ as, ∀ Γ', Γ ⊆ Γ' → Appends p Γ' (g a) fun v Δ => v ∈ Δ.vars) :
    Appends p Γ (as.mapM g) fun vs Δ => vs.length = as.length ∧ vs ⊆ Δ.vars := by
  refine (Appends.mapM (R := fun _ _ => True) fun a ha Γ' h => (hg a ha Γ' h).mono
    fun v Δ hv => ?_).mono fun vs Δ => vars_of_forall₂
  obtain ⟨t, ht⟩ := Known.mem_vars_iff.mp hv
  exact ⟨t, ht, trivial⟩

end Build

namespace Generate

open Build

variable [Regard] {p : Place} {Γ : Known} {v w : Variable} {nested : Build Unit} {n : ℕ}
  {b : Builder} {t : StaticType} {type : WasmType}

section

variable (hp : p.context.isScript = true)
include hp

/-! ### Instances and their exports -/

omit hp in
/-- The signature of a module or of its exports. -/
lemma appends_signatureOf {β : Type} {f : ModuleSignature → Build β} {Q : β → Known → Prop}
    (hf : ∀ s, Appends p Γ (f s) Q) : Appends p Γ (signatureOf v >>= f) Q := fun b => hf _ b

lemma appends_randomBigInt : Appends p Γ (do bigInt (← randomInteger)) fun v Δ => v ∈ Δ.vars :=
  .draws (fun _ => draws_randomInteger) fun _ _ => appends_bigInt hp

omit hp in
/-- A visible variable of an accepted type, half of the time, or else a fresh value. -/
lemma appends_sometimesVisible {accepts : StaticType → Bool} {m : Build Variable}
    (hm : ∀ Γ', Γ ⊆ Γ' → Appends p Γ' m fun v Δ => v ∈ Δ.vars) :
    Appends p Γ (do
      match ← randomVariable accepts with
      | some v => if ← Draw.chance 50 then return v else m
      | none => m) fun v Δ => v ∈ Δ.vars := by
  refine .randomVariable (hm Γ (List.Subset.refl _)) fun v t _ => .draw fun visible => ?_
  split
  · exact .pure (Δ := [(v, t)]) (by simp) (by simp)
  · exact hm _ (List.subset_cons_self ..)

lemma appends_argumentFor : Appends p Γ (argumentFor type) fun v Δ => v ∈ Δ.vars := by
  cases type with
  | i64 => exact appends_sometimesVisible fun _ _ => appends_randomBigInt hp
  | externRef | funcRef => exact appends_constant hp ⟨rfl, rfl, rfl⟩ rfl rfl
  | _ => exact appends_sometimesVisible fun _ _ => appends_freshInteger hp

lemma appends_callExport {name : String} {signature : FunctionSignature} (hv : v ∈ Γ.vars) :
    Appends p Γ (callExport v name signature) fun _ Δ => Δ = [] := by
  refine (appends_exported hp hv).bind fun f Δ hf => ?_
  refine (Appends.mapVariable fun _ _ _ _ => appends_argumentFor hp).bind fun args Δ' h => ?_
  exact (appends_call hp (by simp [hf]) (by simp [h.2])).drop

lemma appends_callRandomExport (hv : v ∈ Γ.vars) :
    Appends p Γ (callRandomExport v) fun _ Δ => Δ = [] := by
  refine appends_signatureOf fun s => .draw fun found? => ?_
  split
  · exact appends_callExport hp hv
  · exact .pure rfl (List.nil_subset _)

lemma appends_importFor {entity : EntityType} :
    Appends p Γ (importFor entity) fun v Δ => v ∈ Δ.vars := by
  cases entity with
  | function _ => exact appends_visibleOr (appends_randomScriptValue hp)
  | _ => exact appends_visibleOr (appends_randomScriptValue hp)

lemma appends_importsFor {s : ModuleSignature} :
    Appends p Γ (importsFor s) fun vs Δ => vs.length = s.imports.length ∧ vs ⊆ Δ.vars :=
  .mapVariable fun _ _ _ _ => appends_importFor hp

lemma appends_writeSomewhere {lowest highest most : ℕ} (hv : v ∈ Γ.vars) :
    Appends p Γ (writeSomewhere v lowest highest most) fun _ Δ => Δ = [] :=
  .draw fun _ => .draw fun _ => appends_writeMemory hp hv

lemma appends_wasmModule (hn : Nests nested) :
    Appends p Γ (wasmModule nested) fun _ Δ => Δ = [] :=
  (appends_randomModule hp hn).bind fun r Δ ⟨_, hr⟩ => appends_callRandomExport hp (by simp [hr])

lemma appends_wasmInstantiate (hv : v ∈ Γ.vars) :
    Appends p Γ (wasmInstantiate v) fun _ Δ => Δ = [] := by
  refine appends_signatureOf fun s => (appends_importsFor hp).bind fun vs Δ ⟨_, hvs⟩ => ?_
  refine (appends_instantiate hp (by simp [hv]) (by simp [hvs])).bind fun exports Δ' he => ?_
  dsimp only
  split
  · refine (appends_exportedMemory hp (by simp [he])).bind fun memory Δ'' hm => ?_
    refine (appends_writeSomewhere hp (by simp [hm])).silent fun _ => ?_
    exact appends_callRandomExport hp (by simp [he])
  · exact appends_callRandomExport hp (by simp [he])

omit hp in
lemma appends_repeated {m : Build Unit} (hm : Appends p Γ m fun _ Δ => Δ = []) :
    Appends p Γ (repeated n m) fun _ Δ => Δ = [] := hm.timesEffect.drop

lemma appends_wasmMemoryOperations (hv : v ∈ Γ.vars) :
    Appends p Γ (wasmMemoryOperations v) fun _ Δ => Δ = [] := by
  refine appends_signatureOf fun s => .draw fun index => ?_
  refine (appends_exportedMemory hp hv).bind fun memory Δ hm => .draw fun count => ?_
  exact appends_repeated (appends_writeSomewhere hp (by simp [hm]))

lemma appends_numberFor {k : ℤ} : Appends p Γ (numberFor type k) fun v Δ => v ∈ Δ.vars := by
  rw [numberFor]
  split
  · exact appends_bigInt hp
  · exact appends_integer hp

lemma appends_wasmGlobal (hv : v ∈ Γ.vars) :
    Appends p Γ (wasmGlobal v) fun _ Δ => Δ = [] := by
  refine appends_signatureOf fun s => .draw fun found? => ?_
  split
  · refine (appends_exportedGlobal hp hv).bind fun g Δ hg => ?_
    refine (appends_numberFor hp).bind fun operand Δ' ho => .draw fun o => ?_
    exact (appends_binary hp (by simp [hg]) (by simp [ho])).drop
  · refine .draws (fun _ => draws_randomNumericType) fun type _ => ?_
    refine .draws (fun _ => draws_randomLiteral) fun literal _ => .draw fun _ => ?_
    exact (appends_constant hp ⟨rfl, rfl, rfl⟩ rfl rfl).drop

lemma appends_wasmMemory (hv : v ∈ Γ.vars) :
    Appends p Γ (wasmMemory v) fun _ Δ => Δ = [] := by
  have hcreate (minimum : UInt32) (maximum : Option UInt32) (shared : Bool) : Appends p Γ (do
      let _ ← value (.createWasmMemory minimum maximum shared) []) fun _ Δ => Δ = [] :=
    (appends_constant hp ⟨rfl, rfl, rfl⟩ rfl rfl).drop
  refine Appends.typeOf hv fun t => ?_
  refine Appends.weaken ?_ (List.subset_cons_self ..)
  split
  · exact appends_writeSomewhere hp hv
  · refine .draw fun minimum => .draw fun shared => ?_
    have hbounded (bounded : Bool) : Appends p Γ (do
        let maximum ←
          if bounded then pure (some (minimum + (← Draw.nat32 0 4)).toUInt32) else pure none
        let _ ← value (.createWasmMemory minimum.toUInt32 maximum shared) [])
        fun _ Δ => Δ = [] := by
      cases bounded with
      | true => exact .draw fun _ => hcreate _ _ _
      | false => exact hcreate _ _ _
    cases shared with
    | true => exact hbounded true
    | false => exact .draw hbounded

lemma appends_wasmTable : Appends p Γ wasmTable fun _ Δ => Δ = [] := by
  refine .draws (fun _ => draws_randomReferenceType) fun _ _ => ?_
  refine .draws (fun _ => draws_randomLimits) fun _ _ => ?_
  refine (appends_constant hp ⟨rfl, rfl, rfl⟩ rfl rfl).bind fun table Δ ht => ?_
  refine (appends_integer hp).bind fun delta Δ' hd => ?_
  exact (appends_callMethod hp (by simp [ht]) (by simp [hd])).drop

/-! ### Memories that are viewed as arrays -/

/-- Code whose exceptions are dropped. -/
lemma appends_guarded {body : Build Unit}
    (hbody : ∀ p' : Place, p'.context.isScript = true → Appends p' Γ body fun _ _ => True) :
    Appends p Γ (Build.guarded body) fun _ Δ => Δ = [] :=
  appends_tryBlock hp hbody fun _ hp' _ _ =>
    (appends_constant hp' ⟨rfl, rfl, rfl⟩ rfl rfl).drop.true

lemma appends_memoryView {descriptor : List (String × Variable)}
    (h : descriptor.map (·.2) ⊆ Γ.vars) :
    Appends p Γ (memoryView descriptor) fun v Δ => v ∈ Δ.vars := by
  refine (appends_builtin hp).bind fun webAssembly Δ hw => ?_
  refine (appends_property hp (by simp [hw])).bind fun constructor Δ' hc => ?_
  refine (appends_object hp ?_).bind fun o Δ'' ho => ?_
  · simp only [Known.vars_append]
    exact List.subset_append_of_subset_right _ (List.subset_append_of_subset_right _ h)
  refine (appends_construct hp (by simp [hc]) (by simp [ho])).bind fun memory Δ₃ hm => ?_
  refine (appends_builtin hp).bind fun arrayConstructor Δ₄ ha => ?_
  refine (appends_property hp (by simp [hm])).bind fun buffer Δ₅ hb => ?_
  exact appends_construct hp (by simp [ha]) (by simp [hb])

lemma appends_pageView {shared : Bool} : Appends p Γ (pageView shared) fun v Δ => v ∈ Δ.vars := by
  refine (appends_integer hp).bind fun initial Δ hi => ?_
  refine (appends_integer hp).bind fun maximum Δ' hm => ?_
  refine (appends_constant hp ⟨rfl, rfl, rfl⟩ rfl rfl).bind fun s Δ'' hs => ?_
  exact appends_memoryView hp (by simp [hi, hm, hs])

lemma appends_wasmMemoryBoundary : Appends p Γ wasmMemoryBoundary fun _ Δ => Δ = [] := by
  refine appends_guarded hp fun p' hp' => Appends.true (Q := fun _ Δ => Δ = []) ?_
  refine (appends_integer hp').bind fun initial Δ hi => ?_
  refine (appends_memoryView hp' (by simp [hi])).bind fun view Δ' hv => ?_
  refine (appends_integer hp').bind fun index Δ'' hindex => ?_
  refine (appends_integer hp').bind fun v Δ₃ hval => ?_
  refine (appends_scriptEffect hp' ⟨rfl, rfl, rfl⟩ (by simp [hv, hindex, hval])
    fun _ => rfl).silent fun _ => ?_
  refine (appends_integer hp').bind fun pastEnd Δ₄ he => ?_
  exact (appends_scriptValue hp' ⟨rfl, rfl, rfl⟩ rfl (by simp [hv, he]) fun _ => rfl).drop

lemma appends_wasmConcurrentAccess : Appends p Γ wasmConcurrentAccess fun _ Δ => Δ = [] := by
  refine appends_guarded hp fun p' hp' => Appends.true (Q := fun _ Δ => Δ = []) ?_
  refine (appends_pageView hp').bind fun view Δ hv => ?_
  refine (appends_builtin hp').bind fun atomics Δ' ha => ?_
  refine (appends_integer hp').bind fun index Δ'' hi => ?_
  refine (appends_integer hp').bind fun v Δ₃ hval => ?_
  refine (appends_callMethod hp' (by simp [ha]) (by simp [hv, hi, hval])).bind fun _ Δ₄ _ => ?_
  exact (appends_callMethod hp' (by simp [ha]) (by simp [hv, hi, hval])).drop

lemma appends_wasmMemoryAccess : Appends p Γ wasmMemoryAccess fun _ Δ => Δ = [] := by
  refine appends_guarded hp fun p' hp' => Appends.true (Q := fun _ Δ => Δ = []) ?_
  refine (appends_pageView hp').bind fun view Δ hv => .draw fun k => ?_
  refine (appends_integer hp').bind fun offset Δ' ho => ?_
  refine (appends_integer hp').bind fun limit Δ'' hl => ?_
  refine (appends_compare hp' (by simp [ho]) (by simp [hl])).bind fun inRange Δ₃ hr => ?_
  refine (appends_ifElseBlock hp' (by simp [hr]) (fun q hq => ?_) fun q hq _ => ?_).drop
  · refine ((appends_integer hq).bind fun v Δ₄ hval => ?_).true (Q := fun _ Δ => Δ = [])
    exact appends_scriptEffect hq ⟨rfl, rfl, rfl⟩ (by simp [hv, ho, hval]) fun _ => rfl
  · exact (appends_constant hq ⟨rfl, rfl, rfl⟩ rfl rfl).true

/-! ### Modules made of bytes -/

lemma appends_byteArray {bytes : List UInt8} :
    Appends p Γ (byteArray bytes) fun v Δ => v ∈ Δ.vars := by
  refine (Appends.mapVariable fun _ _ _ _ => appends_integer hp).bind fun vs Δ h => ?_
  refine (appends_array hp (by simp [h.2])).bind fun elements Δ' he => ?_
  refine (appends_builtin hp).bind fun constructor Δ'' hc => ?_
  exact appends_construct hp (by simp [hc]) (by simp [he])

lemma appends_wasmSimd : Appends p Γ wasmSimd fun _ Δ => Δ = [] := by
  refine appends_guarded hp fun p' hp' => Appends.true (Q := fun _ Δ => Δ = []) ?_
  refine (appends_builtin hp').bind fun webAssembly Δ hw => ?_
  refine (appends_byteArray hp').bind fun bytes Δ' hb => ?_
  refine (appends_callMethod hp' (by simp [hw]) (by simp [hb])).bind fun valid Δ'' hvalid => ?_
  refine appends_ifBlock hp' (by simp [hvalid]) fun q hq => Appends.true (Q := fun _ Δ => Δ = []) ?_
  refine (appends_property hq (by simp [hw])).bind fun moduleConstructor Δ₃ hmc => ?_
  refine (appends_construct hq (by simp [hmc]) (by simp [hb])).bind fun module Δ₄ hm => ?_
  refine (appends_property hq (by simp [hw])).bind fun instanceConstructor Δ₅ hic => ?_
  refine (appends_construct hq (by simp [hic]) (by simp [hm])).bind fun inst Δ₆ hi => ?_
  refine (appends_property hq (by simp [hi])).bind fun exports Δ₇ he => ?_
  refine (appends_property hq (by simp [he])).bind fun add Δ₈ ha => ?_
  refine (appends_integer hq).bind fun one Δ₉ h₁ => (appends_integer hq).bind fun two Δ₁₀ h₂ => ?_
  exact (appends_call hq (by simp [ha]) (by simp [h₁, h₂])).drop

lemma appends_wasmRandomBytes : Appends p Γ wasmRandomBytes fun _ Δ => Δ = [] := by
  refine .draw fun bytes => (appends_byteArray hp).bind fun array Δ ha => ?_
  refine (appends_builtin hp).bind fun webAssembly Δ' hw => ?_
  exact (appends_callMethod hp (by simp [hw]) (by simp [ha])).drop

end

end Generate

end EngineFuzz
