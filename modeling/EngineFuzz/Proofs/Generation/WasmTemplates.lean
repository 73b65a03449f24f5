import Mathlib
import EngineFuzz.Proofs.Generation.ScriptTemplates

/-!
# Templates that use WebAssembly

The modules of these templates import what the template has made before, and their functions run
generated code.

* `Build.AppendsAt.importNext`: the imports at the beginning of a module.
* `Template.appends_code`: each template appends well-formed code.
-/

namespace EngineFuzz

namespace Typer

variable {t : Typer} {w : Variable}

lemma resultType_importGlobal {type : WasmType} {isMutable : Bool}
    (h : t.typeOf w = .wasmObject (.global type isMutable)) :
    t.resultType .wasmImportGlobal [w] = .wasmEntity (.global type isMutable) := by
  change t.importedEntity (some w) (.global .i32 false) = _
  rw [importedEntity, Option.map_some, h]
  rfl

lemma resultType_importTable {element : WasmType} {minimum : UInt32} {maximum : Option UInt32}
    (h : t.typeOf w = .wasmObject (.table element minimum maximum)) :
    t.resultType .wasmImportTable [w] = .wasmEntity (.table element minimum maximum) := by
  change t.importedEntity (some w) (.table .funcRef 0 none) = _
  rw [importedEntity, Option.map_some, h]
  rfl

lemma resultType_importMemory {minimum : UInt32} {maximum : Option UInt32} {shared : Bool}
    (h : t.typeOf w = .wasmObject (.memory minimum maximum shared)) :
    t.resultType .wasmImportMemory [w] = .wasmEntity (.memory minimum maximum shared) := by
  change t.importedEntity (some w) (.memory 0 none false) = _
  rw [importedEntity, Option.map_some, h]
  rfl

end Typer

/-- What an import declares is an import. -/
lemma Typer.isImport_of_mem_declared {t : Typer} {i : Instruction} {e : ModuleEntity}
    (h : i.operation.isImport = true) (he : e ∈ t.declared i) : e.isImport = true := by
  have hd : i.operation.isDefinition = false := by
    revert h
    cases i.operation <;> first | exact fun _ => rfl | exact fun h => (Bool.false_ne_true h).elim
  unfold declared at he
  split at he
  · exact absurd he List.not_mem_nil
  · unfold Operation.entries at he
    split at he
    · exact absurd he List.not_mem_nil
    · rw [if_neg (by simp [hd]), if_pos h] at he
      obtain ⟨s, -, rfl⟩ := List.mem_map.mp he
      rfl

namespace Builder

variable [Regard] {b : Builder} {op : Operation} {inputs : List Variable} {c : EntityCategory}

/-- Nothing has been defined yet in the module around the position. -/
def Importable (b : Builder) : Prop := b.Regarded → ∀ c, b.canImport c = true

/-- An import is no definition. -/
lemma canImport_emit (hs : b.Settled) (hf : b.Fits op inputs) (hb : (b.emit op inputs).2.Regarded)
    (hop : op.isImport = true) (hc : b.canImport c = true) :
    (b.emit op inputs).2.canImport c = true := by
  have ha := (hf.takes hs).admits
  have hn := hs.small_emitted hb.toBounded
  have hne : op ≠ .beginWasmModule ∧ op ≠ .endWasmModule := by
    constructor <;> rintro rfl <;> exact Bool.false_ne_true hop
  have hmodules : (b.emit op inputs).2.typer.modules =
      b.typer.modules.modifyHead (·.extend (b.typer.declared (b.emitted op inputs))) :=
    Typer.modules_apply ha.arity (Validator.Sound.nodup_definedVariables ha hn) hne.1 hne.2
  rw [canImport, Typer.currentModule?] at hc ⊢
  rw [hmodules, List.head?_modifyHead]
  cases hm : b.typer.modules.head? with
  | none => rw [hm] at hc; cases hc
  | some l =>
      rw [hm] at hc
      change (l.extend _).canImport c = true
      rw [ModuleLayout.canImport_iff] at hc ⊢
      intro e he hi
      rcases List.mem_append.mp he with he | he
      · exact hc e he hi
      · rw [Typer.isImport_of_mem_declared hop he] at hi
        cases hi

end Builder

namespace Build

variable [Regard] {α β : Type} {b : Builder} {p : Place} {Γ Δ : Known} {v w : Variable}
  {op : Operation} {f : Variable → Build β} {Q : β → Known → Prop} {t type : StaticType}

/-- One of the imports at the beginning of a module. -/
theorem AppendsAt.importNext (hp : p.context.isWasmModule = true) (hop : op.isImport = true)
    (hw : (w, t) ∈ Γ) (ha : op.acceptsInputs [t] p.function? = true) (hcan : b.Importable)
    (ht : ∀ ty : Typer, ty.typeOf w = t → ty.resultType op [w] = type)
    (hf : ∀ v b', b'.Importable → AppendsAt b' p ((v, type) :: Γ) (f v) Q) :
    AppendsAt b p Γ (Build.value op [w] >>= f) Q := by
  obtain ⟨hst, he, hi, ho, hcontext⟩ := Operation.isImport_eq_true hop
  have hop' : p.Allows Γ op [w] :=
    .typed [t] (by rw [hcontext]; exact hp) (by simpa using hw) hi.symm fun _ _ => ha
  intro hs hk
  have hvalue : AppendsAt b p Γ (Build.value op [w]) fun v Δ => Δ = [(v, type)] :=
    .value hop' hst he (fun hb _ c _ => hcan hb c) ho fun hb hty => by
      rw [Typer.outputTypes_of_isDefinition_or_isImport (.inr hop), ht b.typer (hty.known w t hw)]
  refine hvalue.bind (fun v Δ hΔ => ?_) hs hk
  rw [hΔ]
  refine hf v _ fun hb c => ?_
  have heq : (Build.value op [w] b).2 = (b.emit op [w]).2 := by
    rw [value_eq ho (Operation.numInnerOutputs_of_not hst)]
    rfl
  rw [heq] at hb ⊢
  have hb' : b.Regarded := hb.of_emit
  refine Builder.canImport_emit (hs hb') ?_ hb hop (hcan hb' c)
  exact (hk hb').toSees.fits (hs hb') hb hop' (by simp [he]) fun c _ => hcan hb' c

end Build

namespace Scenario

open Build Generate

variable [Regard] {p : Place} {Γ : Known} {v w : Variable} {n : ℕ} {b : Builder} {type : WasmType}

section

variable (hp : p.context.isScript = true)
include hp

/-! ### Calls of exported functions -/

omit hp in
lemma appends_withWasm {m : Build Unit} (hm : Appends p Γ m fun _ Δ => Δ = []) :
    Appends p Γ (withWasm m) fun _ Δ => Δ = [] := .look fun _ => appends_withGenerators hm

lemma appends_callEveryExport (hv : v ∈ Γ.vars) :
    Appends p Γ (callEveryExport v) fun _ Δ => Δ = [] :=
  appends_signatureOf fun _ => .forM fun _ _ => appends_callExport hp hv

omit hp in
lemma appends_generatedWasmFunction (hp : p.context.isWasmModule = true) :
    Appends p Γ (generatedWasmFunction n) fun _ Δ => Δ = [] :=
  (appends_randomWasmFunction hp fun _ _ => nests_build.appends).drop

lemma appends_alternatingArguments {pair : ℤ × ℤ} {types : List WasmType} :
    Appends p Γ (alternatingArguments pair types) fun vs Δ => vs ⊆ Δ.vars := by
  induction types generalizing pair Γ with
  | nil => exact .pure (Δ := []) (List.nil_subset _) (List.nil_subset _)
  | cons type types ih =>
      refine (appends_numberFor hp).bind fun v Δ hv => ih.bind fun vs Δ' hvs => ?_
      exact .pure (Δ := Δ' ++ Δ) (by simp [hv, hvs]) (by simp)

lemma appends_callWithEdgeCases (hv : v ∈ Γ.vars) :
    Appends p Γ (callWithEdgeCases v) fun _ Δ => Δ = [] := by
  refine appends_signatureOf fun _ => .forM fun _ _ => .draw fun pair => ?_
  refine (appends_exported hp hv).bind fun f Δ hf => ?_
  refine (appends_alternatingArguments hp).bind fun args Δ' hargs => ?_
  exact (appends_call hp (by simp [hf]) (by simp [hargs])).drop

lemma appends_writeByte (hv : v ∈ Γ.vars) : Appends p Γ (writeByte v n) fun _ Δ => Δ = [] :=
  .draw fun _ => appends_writeMemory hp hv

/-- A value of the script with a type that only depends on the operation. -/
lemma appends_created {op : Operation} {type : StaticType} (hop : op.IsScriptCode)
    (ho : op.numOutputs = 1) (hn : op.numInputs = 0)
    (ht : ∀ t : Typer, t.outputTypes op [] = [type]) :
    Appends p Γ (value op []) fun v Δ => Δ = [(v, type)] :=
  appends_value hop.plain (.script hp hop.home (by rw [hop.context]; exact hp) (List.nil_subset _)
    fun _ => hn.symm) ho fun t _ => ht t

/-! ### Random modules -/

lemma appends_wasmModule : Appends p Γ wasmModule fun _ Δ => Δ = [] := by
  refine (nests_values _ _).silent fun _ => appends_withWasm ?_
  refine (appends_randomModule hp nests_nested).bind fun r Δ ⟨_, hr⟩ => ?_
  refine (appends_exportedMemory hp (by simp [hr])).bind fun memory Δ' hm => ?_
  refine (Appends.timesEffect (appends_writeSomewhere hp (by simp [hm]))).silent fun _ => ?_
  refine (appends_callEveryExport hp (by simp [hr])).silent fun _ => ?_
  refine appends_signatureOf fun _ => .draw fun found? => ?_
  split
  · refine (appends_exportedGlobal hp (by simp [hr])).bind fun g Δ'' hg => ?_
    refine (appends_integer hp).bind fun k Δ₃ hk => ?_
    exact (appends_binary hp (by simp [hg]) (by simp [hk])).drop
  · exact .pure rfl (List.nil_subset _)

lemma appends_wasmFunctions : Appends p Γ wasmFunctions fun _ Δ => Δ = [] := by
  refine (nests_values _ _).silent fun _ => appends_withWasm ?_
  refine (appends_module hp fun b p' hp' _ => Appends.true (Q := fun _ Δ => Δ = []) ?_ b).bind
    fun r Δ ⟨_, hr⟩ => ?_
  · exact .draw fun count => (Appends.timesEffect (appends_generatedWasmFunction hp')).drop
  · refine appends_signatureOf fun _ => .forM fun _ _ => appends_hotLoop hp fun q hq _ => ?_
    exact appends_callExport hq (by simp [hr])

omit hp in
lemma appends_wasmCombination : Appends p Γ wasmCombination fun _ Δ => Δ = [] :=
  (nests_values _ _).silent fun _ => (appends_withWasm (nests_build _ _)).silent fun _ =>
    nests_build _ _

/-! ### A module that imports one entity of each category -/

lemma appends_wasmScenario : Appends p Γ wasmScenario fun _ Δ => Δ = [] := by
  refine (nests_values _ _).silent fun _ => appends_withWasm ?_
  refine (appends_created hp ⟨rfl, rfl, rfl⟩ rfl rfl fun _ => rfl).bind fun memory Δ₁ hmemory => ?_
  refine (appends_created hp ⟨rfl, rfl, rfl⟩ rfl rfl fun _ => rfl).bind fun table Δ₂ htable => ?_
  refine (appends_created hp ⟨rfl, rfl, rfl⟩ rfl rfl fun _ => rfl).bind fun global Δ₃ hglobal => ?_
  have hcallback : Appends p (Δ₃ ++ (Δ₂ ++ (Δ₁ ++ Γ))) (function 2 fun params => do
      nested
      giveBack (some (firstOf params))) fun f Δ => Δ = [(f, .function 2)] := by
    refine fun b => AppendsAt.function_first hp (fun _ => by decide) fun p' hp' hs vs => ?_
    exact ((nests_nested _ _).silent fun _ => appends_giveBack hp' hs (by simp)).true
  refine hcallback.bind fun callback Δ₄ hc => ?_
  refine (appends_module hp fun b p' hp' hcan => ?_).bind fun r Δ₅ ⟨hr, _⟩ => ?_
  · refine .importNext hp' rfl (t := .function 2) (by simp [hc]) rfl (fun _ => hcan)
      (fun _ _ => rfl) fun _ b₁ h₁ => ?_
    refine .importNext hp' rfl (t := .wasmObject (.global .i32 true))
      (by simp [hglobal, WasmLiteral.type]) rfl h₁
      (fun _ => Typer.resultType_importGlobal) fun _ b₂ h₂ => ?_
    refine .importNext hp' rfl (t := .wasmObject (.table .funcRef 10 none)) (by simp [htable]) rfl
      h₂ (fun _ => Typer.resultType_importTable) fun _ b₃ h₃ => ?_
    refine .importNext hp' rfl (t := .wasmObject (.memory 1 (some 4) false)) (by simp [hmemory]) rfl
      h₃ (fun _ => Typer.resultType_importMemory) fun _ b₄ _ => ?_
    exact ((nests_build _ _).silent fun _ => appends_generatedWasmFunction hp').true b₄
  refine appends_signatureOf fun s => (appends_importsFor hp).bind fun imports Δ₆ ⟨_, hi⟩ => ?_
  refine (appends_instantiate hp (by simp [hr]) (by simp [hi])).bind fun exports Δ₇ he => ?_
  refine (appends_exportedMemory hp (by simp [he])).bind fun exported Δ₈ hm => ?_
  refine (Appends.forM fun range _ => ?_).silent fun _ => ?_
  · refine (appends_writeSomewhere hp (by simp [hm])).silent fun _ => .draw fun calls => ?_
    split
    · exact appends_callEveryExport hp (by simp [he])
    · exact .pure rfl (List.nil_subset _)
  refine (appends_callWithEdgeCases hp (by simp [he])).silent fun _ => ?_
  refine (appends_exportedGlobal hp (by simp [he])).bind fun flag Δ₉ hflag => ?_
  refine (appends_integer hp).bind fun one Δ₁₀ hone => ?_
  refine (appends_compare hp (by simp [hflag]) (by simp [hone])).bind fun condition Δ₁₁ hcond => ?_
  refine (appends_ifElseBlock hp (by simp [hcond])
    (fun q hq => (appends_callEveryExport hq (by simp [he])).true)
    fun _ _ _ => nests_build.appends).silent fun _ => ?_
  refine appends_repeatBlock hp fun q hq _ => Appends.true (Q := fun _ Δ => Δ = []) ?_
  exact (appends_callEveryExport hq (by simp [he])).silent fun _ =>
    appends_writeByte hq (by simp [hm])

/-! ### Functions that use memories, globals and tables -/

omit hp in
/-- A function of one parameter. -/
lemma appends_wasmFunctionOfOne (hp : p.context.isWasmModule = true) {results : List WasmType}
    {body : List Variable → Build (Option Variable)} (hl : results.length ≤ 1)
    (hbody : ∀ p' : Place, p'.context.isWasmFunction = true → ∀ v,
      Appends p' ((v, .wasm type) :: Γ) (body [v]) fun r Δ => ∀ v ∈ r, v ∈ Δ.vars) :
    Appends p Γ (do let _ ← wasmFunction ⟨[type], results⟩ body) fun _ Δ => Δ = [] := by
  refine (appends_wasmFunction hp hl fun p' hp' vs hvs => ?_).drop
  obtain ⟨v, rfl⟩ := List.length_eq_one_iff.mp hvs
  exact hbody p' hp' v

lemma appends_wasmMemory : Appends p Γ wasmMemory fun _ Δ => Δ = [] := by
  refine (nests_values _ _).silent fun _ => appends_withWasm ?_
  refine (appends_module hp fun b p' hp' _ => Appends.true (Q := fun _ Δ => Δ = []) ?_ b).bind
    fun r Δ ⟨_, hr⟩ => ?_
  · refine (appends_definition hp' rfl rfl rfl rfl (fun _ => rfl) fun _ => rfl).bind
      fun memory Δ hm => ?_
    refine appends_wasmFunctionOfOne hp' le_rfl fun q hq address => ?_
    have hload : q.Allows ((address, .wasm .i32) :: (Δ ++ Γ)) (.wasmMemoryLoad .i32 0)
        [memory, address] :=
      .typed [.wasmEntity (.memory 1 (some 2) false), .wasm .i32] hq (by simp [hm]) rfl
        fun _ _ => rfl
    refine (appends_value rfl hload rfl fun _ _ => rfl).bind fun v Δ₁ hv => ?_
    refine (appends_wasmInteger hq).bind fun one Δ₂ hone => ?_
    have hadd : q.Allows (Δ₂ ++ (Δ₁ ++ ((address, .wasm .i32) :: (Δ ++ Γ))))
        (.wasmIntBinary .bits32 .add) [v, one] :=
      .typed [.wasm .i32, .wasm .i32] hq (by simp [hv, hone]) rfl fun _ _ => rfl
    refine (appends_value rfl hadd rfl fun _ _ => rfl).bind fun next Δ₃ hnext => ?_
    have hstore : q.Allows (Δ₃ ++ (Δ₂ ++ (Δ₁ ++ ((address, .wasm .i32) :: (Δ ++ Γ)))))
        (.wasmMemoryStore .i32 0) [memory, address, next] :=
      .typed [.wasmEntity (.memory 1 (some 2) false), .wasm .i32, .wasm .i32] hq
        (by simp [hm, hnext, Width.intType]) rfl fun _ _ => rfl
    refine (appends_perform rfl hstore).silent fun _ => (nests_build _ _).silent fun _ => ?_
    exact .pure (Δ := Δ₃) (by simp [hnext]) (by simp)
  refine (appends_exportedMemory hp (by simp [hr])).bind fun memory Δ₁ hm => ?_
  refine (Appends.timesEffect (appends_writeSomewhere hp (by simp [hm]))).silent fun _ => ?_
  refine (appends_hotLoop hp fun q hq i => ?_).silent fun _ => nests_build _ _
  refine (appends_exported hq (by simp [hr])).bind fun f Δ₂ hf => ?_
  exact (appends_call hq (by simp [hf]) (by simp)).drop

omit hp in
/-- The value of a global. -/
lemma appends_loadGlobal (hp : p.context.isWasmFunction = true) (type : WasmType) (isMutable : Bool)
    (hv : (v, .wasmEntity (.global type isMutable)) ∈ Γ) :
    Appends p Γ (value .wasmLoadGlobal [v]) fun w Δ => Δ = [(w, .wasm type)] := by
  have hop : p.Allows Γ .wasmLoadGlobal [v] := .typed [_] hp (by simpa using hv) rfl fun _ _ => rfl
  exact appends_value rfl hop rfl fun t ht => Typer.outputTypes_loadGlobal (ht.known v _ hv)

omit hp in
/-- An assignment to a global. -/
lemma appends_storeGlobal (hp : p.context.isWasmFunction = true) (type : WasmType)
    (hv : (v, .wasmEntity (.global type true)) ∈ Γ) (hw : (w, .wasm type) ∈ Γ) :
    Appends p Γ (perform .wasmStoreGlobal [v, w]) fun _ Δ => Δ = [] :=
  appends_perform rfl (.typed [.wasmEntity (.global type true), .wasm type] hp (by simp [hv, hw])
    rfl fun _ _ => isWasmValue_iff.mpr rfl)

lemma appends_wasmGlobal : Appends p Γ wasmGlobal fun _ Δ => Δ = [] := by
  refine (nests_values _ _).silent fun _ => appends_withWasm ?_
  refine .draws (fun _ => draws_randomNumericType) fun type _ => ?_
  refine .draws (fun _ => draws_randomLiteral) fun literal hl => ?_
  refine (appends_created hp ⟨rfl, rfl, rfl⟩ rfl rfl fun _ => rfl).bind fun source Δ hs => ?_
  rw [hl] at hs
  refine (appends_module hp fun b p' hp' hcan => ?_).bind fun r Δ₁ ⟨_, hr⟩ => ?_
  · refine .importNext hp' rfl (t := .wasmObject (.global type true)) (by simp [hs]) rfl
      (fun _ => hcan) (fun _ => Typer.resultType_importGlobal) fun global b' _ => ?_
    refine Appends.true (Q := fun _ Δ => Δ = []) ?_ b'
    refine .draws (fun _ => draws_randomLiteral) fun _ _ => .draw fun _ => ?_
    refine (appends_definition hp' rfl rfl rfl rfl (fun _ => rfl) fun _ => rfl).bind
      fun _ Δ₁ _ => ?_
    refine (appends_wasmFunction hp' le_rfl fun q hq vs _ => ?_).drop
    refine (appends_loadGlobal hq type true (by simp)).bind fun v Δ₂ hv => ?_
    refine (nests_build _ _).silent fun _ => ?_
    refine (appends_wasmValueOf hq).bind fun w Δ₃ hw => ?_
    refine (appends_storeGlobal hq type (by simp) (by simp [hw])).silent fun _ => ?_
    exact .pure (Δ := Δ₂) (by simp [hv]) (by simp)
  refine (appends_callEveryExport hp (by simp [hr])).silent fun _ => ?_
  refine (Appends.forM fun name _ => ?_).silent fun _ => ?_
  · refine (appends_exportedGlobal hp (by simp [hr])).bind fun v Δ₂ hv => ?_
    refine (appends_numberFor hp).bind fun k Δ₃ hk => ?_
    exact (appends_binary hp (by simp [hv]) (by simp [hk])).drop
  · exact (appends_property hp (by simp [hs])).drop

omit hp in
/-- An entry of a table. -/
lemma appends_tableGet (hp : p.context.isWasmFunction = true) (element : WasmType)
    (minimum : UInt32) (maximum : Option UInt32)
    (hv : (v, .wasmEntity (.table element minimum maximum)) ∈ Γ) (hw : (w, .wasm .i32) ∈ Γ) :
    Appends p Γ (value .wasmTableGet [v, w]) fun r Δ => Δ = [(r, .wasm element)] := by
  have hop : p.Allows Γ .wasmTableGet [v, w] :=
    .typed [.wasmEntity (.table element minimum maximum), .wasm .i32] hp (by simp [hv, hw]) rfl
      fun _ _ => rfl
  exact appends_value rfl hop rfl fun t ht => Typer.outputTypes_tableGet (ht.known v _ hv)

lemma appends_wasmTable : Appends p Γ wasmTable fun _ Δ => Δ = [] := by
  refine (nests_values _ _).silent fun _ => appends_withWasm ?_
  refine .draws (fun _ => draws_randomReferenceType) fun element _ => ?_
  refine (appends_created hp ⟨rfl, rfl, rfl⟩ rfl rfl fun _ => rfl).bind fun table Δ ht => ?_
  refine (appends_module hp fun b p' hp' hcan => ?_).bind fun r Δ₁ ⟨_, hr⟩ => ?_
  · refine .importNext hp' rfl (t := .wasmObject (.table element 4 (some 16))) (by simp [ht]) rfl
      (fun _ => hcan) (fun _ => Typer.resultType_importTable) fun imported b' _ => ?_
    refine Appends.true (Q := fun _ Δ => Δ = []) ?_ b'
    refine (appends_definition hp' rfl rfl rfl rfl (fun _ => rfl) fun _ => rfl).bind
      fun _ Δ₁ _ => ?_
    refine appends_wasmFunctionOfOne hp' (Nat.zero_le _) fun q hq place => ?_
    refine (appends_tableGet hq element 4 (some 16) (by simp) (by simp [firstOf])).bind
      fun entry Δ₂ he => ?_
    refine (appends_wasmInteger hq).bind fun index Δ₃ hi => ?_
    have hset : q.Allows (Δ₃ ++ (Δ₂ ++ ((place, .wasm .i32) :: (Δ₁ ++
        ((imported, .wasmEntity (.table element 4 (some 16))) :: (Δ ++ Γ))))))
        .wasmTableSet [imported, index, entry] :=
      .typed [.wasmEntity (.table element 4 (some 16)), .wasm .i32, .wasm element] hq
        (by simp [hi, he]) rfl fun _ _ => isWasmValue_iff.mpr rfl
    refine (appends_perform rfl hset).silent fun _ => (nests_build _ _).silent fun _ => ?_
    exact .pure (Δ := []) (fun _ h => by cases h) (List.nil_subset _)
  refine (appends_callEveryExport hp (by simp [hr])).silent fun _ => ?_
  refine (appends_integer hp).bind fun delta Δ₂ hd => ?_
  refine (appends_callMethod hp (by simp [ht]) (by simp [hd])).bind fun _ Δ₃ _ => ?_
  refine (appends_property hp (by simp [ht])).bind fun length Δ₄ hlength => ?_
  exact (appends_callMethod hp (by simp [ht]) (by simp [hlength])).drop

/-! ### Functions that come from elsewhere -/

lemma appends_wasmImport : Appends p Γ wasmImport fun _ Δ => Δ = [] := by
  refine (nests_values _ _).silent fun _ => appends_withWasm ?_
  refine .draws (fun _ => draws_randomParameterCount) fun n _ => ?_
  refine (appends_functionWith hp fun _ _ => nests_build.appends).bind fun callback Δ hc => ?_
  refine (appends_module hp fun b p' hp' hcan => ?_).bind fun r Δ₁ ⟨hr, hr'⟩ => ?_
  · refine .draws draws_randomSignature fun signature words hl => ?_
    refine .importNext hp' rfl (t := .function n.toUInt64) (by simp [hc]) rfl (fun _ => hcan)
      (fun _ _ => rfl) fun imported b' _ => ?_
    refine Appends.true (Q := fun _ Δ => Δ = []) ?_ b'
    refine .draws (fun _ => draws_randomSignature) fun outer ho => ?_
    refine (appends_wasmFunctionWith hp' ho fun q hq => ?_).drop
    refine Appends.true (Q := fun _ Δ => Δ = []) ?_
    refine (appends_wasmValuesOf hq).bind fun args Δ₁ hargs => ?_
    refine (appends_wasmCall hq signature (by simp) (hargs.imp fun type v h => by simp [h])).bind
      fun _ Δ₂ _ => nests_build _ _
  refine (appends_callEveryExport hp (by simp [hr'])).silent fun _ => ?_
  refine (appends_functionWith hp fun _ _ => nests_pure.appends).bind fun replacement Δ₂ hrep => ?_
  refine (appends_instantiate hp (by simp [hr]) (by simp [hrep])).bind fun second Δ₃ hsec => ?_
  exact appends_callEveryExport hp (by simp [hsec])

lemma appends_wasmMemories : Appends p Γ wasmMemories fun _ Δ => Δ = [] := by
  refine (nests_values _ _).silent fun _ => appends_withWasm ?_
  refine .draw fun shared => ?_
  refine (appends_created hp ⟨rfl, rfl, rfl⟩ rfl rfl fun _ => rfl).bind fun source Δ hs => ?_
  refine (appends_module hp fun b p' hp' hcan => ?_).bind fun r Δ₁ ⟨_, hr⟩ => ?_
  · refine .importNext hp' rfl (t := .wasmObject (.memory 1 (some 2) shared)) (by simp [hs]) rfl
      (fun _ => hcan) (fun _ => Typer.resultType_importMemory) fun imported b' _ => ?_
    refine Appends.true (Q := fun _ Δ => Δ = []) ?_ b'
    refine (appends_definition hp' rfl rfl rfl rfl (fun _ => rfl) fun _ => rfl).bind
      fun _ Δ₁ _ => ?_
    exact (nests_build _ _).silent fun _ => appends_generatedWasmFunction hp'
  refine (Appends.forM fun index _ => ?_).silent fun _ => ?_
  · refine (appends_exportedMemory hp (by simp [hr])).bind fun memory Δ₂ hm => ?_
    exact .forM fun _ _ => appends_writeByte hp (by simp [hm])
  refine (appends_repeatBlock hp fun q hq _ =>
    (appends_callEveryExport hq (by simp [hr])).true).silent fun _ => ?_
  refine (appends_integer hp).bind fun delta Δ₂ hd => ?_
  refine (appends_callMethod hp (by simp [hs]) (by simp [hd])).bind fun _ Δ₃ _ => ?_
  exact appends_callEveryExport hp (by simp [hr])

lemma appends_wasmImportExport : Appends p Γ wasmImportExport fun _ Δ => Δ = [] := by
  refine (nests_values _ _).silent fun _ => appends_withWasm ?_
  refine (appends_created hp ⟨rfl, rfl, rfl⟩ rfl rfl fun _ => rfl).bind fun global Δ hg => ?_
  refine (appends_module hp fun b p' hp' hcan => ?_).bind fun r Δ₁ ⟨hr, hr'⟩ => ?_
  · refine .importNext hp' rfl (t := .wasmObject (.global .i64 true))
      (by simp [hg, WasmLiteral.type]) rfl (fun _ => hcan)
      (fun _ => Typer.resultType_importGlobal) fun imported b' _ => ?_
    refine Appends.true (Q := fun _ Δ => Δ = []) ?_ b'
    refine appends_wasmFunctionOfOne hp' le_rfl fun q hq v => ?_
    refine (appends_loadGlobal hq .i64 true (by simp)).bind fun current Δ₁ hcur => ?_
    have hadd : q.Allows (Δ₁ ++ ((v, .wasm .i64) :: ((imported, .wasmEntity (.global .i64 true)) ::
        (Δ ++ Γ)))) (.wasmIntBinary .bits64 .add) [current, v] :=
      .typed [.wasm .i64, .wasm .i64] hq (by simp [hcur]) rfl fun _ _ => rfl
    refine (appends_value rfl hadd rfl fun _ _ => rfl).bind fun sum Δ₂ hsum => ?_
    refine (appends_storeGlobal hq .i64 (by simp) (by simp [hsum, Width.intType])).silent
      fun _ => ?_
    exact (nests_build _ _).silent fun _ => .pure (Δ := Δ₂) (by simp [hsum]) (by simp)
  refine (appends_created hp ⟨rfl, rfl, rfl⟩ rfl rfl fun _ => rfl).bind fun other Δ₂ hother => ?_
  refine (appends_instantiate hp (by simp [hr]) (by simp [hother])).bind fun second Δ₃ hsec => ?_
  refine (appends_callEveryExport hp (by simp [hr'])).silent fun _ => ?_
  refine (appends_callEveryExport hp (by simp [hsec])).silent fun _ => ?_
  refine (appends_exported hp (by simp [hr'])).bind fun callee Δ₄ hcallee => ?_
  refine (appends_module hp fun b p' hp' hcan => ?_).bind fun r' Δ₅ ⟨_, hrelay⟩ => ?_
  · refine .importNext hp' rfl (t := .anything) (by simp [hcallee]) rfl (fun _ => hcan)
      (fun _ _ => rfl) fun imported b' _ => ?_
    refine Appends.true (Q := fun _ Δ => Δ = []) ?_ b'
    refine (appends_wasmFunction hp' le_rfl fun q hq vs _ => ?_).drop
    refine (Build.appends_wasmConst hq).bind fun arg Δ₅ harg => ?_
    refine (appends_wasmCall hq ⟨[.i64], [.i64]⟩ (by simp)
      (.cons (by simp [harg, WasmLiteral.type]) .nil)).bind fun results Δ₆ hresults => ?_
    exact .pure (Δ := Δ₆) (fun v hv => hresults (List.mem_of_mem_head? hv)) (by simp)
  refine (appends_callEveryExport hp (by simp [hrelay])).silent fun _ => ?_
  exact (appends_property hp (by simp [hg])).drop

end

end Scenario

namespace Template

open Build

variable [Regard]

/-- **Each template** appends well-formed code, as long as the number of parameters of a function
does not overflow or programs that a computation gave up on do not count. -/
theorem appends_code {b : Builder} {p : Place} {Γ : Known} {t : Template}
    (hp : p.context.isScript = true)
    (hb : t = .trickyFunction → Regard.unstopped ∨ ¬Scenario.Overflows b) :
    AppendsAt b p Γ t.code fun _ Δ => Δ = [] := by
  cases t with
  | codegen100 | codegen50 => exact Scenario.appends_codegen b
  | oneFunction => exact Scenario.appends_oneFunction hp b
  | twoFunctions => exact Scenario.appends_twoFunctions hp b
  | trickyFunction => exact Scenario.appends_trickyFunction hp (hb rfl)
  | jsonText => exact Scenario.appends_jsonText hp b
  | wasmModule => exact Scenario.appends_wasmModule hp b
  | wasmScenario => exact Scenario.appends_wasmScenario hp b
  | wasmMemory => exact Scenario.appends_wasmMemory hp b
  | wasmGlobal => exact Scenario.appends_wasmGlobal hp b
  | wasmFunctions => exact Scenario.appends_wasmFunctions hp b
  | wasmTable => exact Scenario.appends_wasmTable hp b
  | wasmImport => exact Scenario.appends_wasmImport hp b
  | wasmMemories => exact Scenario.appends_wasmMemories hp b
  | wasmImportExport => exact Scenario.appends_wasmImportExport hp b
  | wasmCombination => exact Scenario.appends_wasmCombination b
  | mapTransition => exact Scenario.appends_mapTransition hp b
  | valueSerializer => exact Scenario.appends_valueSerializer hp b
  | regExp => exact Scenario.appends_regExp hp b

end Template

end EngineFuzz
