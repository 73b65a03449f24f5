import Mathlib
import EngineFuzz.Proofs.Generation.Blocks
import EngineFuzz.Proofs.Generation.Operands

/-!
# The blocks of generators

For each way to make a block, what it appends if the code inside appends well-formed code.

* `Build.appends_function`, `Build.appends_ifBlock`, `Build.appends_repeatBlock`,
  `Build.appends_tryBlock`: blocks of the script.
* `Build.appends_module`, `Build.appends_wasmFunction`: modules and their functions.
* `Build.appends_wasmBlock`, `Build.appends_wasmIf`: blocks in functions of modules.
-/

namespace EngineFuzz

lemma Context.contains_union_left {c d e : Context} (h : c.contains e = true) :
    (c.union d).contains e = true := by
  have he : c.bits &&& e.bits = e.bits := eq_of_beq h
  have hbit (k : ℕ) : (c.bits.toBitVec.getLsbD k && e.bits.toBitVec.getLsbD k) =
      e.bits.toBitVec.getLsbD k := by
    rw [← BitVec.getLsbD_and, ← UInt8.toBitVec_and, he]
  have hu : (c.bits ||| d.bits) &&& e.bits = e.bits := by
    refine UInt8.eq_of_toBitVec_eq (BitVec.eq_of_getLsbD_eq fun k hk => ?_)
    rw [UInt8.toBitVec_and, UInt8.toBitVec_or, BitVec.getLsbD_and, BitVec.getLsbD_or]
    have := hbit k
    revert this
    cases c.bits.toBitVec.getLsbD k <;> cases e.bits.toBitVec.getLsbD k <;> simp
  exact beq_iff_eq.mpr hu

namespace Build

variable [Regard] {α β : Type} {b : Builder} {p : Place} {Γ Δ : Known} {v : Variable}

/-! ### Blocks of the script -/

section

variable (hp : p.context.isScript = true)
include hp

/-- Code under a condition. -/
theorem appends_ifBlock {body : Build α} (hv : v ∈ Γ.vars)
    (hbody : ∀ p' : Place, p'.context.isScript = true → Appends p' Γ body fun _ _ => True) :
    Appends p Γ (ifBlock v body) fun _ Δ => Δ = [] := by
  intro b
  have hif : p.Allows Γ .beginIf [v] := .script hp rfl hp (by simpa using hv) fun _ => rfl
  refine AppendsAt.opens (g := fun _ => _) hif rfl rfl rfl (d := p.context) (fun c hc => hc) ?_
  rw [inner_eq_nil rfl, outputs_eq_nil rfl]
  refine LeavesAt.bind (hbody _ hp _) fun a Δ _ => ?_
  exact .closed ⟨rfl, rfl, rfl, rfl, Context.contains_empty, rfl, fun _ => rfl⟩ rfl
    (List.nil_subset _)

/-- Code under a condition, and the code that runs otherwise. -/
theorem appends_ifElseBlock {yes : Build α} {no : α → Build β} (hv : v ∈ Γ.vars)
    (hyes : ∀ p' : Place, p'.context.isScript = true → Appends p' Γ yes fun _ _ => True)
    (hno : ∀ p' : Place, p'.context.isScript = true → ∀ a,
      Appends p' Γ (no a) fun _ _ => True) :
    Appends p Γ (ifElseBlock v yes no) fun _ Δ => Δ = [] := by
  intro b
  have hif : p.Allows Γ .beginIf [v] := .script hp rfl hp (by simpa using hv) fun _ => rfl
  refine AppendsAt.opens (g := fun _ => _) hif rfl rfl rfl (d := p.context) (fun c hc => hc) ?_
  rw [inner_eq_nil rfl, outputs_eq_nil rfl]
  refine LeavesAt.bind (hyes _ hp _) fun a Δ _ => ?_
  have helse (q : Place) (Γ' : Known) : q.Allows Γ' .beginElse [] :=
    .noInputs Context.contains_empty rfl fun _ => rfl
  refine LeavesAt.switches (g := fun _ => _) (helse _ _) rfl rfl rfl rfl (d := p.context)
    (fun c hc => hc) ?_
  rw [inner_eq_nil rfl]
  refine LeavesAt.bind (hno _ hp a _) fun a' Δ' _ => ?_
  exact .closed ⟨rfl, rfl, rfl, rfl, Context.contains_empty, rfl, fun _ => rfl⟩ rfl
    (List.nil_subset _)

/-- A counting loop. -/
theorem appends_repeatBlock {n : UInt32} {body : Variable → Build α}
    (hbody : ∀ p' : Place, p'.context.isScript = true → ∀ v,
      Appends p' ((v, .integer) :: Γ) (body v) fun _ _ => True) :
    Appends p Γ (repeatBlock n body) fun _ Δ => Δ = [] := by
  intro b
  have hop : p.Allows Γ (.beginRepeatLoop n) [] := .noInputs hp rfl fun _ => rfl
  refine AppendsAt.opens hop rfl rfl rfl (d := p.context)
    (fun c hc => Context.contains_union_left hc) ?_
  rw [inner_eq_single rfl rfl, outputs_eq_nil rfl]
  refine LeavesAt.bind (hbody _ hp _ _) fun a Δ _ => ?_
  exact .closed ⟨rfl, rfl, rfl, rfl, Context.contains_empty, rfl, fun _ => rfl⟩ rfl
    (List.nil_subset _)

/-- Code with a handler. -/
theorem appends_tryBlock {body : Build α} {handler : α → Variable → Build β}
    (hbody : ∀ p' : Place, p'.context.isScript = true → Appends p' Γ body fun _ _ => True)
    (hhandler : ∀ p' : Place, p'.context.isScript = true → ∀ a v,
      Appends p' ((v, .anything) :: Γ) (handler a v) fun _ _ => True) :
    Appends p Γ (tryBlock body handler) fun _ Δ => Δ = [] := by
  intro b
  have hop : p.Allows Γ .beginTry [] := .noInputs hp rfl fun _ => rfl
  refine AppendsAt.opens (g := fun _ => _) hop rfl rfl rfl (d := p.context) (fun c hc => hc) ?_
  rw [inner_eq_nil rfl, outputs_eq_nil rfl]
  refine LeavesAt.bind (hbody _ hp _) fun a Δ _ => ?_
  refine LeavesAt.switches (.noInputs Context.contains_empty rfl fun _ => rfl) rfl rfl rfl rfl
    (d := p.context) (fun c hc => hc) ?_
  rw [inner_eq_single rfl rfl]
  refine LeavesAt.bind (hhandler _ hp a _ _) fun a' Δ' _ => ?_
  exact .closed ⟨rfl, rfl, rfl, rfl, Context.contains_empty, rfl, fun _ => rfl⟩ rfl
    (List.nil_subset _)

omit [Regard] hp in
lemma function_eq {n : ℕ} {body : List Variable → Build Unit} :
    Build.function n body = (do
      let i ← emit (.beginPlainFunction n.toUInt64) []
      body i.innerOutputs
      let _ ← emit .endPlainFunction []
      return firstOf i.outputs) := rfl

/-- A function, whose body knows itself and the parameters. -/
theorem AppendsAt.function {n : ℕ} {body : List Variable → Build Unit}
    (hbody : ∀ p' : Place, p'.context.isScript = true → p'.context.contains .subroutine = true →
      AppendsAt (b.emit (.beginPlainFunction n.toUInt64) []).2 p'
        (b.inner (.beginPlainFunction n.toUInt64) [] ++
          (outputs b (.beginPlainFunction n.toUInt64) [] ++ Γ))
        (body (b.emitted (.beginPlainFunction n.toUInt64) []).innerOutputs) fun _ _ => True) :
    AppendsAt b p Γ (Build.function n body) fun f Δ => Δ = [(f, .function n.toUInt64)] := by
  have hop : p.Allows Γ (.beginPlainFunction n.toUInt64) [] := .noInputs hp rfl fun _ => rfl
  rw [function_eq]
  refine AppendsAt.opens hop rfl rfl rfl (d := .union .script .subroutine)
    (fun _ _ => Context.contains_self) ?_
  have hscript : (Context.script.union .subroutine).isScript = true := by decide
  have hsub : (Context.script.union .subroutine).contains .subroutine = true := by decide
  refine LeavesAt.bind (hbody _ hscript hsub) fun a Δ _ => ?_
  exact .closed ⟨rfl, rfl, rfl, rfl, Context.contains_empty, rfl, fun _ => rfl⟩ rfl
    (List.subset_append_left ..)

/-- A function that does not use its parameters. -/
theorem appends_function {n : ℕ} {body : List Variable → Build Unit}
    (hbody : ∀ p' : Place, p'.context.isScript = true → p'.context.contains .subroutine = true →
      ∀ vs, Appends p' Γ (body vs) fun _ _ => True) :
    Appends p Γ (Build.function n body) fun f Δ => Δ = [(f, .function n.toUInt64)] :=
  fun _ => .function hp fun p' hp' hs => (hbody p' hp' hs _).weaken (fun _ h => by simp [h]) _

/-- A function that uses its first parameter. -/
theorem AppendsAt.function_first {n : ℕ} {body : List Variable → Build Unit}
    (hn : b.Regarded → 0 < n.toUInt64.toNat)
    (hbody : ∀ p' : Place, p'.context.isScript = true → p'.context.contains .subroutine = true →
      ∀ vs, Appends p' ((firstOf vs, .anything) :: Γ) (body vs) fun _ _ => True) :
    AppendsAt b p Γ (Build.function n body) fun f Δ => Δ = [(f, .function n.toUInt64)] := by
  refine .function hp fun p' hp' hs hsound hk => ?_
  refine hbody p' hp' hs _ _ hsound fun hb => (hk hb).subset (List.cons_subset.mpr ⟨?_, ?_⟩)
  · obtain ⟨k, hlen⟩ := Nat.exists_eq_add_one.mpr
      (hn (hb.of_emit))
    refine List.mem_append_left _ ?_
    change (firstOf (Builder.freshVariables _ n.toUInt64.toNat), _) ∈
      (Builder.freshVariables _ n.toUInt64.toNat).zip
        (List.replicate (min n.toUInt64.toNat n.toUInt64.toNat) StaticType.anything)
    rw [hlen, Nat.min_self, Builder.freshVariables_succ, List.replicate_succ, List.zip_cons_cons]
    exact List.mem_cons_self ..
  · exact List.subset_append_of_subset_right _ (List.subset_append_right ..)

end

/-! ### Modules -/

/-- The results of a function, as its end takes them. -/
def results (signature : FunctionSignature) (result? : Option Variable) : Build (List Variable) :=
  match signature.result with
  | none => pure []
  | some type => do
    match result? with
    | some v => if ← fits type v then pure [v] else pure [← wasmValueOf type]
    | none => pure [← wasmValueOf type]

omit [Regard] in
lemma wasmFunction_eq {signature : FunctionSignature}
    {body : List Variable → Build (Option Variable)} :
    wasmFunction signature body = (do
      let i ← emit (.beginWasmFunction signature) []
      let result? ← body i.innerOutputs
      let results ← results signature result?
      value (.endWasmFunction signature) results) := by
  unfold wasmFunction wasmFunctionBlock results
  simp only [bind_assoc, pure_bind]
  congr 1
  funext i
  congr 1
  funext result?
  cases signature.result with
  | none => rfl
  | some type =>
      cases result? with
      | none => rfl
      | some v =>
          simp only [bind_assoc]
          congr 1
          funext fitting
          cases fitting <;> rfl

omit [Regard] in
lemma isWasmValue_iff {type : WasmType} {t : StaticType} :
    t.isWasmValue type = true ↔ t = .wasm type := by
  cases t <;> simp [StaticType.isWasmValue]

/-- A variable that fits a type has it. -/
lemma Appends.fits {type : WasmType} {f : Bool → Build α} {Q : α → Known → Prop} (hv : v ∈ Γ.vars)
    (htrue : Appends p ((v, .wasm type) :: Γ) (f true) Q) (hfalse : Appends p Γ (f false) Q) :
    Appends p Γ (Build.fits type v >>= f) Q := by
  intro b
  change AppendsAt b p Γ (f (b.scopes.isVisible v && (b.typeOf v).isWasmValue type)) Q
  cases hc : b.scopes.isVisible v && (b.typeOf v).isWasmValue type with
  | false => exact hfalse b
  | true =>
      have ht : b.typeOf v = .wasm type := isWasmValue_iff.mp (Bool.and_eq_true_iff.mp hc).2
      intro hs hk
      refine htrue b hs fun hb => ?_
      rw [← ht]
      exact ((hk hb).single ((hk hb).usable hv)).append (hk hb)

section

variable (hp : p.context.isWasmFunction = true)
include hp

/-- The results of a function have the types of its signature. -/
lemma appends_results {signature : FunctionSignature} {result? : Option Variable}
    (hl : signature.results.length ≤ 1) (hr : ∀ v ∈ result?, v ∈ Γ.vars) :
    Appends p Γ (results signature result?) fun vs Δ =>
      List.Forall₂ (fun type v => (v, .wasm type) ∈ Δ) signature.results vs := by
  have hvalue {type : WasmType} : Appends p Γ (do return [← wasmValueOf type]) fun vs Δ =>
      List.Forall₂ (fun type v => (v, .wasm type) ∈ Δ) [type] vs :=
    (appends_wasmValueOf hp).bind fun v Δ hΔ => .pure (Δ := Δ) (by simp [hΔ]) (by simp)
  rw [results, FunctionSignature.result]
  match signature.results, hl with
  | [], _ => exact .pure (Δ := []) .nil (List.nil_subset _)
  | [type], _ =>
      change Appends p Γ (match result? with
        | some v => do if ← fits type v then pure [v] else pure [← wasmValueOf type]
        | none => do pure [← wasmValueOf type]) _
      cases result? with
      | none => exact hvalue
      | some v =>
          refine Appends.fits (hr v rfl) ?_ hvalue
          exact .pure (Δ := [(v, .wasm type)]) (by simp) (by simp)

end

omit [Regard] in
lemma vars_of_wasm {types : List WasmType} {vs : List Variable}
    (h : List.Forall₂ (fun type v => (v, .wasm type) ∈ Δ) types vs) : vs ⊆ Δ.vars :=
  (vars_of_forall₂ (R := fun type t => t = .wasm type) (h.imp fun _ _ h => ⟨_, h, rfl⟩)).2

omit [Regard] in
/-- Values of WebAssembly types are accepted as such. -/
lemma all_isWasmValue {τ : Variable → StaticType} {types : List WasmType} {vs : List Variable}
    (h : List.Forall₂ (fun type v => τ v = .wasm type) types vs) :
    ((vs.map τ).zip types).all (fun (t, type) => t.isWasmValue type) = true := by
  induction h with
  | nil => rfl
  | cons head _ ih =>
      rw [List.map_cons, List.zip_cons_cons, List.all_cons, ih, Bool.and_true]
      exact isWasmValue_iff.mpr head

section

variable (hp : p.context.isWasmModule = true)
include hp

/-- A function of a module. -/
theorem appends_wasmFunction {signature : FunctionSignature}
    {body : List Variable → Build (Option Variable)} (hl : signature.results.length ≤ 1)
    (hbody : ∀ p' : Place, p'.context.isWasmFunction = true → ∀ vs : List Variable,
      vs.length = signature.params.length →
      Appends p' (vs.zip (signature.params.map .wasm) ++ Γ) (body vs)
        fun result? Δ => ∀ v ∈ result?, v ∈ Δ.vars) :
    Appends p Γ (wasmFunction signature body)
      fun v Δ => Δ = [(v, .wasmEntity (.function signature))] := by
  intro b
  have hop : p.Allows Γ (.beginWasmFunction signature) [] := .noInputs hp rfl fun _ => rfl
  have hin : Context.wasmFunction.isWasmFunction = true := Context.contains_self
  rw [wasmFunction_eq]
  refine AppendsAt.opens hop rfl rfl rfl (d := .wasmFunction) (fun _ _ => hin) ?_
  rw [outputs_eq_nil rfl]
  refine LeavesAt.bind (hbody _ hin _ Builder.length_freshVariables _) fun result? Δ hr => ?_
  refine LeavesAt.bind (appends_results hin hl (fun v hv => ?_) _) fun vs Δ' hvs => ?_
  · rw [Known.vars_append]
    exact List.mem_append_left _ (hr v hv)
  rw [value_eq rfl rfl]
  have hend (q : Place) (hq : q.context = .wasmFunction) (Γ' : Known) :
      q.Allows (Δ' ++ Γ') (.endWasmFunction signature) vs := {
    count := fun _ _ _ => hvs.length_eq.symm
    known := by
      rw [Known.vars_append]
      exact List.subset_append_of_subset_left _ (vars_of_wasm hvs)
    context := by
      rw [hq]
      exact hin
    inputTypes := fun τ hτ => all_isWasmValue <| hvs.imp fun type v hv =>
      hτ.known v _ (List.mem_append_left _ hv) }
  refine LeavesAt.closes (hend _ rfl _) rfl rfl rfl rfl fun Δ'' _ htypes => ?_
  rw [htypes nofun]
  exact .pure rfl (List.subset_append_left ..)

end

omit [Regard] in
/-- Everything may be imported at the beginning of a module. -/
lemma canImport_beginWasmModule {c : EntityCategory} :
    (b.emit .beginWasmModule []).2.canImport c = true := by
  rw [Builder.canImport, Typer.currentModule?, show (b.emit .beginWasmModule []).2.typer =
    b.typer.apply (b.emitted .beginWasmModule []) from rfl, Typer.modules_apply_beginWasmModule rfl]
  rfl

section

variable (hp : p.context.isScript = true)
include hp

/-- A module, and the exports of its first instance. -/
theorem appends_module {body : Build Unit}
    (hbody : ∀ (b : Builder) (p' : Place), p'.context.isWasmModule = true →
      (∀ c, b.canImport c = true) → AppendsAt b p' Γ body fun _ _ => True) :
    Appends p Γ (module body) fun r Δ => r.1 ∈ Δ.vars ∧ r.2 ∈ Δ.vars := by
  intro b
  have hop : p.Allows Γ .beginWasmModule [] := .noInputs hp rfl fun _ => rfl
  have hin : Context.wasmModule.isWasmModule = true := Context.contains_self
  have heq : module body = (do
      let _ ← emit .beginWasmModule []
      body
      let i ← emit .endWasmModule []
      return (firstOf i.outputs, firstOf i.outputs.tail)) := rfl
  rw [heq]
  refine AppendsAt.opens hop rfl rfl rfl (d := .wasmModule) (fun _ _ => hin) ?_
  rw [outputs_eq_nil rfl, inner_eq_nil rfl]
  refine LeavesAt.bind (hbody _ _ hin fun c => canImport_beginWasmModule) fun _ Δ _ => ?_
  refine LeavesAt.closes (.noInputs hin rfl fun _ => rfl) rfl rfl rfl rfl fun Δ' hvars _ => ?_
  refine .pure (Δ := Δ') ?_ (List.subset_append_left ..)
  rw [hvars]
  exact ⟨List.mem_cons_self .., List.mem_cons_of_mem _ (List.mem_cons_self ..)⟩

end

/-! ### Blocks in functions -/

section

variable (hp : p.context.isWasmFunction = true)
include hp

/-- A block with a label. -/
theorem appends_wasmBlock {body : Variable → Build α}
    (hbody : ∀ p' : Place, p'.context.isWasmFunction = true → ∀ v,
      Appends p' ((v, .label) :: Γ) (body v) fun _ _ => True) :
    Appends p Γ (wasmBlock body) fun _ Δ => Δ = [] := by
  intro b
  have hop : p.Allows Γ .wasmBeginBlock [] := .noInputs hp rfl fun _ => rfl
  have hin : Context.wasmFunction.isWasmFunction = true := Context.contains_self
  refine AppendsAt.opens hop rfl rfl rfl (d := .wasmFunction) (fun _ _ => hin) ?_
  rw [inner_eq_single rfl rfl, outputs_eq_nil rfl]
  refine LeavesAt.bind (hbody _ hin _ _) fun a Δ _ => ?_
  exact .closed ⟨rfl, rfl, rfl, rfl, hin, rfl, fun _ => rfl⟩ rfl (List.nil_subset _)

omit [Regard] in
lemma allows_wasmBeginIf (hv : (v, .wasm .i32) ∈ Γ) : p.Allows Γ .wasmBeginIf [v] :=
  .typed [.wasm .i32] hp (by simpa using hv) rfl fun _ _ => rfl

/-- Code of a function under a condition. -/
theorem appends_wasmIf {body : Variable → Build α} (hv : (v, .wasm .i32) ∈ Γ)
    (hbody : ∀ p' : Place, p'.context.isWasmFunction = true → ∀ w,
      Appends p' ((w, .label) :: Γ) (body w) fun _ _ => True) :
    Appends p Γ (wasmIf v body) fun _ Δ => Δ = [] := by
  intro b
  have hin : Context.wasmFunction.isWasmFunction = true := Context.contains_self
  refine AppendsAt.opens (allows_wasmBeginIf hp hv) rfl rfl rfl (d := .wasmFunction)
    (fun _ _ => hin) ?_
  rw [inner_eq_single rfl rfl, outputs_eq_nil rfl]
  refine LeavesAt.bind (hbody _ hin _ _) fun a Δ _ => ?_
  exact .closed ⟨rfl, rfl, rfl, rfl, hin, rfl, fun _ => rfl⟩ rfl (List.nil_subset _)

/-- Code of a function under a condition, and its alternative. -/
theorem appends_wasmIfElse {yes : Variable → Build α} {no : α → Variable → Build β}
    (hv : (v, .wasm .i32) ∈ Γ)
    (hyes : ∀ p' : Place, p'.context.isWasmFunction = true → ∀ w,
      Appends p' ((w, .label) :: Γ) (yes w) fun _ _ => True)
    (hno : ∀ p' : Place, p'.context.isWasmFunction = true → ∀ a w,
      Appends p' ((w, .label) :: Γ) (no a w) fun _ _ => True) :
    Appends p Γ (wasmIfElse v yes no) fun _ Δ => Δ = [] := by
  intro b
  have hin : Context.wasmFunction.isWasmFunction = true := Context.contains_self
  refine AppendsAt.opens (allows_wasmBeginIf hp hv) rfl rfl rfl (d := .wasmFunction)
    (fun _ _ => hin) ?_
  rw [inner_eq_single rfl rfl, outputs_eq_nil rfl]
  refine LeavesAt.bind (hyes _ hin _ _) fun a Δ _ => ?_
  refine LeavesAt.switches (.noInputs hin rfl fun _ => rfl) rfl rfl rfl rfl (d := .wasmFunction)
    (fun _ _ => hin) ?_
  rw [inner_eq_single rfl rfl]
  refine LeavesAt.bind (hno _ hin a _ _) fun a' Δ' _ => ?_
  exact .closed ⟨rfl, rfl, rfl, rfl, hin, rfl, fun _ => rfl⟩ rfl (List.nil_subset _)

end

end Build

end EngineFuzz
