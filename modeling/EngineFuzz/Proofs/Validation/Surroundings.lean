import Mathlib
import EngineFuzz.Proofs.Layout.Ordering
import EngineFuzz.Proofs.Validation.FunctionBlocks
import EngineFuzz.Proofs.Validation.Freshness

/-!
# Around a position

What stays the same around a position while code is appended there, and what positions of accepted
programs have in common.

* `ScopeState.Extends`: only the innermost scope has got more variables.
* `ScopeState.Opens`: one more block is open, and outside of it only the innermost scope has got
  more variables.
* `ScopeState.Placed.exists_signature`: there is a signature around every position in a function.
* `Typer.Ordered`: no import follows a definition of its category so far, with
  `Typer.Ordered.apply`.
-/

namespace EngineFuzz

namespace ScopeState

variable {s s' t t' : ScopeState} {i : Instruction} {v : Variable} {vs : List Variable}
  {block : OpenBlock} {c : Context}

/-! ### Positions in one block -/

/-- Blocks and contexts are the same, and so are the scopes but for variables that the innermost one
has got. -/
structure Extends (s s' : ScopeState) : Prop where
  blocks : s'.blocks = s.blocks
  contexts : s'.contexts = s.contexts
  inner : s.scopes.headD [] <:+ s'.scopes.headD []
  outer : s'.scopes.tail = s.scopes.tail

namespace Extends

lemma refl : s.Extends s := ⟨rfl, rfl, List.suffix_rfl, rfl⟩

lemma trans (h : s.Extends s') (h' : s'.Extends t) : s.Extends t where
  blocks := h'.blocks.trans h.blocks
  contexts := h'.contexts.trans h.contexts
  inner := h.inner.trans h'.inner
  outer := h'.outer.trans h.outer

lemma context (h : s.Extends s') : s'.context = s.context := by
  rw [ScopeState.context, ScopeState.context, h.contexts]

lemma currentFunction? (h : s.Extends s') : s'.currentFunction? = s.currentFunction? := by
  rw [ScopeState.currentFunction?, ScopeState.currentFunction?, h.blocks]

/-- What is in scope stays in scope. -/
lemma mem_flatten (h : s.Extends s') (hv : v ∈ s.scopes.flatten) : v ∈ s'.scopes.flatten := by
  obtain ⟨-, -, hi, ho⟩ := h
  cases hs : s.scopes with
  | nil => simp [hs] at hv
  | cons top rest =>
      rw [hs] at hv hi ho
      rw [List.flatten_cons, List.mem_append] at hv
      rw [List.headD_cons] at hi
      rw [List.tail_cons] at ho
      cases hs' : s'.scopes with
      | nil =>
          rw [hs', List.headD_nil, List.suffix_nil] at hi
          rw [hs', List.tail_nil] at ho
          rw [hi, ← ho] at hv
          simp at hv
      | cons top' rest' =>
          rw [hs', List.headD_cons] at hi
          rw [hs', List.tail_cons] at ho
          rw [List.flatten_cons, List.mem_append, ho]
          exact hv.imp_left fun hv => hi.subset hv

lemma declareAll (h : t.Extends s) (hs : s.scopes ≠ []) : t.Extends (s.declareAll vs) := by
  obtain ⟨top, rest, hs⟩ := List.exists_cons_of_ne_nil hs
  obtain ⟨hb, hc, hi, ho⟩ := h
  rw [hs] at hi ho
  refine ⟨by rw [blocks_declareAll, hb], by rw [contexts_declareAll, hc], ?_, ?_⟩
  · rw [scopes_declareAll hs, List.headD_cons]
    exact hi.trans (List.suffix_append ..)
  · rw [scopes_declareAll hs]
    exact ho

end Extends

/-- A plain instruction extends the innermost scope. -/
lemma extends_apply (hs : s.scopes ≠ []) (hb : i.operation.isBlockStart = false)
    (he : i.operation.isBlockEnd = false) : s.Extends (s.apply i) := by
  rw [apply_of_not_isBlockStart hb, declared, outside_of_not_isBlockEnd he]
  exact Extends.refl.declareAll hs

/-! ### Positions in an inner block -/

/-- The block is open in addition, and positions behind it extend the first one. -/
structure Opens (s : ScopeState) (block : OpenBlock) (c : Context) (s' : ScopeState) :
    Prop where
  blocks : s'.blocks = block :: s.blocks
  contexts : s'.contexts = c :: s.contexts
  behind : s.Extends s'.leave

lemma leave_enter {closed? : Option OpenBlock} (hc : s.contexts ≠ []) :
    (s.enter i closed?).leave.blocks = s.blocks ∧
      (s.enter i closed?).leave.contexts = s.contexts ∧
        (s.enter i closed?).leave.scopes = s.scopes := by
  obtain ⟨c, cs, hc⟩ := List.exists_cons_of_ne_nil hc
  refine ⟨?_, ?_, ?_⟩
  · rw [leave, blocks_enter, List.tail_cons]
  · rw [leave, contexts_enter, hc]
  · rw [leave, scopes_enter, List.tail_cons]

/-- A block is entered at a position that extends another. -/
lemma Extends.enter {closed? : Option OpenBlock} (h : t.Extends s) (hc : t.contexts ≠ []) :
    t.Opens (openedBlock i.operation closed?) (i.operation.innerContext s.context)
      (s.enter i closed?) := by
  obtain ⟨hb, hcs, hsc⟩ : _ ∧ _ ∧ (s.enter i closed?).leave.scopes = s.scopes :=
    leave_enter (by rw [h.contexts]; exact hc)
  refine ⟨?_, ?_, ?_⟩
  · rw [blocks_enter, h.blocks]
  · rw [contexts_enter, h.contexts]
  · exact ⟨hb.trans h.blocks, hcs.trans h.contexts, by rw [hsc]; exact h.inner,
      by rw [hsc]; exact h.outer⟩

/-- The instruction that opens a block. -/
lemma opens_apply (hs : s.scopes ≠ []) (hc : s.contexts ≠ [])
    (hb : i.operation.isBlockStart = true) (he : i.operation.isBlockEnd = false) :
    s.Opens (openedBlock i.operation none) (i.operation.innerContext s.context) (s.apply i) := by
  have hd : s.Extends (s.declared i) := by
    rw [declared, outside_of_not_isBlockEnd he]
    exact Extends.refl.declareAll hs
  have hcl : s.closed? i = none := by rw [closed?, if_neg (by simp [he])]
  rw [apply_of_isBlockStart hb, hcl, ← hd.context]
  exact hd.enter hc

/-- The instruction that closes a block extends the position behind the block. -/
lemma leave_extends_apply (hs : s.scopes.tail ≠ []) (hb : i.operation.isBlockStart = false)
    (he : i.operation.isBlockEnd = true) : s.leave.Extends (s.apply i) := by
  rw [apply_of_not_isBlockStart hb, declared, outside_of_isBlockEnd he]
  exact Extends.refl.declareAll hs

/-- What is in scope behind a block is so behind its second part. -/
lemma mem_tail_apply (hs : s.scopes.tail ≠ []) (hb : i.operation.isBlockStart = true)
    (he : i.operation.isBlockEnd = true) (hv : v ∈ s.scopes.tail.flatten) :
    v ∈ (s.apply i).scopes.tail.flatten := by
  have hd : s.leave.Extends (s.declared i) := by
    rw [declared, outside_of_isBlockEnd he]
    exact Extends.refl.declareAll hs
  rw [apply_of_isBlockStart hb, scopes_enter, List.tail_cons]
  exact hd.mem_flatten hv

/-- The outputs of an instruction that opens a block are in scope behind the block. -/
lemma mem_tail_apply_of_mem_outputs (hs : s.scopes ≠ []) (hb : i.operation.isBlockStart = true)
    (he : i.operation.isBlockEnd = false) (hv : v ∈ i.outputs) :
    v ∈ (s.apply i).scopes.tail.flatten := by
  obtain ⟨top, rest, hs⟩ := List.exists_cons_of_ne_nil hs
  have ho : (s.outside i).scopes = top :: rest := by rw [outside_of_not_isBlockEnd he, hs]
  rw [scopes_apply ho, if_pos hb, List.cons_append, List.nil_append, List.tail_cons,
    List.flatten_cons]
  exact List.mem_append_left _ (List.mem_append_left _ (List.mem_reverse.mpr hv))

namespace Opens

lemma context (h : s.Opens block c s') : s'.context = c := by
  rw [ScopeState.context, h.contexts, List.headD_cons]

lemma trans (h : s.Opens block c s') (h' : s'.Extends t) : s.Opens block c t where
  blocks := h'.blocks.trans h.blocks
  contexts := h'.contexts.trans h.contexts
  behind := h.behind.trans {
    blocks := by rw [leave, leave, h'.blocks]
    contexts := by rw [leave, leave, h'.contexts]
    inner := by rw [leave, leave, h'.outer]
    outer := by rw [leave, leave, h'.outer] }

/-- What is in scope outside is in scope inside. -/
lemma mem_flatten (h : s.Opens block c s') (hv : v ∈ s.scopes.flatten) :
    v ∈ s'.scopes.flatten := by
  have hl : v ∈ s'.scopes.tail.flatten := h.behind.mem_flatten hv
  obtain ⟨scope, hs, hv⟩ := List.mem_flatten.mp hl
  exact List.mem_flatten.mpr ⟨scope, List.mem_of_mem_tail hs, hv⟩

lemma declared (h : s.Opens block c s') (hs : s'.scopes.tail ≠ [])
    (he : i.operation.isBlockEnd = true) : s.Extends (s'.declared i) := by
  rw [ScopeState.declared, outside_of_isBlockEnd he]
  exact h.behind.declareAll hs

/-- The instruction that closes the block. -/
lemma close (h : s.Opens block c s') (hs : s'.scopes.tail ≠ [])
    (hb : i.operation.isBlockStart = false) (he : i.operation.isBlockEnd = true) :
    s.Extends (s'.apply i) := by
  rw [apply_of_not_isBlockStart hb]
  exact h.declared hs he

/-- The instruction that opens the second part of the block. -/
lemma switch (h : s.Opens block c s') (hs : s'.scopes.tail ≠ []) (hc : s.contexts ≠ [])
    (hb : i.operation.isBlockStart = true) (he : i.operation.isBlockEnd = true) :
    s.Opens { block with switched := true } (i.operation.innerContext s.context)
      (s'.apply i) := by
  have hd : s.Extends (s'.declared i) := h.declared hs he
  have hcl : s'.closed? i = some block := by
    rw [closed?, if_pos he, h.blocks, List.head?_cons]
  have he : s.Opens (openedBlock i.operation (some block)) _ _ := hd.enter hc
  rw [apply_of_isBlockStart hb, hcl, ← hd.context]
  exact he

end Opens

end ScopeState

/-- Whether an operation may continue or close the block. -/
def OpenBlock.check (b : OpenBlock) (op : Operation) : Except ScopeError Unit :=
  ScopeState.checkBlockEnd { ScopeState.start with blocks := [b] } op

/-- The innermost block only matters for what may continue or close a block. -/
lemma ScopeState.checkBlockEnd_eq {s : ScopeState} {b : OpenBlock} {bs : List OpenBlock}
    {op : Operation} (h : s.blocks = b :: bs) : s.checkBlockEnd op = b.check op := by
  rw [OpenBlock.check, checkBlockEnd, checkBlockEnd, h]

/-! ### Functions around -/

/-- The block has a signature if it is a function of a module. -/
def OpenBlock.Signed (b : OpenBlock) : Prop := b.kind = .wasmFunction → b.signature.isSome = true

namespace ScopeState

variable {s : ScopeState} {i : Instruction} {v : Variable}

lemma signed_openedBlock {op : Operation} {closed? : Option OpenBlock}
    (hop : op.isBlockStart = true) (h : ∀ b, closed? = some b → b.Signed) :
    (openedBlock op closed?).Signed := by
  cases closed? with
  | some b => exact h b rfl
  | none =>
      cases op with
      | beginWasmFunction signature => exact fun _ => rfl
      | _ => first | exact absurd hop Bool.false_ne_true | exact fun hk => by cases hk

lemma signed_apply (h : ∀ b ∈ s.blocks, b.Signed) : ∀ b ∈ (s.apply i).blocks, b.Signed := by
  intro b hb
  rw [blocks_apply, List.mem_append] at hb
  rcases hb with hb | hb
  · unfold opened at hb
    split at hb
    · rename_i hop
      rw [List.mem_singleton.mp hb]
      refine signed_openedBlock hop fun c hc => h c ?_
      unfold closed? at hc
      split at hc
      · exact List.mem_of_head? hc
      · exact nomatch hc
    · exact absurd hb List.not_mem_nil
  · split at hb
    · exact h b (List.mem_of_mem_tail hb)
    · exact h b hb

/-- There is a signature around every position in a function. -/
lemma Placed.exists_signature (h : s.Placed) (hs : ∀ b ∈ s.blocks, b.Signed)
    (hw : OpenBlock.worldOf s.blocks = .function) : s.currentFunction?.isSome = true := by
  have hn := h.nested
  unfold currentFunction?
  generalize s.blocks = bs at hn hs hw
  induction bs with
  | nil => exact nomatch hw
  | cons b bs ih =>
      rw [OpenBlock.worldOf] at hw
      rcases hk : decide (b.kind = .wasmFunction) with _ | _
      · -- a block that directs control stands in a function
        have hne : b.kind ≠ .wasmFunction := of_decide_eq_false hk
        rw [List.find?_cons_of_neg (by simpa using hne)]
        refine ih hn.2 (fun c hc => hs c (List.mem_cons_of_mem _ hc)) ?_
        rw [hn.1]
        revert hne hw
        cases b.kind <;> simp [BlockKind.inside, BlockKind.outside]
      · have he : b.kind = .wasmFunction := of_decide_eq_true hk
        rw [List.find?_cons_of_pos (by simpa using he)]
        exact hs b (List.mem_cons_self ..) he

/-- A position that provides the context of an operation is in its world. -/
lemma Placed.worldOf_of_contains (h : s.Placed) {op : Operation}
    (hc : s.context.contains op.requiredContext = true) (he : op.isBlockEnd = false) :
    OpenBlock.worldOf s.blocks = op.home :=
  (Operation.eq_home_of_contains h.context_provides hc).resolve_right fun h' => by
    simp [h'.1] at he

lemma Placed.contexts_ne_nil (h : s.Placed) : s.contexts ≠ [] := by
  have hc := h.contexts
  intro hn
  rw [hn, OpenBlock.worldsOf_eq] at hc
  exact nomatch hc

/-- In the script all variables in scope are values of the script. -/
lemma Fits.isScriptValue {typer : Typer} (h : s.Fits typer) (hc : s.context.isScript = true)
    (hv : v ∈ s.scopes.flatten) : (typer.typeOf v).isScriptValue = true := by
  have hw : OpenBlock.worldOf s.blocks = .script :=
    @Placed.worldOf_of_contains _ h.toPlaced .loadNull hc rfl
  obtain ⟨w, hmem, scope, hholds, hv⟩ := h.exists_holds hv
  rw [OpenBlock.worldsOf_eq, List.mem_cons] at hmem
  have hws : w = .script := by
    rcases hmem with hmem | hmem
    · exact hmem.trans hw
    · exact OpenBlock.eq_script_of_mem_tail h.nested (by simp [hw]) w hmem
  rw [hws] at hholds
  exact hholds v hv

end ScopeState

/-- There is a signature around every position in a function, in an accepted list of
instructions. -/
lemma Validator.Steps.signed {s s' : Validator} {is : List Instruction} (hs : Steps s is s')
    (h : ∀ b ∈ s.scopes.blocks, b.Signed) : ∀ b ∈ s'.scopes.blocks, b.Signed := by
  induction hs with
  | nil s => exact h
  | cons head tail ih =>
      obtain ⟨next, -, rfl⟩ := step_eq_ok_iff.mp head
      exact ih (ScopeState.signed_apply h)

/-! ### The order of imports and definitions -/

/-- The index space that the operation imports into. -/
def Operation.importCategory? : Operation → Option EntityCategory
  | wasmImportGlobal => some .global
  | wasmImportTable => some .table
  | wasmImportMemory => some .memory
  | wasmImportFunction _ => some .function
  | _ => none

namespace Typer

variable {t : Typer} {i : Instruction}

/-- In no module being defined an import follows a definition of its category. -/
def Ordered (t : Typer) : Prop := ∀ l ∈ t.modules, l.orderingViolation? = none

lemma category_of_importedEntity {source : Option Variable} {default entity : EntityType}
    (h : (t.importedEntity source default).entity? = some entity) :
    entity.category = default.category := by
  unfold importedEntity at h
  split at h
  · split at h
    · rename_i hc
      rw [← Option.some.inj h]
      exact hc
    · rw [← Option.some.inj h]
  · rw [← Option.some.inj h]

/-- An import goes to the index space of its operation. -/
lemma category_of_resultType {op : Operation} {inputs : List Variable} {entity : EntityType}
    (hi : op.isImport = true) (h : (t.resultType op inputs).entity? = some entity) :
    op.importCategory? = some entity.category := by
  cases op with
  | wasmImportGlobal | wasmImportTable | wasmImportMemory =>
      exact congrArg some (category_of_importedEntity h).symm
  | wasmImportFunction signature =>
      obtain rfl := Option.some.inj h
      rfl
  | _ => cases hi

/-- What an instruction declares in the module around it is a definition, or an import into its
index space. -/
lemma category_of_mem_declared {e : ModuleEntity} (h : e ∈ t.declared i) (hi : e.isImport = true) :
    i.operation.importCategory? = some e.category := by
  unfold declared at h
  split at h
  · exact absurd h List.not_mem_nil
  · rename_i v hv
    unfold Operation.entries at h
    split at h
    · exact absurd h List.not_mem_nil
    · rename_i entity hentity
      split at h
      · rw [List.mem_singleton.mp h] at hi
        exact nomatch hi
      · split at h
        · rename_i himport
          obtain ⟨source, -, rfl⟩ := List.mem_map.mp h
          exact category_of_resultType himport hentity
        · exact absurd h List.not_mem_nil

/-- At most one entity is declared. -/
lemma declared_eq_nil_or : t.declared i = [] ∨ ∃ e, t.declared i = [e] := by
  unfold declared
  split
  · exact .inl rfl
  · unfold Operation.entries
    split
    · exact .inl rfl
    · split
      · exact .inr ⟨_, rfl⟩
      · split
        · cases i.inputs.head? with
          | none => exact .inl rfl
          | some source => exact .inr ⟨_, rfl⟩
        · exact .inl rfl

/-- Modules stay in order, as long as every import finds no definition of its category. -/
theorem Ordered.apply (h : t.Ordered) (ha : i.hasConsistentArity = true)
    (hn : i.definedVariables.Nodup)
    (hi : ∀ c, i.operation.importCategory? = some c →
      ∀ l ∈ t.currentModule?, l.canImport c = true) :
    (t.apply i).Ordered := by
  intro l hl
  by_cases hb : i.operation = .beginWasmModule
  · rw [modules_apply_beginWasmModule hb, List.mem_cons] at hl
    rcases hl with rfl | hl
    · rfl
    · exact h l hl
  by_cases he : i.operation = .endWasmModule
  · rw [modules_apply_endWasmModule he] at hl
    exact h l (List.mem_of_mem_tail hl)
  rw [modules_apply ha hn hb he] at hl
  cases hm : t.modules with
  | nil =>
      rw [hm, List.modifyHead_nil] at hl
      exact absurd hl List.not_mem_nil
  | cons layout outer =>
      rw [hm, List.modifyHead_cons, List.mem_cons] at hl
      rcases hl with rfl | hl
      · have ho : layout.orderingViolation? = none :=
          h layout (by rw [hm]; exact List.mem_cons_self ..)
        rcases declared_eq_nil_or (t := t) (i := i) with hd | ⟨e, hd⟩
        · rw [hd, ModuleLayout.extend_nil]
          exact ho
        · rw [hd]
          refine (ModuleLayout.orderingViolation?_append_singleton ho).mpr fun himport => ?_
          have hc := category_of_mem_declared (t := t) (i := i)
            (by rw [hd]; exact List.mem_singleton_self e) himport
          exact hi _ hc layout (by rw [currentModule?, hm]; rfl)
      · exact h l (by rw [hm]; exact List.mem_cons_of_mem _ hl)

/-- What begins and ends no module only extends the layout of the module around it. -/
lemma exists_modules_apply (h₁ : i.operation ≠ .beginWasmModule)
    (h₂ : i.operation ≠ .endWasmModule) :
    ∃ es, (t.apply i).modules = t.modules.modifyHead (·.extend es) := by
  have hm : (t.recordOutputs i).modules = t.modules := by simp [recordOutputs]
  rw [apply_of_ne h₁ h₂]
  cases ho : i.output? with
  | none =>
      refine ⟨[], ?_⟩
      rw [recordEntity_of_output?_eq_none ho, hm]
      cases t.modules <;> simp
  | some v => exact ⟨_, by rw [recordEntity_of_output?_eq_some ho, modules_mapModule, hm]⟩

/-- Modules that are in order behind an instruction were so before, if the instruction may stand
there. -/
theorem Ordered.of_apply (h : (t.apply i).Ordered)
    (hi : Validator.checkImports t i.operation = .ok ()) : t.Ordered := by
  intro l hl
  by_cases hb : i.operation = .beginWasmModule
  · refine h l ?_
    rw [modules_apply_beginWasmModule hb]
    exact List.mem_cons_of_mem _ hl
  by_cases he : i.operation = .endWasmModule
  · cases hm : t.modules with
    | nil =>
        rw [hm] at hl
        exact absurd hl List.not_mem_nil
    | cons layout outer =>
        rw [hm, List.mem_cons] at hl
        rcases hl with rfl | hl
        · have hm' : t.currentModule?.bind (·.orderingViolation?) = l.orderingViolation? := by
            rw [show t.currentModule? = t.modules.head? from rfl, hm]
            rfl
          cases hv : l.orderingViolation? with
          | none => rfl
          | some c =>
              rw [hv] at hm'
              unfold Validator.checkImports at hi
              rw [he, hm'] at hi
              exact nomatch hi
        · refine h l ?_
          rw [modules_apply_endWasmModule he, hm]
          exact hl
  obtain ⟨es, hes⟩ := exists_modules_apply (t := t) hb he
  cases hm : t.modules with
  | nil =>
      rw [hm] at hl
      exact absurd hl List.not_mem_nil
  | cons layout outer =>
      rw [hm, List.modifyHead_cons] at hes
      rw [hm, List.mem_cons] at hl
      rcases hl with rfl | hl
      · have ho := h (l.extend es) (by rw [hes]; exact List.mem_cons_self ..)
        exact (ModuleLayout.orderingViolation?_append.mp ho).1
      · exact h l (by rw [hes]; exact List.mem_cons_of_mem _ hl)

end Typer

end EngineFuzz
