import Mathlib
import EngineFuzz.Proofs.Generation.Building
import EngineFuzz.Proofs.Validation.Soundness

/-!
# Forms of operations, and other names

Mutators replace literals, operators, names and the like in an operation.  The form of an
operation is what they leave: whatever follows from the operation alone, but for the number of
imports of an instance, follows from its form.  A program is rebuilt with new names for its
variables, and some instructions are replaced by others of the same form.  Scopes, layouts and types
then differ in names only.

* `Operation.form`: the operation with a fixed payload in place of each that can be replaced.
* `Operation.numInputs_eq_of_form`, `Operation.acceptsInputs_form`: operations of one form take the
  same inputs.
* `ScopeState.Renames`: scopes with other names, with `ScopeState.Renames.apply`.
* `ModuleLayout.shape`: the entities of a layout without names; it determines the signature.
* `Typer.outputTypes_congr`: the types of outputs follow from those of the inputs.
-/

namespace EngineFuzz

/-! ### Forms of operations -/

namespace Operation

/-- The operation without the payloads that mutators replace. -/
def form : Operation → Operation
  | loadInteger _ => loadInteger 0
  | loadBigInt _ => loadBigInt 0
  | loadFloat _ => loadFloat .zero
  | loadString _ => loadString ""
  | loadBoolean _ => loadBoolean false
  | loadRegExp .. => loadRegExp "" ""
  | loadBuiltin _ => loadBuiltin ""
  | createObject propertyNames => createObject (List.replicate propertyNames.length "")
  | getProperty _ => getProperty ""
  | setProperty _ => setProperty ""
  | deleteProperty _ => deleteProperty ""
  | getElement _ => getElement 0
  | setElement _ => setElement 0
  | callFunction numArgs _ => callFunction numArgs false
  | callMethod _ numArgs _ => callMethod "" numArgs false
  | binaryOperation _ => binaryOperation .add
  | unaryOperation _ => unaryOperation .minus
  | compare _ => compare .equal
  | beginRepeatLoop _ => beginRepeatLoop 0
  | createWasmGlobal .. => createWasmGlobal (.i32 0) false
  | instantiateWasm _ => instantiateWasm 0
  | getWasmExport _ => getWasmExport ""
  | getWasmMemory _ => getWasmMemory 0
  | writeWasmMemory .. => writeWasmMemory 0 []
  | getWasmGlobal _ => getWasmGlobal ""
  | wasmDefineGlobal .. => wasmDefineGlobal (.i32 0) false
  | wasmConst _ => wasmConst (.i32 0)
  | wasmIntBinary width _ => wasmIntBinary width .add
  | wasmIntUnary width _ => wasmIntUnary width .clz
  | wasmIntCompare width _ => wasmIntCompare width .eq
  | wasmFloatBinary width _ => wasmFloatBinary width .add
  | wasmFloatUnary width _ => wasmFloatUnary width .abs
  | wasmFloatCompare width _ => wasmFloatCompare width .eq
  | wasmMemoryLoad type _ => wasmMemoryLoad type 0
  | wasmMemoryStore type _ => wasmMemoryStore type 0
  | op => op

variable {op op' : Operation}

/-! ### What the form determines -/

lemma name_form : op.form.name = op.name := by cases op <;> rfl

lemma numOutputs_form : op.form.numOutputs = op.numOutputs := by cases op <;> rfl

lemma numInnerOutputs_form : op.form.numInnerOutputs = op.numInnerOutputs := by cases op <;> rfl

lemma isBlockStart_form : op.form.isBlockStart = op.isBlockStart := by cases op <;> rfl

lemma isBlockEnd_form : op.form.isBlockEnd = op.isBlockEnd := by cases op <;> rfl

lemma requiredContext_form : op.form.requiredContext = op.requiredContext := by cases op <;> rfl

lemma innerContext_form {c : Context} : op.form.innerContext c = op.innerContext c := by
  cases op <;> rfl

lemma isImport_form : op.form.isImport = op.isImport := by cases op <;> rfl

lemma isDefinition_form : op.form.isDefinition = op.isDefinition := by cases op <;> rfl

lemma openedBlock_form {closed? : Option OpenBlock} :
    ScopeState.openedBlock op.form closed? = ScopeState.openedBlock op closed? := by
  cases op <;> rfl

lemma innerOutputTypes_form {n : Nat} :
    Typer.innerOutputTypes op.form n = Typer.innerOutputTypes op n := by
  cases op <;> rfl

lemma acceptsInputs_form {ts : List StaticType} {function : Option FunctionSignature} :
    op.form.acceptsInputs ts function = op.acceptsInputs ts function := by
  cases op <;> rfl

/-! ### Operations that keep their form -/

/-- The end of a block, or of a part of one, carries nothing that can be replaced. -/
lemma form_of_isBlockEnd (h : op.isBlockEnd = true) : op.form = op := by
  cases op <;> first | rfl | cases h

lemma eq_of_form_of_isBlockEnd (h : op'.form = op.form) (he : op.isBlockEnd = true) :
    op' = op := by
  have he' : op'.isBlockEnd = true := by rw [← isBlockEnd_form, h, isBlockEnd_form, he]
  rw [← form_of_isBlockEnd he', h, form_of_isBlockEnd he]

lemma eq_beginWasmModule_of_form (h : op.form = beginWasmModule) : op = beginWasmModule := by
  cases op <;> first | rfl | cases h

lemma eq_wasmBeginLoop_of_form (h : op.form = wasmBeginLoop) : op = wasmBeginLoop := by
  cases op <;> first | rfl | cases h

lemma eq_instantiateWasm_of_form (h : op.form = instantiateWasm 0) :
    ∃ numImports, op = instantiateWasm numImports := by
  cases op <;> first | exact ⟨_, rfl⟩ | cases h

lemma form_eq_beginWasmModule_iff (h : op'.form = op.form) :
    op' = beginWasmModule ↔ op = beginWasmModule := by
  constructor
  · rintro rfl
    exact eq_beginWasmModule_of_form h.symm
  · rintro rfl
    exact eq_beginWasmModule_of_form h

lemma form_eq_endWasmModule_iff (h : op'.form = op.form) :
    op' = endWasmModule ↔ op = endWasmModule := by
  constructor
  · rintro rfl
    exact eq_of_form_of_isBlockEnd h.symm rfl
  · rintro rfl
    exact eq_of_form_of_isBlockEnd h rfl

/-- Only the number of imports of an instance is not determined by the form. -/
lemma numInputs_form (h : ∀ numImports, op ≠ instantiateWasm numImports) :
    op.form.numInputs = op.numInputs := by
  cases op with
  | createObject propertyNames => exact List.length_replicate
  | instantiateWasm numImports => exact absurd rfl (h numImports)
  | _ => rfl

/-- Operations of one form that make no instance have as many inputs. -/
lemma numInputs_eq_of_form (hf : op'.form = op.form)
    (h : ∀ numImports, op ≠ instantiateWasm numImports) : op'.numInputs = op.numInputs := by
  have h' : ∀ numImports, op' ≠ instantiateWasm numImports := by
    rintro numImports rfl
    obtain ⟨n, hn⟩ := eq_instantiateWasm_of_form hf.symm
    exact h n hn
  rw [← numInputs_form h', hf, numInputs_form h]

end Operation

/-! ### Scopes -/

namespace ScopeState

/-- The same scopes, contexts and blocks, with other names for the variables in scope. -/
structure Renames (r : Variable → Variable) (s s' : ScopeState) : Prop where
  contexts : s'.contexts = s.contexts
  blocks : s'.blocks = s.blocks
  scopes : s'.scopes = s.scopes.map (·.map r)

namespace Renames

variable {r r' : Variable → Variable} {s s' : ScopeState} {i j : Instruction}
  {vs : List Variable}

/-- The names of variables that are not in scope do not matter. -/
lemma congr (h : s.Renames r s') (hr : ∀ v ∈ s.scopes.flatten, r' v = r v) : s.Renames r' s' where
  contexts := h.contexts
  blocks := h.blocks
  scopes := by
    rw [h.scopes]
    refine List.map_congr_left fun scope hs => List.map_congr_left fun v hv => ?_
    exact (hr v (List.mem_flatten_of_mem hs hv)).symm

lemma flatten (h : s.Renames r s') : s'.scopes.flatten = s.scopes.flatten.map r := by
  rw [h.scopes, List.map_flatten]

/-- A visible variable is visible under its new name. -/
lemma isVisible (h : s.Renames r s') (ht : s.Tracks) (ht' : s'.Tracks) {v : Variable}
    (hv : s.isVisible v = true) : s'.isVisible (r v) = true := by
  rw [ht'.visible, h.flatten]
  exact List.mem_map_of_mem ((ht.visible v).mp hv)

lemma context (h : s.Renames r s') : s'.context = s.context := by
  rw [ScopeState.context, h.contexts, ScopeState.context]

lemma currentFunction? (h : s.Renames r s') : s'.currentFunction? = s.currentFunction? := by
  rw [ScopeState.currentFunction?, h.blocks, ScopeState.currentFunction?]

/-- An instruction of the same form may stand at the same position. -/
lemma check (h : s.Renames r s') (hf : j.operation.form = i.operation.form)
    (hc : s.check i = .ok ()) : s'.check j = .ok () := by
  obtain ⟨hend, hcontext⟩ := check_eq_ok_iff.mp hc
  refine check_eq_ok_iff.mpr ⟨fun he => ?_, ?_⟩
  · have he' : i.operation.isBlockEnd = true := by
      rw [← Operation.isBlockEnd_form, ← hf, Operation.isBlockEnd_form, he]
    have hop : j.operation = i.operation := Operation.eq_of_form_of_isBlockEnd hf he'
    have hce : s'.checkBlockEnd i.operation = s.checkBlockEnd i.operation := by
      rw [checkBlockEnd, h.blocks, checkBlockEnd]
    rw [hop, hce, hend he']
  · rw [h.context, ← Operation.requiredContext_form, hf, Operation.requiredContext_form]
    exact hcontext

lemma outside (h : s.Renames r s')
    (he : j.operation.isBlockEnd = i.operation.isBlockEnd) :
    (s.outside i).Renames r (s'.outside j) := by
  unfold ScopeState.outside
  rw [he]
  cases i.operation.isBlockEnd with
  | false => exact h
  | true =>
      refine ⟨?_, ?_, ?_⟩
      · simp only [if_true, leave, h.contexts]
      · exact congrArg List.tail h.blocks
      · exact (congrArg List.tail h.scopes).trans List.map_tail.symm

lemma declareAll (h : s.Renames r s') : (s.declareAll vs).Renames r (s'.declareAll (vs.map r)) := by
  refine ⟨?_, ?_, ?_⟩
  · rw [contexts_declareAll, contexts_declareAll, h.contexts]
  · rw [blocks_declareAll, blocks_declareAll, h.blocks]
  · cases hs : s.scopes with
    | nil =>
        have hn : ∀ {t : ScopeState} {us : List Variable}, t.scopes = [] →
            (t.declareAll us).scopes = [] := by
          intro t us ht
          induction us generalizing t with
          | nil => exact ht
          | cons u us ih => exact ih (by simp [declare, ht])
        rw [hn hs, hn (by rw [h.scopes, hs]; rfl)]
        rfl
    | cons top rest =>
        have hs' : s'.scopes = top.map r :: rest.map (·.map r) := by rw [h.scopes, hs]; rfl
        rw [scopes_declareAll hs, scopes_declareAll hs']
        simp

/-- The scopes behind corresponding instructions. -/
lemma apply (h : s.Renames r s') (hf : j.operation.form = i.operation.form)
    (ho : j.outputs = i.outputs.map r) (hi : j.innerOutputs = i.innerOutputs.map r) :
    (s.apply i).Renames r (s'.apply j) := by
  have he : j.operation.isBlockEnd = i.operation.isBlockEnd := by
    rw [← Operation.isBlockEnd_form, hf, Operation.isBlockEnd_form]
  have hb : j.operation.isBlockStart = i.operation.isBlockStart := by
    rw [← Operation.isBlockStart_form, hf, Operation.isBlockStart_form]
  have hd : (s.declared i).Renames r (s'.declared j) := by
    rw [declared, declared, ho]
    exact (h.outside he).declareAll
  cases hs : i.operation.isBlockStart with
  | false =>
      rw [apply_of_not_isBlockStart hs, apply_of_not_isBlockStart (hb.trans hs)]
      exact hd
  | true =>
      rw [apply_of_isBlockStart hs, apply_of_isBlockStart (hb.trans hs)]
      have hclosed : s'.closed? j = s.closed? i := by rw [closed?, closed?, he, h.blocks]
      have hop : openedBlock j.operation (s.closed? i) = openedBlock i.operation (s.closed? i) := by
        rw [← Operation.openedBlock_form, hf, Operation.openedBlock_form]
      have hin : j.operation.innerContext (s.declared i).context =
          i.operation.innerContext (s.declared i).context := by
        rw [← Operation.innerContext_form, hf, Operation.innerContext_form]
      refine ⟨?_, ?_, ?_⟩
      · rw [contexts_enter, contexts_enter, hd.context, hin, hd.contexts]
      · rw [blocks_enter, blocks_enter, hclosed, hop, hd.blocks]
      · rw [scopes_enter, scopes_enter, hd.scopes, hi, List.map_cons, List.map_reverse]

end Renames

end ScopeState

/-! ### Layouts -/

namespace ModuleLayout

variable {l l' : ModuleLayout}

/-- What a layout has of an entity apart from its names. -/
def entityShape (e : ModuleEntity) : EntityType × Bool := (e.entity, e.isImport)

/-- The entities of a layout without names. -/
def shape (l : ModuleLayout) : List (EntityType × Bool) := l.entities.map entityShape

lemma shape_extend {es : List ModuleEntity} :
    (l.extend es).shape = l.shape ++ es.map entityShape := List.map_append

/-- The types of the entities that pass a test of their shapes. -/
lemma map_entity_filter (keep : EntityType × Bool → Bool) (h : l'.shape = l.shape) :
    (l'.entities.filter (keep ∘ entityShape)).map (·.entity) =
      (l.entities.filter (keep ∘ entityShape)).map (·.entity) := by
  have hs : ∀ {k : ModuleLayout}, (k.entities.filter (keep ∘ entityShape)).map (·.entity) =
      (k.shape.filter keep).map (·.1) := by
    intro k
    rw [shape, List.filter_map, List.map_map]
    rfl
  rw [hs, hs, h]

lemma map_entity_ordered {c : EntityCategory} (h : l'.shape = l.shape) :
    (l'.ordered c).map (·.entity) = (l.ordered c).map (·.entity) := by
  have hi := map_entity_filter (fun x => x.1.category == c && x.2) h
  have hd := map_entity_filter (fun x => !x.2 && x.1.category == c) h
  simp only [ordered, importsOf, imports, definitions, List.filter_filter, List.map_append]
  exact congrArg₂ (· ++ ·) hi hd

/-- The signature of a module does not depend on names. -/
lemma signature_eq_of_shape (h : l'.shape = l.shape) : l'.signature = l.signature := by
  have hi := map_entity_filter (·.2) h
  have he : ∀ c, l'.exportsOf c = l.exportsOf c := by
    intro c
    have hm : ∀ {k : ModuleLayout}, k.exportsOf c = ((k.ordered c).map (·.entity)).mapIdx
        fun index entity => ⟨nameOf c index, entity⟩ := by
      intro k
      rw [List.mapIdx_eq_zipIdx_map]
      simp [exportsOf, List.mapIdx_eq_zipIdx_map, List.zipIdx_map, Function.comp_def]
    rw [hm, hm, map_entity_ordered h]
  simp only [signature, imports, funext he]
  exact congrArg (ModuleSignature.mk · _) hi

/-- Whether imports precede definitions does not depend on names. -/
lemma orderingViolation?_eq_of_shape (h : l'.shape = l.shape) :
    l'.orderingViolation? = l.orderingViolation? := by
  have hf : ∀ (es es' : List ModuleEntity) (defined : List EntityCategory),
      es'.map entityShape = es.map entityShape →
        firstViolation defined es' = firstViolation defined es := by
    intro es
    induction es with
    | nil =>
        intro es' defined h
        rw [List.map_eq_nil_iff.mp h]
    | cons e es ih =>
        intro es' defined h
        obtain ⟨e', rest, rfl, he, hr⟩ := List.map_eq_cons_iff.mp h
        obtain ⟨hentity, himport⟩ := Prod.mk.inj he
        have hc : e'.category = e.category := congrArg EntityType.category hentity
        rw [firstViolation, firstViolation, himport, hc, ih _ _ hr, ih _ _ hr]
  exact hf _ _ _ h

end ModuleLayout

lemma Operation.map_entityShape_entries {op : Operation} {source source' : Option Variable}
    {v v' : Variable} {type : StaticType} (h : source'.isSome = source.isSome) :
    (op.entries source' v' type).map ModuleLayout.entityShape =
      (op.entries source v type).map ModuleLayout.entityShape := by
  unfold entries
  split
  · rfl
  · split
    · rfl
    · split
      · cases source <;> cases source' <;> first | rfl | cases h
      · rfl

/-! ### Types -/

namespace Typer

variable {t t' : Typer} {op : Operation} {inputs inputs' : List Variable}

/-- The types of the outputs depend on the types of the inputs and on the builtins. -/
lemma outputTypes_congr (he : t'.environment = t.environment)
    (hi : inputs'.map t'.typeOf = inputs.map t.typeOf) :
    t'.outputTypes op inputs' = t.outputTypes op inputs := by
  have hget : ∀ k : Nat, inputs'[k]?.map t'.typeOf = inputs[k]?.map t.typeOf := by
    intro k
    rw [← List.getElem?_map, hi, List.getElem?_map]
  have hentity : ∀ default, t'.importedEntity inputs'.head? default =
      t.importedEntity inputs.head? default := by
    intro default
    have hh := hget 0
    rw [← List.head?_eq_getElem?, ← List.head?_eq_getElem?] at hh
    rw [importedEntity, hh, importedEntity]
  have hr : t'.resultType op inputs' = t.resultType op inputs := by
    cases op with
    | loadBuiltin name =>
        change (t'.environment.builtinType? name).getD _ = (t.environment.builtinType? name).getD _
        rw [he]
    | construct numArgs guarded => cases guarded <;> rfl
    | binaryOperation op =>
        unfold resultType
        dsimp only
        rw [hget, hget]
    | unaryOperation op | instantiateWasm numImports | wasmLoadGlobal | wasmTableGet =>
        unfold resultType
        dsimp only
        rw [hget]
    | wasmImportGlobal | wasmImportTable | wasmImportMemory => exact hentity _
    | _ => rfl
  cases op <;> first | rfl | exact congrArg (List.replicate _) hr

lemma typeOf_endModule {module exports : Variable} (hne : exports ≠ module) :
    (t.endModule [module, exports]).typeOf module =
        .wasmModule ((t.modules.head?.map (·.signature)).getD .empty) ∧
      (t.endModule [module, exports]).typeOf exports =
        .wasmExports ((t.modules.head?.map (·.signature)).getD .empty) := by
  simp only [endModule, typeOf_record, if_neg hne, if_true, and_self]

end Typer

end EngineFuzz
