import Mathlib
import EngineFuzz.Proofs.Lift.IndexSpaces
import EngineFuzz.Proofs.Validation.FunctionEnds
import EngineFuzz.Proofs.Wasm.Decoding

/-!
# What emitted modules agree on

The layout of a module, the sections of its emitted form, its signature, and the object with its
imports are made from one list of entities by filters of their own.  In an accepted program all of
them agree with the instructions between the beginning and the end of the module.

* `EncodedModule.AgreesWith`: an emitted module and the instructions of its body.
* `Lifter.step_end`: what is written at the end of a module.
* `Program.index_spaces_agree`: all modules of an accepted program agree with their bodies.
-/

namespace EngineFuzz

/-- An emitted module agrees with its layout and with the instructions of its body. -/
structure EncodedModule.AgreesWith (c : EncodedModule) (t : Typer) (layout : ModuleLayout)
    (body : List Instruction) : Prop where
  /-- The entities of an index space come from the instructions that declare them, in order. -/
  indexSpace : ∀ category, (c.body.indexSpace category).map (Origin.instruction? body category) =
    (declarationsIn body category).map some
  /-- The layout gives an entity the index that it has, and the entity there has its type. -/
  index : ∀ category (index : Nat) (i : Instruction),
    (declarationsIn body category)[index]? = some i → ∃ v entity,
      i.outputs = [v] ∧ t.typeOf v = .wasmEntity entity ∧ layout.indexOf? v = some index ∧
        c.body.entity? category index = some entity
  /-- A defined function has its own signature and its own body. -/
  functions : ∀ (number : Nat) (i : Instruction),
    (definitionsIn body .function)[number]? = some i →
      ∃ before first inside after opener signature lowered,
      body = before ++ first :: (inside ++ i :: after) ∧
      first.operation = .beginWasmFunction opener ∧
      (∀ j ∈ inside, j.operation.endsFunction = false) ∧
      i.operation = .endWasmFunction signature ∧
      c.body.functions[number]?.bind (c.body.types[·]?) = some signature ∧
      Lowering.function ⟨t, layout⟩ first.innerOutputs inside i.inputs = .ok lowered ∧
      c.body.bodies[number]? = some ⟨lowered.localTypes.reverse, lowered.code.reverse⟩
  bodyCount : c.body.bodies.length = (definitionsIn body .function).length
  /-- A defined global starts with its own literal. -/
  globals : ∀ (number : Nat) (i : Instruction),
    (definitionsIn body .global)[number]? = some i → ∃ value isMutable,
      i.operation = .wasmDefineGlobal value isMutable ∧
      c.body.globals[number]? = some (⟨value.type, isMutable⟩, value)
  /-- The exports are those of the signature, and their indices lead to the same entities. -/
  exports : (c.body.exports.map fun x => (x.name, c.body.entity? x.category x.index)).Perm
    (c.signature.exports.map fun x => (x.name, some x.entity))
  exportIndex : ∀ x ∈ c.body.exports, ∃ v, layout.exportName? v = some x.name ∧
    layout.indexOf? v = some x.index
  /-- An import is named by its number, and the object with the imports binds this name to the
  variable that the import takes. -/
  imports : ∀ (number : Nat) (i : Instruction), (importsIn body)[number]? = some i →
    ∃ v source entity entry, i.outputs = [v] ∧ i.inputs = [source] ∧
      t.typeOf v = .wasmEntity entity ∧ c.body.imports[number]? = some entry ∧
      entry.module = "imports" ∧ entry.name = "import" ++ natText number ∧
      c.body.importedEntity? entry = some entity ∧
      (Lifter.importFields 0 c.importSources)[number]? =
        some ("import" ++ natText number ++ ": " ++ source.text)
  importCount : c.body.imports.length = (importsIn body).length ∧
    (Lifter.importFields 0 c.importSources).length = (importsIn body).length
  /-- What is found in the bytes are these sections, with these names and indices. -/
  bytes : WasmModule.decode? c.bytes = some c.body.written

namespace Lifter

lemma length_importFields (index : Nat) (vs : List Variable) :
    (importFields index vs).length = vs.length := by
  induction vs generalizing index with
  | nil => rfl
  | cons v vs ih => rw [importFields, List.length_cons, List.length_cons, ih]

lemma getElem?_importFields (index number : Nat) (vs : List Variable) :
    (importFields index vs)[number]? =
      vs[number]?.map fun v => WasmModule.importName (index + number) ++ ": " ++ v.text := by
  induction vs generalizing index number with
  | nil => rfl
  | cons v vs ih =>
      rw [importFields]
      cases number with
      | zero => rfl
      | succ number =>
          rw [List.getElem?_cons_succ, List.getElem?_cons_succ, ih, Nat.add_right_comm,
            Nat.add_assoc]

/-- A module is found by the place of its end. -/
lemma find?_last {modules : List EncodedModule} {c : EncodedModule}
    (hn : (modules.map (·.last)).Nodup) (hc : c ∈ modules) :
    modules.find? (fun m => m.last == c.last) = some c := by
  cases hf : modules.find? fun m => m.last == c.last with
  | none =>
      have := List.find?_eq_none.mp hf c hc
      simp at this
  | some c' =>
      have hl : c'.last = c.last := by simpa using List.find?_some hf
      rw [List.inj_on_of_nodup_map hn (List.mem_of_find?_eq_some hf) hc hl]

/-- At the end of a module its bytes are written and an instance with its imports. -/
lemma step_end (l : Lifter) (comments : Bool) (w : ScriptWriter) {modules : List EncodedModule}
    {c : EncodedModule} {i : Instruction} {compiled exports : Variable}
    (hn : (modules.map (·.last)).Nodup) (hc : c ∈ modules) (hi : i.operation = .endWasmModule)
    (ho : i.outputs = [compiled, exports]) :
    l.step comments ⟨w, true, modules⟩ c.last i = .ok ⟨guarded
      (l.define (if comments then w.emit ("// " ++ i.text) else w) compiled
        ("new WebAssembly.Module(new Uint8Array(" ++ Literal.byteArray c.bytes ++ "))"))
      (some exports) (instanceExports compiled c.importSources) .reportInstantiation,
      false, modules⟩ := by
  rw [step, hi]
  dsimp only
  rw [find?_last hn hc]
  change (do
    let writer ← l.module (if comments then w.emit ("// " ++ i.text) else w) c i
    return (⟨writer, false, modules⟩ : Progress)) = _
  rw [module, ho]
  rfl

end Lifter

/-! ### One module -/

namespace ModuleRun

variable {m : ModuleRun} {p : Program} {e : Environment} {t : Typer} {layout : ModuleLayout}
  {c : EncodedModule} {number : Nat} {i : Instruction}

/-- The imports of an emitted module and of the object with its imports. -/
lemma EncodesTo.exists_import (h : m.EncodesTo p e t layout c)
    (hi : (importsIn m.body)[number]? = some i) : ∃ v source entity entry,
      i.outputs = [v] ∧ i.inputs = [source] ∧ t.typeOf v = .wasmEntity entity ∧
        c.body.imports[number]? = some entry ∧ entry.module = "imports" ∧
        entry.name = "import" ++ natText number ∧ c.body.importedEntity? entry = some entity ∧
        (Lifter.importFields 0 c.importSources)[number]? =
          some ("import" ++ natText number ++ ": " ++ source.text) := by
  obtain ⟨x, hx, hix⟩ := exists_getElem?_of_forall₂ h.lowers.forall₂_imports hi
  have hmem : x ∈ layout.entities := (List.mem_filter.mp (List.mem_of_getElem? hx)).1
  obtain ⟨source, hsource⟩ := Option.isSome_iff_exists.mp
    (List.mem_filter.mp (List.mem_of_getElem? hx)).2
  have hnumbered : layout.imports.zipIdx[number]? = some (x, number) := by
    rw [List.getElem?_zipIdx, hx, Option.map_some, Nat.zero_add]
  obtain ⟨entry, hentry, hentity, hmodule, hname⟩ := exists_getElem?_of_forall₂
    (LoweringContext.forall₂_imports h.lowers.lowered) hnumbered
  refine ⟨x.var, source, x.entity, entry, hix.outputs, hix.source source hsource,
    h.lowers.typeOf_entity hmem, hentry, hmodule, hname, hentity, ?_⟩
  have hat : c.importSources[number]? = some source := by
    rw [h.sources]
    exact getElem?_filterMap (fun x hx => (List.mem_filter.mp hx).2) hx hsource
  rw [Lifter.getElem?_importFields, hat, Nat.zero_add]
  rfl

/-- **An emitted module agrees with its body.** -/
theorem EncodesTo.agreesWith (h : m.EncodesTo p e t layout c) : c.AgreesWith t layout m.body where
  indexSpace := h.lowers.indexSpace_eq
  index category index i hi := by
    obtain ⟨x, hx, hix⟩ := exists_getElem?_of_forall₂ (h.lowers.forall₂_declarations category) hi
    exact ⟨x.var, x.entity, hix.outputs,
      h.lowers.typeOf_entity (ModuleLayout.mem_of_mem_ordered (List.mem_of_getElem? hx)).1,
      ModuleLayout.indexOf?_eq h.lowers.covers.distinct hx, h.lowers.entity?_eq hx⟩
  functions number i hi := h.lowers.exists_function hi
  bodyCount := by
    rw [definitionsIn_function, m.passes.filter_endsFunction, List.length_map,
      h.lowers.bodies.length_eq]
  globals number i hi := h.lowers.exists_global hi
  exports := by
    rw [h.signature]
    exact h.lowers.exports_perm
  exportIndex x hx := h.lowers.exists_of_mem_exports hx
  imports number i hi := h.exists_import hi
  bytes := c.body.decode?_encode
  importCount := by
    have hsources : c.importSources.length = layout.imports.length := by
      rw [h.sources, List.length_filterMap_eq_countP]
      exact List.countP_eq_length.mpr fun x hx => (List.mem_filter.mp hx).2
    have hentries := (LoweringContext.forall₂_importedEntity? h.lowers.lowered).length_eq
    rw [← hentries, Lifter.length_importFields, hsources, h.lowers.forall₂_imports.length_eq]
    exact ⟨rfl, rfl⟩

/-- The outputs of the end of a module have the type of the module and that of its exports. -/
lemma LowersTo.exists_outputs {module : WasmModule} (h : m.LowersTo t layout module)
    (ht : ∀ v : Variable, v.number < m.back.nextFresh → t.typeOf v = m.back.typer.typeOf v) :
    ∃ compiled exports, m.last.outputs = [compiled, exports] ∧
      t.typeOf compiled = .wasmModule layout.signature ∧
      t.typeOf exports = .wasmExports layout.signature := by
  obtain ⟨next, ha, hback⟩ := Validator.step_eq_ok_iff.mp m.step_last
  have hn := h.small _ last_mem_instructions
  have ho := (Instruction.hasConsistentArity_iff.mp ha.arity).2.1
  rw [m.last_operation] at ho
  obtain ⟨compiled, exports, ho⟩ := List.length_eq_two.mp ho
  obtain ⟨-, hfresh, -⟩ := Validator.checkFresh_eq_ok ha.fresh hn
  have hnew : ∀ v ∈ m.last.outputs, t.typeOf v = (m.closed.typer.apply m.last).typeOf v := by
    intro v hv
    rw [ht v, hback]
    rw [hback]
    exact (hfresh v (List.mem_append_left _ hv)).2
  have hne : exports ≠ compiled := by
    have hd := (List.nodup_append'.mp (Validator.Sound.nodup_definedVariables ha hn)).1
    rw [ho] at hd
    exact fun heq => (List.nodup_cons.mp hd).1 (by rw [heq]; exact List.mem_singleton_self _)
  have hsignature : (m.closed.typer.modules.head?.map (·.signature)).getD .empty =
      layout.signature := by
    have hl : m.closed.typer.modules.head? = some layout := h.current
    rw [hl]
    rfl
  have hend : m.closed.typer.apply m.last =
      ((⟨m.closed.typer.environment, m.closed.typer.types, m.closed.typer.modules.tail⟩ :
        Typer).record compiled (.wasmModule layout.signature)).record exports
          (.wasmExports layout.signature) := by
    rw [Typer.apply_endWasmModule m.last_operation, ho, ← hsignature]
    rfl
  refine ⟨compiled, exports, ho, ?_, ?_⟩
  · rw [hnew _ (by rw [ho]; exact List.mem_cons_self ..), hend, Typer.typeOf_record, if_neg hne,
      Typer.typeOf_record, if_pos rfl]
  · rw [hnew _ (by rw [ho]; exact List.mem_cons_of_mem _ (List.mem_singleton_self _)), hend,
      Typer.typeOf_record, if_pos rfl]

end ModuleRun

/-! ### All modules -/

/-- **The index spaces of modules agree everywhere.**  The modules of an accepted program are
encoded.  The layout in front of the end of a module and the emitted sections agree with the
instructions in between; the outputs of the end have the signature of the module, and the script
that is written there takes its bytes and the object with its imports. -/
theorem Program.index_spaces_agree {p : Program} {e : Environment} (h : p.validate e = .ok ())
    (he : e.IsScriptTyped) (hn : p.NumbersSmall) : ∃ encoded, p.encodeModules e = .ok encoded ∧
      encoded.map (·.first) = p.instructions.findIdxs Instruction.beginsModule ∧
      ∀ c ∈ encoded, ∃ layout last compiled exports,
        (Typer.behind e (p.instructions.take c.last)).currentModule? = some layout ∧
        c.AgreesWith (Typer.behind e p.instructions) layout
          ((p.instructions.take c.last).drop (c.first + 1)) ∧
        p.instructions[c.last]? = some last ∧ last.operation = .endWasmModule ∧
        last.outputs = [compiled, exports] ∧
        (Typer.behind e p.instructions).typeOf compiled = .wasmModule c.signature ∧
        (Typer.behind e p.instructions).typeOf exports = .wasmExports c.signature ∧
        ∀ (l : Lifter) (comments : Bool) (w : ScriptWriter),
          l.step comments ⟨w, true, encoded⟩ c.last last = .ok ⟨Lifter.guarded
            (l.define (if comments then w.emit ("// " ++ last.text) else w) compiled
              ("new WebAssembly.Module(new Uint8Array(" ++ Literal.byteArray c.bytes ++ "))"))
            (some exports) (Lifter.instanceExports compiled c.importSources)
            .reportInstantiation, false, encoded⟩ := by
  obtain ⟨s, ms, encoded, hms, henc, hall, hfirst, hlast⟩ := exists_modules h he hn
  refine ⟨encoded, henc, hfirst, fun c hc => ?_⟩
  obtain ⟨m, hm, layout, hcm⟩ : ∃ m ∈ ms, ∃ layout, m.EncodesTo p e s.typer layout c := by
    obtain ⟨k, hk, rfl⟩ := List.getElem_of_mem hc
    obtain ⟨hl, hat⟩ := List.forall₂_iff_get.mp hall
    exact ⟨ms[k], List.getElem_mem _, hat k (hl ▸ hk) hk⟩
  obtain ⟨-, -, ht⟩ := hms.sound_of_mem (Validator.sound_start he) hn m hm
  obtain ⟨compiled, exports, ho, hcompiled, hexports⟩ := hcm.lowers.exists_outputs ht
  have hbehind : Typer.behind e p.instructions = s.typer := hms.steps.typer_eq.symm
  have hfront : Typer.behind e (p.instructions.take c.last) = m.closed.typer :=
    hcm.passed.typer_eq.symm
  rw [hbehind, hfront, hcm.inside, hcm.signature]
  have hnodup : (encoded.map (·.last)).Nodup := by
    rw [hlast]
    exact List.nodup_findIdxs
  exact ⟨layout, m.last, compiled, exports, hcm.lowers.current, hcm.agreesWith, hcm.last,
    m.last_operation, ho, hcompiled, hexports,
    fun l comments w => Lifter.step_end l comments w hnodup hc m.last_operation ho⟩

/-- Imports and definitions of all categories, one behind the other. -/
theorem index_spaces_agree_ledger : ∃ encoded, ledger.encodeModules .script = .ok encoded ∧
    encoded.map (·.first) = ledger.instructions.findIdxs Instruction.beginsModule ∧
    ∀ c ∈ encoded, ∃ layout last compiled exports,
      (Typer.behind .script (ledger.instructions.take c.last)).currentModule? = some layout ∧
      c.AgreesWith (Typer.behind .script ledger.instructions) layout
        ((ledger.instructions.take c.last).drop (c.first + 1)) ∧
      ledger.instructions[c.last]? = some last ∧ last.operation = .endWasmModule ∧
      last.outputs = [compiled, exports] ∧
      (Typer.behind .script ledger.instructions).typeOf compiled = .wasmModule c.signature ∧
      (Typer.behind .script ledger.instructions).typeOf exports = .wasmExports c.signature ∧
      ∀ (l : Lifter) (comments : Bool) (w : ScriptWriter),
        l.step comments ⟨w, true, encoded⟩ c.last last = .ok ⟨Lifter.guarded
          (l.define (if comments then w.emit ("// " ++ last.text) else w) compiled
            ("new WebAssembly.Module(new Uint8Array(" ++ Literal.byteArray c.bytes ++ "))"))
          (some exports) (Lifter.instanceExports compiled c.importSources)
          .reportInstantiation, false, encoded⟩ :=
  Program.index_spaces_agree validate_ledger Environment.isScriptTyped_script (by decide)

end EngineFuzz
