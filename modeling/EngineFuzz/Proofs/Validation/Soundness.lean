import Mathlib
import EngineFuzz.Proofs.Validation.Scopes
import EngineFuzz.Proofs.Validation.Steps
import EngineFuzz.Proofs.Validation.Worlds

/-!
# What the validator knows is right

The blocks, the contexts, the scopes and the types that the validator keeps belong together at
every position of an accepted program.

* `OpenBlock.Nested`: every block stands in the world that it needs.
* `Typer.Holds`: the variables of a scope are what its world asks for.  The scope of a module and
  the layout of the module list the same variables.
* `Validator.Sound`: the invariant, with `Validator.sound_start`, `Validator.Sound.step` and
  `Validator.Sound.steps`.
-/

namespace EngineFuzz

namespace OpenBlock

/-! ### Nested blocks -/

/-- The world inside open blocks, the innermost of which comes first. -/
def worldOf : List OpenBlock → World
  | [] => .script
  | b :: _ => b.kind.inside

/-- The worlds inside open blocks, inside all but the innermost, and so on. -/
def worldsOf : List OpenBlock → List World
  | [] => [.script]
  | b :: bs => b.kind.inside :: worldsOf bs

/-- Every block stands in the world that blocks of its kind stand in. -/
def Nested : List OpenBlock → Prop
  | [] => True
  | b :: bs => worldOf bs = b.kind.outside ∧ Nested bs

variable {bs : List OpenBlock}

lemma worldsOf_eq : worldsOf bs = worldOf bs :: (worldsOf bs).tail := by
  cases bs <;> rfl

/-- Around modules, and around the script, there is the script only. -/
lemma eq_script_of_mem_tail (hn : Nested bs) (h : worldOf bs ≠ .function) :
    ∀ w ∈ (worldsOf bs).tail, w = .script := by
  induction bs with
  | nil => simp [worldsOf]
  | cons b bs ih =>
      have hb : worldOf bs = .script := by
        rw [hn.1]
        revert h
        simp only [worldOf]
        cases b.kind <;> simp [BlockKind.inside, BlockKind.outside]
      intro w hw
      rw [worldsOf, List.tail_cons, worldsOf_eq, List.mem_cons, hb] at hw
      rcases hw with hw | hw
      · exact hw
      · exact ih hn.2 (by simp [hb]) w hw

end OpenBlock

/-! ### What scopes hold -/

namespace Typer

variable {t t' : Typer} {w : World} {vs : List Variable}

/-- The variables of a scope, the latest first, are what the world of the scope asks for. -/
def Holds (t : Typer) : World → List Variable → Prop
  | .script, vs => ∀ v ∈ vs, (t.typeOf v).isScriptValue = true
  | .module, vs => ∃ layout, t.currentModule? = some layout ∧
      layout.entities.map (·.var) = vs.reverse ∧
        ∀ e ∈ layout.entities, t.typeOf e.var = .wasmEntity e.entity
  | .function, vs => ∀ v ∈ vs, (t.typeOf v).isAnyWasmValue = true ∨ t.typeOf v = .label

/-- A scope holds what it held as long as its variables keep their types and its module does not
change. -/
lemma Holds.frame (h : t.Holds w vs) (ht : ∀ v ∈ vs, t'.typeOf v = t.typeOf v)
    (hm : w = .module → t'.currentModule? = t.currentModule?) : t'.Holds w vs := by
  cases w with
  | script =>
      intro v hv
      rw [ht v hv]
      exact h v hv
  | module =>
      obtain ⟨layout, hl, hvs, he⟩ := h
      refine ⟨layout, by rw [hm rfl, hl], hvs, fun e hmem => ?_⟩
      have hv : e.var ∈ vs := by
        rw [← List.mem_reverse, ← hvs]
        exact List.mem_map_of_mem hmem
      rw [ht _ hv]
      exact he e hmem
  | function =>
      intro v hv
      rw [ht v hv]
      exact h v hv

end Typer

/-! ### The invariant -/

/-- The blocks are nested, and each of the contexts is that of the world inside a block. -/
structure ScopeState.Placed (s : ScopeState) : Prop where
  nested : OpenBlock.Nested s.blocks
  contexts : List.Forall₂ World.Provides (OpenBlock.worldsOf s.blocks) s.contexts

/-- Blocks, contexts, scopes and types belong together. -/
structure ScopeState.Fits (s : ScopeState) (t : Typer) : Prop extends s.Placed where
  holds : List.Forall₂ t.Holds (OpenBlock.worldsOf s.blocks) s.scopes
  tracks : s.Tracks

/-- What the validator keeps is right, and its fresh words are fresh. -/
structure Validator.Sound (s : Validator) : Prop where
  fits : s.scopes.Fits s.typer
  old : ∀ v ∈ s.scopes.scopes.flatten, v.number < s.nextFresh
  scripted : s.typer.environment.IsScriptTyped

namespace ScopeState

variable {s : ScopeState} {t t' : Typer} {i : Instruction} {vs : List Variable}

/-! ### Positions -/

lemma check_eq_ok_iff : s.check i = .ok () ↔
    (i.operation.isBlockEnd = true → s.checkBlockEnd i.operation = .ok ()) ∧
      s.context.contains i.operation.requiredContext = true := by
  have hc : s.checkContext i.operation = .ok () ↔
      s.context.contains i.operation.requiredContext = true := by
    unfold checkContext
    split <;> simp_all
  unfold check
  cases i.operation.isBlockEnd with
  | false => simpa using hc
  | true =>
      simp only [if_true, bind_eq_ok_iff, hc, forall_const]
      exact ⟨fun ⟨_, h₁, h₂⟩ => ⟨h₁, h₂⟩, fun ⟨h₁, h₂⟩ => ⟨(), h₁, h₂⟩⟩

/-- An instruction that ends a block ends one of its own kind. -/
lemma exists_cons_of_checkBlockEnd {op : Operation} (h : s.checkBlockEnd op = .ok ())
    (he : op.isBlockEnd = true) : ∃ b bs, s.blocks = b :: bs ∧ b.kind = op.kind := by
  unfold checkBlockEnd at h
  split at h
  · exact nomatch h
  · rename_i b bs hb
    split at h
    · exact nomatch h
    · rename_i hk
      rw [Operation.blockKind?_of_isBlockEnd he, ne_eq, not_not, Option.some.injEq] at hk
      exact ⟨b, bs, hb, hk⟩

/-- A block that an instruction opens or continues has the kind of the operation. -/
lemma kind_openedBlock
    (h : i.operation.isBlockEnd = true → s.checkBlockEnd i.operation = .ok ()) :
    (openedBlock i.operation (s.closed? i)).kind = i.operation.kind := by
  unfold closed?
  cases he : i.operation.isBlockEnd with
  | false => rfl
  | true =>
      obtain ⟨b, bs, hb, hk⟩ := exists_cons_of_checkBlockEnd (h he) he
      rw [if_pos rfl, hb]
      exact hk

namespace Placed

lemma context_provides (h : s.Placed) : (OpenBlock.worldOf s.blocks).Provides s.context := by
  have hc := h.contexts
  rw [OpenBlock.worldsOf_eq] at hc
  obtain ⟨c, cs, hp, -, he⟩ := List.forall₂_cons_left_iff.mp hc
  rw [context, he, List.headD_cons]
  exact hp

/-- **Accepted instructions stand in their world.** -/
theorem worldOf_eq_home (h : s.Placed) (hc : s.check i = .ok ()) :
    OpenBlock.worldOf s.blocks = i.operation.home := by
  obtain ⟨hb, hcon⟩ := check_eq_ok_iff.mp hc
  rcases Operation.eq_home_of_contains h.context_provides hcon with hw | ⟨he, -⟩
  · exact hw
  · obtain ⟨b, bs, hbs, hk⟩ := exists_cons_of_checkBlockEnd (hb he) he
    rw [Operation.home_of_isBlockEnd he, hbs, OpenBlock.worldOf, hk]

lemma leave (h : s.Placed) {b : OpenBlock} {bs : List OpenBlock} (hb : s.blocks = b :: bs) :
    s.leave.Placed := by
  obtain ⟨hn, hc⟩ := h
  have hlb : s.leave.blocks = bs := by rw [ScopeState.leave, hb, List.tail_cons]
  rw [hb] at hn
  rw [hb, OpenBlock.worldsOf] at hc
  refine ⟨by rw [hlb]; exact hn.2, ?_⟩
  obtain ⟨c, cs, -, hcs, he⟩ := List.forall₂_cons_left_iff.mp hc
  rw [OpenBlock.worldsOf_eq] at hcs
  obtain ⟨d, ds, hd, hds, rfl⟩ := List.forall₂_cons_left_iff.mp hcs
  rw [hlb, OpenBlock.worldsOf_eq, ScopeState.leave, he]
  exact .cons hd hds

lemma declareAll (h : s.Placed) : (s.declareAll vs).Placed :=
  ⟨by rw [blocks_declareAll]; exact h.nested,
    by rw [blocks_declareAll, contexts_declareAll]; exact h.contexts⟩

lemma enter (h : s.Placed) {closed? : Option OpenBlock} (hi : i.operation.isBlockStart = true)
    (hk : (openedBlock i.operation closed?).kind = i.operation.kind)
    (hw : OpenBlock.worldOf s.blocks = i.operation.kind.outside) :
    (s.enter i closed?).Placed := by
  refine ⟨?_, ?_⟩
  · rw [blocks_enter]
    exact ⟨by rw [hw, hk], h.nested⟩
  · rw [blocks_enter, contexts_enter, OpenBlock.worldsOf, hk]
    refine .cons (Operation.provides_innerContext hi ?_) h.contexts
    rw [← hw]
    exact h.context_provides

/-- The position behind the block that an instruction ends, if it ends one, is where its outputs
belong to. -/
lemma outside (h : s.Placed) (hc : s.check i = .ok ()) :
    (s.outside i).Placed ∧ OpenBlock.worldOf (s.outside i).blocks = i.operation.site := by
  cases he : i.operation.isBlockEnd with
  | false =>
      rw [outside_of_not_isBlockEnd he, Operation.site, if_neg (by simp [he])]
      exact ⟨h, h.worldOf_eq_home hc⟩
  | true =>
      obtain ⟨b, bs, hbs, hk⟩ :=
        exists_cons_of_checkBlockEnd ((check_eq_ok_iff.mp hc).1 he) he
      have hnest := h.nested
      rw [hbs] at hnest
      rw [outside_of_isBlockEnd he, Operation.site, if_pos he]
      refine ⟨h.leave hbs, ?_⟩
      rw [ScopeState.leave, hbs, List.tail_cons, hnest.1, hk]

lemma worldOf_declared (h : s.Placed) (hc : s.check i = .ok ()) :
    OpenBlock.worldOf (s.declared i).blocks = i.operation.site := by
  rw [declared, blocks_declareAll, (h.outside hc).2]

/-- The blocks stay nested behind every accepted instruction. -/
theorem apply (h : s.Placed) (hc : s.check i = .ok ()) : (s.apply i).Placed := by
  have hd : (s.declared i).Placed := (h.outside hc).1.declareAll
  cases hb : i.operation.isBlockStart with
  | false =>
      rw [apply_of_not_isBlockStart hb]
      exact hd
  | true =>
      rw [apply_of_isBlockStart hb]
      refine hd.enter hb (kind_openedBlock (check_eq_ok_iff.mp hc).1) ?_
      rw [h.worldOf_declared hc, Operation.site_of_isBlockStart hb]

end Placed

namespace Fits

lemma exists_scopes (h : s.Fits t) : ∃ top rest, s.scopes = top :: rest ∧
    t.Holds (OpenBlock.worldOf s.blocks) top ∧
      List.Forall₂ t.Holds (OpenBlock.worldsOf s.blocks).tail rest := by
  have hh := h.holds
  rw [OpenBlock.worldsOf_eq] at hh
  obtain ⟨top, rest, ht, hr, he⟩ := List.forall₂_cons_left_iff.mp hh
  exact ⟨top, rest, he, ht, hr⟩

/-- Every variable in scope is in the scope of some world around. -/
lemma exists_holds (h : s.Fits t) {v : Variable} (hv : v ∈ s.scopes.flatten) :
    ∃ w ∈ OpenBlock.worldsOf s.blocks, ∃ scope, t.Holds w scope ∧ v ∈ scope := by
  obtain ⟨scope, hs, hv⟩ := List.mem_flatten.mp hv
  obtain ⟨k, hk, rfl⟩ := List.getElem_of_mem hs
  obtain ⟨hl, hall⟩ := List.forall₂_iff_get.mp h.holds
  exact ⟨_, List.get_mem .., _, hall k (hl ▸ hk) hk, hv⟩

/-- Outside of functions there are no values of functions and no labels in scope. -/
lemma not_value_of_worldOf (h : s.Fits t) (hw : OpenBlock.worldOf s.blocks ≠ .function)
    {v : Variable} (hv : v ∈ s.scopes.flatten) :
    (∀ type, t.typeOf v ≠ .wasm type) ∧ t.typeOf v ≠ .label := by
  obtain ⟨w, hmem, scope, hholds, hv⟩ := h.exists_holds hv
  cases w with
  | script =>
      have := hholds v hv
      refine ⟨fun type ht => ?_, fun ht => ?_⟩ <;>
      · rw [ht] at this
        exact nomatch this
  | module =>
      obtain ⟨layout, -, hvs, he⟩ := hholds
      rw [← List.mem_reverse, ← hvs] at hv
      obtain ⟨e, hel, rfl⟩ := List.mem_map.mp hv
      rw [he e hel]
      exact ⟨nofun, nofun⟩
  | function =>
      rw [OpenBlock.worldsOf_eq, List.mem_cons] at hmem
      rcases hmem with hmem | hmem
      · exact absurd hmem.symm hw
      · exact nomatch OpenBlock.eq_script_of_mem_tail h.nested hw _ hmem

/-- A variable in scope that has the type of an entity is one of the module around. -/
lemma exists_entity (h : s.Fits t) {v : Variable} {entity : EntityType}
    (hv : v ∈ s.scopes.flatten) (ht : t.typeOf v = .wasmEntity entity) :
    ∃ layout, t.currentModule? = some layout ∧
      ∃ e ∈ layout.entities, e.var = v ∧ e.entity = entity := by
  obtain ⟨w, -, scope, hw, hmem⟩ := h.exists_holds hv
  cases w with
  | script =>
      have := hw v hmem
      rw [ht] at this
      exact nomatch this
  | module =>
      obtain ⟨layout, hl, hvs, he⟩ := hw
      rw [← List.mem_reverse, ← hvs] at hmem
      obtain ⟨e, hel, rfl⟩ := List.mem_map.mp hmem
      have := he e hel
      rw [ht, StaticType.wasmEntity.injEq] at this
      exact ⟨layout, hl, e, hel, rfl, this.symm⟩
  | function =>
      have := hw v hmem
      rw [ht] at this
      exact this.elim nofun nofun

lemma leave (h : s.Fits t) {b : OpenBlock} {bs : List OpenBlock} (hb : s.blocks = b :: bs) :
    s.leave.Fits t := by
  refine ⟨h.toPlaced.leave hb, ?_, h.tracks.leave⟩
  have hh := h.holds
  rw [hb, OpenBlock.worldsOf] at hh
  obtain ⟨top, rest, -, hr, he⟩ := List.forall₂_cons_left_iff.mp hh
  rw [ScopeState.leave, hb, he]
  exact hr

/-- Variables are declared behind which the innermost scope still is what its world asks for. -/
lemma declareAll (h : s.Fits t) (hn : vs.Nodup) (hd : vs.Disjoint s.scopes.flatten)
    (ht : ∀ v ∈ s.scopes.flatten, t'.typeOf v = t.typeOf v)
    (hm : OpenBlock.worldOf s.blocks = .function → t'.currentModule? = t.currentModule?)
    (htop : ∀ top ∈ s.scopes.head?, t.Holds (OpenBlock.worldOf s.blocks) top →
      t'.Holds (OpenBlock.worldOf s.blocks) (vs.reverse ++ top)) :
    (s.declareAll vs).Fits t' := by
  obtain ⟨top, rest, hs, htp, hr⟩ := h.exists_scopes
  refine ⟨h.toPlaced.declareAll, ?_, h.tracks.declareAll hs hn hd⟩
  rw [blocks_declareAll, scopes_declareAll hs, OpenBlock.worldsOf_eq]
  refine .cons (htop top (by rw [hs]; rfl) htp) ?_
  rw [hs, List.flatten_cons] at ht
  rw [List.forall₂_iff_zip] at hr ⊢
  refine ⟨hr.1, fun {w scope} hmem => ?_⟩
  obtain ⟨hw, hscope⟩ := List.of_mem_zip hmem
  refine (hr.2 hmem).frame (fun v hv => ht v ?_) fun hwm => hm ?_
  · exact List.mem_append_right _ (List.mem_flatten_of_mem hscope hv)
  · by_contra hf
    rw [OpenBlock.eq_script_of_mem_tail h.nested hf w hw] at hwm
    exact nomatch hwm

lemma enter (h : s.Fits t) {closed? : Option OpenBlock} (hi : i.operation.isBlockStart = true)
    (hk : (openedBlock i.operation closed?).kind = i.operation.kind)
    (hw : OpenBlock.worldOf s.blocks = i.operation.kind.outside) (hn : i.innerOutputs.Nodup)
    (hd : i.innerOutputs.Disjoint s.scopes.flatten)
    (hh : t.Holds i.operation.kind.inside i.innerOutputs.reverse) :
    (s.enter i closed?).Fits t := by
  refine ⟨h.toPlaced.enter hi hk hw, ?_, h.tracks.enter hn hd⟩
  rw [blocks_enter, scopes_enter, OpenBlock.worldsOf, hk]
  exact .cons hh h.holds

/-- Nothing gets into scope by the end of a block. -/
lemma outside (h : s.Fits t) (hc : s.check i = .ok ()) :
    (s.outside i).Fits t ∧ ∀ v ∈ (s.outside i).scopes.flatten, v ∈ s.scopes.flatten := by
  cases he : i.operation.isBlockEnd with
  | false =>
      rw [outside_of_not_isBlockEnd he]
      exact ⟨h, fun v hv => hv⟩
  | true =>
      obtain ⟨b, bs, hbs, -⟩ :=
        exists_cons_of_checkBlockEnd ((check_eq_ok_iff.mp hc).1 he) he
      rw [outside_of_isBlockEnd he]
      refine ⟨h.leave hbs, fun v hv => ?_⟩
      obtain ⟨scope, hs, hv⟩ := List.mem_flatten.mp hv
      exact List.mem_flatten.mpr ⟨scope, List.mem_of_mem_tail hs, hv⟩

end Fits

end ScopeState

namespace Typer

variable {t : Typer} {i : Instruction}

/-- Variables inside the block that an instruction opens are what the world inside asks for. -/
lemma holds_innerOutputs (hs : i.operation.isBlockStart = true) (ha : i.hasConsistentArity = true)
    (hn : i.definedVariables.Nodup) :
    (t.apply i).Holds i.operation.kind.inside i.innerOutputs.reverse := by
  have hm := map_typeOf_innerOutputs ha hn (Operation.ne_endWasmModule hs) (t := t)
  have hmem : ∀ v ∈ i.innerOutputs.reverse,
      (t.apply i).typeOf v ∈ innerOutputTypes i.operation i.operation.numInnerOutputs := by
    intro v hv
    rw [← hm]
    exact List.mem_map_of_mem (List.mem_reverse.mp hv)
  cases hw : i.operation.kind.inside with
  | script =>
      intro v hv
      rcases innerOutputTypes_of_mem (hmem v hv) with ⟨-, h⟩ | ⟨h, -⟩
      · exact h
      · rw [h] at hw
        exact nomatch hw
  | module =>
      have hop := Operation.eq_beginWasmModule hs hw
      rw [hop] at hm
      refine ⟨.empty, ?_, ?_, by simp [ModuleLayout.empty]⟩
      · rw [currentModule?, modules_apply_beginWasmModule hop, List.head?_cons]
      · rw [List.map_eq_nil_iff.mp hm]
        rfl
  | function =>
      intro v hv
      rcases innerOutputTypes_of_mem (hmem v hv) with ⟨h, -⟩ | ⟨-, h⟩
      · rw [h] at hw
        exact nomatch hw
      · exact h

lemma endModule_isScriptValue {vs : List Variable} (hl : vs.length = 2) :
    ∀ v ∈ vs, ((t.endModule vs).typeOf v).isScriptValue = true := by
  obtain ⟨compiled, exports, rfl⟩ := List.length_eq_two.mp hl
  intro v hv
  rw [List.mem_pair] at hv
  simp only [endModule, typeOf_record]
  split
  · rfl
  · rename_i hne
    rw [if_pos (hv.resolve_right (Ne.symm hne)).symm]
    rfl

/-- The outputs of an instruction join a scope of the world that they belong to. -/
lemma holds_outputs (ha : i.hasConsistentArity = true) (hn : i.definedVariables.Nodup)
    (he : t.environment.IsScriptTyped) {function : Option FunctionSignature}
    (hi : i.operation.acceptsInputs (i.inputs.map t.typeOf) function = true) {top : List Variable}
    (ht : ∀ v ∈ top, (t.apply i).typeOf v = t.typeOf v) (h : t.Holds i.operation.site top) :
    (t.apply i).Holds i.operation.site (i.outputs.reverse ++ top) := by
  have hmem : ∀ v ∈ i.outputs, i.operation ≠ .endWasmModule →
      (t.apply i).typeOf v ∈ t.outputTypes i.operation i.inputs := by
    intro v hv hne
    rw [← map_typeOf_outputs ha hn hne]
    exact List.mem_map_of_mem hv
  cases hw : i.operation.site with
  | script =>
      rw [hw] at h
      intro v hv
      rcases List.mem_append.mp hv with hv | hv
      · rw [List.mem_reverse] at hv
        by_cases hend : i.operation = .endWasmModule
        · obtain ⟨-, ho, -⟩ := Instruction.hasConsistentArity_iff.mp ha
          rw [hend] at ho
          rw [apply_endWasmModule hend]
          exact endModule_isScriptValue ho v hv
        · exact outputs_script hw he _ (hmem v hv hend)
      · rw [ht v hv]
        exact h v hv
  | module =>
      rw [hw] at h
      obtain ⟨layout, hl, hvs, hents⟩ := h
      obtain ⟨hd, hdt⟩ := outputs_module hw ha hn (t := t)
      have h₁ : i.operation ≠ .beginWasmModule := fun h => by
        rw [h] at hw
        cases (show World.script = .module from hw)
      have h₂ : i.operation ≠ .endWasmModule := fun h => by
        rw [h] at hw
        cases (show World.script = .module from hw)
      refine ⟨layout.extend (t.declared i), ?_, ?_, fun e hmem => ?_⟩
      · rw [currentModule?] at hl ⊢
        rw [modules_apply ha hn h₁ h₂, List.head?_modifyHead, hl]
        rfl
      · rw [ModuleLayout.extend, List.map_append, hvs, hd, List.reverse_append,
          List.reverse_reverse]
      · rcases List.mem_append.mp hmem with hmem | hmem
        · have hv : e.var ∈ top := by
            rw [← List.mem_reverse, ← hvs]
            exact List.mem_map_of_mem hmem
          rw [ht _ hv]
          exact hents e hmem
        · exact hdt e hmem
  | function =>
      rw [hw] at h
      intro v hv
      rcases List.mem_append.mp hv with hv | hv
      · have hend : i.operation ≠ .endWasmModule := fun h => by
          rw [h] at hw
          cases (show World.script = .function from hw)
        exact .inl (outputs_function hw hi _ (hmem v (List.mem_reverse.mp hv) hend))
      · rw [ht v hv]
        exact h v hv

/-- The module around a function does not change inside the function. -/
lemma currentModule?_apply_of_site (ha : i.hasConsistentArity = true)
    (hn : i.definedVariables.Nodup) (h : i.operation.site = .function) :
    (t.apply i).currentModule? = t.currentModule? := by
  have h₁ : i.operation ≠ .beginWasmModule := fun he => by
    rw [he] at h
    exact nomatch (show World.script = .function from h)
  have h₂ : i.operation ≠ .endWasmModule := fun he => by
    rw [he] at h
    exact nomatch (show World.script = .function from h)
  rw [currentModule?, modules_apply ha hn h₁ h₂, declared_of_site (by simp [h]), currentModule?]
  cases t.modules <;> simp

end Typer

namespace Validator

variable {s s' : Validator} {i : Instruction} {is : List Instruction} {next : UInt32}

lemma placed_start {e : Environment} : (start e).scopes.Placed where
  nested := trivial
  contexts := .cons (.inl rfl) .nil

lemma placed_of_step (h : s.scopes.Placed) (hs : s.step i = .ok s') : s'.scopes.Placed := by
  obtain ⟨next, ha, rfl⟩ := step_eq_ok_iff.mp hs
  exact h.apply ha.position

/-- The blocks are nested at every position of an accepted list of instructions. -/
lemma Steps.placed (hs : Steps s is s') (h : s.scopes.Placed) : s'.scopes.Placed := by
  induction hs with
  | nil s => exact h
  | cons head tail ih => exact ih (placed_of_step h head)

lemma sound_start {e : Environment} (he : e.IsScriptTyped) : (start e).Sound where
  fits := {
    toPlaced := placed_start
    holds := .cons (by simp [Typer.Holds]) .nil
    tracks := ScopeState.tracks_start }
  old := by simp [start, ScopeState.start]
  scripted := he

/-! ### One instruction -/

namespace Sound

lemma nodup_definedVariables (ha : s.Admits i next) (hn : i.NumbersSmall) :
    i.definedVariables.Nodup :=
  (checkFresh_eq_ok ha.fresh hn).2.2.imp fun h he => by simp [he] at h

lemma disjoint_definedVariables (h : s.Sound) (ha : s.Admits i next) (hn : i.NumbersSmall) :
    i.definedVariables.Disjoint s.scopes.scopes.flatten := by
  intro v hv hf
  exact UInt32.not_lt.mpr ((checkFresh_eq_ok ha.fresh hn).2.1 v hv).1 (h.old v hf)

/-- The variables in scope keep their types. -/
lemma typeOf_apply (h : s.Sound) (ha : s.Admits i next) (hn : i.NumbersSmall) {v : Variable}
    (hv : v ∈ s.scopes.scopes.flatten) : (s.typer.apply i).typeOf v = s.typer.typeOf v :=
  Typer.typeOf_apply_of_not_mem fun hd => h.disjoint_definedVariables ha hn hd hv

/-- **The invariant is preserved** by every accepted instruction. -/
theorem step (h : s.Sound) (hs : s.step i = .ok s') (hn : i.NumbersSmall) : s'.Sound := by
  obtain ⟨next, ha, rfl⟩ := step_eq_ok_iff.mp hs
  obtain ⟨hle, hrange, -⟩ := checkFresh_eq_ok ha.fresh hn
  have hnd := nodup_definedVariables ha hn
  have hdisj := h.disjoint_definedVariables ha hn
  have htype := fun v hv => h.typeOf_apply ha hn (v := v) hv
  obtain ⟨hno, hni, hoi⟩ := List.nodup_append'.mp hnd
  obtain ⟨hfits, hsub⟩ := h.fits.outside ha.position
  have hsite := (h.fits.toPlaced.outside ha.position).2
  obtain ⟨top, rest, hsc, htop, -⟩ := hfits.exists_scopes
  -- the state behind the outputs
  have hdecl : (s.scopes.declared i).Fits (s.typer.apply i) := by
    refine hfits.declareAll hno (fun v hv hf => hdisj (List.mem_append_left _ hv) (hsub v hf))
      (fun v hv => htype v (hsub v hv)) (fun hf => ?_) fun top ht hh => ?_
    · exact Typer.currentModule?_apply_of_site ha.arity hnd (hsite.symm.trans hf)
    · rw [hsite] at hh ⊢
      refine Typer.holds_outputs ha.arity hnd h.scripted ha.inputs (fun v hv => htype v ?_) hh
      rw [Option.mem_def, hsc, List.head?_cons, Option.some.injEq] at ht
      subst ht
      exact hsub v (by rw [hsc]; exact List.mem_append_left _ hv)
  have hflat : ∀ v ∈ (s.scopes.declared i).scopes.flatten,
      v ∈ i.outputs ∨ v ∈ s.scopes.scopes.flatten := by
    intro v hv
    rw [ScopeState.declared, ScopeState.scopes_declareAll hsc, List.flatten_cons, List.append_assoc,
      List.mem_append, List.mem_reverse] at hv
    refine hv.imp_right fun hv => hsub v ?_
    rw [hsc]
    exact hv
  have hold : ∀ v, v ∈ i.definedVariables ∨ v ∈ s.scopes.scopes.flatten → v.number < next := by
    rintro v (hv | hv)
    · exact (hrange v hv).2
    · exact UInt32.lt_of_lt_of_le (h.old v hv) hle
  have henv : (s.typer.apply i).environment.IsScriptTyped := by
    rw [Typer.environment_apply]
    exact h.scripted
  cases hb : i.operation.isBlockStart with
  | false =>
      refine ⟨?_, fun v hv => hold v ?_, henv⟩
      · rw [ScopeState.apply_of_not_isBlockStart hb]
        exact hdecl
      · rw [ScopeState.apply_of_not_isBlockStart hb] at hv
        exact (hflat v hv).imp_left (List.mem_append_left _)
  | true =>
      have hk : (ScopeState.openedBlock i.operation (s.scopes.closed? i)).kind =
          i.operation.kind :=
        ScopeState.kind_openedBlock fun he =>
          (ScopeState.check_eq_ok_iff.mp ha.position).1 he
      have hwd : OpenBlock.worldOf (s.scopes.declared i).blocks = i.operation.kind.outside := by
        rw [h.fits.worldOf_declared ha.position, Operation.site_of_isBlockStart hb]
      have hdi : i.innerOutputs.Disjoint (s.scopes.declared i).scopes.flatten := by
        intro v hv hf
        rcases hflat v hf with ho | hf
        · exact hoi ho hv
        · exact hdisj (List.mem_append_right _ hv) hf
      refine ⟨?_, fun v hv => hold v ?_, henv⟩
      · rw [ScopeState.apply_of_isBlockStart hb]
        exact hdecl.enter hb hk hwd hni hdi (Typer.holds_innerOutputs hb ha.arity hnd)
      · rw [ScopeState.apply_of_isBlockStart hb, ScopeState.scopes_enter, List.flatten_cons,
          List.mem_append, List.mem_reverse] at hv
        rcases hv with hv | hv
        · exact .inl (List.mem_append_right _ hv)
        · exact (hflat v hv).imp_left (List.mem_append_left _)

/-- What the validator keeps is right at every position of an accepted list of instructions. -/
theorem steps (h : s.Sound) (hs : Steps s is s') (hn : ∀ i ∈ is, i.NumbersSmall) : s'.Sound := by
  induction hs with
  | nil s => exact h
  | cons head tail ih =>
      refine ih (h.step head (hn _ (List.mem_cons_self ..))) fun i hi => ?_
      exact hn i (List.mem_cons_of_mem _ hi)

end Sound

/-- Variables that are not fresh keep their types. -/
lemma Steps.typeOf_eq (hs : Steps s is s') (hn : ∀ i ∈ is, i.NumbersSmall) :
    s.nextFresh ≤ s'.nextFresh ∧
      ∀ v : Variable, v.number < s.nextFresh → s'.typer.typeOf v = s.typer.typeOf v := by
  induction hs with
  | nil s => exact ⟨UInt32.le_refl _, fun v _ => rfl⟩
  | cons head tail ih =>
      obtain ⟨hle', htypes⟩ := ih fun i hi => hn i (List.mem_cons_of_mem _ hi)
      obtain ⟨next, ha, rfl⟩ := step_eq_ok_iff.mp head
      obtain ⟨hle, hrange, -⟩ := checkFresh_eq_ok ha.fresh (hn _ (List.mem_cons_self ..))
      refine ⟨UInt32.le_trans hle hle', fun v hv => ?_⟩
      rw [htypes v (UInt32.lt_of_lt_of_le hv hle)]
      exact Typer.typeOf_apply_of_not_mem fun hd => UInt32.not_lt.mpr (hrange v hd).1 hv

end Validator

end EngineFuzz
