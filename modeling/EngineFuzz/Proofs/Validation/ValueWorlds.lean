import Mathlib
import EngineFuzz.Proofs.Validation.LexicalScope
import EngineFuzz.Proofs.Validation.Soundness

/-!
# Values stay in their world

What the validator accepts as a value of the script includes variables of the type `anything`, and
the typer falls back to this type when inputs are not what it expects.  Still nothing from the body
of a module or of a function is taken for a value of the script: in an accepted program the types
tell the world that a variable belongs to.

* `OpenBlock.OpenedAt`: the open blocks and their positions, with `Validator.Steps.openedAt`.
* `OpenBlock.Nested.countP_module`, `OpenBlock.Nested.countP_function`: how many modules and
  functions are open.
* `Typer.Holds.eq_function`, `Typer.Holds.eq_module`: the world that a type tells.
* `Program.values_in_worlds`: the main statement.
-/

namespace EngineFuzz

/-! ### Positions of open blocks -/

/-- Whether the operation begins the body of a module. -/
def Operation.opensModule : Operation → Bool
  | beginWasmModule => true
  | _ => false

/-- Whether the operation begins the body of a WebAssembly function. -/
def Operation.opensFunction : Operation → Bool
  | beginWasmFunction _ => true
  | _ => false

/-- Whether the instruction at a position has an operation of a kind. -/
def opensAt (opens : Operation → Bool) (is : List Instruction) (n : Nat) : Bool :=
  is[n]?.any fun i => opens i.operation

/-- The positions of the operations of a kind whose blocks are open, the innermost first. -/
def openBlocksBy (opens : Operation → Bool) (is : List Instruction) : List Nat :=
  (openBlocks is).filter (opensAt opens is)

/-- An instruction at the position `n` or behind it declares the variable. -/
def DeclaredSince (is : List Instruction) (n : Nat) (v : Variable) : Prop :=
  ∃ k i, n ≤ k ∧ is[k]? = some i ∧ v ∈ i.definedVariables

/-- Types of the values inside functions, and of labels. -/
def StaticType.isOfFunction : StaticType → Bool
  | wasm _ | label => true
  | _ => false

namespace Operation

variable {op : Operation}

lemma opensModule_eq (h : op.isBlockStart = true) : op.opensModule = (op.kind == .wasmModule) := by
  cases op <;> first | rfl | cases h

lemma opensFunction_eq (h : op.isBlockStart = true) :
    op.opensFunction = (op.kind == .wasmFunction) := by
  cases op <;> first | rfl | cases h

end Operation

variable {is js : List Instruction} {i : Instruction} {v : Variable} {around ns : List Nat}
  {n : Nat}

/-- Open blocks were opened before. -/
lemma lt_of_mem_openBlocks (h : n ∈ openBlocks is) : n < is.length := by
  induction is using List.reverseRecOn with
  | nil => exact absurd h List.not_mem_nil
  | append_singleton is i ih =>
      rw [List.length_append, List.length_singleton]
      rw [openBlocks_append_singleton] at h
      by_cases hn : n = is.length
      · exact hn ▸ Nat.lt_succ_self _
      · exact (ih (Instruction.mem_of_mem_blocksOutside
          (Instruction.mem_blocksOutside_of_ne h hn))).trans (Nat.lt_succ_self _)

/-- What is declared in a block is declared since the block was opened. -/
lemma DeclaredIn.since (h : DeclaredIn is around v) (hn : n ∈ around) : DeclaredSince is n v := by
  obtain ⟨k, i, hi, hv⟩ := h
  have hle : ∀ {n}, n ∈ i.blocksOutside (openBlocks (is.take k)) → n ≤ k := by
    intro n hn
    have := lt_of_mem_openBlocks (Instruction.mem_of_mem_blocksOutside hn)
    rw [List.length_take] at this
    omega
  rcases hv with ⟨hv, rfl⟩ | ⟨hv, rfl⟩
  · exact ⟨k, i, hle hn, hi, List.mem_append_left _ hv⟩
  · refine ⟨k, i, ?_, hi, List.mem_append_right _ hv⟩
    exact (List.mem_cons.mp hn).elim (fun h => h.le) hle

/-- The instruction that declares a variable, with what stands around it. -/
lemma DeclaredIn.exists_split (h : DeclaredIn is around v) : ∃ before i after,
    is = before ++ i :: after ∧
      (v ∈ i.outputs ∧ i.blocksOutside (openBlocks before) = around ∨
        v ∈ i.innerOutputs ∧ before.length :: i.blocksOutside (openBlocks before) = around) := by
  obtain ⟨k, i, hi, hv⟩ := h
  obtain ⟨hk, rfl⟩ := List.getElem?_eq_some_iff.mp hi
  refine ⟨is.take k, is[k], is.drop (k + 1), ?_, ?_⟩
  · rw [← List.drop_eq_getElem_cons hk, List.take_append_drop]
  · rwa [List.length_take_of_le hk.le]

/-- If at most one block of a kind is open, then a variable that is declared in one is declared
since it was opened. -/
lemma DeclaredIn.exists_since {opens : Operation → Bool} {k : Nat}
    (h : DeclaredIn is ((openBlocks is).drop k) v) (hone : (openBlocksBy opens is).length ≤ 1)
    (hpos : 0 < ((openBlocks is).drop k).countP (opensAt opens is)) :
    ∃ n, (openBlocksBy opens is).head? = some n ∧ DeclaredSince is n v := by
  obtain ⟨n, hmem, ho⟩ := List.countP_pos_iff.mp hpos
  refine ⟨n, ?_, h.since hmem⟩
  have hby : n ∈ openBlocksBy opens is :=
    List.mem_filter.mpr ⟨List.mem_of_mem_drop hmem, ho⟩
  obtain ⟨m, hm⟩ := List.length_eq_one_iff.mp (Nat.le_antisymm hone (List.length_pos_of_mem hby))
  rw [hm] at hby ⊢
  rw [List.mem_singleton.mp hby, List.head?_cons]

/-- Only what opens a block declares variables in one. -/
lemma Instruction.isBlockStart_of_mem_innerOutputs (ha : i.hasConsistentArity = true)
    (hv : v ∈ i.innerOutputs) : i.operation.isBlockStart = true := by
  by_contra hs
  obtain ⟨-, -, hinner⟩ := hasConsistentArity_iff.mp ha
  rw [Operation.numInnerOutputs_of_not (Bool.eq_false_of_not_eq_true hs),
    List.length_eq_zero_iff] at hinner
  exact absurd (hinner ▸ hv) List.not_mem_nil

namespace OpenBlock

variable {b : OpenBlock} {bs : List OpenBlock}

/-- The block, or the part of it that is open, was begun by the instruction at a position. -/
def OpenedAt (is : List Instruction) (n : Nat) (b : OpenBlock) : Prop :=
  ∃ i, is[n]? = some i ∧ i.operation.isBlockStart = true ∧ b.kind = i.operation.kind

lemma OpenedAt.append (h : OpenedAt is n b) (js : List Instruction) : OpenedAt (is ++ js) n b := by
  obtain ⟨i, hi, h⟩ := h
  refine ⟨i, ?_, h⟩
  rw [List.getElem?_append_left (List.getElem?_eq_some_iff.mp hi).1, hi]

lemma OpenedAt.opensModule (h : OpenedAt is n b) :
    opensAt (·.opensModule) is n = (b.kind == .wasmModule) := by
  obtain ⟨i, hi, hs, hk⟩ := h
  rw [opensAt, hi, Option.any_some, Operation.opensModule_eq hs, hk]

lemma OpenedAt.opensFunction (h : OpenedAt is n b) :
    opensAt (·.opensFunction) is n = (b.kind == .wasmFunction) := by
  obtain ⟨i, hi, hs, hk⟩ := h
  rw [opensAt, hi, Option.any_some, Operation.opensFunction_eq hs, hk]

/-- As many of the positions are those of an operation as there are blocks of its kind. -/
lemma countP_opensAt (h : List.Forall₂ (OpenedAt is) ns bs) {opens : Operation → Bool}
    {kind : BlockKind} (ho : ∀ n b, OpenedAt is n b → opensAt opens is n = (b.kind == kind)) :
    ns.countP (opensAt opens is) = bs.countP (·.kind == kind) := by
  induction h with
  | nil => rfl
  | cons head tail ih => rw [List.countP_cons, List.countP_cons, ih, ho _ _ head]

/-! ### How many modules and functions are open -/

/-- A module is open everywhere but in the script, and no other module. -/
lemma Nested.countP_module (hn : Nested bs) :
    bs.countP (·.kind == .wasmModule) = if worldOf bs = .script then 0 else 1 := by
  induction bs with
  | nil => rfl
  | cons b bs ih =>
      rw [List.countP_cons, ih hn.2, hn.1, worldOf]
      cases b.kind <;> rfl

/-- A function is open in functions only, and no other function. -/
lemma Nested.countP_function (hn : Nested bs) :
    bs.countP (·.kind == .wasmFunction) = if worldOf bs = .function then 1 else 0 := by
  induction bs with
  | nil => rfl
  | cons b bs ih =>
      rw [List.countP_cons, ih hn.2, hn.1, worldOf]
      cases b.kind <;> rfl

/-- A position in an open function is in the world of functions. -/
lemma Nested.eq_function (hn : Nested bs) (h : List.Forall₂ (OpenedAt is) ns bs) (hmem : n ∈ ns)
    (hf : opensAt (·.opensFunction) is n = true) : worldOf bs = .function := by
  have hpos : 0 < ns.countP (opensAt (·.opensFunction) is) :=
    List.countP_pos_iff.mpr ⟨n, hmem, hf⟩
  rw [countP_opensAt h fun _ _ h => h.opensFunction, hn.countP_function] at hpos
  by_contra hw
  rw [if_neg hw] at hpos
  exact Nat.lt_irrefl 0 hpos

lemma Nested.drop (hn : Nested bs) (k : Nat) : Nested (bs.drop k) := by
  induction bs generalizing k with
  | nil => rwa [List.drop_nil]
  | cons b bs ih =>
      cases k with
      | zero => exact hn
      | succ k => exact ih hn.2 k

lemma worldsOf_eq_map : worldsOf bs = bs.tails.map worldOf := by
  induction bs with
  | nil => rfl
  | cons b bs ih => rw [worldsOf, ih, List.tails_cons, List.map_cons, worldOf]

/-- Directly around an open function there is an open module. -/
lemma Nested.exists_module (hn : Nested bs) (h : List.Forall₂ (OpenedAt is) ns bs)
    (hf : n ∈ ns.filter (opensAt (·.opensFunction) is)) :
    ∃ m ∈ ns.filter (opensAt (·.opensModule) is), [n, m] <:+: ns := by
  -- the function is the innermost of the blocks, or one of the blocks around that one
  induction h with
  | nil => exact absurd hf List.not_mem_nil
  | @cons k b ns bs head tail ih =>
      rcases List.mem_cons.mp (List.mem_filter.mp hf).1 with rfl | hmem
      · have hk : b.kind = .wasmFunction := by
          have := (List.mem_filter.mp hf).2
          rwa [head.opensFunction, beq_iff_eq] at this
        have hw := hn.1
        rw [hk] at hw
        cases tail with
        | nil => exact nomatch (show World.script = .module from hw)
        | @cons m c ms cs hc _ =>
            refine ⟨m, List.mem_filter.mpr ⟨by simp, ?_⟩, List.IsPrefix.isInfix ⟨ms, rfl⟩⟩
            rw [hc.opensModule]
            revert hw
            simp only [worldOf]
            cases c.kind <;> decide
      · obtain ⟨m, hm, hi⟩ := ih hn.2 (List.mem_filter.mpr ⟨hmem, (List.mem_filter.mp hf).2⟩)
        obtain ⟨hm, ho⟩ := List.mem_filter.mp hm
        exact ⟨m, List.mem_filter.mpr ⟨List.mem_cons_of_mem _ hm, ho⟩,
          hi.trans (List.suffix_cons k ns).isInfix⟩

end OpenBlock

/-! ### The blocks of the validator and their positions -/

namespace ScopeState

variable {s : ScopeState}

/-- The blocks outside of the one that an instruction ends. -/
lemma openedAt_outside (h : List.Forall₂ (OpenBlock.OpenedAt is) (openBlocks is) s.blocks) :
    List.Forall₂ (OpenBlock.OpenedAt is) (i.blocksOutside (openBlocks is))
      (s.outside i).blocks := by
  unfold Instruction.blocksOutside outside
  split
  · have := List.forall₂_drop 1 h
    rwa [List.drop_one, List.drop_one] at this
  · exact h

/-- **One instruction** opens its block at its position. -/
lemma openedAt_apply (h : List.Forall₂ (OpenBlock.OpenedAt is) (openBlocks is) s.blocks)
    (hc : s.check i = .ok ()) :
    List.Forall₂ (OpenBlock.OpenedAt (is ++ [i])) (openBlocks (is ++ [i])) (s.apply i).blocks := by
  have hout := (openedAt_outside h (i := i)).imp fun _ _ h => h.append [i]
  rw [openBlocks_append_singleton, Instruction.blocksBehind]
  cases hb : i.operation.isBlockStart with
  | false =>
      rw [apply_of_not_isBlockStart hb, declared, blocks_declareAll]
      exact hout
  | true =>
      rw [apply_of_isBlockStart hb, blocks_enter, declared, blocks_declareAll]
      refine .cons ⟨i, by simp, hb, ?_⟩ hout
      exact kind_openedBlock (check_eq_ok_iff.mp hc).1

end ScopeState

/-- The open blocks that the validator knows are those at the open positions. -/
lemma Validator.Steps.openedAt {s s' : Validator} (hs : Steps s js s')
    (h : List.Forall₂ (OpenBlock.OpenedAt is) (openBlocks is) s.scopes.blocks) :
    List.Forall₂ (OpenBlock.OpenedAt (is ++ js)) (openBlocks (is ++ js)) s'.scopes.blocks := by
  induction hs generalizing is with
  | nil s => rwa [List.append_nil]
  | cons head tail ih =>
      obtain ⟨next, ha, rfl⟩ := step_eq_ok_iff.mp head
      rw [List.append_cons]
      exact ih (ScopeState.openedAt_apply h ha.position)

lemma Validator.Steps.openedAt_start {e : Environment} {s : Validator} (hs : Steps (start e) is s) :
    List.Forall₂ (OpenBlock.OpenedAt is) (openBlocks is) s.scopes.blocks := by
  have h : List.Forall₂ (OpenBlock.OpenedAt ([] ++ is)) (openBlocks ([] ++ is)) s.scopes.blocks :=
    hs.openedAt .nil
  rwa [List.nil_append] at h

/-! ### Types and worlds -/

namespace Typer

variable {t : Typer} {w : World} {vs : List Variable}

/-- Values of functions and labels are in scopes of functions only. -/
lemma Holds.eq_function (h : t.Holds w vs) (hv : v ∈ vs)
    (ht : (t.typeOf v).isOfFunction = true) : w = .function := by
  cases w with
  | script =>
      have := h v hv
      revert this ht
      cases t.typeOf v <;> simp [StaticType.isOfFunction, StaticType.isScriptValue]
  | module =>
      obtain ⟨layout, -, hvs, he⟩ := h
      rw [← List.mem_reverse, ← hvs] at hv
      obtain ⟨e, hel, rfl⟩ := List.mem_map.mp hv
      rw [he e hel] at ht
      exact nomatch ht
  | function => rfl

/-- Entities are in scopes of modules only. -/
lemma Holds.eq_module (h : t.Holds w vs) (hv : v ∈ vs) {entity : EntityType}
    (ht : t.typeOf v = .wasmEntity entity) : w = .module := by
  cases w with
  | script =>
      have := h v hv
      rw [ht] at this
      exact nomatch this
  | module => rfl
  | function =>
      have := h v hv
      rw [ht] at this
      exact this.elim nofun nofun

lemma Holds.isOfFunction (h : t.Holds .function vs) (hv : v ∈ vs) :
    (t.typeOf v).isOfFunction = true := by
  rcases h v hv with ht | ht
  · revert ht
    cases t.typeOf v <;> simp [StaticType.isOfFunction, StaticType.isAnyWasmValue]
  · rw [ht]
    rfl

end Typer

namespace Validator

variable {s s' : Validator}

/-- A visible variable was declared in one of the open blocks, and the scope in which it is holds
what the world inside this block asks for. -/
lemma Sound.exists_block (h : s.Sound) (hl : s.scopes.Lexical is)
    (ho : List.Forall₂ (OpenBlock.OpenedAt is) (openBlocks is) s.scopes.blocks)
    (hv : s.scopes.isVisible v = true) :
    ∃ k scope, DeclaredIn is ((openBlocks is).drop k) v ∧
      List.Forall₂ (OpenBlock.OpenedAt is) ((openBlocks is).drop k) (s.scopes.blocks.drop k) ∧
        s.typer.Holds (OpenBlock.worldOf (s.scopes.blocks.drop k)) scope ∧ v ∈ scope := by
  obtain ⟨scope, hs, hv⟩ := List.mem_flatten.mp (hl.visible v hv)
  obtain ⟨k, hk, rfl⟩ := List.mem_iff_getElem.mp hs
  have hdecl := hl.places.get (hl.places.length_eq ▸ hk) hk v hv
  have hholds := h.fits.holds.get (h.fits.holds.length_eq ▸ hk) hk
  simp only [List.get_eq_getElem, List.getElem_tails] at hdecl
  simp only [List.get_eq_getElem, OpenBlock.worldsOf_eq_map, List.getElem_map,
    List.getElem_tails] at hholds
  exact ⟨k, _, hdecl, List.forall₂_drop k ho, hholds, hv⟩

/-- An instruction inside a function declares values of functions and labels. -/
lemma Sound.isOfFunction_outputs {next : UInt32} (h : s.Sound) (ha : s.Admits i next)
    (hn : i.NumbersSmall) (hw : i.operation.site = .function) (hv : v ∈ i.outputs) :
    ((s.typer.apply i).typeOf v).isOfFunction = true := by
  have hholds : (s.typer.apply i).Holds i.operation.site (i.outputs.reverse ++ []) :=
    Typer.holds_outputs ha.arity (nodup_definedVariables ha hn) h.scripted ha.inputs nofun
      (by rw [hw]; nofun)
  rw [hw] at hholds
  exact hholds.isOfFunction (by simp [hv])

/-- An instruction that opens a block of a function declares values of functions and labels in
it. -/
lemma Sound.isOfFunction_innerOutputs {next : UInt32} (ha : s.Admits i next) (hn : i.NumbersSmall)
    (hs : i.operation.isBlockStart = true) (hw : i.operation.kind.inside = .function)
    (hv : v ∈ i.innerOutputs) : ((s.typer.apply i).typeOf v).isOfFunction = true := by
  have hholds := Typer.holds_innerOutputs hs ha.arity (nodup_definedVariables ha hn) (t := s.typer)
  rw [hw] at hholds
  exact hholds.isOfFunction (List.mem_reverse.mpr hv)

/-- What is declared in a block inside a function is a value of the function or a label. -/
lemma Steps.isOfFunction_of_declaredIn {e : Environment} (hs : Steps (start e) is s)
    (he : e.IsScriptTyped) (hn : ∀ i ∈ is, i.NumbersSmall) (hd : DeclaredIn is around v)
    (hmem : n ∈ around) (hf : opensAt (·.opensFunction) is n = true) :
    (s.typer.typeOf v).isOfFunction = true := by
  obtain ⟨before, i, after, rfl, hplace⟩ := hd.exists_split
  obtain ⟨a, ha, hrest⟩ := steps_append_iff.mp hs
  obtain ⟨b, hb, hafter⟩ := steps_cons_iff.mp hrest
  obtain ⟨next, hadm, rfl⟩ := step_eq_ok_iff.mp hb
  have hni : i.NumbersSmall := hn i (by simp)
  have hsound := (sound_start he).steps ha fun i hi => hn i (by simp [hi])
  obtain ⟨hle, hrange, -⟩ := checkFresh_eq_ok hadm.fresh hni
  -- a function around the instruction is one around its outputs
  have hsite : n ∈ i.blocksOutside (openBlocks before) → i.operation.site = .function := by
    intro hmem
    have hopen := ScopeState.openedAt_outside ha.openedAt_start (i := i)
    rw [← (hsound.fits.toPlaced.outside hadm.position).2]
    exact (hsound.fits.toPlaced.outside hadm.position).1.nested.eq_function
      (hopen.imp fun _ _ h => h.append (i :: after)) hmem hf
  rcases hplace with ⟨hv, rfl⟩ | ⟨hv, rfl⟩
  · rw [(hafter.typeOf_eq fun i hi => hn i (by simp [hi])).2 v
      (hrange v (List.mem_append_left _ hv)).2]
    exact hsound.isOfFunction_outputs hadm hni (hsite hmem) hv
  · rw [(hafter.typeOf_eq fun i hi => hn i (by simp [hi])).2 v
      (hrange v (List.mem_append_right _ hv)).2]
    have hstart := Instruction.isBlockStart_of_mem_innerOutputs hadm.arity hv
    refine Sound.isOfFunction_innerOutputs hadm hni hstart ?_ hv
    rcases List.mem_cons.mp hmem with rfl | hmem
    · rw [opensAt, List.getElem?_append_right (Nat.le_refl _), Nat.sub_self,
        List.getElem?_cons_zero, Option.any_some, Operation.opensFunction_eq hstart,
        beq_iff_eq] at hf
      rw [hf]
      rfl
    · have hw := hsite hmem
      rw [Operation.site_of_isBlockStart hstart] at hw
      revert hw
      cases i.operation.kind <;> decide

end Validator

/-! ### Accepted programs -/

/-- **Values stay in their world.**  Behind every part of an accepted program, where the open blocks
that the validator knows are those of the open positions, one module is open at most, and in it one
function at most.  A value of a function that is visible, or a label, was declared since the
innermost open function began, and a visible entity since the innermost open module began.  And
all that is declared inside a function is a value of the function or a label, never one of the
script. -/
theorem Program.values_in_worlds {p : Program} {e : Environment} (he : e.IsScriptTyped)
    (hn : p.NumbersSmall) (hp : p.validate e = .ok ()) {is : List Instruction}
    (his : is <+: p.instructions) :
    ∃ s, Validator.Steps (.start e) is s ∧
      List.Forall₂ (OpenBlock.OpenedAt is) (openBlocks is) s.scopes.blocks ∧
      ((openBlocksBy (·.opensModule) is).length ≤ 1 ∧
        (openBlocksBy (·.opensFunction) is).length ≤ 1 ∧
          ∀ f ∈ openBlocksBy (·.opensFunction) is,
            ∃ m ∈ openBlocksBy (·.opensModule) is, [f, m] <:+: openBlocks is) ∧
      (∀ v, s.scopes.isVisible v = true →
        ((s.typer.typeOf v).isOfFunction = true →
          ∃ f, (openBlocksBy (·.opensFunction) is).head? = some f ∧ DeclaredSince is f v) ∧
        ∀ entity, s.typer.typeOf v = .wasmEntity entity →
          ∃ m, (openBlocksBy (·.opensModule) is).head? = some m ∧ DeclaredSince is m v) ∧
      ∀ around v, DeclaredIn is around v → (∃ f ∈ around, opensAt (·.opensFunction) is f = true) →
        (s.typer.typeOf v).isOfFunction = true ∧ (s.typer.typeOf v).isScriptValue = false := by
  obtain ⟨rest, hrest⟩ := his
  obtain ⟨last, hsteps, -⟩ := Program.validate_eq_ok_iff.mp hp
  rw [← hrest] at hsteps
  obtain ⟨s, hs, -⟩ := Validator.steps_append_iff.mp hsteps
  have hni : ∀ i ∈ is, i.NumbersSmall := fun i hi => hn i (hrest ▸ List.mem_append_left _ hi)
  have hsound := (Validator.sound_start he).steps hs hni
  have hlex := hs.lexical ScopeState.lexical_start
  have hopen := hs.openedAt_start
  rw [List.nil_append] at hlex
  have hnest := hsound.fits.nested
  have hmodules : (openBlocksBy (·.opensModule) is).length ≤ 1 := by
    rw [openBlocksBy, ← List.countP_eq_length_filter,
      OpenBlock.countP_opensAt hopen fun _ _ h => h.opensModule, hnest.countP_module]
    split <;> decide
  have hfunctions : (openBlocksBy (·.opensFunction) is).length ≤ 1 := by
    rw [openBlocksBy, ← List.countP_eq_length_filter,
      OpenBlock.countP_opensAt hopen fun _ _ h => h.opensFunction, hnest.countP_function]
    split <;> decide
  refine ⟨s, hs, hopen, ⟨hmodules, hfunctions, fun f hf => hnest.exists_module hopen hf⟩,
    fun v hv => ?_, fun around v hd ⟨f, hmem, hf⟩ => ?_⟩
  · obtain ⟨k, scope, hdecl, hblocks, hholds, hmem⟩ := hsound.exists_block hlex hopen hv
    refine ⟨fun ht => ?_, fun entity ht => ?_⟩
    · refine hdecl.exists_since hfunctions ?_
      rw [OpenBlock.countP_opensAt hblocks fun _ _ h => h.opensFunction,
        (hnest.drop k).countP_function, if_pos (hholds.eq_function hmem ht)]
      exact Nat.one_pos
    · refine hdecl.exists_since hmodules ?_
      rw [OpenBlock.countP_opensAt hblocks fun _ _ h => h.opensModule,
        (hnest.drop k).countP_module, hholds.eq_module hmem ht]
      exact Nat.one_pos
  · have ht := hs.isOfFunction_of_declaredIn he hni hd hmem hf
    refine ⟨ht, ?_⟩
    revert ht
    cases s.typer.typeOf v <;> simp [StaticType.isOfFunction, StaticType.isScriptValue]

/-- Behind the constant in the function of a program the parameter is visible, and its type tells
that it belongs to the function. -/
theorem values_in_worlds_successor :
    ∃ s, Validator.Steps (.start .script) (successor.instructions.take 3) s ∧
      s.scopes.isVisible ⟨0⟩ = true ∧ (s.typer.typeOf ⟨0⟩).isOfFunction = true ∧
      (s.typer.typeOf ⟨0⟩).isScriptValue = false ∧
      (∃ m ∈ openBlocksBy (·.opensModule) (successor.instructions.take 3),
        [1, m] <:+: openBlocks (successor.instructions.take 3)) ∧
      ∃ f, (openBlocksBy (·.opensFunction) (successor.instructions.take 3)).head? = some f ∧
        DeclaredSince (successor.instructions.take 3) f ⟨0⟩ := by
  obtain ⟨s, hs, -, ⟨-, -, hinside⟩, hvisible, htypes⟩ :=
    Program.values_in_worlds Environment.isScriptTyped_script (p := successor) (by decide)
      (validate_successor .script) (List.take_prefix 3 _)
  have hv : s.scopes.isVisible ⟨0⟩ = true := by
    obtain ⟨a, ha, h⟩ := Validator.steps_cons_iff.mp hs
    obtain ⟨b, hb, h⟩ := Validator.steps_cons_iff.mp h
    obtain ⟨c, hc, h⟩ := Validator.steps_cons_iff.mp h
    obtain ⟨next, -, rfl⟩ := Validator.step_eq_ok_iff.mp hb
    obtain ⟨next, -, rfl⟩ := Validator.step_eq_ok_iff.mp hc
    rw [Validator.steps_nil_iff.mp h]
    exact ScopeState.isVisible_apply_of_isVisible
      (ScopeState.isVisible_apply_of_mem (by decide) (by decide)) rfl
  obtain ⟨ht, hscript⟩ := htypes [1, 0] ⟨0⟩ ⟨1, _, rfl, .inr ⟨by decide, rfl⟩⟩ ⟨1, by decide, rfl⟩
  exact ⟨s, hs, hv, ht, hscript, hinside 1 (by decide), (hvisible ⟨0⟩ hv).1 ht⟩

end EngineFuzz
