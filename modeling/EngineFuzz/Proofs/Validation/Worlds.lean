import Mathlib
import EngineFuzz.Proofs.Validation.Operands
import EngineFuzz.Proofs.Validation.Typer

/-!
# Script, modules and functions

A program mixes three kinds of code: that of the script, the bodies of modules and the bodies of
functions.  Which one an operation belongs to is written in the context that it requires, in the
kind of the block that it opens or closes and in the types of its outputs.  Here these are brought
to one notion.

* `Operation.home`: the world that an operation belongs to, with `World.eq_home_of_contains`.
* `Operation.site`: the world that its outputs belong to.
* `Typer.outputs_script`, `Typer.outputs_module`, `Typer.outputs_function`: what the outputs are.
-/

namespace EngineFuzz

/-! ### Environments -/

namespace NameMap

variable {α : Type} {entries : List (String × α)} {b : String × α}

lemma mem_insertEntry {name : String} {value : α} (h : b ∈ insertEntry name value entries) :
    b = (name, value) ∨ b ∈ entries := by
  induction entries with
  | nil => exact .inl (List.mem_singleton.mp h)
  | cons entry rest ih =>
      obtain ⟨n, v⟩ := entry
      rw [insertEntry] at h
      split at h
      · exact (List.mem_cons.mp h).imp_right (List.mem_cons_of_mem _)
      · split at h
        · exact List.mem_cons.mp h
        · rcases List.mem_cons.mp h with h | h
          · exact .inr (h ▸ List.mem_cons_self ..)
          · exact (ih h).imp_right (List.mem_cons_of_mem _)

/-- A map has the entries of its list only. -/
lemma mem_of_mem_ofList (h : b ∈ (ofList entries).entries) : b ∈ entries := by
  have hfold : ∀ (es : List (String × α)) (m : NameMap α),
      b ∈ (es.foldl (fun m entry => m.insert entry.1 entry.2) m).entries →
        b ∈ m.entries ∨ b ∈ es := by
    intro es
    induction es with
    | nil => exact fun m h => .inl h
    | cons entry es ih =>
        intro m h
        rcases ih _ h with h | h
        · rcases mem_insertEntry h with rfl | h
          · exact .inr (List.mem_cons_self ..)
          · exact .inl h
        · exact .inr (List.mem_cons_of_mem _ h)
  exact (hfold entries empty h).resolve_left List.not_mem_nil

end NameMap

namespace Environment

/-- The builtins of the generic script engine are functions, objects and numbers. -/
lemma type_of_mem_script {b : String × StaticType} (hb : b ∈ script.builtins.entries) :
    b.2 = .function 1 ∨ (∃ group, b.2 = .object group) ∨ b.2 = .float := by
  have h := NameMap.mem_of_mem_ofList hb
  rw [List.mem_append, List.mem_append, List.mem_map, List.mem_map] at h
  rcases h with (⟨name, -, rfl⟩ | ⟨name, -, rfl⟩) | h
  · exact .inl rfl
  · exact .inr (.inl ⟨_, rfl⟩)
  · fin_cases h <;> first | exact .inr (.inr rfl) | exact .inr (.inl ⟨_, rfl⟩)

lemma isScriptTyped_script : script.IsScriptTyped := by
  intro b hb
  rcases type_of_mem_script hb with h | ⟨group, h⟩ | h <;> rw [h] <;> rfl

end Environment

/-! ### Worlds -/

/-- The kinds of code in a program. -/
inductive World where
  | script | module | function
deriving DecidableEq, Repr

namespace BlockKind

/-- The world inside a block. -/
def inside : BlockKind → World
  | plainFunction | branch | repeatLoop | tryCatch => .script
  | wasmModule => .module
  | wasmFunction | wasmBlock | wasmLoop | wasmIf => .function

/-- The world that a block stands in. -/
def outside : BlockKind → World
  | plainFunction | branch | repeatLoop | tryCatch | wasmModule => .script
  | wasmFunction => .module
  | wasmBlock | wasmLoop | wasmIf => .function

/-- The blocks that direct control inside a function. -/
def isControl : BlockKind → Bool
  | wasmBlock | wasmLoop | wasmIf => true
  | _ => false

end BlockKind

/-- The contexts that positions in a world provide. -/
def World.Provides : World → Context → Prop
  | script, c => c.bits = 1 ∨ c.bits = 3 ∨ c.bits = 5 ∨ c.bits = 7
  | module, c => c = .wasmModule
  | function, c => c = .wasmFunction

namespace Operation

/-- The world that the operation belongs to. -/
def home (op : Operation) : World :=
  if op.requiredContext = .wasmModule then .module
  else if op.requiredContext = .wasmFunction then .function
  else .script

/-- The kind of the block that the operation opens or closes. -/
def kind (op : Operation) : BlockKind := op.blockKind?.getD .branch

/-- The world that the outputs of the operation belong to: that of the operation, unless it ends
a block. -/
def site (op : Operation) : World := if op.isBlockEnd then op.kind.outside else op.home

variable {op : Operation}

lemma blockKind?_of_isBlockEnd (h : op.isBlockEnd = true) : op.blockKind? = some op.kind := by
  cases op <;> first | rfl | cases h

lemma home_of_isBlockEnd (h : op.isBlockEnd = true) : op.home = op.kind.inside := by
  cases op <;> first | rfl | cases h

lemma site_of_isBlockStart (h : op.isBlockStart = true) : op.site = op.kind.outside := by
  cases op <;> first | rfl | cases h

lemma numInnerOutputs_of_not (h : op.isBlockStart = false) : op.numInnerOutputs = 0 := by
  cases op <;> first | rfl | cases h

lemma home_of_isBlockStart (h : op.isBlockStart = true) : op.home = op.kind.outside := by
  cases op <;> first | rfl | cases h

/-- The context inside the block that an operation opens. -/
lemma provides_innerContext (hs : op.isBlockStart = true) {c : Context}
    (hc : op.kind.outside.Provides c) : op.kind.inside.Provides (op.innerContext c) := by
  have hu : ∀ d : Context, World.script.Provides d → World.script.Provides (d.union .loop) := by
    rintro ⟨bits⟩ (rfl | rfl | rfl | rfl)
    · exact .inr (.inr (.inl rfl))
    · exact .inr (.inr (.inr rfl))
    · exact .inr (.inr (.inl rfl))
    · exact .inr (.inr (.inr rfl))
  cases op with
  | beginRepeatLoop n => exact hu c hc
  | beginPlainFunction n => exact .inr (.inl rfl)
  | beginIf | beginElse | beginTry | beginCatch =>
      exact hc
  | beginWasmModule | beginWasmFunction signature | wasmBeginBlock | wasmBeginLoop
  | wasmBeginIf | wasmBeginElse =>
      rfl
  | _ => cases hs

/-- **Where an operation stands**: a position that provides the context of an operation is in the
world of the operation, unless it ends a block of the script, which any position allows. -/
lemma eq_home_of_contains {w : World} {c : Context} (hw : w.Provides c)
    (hc : c.contains op.requiredContext = true) :
    w = op.home ∨ op.isBlockEnd = true ∧ op.home = .script := by
  have hr : op.isBlockEnd = true ∧ op.home = .script ∨
      op.requiredContext ∈ [.script, .subroutine, .loop, .wasmModule, .wasmFunction] := by
    cases op <;> first | exact .inl ⟨rfl, rfl⟩ | exact .inr (List.mem_of_elem_eq_true rfl)
  rcases hr with hr | hr
  · exact .inr hr
  · left
    unfold home
    revert hr hc
    generalize op.requiredContext = d
    intro hc hd
    have hs : ∀ bits : UInt8, bits = 1 ∨ bits = 3 ∨ bits = 5 ∨ bits = 7 →
        Context.contains ⟨bits⟩ d = true → d ≠ .wasmModule ∧ d ≠ .wasmFunction := by
      intro bits hb
      fin_cases hd <;> rcases hb with rfl | rfl | rfl | rfl <;> decide
    cases w with
    | script =>
        obtain ⟨h₁, h₂⟩ := hs c.bits hw hc
        rw [if_neg h₁, if_neg h₂]
    | module =>
        obtain rfl : c = .wasmModule := hw
        fin_cases hd <;> revert hc <;> decide
    | function =>
        obtain rfl : c = .wasmFunction := hw
        fin_cases hd <;> revert hc <;> decide

lemma eq_beginWasmModule (h : op.isBlockStart = true) (hk : op.kind.inside = .module) :
    op = .beginWasmModule := by
  cases op <;>
    first
    | rfl
    | cases (show World.script = .module from hk)
    | cases (show World.function = .module from hk)
    | cases h

lemma ne_endWasmModule (h : op.isBlockStart = true) : op ≠ .endWasmModule := by
  rintro rfl
  exact nomatch h

/-- Entities are declared in modules only. -/
lemma not_isDefinition_of_site (h : op.site ≠ .module) :
    op.isDefinition = false ∧ op.isImport = false := by
  cases op <;> first | exact ⟨rfl, rfl⟩ | exact absurd rfl h

lemma numOutputs_of_site (h : op.site = .module) :
    op.isDefinition = true ∨ op.isImport = true ∧ op.numInputs = 1 ∨ op.numOutputs = 0 := by
  cases op <;>
    first
    | exact .inl rfl
    | exact .inr (.inl ⟨rfl, rfl⟩)
    | exact .inr (.inr rfl)
    | cases (show World.script = .module from h)
    | cases (show World.function = .module from h)

end Operation

namespace Typer

variable {t : Typer} {op : Operation} {inputs : List Variable} {i : Instruction}

/-! ### What outputs are -/

lemma binaryOperator_resultType_isScriptValue {op : BinaryOperator} {lhs rhs : StaticType} :
    (op.resultType lhs rhs).isScriptValue = true := by
  unfold BinaryOperator.resultType
  split
  · rfl
  · rfl
  · split
    · rfl
    · split <;> rfl

lemma unaryOperator_resultType_isScriptValue {op : UnaryOperator} {input : StaticType} :
    (op.resultType input).isScriptValue = true := by
  unfold UnaryOperator.resultType
  split
  · rfl
  · split
    · rfl
    · split <;> rfl
  · split
    · rfl
    · split <;> rfl
  · split <;> rfl

lemma builtinType_isScriptValue {e : Environment} (h : e.IsScriptTyped) {name : String} :
    ((e.builtinType? name).getD .anything).isScriptValue = true := by
  cases hb : e.builtinType? name with
  | none => rfl
  | some type =>
      rw [Environment.builtinType?, NameMap.find?, Option.map_eq_some_iff] at hb
      obtain ⟨b, hb, rfl⟩ := hb
      exact h b (List.mem_of_find?_eq_some hb)

/-- Outputs in the script are values of the script. -/
theorem outputs_script (h : op.site = .script) (he : t.environment.IsScriptTyped) :
    ∀ type ∈ t.outputTypes op inputs, type.isScriptValue = true := by
  intro type htype
  cases op with
  | loadBuiltin name =>
      rw [List.eq_of_mem_replicate htype]
      exact builtinType_isScriptValue he
  | binaryOperation op =>
      rw [List.eq_of_mem_replicate htype]
      exact binaryOperator_resultType_isScriptValue
  | unaryOperation op =>
      rw [List.eq_of_mem_replicate htype]
      exact unaryOperator_resultType_isScriptValue
  | construct n guarded =>
      rw [List.eq_of_mem_replicate htype]
      cases guarded <;> rfl
  | instantiateWasm n =>
      rw [List.eq_of_mem_replicate htype]
      unfold resultType
      dsimp only
      split <;> rfl
  | endWasmModule =>
      simp only [outputTypes, List.mem_cons, List.not_mem_nil, or_false] at htype
      rcases htype with rfl | rfl <;> rfl
  | _ =>
      first
      | (rw [List.eq_of_mem_replicate htype]; rfl)
      | cases (show World.module = .script from h)
      | cases (show World.function = .script from h)

/-- Outputs in functions are values of functions. -/
theorem outputs_function (h : op.site = .function) {function : Option FunctionSignature}
    (ha : op.acceptsInputs (inputs.map t.typeOf) function = true) :
    ∀ type ∈ t.outputTypes op inputs, type.isAnyWasmValue = true := by
  intro type htype
  cases op with
  | wasmCallFunction signature =>
      obtain ⟨u, -, rfl⟩ := List.mem_map.mp (show type ∈ signature.results.map .wasm from htype)
      rfl
  | wasmLoadGlobal =>
      obtain ⟨u, isMutable, hu⟩ := Operation.accepts_loadGlobal ha
      obtain ⟨v, rfl, hv⟩ := List.map_eq_singleton_iff.mp hu
      rw [List.eq_of_mem_replicate htype]
      unfold resultType
      dsimp only
      simp [hv, StaticType.isAnyWasmValue]
  | wasmTableGet =>
      obtain ⟨u, least, most, hu⟩ := Operation.accepts_tableGet ha
      obtain ⟨v, rest, rfl, hv, -⟩ := List.map_eq_cons_iff.mp hu
      rw [List.eq_of_mem_replicate htype]
      unfold resultType
      dsimp only
      simp [hv, StaticType.isAnyWasmValue]
  | _ =>
      first
      | exact absurd (show type ∈ [] from htype) List.not_mem_nil
      | (rw [List.eq_of_mem_replicate htype]; rfl)
      | cases (show World.module = .function from h)
      | cases (show World.script = .function from h)

/-- The variables inside a block are values of the script, or values of a function, or labels. -/
lemma innerOutputTypes_of_mem {n : Nat} {type : StaticType}
    (ht : type ∈ innerOutputTypes op n) :
    op.kind.inside = .script ∧ type.isScriptValue = true ∨
      op.kind.inside = .function ∧ (type.isAnyWasmValue = true ∨ type = .label) := by
  cases op with
  | beginPlainFunction m =>
      rw [List.eq_of_mem_replicate ht]
      exact .inl ⟨rfl, rfl⟩
  | beginRepeatLoop m | beginCatch =>
      rw [List.mem_singleton.mp ht]
      exact .inl ⟨rfl, rfl⟩
  | beginWasmFunction signature =>
      obtain ⟨u, -, rfl⟩ := List.mem_map.mp (show type ∈ signature.params.map .wasm from ht)
      exact .inr ⟨rfl, .inl rfl⟩
  | _ =>
      first
      | exact absurd (show type ∈ [] from ht) List.not_mem_nil
      | exact .inr ⟨rfl, .inr (List.mem_singleton.mp ht)⟩

/-- What declares an entity of a module gets the type of one. -/
lemma resultType_of_isDefinition_or_isImport
    (h : op.isDefinition = true ∨ op.isImport = true) :
    ∃ entity, t.resultType op inputs = .wasmEntity entity := by
  have hi : ∀ (source : Option Variable) (default : EntityType),
      ∃ entity, t.importedEntity source default = .wasmEntity entity := by
    intro source default
    unfold importedEntity
    split
    · split
      · exact ⟨_, rfl⟩
      · exact ⟨_, rfl⟩
    · exact ⟨_, rfl⟩
  cases op with
  | wasmImportGlobal | wasmImportTable | wasmImportMemory => exact hi _ _
  | _ =>
      first
      | exact ⟨_, rfl⟩
      | exact absurd h (not_or.mpr ⟨Bool.false_ne_true, Bool.false_ne_true⟩)

/-- Outside of modules nothing is declared. -/
lemma declared_of_site (h : i.operation.site ≠ .module) : t.declared i = [] := by
  obtain ⟨h₁, h₂⟩ := Operation.not_isDefinition_of_site h
  unfold declared
  split
  · rfl
  · exact Operation.entries_of_not h₁ h₂

/-- Outputs in modules are the variables of the entities that are declared. -/
theorem outputs_module (h : i.operation.site = .module) (ha : i.hasConsistentArity = true)
    (hn : i.definedVariables.Nodup) :
    (t.declared i).map (·.var) = i.outputs ∧
      ∀ e ∈ t.declared i, (t.apply i).typeOf e.var = .wasmEntity e.entity := by
  obtain ⟨hi, ho, -⟩ := Instruction.hasConsistentArity_iff.mp ha
  have hne : i.operation ≠ .endWasmModule := by
    intro he
    rw [he] at h
    exact nomatch (show World.script = .module from h)
  by_cases he : i.operation.isDefinition = true ∨ i.operation.isImport = true
  · obtain ⟨entity, hr⟩ : ∃ entity, t.resultType i.operation i.inputs = .wasmEntity entity :=
      resultType_of_isDefinition_or_isImport he
    have hm := map_typeOf_outputs ha hn hne (t := t)
    rw [outputTypes_of_isDefinition_or_isImport he, hr] at hm
    obtain ⟨v, hv, htv⟩ := List.map_eq_singleton_iff.mp hm
    have hd : ∃ source, t.declared i = [⟨v, entity, source⟩] := by
      unfold declared Instruction.output?
      rw [hv, hr]
      simp only [List.head?_cons, Operation.entries, StaticType.entity?]
      by_cases hdef : i.operation.isDefinition = true
      · rw [if_pos hdef]
        exact ⟨_, rfl⟩
      · rw [if_neg hdef, if_pos (he.resolve_left hdef)]
        rcases Operation.numOutputs_of_site h with h | ⟨-, h⟩ | h
        · exact absurd h hdef
        · obtain ⟨source, hs⟩ := List.length_eq_one_iff.mp (hi.trans h)
          exact ⟨some source, by rw [hs]; rfl⟩
        · rw [hv, h] at ho
          exact nomatch ho
    obtain ⟨source, hd⟩ := hd
    simp [hd, hv, htv]
  · rw [not_or, Bool.not_eq_true, Bool.not_eq_true] at he
    rcases Operation.numOutputs_of_site h with h | ⟨h, -⟩ | h
    · rw [he.1] at h
      exact nomatch h
    · rw [he.2] at h
      exact nomatch h
    · rw [h, List.length_eq_zero_iff] at ho
      simp [declared, Instruction.output?, ho]

end Typer

end EngineFuzz
