import Mathlib
import EngineFuzz.Proofs.Validation.FunctionBlocks

/-!
# The ends of functions

A function is begun with a signature and ended with one.  The validator compares the operands of
the end with the signature of the end, and the operand of a return with the first result of the
signature of the beginning; the two signatures it does not compare.

* `FunctionSpan.Agrees`: the function ends as it began, and every return gives all its results.
* `FunctionSpan.types_of_return`, `FunctionSpan.types_of_last`: what the validator does ensure.
* `FunctionSpan.agrees_iff`: exactly which functions of accepted programs agree.
* `disagreeing_not_agrees`, `shortReturn_not_agrees`: accepted programs with functions that do not.
-/

namespace EngineFuzz

/-- The types behind instructions. -/
def Typer.behind (e : Environment) (is : List Instruction) : Typer := is.foldl apply (.start e)

/-- The typer of the validator is that behind the instructions. -/
lemma Validator.Steps.typer_eq {s s' : Validator} {is : List Instruction} (h : Steps s is s') :
    s'.typer = is.foldl Typer.apply s.typer := by
  induction h with
  | nil s => rfl
  | cons head tail ih =>
      obtain ⟨next, -, rfl⟩ := step_eq_ok_iff.mp head
      exact ih

/-- Whether the operation returns from a function before its end. -/
def Operation.isWasmReturn : Operation → Bool
  | wasmReturn _ => true
  | _ => false

/-- A function of a program: its first instruction and the next one that ends a function. -/
structure FunctionSpan (p : Program) where
  before : List Instruction
  first : Instruction
  inside : List Instruction
  last : Instruction
  after : List Instruction
  /-- The signature of the first instruction. -/
  opener : FunctionSignature
  /-- The signature of the last instruction. -/
  closer : FunctionSignature
  first_operation : first.operation = .beginWasmFunction opener
  last_operation : last.operation = .endWasmFunction closer
  open_inside : ∀ i ∈ inside, i.operation.endsFunction = false
  instructions_eq : p.instructions = before ++ first :: (inside ++ last :: after)

namespace FunctionSpan

variable {p : Program} {e : Environment}

/-- The function ends with the signature that it began with, and each return inside has one operand
for each result, of the type of the result. -/
def Agrees (f : FunctionSpan p) (e : Environment) : Prop :=
  f.closer = f.opener ∧ ∀ earlier i later, f.inside = earlier ++ i :: later →
    i.operation.isWasmReturn = true →
      i.inputs.map (Typer.behind e (f.before ++ f.first :: earlier)).typeOf =
        f.opener.results.map .wasm

/-- The validator at the function: in front of it, behind its first instruction, and in front of
its last one. -/
lemma exists_steps (f : FunctionSpan p) (h : p.validate e = .ok ()) : ∃ s s₁ s₂ s₃ : Validator,
    Validator.Steps (.start e) f.before s ∧ s.step f.first = .ok s₁ ∧
      Validator.Steps s₁ f.inside s₂ ∧ s₂.step f.last = .ok s₃ ∧ s.scopes.Placed ∧
        s₁.scopes.InFunction [] (ScopeState.functionBlock f.opener) s.scopes.blocks := by
  obtain ⟨s', hs', -⟩ := Program.validate_eq_ok_iff.mp h
  rw [f.instructions_eq, Validator.steps_append_iff] at hs'
  obtain ⟨s, hbefore, hs'⟩ := hs'
  obtain ⟨s₁, hfirst, hs'⟩ := Validator.steps_cons_iff.mp hs'
  obtain ⟨s₂, hinside, hs'⟩ := Validator.steps_append_iff.mp hs'
  obtain ⟨s₃, hlast, -⟩ := Validator.steps_cons_iff.mp hs'
  refine ⟨s, s₁, s₂, s₃, hbefore, hfirst, hinside, hlast,
    hbefore.placed Validator.placed_start, ?_⟩
  obtain ⟨next, -, rfl⟩ := Validator.step_eq_ok_iff.mp hfirst
  exact ScopeState.inFunction_apply_beginWasmFunction f.first_operation

/-- A return has an operand for the first result only. -/
theorem types_of_return (f : FunctionSpan p) (h : p.validate e = .ok ())
    {earlier later : List Instruction} {i : Instruction} (hi : f.inside = earlier ++ i :: later)
    (hr : i.operation.isWasmReturn = true) :
    i.inputs.map (Typer.behind e (f.before ++ f.first :: earlier)).typeOf =
      f.opener.result.toList.map .wasm := by
  obtain ⟨s, s₁, s₂, s₃, hbefore, hfirst, hinside, -, hp, hf⟩ := f.exists_steps h
  rw [hi, Validator.steps_append_iff] at hinside
  obtain ⟨m, hearlier, hlater⟩ := hinside
  obtain ⟨m', hstep, -⟩ := Validator.steps_cons_iff.mp hlater
  obtain ⟨⟨inner, hin⟩, -⟩ := hearlier.exists_inFunction (Validator.placed_of_step hp hfirst) hf
    fun j hj =>
    f.open_inside j (by rw [hi]; exact List.mem_append_left _ hj)
  have ht : m.typer = Typer.behind e (f.before ++ f.first :: earlier) :=
    (Validator.steps_append_iff.mpr ⟨s, hbefore, .cons hfirst hearlier⟩).typer_eq
  obtain ⟨next, ha, -⟩ := Validator.step_eq_ok_iff.mp hstep
  obtain ⟨hasValue, hop⟩ : ∃ b, i.operation = .wasmReturn b := by
    cases hop : i.operation <;> rw [hop] at hr <;>
      first | exact ⟨_, rfl⟩ | exact absurd hr Bool.false_ne_true
  have hin' := ha.inputs
  rw [hop, hin.currentFunction?] at hin'
  obtain ⟨signature, hs, hts, -⟩ := Operation.accepts_return hin'
  obtain rfl : f.opener = signature := Option.some.inj hs
  rw [← ht]
  exact hts

/-- The last instruction has an operand for each result of its own signature. -/
theorem types_of_last (f : FunctionSpan p) (h : p.validate e = .ok ()) :
    f.last.inputs.map (Typer.behind e (f.before ++ f.first :: f.inside)).typeOf =
      f.closer.results.map .wasm := by
  obtain ⟨s, s₁, s₂, s₃, hbefore, hfirst, hinside, hlast, -, -⟩ := f.exists_steps h
  have ht : s₂.typer = Typer.behind e (f.before ++ f.first :: f.inside) :=
    (Validator.steps_append_iff.mpr ⟨s, hbefore, .cons hfirst hinside⟩).typer_eq
  obtain ⟨next, ha, -⟩ := Validator.step_eq_ok_iff.mp hlast
  have hin := ha.inputs
  have hl := (Instruction.hasConsistentArity_iff.mp ha.arity).1
  rw [f.last_operation] at hin hl
  rw [← ht]
  exact Operation.accepts_end ((List.length_map _).trans hl) hin

/-- **Functions that agree**: in an accepted program the end of a function agrees with its
beginning exactly if both have the same signature and the function has at most one result, unless
it has no return inside. -/
theorem agrees_iff (f : FunctionSpan p) (h : p.validate e = .ok ()) :
    f.Agrees e ↔ f.closer = f.opener ∧
      ((∃ i ∈ f.inside, i.operation.isWasmReturn = true) → f.opener.results.length ≤ 1) := by
  have hone : f.opener.result.toList = f.opener.results ↔ f.opener.results.length ≤ 1 := by
    rw [FunctionSignature.result]
    rcases f.opener.results with _ | ⟨type, _ | ⟨type', types⟩⟩ <;> simp
  refine and_congr_right fun _ => ⟨?_, ?_⟩
  · rintro hall ⟨i, hi, hr⟩
    obtain ⟨earlier, later, hsplit⟩ := List.append_of_mem hi
    have hts := hall earlier i later hsplit hr
    rw [f.types_of_return h hsplit hr] at hts
    exact hone.mp (List.map_injective_iff.mpr (fun _ _ h => StaticType.wasm.inj h) hts)
  · intro hle earlier i later hsplit hr
    have hi : i ∈ f.inside := by
      rw [hsplit]
      exact List.mem_append_right _ (List.mem_cons_self ..)
    rw [f.types_of_return h hsplit hr, hone.mpr (hle ⟨i, hi, hr⟩)]

end FunctionSpan

/-! ### A function that agrees -/

/-- A program with a function that adds one to an integer. -/
def successor : Program := .ofInstructions [
  ⟨.beginWasmModule, [], [], []⟩,
  ⟨.beginWasmFunction ⟨[.i32], [.i32]⟩, [], [], [⟨0⟩]⟩,
  ⟨.wasmConst (.i32 1), [], [⟨1⟩], []⟩,
  ⟨.wasmIntBinary .bits32 .add, [⟨0⟩, ⟨1⟩], [⟨2⟩], []⟩,
  ⟨.wasmReturn true, [⟨2⟩], [], []⟩,
  ⟨.endWasmFunction ⟨[.i32], [.i32]⟩, [⟨2⟩], [⟨3⟩], []⟩,
  ⟨.endWasmModule, [], [⟨4⟩, ⟨5⟩], []⟩]

lemma validate_successor (e : Environment) : successor.validate e = .ok () := by
  rw [Program.validate_eq_ok_iff]
  refine ⟨_, .cons (Validator.step_mk rfl (by simp) (by decide) rfl rfl rfl)
    (.cons (Validator.step_mk rfl (by simp) (by decide) rfl rfl rfl)
    (.cons (Validator.step_mk rfl (by simp) (by decide) rfl rfl rfl)
    (.cons (Validator.step_mk rfl ?_ (by decide) ?_ rfl rfl)
    (.cons (Validator.step_mk rfl ?_ (by decide) ?_ rfl rfl)
    (.cons (Validator.step_mk rfl ?_ (by decide) ?_ rfl rfl)
    (.cons (Validator.step_mk rfl (by simp) (by decide) rfl rfl ?_)
    (.nil _))))))), rfl⟩
  · intro v hv
    rcases List.mem_pair.mp hv with rfl | rfl
    · exact ScopeState.isVisible_apply_of_isVisible
        (ScopeState.isVisible_apply_of_mem (by decide) (by decide)) rfl
    · exact ScopeState.isVisible_apply_of_mem (by decide) (by decide)
  · rw [List.map_cons, List.map_cons, Typer.typeOf_apply_of_not_mem (v := ⟨0⟩) (by decide),
      Typer.typeOf_apply_of_innerOutputs rfl (by decide) (by decide) rfl rfl,
      Typer.typeOf_apply_of_outputs rfl (by decide) (by decide) rfl rfl]
    rfl
  · intro v hv
    rw [List.mem_singleton.mp hv]
    exact ScopeState.isVisible_apply_of_mem (by decide) (by decide)
  · rw [List.map_cons, Typer.typeOf_apply_of_outputs rfl (by decide) (by decide) rfl rfl]
    rfl
  · intro v hv
    rw [List.mem_singleton.mp hv]
    exact ScopeState.isVisible_apply_of_isVisible
      (ScopeState.isVisible_apply_of_mem (by decide) (by decide)) rfl
  · rw [List.map_cons, Typer.typeOf_apply_of_not_mem (by decide),
      Typer.typeOf_apply_of_outputs rfl (by decide) (by decide) rfl rfl]
    rfl
  · unfold Validator.checkImports
    rw [Typer.currentModule?]
    repeat rw [Typer.modules_apply rfl (by decide) (by decide) (by decide)]
    rw [Typer.modules_apply_beginWasmModule rfl]
    rfl

/-- The function of the program. -/
def successorSpan : FunctionSpan successor where
  before := [⟨.beginWasmModule, [], [], []⟩]
  first := ⟨.beginWasmFunction ⟨[.i32], [.i32]⟩, [], [], [⟨0⟩]⟩
  inside := [
    ⟨.wasmConst (.i32 1), [], [⟨1⟩], []⟩,
    ⟨.wasmIntBinary .bits32 .add, [⟨0⟩, ⟨1⟩], [⟨2⟩], []⟩,
    ⟨.wasmReturn true, [⟨2⟩], [], []⟩]
  last := ⟨.endWasmFunction ⟨[.i32], [.i32]⟩, [⟨2⟩], [⟨3⟩], []⟩
  after := [⟨.endWasmModule, [], [⟨4⟩, ⟨5⟩], []⟩]
  opener := ⟨[.i32], [.i32]⟩
  closer := ⟨[.i32], [.i32]⟩
  first_operation := rfl
  last_operation := rfl
  open_inside := by decide
  instructions_eq := rfl

theorem successorSpan_agrees : successorSpan.Agrees .script :=
  (successorSpan.agrees_iff (validate_successor .script)).mpr ⟨rfl, fun _ => by decide⟩

/-! ### A module with entities of all categories -/

/-- A program with a module that imports and defines globals, functions, memories and tables.  Its
function passes an element of a table on, calls the script and stores what it gets. -/
def ledger : Program := .ofInstructions [
  ⟨.createWasmMemory 1 (some 2) false, [], [⟨0⟩], []⟩,
  ⟨.createWasmGlobal (.i32 5) true, [], [⟨1⟩], []⟩,
  ⟨.createWasmTable .externRef 3 none, [], [⟨2⟩], []⟩,
  ⟨.beginPlainFunction 1, [], [⟨3⟩], [⟨4⟩]⟩,
  ⟨.returnValue true, [⟨4⟩], [], []⟩,
  ⟨.endPlainFunction, [], [], []⟩,
  ⟨.beginWasmModule, [], [], []⟩,
  ⟨.wasmImportGlobal, [⟨1⟩], [⟨5⟩], []⟩,
  ⟨.wasmDefineGlobal (.i64 7) false, [], [⟨6⟩], []⟩,
  ⟨.wasmImportFunction ⟨[.i32], [.i32]⟩, [⟨3⟩], [⟨7⟩], []⟩,
  ⟨.wasmImportMemory, [⟨0⟩], [⟨8⟩], []⟩,
  ⟨.wasmDefineMemory 1 none, [], [⟨9⟩], []⟩,
  ⟨.wasmImportTable, [⟨2⟩], [⟨10⟩], []⟩,
  ⟨.wasmDefineTable .funcRef 1 (some 2), [], [⟨11⟩], []⟩,
  ⟨.beginWasmFunction ⟨[.i32], [.i32]⟩, [], [], [⟨12⟩]⟩,
  ⟨.wasmTableGet, [⟨10⟩, ⟨12⟩], [⟨13⟩], []⟩,
  ⟨.wasmTableSet, [⟨10⟩, ⟨12⟩, ⟨13⟩], [], []⟩,
  ⟨.wasmCallFunction ⟨[.i32], [.i32]⟩, [⟨7⟩, ⟨12⟩], [⟨14⟩], []⟩,
  ⟨.wasmIntBinary .bits32 .divS, [⟨14⟩, ⟨12⟩], [⟨15⟩], []⟩,
  ⟨.wasmMemoryStore .i32 4, [⟨9⟩, ⟨12⟩, ⟨15⟩], [], []⟩,
  ⟨.wasmLoadGlobal, [⟨5⟩], [⟨16⟩], []⟩,
  ⟨.wasmStoreGlobal, [⟨5⟩, ⟨15⟩], [], []⟩,
  ⟨.endWasmFunction ⟨[.i32], [.i32]⟩, [⟨16⟩], [⟨17⟩], []⟩,
  ⟨.endWasmModule, [], [⟨18⟩, ⟨19⟩], []⟩]

lemma validate_ledger : ledger.validate .script = .ok () := by decide +kernel

/-! ### Functions that do not agree -/

/-- A program with a function that takes an integer and ends as one that takes nothing. -/
def disagreeing : Program := .ofInstructions [
  ⟨.beginWasmModule, [], [], []⟩,
  ⟨.beginWasmFunction ⟨[.i32], []⟩, [], [], [⟨0⟩]⟩,
  ⟨.endWasmFunction ⟨[], []⟩, [], [⟨1⟩], []⟩,
  ⟨.endWasmModule, [], [⟨2⟩, ⟨3⟩], []⟩]

/-- **An accepted program whose function does not end as it began.** -/
theorem disagreeing_not_agrees :
    disagreeing.validate .script = .ok () ∧ ∃ f : FunctionSpan disagreeing, ¬ f.Agrees .script := by
  refine ⟨?_, {
    before := [⟨.beginWasmModule, [], [], []⟩]
    first := ⟨.beginWasmFunction ⟨[.i32], []⟩, [], [], [⟨0⟩]⟩
    inside := []
    last := ⟨.endWasmFunction ⟨[], []⟩, [], [⟨1⟩], []⟩
    after := [⟨.endWasmModule, [], [⟨2⟩, ⟨3⟩], []⟩]
    opener := ⟨[.i32], []⟩
    closer := ⟨[], []⟩
    first_operation := rfl
    last_operation := rfl
    open_inside := by decide
    instructions_eq := rfl }, fun h => absurd h.1 (by decide)⟩
  rw [Program.validate_eq_ok_iff]
  refine ⟨_, .cons (Validator.step_mk rfl (by simp) (by decide) rfl rfl rfl)
    (.cons (Validator.step_mk rfl (by simp) (by decide) rfl rfl rfl)
    (.cons (Validator.step_mk rfl (by simp) (by decide) rfl rfl rfl)
    (.cons (Validator.step_mk rfl (by simp) (by decide) rfl rfl ?_) (.nil _)))), rfl⟩
  unfold Validator.checkImports
  rw [Typer.currentModule?]
  repeat rw [Typer.modules_apply rfl (by decide) (by decide) (by decide)]
  rw [Typer.modules_apply_beginWasmModule rfl]
  rfl

/-- A program with a function of two results that returns one. -/
def shortReturn : Program := .ofInstructions [
  ⟨.beginWasmModule, [], [], []⟩,
  ⟨.beginWasmFunction ⟨[.i32], [.i32, .i32]⟩, [], [], [⟨0⟩]⟩,
  ⟨.wasmReturn true, [⟨0⟩], [], []⟩,
  ⟨.endWasmFunction ⟨[.i32], [.i32, .i32]⟩, [⟨0⟩, ⟨0⟩], [⟨1⟩], []⟩,
  ⟨.endWasmModule, [], [⟨2⟩, ⟨3⟩], []⟩]

/-- **An accepted program whose function returns too few results.** -/
theorem shortReturn_not_agrees :
    shortReturn.validate .script = .ok () ∧ ∃ f : FunctionSpan shortReturn, ¬ f.Agrees .script := by
  refine ⟨?_, {
    before := [⟨.beginWasmModule, [], [], []⟩]
    first := ⟨.beginWasmFunction ⟨[.i32], [.i32, .i32]⟩, [], [], [⟨0⟩]⟩
    inside := [⟨.wasmReturn true, [⟨0⟩], [], []⟩]
    last := ⟨.endWasmFunction ⟨[.i32], [.i32, .i32]⟩, [⟨0⟩, ⟨0⟩], [⟨1⟩], []⟩
    after := [⟨.endWasmModule, [], [⟨2⟩, ⟨3⟩], []⟩]
    opener := ⟨[.i32], [.i32, .i32]⟩
    closer := ⟨[.i32], [.i32, .i32]⟩
    first_operation := rfl
    last_operation := rfl
    open_inside := by decide
    instructions_eq := rfl }, fun h => ?_⟩
  · rw [Program.validate_eq_ok_iff]
    refine ⟨_, .cons (Validator.step_mk rfl (by simp) (by decide) rfl rfl rfl)
      (.cons (Validator.step_mk rfl (by simp) (by decide) rfl rfl rfl)
      (.cons (Validator.step_mk rfl ?_ (by decide) ?_ rfl rfl)
      (.cons (Validator.step_mk rfl ?_ (by decide) ?_ rfl rfl)
      (.cons (Validator.step_mk rfl (by simp) (by decide) rfl rfl ?_) (.nil _))))), rfl⟩
    · intro v hv
      rw [List.mem_singleton.mp hv]
      exact ScopeState.isVisible_apply_of_mem (by decide) (by decide)
    · rw [List.map_cons, Typer.typeOf_apply_of_innerOutputs rfl (by decide) (by decide) rfl rfl]
      rfl
    · intro v hv
      obtain rfl : v = ⟨0⟩ := by simpa using hv
      exact ScopeState.isVisible_apply_of_isVisible
        (ScopeState.isVisible_apply_of_mem (by decide) (by decide)) rfl
    · rw [List.map_cons, List.map_cons, Typer.typeOf_apply_of_not_mem (by decide),
        Typer.typeOf_apply_of_innerOutputs rfl (by decide) (by decide) rfl rfl]
      rfl
    · unfold Validator.checkImports
      rw [Typer.currentModule?]
      repeat rw [Typer.modules_apply rfl (by decide) (by decide) (by decide)]
      rw [Typer.modules_apply_beginWasmModule rfl]
      rfl
  · have hl := congrArg List.length (h.2 [] _ [] rfl rfl)
    simp at hl

end EngineFuzz
