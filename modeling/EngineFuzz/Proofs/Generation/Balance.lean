import Mathlib
import EngineFuzz.Generation.Run
import EngineFuzz.Proofs.Generation.Building
import EngineFuzz.Proofs.Generation.Drawing
import EngineFuzz.Proofs.Validation.Grammar

/-!
# Balanced code

What a computation appends opens and closes its own blocks and defines the next free variables.
This needs no knowledge of the program in front of it, so that it holds of faulty programs too.  On
the way it is seen that nested computations matter only where generators and depth are the same.

* `Balanced`: code whose blocks are all closed.
* `Builder.Emits`: code that is appended with fresh variables.
* `Builder.frame`: what a computation reads and leaves as it was.
* `Build.Inserts`: two computations that do the same at builders with a frame, which is to append
  balanced code, with a rule for each way to make one from others.
-/

namespace EngineFuzz

/-! ### Blocks that are closed -/

/-- Statements and closed blocks in any order.  The blocks need not fit the place where they
stand. -/
inductive Balanced : List Instruction → Prop where
  | nil : Balanced []
  | statement {i : Instruction} {is : List Instruction} (kind : i.operation.statement?.isSome)
      (rest : Balanced is) : Balanced (i :: is)
  | block {r inner : Region} {first last : Instruction} {body is : List Instruction}
      (production : r.Block first.operation inner last.operation) (inside : Balanced body)
      (rest : Balanced is) : Balanced (first :: (body ++ last :: is))
  | twoParts {r : Region} {first middle last : Instruction} {body body' is : List Instruction}
      (production : r.TwoParts first.operation middle.operation last.operation)
      (inside : Balanced body) (inside' : Balanced body') (rest : Balanced is) :
      Balanced (first :: (body ++ middle :: (body' ++ last :: is)))

namespace Balanced

variable {is js : List Instruction}

lemma append (h : Balanced is) (h' : Balanced js) : Balanced (is ++ js) := by
  induction h with
  | nil => exact h'
  | statement kind _ ih => exact .statement kind ih
  | block production inside _ _ ih =>
      rw [List.cons_append, List.append_assoc, List.cons_append]
      exact .block production inside ih
  | twoParts production inside inside' _ _ _ ih =>
      rw [List.cons_append, List.append_assoc, List.cons_append, List.append_assoc,
        List.cons_append]
      exact .twoParts production inside inside' ih

end Balanced

/-! ### Code with fresh variables -/

namespace Builder

variable {b b' b'' : Builder} {i : Instruction} {op : Operation} {inputs : List Variable}
  {code code' : List Instruction} {n : ℕ}

/-- The code is appended, and its variables are the next ones. -/
structure Emits (b b' : Builder) (code : List Instruction) : Prop where
  instructions : b'.instructions.toList = b.instructions.toList ++ code
  defined : code.flatMap (·.definedVariables) =
    freshVariables b.nextVariable (code.flatMap (·.definedVariables)).length
  next : b'.nextVariable =
    b.nextVariable + (code.flatMap (·.definedVariables)).length.toUInt32

namespace Emits

lemma nil (hi : b'.instructions = b.instructions) (hn : b'.nextVariable = b.nextVariable) :
    b.Emits b' [] where
  instructions := by rw [hi, List.append_nil]
  defined := rfl
  next := by simp [hn]

lemma trans (h : b.Emits b' code) (h' : b'.Emits b'' code') : b.Emits b'' (code ++ code') where
  instructions := by rw [h'.instructions, h.instructions, List.append_assoc]
  defined := by
    rw [List.flatMap_append, List.length_append, freshVariables_add, ← h.defined, ← h.next,
      ← h'.defined]
  next := by
    rw [h'.next, h.next, List.flatMap_append, List.length_append, Nat.toUInt32_eq,
      Nat.toUInt32_eq, Nat.toUInt32_eq, UInt32.ofNat_add, UInt32.add_assoc]

end Emits

/-- An instruction that defines the next variables. -/
lemma emits_append (h : i.definedVariables = freshVariables b.nextVariable n) :
    b.Emits (b.append i) [i] := by
  have hcount : ([i].flatMap (·.definedVariables)) = freshVariables b.nextVariable n := by
    rw [List.flatMap_singleton, h]
  refine ⟨toList_instructions_append, ?_, ?_⟩
  · rw [hcount, length_freshVariables]
  · rw [hcount, length_freshVariables]
    change nextAfter b.nextVariable i.definedVariables = _
    rw [h]
    exact nextAfter_eq checkFresh_freshVariables

lemma emits_emit : b.Emits (b.emit op inputs).2 [b.emitted op inputs] :=
  emits_append definedVariables_emitted

/-! ### What a computation does not change -/

/-- What computations read and leave as it was: the toolbox, the generators that take part, the
depth of nesting, and the names of adopted variables. -/
structure Frame where
  toolbox : Toolbox
  generators : WeightedList Generator
  depth : ℕ
  newNames : Std.TreeMap Variable Variable

/-- What a computation finds unchanged in the end. -/
def frame (b : Builder) : Frame := ⟨b.toolbox, b.generators, b.recursionDepth, b.newNames⟩

/-- The second builder has some balanced code more. -/
def Gains (b b' : Builder) : Prop := ∃ code, b.Emits b' code ∧ Balanced code

lemma Gains.nil (hi : b'.instructions = b.instructions) (hn : b'.nextVariable = b.nextVariable) :
    b.Gains b' := ⟨[], .nil hi hn, .nil⟩

lemma Gains.refl : b.Gains b := .nil rfl rfl

lemma Gains.trans (h : b.Gains b') (h' : b'.Gains b'') : b.Gains b'' := by
  obtain ⟨code, he, hc⟩ := h
  obtain ⟨code', he', hc'⟩ := h'
  exact ⟨code ++ code', he.trans he', hc.append hc'⟩

/-- A builder that has not more instructions has the same ones. -/
lemma Gains.instructions_eq (h : b.Gains b') (hs : b'.size ≤ b.size) :
    b'.instructions = b.instructions := by
  obtain ⟨code, he, -⟩ := h
  have hl := congrArg List.length he.instructions
  rw [List.length_append, Array.length_toList, Array.length_toList] at hl
  rw [size, size] at hs
  have hcode : code = [] := List.length_eq_zero_iff.mp (by omega)
  have hi := he.instructions
  rw [hcode, List.append_nil] at hi
  exact Array.toList_inj.mp hi

end Builder

/-! ### Computations that insert code -/

namespace Build

open Builder

variable {α β : Type} {f : Frame} {m m' : Build α} {k k' : α → Build β} {b : Builder}
  {op : Operation} {inputs : List Variable} {v : Variable} {n : ℕ}

/-- At builders with the frame the two computations do the same: they append balanced code and leave
the frame as it was. -/
def Inserts (f : Frame) (m m' : Build α) : Prop :=
  ∀ b : Builder, b.frame = f → m b = m' b ∧ (m b).2.frame = f ∧ b.Gains (m b).2

namespace Inserts

lemma pure {a : α} : Inserts f (pure a) (pure a) := fun _ hf => ⟨rfl, hf, .refl⟩

/-- **One computation after another.** -/
theorem bind (hm : Inserts f m m') (hk : ∀ a, Inserts f (k a) (k' a)) :
    Inserts f (m >>= k) (m' >>= k') := by
  intro b hf
  obtain ⟨heq, hframe, hgains⟩ := hm b hf
  obtain ⟨heq', hframe', hgains'⟩ := hk (m b).1 (m b).2 hframe
  rw [bind_apply, bind_apply, ← heq]
  exact ⟨heq', hframe', hgains.trans hgains'⟩

/-- The result is dropped. -/
lemma drop (hm : Inserts f m m') :
    Inserts f (m >>= fun _ => Pure.pure PUnit.unit) (m' >>= fun _ => Pure.pure PUnit.unit) :=
  hm.bind fun _ => .pure

/-- A computation that only draws. -/
lemma of_draws {P : Builder → α → Prop} (h : ∀ b, Draws m b (P b)) : Inserts f m m := by
  intro b hf
  obtain ⟨-, words, hw⟩ := h b
  rw [hw]
  exact ⟨rfl, hf, .nil rfl rfl⟩

/-- Draws in front of a computation. -/
lemma draws {P : Builder → α → Prop} (h : ∀ b, Draws m b (P b))
    (hk : ∀ a, Inserts f (k a) (k' a)) : Inserts f (m >>= k) (m >>= k') := (of_draws h).bind hk

lemma draw {d : Draw α} : Inserts f (liftM d : Build α) (liftM d) := .of_draws fun _ => draws_any

lemma look {g : Builder → α} : Inserts f (look g) (look g) := fun _ hf => ⟨rfl, hf, .refl⟩

lemma typeOf : Inserts f (typeOf v) (typeOf v) := fun _ hf => ⟨rfl, hf, .refl⟩

lemma randomVariable {accepts : StaticType → Bool} :
    Inserts f (randomVariable accepts) (randomVariable accepts) :=
  .of_draws fun _ => draws_randomVariable

/-- The search for a variable and what is done with or without one. -/
lemma found {accepts : StaticType → Bool} {k k' : Option Variable → Build α}
    (hnone : Inserts f (k none) (k' none)) (hsome : ∀ v, Inserts f (k (some v)) (k' (some v))) :
    Inserts f (Build.randomVariable accepts >>= k) (Build.randomVariable accepts >>= k') := by
  refine randomVariable.bind fun found? => ?_
  cases found? with
  | none => exact hnone
  | some v => exact hsome v

lemma randomOfType {type : StaticType} : Inserts f (randomOfType type) (randomOfType type) :=
  randomVariable

lemma hide : Inserts f (hide v) (hide v) := fun _ hf => ⟨rfl, hf, .nil rfl rfl⟩

/-- A statement with one output. -/
lemma value (h : op.statement?.isSome) : Inserts f (value op inputs) (value op inputs) := by
  intro b hf
  refine ⟨rfl, hf, [⟨op, inputs, [⟨b.nextVariable⟩], []⟩], ?_, .statement h .nil⟩
  refine emits_append (n := 1) ?_
  rw [freshVariables_succ]
  rfl

/-- A statement. -/
lemma emit (h : op.statement?.isSome) : Inserts f (emit op inputs) (emit op inputs) :=
  fun _ hf => ⟨rfl, hf, _, emits_emit, .statement h .nil⟩

/-- A statement without outputs. -/
lemma perform (h : op.statement?.isSome) : Inserts f (perform op inputs) (perform op inputs) :=
  (emit h).drop

lemma times (hm : Inserts f m m') : Inserts f (times n m) (times n m') := by
  induction n with
  | zero => exact .pure
  | succ n ih => exact hm.bind fun _ => ih.bind fun _ => .pure

lemma mapM {l : List β} {k k' : β → Build α} (hk : ∀ a, Inserts f (k a) (k' a)) :
    Inserts f (l.mapM k) (l.mapM k') := by
  induction l with
  | nil => exact .pure
  | cons a l ih =>
      rw [List.mapM_cons, List.mapM_cons]
      exact (hk a).bind fun _ => ih.bind fun _ => .pure

end Inserts

/-! ### Blocks -/

/-- The computation appends one instruction with the operation. -/
def Brackets (op : Operation) (m : Build α) : Prop :=
  ∀ b : Builder, (m b).2.frame = b.frame ∧ ∃ i : Instruction, i.operation = op ∧
    b.Emits (m b).2 [i]

lemma brackets_emit : Brackets op (emit op inputs) := fun _ => ⟨rfl, _, rfl, emits_emit⟩

lemma brackets_perform : Brackets op (perform op inputs) := fun _ => ⟨rfl, _, rfl, emits_emit⟩

lemma brackets_value : Brackets op (value op inputs) := by
  refine fun b => ⟨rfl, ⟨op, inputs, [⟨b.nextVariable⟩], []⟩, rfl, emits_append (n := 1) ?_⟩
  rw [freshVariables_succ]
  rfl

/-- Only the result is changed. -/
lemma Brackets.map {g : α → β} (h : Brackets op m) : Brackets op (m >>= fun a => pure (g a)) := h

variable {γ δ ε : Type} {r inner : Region} {first middle last : Operation} {o : Build γ}

namespace Inserts

/-- **A block** with balanced code inside. -/
theorem block {body body' : γ → Build α} {close : γ → α → Build β}
    (hb : r.Block first inner last) (ho : Brackets first o)
    (hbody : ∀ x, Inserts f (body x) (body' x)) (hc : ∀ x a, Brackets last (close x a)) :
    Inserts f (o >>= fun x => body x >>= close x) (o >>= fun x => body' x >>= close x) := by
  intro b hf
  obtain ⟨hopen, i, rfl, hi⟩ := ho b
  obtain ⟨heq, hframe, code, hcode, hbal⟩ := hbody (o b).1 (o b).2 (hopen.trans hf)
  obtain ⟨hclose, j, rfl, hj⟩ := hc (o b).1 (body (o b).1 (o b).2).1 (body (o b).1 (o b).2).2
  have hrun (body : γ → Build α) : (o >>= fun x => body x >>= close x) b =
      close (o b).1 (body (o b).1 (o b).2).1 (body (o b).1 (o b).2).2 := rfl
  rw [hrun, hrun, ← heq]
  exact ⟨rfl, hclose.trans hframe, _, (hi.trans hcode).trans hj, .block hb hbal .nil⟩

/-- **A block of two parts** with balanced code in both. -/
theorem twoParts {body body' : γ → Build α} {turn : γ → α → Build δ}
    {rest rest' : γ → α → δ → Build β} {close : γ → α → δ → β → Build ε}
    (hb : r.TwoParts first middle last) (ho : Brackets first o)
    (hbody : ∀ x, Inserts f (body x) (body' x)) (ht : ∀ x a, Brackets middle (turn x a))
    (hrest : ∀ x a y, Inserts f (rest x a y) (rest' x a y))
    (hc : ∀ x a y z, Brackets last (close x a y z)) :
    Inserts f
      (o >>= fun x => body x >>= fun a => turn x a >>= fun y => rest x a y >>= close x a y)
      (o >>= fun x => body' x >>= fun a => turn x a >>= fun y => rest' x a y >>= close x a y) := by
  intro b hf
  obtain ⟨hopen, i, rfl, hi⟩ := ho b
  obtain ⟨heq, hframe, code, hcode, hbal⟩ := hbody (o b).1 (o b).2 (hopen.trans hf)
  have hrun (body : γ → Build α) (rest : γ → α → δ → Build β) :
      (o >>= fun x => body x >>= fun a => turn x a >>= fun y => rest x a y >>= close x a y) b =
        let s := body (o b).1 (o b).2
        let t := turn (o b).1 s.1 s.2
        let u := rest (o b).1 s.1 t.1 t.2
        close (o b).1 s.1 t.1 u.1 u.2 := rfl
  rw [hrun, hrun, ← heq]
  dsimp only
  generalize body (o b).1 (o b).2 = s at hframe hcode
  obtain ⟨hturn, k, rfl, hk⟩ := ht (o b).1 s.1 s.2
  generalize turn (o b).1 s.1 s.2 = t at hturn hk
  obtain ⟨heq', hframe', code', hcode', hbal'⟩ :=
    hrest (o b).1 s.1 t.1 t.2 (hturn.trans hframe)
  rw [← heq']
  generalize rest (o b).1 s.1 t.1 t.2 = u at hframe' hcode'
  obtain ⟨hclose, j, rfl, hj⟩ := hc (o b).1 s.1 t.1 u.1 u.2
  refine ⟨rfl, hclose.trans hframe', _, (((hi.trans hcode).trans hk).trans hcode').trans hj, ?_⟩
  rw [List.append_assoc, List.append_assoc]
  exact .twoParts hb hbal hbal' .nil

end Inserts

variable {body body' : Build α} {condition : Variable} {parameters : ℕ} {iterations : UInt32}

lemma inserts_functionBlock {body body' : List Variable → Build α}
    (h : ∀ vs, Inserts f (body vs) (body' vs)) :
    Inserts f (functionBlock parameters body) (functionBlock parameters body') :=
  .block (r := .script false false) .plainFunction brackets_emit (fun i => h i.innerOutputs)
    fun _ _ => brackets_perform.map

lemma inserts_function {body body' : List Variable → Build Unit}
    (h : ∀ vs, Inserts f (body vs) (body' vs)) :
    Inserts f (function parameters body) (function parameters body') :=
  (inserts_functionBlock h).bind fun _ => .pure

lemma inserts_ifBlock (h : Inserts f body body') :
    Inserts f (ifBlock condition body) (ifBlock condition body') :=
  .block (r := .script false false) .branch brackets_perform (fun _ => h)
    fun _ _ => brackets_perform.map

lemma inserts_ifElseBlock {no no' : α → Build β} (h : Inserts f body body')
    (h' : ∀ a, Inserts f (no a) (no' a)) :
    Inserts f (ifElseBlock condition body no) (ifElseBlock condition body' no') :=
  .twoParts (r := .script false false) .branch brackets_perform (fun _ => h)
    (fun _ _ => brackets_perform) (fun _ a _ => h' a) fun _ _ _ _ => brackets_perform.map

lemma inserts_repeatBlock {body body' : Variable → Build α}
    (h : ∀ v, Inserts f (body v) (body' v)) :
    Inserts f (repeatBlock iterations body) (repeatBlock iterations body') :=
  .block (r := .script false false) .repeatLoop brackets_emit (fun i => h (firstOf i.innerOutputs))
    fun _ _ => brackets_perform.map

lemma inserts_tryBlock {handler handler' : α → Variable → Build β} (h : Inserts f body body')
    (h' : ∀ a v, Inserts f (handler a v) (handler' a v)) :
    Inserts f (tryBlock body handler) (tryBlock body' handler') :=
  .twoParts (r := .script false false) .tryCatch brackets_perform (fun _ => h)
    (fun _ _ => brackets_emit) (fun _ a i => h' a (firstOf i.innerOutputs))
    fun _ _ _ _ => brackets_perform.map

lemma inserts_guarded {body body' : Build Unit} (h : Inserts f body body') :
    Inserts f (guarded body) (guarded body') :=
  inserts_tryBlock h fun _ _ => (Inserts.value rfl).drop

lemma inserts_moduleBlock (h : Inserts f body body') :
    Inserts f (moduleBlock body) (moduleBlock body') :=
  .block (r := .script false false) .wasmModule brackets_perform (fun _ => h)
    fun _ _ => brackets_emit.map

lemma inserts_module {body body' : Build Unit} (h : Inserts f body body') :
    Inserts f (module body) (module body') :=
  (inserts_moduleBlock h).bind fun _ => .pure

lemma inserts_wasmBlock {body body' : Variable → Build α}
    (h : ∀ v, Inserts f (body v) (body' v)) : Inserts f (wasmBlock body) (wasmBlock body') :=
  .block .wasmBlock brackets_emit (fun i => h (firstOf i.innerOutputs))
    fun _ _ => brackets_perform.map

lemma inserts_wasmLoop {body body' : Variable → Build α}
    (h : ∀ v, Inserts f (body v) (body' v)) : Inserts f (wasmLoop body) (wasmLoop body') :=
  .block .wasmLoop brackets_emit (fun i => h (firstOf i.innerOutputs))
    fun _ _ => brackets_perform.map

lemma inserts_wasmIf {body body' : Variable → Build α}
    (h : ∀ v, Inserts f (body v) (body' v)) :
    Inserts f (wasmIf condition body) (wasmIf condition body') :=
  .block .wasmIf brackets_emit (fun i => h (firstOf i.innerOutputs))
    fun _ _ => brackets_perform.map

lemma inserts_wasmIfElse {yes yes' : Variable → Build α} {no no' : α → Variable → Build β}
    (h : ∀ v, Inserts f (yes v) (yes' v)) (h' : ∀ a v, Inserts f (no a v) (no' a v)) :
    Inserts f (wasmIfElse condition yes no) (wasmIfElse condition yes' no') :=
  .twoParts .wasmIf brackets_emit (fun i => h (firstOf i.innerOutputs))
    (fun _ _ => brackets_emit) (fun _ a i => h' a (firstOf i.innerOutputs))
    fun _ _ _ _ => brackets_perform.map

end Build

end EngineFuzz
