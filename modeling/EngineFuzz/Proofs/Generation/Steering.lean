import Mathlib
import EngineFuzz.Analysis.Scope

/-!
# Loops that end

A generated loop counts down from ten.  What steers it are its label and its counter; nothing else
may use them, or the loop might go on for ever.

* `CountedLoop`: the variables and the body of such a loop, with its code.
* `Steers`: code in which all loops are of this kind and nothing else uses what steers a loop.
-/

namespace EngineFuzz

/-- A loop that counts down from ten. -/
structure CountedLoop where
  counter : Variable
  label : Variable
  /-- The constant that is subtracted from the counter. -/
  one : Variable
  /-- The counter of the next round. -/
  next : Variable
  body : List Instruction

namespace CountedLoop

/-- The instructions in front of the body. -/
def entry (l : CountedLoop) : List Instruction :=
  [⟨.wasmConst (.i32 10), [], [l.counter], []⟩, ⟨.wasmBeginLoop, [], [], [l.label]⟩]

/-- The instructions behind the body. -/
def exit (l : CountedLoop) : List Instruction :=
  [⟨.wasmConst (.i32 1), [], [l.one], []⟩,
    ⟨.wasmIntBinary .bits32 .sub, [l.counter, l.one], [l.next], []⟩,
    ⟨.wasmReassign, [l.counter, l.next], [], []⟩,
    ⟨.wasmBranchIf, [l.label, l.next], [], []⟩,
    ⟨.wasmEndLoop, [], [], []⟩]

/-- The whole loop. -/
def code (l : CountedLoop) : List Instruction := l.entry ++ l.body ++ l.exit

end CountedLoop

/-- Whether the operation begins or ends a loop of a function. -/
def Operation.isLoopEdge : Operation → Bool
  | wasmBeginLoop | wasmEndLoop => true
  | _ => false

/-- The instructions use none of the variables `S`, which steer loops; all their loops are counted,
and with the variables that steer these there are the variables `S'`. -/
inductive Steers : List Variable → List Instruction → List Variable → Prop where
  | nil (S : List Variable) : Steers S [] S
  | plain {S S' : List Variable} {i : Instruction} {is : List Instruction}
      (edge : i.operation.isLoopEdge = false) (inputs : i.inputs.Disjoint S)
      (rest : Steers S is S') : Steers S (i :: is) S'
  | loop {S T S' : List Variable} (l : CountedLoop) {is : List Instruction}
      (body : Steers (l.label :: l.counter :: S) l.body T) (rest : Steers T is S') :
      Steers S (l.code ++ is) S'

namespace Steers

variable {S S' T : List Variable} {is js : List Instruction} {i : Instruction} {l : CountedLoop}

lemma append (h : Steers S is S') (h' : Steers S' js T) : Steers S (is ++ js) T := by
  induction h with
  | nil S => exact h'
  | plain edge inputs _ ih => exact .plain edge inputs (ih h')
  | loop l body _ _ ih =>
      rw [List.append_assoc]
      exact .loop l body (ih h')

lemma single (edge : i.operation.isLoopEdge = false) (inputs : i.inputs.Disjoint S) :
    Steers S [i] S := .plain edge inputs (.nil S)

lemma counted (body : Steers (l.label :: l.counter :: S) l.body S') : Steers S l.code S' := by
  have h := Steers.loop l body (.nil S')
  rwa [List.append_nil] at h

/-- What steers loops goes on to do so. -/
lemma subset (h : Steers S is S') : S ⊆ S' := by
  induction h with
  | nil S => exact List.Subset.refl S
  | plain _ _ _ ih => exact ih
  | loop l _ _ ih ih' =>
      exact fun v hv => ih' (ih (List.mem_cons_of_mem _ (List.mem_cons_of_mem _ hv)))

end Steers

end EngineFuzz
