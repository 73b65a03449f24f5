import EngineFuzz.Wasm.Module

/-!
# Frames

How much of the stack an active function takes.  Its frame holds the link to the caller, the values
that have to outlive calls, and the values that it passes to other functions and that find no
register.

* `FunctionBody.frameSize`: the size of the frame of a function.
-/

namespace EngineFuzz

namespace WasmType

/-- Whether values of the type are floating-point numbers. -/
def isFloat : WasmType → Bool
  | f32 | f64 => true
  | _ => false

/-- How many words a value takes that outlives a call: a register of floating-point numbers is two
words wide. -/
def keptWords (t : WasmType) : Nat := if t.isFloat then 2 else 1

end WasmType

/-- How many words are passed on the stack in a call: four values of other types and eight
floating-point numbers have registers. -/
def FunctionSignature.passedWords (s : FunctionSignature) : Nat :=
  let floats := s.params.countP (·.isFloat)
  (s.params.length - floats - 4) + (floats - 8)

/-- What a walk through code has met. -/
structure LocalUse where
  /-- The locals that have been set since the last call. -/
  fresh : List Nat
  /-- The locals that were set before the last call and not again. -/
  old : List Nat
  /-- The locals that have been read while they were old. -/
  outliving : List Nat
  /-- Whether the last instruction was a constant. -/
  isConstant : Bool

namespace LocalUse

/-- The walk goes past an instruction.  Constants are not kept: they are made again where they are
used. -/
def pass (u : LocalUse) : Instr → LocalUse
  | .const _ => { u with isConstant := true }
  | .localSet i => { u with
    fresh := if u.isConstant then u.fresh.erase i else u.fresh.insert i
    old := u.old.erase i
    isConstant := false }
  | .call _ => { u with fresh := [], old := u.fresh ++ u.old, isConstant := false }
  | .localGet i => { u with
    outliving := if u.old.contains i then u.outliving.insert i else u.outliving
    isConstant := false }
  | _ => { u with isConstant := false }

end LocalUse

namespace FunctionBody

/-- The locals whose values outlive a call: they are set before it, to something else than a
constant, and read after it. -/
def outlivingLocals (b : FunctionBody) : List Nat :=
  (b.code.foldl LocalUse.pass ⟨[], [], [], false⟩).outliving

/-- The words of a frame that hold values over calls: two of its own, the parameters, and the
locals that outlive a call. -/
def keptWords (signature : FunctionSignature) (b : FunctionBody) : Nat :=
  let count := signature.params.length
  let locals := b.outlivingLocals.filterMap fun i =>
    if i < count then none else b.locals[i - count]?
  (signature.params ++ locals).foldl (fun words t => words + t.keptWords) 2

/-- The words that a function passes to others on the stack, at most, in a module whose functions
have these signatures. -/
def passedWords (signatures : List FunctionSignature) (b : FunctionBody) : Nat :=
  b.code.foldl (fun most i =>
    match i with
    | .call index => max most ((signatures[index]?.map (·.passedWords)).getD 0)
    | _ => most) 0

/-- Words in bytes, with padding for an even number of them. -/
def paddedSize (words : Nat) : Nat := (words + 1) / 2 * 16

/-- The size of the frame of a function, in bytes: the return address with the link to the frame of
the caller, the kept words and the passed words. -/
def frameSize (signatures : List FunctionSignature) (signature : FunctionSignature)
    (b : FunctionBody) : Nat :=
  paddedSize 2 + paddedSize (b.keptWords signature) + paddedSize (b.passedWords signatures)

end FunctionBody

end EngineFuzz
