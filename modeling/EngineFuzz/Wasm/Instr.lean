import EngineFuzz.Program.Operator

/-!
# WebAssembly instructions

The instructions that function bodies are made of, as a flat list: blocks are opened and closed by
instructions of their own, and branches count the open blocks that they leave.
-/

namespace EngineFuzz

/-- An instruction.  Blocks take no parameters and give no results. -/
inductive Instr where
  /-- A constant, or the null reference. -/
  | const (value : WasmLiteral)
  | intBinary (width : Width) (op : IntBinaryOp)
  | intUnary (width : Width) (op : IntUnaryOp)
  | intEqz (width : Width)
  | intCompare (width : Width) (op : IntCompareOp)
  | floatBinary (width : Width) (op : FloatBinaryOp)
  | floatUnary (width : Width) (op : FloatUnaryOp)
  | floatCompare (width : Width) (op : FloatCompareOp)
  | localGet (index : Nat)
  | localSet (index : Nat)
  | globalGet (index : Nat)
  | globalSet (index : Nat)
  | tableGet (index : Nat)
  | tableSet (index : Nat)
  | load (type : WasmType) (offset : UInt64) (memory : Nat)
  | store (type : WasmType) (offset : UInt64) (memory : Nat)
  | call (function : Nat)
  | ret
  | block
  | loop
  | ifThen
  | elseThen
  | blockEnd
  | br (depth : Nat)
  | brIf (depth : Nat)
  | unreachable
deriving DecidableEq, Repr, Inhabited

end EngineFuzz
