import EngineFuzz.Wasm.Type

/-!
# Operators

The operators that operations carry: those of the script language with their tokens, and the
numeric instructions of WebAssembly with their widths.
-/

namespace EngineFuzz

/-- A binary operator of the script language. -/
inductive BinaryOperator where
  | add | sub | mul | div | mod | bitAnd | bitOr | xor | lShift | rShift | unRShift | exp
  | logicAnd | logicOr
deriving DecidableEq, Repr, Inhabited

instance : Enumeration BinaryOperator where
  all := [.add, .sub, .mul, .div, .mod, .bitAnd, .bitOr, .xor, .lShift, .rShift, .unRShift,
    .exp, .logicAnd, .logicOr]
  name
    | .add => "Add" | .sub => "Sub" | .mul => "Mul" | .div => "Div" | .mod => "Mod"
    | .bitAnd => "BitAnd" | .bitOr => "BitOr" | .xor => "Xor" | .lShift => "LShift"
    | .rShift => "RShift" | .unRShift => "UnRShift" | .exp => "Exp" | .logicAnd => "LogicAnd"
    | .logicOr => "LogicOr"

/-- The operator in scripts. -/
def BinaryOperator.token : BinaryOperator → String
  | add => "+" | sub => "-" | mul => "*" | div => "/" | mod => "%" | bitAnd => "&"
  | bitOr => "|" | xor => "^" | lShift => "<<" | rShift => ">>" | unRShift => ">>>"
  | exp => "**" | logicAnd => "&&" | logicOr => "||"

/-- A unary operator of the script language. -/
inductive UnaryOperator where
  | minus | plus | logicalNot | bitwiseNot
deriving DecidableEq, Repr, Inhabited

instance : Enumeration UnaryOperator where
  all := [.minus, .plus, .logicalNot, .bitwiseNot]
  name
    | .minus => "Minus" | .plus => "Plus" | .logicalNot => "LogicalNot"
    | .bitwiseNot => "BitwiseNot"

/-- The operator in scripts. -/
def UnaryOperator.token : UnaryOperator → String
  | minus => "-" | plus => "+" | logicalNot => "!" | bitwiseNot => "~"

/-- A comparison of the script language. -/
inductive Comparator where
  | equal | strictEqual | notEqual | strictNotEqual | lessThan | lessThanOrEqual | greaterThan
  | greaterThanOrEqual
deriving DecidableEq, Repr, Inhabited

instance : Enumeration Comparator where
  all := [.equal, .strictEqual, .notEqual, .strictNotEqual, .lessThan, .lessThanOrEqual,
    .greaterThan, .greaterThanOrEqual]
  name
    | .equal => "Equal" | .strictEqual => "StrictEqual" | .notEqual => "NotEqual"
    | .strictNotEqual => "StrictNotEqual" | .lessThan => "LessThan"
    | .lessThanOrEqual => "LessThanOrEqual" | .greaterThan => "GreaterThan"
    | .greaterThanOrEqual => "GreaterThanOrEqual"

/-- The operator in scripts. -/
def Comparator.token : Comparator → String
  | equal => "==" | strictEqual => "===" | notEqual => "!=" | strictNotEqual => "!=="
  | lessThan => "<" | lessThanOrEqual => "<=" | greaterThan => ">" | greaterThanOrEqual => ">="

/-- The width of the operands of a WebAssembly numeric instruction. -/
inductive Width where
  | bits32 | bits64
deriving DecidableEq, Repr, Inhabited

instance : Enumeration Width where
  all := [.bits32, .bits64]
  name
    | .bits32 => "Bits32" | .bits64 => "Bits64"

/-- A binary integer instruction. -/
inductive IntBinaryOp where
  | add | sub | mul | divS | divU | remS | remU | and | or | xor | shl | shrS | shrU | rotl
  | rotr
deriving DecidableEq, Repr, Inhabited

instance : Enumeration IntBinaryOp where
  all := [.add, .sub, .mul, .divS, .divU, .remS, .remU, .and, .or, .xor, .shl, .shrS, .shrU,
    .rotl, .rotr]
  name
    | .add => "Add" | .sub => "Sub" | .mul => "Mul" | .divS => "DivS" | .divU => "DivU"
    | .remS => "RemS" | .remU => "RemU" | .and => "And" | .or => "Or" | .xor => "Xor"
    | .shl => "Shl" | .shrS => "ShrS" | .shrU => "ShrU" | .rotl => "Rotl" | .rotr => "Rotr"

/-- A unary integer instruction: leading zeros, trailing zeros, ones. -/
inductive IntUnaryOp where
  | clz | ctz | popcnt
deriving DecidableEq, Repr, Inhabited

instance : Enumeration IntUnaryOp where
  all := [.clz, .ctz, .popcnt]
  name
    | .clz => "Clz" | .ctz => "Ctz" | .popcnt => "Popcnt"

/-- An integer comparison. -/
inductive IntCompareOp where
  | eq | ne | ltS | ltU | gtS | gtU | leS | leU | geS | geU
deriving DecidableEq, Repr, Inhabited

instance : Enumeration IntCompareOp where
  all := [.eq, .ne, .ltS, .ltU, .gtS, .gtU, .leS, .leU, .geS, .geU]
  name
    | .eq => "Eq" | .ne => "Ne" | .ltS => "LtS" | .ltU => "LtU" | .gtS => "GtS" | .gtU => "GtU"
    | .leS => "LeS" | .leU => "LeU" | .geS => "GeS" | .geU => "GeU"

/-- A binary floating-point instruction. -/
inductive FloatBinaryOp where
  | add | sub | mul | div | min | max | copysign
deriving DecidableEq, Repr, Inhabited

instance : Enumeration FloatBinaryOp where
  all := [.add, .sub, .mul, .div, .min, .max, .copysign]
  name
    | .add => "Add" | .sub => "Sub" | .mul => "Mul" | .div => "Div" | .min => "Min"
    | .max => "Max" | .copysign => "Copysign"

/-- A unary floating-point instruction. -/
inductive FloatUnaryOp where
  | abs | neg | ceil | floor | trunc | nearest | sqrt
deriving DecidableEq, Repr, Inhabited

instance : Enumeration FloatUnaryOp where
  all := [.abs, .neg, .ceil, .floor, .trunc, .nearest, .sqrt]
  name
    | .abs => "Abs" | .neg => "Neg" | .ceil => "Ceil" | .floor => "Floor" | .trunc => "Trunc"
    | .nearest => "Nearest" | .sqrt => "Sqrt"

/-- A floating-point comparison. -/
inductive FloatCompareOp where
  | eq | ne | lt | gt | le | ge
deriving DecidableEq, Repr, Inhabited

instance : Enumeration FloatCompareOp where
  all := [.eq, .ne, .lt, .gt, .le, .ge]
  name
    | .eq => "Eq" | .ne => "Ne" | .lt => "Lt" | .gt => "Gt" | .le => "Le" | .ge => "Ge"

namespace Width

/-- How many bits numbers of the width have. -/
def bits : Width → Nat
  | bits32 => 32
  | bits64 => 64

/-- The integer type of the width. -/
def intType : Width → WasmType
  | bits32 => .i32
  | bits64 => .i64

/-- The floating-point type of the width. -/
def floatType : Width → WasmType
  | bits32 => .f32
  | bits64 => .f64

/-- The width of an integer type. -/
def ofInt? : WasmType → Option Width
  | .i32 => some bits32
  | .i64 => some bits64
  | _ => none

/-- The width of a floating-point type. -/
def ofFloat? : WasmType → Option Width
  | .f32 => some bits32
  | .f64 => some bits64
  | _ => none

end Width

end EngineFuzz
