import EngineFuzz.Enumeration
import EngineFuzz.Float.Text

/-!
# WebAssembly types

Value types, function signatures, literals, and the types of the entities that a module imports,
defines and exports.
-/

namespace EngineFuzz

/-- The type of a WebAssembly value. -/
inductive WasmType where
  | i32 | i64 | f32 | f64 | externRef | funcRef
deriving DecidableEq, Repr, Inhabited

instance : Enumeration WasmType where
  all := [.i32, .i64, .f32, .f64, .externRef, .funcRef]
  name
    | .i32 => "I32" | .i64 => "I64" | .f32 => "F32" | .f64 => "F64"
    | .externRef => "ExternRef" | .funcRef => "FuncRef"

namespace WasmType

/-- The types of numbers. -/
def numeric : List WasmType := [.i32, .i64, .f32, .f64]

/-- The types of references. -/
def references : List WasmType := [.externRef, .funcRef]

/-- Whether values of the type are references. -/
def isReference : WasmType → Bool
  | externRef | funcRef => true
  | _ => false

/-- Whether values of the type are numbers. -/
def isNumeric (t : WasmType) : Bool := !t.isReference

/-- The type of a reference; what is not one counts as a function reference. -/
def asReference : WasmType → WasmType
  | externRef => externRef
  | _ => funcRef

/-- How many bytes an access to memory moves. -/
def byteWidth : WasmType → Nat
  | i32 | f32 => 4
  | i64 | f64 => 8
  | externRef | funcRef => 0

/-- The name of the type in the text format. -/
def text : WasmType → String
  | i32 => "i32" | i64 => "i64" | f32 => "f32" | f64 => "f64"
  | externRef => "externref" | funcRef => "funcref"

/-- The name in the descriptors that scripts pass to the WebAssembly interface. -/
def descriptorName : WasmType → String
  | funcRef => "anyfunc"
  | t => t.text

end WasmType

/-- Parameters and results of a function. -/
structure FunctionSignature where
  params : List WasmType
  results : List WasmType
deriving DecidableEq, Repr, Inhabited

namespace FunctionSignature

/-- The first result. -/
def result (s : FunctionSignature) : Option WasmType := s.results.head?

/-- Parameters, an arrow and results. -/
def text (s : FunctionSignature) : String :=
  bracketed (s.params.map (·.text)) ++ " => " ++ bracketed (s.results.map (·.text))

end FunctionSignature

/-- A constant. -/
inductive WasmLiteral where
  | i32 (value : Int32)
  | i64 (value : Int64)
  | f32 (value : Single)
  | f64 (value : Double)
  /-- The null reference of a type. -/
  | nullRef (type : WasmType)
deriving DecidableEq, Repr, Inhabited

namespace WasmLiteral

/-- The type of the literal. -/
def type : WasmLiteral → WasmType
  | i32 _ => .i32
  | i64 _ => .i64
  | f32 _ => .f32
  | f64 _ => .f64
  | nullRef t => t

/-- Zero, or null. -/
def zero : WasmType → WasmLiteral
  | .i32 => i32 0
  | .i64 => i64 0
  | .f32 => f32 .zero
  | .f64 => f64 .zero
  | .externRef => nullRef .externRef
  | .funcRef => nullRef .funcRef

/-- The value, behind its type. -/
def text : WasmLiteral → String
  | i32 v => "i32 " ++ intText v.toInt
  | i64 v => "i64 " ++ intText v.toInt
  | f32 v => "f32 " ++ v.plainText
  | f64 v => "f64 " ++ v.plainText
  | nullRef t => t.text ++ " null"

end WasmLiteral

/-- The index spaces of a module. -/
inductive EntityCategory where
  | function | global | table | memory
deriving DecidableEq, Repr, Inhabited

instance : Enumeration EntityCategory where
  all := [.function, .global, .table, .memory]
  name
    | .function => "Function" | .global => "Global" | .table => "Table" | .memory => "Memory"

namespace EntityCategory

/-- The categories in the order of the exports. -/
def all : List EntityCategory := [function, global, table, memory]

/-- What the names of exports of the category start with. -/
def exportStem : EntityCategory → String
  | function => "function" | global => "global" | table => "table" | memory => "memory"

end EntityCategory

/-- The type of something that a module imports or defines. -/
inductive EntityType where
  | function (signature : FunctionSignature)
  | global (type : WasmType) (isMutable : Bool)
  | table (element : WasmType) (minimum : UInt32) (maximum : Option UInt32)
  | memory (minimum : UInt32) (maximum : Option UInt32) (shared : Bool)
deriving DecidableEq, Repr, Inhabited

/-- The index space that such entities belong to. -/
def EntityType.category : EntityType → EntityCategory
  | function _ => .function
  | global .. => .global
  | table .. => .table
  | memory .. => .memory

/-- An export: its name and its type. -/
structure ModuleExport where
  name : String
  entity : EntityType
deriving DecidableEq, Repr, Inhabited

/-- What a compiled module asks for and what it offers. -/
structure ModuleSignature where
  imports : List EntityType
  exports : List ModuleExport
deriving DecidableEq, Repr, Inhabited

namespace ModuleSignature

/-- A module without imports and exports. -/
def empty : ModuleSignature := ⟨[], []⟩

/-- The first export with a name. -/
def findExport? (s : ModuleSignature) (name : String) : Option ModuleExport :=
  s.exports.find? fun e => e.name == name

end ModuleSignature

end EngineFuzz
