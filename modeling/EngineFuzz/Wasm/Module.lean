import EngineFuzz.Wasm.Instr

/-!
# WebAssembly modules

A module in the order of its sections.  The entities of an index space are its imports followed by
its definitions.
-/

namespace EngineFuzz

/-- The body of a function: the types of its locals after the parameters, and its code with the
final `blockEnd`. -/
structure FunctionBody where
  locals : List WasmType
  code : List Instr
deriving DecidableEq, Repr, Inhabited

/-- A table that a module defines. -/
structure TableType where
  element : WasmType
  minimum : UInt32
  maximum : Option UInt32
deriving DecidableEq, Repr, Inhabited

/-- A memory that a module defines; sizes are in pages of 64 KiB. -/
structure MemoryType where
  minimum : UInt32
  maximum : Option UInt32
  shared : Bool
deriving DecidableEq, Repr, Inhabited

/-- The type of a global. -/
structure GlobalType where
  type : WasmType
  isMutable : Bool
deriving DecidableEq, Repr, Inhabited

/-- What an import asks for; the signature of a function is given by its number. -/
inductive ImportType where
  | function (signature : Nat)
  | table (type : TableType)
  | memory (type : MemoryType)
  | global (type : GlobalType)
deriving DecidableEq, Repr, Inhabited

/-- An import: the name of the module it is from, the name of its field there and its type. -/
structure ImportEntry where
  module : String
  name : String
  type : ImportType
deriving DecidableEq, Repr, Inhabited

/-- An exported entity: its name, its category and its index there. -/
structure ExportEntry where
  name : String
  category : EntityCategory
  index : Nat
deriving DecidableEq, Repr, Inhabited

/-- A module, section by section. -/
structure WasmModule where
  /-- The signatures that functions refer to. -/
  types : List FunctionSignature
  imports : List ImportEntry
  /-- For each defined function the number of its signature. -/
  functions : List Nat
  tables : List TableType
  memories : List MemoryType
  globals : List (GlobalType × WasmLiteral)
  exports : List ExportEntry
  bodies : List FunctionBody
deriving DecidableEq, Repr, Inhabited

namespace WasmModule

/-- The module name of all imports. -/
def importModule : String := "imports"

/-- The field name of the import with a number. -/
def importName (index : Nat) : String := "import" ++ natText index

/-- The type of an import as that of an entity, if the number of its signature is one. -/
def importedEntity? (m : WasmModule) (i : ImportEntry) : Option EntityType :=
  match i.type with
  | .function number => m.types[number]?.map .function
  | .table t => some (.table t.element t.minimum t.maximum)
  | .memory t => some (.memory t.minimum t.maximum t.shared)
  | .global t => some (.global t.type t.isMutable)

/-- The types of the imports. -/
def importTypes (m : WasmModule) : List EntityType := m.imports.filterMap m.importedEntity?

end WasmModule

end EngineFuzz
