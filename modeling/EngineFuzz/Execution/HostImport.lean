import EngineFuzz.Execution.Data
import EngineFuzz.Lift.Module

/-!
# Values for imports

A module imports values of the script that defines it.  When only the module is run, the host makes
these values anew: globals, memories and tables as the instructions say that created them in the
script, and functions that only note that they have been called.

* `Program.hostImports`: the values for the imports of a module.
* `EntityType.isSuppliedBy`: whether a value of one type can stand for an import of another.
-/

namespace EngineFuzz

/-- A value that the host supplies. -/
inductive HostImport where
  | global (value : WasmLiteral) (isMutable : Bool)
  | memory (minimum : UInt32) (maximum : Option UInt32) (shared : Bool)
  | table (element : WasmType) (minimum : UInt32) (maximum : Option UInt32)
  | function (signature : FunctionSignature)
deriving DecidableEq, Repr, Inhabited

namespace HostImport

/-- The value for an import of a type, given the operation that defines its source.  Any source
will do for a function. -/
def supply? : EntityType → Option Operation → Option HostImport
  | .function signature, _ => some (.function signature)
  | .global .., some (.createWasmGlobal value isMutable) => some (.global value isMutable)
  | .memory .., some (.createWasmMemory least most shared) => some (.memory least most shared)
  | .table .., some (.createWasmTable element least most) => some (.table element least most)
  | _, _ => none

/-- The type of the value.  A shared memory without a maximum cannot grow. -/
def entityType : HostImport → EntityType
  | global value isMutable => .global value.type isMutable
  | memory least most true => .memory least (some (most.getD least)) true
  | memory least most false => .memory least most false
  | table element least most => .table element.asReference least most
  | function signature => .function signature

/-- Whether the value can be made at all: null is a value only of the types of references, and a
shared memory, which never moves, takes the room for its maximum when it is made. -/
def isMakeable : HostImport → Bool
  | global (.nullRef t) _ => t.isReference
  | memory least (some most) true => decide (least ≤ most)
  | _ => true

end HostImport

/-- Why there is no value for an import: its number and its source. -/
structure MissingHostValue where
  index : Nat
  source : Variable
deriving DecidableEq, Repr

namespace Program

/-- The values for the imports of a module, in their order. -/
def hostImports (p : Program) (m : EncodedModule) : Except MissingHostValue (List HostImport) :=
  (m.importSources.zip m.signature.imports).zipIdx.mapM fun ((source, entity), index) =>
    match HostImport.supply? entity ((p.definitionOf? source).map (·.operation)) with
    | some value => .ok value
    | none => .error ⟨index, source⟩

end Program

/-- Whether limits lie within those that an import asks for. -/
def limitsWithin (least : UInt32) (most : Option UInt32) (wantedLeast : UInt32)
    (wantedMost : Option UInt32) : Bool :=
  decide (wantedLeast ≤ least) &&
    match wantedMost, most with
    | none, _ => true
    | some _, none => false
    | some wanted, some most => decide (most ≤ wanted)

namespace EntityType

/-- Whether a value of the type `given` can stand for an import of the type. -/
def isSuppliedBy (wanted given : EntityType) : Bool :=
  match wanted, given with
  | function s, function s' => s == s'
  | global t isMutable, global t' isMutable' => t == t' && isMutable == isMutable'
  | table t least most, table t' least' most' =>
    t.asReference == t'.asReference && limitsWithin least' most' least most
  | memory least most shared, memory least' most' shared' =>
    shared == shared' && limitsWithin least' most' least most
  | _, _ => false

end EntityType

end EngineFuzz
