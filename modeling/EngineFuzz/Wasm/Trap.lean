import EngineFuzz.Enumeration

/-!
# Traps

The ways in which the execution of a WebAssembly function is cut off.
-/

namespace EngineFuzz

/-- The reasons for which execution is cut off. -/
inductive TrapKind where
  | integerDivisionByZero | integerOverflow | memoryOutOfBounds | tableOutOfBounds | unreachable
  | badConversionToInteger | stackOverflow | indirectCallToNull | outOfFuel | other
deriving DecidableEq, Repr, Inhabited

instance : Enumeration TrapKind where
  all := [.integerDivisionByZero, .integerOverflow, .memoryOutOfBounds, .tableOutOfBounds,
    .unreachable, .badConversionToInteger, .stackOverflow, .indirectCallToNull, .outOfFuel, .other]
  name
    | .integerDivisionByZero => "IntegerDivisionByZero"
    | .integerOverflow => "IntegerOverflow"
    | .memoryOutOfBounds => "MemoryOutOfBounds"
    | .tableOutOfBounds => "TableOutOfBounds"
    | .unreachable => "Unreachable"
    | .badConversionToInteger => "BadConversionToInteger"
    | .stackOverflow => "StackOverflow"
    | .indirectCallToNull => "IndirectCallToNull"
    | .outOfFuel => "OutOfFuel"
    | .other => "Other"

end EngineFuzz
