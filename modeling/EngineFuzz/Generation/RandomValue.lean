import EngineFuzz.Generation.Statement

/-!
# Random values and names

Numbers, texts and names come from the pools of the environment or from a range; operands are
visible variables where there are any.
-/

namespace EngineFuzz.Build

variable {α : Type}

/-- Something that the builder knows. -/
def look (f : Builder → α) : Build α := fun b => (f b, b)

/-- The environment of the builder. -/
def environment : Build Environment := look (·.toolbox.environment)

/-! ### Script values -/

/-- An integer of the pool, or a small one. -/
def randomInteger : Build Int := do
  if ← Draw.chance 50 then
    if let some n ← Draw.choose (← environment).integers then return n.toInt
  Draw.int64 (-65536) 65535

/-- A double of the pool, or one of moderate size. -/
def randomFloat : Build Double := do
  if ← Draw.chance 50 then
    if let some x ← Draw.choose (← environment).floats then return x
  Draw.double (-1000000) 1000000

/-- A string of the pool, or a property name. -/
def randomString : Build String := do
  let e ← environment
  if ← Draw.chance 50 then Draw.chooseD e.strings "" else Draw.chooseD e.propertyNames ""

/-- A property name of the pool. -/
def randomPropertyName : Build String := do Draw.chooseD (← environment).propertyNames "a"

/-- A method of the object's group, or any method if the group is not known. -/
def randomMethodName (object : Variable) : Build String := do
  let e ← environment
  if let .object (some group) ← typeOf object then
    if let some name ← Draw.choose (e.methodsOf group) then return name
  Draw.chooseD e.methodNames "toString"

/-- The name of a builtin. -/
def randomBuiltin : Build String := do Draw.chooseD (← environment).builtins.names "Object"

/-- A pattern and flags for it. -/
def randomRegExp : Build (String × String) := do
  let e ← environment
  let pattern ← Draw.chooseD e.regExpPatterns ""
  let flags ← Draw.chooseD e.regExpFlags ""
  return (pattern, flags)

/-- A number of parameters up to the limit of the settings. -/
def randomParameterCount : Build Nat := do
  Draw.nat64 0 (← look (·.settings.maxParameters)).toNat

/-- An integer as a fresh value. -/
def freshInteger : Build Variable := do integer (← randomInteger)

/-- A script value, which is a fresh integer if none is visible. -/
def randomScriptValue : Build Variable := do
  match ← randomVariable StaticType.isScriptValue with
  | some v => return v
  | none => freshInteger

/-- The results of repeated computations. -/
def times (n : Nat) (body : Build α) : Build (List α) :=
  match n with
  | 0 => return []
  | n + 1 => do
    let a ← body
    return a :: (← times n body)

/-- Arguments for a call, one for each parameter if the parameters are known. -/
def randomArguments (function : Variable) : Build (List Variable) := do
  match ← typeOf function with
  | .function parameters => times parameters.toNat randomScriptValue
  | _ => times (← randomParameterCount) randomScriptValue

/-! ### WebAssembly values -/

/-- One of the four numeric types. -/
def randomNumericType : Build WasmType := do Draw.chooseD WasmType.numeric .i32

/-- One of the two reference types. -/
def randomReferenceType : Build WasmType := do Draw.chooseD WasmType.references .funcRef

/-- Integers at the ends of ranges. -/
def specialWords32 : List Int32 := [0, 1, -1, -2147483648, 2147483647, 0xffff, 0x10000]

/-- Integers at the ends of ranges. -/
def specialWords64 : List Int64 :=
  [0, 1, -1, -9223372036854775808, 9223372036854775807, 0xffffffff, 0x100000000]

/-- 0, -0, 1, the greatest single, the least normal one, infinity and NaN. -/
def specialSingles : List Single :=
  [⟨0⟩, ⟨0x80000000⟩, ⟨0x3f800000⟩, ⟨0x7f7fffff⟩, ⟨0x00800000⟩, ⟨0x7f800000⟩, ⟨0x7fc00000⟩]

/-- 0, -0, 1, the greatest double, the least normal one, negative infinity and NaN. -/
def specialDoubles : List Double :=
  [⟨0⟩, ⟨0x8000000000000000⟩, ⟨0x3ff0000000000000⟩, ⟨0x7fefffffffffffff⟩, ⟨0x0010000000000000⟩,
    ⟨0xfff0000000000000⟩, ⟨0x7ff8000000000000⟩]

/-- A constant of a type: sometimes a special one, otherwise a number of moderate size. -/
def randomLiteral (type : WasmType) : Build WasmLiteral := do
  let special ← Draw.chance 25
  match type with
  | .i32 =>
    if special then return .i32 (← Draw.chooseD specialWords32 0)
    else return .i32 (Int32.ofInt (← Draw.int32 (-1024) 1023))
  | .i64 =>
    if special then return .i64 (← Draw.chooseD specialWords64 0)
    else return .i64 (Int64.ofInt (← Draw.int64 (-1024) 1023))
  | .f32 =>
    if special then return .f32 (← Draw.chooseD specialSingles .zero)
    else return .f32 (← Draw.single (-1000) 1000)
  | .f64 =>
    if special then return .f64 (← Draw.chooseD specialDoubles .zero)
    else return .f64 (← Draw.double (-1000) 1000)
  | .externRef | .funcRef => return .nullRef type

/-- A numeric signature with at most one result. -/
def randomSignature : Build FunctionSignature := do
  let params ← times (← randomParameterCount) randomNumericType
  let results ← if ← Draw.chance 80 then times 1 randomNumericType else pure []
  return ⟨params, results⟩

/-- A value of a type: a visible one, or a constant. -/
def wasmValueOf (type : WasmType) : Build Variable := do
  if ← Draw.chance 80 then
    if let some v ← randomOfType (.wasm type) then return v
  value (.wasmConst (← randomLiteral type)) []

/-- Whether a variable is visible and has a type. -/
def fits (type : WasmType) (v : Variable) : Build Bool :=
  look fun b => b.scopes.isVisible v && (b.typeOf v).isWasmValue type

/-- A function of a module.  The body is given the parameters and may yield the result; without a
result of the right type another value is taken. -/
def wasmFunctionBlock (signature : FunctionSignature)
    (body : List Variable → Build (Option Variable × α)) : Build (Variable × α) := do
  let i ← emit (.beginWasmFunction signature) []
  let (result?, a) ← body i.innerOutputs
  let results ← match signature.result with
    | none => pure []
    | some type => do
      match result? with
      | some v => if ← fits type v then pure [v] else pure [← wasmValueOf type]
      | none => pure [← wasmValueOf type]
  return (← value (.endWasmFunction signature) results, a)

/-- A function of a module whose body yields nothing but the result. -/
def wasmFunction (signature : FunctionSignature)
    (body : List Variable → Build (Option Variable)) : Build Variable := do
  return (← wasmFunctionBlock signature fun params => do return (← body params, ())).1

/-- A value for the result of a signature. -/
def resultFor (signature : FunctionSignature) : Build (Option Variable) := do
  match signature.result with
  | none => return none
  | some type => return some (← wasmValueOf type)

/-! ### Limits -/

/-- A minimum up to `least` and, every other time, a maximum up to `more` above it. -/
def randomLimits (least more : Nat) : Build (UInt32 × Option UInt32) := do
  let minimum ← Draw.nat32 0 least
  if ← Draw.chance 50 then
    return (minimum.toUInt32, some (minimum + (← Draw.nat32 0 more)).toUInt32)
  else return (minimum.toUInt32, none)

end EngineFuzz.Build
