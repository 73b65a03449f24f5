import EngineFuzz.Generation.Run

/-!
# Scenarios

The code of each template.  Every scenario closes the blocks that it opens.

* `Template.code`: the code that a template appends.
-/

namespace EngineFuzz.Scenario

open Build Generate

/-- The budget of code between the parts of a scenario. -/
def smallBlock : Nat := 5

/-- A loop that runs often enough for code to be optimised. -/
def hotLoop (body : Variable → Build Unit) : Build Unit :=
  repeatBlock hotIterations.toUInt32 body

/-! ### Script code -/

/-- Values, and then code of every kind. -/
def codegen (size : Nat) : Build Unit := do
  values
  build size

/-- A function with generated code and at least one parameter. -/
def generatedFunction (size : Nat) : Build Variable := do
  functionWith (max (← randomParameterCount) 1) (build size)

/-- Calls a function over and over. -/
def callInLoop (f : Variable) : Build Unit := hotLoop fun _ => callOnce f

/-- A function that is called in loops and between them. -/
def oneFunction : Build Unit := do
  values
  build smallBlock
  let f ← generatedFunction 30
  build smallBlock
  callInLoop f
  build smallBlock
  callOnce f
  callInLoop f
  build smallBlock
  callOnce f

/-- Two functions that are called in loops and between them. -/
def twoFunctions : Build Unit := do
  values
  build smallBlock
  let f ← generatedFunction 20
  let g ← generatedFunction 20
  build smallBlock
  callInLoop f
  callInLoop g
  build smallBlock
  callOnce g
  callOnce f
  callInLoop f
  callInLoop g
  build smallBlock
  callOnce f
  callOnce g

/-- A condition that holds in only some iterations. -/
def iterationCondition (iteration : Variable) : Build Variable := do
  if ← Draw.chance 50 then
    let selected ←
      if ← Draw.chance 50 then (Draw.nat32 (hotIterations - 10) (hotIterations - 1) : Build Nat)
      else (Draw.nat32 0 (hotIterations - 1) : Build Nat)
    Build.compare iteration (← Build.integer selected) .equal
  else
    let modulus ← Build.integer (← Draw.chooseD [2, 5, 10, 25] 2)
    let remainder ← binary iteration modulus .mod
    let zero ← Build.integer 0
    Build.compare remainder zero .equal

/-- Generated code that runs in only some iterations. -/
def codeForSomeIterations (iteration : Variable) : Build Unit := do
  let condition ← iterationCondition iteration
  hide condition
  ifBlock condition (build smallBlock)

/-- Calls a function with the number of the iteration and with further arguments. -/
def callWithIteration (f : Variable) (extra : Nat) (iteration : Variable) : Build Unit := do
  codeForSomeIterations iteration
  let args ← times extra randomScriptValue
  let _ ← call f (iteration :: args) false

/-- A function whose behaviour depends on the iteration it is called in, and calls of it.  The
iteration is its first parameter. -/
def trickyCalls (parameters extra : Nat) : Build Unit := do
  let f ← function parameters fun params => do
    build smallBlock
    codeForSomeIterations (firstOf params)
    build 20
    giveBack (some (← randomScriptValue))
  build smallBlock
  repeatBlock 2 fun _ => hotLoop (callWithIteration f extra)
  hotLoop (callWithIteration f extra)

/-- A function whose behaviour depends on the iteration it is called in.  The number of parameters
is a word, so that the one parameter more may be none at all. -/
def trickyFunction : Build Unit := do
  values
  build smallBlock
  let extra ← randomParameterCount
  let parameters := (extra.toUInt64 + 1).toNat
  if parameters = 0 then stop .missingParameter else trickyCalls parameters extra

/-! ### Texts and serialised values -/

/-- A function from a length to an index below it. -/
def indexFunction : Build Variable :=
  function 1 fun params => do
    let math ← Build.builtin "Math"
    let fraction ← value (.loadFloat (← Draw.double 0 1)) []
    let scaled ← binary fraction (firstOf params) .mul
    giveBack (some (← callMethod math "floor" [scaled] false))

/-- A function that flips bits of one character of a text. -/
def flipFunction : Build Variable :=
  function 1 fun params => do
    let subject := firstOf params
    let randomIndex ← indexFunction
    let string ← Build.builtin "String"
    let length ← property subject "length"
    let index ← call randomIndex [length] false
    let zero ← Build.integer 0
    let before ← callMethod subject "substring" [zero, index] false
    let one ← Build.integer 1
    let next ← binary index one .add
    let after ← callMethod subject "substring" [next] false
    let code ← callMethod subject "charCodeAt" [index] false
    let mask ← Build.integer (← Draw.int64 1 127)
    let flipped ← binary code mask .xor
    let character ← callMethod string "fromCharCode" [flipped] false
    let head ← binary before character .add
    giveBack (some (← binary head after .add))

/-- Passes some of the values to a function and keeps the others. -/
def flipSome (flip : Variable) (payload : Variable) : Build Variable := do
  if ← Draw.chance 25 then call flip [payload] true else return payload

/-- JSON texts, some of them damaged, are read again. -/
def jsonText : Build Unit := do
  values
  build 25
  let json ← Build.builtin "JSON"
  let count ← Draw.nat32 1 5
  let payloads ← times count do callMethod json "stringify" [← randomScriptValue] false
  let flip ← flipFunction
  let payloads ← payloads.mapM (flipSome flip)
  let _ ← times (payloads.length * 2) do
    callMethod json "parse" [← Draw.chooseD payloads json] true
  build 25

/-- Objects that share few property names. -/
def mapTransition : Build Unit := do
  withGenerators (Generator.weighted Generator.mapTransition) do
    let _ ← times (← look (·.settings.prefixSize)).toNat mapObject
    build 100
  build 10

/-- A serialised value of which one byte is changed. -/
def valueSerializer : Build Unit := do
  values
  build 50
  let v ← randomScriptValue
  let index ← Draw.int64 0 99
  let flip ← Draw.chance 50
  let bit ← Draw.nat32 0 7
  let replacement ← Draw.int64 0 255
  Build.guarded do
    let global ← Build.builtin "globalThis"
    let shell ← property global "d8"
    let serializer ← property shell "serializer"
    let content ← callMethod serializer "serialize" [v] false
    let bytesConstructor ← Build.builtin "Uint8Array"
    let bytes ← construct bytesConstructor [content] false
    let newByte ←
      if flip then do
        let mask ← Build.integer (Nat.pow 2 bit)
        let old ← value (.getElement (Int64.ofInt index)) [bytes]
        binary old mask .xor
      else Build.integer replacement
    perform (.setElement (Int64.ofInt index)) [bytes, newByte]
    let _ ← callMethod serializer "deserialize" [content] false
  build 10

/-- Texts that say where matching starts, some of which are no index. -/
def lastIndices : List String :=
  ["undefined", "-1", "0", "1", "2", "3", "4", "5", "6", "7", "8", "9", "50", "4294967296",
    "2147483647", "2147483648", "NaN", "Not a Number"]

/-- Replacement texts, with and without references to groups. -/
def replacements : List String := ["X", "$1$2$3", "$$$&$`$'$1"]

/-- A text with characters outside the Latin ones. -/
def wideSubject : String := "f💩ba☃"

/-- One of the operations that match a text. -/
def matchOperation (expression subject : Variable) : Build Variable := do
  match ← Draw.nat32 0 3 with
  | 0 => callMethod expression "exec" [subject] false
  | 1 => callMethod subject "match" [expression] false
  | 2 =>
    let replacement ←
      if ← Draw.chance 50 then randomString else (Draw.chooseD replacements "X" : Build String)
    callMethod subject "replace" [expression, ← text replacement] false
  | _ => callMethod subject "search" [expression] false

/-- A regular expression is applied to a text from a random index on. -/
def regExp : Build Unit := do
  let f ← function 0 fun _ => do
    let (pattern, flags) ← randomRegExp
    let expression ← value (.loadRegExp pattern flags) []
    setProperty expression "lastIndex" (← text (← Draw.chooseD lastIndices "0"))
    let subject ← if ← Draw.chance 10 then text wideSubject else text (← randomString)
    let result ← value .loadNull []
    Build.guarded do perform .reassign [result, ← matchOperation expression subject]
    giveBack (some result)
  let _ ← call f [] false
  build smallBlock

/-! ### WebAssembly -/

/-- Runs a computation with the generators that WebAssembly needs. -/
def withWasm (body : Build Unit) : Build Unit := do
  withGenerators (← look (·.toolbox.wasmGenerators)) body

/-- Calls each exported function once. -/
def callEveryExport (exports : Variable) : Build Unit := do
  (exportedFunctions (← signatureOf exports)).forM fun (name, signature) =>
    callExport exports name signature

/-- A function of a module with generated code. -/
def generatedWasmFunction (size : Nat) : Build Unit := do
  let _ ← randomWasmFunction (build size)

/-- A random module whose memory, functions and globals are used. -/
def wasmModule : Build Unit := do
  values
  withWasm do
    let (_, exports) ← randomModule nested
    let memory ← exportedMemory exports 0
    let _ ← times 5 (writeSomewhere memory 0 1023 32)
    callEveryExport exports
    if let some name ← Draw.choose (exportsOf (← signatureOf exports) .global) then
      let global ← exportedGlobal exports name
      let _ ← binary global (← Build.integer 42) .add

/-- Pairs of integers that are passed in turn. -/
def edgeCases : List (Int × Int) :=
  [(42, 7), (0, 0), (9223372036854775807, -9223372036854775808)]

/-- Arguments that alternate between two integers. -/
def alternatingArguments (pair : Int × Int) : List WasmType → Build (List Variable)
  | [] => return []
  | type :: rest => do
    let v ← numberFor type pair.1
    return v :: (← alternatingArguments (pair.2, pair.1) rest)

/-- Calls every exported function with one of the edge cases. -/
def callWithEdgeCases (exports : Variable) : Build Unit := do
  (exportedFunctions (← signatureOf exports)).forM fun (name, signature) => do
    let pair ← Draw.chooseD edgeCases (0, 0)
    let f ← exported exports name
    let args ← alternatingArguments pair signature.params
    let _ ← call f args true

/-- Writes one random byte. -/
def writeByte (memory : Variable) (offset : Nat) : Build Unit := do
  writeMemory memory offset [← Draw.byte]

/-- A module that imports one entity of each category and is instantiated twice. -/
def wasmScenario : Build Unit := do
  values
  withWasm do
    let memory ← value (.createWasmMemory 1 (some 4) false) []
    let table ← value (.createWasmTable .funcRef 10 none) []
    let global ← value (.createWasmGlobal (.i32 1) true) []
    let callback ← function 2 fun params => do
      nested
      giveBack (some (firstOf params))
    let (m, _) ← module do
      let _ ← value (.wasmImportFunction ⟨[.i32, .i32], [.i32]⟩) [callback]
      let _ ← value .wasmImportGlobal [global]
      let _ ← value .wasmImportTable [table]
      let _ ← value .wasmImportMemory [memory]
      build 20
      generatedWasmFunction 20
    let exports ← instantiate m (← importsFor (← signatureOf m))
    let exportedMemory ← exportedMemory exports 0
    [(0, 128), (256, 384), (512, 640), (768, 896)].forM fun (lowest, highest) => do
      writeSomewhere exportedMemory lowest highest 64
      if ← Draw.chance 50 then callEveryExport exports
    callWithEdgeCases exports
    let flag ← exportedGlobal exports "global0"
    let one ← Build.integer 1
    let condition ← Build.compare flag one .equal
    ifElseBlock condition (callEveryExport exports) fun _ => build smallBlock
    repeatBlock 10 fun _ => do
      callEveryExport exports
      writeByte exportedMemory 8

/-- A function that increments a word of its module's memory. -/
def wasmMemory : Build Unit := do
  values
  withWasm do
    let (_, exports) ← module do
      let memory ← value (.wasmDefineMemory 1 (some 2)) []
      let _ ← wasmFunction ⟨[.i32], [.i32]⟩ fun params => do
        let address := firstOf params
        let v ← value (.wasmMemoryLoad .i32 0) [memory, address]
        let one ← wasmInteger 1
        let next ← value (.wasmIntBinary .bits32 .add) [v, one]
        perform (.wasmMemoryStore .i32 0) [memory, address, next]
        build 10
        return some next
    let memory ← exportedMemory exports 0
    let _ ← times 3 (writeSomewhere memory 0 65532 4)
    hotLoop fun i => do
      let f ← exported exports "function0"
      let _ ← call f [i] true
    build smallBlock

/-- A function that reads and writes an imported global. -/
def wasmGlobal : Build Unit := do
  values
  withWasm do
    let type ← randomNumericType
    let literal ← randomLiteral type
    let imported ← value (.createWasmGlobal literal true) []
    let (_, exports) ← module do
      let global ← value .wasmImportGlobal [imported]
      let literal ← randomLiteral type
      let _ ← value (.wasmDefineGlobal literal (← Draw.chance 50)) []
      let _ ← wasmFunction ⟨[], [type]⟩ fun _ => do
        let v ← value .wasmLoadGlobal [global]
        build 10
        perform .wasmStoreGlobal [global, ← wasmValueOf type]
        return some v
    callEveryExport exports
    ["global0", "global1"].forM fun name => do
      let v ← exportedGlobal exports name
      let _ ← binary v (← numberFor type 2) .mul
    let _ ← property imported "value"

/-- Some functions of a module that are called in loops. -/
def wasmFunctions : Build Unit := do
  values
  withWasm do
    let (_, exports) ← module do
      let count ← Draw.nat32 2 4
      let _ ← times count (generatedWasmFunction 15)
    (exportedFunctions (← signatureOf exports)).forM fun (name, signature) =>
      hotLoop fun _ => callExport exports name signature

/-- A function that copies an entry of an imported table. -/
def wasmTable : Build Unit := do
  values
  withWasm do
    let element ← randomReferenceType
    let table ← value (.createWasmTable element 4 (some 16)) []
    let (_, exports) ← module do
      let imported ← value .wasmImportTable [table]
      let _ ← value (.wasmDefineTable element 2 none) []
      let _ ← wasmFunction ⟨[.i32], []⟩ fun params => do
        let entry ← value .wasmTableGet [imported, firstOf params]
        let index ← wasmInteger 0
        perform .wasmTableSet [imported, index, entry]
        build 10
        return none
    callEveryExport exports
    let delta ← Build.integer 2
    let _ ← callMethod table "grow" [delta] true
    let length ← property table "length"
    let _ ← callMethod table "get" [length] true

/-- A function that calls an imported one, which another instance replaces. -/
def wasmImport : Build Unit := do
  values
  withWasm do
    let callback ← functionWith (← randomParameterCount) (build smallBlock)
    let (m, exports) ← module do
      let signature ← randomSignature
      let imported ← value (.wasmImportFunction signature) [callback]
      let outer ← randomSignature
      let _ ← wasmFunctionWith outer do
        let _ ← wasmCall imported (← signature.params.mapM wasmValueOf)
        build 10
    callEveryExport exports
    let replacement ← functionWith 0 (pure ())
    let second ← instantiate m [replacement]
    callEveryExport second

/-- A module with an imported and a defined memory, which are written at the ends of pages. -/
def wasmMemories : Build Unit := do
  values
  withWasm do
    let imported ← value (.createWasmMemory 1 (some 2) (← Draw.chance 30)) []
    let (_, exports) ← module do
      let _ ← value .wasmImportMemory [imported]
      let _ ← value (.wasmDefineMemory 1 none) []
      build 20
      generatedWasmFunction 20
    [0, 1].forM fun index => do
      let memory ← exportedMemory exports index
      [0, 65532, 65535, 65536].forM (writeByte memory)
    repeatBlock 10 fun _ => callEveryExport exports
    let delta ← Build.integer 1
    let _ ← callMethod imported "grow" [delta] true
    callEveryExport exports

/-- A function that sums up in an imported global, and another module that calls it. -/
def wasmImportExport : Build Unit := do
  values
  withWasm do
    let global ← value (.createWasmGlobal (.i64 0) true) []
    let (m, first) ← module do
      let imported ← value .wasmImportGlobal [global]
      let _ ← wasmFunction ⟨[.i64], [.i64]⟩ fun params => do
        let current ← value .wasmLoadGlobal [imported]
        let sum ← value (.wasmIntBinary .bits64 .add) [current, firstOf params]
        perform .wasmStoreGlobal [imported, sum]
        build 10
        return some sum
    let other ← value (.createWasmGlobal (.i64 1099511627776) true) []
    let second ← instantiate m [other]
    callEveryExport first
    callEveryExport second
    let callee ← exported first "function0"
    let (_, relay) ← module do
      let imported ← value (.wasmImportFunction ⟨[.i64], [.i64]⟩) [callee]
      let _ ← wasmFunction ⟨[], [.i64]⟩ fun _ => do
        let arg ← value (.wasmConst (.i64 3)) []
        return (← wasmCall imported [arg]).head?
    callEveryExport relay
    let _ ← property global "value"

/-- A large piece of code of every kind that WebAssembly needs. -/
def wasmCombination : Build Unit := do
  values
  withWasm (build 60)
  build smallBlock

end EngineFuzz.Scenario

namespace EngineFuzz.Template

/-- Appends the code of a template. -/
def code : Template → Build Unit
  | codegen100 => Scenario.codegen 100
  | codegen50 => Scenario.codegen 50
  | oneFunction => Scenario.oneFunction
  | twoFunctions => Scenario.twoFunctions
  | trickyFunction => Scenario.trickyFunction
  | jsonText => Scenario.jsonText
  | wasmModule => Scenario.wasmModule
  | wasmScenario => Scenario.wasmScenario
  | wasmMemory => Scenario.wasmMemory
  | wasmGlobal => Scenario.wasmGlobal
  | wasmFunctions => Scenario.wasmFunctions
  | wasmTable => Scenario.wasmTable
  | wasmImport => Scenario.wasmImport
  | wasmMemories => Scenario.wasmMemories
  | wasmImportExport => Scenario.wasmImportExport
  | wasmCombination => Scenario.wasmCombination
  | mapTransition => Scenario.mapTransition
  | valueSerializer => Scenario.valueSerializer
  | regExp => Scenario.regExp

end EngineFuzz.Template
