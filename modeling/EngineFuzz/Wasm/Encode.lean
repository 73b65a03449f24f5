import EngineFuzz.Binary.Codec
import EngineFuzz.Wasm.Module

/-!
# The binary form of modules

Sections are written in the order of the standard and left out when they are empty.  A section is
its number, its length and its contents; a vector is its length and its items.

* `Leb128.unsigned`, `Leb128.signed`: a number.
* `Instr.encode`: an instruction.
* `WasmModule.encode`: a whole module.
-/

namespace EngineFuzz

/-! ### Numbers of variable length

A number is written seven bits a byte, lowest first; every byte but the last has its high bit set.
Signed numbers end as soon as the sign can be told from the highest bit of the last seven. -/

namespace Leb128

/-- A natural. -/
def unsigned (n : Nat) : List UInt8 :=
  if n < 128 then [n.toUInt8] else (n % 128 + 128).toUInt8 :: unsigned (n / 128)
termination_by n
decreasing_by omega

/-- An integer. -/
def signed (n : Int) : List UInt8 :=
  if -64 ≤ n ∧ n < 64 then [(n % 128).toNat.toUInt8]
  else ((n % 128).toNat + 128).toUInt8 :: signed (n / 128)
termination_by n.natAbs
decreasing_by omega

end Leb128

/-! ### Parts of a module -/

/-- A length and the items. -/
def encodeVector {α : Type} (encode : α → List UInt8) (items : List α) : List UInt8 :=
  Leb128.unsigned items.length ++ items.flatMap encode

/-- Bytes with their length in front. -/
def encodeSized (bytes : List UInt8) : List UInt8 := Leb128.unsigned bytes.length ++ bytes

/-- A text in UTF-8 with its length in front. -/
def encodeName (s : String) : List UInt8 := encodeSized s.toUTF8.toList

namespace WasmType

/-- The byte of the type. -/
def code : WasmType → UInt8
  | i32 => 0x7f
  | i64 => 0x7e
  | f32 => 0x7d
  | f64 => 0x7c
  | funcRef => 0x70
  | externRef => 0x6f

end WasmType

/-- The last byte of an instruction that applies an operator: the operators of an enumeration have
consecutive codes. -/
def opcode {α : Type} [Enumeration α] [BEq α] (first : UInt8) (op : α) : List UInt8 :=
  [first + (Enumeration.index op).toUInt8]

/-- A code for each width. -/
def byWidth (width : Width) (at32 at64 : UInt8) : UInt8 :=
  match width with
  | .bits32 => at32
  | .bits64 => at64

/-- Alignment, memory and offset of an access.  The memory 0 is left out. -/
def encodeAccess (type : WasmType) (offset : UInt64) (memory : Nat) : List UInt8 :=
  let alignment := Nat.log2 type.byteWidth
  if memory = 0 then Leb128.unsigned alignment ++ Leb128.unsigned offset.toNat
  else Leb128.unsigned (alignment + 64) ++ Leb128.unsigned memory ++ Leb128.unsigned offset.toNat

namespace WasmLiteral

/-- The instruction that pushes the literal. -/
def encode : WasmLiteral → List UInt8
  | i32 v => 0x41 :: Leb128.signed v.toInt
  | i64 v => 0x42 :: Leb128.signed v.toInt
  | f32 v => 0x43 :: littleEndian 4 v.bits.toNat
  | f64 v => 0x44 :: littleEndian 8 v.bits.toNat
  | nullRef t => [0xd0, t.asReference.code]

end WasmLiteral

namespace Instr

/-- The code of an access for each numeric type. -/
def accessCode (first : UInt8) : WasmType → UInt8
  | .i64 => first + 1
  | .f32 => first + 2
  | .f64 => first + 3
  | _ => first

/-- The opcode and what belongs to it. -/
def encode : Instr → List UInt8
  | const value => value.encode
  | intBinary width op => opcode (byWidth width 0x6a 0x7c) op
  | intUnary width op => opcode (byWidth width 0x67 0x79) op
  | intEqz width => [byWidth width 0x45 0x50]
  | intCompare width op => opcode (byWidth width 0x46 0x51) op
  | floatBinary width op => opcode (byWidth width 0x92 0xa0) op
  | floatUnary width op => opcode (byWidth width 0x8b 0x99) op
  | floatCompare width op => opcode (byWidth width 0x5b 0x61) op
  | localGet i => 0x20 :: Leb128.unsigned i
  | localSet i => 0x21 :: Leb128.unsigned i
  | globalGet i => 0x23 :: Leb128.unsigned i
  | globalSet i => 0x24 :: Leb128.unsigned i
  | tableGet i => 0x25 :: Leb128.unsigned i
  | tableSet i => 0x26 :: Leb128.unsigned i
  | load type offset memory => accessCode 0x28 type :: encodeAccess type offset memory
  | store type offset memory => accessCode 0x36 type :: encodeAccess type offset memory
  | call f => 0x10 :: Leb128.unsigned f
  | ret => [0x0f]
  | block => [0x02, 0x40]
  | loop => [0x03, 0x40]
  | ifThen => [0x04, 0x40]
  | elseThen => [0x05]
  | blockEnd => [0x0b]
  | br depth => 0x0c :: Leb128.unsigned depth
  | brIf depth => 0x0d :: Leb128.unsigned depth
  | unreachable => [0x00]

end Instr

/-- Minimum and maximum behind their flags. -/
def encodeLimits (minimum : UInt32) (maximum : Option UInt32) (shared : Bool) : List UInt8 :=
  let flags : UInt8 := (if maximum.isSome then 1 else 0) + (if shared then 2 else 0)
  flags :: (Leb128.unsigned minimum.toNat ++
    (maximum.map fun n => Leb128.unsigned n.toNat).getD [])

/-- The element type and the limits. -/
def TableType.encode (t : TableType) : List UInt8 :=
  t.element.asReference.code :: encodeLimits t.minimum t.maximum false

/-- The limits. -/
def MemoryType.encode (m : MemoryType) : List UInt8 := encodeLimits m.minimum m.maximum m.shared

/-- The type and whether the global is mutable. -/
def GlobalType.encode (g : GlobalType) : List UInt8 :=
  [g.type.code, if g.isMutable then 1 else 0]

/-- Parameters and results behind the mark of a function type. -/
def FunctionSignature.encode (s : FunctionSignature) : List UInt8 :=
  0x60 :: (encodeVector (fun t => [t.code]) s.params ++ encodeVector (fun t => [t.code]) s.results)

/-- Each local is a group of its own. -/
def FunctionBody.encode (b : FunctionBody) : List UInt8 :=
  encodeSized (encodeVector (fun (t : WasmType) => [0x01, t.code]) b.locals ++
    b.code.flatMap Instr.encode)

/-- The byte of the category in exports. -/
def EntityCategory.code : EntityCategory → UInt8
  | function => 0
  | table => 1
  | memory => 2
  | global => 3

/-- The category and the type. -/
def ImportType.encode : ImportType → List UInt8
  | function number => 0x00 :: Leb128.unsigned number
  | table t => 0x01 :: t.encode
  | memory t => 0x02 :: t.encode
  | global t => 0x03 :: t.encode

/-- The names and the type. -/
def ImportEntry.encode (i : ImportEntry) : List UInt8 :=
  encodeName i.module ++ encodeName i.name ++ i.type.encode

/-- The name, the category and the index. -/
def ExportEntry.encode (e : ExportEntry) : List UInt8 :=
  encodeName e.name ++ e.category.code :: Leb128.unsigned e.index

namespace WasmModule

/-- A section, unless it has no items. -/
def encodeSection {α : Type} (number : UInt8) (encode : α → List UInt8) (items : List α) :
    List UInt8 :=
  if items.isEmpty then [] else number :: encodeSized (encodeVector encode items)

/-- The magic number and the version. -/
def header : List UInt8 := [0x00, 0x61, 0x73, 0x6d, 0x01, 0x00, 0x00, 0x00]

/-- The header and all sections. -/
def encode (m : WasmModule) : List UInt8 :=
  header ++
    encodeSection 1 FunctionSignature.encode m.types ++
    encodeSection 2 ImportEntry.encode m.imports ++
    encodeSection 3 Leb128.unsigned m.functions ++
    encodeSection 4 TableType.encode m.tables ++
    encodeSection 5 MemoryType.encode m.memories ++
    encodeSection 6 (fun (g, value) => GlobalType.encode g ++ value.encode ++ [0x0b]) m.globals ++
    encodeSection 7 ExportEntry.encode m.exports ++
    encodeSection 10 FunctionBody.encode m.bodies

end WasmModule

end EngineFuzz
