import Mathlib
import EngineFuzz.Execution.Memory
import EngineFuzz.Proofs.Format.Codec
import EngineFuzz.Wasm.Encode

/-!
# Reading modules back

A reader of the binary format of the standard: sections in their order, each with its length and at
least one item, and nothing behind the last one.  It knows nothing of the writer, and takes any
alignment of an access and numbers that are longer than they have to be.  What it finds in the
bytes of a module are all parts of the module, as they are written.

* `WasmModule.decode?`: the module that some bytes are.
* `ByteReader.Reads`: a reader takes off some bytes, whatever follows them.
* `Leb128.reads_unsigned`, `Leb128.reads_signed`: numbers of variable length.
* `Instr.reads_encode`: instructions.
* `WasmModule.decode?_encode`: **the bytes of a module** are read as the module.
-/

namespace EngineFuzz

/-! ### Readers -/

namespace Leb128

/-- Reads a natural. -/
def readUnsigned : List UInt8 → Option (Nat × List UInt8)
  | [] => none
  | b :: rest =>
    if b.toNat < 128 then some (b.toNat, rest)
    else (readUnsigned rest).map fun (n, rest) => (b.toNat - 128 + 128 * n, rest)

/-- Reads an integer; the highest bit of its last seven is the sign. -/
def readSigned : List UInt8 → Option (Int × List UInt8)
  | [] => none
  | b :: rest =>
    if b.toNat < 64 then some (b.toNat, rest)
    else if b.toNat < 128 then some (b.toNat - 128, rest)
    else (readSigned rest).map fun (n, rest) => (b.toNat - 128 + 128 * n, rest)

end Leb128

namespace ByteReader

variable {α : Type}

/-- A 32-bit number of variable length. -/
def shortNumber : ByteReader UInt32 := do
  let n ← Leb128.readUnsigned
  if n < 2 ^ 32 then return n.toUInt32 else failure

/-- A number of items and the items. -/
def vector (reader : ByteReader α) : ByteReader (List α) := do
  replicate reader (← Leb128.readUnsigned)

/-- Items up to the end of the bytes, at most `count` of them. -/
def upToEnd (reader : ByteReader α) : Nat → ByteReader (List α)
  | _, [] => some ([], [])
  | 0, _ :: _ => none
  | count + 1, b :: rest =>
    (do return (← reader) :: (← upToEnd reader count) : ByteReader (List α)) (b :: rest)

/-- Items that are all the bytes. -/
def all (reader : ByteReader α) : ByteReader (List α) := do upToEnd reader (← get).length

/-- A length and a part of this length, all of which the reader takes. -/
def sized (reader : ByteReader α) : ByteReader α := do
  let size ← Leb128.readUnsigned
  let bytes ← get
  if bytes.length < size then failure
  match reader (bytes.take size) with
  | some (a, []) =>
    set (bytes.drop size)
    return a
  | _ => failure

/-- The text that all the bytes are in UTF-8. -/
def utf8 : ByteReader String := fun bytes =>
  (String.fromUTF8? ⟨bytes.toArray⟩).map fun s => (s, [])

/-- The items of the section with a number, which has to have some, if this section comes next. -/
def sectionItems (number : UInt8) (reader : ByteReader α) : ByteReader (List α) := do
  if (← get).head? ≠ some number then return []
  let _ ← byte
  let items ← sized (vector reader)
  if items.isEmpty then failure else return items

end ByteReader

open ByteReader

namespace WasmType

/-- The type that a byte stands for. -/
def ofCode? : UInt8 → Option WasmType
  | 0x7f => some .i32
  | 0x7e => some .i64
  | 0x7d => some .f32
  | 0x7c => some .f64
  | 0x70 => some .funcRef
  | 0x6f => some .externRef
  | _ => none

/-- A type. -/
def read : ByteReader WasmType := do
  match ofCode? (← byte) with
  | some t => return t
  | none => failure

/-- A type of references. -/
def readReference : ByteReader WasmType := do
  let t ← read
  if t.isReference then return t else failure

end WasmType

namespace Instr

/-- The numeric instructions in the order of their codes, which are consecutive and start at
0x45. -/
def numeric : List Instr :=
  let intCompares (width : Width) : List Instr :=
    intEqz width ::
      [.eq, .ne, .ltS, .ltU, .gtS, .gtU, .leS, .leU, .geS, .geU].map (intCompare width)
  let floatCompares (width : Width) : List Instr :=
    [.eq, .ne, .lt, .gt, .le, .ge].map (floatCompare width)
  let ints (width : Width) : List Instr :=
    [.clz, .ctz, .popcnt].map (intUnary width) ++
      [.add, .sub, .mul, .divS, .divU, .remS, .remU, .and, .or, .xor, .shl, .shrS, .shrU, .rotl,
        .rotr].map (intBinary width)
  let floats (width : Width) : List Instr :=
    [.abs, .neg, .ceil, .floor, .trunc, .nearest, .sqrt].map (floatUnary width) ++
      [.add, .sub, .mul, .div, .min, .max, .copysign].map (floatBinary width)
  intCompares .bits32 ++ intCompares .bits64 ++ floatCompares .bits32 ++ floatCompares .bits64 ++
    ints .bits32 ++ ints .bits64 ++ floats .bits32 ++ floats .bits64

/-- Alignment, memory and offset of an access to numbers of a type.  The alignment may be at most
that of the numbers; 64 more say that a memory is named. -/
def readAccess (type : WasmType) (access : WasmType → UInt64 → Nat → Instr) :
    ByteReader Instr := do
  let alignment ← Leb128.readUnsigned
  let memory ← if alignment < 64 then pure 0 else Leb128.readUnsigned
  let offset ← Leb128.readUnsigned
  if alignment % 64 ≤ Nat.log2 type.byteWidth ∧ alignment < 128 ∧ offset < 2 ^ 64 then
    return access type offset.toUInt64 memory
  else failure

/-- The empty type of a block behind its code. -/
def readBlock (i : Instr) : ByteReader Instr := do
  if (← byte) = 0x40 then return i else failure

/-- What is behind the code of an instruction. -/
def readBehind : UInt8 → ByteReader Instr
  | 0x00 => return unreachable
  | 0x02 => readBlock block
  | 0x03 => readBlock loop
  | 0x04 => readBlock ifThen
  | 0x05 => return elseThen
  | 0x0b => return blockEnd
  | 0x0c => return br (← Leb128.readUnsigned)
  | 0x0d => return brIf (← Leb128.readUnsigned)
  | 0x0f => return ret
  | 0x10 => return call (← Leb128.readUnsigned)
  | 0x20 => return localGet (← Leb128.readUnsigned)
  | 0x21 => return localSet (← Leb128.readUnsigned)
  | 0x23 => return globalGet (← Leb128.readUnsigned)
  | 0x24 => return globalSet (← Leb128.readUnsigned)
  | 0x25 => return tableGet (← Leb128.readUnsigned)
  | 0x26 => return tableSet (← Leb128.readUnsigned)
  | 0x28 => readAccess .i32 load
  | 0x29 => readAccess .i64 load
  | 0x2a => readAccess .f32 load
  | 0x2b => readAccess .f64 load
  | 0x36 => readAccess .i32 store
  | 0x37 => readAccess .i64 store
  | 0x38 => readAccess .f32 store
  | 0x39 => readAccess .f64 store
  | 0x41 => return const (.i32 (.ofInt (← Leb128.readSigned)))
  | 0x42 => return const (.i64 (.ofInt (← Leb128.readSigned)))
  | 0x43 => return const (.f32 ⟨← word⟩)
  | 0x44 => return const (.f64 ⟨← doubleWord⟩)
  | 0xd0 => return const (.nullRef (← WasmType.readReference))
  | code =>
    if code < 0x45 then failure
    else
      match numeric[code.toNat - 0x45]? with
      | some i => return i
      | none => failure

/-- An instruction. -/
def read : ByteReader Instr := do readBehind (← byte)

end Instr

/-- Minimum, maximum and whether the entity is shared, behind their flags. -/
def readLimits : ByteReader (UInt32 × Option UInt32 × Bool) := do
  match (← byte) with
  | 0 => return (← shortNumber, none, false)
  | 1 => return (← shortNumber, some (← shortNumber), false)
  | 2 => return (← shortNumber, none, true)
  | 3 => return (← shortNumber, some (← shortNumber), true)
  | _ => failure

/-- A type of tables, which cannot be shared. -/
def TableType.read : ByteReader TableType := do
  let element ← WasmType.readReference
  let (least, most, shared) ← readLimits
  if shared then failure else return ⟨element, least, most⟩

/-- A type of memories. -/
def MemoryType.read : ByteReader MemoryType := do
  let (least, most, shared) ← readLimits
  return ⟨least, most, shared⟩

/-- A type of globals. -/
def GlobalType.read : ByteReader GlobalType := do return ⟨← WasmType.read, ← flag⟩

/-- A global and the constant that it starts with. -/
def readGlobal : ByteReader (GlobalType × WasmLiteral) := do
  let type ← GlobalType.read
  match (← Instr.read), (← Instr.read) with
  | .const value, .blockEnd => return (type, value)
  | _, _ => failure

/-- A signature. -/
def FunctionSignature.read : ByteReader FunctionSignature := do
  if (← byte) ≠ 0x60 then failure
  return ⟨← vector WasmType.read, ← vector WasmType.read⟩

/-- A number of locals of a type. -/
def readLocals : ByteReader (List WasmType) := do
  let count ← Leb128.readUnsigned
  return List.replicate count (← WasmType.read)

/-- The body of a function. -/
def FunctionBody.read : ByteReader FunctionBody := sized do
  return ⟨(← vector readLocals).flatten, ← all Instr.read⟩

/-- What an import asks for. -/
def ImportType.read : ByteReader ImportType := do
  match (← byte) with
  | 0 => return .function (← Leb128.readUnsigned)
  | 1 => return .table (← TableType.read)
  | 2 => return .memory (← MemoryType.read)
  | 3 => return .global (← GlobalType.read)
  | _ => failure

/-- An import. -/
def ImportEntry.read : ByteReader ImportEntry := do
  return ⟨← sized utf8, ← sized utf8, ← ImportType.read⟩

/-- The category that a byte stands for. -/
def EntityCategory.ofCode? : UInt8 → Option EntityCategory
  | 0 => some .function
  | 1 => some .table
  | 2 => some .memory
  | 3 => some .global
  | _ => none

/-- An export. -/
def ExportEntry.read : ByteReader ExportEntry := do
  let name ← sized utf8
  match EntityCategory.ofCode? (← byte) with
  | some category => return ⟨name, category, ← Leb128.readUnsigned⟩
  | none => failure

namespace WasmModule

/-- The magic number of modules and their version. -/
def readHeader : ByteReader Unit := do
  if (← replicate byte 8) = [0x00, 0x61, 0x73, 0x6d, 0x01, 0x00, 0x00, 0x00] then return
  else failure

/-- The sections follow each other in the order of their numbers; the bodies of functions come
last. -/
def readSections : ByteReader WasmModule := do
  let types ← sectionItems 1 FunctionSignature.read
  let imports ← sectionItems 2 ImportEntry.read
  let functions ← sectionItems 3 Leb128.readUnsigned
  let tables ← sectionItems 4 TableType.read
  let memories ← sectionItems 5 MemoryType.read
  let globals ← sectionItems 6 readGlobal
  let exports ← sectionItems 7 ExportEntry.read
  let bodies ← sectionItems 10 FunctionBody.read
  return ⟨types, imports, functions, tables, memories, globals, exports, bodies⟩

/-- A module. -/
def read : ByteReader WasmModule := do
  readHeader
  readSections

/-- The module that all the bytes are. -/
def decode? (bytes : List UInt8) : Option WasmModule :=
  match read bytes with
  | some (m, []) => some m
  | _ => none

end WasmModule

/-! ### What is written

The binary form has no room for a reference of a type that is none, nor for an access to such a
value in memory: they are written as if the type were another one. -/

/-- The instruction that the bytes are. -/
def Instr.written : Instr → Instr
  | const value => const value.operand
  | load type offset memory => load (if type.isNumeric then type else .i32) offset memory
  | store type offset memory => store (if type.isNumeric then type else .i32) offset memory
  | i => i

/-- The type that the bytes are. -/
def TableType.written (t : TableType) : TableType := { t with element := t.element.asReference }

/-- The import that the bytes are. -/
def ImportEntry.written (i : ImportEntry) : ImportEntry :=
  match i.type with
  | .table t => { i with type := .table t.written }
  | _ => i

namespace WasmModule

/-- The module that the bytes are.  Only the types of references are not as they were. -/
def written (m : WasmModule) : WasmModule := { m with
  imports := m.imports.map ImportEntry.written
  tables := m.tables.map TableType.written
  globals := m.globals.map fun (type, value) => (type, value.operand)
  bodies := m.bodies.map fun b => { b with code := b.code.map Instr.written } }

end WasmModule

/-! ### What readers take -/

namespace ByteReader

variable {α β : Type} {reader : ByteReader α} {bytes bytes' rest : List UInt8} {a : α}

/-- The reader takes off these bytes, whatever follows, and gives the value. -/
def Reads (reader : ByteReader α) (bytes : List UInt8) (a : α) : Prop :=
  ∀ rest, reader (bytes ++ rest) = some (a, rest)

lemma Inverts.reads {writer : α → List UInt8} {P : α → Prop} (h : reader.Inverts writer P)
    (ha : P a) : reader.Reads (writer a) a := fun _ => (h _ _ _).mpr ⟨ha, rfl⟩

lemma reads_byte (b : UInt8) : byte.Reads [b] b := fun _ => rfl

lemma reads_pure (a : α) : (pure a : ByteReader α).Reads [] a := fun _ => rfl

/-- One reader behind another. -/
lemma Reads.bind {f : α → ByteReader β} {b : β} (h : reader.Reads bytes a)
    (hf : (f a).Reads bytes' b) : (reader >>= f).Reads (bytes ++ bytes') b := by
  intro rest
  rw [List.append_assoc]
  exact bind_eq_some_iff.mpr ⟨a, _, h _, hf rest⟩

/-- A reader behind which nothing more is read. -/
lemma Reads.last {f : α → ByteReader β} {b : β} (h : reader.Reads bytes a) (hf : f a = pure b) :
    (reader >>= f).Reads bytes b :=
  fun rest => bind_eq_some_iff.mpr ⟨a, rest, h rest, by rw [hf]; rfl⟩

/-- What is read and then only wrapped. -/
lemma Reads.map {f : α → β} (h : reader.Reads bytes a) :
    (do return f (← reader) : ByteReader β).Reads bytes (f a) :=
  h.last rfl

/-- A byte that decides about what follows. -/
lemma Reads.behind {f : UInt8 → ByteReader β} {code : UInt8} {b : β}
    (h : (f code).Reads bytes b) : (byte >>= f).Reads (code :: bytes) b :=
  (reads_byte code).bind h

lemma reads_replicate {encode : β → List UInt8} {value : β → α} {items : List β}
    (h : ∀ b ∈ items, reader.Reads (encode b) (value b)) :
    (replicate reader items.length).Reads (items.flatMap encode) (items.map value) := by
  induction items with
  | nil => exact reads_pure []
  | cons b items ih =>
      obtain ⟨hb, hitems⟩ := List.forall_mem_cons.mp h
      exact hb.bind (ih hitems).map

end ByteReader

/-! ### Numbers of variable length -/

namespace Leb128

variable {n : Nat}

lemma toNat_toUInt8_of_lt (h : n < 256) : n.toUInt8.toNat = n := by
  rw [ByteReader.toNat_toUInt8, Nat.mod_eq_of_lt h]

/-- **Naturals are read back.** -/
theorem reads_unsigned (n : Nat) : Reads readUnsigned (unsigned n) n := by
  intro rest
  induction n using unsigned.induct with
  | case1 n hn =>
      have hb : n.toUInt8.toNat = n := toNat_toUInt8_of_lt (by omega)
      rw [unsigned, if_pos hn, List.singleton_append, readUnsigned, hb, if_pos hn]
  | case2 n hn ih =>
      have hb : (n % 128 + 128).toUInt8.toNat = n % 128 + 128 := toNat_toUInt8_of_lt (by omega)
      have hvalue : n % 128 + 128 - 128 + 128 * (n / 128) = n := by omega
      rw [unsigned, if_neg hn, List.cons_append, readUnsigned, hb, if_neg (by omega), ih,
        Option.map_some]
      exact congrArg (fun k => some (k, rest)) hvalue

/-- **Integers are read back.** -/
theorem reads_signed (n : Int) : Reads readSigned (signed n) n := by
  intro rest
  induction n using signed.induct with
  | case1 n hn =>
      have hb : (n % 128).toNat.toUInt8.toNat = (n % 128).toNat := toNat_toUInt8_of_lt (by omega)
      rw [signed, if_pos hn, List.singleton_append, readSigned, hb]
      by_cases hneg : n < 0
      · have hvalue : ((n % 128).toNat : Int) - 128 = n := by omega
        rw [if_neg (by omega), if_pos (by omega), hvalue]
      · have hvalue : ((n % 128).toNat : Int) = n := by omega
        rw [if_pos (by omega), hvalue]
  | case2 n hn ih =>
      have hb : ((n % 128).toNat + 128).toUInt8.toNat = (n % 128).toNat + 128 :=
        toNat_toUInt8_of_lt (by omega)
      have hvalue : (((n % 128).toNat + 128 : Nat) : Int) - 128 + 128 * (n / 128) = n := by omega
      rw [signed, if_neg hn, List.cons_append, readSigned, hb, if_neg (by omega),
        if_neg (by omega), ih, Option.map_some]
      exact congrArg (fun k => some (k, rest)) hvalue

end Leb128

/-! ### Parts of known length -/

namespace ByteReader

variable {α β : Type} {reader : ByteReader α} {encode : β → List UInt8} {value : β → α}
  {bytes : List UInt8} {a : α}

lemma reads_shortNumber (n : UInt32) : shortNumber.Reads (Leb128.unsigned n.toNat) n := by
  refine (Leb128.reads_unsigned n.toNat).last ?_
  rw [if_pos n.toNat_lt, Nat.toUInt32_eq, UInt32.ofNat_toNat]

lemma reads_vector {items : List β} (h : ∀ b ∈ items, reader.Reads (encode b) (value b)) :
    (vector reader).Reads (encodeVector encode items) (items.map value) :=
  (Leb128.reads_unsigned _).bind (reads_replicate h)

/-- All of a part is read. -/
lemma reads_sized (h : reader bytes = some (a, [])) :
    (sized reader).Reads (encodeSized bytes) a := by
  intro rest
  rw [encodeSized, List.append_assoc]
  refine bind_eq_some_iff.mpr ⟨bytes.length, bytes ++ rest, Leb128.reads_unsigned _ _, ?_⟩
  refine bind_eq_some_iff.mpr ⟨bytes ++ rest, bytes ++ rest, rfl, ?_⟩
  rw [if_neg (by rw [List.length_append]; omega), List.take_left, h, List.drop_left]
  rfl

lemma Reads.eq_some (h : reader.Reads bytes a) : reader bytes = some (a, []) := by
  have hnil := h []
  rwa [List.append_nil] at hnil

lemma reads_name (s : String) : (sized utf8).Reads (encodeName s) s := by
  refine reads_sized ?_
  rw [utf8, fromUTF8?_eq_some_iff.mpr rfl, Option.map_some]

/-- Items up to the end, none of which is empty. -/
lemma upToEnd_flatMap {items : List β} {count : Nat}
    (h : ∀ b ∈ items, reader.Reads (encode b) (value b)) (hne : ∀ b, encode b ≠ [])
    (hc : items.length ≤ count) :
    upToEnd reader count (items.flatMap encode) = some (items.map value, []) := by
  induction items generalizing count with
  | nil => cases count <;> rfl
  | cons b items ih =>
      obtain ⟨hb, hitems⟩ := List.forall_mem_cons.mp h
      rw [List.length_cons] at hc
      obtain ⟨count, rfl⟩ : ∃ k, count = k + 1 := ⟨count - 1, by omega⟩
      obtain ⟨first, others, hcons⟩ := List.exists_cons_of_ne_nil (hne b)
      have hfirst := hb (items.flatMap encode)
      rw [hcons, List.cons_append] at hfirst
      rw [List.flatMap_cons, hcons, List.cons_append, upToEnd]
      refine bind_eq_some_iff.mpr ⟨value b, items.flatMap encode, hfirst, ?_⟩
      exact bind_eq_some_iff.mpr
        ⟨items.map value, [], ih hitems (Nat.le_of_succ_le_succ hc), rfl⟩

lemma length_le_flatMap (hne : ∀ b, encode b ≠ []) (items : List β) :
    items.length ≤ (items.flatMap encode).length := by
  induction items with
  | nil => exact Nat.zero_le _
  | cons b items ih =>
      have hpos := List.length_pos_iff.mpr (hne b)
      rw [List.flatMap_cons, List.length_append, List.length_cons]
      omega

lemma all_flatMap {items : List β} (h : ∀ b ∈ items, reader.Reads (encode b) (value b))
    (hne : ∀ b, encode b ≠ []) :
    all reader (items.flatMap encode) = some (items.map value, []) :=
  upToEnd_flatMap h hne (length_le_flatMap hne items)

end ByteReader

/-! ### Instructions -/

namespace WasmType

lemma reads_code (t : WasmType) : read.Reads [t.code] t := by
  cases t <;> exact fun _ => rfl

lemma reads_reference (t : WasmType) : readReference.Reads [t.asReference.code] t.asReference := by
  cases t <;> exact fun _ => rfl

end WasmType

namespace Instr

/-- An instruction that is only its code. -/
lemma reads_code {code : UInt8} {i : Instr} (h : readBehind code = pure i) :
    read.Reads [code] i := by
  refine Reads.behind ?_
  rw [h]
  exact reads_pure i

lemma reads_access {type : WasmType} {access : WasmType → UInt64 → Nat → Instr} {alignment : Nat}
    (h : alignment ≤ Nat.log2 type.byteWidth) (hs : alignment < 64) (offset : UInt64)
    (memory : Nat) :
    (readAccess type access).Reads
      (if memory = 0 then Leb128.unsigned alignment ++ Leb128.unsigned offset.toNat
        else Leb128.unsigned (alignment + 64) ++ Leb128.unsigned memory ++
          Leb128.unsigned offset.toNat) (access type offset memory) := by
  have hoffset : offset.toNat.toUInt64 = offset := by rw [Nat.toUInt64_eq, UInt64.ofNat_toNat]
  have hlt : offset.toNat < 2 ^ 64 := offset.toNat_lt
  intro rest
  split
  · rename_i hm
    subst hm
    rw [List.append_assoc]
    refine bind_eq_some_iff.mpr ⟨alignment, _, Leb128.reads_unsigned _ _, ?_⟩
    rw [if_pos hs]
    refine bind_eq_some_iff.mpr ⟨0, _, rfl, ?_⟩
    refine bind_eq_some_iff.mpr ⟨offset.toNat, _, Leb128.reads_unsigned _ _, ?_⟩
    rw [Nat.mod_eq_of_lt hs, if_pos ⟨h, by omega, hlt⟩, hoffset]
    rfl
  · rw [List.append_assoc, List.append_assoc]
    refine bind_eq_some_iff.mpr ⟨alignment + 64, _, Leb128.reads_unsigned _ _, ?_⟩
    rw [if_neg (by omega)]
    refine bind_eq_some_iff.mpr ⟨memory, _, Leb128.reads_unsigned _ _, ?_⟩
    refine bind_eq_some_iff.mpr ⟨offset.toNat, _, Leb128.reads_unsigned _ _, ?_⟩
    rw [if_pos ⟨by omega, by omega, hlt⟩, hoffset]
    rfl

lemma reads_load (type : WasmType) (offset : UInt64) (memory : Nat) :
    read.Reads (load type offset memory).encode (load type offset memory).written := by
  cases type <;> exact Reads.behind (reads_access (by decide) (by decide) offset memory)

lemma reads_store (type : WasmType) (offset : UInt64) (memory : Nat) :
    read.Reads (store type offset memory).encode (store type offset memory).written := by
  cases type <;> exact Reads.behind (reads_access (by decide) (by decide) offset memory)

lemma reads_literal (value : WasmLiteral) : read.Reads value.encode (const value.operand) := by
  cases value with
  | i32 v =>
      have h := (Leb128.reads_signed v.toInt).map (f := fun n => const (.i32 (.ofInt n)))
      rw [Int32.ofInt_toInt] at h
      exact Reads.behind h
  | i64 v =>
      have h := (Leb128.reads_signed v.toInt).map (f := fun n => const (.i64 (.ofInt n)))
      rw [Int64.ofInt_toInt] at h
      exact Reads.behind h
  | f32 v => exact Reads.behind (inverts_word.reads trivial).map
  | f64 v => exact Reads.behind (inverts_doubleWord.reads trivial).map
  | nullRef t => exact Reads.behind (WasmType.reads_reference t).map

/-- **Instructions are read back.** -/
theorem reads_encode (i : Instr) : read.Reads i.encode i.written := by
  cases i with
  | const value => exact reads_literal value
  | intBinary width op => cases width <;> cases op <;> exact reads_code rfl
  | intUnary width op => cases width <;> cases op <;> exact reads_code rfl
  | intEqz width => cases width <;> exact reads_code rfl
  | intCompare width op => cases width <;> cases op <;> exact reads_code rfl
  | floatBinary width op => cases width <;> cases op <;> exact reads_code rfl
  | floatUnary width op => cases width <;> cases op <;> exact reads_code rfl
  | floatCompare width op => cases width <;> cases op <;> exact reads_code rfl
  | load type offset memory => exact reads_load type offset memory
  | store type offset memory => exact reads_store type offset memory
  | ret => exact reads_code rfl
  | block => exact Reads.behind (fun _ => rfl)
  | loop => exact Reads.behind (fun _ => rfl)
  | ifThen => exact Reads.behind (fun _ => rfl)
  | elseThen => exact reads_code rfl
  | blockEnd => exact reads_code rfl
  | unreachable => exact reads_code rfl
  | localGet index => exact Reads.behind (Leb128.reads_unsigned index).map
  | localSet index => exact Reads.behind (Leb128.reads_unsigned index).map
  | globalGet index => exact Reads.behind (Leb128.reads_unsigned index).map
  | globalSet index => exact Reads.behind (Leb128.reads_unsigned index).map
  | tableGet index => exact Reads.behind (Leb128.reads_unsigned index).map
  | tableSet index => exact Reads.behind (Leb128.reads_unsigned index).map
  | call function => exact Reads.behind (Leb128.reads_unsigned function).map
  | br depth => exact Reads.behind (Leb128.reads_unsigned depth).map
  | brIf depth => exact Reads.behind (Leb128.reads_unsigned depth).map

lemma encode_ne_nil (i : Instr) : i.encode ≠ [] := by
  cases i with
  | const value => cases value <;> exact List.cons_ne_nil _ _
  | _ => exact List.cons_ne_nil _ _

end Instr

/-! ### Types, imports and exports -/

section Parts

variable {least : UInt32} {most : Option UInt32}

lemma reads_limits (least : UInt32) (most : Option UInt32) (shared : Bool) :
    readLimits.Reads (encodeLimits least most shared) (least, most, shared) := by
  cases most with
  | none =>
      cases shared
      · exact Reads.behind ((reads_shortNumber least).bind (reads_pure _))
      · exact Reads.behind ((reads_shortNumber least).bind (reads_pure _))
  | some most =>
      cases shared
      · exact Reads.behind ((reads_shortNumber least).bind (reads_shortNumber most).map)
      · exact Reads.behind ((reads_shortNumber least).bind (reads_shortNumber most).map)

lemma TableType.reads_encode (t : TableType) : TableType.read.Reads t.encode t.written :=
  (WasmType.reads_reference t.element).bind ((reads_limits t.minimum t.maximum false).last rfl)

lemma MemoryType.reads_encode (m : MemoryType) : MemoryType.read.Reads m.encode m :=
  (reads_limits m.minimum m.maximum m.shared).last rfl

lemma GlobalType.reads_encode (g : GlobalType) : GlobalType.read.Reads g.encode g :=
  (WasmType.reads_code g.type).bind ((inverts_flag.reads trivial).map)

/-- A global and its initial value. -/
lemma reads_global (g : GlobalType) (value : WasmLiteral) :
    readGlobal.Reads (g.encode ++ value.encode ++ [0x0b]) (g, value.operand) := by
  have hend : Instr.read.Reads [0x0b] .blockEnd := Instr.reads_encode .blockEnd
  rw [List.append_assoc]
  exact g.reads_encode.bind ((Instr.reads_literal value).bind (hend.last rfl))

lemma reads_types (types : List WasmType) :
    (vector WasmType.read).Reads (encodeVector (fun t => [t.code]) types) types := by
  have h : (vector WasmType.read).Reads _ (types.map id) :=
    reads_vector fun t _ => WasmType.reads_code t
  rwa [List.map_id] at h

lemma FunctionSignature.reads_encode (s : FunctionSignature) :
    FunctionSignature.read.Reads s.encode s :=
  Reads.behind ((reads_types s.params).bind (reads_types s.results).map)

end Parts

/-! ### Bodies, imports and exports -/

lemma reads_locals (t : WasmType) : readLocals.Reads [0x01, t.code] [t] := by
  cases t <;> exact fun _ => rfl

lemma FunctionBody.reads_encode (b : FunctionBody) :
    FunctionBody.read.Reads b.encode { b with code := b.code.map Instr.written } := by
  have hlocals : (vector readLocals).Reads _ (b.locals.map ([·])) :=
    reads_vector fun t _ => reads_locals t
  have hcode : all Instr.read _ = some (b.code.map Instr.written, []) :=
    all_flatMap (fun i _ => i.reads_encode) Instr.encode_ne_nil
  refine reads_sized (bind_eq_some_iff.mpr ⟨_, _, hlocals _, ?_⟩)
  refine bind_eq_some_iff.mpr ⟨_, _, hcode, ?_⟩
  rw [← List.flatMap_def, List.flatMap_singleton']
  rfl

lemma ImportEntry.reads_encode (i : ImportEntry) : ImportEntry.read.Reads i.encode i.written := by
  obtain ⟨module, name, type⟩ := i
  rw [encode, List.append_assoc]
  refine (reads_name module).bind ((reads_name name).bind ?_)
  cases type with
  | function number => exact (Reads.behind (Leb128.reads_unsigned number).map).last rfl
  | table t => exact (Reads.behind t.reads_encode.map).last rfl
  | memory t => exact (Reads.behind t.reads_encode.map).last rfl
  | global t => exact (Reads.behind t.reads_encode.map).last rfl

lemma ExportEntry.reads_encode (e : ExportEntry) : ExportEntry.read.Reads e.encode e := by
  obtain ⟨name, category, index⟩ := e
  refine (reads_name name).bind ?_
  cases category <;> exact Reads.behind (Leb128.reads_unsigned index).map

/-! ### Sections -/

namespace WasmModule

variable {α β γ : Type} {number before : UInt8} {bytes : List UInt8}

/-- The bytes are sections with numbers above this one, and the reader takes all of them. -/
structure SectionsBehind (number : UInt8) (reader : ByteReader α) (bytes : List UInt8)
    (a : α) : Prop where
  above : ∀ b ∈ bytes.head?, number < b
  eq_some : reader bytes = some (a, [])

/-- **One more section** in front of others.  Where it has no items, its number is not found. -/
lemma SectionsBehind.cons {reader : ByteReader α} {encode : β → List UInt8} {value : β → α}
    {items : List β} {f : List α → ByteReader γ} {c : γ} (hlt : before < number)
    (hitems : ∀ b, reader.Reads (encode b) (value b))
    (h : SectionsBehind number (f (items.map value)) bytes c) :
    SectionsBehind before (sectionItems number reader >>= f)
      (encodeSection number encode items ++ bytes) c := by
  cases items with
  | nil =>
      have hhead : bytes.head? ≠ some number := fun hb => UInt8.lt_irrefl _ (h.above number hb)
      refine ⟨fun b hb => UInt8.lt_trans hlt (h.above b hb),
        bind_eq_some_iff.mpr ⟨[], bytes, ?_, h.eq_some⟩⟩
      refine bind_eq_some_iff.mpr ⟨bytes, bytes, rfl, ?_⟩
      rw [if_pos hhead]
      rfl
  | cons b items =>
      have hread : (sized (vector reader)).Reads _ ((b :: items).map value) :=
        reads_sized (reads_vector fun b _ => hitems b).eq_some
      have hcons : encodeSection number encode (b :: items) ++ bytes =
          number :: (encodeSized (encodeVector encode (b :: items)) ++ bytes) := rfl
      rw [hcons]
      refine ⟨fun b hb => Option.some.inj hb ▸ hlt, bind_eq_some_iff.mpr ⟨_, bytes, ?_, h.eq_some⟩⟩
      refine bind_eq_some_iff.mpr ⟨_, _, rfl, ?_⟩
      rw [List.head?_cons, if_neg (not_not_intro rfl)]
      refine bind_eq_some_iff.mpr ⟨number, _, rfl, ?_⟩
      exact bind_eq_some_iff.mpr ⟨_, bytes, hread bytes, rfl⟩

/-- **The bytes of a module are read as the module.** -/
theorem decode?_encode (m : WasmModule) : decode? m.encode = some m.written := by
  have hbytes : m.encode = header ++
      (encodeSection 1 FunctionSignature.encode m.types ++
      (encodeSection 2 ImportEntry.encode m.imports ++
      (encodeSection 3 Leb128.unsigned m.functions ++
      (encodeSection 4 TableType.encode m.tables ++
      (encodeSection 5 MemoryType.encode m.memories ++
      (encodeSection 6 (fun x => x.1.encode ++ x.2.encode ++ [0x0b]) m.globals ++
      (encodeSection 7 ExportEntry.encode m.exports ++
      (encodeSection 10 FunctionBody.encode m.bodies ++ [])))))))) := by
    simp only [encode, List.append_assoc, List.append_nil]
  have hsections : SectionsBehind 0 readSections (m.encode.drop 8) m.written := by
    rw [hbytes]
    refine .cons (by decide) FunctionSignature.reads_encode ?_
    refine .cons (by decide) ImportEntry.reads_encode ?_
    refine .cons (by decide) Leb128.reads_unsigned ?_
    refine .cons (by decide) TableType.reads_encode ?_
    refine .cons (by decide) MemoryType.reads_encode ?_
    refine .cons (by decide) (fun x => reads_global x.1 x.2) ?_
    refine .cons (by decide) ExportEntry.reads_encode ?_
    refine .cons (by decide) FunctionBody.reads_encode
      ⟨fun b hb => absurd hb (Option.not_mem_none b), ?_⟩
    simp only [List.map_id']
    rfl
  have hread : read m.encode = some (m.written, []) := by
    refine bind_eq_some_iff.mpr ⟨(), m.encode.drop 8, ?_, hsections.eq_some⟩
    rw [hbytes]
    rfl
  rw [decode?, hread]

end WasmModule

end EngineFuzz
