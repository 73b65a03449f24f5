import Mathlib
import EngineFuzz.Program.Format
import EngineFuzz.Proofs.Format.Codec
import EngineFuzz.Proofs.Format.Schema

/-!
# The binary program format

Reading the stored form of a program inverts writing it, so that every program has one stored form
and every stored form is that of one program.

* `FieldValue.Countable`, `Program.Countable`: what has no text and no list that is too long for the
  words that count its members.
* `ByteReader.inverts_field`, `ByteReader.inverts_fields`, `ByteReader.inverts_operation`,
  `ByteReader.inverts_program`: the parts of the format.
* `Program.ofBytes_toBytes`: the main statement.
-/

namespace EngineFuzz

/-! ### What can be counted -/

/-- The lists and texts of the value are not longer than words of 64 bits tell. -/
def FieldValue.Countable : FieldValue → Prop
  | .text s => s.utf8ByteSize < 2 ^ 64
  | .texts items => items.length < 2 ^ 64 ∧ ∀ s ∈ items, s.utf8ByteSize < 2 ^ 64
  | .bytes items => items.length < 2 ^ 64
  | .signature s => s.params.length < 2 ^ 64 ∧ s.results.length < 2 ^ 64
  | _ => True

/-- The payload of the operation can be counted. -/
def Operation.Countable (op : Operation) : Prop := ∀ value ∈ op.toPayload.2, value.Countable

/-- The payload and the operands of the instruction can be counted. -/
structure Instruction.Countable (i : Instruction) : Prop where
  operation : i.operation.Countable
  inputs : i.inputs.length < 2 ^ 64
  outputs : i.outputs.length < 2 ^ 64
  innerOutputs : i.innerOutputs.length < 2 ^ 64

/-- The instructions of the program, and what they are made of, can be counted.  A program that is
held in memory always can. -/
structure Program.Countable (p : Program) : Prop where
  instructions : p.instructions.length < 2 ^ 64
  members : ∀ i ∈ p.instructions, i.Countable

namespace ByteReader

variable {fs : List (String × FieldKind)}

/-! ### Values -/

section

variable {α : Type} [Enumeration α] [BEq α] [LawfulBEq α] [Enumeration.Lawful α]

lemma toNat_toUInt32_index (a : α) :
    (Enumeration.index a).toUInt32.toNat = Enumeration.index a := by
  have h := (Enumeration.index_lt a).trans Enumeration.Lawful.length_all
  rw [Nat.toUInt32_eq, UInt32.toNat_ofNat_of_lt' (h.trans (by decide))]

lemma inverts_choice : Inverts (choice : ByteReader α) ByteWriter.choice fun _ => True := by
  intro bytes a rest
  simp only [choice, bind_eq_some_iff, inverts_word _ _ _, true_and]
  constructor
  · rintro ⟨w, mid, rfl, h⟩
    cases ho : (Enumeration.ofIndex? w.toNat : Option α) with
    | none =>
        rw [ho] at h
        exact absurd h failure_ne_some
    | some a' =>
        rw [ho] at h
        obtain ⟨rfl, rfl⟩ := pure_eq_some_iff.mp h
        rw [ByteWriter.choice, Enumeration.ofIndex?_eq_some_iff.mp ho, Nat.toUInt32_eq,
          UInt32.ofNat_toNat]
  · rintro rfl
    refine ⟨_, _, rfl, ?_⟩
    rw [toNat_toUInt32_index, Enumeration.ofIndex?_eq_some_iff.mpr rfl]
    rfl

end

lemma inverts_literal : Inverts literal ByteWriter.literal fun _ => True := by
  intro bytes v rest
  simp only [literal, bind_eq_some_iff, inverts_word _ _ _, true_and]
  constructor
  · rintro ⟨w, mid, rfl, h⟩
    split at h
    · obtain ⟨u, rfl, -, rfl⟩ := inverts_word.map_eq_some_iff.mp h
      exact (List.append_assoc ..).symm
    · obtain ⟨u, rfl, -, rfl⟩ := inverts_doubleWord.map_eq_some_iff.mp h
      exact (List.append_assoc ..).symm
    · obtain ⟨u, rfl, -, rfl⟩ := inverts_word.map_eq_some_iff.mp h
      exact (List.append_assoc ..).symm
    · obtain ⟨u, rfl, -, rfl⟩ := inverts_doubleWord.map_eq_some_iff.mp h
      exact (List.append_assoc ..).symm
    · obtain ⟨t, rfl, -, rfl⟩ := inverts_choice.map_eq_some_iff.mp h
      exact (List.append_assoc ..).symm
    · exact absurd h failure_ne_some
  · rintro rfl
    cases v with
    | i32 v | f32 v =>
        exact ⟨_, _, List.append_assoc ..,
          inverts_word.map_eq_some_iff.mpr ⟨_, rfl, trivial, rfl⟩⟩
    | i64 v | f64 v =>
        exact ⟨_, _, List.append_assoc ..,
          inverts_doubleWord.map_eq_some_iff.mpr ⟨_, rfl, trivial, rfl⟩⟩
    | nullRef t =>
        exact ⟨_, _, List.append_assoc ..,
          inverts_choice.map_eq_some_iff.mpr ⟨_, rfl, trivial, rfl⟩⟩

lemma inverts_signature : Inverts signature ByteWriter.signature fun s =>
    s.params.length < 2 ^ 64 ∧ s.results.length < 2 ^ 64 := by
  intro bytes s rest
  simp only [signature, bind_eq_some_iff, pure_eq_some_iff, inverts_choice.list _ _ _]
  constructor
  · rintro ⟨params, _, ⟨⟨hparams, -⟩, rfl⟩, results, _, ⟨⟨hresults, -⟩, rfl⟩, rfl, rfl⟩
    exact ⟨⟨hparams, hresults⟩, (List.append_assoc ..).symm⟩
  · rintro ⟨⟨hparams, hresults⟩, rfl⟩
    exact ⟨_, _, ⟨⟨hparams, fun _ _ => trivial⟩, List.append_assoc ..⟩,
      _, _, ⟨⟨hresults, fun _ _ => trivial⟩, rfl⟩, rfl, rfl⟩

/-- A field is read as what it holds. -/
lemma inverts_field (kind : FieldKind) : Inverts (field kind) ByteWriter.field fun value =>
    kind.Holds value ∧ value.Countable := by
  cases kind with
  | integer =>
      refine inverts_doubleWord.map (fun _ _ => ⟨⟨trivial, trivial⟩, rfl⟩) fun value h => ?_
      obtain ⟨v, rfl⟩ := h.1.exists_eq
      exact ⟨v.toUInt64, rfl, trivial⟩
  | size =>
      refine inverts_doubleWord.map (fun _ _ => ⟨⟨trivial, trivial⟩, rfl⟩) fun value h => ?_
      obtain ⟨v, rfl⟩ := h.1.exists_eq
      exact ⟨v, rfl, trivial⟩
  | word =>
      refine inverts_word.map (fun _ _ => ⟨⟨trivial, trivial⟩, rfl⟩) fun value h => ?_
      obtain ⟨v, rfl⟩ := h.1.exists_eq
      exact ⟨v, rfl, trivial⟩
  | optionalWord =>
      refine inverts_word.optional.map (fun _ _ => ⟨⟨trivial, trivial⟩, rfl⟩) fun value h => ?_
      obtain ⟨v, rfl⟩ := h.1.exists_eq
      exact ⟨v, rfl, fun _ _ => trivial⟩
  | flag =>
      refine inverts_flag.map (fun _ _ => ⟨⟨trivial, trivial⟩, rfl⟩) fun value h => ?_
      obtain ⟨v, rfl⟩ := h.1.exists_eq
      exact ⟨v, rfl, trivial⟩
  | double =>
      refine inverts_doubleWord.map (fun _ _ => ⟨⟨trivial, trivial⟩, rfl⟩) fun value h => ?_
      obtain ⟨v, rfl⟩ := h.1.exists_eq
      exact ⟨v.bits, rfl, trivial⟩
  | text =>
      refine inverts_text.map (fun _ hv => ⟨⟨trivial, hv⟩, rfl⟩) fun value h => ?_
      obtain ⟨v, rfl⟩ := h.1.exists_eq
      exact ⟨v, rfl, h.2⟩
  | texts =>
      refine inverts_text.list.map (fun _ hv => ⟨⟨trivial, hv⟩, rfl⟩) fun value h => ?_
      obtain ⟨v, rfl⟩ := h.1.exists_eq
      exact ⟨v, rfl, h.2⟩
  | bytes =>
      refine inverts_byte.list.map (fun _ hv => ⟨⟨trivial, hv.1⟩, rfl⟩) fun value h => ?_
      obtain ⟨v, rfl⟩ := h.1.exists_eq
      exact ⟨v, rfl, h.2, fun _ _ => trivial⟩
  | choice names =>
      intro bytes value rest
      simp only [field, bind_eq_some_iff, inverts_word _ _ _, true_and]
      constructor
      · rintro ⟨w, mid, rfl, h⟩
        split_ifs at h with hlt
        · obtain ⟨rfl, rfl⟩ := pure_eq_some_iff.mp h
          refine ⟨⟨⟨hlt, w.toNat_lt⟩, trivial⟩, ?_⟩
          rw [ByteWriter.field, Nat.toUInt32_eq, UInt32.ofNat_toNat]
        · exact absurd h failure_ne_some
      · rintro ⟨⟨hv, -⟩, rfl⟩
        obtain ⟨index, rfl, hlt, hword⟩ := hv.exists_eq
        have hn : index.toUInt32.toNat = index := by
          rw [Nat.toUInt32_eq, UInt32.toNat_ofNat_of_lt' hword]
        refine ⟨index.toUInt32, rest, rfl, ?_⟩
        rw [hn, if_pos hlt]
        rfl
  | literal =>
      refine inverts_literal.map (fun _ _ => ⟨⟨trivial, trivial⟩, rfl⟩) fun value h => ?_
      obtain ⟨v, rfl⟩ := h.1.exists_eq
      exact ⟨v, rfl, trivial⟩
  | signature =>
      refine inverts_signature.map (fun _ hv => ⟨⟨trivial, hv⟩, rfl⟩) fun value h => ?_
      obtain ⟨v, rfl⟩ := h.1.exists_eq
      exact ⟨v, rfl, h.2⟩

lemma inverts_fields : Inverts (fields fs) (·.flatMap ByteWriter.field) fun values =>
    List.Forall₂ (fun field value => field.2.Holds value) fs values ∧
      ∀ value ∈ values, value.Countable := by
  induction fs with
  | nil =>
      intro bytes values rest
      rw [fields, pure_eq_some_iff]
      constructor
      · rintro ⟨rfl, rfl⟩
        exact ⟨⟨.nil, List.forall_mem_nil _⟩, rfl⟩
      · rintro ⟨⟨⟨⟩, -⟩, rfl⟩
        exact ⟨rfl, rfl⟩
  | cons f fs ih =>
      intro bytes values rest
      simp only [fields, bind_eq_some_iff, pure_eq_some_iff, inverts_field _ _ _ _, ih _ _ _]
      constructor
      · rintro ⟨value, _, ⟨⟨hv, hc⟩, rfl⟩, values, _, ⟨⟨hvs, hcs⟩, rfl⟩, rfl, rfl⟩
        refine ⟨⟨.cons hv hvs, List.forall_mem_cons.mpr ⟨hc, hcs⟩⟩, ?_⟩
        rw [List.flatMap_cons, List.append_assoc]
      · rintro ⟨⟨hvs, hcs⟩, rfl⟩
        cases hvs with | cons hv hvs =>
        obtain ⟨hc, hcs⟩ := List.forall_mem_cons.mp hcs
        exact ⟨_, _, ⟨⟨hv, hc⟩, by rw [List.flatMap_cons, List.append_assoc]⟩, _, _,
          ⟨⟨hvs, hcs⟩, rfl⟩, rfl, rfl⟩

/-! ### Programs -/

/-- The field values of a variant give an operation, and there is no other way to write it. -/
lemma inverts_operation : Inverts operation ByteWriter.operation Operation.Countable := by
  intro bytes op rest
  simp only [operation, bind_eq_some_iff, inverts_word _ _ _, true_and]
  constructor
  · rintro ⟨w, mid, rfl, h⟩
    cases hshape : Operation.variants[w.toNat]? with
    | none =>
        rw [hshape] at h
        exact absurd h failure_ne_some
    | some shape =>
        rw [hshape] at h
        obtain ⟨values, mid, hvalues, hread⟩ := bind_eq_some_iff.mp h
        obtain ⟨⟨hholds, hc⟩, rfl⟩ := (inverts_fields _ _ _).mp hvalues
        obtain ⟨op', hop, hpayload⟩ := Operation.exists_operation hshape hholds
        rw [hop] at hread
        obtain ⟨rfl, rfl⟩ := pure_eq_some_iff.mp hread
        refine ⟨by rw [Operation.Countable, hpayload]; exact hc, ?_⟩
        have hw : w.toNat.toUInt32 = w := w.ofNat_toNat
        simp only [ByteWriter.operation, hpayload, hw, List.append_assoc]
  · rintro ⟨hc, rfl⟩
    obtain ⟨shape, hshape, hholds⟩ := op.exists_shape
    have hlt : op.toPayload.1 < 85 := (List.getElem?_eq_some_iff.mp hshape).1
    have hn : op.toPayload.1.toUInt32.toNat = op.toPayload.1 := by
      rw [Nat.toUInt32_eq, UInt32.toNat_ofNat_of_lt' (hlt.trans (by decide))]
    refine ⟨op.toPayload.1.toUInt32, _, List.append_assoc .., ?_⟩
    rw [hn, hshape]
    refine bind_eq_some_iff.mpr ⟨op.toPayload.2, rest, ?_, ?_⟩
    · exact (inverts_fields _ _ _).mpr ⟨⟨hholds, hc⟩, rfl⟩
    · rw [Operation.ofPayload?_toPayload]
      rfl

lemma inverts_variableNumber : Inverts variableNumber ByteWriter.variableNumber fun _ => True :=
  inverts_word.map (fun _ _ => ⟨trivial, rfl⟩) fun v _ => ⟨v.number, rfl, trivial⟩

lemma inverts_instruction :
    Inverts instruction ByteWriter.instruction Instruction.Countable := by
  intro bytes i rest
  simp only [instruction, bind_eq_some_iff, pure_eq_some_iff, inverts_operation _ _ _,
    inverts_variableNumber.list _ _ _]
  constructor
  · rintro ⟨op, _, ⟨hop, rfl⟩, inputs, _, ⟨⟨hin, -⟩, rfl⟩, outputs, _, ⟨⟨hout, -⟩, rfl⟩, inner, _,
      ⟨⟨hinner, -⟩, rfl⟩, rfl, rfl⟩
    refine ⟨⟨hop, hin, hout, hinner⟩, ?_⟩
    simp only [ByteWriter.instruction, List.append_assoc]
  · rintro ⟨⟨hop, hin, hout, hinner⟩, rfl⟩
    refine ⟨_, _, ⟨hop, ?_⟩, _, _, ⟨⟨hin, fun _ _ => trivial⟩, rfl⟩, _, _,
      ⟨⟨hout, fun _ _ => trivial⟩, rfl⟩, _, _, ⟨⟨hinner, fun _ _ => trivial⟩, rfl⟩, rfl, rfl⟩
    simp only [ByteWriter.instruction, List.append_assoc]

lemma inverts_program : Inverts program Program.toBytes Program.Countable := by
  intro bytes p rest
  simp only [program, bind_eq_some_iff, pure_eq_some_iff, inverts_instruction.list _ _ _,
    inverts_word _ _ _, true_and]
  constructor
  · rintro ⟨instructions, _, ⟨⟨hl, hm⟩, rfl⟩, version, _, rfl, rfl, rfl⟩
    exact ⟨⟨hl, hm⟩, (List.append_assoc ..).symm⟩
  · rintro ⟨⟨hl, hm⟩, rfl⟩
    exact ⟨_, _, ⟨⟨hl, hm⟩, List.append_assoc ..⟩, _, _, rfl, rfl, rfl⟩

end ByteReader

/-- **The binary format is a bijection on its image.**  A program of the current version is read
back from its stored form, whatever follows; and bytes that are read start with the stored form of
what is read. -/
theorem Program.ofBytes_toBytes :
    (∀ p : Program, p.version = formatVersion → p.Countable → ∀ rest,
      ofBytes (p.toBytes ++ rest) = .ok p) ∧
    ∀ (bytes : List UInt8) (p : Program), ofBytes bytes = .ok p →
      p.version = formatVersion ∧ p.Countable ∧ p.toBytes <+: bytes := by
  constructor
  · intro p hversion hp rest
    have hread : ByteReader.program (p.toBytes ++ rest) = some (p, rest) :=
      (ByteReader.inverts_program _ _ _).mpr ⟨hp, rfl⟩
    rw [ofBytes, readBytes?, hread]
    exact if_pos hversion
  · intro bytes p h
    rw [ofBytes, readBytes?] at h
    cases hread : ByteReader.program bytes with
    | none =>
        rw [hread] at h
        exact nomatch h
    | some r =>
        rw [hread] at h
        obtain ⟨hp, hbytes⟩ := (ByteReader.inverts_program _ _ _).mp hread
        by_cases hversion : r.1.version = formatVersion
        · obtain rfl := Except.ok.inj ((if_pos hversion).symm.trans h)
          exact ⟨hversion, hp, r.2, hbytes.symm⟩
        · exact nomatch (if_neg hversion).symm.trans h

/-- A not-a-number with a payload, a negative zero and a text, with a byte behind the program. -/
theorem ofBytes_toBytes_floats :
    let p : Program := ⟨[⟨.loadFloat ⟨0x7ff8000000000001⟩, [], [⟨0⟩], []⟩,
      ⟨.loadFloat ⟨0x8000000000000000⟩, [], [⟨1⟩], []⟩, ⟨.loadString "é", [], [⟨2⟩], []⟩], 1⟩
    Program.ofBytes (p.toBytes ++ [7]) = .ok p ∧ p.toBytes <+: p.toBytes ++ [7] := by
  intro p
  have htext : "é".utf8ByteSize < 2 ^ 64 := by decide
  have hp : p.Countable := by
    refine ⟨by decide, ?_⟩
    intro i hi
    fin_cases hi <;>
      exact ⟨List.forall_mem_singleton.mpr (by first | exact trivial | exact htext), by decide,
        by decide, by decide⟩
  have hread := Program.ofBytes_toBytes.1 p rfl hp [7]
  exact ⟨hread, (Program.ofBytes_toBytes.2 _ _ hread).2.2⟩

end EngineFuzz
