import Mathlib
import EngineFuzz.Program.Schema

/-!
# The schema and the operations

The schema of operations lists what the operations are made of: number and field values determine an
operation, and the other way round.

* `Enumeration.Lawful`: enumerations that list each of their members once, with
  `Enumeration.ofIndex?_eq_some_iff`.
* `FieldKind.Holds`: the values that a field of a kind may have.
* `Operation.exists_shape`: the payload of an operation is as its variant says.
* `Operation.ofPayload?_toPayload`, `Operation.exists_operation`: reading a payload is the inverse
  of taking it.
-/

namespace EngineFuzz

namespace Enumeration

variable {α : Type} [Enumeration α]

/-- All members are listed, each of them once, and they are few. -/
class Lawful (α : Type) [Enumeration α] : Prop where
  mem_all : ∀ a : α, a ∈ (all : List α)
  nodup_all : (all : List α).Nodup
  length_all : (all : List α).length < 256

variable [BEq α] [LawfulBEq α] [Lawful α] {n : Nat} {a : α}

lemma index_lt (a : α) : index a < (all : List α).length :=
  List.idxOf_lt_length_of_mem (Lawful.mem_all a)

/-- The member at a position has that position, and no other member has. -/
lemma ofIndex?_eq_some_iff : ofIndex? n = some a ↔ index a = n := by
  rw [ofIndex?, List.getElem?_eq_some_iff]
  constructor
  · rintro ⟨h, rfl⟩
    exact Lawful.nodup_all.idxOf_getElem n h
  · rintro rfl
    exact ⟨index_lt a, List.getElem_idxOf (index_lt a)⟩

/-- What is made of the member at the position of a member is made of that member. -/
lemma bind_ofIndex?_index {β : Type} {f : α → Option β} : (ofIndex? (index a)).bind f = f a := by
  rw [ofIndex?_eq_some_iff.mpr rfl, Option.bind_some]

instance : Lawful WasmType := ⟨by rintro ⟨⟩ <;> decide, by decide, by decide⟩
instance : Lawful BinaryOperator := ⟨by rintro ⟨⟩ <;> decide, by decide, by decide⟩
instance : Lawful UnaryOperator := ⟨by rintro ⟨⟩ <;> decide, by decide, by decide⟩
instance : Lawful Comparator := ⟨by rintro ⟨⟩ <;> decide, by decide, by decide⟩
instance : Lawful Width := ⟨by rintro ⟨⟩ <;> decide, by decide, by decide⟩
instance : Lawful IntBinaryOp := ⟨by rintro ⟨⟩ <;> decide, by decide, by decide⟩
instance : Lawful IntUnaryOp := ⟨by rintro ⟨⟩ <;> decide, by decide, by decide⟩
instance : Lawful IntCompareOp := ⟨by rintro ⟨⟩ <;> decide, by decide, by decide⟩
instance : Lawful FloatBinaryOp := ⟨by rintro ⟨⟩ <;> decide, by decide, by decide⟩
instance : Lawful FloatUnaryOp := ⟨by rintro ⟨⟩ <;> decide, by decide, by decide⟩
instance : Lawful FloatCompareOp := ⟨by rintro ⟨⟩ <;> decide, by decide, by decide⟩

end Enumeration

namespace FieldKind

/-- The values that a field of the kind may have. -/
def Holds : FieldKind → FieldValue → Prop
  | integer, .integer _ | size, .size _ | word, .word _ | optionalWord, .optionalWord _
  | flag, .flag _ | double, .double _ | text, .text _ | texts, .texts _ | bytes, .bytes _
  | literal, .literal _ | signature, .signature _ => True
  | choice names, .choice index => index < names.length ∧ index < 2 ^ 32
  | _, _ => False

/-- What a field of another kind holds. -/
lemma Holds.exists_eq {kind : FieldKind} {value : FieldValue} (h : kind.Holds value) :
    match kind with
    | integer => ∃ v, value = .integer v
    | size => ∃ v, value = .size v
    | word => ∃ v, value = .word v
    | optionalWord => ∃ v, value = .optionalWord v
    | flag => ∃ v, value = .flag v
    | double => ∃ v, value = .double v
    | text => ∃ v, value = .text v
    | texts => ∃ v, value = .texts v
    | bytes => ∃ v, value = .bytes v
    | choice names => ∃ v, value = .choice v ∧ v < names.length ∧ v < 2 ^ 32
    | literal => ∃ v, value = .literal v
    | signature => ∃ v, value = .signature v := by
  cases kind <;> cases value <;>
    first
    | exact False.elim h
    | exact ⟨_, rfl⟩
    | exact ⟨_, rfl, h⟩

lemma holds_ofMember {α : Type} [Enumeration α] [BEq α] [LawfulBEq α] [Enumeration.Lawful α]
    (a : α) : (ofEnumeration α).Holds (.ofMember a) := by
  have h := Enumeration.index_lt a
  refine ⟨?_, h.trans (Enumeration.Lawful.length_all.trans (by decide))⟩
  rwa [Enumeration.names, List.length_map]

/-- A field of an enumeration holds a member. -/
lemma exists_eq_ofMember {α : Type} [Enumeration α] [BEq α] [LawfulBEq α] [Enumeration.Lawful α]
    {value : FieldValue} (h : (ofEnumeration α).Holds value) : ∃ a : α, value = .ofMember a := by
  cases value with
  | choice index =>
      have hlt : index < (Enumeration.all : List α).length := by
        rw [← List.length_map Enumeration.name]
        exact h.1
      refine ⟨Enumeration.all[index], congrArg FieldValue.choice ?_⟩
      exact (Enumeration.ofIndex?_eq_some_iff.mp (List.getElem?_eq_getElem hlt)).symm
  | _ => exact False.elim h

end FieldKind

namespace Operation

variable {op : Operation} {n : Nat} {values : List FieldValue}

/-- The number of an operation is that of a variant, and its fields hold their values. -/
lemma exists_shape (op : Operation) : ∃ shape, variants[op.toPayload.1]? = some shape ∧
    List.Forall₂ (fun field value => field.2.Holds value) shape.fields op.toPayload.2 := by
  cases op <;> refine ⟨_, rfl, ?_⟩ <;>
    repeat' first
      | exact .nil
      | refine .cons (by first | exact FieldKind.holds_ofMember _ | exact trivial) ?_

lemma ofPayload?_toPayload (op : Operation) :
    ofPayload? op.toPayload.1 op.toPayload.2 = some op := by
  cases op <;>
    first
    | rfl
    | exact Enumeration.bind_ofIndex?_index
    | exact Enumeration.bind_ofIndex?_index.trans Enumeration.bind_ofIndex?_index

/-- Fitting values of the fields of a variant are the payload of an operation. -/
lemma exists_operation {shape : VariantShape} (hs : variants[n]? = some shape)
    (hv : List.Forall₂ (fun field value => field.2.Holds value) shape.fields values) :
    ∃ op, ofPayload? n values = some op ∧ op.toPayload = (n, values) := by
  have hn : n < 85 := (List.getElem?_eq_some_iff.mp hs).1
  interval_cases n
  all_goals
    cases hs
    rcases hv with _ | ⟨h₁, _ | ⟨h₂, _ | ⟨h₃, _ | _⟩⟩⟩
    try
      first
      | obtain ⟨a, rfl⟩ := FieldKind.exists_eq_ofMember h₁
      | obtain ⟨a, rfl⟩ := h₁.exists_eq
    try
      first
      | obtain ⟨b, rfl⟩ := FieldKind.exists_eq_ofMember h₂
      | obtain ⟨b, rfl⟩ := h₂.exists_eq
    try obtain ⟨c, rfl⟩ := h₃.exists_eq
    first
    | exact ⟨_, rfl, rfl⟩
    | exact ⟨_, Enumeration.bind_ofIndex?_index, rfl⟩
    | exact ⟨_, Enumeration.bind_ofIndex?_index.trans Enumeration.bind_ofIndex?_index, rfl⟩

end Operation

end EngineFuzz
