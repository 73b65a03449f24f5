import Mathlib
import EngineFuzz.Proofs.Format.Schema
import EngineFuzz.Proofs.Json.Floats
import EngineFuzz.Proofs.Json.Texts
import EngineFuzz.Wasm.Json

/-!
# Lists, names and records as they are written

Readers of compound values applied to what their writers make.

* `Json.Readable.ofInt`, `Json.Readable.ofDouble`, `Json.Readable.ofList`: what is written has a
  text.
* `Json.toList?_ofList`: lists.
* `Enumeration.ofName?_name`, `Json.toMember?_ofMember`: members of enumerations.
* `Json.record?_object`: the fields of a record.
* `FunctionSignature.ofJson?_toJson`: signatures.
-/

namespace EngineFuzz

/-! ### Many values -/

/-- All of a list is made something of exactly if each item is. -/
lemma mapM_eq_some_iff {α β : Type} {f : α → Option β} {as : List α} {bs : List β} :
    as.mapM f = some bs ↔ List.Forall₂ (fun a b => f a = some b) as bs := by
  induction as generalizing bs with
  | nil =>
      rw [List.mapM_nil, List.forall₂_nil_left_iff]
      exact Option.some_inj.trans eq_comm
  | cons a as ih =>
      simp only [List.mapM_cons, Option.bind_eq_bind, Option.bind_eq_some_iff, Option.pure_def,
        Option.some.injEq, ih]
      constructor
      · rintro ⟨b, hb, bs, hbs, rfl⟩
        exact .cons hb hbs
      · rintro (_ | ⟨hb, hbs⟩)
        exact ⟨_, hb, _, hbs, rfl⟩

/-- What is made of a list is made of its items. -/
lemma exists_mem_of_mapM {α β : Type} {f : α → Option β} {as : List α} {bs : List β} {b : β}
    (h : as.mapM f = some bs) (hb : b ∈ bs) : ∃ a ∈ as, f a = some b := by
  have hread := mapM_eq_some_iff.mp h
  obtain ⟨i, hi, rfl⟩ := List.getElem_of_mem hb
  have hi' : i < as.length := hread.length_eq ▸ hi
  exact ⟨as[i], List.getElem_mem hi', hread.get hi' hi⟩

lemma mapM_eq_some_map {α β : Type} {f : α → Option β} {g : α → β} {as : List α}
    (h : ∀ a ∈ as, f a = some (g a)) : as.mapM f = some (as.map g) := by
  rw [mapM_eq_some_iff, List.forall₂_map_right_iff, List.forall₂_same]
  exact h

/-- The place of a value whose image occurs once. -/
lemma findIdx?_eq_some {α β : Type} [BEq β] [LawfulBEq β] {f : α → β} {as : List α} {n : Nat}
    {a : α} (hn : (as.map f).Nodup) (ha : as[n]? = some a) :
    as.findIdx? (f · == f a) = some n := by
  obtain ⟨hlt, rfl⟩ := List.getElem?_eq_some_iff.mp ha
  refine List.findIdx?_eq_some_iff_getElem.mpr ⟨hlt, beq_self_eq_true _, fun m hm heq => ?_⟩
  have hne : f as[m] ≠ f as[n] :=
    List.pairwise_iff_getElem.mp (List.pairwise_map.mp hn) m n (hm.trans hlt) hlt hm
  exact hne (eq_of_beq heq)

/-! ### Texts of what is written -/

namespace Json.Readable

lemma ofInt (n : Int) : (Json.ofInt n).Readable := by
  have h := number (Numeral.wellFormed_ofInt n)
  rwa [Numeral.text_ofInt, String.ofList_toList] at h

lemma ofNat (n : Nat) : (Json.ofNat n).Readable := by
  rw [ofNat_eq_ofInt]
  exact ofInt n

/-- The text of a number in a format, or null. -/
private lemma ofText? {f : Format} {low high : Int} {word : Nat} {text : String}
    (h : (f.jsonText? low high word).map String.ofList = some text) :
    (Json.number text).Readable := by
  obtain ⟨cs, hcs, rfl⟩ := Option.map_eq_some_iff.mp h
  obtain ⟨n, hn, rfl⟩ := Format.jsonText?_eq_text hcs
  exact number hn

lemma ofDouble (x : Double) : (Json.ofDouble x).Readable := by
  unfold Json.ofDouble
  split
  · rename_i text h
    exact ofText? h
  · exact null

lemma ofSingle (x : Single) : (Json.ofSingle x).Readable := by
  unfold Json.ofSingle
  split
  · rename_i text h
    exact ofText? h
  · exact null

lemma ofMember {α : Type} [Enumeration α] (a : α) : (Json.ofMember a).Readable := string _

lemma ofOption {α : Type} {f : α → Json} (h : ∀ a, (f a).Readable) (a? : Option α) :
    (Json.ofOption f a?).Readable := by
  cases a? with
  | none => exact null
  | some a => exact h a

lemma ofList {α : Type} {f : α → Json} (h : ∀ a, (f a).Readable) (as : List α) :
    (Json.ofList f as).Readable :=
  array (List.forall_mem_map.mpr fun a _ => h a)

lemma tagged {name : String} {v : Json} (h : v.Readable) : (Json.tagged name v).Readable :=
  object (List.forall_mem_singleton.mpr h)

end Json.Readable

/-! ### Lists and names -/

namespace Json

variable {α : Type}

/-- Lists are read item by item. -/
lemma toList?_ofList (reader : Json → Option α) (writer : α → Json) (as : List α) :
    (ofList writer as).toList? reader = as.mapM fun a => reader (writer a) := by
  change (as.map writer).mapM reader = _
  rw [List.mapM_map]
  rfl

/-- Lists of values that are all read back are read back. -/
lemma toList?_ofList_eq_some {reader : Json → Option α} {writer : α → Json}
    (h : ∀ a, reader (writer a) = some a) (as : List α) :
    (ofList writer as).toList? reader = some as := by
  rw [toList?_ofList, mapM_eq_some_iff, List.forall₂_same]
  exact fun a _ => h a

end Json

namespace Enumeration

variable {α : Type} [Enumeration α]

/-- The names of the members differ. -/
class DistinctNames (α : Type) [Enumeration α] : Prop where
  nodup_names : (names α).Nodup

instance : DistinctNames WasmType := ⟨by decide⟩
instance : DistinctNames BinaryOperator := ⟨by decide⟩
instance : DistinctNames UnaryOperator := ⟨by decide⟩
instance : DistinctNames Comparator := ⟨by decide⟩
instance : DistinctNames Width := ⟨by decide⟩
instance : DistinctNames IntBinaryOp := ⟨by decide⟩
instance : DistinctNames IntUnaryOp := ⟨by decide⟩
instance : DistinctNames IntCompareOp := ⟨by decide⟩
instance : DistinctNames FloatBinaryOp := ⟨by decide⟩
instance : DistinctNames FloatUnaryOp := ⟨by decide⟩
instance : DistinctNames FloatCompareOp := ⟨by decide⟩

/-- A member is found by its name. -/
lemma ofName?_name [BEq α] [LawfulBEq α] [Lawful α] [DistinctNames α] (a : α) :
    ofName? (name a) = some a := by
  have hnames : ((all : List α).map name).Nodup := DistinctNames.nodup_names
  obtain ⟨b, hb⟩ : ∃ b, ofName? (name a) = some b :=
    Option.isSome_iff_exists.mp (List.find?_isSome.mpr ⟨a, Lawful.mem_all a, beq_self_eq_true _⟩)
  have hname : (name b == name a) = true := List.find?_some (p := (name · == name a)) hb
  rw [hb, List.inj_on_of_nodup_map hnames (Lawful.mem_all b) (Lawful.mem_all a) (eq_of_beq hname)]

end Enumeration

namespace Json

lemma toMember?_ofMember {α : Type} [Enumeration α] [BEq α] [LawfulBEq α] [Enumeration.Lawful α]
    [Enumeration.DistinctNames α] (a : α) : (ofMember a).toMember? = some a :=
  Enumeration.ofName?_name a

/-! ### Records -/

/-- A field whose name occurs once. -/
lemma uniqueField?_eq_some {fields : List (String × Json)} (hn : (fields.map (·.1)).Nodup)
    {f : String × Json} (hf : f ∈ fields) : uniqueField? fields f.1 = some (some f.2) := by
  obtain ⟨before, after, rfl⟩ := List.append_of_mem hf
  rw [List.map_append, List.map_cons, List.nodup_middle, List.nodup_cons, ← List.map_append] at hn
  have hother (g : String × Json) (hg : g ∈ before ++ after) : ¬(g.1 == f.1) = true :=
    fun heq => hn.1 (eq_of_beq heq ▸ List.mem_map_of_mem hg)
  have hfilter : ((before ++ f :: after).filter fun g => g.1 == f.1) = [f] := by
    rw [List.filter_append, List.filter_cons_of_pos (by simp),
      List.filter_eq_nil_iff.mpr fun g hg => hother g (List.mem_append_left _ hg),
      List.filter_eq_nil_iff.mpr fun g hg => hother g (List.mem_append_right _ hg)]
    rfl
  rw [uniqueField?, hfilter]

/-- The fields of a record with their names. -/
lemma record?_object {fields : List (String × Json)} {names : List String}
    (hnames : fields.map (·.1) = names) (hn : names.Nodup) :
    (object fields).record? names = some (fields.map fun f => some f.2) := by
  subst hnames
  rw [record?, List.mapM_map]
  exact mapM_eq_some_map fun f hf => uniqueField?_eq_some hn hf

end Json

/-! ### Signatures -/

namespace FunctionSignature

lemma readable_toJson (s : FunctionSignature) : s.toJson.Readable :=
  .object (List.forall_mem_cons.mpr ⟨.ofList .ofMember _,
    List.forall_mem_singleton.mpr (.ofList .ofMember _)⟩)

lemma ofJson?_toJson (s : FunctionSignature) : ofJson? s.toJson = some s := by
  have hmembers (ts : List WasmType) :
      (Json.ofList .ofMember ts).toList? Json.toMember? = some ts :=
    Json.toList?_ofList_eq_some Json.toMember?_ofMember ts
  have hrecord : s.toJson.record? ["params", "results"] =
      some [some (.ofList .ofMember s.params), some (.ofList .ofMember s.results)] :=
    Json.record?_object rfl (by decide)
  rw [ofJson?, hrecord]
  simp [requiredField?, hmembers]

end FunctionSignature

end EngineFuzz
