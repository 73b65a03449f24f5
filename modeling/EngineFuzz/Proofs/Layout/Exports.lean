import Mathlib
import EngineFuzz.Proofs.Json.Numerals
import EngineFuzz.Proofs.Layout.IndexSpace

/-!
# Indices and names of entities

A layout is built by declaring one entity after another, definitions and imports in any order.
Whatever the order is, indices number the entities of each category, and the exports give every
entity a name of its own.

* `ModuleLayout.ofDeclarations`: the layout that some declarations build.
* `ModuleLayout.bijOn_indexOf?`: the indices of a category.
* `ModuleLayout.nameOf_inj`, `ModuleLayout.nodup_names`: names of exports are different.
* `ModuleLayout.exports_eq`: the exports, entity by entity.
* `ModuleLayout.consistent_ofDeclarations`: the main statement.
-/

namespace EngineFuzz

namespace ModuleLayout

variable {l : ModuleLayout} {es : List ModuleEntity} {c d : EntityCategory} {index j k : Nat}

/-! ### Declarations -/

/-- The layout with one more entity: a definition, or an import if there is a source. -/
def declare (l : ModuleLayout) (e : ModuleEntity) : ModuleLayout :=
  match e.source with
  | none => l.addDefinition e.var e.entity
  | some source => l.addImport e.var e.entity source

/-- The layout that declarations build, one after another. -/
def ofDeclarations (es : List ModuleEntity) : ModuleLayout := es.foldl declare empty

lemma declare_eq (l : ModuleLayout) (e : ModuleEntity) : l.declare e = ⟨l.entities ++ [e]⟩ := by
  obtain ⟨v, entity, source⟩ := e
  cases source <;> rfl

lemma entities_ofDeclarations (es : List ModuleEntity) : (ofDeclarations es).entities = es := by
  have hfold (l : ModuleLayout) : (es.foldl declare l).entities = l.entities ++ es := by
    induction es generalizing l with
    | nil => rw [List.foldl_nil, List.append_nil]
    | cons e es ih => rw [List.foldl_cons, ih, declare_eq, List.append_assoc, List.singleton_append]
  exact hfold empty

/-! ### Indices -/

/-- **The indices of a category** are the naturals below the number of its entities. -/
theorem bijOn_indexOf? (hn : (l.entities.map (·.var)).Nodup) (c : EntityCategory) :
    Set.BijOn (fun e => l.indexOf? e.var) {e | e ∈ l.entities ∧ e.category = c}
      (some '' Set.Iio (l.count c)) := by
  refine ⟨?_, ?_, ?_⟩
  · rintro e ⟨he, rfl⟩
    obtain ⟨index, hindex, hat⟩ := exists_indexOf? hn he
    refine ⟨index, ?_, hindex.symm⟩
    rw [Set.mem_Iio, ← length_ordered]
    exact (List.getElem?_eq_some_iff.mp hat).1
  · rintro e ⟨he, rfl⟩ e' ⟨he', hc⟩ heq
    obtain ⟨index, hindex, hat⟩ := exists_indexOf? hn he
    obtain ⟨index', hindex', hat'⟩ := exists_indexOf? hn he'
    obtain rfl : index = index' := Option.some.inj (hindex.symm.trans (heq.trans hindex'))
    rw [hc, hat] at hat'
    exact Option.some.inj hat'
  · rintro _ ⟨index, hlt, rfl⟩
    rw [Set.mem_Iio, ← length_ordered] at hlt
    have hat := List.getElem?_eq_getElem hlt
    exact ⟨_, mem_of_mem_ordered (List.mem_of_getElem? hat), indexOf?_eq hn hat⟩

/-- There are not more entities than variables, so that every index is a word of 32 bits. -/
lemma count_le (hn : (l.entities.map (·.var)).Nodup) (c : EntityCategory) : l.count c ≤ 2 ^ 32 := by
  have hinj : Function.Injective fun v : Variable => v.number.toFin := fun v w h => by
    obtain ⟨m⟩ := v
    obtain ⟨n⟩ := w
    exact congrArg Variable.mk (UInt32.toFin_inj.mp h)
  have hcard := (hn.map hinj).length_le_card
  rw [List.length_map, List.length_map, Fintype.card_fin] at hcard
  exact (List.length_filter_le ..).trans hcard

/-! ### Names -/

lemma natText_inj {m n : Nat} (h : natText m = natText n) : m = n := by
  have hdigits : natDigits m = natDigits n := String.ofList_injective h
  rw [← Numeral.natOf_natDigits m, hdigits, Numeral.natOf_natDigits]

/-- Stems begin with different letters, and numbers have different digits. -/
lemma nameOf_inj (h : nameOf c j = nameOf d k) : c = d ∧ j = k := by
  have hhead (c : EntityCategory) (n : Nat) :
      (nameOf c n).toList.head? = c.exportStem.toList.head? := by
    rw [nameOf, String.toList_append]
    cases c <;> rfl
  have hstem : c.exportStem.toList.head? = d.exportStem.toList.head? := by
    rw [← hhead c j, h, hhead]
  obtain rfl : c = d := by
    cases c <;> cases d <;> first | rfl | exact absurd hstem (by decide)
  refine ⟨rfl, natText_inj ?_⟩
  have hlist := congrArg String.toList h
  rw [nameOf, nameOf, String.toList_append, String.toList_append] at hlist
  exact String.toList_injective (List.append_cancel_left hlist)

lemma names_eq (l : ModuleLayout) : l.signature.exports.map (·.name) =
    EntityCategory.all.flatMap fun c => (List.range (l.ordered c).length).map (nameOf c) := by
  rw [signature, List.map_flatMap]
  refine List.flatMap_congr fun c _ => ?_
  rw [exportsOf]
  exact List.ext_getElem (by simp) fun k h₁ h₂ => by simp

/-- **No two exports have the same name.** -/
theorem nodup_names (l : ModuleLayout) : (l.signature.exports.map (·.name)).Nodup := by
  rw [names_eq, List.nodup_flatMap]
  constructor
  · intro c _
    exact List.nodup_range.map fun j k h => (nameOf_inj h).2
  · refine List.Pairwise.imp (fun hne => ?_) (show EntityCategory.all.Nodup by decide)
    intro name hname hname'
    obtain ⟨j, -, rfl⟩ := List.mem_map.mp hname
    obtain ⟨k, -, heq⟩ := List.mem_map.mp hname'
    exact hne (nameOf_inj heq).1.symm

/-- The exports are those of the entities, index space by index space. -/
lemma exports_eq (hn : (l.entities.map (·.var)).Nodup) :
    l.signature.exports.map (fun x => (some x.name, x.entity)) =
      (EntityCategory.all.flatMap l.ordered).map fun e => (l.exportName? e.var, e.entity) := by
  rw [signature, List.map_flatMap, List.map_flatMap]
  refine List.flatMap_congr fun c _ => ?_
  rw [exportsOf]
  refine List.ext_getElem (by simp) fun k h₁ h₂ => ?_
  have hk : k < (l.ordered c).length := by simpa using h₂
  have hname := exportName?_eq hn (List.getElem?_eq_getElem hk)
  simp [hname]

/-- **Every entity has one export**, with its name and its type. -/
theorem exports_perm (hn : (l.entities.map (·.var)).Nodup) :
    (l.signature.exports.map fun x => (some x.name, x.entity)).Perm
      (l.entities.map fun e => (l.exportName? e.var, e.entity)) := by
  rw [exports_eq hn]
  exact (l.perm_flatMap_ordered.map _).symm

/-- There are as many exports as entities. -/
lemma length_exports (l : ModuleLayout) : l.signature.exports.length = l.entities.length := by
  rw [l.perm_flatMap_ordered.length_eq, signature, List.length_flatMap, List.length_flatMap]
  simp [exportsOf]

/-- A module without imports and exports has no entities. -/
lemma signature_eq_empty_iff : l.signature = .empty ↔ l.entities = [] := by
  constructor
  · intro h
    rw [← List.length_eq_zero_iff, ← length_exports, h]
    rfl
  · intro h
    obtain ⟨es⟩ := l
    obtain rfl : es = [] := h
    rfl

lemma findExport?_eq {x : ModuleExport} (hx : x ∈ l.signature.exports) :
    l.signature.findExport? x.name = some x := by
  cases hf : l.signature.findExport? x.name with
  | none =>
      have := List.find?_eq_none.mp hf x hx
      simp at this
  | some y =>
      have hname : y.name = x.name := by simpa using List.find?_some hf
      rw [List.inj_on_of_nodup_map l.nodup_names (List.mem_of_find?_eq_some hf) hx hname]

/-! ### Any order of declarations -/

/-- Indices, exports and imports of a layout fit the entities that have been declared. -/
structure ConsistentWith (l : ModuleLayout) (es : List ModuleEntity) : Prop where
  /-- The indices of a category are the naturals below the number of its entities, each once. -/
  indices : ∀ c, Set.BijOn (fun e => l.indexOf? e.var) {e | e ∈ es ∧ e.category = c}
    (some '' Set.Iio (l.count c))
  /-- Every index is a word of 32 bits. -/
  small : ∀ c, l.count c ≤ 2 ^ 32
  /-- Every entity has one export. -/
  entries : (l.signature.exports.map fun x => (some x.name, x.entity)).Perm
    (es.map fun e => (l.exportName? e.var, e.entity))
  names : (l.signature.exports.map (·.name)).Nodup
  /-- Under the name of an entity its type is found. -/
  lookup : ∀ e ∈ es, ∃ name, l.exportName? e.var = some name ∧
    (l.signature.findExport? name).map (·.entity) = some e.entity
  imports : l.signature.imports = (es.filter (·.isImport)).map (·.entity)

/-- **Layouts are consistent** with the declarations that build them, in whatever order imports and
definitions come. -/
theorem consistent_ofDeclarations (hn : (es.map (·.var)).Nodup) :
    (ofDeclarations es).ConsistentWith es := by
  have he := entities_ofDeclarations es
  generalize ofDeclarations es = l at he ⊢
  subst he
  refine ⟨bijOn_indexOf? hn, count_le hn, exports_perm hn, l.nodup_names, fun e he => ?_, rfl⟩
  obtain ⟨x, hx, hxe⟩ := List.mem_map.mp ((exports_perm hn).mem_iff.mpr (List.mem_map_of_mem he))
  obtain ⟨hname, hentity⟩ := Prod.mk.inj hxe
  exact ⟨x.name, hname.symm, by rw [findExport?_eq hx, ← hentity]; rfl⟩

/-- A definition, a memory and an import that comes too late. -/
theorem consistent_ofDeclarations_lateImport :
    let es : List ModuleEntity := [⟨⟨5⟩, .global .i32 false, none⟩,
      ⟨⟨7⟩, .memory 1 none false, none⟩, ⟨⟨6⟩, .global .i64 true, some ⟨1⟩⟩]
    (es.map (·.var)).Nodup ∧ (ofDeclarations es).orderingViolation? = some .global ∧
      (ofDeclarations es).ConsistentWith es :=
  ⟨by decide, by decide, consistent_ofDeclarations (by decide)⟩

end ModuleLayout

end EngineFuzz
