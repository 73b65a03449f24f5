import Mathlib
import EngineFuzz.Analysis.ModuleLayout

/-!
# Index spaces

In a layout whose entities have different variables, the index of an entity is its place among the
entities of its category, imports first.

* `ModuleLayout.exists_indexOf?`: every entity has an index, and stands there.
* `ModuleLayout.indexOf?_eq`: what stands at a place has this place as its index.
* `ModuleLayout.indexOf?_lt`: a definition has a greater index than what was declared before.
-/

namespace EngineFuzz

namespace ModuleLayout

variable {l : ModuleLayout} {e : ModuleEntity} {v : Variable} {index : Nat}

lemma entityOf?_eq (hn : (l.entities.map (·.var)).Nodup) (he : e ∈ l.entities) :
    l.entityOf? e.var = some e := by
  cases hf : l.entityOf? e.var with
  | none =>
      have := List.find?_eq_none.mp hf e he
      simp at this
  | some e' =>
      have hv : e'.var = e.var := by simpa using List.find?_some hf
      rw [List.inj_on_of_nodup_map hn (List.mem_of_find?_eq_some hf) he hv]

/-- The place of a member of a list whose members have different variables. -/
lemma exists_findIdx? {es : List ModuleEntity} (hn : (es.map (·.var)).Nodup) (he : e ∈ es) :
    ∃ position, es.findIdx? (fun e' => e'.var == e.var) = some position ∧
      es[position]? = some e := by
  cases hf : es.findIdx? (fun e' => e'.var == e.var) with
  | none =>
      have := List.findIdx?_eq_none_iff.mp hf e he
      simp at this
  | some position =>
      obtain ⟨hlt, hv, -⟩ := List.findIdx?_eq_some_iff_getElem.mp hf
      refine ⟨position, rfl, ?_⟩
      rw [List.getElem?_eq_getElem hlt]
      rw [List.inj_on_of_nodup_map hn (List.getElem_mem hlt) he (by simpa using hv)]

lemma importsOf_eq (c : EntityCategory) :
    l.importsOf c = l.entities.filter fun e => e.category == c && e.isImport == true := by
  rw [importsOf, imports, List.filter_filter]
  simp

lemma definitions_eq (c : EntityCategory) :
    l.definitions c = l.entities.filter fun e => e.category == c && e.isImport == false := by
  rw [definitions]
  refine List.filter_congr fun e _ => ?_
  cases e.isImport <;> simp

/-- **Every entity has an index**, and stands there among the entities of its category. -/
theorem exists_indexOf? (hn : (l.entities.map (·.var)).Nodup) (he : e ∈ l.entities) :
    ∃ index, l.indexOf? e.var = some index ∧ (l.ordered e.category)[index]? = some e := by
  have hmem : e ∈ l.entities.filter fun e' =>
      e'.category == e.category && e'.isImport == e.isImport := by
    simpa using he
  have hsub : ((l.entities.filter fun e' =>
      e'.category == e.category && e'.isImport == e.isImport).map (·.var)).Nodup :=
    hn.sublist (List.filter_sublist.map _)
  obtain ⟨position, hp, hat⟩ := exists_findIdx? hsub hmem
  have hindex : l.indexOf? e.var = some
      (if e.isImport then position else (l.importsOf e.category).length + position) := by
    rw [indexOf?, entityOf?_eq hn he]
    simp [hp]
  refine ⟨_, hindex, ?_⟩
  rw [ordered]
  cases hi : e.isImport with
  | true =>
      rw [hi, ← importsOf_eq] at hat
      obtain ⟨hlt, -⟩ := List.getElem?_eq_some_iff.mp hat
      rw [if_pos rfl, List.getElem?_append_left hlt, hat]
  | false =>
      rw [hi, ← definitions_eq] at hat
      rw [if_neg Bool.false_ne_true, List.getElem?_append_right (Nat.le_add_right ..),
        Nat.add_sub_cancel_left, hat]

/-- Different entities of a category have different variables. -/
lemma nodup_ordered (hn : (l.entities.map (·.var)).Nodup) (c : EntityCategory) :
    ((l.ordered c).map (·.var)).Nodup := by
  rw [ordered, importsOf_eq, definitions_eq, List.map_append, List.nodup_append']
  refine ⟨hn.sublist (List.filter_sublist.map _), hn.sublist (List.filter_sublist.map _), ?_⟩
  intro v hv hv'
  obtain ⟨e, he, rfl⟩ := List.mem_map.mp hv
  obtain ⟨e', he', hvar⟩ := List.mem_map.mp hv'
  rw [List.mem_filter, Bool.and_eq_true, beq_iff_eq, beq_iff_eq] at he he'
  obtain rfl := List.inj_on_of_nodup_map hn he'.1 he.1 hvar
  rw [he.2.2] at he'
  exact nomatch he'.2.2

lemma mem_of_mem_ordered {c : EntityCategory} (h : e ∈ l.ordered c) :
    e ∈ l.entities ∧ e.category = c := by
  rw [ordered, List.mem_append, importsOf_eq, definitions_eq, List.mem_filter,
    List.mem_filter] at h
  rcases h with ⟨hm, h⟩ | ⟨hm, h⟩ <;>
  · rw [Bool.and_eq_true, beq_iff_eq] at h
    exact ⟨hm, h.1⟩

/-- The index of an entity is its place in the index space. -/
theorem indexOf?_eq {c : EntityCategory} (hn : (l.entities.map (·.var)).Nodup)
    (h : (l.ordered c)[index]? = some e) : l.indexOf? e.var = some index := by
  obtain ⟨hmem, rfl⟩ := mem_of_mem_ordered (List.mem_of_getElem? h)
  obtain ⟨index', hindex, hat⟩ := exists_indexOf? hn hmem
  rw [hindex, Option.some.injEq]
  have hvar : ((l.ordered e.category).map (·.var))[index']? =
      ((l.ordered e.category).map (·.var))[index]? := by
    rw [List.getElem?_map, List.getElem?_map, hat, h]
  have hlt : index' < ((l.ordered e.category).map (·.var)).length := by
    rw [List.length_map]
    exact (List.getElem?_eq_some_iff.mp hat).1
  exact (List.getElem?_inj hlt (nodup_ordered hn _)).mp hvar

/-- **A definition comes behind what was declared before it**, imported or defined. -/
theorem indexOf?_lt {f : ModuleEntity} {before after : List ModuleEntity} {i j : Nat}
    (hn : (l.entities.map (·.var)).Nodup) (hl : l.entities = before ++ after) (he : e ∈ before)
    (hf : f ∈ after) (hc : e.category = f.category) (hd : f.isImport = false)
    (hi : l.indexOf? e.var = some i) (hj : l.indexOf? f.var = some j) : i < j := by
  let early := l.importsOf f.category ++
    before.filter fun e => e.category == f.category && e.isImport == false
  let late := after.filter fun e => e.category == f.category && e.isImport == false
  have hordered : l.ordered f.category = early ++ late := by
    rw [ordered, definitions_eq, hl, List.filter_append, List.append_assoc]
  have hearly : e ∈ early := by
    cases himp : e.isImport with
    | true =>
        refine List.mem_append_left _ ?_
        rw [importsOf_eq, hl]
        simp [he, hc, himp]
    | false => exact List.mem_append_right _ (by simp [he, hc, himp])
  have hlate : f ∈ late := by simp [late, hf, hd]
  obtain ⟨m, hm⟩ := List.mem_iff_getElem?.mp hearly
  obtain ⟨n, hfn⟩ := List.mem_iff_getElem?.mp hlate
  have hlt : m < early.length := (List.getElem?_eq_some_iff.mp hm).1
  have hat : (l.ordered f.category)[m]? = some e := by
    rw [hordered, List.getElem?_append_left hlt, hm]
  have hat' : (l.ordered f.category)[early.length + n]? = some f := by
    rw [hordered, List.getElem?_append_right (Nat.le_add_right ..), Nat.add_sub_cancel_left, hfn]
  have him : i = m := Option.some.inj (hi.symm.trans (indexOf?_eq hn hat))
  have hjn : j = early.length + n := Option.some.inj (hj.symm.trans (indexOf?_eq hn hat'))
  omega

lemma exportName?_eq {c : EntityCategory} (hn : (l.entities.map (·.var)).Nodup)
    (h : (l.ordered c)[index]? = some e) : l.exportName? e.var = some (nameOf c index) := by
  obtain ⟨hmem, rfl⟩ := mem_of_mem_ordered (List.mem_of_getElem? h)
  rw [exportName?, entityOf?_eq hn hmem, indexOf?_eq hn h]
  rfl

/-- An index space has the imports of its category first and then the definitions, each in the order
of their declaration. -/
lemma ordered_eq (l : ModuleLayout) (c : EntityCategory) :
    l.ordered c = (l.entities.filter fun e => e.category == c).filter (·.isImport) ++
      (l.entities.filter fun e => e.category == c).filter fun e => !e.isImport := by
  rw [ordered, importsOf_eq, definitions_eq, List.filter_filter, List.filter_filter]
  refine congrArg₂ _ (List.filter_congr fun e _ => ?_) (List.filter_congr fun e _ => ?_) <;>
  · cases e.isImport <;> simp

lemma ordered_perm (l : ModuleLayout) (c : EntityCategory) :
    (l.ordered c).Perm (l.entities.filter fun e => e.category == c) := by
  rw [ordered_eq]
  exact List.filter_append_perm ..

/-- As many places as there are entities of the category. -/
lemma length_ordered (l : ModuleLayout) (c : EntityCategory) :
    (l.ordered c).length = l.count c :=
  (l.ordered_perm c).length_eq

/-- The index spaces together have all entities. -/
theorem perm_flatMap_ordered (l : ModuleLayout) :
    l.entities.Perm (EntityCategory.all.flatMap l.ordered) := by
  refine List.perm_iff_count.mpr fun e => ?_
  have hcount : ∀ c, (l.ordered c).count e = if e.category = c then l.entities.count e else 0 := by
    intro c
    rw [(l.ordered_perm c).count_eq]
    split
    · rename_i h
      rw [List.count_filter (by simpa using h)]
    · rename_i h
      exact List.count_eq_zero.mpr fun hm => h (by simpa using (List.mem_filter.mp hm).2)
  rw [EntityCategory.all]
  simp only [List.flatMap_cons, List.flatMap_nil, List.count_append, List.count_nil, hcount]
  cases e.category <;> simp

end ModuleLayout

end EngineFuzz
