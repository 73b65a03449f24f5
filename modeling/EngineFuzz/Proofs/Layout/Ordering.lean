import Mathlib
import EngineFuzz.Generation.Builder
import EngineFuzz.Proofs.Layout.IndexSpace

/-!
# Imports in front of definitions

A module may be closed if in each category its imports are declared in front of its definitions.
One scan over the entities looks for an import that comes too late, and the question whether there
may be another import looks for definitions of its category.  Both say the same of the index spaces.

* `ModuleEntity.MayPrecede`: the order of two entities, with
  `ModuleLayout.orderingViolation?_eq_none_iff`.
* `ModuleLayout.ordered_eq_filter`: without a violation an index space lists the entities of its
  category as they are declared.
* `ModuleLayout.IndexedByRank`: every index is the rank of its entity.
* `ModuleLayout.ordering_exact`: the main statement.
-/

namespace EngineFuzz

/-- Only an import may not stand behind a definition of its category. -/
def ModuleEntity.MayPrecede (d e : ModuleEntity) : Prop :=
  e.isImport = true → d.isImport = false → d.category ≠ e.category

namespace ModuleLayout

variable {l : ModuleLayout} {d e : ModuleEntity} {es fs : List ModuleEntity} {c : EntityCategory}

/-! ### The scan -/

lemma firstViolation_eq_none_iff {defined : List EntityCategory} :
    firstViolation defined es = none ↔
      (∀ e ∈ es, e.isImport = true → e.category ∉ defined) ∧
        es.Pairwise ModuleEntity.MayPrecede := by
  induction es generalizing defined with
  | nil => simp [firstViolation]
  | cons e es ih =>
      rw [firstViolation, List.forall_mem_cons, List.pairwise_cons]
      cases hi : e.isImport with
      | true =>
          -- an import precedes everything
          have hall : ∀ d ∈ es, e.MayPrecede d := fun d _ _ h => by simp [hi] at h
          by_cases hc : e.category ∈ defined
          · simp [hc]
          · simp [hc, ih, iff_true_intro hall]
      | false =>
          rw [if_neg Bool.false_ne_true, ih]
          simp only [ModuleEntity.MayPrecede, List.mem_cons, not_or, hi, Bool.false_eq_true,
            false_imp_iff, true_and, true_imp_iff]
          constructor
          · rintro ⟨hd, hp⟩
            exact ⟨fun d hm h => (hd d hm h).2, fun d hm h => Ne.symm (hd d hm h).1, hp⟩
          · rintro ⟨hd, he, hp⟩
            exact ⟨fun d hm h => ⟨(he d hm h).symm, hd d hm h⟩, hp⟩

/-- **What the scan looks for**: an import behind a definition of its category. -/
theorem orderingViolation?_eq_none_iff :
    l.orderingViolation? = none ↔ l.entities.Pairwise ModuleEntity.MayPrecede := by
  simp [orderingViolation?, firstViolation_eq_none_iff]

/-- Further entities are in order behind others if they are so for themselves and with each of the
others. -/
lemma orderingViolation?_append :
    orderingViolation? ⟨es ++ fs⟩ = none ↔ orderingViolation? ⟨es⟩ = none ∧
      orderingViolation? ⟨fs⟩ = none ∧ ∀ d ∈ es, ∀ e ∈ fs, d.MayPrecede e := by
  simp only [orderingViolation?_eq_none_iff, List.pairwise_append]

lemma canImport_iff : l.canImport c = true ↔
    ∀ d ∈ l.entities, d.isImport = false → d.category ≠ c := by
  simp [canImport, definitions, List.filter_eq_nil_iff]

/-- One more entity is in order unless it is an import that may not be declared any more. -/
lemma orderingViolation?_append_singleton (h : l.orderingViolation? = none) :
    orderingViolation? ⟨l.entities ++ [e]⟩ = none ↔
      (e.isImport = true → l.canImport e.category = true) := by
  have hone : orderingViolation? ⟨[e]⟩ = none :=
    orderingViolation?_eq_none_iff.mpr (List.pairwise_singleton ..)
  rw [orderingViolation?_append, canImport_iff]
  simp only [h, hone, true_and, List.mem_singleton, forall_eq]
  exact ⟨fun hp hi d hd => hp d hd hi, fun hp d hd hi => hp hi d hd⟩

/-! ### Index spaces without violations -/

/-- Where no member that fails a test precedes one that passes it, those that pass come first. -/
lemma filter_append_filter_of_pairwise {α : Type} {p : α → Bool} {as : List α}
    (h : as.Pairwise fun a b => p b = true → p a = true) :
    as.filter p ++ as.filter (fun a => !p a) = as := by
  induction as with
  | nil => rfl
  | cons a as ih =>
      obtain ⟨ha, has⟩ := List.pairwise_cons.mp h
      cases hp : p a with
      | true =>
          rw [List.filter_cons_of_pos hp, List.filter_cons_of_neg (by simp [hp]), List.cons_append,
            ih has]
      | false =>
          have hnone : ∀ b ∈ as, p b = false := fun b hb => by
            cases hb' : p b with
            | false => rfl
            | true => exact absurd (ha b hb hb') (by simp [hp])
          rw [List.filter_eq_nil_iff.mpr (by simpa [hp] using hnone), List.nil_append]
          exact List.filter_eq_self.mpr (by simpa [hp] using hnone)

/-- **Without a violation** an index space lists the entities as they are declared. -/
theorem ordered_eq_filter (h : l.orderingViolation? = none) (c : EntityCategory) :
    l.ordered c = l.entities.filter fun e => e.category == c := by
  rw [ordered_eq]
  refine filter_append_filter_of_pairwise ?_
  refine (List.Pairwise.filter _ (orderingViolation?_eq_none_iff.mp h)).imp_of_mem ?_
  intro d e hd he hde hi
  rw [List.mem_filter, beq_iff_eq] at hd he
  by_contra hn
  exact hde hi (Bool.not_eq_true _ ▸ hn) (hd.2.trans he.2.symm)

/-- Every entity has as its index how many entities of its category are declared in front of it. -/
def IndexedByRank (l : ModuleLayout) : Prop :=
  ∀ before e after, l.entities = before ++ e :: after →
    l.indexOf? e.var = some (before.countP fun d => d.category == e.category)

lemma indexedByRank_of_ordered (hn : (l.entities.map (·.var)).Nodup)
    (h : l.orderingViolation? = none) : l.IndexedByRank := by
  intro before e after hsplit
  refine indexOf?_eq hn (c := e.category) ?_
  rw [ordered_eq_filter h, hsplit, List.filter_append, List.countP_eq_length_filter,
    List.getElem?_append_right (le_refl _), Nat.sub_self,
    List.filter_cons_of_pos (p := fun d : ModuleEntity => d.category == e.category)
      (beq_self_eq_true _)]
  rfl

/-- An import comes in front of the definitions of its category, wherever it is declared. -/
lemma indexOf?_lt_of_isImport {i j : Nat} (hn : (l.entities.map (·.var)).Nodup)
    (hd : d ∈ l.entities) (he : e ∈ l.entities) (hc : d.category = e.category)
    (hdi : d.isImport = true) (hei : e.isImport = false) (hi : l.indexOf? d.var = some i)
    (hj : l.indexOf? e.var = some j) : i < j := by
  have himport : d ∈ l.importsOf e.category := by
    rw [importsOf_eq]
    simp [hd, hc, hdi]
  have hdefinition : e ∈ l.definitions e.category := by
    rw [definitions_eq]
    simp [he, hei]
  obtain ⟨m, hm⟩ := List.mem_iff_getElem?.mp himport
  obtain ⟨n, hen⟩ := List.mem_iff_getElem?.mp hdefinition
  have hlt : m < (l.importsOf e.category).length := (List.getElem?_eq_some_iff.mp hm).1
  have hat : (l.ordered e.category)[m]? = some d := by
    rw [ordered, List.getElem?_append_left hlt, hm]
  have hat' : (l.ordered e.category)[(l.importsOf e.category).length + n]? = some e := by
    rw [ordered, List.getElem?_append_right (Nat.le_add_right ..), Nat.add_sub_cancel_left, hen]
  have him : i = m := Option.some.inj (hi.symm.trans (indexOf?_eq hn hat))
  have hjn : j = (l.importsOf e.category).length + n :=
    Option.some.inj (hj.symm.trans (indexOf?_eq hn hat'))
  omega

/-- Ranks grow along the declarations, so that an import with its rank as its index has no
definition of its category in front of it. -/
lemma ordered_of_indexedByRank (hn : (l.entities.map (·.var)).Nodup) (h : l.IndexedByRank) :
    l.orderingViolation? = none := by
  refine orderingViolation?_eq_none_iff.mpr (List.pairwise_iff_forall_sublist.mpr ?_)
  intro d e hsub hei hdi hc
  obtain ⟨front, back, hl, hdf, heb⟩ := List.cons_sublist_iff.mp hsub
  obtain ⟨before, between, rfl⟩ := List.append_of_mem hdf
  obtain ⟨between', after, rfl⟩ := List.append_of_mem (List.singleton_sublist.mp heb)
  have hd := h before d (between ++ (between' ++ e :: after)) (by simp [hl])
  have he := h (before ++ d :: (between ++ between')) e after (by simp [hl])
  have hrank : (before.countP fun f => f.category == d.category) <
      (before ++ d :: (between ++ between')).countP fun f => f.category == e.category := by
    rw [hc, List.countP_append, List.countP_cons_of_pos (by simpa using hc)]
    omega
  exact lt_asymm hrank
    (indexOf?_lt_of_isImport hn (by simp [hl]) (by simp [hl]) hc.symm hei hdi he hd)

/-- **The check of the order is exact.**  It finds nothing if and only if every index is the rank of
its entity.  A definition may always be added, and an import exactly if no entity of its category is
defined yet, which is what the generators ask before they import something. -/
theorem ordering_exact (hn : (l.entities.map (·.var)).Nodup) :
    (l.orderingViolation? = none ↔ l.IndexedByRank) ∧
      (l.orderingViolation? = none →
        (∀ v entity, (l.addDefinition v entity).orderingViolation? = none) ∧
        ∀ v entity source, (l.addImport v entity source).orderingViolation? = none ↔
          l.canImport entity.category = true) ∧
      ∀ b : Builder, b.typer.currentModule? = some l →
        ∀ c, b.canImport c = l.canImport c := by
  refine ⟨⟨indexedByRank_of_ordered hn, ordered_of_indexedByRank hn⟩, fun h => ⟨?_, ?_⟩, ?_⟩
  · intro v entity
    exact (orderingViolation?_append_singleton h).mpr fun hi => nomatch hi
  · intro v entity source
    exact (orderingViolation?_append_singleton h).trans (forall_prop_of_true rfl)
  · intro b hb c
    rw [Builder.canImport, hb]

/-- Behind an imported and a defined global a table may be imported, but no third global. -/
theorem ordering_exact_globals :
    let l : ModuleLayout := ⟨[⟨⟨6⟩, .global .i64 true, some ⟨1⟩⟩, ⟨⟨5⟩, .global .i32 false, none⟩]⟩
    (l.entities.map (·.var)).Nodup ∧ l.orderingViolation? = none ∧ l.IndexedByRank ∧
      (l.addImport ⟨7⟩ (.table .funcRef 0 none) ⟨2⟩).orderingViolation? = none ∧
      (l.addImport ⟨7⟩ (.global .i64 true) ⟨1⟩).orderingViolation? ≠ none := by
  intro l
  have hn : (l.entities.map (·.var)).Nodup := by decide
  have hv : l.orderingViolation? = none := by decide
  obtain ⟨hiff, hadd, -⟩ := ordering_exact hn
  obtain ⟨-, himport⟩ := hadd hv
  exact ⟨hn, hv, hiff.mp hv, (himport _ _ _).mpr (by decide),
    fun h => absurd ((himport _ _ _).mp h) (by decide)⟩

end ModuleLayout

end EngineFuzz
