import Mathlib
import EngineFuzz.Config.WeightTable

/-!
# Replaced weights

Weights are replaced in the order of their names, up to the first name that the table does not
have.  The table is then left with the weights that were replaced before.

* `NameMap.Ordered`, `NameMap.ordered_ofList`: the order of the names in a map.
* `WeightTable.updated`: a table in which the names of a map have their weights from there.
* `WeightTable.exists_overrideEach`: which part of a list of weights is replaced.
* `WeightTable.override_exact`: when all weights are replaced, and what becomes of the table if not;
  `WeightTable.override_partly` is a table that is left changed.
-/

namespace EngineFuzz

namespace NameMap

variable {α : Type} {m : NameMap α} {entries es : List (String × α)} {name : String} {value : α}

/-- The names increase. -/
def Ordered (m : NameMap α) : Prop := m.names.Pairwise (· < ·)

/-- The part of a map whose names come before a name. -/
def before (m : NameMap α) (name : String) : NameMap α :=
  ⟨m.entries.filter fun e => e.1 < name⟩

lemma names_insertEntry {n : String} (h : n ∈ (insertEntry name value es).map Prod.fst) :
    n = name ∨ n ∈ es.map Prod.fst := by
  induction es with
  | nil => exact .inl (by simpa [insertEntry] using h)
  | cons e es ih =>
      rw [insertEntry] at h
      split at h
      · rw [List.map_cons, List.mem_cons] at h
        exact h.imp_right (List.mem_cons_of_mem _)
      · split at h
        · rw [List.map_cons, List.mem_cons] at h
          exact h
        · rw [List.map_cons, List.mem_cons] at h
          rcases h with rfl | h
          · exact .inr (List.mem_cons_self ..)
          · exact (ih h).imp_right (List.mem_cons_of_mem _)

/-- A new entry is put in its place. -/
lemma pairwise_insertEntry (h : (es.map Prod.fst).Pairwise (· < ·)) :
    ((insertEntry name value es).map Prod.fst).Pairwise (· < ·) := by
  induction es with
  | nil => simp [insertEntry]
  | cons e es ih =>
      obtain ⟨he, hes⟩ := List.pairwise_cons.mp h
      rw [insertEntry]
      split
      · rename_i heq
        rw [List.map_cons, List.pairwise_cons, heq]
        exact ⟨he, hes⟩
      · split
        · rename_i hlt
          rw [List.map_cons, List.pairwise_cons]
          refine ⟨fun n hn => ?_, h⟩
          rcases List.mem_cons.mp hn with rfl | hn
          · exact hlt
          · exact lt_trans hlt (he n hn)
        · rename_i hne hlt
          rw [List.map_cons, List.pairwise_cons]
          refine ⟨fun n hn => ?_, ih hes⟩
          rcases names_insertEntry hn with rfl | hn
          · exact lt_of_le_of_ne (not_lt.mp hlt) (Ne.symm hne)
          · exact he n hn

/-- The maps that are made of lists are ordered. -/
lemma ordered_ofList : (ofList entries).Ordered := by
  have hfold (es : List (String × α)) (m : NameMap α) (h : m.Ordered) :
      (es.foldl (fun m e => m.insert e.1 e.2) m).Ordered := by
    induction es generalizing m with
    | nil => exact h
    | cons e es ih => exact ih _ (pairwise_insertEntry h)
  exact hfold entries empty List.Pairwise.nil

lemma Ordered.nodup (h : m.Ordered) : m.names.Nodup := h.imp ne_of_lt

/-- In front of a name of an ordered map are the names that come before it. -/
lemma Ordered.before_eq {front back : List (String × α)}
    (h : (⟨front ++ (name, value) :: back⟩ : NameMap α).Ordered) :
    (⟨front ++ (name, value) :: back⟩ : NameMap α).before name = ⟨front⟩ := by
  rw [Ordered, names, List.map_append, List.pairwise_append, List.map_cons, List.pairwise_cons] at h
  obtain ⟨-, ⟨hback, -⟩, hfront⟩ := h
  rw [before, List.filter_append, List.filter_cons_of_neg (by simp), List.filter_eq_self.mpr,
    List.filter_eq_nil_iff.mpr, List.append_nil]
  · intro e he
    rw [decide_eq_true_eq, not_lt]
    exact (hback e.1 (List.mem_map_of_mem he)).le
  · intro e he
    rw [decide_eq_true_eq]
    exact hfront e.1 (List.mem_map_of_mem he) name (List.mem_cons_self ..)

end NameMap

namespace WeightTable

variable {t : WeightTable} {weights : NameMap UInt32} {es ws : List (String × UInt32)}
  {name : String} {weight : UInt32}

/-- The names in their order. -/
def names (t : WeightTable) : List String := t.entries.map (·.1)

/-- The table in which each name that the map has has its weight from there, and every other name
keeps its weight. -/
def updated (t : WeightTable) (weights : NameMap UInt32) : WeightTable :=
  { t with entries := t.entries.map fun e => (e.1, (weights.find? e.1).getD e.2) }

lemma names_updated : (t.updated weights).names = t.names := by
  simp [updated, names]

lemma updated_empty : t.updated ⟨[]⟩ = t := by
  simp [updated, NameMap.find?]

lemma replace?_eq_none_iff : replace? name weight es = none ↔ name ∉ es.map Prod.fst := by
  induction es with
  | nil => simp [replace?]
  | cons e es ih =>
      rw [replace?]
      split
      · rename_i heq
        simp [heq]
      · rename_i hne
        rw [Option.map_eq_none_iff, ih, List.map_cons, List.mem_cons, not_or]
        exact ⟨fun h => ⟨Ne.symm hne, h⟩, And.right⟩

/-- The name is given its weight, and nothing else changes. -/
lemma replace?_eq_some (hn : (es.map Prod.fst).Nodup)
    (h : replace? name weight es = some ws) :
    ws = es.map fun e => (e.1, if e.1 = name then weight else e.2) := by
  induction es generalizing ws with
  | nil => cases h
  | cons e es ih =>
      obtain ⟨he, hes⟩ := List.nodup_cons.mp hn
      rw [replace?] at h
      split at h
      · rename_i heq
        obtain rfl := Option.some.inj h
        have hrest : ∀ e' ∈ es, (e'.1, if e'.1 = name then weight else e'.2) = e' := by
          intro e' he'
          rw [if_neg]
          rintro rfl
          exact he (heq ▸ List.mem_map_of_mem he')
        rw [List.map_cons, if_pos heq, List.map_congr_left hrest, List.map_id']
      · rename_i hne
        obtain ⟨ws', hws, rfl⟩ := Option.map_eq_some_iff.mp h
        rw [List.map_cons, if_neg hne, ih hes hws]

/-- One weight is replaced, and then those of a list that does not name it. -/
lemma updated_cons (h : name ∉ ws.map Prod.fst) :
    ({ t with entries := t.entries.map fun e => (e.1, if e.1 = name then weight else e.2) } :
      WeightTable).updated ⟨ws⟩ = t.updated ⟨(name, weight) :: ws⟩ := by
  simp only [updated, List.map_map]
  congr 1
  refine List.map_congr_left fun e _ => ?_
  dsimp only [Function.comp, NameMap.find?]
  by_cases he : e.1 = name
  · have hnone : ws.find? (fun e' => e'.1 == e.1) = none := by
      rw [List.find?_eq_none]
      intro e' he' heq
      exact h (List.mem_map.mpr ⟨e', he', (eq_of_beq heq).trans he⟩)
    rw [hnone, List.find?_cons_of_pos (by simp [he]), if_pos he]
    rfl
  · rw [List.find?_cons_of_neg (by simpa using Ne.symm he), if_neg he]

/-- **Which weights are replaced**: those in front of the first name that the table does not have.
The induction is on the weights; no name comes twice, so that what has been replaced stays. -/
theorem exists_overrideEach (ht : t.names.Nodup) (hw : (ws.map Prod.fst).Nodup) :
    ∃ front back, ws = front ++ back ∧ (∀ e ∈ front, e.1 ∈ t.names) ∧
      (t.overrideEach ws).1 = t.updated ⟨front⟩ ∧
      (t.overrideEach ws).2 = back.head?.map (fun e => ⟨t.kind, e.1⟩) ∧
      ∀ e ∈ back.head?, e.1 ∉ t.names := by
  induction ws generalizing t with
  | nil => exact ⟨[], [], rfl, by simp, updated_empty.symm, rfl, by simp⟩
  | cons entry ws ih =>
      obtain ⟨name, weight⟩ := entry
      obtain ⟨hname, hws⟩ := List.nodup_cons.mp hw
      cases hr : replace? name weight t.entries with
      | none =>
          refine ⟨[], (name, weight) :: ws, rfl, by simp, ?_, ?_, ?_⟩
          · rw [overrideEach, hr, updated_empty]
          · rw [overrideEach, hr]
            rfl
          · rintro e he
            obtain rfl := Option.some.inj he
            exact replace?_eq_none_iff.mp hr
      | some entries =>
          have hmem : name ∈ t.names := by
            by_contra hn
            rw [replace?_eq_none_iff.mpr hn] at hr
            cases hr
          obtain rfl := replace?_eq_some ht hr
          generalize hs : ({ t with entries := t.entries.map fun e =>
            (e.1, if e.1 = name then weight else e.2) } : WeightTable) = s
          have hnames : s.names = t.names := by
            rw [← hs]
            simp [names]
          have hkind : s.kind = t.kind := by rw [← hs]
          obtain ⟨front, back, rfl, hfront, hfst, hsnd, hback⟩ := ih (t := s) (hnames ▸ ht) hws
          refine ⟨(name, weight) :: front, back, rfl, ?_, ?_, ?_, hnames ▸ hback⟩
          · rw [hnames] at hfront
            exact List.forall_mem_cons.mpr ⟨hmem, hfront⟩
          · rw [overrideEach, hr]
            dsimp only
            rw [hs, hfst, ← hs]
            refine updated_cons fun hn => hname ?_
            rw [List.map_append]
            exact List.mem_append_left _ hn
          · rw [overrideEach, hr]
            dsimp only
            rw [hs, hsnd, hkind]

/-- **Replacing weights** keeps the names and their order.  It succeeds exactly if the table has all
the names, and then each of them has its new weight and all others have their old ones.  If not, the
error is about the first name that the table does not have, and the weights of the names before it
have been replaced. -/
theorem override_exact (ht : t.names.Nodup) (hw : weights.Ordered) :
    (t.override weights).1.names = t.names ∧
    ((t.override weights).2 = none ↔ ∀ name ∈ weights.names, name ∈ t.names) ∧
    ((t.override weights).2 = none → (t.override weights).1 = t.updated weights) ∧
    ∀ e, (t.override weights).2 = some e →
      e.kind = t.kind ∧ e.name ∈ weights.names ∧ e.name ∉ t.names ∧
      (∀ name ∈ weights.names, name < e.name → name ∈ t.names) ∧
      (t.override weights).1 = t.updated (weights.before e.name) := by
  obtain ⟨ws⟩ := weights
  obtain ⟨front, back, rfl, hfront, hfst, hsnd, hback⟩ := exists_overrideEach ht hw.nodup
  rw [override, hfst, hsnd]
  refine ⟨names_updated, ?_⟩
  cases back with
  | nil =>
      rw [List.append_nil]
      refine ⟨⟨fun _ name hn => ?_, fun _ => rfl⟩, fun _ => rfl, nofun⟩
      obtain ⟨e, he, rfl⟩ := List.mem_map.mp hn
      exact hfront e he
  | cons entry back =>
      obtain ⟨name, weight⟩ := entry
      have hname : name ∉ t.names := hback _ rfl
      have hmem : name ∈ (⟨front ++ (name, weight) :: back⟩ : NameMap UInt32).names := by
        simp [NameMap.names]
      refine ⟨⟨nofun, fun h => absurd (h name hmem) hname⟩, nofun, ?_⟩
      rintro _ ⟨⟩
      refine ⟨rfl, hmem, hname, fun n hn hlt => ?_, by rw [hw.before_eq]⟩
      -- what comes before the unknown name stands in front of it
      obtain ⟨e, he, rfl⟩ := List.mem_map.mp hn
      have hbefore : e ∈ (NameMap.before ⟨front ++ (name, weight) :: back⟩ name).entries :=
        List.mem_filter.mpr ⟨he, decide_eq_true hlt⟩
      rw [hw.before_eq] at hbefore
      exact hfront e hbefore

/-- The second of three names is unknown. -/
theorem override_exact_between :
    let t : WeightTable := ⟨"part", [("B", 1), ("A", 2), ("D", 3)]⟩
    let weights : NameMap UInt32 := .ofList [("D", 9), ("C", 1), ("A", 7)]
    t.names.Nodup ∧ weights.Ordered ∧ t.override weights =
      (t.updated (weights.before "C"), some ⟨"part", "C"⟩) := by
  intro t weights
  have ht : t.names.Nodup := by decide
  have hw : weights.Ordered := NameMap.ordered_ofList
  have hsnd : (t.override weights).2 = some ⟨"part", "C"⟩ := by decide
  obtain ⟨-, -, -, h⟩ := override_exact ht hw
  exact ⟨ht, hw, Prod.ext (h _ hsnd).2.2.2.2 hsnd⟩

/-- **A failure leaves its marks**: the weight of the name before the unknown one is replaced. -/
theorem override_partly :
    let t : WeightTable := ⟨"template", [("A", 1)]⟩
    let weights : NameMap UInt32 := .ofList [("A", 5), ("Nope", 3)]
    t.names.Nodup ∧ weights.Ordered ∧ (t.override weights).2 = some ⟨"template", "Nope"⟩ ∧
      (t.override weights).1 = ⟨"template", [("A", 5)]⟩ ∧ (t.override weights).1 ≠ t := by
  intro t weights
  exact ⟨by decide, NameMap.ordered_ofList, by decide, by decide, by decide⟩

end WeightTable

end EngineFuzz
