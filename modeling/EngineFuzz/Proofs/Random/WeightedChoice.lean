import Mathlib
import EngineFuzz.Generation.Toolbox

/-!
# Choices by weight

A choice draws a number below the sum of the weights and takes the member on whose part of the sum
it falls.  The sums are computed in 32 bits.  As long as the exact sum has room there, each member
is chosen for as many numbers as its weight says; beyond that there are fewer numbers than weights.

* `exactSum`, `toNat_weightSum`, `getElem?_runningSums`: sums of weights, exact and in 32 bits.
* `searchSums_spec`, `pickByWeight_eq_iff`, `card_pickByWeight`: where a number falls.
* `WeightedList.FollowsWeights`: a choice follows the weights.
* `WeightedList.followsWeights_iff`: it does so exactly if the sum of the weights has room in 32
  bits; `Toolbox.not_followsWeights_halved` is about settings for which it has not.
-/

namespace EngineFuzz

/-! ### Sums of weights -/

/-- The sum of weights. -/
def exactSum (ws : List UInt32) : ℕ := (ws.map UInt32.toNat).sum

section Sums

variable {ws ws' : List UInt32} {s u : UInt32} {j k : ℕ}

@[simp] lemma exactSum_nil : exactSum [] = 0 := rfl

@[simp] lemma exactSum_cons {w : UInt32} : exactSum (w :: ws) = w.toNat + exactSum ws :=
  List.sum_cons

lemma exactSum_append : exactSum (ws ++ ws') = exactSum ws + exactSum ws' := by
  rw [exactSum, List.map_append, List.sum_append]
  rfl

lemma exactSum_take_le : exactSum (ws.take k) ≤ exactSum ws := by
  conv_rhs => rw [← List.take_append_drop k ws, exactSum_append]
  exact Nat.le_add_right ..

lemma exactSum_take_mono (h : j ≤ k) : exactSum (ws.take j) ≤ exactSum (ws.take k) := by
  rw [← Nat.min_eq_left h, ← List.take_take]
  exact exactSum_take_le

lemma exactSum_take_succ (h : k < ws.length) :
    exactSum (ws.take (k + 1)) = exactSum (ws.take k) + ws[k].toNat := by
  rw [List.take_add_one, List.getElem?_eq_getElem h, exactSum_append]
  rfl

/-- What does not fit into 32 bits is lost. -/
lemma toNat_foldl_add : (ws.foldl (· + ·) s).toNat = (s.toNat + exactSum ws) % 2 ^ 32 := by
  induction ws generalizing s with
  | nil => exact (Nat.mod_eq_of_lt s.toNat_lt).symm
  | cons w ws ih =>
      rw [List.foldl_cons, ih, UInt32.toNat_add, exactSum_cons, Nat.mod_add_mod, Nat.add_assoc]

lemma toNat_weightSum : (weightSum ws).toNat = exactSum ws % 2 ^ 32 := by
  rw [weightSum, toNat_foldl_add]
  exact congrArg (· % 2 ^ 32) (Nat.zero_add _)

/-- The sum of the first weights is exact if that of all weights is. -/
lemma toNat_weightSum_take (h : exactSum ws < 2 ^ 32) :
    (weightSum (ws.take k)).toNat = exactSum (ws.take k) := by
  rw [toNat_weightSum, Nat.mod_eq_of_lt (Nat.lt_of_le_of_lt exactSum_take_le h)]

lemma length_runningSums : (runningSums s ws).length = ws.length - 1 := by
  fun_induction runningSums s ws with
  | case1 | case2 => rfl
  | case3 s w rest hne ih =>
      cases rest with
      | nil => exact absurd rfl hne
      | cons w' rest => simpa using ih

lemma getElem?_runningSums (h : k + 1 < ws.length) :
    (runningSums s ws)[k]? = some ((ws.take (k + 1)).foldl (· + ·) s) := by
  fun_induction runningSums s ws generalizing k with
  | case1 => simp at h
  | case2 => simp at h
  | case3 s w rest hne ih =>
      cases k with
      | zero => simp
      | succ k => simpa using ih (by simpa using h)

/-- If the sum of all weights is exact, so are the running sums. -/
lemma toNat_runningSums (h : exactSum ws < 2 ^ 32) (hk : k + 1 < ws.length) :
    ((runningSums 0 ws).toArray.getD k 0).toNat = exactSum (ws.take (k + 1)) := by
  rw [Array.getD_eq_getD_getElem?, List.getElem?_toArray, getElem?_runningSums hk]
  exact toNat_weightSum_take h

end Sums

/-! ### Where a number falls -/

section Pick

variable {ws : List UInt32} {sums : Array UInt32} {u : UInt32} {base size j k : ℕ}

/-- The last of the sums that are at most `u` stands at position `k`, or the position is 0. -/
structure LastBelow (sums : Array UInt32) (u : UInt32) (k : ℕ) : Prop where
  low : k = 0 ∨ sums.getD k 0 ≤ u
  high : ∀ j, k < j → j < sums.size → u < sums.getD j 0

/-- **The search by halving** finds the last sum that is at most `u`, if the sums do not decrease.
What it has passed on the left is at most `u`, and what it has left out on the right is greater. -/
theorem searchSums_spec
    (hsums : ∀ i j, i ≤ j → j < sums.size → sums.getD i 0 ≤ sums.getD j 0)
    (hsize : 1 ≤ size) (hlow : base = 0 ∨ sums.getD base 0 ≤ u)
    (hhigh : ∀ j, base + size ≤ j → j < sums.size → u < sums.getD j 0) :
    searchSums sums u base size < base + size ∧
      LastBelow sums u (searchSums sums u base size) := by
  fun_induction searchSums sums u base size with
  | case1 base size hle =>
      obtain rfl : size = 1 := by omega
      exact ⟨by omega, hlow, hhigh⟩
  | case2 base size hlt half ih =>
      have hhalf : half = size / 2 := rfl
      by_cases hu : u < sums.getD (base + half) 0
      · simp only [hu, ↓reduceIte, ↓reduceDIte] at ih ⊢
        obtain ⟨hend, hrest⟩ := ih (by omega) hlow fun j hj hn =>
          UInt32.lt_of_lt_of_le hu (hsums _ _ (by omega) hn)
        exact ⟨by omega, hrest⟩
      · simp only [hu, ↓reduceIte, ↓reduceDIte] at ih ⊢
        obtain ⟨hend, hrest⟩ := ih (by omega) (.inr (UInt32.not_lt.mp hu)) fun j hj =>
          hhigh j (by omega)
        exact ⟨by omega, hrest⟩

/-- The choice is the first member or has a sum of at most `u` in front of it, and it is the last
one or has a sum greater than `u` behind it. -/
lemma pickByWeight_between (h : exactSum ws < 2 ^ 32) (hpos : 0 < ws.length) :
    pickByWeight u ws < ws.length ∧
    (pickByWeight u ws = 0 ∨ exactSum (ws.take (pickByWeight u ws)) ≤ u.toNat) ∧
    (pickByWeight u ws + 1 = ws.length ∨ u.toNat < exactSum (ws.take (pickByWeight u ws + 1))) := by
  generalize hs : (runningSums 0 ws).toArray = sums
  have hsize : sums.size = ws.length - 1 := by
    rw [← hs]
    exact length_runningSums
  have hsum {j} (hj : j < ws.length - 1) : (sums.getD j 0).toNat = exactSum (ws.take (j + 1)) := by
    rw [← hs]
    exact toNat_runningSums h (by omega)
  rcases Nat.eq_zero_or_pos sums.size with hone | hmore
  · -- there are no running sums for a single weight
    have hzero : pickByWeight u ws = 0 := by
      unfold pickByWeight
      rw [hs, Array.eq_empty_of_size_eq_zero hone]
      rfl
    rw [hzero]
    exact ⟨hpos, .inl rfl, .inl (by omega)⟩
  · have hsorted (i j) (hij : i ≤ j) (hj : j < sums.size) : sums.getD i 0 ≤ sums.getD j 0 := by
      rw [UInt32.le_iff_toNat_le, hsum (by omega), hsum (by omega)]
      exact exactSum_take_mono (by omega)
    have hsearch : searchSums sums u 0 sums.size < 0 + sums.size ∧
        LastBelow sums u (searchSums sums u 0 sums.size) :=
      searchSums_spec hsorted hmore (.inl rfl) fun j hj hn => by omega
    obtain ⟨hend, hlow, hhigh⟩ := hsearch
    generalize hlast : searchSums sums u 0 sums.size = last at hend hlow hhigh
    have hin : last < ws.length - 1 := by omega
    have hget : sums[last]? = some (sums.getD last 0) := by
      rw [Array.getD_eq_getD_getElem?, Array.getElem?_eq_getElem (by omega)]
      rfl
    have hpick : pickByWeight u ws = if sums.getD last 0 ≤ u then last + 1 else last := by
      unfold pickByWeight
      simp only [hs, hlast, hget]
    by_cases hle : sums.getD last 0 ≤ u
    · rw [hpick, if_pos hle]
      rw [UInt32.le_iff_toNat_le, hsum hin] at hle
      refine ⟨by omega, .inr hle, ?_⟩
      by_cases hl : last + 1 < ws.length - 1
      · have hnext := hhigh (last + 1) (by omega) (by omega)
        rw [UInt32.lt_iff_toNat_lt, hsum hl] at hnext
        exact .inr hnext
      · exact .inl (by omega)
    · rw [hpick, if_neg hle]
      rw [UInt32.le_iff_toNat_le, hsum hin, not_le] at hle
      refine ⟨by omega, hlow.imp_right fun hl => ?_, .inr hle⟩
      rw [UInt32.le_iff_toNat_le, hsum hin] at hl
      exact absurd hle (by omega)

/-- A number below the sum falls on a member with its part of the sum. -/
lemma pickByWeight_spec (h : exactSum ws < 2 ^ 32) (hu : u.toNat < exactSum ws) :
    pickByWeight u ws < ws.length ∧ exactSum (ws.take (pickByWeight u ws)) ≤ u.toNat ∧
      u.toNat < exactSum (ws.take (pickByWeight u ws + 1)) := by
  have hpos : 0 < ws.length := by
    rw [List.length_pos_iff]
    rintro rfl
    exact Nat.not_lt_zero _ hu
  obtain ⟨hlt, hlow, hhigh⟩ := pickByWeight_between h hpos
  refine ⟨hlt, hlow.elim (fun hz => ?_) id, hhigh.elim (fun hlast => ?_) id⟩
  · rw [hz]
    exact Nat.zero_le _
  · rwa [hlast, List.take_length]

/-- Each member has the numbers of its part of the sum. -/
lemma pickByWeight_eq_iff (h : exactSum ws < 2 ^ 32) (hu : u.toNat < exactSum ws) :
    pickByWeight u ws = k ↔
      exactSum (ws.take k) ≤ u.toNat ∧ u.toNat < exactSum (ws.take (k + 1)) := by
  obtain ⟨-, hlow, hhigh⟩ := pickByWeight_spec h hu
  refine ⟨fun hk => hk ▸ ⟨hlow, hhigh⟩, fun ⟨hl, hh⟩ => ?_⟩
  -- of two different positions, the part of the one ends before that of the other begins
  rcases Nat.lt_trichotomy (pickByWeight u ws) k with hlt | heq | hgt
  · exact absurd (hhigh.trans_le (exactSum_take_mono hlt)) hl.not_gt
  · exact heq
  · exact absurd (hh.trans_le (exactSum_take_mono hgt)) hlow.not_gt

/-- **As many numbers fall on a member as its weight says.** -/
theorem card_pickByWeight (h : exactSum ws < 2 ^ 32) (hk : k < ws.length) :
    ((Finset.range (exactSum ws)).filter fun u => pickByWeight (.ofNat u) ws = k).card =
      ws[k].toNat := by
  have hpart : ((Finset.range (exactSum ws)).filter fun u => pickByWeight (.ofNat u) ws = k) =
      Finset.Ico (exactSum (ws.take k)) (exactSum (ws.take (k + 1))) := by
    ext u
    rw [Finset.mem_filter, Finset.mem_range, Finset.mem_Ico]
    have hend : exactSum (ws.take (k + 1)) ≤ exactSum ws := exactSum_take_le
    by_cases hu : u < exactSum ws
    · have hword : (UInt32.ofNat u).toNat = u := UInt32.toNat_ofNat_of_lt (hu.trans h)
      rw [pickByWeight_eq_iff h (hword.symm ▸ hu), hword, and_iff_right hu]
    · exact ⟨fun hin => absurd hin.1 hu, fun hin => absurd (hin.2.trans_le hend) hu⟩
  rw [hpart, Nat.card_Ico, exactSum_take_succ hk, Nat.add_sub_cancel_left]

end Pick

/-! ### Choices from a list -/

lemma Draw.wideProduct32_lt {x bound : UInt32} (h : bound ≠ 0) :
    (Draw.wideProduct32 x bound).1.toNat < bound.toNat := by
  have hb : 0 < bound.toNat := Nat.pos_of_ne_zero fun hz => h (UInt32.toNat_inj.mp hz)
  have hprod : x.toNat * bound.toNat < 2 ^ 32 * bound.toNat :=
    Nat.mul_lt_mul_of_pos_right x.toNat_lt hb
  have hfits : x.toNat * bound.toNat < 2 ^ 64 :=
    hprod.trans (Nat.mul_lt_mul_of_pos_left bound.toNat_lt (by positivity))
  have hlt : x.toNat * bound.toNat / 2 ^ 32 < bound.toNat := by
    rwa [Nat.div_lt_iff_lt_mul (by positivity), Nat.mul_comm bound.toNat]
  have hword : ((x.toUInt64 * bound.toUInt64) >>> 32).toNat = x.toNat * bound.toNat / 2 ^ 32 := by
    rw [UInt64.toNat_shiftRight, UInt64.toNat_mul, UInt32.toNat_toUInt64, UInt32.toNat_toUInt64,
      Nat.mod_eq_of_lt hfits, Nat.shiftRight_eq_div_pow]
    rfl
  change ((x.toUInt64 * bound.toUInt64) >>> 32).toUInt32.toNat < _
  rw [UInt64.toNat_toUInt32, hword]
  exact (Nat.mod_le _ _).trans_lt hlt

/-- A number that is drawn is below its bound. -/
lemma Draw.belowWhole32_lt {bound : UInt32} {words : WordSource} (h : bound ≠ 0) :
    (Draw.belowWhole32 bound words).1.toNat < bound.toNat := by
  unfold Draw.belowWhole32
  exact Draw.wideProduct32_lt h

namespace WeightedList

variable {α : Type} {l : WeightedList α} {accept : ℕ → α → Bool} {item : α} {weight u : UInt32}
  {items : List (α × UInt32)} {i k : ℕ}

/-- The weight of the member at a position, if it is accepted, and 0 at other positions. -/
def acceptedWeight (l : WeightedList α) (accept : ℕ → α → Bool) (i : ℕ) : ℕ :=
  match l.items[i]? with
  | some (item, weight) => if accept i item then weight.toNat else 0
  | none => 0

/-- The exact sum of the weights of the accepted members. -/
def exactTotal (l : WeightedList α) (accept : ℕ → α → Bool) : ℕ :=
  ∑ i ∈ Finset.range l.size, l.acceptedWeight accept i

/-- The weights that take part in a choice. -/
def eligibleWeights (l : WeightedList α) (accept : ℕ → α → Bool) : List UInt32 :=
  (l.eligible accept).map (·.2)

/-- The sum of the weights in 32 bits.  Numbers below it are drawn. -/
def drawBound (l : WeightedList α) (accept : ℕ → α → Bool) : UInt32 :=
  weightSum (l.eligibleWeights accept)

/-- The position of the member that a number falls on. -/
def indexAt (l : WeightedList α) (accept : ℕ → α → Bool) (u : UInt32) : Option ℕ :=
  if l.drawBound accept = 0 then none
  else (l.eligible accept)[pickByWeight u (l.eligibleWeights accept)]?.map (·.1)

lemma chooseIndexWhere_eq {words : WordSource} :
    (l.chooseIndexWhere accept words).1 =
      l.indexAt accept (Draw.belowWhole32 (l.drawBound accept) words).1 := by
  unfold chooseIndexWhere Draw.position? indexAt drawBound eligibleWeights
  by_cases h : weightSum ((l.eligible accept).map (·.2)) = 0
  · simp only [h, ↓reduceIte]
    rfl
  · simp only [h, ↓reduceIte]
    rfl

lemma eligible_eq : l.eligible accept = l.items.zipIdx.filterMap fun e =>
    if e.1.2 > 0 && accept e.2 e.1.1 then some (e.2, e.1.2) else none := by
  rw [eligible, List.mapIdx_eq_zipIdx_map, List.filterMap_map]
  rfl

/-- The first member comes first, and the positions of the others are counted from it on. -/
lemma eligible_cons : (⟨(item, weight) :: items⟩ : WeightedList α).eligible accept =
    (if weight > 0 && accept 0 item then [(0, weight)] else []) ++
      ((⟨items⟩ : WeightedList α).eligible fun i => accept (i + 1)).map
        fun e => (e.1 + 1, e.2) := by
  have hrest : (items.zipIdx (0 + 1)).filterMap (fun e =>
        if e.1.2 > 0 && accept e.2 e.1.1 then some (e.2, e.1.2) else none) =
      ((⟨items⟩ : WeightedList α).eligible fun i => accept (i + 1)).map
        fun e => (e.1 + 1, e.2) := by
    rw [eligible_eq, List.zipIdx_succ, List.filterMap_map, List.map_filterMap]
    refine List.filterMap_congr fun e _ => ?_
    dsimp only [Function.comp]
    split <;> rfl
  rw [eligible_eq, List.zipIdx_cons, List.filterMap_cons, hrest]
  dsimp only
  cases decide (weight > 0) && accept 0 item <;> rfl

lemma acceptedWeight_cons_zero :
    (⟨(item, weight) :: items⟩ : WeightedList α).acceptedWeight accept 0 =
      if accept 0 item then weight.toNat else 0 := rfl

/-- Each position is eligible once at most. -/
lemma nodup_eligible : ((l.eligible accept).map (·.1)).Nodup := by
  obtain ⟨items⟩ := l
  induction items generalizing accept with
  | nil => exact List.nodup_nil
  | cons m items ih =>
      rw [eligible_cons, List.map_append, List.map_map]
      refine List.nodup_append.mpr ⟨?_, ?_, fun a ha b hb => ?_⟩
      · split <;> simp
      · have hrest : (((⟨items⟩ : WeightedList α).eligible fun i => accept (i + 1)).map
          (·.1)).Nodup := ih
        have hsucc := hrest.map Nat.succ_injective
        rwa [List.map_map] at hsucc
      · obtain ⟨e, -, rfl⟩ := List.mem_map.mp hb
        split at ha
        · obtain rfl := List.mem_singleton.mp ha
          exact Nat.zero_ne_add_one _
        · cases ha

/-- The eligible members are the accepted ones whose weight is not 0. -/
lemma mem_eligible_iff : (i, weight) ∈ l.eligible accept ↔
    ∃ item, l.items[i]? = some (item, weight) ∧ accept i item ∧ weight ≠ 0 := by
  rw [eligible_eq, List.mem_filterMap]
  constructor
  · rintro ⟨⟨⟨item, w⟩, j⟩, hmem, hsome⟩
    rw [List.mem_zipIdx_iff_getElem?] at hmem
    split at hsome
    · rename_i hok
      obtain ⟨rfl, rfl⟩ := Prod.mk.inj (Option.some.inj hsome)
      rw [Bool.and_eq_true, decide_eq_true_eq] at hok
      exact ⟨item, hmem, hok.2, UInt32.pos_iff_ne_zero.mp hok.1⟩
    · cases hsome
  · rintro ⟨item, hitem, haccept, hweight⟩
    refine ⟨((item, weight), i), List.mem_zipIdx_iff_getElem?.mpr hitem, if_pos ?_⟩
    rw [Bool.and_eq_true, decide_eq_true_eq]
    exact ⟨UInt32.pos_iff_ne_zero.mpr hweight, haccept⟩

/-- An eligible weight counts. -/
lemma acceptedWeight_of_mem (h : (i, weight) ∈ l.eligible accept) :
    l.acceptedWeight accept i = weight.toNat := by
  obtain ⟨item, hitem, haccept, -⟩ := mem_eligible_iff.mp h
  rw [acceptedWeight, hitem]
  exact if_pos haccept

/-- Only eligible weights count. -/
lemma exists_mem_eligible (h : l.acceptedWeight accept i ≠ 0) :
    ∃ weight, (i, weight) ∈ l.eligible accept := by
  rw [acceptedWeight] at h
  split at h
  · rename_i item weight hitem
    split at h
    · rename_i haccept
      refine ⟨weight, mem_eligible_iff.mpr ⟨item, hitem, haccept, ?_⟩⟩
      rintro rfl
      exact h rfl
    · exact absurd rfl h
  · exact absurd rfl h

lemma exactSum_eligibleWeights : exactSum (l.eligibleWeights accept) = l.exactTotal accept := by
  obtain ⟨items⟩ := l
  induction items generalizing accept with
  | nil => rfl
  | cons m items ih =>
      obtain ⟨item, weight⟩ := m
      rw [exactTotal, size, List.length_cons, Finset.sum_range_succ', acceptedWeight_cons_zero,
        Nat.add_comm, eligibleWeights, eligible_cons, List.map_append, exactSum_append,
        List.map_map]
      refine congrArg₂ (· + ·) ?_ ih
      by_cases hw : weight = 0
      · subst hw
        simp
      · cases haccept : accept 0 item <;> simp [UInt32.pos_iff_ne_zero, hw]

lemma toNat_drawBound : (l.drawBound accept).toNat = l.exactTotal accept % 2 ^ 32 := by
  rw [drawBound, toNat_weightSum, exactSum_eligibleWeights]

/-- A number below the exact sum falls on an eligible member. -/
lemma indexAt_eq_some (h : l.exactTotal accept < 2 ^ 32) (hu : u.toNat < l.exactTotal accept) :
    ∃ e, (l.eligible accept)[pickByWeight u (l.eligibleWeights accept)]? = some e ∧
      l.indexAt accept u = some e.1 := by
  have hbound : l.drawBound accept ≠ 0 := by
    intro hzero
    have hmod : (l.drawBound accept).toNat = _ := toNat_drawBound
    rw [Nat.mod_eq_of_lt h, hzero] at hmod
    exact Nat.not_lt_zero _ (hmod ▸ hu)
  rw [← exactSum_eligibleWeights] at h hu
  have hlt := (pickByWeight_spec h hu).1
  rw [eligibleWeights, List.length_map] at hlt
  have hget := List.getElem?_eq_getElem hlt
  refine ⟨_, hget, ?_⟩
  rw [indexAt, if_neg hbound, eligibleWeights, hget]
  rfl

/-- A number falls on an eligible member, if it falls on any. -/
lemma acceptedWeight_ne_zero (h : l.indexAt accept u = some i) :
    l.acceptedWeight accept i ≠ 0 := by
  rw [indexAt] at h
  split at h
  · cases h
  · obtain ⟨⟨i, weight⟩, he, rfl⟩ := Option.map_eq_some_iff.mp h
    have hmem := List.mem_of_getElem? he
    obtain ⟨-, -, -, hweight⟩ := mem_eligible_iff.mp hmem
    rw [acceptedWeight_of_mem hmem]
    exact fun hz => hweight (UInt32.toNat_inj.mp hz)

lemma acceptedWeight_eq_zero (h : l.size ≤ i) : l.acceptedWeight accept i = 0 := by
  rw [acceptedWeight, List.getElem?_eq_none h]

lemma exactTotal_eq_zero_iff : l.exactTotal accept = 0 ↔ ∀ i, l.acceptedWeight accept i = 0 := by
  rw [exactTotal, Finset.sum_eq_zero_iff]
  refine ⟨fun h i => ?_, fun h i _ => h i⟩
  by_cases hi : i < l.size
  · exact h i (Finset.mem_range.mpr hi)
  · exact acceptedWeight_eq_zero (Nat.le_of_not_lt hi)

/-- The drawn numbers that fall on the member at a position. -/
def drawsOf (l : WeightedList α) (accept : ℕ → α → Bool) (i : ℕ) : Finset ℕ :=
  (Finset.range (l.drawBound accept).toNat).filter fun u => l.indexAt accept (.ofNat u) = some i

/-- A choice follows the weights. -/
structure FollowsWeights (l : WeightedList α) (accept : ℕ → α → Bool) : Prop where
  /-- Nothing is chosen exactly if no accepted member has a weight. -/
  none_iff : ∀ words, (l.chooseIndexWhere accept words).1 = none ↔
    ∀ i, l.acceptedWeight accept i = 0
  /-- Each position is chosen for as many numbers as its weight says. -/
  card_drawsOf : ∀ i, (l.drawsOf accept i).card = l.acceptedWeight accept i

/-- An eligible member is chosen for the numbers that fall on its weight. -/
lemma card_drawsOf_of_mem (h : l.exactTotal accept < 2 ^ 32)
    (hmem : (i, weight) ∈ l.eligible accept) : (l.drawsOf accept i).card = weight.toNat := by
  obtain ⟨k, hk, hget⟩ := List.getElem_of_mem hmem
  have hbound : (l.drawBound accept).toNat = exactSum (l.eligibleWeights accept) := by
    rw [toNat_drawBound, Nat.mod_eq_of_lt h, exactSum_eligibleWeights]
  have hlt : k < (l.eligibleWeights accept).length := by
    rwa [eligibleWeights, List.length_map]
  have hweight : (l.eligibleWeights accept)[k] = weight := by
    simp only [eligibleWeights, List.getElem_map, hget]
  rw [← hweight, ← card_pickByWeight (exactSum_eligibleWeights ▸ h) hlt, drawsOf, hbound]
  refine congrArg Finset.card (Finset.filter_congr fun u hu => ?_)
  rw [Finset.mem_range, exactSum_eligibleWeights] at hu
  have hword : (UInt32.ofNat u).toNat = u := UInt32.toNat_ofNat_of_lt (hu.trans h)
  obtain ⟨e, he, hindex⟩ := indexAt_eq_some (u := .ofNat u) h (hword.symm ▸ hu)
  generalize pickByWeight (.ofNat u) (l.eligibleWeights accept) = p at he ⊢
  obtain ⟨hp, rfl⟩ := List.getElem?_eq_some_iff.mp he
  rw [hindex, Option.some.injEq]
  -- a position is eligible once, so that the same position is the same member
  have hnodup : ((l.eligible accept).map (·.1)).Nodup := nodup_eligible
  constructor
  · intro heq
    have hsame : (l.eligible accept)[p] = (l.eligible accept)[k] :=
      List.inj_on_of_nodup_map hnodup (List.getElem_mem hp) (List.getElem_mem hk)
        (by rw [heq, hget])
    exact (List.Nodup.of_map _ hnodup).getElem_inj_iff.mp hsame
  · rintro rfl
    rw [hget]

/-- With room for the exact sum the choice follows the weights. -/
lemma followsWeights_of_lt (h : l.exactTotal accept < 2 ^ 32) : l.FollowsWeights accept where
  none_iff words := by
    rw [chooseIndexWhere_eq, ← exactTotal_eq_zero_iff]
    have hbound : (l.drawBound accept).toNat = l.exactTotal accept := by
      rw [toNat_drawBound, Nat.mod_eq_of_lt h]
    by_cases hzero : l.drawBound accept = 0
    · rw [indexAt, if_pos hzero]
      rw [hzero] at hbound
      exact ⟨fun _ => hbound.symm, fun _ => rfl⟩
    · have hdrawn : (Draw.belowWhole32 _ words).1.toNat < _ := Draw.belowWhole32_lt hzero
      rw [hbound] at hdrawn
      obtain ⟨e, -, hindex⟩ := indexAt_eq_some h hdrawn
      rw [hindex]
      exact ⟨nofun, fun hz => absurd hdrawn (by omega)⟩
  card_drawsOf i := by
    by_cases hi : l.acceptedWeight accept i = 0
    · rw [hi, Finset.card_eq_zero, drawsOf, Finset.filter_eq_empty_iff]
      exact fun u _ hu => acceptedWeight_ne_zero hu hi
    · obtain ⟨weight, hmem⟩ := exists_mem_eligible hi
      rw [acceptedWeight_of_mem hmem, card_drawsOf_of_mem h hmem]

/-- Different positions have different numbers, so that the exact sum of the weights is at most the
number of all that can be drawn. -/
lemma FollowsWeights.exactTotal_lt (h : l.FollowsWeights accept) :
    l.exactTotal accept < 2 ^ 32 := by
  have hdisjoint : (Set.univ : Set ℕ).PairwiseDisjoint (l.drawsOf accept) := by
    intro i _ j _ hij
    refine Finset.disjoint_left.mpr fun u hi hj => hij ?_
    have heq := (Finset.mem_filter.mp hi).2.symm.trans (Finset.mem_filter.mp hj).2
    exact Option.some.inj heq
  calc l.exactTotal accept
      = ∑ i ∈ Finset.range l.size, (l.drawsOf accept i).card :=
        Finset.sum_congr rfl fun i _ => (h.card_drawsOf i).symm
    _ = ((Finset.range l.size).biUnion (l.drawsOf accept)).card :=
        (Finset.card_biUnion fun i _ j _ hij => hdisjoint trivial trivial hij).symm
    _ ≤ (Finset.range (l.drawBound accept).toNat).card :=
        Finset.card_le_card (Finset.biUnion_subset.mpr fun i _ => Finset.filter_subset ..)
    _ = (l.drawBound accept).toNat := Finset.card_range _
    _ < 2 ^ 32 := (l.drawBound accept).toNat_lt

/-- **A choice follows the weights** exactly if the exact sum of the accepted ones has room in 32
bits, that is, if all sums that are computed are exact.  The position that is chosen is always that
of a number which is drawn below the computed sum. -/
theorem followsWeights_iff :
    (l.FollowsWeights accept ↔ l.exactTotal accept < 2 ^ 32) ∧
    ((∀ k, (weightSum ((l.eligibleWeights accept).take k)).toNat =
        exactSum ((l.eligibleWeights accept).take k)) ↔ l.exactTotal accept < 2 ^ 32) ∧
    ∀ words : WordSource, (l.chooseIndexWhere accept words).1 =
        l.indexAt accept (Draw.belowWhole32 (l.drawBound accept) words).1 ∧
      (l.drawBound accept ≠ 0 →
        (Draw.belowWhole32 (l.drawBound accept) words).1.toNat < (l.drawBound accept).toNat) := by
  refine ⟨⟨FollowsWeights.exactTotal_lt, followsWeights_of_lt⟩, ⟨fun h => ?_, fun h k => ?_⟩,
    fun words => ⟨chooseIndexWhere_eq, Draw.belowWhole32_lt⟩⟩
  · have hall := h (l.eligibleWeights accept).length
    rw [List.take_length, exactSum_eligibleWeights] at hall
    rw [← hall]
    exact UInt32.toNat_lt _
  · exact toNat_weightSum_take (exactSum_eligibleWeights ▸ h)

end WeightedList

/-! ### Weights without room -/

/-- Settings in which two mutators have all the weight, each of them half of what 32 bits can
count. -/
def halvedSettings : Settings where
  weights := { mutators := .ofList [("WasmMutator", 0), ("OperationMutator", 2147483648),
    ("InputMutator", 2147483648), ("CodeGenMutator", 0)] }

/-- The mutators with the weights of `halvedSettings`. -/
def halvedMutators : WeightedList MutatorKind :=
  ⟨[(.wasm, 0), (.operation, 2147483648), (.input, 2147483648), (.codeGen, 0)]⟩

/-- **Weights that are accepted need not be followed**: the sum of the weights is 0 in 32 bits, and
none of the mutators is ever chosen. -/
theorem Toolbox.not_followsWeights_halved :
    ∃ tb, Toolbox.ofSettings halvedSettings .script = .ok tb ∧
      tb.mutators.acceptedWeight (fun _ _ => true) 1 = 2147483648 ∧
      (∀ words, (tb.mutators.chooseIndexWhere (fun _ _ => true) words).1 = none) ∧
      ¬ tb.mutators.FollowsWeights fun _ _ => true := by
  have hmutators (tb : Toolbox) (h : Toolbox.ofSettings halvedSettings .script = .ok tb) :
      tb.mutators = halvedMutators := by
    cases h
    rfl
  have hnone (words) :
      (halvedMutators.chooseIndexWhere (fun _ _ => true) words).1 = none := by
    rw [WeightedList.chooseIndexWhere_eq]
    exact if_pos (by decide)
  obtain ⟨tb, htb⟩ : ∃ tb, Toolbox.ofSettings halvedSettings .script = .ok tb := ⟨_, rfl⟩
  refine ⟨tb, htb, ?_⟩
  rw [hmutators tb htb]
  refine ⟨rfl, hnone, fun h => ?_⟩
  have hzero := (h.none_iff (.ofFunction fun _ => 0)).mp (hnone _) 1
  exact absurd hzero (by decide)

end EngineFuzz
