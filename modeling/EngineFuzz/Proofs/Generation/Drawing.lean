import Mathlib
import EngineFuzz.Generation.RandomValue

/-!
# Computations that only draw

Generators and mutators draw numbers, names and variables before they append anything.  Such a
computation takes random words and leaves the rest of the builder as it is.

* `Draw.choose_mem`, `Draw.nat64_le`: what can be drawn.
* `Draw.untilAccepted_of_accepted`: the limit on refused words does not show.
* `Build.Draws`: a computation that takes words only, and what holds of its result, with a rule for
  each way to make one from others.
* `Build.draws_randomVariable`: a drawn variable is visible, not hidden and of an accepted type.
-/

namespace EngineFuzz

/-! ### What can be drawn -/

namespace Draw

variable {α : Type} {items : List α} {a default : α} {words : WordSource}

lemma choose_mem (h : (choose items words).1 = some a) : a ∈ items := by
  unfold choose at h
  cases hi : items.isEmpty with
  | true =>
      rw [hi] at h
      exact nomatch h
  | false =>
      rw [hi] at h
      exact List.mem_of_getElem? h

lemma chooseD_mem : (chooseD items default words).1 ∈ default :: items := by
  change ((choose items words).1.getD default) ∈ default :: items
  cases hc : (choose items words).1 with
  | none => exact List.mem_cons_self ..
  | some a => exact List.mem_cons_of_mem _ (choose_mem hc)

lemma untilAccepted_succ {draw : Draw α} {accept : α → Bool} {n : ℕ} :
    untilAccepted draw accept (n + 1) words =
      if accept (draw words).1 then draw words else untilAccepted draw accept n (draw words).2 := by
  change (if accept (draw words).1 then pure (draw words).1
    else untilAccepted draw accept n : Draw α) (draw words).2 = _
  split <;> rfl

/-- More patience makes no difference once a word has passed. -/
lemma untilAccepted_of_accepted {draw : Draw α} {accept : α → Bool} {n m : ℕ}
    (h : accept (untilAccepted draw accept n words).1 = true) (hm : n ≤ m) :
    untilAccepted draw accept m words = untilAccepted draw accept n words := by
  induction n generalizing m words with
  | zero =>
      have h : accept (draw words).1 = true := h
      cases m with
      | zero => rfl
      | succ m =>
          rw [untilAccepted_succ, if_pos h]
          rfl
  | succ n ih =>
      cases m with
      | zero => exact absurd hm (Nat.not_succ_le_zero n)
      | succ m =>
          rw [untilAccepted_succ] at h
          rw [untilAccepted_succ, untilAccepted_succ]
          split
          case isTrue => rfl
          case isFalse hno =>
            rw [if_neg hno] at h
            exact ih h (Nat.le_of_succ_le_succ hm)

/-- The high half of a product with a word is below the other factor. -/
lemma wideProduct64_lt {x bound : UInt64} (h : bound ≠ 0) :
    (wideProduct64 x bound).1.toNat < bound.toNat := by
  have hb : 0 < bound.toNat := Nat.pos_of_ne_zero fun hz => h (UInt64.toNat_inj.mp hz)
  have hlt : x.toNat * bound.toNat / 2 ^ 64 < bound.toNat := by
    rw [Nat.div_lt_iff_lt_mul (by positivity), Nat.mul_comm]
    exact Nat.mul_lt_mul_of_pos_left x.toNat_lt hb
  change ((x.toNat * bound.toNat) >>> 64).toUInt64.toNat < _
  rw [Nat.toUInt64_eq, UInt64.toNat_ofNat', Nat.shiftRight_eq_div_pow]
  exact Nat.lt_of_le_of_lt (Nat.mod_le _ _) hlt

lemma below64_lt {bound : UInt64} (h : bound ≠ 0) :
    (below64 bound words).1.toNat < bound.toNat := by
  unfold below64
  rw [if_neg h]
  exact wideProduct64_lt h

/-- A number of a range is in the range. -/
lemma nat64_le {low high : Nat} (h : low ≤ high) (hb : high - low + 1 < 2 ^ 64) :
    (nat64 low high words).1 ≤ high := by
  have hn : ((high - low + 1).toUInt64).toNat = high - low + 1 := by
    rw [Nat.toUInt64_eq, UInt64.toNat_ofNat']
    exact Nat.mod_eq_of_lt hb
  have hne : (high - low + 1).toUInt64 ≠ 0 := by
    intro hz
    rw [hz] at hn
    exact absurd hn (by simp)
  have hlt : (below64 (high - low + 1).toUInt64 words).1.toNat < (high - low + 1).toUInt64.toNat :=
    below64_lt hne
  change low + (below64 (high - low + 1).toUInt64 words).1.toNat ≤ high
  omega

end Draw

/-! ### Builders that differ in their words -/

namespace Build

variable {α β : Type} {b : Builder} {P : α → Prop} {Q : β → Prop}

lemma bind_apply {m : Build α} {k : α → Build β} : (m >>= k) b = k (m b).1 (m b).2 := rfl

lemma look_apply {g : Builder → α} : look g b = (g b, b) := rfl

lemma draw_apply {d : Draw α} :
    (liftM d : Build α) b = ((d b.words).1, { b with words := (d b.words).2 }) := rfl

/-- The computation takes random words and changes nothing else, and its result has a property. -/
def Draws (c : Build α) (b : Builder) (P : α → Prop) : Prop :=
  P (c b).1 ∧ ∃ words, (c b).2 = { b with words }

lemma Draws.pure {a : α} (h : P a) : Draws (pure a) b P := ⟨h, b.words, rfl⟩

lemma Draws.bind {c : Build α} {f : α → Build β} (hc : Draws c b P)
    (hf : ∀ a words, P a → Draws (f a) { b with words } Q) : Draws (c >>= f) b Q := by
  obtain ⟨hP, words, hw⟩ := hc
  obtain ⟨hQ, words', hw'⟩ := hf _ words hP
  have hrun : (c >>= f) b = f (c b).1 (c b).2 := rfl
  rw [← hw] at hQ hw'
  rw [Draws, hrun]
  exact ⟨hQ, words', hw'.trans (by rw [hw])⟩

lemma Draws.mono {c : Build α} {P' : α → Prop} (h : Draws c b P) (hP : ∀ a, P a → P' a) :
    Draws c b P' := ⟨hP _ h.1, h.2⟩

/-- The result is known to be the one that is drawn. -/
lemma Draws.result {c : Build α} (h : Draws c b P) : Draws c b (· = (c b).1) := ⟨rfl, h.2⟩

/-- A draw in front of a computation. -/
lemma Draws.lift {d : Draw α} {f : α → Build β}
    (hf : ∀ words words', Draws (f (d words).1) { b with words := words' } Q) :
    Draws ((liftM d : Build α) >>= f) b Q :=
  Draws.bind (P := fun a => ∃ words, (d words).1 = a) ⟨⟨_, rfl⟩, _, rfl⟩
    fun _ words' ⟨words, h⟩ => h ▸ hf words words'

/-- A computation whose result does not matter. -/
lemma Draws.any {c : Build α} {f : α → Build β} (hc : Draws c b P)
    (hf : ∀ a words, Draws (f a) { b with words } Q) : Draws (c >>= f) b Q :=
  hc.bind fun a words _ => hf a words

lemma Draws.draw {d : Draw α} (h : ∀ words, P (d words).1) : Draws (liftM d : Build α) b P :=
  ⟨h _, _, rfl⟩

lemma draws_any {d : Draw α} : Draws (liftM d : Build α) b fun _ => True :=
  Draws.draw fun _ => trivial

lemma Draws.look {f : Builder → α} {g : α → Build β} (h : Draws (g (f b)) b Q) :
    Draws (look f >>= g) b Q := h

lemma Draws.typeOf {v : Variable} {g : StaticType → Build β} (h : Draws (g (b.typeOf v)) b Q) :
    Draws (typeOf v >>= g) b Q := h

/-- A drawn variable is one of the visible variables that are not hidden, and has an accepted
type. -/
lemma draws_randomVariable {accepts : StaticType → Bool} :
    Draws (randomVariable accepts) b fun found? =>
      ∀ v, found? = some v → v ∈ b.visibleVariables ∧ accepts (b.typeOf v) = true :=
  ⟨fun _ h => List.mem_filter.mp (Draw.choose_mem h), _, rfl⟩

lemma draws_randomOfType {type : StaticType} :
    Draws (randomOfType type) b fun found? =>
      ∀ v, found? = some v → v ∈ b.visibleVariables ∧ b.typeOf v = type :=
  draws_randomVariable.mono fun _ h v hv => (h v hv).imp_right eq_of_beq

/-! ### Random values and names -/

lemma draws_randomInteger : Draws randomInteger b fun _ => True := by
  refine Draws.lift fun words words' => ?_
  split
  · refine Draws.look (Draws.lift fun words words' => ?_)
    split
    · exact Draws.pure trivial
    · exact draws_any
  · exact draws_any

lemma draws_randomFloat : Draws randomFloat b fun _ => True := by
  refine Draws.lift fun words words' => ?_
  split
  · refine Draws.look (Draws.lift fun words words' => ?_)
    split
    · exact Draws.pure trivial
    · exact draws_any
  · exact draws_any

lemma draws_randomString : Draws randomString b fun _ => True := by
  refine Draws.look (Draws.lift fun words words' => ?_)
  split <;> exact draws_any

lemma draws_randomPropertyName : Draws randomPropertyName b fun _ => True :=
  Draws.look draws_any

lemma draws_randomMethodName {object : Variable} :
    Draws (randomMethodName object) b fun _ => True := by
  refine Draws.look (Draws.typeOf ?_)
  split
  · refine Draws.lift fun words words' => ?_
    split
    · exact Draws.pure trivial
    · exact draws_any
  · exact draws_any

lemma draws_randomBuiltin : Draws randomBuiltin b fun _ => True :=
  Draws.look draws_any

/-- A random literal has the type that is asked for. -/
lemma draws_randomLiteral {type : WasmType} :
    Draws (randomLiteral type) b fun literal => literal.type = type := by
  refine Draws.lift fun words words' => ?_
  cases type <;> dsimp only
  case externRef | funcRef => exact Draws.pure rfl
  all_goals split <;> exact Draws.lift fun _ _ => Draws.pure rfl

end Build

namespace Builder

variable {b : Builder} {v : Variable}

/-- What is offered to generators is in scope. -/
lemma mem_visibleVariables_iff :
    v ∈ b.visibleVariables ↔ v ∈ b.scopes.scopes.flatten ∧ b.hidden.contains v = false := by
  rw [visibleVariables, List.mem_filter, ScopeState.visibleVariables, List.mem_reverse,
    Bool.not_eq_true']

end Builder

end EngineFuzz
