import Mathlib
import EngineFuzz.Proofs.Generation.Insertions

/-!
# Builds keep to their budgets

A build draws generators one after another, and generators may start builds in turn.  The draws of
each build are counted here, and the depth at which a draw is made is bounded.

* `Builder.draws`: the builders behind the draws of a build.
* `Builder.buildLoop_eq`, `Builder.length_draws_le`, `Builder.draws_end`: where the draws lead to,
  how many there are, and why there are not more.
* `Build.build_eq`, `Build.nested_eq`: a build draws generators that build nested code.
* `Build.DrawsAt`: the draws of a build and of all builds inside.
* `Build.build_within_budget`: the main statement.
-/

namespace EngineFuzz

open Build

/-! ### The draws of a loop -/

namespace Builder

variable {b c : Builder} {f : Frame} {run : Build Bool} {limit remaining failures : ℕ}

/-- The builders behind each draw, until `remaining` instructions have been appended or `limit`
draws in a row, of which `failures` are past, have appended nothing. -/
def draws (run : Build Bool) (limit remaining failures : ℕ) (b : Builder) : List Builder :=
  if remaining = 0 then []
  else
    let (ran, c) := run b
    let appended := c.size - b.size
    if ran && appended ≠ 0 then c :: draws run limit (remaining - appended) 0 c
    else if failures + 1 ≥ limit then [c]
    else c :: draws run limit remaining (failures + 1) c
termination_by (remaining, limit - failures)
decreasing_by
  all_goals simp_wf
  · rename_i h
    simp only [Bool.and_eq_true, decide_eq_true_eq] at h
    exact Prod.Lex.left _ _ (by omega)
  · exact Prod.Lex.right _ (by omega)

/-- The loop ends behind its last draw. -/
lemma buildLoop_eq : b.buildLoop run limit remaining failures =
    (draws run limit remaining failures b).getLastD b := by
  fun_induction buildLoop run limit remaining failures b with
  | case1 failures b =>
      rw [draws, if_pos rfl]
      rfl
  | case2 remaining failures b hr before ran c hrun appended hran ih =>
      rw [draws, if_neg hr, hrun]
      dsimp only
      rw [if_pos hran, List.getLastD_cons, ih]
  | case3 remaining failures b hr before ran c hrun appended hran hl =>
      rw [draws, if_neg hr, hrun]
      dsimp only
      rw [if_neg hran, if_pos hl]
      rfl
  | case4 remaining failures b hr before ran c hrun appended hran hl ih =>
      rw [draws, if_neg hr, hrun]
      dsimp only
      rw [if_neg hran, if_neg hl, List.getLastD_cons, ih]

/-- Each draw is made where the one before has ended. -/
lemma isChain_draws : (b :: draws run limit remaining failures b).IsChain
    fun c d => d = (run c).2 := by
  fun_induction draws run limit remaining failures b with
  | case1 => exact .singleton _
  | case2 remaining failures b hr ran c hrun appended hran ih =>
      exact .cons_cons (by rw [hrun]) ih
  | case3 remaining failures b hr ran c hrun appended hran hl =>
      exact .cons_cons (by rw [hrun]) (.singleton _)
  | case4 remaining failures b hr ran c hrun appended hran hl ih =>
      exact .cons_cons (by rw [hrun]) ih

/-- **How many draws there are.**  Each draw that appends something reduces what remains, and before
the next one there are fewer draws in vain than the limit says. -/
theorem length_draws_le (hf : failures < max 1 limit) :
    (draws run limit remaining failures b).length + failures ≤
      remaining * max 1 limit + max 1 limit := by
  fun_induction draws run limit remaining failures b with
  | case1 => simp; omega
  | case2 remaining failures b hr ran c hrun appended hran ih =>
      have hall := ih (by omega)
      simp only [Bool.and_eq_true, decide_eq_true_eq] at hran
      have hle : (remaining - appended + 1) * max 1 limit ≤ remaining * max 1 limit :=
        Nat.mul_le_mul_right _ (by omega)
      rw [Nat.add_mul, Nat.one_mul] at hle
      rw [List.length_cons]
      omega
  | case3 remaining failures b hr ran c hrun appended hran hl =>
      have hle : 1 * max 1 limit ≤ remaining * max 1 limit := Nat.mul_le_mul_right _ (by omega)
      rw [List.length_singleton]
      omega
  | case4 remaining failures b hr ran c hrun appended hran hl ih =>
      have hall := ih (by omega)
      rw [List.length_cons]
      omega

/-- A draw in vain leaves the instructions as they were. -/
lemma instructions_eq_of_vain {ran : Bool} (hc : run b = (ran, c)) (hgains : b.Gains c)
    (hnone : (run b).1 = false → (run b).2.instructions = b.instructions)
    (hvain : ¬(ran && decide (c.size - b.size ≠ 0)) = true) : c.instructions = b.instructions := by
  cases ran with
  | false =>
      rw [hc] at hnone
      exact hnone rfl
  | true => exact hgains.instructions_eq (Nat.sub_eq_zero_iff_le.mp (by simpa using hvain))

/-- **Why there are not more draws**: enough has been appended, or the last draws have appended
nothing. -/
theorem draws_end (hrun : Inserts f run run)
    (hnone : ∀ c, (run c).1 = false → (run c).2.instructions = c.instructions)
    (hb : b.frame = f) :
    let cs := draws run limit remaining failures b
    b.size + remaining ≤ (cs.getLastD b).size ∨
      max 1 limit ≤ failures + cs.length ∧ ∀ c ∈ (b :: cs).drop (cs.length - max 1 limit),
        c.instructions = (cs.getLastD b).instructions := by
  -- what is said of the draws behind the first one holds of all, if those are more than the limit
  have hlater {b c : Builder} {cs : List Builder} (hl : max 1 limit ≤ cs.length)
      (h : ∀ d ∈ (c :: cs).drop (cs.length - max 1 limit),
        d.instructions = (cs.getLastD c).instructions) :
      ∀ d ∈ (b :: c :: cs).drop ((c :: cs).length - max 1 limit),
        d.instructions = ((c :: cs).getLastD b).instructions := by
    rwa [List.length_cons, Nat.succ_sub hl, List.drop_succ_cons, List.getLastD_cons]
  fun_induction draws run limit remaining failures b with
  | case1 => exact .inl (Nat.le_refl _)
  | case2 remaining failures b hr ran c hc appended hran ih =>
      obtain ⟨-, hframe, -⟩ := hrun b hb
      rw [hc] at hframe
      simp only [Bool.and_eq_true, decide_eq_true_eq] at hran
      refine (ih hframe).imp (fun hsize => ?_) fun ⟨hl, hall⟩ => ⟨?_, hlater (by omega) hall⟩
      · rw [List.getLastD_cons]
        omega
      · rw [List.length_cons]
        omega
  | case3 remaining failures b hr ran c hc appended hran hl =>
      obtain ⟨-, -, hgains⟩ := hrun b hb
      rw [hc] at hgains
      have hsame := instructions_eq_of_vain hc hgains (hnone b) hran
      refine .inr ⟨?_, fun d hd => ?_⟩
      · rw [List.length_singleton]
        omega
      · rcases List.mem_cons.mp (List.mem_of_mem_drop hd) with rfl | hd
        · exact hsame.symm
        · rw [List.mem_singleton.mp hd]
          rfl
  | case4 remaining failures b hr ran c hc appended hran hl ih =>
      obtain ⟨-, hframe, hgains⟩ := hrun b hb
      rw [hc] at hframe hgains
      have hsame := instructions_eq_of_vain hc hgains (hnone b) hran
      have hsize : c.size = b.size := congrArg Array.size hsame
      refine (ih hframe).imp (fun hsize => ?_) fun ⟨hl, hall⟩ => ⟨?_, ?_⟩
      · rw [List.getLastD_cons]
        omega
      · rw [List.length_cons]
        omega
      · rcases Nat.lt_or_ge (draws run limit remaining (failures + 1) c).length (max 1 limit)
          with hlt | hge
        · -- there are no more draws than those in vain
          rw [Nat.sub_eq_zero_of_le hlt.le, List.drop_zero] at hall
          intro d hd
          rw [List.getLastD_cons]
          rcases List.mem_cons.mp (List.mem_of_mem_drop hd) with rfl | hd
          · exact hsame.symm.trans (hall c (List.mem_cons_self ..))
          · exact hall d hd
        · exact hlater hge hall

end Builder

/-! ### Builds and nested builds -/

namespace Builder

/-- How many more levels of nesting are allowed. -/
def Frame.levels (f : Frame) : ℕ :=
  f.toolbox.settings.builder.maxRecursionDepth.toNat - f.depth

/-- The builders behind each draw of a build. -/
def drawsOf (n : ℕ) (b : Builder) : List Builder :=
  b.draws runRandom b.settings.maxConsecutiveFailures.toNat n 0

end Builder

namespace Build

open Builder

variable {f : Frame} {b c d : Builder} {n : ℕ} {nested' : Build Unit}

/-- A draw, with the computation that builds nested code. -/
def drawWith (nested : Build Unit) : Build Bool := do
  runRandomWith (decide ((← levels) ≠ 0)) nested

lemma drawWith_apply (hb : b.frame = f) :
    drawWith nested' b = runRandomWith (decide (f.levels ≠ 0)) nested' b := by
  subst hb
  rfl

/-- The computation that builds nested code matters only if nesting is allowed. -/
lemma inserts_drawWith (h : f.levels ≠ 0 → Inserts f nested nested') :
    Inserts f (drawWith nested) (drawWith nested') := by
  intro b hb
  rw [drawWith_apply hb, drawWith_apply hb]
  exact inserts_runRandomWith (fun hn => h (of_decide_eq_true hn)) b hb

lemma inserts_runRandom : Inserts f runRandom runRandom := inserts_drawWith fun _ => inserts_nested

/-- Nested code is built with a random budget, one level deeper. -/
theorem nested_eq : nested = (do deeper (build (← nestedBudget))) := rfl

/-- Where nesting is allowed, the levels that are left are those below the depth. -/
lemma inserts_level {k : ℕ} (hk : f.levels = k + 1) :
    Inserts f (do deeper (buildAt k (← nestedBudget))) nested := by
  refine inserts_nestedBudget.bind fun n b hb => ?_
  have hrun : (levels >>= fun l => deeper (buildAt (l - 1) n)) b = deeper (buildAt k n) b := by
    change deeper (buildAt (b.frame.levels - 1) n) b = _
    rw [hb, hk]
    rfl
  rw [hrun]
  exact inserts_deeper inserts_buildAt b hb

/-- What a build draws on the level that it is started on is what it draws by its depth. -/
lemma inserts_runRandom_of {nesting : Bool} (hn : nesting = decide (f.levels ≠ 0))
    (h : nesting = true → Inserts f nested' nested) :
    Inserts f (runRandomWith nesting nested') runRandom := by
  intro b hb
  have hrun : runRandom b = runRandomWith nesting nested b := by
    rw [hn]
    exact drawWith_apply hb
  rw [hrun]
  exact inserts_runRandomWith h b hb

lemma buildWith_apply {nesting : Bool} : buildWith nesting nested' n b = ((), b.buildLoop
    (runRandomWith nesting nested') b.settings.maxConsecutiveFailures.toNat n 0) := rfl

/-- **A build** draws generators that build nested code in the same way. -/
theorem build_eq : build n b =
    ((), b.buildLoop runRandom b.settings.maxConsecutiveFailures.toNat n 0) := by
  have hrun : build n b = buildAt b.frame.levels n b := rfl
  rw [hrun]
  cases hk : b.frame.levels with
  | zero =>
      have hdraw : Inserts b.frame (runRandomWith false (pure ())) runRandom :=
        inserts_runRandom_of (by rw [hk]; rfl) nofun
      rw [buildAt, buildWith_apply, (inserts_buildLoop hdraw rfl).1]
  | succ k =>
      have hdraw : Inserts b.frame
          (runRandomWith true (do deeper (buildAt k (← nestedBudget)))) runRandom :=
        inserts_runRandom_of (by rw [hk]; rfl) fun _ => inserts_level hk
      rw [buildAt, buildWith_apply, (inserts_buildLoop hdraw rfl).1]

/-! ### Draws at every depth -/

/-- The draw at `b` runs the nested computation at `c`: it matters what is done there. -/
def RunsNestedAt (b c : Builder) : Prop :=
  ∃ other : Build Unit, (∀ d, d ≠ c → other d = nested d) ∧ drawWith other b ≠ runRandom b

/-- **The code in a try block** is nested: a draw that makes one runs the nested computation behind
the opened block. -/
theorem RunsNestedAt.behind_beginTry
    (hrun : ∀ nested, drawWith nested b = runWith nested .tryCatch c) :
    RunsNestedAt b (c.emit .beginTry []).2 := by
  classical
  let opened := (c.emit .beginTry []).2
  -- a computation that leaves the depth too high is noticed in the end
  let other : Build Unit := fun d =>
    if d = opened then ((), { d with recursionDepth := d.recursionDepth + 1 }) else nested d
  refine ⟨other, fun d hd => if_neg hd, fun heq => ?_⟩
  have hopened : other opened = ((), { opened with recursionDepth := c.recursionDepth + 1 }) :=
    if_pos rfl
  let caught := (Builder.emit { opened with recursionDepth := c.recursionDepth + 1 }
    .beginCatch []).2
  have hcaught : other caught = nested caught :=
    if_neg fun h => Nat.succ_ne_self _ (congrArg Builder.recursionDepth h)
  have hother : (drawWith other b).2.recursionDepth = c.recursionDepth + 1 := by
    rw [hrun]
    change (other ((other opened).2.emit .beginCatch []).2).2.recursionDepth = _
    rw [hopened]
    change (other caught).2.recursionDepth = _
    rw [hcaught]
    exact congrArg Frame.depth (inserts_nested caught rfl).2.1
  have hnested : (runRandom b).2.recursionDepth = c.recursionDepth := by
    have hkept : Inserts c.frame (runWith nested .tryCatch) (runWith nested .tryCatch) :=
      inserts_runWith fun _ => inserts_nested
    change (drawWith nested b).2.recursionDepth = _
    rw [hrun]
    exact congrArg Frame.depth (hkept c rfl).2.1
  rw [heq, hnested] at hother
  exact Nat.succ_ne_self _ hother.symm

/-- While about `n` instructions are built from the first builder on, a generator is drawn at the
second one, for the build itself or for one that is nested in it. -/
inductive DrawsAt : ℕ → Builder → Builder → Prop where
  | draw {n : ℕ} {b c : Builder} (loop : c ∈ (b :: b.drawsOf n).dropLast) : DrawsAt n b c
  | nested {n : ℕ} {b c d e : Builder} (loop : c ∈ (b :: b.drawsOf n).dropLast)
      (runs : RunsNestedAt c d)
      (inner : DrawsAt (nestedBudget d).1
        { (nestedBudget d).2 with recursionDepth := d.recursionDepth + 1 } e) : DrawsAt n b e

/-- The draws of a build leave the frame as it was. -/
lemma frame_of_mem_draws {run : Build Bool} {limit remaining failures : ℕ}
    (h : Inserts f run run) (hb : b.frame = f)
    (hc : c ∈ b.draws run limit remaining failures) : c.frame = f := by
  fun_induction Builder.draws run limit remaining failures b with
  | case1 => cases hc
  | case2 remaining failures b hr ran d hd appended hran ih =>
      have hframe := (h b hb).2.1
      rw [hd] at hframe
      rcases List.mem_cons.mp hc with rfl | hc
      · exact hframe
      · exact ih hframe hc
  | case3 remaining failures b hr ran d hd appended hran hl =>
      have hframe := (h b hb).2.1
      rw [hd] at hframe
      rwa [List.mem_singleton.mp hc]
  | case4 remaining failures b hr ran d hd appended hran hl ih =>
      have hframe := (h b hb).2.1
      rw [hd] at hframe
      rcases List.mem_cons.mp hc with rfl | hc
      · exact hframe
      · exact ih hframe hc

/-- **Nested code** is built at builders with the same frame, and only if nesting is allowed. -/
theorem RunsNestedAt.frame_eq (h : RunsNestedAt b c) :
    c.frame = b.frame ∧ b.frame.levels ≠ 0 := by
  obtain ⟨other, hother, hne⟩ := h
  by_contra hc
  -- then what is done at the other builder is not noticed
  have hinserts : Inserts b.frame (drawWith nested) (drawWith other) := by
    refine inserts_drawWith fun hlevels d hd => ?_
    have hdc : d ≠ c := by
      rintro rfl
      exact hc ⟨hd, hlevels⟩
    rw [hother d hdc]
    exact inserts_nested d hd
  exact hne (hinserts b rfl).1.symm

/-- **The depth of draws**: no nested build is started on the last level. -/
theorem DrawsAt.depth_le (h : DrawsAt n b c) : c.toolbox = b.toolbox ∧
    c.recursionDepth ≤ max b.recursionDepth b.settings.maxRecursionDepth.toNat := by
  have hloop {n : ℕ} {b c : Builder} (hc : c ∈ (b :: b.drawsOf n).dropLast) :
      c.frame = b.frame := by
    rcases List.mem_cons.mp (List.mem_of_mem_dropLast hc) with rfl | hc
    · rfl
    · exact frame_of_mem_draws inserts_runRandom rfl hc
  induction h with
  | draw loop =>
      have hframe := hloop loop
      exact ⟨congrArg Frame.toolbox hframe, (congrArg Frame.depth hframe).le.trans (le_max_left ..)⟩
  | @nested n b c d e loop runs inner ih =>
      obtain ⟨hd, hlevels⟩ := runs.frame_eq
      have hdb : d.frame = b.frame := hd.trans (hloop loop)
      rw [hloop loop] at hlevels
      obtain ⟨-, words, hdrawn⟩ := draws_nestedBudget (b := d)
      rw [hdrawn] at ih
      obtain ⟨htoolbox, hdepth⟩ := ih
      have hbox : d.toolbox = b.toolbox := congrArg Frame.toolbox hdb
      refine ⟨htoolbox.trans hbox, hdepth.trans ?_⟩
      -- the nested build starts one level deeper, which is not below the last one
      have hstart : d.recursionDepth = b.recursionDepth := congrArg Frame.depth hdb
      have hsettings : d.settings = b.settings := congrArg (·.settings.builder) hbox
      have hbelow : b.settings.maxRecursionDepth.toNat - b.recursionDepth ≠ 0 := hlevels
      change max (d.recursionDepth + 1) d.settings.maxRecursionDepth.toNat ≤ _
      rw [hstart, hsettings]
      omega

/-! ### The budget -/

/-- **Builds keep to their budgets.**  Whatever generators take part, at whatever weights, and
whatever is drawn, a build ends behind its last draw, and there are at most as many draws in vain
for each instruction of the budget, and once more, as are allowed in a row.  The depth of nesting
is restored, and on the way it goes beyond the configured one only if the build starts there.  The
build ends because it has appended enough or because as many draws as are allowed in a row have
appended nothing. -/
theorem build_within_budget (n : ℕ) (b : Builder) :
    let limit := max 1 b.settings.maxConsecutiveFailures.toNat
    let draws := b.drawsOf n
    let built := (build n b).2
    built = draws.getLastD b ∧
      (b :: draws).IsChain (fun c d => d = (runRandom c).2) ∧
      draws.length ≤ n * limit + limit ∧
      built.recursionDepth = b.recursionDepth ∧
      (∀ c, DrawsAt n b c →
        c.recursionDepth ≤ max b.recursionDepth b.settings.maxRecursionDepth.toNat) ∧
      (b.size + n ≤ built.size ∨ limit ≤ draws.length ∧
        ∀ c ∈ (b :: draws).drop (draws.length - limit), c.instructions = built.instructions) := by
  intro limit draws built
  have hbuilt : built = draws.getLastD b := by
    change (build n b).2 = _
    rw [build_eq]
    exact buildLoop_eq
  have hnone (c : Builder) (hc : (runRandom c).1 = false) :
      (runRandom c).2.instructions = c.instructions := instructions_runRandomWith hc
  refine ⟨hbuilt, isChain_draws, ?_, congrArg Frame.depth (inserts_build b rfl).2.1,
    fun c hc => hc.depth_le.2, ?_⟩
  · exact length_draws_le (Nat.lt_of_lt_of_le Nat.zero_lt_one (le_max_left ..))
  · rw [hbuilt]
    refine (draws_end inserts_runRandom hnone rfl).imp_right fun ⟨hlimit, hall⟩ => ⟨?_, hall⟩
    rwa [Nat.zero_add] at hlimit

end Build

end EngineFuzz
