import Mathlib
import EngineFuzz.Proofs.Generation.Insertions
import EngineFuzz.Proofs.Generation.Validity
import EngineFuzz.Proofs.Mutation.SteeredMutants
import EngineFuzz.Session.Worker

/-!
# What a session counts

However an iteration ends, it is counted as a program or as a failed generation, and each round of
mutation of a program is counted as a success or a failure.  The counts of iterations add up, and so
do those of workers, in any order.

Between two programs the builder of a worker is empty: it has its tools, which are those of the
session, and its random words.  So every iteration has as many rounds of mutation as the settings
ask for, and what has been counted accounts for all iterations.

* `Statistics.Accounts`: counts that account for a number of iterations.
* `Statistics.accounts_ofIteration`: one iteration.
* `Statistics.mergeAll_induction`, `Statistics.mergeAll_perm`: many of them, in any order.
* `Build.EndsFresh`: computations that lead from one time between two programs to another.
* `Worker.endsFresh_iteration`, `Worker.hasRounds_iterations`: one iteration, and many.
* `Session.counters_account`: the main statement.
-/

namespace EngineFuzz

namespace Iteration

/-- A program has undergone so many rounds of mutation. -/
def HasRounds (rounds : Nat) : Iteration → Prop
  | notGenerated _ => True
  | notLifted flags _ | tried flags _ => flags.length = rounds

/-- A program is made into a script, and stored if it is to be kept and the storage takes it. -/
def Completes (stores : Bool) : Iteration → Prop
  | notGenerated _ => True
  | notLifted .. => False
  | tried .. => stores = true

end Iteration

namespace Statistics

variable {a b s : Statistics} {rounds m n : Nat} {storeAll stores : Bool} {result : Iteration}

/-- The counts account for `count` iterations with so many rounds of mutation each. -/
structure Accounts (s : Statistics) (rounds count : Nat) : Prop where
  iterations : s.programs + s.generationFailures = count
  mutations : s.mutations + s.failedMutations = rounds * s.programs
  traps : s.traps ≤ s.exports
  stored : s.stored ≤ s.programs
  executionFailures : s.executionFailures ≤ s.programs

/-- Every program is stored. -/
def StoresAll (s : Statistics) : Prop := s.stored = s.programs

/-! ### One iteration -/

/-- The rounds of mutation of a program are successes and failures. -/
lemma count_rounds (flags : List Bool) :
    (ofRounds flags).mutations + (ofRounds flags).failedMutations = flags.length :=
  List.count_true_add_count_false flags

/-- **One iteration** is accounted for, wherever it ends. -/
theorem accounts_ofIteration (h : result.HasRounds rounds) :
    (ofIteration storeAll stores result).Accounts rounds 1 := by
  cases result with
  | notGenerated e => exact ⟨rfl, rfl, le_rfl, le_rfl, le_rfl⟩
  | notLifted flags e =>
      refine ⟨rfl, ?_, le_rfl, Nat.zero_le _, Nat.zero_le _⟩
      exact (count_rounds flags).trans (h.trans (Nat.mul_one _).symm)
  | tried flags t =>
      exact {
        iterations := rfl
        mutations := (count_rounds flags).trans (h.trans (Nat.mul_one _).symm)
        traps := List.countP_le_length
        stored := Bool.toNat_le _
        executionFailures := Bool.toNat_le _ }

/-- What is kept whatever happens is stored if the storage takes it. -/
lemma storesAll_ofIteration (h : result.Completes stores) :
    (ofIteration true stores result).StoresAll := by
  cases result with
  | notGenerated e => rfl
  | notLifted flags e => exact h.elim
  | tried flags t =>
      obtain rfl : stores = true := h
      have hreason : (t.reason? true).isSome = true := by
        unfold Trial.reason?
        split_ifs with _ _ hall
        all_goals first | rfl | exact absurd rfl hall
      change ((t.reason? true).isSome && true).toNat = 1
      rw [hreason]
      rfl

/-! ### Many iterations -/

/-- The counts of two sets of iterations account for both together. -/
theorem Accounts.merge (ha : a.Accounts rounds m) (hb : b.Accounts rounds n) :
    (a.merge b).Accounts rounds (m + n) where
  iterations := by
    have h₁ := ha.iterations
    have h₂ := hb.iterations
    simp only [Statistics.merge]
    omega
  mutations := by
    have h₁ := ha.mutations
    have h₂ := hb.mutations
    simp only [Statistics.merge, Nat.mul_add]
    omega
  traps := Nat.add_le_add ha.traps hb.traps
  stored := Nat.add_le_add ha.stored hb.stored
  executionFailures := Nat.add_le_add ha.executionFailures hb.executionFailures

lemma accounts_zero : ({} : Statistics).Accounts rounds 0 := ⟨rfl, rfl, le_rfl, le_rfl, le_rfl⟩

lemma StoresAll.merge (ha : a.StoresAll) (hb : b.StoresAll) : (a.merge b).StoresAll :=
  congrArg₂ (· + ·) ha hb

/-- Counts are put together by adding the counters, which may wrap around. -/
lemma words_merge :
    (a.merge b).words = List.zipWith (fun c d => (c.1, c.2 + d.2)) a.words b.words := by
  simp [words, Statistics.merge]

lemma merge_right_comm (a b c : Statistics) : (a.merge b).merge c = (a.merge c).merge b := by
  simp only [Statistics.merge, Nat.add_right_comm]

/-- **The order does not matter.** -/
theorem mergeAll_perm {all all' : List Statistics} (h : all.Perm all') :
    mergeAll all = mergeAll all' :=
  h.foldl_eq' (fun _ _ _ _ _ => merge_right_comm ..) _

/-- **What holds of parts and adds up holds of all together.** -/
theorem mergeAll_induction {α : Type} {P : Statistics → Nat → Prop} (size : α → Nat)
    (hzero : P {} 0) (hmerge : ∀ {a b m n}, P a m → P b n → P (a.merge b) (m + n))
    {counts : α → Statistics} {parts : List α} (h : ∀ x ∈ parts, P (counts x) (size x)) :
    P (mergeAll (parts.map counts)) (parts.map size).sum := by
  -- the counts of a first part of the list are at hand
  have hfold : ∀ {a n}, P a n →
      P ((parts.map counts).foldl merge a) (n + (parts.map size).sum) := by
    induction parts with
    | nil => exact fun ha => ha
    | cons x parts ih =>
        intro a n ha
        obtain ⟨hx, hparts⟩ := List.forall_mem_cons.mp h
        rw [List.map_cons, List.foldl_cons, List.map_cons, List.sum_cons, ← Nat.add_assoc]
        exact ih hparts (hmerge ha hx)
  have hall := hfold hzero
  rwa [Nat.zero_add] at hall

variable {α : Type} {counts : α → Statistics} {parts : List α}

/-- Counts that account for some iterations each account for all of them together. -/
lemma accounts_mergeAll (size : α → Nat)
    (h : ∀ x ∈ parts, (counts x).Accounts rounds (size x)) :
    (mergeAll (parts.map counts)).Accounts rounds (parts.map size).sum :=
  mergeAll_induction (P := fun s n => s.Accounts rounds n) size accounts_zero Accounts.merge h

lemma storesAll_mergeAll (h : ∀ x ∈ parts, (counts x).StoresAll) :
    (mergeAll (parts.map counts)).StoresAll :=
  mergeAll_induction (P := fun s _ => s.StoresAll) (fun _ => 0) rfl StoresAll.merge h

end Statistics

/-! ### What workers count -/

/-- What a worker has done with so many rounds of mutation: its iterations, each with whether the
storage takes a case of it. -/
structure WorkerLog (rounds : Nat) where
  results : List (Iteration × Bool)
  hasRounds : ∀ r ∈ results, r.1.HasRounds rounds

namespace WorkerLog

variable {rounds : Nat} {storeAll : Bool}

/-- How many iterations there were. -/
def size (log : WorkerLog rounds) : Nat := log.results.length

/-- What has been counted. -/
def statistics (storeAll : Bool) (log : WorkerLog rounds) : Statistics :=
  .mergeAll (log.results.map fun (result, stores) => .ofIteration storeAll stores result)

/-- Neither lifting nor storing has failed. -/
def Completes (log : WorkerLog rounds) : Prop := ∀ r ∈ log.results, r.1.Completes r.2

/-- **The counts of a worker** account for its iterations. -/
theorem accounts (log : WorkerLog rounds) :
    (log.statistics storeAll).Accounts rounds log.size := by
  have hall : (log.statistics storeAll).Accounts rounds (log.results.map fun _ => 1).sum :=
    Statistics.accounts_mergeAll (fun _ => 1) fun r hr =>
      Statistics.accounts_ofIteration (log.hasRounds r hr)
  rwa [List.map_const', List.sum_replicate, smul_eq_mul, Nat.mul_one] at hall

/-- A worker that keeps everything has stored every program if nothing has failed. -/
lemma storesAll {log : WorkerLog rounds} (h : log.Completes) :
    (log.statistics true).StoresAll :=
  Statistics.storesAll_mergeAll fun r hr => Statistics.storesAll_ofIteration (h r hr)

variable {logs : List (WorkerLog rounds)} {all : List Statistics}

/-- **The counts of a session** account for the iterations of all workers, in whatever order they
are put together. -/
theorem accounts_mergeAll (h : all.Perm (logs.map (·.statistics storeAll))) :
    (Statistics.mergeAll all).Accounts rounds (logs.map (·.size)).sum := by
  rw [Statistics.mergeAll_perm h]
  exact Statistics.accounts_mergeAll _ fun log _ => log.accounts

lemma storesAll_mergeAll (h : all.Perm (logs.map (·.statistics true)))
    (hc : ∀ log ∈ logs, log.Completes) : (Statistics.mergeAll all).StoresAll := by
  rw [Statistics.mergeAll_perm h]
  exact Statistics.storesAll_mergeAll fun log hlog => storesAll (hc log hlog)

end WorkerLog

/-! ### Builders between two programs -/

/-- The builder holds no program, and has these tools. -/
def Builder.IsFresh (toolbox : Toolbox) (b : Builder) : Prop := ∃ words, b = start toolbox words

/-- All operand counts agree with the operations. -/
def Program.IsCounted (p : Program) : Prop := ∀ i ∈ p.instructions, i.hasConsistentArity = true

namespace Builder

variable {toolbox : Toolbox} {b : Builder} {p : Program}

/-- A build leaves the tools as they are. -/
lemma toolbox_build {n : ℕ} : (Build.build n b).2.toolbox = b.toolbox :=
  congrArg Frame.toolbox (Build.inserts_build (f := b.frame) b rfl).2.1

/-- When a program is finished, the builder is empty. -/
lemma isFresh_finalize (h : b.toolbox = toolbox) : b.finalize.2.IsFresh toolbox :=
  ⟨b.words, by rw [← h]; rfl⟩

lemma isCounted_of_finalize (h : b.finalize.1 = .ok p) : p.IsCounted := by
  obtain ⟨-, hvalid⟩ := of_finalize_eq_ok h
  obtain ⟨s, hsteps, -⟩ := Program.validate_eq_ok_iff.mp hvalid
  exact hsteps.hasConsistentArity

end Builder

/-- **Templates leave the tools as they are.** -/
theorem Template.toolbox_code {toolbox : Toolbox} (he : toolbox.environment.IsScriptTyped)
    (t : Template) (words : WordSource) :
    (t.code (.start toolbox words)).2.toolbox = toolbox := by
  -- programs that a template gave up on do not count
  let _ : Regard := ⟨False, True⟩
  have happends := Template.appends_code (b := Builder.start toolbox words) (Γ := [])
    (p := ⟨.script, none⟩) (t := t) rfl fun _ => .inl trivial
  obtain ⟨hext, -, -⟩ := happends (fun _ => Builder.settled_start he) fun _ => Builder.knows_start
  exact hext.toolbox

namespace Build

open Builder

variable {α β : Type} {toolbox : Toolbox} {m : Build α} {k : α → Build β} {P : α → Prop}
  {Q : β → Prop}

/-- Started between two programs, the computation ends between two programs, with a result that
satisfies a condition. -/
def EndsFresh (toolbox : Toolbox) (m : Build α) (P : α → Prop) : Prop :=
  ∀ words, (m (start toolbox words)).2.IsFresh toolbox ∧ P (m (start toolbox words)).1

namespace EndsFresh

lemma pure {a : α} (h : P a) : EndsFresh toolbox (Pure.pure a) P := fun words => ⟨⟨words, rfl⟩, h⟩

/-- **One computation after another.** -/
theorem bind (hm : EndsFresh toolbox m P) (hk : ∀ a, P a → EndsFresh toolbox (k a) Q) :
    EndsFresh toolbox (m >>= k) Q := by
  intro words
  obtain ⟨⟨words', hfresh⟩, hresult⟩ := hm words
  rw [bind_apply, hfresh]
  exact hk _ hresult words'

lemma draw {d : Draw α} : EndsFresh toolbox (liftM d : Build α) fun _ => True :=
  fun words => ⟨⟨(d words).2, rfl⟩, trivial⟩

lemma look {g : Builder → α} :
    EndsFresh toolbox (look g) fun a => ∃ words, a = g (start toolbox words) :=
  fun words => ⟨⟨words, rfl⟩, words, rfl⟩

end EndsFresh

end Build

open Build Builder

variable {toolbox : Toolbox} {p : Program}

/-- Whether what has been made, if it has, is a program with operands as its operations ask for. -/
def MadeCounted {ε : Type} (result : Except ε Program) : Prop :=
  ∀ p, result = .ok p → p.IsCounted

/-! ### Generation -/

namespace Worker

/-- The code of a template is filled up and finished. -/
lemma fromTemplate_eq {budget : ℕ} {t : Template} {b : Builder} : fromTemplate budget t b =
    (if (t.code b).2.size < budget then (build (budget - (t.code b).2.size) (t.code b).2).2
      else (t.code b).2).finalize := by
  change (if (t.code b).2.size < budget then
      build (budget - (t.code b).2.size) >>= fun _ b => b.finalize
    else fun b => b.finalize) (t.code b).2 = _
  split <;> rfl

lemma endsFresh_fromTemplate (he : toolbox.environment.IsScriptTyped) (budget : ℕ) (t : Template) :
    EndsFresh toolbox (fromTemplate budget t) MadeCounted := by
  intro words
  have ht := t.toolbox_code he words
  rw [fromTemplate_eq]
  refine ⟨isFresh_finalize ?_, fun p => isCounted_of_finalize⟩
  split
  · rw [toolbox_build, ht]
  · exact ht

/-- **A generated program** has operands as its operations ask for. -/
theorem endsFresh_generate (he : toolbox.environment.IsScriptTyped) (settings : SessionSettings)
    (attempts : ℕ) : EndsFresh toolbox (generate settings attempts) fun result =>
      ∀ t p, result = .ok (t, p) → p.IsCounted := by
  induction attempts with
  | zero => exact .pure nofun
  | succ attempts ih =>
      refine EndsFresh.look.bind fun templates _ => EndsFresh.draw.bind fun drawn _ => ?_
      cases drawn with
      | none => exact .pure nofun
      | some t =>
          refine (endsFresh_fromTemplate he settings.instructions.toNat t).bind fun result hp => ?_
          cases result with
          | error e => exact ih
          | ok p =>
              dsimp only
              split
              · refine .pure fun t' p' h => ?_
                obtain ⟨-, rfl⟩ := Prod.mk.inj (Except.ok.inj h)
                exact hp p rfl
              · exact ih

end Worker

/-! ### Mutation -/

namespace Mutation

lemma endsFresh_rebuild (he : toolbox.environment.IsScriptTyped) (hp : p.IsCounted)
    (m : MutatorKind) (budget : ℕ) (chosen frozen : List Bool) :
    EndsFresh toolbox (rebuild (m.change budget) (treatments p.instructions chosen frozen))
      MadeCounted := by
  intro words
  let _ : Regard := ⟨True, False⟩
  have hmap : (treatments p.instructions chosen frozen).map (·.instruction) = p.instructions :=
    map_instruction_treatments
  have hcounted : ∀ t ∈ treatments p.instructions chosen frozen,
      t.instruction.hasConsistentArity = true :=
    fun t ht => hp _ (hmap ▸ List.mem_map_of_mem ht)
  have hreaches := reaches_treatments trivial m budget
    (b := { Builder.start toolbox words with newNames := ∅ }) (fun _ => settled_start he) hcounted
  exact ⟨isFresh_finalize hreaches.toolbox, fun mutant => isCounted_of_finalize⟩

lemma endsFresh_attempt (he : toolbox.environment.IsScriptTyped) (hp : p.IsCounted)
    (m : MutatorKind) (settings : MutationSettings) (frozen : List Bool) :
    EndsFresh toolbox (attempt m settings p frozen) fun result =>
      ∀ r ∈ result, MadeCounted r := by
  unfold attempt
  dsimp only
  split
  · exact .pure fun r hr => nomatch hr
  · refine EndsFresh.draw.bind fun count _ => EndsFresh.draw.bind fun sample _ => ?_
    refine (endsFresh_rebuild he hp m _ _ _).bind fun result hresult => .pure fun r hr => ?_
    obtain rfl := Option.some.inj hr
    exact hresult

lemma endsFresh_attempts (he : toolbox.environment.IsScriptTyped) (hp : p.IsCounted)
    (settings : MutationSettings) (frozen : List Bool) (n : ℕ) :
    EndsFresh toolbox (attempts settings p frozen n) MadeCounted := by
  induction n with
  | zero => exact .pure nofun
  | succ n ih =>
      refine EndsFresh.look.bind fun mutators _ => EndsFresh.draw.bind fun drawn _ => ?_
      cases drawn with
      | none => exact .pure nofun
      | some index =>
          dsimp only
          cases mutators.get? index with
          | none => exact ih
          | some m =>
              refine (endsFresh_attempt he hp m settings frozen).bind fun result hr => ?_
              rcases result with _ | _ | mutant
              · exact ih
              · exact ih
              · exact .pure fun p' h => hr _ rfl p' (congrArg _ (Except.ok.inj h))

/-- **A mutant** has operands as its operations ask for. -/
theorem endsFresh_mutate (he : toolbox.environment.IsScriptTyped) (hp : p.IsCounted) :
    EndsFresh toolbox (mutate p) MadeCounted :=
  EndsFresh.look.bind fun settings _ => endsFresh_attempts he hp settings _ _

end Mutation

/-! ### Iterations -/

namespace Worker

/-- **Rounds of mutation** each succeed or fail. -/
theorem endsFresh_mutate (he : toolbox.environment.IsScriptTyped) (rounds : ℕ)
    (hp : p.IsCounted) : EndsFresh toolbox (mutate p rounds) fun result =>
      result.2.length = rounds := by
  induction rounds generalizing p with
  | zero => exact .pure rfl
  | succ rounds ih =>
      refine (Mutation.endsFresh_mutate he hp).bind fun result hresult => ?_
      refine (ih ?_).bind fun mutated hlength => .pure (congrArg (· + 1) hlength)
      -- the program goes on if there is no mutant with a module
      cases result with
      | error e => exact hp
      | ok mutant =>
          change ((Option.some mutant).filter (·.containsWasm)).getD p |>.IsCounted
          rw [Option.filter_some]
          split
          · exact hresult mutant rfl
          · exact hp

/-- **One iteration** has the rounds of mutation that the settings ask for. -/
theorem endsFresh_iteration (he : toolbox.environment.IsScriptTyped) :
    EndsFresh toolbox iteration fun result =>
      result.HasRounds toolbox.settings.session.mutationRounds.toNat := by
  refine EndsFresh.look.bind fun tools ⟨_, htools⟩ => ?_
  obtain rfl : tools = toolbox := htools
  refine (endsFresh_generate he _ _).bind fun generated hg => ?_
  cases generated with
  | error e => exact .pure trivial
  | ok generated =>
      obtain ⟨template, p⟩ := generated
      refine (endsFresh_mutate he _ (hg template p rfl)).bind fun mutated hlength => ?_
      dsimp only
      split
      · exact .pure hlength
      · exact .pure hlength

/-- So many iterations, all with the rounds of mutation that the settings ask for. -/
theorem hasRounds_iterations {w : Worker} (he : toolbox.environment.IsScriptTyped)
    (hw : w.builder.IsFresh toolbox) (count : ℕ) : (w.iterations count).length = count ∧
      ∀ r ∈ w.iterations count, r.HasRounds toolbox.settings.session.mutationRounds.toNat := by
  induction count generalizing w with
  | zero => exact ⟨rfl, fun r hr => nomatch hr⟩
  | succ count ih =>
      obtain ⟨words, hwords⟩ := hw
      obtain ⟨hfresh, hrounds⟩ := endsFresh_iteration he words
      rw [← hwords] at hfresh hrounds
      obtain ⟨hlength, hall⟩ := ih (w := ⟨w.number, (iteration w.builder).2⟩) hfresh
      have hrun : w.iterations (count + 1) = (iteration w.builder).1 ::
          iterations ⟨w.number, (iteration w.builder).2⟩ count := by
        rw [iterations]
        rfl
      rw [hrun]
      exact ⟨congrArg (· + 1) hlength, List.forall_mem_cons.mpr ⟨hrounds, hall⟩⟩

end Worker

/-! ### Sessions -/

namespace Session

/-- The workers of a session have the tools of its settings, and no program. -/
lemma exists_toolbox {settings : Settings} {workers : List Worker}
    (h : Session.start settings = .ok workers) : ∃ toolbox : Toolbox,
      toolbox.environment = .script ∧ toolbox.settings = settings ∧
        ∀ w ∈ workers, w.builder.IsFresh toolbox := by
  obtain ⟨toolbox, htoolbox, h⟩ := bind_eq_ok_iff.mp h
  have hmade : Toolbox.ofSettings settings .script = .ok toolbox := by
    cases hm : Toolbox.ofSettings settings .script with
    | error e =>
        rw [hm] at htoolbox
        exact nomatch htoolbox
    | ok made =>
        rw [hm] at htoolbox
        exact congrArg _ (Except.ok.inj htoolbox)
  obtain ⟨generators, -, hmade⟩ := bind_eq_ok_iff.mp hmade
  obtain ⟨templates, -, hmade⟩ := bind_eq_ok_iff.mp hmade
  obtain ⟨mutators, -, hmade⟩ := bind_eq_ok_iff.mp hmade
  have htools := pure_eq_ok_iff.mp hmade
  refine ⟨toolbox, by rw [← htools], by rw [← htools], fun w hw => ?_⟩
  dsimp only at h
  split at h
  · exact nomatch h
  · rw [← pure_eq_ok_iff.mp h] at hw
    obtain ⟨n, -, rfl⟩ := List.mem_map.mp hw
    exact ⟨_, rfl⟩

/-- **Counters account for every iteration.**  Whatever the iterations of a worker come to, its
counts account for all of them, and it has stored every program if all programs are kept and neither
lifting nor storing fails.  The same holds of the counts of several workers, in whatever order they
are put together.  What the workers of a session do is such: a worker has as many results as
iterations, and their rounds of mutation are those of the settings. -/
theorem counters_account :
    (∀ (storeAll : Bool) (rounds : ℕ) (log : WorkerLog rounds),
      (log.statistics storeAll).Accounts rounds log.size ∧
        (storeAll = true → log.Completes → (log.statistics storeAll).StoresAll)) ∧
    (∀ (storeAll : Bool) (rounds : ℕ) (logs : List (WorkerLog rounds)) (all : List Statistics),
      all.Perm (logs.map (·.statistics storeAll)) →
        (Statistics.mergeAll all).Accounts rounds (logs.map (·.size)).sum ∧
          (storeAll = true → (∀ log ∈ logs, log.Completes) →
            (Statistics.mergeAll all).StoresAll)) ∧
    ∀ (settings : Settings) (workers : List Worker), Session.start settings = .ok workers →
      ∀ w ∈ workers, ∀ (count : ℕ) (stores : ℕ → Bool),
        ∃ log : WorkerLog settings.session.mutationRounds.toNat,
          log.results = (w.iterations count).zipIdx.map (fun r => (r.1, stores r.2)) ∧
            log.size = count := by
  refine ⟨fun storeAll rounds log => ⟨log.accounts, ?_⟩,
    fun storeAll rounds logs all hall => ⟨WorkerLog.accounts_mergeAll hall, ?_⟩,
    fun settings workers hstart w hw count stores => ?_⟩
  · rintro rfl
    exact WorkerLog.storesAll
  · rintro rfl
    exact WorkerLog.storesAll_mergeAll hall
  · obtain ⟨toolbox, he, rfl, hfresh⟩ := exists_toolbox hstart
    obtain ⟨hlength, hrounds⟩ := Worker.hasRounds_iterations
      (he ▸ Environment.isScriptTyped_script) (hfresh w hw) count
    refine ⟨⟨_, fun r hr => ?_⟩, rfl, ?_⟩
    · obtain ⟨x, hx, rfl⟩ := List.mem_map.mp hr
      exact hrounds _ (List.fst_mem_of_mem_zipIdx hx)
    · rw [WorkerLog.size, List.length_map, List.length_zipIdx, hlength]

/-- By default there is one worker, and the programs undergo five rounds of mutation. -/
theorem counters_account_default : ∃ workers, Session.start {} = .ok workers ∧
    workers.length = 1 ∧ ∀ w ∈ workers, ∀ (count : ℕ) (stores : ℕ → Bool), ∃ log : WorkerLog 5,
      log.results = (w.iterations count).zipIdx.map (fun r => (r.1, stores r.2)) ∧
        (log.statistics false).Accounts 5 count := by
  obtain ⟨hworker, -, hsession⟩ := counters_account
  refine ⟨_, rfl, rfl, fun w hw count stores => ?_⟩
  obtain ⟨log, hresults, hsize⟩ := hsession {} _ rfl w hw count stores
  exact ⟨log, hresults, hsize ▸ (hworker false 5 log).1⟩

end Session

end EngineFuzz
