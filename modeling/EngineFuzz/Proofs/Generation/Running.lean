import Mathlib
import EngineFuzz.Proofs.Generation.WasmUse

/-!
# Builds append well-formed code

A generator that is drawn may stand where it is drawn, and finds what it reads.  So every build
appends well-formed code, however deep it is nested and whatever is drawn.

* `Generator.appends_code`: each generator appends well-formed code where its context is provided.
* `Builder.isEligible_of_chosen`: a drawn generator may stand at the end of the program.
* `Build.nests_buildAt`: every build appends well-formed code at every place.
-/

namespace EngineFuzz

/-! ### What a generator appends -/

/-- The variable is what a generator reads. -/
def InputContract.Provides (Γ : Known) (v : Variable) : InputContract → Prop
  | none => True
  | one | preferred _ => v ∈ Γ.vars
  | required accepts => ∃ t, (v, t) ∈ Γ ∧ accepts t = true

lemma InputContract.Provides.mono {Γ Δ : Known} {v : Variable} {c : InputContract}
    (h : c.Provides Δ v) (hΔ : Δ ⊆ Γ) : c.Provides Γ v := by
  cases c with
  | none => exact trivial
  | one | preferred _ => exact List.map_subset _ hΔ h
  | required _ => exact h.imp fun t ht => ht.imp_left fun hv => hΔ hv

lemma InputContract.Provides.mem_vars {Γ : Known} {v : Variable} {accepts : StaticType → Bool}
    (h : (required accepts).Provides Γ v) : v ∈ Γ.vars := by
  obtain ⟨t, hv, -⟩ := h
  exact Known.mem_vars_iff.mpr ⟨t, hv⟩

namespace Generator

open Build Generate

variable [Regard]

/-- **Each generator** appends well-formed code where its context is provided and it is given what
it reads. -/
theorem appends_code {p : Place} {Γ : Known} {nested : Build Unit} {v : Variable} {g : Generator}
    (hn : Nests nested) (hc : p.context.contains g.info.context = true)
    (hv : g.info.inputs.Provides Γ v) : Appends p Γ (g.code nested v) fun _ Δ => Δ = [] := by
  cases g with
  | integer => exact appends_integerValue hc
  | bigInt => exact appends_bigIntValue hc
  | float => exact appends_floatValue hc
  | string => exact appends_stringValue hc
  | boolean => exact appends_booleanValue hc
  | undefined => exact appends_undefinedValue hc
  | null => exact appends_nullValue hc
  | regExp => exact appends_regExpValue hc
  | builtin => exact appends_builtinValue hc
  | objectLiteral => exact appends_objectLiteral hc
  | array => exact appends_arrayValue hc
  | integerArray => exact appends_integerArray hc
  | floatArray => exact appends_floatArray hc
  | typedArray => exact appends_typedArray hc
  | trivialFunction => exact appends_trivialFunction hc
  | propertyRetrieval => exact appends_propertyRetrieval hc hv
  | propertyAssignment => exact appends_propertyAssignment hc hv
  | propertyRemoval => exact appends_propertyRemoval hc hv
  | elementRetrieval => exact appends_elementRetrieval hc hv
  | elementAssignment => exact appends_elementAssignment hc hv
  | computedPropertyRetrieval => exact appends_computedRetrieval hc hv
  | computedPropertyAssignment => exact appends_computedAssignment hc hv
  | methodCall => exact appends_methodCall hc hv
  | functionCall => exact appends_functionCall hc hv.mem_vars
  | constructorCall => exact appends_constructorCall hc hv.mem_vars
  | apiMethodCall => exact appends_apiMethodCall hc
  | binaryOperation => exact appends_binaryOperation hc hv
  | unaryOperation => exact appends_unaryOperation hc hv
  | comparison => exact appends_comparison hc hv
  | numberComputation => exact appends_numberComputation hc
  | reassignment => exact appends_reassignment hc hv
  | plainFunction => exact appends_plainFunction hc hn
  | ifElse => exact appends_ifElse hc hn hv
  | repeatLoop => exact appends_repeatLoop hc hn
  | tryCatch => exact appends_tryCatch hc hn
  | returnValue =>
      exact appends_returnValue (Context.contains_trans hc rfl) (Context.contains_trans hc rfl)
  | loopBreak => exact appends_loopBreak hc
  | loopContinue => exact appends_loopContinue hc
  | throwValue => exact appends_throwValue hc hv
  | wasmModule => exact appends_wasmModule hc hn
  | wasmInstantiate => exact appends_wasmInstantiate hc hv.mem_vars
  | wasmExportCall => exact appends_callRandomExport hc hv.mem_vars
  | wasmMemoryOperations => exact appends_wasmMemoryOperations hc hv.mem_vars
  | wasmGlobal => exact appends_wasmGlobal hc hv
  | wasmMemory => exact appends_wasmMemory hc hv
  | wasmTable => exact appends_wasmTable hc
  | wasmMemoryBoundary => exact appends_wasmMemoryBoundary hc
  | wasmConcurrentAccess => exact appends_wasmConcurrentAccess hc
  | wasmMemoryAccess => exact appends_wasmMemoryAccess hc
  | wasmSimd => exact appends_wasmSimd hc
  | wasmRandomBytes => exact appends_wasmRandomBytes hc
  | wasmDefineGlobal => exact appends_wasmDefineGlobal hc
  | wasmImportGlobal =>
      obtain ⟨t, hv, ht⟩ := hv
      exact appends_wasmImportGlobal hc hv ht
  | wasmDefineTable => exact appends_wasmDefineTable hc
  | wasmImportTable =>
      obtain ⟨t, hv, ht⟩ := hv
      exact appends_wasmImportTable hc hv ht
  | wasmDefineMemory => exact appends_wasmDefineMemory hc
  | wasmImportMemory =>
      obtain ⟨t, hv, ht⟩ := hv
      exact appends_wasmImportMemory hc hv ht
  | wasmImportFunction =>
      obtain ⟨t, hv, ht⟩ := hv
      exact appends_wasmImportFunction hc hv ht
  | wasmFunction => exact appends_wasmFunctionDefinition hc hn
  | wasmConst => exact Generate.appends_wasmConst hc
  | wasmIntBinary => exact appends_wasmIntBinary hc
  | wasmIntUnary => exact appends_wasmIntUnary hc
  | wasmIntEqz => exact appends_wasmIntEqz hc
  | wasmIntCompare => exact appends_wasmIntCompare hc
  | wasmFloatBinary => exact appends_wasmFloatBinary hc
  | wasmFloatUnary => exact appends_wasmFloatUnary hc
  | wasmFloatCompare => exact appends_wasmFloatCompare hc
  | wasmGlobalLoad =>
      obtain ⟨t, hv, ht⟩ := hv
      exact appends_wasmGlobalLoad hc hv ht
  | wasmGlobalStore =>
      obtain ⟨t, hv, ht⟩ := hv
      exact appends_wasmGlobalStore hc hv ht
  | wasmTableGet => exact appends_wasmTableGet hc hv.mem_vars
  | wasmTableSet => exact appends_wasmTableSet hc hv.mem_vars
  | wasmMemoryLoad =>
      obtain ⟨t, hv, ht⟩ := hv
      exact appends_wasmMemoryLoad hc hv ht
  | wasmMemoryStore =>
      obtain ⟨t, hv, ht⟩ := hv
      exact appends_wasmMemoryStore hc hv ht
  | wasmCall => exact appends_wasmFunctionCall hc hv.mem_vars
  | wasmReassign =>
      obtain ⟨t, hv, ht⟩ := hv
      exact appends_wasmReassign hc hv ht
  | wasmBlock => exact appends_wasmBlockCode hc hn
  | wasmLoop => exact appends_wasmLoopCode hc hn
  | wasmIf => exact appends_wasmIfCode hc hn
  | wasmBranch =>
      obtain ⟨t, hv, ht⟩ := hv
      exact appends_wasmBranch hc hv ht
  | wasmBranchIf =>
      obtain ⟨t, hv, ht⟩ := hv
      exact appends_wasmBranchIf hc hv ht
  | wasmReturn => exact appends_wasmReturn hc
  | wasmUnreachable => exact appends_wasmUnreachable hc
  | primitiveValue => exact appends_primitiveValue hc
  | mapObject => exact appends_mapObject hc
  | objectMaker => exact appends_objectMaker hc
  | mapPropertyStore => exact appends_mapPropertyStore hc hv.mem_vars
  | mapPropertyLoad => exact appends_mapPropertyLoad hc hv.mem_vars
  | functionDefinition => exact appends_functionDefinition hc hn
  | singleCall => exact appends_callOnce hc hv.mem_vars
  | repeatedCall => exact appends_repeatedCall hc hv.mem_vars

end Generator

/-! ### What is drawn -/

namespace WeightedList

variable {α : Type} {l : WeightedList α} {accept : ℕ → α → Bool} {index : ℕ} {words : WordSource}

/-- A drawn position is that of a member that passes the test. -/
lemma chooseIndexWhere_eq_some (h : (l.chooseIndexWhere accept words).1 = some index) :
    ∃ a, l.get? index = some a ∧ accept index a = true := by
  change ((Draw.position? _ words).1.bind fun p => (l.eligible accept)[p]?.map (·.1)) =
    some index at h
  obtain ⟨p, -, hp⟩ := Option.bind_eq_some_iff.mp h
  obtain ⟨⟨i, w⟩, hi, rfl⟩ := Option.map_eq_some_iff.mp hp
  obtain ⟨⟨j, a, u⟩, hmem, hj⟩ := List.mem_filterMap.mp (List.mem_of_getElem? hi)
  obtain ⟨k, hk, heq⟩ := List.mem_mapIdx.mp hmem
  obtain ⟨rfl, rfl, rfl⟩ : k = j ∧ l.items[k].1 = a ∧ l.items[k].2 = u := by
    simpa [Prod.ext_iff] using heq
  obtain ⟨hacc, rfl⟩ : accept k l.items[k].1 = true ∧ k = i := by
    simp only [Option.ite_none_right_eq_some, Bool.and_eq_true, Option.some.injEq,
      Prod.mk.injEq] at hj
    exact ⟨hj.1.2, hj.2.1⟩
  exact ⟨l.items[k].1, by simp [get?, hk], hacc⟩

end WeightedList

namespace Builder

variable {b b' : Builder} {nesting : Bool} {index : ℕ} {g : Generator}

/-- A generator that is drawn is eligible. -/
lemma isEligible_of_chosen (hg : b.generators.get? index = some g)
    (he : (b.eligibility nesting).getD index false = true) :
    b.isEligible nesting b.visibleTypes g = true := by
  obtain ⟨m, hm, rfl⟩ := Option.map_eq_some_iff.mp hg
  rw [eligibility, Array.getD_eq_getD_getElem?, List.getElem?_toArray, List.getElem?_map, hm] at he
  exact he

/-- A generator that is drawn may stand at the end of the program. -/
lemma context_of_eligible (hg : b.generators.get? index = some g)
    (he : (b.eligibility nesting).getD index false = true) :
    b.scopes.context.contains g.info.context = true :=
  (Bool.and_eq_true_iff.mp (Bool.and_eq_true_iff.mp (isEligible_of_chosen hg he)).1).1

end Builder

namespace InputContract

open Build

variable [Regard] {p : Place} {Γ : Known} {c : InputContract}

/-- What is drawn for a generator is what it reads. -/
lemma appends_bind : Appends p Γ c.bind fun v? Δ => ∀ v ∈ v?, c.Provides Δ v := by
  cases c with
  | none => exact .pure (Δ := []) (fun _ _ => trivial) (List.nil_subset _)
  | one =>
      rw [← bind_pure (bind _)]
      refine Appends.randomVariable (.pure (Δ := []) nofun (List.nil_subset _)) fun v t ht => ?_
      exact .pure (Δ := [(v, t)]) (by simp [Provides]) (by simp)
  | required accepts =>
      rw [← bind_pure (bind _)]
      refine Appends.randomVariable (.pure (Δ := []) nofun (List.nil_subset _)) fun v t ht => ?_
      exact .pure (Δ := [(v, t)]) (by simp [Provides, ht]) (by simp)
  | preferred accepts =>
      have hother : Appends p Γ (randomVariable StaticType.isScriptValue) fun v? Δ =>
          ∀ v ∈ v?, (preferred accepts).Provides Δ v := by
        rw [← bind_pure (randomVariable _)]
        refine Appends.randomVariable (.pure (Δ := []) nofun (List.nil_subset _)) fun v t ht => ?_
        exact .pure (Δ := [(v, t)]) (by simp [Provides]) (by simp)
      refine Appends.randomVariable hother fun v t ht => ?_
      exact .pure (Δ := [(v, t)]) (by simp [Provides]) (by simp)

end InputContract

namespace Build

variable [Regard] {α : Type} {p : Place} {Γ : Known} {m : Build α} {b : Builder}
  {nested : Build Unit} {g : Generator} {nesting : Bool} {n : ℕ}

/-- What a computation appends at the end of a program does not depend on what else is known. -/
lemma AppendsAt.here
    (h : AppendsAt b ⟨b.scopes.context, b.scopes.currentFunction?⟩ [] m fun _ _ => True) :
    AppendsAt b p Γ m fun _ Δ => Δ = [] := by
  intro hs hk
  obtain ⟨he, hg, -⟩ := h hs fun hb => ⟨⟨Context.contains_self, rfl, nofun⟩, nofun⟩
  exact ⟨he, hg, [], rfl, fun hb => ((hk (he.regarded hb)).mono hs he hb).toSees.nil⟩

lemma appends_runWith (hn : Nests nested) (hc : p.context.contains g.info.context = true) :
    Appends p Γ (runWith nested g) fun _ _ => True := by
  refine InputContract.appends_bind.bind fun v? Δ hv => ?_
  cases v? with
  | none => exact .pure (Δ := []) trivial (List.nil_subset _)
  | some v =>
      refine (Generator.appends_code hn hc ?_).bind fun _ Δ' _ => .pure trivial (List.nil_subset _)
      exact (hv v rfl).mono (List.subset_append_left ..)

/-- **A generator that is drawn** appends well-formed code. -/
theorem nests_runRandomWith (hn : Nests nested) : Nests (runRandomWith nesting nested) := by
  refine fun p Γ b => AppendsAt.here (AppendsAt.look (AppendsAt.look ?_))
  refine .draws (P := fun index? => ∀ index ∈ index?, ∃ g, b.generators.get? index = some g ∧
    (b.eligibility nesting).getD index false = true)
    (Draws.draw fun words index hi => WeightedList.chooseIndexWhere_eq_some hi)
      fun index? words hi => ?_
  cases index? with
  | none => exact .pure (Δ := []) trivial (List.nil_subset _)
  | some index =>
      obtain ⟨g, hg, he⟩ := hi index rfl
      dsimp only
      rw [hg]
      exact appends_runWith hn (Builder.context_of_eligible hg he) _

end Build

/-! ### Builds -/

namespace Builder

variable [Regard] {α : Type} {b b' b'' : Builder} {run : Build Bool} {limit remaining failures : ℕ}

/-- The second program goes on the first one in the same block, and nothing else uses what steers
its loops. -/
structure GoesOn (b b' : Builder) : Prop extends b.Extends b' where
  guides : b.Guides b'

namespace GoesOn

lemma of_agrees (hs : b.Sound) (h : b.Agrees b') (hh : b'.hidden = b.hidden)
    (hn : b'.newNames = b.newNames) : b.GoesOn b' where
  toExtends := .of_agrees hs h hh hn
  guides := (Reaches.of_agrees hs h hh).guides hs h.instructions

lemma refl (hs : b.Sound) : b.GoesOn b := .of_agrees hs ⟨rfl, rfl, rfl, rfl, rfl, rfl⟩ rfl rfl

lemma trans (hs : b.Sound) (h : b.GoesOn b') (h' : b'.GoesOn b'') : b.GoesOn b'' where
  toExtends := h.toExtends.trans hs h'.toExtends
  guides := h.guides.trans h.toReaches h'.toReaches h'.guides

end GoesOn

/-- A computation that may be run for nested code may be run at the end of every program. -/
lemma nests_iff {m : Build α} : m.Nests ↔ ∀ b : Builder, b.Sound → b.GoesOn (m b).2 := by
  refine ⟨fun h b hs => ?_, fun h p Γ b hs hk => ?_⟩
  · obtain ⟨he, hg, -⟩ := h ⟨b.scopes.context, b.scopes.currentFunction?⟩ [] b hs fun hb =>
      ⟨⟨Context.contains_self, rfl, nofun⟩, nofun⟩
    exact ⟨he, hg⟩
  · obtain ⟨he, hg⟩ := h b hs
    exact ⟨he, hg, [], rfl, fun hb => ((hk (he.regarded hb)).mono hs he hb).toSees.nil⟩

/-- **A build** goes on as its steps do. -/
theorem goesOn_buildLoop (hr : run.Nests) (hs : b.Sound) :
    b.GoesOn (b.buildLoop run limit remaining failures) := by
  fun_induction buildLoop run limit remaining failures b with
  | case1 => exact .refl hs
  | case2 remaining failures b _ before ran b' hrun appended _ ih =>
      have hstep := nests_iff.mp hr b hs
      rw [hrun] at hstep
      exact hstep.trans hs (ih hstep.sound)
  | case3 remaining failures b _ before ran b' hrun =>
      have hstep := nests_iff.mp hr b hs
      rwa [hrun] at hstep
  | case4 remaining failures b _ before ran b' hrun appended _ _ ih =>
      have hstep := nests_iff.mp hr b hs
      rw [hrun] at hstep
      exact hstep.trans hs (ih hstep.sound)

end Builder

namespace Build

variable [Regard] {α β : Type} {m : Build α} {f : α → Build β} {P : α → Prop} {nested : Build Unit}
  {nesting : Bool} {levels budget : ℕ} {g : Generator} {gs : WeightedList Generator}

namespace Nests

lemma bind (hm : Nests m) (hf : ∀ a, Nests (f a)) : Nests (m >>= f) :=
  fun p Γ => (hm p Γ).silent fun a => hf a p Γ

lemma draws (hm : ∀ b, Draws m b P) (hf : ∀ a, Nests (f a)) : Nests (m >>= f) :=
  fun p Γ => .draws hm fun a _ => hf a p Γ

lemma look {g : Builder → α} (hf : ∀ a, Nests (f a)) : Nests (Build.look g >>= f) :=
  fun p Γ => .look fun a => hf a p Γ

/-- Only the instructions, the scopes and the types of a builder make up its program. -/
lemma modify {g : Builder → Builder} (ha : ∀ b : Builder, b.Agrees (g b))
    (hh : ∀ b : Builder, (g b).hidden = b.hidden)
    (hn : ∀ b : Builder, (g b).newNames = b.newNames) : Nests (modify g : Build PUnit) :=
  Builder.nests_iff.mpr fun b hs => .of_agrees hs (ha b) (hh b) (hn b)

end Nests

lemma nests_buildWith (hn : Nests nested) : Nests (buildWith nesting nested budget) :=
  Builder.nests_iff.mpr fun _ hs => Builder.goesOn_buildLoop (nests_runRandomWith hn) hs

lemma nests_deeper (hm : Nests nested) : Nests (deeper nested) := by
  refine Nests.bind (Nests.modify (fun b => ⟨rfl, rfl, rfl, rfl, rfl, rfl⟩) (fun b => rfl)
    fun b => rfl) fun _ => ?_
  refine hm.bind fun _ => ?_
  exact Nests.modify (fun b => ⟨rfl, rfl, rfl, rfl, rfl, rfl⟩) (fun b => rfl) fun b => rfl

/-- Other generators may take part. -/
lemma appends_withGenerators {p : Place} {Γ : Known} {Q : α → Known → Prop} (hm : Appends p Γ m Q) :
    Appends p Γ (withGenerators gs m) Q := by
  intro b hs hk
  have hfirst : b.GoesOn { b with generators := gs } :=
    .of_agrees hs ⟨rfl, rfl, rfl, rfl, rfl, rfl⟩ rfl rfl
  obtain ⟨he, hg, Δ, hQ, hΔ⟩ := hm _ hfirst.sound fun hb =>
    (hk (hfirst.regarded hb)).mono hs hfirst.toExtends hb
  have hlast : (m { b with generators := gs }).2.GoesOn (withGenerators gs m b).2 :=
    .of_agrees he.sound ⟨rfl, rfl, rfl, rfl, rfl, rfl⟩ rfl rfl
  have hall := (hfirst.trans hs ⟨he, hg⟩).trans hs hlast
  exact ⟨hall.toExtends, hall.guides, Δ, hQ, fun hb =>
    (hΔ (hlast.regarded hb)).mono he.sound hlast.toExtends hb⟩

omit [Regard] in
lemma draws_nestedBudget {b : Builder} : Draws nestedBudget b fun _ => True := Draws.look draws_any

/-- **A build** appends well-formed code at every place, however deep it may be nested. -/
theorem nests_buildAt : Nests (buildAt levels budget) := by
  induction levels generalizing budget with
  | zero => exact nests_buildWith nests_pure
  | succ n ih =>
      exact nests_buildWith (.draws (fun _ => draws_nestedBudget) fun _ => nests_deeper ih)

lemma nests_build : Nests (build budget) := .look fun _ => nests_buildAt

lemma nests_nested : Nests Build.nested :=
  .draws (fun _ => draws_nestedBudget) fun _ => .look fun _ => nests_deeper nests_buildAt

lemma nests_values : Nests values := .look fun _ => .look fun _ => fun p Γ =>
  appends_withGenerators (nests_build p Γ)

end Build

end EngineFuzz
