import Mathlib
import EngineFuzz.Generation.Scenario
import EngineFuzz.Proofs.Generation.Running

/-!
# Templates of script code

A template fixes the shape of a program and leaves the rest to generators.  Whatever they append,
the whole is well formed; here for the templates that use no WebAssembly.

* `Build.appends_hide`: values of the script may be hidden.
* `Build.appends_stop`: a computation may give up, if programs that it gave up on do not count.
* `Scenario.Overflows`: the number of parameters with which it gives up.
* `Scenario.appends_trickyFunction`: functions whose behaviour depends on the iteration.
-/

namespace EngineFuzz

lemma Known.vars_subset {Γ Δ : Known} (h : Δ ⊆ Γ) : Δ.vars ⊆ Γ.vars := List.map_subset _ h

namespace Build

variable [Regard] {p : Place} {Γ : Known} {v : Variable}

/-- Values of the script may be hidden. -/
lemma appends_hide (hp : p.context.isScript = true) (hv : v ∈ Γ.vars) :
    Appends p Γ (hide v) fun _ Δ => Δ = [] := by
  intro b hs hk
  have he : b.Extends (hide v b).2 := (Builder.Extends.refl hs).hide fun hb =>
    ⟨(hs hb).lt_next ((hk hb).isVisible hv), fun _ => ((hk hb).toSees.types (hs hb)).script hp v hv⟩
  exact ⟨he, he.toReaches.guides hs rfl, [], rfl, fun hb =>
    ((hk (he.regarded hb)).mono hs he hb).toSees.nil⟩

/-- Where a computation gives up, nothing more is said of the program. -/
lemma appends_stop (hr : Regard.unstopped) :
    Appends p Γ (stop .missingParameter) fun _ Δ => Δ = [] := by
  intro b hs hk
  have hnot : ¬(stop .missingParameter b).2.Regarded := fun hb => hb.unstopped hr rfl
  have he : b.Reaches (stop .missingParameter b).2 :=
    { sound := fun hb => absurd hb hnot
      toolbox := rfl
      tracked := id
      grows := ⟨[], (List.append_nil _).symm⟩
      regarded := fun hb => absurd hb hnot
      hidden := fun hb => absurd hb hnot }
  exact ⟨⟨he, fun hb => absurd hb hnot, rfl⟩, he.guides hs rfl, [], rfl, fun hb => absurd hb hnot⟩

end Build

namespace Scenario

open Build Generate

variable [Regard] {p : Place} {Γ : Known} {v w : Variable} {n : ℕ} {b : Builder} {type : WasmType}

section

variable (hp : p.context.isScript = true)
include hp

/-! ### Script code -/

omit hp in
lemma appends_codegen : Appends p Γ (codegen n) fun _ Δ => Δ = [] :=
  (nests_values _ _).silent fun _ => nests_build _ _

lemma appends_hotLoop {body : Variable → Build Unit}
    (hbody : ∀ p' : Place, p'.context.isScript = true → ∀ i,
      Appends p' ((i, .integer) :: Γ) (body i) fun _ Δ => Δ = []) :
    Appends p Γ (hotLoop body) fun _ Δ => Δ = [] :=
  appends_repeatBlock hp fun p' hp' i => (hbody p' hp' i).true

lemma appends_generatedFunction :
    Appends p Γ (generatedFunction n) fun f Δ => f ∈ Δ.vars :=
  .draws (fun _ => draws_randomParameterCount) fun _ _ =>
    (appends_functionWith hp fun _ _ => nests_build.appends).mono fun f Δ hf => by simp [hf]

lemma appends_callInLoop (hv : v ∈ Γ.vars) : Appends p Γ (callInLoop v) fun _ Δ => Δ = [] :=
  appends_hotLoop hp fun _ hp' _ => appends_callOnce hp' (by simp [hv])

lemma appends_oneFunction : Appends p Γ oneFunction fun _ Δ => Δ = [] := by
  refine (nests_values _ _).silent fun _ => (nests_build _ _).silent fun _ => ?_
  refine (appends_generatedFunction hp).bind fun f Δ hf => ?_
  have hv : f ∈ (Δ ++ Γ).vars := by simp [hf]
  refine (nests_build _ _).silent fun _ => (appends_callInLoop hp hv).silent fun _ => ?_
  refine (nests_build _ _).silent fun _ => (appends_callOnce hp hv).silent fun _ => ?_
  refine (appends_callInLoop hp hv).silent fun _ => (nests_build _ _).silent fun _ => ?_
  exact appends_callOnce hp hv

lemma appends_twoFunctions : Appends p Γ twoFunctions fun _ Δ => Δ = [] := by
  refine (nests_values _ _).silent fun _ => (nests_build _ _).silent fun _ => ?_
  refine (appends_generatedFunction hp).bind fun f Δ hf => ?_
  refine (appends_generatedFunction hp).bind fun g Δ' hg => ?_
  have hf' : f ∈ (Δ' ++ (Δ ++ Γ)).vars := by simp [hf]
  have hg' : g ∈ (Δ' ++ (Δ ++ Γ)).vars := by simp [hg]
  refine (nests_build _ _).silent fun _ => (appends_callInLoop hp hf').silent fun _ => ?_
  refine (appends_callInLoop hp hg').silent fun _ => (nests_build _ _).silent fun _ => ?_
  refine (appends_callOnce hp hg').silent fun _ => (appends_callOnce hp hf').silent fun _ => ?_
  refine (appends_callInLoop hp hf').silent fun _ => (appends_callInLoop hp hg').silent fun _ => ?_
  refine (nests_build _ _).silent fun _ => (appends_callOnce hp hf').silent fun _ => ?_
  exact appends_callOnce hp hg'

/-! ### Functions whose behaviour depends on the iteration -/

omit [Regard] hp in
/-- So many further arguments are drawn that a word cannot count them together with the iteration,
so that the function of the template is to have no parameters. -/
def Overflows (b : Builder) : Prop :=
  (randomParameterCount (codegen smallBlock b).2).1.toUInt64 + 1 = 0

lemma appends_iterationCondition (hv : v ∈ Γ.vars) :
    Appends p Γ (iterationCondition v) fun w Δ => w ∈ Δ.vars := by
  have hequal (k : ℤ) : Appends p Γ (do Build.compare v (← Build.integer k) .equal)
      fun w Δ => w ∈ Δ.vars :=
    (appends_integer hp).bind fun w Δ hw => appends_compare hp (by simp [hv]) (by simp [hw])
  refine .draw fun single => ?_
  split
  · refine .draw fun last => ?_
    cases last with
    | true => exact .draw fun k => hequal k
    | false => exact .draw fun k => hequal k
  · refine .draw fun k => (appends_integer hp).bind fun modulus Δ hm => ?_
    refine (appends_binary hp (by simp [hv]) (by simp [hm])).bind fun remainder Δ' hr => ?_
    refine (appends_integer hp).bind fun zero Δ'' hz => ?_
    exact appends_compare hp (by simp [hr]) (by simp [hz])

lemma appends_codeForSomeIterations (hv : v ∈ Γ.vars) :
    Appends p Γ (codeForSomeIterations v) fun _ Δ => Δ = [] := by
  refine (appends_iterationCondition hp hv).bind fun c Δ hc => ?_
  refine (appends_hide hp (by simp [hc])).silent fun _ => ?_
  exact appends_ifBlock hp (by simp [hc]) fun _ _ => nests_build.appends

lemma appends_callWithIteration (hv : v ∈ Γ.vars) (hw : w ∈ Γ.vars) :
    Appends p Γ (callWithIteration v n w) fun _ Δ => Δ = [] := by
  refine (appends_codeForSomeIterations hp hw).silent fun _ => ?_
  refine (appends_randomScriptValues hp).bind fun args Δ ⟨_, hargs⟩ => ?_
  exact (appends_call hp (by simp [hv]) (by simp [hw, hargs])).drop

/-- A function with at least one parameter, and calls of it. -/
lemma appends_trickyCalls {parameters : ℕ} (h : 0 < parameters.toUInt64.toNat) :
    Appends p Γ (trickyCalls parameters n) fun _ Δ => Δ = [] := by
  intro b
  refine (AppendsAt.function_first hp (fun _ => h) fun p' hp' hs vs => ?_).bind fun f Δ₁ hf => ?_
  · refine Appends.true (Q := fun _ Δ => Δ = []) ?_
    refine (nests_build _ _).silent fun _ => ?_
    refine (appends_codeForSomeIterations hp' (by simp)).silent fun _ => ?_
    exact (nests_build _ _).silent fun _ => appends_returnValue hp' hs
  have hloop (q : Place) (hq : q.context.isScript = true) (Γ' : Known) (h : f ∈ Γ'.vars) :
      Appends q Γ' (hotLoop (callWithIteration f n)) fun _ Δ => Δ = [] :=
    appends_hotLoop hq fun _ hp' _ => appends_callWithIteration hp' (by simp [h]) (by simp)
  refine (nests_build _ _).silent (fun _ => ?_) _
  refine (appends_repeatBlock hp fun q hq _ => (hloop q hq _ (by simp [hf])).true).silent
    fun _ => ?_
  exact hloop p hp _ (by simp [hf])

omit [Regard] hp in
/-- So many further arguments can only be drawn if the settings allow for as many parameters. -/
lemma Overflows.maxParameters (h : Overflows b)
    (hb : (codegen smallBlock b).2.toolbox = b.toolbox) :
    b.settings.maxParameters.toNat + 1 = 2 ^ 64 := by
  unfold Overflows at h
  generalize (codegen smallBlock b).2 = b' at h hb
  have hsettings : b'.settings = b.settings := congrArg (·.settings.builder) hb
  rw [← hsettings]
  by_contra hne
  have hlt := b'.settings.maxParameters.toNat_lt
  have hle : (Draw.nat64 0 b'.settings.maxParameters.toNat b'.words).1 ≤
      b'.settings.maxParameters.toNat := Draw.nat64_le (Nat.zero_le _) (by omega)
  change (Draw.nat64 0 b'.settings.maxParameters.toNat b'.words).1.toUInt64 + 1 = 0 at h
  have hsum := congrArg UInt64.toNat h
  rw [UInt64.toNat_add, toNat_toUInt64 (by omega), UInt64.toNat_one, UInt64.toNat_zero,
    Nat.mod_eq_of_lt (by omega)] at hsum
  exact absurd hsum (Nat.succ_ne_zero _)

omit [Regard] hp in
/-- Where the parameters overflow, the computation gives up. -/
lemma Overflows.trickyFunction_eq (h : Overflows b) :
    trickyFunction b = stop .missingParameter
      (randomParameterCount (codegen smallBlock b).2).2 := by
  have hzero : ((randomParameterCount (codegen smallBlock b).2).1.toUInt64 + 1).toNat = 0 :=
    congrArg UInt64.toNat h
  unfold codegen at hzero ⊢
  rw [bind_apply] at hzero ⊢
  rw [trickyFunction, bind_apply, bind_apply, bind_apply, if_pos hzero]

/-- The computation gives up if the parameters overflow, and else appends well-formed code. -/
lemma appends_trickyFunction (h : Regard.unstopped ∨ ¬Overflows b) :
    AppendsAt b p Γ trickyFunction fun _ Δ => Δ = [] := by
  refine (nests_values p Γ b).bind fun _ Δ hΔ => ?_
  refine (nests_build p (Δ ++ Γ) _).bind fun _ Δ' hΔ' => ?_
  rw [hΔ, hΔ']
  refine AppendsAt.draws draws_randomParameterCount.result fun extra words hextra => ?_
  dsimp only
  split
  case isTrue hzero =>
    refine appends_stop (h.resolve_right fun hno => hno ?_) _
    rw [hextra] at hzero
    exact UInt64.toNat_inj.mp hzero
  case isFalse hpos =>
    refine appends_trickyCalls hp ?_ _
    rw [Nat.toUInt64_eq, UInt64.ofNat_toNat]
    exact Nat.pos_of_ne_zero hpos

/-! ### Texts and serialised values -/

omit hp in
/-- A function of one parameter. -/
lemma appends_functionOfOne (hp : p.context.isScript = true) {body : List Variable → Build Unit}
    (hbody : ∀ p' : Place, p'.context.isScript = true → p'.context.contains .subroutine = true →
      ∀ vs, Appends p' ((firstOf vs, .anything) :: Γ) (body vs) fun _ _ => True) :
    Appends p Γ (function 1 body) fun f Δ => f ∈ Δ.vars :=
  fun _ => (AppendsAt.function_first hp (fun _ => by decide) hbody).mono fun f Δ hf => by simp [hf]

lemma appends_indexFunction : Appends p Γ indexFunction fun f Δ => f ∈ Δ.vars := by
  refine appends_functionOfOne hp fun p' hp' hs vs => Appends.true (Q := fun _ Δ => Δ = []) ?_
  refine (appends_builtin hp').bind fun math Δ hm => .draw fun x => ?_
  refine (appends_constant hp' ⟨rfl, rfl, rfl⟩ rfl rfl).bind fun fraction Δ' hf => ?_
  refine (appends_binary hp' (by simp [hf]) (by simp)).bind fun scaled Δ'' hsc => ?_
  refine (appends_callMethod hp' (by simp [hm]) (by simp [hsc])).bind fun r Δ₃ hr => ?_
  exact appends_giveBack hp' hs (by simp [hr])

lemma appends_flipFunction : Appends p Γ flipFunction fun f Δ => f ∈ Δ.vars := by
  refine appends_functionOfOne hp fun p' hp' hs vs => Appends.true (Q := fun _ Δ => Δ = []) ?_
  refine (appends_indexFunction hp').bind fun randomIndex Δ hri => ?_
  refine (appends_builtin hp').bind fun string Δ₁ hstring => ?_
  refine (appends_property hp' (by simp)).bind fun length Δ₂ hlength => ?_
  refine (appends_call hp' (by simp [hri]) (by simp [hlength])).bind fun index Δ₃ hindex => ?_
  refine (appends_integer hp').bind fun zero Δ₄ hzero => ?_
  refine (appends_callMethod hp' (by simp) (by simp [hzero, hindex])).bind
    fun before Δ₅ hbefore => ?_
  refine (appends_integer hp').bind fun one Δ₆ hone => ?_
  refine (appends_binary hp' (by simp [hindex]) (by simp [hone])).bind fun next Δ₇ hnext => ?_
  refine (appends_callMethod hp' (by simp) (by simp [hnext])).bind fun after Δ₈ hafter => ?_
  refine (appends_callMethod hp' (by simp) (by simp [hindex])).bind fun code Δ₉ hcode => ?_
  refine .draw fun k => (appends_integer hp').bind fun mask Δ₁₀ hmask => ?_
  refine (appends_binary hp' (by simp [hcode]) (by simp [hmask])).bind fun flipped Δ₁₁ hfl => ?_
  refine (appends_callMethod hp' (by simp [hstring]) (by simp [hfl])).bind fun char Δ₁₂ hchar => ?_
  refine (appends_binary hp' (by simp [hbefore]) (by simp [hchar])).bind fun head Δ₁₃ hhead => ?_
  refine (appends_binary hp' (by simp [hhead]) (by simp [hafter])).bind fun r Δ₁₄ hr => ?_
  exact appends_giveBack hp' hs (by simp [hr])

lemma appends_flipSome (hv : v ∈ Γ.vars) (hw : w ∈ Γ.vars) :
    Appends p Γ (flipSome v w) fun r Δ => r ∈ Δ.vars := by
  refine .draw fun flip => ?_
  split
  · exact appends_call hp hv (by simp [hw])
  · exact .pure (Δ := Γ) hw (List.Subset.refl _)

lemma appends_jsonText : Appends p Γ jsonText fun _ Δ => Δ = [] := by
  refine (nests_values _ _).silent fun _ => (nests_build _ _).silent fun _ => ?_
  refine (appends_builtin hp).bind fun json Δ hjson => .draw fun count => ?_
  refine (Appends.timesVariable fun Γ' h => ?_).bind fun payloads Δ₁ ⟨_, hpayloads⟩ => ?_
  · have hj : json ∈ Γ'.vars := Known.vars_subset h (by simp [hjson])
    exact (appends_randomScriptValue hp).bind fun v Δ' hv =>
      appends_callMethod hp (by simp [hj]) (by simp [hv])
  refine (appends_flipFunction hp).bind fun flip Δ₂ hflip => ?_
  refine (Appends.mapVariable fun w hw Γ' h => ?_).bind fun flipped Δ₃ ⟨_, hflipped⟩ => ?_
  · have hv : flip ∈ Γ'.vars := Known.vars_subset h (by simp [hflip])
    have hw' : w ∈ Γ'.vars := Known.vars_subset h (by simp [hpayloads hw])
    exact appends_flipSome hp hv hw'
  refine (Appends.times fun Γ' h => ?_).bind fun _ Δ₄ _ => nests_build _ _
  have hj : json ∈ Γ'.vars := Known.vars_subset h (by simp [hjson])
  have hf : flipped ⊆ Γ'.vars := List.Subset.trans (by simp [hflipped]) (Known.vars_subset h)
  refine .draws (P := fun v => v ∈ json :: flipped) (fun _ => Draws.draw fun _ => Draw.chooseD_mem)
    fun v hv => ?_
  refine (appends_callMethod hp hj ?_).true
  rw [List.cons_subset]
  refine ⟨?_, List.nil_subset _⟩
  rcases List.mem_cons.mp hv with rfl | hv
  · exact hj
  · exact hf hv

lemma appends_mapTransition : Appends p Γ mapTransition fun _ Δ => Δ = [] := by
  refine (appends_withGenerators ?_).silent fun _ => nests_build _ _
  refine .look fun size => (Appends.timesEffect (appends_mapObject hp)).silent fun _ => ?_
  exact nests_build _ _

lemma appends_valueSerializer : Appends p Γ valueSerializer fun _ Δ => Δ = [] := by
  refine (nests_values _ _).silent fun _ => (nests_build _ _).silent fun _ => ?_
  refine (appends_randomScriptValue hp).bind fun v Δ hv => ?_
  refine .draw fun index => .draw fun flip => .draw fun bit => .draw fun replacement => ?_
  refine (appends_guarded hp fun p' hp' => Appends.true (Q := fun _ Δ => Δ = []) ?_).silent fun _ =>
    nests_build _ _
  refine (appends_builtin hp').bind fun global Δ₁ hglobal => ?_
  refine (appends_property hp' (by simp [hglobal])).bind fun shell Δ₂ hshell => ?_
  refine (appends_property hp' (by simp [hshell])).bind fun serializer Δ₃ hser => ?_
  refine (appends_callMethod hp' (by simp [hser]) (by simp [hv])).bind fun content Δ₄ hcontent => ?_
  refine (appends_builtin hp').bind fun constructor Δ₅ hcon => ?_
  refine (appends_construct hp' (by simp [hcon]) (by simp [hcontent])).bind
    fun bytes Δ₆ hbytes => ?_
  have hwrite {Γ' : Known} {byte : Variable} (hb : bytes ∈ Γ'.vars) (hs : serializer ∈ Γ'.vars)
      (hc : content ∈ Γ'.vars) (hbyte : byte ∈ Γ'.vars) : Appends p' Γ' (do
        perform (.setElement (Int64.ofInt index)) [bytes, byte]
        let _ ← callMethod serializer "deserialize" [content] false) fun _ Δ => Δ = [] :=
    (appends_scriptEffect hp' ⟨rfl, rfl, rfl⟩ (by simp [hb, hbyte]) fun _ => rfl).silent fun _ =>
      (appends_callMethod hp' hs (by simp [hc])).drop
  cases flip with
  | true =>
      refine (appends_integer hp').bind fun mask Δ₇ hmask => ?_
      refine (appends_scriptValue hp' ⟨rfl, rfl, rfl⟩ rfl (by simp [hbytes]) fun _ => rfl).bind
        fun old Δ₈ hold => ?_
      refine (appends_binary hp' (by simp [hold]) (by simp [hmask])).bind fun byte Δ₉ hbyte => ?_
      exact hwrite (by simp [hbytes]) (by simp [hser]) (by simp [hcontent]) (by simp [hbyte])
  | false =>
      refine (appends_integer hp').bind fun byte Δ₇ hbyte => ?_
      exact hwrite (by simp [hbytes]) (by simp [hser]) (by simp [hcontent]) (by simp [hbyte])

/-! ### Regular expressions -/

lemma appends_matchOperation (hv : v ∈ Γ.vars) (hw : w ∈ Γ.vars) :
    Appends p Γ (matchOperation v w) fun r Δ => r ∈ Δ.vars := by
  refine .draw fun kind => ?_
  split
  · exact appends_callMethod hp hv (by simp [hw])
  · exact appends_callMethod hp hw (by simp [hv])
  · have hreplace (s : String) : Appends p Γ (do callMethod w "replace" [v, ← text s] false)
        fun r Δ => r ∈ Δ.vars :=
      (appends_text hp).bind fun x Δ hx => appends_callMethod hp (by simp [hw]) (by simp [hv, hx])
    refine .draw fun random => ?_
    cases random with
    | true => exact .draws (fun _ => draws_randomString) fun s _ => hreplace s
    | false => exact .draw fun s => hreplace s
  · exact appends_callMethod hp hw (by simp [hv])

lemma appends_regExp : Appends p Γ regExp fun _ Δ => Δ = [] := by
  refine (appends_function hp fun p' hp' hs vs => ?_).bind fun f Δ hf =>
    (appends_call hp (by simp [hf]) (by simp)).bind fun _ Δ' _ => nests_build _ _
  refine Appends.true (Q := fun _ Δ => Δ = []) ?_
  refine .draws (fun _ => draws_randomRegExp) fun r _ => ?_
  refine (appends_constant hp' ⟨rfl, rfl, rfl⟩ rfl rfl).bind fun expression Δ he => ?_
  refine .draw fun k => (appends_text hp').bind fun start Δ' hstart => ?_
  refine (appends_setProperty hp' (by simp [he]) (by simp [hstart])).silent fun _ => ?_
  have hmatch {Γ' : Known} {subject : Variable} (he : expression ∈ Γ'.vars)
      (hsub : subject ∈ Γ'.vars) : Appends p' Γ' (do
        let result ← value .loadNull []
        Build.guarded do perform .reassign [result, ← matchOperation expression subject]
        giveBack (some result)) fun _ Δ => Δ = [] := by
    refine (appends_constant hp' ⟨rfl, rfl, rfl⟩ rfl rfl).bind fun result Δ hr => ?_
    refine (appends_guarded hp' fun q hq => ?_).silent fun _ =>
      appends_giveBack hp' hs (by simp [hr])
    refine Appends.true (Q := fun _ Δ => Δ = []) ?_
    refine (appends_matchOperation hq (by simp [he]) (by simp [hsub])).bind fun m Δ' hm => ?_
    exact appends_scriptEffect hq ⟨rfl, rfl, rfl⟩ (by simp [hr, hm]) fun _ => rfl
  refine .draw fun wide => ?_
  cases wide with
  | true =>
      exact (appends_text hp').bind fun s Δ hs => hmatch (by simp [he]) (by simp [hs])
  | false =>
      exact .draws (fun _ => draws_randomString) fun _ _ =>
        (appends_text hp').bind fun s Δ hs => hmatch (by simp [he]) (by simp [hs])

end

end Scenario

end EngineFuzz
