import Mathlib
import EngineFuzz.Proofs.Generation.WasmTemplates

/-!
# Generated programs are valid

Whatever is drawn, a fresh builder that runs a template, or any calls of its generators, ends with a
program that the validator accepts, with one exception: a template gives up where the number of
parameters that it draws overflows.

* `GenerationPlan`: what a builder is asked for from outside.
* `GenerationPlan.finalize_eq_ok_iff`: the program that a plan ends with is accepted, unless the
  plan overflows.
-/

namespace EngineFuzz

/-- What a builder may be asked for, one after another. -/
inductive GenerationCall where
  | values
  | build (budget : ℕ)
  | randomModule

/-- The code of a call. -/
def GenerationCall.code : GenerationCall → Build Unit
  | values => Build.values
  | build budget => Build.build budget
  | randomModule => do
    let _ ← Generate.randomModule Build.nested

/-- How a program is generated: from a template that is filled up, or by a sequence of calls. -/
inductive GenerationPlan where
  | template (t : Template) (budget : ℕ)
  | calls (cs : List GenerationCall)

namespace GenerationPlan

/-- The code of a plan. -/
def code : GenerationPlan → Build Unit
  | template t budget => do
    t.code
    Build.build budget
  | calls cs => cs.forM GenerationCall.code

/-- The plan begins, at the end of the program, with a template that overflows. -/
def Overflows (b : Builder) : GenerationPlan → Prop
  | template .trickyFunction _ => Scenario.Overflows b
  | template _ _ | calls _ => False

end GenerationPlan

namespace Build

variable [Regard] {b : Builder} {p : Place} {Γ : Known} {plan : GenerationPlan}
  {c : GenerationCall}

lemma appends_generationCall (hp : p.context.isScript = true) :
    Appends p Γ c.code fun _ Δ => Δ = [] := by
  cases c with
  | values => exact nests_values p Γ
  | build budget => exact nests_build p Γ
  | randomModule => exact (Generate.appends_randomModule hp nests_nested).drop

lemma appends_generationPlan (hp : p.context.isScript = true)
    (h : Regard.unstopped ∨ ¬plan.Overflows b) :
    AppendsAt b p Γ plan.code fun _ Δ => Δ = [] := by
  cases plan with
  | template t budget =>
      refine (Template.appends_code hp ?_).bind fun _ Δ hΔ => ?_
      · rintro rfl
        exact h
      · rw [hΔ]
        exact nests_build p Γ _
  | calls cs => exact Appends.forM (fun c _ => appends_generationCall hp) b

end Build

namespace Builder

variable {toolbox : Toolbox} {words : WordSource}

/-- A fresh builder is at the outermost place of a script. -/
lemma knows_start : (start toolbox words).Knows ⟨.script, none⟩ [] :=
  ⟨⟨Context.contains_self, rfl, nofun⟩, nofun⟩

/-- What a plan appends to an empty program. -/
lemma goesOn_generationPlan [Regard] {plan : GenerationPlan}
    (he : toolbox.environment.IsScriptTyped)
    (h : Regard.unstopped ∨ ¬plan.Overflows (start toolbox words)) :
    (start toolbox words).GoesOn (plan.code (start toolbox words)).2 := by
  obtain ⟨hext, hguides, -⟩ := Build.appends_generationPlan (b := start toolbox words)
    (p := ⟨.script, none⟩) (Γ := []) rfl h (fun _ => settled_start he) fun _ => knows_start
  exact ⟨hext, hguides⟩

section

variable {plan : GenerationPlan} (he : toolbox.environment.IsScriptTyped)
  (hb : (plan.code (start toolbox words)).2.Bounded)
include he hb

/-- A plan that does not overflow ends with a well-formed program. -/
lemma settled_generationPlan (h : ¬plan.Overflows (start toolbox words)) :
    (plan.code (start toolbox words)).2.Settled ∧
      (plan.code (start toolbox words)).2.toolbox = toolbox ∧
      (plan.code (start toolbox words)).2.scopes.blocks = [] := by
  -- all programs that can be counted are regarded
  let _ : Regard := ⟨False, False⟩
  have hb' : (plan.code (start toolbox words)).2.Regarded := ⟨hb, False.elim, False.elim⟩
  have hext : (start toolbox words).GoesOn _ := goesOn_generationPlan he (.inr h)
  exact ⟨hext.sound hb', hext.toolbox, (hext.scopes hb').blocks⟩

/-- A plan that overflows ends with a builder that has given up. -/
lemma problem?_of_overflows (h : plan.Overflows (start toolbox words)) :
    toolbox.settings.builder.maxParameters.toNat + 1 = 2 ^ 64 ∧
      (plan.code (start toolbox words)).2.problem? = some .missingParameter := by
  -- programs that a template gave up on do not count
  let _ : Regard := ⟨False, True⟩
  cases plan with
  | calls cs => exact h.elim
  | template t budget =>
      cases t <;> try exact h.elim
      have h : Scenario.Overflows (start toolbox words) := h
      have hsound : (start toolbox words).Sound := fun _ => settled_start he
      obtain ⟨hext, -, -⟩ := Scenario.appends_codegen (n := Scenario.smallBlock) (Γ := [])
        _ hsound fun _ => knows_start
      refine ⟨h.maxParameters hext.toolbox, by_contra fun hne => ?_⟩
      obtain ⟨htricky, -, -⟩ := Scenario.appends_trickyFunction (p := ⟨.script, none⟩) (Γ := [])
        rfl (.inl trivial) hsound fun _ => knows_start
      generalize hstop : (Scenario.trickyFunction (start toolbox words)).2 = b at htricky
      have hnot : ¬b.Regarded := fun hr => hr.unstopped trivial (by
        rw [← hstop, h.trickyFunction_eq]
        rfl)
      -- what is built later on does not count either
      have hcode : ((GenerationPlan.template .trickyFunction budget).code
          (start toolbox words)).2 = (Build.build budget b).2 := by
        rw [← hstop, GenerationPlan.code, Build.bind_apply, Template.code]
      rw [hcode] at hb hne
      have hbuild : Build.Appends ⟨.script, none⟩ [] (Build.build budget) fun _ Δ => Δ = [] :=
        Build.nests_build _ _
      obtain ⟨hmore, -, -⟩ := hbuild b htricky.sound fun hr => absurd hr hnot
      exact hnot (hmore.regarded ⟨hb, False.elim, fun _ => hne⟩)

end

end Builder

/-- **Generated programs are valid.**  Whatever is drawn, and whatever the settings are, a template
that is filled up and every sequence of calls end, with builtins that are values of scripts, in a
builder without a problem and without an open block, and its program is accepted, exactly if the
plan does not overflow.  It overflows only where the settings allow for the greatest number of
parameters that is a word, and then no program is returned.  The program may not be too large to be
counted. -/
theorem GenerationPlan.finalize_eq_ok_iff (toolbox : Toolbox) (words : WordSource)
    (plan : GenerationPlan) (he : toolbox.environment.IsScriptTyped)
    (hb : (plan.code (.start toolbox words)).2.Bounded) :
    let b := (plan.code (.start toolbox words)).2
    let p := Program.ofInstructions b.instructions.toList
    (b.problem? = none ∧ b.scopes.blocks = [] ∧ b.finalize.1 = .ok p ∧
        p.validate toolbox.environment = .ok () ↔
      ¬plan.Overflows (.start toolbox words)) ∧
    (plan.Overflows (.start toolbox words) →
      toolbox.settings.builder.maxParameters.toNat + 1 = 2 ^ 64 ∧
        b.finalize.1 = .error (.problem .missingParameter)) := by
  intro b p
  have hsettled (h : ¬plan.Overflows (.start toolbox words)) : b.problem? = none ∧
      b.scopes.blocks = [] ∧ b.finalize.1 = .ok p ∧ p.validate toolbox.environment = .ok () := by
    obtain ⟨hset, htool, hblocks⟩ := Builder.settled_generationPlan he hb h
    obtain ⟨hfin, hvalid⟩ := hset.toClean.finalize hblocks
    exact ⟨hset.flawless, hblocks, congrArg Prod.fst hfin, htool ▸ hvalid⟩
  have hstopped (h : plan.Overflows (.start toolbox words)) :
      b.problem? = some .missingParameter := (Builder.problem?_of_overflows he hb h).2
  refine ⟨⟨fun hok h => ?_, hsettled⟩, fun h => ?_⟩
  · rw [hstopped h] at hok
    exact nomatch hok.1
  · refine ⟨(Builder.problem?_of_overflows he hb h).1, ?_⟩
    simp [Builder.finalize, hstopped h]

/-- The built-in tools. -/
def Toolbox.standard : Toolbox where
  environment := .script
  settings := {}
  generators := Generator.weighted Generator.standard
  valueGenerators := Generator.weighted Generator.values
  wasmGenerators := Generator.weighted Generator.wasm
  templates := Template.weights.members Template
  mutators := MutatorKind.weights.members MutatorKind

/-- Random words that are spread evenly. -/
def WordSource.spread : WordSource := .ofFunction fun n => n.toUInt32 * 0x9e3779b9

namespace GenerationPlan

/-- A template that uses a table, with two instructions behind it. -/
def usesTable : GenerationPlan := template .wasmTable 2

/-- What the built-in tools make of it is small, and has a module with a loop. -/
lemma bounded_usesTable :
    let b := (usesTable.code (.start .standard .spread)).2
    b.Bounded ∧ (∃ i ∈ b.instructions.toList, i.operation = .beginWasmModule) ∧
      ∃ i ∈ b.instructions.toList, i.operation = .wasmBeginLoop := by
  decide +kernel

/-- A program with a module and a loop, which the built-in tools make. -/
theorem finalize_usesTable :
    let b := (usesTable.code (.start .standard .spread)).2
    let p := Program.ofInstructions b.instructions.toList
    (∃ i ∈ p.instructions, i.operation = .beginWasmModule) ∧
    (∃ i ∈ p.instructions, i.operation = .wasmBeginLoop) ∧
    b.problem? = none ∧ b.scopes.blocks = [] ∧ b.finalize.1 = .ok p ∧
      p.validate .script = .ok () := by
  obtain ⟨hb, hmodule, hloop⟩ := bounded_usesTable
  exact ⟨hmodule, hloop, (finalize_eq_ok_iff .standard .spread usesTable
    Environment.isScriptTyped_script hb).1.mpr fun h => h⟩

end GenerationPlan

/-- The built-in tools where the settings allow for every number of parameters that is a word. -/
def Toolbox.unlimited : Toolbox :=
  { standard with settings := { builder := { maxParameters := 0xffffffffffffffff } } }

/-- Random words that are all 0, except for the two from which the number of parameters is drawn. -/
def WordSource.overflowing : WordSource :=
  .ofFunction fun n => if n = 40 ∨ n = 41 then 0xffffffff else 0

/-- **A program that is not returned**, although it has few variables and the settings are accepted:
the number of its parameters overflows. -/
theorem GenerationPlan.not_finalized_unlimited :
    Settings.parse
        "\x7b\"builder\":\x7b\"max_parameters\":18446744073709551615\x7d\x7d" =
      .ok Toolbox.unlimited.settings ∧
    Toolbox.ofSettings Toolbox.unlimited.settings .script = .ok .unlimited ∧
    Environment.script.IsScriptTyped ∧
    let b := ((template .trickyFunction 0).code (.start .unlimited .overflowing)).2
    b.Bounded ∧ b.finalize.1 = .error (.problem .missingParameter) := by
  refine ⟨?_, ?_, Environment.isScriptTyped_script, ?_⟩
  · -- the settings
    decide +kernel
  · rfl
  · -- the program
    decide +kernel

end EngineFuzz
