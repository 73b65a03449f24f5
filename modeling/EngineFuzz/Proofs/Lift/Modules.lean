import Mathlib
import EngineFuzz.Proofs.Layout.EntityTypes
import EngineFuzz.Proofs.Lift.Traces

/-!
# The modules of an accepted program

The modules of an accepted program are found and lowered, one after another.

* `ModuleRun.exists_module`: a module is lowered once the types of the whole program are known.
* `Validator.Script.exists_spans`: the search for modules finds each of them, where it lies.
* `Program.exists_encodedModules`: all modules of an accepted program are lowered, in order.
-/

namespace EngineFuzz

/-- Whether the instruction begins a module. -/
def Instruction.beginsModule (i : Instruction) : Bool := i.operation == .beginWasmModule

/-- Whether the instruction ends a module. -/
def Instruction.endsModule (i : Instruction) : Bool := i.operation == .endWasmModule

namespace Validator

variable {s s' : Validator} {is : List Instruction} {ms : List ModuleRun}

/-- The state in front of each module of an accepted script is sound, and the variables of the
module keep their types up to the end of the script. -/
lemma Script.sound_of_mem (h : Script s is ms s') (hs : s.Sound)
    (hn : ∀ i ∈ is, i.NumbersSmall) : ∀ m ∈ ms, m.front.Sound ∧
      (∀ i ∈ m.instructions, i.NumbersSmall) ∧
        ∀ v : Variable, v.number < m.back.nextFresh →
          s'.typer.typeOf v = m.back.typer.typeOf v := by
  intro m hm
  obtain ⟨before, after, rfl, hbefore, hafter⟩ := h.exists_split m hm
  simp only [List.mem_append] at hn
  exact ⟨hs.steps hbefore fun i hi => hn i (.inl hi), fun i hi => hn i (.inr (.inl hi)),
    (hafter.typeOf_eq fun i hi => hn i (.inr (.inr hi))).2⟩

end Validator

/-! ### One module -/

namespace ModuleRun

variable {m : ModuleRun} {t : Typer}

/-- A module of an accepted program in its lowered form, given the types of the whole program. -/
structure LowersTo (m : ModuleRun) (t : Typer) (layout : ModuleLayout) (module : WasmModule) :
    Prop where
  sound : m.front.Sound
  small : ∀ i ∈ m.instructions, i.NumbersSmall
  current : m.closed.typer.currentModule? = some layout
  covers : LoweringContext.Covers ⟨t, layout⟩ m.closed
  lowered : LoweringContext.module ⟨t, layout⟩ m.body = .ok module
  bodies : List.Forall₂ (·.LowersTo ⟨t, layout⟩ ·) m.functions module.bodies

lemma mem_instructions_of_mem_body {i : Instruction} (h : i ∈ m.body) : i ∈ m.instructions :=
  List.mem_cons_of_mem _ (List.mem_append_left _ h)

lemma last_mem_instructions : m.last ∈ m.instructions := by simp [instructions]

/-- At the end of a module its layout lists different variables. -/
lemma exists_layout (hs : m.closed.Sound) : ∃ layout, m.closed.typer.currentModule? = some layout ∧
    (layout.entities.map (·.var)).Nodup := by
  obtain ⟨next, ha, -⟩ := Validator.step_eq_ok_iff.mp m.step_last
  have hw : OpenBlock.worldOf m.closed.scopes.blocks = .module := by
    rw [hs.fits.worldOf_eq_home ha.position, m.last_operation]
    rfl
  obtain ⟨top, rest, hsc, htop, -⟩ := hs.fits.exists_scopes
  rw [hw] at htop
  obtain ⟨layout, hl, hvs, -⟩ := htop
  have hd := hs.fits.tracks.distinct
  rw [hsc, List.flatten_cons, List.nodup_append'] at hd
  exact ⟨layout, hl, by rw [hvs]; exact List.nodup_reverse.mpr hd.1⟩

/-- **A module is lowered** once the types of the whole program are known. -/
theorem exists_module (hs : m.front.Sound) (hn : ∀ i ∈ m.instructions, i.NumbersSmall)
    (ht : ∀ v : Variable, v.number < m.back.nextFresh → t.typeOf v = m.back.typer.typeOf v) :
    ∃ layout module, m.LowersTo t layout module := by
  have hbody : ∀ i ∈ m.body, i.NumbersSmall := fun i hi => hn i (mem_instructions_of_mem_body hi)
  have hopened := hs.step m.step_first (hn _ (List.mem_cons_self ..))
  have hclosed := hopened.steps m.passes.steps hbody
  obtain ⟨layout, hl, hd⟩ := exists_layout hclosed
  have hlast : Validator.Steps m.closed [m.last] m.back :=
    Validator.steps_singleton_iff.mpr m.step_last
  obtain ⟨hle, htypes⟩ := hlast.typeOf_eq fun i hi => by
    rw [List.mem_singleton.mp hi]
    exact hn _ last_mem_instructions
  have hcovers : LoweringContext.Covers ⟨t, layout⟩ m.closed := by
    refine ⟨fun v hv => ?_, fun layout' hl' e he => ?_, hd⟩
    · rw [← htypes v hv]
      exact ht v (UInt32.lt_of_lt_of_le hv hle)
    · rw [hl, Option.some.injEq] at hl'
      exact hl' ▸ he
  obtain ⟨bodies, hb, hall⟩ := m.passes.exists_bodies hopened hbody hcovers
  obtain ⟨module, hm, rfl⟩ := LoweringContext.exists_module_iff.mpr hb
  exact ⟨layout, module, hs, hn, hl, hcovers, hm, hall⟩

end ModuleRun

/-- A module of an accepted program in its encoded form. -/
structure ModuleRun.EncodesTo (m : ModuleRun) (p : Program) (e : Environment) (t : Typer)
    (layout : ModuleLayout) (c : EncodedModule) : Prop where
  lowers : m.LowersTo t layout c.body
  passed : Validator.Steps (.start e) (p.instructions.take c.last) m.closed
  last : p.instructions[c.last]? = some m.last
  inside : (p.instructions.take c.last).drop (c.first + 1) = m.body
  sources : c.importSources = layout.imports.filterMap (·.source)
  signature : c.signature = layout.signature

/-! ### The search for modules -/

namespace ModuleScan

variable {s s' : ModuleScan} {i : Instruction} {is js : List Instruction} {index : Nat}

lemma run_append (h : s.run index is = .ok s') :
    s.run index (is ++ js) = s'.run (index + is.length) js := by
  induction is generalizing s index with
  | nil =>
      rw [run, Except.ok.injEq] at h
      rw [h]
      rfl
  | cons i is ih =>
      rw [run, bind_eq_ok_iff] at h
      obtain ⟨m, hm, h⟩ := h
      rw [List.cons_append, run, hm, List.length_cons, Nat.add_comm is.length, ← Nat.add_assoc]
      exact ih h

/-- Between the ends of modules only types change. -/
lemma step_eq (ha : i.hasConsistentArity = true) (h₁ : i.operation ≠ .beginWasmModule)
    (h₂ : i.operation ≠ .endWasmModule) :
    s.step index i = .ok { s with typer := s.typer.apply i } := by
  rw [step, Instruction.checkArity, if_pos ha]
  dsimp only [bind, Except.bind]
  split
  · contradiction
  · contradiction
  · contradiction
  · rfl

lemma run_eq {v v' : Validator} (h : Validator.Steps v is v') (hs : s.typer = v.typer)
    (hm : ∀ i ∈ is, i.operation ≠ .beginWasmModule ∧ i.operation ≠ .endWasmModule) :
    s.run index is = .ok { s with typer := v'.typer } := by
  induction h generalizing s index with
  | nil v =>
      rw [run, ← hs]
  | cons head tail ih =>
      obtain ⟨h₁, h₂⟩ := hm _ (List.mem_cons_self ..)
      obtain ⟨next, ha, rfl⟩ := Validator.step_eq_ok_iff.mp head
      rw [run, step_eq ha.arity h₁ h₂]
      exact ih (s := { s with typer := s.typer.apply _ }) (congrArg (Typer.apply · _) hs)
        fun i hi => hm i (List.mem_cons_of_mem _ hi)

lemma step_beginWasmModule (ha : i.hasConsistentArity = true)
    (h : i.operation = .beginWasmModule) :
    s.step index i = .ok { s with typer := s.typer.apply i, begin? := some index } := by
  rw [step, Instruction.checkArity, if_pos ha, h]
  rfl

lemma step_endWasmModule {first : Nat} {layout : ModuleLayout} (ha : i.hasConsistentArity = true)
    (h : i.operation = .endWasmModule) (hb : s.begin? = some first)
    (hl : s.typer.currentModule? = some layout) : s.step index i =
      .ok ⟨s.typer.apply i, none, ⟨first, index, layout⟩ :: s.spans⟩ := by
  rw [step, Instruction.checkArity, if_pos ha, h, hb]
  simp only [hl, Option.getD_some]
  rfl

end ModuleScan

/-- Where a module lies in a list of instructions, which are checked from a state on. -/
structure ModuleRun.LiesAt (m : ModuleRun) (start : Validator) (is : List Instruction)
    (span : ModuleSpan) : Prop where
  split : ∃ before after, is = before ++ (m.instructions ++ after) ∧ span.first = before.length ∧
    Validator.Steps start before m.front
  last : span.last = span.first + m.body.length + 1
  layout : m.closed.typer.currentModule? = some span.layout

namespace ModuleRun

variable {m : ModuleRun} {start : Validator} {is : List Instruction} {span : ModuleSpan}

/-- What stands in front of the last instruction of a module. -/
lemma LiesAt.exists_take (h : m.LiesAt start is span) : ∃ before after,
    is.take span.last = before ++ m.first :: m.body ∧ is[span.last]? = some m.last ∧
      is = before ++ (m.instructions ++ after) ∧ span.first = before.length ∧
      Validator.Steps start before m.front := by
  obtain ⟨⟨before, after, rfl, hf, hs⟩, hl, -⟩ := h
  refine ⟨before, after, ?_, ?_, rfl, hf, hs⟩
  · rw [hl, hf, Nat.add_assoc, List.take_length_add_append, instructions, List.cons_append,
      List.take_succ_cons, List.append_assoc, List.take_left]
  · rw [hl, hf, Nat.add_assoc, List.getElem?_append_right (Nat.le_add_right ..),
      Nat.add_sub_cancel_left, instructions, List.cons_append, List.getElem?_cons_succ,
      List.append_assoc, List.getElem?_append_right (le_refl _), Nat.sub_self]
    rfl

/-- Between the first and the last instruction of a module stands its body. -/
lemma LiesAt.inside (h : m.LiesAt start is span) :
    (is.take span.last).drop (span.first + 1) = m.body := by
  obtain ⟨before, after, htake, -, -, hf, -⟩ := h.exists_take
  rw [htake, hf, List.drop_length_add_append, List.drop_succ_cons, List.drop_zero]

/-- The check passes all that stands in front of the last instruction of a module. -/
lemma LiesAt.passed (h : m.LiesAt start is span) :
    Validator.Steps start (is.take span.last) m.closed := by
  obtain ⟨before, after, htake, -, -, -, hs⟩ := h.exists_take
  rw [htake]
  exact Validator.steps_append_iff.mpr ⟨m.front, hs, .cons m.step_first m.passes.steps⟩

lemma length_instructions (m : ModuleRun) : m.instructions.length = m.body.length + 2 := by
  simp [instructions]

/-- A module begins at its first instruction only. -/
lemma findIdxs_beginsModule (hp : m.front.scopes.Placed) {index : Nat} :
    m.instructions.findIdxs Instruction.beginsModule index = [index] := by
  have hbody := m.passes.not_module_boundary (Validator.placed_of_step hp m.step_first)
  have hnone : m.body.findIdxs Instruction.beginsModule (index + 1) = [] :=
    List.findIdxs_eq_nil_iff.mpr fun i hi => by
      simpa [Instruction.beginsModule] using (hbody i hi).1
  simp [instructions, List.findIdxs_append, hnone, Instruction.beginsModule, m.first_operation,
    m.last_operation]

/-- A module ends at its last instruction only. -/
lemma findIdxs_endsModule (hp : m.front.scopes.Placed) {index : Nat} :
    m.instructions.findIdxs Instruction.endsModule index = [index + m.body.length + 1] := by
  have hbody := m.passes.not_module_boundary (Validator.placed_of_step hp m.step_first)
  have hnone : m.body.findIdxs Instruction.endsModule (index + 1) = [] :=
    List.findIdxs_eq_nil_iff.mpr fun i hi => by simpa [Instruction.endsModule] using (hbody i hi).2
  simp [instructions, List.findIdxs_append, hnone, Instruction.endsModule, m.first_operation,
    m.last_operation, Nat.add_right_comm]

/-- The search goes past a module and notes where it lies. -/
lemma scan_eq (m : ModuleRun) {layout : ModuleLayout} {spans : List ModuleSpan} {index : Nat}
    (hp : m.front.scopes.Placed) (hl : m.closed.typer.currentModule? = some layout) :
    (ModuleScan.mk m.front.typer none spans).run index m.instructions =
      .ok ⟨m.back.typer, none, ⟨index, index + m.body.length + 1, layout⟩ :: spans⟩ := by
  obtain ⟨_, ha, hfirst⟩ := Validator.step_eq_ok_iff.mp m.step_first
  obtain ⟨_, hb, hlast⟩ := Validator.step_eq_ok_iff.mp m.step_last
  have hinside : (ModuleScan.mk m.opened.typer (some index) spans).run (index + 1) m.body =
      .ok ⟨m.closed.typer, some index, spans⟩ := ModuleScan.run_eq m.passes.steps rfl
    (m.passes.not_module_boundary (Validator.placed_of_step hp m.step_first))
  rw [instructions, ModuleScan.run, ModuleScan.step_beginWasmModule ha.arity m.first_operation]
  have ho : m.front.typer.apply m.first = m.opened.typer := by rw [hfirst]
  change (ModuleScan.mk (m.front.typer.apply m.first) (some index) spans).run (index + 1)
    (m.body ++ [m.last]) = _
  rw [ho, ModuleScan.run_append hinside, ModuleScan.run,
    ModuleScan.step_endWasmModule hb.arity m.last_operation rfl hl, hlast, Nat.add_right_comm]
  rfl

end ModuleRun

namespace Validator

variable {s s' : Validator} {is : List Instruction} {ms : List ModuleRun}

/-- **The search finds every module** of an accepted script. -/
theorem Script.exists_spans {start : Validator} {done : List Instruction}
    (spans : List ModuleSpan) (h : Script s is ms s') (hd : Steps start done s) (hs : s.Sound)
    (hn : ∀ i ∈ is, i.NumbersSmall) :
    ∃ found, (ModuleScan.mk s.typer none spans).run done.length is =
        .ok ⟨s'.typer, none, found.reverse ++ spans⟩ ∧
      List.Forall₂ (fun m span => m.LiesAt start (done ++ is) span) ms found ∧
      found.map (·.first) = is.findIdxs Instruction.beginsModule done.length ∧
      found.map (·.last) = is.findIdxs Instruction.endsModule done.length := by
  induction h generalizing done spans with
  | nil s => exact ⟨[], rfl, .nil, rfl, rfl⟩
  | @script s a s' i is ms home other head tail ih =>
      have hend : i.operation ≠ .endWasmModule := by
        intro he
        rw [he] at home
        exact nomatch (show World.module = .script from home)
      have hdone : Steps start (done ++ [i]) _ :=
        steps_append_iff.mpr ⟨s, hd, steps_singleton_iff.mpr head⟩
      obtain ⟨found, hrun, hlies, hfirst, hlast⟩ := ih spans hdone
        (hs.step head (hn _ (List.mem_cons_self ..)))
        fun j hj => hn j (List.mem_cons_of_mem _ hj)
      obtain ⟨next, ha, rfl⟩ := step_eq_ok_iff.mp head
      rw [List.length_append, List.length_singleton] at hrun hfirst hlast
      rw [List.append_assoc] at hlies
      refine ⟨found, ?_, hlies, ?_, ?_⟩
      · rw [ModuleScan.run, ModuleScan.step_eq ha.arity other hend]
        exact hrun
      · rw [List.findIdxs_cons, if_neg (by simpa [Instruction.beginsModule] using other), hfirst]
      · rw [List.findIdxs_cons, if_neg (by simpa [Instruction.endsModule] using hend), hlast]
  | @module s' is ms m tail ih =>
      have hm : ∀ i ∈ m.instructions, i.NumbersSmall := fun i hi => hn i (List.mem_append_left _ hi)
      have hp := hs.fits.toPlaced
      have hclosed := (hs.step m.step_first (hm _ (List.mem_cons_self ..))).steps m.passes.steps
        fun i hi => hm i (ModuleRun.mem_instructions_of_mem_body hi)
      obtain ⟨layout, hl, -⟩ := ModuleRun.exists_layout hclosed
      obtain ⟨found, hrun, hlies, hfirst, hlast⟩ := ih
        (⟨done.length, done.length + m.body.length + 1, layout⟩ :: spans)
        (steps_append_iff.mpr ⟨m.front, hd, m.steps⟩)
        (hs.steps m.steps hm) fun i hi => hn i (List.mem_append_right _ hi)
      rw [List.length_append] at hrun hfirst hlast
      rw [List.append_assoc] at hlies
      refine ⟨⟨done.length, done.length + m.body.length + 1, layout⟩ :: found, ?_,
        .cons ⟨⟨done, is, rfl, rfl, hd⟩, rfl, hl⟩ hlies, ?_, ?_⟩
      · rw [ModuleScan.run_append (m.scan_eq hp hl), hrun, List.reverse_cons, List.append_assoc]
        rfl
      · rw [List.findIdxs_append, ModuleRun.findIdxs_beginsModule hp, List.map_cons, hfirst]
        rfl
      · rw [List.findIdxs_append, ModuleRun.findIdxs_endsModule hp, List.map_cons, hlast]
        rfl

end Validator

/-! ### The modules of a program -/

namespace Program

variable {p : Program} {e : Environment}

/-- An accepted program is a script with modules in it. -/
lemma exists_script (h : p.validate e = .ok ()) :
    ∃ s ms, Validator.Script (.start e) p.instructions ms s := by
  obtain ⟨s, hsteps, hb⟩ := validate_eq_ok_iff.mp h
  obtain ⟨ms, hms⟩ := hsteps.exists_script Validator.placed_start rfl (by rw [hb]; rfl)
  exact ⟨s, ms, hms⟩

/-- The modules that have been found are lowered. -/
lemma exists_encodeSpan {t : Typer} {ms : List ModuleRun} {found : List ModuleSpan}
    (h : List.Forall₂ (fun m span => m.LiesAt (.start e) p.instructions span) ms found)
    (hm : ∀ m ∈ ms, ∃ layout module, m.LowersTo t layout module) :
    ∃ encoded, found.mapM (p.encodeSpan t) = .ok encoded ∧
      List.Forall₂ (fun m c => ∃ layout, m.EncodesTo p e t layout c) ms encoded ∧
      encoded.map (·.first) = found.map (·.first) ∧ encoded.map (·.last) = found.map (·.last) := by
  induction h with
  | nil => exact ⟨[], rfl, .nil, rfl, rfl⟩
  | @cons m span ms found hl _ ih =>
      obtain ⟨⟨layout, module, hlow⟩, hrest⟩ := List.forall_mem_cons.mp hm
      obtain ⟨encoded, hmap, hall, hfirst, hlast⟩ := ih hrest
      obtain rfl : span.layout = layout := Option.some.inj (hl.layout.symm.trans hlow.current)
      let c : EncodedModule := ⟨span.first, span.last, module,
        span.layout.imports.filterMap (·.source), span.layout.signature⟩
      have hspan : p.encodeSpan t span = .ok c := by
        rw [encodeSpan, hl.inside, hlow.lowered]
        rfl
      obtain ⟨before, after, -, hend, -⟩ := hl.exists_take
      refine ⟨c :: encoded, ?_,
        .cons ⟨span.layout, hlow, hl.passed, hend, hl.inside, rfl, rfl⟩ hall, ?_, ?_⟩
      · rw [List.mapM_cons, hspan, hmap]
        rfl
      · rw [List.map_cons, List.map_cons, hfirst]
      · rw [List.map_cons, List.map_cons, hlast]

/-- **The modules of an accepted program are encoded**, in order, and each stands for the
instructions from its beginning to its end. -/
theorem exists_modules (h : p.validate e = .ok ()) (he : e.IsScriptTyped)
    (hn : p.NumbersSmall) : ∃ s ms encoded, Validator.Script (.start e) p.instructions ms s ∧
      p.encodeModules e = .ok encoded ∧
      List.Forall₂ (fun m c => ∃ layout, m.EncodesTo p e s.typer layout c) ms encoded ∧
      encoded.map (·.first) = p.instructions.findIdxs Instruction.beginsModule ∧
      encoded.map (·.last) = p.instructions.findIdxs Instruction.endsModule := by
  obtain ⟨s, ms, hms⟩ := exists_script h
  have hsound := Validator.sound_start he
  obtain ⟨found, hrun, hlies, hfirst, hlast⟩ :=
    Validator.Script.exists_spans [] hms (.nil _) hsound hn
  obtain ⟨encoded, hmap, hall, hfirst', hlast'⟩ := exists_encodeSpan hlies fun m hm => by
    obtain ⟨hs, hsmall, ht⟩ := hms.sound_of_mem hsound hn m hm
    exact ModuleRun.exists_module hs hsmall ht
  refine ⟨s, ms, encoded, hms, ?_, hall, hfirst'.trans hfirst, hlast'.trans hlast⟩
  rw [encodeModules]
  rw [List.length_nil, List.append_nil] at hrun
  change (do
    let scan ← (ModuleScan.mk (Validator.start e).typer none []).run 0 p.instructions
    scan.spans.reverse.mapM (p.encodeSpan scan.typer)) = _
  rw [hrun]
  change found.reverse.reverse.mapM (p.encodeSpan s.typer) = _
  rw [List.reverse_reverse, hmap]

/-- The modules of an accepted program are lowered. -/
theorem exists_encodedModules (h : p.validate e = .ok ()) (he : e.IsScriptTyped)
    (hn : p.NumbersSmall) : ∃ s ms encoded, Validator.Script (.start e) p.instructions ms s ∧
      p.encodeModules e = .ok encoded ∧
      List.Forall₂ (fun m (c : EncodedModule) => ∃ layout, m.LowersTo s.typer layout c.body)
        ms encoded ∧
      encoded.map (·.first) = p.instructions.findIdxs Instruction.beginsModule ∧
      encoded.map (·.last) = p.instructions.findIdxs Instruction.endsModule := by
  obtain ⟨s, ms, encoded, hms, henc, hall, hfirst, hlast⟩ := exists_modules h he hn
  exact ⟨s, ms, encoded, hms, henc,
    hall.imp fun _ _ ⟨layout, hl⟩ => ⟨layout, hl.lowers⟩, hfirst, hlast⟩

end Program

end EngineFuzz
