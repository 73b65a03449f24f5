import Mathlib
import EngineFuzz.Proofs.Mutation.Treatments

/-!
# Loops while a program is rebuilt

The new names of what steers a loop are kept from generators and belong to no other variables of the
program, so that nothing else can use them.

* `Builder.Withholds`: a variable that is the new name of none but given variables, with
  `Mutation.Treats.withholds` and `Mutation.Treats.not_mem_inputs`.
* `Mutation.Treats.exists_generated`: a loop in generated code.
* `Mutation.Treats.exists_copied`: a loop of the program whose control is kept.
-/

namespace EngineFuzz

namespace Builder

/-- New names of variables are not fresh. -/
def Named (b : Builder) : Prop := ∀ u v, b.renamed? u = some v → v.number < b.nextVariable

/-- The variable is kept from generators, and it is the new name of none but the given variables. -/
structure Withholds (b : Builder) (olds : List Variable) (v : Variable) : Prop where
  guards : b.Guards v
  names : ∀ u, b.renamed? u = some v → u ∈ olds

end Builder

namespace Mutation

variable [Regard] {b b' : Builder} {t : Treatment} {ts : List Treatment} {j : Instruction}
  {gen js : List Instruction} {olds : List Variable} {u v : Variable}

namespace Treated

omit [Regard] in
lemma renamed?_eq (h : Treated t b b' j gen) :
    b'.renamed? u = (b.rename t.instruction.definedVariables j.definedVariables).renamed? u := by
  rw [Builder.renamed?, h.names]
  rfl

omit [Regard] in
/-- An instruction that is not chosen is appended under the new names. -/
lemma eq_emitted (h : Treated t b b' j gen) (hu : t.isChosen = false) :
    j = b.emitted t.instruction.operation (b.adoptedInputs t.instruction) ∧ gen = [] := by
  obtain ⟨hop, hin, hgen⟩ := h.kept hu
  rw [← hop, ← hin]
  exact ⟨h.emitted, hgen⟩

variable (h : Treated t b b' j gen) (hs : b.Sound) (hr : b.Reaches b') (hb : b'.Regarded)
include h hs hr hb

/-- What is defined in place of an instruction is new. -/
lemma fresh (hv : v ∈ (j :: gen).flatMap (·.definedVariables)) :
    b.nextVariable ≤ v.number ∧ v.number < b'.nextVariable :=
  (hr.definedVariables hs hb h.instructions).2 v hv

lemma named (hn : b.Named) : b'.Named := by
  intro u v huv
  rw [h.renamed?_eq] at huv
  rcases Builder.mem_of_renamed?_rename huv with huv | hv
  · exact UInt32.lt_of_lt_of_le (hn u v huv) (hr.steps hs hb).1
  · exact (h.fresh hs hr hb (List.mem_flatMap.mpr ⟨j, List.mem_cons_self .., hv⟩)).2

lemma withholds (hw : b.Withholds olds v) : b'.Withholds olds v where
  guards := hr.guards hs hb hw.guards
  names u huv := by
    rw [h.renamed?_eq] at huv
    rcases Builder.mem_of_renamed?_rename huv with huv | hv
    · exact hw.names u huv
    · have hle := (h.fresh hs hr hb (List.mem_flatMap.mpr ⟨j, List.mem_cons_self .., hv⟩)).1
      exact absurd hw.guards.old (UInt32.not_lt.mpr hle)

/-- What is withheld is not used, unless the instruction uses one of the given variables. -/
lemma not_mem_inputs (hw : b.Withholds olds v) (ho : t.instruction.inputs.Disjoint olds) :
    ∀ k ∈ j :: gen, v ∉ k.inputs := by
  refine List.forall_mem_cons.mpr ⟨fun hv => ?_, ?_⟩
  · rcases h.inputs v hv with ⟨u, hu, huv⟩ | hv
    · exact ho hu (hw.names u huv)
    · have hh := (Builder.mem_visibleVariables_iff.mp hv).2
      rw [hw.guards.hidden] at hh
      exact absurd hh (by decide)
  · obtain ⟨S, hsteers, -⟩ := h.steers [v] fun w hw' => List.mem_singleton.mp hw' ▸ hw.guards
    obtain ⟨hnodup, hfresh⟩ := hr.definedVariables hs hb h.instructions
    rw [List.flatMap_cons] at hnodup hfresh
    refine hsteers.not_mem_inputs (List.nodup_append'.mp hnodup).2.1 ?_ (List.mem_singleton_self v)
    intro w hw' hmem
    obtain rfl := List.mem_singleton.mp hw'
    exact UInt32.not_lt.mpr (hfresh w (List.mem_append_right _ hmem)).1 hw.guards.old

/-- A frozen instruction that is kept withholds what it defines. -/
lemma withholds_defined (hn : b.Named) (hf : t.isFrozen = true)
    (hold : t.instruction.definedVariables = [u]) (hnew : j.definedVariables = [v])
    (htype : (b'.typeOf v).isScriptValue = false) :
    b'.Withholds [u] v ∧ b'.renamed? u = some v := by
  obtain ⟨hle, hlt⟩ := h.fresh hs hr hb (v := v)
    (List.mem_flatMap.mpr ⟨j, List.mem_cons_self .., by rw [hnew]; exact List.mem_singleton_self v⟩)
  have hnames (w : Variable) : b'.renamed? w = if u = w then some v else b.renamed? w := by
    rw [h.renamed?_eq, hold, hnew]
    exact Builder.renamed?_insert
  have hu : b'.renamed? u = some v := by rw [hnames, if_pos rfl]
  refine ⟨⟨⟨?_, htype, hlt⟩, fun w hw => ?_⟩, hu⟩
  · exact h.hides hf u (by rw [hold]; exact List.mem_singleton_self u) v hu
  · rw [hnames] at hw
    split at hw
    · rename_i huw
      exact huw ▸ List.mem_singleton_self u
    · exact absurd (hn w v hw) (UInt32.not_lt.mpr hle)

end Treated

namespace Treats

variable (h : Treats ts b b' js) (hs : b.Sound) (hb : b'.Regarded)
include h hs hb

lemma named (hn : b.Named) : b'.Named := by
  induction h with
  | nil b => exact hn
  | cons reaches head tail ih =>
      have hm := (tail.reaches reaches.sound).regarded hb
      exact ih reaches.sound hb (head.named hs reaches hm hn)

lemma withholds (hw : b.Withholds olds v) : b'.Withholds olds v := by
  induction h with
  | nil b => exact hw
  | cons reaches head tail ih =>
      have hm := (tail.reaches reaches.sound).regarded hb
      exact ih reaches.sound hb (head.withholds hs reaches hm hw)

/-- What is withheld is not used, unless an instruction uses one of the given variables. -/
lemma not_mem_inputs (hw : b.Withholds olds v)
    (ho : ∀ t ∈ ts, t.instruction.inputs.Disjoint olds) : ∀ k ∈ js, v ∉ k.inputs := by
  induction h with
  | nil b => exact fun k hk => absurd hk List.not_mem_nil
  | cons reaches head tail ih =>
      obtain ⟨ht, hts⟩ := List.forall_mem_cons.mp ho
      have hm := (tail.reaches reaches.sound).regarded hb
      exact List.forall_mem_append.mpr ⟨head.not_mem_inputs hs reaches hm hw ht,
        ih reaches.sound hb (head.withholds hs reaches hm hw) hts⟩

end Treats

/-! ### Loops that are generated -/

/-- The label and the counter of a loop in generated code are used by nothing else. -/
lemma Treats.exists_generated {m m' : Builder} {ts₂ : List Treatment}
    {before rest : List Instruction} {i : Instruction}
    (hs : m.Sound) (hn : m.Named) (hr : m.Reaches m')
    (ht : Treated t m m' j gen) (h : Treats ts₂ m' b' js) (hb : b'.Regarded)
    (he : gen = before ++ i :: rest) (hi : i.operation = .wasmBeginLoop) :
    ∃ (l : CountedLoop) (front after : List Instruction), before.length = front.length + 1 ∧
      gen = front ++ l.code ++ after ∧
      ∀ v ∈ [l.label, l.counter], ∀ k ∈ l.body ++ (after ++ js), v ∉ k.inputs := by
  have hb' : m'.Regarded := (h.reaches hr.sound).regarded hb
  obtain ⟨hnodup, hfresh⟩ := hr.definedVariables hs hb' ht.instructions
  rw [List.flatMap_cons] at hnodup
  obtain ⟨S, hsteers, hS⟩ := ht.steers [] (by simp)
  obtain ⟨l, front, after, hl, hgen, hlabel, hcounter, hu⟩ := hsteers.exists_code
    (List.nodup_append'.mp hnodup).2.1 (List.disjoint_nil_left _) he hi
  refine ⟨l, front, after, hl, hgen, fun v hv => ?_⟩
  rw [← List.append_assoc]
  refine List.forall_mem_append.mpr ⟨hu v hv, ?_⟩
  have hdefined : v ∈ gen.flatMap (·.definedVariables) := by
    rw [hgen, List.flatMap_append, List.flatMap_append, CountedLoop.definedVariables_code]
    simp only [List.mem_cons, List.not_mem_nil, or_false] at hv
    rcases hv with rfl | rfl <;> simp
  have hvS : v ∈ S := by
    simp only [List.mem_cons, List.not_mem_nil, or_false] at hv
    rcases hv with rfl | rfl
    · exact hlabel
    · exact hcounter
  -- no variable of the program is called by its name
  have hw : m'.Withholds [] v := by
    refine ⟨hS v hvS, fun u huv => ?_⟩
    rw [ht.renamed?_eq] at huv
    rcases Builder.mem_of_renamed?_rename huv with huv | hv'
    · have hle := (hfresh v (List.mem_flatMap.mpr ?_)).1
      · exact absurd (hn u v huv) (UInt32.not_lt.mpr hle)
      · obtain ⟨k, hk, hkv⟩ := List.mem_flatMap.mp hdefined
        exact ⟨k, List.mem_cons_of_mem _ hk, hkv⟩
    · exact absurd hdefined ((List.nodup_append'.mp hnodup).2.2 hv')
  exact h.not_mem_inputs hr.sound hb hw fun _ _ => List.disjoint_nil_right _

/-! ### Loops of the program -/

/-- What is put in place of an instruction has as many inputs and outputs as it should. -/
lemma Treated.hasConsistentArity (h : Treated t b b' j gen) (hs : b.Sound) (hr : b.Reaches b')
    (hb : b'.Regarded) : j.hasConsistentArity = true := by
  obtain ⟨m, hhead, -⟩ := Validator.steps_cons_iff.mp (hr.accepted hs hb h.instructions)
  obtain ⟨next, ha, -⟩ := Validator.step_eq_ok_iff.mp hhead
  exact ha.arity

/-- The types behind an instruction that was appended alone. -/
lemma Treated.typer_eq (h : Treated t b b' j []) (hs : b.Sound) (hr : b.Reaches b')
    (hb : b'.Regarded) : b'.typer = b.typer.apply j :=
  (hr.accepted hs hb h.instructions).typer_eq

/-- An instruction that steers a loop is neither changed nor followed by generated code. -/
structure Treatment.IsKept (t : Treatment) : Prop where
  frozen : t.isFrozen = true
  notChosen : t.isChosen = false

namespace Treated

variable {op : Operation} {inputs : List Variable}

omit [Regard] in
lemma renamed?_of_not_mem (h : Treated t b b' j gen)
    (hu : u ∉ t.instruction.definedVariables) : b'.renamed? u = b.renamed? u := by
  rw [h.renamed?_eq, Builder.renamed?_rename_of_not_mem hu]

omit [Regard] in
/-- A kept instruction with one output. -/
lemma exists_value (h : Treated t b b' j gen) (hk : t.IsKept)
    (hi : t.instruction = ⟨op, inputs, [u], []⟩) (ho : op.numOutputs = 1)
    (hn : op.numInnerOutputs = 0) :
    ∃ v, j = ⟨op, inputs.map b.newName, [v], []⟩ ∧ gen = [] ∧ b'.renamed? u = some v := by
  obtain ⟨hj, hgen⟩ := h.eq_emitted hk.notChosen
  rw [hi, Build.emitted_value ho hn] at hj
  refine ⟨_, hj, hgen, ?_⟩
  rw [h.renamed?_eq, hi, hj]
  exact Builder.renamed?_insert.trans (if_pos rfl)

omit [Regard] in
/-- A kept instruction without outputs. -/
lemma eq_effect (h : Treated t b b' j gen) (hk : t.IsKept)
    (hi : t.instruction = ⟨op, inputs, [], []⟩) (ho : op.numOutputs = 0)
    (hn : op.numInnerOutputs = 0) : j = ⟨op, inputs.map b.newName, [], []⟩ ∧ gen = [] := by
  obtain ⟨hj, hgen⟩ := h.eq_emitted hk.notChosen
  rw [hi, Build.emitted_effect ho hn] at hj
  exact ⟨hj, hgen⟩

/-- The counter of a loop. -/
lemma exists_counter (h : Treated t b b' j gen) (hs : b.Sound) (hr : b.Reaches b')
    (hb : b'.Regarded) (hn : b.Named) (hk : t.IsKept)
    (hi : t.instruction = ⟨.wasmConst (.i32 10), [], [u], []⟩) :
    ∃ v, j = ⟨.wasmConst (.i32 10), [], [v], []⟩ ∧ gen = [] ∧ b'.Withholds [u] v ∧
      b'.renamed? u = some v := by
  obtain ⟨v, rfl, rfl, -⟩ := h.exists_value hk hi rfl rfl
  have htyper := h.typer_eq hs hr hb
  have harity := h.hasConsistentArity hs hr hb
  refine ⟨v, rfl, rfl, h.withholds_defined hs hr hb hn hk.frozen (by rw [hi]; rfl) rfl ?_⟩
  have htype := Typer.map_typeOf_outputs (t := b.typer) harity
    (List.nodup_singleton v) Operation.noConfusion
  rw [← htyper] at htype
  have hv : b'.typeOf v = .wasm .i32 := List.head_eq_of_cons_eq htype
  rw [hv]
  rfl

/-- The label of a loop. -/
lemma exists_label (h : Treated t b b' j gen) (hs : b.Sound) (hr : b.Reaches b')
    (hb : b'.Regarded) (hn : b.Named) (hk : t.IsKept)
    (hi : t.instruction = ⟨.wasmBeginLoop, [], [], [u]⟩) :
    ∃ v, j = ⟨.wasmBeginLoop, [], [], [v]⟩ ∧ gen = [] ∧ b'.Withholds [u] v ∧
      b'.renamed? u = some v := by
  obtain ⟨hj, rfl⟩ := h.eq_emitted hk.notChosen
  rw [hi, Build.emitted_inner rfl rfl] at hj
  generalize Build.firstOf _ = v at hj
  obtain rfl : j = ⟨.wasmBeginLoop, [], [], [v]⟩ := hj
  have htyper := h.typer_eq hs hr hb
  have harity := h.hasConsistentArity hs hr hb
  refine ⟨v, rfl, rfl, h.withholds_defined hs hr hb hn hk.frozen (by rw [hi]; rfl) rfl ?_⟩
  have htype := Typer.map_typeOf_innerOutputs (t := b.typer) harity
    (List.nodup_singleton v) Operation.noConfusion
  rw [← htyper] at htype
  have hv : b'.typeOf v = .label := List.head_eq_of_cons_eq htype
  rw [hv]
  rfl

end Treated

omit [Regard] in
lemma newName_eq (h : b.renamed? u = some v) : b.newName u = v := by
  rw [Builder.newName, h]
  rfl

/-- What steers a loop is counted down under the new names. -/
lemma Treats.exists_countDown {es : List Treatment} {l : CountedLoop} {c l' : Variable}
    (h : Treats es b b' js) (hes : es.map (·.instruction) = l.exit.dropLast)
    (hk : ∀ t ∈ es, t.IsKept) (hone : l.one ≠ l.label ∧ l.one ≠ l.counter)
    (hnext : l.next ≠ l.label ∧ l.next ≠ l.counter) (hc : b.renamed? l.counter = some c)
    (hl : b.renamed? l.label = some l') :
    ∃ one next, js = (CountedLoop.mk c l' one next []).exit.dropLast := by
  obtain ⟨e₁, es, rfl, h₁, hes⟩ := List.map_eq_cons_iff.mp hes
  obtain ⟨e₂, es, rfl, h₂, hes⟩ := List.map_eq_cons_iff.mp hes
  obtain ⟨e₃, es, rfl, h₃, hes⟩ := List.map_eq_cons_iff.mp hes
  obtain ⟨e₄, es, rfl, h₄, hes⟩ := List.map_eq_cons_iff.mp hes
  obtain rfl := List.map_eq_nil_iff.mp hes
  simp only [List.forall_mem_cons] at hk
  obtain ⟨hk₁, hk₂, hk₃, hk₄, -⟩ := hk
  cases h with | cons _ t₁ h =>
  cases h with | cons _ t₂ h =>
  cases h with | cons _ t₃ h =>
  cases h with | cons _ t₄ h =>
  cases h
  -- the label and the counter keep their new names
  have hkeep {m m' : Builder} {e j v w gen} (t : Treated e m m' j gen)
      (hv : v ∉ e.instruction.definedVariables) (hw : m.renamed? v = some w) :
      m'.renamed? v = some w := (t.renamed?_of_not_mem hv).trans hw
  obtain ⟨one, rfl, rfl, hone₁⟩ := t₁.exists_value hk₁ h₁ rfl rfl
  have hc₁ := hkeep t₁ (by simp [h₁, Instruction.definedVariables, Ne.symm hone.2]) hc
  have hl₁ := hkeep t₁ (by simp [h₁, Instruction.definedVariables, Ne.symm hone.1]) hl
  obtain ⟨next, rfl, rfl, hnext₂⟩ := t₂.exists_value hk₂ h₂ rfl rfl
  have hc₂ := hkeep t₂ (by simp [h₂, Instruction.definedVariables, Ne.symm hnext.2]) hc₁
  have hl₂ := hkeep t₂ (by simp [h₂, Instruction.definedVariables, Ne.symm hnext.1]) hl₁
  obtain ⟨rfl, rfl⟩ := t₃.eq_effect hk₃ h₃ rfl rfl
  have hl₃ := hkeep t₃ (by simp [h₃, Instruction.definedVariables]) hl₂
  have hn₃ := hkeep t₃ (by simp [h₃, Instruction.definedVariables]) hnext₂
  obtain ⟨rfl, rfl⟩ := t₄.eq_effect hk₄ h₄ rfl rfl
  refine ⟨one, next, ?_⟩
  simp [CountedLoop.exit, newName_eq hc₁, newName_eq hone₁, newName_eq hc₂, newName_eq hnext₂,
    newName_eq hl₃, newName_eq hn₃]

/-- The end of a loop, behind which code may be generated. -/
lemma Treats.exists_end {ta : List Treatment} (h : Treats (t :: ta) b b' js) (hs : b.Sound)
    (hb : b'.Regarded) (ht : t.instruction = ⟨.wasmEndLoop, [], [], []⟩) :
    ∃ after, js = ⟨.wasmEndLoop, [], [], []⟩ :: after := by
  cases h with
  | @cons _ _ _ m _ j gen js reaches head tail =>
      have hm := (tail.reaches reaches.sound).regarded hb
      have hform := head.form
      rw [ht] at hform
      have hop := Operation.eq_of_form_of_isBlockEnd hform rfl
      have harity := head.hasConsistentArity hs reaches hm
      obtain ⟨hin, -, -⟩ := Instruction.hasConsistentArity_iff.mp harity
      rw [hop] at hin
      have hj := head.emitted
      rw [hop, List.length_eq_zero_iff.mp hin, Build.emitted_effect rfl rfl] at hj
      exact ⟨gen ++ js, by rw [hj]; rfl⟩

/-- The treatments of the instructions of a loop, in front of which and behind which there are
others. -/
structure Treatment.Loop (l : CountedLoop) (counter label : Treatment)
    (body countDown : List Treatment) (last : Treatment) : Prop where
  counter : counter.instruction = ⟨.wasmConst (.i32 10), [], [l.counter], []⟩
  label : label.instruction = ⟨.wasmBeginLoop, [], [], [l.label]⟩
  body : body.map (·.instruction) = l.body
  countDown : countDown.map (·.instruction) = l.exit.dropLast
  last : last.instruction = ⟨.wasmEndLoop, [], [], []⟩

omit [Regard] in
/-- Where a loop begins, the treatments are those of its instructions. -/
lemma Treatment.exists_loop {ts₁ ts₂ : List Treatment} {l : CountedLoop}
    {front after : List Instruction}
    (h : (ts₁ ++ t :: ts₂).map (·.instruction) = front ++ l.code ++ after)
    (hl : ts₁.length = front.length + 1) :
    ∃ tf tc body countDown last ta, ts₁ = tf ++ [tc] ∧
      ts₂ = body ++ (countDown ++ last :: ta) ∧ tf.map (·.instruction) = front ∧
      ta.map (·.instruction) = after ∧ Treatment.Loop l tc t body countDown last := by
  have hexit : l.exit = l.exit.dropLast ++ [⟨.wasmEndLoop, [], [], []⟩] := rfl
  have hcode : front ++ l.code ++ after =
      (front ++ [⟨.wasmConst (.i32 10), [], [l.counter], []⟩]) ++
        ⟨.wasmBeginLoop, [], [], [l.label]⟩ ::
        (l.body ++ (l.exit.dropLast ++ ⟨.wasmEndLoop, [], [], []⟩ :: after)) := by
    rw [CountedLoop.code_eq, hexit]
    simp
  rw [hcode, List.map_append, List.map_cons] at h
  obtain ⟨h₁, h₂⟩ := List.append_inj h (by simp [hl])
  obtain ⟨hlabel, h₂⟩ := List.cons.inj h₂
  obtain ⟨tf, us, rfl, hf, hus⟩ := List.map_eq_append_iff.mp h₁
  obtain ⟨tc, us, rfl, hc, hus⟩ := List.map_eq_cons_iff.mp hus
  obtain rfl := List.map_eq_nil_iff.mp hus
  obtain ⟨body, us, rfl, hbody, hus⟩ := List.map_eq_append_iff.mp h₂
  obtain ⟨countDown, us, rfl, hcd, hus⟩ := List.map_eq_append_iff.mp hus
  obtain ⟨last, ta, rfl, hlast, hafter⟩ := List.map_eq_cons_iff.mp hus
  exact ⟨tf, tc, body, countDown, last, ta, rfl, rfl, hf, hafter, hc, hlabel, hbody, hcd, hlast⟩

lemma Treats.renamed?_of_not_mem (h : Treats ts b b' js)
    (hu : ∀ t ∈ ts, u ∉ t.instruction.definedVariables) : b'.renamed? u = b.renamed? u := by
  induction h with
  | nil b => rfl
  | cons _ head _ ih =>
      obtain ⟨ht, hts⟩ := List.forall_mem_cons.mp hu
      rw [ih hts, head.renamed?_of_not_mem ht]

/-- **A loop of the program** is there under new names, and neither its label nor its counter is
used by anything else. -/
theorem Treats.exists_copied {m m' : Builder} {tf body countDown ta : List Treatment}
    {tc last : Treatment} {l : CountedLoop} {js₁ js₂ : List Instruction}
    (h₁ : Treats (tf ++ [tc]) b m js₁) (hr : m.Reaches m') (ht : Treated t m m' j gen)
    (h₂ : Treats (body ++ (countDown ++ last :: ta)) m' b' js₂) (hs : b.Sound) (hn : b.Named)
    (hb : b'.Regarded) (hloop : Treatment.Loop l tc t body countDown last)
    (hkept : ∀ e ∈ tc :: t :: countDown, e.IsKept)
    (halone : l.Alone (tf.map (·.instruction)) (ta.map (·.instruction))) :
    gen = [] ∧ ∃ (l' : CountedLoop) (front after : List Instruction),
      js₁.length = front.length + 1 ∧ js₁ ++ j :: js₂ = front ++ l'.code ++ after ∧
      ∀ v ∈ [l'.label, l'.counter], ∀ k ∈ l'.body ++ after, v ∉ k.inputs := by
  simp only [List.forall_mem_cons] at hkept
  obtain ⟨hkc, hkt, hkd⟩ := hkept
  have hbm' := (h₂.reaches hr.sound).regarded hb
  have hbm := hr.regarded hbm'
  -- the counter and the label
  obtain ⟨m₀, front, x, rfl, hf, hx⟩ := h₁.exists_of_append
  cases hx with | cons rc hc hnil =>
  cases hnil
  have hs₀ := (hf.reaches hs).sound
  have hn₀ := hf.named hs (rc.regarded hbm) hn
  obtain ⟨c, rfl, rfl, hwc, hrc⟩ := hc.exists_counter hs₀ rc hbm hn₀ hkc hloop.counter
  obtain ⟨l', rfl, rfl, hwl, hrl⟩ := ht.exists_label rc.sound hr hbm' (hc.named hs₀ rc hbm hn₀) hkt
    hloop.label
  have hwc' := ht.withholds rc.sound hr hbm' hwc
  have hrc' := (ht.renamed?_of_not_mem (u := l.counter)
    (by simp [hloop.label, Instruction.definedVariables, Ne.symm halone.label])).trans hrc
  -- the body and the end of the loop
  obtain ⟨n, bs, xs, rfl, hbody, hxs⟩ := h₂.exists_of_append
  obtain ⟨n', ds, es, rfl, hdown, hend⟩ := hxs.exists_of_append
  have hunused {i : Instruction} (hi : i ∈ l.body ++ ta.map (·.instruction)) : l.Unused i :=
    halone.unused i (by
      rw [List.append_assoc]
      exact List.mem_append_right _ hi)
  have hdefined (u : Variable) (hu : u ∈ [l.label, l.counter]) :
      n.renamed? u = m'.renamed? u := hbody.renamed?_of_not_mem fun e he =>
    (hunused (List.mem_append_left _ (hloop.body ▸ List.mem_map_of_mem he)) u hu).2
  obtain ⟨one, next, rfl⟩ := hdown.exists_countDown hloop.countDown hkd halone.one halone.next
    ((hdefined _ (by simp)).trans hrc') ((hdefined _ (by simp)).trans hrl)
  have hsn := (hbody.reaches hr.sound).sound
  have hsn' := (hdown.reaches hsn).sound
  obtain ⟨after, rfl⟩ := hend.exists_end hsn' hb hloop.last
  have hbn' := (hend.reaches hsn').regarded hb
  have hbn := (hdown.reaches hsn).regarded hbn'
  have hnot {u v : Variable} (hu : u ∈ [l.label, l.counter]) (hw : m'.Withholds [u] v) :
      ∀ k ∈ bs ++ after, v ∉ k.inputs := by
    refine List.forall_mem_append.mpr ⟨?_, fun k hk => ?_⟩
    · refine hbody.not_mem_inputs hr.sound hbn hw fun e he => List.disjoint_singleton.mpr ?_
      exact (hunused (List.mem_append_left _ (hloop.body ▸ List.mem_map_of_mem he)) u hu).1
    · have hw' := hdown.withholds hsn hbn' (hbody.withholds hr.sound hbn hw)
      refine hend.not_mem_inputs hsn' hb hw' (List.forall_mem_cons.mpr ⟨?_, fun e he => ?_⟩) k
        (List.mem_cons_of_mem _ hk)
      · rw [hloop.last]
        exact List.disjoint_nil_left _
      · refine List.disjoint_singleton.mpr ?_
        exact (hunused (List.mem_append_right _ (List.mem_map_of_mem he)) u hu).1
  refine ⟨rfl, ⟨c, l', one, next, bs⟩, front, after, by simp, ?_, ?_⟩
  · simp [CountedLoop.code_eq, CountedLoop.exit]
  · exact List.forall_mem_cons.mpr
      ⟨hnot (by simp) hwl, List.forall_mem_singleton.mpr (hnot (by simp) hwc')⟩

end Mutation

end EngineFuzz
