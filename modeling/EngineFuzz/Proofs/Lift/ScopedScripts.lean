import Mathlib
import EngineFuzz.Proofs.Lift.EmittedModules
import EngineFuzz.Proofs.Lift.ImportSources
import EngineFuzz.Proofs.Lift.ScriptScopes

/-!
# Lifted scripts are well scoped

The lines of each instruction read what the instruction reads and declare what it defines, in the
scopes that the validator keeps.

* `Lifter.Writes`: lines that lead from scopes to others and declare some variables.
* `Lifter.writes_lines`, `Lifter.writes_moduleLines`: the lines of one instruction, and those of the
  end of a module.
* `Validator.Script.writes`: the lines of a script with modules in it.
* `Program.lift_wellScoped`: the main statement.
-/

namespace EngineFuzz

/-! ### Expressions -/

namespace LinePart

/-- The part is a text or reads one of the variables. -/
def ReadsFrom (vs : List Variable) : LinePart → Prop
  | text _ => True
  | operand v => v ∈ vs
  | _ => False

variable {vs us : List Variable} {parts : List LinePart} {o v : Variable} {name : String}
  {pairs : List (String × Variable)}

lemma forall_listed {p : LinePart → Prop} {part : Variable → LinePart} (ht : p (text ", "))
    (h : ∀ v ∈ us, p (part v)) : ∀ x ∈ listed part us, p x := by
  induction us with
  | nil => simp [listed]
  | cons v rest ih =>
      obtain ⟨hv, hrest⟩ := List.forall_mem_cons.mp h
      cases rest with
      | nil => simpa [listed] using hv
      | cons u rest =>
          rw [listed]
          · exact List.forall_mem_cons.mpr ⟨hv, List.forall_mem_cons.mpr ⟨ht, ih hrest⟩⟩
          · exact List.cons_ne_nil _ _

lemma forall_fields {p : LinePart → Prop} (ht : ∀ s, p (text s))
    (h : ∀ b ∈ pairs, p (operand b.2)) : ∀ x ∈ fields pairs, p x := by
  induction pairs with
  | nil => simp [fields]
  | cons b rest ih =>
      obtain ⟨hb, hrest⟩ := List.forall_mem_cons.mp h
      cases rest with
      | nil => simp [fields, ht, hb]
      | cons c rest =>
          rw [fields]
          · simp only [List.forall_mem_cons]
            exact ⟨ht _, hb, ht _, ih hrest⟩
          · exact List.cons_ne_nil _ _

lemma forall_braced {p : LinePart → Prop} (ht : ∀ s, p (text s)) (h : ∀ x ∈ parts, p x) :
    ∀ x ∈ braced parts, p x := by
  simp only [braced, List.forall_mem_cons, List.forall_mem_append]
  exact ⟨ht _, h, ht _, by simp⟩

lemma readsFrom_arguments (h : us ⊆ vs) : ∀ x ∈ arguments us, x.ReadsFrom vs := by
  simp only [arguments, List.forall_mem_cons, List.forall_mem_append]
  exact ⟨trivial, forall_listed trivial fun _ hv => h hv, trivial, by simp⟩

lemma readsFrom_object (h : ∀ b ∈ pairs, b.2 ∈ vs) : ∀ x ∈ object pairs, x.ReadsFrom vs := by
  unfold object
  split
  · simp [ReadsFrom]
  · exact forall_braced (fun _ => trivial) (forall_fields (fun _ => trivial) h)

lemma mem_of_mem_importPairs {index : Nat} {b : String × Variable}
    (h : b ∈ importPairs index us) : b.2 ∈ us := by
  induction us generalizing index with
  | nil => exact absurd h List.not_mem_nil
  | cons v rest ih =>
      rcases List.mem_cons.mp h with rfl | h
      · exact List.mem_cons_self ..
      · exact List.mem_cons_of_mem _ (ih h)

lemma readsFrom_instanceExports (ho : o ∈ vs) (h : us ⊆ vs) :
    ∀ x ∈ instanceExports o us, x.ReadsFrom vs := by
  have himports : ∀ x ∈ imports us, x.ReadsFrom vs := by
    unfold imports
    split
    · simp [ReadsFrom]
    · refine forall_braced (fun _ => trivial) (List.forall_mem_cons.mpr ⟨trivial, ?_⟩)
      refine forall_braced (fun _ => trivial) (forall_fields (fun _ => trivial) fun b hb => ?_)
      exact h (mem_of_mem_importPairs hb)
  simp only [instanceExports, List.forall_mem_cons, List.forall_mem_append]
  exact ⟨trivial, ho, trivial, himports, trivial, by simp⟩

lemma filterMap_listed {α : Type} {f : LinePart → Option α} {part : Variable → LinePart}
    (hf : ∀ s, f (text s) = none) :
    (listed part us).filterMap f = us.filterMap fun v => f (part v) := by
  induction us with
  | nil => rfl
  | cons v rest ih =>
      cases rest with
      | nil => rfl
      | cons u rest =>
          rw [listed]
          · simp only [List.filterMap_cons, hf, ih]
          · exact List.cons_ne_nil _ _

lemma filterMap_tryStatement {α : Type} {f : LinePart → Option α} {handler : Handler}
    (hf : ∀ s, f (text s) = none) :
    (tryStatement parts handler).filterMap f = parts.filterMap f := by
  simp [tryStatement, braced, hf]

lemma bindings_eq_nil (h : ∀ x ∈ parts, x.ReadsFrom vs) : bindings parts = [] := by
  rw [bindings, List.filterMap_eq_nil_iff]
  intro x hx
  cases x with
  | binding how v => exact absurd (h _ hx) id
  | _ => rfl

lemma assigns_eq_nil (h : ∀ x ∈ parts, x.ReadsFrom vs) : assigns parts = [] := by
  rw [assigns, List.filterMap_eq_nil_iff]
  intro x hx
  cases x with
  | target v => exact absurd (h _ hx) id
  | _ => rfl

lemma reads_subset (h : ∀ x ∈ parts, x.ReadsFrom vs) : reads parts ⊆ vs := by
  intro v hv
  obtain ⟨x, hx, hr⟩ := List.mem_filterMap.mp hv
  cases x with
  | operand u =>
      obtain rfl : u = v := Option.some.inj hr
      exact h _ hx
  | _ => cases hr

end LinePart

/-! ### The lines of an instruction -/

namespace Lifter

/-- Lines that lead from scopes to others and declare these variables, those that are reassigned not
as constants.  They assign what is reassigned and what they declare to be assigned. -/
structure Writes (l : Lifter) (scopes : List (List Variable)) (lines : List ScriptLine)
    (vs : List Variable) (scopes' : List (List Variable)) : Prop where
  run : ScriptLine.Run scopes lines scopes'
  binds : (lines.flatMap (·.bindings)).map (·.2) = vs
  constants : ∀ v, (.constant, v) ∈ lines.flatMap (·.bindings) → v ∉ l.reassigned
  assigns : ∀ v ∈ lines.flatMap (·.assigns),
    v ∈ l.reassigned ∨ (.letting, v) ∈ lines.flatMap (·.bindings)

variable {l : Lifter} {w w' : ScriptWriter} {i : Instruction} {o v : Variable}
  {vs us top : List Variable} {rest scopes scopes' scopes'' : List (List Variable)}
  {parts : List LinePart} {handler : Handler} {lines lines' : List ScriptLine}

lemma Writes.nil : l.Writes scopes [] [] scopes := ⟨rfl, rfl, by simp, by simp⟩

lemma Writes.append (h : l.Writes scopes lines vs scopes')
    (h' : l.Writes scopes' lines' us scopes'') :
    l.Writes scopes (lines ++ lines') (vs ++ us) scopes'' where
  run := ScriptLine.run_append_iff.mpr ⟨scopes', h.run, h'.run⟩
  binds := by rw [List.flatMap_append, List.map_append, h.binds, h'.binds]
  constants v hv := by
    rw [List.flatMap_append, List.mem_append] at hv
    exact hv.elim (h.constants v) (h'.constants v)
  assigns v hv := by
    rw [List.flatMap_append, List.mem_append] at hv ⊢
    exact hv.elim (fun hv => (h.assigns v hv).imp_right .inl)
      fun hv => (h'.assigns v hv).imp_right .inr

/-- Lines that lead from the scope of the script back to it and declare no variable twice are well
scoped. -/
lemma Writes.wellScoped (h : l.Writes [[]] lines vs scopes) (hn : vs.Nodup)
    (hl : scopes.length = 1) : ScriptLine.WellScoped lines where
  declared n x hx v hv := h.run.exists_boundIn hx hv
  once := h.binds ▸ hn
  assignable x hx v hv y hy hconst := by
    have hmem : (.constant, v) ∈ lines.flatMap (·.bindings) := List.mem_flatMap.mpr ⟨y, hy, hconst⟩
    rcases h.assigns v (List.mem_flatMap.mpr ⟨x, hx, hv⟩) with hr | hlet
    · exact h.constants v hmem hr
    · rw [← h.binds] at hn
      exact nomatch List.inj_on_of_nodup_map hn hmem hlet rfl
  closing n x hx hc := h.run.level_pos hx hc
  closed := h.run.level_eq_zero hl

lemma not_mem_of_declarator (h : l.declarator v = .constant) : v ∉ l.reassigned := by
  intro hv
  rw [declarator, if_pos (List.contains_iff_mem.mpr hv)] at h
  exact nomatch h

lemma isInner_declarator : (l.declarator v).isInner = false := by
  unfold declarator
  split <;> rfl

/-- A line that uses what is in scope. -/
lemma writes_singleton {x : ScriptLine} (h : x.Allowed scopes)
    (hc : ∀ v, (.constant, v) ∈ x.bindings → v ∉ l.reassigned)
    (ha : ∀ v ∈ x.assigns, v ∈ l.reassigned) :
    l.Writes scopes [x] (x.bindings.map (·.2)) (x.scopesBehind scopes) where
  run := ⟨h, rfl⟩
  binds := by simp
  constants v hv := hc v (by simpa using hv)
  assigns v hv := .inl (ha v (by simpa using hv))

/-- A line that only reads. -/
lemma writes_reading {kind : LineKind} (vs : List Variable) (h : ∀ x ∈ parts, x.ReadsFrom vs)
    (hv : ∀ v ∈ vs, v ∈ scopes.flatten) (hc : kind.closes = true → 1 < scopes.length) :
    l.Writes scopes [⟨kind, parts⟩] []
      ((if kind.opens then [[]] else []) ++ if kind.closes then scopes.tail else scopes) := by
  have hb : ScriptLine.bindings ⟨kind, parts⟩ = [] := LinePart.bindings_eq_nil h
  have ha : ScriptLine.assigns ⟨kind, parts⟩ = [] := LinePart.assigns_eq_nil h
  have hw : l.Writes scopes [⟨kind, parts⟩] _ _ :=
    writes_singleton ⟨fun v hr => ?_, hc⟩ (by simp [hb]) (by simp [ha])
  · rw [hb, ScriptLine.scopesBehind, ScriptLine.bound, ScriptLine.bound, hb] at hw
    simp only [List.filter_nil, List.map_nil, List.reverse_nil, List.nil_append] at hw
    have hid : ∀ s : List (List Variable), s.modifyHead (fun vs => vs) = s := fun s => by
      cases s <;> rfl
    rw [hid] at hw
    cases kind <;> exact hw
  · rw [ha, List.append_nil] at hr
    exact hv v (LinePart.reads_subset h hr)

/-- A line that only reads and ends no block. -/
lemma writes_open {kind : LineKind} (hk : kind.closes = false) (vs : List Variable)
    (h : ∀ x ∈ parts, x.ReadsFrom vs) (hv : ∀ v ∈ vs, v ∈ scopes.flatten) :
    l.Writes scopes [⟨kind, parts⟩] [] ((if kind.opens then [[]] else []) ++ scopes) := by
  have hw : l.Writes scopes [⟨kind, parts⟩] [] _ := writes_reading vs h hv (by simp [hk])
  rwa [hk, if_neg Bool.false_ne_true] at hw

lemma one_lt_length_of_tail (hs : scopes.tail = top :: rest) : 1 < scopes.length := by
  have := congrArg List.length hs
  rw [List.length_tail, List.length_cons] at this
  omega

/-- A line that ends a block and uses nothing. -/
lemma writes_closing {s : String} {kind : LineKind} (hk : kind.closes = true)
    (hs : scopes.tail = top :: rest) :
    l.Writes scopes [⟨kind, [.text s]⟩] [] ((if kind.opens then [[]] else []) ++ top :: rest) := by
  have hw : l.Writes scopes [⟨kind, [.text s]⟩] [] _ := writes_reading []
    (by simp [LinePart.ReadsFrom]) (by simp) fun _ => one_lt_length_of_tail hs
  rwa [hk, if_pos rfl, hs] at hw

/-- A line that declares a variable. -/
lemma writes_defineLine (vs : List Variable) (h : ∀ x ∈ parts, x.ReadsFrom vs)
    (hv : ∀ v ∈ vs, v ∈ (top :: rest).flatten) :
    l.Writes (top :: rest) [l.defineLine o parts] [o] ((o :: top) :: rest) := by
  have hb : (l.defineLine o parts).bindings = [(l.declarator o, o)] := by
    change (l.declarator o, o) :: LinePart.bindings (parts ++ [_]) = _
    rw [LinePart.bindings, List.filterMap_append, ← LinePart.bindings, LinePart.bindings_eq_nil h]
    rfl
  have ha : (l.defineLine o parts).assigns = [] := by
    change LinePart.assigns (parts ++ [_]) = _
    rw [LinePart.assigns, List.filterMap_append, ← LinePart.assigns, LinePart.assigns_eq_nil h]
    rfl
  have hr : (l.defineLine o parts).reads = LinePart.reads parts := by
    change LinePart.reads (parts ++ [_]) = _
    rw [LinePart.reads, List.filterMap_append]
    exact List.append_nil _
  have hw : l.Writes (top :: rest) [l.defineLine o parts] _ _ :=
    writes_singleton ⟨fun v hr' => ?_, fun h => by cases h⟩ (fun v hmem => ?_) (by simp [ha])
  · rw [hb, ScriptLine.scopesBehind, ScriptLine.bound, ScriptLine.bound, hb] at hw
    simpa [isInner_declarator, ScriptLine.scopesOutside, defineLine, LineKind.closes,
      LineKind.opens] using hw
  · rw [ha, hr, List.append_nil] at hr'
    exact hv v (LinePart.reads_subset h hr')
  · rw [hb, List.mem_singleton, Prod.mk.injEq] at hmem
    rw [hmem.2]
    exact not_mem_of_declarator hmem.1.symm

/-- What an assignment in a statement that may throw uses. -/
lemma tryStatement_parts (o : Variable) (handler : Handler) (h : ∀ x ∈ parts, x.ReadsFrom vs) :
    LinePart.bindings (LinePart.tryStatement (.target o :: .text " = " :: parts) handler) = [] ∧
      LinePart.assigns (LinePart.tryStatement (.target o :: .text " = " :: parts) handler) = [o] ∧
        LinePart.reads (LinePart.tryStatement (.target o :: .text " = " :: parts) handler) ⊆
          vs := by
  have hb : LinePart.bindings parts = [] := LinePart.bindings_eq_nil h
  have ha : LinePart.assigns parts = [] := LinePart.assigns_eq_nil h
  have hr : LinePart.reads parts ⊆ vs := LinePart.reads_subset h
  refine ⟨?_, ?_, ?_⟩
  · rw [LinePart.bindings, LinePart.filterMap_tryStatement fun _ => rfl]
    exact hb
  · rw [LinePart.assigns, LinePart.filterMap_tryStatement fun _ => rfl]
    exact congrArg (o :: ·) ha
  · rw [LinePart.reads, LinePart.filterMap_tryStatement fun _ => rfl]
    exact hr

/-- The line that begins a function. -/
lemma writes_functionLine : l.Writes (top :: rest) [functionLine o us] (o :: us)
    (us.reverse :: (o :: top) :: rest) := by
  have hlisted {α : Type} (f : LinePart → Option α) (hf : ∀ s, f (.text s) = none) :
      (functionLine o us).parts.filterMap f =
        (f (.binding .function o)).toList ++ us.filterMap fun v => f (.binding .parameter v) := by
    simp only [functionLine, List.filterMap_cons, List.filterMap_append, hf,
      LinePart.filterMap_listed hf, List.filterMap_nil, List.append_nil]
    cases f (.binding .function o) <;> rfl
  have hb : (functionLine o us).bindings = (.function, o) :: us.map fun v => (.parameter, v) := by
    refine (hlisted LinePart.bound? fun _ => rfl).trans ?_
    rw [← List.filterMap_eq_map]
    rfl
  have ha : (functionLine o us).assigns = [] :=
    (hlisted LinePart.assigned? fun _ => rfl).trans (List.filterMap_eq_nil_iff.mpr fun _ _ => rfl)
  have hr : (functionLine o us).reads = [] :=
    (hlisted LinePart.read? fun _ => rfl).trans (List.filterMap_eq_nil_iff.mpr fun _ _ => rfl)
  have hw : l.Writes (top :: rest) [functionLine o us] _ _ :=
    writes_singleton ⟨by simp [hr, ha], fun h => by cases h⟩ (by simp [hb]) (by simp [ha])
  rw [ScriptLine.scopesBehind, ScriptLine.bound, ScriptLine.bound, hb] at hw
  simpa [Declarator.isInner, ScriptLine.scopesOutside, LineKind.closes, LineKind.opens,
    functionLine, List.filter_map, Function.comp_def] using hw

/-- The lines that declare a variable and try to give it a value. -/
lemma writes_guardedLines (h : ∀ x ∈ parts, x.ReadsFrom vs)
    (hv : ∀ v ∈ vs, v ∈ (top :: rest).flatten) :
    l.Writes (top :: rest) (guardedLines o parts handler) [o] ((o :: top) :: rest) := by
  obtain ⟨hb, ha, hr⟩ := tryStatement_parts o handler h
  have hbindings : (guardedLines o parts handler).flatMap (·.bindings) = [(.letting, o)] := by
    change (.letting, o) :: (LinePart.bindings _ ++ []) = _
    rw [hb]
    rfl
  have hassigns : (guardedLines o parts handler).flatMap (·.assigns) = [o] := by
    change LinePart.assigns _ ++ [] = _
    rw [ha]
    rfl
  refine ⟨⟨⟨List.forall_mem_nil _, fun h => by cases h⟩, ⟨fun v hmem => ?_, fun h => by cases h⟩,
    ?_⟩, ?_, fun v hmem => ?_, fun v hmem => ?_⟩
  · change v ∈ LinePart.reads _ ++ LinePart.assigns _ at hmem
    rw [ha, List.mem_append, List.mem_singleton] at hmem
    change v ∈ ((o :: top) :: rest).flatten
    rw [List.flatten_cons, List.cons_append, List.mem_cons]
    rcases hmem with hmem | rfl
    · exact .inr (hv v (hr hmem))
    · exact .inl rfl
  · rw [ScriptLine.scopesBehind, ScriptLine.bound, ScriptLine.bound, ScriptLine.bindings, hb]
    rfl
  · rw [hbindings]
    rfl
  · rw [hbindings, List.mem_singleton] at hmem
    cases hmem
  · rw [hassigns, List.mem_singleton] at hmem
    rw [hbindings, hmem]
    exact .inr (List.mem_singleton_self _)

/-- An instruction that is lifted has the operand in front of the arguments that it counts. -/
lemma inputs_ne_nil (h : l.instruction w i = .ok w') (hc : i.operation.argumentCount? ≠ none) :
    i.inputs ≠ [] := by
  obtain ⟨op, inputs, outputs, innerOutputs⟩ := i
  rintro rfl
  cases op <;> first | exact absurd rfl hc | cases h

/-- An expression reads what its instruction reads. -/
lemma readsFrom_expression (ha : i.hasConsistentArity = true)
    (hc : i.operation.argumentCount? ≠ none → i.inputs ≠ []) :
    ∀ x ∈ expression i, x.ReadsFrom i.inputs := by
  obtain ⟨hi, -, -⟩ := Instruction.hasConsistentArity_iff.mp ha
  obtain ⟨op, inputs, outputs, innerOutputs⟩ := i
  dsimp only at hi hc
  cases op with
  | createObject names =>
      refine LinePart.readsFrom_object fun b hb => ?_
      obtain ⟨p, hp, rfl⟩ := List.mem_map.mp hb
      exact (List.of_mem_zip hp).2
  | createArray n =>
      simp only [expression, List.forall_mem_cons, List.forall_mem_append]
      exact ⟨trivial, LinePart.forall_listed trivial fun _ hv => hv, trivial, by simp⟩
  | callFunction n guarded =>
      obtain ⟨f, args, rfl⟩ := List.exists_cons_of_ne_nil (hc fun h => by cases h)
      exact List.forall_mem_cons.mpr ⟨List.mem_cons_self ..,
        LinePart.readsFrom_arguments (List.subset_cons_self ..)⟩
  | callMethod method n guarded =>
      obtain ⟨f, args, rfl⟩ := List.exists_cons_of_ne_nil (hc fun h => by cases h)
      exact List.forall_mem_append.mpr ⟨by simp [LinePart.member, LinePart.ReadsFrom],
        LinePart.readsFrom_arguments (List.subset_cons_self ..)⟩
  | construct n guarded =>
      obtain ⟨f, args, rfl⟩ := List.exists_cons_of_ne_nil (hc fun h => by cases h)
      exact List.forall_mem_cons.mpr ⟨trivial, List.forall_mem_cons.mpr ⟨List.mem_cons_self ..,
        LinePart.readsFrom_arguments (List.subset_cons_self ..)⟩⟩
  | instantiateWasm n =>
      obtain ⟨m, sources, rfl⟩ := List.exists_cons_of_ne_nil (hc fun h => by cases h)
      exact LinePart.readsFrom_instanceExports (List.mem_cons_self ..) (List.subset_cons_self ..)
  -- the others have a fixed number of operands
  | _ =>
      first
      | (obtain ⟨v, rfl⟩ := List.length_eq_one_iff.mp hi
         simp [expression, LinePart.member, LinePart.optionalMember, LinePart.ReadsFrom])
      | (obtain ⟨v, u, rfl⟩ := List.length_eq_two.mp hi
         simp [expression, LinePart.ReadsFrom])
      | simp [expression, LinePart.ReadsFrom]

lemma writes_callLines (ha : i.hasConsistentArity = true) (ho : i.outputs = [o])
    (hc : i.operation.argumentCount? ≠ none → i.inputs ≠ [])
    (hv : ∀ v ∈ i.inputs, v ∈ (top :: rest).flatten) :
    l.Writes (top :: rest) (l.callLines i handler) [o] ((o :: top) :: rest) := by
  rw [callLines, ho]
  split
  · exact writes_guardedLines (readsFrom_expression ha hc) hv
  · exact writes_defineLine _ (readsFrom_expression ha hc) hv

/-- **The lines of an instruction** read what it reads and declare what it defines. -/
theorem writes_lines (ha : i.hasConsistentArity = true) (h : l.instruction w i = .ok w')
    (hhome : i.operation.home = .script) (hne : i.operation ≠ .beginWasmModule)
    (hv : ∀ v ∈ i.inputs, v ∈ scopes.flatten)
    (hr : i.operation = .reassign → ∀ v ∈ i.inputs.head?, v ∈ l.reassigned)
    (hs : (if i.operation.isBlockEnd then scopes.tail else scopes) = top :: rest) :
    l.Writes scopes (l.lines i) i.definedVariables
      ((if i.operation.isBlockStart then [i.innerOutputs.reverse] else []) ++
        (i.outputs.reverse ++ top) :: rest) := by
  obtain ⟨hi, ho, hn⟩ := Instruction.hasConsistentArity_iff.mp ha
  have hc := inputs_ne_nil h
  have hexp := readsFrom_expression ha hc
  obtain ⟨op, inputs, outputs, innerOutputs⟩ := i
  dsimp only at hi ho hn hhome hne hv hr hs hexp
  cases op with
  -- calls and other guarded operations
  | callFunction n guarded | callMethod method n guarded | construct n guarded =>
      obtain ⟨o, rfl⟩ := List.length_eq_one_iff.mp ho
      obtain rfl := List.eq_nil_of_length_eq_zero hn
      obtain rfl : scopes = top :: rest := hs
      exact writes_callLines ha rfl hc hv
  | instantiateWasm n =>
      obtain ⟨o, rfl⟩ := List.length_eq_one_iff.mp ho
      obtain rfl := List.eq_nil_of_length_eq_zero hn
      obtain rfl : scopes = top :: rest := hs
      exact writes_guardedLines hexp hv
  -- blocks
  | beginPlainFunction n =>
      obtain ⟨o, rfl⟩ := List.length_eq_one_iff.mp ho
      obtain rfl : scopes = top :: rest := hs
      exact writes_functionLine
  | beginRepeatLoop n =>
      obtain rfl := List.eq_nil_of_length_eq_zero ho
      obtain ⟨v, rfl⟩ := List.length_eq_one_iff.mp hn
      obtain rfl : scopes = top :: rest := hs
      exact (writes_open rfl [] (by simp [LinePart.ReadsFrom]) (by simp)).append
        (writes_defineLine [] (by simp [LinePart.ReadsFrom]) (by simp))
  | beginElse =>
      obtain rfl := List.eq_nil_of_length_eq_zero ho
      obtain rfl := List.eq_nil_of_length_eq_zero hn
      exact writes_closing rfl hs
  | beginCatch =>
      obtain rfl := List.eq_nil_of_length_eq_zero ho
      obtain ⟨v, rfl⟩ := List.length_eq_one_iff.mp hn
      have hw : l.Writes scopes [⟨.reopening, _⟩] _ _ := writes_singleton
        (x := ⟨.reopening, [.text "\x7d catch (", .binding .caught v, .text ") \x7b"]⟩)
        ⟨List.forall_mem_nil _, fun _ => one_lt_length_of_tail hs⟩
        (by simp [ScriptLine.bindings, LinePart.bindings, LinePart.bound?])
        (List.forall_mem_nil _)
      have hs : scopes.tail = top :: rest := hs
      rw [ScriptLine.scopesBehind, ScriptLine.scopesOutside, LineKind.closes, if_pos rfl, hs] at hw
      exact hw
  | endPlainFunction | endIf | endRepeatLoop | endTryCatch =>
      obtain rfl := List.eq_nil_of_length_eq_zero ho
      obtain rfl := List.eq_nil_of_length_eq_zero hn
      exact writes_closing rfl hs
  | reassign =>
      obtain rfl := List.eq_nil_of_length_eq_zero ho
      obtain rfl := List.eq_nil_of_length_eq_zero hn
      obtain ⟨v, u, rfl⟩ := List.length_eq_two.mp hi
      obtain rfl : scopes = top :: rest := hs
      refine writes_singleton (x := ⟨.plain, [.target v, .text " = ", .operand u, .text ";"]⟩)
        ⟨fun x hx => hv x ?_, fun h => by cases h⟩
        (by simp [ScriptLine.bindings, LinePart.bindings, LinePart.bound?]) fun x hx => ?_
      · exact (List.Perm.swap v u []).mem_iff.mp hx
      · rw [List.mem_singleton.mp hx]
        exact hr rfl v rfl
  | beginWasmModule => exact absurd rfl hne
  | returnValue hasValue =>
      obtain rfl := List.eq_nil_of_length_eq_zero ho
      obtain rfl := List.eq_nil_of_length_eq_zero hn
      obtain rfl : scopes = top :: rest := hs
      cases hasValue with
      | false => exact writes_open rfl _ (by simp [LinePart.ReadsFrom]) hv
      | true =>
          obtain ⟨v, rfl⟩ := List.length_eq_one_iff.mp hi
          exact writes_open rfl _ (by simp [LinePart.ReadsFrom]) hv
  -- the others define a variable, or only read
  | _ =>
      first
      | cases (show World.module = .script from hhome)
      | cases (show World.function = .script from hhome)
      | (obtain ⟨o, rfl⟩ := List.length_eq_one_iff.mp ho
         obtain rfl := List.eq_nil_of_length_eq_zero hn
         obtain rfl : scopes = top :: rest := hs
         exact writes_defineLine _ hexp hv)
      | (obtain rfl := List.eq_nil_of_length_eq_zero ho
         obtain rfl := List.eq_nil_of_length_eq_zero hn
         obtain rfl : scopes = top :: rest := hs
         first
         | obtain ⟨v, rfl⟩ := List.length_eq_one_iff.mp hi
         | obtain ⟨v, u, rfl⟩ := List.length_eq_two.mp hi
         | obtain ⟨v, u, x, rfl⟩ := List.length_eq_three.mp hi
         | skip
         refine writes_open rfl _ ?_ hv
         simp [LinePart.tryStatement, LinePart.braced, LinePart.member, LinePart.ReadsFrom])

/-- **The lines of the end of a module** read what its imports are taken from and declare the
compiled module and the exports. -/
theorem writes_moduleLines {m : EncodedModule} {compiled exports : Variable}
    (ho : i.outputs = [compiled, exports])
    (hv : ∀ v ∈ m.importSources, v ∈ (top :: rest).flatten) :
    l.Writes (top :: rest) (l.moduleLines m i) [compiled, exports]
      ((exports :: compiled :: top) :: rest) := by
  rw [moduleLines, ho]
  refine (writes_defineLine [] (by simp [LinePart.ReadsFrom]) (by simp)).append
    (writes_guardedLines (LinePart.readsFrom_instanceExports (List.mem_cons_self ..)
      (List.subset_cons_self ..)) fun v hmem => ?_)
  rw [List.flatten_cons, List.cons_append, List.mem_cons]
  exact (List.mem_cons.mp hmem).imp_right (hv v)

/-! ### Scripts with modules in them -/

variable {modules : List EncodedModule} {index : Nat} {p : Progress} {is : List Instruction}

/-- Inside a module there are no lines. -/
lemma allLines_inModule {js : List Instruction}
    (hm : ∀ i ∈ is, i.operation ≠ .beginWasmModule ∧ i.operation ≠ .endWasmModule) :
    l.allLines modules index true (is ++ js) =
      l.allLines modules (index + is.length) true js := by
  induction is generalizing index with
  | nil => rfl
  | cons i is ih =>
      obtain ⟨⟨h₁, h₂⟩, hrest⟩ := List.forall_mem_cons.mp hm
      rw [List.cons_append, allLines_cons h₁ h₂, ih hrest, List.length_cons, if_pos rfl,
        List.nil_append, Nat.add_right_comm, Nat.add_assoc]

/-- The lines of a module are those of its end. -/
lemma allLines_module {m : ModuleRun} {c : EncodedModule}
    (hp : m.front.scopes.Placed) (hn : (modules.map (·.last)).Nodup) (hc : c ∈ modules)
    (hl : c.last = index + m.body.length + 1) :
    l.allLines modules index false (m.instructions ++ is) =
      l.moduleLines c m.last ++ l.allLines modules (index + m.instructions.length) false is := by
  have hbody := m.passes.not_module_boundary (Validator.placed_of_step hp m.step_first)
  have hlast : l.allLines modules c.last true (m.last :: is) =
      l.moduleLines c m.last ++ l.allLines modules (c.last + 1) false is := by
    rw [allLines, m.last_operation]
    dsimp only
    rw [find?_last hn hc]
    rfl
  calc l.allLines modules index false (m.instructions ++ is)
      = l.allLines modules (index + 1) true (m.body ++ m.last :: is) := by
        rw [ModuleRun.instructions, List.cons_append, allLines, m.first_operation,
          List.append_assoc]
        rfl
    _ = l.allLines modules c.last true (m.last :: is) := by
        rw [allLines_inModule hbody, hl, Nat.add_right_comm]
    _ = _ := by
        rw [hlast, hl, m.length_instructions, Nat.add_assoc, Nat.add_assoc]

end Lifter

namespace Validator

variable {l : Lifter} {w : ScriptWriter} {modules todo : List EncodedModule} {index : Nat}
  {p' : Lifter.Progress} {s s' : Validator} {is : List Instruction} {ms : List ModuleRun}
  {p : Program} {e : Environment} {t : Typer}

/-- **The lines of a script** with modules in it lead from the scopes of the validator to its
scopes. -/
theorem Script.writes (h : s.Script is ms s') (hs : s.Sound)
    (hl : s.scopes.scopes.length = s.scopes.blocks.length + 1)
    (hn : ∀ i ∈ is, i.NumbersSmall)
    (hr : ∀ i ∈ is, i.operation = .reassign → ∀ v ∈ i.inputs.head?, v ∈ l.reassigned)
    (hall : List.Forall₂ (fun m c => ∃ layout, m.EncodesTo p e t layout c) ms todo)
    (hnodup : (modules.map (·.last)).Nodup) (hsub : todo ⊆ modules)
    (hlast : todo.map (·.last) = is.findIdxs Instruction.endsModule index)
    (hrun : l.run false ⟨w, false, modules⟩ index is = .ok p') :
    ∃ vs, l.Writes s.scopes.scopes (l.allLines modules index false is) vs s'.scopes.scopes ∧
      vs.Sublist (is.flatMap (·.definedVariables)) := by
  induction h generalizing w index todo with
  | nil s => exact ⟨[], .nil, .slnil⟩
  | @script s a s' i is ms home other head tail ih =>
      have hend : i.operation ≠ .endWasmModule := by
        intro he
        rw [he] at home
        exact nomatch (show World.module = .script from home)
      obtain ⟨hni, hnr⟩ := List.forall_mem_cons.mp hn
      obtain ⟨hri, hrr⟩ := List.forall_mem_cons.mp hr
      obtain ⟨next, ha, hm⟩ := step_eq_ok_iff.mp head
      obtain ⟨w₁, hw₁, hrest⟩ : ∃ w₁, l.instruction w i = .ok w₁ ∧
          l.run false ⟨w₁, false, modules⟩ (index + 1) is = .ok p' := by
        rw [Lifter.run, Lifter.step_eq other hend, bind_eq_ok_iff] at hrun
        obtain ⟨q, hq, hrest⟩ := hrun
        obtain ⟨w₁, hw₁, hq⟩ := bind_eq_ok_iff.mp (show (do
          let w ← l.instruction w i
          return (⟨w, false, modules⟩ : Lifter.Progress)) = .ok q from hq)
        obtain rfl := Except.ok.inj hq
        exact ⟨w₁, hw₁, hrest⟩
      rw [List.findIdxs_cons, if_neg (by simpa [Instruction.endsModule] using hend)] at hlast
      have hla : a.scopes.scopes.length = a.scopes.blocks.length + 1 := by
        rw [hm]
        exact ScopeState.length_apply hl ha.position
      obtain ⟨vs, hwrites, hvs⟩ :=
        ih (hs.step head hni) hla hnr hrr hall hsub hlast hrest
      obtain ⟨top, rest, hout⟩ := ScopeState.exists_outside hl ha.position
      have hlines : l.Writes s.scopes.scopes (l.lines i) i.definedVariables a.scopes.scopes := by
        rw [hm, ScopeState.scopes_apply hout]
        refine Lifter.writes_lines ha.arity hw₁ home other
          (fun v hv => (hs.fits.tracks.visible v).mp (ha.visible v hv)) hri ?_
        rw [← hout, ScopeState.outside]
        split <;> rfl
      refine ⟨i.definedVariables ++ vs, ?_, ?_⟩
      · rw [Lifter.allLines_cons other hend]
        exact hlines.append hwrites
      · rw [List.flatMap_cons]
        exact (List.Sublist.refl _).append hvs
  | @module s' is ms m tail ih =>
      have hp := hs.fits.toPlaced
      have hmem : ∀ i ∈ m.instructions, i ∈ m.instructions ++ is :=
        fun i hi => List.mem_append_left _ hi
      rw [List.forall₂_cons_left_iff] at hall
      obtain ⟨c, todo, ⟨layout, hc⟩, hall, rfl⟩ := hall
      obtain ⟨hcm, hsub⟩ := List.cons_subset.mp hsub
      rw [List.findIdxs_append, ModuleRun.findIdxs_endsModule hp, List.map_cons,
        List.singleton_append, List.cons.injEq] at hlast
      obtain ⟨next, ha, -⟩ := step_eq_ok_iff.mp m.step_last
      obtain ⟨-, ho, hinner⟩ := Instruction.hasConsistentArity_iff.mp ha.arity
      rw [m.last_operation] at ho hinner
      obtain ⟨compiled, exports, ho⟩ := List.length_eq_two.mp ho
      have hinner : m.last.innerOutputs = [] := List.eq_nil_of_length_eq_zero hinner
      obtain ⟨w₁, hw₁⟩ :=
        Lifter.exists_run_module w hp ⟨c, hcm, hlast.1⟩
      rw [Lifter.run_append hw₁] at hrun
      obtain ⟨top, rest, hfront⟩ :=
        List.exists_cons_of_length_pos (l := m.front.scopes.scopes) (by omega)
      have hback := m.scopes_back hp hl hfront
      have hmodule : l.Writes m.front.scopes.scopes (l.moduleLines c m.last) [compiled, exports]
          m.back.scopes.scopes := by
        rw [hback, hfront, ho]
        refine Lifter.writes_moduleLines ho fun v hv => ?_
        rw [hc.sources, List.mem_filterMap] at hv
        obtain ⟨d, hd, hdv⟩ := hv
        rw [← hfront]
        exact hc.lowers.mem_scopes_of_source hl (List.mem_filter.mp hd).1 hdv
      obtain ⟨vs, hwrites, hvs⟩ := ih (hs.steps m.steps fun i hi => hn i (hmem i hi))
        (m.steps.length_scopes hl) (fun i hi => hn i (List.mem_append_right _ hi))
        (fun i hi => hr i (List.mem_append_right _ hi)) hall hsub hlast.2 hrun
      refine ⟨[compiled, exports] ++ vs, ?_, ?_⟩
      · rw [Lifter.allLines_module hp hnodup hcm hlast.1]
        exact hmodule.append hwrites
      · rw [List.flatMap_append]
        refine List.Sublist.append ?_ hvs
        have hdef : m.last.definedVariables = [compiled, exports] := by
          rw [Instruction.definedVariables, ho, hinner]
          rfl
        rw [← hdef]
        exact List.sublist_flatten_of_mem (List.mem_map_of_mem ModuleRun.last_mem_instructions)

end Validator

namespace Program

variable {p : Program} {e : Environment}

/-- What an instruction reassigns is reassigned. -/
lemma mem_reassigned {is : List Instruction} {i : Instruction} (hi : i ∈ is)
    (hop : i.operation = .reassign) :
    ∀ v ∈ i.inputs.head?, v ∈ (Lifter.ofInstructions is).reassigned := by
  intro v hv
  refine List.mem_filterMap.mpr ⟨i, hi, ?_⟩
  rw [hop]
  exact hv

/-- **Lifted scripts are well scoped.**  The script of an accepted program is made of lines in which
variables are used as they are declared.  There is a script unless an instruction has the greatest
count of arguments. -/
theorem lift_wellScoped (h : p.validate e = .ok ()) (he : e.IsScriptTyped) (hn : p.NumbersSmall) :
    ∃ encoded, p.encodeModules e = .ok encoded ∧
      (p.CountsSmall → ∃ text, p.lift e false = .ok text) ∧
      ∀ text, p.lift e false = .ok text →
        let lines := (Lifter.ofInstructions p.instructions).allLines encoded 0 false p.instructions
        text = (ScriptWriter.empty.writeAll lines).text ∧ ScriptLine.WellScoped lines := by
  obtain ⟨s, ms, encoded, hms, henc, hall, -, hlast⟩ := exists_modules h he hn
  refine ⟨encoded, henc, fun hc => ?_, fun text htext => ?_⟩
  · obtain ⟨w, hw⟩ : ∃ w, (Lifter.ofInstructions p.instructions).run false
        ⟨.empty, false, encoded⟩ 0 p.instructions = .ok ⟨w, false, encoded⟩ := by
      refine Lifter.exists_run .empty hms Validator.placed_start hc fun k hk => ?_
      rw [← hlast] at hk
      exact List.mem_map.mp hk
    refine ⟨w.text, bind_eq_ok_iff.mpr ⟨(), hms.steps.forM_checkArity, ?_⟩⟩
    exact bind_eq_ok_iff.mpr ⟨encoded, henc, bind_eq_ok_iff.mpr ⟨_, hw, rfl⟩⟩
  · obtain ⟨encoded', q, henc', hrun, rfl⟩ := exists_run_of_lift htext
    obtain rfl : encoded = encoded' := Except.ok.inj (henc.symm.trans henc')
    have hnodup : (encoded.map (·.last)).Nodup := by
      rw [hlast]
      exact List.nodup_findIdxs
    obtain ⟨vs, hwrites, hvs⟩ := hms.writes (Validator.sound_start he) rfl hn
      (fun i hi hop => mem_reassigned hi hop) hall hnodup (List.Subset.refl _) hlast hrun
    have hclosed : s.scopes.scopes.length = 1 := by
      obtain ⟨s', hs', hb⟩ := validate_eq_ok_iff.mp h
      rw [hms.steps.length_scopes rfl, hms.steps.unique hs', hb]
      rfl
    rw [Lifter.run_eq hms.steps.hasConsistentArity hrun]
    exact ⟨rfl, hwrites.wellScoped (hvs.nodup (hms.steps.nodup_definedVariables hn)) hclosed⟩

end Program

theorem lift_wellScoped_successor : ∃ text lines, successor.lift .script false = .ok text ∧
    text = (ScriptWriter.empty.writeAll lines).text ∧ ScriptLine.WellScoped lines := by
  obtain ⟨encoded, -, hlift, hlines⟩ := Program.lift_wellScoped (validate_successor .script)
    Environment.isScriptTyped_script (by decide)
  obtain ⟨text, htext⟩ := hlift fun i hi n hn => by
    fin_cases hi <;> exact nomatch hn
  exact ⟨text, _, htext, hlines text htext⟩

end EngineFuzz
