import Mathlib
import EngineFuzz.Generation.Run
import EngineFuzz.Proofs.Generation.Statements

/-!
# Generators of script code

Each generator of script code appends well-formed code wherever a script may stand, given a known
variable for what it reads and a computation for nested code that does the same.

* `Build.Nests`: a computation that may be run for nested code.
* `Generate.appends_functionWith`, `Generate.appends_callOnce`: functions with generated code, and
  their calls.
-/

namespace EngineFuzz

namespace Build

variable {α : Type} {p : Place} {Γ : Known} {m : Build α} {n : ℕ} {b : Builder}
  {P : α → Prop}

/-- The same draw over and over. -/
lemma draws_times (h : ∀ b, Draws m b P) :
    Draws (times n m) b fun as => as.length = n ∧ ∀ a ∈ as, P a := by
  induction n generalizing b with
  | zero => exact Draws.pure ⟨rfl, nofun⟩
  | succ n ih =>
      refine (h b).bind fun a words ha => ih.bind fun as words' ⟨hl, has⟩ => ?_
      exact Draws.pure ⟨by rw [List.length_cons, hl], List.forall_mem_cons.mpr ⟨ha, has⟩⟩

lemma draws_randomRegExp : Draws randomRegExp b fun _ => True :=
  Draws.look (Draws.any draws_any fun _ _ => Draws.any draws_any fun _ _ => Draws.pure trivial)

variable [Regard]

/-- The computation appends well-formed code at every place. -/
def Nests (m : Build α) : Prop := ∀ p Γ, Appends p Γ m fun _ Δ => Δ = []

lemma Nests.appends (h : Nests m) : Appends p Γ m fun _ _ => True :=
  (h p Γ).mono fun _ _ _ => trivial

lemma nests_pure : Nests (pure ()) := fun _ _ => .pure rfl (List.nil_subset _)

/-- A computation that is run over and over for its effect. -/
lemma Appends.timesEffect (h : Appends p Γ m fun _ Δ => Δ = []) :
    Appends p Γ (Build.times n m) fun _ Δ => Δ = [] := by
  induction n with
  | zero => exact .pure rfl (List.nil_subset _)
  | succ n ih => exact h.silent fun _ => ih.silent fun _ => .pure rfl (List.nil_subset _)

/-- A computation in front of whose result nothing matters. -/
lemma Appends.true {Q : α → Known → Prop} (h : Appends p Γ m Q) : Appends p Γ m fun _ _ => True :=
  h.mono fun _ _ _ => trivial

end Build

namespace Generate

open Build

variable [Regard] {p : Place} {Γ : Known} {v w : Variable} {nested : Build Unit} {n : ℕ}
  {b : Builder}

section

variable (hp : p.context.isScript = true)
include hp

/-! ### Values -/

lemma appends_integerValue : Appends p Γ integerValue fun _ Δ => Δ = [] :=
  (appends_freshInteger hp).drop

lemma appends_bigIntValue : Appends p Γ bigIntValue fun _ Δ => Δ = [] :=
  .draws (fun _ => draws_randomInteger) fun _ _ => (appends_bigInt hp).drop

lemma appends_freshFloat : Appends p Γ freshFloat fun v Δ => v ∈ Δ.vars :=
  .draws (fun _ => draws_randomFloat) fun _ _ => appends_constant hp ⟨rfl, rfl, rfl⟩ rfl rfl

lemma appends_floatValue : Appends p Γ floatValue fun _ Δ => Δ = [] :=
  (appends_freshFloat hp).drop

lemma appends_freshString : Appends p Γ freshString fun v Δ => v ∈ Δ.vars :=
  .draws (fun _ => draws_randomString) fun _ _ => appends_text hp

lemma appends_stringValue : Appends p Γ stringValue fun _ Δ => Δ = [] :=
  (appends_freshString hp).drop

lemma appends_booleanValue : Appends p Γ booleanValue fun _ Δ => Δ = [] :=
  .draw fun _ => (appends_constant hp ⟨rfl, rfl, rfl⟩ rfl rfl).drop

lemma appends_undefinedValue : Appends p Γ undefinedValue fun _ Δ => Δ = [] :=
  (appends_constant hp ⟨rfl, rfl, rfl⟩ rfl rfl).drop

lemma appends_nullValue : Appends p Γ nullValue fun _ Δ => Δ = [] :=
  (appends_constant hp ⟨rfl, rfl, rfl⟩ rfl rfl).drop

lemma appends_regExpValue : Appends p Γ regExpValue fun _ Δ => Δ = [] :=
  .draws (fun _ => draws_randomRegExp) fun _ _ =>
    (appends_constant hp ⟨rfl, rfl, rfl⟩ rfl rfl).drop

lemma appends_builtinValue : Appends p Γ builtinValue fun _ Δ => Δ = [] :=
  .draws (fun _ => draws_randomBuiltin) fun _ _ => (appends_builtin hp).drop

lemma appends_objectLiteral : Appends p Γ objectLiteral fun _ Δ => Δ = [] := by
  refine .draw fun _ => .draws (fun _ => draws_times fun _ => draws_randomPropertyName)
    fun names _ => ?_
  refine (appends_randomScriptValues hp).bind fun vs Δ ⟨hl, hvs⟩ => ?_
  have hmap : (names.eraseDups.zip vs).map (·.2) = vs := List.map_snd_zip hl.le
  refine (appends_object hp ?_).drop
  rw [hmap, Known.vars_append]
  exact List.subset_append_of_subset_left _ hvs

/-- An array of values that are made one after another. -/
lemma appends_arrayOf {m : Build Variable}
    (hm : ∀ Γ', Γ ⊆ Γ' → Appends p Γ' m fun v Δ => v ∈ Δ.vars) :
    Appends p Γ (times n m >>= fun vs => array vs >>= fun _ => pure ()) fun _ Δ => Δ = [] := by
  refine (Appends.timesVariable hm).bind fun vs Δ ⟨_, hvs⟩ => (appends_array hp ?_).drop
  rw [Known.vars_append]
  exact List.subset_append_of_subset_left _ hvs

lemma appends_arrayValue : Appends p Γ arrayValue fun _ Δ => Δ = [] :=
  .draw fun _ => appends_arrayOf hp fun _ _ => appends_randomScriptValue hp

lemma appends_integerArray : Appends p Γ integerArray fun _ Δ => Δ = [] :=
  .draw fun _ => appends_arrayOf hp fun _ _ => appends_freshInteger hp

lemma appends_floatArray : Appends p Γ floatArray fun _ Δ => Δ = [] :=
  .draw fun _ => appends_arrayOf hp fun _ _ => appends_freshFloat hp

lemma appends_typedArray : Appends p Γ typedArray fun _ Δ => Δ = [] := by
  refine .draw fun name => (appends_builtin hp).bind fun constructor Δ hc => ?_
  refine .draw fun length => (appends_integer hp).bind fun l Δ' hl => ?_
  exact (appends_construct hp (by simp [hc]) (by simp [hl])).drop

/-- The end of a function that returns a visible value. -/
lemma appends_returnValue (hs : p.context.contains .subroutine = true) :
    Appends p Γ returnValue fun _ Δ => Δ = [] :=
  (appends_randomScriptValue hp).bind fun v Δ hv => appends_giveBack hp hs (by simp [hv])

/-- A function that runs a computation and returns a visible value. -/
theorem appends_functionWith {body : Build Unit}
    (hbody : ∀ p' : Place, p'.context.isScript = true → Appends p' Γ body fun _ _ => True) :
    Appends p Γ (functionWith n body) fun f Δ => Δ = [(f, .function n.toUInt64)] := by
  refine appends_function hp fun p' hp' hs vs => ?_
  exact (hbody p' hp').bind fun _ Δ _ => (appends_returnValue hp' hs).true

lemma appends_trivialFunction : Appends p Γ trivialFunction fun _ Δ => Δ = [] :=
  (appends_function hp fun _ hp' hs _ => (appends_returnValue hp' hs).true).drop

/-! ### Properties and elements -/

lemma appends_propertyRetrieval (hv : v ∈ Γ.vars) :
    Appends p Γ (propertyRetrieval v) fun _ Δ => Δ = [] :=
  .draws (fun _ => draws_randomPropertyName) fun _ _ => (appends_property hp hv).drop

/-- A visible value is assigned to a property. -/
lemma appends_assignVisible (hv : v ∈ Γ.vars) {name : String} :
    Appends p Γ (do setProperty v name (← randomScriptValue)) fun _ Δ => Δ = [] :=
  (appends_randomScriptValue hp).bind fun w Δ hw =>
    appends_setProperty hp (by simp [hv]) (by simp [hw])

lemma appends_propertyAssignment (hv : v ∈ Γ.vars) :
    Appends p Γ (propertyAssignment v) fun _ Δ => Δ = [] :=
  .draws (fun _ => draws_randomPropertyName) fun _ _ => appends_assignVisible hp hv

lemma appends_propertyRemoval (hv : v ∈ Γ.vars) :
    Appends p Γ (propertyRemoval v) fun _ Δ => Δ = [] :=
  .draws (fun _ => draws_randomPropertyName) fun _ _ =>
    (appends_scriptValue hp ⟨rfl, rfl, rfl⟩ rfl (by simpa using hv) fun _ => rfl).drop

omit [Regard] hp in
lemma draws_randomIndex : Draws (randomIndex n) b fun _ => True := by
  refine Draws.lift fun _ _ => ?_
  split
  · exact Draws.any draws_any fun _ _ => Draws.pure trivial
  · exact Draws.any draws_randomInteger fun _ _ => Draws.pure trivial

lemma appends_elementRetrieval (hv : v ∈ Γ.vars) :
    Appends p Γ (elementRetrieval v) fun _ Δ => Δ = [] :=
  .draws (fun _ => draws_randomIndex) fun _ _ =>
    (appends_scriptValue hp ⟨rfl, rfl, rfl⟩ rfl (by simpa using hv) fun _ => rfl).drop

lemma appends_elementAssignment (hv : v ∈ Γ.vars) :
    Appends p Γ (elementAssignment v) fun _ Δ => Δ = [] :=
  .draws (fun _ => draws_randomIndex) fun _ _ =>
    (appends_randomScriptValue hp).bind fun w Δ hw =>
      appends_scriptEffect hp ⟨rfl, rfl, rfl⟩ (by simp [hv, hw]) fun _ => rfl

lemma appends_computedRetrieval (hv : v ∈ Γ.vars) :
    Appends p Γ (computedRetrieval v) fun _ Δ => Δ = [] :=
  (appends_randomScriptValue hp).bind fun w Δ hw =>
    (appends_scriptValue hp ⟨rfl, rfl, rfl⟩ rfl (by simp [hv, hw]) fun _ => rfl).drop

lemma appends_computedAssignment (hv : v ∈ Γ.vars) :
    Appends p Γ (computedAssignment v) fun _ Δ => Δ = [] :=
  (appends_randomScriptValue hp).bind fun key Δ hkey =>
    (appends_randomScriptValue hp).bind fun w Δ' hw =>
      appends_scriptEffect hp ⟨rfl, rfl, rfl⟩ (by simp [hv, hw, hkey]) fun _ => rfl

/-! ### Calls -/

lemma appends_methodCall (hv : v ∈ Γ.vars) :
    Appends p Γ (methodCall v) fun _ Δ => Δ = [] := by
  refine .draws (fun _ => draws_randomMethodName) fun name _ => ?_
  refine .draws (fun _ => draws_randomParameterCount) fun n _ => ?_
  refine (appends_randomScriptValues hp).bind fun args Δ ⟨_, hargs⟩ => ?_
  exact (appends_callMethod hp (by simp [hv]) (by simp [hargs])).drop

lemma appends_functionCall (hv : v ∈ Γ.vars) :
    Appends p Γ (functionCall v) fun _ Δ => Δ = [] :=
  (appends_randomArguments hp hv).bind fun args Δ hargs => .draw fun _ =>
    (appends_call hp (by simp [hv]) (by simp [hargs])).drop

lemma appends_constructorCall (hv : v ∈ Γ.vars) :
    Appends p Γ (constructorCall v) fun _ Δ => Δ = [] :=
  (appends_randomArguments hp hv).bind fun args Δ hargs =>
    (appends_construct hp (by simp [hv]) (by simp [hargs])).drop

/-- A call with one argument for each parameter. -/
lemma appends_callOnce (hv : v ∈ Γ.vars) : Appends p Γ (callOnce v) fun _ Δ => Δ = [] :=
  (appends_randomArguments hp hv).bind fun args Δ hargs =>
    (appends_call hp (by simp [hv]) (by simp [hargs])).drop

lemma appends_apiMethodCall : Appends p Γ apiMethodCall fun _ Δ => Δ = [] := by
  refine .draw fun group => (appends_builtin hp).bind fun target Δ ht => ?_
  refine .draws (fun _ => draws_randomMethodName) fun name _ => .draw fun n => ?_
  refine (appends_randomScriptValues hp).bind fun args Δ' ⟨_, hargs⟩ => ?_
  exact (appends_callMethod hp (by simp [ht]) (by simp [hargs])).drop

/-! ### Operators -/

omit hp in
/-- A visible variable of an accepted type, or else a fresh value. -/
lemma appends_visibleOr {accepts : StaticType → Bool} {m : Build Variable}
    (hm : Appends p Γ m fun v Δ => v ∈ Δ.vars) :
    Appends p Γ (do
      match ← randomVariable accepts with
      | some v => return v
      | none => m) fun v Δ => v ∈ Δ.vars :=
  .randomVariable hm fun v t _ => .pure (Δ := [(v, t)]) (by simp) (by simp)

lemma appends_operandFor (hv : v ∈ Γ.vars) :
    Appends p Γ (operandFor v) fun w Δ => w ∈ Δ.vars := by
  refine Appends.typeOf hv fun t => ?_
  split
  · exact appends_visibleOr (.draws (fun _ => draws_randomInteger) fun _ _ => appends_bigInt hp)
  · exact appends_visibleOr (appends_freshInteger hp)

lemma appends_binaryOperation (hv : v ∈ Γ.vars) :
    Appends p Γ (binaryOperation v) fun _ Δ => Δ = [] := by
  refine (appends_operandFor hp hv).bind fun w Δ hw => .draw fun o => ?_
  refine Appends.typeOf (by simp [hv]) fun t => ?_
  exact (appends_binary hp (by simp [hv]) (by simp [hw])).drop

lemma appends_unaryOperation (hv : v ∈ Γ.vars) :
    Appends p Γ (unaryOperation v) fun _ Δ => Δ = [] := by
  refine .draw fun o => Appends.typeOf hv fun t => ?_
  exact (appends_scriptValue hp ⟨rfl, rfl, rfl⟩ rfl (by simp [hv]) fun _ => rfl).drop

lemma appends_comparison (hv : v ∈ Γ.vars) :
    Appends p Γ (comparison v) fun _ Δ => Δ = [] :=
  (appends_operandFor hp hv).bind fun w Δ hw => .draw fun o =>
    (appends_compare hp (by simp [hv]) (by simp [hw])).drop

lemma appends_freshNumber : Appends p Γ freshNumber fun v Δ => v ∈ Δ.vars := by
  refine .draw fun isInteger => ?_
  split
  · exact appends_freshInteger hp
  · exact appends_freshFloat hp

lemma appends_numberValue : Appends p Γ numberValue fun v Δ => v ∈ Δ.vars := by
  refine .randomVariable (appends_freshNumber hp) fun v t _ => .draw fun visible => ?_
  split
  · exact .pure (Δ := [(v, t)]) (by simp) (by simp)
  · exact appends_freshNumber hp

lemma appends_combineNumbers (hv : v ∈ Γ.vars) :
    Appends p Γ (combineNumbers v n) fun v Δ => v ∈ Δ.vars := by
  induction n generalizing v Γ with
  | zero => exact .pure (Δ := Γ) hv (List.Subset.refl _)
  | succ n ih =>
      refine (appends_numberValue hp).bind fun w Δ hw => .draw fun o => ?_
      refine (appends_binary hp (by simp [hv]) (by simp [hw])).bind fun r Δ' hr => ?_
      exact ih (by simp [hr])

lemma appends_numberComputation : Appends p Γ numberComputation fun _ Δ => Δ = [] := by
  refine (appends_numberValue hp).bind fun first Δ hfirst => .draw fun n => ?_
  refine (appends_combineNumbers hp (by simp [hfirst])).bind fun r Δ' hr => .draw fun calls => ?_
  split
  · refine (appends_builtin hp).bind fun math Δ'' hmath => ?_
    refine .draws (fun _ => draws_randomMethodName) fun name _ => ?_
    exact (appends_callMethod hp (by simp [hmath]) (by simp [hr])).drop
  · exact .pure rfl (List.nil_subset _)

lemma appends_reassignment (hv : v ∈ Γ.vars) :
    Appends p Γ (reassignment v) fun _ Δ => Δ = [] := by
  refine Appends.typeOf hv fun t => ?_
  refine .randomOfType (.pure rfl (List.nil_subset _)) fun w => ?_
  dsimp only
  split
  · exact appends_scriptEffect hp ⟨rfl, rfl, rfl⟩ (by simp [hv]) fun _ => rfl
  · exact .pure rfl (List.nil_subset _)

/-! ### Control flow -/

section

variable (hn : Nests nested)
include hn

lemma appends_plainFunction : Appends p Γ (plainFunction nested) fun _ Δ => Δ = [] :=
  .draws (fun _ => draws_randomParameterCount) fun _ _ =>
    (appends_functionWith hp fun _ _ => hn.appends).drop

lemma appends_ifElse (hv : v ∈ Γ.vars) : Appends p Γ (ifElse nested v) fun _ Δ => Δ = [] := by
  refine .draw fun alternative => ?_
  split
  · exact appends_ifElseBlock hp hv (fun _ _ => hn.appends) fun _ _ _ => hn.appends
  · exact appends_ifBlock hp hv fun _ _ => hn.appends

lemma appends_repeatLoop : Appends p Γ (repeatLoop nested) fun _ Δ => Δ = [] :=
  .draw fun _ => appends_repeatBlock hp fun _ _ _ => hn.appends

lemma appends_tryCatch : Appends p Γ (tryCatch nested) fun _ Δ => Δ = [] :=
  appends_tryBlock hp (fun _ _ => hn.appends) fun _ _ _ _ => hn.appends

lemma appends_functionDefinition : Appends p Γ (functionDefinition nested) fun _ Δ => Δ = [] := by
  refine .draws (fun _ => draws_randomParameterCount) fun _ _ => ?_
  refine (appends_functionWith hp fun _ _ => hn.appends).bind fun f Δ hf => ?_
  exact (Appends.timesEffect (appends_callOnce hp (by simp [hf]))).drop

end

lemma appends_throwValue (hv : v ∈ Γ.vars) : Appends p Γ (throwValue v) fun _ Δ => Δ = [] :=
  appends_scriptEffect hp ⟨rfl, rfl, rfl⟩ (by simp [hv]) fun _ => rfl

/-! ### Objects that share few property names -/

lemma appends_primitiveValue : Appends p Γ primitiveValue fun _ Δ => Δ = [] := by
  refine .draw fun kind => ?_
  split
  · exact appends_integerValue hp
  · exact appends_floatValue hp
  · exact appends_stringValue hp

lemma appends_moreMapProperties {properties : List (String × Variable)}
    (h : properties.map (·.2) ⊆ Γ.vars) :
    Appends p Γ (moreMapProperties properties n) fun ps Δ => ps.map (·.2) ⊆ Δ.vars := by
  induction n generalizing properties Γ with
  | zero => exact .pure (Δ := Γ) h (List.Subset.refl _)
  | succ n ih =>
      refine .draw fun name => ?_
      split
      · exact ih h
      · refine (appends_randomScriptValue hp).bind fun v Δ hv => ih ?_
        rw [List.map_append, Known.vars_append, List.append_subset]
        exact ⟨List.subset_append_of_subset_right _ h, by simp [hv]⟩

lemma appends_freshMapObject : Appends p Γ freshMapObject fun v Δ => v ∈ Δ.vars := by
  have hps : Appends p Γ randomMapProperties fun ps Δ => ps.map (·.2) ⊆ Δ.vars :=
    (appends_randomScriptValue hp).bind fun v Δ hv =>
      appends_moreMapProperties hp (by simp [hv])
  refine hps.bind fun ps Δ h => appends_object hp ?_
  rw [Known.vars_append]
  exact List.subset_append_of_subset_left _ h

lemma appends_mapObject : Appends p Γ mapObject fun _ Δ => Δ = [] :=
  (appends_freshMapObject hp).drop

lemma appends_objectMaker : Appends p Γ objectMaker fun _ Δ => Δ = [] := by
  refine .draws (fun _ => draws_randomParameterCount) fun n _ => ?_
  refine (appends_function hp fun p' hp' hs _ => ?_).bind fun f Δ hf => .draw fun calls => ?_
  · exact ((appends_freshMapObject hp').bind fun v Δ hv =>
      appends_giveBack hp' hs (by simp [hv])).true
  · exact (Appends.timesEffect (appends_callOnce hp (by simp [hf]))).drop

lemma appends_mapPropertyLoad (hv : v ∈ Γ.vars) :
    Appends p Γ (mapPropertyLoad v) fun _ Δ => Δ = [] :=
  .draw fun _ => (appends_property hp hv).drop

lemma appends_mapPropertyStore (hv : v ∈ Γ.vars) :
    Appends p Γ (mapPropertyStore v) fun _ Δ => Δ = [] :=
  .draw fun _ => (Appends.timesEffect (.draw fun _ => appends_assignVisible hp hv)).drop

lemma appends_repeatedCall (hv : v ∈ Γ.vars) :
    Appends p Γ (repeatedCall v) fun _ Δ => Δ = [] := by
  refine (appends_randomArguments hp hv).bind fun args Δ hargs => ?_
  refine appends_repeatBlock hp fun p' hp' i => ?_
  exact (appends_call hp' (by simp [hv]) (by simp [hargs])).drop.true

end

/-! ### Leaving loops -/

lemma appends_loopBreak (hp : p.context.contains (.union .script .loop) = true) :
    Appends p Γ loopBreak fun _ Δ => Δ = [] :=
  appends_perform rfl (.noInputs (Context.contains_trans hp rfl) rfl fun _ => rfl)

lemma appends_loopContinue (hp : p.context.contains (.union .script .loop) = true) :
    Appends p Γ loopContinue fun _ Δ => Δ = [] :=
  appends_perform rfl (.noInputs (Context.contains_trans hp rfl) rfl fun _ => rfl)

end Generate

end EngineFuzz
