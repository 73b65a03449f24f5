import Mathlib
import EngineFuzz.Proofs.Execution.Positions
import EngineFuzz.Proofs.Execution.Runs

/-!
# Variables and locals

At each position of a lowered function the locals of the variables in scope hold the values of the
variables.

* `LoweredFunction.Keeps`: the locals hold the values at a position.
* `LoweredFunction.Keeps.exists_args`: the values that an instruction reads.
* `LoweredFunction.Keeps.setAll`, `LoweredFunction.Keeps.reassign`: new values.
* `LoweredFunction.keeps_entry`: the arguments of the function.
-/

namespace EngineFuzz

/-! ### The values of several variables -/

namespace Direct.Values

variable {values : Direct.Values} {v : Variable} {x : MachineValue} {vs : List Variable}
  {xs : List MachineValue}

lemma setAll_of_not_mem (h : v ∉ vs) : values.setAll vs xs v = values v := by
  induction vs generalizing values xs with
  | nil => rfl
  | cons w vs ih =>
      obtain ⟨hw, hvs⟩ := not_or.mp (mt List.mem_cons.mpr h)
      cases xs with
      | nil => rfl
      | cons y xs =>
          change (values.set w y).setAll vs xs v = values v
          rw [ih hvs, set, if_neg hw]

lemma setAll_of_getElem? (hn : vs.Nodup) {k : Nat} (hv : vs[k]? = some v) (hx : xs[k]? = some x) :
    values.setAll vs xs v = some x := by
  induction vs generalizing values xs k with
  | nil => simp at hv
  | cons w vs ih =>
      obtain ⟨hw, hn⟩ := List.nodup_cons.mp hn
      cases xs with
      | nil => simp at hx
      | cons y xs =>
          change (values.set w y).setAll vs xs v = some x
          cases k with
          | zero =>
              obtain rfl : w = v := by simpa using hv
              obtain rfl : y = x := by simpa using hx
              rw [setAll_of_not_mem hw, set, if_pos rfl]
          | succ k => exact ih hn hv hx

lemma getAll?_eq (h : List.Forall₂ (fun v x => values v = some x) vs xs) :
    values.getAll? vs = some xs := by
  induction h with
  | nil => rfl
  | cons hv _ ih =>
      rw [getAll?] at ih ⊢
      rw [List.mapM_cons, hv, ih]
      rfl

end Direct.Values

/-! ### New locals -/

namespace Lowering

variable {context : LoweringContext} {params : List WasmType} {function : OpenBlock}
  {around : List OpenBlock} {p m p' : Point} {i : Instruction} {target : Instr} {l : Lowering}
  {is : List Instruction} {code : List Instr} {vs : List Variable} {types : List WasmType}
  {v w : Variable} {k index : Nat}

/-- How many locals there are so far. -/
def localCount (l : Lowering) : Nat := l.numParams + l.localTypes.length

/-- New locals have the next indices. -/
lemma local?_defineAll (hl : vs.length = types.length) (hn : vs.Nodup) (hv : vs[k]? = some v) :
    (l.defineAll vs types).local? v = some (l.localCount + k) := by
  induction vs generalizing l types k with
  | nil => simp at hv
  | cons u vs ih =>
      obtain ⟨type, types, rfl⟩ := List.exists_cons_of_length_eq_add_one hl.symm
      obtain ⟨hu, hn⟩ := List.nodup_cons.mp hn
      rw [defineAll_cons]
      cases k with
      | zero =>
          obtain rfl : u = v := by simpa using hv
          rw [local?_defineAll_of_not_mem hu, local?_define, if_pos rfl]
          rfl
      | succ k =>
          rw [ih (by simpa using hl) hn (by simpa using hv), localCount, localCount]
          simp only [define, List.length_cons, Option.some.injEq]
          omega

/-- Different variables have different locals. -/
lemma Follows.local?_inj {s : Validator} {inner : List OpenBlock}
    (h : l.Follows params s inner function around) (hv : l.local? v = some index)
    (hw : l.local? w = some index) : v = w := by
  have hnodup : (l.locals.map (·.2)).Nodup := by
    rw [h.indices]
    exact List.nodup_reverse.mpr List.nodup_range
  have hmem : ∀ {u : Variable}, l.local? u = some index → (u, index) ∈ l.locals := by
    intro u hu
    obtain ⟨⟨u', index'⟩, hfind, rfl⟩ := Option.map_eq_some_iff.mp hu
    obtain rfl : u' = u := by simpa using List.find?_some hfind
    exact List.mem_of_find?_eq_some hfind
  exact congrArg Prod.fst (List.inj_on_of_nodup_map hnodup (hmem hv) (hmem hw) rfl)

/-- The indices of locals are less than their number. -/
lemma Follows.local?_lt {s : Validator} {inner : List OpenBlock}
    (h : l.Follows params s inner function around) (hv : l.local? v = some index) :
    index < l.localCount := by
  obtain ⟨⟨u, index'⟩, hfind, rfl⟩ := Option.map_eq_some_iff.mp hv
  have hmem : index' ∈ l.locals.map (·.2) :=
    List.mem_map_of_mem (f := Prod.snd) (List.mem_of_find?_eq_some hfind)
  rw [h.indices, List.mem_reverse, List.mem_range] at hmem
  exact hmem

lemma Passes.localCount_eq (h : Passes context p i target m) :
    m.lowering.localCount = p.lowering.localCount + i.outputs.length := by
  obtain ⟨types, ht, hb⟩ := h.behind
  have hlen : i.outputs.reverse.length = types.length := by
    simpa using congrArg List.length ht
  rw [hb, localCount, Lowering.behind, numParams_defineAll, localTypes_defineAll hlen,
    List.length_append, List.length_reverse, ← hlen, List.length_reverse, localCount]
  simp only [emit, emitAll]
  omega

lemma Trace.localCount_le (h : Trace context params function around p is code p') :
    p.lowering.localCount ≤ p'.lowering.localCount := by
  induction h with
  | nil => exact Nat.le_refl _
  | cons _ head _ ih =>
      rw [head.localCount_eq] at ih
      exact Nat.le_trans (Nat.le_add_right ..) ih

/-- The outputs of an instruction have the next locals, the last output the first of them. -/
lemma Passes.local?_output (h : Passes context p i target m) (hn : i.outputs.Nodup)
    (hv : i.outputs.reverse[k]? = some v) :
    m.lowering.local? v = some (p.lowering.localCount + k) := by
  obtain ⟨types, ht, hb⟩ := h.behind
  rw [hb, Lowering.behind, local?_defineAll (by simpa using congrArg List.length ht)
    (List.nodup_reverse.mpr hn) hv]
  rfl

/-- The variables inside the blocks of a function are labels. -/
lemma Passes.typeOf_label (h : Passes context p i target m)
    (hp : p.Fits context params function around) (hm : m.Fits context params function around)
    (hv : v ∈ i.innerOutputs) : context.typer.typeOf v = .label := by
  obtain ⟨next, ha, hs⟩ := Validator.step_eq_ok_iff.mp h.step
  have hhome := hp.follows.inside.home hp.sound.fits.toPlaced ha.position
  rw [hm.covers.types v (h.nextFresh_le.2 v (List.mem_append_right _ hv)).2, hs]
  exact typeOf_innerOutputs ha.arity (Validator.Sound.nodup_definedVariables ha h.small) hhome hv

/-- What is in scope behind an instruction has been in scope before or is new. -/
lemma Passes.mem_scopes (h : Passes context p i target m)
    (hp : p.Fits context params function around) (hv : v ∈ m.scopes.flatten) :
    v ∈ i.outputs ∨ v ∈ i.innerOutputs ∨ v ∈ p.scopes.flatten := by
  have htail : ∀ {scopes : List (List Variable)}, v ∈ scopes.tail.flatten → v ∈ scopes.flatten := by
    intro scopes hv
    obtain ⟨scope, hs, hv⟩ := List.mem_flatten.mp hv
    exact List.mem_flatten.mpr ⟨scope, List.mem_of_mem_tail hs, hv⟩
  cases h.nests hp with
  | opens start noEnd target_opens outputs inner labels scopes =>
      rw [scopes, List.flatten_cons, List.mem_append] at hv
      rw [inner]
      exact .inr hv
  | switches start isEnd target_else outputs inner labels scopes =>
      rw [scopes, List.flatten_cons, List.mem_append] at hv
      rw [inner]
      exact .inr (hv.imp_right htail)
  | closes noStart isEnd target_end outputs inner labels scopes =>
      rw [scopes] at hv
      exact .inr (.inr (htail hv))
  | stays noStart noEnd target_flat inner labels scopes =>
      obtain ⟨top, rest, hps, hms⟩ := scopes
      rw [hms, List.flatten_cons, List.append_assoc, List.mem_append, List.mem_reverse] at hv
      rw [hps, List.flatten_cons]
      exact hv.imp_right .inr

end Lowering

namespace LoweredFunction

open Lowering

variable {context : LoweringContext} {F : LoweredFunction context} {p q m : Point}
  {i : Instruction} {target : Instr} {rest : List Instruction} {code : List Instr} {v : Variable}
  {values : Direct.Values} {locals : Array MachineValue} {x : MachineValue} {xs : List MachineValue}

/-- At a position the locals hold the values of the variables in scope. -/
structure Keeps (F : LoweredFunction context) (p : Point) (values : Direct.Values)
    (locals : Array MachineValue) : Prop where
  size : locals.size = F.lowering.localCount
  holds : ∀ v ∈ p.scopes.flatten, ∀ type, context.typer.typeOf v = .wasm type →
    ∃ x, values v = some x ∧ F.lowering.Holds locals v x

/-! ### Variables in scope -/

lemma At.typeOf_eq (h : F.At p rest code) (hv : v ∈ p.scopes.flatten) :
    context.typer.typeOf v = p.state.typer.typeOf v :=
  h.fits.covers.types v (h.fits.sound.old v hv)

lemma At.local?_eq (h : F.At p rest code) (hv : v ∈ p.scopes.flatten) :
    F.lowering.local? v = p.lowering.local? v :=
  h.behind.local?_eq (h.fits.sound.old v hv)

lemma At.localCount_le (h : F.At p rest code) :
    p.lowering.localCount ≤ F.lowering.localCount := h.behind.localCount_le

/-! ### Reading and writing -/

namespace Keeps

/-- Where less is in scope, less has to be kept. -/
lemma mono (h : F.Keeps p values locals)
    (hs : ∀ v ∈ q.scopes.flatten, v ∈ p.scopes.flatten ∨ context.typer.typeOf v = .label) :
    F.Keeps q values locals := by
  refine ⟨h.size, fun v hv type ht => ?_⟩
  rcases hs v hv with hv | hl
  · exact h.holds v hv type ht
  · rw [hl] at ht
    exact nomatch ht

/-- **The values that an instruction reads** are in locals. -/
lemma exists_args (h : F.Keeps p values locals) (hp : F.At p rest code) {next : UInt32}
    (ha : p.state.Admits i next) (hhome : i.operation.home = .function) :
    ∃ xs, values.getAll? i.values = some xs ∧
      List.Forall₂ (p.lowering.Holds locals) i.values xs := by
  have hfits := hp.fits
  have hread : ∀ v ∈ i.values, ∃ x, values v = some x ∧ p.lowering.Holds locals v x := by
    intro v hv
    obtain ⟨type, index, ht, -, -⟩ := hfits.follows.values_isSome hfits.sound ha hhome v hv
    have hscope : v ∈ p.scopes.flatten := (hfits.sound.fits.tracks.visible v).mp
      (ha.visible v (mem_inputs_of_mem_values hv))
    obtain ⟨x, hx, index, hi, hl⟩ := h.holds v hscope type ((hp.typeOf_eq hscope).trans ht)
    exact ⟨x, hx, index, (hp.local?_eq hscope).symm.trans hi, hl⟩
  have hall : ∀ vs : List Variable,
      (∀ v ∈ vs, ∃ x, values v = some x ∧ p.lowering.Holds locals v x) →
      ∃ xs, List.Forall₂ (fun v x => values v = some x) vs xs ∧
        List.Forall₂ (p.lowering.Holds locals) vs xs := by
    intro vs
    induction vs with
    | nil => exact fun _ => ⟨[], .nil, .nil⟩
    | cons v vs ih =>
        intro hvs
        obtain ⟨⟨x, hx, hl⟩, hvs⟩ := List.forall_mem_cons.mp hvs
        obtain ⟨xs, hxs, hls⟩ := ih hvs
        exact ⟨x :: xs, .cons hx hxs, .cons hl hls⟩
  obtain ⟨xs, hxs, hls⟩ := hall i.values hread
  exact ⟨xs, Direct.Values.getAll?_eq hxs, hls⟩

/-- **The outputs of an instruction** are popped into new locals. -/
lemma setAll (h : F.Keeps p values locals) (hp : F.At p (i :: rest) code)
    (hi : Passes context p i target m) {rest' : List Instruction} {code' : List Instr}
    (hm : F.At m rest' code') (hl : xs.length = i.outputs.length) :
    F.Keeps m (values.setAll i.outputs xs)
      (setFrom locals p.lowering.localCount xs.reverse) := by
  obtain ⟨next, ha, -⟩ := Validator.step_eq_ok_iff.mp hi.step
  have hsound := hp.fits.sound
  obtain ⟨hno, -, -⟩ := List.nodup_append'.mp (Validator.Sound.nodup_definedVariables ha hi.small)
  have hroom : p.lowering.localCount + xs.reverse.length ≤ locals.size := by
    rw [h.size, List.length_reverse, hl, ← hi.localCount_eq]
    exact hm.localCount_le
  refine ⟨size_setFrom.trans h.size, fun v hv type ht => ?_⟩
  have hlocal := hm.local?_eq hv
  rcases hi.mem_scopes hp.fits hv with ho | hinner | hold
  · -- a new value
    obtain ⟨k, hk⟩ := List.getElem?_of_mem (List.mem_reverse.mpr ho)
    have hlt : k < i.outputs.length := by
      rw [← List.length_reverse]
      exact (List.getElem?_eq_some_iff.mp hk).1
    obtain ⟨x, hx⟩ : ∃ x, xs.reverse[k]? = some x :=
      ⟨_, List.getElem?_eq_getElem (by rw [List.length_reverse, hl]; exact hlt)⟩
    refine ⟨x, ?_, p.lowering.localCount + k, ?_, ?_⟩
    · rw [List.getElem?_reverse hlt] at hk
      rw [List.getElem?_reverse (hl ▸ hlt), hl] at hx
      exact Direct.Values.setAll_of_getElem? hno hk hx
    · rw [hlocal]
      exact hi.local?_output hno hk
    · rw [getElem?_setFrom hroom (by rw [List.length_reverse, hl]; exact hlt), hx]
  · rw [hi.typeOf_label hp.fits hm.fits hinner] at ht
    exact nomatch ht
  · -- a value that stays
    obtain ⟨x, hx, index, hindex, hat⟩ := h.holds v hold type ht
    have hnew : v ∉ i.outputs := fun ho =>
      hsound.disjoint_definedVariables ha hi.small (List.mem_append_left _ ho) hold
    have hlt := hp.fits.follows.local?_lt ((hp.local?_eq hold).symm.trans hindex)
    exact ⟨x, (Direct.Values.setAll_of_not_mem hnew).trans hx, index, hindex,
      (getElem?_setFrom_of_lt hlt).trans hat⟩

/-- **A variable gets another value** in its local. -/
lemma reassign (h : F.Keeps p values locals) (hp : F.At p rest code) (hv : v ∈ p.scopes.flatten)
    {index : Nat} (hi : p.lowering.local? v = some index) :
    F.Keeps p (values.set v x) (locals.setIfInBounds index x) := by
  have hindex : index < locals.size := by
    rw [h.size]
    exact Nat.lt_of_lt_of_le (hp.fits.follows.local?_lt hi) hp.localCount_le
  refine ⟨Array.size_setIfInBounds.trans h.size, fun w hw type ht => ?_⟩
  obtain ⟨y, hy, j, hj, hat⟩ := h.holds w hw type ht
  by_cases he : w = v
  · subst he
    refine ⟨x, if_pos rfl, index, (hp.local?_eq hw).trans hi, ?_⟩
    exact Array.getElem?_setIfInBounds_self_of_lt hindex
  · have hne : index ≠ j := by
      rintro rfl
      exact he (hp.fits.follows.local?_inj ((hp.local?_eq hw).symm.trans hj) hi)
    refine ⟨y, (if_neg he).trans hy, j, hj, ?_⟩
    rw [Array.getElem?_setIfInBounds_ne hne, hat]

end Keeps

/-- **At the beginning of a function** the locals hold its arguments. -/
lemma keeps_entry {args : List MachineValue} (hl : args.length = F.run.source.params.length) :
    F.Keeps F.run.entry (F.run.source.enter args).values
      (args ++ F.body.locals.map MachineValue.zero).toArray := by
  have hfits := (at_entry (F := F)).fits
  have hcount : F.run.source.params.length = F.lowering.numParams := by
    rw [F.trace.fits_end.follows.numParams]
    exact hfits.follows.numParams
  refine ⟨?_, fun v hv type ht => ?_⟩
  · rw [List.size_toArray, List.length_append, List.length_map, hl, hcount, body,
      List.length_reverse]
    rfl
  · rw [at_entry.typeOf_eq hv] at ht
    obtain ⟨index, hi, -⟩ := hfits.follows.values v hv type ht
    -- what has a local is a parameter
    obtain ⟨⟨u, j⟩, hfind, rfl⟩ := Option.map_eq_some_iff.mp hi
    obtain rfl : u = v := by simpa using List.find?_some hfind
    have hmem := List.mem_of_find?_eq_some hfind
    rw [FunctionRun.entry, locals_start, List.mem_reverse, List.mem_zipIdx_iff_getElem?] at hmem
    have hlt : j < args.length := by
      rw [hl]
      exact (List.getElem?_eq_some_iff.mp hmem).1
    have hx : args[j]? = some args[j] := List.getElem?_eq_getElem hlt
    refine ⟨args[j], Direct.Values.setAll_of_getElem? F.nodup_params hmem hx, j, ?_, ?_⟩
    · rw [at_entry.local?_eq hv]
      exact hi
    · rw [List.getElem?_toArray, List.getElem?_append_left hlt, hx]

end LoweredFunction

end EngineFuzz
