import Mathlib
import EngineFuzz.Proofs.Lift.ScriptLines
import EngineFuzz.Proofs.Validation.LexicalScope

/-!
# Scopes of a script

Braces are named by the lines that open them.  A line may read and assign what was declared in
braces that are still open, as a scope for each pair of open braces shows.

* `openBraces`, `ScriptLine.BoundIn`: open braces and declarations of a list of lines.
* `ScriptLine.Run`: lines that read and assign what is in scope only.
* `ScriptLine.WellScoped`: lines that do so are well scoped, with `ScriptLine.Run.exists_boundIn`.
* `ScriptWriter.level_writeAll`: the level of the writer counts the open braces.
-/

namespace EngineFuzz

namespace LinePart

/-- The variable that the part reads. -/
def read? : LinePart → Option Variable
  | operand v => some v
  | _ => none

/-- The variable that the part assigns. -/
def assigned? : LinePart → Option Variable
  | target v => some v
  | _ => none

/-- The variable that the part declares, and how. -/
def bound? : LinePart → Option (Declarator × Variable)
  | binding how v => some (how, v)
  | _ => none

/-- The variables that parts of a line read. -/
def reads (parts : List LinePart) : List Variable := parts.filterMap read?

/-- The variables that parts of a line assign. -/
def assigns (parts : List LinePart) : List Variable := parts.filterMap assigned?

/-- The variables that parts of a line declare, and how. -/
def bindings (parts : List LinePart) : List (Declarator × Variable) := parts.filterMap bound?

end LinePart

namespace ScriptLine

/-- The variables that the line reads. -/
def reads (x : ScriptLine) : List Variable := LinePart.reads x.parts

/-- The variables that the line assigns. -/
def assigns (x : ScriptLine) : List Variable := LinePart.assigns x.parts

/-- The variables that the line declares, and how. -/
def bindings (x : ScriptLine) : List (Declarator × Variable) := LinePart.bindings x.parts

/-- The variables that the line declares in the block that it opens, or in the blocks around. -/
def bound (x : ScriptLine) (inner : Bool) : List Variable :=
  (x.bindings.filter fun b => b.1.isInner == inner).map (·.2)

/-! ### Braces -/

/-- The braces around what the line declares outside of the block that it opens. -/
def bracesOutside (x : ScriptLine) (around : List Nat) : List Nat :=
  if x.kind.closes then around.tail else around

/-- The braces around what follows the line at a position. -/
def bracesBehind (x : ScriptLine) (position : Nat) (around : List Nat) : List Nat :=
  if x.kind.opens then position :: x.bracesOutside around else x.bracesOutside around

end ScriptLine

/-- The braces that are open behind some lines, the innermost first. -/
def openBraces (lines : List ScriptLine) : List Nat :=
  lines.zipIdx.foldl (fun around p => p.1.bracesBehind p.2 around) []

namespace ScriptLine

/-- The braces in which the line at a position declares a variable in this way: with those that it
opens or without. -/
def bracesOf (lines : List ScriptLine) (n : Nat) (x : ScriptLine) (how : Declarator) : List Nat :=
  if how.isInner then n :: x.bracesOutside (openBraces (lines.take n))
  else x.bracesOutside (openBraces (lines.take n))

/-- A line of the list declares the variable in these braces. -/
def BoundIn (lines : List ScriptLine) (around : List Nat) (v : Variable) : Prop :=
  ∃ (n : Nat) (x : ScriptLine) (how : Declarator), lines[n]? = some x ∧
    (how, v) ∈ x.bindings ∧ bracesOf lines n x how = around

variable {lines xs ys : List ScriptLine} {x : ScriptLine} {v : Variable} {around : List Nat}
  {scopes scopes' scopes'' : List (List Variable)}

lemma openBraces_append_singleton :
    openBraces (lines ++ [x]) = x.bracesBehind lines.length (openBraces lines) := by
  simp [openBraces, List.zipIdx_append]

lemma BoundIn.append (h : BoundIn lines around v) (xs : List ScriptLine) :
    BoundIn (lines ++ xs) around v := by
  obtain ⟨n, y, how, hy, hv, ha⟩ := h
  have hn : n < lines.length := (List.getElem?_eq_some_iff.mp hy).1
  refine ⟨n, y, how, by rw [List.getElem?_append_left hn, hy], hv, ?_⟩
  rwa [bracesOf, List.take_append_of_le_length hn.le]

lemma mem_bound {inner : Bool} :
    v ∈ x.bound inner ↔ ∃ how, (how, v) ∈ x.bindings ∧ how.isInner = inner := by
  simp [bound]

lemma boundIn_outer (h : v ∈ x.bound false) :
    BoundIn (lines ++ [x]) (x.bracesOutside (openBraces lines)) v := by
  obtain ⟨how, hmem, hi⟩ := mem_bound.mp h
  exact ⟨lines.length, x, how, by simp, hmem, by simp [bracesOf, hi]⟩

lemma boundIn_inner (h : v ∈ x.bound true) :
    BoundIn (lines ++ [x]) (lines.length :: x.bracesOutside (openBraces lines)) v := by
  obtain ⟨how, hmem, hi⟩ := mem_bound.mp h
  exact ⟨lines.length, x, how, by simp, hmem, by simp [bracesOf, hi]⟩

/-! ### Scopes -/

/-- The scopes in which the line declares variables outside of the block that it opens. -/
def scopesOutside (x : ScriptLine) (scopes : List (List Variable)) : List (List Variable) :=
  if x.kind.closes then scopes.tail else scopes

/-- The scopes behind the line, one for each pair of open braces and one for the script. -/
def scopesBehind (x : ScriptLine) (scopes : List (List Variable)) : List (List Variable) :=
  let declared := (x.scopesOutside scopes).modifyHead ((x.bound false).reverse ++ ·)
  if x.kind.opens then (x.bound true).reverse :: declared else declared

/-- The line reads and assigns what is in scope, and closes a block only if one is open. -/
structure Allowed (x : ScriptLine) (scopes : List (List Variable)) : Prop where
  uses : ∀ v ∈ x.reads ++ x.assigns, v ∈ scopes.flatten
  closes : x.kind.closes = true → 1 < scopes.length

/-- All of the lines are allowed, and lead from scopes to others. -/
def Run (scopes : List (List Variable)) : List ScriptLine → List (List Variable) → Prop
  | [], scopes' => scopes' = scopes
  | x :: xs, scopes' => x.Allowed scopes ∧ Run (x.scopesBehind scopes) xs scopes'

lemma run_append_iff : Run scopes (xs ++ ys) scopes'' ↔
    ∃ scopes', Run scopes xs scopes' ∧ Run scopes' ys scopes'' := by
  induction xs generalizing scopes with
  | nil => simp [Run]
  | cons x xs ih =>
      simp only [List.cons_append, Run, ih]
      constructor
      · rintro ⟨hx, s, hxs, hys⟩
        exact ⟨s, ⟨hx, hxs⟩, hys⟩
      · rintro ⟨s, ⟨hx, hxs⟩, hys⟩
        exact ⟨hx, s, hxs, hys⟩

/-- The variables of a scope were declared in the braces of the scope. -/
def Placed (lines : List ScriptLine) (scopes : List (List Variable)) : Prop :=
  List.Forall₂ (fun around scope => ∀ v ∈ scope, BoundIn lines around v) (openBraces lines).tails
    scopes

lemma Placed.length_eq (h : Placed lines scopes) :
    scopes.length = (openBraces lines).length + 1 := by
  rw [← List.Forall₂.length_eq h, List.length_tails]

lemma Placed.outside (h : Placed lines scopes) (ha : x.Allowed scopes) :
    List.Forall₂ (fun around scope => ∀ v ∈ scope, BoundIn lines around v)
      (x.bracesOutside (openBraces lines)).tails (x.scopesOutside scopes) := by
  unfold bracesOutside scopesOutside
  cases hc : x.kind.closes with
  | false => exact h
  | true =>
      have hl := h.length_eq
      have hc := ha.closes hc
      cases ho : openBraces lines with
      | nil =>
          rw [ho] at hl
          simp [hl] at hc
      | cons n around =>
          have hp : List.Forall₂ _ _ _ := h
          rw [ho, List.tails_cons, List.forall₂_cons_left_iff] at hp
          obtain ⟨top, rest, -, hrest, rfl⟩ := hp
          exact hrest

/-- **One line** declares its variables in the braces around it. -/
theorem Placed.behind (h : Placed lines scopes) (ha : x.Allowed scopes) :
    Placed (lines ++ [x]) (x.scopesBehind scopes) := by
  have hout := h.outside ha
  rw [tails_eq, List.forall₂_cons_left_iff] at hout
  obtain ⟨top, rest, htop, hrest, hs⟩ := hout
  have hdeclared : List.Forall₂ (fun around scope => ∀ v ∈ scope, BoundIn (lines ++ [x]) around v)
      (x.bracesOutside (openBraces lines)).tails (((x.bound false).reverse ++ top) :: rest) := by
    rw [tails_eq]
    refine .cons (fun v hv => ?_) (hrest.imp fun _ _ h v hv => (h v hv).append [x])
    rw [List.mem_append, List.mem_reverse] at hv
    exact hv.elim boundIn_outer fun hv => (htop v hv).append [x]
  rw [Placed, openBraces_append_singleton, bracesBehind, scopesBehind, hs, List.modifyHead_cons]
  cases x.kind.opens with
  | false => exact hdeclared
  | true =>
      rw [if_pos rfl, if_pos rfl, List.tails_cons]
      exact .cons (fun v hv => boundIn_inner (List.mem_reverse.mp hv)) hdeclared

lemma Placed.run (h : Placed lines scopes) (hr : Run scopes xs scopes') :
    Placed (lines ++ xs) scopes' := by
  induction xs generalizing lines scopes with
  | nil =>
      obtain rfl : scopes' = scopes := hr
      rwa [List.append_nil]
  | cons x xs ih =>
      rw [List.append_cons]
      exact ih (h.behind hr.1) hr.2

lemma placed_nil : Placed [] [[]] := .cons (by simp) .nil

/-- What is in scope was declared in braces that are open. -/
lemma Placed.exists_boundIn (h : Placed lines scopes) (hv : v ∈ scopes.flatten) :
    ∃ around, around <:+ openBraces lines ∧ BoundIn lines around v := by
  obtain ⟨scope, hs, hv⟩ := List.mem_flatten.mp hv
  obtain ⟨n, hn, rfl⟩ := List.mem_iff_getElem.mp hs
  have hn' : n < (openBraces lines).tails.length := by rwa [List.Forall₂.length_eq h]
  refine ⟨(openBraces lines).tails[n], ?_, ?_⟩
  · exact (List.mem_tails _ _).mp (List.getElem_mem hn')
  · exact List.Forall₂.get h hn' hn v hv

end ScriptLine

/-! ### The level of the writer -/

namespace ScriptWriter

variable {w : ScriptWriter} {x : ScriptLine} {lines : List ScriptLine}

lemma level_write : (w.write x).level =
    (if x.kind.closes then w.level - 1 else w.level) + if x.kind.opens then 1 else 0 := by
  obtain ⟨kind, parts⟩ := x
  cases kind <;> rfl

/-- **The level of the writer** counts the open braces. -/
theorem level_writeAll : (empty.writeAll lines).level = (openBraces lines).length := by
  induction lines using List.reverseRecOn with
  | nil => rfl
  | append_singleton lines x ih =>
      rw [writeAll_append, writeAll_cons, writeAll_nil, level_write, ih,
        ScriptLine.openBraces_append_singleton, ScriptLine.bracesBehind, ScriptLine.bracesOutside]
      cases x.kind.closes <;> cases x.kind.opens <;> simp

end ScriptWriter

/-! ### Well-scoped scripts -/

namespace ScriptLine

/-- A script in which variables are used as they are declared.  The level is that of the writer in
front of a line. -/
structure WellScoped (lines : List ScriptLine) : Prop where
  /-- What a line reads or assigns was declared by an earlier line in braces that are still open. -/
  declared : ∀ n x, lines[n]? = some x → ∀ v ∈ x.reads ++ x.assigns,
    ∃ (m : Nat) (y : ScriptLine) (how : Declarator), m < n ∧ lines[m]? = some y ∧
      (how, v) ∈ y.bindings ∧ bracesOf lines m y how <:+ openBraces (lines.take n)
  once : ((lines.flatMap (·.bindings)).map (·.2)).Nodup
  /-- What a line assigns is no constant. -/
  assignable : ∀ x ∈ lines, ∀ v ∈ x.assigns, ∀ y ∈ lines, (.constant, v) ∉ y.bindings
  /-- Where a line closes a block, the level does not go below zero. -/
  closing : ∀ n x, lines[n]? = some x → x.kind.closes = true →
    0 < (ScriptWriter.empty.writeAll (lines.take n)).level
  closed : (ScriptWriter.empty.writeAll lines).level = 0

variable {lines : List ScriptLine} {scopes : List (List Variable)} {n : Nat} {x : ScriptLine}

/-- In front of each line of a run stand its scopes. -/
lemma Run.exists_allowed (h : Run [[]] lines scopes) (hx : lines[n]? = some x) :
    ∃ scopes', Placed (lines.take n) scopes' ∧ x.Allowed scopes' := by
  obtain ⟨hn, rfl⟩ := List.getElem?_eq_some_iff.mp hx
  rw [← List.take_append_drop n lines, List.drop_eq_getElem_cons hn, run_append_iff] at h
  obtain ⟨scopes', hbefore, hx, -⟩ := h
  exact ⟨scopes', placed_nil.run hbefore, hx⟩

/-- What a line of a run uses was declared by an earlier line in braces that are still open. -/
theorem Run.exists_boundIn (h : Run [[]] lines scopes) (hx : lines[n]? = some x) {v : Variable}
    (hv : v ∈ x.reads ++ x.assigns) :
    ∃ (m : Nat) (y : ScriptLine) (how : Declarator), m < n ∧ lines[m]? = some y ∧
      (how, v) ∈ y.bindings ∧ bracesOf lines m y how <:+ openBraces (lines.take n) := by
  obtain ⟨scopes', hp, ha⟩ := h.exists_allowed hx
  obtain ⟨around, hsuffix, m, y, how, hy, hb, haround⟩ := hp.exists_boundIn (ha.uses v hv)
  have hm : m < n := by
    have := (List.getElem?_eq_some_iff.mp hy).1
    rw [List.length_take] at this
    omega
  rw [List.getElem?_take_of_lt hm] at hy
  rw [bracesOf, List.take_take, Nat.min_eq_left hm.le] at haround
  refine ⟨m, y, how, hm, hy, hb, ?_⟩
  rw [bracesOf, haround]
  exact hsuffix

/-- Where a line of a run closes a block, one is open. -/
lemma Run.level_pos (h : Run [[]] lines scopes) (hx : lines[n]? = some x)
    (hc : x.kind.closes = true) : 0 < (ScriptWriter.empty.writeAll (lines.take n)).level := by
  obtain ⟨scopes', hp, ha⟩ := h.exists_allowed hx
  have := ha.closes hc
  rw [hp.length_eq] at this
  rw [ScriptWriter.level_writeAll]
  omega

/-- At the end of a run that leaves one scope all blocks are closed. -/
lemma Run.level_eq_zero (h : Run [[]] lines scopes) (hl : scopes.length = 1) :
    (ScriptWriter.empty.writeAll lines).level = 0 := by
  have hp := (placed_nil.run h).length_eq
  rw [List.nil_append, hl] at hp
  rw [ScriptWriter.level_writeAll]
  omega

end ScriptLine

end EngineFuzz
