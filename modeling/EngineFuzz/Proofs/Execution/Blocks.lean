import Mathlib
import EngineFuzz.Execution.Machine
import EngineFuzz.Proofs.Execution.Direct
import EngineFuzz.Proofs.Lift.Traces

/-!
# Where blocks end

In a function and in its code blocks open and close side by side.  So the code behind a block is
that of the instructions behind the block, and the same holds of the second part of a block.

* `Lowering.Nests`: how an instruction changes the open blocks, with `Lowering.Passes.nests`.
* `Lowering.Trace.exists_exit`, `Lowering.Trace.exists_secondPart`: where a block ends, and where
  its second part begins.
-/

namespace EngineFuzz

namespace Instr

/-- Whether the instruction opens a block. -/
def opensBlock : Instr → Bool
  | block | loop | ifThen => true
  | _ => false

/-- Whether the instruction leaves the open blocks alone. -/
def isFlat : Instr → Bool
  | block | loop | ifThen | elseThen | blockEnd => false
  | _ => true

variable {i : Instr} {is code : List Instr} {depth : Nat}

lemma afterEnd_of_opensBlock (h : i.opensBlock = true) :
    afterEnd depth (i :: code) = afterEnd (depth + 1) code := by
  cases i <;> first | rfl | cases h

lemma elsePart?_of_opensBlock (h : i.opensBlock = true) :
    elsePart? depth (i :: code) = elsePart? (depth + 1) code := by
  cases i <;> first | rfl | cases h

lemma afterEnd_of_isFlat (h : ∀ i ∈ is, i.isFlat = true) :
    afterEnd depth (is ++ code) = afterEnd depth code := by
  induction is with
  | nil => rfl
  | cons i is ih =>
      obtain ⟨hi, his⟩ := List.forall_mem_cons.mp h
      rw [← ih his]
      cases i <;> first | rfl | cases hi

lemma elsePart?_of_isFlat (h : ∀ i ∈ is, i.isFlat = true) :
    elsePart? depth (is ++ code) = elsePart? depth code := by
  induction is with
  | nil => rfl
  | cons i is ih =>
      obtain ⟨hi, his⟩ := List.forall_mem_cons.mp h
      rw [← ih his]
      cases i <;> first | rfl | cases hi

end Instr

namespace Direct

variable {i : Instruction} {is : List Instruction} {depth : Nat}

lemma afterBlock_cons : afterBlock depth (i :: is) =
    match i.operation.isBlockEnd, i.operation.isBlockStart, depth with
    | false, true, _ => afterBlock (depth + 1) is
    | true, false, 0 => is
    | true, false, depth + 1 => afterBlock depth is
    | _, _, _ => afterBlock depth is :=
  rfl

lemma secondPart?_cons : secondPart? depth (i :: is) =
    match i.operation.isBlockEnd, i.operation.isBlockStart, depth with
    | false, true, _ => secondPart? (depth + 1) is
    | true, true, 0 => some is
    | true, false, 0 => none
    | true, false, depth + 1 => secondPart? depth is
    | _, _, _ => secondPart? depth is :=
  rfl

lemma afterBlock_opens (hs : i.operation.isBlockStart = true)
    (he : i.operation.isBlockEnd = false) :
    afterBlock depth (i :: is) = afterBlock (depth + 1) is := by
  simp only [afterBlock_cons, he, hs]

lemma afterBlock_switches (hs : i.operation.isBlockStart = true)
    (he : i.operation.isBlockEnd = true) : afterBlock depth (i :: is) = afterBlock depth is := by
  simp only [afterBlock_cons, he, hs]

lemma afterBlock_stays (hs : i.operation.isBlockStart = false)
    (he : i.operation.isBlockEnd = false) : afterBlock depth (i :: is) = afterBlock depth is := by
  simp only [afterBlock_cons, he, hs]

lemma afterBlock_closes_zero (hs : i.operation.isBlockStart = false)
    (he : i.operation.isBlockEnd = true) : afterBlock 0 (i :: is) = is := by
  simp only [afterBlock_cons, he, hs]

lemma afterBlock_closes (hs : i.operation.isBlockStart = false)
    (he : i.operation.isBlockEnd = true) :
    afterBlock (depth + 1) (i :: is) = afterBlock depth is := by
  simp only [afterBlock_cons, he, hs]

lemma secondPart?_opens (hs : i.operation.isBlockStart = true)
    (he : i.operation.isBlockEnd = false) :
    secondPart? depth (i :: is) = secondPart? (depth + 1) is := by
  simp only [secondPart?_cons, he, hs]

lemma secondPart?_switches_zero (hs : i.operation.isBlockStart = true)
    (he : i.operation.isBlockEnd = true) : secondPart? 0 (i :: is) = some is := by
  simp only [secondPart?_cons, he, hs]

lemma secondPart?_switches (hs : i.operation.isBlockStart = true)
    (he : i.operation.isBlockEnd = true) :
    secondPart? (depth + 1) (i :: is) = secondPart? (depth + 1) is := by
  simp only [secondPart?_cons, he, hs]

lemma secondPart?_stays (hs : i.operation.isBlockStart = false)
    (he : i.operation.isBlockEnd = false) :
    secondPart? depth (i :: is) = secondPart? depth is := by
  simp only [secondPart?_cons, he, hs]

lemma secondPart?_closes_zero (hs : i.operation.isBlockStart = false)
    (he : i.operation.isBlockEnd = true) : secondPart? 0 (i :: is) = none := by
  simp only [secondPart?_cons, he, hs]

lemma secondPart?_closes (hs : i.operation.isBlockStart = false)
    (he : i.operation.isBlockEnd = true) :
    secondPart? (depth + 1) (i :: is) = secondPart? depth is := by
  simp only [secondPart?_cons, he, hs]

end Direct

/-- What opens or closes a block in a function gives nothing. -/
lemma Operation.numOutputs_of_isBlock {op : Operation} (h : op.home = .function)
    (he : op.endsFunction = false) (hb : op.isBlockStart = true ∨ op.isBlockEnd = true) :
    op.numOutputs = 0 := by
  cases op <;>
    first
    | rfl
    | exact absurd he.symm Bool.false_ne_true
    | exact absurd hb (not_or.mpr ⟨Bool.false_ne_true, Bool.false_ne_true⟩)
    | cases (show World.script = .function from h)
    | cases (show World.module = .function from h)

namespace Lowering

variable {context : LoweringContext} {params : List WasmType} {function : OpenBlock}
  {around : List OpenBlock} {p m p' : Point} {i : Instruction} {target : Instr}
  {is : List Instruction} {code : List Instr} {l : Lowering} {vs : List Variable} {depth : Nat}

/-! ### The code of one instruction -/

lemma isFlat_pushes : ∀ j ∈ l.pushes vs, j.isFlat = true := by
  intro j hj
  obtain ⟨v, -, hv⟩ := List.mem_filterMap.mp hj
  obtain ⟨index, -, rfl⟩ := Option.map_eq_some_iff.mp hv
  rfl

lemma isFlat_pops : ∀ j ∈ l.pops i, j.isFlat = true := by
  intro j hj
  obtain ⟨index, -, rfl⟩ := List.mem_map.mp hj
  rfl

lemma pops_eq_nil (h : i.outputs = []) : l.pops i = [] := by
  rw [pops, h]
  rfl

lemma afterEnd_codeOf (ho : i.outputs = []) :
    Instr.afterEnd depth (l.codeOf i target ++ code) = Instr.afterEnd depth (target :: code) := by
  rw [codeOf, pops_eq_nil ho, List.append_assoc, Instr.afterEnd_of_isFlat isFlat_pushes]
  rfl

lemma elsePart?_codeOf (ho : i.outputs = []) :
    Instr.elsePart? depth (l.codeOf i target ++ code) =
      Instr.elsePart? depth (target :: code) := by
  rw [codeOf, pops_eq_nil ho, List.append_assoc, Instr.elsePart?_of_isFlat isFlat_pushes]
  rfl

lemma isFlat_codeOf (h : target.isFlat = true) : ∀ j ∈ l.codeOf i target, j.isFlat = true := by
  intro j hj
  rcases List.mem_append.mp hj with hj | hj
  · exact isFlat_pushes j hj
  · rcases List.mem_cons.mp hj with rfl | hj
    · exact h
    · exact isFlat_pops j hj

/-! ### Open blocks -/

/-- The labels of the blocks that are open at a position, the innermost first. -/
abbrev Point.labels (p : Point) : List Variable := p.lowering.labels

/-- The variables in scope at a position, scope by scope, the innermost first. -/
abbrev Point.scopes (p : Point) : List (List Variable) := p.state.scopes.scopes

/-- How an instruction between two positions changes the open blocks. -/
inductive Nests (p : Point) (i : Instruction) (target : Instr) (m : Point) : Prop where
  | opens {label : Variable} (start : i.operation.isBlockStart = true)
      (noEnd : i.operation.isBlockEnd = false) (target_opens : target.opensBlock = true)
      (outputs : i.outputs = []) (inner : i.innerOutputs = [label])
      (labels : m.labels = label :: p.labels) (scopes : m.scopes = [label] :: p.scopes)
  | switches {label : Variable} (start : i.operation.isBlockStart = true)
      (isEnd : i.operation.isBlockEnd = true) (target_else : target = .elseThen)
      (outputs : i.outputs = []) (inner : i.innerOutputs = [label])
      (labels : p.labels ≠ [] ∧ m.labels = label :: p.labels.tail)
      (scopes : m.scopes = [label] :: p.scopes.tail)
  | closes (noStart : i.operation.isBlockStart = false)
      (isEnd : i.operation.isBlockEnd = true) (target_end : target = .blockEnd)
      (outputs : i.outputs = []) (inner : i.innerOutputs = [])
      (labels : p.labels ≠ [] ∧ m.labels = p.labels.tail) (scopes : m.scopes = p.scopes.tail)
  | stays (noStart : i.operation.isBlockStart = false)
      (noEnd : i.operation.isBlockEnd = false) (target_flat : target.isFlat = true)
      (inner : i.innerOutputs = []) (labels : m.labels = p.labels)
      (scopes : ∃ top rest, p.scopes = top :: rest ∧
        m.scopes = (i.outputs.reverse ++ top) :: rest)

/-- The counterpart of an instruction opens, switches and closes blocks as the instruction does. -/
lemma nests_target? (h : target? context l i = some target) :
    match i.operation.isBlockStart, i.operation.isBlockEnd with
    | true, false => target.opensBlock = true
    | true, true => target = .elseThen
    | false, true => target = .blockEnd
    | false, false => target.isFlat = true := by
  obtain ⟨op, inputs, outputs, innerOutputs⟩ := i
  cases op with
  | wasmMemoryLoad type offset =>
      obtain ⟨-, index, -, rfl⟩ := target?_memoryLoad h
      rfl
  | wasmMemoryStore type offset =>
      obtain ⟨-, index, -, rfl⟩ := target?_memoryStore h
      rfl
  | _ =>
      first
      | (obtain rfl := Option.some.inj h; rfl)
      | (obtain ⟨index, -, rfl⟩ := Option.map_eq_some_iff.mp h; rfl)
      | cases h

/-- **How an instruction changes the open blocks**: it opens one, goes on to the second part of
one, closes one, or leaves them as they are. -/
theorem Passes.nests (h : Passes context p i target m)
    (hf : p.Fits context params function around) :
    Nests p i target m := by
  obtain ⟨next, ha, hm⟩ := Validator.step_eq_ok_iff.mp h.step
  have hhome := hf.follows.inside.home hf.sound.fits.toPlaced ha.position
  have htarget := nests_target? h.counterpart
  have hlabels : m.labels = labelsBehind p.labels i := by
    obtain ⟨types, -, hb⟩ := h.behind
    rw [Point.labels, hb, labels_behind]
  have hinner := length_innerOutputs ha.arity hhome (s := p.state)
  obtain ⟨top, rest, hsc, -⟩ := (hf.sound.fits.outside ha.position).1.exists_scopes
  have hscopes := ScopeState.scopes_apply hsc
  rw [show (p.state.scopes.apply i).scopes = m.scopes by rw [Point.scopes, hm]] at hscopes
  have houtputs : i.operation.isBlockStart = true ∨ i.operation.isBlockEnd = true →
      i.outputs = [] := fun hb => by
    rw [← List.length_eq_zero_iff, (Instruction.hasConsistentArity_iff.mp ha.arity).2.1]
    exact Operation.numOutputs_of_isBlock hhome h.open_ hb
  have hopen : i.operation.isBlockEnd = true → p.labels ≠ [] := fun he hnil => by
    obtain ⟨b, bs, hb, -⟩ :=
      hf.follows.inside.exists_cons_of_isBlockEnd hf.sound.fits.toPlaced ha.position h.open_ he
    have hlen : p.inner.length = p.labels.length := hf.follows.length_inner
    rw [hb, hnil] at hlen
    exact nomatch hlen
  rw [labelsBehind] at hlabels
  rw [ScopeState.opened] at hinner
  cases hs : i.operation.isBlockStart <;> cases he : i.operation.isBlockEnd <;>
    rw [hs, he] at htarget <;> rw [hs] at hinner hscopes <;> rw [he] at hlabels
  · rw [ScopeState.outside_of_not_isBlockEnd he] at hsc
    have hnil := List.length_eq_zero_iff.mp hinner
    rw [hnil] at hlabels
    exact .stays hs he htarget hnil hlabels ⟨top, rest, hsc, hscopes⟩
  · rw [ScopeState.outside_of_isBlockEnd he] at hsc
    have hnil := List.length_eq_zero_iff.mp hinner
    rw [hnil] at hlabels
    rw [houtputs (.inr he)] at hscopes
    exact .closes hs he htarget (houtputs (.inr he)) hnil ⟨hopen he, hlabels⟩
      (hscopes.trans hsc.symm)
  · obtain ⟨label, hlabel⟩ := List.length_eq_one_iff.mp hinner
    rw [ScopeState.outside_of_not_isBlockEnd he] at hsc
    rw [hlabel] at hlabels hscopes
    rw [houtputs (.inl hs)] at hscopes
    exact .opens hs he htarget (houtputs (.inl hs)) hlabel hlabels
      (hscopes.trans (congrArg ([label] :: ·) hsc.symm))
  · obtain ⟨label, hlabel⟩ := List.length_eq_one_iff.mp hinner
    rw [ScopeState.outside_of_isBlockEnd he] at hsc
    rw [hlabel] at hlabels hscopes
    rw [houtputs (.inl hs)] at hscopes
    exact .switches hs he htarget (houtputs (.inl hs)) hlabel ⟨hopen he, hlabels⟩
      (hscopes.trans (congrArg ([label] :: ·) hsc.symm))

/-! ### Positions behind blocks -/

namespace Trace

/-- Traces are put together where one ends and the other begins. -/
lemma append {js : List Instruction} {code' : List Instr} {q : Point}
    (h : Trace context params function around p is code m)
    (h' : Trace context params function around m js code' q) :
    Trace context params function around p (is ++ js) (code ++ code') q := by
  induction h with
  | nil => exact h'
  | cons fits head _ ih =>
      rw [List.append_assoc]
      exact .cons fits head (ih h')

end Trace

/-- On the way from one position to another lies the position `q`, where `rest` is left with its
code. -/
structure Via (context : LoweringContext) (params : List WasmType) (function : OpenBlock)
    (around : List OpenBlock) (p : Point) (is : List Instruction) (code : List Instr) (p' : Point)
    (q : Point) (rest : List Instruction) (restCode : List Instr) : Prop where
  before : ∃ mid midCode, is = mid ++ rest ∧ code = midCode ++ restCode ∧
    Trace context params function around p mid midCode q
  behind : Trace context params function around q rest restCode p'

namespace Via

variable {q r : Point} {rest rest' : List Instruction} {restCode restCode' : List Instr}

lemma refl (h : Trace context params function around p is code p') :
    Via context params function around p is code p' p is code :=
  ⟨⟨[], [], rfl, rfl, .nil h.fits_start⟩, h⟩

lemma cons (hf : p.Fits context params function around) (hi : Passes context p i target m)
    (h : Via context params function around m is code p' q rest restCode) :
    Via context params function around p (i :: is) (p.lowering.codeOf i target ++ code) p' q rest
      restCode := by
  obtain ⟨⟨mid, midCode, rfl, rfl, hmid⟩, hrest⟩ := h
  exact ⟨⟨_, _, rfl, (List.append_assoc ..).symm, .cons hf hi hmid⟩, hrest⟩

lemma trans (h : Via context params function around p is code p' q rest restCode)
    (h' : Via context params function around q rest restCode p' r rest' restCode') :
    Via context params function around p is code p' r rest' restCode' := by
  obtain ⟨⟨mid, midCode, rfl, rfl, hmid⟩, -⟩ := h
  obtain ⟨⟨mid', midCode', rfl, rfl, hmid'⟩, hrest⟩ := h'
  exact ⟨⟨_, _, (List.append_assoc ..).symm, (List.append_assoc ..).symm, hmid.append hmid'⟩,
    hrest⟩

end Via

/-- The position `q` lies behind the block that the position `p` is in, where `depth` blocks inside
are open. -/
structure IsExit (p : Point) (is : List Instruction) (code : List Instr) (depth : Nat) (q : Point)
    (rest : List Instruction) (restCode : List Instr) : Prop where
  rest_eq : Direct.afterBlock depth is = rest
  code_eq : ∀ tail, Instr.afterEnd depth (code ++ tail) = restCode ++ tail
  labels : q.labels = p.labels.drop (depth + 1)
  scopes : q.scopes = p.scopes.drop (depth + 1)

/-- **Where a block ends**: the instructions behind it have the code behind the block of code. -/
theorem Trace.exists_exit (h : Trace context params function around p is code p')
    (hp' : p'.labels = []) (hd : depth < p.labels.length) :
    ∃ q rest restCode, Via context params function around p is code p' q rest restCode ∧
      IsExit p is code depth q rest restCode := by
  induction h generalizing depth with
  | nil =>
      rw [hp'] at hd
      exact absurd hd (Nat.not_lt_zero _)
  | @cons p m p' i target is code fits head tail ih =>
      -- the end of the block is found from the next position
      have hpass : ∀ d, d < m.labels.length →
          Direct.afterBlock depth (i :: is) = Direct.afterBlock d is →
          (∀ c, Instr.afterEnd depth (p.lowering.codeOf i target ++ c) = Instr.afterEnd d c) →
          m.labels.drop (d + 1) = p.labels.drop (depth + 1) →
          m.scopes.drop (d + 1) = p.scopes.drop (depth + 1) →
          ∃ q rest restCode, Via context params function around p (i :: is)
            (p.lowering.codeOf i target ++ code) p' q rest restCode ∧
              IsExit p (i :: is) (p.lowering.codeOf i target ++ code) depth q rest restCode := by
        intro d hdm hblock hcode hlabels hscopes
        obtain ⟨q, rest, restCode, hvia, hexit⟩ := ih hp' hdm
        refine ⟨q, rest, restCode, hvia.cons fits head, hblock.trans hexit.rest_eq, fun tail => ?_,
          hexit.labels.trans hlabels, hexit.scopes.trans hscopes⟩
        rw [List.append_assoc, hcode, hexit.code_eq]
      cases head.nests fits with
      | opens start noEnd target_opens outputs inner labels scopes =>
          refine hpass (depth + 1) ?_ (Direct.afterBlock_opens start noEnd) (fun c => ?_) ?_ ?_
          · rw [labels]
            exact Nat.succ_lt_succ hd
          · rw [afterEnd_codeOf outputs, Instr.afterEnd_of_opensBlock target_opens]
          · rw [labels, List.drop_succ_cons]
          · rw [scopes, List.drop_succ_cons]
      | switches start isEnd target_else outputs inner labels scopes =>
          refine hpass depth ?_ (Direct.afterBlock_switches start isEnd) (fun c => ?_) ?_ ?_
          · rw [labels.2, List.length_cons, List.length_tail]
            omega
          · rw [afterEnd_codeOf outputs, target_else]
            cases depth <;> rfl
          · rw [labels.2, List.drop_succ_cons, List.drop_tail]
          · rw [scopes, List.drop_succ_cons, List.drop_tail]
      | closes noStart isEnd target_end outputs inner labels scopes =>
          cases depth with
          | zero =>
              refine ⟨m, is, code, (Via.refl tail).cons fits head,
                Direct.afterBlock_closes_zero noStart isEnd, fun c => ?_, ?_, ?_⟩
              · rw [List.append_assoc, afterEnd_codeOf outputs, target_end]
                rfl
              · rw [labels.2, List.drop_one]
              · rw [scopes, List.drop_one]
          | succ depth =>
              refine hpass depth ?_ (Direct.afterBlock_closes noStart isEnd) (fun c => ?_) ?_ ?_
              · rw [labels.2, List.length_tail]
                omega
              · rw [afterEnd_codeOf outputs, target_end]
                rfl
              · rw [labels.2, List.drop_tail]
              · rw [scopes, List.drop_tail]
      | stays noStart noEnd target_flat inner labels scopes =>
          obtain ⟨top, rest, hp, hm⟩ := scopes
          refine hpass depth (by rwa [labels]) (Direct.afterBlock_stays noStart noEnd)
            (fun c => Instr.afterEnd_of_isFlat (isFlat_codeOf target_flat)) (by rw [labels]) ?_
          rw [hp, hm, List.drop_succ_cons, List.drop_succ_cons]

/-- The instruction `i` at the position `q` begins the second part of the block that the position
`p` is in, where `depth` blocks inside are open. -/
structure IsSecondPart (p : Point) (is : List Instruction) (code : List Instr) (depth : Nat)
    (q : Point) (i : Instruction) (rest : List Instruction) (restCode : List Instr) : Prop where
  isEnd : i.operation.isBlockEnd = true
  rest_eq : Direct.secondPart? depth is = some rest
  code_eq : ∀ tail, Instr.elsePart? depth (code ++ tail) = some (restCode ++ tail)
  afterBlock : Direct.afterBlock depth is = Direct.afterBlock 0 rest
  afterEnd : ∀ tail, Instr.afterEnd depth (code ++ tail) = Instr.afterEnd 0 (restCode ++ tail)
  labels : q.labels.tail = p.labels.drop (depth + 1)
  scopes : q.scopes.tail = p.scopes.drop (depth + 1)

/-- **Where the second part of a block begins**, if it has one, and there the code has one too. -/
theorem Trace.exists_secondPart (h : Trace context params function around p is code p')
    (hp' : p'.labels = []) (hd : depth < p.labels.length) :
    (Direct.secondPart? depth is = none ∧
      ∀ tail, Instr.elsePart? depth (code ++ tail) = none) ∨
    ∃ q i r rest restCode, Passes context q i .elseThen r ∧
      Via context params function around p is code p' q (i :: rest)
        (q.lowering.codeOf i .elseThen ++ restCode) ∧
      IsSecondPart p is code depth q i rest restCode := by
  induction h generalizing depth with
  | nil =>
      rw [hp'] at hd
      exact absurd hd (Nat.not_lt_zero _)
  | @cons p m p' i target is code fits head tail ih =>
      -- the second part of the block is found from the next position
      have hpass : ∀ d, d < m.labels.length →
          Direct.secondPart? depth (i :: is) = Direct.secondPart? d is →
          Direct.afterBlock depth (i :: is) = Direct.afterBlock d is →
          (∀ c, Instr.elsePart? depth (p.lowering.codeOf i target ++ c) = Instr.elsePart? d c) →
          (∀ c, Instr.afterEnd depth (p.lowering.codeOf i target ++ c) = Instr.afterEnd d c) →
          m.labels.drop (d + 1) = p.labels.drop (depth + 1) →
          m.scopes.drop (d + 1) = p.scopes.drop (depth + 1) →
          (Direct.secondPart? depth (i :: is) = none ∧ ∀ tail,
            Instr.elsePart? depth (p.lowering.codeOf i target ++ code ++ tail) = none) ∨
          ∃ q j r rest restCode, Passes context q j .elseThen r ∧
            Via context params function around p (i :: is) (p.lowering.codeOf i target ++ code) p'
              q (j :: rest) (q.lowering.codeOf j .elseThen ++ restCode) ∧
            IsSecondPart p (i :: is) (p.lowering.codeOf i target ++ code) depth q j rest
              restCode := by
        intro d hdm hpart hblock hcode hend hlabels hscopes
        rcases ih hp' hdm with ⟨hnone, hcodeNone⟩ | ⟨q, j, r, rest, restCode, hj, hvia, hsecond⟩
        · refine .inl ⟨hpart.trans hnone, fun tail => ?_⟩
          rw [List.append_assoc, hcode, hcodeNone]
        · refine .inr ⟨q, j, r, rest, restCode, hj, hvia.cons fits head, hsecond.isEnd,
            hpart.trans hsecond.rest_eq, fun tail => ?_, hblock.trans hsecond.afterBlock,
            fun tail => ?_, hsecond.labels.trans hlabels, hsecond.scopes.trans hscopes⟩
          · rw [List.append_assoc, hcode, hsecond.code_eq]
          · rw [List.append_assoc, hend, hsecond.afterEnd]
      cases head.nests fits with
      | opens start noEnd target_opens outputs inner labels scopes =>
          refine hpass (depth + 1) ?_ (Direct.secondPart?_opens start noEnd)
            (Direct.afterBlock_opens start noEnd) (fun c => ?_) (fun c => ?_) ?_ ?_
          · rw [labels]
            exact Nat.succ_lt_succ hd
          · rw [elsePart?_codeOf outputs, Instr.elsePart?_of_opensBlock target_opens]
          · rw [afterEnd_codeOf outputs, Instr.afterEnd_of_opensBlock target_opens]
          · rw [labels, List.drop_succ_cons]
          · rw [scopes, List.drop_succ_cons]
      | switches start isEnd target_else outputs inner labels scopes =>
          subst target_else
          have hend : ∀ c, Instr.afterEnd depth (p.lowering.codeOf i .elseThen ++ c) =
              Instr.afterEnd depth c := by
            intro c
            rw [afterEnd_codeOf outputs]
            cases depth <;> rfl
          cases depth with
          | zero =>
              refine .inr ⟨p, i, m, is, code, head, Via.refl (.cons fits head tail), isEnd,
                Direct.secondPart?_switches_zero start isEnd, fun c => ?_,
                Direct.afterBlock_switches start isEnd, fun c => ?_, List.drop_one.symm,
                List.drop_one.symm⟩
              · rw [List.append_assoc, elsePart?_codeOf outputs]
                rfl
              · rw [List.append_assoc, hend]
          | succ depth =>
              refine hpass (depth + 1) ?_ (Direct.secondPart?_switches start isEnd)
                (Direct.afterBlock_switches start isEnd) (fun c => ?_) hend ?_ ?_
              · rw [labels.2, List.length_cons, List.length_tail]
                omega
              · rw [elsePart?_codeOf outputs]
                rfl
              · rw [labels.2, List.drop_succ_cons, List.drop_tail]
              · rw [scopes, List.drop_succ_cons, List.drop_tail]
      | closes noStart isEnd target_end outputs inner labels scopes =>
          subst target_end
          cases depth with
          | zero =>
              refine .inl ⟨Direct.secondPart?_closes_zero noStart isEnd, fun c => ?_⟩
              rw [List.append_assoc, elsePart?_codeOf outputs]
              rfl
          | succ depth =>
              refine hpass depth ?_ (Direct.secondPart?_closes noStart isEnd)
                (Direct.afterBlock_closes noStart isEnd) (fun c => ?_) (fun c => ?_) ?_ ?_
              · rw [labels.2, List.length_tail]
                omega
              · rw [elsePart?_codeOf outputs]
                rfl
              · rw [afterEnd_codeOf outputs]
                rfl
              · rw [labels.2, List.drop_tail]
              · rw [scopes, List.drop_tail]
      | stays noStart noEnd target_flat inner labels scopes =>
          obtain ⟨top, rest, hp, hm⟩ := scopes
          refine hpass depth (by rwa [labels]) (Direct.secondPart?_stays noStart noEnd)
            (Direct.afterBlock_stays noStart noEnd)
            (fun c => Instr.elsePart?_of_isFlat (isFlat_codeOf target_flat))
            (fun c => Instr.afterEnd_of_isFlat (isFlat_codeOf target_flat)) (by rw [labels]) ?_
          rw [hp, hm, List.drop_succ_cons, List.drop_succ_cons]

end Lowering

end EngineFuzz
