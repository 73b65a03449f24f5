import Mathlib
import EngineFuzz.Proofs.Validation.Grammar
import EngineFuzz.Proofs.Validation.Soundness

/-!
# Checked scopes and the grammar of blocks

A list of instructions passes the checks of scopes, and leaves no block open, exactly if it derives
from the grammar.

* `ScopeState.run`: the check and the effect of one instruction after another.
* `OpenRegion`, `Region.Move`: the blocks that are open, and what an operation does with them.
* `ScopeState.Stands`: a position in open blocks, with `ScopeState.Stands.exists_move` and
  `ScopeState.Stands.of_move`.
* `Region.Derives.exists_run`: what derives passes the checks.
* `Region.Completes`, `ScopeState.Stands.completes`: what passes the checks completes the blocks
  that are open.
* `ScopeState.run_start_iff_derives`: the main statement.
-/

namespace EngineFuzz

/-- Goes past instructions, each of which may stand where it does. -/
def ScopeState.run (s : ScopeState) : List Instruction → Except ScopeError ScopeState
  | [] => .ok s
  | i :: rest =>
    match s.check i with
    | .error e => .error e
    | .ok () => (s.apply i).run rest

/-! ### Open blocks -/

/-- A block that is open, with the regions outside and inside. -/
structure OpenRegion where
  outer : Region
  opener : Operation
  inner : Region
  /-- Whether the second part has begun. -/
  switched : Bool
  opens : outer.Opens opener inner
  twoParts : switched = true → ∃ middle last, Region.TwoParts outer opener middle last

namespace OpenRegion

/-- The block that an operation opens. -/
def first {r inner : Region} {op : Operation} (h : r.Opens op inner) : OpenRegion :=
  ⟨r, op, inner, false, h, nofun⟩

/-- What an operation has to be to begin the second part of the block. -/
def SwitchedBy (b : OpenRegion) (op : Operation) : Prop :=
  b.switched = false ∧ ∃ last, Region.TwoParts b.outer b.opener op last

/-- What an operation has to be to close the block. -/
def ClosedBy (b : OpenRegion) (op : Operation) : Prop :=
  if b.switched then ∃ middle, Region.TwoParts b.outer b.opener middle op
  else Region.Block b.outer b.opener b.inner op

/-- The block with its second part begun. -/
def second (b : OpenRegion) {op : Operation} (h : b.SwitchedBy op) : OpenRegion :=
  { b with switched := true, twoParts := fun _ => ⟨op, h.2⟩ }

end OpenRegion

namespace Region

/-- An operation goes from a region in open blocks to a region in open blocks. -/
inductive Move : Region → List OpenRegion → Operation → Region → List OpenRegion → Prop where
  | stays {r : Region} {bs : List OpenRegion} {op : Operation} {k : Statement}
      (kind : op.statement? = some k) (allowed : r.Allows k) : Move r bs op r bs
  | opens {r inner : Region} {bs : List OpenRegion} {op : Operation}
      (inside : r.Opens op inner) :
      Move r bs op inner (.first inside :: bs)
  | switches {b : OpenRegion} {bs : List OpenRegion} {op : Operation} (fits : b.SwitchedBy op) :
      Move b.inner (b :: bs) op b.inner (b.second fits :: bs)
  | closes {b : OpenRegion} {bs : List OpenRegion} {op : Operation} (fits : b.ClosedBy op) :
      Move b.inner (b :: bs) op b.outer bs

end Region

/-- What closes a block with its second part begun, if it needs one. -/
lemma OpenRegion.ClosedBy.facts {b : OpenRegion} {op : Operation} (h : b.ClosedBy op) :
    op.isBlockStart = false ∧ op.isBlockEnd = true ∧ op.kind = b.opener.kind ∧
      b.inner.context.contains op.requiredContext = true ∧
        (op = .endTryCatch → b.switched = true) := by
  unfold OpenRegion.ClosedBy at h
  split at h
  · rename_i hsecond
    obtain ⟨middle, hp⟩ := h
    obtain ⟨hs, he, hk, hc⟩ := hp.facts_last
    rw [b.opens.unique hp.opens]
    exact ⟨hs, he, hk, hc, fun _ => hsecond⟩
  · obtain ⟨hs, he, hk, hne, hc⟩ := h.facts
    exact ⟨hs, he, hk, hc, fun ht => absurd ht hne⟩

/-- Each block stands in the region inside the next one, and the first has this region inside. -/
def Region.Linked : Region → List OpenRegion → Prop
  | _, [] => True
  | r, b :: bs => b.inner = r ∧ Linked b.outer bs

namespace ScopeState

variable {s s' : ScopeState} {r r' : Region} {b : OpenRegion} {bs bs' : List OpenRegion}
  {i : Instruction} {op : Operation} {is js : List Instruction}

/-! ### One instruction -/

/-- The contexts behind an instruction. -/
lemma contexts_apply : (s.apply i).contexts =
    (if i.operation.isBlockStart then [i.operation.innerContext (s.outside i).context] else []) ++
      (s.outside i).contexts := by
  have hd : (s.declared i).contexts = (s.outside i).contexts := contexts_declareAll
  cases hb : i.operation.isBlockStart with
  | true =>
      rw [apply_of_isBlockStart hb, contexts_enter, context, hd]
      rfl
  | false =>
      rw [apply_of_not_isBlockStart hb, hd]
      rfl

/-- What may end or continue the innermost block, if it is of the right kind. -/
lemma checkBlockEnd_eq_ok_iff {block : OpenBlock} {blocks : List OpenBlock}
    (he : op.isBlockEnd = true) (hb : s.blocks = block :: blocks) (hk : block.kind = op.kind) :
    s.checkBlockEnd op = .ok () ↔
      (op.isBlockStart = true → block.switched = false) ∧
        (op = .endTryCatch → block.switched = true) := by
  obtain ⟨scopes, visible, contexts, _⟩ := s
  obtain rfl : _ = block :: blocks := hb
  have hsome : ¬some block.kind ≠ op.blockKind? := by
    rw [Operation.blockKind?_of_isBlockEnd he, hk]
    exact not_not.mpr rfl
  cases hs : op.isBlockStart with
  | true =>
      have heq : checkBlockEnd ⟨scopes, visible, contexts, block :: blocks⟩ op =
          if block.switched then .error (.secondPart op) else .ok () := by
        cases op with
        | beginElse | beginCatch | wasmBeginElse => exact if_neg hsome
        | _ => first | exact absurd hs Bool.false_ne_true | exact absurd he Bool.false_ne_true
      have ht : op ≠ .endTryCatch := by
        rintro rfl
        exact Bool.noConfusion hs
      rw [heq]
      cases block.switched <;> simp [ht]
  | false =>
      by_cases ht : op = .endTryCatch
      · subst ht
        have heq : checkBlockEnd ⟨scopes, visible, contexts, block :: blocks⟩ .endTryCatch =
            if block.switched then .ok () else .error .tryWithoutCatch := if_neg hsome
        rw [heq]
        cases block.switched <;> simp
      · have heq : checkBlockEnd ⟨scopes, visible, contexts, block :: blocks⟩ op = .ok () := by
          cases op with
          | endPlainFunction | endIf | endRepeatLoop | endWasmModule | endWasmFunction
            | wasmEndBlock | wasmEndLoop | wasmEndIf => exact if_neg hsome
          | endTryCatch => exact absurd rfl ht
          | _ => first | exact Bool.noConfusion hs | exact Bool.noConfusion he
        simp [heq, ht]

/-- The position is in the region, inside these blocks. -/
structure Stands (s : ScopeState) (r : Region) (bs : List OpenRegion) : Prop where
  contexts : s.contexts = r.context :: bs.map (·.outer.context)
  blocks : s.blocks.map (fun b => (b.kind, b.switched)) =
    bs.map fun b => (b.opener.kind, b.switched)
  linked : r.Linked bs

lemma stands_start : start.Stands (.script false false) [] := ⟨rfl, rfl, trivial⟩

namespace Stands

lemma context_eq (h : s.Stands r bs) : s.context = r.context := by
  rw [context, h.contexts, List.headD_cons]

/-- **What an instruction does** that may stand at the position. -/
theorem exists_move (h : s.Stands r bs) (hc : s.check i = .ok ()) :
    ∃ r' bs', Region.Move r bs i.operation r' bs' := by
  obtain ⟨hend, hcon⟩ := check_eq_ok_iff.mp hc
  rw [h.context_eq] at hcon
  cases he : i.operation.isBlockEnd with
  | false =>
      cases hs : i.operation.isBlockStart with
      | false =>
          obtain ⟨k, hk⟩ := Region.exists_statement hs he
          rw [(Region.of_statement hk).2.2] at hcon
          exact ⟨r, bs, .stays hk (Region.contains_iff_allows.mp hcon)⟩
      | true =>
          obtain ⟨inner, ho⟩ := Region.exists_opens hs he hcon
          exact ⟨inner, _, .opens ho⟩
  | true =>
      obtain ⟨b, rest, hb, hk⟩ := exists_cons_of_checkBlockEnd (hend he) he
      obtain ⟨hsw, htry⟩ := (checkBlockEnd_eq_ok_iff he hb hk).mp (hend he)
      have hbs := h.blocks
      rw [hb, List.map_cons, eq_comm, List.map_eq_cons_iff] at hbs
      obtain ⟨c, cs, rfl, hcb, -⟩ := hbs
      obtain ⟨hck, hcs⟩ := Prod.mk.inj hcb
      obtain ⟨rfl, -⟩ := h.linked
      have hkind : i.operation.kind = c.opener.kind := by rw [hck, hk]
      cases hs : i.operation.isBlockStart with
      | true =>
          have hfits : c.SwitchedBy i.operation :=
            ⟨hcs.trans (hsw hs), c.opens.exists_twoParts hs he hkind⟩
          exact ⟨_, _, .switches hfits⟩
      | false =>
          refine ⟨_, _, .closes ?_⟩
          unfold OpenRegion.ClosedBy
          split
          · rename_i hsecond
            obtain ⟨middle, last, hp⟩ := c.twoParts hsecond
            exact ⟨middle, hp.closes hs he hkind⟩
          · rename_i hfirst
            refine c.opens.block hs he hkind fun ht => hfirst ?_
            rw [hcs, htry ht]

/-- The position behind the block that an instruction ends. -/
lemma leave (h : s.Stands r (b :: bs)) (he : i.operation.isBlockEnd = true) :
    (s.outside i).Stands b.outer bs := by
  obtain ⟨hc, hb, hl⟩ := h
  rw [outside_of_isBlockEnd he]
  refine ⟨?_, ?_, hl.2⟩
  · rw [ScopeState.leave, hc]
    rfl
  · rw [ScopeState.leave, List.map_tail, hb]
    rfl

/-- The block that is left has the kind and the parts that are known of it. -/
lemma exists_block (h : s.Stands r (b :: bs)) :
    ∃ block rest, s.blocks = block :: rest ∧ block.kind = b.opener.kind ∧
      block.switched = b.switched := by
  have hb := h.blocks
  rw [List.map_cons, List.map_eq_cons_iff] at hb
  obtain ⟨block, rest, hb, heq, -⟩ := hb
  exact ⟨block, rest, hb, Prod.mk.inj heq⟩

/-- **An operation with a move** may stand at the position, and makes the move. -/
theorem of_move (h : s.Stands r bs) (hm : Region.Move r bs i.operation r' bs') :
    s.check i = .ok () ∧ (s.apply i).Stands r' bs' := by
  rw [check_eq_ok_iff, h.context_eq]
  cases hm with
  | stays kind allowed =>
      obtain ⟨hs, he, hc⟩ := Region.of_statement kind
      refine ⟨⟨fun hend => by simp [he] at hend, ?_⟩, ?_⟩
      · rw [hc]
        exact Region.contains_iff_allows.mpr allowed
      · rw [apply_of_not_isBlockStart hs, declared, outside_of_not_isBlockEnd he]
        exact ⟨by rw [contexts_declareAll, h.contexts], by rw [blocks_declareAll, h.blocks],
          h.linked⟩
  | opens inside =>
      obtain ⟨hs, he, hc, hinner⟩ := inside.facts
      refine ⟨⟨fun hend => by simp [he] at hend, hc⟩, ?_, ?_, rfl, h.linked⟩
      · rw [contexts_apply, if_pos hs, outside_of_not_isBlockEnd he, h.context_eq, hinner,
          h.contexts]
        rfl
      · rw [blocks_apply, opened, if_pos hs, closed?, he, List.map_append, if_neg (by simp),
          if_neg (by simp), h.blocks]
        rfl
  | switches fits =>
      rename_i b bs
      obtain ⟨last, hp⟩ := fits.2
      obtain ⟨hs, he, hk, hc, hinner⟩ := hp.facts_middle
      obtain ⟨block, rest, hb, hkind, hsw⟩ := h.exists_block
      have hsame : b.inner = b.outer := b.opens.unique hp.opens
      have hleft := h.leave he
      refine ⟨⟨fun _ => ?_, by rw [hsame]; exact hc⟩, ?_, ?_, rfl, hleft.linked⟩
      · refine (checkBlockEnd_eq_ok_iff he hb (hkind.trans hk.symm)).mpr ⟨fun _ => ?_, ?_⟩
        · rw [hsw, fits.1]
        · intro ht
          rw [ht] at hs
          exact Bool.noConfusion hs
      · rw [contexts_apply, if_pos hs, hleft.context_eq, hinner, hleft.contexts, hsame]
        rfl
      · have hrest := h.blocks
        rw [hb, List.map_cons, List.map_cons, List.cons.injEq] at hrest
        rw [blocks_apply, opened, if_pos hs, closed?, if_pos he, if_pos he, hb]
        exact congrArg₂ _ (congrArg (·, true) hkind) hrest.2
  | closes fits =>
      rename_i b
      obtain ⟨hs, he, hk, hc, htry⟩ := fits.facts
      obtain ⟨block, rest, hb, hkind, hsw⟩ := h.exists_block
      have hleft := h.leave he
      refine ⟨⟨fun _ => ?_, hc⟩, ?_⟩
      · refine (checkBlockEnd_eq_ok_iff he hb (hkind.trans hk.symm)).mpr ⟨fun h => ?_, fun ht => ?_⟩
        · simp [hs] at h
        · rw [hsw, htry ht]
      · rw [apply_of_not_isBlockStart hs, declared]
        exact ⟨by rw [contexts_declareAll, hleft.contexts],
          by rw [blocks_declareAll, hleft.blocks], hleft.linked⟩

end Stands

/-! ### Lists of instructions -/

lemma run_cons_eq_ok_iff : s.run (i :: is) = .ok s' ↔
    s.check i = .ok () ∧ (s.apply i).run is = .ok s' := by
  rw [run]
  cases s.check i with
  | error e => simp
  | ok u => simp

lemma run_append_eq_ok_iff {s'' : ScopeState} : s.run (is ++ js) = .ok s'' ↔
    ∃ s', s.run is = .ok s' ∧ s'.run js = .ok s'' := by
  induction is generalizing s with
  | nil => simp [run]
  | cons i is ih =>
      simp only [List.cons_append, run_cons_eq_ok_iff, ih, and_assoc, exists_and_left]

end ScopeState

namespace Region

variable {r inner : Region} {b : OpenRegion} {bs : List OpenRegion} {i first last : Instruction}
  {is js body : List Instruction}

/-- **What derives from the region passes the checks**, and leaves the open blocks as they are. -/
theorem Derives.exists_run (h : r.Derives is) {s : ScopeState} (hs : s.Stands r bs) :
    ∃ s', s.run is = .ok s' ∧ s'.Stands r bs := by
  induction h generalizing s bs with
  | nil => exact ⟨s, rfl, hs⟩
  | statement kind allowed rest ih =>
      obtain ⟨hc, ha⟩ := hs.of_move (.stays kind allowed)
      obtain ⟨s', hr, hs'⟩ := ih ha
      exact ⟨s', ScopeState.run_cons_eq_ok_iff.mpr ⟨hc, hr⟩, hs'⟩
  | block production inside rest ihBody ihRest =>
      obtain ⟨hc, ha⟩ := hs.of_move (.opens production.opens)
      obtain ⟨s₁, hr₁, hs₁⟩ := ihBody ha
      obtain ⟨hc₁, ha₁⟩ := hs₁.of_move (.closes (b := .first production.opens) production)
      obtain ⟨s₂, hr₂, hs₂⟩ := ihRest ha₁
      refine ⟨s₂, ScopeState.run_cons_eq_ok_iff.mpr ⟨hc, ?_⟩, hs₂⟩
      rw [ScopeState.run_append_eq_ok_iff]
      exact ⟨s₁, hr₁, ScopeState.run_cons_eq_ok_iff.mpr ⟨hc₁, hr₂⟩⟩
  | twoParts production inside inside' rest ihBody ihBody' ihRest =>
      obtain ⟨hc, ha⟩ := hs.of_move (.opens production.opens)
      obtain ⟨s₁, hr₁, hs₁⟩ := ihBody ha
      have hfits : (OpenRegion.first production.opens).SwitchedBy _ := ⟨rfl, _, production⟩
      obtain ⟨hc₁, ha₁⟩ := hs₁.of_move (.switches hfits)
      obtain ⟨s₂, hr₂, hs₂⟩ := ihBody' ha₁
      obtain ⟨hc₂, ha₂⟩ := hs₂.of_move
        (.closes (b := OpenRegion.second _ hfits) ⟨_, production⟩)
      obtain ⟨s₃, hr₃, hs₃⟩ := ihRest ha₂
      refine ⟨s₃, ScopeState.run_cons_eq_ok_iff.mpr ⟨hc, ?_⟩, hs₃⟩
      rw [ScopeState.run_append_eq_ok_iff]
      refine ⟨s₁, hr₁, ScopeState.run_cons_eq_ok_iff.mpr ⟨hc₁, ?_⟩⟩
      rw [ScopeState.run_append_eq_ok_iff]
      exact ⟨s₂, hr₂, ScopeState.run_cons_eq_ok_iff.mpr ⟨hc₂, hr₃⟩⟩

/-- The instructions complete all open blocks, from the region inside the innermost one on. -/
inductive Completes : Region → List OpenRegion → List Instruction → Prop where
  | done {r : Region} {is : List Instruction} (derives : r.Derives is) : Completes r [] is
  | closes {b : OpenRegion} {bs : List OpenRegion} {i : Instruction} {body is : List Instruction}
      (inside : b.inner.Derives body) (fits : b.ClosedBy i.operation)
      (rest : Completes b.outer bs is) : Completes b.inner (b :: bs) (body ++ i :: is)
  | switches {b : OpenRegion} {bs : List OpenRegion} {i : Instruction}
      {body is : List Instruction} (inside : b.inner.Derives body)
      (fits : b.SwitchedBy i.operation) (rest : Completes b.inner (b.second fits :: bs) is) :
      Completes b.inner (b :: bs) (body ++ i :: is)

namespace Completes

/-- What derives together with whatever derives may stand in front. -/
lemma append (h : Completes r bs is) (hp : ∀ body, r.Derives body → r.Derives (js ++ body)) :
    Completes r bs (js ++ is) := by
  cases h with
  | done derives => exact .done (hp _ derives)
  | closes inside fits rest =>
      rw [← List.append_assoc]
      exact .closes (hp _ inside) fits rest
  | switches inside fits rest =>
      rw [← List.append_assoc]
      exact .switches (hp _ inside) fits rest

/-- Outside of all blocks there is nothing to complete. -/
lemma derives (h : Completes r bs is) (hb : bs = []) : r.Derives is := by
  cases h with
  | done derives => exact derives
  | closes inside fits rest => exact nomatch hb
  | switches inside fits rest => exact nomatch hb

/-- How the innermost block is completed. -/
lemma exists_parts (h : Completes r (b :: bs) is) :
    ∃ body i rest, is = body ++ i :: rest ∧ b.inner.Derives body ∧
      (b.ClosedBy i.operation ∧ Completes b.outer bs rest ∨
        ∃ fits : b.SwitchedBy i.operation, Completes b.inner (b.second fits :: bs) rest) := by
  cases h with
  | closes inside fits rest => exact ⟨_, _, _, rfl, inside, .inl ⟨fits, rest⟩⟩
  | switches inside fits rest => exact ⟨_, _, _, rfl, inside, .inr ⟨fits, rest⟩⟩

/-- A whole block may stand in front. -/
lemma opens (inside : r.Opens i.operation inner)
    (h : Completes inner (.first inside :: bs) is) : Completes r bs (i :: is) := by
  obtain ⟨body, m, rest, rfl, hbody, ⟨hclosed, hrest⟩ | ⟨hfits, hsecond⟩⟩ := h.exists_parts
  · have hp : Block r i.operation inner m.operation := hclosed
    have h : Completes r bs ((i :: (body ++ [m])) ++ rest) := by
      refine hrest.append fun js hjs => ?_
      rw [List.cons_append, List.append_assoc]
      exact .block hp hbody hjs
    rwa [List.cons_append, List.append_assoc] at h
  · obtain ⟨body', l, rest', rfl, hbody', ⟨hclosed, hrest⟩ | ⟨hagain, -⟩⟩ := hsecond.exists_parts
    · obtain ⟨_, hm⟩ : ∃ last, TwoParts r i.operation m.operation last := hfits.2
      obtain ⟨_, hl⟩ : ∃ middle, TwoParts r i.operation middle l.operation := hclosed
      obtain rfl : inner = r := inside.unique hm.opens
      have h : Completes inner bs ((i :: (body ++ m :: (body' ++ [l]))) ++ rest') := by
        refine hrest.append fun js hjs => ?_
        simp only [List.cons_append, List.append_assoc, List.nil_append]
        exact .twoParts (hm.trans hl) hbody hbody' hjs
      simpa only [List.cons_append, List.append_assoc, List.nil_append] using h
    · exact Bool.noConfusion hagain.1

lemma of_move {r' : Region} {bs' : List OpenRegion} (hm : Move r bs i.operation r' bs')
    (h : Completes r' bs' is) : Completes r bs (i :: is) := by
  cases hm with
  | stays kind allowed =>
      have hi : Completes r bs ([i] ++ is) := h.append fun body hb => .statement kind allowed hb
      exact hi
  | opens inside => exact h.opens inside
  | switches fits => exact .switches .nil fits h
  | closes fits => exact .closes .nil fits h

end Completes

end Region

/-- What passes the checks and leaves no block open completes all open blocks. -/
lemma ScopeState.Stands.completes {s s' : ScopeState} {r : Region} {bs : List OpenRegion}
    {is : List Instruction} (hs : s.Stands r bs) (hr : s.run is = .ok s') (hd : s'.depth = 0) :
    r.Completes bs is := by
  induction is generalizing s r bs with
  | nil =>
      obtain rfl : s = s' := Except.ok.inj hr
      have hlen := congrArg List.length hs.blocks
      rw [List.length_map, List.length_map, ← depth, hd, eq_comm, List.length_eq_zero_iff] at hlen
      subst hlen
      exact .done .nil
  | cons i is ih =>
      obtain ⟨hc, hr⟩ := run_cons_eq_ok_iff.mp hr
      obtain ⟨r', bs', hm⟩ := hs.exists_move hc
      exact .of_move hm (ih (hs.of_move hm).2 hr)

/-- **The grammar of nested blocks.**  Each instruction may stand where it does, and no block is
left open, exactly if the instructions derive from the grammar. -/
theorem ScopeState.run_start_iff_derives {is : List Instruction} :
    (∃ s, start.run is = .ok s ∧ s.depth = 0) ↔ Region.Derives (.script false false) is := by
  constructor
  · rintro ⟨s, hr, hd⟩
    exact (stands_start.completes hr hd).derives rfl
  · intro h
    obtain ⟨s, hr, hs⟩ := h.exists_run stands_start
    have hlen := congrArg List.length hs.blocks
    rw [List.length_map] at hlen
    exact ⟨s, hr, hlen⟩

end EngineFuzz
