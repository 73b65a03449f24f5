import Mathlib
import EngineFuzz.Json.Decode
import EngineFuzz.Proofs.Json.Records

/-!
# Values are no larger than their texts

A value that is read from a text has no string with more bytes and no array with more items than the
text has bytes.  Every character of a string takes at least as many bytes in the text, escaped or
not, and every item takes at least one token, of which a text has no more than characters.

* `JsonToken.utf8Len_joinUnits?_le`, `JsonToken.unitsSize_le`: the characters of a string.
* `JsonToken.step?_bounds`, `JsonToken.ofText?_bounds`: how many tokens a text has, and how long
  their strings are.
* `Json.Fits`, `Json.ParserState.Fits`: bounds for values, and for the states of the machine that
  puts tokens together.
* `Json.fits_of_parse?`: the main statement.
* `Json.bounds_of_toList?`, `Json.fits_of_record?`, `Json.fits_of_variant?`: what is read off a
  value is bounded with it.
-/

namespace EngineFuzz

namespace JsonToken

variable {c : Char} {body : List Char} {units : List Nat} {mode mode' : Mode}
  {token : JsonToken} {more done tokens : List JsonToken} {n : Nat}

/-! ### Characters of strings -/

/-- The bytes of a character with the code; half of a surrogate pair counts for three. -/
def unitSize (n : Nat) : Nat :=
  if n < 0x80 then 1 else if n < 0x800 then 2 else if n < 0x10000 then 3 else 4

/-- The bytes of characters with the codes. -/
def unitsSize (units : List Nat) : Nat := (units.map unitSize).sum

lemma unitsSize_cons (units : List Nat) : unitsSize (n :: units) = unitSize n + unitsSize units :=
  List.sum_cons

lemma unitSize_le (n : Nat) : unitSize n ≤ 4 := by
  unfold unitSize
  split_ifs <;> decide

lemma unitSize_toNat (c : Char) : unitSize c.toNat = c.utf8Size := by
  have hlt (k : Nat) (hk : k < 2 ^ 32) : c.val ≤ UInt32.ofNatLT k hk ↔ c.toNat < k + 1 := by
    rw [UInt32.le_iff_toNat_le, UInt32.toNat_ofNatLT, Nat.lt_succ_iff]
    rfl
  simp only [unitSize, Char.utf8Size, hlt]

lemma unitSize_pos (n : Nat) : 0 < unitSize n := by
  unfold unitSize
  split_ifs <;> decide

/-- A code that is no character's is read as the character with the code 0. -/
lemma utf8Size_ofNat_le (n : Nat) : (Char.ofNat n).utf8Size ≤ unitSize n := by
  rw [← unitSize_toNat, Char.toNat_ofNat]
  split
  · exact le_refl _
  · exact unitSize_pos n

/-- Both halves of a surrogate pair count for three bytes. -/
lemma unitSize_eq_three (h : isHighSurrogate n = true ∨ isLowSurrogate n = true) :
    unitSize n = 3 := by
  simp only [isHighSurrogate, isLowSurrogate, Bool.and_eq_true, decide_eq_true_eq] at h
  rw [unitSize, if_neg (by omega), if_neg (by omega), if_pos (by omega)]

/-- Joining surrogate pairs adds no bytes. -/
lemma utf8Len_joinUnits?_le {cs : List Char} (h : joinUnits? units = some cs) :
    String.utf8Len cs ≤ unitsSize units := by
  induction units using joinUnits?.induct generalizing cs with
  | case1 =>
      obtain rfl := Option.some.inj h
      exact le_refl _
  | case2 n hn => simp [joinUnits?, hn] at h
  | case3 n hn =>
      rw [joinUnits?, if_neg hn] at h
      obtain rfl := Option.some.inj h
      have hsize := utf8Size_ofNat_le n
      simpa [String.utf8Len_cons, unitsSize] using hsize
  | case4 n m rest hhigh hlow ih =>
      rw [joinUnits?, if_pos hhigh, if_pos hlow] at h
      obtain ⟨ds, hds, rfl⟩ := Option.map_eq_some_iff.mp h
      have hpair : (Char.ofNat (0x10000 + (n - 0xd800) * 0x400 + (m - 0xdc00))).utf8Size ≤ 4 :=
        (utf8Size_ofNat_le _).trans (unitSize_le _)
      rw [String.utf8Len_cons, unitsSize_cons, unitsSize_cons, unitSize_eq_three (.inl hhigh),
        unitSize_eq_three (.inr hlow)]
      have hrest := ih hds
      omega
  | case5 n m rest hhigh hlow => simp [joinUnits?, hhigh, hlow] at h
  | case6 n m rest hhigh hlow => simp [joinUnits?, hhigh, hlow] at h
  | case7 n m rest hhigh hlow ih =>
      rw [joinUnits?, if_neg hhigh, if_neg hlow] at h
      obtain ⟨ds, hds, rfl⟩ := Option.map_eq_some_iff.mp h
      rw [String.utf8Len_cons, unitsSize_cons]
      exact Nat.add_le_add (ih hds) (utf8Size_ofNat_le n) |>.trans_eq (Nat.add_comm ..)

/-- One-letter escapes stand for characters of one byte. -/
lemma utf8Size_escaped? {e : Char} (h : escaped? c = some e) : e.utf8Size = 1 := by
  unfold escaped? at h
  split at h <;> cases h <;> rfl

/-- What is escaped has more bytes than what it stands for. -/
lemma unitsSize_le (h : units? body = some units) : unitsSize units ≤ String.utf8Len body := by
  induction body using units?.induct generalizing units with
  | case1 =>
      obtain rfl := Option.some.inj h
      exact le_refl _
  | case2 x y z w rest ih =>
      obtain ⟨n, -, h⟩ := Option.bind_eq_some_iff.mp h
      obtain ⟨more, hmore, h⟩ := Option.bind_eq_some_iff.mp h
      obtain rfl := Option.some.inj h
      have hsize := unitSize_le n
      have hrest := ih hmore
      have hx := x.utf8Size_pos
      have hy := y.utf8Size_pos
      have hescape : '\\'.utf8Size = 1 ∧ 'u'.utf8Size = 1 := ⟨rfl, rfl⟩
      simp only [String.utf8Len_cons, unitsSize_cons, hescape.1, hescape.2]
      omega
  | case3 c rest hu ih =>
      rw [units?.eq_3 c rest hu] at h
      obtain ⟨e, he, h⟩ := Option.bind_eq_some_iff.mp h
      obtain ⟨more, hmore, h⟩ := Option.bind_eq_some_iff.mp h
      obtain rfl := Option.some.inj h
      have hrest := ih hmore
      have hpos := c.utf8Size_pos
      simp only [String.utf8Len_cons, unitsSize_cons, unitSize_toNat, utf8Size_escaped? he]
      omega
  | case4 c rest hu hescape ih =>
      rw [units?.eq_4 c rest hu hescape] at h
      obtain ⟨-, -, h⟩ := Option.bind_eq_some_iff.mp h
      obtain ⟨more, hmore, h⟩ := Option.bind_eq_some_iff.mp h
      obtain rfl := Option.some.inj h
      have hrest := ih hmore
      simp only [String.utf8Len_cons, unitsSize_cons, unitSize_toNat]
      omega

/-! ### Tokens of texts -/

/-- The token is no string of more than `n` bytes. -/
def Fits (n : Nat) : JsonToken → Prop
  | string (some s) => s.utf8ByteSize ≤ n
  | _ => True

/-- The characters that have been read of a token. -/
def Mode.read : Mode → List Char
  | .between => []
  | .inNumber text | .inWord text | .inString text | .inEscape text => text

/-- How many tokens have been begun. -/
def Mode.begun : Mode → Nat
  | .between => 0
  | _ => 1

lemma fits_ofStringBody? (h : ofStringBody? body = some token) :
    token.Fits (String.utf8Len body) := by
  obtain ⟨units, hunits, rfl⟩ := Option.map_eq_some_iff.mp h
  cases hjoin : joinUnits? units with
  | none => trivial
  | some cs =>
      change (String.ofList cs).utf8ByteSize ≤ _
      rw [String.utf8ByteSize_ofList]
      exact (utf8Len_joinUnits?_le hjoin).trans (unitsSize_le hunits)

lemma fits_ofNumber? (h : ofNumber? body = some token) : token.Fits n := by
  obtain ⟨_, -, rfl⟩ := Option.map_eq_some_iff.mp h
  trivial

lemma fits_ofWord? (h : ofWord? body = some token) : token.Fits n := by
  unfold ofWord? at h
  split_ifs at h <;> cases h <;> trivial

lemma fits_ofPunctuation? (h : ofPunctuation? c = some token) : token.Fits n := by
  unfold ofPunctuation? at h
  split at h <;> cases h <;> trivial

/-- A character between tokens is a token or begins one. -/
lemma startToken?_bounds (h : startToken? c = some (more, mode)) :
    more.length + mode.begun ≤ 1 ∧ String.utf8Len mode.read ≤ c.utf8Size ∧
      ∀ token ∈ more, token.Fits n := by
  unfold startToken? at h
  split_ifs at h
  · cases h
    exact ⟨Nat.zero_le 1, Nat.zero_le _, List.forall_mem_nil _⟩
  · cases h
    exact ⟨le_refl 1, Nat.zero_le _, List.forall_mem_nil _⟩
  · cases h
    exact ⟨le_refl 1, by simp [Mode.read, String.utf8Len_cons], List.forall_mem_nil _⟩
  · cases h
    exact ⟨le_refl 1, by simp [Mode.read, String.utf8Len_cons], List.forall_mem_nil _⟩
  · obtain ⟨token, htoken, h⟩ := Option.map_eq_some_iff.mp h
    cases h
    exact ⟨le_refl 1, Nat.zero_le _, List.forall_mem_singleton.mpr (fits_ofPunctuation? htoken)⟩

/-- A number or a word ends where the next token may begin. -/
lemma endToken_bounds {token? : Option JsonToken} (hfits : ∀ token ∈ token?, token.Fits n)
    (h : (do
      let token ← token?
      let (more, mode) ← startToken? c
      return (token :: more, mode)) = some (more, mode)) :
    more.length + mode.begun ≤ 2 ∧ String.utf8Len mode.read ≤ c.utf8Size ∧
      ∀ token ∈ more, token.Fits n := by
  obtain ⟨token, htoken, h⟩ := Option.bind_eq_some_iff.mp h
  obtain ⟨⟨others, next⟩, hstart, h⟩ := Option.bind_eq_some_iff.mp h
  cases h
  obtain ⟨hcount, hread, hothers⟩ := startToken?_bounds hstart
  refine ⟨?_, hread, List.forall_mem_cons.mpr ⟨hfits token htoken, hothers⟩⟩
  rw [List.length_cons]
  omega

/-- **A character completes no more tokens** than have been begun with it, and what it completes has
no more bytes than have been read. -/
lemma step?_bounds (h : step? mode c = some (more, mode')) :
    more.length + mode'.begun ≤ mode.begun + 1 ∧
      String.utf8Len mode'.read ≤ String.utf8Len mode.read + c.utf8Size ∧
      ∀ token ∈ more, token.Fits (String.utf8Len mode.read) := by
  have hpush (text : List Char) :
      String.utf8Len (c :: text) ≤ String.utf8Len text + c.utf8Size :=
    (String.utf8Len_cons ..).le
  cases mode with
  | between =>
      obtain ⟨hcount, hread, hmore⟩ := startToken?_bounds h
      exact ⟨hcount, hread.trans (Nat.le_add_left ..), hmore⟩
  | inNumber text =>
      rw [step?] at h
      split_ifs at h
      · cases h
        exact ⟨Nat.le_succ 1, hpush text, List.forall_mem_nil _⟩
      · obtain ⟨hcount, hread, hmore⟩ := endToken_bounds (fun t ht => fits_ofNumber? ht) h
        exact ⟨hcount, hread.trans (Nat.le_add_left ..), hmore⟩
  | inWord text =>
      rw [step?] at h
      split_ifs at h
      · cases h
        exact ⟨Nat.le_succ 1, hpush text, List.forall_mem_nil _⟩
      · obtain ⟨hcount, hread, hmore⟩ := endToken_bounds (fun t ht => fits_ofWord? ht) h
        exact ⟨hcount, hread.trans (Nat.le_add_left ..), hmore⟩
  | inString text =>
      rw [step?] at h
      split_ifs at h
      · obtain ⟨token, htoken, h⟩ := Option.map_eq_some_iff.mp h
        cases h
        have hfits := fits_ofStringBody? htoken
        rw [String.utf8Len_reverse] at hfits
        exact ⟨Nat.le_succ 1, Nat.zero_le _, List.forall_mem_singleton.mpr hfits⟩
      · cases h
        exact ⟨Nat.le_succ 1, hpush text, List.forall_mem_nil _⟩
      · cases h
        exact ⟨Nat.le_succ 1, hpush text, List.forall_mem_nil _⟩
  | inEscape text =>
      rw [step?] at h
      split_ifs at h
      cases h
      exact ⟨Nat.le_succ 1, hpush text, List.forall_mem_nil _⟩

/-- The end of a text completes the token that has been begun. -/
lemma finish?_bounds (h : finish? mode = some more) :
    more.length ≤ mode.begun ∧ ∀ token ∈ more, token.Fits n := by
  cases mode with
  | between =>
      cases h
      exact ⟨le_refl 0, List.forall_mem_nil _⟩
  | inNumber text =>
      obtain ⟨token, htoken, rfl⟩ := Option.map_eq_some_iff.mp h
      exact ⟨le_refl 1, List.forall_mem_singleton.mpr (fits_ofNumber? htoken)⟩
  | inWord text =>
      obtain ⟨token, htoken, rfl⟩ := Option.map_eq_some_iff.mp h
      exact ⟨le_refl 1, List.forall_mem_singleton.mpr (fits_ofWord? htoken)⟩
  | inString text => exact nomatch h
  | inEscape text => exact nomatch h

lemma Fits.mono {m : Nat} (h : token.Fits n) (hle : n ≤ m) :
    token.Fits m := by
  cases token with
  | string s? =>
      cases s? with
      | none => trivial
      | some s => exact Nat.le_trans h hle
  | _ => trivial

/-- The rest of a text has no more tokens than characters, but for one that has been begun, and no
longer strings than it has bytes. -/
lemma scan?_bounds {rest : List Char} (h : scan? mode done rest = some tokens) :
    ∃ later, tokens = done.reverse ++ later ∧ later.length ≤ mode.begun + rest.length ∧
      ∀ token ∈ later, token.Fits (String.utf8Len mode.read + String.utf8Len rest) := by
  induction rest generalizing mode done with
  | nil =>
      obtain ⟨more, hmore, rfl⟩ := Option.map_eq_some_iff.mp h
      obtain ⟨hcount, hfits⟩ := finish?_bounds hmore
      exact ⟨more, by simp, hcount, hfits⟩
  | cons c rest ih =>
      rw [scan?] at h
      split at h
      · cases h
      · rename_i more mode' hstep
        obtain ⟨hcount, hread, hfits⟩ := step?_bounds hstep
        obtain ⟨later, rfl, hlater, hlaterFits⟩ := ih h
        refine ⟨more ++ later, by simp, ?_, ?_⟩
        · rw [List.length_append, List.length_cons]
          omega
        · rw [String.utf8Len_cons]
          intro token htoken
          rcases List.mem_append.mp htoken with hmem | hmem
          · exact (hfits token hmem).mono (Nat.le_add_right ..)
          · exact (hlaterFits token hmem).mono (by omega)

/-- A character has at least one byte. -/
lemma length_le_utf8Len (text : List Char) : text.length ≤ String.utf8Len text := by
  induction text with
  | nil => exact le_refl 0
  | cons c text ih =>
      rw [List.length_cons, String.utf8Len_cons]
      exact Nat.add_le_add ih c.utf8Size_pos

/-- **A text has no more tokens than bytes**, and no longer strings. -/
lemma ofText?_bounds {text : List Char} (h : ofText? text = some tokens) :
    tokens.length ≤ String.utf8Len text ∧ ∀ token ∈ tokens, token.Fits (String.utf8Len text) := by
  obtain ⟨later, rfl, hcount, hfits⟩ := scan?_bounds h
  rw [Mode.begun, Nat.zero_add] at hcount
  rw [Mode.read, String.utf8Len_nil, Nat.zero_add] at hfits
  exact ⟨hcount.trans (length_le_utf8Len text), hfits⟩

end JsonToken

/-! ### Values of tokens -/

namespace Json

variable {n k : Nat} {v : Json} {stack : List OpenContainer} {s s' : ParserState}
  {token : JsonToken} {tokens : List JsonToken}

/-- The value has no string of more than `n` bytes and no array of more than `n` items. -/
inductive Fits (n : Nat) : Json → Prop where
  | null : Fits n .null
  | bool (b : Bool) : Fits n (.bool b)
  | number (text : String) : Fits n (.number text)
  | string {s : String} (size : s.utf8ByteSize ≤ n) : Fits n (.string s)
  | array {items : List Json} (length : items.length ≤ n) (fits : ∀ v ∈ items, Fits n v) :
      Fits n (.array items)
  | object {fields : List (String × Json)} (fits : ∀ f ∈ fields, Fits n f.2) :
      Fits n (.object fields)
  | illFormed : Fits n .illFormed

/-- What has been read of a container after `k` tokens. -/
def OpenContainer.Fits (n k : Nat) : OpenContainer → Prop
  | .array items => items.length ≤ k ∧ ∀ v ∈ items, v.Fits n
  | .object fields _ | .field fields _ _ => ∀ f ∈ fields, f.2.Fits n

/-- What has been read of a value after `k` tokens. -/
structure ParserState.Fits (n k : Nat) (s : ParserState) : Prop where
  stack : ∀ container ∈ s.stack, container.Fits n k
  result : ∀ v, s.expected = .nothing v → v.Fits n

lemma OpenContainer.Fits.succ {container : OpenContainer} (h : container.Fits n k) :
    container.Fits n (k + 1) := by
  cases container with
  | array items => exact ⟨Nat.le_succ_of_le h.1, h.2⟩
  | object fields wellFormed => exact h
  | field fields wellFormed name? => exact h

namespace ParserState

/-- Containers that stay open, with one more token read. -/
lemma fits_of_stack (hs : ∀ container ∈ stack, container.Fits n k) :
    ∀ container ∈ stack, container.Fits n (k + 1) := fun container h => (hs container h).succ

/-- A value goes into a container with the token that completes it. -/
lemma fits_complete (hs : ∀ container ∈ stack, container.Fits n k) (hv : v.Fits n)
    (h : complete v stack = some s') : s'.Fits n (k + 1) := by
  cases stack with
  | nil =>
      cases h
      exact ⟨List.forall_mem_nil _, fun w hw => Expectation.nothing.inj hw ▸ hv⟩
  | cons container rest =>
      obtain ⟨hfirst, hrest⟩ := List.forall_mem_cons.mp hs
      have hrest := fits_of_stack hrest
      cases container with
      | array items =>
          cases h
          refine ⟨List.forall_mem_cons.mpr ⟨⟨?_, ?_⟩, hrest⟩, nofun⟩
          · exact Nat.succ_le_succ hfirst.1
          · exact List.forall_mem_cons.mpr ⟨hv, hfirst.2⟩
      | object fields wellFormed => exact nomatch h
      | field fields wellFormed name? =>
          cases name? with
          | none =>
              cases h
              exact ⟨List.forall_mem_cons.mpr ⟨hfirst, hrest⟩, nofun⟩
          | some name =>
              cases h
              refine ⟨List.forall_mem_cons.mpr ⟨?_, hrest⟩, nofun⟩
              exact List.forall_mem_cons.mpr ⟨hv, hfirst⟩

/-- A container that is closed has no more items than tokens have been read. -/
lemma fits_close (hk : k ≤ n) (hs : ∀ container ∈ stack, container.Fits n k)
    (h : close token stack = some s') : s'.Fits n (k + 1) := by
  unfold close at h
  split at h
  · rename_i items rest
    obtain ⟨⟨hcount, hitems⟩, hrest⟩ := List.forall_mem_cons.mp hs
    split_ifs at h
    refine fits_complete hrest (.array ?_ ?_) h
    · rw [List.length_reverse]
      exact hcount.trans hk
    · exact fun v hv => hitems v (List.mem_reverse.mp hv)
  · rename_i fields wellFormed rest
    obtain ⟨hfields, hrest⟩ := List.forall_mem_cons.mp hs
    split_ifs at h
    · exact fits_complete hrest (.object fun f hf => hfields f (List.mem_reverse.mp hf)) h
    · exact fits_complete hrest .illFormed h
  · exact nomatch h

lemma fits_startValue (hs : ∀ container ∈ stack, container.Fits n k) (ht : token.Fits n)
    (h : startValue token stack = some s') : s'.Fits n (k + 1) := by
  unfold startValue at h
  split at h
  · exact fits_complete hs .null h
  · exact fits_complete hs (.bool _) h
  · exact fits_complete hs (.number _) h
  · exact fits_complete hs (.string ht) h
  · exact fits_complete hs .illFormed h
  · cases h
    refine ⟨List.forall_mem_cons.mpr ⟨⟨Nat.zero_le _, ?_⟩, fits_of_stack hs⟩, nofun⟩
    exact List.forall_mem_nil _
  · cases h
    refine ⟨List.forall_mem_cons.mpr ⟨?_, fits_of_stack hs⟩, nofun⟩
    exact List.forall_mem_nil (fun f : String × Json => f.2.Fits n)
  · exact nomatch h

lemma fits_startField (hs : ∀ container ∈ stack, container.Fits n k)
    (h : startField token stack = some s') : s'.Fits n (k + 1) := by
  unfold startField at h
  split at h
  · split at h
    · cases h
      obtain ⟨hfields, hrest⟩ := List.forall_mem_cons.mp hs
      exact ⟨List.forall_mem_cons.mpr ⟨hfields, fits_of_stack hrest⟩, nofun⟩
    · exact nomatch h
  · exact nomatch h

lemma fits_afterComma (hs : ∀ container ∈ stack, container.Fits n k)
    (h : afterComma stack = some s') : s'.Fits n (k + 1) := by
  unfold afterComma at h
  split at h
  · cases h
    exact ⟨fits_of_stack hs, nofun⟩
  · cases h
    exact ⟨fits_of_stack hs, nofun⟩
  · exact nomatch h

/-- **One more token** gives no container more than one more item. -/
lemma Fits.step (hs : s.Fits n k) (hk : k ≤ n) (ht : token.Fits n)
    (h : s.step token = some s') : s'.Fits n (k + 1) := by
  unfold ParserState.step at h
  split at h
  · exact fits_startValue hs.stack ht h
  · split_ifs at h
    · exact fits_close hk hs.stack h
    · exact fits_startValue hs.stack ht h
  · exact fits_startField hs.stack h
  · split_ifs at h
    · exact fits_close hk hs.stack h
    · exact fits_startField hs.stack h
  · split_ifs at h
    cases h
    exact ⟨fits_of_stack hs.stack, nofun⟩
  · split_ifs at h
    · exact fits_afterComma hs.stack h
    · exact fits_close hk hs.stack h
  · exact nomatch h

end ParserState

/-- No container has more items than tokens have been read. -/
lemma fits_run (hs : s.Fits n k) (hk : k + tokens.length ≤ n) (ht : ∀ token ∈ tokens, token.Fits n)
    (h : run s tokens = some s') : s'.Fits n (k + tokens.length) := by
  induction tokens generalizing s k with
  | nil =>
      cases h
      exact hs
  | cons token tokens ih =>
      obtain ⟨hfirst, hrest⟩ := List.forall_mem_cons.mp ht
      obtain ⟨mid, hmid, h⟩ := Option.bind_eq_some_iff.mp h
      rw [List.length_cons] at hk ⊢
      have hstep := hs.step (by omega) hfirst hmid
      have hrun := ih hstep (by omega) hrest h
      rwa [Nat.add_right_comm, Nat.add_assoc] at hrun

lemma fits_ofTokens? (hn : tokens.length ≤ n) (ht : ∀ token ∈ tokens, token.Fits n)
    (h : ofTokens? tokens = some v) : v.Fits n := by
  have hstart : ParserState.Fits n 0 ⟨[], .value⟩ := ⟨List.forall_mem_nil _, nofun⟩
  unfold ofTokens? at h
  split at h
  · rename_i result hrun
    cases h
    exact (fits_run hstart (by omega) ht hrun).result _ rfl
  · exact nomatch h

/-- **A value is no larger than its text**: it has no string of more bytes and no array of more
items. -/
theorem fits_of_parse? {text : String} (h : parse? text = some v) : v.Fits text.utf8ByteSize := by
  obtain ⟨tokens, htokens, h⟩ := Option.bind_eq_some_iff.mp h
  obtain ⟨hcount, hfits⟩ := JsonToken.ofText?_bounds htokens
  have hsize : String.utf8Len text.toList = text.utf8ByteSize := by
    rw [← String.utf8ByteSize_ofList, String.ofList_toList]
  rw [hsize] at hcount hfits
  exact fits_ofTokens? hcount hfits h

/-! ### Parts of values -/

/-- A list that is read has an item for each of its members. -/
lemma bounds_of_toList? {α : Type} {reader : Json → Option α} {as : List α} (hv : v.Fits n)
    (h : v.toList? reader = some as) :
    as.length ≤ n ∧ ∀ a ∈ as, ∃ item : Json, item.Fits n ∧ reader item = some a := by
  obtain ⟨items, hitems, h⟩ := Option.bind_eq_some_iff.mp h
  cases hv with
  | array hlength hfits =>
      cases hitems
      refine ⟨(mapM_eq_some_iff.mp h).length_eq ▸ hlength, fun a ha => ?_⟩
      obtain ⟨item, hitem, hread⟩ := exists_mem_of_mapM h ha
      exact ⟨item, hfits item hitem, hread⟩
  | _ => exact nomatch hitems

lemma fits_of_uniqueField? {fields : List (String × Json)} {name : String} {value? : Option Json}
    (hv : ∀ f ∈ fields, f.2.Fits n) (h : uniqueField? fields name = some value?) :
    ∀ value ∈ value?, value.Fits n := by
  unfold uniqueField? at h
  split at h
  · cases h
    exact nofun
  · rename_i f hf
    cases h
    intro value hvalue
    cases hvalue
    exact hv f (List.mem_of_mem_filter (hf ▸ List.mem_singleton_self f))
  · exact nomatch h

lemma fits_of_record? {names : List String} {values : List (Option Json)} (hv : v.Fits n)
    (h : v.record? names = some values) : ∀ value? ∈ values, ∀ value ∈ value?, value.Fits n := by
  cases hv with
  | array _ hfits =>
      rw [record?] at h
      split_ifs at h
      cases h
      intro value? hmem value hvalue
      obtain ⟨item, hitem, rfl⟩ := List.mem_map.mp hmem
      cases hvalue
      exact hfits _ hitem
  | object hfits =>
      intro value? hmem
      obtain ⟨name, -, hname⟩ := exists_mem_of_mapM h hmem
      exact fits_of_uniqueField? hfits hname
  | _ => cases h

lemma fits_of_variant? {name : String} {content : Option Json} (hv : v.Fits n)
    (h : v.variant? = some (name, content)) : ∀ value ∈ content, value.Fits n := by
  unfold variant? at h
  split at h
  · cases h
    exact nofun
  · cases h
    cases hv with | object hfits =>
    intro value hvalue
    cases hvalue
    exact hfits _ (List.mem_singleton_self _)
  · exact nomatch h

end Json

end EngineFuzz
