import Mathlib
import EngineFuzz.Lift.Script
import EngineFuzz.Proofs.Script.Strings

/-!
# Names of properties in scripts

A property is accessed by a name after a dot or by a string in brackets.  A name after a dot goes on
as long as there are characters that names may have, so that it depends on what scripts regard as
such characters; only those of ASCII are fixed.

* `IdentifierChars`: the characters of names.
* `IdentifierChars.readMember?`, `IdentifierChars.readOptionalMember?`,
  `IdentifierChars.readKey?`: the name that an access or a key is read as, and what follows it.
* `Literal.member_inj`: the text of an access determines the object and the name.
* `Literal.names_survive`: the main statement.
-/

namespace EngineFuzz

/-- The characters that a name may start and go on with.  Among those of ASCII these are letters,
the underscore and the dollar sign, and then digits as well. -/
structure IdentifierChars where
  start : Char → Bool
  part : Char → Bool
  start_ascii : ∀ c, c.toNat < 0x80 → start c = Literal.isIdentifierStart c
  part_ascii : ∀ c, c.toNat < 0x80 → part c = Literal.isIdentifierPart c

namespace IdentifierChars

/-- The names that have characters of ASCII only. -/
def ascii : IdentifierChars where
  start := Literal.isIdentifierStart
  part := Literal.isIdentifierPart
  start_ascii _ _ := rfl
  part_ascii _ _ := rfl

variable (ids : IdentifierChars)

/-- The longest name at the start of a text, and what follows. -/
def readName? : List Char → Option (String × List Char)
  | [] => none
  | c :: rest =>
    if ids.start c then
      let (name, rest) := rest.span ids.part
      some (String.ofList (c :: name), rest)
    else none

/-- A string in brackets. -/
def readBracket? (s : List Char) : Option (String × List Char) :=
  match StringLiteral.decode? s with
  | some (name, ']' :: rest) => some (name, rest)
  | _ => none

/-- The name that the text behind an object accesses. -/
def readMember? : List Char → Option (String × List Char)
  | '.' :: rest => ids.readName? rest
  | '[' :: rest => readBracket? rest
  | _ => none

/-- The name that the text behind an object accesses, if the object may be undefined. -/
def readOptionalMember? : List Char → Option (String × List Char)
  | '?' :: '.' :: '[' :: rest => readBracket? rest
  | '?' :: '.' :: rest => ids.readName? rest
  | _ => none

/-- The name of a field of an object literal. -/
def readKey? : List Char → Option (String × List Char)
  | '"' :: rest => StringLiteral.decode? ('"' :: rest)
  | s => ids.readName? s

/-- The text does not go on with a name that stands before it. -/
def Ends (rest : List Char) : Prop := ∀ c ∈ rest.head?, ids.part c = false

/-! ### Reading what is written -/

variable {ids} {c : Char} {name : String} {rest : List Char}

lemma lt_of_isIdentifierPart (h : Literal.isIdentifierPart c = true) : c.toNat < 0x80 := by
  simp only [Literal.isIdentifierPart, Char.isAlphanum, Char.isAlpha, Char.isUpper, Char.isLower,
    Char.isDigit, Bool.or_eq_true, Bool.and_eq_true, decide_eq_true_eq] at h
  have hle {d : Char} (hc : c.val ≤ d.val) (hd : d.toNat < 0x80) : c.toNat < 0x80 :=
    lt_of_le_of_lt hc hd
  rcases h with ((((⟨-, h⟩ | ⟨-, h⟩) | ⟨-, h⟩) | rfl) | rfl)
  · exact hle (d := 'Z') h (by decide)
  · exact hle (d := 'z') h (by decide)
  · exact hle (d := '9') h (by decide)
  · decide
  · decide

lemma isIdentifierPart_of_isIdentifierStart (h : Literal.isIdentifierStart c = true) :
    Literal.isIdentifierPart c = true := by
  simp only [Literal.isIdentifierStart, Literal.isIdentifierPart, Char.isAlphanum,
    Bool.or_eq_true] at h ⊢
  exact h.imp_left (Or.imp_left .inl)

lemma exists_cons_of_isIdentifier (h : Literal.isIdentifier name = true) :
    ∃ c cs, name.toList = c :: cs ∧ Literal.isIdentifierStart c = true ∧
      ∀ d ∈ cs, Literal.isIdentifierPart d = true := by
  unfold Literal.isIdentifier at h
  split at h
  · cases h
  · rename_i c cs hname
    obtain ⟨hc, hcs⟩ := Bool.and_eq_true_iff.mp h
    exact ⟨c, cs, hname, hc, List.all_eq_true.mp hcs⟩

/-- A name that may follow a dot is read up to its end. -/
lemma readName?_append (h : Literal.isIdentifier name = true) (hr : ids.Ends rest) :
    ids.readName? (name.toList ++ rest) = some (name, rest) := by
  obtain ⟨c, cs, hname, hc, hcs⟩ := exists_cons_of_isIdentifier h
  have hstart : ids.start c = true := by
    rw [ids.start_ascii c (lt_of_isIdentifierPart (isIdentifierPart_of_isIdentifierStart hc)), hc]
  have hpart : ∀ d ∈ cs, ids.part d = true := fun d hd => by
    rw [ids.part_ascii d (lt_of_isIdentifierPart (hcs d hd)), hcs d hd]
  have hspan : (cs ++ rest).span ids.part = (cs, rest) := by
    rw [List.span_eq_takeWhile_dropWhile, List.takeWhile_append_of_pos hpart,
      List.dropWhile_append_of_pos hpart]
    cases rest with
    | nil => simp
    | cons d rest =>
        have hd : ids.part d = false := hr d rfl
        simp [hd]
  have hback : String.ofList (c :: cs) = name := by rw [← hname, String.ofList_toList]
  rw [hname, List.cons_append, readName?, if_pos hstart, hspan]
  exact congrArg (fun s => some (s, rest)) hback

/-- A string in brackets is read whatever follows. -/
lemma readBracket?_append (name : String) (rest : List Char) :
    readBracket? ((Literal.string name).toList ++ ']' :: rest) = some (name, rest) := by
  rw [readBracket?, StringLiteral.decode?_string]
  rfl

end IdentifierChars

/-! ### Accesses -/

namespace Literal

variable {ids : IdentifierChars} {name name' object object' : String} {rest : List Char}

/-- What stands behind an object to access a property. -/
def access (name : String) : String :=
  if isIdentifier name then "." ++ name else "[" ++ string name ++ "]"

lemma member_eq (object name : String) : member object name = object ++ access name := by
  rw [member, access]
  split
  · exact String.append_assoc ..
  · simp only [String.append_assoc]

/-- **The property that is accessed** is the one of the name. -/
theorem readMember?_access (hr : ids.Ends rest) :
    ids.readMember? ((access name).toList ++ rest) = some (name, rest) := by
  rw [access]
  split
  · rename_i h
    rw [String.toList_append]
    exact IdentifierChars.readName?_append h hr
  · have hsplit : ("[" ++ string name ++ "]").toList ++ rest =
        '[' :: ((string name).toList ++ ']' :: rest) := by simp
    rw [hsplit]
    exact IdentifierChars.readBracket?_append name rest

/-- What stands behind an object that may be undefined. -/
def optionalAccess (name : String) : String :=
  if isIdentifier name then "?." ++ name else "?.[" ++ string name ++ "]"

lemma optionalMember_eq (object : Variable) (name : String) :
    Lifter.optionalMember object name = object.text ++ optionalAccess name := by
  rw [Lifter.optionalMember, optionalAccess]
  split
  · exact String.append_assoc ..
  · simp only [String.append_assoc]

theorem readOptionalMember?_optionalAccess (hr : ids.Ends rest) :
    ids.readOptionalMember? ((optionalAccess name).toList ++ rest) = some (name, rest) := by
  rw [optionalAccess]
  split
  · rename_i h
    obtain ⟨c, cs, hname, hc, -⟩ := IdentifierChars.exists_cons_of_isIdentifier h
    have hread := IdentifierChars.readName?_append h hr
    rw [String.toList_append]
    rw [hname] at hread ⊢
    change ids.readOptionalMember? ('?' :: '.' :: c :: (cs ++ rest)) = _
    rw [IdentifierChars.readOptionalMember?]
    · exact hread
    · rintro rest' heq
      obtain ⟨rfl, -⟩ := List.cons.inj heq
      exact absurd hc (by decide)
  · have hsplit : ("?.[" ++ string name ++ "]").toList ++ rest =
        '?' :: '.' :: '[' :: ((string name).toList ++ ']' :: rest) := by simp
    rw [hsplit]
    exact IdentifierChars.readBracket?_append name rest

/-- **The field of an object literal** is that of the name. -/
theorem readKey?_propertyKey (hr : ids.Ends rest) :
    ids.readKey? ((propertyKey name).toList ++ rest) = some (name, rest) := by
  rw [propertyKey]
  split
  · rename_i h
    obtain ⟨c, cs, hname, hc, -⟩ := IdentifierChars.exists_cons_of_isIdentifier h
    have hread := IdentifierChars.readName?_append h hr
    rw [hname] at hread ⊢
    rw [List.cons_append, IdentifierChars.readKey?]
    · exact hread
    · rintro rest' heq
      obtain ⟨rfl, -⟩ := List.cons.inj heq
      exact absurd hc (by decide)
  · obtain ⟨body, hbody, -⟩ := StringLiteral.exists_body name
    have hread := StringLiteral.decode?_string name rest
    rw [hbody] at hread ⊢
    exact hread

/-! ### Distinct names -/

/-- The last place of a character tells what stands before and behind it. -/
lemma append_cons_inj {α : Type} {a a' b b' : List α} {x : α}
    (h : a ++ x :: b = a' ++ x :: b') (hb : x ∉ b) (hb' : x ∉ b') : a = a' ∧ b = b' := by
  rcases List.append_eq_append_iff.mp h with ⟨c, rfl, hc⟩ | ⟨c, rfl, hc⟩
  · cases c with
    | nil => simpa using hc
    | cons d c =>
        obtain ⟨rfl, rfl⟩ := List.cons.inj hc
        simp at hb
  · cases c with
    | nil => simpa using hc.symm
    | cons d c =>
        obtain ⟨rfl, rfl⟩ := List.cons.inj hc
        simp at hb'

/-- A bracket and a quote do not stand side by side within a string. -/
lemma not_body_opening {a b : List Char} : ¬ StringLiteral.Body (a ++ '[' :: '"' :: b) := by
  intro h
  generalize hs : a ++ '[' :: '"' :: b = s at h
  induction h generalizing a with
  | nil => simp at hs
  | plain hc hrest ih =>
      cases a with
      | nil =>
          obtain ⟨-, rfl⟩ := List.cons.inj hs
          cases hrest with
          | plain hquote => exact hquote.not_quote rfl
      | cons d a => exact ih (List.cons.inj hs).2
  | letter hc hrest ih =>
      match a with
      | [] => exact absurd (List.cons.inj hs).1 (by decide)
      | [_] =>
          obtain ⟨rfl, -⟩ := List.cons.inj (List.cons.inj hs).2
          cases hc
      | _ :: _ :: a => exact ih (List.cons.inj (List.cons.inj hs).2).2
  | digits digits hlength hc hrest ih =>
      match a with
      | [] => exact absurd (List.cons.inj hs).1 (by decide)
      | [_] => exact absurd (List.cons.inj (List.cons.inj hs).2).1 (by decide)
      | _ :: _ :: a =>
          obtain ⟨-, hs⟩ := List.cons.inj (List.cons.inj hs).2
          rcases List.append_eq_append_iff.mp hs with ⟨c, rfl, hopen⟩ | ⟨c, -, hopen⟩
          · cases c with
            | nil => exact ih (a := []) hopen
            | cons d c =>
                obtain ⟨rfl, -⟩ := List.cons.inj hopen
                exact absurd (hc '[' (by simp)) (by decide)
          · exact ih hopen.symm

/-- A name that may follow a dot has neither a dot nor a bracket. -/
lemma not_mem_of_isIdentifier {c : Char} (h : isIdentifier name = true)
    (hc : isIdentifierPart c = false) : c ∉ name.toList := by
  obtain ⟨d, ds, hname, hd, hds⟩ := IdentifierChars.exists_cons_of_isIdentifier h
  rw [hname]
  intro hmem
  have hpart : isIdentifierPart c = true := by
    rcases List.mem_cons.mp hmem with rfl | hmem
    · exact IdentifierChars.isIdentifierPart_of_isIdentifierStart hd
    · exact hds c hmem
  rw [hc] at hpart
  cases hpart

/-- Two accesses after a dot. -/
lemma name_inj {a b : List Char} (h : isIdentifier name = true) (h' : isIdentifier name' = true)
    (heq : a ++ ("." ++ name).toList = b ++ ("." ++ name').toList) : a = b ∧ name = name' := by
  rw [String.toList_append, String.toList_append] at heq
  obtain ⟨hobject, hname⟩ := append_cons_inj heq
    (not_mem_of_isIdentifier h (by decide)) (not_mem_of_isIdentifier h' (by decide))
  exact ⟨hobject, String.toList_inj.mp hname⟩

/-- The last bracket with a quote behind it is the one in front of the string. -/
lemma eq_nil_of_opening {b b' c : List Char} (hb : StringLiteral.Body b)
    (h : '[' :: '"' :: b = c ++ '[' :: '"' :: b') : c = [] := by
  match c with
  | [] => rfl
  | [_] => exact absurd (List.cons.inj (List.cons.inj h).2).1 (by decide)
  | _ :: _ :: c =>
      have hrest := (List.cons.inj (List.cons.inj h).2).2
      rw [hrest] at hb
      exact absurd hb not_body_opening

/-- Two accesses in brackets. -/
lemma bracket_inj {a b : List Char}
    (heq : a ++ ("[" ++ string name ++ "]").toList = b ++ ("[" ++ string name' ++ "]").toList) :
    a = b ∧ name = name' := by
  obtain ⟨body, hbody, hvalid, -⟩ := StringLiteral.exists_body name
  obtain ⟨body', hbody', hvalid', -⟩ := StringLiteral.exists_body name'
  have hsplit (a body : List Char) :
      a ++ (("[".toList ++ '"' :: (body ++ ['"'])) ++ "]".toList) =
        (a ++ '[' :: '"' :: body) ++ ['"', ']'] := by simp
  simp only [String.toList_append, hbody, hbody', hsplit] at heq
  have hopen := List.append_cancel_right heq
  have hab : a = b ∧ body = body' := by
    rcases List.append_eq_append_iff.mp hopen with ⟨c, rfl, hc⟩ | ⟨c, rfl, hc⟩
    · obtain rfl := eq_nil_of_opening hvalid hc
      simpa using hc
    · obtain rfl := eq_nil_of_opening hvalid' hc
      simpa using hc.symm
  refine ⟨hab.1, ?_⟩
  have hdecode := StringLiteral.decode?_string name []
  rw [hbody, hab.2, ← hbody', StringLiteral.decode?_string] at hdecode
  exact (Prod.mk.inj (Option.some.inj hdecode)).1.symm

/-- A name after a dot does not end as a string in brackets does. -/
lemma name_ne_bracket {a b : List Char} (h : isIdentifier name = true) :
    a ++ ("." ++ name).toList ≠ b ++ ("[" ++ string name' ++ "]").toList := by
  intro heq
  have hlast := congrArg List.getLast? heq
  obtain ⟨d, ds, hname, -⟩ := IdentifierChars.exists_cons_of_isIdentifier h
  have hne : name.toList ≠ [] := by
    rw [hname]
    exact List.cons_ne_nil _ _
  rw [String.toList_append, String.toList_append, ← List.append_assoc, ← List.append_assoc,
    List.getLast?_append_of_ne_nil _ hne, List.getLast?_append_of_ne_nil _ (by simp)] at hlast
  exact not_mem_of_isIdentifier h (by decide) (List.mem_of_getLast? hlast)

/-- **The text of an access** determines the object and the name. -/
theorem member_inj (h : member object name = member object' name') :
    object = object' ∧ name = name' := by
  have hlist := congrArg String.toList h
  rw [member_eq, member_eq, access, access, String.toList_append, String.toList_append] at hlist
  have hinj : object.toList = object'.toList ∧ name = name' := by
    split at hlist
    · rename_i hname
      split at hlist
      · rename_i hname'
        exact name_inj hname hname' hlist
      · exact absurd hlist (name_ne_bracket hname)
    · split at hlist
      · rename_i hname'
        exact absurd hlist.symm (name_ne_bracket hname')
      · exact bracket_inj hlist
  exact ⟨String.toList_inj.mp hinj.1, hinj.2⟩

theorem optionalMember_inj {v v' : Variable}
    (h : Lifter.optionalMember v name = Lifter.optionalMember v' name') : name = name' := by
  have hmember (v : Variable) (name : String) :
      ∃ object, Lifter.optionalMember v name = member object name := by
    by_cases hname : isIdentifier name
    · exact ⟨v.text ++ "?", by
        rw [Lifter.optionalMember, member, if_pos hname, if_pos hname]
        simp only [String.append_assoc]
        rfl⟩
    · exact ⟨v.text ++ "?.", by
        rw [Lifter.optionalMember, member, if_neg hname, if_neg hname]
        simp only [String.append_assoc]
        rfl⟩
  obtain ⟨object, hobject⟩ := hmember v name
  obtain ⟨object', hobject'⟩ := hmember v' name'
  rw [hobject, hobject'] at h
  exact (member_inj h).2

theorem propertyKey_inj (h : propertyKey name = propertyKey name') : name = name' := by
  have hread (name : String) : IdentifierChars.ascii.readKey? ((propertyKey name).toList ++ []) =
      some (name, []) := readKey?_propertyKey nofun
  have heq := hread name
  rw [h, hread name'] at heq
  exact (Prod.mk.inj (Option.some.inj heq)).1.symm

/-- **Strings and names survive**: a literal is decoded to the string, and hides nothing that could
end it; an access or a key is read as the name, whatever may stand behind it; and distinct names
have distinct texts. -/
theorem names_survive (ids : IdentifierChars) :
    (∀ s : String,
      (∀ rest, StringLiteral.decode? ((string s).toList ++ rest) = some (s, rest)) ∧
      ∃ body, (string s).toList = '"' :: (body ++ ['"']) ∧ StringLiteral.Body body ∧
        ∀ c ∈ (string s).toList, 0x20 ≤ c.toNat) ∧
    (∀ (name : String) (rest : List Char), ids.Ends rest →
      (∀ object, member object name = object ++ access name) ∧
      ids.readMember? ((access name).toList ++ rest) = some (name, rest) ∧
      (∀ object, Lifter.optionalMember object name = object.text ++ optionalAccess name) ∧
      ids.readOptionalMember? ((optionalAccess name).toList ++ rest) = some (name, rest) ∧
      ids.readKey? ((propertyKey name).toList ++ rest) = some (name, rest)) ∧
    ∀ name name' : String, name ≠ name' →
      (∀ object object', member object name ≠ member object' name') ∧
      (∀ v v', Lifter.optionalMember v name ≠ Lifter.optionalMember v' name') ∧
      propertyKey name ≠ propertyKey name' := by
  refine ⟨fun s => ⟨StringLiteral.decode?_string s, StringLiteral.exists_body s⟩,
    fun name rest hr => ?_, fun name name' hne => ?_⟩
  · exact ⟨fun object => member_eq object name, readMember?_access hr,
      fun object => optionalMember_eq object name, readOptionalMember?_optionalAccess hr,
      readKey?_propertyKey hr⟩
  · exact ⟨fun _ _ h => hne (member_inj h).2, fun _ _ h => hne (optionalMember_inj h),
      fun h => hne (propertyKey_inj h)⟩

/-- A name with a space, in brackets, and one without, after a dot. -/
theorem names_survive_space :
    IdentifierChars.ascii.readMember? (access "a b" ++ ";").toList = some ("a b", [';']) ∧
      member "v0" "a b" ≠ member "v0" "ab" := by
  obtain ⟨-, hread, hinj⟩ := names_survive .ascii
  have hends : IdentifierChars.ascii.Ends [';'] := by
    rintro c ⟨⟩
    decide
  rw [String.toList_append]
  exact ⟨(hread "a b" [';'] hends).2.1, (hinj "a b" "ab" (by decide)).1 "v0" "v0"⟩

end Literal

end EngineFuzz
