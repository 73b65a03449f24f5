import EngineFuzz.Text.Decimal
import EngineFuzz.Text.Quoted

/-!
# JSON values and their texts

A number is kept as it is written, so that its digits, its sign and its notation are not lost
before the reader of a field knows which type it wants.

* `Json.compact`: the text without blanks.
* `Json.pretty`: one item a line, two blanks a level, empty containers closed up.
-/

namespace EngineFuzz

/-- A JSON value.  Objects keep the order of their fields and repeated names. -/
inductive Json where
  | null
  | bool (value : Bool)
  /-- A number, as written. -/
  | number (text : String)
  | string (value : String)
  | array (items : List Json)
  | object (fields : List (String × Json))
  /-- A string that is no sequence of characters (a lone surrogate is escaped in it), or an object
  with such a name.  It may be skipped but not read. -/
  | illFormed
deriving Inhabited

namespace Json

/-- Texts with a comma between them. -/
def commaSeparated (separator : List Char) : List (List Char) → List Char
  | [] => []
  | [t] => t
  | t :: rest => t ++ ',' :: (separator ++ commaSeparated separator rest)

/-- The text of a value that has no parts. -/
def leafText : Json → List Char
  | bool value => (boolText value).toList
  | number text => text.toList
  | string value => (jsonQuoted value).toList
  | _ => "null".toList

mutual
/-- The text without blanks. -/
def compactText : Json → List Char
  | array items => '[' :: (commaSeparated [] (compactItems items) ++ [']'])
  | object fields => '\x7b' :: (commaSeparated [] (compactFields fields) ++ ['\x7d'])
  | leaf => leaf.leafText

/-- The items of an array without blanks. -/
def compactItems : List Json → List (List Char)
  | [] => []
  | v :: rest => v.compactText :: compactItems rest

/-- The fields of an object without blanks. -/
def compactFields : List (String × Json) → List (List Char)
  | [] => []
  | (name, v) :: rest => ((jsonQuoted name).toList ++ ':' :: v.compactText) :: compactFields rest
end

/-- A new line at a level of indentation. -/
def newLine (level : Nat) : List Char := '\n' :: List.replicate (2 * level) ' '

/-- A container with one item a line. -/
def block (opening closing : Char) (level : Nat) (items : List (List Char)) : List Char :=
  if items.isEmpty then [opening, closing]
  else
    opening :: (newLine (level + 1) ++ commaSeparated (newLine (level + 1)) items ++
      newLine level ++ [closing])

mutual
/-- The text with one item a line, inside `level` open containers. -/
def prettyText (level : Nat) : Json → List Char
  | array items => block '[' ']' level (prettyItems (level + 1) items)
  | object fields => block '\x7b' '\x7d' level (prettyFields (level + 1) fields)
  | leaf => leaf.leafText

/-- The items of an array, indented. -/
def prettyItems (level : Nat) : List Json → List (List Char)
  | [] => []
  | v :: rest => v.prettyText level :: prettyItems level rest

/-- The fields of an object, indented. -/
def prettyFields (level : Nat) : List (String × Json) → List (List Char)
  | [] => []
  | (name, v) :: rest =>
    ((jsonQuoted name).toList ++ ':' :: ' ' :: v.prettyText level) :: prettyFields level rest
end

/-- The text without blanks. -/
def compact (v : Json) : String := String.ofList v.compactText

/-- The text with two spaces of indentation a level. -/
def pretty (v : Json) : String := String.ofList (v.prettyText 0)

/-- An integer. -/
def ofInt (n : Int) : Json := number (intText n)

/-- A natural. -/
def ofNat (n : Nat) : Json := number (natText n)

/-- Missing is null. -/
def ofOption {α : Type} (f : α → Json) : Option α → Json
  | none => null
  | some a => f a

/-- The array of what `f` makes of each item. -/
def ofList {α : Type} (f : α → Json) (xs : List α) : Json := array (xs.map f)

end Json

end EngineFuzz
