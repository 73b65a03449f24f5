import EngineFuzz.Enumeration
import EngineFuzz.Float.Text
import EngineFuzz.Json.Reader

/-!
# Reading typed values from JSON

Each reader says which JSON values stand for a value of a type, and fails on all others.

* Numbers: integer types take integers in range, and no negative zero; floating-point types take
  every number in range.
* Records are objects or arrays.  In an object unknown fields are skipped and a repeated known
  field is an error; an array has the fields in order.
* Variants are their name, or an object with the name as its one field.
* `Json.field?` and its kind read single fields of loose objects.
-/

namespace EngineFuzz

namespace Json

/-- The integer that a JSON value denotes. -/
def toInt? : Json → Option Int
  | number text => (Numeral.ofText? text.toList).bind (·.toInt?)
  | _ => none

/-- An integer within bounds. -/
def toIntIn? (least most : Int) (v : Json) : Option Int := do
  let n ← v.toInt?
  guard (least ≤ n ∧ n ≤ most)
  return n

/-- An integer that fits 8 bits. -/
def toUInt8? (v : Json) : Option UInt8 := (v.toIntIn? 0 0xff).map (·.toNat.toUInt8)

/-- An integer that fits 32 bits. -/
def toUInt32? (v : Json) : Option UInt32 := (v.toIntIn? 0 0xffffffff).map (·.toNat.toUInt32)

/-- An integer that fits 64 bits. -/
def toUInt64? (v : Json) : Option UInt64 := (v.toIntIn? 0 0xffffffffffffffff).map (·.toNat.toUInt64)

/-- An integer that fits 32 bits with a sign. -/
def toInt32? (v : Json) : Option Int32 := (v.toIntIn? (-0x80000000) 0x7fffffff).map Int32.ofInt

/-- An integer that fits 64 bits with a sign. -/
def toInt64? (v : Json) : Option Int64 :=
  (v.toIntIn? (-0x8000000000000000) 0x7fffffffffffffff).map Int64.ofInt

/-- The double that a number is read as; one that is too large fails. -/
def toDouble? : Json → Option Double
  | number text => (Numeral.ofText? text.toList).bind (·.toDouble?)
  | _ => none

/-- A single is read as a double that is then rounded; an integer of at most 64 bits is rounded
directly. -/
def toSingle? : Json → Option Single
  | number text => do
    let n ← Numeral.ofText? text.toList
    match n.toInt? with
    | some i =>
      if -0x8000000000000000 ≤ i ∧ i ≤ 0xffffffffffffffff then return .ofInt i
      else return .ofDouble (← n.toDouble?)
    | none => return .ofDouble (← n.toDouble?)
  | _ => none

/-- A truth value. -/
def toBool? : Json → Option Bool
  | bool b => some b
  | _ => none

/-- A string. -/
def toText? : Json → Option String
  | string s => some s
  | _ => none

/-- The items of an array. -/
def toItems? : Json → Option (List Json)
  | array items => some items
  | _ => none

/-- An array of values of one type. -/
def toList? {α : Type} (reader : Json → Option α) (v : Json) : Option (List α) := do
  (← v.toItems?).mapM reader

/-- Null, or a value. -/
def toOption? {α : Type} (reader : Json → Option α) : Json → Option (Option α)
  | null => some none
  | v => (reader v).map some

/-- The member of an enumeration that a name or a variant without fields denotes. -/
def toMember? {α : Type} [Enumeration α] : Json → Option α
  | string s => Enumeration.ofName? s
  | object [(s, null)] => Enumeration.ofName? s
  | _ => none

/-- The value of a field that occurs at most once; fails when it is repeated. -/
def uniqueField? (fields : List (String × Json)) (name : String) : Option (Option Json) :=
  match fields.filter fun f => f.1 == name with
  | [] => some none
  | [f] => some (some f.2)
  | _ => none

/-- The values of the named fields of a record, in order; a missing one is none. -/
def record? (names : List String) : Json → Option (List (Option Json))
  | object fields => names.mapM (uniqueField? fields)
  | array items => if items.length = names.length then some (items.map some) else none
  | _ => none

/-- As `record?`, for records all of whose fields have defaults: an array may be shorter. -/
def recordWithDefaults? (names : List String) : Json → Option (List (Option Json))
  | object fields => names.mapM (uniqueField? fields)
  | array items =>
    if items.length ≤ names.length then
      some (items.map some ++ List.replicate (names.length - items.length) none)
    else none
  | _ => none

/-- The name of a variant and what it carries; a bare name carries nothing. -/
def variant? : Json → Option (String × Option Json)
  | string s => some (s, none)
  | object [(s, v)] => some (s, some v)
  | _ => none

/-- Whether a variant carries no value. -/
def isUnit : Option Json → Bool
  | none | some null => true
  | _ => false

/-- A variant with a name and one value. -/
def tagged (name : String) (v : Json) : Json := object [(name, v)]

/-- A member of an enumeration, by its name. -/
def ofMember {α : Type} [Enumeration α] (a : α) : Json := string (Enumeration.name a)

/-- A double; what is not finite is null. -/
def ofDouble (x : Double) : Json :=
  match x.jsonText? with
  | some text => number text
  | none => null

/-- A single; what is not finite is null. -/
def ofSingle (x : Single) : Json :=
  match x.jsonText? with
  | some text => number text
  | none => null

/-! ### Loose objects

Requests and recipes are objects whose fields may be left out; null counts as left out. -/

/-- The value of a field; null is none. -/
def field? (v : Json) (name : String) : Option Json :=
  match v with
  | object fields =>
    match fields.find? fun f => f.1 == name with
    | some (_, null) | none => none
    | some (_, v) => some v
  | _ => none

/-- The text of a field. -/
def textField? (v : Json) (name : String) : Option String := (v.field? name).bind toText?

/-- The items of a field; none when it is left out. -/
def itemsOf (v : Json) (name : String) : List Json := ((v.field? name).bind toItems?).getD []

/-- Whether a field is true. -/
def isSet (v : Json) (name : String) : Bool := ((v.field? name).bind toBool?).getD false

end Json

end EngineFuzz
