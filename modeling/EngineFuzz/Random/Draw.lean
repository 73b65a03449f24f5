import EngineFuzz.Enumeration
import EngineFuzz.Float.Arithmetic
import EngineFuzz.Random.ChaCha

/-!
# Random draws

A draw takes words from a source.  Numbers in a range are drawn without bias: a word times the
size of the range has the number in its high half, and the word is refused when the low half is in
the part that would favour some numbers.

* `Draw.below32`, `Draw.below64`: a number below a bound.
* `Draw.chance`: an event with a probability in percent.
* `Draw.choose`: a member of a list.
* `Draw.sample`: different positions of a list.
-/

namespace EngineFuzz

/-- A computation that takes words from a source. -/
abbrev Draw := StateM WordSource

namespace Draw

/-- One word. -/
def next32 : Draw UInt32 := fun s => s.next

/-- Two words, the low one first. -/
def next64 : Draw UInt64 := do
  let low ← next32
  let high ← next32
  return low.toUInt64 ||| (high.toUInt64 <<< 32)

/-- The low byte of a word. -/
def byte : Draw UInt8 := do return (← next32).toUInt8

/-! ### Numbers below a bound -/

/-- How many words may be refused in a row; the next one is taken in any case.  Without a limit a
draw would not end for every source of words.  A word is refused with a probability of at most one
half, and as long as there are not so many refusals in a row the limit changes nothing, which is
`Draw.untilAccepted_of_accepted`.  No theorem assumes this of the words. -/
def patience : Nat := 256

/-- The first word that passes, or the one after `patience` words that did not. -/
def untilAccepted {α : Type} (draw : Draw α) (accept : α → Bool) : Nat → Draw α
  | 0 => draw
  | n + 1 => do
    let a ← draw
    if accept a then return a else untilAccepted draw accept n

/-- High and low half of a product. -/
def wideProduct32 (x y : UInt32) : UInt32 × UInt32 :=
  let product := x.toUInt64 * y.toUInt64
  ((product >>> 32).toUInt32, product.toUInt32)

/-- High and low half of a product. -/
def wideProduct64 (x y : UInt64) : UInt64 × UInt64 :=
  let product := x.toNat * y.toNat
  ((product >>> 64).toUInt64, product.toUInt64)

/-- The multiple of the bound with the highest bit set, less one: low halves up to it are fair. -/
def zone32 (bound : UInt32) : UInt32 := (bound <<< (31 - bound.log2)) - 1

/-- As `zone32`, for 64 bits. -/
def zone64 (bound : UInt64) : UInt64 := (bound <<< (63 - bound.log2)) - 1

/-- A number below the bound; for the bound 0 any word. -/
def below32 (bound : UInt32) : Draw UInt32 := do
  if bound = 0 then next32
  else
    let fair (w : UInt32) : Bool := (wideProduct32 w bound).2 ≤ zone32 bound
    return (wideProduct32 (← untilAccepted next32 fair patience) bound).1

/-- A number below the bound; for the bound 0 any word. -/
def below64 (bound : UInt64) : Draw UInt64 := do
  if bound = 0 then next64
  else
    let fair (w : UInt64) : Bool := (wideProduct64 w bound).2 ≤ zone64 bound
    return (wideProduct64 (← untilAccepted next64 fair patience) bound).1

/-- As `below32`, with as many fair words as there can be. -/
def belowWhole32 (bound : UInt32) : Draw UInt32 := do
  let zone : UInt32 := 0xffffffff - (0xffffffff - bound + 1) % bound
  let fair (w : UInt32) : Bool := (wideProduct32 w bound).2 ≤ zone
  return (wideProduct32 (← untilAccepted next32 fair patience) bound).1

/-! ### Ranges

Both ends belong to the range.  A range is drawn from 32-bit words or from 64-bit words. -/

/-- A natural, from 32-bit words. -/
def nat32 (low high : Nat) : Draw Nat := do
  return low + (← below32 (high - low + 1).toUInt32).toNat

/-- A natural, from 64-bit words. -/
def nat64 (low high : Nat) : Draw Nat := do
  return low + (← below64 (high - low + 1).toUInt64).toNat

/-- An integer, from 32-bit words. -/
def int32 (low high : Int) : Draw Int := do
  return low + (← below32 (high - low + 1).toNat.toUInt32).toNat

/-- An integer, from 64-bit words. -/
def int64 (low high : Int) : Draw Int := do
  return low + (← below64 (high - low + 1).toNat.toUInt64).toNat

/-- Lays a fraction of `2 ^ digits` into the range from `low` to `high`, rounding after each
step. -/
def scaleInto (f : Format) (digits : Nat) (low high : Int) (fraction : Nat) : Number :=
  let rounded (n : Number) : Number := f.decode (f.encode n)
  let whole (n : Int) : Number := .finite (decide (n < 0)) n.natAbs 0
  let part := Number.finite false fraction (-digits)
  rounded ((rounded (part.mul (whole (high - low)))).add (whole low))

/-- A double from `low` on and below `high`. -/
def double (low high : Int) : Draw Double := do
  let inside (w : UInt64) : Bool :=
    (scaleInto .double 52 low high (w >>> 12).toNat).compare?
      (.finite (decide (high < 0)) high.natAbs 0) == some .lt
  let w ← untilAccepted next64 inside patience
  return .ofNumber (scaleInto .double 52 low high (w >>> 12).toNat)

/-- A single from `low` on and below `high`. -/
def single (low high : Int) : Draw Single := do
  let inside (w : UInt32) : Bool :=
    (scaleInto .single 23 low high (w >>> 9).toNat).compare?
      (.finite (decide (high < 0)) high.natAbs 0) == some .lt
  let w ← untilAccepted next32 inside patience
  return .ofNumber (scaleInto .single 23 low high (w >>> 9).toNat)

/-! ### Events and choices -/

/-- How many 64-bit words lie below a probability, which is given in percent and rounded to a
double. -/
def chanceBound (percent : Nat) : Nat :=
  match Format.double.decode (Format.double.roundQuotient percent 100) with
  | .finite _ mantissa exponent =>
    mantissa * Nat.pow 2 (exponent + 64).toNat / Nat.pow 2 (-(exponent + 64)).toNat
  | _ => 0

/-- An event with a probability in percent. -/
def chance (percent : Nat) : Draw Bool := do return (← next64).toNat < chanceBound percent

/-- A member of a list; nothing is drawn for the empty list. -/
def choose {α : Type} (items : List α) : Draw (Option α) := do
  if items.isEmpty then return none
  return items[(← below32 items.length.toUInt32).toNat]?

/-- A member of a list, or the default if the list is empty. -/
def chooseD {α : Type} (items : List α) (default : α) : Draw α := do
  return (← choose items).getD default

/-- A member of an enumeration. -/
def chooseMember (α : Type) [Inhabited α] [Enumeration α] : Draw α :=
  chooseD Enumeration.all default

/-- The results of repeated draws. -/
def times {α : Type} (draw : Draw α) : Nat → Draw (List α)
  | 0 => return []
  | n + 1 => do
    let a ← draw
    return a :: (← times draw n)

/-- From 1 to `most` random bytes. -/
def bytesUpTo (most : Nat) : Draw (List UInt8) := do times byte (← nat64 1 most)

/-! ### Samples -/

/-- Exchanges positions from `position` on with later ones, `count` times. -/
def shuffleFrom (position count : Nat) (items : Array Nat) : Draw (Array Nat) :=
  match count with
  | 0 => return items
  | n + 1 => do
    let other ← nat32 position (items.size - 1)
    shuffleFrom (position + 1) n (items.swapIfInBounds position other)

/-- Exchanges the positions from `count` down to 1 with earlier ones. -/
def shuffleDown (count : Nat) (items : Array Nat) : Draw (Array Nat) :=
  match count with
  | 0 => return items
  | n + 1 => do
    let other ← nat32 0 (n + 1)
    shuffleDown n (items.swapIfInBounds (n + 1) other)

/-- Puts `j` in front of the first `t`, or `t` at the end if there is none. -/
def placeBefore (t j : Nat) : List Nat → List Nat
  | [] => [t]
  | a :: rest => if a = t then j :: a :: rest else a :: placeBefore t j rest

/-- Adds, for each of `count` numbers `j` from `first` on, a number up to `j`, or `j` itself if that
number has been taken.  `place` puts the new number among those taken. -/
def distinct (place : Nat → Nat → List Nat → List Nat) (first count : Nat) (taken : List Nat) :
    Draw (List Nat) :=
  match count with
  | 0 => return taken
  | n + 1 => do
    let t ← nat32 0 first
    distinct place (first + 1) n (place t first taken)

/-- The `amount` first members of a random order of the positions below `size`. -/
def sampleByShuffle (size amount : Nat) : Draw (List Nat) := do
  return ((← shuffleFrom 0 amount (Array.range size)).toList.take amount)

/-- Distinct numbers, each put in place so that their order is random as well. -/
def sampleByPlacing (size amount : Nat) : Draw (List Nat) :=
  distinct placeBefore (size - amount) amount []

/-- Distinct numbers in a random order. -/
def sampleThenShuffle (size amount : Nat) : Draw (List Nat) := do
  let append (t j : Nat) (taken : List Nat) : List Nat :=
    taken ++ [if taken.contains t then j else t]
  let numbers ← distinct append (size - amount) amount []
  return (← shuffleDown (amount - 1) numbers.toArray).toList

/-- Whether a shuffle of all positions is taken for a sample.  For 12 to 162 positions that is so
below `(10 + 1.6 * amount) * amount` positions, in 32-bit floating point. -/
def prefersShuffle (size amount : Nat) : Bool :=
  if amount < 12 then false
  else if amount < 163 then
    let rounded (n : Number) : Number := Format.single.decode (Format.single.encode n)
    let whole (n : Nat) : Number := rounded (.finite false n 0)
    let slope := Format.single.decode (Format.single.roundQuotient 16 10)
    let bound := rounded ((rounded ((whole 10).add (rounded (slope.mul (whole amount))))).mul
      (whole amount))
    (whole size).compare? bound == some .lt
  else size < 270 * amount

/-- Different positions of a list of `size` members, at most `amount` of them. -/
def sample (size amount : Nat) : Draw (List Nat) :=
  let amount := min amount size
  if prefersShuffle size amount then sampleByShuffle size amount
  else if amount < 50 then sampleByPlacing size amount
  else sampleThenShuffle size amount

end Draw

end EngineFuzz
