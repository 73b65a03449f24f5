import EngineFuzz.Json.Numeral
import EngineFuzz.Json.Value
import EngineFuzz.Text.Hex

/-!
# Reading JSON

A text is first cut into tokens and the tokens are then put together by a machine with a stack of
open containers.  Both go through their input once, from left to right.

* `JsonToken.ofText?`: the tokens of a text.
* `Json.ofTokens?`: the value that tokens denote.
* `Json.parse?`: the value of a whole text.
-/

namespace EngineFuzz

/-- The smallest parts of a JSON text.  A string with a lone surrogate has no characters. -/
inductive JsonToken where
  | openObject | closeObject | openArray | closeArray | colon | comma
  | null
  | bool (value : Bool)
  | number (text : String)
  | string (value? : Option String)
deriving DecidableEq, Repr

namespace JsonToken

/-- The number that four hexadecimal digits give. -/
def hexUnit? (a b c d : Char) : Option Nat := do
  return (((← hexDigit? a) * 16 + (← hexDigit? b)) * 16 + (← hexDigit? c)) * 16 + (← hexDigit? d)

/-- The character that a one-letter escape stands for. -/
def escaped? : Char → Option Char
  | '"' => some '"'
  | '\\' => some '\\'
  | '/' => some '/'
  | 'b' => some '\x08'
  | 'f' => some '\x0c'
  | 'n' => some '\n'
  | 'r' => some '\r'
  | 't' => some '\t'
  | _ => none

/-- The code units between the quotes of a string; none at a malformed escape.  A character that
is not escaped is one unit. -/
def units? : List Char → Option (List Nat)
  | [] => some []
  | '\\' :: 'u' :: a :: b :: c :: d :: rest => do
    return (← hexUnit? a b c d) :: (← units? rest)
  | '\\' :: c :: rest => do
    return (← escaped? c).toNat :: (← units? rest)
  | c :: rest => do
    guard (c ≠ '\\')
    return c.toNat :: (← units? rest)

/-- The first half of a surrogate pair. -/
def isHighSurrogate (n : Nat) : Bool := 0xd800 ≤ n && n ≤ 0xdbff

/-- The second half of a surrogate pair. -/
def isLowSurrogate (n : Nat) : Bool := 0xdc00 ≤ n && n ≤ 0xdfff

/-- Joins surrogate pairs; none at a surrogate without partner. -/
def joinUnits? : List Nat → Option (List Char)
  | [] => some []
  | [n] => if isHighSurrogate n || isLowSurrogate n then none else some [Char.ofNat n]
  | n :: m :: rest =>
    if isHighSurrogate n then
      if isLowSurrogate m then
        (joinUnits? rest).map (Char.ofNat (0x10000 + (n - 0xd800) * 0x400 + (m - 0xdc00)) :: ·)
      else none
    else if isLowSurrogate n then none
    else (joinUnits? (m :: rest)).map (Char.ofNat n :: ·)

/-- The token of a string, given what stands between its quotes. -/
def ofStringBody? (body : List Char) : Option JsonToken :=
  (units? body).map fun units => string ((joinUnits? units).map String.ofList)

/-- The token of a number, if the text is one. -/
def ofNumber? (text : List Char) : Option JsonToken :=
  (Numeral.ofText? text).map fun _ => number (String.ofList text)

/-- The token of one of the three words. -/
def ofWord? (word : List Char) : Option JsonToken :=
  if word = "null".toList then some null
  else if word = "true".toList then some (bool true)
  else if word = "false".toList then some (bool false)
  else none

/-- The token of a single character. -/
def ofPunctuation? : Char → Option JsonToken
  | '\x7b' => some openObject
  | '\x7d' => some closeObject
  | '[' => some openArray
  | ']' => some closeArray
  | ':' => some colon
  | ',' => some comma
  | _ => none

/-- The four characters that may stand between tokens. -/
def isBlank (c : Char) : Bool := c = ' ' || c = '\n' || c = '\t' || c = '\r'

/-- The characters of which numbers are made. -/
def isNumeric (c : Char) : Bool :=
  c.isDigit || c = '-' || c = '+' || c = '.' || c = 'e' || c = 'E'

/-- What the characters just read belong to, these in reverse. -/
inductive Mode where
  | between
  | inNumber (text : List Char)
  | inWord (text : List Char)
  | inString (body : List Char)
  /-- Inside a string, after a backslash. -/
  | inEscape (body : List Char)

/-- A character between tokens. -/
def startToken? (c : Char) : Option (List JsonToken × Mode) :=
  if isBlank c then some ([], .between)
  else if c = '"' then some ([], .inString [])
  else if c.isDigit || c = '-' then some ([], .inNumber [c])
  else if c.isLower then some ([], .inWord [c])
  else (ofPunctuation? c).map fun t => ([t], .between)

/-- The tokens that a character completes, and the mode after it. -/
def step? (mode : Mode) (c : Char) : Option (List JsonToken × Mode) :=
  match mode with
  | .between => startToken? c
  | .inNumber text =>
    if isNumeric c then some ([], .inNumber (c :: text))
    else do
      let token ← ofNumber? text.reverse
      let (more, mode) ← startToken? c
      return (token :: more, mode)
  | .inWord text =>
    if c.isLower then some ([], .inWord (c :: text))
    else do
      let token ← ofWord? text.reverse
      let (more, mode) ← startToken? c
      return (token :: more, mode)
  | .inString body =>
    if c = '"' then (ofStringBody? body.reverse).map fun t => ([t], .between)
    else if c = '\\' then some ([], .inEscape (c :: body))
    else if c.toNat < 0x20 then none
    else some ([], .inString (c :: body))
  | .inEscape body => if c.toNat < 0x20 then none else some ([], .inString (c :: body))

/-- The tokens that the end of the text completes. -/
def finish? : Mode → Option (List JsonToken)
  | .between => some []
  | .inNumber text => (ofNumber? text.reverse).map ([·])
  | .inWord text => (ofWord? text.reverse).map ([·])
  | .inString _ | .inEscape _ => none

/-- The tokens of the rest of a text, put in front of `done` in reverse. -/
def scan? (mode : Mode) (done : List JsonToken) : List Char → Option (List JsonToken)
  | [] => (finish? mode).map fun more => (more.reverse ++ done).reverse
  | c :: rest =>
    match step? mode c with
    | none => none
    | some (more, mode) => scan? mode (more.reverse ++ done) rest

/-- The tokens of a text. -/
def ofText? (s : List Char) : Option (List JsonToken) := scan? .between [] s

end JsonToken

namespace Json

/-- A container that is not closed yet, its parts in reverse.  An object whose name had no
characters is ill formed as a whole. -/
inductive OpenContainer where
  | array (items : List Json)
  | object (fields : List (String × Json)) (wellFormed : Bool)
  /-- An object that waits for the value of a name. -/
  | field (fields : List (String × Json)) (wellFormed : Bool) (name? : Option String)

/-- What may come next. -/
inductive Expectation where
  | value
  /-- A value or the end of an array just opened. -/
  | valueOrEnd
  | name
  /-- A name or the end of an object just opened. -/
  | nameOrEnd
  | colon
  /-- A comma or the end of the innermost container. -/
  | commaOrEnd
  /-- Nothing: the value is complete. -/
  | nothing (result : Json)

/-- What has been read of a value, and what may come next. -/
structure ParserState where
  stack : List OpenContainer
  expected : Expectation

namespace ParserState

/-- A value is complete: it goes into the innermost open container. -/
def complete (v : Json) : List OpenContainer → Option ParserState
  | [] => some ⟨[], .nothing v⟩
  | .array items :: rest => some ⟨.array (v :: items) :: rest, .commaOrEnd⟩
  | .field fields wellFormed name? :: rest =>
    match name? with
    | some name => some ⟨.object ((name, v) :: fields) wellFormed :: rest, .commaOrEnd⟩
    | none => some ⟨.object fields false :: rest, .commaOrEnd⟩
  | .object .. :: _ => none

/-- A container is closed. -/
def close (token : JsonToken) : List OpenContainer → Option ParserState
  | .array items :: rest =>
    if token = .closeArray then complete (.array items.reverse) rest else none
  | .object fields wellFormed :: rest =>
    if token = .closeObject then
      complete (if wellFormed then .object fields.reverse else .illFormed) rest
    else none
  | _ => none

/-- A token where a value is expected. -/
def startValue (token : JsonToken) (stack : List OpenContainer) : Option ParserState :=
  match token with
  | .null => complete .null stack
  | .bool b => complete (.bool b) stack
  | .number text => complete (.number text) stack
  | .string (some s) => complete (.string s) stack
  | .string none => complete .illFormed stack
  | .openArray => some ⟨.array [] :: stack, .valueOrEnd⟩
  | .openObject => some ⟨.object [] true :: stack, .nameOrEnd⟩
  | _ => none

/-- A token where a name is expected. -/
def startField (token : JsonToken) : List OpenContainer → Option ParserState
  | .object fields wellFormed :: rest =>
    match token with
    | .string name? => some ⟨.field fields wellFormed name? :: rest, .colon⟩
    | _ => none
  | _ => none

/-- A comma in the innermost container. -/
def afterComma (stack : List OpenContainer) : Option ParserState :=
  match stack with
  | .array _ :: _ => some ⟨stack, .value⟩
  | .object .. :: _ => some ⟨stack, .name⟩
  | _ => none

/-- Takes one more token, or fails. -/
def step (s : ParserState) (token : JsonToken) : Option ParserState :=
  match s.expected with
  | .value => startValue token s.stack
  | .valueOrEnd =>
    if token = .closeArray then close token s.stack else startValue token s.stack
  | .name => startField token s.stack
  | .nameOrEnd =>
    if token = .closeObject then close token s.stack else startField token s.stack
  | .colon => if token = .colon then some ⟨s.stack, .value⟩ else none
  | .commaOrEnd => if token = .comma then afterComma s.stack else close token s.stack
  | .nothing _ => none

end ParserState

/-- The state after tokens. -/
def run (s : ParserState) : List JsonToken → Option ParserState
  | [] => some s
  | t :: rest => (s.step t).bind (run · rest)

/-- The value that a list of tokens denotes. -/
def ofTokens? (tokens : List JsonToken) : Option Json :=
  match run ⟨[], .value⟩ tokens with
  | some ⟨_, .nothing v⟩ => some v
  | _ => none

/-- The value of a whole text. -/
def parse? (text : String) : Option Json :=
  (JsonToken.ofText? text.toList).bind ofTokens?

end Json

end EngineFuzz
