import EngineFuzz.Text.Decimal

/-!
# Points in time

Dates and times of day in universal time, as texts.  A text may have blanks between its parts, one
to nine digits of a fraction, and any offset below a day; it is shifted by the offset.  The second
of a minute may be the 60th.

* `Timestamp.parse?`: reads a text.
* `Timestamp.text`: the date, the time of day, as many digits of the fraction as are needed in
  groups of three, and a `Z`.
-/

namespace EngineFuzz

/-- A moment, in UTC. -/
structure Timestamp where
  year : Int
  month : Nat
  day : Nat
  hour : Nat
  minute : Nat
  /-- At most 60. -/
  second : Nat
  nanosecond : Nat
deriving DecidableEq, Repr, Inhabited

/-- A natural with zeros in front of it up to a width. -/
def zeroPadded (width n : Nat) : List Char :=
  let digits := natDigits n
  List.replicate (width - digits.length) '0' ++ digits

/-- White space. -/
def isBlank (c : Char) : Bool :=
  ('\t' ≤ c && c ≤ '\r') || c == ' ' || c == '\u0085' || c == '\u00a0' || c == '\u1680' ||
    ('\u2000' ≤ c && c ≤ '\u200a') || c == '\u2028' || c == '\u2029' || c == '\u202f' ||
    c == '\u205f' || c == '\u3000'

namespace Timestamp

/-! ### Dates -/

/-- Every fourth year, but of the centuries only every fourth. -/
def isLeapYear (year : Int) : Bool := year % 4 == 0 && (year % 100 != 0 || year % 400 == 0)

/-- How many days a month has; months are counted from 1. -/
def daysInMonth (year : Int) : Nat → Nat
  | 2 => if isLeapYear year then 29 else 28
  | 4 | 6 | 9 | 11 => 30
  | _ => 31

/-- The years that are kept. -/
def isYear (year : Int) : Bool := decide (-262143 ≤ year ∧ year ≤ 262142)

/-- The same time of the next day. -/
def nextDay (t : Timestamp) : Timestamp :=
  if t.day < daysInMonth t.year t.month then { t with day := t.day + 1 }
  else if t.month < 12 then { t with month := t.month + 1, day := 1 }
  else { t with year := t.year + 1, month := 1, day := 1 }

/-- The same time of the day before. -/
def previousDay (t : Timestamp) : Timestamp :=
  if 1 < t.day then { t with day := t.day - 1 }
  else if 1 < t.month then
    { t with month := t.month - 1, day := daysInMonth t.year (t.month - 1) }
  else { t with year := t.year - 1, month := 12, day := 31 }

/-- The time that is earlier by some minutes, less than a day. -/
def earlier (t : Timestamp) (minutes : Int) : Timestamp :=
  let minuteOfDay : Int := (60 * t.hour + t.minute : Nat) - minutes
  let shifted := (minuteOfDay % 1440).toNat
  let t := { t with hour := shifted / 60, minute := shifted % 60 }
  if minuteOfDay < 0 then t.previousDay
  else if 1440 ≤ minuteOfDay then t.nextDay
  else t

/-! ### Reading -/

/-- Takes a part off the front of a text, or fails. -/
abbrev Reader := StateT (List Char) Option

namespace Reader

def blanks : Reader Unit := modify (·.dropWhile isBlank)

/-- The next character, which has to satisfy a condition. -/
def char (accepts : Char → Bool) : Reader Char := fun s =>
  match s with
  | c :: rest => if accepts c then some (c, rest) else none
  | [] => none

def literal (c : Char) : Reader Unit := do let _ ← char (· == c)

/-- The number that some digits give. -/
def value (digits : List Char) : Nat := digits.foldl (fun n c => 10 * n + (c.toNat - '0'.toNat)) 0

/-- At least one digit and at most `most`. -/
def digits (most : Nat) : Reader (List Char) := fun s =>
  match (s.take most).takeWhile Char.isDigit with
  | [] => none
  | taken => some (taken, s.drop taken.length)

/-- A number of at most `most` digits after blanks. -/
def number (most : Nat) : Reader Nat := do
  blanks
  return value (← digits most)

/-- A sign and any number of digits, or at most four digits. -/
def year : Reader Int := do
  blanks
  match ← get with
  | '-' :: rest =>
    set rest
    return -(value (← digits rest.length) : Int)
  | '+' :: rest =>
    set rest
    return value (← digits rest.length)
  | _ => return value (← digits 4)

/-- A mark between two parts. -/
def separator (c : Char) : Reader Unit := do
  blanks
  literal c

/-- The nanoseconds of a fraction, of which nine digits count. -/
def fraction : Reader Nat := do
  match ← get with
  | '.' :: rest =>
    set rest
    let taken ← digits 9
    modify (·.dropWhile Char.isDigit)
    return value taken * Nat.pow 10 (9 - taken.length)
  | _ => return 0

/-- Two digits. -/
def twoDigits : Reader Nat := do
  let high ← char Char.isDigit
  let low ← char Char.isDigit
  return value [high, low]

/-- The minutes by which the time is ahead. -/
def offset : Reader Int := do
  let s ← get
  if String.ofList ((s.take 3).map Char.toUpper) == "UTC" then
    set (s.drop 3)
    return 0
  let sign ← char fun c => ['Z', 'z', '+', '-', '−'].contains c
  if sign == 'Z' || sign == 'z' then return 0
  let hours ← twoDigits
  modify (·.dropWhile fun c => c == ':' || isBlank c)
  let minutes ← twoDigits
  guard (hours < 24 ∧ minutes < 60)
  let total : Int := (60 * hours + minutes : Nat)
  return if sign == '+' then total else -total

/-- A whole text. -/
def timestamp : Reader Timestamp := do
  let year ← year
  separator '-'
  let month ← number 2
  separator '-'
  let day ← number 2
  let _ ← char fun c => ['T', 't', ' '].contains c
  let hour ← number 2
  separator ':'
  let minute ← number 2
  separator ':'
  let second ← number 2
  let nanosecond ← fraction
  blanks
  let ahead ← offset
  blanks
  guard ((← get).isEmpty)
  guard (isYear year ∧ 1 ≤ month ∧ month ≤ 12 ∧ 1 ≤ day ∧ day ≤ daysInMonth year month)
  guard (hour < 24 ∧ minute < 60 ∧ second ≤ 60)
  return Timestamp.earlier ⟨year, month, day, hour, minute, second, nanosecond⟩ ahead

end Reader

def parse? (text : String) : Option Timestamp := (Reader.timestamp text.toList).map (·.1)

/-! ### Writing -/

/-- Four digits; a year that does not fit has a sign. -/
def yearText (year : Int) : List Char :=
  if 0 ≤ year ∧ year < 10000 then zeroPadded 4 year.toNat
  else (if year < 0 then '-' else '+') :: zeroPadded 4 year.natAbs

/-- The fraction with no, three, six or nine digits. -/
def fractionText (nanosecond : Nat) : List Char :=
  if nanosecond = 0 then []
  else if nanosecond % 1000000 = 0 then '.' :: zeroPadded 3 (nanosecond / 1000000)
  else if nanosecond % 1000 = 0 then '.' :: zeroPadded 6 (nanosecond / 1000)
  else '.' :: zeroPadded 9 nanosecond

def text (t : Timestamp) : String :=
  String.ofList (yearText t.year ++ '-' :: zeroPadded 2 t.month ++ '-' :: zeroPadded 2 t.day ++
    'T' :: zeroPadded 2 t.hour ++ ':' :: zeroPadded 2 t.minute ++ ':' :: zeroPadded 2 t.second ++
    fractionText t.nanosecond ++ ['Z'])

/-- The text without marks, and with milliseconds. -/
def compactText (t : Timestamp) : String :=
  String.ofList (yearText t.year ++ zeroPadded 2 t.month ++ zeroPadded 2 t.day ++
    'T' :: zeroPadded 2 t.hour ++ zeroPadded 2 t.minute ++ zeroPadded 2 t.second ++
    '.' :: zeroPadded 3 (t.nanosecond / 1000000))

end Timestamp

end EngineFuzz
