import EngineFuzz.Random.WordSource

/-!
# The ChaCha stream of a seed

The state is a square of sixteen words: a row of constants, two rows of key, and a row with the
number of the block.  Four rounds on columns and four on diagonals mix it, and the initial state is
added to what comes out.

* `ChaCha.block`: the sixteen words of a block.
* `WordSource.ofSeed`: the stream whose key is derived from a 64-bit seed.
-/

namespace EngineFuzz.ChaCha

/-- Four words that are treated alike. -/
structure Row where
  a : UInt32
  b : UInt32
  c : UInt32
  d : UInt32
deriving DecidableEq, Repr

namespace Row

/-- Combines two rows word by word. -/
def zipWith (f : UInt32 → UInt32 → UInt32) (x y : Row) : Row :=
  ⟨f x.a y.a, f x.b y.b, f x.c y.c, f x.d y.d⟩

/-- Changes each word. -/
def map (f : UInt32 → UInt32) (x : Row) : Row := ⟨f x.a, f x.b, f x.c, f x.d⟩

/-- The row with its first word moved to the end. -/
def turn (x : Row) : Row := ⟨x.b, x.c, x.d, x.a⟩

/-- The words in order. -/
def toList (x : Row) : List UInt32 := [x.a, x.b, x.c, x.d]

end Row

/-- The state, row by row. -/
structure Square where
  first : Row
  second : Row
  third : Row
  fourth : Row
deriving DecidableEq, Repr

/-- A word with its high bits moved to its low end. -/
def rotateLeft (n : UInt32) (w : UInt32) : UInt32 := (w <<< n) ||| (w >>> (32 - n))

/-- Adds `y` to `x` and mixes the sum into `z`, which is then rotated. -/
def mix (n : UInt32) (x y z : Row) : Row × Row :=
  let sum := x.zipWith (· + ·) y
  (sum, (z.zipWith (· ^^^ ·) sum).map (rotateLeft n))

namespace Square

/-- A quarter round in each of the four columns. -/
def columnRound (s : Square) : Square :=
  let (a, d) := mix 16 s.first s.second s.fourth
  let (c, b) := mix 12 s.third d s.second
  let (a, d) := mix 8 a b d
  let (c, b) := mix 7 c d b
  ⟨a, b, c, d⟩

/-- Turns the rows so that the diagonals become columns. -/
def diagonalsToColumns (s : Square) : Square :=
  ⟨s.first, s.second.turn, s.third.turn.turn, s.fourth.turn.turn.turn⟩

/-- Turns the rows back. -/
def columnsToDiagonals (s : Square) : Square :=
  ⟨s.first, s.second.turn.turn.turn, s.third.turn.turn, s.fourth.turn⟩

/-- A round on the columns and one on the diagonals. -/
def doubleRound (s : Square) : Square :=
  s.columnRound.diagonalsToColumns.columnRound.columnsToDiagonals

/-- The sums of the words. -/
def add (s t : Square) : Square :=
  ⟨s.first.zipWith (· + ·) t.first, s.second.zipWith (· + ·) t.second,
    s.third.zipWith (· + ·) t.third, s.fourth.zipWith (· + ·) t.fourth⟩

/-- The state after eight rounds, added to the state before them. -/
def scramble (s : Square) : Square :=
  s.doubleRound.doubleRound.doubleRound.doubleRound.add s

end Square

/-- The rows of the key. -/
structure Key where
  low : Row
  high : Row
deriving DecidableEq, Repr

/-- The words "expa", "nd 3", "2-by" and "te k". -/
def constants : Row := ⟨0x61707865, 0x3320646e, 0x79622d32, 0x6b206574⟩

/-- The state at the start of a block. -/
def Key.square (k : Key) (number : UInt64) : Square :=
  ⟨constants, k.low, k.high, ⟨number.toUInt32, (number >>> 32).toUInt32, 0, 0⟩⟩

/-- The words of a block. -/
def Key.block (k : Key) (number : Nat) : UInt32 × List UInt32 :=
  let s := (k.square number.toUInt64).scramble
  (s.first.a,
    [s.first.b, s.first.c, s.first.d] ++ s.second.toList ++ s.third.toList ++ s.fourth.toList)

/-! ### Seeds -/

/-- The next state of the generator that spreads a seed over a key. -/
def spread (state : UInt64) : UInt64 := state * 6364136223846793005 + 11634580027462260723

/-- The output of a state: its high bits are folded and rotated. -/
def spreadWord (state : UInt64) : UInt32 :=
  let folded := (((state >>> 18) ^^^ state) >>> 27).toUInt32
  let turns := (state >>> 59).toUInt32
  (folded >>> turns) ||| (folded <<< (32 - turns))

/-- Four words and the state after them. -/
def spreadRow (state : UInt64) : Row × UInt64 :=
  let a := spread state
  let b := spread a
  let c := spread b
  let d := spread c
  (⟨spreadWord a, spreadWord b, spreadWord c, spreadWord d⟩, d)

/-- The key that a seed is spread over. -/
def Key.ofSeed (seed : UInt64) : Key :=
  let (low, state) := spreadRow seed
  ⟨low, (spreadRow state).1⟩

end EngineFuzz.ChaCha

namespace EngineFuzz

/-- The stream of a seed. -/
def WordSource.ofSeed (seed : UInt64) : WordSource :=
  .ofBlocks (ChaCha.Key.ofSeed seed).block

end EngineFuzz
