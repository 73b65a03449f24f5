/-!
# Sources of random words

A source is an endless stream of 32-bit words that is made block by block.  It is known by the
words that are ready and by the blocks that follow them.

* `WordSource.next`: the first word and the rest of the stream.
* `WordSource.word`: the word at a position of the stream.
-/

namespace EngineFuzz

/-- A stream of words. -/
structure WordSource where
  /-- The words that come first. -/
  ready : List UInt32
  /-- The first word of each block and the words after it. -/
  block : Nat → UInt32 × List UInt32
  /-- The number of the block that follows the ready words. -/
  following : Nat

namespace WordSource

/-- The stream of all blocks, from block 0 on. -/
def ofBlocks (block : Nat → UInt32 × List UInt32) : WordSource := ⟨[], block, 0⟩

/-- The stream that consists of a function's values. -/
def ofFunction (f : Nat → UInt32) : WordSource := ofBlocks fun n => (f n, [])

/-- The first word and the rest of the stream. -/
def next (s : WordSource) : UInt32 × WordSource :=
  match s.ready with
  | w :: rest => (w, { s with ready := rest })
  | [] =>
    let (w, rest) := s.block s.following
    (w, { s with ready := rest, following := s.following + 1 })

/-- The stream without its first words. -/
def drop (s : WordSource) : Nat → WordSource
  | 0 => s
  | n + 1 => s.next.2.drop n

/-- The word at a position of the stream. -/
def word (s : WordSource) (n : Nat) : UInt32 := (s.drop n).next.1

/-- A stream loses its first word first. -/
theorem drop_succ (s : WordSource) (n : Nat) : s.drop (n + 1) = s.next.2.drop n := rfl

/-- The first word is the one that is taken next. -/
theorem word_zero (s : WordSource) : s.word 0 = s.next.1 := rfl

/-- Taking a word moves all positions by one. -/
theorem word_succ (s : WordSource) (n : Nat) : s.word (n + 1) = s.next.2.word n := rfl

end WordSource

end EngineFuzz
