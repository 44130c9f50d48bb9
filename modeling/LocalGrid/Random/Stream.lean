/-!
# Random words

The library's random numbers come from a keyed stream of 32-bit words: the ChaCha permutation with
twelve rounds, applied to a block counter. A `Stream` is a value; taking a word gives the word and
the stream after it, so every draw is visible in the types.
-/

namespace LocalGrid.Random

abbrev Block := Vector UInt32 16

def rotate (w : UInt32) (count : UInt32) : UInt32 := (w <<< count) ||| (w >>> (32 - count))

def quarterRound (s : Block) (a b c d : Fin 16) : Block :=
  let s := s.set a (s[a] + s[b])
  let s := s.set d (rotate (s[d] ^^^ s[a]) 16)
  let s := s.set c (s[c] + s[d])
  let s := s.set b (rotate (s[b] ^^^ s[c]) 12)
  let s := s.set a (s[a] + s[b])
  let s := s.set d (rotate (s[d] ^^^ s[a]) 8)
  let s := s.set c (s[c] + s[d])
  s.set b (rotate (s[b] ^^^ s[c]) 7)

/-- One round over the columns of the block and one over its diagonals. -/
def doubleRound (s : Block) : Block :=
  let s := quarterRound s 0 4 8 12
  let s := quarterRound s 1 5 9 13
  let s := quarterRound s 2 6 10 14
  let s := quarterRound s 3 7 11 15
  let s := quarterRound s 0 5 10 15
  let s := quarterRound s 1 6 11 12
  let s := quarterRound s 2 7 8 13
  quarterRound s 3 4 9 14

abbrev Key := Vector UInt32 8

/-- The block before mixing: four constant words, the key, the counter and a zero stream number. -/
def Key.block (k : Key) (counter : UInt64) : Block :=
  #v[0x61707865, 0x3320646E, 0x79622D32, 0x6B206574,
    k[0], k[1], k[2], k[3], k[4], k[5], k[6], k[7],
    counter.toUInt32, (counter >>> 32).toUInt32, 0, 0]

/-- The words of one block of the stream: the mixed block added to the block before mixing. -/
def Key.words (k : Key) (counter : UInt64) : List UInt32 :=
  let start := k.block counter
  let mixed := Nat.repeat doubleRound 6 start
  (Vector.zipWith (· + ·) mixed start).toList

/-- A stream of words: its key, the next block and the words of the current block still left. -/
structure Stream where
  key : Key
  counter : UInt64
  pending : List UInt32

def expandSeed (s : UInt64) : UInt64 := s * 6364136223846793005 + 11634580027462260723

def keyWord (s : UInt64) : UInt32 :=
  let folded := (((s >>> 18) ^^^ s) >>> 27).toUInt32
  let count := (s >>> 59).toUInt32
  (folded >>> count) ||| (folded <<< ((32 - count) % 32))

def keyWords : Nat → UInt64 → List UInt32
  | 0, _ => []
  | n + 1, s =>
    let s := expandSeed s
    keyWord s :: keyWords n s

theorem length_keyWords (n : Nat) (s : UInt64) : (keyWords n s).length = n := by
  induction n generalizing s with
  | zero => rfl
  | succ n ih => simp [keyWords, ih]

def Key.ofSeed (seed : UInt64) : Key := ⟨(keyWords 8 seed).toArray, by simp [length_keyWords]⟩

def Stream.ofSeed (seed : UInt64) : Stream := ⟨Key.ofSeed seed, 0, []⟩

def Stream.next (s : Stream) : UInt32 × Stream :=
  match s.pending with
  | w :: rest => (w, { s with pending := rest })
  | [] =>
    let words := s.key.words s.counter
    (words.headD 0, { s with counter := s.counter + 1, pending := words.tail })

end LocalGrid.Random
