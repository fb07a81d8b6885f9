import RangeRecall.Numeric.BinaryFormat

/-!
A reproducible stream of random words. A seed is expanded to a key of eight
words by a permuted congruential generator, and the words of the stream are the
output blocks of a twelve-round ChaCha cipher with that key, a zero nonce and a
64-bit block counter.
-/

namespace RangeRecall

namespace Random

def rotateLeft (word : UInt32) (amount : UInt32) : UInt32 :=
  (word <<< amount) ||| (word >>> (32 - amount))

def rotateRight (word : UInt32) (amount : UInt32) : UInt32 :=
  if amount = 0 then word else (word >>> amount) ||| (word <<< (32 - amount))

def nextState (state : UInt64) : UInt64 :=
  state * 6364136223846793005 + 11634580027462260723

def outputWord (state : UInt64) : UInt32 :=
  rotateRight ((((state >>> 18) ^^^ state) >>> 27).toUInt32) (state >>> 59).toUInt32

def expand (state : UInt64) : (count : Nat) → List UInt32
  | 0 => []
  | count + 1 => outputWord (nextState state) :: expand (nextState state) count

/-- The key of the stream of a seed. -/
def key (seed : UInt64) : List UInt32 :=
  expand seed 8

abbrev Block := Vector UInt32 16

def quarterRound (block : Block) (a b c d : Fin 16) : Block :=
  let block := block.set a (block[a] + block[b])
  let block := block.set d (rotateLeft (block[d] ^^^ block[a]) 16)
  let block := block.set c (block[c] + block[d])
  let block := block.set b (rotateLeft (block[b] ^^^ block[c]) 12)
  let block := block.set a (block[a] + block[b])
  let block := block.set d (rotateLeft (block[d] ^^^ block[a]) 8)
  let block := block.set c (block[c] + block[d])
  block.set b (rotateLeft (block[b] ^^^ block[c]) 7)

def doubleRound (block : Block) : Block :=
  let block := quarterRound block 0 4 8 12
  let block := quarterRound block 1 5 9 13
  let block := quarterRound block 2 6 10 14
  let block := quarterRound block 3 7 11 15
  let block := quarterRound block 0 5 10 15
  let block := quarterRound block 1 6 11 12
  let block := quarterRound block 2 7 8 13
  quarterRound block 3 4 9 14

/-- The block before the rounds: four constants, the key, the counter and a zero nonce. -/
def initialBlock (key : List UInt32) (counter : Nat) : Block :=
  let words := [0x61707865, 0x3320646e, 0x79622d32, 0x6b206574] ++ key ++
    [UInt32.ofNat counter, UInt32.ofNat (counter / fieldLimit), 0, 0]
  Vector.ofFn fun place => words.getD place 0

def block (key : List UInt32) (counter : Nat) : Block :=
  let start := initialBlock key counter
  Vector.zipWith (· + ·) (Nat.repeat doubleRound 6 start) start

def word (key : List UInt32) (position : Nat) : UInt32 :=
  have inside : position % 16 < 16 := Nat.mod_lt _ (by decide)
  (block key (position / 16))[position % 16]

end Random

end RangeRecall
