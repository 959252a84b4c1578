/-!
# Keystreams

All chance in the game comes from the ChaCha cipher: its keystream is a sequence of 32-bit words
that the key determines, and a generator is a place in that sequence.  Word `k` is word `k % 16` of
block `k / 16`, so a generator needs no buffer.  A seed gives the key by eight steps of a linear
congruential sequence whose output is permuted.
-/

namespace FrenchTarot

/-- A place in the keystream of a key. -/
structure Generator where
  key : Vector UInt32 8
  /-- Rounds of the cipher: more rounds, a different keystream. -/
  rounds : Nat
  /-- How many words have been drawn. -/
  position : Nat
  deriving DecidableEq, Repr

namespace ChaCha

/-- Rotates the bits of a word to the left. -/
def rotateLeft (x : UInt32) (n : UInt32) : UInt32 := (x <<< n) ||| (x >>> (32 - n))

/-- Stirs four words of a block. -/
def quarterRound (v : Vector UInt32 16) (a b c d : Fin 16) : Vector UInt32 16 :=
  let v := v.set a (v[a] + v[b])
  let v := v.set d (rotateLeft (v[d] ^^^ v[a]) 16)
  let v := v.set c (v[c] + v[d])
  let v := v.set b (rotateLeft (v[b] ^^^ v[c]) 12)
  let v := v.set a (v[a] + v[b])
  let v := v.set d (rotateLeft (v[d] ^^^ v[a]) 8)
  let v := v.set c (v[c] + v[d])
  v.set b (rotateLeft (v[b] ^^^ v[c]) 7)

/-- Two rounds: the four columns, then the four diagonals. -/
def doubleRound (v : Vector UInt32 16) : Vector UInt32 16 :=
  let v := quarterRound v 0 4 8 12
  let v := quarterRound v 1 5 9 13
  let v := quarterRound v 2 6 10 14
  let v := quarterRound v 3 7 11 15
  let v := quarterRound v 0 5 10 15
  let v := quarterRound v 1 6 11 12
  let v := quarterRound v 2 7 8 13
  quarterRound v 3 4 9 14

/-- What the rounds start from: four constants, the key, the block number and two zeros. -/
def start (key : Vector UInt32 8) (number : UInt64) : Vector UInt32 16 :=
  #v[0x61707865, 0x3320646e, 0x79622d32, 0x6b206574,
    key[0], key[1], key[2], key[3], key[4], key[5], key[6], key[7],
    number.toUInt32, (number >>> 32).toUInt32, 0, 0]

/-- One block of the keystream. -/
def block (key : Vector UInt32 8) (rounds : Nat) (number : UInt64) : Vector UInt32 16 :=
  let initial := start key number
  initial.zipWith (· + ·) ((rounds / 2).repeat doubleRound initial)

/-- Word `k` of the keystream. -/
def word (key : Vector UInt32 8) (rounds k : Nat) : UInt32 :=
  (block key rounds (UInt64.ofNat (k / 16))).get ⟨k % 16, Nat.mod_lt k (by decide)⟩

end ChaCha

namespace Seeding

/-- The step from one state of the sequence to the next. -/
def step (state : UInt64) : UInt64 := state * 6364136223846793005 + 11634580027462260723

/-- The word that a state of the sequence gives. -/
def output (state : UInt64) : UInt32 :=
  let x := (((state >>> 18) ^^^ state) >>> 27).toUInt32
  let turn := (state >>> 59).toUInt32
  (x >>> turn) ||| (x <<< ((32 - turn) % 32))

/-- The first `n` words of the sequence after `state`. -/
def words (state : UInt64) : Nat → List UInt32
  | 0 => []
  | n + 1 => output (step state) :: words (step state) n

theorem length_words (state : UInt64) (n : Nat) : (words state n).length = n := by
  induction n generalizing state with
  | zero => rfl
  | succ n ih => simp [words, ih]

def key (seed : UInt64) : Vector UInt32 8 :=
  ⟨(words seed 8).toArray, by simp [length_words]⟩

end Seeding

namespace Generator

/-- The generator of tables and of shuffles, which runs eight rounds. -/
def ofSeed (seed : UInt64) : Generator := ⟨Seeding.key seed, 8, 0⟩

/-- The generator of agents, which runs twelve rounds. -/
def ofAgentSeed (seed : UInt64) : Generator := ⟨Seeding.key seed, 12, 0⟩

def next (g : Generator) : UInt32 × Generator :=
  (ChaCha.word g.key g.rounds g.position, { g with position := g.position + 1 })

end Generator

end FrenchTarot
