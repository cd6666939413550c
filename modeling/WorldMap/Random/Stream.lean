/-!
# A stream of random words

A seed of 64 bits is spread over a key of eight words, and the key drives a ChaCha stream of twelve
rounds: block `n` of the stream depends on the key and on `n` alone, and has sixteen words.
-/

namespace WorldMap.Random

def nextState (s : UInt64) : UInt64 := s * 6364136223846793005 + 11634580027462260723

def rotateRight (w n : UInt32) : UInt32 := (w >>> n) ||| (w <<< ((32 - n) % 32))

/-- The word that a state gives: its upper bits folded, and turned by its uppermost five. -/
def stateWord (s : UInt64) : UInt32 :=
  rotateRight (((s >>> 18) ^^^ s) >>> 27).toUInt32 (s >>> 59).toUInt32

def stateWords : Nat → UInt64 → List UInt32
  | 0, _ => []
  | n + 1, s => stateWord (nextState s) :: stateWords n (nextState s)

theorem length_stateWords (n : Nat) (s : UInt64) : (stateWords n s).length = n := by
  induction n generalizing s with
  | zero => rfl
  | succ n ih => simp [stateWords, ih]

abbrev Key := Vector UInt32 8

def key (seed : UInt64) : Key :=
  ⟨(stateWords 8 seed).toArray, by rw [List.size_toArray, length_stateWords]⟩

abbrev Block := Vector UInt32 16

def rotateLeft (w n : UInt32) : UInt32 := (w <<< n) ||| (w >>> (32 - n))

/-- The word at `i` takes in the one at `j`; the one at `k` takes in the result and is turned by `n`. -/
def mixIn (i j k : Fin 16) (n : UInt32) (b : Block) : Block :=
  let b := b.set i (b[i] + b[j])
  b.set k (rotateLeft (b[k] ^^^ b[i]) n)

def quarterRound (i j k l : Fin 16) (b : Block) : Block :=
  mixIn k l j 7 (mixIn i j l 8 (mixIn k l j 12 (mixIn i j l 16 b)))

def doubleRound (b : Block) : Block :=
  let columns := quarterRound 3 7 11 15 (quarterRound 2 6 10 14
    (quarterRound 1 5 9 13 (quarterRound 0 4 8 12 b)))
  quarterRound 3 4 9 14 (quarterRound 2 7 8 13
    (quarterRound 1 6 11 12 (quarterRound 0 5 10 15 columns)))

/-- The block that the rounds start from: four constant words, the key, the number of the block, and
two words that are zero. -/
def seedBlock (k : Key) (n : UInt64) : Block :=
  #v[0x61707865, 0x3320646e, 0x79622d32, 0x6b206574, k[0], k[1], k[2], k[3], k[4], k[5], k[6], k[7],
    n.toUInt32, (n >>> 32).toUInt32, 0, 0]

/-- Block `n` of the stream: six double rounds, and the block they started from added to the result. -/
def block (k : Key) (n : UInt64) : Block :=
  let start := seedBlock k n
  Vector.zipWith (· + ·) (Nat.repeat doubleRound 6 start) start

def words (k : Key) (n : Nat) : Array UInt32 :=
  (Array.range n).flatMap fun i => (block k (UInt64.ofNat i)).toArray

theorem size_words (k : Key) (n : Nat) : (words k n).size = n * 16 := by
  have : ∀ l : List Nat, (l.map ((fun _ => 16) : Nat → Nat)).sum = l.length * 16 := by
    intro l
    induction l with
    | nil => rfl
    | cons _ _ ih => simp only [List.map_cons, List.sum_cons, List.length_cons, ih]; omega
  have sizes := this (List.range n)
  rw [List.length_range] at sizes
  simp only [words, Array.size_flatMap, Vector.size_toArray]
  rw [← sizes, ← Array.toList_range, ← Array.sum_toList, Array.toList_map]

/-- The fraction between zero and one that the upper 24 bits of a word count out. -/
def unitFloat (w : UInt32) : Float32 := (w >>> 8).toFloat32 / 16777216

end WorldMap.Random
