/-!
# Rounding to significant bits

Binary floating point keeps a fixed number of leading bits. On integers that is an integer
operation, `roundBits`: round to a multiple of the power of two that leaves `p` leading bits, a half
going to the even multiple. A number that needs at most `p` bits is left alone, whatever its size,
so a sum or difference of small coordinates is exact.
-/

namespace WorldMap

def twoPow (n : Nat) : Nat := 1 <<< n

theorem twoPow_pos (n : Nat) : 0 < twoPow n := by
  rw [twoPow, Nat.one_shiftLeft]
  exact Nat.two_pow_pos n

theorem log2_lt_of_lt_twoPow {n p : Nat} (hn : n ≠ 0) (h : n < twoPow p) : n.log2 < p := by
  rw [twoPow, Nat.one_shiftLeft] at h
  exact (Nat.log2_lt hn).2 h

/-- `n / d` to the nearest natural number; a half goes to the even neighbour. -/
def roundDiv (n d : Nat) : Nat :=
  let q := n / d
  let r := n % d
  if 2 * r < d then q else if d < 2 * r then q + 1 else q + q % 2

theorem roundDiv_one (n : Nat) : roundDiv n 1 = n := by
  simp [roundDiv, Nat.mod_one]

/-- `n` to `p` significant bits. -/
def roundBits (p n : Nat) : Nat :=
  let unit := twoPow (n.log2 + 1 - p)
  roundDiv n unit * unit

theorem roundBits_of_lt {p n : Nat} (hp : 0 < p) (h : n < twoPow p) : roundBits p n = n := by
  have small : n.log2 + 1 - p = 0 := by
    by_cases hn : n = 0
    · subst hn
      simp only [Nat.log2_zero]
      omega
    · have := log2_lt_of_lt_twoPow hn h
      omega
  simp [roundBits, small, twoPow, roundDiv_one]

def roundBitsInt (p : Nat) (n : Int) : Int :=
  if n < 0 then -(roundBits p n.natAbs : Int) else roundBits p n.natAbs

theorem roundBitsInt_of_lt {p : Nat} {n : Int} (hp : 0 < p) (h : n.natAbs < twoPow p) :
    roundBitsInt p n = n := by
  unfold roundBitsInt
  rw [roundBits_of_lt hp h]
  split <;> omega

def singleBits : Nat := 24

/-- An integer as single precision keeps it. -/
def single (n : Int) : Int := roundBitsInt singleBits n

theorem single_of_lt {n : Int} (h : n.natAbs < twoPow 24) : single n = n :=
  roundBitsInt_of_lt (by decide) h

end WorldMap
