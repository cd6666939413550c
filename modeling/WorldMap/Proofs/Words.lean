import WorldMap.Fault
/-!
# Casts that lose nothing

A cast to a 32-bit word keeps the integers of that word's range. Checked operations, and the casts
behind them, are exact as soon as the exact result is known to be in range.
-/

namespace WorldMap

namespace IntRange

theorem mem_signed32 {n : Int} : n ∈ signed32 ↔ -2147483648 ≤ n ∧ n ≤ 2147483647 := Iff.rfl

theorem mem_unsigned32 {n : Int} : n ∈ unsigned32 ↔ 0 ≤ n ∧ n ≤ 4294967295 := Iff.rfl

theorem mem_signed64 {n : Int} :
    n ∈ signed64 ↔ -9223372036854775808 ≤ n ∧ n ≤ 9223372036854775807 := Iff.rfl

theorem mem_unsigned64 {n : Int} : n ∈ unsigned64 ↔ 0 ≤ n ∧ n ≤ 18446744073709551615 := Iff.rfl

theorem toInt_mem (n : Int32) : n.toInt ∈ signed32 := by
  have hlow := n.le_toInt
  have hhigh := n.toInt_lt
  rw [mem_signed32]
  omega

theorem toNat_mem (n : UInt32) : (n.toNat : Int) ∈ unsigned32 := by
  have hhigh := n.toNat_lt
  rw [mem_unsigned32]
  omega

theorem toNat_pos {n : UInt32} (h : n ≠ 0) : (0 : Int) < n.toNat := by
  have hne : n.toNat ≠ 0 := fun hzero => h (UInt32.toNat_inj.1 hzero)
  omega

theorem toInt_ofInt {n : Int} (h : n ∈ signed32) : (Int32.ofInt n).toInt = n := by
  rw [mem_signed32] at h
  exact Int32.toInt_ofInt_of_le (by omega) (by omega)

theorem toNat_ofNat_toNat {n : Int} (h : n ∈ unsigned32) :
    ((UInt32.ofNat n.toNat).toNat : Int) = n := by
  rw [mem_unsigned32] at h
  have hlt : n.toNat < UInt32.size := by
    change n.toNat < 4294967296
    omega
  rw [UInt32.toNat_ofNat_of_lt' hlt]
  omega

theorem add_of_mem {r : IntRange} {a b : Int} (h : a + b ∈ r) : r.add a b = .ok (a + b) :=
  check_of_mem h

theorem sub_of_mem {r : IntRange} {a b : Int} (h : a - b ∈ r) : r.sub a b = .ok (a - b) :=
  check_of_mem h

theorem sub_of_not_mem {r : IntRange} {a b : Int} (h : a - b ∉ r) :
    r.sub a b = .error .subtraction :=
  check_of_not_mem h

theorem neg_of_mem {r : IntRange} {a : Int} (h : -a ∈ r) : r.neg a = .ok (-a) :=
  check_of_mem h

theorem mul_of_mem {r : IntRange} {a b : Int} (h : a * b ∈ r) : r.mul a b = .ok (a * b) :=
  check_of_mem h

end IntRange

end WorldMap
