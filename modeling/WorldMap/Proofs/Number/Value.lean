import WorldMap.Proofs.Number.Fraction
import WorldMap.Proofs.Number.Rounding
/-!
# Binary fractions as numbers

What a `Binary` stands for is a rational number, and comparing, rounding and dividing are about that
number alone: a `Binary` that is rounded stands for the rounded number, and a quotient for the rounded
quotient, whatever powers of two they are written with.
-/

namespace WorldMap

namespace Binary

variable {x y : Binary} {p a b : Nat}

/-! ### The number that is meant -/

def value (x : Binary) : Rat := x.mantissa / 2 ^ x.places

theorem value_zero : zero.value = 0 := by
  simp [value, zero]

theorem value_one : one.value = 1 := by
  simp [value, one]

theorem value_nonneg (x : Binary) : 0 ≤ x.value := by
  rw [value]
  positivity

theorem value_pos_iff : 0 < x.value ↔ 0 < x.mantissa := by
  rw [value, div_pos_iff_of_pos_right (by positivity), Nat.cast_pos]

theorem le_iff_value_le : x.le y = true ↔ x.value ≤ y.value := by
  rw [le_iff, value, value, div_le_div_iff₀ (by positivity) (by positivity), ← cast_twoPow,
    ← cast_twoPow]
  exact_mod_cast Iff.rfl

theorem value_least (x y : Binary) : (x.least y).value = min x.value y.value := by
  rw [least]
  split
  · rename_i hle
    exact (min_eq_left (le_iff_value_le.1 hle)).symm
  · rename_i hle
    exact (min_eq_right (le_of_not_ge (mt le_iff_value_le.2 hle))).symm

/-! ### Rounding -/

theorem isRounded_round (hp : 0 < p) (hx : 0 < x.mantissa) :
    IsRounded p x.value (x.round p).value := by
  have hscaled := (isRounded_roundBits hp hx).scale (-x.places)
  rwa [zpow_neg, zpow_natCast, ← div_eq_mul_inv, ← div_eq_mul_inv] at hscaled

/-- The quotient is scaled until it has `p` bits before the point. The lengths of `a` and `b` suggest by
how much, and what they suggest is right or one too little. -/
theorem exists_quotient_eq (hp : 0 < p) (ha : 0 < a) (hab : a ≤ b) :
    ∃ places, quotient p a b = ⟨roundDiv (a * twoPow places) b, places⟩ ∧
      (2 : Rat) ^ (p - 1) * b ≤ a * 2 ^ places ∧ (a : Rat) * 2 ^ places < 2 ^ p * b := by
  have hb : 0 < b := Nat.lt_of_lt_of_le ha hab
  have hlog : a.log2 ≤ b.log2 := (Nat.le_log2 hb.ne').2 ((Nat.log2_self_le ha.ne').trans hab)
  obtain ⟨guess, hguess⟩ : ∃ guess, p + b.log2 - a.log2 - 1 = guess := ⟨_, rfl⟩
  have hnotMore : (a : Rat) * 2 ^ guess < 2 ^ p * b :=
    calc (a : Rat) * 2 ^ guess
        < 2 ^ (a.log2 + 1) * 2 ^ guess := by gcongr; exact lt_two_pow_log2_succ a
      _ = 2 ^ p * 2 ^ b.log2 := by rw [← pow_add, ← pow_add]; congr 1; omega
      _ ≤ 2 ^ p * b := by gcongr; exact two_pow_log2_le hb
  have hnotTwoLess : (2 : Rat) ^ (p - 1) * b < a * 2 ^ (guess + 1) :=
    calc (2 : Rat) ^ (p - 1) * b
        < 2 ^ (p - 1) * 2 ^ (b.log2 + 1) := by gcongr; exact lt_two_pow_log2_succ b
      _ = 2 ^ a.log2 * 2 ^ (guess + 1) := by rw [← pow_add, ← pow_add]; congr 1; omega
      _ ≤ a * 2 ^ (guess + 1) := by gcongr; exact two_pow_log2_le ha
  have htest : a * twoPow guess < b * twoPow (p - 1) ↔ (a : Rat) * 2 ^ guess < 2 ^ (p - 1) * b := by
    rw [mul_comm ((2 : Rat) ^ (p - 1)), ← cast_twoPow, ← cast_twoPow]
    exact_mod_cast Iff.rfl
  simp only [quotient, hguess]
  by_cases hless : a * twoPow guess < b * twoPow (p - 1)
  · rw [if_pos hless]
    refine ⟨guess + 1, rfl, hnotTwoLess.le, ?_⟩
    calc (a : Rat) * 2 ^ (guess + 1)
        = a * 2 ^ guess * 2 := by rw [pow_succ, mul_assoc]
      _ < 2 ^ (p - 1) * b * 2 := mul_lt_mul_of_pos_right (htest.1 hless) two_pos
      _ = 2 ^ p * b := by rw [mul_right_comm, ← pow_succ, Nat.sub_add_cancel hp]
  · rw [if_neg hless]
    exact ⟨guess, rfl, not_lt.1 (mt htest.2 hless), hnotMore⟩

theorem isRounded_quotient (hp : 0 < p) (ha : 0 < a) (hab : a ≤ b) :
    IsRounded p (a / b) (quotient p a b).value := by
  obtain ⟨places, hquotient, hlow, hhigh⟩ := exists_quotient_eq hp ha hab
  have hb : 0 < b := Nat.lt_of_lt_of_le ha hab
  have hpos : (0 : Rat) < b := by exact_mod_cast hb
  have hshift : (2 : Rat) ^ (-places : Int) = (2 ^ places)⁻¹ := by rw [zpow_neg, zpow_natCast]
  refine ⟨-places, (a * 2 ^ places) / b, roundDiv (a * twoPow places) b, ?_, ?_, ?_, ?_, ?_⟩
  · rw [hshift]
    field_simp
  · rw [hquotient, value, hshift, div_eq_mul_inv]
  · rwa [le_div_iff₀ hpos]
  · rwa [div_lt_iff₀ hpos]
  · have hnearest := isNearest_roundDiv (a * twoPow places) hb
    rwa [Nat.cast_mul, cast_twoPow] at hnearest

end Binary

end WorldMap
