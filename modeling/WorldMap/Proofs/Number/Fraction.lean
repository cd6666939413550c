import WorldMap.Number.Fraction
/-!
# The completed share

Work that is not complete has a share below one, whatever rounding does to the quotient.
-/

namespace WorldMap

namespace Binary

variable {x y : Binary} {done total : Nat}

theorem le_iff : x.le y = true ↔ x.mantissa * twoPow y.places ≤ y.mantissa * twoPow x.places :=
  decide_eq_true_iff

theorem one_le_iff : one.le x = true ↔ twoPow x.places ≤ x.mantissa := by
  simp [le_iff, one, twoPow]

/-- What is cut off at `nearlyOne` is below one. -/
theorem not_one_le_least (x : Binary) : ¬ one.le (x.least nearlyOne) = true := by
  rw [one_le_iff, least]
  split
  · rename_i hle
    have hpos := twoPow_pos x.places
    have hcut : x.mantissa * 8388608 ≤ 8388607 * twoPow x.places := le_iff.1 hle
    omega
  · decide

theorem one_le_completion_iff : one.le (completion done total) = true ↔ total ≤ done := by
  unfold completion
  split
  · rename_i hdone
    simp only [hdone, iff_true]
    decide
  · rename_i hdone
    simp only [hdone, iff_false]
    split
    · decide
    · exact not_one_le_least _

theorem completion_self (n : Nat) : completion n n = one := if_pos (Nat.le_refl n)

end Binary

end WorldMap
