import Mathlib.Algebra.Order.Field.Power
import Mathlib.Algebra.Order.Field.Rat
import Mathlib.Data.Nat.Cast.Order.Field
import Mathlib.Tactic.FieldSimp
import Mathlib.Tactic.Linarith
import Mathlib.Tactic.Ring
import WorldMap.Number.Rounding
/-!
# Rounding as a relation between numbers

What a number is rounded to does not depend on how that is computed. To round to `p` significant bits is
to count in units of the power of two that gives the number `p` bits before the point, and to take the
nearest whole number of them, the even one of two that are equally near (`IsRounded`). `roundBits` does
this to whole numbers.

Rounding turns no two numbers around (`IsRounded.mono`). Among numbers with the same unit it does not
because rounding to whole numbers does not (`IsNearest.mono`). Where the units differ, the smaller number
comes to at most the power of two from which the larger unit is used, and the larger number to at least
that.
-/

namespace WorldMap

theorem cast_twoPow (n : Nat) : (twoPow n : Rat) = 2 ^ n := by
  rw [twoPow, Nat.one_shiftLeft, Nat.cast_pow, Nat.cast_ofNat]

theorem two_pow_log2_le {n : Nat} (hn : 0 < n) : (2 : Rat) ^ n.log2 ≤ n := by
  exact_mod_cast Nat.log2_self_le hn.ne'

theorem lt_two_pow_log2_succ (n : Nat) : (n : Rat) < 2 ^ (n.log2 + 1) := by
  exact_mod_cast Nat.lt_log2_self

/-! ### To a whole number -/

section Nearest

variable {q q' : Rat} {k k' n d : Nat}

/-- No whole number is nearer to `q` than `k`, and `k` is even if another one is as near. -/
structure IsNearest (q : Rat) (k : Nat) : Prop where
  distance_le : |q - k| ≤ 1 / 2
  even_of_half : |q - k| = 1 / 2 → Even k

theorem isNearest_natCast (n : Nat) : IsNearest n n where
  distance_le := by norm_num
  even_of_half := by norm_num

theorem IsNearest.mono (h : IsNearest q k) (h' : IsNearest q' k') (hle : q ≤ q') : k ≤ k' := by
  by_contra hlt
  have hstep : (k' : Rat) + 1 ≤ k := by
    exact_mod_cast Nat.lt_of_not_le hlt
  have hlow := (abs_le.1 h.distance_le).1
  have hhigh := (abs_le.1 h'.distance_le).2
  -- Only half-way between two neighbours could they be turned around, and there both are even.
  have hhalf : q - k = -(1 / 2) := by linarith
  have hhalf' : q' - k' = 1 / 2 := by linarith
  have hnext : k = k' + 1 := by
    have hcast : (k : Rat) = k' + 1 := by linarith
    exact_mod_cast hcast
  obtain ⟨i, hi⟩ := h.even_of_half (by rw [hhalf]; norm_num)
  obtain ⟨j, hj⟩ := h'.even_of_half (by rw [hhalf']; norm_num)
  omega

theorem IsNearest.le_two_pow {p : Nat} (h : IsNearest q k) (hq : q < 2 ^ p) : k ≤ 2 ^ p :=
  h.mono (isNearest_natCast _) (by exact_mod_cast hq.le)

theorem IsNearest.two_pow_le {p : Nat} (h : IsNearest q k) (hq : 2 ^ p ≤ q) : 2 ^ p ≤ k :=
  (isNearest_natCast _).mono h (by exact_mod_cast hq)

theorem isNearest_of_lt (h : |q - k| < 1 / 2) : IsNearest q k where
  distance_le := h.le
  even_of_half hhalf := absurd hhalf h.ne

theorem cast_div_eq_add (n : Nat) (hd : 0 < d) :
    (n : Rat) / d = (n / d : Nat) + (n % d : Nat) / d := by
  have hne : (d : Rat) ≠ 0 := by exact_mod_cast hd.ne'
  rw [div_eq_iff hne, add_mul, div_mul_cancel₀ _ hne]
  exact_mod_cast (Nat.div_add_mod' n d).symm

theorem isNearest_roundDiv (n : Nat) (hd : 0 < d) : IsNearest (n / d) (roundDiv n d) := by
  have hpos : (0 : Rat) < d := by exact_mod_cast hd
  have hrest : (0 : Rat) ≤ (n % d : Nat) / d := by positivity
  have hrest' : ((n % d : Nat) : Rat) / d < 1 := by
    rw [div_lt_one hpos]
    exact_mod_cast Nat.mod_lt n hd
  have hhalf : ((n % d : Nat) : Rat) / d < 1 / 2 ↔ 2 * (n % d) < d := by
    rw [div_lt_div_iff₀ hpos two_pos, one_mul, mul_comm]
    exact_mod_cast Iff.rfl
  have hhalf' : 1 / 2 < ((n % d : Nat) : Rat) / d ↔ d < 2 * (n % d) := by
    rw [div_lt_div_iff₀ two_pos hpos, one_mul, mul_comm]
    exact_mod_cast Iff.rfl
  rw [cast_div_eq_add n hd]
  simp only [roundDiv]
  split
  · rename_i hbelow
    refine isNearest_of_lt ?_
    rw [add_sub_cancel_left, abs_of_nonneg hrest]
    exact hhalf.2 hbelow
  split
  · rename_i habove
    have hmore := hhalf'.2 habove
    refine isNearest_of_lt (abs_lt.2 ⟨?_, ?_⟩) <;> push_cast <;> linarith
  · rename_i hbelow habove
    have htie : ((n % d : Nat) : Rat) / d = 1 / 2 :=
      le_antisymm (not_lt.1 (mt hhalf'.1 habove)) (not_lt.1 (mt hhalf.1 hbelow))
    have hdistance : |((n / d : Nat) : Rat) + 1 / 2 - (n / d + n / d % 2 : Nat)| = 1 / 2 := by
      rcases Nat.mod_two_eq_zero_or_one (n / d) with hparity | hparity <;> rw [hparity] <;> norm_num
    rw [htie]
    exact ⟨hdistance.le, fun _ => by rw [Nat.even_iff]; omega⟩

end Nearest

/-! ### To significant bits -/

section Rounded

variable {p m n : Nat} {q q' y y' : Rat}

/-- `y` is `q` to `p` significant bits: `q` is `s` units of `2 ^ e`, and `y` is a whole number of them. -/
def IsRounded (p : Nat) (q y : Rat) : Prop :=
  ∃ (e : Int) (s : Rat) (k : Nat), q = s * 2 ^ e ∧ y = k * 2 ^ e ∧
    2 ^ (p - 1) ≤ s ∧ s < 2 ^ p ∧ IsNearest s k

/-- What is rounded to `p` bits has `p` bits, or is the next power of two. -/
theorem IsRounded.exists_units (h : IsRounded p q y) :
    ∃ (e : Int) (k : Nat), y = k * 2 ^ e ∧ 2 ^ (p - 1) ≤ k ∧ k ≤ 2 ^ p := by
  obtain ⟨e, s, k, -, hy, hlow, hhigh, hk⟩ := h
  exact ⟨e, k, hy, hk.two_pow_le hlow, hk.le_two_pow hhigh⟩

/-- Rounding to `p` bits is off by one part in `2 ^ p` at most. -/
theorem IsRounded.abs_sub_le (hp : 0 < p) (h : IsRounded p q y) : |y - q| ≤ q / 2 ^ p := by
  obtain ⟨e, s, k, rfl, rfl, hlow, -, hk⟩ := h
  have hdistance : |(k : Rat) - s| ≤ 1 / 2 := by
    rw [abs_sub_comm]
    exact hk.distance_le
  calc |(k : Rat) * 2 ^ e - s * 2 ^ e|
      = |(k : Rat) - s| * 2 ^ e := by
        rw [← sub_mul, abs_mul, abs_of_pos (a := (2 : Rat) ^ e) (by positivity)]
    _ ≤ 1 / 2 * 2 ^ e := by gcongr
    _ = 2 ^ (p - 1) * 2 ^ e / 2 ^ p := by
        have hpow : (2 : Rat) ^ p = 2 ^ (p - 1) * 2 := by rw [← pow_succ, Nat.sub_add_cancel hp]
        rw [hpow]
        field_simp
    _ ≤ s * 2 ^ e / 2 ^ p := by gcongr

theorem IsRounded.pos (h : IsRounded p q y) : 0 < y := by
  obtain ⟨e, k, rfl, hunits, -⟩ := h.exists_units
  have hpos : 0 < k := Nat.lt_of_lt_of_le (Nat.two_pow_pos _) hunits
  positivity

/-- What is counted in a unit ends where counting in a larger one begins, or before. -/
theorem pow_mul_zpow_le {e e' : Int} (h : e < e') :
    (2 : Rat) ^ p * 2 ^ e ≤ 2 ^ (p - 1) * 2 ^ e' := by
  have hpow : (2 : Rat) ^ p ≤ 2 ^ (p - 1) * 2 := by
    rw [← pow_succ]
    exact pow_le_pow_right₀ one_le_two (by omega)
  calc (2 : Rat) ^ p * 2 ^ e
      ≤ 2 ^ (p - 1) * 2 * 2 ^ e := by gcongr
    _ = 2 ^ (p - 1) * 2 ^ (e + 1) := by rw [zpow_add_one₀ two_ne_zero]; ring
    _ ≤ 2 ^ (p - 1) * 2 ^ e' := by gcongr; exact one_le_two; omega

/-- Rounding turns no two numbers around. -/
theorem IsRounded.mono (h : IsRounded p q y) (h' : IsRounded p q' y') (hle : q ≤ q') : y ≤ y' := by
  obtain ⟨e, s, k, rfl, rfl, hlow, hhigh, hk⟩ := h
  obtain ⟨e', s', k', rfl, rfl, hlow', hhigh', hk'⟩ := h'
  rcases lt_trichotomy e e' with hlt | rfl | hgt
  · calc (k : Rat) * 2 ^ e
        ≤ 2 ^ p * 2 ^ e := by gcongr; exact_mod_cast hk.le_two_pow hhigh
      _ ≤ 2 ^ (p - 1) * 2 ^ e' := pow_mul_zpow_le hlt
      _ ≤ k' * 2 ^ e' := by gcongr; exact_mod_cast hk'.two_pow_le hlow'
  · have hs : s ≤ s' := le_of_mul_le_mul_right hle (by positivity)
    gcongr
    exact hk.mono hk' hs
  · have hlt : s' * 2 ^ e' < s * 2 ^ e :=
      calc s' * 2 ^ e'
          < 2 ^ p * 2 ^ e' := by gcongr
        _ ≤ 2 ^ (p - 1) * 2 ^ e := pow_mul_zpow_le hgt
        _ ≤ s * 2 ^ e := by gcongr
    exact absurd hle hlt.not_ge

/-- A number has one rounding. -/
theorem IsRounded.unique (h : IsRounded p q y) (h' : IsRounded p q y') : y = y' :=
  le_antisymm (h.mono h' le_rfl) (h'.mono h le_rfl)

theorem isRounded_zpow (hp : 0 < p) (j : Int) : IsRounded p (2 ^ j) (2 ^ j) := by
  have hpow : (2 : Rat) ^ j = 2 ^ (p - 1) * 2 ^ (j - (p - 1 : Nat)) := by
    rw [← zpow_natCast, ← zpow_add₀ two_ne_zero, add_sub_cancel]
  refine ⟨j - (p - 1 : Nat), 2 ^ (p - 1), 2 ^ (p - 1), hpow, ?_, le_rfl, ?_, ?_⟩
  · exact_mod_cast hpow
  · exact pow_lt_pow_right₀ one_lt_two (by omega)
  · exact_mod_cast isNearest_natCast (2 ^ (p - 1))

theorem IsRounded.scale (h : IsRounded p q y) (j : Int) : IsRounded p (q * 2 ^ j) (y * 2 ^ j) := by
  obtain ⟨e, s, k, rfl, rfl, hlow, hhigh, hk⟩ := h
  refine ⟨e + j, s, k, ?_, ?_, hlow, hhigh, hk⟩ <;> rw [zpow_add₀ two_ne_zero, mul_assoc]

/-- Where a number has `p` bits or more, the unit is the one that `roundBits` divides by, and where it
has fewer, the number is whole in the unit as it is. -/
theorem isRounded_roundBits (hp : 0 < p) (hn : 0 < n) : IsRounded p n (roundBits p n) := by
  have hlow := two_pow_log2_le hn
  have hhigh := lt_two_pow_log2_succ n
  rcases Nat.le_total p (n.log2 + 1) with hlong | hshort
  · obtain ⟨u, hu⟩ := Nat.exists_eq_add_of_le hlong
    have hunit : n.log2 + 1 - p = u := by omega
    refine ⟨u, n / 2 ^ u, roundDiv n (twoPow u), ?_, ?_, ?_, ?_, ?_⟩
    · rw [zpow_natCast, div_mul_cancel₀ _ (by positivity)]
    · rw [roundBits, hunit, zpow_natCast, Nat.cast_mul, cast_twoPow]
    · rw [le_div_iff₀ (by positivity), ← pow_add, show p - 1 + u = n.log2 by omega]
      exact hlow
    · rw [div_lt_iff₀ (by positivity), ← pow_add, ← hu]
      exact hhigh
    · rw [← cast_twoPow]
      exact isNearest_roundDiv n (twoPow_pos u)
  · obtain ⟨u, hu⟩ := Nat.exists_eq_add_of_le hshort
    have hlt : (n : Rat) < twoPow p := by
      rw [cast_twoPow]
      exact hhigh.trans_le (pow_le_pow_right₀ one_le_two hshort)
    have hwhole : (n : Rat) = n * 2 ^ u * 2 ^ (-u : Int) := by
      rw [zpow_neg, zpow_natCast, mul_inv_cancel_right₀ (by positivity)]
    refine ⟨-u, n * 2 ^ u, n * 2 ^ u, hwhole, ?_, ?_, ?_, ?_⟩
    · rw [roundBits_of_lt hp (by exact_mod_cast hlt), Nat.cast_mul, Nat.cast_pow, Nat.cast_ofNat]
      exact hwhole
    · rw [show p - 1 = n.log2 + u by omega, pow_add]
      gcongr
    · rw [hu, pow_add]
      gcongr
    · exact_mod_cast isNearest_natCast (n * 2 ^ u)

theorem roundBits_pos (hp : 0 < p) (hn : 0 < n) : 0 < roundBits p n := by
  have hpos := (isRounded_roundBits hp hn).pos
  exact_mod_cast hpos

theorem roundBits_mono (hp : 0 < p) (hm : 0 < m) (hmn : m ≤ n) : roundBits p m ≤ roundBits p n := by
  have hn : 0 < n := Nat.lt_of_lt_of_le hm hmn
  have hle := (isRounded_roundBits hp hm).mono (isRounded_roundBits hp hn) (by exact_mod_cast hmn)
  exact_mod_cast hle

end Rounded

end WorldMap
