import WorldMap.Proofs.Number.Value
/-!
# Single precision words

A binary fraction is handed out as a single precision word: eight bits for a power of two and, below
them, the bits of a significand of 24 bits without its first one. A number that has a significand and a
power of that kind is what its word stands for (`IsNormal.singleNumber?_toBits`).
-/

namespace WorldMap

/-- The number that a single precision word stands for, unless it is infinite or no number at all. -/
def singleNumber? (w : UInt32) : Option Rat :=
  let sign : Rat := if w.toNat < 2147483648 then 1 else -1
  let exponent := w.toNat / 8388608 % 256
  let fraction := w.toNat % 8388608
  if exponent = 255 then none
  else if exponent = 0 then some (sign * (fraction * 2 ^ (-149 : Int)))
  else some (sign * ((8388608 + fraction : Nat) * 2 ^ (exponent - 150 : Int)))

/-- A positive number whose single precision word has all 24 bits of its significand. -/
structure IsNormal (v : Rat) (e : Int) (k : Nat) : Prop where
  eq : v = k * 2 ^ e
  le_significand : 8388608 ≤ k
  significand_lt : k < 16777216
  lt_exponent : -150 < e
  exponent_lt : e < 105

section Exponent

variable {e : Int} {k : Nat}

theorem zpow_le_of_le_significand (hk : 8388608 ≤ k) : (2 : Rat) ^ (23 + e) ≤ k * 2 ^ e := by
  have hcast : (8388608 : Rat) ≤ k := by exact_mod_cast hk
  rw [zpow_add₀ two_ne_zero]
  gcongr
  exact le_of_eq_of_le (by norm_num) hcast

theorem lt_zpow_of_significand_lt (hk : k < 16777216) : (k : Rat) * 2 ^ e < 2 ^ (24 + e) := by
  have hcast : (k : Rat) < 16777216 := by exact_mod_cast hk
  rw [zpow_add₀ two_ne_zero]
  gcongr
  exact lt_of_lt_of_eq hcast (by norm_num)

theorem isNormal_of_eq {v : Rat} (heq : v = k * 2 ^ e) (hk : 8388608 ≤ k) (hk' : k < 16777216)
    (hlow : 2 ^ (-126 : Int) ≤ v) (hhigh : v ≤ 1) : IsNormal v e k := by
  rw [heq] at hlow hhigh
  have hmore := hlow.trans_lt (lt_zpow_of_significand_lt hk')
  have hless := (zpow_le_of_le_significand hk).trans (hhigh.trans_eq (zpow_zero 2).symm)
  have hexponent := (zpow_lt_zpow_iff_right₀ one_lt_two).1 hmore
  have hexponent' := (zpow_le_zpow_iff_right₀ one_lt_two).1 hless
  exact ⟨heq, hk, hk', by omega, by omega⟩

end Exponent

theorem IsRounded.exists_isNormal {q v : Rat} (h : IsRounded singleBits q v)
    (hlow : 2 ^ (-126 : Int) ≤ v) (hhigh : v ≤ 1) : ∃ e k, IsNormal v e k := by
  obtain ⟨e, k, heq, hk, hk'⟩ := h.exists_units
  change 8388608 ≤ k at hk
  change k ≤ 16777216 at hk'
  rcases Nat.lt_or_eq_of_le hk' with hlt | rfl
  · exact ⟨e, k, isNormal_of_eq heq hk hlt hlow hhigh⟩
  · have hcarry : v = (8388608 : Nat) * 2 ^ (e + 1) := by
      rw [heq, zpow_add_one₀ two_ne_zero]
      push_cast
      ring
    exact ⟨e + 1, 8388608, isNormal_of_eq hcarry (by decide) (by decide) hlow hhigh⟩

theorem singleNumber?_ofNat {e k : Nat} (hlow : 0 < e) (hhigh : e < 255) (hk : 8388608 ≤ k)
    (hk' : k < 16777216) :
    singleNumber? (UInt32.ofNat (e * 8388608 + (k - 8388608))) =
      some ((k : Rat) * 2 ^ (e - 150 : Int)) := by
  have hword : (UInt32.ofNat (e * 8388608 + (k - 8388608))).toNat = e * 8388608 + (k - 8388608) :=
    UInt32.toNat_ofNat_of_lt' (by change _ < 4294967296; omega)
  have hquotient : (e * 8388608 + (k - 8388608)) / 8388608 = e := by omega
  have hexponent : (e * 8388608 + (k - 8388608)) / 8388608 % 256 = e := by
    rw [hquotient]
    omega
  have hfraction : 8388608 + (e * 8388608 + (k - 8388608)) % 8388608 = k := by omega
  simp only [singleNumber?, hword, hexponent, hfraction]
  rw [if_neg (by omega), if_neg (by omega), if_pos (by omega), one_mul]

/-! ### The word of a binary fraction -/

variable {x : Binary} {e : Int} {k : Nat}

theorem IsNormal.mantissa_eq (h : IsNormal x.value e k) :
    (x.mantissa : Rat) = k * 2 ^ (e + x.places) := by
  have hvalue := h.eq
  rw [Binary.value, div_eq_iff (by positivity)] at hvalue
  rw [hvalue, zpow_add₀ two_ne_zero, zpow_natCast, mul_assoc]

theorem IsNormal.mantissa_pos (h : IsNormal x.value e k) : 0 < x.mantissa := by
  have hk : 0 < k := Nat.lt_of_lt_of_le (by decide) h.le_significand
  have hpos : (0 : Rat) < x.mantissa := by
    rw [h.mantissa_eq]
    positivity
  exact_mod_cast hpos

/-- The exponent is that of the first bit. -/
theorem IsNormal.log2_mantissa (h : IsNormal x.value e k) :
    (x.mantissa.log2 : Int) = 23 + (e + x.places) := by
  have hlow : (2 : Rat) ^ (23 + (e + x.places)) ≤ x.mantissa := by
    rw [h.mantissa_eq]
    exact zpow_le_of_le_significand h.le_significand
  have hhigh : (x.mantissa : Rat) < 2 ^ (24 + (e + x.places)) := by
    rw [h.mantissa_eq]
    exact lt_zpow_of_significand_lt h.significand_lt
  have hfirst : (2 : Rat) ^ (x.mantissa.log2 : Int) ≤ x.mantissa := by
    rw [zpow_natCast]
    exact two_pow_log2_le h.mantissa_pos
  have hfirst' : (x.mantissa : Rat) < 2 ^ (x.mantissa.log2 + 1 : Int) := by
    exact_mod_cast lt_two_pow_log2_succ x.mantissa
  have hle := (zpow_lt_zpow_iff_right₀ one_lt_two).1 (hlow.trans_lt hfirst')
  have hge := (zpow_lt_zpow_iff_right₀ one_lt_two).1 (hfirst.trans_lt hhigh)
  omega

/-- Shifted so that it has 24 bits, the mantissa is the significand. -/
theorem IsNormal.significand_eq (h : IsNormal x.value e k) :
    (if x.mantissa.log2 ≤ 23 then x.mantissa * twoPow (23 - x.mantissa.log2)
      else x.mantissa / twoPow (x.mantissa.log2 - 23)) = k := by
  have hlog := h.log2_mantissa
  have hmantissa := h.mantissa_eq
  split
  · rename_i hshort
    have hshift : e + x.places = -(23 - x.mantissa.log2 : Nat) := by omega
    rw [hshift, zpow_neg, zpow_natCast, ← div_eq_mul_inv, eq_div_iff (by positivity),
      ← cast_twoPow] at hmantissa
    exact_mod_cast hmantissa
  · rename_i hlong
    have hshift : e + x.places = (x.mantissa.log2 - 23 : Nat) := by omega
    rw [hshift, zpow_natCast, ← cast_twoPow] at hmantissa
    refine Nat.div_eq_of_eq_mul_left (twoPow_pos _) ?_
    exact_mod_cast hmantissa

theorem IsNormal.toBits_eq (h : IsNormal x.value e k) :
    x.toBits = UInt32.ofNat ((e + 150).toNat * 8388608 + (k - 8388608)) := by
  have hlog := h.log2_mantissa
  have hlow := h.lt_exponent
  have hexponent : x.mantissa.log2 + 127 - x.places = (e + 150).toNat := by omega
  rw [Binary.toBits, if_neg h.mantissa_pos.ne']
  simp only [hexponent, h.significand_eq]

theorem IsNormal.singleNumber?_toBits (h : IsNormal x.value e k) :
    singleNumber? x.toBits = some x.value := by
  have hlow := h.lt_exponent
  have hhigh := h.exponent_lt
  have hexponent : ((e + 150).toNat : Int) - 150 = e := by omega
  rw [h.toBits_eq, singleNumber?_ofNat (by omega) (by omega) h.le_significand h.significand_lt,
    hexponent, h.eq]

end WorldMap
