import WorldMap.Image.Color
import WorldMap.Proofs.Number.Value
/-!
# Straight and premultiplied alpha

What the conversions between colors and pixels round: a channel of a pixel is `c * a / 255`, that of a
color `255 * c / a`, and under a coat of paint a channel is that of the paint and what its alpha lets
through of the channel below. The last is source-over as it is done in whole numbers, which is off by
less than one.

The way back from a pixel goes by two quotients in double precision. What they are off by is too
little to matter, except to which side a half goes.
-/

namespace WorldMap

/-! ### From a color to a pixel -/

theorem isNearest_multiplyAlpha (c a : UInt8) :
    IsNearest (c.toNat * a.toNat / 255) (multiplyAlpha c a).toNat := by
  obtain ⟨hlow, hhigh⟩ := multiplyAlpha_bounds c a
  have hlow' : (2 * (c.toNat * a.toNat) : Rat) < 510 * (multiplyAlpha c a).toNat + 255 := by
    exact_mod_cast hlow
  have hhigh' : (510 * (multiplyAlpha c a).toNat : Rat) < 2 * (c.toNat * a.toNat) + 255 := by
    exact_mod_cast hhigh
  refine isNearest_of_lt (abs_lt.2 ⟨?_, ?_⟩) <;> linarith

/-- The pixel has the alpha of the color, and of its channels what is nearest to `c * a / 255`. -/
structure Color.IsPremultiplied (c : Color) (p : Pixel) : Prop where
  r : IsNearest (c.r.toNat * c.a.toNat / 255) p.r.toNat
  g : IsNearest (c.g.toNat * c.a.toNat / 255) p.g.toNat
  b : IsNearest (c.b.toNat * c.a.toNat / 255) p.b.toNat
  a : p.a = c.a

theorem Color.isPremultiplied_paint (c : Color) : c.IsPremultiplied c.paint where
  r := isNearest_multiplyAlpha c.r c.a
  g := isNearest_multiplyAlpha c.g c.a
  b := isNearest_multiplyAlpha c.b c.a
  a := rfl

theorem Color.isPremultiplied_premultiply (c : Color) : c.IsPremultiplied c.premultiply :=
  c.premultiply_eq_paint ▸ c.isPremultiplied_paint

/-! ### A coat of paint -/

/-- A channel `s` of alpha `a` over a channel `d`: `s + d * (255 - a) / 255`, to less than one. -/
def IsOver (s d a out : UInt8) : Prop :=
  |(out.toNat : Rat) - (s.toNat + d.toNat * (255 - a.toNat) / 255)| < 1

theorem isOver_coatChannel {s a : UInt8} (h : s.toNat ≤ a.toNat) (d : UInt8) :
    IsOver s d a (Pixel.coatChannel s d a) := by
  obtain ⟨hhigh, hlow⟩ := Pixel.coatChannel_bounds h d
  have hcast : ((255 - a.toNat : Nat) : Rat) = 255 - a.toNat := by
    rw [Nat.cast_sub (Nat.le_of_lt_succ a.toNat_lt)]
    rfl
  have hhigh' : (255 * (Pixel.coatChannel s d a).toNat : Rat) <
      255 * s.toNat + d.toNat * (255 - a.toNat) + 255 := by
    rw [← hcast]
    exact_mod_cast hhigh
  have hlow' : (255 * s.toNat + d.toNat * (255 - a.toNat) : Rat) <
      255 * (Pixel.coatChannel s d a).toNat + 255 := by
    rw [← hcast]
    exact_mod_cast hlow
  rw [IsOver, abs_lt]
  constructor <;> linarith

theorem isOver_opaque (s d : UInt8) : IsOver s d 255 s := by
  have hzero : (255 : Rat) - (255 : UInt8).toNat = 0 := sub_self _
  rw [IsOver, hzero, mul_zero, zero_div, add_zero, sub_self, abs_zero]
  exact one_pos

namespace Pixel

/-- `out` is `s` over `d` on all four channels. -/
structure SourceOver (s d out : Pixel) : Prop where
  r : IsOver s.r d.r s.a out.r
  g : IsOver s.g d.g s.a out.g
  b : IsOver s.b d.b s.a out.b
  a : IsOver s.a d.a s.a out.a

/-- No channel of a premultiplied pixel is larger than its alpha. -/
structure IsValid (p : Pixel) : Prop where
  r_le : p.r.toNat ≤ p.a.toNat
  g_le : p.g.toNat ≤ p.a.toNat
  b_le : p.b.toNat ≤ p.a.toNat

theorem isValid_paint (c : Color) : c.paint.IsValid where
  r_le := multiplyAlpha_le c.r c.a
  g_le := multiplyAlpha_le c.g c.a
  b_le := multiplyAlpha_le c.b c.a

theorem IsValid.sourceOver_coat {s : Pixel} (h : s.IsValid) (d : Pixel) :
    s.SourceOver d (s.coat d) := by
  unfold coat
  split
  · rename_i halpha
    constructor <;> rw [halpha] <;> exact isOver_opaque ..
  · exact ⟨isOver_coatChannel h.r_le d.r, isOver_coatChannel h.g_le d.g,
      isOver_coatChannel h.b_le d.b, isOver_coatChannel le_rfl d.a⟩

end Pixel

/-! ### From a pixel to a color -/

section Straight

variable {c a : Nat} {unit share : Binary}

/-- Two quotients in double precision come as near to `255 * c / a` as is needed. -/
theorem abs_share_sub_lt (hc : 0 < c) (hca : c < a) (ha : a ≤ 255)
    (hunit : Binary.quotient Binary.doubleBits a 255 = unit)
    (hshare : Binary.quotient Binary.doubleBits (c * twoPow unit.places) (unit.mantissa * 256) =
      share) :
    |256 * share.value * a - 255 * c| < 1 / 4 := by
  have hcRat : (c : Rat) + 1 ≤ a := by exact_mod_cast hca
  have haRat : (a : Rat) ≤ 255 := by exact_mod_cast ha
  have hbits : 0 < Binary.doubleBits := by decide
  have hu : IsRounded Binary.doubleBits (a / 255) unit.value := by
    subst hunit
    exact_mod_cast Binary.isRounded_quotient hbits (by omega) ha
  have huPos := hu.pos
  have huNear : |255 * unit.value - a| ≤ a / 2 ^ 53 := by
    have hnear := abs_le.1 (hu.abs_sub_le hbits)
    rw [Binary.doubleBits] at hnear
    rw [abs_le]
    constructor <;> linarith [hnear.1, hnear.2]
  -- The second quotient is of a smaller number by a larger one, as `Binary.quotient` wants it.
  have hbelow : (c : Rat) ≤ unit.value * 256 := by
    linarith [(abs_le.1 huNear).1]
  have hparts : ((c * twoPow unit.places : Nat) : Rat) / (unit.mantissa * 256 : Nat) =
      c / (unit.value * 256) := by
    rw [Binary.value] at huPos ⊢
    push_cast
    rw [cast_twoPow]
    field_simp
  have hle : c * twoPow unit.places ≤ unit.mantissa * 256 := by
    rw [Binary.value, div_mul_eq_mul_div, le_div_iff₀ (by positivity), ← cast_twoPow] at hbelow
    exact_mod_cast hbelow
  have hs : IsRounded Binary.doubleBits (c / (unit.value * 256)) share.value := by
    subst hshare
    rw [← hparts]
    exact Binary.isRounded_quotient hbits (Nat.mul_pos hc (twoPow_pos _)) hle
  have hsLe : share.value ≤ 1 := by
    have hone := isRounded_zpow hbits 0
    rw [zpow_zero] at hone
    exact hs.mono hone ((div_le_one (by positivity)).2 hbelow)
  have hsNear : |256 * share.value * unit.value - c| ≤ c / 2 ^ 53 := by
    have hscale : 256 * share.value * unit.value - c =
        (share.value - c / (unit.value * 256)) * (unit.value * 256) := by
      field_simp
    have hnear := hs.abs_sub_le hbits
    rw [Binary.doubleBits] at hnear
    rw [hscale, abs_mul, abs_of_pos (a := unit.value * 256) (by positivity)]
    calc _ ≤ c / (unit.value * 256) / 2 ^ 53 * (unit.value * 256) := by gcongr
      _ = c / 2 ^ 53 := by field_simp
  have hsplit : 256 * share.value * a - 255 * c =
      255 * (256 * share.value * unit.value - c) - 256 * share.value * (255 * unit.value - a) := by
    ring
  have hspos := hs.pos
  calc |256 * share.value * a - 255 * c|
      ≤ |255 * (256 * share.value * unit.value - c)| +
          |256 * share.value * (255 * unit.value - a)| := by
        rw [hsplit]
        exact abs_sub _ _
    _ = 255 * |256 * share.value * unit.value - c| +
          256 * share.value * |255 * unit.value - a| := by
        rw [abs_mul, abs_mul, abs_of_pos (a := (255 : Rat)) (by norm_num),
          abs_of_pos (a := 256 * share.value) (by positivity)]
    _ ≤ 255 * (c / 2 ^ 53) + 256 * 1 * (a / 2 ^ 53) := by gcongr
    _ < 1 / 4 := by linarith

/-- The whole number of 256 times a share, a half going up. -/
theorem exists_halfUp_eq (share : Binary) :
    ∃ rest : Rat, 0 ≤ rest ∧ rest < 1 ∧
      (((512 * share.mantissa + twoPow share.places) / (2 * twoPow share.places) : Nat) : Rat) =
        256 * share.value + 1 / 2 - rest := by
  have hd : 0 < 2 * twoPow share.places := Nat.mul_pos two_pos (twoPow_pos _)
  have hdiv := cast_div_eq_add (512 * share.mantissa + twoPow share.places) hd
  refine ⟨((512 * share.mantissa + twoPow share.places) % (2 * twoPow share.places) : Nat) /
    (2 * twoPow share.places : Nat), by positivity, ?_, ?_⟩
  · rw [div_lt_one (by exact_mod_cast hd)]
    exact_mod_cast Nat.mod_lt _ hd
  · rw [eq_sub_iff_add_eq, ← hdiv, Binary.value]
    push_cast
    rw [cast_twoPow]
    field_simp
    ring

end Straight

/-- Where a channel is less than its alpha, what it is divided to is nearest to `255 * c / a`. -/
theorem divideAlpha_bounds {c a : UInt8} (hc : c ≠ 0) (hca : ¬ a ≤ c) :
    2 * (a.toNat * (divideAlpha c a).toNat) ≤ 510 * c.toNat + a.toNat ∧
      510 * c.toNat ≤ 2 * (a.toNat * (divideAlpha c a).toNat) + a.toNat := by
  have hcPos : 0 < c.toNat := Nat.pos_of_ne_zero fun hzero => hc (UInt8.toNat_inj.1 hzero)
  have hcLt : c.toNat < a.toNat := UInt8.lt_iff_toNat_lt.1 (UInt8.not_le.1 hca)
  obtain ⟨unit, hunit⟩ : ∃ unit, Binary.quotient Binary.doubleBits a.toNat 255 = unit := ⟨_, rfl⟩
  obtain ⟨share, hshare⟩ : ∃ share,
    Binary.quotient Binary.doubleBits (c.toNat * twoPow unit.places) (unit.mantissa * 256) = share :=
    ⟨_, rfl⟩
  obtain ⟨out, hout⟩ :
    ∃ out, (512 * share.mantissa + twoPow share.places) / (2 * twoPow share.places) = out := ⟨_, rfl⟩
  have hnear := abs_lt.1 (abs_share_sub_lt hcPos hcLt (Nat.le_of_lt_succ a.toNat_lt) hunit hshare)
  obtain ⟨rest, hrest, hrest', hfloor⟩ := exists_halfUp_eq share
  rw [hout] at hfloor
  have haPos : (0 : Rat) < a.toNat := by exact_mod_cast hcPos.trans hcLt
  have hhigh : (2 * (a.toNat * out) : Rat) < 510 * c.toNat + a.toNat + 1 := by
    rw [hfloor]
    nlinarith
  have hlow : (510 * c.toNat : Rat) < 2 * (a.toNat * out) + a.toNat + 1 := by
    rw [hfloor]
    nlinarith
  have hhigh' : 2 * (a.toNat * out) ≤ 510 * c.toNat + a.toNat :=
    Nat.le_of_lt_succ (by exact_mod_cast hhigh)
  have hlow' : 510 * c.toNat ≤ 2 * (a.toNat * out) + a.toNat :=
    Nat.le_of_lt_succ (by exact_mod_cast hlow)
  have hsmall : out < 256 := by
    by_contra hlarge
    have hmul : a.toNat * 256 ≤ a.toNat * out := Nat.mul_le_mul_left _ (Nat.le_of_not_lt hlarge)
    omega
  have heq : (divideAlpha c a).toNat = out := by
    simp only [divideAlpha, if_neg hc, if_neg hca, hunit, hshare, hout]
    exact UInt8.toNat_ofNat_of_lt' hsmall
  rw [heq]
  exact ⟨hhigh', hlow'⟩

/-- A channel `c` of a pixel of alpha `a` as that of a color: no whole number is nearer to
`255 * c / a`. -/
def IsDivided (c a out : UInt8) : Prop :=
  c ≤ a → a ≠ 0 → |(255 * c.toNat / a.toNat : Rat) - out.toNat| ≤ 1 / 2

theorem isDivided_divideAlpha (c a : UInt8) : IsDivided c a (divideAlpha c a) := by
  intro hca ha
  have haPos : (0 : Rat) < a.toNat := by
    exact_mod_cast Nat.pos_of_ne_zero fun hzero => ha (UInt8.toNat_inj.1 hzero)
  by_cases hc : c = 0
  · simp [divideAlpha, hc]
  by_cases hac : a ≤ c
  · obtain rfl : c = a := UInt8.le_antisymm hca hac
    simp only [divideAlpha, if_neg hc, if_pos hac]
    rw [mul_div_cancel_right₀ _ haPos.ne', show (255 : UInt8).toNat = 255 from rfl]
    norm_num
  · obtain ⟨hhigh, hlow⟩ := divideAlpha_bounds hc hac
    have hhigh' : (2 * (a.toNat * (divideAlpha c a).toNat) : Rat) ≤ 510 * c.toNat + a.toNat := by
      exact_mod_cast hhigh
    have hlow' : (510 * c.toNat : Rat) ≤ 2 * (a.toNat * (divideAlpha c a).toNat) + a.toNat := by
      exact_mod_cast hlow
    have hfraction : (255 * c.toNat / a.toNat : Rat) - (divideAlpha c a).toNat =
        (255 * c.toNat - a.toNat * (divideAlpha c a).toNat) / a.toNat := by
      field_simp
    rw [hfraction, abs_div, abs_of_pos haPos, div_le_iff₀ haPos, abs_le]
    constructor <;> linarith

theorem isDivided_opaque (c : UInt8) : IsDivided c 255 c := by
  intro _ _
  rw [show (255 : UInt8).toNat = 255 from rfl, Nat.cast_ofNat, mul_div_cancel_left₀ _ (by norm_num),
    sub_self, abs_zero]
  norm_num

namespace Pixel

/-- The color has the alpha of the pixel, and its channels divided by that. -/
structure IsStraightened (p : Pixel) (c : Color) : Prop where
  r : IsDivided p.r p.a c.r
  g : IsDivided p.g p.a c.g
  b : IsDivided p.b p.a c.b
  a : c.a = p.a

theorem isStraightened_straighten (p : Pixel) : p.IsStraightened p.straighten := by
  unfold straighten
  split
  · rename_i halpha
    refine ⟨?_, ?_, ?_, rfl⟩ <;> rw [halpha] <;> exact isDivided_opaque _
  · exact ⟨isDivided_divideAlpha p.r p.a, isDivided_divideAlpha p.g p.a,
      isDivided_divideAlpha p.b p.a, rfl⟩

end Pixel

end WorldMap
