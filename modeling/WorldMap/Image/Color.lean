import WorldMap.Number.Fraction
/-!
# Colors and pixels

A `Color` has straight alpha, the way colors are written and saved. A `Pixel` has premultiplied
alpha, the way they are blended. The two conversions are exact on opaque colors and round
otherwise: from color to pixel in whole numbers, and back by way of double precision, which decides
where a half goes.
-/

namespace WorldMap

/-- Red, green, blue and straight alpha. -/
structure Color where
  r : UInt8
  g : UInt8
  b : UInt8
  a : UInt8
  deriving DecidableEq, Repr, Inhabited

/-- Red, green and blue multiplied by alpha, and alpha. -/
structure Pixel where
  r : UInt8
  g : UInt8
  b : UInt8
  a : UInt8
  deriving DecidableEq, Repr, Inhabited

/-- `c * a / 255`, rounded to the nearest. -/
def multiplyAlpha (c a : UInt8) : UInt8 :=
  let p := c.toNat * a.toNat + 128
  UInt8.ofNat ((p + p / 256) / 256)

/-- `c / (a / 255)`, rounded to the nearest and cut off at 255; zero by zero is zero. Both quotients
are in double precision, the second as a share of 256. -/
def divideAlpha (c a : UInt8) : UInt8 :=
  if c = 0 then 0
  else if a ≤ c then 255
  else
    let unit := Binary.quotient Binary.doubleBits a.toNat 255
    let share := Binary.quotient Binary.doubleBits (c.toNat * twoPow unit.places) (unit.mantissa * 256)
    UInt8.ofNat ((512 * share.mantissa + twoPow share.places) / (2 * twoPow share.places))

theorem mul_toNat_le (c a : UInt8) : c.toNat * a.toNat ≤ 255 * a.toNat :=
  Nat.mul_le_mul_right _ (Nat.le_of_lt_succ c.toNat_lt)

/-- No product of two channels is half-way between two multiples of 255. -/
theorem multiplyAlpha_bounds (c a : UInt8) :
    2 * (c.toNat * a.toNat) < 510 * (multiplyAlpha c a).toNat + 255 ∧
      510 * (multiplyAlpha c a).toNat < 2 * (c.toNat * a.toNat) + 255 := by
  have hle := mul_toNat_le c a
  have ha := a.toNat_lt
  simp only [multiplyAlpha, UInt8.toNat_ofNat']
  generalize c.toNat * a.toNat = n at hle ⊢
  -- To divide by 255 is to divide by 256, and one more where the two digits come to 256 or more.
  rcases Nat.lt_or_ge ((n + 128) / 256 + (n + 128) % 256) 256 with hsmall | hlarge
  · have hquotient : (n + 128 + (n + 128) / 256) / 256 = (n + 128) / 256 := by omega
    omega
  · have hquotient : (n + 128 + (n + 128) / 256) / 256 = (n + 128) / 256 + 1 := by omega
    omega

theorem multiplyAlpha_le (c a : UInt8) : (multiplyAlpha c a).toNat ≤ a.toNat := by
  have hle := mul_toNat_le c a
  have hbounds := multiplyAlpha_bounds c a
  omega

theorem multiplyAlpha_opaque (c : UInt8) : multiplyAlpha c 255 = c := by
  have hbounds := multiplyAlpha_bounds c 255
  rw [show (255 : UInt8).toNat = 255 from rfl] at hbounds
  apply UInt8.toNat_inj.1
  omega

namespace Color

def transparent : Color := ⟨0, 0, 0, 0⟩
def black : Color := ⟨0, 0, 0, 255⟩

def premultiply (c : Color) : Pixel :=
  if c.a = 255 then ⟨c.r, c.g, c.b, c.a⟩
  else ⟨multiplyAlpha c.r c.a, multiplyAlpha c.g c.a, multiplyAlpha c.b c.a, c.a⟩

/-- What a surface is filled and coated with. -/
def paint (c : Color) : Pixel :=
  ⟨multiplyAlpha c.r c.a, multiplyAlpha c.g c.a, multiplyAlpha c.b c.a, c.a⟩

theorem paint_of_opaque {c : Color} (h : c.a = 255) : c.paint = ⟨c.r, c.g, c.b, 255⟩ := by
  simp only [paint, h, multiplyAlpha_opaque]

theorem premultiply_eq_paint (c : Color) : c.premultiply = c.paint := by
  unfold premultiply
  split
  · rename_i halpha
    rw [halpha, paint_of_opaque halpha]
  · rfl

end Color

namespace Pixel

def straighten (p : Pixel) : Color :=
  if p.a = 255 then ⟨p.r, p.g, p.b, p.a⟩
  else ⟨divideAlpha p.r p.a, divideAlpha p.g p.a, divideAlpha p.b p.a, p.a⟩

theorem straighten_of_opaque {p : Pixel} (h : p.a = 255) :
    p.straighten = ⟨p.r, p.g, p.b, 255⟩ := by
  simp [straighten, h]

/-- What a channel of a surface becomes under a coat of paint whose alpha is `a`. -/
def coatChannel (s d a : UInt8) : UInt8 :=
  UInt8.ofNat (s.toNat + (d.toNat * (255 - a.toNat) + 255) / 256)

/-- Of what is under a coat, `d * (255 - a) / 255` shows through, to less than one more or less. -/
theorem coatChannel_bounds {s a : UInt8} (h : s.toNat ≤ a.toNat) (d : UInt8) :
    255 * (coatChannel s d a).toNat < 255 * s.toNat + d.toNat * (255 - a.toNat) + 255 ∧
      255 * s.toNat + d.toNat * (255 - a.toNat) < 255 * (coatChannel s d a).toNat + 255 := by
  have ha := a.toNat_lt
  have hle : d.toNat * (255 - a.toNat) ≤ 255 * (255 - a.toNat) :=
    Nat.mul_le_mul_right _ (Nat.le_of_lt_succ d.toNat_lt)
  simp only [coatChannel, UInt8.toNat_ofNat']
  omega

def coat (s d : Pixel) : Pixel :=
  if s.a = 255 then s
  else ⟨coatChannel s.r d.r s.a, coatChannel s.g d.g s.a, coatChannel s.b d.b s.a,
    coatChannel s.a d.a s.a⟩

end Pixel

end WorldMap
