import WorldMap.Number.Rounding
import WorldMap.Number.Single
/-!
# Placing one side of a rectangle on a canvas

Drawing a rectangle works on each side alone: which canvas pixels of the side it covers, and, if it
is an image, which image pixels each of them shows. A `Span` is where the side begins and ends.

At one world point per pixel coordinates are integers, or halves of integers, kept to the 24
significant bits of single precision, and everything is computed with integers. At any other scale
they are numbers of single precision. `Coordinate` is what the two have in common.
-/

namespace WorldMap

/-- The covered canvas pixels of one side, `count` of them from `first` on, and what each shows. -/
structure Placement (τ : Type) where
  first : Nat
  count : Nat
  source : Nat → τ

/-- What drawing needs to know of canvas coordinates. -/
class Coordinate (κ : Type) where
  shift : κ → Int → κ
  /-- The first pixel of a side of so many pixels whose middle is not before the coordinate. -/
  edgePixel : κ → Nat → Nat
  /-- The way from one coordinate to another is next to nothing. -/
  isThin : κ → κ → Bool
  /-- The way from one coordinate to another can be walked. -/
  isWalkable : κ → κ → Bool

structure Span (κ : Type) where
  start : κ
  stop : κ

namespace Span

variable {κ τ : Type} [Coordinate κ]

def shift (s : Span κ) (d : Int) : Span κ := ⟨Coordinate.shift s.start d, Coordinate.shift s.stop d⟩

def isThin (s : Span κ) : Bool := Coordinate.isThin s.start s.stop

/-- The pixels of a side whose middle is in the span. None are covered if the span is too long. -/
def placement (s : Span κ) (side : Nat) (source : κ → Nat → τ) : Placement τ :=
  let first := Coordinate.edgePixel s.start side
  { first
    count := if Coordinate.isWalkable s.start s.stop then Coordinate.edgePixel s.stop side - first else 0
    source := source s.start }

end Span

/-- The numbers that a pixel's number is cut off at: the last 32-bit numbers that single precision has. -/
def maxPixel : Int := 2147483520

def saturate32 (n : Int) : Int := max (-2147483648) (min n 2147483647)

/-- Integers are coordinates, as single precision keeps them. A way is too long to be walked if its
length is not a signed 32-bit number. -/
instance : Coordinate Int where
  shift x d := single (x + d)
  edgePixel x side := min x.toNat side
  isThin start stop := stop ≤ start
  isWalkable start stop := saturate32 stop - saturate32 start ≤ 2147483647

namespace Span

/-- A side of `length` pixels that begins at world coordinate `origin`, on a canvas whose first pixel is
world coordinate `offset`, one world point per pixel. The length is added before the canvas is looked
at, and each step is rounded. -/
def moved (origin length offset : Int) : Span Int :=
  let start := single origin
  let stop := single (start + single length)
  let shift := -single offset
  ⟨single (start + shift), single (stop + shift)⟩

/-- The pixel that a whole number of pixels is counted from: half a pixel is added and the fraction cut
off towards zero, which moves a negative coordinate one pixel in. -/
def cornerPixel (x : Int) : Int := max (-maxPixel) (min (Int.tdiv (single (2 * x + 1)) 2) maxPixel)

/-- The pixels that are covered when the length is counted in whole pixels from the corner, which is at
least one pixel; nothing if they go beyond the signed 32-bit range. -/
def wholePixels {τ : Type} (s : Span Int) (side : Nat) (source : Int → Nat → τ) : Option (Placement τ) :=
  let corner := cornerPixel s.start
  let length := max 1 (cornerPixel (single (s.stop - s.start)))
  if 2147483647 < corner + length then none
  else
    let first := min corner.toNat side
    some {
      first
      count := min (corner + length).toNat side - first
      source := source s.start }

end Span

/-- The last coordinate below `n` that single precision can tell from `n`. -/
def lastBelow (n : Nat) : Nat := n - twoPow ((n - 1).log2 + 1 - singleBits)

theorem lastBelow_of_le {n : Nat} (h : n ≤ twoPow 24) : lastBelow n = n - 1 := by
  have small : (n - 1).log2 + 1 - singleBits = 0 := by
    have : (n - 1).log2 < 24 := by
      by_cases hn : n - 1 = 0
      · rw [hn]
        decide
      · exact log2_lt_of_lt_twoPow hn (by omega)
    simp only [singleBits]
    omega
  simp [lastBelow, small, twoPow]

/-- The image pixel in the middle of canvas pixel `p`, of an image side that begins at `start`. Twice
the middle of a pixel is an integer. -/
def middlePixel (length : Nat) (start : Int) (p : Nat) : Nat :=
  min (single (single (2 * p + 1) - 2 * start) / 2).toNat (lastBelow (single length).toNat)

/-- Numbers of single precision are coordinates. Pixel edges are found in steps of 1/64. An image is
never too long to be walked. -/
instance : Coordinate Float32 where
  shift x d := x + singleOfInt d
  edgePixel x side :=
    let limit := singleOfInt side
    let inside := if x < 0 then 0 else if limit < x then limit else x
    ((inside * 64).toUInt64.toNat + 32) / 64
  isThin start stop := stop - start ≤ 1 / 4096
  isWalkable _ _ := true

def pixelsPerPoint (scale : UInt32) : Float32 := 1 / scale.toFloat32

namespace Span

def scaled (origin length offset : Int) (scale : UInt32) : Span Float32 :=
  let inv := pixelsPerPoint scale
  let shift := -(singleOfInt offset) * inv
  let start := singleOfInt origin
  ⟨start * inv + shift, (start + singleOfInt length) * inv + shift⟩

end Span

structure Taps where
  near : Nat
  far : Nat
  nearWeight : Float32
  farWeight : Float32
  deriving Inhabited

def pixelAt (u length : Float32) : Nat :=
  let last := Float32.ofBits (length.toBits - 1)
  let inside := if u < 0 then 0 else if last < u then last else u
  inside.toUInt64.toNat

/-- The image pixels on the two sides of the middle of canvas pixel `p`, of an image side of `length`
world points that begins at `start`. -/
def tapsAt (length : Nat) (scale : UInt32) (start : Float32) (p : Nat) : Taps :=
  let step := 1 / pixelsPerPoint scale
  let size := singleOfInt length
  let u := (singleOfInt p + 0.5) * step + -start * step
  let middle := u + 0.5
  let farWeight := middle - middle.floor
  let near := u - 0.5
  { near := pixelAt near size
    far := pixelAt (near + 1) size
    nearWeight := 1 - farWeight
    farWeight }

end WorldMap
