/-!
# World areas

A rectangle of world points, its maximum corner excluded. The corner that is stored is a 32-bit
point, but a width may reach past the 32-bit range, so the excluded corner is an unbounded integer.
-/

namespace WorldMap

/-- The world points `(x, y)` with `minX ≤ x < maxX` and `minY ≤ y < maxY`. -/
structure Area where
  minX : Int32
  minY : Int32
  width : UInt32
  height : UInt32
  deriving DecidableEq, Repr

namespace Area

def maxX (a : Area) : Int := a.minX.toInt + a.width.toNat

def maxY (a : Area) : Int := a.minY.toInt + a.height.toNat

def isEmpty (a : Area) : Bool := a.width == 0 || a.height == 0

def contains (a : Area) (x y : Int) : Bool :=
  a.minX.toInt ≤ x && x < a.maxX && a.minY.toInt ≤ y && y < a.maxY

/-- An area without points lies in every area; any other is compared by its corners. -/
def containsArea (a b : Area) : Bool :=
  b.isEmpty ||
    (a.minX.toInt ≤ b.minX.toInt && a.minY.toInt ≤ b.minY.toInt
      && b.maxX ≤ a.maxX && b.maxY ≤ a.maxY)

theorem contains_iff {a : Area} {x y : Int} :
    a.contains x y = true ↔
      a.minX.toInt ≤ x ∧ x < a.maxX ∧ a.minY.toInt ≤ y ∧ y < a.maxY := by
  simp [contains, and_assoc]

def text (a : Area) : String :=
  s!"[{a.minX.toInt}, {a.maxX}) × [{a.minY.toInt}, {a.maxY})"

end Area

end WorldMap
