/-!
# Single precision arithmetic

Sums and products in single precision are rounded one by one, to the nearest and ties to even. Here
is what else is needed: integers in single precision, bounds, and colour channels.
-/

namespace WorldMap

def singleOfInt (n : Int) : Float32 :=
  let m := n.natAbs.toUInt64.toFloat32
  if n < 0 then -m else m

/-- `x`, or `low` if `x` is below it or no number. -/
def atLeast (low x : Float32) : Float32 := if low < x then x else low

def clampUnit (x : Float32) : Float32 := if x < 0 then 0 else if 1 < x then 1 else x

/-- The channel nearest to `x`, a half going up. What is no number is zero. -/
def nearestChannel (x : Float32) : UInt8 :=
  let whole := x.toUInt8
  if 255 ≤ x then 255 else if 0.5 ≤ x - whole.toFloat32 then whole + 1 else whole

def interpolate (a b t : Float32) : Float32 := a + (b - a) * t

end WorldMap
