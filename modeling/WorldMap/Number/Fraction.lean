import WorldMap.Number.Rounding
/-!
# Binary fractions

A `Binary` is a natural number of parts of a power of two: what a floating point number between zero
and one is. `Binary.quotient` is division rounded to a number of significant bits, and
`Binary.completion` the completed share of some work: counts and their quotient are kept to double
precision and the result to single precision, but work that is not complete never counts as one.
-/

namespace WorldMap

/-- The number `mantissa / 2 ^ places`. -/
structure Binary where
  mantissa : Nat
  places : Nat
  deriving DecidableEq, Repr

namespace Binary

def zero : Binary := ⟨0, 0⟩
def one : Binary := ⟨1, 0⟩

/-- One minus the spacing of single precision numbers from one on. -/
def nearlyOne : Binary := ⟨8388607, 23⟩

def le (x y : Binary) : Bool := x.mantissa * twoPow y.places ≤ y.mantissa * twoPow x.places

def least (x y : Binary) : Binary := if x.le y then x else y

/-- `a / b` to `p` significant bits, for positive `a ≤ b`. -/
def quotient (p a b : Nat) : Binary :=
  let guess := p + b.log2 - a.log2 - 1
  let places := if a * twoPow guess < b * twoPow (p - 1) then guess + 1 else guess
  ⟨roundDiv (a * twoPow places) b, places⟩

def round (p : Nat) (x : Binary) : Binary := ⟨roundBits p x.mantissa, x.places⟩

def doubleBits : Nat := 53

def completion (done total : Nat) : Binary :=
  if total ≤ done then one
  else if done = 0 then zero
  else
    let share := quotient doubleBits (roundBits doubleBits done) (roundBits doubleBits total)
    (share.round singleBits).least nearlyOne

def toBits (x : Binary) : UInt32 :=
  if x.mantissa = 0 then 0
  else
    let top := x.mantissa.log2
    let significand :=
      if top ≤ 23 then x.mantissa * twoPow (23 - top) else x.mantissa / twoPow (top - 23)
    UInt32.ofNat ((top + 127 - x.places) * 8388608 + (significand - 8388608))

end Binary

end WorldMap
