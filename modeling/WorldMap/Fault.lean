/-!
# Checked machine arithmetic

Coordinates and sizes are machine integers. A checked operation computes on unbounded integers and
then asks whether the exact result belongs to the word it has to fit: if so the result is exact,
and otherwise the operation is a `Fault`. Nothing here wraps.
-/

namespace WorldMap

/-- An arithmetic operation that has no result in its word, a rectangle with such a corner, or a
sequence of more elements than memory can be addressed for. -/
inductive Fault
  | addition
  | subtraction
  | multiplication
  | division
  | negation
  | rectangle
  | capacity
  deriving DecidableEq, Repr

namespace Fault

def message : Fault → String
  | addition => "attempt to add with overflow"
  | subtraction => "attempt to subtract with overflow"
  | multiplication => "attempt to multiply with overflow"
  | division => "attempt to divide by zero"
  | negation => "attempt to negate with overflow"
  | rectangle => "called `Option::unwrap()` on a `None` value"
  | capacity => "capacity overflow"

end Fault

abbrev Checked := Except Fault

/-- The integers of a machine word, both ends included. -/
structure IntRange where
  lo : Int
  hi : Int
  deriving DecidableEq, Repr

namespace IntRange

def signed32 : IntRange := ⟨-2147483648, 2147483647⟩
def unsigned32 : IntRange := ⟨0, 4294967295⟩
def signed64 : IntRange := ⟨-9223372036854775808, 9223372036854775807⟩
def unsigned64 : IntRange := ⟨0, 18446744073709551615⟩

instance : Membership Int IntRange := ⟨fun r n => r.lo ≤ n ∧ n ≤ r.hi⟩

instance (n : Int) (r : IntRange) : Decidable (n ∈ r) :=
  inferInstanceAs (Decidable (r.lo ≤ n ∧ n ≤ r.hi))

/-- `n` itself if the word holds it, and the given fault if not. -/
def check (r : IntRange) (fault : Fault) (n : Int) : Checked Int :=
  if n ∈ r then .ok n else .error fault

theorem check_of_mem {r : IntRange} {fault : Fault} {n : Int} (h : n ∈ r) :
    r.check fault n = .ok n := if_pos h

theorem check_of_not_mem {r : IntRange} {fault : Fault} {n : Int} (h : n ∉ r) :
    r.check fault n = .error fault := if_neg h

def add (r : IntRange) (a b : Int) : Checked Int := r.check .addition (a + b)
def sub (r : IntRange) (a b : Int) : Checked Int := r.check .subtraction (a - b)
def mul (r : IntRange) (a b : Int) : Checked Int := r.check .multiplication (a * b)
def neg (r : IntRange) (a : Int) : Checked Int := r.check .negation (-a)

end IntRange

end WorldMap
