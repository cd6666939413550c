import WorldMap.Fault
/-!
# Attempts

Work that is handed to the library (a data source, a layer, a progress listener) can come to an end
in three ways: with a result, with an error of its own kind, or by breaking off. Breaking off is
contained by whoever ordered the work, and leaves at most a text behind.
-/

namespace WorldMap

/-- What work that broke off leaves behind. -/
inductive Breakdown
  | saying (text : String)
  | silent
  deriving DecidableEq, Repr

namespace Breakdown

def text : Breakdown → String
  | saying text => text
  | silent => "unknown panic"

def ofFault (f : Fault) : Breakdown := saying f.message

end Breakdown

inductive Failure (ε : Type)
  | error (e : ε)
  | broke (b : Breakdown)
  deriving DecidableEq, Repr

namespace Failure

def map {ε δ : Type} (f : ε → δ) : Failure ε → Failure δ
  | error e => error (f e)
  | broke b => broke b

end Failure

/-- A result, an error, or work that broke off. -/
abbrev Attempt (ε : Type) := Except (Failure ε)

namespace Attempt

variable {ε δ α : Type}

def mapFailure (f : ε → δ) (a : Attempt ε α) : Attempt δ α := Except.mapError (Failure.map f) a

def ofChecked (c : Checked α) : Attempt ε α := c.mapError fun f => .broke (.ofFault f)

end Attempt

end WorldMap
