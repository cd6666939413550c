import WorldMap.Number.Fraction
/-!
# Counting finished tiles

Finishing a tile takes two steps that other workers may come between. `count` raises the counter and
gives the new count to the worker. `report` lets the worker pass its count on to the listener, unless
a larger one has been passed on before; counts that come late are dropped, so the listener sees them
rise. A listener that breaks off is contained in the report that called it.
-/

namespace WorldMap

/-- `listened` says whether there is a listener, `reports` holds the counts that it was called with,
and `breakdowns` those of them at which it broke off. -/
structure Tracker where
  total : Nat
  listened : Bool
  completed : Nat
  lastReported : Nat
  reports : Array Nat
  breakdowns : Array Nat

namespace Tracker

def start (total : Nat) (listened : Bool) : Tracker := ⟨total, listened, 0, 0, #[], #[]⟩

/-- One more tile is finished; the new count goes to whoever finished it. -/
def count (t : Tracker) : Nat × Tracker :=
  (t.completed + 1, { t with completed := t.completed + 1 })

def isNews (t : Tracker) (n : Nat) : Bool := t.listened && t.lastReported < n

/-- Passes the count `n` on, if it is news. If the listener is called, `breaksOff` says whether it
breaks off. -/
def report (t : Tracker) (n : Nat) (breaksOff : Bool) : Tracker :=
  if t.isNews n then
    { t with
      lastReported := n
      reports := t.reports.push n
      breakdowns := if breaksOff then t.breakdowns.push n else t.breakdowns }
  else t

def nextCall (t : Tracker) : Nat := t.reports.size + 1

/-- One worker counts and reports a tile with nobody in between, and is given its count. The listener
breaks off in its calls for whose numbers `breaksOff` holds. -/
def finishTile (t : Tracker) (breaksOff : Nat → Bool) : Nat × Tracker :=
  let (n, counted) := t.count
  (n, counted.report n (breaksOff counted.nextCall))

def fraction (t : Tracker) : Binary := Binary.completion t.completed t.total

def reportedFractions (t : Tracker) : List Binary :=
  t.reports.toList.map fun n => Binary.completion n t.total

end Tracker

end WorldMap
