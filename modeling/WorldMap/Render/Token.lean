/-!
# Cancellation tokens

A token is fired once and stays fired. A token may be the child of another: firing the parent fires
the child, and firing the child leaves the parent alone. A token carries the names of its ancestors,
so that whether it has fired can be read off the set of names that have been fired.
-/

namespace WorldMap

/-- A token's own name and those of its ancestors. -/
structure Token where
  name : Nat
  ancestors : List Nat
  deriving DecidableEq, Repr, Inhabited

/-- The next free name, and the names that have been fired. -/
structure Tokens where
  next : Nat
  fired : List Nat
  deriving Inhabited

namespace Tokens

def none : Tokens := ⟨0, []⟩

def create (ts : Tokens) : Token × Tokens := (⟨ts.next, []⟩, { ts with next := ts.next + 1 })

/-- A new token that fires with `parent`. -/
def createChild (ts : Tokens) (parent : Token) : Token × Tokens :=
  (⟨ts.next, parent.name :: parent.ancestors⟩, { ts with next := ts.next + 1 })

def fire (ts : Tokens) (t : Token) : Tokens := { ts with fired := t.name :: ts.fired }

def isFired (ts : Tokens) (t : Token) : Bool :=
  ts.fired.contains t.name || t.ancestors.any ts.fired.contains

theorem isFired_fire_self (ts : Tokens) (t : Token) : (ts.fire t).isFired t = true := by
  simp [isFired, fire]

theorem isFired_fire_of_isFired {ts : Tokens} {t u : Token} (h : ts.isFired t = true) :
    (ts.fire u).isFired t = true := by
  simp only [isFired, fire, Bool.or_eq_true, List.any_eq_true, List.contains_iff_mem] at h ⊢
  rcases h with h | ⟨n, hn, h⟩
  · exact .inl (List.mem_cons_of_mem _ h)
  · exact .inr ⟨n, hn, List.mem_cons_of_mem _ h⟩

end Tokens

end WorldMap
