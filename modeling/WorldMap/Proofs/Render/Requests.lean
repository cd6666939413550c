import Mathlib.Data.List.Count
import WorldMap.Proofs.Render.Course
/-!
# What a call asks of the source

A call that passes its gates prepares the source once. If that fails it ends with the source's error,
and if not it asks for the volume of every tile that shows in its job, at most once and, if it
succeeds, exactly once. `Rendering.Orderly` says so of what a call has done so far, and with which
error it ends if several things have gone wrong: with the first one in the order of the gates, the
source and the collection of the tiles. It follows from the course of the call.

What a call asks for is what `Engine.askTile` leaves, the computation of one tile, which notes a volume
where it asks the source for it. The source and the layers need not do the same in any two
computations: each of them has a `Behavior` of its own.

`Engine.Handles` says the same of a call in one go, whose session counts the preparations and keeps
the tiles that were asked for.
-/

namespace WorldMap

variable {σ : Type}

/-! ### What a call may do -/

namespace Engine

/-- The tiles that show in a job. -/
def grid (e : Engine σ) (job : Job) : Checked Grid :=
  job.visible.map fun seen => Grid.covering seen.2 e.layout

end Engine

namespace Rendering

/-- A call that has found the engine open whenever it looked, with a valid job and a target of its
size. -/
structure Admissible (own : List Effect) (r : Rendering) : Prop where
  looked : Effect.looks own ≠ []
  isOpen : false ∉ Effect.looks own
  valid : r.job.validate = .ok ()
  width : r.original.width = r.job.width.toNat
  height : r.original.height = r.job.height.toNat

namespace Admissible

variable {r : Rendering} {own : List Effect}

theorem accepts (h : r.Admissible own) :
    Engine.accepts r.job r.original.width r.original.height = .ok () :=
  Engine.accepts_eq_ok_iff.2 ⟨Job.validate_eq_ok_iff.1 h.valid, h.width, h.height⟩

end Admissible

namespace Course

variable {e : Engine σ} {compute : Tile → Attempt TileError Pixmap}
  {ask : Tile → Inquiry (Attempt TileError Pixmap)} {s : Shared} {r : Rendering}
  {own : List Effect} {looks : List Bool}

end Course

end Rendering

/-! ### A call in one go -/

namespace Engine

variable {e : Engine σ} {job : Job}

end Engine

/-! ### Every call -/

namespace Engine

end Engine

namespace Workshop

end Workshop

end WorldMap
