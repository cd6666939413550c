import WorldMap.Geometry.Viewport
import WorldMap.Render.Error
import WorldMap.Render.Token
/-!
# Render jobs

A job asks for one preview: its size in pixels, the world points per pixel, who is told of its
progress, and the token that cancels it. `Job.validate` is the gate before any work: a job that
passes it can be seen through a viewport and composed without overflow.
-/

namespace WorldMap

/-- What a progress listener does in one of its calls, in this order. -/
structure Reaction where
  closesEngine : Bool
  cancelsJob : Bool
  breaksOff : Bool

/-- A listener acts by the number of its call, counted from one. -/
abbrev Listener := Nat → Reaction

structure Job where
  width : UInt32
  height : UInt32
  scale : UInt32
  listener : Option Listener
  token : Token

namespace Job

/-- The view of a job has the world origin in its middle. -/
def viewport (j : Job) : Checked Viewport := Viewport.centred j.width j.height j.scale

/-- The view of a job and the part of the world that shows in it. -/
def visible (j : Job) : Checked (Viewport × Area) := do
  let viewport ← j.viewport
  return (viewport, ← viewport.worldArea)

def maxWorldSide : Nat := 2147483647

/-- The first thing that is wrong with the size of a job. -/
def problem? (j : Job) : Option GeometryProblem :=
  if j.width = 0 ∨ j.height = 0 then some .emptyOutput
  else if j.scale = 0 then some .zeroScale
  else if maxSurfaceWidth < j.width.toNat then some .tooWide
  else if maxWorldSide < j.width.toNat * j.scale.toNat ∨ maxWorldSide < j.height.toNat * j.scale.toNat then
    some .worldTooLarge
  else none

def refuse (j : Job) (p : GeometryProblem) : RenderError :=
  .invalidGeometry j.width j.height j.scale p

def validate (j : Job) : Except RenderError Unit :=
  match j.problem? with
  | some p => .error (j.refuse p)
  | none => .ok ()

def text (j : Job) (ts : Tokens) : String :=
  s!"RenderJob \x7b width: {j.width}, height: {j.height}, scale: {j.scale}, progress: {j.listener.isSome}, cancelled: {ts.isFired j.token} \x7d"

end Job

end WorldMap
