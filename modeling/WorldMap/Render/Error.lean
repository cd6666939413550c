import WorldMap.Schedule.Collector
/-!
# Why a render fails

Tiles that fail do not show up here: they are left blank. A render fails because it is asked for
something impossible, because its data source or its engine is not available, or because it was told
to stop.
-/

namespace WorldMap

inductive GeometryProblem
  | emptyOutput
  | zeroScale
  | tooWide
  | worldTooLarge
  | targetSize (width height : Nat)
  | other (text : String)
  deriving DecidableEq, Repr

namespace GeometryProblem

def text : GeometryProblem → String
  | emptyOutput => "output must not be empty"
  | zeroScale => "scale must be at least 1"
  | tooWide => "output is too wide to composite"
  | worldTooLarge => "visible world area is too large"
  | targetSize w h => s!"target buffer is {w}×{h}"
  | other text => text

end GeometryProblem

inductive RenderError
  | cancelled
  | interrupted
  | engineClosed
  | invalidGeometry (width height scale : UInt32) (problem : GeometryProblem)
  | source (e : SourceError)
  deriving DecidableEq, Repr

namespace RenderError

def text : RenderError → String
  | cancelled => "render was cancelled"
  | interrupted => "render was interrupted"
  | engineClosed => "preview engine is closed"
  | invalidGeometry w h s p => s!"invalid output geometry {w}×{h} at scale {s}: {p.text}"
  | source e => s!"data source error: {e.text}"

def cause : RenderError → Option String
  | source e => some e.text
  | _ => none

/-- Whether the render was told to stop, as opposed to failing. -/
def isCancellation : RenderError → Bool
  | cancelled => true
  | interrupted => true
  | _ => false

def ofSchedule : ScheduleError → RenderError
  | .cancelled => cancelled
  | .interrupted => interrupted

end RenderError

end WorldMap
