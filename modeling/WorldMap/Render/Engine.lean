import WorldMap.Config.Settings
import WorldMap.Log
import WorldMap.Render.Job
import WorldMap.Tiles.Compositor
/-!
# The preview engine

An engine owns a pool of workers from its creation until it is closed. `Lifecycle` is all that its
calls share: whether the pool is there, whether the engine's own token has fired, how many renders
are under way, and whether there ever was one. Each entry point of the lifecycle is one atomic step.

`Engine.renderInto` is one render from gate to exit. It passes the gates (an open engine, a valid job,
a target of the right size), is counted as active, prepares the source, has the tiles computed and
collected, and only then writes the target. Whatever way it ends, it is no longer counted as active,
and unless it succeeds the target is as it was.
-/

namespace WorldMap

inductive EngineState
  | constructed
  | rendering
  | idle
  | closed
  deriving DecidableEq, Repr

structure Lifecycle where
  hasPool : Bool
  interrupted : Bool
  active : Nat
  hasRendered : Bool
  deriving DecidableEq, Repr

namespace Lifecycle

def fresh : Lifecycle := ⟨true, false, 0, false⟩

def takePool (l : Lifecycle) : Lifecycle := { l with hasPool := false }

def interrupt (l : Lifecycle) : Lifecycle := { l with interrupted := true }

def close (l : Lifecycle) : Lifecycle := if l.hasPool then l.takePool.interrupt else l

def enter (l : Lifecycle) : Lifecycle := { l with active := l.active + 1, hasRendered := true }

def leave (l : Lifecycle) : Lifecycle := { l with active := l.active - 1 }

def state (l : Lifecycle) : EngineState :=
  if !l.hasPool then .closed
  else if 0 < l.active then .rendering
  else if l.hasRendered then .idle
  else .constructed

end Lifecycle

structure Engine (σ : Type) where
  source : Source σ
  rasterizer : Rasterizer σ
  compositor : Compositor
  workers : Nat

/-- A call of a progress listener: what it was told, and the state of the engine at that time. -/
structure Notice where
  fraction : Binary
  state : EngineState

/-- What the calls on an engine have left behind: its lifecycle, the tokens of its jobs, how often its
source was prepared, the tiles whose volumes it was asked for, what the listeners were told, the events
of the callers, and those of the workers. -/
structure Session where
  life : Lifecycle
  tokens : Tokens
  prepared : Nat
  queries : Array Tile
  notices : Array Notice
  events : Array Event
  workerEvents : Array Event

namespace Session

def note (s : Session) (e : Event) : Session := { s with events := s.events.push e }

end Session

namespace Engine

variable {σ : Type}

def create (source : Source σ) (layers : List (Layer σ)) (settings : Settings) (available : Nat) :
    Engine σ where
  source
  rasterizer := ⟨layers, settings.layout, settings.tileBackground⟩
  compositor := ⟨settings.layout, settings.canvasBackground, settings.axisColor⟩
  workers := settings.workers available

def layout (e : Engine σ) : Layout := e.rasterizer.layout

def newSession (e : Engine σ) : Session where
  life := Lifecycle.fresh
  tokens := Tokens.none
  prepared := 0
  queries := #[]
  notices := #[]
  events := #[.engineStarted e.workers e.source.name e.rasterizer.layers.length e.layout]
  workerEvents := #[]

/-- Closes the engine. Only the call that takes the pool away says so. -/
def close (s : Session) : Session :=
  if s.life.hasPool then { s with life := s.life.close }.note .engineClosed else s

/-- The work on one tile: the source is asked for the tile's volume, and the layers draw it. -/
def askTile (e : Engine σ) (t : Tile) : Inquiry (Attempt TileError Pixmap) :=
  let answer := e.source.ask (t.volume e.layout)
  { answer with
    result := do
      let sample ← answer.result.mapFailure TileError.source
      e.rasterizer.rasterize sample }

/-- The image of one tile. -/
def computeTile (e : Engine σ) (t : Tile) : Attempt TileError Pixmap := (e.askTile t).result

def notify (job : Job) (total call count : Nat) (s : Session) : Bool × Session :=
  match job.listener with
  | none => (false, s)
  | some listener =>
    let reaction := listener call
    let s := { s with notices := s.notices.push ⟨Binary.completion count total, s.life.state⟩ }
    let s := if reaction.closesEngine then { s with life := s.life.close } else s
    let s := if reaction.cancelsJob then { s with tokens := s.tokens.fire job.token } else s
    if reaction.breaksOff then
      (true, { s with workerEvents := s.workerEvents.push (.listenerBrokeOff count total) })
    else (false, s)

def host (e : Engine σ) (job : Job) (total : Nat) : Batch.Host Session Pixmap where
  cancelled s := s.tokens.isFired job.token
  compute t s :=
    let work := e.askTile t
    (work.result, { s with queries := s.queries ++ (work.asked.map (·.tile)).toArray })
  notify := notify job total

def prepare (e : Engine σ) (s : Session) : Attempt RenderError Unit × Session :=
  let s := { s with prepared := s.prepared + 1 }
  ((e.source.prepare s.prepared).mapFailure RenderError.source, s)

def collect (e : Engine σ) (job : Job) (g : Grid) (s : Session) :
    Attempt RenderError (List (TileResult Pixmap) × Stats) × Session :=
  let batch := Batch.ofGrid g job.listener.isSome
  let s := s.note (.submitted g.size g.width g.depth)
  let (batch, s) := batch.runAll (e.host job g.size) s
  let collector := batch.gather s.life.interrupted (s.tokens.isFired job.token)
  let s := collector.warnings.foldl (fun s w => s.note (.tileFailed w.1 w.2)) s
  match collector.result with
  | .error reason =>
    (.error (.error (RenderError.ofSchedule reason)), s.note (.renderStopped reason))
  | .ok collected => (.ok collected, s)

/-- The view of a job, the part of the world that shows in it, and the grid of its tiles. -/
def plan (e : Engine σ) (job : Job) : Checked (Viewport × Area × Grid) := do
  let (viewport, area) ← job.visible
  return (viewport, area, ← Grid.cover area e.layout)

def renderActive (e : Engine σ) (job : Job) (target : Image) (s : Session) :
    Attempt RenderError Image × Session :=
  match e.prepare s with
  | (.error f, s) => (.error f, s)
  | (.ok (), s) =>
    match e.plan job with
    | .error f => (.error (.broke (.ofFault f)), s)
    | .ok (viewport, area, grid) =>
      let s := s.note (.rendering area grid.size job.scale)
      match Batch.room grid with
      | .error f => (.error (.broke (.ofFault f)), s)
      | .ok () =>
        match e.collect job grid s with
        | (.error f, s) => (.error f, s)
        | (.ok (tiles, stats), s) =>
          match e.compositor.composite target viewport tiles with
          | .error f => (.error (.broke (.ofFault f)), s)
          | .ok image => (.ok image, s.note (.rendered stats.submitted stats.failed))

/-- A job has to be one that can be rendered, and the target has to be of its size. -/
def accepts (job : Job) (width height : Nat) : Except RenderError Unit := do
  job.validate
  unless width = job.width.toNat ∧ height = job.height.toNat do
    throw (job.refuse (.targetSize width height))

/-- What stands between a call and its render: the pool has to be there, and then the job and the
target have to be accepted. -/
def gate (l : Lifecycle) (job : Job) (width height : Nat) : Except RenderError Unit :=
  if l.hasPool then accepts job width height else .error .engineClosed

/-- Renders a job over `target`. -/
def renderInto (e : Engine σ) (job : Job) (target : Image) (s : Session) :
    Attempt RenderError Image × Session :=
  match gate s.life job target.width target.height with
  | .error f => (.error (.error f), s)
  | .ok () =>
    let (result, s) := e.renderActive job target { s with life := s.life.enter }
    (result, { s with life := s.life.leave })

/-- Renders a job over a new transparent image. -/
def render (e : Engine σ) (job : Job) (s : Session) : Attempt RenderError Image × Session :=
  match gate s.life job job.width.toNat job.height.toNat with
  | .error f => (.error (.error f), s)
  | .ok () =>
    e.renderInto job (Raster.replicate job.width.toNat job.height.toNat Color.transparent) s

end Engine

end WorldMap
