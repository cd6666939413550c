import WorldMap.Schedule.Batch
import WorldMap.Tiles.Result
/-!
# Collecting a batch

A collector takes the results of a batch in the order of its grid, whatever the order in which the
tasks end. Before and after each tile, and whenever it has waited for one in vain, it looks at the
engine's token and then at the job's, and stops if either has fired. A tile that failed is noted and
has no image; it does not stop the collection.

`Collector.step` is a single step: a look at one token, or a look into one channel. `Collector.run`
repeats it until the collection is over, which it is after eight steps for each tile and one more if
all tasks have ended and no token fires meanwhile.
-/

namespace WorldMap

inductive ScheduleError
  | cancelled
  | interrupted
  deriving DecidableEq, Repr

namespace ScheduleError

def text : ScheduleError → String
  | cancelled => "tile collection was cancelled"
  | interrupted => "tile collection was interrupted"

end ScheduleError

def pollInterval (ms : UInt64) : UInt64 := if ms = 0 then 1 else ms

structure Stats where
  submitted : Nat
  rendered : Nat
  failed : Nat
  deriving DecidableEq, Repr

/-- What a look at the two tokens is for: what comes next if neither has fired. -/
inductive Purpose
  | await
  | giveUp
  | advance
  deriving DecidableEq, Repr

/-- Where a collector stands: before the next tile, about to look at the engine's token or at the
job's, waiting for the tile, or at the end. -/
inductive Stage
  | before
  | engineCheck (p : Purpose)
  | jobCheck (p : Purpose)
  | waiting
  | stopped (e : ScheduleError)
  | complete
  deriving DecidableEq, Repr

/-- `results` are the tiles collected so far, `warnings` those of them that failed, and why. -/
structure Collector (α : Type) where
  stage : Stage
  results : Array (TileResult α)
  warnings : Array (Tile × TileError)
  stats : Stats

namespace Collector

variable {α : Type}

def start (n : Nat) : Collector α := ⟨.before, #[], #[], ⟨n, 0, 0⟩⟩

def receive (c : Collector α) (tile : Tile) : Except TileError α → Collector α
  | .ok image =>
    { c with
      stage := .engineCheck .advance
      results := c.results.push ⟨tile, some image⟩
      stats := { c.stats with rendered := c.stats.rendered + 1 } }
  | .error e =>
    { c with
      stage := .engineCheck .advance
      results := c.results.push ⟨tile, none⟩
      warnings := c.warnings.push (tile, e)
      stats := { c.stats with failed := c.stats.failed + 1 } }

/-- Goes on after two looks at tokens that have not fired; `tile` is the tile it was waiting for. -/
def proceed (c : Collector α) (tile : Tile) : Purpose → Collector α
  | .await => { c with stage := .waiting }
  | .giveUp => c.receive tile (.error .lost)
  | .advance => { c with stage := .before }

/-- One step of the collector of `b`. The place of the tile that comes next is the number of tiles it
has collected. -/
def step (b : Batch α) (interrupted cancelled : Bool) (c : Collector α) : Collector α :=
  match c.stage with
  | .before =>
    { c with stage := if c.results.size < b.size then .engineCheck .await else .complete }
  | .engineCheck p => { c with stage := if interrupted then .stopped .interrupted else .jobCheck p }
  | .jobCheck p =>
    if cancelled then { c with stage := .stopped .cancelled }
    else c.proceed (b.tile c.results.size) p
  | .waiting =>
    match b.reception c.results.size with
    | .message r => c.receive (b.tile c.results.size) r
    | .nothing => { c with stage := .engineCheck .await }
    | .disconnected => { c with stage := .engineCheck .giveUp }
  | .stopped _ => c
  | .complete => c

/-- What the step of the collector leaves of `b`: waiting for a tile empties the tile's channel. -/
def drain (b : Batch α) (c : Collector α) : Batch α :=
  match c.stage with
  | .waiting => b.modify c.results.size TileTask.collect
  | _ => b

/-- At most `n` steps, while the tokens stay as they are and no task takes a step. -/
def run (interrupted cancelled : Bool) : Nat → Batch α → Collector α → Collector α
  | 0, _, c => c
  | n + 1, b, c =>
    match c.stage with
    | .stopped _ => c
    | .complete => c
    | _ => run interrupted cancelled n (c.drain b) (c.step b interrupted cancelled)

/-- What the collection came to, once it is over: the tiles and their numbers, or why there are
none. -/
def answer? (c : Collector α) : Option (Except ScheduleError (List (TileResult α) × Stats)) :=
  match c.stage with
  | .stopped e => some (.error e)
  | .complete => some (.ok (c.results.toList, c.stats))
  | _ => none

def result (c : Collector α) : Except ScheduleError (List (TileResult α) × Stats) :=
  c.answer?.getD (.ok (c.results.toList, c.stats))

end Collector

namespace Batch

variable {α : Type}

/-- Collects a batch whose tasks have ended. -/
def gather (b : Batch α) (interrupted cancelled : Bool) : Collector α :=
  Collector.run interrupted cancelled (8 * b.size + 1) b (Collector.start b.size)

end Batch

end WorldMap
