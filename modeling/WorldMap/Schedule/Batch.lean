import WorldMap.Geometry.Grid
import WorldMap.Schedule.Channel
import WorldMap.Schedule.Tracker
import WorldMap.Tiles.Rasterizer
/-!
# Batches of tile tasks

A batch has one task for each tile of a grid, and each task has a channel to the collector. A task
goes through its phases in single steps, and workers may take the steps of different tasks in any
order:

* `check` looks at the job's token, and the task is skipped if it has fired;
* `finish` is the end of the tile's computation, whatever it came to;
* `count` and `report` tell the tracker;
* `send` leaves the result in the channel, and the task is over.

A task that is over or skipped lets go of its channel. A step whose task is not in the phase for it
does nothing. `Batch.runTask` takes all steps of one task with nothing in between, and `Batch.runAll`
does so for every task in the order of the grid, as a single worker does.
-/

namespace WorldMap

inductive Phase (α : Type)
  | queued
  | skipped
  | computing
  | computed (result : Except TileError α)
  | counted (result : Except TileError α) (count : Nat)
  | reported (result : Except TileError α)
  | sent (result : Except TileError α)
  deriving Inhabited

/-- What a computation counts as: one that broke off has failed with the text it left. -/
def Attempt.outcome {α : Type} : Attempt TileError α → Except TileError α
  | .ok a => .ok a
  | .error (.error e) => .error e
  | .error (.broke b) => .error (.brokeOff b.text)

structure TileTask (α : Type) where
  tile : Tile
  phase : Phase α
  channel : Channel (Except TileError α)

namespace TileTask

variable {α : Type}

def queue (t : Tile) : TileTask α := ⟨t, .queued, Channel.fresh⟩

def enter (p : Phase α) (task : TileTask α) : TileTask α := { task with phase := p }

/-- The task ends in phase `p` and lets go of its channel, which it leaves as `c`. -/
def close (p : Phase α) (c : Channel (Except TileError α)) (task : TileTask α) : TileTask α :=
  { task with phase := p, channel := c.dropSender }

def collect (task : TileTask α) : TileTask α := { task with channel := task.channel.emptied }

/-- Nobody waits for the task any more. -/
def release (task : TileTask α) : TileTask α := { task with channel := task.channel.dropReceiver }

end TileTask

structure Batch (α : Type) where
  tasks : Array (TileTask α)
  tracker : Tracker

namespace Batch

variable {α σ : Type}

/-- How many tasks of 24 bytes there are addresses for. -/
def maxTasks : Nat := 384307168202282325

/-- Whether there is room for a task for each tile of a grid. -/
def room (g : Grid) : Checked Unit := if g.size ≤ maxTasks then .ok () else .error .capacity

/-- A batch for all tiles of a grid, none of its tasks begun. -/
def ofGrid (g : Grid) (listened : Bool) : Batch α :=
  ⟨(g.tiles.map TileTask.queue).toArray, Tracker.start g.size listened⟩

def size (b : Batch α) : Nat := b.tasks.size

def tile (b : Batch α) (i : Nat) : Tile := (b.tasks[i]?.map (·.tile)).getD default

def phase (b : Batch α) (i : Nat) : Phase α := (b.tasks[i]?.map (·.phase)).getD .skipped

def channel (b : Batch α) (i : Nat) : Channel (Except TileError α) :=
  (b.tasks[i]?.map (·.channel)).getD Channel.fresh

def modify (b : Batch α) (i : Nat) (f : TileTask α → TileTask α) : Batch α :=
  { b with tasks := b.tasks.modify i f }

def check (b : Batch α) (i : Nat) (cancelled : Bool) : Batch α :=
  match b.phase i with
  | .queued =>
    b.modify i (if cancelled then TileTask.close .skipped (b.channel i) else TileTask.enter .computing)
  | _ => b

def finish (b : Batch α) (i : Nat) (a : Attempt TileError α) : Batch α :=
  match b.phase i with
  | .computing => b.modify i (TileTask.enter (.computed a.outcome))
  | _ => b

def count (b : Batch α) (i : Nat) : Batch α :=
  match b.phase i with
  | .computed r =>
    let (n, tracker) := b.tracker.count
    { b.modify i (TileTask.enter (.counted r n)) with tracker }
  | _ => b

def report (b : Batch α) (i : Nat) (breaksOff : Bool) : Batch α :=
  match b.phase i with
  | .counted r n =>
    { b.modify i (TileTask.enter (.reported r)) with tracker := b.tracker.report n breaksOff }
  | _ => b

/-- The result of a reported tile is left for the collector, unless the channel is full. -/
def send (b : Batch α) (i : Nat) : Batch α :=
  match b.phase i with
  | .reported r =>
    match (b.channel i).send? r with
    | some c => b.modify i (TileTask.close (.sent r) c)
    | none => b
  | _ => b

def reception (b : Batch α) (i : Nat) : Reception (Except TileError α) := (b.channel i).reception

/-- What tasks have to do with, over a state `σ` that holds the job's token. `compute` computes a
tile; `notify` is the listener, which is told how many calls it has had with this one, and the
count, and says whether it broke off. -/
structure Host (σ α : Type) where
  cancelled : σ → Bool
  compute : Tile → σ → Attempt TileError α × σ
  notify : Nat → Nat → σ → Bool × σ

/-- A counted tile is reported, and the listener called if its count is news. -/
def reportTo (h : Host σ α) (i : Nat) (b : Batch α) (s : σ) : Batch α × σ :=
  match b.phase i with
  | .counted _ n =>
    if b.tracker.isNews n then
      let (broke, s) := h.notify b.tracker.nextCall n s
      (b.report i broke, s)
    else (b.report i false, s)
  | _ => (b, s)

def runTask (h : Host σ α) (i : Nat) (b : Batch α) (s : σ) : Batch α × σ :=
  let b := b.check i (h.cancelled s)
  match b.phase i with
  | .computing =>
    let (a, s) := h.compute (b.tile i) s
    let (b, s) := ((b.finish i a).count i).reportTo h i s
    (b.send i, s)
  | _ => (b, s)

def runFrom (h : Host σ α) : Nat → Nat → Batch α → σ → Batch α × σ
  | _, 0, b, s => (b, s)
  | i, n + 1, b, s =>
    let (b, s) := b.runTask h i s
    runFrom h (i + 1) n b s

def runAll (h : Host σ α) (b : Batch α) (s : σ) : Batch α × σ := b.runFrom h 0 b.size s

end Batch

end WorldMap
