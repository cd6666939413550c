import WorldMap.Proofs.Schedule.Places
import WorldMap.Schedule.Collector
/-!
# One job under way

A `Dispatch` is a job from the moment its tasks are queued: the batch, the collector, and the two
tokens. Everything that can happen to it is a `Move`, and a run is any list of moves, so a theorem
about all runs covers any number of workers and every order in which tasks, listener, collector and
whoever holds a token come to act. A listener or a computation that fires a token does so by a move
between two steps of its own task: the call of a listener lies between `report` and `send`.

The rest of the development reaches the moves through `Dispatch.step_cases`, which lists all that a
move can change. `TileTask.Advance` does so for a task, and `Collector.Turn` for the collector.
-/

namespace WorldMap

variable {α : Type}

/-- `abandoned` says that the tiles were given up without, or before the end of, their collection.
`entered` are the places of the tiles whose computation was begun, the latest first. -/
structure Dispatch (α : Type) where
  batch : Batch α
  collector : Collector α
  interrupted : Bool
  cancelled : Bool
  abandoned : Bool
  entered : List Nat

/-- What can happen: a step of the task at place `i`, the firing of a token, a step of the collector,
or the loss of the receivers, which are given up one by one. -/
inductive Move
  | check (i : Nat)
  | finish (i : Nat)
  | count (i : Nat)
  | report (i : Nat) (breaksOff : Bool)
  | send (i : Nat)
  | cancel
  | interrupt
  | collect
  | abandon
  | release (i : Nat)
  deriving DecidableEq

namespace Phase

def result? : Phase α → Option (Except TileError α)
  | .computed r => some r
  | .counted r _ => some r
  | .reported r => some r
  | .sent r => some r
  | _ => none

def hasBegun : Phase α → Bool
  | .queued => false
  | .skipped => false
  | _ => true

def isComputing : Phase α → Bool
  | .computing => true
  | _ => false

/-- Whether the task has let go of its channel. -/
def isOver : Phase α → Bool
  | .skipped => true
  | .sent _ => true
  | _ => false

end Phase

namespace Stage

def isOver : Stage → Bool
  | .stopped _ => true
  | .complete => true
  | _ => false

end Stage

namespace Dispatch

def start (g : Grid) (listened : Bool) : Dispatch α :=
  ⟨Batch.ofGrid g listened, Collector.start g.size, false, false, false, []⟩

/-- Whether the collector still holds the receivers. -/
def isWatched (s : Dispatch α) : Bool := !s.abandoned && !s.collector.stage.isOver

/-- Whether the check of the task at place `i` lets its computation begin. -/
def begins (s : Dispatch α) (i : Nat) : Bool :=
  match s.batch.phase i with
  | .queued => !s.cancelled
  | _ => false

/-- The computation of tile `t` comes to `compute t`. -/
def step (compute : Tile → Attempt TileError α) (s : Dispatch α) : Move → Dispatch α
  | .check i =>
    { s with
      batch := s.batch.check i s.cancelled
      entered := if s.begins i then i :: s.entered else s.entered }
  | .finish i => { s with batch := s.batch.finish i (compute (s.batch.tile i)) }
  | .count i => { s with batch := s.batch.count i }
  | .report i breaksOff => { s with batch := s.batch.report i breaksOff }
  | .send i => { s with batch := s.batch.send i }
  | .cancel => { s with cancelled := true }
  | .interrupt => { s with interrupted := true }
  | .collect =>
    if s.abandoned then s
    else
      { s with
        batch := s.collector.drain s.batch
        collector := s.collector.step s.batch s.interrupted s.cancelled }
  | .abandon => { s with abandoned := true }
  | .release i => if s.isWatched then s else { s with batch := s.batch.modify i TileTask.release }

def run (compute : Tile → Attempt TileError α) (s : Dispatch α) (moves : List Move) : Dispatch α :=
  moves.foldl (step compute) s

@[simp] theorem run_nil (compute : Tile → Attempt TileError α) (s : Dispatch α) :
    s.run compute [] = s := rfl

@[simp] theorem run_cons (compute : Tile → Attempt TileError α) (s : Dispatch α) (m : Move)
    (moves : List Move) : s.run compute (m :: moves) = (s.step compute m).run compute moves := rfl

theorem run_append (compute : Tile → Attempt TileError α) (s : Dispatch α) (left right : List Move) :
    s.run compute (left ++ right) = (s.run compute left).run compute right :=
  List.foldl_append

/-- What every move keeps, every run keeps. -/
theorem run_induction {compute : Tile → Attempt TileError α} {Keeps : Dispatch α → Prop}
    (hstep : ∀ s m, Keeps s → Keeps (s.step compute m)) {s : Dispatch α} (hs : Keeps s)
    (moves : List Move) : Keeps (s.run compute moves) := by
  induction moves generalizing s with
  | nil => exact hs
  | cons m moves ih => exact ih (hstep s m hs)

end Dispatch

/-! ### What a move can change -/

/-- One step of a task and of the tracker it tells. -/
inductive TileTask.Advance (compute : Tile → Attempt TileError α) (cancelled : Bool) :
    TileTask α → Tracker → TileTask α → Tracker → Prop
  | begin {task : TileTask α} {t : Tracker} (hphase : task.phase = .queued)
      (htoken : cancelled = false) :
      Advance compute cancelled task t (task.enter .computing) t
  | skip {task : TileTask α} {t : Tracker} (hphase : task.phase = .queued)
      (htoken : cancelled = true) :
      Advance compute cancelled task t (task.close .skipped task.channel) t
  | finish {task : TileTask α} {t : Tracker} (hphase : task.phase = .computing) :
      Advance compute cancelled task t (task.enter (.computed (compute task.tile).outcome)) t
  | count {task : TileTask α} {t : Tracker} {r : Except TileError α}
      (hphase : task.phase = .computed r) :
      Advance compute cancelled task t (task.enter (.counted r t.count.1)) t.count.2
  | report {task : TileTask α} {t : Tracker} {r : Except TileError α} {n : Nat}
      (hphase : task.phase = .counted r n) (breaksOff : Bool) :
      Advance compute cancelled task t (task.enter (.reported r)) (t.report n breaksOff)
  | send {task : TileTask α} {t : Tracker} {r : Except TileError α}
      {c : Channel (Except TileError α)} (hphase : task.phase = .reported r)
      (hsend : task.channel.send? r = some c) :
      Advance compute cancelled task t (task.close (.sent r) c) t

theorem TileTask.Advance.tile_eq {compute : Tile → Attempt TileError α} {cancelled : Bool}
    {task new : TileTask α} {t u : Tracker} (h : Advance compute cancelled task t new u) :
    new.tile = task.tile := by
  cases h <;> rfl

inductive Collector.Turn (b : Batch α) (interrupted cancelled : Bool) (c : Collector α) :
    Collector α → Prop
  | begin (hstage : c.stage = .before) (hleft : c.results.size < b.size) :
      Turn b interrupted cancelled c { c with stage := .engineCheck .await }
  | finish (hstage : c.stage = .before) (hleft : ¬ c.results.size < b.size) :
      Turn b interrupted cancelled c { c with stage := .complete }
  | interrupt {p : Purpose} (hstage : c.stage = .engineCheck p) (htoken : interrupted = true) :
      Turn b interrupted cancelled c { c with stage := .stopped .interrupted }
  | pass {p : Purpose} (hstage : c.stage = .engineCheck p) (htoken : interrupted = false) :
      Turn b interrupted cancelled c { c with stage := .jobCheck p }
  | cancel {p : Purpose} (hstage : c.stage = .jobCheck p) (htoken : cancelled = true) :
      Turn b interrupted cancelled c { c with stage := .stopped .cancelled }
  | await (hstage : c.stage = .jobCheck .await) (htoken : cancelled = false) :
      Turn b interrupted cancelled c { c with stage := .waiting }
  | giveUp (hstage : c.stage = .jobCheck .giveUp) (htoken : cancelled = false) :
      Turn b interrupted cancelled c (c.receive (b.tile c.results.size) (.error .lost))
  | advance (hstage : c.stage = .jobCheck .advance) (htoken : cancelled = false) :
      Turn b interrupted cancelled c { c with stage := .before }
  | take {r : Except TileError α} (hstage : c.stage = .waiting)
      (hreception : b.reception c.results.size = .message r) :
      Turn b interrupted cancelled c (c.receive (b.tile c.results.size) r)
  | look (hstage : c.stage = .waiting) (hreception : b.reception c.results.size = .nothing) :
      Turn b interrupted cancelled c { c with stage := .engineCheck .await }
  | lose (hstage : c.stage = .waiting) (hreception : b.reception c.results.size = .disconnected) :
      Turn b interrupted cancelled c { c with stage := .engineCheck .giveUp }
  | rest (hover : c.stage.isOver = true) : Turn b interrupted cancelled c c

theorem Collector.step_turn (b : Batch α) (interrupted cancelled : Bool) (c : Collector α) :
    c.Turn b interrupted cancelled (c.step b interrupted cancelled) := by
  cases hstage : c.stage with
  | before =>
    simp only [step, hstage]
    split
    · exact .begin hstage ‹_›
    · exact .finish hstage ‹_›
  | engineCheck p =>
    cases interrupted with
    | true => simpa [step, hstage] using Turn.interrupt hstage rfl
    | false => simpa [step, hstage] using Turn.pass hstage rfl
  | jobCheck p =>
    cases cancelled with
    | true => simpa [step, hstage] using Turn.cancel hstage rfl
    | false =>
      cases p with
      | await => simpa [step, hstage, proceed] using Turn.await hstage rfl
      | giveUp => simpa [step, hstage, proceed] using Turn.giveUp hstage rfl
      | advance => simpa [step, hstage, proceed] using Turn.advance hstage rfl
  | waiting =>
    cases hreception : b.reception c.results.size with
    | message r => simpa [step, hstage, hreception] using Turn.take hstage hreception
    | nothing => simpa [step, hstage, hreception] using Turn.look hstage hreception
    | disconnected => simpa [step, hstage, hreception] using Turn.lose hstage hreception
  | stopped e =>
    rw [show c.step b interrupted cancelled = c by simp [step, hstage]]
    exact .rest (by rw [hstage]; rfl)
  | complete =>
    rw [show c.step b interrupted cancelled = c by simp [step, hstage]]
    exact .rest (by rw [hstage]; rfl)

namespace Dispatch

variable {compute : Tile → Attempt TileError α} {s s' : Dispatch α}

def put (s : Dispatch α) (i : Nat) (task : TileTask α) (t : Tracker) : Dispatch α :=
  { s with
    batch := s.batch.put i task t
    entered := if task.phase.isComputing then i :: s.entered else s.entered }

/-- All that can change. -/
inductive Change (compute : Tile → Attempt TileError α) (s : Dispatch α) : Dispatch α → Prop
  | work {i : Nat} {task new : TileTask α} {t : Tracker} (htask : s.batch.tasks[i]? = some task)
      (hadvance : task.Advance compute s.cancelled s.batch.tracker new t) :
      Change compute s (s.put i new t)
  | cancel : Change compute s { s with cancelled := true }
  | interrupt : Change compute s { s with interrupted := true }
  | collect {c : Collector α} (hheld : s.abandoned = false)
      (hturn : s.collector.Turn s.batch s.interrupted s.cancelled c) :
      Change compute s { s with batch := s.collector.drain s.batch, collector := c }
  | abandon : Change compute s { s with abandoned := true }
  | release {i : Nat} {task : TileTask α} (hwatched : s.isWatched = false)
      (htask : s.batch.tasks[i]? = some task) :
      Change compute s { s with batch := s.batch.put i task.release s.batch.tracker }

private theorem check_cases (compute : Tile → Attempt TileError α) (s : Dispatch α) (i : Nat) :
    s.step compute (.check i) = s ∨ s.Change compute (s.step compute (.check i)) := by
  cases hphase : s.batch.phase i with
  | queued =>
    obtain ⟨task, htask, hqueued⟩ := Batch.exists_task_of_phase hphase (by simp)
    right
    cases htoken : s.cancelled with
    | false =>
      have hstep : s.step compute (.check i) = s.put i (task.enter .computing) s.batch.tracker := by
        simp [step, put, begins, Batch.check, hphase, htoken, Batch.modify_eq_put htask,
          TileTask.enter, Phase.isComputing]
      exact hstep ▸ .work htask (.begin hqueued htoken)
    | true =>
      have hstep : s.step compute (.check i)
          = s.put i (task.close .skipped task.channel) s.batch.tracker := by
        simp [step, put, begins, Batch.check, hphase, htoken, Batch.modify_eq_put htask,
          Batch.channel_of_task htask, TileTask.close, Phase.isComputing]
      exact hstep ▸ .work htask (.skip hqueued htoken)
  | _ => exact .inl (by simp [step, begins, Batch.check, hphase])

private theorem finish_cases (compute : Tile → Attempt TileError α) (s : Dispatch α) (i : Nat) :
    s.step compute (.finish i) = s ∨ s.Change compute (s.step compute (.finish i)) := by
  cases hphase : s.batch.phase i with
  | computing =>
    obtain ⟨task, htask, hcomputing⟩ := Batch.exists_task_of_phase hphase (by simp)
    have hstep : s.step compute (.finish i)
        = s.put i (task.enter (.computed (compute task.tile).outcome)) s.batch.tracker := by
      simp [step, put, Batch.finish, hphase, Batch.modify_eq_put htask, Batch.tile_of_task htask,
        TileTask.enter, Phase.isComputing]
    exact .inr (hstep ▸ .work htask (.finish hcomputing))
  | _ => exact .inl (by simp [step, Batch.finish, hphase])

private theorem count_cases (compute : Tile → Attempt TileError α) (s : Dispatch α) (i : Nat) :
    s.step compute (.count i) = s ∨ s.Change compute (s.step compute (.count i)) := by
  cases hphase : s.batch.phase i with
  | computed r =>
    obtain ⟨task, htask, hcomputed⟩ := Batch.exists_task_of_phase hphase (by simp)
    have hstep : s.step compute (.count i)
        = s.put i (task.enter (.counted r s.batch.tracker.count.1)) s.batch.tracker.count.2 := by
      simp [step, put, Batch.put, Batch.count, hphase, Batch.modify_eq_put htask, TileTask.enter,
        Phase.isComputing]
    exact .inr (hstep ▸ .work htask (.count hcomputed))
  | _ => exact .inl (by simp [step, Batch.count, hphase])

private theorem report_cases (compute : Tile → Attempt TileError α) (s : Dispatch α) (i : Nat)
    (breaksOff : Bool) :
    s.step compute (.report i breaksOff) = s ∨
      s.Change compute (s.step compute (.report i breaksOff)) := by
  cases hphase : s.batch.phase i with
  | counted r n =>
    obtain ⟨task, htask, hcounted⟩ := Batch.exists_task_of_phase hphase (by simp)
    have hstep : s.step compute (.report i breaksOff)
        = s.put i (task.enter (.reported r)) (s.batch.tracker.report n breaksOff) := by
      simp [step, put, Batch.put, Batch.report, hphase, Batch.modify_eq_put htask, TileTask.enter,
        Phase.isComputing]
    exact .inr (hstep ▸ .work htask (.report hcounted breaksOff))
  | _ => exact .inl (by simp [step, Batch.report, hphase])

private theorem send_cases (compute : Tile → Attempt TileError α) (s : Dispatch α) (i : Nat) :
    s.step compute (.send i) = s ∨ s.Change compute (s.step compute (.send i)) := by
  cases hphase : s.batch.phase i with
  | reported r =>
    obtain ⟨task, htask, hreported⟩ := Batch.exists_task_of_phase hphase (by simp)
    cases hsend : task.channel.send? r with
    | none => exact .inl (by simp [step, Batch.send, hphase, Batch.channel_of_task htask, hsend])
    | some c =>
      have hstep : s.step compute (.send i) = s.put i (task.close (.sent r) c) s.batch.tracker := by
        simp [step, put, Batch.send, hphase, Batch.channel_of_task htask, hsend,
          Batch.modify_eq_put htask, TileTask.close, Phase.isComputing]
      exact .inr (hstep ▸ .work htask (.send hreported hsend))
  | _ => exact .inl (by simp [step, Batch.send, hphase])

theorem step_cases (compute : Tile → Attempt TileError α) (s : Dispatch α) (m : Move) :
    s.step compute m = s ∨ s.Change compute (s.step compute m) := by
  cases m with
  | check i => exact check_cases compute s i
  | finish i => exact finish_cases compute s i
  | count i => exact count_cases compute s i
  | report i breaksOff => exact report_cases compute s i breaksOff
  | send i => exact send_cases compute s i
  | cancel => exact .inr .cancel
  | interrupt => exact .inr .interrupt
  | collect =>
    cases hheld : s.abandoned with
    | true => exact .inl (by simp [step, hheld])
    | false =>
      have hstep : s.step compute .collect = { s with
          batch := s.collector.drain s.batch
          collector := s.collector.step s.batch s.interrupted s.cancelled } := by
        simp [step, hheld]
      exact .inr (hstep ▸ .collect hheld (s.collector.step_turn ..))
  | abandon => exact .inr .abandon
  | release i =>
    cases hwatched : s.isWatched with
    | true => exact .inl (by simp [step, hwatched])
    | false =>
      cases htask : s.batch.tasks[i]? with
      | none => exact .inl (by simp [step, hwatched, Batch.modify_of_none htask])
      | some task =>
        have hstep : s.step compute (.release i) = { s with
            batch := s.batch.put i task.release s.batch.tracker } := by
          simp [step, hwatched, Batch.modify_eq_put htask]
        exact .inr (hstep ▸ .release hwatched htask)

/-- What every change keeps, every run keeps. -/
theorem run_keeps (Keeps : Dispatch α → Prop)
    (hchange : ∀ s s' : Dispatch α, s.Change compute s' → Keeps s → Keeps s') (hs : Keeps s)
    (moves : List Move) : Keeps (s.run compute moves) := by
  refine run_induction (fun s m hkeeps => ?_) hs moves
  rcases step_cases compute s m with hsame | hchanged
  · rwa [hsame]
  · exact hchange s _ hchanged hkeeps

end Dispatch

end WorldMap
