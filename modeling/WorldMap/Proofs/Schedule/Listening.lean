import WorldMap.Proofs.Schedule.Delivery
/-!
# Listeners that take their time

A `Dispatch` tells the listener in one step. In a `Listening` the call takes its time: between its
beginning and its end the listener fires tokens, one by one, while the collector and the other tasks go
on. Only two things have to wait. The task whose worker is in the call sends after it, and another task
that comes to report finds the lock on the last report held until the call is over. A listener ends a
call by returning or by breaking off. A breakdown goes no further than the call: it is noted, and then
the lock is let go of and the worker goes on with its count, as it does after a call that returned.

Nobody looks at what was noted. So to forget all breakdowns, of the past (`Tracker.quiet`) and to come
(`Script.calm`), changes nothing else of a run, whatever the schedule is (`Listening.quiet_run`).
-/

namespace WorldMap

variable {α : Type} {compute : Tile → Attempt TileError α}

/-! ### Breakdowns that are forgotten -/

namespace Tracker

/-- Takes down how the call with the count `n` ended. -/
def note (t : Tracker) (n : Nat) (breaksOff : Bool) : Tracker :=
  if breaksOff then { t with breakdowns := t.breakdowns.push n } else t

def quiet (t : Tracker) : Tracker := { t with breakdowns := #[] }

theorem quiet_note (t : Tracker) (n : Nat) (breaksOff : Bool) : (t.note n breaksOff).quiet = t.quiet := by
  cases breaksOff <;> rfl

theorem quiet_report (t : Tracker) (n : Nat) (breaksOff : Bool) :
    (t.report n breaksOff).quiet = t.quiet.report n false := by
  unfold report
  change _ = if t.isNews n then _ else _
  split <;> rfl

end Tracker

namespace Batch

def quiet (b : Batch α) : Batch α := { b with tracker := b.tracker.quiet }

variable {b : Batch α}

@[simp] theorem phase_quiet (b : Batch α) (i : Nat) : b.quiet.phase i = b.phase i := rfl

@[simp] theorem channel_quiet (b : Batch α) (i : Nat) : b.quiet.channel i = b.channel i := rfl

theorem quiet_check (i : Nat) (cancelled : Bool) :
    (b.check i cancelled).quiet = b.quiet.check i cancelled := by
  simp only [check, phase_quiet, channel_quiet]
  cases b.phase i <;> rfl

theorem quiet_finish (i : Nat) (a : Attempt TileError α) :
    (b.finish i a).quiet = b.quiet.finish i a := by
  simp only [finish, phase_quiet]
  cases b.phase i <;> rfl

theorem quiet_count (i : Nat) : (b.count i).quiet = b.quiet.count i := by
  simp only [count, phase_quiet]
  cases b.phase i <;> rfl

theorem quiet_report (i : Nat) (breaksOff : Bool) :
    (b.report i breaksOff).quiet = b.quiet.report i false := by
  simp only [report, phase_quiet]
  cases b.phase i with
  | counted r n =>
    exact congrArg (Batch.mk (b.modify i (TileTask.enter (.reported r))).tasks)
      (b.tracker.quiet_report n breaksOff)
  | _ => rfl

theorem quiet_send (i : Nat) : (b.send i).quiet = b.quiet.send i := by
  simp only [send, phase_quiet, channel_quiet]
  cases b.phase i with
  | reported r =>
    dsimp only
    cases (b.channel i).send? r <;> rfl
  | _ => rfl

end Batch

theorem Collector.quiet_drain (c : Collector α) (b : Batch α) :
    (c.drain b).quiet = c.drain b.quiet := by
  unfold drain
  split <;> rfl

/-- The move with a listener that does not break off. -/
def Move.quiet : Move → Move
  | .report i _ => .report i false
  | m => m

namespace Dispatch

def note (s : Dispatch α) (n : Nat) (breaksOff : Bool) : Dispatch α :=
  { s with batch := { s.batch with tracker := s.batch.tracker.note n breaksOff } }

def quiet (s : Dispatch α) : Dispatch α := { s with batch := s.batch.quiet }

variable {s : Dispatch α}

theorem quiet_note (n : Nat) (breaksOff : Bool) : (s.note n breaksOff).quiet = s.quiet := by
  simp only [quiet, note, Batch.quiet, Tracker.quiet_note]

/-- No move looks at the breakdowns. -/
theorem quiet_step (compute : Tile → Attempt TileError α) (s : Dispatch α) (m : Move) :
    (s.step compute m).quiet = s.quiet.step compute m.quiet := by
  have hbatch : ∀ {b b' : Batch α}, b = b' → { s with batch := b } = { s with batch := b' } :=
    fun h => congrArg (fun b => { s with batch := b }) h
  cases m with
  | check i =>
    exact congrArg (fun b => { s with
      batch := b
      entered := if s.begins i then i :: s.entered else s.entered }) (Batch.quiet_check i _)
  | finish i => exact hbatch (Batch.quiet_finish i _)
  | count i => exact hbatch (Batch.quiet_count i)
  | report i breaksOff => exact hbatch (Batch.quiet_report i breaksOff)
  | send i => exact hbatch (Batch.quiet_send i)
  | cancel => rfl
  | interrupt => rfl
  | collect =>
    have hheld : s.quiet.abandoned = s.abandoned := rfl
    cases habandoned : s.abandoned with
    | true => simp [step, Move.quiet, hheld, habandoned]
    | false =>
      simp only [step, Move.quiet, hheld, habandoned]
      exact congrArg (fun b => { s with
        batch := b
        collector := s.collector.step s.batch s.interrupted s.cancelled
        abandoned := false }) (s.collector.quiet_drain s.batch)
  | abandon => rfl
  | release i =>
    have hwatched : s.quiet.isWatched = s.isWatched := rfl
    simp only [step, Move.quiet, hwatched]
    cases s.isWatched <;> rfl

end Dispatch

/-! ### Listeners -/

/-- A token that a listener may fire: that of the job, or that of the engine. -/
inductive Signal
  | cancel
  | interrupt
  deriving DecidableEq

def Signal.move : Signal → Move
  | cancel => .cancel
  | interrupt => .interrupt

/-- What a listener does in a call: the tokens that it fires, in this order, and whether it breaks off
in the end. -/
structure Response where
  signals : List Signal
  breaksOff : Bool

def Response.quiet (r : Response) : Response := { r with breaksOff := false }

/-- What a listener does in each call, by the number of the call and the count. -/
abbrev Script := Nat → Nat → Response

/-- The listener that fires the same tokens in the same calls, and always returns. -/
def Script.calm (script : Script) : Script := fun k n => (script k n).quiet

/-! ### Calls that take their time -/

/-- The call that the worker of the task at `place` is in, with the count `count`, and what the
listener has still to do. -/
structure OpenCall where
  place : Nat
  count : Nat
  rest : Response

def OpenCall.quiet (c : OpenCall) : OpenCall := { c with rest := c.rest.quiet }

/-- `call` is the call under way, for as long as the lock on the last report is held. `returned` are
the places of the tasks whose reports are over, in their order, each with the count that was returned. -/
structure Listening (α : Type) where
  job : Dispatch α
  call : Option OpenCall
  returned : List (Nat × Nat)

/-- What can happen: a move of the job that is not a report, the beginning of the report of a task,
or the next thing that the listener does. -/
inductive Beat
  | act (m : Move)
  | report (i : Nat)
  | listen

namespace Listening

def start (g : Grid) (listened : Bool) : Listening α := ⟨.start g listened, none, []⟩

/-- Whether the worker of the task at place `i` is in the call. -/
def isBusy (h : Listening α) (i : Nat) : Bool := h.call.any (·.place == i)

/-- A worker that is in the call does not send. A report is not made by a move. -/
def act (compute : Tile → Attempt TileError α) (h : Listening α) : Move → Listening α
  | .report _ _ => h
  | .send i => if h.isBusy i then h else { h with job := h.job.step compute (.send i) }
  | m => { h with job := h.job.step compute m }

/-- A count that is news begins a call, and one that is not is returned at once. While the lock is
held there is nothing to do but to wait. -/
def report (compute : Tile → Attempt TileError α) (script : Script) (h : Listening α) (i : Nat) :
    Listening α :=
  match h.call, h.job.batch.phase i with
  | none, .counted _ n =>
    let job := h.job.step compute (.report i false)
    if h.job.batch.tracker.isNews n then
      { h with job, call := some ⟨i, n, script h.job.batch.tracker.nextCall n⟩ }
    else { h with job, returned := h.returned ++ [(i, n)] }
  | _, _ => h

/-- The listener fires its next token, or else comes to the end of the call. -/
def listen (compute : Tile → Attempt TileError α) (h : Listening α) : Listening α :=
  match h.call with
  | none => h
  | some ⟨i, n, ⟨signal :: signals, breaksOff⟩⟩ =>
    { h with job := h.job.step compute signal.move, call := some ⟨i, n, ⟨signals, breaksOff⟩⟩ }
  | some ⟨i, n, ⟨[], breaksOff⟩⟩ =>
    { job := h.job.note n breaksOff, call := none, returned := h.returned ++ [(i, n)] }

def step (compute : Tile → Attempt TileError α) (script : Script) (h : Listening α) :
    Beat → Listening α
  | .act m => h.act compute m
  | .report i => h.report compute script i
  | .listen => h.listen compute

def run (compute : Tile → Attempt TileError α) (script : Script) (h : Listening α)
    (beats : List Beat) : Listening α :=
  beats.foldl (step compute script) h

variable {script : Script} {h : Listening α}

@[simp] theorem run_nil : h.run compute script [] = h := rfl

@[simp] theorem run_cons (b : Beat) (beats : List Beat) :
    h.run compute script (b :: beats) = (h.step compute script b).run compute script beats :=
  rfl

/-- What every beat keeps, every run keeps. -/
theorem run_induction {Keeps : Listening α → Prop}
    (hstep : ∀ h b, Keeps h → Keeps (h.step compute script b)) (hh : Keeps h)
    (beats : List Beat) : Keeps (h.run compute script beats) := by
  induction beats generalizing h with
  | nil => exact hh
  | cons b beats ih => exact ih (hstep h b hh)

/-! ### Two runs -/

/-- The job without the breakdowns, those of the past and the one that the call may end with. -/
def quiet (h : Listening α) : Listening α := ⟨h.job.quiet, h.call.map OpenCall.quiet, h.returned⟩

theorem quiet_start (g : Grid) (listened : Bool) :
    (start g listened : Listening α).quiet = start g listened := rfl

theorem isBusy_quiet (i : Nat) : h.quiet.isBusy i = h.isBusy i := by
  obtain ⟨job, call, returned⟩ := h
  cases call <;> rfl

theorem quiet_act (m : Move) : (h.act compute m).quiet = h.quiet.act compute m := by
  have hmove : ∀ m : Move, m.quiet = m →
      quiet { h with job := h.job.step compute m }
        = { h.quiet with job := h.quiet.job.step compute m } := by
    intro m hm
    have hstep := h.job.quiet_step compute m
    rw [hm] at hstep
    exact congrArg (fun job => Listening.mk job (h.call.map OpenCall.quiet) h.returned) hstep
  cases m with
  | report i breaksOff => rfl
  | send i =>
    simp only [act, isBusy_quiet]
    cases h.isBusy i with
    | true => rfl
    | false => exact hmove (.send i) rfl
  | _ => exact hmove _ rfl

theorem quiet_report (i : Nat) :
    (h.report compute script i).quiet = h.quiet.report compute script.calm i := by
  have hphase : h.quiet.job.batch.phase i = h.job.batch.phase i := rfl
  have hstep := h.job.quiet_step compute (.report i false)
  cases hcall : h.call with
  | some c => simp [report, quiet, hcall]
  | none =>
    have hquiet : h.quiet.call = none := by rw [quiet, hcall]; rfl
    simp only [report, hcall, hquiet, hphase]
    cases h.job.batch.phase i with
    | counted r n =>
      have hnews : h.quiet.job.batch.tracker.isNews n = h.job.batch.tracker.isNews n := rfl
      dsimp only
      rw [hnews]
      cases h.job.batch.tracker.isNews n with
      | true => exact congrArg (fun job => Listening.mk job _ h.returned) hstep
      | false =>
        exact congrArg (fun job => Listening.mk job none (h.returned ++ [(i, n)])) hstep
    | _ => simp [quiet, hcall]

theorem quiet_listen : (h.listen compute).quiet = h.quiet.listen compute := by
  obtain ⟨job, call, returned⟩ := h
  match call with
  | none => rfl
  | some ⟨i, n, ⟨signal :: signals, breaksOff⟩⟩ =>
    have hstep : (job.step compute signal.move).quiet = job.quiet.step compute signal.move := by
      rw [Dispatch.quiet_step]
      cases signal <;> rfl
    exact congrArg (fun job => Listening.mk job (some ⟨i, n, ⟨signals, false⟩⟩) returned) hstep
  | some ⟨i, n, ⟨[], breaksOff⟩⟩ =>
    have hnote : (job.note n breaksOff).quiet = job.quiet.note n false := Dispatch.quiet_note n breaksOff
    exact congrArg (fun job => Listening.mk job none (returned ++ [(i, n)])) hnote

/-- Whether a listener breaks off makes no difference to what a beat does. -/
theorem quiet_step (b : Beat) :
    (h.step compute script b).quiet = h.quiet.step compute script.calm b := by
  cases b with
  | act m => exact quiet_act m
  | report i => exact quiet_report i
  | listen => exact quiet_listen

/-- To forget all breakdowns is to run with the listener that always returns. -/
theorem quiet_run (beats : List Beat) :
    (h.run compute script beats).quiet = h.quiet.run compute script.calm beats := by
  induction beats generalizing h with
  | nil => rfl
  | cons b beats ih => rw [run_cons, run_cons, ih, quiet_step]

theorem run_calm (g : Grid) (listened : Bool) (beats : List Beat) :
    (start g listened).run compute script.calm beats
      = ((start g listened).run compute script beats).quiet := by
  rw [quiet_run, quiet_start]

/-! ### The course of a call -/

/-- All that can happen in a beat. -/
inductive Happens (compute : Tile → Attempt TileError α) (script : Script) (h : Listening α) :
    Listening α → Prop
  | act {m : Move} (hmove : ∀ i breaksOff, m ≠ .report i breaksOff)
      (hfree : ∀ i, m = .send i → h.isBusy i = false) :
      Happens compute script h { h with job := h.job.step compute m }
  | begin {i n : Nat} {r : Except TileError α} (hcall : h.call = none)
      (hphase : h.job.batch.phase i = .counted r n) (hnews : h.job.batch.tracker.isNews n = true) :
      Happens compute script h
        ⟨h.job.step compute (.report i false),
          some ⟨i, n, script h.job.batch.tracker.nextCall n⟩, h.returned⟩
  | overtaken {i n : Nat} {r : Except TileError α} (hcall : h.call = none)
      (hphase : h.job.batch.phase i = .counted r n) (hnews : h.job.batch.tracker.isNews n = false) :
      Happens compute script h
        ⟨h.job.step compute (.report i false), none, h.returned ++ [(i, n)]⟩
  | fire {i n : Nat} {signal : Signal} {signals : List Signal} {breaksOff : Bool}
      (hcall : h.call = some ⟨i, n, ⟨signal :: signals, breaksOff⟩⟩) :
      Happens compute script h
        ⟨h.job.step compute signal.move, some ⟨i, n, ⟨signals, breaksOff⟩⟩, h.returned⟩
  | finish {i n : Nat} {breaksOff : Bool}
      (hcall : h.call = some ⟨i, n, ⟨[], breaksOff⟩⟩) :
      Happens compute script h ⟨h.job.note n breaksOff, none, h.returned ++ [(i, n)]⟩

private theorem act_cases (m : Move) :
    h.act compute m = h ∨ Happens compute script h (h.act compute m) := by
  cases m with
  | report i breaksOff => exact .inl rfl
  | send i =>
    simp only [act]
    cases hfree : h.isBusy i with
    | true => exact .inl rfl
    | false =>
      refine .inr (.act nofun fun j hj => ?_)
      obtain rfl := Move.send.inj hj
      exact hfree
  | _ => exact .inr (.act nofun nofun)

private theorem report_cases (i : Nat) :
    h.report compute script i = h ∨ Happens compute script h (h.report compute script i) := by
  obtain ⟨job, call, returned⟩ := h
  cases call with
  | some c => exact .inl rfl
  | none =>
    cases hphase : job.batch.phase i with
    | counted r n =>
      right
      cases hnews : job.batch.tracker.isNews n with
      | true => simpa [report, hphase, hnews] using Happens.begin rfl hphase hnews
      | false => simpa [report, hphase, hnews] using Happens.overtaken rfl hphase hnews
    | _ => exact .inl (by simp [report, hphase])

private theorem listen_cases :
    h.listen compute = h ∨ Happens compute script h (h.listen compute) := by
  obtain ⟨job, call, returned⟩ := h
  match call with
  | none => exact .inl rfl
  | some ⟨i, n, ⟨signal :: signals, breaksOff⟩⟩ => exact .inr (.fire rfl)
  | some ⟨i, n, ⟨[], breaksOff⟩⟩ => exact .inr (.finish rfl)

theorem step_cases (compute : Tile → Attempt TileError α) (script : Script) (h : Listening α)
    (b : Beat) :
    h.step compute script b = h ∨ Happens compute script h (h.step compute script b) := by
  cases b with
  | act m => exact act_cases m
  | report i => exact report_cases i
  | listen => exact listen_cases

/-- What all that can happen keeps, every run keeps. -/
theorem run_keeps (Keeps : Listening α → Prop)
    (hhappens : ∀ h h' : Listening α, Happens compute script h h' → Keeps h → Keeps h')
    (hh : Keeps h) (beats : List Beat) : Keeps (h.run compute script beats) := by
  refine run_induction (fun h b hkeeps => ?_) hh beats
  rcases step_cases compute script h b with hsame | hnew
  · rwa [hsame]
  · exact hhappens h _ hnew hkeeps

/-- But for what was noted of breakdowns, the job is one that takes each report in a single step. -/
theorem exists_moves (compute : Tile → Attempt TileError α) (script : Script) (g : Grid)
    (listened : Bool) (beats : List Beat) :
    ∃ moves, ((start g listened).run compute script beats).job.quiet
      = (Dispatch.start g listened).run compute moves := by
  refine run_keeps (fun h : Listening α =>
    ∃ moves, h.job.quiet = (Dispatch.start g listened).run compute moves) ?_ ⟨[], rfl⟩ beats
  rintro h h' hhappens ⟨moves, hmoves⟩
  have hstep : ∀ m, ∃ moves,
      (h.job.step compute m).quiet = (Dispatch.start g listened).run compute moves := by
    intro m
    refine ⟨moves ++ [m.quiet], ?_⟩
    rw [Dispatch.quiet_step, hmoves, Dispatch.run_append]
    rfl
  cases hhappens with
  | finish hcall => exact ⟨moves, (Dispatch.quiet_note _ _).trans hmoves⟩
  | _ => exact hstep _

end Listening

end WorldMap
