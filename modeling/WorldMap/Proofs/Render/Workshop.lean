import WorldMap.Proofs.Schedule.Dispatch
import WorldMap.Render.Engine
/-!
# An engine and its calls

A `Workshop` is an engine at work: what its calls share, and where each of them stands. Callers
begin calls, fire tokens and close the engine when they like; a call goes through its gates, is
counted, prepares the source, waits for its tiles and leaves, one step at a time; and its tasks and
its collector make the moves of a `Dispatch`, also after the call has given up on them. Everything
that can happen is an `Act`, and a run is any list of acts, so a theorem about all runs covers any
number of callers and workers, and every order in which they come to act. What a listener or a
computation does to a token or to the engine is an act of its own, between two steps of its task.

A tile is computed at most once in a call, so `compute`, which is told the call and the tile, stands
for sources and layers that answer every call differently as well as for those that do not.

The rest of the development reaches the acts through `Workshop.step_cases`: an act is a `Turn` of
one call, begins a call, or is done to the engine from outside.
-/

namespace WorldMap

namespace Lifecycle

/-- Entering counts the render first, and then notes that there was one. -/
def raise (l : Lifecycle) : Lifecycle := { l with active := l.active + 1 }

def mark (l : Lifecycle) : Lifecycle := { l with hasRendered := true }

end Lifecycle

/-- What the calls on an engine share. -/
structure Shared where
  life : Lifecycle
  tokens : Tokens
  prepared : Nat

/-- What a session hands on to the calls that follow it. -/
def Session.shared (s : Session) : Shared := ⟨s.life, s.tokens, s.prepared⟩

/-- The tiles of a call, and the view that they will be drawn in. -/
structure Pending where
  view : Viewport
  dispatch : Dispatch Pixmap

/-- Where a call stands. A call for a new image passes the gate once more than a call for an image
of its caller's. The tiles that a call has ordered may be under way still when it has its result. -/
inductive Station
  | atGate (again : Bool)
  | admitted
  | raised
  | entered
  | collecting (p : Pending)
  | leaving (result : Attempt RenderError Unit) (rest : Option Pending)
  | returned (result : Attempt RenderError Unit) (rest : Option Pending)

namespace Station

def pending? : Station → Option Pending
  | .collecting p => some p
  | .leaving _ rest => rest
  | .returned _ rest => rest
  | _ => none

def setPending (p : Pending) : Station → Station
  | .collecting _ => .collecting p
  | .leaving result _ => .leaving result (some p)
  | .returned result _ => .returned result (some p)
  | station => station

def result? : Station → Option (Attempt RenderError Unit)
  | .leaving result _ => some result
  | .returned result _ => some result
  | _ => none

/-- Whether the call is counted as an active render. -/
def isActive : Station → Bool
  | .raised => true
  | .entered => true
  | .collecting _ => true
  | .leaving _ _ => true
  | _ => false

/-- Whether the call has passed its gates and has no result yet. -/
def isInside : Station → Bool
  | .admitted => true
  | .raised => true
  | .entered => true
  | .collecting _ => true
  | _ => false

variable {st : Station} {p : Pending}

theorem pending?_setPending (h : st.pending?.isSome = true) (p : Pending) :
    (st.setPending p).pending? = some p := by
  cases st <;> simp_all [pending?, setPending]

@[simp] theorem result?_setPending (st : Station) (p : Pending) :
    (st.setPending p).result? = st.result? := by
  cases st <;> rfl

@[simp] theorem isActive_setPending (st : Station) (p : Pending) :
    (st.setPending p).isActive = st.isActive := by
  cases st <;> rfl

@[simp] theorem isInside_setPending (st : Station) (p : Pending) :
    (st.setPending p).isInside = st.isInside := by
  cases st <;> rfl

end Station

/-- One call: its job, its target as it was and as it is, and where the call stands. -/
structure Rendering where
  job : Job
  original : Image
  target : Image
  station : Station

/-- Whether the move is one of a task or of the collector. The tokens of a job are the engine's to
fire, and no call drops its tiles before it has collected them or has stopped. -/
def Move.isOwn : Move → Bool
  | .cancel => false
  | .interrupt => false
  | .abandon => false
  | _ => true

/-- The tokens as they stand are those that a move looks at. -/
def Dispatch.under {α : Type} (interrupted cancelled : Bool) (d : Dispatch α) : Dispatch α :=
  { d with interrupted, cancelled }

def Pending.step (compute : Tile → Attempt TileError Pixmap) (s : Shared) (job : Job) (m : Move)
    (p : Pending) : Pending :=
  { p with
    dispatch := (p.dispatch.under s.life.interrupted (s.tokens.isFired job.token)).step compute m }

namespace Rendering

def enter (r : Rendering) (station : Station) : Rendering := { r with station }

/-- A call for a new image. -/
def ofRender (job : Job) : Rendering :=
  let target := Raster.replicate job.width.toNat job.height.toNat Color.transparent
  ⟨job, target, target, .atGate true⟩

def ofRenderInto (job : Job) (target : Image) : Rendering := ⟨job, target, target, .atGate false⟩

def isActive (r : Rendering) : Bool := r.station.isActive

def work (compute : Tile → Attempt TileError Pixmap) (s : Shared) (m : Move) (r : Rendering) :
    Rendering :=
  match r.station.pending? with
  | none => r
  | some p => if m.isOwn then r.enter (r.station.setPending (p.step compute s r.job m)) else r

end Rendering

namespace Engine

variable {σ : Type}

/-- The computation of a tile asks the source once, for the volume of the tile. -/
theorem askTile_eq (e : Engine σ) (t : Tile) :
    e.askTile t = ⟨e.computeTile t, [t.volume e.layout]⟩ := rfl

/-- What the source answers is drawn by the layers. -/
theorem computeTile_eq (e : Engine σ) (t : Tile) : e.computeTile t = (do
    let sample ← (e.source.query (t.volume e.layout)).mapFailure TileError.source
    e.rasterizer.rasterize sample) := rfl

/-- The view of a job and the grid of its tiles, if there is room for a task for each of them. -/
def order (e : Engine σ) (job : Job) : Checked (Viewport × Grid) := do
  let (view, _, grid) ← e.plan job
  Batch.room grid
  return (view, grid)

theorem order_of_plan {e : Engine σ} {job : Job} {view : Viewport} {area : Area} {grid : Grid}
    (h : e.plan job = .ok (view, area, grid)) :
    e.order job = (Batch.room grid).map fun _ => (view, grid) := by
  rw [order, h]
  change (Batch.room grid >>= fun _ => pure (view, grid)) = _
  cases Batch.room grid <;> rfl

theorem order_of_plan_error {e : Engine σ} {job : Job} {f : Fault} (h : e.plan job = .error f) :
    e.order job = .error f := by
  rw [order, h]
  rfl

/-- Where a call comes to stand by the `n`-th preparation of the source. -/
def opening (e : Engine σ) (job : Job) (n : Nat) : Station :=
  match (e.source.prepare n).mapFailure RenderError.source with
  | .error f => .leaving (.error f) none
  | .ok () =>
    match e.order job with
    | .error f => .leaving (.error (.broke (.ofFault f))) none
    | .ok (view, grid) => .collecting ⟨view, Dispatch.start grid job.listener.isSome⟩

/-- What becomes of a call when its collection is over. The target is written here and nowhere else.
-/
def settle (e : Engine σ) (r : Rendering) (p : Pending)
    (answer : Except ScheduleError (List (TileResult Pixmap) × Stats)) : Rendering :=
  match answer with
  | .error reason => r.enter (.leaving (.error (.error (.ofSchedule reason))) (some p))
  | .ok (tiles, _) =>
    match e.compositor.composite r.target p.view tiles with
    | .error f => r.enter (.leaving (.error (.broke (.ofFault f))) (some p))
    | .ok image => { r with target := image, station := .leaving (.ok ()) (some p) }

/-- The call's own next step. -/
def advance (e : Engine σ) (s : Shared) (r : Rendering) : Shared × Rendering :=
  match r.station with
  | .atGate again =>
    match gate s.life r.job r.target.width r.target.height with
    | .error f => (s, r.enter (.returned (.error (.error f)) none))
    | .ok () => (s, r.enter (if again then .atGate false else .admitted))
  | .admitted => ({ s with life := s.life.raise }, r.enter .raised)
  | .raised => ({ s with life := s.life.mark }, r.enter .entered)
  | .entered => ({ s with prepared := s.prepared + 1 }, r.enter (e.opening r.job (s.prepared + 1)))
  | .collecting p =>
    match p.dispatch.collector.answer? with
    | none => (s, r)
    | some answer => (s, e.settle r p answer)
  | .leaving result rest => ({ s with life := s.life.leave }, r.enter (.returned result rest))
  | .returned _ _ => (s, r)

end Engine

structure Workshop extends Shared where
  calls : List Rendering

/-- What can happen: a call begins, call `k` takes its next step, a move is made in call `k`, a
token is fired, or the engine is closed, which takes the pool away first and then fires the engine's
own token. -/
inductive Act
  | render (job : Job)
  | renderInto (job : Job) (target : Image)
  | advance (k : Nat)
  | work (k : Nat) (m : Move)
  | fire (t : Token)
  | takePool
  | interrupt

namespace Workshop

variable {σ : Type}

/-- An engine on which there has been whatever there has been, and on which no call is under way. -/
def of (s : Session) : Workshop := ⟨s.shared, []⟩

def begin (w : Workshop) (r : Rendering) : Workshop := { w with calls := w.calls ++ [r] }

def put (w : Workshop) (k : Nat) (s : Shared) (r : Rendering) : Workshop := ⟨s, w.calls.set k r⟩

/-- Tile `t` of call `k` comes to `compute k t`. -/
def step (e : Engine σ) (compute : Nat → Tile → Attempt TileError Pixmap) (w : Workshop) :
    Act → Workshop
  | .render job => w.begin (.ofRender job)
  | .renderInto job target => w.begin (.ofRenderInto job target)
  | .advance k =>
    match w.calls[k]? with
    | none => w
    | some r => w.put k (e.advance w.toShared r).1 (e.advance w.toShared r).2
  | .work k m =>
    match w.calls[k]? with
    | none => w
    | some r => w.put k w.toShared (r.work (compute k) w.toShared m)
  | .fire t => { w with tokens := w.tokens.fire t }
  | .takePool => { w with life := w.life.takePool }
  | .interrupt => if w.life.hasPool then w else { w with life := w.life.interrupt }

def run (e : Engine σ) (compute : Nat → Tile → Attempt TileError Pixmap) (w : Workshop)
    (acts : List Act) : Workshop :=
  acts.foldl (step e compute) w

section

variable (e : Engine σ) (compute : Nat → Tile → Attempt TileError Pixmap) (w : Workshop)

@[simp] theorem run_nil : w.run e compute [] = w := rfl

@[simp] theorem run_cons (a : Act) (acts : List Act) :
    w.run e compute (a :: acts) = (w.step e compute a).run e compute acts := rfl

theorem run_append (left right : List Act) :
    w.run e compute (left ++ right) = (w.run e compute left).run e compute right :=
  List.foldl_append

end

end Workshop

/-! ### Closing with nothing in between -/

/-- The acts of a closing that nothing comes between. On an engine that has no pool there are none. -/
def Lifecycle.closing (l : Lifecycle) : List Act :=
  if l.hasPool then [.takePool, .interrupt] else []

namespace Workshop

variable {σ : Type}

theorem run_closing (e : Engine σ) (compute : Nat → Tile → Attempt TileError Pixmap)
    (w : Workshop) : w.run e compute w.life.closing = { w with life := w.life.close } := by
  cases hpool : w.life.hasPool <;>
    simp [Lifecycle.closing, Lifecycle.close, hpool, step, Lifecycle.takePool]

end Workshop

namespace Engine

theorem shared_close (s : Session) :
    (close s).shared = { s.shared with life := s.life.close } := by
  cases hpool : s.life.hasPool <;>
    simp [close, Lifecycle.close, hpool, Session.shared, Session.note]

theorem state_close (s : Session) : (close s).life.state = .closed := by
  cases hpool : s.life.hasPool <;>
    simp [close, Lifecycle.close, hpool, Session.note, Lifecycle.state, Lifecycle.takePool,
      Lifecycle.interrupt]

end Engine

/-! ### What an act can change -/

/-- What one act does to a call and to what it shares with the others. -/
inductive Rendering.Turn {σ : Type} (e : Engine σ) (compute : Tile → Attempt TileError Pixmap)
    (s : Shared) (r : Rendering) : Shared → Rendering → Prop
  | refuse {again : Bool} {f : RenderError} (hstation : r.station = .atGate again)
      (hgate : Engine.gate s.life r.job r.target.width r.target.height = .error f) :
      Turn e compute s r s (r.enter (.returned (.error (.error f)) none))
  | pass (hstation : r.station = .atGate true)
      (hgate : Engine.gate s.life r.job r.target.width r.target.height = .ok ()) :
      Turn e compute s r s (r.enter (.atGate false))
  | welcome (hstation : r.station = .atGate false)
      (hgate : Engine.gate s.life r.job r.target.width r.target.height = .ok ()) :
      Turn e compute s r s (r.enter .admitted)
  | raise (hstation : r.station = .admitted) :
      Turn e compute s r { s with life := s.life.raise } (r.enter .raised)
  | mark (hstation : r.station = .raised) :
      Turn e compute s r { s with life := s.life.mark } (r.enter .entered)
  | unprepared {f : Failure SourceError} (hstation : r.station = .entered)
      (hprepare : e.source.prepare (s.prepared + 1) = .error f) :
      Turn e compute s r { s with prepared := s.prepared + 1 }
        (r.enter (.leaving (.error (f.map .source)) none))
  | crowded {f : Fault} (hstation : r.station = .entered)
      (hprepare : e.source.prepare (s.prepared + 1) = .ok ())
      (horder : e.order r.job = .error f) :
      Turn e compute s r { s with prepared := s.prepared + 1 }
        (r.enter (.leaving (.error (.broke (.ofFault f))) none))
  | scatter {view : Viewport} {grid : Grid} (hstation : r.station = .entered)
      (hprepare : e.source.prepare (s.prepared + 1) = .ok ())
      (horder : e.order r.job = .ok (view, grid)) :
      Turn e compute s r { s with prepared := s.prepared + 1 }
        (r.enter (.collecting ⟨view, Dispatch.start grid r.job.listener.isSome⟩))
  | work {p : Pending} {m : Move} (hpending : r.station.pending? = some p)
      (hown : m.isOwn = true) :
      Turn e compute s r s (r.enter (r.station.setPending (p.step compute s r.job m)))
  | stop {p : Pending} {reason : ScheduleError} (hstation : r.station = .collecting p)
      (hanswer : p.dispatch.collector.answer? = some (.error reason)) :
      Turn e compute s r s (r.enter (.leaving (.error (.error (.ofSchedule reason))) (some p)))
  | spoil {p : Pending} {tiles : List (TileResult Pixmap)} {stats : Stats} {f : Fault}
      (hstation : r.station = .collecting p)
      (hanswer : p.dispatch.collector.answer? = some (.ok (tiles, stats)))
      (hcomposite : e.compositor.composite r.target p.view tiles = .error f) :
      Turn e compute s r s (r.enter (.leaving (.error (.broke (.ofFault f))) (some p)))
  | compose {p : Pending} {tiles : List (TileResult Pixmap)} {stats : Stats} {image : Image}
      (hstation : r.station = .collecting p)
      (hanswer : p.dispatch.collector.answer? = some (.ok (tiles, stats)))
      (hcomposite : e.compositor.composite r.target p.view tiles = .ok image) :
      Turn e compute s r s { r with target := image, station := .leaving (.ok ()) (some p) }
  | leave {result : Attempt RenderError Unit} {rest : Option Pending}
      (hstation : r.station = .leaving result rest) :
      Turn e compute s r { s with life := s.life.leave } (r.enter (.returned result rest))

namespace Engine

variable {σ : Type} (e : Engine σ) (compute : Tile → Attempt TileError Pixmap) {s : Shared}
  {r : Rendering}

private theorem opening_cases (hstation : r.station = .entered) :
    r.Turn e compute s { s with prepared := s.prepared + 1 }
      (r.enter (e.opening r.job (s.prepared + 1))) := by
  unfold opening
  cases hprepare : e.source.prepare (s.prepared + 1) with
  | error f => exact .unprepared hstation hprepare
  | ok u =>
    cases horder : e.order r.job with
    | error f => exact .crowded hstation hprepare horder
    | ok ordered => exact .scatter hstation hprepare horder

private theorem settle_cases {p : Pending} (hstation : r.station = .collecting p)
    {answer : Except ScheduleError (List (TileResult Pixmap) × Stats)}
    (hanswer : p.dispatch.collector.answer? = some answer) :
    r.Turn e compute s s (e.settle r p answer) := by
  unfold settle
  split
  · exact .stop hstation hanswer
  · split
    · exact .spoil hstation hanswer ‹_›
    · exact .compose hstation hanswer ‹_›

theorem advance_cases (s : Shared) (r : Rendering) :
    e.advance s r = (s, r) ∨ r.Turn e compute s (e.advance s r).1 (e.advance s r).2 := by
  cases hstation : r.station with
  | atGate again =>
    right
    simp only [advance, hstation]
    cases hgate : gate s.life r.job r.target.width r.target.height with
    | error f => exact .refuse hstation hgate
    | ok u =>
      cases again with
      | true => exact .pass hstation hgate
      | false => exact .welcome hstation hgate
  | admitted =>
    right
    simp only [advance, hstation]
    exact .raise hstation
  | raised =>
    right
    simp only [advance, hstation]
    exact .mark hstation
  | entered =>
    right
    simp only [advance, hstation]
    exact opening_cases e compute hstation
  | collecting p =>
    simp only [advance, hstation]
    cases hanswer : p.dispatch.collector.answer? with
    | none => exact .inl rfl
    | some answer => exact .inr (settle_cases e compute hstation hanswer)
  | leaving result rest =>
    right
    simp only [advance, hstation]
    exact .leave hstation
  | returned result rest =>
    left
    simp only [advance, hstation]

end Engine

namespace Rendering

theorem work_cases {σ : Type} (e : Engine σ) (compute : Tile → Attempt TileError Pixmap)
    (s : Shared) (m : Move) (r : Rendering) :
    r.work compute s m = r ∨ r.Turn e compute s s (r.work compute s m) := by
  unfold work
  split
  · exact .inl rfl
  · split
    · exact .inr (.work ‹_› ‹_›)
    · exact .inl rfl

end Rendering

/-- What is done to an engine from outside its calls. -/
inductive Shared.Intervention (s : Shared) : Shared → Prop
  | fire (t : Token) : Intervention s { s with tokens := s.tokens.fire t }
  | takePool : Intervention s { s with life := s.life.takePool }
  | interrupt (hclosed : s.life.hasPool = false) :
      Intervention s { s with life := s.life.interrupt }

/-- A call that has just begun, and has its target as it got it. -/
structure Rendering.IsNew (r : Rendering) : Prop where
  station : ∃ again, r.station = .atGate again
  target : r.target = r.original

namespace Workshop

variable {σ : Type} {e : Engine σ} {compute : Nat → Tile → Attempt TileError Pixmap} {w : Workshop}

/-- All that can change. -/
inductive Change (e : Engine σ) (compute : Nat → Tile → Attempt TileError Pixmap) (w : Workshop) :
    Workshop → Prop
  | turn {k : Nat} {r new : Rendering} {s : Shared} (hcall : w.calls[k]? = some r)
      (hturn : r.Turn e (compute k) w.toShared s new) : Change e compute w (w.put k s new)
  | begin {r : Rendering} (hnew : r.IsNew) : Change e compute w (w.begin r)
  | intervene {s : Shared} (hdone : w.toShared.Intervention s) :
      Change e compute w { w with toShared := s }

theorem put_self {k : Nat} {r : Rendering} (hcall : w.calls[k]? = some r) :
    w.put k w.toShared r = w := by
  obtain ⟨hk, rfl⟩ := List.getElem?_eq_some_iff.1 hcall
  show Workshop.mk w.toShared (w.calls.set k w.calls[k]) = w
  rw [List.set_getElem_self]

theorem step_cases (e : Engine σ) (compute : Nat → Tile → Attempt TileError Pixmap) (w : Workshop)
    (a : Act) : w.step e compute a = w ∨ w.Change e compute (w.step e compute a) := by
  cases a with
  | render job => exact .inr (.begin ⟨⟨true, rfl⟩, rfl⟩)
  | renderInto job target => exact .inr (.begin ⟨⟨false, rfl⟩, rfl⟩)
  | advance k =>
    simp only [step]
    cases hcall : w.calls[k]? with
    | none => exact .inl rfl
    | some r =>
      rcases e.advance_cases (compute k) w.toShared r with hsame | hturn
      · left
        dsimp only
        rw [hsame, put_self hcall]
      · exact .inr (.turn hcall hturn)
  | work k m =>
    simp only [step]
    cases hcall : w.calls[k]? with
    | none => exact .inl rfl
    | some r =>
      rcases r.work_cases e (compute k) w.toShared m with hsame | hturn
      · left
        dsimp only
        rw [hsame, put_self hcall]
      · exact .inr (.turn hcall hturn)
  | fire t => exact .inr (.intervene (.fire t))
  | takePool => exact .inr (.intervene .takePool)
  | interrupt =>
    simp only [step]
    split
    · exact .inl rfl
    · exact .inr (.intervene (.interrupt (by simp_all)))

/-- What every change keeps, every run keeps. -/
theorem run_keeps (Keeps : Workshop → Prop)
    (hchange : ∀ w w' : Workshop, w.Change e compute w' → Keeps w → Keeps w') (hw : Keeps w)
    (acts : List Act) : Keeps (w.run e compute acts) := by
  induction acts generalizing w with
  | nil => exact hw
  | cons a acts ih =>
    apply ih
    rcases step_cases e compute w a with hsame | hchanged
    · rwa [hsame]
    · exact hchange w _ hchanged hw

end Workshop

end WorldMap
