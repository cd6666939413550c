import WorldMap.Proofs.Render.Workshop
import WorldMap.Proofs.Schedule.Gathering
/-!
# A call with the engine to itself

`Engine.render` and `Engine.renderInto` go from gate to exit without a break, with a single worker
and a collector that begins when all tasks have ended, and the only ones to fire a token or to close
the engine meanwhile are the calls of the listener. That is one of the ways in which acts can come,
so what holds of all runs of a workshop holds of the two: `Engine.exists_acts_renderInto` and
`Engine.exists_acts_render`.
-/

namespace WorldMap

variable {σ : Type}

/-! ### Acts that lead from one state of a call to another -/

/-- An engine with one call. -/
def Workshop.single (s : Shared) (r : Rendering) : Workshop := ⟨s, [r]⟩

/-- Some acts take a call that is alone on its engine from one state to another. -/
def Engine.Plays (e : Engine σ) (s : Shared) (r : Rendering) (s' : Shared) (r' : Rendering) :
    Prop :=
  ∃ acts, (Workshop.single s r).run e (fun _ => e.computeTile) acts = Workshop.single s' r'

namespace Engine.Plays

variable {e : Engine σ} {s s' s'' : Shared} {r r' r'' : Rendering}

theorem refl (e : Engine σ) (s : Shared) (r : Rendering) : e.Plays s r s r := ⟨[], rfl⟩

theorem trans (h : e.Plays s r s' r') (h' : e.Plays s' r' s'' r'') : e.Plays s r s'' r'' := by
  obtain ⟨before, hbefore⟩ := h
  obtain ⟨after, hafter⟩ := h'
  exact ⟨before ++ after, by rw [Workshop.run_append, hbefore, hafter]⟩

theorem advance (e : Engine σ) (s : Shared) (r : Rendering) :
    e.Plays s r (e.advance s r).1 (e.advance s r).2 :=
  ⟨[.advance 0], rfl⟩

theorem refuse {again : Bool} {f : RenderError} (hstation : r.station = .atGate again)
    (hgate : Engine.gate s.life r.job r.target.width r.target.height = .error f) :
    e.Plays s r s (r.enter (.returned (.error (.error f)) none)) := by
  have hadvance := advance e s r
  simp only [Engine.advance, hstation, hgate] at hadvance
  exact hadvance

theorem pass {again : Bool} (hstation : r.station = .atGate again)
    (hgate : Engine.gate s.life r.job r.target.width r.target.height = .ok ()) :
    e.Plays s r s (r.enter (if again then .atGate false else .admitted)) := by
  have hadvance := advance e s r
  simp only [Engine.advance, hstation, hgate] at hadvance
  exact hadvance

theorem work (e : Engine σ) (s : Shared) (r : Rendering) (m : Move) :
    e.Plays s r s (r.work e.computeTile s m) :=
  ⟨[.work 0 m], rfl⟩

theorem fire (e : Engine σ) (s : Shared) (r : Rendering) (t : Token) :
    e.Plays s r { s with tokens := s.tokens.fire t } r :=
  ⟨[.fire t], rfl⟩

theorem close (e : Engine σ) (s : Shared) (r : Rendering) :
    e.Plays s r { s with life := s.life.close } r :=
  ⟨s.life.closing, Workshop.run_closing e _ (Workshop.single s r)⟩

end Engine.Plays

/-! ### A call that waits for its tiles -/

/-- What the step of a task makes of a batch. -/
def Batch.act {α : Type} (compute : Tile → Attempt TileError α) (cancelled : Bool) (b : Batch α) :
    Move → Batch α
  | .check i => b.check i cancelled
  | .finish i => b.finish i (compute (b.tile i))
  | .count i => b.count i
  | .report i breaksOff => b.report i breaksOff
  | .send i => b.send i
  | _ => b

/-- What the tasks and the collector of a call find. -/
structure Bench where
  shared : Shared
  batch : Batch Pixmap
  collector : Collector Pixmap

/-- The dispatch is at work on the bench, and its collector has not been given up. -/
structure Dispatch.On (d : Dispatch Pixmap) (x : Bench) : Prop where
  batch : d.batch = x.batch
  collector : d.collector = x.collector
  held : d.abandoned = false

def Rendering.waits (r : Rendering) (view : Viewport) (d : Dispatch Pixmap) : Rendering :=
  r.enter (.collecting ⟨view, d⟩)

/-- Whoever waits at the one bench can come to wait at the other. -/
structure Bench.Leads (e : Engine σ) (r : Rendering) (view : Viewport) (x y : Bench) : Prop where
  exists_plays : ∀ d : Dispatch Pixmap, d.On x →
    ∃ d' : Dispatch Pixmap, d'.On y ∧ e.Plays x.shared (r.waits view d) y.shared (r.waits view d')

namespace Bench.Leads

variable {e : Engine σ} {r : Rendering} {view : Viewport} {x y z : Bench} {s : Shared}
  {b b' : Batch Pixmap} {c c' : Collector Pixmap}

theorem refl (e : Engine σ) (r : Rendering) (view : Viewport) (x : Bench) : x.Leads e r view x :=
  ⟨fun d hd => ⟨d, hd, .refl ..⟩⟩

theorem trans (h : x.Leads e r view y) (h' : y.Leads e r view z) : x.Leads e r view z := by
  constructor
  intro d hd
  obtain ⟨d', hd', hplays⟩ := h.exists_plays d hd
  obtain ⟨d'', hd'', hplays'⟩ := h'.exists_plays d' hd'
  exact ⟨d'', hd'', hplays.trans hplays'⟩

/-- What is shared changes, and the bench is left as it is. -/
theorem shared {s' : Shared} (h : ∀ d, e.Plays s (r.waits view d) s' (r.waits view d)) :
    Bench.Leads e r view ⟨s, b, c⟩ ⟨s', b, c⟩ :=
  ⟨fun d hd => ⟨d, ⟨hd.batch, hd.collector, hd.held⟩, h d⟩⟩

/-- A move of a task or of the collector. -/
theorem work {m : Move} (hown : m.isOwn = true)
    (hstep : ∀ d : Dispatch Pixmap, d.On ⟨s, b, c⟩ →
      ((d.under s.life.interrupted (s.tokens.isFired r.job.token)).step e.computeTile m).On
        ⟨s, b', c'⟩) :
    Bench.Leads e r view ⟨s, b, c⟩ ⟨s, b', c'⟩ := by
  constructor
  intro d hd
  have hwork : (r.waits view d).work e.computeTile s m = r.waits view
      ((d.under s.life.interrupted (s.tokens.isFired r.job.token)).step e.computeTile m) := by
    show (if m.isOwn then _ else _) = _
    rw [if_pos hown]
    rfl
  exact ⟨_, hstep d hd, hwork ▸ .work e s (r.waits view d) m⟩

/-- A step of a task. -/
theorem task (e : Engine σ) (r : Rendering) (view : Viewport) (s : Shared) (b : Batch Pixmap)
    (c : Collector Pixmap) {m : Move} (hplace : m.place?.isSome = true) :
    Bench.Leads e r view ⟨s, b, c⟩
      ⟨s, b.act e.computeTile (s.tokens.isFired r.job.token) m, c⟩ := by
  apply work (m := m)
  · cases m <;> simp_all [Move.place?, Move.isOwn]
  · rintro ⟨batch, collector, interrupted, cancelled, abandoned, entered⟩ ⟨rfl, rfl, rfl⟩
    cases m with
    | cancel | interrupt | collect | abandon | release => simp [Move.place?] at hplace
    | _ => exact ⟨rfl, rfl, rfl⟩

theorem collect (e : Engine σ) (r : Rendering) (view : Viewport) (s : Shared) (b : Batch Pixmap)
    (c : Collector Pixmap) :
    Bench.Leads e r view ⟨s, b, c⟩
      ⟨s, c.drain b, c.step b s.life.interrupted (s.tokens.isFired r.job.token)⟩ := by
  apply work (m := .collect) rfl
  rintro ⟨batch, collector, interrupted, cancelled, abandoned, entered⟩ ⟨rfl, rfl, rfl⟩
  exact ⟨rfl, rfl, rfl⟩

/-- The listener may close the engine and then cancel the job. -/
theorem notify (e : Engine σ) (r : Rendering) (view : Viewport) (total call n : Nat) (s : Session)
    (b : Batch Pixmap) (c : Collector Pixmap) :
    Bench.Leads e r view ⟨s.shared, b, c⟩
      ⟨(Engine.notify r.job total call n s).2.shared, b, c⟩ := by
  apply shared
  intro d
  unfold Engine.notify
  split
  · exact .refl ..
  · rename_i listener hlistener
    dsimp only
    cases (listener call).breaksOff <;> cases (listener call).cancelsJob <;>
      cases (listener call).closesEngine
    case false.false.false | true.false.false => exact .refl ..
    case false.false.true | true.false.true => exact .close e s.shared (r.waits view d)
    case false.true.false | true.true.false => exact .fire e s.shared (r.waits view d) r.job.token
    case false.true.true | true.true.true =>
      exact (Engine.Plays.close e s.shared (r.waits view d)).trans (.fire e _ _ r.job.token)

/-- A counted tile is reported to the listener in its task. -/
theorem reportTo (e : Engine σ) (r : Rendering) (view : Viewport) (total i : Nat) (s : Session)
    (b : Batch Pixmap) (c : Collector Pixmap) :
    Bench.Leads e r view ⟨s.shared, b, c⟩
      ⟨(b.reportTo (e.host r.job total) i s).2.shared,
        (b.reportTo (e.host r.job total) i s).1, c⟩ := by
  unfold Batch.reportTo
  split
  · split
    · apply (notify e r view total b.tracker.nextCall _ s b c).trans
      exact task _ _ _ _ _ _ (m := .report i _) rfl
    · exact task _ _ _ _ _ _ (m := .report i false) rfl
  · exact refl ..

theorem runTask (e : Engine σ) (r : Rendering) (view : Viewport) (total i : Nat) (s : Session)
    (b : Batch Pixmap) (c : Collector Pixmap) :
    Bench.Leads e r view ⟨s.shared, b, c⟩
      ⟨(b.runTask (e.host r.job total) i s).2.shared,
        (b.runTask (e.host r.job total) i s).1, c⟩ := by
  have hcheck := task e r view s.shared b c (m := .check i) rfl
  change Bench.Leads e r view ⟨s.shared, b, c⟩
    ⟨s.shared, b.check i ((e.host r.job total).cancelled s), c⟩ at hcheck
  simp only [Batch.runTask]
  generalize b.check i ((e.host r.job total).cancelled s) = b' at hcheck ⊢
  split
  · -- of a query nothing is kept but a note, which no call looks at
    apply hcheck.trans
    apply (task e r view s.shared b' c (m := .finish i) rfl).trans
    apply (task e r view s.shared _ c (m := .count i) rfl).trans
    apply (reportTo e r view total i { s with queries := s.queries.push (b'.tile i) } _ c).trans
    exact task _ _ _ _ _ _ (m := .send i) rfl
  · exact hcheck

theorem runFrom (e : Engine σ) (r : Rendering) (view : Viewport) (total i n : Nat) (s : Session)
    (b : Batch Pixmap) (c : Collector Pixmap) :
    Bench.Leads e r view ⟨s.shared, b, c⟩
      ⟨(b.runFrom (e.host r.job total) i n s).2.shared,
        (b.runFrom (e.host r.job total) i n s).1, c⟩ := by
  induction n generalizing i s b with
  | zero => exact refl ..
  | succ n ih => exact (runTask e r view total i s b c).trans (ih ..)

/-- The collector's own loop. -/
theorem collectorRun (e : Engine σ) (r : Rendering) (view : Viewport) (n : Nat) (s : Shared)
    (b : Batch Pixmap) (c : Collector Pixmap) :
    ∃ b', Bench.Leads e r view ⟨s, b, c⟩
      ⟨s, b', Collector.run s.life.interrupted (s.tokens.isFired r.job.token) n b c⟩ := by
  induction n generalizing b c with
  | zero => exact ⟨b, refl ..⟩
  | succ n ih =>
    unfold Collector.run
    split
    · exact ⟨b, refl ..⟩
    · exact ⟨b, refl ..⟩
    · obtain ⟨b', hrest⟩ := ih (c.drain b)
        (c.step b s.life.interrupted (s.tokens.isFired r.job.token))
      exact ⟨b', (collect ..).trans hrest⟩

end Bench.Leads

/-! ### The call as a whole -/

namespace Engine

variable {e : Engine σ} {r : Rendering}

theorem shared_foldl_note {β : Type} (f : β → Event) (l : Array β) (s : Session) :
    (l.foldl (fun s x => s.note (f x)) s).shared = s.shared := by
  rw [← Array.foldl_toList]
  generalize l.toList = l
  induction l generalizing s with
  | nil => rfl
  | cons x l ih => exact ih (s.note (f x))

/-- A call that has ordered its tiles comes to have an answer, which is that of `Engine.collect`. -/
theorem exists_plays_collect (e : Engine σ) (r : Rendering) (view : Viewport) (g : Grid)
    (s : Session) :
    ∃ d answer, e.Plays s.shared (r.waits view (Dispatch.start g r.job.listener.isSome))
        (e.collect r.job g s).2.shared (r.waits view d) ∧
      d.collector.answer? = some answer ∧
      (e.collect r.job g s).1 = answer.mapError fun reason => .error (.ofSchedule reason) := by
  have hplays := e.host_plays r.job g.size
  have hsize := Dispatch.size_runAll hplays g r.job.listener.isSome
    (s.note (.submitted g.size g.width g.depth))
  have hover := Batch.isOver_gather hplays g r.job.listener.isSome
    (s.note (.submitted g.size g.width g.depth))
  have hwork := Bench.Leads.runFrom e r view g.size 0
    (Batch.ofGrid (α := Pixmap) g r.job.listener.isSome).size
    (s.note (.submitted g.size g.width g.depth)) (Batch.ofGrid g r.job.listener.isSome)
    (Collector.start g.size)
  unfold collect
  dsimp only
  change Bench.Leads e r view _ ⟨((Batch.ofGrid g r.job.listener.isSome).runAll
    (e.host r.job g.size) (s.note (.submitted g.size g.width g.depth))).2.shared, _, _⟩ at hwork
  change Bench.Leads e r view _ ⟨_, ((Batch.ofGrid g r.job.listener.isSome).runAll
    (e.host r.job g.size) (s.note (.submitted g.size g.width g.depth))).1, _⟩ at hwork
  generalize (Batch.ofGrid g r.job.listener.isSome).runAll (e.host r.job g.size)
    (s.note (.submitted g.size g.width g.depth)) = after at hsize hover hwork ⊢
  obtain ⟨b, s'⟩ := after
  obtain ⟨b', hgather⟩ := Bench.Leads.collectorRun e r view (8 * b.size + 1) s'.shared b
    (Collector.start g.size)
  obtain ⟨d, hd, hleads⟩ := (hwork.trans hgather).exists_plays
    (Dispatch.start g r.job.listener.isSome) ⟨rfl, rfl, rfl⟩
  have hcollector : d.collector = b.gather s'.life.interrupted (s'.tokens.isFired r.job.token) := by
    rw [hd.collector, Batch.gather, hsize]
    rfl
  obtain ⟨answer, hanswer⟩ := Collector.exists_answer?_of_isOver
    (hover s'.life.interrupted (s'.tokens.isFired r.job.token))
  refine ⟨d, answer, ?_, hcollector ▸ hanswer, ?_⟩
  · dsimp only
    split <;> exact (shared_foldl_note ..).symm ▸ hleads
  · dsimp only
    rw [Collector.result, hanswer]
    cases answer <;> rfl

/-- A call whose collection is over leaves with what becomes of the answer. -/
theorem Plays.settle (e : Engine σ) (s : Shared) (r : Rendering) (view : Viewport)
    {d : Dispatch Pixmap} {answer : Except ScheduleError (List (TileResult Pixmap) × Stats)}
    (hanswer : d.collector.answer? = some answer) :
    e.Plays s (r.waits view d) s (e.settle (r.waits view d) ⟨view, d⟩ answer) := by
  have hstep : e.advance s (r.waits view d) = (s, e.settle (r.waits view d) ⟨view, d⟩ answer) := by
    simp only [Engine.advance, Rendering.waits, Rendering.enter, hanswer]
  have hadvance := Plays.advance e s (r.waits view d)
  rwa [hstep] at hadvance

/-- The call comes to stand where it has `result`, and an image that it has as its result has become
its target. `last` tells a call that is about to leave from one that has returned. -/
structure Ends (e : Engine σ) (s : Shared) (r : Rendering) (s' : Shared)
    (last : Attempt RenderError Unit → Option Pending → Station)
    (result : Attempt RenderError Image) : Prop where
  exists_plays : ∃ r' rest, e.Plays s r s' r' ∧ r'.job = r.job ∧ r'.original = r.original ∧
    r'.station = last (result.map fun _ => ()) rest ∧
    ∀ image, result = .ok image → r'.target = image

namespace Ends

variable {s s' s'' : Shared} {st : Station} {f : Failure RenderError} {rest : Option Pending}
  {last : Attempt RenderError Unit → Option Pending → Station}
  {result : Attempt RenderError Image}

theorem fail (h : e.Plays s r s' (r.enter (last (.error f) rest))) :
    e.Ends s r s' last (.error f) := by
  refine ⟨_, _, h, rfl, rfl, rfl, fun image himage => ?_⟩
  cases himage

theorem of_plays (h : e.Plays s r s' (r.enter st)) (h' : e.Ends s' (r.enter st) s'' last result) :
    e.Ends s r s'' last result := by
  obtain ⟨r', rest, hplays, hrest⟩ := h'.exists_plays
  exact ⟨r', rest, h.trans hplays, hrest⟩

/-- Whoever is about to leave returns. -/
theorem returned (h : e.Ends s r s' .leaving result) :
    e.Ends s r { s' with life := s'.life.leave } .returned result := by
  obtain ⟨r', rest, hplays, hjob, horiginal, hstation, htarget⟩ := h.exists_plays
  have hadvance := Plays.advance e s' r'
  simp only [advance, hstation] at hadvance
  exact ⟨_, rest, hplays.trans hadvance, hjob, horiginal, rfl, htarget⟩

end Ends

/-- A call that has its tiles composes them, and writes the target if they can be drawn. -/
theorem ends_of_answer (s : Shared) (view : Viewport) {d : Dispatch Pixmap}
    {tiles : List (TileResult Pixmap)} {stats : Stats}
    (hanswer : d.collector.answer? = some (.ok (tiles, stats))) :
    e.Ends s (r.waits view d) s .leaving
      ((e.compositor.composite r.target view tiles).mapError fun f => .broke (.ofFault f)) := by
  have hsettle := Plays.settle e s r view hanswer
  cases hcomposite : e.compositor.composite r.target view tiles with
  | error f =>
    simp only [settle, Rendering.waits, Rendering.enter, hcomposite] at hsettle
    exact .fail hsettle
  | ok image =>
    simp only [settle, Rendering.waits, Rendering.enter, hcomposite] at hsettle
    refine ⟨_, _, hsettle, rfl, rfl, rfl, fun image' himage => ?_⟩
    exact Except.ok.inj himage

/-- A call that is counted comes to leave with the result of `Engine.renderActive`. -/
theorem ends_renderActive (e : Engine σ) (s : Session) (hstation : r.station = .entered) :
    e.Ends s.shared r (e.renderActive r.job r.target s).2.shared .leaving
      (e.renderActive r.job r.target s).1 := by
  have hadvance := Plays.advance e s.shared r
  simp only [advance, hstation] at hadvance
  change e.Plays s.shared r { s.shared with prepared := s.prepared + 1 }
    (r.enter (e.opening r.job (s.prepared + 1))) at hadvance
  unfold opening at hadvance
  unfold renderActive prepare
  dsimp only
  cases hprepare : (e.source.prepare (s.prepared + 1)).mapFailure RenderError.source with
  | error f =>
    rw [hprepare] at hadvance
    exact .fail hadvance
  | ok u =>
    rw [hprepare] at hadvance
    dsimp only at hadvance ⊢
    cases hplan : e.plan r.job with
    | error f =>
      rw [order_of_plan_error hplan] at hadvance
      exact .fail hadvance
    | ok planned =>
      obtain ⟨view, area, grid⟩ := planned
      rw [order_of_plan hplan] at hadvance
      dsimp only
      cases hroom : Batch.room grid with
      | error f =>
        rw [hroom] at hadvance
        exact .fail hadvance
      | ok u =>
        rw [hroom] at hadvance
        dsimp only
        obtain ⟨d, answer, hplays, hanswer, hcollect⟩ := exists_plays_collect e r view grid
          (Session.note { s with prepared := s.prepared + 1 } (.rendering area grid.size r.job.scale))
        generalize e.collect r.job grid (Session.note { s with prepared := s.prepared + 1 }
          (.rendering area grid.size r.job.scale)) = collected at hplays hcollect ⊢
        obtain ⟨collected, s'⟩ := collected
        obtain rfl : collected = _ := hcollect
        have hwaits := hadvance.trans hplays
        cases answer with
        | error reason => exact .fail (hwaits.trans (Plays.settle e s'.shared r view hanswer))
        | ok answer =>
          have hends := ends_of_answer (e := e) (r := r) s'.shared view hanswer
          dsimp only [Except.mapError]
          generalize e.compositor.composite r.target view answer.1 = composed at hends ⊢
          cases composed <;> exact .of_plays hwaits hends

theorem ends_renderInto (e : Engine σ) (s : Session) (hstation : r.station = .atGate false) :
    e.Ends s.shared r (e.renderInto r.job r.target s).2.shared .returned
      (e.renderInto r.job r.target s).1 := by
  unfold renderInto
  cases hgate : gate s.life r.job r.target.width r.target.height with
  | error f => exact .fail (Plays.refuse hstation hgate)
  | ok u =>
    have hpassed := Plays.pass (e := e) (s := s.shared) hstation hgate
    have hraise := Plays.advance e s.shared (r.enter .admitted)
    have hmark := Plays.advance e { s.shared with life := s.life.raise } (r.enter .raised)
    apply Ends.of_plays ((hpassed.trans hraise).trans hmark)
    exact (ends_renderActive (r := r.enter .entered) e { s with life := s.life.enter } rfl).returned

theorem ends_render (e : Engine σ) (job : Job) (s : Session) :
    e.Ends s.shared (.ofRender job) (e.render job s).2.shared .returned (e.render job s).1 := by
  unfold render
  cases hgate : gate s.life job job.width.toNat job.height.toNat with
  | error f => exact .fail (Plays.refuse (r := .ofRender job) rfl hgate)
  | ok u =>
    apply Ends.of_plays (Plays.pass (r := .ofRender job) rfl hgate)
    exact ends_renderInto (r := (Rendering.ofRender job).enter (.atGate false)) e s rfl

/-- A render over an image of its caller's is the run of a workshop with one call. -/
theorem exists_acts_renderInto (e : Engine σ) (job : Job) (target : Image) (s : Session) :
    ∃ acts r rest, (Workshop.of s).run e (fun _ => e.computeTile) acts =
        Workshop.single (e.renderInto job target s).2.shared r ∧
      r.job = job ∧ r.original = target ∧
      r.station = .returned ((e.renderInto job target s).1.map fun _ => ()) rest ∧
      ∀ image, (e.renderInto job target s).1 = .ok image → r.target = image := by
  obtain ⟨r, rest, ⟨acts, hacts⟩, hjob, horiginal, hstation, htarget⟩ :=
    (ends_renderInto (r := .ofRenderInto job target) e s rfl).exists_plays
  exact ⟨.renderInto job target :: acts, r, rest, hacts, hjob, horiginal, hstation, htarget⟩

/-- A render over a new image is the run of a workshop with one call. -/
theorem exists_acts_render (e : Engine σ) (job : Job) (s : Session) :
    ∃ acts r rest, (Workshop.of s).run e (fun _ => e.computeTile) acts =
        Workshop.single (e.render job s).2.shared r ∧
      r.job = job ∧ r.station = .returned ((e.render job s).1.map fun _ => ()) rest ∧
      ∀ image, (e.render job s).1 = .ok image → r.target = image := by
  obtain ⟨r, rest, ⟨acts, hacts⟩, hjob, -, hstation, htarget⟩ :=
    (ends_render e job s).exists_plays
  exact ⟨.render job :: acts, r, rest, hacts, hjob, hstation, htarget⟩

end Engine

end WorldMap
