import Mathlib.Data.List.Perm.Basic
import WorldMap.Proofs.Render.Picture
import WorldMap.Proofs.Render.Serial
import WorldMap.Proofs.Schedule.Completion
/-!
# What comes of a call

A call leaves its target alone until it writes the whole picture at once, and whatever way it ends
it is no longer counted as active. `Rendering.Sound` says what is true of one call, wherever it
stands: the target is the original unless the call has succeeded, the tiles that it waits for are
those of a run of its own job, a failure has a `Cause`, and a success has the picture of the job.
The other calls only move on what is shared (`Shared.Later`), and all that is said of a call stays
true by that.

A tile that fails is no cause of anything.
-/

namespace WorldMap

variable {σ : Type}

/-! ### What is shared moves on -/

namespace Shared

variable {s s' : Shared}

/-- An engine that is closed stays closed, and a token that has fired stays fired. -/
structure Later (s s' : Shared) : Prop where
  closed : s.life.hasPool = false → s'.life.hasPool = false
  interrupted : s.life.interrupted = true → s'.life.interrupted = true
  fired : ∀ t, s.tokens.isFired t = true → s'.tokens.isFired t = true
  prepared : s.prepared ≤ s'.prepared

theorem Intervention.later (h : s.Intervention s') : s.Later s' := by
  cases h with
  | fire t => exact ⟨id, id, fun _ => Tokens.isFired_fire_of_isFired, Nat.le_refl _⟩
  | takePool => exact ⟨fun _ => rfl, id, fun _ => id, Nat.le_refl _⟩
  | interrupt hclosed => exact ⟨id, fun _ => rfl, fun _ => id, Nat.le_refl _⟩

end Shared

theorem Rendering.Turn.later {e : Engine σ} {compute : Tile → Attempt TileError Pixmap}
    {s s' : Shared} {r new : Rendering} (h : r.Turn e compute s s' new) : s.Later s' := by
  cases h with
  | unprepared _ _ | crowded _ _ _ | scatter _ _ _ => exact ⟨id, id, fun _ => id, Nat.le_succ _⟩
  | _ => exact ⟨id, id, fun _ => id, Nat.le_refl _⟩

/-! ### The tiles of a call -/

namespace Dispatch

variable {α : Type} {compute : Tile → Attempt TileError α} {d : Dispatch α}

/-- No move of a task or of the collector fires a token. -/
theorem tokens_step_of_isOwn (compute : Tile → Attempt TileError α) {m : Move}
    (hown : m.isOwn = true) (d : Dispatch α) :
    (d.step compute m).cancelled = d.cancelled ∧
      (d.step compute m).interrupted = d.interrupted := by
  cases m with
  | cancel | interrupt | abandon => simp [Move.isOwn] at hown
  | collect =>
    simp only [step]
    split <;> exact ⟨rfl, rfl⟩
  | release i =>
    simp only [step]
    split <;> exact ⟨rfl, rfl⟩
  | _ => exact ⟨rfl, rfl⟩

/-- Tokens that have fired since the last look fire by moves. -/
theorem exists_run_eq_under {interrupted cancelled : Bool} (compute : Tile → Attempt TileError α)
    (hinterrupted : d.interrupted = true → interrupted = true)
    (hcancelled : d.cancelled = true → cancelled = true) :
    ∃ moves, d.run compute moves = d.under interrupted cancelled :=
  exists_run_fired compute hinterrupted hcancelled

end Dispatch

/-- The tiles are those that the job shows, each by `compute`, and no token has been seen to fire
that has not fired. -/
structure Pending.Serves (e : Engine σ) (compute : Tile → Attempt TileError Pixmap) (s : Shared)
    (job : Job) (p : Pending) : Prop where
  run : ∃ area moves, job.visible = .ok (p.view, area) ∧
    p.dispatch =
      (Dispatch.start (Grid.covering area e.layout) job.listener.isSome).run compute moves
  cancelled : p.dispatch.cancelled = true → s.tokens.isFired job.token = true
  interrupted : p.dispatch.interrupted = true → s.life.interrupted = true

namespace Pending.Serves

variable {e : Engine σ} {compute : Tile → Attempt TileError Pixmap} {s s' : Shared} {job : Job}
  {p : Pending}

theorem later (h : p.Serves e compute s job) (hlater : s.Later s') : p.Serves e compute s' job :=
  ⟨h.run, fun hfired => hlater.fired _ (h.cancelled hfired),
    fun hfired => hlater.interrupted (h.interrupted hfired)⟩

theorem start {view : Viewport} {area : Area} (hvisible : job.visible = .ok (view, area)) :
    Pending.Serves e compute s job
      ⟨view, Dispatch.start (Grid.covering area e.layout) job.listener.isSome⟩ where
  run := ⟨area, [], hvisible, rfl⟩
  cancelled hfired := by simp [Dispatch.start] at hfired
  interrupted hfired := by simp [Dispatch.start] at hfired

theorem step (h : p.Serves e compute s job) {m : Move} (hown : m.isOwn = true) :
    (p.step compute s job m).Serves e compute s job := by
  obtain ⟨area, moves, hvisible, hrun⟩ := h.run
  obtain ⟨look, hlook⟩ := Dispatch.exists_run_eq_under compute h.interrupted h.cancelled
  have htokens := Dispatch.tokens_step_of_isOwn compute hown
    (p.dispatch.under s.life.interrupted (s.tokens.isFired job.token))
  constructor
  · refine ⟨area, moves ++ look ++ [m], hvisible, ?_⟩
    rw [Dispatch.run_append, Dispatch.run_append, ← hrun, hlook]
    rfl
  · intro hfired
    exact htokens.1.symm.trans hfired
  · intro hfired
    exact htokens.2.symm.trans hfired

/-- A collection that stops has found a token that has fired. -/
theorem hasFired_of_stopped (h : p.Serves e compute s job) {reason : ScheduleError}
    (hanswer : p.dispatch.collector.answer? = some (.error reason)) :
    p.dispatch.hasFired reason = true := by
  obtain ⟨area, moves, -, hrun⟩ := h.run
  have hfair := Dispatch.stopsFairly_run compute (Grid.covering area e.layout)
    job.listener.isSome moves
  rw [← hrun] at hfair
  exact hfair reason (Collector.answer?_eq_error_iff.1 hanswer)

/-- A collection that is complete has what the tiles that show come to. -/
theorem shown_of_complete (h : p.Serves e compute s job) {tiles : List (TileResult Pixmap)}
    {stats : Stats} (hanswer : p.dispatch.collector.answer? = some (.ok (tiles, stats))) :
    ∃ area, job.visible = .ok (p.view, area) ∧ tiles = e.shown compute area := by
  obtain ⟨area, moves, hvisible, hrun⟩ := h.run
  obtain ⟨hcomplete, htiles, -⟩ := Collector.answer?_eq_ok_iff.1 hanswer
  have hsound := Dispatch.run_sound compute (Grid.covering area e.layout)
    job.listener.isSome moves
  rw [← hrun] at hsound
  refine ⟨area, hvisible, ?_⟩
  rw [← htiles, (hsound.holds_of_complete hcomplete).results]
  rfl

end Pending.Serves

/-! ### Why a call fails -/

/-- A tile that shows in a job has an image that reaches out of the plane. -/
def Engine.Overreaches (e : Engine σ) (compute : Tile → Attempt TileError Pixmap) (job : Job) :
    Prop :=
  ∃ view area t, job.visible = .ok (view, area) ∧
    (Grid.covering area e.layout).contains t = true ∧
    ¬ (TileResult.ofAttempt t (compute t)).IsPlaced e.compositor.layout

/-- The reasons for which a call fails that got `original` as its target, before and after it has
ordered its tiles. Too many tiles, and an image that cannot be drawn, break the call off; a tile that
failed is no reason. -/
inductive Cause (e : Engine σ) (compute : Tile → Attempt TileError Pixmap) (s : Shared) (job : Job)
    (original : Image) : (ordered : Bool) → Failure RenderError → Prop
  | closed (hpool : s.life.hasPool = false) :
      Cause e compute s job original false (.error .engineClosed)
  | refused {problem : GeometryProblem}
      (haccepts : Engine.accepts job original.width original.height =
        .error (job.refuse problem)) :
      Cause e compute s job original false (.error (job.refuse problem))
  | unprepared {n : Nat} {x : SourceError} (hle : n ≤ s.prepared)
      (hprepare : e.source.prepare n = .error (.error x)) :
      Cause e compute s job original false (.error (.source x))
  | abandoned {n : Nat} {b : Breakdown} (hle : n ≤ s.prepared)
      (hprepare : e.source.prepare n = .error (.broke b)) :
      Cause e compute s job original false (.broke b)
  | crowded (hcrowds : e.Crowds job) :
      Cause e compute s job original false (.broke (.ofFault .capacity))
  | cancelled (hfired : s.tokens.isFired job.token = true) :
      Cause e compute s job original true (.error .cancelled)
  | interrupted (hfired : s.life.interrupted = true) :
      Cause e compute s job original true (.error .interrupted)
  | undrawable (hover : e.Overreaches compute job) :
      Cause e compute s job original true (.broke (.ofFault .rectangle))

theorem Cause.later {e : Engine σ} {compute : Tile → Attempt TileError Pixmap} {s s' : Shared}
    {job : Job} {original : Image} {ordered : Bool} {f : Failure RenderError}
    (h : Cause e compute s job original ordered f) (hlater : s.Later s') :
    Cause e compute s' job original ordered f := by
  cases h with
  | closed hpool => exact .closed (hlater.closed hpool)
  | refused haccepts => exact .refused haccepts
  | unprepared hle hprepare => exact .unprepared (Nat.le_trans hle hlater.prepared) hprepare
  | abandoned hle hprepare => exact .abandoned (Nat.le_trans hle hlater.prepared) hprepare
  | cancelled hfired => exact .cancelled (hlater.fired _ hfired)
  | interrupted hfired => exact .interrupted (hlater.interrupted hfired)
  | crowded hcrowds => exact .crowded hcrowds
  | undrawable hover => exact .undrawable hover

namespace Cause

variable {e : Engine σ} {compute : Tile → Attempt TileError Pixmap} {s : Shared} {job : Job}
  {original : Image} {f : Failure RenderError}

end Cause

/-! ### One call -/

/-- What is true of a call at any time. -/
structure Rendering.Sound (e : Engine σ) (compute : Tile → Attempt TileError Pixmap) (s : Shared)
    (r : Rendering) : Prop where
  kept : r.station.result? ≠ some (.ok ()) → r.target = r.original
  fits : r.station.isInside = true →
    Engine.accepts r.job r.original.width r.original.height = .ok ()
  serves : ∀ p, r.station.pending? = some p → p.Serves e compute s r.job
  fails : ∀ f, r.station.result? = some (.error f) →
    Cause e compute s r.job r.original r.station.pending?.isSome f
  ordered : r.station.result? = some (.ok ()) → r.station.pending?.isSome = true
  succeeds : r.station.result? = some (.ok ()) →
    Engine.accepts r.job r.original.width r.original.height = .ok () ∧
      e.picture compute r.job r.original = .ok r.target

namespace Rendering

variable {e : Engine σ} {compute : Tile → Attempt TileError Pixmap} {s s' : Shared}
  {r new : Rendering}

theorem Sound.later (h : r.Sound e compute s) (hlater : s.Later s') : r.Sound e compute s' where
  kept := h.kept
  fits := h.fits
  serves p hp := (h.serves p hp).later hlater
  fails f hf := (h.fails f hf).later hlater
  ordered := h.ordered
  succeeds := h.succeeds

theorem IsNew.sound (h : r.IsNew) : r.Sound e compute s := by
  obtain ⟨again, hstation⟩ := h.station
  constructor
  · intro _
    exact h.target
  all_goals simp [hstation, Station.isInside, Station.pending?, Station.result?]

namespace Sound

/-- A step that has nothing to do with the result leaves what is said of the result and the target.
-/
private theorem goOn (h : r.Sound e compute s) {st : Station}
    (hresult : st.result? = r.station.result?)
    (hpending : st.result? ≠ none → st.pending?.isSome = r.station.pending?.isSome)
    (hfits : st.isInside = true → Engine.accepts r.job r.original.width r.original.height = .ok ())
    (hserves : ∀ p, st.pending? = some p → p.Serves e compute s r.job) :
    (r.enter st).Sound e compute s where
  kept hnot := h.kept (hresult ▸ hnot)
  fits := hfits
  serves := hserves
  fails f hf := by
    change st.result? = _ at hf
    show Cause e compute s r.job r.original st.pending?.isSome f
    rw [hpending (by simp [hf])]
    exact h.fails f (hresult.symm.trans hf)
  ordered hok := by
    change st.result? = _ at hok
    exact (hpending (by simp [hok])).trans (h.ordered (hresult.symm.trans hok))
  succeeds hok := h.succeeds (hresult.symm.trans hok)

/-- A call that fails keeps its target. -/
private theorem fail (h : r.Sound e compute s) {st : Station} {f : Failure RenderError}
    (hbefore : r.station.result? = none) (hafter : st.result? = some (.error f))
    (hinside : st.isInside = false)
    (hserves : ∀ p, st.pending? = some p → p.Serves e compute s r.job)
    (hcause : Cause e compute s r.job r.original st.pending?.isSome f) :
    (r.enter st).Sound e compute s where
  kept _ := h.kept (by simp [hbefore])
  fits hin := by
    change st.isInside = true at hin
    simp [hinside] at hin
  serves := hserves
  fails f' hf := by
    change st.result? = _ at hf
    obtain rfl : f = f' := by simpa [hafter] using hf
    exact hcause
  ordered hok := by
    change st.result? = _ at hok
    simp [hafter] at hok
  succeeds hok := by
    change st.result? = _ at hok
    simp [hafter] at hok

private theorem work (h : r.Sound e compute s) {p : Pending}
    (hpending : r.station.pending? = some p) {m : Move} (hown : m.isOwn = true) :
    (r.enter (r.station.setPending (p.step compute s r.job m))).Sound e compute s := by
  have hthere (p' : Pending) : (r.station.setPending p').pending? = some p' :=
    Station.pending?_setPending (by simp [hpending]) p'
  apply h.goOn (Station.result?_setPending ..)
  · intro _
    rw [hthere, hpending]
    rfl
  · intro hinside
    exact h.fits ((Station.isInside_setPending ..).symm.trans hinside)
  · intro p' hp'
    rw [hthere] at hp'
    obtain rfl := Option.some.inj hp'
    exact (h.serves p hpending).step hown

private theorem refuse (h : r.Sound e compute s) {again : Bool} {f : RenderError}
    (hstation : r.station = .atGate again)
    (hgate : Engine.gate s.life r.job r.target.width r.target.height = .error f) :
    (r.enter (.returned (.error (.error f)) none)).Sound e compute s := by
  apply h.fail (by rw [hstation]; rfl) rfl rfl
  · intro p hp
    cases hp
  · rw [h.kept (by simp [hstation, Station.result?])] at hgate
    unfold Engine.gate at hgate
    split at hgate
    · obtain ⟨problem, rfl⟩ := Engine.exists_problem_of_accepts hgate
      exact .refused hgate
    · obtain rfl : RenderError.engineClosed = f := Except.error.inj hgate
      exact .closed (by simp_all)

private theorem welcome (h : r.Sound e compute s) (hstation : r.station = .atGate false)
    (hgate : Engine.gate s.life r.job r.target.width r.target.height = .ok ()) :
    (r.enter .admitted).Sound e compute s := by
  apply h.goOn (by rw [hstation]; rfl) (absurd rfl)
  · intro _
    rw [h.kept (by simp [hstation, Station.result?])] at hgate
    unfold Engine.gate at hgate
    split at hgate
    · exact hgate
    · cases hgate
  · intro p hp
    cases hp

private theorem compose (h : r.Sound e compute s) {p : Pending}
    {tiles : List (TileResult Pixmap)} {stats : Stats} {image : Image}
    (hstation : r.station = .collecting p)
    (hanswer : p.dispatch.collector.answer? = some (.ok (tiles, stats)))
    (hcomposite : e.compositor.composite r.target p.view tiles = .ok image) :
    Rendering.Sound e compute s
      { r with target := image, station := .leaving (.ok ()) (some p) } := by
  have hserves := h.serves p (by rw [hstation]; rfl)
  obtain ⟨area, hvisible, rfl⟩ := hserves.shown_of_complete hanswer
  have hkept := h.kept (by simp [hstation, Station.result?])
  constructor
  · intro hnot
    exact absurd rfl hnot
  · intro hinside
    cases hinside
  · intro p' hp'
    obtain rfl : p = p' := Option.some.inj hp'
    exact hserves
  · intro f hf
    cases hf
  · intro _
    rfl
  · intro _
    refine ⟨h.fits (by rw [hstation]; rfl), ?_⟩
    rw [Engine.picture_of_visible hvisible, ← hkept]
    exact hcomposite

private theorem stop (h : r.Sound e compute s) {p : Pending} {reason : ScheduleError}
    (hstation : r.station = .collecting p)
    (hanswer : p.dispatch.collector.answer? = some (.error reason)) :
    (r.enter (.leaving (.error (.error (.ofSchedule reason))) (some p))).Sound e compute s := by
  have hserves := h.serves p (by rw [hstation]; rfl)
  have hfired := hserves.hasFired_of_stopped hanswer
  apply h.fail (by rw [hstation]; rfl) rfl rfl
  · intro p' hp'
    obtain rfl : p = p' := Option.some.inj hp'
    exact hserves
  · cases reason with
    | cancelled => exact .cancelled (hserves.cancelled hfired)
    | interrupted => exact .interrupted (hserves.interrupted hfired)

private theorem spoil (h : r.Sound e compute s) {p : Pending} {tiles : List (TileResult Pixmap)}
    {stats : Stats} {fault : Fault} (hstation : r.station = .collecting p)
    (hanswer : p.dispatch.collector.answer? = some (.ok (tiles, stats)))
    (hcomposite : e.compositor.composite r.target p.view tiles = .error fault) :
    (r.enter (.leaving (.error (.broke (.ofFault fault))) (some p))).Sound e compute s := by
  have hserves := h.serves p (by rw [hstation]; rfl)
  obtain ⟨area, hvisible, rfl⟩ := hserves.shown_of_complete hanswer
  obtain ⟨haccepted, -⟩ := Engine.accepts_eq_ok_iff.1 (h.fits (by rw [hstation]; rfl))
  apply h.fail (by rw [hstation]; rfl) rfl rfl
  · intro p' hp'
    obtain rfl : p = p' := Option.some.inj hp'
    exact hserves
  · have hsees := haccepted.sees_of_visible hvisible
    obtain ⟨rfl, shown, hmem, hnot⟩ := Compositor.exists_not_isPlaced_of_composite
      (hsees.scale ▸ haccepted.scale_ne_zero) hcomposite
    obtain ⟨t, ht, rfl⟩ := List.mem_map.1 hmem
    exact .undrawable ⟨_, area, t, hvisible, Grid.mem_tiles_iff.1 ht, hnot⟩

end Sound

/-- Whatever a call does, what is said of it stays true. -/
theorem Turn.sound (hturn : r.Turn e compute s s' new) (hsound : r.Sound e compute s) :
    new.Sound e compute s' := by
  have h := hsound.later hturn.later
  cases hturn with
  | refuse hstation hgate => exact h.refuse hstation hgate
  | pass hstation hgate =>
    apply h.goOn (by rw [hstation]; rfl) (absurd rfl)
    · intro hinside
      cases hinside
    · intro p hp
      cases hp
  | welcome hstation hgate => exact h.welcome hstation hgate
  | raise hstation | mark hstation =>
    apply h.goOn (by rw [hstation]; rfl) (absurd rfl)
    · intro _
      exact h.fits (by rw [hstation]; rfl)
    · intro p hp
      cases hp
  | @unprepared f hstation hprepare =>
    apply h.fail (by rw [hstation]; rfl) rfl rfl
    · intro p hp
      cases hp
    · cases f with
      | error x => exact .unprepared (Nat.le_refl _) hprepare
      | broke b => exact .abandoned (Nat.le_refl _) hprepare
  | crowded hstation hprepare horder =>
    obtain ⟨haccepted, -⟩ := Engine.accepts_eq_ok_iff.1 (h.fits (by rw [hstation]; rfl))
    obtain ⟨rfl, hcrowds⟩ := (Engine.order_eq_error_iff haccepted).1 horder
    apply h.fail (by rw [hstation]; rfl) rfl rfl
    · intro p hp
      cases hp
    · exact .crowded hcrowds
  | scatter hstation hprepare horder =>
    obtain ⟨area, hvisible, rfl, -⟩ := Engine.order_eq_ok_iff.1 horder
    apply h.goOn (by rw [hstation]; rfl) (absurd rfl)
    · intro _
      exact h.fits (by rw [hstation]; rfl)
    · intro p hp
      obtain rfl := Option.some.inj hp
      exact .start hvisible
  | work hpending hown => exact h.work hpending hown
  | stop hstation hanswer => exact h.stop hstation hanswer
  | spoil hstation hanswer hcomposite => exact h.spoil hstation hanswer hcomposite
  | compose hstation hanswer hcomposite => exact h.compose hstation hanswer hcomposite
  | leave hstation =>
    apply h.goOn (by rw [hstation]; rfl)
    · intro _
      rw [hstation]
      rfl
    · intro hinside
      cases hinside
    · intro p hp
      exact h.serves p (by rw [hstation]; exact hp)

end Rendering

/-! ### All calls -/

namespace Workshop

variable {e : Engine σ} {compute : Nat → Tile → Attempt TileError Pixmap} {w w' : Workshop}

theorem getElem?_calls_put {k : Nat} {r : Rendering} (hcall : w.calls[k]? = some r) (s : Shared)
    (new : Rendering) (j : Nat) :
    (w.put k s new).calls[j]? = if k = j then some new else w.calls[j]? := by
  obtain ⟨hk, -⟩ := List.getElem?_eq_some_iff.1 hcall
  show (w.calls.set k new)[j]? = _
  rw [List.getElem?_set, if_pos hk]

theorem getElem?_calls_begin {r : Rendering} {j : Nat} {r' : Rendering}
    (hcall : (w.begin r).calls[j]? = some r') : r' = r ∨ w.calls[j]? = some r' := by
  have happend : (w.calls ++ [r])[j]? = some r' := hcall
  rw [List.getElem?_append] at happend
  split at happend
  · exact .inr happend
  · rw [List.getElem?_singleton] at happend
    split at happend
    · exact .inl (Option.some.inj happend).symm
    · cases happend

def Sound (e : Engine σ) (compute : Nat → Tile → Attempt TileError Pixmap) (w : Workshop) : Prop :=
  ∀ (k : Nat) (r : Rendering), w.calls[k]? = some r → r.Sound e (compute k) w.toShared

theorem Change.sound (hchange : w.Change e compute w') (h : w.Sound e compute) :
    w'.Sound e compute := by
  intro j r hcall
  cases hchange with
  | turn hturned hturn =>
    rw [getElem?_calls_put hturned] at hcall
    split at hcall
    · rename_i hk
      subst hk
      obtain rfl := Option.some.inj hcall
      exact hturn.sound (h _ _ hturned)
    · exact (h j r hcall).later hturn.later
  | begin hnew =>
    rcases getElem?_calls_begin hcall with rfl | hcall
    · exact hnew.sound
    · exact h j r hcall
  | intervene hdone => exact (h j r hcall).later hdone.later

theorem run_sound (e : Engine σ) (compute : Nat → Tile → Attempt TileError Pixmap) (s : Session)
    (acts : List Act) : ((of s).run e compute acts).Sound e compute := by
  apply run_keeps (Sound e compute) (fun _ _ => Change.sound)
  intro k r hcall
  cases hcall

end Workshop

/-! ### The active renders -/

theorem Rendering.isActive_of_returned {r : Rendering} {result : Attempt RenderError Unit}
    {rest : Option Pending} (h : r.station = .returned result rest) : r.isActive = false := by
  rw [isActive, h]
  rfl

/-- A call is counted from its entry until it leaves. -/
theorem Rendering.Turn.active_eq {e : Engine σ} {compute : Tile → Attempt TileError Pixmap}
    {s s' : Shared} {r new : Rendering} (hturn : r.Turn e compute s s' new)
    (hpos : r.isActive = true → 0 < s.life.active) :
    s'.life.active + r.isActive.toNat = s.life.active + new.isActive.toNat := by
  unfold Rendering.isActive at hpos ⊢
  cases hturn with
  | raise hstation =>
    rw [hstation]
    rfl
  | leave hstation =>
    rw [hstation] at hpos ⊢
    have hlt := hpos rfl
    show s.life.active - 1 + 1 = s.life.active
    omega
  | work hpending hown =>
    rw [← Station.isActive_setPending]
    rfl
  | refuse hstation | pass hstation | welcome hstation | mark hstation | unprepared hstation
  | crowded hstation | scatter hstation | stop hstation | spoil hstation | compose hstation =>
    rw [hstation]
    rfl

namespace Workshop

variable {e : Engine σ} {compute : Nat → Tile → Attempt TileError Pixmap} {w w' : Workshop}
  {n : Nat}

/-- Of the renders that are counted all but `n` are those of the calls that have entered and have
not left. -/
def Counts (n : Nat) (w : Workshop) : Prop :=
  w.life.active = n + w.calls.countP (·.isActive)

theorem countP_calls_put {k : Nat} {r : Rendering} (hcall : w.calls[k]? = some r) (s : Shared)
    (new : Rendering) (p : Rendering → Bool) :
    (w.put k s new).calls.countP p + (p r).toNat = w.calls.countP p + (p new).toNat := by
  obtain ⟨hk, rfl⟩ := List.getElem?_eq_some_iff.1 hcall
  have hle : (p w.calls[k]).toNat ≤ w.calls.countP p := by
    cases hp : p w.calls[k] with
    | false => exact Nat.zero_le _
    | true => exact List.countP_pos_iff.2 ⟨_, List.getElem_mem hk, hp⟩
  have htoNat : ∀ q : Bool, (if q = true then 1 else 0) = q.toNat := by decide
  show (w.calls.set k new).countP p + _ = _
  rw [List.countP_set hk, htoNat, htoNat]
  omega

theorem Change.counts (hchange : w.Change e compute w') (h : w.Counts n) : w'.Counts n := by
  unfold Counts at h ⊢
  cases hchange with
  | @turn k r new s hcall hturn =>
    have hactive := hturn.active_eq fun hr => by
      have hpos : 0 < w.calls.countP (·.isActive) :=
        List.countP_pos_iff.2 ⟨r, List.mem_of_getElem? hcall, hr⟩
      omega
    have hcount := countP_calls_put hcall s new (·.isActive)
    show s.life.active = _
    omega
  | @begin r hnew =>
    obtain ⟨again, hstation⟩ := hnew.station
    have hidle : r.isActive = false := by
      show r.station.isActive = false
      rw [hstation]
      rfl
    show w.life.active = n + (w.calls ++ [r]).countP (·.isActive)
    rw [List.countP_append, List.countP_singleton, hidle]
    exact h
  | intervene hdone => cases hdone <;> exact h

theorem run_counts (e : Engine σ) (compute : Nat → Tile → Attempt TileError Pixmap) (s : Session)
    (acts : List Act) : ((of s).run e compute acts).Counts s.life.active := by
  apply run_keeps (Counts s.life.active) (fun _ _ => Change.counts)
  rfl

/-- What is true of a call is true of a render in one go. -/
theorem sound_of_single {e : Engine σ} {s : Session} {acts : List Act} {s' : Shared} {r : Rendering}
    (hrun : (of s).run e (fun _ => e.computeTile) acts = single s' r) :
    r.Sound e e.computeTile s' ∧ s'.life.active = s.life.active + [r].countP (·.isActive) := by
  have hsound := run_sound e (fun _ => e.computeTile) s acts
  have hcounts := run_counts e (fun _ => e.computeTile) s acts
  rw [hrun] at hsound hcounts
  exact ⟨hsound 0 r rfl, hcounts⟩

end Workshop

namespace Engine

variable (e : Engine σ) (job : Job) (target : Image) (s : Session)

/-- A render in one go leaves the number of active renders as it was, whatever way it ends. -/
theorem active_renderInto : (e.renderInto job target s).2.life.active = s.life.active := by
  obtain ⟨acts, r, rest, hrun, -, -, hstation, -⟩ := e.exists_acts_renderInto job target s
  obtain ⟨-, hactive⟩ := Workshop.sound_of_single hrun
  rw [List.countP_singleton, Rendering.isActive_of_returned hstation] at hactive
  exact hactive

theorem cause_of_renderInto {f : Failure RenderError}
    (hfailed : (e.renderInto job target s).1 = .error f) :
    ∃ ordered, Cause e e.computeTile (e.renderInto job target s).2.shared job target ordered f := by
  obtain ⟨acts, r, rest, hrun, hjob, horiginal, hstation, -⟩ :=
    e.exists_acts_renderInto job target s
  obtain ⟨hsound, -⟩ := Workshop.sound_of_single hrun
  rw [hfailed] at hstation
  have hcause := hsound.fails f (by rw [hstation]; rfl)
  rw [hjob, horiginal] at hcause
  exact ⟨_, hcause⟩

end Engine

namespace Workshop

/-- A call that fails leaves no trace. However callers, tiles and tokens come to act, and whenever
the engine is closed: as long as a call has not succeeded its target is what it was; once it has
returned, the active renders are those that there are without it; and if it fails there is a cause
for it. What becomes of its tiles is none: on an open engine, with a job and a target that are
accepted, a source that is prepared without an error and no token that has fired, no call returns an
error. A render in one go, whatever way it ends, leaves as many active renders as there were, and
fails for such a cause as well. -/
theorem failed_call_leaves_no_trace (e : Engine σ) (compute : Nat → Tile → Attempt TileError Pixmap)
    (s : Session) (acts : List Act) :
    let w := (of s).run e compute acts
    w.life.active = s.life.active + w.calls.countP (·.isActive) ∧
    (∀ (k : Nat) (r : Rendering), w.calls[k]? = some r →
      (r.station.result? ≠ some (.ok ()) → r.target = r.original) ∧
      (∀ result rest, r.station = .returned result rest →
        w.life.active = s.life.active + (w.calls.eraseIdx k).countP (·.isActive)) ∧
      (∀ f, r.station.result? = some (.error f) →
        Cause e (compute k) w.toShared r.job r.original r.station.pending?.isSome f) ∧
      (w.life.hasPool = true →
        Engine.accepts r.job r.original.width r.original.height = .ok () →
        (∀ n x, e.source.prepare n ≠ .error (.error x)) →
        w.tokens.isFired r.job.token = false → w.life.interrupted = false →
        ∀ f, r.station.result? ≠ some (.error (.error f)))) ∧
    ∀ (job : Job) (target : Image) (s' : Session),
      let (result, s'') := e.renderInto job target s'
      s''.life.active = s'.life.active ∧
      ∀ f, result = .error f → ∃ ordered, Cause e e.computeTile s''.shared job target ordered f := by
  intro w
  have hcounts : w.Counts s.life.active := run_counts e compute s acts
  refine ⟨hcounts, fun k r hcall => ?_, fun job target s' =>
    ⟨e.active_renderInto job target s', fun f => e.cause_of_renderInto job target s'⟩⟩
  have hsound : r.Sound e (compute k) w.toShared := run_sound e compute s acts k r hcall
  refine ⟨hsound.kept, fun result rest hstation => ?_, hsound.fails, ?_⟩
  · obtain ⟨hk, rfl⟩ := List.getElem?_eq_some_iff.1 hcall
    have hidle : w.calls[k].isActive = false := Rendering.isActive_of_returned hstation
    have hperm := (List.getElem_cons_eraseIdx_perm hk).countP_eq (·.isActive)
    rw [List.countP_cons, hidle] at hperm
    rw [hcounts, ← hperm]
    rfl
  · intro hpool haccepts hprepare htoken hengine f hfailed
    have hcause := hsound.fails (.error f) hfailed
    generalize r.station.pending?.isSome = ordered at hcause
    cases hcause with
    | closed hclosed => simp [hclosed] at hpool
    | refused hrefused => simp [hrefused] at haccepts
    | unprepared hle hunprepared => exact hprepare _ _ hunprepared
    | cancelled hfired => simp [hfired] at htoken
    | interrupted hfired => simp [hfired] at hengine

/-- A source that breaks off when it is prepared for the first time, and has nothing to show. -/
private def frailEngine : Engine Unit where
  source := ⟨"frail", fun n => if n = 1 then .error (.broke .silent) else .ok (),
    fun _ => .error (.error (.query "no data"))⟩
  rasterizer := ⟨[], Layout.ofFootprint 4 4, Color.transparent⟩
  compositor := ⟨Layout.ofFootprint 4 4, Color.transparent, Compositor.axisGray⟩
  workers := 2

private def pixelJob : Job := ⟨1, 1, 1, none, ⟨7, []⟩⟩

private def whitePixel : Image := Raster.replicate 1 1 ⟨255, 255, 255, 255⟩

/-- The first call fails in the preparation of the source, the second is cancelled while its only
tile is computed, and the third finds the engine closed. -/
private def failingActs : List Act :=
  [.renderInto pixelJob whitePixel, .renderInto pixelJob whitePixel, .advance 0, .advance 1,
    .advance 0, .advance 0, .advance 0, .advance 1, .advance 1, .advance 1, .work 1 (.check 0),
    .work 1 .collect, .advance 0, .fire pixelJob.token, .work 1 (.finish 0), .work 1 .collect,
    .work 1 .collect, .advance 1, .takePool, .renderInto pixelJob whitePixel, .advance 2,
    .interrupt, .advance 1]

private def afterFailures : Workshop :=
  (of frailEngine.newSession).run frailEngine (fun _ => frailEngine.computeTile) failingActs

private theorem exists_afterFailures :
    ∃ r₀ r₁ r₂, afterFailures.calls = [r₀, r₁, r₂] ∧
      r₀.station = .returned (.error (.broke .silent)) none ∧
      (r₁.station.result? = some (.error (.error .cancelled)) ∧ r₁.isActive = false) ∧
      (r₂.station.result? = some (.error (.error .engineClosed)) ∧ r₂.isActive = false) ∧
      [r₀, r₁, r₂].map (·.original) = [whitePixel, whitePixel, whitePixel] :=
  ⟨_, _, _, rfl, rfl, ⟨rfl, rfl⟩, ⟨rfl, rfl⟩, rfl⟩

theorem failed_call_leaves_no_trace_frailEngine :
    afterFailures.calls.map (·.station.result?) =
      [some (.error (.broke .silent)), some (.error (.error .cancelled)),
        some (.error (.error .engineClosed))] ∧
    afterFailures.calls.map (·.target) = [whitePixel, whitePixel, whitePixel] ∧
    afterFailures.life.active = 0 ∧ afterFailures.life.hasPool = false := by
  obtain ⟨r₀, r₁, r₂, hcalls, hstation₀, ⟨hresult₁, hidle₁⟩, ⟨hresult₂, hidle₂⟩, horiginal⟩ :=
    exists_afterFailures
  obtain ⟨-, hall, -⟩ := failed_call_leaves_no_trace frailEngine (fun _ => frailEngine.computeTile)
    frailEngine.newSession failingActs
  change ∀ k r, afterFailures.calls[k]? = some r → _ at hall
  rw [hcalls] at hall ⊢
  have hresult₀ : r₀.station.result? = some (.error (.broke .silent)) := by
    rw [hstation₀]
    rfl
  obtain ⟨hkept₀, hactive₀, -⟩ := hall 0 r₀ rfl
  obtain ⟨hkept₁, -⟩ := hall 1 r₁ rfl
  obtain ⟨hkept₂, -, hcause₂, -⟩ := hall 2 r₂ rfl
  refine ⟨by simp [hresult₀, hresult₁, hresult₂], ?_, ?_, ?_⟩
  · rw [← horiginal]
    simp [hkept₀ (by simp [hresult₀]), hkept₁ (by simp [hresult₁]), hkept₂ (by simp [hresult₂])]
  · have hactive := hactive₀ _ _ hstation₀
    change afterFailures.life.active =
      0 + (afterFailures.calls.eraseIdx 0).countP (·.isActive) at hactive
    rw [hactive, hcalls]
    simp [hidle₁, hidle₂]
  · have hcause := hcause₂ _ hresult₂
    generalize r₂.station.pending?.isSome = ordered at hcause
    cases hcause with
    | closed hpool => exact hpool

end Workshop

end WorldMap
