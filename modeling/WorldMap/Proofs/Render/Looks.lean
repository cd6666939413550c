import WorldMap.Proofs.Render.Lifecycle
import WorldMap.Proofs.Schedule.Stopping
/-!
# What a collector finds when it looks at the engine's token

The result of a call that has ordered its tiles is decided by the looks of its collector at the
engine's token. There is at least one before the call has a result, and the call ends as interrupted
if and only if one of them has found that the token had fired. That is `Rendering.Watched`, which
every step of a workshop keeps. A call that has not looked when the token fires is `Forestalled`: it
comes nearer to the look that stops it with every step of its collector.
-/

namespace WorldMap

variable {σ : Type}

/-- What the next step of the collector finds if it is a look at the engine's token. -/
def Collector.look {α : Type} (interrupted : Bool) (c : Collector α) : List Bool :=
  match c.stage with
  | .engineCheck _ => [interrupted]
  | _ => []

/-- What move `m` finds if it is such a look. -/
def Rendering.look (s : Shared) (r : Rendering) (m : Move) : List Bool :=
  match m, r.station.pending? with
  | .collect, some p => p.dispatch.collector.look s.life.interrupted
  | _, _ => []

theorem Rendering.look_of_ne {s : Shared} {r : Rendering} {m : Move} (hm : m ≠ .collect) :
    r.look s m = [] := by
  unfold look
  split
  · exact absurd rfl hm
  · rfl

/-- What an act finds if it is such a look in call `k`. -/
def Workshop.look (w : Workshop) (k : Nat) : Act → List Bool
  | .work j m => if j = k then (w.calls[j]?.map (·.look w.toShared m)).getD [] else []
  | _ => []

/-! ### What the looks decide -/

namespace Dispatch

variable {α : Type} {compute : Tile → Attempt TileError α}

theorem size_step (compute : Tile → Attempt TileError α) (d : Dispatch α) (m : Move) :
    (d.step compute m).batch.size = d.batch.size := by
  rcases step_cases compute d m with hsame | hchange
  · rw [hsame]
  · exact hchange.size_batch

theorem abandoned_step_of_isOwn (compute : Tile → Attempt TileError α) {m : Move}
    (hown : m.isOwn = true) (d : Dispatch α) : (d.step compute m).abandoned = d.abandoned := by
  cases m with
  | cancel | interrupt | abandon => simp [Move.isOwn] at hown
  | collect | release =>
    simp only [step]
    split <;> rfl
  | _ => rfl

theorem collector_step_of_ne (compute : Tile → Attempt TileError α) {m : Move} (hm : m ≠ .collect)
    (d : Dispatch α) : (d.step compute m).collector = d.collector := by
  cases m with
  | collect => exact absurd rfl hm
  | release i =>
    simp only [step]
    split <;> rfl
  | _ => rfl

end Dispatch

/-- What is known of a collector of `n` tiles that has found `looks` when it looked at the engine's
token: before its first look it is on the way there, and it is stopped by the engine's token if and
only if a look has found that it had fired. -/
structure Collector.Watched {α : Type} (looks : List Bool) (n : Nat) (c : Collector α) : Prop where
  unlooked : looks = [] →
    c.stage = .before ∧ c.results.size < n ∨ c.stage = .engineCheck .await
  found : true ∈ looks ↔ c.stage = .stopped .interrupted

namespace Collector.Watched

variable {α : Type} {looks : List Bool} {b : Batch α} {c c' : Collector α}
  {interrupted cancelled : Bool}

theorem start {n : Nat} (hpos : 0 < n) : Watched [] n (Collector.start n : Collector α) :=
  ⟨fun _ => .inl ⟨rfl, hpos⟩, by simp [Collector.start]⟩

theorem turn (h : c.Watched looks b.size) (hturn : c.Turn b interrupted cancelled c') :
    c'.Watched (looks ++ c.look interrupted) b.size := by
  obtain ⟨hunlooked, hfound⟩ := h
  cases hturn with
  | begin hstage hleft =>
    rw [hstage] at hfound
    exact ⟨fun _ => .inr rfl, by simpa [look, hstage] using hfound⟩
  | interrupt hstage htoken => exact ⟨by simp [look, hstage], by simp [look, hstage, htoken]⟩
  | pass hstage htoken =>
    rw [hstage] at hfound
    exact ⟨by simp [look, hstage], by simpa [look, hstage, htoken] using hfound⟩
  | rest hover =>
    have hnone : c.look interrupted = [] := by
      cases hstage : c.stage <;> simp_all [look, Stage.isOver]
    rw [hnone, List.append_nil]
    exact ⟨hunlooked, hfound⟩
  | finish hstage hleft =>
    have hlooked : looks ≠ [] := fun hnone => by simpa [hstage, hleft] using hunlooked hnone
    rw [hstage] at hfound
    exact ⟨by simp [hlooked], by simpa [Collector.look, hstage] using hfound⟩
  | cancel hstage _ | await hstage _ | giveUp hstage _ | advance hstage _ | take hstage _
  | look hstage _ | lose hstage _ =>
    have hlooked : looks ≠ [] := fun hnone => by simpa [hstage] using hunlooked hnone
    rw [hstage] at hfound
    exact ⟨by simp [hlooked], by simpa [Collector.look, hstage] using hfound⟩

end Collector.Watched

/-- The same of the tiles of a call, which are not given up before their collection is over. -/
structure Pending.Watched (looks : List Bool) (p : Pending) : Prop where
  held : p.dispatch.abandoned = false
  collector : p.dispatch.collector.Watched looks p.dispatch.batch.size

namespace Pending.Watched

variable {compute : Tile → Attempt TileError Pixmap} {looks : List Bool} {s : Shared} {job : Job}
  {p : Pending}

theorem start {g : Grid} (hgrid : g.isEmpty = false) (view : Viewport) (listened : Bool) :
    Pending.Watched [] ⟨view, Dispatch.start g listened⟩ := by
  have hpos : 0 < g.size := by simpa [Grid.isEmpty, Nat.pos_iff_ne_zero] using hgrid
  have hsize : (Batch.ofGrid g listened : Batch Pixmap).size = g.size := by
    simp [Batch.size, Batch.ofGrid, Grid.length_tiles]
  exact ⟨rfl, hsize.symm ▸ Collector.Watched.start hpos⟩

theorem collect (h : p.Watched looks) :
    (p.step compute s job .collect).Watched
      (looks ++ p.dispatch.collector.look s.life.interrupted) := by
  have hstep : (p.step compute s job .collect).dispatch =
      { p.dispatch.under s.life.interrupted (s.tokens.isFired job.token) with
        batch := p.dispatch.collector.drain p.dispatch.batch
        collector := p.dispatch.collector.step p.dispatch.batch s.life.interrupted
          (s.tokens.isFired job.token) } := by
    simp [Pending.step, Dispatch.step, Dispatch.under, h.held]
  constructor
  · rw [hstep]
    exact h.held
  · rw [hstep]
    have hwatched := h.collector.turn (p.dispatch.collector.step_turn p.dispatch.batch
      s.life.interrupted (s.tokens.isFired job.token))
    rwa [← Collector.size_drain] at hwatched

theorem work (h : p.Watched looks) {m : Move} (hown : m.isOwn = true) (hm : m ≠ .collect) :
    (p.step compute s job m).Watched looks := by
  refine ⟨(Dispatch.abandoned_step_of_isOwn compute hown _).trans h.held, ?_⟩
  show (Dispatch.step compute _ m).collector.Watched looks (Dispatch.step compute _ m).batch.size
  rw [Dispatch.collector_step_of_ne compute hm, Dispatch.size_step]
  exact h.collector

end Pending.Watched

/-- No move changes what a collection has come to. -/
theorem Pending.answer?_step {compute : Tile → Attempt TileError Pixmap} {s : Shared} {job : Job}
    {p : Pending} (m : Move)
    {answer : Except ScheduleError (List (TileResult Pixmap) × Stats)}
    (hanswer : p.dispatch.collector.answer? = some answer) :
    (p.step compute s job m).dispatch.collector.answer? = some answer := by
  have hsame : (p.step compute s job m).dispatch.collector = p.dispatch.collector := by
    by_cases hm : m = .collect
    · subst hm
      simp only [Pending.step, Dispatch.step]
      split
      · rfl
      · unfold Collector.answer? at hanswer
        cases hstage : p.dispatch.collector.stage <;>
          simp_all [Dispatch.under, Collector.step]
    · exact Dispatch.collector_step_of_ne compute hm _
  rw [hsame, hanswer]

/-- The result of a call whose collection has come to `answer`. -/
inductive Settles {α : Type} : Except ScheduleError α → Attempt RenderError Unit → Prop
  | stop (reason : ScheduleError) :
      Settles (.error reason) (.error (.error (.ofSchedule reason)))
  | spoil (collected : α) (f : Fault) : Settles (.ok collected) (.error (.broke (.ofFault f)))
  | compose (collected : α) : Settles (.ok collected) (.ok ())

/-- The collector of a call has looked at the engine's token as in `looks`, and the result of the
call is what its collection has come to. -/
structure Rendering.Watched (looks : List Bool) (r : Rendering) : Prop where
  unordered : r.station.pending? = none → looks = []
  pending : ∀ p, r.station.pending? = some p → p.Watched looks
  settled : ∀ p result, r.station.pending? = some p → r.station.result? = some result →
    ∃ answer, p.dispatch.collector.answer? = some answer ∧ Settles answer result

namespace Rendering.Watched

variable {e : Engine σ} {compute : Tile → Attempt TileError Pixmap} {looks : List Bool}
  {s : Shared} {r new : Rendering}

theorem ofNew (hnew : r.IsNew) : r.Watched [] := by
  obtain ⟨again, hstation⟩ := hnew.station
  constructor <;> simp [hstation, Station.pending?]

/-- A step that orders no tiles. -/
private theorem goOn (h : r.Watched looks) (hpending : new.station.pending? = r.station.pending?)
    (hsettled : ∀ p result, r.station.pending? = some p → new.station.result? = some result →
      ∃ answer, p.dispatch.collector.answer? = some answer ∧ Settles answer result) :
    new.Watched looks where
  unordered hnone := h.unordered (hpending ▸ hnone)
  pending p hp := h.pending p (hpending ▸ hp)
  settled p result hp := hsettled p result (hpending ▸ hp)

private theorem settle (h : r.Watched looks) {p : Pending} (hstation : r.station = .collecting p)
    {answer : Except ScheduleError (List (TileResult Pixmap) × Stats)}
    (hanswer : p.dispatch.collector.answer? = some answer) :
    (e.settle r p answer).Watched looks := by
  have hpending : r.station.pending? = some p := by rw [hstation]; rfl
  have hsettles : (e.settle r p answer).station.pending? = some p ∧
      ∀ result, (e.settle r p answer).station.result? = some result → Settles answer result := by
    unfold Engine.settle
    split
    · refine ⟨rfl, fun result hresult => ?_⟩
      obtain rfl := Option.some.inj hresult
      exact .stop _
    · split
      · refine ⟨rfl, fun result hresult => ?_⟩
        obtain rfl := Option.some.inj hresult
        exact .spoil _ _
      · refine ⟨rfl, fun result hresult => ?_⟩
        obtain rfl := Option.some.inj hresult
        exact .compose _
  refine h.goOn (hsettles.1.trans hpending.symm) fun p' result hp' hresult => ?_
  obtain rfl : p = p' := Option.some.inj (hpending.symm.trans hp')
  exact ⟨answer, hanswer, hsettles.2 result hresult⟩

private theorem opened (h : r.Watched looks) (hstation : r.station = .entered)
    (haccepted : r.job.Accepted) (n : Nat) : (r.enter (e.opening r.job n)).Watched looks := by
  obtain rfl : looks = [] := h.unordered (by rw [hstation]; rfl)
  unfold Engine.opening
  split
  · constructor <;> simp [enter, Station.pending?]
  · split
    · constructor <;> simp [enter, Station.pending?]
    · rename_i view grid horder
      obtain ⟨area, hvisible, rfl, -⟩ := Engine.order_eq_ok_iff.1 horder
      have hsees := haccepted.sees_of_visible hvisible
      have hgrid : (Grid.covering area e.layout).isEmpty = false :=
        Grid.isEmpty_covering (hsees.isEmpty_eq haccepted) (hsees.ceilDiv_maxX_mem haccepted _)
          (hsees.ceilDiv_maxY_mem haccepted _)
      refine ⟨fun _ => rfl, fun p hp => ?_, fun p result _ hresult => ?_⟩
      · obtain rfl := Option.some.inj hp
        exact .start hgrid view _
      · cases hresult

theorem advance (h : r.Watched looks) (hfits : r.station.isInside = true → r.job.Accepted) :
    (e.advance s r).2.Watched looks := by
  cases hstation : r.station with
  | atGate again =>
    have hpending : r.station.pending? = none := by rw [hstation]; rfl
    simp only [Engine.advance, hstation]
    split
    · exact h.goOn hpending.symm (by simp [hpending])
    · refine h.goOn ?_ (by simp [hpending])
      rw [hpending]
      cases again <;> rfl
  | admitted | raised =>
    have hpending : r.station.pending? = none := by rw [hstation]; rfl
    simp only [Engine.advance, hstation]
    exact h.goOn hpending.symm (by simp [hpending])
  | entered =>
    simp only [Engine.advance, hstation]
    exact h.opened hstation (hfits (by rw [hstation]; rfl)) _
  | collecting p =>
    simp only [Engine.advance, hstation]
    split
    · exact h
    · exact h.settle hstation ‹_›
  | leaving result rest =>
    simp only [Engine.advance, hstation]
    refine h.goOn (by rw [hstation]; rfl) fun p result' hp hresult => ?_
    exact h.settled p result' hp (by rw [hstation]; exact hresult)
  | returned result rest =>
    simp only [Engine.advance, hstation]
    exact h

theorem work (h : r.Watched looks) (m : Move) :
    (r.work compute s m).Watched (looks ++ r.look s m) := by
  cases hpending : r.station.pending? with
  | none => simpa [Rendering.work, look, hpending] using h
  | some p =>
    cases hown : m.isOwn with
    | false =>
      have hm : m ≠ .collect := by
        rintro rfl
        cases hown
      simpa [Rendering.work, hpending, hown, look_of_ne hm] using h
    | true =>
      have hnew : (r.work compute s m) =
          r.enter (r.station.setPending (p.step compute s r.job m)) := by
        simp [Rendering.work, hpending, hown]
      have hthere : (r.work compute s m).station.pending? = some (p.step compute s r.job m) := by
        rw [hnew]
        exact Station.pending?_setPending (by simp [hpending]) _
      refine ⟨fun hnone => ?_, fun p' hp' => ?_, fun p' result hp' hresult => ?_⟩
      · simp [hthere] at hnone
      · obtain rfl := Option.some.inj (hthere.symm.trans hp')
        by_cases hm : m = .collect
        · subst hm
          simpa [look, hpending] using (h.pending p hpending).collect
        · rw [look_of_ne hm, List.append_nil]
          exact (h.pending p hpending).work hown hm
      · obtain rfl := Option.some.inj (hthere.symm.trans hp')
        rw [hnew] at hresult
        have hbefore : r.station.result? = some result :=
          (Station.result?_setPending ..).symm.trans hresult
        obtain ⟨answer, hanswer, hsettles⟩ := h.settled p result hpending hbefore
        exact ⟨answer, Pending.answer?_step m hanswer, hsettles⟩

end Rendering.Watched

section

variable {looks : List Bool} {r : Rendering} {p : Pending} {result : Attempt RenderError Unit}

end

namespace Workshop

variable {e : Engine σ} {compute : Nat → Tile → Attempt TileError Pixmap} {w : Workshop}
  {looks : Nat → List Bool}

/-- What is true of all calls, and of the place of a call that begins, is true of all calls then. -/
theorem forall_calls_begin (Holds : Nat → Option Rendering → Prop) {new : Rendering}
    (h : ∀ k, Holds k w.calls[k]?) (hnew : ∀ k, Holds k none → Holds k (some new)) (k : Nat) :
    Holds k (w.begin new).calls[k]? := by
  have hk := h k
  change Holds k (w.calls ++ [new])[k]?
  rcases Nat.lt_trichotomy k w.calls.length with hlt | rfl | hgt
  · rwa [List.getElem?_append_left hlt]
  · rw [List.getElem?_concat_length]
    rw [List.getElem?_eq_none (Nat.le_refl _)] at hk
    exact hnew _ hk
  · rw [List.getElem?_eq_none (Nat.le_of_lt hgt)] at hk
    rwa [List.getElem?_eq_none (by rw [List.length_append]; exact hgt)]

theorem forall_calls_put (Holds : Nat → Option Rendering → Prop) {j : Nat} {old new : Rendering}
    (hcall : w.calls[j]? = some old) (s : Shared) (hother : ∀ k, k ≠ j → Holds k w.calls[k]?)
    (hnew : Holds j (some new)) (k : Nat) : Holds k (w.put j s new).calls[k]? := by
  rw [getElem?_calls_put hcall]
  split
  · rename_i hk
    exact hk ▸ hnew
  · rename_i hk
    exact hother k (Ne.symm hk)

/-- The looks are those of the calls that there are. -/
def Watched (looks : Nat → List Bool) (w : Workshop) : Prop :=
  ∀ k, (w.calls[k]? = none → looks k = []) ∧ ∀ r, w.calls[k]? = some r → r.Watched (looks k)

private theorem append_look {a : Act} (hother : ∀ j m, a ≠ .work j m) :
    (fun k => looks k ++ w.look k a) = looks := by
  funext k
  unfold look
  split
  · exact absurd rfl (hother _ _)
  · exact List.append_nil _

namespace Watched

private theorem begin (h : w.Watched looks) {new : Rendering} (hnew : new.IsNew) :
    (w.begin new).Watched looks := by
  refine forall_calls_begin (fun k call =>
    (call = none → looks k = []) ∧ ∀ r, call = some r → r.Watched (looks k)) h
    fun k hk => ⟨by simp, fun r hr => ?_⟩
  obtain rfl := Option.some.inj hr
  rw [hk.1 rfl]
  exact .ofNew hnew

private theorem put (h : w.Watched looks) {j : Nat} {old new : Rendering} (s : Shared)
    {found : List Bool} (hcall : w.calls[j]? = some old)
    (hnew : new.Watched (looks j ++ found)) :
    (w.put j s new).Watched (fun k => looks k ++ if j = k then found else []) := by
  refine forall_calls_put (fun k call =>
    (call = none → (looks k ++ if j = k then found else []) = []) ∧
      ∀ r, call = some r → r.Watched (looks k ++ if j = k then found else []))
    hcall s (fun k hk => ?_) ⟨by simp, fun r hr => ?_⟩
  · simpa [Ne.symm hk] using h k
  · obtain rfl := Option.some.inj hr
    simpa using hnew

theorem step (h : w.Watched looks) (hsound : w.Sound e compute) (a : Act) :
    (w.step e compute a).Watched (fun k => looks k ++ w.look k a) := by
  cases a with
  | work j m =>
    simp only [Workshop.step]
    cases hcall : w.calls[j]? with
    | none => simpa [look, hcall] using h
    | some r => simpa [look, hcall] using h.put w.toShared hcall (((h j).2 r hcall).work m)
  | advance j =>
    rw [append_look (by simp)]
    simp only [Workshop.step]
    cases hcall : w.calls[j]? with
    | none => exact h
    | some r =>
      have hfits (hinside : r.station.isInside = true) : r.job.Accepted :=
        (Engine.accepts_eq_ok_iff.1 ((hsound j r hcall).fits hinside)).1
      have hnew : (e.advance w.toShared r).2.Watched (looks j ++ []) := by
        rw [List.append_nil]
        exact ((h j).2 r hcall).advance hfits
      simpa using h.put (e.advance w.toShared r).1 hcall hnew
  | render job =>
    rw [append_look (by simp)]
    exact h.begin ⟨⟨true, rfl⟩, rfl⟩
  | renderInto job target =>
    rw [append_look (by simp)]
    exact h.begin ⟨⟨false, rfl⟩, rfl⟩
  | fire t =>
    rw [append_look (by simp)]
    exact h
  | takePool =>
    rw [append_look (by simp)]
    exact h
  | interrupt =>
    rw [append_look (by simp)]
    simp only [Workshop.step]
    split <;> exact h

end Watched

end Workshop

/-! ### A call that has not looked yet -/

/-- The tiles of a call with the tokens as they are now. -/
def Pending.seen (s : Shared) (job : Job) (p : Pending) : Dispatch Pixmap :=
  p.dispatch.under s.life.interrupted (s.tokens.isFired job.token)

/-- The engine's token has fired before the collector has looked at it, and it will be seen within
`n` steps of the collector. -/
structure Pending.Forestalled (n : Nat) (s : Shared) (job : Job) (p : Pending) : Prop where
  held : p.dispatch.abandoned = false
  forestalled : (p.seen s job).Forestalled
  near : (p.seen s job).stepsLeft ≤ n

namespace Pending.Forestalled

variable {compute : Tile → Attempt TileError Pixmap} {s s' : Shared} {job : Job} {p : Pending}
  {n : Nat}

theorem later (h : p.Forestalled n s job) (hlater : s.Later s') : p.Forestalled n s' job where
  held := h.held
  forestalled := ⟨hlater.interrupted h.forestalled.fired, h.forestalled.stage⟩
  near := Nat.le_trans
    (p.dispatch.collector.stage.stepsLeft_anti hlater.interrupted (hlater.fired job.token)) h.near

/-- Every step of the collector counts. -/
theorem step (h : p.Forestalled n s job) {m : Move} (hown : m.isOwn = true) :
    (p.step compute s job m).Forestalled (n - [m].count .collect) s job := by
  obtain ⟨hcancelled, hinterrupted⟩ := Dispatch.tokens_step_of_isOwn compute hown (p.seen s job)
  have hheld : ((p.seen s job).step compute m).abandoned = false :=
    (Dispatch.abandoned_step_of_isOwn compute hown _).trans h.held
  have hseen : (p.step compute s job m).seen s job = (p.seen s job).step compute m := by
    show Dispatch.under s.life.interrupted (s.tokens.isFired job.token) _ = _
    rw [← show (p.seen s job).interrupted = s.life.interrupted from rfl,
      ← show (p.seen s job).cancelled = s.tokens.isFired job.token from rfl,
      ← hcancelled, ← hinterrupted]
    rfl
  refine ⟨hheld, ?_, ?_⟩
  · rw [hseen]
    rcases Dispatch.step_cases compute (p.seen s job) m with hsame | hchange
    · rw [hsame]
      exact h.forestalled
    · exact h.forestalled.change hchange
  · rw [hseen]
    have hrun : ((p.seen s job).step compute m).stepsLeft ≤ _ :=
      Dispatch.stepsLeft_run ⟨.interrupted, h.forestalled.fired⟩ [m] hheld
    have hnear := h.near
    omega

theorem mono {n' : Nat} (h : p.Forestalled n s job) (hle : n ≤ n') : p.Forestalled n' s job :=
  ⟨h.held, h.forestalled, Nat.le_trans h.near hle⟩

end Pending.Forestalled

/-- The same of a call that has ordered its tiles. -/
def Rendering.Forestalled (n : Nat) (s : Shared) (r : Rendering) : Prop :=
  ∃ p, r.station.pending? = some p ∧ p.Forestalled n s r.job

namespace Rendering

variable {e : Engine σ} {compute : Tile → Attempt TileError Pixmap} {s s' : Shared}
  {r new : Rendering} {n : Nat}

theorem Forestalled.collect (h : r.Forestalled n s) :
    (r.work compute s .collect).Forestalled (n - 1) s := by
  obtain ⟨p, hpending, hp⟩ := h
  refine ⟨p.step compute s r.job .collect, ?_, ?_⟩
  · simp only [Rendering.work, hpending]
    exact Station.pending?_setPending (by simp [hpending]) _
  · simp only [Rendering.work, hpending]
    exact hp.step (m := .collect) rfl

theorem Turn.forestalled (hturn : r.Turn e compute s s' new) (h : r.Forestalled n s) :
    new.Forestalled n s' := by
  obtain ⟨p, hpending, hp⟩ := h
  have hlater := hp.later hturn.later
  cases hturn with
  | @work p' m hpending' hown =>
    obtain rfl : p' = p := Option.some.inj (hpending'.symm.trans hpending)
    refine ⟨p'.step compute s r.job m, Station.pending?_setPending (by simp [hpending]) _, ?_⟩
    exact (hp.step hown).mono (Nat.sub_le ..)
  | stop hstation _ | spoil hstation _ _ | compose hstation _ _ | leave hstation =>
    rw [hstation] at hpending
    exact ⟨p, hpending, hlater⟩
  | refuse hstation _ | pass hstation _ | welcome hstation _ | raise hstation | mark hstation
  | unprepared hstation _ | crowded hstation _ _ | scatter hstation _ _ =>
    simp [hstation, Station.pending?] at hpending

theorem Turn.hasReturned (hturn : r.Turn e compute s s' new)
    (hreturned : r.station.hasReturned = true) : new.station.hasReturned = true := by
  cases hturn with
  | work hpending hown => exact (Station.hasReturned_setPending ..).trans hreturned
  | leave _ | refuse _ _ => rfl
  | pass hstation _ | welcome hstation _ | raise hstation | mark hstation | unprepared hstation _
  | crowded hstation _ _ | scatter hstation _ _ | stop hstation _ | spoil hstation _ _
  | compose hstation _ _ => simp [hstation, Station.hasReturned] at hreturned

end Rendering

namespace Workshop

variable {e : Engine σ} {compute : Nat → Tile → Attempt TileError Pixmap} {w : Workshop} {k : Nat}
  {r : Rendering} {n : Nat}

end Workshop

end WorldMap
