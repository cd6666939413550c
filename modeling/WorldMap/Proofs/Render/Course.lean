import WorldMap.Proofs.Render.Looks
import WorldMap.Proofs.Schedule.Begun
/-!
# What a call does outside of itself

Before a call has a result it has looked whether the engine is open, and may have prepared the source
and asked it for volumes. A history lists these effects in the order in which they come, each with the
call that it belongs to. `Rendering.Course` tells from where a call stands what it has done: it looks
at every gate that it comes to, prepares the source once if it passes them, and from then on asks for
what the computations ask for that its tasks begin. Every step of a workshop keeps that, so what is
said of one call does not depend on the others.

`ask k t` is the computation of tile `t` in call `k`, with the volumes that it asks the source for.
-/

namespace WorldMap

variable {σ : Type}

/-- A look whether the engine is open and what it found, a preparation of the source and its answer,
or the question for a volume. -/
inductive Effect
  | look (isOpen : Bool)
  | prepare (answer : Attempt SourceError Unit)
  | query (v : Volume)

namespace Effect

@[simp] def look? : Effect → Option Bool
  | look isOpen => some isOpen
  | _ => none

@[simp] def prepare? : Effect → Option (Attempt SourceError Unit)
  | prepare answer => some answer
  | _ => none

@[simp] def query? : Effect → Option Volume
  | query v => some v
  | _ => none

/-- The looks among some effects. -/
def looks (effects : List Effect) : List Bool := effects.filterMap look?

def prepares (effects : List Effect) : List (Attempt SourceError Unit) :=
  effects.filterMap prepare?

def queries (effects : List Effect) : List Volume := effects.filterMap query?

section

variable (x : Effect) (left right : List Effect) (n : Nat) (isOpen : Bool) (vs : List Volume)

@[simp] theorem looks_nil : looks [] = [] := rfl

@[simp] theorem prepares_nil : prepares [] = [] := rfl

@[simp] theorem queries_nil : queries [] = [] := rfl

@[simp] theorem looks_cons : looks (x :: left) = x.look?.toList ++ looks left := by
  cases x <;> rfl

@[simp] theorem prepares_cons : prepares (x :: left) = x.prepare?.toList ++ prepares left := by
  cases x <;> rfl

@[simp] theorem queries_cons : queries (x :: left) = x.query?.toList ++ queries left := by
  cases x <;> rfl

@[simp] theorem looks_append : looks (left ++ right) = looks left ++ looks right :=
  List.filterMap_append

@[simp] theorem queries_append : queries (left ++ right) = queries left ++ queries right :=
  List.filterMap_append

@[simp] theorem looks_replicate :
    looks (List.replicate n (look isOpen)) = List.replicate n isOpen :=
  List.filterMap_replicate_of_some rfl

@[simp] theorem prepares_replicate : prepares (List.replicate n (look isOpen)) = [] :=
  List.filterMap_replicate_of_none rfl

@[simp] theorem queries_replicate : queries (List.replicate n (look isOpen)) = [] :=
  List.filterMap_replicate_of_none rfl

@[simp] theorem looks_map_query : looks (vs.map query) = [] := by
  simp [looks]

@[simp] theorem prepares_map_query : prepares (vs.map query) = [] := by
  simp [prepares]

@[simp] theorem queries_map_query : queries (vs.map query) = vs := by
  simp [queries, List.filterMap_map, Function.comp_def]

end

end Effect

/-- What the next step of a call does outside of it. -/
def Engine.effects (e : Engine σ) (s : Shared) (r : Rendering) : List Effect :=
  match r.station with
  | .atGate _ => [.look s.life.hasPool]
  | .entered => [.prepare (e.source.prepare (s.prepared + 1))]
  | _ => []

/-- What the source is asked for by the computation that a move in a call begins. -/
def Rendering.asks (ask : Tile → Inquiry (Attempt TileError Pixmap)) (s : Shared) (r : Rendering)
    (m : Move) : List Volume :=
  match r.station.pending? with
  | none => []
  | some p =>
    ((p.dispatch.under s.life.interrupted (s.tokens.isFired r.job.token)).starts m).flatMap
      fun t => (ask t).asked

namespace Workshop

/-- What an act does outside of the call that it is of. -/
def effects (e : Engine σ) (ask : Nat → Tile → Inquiry (Attempt TileError Pixmap)) (w : Workshop) :
    Act → List (Nat × Effect)
  | .advance k => ((w.calls[k]?.map (e.effects w.toShared)).getD []).map (k, ·)
  | .work k m =>
    ((w.calls[k]?.map (·.asks (ask k) w.toShared m)).getD []).map fun v => (k, .query v)
  | _ => []

end Workshop

/-- What call `k` has done. -/
def ofCall (k : Nat) (log : List (Nat × Effect)) : List Effect :=
  log.filterMap fun entry => if entry.1 = k then some entry.2 else none

theorem ofCall_append (k : Nat) (left right : List (Nat × Effect)) :
    ofCall k (left ++ right) = ofCall k left ++ ofCall k right :=
  List.filterMap_append

theorem ofCall_map (j k : Nat) (own : List Effect) :
    ofCall k (own.map (j, ·)) = if j = k then own else [] := by
  induction own with
  | nil => simp [ofCall]
  | cons x own ih =>
    simp only [ofCall, List.map_cons, List.filterMap_cons] at ih ⊢
    by_cases hk : j = k <;> simp_all

/-! ### Where a call stands and what it has done -/

/-- The volumes that have been asked for. -/
def Pending.asked (ask : Tile → Inquiry (Attempt TileError Pixmap)) (p : Pending) : List Volume :=
  p.dispatch.begun.flatMap fun t => (ask t).asked

/-- What a call has done by the time that it stands where it does. -/
inductive Rendering.Course (ask : Tile → Inquiry (Attempt TileError Pixmap)) (r : Rendering) :
    List Effect → Prop
  | arriving {again : Bool} (hstation : r.station = .atGate again) (n : Nat) :
      Course ask r (List.replicate n (.look true))
  | turnedAway (hstation : r.station = .returned (.error (.error .engineClosed)) none) (n : Nat) :
      Course ask r (List.replicate n (.look true) ++ [.look false])
  | refused {f : RenderError} (hstation : r.station = .returned (.error (.error f)) none)
      (hrefused : Engine.accepts r.job r.original.width r.original.height = .error f) (n : Nat) :
      Course ask r (List.replicate (n + 1) (.look true))
  | inside (hinside : r.station.isInside = true) (hpending : r.station.pending? = none) (n : Nat) :
      Course ask r (List.replicate (n + 1) (.look true))
  | unprepared {f : Failure SourceError}
      (hresult : r.station.result? = some (.error (f.map .source)))
      (hpending : r.station.pending? = none)
      (haccepts : Engine.accepts r.job r.original.width r.original.height = .ok ()) (n : Nat) :
      Course ask r (List.replicate (n + 1) (.look true) ++ [.prepare (.error f)])
  | crowded {b : Breakdown} (hresult : r.station.result? = some (.error (.broke b)))
      (hpending : r.station.pending? = none)
      (haccepts : Engine.accepts r.job r.original.width r.original.height = .ok ()) (n : Nat) :
      Course ask r (List.replicate (n + 1) (.look true) ++ [.prepare (.ok ())])
  | ordered {p : Pending} (hpending : r.station.pending? = some p)
      (haccepts : Engine.accepts r.job r.original.width r.original.height = .ok ()) (n : Nat) :
      Course ask r
        (List.replicate (n + 1) (.look true) ++ .prepare (.ok ()) :: (p.asked ask).map .query)

namespace Pending.Serves

variable {e : Engine σ} {compute : Tile → Attempt TileError Pixmap} {s : Shared} {job : Job}
  {p : Pending}

/-- The tiles of a call are sound for the grid that its job shows, also with the tokens as they are
now. -/
theorem exists_sound (h : p.Serves e compute s job) :
    ∃ area, job.visible = .ok (p.view, area) ∧
      p.dispatch.Sound compute (Grid.covering area e.layout) ∧
      (p.dispatch.under s.life.interrupted (s.tokens.isFired job.token)).Sound compute
        (Grid.covering area e.layout) := by
  obtain ⟨area, moves, hvisible, hrun⟩ := h.run
  obtain ⟨look, hlook⟩ := Dispatch.exists_run_eq_under compute h.interrupted h.cancelled
  refine ⟨area, hvisible, ?_, ?_⟩
  · rw [hrun]
    exact Dispatch.run_sound compute _ _ moves
  · rw [← hlook, hrun, ← Dispatch.run_append]
    exact Dispatch.run_sound compute _ _ (moves ++ look)

theorem asked_step (h : p.Serves e compute s job)
    (ask : Tile → Inquiry (Attempt TileError Pixmap)) (m : Move) :
    (p.step compute s job m).asked ask = p.asked ask ++
      ((p.dispatch.under s.life.interrupted (s.tokens.isFired job.token)).starts m).flatMap
        fun t => (ask t).asked := by
  obtain ⟨area, -, -, hsound⟩ := h.exists_sound
  rw [Pending.asked, Pending.step, hsound.tasks.begun_step m, List.flatMap_append]
  rfl

end Pending.Serves

namespace Rendering.Course

variable {e : Engine σ} {compute : Tile → Attempt TileError Pixmap}
  {ask : Tile → Inquiry (Attempt TileError Pixmap)} {s : Shared} {r new : Rendering}
  {own : List Effect}

theorem ofNew (hnew : r.IsNew) : r.Course ask [] := by
  obtain ⟨again, hstation⟩ := hnew.station
  exact .arriving hstation 0

theorem exists_of_atGate (h : r.Course ask own) {again : Bool} (hstation : r.station = .atGate again) :
    ∃ n, own = List.replicate n (.look true) := by
  cases h with
  | arriving _ n => exact ⟨n, rfl⟩
  | turnedAway hstation' | refused hstation' => simp [hstation] at hstation'
  | inside hinside => simp [hstation, Station.isInside] at hinside
  | unprepared hresult | crowded hresult => simp [hstation, Station.result?] at hresult
  | ordered hpending => simp [hstation, Station.pending?] at hpending

theorem exists_of_inside (h : r.Course ask own) (hinside : r.station.isInside = true)
    (hnone : r.station.pending? = none) : ∃ n, own = List.replicate (n + 1) (.look true) := by
  cases h with
  | inside _ _ n => exact ⟨n, rfl⟩
  | arriving hstation | turnedAway hstation | refused hstation =>
    simp [hstation, Station.isInside] at hinside
  | unprepared hresult | crowded hresult =>
    cases hstation : r.station <;> simp_all [Station.isInside, Station.result?]
  | ordered hpending => simp [hnone] at hpending

theorem exists_of_pending (h : r.Course ask own) {p : Pending}
    (hpending : r.station.pending? = some p) :
    Engine.accepts r.job r.original.width r.original.height = .ok () ∧
      ∃ n, own =
        List.replicate (n + 1) (.look true) ++ .prepare (.ok ()) :: (p.asked ask).map .query := by
  cases h with
  | ordered hordered haccepts n =>
    obtain rfl := Option.some.inj (hpending.symm.trans hordered)
    exact ⟨haccepts, n, rfl⟩
  | arriving hstation | turnedAway hstation | refused hstation =>
    simp [hstation, Station.pending?] at hpending
  | inside _ hnone | unprepared _ hnone | crowded _ hnone => simp [hnone] at hpending

private theorem arrive (h : r.Course ask own) (hsound : r.Sound e compute s) {again : Bool}
    (hstation : r.station = .atGate again) :
    (e.advance s r).2.Course ask (own ++ e.effects s r) := by
  obtain ⟨n, rfl⟩ := h.exists_of_atGate hstation
  have hkept : r.target = r.original := hsound.kept (by simp [hstation, Station.result?])
  simp only [Engine.effects, Engine.advance, hstation, Engine.gate, hkept]
  cases hpool : s.life.hasPool with
  | false => exact .turnedAway rfl n
  | true =>
    rw [← List.replicate_succ']
    cases haccepts : Engine.accepts r.job r.original.width r.original.height with
    | error f => exact refused (r := r.enter (.returned (.error (.error f)) none)) rfl haccepts n
    | ok u =>
      cases again with
      | true => exact .arriving rfl (n + 1)
      | false => exact .inside rfl rfl n

private theorem opened (h : r.Course ask own) (hsound : r.Sound e compute s)
    (hstation : r.station = .entered) :
    (r.enter (e.opening r.job (s.prepared + 1))).Course ask
      (own ++ [.prepare (e.source.prepare (s.prepared + 1))]) := by
  obtain ⟨n, rfl⟩ := h.exists_of_inside (by rw [hstation]; rfl) (by rw [hstation]; rfl)
  have haccepts := hsound.fits (by rw [hstation]; rfl)
  unfold Engine.opening
  cases hprepare : e.source.prepare (s.prepared + 1) with
  | error f =>
    exact unprepared (r := r.enter (.leaving (.error (f.map .source)) none)) rfl rfl haccepts n
  | ok u =>
    dsimp only [Attempt.mapFailure, Except.mapError]
    cases e.order r.job with
    | error f =>
      exact crowded (r := r.enter (.leaving (.error (.broke (.ofFault f))) none)) rfl rfl haccepts n
    | ok order => exact ordered (r := r.enter (.collecting _)) rfl haccepts n

/-- A call that has ordered its tiles goes on with them. -/
private theorem goOn (h : r.Course ask own) {p : Pending} (hpending : r.station.pending? = some p)
    (hjob : new.job = r.job) (horiginal : new.original = r.original)
    (hpending' : new.station.pending? = some p) : new.Course ask own := by
  obtain ⟨haccepts, n, rfl⟩ := h.exists_of_pending hpending
  exact .ordered hpending' (by rwa [hjob, horiginal]) n

/-- A step of a call adds to its course what it does. -/
theorem advance (h : r.Course ask own) (hsound : r.Sound e compute s) :
    (e.advance s r).2.Course ask (own ++ e.effects s r) := by
  cases hstation : r.station with
  | atGate again => exact h.arrive hsound hstation
  | admitted | raised =>
    obtain ⟨n, rfl⟩ := h.exists_of_inside (by rw [hstation]; rfl) (by rw [hstation]; rfl)
    simp only [Engine.advance, Engine.effects, hstation, List.append_nil]
    exact .inside rfl rfl n
  | entered =>
    simp only [Engine.advance, Engine.effects, hstation]
    exact h.opened hsound hstation
  | collecting p =>
    have hpending : r.station.pending? = some p := by rw [hstation]; rfl
    simp only [Engine.advance, Engine.effects, hstation, List.append_nil]
    split
    · exact h
    · unfold Engine.settle
      split
      · exact h.goOn hpending rfl rfl rfl
      · split <;> exact h.goOn hpending rfl rfl rfl
  | leaving result rest =>
    simp only [Engine.advance, Engine.effects, hstation, List.append_nil]
    cases h with
    | unprepared hresult hpending haccepts n =>
      rw [hstation] at hresult hpending
      exact unprepared (r := r.enter (.returned result rest)) hresult hpending haccepts n
    | crowded hresult hpending haccepts n =>
      rw [hstation] at hresult hpending
      exact crowded (r := r.enter (.returned result rest)) hresult hpending haccepts n
    | ordered hpending haccepts n =>
      rw [hstation] at hpending
      exact ordered (r := r.enter (.returned result rest)) hpending haccepts n
    | inside hinside => simp [hstation, Station.isInside] at hinside
    | arriving hstation' | turnedAway hstation' | refused hstation' => simp [hstation] at hstation'
  | returned result rest =>
    simp only [Engine.advance, Engine.effects, hstation, List.append_nil]
    exact h

/-- A move in a call adds to its course what the call asks for by it. -/
theorem work (h : r.Course ask own) (hsound : r.Sound e compute s) (m : Move) :
    (r.work compute s m).Course ask (own ++ (r.asks ask s m).map .query) := by
  cases hpending : r.station.pending? with
  | none => simpa [Rendering.work, Rendering.asks, hpending] using h
  | some p =>
    simp only [Rendering.asks, hpending]
    cases hown : m.isOwn with
    | false =>
      -- the move is not made, and it is not the check of a task
      have hnone : Dispatch.starts (p.dispatch.under s.life.interrupted
          (s.tokens.isFired r.job.token)) m = [] := by
        cases m <;> simp_all [Move.isOwn, Dispatch.starts]
      simpa [Rendering.work, hpending, hown, hnone] using h
    | true =>
      obtain ⟨haccepts, n, rfl⟩ := h.exists_of_pending hpending
      have hthere : (r.enter (r.station.setPending (p.step compute s r.job m))).station.pending?
          = some (p.step compute s r.job m) := Station.pending?_setPending (by simp [hpending]) _
      have hcourse : Course ask _ _ := ordered hthere haccepts n
      rw [(hsound.serves p hpending).asked_step ask m, List.map_append, ← List.cons_append,
        ← List.append_assoc] at hcourse
      simpa only [Rendering.work, hpending, hown, if_true] using hcourse

end Rendering.Course

/-! ### All calls -/

namespace Workshop

variable {e : Engine σ} {ask : Nat → Tile → Inquiry (Attempt TileError Pixmap)} {w : Workshop}
  {log : List (Nat × Effect)}

/-- A call has done what its course says, and one that there is not has done nothing. -/
def Followed (ask : Nat → Tile → Inquiry (Attempt TileError Pixmap)) (log : List (Nat × Effect))
    (w : Workshop) : Prop :=
  ∀ k, (w.calls[k]? = none → ofCall k log = []) ∧
    ∀ r, w.calls[k]? = some r → r.Course (ask k) (ofCall k log)

namespace Followed

private theorem begin (h : w.Followed ask log) {new : Rendering} (hnew : new.IsNew) :
    (w.begin new).Followed ask log := by
  refine forall_calls_begin (fun k call =>
    (call = none → ofCall k log = []) ∧ ∀ r, call = some r → r.Course (ask k) (ofCall k log)) h
    fun k hk => ⟨by simp, fun r hr => ?_⟩
  obtain rfl := Option.some.inj hr
  rw [hk.1 rfl]
  exact .ofNew hnew

private theorem put (h : w.Followed ask log) {j : Nat} {old new : Rendering} (s : Shared)
    {own : List Effect} (hcall : w.calls[j]? = some old)
    (hnew : new.Course (ask j) (ofCall j log ++ own)) :
    (w.put j s new).Followed ask (log ++ own.map (j, ·)) := by
  refine forall_calls_put (fun k call =>
    (call = none → ofCall k (log ++ own.map (j, ·)) = []) ∧
      ∀ r, call = some r → r.Course (ask k) (ofCall k (log ++ own.map (j, ·))))
    hcall s (fun k hk => ?_) ⟨by simp, fun r hr => ?_⟩
  · rw [ofCall_append, ofCall_map, if_neg (Ne.symm hk), List.append_nil]
    exact h k
  · obtain rfl := Option.some.inj hr
    rwa [ofCall_append, ofCall_map, if_pos rfl]

theorem step (h : w.Followed ask log) (hsound : w.Sound e fun k t => (ask k t).result)
    (a : Act) :
    (w.step e (fun k t => (ask k t).result) a).Followed ask (log ++ w.effects e ask a) := by
  cases a with
  | advance k =>
    simp only [Workshop.step, effects]
    cases hcall : w.calls[k]? with
    | none => simpa using h
    | some r => exact h.put _ hcall (((h k).2 r hcall).advance (hsound k r hcall))
  | work k m =>
    simp only [Workshop.step, effects]
    cases hcall : w.calls[k]? with
    | none => simpa using h
    | some r =>
      have hnew := h.put w.toShared hcall (((h k).2 r hcall).work (hsound k r hcall) m)
      rwa [List.map_map] at hnew
  | render job =>
    simp only [effects, List.append_nil]
    exact h.begin ⟨⟨true, rfl⟩, rfl⟩
  | renderInto job target =>
    simp only [effects, List.append_nil]
    exact h.begin ⟨⟨false, rfl⟩, rfl⟩
  | fire t | takePool =>
    simp only [effects, List.append_nil]
    exact h
  | interrupt =>
    simp only [effects, List.append_nil, Workshop.step]
    split <;> exact h

end Followed

end Workshop

/-! ### How often the source is prepared -/

namespace Engine

variable {e : Engine σ}

end Engine

/-- What was done, whichever calls did it. -/
def allOf (log : List (Nat × Effect)) : List Effect := log.map (·.2)

@[simp] theorem allOf_map (k : Nat) (own : List Effect) : allOf (own.map (k, ·)) = own := by
  simp [allOf, Function.comp_def]

namespace Workshop

variable {e : Engine σ} {w : Workshop}

end Workshop

end WorldMap
