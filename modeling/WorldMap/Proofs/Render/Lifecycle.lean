import Mathlib.Data.List.Induction
import WorldMap.Proofs.Render.Outcome
/-!
# The life of an engine

What an engine's state is depends on three things that change at different times: the pool, the
number of active renders, and the note that there was one. `Lifecycle.stateOver` is a look at the
state that finds each of them as it is at another moment, in the order in which they are looked at,
so what is proved of it holds of a look with any number of acts in between.

How far a call has come is a number, `Station.progress`, that no act lowers. A call that is refused
at its gates stays at zero, and whatever it does leaves all that is shared as it was; a call past
its gates is counted from the second step to the last but one, and noted from the third step on. The
state of an engine on which nothing is under way can be read off the numbers of its calls.
-/

namespace WorldMap

variable {σ : Type}

/-- A look at the state that finds the pool as in `pool`, the active renders as in `counter` and the
note of a render as in `note`. -/
def Lifecycle.stateOver (pool counter note : Lifecycle) : EngineState :=
  Lifecycle.state ⟨pool.hasPool, pool.interrupted, counter.active, note.hasRendered⟩

namespace Lifecycle

variable {l pool counter note : Lifecycle}

theorem state_eq_closed_iff : l.state = .closed ↔ l.hasPool = false := by
  unfold state
  cases l.hasPool with
  | false => simp
  | true =>
    simp only [Bool.not_true, Bool.false_eq_true, if_false, iff_false, reduceCtorEq]
    split
    · simp
    · split <;> simp

theorem stateOver_of_active (hactive : 0 < counter.active) (note : Lifecycle) :
    stateOver pool counter note = if pool.hasPool then .rendering else .closed := by
  cases hpool : pool.hasPool <;> simp [stateOver, state, hpool, hactive]

theorem stateOver_ne_constructed (h : 0 < counter.active ∨ note.hasRendered = true) :
    stateOver pool counter note ≠ .constructed := by
  rcases Nat.eq_zero_or_pos counter.active with hzero | hactive
  · have hnoted : note.hasRendered = true := by simpa [hzero] using h
    cases hpool : pool.hasPool <;> simp [stateOver, state, hpool, hzero, hnoted]
  · rw [stateOver_of_active hactive]
    split <;> simp

end Lifecycle

/-! ### How far a call has come -/

/-- Whether the error is that of a call that was refused at its gates. -/
def RenderError.isRefusal : RenderError → Bool
  | engineClosed => true
  | invalidGeometry _ _ _ _ => true
  | _ => false

/-- Whether the result is that of a call that was refused at its gates. -/
def Attempt.isRefusal {α : Type} : Attempt RenderError α → Bool
  | .error (.error f) => f.isRefusal
  | _ => false

theorem Engine.isRefusal_of_gate {l : Lifecycle} {job : Job} {width height : Nat} {f : RenderError}
    (h : gate l job width height = .error f) : f.isRefusal = true := by
  unfold gate at h
  split at h
  · obtain ⟨problem, rfl⟩ := exists_problem_of_accepts h
    rfl
  · obtain rfl : RenderError.engineClosed = f := Except.error.inj h
    rfl

namespace Station

def hasReturned : Station → Bool
  | .returned _ _ => true
  | _ => false

/-- The steps that a call has taken since it stood at its gates; none if it was refused there. -/
def progress : Station → Nat
  | .atGate _ => 0
  | .admitted => 1
  | .raised => 2
  | .entered => 3
  | .collecting _ => 4
  | .leaving result _ => if Attempt.isRefusal result then 0 else 5
  | .returned result _ => if Attempt.isRefusal result then 0 else 6

/-- Code of the source, of a layer or of the listener is running for the call: it prepares the
source, computes a tile, or is told of one that was counted and not sent yet. -/
inductive Calls : Station → Prop
  | prepare : Calls .entered
  | compute {st : Station} {p : Pending} {i : Nat} (hpending : st.pending? = some p)
      (hphase : p.dispatch.batch.phase i = .computing) : Calls st
  | notify {st : Station} {p : Pending} {i n : Nat} {r : Except TileError Pixmap}
      (hpending : st.pending? = some p)
      (hphase : p.dispatch.batch.phase i = .counted r n ∨ p.dispatch.batch.phase i = .reported r) :
      Calls st

variable {st : Station}

@[simp] theorem progress_setPending (st : Station) (p : Pending) :
    (st.setPending p).progress = st.progress := by
  cases st <;> rfl

@[simp] theorem hasReturned_setPending (st : Station) (p : Pending) :
    (st.setPending p).hasReturned = st.hasReturned := by
  cases st <;> rfl

theorem isActive_or_hasReturned_of_pending (h : st.pending?.isSome = true) :
    st.isActive = true ∨ st.hasReturned = true := by
  cases st <;> simp_all [pending?, isActive, hasReturned]

theorem Calls.isActive_or_hasReturned (h : st.Calls) :
    st.isActive = true ∨ st.hasReturned = true := by
  cases h with
  | prepare => exact .inl rfl
  | compute hpending _ | notify hpending _ =>
    exact isActive_or_hasReturned_of_pending (by rw [hpending]; rfl)

/-- A call that has entered is counted until it returns. -/
theorem isActive_or_progress_eq (h : 2 ≤ st.progress) : st.isActive = true ∨ st.progress = 6 := by
  cases st with
  | atGate | admitted => simp [progress] at h
  | raised | entered | collecting | leaving => exact .inl rfl
  | returned result rest =>
    right
    simp only [progress] at h ⊢
    split at h
    · omega
    · rw [if_neg ‹_›]

theorem progress_of_hasReturned (h : st.hasReturned = true) :
    st.progress = 0 ∨ st.progress = 6 := by
  cases st with
  | returned result rest =>
    simp only [progress]
    split
    · exact .inl rfl
    · exact .inr rfl
  | _ => simp [hasReturned] at h

end Station

namespace Rendering

variable {e : Engine σ} {compute : Tile → Attempt TileError Pixmap} {s s' : Shared}
  {r new : Rendering}

/-- No act takes a call back. -/
theorem Turn.progress_le (h : r.Turn e compute s s' new) :
    r.station.progress ≤ new.station.progress := by
  cases h with
  | work hpending hown => exact Nat.le_of_eq (Station.progress_setPending ..).symm
  | leave hstation =>
    rw [hstation]
    simp only [Station.progress, enter]
    split <;> omega
  | @unprepared f hstation hprepare =>
    rw [hstation]
    cases f <;>
      simp [Station.progress, Attempt.isRefusal, enter, Failure.map, RenderError.isRefusal]
  | @stop p reason hstation hanswer =>
    rw [hstation]
    cases reason <;>
      simp [Station.progress, Attempt.isRefusal, enter, RenderError.ofSchedule,
        RenderError.isRefusal]
  | refuse hstation _ | pass hstation _ | welcome hstation _ | raise hstation | mark hstation
  | crowded hstation _ _ | scatter hstation _ _ | spoil hstation _ _ | compose hstation _ _ =>
    rw [hstation]
    simp [Station.progress, Attempt.isRefusal, enter]

/-- A call stands at its gates, was refused there, or has passed them. -/
inductive Stands (r : Rendering) : Prop
  | atGate {again : Bool} (hstation : r.station = .atGate again)
  | refused {f : RenderError} (hrefusal : f.isRefusal = true)
      (hstation : r.station = .returned (.error (.error f)) none)
  | past (hprogress : 1 ≤ r.station.progress)

theorem IsNew.stands (h : r.IsNew) : r.Stands := by
  obtain ⟨again, hstation⟩ := h.station
  exact .atGate hstation

theorem Turn.stands (hturn : r.Turn e compute s s' new) (h : r.Stands) : new.Stands := by
  cases h with
  | atGate hstation =>
    cases hturn with
    | refuse _ hgate => exact .refused (Engine.isRefusal_of_gate hgate) rfl
    | pass _ _ => exact .atGate rfl
    | welcome _ _ => exact .past (Nat.le_refl 1)
    | work hpending _ => simp [hstation, Station.pending?] at hpending
    | _ => simp_all
  | refused hrefusal hstation =>
    cases hturn with
    | work hpending _ => simp [hstation, Station.pending?] at hpending
    | _ => simp_all
  | past hprogress => exact .past (Nat.le_trans hprogress hturn.progress_le)

/-- Before a call has passed its gates it does nothing to what is shared. -/
theorem Turn.shared_eq (hturn : r.Turn e compute s s' new) (h : r.Stands)
    (hprogress : r.station.progress = 0) : s' = s := by
  cases h with
  | past hpast => omega
  | atGate hstation => cases hturn <;> simp_all
  | refused hrefusal hstation => cases hturn <;> simp_all

/-- The gates are passed in one act, and with it a call is admitted. -/
theorem Turn.admitted (hturn : r.Turn e compute s s' new) (hbefore : r.station.progress = 0)
    (hafter : 1 ≤ new.station.progress) : new.station = .admitted := by
  have hsame : ∀ p, (r.station.setPending p).progress = 0 := fun p => by
    rw [Station.progress_setPending, hbefore]
  cases hturn with
  | welcome _ _ => rfl
  | pass _ _ => simp [enter, Station.progress] at hafter
  | refuse _ hgate =>
    simp [enter, Station.progress, Attempt.isRefusal, Engine.isRefusal_of_gate hgate] at hafter
  | leave hstation =>
    rw [hstation] at hbefore
    simp_all [enter, Station.progress]
  | work hpending hown => simp [enter, hsame] at hafter
  | raise hstation | mark hstation | unprepared hstation _ | crowded hstation _ _
  | scatter hstation _ _ | stop hstation _ | spoil hstation _ _ | compose hstation _ _ =>
    simp [hstation, Station.progress] at hbefore

/-- That there was a render is noted by the calls that come to their third step. -/
theorem Turn.hasRendered_iff (hturn : r.Turn e compute s s' new) :
    s'.life.hasRendered = true ↔
      s.life.hasRendered = true ∨ r.station.progress < 3 ∧ 3 ≤ new.station.progress := by
  cases hturn with
  | work hpending hown =>
    have hnone : ¬ (r.station.progress < 3 ∧ 3 ≤ r.station.progress) := by omega
    simp only [enter, Station.progress_setPending, hnone, or_false]
  | refuse _ hgate =>
    simp [enter, Station.progress, Attempt.isRefusal, Engine.isRefusal_of_gate hgate]
  | leave hstation =>
    rw [hstation]
    simp only [enter, Station.progress, Lifecycle.leave]
    split <;> simp
  | pass hstation _ | welcome hstation _ | raise hstation | mark hstation
  | unprepared hstation _ | crowded hstation _ _ | scatter hstation _ _ | stop hstation _
  | spoil hstation _ _ | compose hstation _ _ =>
    rw [hstation]
    simp [enter, Station.progress, Lifecycle.raise, Lifecycle.mark]

/-- A call that is counted stays so until it returns. -/
theorem Turn.isActive_or_hasReturned (hturn : r.Turn e compute s s' new)
    (h : r.station.isActive = true ∨ r.station.hasReturned = true) :
    new.station.isActive = true ∨ new.station.hasReturned = true := by
  cases hturn with
  | work hpending hown => simpa [enter] using h
  | refuse _ _ | leave _ => exact .inr rfl
  | raise _ | mark _ | unprepared _ _ | crowded _ _ _ | scatter _ _ _ | stop _ _ | spoil _ _ _
  | compose _ _ _ => exact .inl rfl
  | pass hstation _ | welcome hstation _ =>
    simp [hstation, Station.isActive, Station.hasReturned] at h

/-! No call opens an engine again or closes it, or fires a token. -/
theorem Turn.hasPool_eq (hturn : r.Turn e compute s s' new) : s'.life.hasPool = s.life.hasPool := by
  cases hturn <;> rfl

end Rendering

/-! ### All calls -/

/-- The act is a step of call `k`: its own next one, or one of its tasks or its collector. -/
def Act.isBy (k : Nat) : Act → Bool
  | .advance j => j == k
  | .work j _ => j == k
  | _ => false

namespace Workshop

variable {e : Engine σ} {compute : Nat → Tile → Attempt TileError Pixmap} {w w' : Workshop}
  {k : Nat} {r : Rendering}

/-- What the turns of one call keep, and what is shared as it moves on, a run keeps. -/
theorem exists_call_run (e : Engine σ)
    (compute : Nat → Tile → Attempt TileError Pixmap) (Keeps : Shared → Rendering → Prop)
    (hturn : ∀ {s s' : Shared} {r new : Rendering}, r.Turn e (compute k) s s' new → Keeps s r →
      Keeps s' new)
    (hlater : ∀ {s s' : Shared} {r : Rendering}, s.Later s' → Keeps s r → Keeps s' r)
    (hcall : w.calls[k]? = some r) (hr : Keeps w.toShared r) (acts : List Act) :
    ∃ r', (w.run e compute acts).calls[k]? = some r' ∧
      Keeps (w.run e compute acts).toShared r' := by
  apply run_keeps (fun w : Workshop => ∃ r', w.calls[k]? = some r' ∧ Keeps w.toShared r')
  · rintro w w' hchange ⟨r', hcall', hr'⟩
    cases hchange with
    | @turn j r new s hturned hturn' =>
      by_cases hj : j = k
      · subst hj
        obtain rfl : r' = r := Option.some.inj (hcall'.symm.trans hturned)
        exact ⟨new, by rw [getElem?_calls_put hturned, if_pos rfl], hturn hturn' hr'⟩
      · exact ⟨r', by rw [getElem?_calls_put hturned, if_neg hj, hcall'],
          hlater hturn'.later hr'⟩
    | begin hnew =>
      refine ⟨r', ?_, hr'⟩
      obtain ⟨hk, -⟩ := List.getElem?_eq_some_iff.1 hcall'
      show (w.calls ++ [_])[k]? = some r'
      rw [List.getElem?_append_left hk, hcall']
    | intervene hdone => exact ⟨r', hcall', hlater hdone.later hr'⟩
  · exact ⟨r, hcall, hr⟩

/-- No call goes back. -/
theorem exists_progress_le_run (e : Engine σ)
    (compute : Nat → Tile → Attempt TileError Pixmap) (hcall : w.calls[k]? = some r)
    (acts : List Act) :
    ∃ r', (w.run e compute acts).calls[k]? = some r' ∧
      r.station.progress ≤ r'.station.progress :=
  exists_call_run e compute (fun _ r' => r.station.progress ≤ r'.station.progress)
    (fun hturn hle => Nat.le_trans hle hturn.progress_le) (fun _ hle => hle) hcall (Nat.le_refl _)
    acts

theorem run_stands (e : Engine σ) (compute : Nat → Tile → Attempt TileError Pixmap) (s : Session)
    (acts : List Act) :
    ∀ (k : Nat) (r : Rendering), ((of s).run e compute acts).calls[k]? = some r → r.Stands := by
  apply run_keeps (fun w : Workshop => ∀ (k : Nat) (r : Rendering), w.calls[k]? = some r → r.Stands)
  · intro w w' hchange h j r hcall
    cases hchange with
    | turn hturned hturn =>
      rw [getElem?_calls_put hturned] at hcall
      split at hcall
      · obtain rfl := Option.some.inj hcall
        exact hturn.stands (h _ _ hturned)
      · exact h j r hcall
    | begin hnew =>
      rcases getElem?_calls_begin hcall with rfl | hcall
      · exact hnew.stands
      · exact h j r hcall
    | intervene hdone => exact h j r hcall
  · intro k r hcall
    cases hcall

/-! ### What the note and the pool say -/

/-- That there was a render is noted from the third step of the first call that gets there. -/
def Notes (w : Workshop) : Prop :=
  w.life.hasRendered = true ↔
    ∃ (k : Nat) (r : Rendering), w.calls[k]? = some r ∧ 3 ≤ r.station.progress

private theorem Change.notes (hchange : w.Change e compute w') (h : w.Notes) : w'.Notes := by
  unfold Notes at h ⊢
  cases hchange with
  | @turn k r new s hcall hturn =>
    show s.life.hasRendered = true ↔ _
    rw [hturn.hasRendered_iff, h]
    constructor
    · rintro (⟨j, r', hcall', hfar⟩ | ⟨-, hfar⟩)
      · by_cases hj : k = j
        · subst hj
          obtain rfl : r' = r := Option.some.inj (hcall'.symm.trans hcall)
          exact ⟨k, new, by rw [getElem?_calls_put hcall, if_pos rfl],
            Nat.le_trans hfar hturn.progress_le⟩
        · exact ⟨j, r', by rw [getElem?_calls_put hcall, if_neg hj, hcall'], hfar⟩
      · exact ⟨k, new, by rw [getElem?_calls_put hcall, if_pos rfl], hfar⟩
    · rintro ⟨j, r', hcall', hfar⟩
      rw [getElem?_calls_put hcall] at hcall'
      split at hcall'
      · obtain rfl := Option.some.inj hcall'
        rcases Nat.lt_or_ge r.station.progress 3 with hnear | hfar'
        · exact .inr ⟨hnear, hfar⟩
        · exact .inl ⟨k, r, hcall, hfar'⟩
      · exact .inl ⟨j, r', hcall', hfar⟩
  | @begin r hnew =>
    obtain ⟨again, hstation⟩ := hnew.station
    show w.life.hasRendered = true ↔ _
    rw [h]
    constructor
    · rintro ⟨j, r', hcall, hfar⟩
      refine ⟨j, r', ?_, hfar⟩
      obtain ⟨hj, -⟩ := List.getElem?_eq_some_iff.1 hcall
      exact (List.getElem?_append_left hj).trans hcall
    · rintro ⟨j, r', hcall, hfar⟩
      rcases getElem?_calls_begin hcall with rfl | hcall
      · simp [hstation, Station.progress] at hfar
      · exact ⟨j, r', hcall, hfar⟩
  | intervene hdone =>
    cases hdone <;> exact h

theorem run_notes (e : Engine σ) (compute : Nat → Tile → Attempt TileError Pixmap)
    (acts : List Act) : ((of e.newSession).run e compute acts).Notes := by
  apply run_keeps Notes (fun _ _ => Change.notes)
  simp [Notes, of, Engine.newSession, Session.shared, Lifecycle.fresh]

private theorem hasPool_step (w : Workshop) (a : Act) :
    (w.step e compute a).life.hasPool = true ↔ w.life.hasPool = true ∧ a ≠ .takePool := by
  cases a with
  | takePool => simp [step, Lifecycle.takePool]
  | advance k =>
    simp only [step, ne_eq, reduceCtorEq, not_false_eq_true, and_true]
    cases hcall : w.calls[k]? with
    | none => rfl
    | some r =>
      rcases e.advance_cases (compute k) w.toShared r with hsame | hturn
      · simp [put, hsame]
      · exact Eq.congr_left hturn.hasPool_eq
  | work k m =>
    simp only [step, ne_eq, reduceCtorEq, not_false_eq_true, and_true]
    cases w.calls[k]? <;> rfl
  | interrupt =>
    simp only [step]
    split <;> simp [Lifecycle.interrupt]
  | render | renderInto | fire => simp [step, begin]

/-- An engine is open until its pool is taken. -/
theorem hasPool_run (e : Engine σ)
    (compute : Nat → Tile → Attempt TileError Pixmap) (w : Workshop) (acts : List Act) :
    (w.run e compute acts).life.hasPool = true ↔ w.life.hasPool = true ∧ .takePool ∉ acts := by
  induction acts generalizing w with
  | nil => simp
  | cons a acts ih =>
    rw [run_cons, ih, hasPool_step, List.mem_cons, not_or, and_assoc, ne_eq, @eq_comm _ a]

theorem hasPool_eq_false_iff (e : Engine σ) (compute : Nat → Tile → Attempt TileError Pixmap)
    (acts : List Act) :
    ((of e.newSession).run e compute acts).life.hasPool = false ↔ .takePool ∈ acts := by
  have hopen := hasPool_run e compute (of e.newSession) acts
  have hnew : (of e.newSession).life.hasPool = true := rfl
  rw [← Bool.not_eq_true, hopen]
  simp [hnew]

/-! ### Passing the gates -/

/-- In the course of the acts call `k` has passed its gates. -/
def Admits (e : Engine σ) (compute : Nat → Tile → Attempt TileError Pixmap) (w : Workshop)
    (acts : List Act) (k : Nat) : Prop :=
  ∃ (before after : List Act) (r : Rendering), acts = before ++ after ∧
    (w.run e compute before).calls[k]? = some r ∧ r.station = .admitted

theorem Admits.concat {acts : List Act} (h : w.Admits e compute acts k) (a : Act) :
    w.Admits e compute (acts ++ [a]) k := by
  obtain ⟨before, after, r, rfl, hcall, hstation⟩ := h
  exact ⟨before, after ++ [a], r, List.append_assoc .., hcall, hstation⟩

theorem Admits.exists_past {acts : List Act} (h : w.Admits e compute acts k) :
    ∃ r, (w.run e compute acts).calls[k]? = some r ∧ 1 ≤ r.station.progress := by
  obtain ⟨before, after, r, rfl, hcall, hstation⟩ := h
  obtain ⟨r', hcall', hle⟩ := exists_progress_le_run e compute hcall after
  refine ⟨r', by rw [run_append, hcall'], ?_⟩
  rwa [hstation] at hle

/-- A call is past its gates if it has been admitted. -/
theorem admits_of_past (s : Session) {acts : List Act}
    (hcall : ((of s).run e compute acts).calls[k]? = some r) (hpast : 1 ≤ r.station.progress) :
    (of s).Admits e compute acts k := by
  induction acts using List.reverseRecOn generalizing r with
  | nil => cases hcall
  | append_singleton acts a ih =>
    have hnow (hstation : r.station = .admitted) : (of s).Admits e compute (acts ++ [a]) k :=
      ⟨acts ++ [a], [], r, (List.append_nil _).symm, hcall, hstation⟩
    rw [run_append] at hcall
    change (((of s).run e compute acts).step e compute a).calls[k]? = some r at hcall
    rcases step_cases e compute ((of s).run e compute acts) a with hsame | hchange
    · rw [hsame] at hcall
      exact (ih hcall hpast).concat a
    · generalize ((of s).run e compute acts).step e compute a = w' at *
      cases hchange with
      | @turn j old new shared hturned hturn =>
        rw [getElem?_calls_put hturned] at hcall
        split at hcall
        · rename_i hj
          subst hj
          obtain rfl := Option.some.inj hcall
          rcases Nat.eq_zero_or_pos old.station.progress with hzero | hpos
          · exact hnow (hturn.admitted hzero hpast)
          · exact (ih hturned hpos).concat a
        · exact (ih hcall hpast).concat a
      | begin hnew =>
        rcases getElem?_calls_begin hcall with rfl | hcall
        · obtain ⟨again, hstation⟩ := hnew.station
          simp [hstation, Station.progress] at hpast
        · exact (ih hcall hpast).concat a
      | intervene hdone => exact (ih hcall hpast).concat a

/-- What a call does before it has passed its gates changes nothing that is shared. -/
theorem toShared_step_of_isBy
    (hstands : ∀ (k : Nat) (r : Rendering), w.calls[k]? = some r → r.Stands)
    (hprogress : ∀ r, w.calls[k]? = some r → r.station.progress = 0) {a : Act}
    (hby : a.isBy k = true) : (w.step e compute a).toShared = w.toShared := by
  cases a with
  | advance j =>
    obtain rfl : j = k := by simpa [Act.isBy] using hby
    simp only [step]
    cases hcall : w.calls[j]? with
    | none => rfl
    | some r =>
      rcases e.advance_cases (compute j) w.toShared r with hsame | hturn
      · exact congrArg Prod.fst hsame
      · exact hturn.shared_eq (hstands j r hcall) (hprogress r hcall)
  | work j m =>
    simp only [step]
    cases w.calls[j]? <;> rfl
  | render | renderInto | fire | takePool | interrupt => simp [Act.isBy] at hby

/-- A call that comes to be refused changes nothing that is shared from its beginning to its end. -/
theorem toShared_eq_of_refused (s : Session) {acts : List Act} {result : Attempt RenderError Unit}
    {rest : Option Pending} (hcall : ((of s).run e compute acts).calls[k]? = some r)
    (hstation : r.station = .returned result rest) (hrefusal : result.isRefusal = true)
    {before after : List Act} {a : Act} (hacts : acts = before ++ a :: after)
    (hby : a.isBy k = true) :
    ((of s).run e compute (before ++ [a])).toShared = ((of s).run e compute before).toShared := by
  subst hacts
  rw [run_append]
  apply toShared_step_of_isBy (run_stands e compute s before) _ hby
  intro r' hcall'
  obtain ⟨r'', hcall'', hle⟩ := exists_progress_le_run e compute hcall' (a :: after)
  rw [← run_append, hcall] at hcall''
  obtain rfl := Option.some.inj hcall''
  simpa [hstation, Station.progress, hrefusal] using hle

/-! ### The state -/

/-- A look at the state that finds the pool as it is now, the active renders as they are after the
acts `between`, and the note as it is after the acts `after` that follow. -/
def lookAt (e : Engine σ) (compute : Nat → Tile → Attempt TileError Pixmap) (w : Workshop)
    (between after : List Act) : EngineState :=
  Lifecycle.stateOver w.life (w.run e compute between).life
    ((w.run e compute between).run e compute after).life

theorem active_pos (hcounts : w.Counts 0) (hcall : w.calls[k]? = some r)
    (hactive : r.station.isActive = true) : 0 < w.life.active := by
  have hpos : 0 < w.calls.countP (·.isActive) :=
    List.countP_pos_iff.2 ⟨r, List.mem_of_getElem? hcall, hactive⟩
  unfold Counts at hcounts
  omega

/-- When all calls have returned, the state is that of an engine with no active render. -/
theorem state_at_rest (hcounts : w.Counts 0)
    (hrest : ∀ r ∈ w.calls, r.station.hasReturned = true) :
    w.life.state =
      if w.life.hasPool then if w.life.hasRendered then .idle else .constructed else .closed := by
  have hnone : w.calls.countP (·.isActive) = 0 := by
    rw [List.countP_eq_zero]
    intro r hr hactive
    have hreturned := hrest r hr
    cases hstation : r.station with
    | returned result rest => simp [Rendering.isActive, hstation, Station.isActive] at hactive
    | _ => simp [hstation, Station.hasReturned] at hreturned
  have hactive : w.life.active = 0 := by
    unfold Counts at hcounts
    omega
  cases hpool : w.life.hasPool <;> simp [Lifecycle.state, hpool, hactive]

/-- While a call that has entered has not returned, the engine is seen to render, or to be closed if
its pool is gone. -/
theorem lookAt_of_isActive {between : List Act} (hcounts : (w.run e compute between).Counts 0)
    (hcall : (w.run e compute between).calls[k]? = some r) (hactive : r.station.isActive = true)
    (after : List Act) :
    w.lookAt e compute between after = if w.life.hasPool then .rendering else .closed :=
  Lifecycle.stateOver_of_active (active_pos hcounts hcall hactive) _

theorem lookAt_of_calls {between : List Act} (hcounts : (w.run e compute between).Counts 0)
    (hcall : w.calls[k]? = some r) (hcalls : r.station.Calls) {r' : Rendering}
    (hcall' : (w.run e compute between).calls[k]? = some r')
    (hreturned : r'.station.hasReturned = false) (after : List Act) :
    w.lookAt e compute between after = if w.life.hasPool then .rendering else .closed := by
  obtain ⟨r'', hcall'', hlive⟩ := exists_call_run e compute
    (fun _ r' => r'.station.isActive = true ∨ r'.station.hasReturned = true)
    Rendering.Turn.isActive_or_hasReturned (fun _ => id) hcall hcalls.isActive_or_hasReturned
    between
  obtain rfl : r'' = r' := Option.some.inj (hcall''.symm.trans hcall')
  have hactive : r''.station.isActive = true := by simpa [hreturned] using hlive
  exact lookAt_of_isActive hcounts hcall' hactive after

/-- Once a render has entered, no look at the state finds an engine without one. -/
theorem lookAt_ne_constructed {between after : List Act}
    (hcounts : (w.run e compute between).Counts 0)
    (hnotes : ((w.run e compute between).run e compute after).Notes)
    (hcall : w.calls[k]? = some r) (hentered : 2 ≤ r.station.progress) :
    w.lookAt e compute between after ≠ .constructed := by
  apply Lifecycle.stateOver_ne_constructed
  obtain ⟨r₁, hcall₁, hle₁⟩ := exists_progress_le_run e compute hcall between
  rcases Station.isActive_or_progress_eq (Nat.le_trans hentered hle₁) with hactive | hgone
  · exact .inl (active_pos hcounts hcall₁ hactive)
  · obtain ⟨r₂, hcall₂, hle₂⟩ := exists_progress_le_run e compute hcall₁ after
    exact .inr (hnotes.2 ⟨k, r₂, hcall₂, by omega⟩)

/-- When all calls have returned, there was a render if one of them was admitted. -/
theorem hasRendered_at_rest {acts : List Act}
    (hrest : ∀ r ∈ ((of e.newSession).run e compute acts).calls, r.station.hasReturned = true) :
    ((of e.newSession).run e compute acts).life.hasRendered = true ↔
      ∃ k, (of e.newSession).Admits e compute acts k := by
  refine Iff.trans (run_notes e compute acts) ⟨?_, ?_⟩
  · rintro ⟨k, r, hcall, hfar⟩
    exact ⟨k, admits_of_past _ hcall (by omega)⟩
  · rintro ⟨k, hadmits⟩
    obtain ⟨r, hcall, hpast⟩ := hadmits.exists_past
    have hreturned := hrest r (List.mem_of_getElem? hcall)
    refine ⟨k, r, hcall, ?_⟩
    rcases Station.progress_of_hasReturned hreturned with hzero | hlast <;> omega

/-- The state of an engine follows the calls on it, however they overlap. An engine that is closed
stays closed. Nothing that a refused call does changes what is shared. Once all calls have returned,
the engine is closed if its pool was taken; otherwise it is idle if a call has passed its gates, and
as constructed if none has. A look at the state by code that runs for a call, and that finds the
active renders before the call has returned, finds the engine rendering, or closed if the pool is
gone. The active renders are those that have entered and have not left, so each of them that leaves
is counted. A look at the state that begins after a render has entered does not find an engine as
constructed. To close the engine is to take the pool and then to fire its token, if there is a pool
to take, and leaves it closed. -/
theorem state_follows_calls (e : Engine σ) (compute : Nat → Tile → Attempt TileError Pixmap)
    (acts : List Act) :
    let w := (of e.newSession).run e compute acts
    (w.life.state = .closed → ∀ later, (w.run e compute later).life.state = .closed) ∧
    (∀ (k : Nat) (r : Rendering) (result : Attempt RenderError Unit) (rest : Option Pending),
      w.calls[k]? = some r → r.station = .returned result rest → result.isRefusal = true →
      ∀ (before after : List Act) (a : Act), acts = before ++ a :: after → a.isBy k = true →
        ((of e.newSession).run e compute (before ++ [a])).toShared =
          ((of e.newSession).run e compute before).toShared) ∧
    ((∀ r ∈ w.calls, r.station.hasReturned = true) →
      (.takePool ∈ acts → w.life.state = .closed) ∧
      (.takePool ∉ acts → (∃ k, (of e.newSession).Admits e compute acts k) →
        w.life.state = .idle) ∧
      (.takePool ∉ acts → (¬ ∃ k, (of e.newSession).Admits e compute acts k) →
        w.life.state = .constructed)) ∧
    (w.life.hasPool = false ↔ .takePool ∈ acts) ∧
    (∀ (k : Nat) (r r' : Rendering) (between after : List Act), w.calls[k]? = some r →
      r.station.Calls → (w.run e compute between).calls[k]? = some r' →
      r'.station.hasReturned = false →
      w.lookAt e compute between after = if w.life.hasPool then .rendering else .closed) ∧
    (w.life.active = w.calls.countP (·.isActive) ∧
      ∀ (k : Nat) (r : Rendering), w.calls[k]? = some r → r.isActive = true →
        0 < w.life.active) ∧
    (∀ (k : Nat) (r : Rendering), w.calls[k]? = some r → 2 ≤ r.station.progress →
      ∀ between after : List Act, w.lookAt e compute between after ≠ .constructed) ∧
    (∀ s : Session, s.shared = w.toShared →
      w.run e compute (if w.life.hasPool then [.takePool, .interrupt] else []) =
        { w with toShared := (Engine.close s).shared } ∧
      (Engine.close s).life.state = .closed) := by
  intro w
  have hcounts : w.Counts 0 := run_counts e compute e.newSession acts
  have hpool : w.life.hasPool = false ↔ .takePool ∈ acts := hasPool_eq_false_iff e compute acts
  have hcountsOn (between : List Act) : (w.run e compute between).Counts 0 :=
    run_keeps (Counts 0) (fun _ _ => Change.counts) hcounts between
  have hnotesOn (between after : List Act) :
      ((w.run e compute between).run e compute after).Notes := by
    have hnotes := run_notes e compute (acts ++ (between ++ after))
    rwa [run_append, run_append] at hnotes
  refine ⟨fun hclosed later => ?_, fun k r result rest hcall hstation hrefusal before after a => ?_,
    fun hrest => ?_, hpool, fun k r r' between after hcall hcalls hcall' hlive => ?_,
    ⟨by simpa [Counts] using hcounts, fun k r => active_pos hcounts⟩,
    fun k r hcall hentered between after => ?_, fun s hs => ⟨?_, Engine.state_close s⟩⟩
  · rw [Lifecycle.state_eq_closed_iff] at hclosed ⊢
    have hlater := hasPool_run e compute w later
    simpa [hclosed] using hlater
  · exact toShared_eq_of_refused e.newSession hcall hstation hrefusal
  · have hstate := state_at_rest hcounts hrest
    have hrendered := hasRendered_at_rest hrest
    refine ⟨fun htaken => ?_, fun hopen hadmitted => ?_, fun hopen hnone => ?_⟩
    · rw [hstate, if_neg (by simpa using hpool.2 htaken)]
    · have hthere : w.life.hasPool = true := by simpa using mt hpool.1 hopen
      rw [hstate, if_pos hthere, if_pos (hrendered.2 hadmitted)]
    · have hthere : w.life.hasPool = true := by simpa using mt hpool.1 hopen
      rw [hstate, if_pos hthere, if_neg (mt hrendered.1 hnone)]
  · exact lookAt_of_calls (hcountsOn between) hcall hcalls hcall' hlive after
  · exact lookAt_ne_constructed (hcountsOn between) (hnotesOn between after) hcall hentered
  · have hlife : s.life = w.life := congrArg Shared.life hs
    rw [Engine.shared_close, hs, hlife]
    exact run_closing e compute w

/-- A source that breaks off when it is prepared. -/
private def brittleEngine : Engine Unit where
  source := ⟨"brittle", fun _ => .error (.broke .silent), fun _ => .ok ()⟩
  rasterizer := ⟨[], Layout.ofFootprint 4 4, Color.transparent⟩
  compositor := ⟨Layout.ofFootprint 4 4, Color.transparent, Compositor.axisGray⟩
  workers := 2

private def dotJob : Job := ⟨1, 1, 1, none, ⟨7, []⟩⟩

/-- The first call is refused for the size of its target, and the second comes to the preparation of
the source. -/
private def arrivingActs : List Act :=
  [.renderInto dotJob (Raster.replicate 2 2 Color.transparent),
    .renderInto dotJob (Raster.replicate 1 1 Color.transparent), .advance 0, .advance 1, .advance 1,
    .advance 1]

private def arrivedRun (later : List Act) : Workshop :=
  (of brittleEngine.newSession).run brittleEngine (fun _ => brittleEngine.computeTile)
    (arrivingActs ++ later)

/-- A session that has come as far. -/
private def arrivedSession : Session :=
  { brittleEngine.newSession with life := ⟨true, false, 1, true⟩ }

private theorem exists_arrivedRun :
    ∃ r₀ r₁ rest₀, (arrivedRun []).calls = [r₀, r₁] ∧ r₁.station = .entered ∧
      r₀.station = .returned (.error (.error (dotJob.refuse (.targetSize 2 2)))) rest₀ :=
  ⟨_, _, _, rfl, rfl, rfl⟩

private theorem exists_arrivedRun_takePool :
    ∃ r, (arrivedRun [.takePool]).calls[1]? = some r ∧ r.station.hasReturned = false :=
  ⟨_, rfl, rfl⟩

private theorem hasReturned_arrivedRun {closing : List Act}
    (h : closing = [] ∨ closing = [.takePool]) :
    ∀ r ∈ (arrivedRun ([.advance 1, .advance 1] ++ closing)).calls,
      r.station.hasReturned = true := by
  have hcalls : ∃ r₀ r₁, (arrivedRun ([.advance 1, .advance 1] ++ closing)).calls = [r₀, r₁] ∧
      r₀.station.hasReturned = true ∧ r₁.station.hasReturned = true := by
    rcases h with rfl | rfl <;> exact ⟨_, _, rfl, rfl, rfl⟩
  obtain ⟨r₀, r₁, hcalls, hreturned₀, hreturned₁⟩ := hcalls
  intro r hr
  simp only [hcalls, List.mem_cons, List.not_mem_nil, or_false] at hr
  rcases hr with rfl | rfl
  · exact hreturned₀
  · exact hreturned₁

theorem state_follows_calls_brittleEngine :
    let runOf := (of brittleEngine.newSession).run brittleEngine fun _ => brittleEngine.computeTile
    (runOf (arrivingActs.take 2 ++ [.advance 0])).toShared =
      (runOf (arrivingActs.take 2)).toShared ∧
    (arrivedRun []).lookAt brittleEngine (fun _ => brittleEngine.computeTile) [.takePool]
      [.advance 1, .advance 1] = .rendering ∧
    (arrivedRun []).lookAt brittleEngine (fun _ => brittleEngine.computeTile)
      [.advance 1, .advance 1] [] ≠ .constructed ∧
    (arrivedRun [.advance 1, .advance 1]).life.state = .idle ∧
    (arrivedRun [.advance 1, .advance 1, .takePool]).life.state = .closed ∧
    (arrivedRun [.takePool, .interrupt]).toShared = (Engine.close arrivedSession).shared := by
  intro runOf
  obtain ⟨r₀, r₁, rest₀, hcalls, hentered, hrefused⟩ := exists_arrivedRun
  obtain ⟨r, hcall, hlive⟩ := exists_arrivedRun_takePool
  have hcall₀ : (arrivedRun []).calls[0]? = some r₀ := by
    rw [hcalls]
    rfl
  have hcall₁ : (arrivedRun []).calls[1]? = some r₁ := by
    rw [hcalls]
    rfl
  obtain ⟨-, hrefusal, -, -, hlook, -, hseen, hclosing⟩ :=
    state_follows_calls brittleEngine (fun _ => brittleEngine.computeTile) (arrivingActs ++ [])
  obtain ⟨-, -, hidle, -⟩ := state_follows_calls brittleEngine
    (fun _ => brittleEngine.computeTile) (arrivingActs ++ [.advance 1, .advance 1])
  obtain ⟨-, -, hclosed, -⟩ := state_follows_calls brittleEngine
    (fun _ => brittleEngine.computeTile) (arrivingActs ++ [.advance 1, .advance 1, .takePool])
  obtain ⟨-, hidle, -⟩ := hidle (hasReturned_arrivedRun (.inl rfl))
  obtain ⟨hclosed, -⟩ := hclosed (hasReturned_arrivedRun (.inr rfl))
  refine ⟨?_, ?_, ?_, ?_, ?_, ?_⟩
  · exact hrefusal 0 r₀ _ rest₀ hcall₀ hrefused rfl _ (arrivingActs.drop 3) _ rfl rfl
  · exact hlook 1 r₁ r _ _ hcall₁ (hentered ▸ .prepare) hcall hlive
  · exact hseen 1 r₁ hcall₁ (by rw [hentered]; decide) _ _
  · exact hidle (by simp [arrivingActs]) ⟨1, arrivingActs.take 4, _, _, rfl, rfl, rfl⟩
  · exact hclosed (by simp [arrivingActs])
  · obtain ⟨hclose, -⟩ := hclosing arrivedSession rfl
    change (arrivedRun []).run _ _ [.takePool, .interrupt] = _ at hclose
    rw [arrivedRun, run_append, ← List.append_nil arrivingActs]
    exact congrArg Workshop.toShared hclose

end Workshop

end WorldMap
