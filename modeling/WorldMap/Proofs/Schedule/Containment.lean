import WorldMap.Proofs.Schedule.Listening
import WorldMap.Render.Engine
/-!
# A listener that breaks off does no harm

A task that has been reported is in the call of the listener or has returned from its report, and that
once (`Listening.Sound`). The listener alone brings a call to its end, and it makes no difference to
the task whether that is a return or a breakdown: its worker is given the count that it came with, and
the task is left with its result to send. Together with `Listening.run_calm`, by which no run can be
told from that of a listener that always returns, this is all there is to a breakdown.
-/

namespace WorldMap

variable {α σ : Type} {compute : Tile → Attempt TileError α}

theorem Tracker.mem_breakdowns_note {t : Tracker} {n m : Nat} {breaksOff : Bool}
    (hm : m ∈ (t.note n breaksOff).breakdowns) : m ∈ t.breakdowns ∨ m = n := by
  cases breaksOff with
  | false => exact .inl hm
  | true => exact Array.mem_push.1 hm

namespace Phase

/-- Whether the report of the task has begun. -/
def hasReported : Phase α → Bool
  | .reported _ => true
  | .sent _ => true
  | _ => false

variable {a : Attempt TileError α} {cancelled : Bool} {n : Nat} {m : Move}

theorem hasReported_after (hmove : ∀ i breaksOff, m ≠ .report i breaksOff) (p : Phase α) :
    (p.after a cancelled n m).hasReported = p.hasReported := by
  cases m with
  | report i breaksOff => exact absurd rfl (hmove i breaksOff)
  | check i =>
    cases p with
    | queued => cases cancelled <;> rfl
    | _ => rfl
  | _ => cases p <;> rfl

/-- A task that has been reported has only to send. -/
theorem after_reported {r : Except TileError α} (hmove : ∀ i, m ≠ .send i) :
    (Phase.reported r).after a cancelled n m = .reported r := by
  cases m with
  | send i => exact absurd rfl (hmove i)
  | _ => rfl

end Phase

/-- Only reports change what the listener was told, and what was noted of it. -/
theorem Dispatch.reports_step (compute : Tile → Attempt TileError α) (s : Dispatch α) {m : Move}
    (hmove : ∀ i breaksOff, m ≠ .report i breaksOff) :
    (s.step compute m).batch.tracker.reports = s.batch.tracker.reports ∧
      (s.step compute m).batch.tracker.breakdowns = s.batch.tracker.breakdowns := by
  have hsame : ∀ {b : Batch α}, b.tracker = s.batch.tracker →
      b.tracker.reports = s.batch.tracker.reports ∧
        b.tracker.breakdowns = s.batch.tracker.breakdowns :=
    fun h => ⟨by rw [h], by rw [h]⟩
  cases m with
  | report i breaksOff => exact absurd rfl (hmove i breaksOff)
  | check i => exact hsame (s.batch.tracker_check i s.cancelled)
  | finish i => exact hsame (s.batch.tracker_finish i _)
  | count i =>
    have hcount := s.batch.tracker_count i
    simp only [step, hcount]
    split <;> exact ⟨rfl, rfl⟩
  | send i => exact hsame (s.batch.tracker_send i)
  | collect =>
    simp only [step]
    split
    · exact ⟨rfl, rfl⟩
    · exact hsame (s.collector.tracker_drain s.batch)
  | release i =>
    simp only [step]
    split <;> exact ⟨rfl, rfl⟩
  | _ => exact ⟨rfl, rfl⟩

/-- A breakdown that is noted after the report is as one that the report itself knew of. -/
theorem Dispatch.note_step_report (compute : Tile → Attempt TileError α) {s : Dispatch α}
    {i n : Nat} {r : Except TileError α}
    (hphase : s.batch.phase i = .counted r n) (hnews : s.batch.tracker.isNews n = true)
    (breaksOff : Bool) :
    (s.step compute (.report i false)).note n breaksOff = s.step compute (.report i breaksOff) := by
  simp only [step, note, Batch.report, hphase, Tracker.report, hnews, if_true]
  cases breaksOff <;> rfl

/-! ### The listener of a host -/

namespace Script

/-- The listener of a job, which closes the engine before it cancels the job. -/
def ofListener (listener : Listener) : Script := fun k _ =>
  ⟨(if (listener k).closesEngine then [.interrupt] else []) ++
    (if (listener k).cancelsJob then [.cancel] else []), (listener k).breaksOff⟩

/-- What the host's listener does to the token of the job is what the script says. -/
structure Describes (script : Script) (host : Batch.Host σ α) : Prop where
  breaksOff : ∀ k n s, (host.notify k n s).1 = (script k n).breaksOff
  cancelled : ∀ k n s, host.cancelled (host.notify k n s).2
    = (host.cancelled s || (script k n).signals.contains .cancel)

theorem describes_host {τ : Type} (e : Engine τ) {job : Job} {listener : Listener}
    (hlistener : job.listener = some listener) (total : Nat) :
    (ofListener listener).Describes (e.host job total) where
  breaksOff k n s := by
    simp only [Engine.host, Engine.notify, hlistener, ofListener]
    cases (listener k).breaksOff <;> rfl
  cancelled k n s := by
    simp only [Engine.host, Engine.notify, hlistener, ofListener]
    cases (listener k).cancelsJob <;> cases (listener k).closesEngine <;>
      cases (listener k).breaksOff <;> simp [Tokens.isFired_fire_self]

end Script

namespace Listening

variable {script : Script} {h : Listening α} {g : Grid}

/-! ### What is true at any time -/

/-- The places of the tasks whose reports have begun. -/
def reporting (h : Listening α) : List Nat :=
  h.call.toList.map (·.place) ++ h.returned.map (·.1)

/-- The books of the reports are right: a task that has been reported is in the call or has returned,
and that once; the task in the call has still to send; and what broke off was a call that is over. -/
structure Sound (compute : Tile → Attempt TileError α) (g : Grid) (h : Listening α) : Prop where
  tasks : h.job.TasksSound compute g
  nodup : h.reporting.Nodup
  mem_reporting : ∀ i, i ∈ h.reporting ↔ (h.job.batch.phase i).hasReported = true
  waits : ∀ c, h.call = some c → ∃ r, h.job.batch.phase c.place = .reported r
  told : ∀ c, h.call = some c → c.count ∈ h.job.batch.tracker.reports
  brokeOff : ∀ n ∈ h.job.batch.tracker.breakdowns,
    n ∈ h.job.batch.tracker.reports ∧ ∃ i, (i, n) ∈ h.returned

namespace Sound

theorem start (g : Grid) (listened : Bool) : (start g listened).Sound compute g where
  tasks := .start g listened
  nodup := List.nodup_nil
  mem_reporting i := by
    have hnone : ((Batch.ofGrid (α := α) g listened).phase i).hasReported = false := by
      cases htask : (Batch.ofGrid (α := α) g listened).tasks[i]? with
      | none =>
        rw [Batch.phase, htask]
        rfl
      | some task =>
        obtain ⟨tile, rfl⟩ := Batch.exists_queue_of_ofGrid htask
        rw [Batch.phase_of_task htask]
        rfl
    exact iff_of_false List.not_mem_nil (Bool.eq_false_iff.1 hnone)
  waits := nofun
  told := nofun
  brokeOff n hn := by simp [Listening.start, Dispatch.start, Batch.ofGrid, Tracker.start] at hn

/-- A move of the job that is no report. -/
private theorem move (hs : h.Sound compute g) {m : Move}
    (hmove : ∀ i breaksOff, m ≠ .report i breaksOff)
    (hfree : ∀ c, h.call = some c → m ≠ .send c.place) :
    Sound compute g { h with job := h.job.step compute m } := by
  obtain ⟨hreports, hbreakdowns⟩ := h.job.reports_step compute hmove
  refine ⟨hs.tasks.step m, hs.nodup, fun i => ?_, fun c hc => ?_, fun c hc => ?_, fun n hn => ?_⟩
  · refine (hs.mem_reporting i).trans ?_
    rw [Dispatch.phase_step hs.tasks]
    split
    · rw [Phase.hasReported_after hmove]
    · rfl
  · obtain ⟨r, hr⟩ := hs.waits c hc
    refine ⟨r, ?_⟩
    rw [Dispatch.phase_step hs.tasks, hr]
    split
    · rename_i hplace
      exact Phase.after_reported fun i hi => hfree c hc (by
        subst hi
        rw [Option.some.inj hplace])
    · rfl
  · rw [hreports]
    exact hs.told c hc
  · rw [hbreakdowns] at hn
    rw [hreports]
    exact hs.brokeOff n hn

/-- A report that begins, and is over at once if its count is overtaken. -/
private theorem report (hs : h.Sound compute g) {i n : Nat} {r : Except TileError α}
    (hcall : h.call = none) (hphase : h.job.batch.phase i = .counted r n) :
    (i :: h.returned.map (·.1)).Nodup ∧
    (∀ j, j ∈ i :: h.returned.map (·.1) ↔
      ((h.job.step compute (.report i false)).batch.phase j).hasReported = true) ∧
    (h.job.step compute (.report i false)).batch.phase i = .reported r ∧
    (h.job.step compute (.report i false)).batch.tracker = h.job.batch.tracker.report n false := by
  have hreporting : h.reporting = h.returned.map (·.1) := by rw [reporting, hcall]; rfl
  have hnodup := hs.nodup
  have hmem := hs.mem_reporting
  rw [hreporting] at hnodup hmem
  have hfresh : i ∉ h.returned.map (·.1) := by
    rw [hmem, hphase]
    exact Bool.false_ne_true
  have hafter := fun j => Dispatch.phase_step hs.tasks (.report i false) j
  have hreported : (h.job.step compute (.report i false)).batch.phase i = .reported r := by
    rw [hafter, hphase]
    exact if_pos rfl
  refine ⟨List.nodup_cons.2 ⟨hfresh, hnodup⟩, fun j => ?_, hreported, ?_⟩
  · rw [List.mem_cons, hmem]
    by_cases hij : j = i
    · subst hij
      exact iff_of_true (.inl rfl) (by rw [hreported]; rfl)
    · have hplace : (Move.report i false).place? ≠ some j :=
        fun heq => hij (Option.some.inj heq).symm
      rw [hafter, if_neg hplace, or_iff_right hij]
  · have htracker := h.job.batch.tracker_report i false
    rwa [hphase] at htracker

private theorem begin (hs : h.Sound compute g) {i n : Nat} {r : Except TileError α} (rest : Response)
    (hcall : h.call = none) (hphase : h.job.batch.phase i = .counted r n)
    (hnews : h.job.batch.tracker.isNews n = true) :
    Sound compute g ⟨h.job.step compute (.report i false), some ⟨i, n, rest⟩, h.returned⟩ := by
  obtain ⟨hnodup, hmem, hreported, htracker⟩ := hs.report hcall hphase
  refine ⟨hs.tasks.step (.report i false), hnodup, hmem, fun c hc => ?_, fun c hc => ?_,
    fun m hm => ?_⟩
  · obtain rfl := Option.some.inj hc
    exact ⟨r, hreported⟩
  · obtain rfl := Option.some.inj hc
    rw [htracker, Tracker.report, if_pos hnews]
    exact Array.mem_push_self
  · rw [htracker, Tracker.report, if_pos hnews] at hm ⊢
    obtain ⟨htold, hreturned⟩ := hs.brokeOff m hm
    exact ⟨Array.mem_push_of_mem _ htold, hreturned⟩

private theorem overtaken (hs : h.Sound compute g) {i n : Nat} {r : Except TileError α}
    (hcall : h.call = none) (hphase : h.job.batch.phase i = .counted r n)
    (hnews : h.job.batch.tracker.isNews n = false) :
    Sound compute g ⟨h.job.step compute (.report i false), none, h.returned ++ [(i, n)]⟩ := by
  obtain ⟨hnodup, hmem, -, htracker⟩ := hs.report hcall hphase
  have hperm : (i :: h.returned.map (·.1)).Perm ((h.returned ++ [(i, n)]).map (·.1)) := by
    rw [List.map_append]
    exact (List.perm_append_singleton ..).symm
  refine ⟨hs.tasks.step (.report i false), hperm.nodup_iff.1 hnodup,
    fun j => hperm.mem_iff.symm.trans (hmem j), nofun, nofun, fun m hm => ?_⟩
  rw [htracker, Tracker.report, if_neg (Bool.not_eq_true _ ▸ hnews)] at hm ⊢
  obtain ⟨htold, j, hj⟩ := hs.brokeOff m hm
  exact ⟨htold, j, List.mem_append_left _ hj⟩

private theorem fire (hs : h.Sound compute g) {i n : Nat} {signal : Signal} {rest rest' : Response}
    (hcall : h.call = some ⟨i, n, rest⟩) :
    Sound compute g ⟨h.job.step compute signal.move, some ⟨i, n, rest'⟩, h.returned⟩ := by
  have hmoved := hs.move (m := signal.move) (by cases signal <;> exact nofun)
    (by cases signal <;> exact nofun)
  -- of the call nothing is asked but its task and its count
  have hreporting : reporting ⟨h.job.step compute signal.move, some ⟨i, n, rest'⟩, h.returned⟩
      = h.reporting := by
    rw [reporting, reporting, hcall]
    rfl
  refine ⟨hmoved.tasks, hreporting ▸ hmoved.nodup, hreporting ▸ hmoved.mem_reporting,
    fun c hc => ?_, fun c hc => ?_, hmoved.brokeOff⟩
  · obtain rfl := Option.some.inj hc
    exact hmoved.waits ⟨i, n, rest⟩ hcall
  · obtain rfl := Option.some.inj hc
    exact hmoved.told ⟨i, n, rest⟩ hcall

private theorem finish (hs : h.Sound compute g) {i n : Nat} {rest : Response} (breaksOff : Bool)
    (hcall : h.call = some ⟨i, n, rest⟩) :
    Sound compute g ⟨h.job.note n breaksOff, none, h.returned ++ [(i, n)]⟩ := by
  have hperm : h.reporting.Perm ((h.returned ++ [(i, n)]).map (·.1)) := by
    rw [reporting, hcall, List.map_append]
    exact (List.perm_append_singleton ..).symm
  have hreports : (h.job.note n breaksOff).batch.tracker.reports = h.job.batch.tracker.reports := by
    cases breaksOff <;> rfl
  refine ⟨⟨hs.tasks.tiles, hs.tasks.tasks, hs.tasks.entered_nodup, hs.tasks.mem_entered⟩,
    hperm.nodup_iff.1 hs.nodup, fun j => hperm.mem_iff.symm.trans (hs.mem_reporting j), nofun,
    nofun, fun m hm => ?_⟩
  rw [hreports]
  rcases Tracker.mem_breakdowns_note hm with hold | rfl
  · obtain ⟨htold, j, hj⟩ := hs.brokeOff m hold
    exact ⟨htold, j, List.mem_append_left _ hj⟩
  · exact ⟨hs.told _ hcall, i, List.mem_append_right _ List.mem_cons_self⟩

theorem happens {h' : Listening α} (hhappens : Happens compute script h h')
    (hs : h.Sound compute g) : h'.Sound compute g := by
  cases hhappens with
  | act hmove hfree =>
    refine hs.move hmove fun c hc hm => ?_
    have hbusy := hfree c.place hm
    rw [isBusy, hc] at hbusy
    simp at hbusy
  | begin hcall hphase hnews => exact hs.begin _ hcall hphase hnews
  | overtaken hcall hphase hnews => exact hs.overtaken hcall hphase hnews
  | fire hcall => exact hs.fire hcall
  | finish hcall => exact hs.finish _ hcall

theorem run (hs : h.Sound compute g) (script : Script) (beats : List Beat) :
    (h.run compute script beats).Sound compute g :=
  run_keeps (fun h => h.Sound compute g) (fun _ _ hhappens hs => hs.happens hhappens) hs beats

/-- A task that has sent has returned from its report before. -/
theorem returned_of_sent (hs : h.Sound compute g) {i : Nat} {r : Except TileError α}
    (hsent : h.job.batch.phase i = .sent r) : ∃ n, (i, n) ∈ h.returned := by
  have hmem := (hs.mem_reporting i).2 (by rw [hsent]; rfl)
  rw [reporting, List.mem_append] at hmem
  rcases hmem with hcall | hreturned
  · obtain ⟨c, hc, rfl⟩ := List.mem_map.1 hcall
    obtain ⟨r', hr'⟩ := hs.waits c (Option.mem_toList.1 hc)
    rw [hsent] at hr'
    cases hr'
  · obtain ⟨⟨j, n⟩, hj, rfl⟩ := List.mem_map.1 hreturned
    exact ⟨n, hj⟩

/-- A task that has returned from its report and has not sent yet does so when it comes to it. -/
theorem sends (hs : h.Sound compute g) (script : Script) {i : Nat} {r : Except TileError α}
    (hcall : h.call = none) (hphase : h.job.batch.phase i = .reported r) :
    (h.step compute script (.act (.send i))).job.batch.phase i
      = .sent (compute (h.job.batch.tile i)).outcome := by
  have hfree : h.isBusy i = false := by rw [isBusy, hcall]; rfl
  have hsend : h.step compute script (.act (.send i))
      = { h with job := h.job.step compute (.send i) } := by
    simp [step, act, hfree]
  obtain rfl := hs.tasks.result_eq (by rw [hphase]; rfl)
  rw [hsend, Dispatch.phase_step hs.tasks, hphase]
  exact if_pos rfl

end Sound

/-! ### To the end of a call -/

/-- To fire tokens changes nothing but the tokens. -/
theorem run_signals (s : Dispatch α) (signals : List Signal) :
    s.run compute (signals.map Signal.move) = { s with
      interrupted := s.interrupted || signals.contains .interrupt
      cancelled := s.cancelled || signals.contains .cancel } := by
  induction signals generalizing s with
  | nil => simp
  | cons signal signals ih =>
    rw [List.map_cons, Dispatch.run_cons, ih]
    cases signal <;> simp [Signal.move, Dispatch.step]

theorem run_listen (compute : Tile → Attempt TileError α) (script : Script) {i n : Nat}
    {signals : List Signal} {breaksOff : Bool}
    (hcall : h.call = some ⟨i, n, ⟨signals, breaksOff⟩⟩) :
    h.run compute script (List.replicate (signals.length + 1) .listen)
      = ⟨(h.job.run compute (signals.map Signal.move)).note n breaksOff, none,
          h.returned ++ [(i, n)]⟩ := by
  obtain ⟨job, call, returned⟩ := h
  obtain rfl : call = _ := hcall
  induction signals generalizing job with
  | nil => rfl
  | cons signal signals ih => exact ih (job.step compute signal.move)

/-- A worker that reports to such a host with nobody in between takes its report through a call. -/
theorem exists_reportTo {host : Batch.Host σ α} (hscript : script.Describes host) (i : Nat) (s : σ)
    (hcall : h.call = none) (htoken : h.job.cancelled = host.cancelled s) :
    ∃ beats, (h.run compute script beats).call = none ∧
      (h.run compute script beats).job.batch = (h.job.batch.reportTo host i s).1 ∧
      (h.run compute script beats).job.cancelled
        = host.cancelled (h.job.batch.reportTo host i s).2 := by
  cases hphase : h.job.batch.phase i with
  | counted r n =>
    cases hnews : h.job.batch.tracker.isNews n with
    | true =>
      have hbegin : h.step compute script (.report i) = ⟨h.job.step compute (.report i false),
          some ⟨i, n, script h.job.batch.tracker.nextCall n⟩, h.returned⟩ := by
        simp [step, report, hcall, hphase, hnews]
      have hnote := Dispatch.note_step_report compute hphase hnews
        (script h.job.batch.tracker.nextCall n).breaksOff
      refine ⟨.report i :: List.replicate
        ((script h.job.batch.tracker.nextCall n).signals.length + 1) .listen, ?_⟩
      rw [run_cons, hbegin, run_listen compute script rfl, run_signals]
      simp only [Batch.reportTo, hphase, hnews, if_true, hscript.breaksOff, hscript.cancelled]
      exact ⟨trivial, congrArg Dispatch.batch hnote, congrArg (· || _) htoken⟩
    | false =>
      refine ⟨[.report i], ?_⟩
      simpa [run, step, report, Batch.reportTo, hcall, hphase, hnews, Dispatch.step] using htoken
  | _ => exact ⟨[], hcall, by simp [Batch.reportTo, hphase], by simpa [Batch.reportTo, hphase]⟩

/-- However the calls of a listener end, each is over within the report that made it. What broke off
has returned, each task returns once, and has done so when it has sent; and the call under way is ended
by the listener alone, with the lock let go of, the count of its own task returned, and the task about
to send what its tile came to. -/
structure Contained (compute : Tile → Attempt TileError α) (script : Script) (h : Listening α) :
    Prop where
  returned_of_brokeOff : ∀ n ∈ h.job.batch.tracker.breakdowns,
    n ∈ h.job.batch.tracker.reports ∧ ∃ i, (i, n) ∈ h.returned
  returned_once : (h.returned.map (·.1)).Nodup
  returned_of_sent : ∀ i r, h.job.batch.phase i = .sent r →
    r = (compute (h.job.batch.tile i)).outcome ∧ ∃ n, (i, n) ∈ h.returned
  call_ends : ∀ i n rest, h.call = some ⟨i, n, rest⟩ →
    let e := h.run compute script (List.replicate (rest.signals.length + 1) .listen)
    e.call = none ∧ e.returned = h.returned ++ [(i, n)] ∧ e.job.collector = h.job.collector ∧
      e.job.batch = { h.job.batch with tracker := h.job.batch.tracker.note n rest.breaksOff } ∧
      (e.step compute script (.act (.send i))).job.batch.phase i
        = .sent (compute (h.job.batch.tile i)).outcome

theorem Sound.contained (hs : h.Sound compute g) : h.Contained compute script where
  returned_of_brokeOff := hs.brokeOff
  returned_once := by
    have hnodup := hs.nodup
    rw [reporting, List.nodup_append] at hnodup
    exact hnodup.2.1
  returned_of_sent i r hsent :=
    ⟨hs.tasks.result_eq (by rw [hsent]; rfl), hs.returned_of_sent hsent⟩
  call_ends i n rest hcall := by
    have hend := run_listen compute script hcall
    rw [run_signals] at hend
    have hsound := hs.run script (List.replicate (rest.signals.length + 1) .listen)
    obtain ⟨r, hr⟩ := hs.waits _ hcall
    intro e
    have he : e = _ := hend
    have hsends := hsound.sends script (congrArg Listening.call he) (by
      change e.job.batch.phase i = _
      rw [he]
      exact hr)
    have htile : e.job.batch.tile i = h.job.batch.tile i := by rw [he]; rfl
    rw [← htile]
    exact ⟨congrArg Listening.call he, congrArg Listening.returned he, by rw [he]; rfl,
      by rw [he]; rfl, hsends⟩

/-- A listener that breaks off does no harm. In any run, whatever the schedule of the tasks, the
collector and the tokens, and in whichever of its calls the listener breaks off, it is called as often,
in the same order and with the same counts as if it fired the same tokens and always returned; each task
is returned the same count; as many tiles are finished, the same messages wait, and the collection comes
to the same. With a listener that always returns the job is one that takes each report in a single
step. And each call is over within the report that made it, however it ends. An engine that reports a
tile to the listener of its job takes these steps. -/
theorem breakdown_does_no_harm (compute : Tile → Attempt TileError α) (script : Script) (g : Grid)
    (listened : Bool) (beats : List Beat) :
    let h := (start g listened).run compute script beats
    let calm := (start g listened).run compute script.calm beats
    (h.job.batch.tracker.reports = calm.job.batch.tracker.reports ∧
      h.returned = calm.returned ∧
      h.job.batch.tracker.completed = calm.job.batch.tracker.completed ∧
      h.job.collector.answer? = calm.job.collector.answer?) ∧
    (h.job.batch.tasks = calm.job.batch.tasks ∧ h.job.collector = calm.job.collector ∧
      h.job.interrupted = calm.job.interrupted ∧ h.job.cancelled = calm.job.cancelled ∧
      h.job.entered = calm.job.entered) ∧
    (calm.job.batch.tracker.breakdowns = #[] ∧
      ∃ moves, calm.job = (Dispatch.start g listened).run compute moves) ∧
    h.Contained compute script ∧
    ∀ {τ : Type} (e : Engine τ) (job : Job) (listener : Listener), job.listener = some listener →
      ∀ (total i : Nat) (s : Session) (quiet : Listening Pixmap), quiet.call = none →
        quiet.job.cancelled = s.tokens.isFired job.token →
        let (b, s') := quiet.job.batch.reportTo (e.host job total) i s
        ∃ beats, let after := quiet.run e.computeTile (.ofListener listener) beats
          after.call = none ∧ after.job.batch = b ∧
            after.job.cancelled = s'.tokens.isFired job.token := by
  intro h calm
  have hcalm : calm = h.quiet := run_calm g listened beats
  have hsound : h.Sound compute g := (Sound.start g listened).run script beats
  rw [hcalm]
  exact ⟨⟨rfl, rfl, rfl, rfl⟩, ⟨rfl, rfl, rfl, rfl, rfl⟩,
    ⟨rfl, exists_moves compute script g listened beats⟩, hsound.contained,
    fun e _ _ hlistener total i s _ hcall htoken =>
      exists_reportTo (Script.describes_host e hlistener total) i s hcall htoken⟩

private def pair : Grid := .ofCorners 0 0 2 1

private def drawFive (_ : Tile) : Attempt TileError Nat := .ok 5

/-- The first call cancels the job and breaks off. -/
private def touchy : Script :=
  .ofListener fun k => if k = 1 then ⟨false, true, true⟩ else ⟨false, false, false⟩

/-- The tile that counts second comes to report while the first call is under way. -/
private def crowdedBegin : List Beat :=
  [.act (.check 0), .act (.check 1), .act (.finish 1), .act (.count 1), .report 1, .act (.finish 0),
    .act (.count 0), .report 0]

private def crowded : List Beat :=
  crowdedBegin ++ [.act (.send 1), .listen, .report 0, .listen, .report 0, .listen, .act (.send 1),
    .act (.send 0)] ++ List.replicate 3 (.act .collect)

private theorem call_crowdedBegin :
    ((start pair true).run drawFive touchy crowdedBegin).call
      = some ⟨1, 1, ⟨[.cancel], true⟩⟩ := rfl

private theorem run_crowded :
    let h := (start pair true).run drawFive touchy crowded
    h.job.batch.tracker.breakdowns = #[1] ∧ h.job.batch.tracker.reports = #[1, 2] ∧
      h.returned = [(1, 1), (0, 2)] ∧ h.job.collector.answer? = some (.error .cancelled) :=
  ⟨rfl, rfl, rfl, rfl⟩

theorem breakdown_does_no_harm_crowded :
    let h := (start pair true).run drawFive touchy crowded
    let calm := (start pair true).run drawFive touchy.calm crowded
    let before := (start pair true).run drawFive touchy crowdedBegin
    (h.job.batch.tracker.breakdowns = #[1] ∧ calm.job.batch.tracker.breakdowns = #[]) ∧
    (calm.job.batch.tracker.reports = #[1, 2] ∧ calm.returned = [(1, 1), (0, 2)] ∧
      calm.job.collector.answer? = some (.error .cancelled)) ∧
    (∃ i, (i, 1) ∈ h.returned) ∧
    (before.call.isSome = true ∧
      (before.run drawFive touchy [.listen, .listen]).returned = before.returned ++ [(1, 1)]) := by
  intro h calm before
  obtain ⟨hbreakdowns, hreports, hreturned, hanswer⟩ := run_crowded
  obtain ⟨⟨hreports', hreturned', -, hanswer'⟩, -, ⟨hcalm, -⟩, hcontained, -⟩ :=
    breakdown_does_no_harm drawFive touchy pair true crowded
  obtain ⟨-, -, -, hbefore, -⟩ := breakdown_does_no_harm drawFive touchy pair true crowdedBegin
  obtain ⟨-, hone, -⟩ := hbefore.call_ends 1 1 _ call_crowdedBegin
  refine ⟨⟨hbreakdowns, hcalm⟩, ⟨hreports'.symm.trans hreports, hreturned'.symm.trans hreturned,
    hanswer'.symm.trans hanswer⟩, ?_, by rw [call_crowdedBegin]; rfl, hone⟩
  exact (hcontained.returned_of_brokeOff 1 (by rw [hbreakdowns]; exact Array.mem_singleton.2 rfl)).2

end Listening

end WorldMap
