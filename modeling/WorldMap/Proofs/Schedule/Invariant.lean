import WorldMap.Proofs.Schedule.Tasks
/-!
# What is true of a job at any time

What the collector holds is what the first tiles of the grid come to, and as long as it holds the
receivers, every result that was sent and not collected waits in its channel. That it never gives a
tile up as lost is part of it: a channel without message and sender is that of a skipped task, so the
job's token has fired, and the collector looks at the token before it gives up.
-/

namespace WorldMap

variable {α : Type} {compute : Tile → Attempt TileError α}

/-- What a tile is collected as whose computation comes to `a`. -/
def TileResult.ofAttempt (t : Tile) (a : Attempt TileError α) : TileResult α := ⟨t, a.toOption⟩

/-- The warning about a tile whose computation comes to `a`. -/
def Attempt.warning? (t : Tile) (a : Attempt TileError α) : Option (Tile × TileError) :=
  match a.outcome with
  | .error e => some (t, e)
  | .ok _ => none

/-! ### The collector -/

/-- The collector holds what the tiles `ts` come to. -/
structure Collector.Holds (compute : Tile → Attempt TileError α) (c : Collector α)
    (ts : List Tile) : Prop where
  results : c.results.toList = ts.map fun t => TileResult.ofAttempt t (compute t)
  warnings : c.warnings.toList = ts.filterMap fun t => (compute t).warning? t
  rendered : c.stats.rendered = c.results.toList.countP (·.isRendered)
  accounted : c.stats.rendered + c.stats.failed = ts.length

namespace Collector

variable {c : Collector α} {ts : List Tile}

theorem Holds.start (n : Nat) : (Collector.start n).Holds compute [] :=
  ⟨rfl, rfl, rfl, rfl⟩

theorem Holds.size_results (h : c.Holds compute ts) : c.results.size = ts.length := by
  rw [← Array.length_toList, h.results, List.length_map]

/-- Where the collector stands is no part of what it holds. -/
theorem Holds.of_stage (h : c.Holds compute ts) (stage : Stage) :
    Collector.Holds compute { c with stage } ts :=
  ⟨h.results, h.warnings, h.rendered, h.accounted⟩

theorem Holds.receive (h : c.Holds compute ts) (t : Tile) :
    (c.receive t (compute t).outcome).Holds compute (ts ++ [t]) := by
  have haccounted := h.accounted
  cases hcompute : compute t with
  | ok image =>
    constructor
    · simp [Attempt.outcome, Collector.receive, h.results, TileResult.ofAttempt, hcompute,
        Except.toOption]
    · simp [Attempt.outcome, Collector.receive, h.warnings, Attempt.warning?, hcompute]
    · simp [Attempt.outcome, Collector.receive, h.rendered, TileResult.isRendered]
    · simp [Attempt.outcome, Collector.receive]
      omega
  | error f =>
    obtain ⟨e, he⟩ : ∃ e, Attempt.outcome (.error f : Attempt TileError α) = .error e := by
      cases f <;> exact ⟨_, rfl⟩
    constructor
    · simp [he, Collector.receive, h.results, TileResult.ofAttempt, hcompute, Except.toOption]
    · simp [he, Collector.receive, h.warnings, Attempt.warning?, hcompute]
    · simp [he, Collector.receive, h.rendered, TileResult.isRendered]
    · simp [he, Collector.receive]
      omega

theorem answer?_eq_ok_iff {c : Collector α} {results : List (TileResult α)}
    {stats : Stats} : c.answer? = some (.ok (results, stats)) ↔
      c.stage = .complete ∧ c.results.toList = results ∧ c.stats = stats := by
  cases hstage : c.stage <;> simp [answer?, hstage]

theorem answer?_eq_error_iff {c : Collector α} {e : ScheduleError} :
    c.answer? = some (.error e) ↔ c.stage = .stopped e := by
  cases hstage : c.stage <;> simp [answer?, hstage]

theorem exists_answer?_of_isOver {c : Collector α} (hover : c.stage.isOver = true) :
    ∃ answer, c.answer? = some answer := by
  cases hstage : c.stage <;> simp_all [answer?, Stage.isOver]

@[simp] theorem stage_receive (c : Collector α) (t : Tile) (r : Except TileError α) :
    (c.receive t r).stage = .engineCheck .advance := by
  cases r <;> rfl

@[simp] theorem size_results_receive (c : Collector α) (t : Tile) (r : Except TileError α) :
    (c.receive t r).results.size = c.results.size + 1 := by
  cases r <;> simp [receive]

@[simp] theorem submitted_receive (c : Collector α) (t : Tile) (r : Except TileError α) :
    (c.receive t r).stats.submitted = c.stats.submitted := by
  cases r <;> rfl

end Collector

/-! ### Tasks and the collector -/

/-- What the collector may rely on: as long as it is `watched` a task keeps its receiver, its result
waits until it is `collected`, and only what was sent is collected. -/
structure TileTask.Kept (watched : Bool) (collected : Prop) (task : TileTask α) : Prop where
  listening : watched = true → task.channel.hasReceiver = true
  unread : watched = true → ¬ collected → ∀ r, task.phase = .sent r → task.channel.message = some r
  taken : collected → ∃ r, task.phase = .sent r

namespace TileTask

variable {cancelled watched : Bool} {collected : Prop} {task new : TileTask α} {t u : Tracker}

theorem Kept.queue (tile : Tile) : (TileTask.queue (α := α) tile).Kept watched False :=
  ⟨fun _ => rfl, fun _ _ r hr => by simp [TileTask.queue] at hr, False.elim⟩

theorem Kept.of_watched (h : task.Kept watched collected) {watched' : Bool}
    (hwatched : watched' = true → watched = true) : task.Kept watched' collected :=
  ⟨fun hw => h.listening (hwatched hw), fun hw => h.unread (hwatched hw), h.taken⟩

private theorem Kept.enter (h : task.Kept watched collected) {p : Phase α}
    (hbefore : task.phase.isOver = false) (hafter : p.isOver = false) :
    (task.enter p).Kept watched collected where
  listening := h.listening
  unread _ _ r hr := by
    change p = .sent r at hr
    simp [hr, Phase.isOver] at hafter
  taken hcollected := by
    obtain ⟨r, hr⟩ := h.taken hcollected
    simp [hr, Phase.isOver] at hbefore

theorem Advance.kept (hadvance : task.Advance compute cancelled t new u)
    (hsound : task.Sound compute cancelled) (h : task.Kept watched collected) :
    new.Kept watched collected := by
  cases hadvance with
  | begin hphase _ => exact h.enter (by rw [hphase]; rfl) rfl
  | skip hphase _ =>
    refine ⟨h.listening, fun _ _ r hr => by simp [TileTask.close] at hr, fun hcollected => ?_⟩
    obtain ⟨r, hr⟩ := h.taken hcollected
    simp [hphase] at hr
  | finish hphase => exact h.enter (by rw [hphase]; rfl) rfl
  | count hphase => exact h.enter (by rw [hphase]; rfl) rfl
  | report hphase _ => exact h.enter (by rw [hphase]; rfl) rfl
  | @send r c hphase hsend =>
    have hc := hsound.send?_eq (by simp [hphase]) r
    rw [hsend, Option.some.injEq] at hc
    subst hc
    refine ⟨h.listening, fun hwatched _ r' hr' => ?_, fun _ => ⟨r, rfl⟩⟩
    obtain rfl : r = r' := by simpa [TileTask.close] using hr'
    simp [TileTask.close, Channel.dropSender, h.listening hwatched]

/-- A result that is collected need not wait any more. -/
theorem Kept.collect (h : task.Kept watched collected) {r : Except TileError α}
    (hphase : task.phase = .sent r) : task.collect.Kept watched True :=
  ⟨h.listening, fun _ hcollected => absurd trivial hcollected, fun _ => ⟨r, hphase⟩⟩

theorem Kept.release (h : task.Kept false collected) : task.release.Kept false collected :=
  ⟨by simp, by simp, h.taken⟩

/-- A channel without a message is not changed by a look into it. -/
theorem collect_of_message_eq_none (hmessage : task.channel.message = none) :
    task.collect = task := by
  rcases task with ⟨tile, phase, ⟨message, sender, receiver⟩⟩
  change message = none at hmessage
  subst hmessage
  rfl

end TileTask

/-! ### What the collector finds -/

namespace Batch

variable {b : Batch α} {i : Nat}

theorem exists_task_of_message {r : Except TileError α} (hreception : b.reception i = .message r) :
    ∃ task, b.tasks[i]? = some task ∧ task.channel.message = some r := by
  cases htask : b.tasks[i]? with
  | none => simp [reception, channel, htask, Channel.reception, Channel.fresh] at hreception
  | some task =>
    refine ⟨task, rfl, ?_⟩
    rw [reception, channel_of_task htask, Channel.reception] at hreception
    split at hreception
    · rename_i hmessage
      rw [hmessage, Reception.message.inj hreception]
    · split at hreception <;> simp at hreception

theorem exists_task_of_disconnected (hreception : b.reception i = .disconnected) :
    ∃ task, b.tasks[i]? = some task ∧ task.channel.message = none ∧
      task.channel.hasSender = false := by
  cases htask : b.tasks[i]? with
  | none => simp [reception, channel, htask, Channel.reception, Channel.fresh] at hreception
  | some task =>
    refine ⟨task, rfl, ?_⟩
    rw [reception, channel_of_task htask, Channel.reception] at hreception
    split at hreception
    · simp at hreception
    · rename_i hmessage
      split at hreception
      · simp at hreception
      · rename_i hsender
        exact ⟨hmessage, by simpa using hsender⟩

end Batch

namespace Collector

variable {b : Batch α} {c : Collector α}

theorem drain_eq_self (hstage : c.stage ≠ .waiting) : c.drain b = b := by
  unfold drain
  split
  · contradiction
  · rfl

/-- A look into an empty channel leaves the batch as it is. -/
theorem drain_of_no_message (hreception : ∀ r, b.reception c.results.size ≠ .message r) :
    c.drain b = b := by
  unfold drain
  split
  · cases htask : b.tasks[c.results.size]? with
    | none => exact Batch.modify_of_none htask
    | some task =>
      have hmessage : task.channel.message = none := by
        cases hmessage : task.channel.message with
        | none => rfl
        | some r =>
          refine absurd ?_ (hreception r)
          rw [Batch.reception, Batch.channel_of_task htask, Channel.reception, hmessage]
      rw [Batch.modify_eq_put htask, TileTask.collect_of_message_eq_none hmessage,
        Batch.put_self htask]
  · rfl

end Collector

/-! ### The collection -/

namespace Dispatch

variable {g : Grid} {s s' : Dispatch α} {i : Nat} {task new : TileTask α}

/-- What has been collected is what the first tiles of the grid come to. -/
structure Collected (compute : Tile → Attempt TileError α) (g : Grid) (s : Dispatch α) : Prop where
  kept : ∀ (i : Nat) (task : TileTask α), s.batch.tasks[i]? = some task →
    task.Kept s.isWatched (i < s.collector.results.size)
  holds : s.collector.Holds compute (g.tiles.take s.collector.results.size)
  submitted : s.collector.stats.submitted = g.size
  lost : s.collector.stage = .engineCheck .giveUp ∨ s.collector.stage = .jobCheck .giveUp →
    s.cancelled = true
  complete : s.collector.stage = .complete → s.collector.results.size = g.size

namespace Collected

theorem start (g : Grid) (listened : Bool) :
    (Dispatch.start g listened).Collected compute g := by
  refine ⟨fun i task htask => ?_, .start g.size, rfl, by simp [Dispatch.start, Collector.start],
    by simp [Dispatch.start, Collector.start]⟩
  obtain ⟨tile, rfl⟩ := Batch.exists_queue_of_ofGrid htask
  simpa [Dispatch.start, Collector.start] using TileTask.Kept.queue tile

theorem size_le (h : s.Collected compute g) : s.collector.results.size ≤ g.size := by
  have hsize := h.holds.size_results
  rw [List.length_take, Grid.length_tiles] at hsize
  omega

/-- The collector stands somewhere else, and had not come to its end. -/
private theorem set_stage (h : s.Collected compute g) (stage : Stage)
    (hover : s.collector.stage.isOver = false)
    (hlost : stage = .engineCheck .giveUp ∨ stage = .jobCheck .giveUp → s.cancelled = true)
    (hcomplete : stage = .complete → s.collector.results.size = g.size) :
    Dispatch.Collected compute g { s with collector := { s.collector with stage } } := by
  refine ⟨fun i task htask => (h.kept i task htask).of_watched fun hwatched => ?_,
    h.holds.of_stage stage, h.submitted, hlost, hcomplete⟩
  simp only [isWatched, Bool.and_eq_true] at hwatched ⊢
  exact ⟨hwatched.1, by simp [hover]⟩

/-- The collector takes the result of the tile it was waiting for. -/
private theorem receive (ht : s.TasksSound compute g) (h : s.Collected compute g)
    (hheld : s.abandoned = false) (hover : s.collector.stage.isOver = false)
    {r : Except TileError α} (htask : s.batch.tasks[s.collector.results.size]? = some task)
    (hphase : task.phase = .sent r) :
    Dispatch.Collected compute g { s with
      batch := s.batch.put s.collector.results.size task.collect s.batch.tracker
      collector := s.collector.receive task.tile r } := by
  have hkept := h.kept _ task htask
  have hwatched : s.isWatched = true := by simp [isWatched, hheld, hover]
  obtain rfl : r = (compute task.tile).outcome :=
    (ht.tasks _ task htask).result r (by rw [hphase]; rfl)
  have hnext : g.tiles.take (s.collector.results.size + 1) =
      g.tiles.take s.collector.results.size ++ [task.tile] := by
    rw [List.take_add_one, ← ht.tiles, Batch.tiles_getElem? htask]
    rfl
  refine ⟨?_, ?_, ?_, by simp, by simp⟩
  · intro j other hother
    change other.Kept (Dispatch.isWatched _) (j < (s.collector.receive _ _).results.size)
    rw [Collector.size_results_receive]
    by_cases hj : s.collector.results.size = j
    · subst j
      rw [Batch.getElem?_put htask, if_pos rfl, Option.some.injEq] at hother
      subst hother
      simpa using (hkept.collect hphase).of_watched fun _ => hwatched
    · rw [Batch.getElem?_put htask, if_neg hj] at hother
      have hiff : j < s.collector.results.size + 1 ↔ j < s.collector.results.size := by omega
      rw [hiff]
      exact (h.kept j other hother).of_watched fun _ => hwatched
  · change (s.collector.receive _ _).Holds compute
      (g.tiles.take (s.collector.receive _ _).results.size)
    rw [Collector.size_results_receive, hnext]
    exact h.holds.receive task.tile
  · exact (Collector.submitted_receive ..).trans h.submitted

/-- The collector looks into the channel of the tile it waits for and finds something. -/
private theorem take (ht : s.TasksSound compute g) (h : s.Collected compute g)
    (hheld : s.abandoned = false) (hstage : s.collector.stage = .waiting) {r : Except TileError α}
    (hreception : s.batch.reception s.collector.results.size = .message r) :
    Dispatch.Collected compute g { s with
      batch := s.collector.drain s.batch
      collector := s.collector.receive (s.batch.tile s.collector.results.size) r } := by
  obtain ⟨task, htask, hmessage⟩ := Batch.exists_task_of_message hreception
  have hphase := (ht.tasks _ task htask).message r hmessage
  have hdrain : s.collector.drain s.batch =
      s.batch.put s.collector.results.size task.collect s.batch.tracker := by
    rw [Collector.drain, hstage]
    exact Batch.modify_eq_put htask
  rw [hdrain, Batch.tile_of_task htask]
  exact h.receive ht hheld (by rw [hstage]; rfl) htask hphase

/-- A channel without message and sender is that of a skipped task, unless it was emptied before. -/
private theorem lose (ht : s.TasksSound compute g) (h : s.Collected compute g)
    (hheld : s.abandoned = false) (hstage : s.collector.stage = .waiting)
    (hreception : s.batch.reception s.collector.results.size = .disconnected) :
    s.cancelled = true := by
  obtain ⟨task, htask, hmessage, hsender⟩ := Batch.exists_task_of_disconnected hreception
  have hsound := ht.tasks _ task htask
  have hwatched : s.isWatched = true := by simp [isWatched, hheld, hstage, Stage.isOver]
  have hover : task.phase.isOver = true := by
    rw [hsound.sender] at hsender
    simpa using hsender
  cases hphase : task.phase with
  | skipped => exact hsound.skipped hphase
  | sent r =>
    have hunread := (h.kept _ task htask).unread hwatched (Nat.lt_irrefl _) r hphase
    simp [hmessage] at hunread
  | _ => simp [hphase, Phase.isOver] at hover

private theorem collect (ht : s.TasksSound compute g) (h : s.Collected compute g)
    (hheld : s.abandoned = false) {c : Collector α}
    (hturn : s.collector.Turn s.batch s.interrupted s.cancelled c) :
    Dispatch.Collected compute g { s with batch := s.collector.drain s.batch, collector := c } := by
  have hsize := ht.size_eq
  have hle := h.size_le
  cases hturn with
  | begin hstage _ | interrupt hstage _ | cancel hstage _ | await hstage _ | advance hstage _ =>
    rw [Collector.drain_eq_self (by simp [hstage])]
    exact h.set_stage _ (by rw [hstage]; rfl) (by simp) (by simp)
  | finish hstage hleft =>
    rw [Collector.drain_eq_self (by simp [hstage])]
    exact h.set_stage _ (by rw [hstage]; rfl) (by simp) (fun _ => by omega)
  | @pass p hstage _ =>
    rw [Collector.drain_eq_self (by simp [hstage])]
    refine h.set_stage _ (by rw [hstage]; rfl) (fun hlost => ?_) (by simp)
    obtain rfl : p = .giveUp := by simpa using hlost
    exact h.lost (.inl hstage)
  -- a tile is lost only where a task was skipped, and then the token stops the collector first
  | giveUp hstage htoken => simp [h.lost (.inr hstage)] at htoken
  | take hstage hreception => exact h.take ht hheld hstage hreception
  | look hstage hreception =>
    rw [Collector.drain_of_no_message (by simp [hreception])]
    exact h.set_stage _ (by rw [hstage]; rfl) (by simp) (by simp)
  | lose hstage hreception =>
    rw [Collector.drain_of_no_message (by simp [hreception])]
    exact h.set_stage _ (by rw [hstage]; rfl) (fun _ => h.lose ht hheld hstage hreception) (by simp)
  | rest hover =>
    rw [Collector.drain_eq_self fun hstage => by simp [hstage, Stage.isOver] at hover]
    exact h

theorem change (hchange : s.Change compute s') (ht : s.TasksSound compute g)
    (h : s.Collected compute g) : s'.Collected compute g := by
  cases hchange with
  | @work i task new t htask hadvance =>
    have hkept := hadvance.kept (ht.tasks i task htask) (h.kept i task htask)
    exact ⟨Batch.forall_put h.kept htask hkept, h.holds, h.submitted, h.lost, h.complete⟩
  | cancel => exact ⟨h.kept, h.holds, h.submitted, fun _ => rfl, h.complete⟩
  | interrupt => exact ⟨h.kept, h.holds, h.submitted, h.lost, h.complete⟩
  | collect hheld hturn => exact h.collect ht hheld hturn
  | abandon =>
    refine ⟨fun i task htask => (h.kept i task htask).of_watched fun hwatched => ?_, h.holds,
      h.submitted, h.lost, h.complete⟩
    simp [isWatched] at hwatched
  | @release i task hwatched htask =>
    have hkept := h.kept i task htask
    rw [hwatched] at hkept
    have hreleased := hkept.release.of_watched fun hwatched' => hwatched ▸ hwatched'
    exact ⟨Batch.forall_put h.kept htask hreleased, h.holds, h.submitted, h.lost, h.complete⟩

end Collected

structure Sound (compute : Tile → Attempt TileError α) (g : Grid) (s : Dispatch α) : Prop where
  tasks : s.TasksSound compute g
  collected : s.Collected compute g

/-- A task that has not sent is yet to be collected. -/
theorem Sound.left_of_unsent (h : s.Sound compute g) (hi : i < s.batch.size)
    (hunsent : ∀ r, s.batch.phase i ≠ .sent r) :
    s.collector.results.size < s.batch.size ∧ s.collector.stage ≠ .complete := by
  have htask := Array.getElem?_eq_getElem hi
  have hleft : ¬ i < s.collector.results.size := fun hcollected => by
    obtain ⟨r, hr⟩ := (h.collected.kept i _ htask).taken hcollected
    exact hunsent r (by rw [Batch.phase_of_task htask, hr])
  refine ⟨by omega, fun hcomplete => hleft ?_⟩
  rwa [h.collected.complete hcomplete, ← h.tasks.size_eq]

/-- When the collector is done, so is every task. -/
theorem Sound.sent_of_complete (h : s.Sound compute g) (hcomplete : s.collector.stage = .complete)
    (htask : s.batch.tasks[i]? = some task) :
    ∃ r, task.phase = .sent r := by
  obtain ⟨hi, -⟩ := Array.getElem?_eq_some_iff.1 htask
  have hsize := h.tasks.size_eq
  rw [Batch.size] at hsize
  exact (h.collected.kept i task htask).taken (by rw [h.collected.complete hcomplete]; omega)

theorem Sound.change (hchange : s.Change compute s') (h : s.Sound compute g) : s'.Sound compute g :=
  ⟨h.tasks.change hchange, h.collected.change hchange h.tasks⟩

theorem run_sound (compute : Tile → Attempt TileError α) (g : Grid) (listened : Bool)
    (moves : List Move) : ((start g listened).run compute moves).Sound compute g :=
  run_keeps (Dispatch.Sound compute g) (fun _ _ => Sound.change)
    ⟨.start g listened, .start g listened⟩ moves

end Dispatch

end WorldMap
