import WorldMap.Proofs.Schedule.Dispatch
/-!
# What is true of the tasks of a job at any time

`TileTask.Sound` ties a task to its channel: its result is the outcome of the tile's computation, only
a task that has sent can have a message waiting, and only a cancelled job skips. So a send never finds
the channel full. `Dispatch.TasksSound` says so of all tasks of the grid, and that the record of begun
computations names each place at most once, and just those places whose tasks have begun.
-/

namespace WorldMap

variable {α : Type} {compute : Tile → Attempt TileError α}

structure TileTask.Sound (compute : Tile → Attempt TileError α) (cancelled : Bool)
    (task : TileTask α) : Prop where
  result : ∀ r, task.phase.result? = some r → r = (compute task.tile).outcome
  skipped : task.phase = .skipped → cancelled = true
  sender : task.channel.hasSender = !task.phase.isOver
  message : ∀ r, task.channel.message = some r → task.phase = .sent r

namespace TileTask

variable {cancelled : Bool} {task new : TileTask α} {t u : Tracker}

theorem Sound.queue (tile : Tile) : (TileTask.queue tile).Sound compute cancelled where
  result := by simp [TileTask.queue, Phase.result?]
  skipped := by simp [TileTask.queue]
  sender := rfl
  message := by simp [TileTask.queue, Channel.fresh]

/-- A token that fires takes nothing away. -/
theorem Sound.of_cancelled (h : task.Sound compute cancelled) : task.Sound compute true :=
  ⟨h.result, fun _ => rfl, h.sender, h.message⟩

/-- A task that has not sent has no message waiting. -/
theorem Sound.message_eq_none (h : task.Sound compute cancelled)
    (hphase : ∀ r, task.phase ≠ .sent r) : task.channel.message = none := by
  cases hmessage : task.channel.message with
  | none => rfl
  | some r => exact absurd (h.message r hmessage) (hphase r)

/-- So a send never finds the channel full. -/
theorem Sound.send?_eq (h : task.Sound compute cancelled) (hphase : ∀ r, task.phase ≠ .sent r)
    (r : Except TileError α) :
    task.channel.send? r = some { task.channel with
      message := if task.channel.hasReceiver then some r else none } := by
  have hnone := h.message_eq_none hphase
  rcases hchannel : task.channel with ⟨message, sender, receiver⟩
  rw [hchannel] at hnone
  cases receiver <;> simp_all [Channel.send?]

/-- A task that goes on in its phases and keeps its channel. -/
private theorem Sound.enter (h : task.Sound compute cancelled) {p : Phase α}
    (hbefore : task.phase.isOver = false) (hafter : p.isOver = false)
    (hresult : ∀ r, p.result? = some r → r = (compute task.tile).outcome) :
    (task.enter p).Sound compute cancelled where
  result := hresult
  skipped hp := by
    change p = .skipped at hp
    simp [hp, Phase.isOver] at hafter
  sender := by
    change task.channel.hasSender = !p.isOver
    rw [h.sender, hbefore, hafter]
  message r hmessage := by
    have hsent := h.message r hmessage
    simp [hsent, Phase.isOver] at hbefore

theorem Advance.sound (hadvance : task.Advance compute cancelled t new u)
    (h : task.Sound compute cancelled) : new.Sound compute cancelled := by
  cases hadvance with
  | begin hphase _ =>
    exact h.enter (by rw [hphase]; rfl) rfl (fun r hr => by simp [Phase.result?] at hr)
  | skip hphase htoken =>
    have hnone := h.message_eq_none (by simp [hphase])
    exact ⟨by simp [TileTask.close, Phase.result?], fun _ => htoken, rfl,
      by simp [TileTask.close, Channel.dropSender, hnone]⟩
  | finish hphase =>
    refine h.enter (by rw [hphase]; rfl) rfl (fun r hr => ?_)
    exact (Option.some.inj hr).symm
  | count hphase =>
    refine h.enter (by rw [hphase]; rfl) rfl (fun r hr => ?_)
    exact h.result r (by rw [hphase]; exact hr)
  | report hphase breaksOff =>
    refine h.enter (by rw [hphase]; rfl) rfl (fun r hr => ?_)
    exact h.result r (by rw [hphase]; exact hr)
  | @send r c hphase hsend =>
    have hc := h.send?_eq (by simp [hphase]) r
    rw [hsend, Option.some.injEq] at hc
    subst hc
    refine ⟨fun r' hr' => ?_, fun hp => ?_, rfl, fun r' hr' => ?_⟩
    · exact h.result r' (by rw [hphase]; exact hr')
    · simp [TileTask.close] at hp
    · simp only [TileTask.close, Channel.dropSender] at hr' ⊢
      split at hr'
      · rw [Option.some.inj hr']
      · simp at hr'

theorem Sound.collect (h : task.Sound compute cancelled) :
    task.collect.Sound compute cancelled :=
  ⟨h.result, h.skipped, h.sender, by simp [TileTask.collect, Channel.emptied]⟩

theorem Sound.release (h : task.Sound compute cancelled) :
    task.release.Sound compute cancelled :=
  ⟨h.result, h.skipped, h.sender, by simp [TileTask.release, Channel.dropReceiver]⟩

/-- Only a queued task begins its computation, and no other step changes whether it was begun. -/
theorem Advance.begun_cases (hadvance : task.Advance compute cancelled t new u) :
    (new.phase.isComputing = true ∧ new.phase.hasBegun = true ∧ task.phase.hasBegun = false) ∨
      (new.phase.isComputing = false ∧ new.phase.hasBegun = task.phase.hasBegun) := by
  cases hadvance with
  | begin hphase _ => exact .inl ⟨rfl, rfl, by rw [hphase]; rfl⟩
  | skip hphase _ => exact .inr ⟨rfl, by rw [hphase]; rfl⟩
  | finish hphase => exact .inr ⟨rfl, by rw [hphase]; rfl⟩
  | count hphase => exact .inr ⟨rfl, by rw [hphase]; rfl⟩
  | report hphase _ => exact .inr ⟨rfl, by rw [hphase]; rfl⟩
  | send hphase _ => exact .inr ⟨rfl, by rw [hphase]; rfl⟩

end TileTask

namespace Dispatch

variable {g : Grid} {s s' : Dispatch α} {i : Nat} {task new : TileTask α}

/-- The tasks are those of the grid, each in a sound state, and the log of computations is right. -/
structure TasksSound (compute : Tile → Attempt TileError α) (g : Grid) (s : Dispatch α) : Prop where
  tiles : s.batch.tiles = g.tiles
  tasks : ∀ (i : Nat) (task : TileTask α), s.batch.tasks[i]? = some task →
    task.Sound compute s.cancelled
  entered_nodup : s.entered.Nodup
  mem_entered : ∀ i : Nat, i ∈ s.entered ↔
    ∃ task : TileTask α, s.batch.tasks[i]? = some task ∧ task.phase.hasBegun = true

namespace TasksSound

theorem start (g : Grid) (listened : Bool) :
    (Dispatch.start g listened).TasksSound compute g := by
  refine ⟨Batch.tiles_ofGrid g listened, fun i task htask => ?_, List.nodup_nil, fun i => ?_⟩
  · obtain ⟨tile, rfl⟩ := Batch.exists_queue_of_ofGrid htask
    exact .queue tile
  · constructor
    · intro hi
      exact absurd hi List.not_mem_nil
    · rintro ⟨task, htask, hbegun⟩
      obtain ⟨tile, rfl⟩ := Batch.exists_queue_of_ofGrid htask
      simp [TileTask.queue, Phase.hasBegun] at hbegun

theorem size_eq (h : s.TasksSound compute g) : s.batch.size = g.size := by
  rw [← Batch.length_tiles, h.tiles, Grid.length_tiles]

/-- Another task of the same tile that was begun if and only if the first one was. -/
private theorem put_same (h : s.TasksSound compute g) (new : TileTask α)
    (htask : s.batch.tasks[i]? = some task) (htile : new.tile = task.tile) (hbegun : new.phase.hasBegun = task.phase.hasBegun)
    (hnew : new.Sound compute s.cancelled) {t : Tracker} :
    Dispatch.TasksSound compute g { s with batch := s.batch.put i new t } := by
  refine ⟨(Batch.tiles_put htask htile).trans h.tiles, Batch.forall_put h.tasks htask hnew,
    h.entered_nodup, fun j => ?_⟩
  rw [h.mem_entered, Batch.getElem?_put htask]
  split
  · subst j
    simp [htask, hbegun]
  · rfl

private theorem put_begun (h : s.TasksSound compute g) (htask : s.batch.tasks[i]? = some task)
    (htile : new.tile = task.tile) (hbegun : task.phase.hasBegun = false)
    (hnew : new.phase.hasBegun = true) (hsound : new.Sound compute s.cancelled) {t : Tracker} :
    Dispatch.TasksSound compute g
      { s with batch := s.batch.put i new t, entered := i :: s.entered } := by
  have hfresh : i ∉ s.entered := by
    rw [h.mem_entered]
    rintro ⟨other, hother, hother'⟩
    rw [htask, Option.some.injEq] at hother
    subst other
    simp [hbegun] at hother'
  refine ⟨(Batch.tiles_put htask htile).trans h.tiles, Batch.forall_put h.tasks htask hsound,
    List.nodup_cons.2 ⟨hfresh, h.entered_nodup⟩, fun j => ?_⟩
  rw [List.mem_cons, h.mem_entered, Batch.getElem?_put htask]
  split
  · subst j
    simp [hnew]
  · rename_i hne
    simp [Ne.symm hne]

private theorem put_collect (h : s.TasksSound compute g) (htask : s.batch.tasks[i]? = some task) :
    Dispatch.TasksSound compute g
      { s with batch := s.batch.put i task.collect s.batch.tracker } :=
  h.put_same task.collect htask rfl rfl (h.tasks i task htask).collect

theorem change (hchange : s.Change compute s') (h : s.TasksSound compute g) :
    s'.TasksSound compute g := by
  cases hchange with
  | @work i task new t htask hadvance =>
    have hnew := hadvance.sound (h.tasks i task htask)
    rcases hadvance.begun_cases with ⟨hcomputing, hbegun, hbefore⟩ | ⟨hcomputing, hbegun⟩
    · simpa [Dispatch.put, hcomputing] using
        h.put_begun htask hadvance.tile_eq hbefore hbegun hnew
    · simpa [Dispatch.put, hcomputing] using h.put_same new htask hadvance.tile_eq hbegun hnew
  | cancel =>
    exact ⟨h.tiles, fun i task htask => (h.tasks i task htask).of_cancelled, h.entered_nodup,
      h.mem_entered⟩
  | interrupt => exact ⟨h.tiles, h.tasks, h.entered_nodup, h.mem_entered⟩
  | collect hheld _ =>
    have hdrain : Dispatch.TasksSound compute g { s with batch := s.collector.drain s.batch } := by
      unfold Collector.drain
      split
      · cases htask : s.batch.tasks[s.collector.results.size]? with
        | none => rwa [Batch.modify_of_none htask]
        | some task =>
          rw [Batch.modify_eq_put htask]
          exact h.put_collect htask
      · exact h
    exact ⟨hdrain.tiles, hdrain.tasks, hdrain.entered_nodup, hdrain.mem_entered⟩
  | abandon => exact ⟨h.tiles, h.tasks, h.entered_nodup, h.mem_entered⟩
  | @release i task hwatched htask =>
    exact h.put_same task.release htask rfl rfl (h.tasks i task htask).release

end TasksSound

end Dispatch

end WorldMap
