import WorldMap.Proofs.Schedule.Tasks
/-!
# The phase of a task after a move

Only a step of its own task changes the phase of a task, and then the new phase is a function of the
old one, of what the tile comes to, of the job's token and of the tracker. `Phase.after` is that
function, and `Dispatch.phase_step` says so of every move. The collector has no part in it: a send
is never held up, as it finds its channel empty. So what the tasks do can be read off their own
moves alone.
-/

namespace WorldMap

variable {α : Type} {compute : Tile → Attempt TileError α}

/-- The place of the task of which a move is a step. -/
def Move.place? : Move → Option Nat
  | .check i => some i
  | .finish i => some i
  | .count i => some i
  | .report i _ => some i
  | .send i => some i
  | _ => none

/-- What its own task's move makes of a phase, if the tile comes to `a` and `n` is the next count.
-/
def Phase.after (a : Attempt TileError α) (cancelled : Bool) (n : Nat) : Move → Phase α → Phase α
  | .check _, .queued => if cancelled then .skipped else .computing
  | .finish _, .computing => .computed a.outcome
  | .count _, .computed r => .counted r n
  | .report _ _, .counted r _ => .reported r
  | .send _, .reported r => .sent r
  | _, p => p

/-! ### The batch -/

namespace Batch

variable {b : Batch α} {i j : Nat} {f : TileTask α → TileTask α}

theorem phase_modify (f : TileTask α → TileTask α) (b : Batch α) (i j : Nat) :
    (b.modify i f).phase j =
      if i = j then (b.tasks[i]?.map fun task => (f task).phase).getD .skipped else b.phase j := by
  simp only [phase, modify, Array.getElem?_modify]
  split
  · subst j
    simp [Function.comp_def]
  · rfl

/-- A change that the phases take no part in. -/
theorem phase_modify_same (hf : ∀ task, (f task).phase = task.phase) :
    (b.modify i f).phase j = b.phase j := by
  rw [phase_modify]
  split
  · subst j
    simp [phase, hf]
  · rfl

theorem tile_eq_getD (b : Batch α) (i : Nat) : b.tile i = (b.tiles[i]?).getD default := by
  simp [tile, tiles]

section

variable {a : Attempt TileError α} {cancelled : Bool} {n : Nat} {m : Move}

/-- A move that changes the task at a place. -/
private theorem phase_modify_eq_ite (hskipped : b.phase i ≠ .skipped)
    (hf : ∀ task, (f task).phase = (b.phase i).after a cancelled n m) :
    (b.modify i f).phase j = if i = j then (b.phase j).after a cancelled n m else b.phase j := by
  obtain ⟨task, htask, -⟩ := exists_task_of_phase rfl hskipped
  rw [phase_modify]
  split
  · subst j
    simp [htask, hf]
  · rfl

/-- A move that finds nothing to do. -/
private theorem phase_eq_ite (hafter : (b.phase i).after a cancelled n m = b.phase i) :
    b.phase j = if i = j then (b.phase j).after a cancelled n m else b.phase j := by
  split
  · subst j
    exact hafter.symm
  · rfl

theorem phase_check (b : Batch α) (i j : Nat) :
    (b.check i cancelled).phase j =
      if i = j then (b.phase j).after a cancelled n (.check i) else b.phase j := by
  cases hphase : b.phase i with
  | queued =>
    simp only [check, hphase]
    apply phase_modify_eq_ite
    · simp [hphase]
    · intro task
      rw [hphase]
      cases cancelled <;> rfl
  | _ =>
    simp only [check, hphase]
    apply phase_eq_ite
    rw [hphase]
    rfl

theorem phase_finish (b : Batch α) (i j : Nat) :
    (b.finish i a).phase j =
      if i = j then (b.phase j).after a cancelled n (.finish i) else b.phase j := by
  cases hphase : b.phase i with
  | computing =>
    simp only [finish, hphase]
    apply phase_modify_eq_ite
    · simp [hphase]
    · intro task
      rw [hphase]
      rfl
  | _ =>
    simp only [finish, hphase]
    apply phase_eq_ite
    rw [hphase]
    rfl

theorem phase_count (b : Batch α) (i j : Nat) :
    (b.count i).phase j =
      if i = j then (b.phase j).after a cancelled b.tracker.count.1 (.count i) else b.phase j := by
  cases hphase : b.phase i with
  | computed r =>
    simp only [count, hphase]
    apply phase_modify_eq_ite
    · simp [hphase]
    · intro task
      rw [hphase]
      rfl
  | _ =>
    simp only [count, hphase]
    apply phase_eq_ite
    rw [hphase]
    rfl

theorem phase_report (b : Batch α) (i j : Nat) (breaksOff : Bool) :
    (b.report i breaksOff).phase j =
      if i = j then (b.phase j).after a cancelled n (.report i breaksOff) else b.phase j := by
  cases hphase : b.phase i with
  | counted r k =>
    simp only [report, hphase]
    apply phase_modify_eq_ite
    · simp [hphase]
    · intro task
      rw [hphase]
      rfl
  | _ =>
    simp only [report, hphase]
    apply phase_eq_ite
    rw [hphase]
    rfl

/-- A send that is not held up. -/
theorem phase_send (b : Batch α) (i j : Nat)
    (hroom : ∀ r, b.phase i = .reported r → ∃ c, (b.channel i).send? r = some c) :
    (b.send i).phase j =
      if i = j then (b.phase j).after a cancelled n (.send i) else b.phase j := by
  cases hphase : b.phase i with
  | reported r =>
    obtain ⟨c, hsend⟩ := hroom r hphase
    simp only [send, hphase, hsend]
    apply phase_modify_eq_ite
    · simp [hphase]
    · intro task
      rw [hphase]
      rfl
  | _ =>
    simp only [send, hphase]
    apply phase_eq_ite
    rw [hphase]
    rfl

end

/-! ### The tracker of a batch -/

@[simp] theorem tracker_check (b : Batch α) (i : Nat) (cancelled : Bool) :
    (b.check i cancelled).tracker = b.tracker := by
  unfold check
  split <;> rfl

@[simp] theorem tracker_finish (b : Batch α) (i : Nat) (a : Attempt TileError α) :
    (b.finish i a).tracker = b.tracker := by
  unfold finish
  split <;> rfl

@[simp] theorem tracker_send (b : Batch α) (i : Nat) : (b.send i).tracker = b.tracker := by
  unfold send
  split
  · split <;> rfl
  · rfl

theorem tracker_count (b : Batch α) (i : Nat) :
    (b.count i).tracker =
      match b.phase i with
      | .computed _ => b.tracker.count.2
      | _ => b.tracker := by
  simp only [count]
  cases b.phase i <;> rfl

theorem tracker_report (b : Batch α) (i : Nat) (breaksOff : Bool) :
    (b.report i breaksOff).tracker =
      match b.phase i with
      | .counted _ n => b.tracker.report n breaksOff
      | _ => b.tracker := by
  simp only [report]
  cases b.phase i <;> rfl

end Batch

@[simp] theorem Collector.tracker_drain (b : Batch α) (c : Collector α) :
    (c.drain b).tracker = b.tracker := by
  unfold drain
  split <;> rfl

@[simp] theorem Collector.phase_drain (b : Batch α) (c : Collector α) (i : Nat) :
    (c.drain b).phase i = b.phase i := by
  unfold drain
  split
  · apply Batch.phase_modify_same
    intro task
    rfl
  · rfl

/-! ### The job -/

namespace Dispatch

variable {g : Grid} {s : Dispatch α} {i : Nat}

theorem TasksSound.step (h : s.TasksSound compute g) (m : Move) :
    (s.step compute m).TasksSound compute g := by
  rcases step_cases compute s m with hsame | hchange
  · rwa [hsame]
  · exact h.change hchange

theorem TasksSound.run (h : s.TasksSound compute g) (moves : List Move) :
    (s.run compute moves).TasksSound compute g :=
  run_induction (fun _ m h => h.step m) h moves

theorem TasksSound.tile_eq (h : s.TasksSound compute g) (i : Nat) :
    s.batch.tile i = (g.tiles[i]?).getD default := by
  rw [Batch.tile_eq_getD, h.tiles]

theorem phase_start (g : Grid) (listened : Bool) (hi : i < g.size) :
    (start (α := α) g listened).batch.phase i = .queued := by
  have hsize : i < (Batch.ofGrid (α := α) g listened).tasks.size := by
    simpa [Batch.ofGrid, g.length_tiles] using hi
  have htask := Array.getElem?_eq_getElem hsize
  obtain ⟨tile, hqueue⟩ := Batch.exists_queue_of_ofGrid htask
  show (Batch.ofGrid g listened).phase i = _
  rw [Batch.phase_of_task htask, hqueue]
  rfl

/-- No send is held up. -/
theorem TasksSound.exists_send? (h : s.TasksSound compute g) {r : Except TileError α}
    (hphase : s.batch.phase i = .reported r) : ∃ c, (s.batch.channel i).send? r = some c := by
  obtain ⟨task, htask, hreported⟩ := Batch.exists_task_of_phase hphase (by simp)
  have hsend := (h.tasks i task htask).send?_eq (by simp [hreported]) r
  exact ⟨_, by rw [Batch.channel_of_task htask, hsend]⟩

/-- The phases after a move. -/
theorem phase_step (h : s.TasksSound compute g) (m : Move) (j : Nat) :
    (s.step compute m).batch.phase j =
      if m.place? = some j then
        (s.batch.phase j).after (compute (s.batch.tile j)) s.cancelled s.batch.tracker.count.1 m
      else s.batch.phase j := by
  cases m with
  | check i =>
    simp only [Move.place?, Option.some.injEq]
    exact s.batch.phase_check i j
  | finish i =>
    simp only [Move.place?, Option.some.injEq]
    have hfinish : (s.step compute (.finish i)).batch.phase j =
        if i = j then (s.batch.phase j).after (compute (s.batch.tile i)) s.cancelled
          s.batch.tracker.count.1 (.finish i) else s.batch.phase j :=
      s.batch.phase_finish i j
    rw [hfinish]
    split
    · subst j
      rfl
    · rfl
  | count i =>
    simp only [Move.place?, Option.some.injEq]
    exact s.batch.phase_count i j
  | report i breaksOff =>
    simp only [Move.place?, Option.some.injEq]
    exact s.batch.phase_report i j breaksOff
  | send i =>
    simp only [Move.place?, Option.some.injEq]
    exact s.batch.phase_send i j fun r hphase => h.exists_send? hphase
  | collect =>
    simp only [step]
    split
    · rfl
    · exact s.collector.phase_drain s.batch j
  | release i =>
    simp only [step]
    split
    · rfl
    · exact Batch.phase_modify_same fun task => rfl
  | cancel => rfl
  | interrupt => rfl
  | abandon => rfl

end Dispatch

end WorldMap
