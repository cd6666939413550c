import WorldMap.Schedule.Batch
/-!
# The places of a batch

A step of a task replaces the task at one place. `Batch.put` is that replacement, together with that of
the tracker, which the step may have told, and the lemmas here say what is found at each place before
and after it.
-/

namespace WorldMap

variable {α : Type}

namespace Batch

variable {b : Batch α} {i j : Nat} {task : TileTask α}

def put (b : Batch α) (i : Nat) (task : TileTask α) (t : Tracker) : Batch α :=
  ⟨b.tasks.setIfInBounds i task, t⟩

theorem modify_eq_put {f : TileTask α → TileTask α} (htask : b.tasks[i]? = some task) :
    b.modify i f = b.put i (f task) b.tracker := by
  obtain ⟨hi, rfl⟩ := Array.getElem?_eq_some_iff.1 htask
  simp only [modify, put, Batch.mk.injEq, and_true]
  apply Array.ext (by simp)
  intro j hj _
  simp only [Array.getElem_modify, Array.getElem_setIfInBounds (by simpa using hj)]
  split <;> simp_all

theorem put_self (htask : b.tasks[i]? = some task) : b.put i task b.tracker = b := by
  obtain ⟨hi, rfl⟩ := Array.getElem?_eq_some_iff.1 htask
  have htasks : b.tasks.setIfInBounds i b.tasks[i] = b.tasks := by
    apply Array.ext (by simp)
    intro j hj _
    rw [Array.getElem_setIfInBounds (by simpa using hj)]
    split <;> simp_all
  rw [put, htasks]

theorem modify_of_none {f : TileTask α → TileTask α} (htask : b.tasks[i]? = none) :
    b.modify i f = b := by
  have hi : b.tasks.size ≤ i := Array.getElem?_eq_none_iff.1 htask
  have htasks : b.tasks.modify i f = b.tasks := by
    apply Array.ext (by simp)
    intro j hj _
    rw [Array.getElem_modify, if_neg (by simp at hj; omega)]
  rw [modify, htasks]

theorem phase_of_task (htask : b.tasks[i]? = some task) : b.phase i = task.phase := by
  simp [phase, htask]

theorem channel_of_task (htask : b.tasks[i]? = some task) : b.channel i = task.channel := by
  simp [channel, htask]

theorem tile_of_task (htask : b.tasks[i]? = some task) : b.tile i = task.tile := by
  simp [tile, htask]

/-- A place without a task counts as skipped, so any other phase is that of a task. -/
theorem exists_task_of_phase {p : Phase α} (hphase : b.phase i = p) (hp : p ≠ .skipped) :
    ∃ task, b.tasks[i]? = some task ∧ task.phase = p := by
  cases htask : b.tasks[i]? with
  | none => exact absurd (by simp [← hphase, phase, htask]) hp
  | some task => exact ⟨task, rfl, by rw [← hphase, phase_of_task htask]⟩

def tiles (b : Batch α) : List Tile := b.tasks.toList.map (·.tile)

theorem length_tiles (b : Batch α) : b.tiles.length = b.size := by
  simp [tiles, size]

theorem tiles_ofGrid (g : Grid) (listened : Bool) : (ofGrid (α := α) g listened).tiles = g.tiles := by
  simp [tiles, ofGrid, TileTask.queue, Function.comp_def]

/-- At first every task waits in the queue. -/
theorem exists_queue_of_ofGrid {g : Grid} {listened : Bool}
    (htask : (ofGrid g listened).tasks[i]? = some task) : ∃ tile, task = TileTask.queue tile := by
  simp only [ofGrid, List.getElem?_toArray, List.getElem?_map, Option.map_eq_some_iff] at htask
  obtain ⟨tile, -, rfl⟩ := htask
  exact ⟨tile, rfl⟩

theorem tiles_getElem? (htask : b.tasks[i]? = some task) : b.tiles[i]? = some task.tile := by
  simp [tiles, htask]

theorem tiles_put {new : TileTask α} {t : Tracker} (htask : b.tasks[i]? = some task)
    (htile : new.tile = task.tile) : (b.put i new t).tiles = b.tiles := by
  apply List.ext_getElem?
  intro j
  simp only [tiles, put, List.getElem?_map, Array.getElem?_toList, Array.getElem?_setIfInBounds]
  split
  · subst j
    obtain ⟨hi, rfl⟩ := Array.getElem?_eq_some_iff.1 htask
    simp [hi, htile]
  · rfl

theorem getElem?_put {new : TileTask α} {t : Tracker} (htask : b.tasks[i]? = some task) :
    (b.put i new t).tasks[j]? = if i = j then some new else b.tasks[j]? := by
  obtain ⟨hi, -⟩ := Array.getElem?_eq_some_iff.1 htask
  simp only [put, Array.getElem?_setIfInBounds, hi, if_true]

/-- What holds of every task holds of every task once a new one is put to which it applies. -/
theorem forall_put {new : TileTask α} {t : Tracker} {Holds : Nat → TileTask α → Prop}
    (hall : ∀ j task, b.tasks[j]? = some task → Holds j task) (htask : b.tasks[i]? = some task)
    (hnew : Holds i new) : ∀ j task, (b.put i new t).tasks[j]? = some task → Holds j task := by
  intro j other hother
  rw [getElem?_put htask] at hother
  split at hother
  · subst j
    exact Option.some.inj hother ▸ hnew
  · exact hall j other hother

end Batch

end WorldMap
