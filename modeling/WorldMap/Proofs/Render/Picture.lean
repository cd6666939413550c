import WorldMap.Proofs.Render.Job
import WorldMap.Proofs.Render.Workshop
import WorldMap.Proofs.Schedule.Invariant
import WorldMap.Proofs.Tiles.Canvas
/-!
# The picture of a job

`Engine.picture` is what a job comes to if nothing but the job is looked at: the tiles that show are
computed one after the other, in the order of the grid, and composed. It is a plain function,
without workers, tokens or a collector. Of the target it takes no more than the size, since a job
that is accepted has a surface to draw on and all of the target is written over; and of the job it
takes no more than width, height and scale.
-/

namespace WorldMap

/-! ### Jobs that are accepted -/

namespace Engine

theorem accepts_eq_ok_iff {job : Job} {width height : Nat} :
    accepts job width height = .ok () ↔
      job.Accepted ∧ width = job.width.toNat ∧ height = job.height.toNat := by
  unfold accepts
  cases hvalid : job.validate with
  | error f =>
    have hnot : ¬ job.Accepted := by
      intro haccepted
      rw [Job.validate_eq_ok_iff.2 haccepted] at hvalid
      simp at hvalid
    simp [bind, Except.bind, hnot]
  | ok u =>
    have haccepted := Job.validate_eq_ok_iff.1 hvalid
    by_cases hsize : width = job.width.toNat ∧ height = job.height.toNat
    · simp [bind, Except.bind, haccepted, hsize, pure, Except.pure]
    · simp [bind, Except.bind, haccepted, hsize, throw, throwThe, MonadExceptOf.throw]

/-- A job is turned away for a problem with its geometry, and for nothing else. -/
theorem exists_problem_of_accepts {job : Job} {width height : Nat} {f : RenderError}
    (h : accepts job width height = .error f) : ∃ problem, f = job.refuse problem := by
  unfold accepts at h
  cases hproblem : job.problem? with
  | some problem =>
    refine ⟨problem, ?_⟩
    have hvalid : job.validate = .error (job.refuse problem) := by simp [Job.validate, hproblem]
    rw [hvalid] at h
    exact (Except.error.inj h).symm
  | none =>
    refine ⟨.targetSize width height, ?_⟩
    have hvalid : job.validate = .ok () := by simp [Job.validate, hproblem]
    by_cases hsize : width = job.width.toNat ∧ height = job.height.toNat
    · simp [hvalid, hsize, bind, Except.bind, pure, Except.pure] at h
    · simp [hvalid, hsize, bind, Except.bind, throw, throwThe, MonadExceptOf.throw] at h
      exact h.symm

end Engine

namespace Job

variable {j j' : Job}

/-- The jobs ask for the same view. Who is told of the progress, and by which token a job is
cancelled, does not count. -/
structure SameView (j j' : Job) : Prop where
  width : j.width = j'.width
  height : j.height = j'.height
  scale : j.scale = j'.scale

theorem SameView.visible_eq (h : j.SameView j') : j.visible = j'.visible := by
  unfold visible viewport
  rw [h.width, h.height, h.scale]

theorem Accepted.exists_surface (h : j.Accepted) :
    ∃ surface, Pixmap.blank? j.width.toNat j.height.toNat = some surface :=
  Pixmap.exists_blank? h.width_pos h.width_le h.height_pos

theorem visible_eq_ok {v : Viewport} {a : Area} (hview : j.viewport = .ok v)
    (harea : v.worldArea = .ok a) : j.visible = .ok (v, a) := by
  rw [visible, hview]
  show (do return (v, ← v.worldArea) : Checked (Viewport × Area)) = .ok (v, a)
  rw [harea]
  rfl

theorem Accepted.exists_visible (h : j.Accepted) :
    ∃ v a, j.visible = .ok (v, a) ∧ j.Sees v a := by
  obtain ⟨v, a, hview, harea, hsees⟩ := h.exists_sees
  exact ⟨v, a, visible_eq_ok hview harea, hsees⟩

theorem Accepted.sees_of_visible (h : j.Accepted) {v : Viewport} {a : Area}
    (hvisible : j.visible = .ok (v, a)) : j.Sees v a := by
  obtain ⟨v', a', hvisible', hsees⟩ := h.exists_visible
  obtain ⟨rfl, rfl⟩ := Prod.mk.inj (Except.ok.inj (hvisible.symm.trans hvisible'))
  exact hsees

end Job

/-! ### The tiles of a job -/

namespace Engine

variable {σ : Type} {e : Engine σ} {job : Job} {view : Viewport} {area : Area} {grid : Grid}

theorem plan_of_visible (h : job.visible = .ok (view, area)) :
    e.plan job = .ok (view, area, Grid.covering area e.layout) := by
  rw [plan, h]
  change (Grid.cover area e.layout >>= fun grid => pure (view, area, grid)) = _
  rw [Grid.cover_eq]
  rfl

theorem plan_of_visible_error {f : Fault} (h : job.visible = .error f) : e.plan job = .error f := by
  rw [plan, h]
  rfl

/-- The tiles that are ordered are those that show, and there is room for their tasks. -/
theorem order_eq_ok_iff : e.order job = .ok (view, grid) ↔
    ∃ area, job.visible = .ok (view, area) ∧ grid = Grid.covering area e.layout ∧
      grid.size ≤ Batch.maxTasks := by
  cases hvisible : job.visible with
  | error f => simp [order_of_plan_error (plan_of_visible_error hvisible)]
  | ok seen =>
    obtain ⟨view', area⟩ := seen
    rw [order_of_plan (plan_of_visible hvisible), Batch.room]
    by_cases hroom : (Grid.covering area e.layout).size ≤ Batch.maxTasks
    · rw [if_pos hroom]
      constructor
      · rintro ⟨⟩
        exact ⟨area, rfl, rfl, hroom⟩
      · rintro ⟨area', ⟨⟩, rfl, -⟩
        rfl
    · rw [if_neg hroom]
      refine ⟨nofun, ?_⟩
      rintro ⟨area', ⟨⟩, rfl, hsize⟩
      exact absurd hsize hroom

/-- More tiles show in a job than there is room for tasks. -/
def Crowds (e : Engine σ) (job : Job) : Prop :=
  ∃ view area, job.visible = .ok (view, area) ∧
    Batch.maxTasks < (Grid.covering area e.layout).size

/-- The tiles of an accepted job are ordered unless they are too many. -/
theorem order_eq_error_iff {f : Fault} (h : job.Accepted) :
    e.order job = .error f ↔ f = .capacity ∧ e.Crowds job := by
  obtain ⟨view, area, hvisible, -⟩ := h.exists_visible
  rw [order_of_plan (plan_of_visible hvisible), Batch.room]
  by_cases hroom : (Grid.covering area e.layout).size ≤ Batch.maxTasks
  · rw [if_pos hroom]
    refine ⟨nofun, ?_⟩
    rintro ⟨-, view', area', hvisible', hsize⟩
    obtain ⟨rfl, rfl⟩ := Prod.mk.inj (Except.ok.inj (hvisible.symm.trans hvisible'))
    omega
  · rw [if_neg hroom]
    constructor
    · rintro ⟨⟩
      exact ⟨rfl, view, area, hvisible, Nat.lt_of_not_le hroom⟩
    · rintro ⟨rfl, -⟩
      rfl

end Engine

/-! ### The picture -/

namespace Engine

variable {σ : Type} {e : Engine σ} {compute : Tile → Attempt TileError Pixmap}

/-- What the tiles that show in an area come to, row by row. -/
def shown (e : Engine σ) (compute : Tile → Attempt TileError Pixmap) (a : Area) :
    List (TileResult Pixmap) :=
  (Grid.covering a e.layout).tiles.map fun t => TileResult.ofAttempt t (compute t)

/-- The job over `target`, one tile after the other. -/
def picture (e : Engine σ) (compute : Tile → Attempt TileError Pixmap) (job : Job)
    (target : Image) : Checked Image := do
  let (view, area) ← job.visible
  e.compositor.composite target view (e.shown compute area)

theorem picture_of_visible {job : Job} {view : Viewport} {area : Area}
    (hvisible : job.visible = .ok (view, area)) (target : Image) :
    e.picture compute job target = e.compositor.composite target view (e.shown compute area) := by
  rw [picture, hvisible]
  rfl

/-- Jobs of one view have one picture, over whatever it is painted. -/
theorem picture_congr {job job' : Job} {target target' : Image} (h : job.Accepted)
    (hview : job.SameView job') (hwidth : target.width = job.width.toNat)
    (hheight : target.height = job.height.toNat) (hwidth' : target'.width = job'.width.toNat)
    (hheight' : target'.height = job'.height.toNat) :
    e.picture compute job target = e.picture compute job' target' := by
  obtain ⟨surface, hsurface⟩ := h.exists_surface
  obtain ⟨v, a, hvisible, -⟩ := h.exists_visible
  rw [picture_of_visible hvisible, picture_of_visible (hview.visible_eq ▸ hvisible)]
  rw [← hwidth, ← hheight] at hsurface
  apply Compositor.composite_congr _ _ hsurface
  · rw [hwidth, hwidth', hview.width]
  · rw [hheight, hheight', hview.height]

end Engine

end WorldMap
