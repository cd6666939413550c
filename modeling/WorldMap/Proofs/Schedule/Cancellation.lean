import WorldMap.Proofs.Number.Fraction
import WorldMap.Proofs.Schedule.Calls
import WorldMap.Proofs.Schedule.Phases
import WorldMap.Proofs.Schedule.Stopping
/-!
# A cancelled job starts no further work and never looks finished

The tracker's count is the number of tasks that have counted, at any time, and each of them has
begun its computation first: `Dispatch.Accounted` keeps the books, over every change of a job. A
task that has not made its check when the token fires never begins, so it never counts, and the
count of all tiles is never reached.
-/

namespace WorldMap

variable {α : Type} {compute : Tile → Attempt TileError α}

namespace Phase

/-- Whether the tile has been counted as finished. -/
def hasCounted : Phase α → Bool
  | .counted _ _ => true
  | .reported _ => true
  | .sent _ => true
  | _ => false

theorem hasBegun_of_hasCounted {p : Phase α} (hcounted : p.hasCounted = true) :
    p.hasBegun = true := by
  cases p <;> simp_all [hasCounted, hasBegun]

theorem hasBegun_eq_false_iff {p : Phase α} : p.hasBegun = false ↔ p = .queued ∨ p = .skipped := by
  cases p <;> simp [hasBegun]

/-- Once the token has fired no task begins. -/
theorem hasBegun_after {p : Phase α} (hp : p.hasBegun = false) (a : Attempt TileError α) (n : Nat)
    (m : Move) : (p.after a true n m).hasBegun = false := by
  rcases hasBegun_eq_false_iff.1 hp with rfl | rfl <;> cases m <;> rfl

end Phase

/-! ### Keeping the books -/

namespace Batch

variable {b : Batch α} {i : Nat} {task : TileTask α}

/-- Replacing a task changes a number of tasks by what the two count for. -/
theorem countP_put (htask : b.tasks[i]? = some task) (new : TileTask α) (t : Tracker)
    (p : TileTask α → Bool) :
    (b.put i new t).tasks.countP p + (p task).toNat = b.tasks.countP p + (p new).toNat := by
  obtain ⟨hi, rfl⟩ := Array.getElem?_eq_some_iff.1 htask
  have hset : (b.put i new t).tasks = b.tasks.set i new := by
    simp [put, Array.setIfInBounds, hi]
  have hle : (p b.tasks[i]).toNat ≤ b.tasks.countP p := by
    cases hp : p b.tasks[i] with
    | false => exact Nat.zero_le _
    | true => exact Array.countP_pos_iff.2 ⟨_, Array.getElem_mem hi, hp⟩
  have htoNat : ∀ q : Bool, (if q = true then 1 else 0) = q.toNat := by decide
  rw [hset, Array.countP_set, htoNat, htoNat]
  omega

end Batch

namespace Dispatch

variable {g : Grid} {s s' : Dispatch α} {i : Nat} {task new : TileTask α}

/-- What the record of begun computations and the tracker have to do with the tasks. -/
structure Accounted (g : Grid) (s : Dispatch α) : Prop where
  total : s.batch.tracker.total = g.size
  begun : s.entered.length = s.batch.tasks.countP (·.phase.hasBegun)
  counted : s.batch.tracker.completed = s.batch.tasks.countP (·.phase.hasCounted)
  given : ∀ (i : Nat) (task : TileTask α), s.batch.tasks[i]? = some task →
    ∀ r n, task.phase = .counted r n → n ≤ s.batch.tracker.completed
  reported : ∀ n ∈ s.batch.tracker.reports, 0 < n ∧ n ≤ s.batch.tracker.completed

namespace Accounted

theorem start (g : Grid) (listened : Bool) : (Dispatch.start (α := α) g listened).Accounted g := by
  have hqueued : ∀ task ∈ (Batch.ofGrid (α := α) g listened).tasks, task.phase = .queued := by
    intro task htask
    obtain ⟨i, hi⟩ := Array.mem_iff_getElem?.1 htask
    obtain ⟨tile, rfl⟩ := Batch.exists_queue_of_ofGrid hi
    rfl
  constructor
  · rfl
  · symm
    apply Array.countP_eq_zero.2
    intro task htask
    simp [hqueued task htask, Phase.hasBegun]
  · symm
    apply Array.countP_eq_zero.2
    intro task htask
    simp [hqueued task htask, Phase.hasCounted]
  · intro i task htask r n hphase
    simp [hqueued task (Array.mem_of_getElem? htask)] at hphase
  · intro n hn
    exact absurd hn (Array.not_mem_empty n)

/-- A task is replaced, and the books with it. -/
private theorem put (h : s.Accounted g) (htask : s.batch.tasks[i]? = some task) {t : Tracker}
    {entered : List Nat} (htotal : t.total = s.batch.tracker.total)
    (hbegun : entered.length + task.phase.hasBegun.toNat =
      s.entered.length + new.phase.hasBegun.toNat)
    (hcounted : t.completed + task.phase.hasCounted.toNat =
      s.batch.tracker.completed + new.phase.hasCounted.toNat)
    (hle : s.batch.tracker.completed ≤ t.completed)
    (hgiven : ∀ r n, new.phase = .counted r n → n ≤ t.completed)
    (hreported : ∀ n ∈ t.reports, 0 < n ∧ n ≤ t.completed) :
    Dispatch.Accounted g { s with batch := s.batch.put i new t, entered } := by
  have hgiven' : ∀ (j : Nat) (other : TileTask α), s.batch.tasks[j]? = some other →
      ∀ r n, other.phase = .counted r n → n ≤ t.completed := by
    intro j other hother r n hphase
    exact Nat.le_trans (h.given j other hother r n hphase) hle
  constructor
  · exact htotal.trans h.total
  · have hput := Batch.countP_put htask new t (·.phase.hasBegun)
    have hbefore := h.begun
    show entered.length = (s.batch.put i new t).tasks.countP _
    omega
  · have hput := Batch.countP_put htask new t (·.phase.hasCounted)
    have hbefore := h.counted
    show t.completed = (s.batch.put i new t).tasks.countP _
    omega
  · exact Batch.forall_put hgiven' htask hgiven
  · exact hreported

/-- A task is replaced by one that has come as far, and nothing was counted. -/
private theorem put_same (h : s.Accounted g) (htask : s.batch.tasks[i]? = some task)
    (hbegun : new.phase.hasBegun = task.phase.hasBegun)
    (hcounted : new.phase.hasCounted = task.phase.hasCounted)
    (hgiven : ∀ r n, new.phase = .counted r n → task.phase = .counted r n) :
    Dispatch.Accounted g { s with batch := s.batch.put i new s.batch.tracker } := by
  apply h.put htask
  · rfl
  · rw [hbegun]
  · rw [hcounted]
  · exact Nat.le_refl _
  · intro r n hphase
    exact h.given i task htask r n (hgiven r n hphase)
  · exact h.reported

private theorem drain (h : s.Accounted g) (c : Collector α) :
    Dispatch.Accounted g { s with batch := c.drain s.batch } := by
  unfold Collector.drain
  split
  · cases htask : s.batch.tasks[c.results.size]? with
    | none => rwa [Batch.modify_of_none htask]
    | some task =>
      rw [Batch.modify_eq_put htask]
      exact h.put_same htask rfl rfl fun r n hphase => hphase
  · exact h

/-- A report names the count of a call, which the tracker has given out. -/
private theorem reported_report (h : s.Accounted g) {r : Except TileError α} {n : Nat}
    (htask : s.batch.tasks[i]? = some task) (hphase : task.phase = .counted r n)
    (breaksOff : Bool) :
    ∀ k ∈ (s.batch.tracker.report n breaksOff).reports,
      0 < k ∧ k ≤ (s.batch.tracker.report n breaksOff).completed := by
  rw [Tracker.completed_report]
  unfold Tracker.report
  split
  · rename_i hnews
    intro k hk
    rcases Array.mem_push.1 hk with hk | rfl
    · exact h.reported k hk
    · rw [Tracker.isNews, Bool.and_eq_true, decide_eq_true_eq] at hnews
      exact ⟨Nat.zero_lt_of_lt hnews.2, h.given i task htask r k hphase⟩
  · exact h.reported

private theorem work (h : s.Accounted g) {t : Tracker} (htask : s.batch.tasks[i]? = some task)
    (hadvance : task.Advance compute s.cancelled s.batch.tracker new t) :
    (s.put i new t).Accounted g := by
  cases hadvance with
  | begin hphase _ =>
    apply h.put htask
    · rfl
    · rw [hphase]
      rfl
    · rw [hphase]
      rfl
    · exact Nat.le_refl _
    · intro r n hnew
      simp [TileTask.enter] at hnew
    · exact h.reported
  | skip hphase _ =>
    refine h.put_same htask (by rw [hphase]; rfl) (by rw [hphase]; rfl) fun r n hnew => ?_
    simp [TileTask.close] at hnew
  | finish hphase =>
    refine h.put_same htask (by rw [hphase]; rfl) (by rw [hphase]; rfl) fun r n hnew => ?_
    simp [TileTask.enter] at hnew
  | count hphase =>
    apply h.put htask
    · rfl
    · rw [hphase]
      rfl
    · rw [hphase]
      rfl
    · exact Nat.le_succ _
    · intro r n hnew
      obtain ⟨-, rfl⟩ := Phase.counted.inj hnew
      exact Nat.le_refl _
    · intro n hn
      obtain ⟨hpos, hle⟩ := h.reported n hn
      exact ⟨hpos, Nat.le_succ_of_le hle⟩
  | report hphase breaksOff =>
    apply h.put htask
    · exact Tracker.total_report
    · rw [hphase]
      rfl
    · rw [hphase, Tracker.completed_report]
      rfl
    · exact Nat.le_of_eq Tracker.completed_report.symm
    · intro r n hnew
      simp [TileTask.enter] at hnew
    · exact h.reported_report htask hphase breaksOff
  | send hphase _ =>
    refine h.put_same htask (by rw [hphase]; rfl) (by rw [hphase]; rfl) fun r n hnew => ?_
    simp [TileTask.close] at hnew

theorem change (hchange : s.Change compute s') (h : s.Accounted g) : s'.Accounted g := by
  cases hchange with
  | work htask hadvance => exact h.work htask hadvance
  | cancel => exact ⟨h.total, h.begun, h.counted, h.given, h.reported⟩
  | interrupt => exact ⟨h.total, h.begun, h.counted, h.given, h.reported⟩
  | collect _ _ =>
    have hdrain := h.drain s.collector
    exact ⟨hdrain.total, hdrain.begun, hdrain.counted, hdrain.given, hdrain.reported⟩
  | abandon => exact ⟨h.total, h.begun, h.counted, h.given, h.reported⟩
  | release _ htask => exact h.put_same htask rfl rfl fun r n hphase => hphase

theorem completed_le (h : s.Accounted g) : s.batch.tracker.completed ≤ s.entered.length := by
  rw [h.counted, h.begun]
  apply Array.countP_mono_left
  intro task _
  exact Phase.hasBegun_of_hasCounted

theorem length_entered_le (h : s.Accounted g) : s.entered.length ≤ s.batch.size := by
  rw [h.begun]
  exact Array.countP_le_size

/-- One task that has not counted keeps the count below the number of all. -/
theorem completed_lt (h : s.Accounted g) (htask : s.batch.tasks[i]? = some task)
    (huncounted : task.phase.hasCounted = false) :
    s.batch.tracker.completed < s.batch.size := by
  rw [h.counted]
  apply Nat.lt_of_le_of_ne
  · exact Array.countP_le_size
  · intro hall
    have hcounted := Array.countP_eq_size.1 hall task (Array.mem_of_getElem? htask)
    simp [huncounted] at hcounted

end Accounted

theorem run_accounted (compute : Tile → Attempt TileError α) (g : Grid) (listened : Bool)
    (moves : List Move) : ((start g listened).run compute moves).Accounted g :=
  run_keeps (Dispatch.Accounted g) (fun _ _ => Accounted.change) (.start g listened) moves

/-! ### What the token keeps from happening -/

/-- A task that has not begun when the token has fired never does. -/
theorem hasBegun_run (h : s.TasksSound compute g) (hcancelled : s.cancelled = true)
    (hunbegun : (s.batch.phase i).hasBegun = false) (moves : List Move) :
    ((s.run compute moves).batch.phase i).hasBegun = false := by
  induction moves generalizing s with
  | nil => exact hunbegun
  | cons m moves ih =>
    apply ih (h.step m)
    · exact hasFired_run (e := .cancelled) hcancelled [m]
    · rw [phase_step h, hcancelled]
      split
      · exact Phase.hasBegun_after hunbegun _ _ m
      · exact hunbegun

/-- What is recorded as begun is at a place whose task has begun. -/
theorem TasksSound.not_mem_entered (h : s.TasksSound compute g)
    (hunbegun : (s.batch.phase i).hasBegun = false) : i ∉ s.entered := by
  rw [h.mem_entered]
  rintro ⟨task, htask, hbegun⟩
  rw [Batch.phase_of_task htask] at hunbegun
  simp [hbegun] at hunbegun

/-- A job that has begun nothing has nothing on its books. -/
theorem Accounted.eq_nil_of_unbegun (h : s.Accounted g) (ht : s.TasksSound compute g)
    (hunbegun : ∀ i, (s.batch.phase i).hasBegun = false) :
    s.entered = [] ∧ s.batch.tracker.completed = 0 ∧ s.batch.tracker.reports = #[] := by
  have hentered : s.entered = [] :=
    List.eq_nil_iff_forall_not_mem.2 fun i => ht.not_mem_entered (hunbegun i)
  have hcompleted : s.batch.tracker.completed = 0 := by
    have hle := h.completed_le
    rw [hentered] at hle
    exact Nat.le_zero.1 hle
  refine ⟨hentered, hcompleted, Array.eq_empty_iff_forall_not_mem.2 fun n hn => ?_⟩
  have hreported := h.reported n hn
  omega

theorem hasBegun_start (g : Grid) (listened : Bool) (i : Nat) :
    ((start (α := α) g listened).batch.phase i).hasBegun = false := by
  cases htask : (start (α := α) g listened).batch.tasks[i]? with
  | none =>
    rw [Batch.phase, htask]
    rfl
  | some task =>
    obtain ⟨tile, rfl⟩ := Batch.exists_queue_of_ofGrid htask
    rw [Batch.phase_of_task htask]
    rfl

/-- A skipped task stays so, and is never counted. -/
theorem skipped_run (h : s.TasksSound compute g) (hskipped : s.batch.phase i = .skipped)
    (moves : List Move) : (s.run compute moves).batch.phase i = .skipped := by
  induction moves generalizing s with
  | nil => exact hskipped
  | cons m moves ih =>
    apply ih (h.step m)
    rw [phase_step h, hskipped]
    split
    · cases m <;> rfl
    · rfl

/-- A job with a skipped task falls short of the number of its tiles. -/
theorem Accounted.completed_lt_of_skipped (h : s.Accounted g) (ht : s.TasksSound compute g)
    (hi : i < g.size) (hskipped : s.batch.phase i = .skipped) :
    s.batch.tracker.completed < g.size := by
  rw [← ht.size_eq] at hi ⊢
  have htask := Array.getElem?_eq_getElem hi
  rw [Batch.phase_of_task htask] at hskipped
  exact h.completed_lt htask (by rw [hskipped]; rfl)

/-- A job that falls short does not report that it is complete. -/
theorem Accounted.not_one_le_of_lt (h : s.Accounted g)
    (hlt : s.batch.tracker.completed < g.size) :
    ∀ q ∈ s.batch.tracker.reportedFractions, Binary.one.le q = false := by
  intro q hq
  obtain ⟨n, hn, rfl⟩ := List.mem_map.1 hq
  have hle := (h.reported n (Array.mem_toList_iff.1 hn)).2
  rw [← Bool.not_eq_true, h.total, Binary.one_le_completion_iff]
  omega

/-- What a collection comes to that is bound to stop. -/
theorem Halting.exists_error (h : s.Halting) (hfair : s.StopsFairly)
    {answer : Except ScheduleError (List (TileResult α) × Stats)}
    (hanswer : s.collector.answer? = some answer) :
    ∃ e, answer = .error e ∧ s.hasFired e = true := by
  cases answer with
  | ok collected =>
    exact absurd (Collector.answer?_eq_ok_iff.1 hanswer).1 h.incomplete
  | error e => exact ⟨e, rfl, hfair e (Collector.answer?_eq_error_iff.1 hanswer)⟩

end Dispatch

/-- A cancelled job starts no further work and never looks finished. At any time the tracker's count
is the number of tasks that have counted, which is at most the number of computations begun, and
that is at most the number of tiles. A task whose check comes after the firing of the token never
begins; once a task has been skipped the count stays below the number of tiles, which is never
reported, nor a share of one; and if the token fires before anything else, nothing is computed or
reported at all, and unless the engine's token fires too the collection ends as cancelled. -/
theorem Dispatch.cancelled_begins_nothing (compute : Tile → Attempt TileError α) (g : Grid)
    (listened : Bool) (before after : List Move) :
    let s := (start g listened).run compute before
    let s' := s.run compute after
    let u := (start g listened).run compute (.cancel :: after)
    (s.batch.tracker.completed = s.batch.tasks.countP (·.phase.hasCounted) ∧
      s.batch.tracker.completed ≤ s.entered.length ∧ s.entered.length ≤ g.size) ∧
    (∀ i < g.size, s.cancelled = true → s.batch.phase i = .queued →
      (s'.batch.phase i = .queued ∨ s'.batch.phase i = .skipped) ∧ i ∉ s'.entered) ∧
    (∀ i < g.size, s.batch.phase i = .skipped →
      s'.batch.tracker.completed < g.size ∧ g.size ∉ s'.batch.tracker.reports ∧
        ∀ q ∈ s'.batch.tracker.reportedFractions, Binary.one.le q = false) ∧
    (u.entered = [] ∧ u.batch.tracker.completed = 0 ∧ u.batch.tracker.reports = #[]) ∧
    (g.isEmpty = false →
      (∀ answer, u.collector.answer? = some answer → answer = .error .cancelled ∨
        (answer = .error .interrupted ∧ u.interrupted = true)) ∧
      (u.abandoned = false → 3 ≤ after.count .collect →
        ∃ e, u.collector.answer? = some (.error e))) := by
  intro s s' u
  have hs : s.Accounted g := run_accounted compute g listened before
  have ht : s.TasksSound compute g := (TasksSound.start g listened).run before
  have hs' : s'.Accounted g := run_keeps (Accounted g) (fun _ _ => Accounted.change) hs after
  have ht' : s'.TasksSound compute g := ht.run after
  have hu : u.Accounted g := run_accounted compute g listened (.cancel :: after)
  have htu : u.TasksSound compute g := (TasksSound.start g listened).run (.cancel :: after)
  have hentered : s.entered.length ≤ g.size := by
    rw [← ht.size_eq]
    exact hs.length_entered_le
  -- the job when its token has fired and nothing else has happened
  let v := (start g listened).step compute .cancel
  have htv : v.TasksSound compute g := (TasksSound.start g listened).step .cancel
  refine ⟨⟨hs.counted, hs.completed_le, hentered⟩,
    fun i hi hcancelled hqueued => ?_, fun i hi hskipped => ?_, ?_, fun hgrid => ?_⟩
  · have hunbegun := hasBegun_run ht hcancelled (by rw [hqueued]; rfl) after
    exact ⟨Phase.hasBegun_eq_false_iff.1 hunbegun, ht'.not_mem_entered hunbegun⟩
  · have hlt := hs'.completed_lt_of_skipped ht' hi (skipped_run ht hskipped after)
    refine ⟨hlt, fun hmem => ?_, hs'.not_one_le_of_lt hlt⟩
    have hle := (hs'.reported g.size hmem).2
    omega
  · apply hu.eq_nil_of_unbegun htu
    intro i
    exact hasBegun_run htv rfl (hasBegun_start g listened i) after
  · have hpos : 0 < g.size := by simpa [Grid.isEmpty, Nat.pos_iff_ne_zero] using hgrid
    have hsound : v.Sound compute g := run_sound compute g listened [.cancel]
    have hfired : ∃ e, v.hasFired e = true := ⟨.cancelled, rfl⟩
    have hhalting : u.Halting := run_keeps Halting (fun _ _ => Halting.change)
      (.of_fired hsound hpos hfired (.inl rfl)) after
    have hfair : u.StopsFairly := stopsFairly_run compute g listened (.cancel :: after)
    refine ⟨fun answer hanswer => ?_, fun hheld hcount => ?_⟩
    · obtain ⟨e, rfl, hfired⟩ := hhalting.exists_error hfair hanswer
      cases e with
      | cancelled => exact .inl rfl
      | interrupted => exact .inr ⟨rfl, hfired⟩
    · have hover : u.collector.stage.isOver = true := isOver_of_fired hfired hheld
        (Nat.le_trans (Stage.stepsLeft_le_three ..) hcount)
      obtain ⟨answer, hanswer⟩ := Collector.exists_answer?_of_isOver hover
      obtain ⟨e, rfl, -⟩ := hhalting.exists_error hfair hanswer
      exact ⟨e, hanswer⟩

private def haltedRow : Grid := .ofCorners 0 0 3 1

private def drawFive (_ : Tile) : Attempt TileError Nat := .ok 5

/-- The token fires when the first tile has been reported; the second task is skipped, and the third
has not been looked at. -/
private def haltedMoves : List Move :=
  [.check 0, .finish 0, .count 0, .report 0 false, .cancel, .check 1]

private def remainingMoves : List Move :=
  [.check 2, .finish 2, .send 0, .collect, .collect, .collect, .count 2]

theorem Dispatch.cancelled_begins_nothing_haltedRow :
    let s := (start haltedRow true).run drawFive haltedMoves
    let s' := s.run drawFive remainingMoves
    let u := (start haltedRow true).run drawFive (.cancel :: remainingMoves)
    (s.cancelled = true ∧ s.batch.phase 2 = .queued ∧ 2 ∉ s'.entered) ∧
    (s.batch.phase 1 = .skipped ∧ s'.batch.tracker.completed < haltedRow.size ∧
      haltedRow.size ∉ s'.batch.tracker.reports) ∧
    haltedRow.isEmpty = false ∧ u.collector.answer? = some (.error .cancelled) := by
  obtain ⟨-, hlate, hshort, -, hends⟩ :=
    cancelled_begins_nothing drawFive haltedRow true haltedMoves remainingMoves
  dsimp only at hlate hshort hends ⊢
  have hgrid : haltedRow.isEmpty = false := by decide
  obtain ⟨hcause, hstops⟩ := hends hgrid
  obtain ⟨e, hanswer⟩ := hstops rfl (by decide)
  obtain ⟨-, hunbegun⟩ := hlate 2 (by decide) rfl rfl
  obtain ⟨hlt, hmem, -⟩ := hshort 1 (by decide) rfl
  refine ⟨⟨rfl, rfl, hunbegun⟩, ⟨rfl, hlt, hmem⟩, hgrid, ?_⟩
  rcases hcause _ hanswer with hreason | ⟨-, hinterrupted⟩
  · rw [← hreason]
    exact hanswer
  · exact absurd hinterrupted (by decide)

end WorldMap
