import WorldMap.Proofs.Schedule.Delivery
import WorldMap.Proofs.Schedule.Sequential
import WorldMap.Proofs.Schedule.Stopping
/-!
# A gathering comes to its end

When all tasks have ended every channel has a message or has lost its sender, so the collector waits
for nothing. `Collector.stepsToGo` bounds the steps that it has left: eight for each tile, in the
longest way through the stages, and one more. `Batch.runAll` leaves the tasks in that state, so
`Batch.gather`, which stops after as many steps, never stops short.
-/

namespace WorldMap

variable {α σ : Type} {compute : Tile → Attempt TileError α} {h : Batch.Host σ α}

/-! ### The collector -/

namespace Stage

/-- The place of a stage on the longest way from one tile to the next, counted from its end. -/
def rank : Stage → Nat
  | .engineCheck .await => 8
  | .jobCheck .await => 7
  | .waiting => 6
  | .engineCheck .giveUp => 5
  | .jobCheck .giveUp => 4
  | .engineCheck .advance => 3
  | .jobCheck .advance => 2
  | .before => 1
  | .stopped _ => 0
  | .complete => 0

/-- Whether the next tile has been begun with, and is yet to be taken. -/
def isSeeking : Stage → Bool
  | .engineCheck .await => true
  | .jobCheck .await => true
  | .waiting => true
  | .engineCheck .giveUp => true
  | .jobCheck .giveUp => true
  | _ => false

theorem rank_pos {stage : Stage} (hover : stage.isOver = false) : 0 < stage.rank := by
  cases stage with
  | engineCheck p | jobCheck p => cases p <;> simp [rank]
  | before | waiting => simp [rank]
  | stopped e | complete => simp [isOver] at hover

end Stage

namespace Batch

variable {b : Batch α}

/-- All tasks have let go of their channels. -/
def IsDone (b : Batch α) : Prop := ∀ i < b.size, (b.channel i).hasSender = false

theorem IsDone.reception_ne_nothing (hdone : b.IsDone) {i : Nat} (hi : i < b.size) :
    b.reception i ≠ .nothing := by
  show (b.channel i).reception ≠ .nothing
  unfold Channel.reception
  rw [hdone i hi]
  cases (b.channel i).message <;> simp

theorem IsDone.modify (hdone : b.IsDone) (i : Nat) : (b.modify i TileTask.collect).IsDone := by
  intro j hj
  simp only [Batch.modify, Batch.size, Array.size_modify] at hj
  have hbefore := hdone j hj
  simp only [channel, Batch.modify, Array.getElem?_modify] at hbefore ⊢
  split
  · subst j
    cases htask : b.tasks[i]? with
    | none => simp [Array.getElem?_eq_getElem hj] at htask
    | some task => simpa [htask, TileTask.collect, Channel.emptied] using hbefore
  · exact hbefore

theorem IsDone.drain (hdone : b.IsDone) (c : Collector α) : (c.drain b).IsDone := by
  unfold Collector.drain
  split
  · exact hdone.modify _
  · exact hdone

end Batch

namespace Collector

variable {b : Batch α} {c c' : Collector α} {interrupted cancelled : Bool}

/-- The most steps that a collector of `n` tiles can take if it never waits in vain. -/
def stepsToGo (n : Nat) (c : Collector α) : Nat :=
  if c.stage.isOver then 0
  else 8 * (n - c.results.size - c.stage.isSeeking.toNat) + c.stage.rank

theorem stepsToGo_of_isOver {n : Nat} (hover : c.stage.isOver = true) : c.stepsToGo n = 0 :=
  if_pos hover

theorem stepsToGo_of_not_isOver {n : Nat} (hover : c.stage.isOver = false) :
    c.stepsToGo n = 8 * (n - c.results.size - c.stage.isSeeking.toNat) + c.stage.rank :=
  if_neg (by simp [hover])

theorem isOver_of_stepsToGo {n : Nat} (hzero : c.stepsToGo n = 0) : c.stage.isOver = true := by
  cases hover : c.stage.isOver with
  | true => rfl
  | false =>
    rw [stepsToGo_of_not_isOver hover] at hzero
    have hpos := Stage.rank_pos hover
    omega

/-- A collector that has begun with a tile is not past the last one. -/
def InRange (n : Nat) (c : Collector α) : Prop :=
  c.stage.isSeeking = true → c.results.size < n

/-- The collector goes on with the same tile, or looks for none. -/
private theorem InRange.set_stage {n : Nat} (hrange : c.InRange n) {stage : Stage}
    (hseeking : stage.isSeeking = true → c.stage.isSeeking = true) :
    InRange n { c with stage } :=
  fun hnext => hrange (hseeking hnext)

theorem Turn.inRange (hturn : c.Turn b interrupted cancelled c') (hrange : c.InRange b.size) :
    c'.InRange b.size := by
  cases hturn with
  | begin hstage hleft =>
    intro _
    exact hleft
  | @pass p hstage htoken =>
    apply hrange.set_stage
    rw [hstage]
    cases p <;> exact id
  | take hstage hreception =>
    intro hseeking
    simp [Stage.isSeeking] at hseeking
  | giveUp hstage htoken =>
    intro hseeking
    simp [Stage.isSeeking] at hseeking
  | rest hover => exact hrange
  | finish hstage | interrupt hstage | cancel hstage | advance hstage =>
    apply hrange.set_stage
    intro hseeking
    cases hseeking
  | await hstage | look hstage | lose hstage =>
    apply hrange.set_stage
    intro _
    rw [hstage]
    rfl

/-- A step towards a tile that there is, or away from one that is taken, is a step less to go. -/
theorem Turn.stepsToGo_lt (hturn : c.Turn b interrupted cancelled c') (hrange : c.InRange b.size)
    (hdone : b.IsDone) (hover : c.stage.isOver = false) :
    c'.stepsToGo b.size < c.stepsToGo b.size := by
  rw [stepsToGo_of_not_isOver hover]
  have hpos := Stage.rank_pos hover
  cases hturn with
  | finish | interrupt | cancel =>
    rw [stepsToGo_of_isOver rfl]
    omega
  | begin hstage hleft =>
    rw [stepsToGo_of_not_isOver rfl, hstage]
    simp only [Stage.isSeeking, Stage.rank, Bool.toNat_true, Bool.toNat_false]
    omega
  | @pass p hstage htoken =>
    rw [stepsToGo_of_not_isOver rfl, hstage]
    cases p <;> simp [Stage.isSeeking, Stage.rank]
  | look hstage hreception =>
    exact absurd hreception (hdone.reception_ne_nothing (hrange (by rw [hstage]; rfl)))
  | take hstage | giveUp hstage =>
    rw [stepsToGo_of_not_isOver (by simp [Stage.isOver]), hstage]
    simp only [stage_receive, size_results_receive, Stage.isSeeking, Stage.rank, Bool.toNat_true,
      Bool.toNat_false]
    omega
  | await hstage | advance hstage | lose hstage =>
    rw [stepsToGo_of_not_isOver rfl, hstage]
    simp [Stage.isSeeking, Stage.rank]
  | rest hrest => simp [hrest] at hover

/-- With fuel for all steps that are left, a collector of tasks that have ended comes to its end. -/
theorem isOver_run (n : Nat) (b : Batch α) (c : Collector α) (hdone : b.IsDone)
    (hrange : c.InRange b.size) (hfuel : c.stepsToGo b.size ≤ n) :
    (run interrupted cancelled n b c).stage.isOver = true := by
  induction n generalizing b c with
  | zero => exact isOver_of_stepsToGo (Nat.le_zero.1 hfuel)
  | succ n ih =>
    have hgoOn : c.stage.isOver = false → (run interrupted cancelled n (c.drain b)
        (c.step b interrupted cancelled)).stage.isOver = true := by
      intro hover
      have hturn := c.step_turn b interrupted cancelled
      have hlt := hturn.stepsToGo_lt hrange hdone hover
      apply ih
      · exact hdone.drain c
      · rw [size_drain]
        exact hturn.inRange hrange
      · rw [size_drain]
        omega
    unfold run
    cases hstage : c.stage with
    | stopped e | complete => simp [hstage, Stage.isOver]
    | _ => exact hgoOn (by rw [hstage]; rfl)

end Collector

/-! ### The tasks -/

namespace Dispatch

variable {d : Dispatch α} {g : Grid} {i j : Nat}

/-- A task that is taken up from the queue goes all the way, whether it is skipped or not. -/
theorem exists_runTask_eq (hplays : h.Plays compute) (s : σ) (htoken : d.cancelled = h.cancelled s)
    (hqueued : d.batch.phase i = .queued) :
    ∃ breaksOff, (d.batch.runTask h i s).1 = (d.run compute (Move.ofTask i breaksOff)).batch := by
  have hphase : (d.batch.check i (h.cancelled s)).phase i =
      if h.cancelled s then .skipped else .computing := by
    rw [Batch.phase_check (a := compute (d.batch.tile i)) (n := 0), if_pos rfl, hqueued]
    rfl
  simp only [Batch.runTask, Move.ofTask, run_cons, run_nil, step, htoken]
  generalize d.batch.check i (h.cancelled s) = b at hphase ⊢
  cases hcancelled : h.cancelled s with
  | true =>
    rw [hcancelled, if_pos rfl] at hphase
    exact ⟨false, by simp [hphase, Batch.finish, Batch.count, Batch.report, Batch.send]⟩
  | false =>
    rw [hcancelled, if_neg Bool.false_ne_true] at hphase
    obtain ⟨breaksOff, hreport⟩ := Batch.exists_reportTo h i
      ((b.finish i (compute (b.tile i))).count i) (h.compute (b.tile i) s).2
    refine ⟨breaksOff, ?_⟩
    simp only [hphase]
    rw [hplays.compute_eq, hreport]

/-- The steps of a task leave the phases of the others. -/
theorem TasksSound.phase_run_ofTask (hsound : d.TasksSound compute g) (hij : i ≠ j)
    (breaksOff : Bool) :
    (d.run compute (Move.ofTask i breaksOff)).batch.phase j = d.batch.phase j := by
  have hcheck := hsound.step (.check i)
  have hfinish := hcheck.step (.finish i)
  have hcount := hfinish.step (.count i)
  have hreport := hcount.step (.report i breaksOff)
  simp only [Move.ofTask, run_cons, run_nil]
  rw [phase_step hreport, phase_step hcount, phase_step hfinish, phase_step hcheck,
    phase_step hsound]
  simp [Move.place?, hij]

/-- Whoever takes up the tasks from a place on, one after the other, ends them. -/
theorem isOver_runFrom (hplays : h.Plays compute) (n i : Nat) (s : σ)
    (hsound : d.TasksSound compute g)
    (htoken : d.cancelled = h.cancelled s)
    (hqueued : ∀ k, i ≤ k → k < i + n → d.batch.phase k = .queued)
    (hover : ∀ k < i, (d.batch.phase k).isOver = true) {k : Nat} (hk : k < i + n) :
    ((d.batch.runFrom h i n s).1.phase k).isOver = true := by
  induction n generalizing i d s with
  | zero => exact hover k hk
  | succ n ih =>
    obtain ⟨breaksOff, htask⟩ := exists_runTask_eq hplays s htoken (hqueued i (by omega) (by omega))
    obtain ⟨moves, entered, hmoves⟩ := reaches_runTask hplays i s htoken
    have hnext := hsound.run moves
    rw [hmoves] at hnext
    rw [Batch.runFrom]
    apply ih (d := { d with
      batch := (d.batch.runTask h i s).1
      cancelled := h.cancelled (d.batch.runTask h i s).2
      entered }) (i + 1) _ hnext rfl
    · intro j hle hlt
      show (d.batch.runTask h i s).1.phase j = _
      rw [htask, hsound.phase_run_ofTask (by omega)]
      exact hqueued j (by omega) (by omega)
    · intro j hlt
      show ((d.batch.runTask h i s).1.phase j).isOver = true
      rw [htask]
      by_cases hij : i = j
      · subst j
        exact hsound.isOver_run_ofTask i breaksOff
      · rw [hsound.phase_run_ofTask hij]
        exact hover j (by omega)
    · omega

/-- Tasks that have ended have let go of their channels. -/
theorem TasksSound.isDone (hsound : d.TasksSound compute g)
    (hover : ∀ k < d.batch.size, (d.batch.phase k).isOver = true) : d.batch.IsDone := by
  intro k hk
  have htask := Array.getElem?_eq_getElem hk
  have hphase := hover k hk
  rw [Batch.phase_of_task htask] at hphase
  rw [Batch.channel_of_task htask, (hsound.tasks k _ htask).sender, hphase]
  rfl

theorem size_runAll (hplays : h.Plays compute) (g : Grid) (listened : Bool) (s : σ) :
    ((Batch.ofGrid g listened).runAll h s).1.size = g.size := by
  obtain ⟨work, entered, hwork⟩ := reaches_runAll hplays g listened s
  have hstart : (start g listened).TasksSound compute g := .start g listened
  have hsize := (hstart.run work).size_eq
  rwa [hwork] at hsize

theorem isDone_runAll (hplays : h.Plays compute) (g : Grid) (listened : Bool) (s : σ) :
    ((Batch.ofGrid g listened).runAll h s).1.IsDone := by
  obtain ⟨fire, hfire⟩ : ∃ moves, (start g listened).run compute moves =
      { start g listened with cancelled := h.cancelled s } :=
    exists_run_fired compute id fun hfired => by cases hfired
  obtain ⟨work, entered, hwork⟩ := reaches_runAll hplays g listened s
  have hstart : (start g listened).TasksSound compute g := .start g listened
  have hbefore := hstart.run fire
  have hafter := hstart.run work
  rw [hfire] at hbefore
  rw [hwork] at hafter
  apply hafter.isDone
  intro k hk
  have hsize := size_runAll hplays g listened s
  have hsize' : (Batch.ofGrid (α := α) g listened).size = g.size := hbefore.size_eq
  apply isOver_runFrom hplays (Batch.ofGrid g listened).size 0 s hbefore rfl
  · intro j _ hj
    exact phase_start g listened (by omega)
  · intro j hj
    omega
  · change k < ((Batch.ofGrid g listened).runAll h s).1.size at hk
    omega

end Dispatch

/-- What is gathered of a batch whose tasks were run one after the other is complete, or was
stopped. -/
theorem Batch.isOver_gather (hplays : h.Plays compute) (g : Grid) (listened : Bool) (s : σ)
    (interrupted cancelled : Bool) :
    (((Batch.ofGrid g listened).runAll h s).1.gather interrupted cancelled).stage.isOver =
      true := by
  apply Collector.isOver_run
  · exact Dispatch.isDone_runAll hplays g listened s
  · intro hseeking
    simp [Collector.start, Stage.isSeeking] at hseeking
  · exact Nat.le_refl _

end WorldMap
