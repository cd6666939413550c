import WorldMap.Proofs.Schedule.Invariant
/-!
# Tokens that fire while there is work left

Once a token has fired at a time when the collector still has a tile to take, the collector is bound to
stop: whatever it does next, it looks at both tokens once more before it can be complete. This is
`Dispatch.Halting`, and every change keeps it. `Dispatch.stepsLeft` bounds how long it takes, which is
three steps of the collector, whatever the tasks do in between.
-/

namespace WorldMap

variable {α : Type} {compute : Tile → Attempt TileError α}

theorem Batch.size_put (b : Batch α) (i : Nat) (task : TileTask α) (t : Tracker) :
    (b.put i task t).size = b.size := by
  simp [put, size]

theorem Collector.size_drain (b : Batch α) (c : Collector α) : (c.drain b).size = b.size := by
  unfold drain
  split <;> simp [Batch.modify, Batch.size]

namespace Dispatch

variable {g : Grid} {s s' : Dispatch α}

/-- Whether the token that makes a collector stop with `e` has fired. -/
def hasFired (s : Dispatch α) : ScheduleError → Bool
  | .cancelled => s.cancelled
  | .interrupted => s.interrupted

theorem Change.hasFired (hchange : s.Change compute s') {e : ScheduleError}
    (hfired : s.hasFired e = true) : s'.hasFired e = true := by
  cases hchange with
  | cancel =>
    cases e with
    | cancelled => rfl
    | interrupted => exact hfired
  | interrupt =>
    cases e with
    | cancelled => exact hfired
    | interrupted => rfl
  | _ => cases e <;> exact hfired

theorem Change.size_batch (hchange : s.Change compute s') : s'.batch.size = s.batch.size := by
  cases hchange with
  | work htask hadvance => exact Batch.size_put ..
  | collect hheld hturn => exact Collector.size_drain ..
  | release hwatched htask => exact Batch.size_put ..
  | _ => rfl

/-! ### Why a collector stops -/

/-- A collector that has stopped has found a token that fired. -/
def StopsFairly (s : Dispatch α) : Prop :=
  ∀ e, s.collector.stage = .stopped e → s.hasFired e = true

theorem StopsFairly.change (hchange : s.Change compute s') (h : s.StopsFairly) :
    s'.StopsFairly := by
  intro e hstopped
  cases hchange with
  | collect hheld hturn =>
    cases hturn with
    | interrupt _ htoken =>
      obtain rfl : ScheduleError.interrupted = e := by simpa using hstopped
      exact htoken
    | cancel _ htoken =>
      obtain rfl : ScheduleError.cancelled = e := by simpa using hstopped
      exact htoken
    | rest _ => exact h e hstopped
    | _ => simp at hstopped
  | work htask hadvance => exact h e hstopped
  | cancel => exact (Change.cancel : s.Change compute _).hasFired (h e hstopped)
  | interrupt => exact (Change.interrupt : s.Change compute _).hasFired (h e hstopped)
  | abandon => exact h e hstopped
  | release hwatched htask => exact h e hstopped

theorem stopsFairly_run (compute : Tile → Attempt TileError α) (g : Grid) (listened : Bool)
    (moves : List Move) : ((start g listened).run compute moves).StopsFairly := by
  refine run_keeps StopsFairly (fun _ _ => StopsFairly.change) (fun e hstopped => ?_) moves
  simp [start, Collector.start] at hstopped

/-! ### That a collector stops -/

/-- A token has fired, and the collector will look at both before it can be complete. -/
structure Halting (s : Dispatch α) : Prop where
  fired : ∃ e, s.hasFired e = true
  before : s.collector.stage = .before → s.collector.results.size < s.batch.size
  advance : s.collector.stage = .jobCheck .advance →
    s.cancelled = true ∨ s.collector.results.size < s.batch.size
  incomplete : s.collector.stage ≠ .complete

namespace Halting

/-- A collector that still has a tile to take. -/
theorem of_left {e : ScheduleError} (hfired : s.hasFired e = true)
    (hleft : s.collector.results.size < s.batch.size) (hcomplete : s.collector.stage ≠ .complete) :
    s.Halting :=
  ⟨⟨e, hfired⟩, fun _ => hleft, fun _ => .inr hleft, hcomplete⟩

/-- A token that fires before the collection has begun, or before some task has sent. -/
theorem of_fired (hsound : s.Sound compute g) (hgrid : 0 < g.size)
    (hfired : ∃ e, s.hasFired e = true)
    (hwork : s.collector = Collector.start g.size ∨
      ∃ i < g.size, ∀ r, s.batch.phase i ≠ .sent r) : s.Halting := by
  obtain ⟨e, he⟩ := hfired
  have hsize := hsound.tasks.size_eq
  rcases hwork with hstart | ⟨i, hi, hunsent⟩
  · have hleft : s.collector.results.size < s.batch.size := by
      rw [hstart, hsize]
      exact hgrid
    exact .of_left he hleft (by simp [hstart, Collector.start])
  · obtain ⟨hleft, hcomplete⟩ := hsound.left_of_unsent (hsize ▸ hi) hunsent
    exact .of_left he hleft hcomplete

private theorem collect (h : s.Halting) {b : Batch α} (hsize : b.size = s.batch.size)
    {c : Collector α} (hturn : s.collector.Turn s.batch s.interrupted s.cancelled c) :
    Halting { s with batch := b, collector := c } := by
  obtain ⟨e, hfired⟩ := h.fired
  have hfired' : ∃ e, hasFired { s with batch := b, collector := c } e = true := by
    exact ⟨e, by cases e <;> exact hfired⟩
  cases hturn with
  | finish hstage hleft => exact absurd (h.before hstage) hleft
  | pass _ htoken =>
    -- the engine's token has been passed, so it is the job's that has fired
    refine ⟨hfired', by simp, fun _ => .inl ?_, by simp⟩
    cases e with
    | cancelled => exact hfired
    | interrupted => simp [hasFired, htoken] at hfired
  | advance hstage htoken =>
    refine ⟨hfired', fun _ => ?_, by simp, by simp⟩
    rcases h.advance hstage with hcancelled | hleft
    · simp [htoken] at hcancelled
    · exact hsize ▸ hleft
  | rest _ =>
    refine ⟨hfired', fun hstage => ?_, fun hstage => ?_, h.incomplete⟩
    · exact hsize ▸ h.before hstage
    · exact hsize ▸ h.advance hstage
  | _ => exact ⟨hfired', by simp, by simp, by simp⟩

theorem change (hchange : s.Change compute s') (h : s.Halting) : s'.Halting := by
  obtain ⟨e, hfired⟩ := h.fired
  have hfired' : ∃ e, s'.hasFired e = true := ⟨e, hchange.hasFired hfired⟩
  have hsize := hchange.size_batch
  cases hchange with
  | work htask hadvance =>
    exact ⟨hfired', fun hstage => hsize ▸ h.before hstage, fun hstage => hsize ▸ h.advance hstage,
      h.incomplete⟩
  | cancel => exact ⟨hfired', h.before, fun _ => .inl rfl, h.incomplete⟩
  | interrupt => exact ⟨hfired', h.before, h.advance, h.incomplete⟩
  | collect hheld hturn => exact h.collect (Collector.size_drain ..) hturn
  | abandon => exact ⟨hfired', h.before, h.advance, h.incomplete⟩
  | release hwatched htask =>
    exact ⟨hfired', fun hstage => hsize ▸ h.before hstage, fun hstage => hsize ▸ h.advance hstage,
      h.incomplete⟩

end Halting

/-- The engine's token has fired before the collector has looked at it for the first time. -/
structure Forestalled (s : Dispatch α) : Prop where
  fired : s.interrupted = true
  stage : s.collector.stage = .before ∧ s.collector.results.size < s.batch.size ∨
    s.collector.stage = .engineCheck .await ∨ s.collector.stage = .stopped .interrupted

theorem Forestalled.change (hchange : s.Change compute s') (h : s.Forestalled) :
    s'.Forestalled := by
  have hfired : s'.interrupted = true := hchange.hasFired (e := .interrupted) h.fired
  have hsize := hchange.size_batch
  refine ⟨hfired, ?_⟩
  cases hchange with
  | collect hheld hturn =>
    rcases h.stage with ⟨hstage, hleft⟩ | hstage | hstage
    · cases hturn with
      | begin _ _ => exact .inr (.inl rfl)
      | finish _ hdone => exact absurd hleft hdone
      | rest hover => simp [hstage, Stage.isOver] at hover
      | _ => simp_all
    · cases hturn with
      | interrupt _ _ => exact .inr (.inr rfl)
      | pass _ htoken => simp [h.fired] at htoken
      | rest hover => simp [hstage, Stage.isOver] at hover
      | _ => simp_all
    · cases hturn with
      | rest _ => exact .inr (.inr hstage)
      | _ => simp_all
  | _ => exact hsize ▸ h.stage

theorem Forestalled.eq_of_answer? (h : s.Forestalled)
    (answer : Except ScheduleError (List (TileResult α) × Stats))
    (hanswer : s.collector.answer? = some answer) : answer = .error .interrupted := by
  rcases h.stage with ⟨hstage, -⟩ | hstage | hstage
  · simp [Collector.answer?, hstage] at hanswer
  · simp [Collector.answer?, hstage] at hanswer
  · rw [Collector.answer?_eq_error_iff.2 hstage] at hanswer
    exact (Option.some.inj hanswer).symm

end Dispatch

/-! ### How soon it stops -/

/-- How many steps a collector takes at most until it is over, once a token has fired. -/
def Stage.stepsLeft (interrupted cancelled : Bool) : Stage → Nat
  | .before => if interrupted then 2 else 3
  | .engineCheck _ => if interrupted then 1 else 2
  | .jobCheck _ => if cancelled then 1 else 3
  | .waiting => if interrupted then 2 else 3
  | .stopped _ => 0
  | .complete => 0

namespace Stage

theorem stepsLeft_le_three (interrupted cancelled : Bool) (stage : Stage) :
    stage.stepsLeft interrupted cancelled ≤ 3 := by
  cases stage <;> cases interrupted <;> cases cancelled <;> simp [stepsLeft]

theorem stepsLeft_eq_zero_iff {interrupted cancelled : Bool} {stage : Stage} :
    stage.stepsLeft interrupted cancelled = 0 ↔ stage.isOver = true := by
  cases stage <;> cases interrupted <;> cases cancelled <;> simp [stepsLeft, isOver]

/-- A token that fires brings the end nearer. -/
theorem stepsLeft_anti (stage : Stage) {interrupted cancelled interrupted' cancelled' : Bool}
    (hinterrupted : interrupted = true → interrupted' = true)
    (hcancelled : cancelled = true → cancelled' = true) :
    stage.stepsLeft interrupted' cancelled' ≤ stage.stepsLeft interrupted cancelled := by
  cases stage <;> cases interrupted <;> cases cancelled <;> simp_all [stepsLeft] <;> split <;> omega

end Stage

theorem Collector.Turn.stepsLeft_le {b : Batch α} {c c' : Collector α}
    {interrupted cancelled : Bool} (hturn : c.Turn b interrupted cancelled c')
    (hfired : interrupted = true ∨ cancelled = true) :
    c'.stage.stepsLeft interrupted cancelled ≤ c.stage.stepsLeft interrupted cancelled - 1 := by
  cases hturn with
  | rest hover =>
    have hzero : c.stage.stepsLeft interrupted cancelled = 0 := Stage.stepsLeft_eq_zero_iff.2 hover
    omega
  | _ => cases interrupted <;> simp_all [Stage.stepsLeft]

namespace Dispatch

variable {s s' : Dispatch α}

def stepsLeft (s : Dispatch α) : Nat := s.collector.stage.stepsLeft s.interrupted s.cancelled

theorem hasFired_iff : (∃ e, s.hasFired e = true) ↔ s.interrupted = true ∨ s.cancelled = true := by
  constructor
  · rintro ⟨e, hfired⟩
    cases e with
    | cancelled => exact .inr hfired
    | interrupted => exact .inl hfired
  · rintro (hinterrupted | hcancelled)
    · exact ⟨.interrupted, hinterrupted⟩
    · exact ⟨.cancelled, hcancelled⟩

/-- No change delays the end. -/
theorem Change.stepsLeft_le (hchange : s.Change compute s') (hfired : ∃ e, s.hasFired e = true) :
    s'.stepsLeft ≤ s.stepsLeft := by
  cases hchange with
  | cancel => exact s.collector.stage.stepsLeft_anti id fun _ => rfl
  | interrupt => exact s.collector.stage.stepsLeft_anti (fun _ => rfl) id
  | collect hheld hturn =>
    exact Nat.le_trans (hturn.stepsLeft_le (hasFired_iff.1 hfired)) (Nat.sub_le ..)
  | _ => exact Nat.le_refl _

theorem hasFired_run {e : ScheduleError} (hfired : s.hasFired e = true) (moves : List Move) :
    (s.run compute moves).hasFired e = true :=
  run_keeps (·.hasFired e = true) (fun _ _ hchange => hchange.hasFired) hfired moves

theorem abandoned_run (habandoned : s.abandoned = true) (moves : List Move) :
    (s.run compute moves).abandoned = true := by
  refine run_keeps (·.abandoned = true) (fun s s' hchange habandoned => ?_) habandoned moves
  cases hchange with
  | abandon => rfl
  | _ => exact habandoned

/-- Every step that a collector takes after a token has fired counts. -/
theorem stepsLeft_run (hfired : ∃ e, s.hasFired e = true) (moves : List Move)
    (hheld : (s.run compute moves).abandoned = false) :
    (s.run compute moves).stepsLeft ≤ s.stepsLeft - moves.count .collect := by
  induction moves generalizing s with
  | nil => exact Nat.le_refl _
  | cons m moves ih =>
    obtain ⟨e, he⟩ := hfired
    have hnext : ∃ e, (s.step compute m).hasFired e = true := ⟨e, hasFired_run he [m]⟩
    have hrest := ih hnext hheld
    rw [run_cons, List.count_cons]
    by_cases hm : m = .collect
    · subst m
      have hstart : s.abandoned = false := by
        cases habandoned : s.abandoned with
        | false => rfl
        | true => exact (abandoned_run habandoned (.collect :: moves)).symm.trans hheld
      have hturn := (s.collector.step_turn s.batch s.interrupted s.cancelled).stepsLeft_le
        (hasFired_iff.1 ⟨e, he⟩)
      have hstep : (s.step compute .collect).stepsLeft ≤ s.stepsLeft - 1 := by
        simpa [step, hstart, stepsLeft] using hturn
      rw [if_pos (beq_self_eq_true _)]
      omega
    · have hstep : (s.step compute m).stepsLeft ≤ s.stepsLeft := by
        rcases step_cases compute s m with hsame | hchange
        · exact Nat.le_of_eq (by rw [hsame])
        · exact hchange.stepsLeft_le ⟨e, he⟩
      rw [if_neg (by simpa using hm)]
      omega

theorem isOver_of_fired (hfired : ∃ e, s.hasFired e = true) {moves : List Move}
    (hheld : (s.run compute moves).abandoned = false) (hcount : s.stepsLeft ≤ moves.count .collect) :
    (s.run compute moves).collector.stage.isOver = true := by
  have hleft := stepsLeft_run hfired moves hheld
  rw [Nat.sub_eq_zero_of_le hcount] at hleft
  exact Stage.stepsLeft_eq_zero_iff.1 (Nat.eq_zero_of_le_zero hleft)

end Dispatch

/-- No token that fires while there is work left is missed, and none is made up. If a token has fired
before the collection began, or while some task had not sent its result, then the collection does not
end well, and it ends once the collector has taken three more steps. It ends as cancelled only if the
job's token has fired and as interrupted only if the engine's has; and if the engine's has fired before
the collection began, it ends as interrupted after two steps. -/
theorem Dispatch.stops_of_fired (compute : Tile → Attempt TileError α) (g : Grid)
    (listened : Bool) (before after : List Move) (hgrid : g.isEmpty = false) :
    let s := (start g listened).run compute before
    let s' := s.run compute after
    (∀ e, s'.collector.answer? = some (.error e) → s'.hasFired e = true) ∧
    ((s.cancelled = true ∨ s.interrupted = true) →
      (s.collector = Collector.start g.size ∨ ∃ i < g.size, ∀ r, s.batch.phase i ≠ .sent r) →
      (∀ collected, s'.collector.answer? ≠ some (.ok collected)) ∧
      (s'.abandoned = false → 3 ≤ after.count .collect →
        ∃ e, s'.collector.answer? = some (.error e))) ∧
    (s.interrupted = true → s.collector = Collector.start g.size →
      (∀ answer, s'.collector.answer? = some answer → answer = .error .interrupted) ∧
      (s'.abandoned = false → 2 ≤ after.count .collect →
        s'.collector.answer? = some (.error .interrupted))) := by
  intro s s'
  have hsound : s.Sound compute g := run_sound compute g listened before
  have hpos : 0 < g.size := by simpa [Grid.isEmpty, Nat.pos_iff_ne_zero] using hgrid
  refine ⟨fun e herror => ?_, fun htoken hwork => ?_, fun hinterrupted hstart => ?_⟩
  · have hfair : s'.StopsFairly := by
      have hrun := stopsFairly_run compute g listened (before ++ after)
      rwa [run_append] at hrun
    exact hfair e (Collector.answer?_eq_error_iff.1 herror)
  · have hfired : ∃ e, s.hasFired e = true := hasFired_iff.2 htoken.symm
    have hhalting : s'.Halting :=
      run_keeps Halting (fun _ _ => Halting.change) (.of_fired hsound hpos hfired hwork) after
    have hok : ∀ collected, s'.collector.answer? ≠ some (.ok collected) := fun collected hanswer =>
      hhalting.incomplete (Collector.answer?_eq_ok_iff.1 hanswer).1
    refine ⟨hok, fun hheld hcount => ?_⟩
    have hover := isOver_of_fired hfired hheld (Nat.le_trans (Stage.stepsLeft_le_three ..) hcount)
    obtain ⟨answer, hanswer⟩ := Collector.exists_answer?_of_isOver hover
    cases answer with
    | ok collected => exact absurd hanswer (hok collected)
    | error e => exact ⟨e, hanswer⟩
  · have hleft : s.collector.results.size < s.batch.size := by
      rw [hstart, hsound.tasks.size_eq]
      exact hpos
    have hstage : s.collector.stage = .before := by rw [hstart, Collector.start]
    have hforestalled : s'.Forestalled :=
      run_keeps Forestalled (fun _ _ => Forestalled.change)
        ⟨hinterrupted, .inl ⟨hstage, hleft⟩⟩ after
    refine ⟨hforestalled.eq_of_answer?, fun hheld hcount => ?_⟩
    have htwo : s.stepsLeft = 2 := by simp [stepsLeft, Stage.stepsLeft, hstage, hinterrupted]
    have hover := isOver_of_fired ⟨.interrupted, hinterrupted⟩ hheld (htwo ▸ hcount)
    obtain ⟨answer, hanswer⟩ := Collector.exists_answer?_of_isOver hover
    rw [hanswer, hforestalled.eq_of_answer? answer hanswer]

private def lonelyTile : Grid := .ofCorners 0 0 1 1

private def drawSeven (_ : Tile) : Attempt TileError Nat := .ok 7

/-- The task goes on to its end, and the collector then looks for it. -/
private def lateMoves : List Move :=
  [.finish 0, .count 0, .report 0 false, .send 0, .collect, .collect, .collect]

/-- A job cancelled while its only tile is computed, and one with both tokens fired beforehand. -/
theorem Dispatch.stops_of_fired_lonelyTile :
    let s := (start lonelyTile false).run drawSeven [.check 0, .cancel]
    let u := (start lonelyTile false).run drawSeven [.cancel, .interrupt]
    lonelyTile.isEmpty = false ∧ s.cancelled = true ∧ s.batch.phase 0 = .computing ∧
    (∃ e, (s.run drawSeven lateMoves).collector.answer? = some (.error e)) ∧
    u.interrupted = true ∧ u.collector = Collector.start lonelyTile.size ∧
    (u.run drawSeven lateMoves).collector.answer? = some (.error .interrupted) := by
  intro s u
  have hgrid : lonelyTile.isEmpty = false := by decide
  have hphase : s.batch.phase 0 = .computing := rfl
  have hheld : (s.run drawSeven lateMoves).abandoned = false := rfl
  have hheld' : (u.run drawSeven lateMoves).abandoned = false := rfl
  obtain ⟨-, hstops, -⟩ :=
    stops_of_fired drawSeven lonelyTile false [.check 0, .cancel] lateMoves hgrid
  obtain ⟨-, -, hinterrupts⟩ :=
    stops_of_fired drawSeven lonelyTile false [.cancel, .interrupt] lateMoves hgrid
  have hunsent : ∃ i < lonelyTile.size, ∀ r, s.batch.phase i ≠ .sent r :=
    ⟨0, by decide, fun r => by simp [hphase]⟩
  exact ⟨hgrid, rfl, hphase, (hstops (.inl rfl) (.inr hunsent)).2 hheld (by decide), rfl, rfl,
    (hinterrupts rfl rfl).2 hheld' (by decide)⟩

end WorldMap
