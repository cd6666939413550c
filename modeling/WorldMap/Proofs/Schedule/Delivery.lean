import WorldMap.Proofs.Schedule.Invariant
import WorldMap.Proofs.Schedule.Phases
/-!
# Each task sends once, and waits for nobody

`Dispatch.sends` lists what a task tries to send in the course of a run. Whatever the collector
does, and also when it stops early or the receivers are given up, the list is empty until the task
has sent and holds its result from then on. So a channel with room for one message is never full
when it is sent to, and a task comes to its end by its own steps alone.

The moves of the collector can therefore be left out of a run without a difference to the tasks:
`Dispatch.Alike` is what two runs with the same moves of tasks and token keep.
-/

namespace WorldMap

variable {α : Type} {compute : Tile → Attempt TileError α}

namespace Phase

/-- The result that was sent. -/
def sent? : Phase α → Option (Except TileError α)
  | .sent r => some r
  | _ => none

/-- The result that is to be sent next. -/
def due? : Phase α → Option (Except TileError α)
  | .reported r => some r
  | _ => none

/-- A task that is not skipped becomes so by a check, and only if the token has fired. -/
theorem of_after_eq_skipped {p : Phase α} {a : Attempt TileError α} {cancelled : Bool} {n : Nat}
    {m : Move} (hafter : p.after a cancelled n m = .skipped) (hp : p ≠ .skipped) :
    p = .queued ∧ cancelled = true ∧ ∃ i, m = .check i := by
  cases m <;> cases p <;> simp_all [Phase.after]

/-- A phase comes to be sent by a send only. -/
theorem sent?_after (p : Phase α) (a : Attempt TileError α) (cancelled : Bool) (n : Nat)
    (m : Move) :
    (p.after a cancelled n m).sent? =
      match m with
      | .send _ => p.due?.or p.sent?
      | _ => p.sent? := by
  cases m with
  | check i =>
    cases p with
    | queued => cases cancelled <;> rfl
    | _ => rfl
  | _ => cases p <;> rfl

theorem sent?_eq_none_of_due? {p : Phase α} {r : Except TileError α} (hdue : p.due? = some r) :
    p.sent? = none := by
  cases p <;> simp_all [due?, sent?]

/-- The steps of a task lead to its end from wherever it stands. -/
theorem isOver_after_all (p : Phase α) (a : Attempt TileError α) (cancelled breaksOff : Bool)
    (n i : Nat) {a' a'' a''' a'''' : Attempt TileError α} {c' c'' c''' c'''' : Bool}
    {n' n'' n''' n'''' : Nat} :
    (((((p.after a cancelled n (.check i)).after a' c' n' (.finish i)).after a'' c'' n''
      (.count i)).after a''' c''' n''' (.report i breaksOff)).after a'''' c'''' n''''
      (.send i)).isOver = true := by
  cases p with
  | queued => cases cancelled <;> rfl
  | _ => rfl

end Phase

namespace Attempt

theorem warning?_eq_some_iff {t : Tile} {a : Attempt TileError α} {w : Tile × TileError} :
    a.warning? t = some w ↔ w.1 = t ∧ a.outcome = .error w.2 := by
  obtain ⟨u, e⟩ := w
  unfold warning?
  split
  · rename_i e' houtcome
    simp [houtcome, eq_comm]
  · rename_i image houtcome
    simp [houtcome]

theorem outcome_eq_lost_iff {a : Attempt TileError α} :
    a.outcome = .error .lost ↔ a = .error (.error .lost) := by
  cases a with
  | ok image => simp [outcome]
  | error f => cases f <;> simp [outcome]

end Attempt

namespace Move

/-- The steps of the task at place `i`, from its first to its last. -/
def ofTask (i : Nat) (breaksOff : Bool) : List Move :=
  [.check i, .finish i, .count i, .report i breaksOff, .send i]

/-- Whether a move is a step of a task, or the firing of the token that tasks look at. -/
def isWork : Move → Bool
  | .cancel => true
  | m => m.place?.isSome

end Move

namespace Dispatch

variable {g : Grid} {s s' : Dispatch α} {i : Nat}

/-! ### What a task sends -/

/-- What the task at place `i` tries to send by move `m`. -/
def sending? (i : Nat) (s : Dispatch α) : Move → Option (Except TileError α)
  | .send j => if j = i then (s.batch.phase i).due? else none
  | _ => none

/-- What the task at place `i` tries to send in the course of a run, in its order. -/
def sends (compute : Tile → Attempt TileError α) (i : Nat) :
    Dispatch α → List Move → List (Except TileError α)
  | _, [] => []
  | s, m :: moves => (s.sending? i m).toList ++ sends compute i (s.step compute m) moves

theorem sent?_step (h : s.TasksSound compute g) (m : Move) :
    ((s.step compute m).batch.phase i).sent?.toList =
      (s.batch.phase i).sent?.toList ++ (s.sending? i m).toList := by
  have hkeep : s.sending? i m = none →
      ((s.step compute m).batch.phase i).sent? = (s.batch.phase i).sent? →
      ((s.step compute m).batch.phase i).sent?.toList =
        (s.batch.phase i).sent?.toList ++ (s.sending? i m).toList := by
    intro hsending hsame
    rw [hsending, hsame, Option.toList_none, List.append_nil]
  rw [phase_step h] at hkeep ⊢
  by_cases hplace : m.place? = some i
  · rw [if_pos hplace, Phase.sent?_after] at hkeep ⊢
    cases m with
    | send j =>
      obtain rfl : j = i := Option.some.inj hplace
      simp only [sending?, if_true]
      cases hdue : (s.batch.phase j).due? with
      | none => simp
      | some r => simp [Phase.sent?_eq_none_of_due? hdue]
    | _ => exact hkeep rfl rfl
  · rw [if_neg hplace] at hkeep ⊢
    refine hkeep ?_ rfl
    cases m with
    | send j => exact if_neg fun heq => hplace (by rw [heq]; rfl)
    | _ => rfl

/-- A run adds what was tried to what was sent before. -/
theorem sent?_run (h : s.TasksSound compute g) (moves : List Move) :
    ((s.run compute moves).batch.phase i).sent?.toList =
      (s.batch.phase i).sent?.toList ++ s.sends compute i moves := by
  induction moves generalizing s with
  | nil => simp [sends]
  | cons m moves ih =>
    rw [run_cons, ih (h.step m), sent?_step h, sends, List.append_assoc]

theorem sends_start (listened : Bool) (moves : List Move) (hi : i < g.size) :
    (start g listened).sends compute i moves =
      (((start g listened).run compute moves).batch.phase i).sent?.toList := by
  rw [sent?_run (.start g listened), phase_start g listened hi]
  rfl

theorem TasksSound.getElem?_tiles (h : s.TasksSound compute g) (hi : i < g.size) :
    g.tiles[i]? = some (s.batch.tile i) := by
  rw [h.tile_eq, List.getElem?_eq_getElem (by rwa [g.length_tiles])]
  rfl

theorem TasksSound.result_eq (h : s.TasksSound compute g) {r : Except TileError α}
    (hresult : (s.batch.phase i).result? = some r) : r = (compute (s.batch.tile i)).outcome := by
  cases htask : s.batch.tasks[i]? with
  | none => simp [Batch.phase, htask, Phase.result?] at hresult
  | some task =>
    rw [Batch.phase_of_task htask] at hresult
    rw [Batch.tile_of_task htask]
    exact (h.tasks i task htask).result r hresult

/-- A task that was skipped has made its check when the token had fired. -/
theorem exists_check_of_skipped (h : s.TasksSound compute g) {moves : List Move}
    (hbefore : s.batch.phase i ≠ .skipped)
    (hskipped : (s.run compute moves).batch.phase i = .skipped) :
    ∃ before after, moves = before ++ .check i :: after ∧
      (s.run compute before).batch.phase i = .queued ∧
      (s.run compute before).cancelled = true := by
  induction moves generalizing s with
  | nil => exact absurd hskipped hbefore
  | cons m moves ih =>
    by_cases hstep : (s.step compute m).batch.phase i = .skipped
    · rw [phase_step h] at hstep
      split at hstep
      · rename_i hplace
        obtain ⟨hqueued, hcancelled, j, rfl⟩ := Phase.of_after_eq_skipped hstep hbefore
        obtain rfl : j = i := Option.some.inj hplace
        exact ⟨[], moves, rfl, hqueued, hcancelled⟩
      · exact absurd hstep hbefore
    · obtain ⟨before, after, rfl, hqueued, hcancelled⟩ := ih (h.step m) hstep hskipped
      exact ⟨m :: before, after, rfl, hqueued, hcancelled⟩

/-- A task needs nobody to come to its end. -/
theorem TasksSound.isOver_run_ofTask (h : s.TasksSound compute g) (i : Nat) (breaksOff : Bool) :
    ((s.run compute (Move.ofTask i breaksOff)).batch.phase i).isOver = true := by
  have hcheck := h.step (.check i)
  have hfinish := hcheck.step (.finish i)
  have hcount := hfinish.step (.count i)
  have hreport := hcount.step (.report i breaksOff)
  simp only [Move.ofTask, run_cons, run_nil]
  rw [phase_step hreport, phase_step hcount, phase_step hfinish, phase_step hcheck, phase_step h]
  simp only [Move.place?, if_true]
  apply Phase.isOver_after_all

/-! ### What the collector has to do with it -/

/-- The tasks of two states stand alike, whatever has become of their messages. -/
structure Alike (s s' : Dispatch α) : Prop where
  cancelled : s.cancelled = s'.cancelled
  entered : s.entered = s'.entered
  tracker : s.batch.tracker = s'.batch.tracker
  phase : ∀ i, s.batch.phase i = s'.batch.phase i

namespace Alike

theorem refl (s : Dispatch α) : s.Alike s := ⟨rfl, rfl, rfl, fun _ => rfl⟩

theorem symm (h : s.Alike s') : s'.Alike s :=
  ⟨h.cancelled.symm, h.entered.symm, h.tracker.symm, fun i => (h.phase i).symm⟩

theorem trans {s'' : Dispatch α} (h : s.Alike s') (h' : s'.Alike s'') : s.Alike s'' :=
  ⟨h.cancelled.trans h'.cancelled, h.entered.trans h'.entered, h.tracker.trans h'.tracker,
    fun i => (h.phase i).trans (h'.phase i)⟩

/-- Tasks that stand alike take the same steps. -/
theorem step (h : s.Alike s') (hs : s.TasksSound compute g) (hs' : s'.TasksSound compute g)
    {m : Move} (hwork : m.isWork = true) : (s.step compute m).Alike (s'.step compute m) := by
  have hphase : ∀ i, (s.step compute m).batch.phase i = (s'.step compute m).batch.phase i := by
    intro i
    rw [phase_step hs, phase_step hs', h.phase i, h.cancelled, h.tracker, hs.tile_eq, hs'.tile_eq]
  cases m with
  | check i =>
    have hbegins : s.begins i = s'.begins i := by rw [begins, begins, h.phase i, h.cancelled]
    refine ⟨h.cancelled, ?_, ?_, hphase⟩
    · show (if s.begins i then i :: s.entered else s.entered) = _
      rw [hbegins, h.entered]
      rfl
    · simpa [Dispatch.step] using h.tracker
  | finish i => exact ⟨h.cancelled, h.entered, by simpa [Dispatch.step] using h.tracker, hphase⟩
  | count i =>
    refine ⟨h.cancelled, h.entered, ?_, hphase⟩
    show (s.batch.count i).tracker = (s'.batch.count i).tracker
    rw [Batch.tracker_count, Batch.tracker_count, h.phase i, h.tracker]
  | report i breaksOff =>
    refine ⟨h.cancelled, h.entered, ?_, hphase⟩
    show (s.batch.report i breaksOff).tracker = (s'.batch.report i breaksOff).tracker
    rw [Batch.tracker_report, Batch.tracker_report, h.phase i, h.tracker]
  | send i => exact ⟨h.cancelled, h.entered, by simpa [Dispatch.step] using h.tracker, hphase⟩
  | cancel => exact ⟨rfl, h.entered, h.tracker, hphase⟩
  | _ => simp [Move.isWork, Move.place?] at hwork

/-- The tasks do not notice any other move. -/
theorem of_not_isWork (s : Dispatch α) {m : Move} (hwork : m.isWork = false) :
    (s.step compute m).Alike s := by
  cases m with
  | interrupt => exact ⟨rfl, rfl, rfl, fun _ => rfl⟩
  | abandon => exact ⟨rfl, rfl, rfl, fun _ => rfl⟩
  | collect =>
    simp only [Dispatch.step]
    split
    · exact .refl s
    · refine ⟨rfl, rfl, ?_, fun i => ?_⟩
      · exact s.collector.tracker_drain s.batch
      · exact s.collector.phase_drain s.batch i
  | release i =>
    simp only [Dispatch.step]
    split
    · exact .refl s
    · refine ⟨rfl, rfl, rfl, fun j => ?_⟩
      exact Batch.phase_modify_same fun task => rfl
  | _ => simp [Move.isWork, Move.place?] at hwork

/-- Of a run, the tasks notice the moves that are work. -/
theorem run (h : s.Alike s') (hs : s.TasksSound compute g) (hs' : s'.TasksSound compute g)
    (moves : List Move) :
    (s.run compute moves).Alike (s'.run compute (moves.filter Move.isWork)) := by
  induction moves generalizing s s' with
  | nil => exact h
  | cons m moves ih =>
    cases hwork : m.isWork with
    | true =>
      rw [List.filter_cons_of_pos hwork, run_cons, run_cons]
      exact ih (h.step hs hs' hwork) (hs.step m) (hs'.step m)
    | false =>
      rw [List.filter_cons_of_neg (by simp [hwork]), run_cons]
      exact ih ((of_not_isWork s hwork).trans h) (hs.step m) hs'

end Alike

/-- A warning tells what a tile of the grid has come to. -/
theorem Sound.warning_eq (h : s.Sound compute g) {w : Tile × TileError}
    (hw : w ∈ s.collector.warnings) : w.1 ∈ g.tiles ∧ (compute w.1).outcome = .error w.2 := by
  rw [← Array.mem_toList_iff, h.collected.holds.warnings, List.mem_filterMap] at hw
  obtain ⟨t, ht, hwarning⟩ := hw
  obtain ⟨rfl, houtcome⟩ := Attempt.warning?_eq_some_iff.1 hwarning
  exact ⟨List.mem_of_mem_take ht, houtcome⟩

end Dispatch

/-- No result is lost, sent twice or held up. Whatever the collector does, and if it stops early or
the tiles are given up, a task tries to send at most once and finds room when it does; from wherever
it stands its own steps lead to its end. When it is over it has sent what its tile came to, and
nothing else, or it has sent nothing and was skipped by a check that found the token fired. So a
tile is warned about as lost only if that is what its computation came to. And two runs with the
same steps of tasks and the same firing of the job's token compute the same tiles, with the same
progress, however they are collected or given up. -/
theorem Dispatch.sends_once (compute : Tile → Attempt TileError α) (g : Grid) (listened : Bool)
    (moves : List Move) :
    let s := (start g listened).run compute moves
    (∀ i < g.size, g.tiles[i]? = some (s.batch.tile i) ∧
      ((start g listened).sends compute i moves).length ≤ 1 ∧
      (∀ r, s.batch.phase i = .reported r → ∃ c, (s.batch.channel i).send? r = some c) ∧
      (∀ breaksOff, ((s.run compute (Move.ofTask i breaksOff)).batch.phase i).isOver = true) ∧
      ((s.batch.phase i).isOver = true →
        (s.batch.phase i = .sent (compute (s.batch.tile i)).outcome ∧
          (start g listened).sends compute i moves = [(compute (s.batch.tile i)).outcome]) ∨
        (s.batch.phase i = .skipped ∧ (start g listened).sends compute i moves = [] ∧
          ∃ before after, moves = before ++ .check i :: after ∧
            ((start g listened).run compute before).batch.phase i = .queued ∧
            ((start g listened).run compute before).cancelled = true))) ∧
    (∀ t, (t, .lost) ∈ s.collector.warnings → compute t = .error (.error .lost)) ∧
    (∀ moves', moves'.filter Move.isWork = moves.filter Move.isWork →
      let s' := (start g listened).run compute moves'
      s'.entered = s.entered ∧ s'.batch.tracker = s.batch.tracker ∧
        ∀ i, s'.batch.phase i = s.batch.phase i) := by
  intro s
  have hstart : (start g listened).TasksSound compute g := .start g listened
  have hs : s.TasksSound compute g := hstart.run moves
  refine ⟨fun i hi => ⟨hs.getElem?_tiles hi, ?_, fun r => hs.exists_send?, hs.isOver_run_ofTask i,
    fun hover => ?_⟩, fun t ht => ?_, fun moves' hwork => ?_⟩
  · rw [sends_start listened moves hi]
    cases (((start g listened).run compute moves).batch.phase i).sent? <;> simp
  · rw [sends_start listened moves hi]
    cases hphase : s.batch.phase i with
    | skipped =>
      right
      have hqueued := phase_start (α := α) g listened hi
      exact ⟨rfl, rfl, exists_check_of_skipped hstart (by simp [hqueued]) hphase⟩
    | sent r =>
      left
      obtain rfl := hs.result_eq (by rw [hphase]; rfl)
      exact ⟨rfl, rfl⟩
    | _ => simp [hphase, Phase.isOver] at hover
  · have hsound : s.Sound compute g := run_sound compute g listened moves
    exact Attempt.outcome_eq_lost_iff.1 (hsound.warning_eq ht).2
  · intro s'
    have halike := (Alike.refl (start g listened)).run hstart hstart moves
    have halike' := (Alike.refl (start g listened)).run hstart hstart moves'
    rw [hwork] at halike'
    have h := halike'.trans halike.symm
    exact ⟨h.entered, h.tracker, h.phase⟩

private def mixedRow : Grid := .ofCorners 0 0 3 1

/-- The second tile is lost by its own computation. -/
private def mixedOutcome (t : Tile) : Attempt TileError Nat :=
  if t.x = 1 then .error (.error .lost) else .ok 7

private def mixedWork : List Move :=
  Move.ofTask 1 false ++ Move.ofTask 0 true ++ [.cancel, .check 2]

/-- The first two tiles are collected and the rest is given up, while the token fires. -/
private def mixedMoves : List Move :=
  Move.ofTask 1 false ++ Move.ofTask 0 true ++ List.replicate 11 .collect ++
    [.abandon, .cancel, .release 0, .check 2]

set_option maxRecDepth 4096 in
private theorem run_mixedMoves :
    let s := (Dispatch.start mixedRow true).run mixedOutcome mixedMoves
    s.batch.phase 0 = .sent (.ok 7) ∧ s.batch.phase 2 = .skipped ∧
      s.collector.warnings = #[(⟨1, 0⟩, .lost)] :=
  ⟨rfl, rfl, rfl⟩

theorem Dispatch.sends_once_mixedRow :
    let s := (start mixedRow true).run mixedOutcome mixedMoves
    let s' := (start mixedRow true).run mixedOutcome mixedWork
    ((s.batch.phase 0).isOver = true ∧
      (start mixedRow true).sends mixedOutcome 0 mixedMoves = [.ok 7]) ∧
    (s.batch.phase 2 = .skipped ∧ (start mixedRow true).sends mixedOutcome 2 mixedMoves = []) ∧
    ((⟨1, 0⟩, .lost) ∈ s.collector.warnings ∧ mixedOutcome ⟨1, 0⟩ = .error (.error .lost)) ∧
    (mixedWork.filter Move.isWork = mixedMoves.filter Move.isWork ∧
      s'.entered = s.entered ∧ s'.batch.tracker = s.batch.tracker) := by
  intro s s'
  obtain ⟨hsent, hskipped, hwarnings⟩ := run_mixedMoves
  have hover : (s.batch.phase 0).isOver = true := by
    rw [hsent]
    rfl
  have hover' : (s.batch.phase 2).isOver = true := by
    rw [hskipped]
    rfl
  have hwork : mixedWork.filter Move.isWork = mixedMoves.filter Move.isWork := by decide
  have hwarned : (⟨1, 0⟩, .lost) ∈ s.collector.warnings := by
    rw [hwarnings]
    exact Array.mem_singleton.2 rfl
  obtain ⟨htasks, hlost, hruns⟩ := sends_once mixedOutcome mixedRow true mixedMoves
  obtain ⟨-, -, -, -, hfirst⟩ := htasks 0 (by decide)
  obtain ⟨-, -, -, -, hlast⟩ := htasks 2 (by decide)
  obtain ⟨hentered, htracker, -⟩ := hruns mixedWork hwork
  refine ⟨⟨hover, ?_⟩, ⟨hskipped, ?_⟩, ⟨hwarned, hlost ⟨1, 0⟩ hwarned⟩, hwork, hentered,
    htracker⟩
  · rcases hfirst hover with ⟨hphase, hsends⟩ | ⟨hphase, -⟩
    · rw [hsends, ← Phase.sent.inj (hsent.symm.trans hphase)]
    · exact absurd (hsent.symm.trans hphase) (by simp)
  · rcases hlast hover' with ⟨hphase, -⟩ | ⟨-, hsends, -⟩
    · exact absurd (hskipped.symm.trans hphase) (by simp)
    · exact hsends

end WorldMap
