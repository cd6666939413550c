import WorldMap.Proofs.Schedule.Invariant
import WorldMap.Render.Engine
/-!
# One task after the other

`Batch.runAll` takes all steps of one task after the other, as a single worker does, and
`Batch.gather` collects afterwards. That is one of the ways in which the moves of a `Dispatch` can
come, so what holds of all runs holds of these two, and of an engine, which renders by them. The host
has to behave like a job: what a tile comes to depends on the tile, and a token that has fired stays so.
-/

namespace WorldMap

variable {α σ : Type} {compute : Tile → Attempt TileError α} {h : Batch.Host σ α}

structure Batch.Host.Plays (h : Batch.Host σ α) (compute : Tile → Attempt TileError α) : Prop where
  compute_eq : ∀ t s, (h.compute t s).1 = compute t
  compute_stays : ∀ t s, h.cancelled s = true → h.cancelled (h.compute t s).2 = true
  notify_stays : ∀ call n s, h.cancelled s = true → h.cancelled (h.notify call n s).2 = true

namespace Batch

/-- The listener's answer aside, reporting to a host is a report. -/
theorem exists_reportTo (h : Host σ α) (i : Nat) (b : Batch α) (s : σ) :
    ∃ breaksOff, (b.reportTo h i s).1 = b.report i breaksOff := by
  unfold reportTo
  split
  · split
    · exact ⟨_, rfl⟩
    · exact ⟨false, rfl⟩
  · rename_i hphase
    refine ⟨false, ?_⟩
    unfold report
    split
    · rename_i r n hcounted
      exact absurd hcounted (hphase r n)
    · rfl

theorem cancelled_reportTo (hplays : h.Plays compute) {i : Nat} {b : Batch α} {s : σ}
    (hcancelled : h.cancelled s = true) : h.cancelled (b.reportTo h i s).2 = true := by
  unfold reportTo
  split
  · split
    · exact hplays.notify_stays _ _ _ hcancelled
    · exact hcancelled
  · exact hcancelled

theorem cancelled_runTask (hplays : h.Plays compute) {i : Nat} {b : Batch α} {s : σ}
    (hcancelled : h.cancelled s = true) : h.cancelled (b.runTask h i s).2 = true := by
  simp only [runTask]
  split
  · dsimp only
    exact cancelled_reportTo hplays (hplays.compute_stays _ _ hcancelled)
  · exact hcancelled

end Batch

namespace Dispatch

variable {d : Dispatch α} {b b' : Batch α} {c c' : Bool}

/-- Tokens that have fired since the last look fire by moves. -/
theorem exists_run_fired {interrupted cancelled : Bool} (compute : Tile → Attempt TileError α)
    (hinterrupted : d.interrupted = true → interrupted = true)
    (hcancelled : d.cancelled = true → cancelled = true) :
    ∃ moves, d.run compute moves = { d with interrupted, cancelled } := by
  obtain ⟨batch, collector, interrupted', cancelled', abandoned, entered⟩ := d
  cases interrupted with
  | true =>
    cases cancelled with
    | true => exact ⟨[.interrupt, .cancel], rfl⟩
    | false =>
      obtain rfl : cancelled' = false := by simpa using hcancelled
      exact ⟨[.interrupt], rfl⟩
  | false =>
    obtain rfl : interrupted' = false := by simpa using hinterrupted
    cases cancelled with
    | true => exact ⟨[.cancel], rfl⟩
    | false =>
      obtain rfl : cancelled' = false := by simpa using hcancelled
      exact ⟨[], rfl⟩

/-- Some run leads to batch `b` and to a job's token that stands at `c`, and changes nothing else but
the record of begun computations. -/
def Reaches (compute : Tile → Attempt TileError α) (d : Dispatch α) (b : Batch α) (c : Bool) : Prop :=
  ∃ moves entered, d.run compute moves = { d with batch := b, cancelled := c, entered }

namespace Reaches

theorem refl (d : Dispatch α) : d.Reaches compute d.batch d.cancelled := ⟨[], d.entered, rfl⟩

theorem trans (h : d.Reaches compute b c)
    (hnext : ∀ entered, Dispatch.Reaches compute { d with batch := b, cancelled := c, entered } b' c') :
    d.Reaches compute b' c' := by
  obtain ⟨before, entered, hbefore⟩ := h
  obtain ⟨after, entered', hafter⟩ := hnext entered
  exact ⟨before ++ after, entered', by rw [run_append, hbefore, hafter]⟩

/-- The token may have fired in the meantime. -/
theorem fire (h : d.Reaches compute b c) (hstays : c = true → c' = true) :
    d.Reaches compute b c' := by
  cases c' with
  | true =>
    refine h.trans fun entered => ⟨[.cancel], entered, rfl⟩
  | false =>
    obtain rfl : c = false := by simpa using hstays
    exact h

/-- A task that computes takes the rest of its steps. -/
theorem finish_to_send (h : d.Reaches compute b c) (i : Nat) (breaksOff : Bool) :
    d.Reaches compute
      ((((b.finish i (compute (b.tile i))).count i).report i breaksOff).send i) c :=
  h.trans fun entered => ⟨[.finish i, .count i, .report i breaksOff, .send i], entered, by
    simp only [run_cons, run_nil, step]⟩

end Reaches

theorem reaches_runTask (hplays : h.Plays compute) (i : Nat) (s : σ)
    (htoken : d.cancelled = h.cancelled s) :
    d.Reaches compute (d.batch.runTask h i s).1 (h.cancelled (d.batch.runTask h i s).2) := by
  have hcheck : d.Reaches compute (d.batch.check i (h.cancelled s)) (h.cancelled s) :=
    ⟨[.check i], _, by rw [← htoken]; rfl⟩
  refine Reaches.fire ?_ (Batch.cancelled_runTask hplays)
  unfold Batch.runTask
  dsimp only
  generalize d.batch.check i (h.cancelled s) = b at hcheck ⊢
  split
  · obtain ⟨breaksOff, hreport⟩ := Batch.exists_reportTo h i
      ((b.finish i (h.compute (b.tile i) s).1).count i) (h.compute (b.tile i) s).2
    rw [hreport, hplays.compute_eq]
    exact hcheck.finish_to_send i breaksOff
  · exact hcheck

theorem reaches_runFrom (hplays : h.Plays compute) (n i : Nat) (s : σ)
    (htoken : d.cancelled = h.cancelled s) :
    d.Reaches compute (d.batch.runFrom h i n s).1 (h.cancelled (d.batch.runFrom h i n s).2) := by
  induction n generalizing i d s with
  | zero =>
    rw [Batch.runFrom, ← htoken]
    exact .refl d
  | succ n ih =>
    rw [Batch.runFrom]
    exact (reaches_runTask hplays i s htoken).trans fun entered =>
      ih (d := { d with
        batch := (d.batch.runTask h i s).1
        cancelled := h.cancelled (d.batch.runTask h i s).2
        entered }) (i + 1) (d.batch.runTask h i s).2 rfl

theorem reaches_runAll (hplays : h.Plays compute) (g : Grid) (listened : Bool) (s : σ) :
    (start g listened).Reaches compute ((Batch.ofGrid g listened).runAll h s).1
      (h.cancelled ((Batch.ofGrid g listened).runAll h s).2) := by
  have hfire : (start g listened).Reaches compute (Batch.ofGrid g listened) (h.cancelled s) :=
    (Reaches.refl (start g listened)).fire fun hfired => absurd hfired (by simp [start])
  exact hfire.trans fun entered => reaches_runFrom hplays (d := { (start g listened) with
    cancelled := h.cancelled s
    entered }) (Batch.ofGrid g listened).size 0 s rfl

end Dispatch

/-! ### The engine -/

namespace Engine

theorem host_plays {ρ : Type} (e : Engine ρ) (job : Job) (total : Nat) :
    (e.host job total).Plays e.computeTile where
  compute_eq _ _ := rfl
  compute_stays _ _ hcancelled := hcancelled
  notify_stays call n s hcancelled := by
    change (notify job total call n s).2.tokens.isFired job.token = true
    unfold notify
    split
    · exact hcancelled
    · dsimp only
      split <;> split <;> split <;>
        first | exact hcancelled | exact Tokens.isFired_fire_of_isFired hcancelled

end Engine

end WorldMap
