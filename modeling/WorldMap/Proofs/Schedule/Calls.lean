import Mathlib.Data.List.Perm.Basic
import WorldMap.Schedule.Tracker
/-!
# Calls of a tracker in any order

A call counts in one step and reports in another, and the steps of different calls may come in any
order. `Calls.Sound` is what holds throughout. The counts that were handed out are the numbers from one
on, each of them once, and the largest is the tracker's own. What the listener was told rises, and ends
with `lastReported`, and no call has returned whose count is above it. So when all calls have returned
the largest count has been reported: the reports that were dropped were overtaken by a larger one.
-/

namespace WorldMap

/-! ### What the listener was told -/

/-- The reports rise up to the last one, and run no further than the count. -/
structure Tracker.Sound (t : Tracker) : Prop where
  increasing : t.reports.toList.Pairwise (· < ·)
  le_last : ∀ n ∈ t.reports, n ≤ t.lastReported
  last : t.reports.back?.getD 0 = t.lastReported
  bounded : t.lastReported ≤ t.completed

namespace Tracker

variable {t : Tracker} {n : Nat} {breaksOff : Bool}

theorem Sound.start (total : Nat) (listened : Bool) : (Tracker.start total listened).Sound :=
  ⟨List.Pairwise.nil, by simp [Tracker.start], rfl, Nat.le_refl 0⟩

theorem Sound.count (h : t.Sound) : t.count.2.Sound :=
  ⟨h.increasing, h.le_last, h.last, Nat.le_succ_of_le h.bounded⟩

theorem Sound.count_reports_le_one (h : t.Sound) (n : Nat) : t.reports.count n ≤ 1 := by
  have hnodup : t.reports.toList.Nodup := h.increasing.imp fun hlt => Nat.ne_of_lt hlt
  rw [← Array.count_toList]
  exact List.nodup_iff_count.1 hnodup n

/-- No report names a count that nobody has. -/
theorem Sound.report (h : t.Sound) (hn : n ≤ t.completed) (breaksOff : Bool) :
    (t.report n breaksOff).Sound := by
  unfold Tracker.report
  split
  · rename_i hnews
    have hlt : t.lastReported < n := by
      rw [isNews, Bool.and_eq_true, decide_eq_true_eq] at hnews
      exact hnews.2
    refine ⟨?_, fun m hm => ?_, by simp, hn⟩
    · rw [Array.toList_push, List.pairwise_append]
      refine ⟨h.increasing, List.pairwise_singleton .., fun m hm k hk => ?_⟩
      have hle := h.le_last m (Array.mem_toList_iff.1 hm)
      rw [List.mem_singleton.1 hk]
      omega
    · rcases Array.mem_push.1 hm with hm | hm
      · have hle := h.le_last m hm
        change m ≤ n
        omega
      · exact Nat.le_of_eq hm
  · exact h

/-- A count that a listener was not told of has been overtaken. -/
theorem le_lastReported_report (hlistened : t.listened = true) :
    n ≤ (t.report n breaksOff).lastReported := by
  unfold report
  split
  · exact Nat.le_refl n
  · rename_i hnews
    simpa [isNews, hlistened] using hnews

theorem lastReported_le_report : t.lastReported ≤ (t.report n breaksOff).lastReported := by
  unfold report
  split
  · rename_i hnews
    rw [isNews, Bool.and_eq_true, decide_eq_true_eq] at hnews
    exact Nat.le_of_lt hnews.2
  · exact Nat.le_refl _

@[simp] theorem completed_report : (t.report n breaksOff).completed = t.completed := by
  unfold report
  split <;> rfl

@[simp] theorem total_report : (t.report n breaksOff).total = t.total := by
  unfold report
  split <;> rfl

@[simp] theorem listened_report : (t.report n breaksOff).listened = t.listened := by
  unfold report
  split <;> rfl

theorem getLast?_reportedFractions (t : Tracker) :
    t.reportedFractions.getLast? = t.reports.back?.map (Binary.completion · t.total) := by
  rw [reportedFractions, List.getLast?_map, ← Array.getLast?_toList]

/-- If the last report is as large as the count, it is the count. -/
theorem Sound.back?_eq (h : t.Sound) (hpos : 0 < t.completed)
    (hle : t.completed ≤ t.lastReported) : t.reports.back? = some t.completed := by
  have hlast := h.last
  rw [Nat.le_antisymm h.bounded hle] at hlast
  cases hback : t.reports.back? with
  | none =>
    rw [hback, Option.getD_none] at hlast
    omega
  | some n => rw [← hlast, hback, Option.getD_some]

end Tracker

/-! ### Calls -/

/-- How far a call has come, and the count it was given. -/
inductive Call
  | pending
  | counted (n : Nat)
  | returned (n : Nat)
  deriving DecidableEq

namespace Call

def count? : Call → Option Nat
  | pending => none
  | counted n => some n
  | returned n => some n

def result? : Call → Option Nat
  | returned n => some n
  | _ => none

end Call

/-- A tracker and the calls that are made of it. -/
structure Calls where
  tracker : Tracker
  calls : List Call

inductive CallStep
  | count (i : Nat)
  | report (i : Nat) (breaksOff : Bool)

namespace Calls

/-- `n` calls to be made of the tracker of `total` tiles, which has a listener. -/
def start (total n : Nat) : Calls := ⟨Tracker.start total true, List.replicate n .pending⟩

def step (u : Calls) : CallStep → Calls
  | .count i =>
    match u.calls[i]? with
    | some .pending => ⟨u.tracker.count.2, u.calls.set i (.counted u.tracker.count.1)⟩
    | _ => u
  | .report i breaksOff =>
    match u.calls[i]? with
    | some (.counted n) => ⟨u.tracker.report n breaksOff, u.calls.set i (.returned n)⟩
    | _ => u

def run (u : Calls) (steps : List CallStep) : Calls := steps.foldl step u

theorem run_append (u : Calls) (before after : List CallStep) :
    u.run (before ++ after) = (u.run before).run after :=
  List.foldl_append

section Steps

variable {u : Calls} {i n : Nat}

theorem step_count (hcall : u.calls[i]? = some .pending) :
    u.step (.count i) = ⟨u.tracker.count.2, u.calls.set i (.counted u.tracker.count.1)⟩ := by
  simp only [step, hcall]

theorem step_report (hcall : u.calls[i]? = some (.counted n)) (breaksOff : Bool) :
    u.step (.report i breaksOff) =
      ⟨u.tracker.report n breaksOff, u.calls.set i (.returned n)⟩ := by
  simp only [step, hcall]

/-- A call with no other in between finishes its tile. -/
theorem run_finishTile (hcall : u.calls[i]? = some .pending) (breaksOff : Nat → Bool) :
    u.run [.count i, .report i (breaksOff u.tracker.nextCall)] =
      ⟨(u.tracker.finishTile breaksOff).2,
        u.calls.set i (.returned (u.tracker.finishTile breaksOff).1)⟩ := by
  obtain ⟨hi, -⟩ := List.getElem?_eq_some_iff.1 hcall
  change (u.step (.count i)).step (.report i _) = _
  rw [step_count hcall, step_report (List.getElem?_set_self hi), List.set_set]
  rfl

end Steps

def counts (u : Calls) : List Nat := u.calls.filterMap Call.count?

/-- What the calls have returned, those that have. -/
def results (u : Calls) : List Nat := u.calls.filterMap Call.result?

/-- Replacing the call at a place changes what is gathered from the calls at that place only. -/
private theorem filterMap_set_perm {calls : List Call} {i : Nat} {c d : Call} {f : Call → Option Nat}
    (hcall : calls[i]? = some c) :
    ∃ rest, (calls.filterMap f).Perm ((f c).toList ++ rest) ∧
      ((calls.set i d).filterMap f).Perm ((f d).toList ++ rest) := by
  obtain ⟨hi, rfl⟩ := List.getElem?_eq_some_iff.1 hcall
  have hcons : ∀ a, (a :: calls.eraseIdx i).filterMap f =
      (f a).toList ++ (calls.eraseIdx i).filterMap f := by
    intro a
    rw [List.filterMap_cons]
    cases f a <;> rfl
  refine ⟨(calls.eraseIdx i).filterMap f, ?_, ?_⟩
  · rw [← hcons]
    exact (List.getElem_cons_eraseIdx_perm hi).symm.filterMap f
  · rw [← hcons]
    exact (List.set_perm_cons_eraseIdx hi d).filterMap f

structure Sound (u : Calls) : Prop where
  tracker : u.tracker.Sound
  listened : u.tracker.listened = true
  counts : u.counts.Perm (List.range' 1 u.tracker.completed)
  passed : ∀ n ∈ u.results, n ≤ u.tracker.lastReported

namespace Sound

variable {u : Calls} {i n : Nat}

theorem start (total n : Nat) : (Calls.start total n).Sound where
  tracker := .start total true
  listened := rfl
  counts := by simp [Calls.counts, Calls.start, Tracker.start, Call.count?]
  passed := by simp [Calls.results, Calls.start, Call.result?]

theorem le_completed (h : u.Sound) (hcall : u.calls[i]? = some (.counted n)) :
    n ≤ u.tracker.completed := by
  have hmem : n ∈ u.counts :=
    List.mem_filterMap.2 ⟨.counted n, List.mem_of_getElem? hcall, rfl⟩
  have hrange := List.mem_range'_1.1 (h.counts.mem_iff.1 hmem)
  omega

private theorem count (h : u.Sound) (hcall : u.calls[i]? = some .pending) :
    Sound ⟨u.tracker.count.2, u.calls.set i (.counted u.tracker.count.1)⟩ := by
  refine ⟨h.tracker.count, h.listened, ?_, fun n hn => ?_⟩
  · obtain ⟨rest, hbefore, hafter⟩ := filterMap_set_perm (f := Call.count?)
      (d := .counted u.tracker.count.1) hcall
    have hrest : rest.Perm (List.range' 1 u.tracker.completed) := hbefore.symm.trans h.counts
    refine hafter.trans ?_
    change ((u.tracker.completed + 1) :: rest).Perm (List.range' 1 (u.tracker.completed + 1))
    rw [List.range'_1_concat, Nat.add_comm]
    exact (hrest.cons _).trans (List.perm_append_singleton ..).symm
  · obtain ⟨rest, hbefore, hafter⟩ := filterMap_set_perm (f := Call.result?)
      (d := .counted u.tracker.count.1) hcall
    exact h.passed n (hbefore.mem_iff.2 (hafter.mem_iff.1 hn))

private theorem report (h : u.Sound) (hcall : u.calls[i]? = some (.counted n)) (breaksOff : Bool) :
    Sound ⟨u.tracker.report n breaksOff, u.calls.set i (.returned n)⟩ := by
  refine ⟨h.tracker.report (h.le_completed hcall) breaksOff,
    Tracker.listened_report.trans h.listened, ?_, fun m hm => ?_⟩
  · obtain ⟨rest, hbefore, hafter⟩ := filterMap_set_perm (f := Call.count?)
      (d := .returned n) hcall
    rw [Tracker.completed_report]
    exact hafter.trans (hbefore.symm.trans h.counts)
  · obtain ⟨rest, hbefore, hafter⟩ := filterMap_set_perm (f := Call.result?)
      (d := .returned n) hcall
    rcases List.mem_cons.1 (hafter.mem_iff.1 hm) with rfl | hrest
    · exact Tracker.le_lastReported_report h.listened
    · exact Nat.le_trans (h.passed m (hbefore.mem_iff.2 hrest)) Tracker.lastReported_le_report

theorem step (h : u.Sound) (m : CallStep) : (u.step m).Sound := by
  cases m with
  | count i =>
    simp only [Calls.step]
    split
    · exact h.count ‹_›
    · exact h
  | report i breaksOff =>
    simp only [Calls.step]
    split
    · exact h.report ‹_› breaksOff
    · exact h

theorem length_counts (h : u.Sound) : u.counts.length = u.tracker.completed := by
  rw [h.counts.length_eq, List.length_range']

theorem le_length_counts (h : u.Sound) (hn : n ∈ u.tracker.reports) : n ≤ u.counts.length := by
  rw [h.length_counts]
  exact Nat.le_trans (h.tracker.le_last n hn) h.tracker.bounded

/-- The number of all calls is not reported before they have all counted. -/
theorem counted_of_mem_reports (h : u.Sound) (hmem : u.calls.length ∈ u.tracker.reports) :
    ∀ c ∈ u.calls, c.count?.isSome = true := by
  have hle := h.le_length_counts hmem
  rw [Calls.counts, List.length_filterMap_eq_countP] at hle
  exact List.countP_eq_length.1 (Nat.le_antisymm List.countP_le_length hle)

/-- Once all calls have returned, what they have returned is what was handed out. -/
theorem results_eq (hdone : ∀ c ∈ u.calls, ∃ n, c = .returned n) : u.results = u.counts := by
  apply List.filterMap_congr
  intro c hc
  obtain ⟨n, rfl⟩ := hdone c hc
  rfl

theorem completed_eq (h : u.Sound) (hdone : ∀ c ∈ u.calls, ∃ n, c = .returned n) :
    u.tracker.completed = u.calls.length := by
  rw [← h.length_counts, Calls.counts, List.length_filterMap_eq_countP, List.countP_eq_length]
  intro c hc
  obtain ⟨n, rfl⟩ := hdone c hc
  rfl

theorem results_perm (h : u.Sound) (hdone : ∀ c ∈ u.calls, ∃ n, c = .returned n) :
    u.results.Perm (List.range' 1 u.calls.length) := by
  rw [results_eq hdone, ← h.completed_eq hdone]
  exact h.counts

/-- The last report is the largest count. -/
theorem back?_reports (h : u.Sound) (hdone : ∀ c ∈ u.calls, ∃ n, c = .returned n)
    (hpos : 0 < u.calls.length) : u.tracker.reports.back? = some u.calls.length := by
  have hcompleted := h.completed_eq hdone
  rw [← hcompleted]
  refine h.tracker.back?_eq (by omega) (h.passed _ ?_)
  rw [results_eq hdone, h.counts.mem_iff, List.mem_range'_1]
  omega

end Sound

theorem length_step (u : Calls) (m : CallStep) : (u.step m).calls.length = u.calls.length := by
  cases m <;> simp only [step] <;> split <;> simp

theorem total_step (u : Calls) (m : CallStep) : (u.step m).tracker.total = u.tracker.total := by
  cases m <;> simp only [step] <;> split <;> simp [Tracker.count]

theorem Sound.run {u : Calls} (h : u.Sound) (steps : List CallStep) : (u.run steps).Sound := by
  induction steps generalizing u with
  | nil => exact h
  | cons m steps ih => exact ih (h.step m)

theorem length_run (u : Calls) (steps : List CallStep) :
    (u.run steps).calls.length = u.calls.length := by
  induction steps generalizing u with
  | nil => rfl
  | cons m steps ih => exact (ih (u.step m)).trans (length_step u m)

theorem total_run (u : Calls) (steps : List CallStep) :
    (u.run steps).tracker.total = u.tracker.total := by
  induction steps generalizing u with
  | nil => rfl
  | cons m steps ih => exact (ih (u.step m)).trans (total_step u m)

theorem length_run_start (total n : Nat) (steps : List CallStep) :
    ((start total n).run steps).calls.length = n := by
  rw [length_run, start, List.length_replicate]

end Calls

end WorldMap
