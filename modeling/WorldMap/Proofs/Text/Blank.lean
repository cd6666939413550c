import Mathlib.Data.List.TakeWhile
import WorldMap.Text.Blank
/-!
# Text within blanks

Taking the blanks off both ends of a text leaves what stands between them. A text without any blank is
found again this way, whatever blanks are put around it.
-/

namespace WorldMap

variable {text core : List Char}

/-- The text is `core` with blanks around it. -/
def Padded (text core : List Char) : Prop :=
  ∃ before after, text = before ++ core ++ after ∧
    (∀ c ∈ before, isBlank c = true) ∧ ∀ c ∈ after, isBlank c = true

theorem Padded.refl (text : List Char) : Padded text text :=
  ⟨[], [], by simp, by simp, by simp⟩

theorem Padded.mem_iff {c : Char} (h : Padded text core) (hblank : isBlank c = false) :
    c ∈ text ↔ c ∈ core := by
  obtain ⟨before, after, rfl, hbefore, hafter⟩ := h
  have hnot : ∀ cs : List Char, (∀ c ∈ cs, isBlank c = true) → c ∉ cs := by
    intro cs hcs hc
    cases hblank.symm.trans (hcs c hc)
  simp [hnot before hbefore, hnot after hafter]

theorem padded_trim (text : List Char) : Padded text (trim text) := by
  refine ⟨text.takeWhile isBlank, ((text.dropWhile isBlank).reverse.takeWhile isBlank).reverse,
    ?_, fun c hc => List.mem_takeWhile_imp hc,
    fun c hc => List.mem_takeWhile_imp (List.mem_reverse.1 hc)⟩
  rw [trim, trimEnd, List.append_assoc, ← List.reverse_append, List.takeWhile_append_dropWhile,
    List.reverse_reverse, List.takeWhile_append_dropWhile]

theorem isBlank_of_isDigit {c : Char} (h : c.isDigit = true) : isBlank c = false := by
  simp only [Char.isDigit, Bool.and_eq_true, decide_eq_true_eq] at h
  have hlow : 48 ≤ c.toNat := h.1
  have hhigh : c.toNat ≤ 57 := h.2
  simp [isBlank, lonelyBlanks]
  omega

theorem dropWhile_isBlank_eq_self (hcore : ∀ c ∈ core, isBlank c = false) :
    core.dropWhile isBlank = core := by
  cases core with
  | nil => rfl
  | cons c core => exact List.dropWhile_cons_of_neg (by simp [hcore c List.mem_cons_self])

theorem trimEnd_append {after : List Char} (hcore : ∀ c ∈ core, isBlank c = false)
    (hafter : ∀ c ∈ after, isBlank c = true) : trimEnd (core ++ after) = core := by
  rw [trimEnd, List.reverse_append,
    List.dropWhile_append_of_pos fun c hc => hafter c (List.mem_reverse.1 hc),
    dropWhile_isBlank_eq_self fun c hc => hcore c (List.mem_reverse.1 hc), List.reverse_reverse]

theorem Padded.trim_eq (h : Padded text core) (hcore : ∀ c ∈ core, isBlank c = false) :
    trim text = core := by
  obtain ⟨before, after, rfl, hbefore, hafter⟩ := h
  rw [trim, List.append_assoc, List.dropWhile_append_of_pos hbefore]
  cases core with
  | nil =>
    have hnone : after.dropWhile isBlank = [] := List.dropWhile_eq_nil_iff.2 hafter
    rw [List.nil_append, hnone]
    rfl
  | cons c core =>
    have hhead : (c :: core ++ after).dropWhile isBlank = c :: core ++ after :=
      List.dropWhile_cons_of_neg (by simp [hcore c List.mem_cons_self])
    rw [hhead, trimEnd_append hcore hafter]

end WorldMap
