import WorldMap.Proofs.Number.SingleWord
/-!
# The completed share rises to one

A share goes through four roundings, one for each count, one for their quotient and one for the result,
and no rounding turns two numbers around. So a larger count never has a smaller share (`IsShare.mono`).
Rounding may bring a share up to one with work left to do. It is cut off below one then, and as the cut
is the same for every count it turns none around either; only a complete count gets past it.
-/

namespace WorldMap

namespace Binary

variable {done done' total : Nat} {u v : Rat}

/-! ### The share -/

/-- What floating point makes of the share of `done` in `total`: the counts `c` and `t` and their quotient
`q` to double precision, that to single precision, and no more than `nearlyOne`. -/
def IsShare (done total : Nat) (v : Rat) : Prop :=
  ∃ c t q s : Rat, IsRounded doubleBits done c ∧ IsRounded doubleBits total t ∧
    IsRounded doubleBits (c / t) q ∧ IsRounded singleBits q s ∧ v = min s nearlyOne.value

theorem value_nearlyOne_lt : nearlyOne.value < 1 := by
  norm_num [value, nearlyOne]

theorem IsShare.mono (h : IsShare done total u) (h' : IsShare done' total v) (hle : done ≤ done') :
    u ≤ v := by
  obtain ⟨c, t, q, s, hc, ht, hq, hs, rfl⟩ := h
  obtain ⟨c', t', q', s', hc', ht', hq', hs', rfl⟩ := h'
  obtain rfl := ht.unique ht'
  have hcount : c ≤ c' := hc.mono hc' (by exact_mod_cast hle)
  have hshare : c / t ≤ c' / t := div_le_div_of_nonneg_right hcount ht.pos.le
  exact min_le_min_right _ (hs.mono hs' (hq.mono hq' hshare))

/-- A share in what a 64-bit word can count is far from too small for single precision. -/
theorem IsShare.exists_isNormal (h : IsShare done total v) (hdone : 0 < done)
    (htotal : total < 18446744073709551616) : ∃ e k, IsNormal v e k := by
  obtain ⟨c, t, q, s, hc, ht, hq, hs, rfl⟩ := h
  have hdouble : 0 < doubleBits := by decide
  have hcount : (2 : Rat) ^ (0 : Int) ≤ c :=
    (isRounded_zpow hdouble 0).mono hc (by rw [zpow_zero]; exact_mod_cast hdone)
  have hall : t ≤ (2 : Rat) ^ (64 : Int) := by
    refine ht.mono (isRounded_zpow hdouble 64) ?_
    have hcast : (total : Rat) < 18446744073709551616 := by exact_mod_cast htotal
    exact hcast.le.trans_eq (by norm_num)
  have hshare : (2 : Rat) ^ (-64 : Int) ≤ c / t := by
    rw [le_div_iff₀ ht.pos]
    calc (2 : Rat) ^ (-64 : Int) * t
        ≤ 2 ^ (-64 : Int) * 2 ^ (64 : Int) := by gcongr
      _ = 2 ^ (0 : Int) := by rw [← zpow_add₀ two_ne_zero, neg_add_cancel]
      _ ≤ c := hcount
  have hsingle := (isRounded_zpow (by decide) (-64)).mono hs
    ((isRounded_zpow hdouble (-64)).mono hq hshare)
  have hsmall : (2 : Rat) ^ (-126 : Int) ≤ s :=
    le_trans (zpow_le_zpow_right₀ one_le_two (by decide)) hsingle
  rcases le_total s nearlyOne.value with hle | hge
  · rw [min_eq_left hle]
    exact hs.exists_isNormal hsmall (hle.trans value_nearlyOne_lt.le)
  · rw [min_eq_right hge]
    refine ⟨-24, 16777214, ?_, by decide, by decide, by decide, by decide⟩
    norm_num [value, nearlyOne]

theorem isShare_completion (hdone : 0 < done) (hlt : done < total) :
    IsShare done total (completion done total).value := by
  have hdouble : 0 < doubleBits := by decide
  have htotal : 0 < total := Nat.lt_trans hdone hlt
  have hpos := roundBits_pos hdouble hdone
  have hle := roundBits_mono hdouble hdone hlt.le
  have hquotient := isRounded_quotient hdouble hpos hle
  refine ⟨_, _, _, _, isRounded_roundBits hdouble hdone, isRounded_roundBits hdouble htotal,
    hquotient, isRounded_round (by decide) (value_pos_iff.1 hquotient.pos), ?_⟩
  rw [completion, if_neg (Nat.not_le_of_lt hlt), if_neg hdone.ne']
  exact value_least _ _

theorem value_completion_of_le (h : total ≤ done) : (completion done total).value = 1 := by
  rw [completion, if_pos h, value_one]

theorem completion_zero (h : 0 < total) : completion 0 total = zero := by
  rw [completion, if_neg (Nat.not_le_of_lt h), if_pos rfl]

theorem value_completion_lt_one_iff : (completion done total).value < 1 ↔ done < total := by
  rw [← not_le, ← value_one, ← le_iff_value_le, one_le_completion_iff, not_le]

theorem value_completion_le_one (done total : Nat) : (completion done total).value ≤ 1 := by
  rcases Nat.lt_or_ge done total with hlt | hge
  · exact (value_completion_lt_one_iff.2 hlt).le
  · exact (value_completion_of_le hge).le

theorem value_completion_mono (hle : done ≤ done') :
    (completion done total).value ≤ (completion done' total).value := by
  rcases Nat.lt_or_ge done' total with hlt | hge
  · rcases Nat.eq_zero_or_pos done with rfl | hpos
    · rw [completion_zero (by omega), value_zero]
      exact value_nonneg _
    · have hshare := isShare_completion hpos (Nat.lt_of_le_of_lt hle hlt)
      have hshare' := isShare_completion (Nat.lt_of_lt_of_le hpos hle) hlt
      exact hshare.mono hshare' hle
  · rw [value_completion_of_le hge]
    exact value_completion_le_one done total

theorem singleNumber?_toBits_completion (htotal : total < 18446744073709551616) :
    singleNumber? (completion done total).toBits = some (completion done total).value := by
  rcases Nat.lt_or_ge done total with hlt | hge
  · rcases Nat.eq_zero_or_pos done with rfl | hpos
    · rw [completion_zero hlt, value_zero]
      norm_num [singleNumber?, toBits, zero]
    · obtain ⟨e, k, hnormal⟩ := (isShare_completion hpos hlt).exists_isNormal hpos htotal
      exact hnormal.singleNumber?_toBits
  · rw [completion, if_pos hge]
    have hone : IsNormal one.value (-23) 8388608 :=
      ⟨by norm_num [value, one], by decide, by decide, by decide, by decide⟩
    exact hone.singleNumber?_toBits

/-- The completed share never falls as the count rises, lies between zero and one, and is one exactly if
nothing is left to do: with work left it is below one, however much there is in all. In between it is the
share as floating point rounds it, and its single precision word says so exactly. -/
theorem completion_rises_to_one (total : Nat) :
    (∀ done done', done ≤ done' →
      (completion done total).value ≤ (completion done' total).value) ∧
    (∀ done, 0 ≤ (completion done total).value ∧ (completion done total).value ≤ 1 ∧
      ((completion done total).value = 1 ↔ total ≤ done) ∧
      ((completion done total).value < 1 ↔ done < total)) ∧
    (∀ done, 0 < done → done < total → IsShare done total (completion done total).value) ∧
    (total < 18446744073709551616 → ∀ done,
      singleNumber? (completion done total).toBits = some (completion done total).value) := by
  refine ⟨fun done done' => value_completion_mono, fun done => ⟨value_nonneg _,
    value_completion_le_one done total, ?_, value_completion_lt_one_iff⟩,
    fun done => isShare_completion, fun htotal done => singleNumber?_toBits_completion htotal⟩
  constructor
  · intro hone
    exact Nat.le_of_not_lt fun hlt => (value_completion_lt_one_iff.2 hlt).ne hone
  · exact value_completion_of_le

/-- The first number that double precision does not have. It is rounded to the one before. -/
private def hugeTotal : Nat := 9007199254740993

theorem completion_rises_to_one_hugeTotal :
    (completion 9007199254740991 hugeTotal).value ≤ (completion 9007199254740992 hugeTotal).value ∧
    9007199254740992 < hugeTotal ∧ IsShare 9007199254740992 hugeTotal nearlyOne.value ∧
    hugeTotal < 18446744073709551616 ∧ singleNumber? 0x3f7ffffe = some nearlyOne.value := by
  obtain ⟨hrises, -, hshare, hword⟩ := completion_rises_to_one hugeTotal
  have hlt : 9007199254740992 < hugeTotal := by decide
  have hbits : hugeTotal < 18446744073709551616 := by decide
  have hlast : completion 9007199254740992 hugeTotal = nearlyOne := by decide
  have hshare' := hshare 9007199254740992 (by decide) hlt
  have hword' := hword hbits 9007199254740992
  rw [hlast] at hshare' hword'
  exact ⟨hrises _ _ (by decide), hlt, hshare', hbits, hword'⟩

example : completion 16777217 16777218 = nearlyOne := by decide

end Binary

end WorldMap
