import Mathlib.Data.Nat.Digits.Defs
import WorldMap.Text.Number
/-!
# What counts as a number

The reader of numbers goes from left to right and gives up as soon as it holds too large a number.
More digits never make a number smaller, so it gives up on just those numbers that are too large as a
whole: what it accepts are the decimal numbers up to its limit (`readUnsigned_eq_ok_iff`).
-/

namespace WorldMap

variable {base limit n m : Nat} {overflow : NumberError} {c : Char} {text cs : List Char}

/-- The text is the number `n` in decimal notation: one or more digits, perhaps after a `+`. -/
def IsDecimal (text : List Char) (n : Nat) : Prop :=
  ∃ digits : List Char, (text = digits ∨ text = '+' :: digits) ∧ digits ≠ [] ∧
    (∀ c ∈ digits, c.isDigit = true) ∧
    Nat.ofDigits 10 (digits.reverse.map fun c => c.toNat - '0'.toNat) = n

/-! ### Digits -/

theorem digit?_ten (c : Char) :
    digit? 10 c = if c.isDigit = true then some (c.toNat - '0'.toNat) else none := by
  have hdigit : c.isDigit = true ↔ '0' ≤ c ∧ c ≤ '9' := by
    simp only [Char.isDigit, Bool.and_eq_true, decide_eq_true_eq]
    exact Iff.rfl
  by_cases hrange : '0' ≤ c ∧ c ≤ '9'
  · have hvalue : c.toNat - '0'.toNat < 10 := by
      have hhigh : c.toNat ≤ '9'.toNat := hrange.2
      have hzero : '0'.toNat = 48 := rfl
      have hnine : '9'.toNat = 57 := rfl
      omega
    rw [digit?, if_pos hrange, if_pos hvalue, if_pos (hdigit.2 hrange)]
  · rw [digit?, if_neg hrange, if_neg (fun h => hrange (hdigit.1 h)), if_neg]
    split
    · omega
    · split <;> omega

/-- The number that the digits lead to from `n` on. -/
def valueFrom (base n : Nat) (ds : List Nat) : Nat := ds.foldl (fun n d => n * base + d) n

theorem le_valueFrom (hbase : 0 < base) (ds : List Nat) : n ≤ valueFrom base n ds := by
  induction ds generalizing n with
  | nil => exact Nat.le_refl n
  | cons d ds ih =>
    have hstep : n ≤ n * base + d := Nat.le_add_right_of_le (Nat.le_mul_of_pos_right n hbase)
    exact hstep.trans ih

theorem valueFrom_zero (base : Nat) (ds : List Nat) :
    valueFrom base 0 ds = Nat.ofDigits base ds.reverse := by
  rw [Nat.ofDigits_eq_foldr, List.foldr_reverse, valueFrom]
  congr 1
  funext n d
  rw [Nat.mul_comm, Nat.add_comm, Nat.cast_id]

theorem readDigits_eq_ok_iff (hbase : 0 < base) (hn : n ≤ limit) :
    readDigits base limit overflow n cs = .ok m ↔
      m ≤ limit ∧ ∃ ds, cs.map (digit? base) = ds.map some ∧ valueFrom base n ds = m := by
  induction cs generalizing n with
  | nil =>
    simp only [readDigits, Except.ok.injEq, List.map_nil, List.nil_eq, List.map_eq_nil_iff,
      exists_eq_left, valueFrom, List.foldl_nil]
    constructor
    · rintro rfl
      exact ⟨hn, rfl⟩
    · exact And.right
  | cons c cs ih =>
    rw [readDigits, List.map_cons]
    cases hdigit : digit? base c with
    | none =>
      have hnone : ∀ ds : List Nat, none :: cs.map (digit? base) ≠ ds.map some := by
        intro ds h
        cases ds <;> simp at h
      simp [hnone]
    | some d =>
      have hmore : (∃ ds : List Nat, some d :: cs.map (digit? base) = ds.map some ∧
            valueFrom base n ds = m) ↔
          ∃ ds, cs.map (digit? base) = ds.map some ∧ valueFrom base (n * base + d) ds = m := by
        constructor
        · rintro ⟨_ | ⟨e, ds⟩, hds, hvalue⟩
          · simp at hds
          · obtain ⟨rfl, hds⟩ := by simpa using hds
            exact ⟨ds, by simpa using hds, hvalue⟩
        · rintro ⟨ds, hds, hvalue⟩
          exact ⟨d :: ds, by rw [hds, List.map_cons], hvalue⟩
      rw [hmore]
      by_cases hlimit : limit < n * base + d
      · simp only [if_pos hlimit]
        constructor
        · intro h
          cases h
        · rintro ⟨hm, ds, -, hvalue⟩
          have hgrown := le_valueFrom (n := n * base + d) hbase ds
          omega
      · simp only [if_neg hlimit]
        exact ih (Nat.le_of_not_lt hlimit)

/-- The digits of a decimal number are read as what they count. -/
theorem map_digit?_ten_iff {ds : List Nat} :
    cs.map (digit? 10) = ds.map some ↔
      (∀ c ∈ cs, c.isDigit = true) ∧ ds = cs.map fun c => c.toNat - '0'.toNat := by
  induction cs generalizing ds with
  | nil => simp
  | cons c cs ih =>
    cases ds with
    | nil => simp
    | cons d ds =>
      rw [List.map_cons, List.map_cons, List.cons.injEq, ih, digit?_ten]
      by_cases hdigit : c.isDigit = true
      · simp only [hdigit, if_true, Option.some.injEq, List.forall_mem_cons, true_and, List.map_cons,
          List.cons.injEq]
        constructor
        · rintro ⟨rfl, hcs, rfl⟩
          exact ⟨hcs, rfl, rfl⟩
        · rintro ⟨hcs, rfl, rfl⟩
          exact ⟨rfl, hcs, rfl⟩
      · simp [hdigit]

theorem readDigits_ten_eq_ok_iff :
    readDigits 10 limit overflow 0 cs = .ok n ↔ n ≤ limit ∧ (∀ c ∈ cs, c.isDigit = true) ∧
      Nat.ofDigits 10 (cs.reverse.map fun c => c.toNat - '0'.toNat) = n := by
  rw [readDigits_eq_ok_iff (by decide) (Nat.zero_le limit)]
  simp only [map_digit?_ten_iff, valueFrom_zero, and_assoc, exists_eq_left, exists_and_left,
    List.map_reverse]

/-- A number is read if it is in decimal notation and not above the limit. -/
theorem readUnsigned_eq_ok_iff :
    readUnsigned 10 limit text = .ok n ↔ IsDecimal text n ∧ n ≤ limit := by
  have hplus : ¬ ('+'.isDigit = true) := by decide
  unfold readUnsigned
  split
  case h_1 =>
    simp [IsDecimal]
  case h_2 =>
    simp [IsDecimal, hplus]
  case h_3 cs hsome =>
    rw [readDigits_ten_eq_ok_iff]
    constructor
    · rintro ⟨hn, hdigits, hvalue⟩
      exact ⟨⟨cs, .inr rfl, hsome, hdigits, hvalue⟩, hn⟩
    · rintro ⟨⟨digits, rfl | htext, -, hdigits, hvalue⟩, hn⟩
      · exact absurd (hdigits _ List.mem_cons_self) hplus
      · obtain rfl : cs = digits := (List.cons.inj htext).2
        exact ⟨hn, hdigits, hvalue⟩
  case h_4 hsome _ hunsigned =>
    rw [readDigits_ten_eq_ok_iff]
    constructor
    · rintro ⟨hn, hdigits, hvalue⟩
      exact ⟨⟨text, .inl rfl, hsome, hdigits, hvalue⟩, hn⟩
    · rintro ⟨⟨digits, rfl | htext, -, hdigits, hvalue⟩, hn⟩
      · exact ⟨hn, hdigits, hvalue⟩
      · exact absurd htext (hunsigned digits)

theorem readUnsigned_of_ne_plus {base : Nat} {c : Char} (hplus : c ≠ '+') :
    readUnsigned base limit (c :: cs) = readDigits base limit .tooLarge 0 (c :: cs) := by
  unfold readUnsigned
  split
  · next hnil => cases hnil
  · next hcons => exact absurd (List.cons.inj hcons).1 hplus
  · next hcons => exact absurd (List.cons.inj hcons).1 hplus
  · rfl

/-- What is written for a number is that number in decimal notation. -/
theorem isDecimal_toString (n : Nat) : IsDecimal (toString n).toList n := by
  rw [Nat.toString_eq_ofList_toDigits, String.toList_ofList]
  refine ⟨_, .inl rfl, Nat.toDigits_ne_nil,
    fun c hc => Nat.isDigit_of_mem_toDigits (by decide) (by decide) hc, ?_⟩
  calc Nat.ofDigits 10 ((Nat.toDigits 10 n).reverse.map fun c => c.toNat - '0'.toNat)
      = valueFrom 10 0 ((Nat.toDigits 10 n).map fun c => c.toNat - '0'.toNat) := by
        rw [valueFrom_zero, List.map_reverse]
    _ = Nat.ofDigitChars 10 (Nat.toDigits 10 n) 0 := by
        rw [valueFrom, List.foldl_map, Nat.ofDigitChars_eq_foldl]
        simp only [Nat.mul_comm]
    _ = n := Nat.ofDigitChars_ten_toDigits

end WorldMap
