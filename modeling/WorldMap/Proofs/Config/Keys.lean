import WorldMap.Config.Settings
import WorldMap.Proofs.Text.Number
/-!
# What a key of a section file accepts

There are two kinds of keys, those that take a number from one up to a limit and those that take a
color. A text sets a key to a value if it writes one that the key takes, and is refused otherwise: one
of the two and never both (`Key.sets_or_refuses`, `Key.Refuses.not_valid`), as `Key.read` comes to
exactly one result.
-/

namespace WorldMap

namespace Settings

/-- What a key can be set to. -/
inductive Value
  | number (n : Nat)
  | color (c : Color)

/-- A key takes a number from one up to a limit, with a reason of its own against zero, or a color. -/
inductive Kind
  | number (limit : Nat) (zero : Reason)
  | color

/-- The text writes the value. Blanks around a number do not count. -/
def Value.IsWritten (text : String) : Value → Prop
  | number n => IsDecimal (trim text.toList) n
  | color c => Color.read text.toList = some c

namespace Key

/-- The keys, in the order in which they are looked at. -/
def all : List Key :=
  [threads, tileWidth, tileDepth, tileHeight, tileBackground, canvasBackground, axisColor,
    pollInterval]

theorem mem_all (key : Key) : key ∈ all := by
  cases key <;> decide

def kind : Key → Kind
  | threads => .number maxWord64 .belowOne
  | tileWidth | tileDepth | tileHeight => .number maxWord32 .notPositive
  | tileBackground | canvasBackground | axisColor => .color
  | pollInterval => .number maxWord64 .belowOne

/-- The value is one that the key takes. -/
def Fits (key : Key) (v : Value) : Prop :=
  match key.kind, v with
  | .number limit _, .number n => 1 ≤ n ∧ n ≤ limit
  | .color, .color _ => True
  | _, _ => False

/-- The text sets the key to the value. -/
structure Sets (key : Key) (text : String) (v : Value) : Prop where
  fits : key.Fits v
  isWritten : v.IsWritten text

def Valid (key : Key) (text : String) : Prop := ∃ v, key.Sets text v

/-- What is reported of a text that is not valid: a zero is told from what is no number at all, or
none below the limit. -/
inductive Refuses (key : Key) (text : String) : InvalidValue → Prop
  | zero {limit : Nat} {reason : Reason} (hkind : key.kind = .number limit reason)
      (htext : IsDecimal (trim text.toList) 0) : key.Refuses text ⟨key, "0", reason⟩
  | number {limit : Nat} {reason : Reason} (hkind : key.kind = .number limit reason)
      (htext : ∀ n, IsDecimal (trim text.toList) n → limit < n) :
      key.Refuses text ⟨key, text, .notANumber⟩
  | color (hkind : key.kind = .color) (htext : Color.read text.toList = none) :
      key.Refuses text ⟨key, text, .notAColor⟩

/-- How the text of a key is read. -/
def read (key : Key) (text : String) : Except InvalidValue Value :=
  match key.kind with
  | .number limit zero =>
    match readUnsigned 10 limit (trim text.toList) with
    | .error _ => .error ⟨key, text, .notANumber⟩
    | .ok 0 => .error ⟨key, "0", zero⟩
    | .ok n => .ok (.number n)
  | .color =>
    match Color.read text.toList with
    | none => .error ⟨key, text, .notAColor⟩
    | some c => .ok (.color c)

variable {key : Key} {text : String} {v : Value} {e : InvalidValue}

theorem Refuses.key_eq (h : key.Refuses text e) : e.key = key := by
  cases h <;> rfl

theorem Sets.read_eq (h : key.Sets text v) : key.read text = .ok v := by
  obtain ⟨hfits, hwritten⟩ := h
  cases hkind : key.kind with
  | number limit zero =>
    cases v with
    | number n =>
      simp only [Fits, hkind] at hfits
      have hread := readUnsigned_eq_ok_iff.2 ⟨hwritten, hfits.2⟩
      obtain ⟨m, rfl⟩ : ∃ m, n = m + 1 := ⟨n - 1, by omega⟩
      simp only [read, hkind, hread]
    | color c => simp [Fits, hkind] at hfits
  | color =>
    cases v with
    | number n => simp [Fits, hkind] at hfits
    | color c =>
      have hread : Color.read text.toList = some c := hwritten
      simp only [read, hkind, hread]

theorem Refuses.read_eq (h : key.Refuses text e) : key.read text = .error e := by
  cases h with
  | @zero limit _ hkind htext =>
    have hread := readUnsigned_eq_ok_iff.2 ⟨htext, Nat.zero_le limit⟩
    simp only [read, hkind, hread]
  | @number limit _ hkind htext =>
    cases hread : readUnsigned 10 limit (trim text.toList) with
    | error _ => simp only [read, hkind, hread]
    | ok n =>
      obtain ⟨hdecimal, hlimit⟩ := readUnsigned_eq_ok_iff.1 hread
      exact absurd (htext n hdecimal) (Nat.not_lt_of_le hlimit)
  | color hkind htext => simp only [read, hkind, htext]

/-- Every text sets the key or is refused. -/
theorem sets_or_refuses (key : Key) (text : String) :
    (∃ v, key.Sets text v) ∨ ∃ e, key.Refuses text e := by
  cases hkind : key.kind with
  | number limit zero =>
    by_cases htext : ∃ n, IsDecimal (trim text.toList) n ∧ n ≤ limit
    · obtain ⟨n, hdecimal, hlimit⟩ := htext
      rcases Nat.eq_zero_or_pos n with rfl | hpos
      · exact .inr ⟨_, .zero hkind hdecimal⟩
      · refine .inl ⟨.number n, ?_, hdecimal⟩
        simp only [Fits, hkind]
        exact ⟨hpos, hlimit⟩
    · refine .inr ⟨_, .number hkind fun n hn => ?_⟩
      exact Nat.lt_of_not_le fun hle => htext ⟨n, hn, hle⟩
  | color =>
    cases htext : Color.read text.toList with
    | none => exact .inr ⟨_, .color hkind htext⟩
    | some c =>
      refine .inl ⟨.color c, ?_, htext⟩
      simp only [Fits, hkind]

theorem Sets.unique {w : Value} (h : key.Sets text v) (h' : key.Sets text w) : v = w :=
  Except.ok.inj (h.read_eq.symm.trans h'.read_eq)

/-- What is refused is not valid. -/
theorem Refuses.not_valid (h : key.Refuses text e) : ¬ key.Valid text := by
  rintro ⟨v, hsets⟩
  cases h.read_eq.symm.trans hsets.read_eq

end Key

end Settings

end WorldMap
