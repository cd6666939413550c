import WorldMap.Proofs.Config.Colors
/-!
# Settings that are written down

Settings are held by a section in which every key that has a value is there, and whatever is said of
one of the eight keys spells its value. In what order the keys come, what other keys there are among
them and which of its spellings a value has is open. Reading such a section leads back to the settings
(`ofSection_of_isHeldBy`), and `Settings.entries` makes one for any settings.
-/

namespace WorldMap

namespace Ini.Section

variable {s : Section} {key value : String}

theorem mem_entries_of_get? (h : s.get? key = some value) : (key, value) ∈ s.entries := by
  obtain ⟨before, after, hentries, -⟩ := List.lookup_eq_some_iff.1 h
  rw [hentries]
  exact List.mem_append_right _ List.mem_cons_self

theorem not_mem_entries_of_get? (h : s.get? key = none) : (key, value) ∉ s.entries := by
  intro hmem
  have hother := List.lookup_eq_none_iff.1 h _ hmem
  simp at hother

end Ini.Section

namespace Settings

variable {st : Settings} {s : Ini.Section} {key : Key} {v : Value} {text : String}

/-- The text spells the value, with any blanks around it: a number in decimal digits, a color in
hexadecimal ones. -/
def Value.IsSpelled (text : String) : Value → Prop
  | number n => Padded text.toList (toString n).toList
  | color c => c.IsSpelled IsHexPair text.toList

/-- The section holds the settings. -/
structure IsHeldBy (st : Settings) (s : Ini.Section) : Prop where
  spelled : ∀ (key : Key) (text : String), (key.name, text) ∈ s.entries →
    ∃ v, st.valueAt key = some v ∧ v.IsSpelled text
  complete : ∀ (key : Key) (v : Value), st.valueAt key = some v →
    ∃ text, (key.name, text) ∈ s.entries

/-! ### Reading -/

theorem Value.IsSpelled.isWritten (h : v.IsSpelled text) : v.IsWritten text := by
  cases v with
  | number n =>
    have hbare : ∀ c ∈ (toString n).toList, isBlank c = false := by
      intro c hc
      rw [Nat.toString_eq_ofList_toDigits, String.toList_ofList] at hc
      exact isBlank_of_isDigit (Nat.isDigit_of_mem_toDigits (by decide) (by decide) hc)
    change IsDecimal (trim text.toList) n
    rw [Padded.trim_eq h hbare]
    exact isDecimal_toString n
  | color c => exact (Color.isSpelled_iff.1 h).1

/-- Every value is one that its key takes, unless it is a zero. Tiles have no side of zero. -/
theorem fits_of_valueAt (hthreads : st.threads ≠ some 0) (hpoll : st.pollMs ≠ 0)
    (h : st.valueAt key = some v) : key.Fits v := by
  have hword32 : ∀ n : UInt32, n.toNat ≤ maxWord32 := fun n => Nat.le_of_lt_succ n.toNat_lt
  have hword64 : ∀ n : UInt64, n.toNat ≤ maxWord64 := fun n => Nat.le_of_lt_succ n.toNat_lt
  have hpos64 : ∀ n : UInt64, n ≠ 0 → 1 ≤ n.toNat :=
    fun n hn => Nat.pos_of_ne_zero fun hzero => hn (UInt64.toNat_inj.1 hzero)
  cases key with
  | threads =>
    obtain ⟨n, hn, rfl⟩ := Option.map_eq_some_iff.1 h
    exact ⟨hpos64 n fun hzero => hthreads (hzero ▸ hn), hword64 n⟩
  | tileWidth =>
    obtain rfl := Option.some.inj h
    exact ⟨st.layout.width_pos, hword32 _⟩
  | tileDepth =>
    obtain rfl := Option.some.inj h
    exact ⟨st.layout.depth_pos, hword32 _⟩
  | tileHeight =>
    obtain rfl := Option.some.inj h
    exact ⟨st.layout.height_pos, hword32 _⟩
  | tileBackground | canvasBackground | axisColor =>
    obtain rfl := Option.some.inj h
    trivial
  | pollInterval =>
    obtain rfl := Option.some.inj h
    exact ⟨hpos64 _ hpoll, hword64 _⟩

/-- Only the number of threads may be open, and it is if nothing is said of it. -/
theorem valueAt_eq_of_none (h : st.valueAt key = none) : st.valueAt key = standard.valueAt key := by
  cases key with
  | threads => exact h
  | _ => cases h

/-- Reading a section that holds settings leads back to them. -/
theorem ofSection_of_isHeldBy (hthreads : st.threads ≠ some 0) (hpoll : st.pollMs ≠ 0)
    (h : st.IsHeldBy s) : ofSection s = .ok st := by
  rw [ofSection_eq_ok_iff]
  intro key
  cases htext : s.get? key.name with
  | none =>
    refine valueAt_eq_of_none (Option.eq_none_iff_forall_ne_some.2 fun v hvalue => ?_)
    obtain ⟨text, hmem⟩ := h.complete key v hvalue
    exact Ini.Section.not_mem_entries_of_get? htext hmem
  | some text =>
    obtain ⟨v, hvalue, hspelled⟩ := h.spelled key text (Ini.Section.mem_entries_of_get? htext)
    exact ⟨v, ⟨fits_of_valueAt hthreads hpoll hvalue, hspelled.isWritten⟩, hvalue⟩

/-! ### Writing -/

def hexDigit (n : Nat) : Char := "0123456789abcdef".toList.getD n '0'

def hexPair (b : UInt8) : List Char := [hexDigit (b.toNat / 16), hexDigit (b.toNat % 16)]

/-- The usual spelling of a value. -/
def Value.spelling : Value → String
  | number n => toString n
  | color c => String.ofList ('#' :: [c.r, c.g, c.b, c.a].flatMap hexPair)

/-- What a section may say to hold the settings. -/
def entries (st : Settings) : List (String × String) :=
  Key.all.filterMap fun key => (st.valueAt key).map fun v => (key.name, v.spelling)

theorem isHexDigit_hexDigit {n : Nat} (hn : n < 16) : IsHexDigit (hexDigit n) n :=
  .inl ((by decide : ∀ n < 16, "0123456789abcdef".toList[n]? = some (hexDigit n)) n hn)

theorem isHexPair_hexPair (b : UInt8) :
    IsHexPair (hexDigit (b.toNat / 16)) (hexDigit (b.toNat % 16)) b := by
  have hb := b.toNat_lt
  exact ⟨_, _, isHexDigit_hexDigit (by omega), isHexDigit_hexDigit (by omega), by omega⟩

theorem inPairs_flatMap_hexPair (bs : List UInt8) : InPairs IsHexPair (bs.flatMap hexPair) bs := by
  induction bs with
  | nil => exact .nil
  | cons b bs ih => exact .cons (isHexPair_hexPair b) ih

theorem Value.isSpelled_spelling (v : Value) : v.IsSpelled v.spelling := by
  cases v with
  | number n => exact Padded.refl _
  | color c =>
    refine ⟨_, .inr ?_, .inl (inPairs_flatMap_hexPair [c.r, c.g, c.b, c.a])⟩
    rw [Value.spelling, String.toList_ofList]
    exact Padded.refl _

theorem Key.name_injective : Function.Injective Key.name := by
  intro key key' h
  revert h
  cases key <;> cases key' <;> decide

theorem mem_entries_iff {entry : String × String} :
    entry ∈ st.entries ↔ ∃ key v, st.valueAt key = some v ∧ entry = (key.name, v.spelling) := by
  simp only [entries, List.mem_filterMap, Option.map_eq_some_iff]
  constructor
  · rintro ⟨key, -, v, hvalue, rfl⟩
    exact ⟨key, v, hvalue, rfl⟩
  · rintro ⟨key, v, hvalue, rfl⟩
    exact ⟨key, key.mem_all, v, hvalue, rfl⟩

theorem isHeldBy_of_perm {others written : List (String × String)} {name : Option String}
    (hothers : ∀ entry ∈ others, ∀ key : Key, entry.1 ≠ key.name)
    (hwritten : written.Perm (st.entries ++ others)) : st.IsHeldBy ⟨name, written⟩ := by
  have hmem : ∀ entry, entry ∈ written ↔ entry ∈ st.entries ∨ entry ∈ others :=
    fun entry => hwritten.mem_iff.trans List.mem_append
  constructor
  · intro key text htext
    rcases (hmem _).1 htext with hentry | hother
    · obtain ⟨key', v, hvalue, heq⟩ := mem_entries_iff.1 hentry
      obtain ⟨hname, rfl⟩ := Prod.mk.inj heq
      obtain rfl := Key.name_injective hname
      exact ⟨v, hvalue, v.isSpelled_spelling⟩
    · exact absurd rfl (hothers _ hother key)
  · intro key v hvalue
    exact ⟨v.spelling, (hmem _).2 (.inl (mem_entries_iff.2 ⟨key, v, hvalue, rfl⟩))⟩

/-- Settings that are written down are read back. Whatever document holds them in its section, with any
spelling of their values, in any order and among any other keys, makes these settings and no others; and
there are such sections for all settings, whose entries may be put in any order and mixed with others
that have names of their own. -/
theorem written_settings_read_back (st : Settings) (hthreads : st.threads ≠ some 0)
    (hpoll : st.pollMs ≠ 0) :
    (∀ (d : Ini.Document) (s : Ini.Section), Ini.Document.find? d "preview" = some s →
      st.IsHeldBy s → ofDocument d = .ok st) ∧
    ∀ others written : List (String × String),
      (∀ entry ∈ others, ∀ key : Key, entry.1 ≠ key.name) →
      written.Perm (st.entries ++ others) → st.IsHeldBy ⟨some "preview", written⟩ := by
  refine ⟨fun d s hsection hheld => ?_, fun others written => isHeldBy_of_perm⟩
  have hread : ofDocument d = ofSection s := by simp only [ofDocument, sectionName, hsection]
  rw [hread]
  exact ofSection_of_isHeldBy hthreads hpoll hheld

private def mixedSettings : Settings where
  threads := some 12
  layout := (Layout.ofFootprint 48 7).withHeight 4294967295
  tileBackground := ⟨16, 171, 48, 255⟩
  canvasBackground := ⟨0, 200, 0, 0⟩
  axisColor := ⟨255, 254, 253, 252⟩
  pollMs := 18446744073709551615

/-- A color with and one without alpha, letters of both cases, blanks, and a key that is not known. -/
private def mixedSection : Ini.Section where
  name := some "preview"
  entries := [("poll_interval_ms", "18446744073709551615 "), ("axis_color", "FffEFdfc"),
    ("tile_height", "\t4294967295"), ("flavour", "mint"), ("tile_background", " #10aB30 "),
    ("threads", "12"), ("canvas_background", "#00C80000"), ("tile_depth", "7"),
    ("tile_width", " 48\n")]

theorem written_settings_read_back_mixedSettings :
    mixedSettings.threads ≠ some 0 ∧ mixedSettings.pollMs ≠ 0 ∧
    ofDocument [⟨none, []⟩, mixedSection] = .ok mixedSettings ∧
    ofDocument [⟨some "preview", (mixedSettings.entries ++ [("flavour", "mint")]).reverse⟩]
      = .ok mixedSettings := by
  have hthreads : mixedSettings.threads ≠ some 0 := by decide
  have hpoll : mixedSettings.pollMs ≠ 0 := by decide
  obtain ⟨hread, hwritten⟩ := written_settings_read_back mixedSettings hthreads hpoll
  have hnumber : ∀ {text : String} {n : Nat}, trim text.toList = (toString n).toList →
      (Value.number n).IsSpelled text := by
    intro text n htrim
    rw [Value.IsSpelled, ← htrim]
    exact padded_trim text.toList
  have hheld : mixedSettings.IsHeldBy mixedSection := by
    constructor
    · intro key text htext
      simp only [mixedSection, List.mem_cons, List.not_mem_nil, Prod.mk.injEq] at htext
      cases key <;> simp only [Key.name, String.reduceEq, false_and, true_and, false_or, or_false]
        at htext <;> subst htext
      case tileBackground | canvasBackground | axisColor =>
        exact ⟨_, rfl, Color.isSpelled_iff.2 (by decide)⟩
      all_goals exact ⟨_, rfl, hnumber (by decide)⟩
    · intro key v hvalue
      cases key <;> simp [mixedSection, Key.name]
  have hflavour : ∀ entry ∈ [("flavour", "mint")], ∀ key : Key, entry.1 ≠ key.name := by
    intro entry hentry key
    obtain rfl := List.mem_singleton.1 hentry
    cases key <;> decide
  exact ⟨hthreads, hpoll, hread _ _ rfl hheld, hread _ _ rfl
    (hwritten [("flavour", "mint")] _ hflavour (List.reverse_perm _))⟩

end Settings

end WorldMap
