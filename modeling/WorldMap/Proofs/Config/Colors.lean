import Mathlib.Data.List.Forall2
import WorldMap.Proofs.Config.Settings
import WorldMap.Proofs.Text.Blank
/-!
# What counts as a color

A color is spelled with two hexadecimal digits for each channel, perhaps after a `#`, and with blanks
around it. Every such text is read. As a channel is read like any other number, a plus sign and one
digit are a channel too, and that is all that is read beyond: the texts that spell a color are those
that are read and have no plus sign (`Color.isSpelled_iff`).
-/

namespace WorldMap

variable {c high low : Char} {n : Nat} {b : UInt8} {cs text body : List Char} {bs : List UInt8}

/-- The character is the hexadecimal digit of the value `n`, in either case. -/
def IsHexDigit (c : Char) (n : Nat) : Prop :=
  "0123456789abcdef".toList[n]? = some c ∨ "0123456789ABCDEF".toList[n]? = some c

/-- The two digits of a byte. -/
def IsHexPair (high low : Char) (b : UInt8) : Prop :=
  ∃ h l, IsHexDigit high h ∧ IsHexDigit low l ∧ b.toNat = h * 16 + l

/-- What is read as a channel. -/
inductive IsChannel (high low : Char) (b : UInt8) : Prop
  | pair (h : IsHexPair high low b)
  | signed (hplus : high = '+') (hlow : IsHexDigit low b.toNat)

/-- Two characters for each byte, one pair after the other. -/
inductive InPairs (pair : Char → Char → UInt8 → Prop) : List Char → List UInt8 → Prop
  | nil : InPairs pair [] []
  | cons {high low : Char} {b : UInt8} {cs : List Char} {bs : List UInt8} (h : pair high low b)
      (hrest : InPairs pair cs bs) : InPairs pair (high :: low :: cs) (b :: bs)

/-- The text spells the color in pairs of characters: three for an opaque color, or four with alpha as
the last. -/
def Color.IsSpelled (pair : Char → Char → UInt8 → Prop) (text : List Char) (c : Color) : Prop :=
  ∃ body, (Padded text body ∨ Padded text ('#' :: body)) ∧
    (InPairs pair body [c.r, c.g, c.b, c.a] ∨ InPairs pair body [c.r, c.g, c.b] ∧ c.a = 255)

/-! ### Digits -/

theorem IsHexDigit.mem (h : IsHexDigit c n) : c ∈ "0123456789abcdefABCDEF".toList := by
  have hlower : "0123456789abcdef".toList.Sublist "0123456789abcdefABCDEF".toList := by decide
  have hupper : "0123456789ABCDEF".toList.Sublist "0123456789abcdefABCDEF".toList := by decide
  rcases h with h | h
  · exact hlower.mem (List.mem_of_getElem? h)
  · exact hupper.mem (List.mem_of_getElem? h)

/-- A check over all digits tells of any of them. -/
theorem IsHexDigit.of_all {p : Char → Bool} (h : IsHexDigit c n)
    (hall : "0123456789abcdefABCDEF".toList.all p = true) : p c = true :=
  List.all_eq_true.1 hall c h.mem

theorem IsHexDigit.isBlank_eq (h : IsHexDigit c n) : isBlank c = false := by
  have hall : "0123456789abcdefABCDEF".toList.all (!isBlank ·) = true := by decide
  exact Bool.not_eq_eq_eq_not.1 (h.of_all hall)

theorem IsHexDigit.ne_hash (h : IsHexDigit c n) : c ≠ '#' := by
  have hall : "0123456789abcdefABCDEF".toList.all (· != '#') = true := by decide
  exact bne_iff_ne.1 (h.of_all hall)

theorem IsHexDigit.ne_plus (h : IsHexDigit c n) : c ≠ '+' := by
  have hall : "0123456789abcdefABCDEF".toList.all (· != '+') = true := by decide
  exact bne_iff_ne.1 (h.of_all hall)

theorem IsHexDigit.lt (h : IsHexDigit c n) : n < 16 := by
  rcases h with h | h <;> exact (List.getElem?_eq_some_iff.1 h).1

/-- What is a digit in some base is an ASCII character. -/
theorem toNat_lt_of_digit? {base : Nat} (h : digit? base c = some n) : c.toNat < 128 := by
  have hnine : '9'.toNat = 57 := rfl
  have hz : 'z'.toNat = 122 := rfl
  have hZ : 'Z'.toNat = 90 := rfl
  unfold digit? at h
  split at h
  · next hrange =>
    have hhigh : c.toNat ≤ '9'.toNat := hrange.2
    omega
  · split at h
    · next hrange =>
      have hhigh : c.toNat ≤ 'z'.toNat := hrange.2
      omega
    · split at h
      · next hrange =>
        have hhigh : c.toNat ≤ 'Z'.toNat := hrange.2
        omega
      · simp at h

theorem digit?_sixteen_iff : digit? 16 c = some n ↔ IsHexDigit c n := by
  constructor
  · intro h
    have htable : ∀ k < 128, ∀ n ∈ digit? 16 (Char.ofNat k),
        "0123456789abcdef".toList[n]? = some (Char.ofNat k) ∨
          "0123456789ABCDEF".toList[n]? = some (Char.ofNat k) := by
      decide +kernel
    have hc := htable c.toNat (toNat_lt_of_digit? h)
    rw [Char.ofNat_toNat] at hc
    exact hc n h
  · intro h
    have htable : ∀ n < 16, "0123456789abcdef".toList[n]?.bind (digit? 16) = some n ∧
        "0123456789ABCDEF".toList[n]?.bind (digit? 16) = some n := by
      decide +kernel
    obtain ⟨hlower, hupper⟩ := htable n h.lt
    rcases h with hc | hc
    · rwa [hc, Option.bind_some] at hlower
    · rwa [hc, Option.bind_some] at hupper

/-! ### Channels -/

theorem map_digit?_sixteen_iff {ds : List Nat} :
    cs.map (digit? 16) = ds.map some ↔ List.Forall₂ IsHexDigit cs ds := by
  rw [← List.forall₂_eq_eq_eq, List.forall₂_map_left_iff, List.forall₂_map_right_iff]
  simp only [digit?_sixteen_iff]

theorem readDigits_sixteen_eq_ok_iff :
    readDigits 16 255 .tooLarge 0 cs = .ok n ↔
      n ≤ 255 ∧ ∃ ds, List.Forall₂ IsHexDigit cs ds ∧ valueFrom 16 0 ds = n := by
  rw [readDigits_eq_ok_iff (by decide) (Nat.zero_le 255)]
  simp only [map_digit?_sixteen_iff]

/-- Digits are read as the byte that they count. -/
theorem map_readDigits_eq_some_iff :
    (readDigits 16 255 .tooLarge 0 cs).toOption.map UInt8.ofNat = some b ↔
      ∃ ds, List.Forall₂ IsHexDigit cs ds ∧ valueFrom 16 0 ds = b.toNat := by
  have hb := b.toNat_lt
  constructor
  · intro hsome
    cases hdigits : readDigits 16 255 .tooLarge 0 cs with
    | error _ => rw [hdigits] at hsome; cases hsome
    | ok n =>
      rw [hdigits] at hsome
      obtain ⟨hn, ds, hds, rfl⟩ := readDigits_sixteen_eq_ok_iff.1 hdigits
      obtain rfl : UInt8.ofNat (valueFrom 16 0 ds) = b := Option.some.inj hsome
      exact ⟨ds, hds, (UInt8.toNat_ofNat_of_lt' (by rw [UInt8.size]; omega)).symm⟩
  · rintro ⟨ds, hds, hvalue⟩
    rw [readDigits_sixteen_eq_ok_iff.2 ⟨by omega, ds, hds, hvalue⟩]
    exact congrArg some UInt8.ofNat_toNat

theorem readChannel_eq (high low : Char) :
    readChannel high low
      = (readDigits 16 255 .tooLarge 0 (if high = '+' then [low] else [high, low])).toOption.map
          UInt8.ofNat := by
  split
  · next hplus =>
    subst hplus
    rfl
  · next hplus =>
    rw [readChannel, readUnsigned_of_ne_plus hplus]

theorem readChannel_eq_some_iff : readChannel high low = some b ↔ IsChannel high low b := by
  rw [readChannel_eq, map_readDigits_eq_some_iff]
  constructor
  · rintro ⟨ds, hds, hvalue⟩
    split at hds
    · next hplus =>
      obtain ⟨l, _, hlow, hnil, rfl⟩ := List.forall₂_cons_left_iff.1 hds
      obtain rfl := List.forall₂_nil_left_iff.1 hnil
      obtain rfl : l = b.toNat := by simpa [valueFrom] using hvalue
      exact .signed hplus hlow
    · obtain ⟨h, _, hhigh, hrest, rfl⟩ := List.forall₂_cons_left_iff.1 hds
      obtain ⟨l, _, hlow, hnil, rfl⟩ := List.forall₂_cons_left_iff.1 hrest
      obtain rfl := List.forall₂_nil_left_iff.1 hnil
      exact .pair ⟨h, l, hhigh, hlow, by rw [← hvalue]; simp [valueFrom]⟩
  · rintro (⟨h, l, hhigh, hlow, hvalue⟩ | ⟨hplus, hlow⟩)
    · rw [if_neg hhigh.ne_plus]
      exact ⟨[h, l], .cons hhigh (.cons hlow .nil), by rw [hvalue]; simp [valueFrom]⟩
    · rw [if_pos hplus]
      exact ⟨[b.toNat], .cons hlow .nil, by simp [valueFrom]⟩

/-! ### Colors -/

theorem readChannels_eq_some_iff : readChannels cs = some bs ↔ InPairs IsChannel cs bs := by
  induction cs using readChannels.induct generalizing bs with
  | case1 =>
    constructor
    · intro h
      obtain rfl := Option.some.inj h
      exact .nil
    · rintro ⟨⟩
      rfl
  | case2 =>
    constructor
    · intro h
      cases h
    · rintro ⟨⟩
  | case3 high low cs ih =>
    rw [readChannels]
    constructor
    · intro h
      obtain ⟨b, hchannel, h⟩ := Option.bind_eq_some_iff.1 h
      obtain ⟨rest, hrest, h⟩ := Option.bind_eq_some_iff.1 h
      obtain rfl := Option.some.inj h
      exact .cons (readChannel_eq_some_iff.1 hchannel) (ih.1 hrest)
    · intro h
      cases h with
      | cons hchannel hrest =>
        rw [readChannel_eq_some_iff.2 hchannel, ih.2 hrest]
        rfl

/-- What holds of the two characters of each pair holds of all. -/
theorem InPairs.forall_mem {pair : Char → Char → UInt8 → Prop} {p : Char → Prop}
    (hpair : ∀ high low b, pair high low b → p high ∧ p low) (h : InPairs pair cs bs) :
    ∀ c ∈ cs, p c := by
  induction h with
  | nil => simp
  | cons h _ ih =>
    obtain ⟨hhigh, hlow⟩ := hpair _ _ _ h
    simpa [hhigh, hlow] using ih

theorem InPairs.mono {pair pair' : Char → Char → UInt8 → Prop}
    (hpair : ∀ high low b, pair high low b → pair' high low b) (h : InPairs pair cs bs) :
    InPairs pair' cs bs := by
  induction h with
  | nil => exact .nil
  | cons h _ ih => exact .cons (hpair _ _ _ h) ih

theorem IsChannel.isBlank_eq (h : IsChannel high low b) : isBlank high = false ∧ isBlank low = false := by
  rcases h with ⟨_, _, hhigh, hlow, -⟩ | ⟨rfl, hlow⟩
  · exact ⟨hhigh.isBlank_eq, hlow.isBlank_eq⟩
  · exact ⟨by decide, hlow.isBlank_eq⟩

theorem IsChannel.ne_hash (h : IsChannel high low b) : high ≠ '#' ∧ low ≠ '#' := by
  rcases h with ⟨_, _, hhigh, hlow, -⟩ | ⟨rfl, hlow⟩
  · exact ⟨hhigh.ne_hash, hlow.ne_hash⟩
  · exact ⟨by decide, hlow.ne_hash⟩

theorem eq_or_eq_cons_dropHash (cs : List Char) : cs = dropHash cs ∨ cs = '#' :: dropHash cs := by
  unfold dropHash
  split
  · exact .inr rfl
  · exact .inl rfl

theorem dropHash_of_not_mem (h : '#' ∉ cs) : dropHash cs = cs := by
  unfold dropHash
  split
  · exact absurd List.mem_cons_self h
  · rfl

namespace Color

theorem read_eq_some_iff {c : Color} :
    read text = some c ↔
      readChannels (dropHash (trim text)) = some [c.r, c.g, c.b, c.a] ∨
        readChannels (dropHash (trim text)) = some [c.r, c.g, c.b] ∧ c.a = 255 := by
  obtain ⟨r, g, b, a⟩ := c
  unfold read
  split
  · next hchannels =>
    simp only [hchannels, Option.some.injEq, mk.injEq, List.cons.injEq, eq_comm, reduceCtorEq,
      and_true, and_false, false_or, and_assoc]
  · next hchannels => simp [hchannels]
  · next hthree hfour =>
    constructor
    · intro h
      cases h
    · rintro (hchannels | ⟨hchannels, -⟩)
      · exact absurd hchannels (hfour r g b a)
      · exact absurd hchannels (hthree r g b)

theorem read_of_padded (hpadded : Padded text body ∨ Padded text ('#' :: body))
    (hbody : ∀ c ∈ body, isBlank c = false ∧ c ≠ '#') : dropHash (trim text) = body := by
  rcases hpadded with hpadded | hpadded
  · rw [hpadded.trim_eq fun c hc => (hbody c hc).1]
    exact dropHash_of_not_mem fun hhash => (hbody '#' hhash).2 rfl
  · have hbare : ∀ c ∈ '#' :: body, isBlank c = false :=
      List.forall_mem_cons.2 ⟨by decide, fun c hc => (hbody c hc).1⟩
    rw [hpadded.trim_eq hbare]
    rfl

/-- The texts that are read as a color. -/
theorem read_eq_some_iff_isSpelled {c : Color} :
    read text = some c ↔ c.IsSpelled IsChannel text := by
  simp only [read_eq_some_iff, readChannels_eq_some_iff]
  constructor
  · intro h
    have hpadded := padded_trim text
    generalize trim text = core at h hpadded
    refine ⟨dropHash core, ?_, h⟩
    rcases eq_or_eq_cons_dropHash core with hcore | hcore
    · exact .inl (by rwa [← hcore])
    · exact .inr (by rwa [← hcore])
  · rintro ⟨body, hpadded, hpairs⟩
    have hbody : ∀ c ∈ body, isBlank c = false ∧ c ≠ '#' := by
      have hpair : ∀ high low b, IsChannel high low b →
          (isBlank high = false ∧ high ≠ '#') ∧ isBlank low = false ∧ low ≠ '#' :=
        fun _ _ _ h => ⟨⟨h.isBlank_eq.1, h.ne_hash.1⟩, h.isBlank_eq.2, h.ne_hash.2⟩
      exact hpairs.elim (·.forall_mem hpair) (·.1.forall_mem hpair)
    rwa [read_of_padded hpadded hbody]

theorem IsSpelled.mono {pair pair' : Char → Char → UInt8 → Prop} {c : Color}
    (hpair : ∀ high low b, pair high low b → pair' high low b) (h : c.IsSpelled pair text) :
    c.IsSpelled pair' text := by
  obtain ⟨body, hpadded, hpairs⟩ := h
  exact ⟨body, hpadded, hpairs.imp (·.mono hpair) fun h => ⟨h.1.mono hpair, h.2⟩⟩

end Color

/-- Without a plus sign a channel is a pair of digits. -/
theorem IsChannel.isHexPair (h : IsChannel high low b) (hplus : high ≠ '+') : IsHexPair high low b := by
  cases h with
  | pair h => exact h
  | signed hsigned => exact absurd hsigned hplus

theorem InPairs.of_not_mem_plus (h : InPairs IsChannel cs bs) (hplus : '+' ∉ cs) :
    InPairs IsHexPair cs bs := by
  induction h with
  | nil => exact .nil
  | cons h _ ih =>
    simp only [List.mem_cons, not_or] at hplus
    exact .cons (h.isHexPair (Ne.symm hplus.1)) (ih hplus.2.2)

namespace Color

/-- The texts that spell a color are those that are read and have no plus sign. -/
theorem isSpelled_iff {c : Color} :
    c.IsSpelled IsHexPair text ↔ read text = some c ∧ '+' ∉ text := by
  rw [read_eq_some_iff_isSpelled]
  have hplus : ∀ {body}, (Padded text body ∨ Padded text ('#' :: body)) →
      ('+' ∈ text ↔ '+' ∈ body) := by
    rintro body (hpadded | hpadded)
    · exact hpadded.mem_iff (by decide)
    · rw [hpadded.mem_iff (by decide)]
      simp
  constructor
  · intro h
    refine ⟨h.mono fun _ _ _ => .pair, ?_⟩
    obtain ⟨body, hpadded, hpairs⟩ := h
    have hpair : ∀ high low b, IsHexPair high low b → '+' ≠ high ∧ '+' ≠ low := by
      rintro high low b ⟨_, _, hhigh, hlow, -⟩
      exact ⟨hhigh.ne_plus.symm, hlow.ne_plus.symm⟩
    rw [hplus hpadded]
    intro hmem
    exact hpairs.elim (·.forall_mem hpair _ hmem rfl) (·.1.forall_mem hpair _ hmem rfl)
  · rintro ⟨⟨body, hpadded, hpairs⟩, hnot⟩
    rw [hplus hpadded] at hnot
    exact ⟨body, hpadded,
      hpairs.imp (·.of_not_mem_plus hnot) fun h => ⟨h.1.of_not_mem_plus hnot, h.2⟩⟩

/-- A section with a text that spells no color makes no settings, and if the key of that text is the
one that is reported, it is reported for its text. -/
theorem exists_error_of_read_eq_none {d : Ini.Document} {s : Ini.Section} {key : Settings.Key}
    {value : String} (hsection : Ini.Document.find? d Settings.sectionName = some s)
    (hkind : key.kind = .color) (hvalue : s.get? key.name = some value)
    (hnone : read value.toList = none) :
    ∃ e, Settings.ofDocument d = .error e ∧ (e.key = key → e = ⟨key, value, .notAColor⟩) := by
  have hrefuses : key.Refuses value ⟨key, value, .notAColor⟩ := .color hkind hnone
  have hread : Settings.ofDocument d = Settings.ofSection s := by
    simp only [Settings.ofDocument, hsection]
  rw [hread]
  rcases Settings.ofSection_cases s with ⟨hvalid, -⟩ | ⟨e, hfirst, herror⟩
  · exact absurd (hvalid key key.mem_all value hvalue) hrefuses.not_valid
  · refine ⟨e, herror, ?_⟩
    rintro rfl
    obtain ⟨value', hvalue', -, hrefuses'⟩ := hfirst.refused
    obtain rfl : value' = value := Option.some.inj (hvalue'.symm.trans hvalue)
    exact Except.error.inj (hrefuses'.read_eq.symm.trans hrefuses.read_eq)

/-- What is read as a color. The texts that are read are those that spell one in channels, where a
channel may also be a plus sign and one digit; so the texts that spell one in digits are those among
them that have no plus sign. Any other text makes a section file invalid, and is what is reported of
it if its key is the first one to be reported. -/
theorem color_texts (value : String) :
    (∀ c, read value.toList = some c ↔ c.IsSpelled IsChannel value.toList) ∧
    (∀ c, c.IsSpelled IsHexPair value.toList ↔
      read value.toList = some c ∧ '+' ∉ value.toList) ∧
    ∀ (d : Ini.Document) (s : Ini.Section) (key : Settings.Key),
      Ini.Document.find? d "preview" = some s → key.kind = .color →
      s.get? key.name = some value → (∀ c, ¬ Color.IsSpelled IsChannel value.toList c) →
      ∃ e, Settings.ofDocument d = .error e ∧
        (e.key = key → e = ⟨key, value, .notAColor⟩) := by
  refine ⟨fun c => read_eq_some_iff_isSpelled, fun c => isSpelled_iff, ?_⟩
  intro d s key hsection hkind hvalue hnone
  have hread : read value.toList = none :=
    Option.eq_none_iff_forall_ne_some.2 fun c hc => hnone c (read_eq_some_iff_isSpelled.1 hc)
  exact exists_error_of_read_eq_none hsection hkind hvalue hread

private def oddColors : Ini.Document :=
  [⟨some "preview", [("axis_color", "##12AB34"), ("canvas_background", " #12aB34f0\t")]⟩]

/-- A color in letters of both cases that is read, and one with two marks in front that is refused. -/
theorem color_texts_oddColors :
    Color.IsSpelled IsHexPair " #12aB34f0\t".toList ⟨18, 171, 52, 240⟩ ∧
    (∀ c, ¬ Color.IsSpelled IsChannel "##12AB34".toList c) ∧
    (∃ e, Settings.ofDocument oddColors = .error e ∧
      (e.key = .axisColor → e = ⟨.axisColor, "##12AB34", .notAColor⟩)) ∧
    Settings.ofDocument oddColors = .error ⟨.axisColor, "##12AB34", .notAColor⟩ := by
  obtain ⟨-, hspelled, -⟩ := color_texts " #12aB34f0\t"
  obtain ⟨hread, -, hrefused⟩ := color_texts "##12AB34"
  have hnone : ∀ c, ¬ Color.IsSpelled IsChannel "##12AB34".toList c := by
    intro c hc
    cases (hread c).2 hc
  exact ⟨(hspelled _).2 (by decide), hnone, hrefused oddColors _ .axisColor rfl rfl rfl hnone, rfl⟩

/-- A text that is read as a color and spells none in digits, also where a file sets a color by it. -/
theorem signed_digits_are_read :
    read "+1+2+3".toList = some ⟨1, 2, 3, 255⟩ ∧
    (∀ c, ¬ Color.IsSpelled IsHexPair "+1+2+3".toList c) ∧
    Settings.ofDocument [⟨some "preview", [("axis_color", "+1+2+3")]⟩]
      = .ok { Settings.standard with axisColor := ⟨1, 2, 3, 255⟩ } := by
  refine ⟨rfl, fun c hc => ?_, rfl⟩
  exact absurd (isSpelled_iff.1 hc).2 (by decide)

end Color

end WorldMap
