import Mathlib.Logic.Relation
import WorldMap.Proofs.Config.Keys
/-!
# What a section file sets

Every key sets a field of its own (`valueAt_assign_self`, `valueAt_assign_of_ne`), and a section is
read by going through the keys in their fixed order (`ofSection_eq_foldlM`). So the settings hold the
value of each key that is there, and the first key whose text is refused is the one reported. As
nothing else is looked at, nothing else in the document can change the result.
-/

namespace WorldMap

theorem Layout.eq_of_sides {l m : Layout} (hwidth : l.width = m.width) (hdepth : l.depth = m.depth)
    (hheight : l.height = m.height) : l = m := by
  cases l
  cases m
  simp_all only

namespace Settings

/-! ### One key -/

variable {s : Ini.Section} {st : Settings} {key : Key}

/-- What a key is set to in a section, if it is there. -/
def look (s : Ini.Section) (key : Key) : Except InvalidValue (Option Value) :=
  match s.get? key.name with
  | none => .ok none
  | some text => (key.read text).map some

theorem map_positiveAt {limit : Nat} {zero : Reason} (hkind : key.kind = .number limit zero) :
    (positiveAt s key limit zero).map (·.map .number) = look s key := by
  unfold positiveAt look
  cases s.get? key.name with
  | none => rfl
  | some text =>
    simp only [Key.read, hkind]
    cases readUnsigned 10 limit (trim text.toList) with
    | error _ => rfl
    | ok n => cases n <;> rfl

theorem map_colorAt (hkind : key.kind = .color) :
    (colorAt s key).map (·.map .color) = look s key := by
  unfold colorAt look
  cases s.get? key.name with
  | none => rfl
  | some text =>
    simp only [Key.read, hkind]
    cases Color.read text.toList <;> rfl

/-- The settings with one key set. -/
def assign (st : Settings) : Key → Value → Settings
  | .threads, .number n => { st with threads := some (UInt64.ofNat n) }
  | .tileWidth, .number n =>
    { st with layout :=
      { st.layout with
        width := atLeastOne (UInt32.ofNat n), width_pos := atLeastOne_pos (UInt32.ofNat n) } }
  | .tileDepth, .number n =>
    { st with layout :=
      { st.layout with
        depth := atLeastOne (UInt32.ofNat n), depth_pos := atLeastOne_pos (UInt32.ofNat n) } }
  | .tileHeight, .number n => { st with layout := st.layout.withHeight (UInt32.ofNat n) }
  | .tileBackground, .color c => { st with tileBackground := c }
  | .canvasBackground, .color c => { st with canvasBackground := c }
  | .axisColor, .color c => { st with axisColor := c }
  | .pollInterval, .number n => { st with pollMs := UInt64.ofNat n }
  | _, _ => st

/-- The value of the field that a key sets. The number of threads may be open. -/
def valueAt (st : Settings) : Key → Option Value
  | .threads => st.threads.map fun n => .number n.toNat
  | .tileWidth => some (.number st.layout.width.toNat)
  | .tileDepth => some (.number st.layout.depth.toNat)
  | .tileHeight => some (.number st.layout.height.toNat)
  | .tileBackground => some (.color st.tileBackground)
  | .canvasBackground => some (.color st.canvasBackground)
  | .axisColor => some (.color st.axisColor)
  | .pollInterval => some (.number st.pollMs.toNat)

private theorem number_toNat_injective :
    Function.Injective fun n : UInt64 => Value.number n.toNat := by
  intro n m h
  exact UInt64.toNat_inj.1 (Value.number.inj h)

/-- Settings are told apart by the values of their keys. -/
theorem eq_of_valueAt_eq {st st' : Settings} (h : ∀ key, st.valueAt key = st'.valueAt key) :
    st = st' := by
  have hthreads : st.threads = st'.threads :=
    Option.map_injective number_toNat_injective (h .threads)
  have hlayout : st.layout = st'.layout :=
    Layout.eq_of_sides
      (UInt32.toNat_inj.1 (Value.number.inj (Option.some.inj (h .tileWidth))))
      (UInt32.toNat_inj.1 (Value.number.inj (Option.some.inj (h .tileDepth))))
      (UInt32.toNat_inj.1 (Value.number.inj (Option.some.inj (h .tileHeight))))
  have htile : st.tileBackground = st'.tileBackground :=
    Value.color.inj (Option.some.inj (h .tileBackground))
  have hcanvas : st.canvasBackground = st'.canvasBackground :=
    Value.color.inj (Option.some.inj (h .canvasBackground))
  have haxis : st.axisColor = st'.axisColor := Value.color.inj (Option.some.inj (h .axisColor))
  have hpoll : st.pollMs = st'.pollMs := number_toNat_injective (Option.some.inj (h .pollInterval))
  cases st
  cases st'
  simp only [Settings.mk.injEq]
  exact ⟨hthreads, hlayout, htile, hcanvas, haxis, hpoll⟩

private theorem toNat_word32 {n : Nat} (h : n ≤ maxWord32) : (UInt32.ofNat n).toNat = n :=
  UInt32.toNat_ofNat_of_lt' (Nat.lt_succ_of_le h)

private theorem toNat_word64 {n : Nat} (h : n ≤ maxWord64) : (UInt64.ofNat n).toNat = n :=
  UInt64.toNat_ofNat_of_lt' (Nat.lt_succ_of_le h)

private theorem toNat_atLeastOne {n : Nat} (hpos : 1 ≤ n) (h : n ≤ maxWord32) :
    (atLeastOne (UInt32.ofNat n)).toNat = n := by
  rw [atLeastOne_of_pos (by rw [toNat_word32 h]; exact hpos), toNat_word32 h]

theorem valueAt_assign_self {v : Value} (hfits : key.Fits v) :
    (st.assign key v).valueAt key = some v := by
  cases key <;> cases v <;> simp only [Key.Fits, Key.kind] at hfits <;>
    simp only [assign, valueAt, Option.map_some, Layout.withHeight, toNat_atLeastOne, toNat_word64,
      hfits]

theorem valueAt_assign_of_ne {v : Value} {other : Key} (hne : other ≠ key) :
    (st.assign key v).valueAt other = st.valueAt other := by
  cases key <;> cases v <;> cases other <;> first | rfl | contradiction

/-! ### The keys one after another -/

/-- The settings with one key set if there is a value for it. -/
def put (st : Settings) (key : Key) (v : Option Value) : Settings := v.elim st (st.assign key)

/-- Looks at one key and sets it. -/
def step (s : Ini.Section) (st : Settings) (key : Key) : Except InvalidValue Settings :=
  (look s key).map (st.put key)

theorem step_number (key : Key) {limit : Nat} {zero : Reason}
    (hkind : key.kind = .number limit zero) :
    step s st key = (positiveAt s key limit zero).map fun n => st.put key (n.map .number) := by
  rw [step, ← map_positiveAt hkind]
  cases positiveAt s key limit zero <;> rfl

theorem step_color (key : Key) (hkind : key.kind = .color) :
    step s st key = (colorAt s key).map fun c => st.put key (c.map .color) := by
  rw [step, ← map_colorAt hkind]
  cases colorAt s key <;> rfl

private theorem put_threads (st : Settings) (n : Option Nat) :
    st.put .threads (n.map .number)
      = { st with threads := (n.map UInt64.ofNat).or st.threads } := by
  cases n <;> rfl

private theorem put_tileWidth (st : Settings) (n : Option Nat) :
    st.put .tileWidth (n.map .number)
      = { st with layout :=
          { st.layout with
            width := atLeastOne ((n.map UInt32.ofNat).getD st.layout.width)
            width_pos := atLeastOne_pos _ } } := by
  cases n with
  | none => simp [put, atLeastOne_of_pos st.layout.width_pos]
  | some n => rfl

private theorem put_tileDepth (st : Settings) (n : Option Nat) :
    st.put .tileDepth (n.map .number)
      = { st with layout :=
          { st.layout with
            depth := atLeastOne ((n.map UInt32.ofNat).getD st.layout.depth)
            depth_pos := atLeastOne_pos _ } } := by
  cases n with
  | none => simp [put, atLeastOne_of_pos st.layout.depth_pos]
  | some n => rfl

private theorem put_tileHeight (st : Settings) (n : Option Nat) :
    st.put .tileHeight (n.map .number)
      = { st with layout :=
          st.layout.withHeight ((n.map UInt32.ofNat).getD st.layout.height) } := by
  cases n with
  | none => simp [put, Layout.withHeight, atLeastOne_of_pos st.layout.height_pos]
  | some n => rfl

private theorem put_colors (st : Settings) (c : Option Color) :
    st.put .tileBackground (c.map .color)
      = { st with tileBackground := c.getD st.tileBackground } ∧
    st.put .canvasBackground (c.map .color)
      = { st with canvasBackground := c.getD st.canvasBackground } ∧
    st.put .axisColor (c.map .color) = { st with axisColor := c.getD st.axisColor } := by
  cases c <;> exact ⟨rfl, rfl, rfl⟩

private theorem put_pollInterval (st : Settings) (n : Option Nat) :
    st.put .pollInterval (n.map .number)
      = { st with pollMs := (n.map UInt64.ofNat).getD st.pollMs } := by
  cases n <;> rfl

/-- Reading a section is going through the keys from the standard settings on. -/
theorem ofSection_eq_foldlM (s : Ini.Section) :
    ofSection s = Key.all.foldlM (step s) standard := by
  simp only [Key.all, List.foldlM_cons, List.foldlM_nil, step_number .threads rfl,
    step_number .tileWidth rfl, step_number .tileDepth rfl,
    step_number .tileHeight rfl, step_color .tileBackground rfl,
    step_color .canvasBackground rfl, step_color .axisColor rfl,
    step_number .pollInterval rfl, put_threads, put_tileWidth, put_tileDepth,
    put_tileHeight, put_colors, put_pollInterval]
  rw [ofSection]
  -- the keys in their order: the first one that is refused ends both sides
  rcases positiveAt s .threads maxWord64 .belowOne with _ | threads
  · rfl
  rcases positiveAt s .tileWidth maxWord32 .notPositive with _ | width
  · rfl
  rcases positiveAt s .tileDepth maxWord32 .notPositive with _ | depth
  · rfl
  rcases positiveAt s .tileHeight maxWord32 .notPositive with _ | height
  · rfl
  rcases colorAt s .tileBackground with _ | tileBackground
  · rfl
  rcases colorAt s .canvasBackground with _ | canvasBackground
  · rfl
  rcases colorAt s .axisColor with _ | axisColor
  · rfl
  rcases positiveAt s .pollInterval maxWord64 .belowOne with _ | pollMs
  · rfl
  rfl

/-! ### What a run over the keys comes to -/

/-- The keys that are there have valid values. -/
def AllValid (s : Ini.Section) (keys : List Key) : Prop :=
  ∀ key ∈ keys, ∀ text, s.get? key.name = some text → key.Valid text

/-- The field of a key has the value of its text, or that of the base without a text. -/
def Holds (base st : Settings) (key : Key) : Option String → Prop
  | none => st.valueAt key = base.valueAt key
  | some text => ∃ v, key.Sets text v ∧ st.valueAt key = some v

/-- The error is about the first key in the order of keys that is there with no valid value. -/
structure FirstRefused (s : Ini.Section) (e : InvalidValue) : Prop where
  refused : ∃ text, s.get? e.key.name = some text ∧ ¬ e.key.Valid text ∧ e.key.Refuses text e
  first : ∃ before after, Key.all = before ++ e.key :: after ∧ AllValid s before

namespace Holds

variable {base middle : Settings} {text? : Option String}

theorem trans (h : Holds base middle key text?) (h' : Holds middle st key text?) :
    Holds base st key text? := by
  cases text? with
  | none => exact Eq.trans h' h
  | some _ => exact h'

theorem rebase (h : Holds middle st key text?) (hbase : middle.valueAt key = base.valueAt key) :
    Holds base st key text? := by
  cases text? with
  | none => exact Eq.trans h hbase
  | some _ => exact h

theorem keep (h : Holds base middle key text?) (hkept : st.valueAt key = middle.valueAt key) :
    Holds base st key text? := by
  cases text? with
  | none => exact hkept.trans h
  | some _ =>
    obtain ⟨v, hsets, hvalue⟩ := h
    exact ⟨v, hsets, hkept.trans hvalue⟩

end Holds

theorem step_of_valid (hvalid : ∀ text, s.get? key.name = some text → key.Valid text)
    (st : Settings) :
    ∃ st', step s st key = .ok st' ∧ Holds st st' key (s.get? key.name) ∧
      ∀ other, other ≠ key → st'.valueAt other = st.valueAt other := by
  cases hkey : s.get? key.name with
  | none => exact ⟨st, by simp only [step, look, hkey]; rfl, rfl, fun _ _ => rfl⟩
  | some text =>
    obtain ⟨v, hsets⟩ := hvalid text hkey
    refine ⟨st.assign key v, ?_, ⟨v, hsets, valueAt_assign_self hsets.fits⟩,
      fun other => valueAt_assign_of_ne⟩
    simp only [step, look, hkey, hsets.read_eq]
    rfl

theorem step_of_refuses {text : String} {e : InvalidValue} (hkey : s.get? key.name = some text)
    (h : key.Refuses text e) (st : Settings) : step s st key = .error e := by
  simp only [step, look, hkey, h.read_eq]
  rfl

/-- A run over valid keys sets the fields of these keys and no other. -/
theorem foldlM_step_of_valid {keys : List Key} (hvalid : AllValid s keys) (st : Settings) :
    ∃ st', keys.foldlM (step s) st = .ok st' ∧
      (∀ key ∈ keys, Holds st st' key (s.get? key.name)) ∧
      ∀ other, other ∉ keys → st'.valueAt other = st.valueAt other := by
  induction keys generalizing st with
  | nil => exact ⟨st, rfl, by simp, fun _ _ => rfl⟩
  | cons key keys ih =>
    obtain ⟨hkey, hkeys⟩ := List.forall_mem_cons.1 hvalid
    obtain ⟨st₁, hstep, hholds, hframe⟩ := step_of_valid hkey st
    obtain ⟨st₂, hrun, hholds', hframe'⟩ := ih hkeys st₁
    refine ⟨st₂, by rw [List.foldlM_cons, hstep]; exact hrun, fun k hk => ?_,
      fun other hother => ?_⟩
    · by_cases hlater : k ∈ keys
      · by_cases hagain : k = key
        · subst hagain
          exact hholds.trans (hholds' k hlater)
        · exact (hholds' k hlater).rebase (hframe k hagain)
      · obtain rfl : k = key := (List.mem_cons.1 hk).resolve_right hlater
        exact hholds.keep (hframe' k hlater)
    · rw [List.mem_cons, not_or] at hother
      exact (hframe' other hother.2).trans (hframe other hother.1)

/-- A run stops at the first key that is refused. -/
theorem foldlM_step_of_refuses {before after : List Key} {text : String} {e : InvalidValue}
    (hvalid : AllValid s before) (hkey : s.get? key.name = some text) (h : key.Refuses text e)
    (st : Settings) : (before ++ key :: after).foldlM (step s) st = .error e := by
  obtain ⟨st', hrun, -, -⟩ := foldlM_step_of_valid hvalid st
  rw [List.foldlM_append, hrun]
  change (key :: after).foldlM (step s) st' = _
  rw [List.foldlM_cons, step_of_refuses hkey h]
  rfl

/-- All keys are valid, or there is a first one that is refused. -/
theorem allValid_or_refuses (s : Ini.Section) (keys : List Key) :
    AllValid s keys ∨ ∃ before key after text e, keys = before ++ key :: after ∧
      AllValid s before ∧ s.get? key.name = some text ∧ key.Refuses text e := by
  induction keys with
  | nil => exact .inl (by simp [AllValid])
  | cons key keys ih =>
    by_cases hkey : ∀ text, s.get? key.name = some text → key.Valid text
    · rcases ih with hvalid | ⟨before, k, after, text, e, rfl, hvalid, htext, hrefuses⟩
      · exact .inl (List.forall_mem_cons.2 ⟨hkey, hvalid⟩)
      · exact .inr ⟨key :: before, k, after, text, e, rfl, List.forall_mem_cons.2 ⟨hkey, hvalid⟩,
          htext, hrefuses⟩
    · simp only [not_forall] at hkey
      obtain ⟨text, htext, hinvalid⟩ := hkey
      obtain ⟨e, hrefuses⟩ := (key.sets_or_refuses text).resolve_left hinvalid
      exact .inr ⟨[], key, keys, text, e, rfl, by simp [AllValid], htext, hrefuses⟩

theorem AllValid.of_holds (h : ∀ key, Holds standard st key (s.get? key.name)) :
    AllValid s Key.all := by
  intro key _ text htext
  have hkey := h key
  rw [htext] at hkey
  obtain ⟨v, hsets, -⟩ := hkey
  exact ⟨v, hsets⟩

theorem exists_holds_of_allValid (hvalid : AllValid s Key.all) :
    ∃ st, ofSection s = .ok st ∧ ∀ key, Holds standard st key (s.get? key.name) := by
  obtain ⟨st, hrun, hholds, -⟩ := foldlM_step_of_valid hvalid standard
  exact ⟨st, by rw [ofSection_eq_foldlM, hrun], fun key => hholds key key.mem_all⟩

/-- What holds of every key leaves no choice. -/
theorem Holds.unique {st' : Settings} (h : ∀ key, Holds standard st key (s.get? key.name))
    (h' : ∀ key, Holds standard st' key (s.get? key.name)) : st = st' := by
  apply eq_of_valueAt_eq
  intro key
  have hkey := h key
  have hkey' := h' key
  cases htext : s.get? key.name with
  | none =>
    rw [htext] at hkey hkey'
    exact Eq.trans hkey (Eq.symm hkey')
  | some text =>
    rw [htext] at hkey hkey'
    obtain ⟨v, hsets, hvalue⟩ := hkey
    obtain ⟨v', hsets', hvalue'⟩ := hkey'
    rw [hvalue, hvalue', hsets.unique hsets']

theorem ofSection_eq_error_of_firstRefused {e : InvalidValue} (h : FirstRefused s e) :
    ofSection s = .error e := by
  obtain ⟨⟨text, htext, -, hrefuses⟩, before, after, hall, hvalid⟩ := h
  rw [ofSection_eq_foldlM, hall, foldlM_step_of_refuses hvalid htext hrefuses]

/-- A section makes the settings that hold its values, or reports the first key that is refused. -/
theorem ofSection_cases (s : Ini.Section) :
    (AllValid s Key.all ∧ ∃ st, ofSection s = .ok st ∧
      ∀ key, Holds standard st key (s.get? key.name)) ∨
    ∃ e, FirstRefused s e ∧ ofSection s = .error e := by
  rcases allValid_or_refuses s Key.all with
    hvalid | ⟨before, key, after, text, e, hall, hvalid, htext, h⟩
  · exact .inl ⟨hvalid, exists_holds_of_allValid hvalid⟩
  · obtain rfl := h.key_eq
    have hfirst : FirstRefused s e :=
      ⟨⟨text, htext, h.not_valid, h⟩, before, after, hall, hvalid⟩
    exact .inr ⟨e, hfirst, ofSection_eq_error_of_firstRefused hfirst⟩

theorem ofSection_eq_ok_iff :
    ofSection s = .ok st ↔ ∀ key, Holds standard st key (s.get? key.name) := by
  constructor
  · intro hok
    rcases ofSection_cases s with ⟨-, st', hok', hholds⟩ | ⟨e, -, herror⟩
    · obtain rfl : st' = st := Except.ok.inj (hok'.symm.trans hok)
      exact hholds
    · cases herror.symm.trans hok
  · intro hholds
    obtain ⟨st', hok, hholds'⟩ := exists_holds_of_allValid (.of_holds hholds)
    rw [hok, Holds.unique hholds' hholds]

theorem ofSection_eq_error_iff {e : InvalidValue} :
    ofSection s = .error e ↔ FirstRefused s e := by
  constructor
  · intro herror
    rcases ofSection_cases s with ⟨-, st', hok, -⟩ | ⟨e', hfirst, herror'⟩
    · cases hok.symm.trans herror
    · obtain rfl : e' = e := Except.error.inj (herror'.symm.trans herror)
      exact hfirst
  · exact ofSection_eq_error_of_firstRefused

/-! ### What else is in the document -/

theorem look_congr {s' : Ini.Section} (h : s.get? key.name = s'.get? key.name) :
    look s key = look s' key := by
  rw [look, look, h]

/-- Nothing is read but the eight keys of the section. -/
theorem ofDocument_congr {d d' : Ini.Document}
    (h : ∀ key : Key, (Ini.Document.find? d sectionName).map (·.get? key.name)
      = (Ini.Document.find? d' sectionName).map (·.get? key.name)) :
    ofDocument d = ofDocument d' := by
  unfold ofDocument
  cases hs : Ini.Document.find? d sectionName with
  | none =>
    cases hs' : Ini.Document.find? d' sectionName with
    | none => rfl
    | some s' => simpa [hs, hs'] using h .threads
  | some s =>
    cases hs' : Ini.Document.find? d' sectionName with
    | none => simpa [hs, hs'] using h .threads
    | some s' =>
      have hstep : step s = step s' := by
        funext st key
        have hkey : s.get? key.name = s'.get? key.name := by simpa [hs, hs'] using h key
        rw [step, step, look_congr hkey]
      change ofSection s = ofSection s'
      rw [ofSection_eq_foldlM, ofSection_eq_foldlM, hstep]

/-- A change of a document that leaves what is read alone: a key of another name comes in, a section
of another name comes in, or the entries of a section come in another order, in which the values of
each key, should it be there more than once, keep theirs. -/
inductive Harmless : Ini.Document → Ini.Document → Prop
  | otherKey (before after : Ini.Document) (name : Option String)
      (entries entries' : List (String × String)) (k v : String)
      (hother : ∀ key : Key, k ≠ key.name) :
      Harmless (before ++ ⟨name, entries ++ entries'⟩ :: after)
        (before ++ ⟨name, entries ++ (k, v) :: entries'⟩ :: after)
  | otherSection (before after : Ini.Document) (s : Ini.Section)
      (hother : s.name ≠ some sectionName) : Harmless (before ++ after) (before ++ s :: after)
  | order (before after : Ini.Document) (name : Option String)
      (entries entries' : List (String × String)) (hperm : entries.Perm entries')
      (hkept : ∀ k, entries.filter (·.1 == k) = entries'.filter (·.1 == k)) :
      Harmless (before ++ ⟨name, entries⟩ :: after) (before ++ ⟨name, entries'⟩ :: after)

private theorem filter_key_eq_of_perm {entries entries' : List (String × String)}
    (hperm : entries.Perm entries') (hnodup : (entries.map (·.1)).Nodup) (k : String) :
    entries.filter (·.1 == k) = entries'.filter (·.1 == k) := by
  have hfiltered : (entries.filter (·.1 == k)).Perm (entries'.filter (·.1 == k)) :=
    hperm.filter _
  have hnodup' : ((entries.filter (·.1 == k)).map (·.1)).Nodup :=
    hnodup.sublist (List.filter_sublist.map _)
  have hkey : ∀ entry ∈ entries.filter (·.1 == k), entry.1 = k := fun entry h => by
    simpa using (List.mem_filter.1 h).2
  generalize entries.filter (·.1 == k) = kept at hfiltered hnodup' hkey
  match kept with
  | [] => exact hfiltered.nil_eq
  | [entry] => exact hfiltered.singleton_eq
  | a :: b :: _ =>
    have ha := hkey a (by simp)
    have hb := hkey b (by simp)
    simp [ha, hb] at hnodup'

/-- If no key is there twice, the entries may come in any order. -/
theorem Harmless.of_perm (before after : Ini.Document) (name : Option String)
    {entries entries' : List (String × String)} (hperm : entries.Perm entries')
    (hnodup : (entries.map (·.1)).Nodup) :
    Harmless (before ++ ⟨name, entries⟩ :: after) (before ++ ⟨name, entries'⟩ :: after) :=
  .order before after name entries entries' hperm (filter_key_eq_of_perm hperm hnodup)

/-- A look-up finds the first entry of its key. -/
theorem get?_eq_head? (s : Ini.Section) (k : String) :
    s.get? k = (s.entries.filter (·.1 == k)).head?.map (·.2) := by
  rw [Ini.Section.get?]
  induction s.entries with
  | nil => rfl
  | cons entry entries ih =>
    obtain ⟨k', v⟩ := entry
    by_cases hk : k = k'
    · subst hk
      simp
    · have hlooked : (k == k') = false := by simpa using hk
      have hkept : (k' == k) = false := by simpa using fun h : k' = k => hk h.symm
      rw [List.lookup_cons, hlooked, ih, List.filter_cons, hkept]
      rfl

theorem find?_replace {before after : Ini.Document} {s s' : Ini.Section} (hname : s.name = s'.name)
    (hget : s.get? key.name = s'.get? key.name) :
    (Ini.Document.find? (before ++ s :: after) sectionName).map (·.get? key.name)
      = (Ini.Document.find? (before ++ s' :: after) sectionName).map (·.get? key.name) := by
  unfold Ini.Document.find?
  rw [List.find?_append, List.find?_append, List.find?_cons, List.find?_cons, hname]
  cases List.find? (fun s => s.name == some sectionName) before with
  | some first => rfl
  | none =>
    cases hfound : s'.name == some sectionName with
    | false => rfl
    | true => exact congrArg some hget

theorem Harmless.ofDocument_eq {d d' : Ini.Document} (h : Harmless d d') :
    ofDocument d = ofDocument d' := by
  apply ofDocument_congr
  intro key
  cases h with
  | otherKey before after name entries entries' k v hother =>
    refine find?_replace (by rfl) ?_
    have hkey : (k == key.name) = false := by simpa using hother key
    rw [get?_eq_head?, get?_eq_head?]
    simp [List.filter_append, hkey]
  | otherSection before after s hother =>
    unfold Ini.Document.find?
    have hs : (s.name == some sectionName) = false := by simpa using hother
    rw [List.find?_append, List.find?_append, List.find?_cons, hs]
  | order before after name entries entries' hperm hkept =>
    refine find?_replace (by rfl) ?_
    rw [get?_eq_head?, get?_eq_head?, hkept]

/-- Reading settings accepts the valid sections and reports the first key that is refused. Without a
section the settings are the standard ones. With one, there are settings if the keys that are there
have valid values, namely those that hold these values and the standard ones otherwise; and the error,
if there is one, is about the first key in the order of keys that is there and is not valid. Keys and
sections of other names, and the order of the entries, make no difference. -/
theorem ofDocument_spec (d : Ini.Document) :
    (Ini.Document.find? d "preview" = none → ofDocument d = .ok standard) ∧
    (∀ s, Ini.Document.find? d "preview" = some s →
      ((∃ st, ofDocument d = .ok st) ↔
        ∀ (key : Key) (text : String), s.get? key.name = some text → key.Valid text) ∧
      (∀ st, ofDocument d = .ok st ↔ ∀ key : Key, Holds standard st key (s.get? key.name)) ∧
      ∀ e, ofDocument d = .error e ↔ FirstRefused s e) ∧
    (∀ e, ofDocument d = .error e → e.text = "Invalid configuration: preview." ++ e.key.name
      ++ " = '" ++ e.value ++ "' - " ++ e.reason.text) ∧
    ∀ d', Relation.EqvGen Harmless d d' → ofDocument d' = ofDocument d := by
  refine ⟨fun hnone => ?_, fun s hsome => ?_, fun e _ => ?_, fun d' h => ?_⟩
  · simp only [ofDocument, sectionName, hnone]
  · have hread : ofDocument d = ofSection s := by simp only [ofDocument, sectionName, hsome]
    simp only [hread]
    refine ⟨⟨?_, ?_⟩, fun st => ofSection_eq_ok_iff, fun e => ofSection_eq_error_iff⟩
    · rintro ⟨st, hok⟩ key
      exact AllValid.of_holds (ofSection_eq_ok_iff.1 hok) key key.mem_all
    · intro hvalid
      obtain ⟨st, hok, -⟩ := exists_holds_of_allValid (s := s) fun key _ => hvalid key
      exact ⟨st, hok⟩
  · have hprefix : "Invalid configuration: " ++ sectionName ++ "."
        = "Invalid configuration: preview." := by decide
    rw [← hprefix]
    rfl
  · induction h with
    | rel _ _ h => exact h.ofDocument_eq.symm
    | refl _ => rfl
    | symm _ _ _ ih => exact ih.symm
    | trans _ _ _ _ _ ih ih' => exact ih'.trans ih

private def wideTiles : Ini.Document :=
  [⟨none, []⟩, ⟨some "preview", [("axis_color", "#102030"), ("tile_width", " +048 ")]⟩]

/-- Two keys are not valid, and the one that is looked at later comes first. -/
private def flatTiles : Ini.Document :=
  [⟨some "preview", [("poll_interval_ms", "soon"), ("tile_depth", "0")]⟩]

theorem ofDocument_spec_tiles :
    ofDocument [] = .ok standard ∧
    ofDocument wideTiles = .ok
      { standard with layout := Layout.ofFootprint 48 64, axisColor := ⟨16, 32, 48, 255⟩ } ∧
    ofDocument (⟨some "other", [("threads", "0")]⟩ :: wideTiles) = ofDocument wideTiles ∧
    ofDocument
        [⟨none, []⟩, ⟨some "preview", [("tile_width", " +048 "), ("axis_color", "#102030")]⟩]
      = ofDocument wideTiles ∧
    ofDocument flatTiles = .error ⟨.tileDepth, "0", .notPositive⟩ := by
  obtain ⟨hnone, -, -, -⟩ := ofDocument_spec []
  obtain ⟨-, hwide, -, hharmless⟩ := ofDocument_spec wideTiles
  obtain ⟨-, hflat, -, -⟩ := ofDocument_spec flatTiles
  refine ⟨hnone rfl, ((hwide _ rfl).2.1 _).2 fun key => ?_,
    hharmless _ (.rel _ _ (.otherSection [] _ _ (by decide))),
    hharmless _ (.rel _ _ (.of_perm [⟨none, []⟩] [] _ (.swap _ _ _) (by decide))),
    ((hflat _ rfl).2.2 _).2 ?_⟩
  · cases key with
    | tileWidth =>
      exact ⟨.number 48, ⟨⟨by decide, by decide⟩,
        ['0', '4', '8'], .inr (by decide), by decide, List.all_eq_true.1 rfl, by decide⟩, rfl⟩
    | axisColor => exact ⟨.color ⟨16, 32, 48, 255⟩, ⟨trivial, rfl⟩, rfl⟩
    | _ => rfl
  · have hrefuses : Key.Refuses .tileDepth "0" ⟨.tileDepth, "0", .notPositive⟩ :=
      .zero rfl ⟨['0'], .inl (by decide), by decide, List.all_eq_true.1 rfl, by decide⟩
    refine ⟨⟨"0", rfl, hrefuses.not_valid, hrefuses⟩, [.threads, .tileWidth], _, rfl, ?_⟩
    intro key hkey text htext
    simp only [List.mem_cons, List.not_mem_nil, or_false] at hkey
    rcases hkey with rfl | rfl <;> cases htext

end Settings

end WorldMap
