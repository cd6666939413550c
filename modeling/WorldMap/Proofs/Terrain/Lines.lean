import WorldMap.Proofs.Image.Alpha
import WorldMap.Proofs.Terrain.Layers
/-!
# Contour lines in one pass

The contour layer is written in two passes: it finds out which pixels are on a line, and then darkens
those. Told as a loop over the canvas it is one pass, in which a pixel is darkened where it is before
the next one is looked at (`Contours.drawInPlace`). Both come to the same, as what a pixel is looked
at for is the sample alone.

So the loop may be taken up at any place, over pixels that are anything by then: it darkens those of
the pixels to come that are on the edge of a band (`Contours.OnBandEdge`), and it keeps its hands off
all others (`Contours.ShadedAt`).
-/

namespace WorldMap

namespace Raster

variable {α : Type}

/-- Changes the cell in place `i`, as places are counted row by row. -/
def modifyPlace (r : Raster α) (i : Nat) (f : α → α) : Raster α where
  width := r.width
  height := r.height
  cells := r.cells.modify i f
  size_cells := by rw [Array.size_modify, r.size_cells]

theorem cell?_modifyPlace (r : Raster α) (i : Nat) (f : α → α) (x y : Nat) :
    (r.modifyPlace i f).cell? x y =
      (r.cell? x y).map fun a => if y * r.width + x = i then f a else a := by
  unfold cell? modifyPlace
  by_cases hx : x < r.width
  · simp only [if_pos hx, Array.getElem?_modify, eq_comm (a := i)]
    by_cases hplace : y * r.width + x = i
    · simp only [if_pos hplace]
    · simp only [if_neg hplace, Option.map_id']
  · simp only [if_neg hx, Option.map_none]

end Raster

/-! ### Alpha is kept -/

theorem Color.a_premultiply (c : Color) : c.premultiply.a = c.a := by
  unfold premultiply
  split <;> rfl

theorem Pixel.a_straighten (p : Pixel) : p.straighten.a = p.a := by
  unfold straighten
  split <;> rfl

namespace Contours

variable {c : Contours} {s : HeightSample} {canvas drawn : Pixmap}

/-! ### The loop over the canvas -/

/-- What is found out about the pixel in a place. -/
def isEdgeAt (c : Contours) (s : HeightSample) (i : Nat) : Checked Bool :=
  c.isEdge s (UInt32.ofNat i % s.width) (UInt32.ofNat i / s.width)

/-- Goes over the `n` pixels from place `i` on. The canvas is handed back in any case, as it is by
then. -/
def walk (c : Contours) (s : HeightSample) :
    Nat → Nat → Pixmap → Attempt LayerError Unit × Pixmap
  | _, 0, canvas => (.ok (), canvas)
  | i, n + 1, canvas =>
    match c.isEdgeAt s i with
    | .error fault => (.error (.broke (.ofFault fault)), canvas)
    | .ok edge => c.walk s (i + 1) n (if edge then canvas.modifyPlace i darken else canvas)

/-- Draws on the canvas itself. -/
def drawInPlace (c : Contours) (s : HeightSample) (canvas : Pixmap) :
    Attempt LayerError Unit × Pixmap :=
  match s.checkSize canvas with
  | .error failure => (.error failure, canvas)
  | .ok () => c.walk s 0 (canvas.width * canvas.height) canvas

/-- Darkens the pixels from place `i` on that are marked. -/
def darkenMarked : Nat → List Bool → Pixmap → Pixmap
  | _, [], canvas => canvas
  | i, mark :: marks, canvas =>
    darkenMarked (i + 1) marks (if mark then canvas.modifyPlace i darken else canvas)

theorem size_darkenMarked (i : Nat) (marks : List Bool) (canvas : Pixmap) :
    (darkenMarked i marks canvas).width = canvas.width ∧
      (darkenMarked i marks canvas).height = canvas.height := by
  induction marks generalizing i canvas with
  | nil => exact ⟨rfl, rfl⟩
  | cons mark marks ih =>
    obtain ⟨hwidth, hheight⟩ := ih (i + 1) (if mark then canvas.modifyPlace i darken else canvas)
    cases mark <;> exact ⟨hwidth, hheight⟩

/-- A pixel that is marked is darkened once, and no other is changed. -/
theorem cell?_darkenMarked (i : Nat) (marks : List Bool) (canvas : Pixmap) (x z : Nat) :
    (darkenMarked i marks canvas).cell? x z = (canvas.cell? x z).map fun p =>
      if i ≤ z * canvas.width + x ∧ marks[z * canvas.width + x - i]?.getD false then darken p
      else p := by
  induction marks generalizing i canvas with
  | nil => simp [darkenMarked]
  | cons mark marks ih =>
    have hwidth : (if mark then canvas.modifyPlace i darken else canvas).width = canvas.width := by
      cases mark <;> rfl
    have hfirst : (if mark then canvas.modifyPlace i darken else canvas).cell? x z =
        (canvas.cell? x z).map fun p =>
          if mark = true ∧ z * canvas.width + x = i then darken p else p := by
      cases mark with
      | false => simp
      | true => simp [Raster.cell?_modifyPlace]
    rw [darkenMarked, ih, hwidth, hfirst, Option.map_map]
    congr 1
    funext p
    generalize z * canvas.width + x = place
    rcases Nat.lt_trichotomy place i with hbefore | rfl | hafter
    · simp [Nat.not_le.2 hbefore, Nat.ne_of_lt hbefore, Nat.not_le.2 (Nat.lt_succ_of_lt hbefore)]
    · simp
    · obtain ⟨k, rfl⟩ : ∃ k, place = i + 1 + k := ⟨place - (i + 1), by omega⟩
      have hindex : i + 1 + k - i = k + 1 := by omega
      have hrest : i + 1 + k - (i + 1) = k := by omega
      have hother : i + 1 + k ≠ i := by omega
      simp [hindex, hrest, hother, Nat.le_of_lt hafter]

/-- If every pixel is found on a line or not, those on a line are darkened. The first fault that there
is ends the loop. -/
theorem walk_cases (i n : Nat) (canvas : Pixmap) :
    (∃ marks, (List.range' i n).mapM (c.isEdgeAt s) = .ok marks ∧
      c.walk s i n canvas = (.ok (), darkenMarked i marks canvas)) ∨
    ∃ fault, (List.range' i n).mapM (c.isEdgeAt s) = .error fault ∧
      (c.walk s i n canvas).1 = .error (.broke (.ofFault fault)) := by
  induction n generalizing i canvas with
  | zero => exact .inl ⟨[], rfl, rfl⟩
  | succ n ih =>
    rw [List.range'_succ, List.mapM_cons, walk]
    cases hfirst : c.isEdgeAt s i with
    | error fault => exact .inr ⟨fault, rfl, rfl⟩
    | ok edge =>
      rcases ih (i + 1) (if edge then canvas.modifyPlace i darken else canvas) with
        ⟨marks, hmarks, hwalk⟩ | ⟨fault, hfault, hwalk⟩
      · refine .inl ⟨edge :: marks, ?_, hwalk⟩
        rw [hmarks]
        rfl
      · refine .inr ⟨fault, ?_, hwalk⟩
        rw [hfault]
        rfl

theorem walk_of_ok {i n : Nat} {marks : List Bool}
    (h : (List.range' i n).mapM (c.isEdgeAt s) = .ok marks) (canvas : Pixmap) :
    c.walk s i n canvas = (.ok (), darkenMarked i marks canvas) := by
  rcases walk_cases (c := c) (s := s) i n canvas with ⟨marks', hmarks, hwalk⟩ | ⟨fault, hfault, -⟩
  · obtain rfl := Except.ok.inj (h.symm.trans hmarks)
    exact hwalk
  · rw [h] at hfault
    cases hfault

theorem mapM_isEdgeAt (count : Nat) :
    (List.range' 0 count).mapM (c.isEdgeAt s) = Array.toList <$> c.edges s count := by
  rw [edges, Array.toList_mapM, Array.toList_range, List.range_eq_range']
  rfl

theorem darkenMarked_eq_drawEdges (edges : Array Bool) (canvas : Pixmap) :
    darkenMarked 0 edges.toList canvas = drawEdges edges canvas := by
  obtain ⟨hwidth, hheight⟩ := size_darkenMarked 0 edges.toList canvas
  refine Raster.eq_of_cell? hwidth hheight fun x z _ _ => ?_
  rw [cell?_darkenMarked, cell?_drawEdges]
  simp

/-- The layer comes to what is left of the canvas, or else to what ended the loop. -/
theorem draw_eq_drawInPlace (c : Contours) (visible : Bool) (s : HeightSample) (canvas : Pixmap) :
    (c.layer visible).draw s canvas =
      (c.drawInPlace s canvas).1.map fun _ => (c.drawInPlace s canvas).2 := by
  unfold drawInPlace
  simp only [layer]
  cases hsize : s.checkSize canvas with
  | error failure => rfl
  | ok _ =>
    have hmarks := mapM_isEdgeAt (c := c) (s := s) (canvas.width * canvas.height)
    cases hedges : c.edges s (canvas.width * canvas.height) with
    | error fault =>
      rw [hedges] at hmarks
      rcases walk_cases (c := c) (s := s) 0 (canvas.width * canvas.height) canvas with
        ⟨marks, hok, -⟩ | ⟨fault', hfault, hwalk⟩
      · rw [hmarks] at hok
        cases hok
      · obtain rfl : fault = fault' := Except.error.inj (hmarks.symm.trans hfault)
        simp only [hwalk]
        rfl
    | ok edges =>
      rw [hedges] at hmarks
      simp only [walk_of_ok hmarks, darkenMarked_eq_drawEdges]
      rfl

/-- Going on from where a part of the loop has ended is going over all of it. -/
theorem walk_add {i m n : Nat} (h : (c.walk s i m canvas).1 = .ok ()) :
    c.walk s i (m + n) canvas = c.walk s (i + m) n (c.walk s i m canvas).2 := by
  induction m generalizing i canvas with
  | zero => rw [Nat.zero_add, Nat.add_zero, walk]
  | succ m ih =>
    rw [Nat.succ_add, walk, walk]
    rw [walk] at h
    cases hfirst : c.isEdgeAt s i with
    | error fault =>
      rw [hfirst] at h
      cases h
    | ok edge =>
      rw [hfirst] at h
      have hplace : i + (m + 1) = i + 1 + m := by omega
      rw [hplace]
      exact ih h

/-! ### Edges of bands -/

/-- The band of a column, if the sample has it. -/
def bandAt? (c : Contours) (s : HeightSample) (x z : Nat) : Option UInt32 := (s.at? x z).map c.band

/-- The band of a column differs from that of the next one in its row or of the one below it, as far
as the sample has them. -/
def OnBandEdge (c : Contours) (s : HeightSample) (x z : Nat) : Prop :=
  (x + 1 < s.width.toNat ∧ c.bandAt? s (x + 1) z ≠ c.bandAt? s x z) ∨
    (z + 1 < s.depth.toNat ∧ c.bandAt? s x (z + 1) ≠ c.bandAt? s x z)

instance (c : Contours) (s : HeightSample) (x z : Nat) : Decidable (c.OnBandEdge s x z) :=
  inferInstanceAs (Decidable (_ ∨ _))

theorem differs_at?_iff (hwhole : s.IsWhole) {here : UInt32} {x z : Nat} :
    c.differs here (s.at? x z) = true ↔
      (x < s.width.toNat ∧ z < s.depth.toNat) ∧ c.bandAt? s x z ≠ some here := by
  rw [← HeightSample.at?_isSome_iff hwhole, bandAt?]
  cases s.at? x z with
  | none => simp [differs]
  | some height => simp [differs]

theorem crosses_iff (hwhole : s.IsWhole) {x z : Nat} (hx : x < s.width.toNat)
    (hz : z < s.depth.toNat) : c.crosses s x z = true ↔ c.OnBandEdge s x z := by
  obtain ⟨height, hheight⟩ :=
    Option.isSome_iff_exists.1 ((HeightSample.at?_isSome_iff hwhole).2 ⟨hx, hz⟩)
  have hband : c.bandAt? s x z = some (c.band height) := by rw [bandAt?, hheight, Option.map_some]
  rw [crosses, hheight, Option.any_some, Bool.or_eq_true, differs_at?_iff hwhole,
    differs_at?_iff hwhole, OnBandEdge, hband, and_iff_left hz, and_iff_right hx]

/-- The straight channels are shaded, and the alpha is kept. -/
def Shaded (p q : Pixel) : Prop :=
  let shade : Color := ⟨darkenChannel p.straighten.r, darkenChannel p.straighten.g,
    darkenChannel p.straighten.b, p.a⟩
  q = shade.premultiply ∧ q.a = p.a ∧ p.IsStraightened p.straighten ∧ shade.IsPremultiplied q

theorem shaded_darken (p : Pixel) : Shaded p (darken p) := by
  have hdarken : darken p = Color.premultiply ⟨darkenChannel p.straighten.r,
      darkenChannel p.straighten.g, darkenChannel p.straighten.b, p.a⟩ := by
    rw [darken, Pixel.a_straighten]
  refine ⟨hdarken, ?_, p.isStraightened_straighten, ?_⟩
  · rw [hdarken, Color.a_premultiply]
  · rw [hdarken]
    exact Color.isPremultiplied_premultiply _

/-- The canvas with the pixels in question shaded, and all others as they were. -/
structure ShadedAt (there : Nat → Nat → Prop) (canvas drawn : Pixmap) : Prop where
  width_eq : drawn.width = canvas.width
  height_eq : drawn.height = canvas.height
  shaded : ∀ x z p, there x z → canvas.cell? x z = some p →
    ∃ q, drawn.cell? x z = some q ∧ Shaded p q
  kept : ∀ x z, ¬ there x z → drawn.cell? x z = canvas.cell? x z

/-- No more is asked about places off the canvas. -/
theorem ShadedAt.congr {there there' : Nat → Nat → Prop} (h : ShadedAt there canvas drawn)
    (hthere : ∀ x z, x < canvas.width → z < canvas.height → (there x z ↔ there' x z)) :
    ShadedAt there' canvas drawn where
  width_eq := h.width_eq
  height_eq := h.height_eq
  shaded x z p hin hp := by
    obtain ⟨hx, hz⟩ := Raster.cell?_isSome_iff.1 (Option.isSome_of_eq_some hp)
    exact h.shaded x z p ((hthere x z hx hz).2 hin) hp
  kept x z hout := by
    by_cases hinside : x < canvas.width ∧ z < canvas.height
    · exact h.kept x z (mt (hthere x z hinside.1 hinside.2).1 hout)
    · rw [Raster.cell?_eq_none hinside, Raster.cell?_eq_none (h.width_eq ▸ h.height_eq ▸ hinside)]

/-- The pixels of a part of the loop that are on the edge of a band. -/
def EdgeWithin (c : Contours) (s : HeightSample) (first n : Nat) (x z : Nat) : Prop :=
  (first ≤ z * s.width.toNat + x ∧ z * s.width.toNat + x < first + n) ∧ c.OnBandEdge s x z

/-- What a part of the loop finds out about its pixels. -/
def marks (c : Contours) (s : HeightSample) (first n : Nat) : List Bool :=
  (List.range' first n).map fun k => c.crosses s (k % s.width.toNat) (k / s.width.toNat)

theorem mapM_isEdgeAt_of_le (hcolumns : s.width.toNat * s.depth.toNat ≤ 4294967296) {first n : Nat}
    (hpart : first + n ≤ s.width.toNat * s.depth.toNat) :
    (List.range' first n).mapM (c.isEdgeAt s) = .ok (c.marks s first n) :=
  mapM_eq_ok fun k hk => isEdge_place hcolumns (by
    rw [List.mem_range'_1] at hk
    omega)

/-- The mark in the place of a column is about that column. -/
theorem marked_iff (hwhole : s.IsWhole) (first n : Nat) {x z : Nat} (hx : x < s.width.toNat)
    (hz : z < s.depth.toNat) :
    (first ≤ z * s.width.toNat + x ∧
      (c.marks s first n)[z * s.width.toNat + x - first]?.getD false = true) ↔
        c.EdgeWithin s first n x z := by
  obtain ⟨hcolumn, hrow⟩ := place_mod_div hx z
  rw [EdgeWithin, ← crosses_iff hwhole hx hz, marks, List.getElem?_map, and_assoc]
  refine and_congr_right fun hfirst => ?_
  by_cases hlast : z * s.width.toNat + x < first + n
  · have hplace : first + (z * s.width.toNat + x - first) = z * s.width.toNat + x := by omega
    rw [List.getElem?_range' (by omega), Nat.one_mul, hplace, Option.map_some, Option.getD_some,
      hcolumn, hrow, and_iff_right hlast]
  · rw [List.getElem?_eq_none (by rw [List.length_range']; omega)]
    exact iff_of_false Bool.false_ne_true fun h => hlast h.1

/-- A part of the loop comes to its end over any canvas of the size of the sample. -/
theorem exists_walk (hwhole : s.IsWhole) (hcolumns : s.width.toNat * s.depth.toNat ≤ 4294967296)
    (hfits : s.Fits canvas) (first n : Nat) (hpart : first + n ≤ s.width.toNat * s.depth.toNat) :
    ∃ drawn, c.walk s first n canvas = (.ok (), drawn) ∧
      ShadedAt (c.EdgeWithin s first n) canvas drawn := by
  obtain ⟨hwidth, hheight⟩ := size_darkenMarked first (c.marks s first n) canvas
  have hmarked : ∀ x z p, canvas.cell? x z = some p →
      ((first ≤ z * canvas.width + x ∧
        (c.marks s first n)[z * canvas.width + x - first]?.getD false = true) ↔
          c.EdgeWithin s first n x z) := by
    intro x z p hp
    have hinside := Raster.cell?_isSome_iff.1 (Option.isSome_of_eq_some hp)
    rw [hfits.width_eq, hfits.height_eq] at hinside
    rw [hfits.width_eq]
    exact marked_iff hwhole first n hinside.1 hinside.2
  refine ⟨_, walk_of_ok (mapM_isEdgeAt_of_le hcolumns hpart) canvas, hwidth, hheight,
    fun x z p hin hp => ?_, fun x z hout => ?_⟩
  · refine ⟨darken p, ?_, shaded_darken p⟩
    rw [cell?_darkenMarked, hp, Option.map_some, if_pos ((hmarked x z p hp).2 hin)]
  · rw [cell?_darkenMarked]
    cases hp : canvas.cell? x z with
    | none => rfl
    | some p => rw [Option.map_some, if_neg (mt (hmarked x z p hp).1 hout)]

theorem drawInPlace_of_fits (hfits : s.Fits canvas) :
    c.drawInPlace s canvas = c.walk s 0 (s.width.toNat * s.depth.toNat) canvas := by
  rw [drawInPlace, HeightSample.checkSize_of_fits hfits, hfits.width_eq, hfits.height_eq]

/-- The loop as a whole. -/
theorem exists_drawInPlace (hwhole : s.IsWhole)
    (hcolumns : s.width.toNat * s.depth.toNat ≤ 4294967296) (hfits : s.Fits canvas) :
    ∃ drawn, c.drawInPlace s canvas = (.ok (), drawn) ∧
      ShadedAt (c.OnBandEdge s) canvas drawn := by
  obtain ⟨drawn, hwalk, hshaded⟩ := exists_walk (c := c) hwhole hcolumns hfits 0
    (s.width.toNat * s.depth.toNat) (Nat.le_of_eq (Nat.zero_add _))
  refine ⟨drawn, (drawInPlace_of_fits hfits).trans hwalk, hshaded.congr fun x z hx hz => ?_⟩
  rw [hfits.width_eq] at hx
  rw [hfits.height_eq] at hz
  rw [EdgeWithin, Nat.zero_add]
  exact and_iff_right ⟨Nat.zero_le _, place_lt hx hz⟩

/-- What drawing on a canvas comes to, as a whole and from any place on. -/
structure DrawsEdges (c : Contours) (visible : Bool) (s : HeightSample) (canvas : Pixmap) :
    Prop where
  exists_drawn : ∃ drawn, (c.layer visible).draw s canvas = .ok drawn ∧
    c.drawInPlace s canvas = (.ok (), drawn) ∧ ShadedAt (c.OnBandEdge s) canvas drawn
  /-- The loop goes on from any place over what it has left there. -/
  goes_on : ∀ m n, m + n = s.width.toNat * s.depth.toNat →
    c.drawInPlace s canvas = c.walk s m n (c.walk s 0 m canvas).2
  exists_walked : ∀ first n, first + n ≤ s.width.toNat * s.depth.toNat →
    ∃ drawn, c.walk s first n canvas = (.ok (), drawn) ∧
      ShadedAt (c.EdgeWithin s first n) canvas drawn

theorem drawsEdges_of_fits (hwhole : s.IsWhole)
    (hcolumns : s.width.toNat * s.depth.toNat ≤ 4294967296) (hfits : s.Fits canvas)
    (visible : Bool) : c.DrawsEdges visible s canvas where
  exists_drawn := by
    obtain ⟨drawn, hdrawn, hshaded⟩ := exists_drawInPlace (c := c) hwhole hcolumns hfits
    refine ⟨drawn, ?_, hdrawn, hshaded⟩
    rw [draw_eq_drawInPlace, hdrawn]
    rfl
  goes_on m n hparts := by
    obtain ⟨drawn, hwalk, -⟩ := exists_walk (c := c) hwhole hcolumns hfits 0 m (by omega)
    have hall := walk_add (n := n) (congrArg Prod.fst hwalk)
    rw [hparts, Nat.zero_add] at hall
    rw [drawInPlace_of_fits hfits, hall]
  exists_walked := exists_walk hwhole hcolumns hfits

/-- The contour layer darkens the edges of bands and no other pixel. It comes to what its loop leaves
of the canvas. Over a sample with a height for each of its columns, which are no more than there are
words, no height is out of reach, and the loop shades the pixels of a canvas whose columns are on the
edge of a band. It does so over any canvas, from any place on. A canvas of another size is refused as
it is. -/
theorem band_edges_are_darkened (c : Contours) (visible : Bool) (s : HeightSample) :
    (∀ canvas, (c.layer visible).draw s canvas =
      (c.drawInPlace s canvas).1.map fun _ => (c.drawInPlace s canvas).2) ∧
    (s.IsWhole → s.width.toNat * s.depth.toNat ≤ 4294967296 →
      (∀ i j, s.height i j = .ok (s.at? i.toNat j.toNat)) ∧
        ∀ canvas, s.Fits canvas → c.DrawsEdges visible s canvas) ∧
    ∀ canvas, ¬ s.Fits canvas → ∃ e, (c.layer visible).draw s canvas = .error (.error e) ∧
      c.drawInPlace s canvas = (.error (.error e), canvas) ∧ e.message =
        s!"sample is {s.width}×{s.depth} but canvas is {canvas.width}×{canvas.height}" := by
  refine ⟨draw_eq_drawInPlace c visible s, fun hwhole hcolumns => ⟨s.height_eq_at? hcolumns,
    fun canvas hfits => drawsEdges_of_fits hwhole hcolumns hfits visible⟩, fun canvas hfits => ?_⟩
  have hsize : s.checkSize canvas = .error (.error
      ⟨s!"sample is {s.width}×{s.depth} but canvas is {canvas.width}×{canvas.height}"⟩) :=
    if_neg fun h => hfits ⟨h.1, h.2⟩
  refine ⟨_, ?_, ?_, rfl⟩
  · rw [draw_eq_drawInPlace, drawInPlace, hsize]
    rfl
  · rw [drawInPlace, hsize]

/-- Two low columns and two high ones. -/
private def ledge : HeightSample := ⟨4, 1, #[0.2, 0.2, 0.7, 0.7], 0.4⟩

private def whiteStrip : Pixmap := Raster.replicate 4 1 ⟨255, 255, 255, 255⟩

private def whiteSquare : Pixmap := Raster.replicate 4 4 ⟨255, 255, 255, 255⟩

/-- With two bands the last of the low columns is on an edge. A square is not drawn on. -/
theorem band_edges_are_darkened_ledge :
    ((ledge.IsWhole ∧ ledge.Fits whiteStrip) ∧
      ∃ drawn, ((ofLevels 2).layer true).draw ledge whiteStrip = .ok drawn ∧
        drawn.cell? 0 0 = some ⟨255, 255, 255, 255⟩ ∧ drawn.cell? 1 0 = some ⟨166, 166, 166, 255⟩ ∧
        drawn.cell? 2 0 = some ⟨255, 255, 255, 255⟩) ∧
    ¬ ledge.Fits whiteSquare ∧
    (ofLevels 2).drawInPlace ledge whiteSquare =
      (.error (.error ⟨"sample is 4×1 but canvas is 4×4"⟩), whiteSquare) := by
  obtain ⟨-, hdraws, hrefuses⟩ := band_edges_are_darkened (ofLevels 2) true ledge
  have hstrip : ledge.Fits whiteStrip := ⟨rfl, rfl⟩
  have hsquare : ¬ ledge.Fits whiteSquare := fun h => absurd h.height_eq (by decide)
  obtain ⟨drawn, hdrawn, -, hshaded⟩ := ((hdraws rfl (by decide)).2 whiteStrip hstrip).exists_drawn
  obtain ⟨q, hq, hshade, -⟩ := hshaded.shaded 1 0 ⟨255, 255, 255, 255⟩ (by decide +kernel) rfl
  obtain rfl : q = ⟨166, 166, 166, 255⟩ := hshade.trans (by decide +kernel)
  obtain ⟨⟨message⟩, -, hrefused, hmessage⟩ := hrefuses whiteSquare hsquare
  obtain rfl : message = "sample is 4×1 but canvas is 4×4" := hmessage
  exact ⟨⟨⟨rfl, hstrip⟩, drawn, hdrawn, hshaded.kept 0 0 (by decide +kernel), hq,
    hshaded.kept 2 0 (by decide +kernel)⟩, hsquare, hrefused⟩

end Contours

end WorldMap
