import WorldMap.Proofs.Geometry.Tightness
import WorldMap.Proofs.Image.Drawing
import WorldMap.Tiles.Compositor
/-!
# What tiles show of a world point

Tiles that are composed have images of the layout's size, so an image shows something of a world
point if and only if its tile covers the point. As no two results are of one tile, at most one of
them does: the order of the tiles does not matter, and what is left of a point is the background
under the image of its own tile. A tile that fails changes nothing but its own footprint.
-/

namespace WorldMap

namespace TileResult

/-- What becomes of a pixel that shows the world point `(x, z)`. -/
def overlay (t : TileResult Pixmap) (l : Layout) (x z : Int) (d : Pixel) : Pixel :=
  t.image.elim d fun image => image.overlay (x - t.tile.originX l) (z - t.tile.originZ l) d

/-- The same result, or that of a failure if it is of tile `u`. -/
def failing {α : Type} (u : Tile) (t : TileResult α) : TileResult α :=
  if t.tile = u then { t with image := none } else t

/-- Results of tiles of a grid, of each tile at most one. Their images are surfaces of the size of a
tile. -/
structure OnGrid (l : Layout) (g : Grid) (tiles : List (TileResult Pixmap)) : Prop where
  nodup : (tiles.map (·.tile)).Nodup
  contains : ∀ t ∈ tiles, g.contains t.tile = true
  width_eq : ∀ t ∈ tiles, ∀ image, t.image = some image → image.width = l.width.toNat
  height_eq : ∀ t ∈ tiles, ∀ image, t.image = some image → image.height = l.depth.toNat
  surface : ∀ t ∈ tiles, ∀ image, t.image = some image →
    ∃ blank, Pixmap.blank? image.width image.height = some blank

variable {l : Layout} {g : Grid} {tiles tiles' : List (TileResult Pixmap)} {t : TileResult Pixmap}
  {u : Tile} {x z : Int} {d : Pixel}

theorem overlay_of_none (h : t.image = none) : t.overlay l x z d = d := by
  rw [overlay, h]
  rfl

theorem tile_failing {α : Type} (u : Tile) (t : TileResult α) : (t.failing u).tile = t.tile := by
  unfold failing
  split <;> rfl

theorem image_of_failing {α : Type} {t : TileResult α} {image : α}
    (h : (t.failing u).image = some image) : t.image = some image := by
  unfold failing at h
  split at h
  · simp at h
  · exact h

namespace OnGrid

theorem perm (h : OnGrid l g tiles) (hperm : tiles'.Perm tiles) : OnGrid l g tiles' where
  nodup := (hperm.map _).nodup_iff.2 h.nodup
  contains t ht := h.contains t (hperm.mem_iff.1 ht)
  width_eq t ht := h.width_eq t (hperm.mem_iff.1 ht)
  height_eq t ht := h.height_eq t (hperm.mem_iff.1 ht)
  surface t ht := h.surface t (hperm.mem_iff.1 ht)

theorem map_failing (h : OnGrid l g tiles) (u : Tile) :
    OnGrid l g (tiles.map (TileResult.failing u)) := by
  have htiles : (tiles.map (TileResult.failing u)).map (·.tile) = tiles.map (·.tile) := by
    rw [List.map_map]
    exact List.map_congr_left fun t _ => tile_failing u t
  constructor
  · rw [htiles]
    exact h.nodup
  all_goals
    intro t' ht'
    obtain ⟨t, ht, rfl⟩ := List.mem_map.1 ht'
  · rw [tile_failing]
    exact h.contains t ht
  · exact fun image himage => h.width_eq t ht image (image_of_failing himage)
  · exact fun image himage => h.height_eq t ht image (image_of_failing himage)
  · exact fun image himage => h.surface t ht image (image_of_failing himage)

/-- A tile shows nothing of a point that it does not cover. -/
theorem overlay_of_not_covers (h : OnGrid l g tiles) (ht : t ∈ tiles)
    (hcovers : ¬ t.tile.Covers l x z) (d : Pixel) : t.overlay l x z d = d := by
  unfold overlay
  cases himage : t.image with
  | none => rfl
  | some image =>
    have hnone : image.at? (x - t.tile.originX l) (z - t.tile.originZ l) = none := by
      apply Raster.at?_eq_none
      rw [h.width_eq t ht image himage, h.height_eq t ht image himage]
      rintro ⟨⟨hleft, hright⟩, htop, hbottom⟩
      exact hcovers ⟨by omega, by omega, by omega, by omega⟩
    show image.overlay _ _ d = d
    rw [Pixmap.overlay, hnone]
    rfl

theorem exists_at? (h : OnGrid l g tiles) (ht : t ∈ tiles) {image : Pixmap}
    (himage : t.image = some image) (hcovers : t.tile.Covers l x z) :
    ∃ p, image.at? (x - t.tile.originX l) (z - t.tile.originZ l) = some p ∧
      t.overlay l x z d = p.onto d := by
  obtain ⟨hleft, hright, htop, hbottom⟩ := hcovers
  obtain ⟨p, hp⟩ := Raster.exists_cell? (r := image)
    (x := (x - t.tile.originX l).toNat) (y := (z - t.tile.originZ l).toNat)
    (by rw [h.width_eq t ht image himage]; omega) (by rw [h.height_eq t ht image himage]; omega)
  have hat : image.at? (x - t.tile.originX l) (z - t.tile.originZ l) = some p := by
    rw [Raster.at?_of_nonneg (by omega) (by omega), hp]
  refine ⟨p, hat, ?_⟩
  rw [overlay, himage]
  show image.overlay _ _ d = p.onto d
  rw [Pixmap.overlay, hat]
  rfl

theorem eq_of_covers (h : OnGrid l g tiles) {t t' : TileResult Pixmap} (ht : t ∈ tiles)
    (ht' : t' ∈ tiles) (hcovers : t.tile.Covers l x z) (hcovers' : t'.tile.Covers l x z) :
    t = t' :=
  List.inj_on_of_nodup_map h.nodup ht ht' (hcovers.unique hcovers')

end OnGrid

end TileResult

namespace Compositor

variable {c : Compositor} {g : Grid} {tiles tiles' : List (TileResult Pixmap)}
  {t : TileResult Pixmap} {u : Tile} {x z : Int}

/-- What is left of a world point when all tiles are drawn over the background. -/
def shade (c : Compositor) (tiles : List (TileResult Pixmap)) (x z : Int) : Pixel :=
  tiles.foldl (fun d t => t.overlay c.layout x z d) c.background.paint

/-- Tiles that show nothing leave a pixel as it is. -/
theorem foldl_overlay_eq {l : Layout} (h : ∀ t ∈ tiles, ∀ d, t.overlay l x z d = d) (d : Pixel) :
    tiles.foldl (fun d t => t.overlay l x z d) d = d :=
  List.foldlRecOn (motive := fun d' => d' = d) tiles _ rfl fun d' hd t ht => by rw [h t ht, hd]

/-- At every point at most one of two tiles shows something, so they can be drawn either way. -/
theorem shade_perm (h : TileResult.OnGrid c.layout g tiles) (hperm : tiles.Perm tiles') :
    c.shade tiles x z = c.shade tiles' x z := by
  refine hperm.foldl_eq' (fun t ht t' ht' d => ?_) _
  by_cases hcovers : t.tile.Covers c.layout x z
  · by_cases hcovers' : t'.tile.Covers c.layout x z
    · rw [h.eq_of_covers ht ht' hcovers hcovers']
    · rw [h.overlay_of_not_covers ht' hcovers', h.overlay_of_not_covers ht' hcovers']
  · rw [h.overlay_of_not_covers ht hcovers, h.overlay_of_not_covers ht hcovers]

/-- A point is shaded by the tile that covers it. -/
theorem shade_of_mem (h : TileResult.OnGrid c.layout g tiles) (ht : t ∈ tiles)
    (hcovers : t.tile.Covers c.layout x z) :
    c.shade tiles x z = t.overlay c.layout x z c.background.paint := by
  obtain ⟨before, after, rfl⟩ := List.append_of_mem ht
  have hnodup := h.nodup
  rw [List.map_append, List.map_cons, List.nodup_middle, List.nodup_cons] at hnodup
  have hother (t' : TileResult Pixmap) (ht' : t' ∈ before ++ after) (d : Pixel) :
      t'.overlay c.layout x z d = d := by
    have hmem : t' ∈ before ++ t :: after := by
      rw [List.mem_append, List.mem_cons]
      rcases List.mem_append.1 ht' with hbefore | hafter
      · exact .inl hbefore
      · exact .inr (.inr hafter)
    refine h.overlay_of_not_covers hmem (fun hcovers' => hnodup.1 ?_) d
    rw [← List.map_append, hcovers.unique hcovers']
    exact List.mem_map_of_mem ht'
  rw [shade, List.foldl_append, List.foldl_cons,
    foldl_overlay_eq fun t' ht' => hother t' (List.mem_append_left after ht'),
    foldl_overlay_eq fun t' ht' => hother t' (List.mem_append_right before ht')]

/-- A point whose tile has no image shows the background. -/
theorem shade_of_forall (h : TileResult.OnGrid c.layout g tiles)
    (hnone : ∀ t ∈ tiles, t.tile.Covers c.layout x z → t.image = none) :
    c.shade tiles x z = c.background.paint := by
  refine foldl_overlay_eq (fun t ht d => ?_) _
  by_cases hcovers : t.tile.Covers c.layout x z
  · exact TileResult.overlay_of_none (hnone t ht hcovers)
  · exact h.overlay_of_not_covers ht hcovers d

/-- A failure is not seen from outside of the tile. -/
theorem shade_map_failing (h : TileResult.OnGrid c.layout g tiles)
    (houtside : ¬ u.Covers c.layout x z) :
    c.shade (tiles.map (TileResult.failing u)) x z = c.shade tiles x z := by
  rw [shade, List.foldl_map]
  refine List.foldl_ext _ _ _ fun d t ht => ?_
  unfold TileResult.failing
  split
  · rename_i htile
    rw [h.overlay_of_not_covers ht (htile ▸ houtside)]
    exact TileResult.overlay_of_none rfl
  · rfl

end Compositor

end WorldMap
