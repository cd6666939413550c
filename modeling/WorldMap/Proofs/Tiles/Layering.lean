import Mathlib.Logic.Function.Iterate
import WorldMap.Proofs.Image.Drawing
import WorldMap.Tiles.Rasterizer
/-!
# Layers one over the other

Drawing a tile is a fold over its visible layers, in the monad of work that may come to nothing. What
such a fold comes to is told here without it: either every layer succeeds on the canvas that the ones
before it have left (`Layer.Draws`), or there is a first one that does not (`Layer.FailsFirst`), and
then it is to blame.

Tiles are drawn side by side, so the fold is also taken apart into steps, one for each layer. A
`TileDrawing` is a tile in the middle of it. As a step of one tile has nothing to do with any other, a
tile comes to the same whatever turns the tiles take (`TileDrawing.getElem?_takeTurns`), and the layers
that were run by any time are the first ones of those that will be (`TileDrawing.allCalls`).
-/

namespace WorldMap

variable {σ : Type}

namespace Layer

variable {sample : σ} {l : Layer σ} {layers before after : List (Layer σ)}
  {canvas next reached last : Pixmap} {f : Failure LayerError}

/-- The layers that take part. -/
def shown (layers : List (Layer σ)) : List (Layer σ) := layers.filter (·.visible)

/-- Every layer succeeds on the canvas that the ones before it have left. The first is given `canvas`,
and the last leaves `last`. -/
inductive Draws (sample : σ) : List (Layer σ) → Pixmap → Pixmap → Prop
  | nil (canvas : Pixmap) : Draws sample [] canvas canvas
  | cons {l : Layer σ} {layers : List (Layer σ)} {canvas next last : Pixmap} :
      l.draw sample canvas = .ok next → Draws sample layers next last →
        Draws sample (l :: layers) canvas last

/-- `l` is the first of the layers that fails. Those in `before` come before it, succeed, and leave
`reached`. -/
structure FailsFirst (sample : σ) (layers : List (Layer σ)) (canvas : Pixmap)
    (before : List (Layer σ)) (l : Layer σ) (reached : Pixmap) (f : Failure LayerError) : Prop where
  isPrefix : before ++ [l] <+: layers
  draws : Draws sample before canvas reached
  draw_eq : l.draw sample reached = .error f

/-- Layers that keep the size of their canvas keep it together. -/
theorem Draws.size_eq (h : Draws sample layers canvas last)
    (hkeep : ∀ l ∈ layers, ∀ canvas next, l.draw sample canvas = .ok next →
      next.width = canvas.width ∧ next.height = canvas.height) :
    last.width = canvas.width ∧ last.height = canvas.height := by
  induction h with
  | nil canvas => exact ⟨rfl, rfl⟩
  | cons hdraw hrest ih =>
    obtain ⟨hwidth, hheight⟩ := hkeep _ List.mem_cons_self _ _ hdraw
    obtain ⟨hwidth', hheight'⟩ := ih fun l hl => hkeep l (List.mem_cons_of_mem _ hl)
    exact ⟨hwidth'.trans hwidth, hheight'.trans hheight⟩

theorem FailsFirst.cons (hdraw : l.draw sample canvas = .ok next) {l' : Layer σ}
    (h : FailsFirst sample layers next before l' reached f) :
    FailsFirst sample (l :: layers) canvas (l :: before) l' reached f where
  isPrefix := List.cons_prefix_cons.2 ⟨rfl, h.isPrefix⟩
  draws := .cons hdraw h.draws
  draw_eq := h.draw_eq

theorem shown_eq_self (h : before ⊆ shown layers) : shown before = before :=
  List.filter_eq_self.2 fun _ hl => (List.mem_filter.1 (h hl)).2

/-- A failure has nothing to do with the layers that come after it. -/
theorem FailsFirst.replace_after (h : FailsFirst sample (shown layers) canvas before l reached f)
    (after : List (Layer σ)) :
    FailsFirst sample (shown (before ++ l :: after)) canvas before l reached f where
  isPrefix := by
    have hshown : shown (before ++ l :: after) = (before ++ [l]) ++ shown after := by
      rw [← shown_eq_self h.isPrefix.subset, List.append_cons, shown, List.filter_append]
      rfl
    rw [hshown]
    exact List.prefix_append _ _
  draws := h.draws
  draw_eq := h.draw_eq

theorem apply_of_ok (h : l.draw sample canvas = .ok next) : l.apply sample canvas = .ok next := by
  rw [apply, h]
  rfl

theorem apply_of_error (h : l.draw sample canvas = .error f) :
    l.apply sample canvas = .error (f.map (TileError.layer l.name)) := by
  rw [apply, h]
  rfl

theorem foldlM_of_draws (h : Draws sample layers canvas last) :
    layers.foldlM (fun canvas l => l.apply sample canvas) canvas = .ok last := by
  induction h with
  | nil canvas => rfl
  | cons hdraw hrest ih =>
    rw [List.foldlM_cons, apply_of_ok hdraw]
    exact ih

/-- The layers after the first one that fails take no part in how the fold ends. -/
theorem foldlM_of_failsFirst (h : FailsFirst sample layers canvas before l reached f) :
    layers.foldlM (fun canvas l => l.apply sample canvas) canvas
      = .error (f.map (TileError.layer l.name)) := by
  obtain ⟨⟨after, rfl⟩, hdraws, hdraw⟩ := h
  rw [List.append_assoc, List.foldlM_append, foldlM_of_draws hdraws]
  change ([l] ++ after).foldlM (fun canvas l => l.apply sample canvas) reached = _
  rw [List.singleton_append, List.foldlM_cons, apply_of_error hdraw]
  rfl

/-- The layers that are run, each with the canvas that it is given: after one that fails there is no
other. -/
def calls (sample : σ) : List (Layer σ) → Pixmap → List (Layer σ × Pixmap)
  | [], _ => []
  | l :: layers, canvas =>
    (l, canvas) ::
      match l.draw sample canvas with
      | .ok next => calls sample layers next
      | .error _ => []

theorem calls_of_ok (h : l.draw sample canvas = .ok next) :
    calls sample (l :: layers) canvas = (l, canvas) :: calls sample layers next := by
  rw [calls, h]

theorem calls_of_error (h : l.draw sample canvas = .error f) :
    calls sample (l :: layers) canvas = [(l, canvas)] := by
  rw [calls, h]

theorem map_calls_of_draws (h : Draws sample layers canvas last) :
    (calls sample layers canvas).map Prod.fst = layers := by
  induction h with
  | nil canvas => rfl
  | cons hdraw hrest ih => rw [calls_of_ok hdraw, List.map_cons, ih]

theorem map_calls_of_failsFirst (h : FailsFirst sample layers canvas before l reached f) :
    (calls sample layers canvas).map Prod.fst = before ++ [l] := by
  obtain ⟨⟨after, rfl⟩, hdraws, hdraw⟩ := h
  induction hdraws with
  | nil canvas =>
    rw [List.nil_append, List.singleton_append, calls_of_error hdraw]
    rfl
  | cons hdraw' hrest ih =>
    rw [List.cons_append, List.cons_append, calls_of_ok hdraw', List.map_cons, ih hdraw]

/-- Each layer that is run is given the canvas that the ones run before it have left. -/
theorem draws_of_calls {earlier : List (Layer σ × Pixmap)}
    (h : earlier ++ [(l, reached)] <+: calls sample layers canvas) :
    Draws sample (earlier.map Prod.fst) canvas reached := by
  induction layers generalizing canvas earlier with
  | nil => simp [calls] at h
  | cons l' layers ih =>
    cases earlier with
    | nil =>
      obtain ⟨hcall, -⟩ := List.cons_prefix_cons.1 h
      rw [(Prod.mk.inj hcall).2]
      exact .nil canvas
    | cons call earlier =>
      obtain ⟨rfl, hrest⟩ := List.cons_prefix_cons.1 h
      cases hdraw : l'.draw sample canvas with
      | ok next =>
        rw [hdraw] at hrest
        exact .cons hdraw (ih hrest)
      | error f =>
        rw [hdraw] at hrest
        simp at hrest

/-- Layers either all succeed or have a first that fails. -/
theorem exists_draws_or_failsFirst (sample : σ) (layers : List (Layer σ)) (canvas : Pixmap) :
    (∃ last, Draws sample layers canvas last) ∨
      ∃ before l reached f, FailsFirst sample layers canvas before l reached f := by
  induction layers generalizing canvas with
  | nil => exact .inl ⟨canvas, .nil canvas⟩
  | cons l layers ih =>
    cases hdraw : l.draw sample canvas with
    | error f => exact .inr ⟨[], l, canvas, f, List.prefix_append [l] layers, .nil canvas, hdraw⟩
    | ok next =>
      rcases ih next with ⟨last, hdraws⟩ | ⟨before, l', reached, f, hfails⟩
      · exact .inl ⟨last, .cons hdraw hdraws⟩
      · exact .inr ⟨l :: before, l', reached, f, hfails.cons hdraw⟩

end Layer

namespace Rasterizer

open Layer

variable {r : Rasterizer σ} {sample : σ} {l : Layer σ} {layers before after : List (Layer σ)}
  {canvas reached last image : Pixmap} {f : Failure LayerError}

/-- The canvas that the first layer is given. -/
def ground (r : Rasterizer σ) : Pixmap :=
  Raster.replicate r.layout.width.toNat r.layout.depth.toNat r.background.paint

/-! ### The fold -/

theorem drawLayers_shown : drawLayers (shown layers) sample canvas = drawLayers layers sample canvas := by
  rw [drawLayers, drawLayers, shown, List.filter_filter]
  simp only [Bool.and_self]

theorem drawLayers_append : drawLayers (before ++ after) sample canvas = (do
    let canvas ← drawLayers before sample canvas
    drawLayers after sample canvas) := by
  rw [drawLayers, List.filter_append, List.foldlM_append]
  rfl

theorem drawLayers_cons_of_hidden (hhidden : l.visible = false) :
    drawLayers (l :: layers) sample canvas = drawLayers layers sample canvas := by
  rw [drawLayers, List.filter_cons_of_neg (Bool.eq_false_iff.1 hhidden), drawLayers]

theorem drawLayers_cons_of_visible (hvisible : l.visible = true) :
    drawLayers (l :: layers) sample canvas = (do
      let canvas ← l.apply sample canvas
      drawLayers layers sample canvas) := by
  rw [drawLayers, List.filter_cons_of_pos hvisible, List.foldlM_cons]
  rfl

theorem drawLayers_of_draws (h : Draws sample (shown layers) canvas last) :
    drawLayers layers sample canvas = .ok last :=
  foldlM_of_draws h

theorem drawLayers_of_failsFirst
    (h : FailsFirst sample (shown layers) canvas before l reached f) :
    drawLayers layers sample canvas = .error (f.map (TileError.layer l.name)) :=
  foldlM_of_failsFirst h

theorem drawLayers_eq_ok_iff :
    drawLayers layers sample canvas = .ok last ↔ Draws sample (shown layers) canvas last := by
  refine ⟨fun h => ?_, drawLayers_of_draws⟩
  rcases exists_draws_or_failsFirst sample (shown layers) canvas with
    ⟨last', hdraws⟩ | ⟨before, l, reached, f, hfails⟩
  · rw [drawLayers_of_draws hdraws] at h
    exact Except.ok.inj h ▸ hdraws
  · rw [drawLayers_of_failsFirst hfails] at h
    cases h

theorem drawLayers_eq_error_iff {e : Failure TileError} :
    drawLayers layers sample canvas = .error e ↔
      ∃ before l reached f, FailsFirst sample (shown layers) canvas before l reached f ∧
        e = f.map (TileError.layer l.name) := by
  constructor
  · intro h
    rcases exists_draws_or_failsFirst sample (shown layers) canvas with
      ⟨last, hdraws⟩ | ⟨before, l, reached, f, hfails⟩
    · rw [drawLayers_of_draws hdraws] at h
      cases h
    · rw [drawLayers_of_failsFirst hfails] at h
      exact ⟨before, l, reached, f, hfails, (Except.error.inj h).symm⟩
  · rintro ⟨before, l, reached, f, hfails, rfl⟩
    exact drawLayers_of_failsFirst hfails

theorem rasterize_eq_drawLayers
    (hsurface : (Pixmap.blank? r.layout.width.toNat r.layout.depth.toNat).isSome) :
    r.rasterize sample = drawLayers r.layers sample r.ground := by
  obtain ⟨surface, hsurface⟩ := Option.isSome_iff_exists.1 hsurface
  obtain ⟨-, hwidth, hheight⟩ := Pixmap.size_of_blank? hsurface
  rw [rasterize, hsurface, ground, ← hwidth, ← hheight]
  rfl

end Rasterizer

/-! ### The fold in steps -/

/-- One tile being drawn: the layers that are left, the canvas as it is or what the drawing has failed
with, and the layers that were run so far, each with the canvas that it was given. -/
structure TileDrawing (σ : Type) where
  sample : σ
  left : List (Layer σ)
  state : Attempt TileError Pixmap
  calls : List (Layer σ × Pixmap)

namespace TileDrawing

open Layer Rasterizer

variable {r : Rasterizer σ} {d d' : TileDrawing σ} {layers before : List (Layer σ)} {l : Layer σ}
  {start canvas reached image : Pixmap} {f : Failure LayerError} {n : Nat}

/-- Nothing drawn yet. -/
def ofSample (r : Rasterizer σ) (sample : σ) : TileDrawing σ := ⟨sample, r.layers, .ok r.ground, []⟩

/-- Looks at the next layer, and runs it if it is visible. A drawing that has failed is left as it is. -/
def step (d : TileDrawing σ) : TileDrawing σ :=
  match d.state, d.left with
  | .ok canvas, l :: left =>
    if l.visible then
      { d with left, state := l.apply d.sample canvas, calls := d.calls ++ [(l, canvas)] }
    else { d with left }
  | _, _ => d

/-- There is nothing left to do. -/
def IsOver (d : TileDrawing σ) : Prop := d.left = [] ∨ ∃ f, d.state = .error f

/-- What a step can do. -/
inductive Turn : TileDrawing σ → TileDrawing σ → Prop
  | idle {d : TileDrawing σ} : d.IsOver → Turn d d
  | passOver {sample : σ} {l : Layer σ} {left : List (Layer σ)} {canvas : Pixmap}
      {calls : List (Layer σ × Pixmap)} : l.visible = false →
        Turn ⟨sample, l :: left, .ok canvas, calls⟩ ⟨sample, left, .ok canvas, calls⟩
  | runLayer {sample : σ} {l : Layer σ} {left : List (Layer σ)} {canvas : Pixmap}
      {calls : List (Layer σ × Pixmap)} : l.visible = true →
        Turn ⟨sample, l :: left, .ok canvas, calls⟩
          ⟨sample, left, l.apply sample canvas, calls ++ [(l, canvas)]⟩

theorem turn_step (d : TileDrawing σ) : Turn d d.step := by
  obtain ⟨sample, left, state, calls⟩ := d
  cases state with
  | error f => exact .idle (.inr ⟨f, rfl⟩)
  | ok canvas =>
    cases left with
    | nil => exact .idle (.inl rfl)
    | cons l left =>
      cases hvisible : l.visible with
      | false =>
        have hstep : step ⟨sample, l :: left, .ok canvas, calls⟩ = ⟨sample, left, .ok canvas, calls⟩ :=
          if_neg (Bool.eq_false_iff.1 hvisible)
        exact hstep ▸ .passOver hvisible
      | true =>
        have hstep : step ⟨sample, l :: left, .ok canvas, calls⟩
            = ⟨sample, left, l.apply sample canvas, calls ++ [(l, canvas)]⟩ := if_pos hvisible
        exact hstep ▸ .runLayer hvisible

/-- What the drawing will come to. -/
def result (d : TileDrawing σ) : Attempt TileError Pixmap := do
  drawLayers d.left d.sample (← d.state)

/-- The layers that are run from a canvas on, none if there is no canvas any more. -/
def callsFrom (sample : σ) (layers : List (Layer σ)) :
    Attempt TileError Pixmap → List (Layer σ × Pixmap)
  | .ok canvas => Layer.calls sample (shown layers) canvas
  | .error _ => []

/-- The layers that were run or will be. -/
def allCalls (d : TileDrawing σ) : List (Layer σ × Pixmap) :=
  d.calls ++ callsFrom d.sample d.left d.state

theorem result_of_isOver (h : d.IsOver) : d.result = d.state := by
  obtain ⟨sample, left, state, calls⟩ := d
  rcases h with hleft | ⟨f, hstate⟩
  · obtain rfl : left = [] := hleft
    exact bind_pure state
  · obtain rfl : state = .error f := hstate
    rfl

theorem allCalls_of_isOver (h : d.IsOver) : d.allCalls = d.calls := by
  obtain ⟨sample, left, state, calls⟩ := d
  rcases h with hleft | ⟨f, hstate⟩
  · obtain rfl : left = [] := hleft
    cases state <;> exact List.append_nil calls
  · obtain rfl : state = .error f := hstate
    exact List.append_nil calls

/-! ### What a step keeps -/

theorem Turn.result_eq (h : Turn d d') : d'.result = d.result := by
  cases h with
  | idle _ => rfl
  | passOver hhidden => exact (drawLayers_cons_of_hidden hhidden).symm
  | runLayer hvisible => exact (drawLayers_cons_of_visible hvisible).symm

theorem Turn.allCalls_eq (h : Turn d d') : d'.allCalls = d.allCalls := by
  cases h with
  | idle _ => rfl
  | @passOver sample l left canvas calls hhidden =>
    have hshown : shown (l :: left) = shown left :=
      List.filter_cons_of_neg (Bool.eq_false_iff.1 hhidden)
    rw [allCalls, allCalls, callsFrom, callsFrom, hshown]
  | @runLayer sample l left canvas calls hvisible =>
    have hshown : shown (l :: left) = l :: shown left := List.filter_cons_of_pos hvisible
    rw [allCalls, allCalls, callsFrom, hshown, List.append_assoc, List.singleton_append]
    cases hdraw : l.draw sample canvas with
    | ok next => rw [calls_of_ok hdraw, apply_of_ok hdraw, callsFrom]
    | error f => rw [calls_of_error hdraw, apply_of_error hdraw, callsFrom]

/-- A step takes a layer, unless there is nothing left to do. -/
theorem Turn.isOver_or_length (h : Turn d d') : d'.IsOver ∨ d'.left.length + 1 = d.left.length := by
  cases h with
  | idle hover => exact .inl hover
  | passOver _ => exact .inr rfl
  | runLayer _ => exact .inr rfl

theorem step_of_isOver (h : d.IsOver) : d.step = d := by
  obtain ⟨sample, left, state, calls⟩ := d
  rcases h with hleft | ⟨f, hstate⟩
  · obtain rfl : left = [] := hleft
    cases state <;> rfl
  · obtain rfl : state = .error f := hstate
    rfl

/-! ### Any number of steps -/

theorem result_iterate (d : TileDrawing σ) (n : Nat) : (step^[n] d).result = d.result := by
  induction n with
  | zero => rfl
  | succ n ih =>
    rw [Function.iterate_succ_apply', ← ih]
    exact (turn_step _).result_eq

theorem allCalls_iterate (d : TileDrawing σ) (n : Nat) : (step^[n] d).allCalls = d.allCalls := by
  induction n with
  | zero => rfl
  | succ n ih =>
    rw [Function.iterate_succ_apply', ← ih]
    exact (turn_step _).allCalls_eq

/-- One step for each layer is enough. -/
theorem isOver_iterate (h : d.left.length ≤ n) : (step^[n] d).IsOver := by
  induction n generalizing d with
  | zero => exact .inl (List.eq_nil_of_length_eq_zero (Nat.le_zero.1 h))
  | succ n ih =>
    rw [Function.iterate_succ_apply]
    rcases (turn_step d).isOver_or_length with hover | hlength
    · rwa [Function.iterate_fixed (step_of_isOver hover)]
    · exact ih (by omega)

/-! ### Tiles side by side -/

/-- Each turn is a step of one of the drawings. -/
def takeTurns (turns : List Nat) (ds : List (TileDrawing σ)) : List (TileDrawing σ) :=
  turns.foldl (fun ds i => ds.modify i step) ds

/-- A drawing is where its own turns have brought it. -/
theorem getElem?_takeTurns (turns : List Nat) (ds : List (TileDrawing σ)) (k : Nat) :
    (takeTurns turns ds)[k]? = ds[k]?.map step^[turns.count k] := by
  induction turns generalizing ds with
  | nil => simp [takeTurns]
  | cons i turns ih =>
    change (takeTurns turns (ds.modify i step))[k]? = _
    rw [ih, List.getElem?_modify]
    by_cases hown : i = k
    · subst hown
      rw [List.count_cons_self, Function.iterate_succ]
      cases ds[i]? <;> simp
    · rw [List.count_cons_of_ne hown]
      simp [hown]

end TileDrawing

/-! ### The tile as a whole -/

namespace Rasterizer

open Layer TileDrawing

variable {r : Rasterizer σ} {sample : σ}

/-- What a tile comes to. -/
structure Folds (r : Rasterizer σ) (sample : σ) : Prop where
  /-- Hidden layers might as well not be there. -/
  shown_eq : r.rasterize sample = ({ r with layers := shown r.layers } : Rasterizer σ).rasterize sample
  ok_iff : ∀ image, r.rasterize sample = .ok image ↔ Draws sample (shown r.layers) r.ground image
  /-- The first layer that fails is blamed by its name, for its error. -/
  error_iff : ∀ e, r.rasterize sample = .error e ↔ ∃ before l reached f,
    FailsFirst sample (shown r.layers) r.ground before l reached f ∧
      e = f.map (TileError.layer l.name)
  /-- What comes after it makes no difference, whatever it would do. -/
  ends_at_failure : ∀ before l reached f,
    FailsFirst sample (shown r.layers) r.ground before l reached f →
      ∀ after, ({ r with layers := before ++ l :: after } : Rasterizer σ).rasterize sample
        = r.rasterize sample
  split_eq : ∀ before after, before ++ after = r.layers → r.rasterize sample = (do
    let canvas ← drawLayers before sample r.ground
    drawLayers after sample canvas)
  /-- An image has the size of a tile if no layer changes the size. -/
  size_eq : (∀ l ∈ shown r.layers, ∀ canvas next, l.draw sample canvas = .ok next →
      next.width = canvas.width ∧ next.height = canvas.height) →
    ∀ image, r.rasterize sample = .ok image →
      image.width = r.layout.width.toNat ∧ image.height = r.layout.depth.toNat

/-- Which layers are run for a tile, and on what. -/
structure Runs (r : Rasterizer σ) (sample : σ) (calls : List (Layer σ × Pixmap)) : Prop where
  all_of_ok : ∀ image, r.rasterize sample = .ok image → calls.map Prod.fst = shown r.layers
  /-- None is run after the first one that fails. -/
  last_fails : ∀ before l reached f,
    FailsFirst sample (shown r.layers) r.ground before l reached f →
      calls.map Prod.fst = before ++ [l]
  draws_earlier : ∀ earlier l canvas, earlier ++ [(l, canvas)] <+: calls →
    Draws sample (earlier.map Prod.fst) r.ground canvas

theorem folds_of_surface
    (hsurface : (Pixmap.blank? r.layout.width.toNat r.layout.depth.toNat).isSome) (sample : σ) :
    r.Folds sample := by
  have hfold {layers : List (Layer σ)} :
      ({ r with layers } : Rasterizer σ).rasterize sample = drawLayers layers sample r.ground :=
    rasterize_eq_drawLayers hsurface
  have hself : r.rasterize sample = drawLayers r.layers sample r.ground := hfold
  exact {
    shown_eq := by rw [hself, hfold, drawLayers_shown]
    ok_iff := fun image => by rw [hself, drawLayers_eq_ok_iff]
    error_iff := fun e => by rw [hself, drawLayers_eq_error_iff]
    ends_at_failure := fun before l reached f hfails after => by
      rw [hself, hfold, drawLayers_of_failsFirst hfails,
        drawLayers_of_failsFirst (hfails.replace_after after)]
    split_eq := fun before after hlayers => by rw [hself, ← hlayers, drawLayers_append]
    size_eq := fun hkeep image himage => by
      rw [hself, drawLayers_eq_ok_iff] at himage
      exact himage.size_eq hkeep }

theorem runs_calls
    (hsurface : (Pixmap.blank? r.layout.width.toNat r.layout.depth.toNat).isSome) (sample : σ) :
    r.Runs sample (Layer.calls sample (shown r.layers) r.ground) where
  all_of_ok image himage :=
    map_calls_of_draws (((folds_of_surface hsurface sample).ok_iff image).1 himage)
  last_fails _ _ _ _ hfails := map_calls_of_failsFirst hfails
  draws_earlier _ _ _ h := draws_of_calls h

/-- Rasterizing folds the visible layers in order and stops at the first that fails. Taken step by step,
it runs those layers on the canvas that the ones before have left, and comes to the same after a step for
each layer. Where several tiles are drawn at a time, whatever turns they take, each of them is where it
would be on its own. -/
theorem visible_layers_are_folded (r : Rasterizer σ)
    (hsurface : (Pixmap.blank? r.layout.width.toNat r.layout.depth.toNat).isSome) :
    (∀ sample, r.Folds sample ∧ ∃ calls, r.Runs sample calls ∧ ∀ n,
      (step^[n] (ofSample r sample)).calls <+: calls ∧
      (r.layers.length ≤ n → (step^[n] (ofSample r sample)).state = r.rasterize sample ∧
        (step^[n] (ofSample r sample)).calls = calls)) ∧
    ∀ (samples : List σ) (turns : List Nat) (k : Nat) (sample : σ), samples[k]? = some sample →
      (takeTurns turns (samples.map (ofSample r)))[k]?
        = some (step^[turns.count k] (ofSample r sample)) := by
  constructor
  · intro sample
    refine ⟨folds_of_surface hsurface sample, _, runs_calls hsurface sample, fun n => ?_⟩
    have hcalls : (step^[n] (ofSample r sample)).allCalls
        = Layer.calls sample (shown r.layers) r.ground := allCalls_iterate (ofSample r sample) n
    constructor
    · rw [← hcalls]
      exact List.prefix_append _ _
    · intro hn
      have hover : (step^[n] (ofSample r sample)).IsOver := isOver_iterate hn
      constructor
      · rw [← result_of_isOver hover, result_iterate, rasterize_eq_drawLayers hsurface]
        rfl
      · rw [← allCalls_of_isOver hover, hcalls]
  · intro samples turns k sample hsample
    rw [getElem?_takeTurns, List.getElem?_map, hsample]
    rfl

/-- Never visible, and would break off. -/
private def veil : Layer Nat := ⟨"veil", false, fun _ _ => .error (.broke .silent)⟩

private def meadow : Layer Nat := ⟨"meadow", true, fun _ canvas => .ok (canvas.fill ⟨0, 96, 0, 255⟩)⟩

/-- Has nothing to draw where there is no depth. -/
private def water : Layer Nat :=
  ⟨"water", true, fun depth canvas =>
    if depth = 0 then .error (.error ⟨"no data"⟩) else .ok canvas⟩

/-- Breaks off where there is no depth. -/
private def waves : Layer Nat :=
  ⟨"waves", true, fun depth canvas => if depth = 0 then .error (.broke .silent) else .ok canvas⟩

private def pondTiles : Rasterizer Nat :=
  ⟨[veil, meadow, water, waves], Layout.ofFootprint 2 1, Color.black⟩

/-- A tile without water is blamed on the layer of the water, and the tile next to it is drawn. -/
theorem visible_layers_are_folded_pondTiles :
    (Pixmap.blank? pondTiles.layout.width.toNat pondTiles.layout.depth.toNat).isSome ∧
    ∃ dry wet,
      (takeTurns [0, 1, 1, 0, 1, 0, 0, 1] ([0, 3].map (ofSample pondTiles)))[0]? = some dry ∧
      dry.state = .error (.error (.layer "water" ⟨"no data"⟩)) ∧
      dry.calls.map Prod.fst = [meadow, water] ∧
      (takeTurns [0, 1, 1, 0, 1, 0, 0, 1] ([0, 3].map (ofSample pondTiles)))[1]? = some wet ∧
      wet.state = .ok (Raster.replicate 2 1 ⟨0, 96, 0, 255⟩) ∧
      wet.calls.map Prod.fst = [meadow, water, waves] := by
  have hsurface : (Pixmap.blank? pondTiles.layout.width.toNat pondTiles.layout.depth.toNat).isSome :=
    rfl
  obtain ⟨halone, hturns⟩ := visible_layers_are_folded pondTiles hsurface
  obtain ⟨hdry, calls, hruns, hsteps⟩ := halone 0
  obtain ⟨hwet, calls', hruns', hsteps'⟩ := halone 3
  obtain ⟨hstate, rfl⟩ := (hsteps 4).2 (Nat.le_refl 4)
  obtain ⟨hstate', rfl⟩ := (hsteps' 4).2 (Nat.le_refl 4)
  have hfails : FailsFirst 0 (shown pondTiles.layers) pondTiles.ground [meadow] water
      (pondTiles.ground.fill ⟨0, 96, 0, 255⟩) (.error ⟨"no data"⟩) :=
    ⟨⟨[waves], rfl⟩, .cons rfl (.nil _), rfl⟩
  have hdraws : Draws 3 (shown pondTiles.layers) pondTiles.ground
      (pondTiles.ground.fill ⟨0, 96, 0, 255⟩) :=
    .cons rfl (.cons rfl (.cons rfl (.nil _)))
  have himage := (hwet.ok_iff _).2 hdraws
  exact ⟨hsurface, _, _, hturns [0, 3] _ 0 0 rfl,
    hstate.trans ((hdry.error_iff _).2 ⟨_, _, _, _, hfails, rfl⟩), hruns.last_fails _ _ _ _ hfails,
    hturns [0, 3] _ 1 3 rfl, hstate'.trans himage, hruns'.all_of_ok _ himage⟩

end Rasterizer

end WorldMap
