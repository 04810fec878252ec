import TensorOS.Lib.Overwrite
import TensorOS.Syscall.Dispatch

/-!
# The display surface

`display_surface.c` draws into a back buffer and keeps one rectangle that covers what was drawn.
Publishing swaps the back buffer with the front buffer and returns the rectangle, and the caller
copies this part of the new front buffer to the panel (`runtime_display_demo.c`).

The buffers are swapped and never copied, so the back buffer lacks what was drawn in the frame
before. That does not matter where the frame draws over it, nor outside the rectangle. But the
rectangle is a bounding box, and a pixel in it that the frame does not draw is copied as it was two
frames ago (`picture_lost`). The panel shows the picture after every publication exactly if no
publication meets such a pixel with another value than the panel has (`panel_shows_picture`).

Buffers are functions from offsets to pixels. The sums of coordinates and sizes are taken to be
within the range of `int32_t`, as they are for every rectangle on the surface.
-/

namespace TensorOS

/-- `struct display_rect`. -/
structure DisplayRect where
  x : UInt16
  y : UInt16
  width : UInt16
  height : UInt16
  deriving DecidableEq

/-- The pixels of a buffer or of the panel. -/
abbrev Pixels := ℕ → UInt16

/-- `struct display_surface`, without the hooks around the swap. -/
structure DisplaySurface where
  width : UInt16
  height : UInt16
  stride : UInt16
  front : Pixels
  back : Pixels
  dirtyRect : DisplayRect
  dirty : UInt8
  presentCount : UInt32

/-- The clipping of one coordinate and one size to the size of the surface. The `if`s are those of
`display_surface_clip_rect` for this direction. -/
def clipSpan (limit : UInt16) (start size : Int) : Option (Int × Int) :=
  let clippedStart := if start < 0 then 0 else start
  let clippedSize := if start < 0 then size + start else size
  if limit.toNat ≤ clippedStart then none
  else some (clippedStart,
    if limit.toNat < clippedStart + clippedSize then limit.toNat - clippedStart else clippedSize)

/-- `display_surface_clip_rect`. -/
def displaySurfaceClipRect (surface : DisplaySurface) (x y width height : Int) :
    Option DisplayRect :=
  if width ≤ 0 ∨ height ≤ 0 then none
  else
    match clipSpan surface.width x width, clipSpan surface.height y height with
    | some (x, width), some (y, height) =>
      if width ≤ 0 ∨ height ≤ 0 then none
      else some ⟨.ofNat x.toNat, .ofNat y.toNat, .ofNat width.toNat, .ofNat height.toNat⟩
    | _, _ => none

/-- `display_surface_init`. -/
def displaySurfaceInit (width height stride : UInt16) (front back : Pixels) : DisplaySurface where
  width := width
  height := height
  stride := stride
  front := front
  back := back
  dirtyRect := ⟨0, 0, 0, 0⟩
  dirty := 0
  presentCount := 0

/-- `display_surface_clear_damage`. -/
def displaySurfaceClearDamage (surface : DisplaySurface) : DisplaySurface :=
  { surface with dirty := 0, dirtyRect := ⟨0, 0, 0, 0⟩ }

/-- The smallest rectangle around two. The sums are those of `int`, and the results are cut to 16
bits. -/
def DisplayRect.union (a b : DisplayRect) : DisplayRect :=
  let x0 := if a.x < b.x then a.x else b.x
  let y0 := if a.y < b.y then a.y else b.y
  let x1 : UInt16 := .ofNat (max (a.x.toNat + a.width.toNat) (b.x.toNat + b.width.toNat))
  let y1 : UInt16 := .ofNat (max (a.y.toNat + a.height.toNat) (b.y.toNat + b.height.toNat))
  ⟨x0, y0, x1 - x0, y1 - y0⟩

/-- `display_surface_mark_dirty`. -/
def displaySurfaceMarkDirty (surface : DisplaySurface) (x y width height : Int) :
    Int × DisplaySurface :=
  match displaySurfaceClipRect surface x y width height with
  | none => (Status.einval, surface)
  | some clipped =>
    if surface.dirty = 0 then (Status.ok, { surface with dirtyRect := clipped, dirty := 1 })
    else (Status.ok, { surface with dirtyRect := surface.dirtyRect.union clipped })

/-- The offset of a pixel of a rectangle. -/
def DisplayRect.offset (rect : DisplayRect) (stride : UInt16) (row col : ℕ) : ℕ :=
  (rect.y.toNat + row) * stride.toNat + rect.x.toNat + col

/-- The two loops over the pixels of a rectangle, each of which gets a color. -/
def drawPixels (rect : DisplayRect) (stride : UInt16) (color : ℕ → ℕ → UInt16) (pixels : Pixels) :
    Pixels :=
  (List.range rect.height.toNat).foldl (fun pixels row ↦
    (List.range rect.width.toNat).foldl (fun pixels col ↦
      Function.update pixels (rect.offset stride row col) (color row col)) pixels) pixels

/-- The end of `display_surface_fill_rect` and `display_surface_blit_rgb565`. -/
def drawClipped (surface : DisplaySurface) (clipped : DisplayRect) (color : ℕ → ℕ → UInt16) :
    Int × DisplaySurface :=
  displaySurfaceMarkDirty
    { surface with back := drawPixels clipped surface.stride color surface.back }
    clipped.x.toNat clipped.y.toNat clipped.width.toNat clipped.height.toNat

/-- `display_surface_fill_rect`. -/
def displaySurfaceFillRect (surface : DisplaySurface) (x y width height : Int) (color : UInt16) :
    Int × DisplaySurface :=
  match displaySurfaceClipRect surface x y width height with
  | none => (Status.einval, surface)
  | some clipped => drawClipped surface clipped fun _ _ ↦ color

/-- The pixel of the source that `display_surface_blit_rgb565` copies to a pixel of the rectangle.
-/
def blitSource (clipped : DisplayRect) (x y : Int) (pixels : Pixels) (sourceStride : UInt16)
    (row col : ℕ) : UInt16 :=
  let sourceX := clipped.x.toNat - x
  let sourceY := clipped.y.toNat - y
  pixels ((sourceY + row).toNat * sourceStride.toNat + sourceX.toNat + col)

/-- `display_surface_blit_rgb565`. The pixels may be null. -/
def displaySurfaceBlitRgb565 (surface : DisplaySurface) (x y width height : Int)
    (pixels : Option Pixels) (sourceStride : UInt16) : Int × DisplaySurface :=
  match pixels, displaySurfaceClipRect surface x y width height with
  | some pixels, some clipped =>
    if sourceStride = 0 then (Status.einval, surface)
    else drawClipped surface clipped (blitSource clipped x y pixels sourceStride)
  | _, _ => (Status.einval, surface)

/-- `display_surface_publish`, with the rectangle and the front buffer when the status is `OK`. -/
def displaySurfacePublish (surface : DisplaySurface) :
    Int × DisplaySurface × Option (DisplayRect × Pixels) :=
  if surface.dirty = 0 then (Status.enoent, surface, none)
  else
    let swapped := { surface with
      front := surface.back
      back := surface.front
      presentCount := surface.presentCount + 1 }
    (Status.ok, displaySurfaceClearDamage swapped, some (surface.dirtyRect, surface.back))

/-- The offset is that of a pixel of the rectangle. -/
def DisplayRect.covers (rect : DisplayRect) (stride : UInt16) (offset : ℕ) : Bool :=
  (List.range rect.height.toNat).any fun row ↦
    (List.range rect.width.toNat).any fun col ↦ rect.offset stride row col = offset

/-- `runtime_display_demo_flush_to_panel`: the rectangle is copied to the panel. -/
def flushToPanel (panel frontPixels : Pixels) (stride : UInt16) (rect : DisplayRect) : Pixels :=
  fun offset ↦ if rect.covers stride offset then frontPixels offset else panel offset

/-! ## Rectangles -/

/-- The rectangle is a part of the surface, and not empty. -/
structure DisplayRect.Within (rect : DisplayRect) (surface : DisplaySurface) : Prop where
  width_pos : 0 < rect.width.toNat
  height_pos : 0 < rect.height.toNat
  right : rect.x.toNat + rect.width.toNat ≤ surface.width.toNat
  bottom : rect.y.toNat + rect.height.toNat ≤ surface.height.toNat

section Rect

variable {surface : DisplaySurface} {rect a b : DisplayRect} {stride : UInt16} {offset : ℕ}

theorem DisplayRect.covers_iff : rect.covers stride offset = true ↔
    ∃ row < rect.height.toNat, ∃ col < rect.width.toNat, rect.offset stride row col = offset := by
  simp [covers]

theorem DisplayRect.covers_of_le (hx : b.x.toNat ≤ a.x.toNat) (hy : b.y.toNat ≤ a.y.toNat)
    (hright : a.x.toNat + a.width.toNat ≤ b.x.toNat + b.width.toNat)
    (hbottom : a.y.toNat + a.height.toNat ≤ b.y.toNat + b.height.toNat)
    (h : a.covers stride offset = true) : b.covers stride offset = true := by
  obtain ⟨row, hrow, col, hcol, rfl⟩ := covers_iff.mp h
  refine covers_iff.mpr ⟨a.y.toNat - b.y.toNat + row, by omega,
    a.x.toNat - b.x.toNat + col, by omega, ?_⟩
  have hrow' : b.y.toNat + (a.y.toNat - b.y.toNat + row) = a.y.toNat + row := by omega
  rw [DisplayRect.offset, DisplayRect.offset, hrow']
  omega

theorem clipSpan_eq_some {limit : UInt16} {start size start' size' : Int}
    (h : clipSpan limit start size = some (start', size')) :
    0 ≤ start' ∧ start' < limit.toNat ∧ start' + size' ≤ limit.toNat := by
  dsimp only [clipSpan] at h
  split_ifs at h <;> simp only [Option.some.injEq, Prod.mk.injEq] at h <;> omega

theorem within_of_clipRect {x y width height : Int}
    (h : displaySurfaceClipRect surface x y width height = some rect) : rect.Within surface := by
  have hw := surface.width.toNat_lt
  have hh := surface.height.toNat_lt
  rw [displaySurfaceClipRect] at h
  split at h
  · cases h
  split at h
  · next x' width' y' height' hx hy =>
    obtain ⟨hx0, hxlt, hxle⟩ := clipSpan_eq_some hx
    obtain ⟨hy0, hylt, hyle⟩ := clipSpan_eq_some hy
    split at h
    · cases h
    · next hsize =>
      cases h
      have hnat : ∀ {n : Int}, 0 ≤ n → n < 2 ^ 16 → (UInt16.ofNat n.toNat).toNat = n.toNat := by
        intro n hn hlt
        rw [UInt16.toNat_ofNat', Nat.mod_eq_of_lt (by omega)]
      refine ⟨?_, ?_, ?_, ?_⟩ <;> dsimp only <;>
        simp (disch := omega) only [hnat] <;> omega
  · cases h

theorem clipSpan_self {limit : UInt16} {start size : ℕ} (hpos : 0 < size)
    (h : start + size ≤ limit.toNat) : clipSpan limit start size = some (↑start, ↑size) := by
  have hstart : ¬ (start : Int) < 0 := by omega
  simp only [clipSpan, if_neg hstart]
  rw [if_neg (by omega), if_neg (by omega)]

theorem DisplayRect.Within.clipRect (h : rect.Within surface) :
    displaySurfaceClipRect surface rect.x.toNat rect.y.toNat rect.width.toNat rect.height.toNat
      = some rect := by
  have hpos : ¬ ((rect.width.toNat : Int) ≤ 0 ∨ (rect.height.toNat : Int) ≤ 0) := by
    have := h.width_pos
    have := h.height_pos
    omega
  rw [displaySurfaceClipRect, if_neg hpos, clipSpan_self h.width_pos h.right,
    clipSpan_self h.height_pos h.bottom]
  dsimp only
  rw [if_neg hpos]
  simp

theorem union_toNat (ha : a.Within surface) (hb : b.Within surface) :
    (a.union b).x.toNat = min a.x.toNat b.x.toNat ∧
      (a.union b).y.toNat = min a.y.toNat b.y.toNat ∧
      (a.union b).x.toNat + (a.union b).width.toNat
        = max (a.x.toNat + a.width.toNat) (b.x.toNat + b.width.toNat) ∧
      (a.union b).y.toNat + (a.union b).height.toNat
        = max (a.y.toNat + a.height.toNat) (b.y.toNat + b.height.toNat) := by
  have hmin : ∀ u v : UInt16, (if u < v then u else v).toNat = min u.toNat v.toNat := by
    intro u v
    split
    · next hlt => exact (min_eq_left (UInt16.le_iff_toNat_le.mp (UInt16.le_of_lt hlt))).symm
    · next hlt =>
      exact (min_eq_right (UInt16.le_iff_toNat_le.mp (UInt16.not_lt.mp hlt))).symm
  have hspan : ∀ {u v : UInt16} {m limit : ℕ}, limit < 2 ^ 16 → m ≤ limit →
      min u.toNat v.toNat ≤ m →
      (if u < v then u else v).toNat + (UInt16.ofNat m - if u < v then u else v).toNat = m := by
    intro u v m limit hlimit hm hle
    have hofNat : (UInt16.ofNat m).toNat = m := by
      rw [UInt16.toNat_ofNat', Nat.mod_eq_of_lt (by omega)]
    have hsub : (if u < v then u else v) ≤ UInt16.ofNat m := by
      rw [UInt16.le_iff_toNat_le, hmin, hofNat]
      exact hle
    rw [UInt16.toNat_sub_of_le _ _ hsub, hofNat, hmin]
    omega
  have hw := surface.width.toNat_lt
  have hh := surface.height.toNat_lt
  refine ⟨hmin _ _, hmin _ _, hspan hw (max_le ha.right hb.right) ?_,
    hspan hh (max_le ha.bottom hb.bottom) ?_⟩
  · omega
  · omega

theorem DisplayRect.Within.union (ha : a.Within surface) (hb : b.Within surface) :
    (a.union b).Within surface := by
  obtain ⟨hx, hy, hright, hbottom⟩ := union_toNat ha hb
  have hwa := ha.width_pos
  have hha := ha.height_pos
  refine ⟨by omega, by omega, ?_, ?_⟩
  · rw [hright]
    exact max_le ha.right hb.right
  · rw [hbottom]
    exact max_le ha.bottom hb.bottom

theorem covers_union (ha : a.Within surface) (hb : b.Within surface)
    (h : a.covers stride offset = true ∨ b.covers stride offset = true) :
    (a.union b).covers stride offset = true := by
  obtain ⟨hx, hy, hright, hbottom⟩ := union_toNat ha hb
  obtain h | h := h
  · exact DisplayRect.covers_of_le (by omega) (by omega) (by omega) (by omega) h
  · exact DisplayRect.covers_of_le (by omega) (by omega) (by omega) (by omega) h

/-- **Drawing overwrites the rectangle.** -/
theorem overwrites_drawPixels (rect : DisplayRect) (stride : UInt16) (color : ℕ → ℕ → UInt16) :
    Overwrites {offset | rect.covers stride offset = true} (drawPixels rect stride color) := by
  have hrow : ∀ row, Overwrites
      {offset | ∃ col ∈ List.range rect.width.toNat,
        offset ∈ ({rect.offset stride row col} : Set ℕ)}
      fun pixels ↦ (List.range rect.width.toNat).foldl (fun pixels col ↦
        Function.update pixels (rect.offset stride row col) (color row col)) pixels :=
    fun row ↦ .foldl fun col _ ↦ .update _ _
  refine (Overwrites.foldl fun row _ ↦ hrow row).congr ?_
  ext offset
  simp only [Set.mem_ofPred_eq, List.mem_range, Set.mem_singleton_iff, DisplayRect.covers_iff]
  constructor
  · rintro ⟨row, hrow, col, hcol, rfl⟩
    exact ⟨row, hrow, col, hcol, rfl⟩
  · rintro ⟨row, hrow, col, hcol, rfl⟩
    exact ⟨row, hrow, col, hcol, rfl⟩

end Rect

/-! ## Runs -/

/-- The calls. -/
inductive DisplayOp
  | fillRect (x y width height : Int) (color : UInt16)
  | blitRgb565 (x y width height : Int) (pixels : Option Pixels) (sourceStride : UInt16)
  | publish

/-- What a call draws: the part of its rectangle on the surface, and the color of each pixel. -/
def DisplayOp.drawing (surface : DisplaySurface) : DisplayOp →
    Option (DisplayRect × (ℕ → ℕ → UInt16))
  | fillRect x y width height color => do
    let clipped ← displaySurfaceClipRect surface x y width height
    some (clipped, fun _ _ ↦ color)
  | blitRgb565 x y width height pixels sourceStride => do
    let pixels ← pixels
    let clipped ← displaySurfaceClipRect surface x y width height
    if sourceStride = 0 then none else some (clipped, blitSource clipped x y pixels sourceStride)
  | publish => none

/-- The surface and the panel; the picture, which is a single buffer that every call draws into; and
the rectangles that were drawn since the last publication. -/
structure DisplayState where
  surface : DisplaySurface
  panel : Pixels
  picture : Pixels
  drawn : List DisplayRect

/-- The surface after a call. -/
def DisplayOp.surface (surface : DisplaySurface) : DisplayOp → DisplaySurface
  | fillRect x y width height color => (displaySurfaceFillRect surface x y width height color).2
  | blitRgb565 x y width height pixels sourceStride =>
    (displaySurfaceBlitRgb565 surface x y width height pixels sourceStride).2
  | publish => (displaySurfacePublish surface).2.1

/-- A call. After a publication the rectangle that it returned is copied to the panel. -/
def DisplayOp.run (op : DisplayOp) (s : DisplayState) : DisplayState :=
  match op with
  | publish =>
    { surface := op.surface s.surface
      panel := match (displaySurfacePublish s.surface).2.2 with
        | none => s.panel
        | some (rect, frontPixels) => flushToPanel s.panel frontPixels s.surface.stride rect
      picture := s.picture
      drawn := [] }
  | fillRect .. | blitRgb565 .. =>
    match op.drawing s.surface with
    | none => { s with surface := op.surface s.surface }
    | some (clipped, color) =>
      { s with
        surface := op.surface s.surface
        picture := drawPixels clipped s.surface.stride color s.picture
        drawn := clipped :: s.drawn }

/-- The pixel was drawn since the last publication. -/
def DisplayState.Drawn (s : DisplayState) (offset : ℕ) : Prop :=
  ∃ rect ∈ s.drawn, rect.covers s.surface.stride offset = true

/-- Every pixel that a publication would copy to the panel was drawn since the last one, or is in
the back buffer as it is on the panel. -/
def DisplayState.NoStalePixel (s : DisplayState) : Prop :=
  s.surface.dirty ≠ 0 → ∀ offset, s.surface.dirtyRect.covers s.surface.stride offset = true →
    ¬ s.Drawn offset → s.surface.back offset = s.panel offset

/-- After each publication the panel shows the picture. -/
def ShowsPicture : List DisplayOp → DisplayState → Prop
  | [], _ => True
  | op :: rest, s =>
    (op = .publish → (op.run s).panel = (op.run s).picture) ∧ ShowsPicture rest (op.run s)

/-- No publication meets a stale pixel. -/
def MeetsNoStalePixel : List DisplayOp → DisplayState → Prop
  | [], _ => True
  | op :: rest, s => (op = .publish → s.NoStalePixel) ∧ MeetsNoStalePixel rest (op.run s)

/-- A new surface whose two buffers and panel hold the same picture. -/
def displayStart (width height stride : UInt16) (picture : Pixels) : DisplayState where
  surface := displaySurfaceInit width height stride picture picture
  panel := picture
  picture := picture
  drawn := []

/-! ## The invariant -/

/-- The picture is what was drawn since the last publication, over what the panel shows, and the
dirty rectangle covers what was drawn. -/
structure PanelFollows (s : DisplayState) : Prop where
  drawn : ∀ offset, s.Drawn offset → s.surface.back offset = s.picture offset
  rest : ∀ offset, ¬ s.Drawn offset → s.picture offset = s.panel offset
  covered : ∀ offset, s.Drawn offset →
    s.surface.dirty ≠ 0 ∧ s.surface.dirtyRect.covers s.surface.stride offset = true
  within : s.surface.dirty ≠ 0 → s.surface.dirtyRect.Within s.surface

section Steps

variable {s : DisplayState} {op : DisplayOp} {clipped : DisplayRect} {color : ℕ → ℕ → UInt16}

theorem within_of_drawing {surface : DisplaySurface}
    (h : op.drawing surface = some (clipped, color)) : clipped.Within surface := by
  cases op with
  | fillRect x y width height c =>
    obtain ⟨r, hr, h⟩ := Option.bind_eq_some_iff.mp h
    cases h
    exact within_of_clipRect hr
  | blitRgb565 x y width height pixels sourceStride =>
    obtain ⟨p, hp, h⟩ := Option.bind_eq_some_iff.mp h
    obtain ⟨r, hr, h⟩ := Option.bind_eq_some_iff.mp h
    split at h
    · cases h
    · cases h
      exact within_of_clipRect hr
  | publish => cases h

theorem surface_of_drawing_eq_none {surface : DisplaySurface} (hop : op ≠ .publish)
    (h : op.drawing surface = none) : op.surface surface = surface := by
  cases op with
  | fillRect x y width height c =>
    cases hclip : displaySurfaceClipRect surface x y width height with
    | none => simp [DisplayOp.surface, displaySurfaceFillRect, hclip]
    | some r => simp [DisplayOp.drawing, hclip] at h
  | blitRgb565 x y width height pixels sourceStride =>
    cases pixels with
    | none => simp [DisplayOp.surface, displaySurfaceBlitRgb565]
    | some p =>
      cases hclip : displaySurfaceClipRect surface x y width height with
      | none => simp [DisplayOp.surface, displaySurfaceBlitRgb565, hclip]
      | some r =>
        have hstride : sourceStride = 0 := by
          by_contra hne
          simp [DisplayOp.drawing, hclip, hne] at h
        simp [DisplayOp.surface, displaySurfaceBlitRgb565, hclip, hstride]
  | publish => exact absurd rfl hop

theorem surface_of_drawing_eq_some {surface : DisplaySurface}
    (h : op.drawing surface = some (clipped, color)) :
    op.surface surface = { surface with
      back := drawPixels clipped surface.stride color surface.back
      dirtyRect := if surface.dirty = 0 then clipped else surface.dirtyRect.union clipped
      dirty := if surface.dirty = 0 then 1 else surface.dirty } := by
  have hwithin := within_of_drawing h
  have hdraw : op.surface surface = (drawClipped surface clipped color).2 := by
    cases op with
    | fillRect x y width height c =>
      obtain ⟨r, hr, h⟩ := Option.bind_eq_some_iff.mp h
      cases h
      simp [DisplayOp.surface, displaySurfaceFillRect, hr]
    | blitRgb565 x y width height pixels sourceStride =>
      obtain ⟨p, rfl, h⟩ := Option.bind_eq_some_iff.mp h
      obtain ⟨r, hr, h⟩ := Option.bind_eq_some_iff.mp h
      split at h
      · cases h
      · next hstride =>
        cases h
        simp [DisplayOp.surface, displaySurfaceBlitRgb565, hr, hstride]
    | publish => cases h
  -- marking clips the rectangle once more, in vain
  have hclip : displaySurfaceClipRect
      { surface with back := drawPixels clipped surface.stride color surface.back }
      clipped.x.toNat clipped.y.toNat clipped.width.toNat clipped.height.toNat = some clipped :=
    hwithin.clipRect
  rw [hdraw, drawClipped, displaySurfaceMarkDirty, hclip]
  dsimp only
  split <;> rfl

theorem run_of_drawing_eq_none (hop : op ≠ .publish) (h : op.drawing s.surface = none) :
    op.run s = s := by
  have hsurface := surface_of_drawing_eq_none hop h
  cases op with
  | fillRect | blitRgb565 => simp only [DisplayOp.run, h, hsurface]
  | publish => exact absurd rfl hop

theorem run_of_drawing_eq_some (h : op.drawing s.surface = some (clipped, color)) :
    op.run s = { s with
      surface := op.surface s.surface
      picture := drawPixels clipped s.surface.stride color s.picture
      drawn := clipped :: s.drawn } := by
  cases op with
  | fillRect | blitRgb565 => simp only [DisplayOp.run, h]
  | publish => cases h

/-- **A drawing keeps the invariant.** -/
theorem PanelFollows.draw (h : PanelFollows s) (hop : op ≠ .publish) : PanelFollows (op.run s) := by
  cases hdrawing : op.drawing s.surface with
  | none => rwa [run_of_drawing_eq_none hop hdrawing]
  | some drawing =>
    obtain ⟨clipped, color⟩ := drawing
    have hwithin := within_of_drawing hdrawing
    have hoverwrites := overwrites_drawPixels clipped s.surface.stride color
    rw [run_of_drawing_eq_some hdrawing, surface_of_drawing_eq_some hdrawing]
    have hdrawn : ∀ offset, DisplayState.Drawn
        { s with
          surface := { s.surface with
            back := drawPixels clipped s.surface.stride color s.surface.back
            dirtyRect := if s.surface.dirty = 0 then clipped else s.surface.dirtyRect.union clipped
            dirty := if s.surface.dirty = 0 then 1 else s.surface.dirty }
          picture := drawPixels clipped s.surface.stride color s.picture
          drawn := clipped :: s.drawn } offset ↔
        clipped.covers s.surface.stride offset = true ∨ s.Drawn offset := by
      intro offset
      simp [DisplayState.Drawn]
    constructor
    · intro offset hoffset
      by_cases hnew : clipped.covers s.surface.stride offset = true
      · exact hoverwrites.agree _ _ hnew
      · have hold := ((hdrawn offset).mp hoffset).resolve_left hnew
        dsimp only
        rw [hoverwrites.frame _ hnew, hoverwrites.frame _ hnew]
        exact h.drawn offset hold
    · intro offset hoffset
      rw [hdrawn, not_or] at hoffset
      dsimp only
      rw [hoverwrites.frame _ hoffset.1]
      exact h.rest offset hoffset.2
    · intro offset hoffset
      dsimp only
      by_cases hdirty : s.surface.dirty = 0
      · rw [if_pos hdirty, if_pos hdirty]
        have hnew := ((hdrawn offset).mp hoffset).resolve_right fun hold ↦
          (h.covered offset hold).1 hdirty
        exact ⟨by decide, hnew⟩
      · rw [if_neg hdirty, if_neg hdirty]
        refine ⟨hdirty, covers_union (h.within hdirty) hwithin ?_⟩
        exact ((hdrawn offset).mp hoffset).symm.imp_left fun hold ↦ (h.covered offset hold).2
    · intro _
      dsimp only
      split
      · exact ⟨hwithin.width_pos, hwithin.height_pos, hwithin.right, hwithin.bottom⟩
      · next hdirty =>
        have hunion := (h.within hdirty).union hwithin
        exact ⟨hunion.width_pos, hunion.height_pos, hunion.right, hunion.bottom⟩

/-- **A publication** shows the picture exactly if it meets no stale pixel. -/
theorem PanelFollows.publish_iff (h : PanelFollows s) :
    (DisplayOp.publish.run s).panel = (DisplayOp.publish.run s).picture ↔ s.NoStalePixel := by
  by_cases hdirty : s.surface.dirty = 0
  · have hrun : (DisplayOp.publish.run s).panel = s.panel := by
      simp [DisplayOp.run, displaySurfacePublish, hdirty]
    rw [hrun]
    refine iff_of_true (funext fun offset ↦ ?_) fun hne ↦ absurd hdirty hne
    exact (h.rest offset fun hoffset ↦ (h.covered offset hoffset).1 hdirty).symm
  · have hrun : (DisplayOp.publish.run s).panel =
        flushToPanel s.panel s.surface.back s.surface.stride s.surface.dirtyRect := by
      simp [DisplayOp.run, displaySurfacePublish, hdirty]
    rw [hrun]
    change _ = s.picture ↔ _
    constructor
    · intro heq _ offset hcovers hoffset
      have hpixel := congrFun heq offset
      rw [flushToPanel, if_pos hcovers] at hpixel
      rw [hpixel, h.rest offset hoffset]
    · intro hstale
      funext offset
      rw [flushToPanel]
      split
      · next hcovers =>
        by_cases hoffset : s.Drawn offset
        · exact h.drawn offset hoffset
        · rw [hstale hdirty offset hcovers hoffset, h.rest offset hoffset]
      · next hcovers =>
        exact (h.rest offset fun hoffset ↦ hcovers (h.covered offset hoffset).2).symm

/-- The next frame starts from a panel that shows the picture. -/
theorem panelFollows_publish
    (h : (DisplayOp.publish.run s).panel = (DisplayOp.publish.run s).picture) :
    PanelFollows (DisplayOp.publish.run s) := by
  have hnone : ∀ offset, ¬ (DisplayOp.publish.run s).Drawn offset := by
    rintro offset ⟨rect, hrect, -⟩
    cases hrect
  have hclean : (DisplayOp.publish.run s).surface.dirty = 0 := by
    simp only [DisplayOp.run, DisplayOp.surface, displaySurfacePublish]
    split
    · next hdirty => exact hdirty
    · rfl
  refine ⟨fun offset hoffset ↦ absurd hoffset (hnone offset), fun offset _ ↦ ?_,
    fun offset hoffset ↦ absurd hoffset (hnone offset), fun hdirty ↦ absurd hclean hdirty⟩
  rw [h]

theorem PanelFollows.showsPicture_iff (h : PanelFollows s) (ops : List DisplayOp) :
    ShowsPicture ops s ↔ MeetsNoStalePixel ops s := by
  induction ops generalizing s with
  | nil => rfl
  | cons op rest ih =>
    rw [ShowsPicture, MeetsNoStalePixel]
    by_cases hop : op = .publish
    · subst hop
      simp only [true_imp_iff]
      rw [h.publish_iff]
      refine and_congr_right fun hstale ↦ ?_
      exact ih (panelFollows_publish (h.publish_iff.mpr hstale))
    · simp only [hop, false_imp_iff, true_and]
      exact ih (h.draw hop)

end Steps

theorem panelFollows_start (width height stride : UInt16) (picture : Pixels) :
    PanelFollows (displayStart width height stride picture) := by
  have hnone : ∀ offset, ¬ (displayStart width height stride picture).Drawn offset := by
    rintro offset ⟨rect, hrect, -⟩
    cases hrect
  exact ⟨fun offset hoffset ↦ absurd hoffset (hnone offset), fun _ _ ↦ rfl,
    fun offset hoffset ↦ absurd hoffset (hnone offset), fun hdirty ↦ absurd rfl hdirty⟩

/-- **The panel shows the picture** after every publication of a run exactly if no publication
meets a stale pixel: one inside the dirty rectangle that was not drawn since the publication
before, and that the back buffer has not as it is on the panel. -/
theorem panel_shows_picture (width height stride : UInt16) (picture : Pixels)
    (ops : List DisplayOp) :
    ShowsPicture ops (displayStart width height stride picture) ↔
      MeetsNoStalePixel ops (displayStart width height stride picture) := by
  exact (panelFollows_start width height stride picture).showsPicture_iff ops

/-- The drawings of every published frame fill the dirty rectangle. -/
def FillsItsFrames : List DisplayOp → DisplayState → Prop
  | [], _ => True
  | op :: rest, s =>
    (op = .publish → s.surface.dirty ≠ 0 → ∀ offset,
      s.surface.dirtyRect.covers s.surface.stride offset = true → s.Drawn offset) ∧
    FillsItsFrames rest (op.run s)

theorem FillsItsFrames.meetsNoStalePixel {ops : List DisplayOp} {s : DisplayState}
    (h : FillsItsFrames ops s) : MeetsNoStalePixel ops s := by
  induction ops generalizing s with
  | nil => trivial
  | cons op rest ih =>
    refine ⟨fun hop hdirty offset hcovers hstale ↦ ?_, ih h.2⟩
    exact absurd (h.1 hop hdirty offset hcovers) hstale

/-- Frames that fill their bounding boxes are shown as they were drawn. -/
theorem FillsItsFrames.showsPicture {width height stride : UInt16} {picture : Pixels}
    {ops : List DisplayOp} (h : FillsItsFrames ops (displayStart width height stride picture)) :
    ShowsPicture ops (displayStart width height stride picture) :=
  ((panelFollows_start width height stride picture).showsPicture_iff ops).mpr h.meetsNoStalePixel

/-- **The picture is lost**: on a surface of three pixels the middle one is drawn and published,
and then the two others. The middle one is in the rectangle of the second frame, but not in its
buffer. -/
theorem picture_lost : ¬ ShowsPicture
    [.fillRect 1 0 1 1 7, .publish, .fillRect 0 0 1 1 8, .fillRect 2 0 1 1 9, .publish]
    (displayStart 3 1 3 fun _ ↦ 0) := by
  intro h
  have hpixel := congrFun (h.2.2.2.2.1 rfl) 1
  revert hpixel
  decide +kernel

end TensorOS
