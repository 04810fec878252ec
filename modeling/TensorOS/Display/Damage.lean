import TensorOS.Display.Clip
import TensorOS.Lib.Transition

/-!
# Drawing and damage in the arithmetic of the target

The calls of `display_surface.c` with its own arithmetic: coordinates are `int32_t`, whose
operations must not overflow, and offsets into the buffers are `uint32_t` and wrap. Every assignment
to the back buffer is recorded. As long as the far corners of the rectangles are in range, and the
source of a blit is addressable, nothing overflows and nothing wraps; a call draws the part of its
rectangle that is on the surface and nothing else, and the dirty rectangle contains every pixel that
was assigned since the last publication.
-/

namespace TensorOS

/-! ## The source -/

/-- `display_surface_mark_dirty`. -/
def displaySurfaceMarkDirtyInt32 (surface : DisplaySurface) (x y width height : Int) :
    Except Undefined (Int × DisplaySurface) := do
  match ← displaySurfaceClipRectInt32 surface x y width height with
  | none => .ok (Status.einval, surface)
  | some clipped =>
    if surface.dirty = 0 then .ok (Status.ok, { surface with dirtyRect := clipped, dirty := 1 })
    else .ok (Status.ok, { surface with dirtyRect := surface.dirtyRect.union clipped })

/-- The offset of a pixel of a rectangle, as `uint32_t`. -/
def DisplayRect.offset32 (rect : DisplayRect) (stride : UInt16) (row col : ℕ) : UInt32 :=
  UInt32.ofNat (rect.y.toNat + row) * stride.toUInt32 + rect.x.toUInt32 + UInt32.ofNat col

/-- The assignments of the loops of `display_surface_fill_rect`, in their order. -/
def fillAssignments (clipped : DisplayRect) (stride color : UInt16) : List (ℕ × UInt16) :=
  (List.range clipped.height.toNat).flatMap fun row ↦
    (List.range clipped.width.toNat).map fun col ↦
      ((clipped.offset32 stride row col).toNat, color)

/-- The assignments of the loops of `display_surface_blit_rgb565`, in their order. -/
def blitAssignments (clipped : DisplayRect) (stride : UInt16) (x y : Int) (pixels : Pixels)
    (sourceStride : UInt16) : Except Undefined (List (ℕ × UInt16)) := do
  let sourceX ← checkInt32 (clipped.x.toNat - x)
  let sourceY ← checkInt32 (clipped.y.toNat - y)
  let rows ← (List.range clipped.height.toNat).mapM fun (row : ℕ) ↦ do
    let sourceRow ← checkInt32 (sourceY + row)
    let offset := UInt32.ofInt sourceRow * sourceStride.toUInt32 + UInt32.ofInt sourceX
    .ok ((List.range clipped.width.toNat).map fun col ↦
      ((clipped.offset32 stride row col).toNat, pixels (offset + UInt32.ofNat col).toNat))
  .ok rows.flatten

/-- The assignments are made one after the other. -/
def assignPixels (pixels : Pixels) (assignments : List (ℕ × UInt16)) : Pixels :=
  assignments.foldl (fun pixels assignment ↦
    Function.update pixels assignment.1 assignment.2) pixels

/-- A surface, with the offsets that were assigned to since the last publication. -/
structure DrawState where
  surface : DisplaySurface
  written : List ℕ

/-- The end of `display_surface_fill_rect` and `display_surface_blit_rgb565`. -/
def drawAssignments (s : DrawState) (clipped : DisplayRect) (assignments : List (ℕ × UInt16)) :
    Except Undefined (Int × DrawState) := do
  let drawn := { s.surface with back := assignPixels s.surface.back assignments }
  let (status, surface) ← displaySurfaceMarkDirtyInt32 drawn clipped.x.toNat clipped.y.toNat
    clipped.width.toNat clipped.height.toNat
  .ok (status, ⟨surface, assignments.map Prod.fst ++ s.written⟩)

/-- `display_surface_fill_rect`. -/
def displaySurfaceFillRectInt32 (s : DrawState) (x y width height : Int) (color : UInt16) :
    Except Undefined (Int × DrawState) := do
  match ← displaySurfaceClipRectInt32 s.surface x y width height with
  | none => .ok (Status.einval, s)
  | some clipped => drawAssignments s clipped (fillAssignments clipped s.surface.stride color)

/-- `display_surface_blit_rgb565`. The pixels may be null. -/
def displaySurfaceBlitRgb565Int32 (s : DrawState) (x y width height : Int) (pixels : Option Pixels)
    (sourceStride : UInt16) : Except Undefined (Int × DrawState) :=
  match pixels with
  | none => .ok (Status.einval, s)
  | some pixels =>
    if sourceStride = 0 then .ok (Status.einval, s)
    else do
      match ← displaySurfaceClipRectInt32 s.surface x y width height with
      | none => .ok (Status.einval, s)
      | some clipped =>
        let assignments ← blitAssignments clipped s.surface.stride x y pixels sourceStride
        drawAssignments s clipped assignments

/-- The calls. -/
inductive DrawCall
  | fillRect (x y width height : Int32) (color : UInt16)
  | blitRgb565 (x y width height : Int32) (pixels : Option Pixels) (sourceStride : UInt16)
  | markDirty (x y width height : Int32)
  | publish

/-- A call, with its status. -/
def DrawCall.run (s : DrawState) : DrawCall → Except Undefined (Int × DrawState)
  | fillRect x y width height color =>
    displaySurfaceFillRectInt32 s x.toInt y.toInt width.toInt height.toInt color
  | blitRgb565 x y width height pixels sourceStride =>
    displaySurfaceBlitRgb565Int32 s x.toInt y.toInt width.toInt height.toInt pixels sourceStride
  | markDirty x y width height => do
    let (status, surface) ←
      displaySurfaceMarkDirtyInt32 s.surface x.toInt y.toInt width.toInt height.toInt
    .ok (status, { s with surface := surface })
  | publish =>
    let (status, surface, _) := displaySurfacePublish s.surface
    .ok (status, ⟨surface, if status = Status.ok then [] else s.written⟩)

/-! ## What the callers keep to -/

/-- The far corner of the rectangle is in range. -/
def CornerFits (x y width height : Int32) : Prop :=
  IsInt32 (x.toInt + width.toInt) ∧ IsInt32 (y.toInt + height.toInt)

/-- The rectangle is in range, and the source of a blit has rows of its width and is addressable. -/
def DrawCall.Fits : DrawCall → Prop
  | fillRect x y width height _ => CornerFits x y width height
  | blitRgb565 x y width height _ sourceStride => CornerFits x y width height ∧
    width.toInt ≤ sourceStride.toNat ∧ height.toInt * sourceStride.toNat < 2 ^ 32
  | markDirty x y width height => CornerFits x y width height
  | publish => True

/-! ## Assignments -/

section Assignments

variable {surface : DisplaySurface} {rect : DisplayRect} {stride : UInt16} {pixels : Pixels}
  {color : ℕ → ℕ → UInt16}

theorem offset_toNat {line stride start col : ℕ} (h : line * stride + start + col < 2 ^ 32) :
    (UInt32.ofNat line * UInt32.ofNat stride + UInt32.ofNat start + UInt32.ofNat col).toNat =
      line * stride + start + col := by
  rw [← UInt32.ofNat_mul, ← UInt32.ofNat_add, ← UInt32.ofNat_add, UInt32.toNat_ofNat',
    Nat.mod_eq_of_lt h]

/-- **The offsets do not wrap.** -/
theorem offset32_toNat (h : rect.Within surface) (hstride : surface.width.toNat ≤ stride.toNat)
    {row col : ℕ} (hrow : row < rect.height.toNat) (hcol : col < rect.width.toNat) :
    (rect.offset32 stride row col).toNat = rect.offset stride row col := by
  have hh := surface.height.toNat_lt
  have hs := stride.toNat_lt
  have hbottom := h.bottom
  have hright := h.right
  have hmul : (rect.y.toNat + row) * stride.toNat ≤ (2 ^ 16 - 2) * (2 ^ 16 - 1) :=
    Nat.mul_le_mul (by omega) (by omega)
  rw [DisplayRect.offset32, DisplayRect.offset, ← UInt32.ofNat_uInt16ToNat,
    ← UInt32.ofNat_uInt16ToNat, offset_toNat]
  omega

theorem place_injective {width i j i' j' : ℕ} (hi : i < width) (hi' : i' < width)
    (h : j * width + i = j' * width + i') : i = i' ∧ j = j' := by
  have hline : ∀ {i j}, i < width → (j * width + i) / width = j ∧ (j * width + i) % width = i := by
    intro i j hi
    rw [Nat.mul_comm]
    exact ⟨by rw [Nat.mul_add_div (by omega), Nat.div_eq_of_lt hi, Nat.add_zero],
      by rw [Nat.mul_add_mod, Nat.mod_eq_of_lt hi]⟩
  obtain ⟨hj, hi⟩ := hline (j := j) hi
  obtain ⟨hj', hi'⟩ := hline (j := j') hi'
  rw [h] at hj hi
  exact ⟨hi.symm.trans hi', hj.symm.trans hj'⟩

theorem offset_injective (hright : rect.x.toNat + rect.width.toNat ≤ stride.toNat)
    {row col row' col' : ℕ} (hcol : col < rect.width.toNat) (hcol' : col' < rect.width.toNat)
    (h : rect.offset stride row col = rect.offset stride row' col') : row = row' ∧ col = col' := by
  rw [DisplayRect.offset, DisplayRect.offset, Nat.add_assoc, Nat.add_assoc] at h
  have hplace := place_injective (by omega) (by omega) h
  omega

/-- The assignments to the pixels of a rectangle. -/
def rectAssignments (rect : DisplayRect) (stride : UInt16) (color : ℕ → ℕ → UInt16) :
    List (ℕ × UInt16) :=
  (List.range rect.height.toNat).flatMap fun row ↦
    (List.range rect.width.toNat).map fun col ↦ (rect.offset stride row col, color row col)

theorem mem_rectAssignments {offset : ℕ} {c : UInt16} :
    (offset, c) ∈ rectAssignments rect stride color ↔
      ∃ row < rect.height.toNat, ∃ col < rect.width.toNat,
        rect.offset stride row col = offset ∧ color row col = c := by
  simp [rectAssignments]

theorem assignPixels_rectAssignments :
    assignPixels pixels (rectAssignments rect stride color)
      = drawPixels rect stride color pixels := by
  rw [assignPixels, rectAssignments, List.foldl_flatMap]
  simp only [List.foldl_map]
  rfl

theorem assignPixels_eq {assignments : List (ℕ × UInt16)} {offset : ℕ} {c : UInt16}
    (hmem : (offset, c) ∈ assignments)
    (honly : ∀ c', (offset, c') ∈ assignments → c' = c) :
    assignPixels pixels assignments offset = c := by
  have hloop : ∀ (l : List (ℕ × UInt16)) (pixels : Pixels),
      (∀ c', (offset, c') ∈ l → c' = c) → (offset, c) ∈ l ∨ pixels offset = c →
        assignPixels pixels l offset = c := by
    intro l
    induction l with
    | nil => exact fun pixels _ h ↦ h.resolve_left List.not_mem_nil
    | cons assignment l ih =>
      intro pixels honly h
      refine ih _ (fun c' hc' ↦ honly c' (List.mem_cons_of_mem _ hc')) ?_
      by_cases hrest : (offset, c) ∈ l
      · exact Or.inl hrest
      refine Or.inr ?_
      dsimp only
      by_cases hhere : assignment.1 = offset
      · rw [← hhere, Function.update_self]
        exact honly _ (hhere ▸ List.mem_cons_self)
      · rw [Function.update_of_ne (Ne.symm hhere)]
        refine h.resolve_left fun hmem ↦ ?_
        obtain rfl | hmem := List.mem_cons.mp hmem
        · exact hhere rfl
        · exact hrest hmem
  exact hloop assignments pixels honly (Or.inl hmem)

theorem UInt32.ofInt_natCast (n : ℕ) : UInt32.ofInt n = UInt32.ofNat n := by
  refine UInt32.toNat_inj.mp ?_
  rw [UInt32.ofInt, UInt32.toNat_ofNat', UInt32.toNat_ofNat']
  change ((n : Int) % (2 ^ 32 : ℕ)).toNat % 2 ^ 32 = n % 2 ^ 32
  omega

theorem fillAssignments_eq (h : rect.Within surface)
    (hstride : surface.width.toNat ≤ stride.toNat) (c : UInt16) :
    fillAssignments rect stride c = rectAssignments rect stride fun _ _ ↦ c := by
  refine List.flatMap_congr fun row hrow ↦ List.map_congr_left fun col hcol ↦ ?_
  rw [offset32_toNat h hstride (List.mem_range.mp hrow) (List.mem_range.mp hcol)]

/-- **The source of a blit** is read where it should be. -/
theorem blitAssignments_eq {x y width height : Int} (hstride : surface.width.toNat ≤ stride.toNat)
    (hwidth : IsInt32 width) (hheight : IsInt32 height)
    (hclip : displaySurfaceClipRect surface x y width height = some rect) {sourceStride : UInt16}
    (hrows : width ≤ sourceStride.toNat) (hsource : height * sourceStride.toNat < 2 ^ 32) :
    blitAssignments rect stride x y pixels sourceStride =
      .ok (rectAssignments rect stride (blitSource rect x y pixels sourceStride)) := by
  obtain ⟨-, hleft, htop, hw, hh⟩ := clipRect_eq_some hclip
  have hwithin := within_of_clipRect hclip
  have hwidth' := hwidth.2
  have hheight' := hheight.2
  have hpos := hwithin.width_pos
  have hpos' := hwithin.height_pos
  obtain ⟨sourceX, hsourceX⟩ : ∃ n : ℕ, rect.x.toNat - x = n :=
    Int.eq_ofNat_of_zero_le (by omega)
  obtain ⟨sourceY, hsourceY⟩ : ∃ n : ℕ, rect.y.toNat - y = n :=
    Int.eq_ofNat_of_zero_le (by omega)
  -- a row of the rectangle is copied from a row of the source
  have hrow : ∀ row ∈ List.range rect.height.toNat, (do
      let sourceRow ← checkInt32 ((sourceY : Int) + (row : ℕ))
      let offset := UInt32.ofInt sourceRow * sourceStride.toUInt32 + UInt32.ofInt sourceX
      .ok ((List.range rect.width.toNat).map fun col ↦
        ((rect.offset32 stride row col).toNat, pixels (offset + UInt32.ofNat col).toNat))) =
      (.ok ((List.range rect.width.toNat).map fun col ↦ (rect.offset stride row col,
        blitSource rect x y pixels sourceStride row col)) : Except Undefined _) := by
    intro row hrow
    have hrow := List.mem_range.mp hrow
    rw [checkInt32_eq_ok ⟨by omega, by omega⟩, ok_bind]
    refine congrArg _ (List.map_congr_left fun col hcol ↦ ?_)
    have hcol := List.mem_range.mp hcol
    have hlines : ((sourceY + row + 1 : ℕ) : Int) * sourceStride.toNat ≤
        height * sourceStride.toNat := Int.mul_le_mul_of_nonneg_right (by omega) (by omega)
    have hroom : (sourceY + row) * sourceStride.toNat + sourceX + col < 2 ^ 32 := by
      push_cast at hlines
      rw [Int.add_mul] at hlines
      zify
      omega
    rw [offset32_toNat hwithin hstride hrow hcol, blitSource, hsourceX, hsourceY, ← Int.natCast_add,
      UInt32.ofInt_natCast, UInt32.ofInt_natCast, ← UInt32.ofNat_uInt16ToNat, offset_toNat hroom]
    rfl
  rw [blitAssignments, hsourceX, hsourceY, checkInt32_eq_ok ⟨by omega, by omega⟩, ok_bind,
    checkInt32_eq_ok ⟨by omega, by omega⟩, ok_bind, mapM_eq_ok hrow, ok_bind, rectAssignments,
    List.flatMap_def]

end Assignments

/-! ## What the calls do -/

section Calls

variable {s : DrawState} {clipped : DisplayRect} {color : ℕ → ℕ → UInt16}
  {x y width height : Int32}

theorem CornerFits.clip (h : CornerFits x y width height) (surface : DisplaySurface) :
    displaySurfaceClipRectInt32 surface x.toInt y.toInt width.toInt height.toInt =
      .ok (displaySurfaceClipRect surface x.toInt y.toInt width.toInt height.toInt) := by
  rw [clipRectInt32_eq (isInt32_toInt x) (isInt32_toInt y) (isInt32_toInt width)
    (isInt32_toInt height), if_neg]
  rintro ⟨-, -, -, -, hright | hbottom⟩
  · exact not_lt.mpr hright h.1.2
  · exact not_lt.mpr hbottom h.2.2

/-- The surface when a rectangle is marked. -/
def DisplaySurface.marked (surface : DisplaySurface) (clipped : DisplayRect) : DisplaySurface :=
  { surface with
    dirtyRect := if surface.dirty = 0 then clipped else surface.dirtyRect.union clipped
    dirty := if surface.dirty = 0 then 1 else surface.dirty }

/-- The state when a rectangle is drawn. -/
def DrawState.drawn (s : DrawState) (clipped : DisplayRect) (color : ℕ → ℕ → UInt16) :
    DrawState where
  surface := { s.surface with
    back := drawPixels clipped s.surface.stride color s.surface.back }.marked clipped
  written := (rectAssignments clipped s.surface.stride color).map Prod.fst ++ s.written

theorem markDirtyInt32_within {surface : DisplaySurface} (h : clipped.Within surface) :
    displaySurfaceMarkDirtyInt32 surface clipped.x.toNat clipped.y.toNat clipped.width.toNat
      clipped.height.toNat = .ok (Status.ok, surface.marked clipped) := by
  have hsmall : ∀ n : UInt16, IsInt32 n.toNat := by
    intro n
    have hn := n.toNat_lt
    exact ⟨by omega, by omega⟩
  have hright := h.right
  have hbottom := h.bottom
  have hw := surface.width.toNat_lt
  have hh := surface.height.toNat_lt
  rw [displaySurfaceMarkDirtyInt32, clipRectInt32_eq (hsmall _) (hsmall _) (hsmall _) (hsmall _),
    if_neg (by rintro ⟨-, -, -, -, hlarge⟩; omega), ok_bind, h.clipRect]
  dsimp only [DisplaySurface.marked]
  split <;> rfl

theorem drawAssignments_eq (h : clipped.Within s.surface) :
    drawAssignments s clipped (rectAssignments clipped s.surface.stride color) =
      .ok (Status.ok, s.drawn clipped color) := by
  have hwithin : clipped.Within { s.surface with
      back := drawPixels clipped s.surface.stride color s.surface.back } :=
    ⟨h.width_pos, h.height_pos, h.right, h.bottom⟩
  rw [drawAssignments, assignPixels_rectAssignments, markDirtyInt32_within hwithin]
  rfl

/-- **What a call does** that keeps to the conditions: it is refused, or it draws a part of its
rectangle, or it marks one, or it publishes. -/
inductive DrawStep (s : DrawState) : DrawCall → Int → DrawState → Prop
  | refused {call : DrawCall} : call ≠ .publish → DrawStep s call Status.einval s
  | fill {x y width height : Int32} {c : UInt16} {clipped : DisplayRect} :
      displaySurfaceClipRect s.surface x.toInt y.toInt width.toInt height.toInt = some clipped →
      DrawStep s (.fillRect x y width height c) Status.ok (s.drawn clipped fun _ _ ↦ c)
  | blit {x y width height : Int32} {pixels : Pixels} {sourceStride : UInt16}
      {clipped : DisplayRect} :
      displaySurfaceClipRect s.surface x.toInt y.toInt width.toInt height.toInt = some clipped →
      DrawStep s (.blitRgb565 x y width height (some pixels) sourceStride) Status.ok
        (s.drawn clipped (blitSource clipped x.toInt y.toInt pixels sourceStride))
  | mark {x y width height : Int32} {clipped : DisplayRect} :
      displaySurfaceClipRect s.surface x.toInt y.toInt width.toInt height.toInt = some clipped →
      DrawStep s (.markDirty x y width height) Status.ok
        { s with surface := s.surface.marked clipped }
  | clean : s.surface.dirty = 0 → DrawStep s .publish Status.enoent s
  | publish : s.surface.dirty ≠ 0 →
      DrawStep s .publish Status.ok ⟨(displaySurfacePublish s.surface).2.1, []⟩

/-- **Every call returns**, and does one of these things. -/
theorem DrawCall.Fits.step {call : DrawCall} (h : call.Fits)
    (hstride : s.surface.width.toNat ≤ s.surface.stride.toNat) :
    ∃ status s', call.run s = .ok (status, s') ∧ DrawStep s call status s' := by
  cases call with
  | fillRect x y width height c =>
    rw [DrawCall.run, displaySurfaceFillRectInt32, CornerFits.clip h, ok_bind]
    cases hclip : displaySurfaceClipRect s.surface x.toInt y.toInt width.toInt height.toInt with
    | none => exact ⟨_, _, rfl, .refused (by simp)⟩
    | some clipped =>
      have hwithin := within_of_clipRect hclip
      refine ⟨_, _, ?_, .fill hclip⟩
      dsimp only
      rw [fillAssignments_eq hwithin hstride, drawAssignments_eq hwithin]
  | blitRgb565 x y width height pixels sourceStride =>
    obtain ⟨hfits, hrows, hsource⟩ := h
    cases pixels with
    | none => exact ⟨_, _, rfl, .refused (by simp)⟩
    | some pixels =>
      rw [DrawCall.run, displaySurfaceBlitRgb565Int32]
      by_cases hzero : sourceStride = 0
      · rw [if_pos hzero]
        exact ⟨_, _, rfl, .refused (by simp)⟩
      rw [if_neg hzero, hfits.clip, ok_bind]
      cases hclip : displaySurfaceClipRect s.surface x.toInt y.toInt width.toInt height.toInt with
      | none => exact ⟨_, _, rfl, .refused (by simp)⟩
      | some clipped =>
        refine ⟨_, _, ?_, .blit hclip⟩
        dsimp only
        rw [blitAssignments_eq hstride (isInt32_toInt width)
          (isInt32_toInt height) hclip hrows hsource, ok_bind,
          drawAssignments_eq (within_of_clipRect hclip)]
  | markDirty x y width height =>
    rw [DrawCall.run, displaySurfaceMarkDirtyInt32, CornerFits.clip h, ok_bind]
    cases hclip : displaySurfaceClipRect s.surface x.toInt y.toInt width.toInt height.toInt with
    | none => exact ⟨_, _, rfl, .refused (by simp)⟩
    | some clipped =>
      refine ⟨_, _, ?_, .mark hclip⟩
      dsimp only [DisplaySurface.marked]
      split <;> rfl
  | publish =>
    rw [DrawCall.run]
    by_cases hdirty : s.surface.dirty = 0
    · refine ⟨_, _, ?_, .clean hdirty⟩
      rw [displaySurfacePublish, if_pos hdirty]
      rfl
    · refine ⟨_, _, ?_, .publish hdirty⟩
      rw [displaySurfacePublish, if_neg hdirty]
      rfl

/-! ## Frame -/

/-- **The call draws the part of the rectangle that is on the surface**, in the colors given for its
pixels, and nothing else: no other place of the back buffer, in particular none between the width
and the stride, and not the front buffer. -/
structure DrawsExactly (surface surface' : DisplaySurface) (x y width height : Int)
    (color : ℕ → ℕ → UInt16) : Prop where
  inside : ∀ i j : ℕ, ((i : Int), (j : Int)) ∈ pixelsOf x y width height ∩ surface.pixels →
    surface'.back (j * surface.stride.toNat + i) = color i j
  outside : ∀ offset, (∀ i j : ℕ, ((i : Int), (j : Int)) ∈
      pixelsOf x y width height ∩ surface.pixels → offset ≠ j * surface.stride.toNat + i) →
    surface'.back offset = surface.back offset
  padding : ∀ i j : ℕ, surface.width.toNat ≤ i → i < surface.stride.toNat →
    surface'.back (j * surface.stride.toNat + i) = surface.back (j * surface.stride.toNat + i)
  frame : surface' = { surface with
    back := surface'.back, dirtyRect := surface'.dirtyRect, dirty := surface'.dirty }

theorem drawsExactly_drawn {x y width height : Int} {target : ℕ → ℕ → UInt16}
    (hstride : s.surface.width.toNat ≤ s.surface.stride.toNat)
    (hclip : displaySurfaceClipRect s.surface x y width height = some clipped)
    (hcolor : ∀ row col, color row col = target (clipped.x.toNat + col) (clipped.y.toNat + row)) :
    DrawsExactly s.surface (s.drawn clipped color).surface x y width height target := by
  have hwithin := within_of_clipRect hclip
  have hright := hwithin.right
  have hregion := clipRect_pixels hclip
  have hpixel : ∀ {i j : ℕ}, ((i : Int), (j : Int)) ∈ pixelsOf x y width height ∩ s.surface.pixels ↔
      (clipped.x.toNat ≤ i ∧ i < clipped.x.toNat + clipped.width.toNat) ∧
        clipped.y.toNat ≤ j ∧ j < clipped.y.toNat + clipped.height.toNat := by
    intro i j
    rw [← hregion, DisplayRect.pixels, mem_pixelsOf]
    omega
  have hback : (s.drawn clipped color).surface.back =
      drawPixels clipped s.surface.stride color s.surface.back := rfl
  have houtside : ∀ offset, (∀ i j : ℕ, ((i : Int), (j : Int)) ∈
      pixelsOf x y width height ∩ s.surface.pixels → offset ≠ j * s.surface.stride.toNat + i) →
      (s.drawn clipped color).surface.back offset = s.surface.back offset := by
    intro offset hoffset
    rw [hback]
    refine (overwrites_drawPixels clipped s.surface.stride color).frame _ fun hcovers ↦ ?_
    obtain ⟨row, hrow, col, hcol, rfl⟩ := DisplayRect.covers_iff.mp hcovers
    refine hoffset (clipped.x.toNat + col) (clipped.y.toNat + row) (hpixel.mpr (by omega)) ?_
    rw [DisplayRect.offset, Nat.add_assoc]
  refine ⟨fun i j hmem ↦ ?_, houtside, fun i j hi hlt ↦ houtside _ fun i' j' hmem heq ↦ ?_, rfl⟩
  · obtain ⟨⟨hleft, hi⟩, htop, hj⟩ := hpixel.mp hmem
    obtain ⟨col, rfl⟩ := Nat.exists_eq_add_of_le hleft
    obtain ⟨row, rfl⟩ := Nat.exists_eq_add_of_le htop
    rw [hback, ← assignPixels_rectAssignments, ← hcolor, ← Nat.add_assoc]
    refine assignPixels_eq (mem_rectAssignments.mpr ⟨row, by omega, col, by omega, rfl, rfl⟩) ?_
    intro c hc
    obtain ⟨row', hrow', col', hcol', heq, rfl⟩ := mem_rectAssignments.mp hc
    obtain ⟨rfl, rfl⟩ := offset_injective (hright.trans hstride) hcol' (by omega) heq
    rfl
  · obtain ⟨⟨-, hi'⟩, -⟩ := hpixel.mp hmem
    obtain ⟨rfl, -⟩ := place_injective hlt (by omega) heq
    omega

/-- The effect of a call on the buffers when it succeeds. -/
def DrawCall.Effect (surface surface' : DisplaySurface) : DrawCall → Prop
  | fillRect x y width height c =>
    DrawsExactly surface surface' x.toInt y.toInt width.toInt height.toInt fun _ _ ↦ c
  | blitRgb565 x y width height pixels sourceStride => ∃ source ∈ pixels,
    DrawsExactly surface surface' x.toInt y.toInt width.toInt height.toInt fun i j ↦
      source ((j - y.toInt).toNat * sourceStride.toNat + (i - x.toInt).toNat)
  | markDirty .. => surface'.front = surface.front ∧ surface'.back = surface.back
  | publish => surface'.front = surface.back ∧ surface'.back = surface.front

theorem DrawStep.effect {call : DrawCall} {status : Int} {s' : DrawState}
    (h : DrawStep s call status s') (hstride : s.surface.width.toNat ≤ s.surface.stride.toNat) :
    (status = Status.ok → call.Effect s.surface s'.surface) ∧ (status ≠ Status.ok → s' = s) := by
  cases h with
  | refused => exact ⟨fun h ↦ absurd h (by decide), fun _ ↦ rfl⟩
  | clean => exact ⟨fun h ↦ absurd h (by decide), fun _ ↦ rfl⟩
  | fill hclip =>
    exact ⟨fun _ ↦ drawsExactly_drawn hstride hclip fun _ _ ↦ rfl, fun h ↦ absurd rfl h⟩
  | @blit x y width height pixels sourceStride clipped hclip =>
    obtain ⟨-, hleft, htop, -⟩ := clipRect_eq_some hclip
    refine ⟨fun _ ↦ ⟨pixels, rfl, drawsExactly_drawn hstride hclip fun row col ↦ ?_⟩,
      fun h ↦ absurd rfl h⟩
    -- the source is read at the same place relative to its origin
    rw [blitSource]
    have hcol : (clipped.x.toNat - x.toInt).toNat + col =
        ((clipped.x.toNat + col : ℕ) - x.toInt).toNat := by omega
    have hrow : (clipped.y.toNat - y.toInt + row).toNat =
        ((clipped.y.toNat + row : ℕ) - y.toInt).toNat := by omega
    rw [Nat.add_assoc, hcol, hrow]
  | mark hclip => exact ⟨fun _ ↦ ⟨rfl, rfl⟩, fun h ↦ absurd rfl h⟩
  | publish hdirty =>
    refine ⟨fun _ ↦ ?_, fun h ↦ absurd rfl h⟩
    rw [displaySurfacePublish, if_neg hdirty]
    exact ⟨rfl, rfl⟩

/-! ## Damage -/

/-- **The damage**: a clean surface has nothing to show, and the rectangle of a dirty one is on the
surface and covers what was written. -/
structure Damaged (s : DrawState) : Prop where
  clean : s.surface.dirty = 0 → s.surface.dirtyRect = ⟨0, 0, 0, 0⟩ ∧ s.written = []
  within : s.surface.dirty ≠ 0 → s.surface.dirtyRect.Within s.surface
  covered : ∀ offset ∈ s.written, s.surface.dirty ≠ 0 ∧
    s.surface.dirtyRect.covers s.surface.stride offset = true

/-- A rectangle is marked that covers what is written in addition. -/
theorem Damaged.mark (h : Damaged s) {surface : DisplaySurface} {written : List ℕ}
    (hwithin : clipped.Within s.surface)
    (hsurface : ∃ back, surface = { s.surface with back := back }.marked clipped)
    (hwritten : ∀ offset ∈ written,
      clipped.covers s.surface.stride offset = true ∨ offset ∈ s.written) :
    Damaged ⟨surface, written⟩ := by
  obtain ⟨back, rfl⟩ := hsurface
  by_cases hdirty : s.surface.dirty = 0
  · have hnone := (h.clean hdirty).2
    have hone : (1 : UInt8) ≠ 0 := by decide
    simp only [DisplaySurface.marked, if_pos hdirty]
    refine ⟨fun hfalse ↦ absurd hfalse hone, fun _ ↦ ?_, fun offset hoffset ↦ ?_⟩
    · exact ⟨hwithin.width_pos, hwithin.height_pos, hwithin.right, hwithin.bottom⟩
    · refine ⟨hone, (hwritten offset hoffset).resolve_right fun hmem ↦ ?_⟩
      rw [hnone] at hmem
      cases hmem
  · simp only [DisplaySurface.marked, if_neg hdirty]
    have hunion := (h.within hdirty).union hwithin
    refine ⟨fun hclean ↦ absurd hclean hdirty, fun _ ↦ ?_, fun offset hoffset ↦ ?_⟩
    · exact ⟨hunion.width_pos, hunion.height_pos, hunion.right, hunion.bottom⟩
    · refine ⟨hdirty, covers_union (h.within hdirty) hwithin ?_⟩
      exact (hwritten offset hoffset).symm.imp_left fun hmem ↦ (h.covered offset hmem).2

theorem Damaged.drawn (h : Damaged s) (hwithin : clipped.Within s.surface) :
    Damaged (s.drawn clipped color) := by
  refine h.mark hwithin ⟨_, rfl⟩ fun offset hoffset ↦ ?_
  refine (List.mem_append.mp hoffset).imp_left fun hmem ↦ ?_
  obtain ⟨⟨offset, c⟩, hassign, rfl⟩ := List.mem_map.mp hmem
  obtain ⟨row, hrow, col, hcol, heq, -⟩ := mem_rectAssignments.mp hassign
  exact DisplayRect.covers_iff.mpr ⟨row, hrow, col, hcol, heq⟩

/-- **A call keeps the damage right**, and the sizes. -/
theorem DrawStep.damaged {call : DrawCall} {status : Int} {s' : DrawState}
    (h : DrawStep s call status s') (hdamaged : Damaged s) : Damaged s' ∧
      s'.surface.width = s.surface.width ∧ s'.surface.stride = s.surface.stride := by
  cases h with
  | refused => exact ⟨hdamaged, rfl, rfl⟩
  | clean => exact ⟨hdamaged, rfl, rfl⟩
  | fill hclip => exact ⟨hdamaged.drawn (within_of_clipRect hclip), rfl, rfl⟩
  | blit hclip => exact ⟨hdamaged.drawn (within_of_clipRect hclip), rfl, rfl⟩
  | mark hclip =>
    exact ⟨hdamaged.mark (within_of_clipRect hclip) ⟨s.surface.back, rfl⟩ fun _ ↦ Or.inr, rfl, rfl⟩
  | publish hdirty =>
    rw [displaySurfacePublish, if_neg hdirty]
    have hnone : ∀ offset, offset ∉ ([] : List ℕ) := fun _ ↦ List.not_mem_nil
    exact ⟨⟨fun _ ↦ ⟨rfl, rfl⟩, fun hne ↦ absurd rfl hne, fun _ hmem ↦ absurd hmem (hnone _)⟩,
      rfl, rfl⟩

end Calls

/-! ## Runs -/

/-- The states that calls lead to from a new surface, if they keep to the conditions. -/
def DrawReachable (width height stride : UInt16) (front back : Pixels) : DrawState → Prop :=
  Reachable (· = ⟨displaySurfaceInit width height stride front back, []⟩) fun s s' ↦
    ∃ call : DrawCall, call.Fits ∧ ∃ status, call.run s = .ok (status, s')

theorem DrawReachable.damaged {width height stride : UInt16} {front back : Pixels}
    (hstride : width ≤ stride) {s : DrawState}
    (hrun : DrawReachable width height stride front back s) :
    Damaged s ∧ s.surface.width = width ∧ s.surface.stride = stride := by
  have hle : width.toNat ≤ stride.toNat := UInt16.le_iff_toNat_le.mp hstride
  refine Reachable.invariant
    (P := fun s ↦ Damaged s ∧ s.surface.width = width ∧ s.surface.stride = stride) ?_ ?_ hrun
  · rintro _ rfl
    have hnone : ∀ offset, offset ∉ ([] : List ℕ) := fun _ ↦ List.not_mem_nil
    exact ⟨⟨fun _ ↦ ⟨rfl, rfl⟩, fun hne ↦ absurd rfl hne, fun _ hmem ↦ absurd hmem (hnone _)⟩,
      rfl, rfl⟩
  · rintro s s' ⟨hdamaged, hwidth, hstride⟩ ⟨call, hfits, status, hcall⟩
    obtain ⟨status', s'', hcall', hstep⟩ := hfits.step (s := s) (by rw [hwidth, hstride]; exact hle)
    obtain ⟨rfl, rfl⟩ := Prod.mk.inj (Except.ok.inj (hcall'.symm.trans hcall))
    obtain ⟨hdamaged', hwidth', hstride'⟩ := hstep.damaged hdamaged
    exact ⟨hdamaged', hwidth'.trans hwidth, hstride'.trans hstride⟩

/-- **Drawing and damage**: in every state that can be reached, the dirty rectangle lies within the
surface and contains every pixel that was written since the last publication; and every next call
returns, has exactly its effect on the buffers if it succeeds, and none otherwise. -/
theorem display_damage {width height stride : UInt16} (hstride : width ≤ stride)
    (front back : Pixels) {s : DrawState} (hrun : DrawReachable width height stride front back s) :
    s.surface.dirtyRect.pixels ⊆ s.surface.pixels ∧
      (∀ offset ∈ s.written, s.surface.dirty ≠ 0 ∧ ∃ i j : ℕ, offset = j * stride.toNat + i ∧
        ((i : Int), (j : Int)) ∈ s.surface.dirtyRect.pixels) ∧
      ∀ call : DrawCall, call.Fits → ∃ status s', call.run s = .ok (status, s') ∧
        (status = Status.ok → call.Effect s.surface s'.surface) ∧
        (status ≠ Status.ok → s' = s) := by
  obtain ⟨hdamaged, rfl, rfl⟩ := hrun.damaged hstride
  refine ⟨?_, fun offset hoffset ↦ ?_, fun call hfits ↦ ?_⟩
  · rintro ⟨i, j⟩ hmem
    rw [DisplayRect.pixels, mem_pixelsOf] at hmem
    by_cases hdirty : s.surface.dirty = 0
    · rw [(hdamaged.clean hdirty).1] at hmem
      simp at hmem
      omega
    · have hwithin := hdamaged.within hdirty
      have hright := hwithin.right
      have hbottom := hwithin.bottom
      rw [DisplaySurface.pixels, mem_pixelsOf]
      omega
  · obtain ⟨hdirty, hcovers⟩ := hdamaged.covered offset hoffset
    obtain ⟨row, hrow, col, hcol, rfl⟩ := DisplayRect.covers_iff.mp hcovers
    refine ⟨hdirty, s.surface.dirtyRect.x.toNat + col, s.surface.dirtyRect.y.toNat + row, ?_, ?_⟩
    · rw [DisplayRect.offset, Nat.add_assoc]
    · rw [DisplayRect.pixels, mem_pixelsOf]
      omega
  · have hle := UInt16.le_iff_toNat_le.mp hstride
    obtain ⟨status, s', hcall, hstep⟩ := hfits.step hle
    exact ⟨status, s', hcall, hstep.effect hle⟩

/-- A rectangle that begins left of a surface of 3 pixels. -/
theorem display_damage_fill : ∃ s, DrawReachable 3 1 4 (fun _ ↦ 0) (fun _ ↦ 0) s ∧
    s.written = [0, 1] ∧ s.surface.dirtyRect.pixels ⊆ s.surface.pixels := by
  have hcall : DrawCall.run ⟨displaySurfaceInit 3 1 4 (fun _ ↦ 0) fun _ ↦ 0, []⟩
      (.fillRect (-1) 0 3 1 7) = .ok (Status.ok, _) := rfl
  have hfits : DrawCall.Fits (.fillRect (-1) 0 3 1 7) := ⟨by decide, by decide⟩
  have hrun : DrawReachable 3 1 4 (fun _ ↦ 0) (fun _ ↦ 0) _ :=
    .step (.start rfl) ⟨_, hfits, _, hcall⟩
  exact ⟨_, hrun, rfl, (display_damage (by decide) _ _ hrun).1⟩

end TensorOS
