import TensorOS.Display.Surface
import TensorOS.Lib.Signed

/-!
# Clipping in the arithmetic of the target

`displaySurfaceClipRect` works on integers. The source works on `int32_t`, and its two sums of a
coordinate and a size are undefined when they leave the range. `displaySurfaceClipRectInt32` has the
operations of the source one by one. It agrees with the function on integers as long as both sums
are in range (`clipRectInt32_eq`), and that function computes the intersection of two rectangles
(`clipRect_pixels`, `pixels_inter_nonempty`).
-/

namespace TensorOS

/-! ## The source -/

/-- A coordinate that is negative is moved to 0. -/
def clipStartInt32 (start size : Int) : Except Undefined (Int × Int) :=
  if start < 0 then do
    let size ← checkInt32 (size + start)
    .ok (0, size)
  else .ok (start, size)

/-- A size that goes beyond the surface is cut. -/
def clipSizeInt32 (limit : UInt16) (start size : Int) : Except Undefined Int := do
  let stop ← checkInt32 (start + size)
  if limit.toNat < stop then checkInt32 (limit.toNat - start) else .ok size

/-- `display_surface_clip_rect`, with arguments in the range of `int32_t`. -/
def displaySurfaceClipRectInt32 (surface : DisplaySurface) (x y width height : Int) :
    Except Undefined (Option DisplayRect) :=
  if width ≤ 0 ∨ height ≤ 0 then .ok none
  else do
    let (x, width) ← clipStartInt32 x width
    let (y, height) ← clipStartInt32 y height
    if surface.width.toNat ≤ x ∨ surface.height.toNat ≤ y then .ok none
    else
      let width ← clipSizeInt32 surface.width x width
      let height ← clipSizeInt32 surface.height y height
      if width ≤ 0 ∨ height ≤ 0 then .ok none
      else .ok (some ⟨.ofNat x.toNat, .ofNat y.toNat, .ofNat width.toNat, .ofNat height.toNat⟩)

/-! ## The intersection -/

/-- The pixels of a rectangle of integers, none if a size is not positive. -/
def pixelsOf (x y width height : Int) : Set (Int × Int) :=
  Set.Ico x (x + width) ×ˢ Set.Ico y (y + height)

theorem mem_pixelsOf {x y width height i j : Int} : (i, j) ∈ pixelsOf x y width height ↔
    (x ≤ i ∧ i < x + width) ∧ y ≤ j ∧ j < y + height := Iff.rfl

/-- The pixels of a surface. -/
def DisplaySurface.pixels (surface : DisplaySurface) : Set (Int × Int) :=
  pixelsOf 0 0 surface.width.toNat surface.height.toNat

/-- The pixels of a rectangle. -/
def DisplayRect.pixels (rect : DisplayRect) : Set (Int × Int) :=
  pixelsOf rect.x.toNat rect.y.toNat rect.width.toNat rect.height.toNat

section Exact

variable {surface : DisplaySurface} {x y width height : Int}

theorem clipSpan_eq {limit : UInt16} {start size : Int} :
    clipSpan limit start size =
      if limit.toNat ≤ max start 0 then none
      else some (max start 0, min (start + size) limit.toNat - max start 0) := by
  dsimp only [clipSpan]
  split_ifs <;> first | rfl | (simp only [Option.some.injEq, Prod.mk.injEq]; omega) | omega

/-- The rectangle meets the surface. -/
def MeetsSurface (surface : DisplaySurface) (x y width height : Int) : Prop :=
  max x 0 < min (x + width) surface.width.toNat ∧
    max y 0 < min (y + height) surface.height.toNat

instance MeetsSurface.decidable (surface : DisplaySurface) (x y width height : Int) :
    Decidable (MeetsSurface surface x y width height) := inferInstanceAs (Decidable (_ ∧ _))

/-- **What clipping computes.** -/
theorem clipRect_eq : displaySurfaceClipRect surface x y width height =
    if MeetsSurface surface x y width height then
      some ⟨.ofNat (max x 0).toNat, .ofNat (max y 0).toNat,
        .ofNat (min (x + width) surface.width.toNat - max x 0).toNat,
        .ofNat (min (y + height) surface.height.toNat - max y 0).toNat⟩
    else none := by
  rw [displaySurfaceClipRect, clipSpan_eq, clipSpan_eq]
  by_cases hmeets : MeetsSurface surface x y width height
  · rw [if_pos hmeets]
    obtain ⟨hx, hy⟩ := hmeets
    rw [if_neg (by omega), if_neg (by omega), if_neg (by omega)]
    exact if_neg (by omega)
  · rw [if_neg hmeets]
    rw [MeetsSurface] at hmeets
    split_ifs <;> first | rfl | exact if_pos (by omega)

theorem pixels_inter_nonempty : (pixelsOf x y width height ∩ surface.pixels).Nonempty ↔
    MeetsSurface surface x y width height := by
  constructor
  · rintro ⟨⟨i, j⟩, hrect, hsurface⟩
    obtain ⟨hi, hj⟩ := mem_pixelsOf.mp hrect
    obtain ⟨hi', hj'⟩ := mem_pixelsOf.mp hsurface
    rw [MeetsSurface]
    omega
  · rintro ⟨hx, hy⟩
    refine ⟨(max x 0, max y 0), mem_pixelsOf.mpr ?_, mem_pixelsOf.mpr ?_⟩ <;> omega

/-- Where the clipped rectangle is. Nothing is cut off by the casts to 16 bits. -/
theorem clipRect_eq_some {rect : DisplayRect}
    (h : displaySurfaceClipRect surface x y width height = some rect) :
    MeetsSurface surface x y width height ∧
      (rect.x.toNat : Int) = max x 0 ∧ (rect.y.toNat : Int) = max y 0 ∧
      (rect.width.toNat : Int) = min (x + width) surface.width.toNat - max x 0 ∧
      (rect.height.toNat : Int) = min (y + height) surface.height.toNat - max y 0 := by
  have hw := surface.width.toNat_lt
  have hh := surface.height.toNat_lt
  have hnat : ∀ {n : Int}, 0 ≤ n → n < 2 ^ 16 → ((UInt16.ofNat n.toNat).toNat : Int) = n := by
    intro n hn hlt
    rw [UInt16.toNat_ofNat', Nat.mod_eq_of_lt (by omega), Int.toNat_of_nonneg hn]
  rw [clipRect_eq] at h
  split at h
  · next hmeets =>
    obtain ⟨hx, hy⟩ := id hmeets
    cases h
    exact ⟨hmeets, hnat (by omega) (by omega), hnat (by omega) (by omega),
      hnat (by omega) (by omega), hnat (by omega) (by omega)⟩
  · cases h

/-- **Clipping is the intersection** with the surface. -/
theorem clipRect_pixels {rect : DisplayRect}
    (h : displaySurfaceClipRect surface x y width height = some rect) :
    rect.pixels = pixelsOf x y width height ∩ surface.pixels := by
  obtain ⟨⟨hx, hy⟩, hleft, htop, hwidth, hheight⟩ := clipRect_eq_some h
  ext ⟨i, j⟩
  rw [Set.mem_inter_iff, DisplayRect.pixels, DisplaySurface.pixels, mem_pixelsOf, mem_pixelsOf,
    mem_pixelsOf]
  omega

/-! ## The sums -/

/-- The rectangle is one for which both sums are computed and one of them is too large. -/
def ClipOverflows (surface : DisplaySurface) (x y width height : Int) : Prop :=
  0 < width ∧ 0 < height ∧ max x 0 < surface.width.toNat ∧ max y 0 < surface.height.toNat ∧
    (2 ^ 31 ≤ x + width ∨ 2 ^ 31 ≤ y + height)

instance ClipOverflows.decidable (surface : DisplaySurface) (x y width height : Int) :
    Decidable (ClipOverflows surface x y width height) := inferInstanceAs (Decidable (_ ∧ _))

theorem clipStartInt32_eq {start size : Int} (hstart : IsInt32 start) (hsize : IsInt32 size)
    (hpos : 0 < size) :
    clipStartInt32 start size = .ok (max start 0, if start < 0 then size + start else size) := by
  rw [clipStartInt32]
  split
  · next hneg =>
    rw [checkInt32_eq_ok ⟨by have := hstart.1; omega, by have := hsize.2; omega⟩, ok_bind,
      max_eq_right hneg.le]
  · next hneg => rw [max_eq_left (not_lt.mp hneg)]

theorem clipSizeInt32_eq {limit : UInt16} {start size : Int} (hstart : IsInt32 start)
    (hpos : 0 < size) (hlimit : max start 0 < limit.toNat) :
    clipSizeInt32 limit (max start 0) (if start < 0 then size + start else size) =
      if 2 ^ 31 ≤ start + size then .error .signedOverflow
      else .ok (min (start + size) limit.toNat - max start 0) := by
  have hlt := limit.toNat_lt
  have hlower := hstart.1
  have hstop : max start 0 + (if start < 0 then size + start else size) = start + size := by
    split <;> omega
  have hrest : (if start < 0 then size + start else size) = start + size - max start 0 := by omega
  rw [clipSizeInt32, hstop, hrest]
  by_cases hlarge : 2 ^ 31 ≤ start + size
  · rw [if_pos hlarge, checkInt32_eq_error fun h ↦ not_lt.mpr hlarge h.2]
    rfl
  · rw [if_neg hlarge, checkInt32_eq_ok ⟨by omega, not_le.mp hlarge⟩, ok_bind]
    split
    · next hcut =>
      rw [checkInt32_eq_ok ⟨by omega, by omega⟩, min_eq_right hcut.le]
    · next hcut => rw [min_eq_left (not_lt.mp hcut)]

/-- **Clipping on `int32_t`**: it faults if a sum is too large, and is clipping on the integers
otherwise. -/
theorem clipRectInt32_eq (hx : IsInt32 x) (hy : IsInt32 y) (hwidth : IsInt32 width)
    (hheight : IsInt32 height) :
    displaySurfaceClipRectInt32 surface x y width height =
      if ClipOverflows surface x y width height then .error .signedOverflow
      else .ok (displaySurfaceClipRect surface x y width height) := by
  have hover : ClipOverflows surface x y width height ↔
      0 < width ∧ 0 < height ∧ max x 0 < surface.width.toNat ∧ max y 0 < surface.height.toNat ∧
        (2 ^ 31 ≤ x + width ∨ 2 ^ 31 ≤ y + height) := Iff.rfl
  rw [displaySurfaceClipRectInt32, displaySurfaceClipRect]
  by_cases hsize : width ≤ 0 ∨ height ≤ 0
  · rw [if_pos hsize, if_pos hsize, if_neg (hover.not.mpr (by omega))]
  rw [if_neg hsize, if_neg hsize, clipStartInt32_eq hx hwidth (by omega), ok_bind]
  dsimp only
  rw [clipStartInt32_eq hy hheight (by omega), ok_bind, clipSpan_eq, clipSpan_eq]
  dsimp only
  by_cases hout : surface.width.toNat ≤ max x 0 ∨ surface.height.toNat ≤ max y 0
  · rw [if_pos hout, if_neg (hover.not.mpr (by omega))]
    split_ifs <;> first | rfl | omega
  rw [if_neg hout, clipSizeInt32_eq hx (by omega) (by omega),
    clipSizeInt32_eq hy (by omega) (by omega)]
  -- the sums are computed one after the other
  by_cases hfirst : 2 ^ 31 ≤ x + width
  · rw [if_pos hfirst, if_pos (hover.mpr (by omega))]
    rfl
  rw [if_neg hfirst, ok_bind]
  by_cases hsecond : 2 ^ 31 ≤ y + height
  · rw [if_pos hsecond, if_pos (hover.mpr (by omega))]
    rfl
  have hleft : ¬ (surface.width.toNat : Int) ≤ max x 0 := by omega
  have htop : ¬ (surface.height.toNat : Int) ≤ max y 0 := by omega
  rw [if_neg hsecond, if_neg (hover.not.mpr (by omega)), ok_bind, if_neg hleft, if_neg htop]
  dsimp only
  split <;> rfl

end Exact

/-- Clipping is computed without overflow, succeeds exactly if the rectangle meets the surface, and
its result is the intersection then. -/
def ClipsExactly (surface : DisplaySurface) (x y width height : Int) : Prop :=
  ∃ clipped, displaySurfaceClipRectInt32 surface x y width height = .ok clipped ∧
    (clipped.isSome = true ↔ (pixelsOf x y width height ∩ surface.pixels).Nonempty) ∧
    ∀ rect ∈ clipped, rect.pixels = pixelsOf x y width height ∩ surface.pixels

/-- **When clipping is exact**, for all arguments that the source can be called with. -/
theorem clipRect_exact_iff (surface : DisplaySurface) (x y width height : Int32) :
    ClipsExactly surface x.toInt y.toInt width.toInt height.toInt ↔
      ¬ ClipOverflows surface x.toInt y.toInt width.toInt height.toInt := by
  have hrun := @clipRectInt32_eq surface _ _ _ _ (isInt32_toInt x) (isInt32_toInt y)
    (isInt32_toInt width) (isInt32_toInt height)
  rw [ClipsExactly, hrun]
  split
  · next hover =>
    refine iff_of_false ?_ fun hnot ↦ hnot hover
    rintro ⟨clipped, hclipped, -⟩
    cases hclipped
  · next hover =>
    refine iff_of_true ⟨_, rfl, ?_, fun rect hrect ↦ clipRect_pixels hrect⟩ hover
    rw [pixels_inter_nonempty, clipRect_eq]
    split
    · next hmeets => exact iff_of_true rfl hmeets
    · next hmeets => exact iff_of_false (by simp) hmeets

/-- A rectangle at 10 that is as wide as can be: the far end is not an `int32_t`. -/
theorem clipRect_overflows : ¬ ∀ (surface : DisplaySurface) (x y width height : Int32),
    ClipsExactly surface x.toInt y.toInt width.toInt height.toInt := by
  intro hall
  obtain ⟨clipped, hrun, -⟩ :=
    hall (displaySurfaceInit 320 240 320 (fun _ ↦ 0) fun _ ↦ 0) 10 0 0x7FFFFFFF 1
  have hover : displaySurfaceClipRectInt32 (displaySurfaceInit 320 240 320 (fun _ ↦ 0) fun _ ↦ 0)
      10 0 0x7FFFFFFF 1 = .error .signedOverflow := rfl
  cases hover.symm.trans hrun

end TensorOS
