import TensorOS.Display.Damage
import TensorOS.Fs.Basic

/-!
# Text on the surface

`runtime_display_demo.c` draws a text as a row of cells of eight by eight pixels, each of which is
made in a buffer and copied to the surface. The position of the next cell is a `uint16_t`. As long
as it does not wrap around, a pixel shows the character of its cell, and the pixels of no cell keep
what they were.
-/

namespace TensorOS

/-! ## The source -/

/-- `g_display_demo_font8x8`. -/
def demoFont8x8 : List (List UInt8) :=
  [[0x00, 0x00, 0x00, 0x00, 0x00, 0x00, 0x00, 0x00],
   [0x18, 0x3C, 0x3C, 0x18, 0x18, 0x00, 0x18, 0x00],
   [0x36, 0x36, 0x00, 0x00, 0x00, 0x00, 0x00, 0x00],
   [0x36, 0x36, 0x7F, 0x36, 0x7F, 0x36, 0x36, 0x00],
   [0x18, 0x3E, 0x60, 0x3C, 0x06, 0x7C, 0x18, 0x00],
   [0x00, 0x63, 0x63, 0x08, 0x10, 0x63, 0x63, 0x00],
   [0x1C, 0x36, 0x1C, 0x3B, 0x6E, 0x66, 0x3B, 0x00],
   [0x06, 0x06, 0x03, 0x00, 0x00, 0x00, 0x00, 0x00],
   [0x18, 0x0C, 0x06, 0x06, 0x06, 0x0C, 0x18, 0x00],
   [0x18, 0x30, 0x60, 0x60, 0x60, 0x30, 0x18, 0x00],
   [0x00, 0x66, 0x3C, 0xFF, 0x3C, 0x66, 0x00, 0x00],
   [0x00, 0x18, 0x18, 0x7E, 0x18, 0x18, 0x00, 0x00],
   [0x00, 0x00, 0x00, 0x00, 0x00, 0x18, 0x18, 0x0C],
   [0x00, 0x00, 0x00, 0x7E, 0x00, 0x00, 0x00, 0x00],
   [0x00, 0x00, 0x00, 0x00, 0x00, 0x18, 0x18, 0x00],
   [0x60, 0x60, 0x30, 0x18, 0x0C, 0x06, 0x06, 0x00],
   [0x3C, 0x66, 0x6E, 0x7E, 0x76, 0x66, 0x3C, 0x00],
   [0x18, 0x38, 0x18, 0x18, 0x18, 0x18, 0x7E, 0x00],
   [0x3C, 0x66, 0x06, 0x0C, 0x18, 0x30, 0x7E, 0x00],
   [0x3C, 0x66, 0x06, 0x3C, 0x06, 0x66, 0x3C, 0x00],
   [0x06, 0x0E, 0x1E, 0x36, 0x7F, 0x06, 0x06, 0x00],
   [0x7E, 0x60, 0x7C, 0x06, 0x06, 0x66, 0x3C, 0x00],
   [0x1C, 0x30, 0x60, 0x7C, 0x66, 0x66, 0x3C, 0x00],
   [0x7E, 0x06, 0x0C, 0x18, 0x30, 0x30, 0x30, 0x00],
   [0x3C, 0x66, 0x66, 0x3C, 0x66, 0x66, 0x3C, 0x00],
   [0x3C, 0x66, 0x66, 0x3E, 0x06, 0x0C, 0x38, 0x00],
   [0x00, 0x18, 0x18, 0x00, 0x18, 0x18, 0x00, 0x00],
   [0x00, 0x18, 0x18, 0x00, 0x18, 0x18, 0x0C, 0x00],
   [0x0C, 0x18, 0x30, 0x60, 0x30, 0x18, 0x0C, 0x00],
   [0x00, 0x00, 0x7E, 0x00, 0x7E, 0x00, 0x00, 0x00],
   [0x30, 0x18, 0x0C, 0x06, 0x0C, 0x18, 0x30, 0x00],
   [0x3C, 0x66, 0x06, 0x0C, 0x18, 0x00, 0x18, 0x00],
   [0x3C, 0x66, 0x6E, 0x6E, 0x60, 0x3E, 0x00, 0x00],
   [0x18, 0x3C, 0x66, 0x66, 0x7E, 0x66, 0x66, 0x00],
   [0x7C, 0x66, 0x66, 0x7C, 0x66, 0x66, 0x7C, 0x00],
   [0x3C, 0x66, 0x60, 0x60, 0x60, 0x66, 0x3C, 0x00],
   [0x78, 0x6C, 0x66, 0x66, 0x66, 0x6C, 0x78, 0x00],
   [0x7E, 0x60, 0x60, 0x78, 0x60, 0x60, 0x7E, 0x00],
   [0x7E, 0x60, 0x60, 0x78, 0x60, 0x60, 0x60, 0x00],
   [0x3C, 0x66, 0x60, 0x6E, 0x66, 0x66, 0x3C, 0x00],
   [0x66, 0x66, 0x66, 0x7E, 0x66, 0x66, 0x66, 0x00],
   [0x3C, 0x18, 0x18, 0x18, 0x18, 0x18, 0x3C, 0x00],
   [0x1E, 0x0C, 0x0C, 0x0C, 0x0C, 0x6C, 0x38, 0x00],
   [0x66, 0x6C, 0x78, 0x70, 0x78, 0x6C, 0x66, 0x00],
   [0x60, 0x60, 0x60, 0x60, 0x60, 0x60, 0x7E, 0x00],
   [0x63, 0x77, 0x7F, 0x6B, 0x63, 0x63, 0x63, 0x00],
   [0x66, 0x76, 0x7E, 0x7E, 0x7E, 0x6E, 0x66, 0x00],
   [0x3C, 0x66, 0x66, 0x66, 0x66, 0x66, 0x3C, 0x00],
   [0x7C, 0x66, 0x66, 0x7C, 0x60, 0x60, 0x60, 0x00],
   [0x3C, 0x66, 0x66, 0x66, 0x66, 0x3C, 0x0E, 0x07],
   [0x7C, 0x66, 0x66, 0x7C, 0x78, 0x6C, 0x66, 0x00],
   [0x3C, 0x66, 0x30, 0x18, 0x0C, 0x66, 0x3C, 0x00],
   [0x7E, 0x5A, 0x18, 0x18, 0x18, 0x18, 0x18, 0x00],
   [0x66, 0x66, 0x66, 0x66, 0x66, 0x66, 0x3C, 0x00],
   [0x66, 0x66, 0x66, 0x66, 0x66, 0x3C, 0x18, 0x00],
   [0x63, 0x63, 0x63, 0x6B, 0x7F, 0x77, 0x63, 0x00],
   [0x66, 0x66, 0x3C, 0x18, 0x3C, 0x66, 0x66, 0x00],
   [0x66, 0x66, 0x66, 0x3C, 0x18, 0x18, 0x18, 0x00],
   [0x7E, 0x06, 0x0C, 0x18, 0x30, 0x60, 0x7E, 0x00],
   [0x3C, 0x30, 0x30, 0x30, 0x30, 0x30, 0x3C, 0x00],
   [0x06, 0x0C, 0x18, 0x30, 0x60, 0xC0, 0x80, 0x00],
   [0x3C, 0x0C, 0x0C, 0x0C, 0x0C, 0x0C, 0x3C, 0x00],
   [0x18, 0x3C, 0x66, 0x00, 0x00, 0x00, 0x00, 0x00],
   [0x00, 0x00, 0x00, 0x00, 0x00, 0x00, 0x00, 0xFF],
   [0x30, 0x30, 0x18, 0x00, 0x00, 0x00, 0x00, 0x00],
   [0x00, 0x00, 0x3C, 0x06, 0x3E, 0x66, 0x3E, 0x00],
   [0x60, 0x60, 0x7C, 0x66, 0x66, 0x66, 0x7C, 0x00],
   [0x00, 0x00, 0x3C, 0x60, 0x60, 0x66, 0x3C, 0x00],
   [0x06, 0x06, 0x3E, 0x66, 0x66, 0x66, 0x3E, 0x00],
   [0x00, 0x00, 0x3C, 0x66, 0x7E, 0x60, 0x3C, 0x00],
   [0x1C, 0x30, 0x78, 0x30, 0x30, 0x30, 0x30, 0x00],
   [0x00, 0x00, 0x3E, 0x66, 0x66, 0x3E, 0x06, 0x3C],
   [0x60, 0x60, 0x7C, 0x66, 0x66, 0x66, 0x66, 0x00],
   [0x18, 0x00, 0x38, 0x18, 0x18, 0x18, 0x3C, 0x00],
   [0x06, 0x00, 0x06, 0x06, 0x06, 0x06, 0x06, 0x3C],
   [0x60, 0x60, 0x66, 0x6C, 0x78, 0x6C, 0x66, 0x00],
   [0x30, 0x30, 0x30, 0x30, 0x30, 0x30, 0x1C, 0x00],
   [0x00, 0x00, 0x66, 0x7F, 0x7F, 0x6B, 0x63, 0x00],
   [0x00, 0x00, 0x7C, 0x66, 0x66, 0x66, 0x66, 0x00],
   [0x00, 0x00, 0x3C, 0x66, 0x66, 0x66, 0x3C, 0x00],
   [0x00, 0x00, 0x7C, 0x66, 0x66, 0x7C, 0x60, 0x60],
   [0x00, 0x00, 0x3E, 0x66, 0x66, 0x3E, 0x06, 0x06],
   [0x00, 0x00, 0x7C, 0x66, 0x60, 0x60, 0x60, 0x00],
   [0x00, 0x00, 0x3E, 0x60, 0x3C, 0x06, 0x7C, 0x00],
   [0x30, 0x30, 0x78, 0x30, 0x30, 0x30, 0x1C, 0x00],
   [0x00, 0x00, 0x66, 0x66, 0x66, 0x66, 0x3E, 0x00],
   [0x00, 0x00, 0x66, 0x66, 0x66, 0x3C, 0x18, 0x00],
   [0x00, 0x00, 0x63, 0x6B, 0x7F, 0x3E, 0x36, 0x00],
   [0x00, 0x00, 0x66, 0x3C, 0x18, 0x3C, 0x66, 0x00],
   [0x00, 0x00, 0x66, 0x66, 0x66, 0x3E, 0x06, 0x3C],
   [0x00, 0x00, 0x7E, 0x0C, 0x18, 0x30, 0x7E, 0x00],
   [0x0C, 0x18, 0x18, 0x70, 0x18, 0x18, 0x0C, 0x00],
   [0x18, 0x18, 0x18, 0x18, 0x18, 0x18, 0x18, 0x00],
   [0x30, 0x18, 0x18, 0x0E, 0x18, 0x18, 0x30, 0x00],
   [0x31, 0x6B, 0x46, 0x00, 0x00, 0x00, 0x00, 0x00],
   [0xFF, 0xFF, 0xFF, 0xFF, 0xFF, 0xFF, 0xFF, 0xFF]]

/-- `runtime_display_demo_lookup_glyph`. -/
def demoLookupGlyph (ch : UInt8) : Option (List UInt8) :=
  if ch < 32 ∨ 127 < ch then none else some (demoFont8x8.getD (ch - 32).toNat [])

/-- The pixel of a glyph in a row and a column. -/
def demoGlyphColor (bitmap : Option (List UInt8)) (fg bg : UInt16) (row col : ℕ) : UInt16 :=
  let bits := match bitmap with
    | some bitmap => bitmap.getD row 0
    | none => 0
  if bits &&& (0x80 >>> UInt8.ofNat col) ≠ 0 then fg else bg

/-- The rows and columns of a glyph. -/
def demoGlyphRect : DisplayRect := ⟨0, 0, 8, 8⟩

/-- `runtime_display_demo_make_glyph_pixels`. -/
def demoMakeGlyphPixels (bitmap : Option (List UInt8)) (fg bg : UInt16) (outPixels : Pixels) :
    Pixels :=
  drawPixels demoGlyphRect 8 (demoGlyphColor bitmap fg bg) outPixels

/-- `runtime_display_demo_draw_fast_char_at`, on the surface and `g_display_glyph_buffer`. -/
def demoDrawFastCharAt (s : DisplaySurface × Pixels) (x y : UInt16) (ch : UInt8) (fg bg : UInt16) :
    DisplaySurface × Pixels :=
  let glyph := demoMakeGlyphPixels (demoLookupGlyph ch) fg bg s.2
  ((displaySurfaceBlitRgb565 s.1 x.toNat y.toNat 8 8 (some glyph) 8).2, glyph)

/-- The loop of `runtime_display_demo_draw_fast_text_at`. -/
def demoDrawFastText (y fg bg : UInt16) :
    List UInt8 → DisplaySurface × Pixels → UInt16 → DisplaySurface × Pixels
  | [], s, _ => s
  | ch :: text, s, cursorX =>
    demoDrawFastText y fg bg text (demoDrawFastCharAt s cursorX y ch fg bg) (cursorX + 8)

/-- `runtime_display_demo_draw_text`. -/
def demoDrawText (s : DisplaySurface × Pixels) (x y : Int32) (text : Option CString)
    (fg bg : UInt16) : DisplaySurface × Pixels :=
  if x < 0 ∨ y < 0 then s
  else
    match text with
    | none => s
    | some text => demoDrawFastText y.toUInt32.toUInt16 fg bg text.chars s x.toUInt32.toUInt16

/-! ## Pixels -/

section Pixels

variable {surface : DisplaySurface} {rect : DisplayRect} {stride : UInt16} {pixels : Pixels}
  {color : ℕ → ℕ → UInt16} {s : DisplaySurface × Pixels}

/-- The two loops give every pixel of the rectangle its color, and no other place of a line. -/
theorem drawPixels_place (hright : rect.x.toNat + rect.width.toNat ≤ stride.toNat) {i j : ℕ}
    (hi : i < stride.toNat) : drawPixels rect stride color pixels (j * stride.toNat + i) =
      if (rect.x.toNat ≤ i ∧ i < rect.x.toNat + rect.width.toNat) ∧
          rect.y.toNat ≤ j ∧ j < rect.y.toNat + rect.height.toNat then
        color (j - rect.y.toNat) (i - rect.x.toNat)
      else pixels (j * stride.toNat + i) := by
  split
  · next hin =>
    obtain ⟨⟨hleft, hcol⟩, htop, hrow⟩ := hin
    have hoffset : rect.offset stride (j - rect.y.toNat) (i - rect.x.toNat)
        = j * stride.toNat + i := by
      rw [DisplayRect.offset, Nat.add_sub_cancel' htop]
      omega
    rw [← assignPixels_rectAssignments, ← hoffset]
    refine assignPixels_eq (mem_rectAssignments.mpr
      ⟨j - rect.y.toNat, by omega, i - rect.x.toNat, by omega, rfl, rfl⟩) fun c hc ↦ ?_
    obtain ⟨row, hrow', col, hcol', heq, rfl⟩ := mem_rectAssignments.mp hc
    obtain ⟨rfl, rfl⟩ := offset_injective hright hcol' (by omega) heq
    rfl
  · next hout =>
    refine (overwrites_drawPixels rect stride color).frame _ fun hcovers ↦ hout ?_
    obtain ⟨row, hrow, col, hcol, heq⟩ := DisplayRect.covers_iff.mp hcovers
    rw [DisplayRect.offset, Nat.add_assoc] at heq
    obtain ⟨rfl, rfl⟩ := place_injective (by omega) hi heq
    omega

theorem demoMakeGlyphPixels_place (bitmap : Option (List UInt8)) (fg bg : UInt16) {row col : ℕ}
    (hrow : row < 8) (hcol : col < 8) :
    demoMakeGlyphPixels bitmap fg bg pixels (row * 8 + col)
      = demoGlyphColor bitmap fg bg row col := by
  have hright : demoGlyphRect.x.toNat + demoGlyphRect.width.toNat ≤ (8 : UInt16).toNat := by decide
  have hplace : demoMakeGlyphPixels bitmap fg bg pixels (row * (8 : UInt16).toNat + col) = _ :=
    drawPixels_place hright hcol
  rw [if_pos ⟨⟨Nat.zero_le _, by simpa [demoGlyphRect] using hcol⟩, Nat.zero_le _,
    by simpa [demoGlyphRect] using hrow⟩] at hplace
  exact hplace

theorem markDirty_frame (surface : DisplaySurface) (x y width height : Int) :
    (displaySurfaceMarkDirty surface x y width height).2.back = surface.back ∧
      (displaySurfaceMarkDirty surface x y width height).2.width = surface.width ∧
      (displaySurfaceMarkDirty surface x y width height).2.height = surface.height ∧
      (displaySurfaceMarkDirty surface x y width height).2.stride = surface.stride := by
  rw [displaySurfaceMarkDirty]
  split
  · exact ⟨rfl, rfl, rfl, rfl⟩
  · split <;> exact ⟨rfl, rfl, rfl, rfl⟩

/-- The surface has the same size. -/
structure SameSize (surface surface' : DisplaySurface) : Prop where
  width : surface'.width = surface.width
  height : surface'.height = surface.height
  stride : surface'.stride = surface.stride

/-- What is copied to a cell. -/
def cellColor (back source : Pixels) (stride : UInt16) (x y : UInt16) (i j : ℕ) : UInt16 :=
  if (x.toNat ≤ i ∧ i < x.toNat + 8) ∧ y.toNat ≤ j ∧ j < y.toNat + 8 then
    source ((j - y.toNat) * 8 + (i - x.toNat))
  else back (j * stride.toNat + i)

/-- **One cell**, wherever it lies. -/
theorem blit_cell (hstride : surface.width.toNat ≤ surface.stride.toNat) (source : Pixels)
    (x y : UInt16) :
    SameSize surface (displaySurfaceBlitRgb565 surface x.toNat y.toNat 8 8 (some source) 8).2 ∧
      ∀ i j, i < surface.width.toNat → j < surface.height.toNat →
        (displaySurfaceBlitRgb565 surface x.toNat y.toNat 8 8 (some source) 8).2.back
          (j * surface.stride.toNat + i)
            = cellColor surface.back source surface.stride x y i j := by
  unfold displaySurfaceBlitRgb565
  cases hclip : displaySurfaceClipRect surface x.toNat y.toNat 8 8 with
  | none =>
    refine ⟨⟨rfl, rfl, rfl⟩, fun i j hi hj ↦ ?_⟩
    rw [cellColor, if_neg]
    rintro ⟨⟨hleft, hright⟩, htop, hbottom⟩
    have hmeets : MeetsSurface surface x.toNat y.toNat 8 8 := by
      rw [MeetsSurface]
      omega
    rw [clipRect_eq, if_pos hmeets] at hclip
    cases hclip
  | some clipped =>
    obtain ⟨-, hx, hy, hwidth, hheight⟩ := clipRect_eq_some hclip
    have hright := (within_of_clipRect hclip).right
    dsimp only
    rw [if_neg (by decide), drawClipped]
    obtain ⟨hback, hw, hh, hs⟩ := markDirty_frame
      { surface with
        back := drawPixels clipped surface.stride
          (blitSource clipped x.toNat y.toNat source 8) surface.back }
      clipped.x.toNat clipped.y.toNat clipped.width.toNat clipped.height.toNat
    refine ⟨⟨hw, hh, hs⟩, fun i j hi hj ↦ ?_⟩
    rw [hback]
    dsimp only
    rw [drawPixels_place (hright.trans hstride) (by omega), cellColor]
    have hcorner : clipped.x.toNat = x.toNat ∧ clipped.y.toNat = y.toNat := by omega
    rw [hcorner.1, hcorner.2]
    refine if_congr (by omega) ?_ rfl
    rw [blitSource, hcorner.1, hcorner.2]
    have height : (8 : UInt16).toNat = 8 := rfl
    simp only [sub_self, zero_add, Int.toNat_natCast, Int.toNat_zero, add_zero, height]

end Pixels

/-! ## Texts -/

section Text

variable {s : DisplaySurface × Pixels}

theorem drawFastCharAt_place (hstride : s.1.width.toNat ≤ s.1.stride.toNat) (x y : UInt16)
    (ch : UInt8) (fg bg : UInt16) :
    SameSize s.1 (demoDrawFastCharAt s x y ch fg bg).1 ∧
      ∀ i j, i < s.1.width.toNat → j < s.1.height.toNat →
        (demoDrawFastCharAt s x y ch fg bg).1.back (j * s.1.stride.toNat + i) =
          if (x.toNat ≤ i ∧ i < x.toNat + 8) ∧ y.toNat ≤ j ∧ j < y.toNat + 8 then
            demoGlyphColor (demoLookupGlyph ch) fg bg (j - y.toNat) (i - x.toNat)
          else s.1.back (j * s.1.stride.toNat + i) := by
  obtain ⟨hsize, hplace⟩ := blit_cell hstride
    (demoMakeGlyphPixels (demoLookupGlyph ch) fg bg s.2) x y
  refine ⟨hsize, fun i j hi hj ↦ (hplace i j hi hj).trans ?_⟩
  rw [cellColor]
  split
  · next hin => exact demoMakeGlyphPixels_place _ _ _ (by omega) (by omega)
  · rfl

/-- **A text shows each character in its cell.** -/
theorem drawFastText_place (text : List UInt8) (y fg bg : UInt16)
    (hstride : s.1.width.toNat ≤ s.1.stride.toNat) {x : UInt16}
    (hfits : x.toNat + 8 * text.length ≤ 2 ^ 16) :
    ∀ i j, i < s.1.width.toNat → j < s.1.height.toNat →
      (demoDrawFastText y fg bg text s x).1.back (j * s.1.stride.toNat + i) =
        if (x.toNat ≤ i ∧ i < x.toNat + 8 * text.length) ∧ y.toNat ≤ j ∧ j < y.toNat + 8 then
          demoGlyphColor (demoLookupGlyph (text.getD ((i - x.toNat) / 8) 0)) fg bg (j - y.toNat)
            ((i - x.toNat) % 8)
        else s.1.back (j * s.1.stride.toNat + i) := by
  induction text generalizing s x with
  | nil =>
    intro i j _ _
    rw [if_neg]
    · rfl
    rintro ⟨⟨hleft, hright⟩, -⟩
    rw [List.length_nil] at hright
    omega
  | cons ch text ih =>
    intro i j hi hj
    obtain ⟨hsize, hplace⟩ := drawFastCharAt_place hstride x y ch fg bg
    rw [List.length_cons] at hfits ⊢
    have hrest : (demoDrawFastText y fg bg text (demoDrawFastCharAt s x y ch fg bg) (x + 8)).1.back
        (j * s.1.stride.toNat + i) =
          if (x.toNat + 8 ≤ i ∧ i < x.toNat + 8 + 8 * text.length) ∧
              y.toNat ≤ j ∧ j < y.toNat + 8 then
            demoGlyphColor (demoLookupGlyph (text.getD ((i - (x.toNat + 8)) / 8) 0)) fg bg
              (j - y.toNat) ((i - (x.toNat + 8)) % 8)
          else (demoDrawFastCharAt s x y ch fg bg).1.back (j * s.1.stride.toNat + i) := by
      cases text with
      | nil =>
        rw [if_neg]
        · rfl
        rintro ⟨⟨hleft, hright⟩, -⟩
        rw [List.length_nil] at hright
        omega
      | cons next text =>
        -- there is another cell, so the cursor has not wrapped
        have hcursor : (x + 8).toNat = x.toNat + 8 := by
          have height : (8 : UInt16).toNat = 8 := rfl
          rw [List.length_cons] at hfits
          rw [UInt16.toNat_add, height, Nat.mod_eq_of_lt (by omega)]
        have hstride' : (demoDrawFastCharAt s x y ch fg bg).1.width.toNat
            ≤ (demoDrawFastCharAt s x y ch fg bg).1.stride.toNat := by
          rw [hsize.width, hsize.stride]
          exact hstride
        have hlater := ih hstride' (by rw [hcursor]; omega) i j (by rwa [hsize.width])
          (by rwa [hsize.height])
        rwa [hsize.stride, hcursor] at hlater
    have hstep : demoDrawFastText y fg bg (ch :: text) s x
        = demoDrawFastText y fg bg text (demoDrawFastCharAt s x y ch fg bg) (x + 8) := rfl
    rw [hstep, hrest]
    by_cases hcell : (x.toNat ≤ i ∧ i < x.toNat + 8 * (text.length + 1)) ∧
        y.toNat ≤ j ∧ j < y.toNat + 8
    · rw [if_pos hcell]
      by_cases hfirst : i < x.toNat + 8
      · have hcolumn : (i - x.toNat) / 8 = 0 ∧ (i - x.toNat) % 8 = i - x.toNat := by omega
        rw [if_neg (by omega), hplace i j hi hj, if_pos (by omega), hcolumn.1, hcolumn.2,
          List.getD_cons_zero]
      · have hcolumn : (i - x.toNat) / 8 = (i - (x.toNat + 8)) / 8 + 1 ∧
            (i - x.toNat) % 8 = (i - (x.toNat + 8)) % 8 := by omega
        rw [if_pos (by omega), hcolumn.1, hcolumn.2, List.getD_cons_succ]
    · rw [if_neg (by omega), hplace i j hi hj, if_neg (by omega), if_neg hcell]

end Text

theorem toUInt16_toNat {n : Int32} (h : 0 ≤ n.toInt) (hlt : n.toInt < 2 ^ 16) :
    (n.toUInt32.toUInt16.toNat : Int) = n.toInt := by
  have hword : n.toInt = if 2 * n.toUInt32.toNat < 2 ^ 32 then (n.toUInt32.toNat : Int)
      else n.toUInt32.toNat - (2 ^ 32 : ℕ) := BitVec.toInt_eq_toNat_cond n.toBitVec
  rw [UInt32.toNat_toUInt16]
  have := n.toUInt32.toNat_lt
  split at hword <;> omega

/-- **Drawn text is legible**: of a text that lies in the first 2 ^ 16 columns, every pixel of the
surface that belongs to a cell shows the glyph of the character there, and no other pixel is
changed. -/
theorem drawText_shows (s : DisplaySurface × Pixels) (hstride : s.1.width ≤ s.1.stride)
    {x y : Int32} (hx : 0 ≤ x.toInt) (hy : 0 ≤ y.toInt) (hline : y.toInt < 2 ^ 16) (text : CString)
    (hfits : x.toInt + 8 * text.chars.length ≤ 2 ^ 16) (fg bg : UInt16) {i j : ℕ}
    (hi : i < s.1.width.toNat) (hj : j < s.1.height.toNat) :
    (demoDrawText s x y (some text) fg bg).1.back (j * s.1.stride.toNat + i) =
      if (x.toInt ≤ i ∧ i < x.toInt + 8 * text.chars.length) ∧
          y.toInt ≤ j ∧ j < y.toInt + 8 then
        demoGlyphColor (demoLookupGlyph (text.charAt ((i - x.toInt).toNat / 8))) fg bg
          (j - y.toInt).toNat ((i - x.toInt).toNat % 8)
      else s.1.back (j * s.1.stride.toNat + i) := by
  have hpositive : ¬(x < 0 ∨ y < 0) := by
    have hzero : (0 : Int32).toInt = 0 := rfl
    rw [Int32.lt_iff_toInt_lt, Int32.lt_iff_toInt_lt, hzero]
    omega
  rw [demoDrawText, if_neg hpositive]
  rcases Nat.eq_zero_or_pos text.chars.length with hempty | hlength
  · rw [List.length_eq_zero_iff.mp hempty, if_neg]
    · rfl
    rintro ⟨⟨hleft, hright⟩, -⟩
    rw [List.length_nil] at hright
    omega
  have hcolumn := toUInt16_toNat hx (by omega)
  have hrow := toUInt16_toNat hy hline
  have hwide := UInt16.le_iff_toNat_le.mp hstride
  rw [drawFastText_place text.chars _ fg bg hwide (by omega) i j hi hj, CString.charAt]
  refine if_congr (by omega) ?_ rfl
  have hi' : i - x.toUInt32.toUInt16.toNat = (i - x.toInt).toNat := by omega
  have hj' : j - y.toUInt32.toUInt16.toNat = (j - y.toInt).toNat := by omega
  rw [hi', hj']

/-- In the text `"Hi"` at column 8 and row 4, the dot of the second letter. -/
theorem drawText_shows_hi :
    (demoDrawText (displaySurfaceInit 240 240 240 (fun _ ↦ 0) (fun _ ↦ 0), fun _ ↦ 0) 8 4
      (some ⟨[72, 105], by simp⟩) 0xFFFF 0).1.back (4 * 240 + 19) = 0xFFFF :=
  (drawText_shows (displaySurfaceInit 240 240 240 (fun _ ↦ 0) (fun _ ↦ 0), fun _ ↦ 0) (by decide)
    (by decide) (by decide) (by decide) ⟨[72, 105], by simp⟩ (by decide) 0xFFFF 0 (by decide)
    (by decide)).trans (by decide)

end TensorOS
