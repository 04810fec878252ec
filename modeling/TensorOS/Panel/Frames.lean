import TensorOS.Panel.Gc9a01

/-!
# Frames on the panel

`runtime_display_demo.c` publishes the surface and gives the rectangle that comes back to the
driver. The model of the surface has a panel that is a buffer of pixels, into which the rectangle
is copied. The driver's panel is a device that makes pixels of the bytes on the wire. The two show
the same after every run.
-/

namespace TensorOS

/-- The pixels of the panel at the offsets of a buffer. -/
def panelPixels (memory : ℕ → ℕ → UInt16) : Pixels := fun offset ↦
  memory (offset % panelSize) (offset / panelSize)

/-- A call on the surface. After a publication the rectangle goes to the driver, as
`runtime_display_demo_present_pending` does it. -/
def DisplayOp.present (unit : SpiUnit) (op : DisplayOp) (s : DisplaySurface × Spi) :
    DisplaySurface × Spi :=
  match op with
  | publish =>
    match (displaySurfacePublish s.1).2.2 with
    | none => (op.surface s.1, s.2)
    | some (rect, frontPixels) =>
      (op.surface s.1, demoFlushToPanel unit s.2 (some frontPixels) (some rect))
  | fillRect .. | blitRgb565 .. => (op.surface s.1, s.2)

/-- The surface has the size of the panel, and what is dirty lies on it. -/
structure FitsPanel (surface : DisplaySurface) : Prop where
  width : surface.width = 240
  height : surface.height = 240
  stride : surface.stride = 240
  within : surface.dirty ≠ 0 → surface.dirtyRect.Within surface

/-- The offset is one of the rectangle exactly if its column and row are. -/
theorem covers_iff_panel {surface : DisplaySurface} (hfits : FitsPanel surface) {rect : DisplayRect}
    (h : rect.Within surface) (offset : ℕ) : rect.covers 240 offset = true ↔
      rect.x.toNat ≤ offset % panelSize ∧ offset % panelSize < rect.x.toNat + rect.width.toNat ∧
        rect.y.toNat ≤ offset / panelSize ∧
        offset / panelSize < rect.y.toNat + rect.height.toNat := by
  have hsize : (240 : UInt16).toNat = 240 := rfl
  have hright := h.right
  rw [hfits.width, hsize] at hright
  rw [DisplayRect.covers_iff, panelSize]
  simp only [DisplayRect.offset, hsize]
  constructor
  · rintro ⟨row, hrow, col, hcol, rfl⟩
    omega
  · rintro ⟨hleft, hcol, htop, hrow⟩
    exact ⟨offset / 240 - rect.y.toNat, by omega, offset % 240 - rect.x.toNat, by omega, by omega⟩

section Frames

variable {unit : SpiUnit} (hunit : unit.SendsInOrder) {device : PanelDevice}
  (hdevice : device.WritesWindows) {panel : device.State}

include hunit hdevice

theorem Shows.demoFlushToPanel {s : Spi} {memory : ℕ → ℕ → UInt16}
    (hshows : Shows device panel s memory) {surface : DisplaySurface} (hfits : FitsPanel surface)
    {rect : DisplayRect} (h : rect.Within surface) (frontPixels : Pixels) :
    ∃ memory', Shows device panel (demoFlushToPanel unit s (some frontPixels) (some rect)) memory' ∧
      panelPixels memory' = flushToPanel (panelPixels memory) frontPixels 240 rect := by
  have hsize : (240 : UInt16).toNat = 240 := rfl
  have hright := h.right
  have hbottom := h.bottom
  rw [hfits.width, hsize] at hright
  rw [hfits.height, hsize] at hbottom
  have hwidth : rect.width ≠ 0 := fun hzero ↦ absurd h.width_pos (by rw [hzero]; decide)
  have hheight : rect.height ≠ 0 := fun hzero ↦ absurd h.height_pos (by rw [hzero]; decide)
  have hon : ¬(240 < rect.width ∨ OffPanel rect) := by
    rw [OffPanel, panelSize, UInt16.lt_iff_toNat_lt, hsize]
    rintro (hlt | hzero | hzero | hlt | hlt)
    · omega
    · exact hwidth hzero
    · exact hheight hzero
    · omega
    · omega
  have hflush := hshows.flushRectPixels hunit hdevice
    (fun i ↦ frontPixels (rect.y.toNat * panelSize + rect.x.toNat + i)) 240 rect
  rw [if_neg hon] at hflush
  have hcall : TensorOS.demoFlushToPanel unit s (some frontPixels) (some rect) =
      (TensorOS.flushRectPixels unit s (some fun i ↦
        frontPixels (rect.y.toNat * panelSize + rect.x.toNat + i)) 240 (some rect)).2 := by
    rw [TensorOS.demoFlushToPanel, if_neg (by tauto)]
  rw [← hcall] at hflush
  refine ⟨_, hflush, ?_⟩
  funext offset
  rw [panelPixels, paint, flushToPanel]
  have hcovers := covers_iff_panel hfits h offset
  by_cases hin : rect.covers 240 offset = true
  · have hplace := hcovers.mp hin
    rw [if_pos hplace, if_pos hin]
    refine congrArg frontPixels ?_
    rw [panelSize] at hplace ⊢
    rw [hsize]
    omega
  · rw [if_neg fun hplace ↦ hin (hcovers.mpr hplace), if_neg hin]
    rfl

end Frames

/-! ## Runs -/

/-- The two models of surface and panel show the same. -/
structure PanelAgrees (device : PanelDevice) (panel : device.State) (s : DisplayState)
    (t : DisplaySurface × Spi) : Prop where
  surface : t.1 = s.surface
  shown : ∃ memory, Shows device panel t.2 memory ∧ panelPixels memory = s.panel
  fits : FitsPanel s.surface

section Agree

variable {unit : SpiUnit} {device : PanelDevice} {panel : device.State} {s : DisplayState}
  {t : DisplaySurface × Spi} {op : DisplayOp}

/-- A drawing changes neither panel. -/
theorem PanelAgrees.draw (h : PanelAgrees device panel s t) (hop : op ≠ .publish) :
    PanelAgrees device panel (op.run s) (op.present unit t) := by
  have hpresent : op.present unit t = (op.surface t.1, t.2) := by
    cases op with
    | fillRect | blitRgb565 => rfl
    | publish => exact absurd rfl hop
  rw [hpresent]
  cases hdrawing : op.drawing s.surface with
  | none =>
    rw [run_of_drawing_eq_none hop hdrawing]
    refine ⟨?_, h.shown, h.fits⟩
    rw [h.surface, surface_of_drawing_eq_none hop hdrawing]
  | some drawing =>
    obtain ⟨clipped, color⟩ := drawing
    have hwithin := within_of_drawing hdrawing
    rw [run_of_drawing_eq_some hdrawing]
    refine ⟨by rw [h.surface], h.shown, ?_⟩
    rw [surface_of_drawing_eq_some hdrawing]
    refine ⟨h.fits.width, h.fits.height, h.fits.stride, fun _ ↦ ?_⟩
    dsimp only
    split
    · exact ⟨hwithin.width_pos, hwithin.height_pos, hwithin.right, hwithin.bottom⟩
    · next hdirty =>
      have hunion := (h.fits.within hdirty).union hwithin
      exact ⟨hunion.width_pos, hunion.height_pos, hunion.right, hunion.bottom⟩

theorem PanelAgrees.publish (hunit : unit.SendsInOrder) (hdevice : device.WritesWindows)
    (h : PanelAgrees device panel s t) :
    PanelAgrees device panel (DisplayOp.publish.run s) (DisplayOp.publish.present unit t) := by
  obtain ⟨surface, spi⟩ := t
  obtain rfl : surface = s.surface := h.surface
  obtain ⟨memory, hshows, hmemory⟩ := h.shown
  by_cases hdirty : s.surface.dirty = 0
  · refine ⟨?_, ?_, ?_⟩ <;>
      simp only [DisplayOp.run, DisplayOp.present, DisplayOp.surface, displaySurfacePublish, hdirty,
        if_true]
    · exact h.shown
    · exact h.fits
  · have hfits : FitsPanel (DisplayOp.publish.surface s.surface) := by
      rw [DisplayOp.surface, displaySurfacePublish, if_neg hdirty]
      exact ⟨h.fits.width, h.fits.height, h.fits.stride, fun hne ↦ absurd rfl hne⟩
    refine ⟨?_, ?_, ?_⟩ <;>
      simp only [DisplayOp.run, DisplayOp.present, displaySurfacePublish, hdirty, if_false]
    · obtain ⟨memory', hshows', hmemory'⟩ := hshows.demoFlushToPanel hunit hdevice h.fits
        (h.fits.within hdirty) s.surface.back
      refine ⟨memory', hshows', ?_⟩
      rw [hmemory', h.fits.stride, hmemory]
    · exact hfits

end Agree

/-- **The bytes on the wire show every frame**: over a unit that sends what it is given and a panel
that takes windows, after any run of drawings and publications from a surface that holds what the
panel shows, the pixels of the panel are those of the model in which each publication copies its
rectangle. -/
theorem panel_shows_frames {unit : SpiUnit} (hunit : unit.SendsInOrder) {device : PanelDevice}
    (hdevice : device.WritesWindows) {panel : device.State} {spi : Spi}
    (hconfigured : ∃ w, device.Configured (device.run panel spi.sent) w) (ops : List DisplayOp) :
    panelPixels (shown device panel (ops.foldl (fun t op ↦ op.present unit t)
        (displaySurfaceInit 240 240 240 (panelPixels (shown device panel spi))
          (panelPixels (shown device panel spi)), spi)).2) =
      (ops.foldl (fun s op ↦ op.run s)
        (displayStart 240 240 240 (panelPixels (shown device panel spi)))).panel := by
  have hrun : ∀ {s : DisplayState} {t : DisplaySurface × Spi}, PanelAgrees device panel s t →
      PanelAgrees device panel (ops.foldl (fun s op ↦ op.run s) s)
        (ops.foldl (fun t op ↦ op.present unit t) t) := by
    induction ops with
    | nil => exact fun h ↦ h
    | cons op ops ih =>
      intro s t h
      rw [List.foldl_cons, List.foldl_cons]
      refine ih ?_
      by_cases hop : op = .publish
      · rw [hop]
        exact h.publish hunit hdevice
      · exact h.draw hop
  have hstart : PanelAgrees device panel
      (displayStart 240 240 240 (panelPixels (shown device panel spi)))
      (displaySurfaceInit 240 240 240 (panelPixels (shown device panel spi))
        (panelPixels (shown device panel spi)), spi) :=
    ⟨rfl, ⟨_, ⟨hconfigured, rfl⟩, rfl⟩, rfl, rfl, rfl, fun hne ↦ absurd rfl hne⟩
  obtain ⟨memory, hshows, hmemory⟩ := (hrun hstart).shown
  rw [hshows.shown]
  exact hmemory

/-- A red rectangle is drawn and published, and a green one is drawn behind it. -/
theorem panel_shows_frames_red :
    let ops := [.fillRect 10 20 3 2 0xF800, .publish, .fillRect 10 20 1 1 0x07E0]
    let t := ops.foldl (fun t op ↦ DisplayOp.present wholeBytes op t)
      (displaySurfaceInit 240 240 240 (fun _ ↦ 0) (fun _ ↦ 0), idleSpi)
    panelPixels (shown Controller.device blackPanel t.2) 4810 = 0xF800 := by
  intro ops t
  have hframes := panel_shows_frames wholeBytes_sendsInOrder Controller.device_writesWindows
    blackPanel_configured ops
  refine (congrFun hframes 4810).trans ?_
  decide +kernel

end TensorOS
