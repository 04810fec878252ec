import TensorOS.Display.Surface
import TensorOS.Panel.Controller

/-!
# The driver of the panel

`panel_gc9a01.c` sends commands with the data line low and their data with the data line high. A
rectangle is a window and then its pixels, row by row through a line buffer, in which each pixel has
its two bytes exchanged, because the panel takes the high byte first and memory has the low byte
first.

The delays, the diagnostic registers and the setting up of the pins, the clock and the backlight are
left out. The functions that map coordinates to the panel are the identity.
-/

namespace TensorOS

/-! ## Lines -/

section Driver

variable (unit : SpiUnit)

/-- `gc9a01_swap16`. -/
def swap16 (value : UInt16) : UInt16 := (value <<< 8) ||| (value >>> 8)

/-- `gc9a01_begin_write`. -/
def beginWrite (s : Spi) : Spi := { s with select := false }

/-- `gc9a01_end_write`. -/
def endWrite (s : Spi) : Spi := { s with select := true }

/-- `gc9a01_write_command_locked`. -/
def writeCommandLocked (s : Spi) (command : UInt8) : Spi :=
  spiWriteBytesRaw unit { s with data := false } [command]

/-- `gc9a01_write_data_bytes_locked`. -/
def writeDataBytesLocked (s : Spi) (data : List UInt8) : Spi :=
  if data = [] then s else spiWriteBytesRaw unit { s with data := true } data

/-- The bytes of a halfword in memory. -/
def memoryBytes (value : UInt16) : List UInt8 := [value.toUInt8, (value >>> 8).toUInt8]

/-- `gc9a01_write_u16_stream_locked`. -/
def writeU16StreamLocked (s : Spi) (pixelsBe : List UInt16) : Spi :=
  if pixelsBe = [] then s
  else spiWriteBytesRaw unit { s with data := true } (pixelsBe.flatMap memoryBytes)

/-- The first or second half of `caset` or `raset`. -/
def windowWord (value : UInt32) : List UInt8 := [(value >>> 8).toUInt8, value.toUInt8]

/-- `gc9a01_set_addr_window_locked`. -/
def setAddrWindowLocked (s : Spi) (x y width height : UInt16) : Spi :=
  let caset := windowWord x.toUInt32 ++ windowWord (x.toUInt32 + width.toUInt32 - 1)
  let raset := windowWord y.toUInt32 ++ windowWord (y.toUInt32 + height.toUInt32 - 1)
  let s := writeDataBytesLocked unit (writeCommandLocked unit s 0x2A) caset
  let s := writeDataBytesLocked unit (writeCommandLocked unit s 0x2B) raset
  writeCommandLocked unit s 0x2C

/-- The end of every function that writes pixels: the rows of a rectangle, from the line buffer. -/
def writeRows (s : Spi) (x y width height : UInt16) (rows : ℕ → List UInt16) : Spi :=
  let s := setAddrWindowLocked unit (beginWrite s) x y width height
  endWrite ((List.range height.toNat).foldl (fun s row ↦
    writeU16StreamLocked unit s ((rows row).map swap16)) s)

/-! ## Rectangles -/

/-- `gc9a01_fill_screen`. -/
def fillScreen (s : Spi) (color : UInt16) : Spi :=
  writeRows unit s 0 0 240 240 fun _ ↦ List.replicate panelSize color

/-- `esp32c3_panel_gc9a01_draw_pixel`. -/
def panelDrawPixel (s : Spi) (x y color : UInt16) : Spi :=
  if panelSize ≤ x.toNat ∨ panelSize ≤ y.toNat then s else writeRows unit s x y 1 1 fun _ ↦ [color]

/-- `esp32c3_panel_gc9a01_fill_rect`. -/
def panelFillRect (s : Spi) (x y width height color : UInt16) : Spi :=
  if width = 0 ∨ height = 0 ∨ panelSize < x.toNat + width.toNat ∨
      panelSize < y.toNat + height.toNat then s
  else writeRows unit s x y width height fun _ ↦ List.replicate width.toNat color

/-- `gc9a01_write_rect_stream_pixels`. -/
def writeRectStreamPixels (s : Spi) (pixels : Option Pixels) (stride x y width height : UInt16) :
    Spi :=
  match pixels with
  | none => s
  | some pixels =>
    if stride < width ∨ width = 0 ∨ height = 0 ∨ panelSize < x.toNat + width.toNat ∨
        panelSize < y.toNat + height.toNat then s
    else
      writeRows unit s x y width height fun row ↦
        (List.range width.toNat).map fun col ↦ pixels (row * stride.toNat + col)

/-- `gc9a01_write_rect_pixels`. -/
def writeRectPixels (s : Spi) (pixels : Option Pixels) (stride x y width height : UInt16) : Spi :=
  if pixels.isNone ∨ stride < width ∨ width = 0 ∨ height = 0 then s
  else writeRectStreamPixels unit s pixels stride x y width height

/-- `gc9a01_write_rect_surface`. -/
def writeRectSurface (s : Spi) (pixels : Option Pixels) (stride : UInt16) (rect : DisplayRect) :
    Spi :=
  match pixels with
  | none => s
  | some pixels =>
    if stride = 0 then s
    else
      writeRectStreamPixels unit s
        (some fun i ↦ pixels (rect.y.toNat * stride.toNat + rect.x.toNat + i))
        stride rect.x rect.y rect.width rect.height

/-- `esp32c3_panel_gc9a01_flush_rect`. The pixels and the rectangle may be null. -/
def flushRect (s : Spi) (pixels : Option Pixels) (stride : UInt16) (rect : Option DisplayRect) :
    Int × Spi :=
  match pixels, rect with
  | some pixels, some rect =>
    if stride = 0 ∨ rect.width = 0 ∨ rect.height = 0 ∨
        panelSize < rect.x.toNat + rect.width.toNat ∨
        panelSize < rect.y.toNat + rect.height.toNat then (Status.einval, s)
    else (Status.ok, writeRectSurface unit s (some pixels) stride rect)
  | _, _ => (Status.einval, s)

/-- `esp32c3_panel_gc9a01_flush_rect_stream`. -/
def flushRectStream : Spi → Option Pixels → UInt16 → Option DisplayRect → Int × Spi :=
  flushRect unit

/-- `esp32c3_panel_gc9a01_flush_rect_pixels`. -/
def flushRectPixels (s : Spi) (pixels : Option Pixels) (stride : UInt16)
    (rect : Option DisplayRect) : Int × Spi :=
  match pixels, rect with
  | some pixels, some rect =>
    if stride = 0 ∨ rect.width = 0 ∨ rect.height = 0 ∨ stride < rect.width ∨
        panelSize < rect.x.toNat + rect.width.toNat ∨
        panelSize < rect.y.toNat + rect.height.toNat then (Status.einval, s)
    else (Status.ok,
      writeRectPixels unit s (some pixels) stride rect.x rect.y rect.width rect.height)
  | _, _ => (Status.einval, s)

/-- `runtime_display_demo_flush_to_panel`. The pointer to the pixels moves to the rectangle. -/
def demoFlushToPanel (s : Spi) (frontPixels : Option Pixels) (rect : Option DisplayRect) : Spi :=
  match frontPixels, rect with
  | some frontPixels, some rect =>
    if rect.width = 0 ∨ rect.height = 0 then s
    else
      (flushRectPixels unit s
        (some fun i ↦ frontPixels (rect.y.toNat * panelSize + rect.x.toNat + i)) 240 (some rect)).2
  | _, _ => s

end Driver

/-! ## What is sent -/

theorem memoryBytes_swap16 (value : UInt16) :
    memoryBytes (swap16 value) = [(value >>> 8).toUInt8, value.toUInt8] := by
  have hlow : (swap16 value).toUInt8 = (value >>> 8).toUInt8 := by
    rw [swap16, ← UInt8.toBitVec_inj]
    refine BitVec.eq_of_getLsbD_eq fun i hi ↦ ?_
    interval_cases i <;> simp
  have hhigh : (swap16 value >>> 8).toUInt8 = value.toUInt8 := by
    rw [swap16, ← UInt8.toBitVec_inj]
    refine BitVec.eq_of_getLsbD_eq fun i hi ↦ ?_
    interval_cases i <;> simp
  rw [memoryBytes, hlow, hhigh]

theorem sent_swap16 (pixels : List UInt16) :
    (((pixels.map swap16).flatMap memoryBytes).map dataByte) = pixels.flatMap pixelBytes := by
  induction pixels with
  | nil => rfl
  | cons pixel pixels ih =>
    rw [List.map_cons, List.flatMap_cons, memoryBytes_swap16, List.map_append, ih,
      List.flatMap_cons]
    rfl

/-- Bytes are appended to what was sent, and the panel stays selected. -/
def Sends (s s' : Spi) (bytes : List WireByte) : Prop :=
  s'.sent = s.sent ++ bytes ∧ s'.select = false

theorem Sends.trans {s s' s'' : Spi} {bytes bytes' : List WireByte} (h : Sends s s' bytes)
    (h' : Sends s' s'' bytes') : Sends s s'' (bytes ++ bytes') :=
  ⟨by rw [h'.1, h.1, List.append_assoc], h'.2⟩

section Sends

variable {unit : SpiUnit} (hunit : unit.SendsInOrder) {s : Spi}

include hunit

theorem sends_spiWrite (hselect : s.select = false) (level : Bool) (data : List UInt8) :
    Sends s (spiWriteBytesRaw unit { s with data := level } data)
      (data.map (WireByte.mk false level)) := by
  obtain ⟨hsent, hselect', -⟩ := spiWriteBytesRaw_spec hunit { s with data := level } data
  refine ⟨?_, hselect'.trans hselect⟩
  rw [hsent]
  dsimp only
  rw [hselect]

theorem sends_command (hselect : s.select = false) (command : UInt8) :
    Sends s (writeCommandLocked unit s command) [commandByte command] :=
  sends_spiWrite hunit hselect false [command]

theorem sends_data (hselect : s.select = false) (data : List UInt8) :
    Sends s (writeDataBytesLocked unit s data) (data.map dataByte) := by
  rw [writeDataBytesLocked]
  split
  · rename_i hnil
    rw [hnil]
    exact ⟨(List.append_nil _).symm, hselect⟩
  · exact sends_spiWrite hunit hselect true data

theorem sends_pixels (hselect : s.select = false) (pixels : List UInt16) :
    Sends s (writeU16StreamLocked unit s (pixels.map swap16)) (pixels.flatMap pixelBytes) := by
  rw [writeU16StreamLocked]
  split
  · rename_i hnil
    rw [List.map_eq_nil_iff.mp hnil]
    exact ⟨(List.append_nil _).symm, hselect⟩
  · rw [← sent_swap16]
    exact sends_spiWrite hunit hselect true _

theorem sends_rows (hselect : s.select = false) (rows : ℕ → List UInt16) (order : List ℕ) :
    Sends s (order.foldl (fun s row ↦ writeU16StreamLocked unit s ((rows row).map swap16)) s)
      (order.flatMap fun row ↦ (rows row).flatMap pixelBytes) := by
  induction order generalizing s with
  | nil => exact ⟨(List.append_nil _).symm, hselect⟩
  | cons row order ih =>
    have hrow := sends_pixels hunit hselect (rows row)
    exact hrow.trans (ih hrow.2)

end Sends

theorem windowWord_eq (value : UInt32) :
    windowWord value = [.ofNat (value.toNat / 256), .ofNat value.toNat] := by
  have hhigh : (value >>> 8).toUInt8 = UInt8.ofNat (value.toNat / 256) := by
    rw [← UInt8.toNat_inj, UInt32.toNat_toUInt8, UInt32.toNat_shiftRight, UInt8.toNat_ofNat',
      Nat.shiftRight_eq_div_pow]
    rfl
  have hlow : value.toUInt8 = UInt8.ofNat value.toNat := by
    rw [← UInt8.toNat_inj, UInt32.toNat_toUInt8, UInt8.toNat_ofNat']
  rw [windowWord, hhigh, hlow]

theorem toNat_windowEnd {start size : UInt16} (hsize : 0 < size.toNat) :
    (start.toUInt32 + size.toUInt32 - 1).toNat = start.toNat + size.toNat - 1 := by
  have hstart := start.toNat_lt
  have hlt := size.toNat_lt
  have hsum : (start.toUInt32 + size.toUInt32).toNat = start.toNat + size.toNat := by
    rw [UInt32.toNat_add, UInt16.toNat_toUInt32, UInt16.toNat_toUInt32]
    omega
  have hone : (1 : UInt32).toNat = 1 := rfl
  rw [UInt32.toNat_sub_of_le _ _ (by rw [UInt32.le_iff_toNat_le, hsum, hone]; omega), hsum, hone]

section Window

variable {unit : SpiUnit} (hunit : unit.SendsInOrder) {width height : UInt16}
  (hwidth : 0 < width.toNat) (hheight : 0 < height.toNat)

include hunit hwidth hheight

theorem sends_window {s : Spi} (hselect : s.select = false) (x y : UInt16) :
    Sends s (setAddrWindowLocked unit s x y width height)
      (PanelDevice.windowBytes x.toNat y.toNat width.toNat height.toNat) := by
  have hcaset := sends_command hunit hselect 0x2A
  have hcols := sends_data hunit hcaset.2
    (windowWord x.toUInt32 ++ windowWord (x.toUInt32 + width.toUInt32 - 1))
  have hraset := sends_command hunit hcols.2 0x2B
  have hrows := sends_data hunit hraset.2
    (windowWord y.toUInt32 ++ windowWord (y.toUInt32 + height.toUInt32 - 1))
  have hall :=
    (((hcaset.trans hcols).trans hraset).trans hrows).trans (sends_command hunit hrows.2 0x2C)
  have hbytes : PanelDevice.windowBytes x.toNat y.toNat width.toNat height.toNat =
      [commandByte 0x2A] ++ (windowWord x.toUInt32 ++
        windowWord (x.toUInt32 + width.toUInt32 - 1)).map dataByte ++ [commandByte 0x2B] ++
      (windowWord y.toUInt32 ++
        windowWord (y.toUInt32 + height.toUInt32 - 1)).map dataByte ++ [commandByte 0x2C] := by
    rw [windowWord_eq, windowWord_eq, windowWord_eq, windowWord_eq, toNat_windowEnd hwidth,
      toNat_windowEnd hheight, UInt16.toNat_toUInt32, UInt16.toNat_toUInt32]
    rfl
  rw [hbytes]
  exact hall

theorem sent_writeRows (s : Spi) (x y : UInt16) (rows : ℕ → List UInt16) :
    (writeRows unit s x y width height rows).sent = s.sent ++
      (PanelDevice.windowBytes x.toNat y.toNat width.toNat height.toNat ++
        (List.range height.toNat).flatMap fun row ↦ (rows row).flatMap pixelBytes) := by
  have hwindow := sends_window hunit hwidth hheight (s := beginWrite s) rfl x y
  exact (hwindow.trans (sends_rows hunit hwindow.2 rows (List.range height.toNat))).1

end Window

/-! ## What is shown -/

/-- The pixels that the panel shows, if it was as given before anything was sent. -/
def shown (device : PanelDevice) (panel : device.State) (s : Spi) : ℕ → ℕ → UInt16 :=
  device.pixels (device.run panel s.sent)

/-- After all that was sent, the panel is configured for pixels and shows these. -/
structure Shows (device : PanelDevice) (panel : device.State) (s : Spi)
    (memory : ℕ → ℕ → UInt16) : Prop where
  configured : ∃ w, device.Configured (device.run panel s.sent) w
  shown : shown device panel s = memory

/-- The pixels, with those of a rectangle replaced. -/
def paint (x y width height : ℕ) (color : ℕ → ℕ → UInt16) (memory : ℕ → ℕ → UInt16) :
    ℕ → ℕ → UInt16 :=
  fun col row ↦
    if x ≤ col ∧ col < x + width ∧ y ≤ row ∧ row < y + height then color (row - y) (col - x)
    else memory col row

/-- The rectangle is empty, or it does not lie on the panel. -/
abbrev OffPanel (rect : DisplayRect) : Prop :=
  rect.width = 0 ∨ rect.height = 0 ∨ panelSize < rect.x.toNat + rect.width.toNat ∨
    panelSize < rect.y.toNat + rect.height.toNat

section Shows

variable {unit : SpiUnit} (hunit : unit.SendsInOrder) {device : PanelDevice}
  (hdevice : device.WritesWindows) {panel : device.State} {s : Spi} {memory : ℕ → ℕ → UInt16}

include hunit hdevice

theorem Shows.writeRows (h : Shows device panel s memory) {rect : DisplayRect}
    (hon : ¬OffPanel rect) {rows : ℕ → List UInt16} (color : ℕ → ℕ → UInt16)
    (hlength : ∀ r, (rows r).length = rect.width.toNat)
    (hcolor : ∀ r c, c < rect.width.toNat → (rows r).getD c 0 = color r c) :
    Shows device panel (writeRows unit s rect.x rect.y rect.width rect.height rows)
      (paint rect.x.toNat rect.y.toNat rect.width.toNat rect.height.toNat color memory) := by
  simp only [OffPanel, not_or, not_lt, ← UInt16.toNat_inj] at hon
  obtain ⟨hwidth, hheight, hright, hbottom⟩ := hon
  obtain ⟨w, hconfigured⟩ := h.configured
  have hsent := sent_writeRows hunit (Nat.pos_of_ne_zero hwidth) (Nat.pos_of_ne_zero hheight) s
    rect.x rect.y rows
  obtain ⟨hconfigured', hpixels⟩ := hdevice.rectangle hconfigured rows (Nat.pos_of_ne_zero hwidth)
    (Nat.pos_of_ne_zero hheight) hright hbottom hlength
  constructor
  · rw [hsent, PanelDevice.run_append]
    exact hconfigured'
  · funext col row
    rw [TensorOS.shown, hsent, PanelDevice.run_append, hpixels, paint, ← h.shown]
    split
    · rename_i hin
      exact hcolor _ _ (by omega)
    · rfl

theorem Shows.stream (h : Shows device panel s memory) (pixels : Pixels) (stride : UInt16)
    (rect : DisplayRect) :
    Shows device panel
      (writeRectStreamPixels unit s (some pixels) stride rect.x rect.y rect.width rect.height)
      (if stride < rect.width ∨ OffPanel rect then memory
      else paint rect.x.toNat rect.y.toNat rect.width.toNat rect.height.toNat
        (fun row col ↦ pixels (row * stride.toNat + col)) memory) := by
  rw [writeRectStreamPixels]
  by_cases hoff : stride < rect.width ∨ OffPanel rect
  · rw [if_pos hoff, if_pos hoff]
    exact h
  · rw [if_neg hoff, if_neg hoff]
    refine h.writeRows hunit hdevice (fun hrect ↦ hoff (Or.inr hrect)) _ (fun r ↦ by simp) ?_
    intro r c hc
    rw [List.getD_eq_getElem _ _ (by simpa using hc), List.getElem_map, List.getElem_range]

theorem Shows.fill (h : Shows device panel s memory) (rect : DisplayRect) (color : UInt16) :
    Shows device panel
      (if OffPanel rect then s
      else TensorOS.writeRows unit s rect.x rect.y rect.width rect.height
        fun _ ↦ List.replicate rect.width.toNat color)
      (if OffPanel rect then memory
      else paint rect.x.toNat rect.y.toNat rect.width.toNat rect.height.toNat (fun _ _ ↦ color)
        memory) := by
  by_cases hoff : OffPanel rect
  · rw [if_pos hoff, if_pos hoff]
    exact h
  · rw [if_neg hoff, if_neg hoff]
    refine h.writeRows hunit hdevice hoff _ (fun _ ↦ List.length_replicate) fun r c hc ↦ ?_
    rw [List.getD_eq_getElem _ _ (by rwa [List.length_replicate]), List.getElem_replicate]

end Shows

/-- A stride of zero is less than the width of every rectangle on the panel. -/
theorem offPanel_of_stride_zero {rect : DisplayRect} {stride : UInt16}
    (h : stride = 0 ∨ OffPanel rect) : stride < rect.width ∨ OffPanel rect := by
  rcases h with rfl | hoff
  · by_cases hwidth : rect.width = 0
    · exact Or.inr (Or.inl hwidth)
    · refine Or.inl (UInt16.lt_iff_toNat_lt.mpr (Nat.pos_of_ne_zero fun h ↦ hwidth ?_))
      exact UInt16.toNat_inj.mp h
  · exact Or.inr hoff

section Flush

variable {unit : SpiUnit} (hunit : unit.SendsInOrder) {device : PanelDevice}
  (hdevice : device.WritesWindows) {panel : device.State} {s : Spi} {memory : ℕ → ℕ → UInt16}

include hunit hdevice

theorem Shows.flushRect (h : Shows device panel s memory) (pixels : Pixels) (stride : UInt16)
    (rect : DisplayRect) :
    Shows device panel (flushRect unit s (some pixels) stride (some rect)).2
      (if stride < rect.width ∨ OffPanel rect then memory
      else paint rect.x.toNat rect.y.toNat rect.width.toNat rect.height.toNat
        (fun row col ↦ pixels (rect.offset stride row col)) memory) := by
  have hoffset : (fun row col : ℕ ↦ pixels (rect.offset stride row col)) = fun row col ↦
      pixels (rect.y.toNat * stride.toNat + rect.x.toNat + (row * stride.toNat + col)) := by
    funext row col
    rw [DisplayRect.offset, Nat.add_mul]
    congr 1
    omega
  rw [TensorOS.flushRect]
  by_cases hoff : stride = 0 ∨ OffPanel rect
  · rw [if_pos hoff, if_pos (offPanel_of_stride_zero hoff)]
    exact h
  · rw [if_neg hoff, writeRectSurface, if_neg fun hzero ↦ hoff (Or.inl hzero), hoffset]
    exact h.stream hunit hdevice
      (fun i ↦ pixels (rect.y.toNat * stride.toNat + rect.x.toNat + i)) stride rect

theorem Shows.flushRectPixels (h : Shows device panel s memory) (pixels : Pixels)
    (stride : UInt16) (rect : DisplayRect) :
    Shows device panel (flushRectPixels unit s (some pixels) stride (some rect)).2
      (if stride < rect.width ∨ OffPanel rect then memory
      else paint rect.x.toNat rect.y.toNat rect.width.toNat rect.height.toNat
        (fun row col ↦ pixels (row * stride.toNat + col)) memory) := by
  have hzero : stride = 0 → stride < rect.width ∨ OffPanel rect := fun h ↦
    offPanel_of_stride_zero (Or.inl h)
  rw [TensorOS.flushRectPixels]
  by_cases hoff : stride < rect.width ∨ OffPanel rect
  · rw [if_pos (by tauto), if_pos hoff]
    exact h
  · rw [if_neg (by tauto), writeRectPixels, if_neg (by simp only [Option.isNone_some]; tauto),
      if_neg hoff]
    have hstream := h.stream hunit hdevice pixels stride rect
    rwa [if_neg hoff] at hstream

end Flush

/-- The functions that draw on the panel. -/
inductive PanelCall
  | fillScreen (color : UInt16)
  | drawPixel (x y color : UInt16)
  | fillRect (x y width height color : UInt16)
  | flushRect (pixels : Option Pixels) (stride : UInt16) (rect : Option DisplayRect)
  | flushRectStream (pixels : Option Pixels) (stride : UInt16) (rect : Option DisplayRect)
  | flushRectPixels (pixels : Option Pixels) (stride : UInt16) (rect : Option DisplayRect)

namespace PanelCall

def run (unit : SpiUnit) (s : Spi) : PanelCall → Spi
  | fillScreen color => TensorOS.fillScreen unit s color
  | drawPixel x y color => panelDrawPixel unit s x y color
  | fillRect x y width height color => panelFillRect unit s x y width height color
  | flushRect pixels stride rect => (TensorOS.flushRect unit s pixels stride rect).2
  | flushRectStream pixels stride rect => (TensorOS.flushRectStream unit s pixels stride rect).2
  | flushRectPixels pixels stride rect => (TensorOS.flushRectPixels unit s pixels stride rect).2

/-- The rectangle that a call paints, and the color of each pixel of it. -/
def painting : PanelCall → Option (DisplayRect × (ℕ → ℕ → UInt16))
  | fillScreen color => some (⟨0, 0, 240, 240⟩, fun _ _ ↦ color)
  | drawPixel x y color => some (⟨x, y, 1, 1⟩, fun _ _ ↦ color)
  | fillRect x y width height color => some (⟨x, y, width, height⟩, fun _ _ ↦ color)
  | flushRect pixels stride rect | flushRectStream pixels stride rect => do
    let rect ← rect
    let pixels ← pixels
    if stride < rect.width then none
    else some (rect, fun row col ↦ pixels (rect.offset stride row col))
  | flushRectPixels pixels stride rect => do
    let rect ← rect
    let pixels ← pixels
    if stride < rect.width then none
    else some (rect, fun row col ↦ pixels (row * stride.toNat + col))

/-- What a call is for: a rectangle that is not empty and lies on the panel is painted. -/
def meaning (memory : ℕ → ℕ → UInt16) (call : PanelCall) : ℕ → ℕ → UInt16 :=
  match call.painting with
  | none => memory
  | some (rect, color) =>
    if OffPanel rect then memory
    else paint rect.x.toNat rect.y.toNat rect.width.toNat rect.height.toNat color memory

theorem meaning_of_stride {memory : ℕ → ℕ → UInt16} {call : PanelCall} {rect : DisplayRect}
    {stride : UInt16} {color : ℕ → ℕ → UInt16}
    (h : call.painting = if stride < rect.width then none else some (rect, color)) :
    call.meaning memory = if stride < rect.width ∨ OffPanel rect then memory
      else paint rect.x.toNat rect.y.toNat rect.width.toNat rect.height.toNat color memory := by
  rw [meaning, h]
  by_cases hstride : stride < rect.width
  · rw [if_pos hstride, if_pos (Or.inl hstride)]
  · rw [if_neg hstride]
    exact if_congr (by simp [hstride]) rfl rfl

end PanelCall

section Calls

variable {unit : SpiUnit} (hunit : unit.SendsInOrder) {device : PanelDevice}
  (hdevice : device.WritesWindows) {panel : device.State} {s : Spi} {memory : ℕ → ℕ → UInt16}

include hunit hdevice

/-- **A call paints its rectangle**, and nothing when one of its checks fails. -/
theorem Shows.call (h : Shows device panel s memory) (call : PanelCall) :
    Shows device panel (call.run unit s) (call.meaning memory) := by
  cases call with
  | fillScreen color =>
    have hscreen : ¬OffPanel ⟨0, 0, 240, 240⟩ := by
      simp [OffPanel, panelSize]
    have hfill := h.fill hunit hdevice ⟨0, 0, 240, 240⟩ color
    rw [if_neg hscreen, if_neg hscreen] at hfill
    rw [PanelCall.meaning, PanelCall.painting]
    dsimp only
    rw [if_neg hscreen]
    exact hfill
  | drawPixel x y color =>
    have hfill := h.fill hunit hdevice ⟨x, y, 1, 1⟩ color
    have hoff : OffPanel ⟨x, y, 1, 1⟩ ↔ panelSize ≤ x.toNat ∨ panelSize ≤ y.toNat := by
      simp [OffPanel]
    simp only [hoff] at hfill
    rw [PanelCall.run, PanelCall.meaning, PanelCall.painting]
    simp only [hoff]
    exact hfill
  | fillRect x y width height color => exact h.fill hunit hdevice ⟨x, y, width, height⟩ color
  | flushRect pixels stride rect | flushRectStream pixels stride rect =>
    cases pixels with
    | none => cases rect <;> exact h
    | some pixels =>
      cases rect with
      | none => exact h
      | some rect =>
        rw [PanelCall.meaning_of_stride rfl]
        exact h.flushRect hunit hdevice pixels stride rect
  | flushRectPixels pixels stride rect =>
    cases pixels with
    | none => cases rect <;> exact h
    | some pixels =>
      cases rect with
      | none => exact h
      | some rect =>
        rw [PanelCall.meaning_of_stride rfl]
        exact h.flushRectPixels hunit hdevice pixels stride rect

end Calls

/-- **The driver refines painting**: over a unit that sends what it is given and a panel that takes
windows, whatever the registers held, after any calls the panel shows what the calls are for,
painted over what it showed before, and it is as configured as it was. -/
theorem panel_refines_painting {unit : SpiUnit} (hunit : unit.SendsInOrder) {device : PanelDevice}
    (hdevice : device.WritesWindows) {panel : device.State} {s : Spi}
    (hconfigured : ∃ w, device.Configured (device.run panel s.sent) w) (calls : List PanelCall) :
    Shows device panel (calls.foldl (PanelCall.run unit) s)
      (calls.foldl PanelCall.meaning (shown device panel s)) := by
  have hrun : ∀ {s : Spi} {memory : ℕ → ℕ → UInt16}, Shows device panel s memory →
      Shows device panel (calls.foldl (PanelCall.run unit) s)
        (calls.foldl PanelCall.meaning memory) := by
    induction calls with
    | nil => exact fun h ↦ h
    | cons call calls ih => exact fun h ↦ ih (h.call hunit hdevice call)
  exact hrun ⟨hconfigured, rfl⟩

/-- The unit that sends the registers as the length register says. -/
def wholeBytes : SpiUnit := fun words length ↦
  (List.range ((length.toNat + 1) / 8)).map fun k ↦ byteOf (words (k / 4)) (k % 4)

theorem wholeBytes_sendsInOrder : wholeBytes.SendsInOrder := by
  intro words length n _ hlength
  rw [wholeBytes, hlength, Nat.mul_div_cancel_left n (by decide)]

/-- A black panel that has been set up as the driver does it. -/
def blackPanel : Controller where
  command := 0x21
  params := []
  format := 0x05
  madctl := 0x08
  high := none
  canvas := ⟨⟨0, 239, 0, 239⟩, 0, 0, fun _ _ ↦ 0⟩

/-- The unit before anything was sent, with something in its registers. -/
def idleSpi : Spi := ⟨fun _ ↦ 0xFFFFFFFF, 7, true, true, []⟩

theorem blackPanel_configured :
    ∃ w, Controller.device.Configured (Controller.device.run blackPanel idleSpi.sent) w :=
  ⟨_, (by decide : blackPanel.Configured), rfl⟩

/-- A red rectangle with a white pixel, and a call that is refused. -/
theorem panel_refines_painting_twice :
    let calls := [.fillRect 10 20 3 2 0xF800, .drawPixel 11 21 0xFFFF, .fillRect 239 0 2 1 0xFFFF]
    let s := calls.foldl (PanelCall.run wholeBytes) idleSpi
    shown Controller.device blackPanel s 10 20 = 0xF800 ∧
      shown Controller.device blackPanel s 11 21 = 0xFFFF ∧
      shown Controller.device blackPanel s 239 0 = 0 := by
  intro calls s
  have hshows := panel_refines_painting wholeBytes_sendsInOrder Controller.device_writesWindows
    blackPanel_configured calls
  rw [hshows.shown]
  exact ⟨rfl, rfl, rfl⟩

end TensorOS
