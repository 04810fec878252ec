import TensorOS.Panel.Spi

/-!
# What the panel does with the bytes

The controller of the panel is no part of the source, so it is a parameter, and this is what the
driver relies on: two commands set the first and the last column and row of a window, and a third
one starts writing pixels from the corner of the window, two bytes each and row by row
(`PanelDevice.WritesWindows`). This is said of a panel that is configured for it. There are commands
after which a pixel has another number of bits, or columns and rows are exchanged.

A canvas is what such a panel keeps while it is written: the window, the place of the next pixel,
and the pixels. At the end stands a controller that keeps to all this.
-/

namespace TensorOS

/-- `ESP32C3_PANEL_GC9A01_WIDTH`, and the height. -/
def panelSize : ℕ := 240

/-! ## Writing pixels -/

/-- The columns and rows that are written. -/
structure Window where
  colStart : ℕ
  colEnd : ℕ
  rowStart : ℕ
  rowEnd : ℕ

/-- The window, the place of the next pixel, and the pixels by column and row. -/
structure Canvas where
  window : Window
  col : ℕ
  row : ℕ
  memory : ℕ → ℕ → UInt16

namespace Canvas

variable {c : Canvas}

/-- A pixel is written. Behind the last column follows the next row of the window, and behind the
last row the first one. -/
def put (c : Canvas) (pixel : UInt16) : Canvas where
  window := c.window
  memory := Function.update c.memory c.col (Function.update (c.memory c.col) c.row pixel)
  col := if c.col = c.window.colEnd then c.window.colStart else c.col + 1
  row :=
    if c.col = c.window.colEnd then
      if c.row = c.window.rowEnd then c.window.rowStart else c.row + 1
    else c.row

theorem foldl_put (pixels : List UInt16) (hlength : c.col + pixels.length = c.window.colEnd + 1)
    (hpos : 0 < pixels.length) :
    (pixels.foldl put c).window = c.window ∧ (pixels.foldl put c).col = c.window.colStart ∧
      (pixels.foldl put c).row =
        (if c.row = c.window.rowEnd then c.window.rowStart else c.row + 1) ∧
      ∀ x y, (pixels.foldl put c).memory x y =
        if y = c.row ∧ c.col ≤ x ∧ x ≤ c.window.colEnd then pixels.getD (x - c.col) 0
        else c.memory x y := by
  induction pixels generalizing c with
  | nil => exact absurd hpos (Nat.lt_irrefl _)
  | cons pixel pixels ih =>
    rw [List.length_cons] at hlength
    rw [List.foldl_cons]
    have hmemory : ∀ x y, (c.put pixel).memory x y =
        if y = c.row ∧ x = c.col then pixel else c.memory x y := by
      intro x y
      rw [put]
      dsimp only
      by_cases hx : x = c.col
      · rw [hx, Function.update_self]
        by_cases hy : y = c.row
        · rw [hy, Function.update_self, if_pos ⟨rfl, rfl⟩]
        · rw [Function.update_of_ne hy, if_neg fun h ↦ hy h.1]
      · rw [Function.update_of_ne hx, if_neg fun h ↦ hx h.2]
    by_cases hlast : c.col = c.window.colEnd
    · -- the last pixel of the row
      obtain rfl : pixels = [] := List.length_eq_zero_iff.mp (by omega)
      rw [List.foldl_nil]
      refine ⟨rfl, if_pos hlast, if_pos hlast, fun x y ↦ ?_⟩
      rw [hmemory]
      by_cases hxy : y = c.row ∧ x = c.col
      · rw [if_pos hxy, if_pos ⟨hxy.1, by omega, by omega⟩, hxy.2, Nat.sub_self]
        rfl
      · rw [if_neg hxy, if_neg]
        rintro ⟨hy, hfrom, hto⟩
        exact hxy ⟨hy, by omega⟩
    · have hcol : (c.put pixel).col = c.col + 1 := if_neg hlast
      have hrow : (c.put pixel).row = c.row := if_neg hlast
      obtain ⟨hsame, hcol', hrow', hmemory'⟩ := ih (c := c.put pixel)
        (by rw [hcol]; exact (by omega : c.col + 1 + pixels.length = c.window.colEnd + 1))
        (by omega)
      refine ⟨hsame, hcol', ?_, fun x y ↦ ?_⟩
      · rw [hrow', hrow]
        rfl
      · rw [hmemory', hrow, hcol, hmemory]
        have hend : (c.put pixel).window.colEnd = c.window.colEnd := rfl
        rw [hend]
        by_cases hxy : y = c.row ∧ x = c.col
        · rw [if_neg (by omega), if_pos hxy, if_pos ⟨hxy.1, by omega, by omega⟩, hxy.2,
            Nat.sub_self]
          rfl
        · rw [if_neg hxy]
          by_cases hin : y = c.row ∧ c.col ≤ x ∧ x ≤ c.window.colEnd
          · have hsucc : x - c.col = x - (c.col + 1) + 1 := by omega
            rw [if_pos (by omega), if_pos hin, hsucc, List.getD_cons_succ]
          · rw [if_neg (by omega), if_neg hin]

theorem foldl_rows (rows : ℕ → List UInt16) (hcols : c.window.colStart ≤ c.window.colEnd)
    (hlength : ∀ r, (rows r).length = c.window.colEnd - c.window.colStart + 1)
    (hcol : c.col = c.window.colStart)
    (hrow : c.row = c.window.rowStart) (n : ℕ) (hn : n ≤ c.window.rowEnd - c.window.rowStart + 1) :
    ((List.range n).foldl (fun c r ↦ (rows r).foldl put c) c).window = c.window ∧
      ((List.range n).foldl (fun c r ↦ (rows r).foldl put c) c).col = c.window.colStart ∧
      (n ≤ c.window.rowEnd - c.window.rowStart →
        ((List.range n).foldl (fun c r ↦ (rows r).foldl put c) c).row = c.window.rowStart + n) ∧
      ∀ x y, ((List.range n).foldl (fun c r ↦ (rows r).foldl put c) c).memory x y =
        if c.window.colStart ≤ x ∧ x ≤ c.window.colEnd ∧ c.window.rowStart ≤ y ∧
            y < c.window.rowStart + n then
          (rows (y - c.window.rowStart)).getD (x - c.window.colStart) 0
        else c.memory x y := by
  induction n with
  | zero =>
    refine ⟨rfl, hcol, fun _ ↦ hrow, fun x y ↦ (if_neg ?_).symm⟩
    rintro ⟨-, -, hfrom, hto⟩
    exact absurd hto (Nat.not_lt.mpr hfrom)
  | succ n ih =>
    obtain ⟨hsame, hcol', hrow', hmemory⟩ := ih (by omega)
    rw [List.range_succ, List.foldl_append, List.foldl_cons, List.foldl_nil]
    generalize (List.range n).foldl (fun c r ↦ (rows r).foldl put c) c = d at *
    have hrowd := hrow' (by omega)
    have hlengthn := hlength n
    obtain ⟨hsamed, hcold, hrown, hmemoryd⟩ := foldl_put (c := d) (rows n)
      (by rw [hcol', hsame, hlengthn]; omega) (by omega)
    refine ⟨hsamed.trans hsame, ?_, fun hle ↦ ?_, fun x y ↦ ?_⟩
    · rw [hcold, hsame]
    · rw [hrown, hrowd, hsame, if_neg (by omega), Nat.add_assoc]
    · rw [hmemoryd, hmemory, hrowd, hcol', hsame]
      by_cases hy : y = c.window.rowStart + n
      · have hsub : y - c.window.rowStart = n := by omega
        rw [hsub]
        by_cases hx : c.window.colStart ≤ x ∧ x ≤ c.window.colEnd
        · rw [if_pos ⟨hy, hx⟩, if_pos ⟨hx.1, hx.2, by omega, by omega⟩]
        · rw [if_neg fun h ↦ hx h.2, if_neg (by omega), if_neg fun h ↦ hx ⟨h.1, h.2.1⟩]
      · rw [if_neg fun h ↦ hy h.1]
        refine if_congr ?_ rfl rfl
        omega

end Canvas

/-! ## The device -/

/-- A command on the wire, while the panel is selected. -/
def commandByte (value : UInt8) : WireByte := ⟨false, false, value⟩

/-- A data byte on the wire, while the panel is selected. -/
def dataByte (value : UInt8) : WireByte := ⟨false, true, value⟩

/-- A number in two bytes. -/
def wordBytes (n : ℕ) : List WireByte := [dataByte (.ofNat (n / 256)), dataByte (.ofNat n)]

/-- The two bytes of a pixel. -/
def pixelBytes (pixel : UInt16) : List WireByte :=
  [dataByte (pixel >>> 8).toUInt8, dataByte pixel.toUInt8]

/-- A panel: its states, what a byte does, and the pixels that it shows. It may be configured for
pixels of two bytes that come row by row, with some window, and then it may be writing. -/
structure PanelDevice where
  State : Type
  receive : State → WireByte → State
  pixels : State → ℕ → ℕ → UInt16
  Configured : State → Window → Prop
  Writing : State → Canvas → Prop

namespace PanelDevice

variable {d : PanelDevice}

/-- The bytes arrive. -/
def run (d : PanelDevice) (c : d.State) (bytes : List WireByte) : d.State := bytes.foldl d.receive c

theorem run_append (c : d.State) (bytes bytes' : List WireByte) :
    d.run c (bytes ++ bytes') = d.run (d.run c bytes) bytes' :=
  List.foldl_append

/-- What the driver relies on: the commands that set the columns and the rows of the window, the one
that starts writing, and the pixels. -/
structure WritesWindows (d : PanelDevice) : Prop where
  columns : ∀ {c : d.State} {w : Window} {first last : ℕ}, d.Configured c w → first ≤ last →
    last < panelSize →
    let c' := d.run c (commandByte 0x2A :: (wordBytes first ++ wordBytes last))
    d.Configured c' { w with colStart := first, colEnd := last } ∧ d.pixels c' = d.pixels c
  rows : ∀ {c : d.State} {w : Window} {first last : ℕ}, d.Configured c w → first ≤ last →
    last < panelSize →
    let c' := d.run c (commandByte 0x2B :: (wordBytes first ++ wordBytes last))
    d.Configured c' { w with rowStart := first, rowEnd := last } ∧ d.pixels c' = d.pixels c
  write : ∀ {c : d.State} {w : Window}, d.Configured c w →
    d.Writing (d.receive c (commandByte 0x2C)) ⟨w, w.colStart, w.rowStart, d.pixels c⟩
  pixel : ∀ {c : d.State} {k : Canvas} (pixel : UInt16), d.Writing c k →
    d.Writing (d.run c (pixelBytes pixel)) (k.put pixel)
  written : ∀ {c : d.State} {k : Canvas}, d.Writing c k →
    d.Configured c k.window ∧ d.pixels c = k.memory

/-- The bytes of a window. -/
def windowBytes (x y width height : ℕ) : List WireByte :=
  commandByte 0x2A :: (wordBytes x ++ wordBytes (x + width - 1)) ++
    commandByte 0x2B :: (wordBytes y ++ wordBytes (y + height - 1)) ++ [commandByte 0x2C]

namespace WritesWindows

variable (h : d.WritesWindows)

include h

theorem run_pixels {c : d.State} {k : Canvas} (hc : d.Writing c k) (pixels : List UInt16) :
    d.Writing (d.run c (pixels.flatMap pixelBytes)) (pixels.foldl Canvas.put k) := by
  induction pixels generalizing c k with
  | nil => exact hc
  | cons pixel pixels ih =>
    rw [List.flatMap_cons, run_append, List.foldl_cons]
    exact ih (h.pixel pixel hc)

theorem run_pixelRows {c : d.State} {k : Canvas} (hc : d.Writing c k) (rows : ℕ → List UInt16)
    (order : List ℕ) :
    d.Writing (d.run c (order.flatMap fun r ↦ (rows r).flatMap pixelBytes))
      (order.foldl (fun k r ↦ (rows r).foldl Canvas.put k) k) := by
  induction order generalizing c k with
  | nil => exact hc
  | cons r order ih =>
    rw [List.flatMap_cons, run_append, List.foldl_cons]
    exact ih (h.run_pixels hc (rows r))

/-- **A rectangle on the panel**: a window and the pixels for it, row by row, set these pixels and
no others. The panel stays configured. -/
theorem rectangle {c : d.State} {w : Window} (hc : d.Configured c w) {x y width height : ℕ}
    (rows : ℕ → List UInt16) (hwidth : 0 < width) (hheight : 0 < height)
    (hright : x + width ≤ panelSize) (hbottom : y + height ≤ panelSize)
    (hlength : ∀ r, (rows r).length = width) :
    let c' := d.run c (windowBytes x y width height ++
      (List.range height).flatMap fun r ↦ (rows r).flatMap pixelBytes)
    (∃ w', d.Configured c' w') ∧ ∀ col row, d.pixels c' col row =
      if x ≤ col ∧ col < x + width ∧ y ≤ row ∧ row < y + height then
        (rows (row - y)).getD (col - x) 0
      else d.pixels c col row := by
  intro c'
  obtain ⟨hcolumns, hpixels⟩ := h.columns hc (by omega : x ≤ x + width - 1) (by omega)
  obtain ⟨hrows, hpixels'⟩ := h.rows hcolumns (by omega : y ≤ y + height - 1) (by omega)
  have hwriting := h.run_pixelRows (h.write hrows) rows (List.range height)
  rw [hpixels', hpixels] at hwriting
  have hc' : d.Writing c' _ := hwriting
  obtain ⟨-, -, -, hmemory⟩ := Canvas.foldl_rows
    (c := ⟨⟨x, x + width - 1, y, y + height - 1⟩, x, y, d.pixels c⟩) rows
    (by change x ≤ x + width - 1; omega)
    (fun r ↦ by rw [hlength]; change width = x + width - 1 - x + 1; omega) rfl rfl height
    (by change height ≤ y + height - 1 - y + 1; omega)
  obtain ⟨hconfigured, hshown⟩ := h.written hc'
  refine ⟨⟨_, hconfigured⟩, fun col row ↦ ?_⟩
  rw [hshown, hmemory]
  refine if_congr ?_ rfl rfl
  change x ≤ col ∧ col ≤ x + width - 1 ∧ y ≤ row ∧ row < y + height ↔ _
  omega

end WritesWindows

end PanelDevice

/-! ## A controller -/

/-- The last command, the data bytes since then, the two settings, the first half of a pixel when it
has arrived, and the canvas. -/
structure Controller where
  command : UInt8
  params : List UInt8
  format : UInt8
  madctl : UInt8
  high : Option UInt8
  canvas : Canvas

namespace Controller

variable {c : Controller}

/-- The number in two bytes. -/
def word (high low : UInt8) : ℕ := high.toNat * 256 + low.toNat

/-- Pixels have 16 bits, and columns and rows are neither exchanged nor mirrored. -/
def Configured (c : Controller) : Prop := c.format = 0x05 ∧ c.madctl &&& 0xE0 = 0

instance (c : Controller) : Decidable c.Configured := inferInstanceAs (Decidable (_ ∧ _))

/-- A command arrives. -/
def receiveCommand (c : Controller) (command : UInt8) : Controller :=
  let c := { c with command, params := [], high := none }
  if command = 0x2C then
    { c with canvas := { c.canvas with
        col := c.canvas.window.colStart, row := c.canvas.window.rowStart } }
  else c

/-- A data byte arrives. Pixels are only modelled for a controller that is configured for them. -/
def receiveData (c : Controller) (value : UInt8) : Controller :=
  if c.command = 0x2C then
    if c.Configured then
      match c.high with
      | none => { c with high := some value }
      | some high => { c with canvas := c.canvas.put (.ofNat (word high value)), high := none }
    else c
  else
    let c := { c with params := c.params ++ [value] }
    match c.command, c.params with
    | 0x2A, [a, b, d, e] =>
      { c with canvas.window.colStart := word a b, canvas.window.colEnd := word d e }
    | 0x2B, [a, b, d, e] =>
      { c with canvas.window.rowStart := word a b, canvas.window.rowEnd := word d e }
    | 0x36, [a] => { c with madctl := a }
    | 0x3A, [a] => { c with format := a }
    | _, _ => c

/-- A byte arrives. -/
def receive (c : Controller) (byte : WireByte) : Controller :=
  if byte.select then c
  else if byte.data then c.receiveData byte.value
  else c.receiveCommand byte.value

/-- The panel with this controller. -/
def device : PanelDevice where
  State := Controller
  receive := receive
  pixels := fun c ↦ c.canvas.memory
  Configured := fun c w ↦ c.Configured ∧ c.canvas.window = w
  Writing := fun c k ↦ c.Configured ∧ c.command = 0x2C ∧ c.high = none ∧ c.canvas = k

theorem word_ofNat {n : ℕ} (hn : n < 65536) : word (.ofNat (n / 256)) (.ofNat n) = n := by
  rw [word, UInt8.toNat_ofNat', UInt8.toNat_ofNat']
  omega

theorem word_pixel (pixel : UInt16) :
    UInt16.ofNat (word (pixel >>> 8).toUInt8 pixel.toUInt8) = pixel := by
  rw [← UInt16.toNat_inj, word, UInt16.toNat_ofNat', UInt16.toNat_toUInt8, UInt16.toNat_toUInt8,
    UInt16.toNat_shiftRight]
  have hlt := pixel.toNat_lt
  have h8 : (8 : UInt16).toNat % 16 = 8 := rfl
  rw [h8, Nat.shiftRight_eq_div_pow]
  omega

theorem run_columns (a b d e : UInt8) :
    device.run c [commandByte 0x2A, dataByte a, dataByte b, dataByte d, dataByte e] =
      { c with
        command := 0x2A
        params := [a, b, d, e]
        high := none
        canvas.window.colStart := word a b
        canvas.window.colEnd := word d e } :=
  rfl

theorem run_rows (a b d e : UInt8) :
    device.run c [commandByte 0x2B, dataByte a, dataByte b, dataByte d, dataByte e] =
      { c with
        command := 0x2B
        params := [a, b, d, e]
        high := none
        canvas.window.rowStart := word a b
        canvas.window.rowEnd := word d e } :=
  rfl

theorem run_pixelBytes (hc : c.Configured) (hcommand : c.command = 0x2C) (hhigh : c.high = none)
    (pixel : UInt16) :
    device.run c (pixelBytes pixel) = { c with canvas := c.canvas.put pixel } := by
  let c' : Controller := { c with high := some (pixel >>> 8).toUInt8 }
  have hfirst : c.receive (dataByte (pixel >>> 8).toUInt8) = c' := by
    change c.receiveData _ = c'
    rw [receiveData, if_pos hcommand, if_pos hc, hhigh]
    rfl
  have hsecond : c'.receive (dataByte pixel.toUInt8) =
      { c' with
        canvas := c.canvas.put (.ofNat (word (pixel >>> 8).toUInt8 pixel.toUInt8))
        high := none } := by
    change c'.receiveData _ = _
    rw [receiveData, if_pos hcommand, if_pos (show c'.Configured from hc)]
    rfl
  change (c.receive (dataByte (pixel >>> 8).toUInt8)).receive (dataByte pixel.toUInt8) = _
  rw [hfirst, hsecond, word_pixel, ← hhigh]

theorem device_writesWindows : device.WritesWindows where
  columns := by
    rintro c w first last ⟨hc, rfl⟩ hle hlast c'
    have hsmall : last < 65536 := lt_trans hlast (by decide)
    have hrun : c' = _ := run_columns (.ofNat (first / 256)) (.ofNat first) (.ofNat (last / 256))
      (.ofNat last)
    rw [word_ofNat hsmall, word_ofNat (lt_of_le_of_lt hle hsmall)] at hrun
    rw [hrun]
    exact ⟨⟨hc, rfl⟩, rfl⟩
  rows := by
    rintro c w first last ⟨hc, rfl⟩ hle hlast c'
    have hsmall : last < 65536 := lt_trans hlast (by decide)
    have hrun : c' = _ := run_rows (.ofNat (first / 256)) (.ofNat first) (.ofNat (last / 256))
      (.ofNat last)
    rw [word_ofNat hsmall, word_ofNat (lt_of_le_of_lt hle hsmall)] at hrun
    rw [hrun]
    exact ⟨⟨hc, rfl⟩, rfl⟩
  write := by
    rintro c w ⟨hc, rfl⟩
    exact ⟨hc, rfl, rfl, rfl⟩
  pixel := by
    rintro c k pixel ⟨hc, hcommand, hhigh, rfl⟩
    have hrun := run_pixelBytes hc hcommand hhigh pixel
    rw [hrun]
    exact ⟨hc, hcommand, hhigh, rfl⟩
  written := by
    rintro c k ⟨hc, -, -, rfl⟩
    exact ⟨⟨hc, rfl⟩, rfl⟩

end Controller

end TensorOS
