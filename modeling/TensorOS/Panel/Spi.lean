import Mathlib

/-!
# The SPI controller of the panel

The driver of the panel sends bytes through eight data registers of 32 bits. A transfer takes at
most 32 bytes: the registers are cleared, the bytes are put into them by reading and writing each
register back, the length is set in bits, and the transfer is started. Longer data goes in several
transfers.

What the unit then does is not in the source, so it is a parameter: which bytes a transfer sends,
from the data registers and the length register. The driver relies on it sending the registers in
order, each from its lowest byte, as many bits as the length register says plus one
(`SpiUnit.SendsInOrder`). With every byte the model keeps the levels of the two lines that the
driver sets, the select line and the line that tells data from commands. The loops that wait for
the unit have no other effect and are left out.
-/

namespace TensorOS

/-! ## Bytes in words -/

/-- A byte of a word, counted from the lowest. -/
def byteOf (w : UInt32) (k : ℕ) : UInt8 := (w >>> UInt32.ofNat (8 * k)).toUInt8

theorem byteOf_or (w v : UInt32) (k : ℕ) : byteOf (w ||| v) k = byteOf w k ||| byteOf v k := by
  rw [byteOf, byteOf, byteOf, UInt32.shiftRight_or, UInt32.toUInt8_or]

theorem byteOf_shift (b : UInt8) {j k : ℕ} (hj : j < 4) (hk : k < 4) :
    byteOf (b.toUInt32 <<< UInt32.ofNat (8 * j)) k = if k = j then b else 0 := by
  rw [byteOf, ← UInt8.toBitVec_inj]
  refine BitVec.eq_of_getLsbD_eq fun i hi ↦ ?_
  interval_cases j <;> interval_cases k <;> simp <;> interval_cases i <;> simp

/-! ## The unit -/

/-- A byte that is sent, with the levels of the select line and of the data line. -/
structure WireByte where
  select : Bool
  data : Bool
  value : UInt8
  deriving DecidableEq

/-- The bytes that a transfer sends, from the data registers and the length register. -/
abbrev SpiUnit := (ℕ → UInt32) → UInt32 → List UInt8

/-- The unit sends the registers in order, each from its lowest byte, as many bits as the length
register says plus one. There are sixteen registers. -/
def SpiUnit.SendsInOrder (unit : SpiUnit) : Prop :=
  ∀ (words : ℕ → UInt32) (length : UInt32) (n : ℕ), n ≤ 64 → length.toNat + 1 = 8 * n →
    unit words length = (List.range n).map fun k ↦ byteOf (words (k / 4)) (k % 4)

/-- The data registers, the length register, the two lines, and the bytes that have been sent. -/
structure Spi where
  words : ℕ → UInt32
  dataLength : UInt32
  select : Bool
  data : Bool
  sent : List WireByte

section Driver

variable (unit : SpiUnit)

/-- A transfer. -/
def Spi.transfer (s : Spi) : Spi :=
  { s with sent := s.sent ++ (unit s.words s.dataLength).map (WireByte.mk s.select s.data) }

/-- `GC9A01_SPI_MAX_TRANSFER_BYTES`. -/
def spiMaxTransferBytes : ℕ := 32

/-- The loop of `gc9a01_spi_write_bytes_raw` that clears the registers. -/
def clearWords (words : ℕ → UInt32) : ℕ → UInt32 :=
  (List.range (spiMaxTransferBytes / 4)).foldl (fun words i ↦ Function.update words i 0) words

/-- One round of the loop that fills them. -/
def putByte (words : ℕ → UInt32) (byteIndex : ℕ) (value : UInt8) : ℕ → UInt32 :=
  Function.update words (byteIndex / 4)
    (words (byteIndex / 4) ||| value.toUInt32 <<< UInt32.ofNat (byteIndex % 4 * 8))

/-- The loop that fills them. -/
def fillWords (words : ℕ → UInt32) (chunk : List UInt8) : ℕ → UInt32 :=
  chunk.zipIdx.foldl (fun words p ↦ putByte words p.2 p.1) words

/-- One round of the loop over the data. -/
def writeChunk (s : Spi) (chunk : List UInt8) : Spi :=
  Spi.transfer unit { s with
    words := fillWords (clearWords s.words) chunk
    dataLength := (UInt32.ofNat chunk.length * 8 - 1) &&& 0x0003FFFF }

/-- The loop over the data, with the number of rounds that may still follow. -/
def writeChunks : ℕ → Spi → List UInt8 → Spi
  | 0, s, _ => s
  | rounds + 1, s, data =>
    if data = [] then s
    else
      writeChunks rounds (writeChunk unit s (data.take spiMaxTransferBytes))
        (data.drop spiMaxTransferBytes)

/-- `gc9a01_spi_write_bytes_raw`. -/
def spiWriteBytesRaw (s : Spi) (data : List UInt8) : Spi := writeChunks unit data.length s data

end Driver

/-! ## What arrives -/

section Words

variable {words : ℕ → UInt32} {k : ℕ}

theorem clearWords_of_lt (hk : k < 8) : clearWords words k = 0 := by
  have hclear : ∀ n, k < n → (List.range n).foldl (fun words i ↦ Function.update words i 0) words k
      = (0 : UInt32) := by
    intro n hn
    induction n with
    | zero => exact absurd hn (Nat.not_lt_zero _)
    | succ n ih =>
      rw [List.range_succ, List.foldl_append, List.foldl_cons, List.foldl_nil]
      by_cases h : k = n
      · rw [h, Function.update_self]
      · rw [Function.update_of_ne h]
        exact ih (by omega)
  exact hclear 8 hk

theorem byteOf_putByte (words : ℕ → UInt32) (byteIndex : ℕ) (value : UInt8) (k : ℕ) :
    byteOf (putByte words byteIndex value (k / 4)) (k % 4) =
      byteOf (words (k / 4)) (k % 4) ||| if k = byteIndex then value else 0 := by
  have hmod : ∀ n : ℕ, n % 4 < 4 := fun n ↦ Nat.mod_lt _ (by decide)
  rw [putByte]
  by_cases hword : k / 4 = byteIndex / 4
  · rw [hword, Function.update_self, byteOf_or, Nat.mul_comm, byteOf_shift _ (hmod _) (hmod _)]
    refine congrArg _ (if_congr ?_ rfl rfl)
    omega
  · rw [Function.update_of_ne hword, if_neg, UInt8.or_zero]
    rintro rfl
    exact hword rfl

/-- Into empty registers the loop puts the bytes of the chunk. -/
theorem byteOf_fillWords (chunk : List UInt8) (n : ℕ)
    (hempty : ∀ k, n ≤ k → k < n + chunk.length → byteOf (words (k / 4)) (k % 4) = 0)
    (hk : k < n + chunk.length) :
    byteOf ((chunk.zipIdx n).foldl (fun words p ↦ putByte words p.2 p.1) words (k / 4)) (k % 4) =
      if n ≤ k then chunk.getD (k - n) 0 else byteOf (words (k / 4)) (k % 4) := by
  induction chunk generalizing words n with
  | nil =>
    rw [List.length_nil, add_zero] at hk
    rw [if_neg (Nat.not_le.mpr hk)]
    rfl
  | cons b chunk ih =>
    rw [List.length_cons] at hempty hk
    rw [List.zipIdx_cons, List.foldl_cons, ih (n + 1) ?_ (by omega), byteOf_putByte]
    · by_cases hn : k = n
      · subst hn
        rw [if_neg (by omega), if_pos le_rfl, if_pos rfl, hempty k le_rfl (by omega), Nat.sub_self]
        simp
      · by_cases hle : n ≤ k
        · rw [if_pos (by omega), if_pos hle, show k - n = k - (n + 1) + 1 by omega,
            List.getD_cons_succ]
        · rw [if_neg (by omega), if_neg hle, if_neg hn, UInt8.or_zero]
    · intro k hle hlt
      rw [byteOf_putByte, hempty k (by omega) (by omega), if_neg (by omega), UInt8.or_zero]

end Words

/-- The length register holds the length of the chunk, in bits. -/
theorem chunkLength {n : ℕ} (hpos : 0 < n) (hn : n ≤ 32) :
    ((UInt32.ofNat n * 8 - 1) &&& 0x0003FFFF).toNat + 1 = 8 * n := by
  have h : ∀ n : Fin 33, 0 < n.val →
      ((UInt32.ofNat n.val * 8 - 1) &&& 0x0003FFFF).toNat + 1 = 8 * n.val := by
    decide
  exact h ⟨n, by omega⟩ hpos

section Arrives

variable {unit : SpiUnit} (hunit : unit.SendsInOrder)

include hunit

theorem sent_writeChunk (s : Spi) {chunk : List UInt8} (hpos : 0 < chunk.length)
    (hlength : chunk.length ≤ 32) :
    (writeChunk unit s chunk).sent = s.sent ++ chunk.map (WireByte.mk s.select s.data) := by
  rw [writeChunk, Spi.transfer]
  dsimp only
  rw [hunit _ _ chunk.length (by omega) (chunkLength hpos hlength)]
  refine congrArg (fun bytes : List UInt8 ↦ s.sent ++ bytes.map (WireByte.mk s.select s.data)) ?_
  refine List.ext_getElem (by simp) fun k hk hk' ↦ ?_
  have hempty : ∀ j, 0 ≤ j → j < 0 + chunk.length →
      byteOf (clearWords s.words (j / 4)) (j % 4) = 0 := by
    intro j _ hj
    rw [clearWords_of_lt (by omega)]
    simp [byteOf]
  rw [List.getElem_map, List.getElem_range, fillWords, byteOf_fillWords chunk 0 hempty (by omega),
    if_pos (Nat.zero_le _), Nat.sub_zero, List.getD_eq_getElem _ _ hk']

/-- **The bytes arrive as they are**: in however many transfers the data is sent, and whatever the
registers held, the bytes are sent in order. The lines are as before. -/
theorem spiWriteBytesRaw_spec (s : Spi) (data : List UInt8) :
    (spiWriteBytesRaw unit s data).sent = s.sent ++ data.map (WireByte.mk s.select s.data) ∧
      (spiWriteBytesRaw unit s data).select = s.select ∧
      (spiWriteBytesRaw unit s data).data = s.data := by
  have hrounds : ∀ rounds (s : Spi) (data : List UInt8), data.length ≤ rounds →
      (writeChunks unit rounds s data).sent = s.sent ++ data.map (WireByte.mk s.select s.data) ∧
        (writeChunks unit rounds s data).select = s.select ∧
        (writeChunks unit rounds s data).data = s.data := by
    intro rounds
    induction rounds with
    | zero =>
      intro s data hlength
      obtain rfl := List.length_eq_zero_iff.mp (Nat.le_zero.mp hlength)
      simp [writeChunks]
    | succ rounds ih =>
      intro s data hlength
      rw [writeChunks]
      split
      · rename_i hnil
        simp [hnil]
      rename_i hne
      have hpos : 0 < data.length := List.length_pos_iff.mpr hne
      have htake : (data.take spiMaxTransferBytes).length = min 32 data.length := List.length_take
      obtain ⟨hsent, hselect, hdata⟩ := ih (writeChunk unit s (data.take spiMaxTransferBytes))
        (data.drop spiMaxTransferBytes) (by rw [List.length_drop, spiMaxTransferBytes]; omega)
      refine ⟨?_, hselect, hdata⟩
      rw [hsent, sent_writeChunk hunit s (by omega) (by omega), List.append_assoc]
      refine congrArg (s.sent ++ ·) ?_
      rw [writeChunk, Spi.transfer]
      dsimp only
      rw [← List.map_append, List.take_append_drop]
  exact hrounds data.length s data le_rfl

end Arrives

end TensorOS
