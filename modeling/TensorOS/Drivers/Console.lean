import Mathlib
import TensorOS.Manage.Tokens

/-!
# The console

`console.c` writes every text twice, to the UART and to the USB endpoint. Towards USB a character
goes through a queue into a packet of 64 bytes, which is handed over when it is full and at the end
of a line. The endpoint may be busy; then the driver asks again, 500001 times in all, and gives the
packet up. What each test of the endpoint finds is a parameter, so a theorem about the model is
about every behaviour of the host.

The packet that is filled is a list, and so it has to be shown that it never outgrows its array. The
wait for room in the UART is left out, and calls run with interrupts disabled, one after the other.
-/

namespace TensorOS

/-! ## The endpoint -/

/-- `USB_SERIAL_TIMEOUT_ITERATIONS`. -/
def usbSerialTimeoutIterations : ℕ := 500000

/-- `USB_SERIAL_PACKET_SIZE`. -/
def usbSerialPacketSize : ℕ := 64

/-- What the drivers keep, and what has gone out. -/
structure ConsoleTx where
  /-- The bytes written to the UART. -/
  uart : List UInt8
  /-- `g_console_usb_tx_queue`, `g_console_usb_tx_head`, `g_console_usb_tx_tail` and
  `g_console_usb_tx_pending_flush`. -/
  queue : UInt32 → UInt8
  head : UInt32
  tail : UInt32
  pendingFlush : UInt32
  /-- The first `g_tx_packet_len` bytes of `g_tx_packet`. -/
  packet : List UInt8
  /-- The packets that were handed over. -/
  sent : List (List UInt8)
  /-- How often the endpoint was tested. -/
  tests : ℕ

section Drivers

variable (free : ℕ → Bool)

/-- `usb_serial_jtag_wait_writable` with `rounds` more failures allowed: whether the endpoint was
found free, and the number of tests after it. -/
def usbWaitWritable : ℕ → ℕ → Bool × ℕ
  | 0, tests => (free tests, tests + 1)
  | rounds + 1, tests =>
    if free tests then (true, tests + 1) else usbWaitWritable rounds (tests + 1)

/-- `usb_serial_jtag_flush_zlp_if_needed`. -/
def usbFlushZlpIfNeeded (tx : ConsoleTx) (packetLen : ℕ) : ConsoleTx :=
  if packetLen ≠ usbSerialPacketSize then tx
  else
    let wait := usbWaitWritable free usbSerialTimeoutIterations tx.tests
    if wait.1 = false then { tx with tests := wait.2 }
    else { tx with sent := tx.sent ++ [[]], tests := wait.2 }

/-- `usb_serial_jtag_flush_packet`. -/
def usbFlushPacket (tx : ConsoleTx) : ConsoleTx :=
  if tx.packet.length = 0 then tx
  else
    let wait := usbWaitWritable free usbSerialTimeoutIterations tx.tests
    if wait.1 = false then { tx with packet := [], tests := wait.2 }
    else
      usbFlushZlpIfNeeded free
        { tx with packet := [], sent := tx.sent ++ [tx.packet], tests := wait.2 } tx.packet.length

/-- `usb_serial_jtag_putc`. -/
def usbPutc (tx : ConsoleTx) (c : UInt8) : ConsoleTx :=
  let tx' := { tx with packet := tx.packet ++ [c] }
  if tx'.packet.length = usbSerialPacketSize then usbFlushPacket free tx' else tx'

/-! ## The queue -/

/-- The character that ends a line. -/
def newline : UInt8 := 10

/-- `console_usb_tx_queue_next`. -/
def consoleQueueNext (index : UInt32) : UInt32 := (index + 1) % 1024

/-- `console_usb_tx_enqueue`. -/
def consoleEnqueue (tx : ConsoleTx) (c : UInt8) : ConsoleTx :=
  let next := consoleQueueNext tx.tail
  if next = tx.head then tx
  else
    { tx with
      queue := Function.update tx.queue tx.tail c
      tail := next
      pendingFlush := if c = newline then 1 else tx.pendingFlush }

/-- The loop of `console_usb_tx_drain`, which goes round once for each character in the queue. -/
def consoleDrainLoop : ℕ → ConsoleTx → ConsoleTx
  | 0, tx => tx
  | rounds + 1, tx =>
    if tx.head = tx.tail then tx
    else
      consoleDrainLoop rounds
        { usbPutc free tx (tx.queue tx.head) with head := consoleQueueNext tx.head }

/-- `console_usb_tx_drain`. -/
def consoleDrain (tx : ConsoleTx) : ConsoleTx :=
  let tx' := consoleDrainLoop free 1024 tx
  if tx'.pendingFlush ≠ 0 then { usbFlushPacket free tx' with pendingFlush := 0 } else tx'

/-- `console_putc_raw`. -/
def consolePutcRaw (tx : ConsoleTx) (c : UInt8) : ConsoleTx :=
  consoleDrain free (consoleEnqueue { tx with uart := tx.uart ++ [c] } c)

/-- `console_write_raw`. -/
def consoleWriteRaw (tx : ConsoleTx) (s : Option CString) : ConsoleTx :=
  match s with
  | none => tx
  | some s => s.chars.foldl (consolePutcRaw free) tx

/-! ## Numbers -/

/-- The array `hex`. -/
def hexChars : List UInt8 :=
  [48, 49, 50, 51, 52, 53, 54, 55, 56, 57, 97, 98, 99, 100, 101, 102]

/-- The eight digits that `uart0_puthex32` and `console_puthex32_raw` write. -/
def hexText (value : UInt32) : List UInt8 :=
  ([28, 24, 20, 16, 12, 8, 4, 0] : List UInt32).map fun shift ↦
    hexChars.getD ((value >>> shift) &&& 15).toNat 0

/-- What the first loop of `uart0_putdec_u32` and `console_putdec_u32_raw` puts into `buf`, in as
many rounds as it has places. -/
def decimalBuf : ℕ → UInt32 → List UInt8
  | 0, _ => []
  | rounds + 1, value =>
    if 0 < value then (48 + value % 10).toUInt8 :: decimalBuf rounds (value / 10) else []

/-- The digits that the two functions write. -/
def decimalText (value : UInt32) : List UInt8 :=
  if value = 0 then [48] else (decimalBuf 10 value).reverse

/-- `console_puthex32_raw`. The digits go to the packet without the queue. -/
def consolePuthex32Raw (tx : ConsoleTx) (value : UInt32) : ConsoleTx :=
  (hexText value).foldl (usbPutc free) { tx with uart := tx.uart ++ hexText value }

/-- `console_putdec_u32_raw`. -/
def consolePutdecU32Raw (tx : ConsoleTx) (value : UInt32) : ConsoleTx :=
  (decimalText value).foldl (usbPutc free) { tx with uart := tx.uart ++ decimalText value }

/-! ## Calls -/

/-- `console_init`. -/
def consoleInit (tx : ConsoleTx) : ConsoleTx :=
  { tx with packet := [], head := 0, tail := 0, pendingFlush := 0 }

/-- `console_putc`, `console_write`, `console_puts`, `console_puthex32`, `console_putdec_u32`,
`console_log`, `console_log_u32` and `console_log_hex32`. -/
inductive ConsoleCall
  | putc (c : UInt8)
  | write (s : Option CString)
  | puts (s : Option CString)
  | puthex32 (value : UInt32)
  | putdecU32 (value : UInt32)
  | log (tag message : Option CString)
  | logU32 (tag label : Option CString) (value : UInt32)
  | logHex32 (tag label : Option CString) (value : UInt32)

namespace ConsoleCall

/-- The tag in brackets that a log starts with. -/
def logTag (tx : ConsoleTx) (tag : Option CString) : ConsoleTx :=
  let tx := consolePutcRaw free tx 91
  let tx := consoleWriteRaw free tx tag
  let tx := consolePutcRaw free tx 93
  consolePutcRaw free tx 32

/-- `"0x"`. -/
def hexPrefix : CString := ⟨[48, 120], by simp⟩

def run (tx : ConsoleTx) : ConsoleCall → ConsoleTx
  | putc c => consolePutcRaw free tx c
  | write s => consoleWriteRaw free tx s
  | puts s => consolePutcRaw free (consoleWriteRaw free tx s) newline
  | puthex32 value => consolePuthex32Raw free tx value
  | putdecU32 value => consolePutdecU32Raw free tx value
  | log tag message =>
    consolePutcRaw free (consoleWriteRaw free (logTag free tx tag) message) newline
  | logU32 tag label value =>
    let tx := consoleWriteRaw free (logTag free tx tag) label
    consolePutcRaw free (consolePutdecU32Raw free tx value) newline
  | logHex32 tag label value =>
    let tx := consoleWriteRaw free (logTag free tx tag) label
    let tx := consoleWriteRaw free tx (some hexPrefix)
    consolePutcRaw free (consolePuthex32Raw free tx value) newline

/-- The characters of a string, none if there is no string. -/
def chars (s : Option CString) : List UInt8 := (s.map CString.chars).getD []

/-- What a call is to write. -/
def text : ConsoleCall → List UInt8
  | putc c => [c]
  | write s => chars s
  | puts s => chars s ++ [newline]
  | puthex32 value => hexText value
  | putdecU32 value => decimalText value
  | log tag message => 91 :: chars tag ++ [93, 32] ++ chars message ++ [newline]
  | logU32 tag label value =>
    91 :: chars tag ++ [93, 32] ++ chars label ++ decimalText value ++ [newline]
  | logHex32 tag label value =>
    91 :: chars tag ++ [93, 32] ++ chars label ++ [48, 120] ++ hexText value ++ [newline]

end ConsoleCall

/-! ## What the endpoint is handed -/

/-- A packet that was ready for the endpoint: whether it was taken, and whether an empty packet was
sent behind it. -/
structure UsbPacket where
  bytes : List UInt8
  taken : Bool
  closed : Bool

/-- What the host gets of it. -/
def UsbPacket.transfers (p : UsbPacket) : List (List UInt8) :=
  if p.taken then p.bytes :: (if p.closed then [[]] else []) else []

/-- At some time the endpoint was busy in as many tests as the driver makes. -/
def Stalled : Prop := ∃ start, ∀ k ≤ usbSerialTimeoutIterations, free (start + k) = false

/-- A packet is full or ends a line, only a full one is closed by an empty one, and only a stalled
endpoint loses one of the two. -/
structure UsbPacket.Proper (p : UsbPacket) : Prop where
  ends : p.bytes.length = usbSerialPacketSize ∨
    p.bytes.length < usbSerialPacketSize ∧ p.bytes.getLast? = some newline
  taken : p.taken = false → Stalled free
  closed : p.closed = true → p.bytes.length = usbSerialPacketSize
  unclosed : p.bytes.length = usbSerialPacketSize → p.closed = false → Stalled free

/-- A text in packets, the last of which is still being filled. -/
def Packed (before : List (List UInt8)) (text : List UInt8) (tx : ConsoleTx) : Prop :=
  ∃ packets : List UsbPacket, (∀ p ∈ packets, p.Proper free) ∧
    tx.sent = before ++ packets.flatMap UsbPacket.transfers ∧
    packets.flatMap UsbPacket.bytes ++ tx.packet = text

/-- The UART and the queue are as before. -/
structure UsbOnly (tx tx' : ConsoleTx) : Prop where
  uart : tx'.uart = tx.uart
  queue : tx'.queue = tx.queue
  head : tx'.head = tx.head
  tail : tx'.tail = tx.tail
  pendingFlush : tx'.pendingFlush = tx.pendingFlush

variable {free} {tx tx₀ tx' : ConsoleTx} {text : List UInt8} {before : List (List UInt8)}

theorem UsbOnly.trans {tx'' : ConsoleTx} (h : UsbOnly tx tx') (h' : UsbOnly tx' tx'') :
    UsbOnly tx tx'' :=
  ⟨h'.uart.trans h.uart, h'.queue.trans h.queue, h'.head.trans h.head, h'.tail.trans h.tail,
    h'.pendingFlush.trans h.pendingFlush⟩

theorem usbWaitWritable_eq_false {rounds tests : ℕ}
    (h : (usbWaitWritable free rounds tests).1 = false) :
    ∀ k ≤ rounds, free (tests + k) = false := by
  induction rounds generalizing tests with
  | zero =>
    intro k hk
    obtain rfl := Nat.le_zero.mp hk
    exact h
  | succ rounds ih =>
    rw [usbWaitWritable] at h
    split at h
    · cases h
    next hbusy =>
    intro k hk
    cases k with
    | zero => simpa using hbusy
    | succ k =>
      have hlater := ih h k (by omega)
      rwa [Nat.add_assoc, Nat.add_comm 1 k] at hlater

theorem stalled_of_wait {tests : ℕ}
    (h : (usbWaitWritable free usbSerialTimeoutIterations tests).1 = false) : Stalled free :=
  ⟨tests, usbWaitWritable_eq_false h⟩

variable (free) in
/-- A packet that is flushed is gone, and the endpoint has it if it was free. -/
theorem usbFlushPacket_spec (hne : tx.packet ≠ []) : ∃ taken closed tests,
    usbFlushPacket free tx = { tx with
      packet := []
      sent := tx.sent ++ UsbPacket.transfers ⟨tx.packet, taken, closed⟩
      tests := tests } ∧
    (taken = false → Stalled free) ∧ (closed = true → tx.packet.length = usbSerialPacketSize) ∧
    (tx.packet.length = usbSerialPacketSize → closed = false → Stalled free) := by
  have hlength : tx.packet.length ≠ 0 := by
    intro hzero
    exact hne (List.length_eq_zero_iff.mp hzero)
  rw [usbFlushPacket, if_neg hlength]
  dsimp only
  by_cases hwait : (usbWaitWritable free usbSerialTimeoutIterations tx.tests).1 = false
  · rw [if_pos hwait]
    have hstalled := stalled_of_wait hwait
    refine ⟨false, false, (usbWaitWritable free usbSerialTimeoutIterations tx.tests).2, ?_,
      fun _ ↦ hstalled, by simp, fun _ _ ↦ hstalled⟩
    simp [UsbPacket.transfers]
  rw [if_neg hwait, usbFlushZlpIfNeeded]
  by_cases hfull : tx.packet.length = usbSerialPacketSize
  · rw [if_neg (not_not.mpr hfull)]
    dsimp only
    split
    · next hzlp =>
      refine ⟨true, false, (usbWaitWritable free usbSerialTimeoutIterations
        (usbWaitWritable free usbSerialTimeoutIterations tx.tests).2).2, ?_, by simp, by simp,
        fun _ _ ↦ stalled_of_wait hzlp⟩
      simp [UsbPacket.transfers]
    · refine ⟨true, true, (usbWaitWritable free usbSerialTimeoutIterations
        (usbWaitWritable free usbSerialTimeoutIterations tx.tests).2).2, ?_, by simp, fun _ ↦ hfull,
        by simp⟩
      simp [UsbPacket.transfers]
  · rw [if_pos hfull]
    refine ⟨true, false, (usbWaitWritable free usbSerialTimeoutIterations tx.tests).2, ?_, by simp,
      by simp, fun h ↦ absurd h hfull⟩
    simp [UsbPacket.transfers]

theorem Packed.flush (h : Packed free before text tx)
    (hends : tx.packet.length = usbSerialPacketSize ∨
      tx.packet.length < usbSerialPacketSize ∧ tx.packet.getLast? = some newline) :
    Packed free before text (usbFlushPacket free tx) ∧ (usbFlushPacket free tx).packet = [] ∧
      UsbOnly tx (usbFlushPacket free tx) := by
  have hne : tx.packet ≠ [] := by
    intro hnil
    rcases hends with hfull | ⟨-, hline⟩
    · rw [hnil] at hfull
      cases hfull
    · rw [hnil] at hline
      cases hline
  obtain ⟨taken, closed, tests, heq, htaken, hclosed, hunclosed⟩ := usbFlushPacket_spec free hne
  obtain ⟨packets, hproper, hsent, htext⟩ := h
  rw [heq]
  refine ⟨⟨packets ++ [⟨tx.packet, taken, closed⟩], ?_, ?_, ?_⟩, rfl, ⟨rfl, rfl, rfl, rfl, rfl⟩⟩
  · intro p hp
    rcases List.mem_append.mp hp with hp | hp
    · exact hproper p hp
    · obtain rfl := List.mem_singleton.mp hp
      exact ⟨hends, htaken, hclosed, hunclosed⟩
  · simp [hsent]
  · simpa using htext

/-- One more byte for the endpoint. The packet has room before it and after it. -/
theorem Packed.putc (h : Packed free before text tx)
    (hroom : tx.packet.length < usbSerialPacketSize) (c : UInt8) :
    Packed free before (text ++ [c]) (usbPutc free tx c) ∧
      (usbPutc free tx c).packet.length < usbSerialPacketSize ∧ UsbOnly tx (usbPutc free tx c) ∧
      ((usbPutc free tx c).packet = [] ∨ (usbPutc free tx c).packet.getLast? = some c) := by
  have hadded : Packed free before (text ++ [c]) { tx with packet := tx.packet ++ [c] } := by
    obtain ⟨packets, hproper, hsent, htext⟩ := h
    refine ⟨packets, hproper, hsent, ?_⟩
    rw [← htext, List.append_assoc]
  rw [usbPutc]
  dsimp only
  split
  · next hfull =>
    obtain ⟨hpacked, hempty, honly⟩ := hadded.flush (Or.inl hfull)
    refine ⟨hpacked, ?_, ⟨honly.uart, honly.queue, honly.head, honly.tail, honly.pendingFlush⟩,
      Or.inl hempty⟩
    rw [hempty]
    decide
  · next hfull =>
    refine ⟨hadded, ?_, ⟨rfl, rfl, rfl, rfl, rfl⟩, Or.inr (by simp)⟩
    rw [List.length_append, List.length_singleton] at hfull ⊢
    omega

/-! ## What the console keeps -/

variable (free) in
/-- **The text has been transmitted**, after what went out before `tx₀`: to the UART, and in packets
to the endpoint. Nothing is left in the queue, and nothing of a finished line in the packet. -/
structure Transmitted (tx₀ : ConsoleTx) (text : List UInt8) (tx : ConsoleTx) : Prop where
  uart : tx.uart = tx₀.uart ++ text
  packed : Packed free tx₀.sent text tx
  room : tx.packet.length < usbSerialPacketSize
  empty : tx.head = tx.tail
  flushed : tx.pendingFlush = 0
  line : text.getLast? = some newline → tx.packet = []

theorem consoleQueueNext_ne (index : UInt32) : consoleQueueNext index ≠ index := by
  rw [consoleQueueNext, Ne, ← UInt32.toNat_inj, UInt32.toNat_mod, UInt32.toNat_add]
  have hone : (1 : UInt32).toNat = 1 := rfl
  have hsize : (1024 : UInt32).toNat = 1024 := rfl
  have := index.toNat_lt
  rw [hone, hsize]
  omega

theorem consoleDrainLoop_empty (h : tx.head = tx.tail) (rounds : ℕ) :
    consoleDrainLoop free rounds tx = tx := by
  cases rounds with
  | zero => rfl
  | succ rounds => rw [consoleDrainLoop, if_pos h]

theorem transmitted_init (tx₀ : ConsoleTx) : Transmitted free tx₀ [] (consoleInit tx₀) where
  uart := (List.append_nil _).symm
  packed := ⟨[], by simp, (List.append_nil _).symm, rfl⟩
  room := by simp [consoleInit, usbSerialPacketSize]
  empty := rfl
  flushed := rfl
  line := fun _ ↦ rfl

/-- A character goes through the queue alone. `tx'` is the state before the packet is flushed. -/
theorem Transmitted.throughQueue (h : Transmitted free tx₀ text tx) (c : UInt8) :
    ∃ tx', consolePutcRaw free tx c
        = (if c = newline then { usbFlushPacket free tx' with pendingFlush := 0 } else tx') ∧
      tx'.uart = tx₀.uart ++ (text ++ [c]) ∧ Packed free tx₀.sent (text ++ [c]) tx' ∧
      tx'.packet.length < usbSerialPacketSize ∧ tx'.head = tx'.tail ∧
      tx'.pendingFlush = (if c = newline then 1 else 0) ∧
      (tx'.packet = [] ∨ tx'.packet.getLast? = some c) := by
  have henqueue : consoleEnqueue { tx with uart := tx.uart ++ [c] } c = { tx with
      uart := tx.uart ++ [c]
      queue := Function.update tx.queue tx.tail c
      tail := consoleQueueNext tx.tail
      pendingFlush := if c = newline then 1 else 0 } := by
    have hne : consoleQueueNext tx.tail ≠ tx.head := by
      rw [h.empty]
      exact consoleQueueNext_ne _
    rw [consoleEnqueue, if_neg hne, h.flushed]
  rw [consolePutcRaw, henqueue]
  generalize htx₁ : ({ tx with
      uart := tx.uart ++ [c]
      queue := Function.update tx.queue tx.tail c
      tail := consoleQueueNext tx.tail
      pendingFlush := if c = newline then 1 else 0 } : ConsoleTx) = tx₁
  have hpacked₁ : Packed free tx₀.sent text tx₁ := by
    rw [← htx₁]
    exact h.packed
  have hroom₁ : tx₁.packet.length < usbSerialPacketSize := by
    rw [← htx₁]
    exact h.room
  have hfirst : tx₁.queue tx₁.head = c := by
    rw [← htx₁]
    dsimp only
    rw [h.empty, Function.update_self]
  have htail : tx₁.tail = consoleQueueNext tx₁.head := by
    rw [← htx₁]
    dsimp only
    rw [h.empty]
  have hflush : tx₁.pendingFlush = if c = newline then 1 else 0 := by rw [← htx₁]
  have huart : tx₁.uart = tx₀.uart ++ (text ++ [c]) := by
    rw [← htx₁]
    dsimp only
    rw [h.uart, List.append_assoc]
  obtain ⟨hpacked, hroom, honly, hlast⟩ := hpacked₁.putc hroom₁ c
  have hloop : consoleDrainLoop free 1024 tx₁
      = { usbPutc free tx₁ c with head := consoleQueueNext tx₁.head } := by
    have hne : tx₁.head ≠ tx₁.tail := by
      rw [htail]
      exact (consoleQueueNext_ne _).symm
    show consoleDrainLoop free (1023 + 1) tx₁ = _
    rw [consoleDrainLoop, if_neg hne, hfirst]
    refine consoleDrainLoop_empty ?_ _
    dsimp only
    rw [honly.tail, htail]
  refine ⟨{ usbPutc free tx₁ c with head := consoleQueueNext tx₁.head }, ?_,
    honly.uart.trans huart, hpacked, hroom, ?_, honly.pendingFlush.trans hflush, hlast⟩
  · rw [consoleDrain, hloop]
    dsimp only
    rw [honly.pendingFlush, hflush]
    by_cases hc : c = newline
    · rw [if_pos hc, if_pos hc, if_pos (by decide)]
    · rw [if_neg hc, if_neg hc, if_neg (by simp)]
  · exact htail.symm.trans honly.tail.symm

/-- **One character** is transmitted, and the packet is flushed if it ends a line. -/
theorem Transmitted.putcRaw (h : Transmitted free tx₀ text tx) (c : UInt8) :
    Transmitted free tx₀ (text ++ [c]) (consolePutcRaw free tx c) := by
  obtain ⟨tx', heq, huart, hpacked, hroom, hempty, hflush, hlast⟩ := h.throughQueue c
  rw [heq]
  by_cases hc : c = newline
  · rw [if_pos hc]
    rcases hlast with hnil | hline
    · rw [usbFlushPacket, if_pos (by rw [hnil]; rfl)]
      exact ⟨huart, hpacked, hroom, hempty, rfl, fun _ ↦ hnil⟩
    · rw [hc] at hline
      obtain ⟨hpacked', hnil, honly⟩ := hpacked.flush (Or.inr ⟨hroom, hline⟩)
      have hroom' : (usbFlushPacket free tx').packet.length < usbSerialPacketSize := by
        rw [hnil]
        decide
      exact ⟨honly.uart.trans huart, hpacked', hroom',
        honly.head.trans (hempty.trans honly.tail.symm), rfl, fun _ ↦ hnil⟩
  · rw [if_neg hc] at hflush ⊢
    refine ⟨huart, hpacked, hroom, hempty, hflush, fun hline ↦ ?_⟩
    rw [List.getLast?_concat] at hline
    exact absurd (Option.some.inj hline) hc

theorem Transmitted.writeRaw (h : Transmitted free tx₀ text tx) (s : Option CString) :
    Transmitted free tx₀ (text ++ ConsoleCall.chars s) (consoleWriteRaw free tx s) := by
  have hloop : ∀ (chars text : List UInt8) (tx : ConsoleTx), Transmitted free tx₀ text tx →
      Transmitted free tx₀ (text ++ chars) (chars.foldl (consolePutcRaw free) tx) := by
    intro chars
    induction chars with
    | nil =>
      intro text tx h
      rwa [List.append_nil]
    | cons c chars ih =>
      intro text tx h
      have hrest := ih _ _ (h.putcRaw c)
      rwa [List.append_assoc, List.singleton_append] at hrest
  cases s with
  | none =>
    rw [ConsoleCall.chars, Option.map_none, Option.getD_none, List.append_nil]
    exact h
  | some s => exact hloop s.chars text tx h

theorem Packed.putcs (digits : List UInt8) (h : Packed free before text tx)
    (hroom : tx.packet.length < usbSerialPacketSize) :
    Packed free before (text ++ digits) (digits.foldl (usbPutc free) tx) ∧
      (digits.foldl (usbPutc free) tx).packet.length < usbSerialPacketSize ∧
      UsbOnly tx (digits.foldl (usbPutc free) tx) := by
  induction digits generalizing text tx with
  | nil =>
    rw [List.append_nil]
    exact ⟨h, hroom, ⟨rfl, rfl, rfl, rfl, rfl⟩⟩
  | cons c digits ih =>
    obtain ⟨hpacked, hroom', honly, -⟩ := h.putc hroom c
    obtain ⟨hpacked', hroom'', honly'⟩ := ih hpacked hroom'
    rw [List.append_assoc, List.singleton_append] at hpacked'
    exact ⟨hpacked', hroom'', honly.trans honly'⟩

/-- **A number** goes by the queue, which is empty, and so it does not overtake a text. -/
theorem Transmitted.digits (h : Transmitted free tx₀ text tx) {digits : List UInt8}
    (hne : digits ≠ []) (hdigits : newline ∉ digits) :
    Transmitted free tx₀ (text ++ digits)
      (digits.foldl (usbPutc free) { tx with uart := tx.uart ++ digits }) := by
  have hpacked₁ : Packed free tx₀.sent text { tx with uart := tx.uart ++ digits } := h.packed
  obtain ⟨hpacked, hroom, honly⟩ := hpacked₁.putcs digits h.room
  refine ⟨?_, hpacked, hroom, honly.head.trans (h.empty.trans honly.tail.symm),
    honly.pendingFlush.trans h.flushed, fun hline ↦ ?_⟩
  · rw [honly.uart, h.uart, List.append_assoc]
  · rw [List.getLast?_append_of_ne_nil _ hne] at hline
    exact absurd (List.mem_of_getLast? hline) hdigits

/-! ## The digits of a number -/

/-- The digit of a number below ten. -/
def decimalDigit (digit : ℕ) : UInt8 := UInt8.ofNat (48 + digit)

theorem asciiDigit_decimalDigit {digit : ℕ} (h : digit < 10) :
    asciiDigit (decimalDigit digit) = some digit := by
  revert h
  revert digit
  decide

theorem asciiDigit_hexChars {digit : ℕ} (h : digit < 16) :
    asciiDigit (hexChars.getD digit 0) = some digit := by
  revert h
  revert digit
  decide

/-- **The buffer has room**: ten rounds are enough, and leave the digits from the last one on. -/
theorem decimalBuf_eq {rounds : ℕ} {value : UInt32} (h : value.toNat < 10 ^ rounds) :
    decimalBuf rounds value = (Nat.digits 10 value.toNat).map decimalDigit := by
  induction rounds generalizing value with
  | zero =>
    have hzero : value.toNat = 0 := by omega
    rw [decimalBuf, hzero, Nat.digits_zero, List.map_nil]
  | succ rounds ih =>
    have hten : (10 : UInt32).toNat = 10 := rfl
    rw [decimalBuf]
    by_cases hpos : 0 < value
    · have hpos' : 0 < value.toNat := UInt32.lt_iff_toNat_lt.mp hpos
      have hquotient : (value / 10).toNat = value.toNat / 10 := by rw [UInt32.toNat_div, hten]
      have hdigit : (48 + value % 10).toUInt8 = decimalDigit (value.toNat % 10) := by
        rw [← UInt8.toNat_inj, UInt32.toNat_toUInt8, UInt32.toNat_add, UInt32.toNat_mod, hten,
          decimalDigit, UInt8.toNat_ofNat']
        have h48 : (48 : UInt32).toNat = 48 := rfl
        rw [h48]
        omega
      have hrest : (value / 10).toNat < 10 ^ rounds := by
        rw [hquotient]
        rw [pow_succ] at h
        omega
      rw [if_pos hpos, ih hrest, hquotient, hdigit, Nat.digits_def' (by decide) hpos',
        List.map_cons]
    · have hzero : value.toNat = 0 := by
        have := UInt32.not_lt.mp hpos
        have hle := UInt32.le_iff_toNat_le.mp this
        exact Nat.le_zero.mp hle
      rw [if_neg hpos, hzero, Nat.digits_zero, List.map_nil]

theorem decimalText_numeral (value : UInt32) : NumeralIn 10 (decimalText value) value.toNat := by
  rw [decimalText]
  by_cases hzero : value = 0
  · rw [if_pos hzero, hzero]
    refine ⟨by simp, [0], ?_, rfl⟩
    exact .cons ⟨by decide, by decide⟩ .nil
  rw [if_neg hzero]
  have hbound : value.toNat < 10 ^ 10 := lt_trans value.toNat_lt (by decide)
  have hne : value.toNat ≠ 0 := by
    intro h
    exact hzero (UInt32.toNat_inj.mp h)
  rw [decimalBuf_eq hbound]
  refine ⟨?_, (Nat.digits 10 value.toNat).reverse, ?_, ?_⟩
  · simpa [Nat.digits_eq_nil_iff_eq_zero] using hne
  · rw [HasDigits, List.forall₂_reverse_iff, List.forall₂_map_left_iff, List.forall₂_same]
    intro digit hdigit
    have hlt : digit < 10 := Nat.digits_lt_base (by decide) hdigit
    exact ⟨asciiDigit_decimalDigit hlt, hlt⟩
  · rw [List.reverse_reverse, Nat.ofDigits_digits]

theorem hexText_numeral (value : UInt32) : NumeralIn 16 (hexText value) value.toNat := by
  have hlt : ∀ shift : UInt32, ((value >>> shift) &&& 15).toNat < 16 := by
    intro shift
    have h15 : (15 : UInt32).toNat = 2 ^ 4 - 1 := rfl
    rw [UInt32.toNat_and, h15, Nat.and_two_pow_sub_one_eq_mod]
    omega
  refine ⟨by simp [hexText], ([28, 24, 20, 16, 12, 8, 4, 0] : List UInt32).map
    fun shift ↦ ((value >>> shift) &&& 15).toNat, ?_, ?_⟩
  · rw [hexText, HasDigits, List.forall₂_map_left_iff, List.forall₂_map_right_iff,
      List.forall₂_same]
    exact fun shift _ ↦ ⟨asciiDigit_hexChars (hlt shift), hlt shift⟩
  · have hvalue := value.toNat_lt
    have h15 : (15 : UInt32).toNat = 2 ^ 4 - 1 := rfl
    have hnibble : ∀ shift : UInt32, shift.toNat < 32 →
        ((value >>> shift) &&& 15).toNat = value.toNat / 2 ^ shift.toNat % 16 := by
      intro shift hshift
      rw [UInt32.toNat_and, h15, Nat.and_two_pow_sub_one_eq_mod, UInt32.toNat_shiftRight,
        Nat.shiftRight_eq_div_pow, Nat.mod_eq_of_lt hshift]
    simp only [List.map_cons, List.map_nil, List.reverse_cons, List.reverse_nil, List.nil_append,
      List.cons_append, Nat.ofDigits_cons, Nat.ofDigits_nil]
    rw [hnibble 28 (by decide), hnibble 24 (by decide), hnibble 20 (by decide),
      hnibble 16 (by decide), hnibble 12 (by decide), hnibble 8 (by decide), hnibble 4 (by decide),
      hnibble 0 (by decide)]
    have hshifts : (28 : UInt32).toNat = 28 ∧ (24 : UInt32).toNat = 24 ∧ (20 : UInt32).toNat = 20 ∧
        (16 : UInt32).toNat = 16 ∧ (12 : UInt32).toNat = 12 ∧ (8 : UInt32).toNat = 8 ∧
        (4 : UInt32).toNat = 4 ∧ (0 : UInt32).toNat = 0 := by decide
    obtain ⟨h28, h24, h20, h16, h12, h8, h4, h0⟩ := hshifts
    rw [h28, h24, h20, h16, h12, h8, h4, h0]
    omega

/-- **What the console prints is what the management console reads**: the parser of tokens gets the
word back from its digits, decimal or hexadecimal. -/
theorem printed_number_reads_back (value : UInt32) :
    parseU32Token (decimalText value) = some value ∧
      parseU32Token (ConsoleCall.hexPrefix.chars ++ hexText value) = some value := by
  have hmod : value.toNat = value.toNat % 2 ^ 32 := (Nat.mod_eq_of_lt value.toNat_lt).symm
  constructor
  · exact parseU32Token_eq_some.mpr ⟨_, Or.inl (decimalText_numeral value), hmod⟩
  · exact parseU32Token_eq_some.mpr
      ⟨_, Or.inr ⟨120, hexText value, Or.inl rfl, rfl, hexText_numeral value⟩, hmod⟩

theorem newline_notMem {base n : ℕ} {digits : List UInt8} (h : NumeralIn base digits n) :
    newline ∉ digits := by
  intro hmem
  obtain ⟨value, hvalue, -⟩ := h.digit hmem
  have hnone : asciiDigit newline = none := by decide
  rw [hnone] at hvalue
  cases hvalue

/-! ## Runs -/

theorem Transmitted.hex (h : Transmitted free tx₀ text tx) (value : UInt32) :
    Transmitted free tx₀ (text ++ hexText value) (consolePuthex32Raw free tx value) :=
  h.digits (hexText_numeral value).1 (newline_notMem (hexText_numeral value))

theorem Transmitted.decimal (h : Transmitted free tx₀ text tx) (value : UInt32) :
    Transmitted free tx₀ (text ++ decimalText value) (consolePutdecU32Raw free tx value) :=
  h.digits (decimalText_numeral value).1 (newline_notMem (decimalText_numeral value))

theorem Transmitted.logTag (h : Transmitted free tx₀ text tx) (tag : Option CString) :
    Transmitted free tx₀ (text ++ (91 :: ConsoleCall.chars tag ++ [93, 32]))
      (ConsoleCall.logTag free tx tag) := by
  have htag := (((h.putcRaw 91).writeRaw tag).putcRaw 93).putcRaw 32
  simpa [ConsoleCall.logTag] using htag

/-- **One call** transmits its text. -/
theorem Transmitted.run (h : Transmitted free tx₀ text tx) (call : ConsoleCall) :
    Transmitted free tx₀ (text ++ call.text) (call.run free tx) := by
  cases call with
  | putc c => exact h.putcRaw c
  | write s => exact h.writeRaw s
  | puts s =>
    have hputs := (h.writeRaw s).putcRaw newline
    rwa [List.append_assoc] at hputs
  | puthex32 value => exact h.hex value
  | putdecU32 value => exact h.decimal value
  | log tag message =>
    have hlog := ((h.logTag tag).writeRaw message).putcRaw newline
    simpa [ConsoleCall.text, ConsoleCall.run] using hlog
  | logU32 tag label value =>
    have hlog := (((h.logTag tag).writeRaw label).decimal value).putcRaw newline
    simpa [ConsoleCall.text, ConsoleCall.run] using hlog
  | logHex32 tag label value =>
    have hlog := ((((h.logTag tag).writeRaw label).writeRaw
      (some ConsoleCall.hexPrefix)).hex value).putcRaw newline
    simpa [ConsoleCall.text, ConsoleCall.run, ConsoleCall.chars, ConsoleCall.hexPrefix] using hlog

theorem transmitted_run {text : List UInt8} (h : Transmitted free tx₀ text tx)
    (calls : List ConsoleCall) :
    Transmitted free tx₀ (text ++ calls.flatMap ConsoleCall.text)
      (calls.foldl (ConsoleCall.run free) tx) := by
  induction calls generalizing text tx with
  | nil => rwa [List.flatMap_nil, List.append_nil]
  | cons call calls ih =>
    have hrest := ih (h.run call)
    rwa [List.append_assoc] at hrest

/-- The bytes of packets that are taken are the bytes the host gets. -/
theorem flatten_transfers {packets : List UsbPacket} (h : ∀ p ∈ packets, p.taken = true) :
    (packets.flatMap UsbPacket.transfers).flatten = packets.flatMap UsbPacket.bytes := by
  induction packets with
  | nil => rfl
  | cons p packets ih =>
    have hrest := ih fun q hq ↦ h q (List.mem_cons_of_mem p hq)
    have hbytes : p.transfers.flatten = p.bytes := by
      rw [UsbPacket.transfers, if_pos (h p List.mem_cons_self)]
      split <;> simp
    rw [List.flatMap_cons, List.flatMap_cons, List.flatten_append, hrest, hbytes]

theorem Transmitted.arrives {text : List UInt8} (h : Transmitted free tx₀ text tx)
    (hfree : ¬Stalled free) (hline : text.getLast? = some newline) :
    ∃ packets, tx.sent = tx₀.sent ++ packets ∧ packets.flatten = text := by
  obtain ⟨packets, hproper, hsent, htext⟩ := h.packed
  refine ⟨_, hsent, ?_⟩
  rw [h.line hline, List.append_nil] at htext
  rw [← htext]
  refine flatten_transfers fun p hp ↦ ?_
  by_contra hlost
  exact hfree ((hproper p hp).taken (Bool.not_eq_true _ ▸ hlost))

variable (free) in
/-- **The console transmits**: whatever the endpoint does, after any calls the UART has their text,
and the endpoint was handed the same text in packets. A packet is lost only if the endpoint was busy
for as long as the driver asks, so otherwise a text that ends a line is all with the host. -/
theorem console_transmits (tx₀ : ConsoleTx) (calls : List ConsoleCall) :
    Transmitted free tx₀ (calls.flatMap ConsoleCall.text)
        (calls.foldl (ConsoleCall.run free) (consoleInit tx₀)) ∧
      (¬Stalled free → (calls.flatMap ConsoleCall.text).getLast? = some newline →
        ∃ packets,
          (calls.foldl (ConsoleCall.run free) (consoleInit tx₀)).sent = tx₀.sent ++ packets ∧
          packets.flatten = calls.flatMap ConsoleCall.text) := by
  have hinit : Transmitted free tx₀ [] (consoleInit tx₀) := transmitted_init tx₀
  have h := transmitted_run hinit calls
  exact ⟨h, h.arrives⟩

end Drivers

end TensorOS
