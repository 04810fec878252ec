import TensorOS.Sched.Process

/-!
# Wait queues

`wait_queue.c` over the process table. A wait queue is a channel number and a count of the processes
inside `kernel_wait_queue_wait`; who they are is written in the process table only. The queues in
memory are a family indexed by their addresses, of a type `κ`; a null pointer is not an address.

A call of `kernel_wait_queue_wait` spans two switches. It is cut at them:
`kernelWaitQueueWaitStart` is what it does before the process leaves the processor, and
`kernelWaitQueueWaitFinish` what it does when the process is back.
-/

namespace TensorOS

namespace ProcessCore

variable {n : ℕ}

/-- The round goes over the whole table. -/
theorem mem_roundFrom (currentIndex : Option (Fin n)) (i : Fin n) :
    i ∈ roundFrom n currentIndex := by
  have hround : ∀ start : ℕ, ∃ offset : Fin n, (start + offset.val) % n = i.val := by
    intro start
    have hn : 0 < n := i.pos
    have hstart : start % n < n := Nat.mod_lt _ hn
    refine ⟨⟨(i.val + (n - start % n)) % n, Nat.mod_lt _ hn⟩, ?_⟩
    calc (start + (i.val + (n - start % n)) % n) % n
        = (start % n + (i.val + (n - start % n))) % n := by simp [Nat.add_mod]
      _ = (i.val + n) % n := by congr 1; omega
      _ = i.val := by rw [Nat.add_mod_right, Nat.mod_eq_of_lt i.isLt]
  simp only [roundFrom, List.mem_map, List.mem_finRange, true_and]
  obtain ⟨offset, hoffset⟩ := hround _
  exact ⟨offset, Fin.ext hoffset⟩

/-- **`process_core_wake_first_channel`** wakes one process that waits on the channel, if there is
one. -/
theorem wakeFirstChannel_cases (processes : ProcessTable n) (channel : UInt32)
    (currentIndex : Option (Fin n)) :
    (∃ i, waitsOn channel (processes i) = true ∧
      (wakeFirstChannel processes channel currentIndex).1 =
        Function.update processes i (makeReady (processes i))) ∨
    (∀ i, waitsOn channel (processes i) = false) ∧
      (wakeFirstChannel processes channel currentIndex).1 = processes := by
  rw [wakeFirstChannel]
  split
  · next i hfind => exact Or.inl ⟨i, by simpa using List.find?_some hfind, rfl⟩
  · next hfind =>
    refine Or.inr ⟨fun i ↦ ?_, rfl⟩
    simpa using List.find?_eq_none.mp hfind i (mem_roundFrom currentIndex i)

end ProcessCore

/-- `struct kernel_wait_queue`. -/
structure KernelWaitQueue where
  magic : UInt32
  channel : UInt32
  waiterCount : UInt32
  deriving DecidableEq, Repr

/-- `KERNEL_WAIT_QUEUE_MAGIC`. -/
def kernelWaitQueueMagic : UInt32 := 0x57515545

/-- The processes, the running one, and the wait queues. -/
structure Kernel (n : ℕ) (κ : Type) where
  processes : ProcessTable n
  current : Option (Fin n)
  queues : κ → KernelWaitQueue

/-- `kernel_wait_queue_create`, at an address the allocator has returned. The second component is
`g_next_wait_queue_channel`. -/
def kernelWaitQueueCreate {κ : Type} [DecidableEq κ] (queue : κ)
    (memory : (κ → KernelWaitQueue) × UInt32) : (κ → KernelWaitQueue) × UInt32 :=
  (Function.update memory.1 queue ⟨kernelWaitQueueMagic, memory.2, 0⟩, memory.2 + 1)

namespace Kernel

variable {n : ℕ} {κ : Type} (k : Kernel n κ)

/-! ## What the scheduler does for them -/

/-- `process_current_pid`. -/
def processCurrentPid : UInt32 :=
  match k.current with
  | none => 0
  | some index => (k.processes index).pid

/-- `process_wake`. -/
def processWake (pid : UInt32) : Kernel n κ :=
  match ProcessCore.findIndexByPid k.processes pid with
  | none => k
  | some index =>
    { k with
      processes :=
        Function.update k.processes index (ProcessCore.makeReady (k.processes index)) }

/-- `process_wait_channel`, up to the switch. -/
def processWaitChannel (channel : UInt32) : Kernel n κ :=
  match k.current with
  | none => k
  | some index =>
    { k with
      processes := Function.update k.processes index
        (ProcessCore.block (k.processes index) .eventChannel channel 0 0)
      current := none }

/-- `process_yield` by a RUNNING process, up to the switch. -/
def processYield : Kernel n κ :=
  match k.current with
  | none => k
  | some index =>
    { k with
      processes := Function.update k.processes index { k.processes index with state := .ready }
      current := none }

/-- The switch to a process: the end of `process_yield` on its side. -/
def switchTo (index : Fin n) : Kernel n κ :=
  { k with
    processes := Function.update k.processes index { k.processes index with state := .running }
    current := some index }

/-! ## The wait queues -/

/-- `kernel_wait_queue_is_valid`. -/
def kernelWaitQueueIsValid (queue : κ) : Bool := (k.queues queue).magic = kernelWaitQueueMagic

/-- `kernel_wait_queue_waiter_count`. -/
def kernelWaitQueueWaiterCount (queue : κ) : UInt32 :=
  if k.kernelWaitQueueIsValid queue then (k.queues queue).waiterCount else 0

/-- `kernel_wait_queue_wake_one`. -/
def kernelWaitQueueWakeOne (queue : κ) : Kernel n κ × ℕ :=
  if k.kernelWaitQueueIsValid queue then
    let woken := ProcessCore.wakeFirstChannel k.processes (k.queues queue).channel k.current
    ({ k with processes := woken.1 }, woken.2)
  else (k, 0)

/-- `kernel_wait_queue_wake_all`. -/
def kernelWaitQueueWakeAll (queue : κ) : Kernel n κ × ℕ :=
  if k.kernelWaitQueueIsValid queue then
    let woken := ProcessCore.wakeChannel k.processes (k.queues queue).channel
    ({ k with processes := woken.1 }, woken.2)
  else (k, 0)

/-- The test before a wake-up that `mailbox.c`, `semaphore.c` and `mutex.c` share. -/
def wakeOneWaiter (queue : κ) : Kernel n κ :=
  if k.kernelWaitQueueWaiterCount queue ≠ 0 then (k.kernelWaitQueueWakeOne queue).1 else k

section Specs

variable {k} {queue : κ} (hvalid : k.kernelWaitQueueIsValid queue = true)

include hvalid

/-- **`kernel_wait_queue_wake_one`** wakes one process that is blocked on the queue, if there is
one. -/
theorem kernelWaitQueueWakeOne_cases :
    (∃ i, ProcessCore.waitsOn (k.queues queue).channel (k.processes i) = true ∧
      (k.kernelWaitQueueWakeOne queue).1 = { k with
        processes := Function.update k.processes i (ProcessCore.makeReady (k.processes i)) }) ∨
    (∀ i, ProcessCore.waitsOn (k.queues queue).channel (k.processes i) = false) ∧
      (k.kernelWaitQueueWakeOne queue).1 = k := by
  have hrun : (k.kernelWaitQueueWakeOne queue).1 = { k with processes :=
      (ProcessCore.wakeFirstChannel k.processes (k.queues queue).channel k.current).1 } := by
    rw [kernelWaitQueueWakeOne, if_pos hvalid]
  rw [hrun]
  obtain ⟨i, hi, heq⟩ | ⟨hnone, heq⟩ := ProcessCore.wakeFirstChannel_cases k.processes
    (k.queues queue).channel k.current
  · exact Or.inl ⟨i, hi, by rw [heq]⟩
  · exact Or.inr ⟨hnone, by rw [heq]⟩

/-- **`kernel_wait_queue_wake_all`** wakes every process that is blocked on the queue. -/
theorem kernelWaitQueueWakeAll_eq : (k.kernelWaitQueueWakeAll queue).1 = { k with
    processes := fun i ↦ if ProcessCore.waitsOn (k.queues queue).channel (k.processes i) then
      ProcessCore.makeReady (k.processes i) else k.processes i } := by
  rw [kernelWaitQueueWakeAll, if_pos hvalid]
  rfl

end Specs

section Wait

variable [DecidableEq κ]

/-- `kernel_wait_queue_wait`, up to the switch. -/
def kernelWaitQueueWaitStart (queue : κ) : Kernel n κ :=
  if k.kernelWaitQueueIsValid queue then
    let entry := k.queues queue
    let counted :=
      Function.update k.queues queue { entry with waiterCount := entry.waiterCount + 1 }
    { k with queues := counted }.processWaitChannel entry.channel
  else k

/-- `kernel_wait_queue_wait`, from the switch back on. -/
def kernelWaitQueueWaitFinish (queue : κ) : Kernel n κ :=
  let entry := k.queues queue
  if entry.waiterCount ≠ 0 then
    { k with
      queues :=
        Function.update k.queues queue { entry with waiterCount := entry.waiterCount - 1 } }
  else k

end Wait

end Kernel

end TensorOS
