import TensorOS.Arch.ContextSwitch
import TensorOS.Lib.Transition
import TensorOS.Sched.ReadyQueue

/-!
# Processes as coroutines

The scheduler keeps for each process a stack in `g_process_stacks` and a saved stack pointer in
`g_process_exec`. A new process gets a context at the top of its stack, and from then on contexts
are written and read by the assembly code only. Between two switches the running process may do
what it likes with the registers and the memory, except for the stacks and the saved stack pointers
of the others.

The state of a run also has, for each process that is not running, the machine as it was when the
process was left. Whatever happened in between, a process that is switched to finds its registers
and its stack as in that machine, and goes on at its return address (`process_resumes`). This is
what the scheduler model takes a continuation to be.
-/

namespace TensorOS

open Riscv

/-! ## The arrays -/

/-- `DRAM_LOW`. -/
def dramLow : ℕ := 0x3FC80000

/-- `DRAM_HIGH`. -/
def dramHigh : ℕ := 0x3FCE0000

/-- The addresses of `g_process_stacks` and `g_process_exec`: ten stacks of 1024 words, and ten
records of two words. -/
structure ProcessArrays where
  stackBase : UInt32
  execBase : UInt32
  stackBase_aligned : stackBase % 4 = 0
  execBase_aligned : execBase % 4 = 0
  stackBase_dram : dramLow ≤ stackBase.toNat ∧ stackBase.toNat + 40960 ≤ dramHigh
  execBase_dram : dramLow ≤ execBase.toNat ∧ execBase.toNat + 80 ≤ dramHigh
  apart : stackBase.toNat + 40960 ≤ execBase.toNat ∨ execBase.toNat + 80 ≤ stackBase.toNat

namespace ProcessArrays

variable (arrays : ProcessArrays) (index : Slot)

/-- The address of `g_process_exec[index].stack_pointer`. -/
def stackPointer : UInt32 := arrays.execBase + UInt32.ofNat (8 * index + 4)

/-- The address behind `g_process_stacks[index]`. -/
def stackEnd : UInt32 := arrays.stackBase + UInt32.ofNat (4096 * (index + 1))

/-- The address is one of the stack of the process. -/
def InStack (a : UInt32) : Prop :=
  arrays.stackBase.toNat + 4096 * index ≤ a.toNat ∧
    a.toNat < arrays.stackBase.toNat + 4096 * index + 4096

/-- The stack pointer is one of the process, with room for a context below it. -/
structure HasRoom (sp : UInt32) : Prop where
  aligned : sp % 4 = 0
  room : arrays.stackBase.toNat + 4096 * index + 52 ≤ sp.toNat
  le_end : sp.toNat ≤ arrays.stackBase.toNat + 4096 * index + 4096

variable {arrays index}

theorem toNat_stackPointer :
    (arrays.stackPointer index).toNat = arrays.execBase.toNat + 8 * index + 4 := by
  have hdram := arrays.execBase_dram
  have hindex := index.isLt
  rw [dramHigh] at hdram
  rw [stackPointer, UInt32.toNat_add, UInt32.toNat_ofNat']
  omega

theorem toNat_stackEnd :
    (arrays.stackEnd index).toNat = arrays.stackBase.toNat + 4096 * index + 4096 := by
  have hdram := arrays.stackBase_dram
  have hindex := index.isLt
  rw [dramHigh] at hdram
  rw [stackEnd, UInt32.toNat_add, UInt32.toNat_ofNat']
  omega

theorem stackPointer_aligned : arrays.stackPointer index % 4 = 0 := by
  have h := aligned_iff.mp arrays.execBase_aligned
  rw [aligned_iff, toNat_stackPointer]
  omega

theorem hasRoom_stackEnd : arrays.HasRoom index (arrays.stackEnd index) := by
  refine ⟨?_, by rw [toNat_stackEnd]; omega, by rw [toNat_stackEnd]⟩
  have h := aligned_iff.mp arrays.stackBase_aligned
  rw [aligned_iff, toNat_stackEnd]
  omega

theorem not_diagnostic {a : UInt32} (h : a.toNat < dramHigh) : a ∉ diagnosticWords := by
  intro ha
  have hword : ∀ b ∈ diagnosticWords, (0x60000000 : UInt32) ≤ b := by simp [diagnosticWords]
  have hle := UInt32.le_iff_toNat_le.mp (hword a ha)
  have hbase : (0x60000000 : UInt32).toNat = 1610612736 := rfl
  rw [hbase] at hle
  rw [dramHigh] at h
  omega

theorem stackPointer_not_diagnostic : arrays.stackPointer index ∉ diagnosticWords := by
  have hdram := arrays.execBase_dram
  have hindex := index.isLt
  refine not_diagnostic ?_
  rw [toNat_stackPointer]
  omega

theorem stackPointer_inj {i j : Slot} (h : arrays.stackPointer i = arrays.stackPointer j) :
    i = j := by
  have hnat := congrArg UInt32.toNat h
  rw [toNat_stackPointer, toNat_stackPointer] at hnat
  exact Fin.ext (by omega)

theorem InStack.not_diagnostic {a : UInt32} (h : arrays.InStack index a) :
    a ∉ diagnosticWords := by
  have hdram := arrays.stackBase_dram
  have hindex := index.isLt
  exact ProcessArrays.not_diagnostic (h.2.trans_le (by omega))

theorem InStack.ne_stackPointer {a : UInt32} (h : arrays.InStack index a) (j : Slot) :
    a ≠ arrays.stackPointer j := by
  rintro rfl
  have hapart := arrays.apart
  have hi := index.isLt
  have hj := j.isLt
  rw [InStack, toNat_stackPointer] at h
  omega

theorem InStack.ne {i j : Slot} {a b : UInt32} (ha : arrays.InStack i a) (hb : arrays.InStack j b)
    (hij : i ≠ j) : a ≠ b := by
  rintro rfl
  refine hij (Fin.ext ?_)
  rw [InStack] at ha hb
  omega

theorem HasRoom.toNat_word {sp : UInt32} (h : arrays.HasRoom index sp) {p : Reg × UInt32}
    (hp : p ∈ contextFrame) :
    (sp - 52 + p.2).toNat = sp.toNat - 52 + p.2.toNat ∧ p.2.toNat ≤ 48 := by
  have hoffset : ∀ p ∈ contextFrame, p.2.toNat ≤ 48 := by decide +kernel
  have hle := hoffset p hp
  have hroom := h.room
  have hlt := sp.toNat_lt
  have h52 : (52 : UInt32).toNat = 52 := rfl
  have hsp : (52 : UInt32) ≤ sp := by
    rw [UInt32.le_iff_toNat_le, h52]
    omega
  refine ⟨?_, hle⟩
  rw [UInt32.toNat_add, UInt32.toNat_sub_of_le _ _ hsp, h52]
  omega

theorem HasRoom.inStack {sp : UInt32} (h : arrays.HasRoom index sp) {p : Reg × UInt32}
    (hp : p ∈ contextFrame) : arrays.InStack index (sp - 52 + p.2) := by
  obtain ⟨hnat, hle⟩ := h.toNat_word hp
  have hroom := h.room
  have hend := h.le_end
  rw [InStack, hnat]
  omega

theorem HasRoom.word_lt {sp : UInt32} (h : arrays.HasRoom index sp) {p : Reg × UInt32}
    (hp : p ∈ contextFrame) : sp - 52 + p.2 < sp := by
  obtain ⟨hnat, hle⟩ := h.toNat_word hp
  have hroom := h.room
  rw [UInt32.lt_iff_toNat_lt, hnat]
  omega

theorem HasRoom.context_aligned {sp : UInt32} (h : arrays.HasRoom index sp) :
    (sp - 52) % 4 = 0 := by
  rw [sub_eq_add_neg]
  exact aligned_add h.aligned (by decide)

end ProcessArrays

/-! ## Processes that are not running -/

/-- `scheduler_prepare_initial_context`: the memory after it, with `entry` for the address of
`task_bootstrap_first_entry_asm`. -/
def schedulerPrepareInitialContext (arrays : ProcessArrays) (entry : UInt32) (index : Slot)
    (mem : UInt32 → UInt32) : UInt32 → UInt32 :=
  let context := arrays.stackEnd index - 52
  Function.update (contextFrame.store context (fun r ↦ if r = .ra then entry else 0) mem)
    (arrays.stackPointer index) context

/-- In this memory the process can be switched to, and will then find the registers of `left` and
what was on its stack there. -/
structure ParkedAt (arrays : ProcessArrays) (mem : UInt32 → UInt32) (index : Slot)
    (left : Machine) : Prop where
  room : arrays.HasRoom index (left.reg .sp)
  slot : mem (arrays.stackPointer index) = left.reg .sp - 52
  held : contextFrame.HeldAt mem (left.reg .sp - 52) left.reg
  stack : ∀ a, arrays.InStack index a → left.reg .sp ≤ a → mem a = left.mem a

/-- It depends on the stack and the slot of the process only. -/
theorem ParkedAt.congr {arrays : ProcessArrays} {mem mem' : UInt32 → UInt32} {index : Slot}
    {left : Machine} (h : ParkedAt arrays mem index left)
    (hslot : mem' (arrays.stackPointer index) = mem (arrays.stackPointer index))
    (hstack : ∀ a, arrays.InStack index a → mem' a = mem a) : ParkedAt arrays mem' index left where
  room := h.room
  slot := hslot.trans h.slot
  held := fun p hp ↦ (hstack _ (h.room.inStack hp)).trans (h.held p hp)
  stack := fun a ha hle ↦ (hstack a ha).trans (h.stack a ha hle)

/-- The machine that a new process is in. -/
def newProcess (arrays : ProcessArrays) (entry : UInt32) (index : Slot) (m : Machine) :
    Machine where
  regs := fun r ↦ if r = .sp then arrays.stackEnd index else if r = .ra then entry else 0
  mem := schedulerPrepareInitialContext arrays entry index m.mem
  csrs := m.csrs

section Prepare

variable {arrays : ProcessArrays} {entry : UInt32} {index : Slot} {mem : UInt32 → UInt32}

theorem prepare_stackPointer : schedulerPrepareInitialContext arrays entry index mem
    (arrays.stackPointer index) = arrays.stackEnd index - 52 :=
  Function.update_self ..

theorem prepare_of_ne_slot {a : UInt32} (hslot : a ≠ arrays.stackPointer index) :
    schedulerPrepareInitialContext arrays entry index mem a =
      contextFrame.store (arrays.stackEnd index - 52) (fun r ↦ if r = .ra then entry else 0)
        mem a :=
  Function.update_of_ne hslot ..

theorem prepare_of_ne {a : UInt32} (hslot : a ≠ arrays.stackPointer index)
    (hframe : ∀ p ∈ contextFrame, a ≠ arrays.stackEnd index - 52 + p.2) :
    schedulerPrepareInitialContext arrays entry index mem a = mem a :=
  (prepare_of_ne_slot hslot).trans (contextFrame.store_of_ne _ _ hframe)

theorem newProcess_reg {m : Machine} {r : Reg} (hr : r ≠ .zero) :
    (newProcess arrays entry index m).reg r =
      if r = .sp then arrays.stackEnd index else if r = .ra then entry else 0 :=
  if_neg hr

/-- A prepared process is parked at the top of its stack. -/
theorem parkedAt_newProcess (m : Machine) : ParkedAt arrays
    (schedulerPrepareInitialContext arrays entry index m.mem) index
    (newProcess arrays entry index m) := by
  have hsp : (newProcess arrays entry index m).reg .sp = arrays.stackEnd index :=
    newProcess_reg (by decide)
  have hroom : arrays.HasRoom index (arrays.stackEnd index) := ProcessArrays.hasRoom_stackEnd
  refine ⟨?_, ?_, ?_, fun _ _ _ ↦ rfl⟩
  · rw [hsp]
    exact hroom
  · rw [hsp]
    exact prepare_stackPointer
  · intro p hp
    have hframe : p.1 ≠ .zero ∧ p.1 ≠ .sp := (wellFormed_contextFrame.general p hp).symm
    rw [hsp, newProcess_reg hframe.1, if_neg hframe.2]
    rw [prepare_of_ne_slot ((hroom.inStack hp).ne_stackPointer index)]
    exact contextFrame.heldAt_store wellFormed_contextFrame _ _ _ p hp

end Prepare

/-! ## Switches -/

/-- The registers with which `scheduler_switch_process` calls `context_switch`. -/
structure SwitchCall (arrays : ProcessArrays) (m : Machine) (current next : Slot) : Prop where
  a0 : m.reg .a0 = arrays.stackPointer current
  a1 : m.reg .a1 = m.mem (arrays.stackPointer next)
  room : arrays.HasRoom current (m.reg .sp)

namespace SwitchCall

variable {arrays : ProcessArrays} {m left : Machine} {current next j : Slot} {a : UInt32}

theorem not_writes_inStack (h : SwitchCall arrays m current next) (hj : j ≠ current)
    (ha : arrays.InStack j a) : ¬SuspendWrites m a := by
  rintro (hd | rfl | ⟨p, hp, rfl⟩)
  · exact ha.not_diagnostic hd
  · exact ha.ne_stackPointer current h.a0
  · exact ha.ne (h.room.inStack hp) hj rfl

theorem not_writes_stackPointer (h : SwitchCall arrays m current next) (hj : j ≠ current) :
    ¬SuspendWrites m (arrays.stackPointer j) := by
  rintro (hd | ha0 | ⟨p, hp, heq⟩)
  · exact ProcessArrays.stackPointer_not_diagnostic hd
  · exact hj (ProcessArrays.stackPointer_inj (ha0.trans h.a0))
  · exact (h.room.inStack hp).ne_stackPointer j heq.symm

/-- What the process has on its stack is above the context. -/
theorem not_writes_above (h : SwitchCall arrays m current next) (ha : arrays.InStack current a)
    (hle : m.reg .sp ≤ a) : ¬SuspendWrites m a := by
  rintro (hd | rfl | ⟨p, hp, rfl⟩)
  · exact ha.not_diagnostic hd
  · exact ha.ne_stackPointer current h.a0
  · exact absurd (h.room.word_lt hp) (UInt32.not_lt.mpr hle)

/-- The switch goes on where the other process was left, and leaves this one parked. -/
theorem resumes (h : SwitchCall arrays m current next) (hne : next ≠ current)
    (hleft : ParkedAt arrays m.mem next left) (addresses : LinkerAddresses)
    (ext : Symbol → Machine → Option Machine) :
    ∃ m', Leaves (assembly addresses) ext ⟨.contextSwitch, 0, m⟩ (left.reg .ra &&& ~~~1) m' ∧
      (∀ r ∈ contextRegs, m'.reg r = left.reg r) ∧
      (∀ a, ¬SuspendWrites m a → m'.mem a = m.mem a) ∧ ParkedAt arrays m'.mem current m := by
  have ha1 : m.reg .a1 = left.reg .sp - 52 := h.a1.trans hleft.slot
  obtain ⟨m', hleaves, hsp, hregs, hslot, hheld, hmem⟩ :=
    contextSwitch_leaves addresses ext (m := m) left.reg h.room.aligned
      (by rw [h.a0]; exact ProcessArrays.stackPointer_aligned)
      (by rw [ha1]; exact hleft.room.context_aligned)
      (by rw [ha1]; exact hleft.held)
      (by rw [ha1]; exact fun p hp ↦ h.not_writes_inStack hne (hleft.room.inStack hp))
      (by rw [h.a0]; exact ProcessArrays.stackPointer_not_diagnostic)
      (by
        rw [h.a0]
        exact fun p hp ↦
          ⟨(h.room.inStack hp).not_diagnostic, (h.room.inStack hp).ne_stackPointer _⟩)
  refine ⟨m', hleaves, ?_, hmem, h.room, ?_, hheld, ?_⟩
  · intro r hr
    by_cases hrsp : r = .sp
    · rw [hrsp, hsp, ha1, sub_add_cancel]
    · exact hregs r hr hrsp
  · rw [← h.a0]
    exact hslot
  · exact fun a ha hle ↦ hmem a (h.not_writes_above ha hle)

end SwitchCall

/-- The same for the first process that is started. -/
theorem startFirst_resumes {arrays : ProcessArrays} {m left : Machine} {next : Slot}
    (ha0 : m.reg .a0 = m.mem (arrays.stackPointer next))
    (hleft : ParkedAt arrays m.mem next left) (addresses : LinkerAddresses)
    (ext : Symbol → Machine → Option Machine) :
    ∃ m', Leaves (assembly addresses) ext ⟨.taskStartFirst, 0, m⟩ (left.reg .ra &&& ~~~1) m' ∧
      (∀ r ∈ contextRegs, m'.reg r = left.reg r) ∧
      ∀ a, a ∉ diagnosticWords → m'.mem a = m.mem a := by
  have hctx : m.reg .a0 = left.reg .sp - 52 := ha0.trans hleft.slot
  obtain ⟨m', hleaves, hsp, hregs, hmem⟩ :=
    taskStartFirst_leaves addresses ext (m := m) left.reg
      (by rw [hctx]; exact hleft.room.context_aligned)
      (by rw [hctx]; exact hleft.held)
      (by rw [hctx]; exact fun p hp ↦ (hleft.room.inStack hp).not_diagnostic)
  refine ⟨m', hleaves, ?_, hmem⟩
  intro r hr
  by_cases hrsp : r = .sp
  · rw [hrsp, hsp, hctx, sub_add_cancel]
  · exact hregs r hr hrsp

/-! ## Runs -/

/-- The machine, the process that runs, and for the others the machine in which they were left. -/
structure Tasks where
  machine : Machine
  running : Option Slot
  left : Slot → Option Machine

/-- The steps of the processes and the scheduler. -/
inductive TaskStep (addresses : LinkerAddresses) (ext : Symbol → Machine → Option Machine)
    (arrays : ProcessArrays) : Tasks → Tasks → Prop
  /-- A process is made in a slot that does not run. -/
  | prepare (s : Tasks) (entry : UInt32) (index : Slot) : s.running ≠ some index →
    TaskStep addresses ext arrays s
      { s with
        machine := { s.machine with
          mem := schedulerPrepareInitialContext arrays entry index s.machine.mem }
        left := Function.update s.left index (some (newProcess arrays entry index s.machine)) }
  /-- A slot is reset, as `scheduler_reset_process_slot` does. -/
  | reset (s : Tasks) (index : Slot) : s.running ≠ some index →
    TaskStep addresses ext arrays s
      { s with
        machine := s.machine.setMem (arrays.stackPointer index) 0
        left := Function.update s.left index none }
  /-- Other code runs. It leaves the processes alone that are not running. -/
  | work (s : Tasks) (m : Machine) :
    (∀ j, s.left j ≠ none → m.mem (arrays.stackPointer j) = s.machine.mem (arrays.stackPointer j) ∧
      ∀ a, arrays.InStack j a → m.mem a = s.machine.mem a) →
    TaskStep addresses ext arrays s { s with machine := m }
  /-- `task_start_first` is called. -/
  | startFirst (s : Tasks) (next : Slot) (pc : UInt32) (m : Machine) :
    s.running = none → s.left next ≠ none →
    s.machine.reg .a0 = s.machine.mem (arrays.stackPointer next) →
    Leaves (assembly addresses) ext ⟨.taskStartFirst, 0, s.machine⟩ pc m →
    TaskStep addresses ext arrays s
      { machine := m, running := some next, left := Function.update s.left next none }
  /-- `context_switch` is called. -/
  | switch (s : Tasks) (current next : Slot) (pc : UInt32) (m : Machine) :
    s.running = some current → next ≠ current → s.left next ≠ none →
    SwitchCall arrays s.machine current next →
    Leaves (assembly addresses) ext ⟨.contextSwitch, 0, s.machine⟩ pc m →
    TaskStep addresses ext arrays s
      { machine := m
        running := some next
        left := Function.update (Function.update s.left current (some s.machine)) next none }

/-- Nothing runs, and there are no processes. -/
def TasksStart (s : Tasks) : Prop := s.running = none ∧ ∀ j, s.left j = none

/-- Who is not running is parked where it was left. -/
structure TasksInv (arrays : ProcessArrays) (s : Tasks) : Prop where
  parked : ∀ j left, s.left j = some left → ParkedAt arrays s.machine.mem j left
  running : ∀ j, s.running = some j → s.left j = none

section Step

variable {addresses : LinkerAddresses} {ext : Symbol → Machine → Option Machine}
  {arrays : ProcessArrays}

theorem TasksStart.inv {s : Tasks} (h : TasksStart s) : TasksInv arrays s where
  parked := fun j left hleft ↦ absurd (hleft.symm.trans (h.2 j)) (by simp)
  running := fun j _ ↦ h.2 j

/-- An entry of the updated table is the new one, or one of another process. -/
theorem update_left_eq_some {left : Slot → Option Machine} {index j : Slot} {new : Option Machine}
    {m : Machine} (h : Function.update left index new j = some m) :
    j = index ∧ new = some m ∨ j ≠ index ∧ left j = some m := by
  by_cases hj : j = index
  · rw [hj, Function.update_self] at h
    exact Or.inl ⟨hj, h⟩
  · rw [Function.update_of_ne hj] at h
    exact Or.inr ⟨hj, h⟩

theorem TaskStep.inv {s t : Tasks} (h : TasksInv arrays s)
    (hstep : TaskStep addresses ext arrays s t) :
    TasksInv arrays t := by
  cases hstep with
  | prepare entry index hidle =>
    refine ⟨fun j left hleft ↦ ?_, fun j hj ↦ ?_⟩
    · rcases update_left_eq_some hleft with ⟨rfl, hnew⟩ | ⟨hj, hold⟩
      · obtain rfl := Option.some.inj hnew
        exact parkedAt_newProcess s.machine
      · have hroom : arrays.HasRoom index (arrays.stackEnd index) := ProcessArrays.hasRoom_stackEnd
        refine (h.parked j left hold).congr (prepare_of_ne ?_ ?_) fun a ha ↦ prepare_of_ne ?_ ?_
        · exact fun heq ↦ hj (ProcessArrays.stackPointer_inj heq)
        · exact fun p hp heq ↦ (hroom.inStack hp).ne_stackPointer j heq.symm
        · exact ha.ne_stackPointer index
        · exact fun p hp ↦ ha.ne (hroom.inStack hp) hj
    · have hne : j ≠ index := fun heq ↦ hidle (heq ▸ hj)
      exact (Function.update_of_ne hne ..).trans (h.running j hj)
  | reset index hidle =>
    refine ⟨fun j left hleft ↦ ?_, fun j hj ↦ ?_⟩
    · rcases update_left_eq_some hleft with ⟨-, hnew⟩ | ⟨hj, hold⟩
      · cases hnew
      · refine (h.parked j left hold).congr (Function.update_of_ne ?_ ..) fun a ha ↦
          Function.update_of_ne (ha.ne_stackPointer index) ..
        exact fun heq ↦ hj (ProcessArrays.stackPointer_inj heq)
    · have hne : j ≠ index := fun heq ↦ hidle (heq ▸ hj)
      exact (Function.update_of_ne hne ..).trans (h.running j hj)
  | work m hkept =>
    refine ⟨fun j left hleft ↦ ?_, h.running⟩
    obtain ⟨hslot, hstack⟩ := hkept j fun hnone ↦ by
      rw [show s.left j = some left from hleft] at hnone
      cases hnone
    exact (h.parked j left hleft).congr hslot hstack
  | startFirst next pc m hidle hnext ha0 hleaves =>
    obtain ⟨left, hleft⟩ := Option.ne_none_iff_exists'.mp hnext
    obtain ⟨m', hleaves', -, hmem⟩ :=
      startFirst_resumes ha0 (h.parked next left hleft) addresses ext
    obtain ⟨-, rfl⟩ := hleaves.unique hleaves'
    refine ⟨fun j left hleft ↦ ?_, fun j hj ↦ ?_⟩
    · rcases update_left_eq_some hleft with ⟨-, hnew⟩ | ⟨-, hold⟩
      · cases hnew
      · exact (h.parked j left hold).congr (hmem _ ProcessArrays.stackPointer_not_diagnostic)
          fun a ha ↦ hmem a ha.not_diagnostic
    · obtain rfl := Option.some.inj hj
      exact Function.update_self ..
  | switch current next pc m hrunning hne hnext hcall hleaves =>
    obtain ⟨left, hleft⟩ := Option.ne_none_iff_exists'.mp hnext
    obtain ⟨m', hleaves', -, hmem, hparked⟩ :=
      hcall.resumes hne (h.parked next left hleft) addresses ext
    obtain ⟨-, rfl⟩ := hleaves.unique hleaves'
    refine ⟨fun j left hleft ↦ ?_, fun j hj ↦ ?_⟩
    · rcases update_left_eq_some hleft with ⟨-, hnew⟩ | ⟨-, hold⟩
      · cases hnew
      · rcases update_left_eq_some hold with ⟨rfl, hnew⟩ | ⟨hj, hold⟩
        · obtain rfl := Option.some.inj hnew
          exact hparked
        · exact (h.parked j left hold).congr (hmem _ (hcall.not_writes_stackPointer hj))
            fun a ha ↦ hmem a (hcall.not_writes_inStack hj ha)
    · obtain rfl := Option.some.inj hj
      exact Function.update_self ..

theorem tasksInv_of_reachable {s : Tasks}
    (h : Reachable TasksStart (TaskStep addresses ext arrays) s) : TasksInv arrays s :=
  h.invariant (fun _ ↦ TasksStart.inv) fun _ _ ↦ TaskStep.inv

/-- **Processes are coroutines**: in every state that a run reaches, a call of `context_switch` from
the running process to another one that can run comes back to where the other one was left, with its
registers and its stack as they were, and leaves this one the same way. -/
theorem process_resumes {s : Tasks} (h : Reachable TasksStart (TaskStep addresses ext arrays) s)
    {current next : Slot} {left : Machine} (hne : next ≠ current) (hleft : s.left next = some left)
    (hcall : SwitchCall arrays s.machine current next) :
    ∃ m, Leaves (assembly addresses) ext ⟨.contextSwitch, 0, s.machine⟩ (left.reg .ra &&& ~~~1) m ∧
      (∀ r ∈ contextRegs, m.reg r = left.reg r) ∧
      (∀ a, arrays.InStack next a → left.reg .sp ≤ a → m.mem a = left.mem a) ∧
      ParkedAt arrays m.mem current s.machine := by
  have hparked := (tasksInv_of_reachable h).parked next left hleft
  obtain ⟨m, hleaves, hregs, hmem, hcurrent⟩ := hcall.resumes hne hparked addresses ext
  refine ⟨m, hleaves, hregs, fun a ha hle ↦ ?_, hcurrent⟩
  rw [hmem a (hcall.not_writes_inStack hne ha), hparked.stack a ha hle]

end Step

/-- The arrays one behind the other. -/
def lowArrays : ProcessArrays where
  stackBase := 0x3FC80000
  execBase := 0x3FC8A000
  stackBase_aligned := by decide
  execBase_aligned := by decide
  stackBase_dram := by simp [dramLow, dramHigh]
  execBase_dram := by simp [dramLow, dramHigh]
  apart := by simp

/-- The machine in which a process calls `context_switch` for another, at the end of its stack. -/
def switching (arrays : ProcessArrays) (m : Machine) (current next : Slot) (ra s0 : UInt32) :
    Machine :=
  { m with
    regs := fun r ↦
      if r = .a0 then arrays.stackPointer current
      else if r = .a1 then m.mem (arrays.stackPointer next)
      else if r = .sp then arrays.stackEnd current
      else if r = .ra then ra
      else if r = .s0 then s0
      else 0 }

theorem switchCall_switching (arrays : ProcessArrays) (m : Machine) (current next : Slot)
    (ra s0 : UInt32) : SwitchCall arrays (switching arrays m current next ra s0) current next :=
  ⟨rfl, rfl, ProcessArrays.hasRoom_stackEnd⟩

/-- Two processes are made, the first one runs and switches to the second one, and when that
switches back, the first one goes on at its return address with what it had in `s0`. -/
theorem process_resumes_back : ∃ (s : Tasks) (m : Machine),
    Reachable TasksStart (TaskStep ⟨0, 0, 0, 0, 0⟩ (fun _ _ ↦ none) lowArrays) s ∧
      s.running = some 1 ∧
      Leaves (assembly ⟨0, 0, 0, 0, 0⟩) (fun _ _ ↦ none) ⟨.contextSwitch, 0, s.machine⟩
        0x42000200 m ∧ m.reg .s0 = 7 := by
  let s₀ : Tasks := ⟨⟨fun _ ↦ 0, fun _ ↦ 0, fun _ ↦ 0⟩, none, fun _ ↦ none⟩
  have h₀ : Reachable TasksStart (TaskStep ⟨0, 0, 0, 0, 0⟩ (fun _ _ ↦ none) lowArrays) s₀ :=
    .start ⟨rfl, fun _ ↦ rfl⟩
  have h₁ := h₀.step (.prepare _ 0x42000100 0 (by simp [s₀]))
  have h₂ := h₁.step (.prepare _ 0x42000300 1 (by simp [s₀]))
  -- the first process is started
  let m₂ := (schedulerPrepareInitialContext lowArrays 0x42000300 1
    (schedulerPrepareInitialContext lowArrays 0x42000100 0 fun _ ↦ 0))
  have h₃ := h₂.step (.work _ ⟨fun _ ↦ m₂ (lowArrays.stackPointer 0), m₂, fun _ ↦ 0⟩
    fun _ _ ↦ ⟨rfl, fun _ _ ↦ rfl⟩)
  have hinv₃ := tasksInv_of_reachable h₃
  obtain ⟨m₄, hleaves₄, -⟩ := startFirst_resumes (by rfl) (hinv₃.parked 0 _ rfl)
    ⟨0, 0, 0, 0, 0⟩ fun _ _ ↦ none
  have h₄ := h₃.step (.startFirst _ 0 _ m₄ rfl (by simp [s₀]) rfl hleaves₄)
  -- it switches to the second one
  have h₅ := h₄.step (.work _ (switching lowArrays m₄ 0 1 0x42000200 7)
    fun _ _ ↦ ⟨rfl, fun _ _ ↦ rfl⟩)
  have hinv₅ := tasksInv_of_reachable h₅
  have hcall₅ := switchCall_switching lowArrays m₄ 0 1 0x42000200 7
  obtain ⟨m₆, hleaves₆, -⟩ := hcall₅.resumes (by decide) (hinv₅.parked 1 _ rfl)
    ⟨0, 0, 0, 0, 0⟩ fun _ _ ↦ none
  have h₆ := h₅.step (.switch _ 0 1 _ m₆ rfl (by decide) (by simp [s₀]) hcall₅ hleaves₆)
  -- and that one switches back
  have h₇ := h₆.step (.work _ (switching lowArrays m₆ 1 0 0 0) fun _ _ ↦ ⟨rfl, fun _ _ ↦ rfl⟩)
  obtain ⟨m, hleaves, hregs, -⟩ := process_resumes h₇ (by decide)
    (show _ = some (switching lowArrays m₄ 0 1 0x42000200 7) from rfl)
    (switchCall_switching lowArrays m₆ 1 0 0 0)
  have hra : (switching lowArrays m₄ 0 1 0x42000200 7).reg .ra &&& ~~~1 = 0x42000200 := by
    change (0x42000200 : UInt32) &&& ~~~1 = 0x42000200
    decide
  rw [hra] at hleaves
  exact ⟨_, m, h₇, rfl, hleaves, hregs .s0 (by decide)⟩

end TensorOS
