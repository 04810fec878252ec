import TensorOS.Lib.Riscv

/-!
# The assembly code

`context_switch.S` and the routines of `start.S`, one instruction a line as in the source. The
targets of jumps inside a routine are indices into it. A block of stores or loads that runs through
registers and offsets is written as its frame.
-/

namespace TensorOS

open Riscv Instr

/-- The routines, and the functions of C that they call. -/
inductive Symbol
  | contextSwitch
  | taskStartFirst
  | taskBootstrapFirstEntryAsm
  | start
  | trapEntry
  | interruptEntryCommon
  | exceptionEntryCommon
  | preemptReturnTrampoline
  | schedulerTaskBootstrap
  | taskExit
  | bootMain
  | trapInterruptC
  | trapExceptionC
  | processYield
  deriving DecidableEq, Repr

/-- The addresses that the linker puts into the code. -/
structure LinkerAddresses where
  stackTop : UInt32
  globalPointer : UInt32
  bssStart : UInt32
  bssEnd : UInt32
  trapPreemptResumePc : UInt32

/-- `struct task_context`, in the order in which `context_switch` stores it. -/
def contextFrame : RegFrame :=
  [(.ra, 0), (.s0, 4), (.s1, 8), (.s2, 12), (.s3, 16), (.s4, 20), (.s5, 24), (.s6, 28), (.s7, 32),
    (.s8, 36), (.s9, 40), (.s10, 44), (.s11, 48)]

/-- The registers of `SAVE_ALL` and `RESTORE_ALL`. -/
def trapFrame : RegFrame :=
  [(.ra, 0), (.gp, 4), (.tp, 8), (.t0, 12), (.t1, 16), (.t2, 20), (.s0, 24), (.s1, 28), (.a0, 32),
    (.a1, 36), (.a2, 40), (.a3, 44), (.a4, 48), (.a5, 52), (.a6, 56), (.a7, 60), (.s2, 64),
    (.s3, 68), (.s4, 72), (.s5, 76), (.s6, 80), (.s7, 84), (.s8, 88), (.s9, 92), (.s10, 96),
    (.s11, 100), (.t3, 104), (.t4, 108), (.t5, 112), (.t6, 116)]

/-- The macro `SAVE_ALL`. -/
def saveAll : List (Instr Symbol) := addi .sp .sp (-128) :: trapFrame.saves

/-- The macro `RESTORE_ALL`. -/
def restoreAll : List (Instr Symbol) := trapFrame.restores ++ [addi .sp .sp 128]

/-- The lines that write a mark to the first diagnostic register and leave its address in `t0`. -/
def mark (low : UInt32) : List (Instr Symbol) :=
  [lui .t0 0x60008,
   lui .t1 0xF,
   addi .t0 .t0 0x50,
   addi .t1 .t1 low,
   sw .t1 0 .t0]

/-- `context_switch`. -/
def contextSwitch : List (Instr Symbol) :=
  [addi .sp .sp (-52)] ++
  mark 0x640 ++
  [sw .sp 4 .t0] ++
  contextFrame.saves ++
  [sw .sp 0 .a0,
   mv .sp .a1] ++
  contextFrame.restores ++
  [addi .sp .sp 52] ++
  mark 0x641 ++
  [sw .ra 8 .t0,
   sw .sp 12 .t0,
   jr .ra]

/-- `task_start_first`. -/
def taskStartFirst : List (Instr Symbol) :=
  [mv .sp .a0] ++
  mark 0x605 ++
  [sw .sp 4 .t0] ++
  contextFrame.restores ++
  [addi .sp .sp 52] ++
  mark 0x606 ++
  [sw .ra 8 .t0,
   sw .sp 12 .t0,
   jr .ra]

/-- `task_bootstrap_first_entry_asm`. -/
def taskBootstrapFirstEntryAsm : List (Instr Symbol) :=
  mark 0x607 ++
  [call .schedulerTaskBootstrap] ++
  mark 0x608 ++
  [call .taskExit,
   wfi,
   j 12]

/-- `_start`. -/
def start (addresses : LinkerAddresses) : List (Instr Symbol) :=
  [li .sp addresses.stackTop,
   li .gp addresses.globalPointer,
   li .t0 addresses.bssStart,
   li .t1 addresses.bssEnd,
   bgeu .t0 .t1 8,
   sw .zero 0 .t0,
   addi .t0 .t0 4,
   j 4,
   call .bootMain,
   j 9]

/-- The lines of `__trap_entry` between `SAVE_ALL` and the branch. -/
def trapDiagnostics : List (Instr Symbol) :=
  [lui .t0 0x60008,
   li .t1 0xE001,
   addi .t0 .t0 0x50,
   sw .t1 0 .t0,
   csrr .a0 .mcause,
   sw .a0 4 .t0,
   csrr .t1 .mepc,
   sw .t1 8 .t0,
   csrr .t1 .mtvec,
   sw .t1 12 .t0,
   sw .sp 16 .t0,
   lui .t1 0x600C2,
   lw .t2 0x110 .t1,
   sw .t2 20 .t0,
   lui .t1 0x600C0,
   lw .t2 0x28 .t1,
   sw .t2 24 .t0,
   lui .t1 0x600C2,
   lw .t2 0x104 .t1,
   sw .t2 28 .t0]

/-- `__trap_entry`. -/
def trapEntry : List (Instr Symbol) :=
  saveAll ++
  trapDiagnostics ++
  [bltz .a0 56,
   csrr .a1 .mepc,
   csrr .a2 .mtval,
   call .trapExceptionC,
   j 57,
   call .trapInterruptC] ++
  restoreAll ++
  [mret]

/-- `interrupt_entry_common`. -/
def interruptEntryCommon : List (Instr Symbol) :=
  saveAll ++
  [csrr .a0 .mcause,
   call .trapInterruptC] ++
  restoreAll ++
  [mret]

/-- `exception_entry_common`. -/
def exceptionEntryCommon : List (Instr Symbol) :=
  saveAll ++
  [csrr .a0 .mcause,
   csrr .a1 .mepc,
   csrr .a2 .mtval,
   call .trapExceptionC] ++
  restoreAll ++
  [mret]

/-- `preempt_return_trampoline`. -/
def preemptReturnTrampoline (addresses : LinkerAddresses) : List (Instr Symbol) :=
  [csrci .mstatus 8,
   addi .sp .sp (-8),
   sw .s11 0 .sp,
   li .t0 addresses.trapPreemptResumePc,
   lw .t1 0 .t0,
   sw .t1 4 .sp,
   csrsi .mstatus 8,
   call .processYield,
   lw .t0 4 .sp,
   lw .s11 0 .sp,
   addi .sp .sp 8,
   jr .t0]

/-- The code under each name. The functions of C have none here. -/
def assembly (addresses : LinkerAddresses) : Symbol → List (Instr Symbol)
  | .contextSwitch => contextSwitch
  | .taskStartFirst => taskStartFirst
  | .taskBootstrapFirstEntryAsm => taskBootstrapFirstEntryAsm
  | .start => start addresses
  | .trapEntry => trapEntry
  | .interruptEntryCommon => interruptEntryCommon
  | .exceptionEntryCommon => exceptionEntryCommon
  | .preemptReturnTrampoline => preemptReturnTrampoline addresses
  | _ => []

/-- `__mtvec_base`: where the vector of a cause jumps to. -/
def mtvecBase (vector : Fin 32) : Symbol :=
  if 1 ≤ vector.val ∧ vector.val ≤ 15 then .interruptEntryCommon else .trapEntry

theorem wellFormed_contextFrame : contextFrame.WellFormed :=
  ⟨by decide, by decide, by decide⟩

theorem wellFormed_trapFrame : trapFrame.WellFormed :=
  ⟨by decide, by decide, by decide⟩

end TensorOS
