import TensorOS.Arch.Assembly

/-!
# Traps

The handler of a trap is C code, and may change every register that a call does not keep. The entry
stores all registers below the stack pointer and loads them again, so that the code that was
interrupted sees nothing of it: `interrupt_returns`. Which of the entries an interrupt takes is
decided by the vector table.
-/

namespace TensorOS

open Riscv Instr

/-! ## Saving all registers -/

/-- A register is in the frame, or it is the stack pointer or zero. -/
theorem mem_trapFrame {r : Reg} (hsp : r ≠ .sp) (hzero : r ≠ .zero) :
    r ∈ trapFrame.map Prod.fst := by
  revert hsp hzero
  cases r <;> decide

theorem execAll_saveAll {m : Machine} (hsp : m.reg .sp % 4 = 0) :
    ∃ m', execAll saveAll m = some m' ∧
      (∀ r, m'.reg r = if r = .sp then m.reg .sp - 128 else m.reg r) ∧ m'.csrs = m.csrs ∧
      trapFrame.HeldAt m'.mem (m.reg .sp - 128) m.reg ∧
      ∀ a, (∀ p ∈ trapFrame, a ≠ m.reg .sp - 128 + p.2) → m'.mem a = m.mem a := by
  have hsub : m.reg .sp + -128 = m.reg .sp - 128 := (sub_eq_add_neg ..).symm
  have hbelow : (m.reg .sp - 128) % 4 = 0 := by
    rw [← hsub]
    exact aligned_add hsp (by decide)
  let m₁ := m.setReg .sp (m.reg .sp - 128)
  have hreg : ∀ r, m₁.reg r = if r = .sp then m.reg .sp - 128 else m.reg r := fun r ↦
    Machine.reg_setReg _ _ _ _ (by decide)
  have hsp₁ : m₁.reg .sp = m.reg .sp - 128 := (hreg .sp).trans (if_pos rfl)
  have hstore := execAll_saves (F := Symbol) wellFormed_trapFrame (m := m₁)
    (by rw [hsp₁]; exact hbelow)
  rw [hsp₁] at hstore
  refine ⟨{ m₁ with mem := trapFrame.store (m.reg .sp - 128) m₁.reg m₁.mem }, ?_, hreg, ?_, ?_, ?_⟩
  · rw [saveAll, execAll_cons, Instr.exec, hsub]
    exact hstore
  · exact Machine.setReg_csrs ..
  · intro p hp
    have hne : p.1 ≠ .sp := (wellFormed_trapFrame.general p hp).1
    refine (trapFrame.heldAt_store wellFormed_trapFrame _ m₁.reg m₁.mem p hp).trans ?_
    rw [hreg, if_neg hne]
  · intro a ha
    refine (trapFrame.store_of_ne _ _ ha).trans ?_
    rw [Machine.setReg_mem]

theorem execAll_restoreAll {m : Machine} (values : Reg → UInt32) (hsp : m.reg .sp % 4 = 0)
    (hheld : trapFrame.HeldAt m.mem (m.reg .sp) values) :
    ∃ m', execAll restoreAll m = some m' ∧ m'.mem = m.mem ∧ m'.csrs = m.csrs ∧
      m'.reg .sp = m.reg .sp + 128 ∧ ∀ r, r ≠ .sp → r ≠ .zero → m'.reg r = values r := by
  obtain ⟨m₁, hload, hmem, hcsrs, hregs⟩ :=
    execAll_restores (F := Symbol) wellFormed_trapFrame hsp hheld
  have hsp₁ : m₁.reg .sp = m.reg .sp := by
    rw [hregs, if_neg (by decide)]
  refine ⟨m₁.setReg .sp (m₁.reg .sp + 128), ?_, ?_, ?_, ?_, ?_⟩
  · rw [restoreAll, execAll_append, hload]
    rfl
  · rw [Machine.setReg_mem, hmem]
  · rw [Machine.setReg_csrs, hcsrs]
  · rw [Machine.reg_setReg _ _ _ _ (by decide), if_pos rfl, hsp₁]
  · intro r hne hzero
    rw [Machine.reg_setReg _ _ _ _ (by decide), if_neg hne, hregs,
      if_pos (mem_trapFrame hne hzero)]

/-! ## The diagnostics of `__trap_entry` -/

/-- The diagnostic registers that `__trap_entry` writes. -/
def trapWords : List UInt32 :=
  [0x60008050, 0x60008054, 0x60008058, 0x6000805C, 0x60008060, 0x60008064, 0x60008068, 0x6000806C]

theorem trapWord_of_offset {offset : UInt32}
    (hoffset : offset ∈ [(0 : UInt32), 4, 8, 12, 16, 20, 24, 28]) :
    (0x60008050 + offset) % 4 = 0 ∧ 0x60008050 + offset ∈ trapWords := by
  simp only [List.mem_cons, List.not_mem_nil, or_false] at hoffset
  rcases hoffset with h | h | h | h | h | h | h | h <;> rw [h] <;> decide

section Diagnostics

variable {m : Machine} {offset : UInt32} (ht0 : m.reg .t0 = 0x60008050)
  (hoffset : offset ∈ [(0 : UInt32), 4, 8, 12, 16, 20, 24, 28])

include ht0 hoffset

theorem execAll_storeReg (rs : Reg) :
    ∃ m', execAll [(sw rs offset .t0 : Instr Symbol)] m = some m' ∧ Within [] trapWords m m' := by
  obtain ⟨haligned, hword⟩ := trapWord_of_offset hoffset
  refine ⟨m.setMem (0x60008050 + offset) (m.reg rs), ?_, .setMem hword _⟩
  rw [execAll_cons, Instr.exec, ht0, if_pos haligned]
  rfl

theorem execAll_storeCsr {rd : Reg} (hrd : rd ≠ .zero ∧ rd ≠ .t0) (csr : Csr) :
    ∃ m', execAll [(csrr rd csr : Instr Symbol), sw rd offset .t0] m = some m' ∧
      Within [rd] trapWords m m' ∧ m'.reg rd = m.csrs csr := by
  have hset : Within [rd] trapWords m (m.setReg rd (m.csrs csr)) :=
    .setReg List.mem_cons_self hrd.1 _
  obtain ⟨m', hexec, hwithin⟩ := execAll_storeReg (m := m.setReg rd (m.csrs csr))
    ((hset.reg .t0 fun h ↦ hrd.2 (List.mem_singleton.mp h).symm).trans ht0) hoffset rd
  refine ⟨m', hexec, hset.trans (hwithin.mono fun r hr ↦ absurd hr List.not_mem_nil), ?_⟩
  rw [hwithin.reg rd List.not_mem_nil, Machine.reg_setReg _ _ _ _ hrd.1, if_pos rfl]

theorem execAll_storeWord {page source : UInt32} (hsource : (page <<< 12 + source) % 4 = 0) :
    ∃ m', execAll [(lui .t1 page : Instr Symbol), lw .t2 source .t1, sw .t2 offset .t0] m
        = some m' ∧
      Within [.t1, .t2] trapWords m m' := by
  let m₁ := m.setReg .t1 (page <<< 12)
  have ht1 : m₁.reg .t1 = page <<< 12 := by
    rw [Machine.reg_setReg _ _ _ _ (by decide), if_pos rfl]
  have hset : Within [.t1, .t2] trapWords m
      (m₁.setReg .t2 (m₁.mem (page <<< 12 + source))) :=
    .trans (.setReg (by decide) (by decide) _) (.setReg (by decide) (by decide) _)
  obtain ⟨m', hexec, hwithin⟩ :=
    execAll_storeReg ((hset.reg .t0 (by decide)).trans ht0) hoffset .t2
  refine ⟨m', ?_, hset.trans (hwithin.mono fun r hr ↦ absurd hr List.not_mem_nil)⟩
  rw [execAll_cons, Instr.exec, Option.bind_some, execAll_cons, Instr.exec, ht1, if_pos hsource]
  exact hexec

end Diagnostics

theorem execAll_trapMark (m : Machine) :
    ∃ m', execAll [(lui .t0 0x60008 : Instr Symbol), li .t1 0xE001, addi .t0 .t0 0x50, sw .t1 0 .t0]
        m = some m' ∧ Within [.t0, .t1] trapWords m m' ∧ m'.reg .t0 = 0x60008050 := by
  let m₁ := ((m.setReg .t0 0x60008000).setReg .t1 0xE001).setReg .t0 0x60008050
  have hset : Within [.t0, .t1] trapWords m m₁ :=
    .trans (.trans (.setReg (by decide) (by decide) _) (.setReg (by decide) (by decide) _))
      (.setReg (by decide) (by decide) _)
  have ht0 : m₁.reg .t0 = 0x60008050 := by
    rw [Machine.reg_setReg _ _ _ _ (by decide), if_pos rfl]
  obtain ⟨m', hexec, hwithin⟩ := execAll_storeReg ht0 (by decide : (0 : UInt32) ∈ _) .t1
  refine ⟨m', ?_, hset.trans (hwithin.mono fun r hr ↦ absurd hr List.not_mem_nil), ?_⟩
  · have hbase : (0x60008 : UInt32) <<< 12 = 0x60008000 := by decide
    have hsum : (0x60008000 : UInt32) + 0x50 = 0x60008050 := by decide
    rw [execAll_cons, Instr.exec, Option.bind_some, execAll_cons, Instr.exec, Option.bind_some,
      execAll_cons, Instr.exec, Option.bind_some, hbase, Machine.reg_setReg _ _ _ _ (by decide),
      if_neg (by decide), Machine.reg_setReg _ _ _ _ (by decide), if_pos rfl, hsum]
    exact hexec
  · rw [hwithin.reg _ List.not_mem_nil, ht0]

theorem execAll_trapDiagnostics (m : Machine) :
    ∃ m', execAll trapDiagnostics m = some m' ∧ m'.reg .a0 = m.csrs .mcause ∧
      Within [.t0, .t1, .t2, .a0] trapWords m m' := by
  -- the mark and the cause
  obtain ⟨m₁, h₁, hw₁, ht₁⟩ := execAll_trapMark m
  obtain ⟨m₂, h₂, hw₂, hcause⟩ := execAll_storeCsr ht₁ (by decide : (4 : UInt32) ∈ _)
    (by decide : Reg.a0 ≠ .zero ∧ Reg.a0 ≠ .t0) .mcause
  have ht₂ := (hw₂.reg .t0 (by decide)).trans ht₁
  -- the rest does not touch `a0`
  obtain ⟨m₃, h₃, hw₃, -⟩ := execAll_storeCsr ht₂ (by decide : (8 : UInt32) ∈ _)
    (by decide : Reg.t1 ≠ .zero ∧ Reg.t1 ≠ .t0) .mepc
  have ht₃ := (hw₃.reg .t0 (by decide)).trans ht₂
  obtain ⟨m₄, h₄, hw₄, -⟩ := execAll_storeCsr ht₃ (by decide : (12 : UInt32) ∈ _)
    (by decide : Reg.t1 ≠ .zero ∧ Reg.t1 ≠ .t0) .mtvec
  have ht₄ := (hw₄.reg .t0 (by decide)).trans ht₃
  obtain ⟨m₅, h₅, hw₅⟩ := execAll_storeReg ht₄ (by decide : (16 : UInt32) ∈ _) .sp
  have ht₅ := (hw₅.reg .t0 (by decide)).trans ht₄
  obtain ⟨m₆, h₆, hw₆⟩ := execAll_storeWord ht₅ (by decide : (20 : UInt32) ∈ _)
    (by decide : ((0x600C2 : UInt32) <<< 12 + 0x110) % 4 = 0)
  have ht₆ := (hw₆.reg .t0 (by decide)).trans ht₅
  obtain ⟨m₇, h₇, hw₇⟩ := execAll_storeWord ht₆ (by decide : (24 : UInt32) ∈ _)
    (by decide : ((0x600C0 : UInt32) <<< 12 + 0x28) % 4 = 0)
  have ht₇ := (hw₇.reg .t0 (by decide)).trans ht₆
  obtain ⟨m₈, h₈, hw₈⟩ := execAll_storeWord ht₇ (by decide : (28 : UInt32) ∈ _)
    (by decide : ((0x600C2 : UInt32) <<< 12 + 0x104) % 4 = 0)
  have hrest : Within [.t1, .t2] trapWords m₂ m₈ :=
    ((((hw₃.mono (by decide)).trans (hw₄.mono (by decide))).trans (hw₅.mono (by decide))).trans
      (hw₆.trans hw₇)).trans hw₈
  refine ⟨m₈, ?_, ?_, ?_⟩
  · have hblocks : trapDiagnostics =
        [lui .t0 0x60008, li .t1 0xE001, addi .t0 .t0 0x50, sw .t1 0 .t0] ++
          ([csrr .a0 .mcause, sw .a0 4 .t0] ++ ([csrr .t1 .mepc, sw .t1 8 .t0] ++
            ([csrr .t1 .mtvec, sw .t1 12 .t0] ++ ([sw .sp 16 .t0] ++
              ([lui .t1 0x600C2, lw .t2 0x110 .t1, sw .t2 20 .t0] ++
                ([lui .t1 0x600C0, lw .t2 0x28 .t1, sw .t2 24 .t0] ++
                  [lui .t1 0x600C2, lw .t2 0x104 .t1, sw .t2 28 .t0])))))) := rfl
    rw [hblocks, execAll_append, h₁, Option.bind_some, execAll_append, h₂, Option.bind_some,
      execAll_append, h₃, Option.bind_some, execAll_append, h₄, Option.bind_some, execAll_append,
      h₅,
      Option.bind_some, execAll_append, h₆, Option.bind_some, execAll_append, h₇, Option.bind_some,
      h₈]
  · rw [hrest.reg .a0 (by decide), hcause, hw₁.csrs]
  · exact ((hw₁.mono (by decide)).trans (hw₂.mono (by decide))).trans (hrest.mono (by decide))

/-! ## Interrupts -/

/-- `mcause` of an interrupt. -/
def interruptCause (n : Fin 32) : UInt32 := 0x80000000 ||| UInt32.ofNat n

theorem interruptCause_bit : ∀ n : Fin 32, interruptCause n &&& 0x80000000 ≠ 0 := by
  decide

/-- A handler comes back with the stack pointer and the frame above it as they were. -/
structure KeepsFrame (m m' : Machine) : Prop where
  sp : m'.reg .sp = m.reg .sp
  frame : ∀ p ∈ trapFrame, m'.mem (m.reg .sp + p.2) = m.mem (m.reg .sp + p.2)

/-- The machine with which a handler is called: below the stack pointer are the registers of the
code that was interrupted. -/
structure HandlerCall (taken m₁ : Machine) : Prop where
  cause : m₁.reg .a0 = taken.csrs .mcause
  csrs : m₁.csrs = taken.csrs
  sp : m₁.reg .sp = taken.reg .sp - 128
  held : trapFrame.HeldAt m₁.mem (taken.reg .sp - 128) taken.reg
  mem : ∀ a, a ∉ trapWords → (∀ p ∈ trapFrame, a ≠ taken.reg .sp - 128 + p.2) →
    m₁.mem a = taken.mem a

section Interrupt

variable (addresses : LinkerAddresses) (ext : Symbol → Machine → Option Machine) (taken : Machine)

variable {taken} in
/-- Behind the handler: the registers are loaded, and the trap is left. -/
theorem HandlerCall.leaves {f : Symbol} {i : ℕ} {m₁ m₂ : Machine} (hcall : HandlerCall taken m₁)
    (hkeeps : KeepsFrame m₁ m₂) (hsp : taken.reg .sp % 4 = 0)
    (hcode : (assembly addresses f).drop i = restoreAll ++ [mret]) :
    ∃ m', Leaves (assembly addresses) ext ⟨f, i, m₂⟩ (m₂.csrs .mepc) m' ∧
      (∀ r, m'.reg r = taken.reg r) ∧ m'.mem = m₂.mem ∧ m'.csrs = m₂.mret.csrs := by
  have hsp₂ : m₂.reg .sp = taken.reg .sp - 128 := hkeeps.sp.trans hcall.sp
  have hbelow : (taken.reg .sp - 128) % 4 = 0 := by
    rw [sub_eq_add_neg]
    exact aligned_add hsp (by decide)
  obtain ⟨m₃, hexec, hmem, hcsrs, hsp₃, hregs⟩ := execAll_restoreAll (m := m₂) taken.reg
    (by rw [hsp₂]; exact hbelow) (by
      rw [hsp₂]
      intro p hp
      have hword := hkeeps.frame p hp
      rw [hcall.sp] at hword
      exact hword.trans (hcall.held p hp))
  have hmret : (assembly addresses f)[i + restoreAll.length]? = some .mret := by
    have hget := congrArg (·[restoreAll.length]?) hcode
    simpa using hget
  refine ⟨m₃.mret, ?_, ?_, hmem, ?_⟩
  · rw [← hcsrs]
    exact (Reaches.block hcode hexec).leaves (leaves_mret hmret)
  · intro r
    by_cases hr : r = .sp
    · rw [hr]
      refine hsp₃.trans ?_
      rw [hsp₂, sub_add_cancel]
    by_cases hzero : r = .zero
    · rw [hzero]
      rfl
    · exact hregs r hr hzero
  · rw [Machine.mret, Machine.mret, hcsrs]
    exact congrArg (Function.update · _ _) hcsrs

theorem interruptEntryCommon_reaches (hsp : taken.reg .sp % 4 = 0) :
    ∃ m₁, Reaches (assembly addresses) ext ⟨.interruptEntryCommon, 0, taken⟩
      ⟨.interruptEntryCommon, 32, m₁⟩ ∧ HandlerCall taken m₁ := by
  obtain ⟨m₀, hsave, hreg, hcsrs, hheld, hmem⟩ := execAll_saveAll hsp
  have hexec : execAll (saveAll ++ [csrr .a0 .mcause]) taken =
      some (m₀.setReg .a0 (m₀.csrs .mcause)) := by
    rw [execAll_append, hsave]
    rfl
  have hcode : (assembly addresses .interruptEntryCommon).drop 0 =
      (saveAll ++ [csrr .a0 .mcause]) ++ interruptEntryCommon.drop 32 := rfl
  refine ⟨_, Reaches.block hcode hexec, ?_, ?_, ?_, ?_, ?_⟩
  · rw [Machine.reg_setReg _ _ _ _ (by decide), if_pos rfl, hcsrs]
  · rw [Machine.setReg_csrs, hcsrs]
  · rw [Machine.reg_setReg _ _ _ _ (by decide), if_neg (by decide), hreg, if_pos rfl]
  · rw [Machine.setReg_mem]
    exact hheld
  · intro a _ hframe
    rw [Machine.setReg_mem]
    exact hmem a hframe

theorem trapEntry_reaches (hsp : taken.reg .sp % 4 = 0)
    (hframe : ∀ p ∈ trapFrame, taken.reg .sp - 128 + p.2 ∉ trapWords) :
    ∃ m₁, Reaches (assembly addresses) ext ⟨.trapEntry, 0, taken⟩
        ⟨.trapEntry, if taken.csrs .mcause &&& 0x80000000 ≠ 0 then 56 else 52, m₁⟩ ∧
      HandlerCall taken m₁ := by
  obtain ⟨m₀, hsave, hreg, hcsrs, hheld, hmem⟩ := execAll_saveAll hsp
  obtain ⟨m₁, hdiag, hcause, hwithin⟩ := execAll_trapDiagnostics m₀
  have hexec : execAll (saveAll ++ trapDiagnostics) taken = some m₁ := by
    rw [execAll_append, hsave, Option.bind_some, hdiag]
  have hcode : (assembly addresses .trapEntry).drop 0 =
      (saveAll ++ trapDiagnostics) ++ trapEntry.drop 51 := rfl
  have hget : (assembly addresses .trapEntry)[51]? = some (bltz .a0 56) := rfl
  have hblock : Reaches (assembly addresses) ext ⟨.trapEntry, 0, taken⟩ ⟨.trapEntry, 51, m₁⟩ :=
    Reaches.block hcode hexec
  have hbranch : Reaches (assembly addresses) ext ⟨.trapEntry, 51, m₁⟩
      ⟨.trapEntry, if m₁.reg .a0 &&& 0x80000000 ≠ 0 then 56 else 51 + 1, m₁⟩ :=
    Reaches.bltz hget
  rw [hcause, hcsrs] at hbranch
  refine ⟨m₁, hblock.trans hbranch, ?_, ?_, ?_, ?_, ?_⟩
  · rw [hcause, hcsrs]
  · rw [hwithin.csrs, hcsrs]
  · rw [hwithin.reg .sp (by decide), hreg, if_pos rfl]
  · exact fun p hp ↦ (hwithin.mem _ (hframe p hp)).trans (hheld p hp)
  · exact fun a ha hne ↦ (hwithin.mem a ha).trans (hmem a hne)

/-- **Interrupts are transparent to the registers**: whichever entry the vector table selects, and
whatever a handler does that comes back with its frame, all registers are as they were when the
interrupt was taken, the handler has decided where the processor goes on, and memory is as the
handler left it. -/
theorem interrupt_returns (n : Fin 32)
    (hcause : taken.csrs .mcause = interruptCause n) (hsp : taken.reg .sp % 4 = 0)
    (hframe : ∀ p ∈ trapFrame, taken.reg .sp - 128 + p.2 ∉ trapWords)
    (hhandler : ∀ m₁, HandlerCall taken m₁ →
      ∃ m₂, ext .trapInterruptC m₁ = some m₂ ∧ KeepsFrame m₁ m₂) :
    ∃ m₁ m₂ m', HandlerCall taken m₁ ∧ ext .trapInterruptC m₁ = some m₂ ∧
      Leaves (assembly addresses) ext ⟨mtvecBase n, 0, taken⟩ (m₂.csrs .mepc) m' ∧
      (∀ r, m'.reg r = taken.reg r) ∧ m'.mem = m₂.mem ∧ m'.csrs = m₂.mret.csrs := by
  have hentry : ∃ m₁ i, Reaches (assembly addresses) ext ⟨mtvecBase n, 0, taken⟩
      ⟨mtvecBase n, i, m₁⟩ ∧ HandlerCall taken m₁ ∧
      (assembly addresses (mtvecBase n))[i]? = some (call .trapInterruptC) ∧
      (assembly addresses (mtvecBase n)).drop (i + 1) = restoreAll ++ [mret] := by
    rw [mtvecBase]
    split
    · obtain ⟨m₁, hreach, hcall⟩ := interruptEntryCommon_reaches addresses ext taken hsp
      exact ⟨m₁, 32, hreach, hcall, rfl, rfl⟩
    · obtain ⟨m₁, hreach, hcall⟩ := trapEntry_reaches addresses ext taken hsp hframe
      rw [hcause, if_pos (interruptCause_bit n)] at hreach
      exact ⟨m₁, 56, hreach, hcall, rfl, rfl⟩
  obtain ⟨m₁, i, hreach, hcall, hget, hcode⟩ := hentry
  obtain ⟨m₂, hext, hkeeps⟩ := hhandler m₁ hcall
  obtain ⟨m', hleaves, hregs, hmem, hcsrs⟩ :=
    hcall.leaves addresses ext hkeeps hsp hcode
  have hbehind : Reaches (assembly addresses) ext ⟨mtvecBase n, 0, taken⟩
      ⟨mtvecBase n, i + 1, m₂⟩ := hreach.trans (Reaches.call hget hext)
  exact ⟨m₁, m₂, m', hcall, hext, hbehind.leaves hleaves, hregs, hmem, hcsrs⟩

/-- **Interrupts are transparent**: if the handler leaves `mepc` and `mstatus` as they are, the code
that was interrupted goes on where it was, with all its registers, and with interrupts enabled as
before. -/
theorem interrupt_transparent (n : Fin 32) (m : Machine) (pc : UInt32)
    (hsp : m.reg .sp % 4 = 0) (hframe : ∀ p ∈ trapFrame, m.reg .sp - 128 + p.2 ∉ trapWords)
    (hhandler : ∀ m₁, HandlerCall (m.trap pc (interruptCause n) 0) m₁ →
      ∃ m₂, ext .trapInterruptC m₁ = some m₂ ∧ KeepsFrame m₁ m₂ ∧
        m₂.csrs .mepc = m₁.csrs .mepc ∧ m₂.csrs .mstatus = m₁.csrs .mstatus) :
    ∃ m', Leaves (assembly addresses) ext
        ⟨mtvecBase n, 0, m.trap pc (interruptCause n) 0⟩ pc m' ∧
      (∀ r, m'.reg r = m.reg r) ∧ m'.csrs .mstatus &&& 0x8 = m.csrs .mstatus &&& 0x8 := by
  obtain ⟨m₁, m₂, m', hcall, hext, hleaves, hregs, -, hcsrs⟩ :=
    interrupt_returns addresses ext (m.trap pc (interruptCause n) 0) n rfl hsp hframe
      fun m₁ hcall ↦ by
        obtain ⟨m₂, hext, hkeeps, -⟩ := hhandler m₁ hcall
        exact ⟨m₂, hext, hkeeps⟩
  obtain ⟨m₂', hext', -, hmepc, hmstatus⟩ := hhandler m₁ hcall
  obtain rfl : m₂ = m₂' := Option.some.inj (hext.symm.trans hext')
  have hpc : m₂.csrs .mepc = pc := by
    rw [hmepc, hcall.csrs]
    rfl
  refine ⟨m', hpc ▸ hleaves, hregs, ?_⟩
  rw [hcsrs, Machine.mret_mstatus, hmstatus, hcall.csrs, ← Machine.mret_mstatus]
  exact m.trap_mret_enabled pc (interruptCause n) 0

end Interrupt

/-- A machine with its stack pointer in the memory of the processes, and with interrupts enabled. -/
def interrupted : Machine where
  regs := fun r ↦ if r = .sp then 0x3FC90000 else 7
  mem := fun _ ↦ 0
  csrs := fun _ ↦ 8

theorem interrupted_frame :
    ∀ p ∈ trapFrame, interrupted.reg .sp - 128 + p.2 ∉ trapWords := by
  decide

/-- A function of C may leave anything in the registers that a call does not keep. -/
def clobbered (m : Machine) : Machine :=
  { m with regs := fun r ↦ if r ∈ calleeSaved then m.regs r else 0xDEADBEEF }

theorem reg_clobbered (m : Machine) {r : Reg} (hr : r ∈ calleeSaved) :
    (clobbered m).reg r = m.reg r := by
  rw [Machine.reg, Machine.reg, clobbered]
  dsimp only
  rw [if_pos hr]

theorem interrupt_transparent_timer : ∃ m',
    Leaves (assembly ⟨0, 0, 0, 0, 0⟩) (fun _ m ↦ some (clobbered m))
      ⟨mtvecBase 7, 0, interrupted.trap 0x42000100 (interruptCause 7) 0⟩ 0x42000100 m' ∧
    (∀ r, m'.reg r = interrupted.reg r) ∧
    m'.csrs .mstatus &&& 0x8 = interrupted.csrs .mstatus &&& 0x8 :=
  interrupt_transparent ⟨0, 0, 0, 0, 0⟩ _ 7 interrupted 0x42000100 (by decide) interrupted_frame
    fun m₁ _ ↦ ⟨clobbered m₁, rfl, ⟨reg_clobbered m₁ (by decide), fun _ _ ↦ rfl⟩, rfl, rfl⟩

/-! ## Preemption -/

/-- `process_yield` comes back to `preempt_return_trampoline` as any C function does. -/
structure KeepsCall (m m' : Machine) : Prop where
  regs : ∀ r ∈ calleeSaved, m'.reg r = m.reg r
  low : m'.mem (m.reg .sp) = m.mem (m.reg .sp)
  high : m'.mem (m.reg .sp + 4) = m.mem (m.reg .sp + 4)

/-- The machine with which `preempt_return_trampoline` calls `process_yield`. -/
structure YieldCall (addresses : LinkerAddresses) (m m₁ : Machine) : Prop where
  sp : m₁.reg .sp = m.reg .sp - 8
  regs : ∀ r, r ≠ .sp → r ≠ .t0 → r ≠ .t1 → m₁.reg r = m.reg r
  low : m₁.mem (m.reg .sp - 8) = m.reg .s11
  high : m₁.mem (m.reg .sp - 8 + 4) = m.mem addresses.trapPreemptResumePc
  mem : ∀ a, a ≠ m.reg .sp - 8 → a ≠ m.reg .sp - 8 + 4 → m₁.mem a = m.mem a
  enabled : m₁.csrs .mstatus = (m.csrs .mstatus &&& ~~~(8 : UInt32)) ||| 8

section Preempt

variable (addresses : LinkerAddresses) (ext : Symbol → Machine → Option Machine) {m : Machine}

theorem preemptReturnTrampoline_reaches (hsp : m.reg .sp % 4 = 0)
    (hresume : addresses.trapPreemptResumePc % 4 = 0)
    (hapart : addresses.trapPreemptResumePc ≠ m.reg .sp - 8) :
    ∃ m₁, Reaches (assembly addresses) ext ⟨.preemptReturnTrampoline, 0, m⟩
      ⟨.preemptReturnTrampoline, 7, m₁⟩ ∧ YieldCall addresses m m₁ := by
  have hsub : m.reg .sp + -8 = m.reg .sp - 8 := (sub_eq_add_neg ..).symm
  have hlow : (m.reg .sp - 8) % 4 = 0 := by
    rw [← hsub]
    exact aligned_add hsp (by decide)
  have hhigh : (m.reg .sp - 8 + 4) % 4 = 0 := aligned_add hlow (by decide)
  have hne : m.reg .sp - 8 ≠ m.reg .sp - 8 + 4 := by
    simp
  let a := (m.setCsr .mstatus (m.csrs .mstatus &&& ~~~8)).setReg .sp (m.reg .sp - 8)
  let b := (a.setMem (m.reg .sp - 8) (m.reg .s11)).setReg .t0 addresses.trapPreemptResumePc
  let c := b.setReg .t1 (m.mem addresses.trapPreemptResumePc)
  let d := (c.setMem (m.reg .sp - 8 + 4) (m.mem addresses.trapPreemptResumePc)).setCsr .mstatus
    ((m.csrs .mstatus &&& ~~~8) ||| 8)
  have hregs : ∀ r, r ≠ .sp → r ≠ .t0 → r ≠ .t1 → d.reg r = m.reg r := by
    intro r hrsp hrt0 hrt1
    simp [d, c, b, a, Machine.reg_setReg, hrsp, hrt0, hrt1]
  have hspa : a.reg .sp = m.reg .sp - 8 := by simp [a, Machine.reg_setReg]
  have hs11 : a.reg .s11 = m.reg .s11 := by simp [a, Machine.reg_setReg]
  have ht0 : b.reg .t0 = addresses.trapPreemptResumePc := by simp [b, Machine.reg_setReg]
  have hspc : c.reg .sp = m.reg .sp - 8 := by simp [c, b, hspa, Machine.reg_setReg]
  have ht1 : c.reg .t1 = m.mem addresses.trapPreemptResumePc := by simp [c, Machine.reg_setReg]
  have hmema : a.mem = m.mem := by simp [a]
  have hmemb : b.mem = Function.update m.mem (m.reg .sp - 8) (m.reg .s11) := by
    rw [Machine.setReg_mem, Machine.setMem, hmema]
  have hmemd : d.mem = Function.update (Function.update m.mem (m.reg .sp - 8) (m.reg .s11))
      (m.reg .sp - 8 + 4) (m.mem addresses.trapPreemptResumePc) := by
    rw [Machine.setCsr_mem, Machine.setMem, Machine.setReg_mem, hmemb]
  have hexec : execAll ([csrci .mstatus 8, addi .sp .sp (-8), sw .s11 0 .sp,
      li .t0 addresses.trapPreemptResumePc, lw .t1 0 .t0, sw .t1 4 .sp, csrsi .mstatus 8] :
      List (Instr Symbol)) m = some d := by
    have hload : b.mem addresses.trapPreemptResumePc = m.mem addresses.trapPreemptResumePc := by
      rw [hmemb, Function.update_of_ne hapart]
    rw [execAll_cons, Instr.exec, Option.bind_some, execAll_cons, Instr.exec, Option.bind_some,
      Machine.setCsr_reg, hsub, execAll_cons, Instr.exec, hspa, add_zero, if_pos hlow,
      Option.bind_some, hs11, execAll_cons, Instr.exec, Option.bind_some, execAll_cons, Instr.exec,
      ht0, add_zero, if_pos hresume, Option.bind_some, hload, execAll_cons, Instr.exec, hspc,
      if_pos hhigh, Option.bind_some, ht1, execAll_cons, Instr.exec, Option.bind_some, execAll_nil]
    simp [d, c, b, a]
  have hcode : (assembly addresses .preemptReturnTrampoline).drop 0 =
      [csrci .mstatus 8, addi .sp .sp (-8), sw .s11 0 .sp,
        li .t0 addresses.trapPreemptResumePc, lw .t1 0 .t0, sw .t1 4 .sp, csrsi .mstatus 8] ++
      (preemptReturnTrampoline addresses).drop 7 := rfl
  refine ⟨d, Reaches.block hcode hexec, ?_, hregs, ?_, ?_, ?_, ?_⟩
  · exact hspc
  · rw [hmemd, Function.update_of_ne hne, Function.update_self]
  · rw [hmemd, Function.update_self]
  · intro a' hlow' hhigh'
    rw [hmemd, Function.update_of_ne hhigh', Function.update_of_ne hlow']
  · rw [Machine.setCsr_csrs_self]

variable {addresses} in
/-- Behind `process_yield`, the trampoline goes to the address that it had read. -/
theorem YieldCall.leaves {m₁ m₂ : Machine} (hcall : YieldCall addresses m m₁)
    (hkeeps : KeepsCall m₁ m₂) (hsp : m.reg .sp % 4 = 0) :
    ∃ m', Leaves (assembly addresses) ext ⟨.preemptReturnTrampoline, 8, m₂⟩
        (m.mem addresses.trapPreemptResumePc &&& ~~~1) m' ∧
      (∀ r ∈ calleeSaved, m'.reg r = m.reg r) ∧
      m'.reg .t0 = m.mem addresses.trapPreemptResumePc ∧
      (∀ r, r ∉ calleeSaved → r ≠ .t0 → m'.reg r = m₂.reg r) ∧ m'.mem = m₂.mem := by
  have hlow : (m.reg .sp - 8) % 4 = 0 := by
    rw [sub_eq_add_neg]
    exact aligned_add hsp (by decide)
  have hhigh : (m.reg .sp - 8 + 4) % 4 = 0 := aligned_add hlow (by decide)
  have hsp₂ : m₂.reg .sp = m.reg .sp - 8 := (hkeeps.regs .sp (by decide)).trans hcall.sp
  have hpc : m₂.mem (m.reg .sp - 8 + 4) = m.mem addresses.trapPreemptResumePc := by
    have hword := hkeeps.high
    rw [hcall.sp] at hword
    exact hword.trans hcall.high
  have hs11 : m₂.mem (m.reg .sp - 8) = m.reg .s11 := by
    have hword := hkeeps.low
    rw [hcall.sp] at hword
    exact hword.trans hcall.low
  let a := m₂.setReg .t0 (m.mem addresses.trapPreemptResumePc)
  let b := a.setReg .s11 (m.reg .s11)
  let c := b.setReg .sp (m.reg .sp)
  have hspa : a.reg .sp = m.reg .sp - 8 := by simp [a, hsp₂, Machine.reg_setReg]
  have hspb : b.reg .sp = m.reg .sp - 8 := by simp [b, hspa, Machine.reg_setReg]
  have hmema : a.mem = m₂.mem := Machine.setReg_mem ..
  have hexec : execAll ([lw .t0 4 .sp, lw .s11 0 .sp, addi .sp .sp 8] : List (Instr Symbol)) m₂ =
      some c := by
    rw [execAll_cons, Instr.exec, hsp₂, if_pos hhigh, hpc, Option.bind_some, execAll_cons,
      Instr.exec, hspa, add_zero, if_pos hlow, hmema, hs11, Option.bind_some, execAll_cons,
      Instr.exec, hspb, sub_add_cancel, Option.bind_some, execAll_nil]
  have hcode : (assembly addresses .preemptReturnTrampoline).drop 8 =
      [lw .t0 4 .sp, lw .s11 0 .sp, addi .sp .sp 8] ++ [jr .t0] := rfl
  have hget : (assembly addresses .preemptReturnTrampoline)[8 + 3]? = some (jr .t0) := rfl
  have ht0 : c.reg .t0 = m.mem addresses.trapPreemptResumePc := by
    simp [c, b, a, Machine.reg_setReg]
  refine ⟨c, ?_, ?_, ht0, ?_, ?_⟩
  · rw [← ht0]
    exact (Reaches.block hcode hexec).leaves (leaves_jr hget)
  · intro r hr
    rw [Machine.reg_setReg _ _ _ _ (by decide), Machine.reg_setReg _ _ _ _ (by decide),
      Machine.reg_setReg _ _ _ _ (by decide)]
    split
    · rename_i h
      rw [h]
    split
    · rename_i h
      rw [h]
    · rename_i hrsp _
      have hrt : r ≠ .t0 ∧ r ≠ .t1 := by
        constructor <;> rintro rfl <;> revert hr <;> decide
      rw [if_neg hrt.1, hkeeps.regs r hr, hcall.regs r hrsp hrt.1 hrt.2]
  · intro r hr hrt0
    have hne : r ≠ .sp ∧ r ≠ .s11 := by
      constructor <;> rintro rfl <;> exact hr (by decide)
    rw [Machine.reg_setReg _ _ _ _ (by decide), if_neg hne.1,
      Machine.reg_setReg _ _ _ _ (by decide), if_neg hne.2,
      Machine.reg_setReg _ _ _ _ (by decide), if_neg hrt0]
  · rw [Machine.setReg_mem, Machine.setReg_mem, Machine.setReg_mem]

/-- **Preemption**: if the handler of an interrupt keeps the address where the interrupt was taken
in `g_trap_preempt_resume_pc` and has the trampoline run instead, then the process calls
`process_yield` with its registers and with interrupts enabled. If that call returns, the process
comes back to that address with the registers that a call keeps. The others are as `process_yield`
has left them, and `t0` is the address. -/
theorem preempt_resumes (n : Fin 32) (m : Machine)
    (pc trampoline : UInt32) (hsp : m.reg .sp % 4 = 0)
    (hresume : addresses.trapPreemptResumePc % 4 = 0)
    (hapart : addresses.trapPreemptResumePc ≠ m.reg .sp - 8)
    (hframe : ∀ p ∈ trapFrame, m.reg .sp - 128 + p.2 ∉ trapWords)
    (hhandler : ∀ m₁, HandlerCall (m.trap pc (interruptCause n) 0) m₁ →
      ∃ m₂, ext .trapInterruptC m₁ = some m₂ ∧ KeepsFrame m₁ m₂ ∧
        m₂.mem addresses.trapPreemptResumePc = m₁.csrs .mepc ∧ m₂.csrs .mepc = trampoline) :
    ∃ m' m₁, Leaves (assembly addresses) ext
        ⟨mtvecBase n, 0, m.trap pc (interruptCause n) 0⟩ trampoline m' ∧
      (∀ r, m'.reg r = m.reg r) ∧
      Reaches (assembly addresses) ext ⟨.preemptReturnTrampoline, 0, m'⟩
        ⟨.preemptReturnTrampoline, 7, m₁⟩ ∧ YieldCall addresses m' m₁ ∧
      ∀ m₂, ext .processYield m₁ = some m₂ → KeepsCall m₁ m₂ →
        ∃ m'', Leaves (assembly addresses) ext ⟨.preemptReturnTrampoline, 0, m'⟩ (pc &&& ~~~1)
            m'' ∧
          (∀ r ∈ calleeSaved, m''.reg r = m.reg r) ∧ m''.reg .t0 = pc ∧
          (∀ r, r ∉ calleeSaved → r ≠ .t0 → m''.reg r = m₂.reg r) ∧ m''.mem = m₂.mem := by
  obtain ⟨m₁, m₂, m', hcall, hext, hleaves, hregs, hmem, -⟩ :=
    interrupt_returns addresses ext (m.trap pc (interruptCause n) 0) n rfl hsp hframe
      fun m₁ hcall ↦ by
        obtain ⟨m₂, hext, hkeeps, -⟩ := hhandler m₁ hcall
        exact ⟨m₂, hext, hkeeps⟩
  obtain ⟨m₂', hext', -, hword, hmepc⟩ := hhandler m₁ hcall
  obtain rfl : m₂ = m₂' := Option.some.inj (hext.symm.trans hext')
  have hpc : m'.mem addresses.trapPreemptResumePc = pc := by
    rw [hmem, hword, hcall.csrs]
    rfl
  -- the trampoline finds the registers of the process
  have hsp' : m'.reg .sp = m.reg .sp := hregs .sp
  have haligned : m'.reg .sp % 4 = 0 := by
    rw [hsp']
    exact hsp
  obtain ⟨m₃, hreach, hyieldCall⟩ := preemptReturnTrampoline_reaches addresses ext haligned
    hresume (by rw [hsp']; exact hapart)
  refine ⟨m', m₃, hmepc ▸ hleaves, hregs, hreach, hyieldCall, ?_⟩
  intro m₄ hext₄ hkeeps
  obtain ⟨m₅, hleaves₅, hsaved, ht0, hothers, hmem₅⟩ := hyieldCall.leaves ext hkeeps haligned
  have hget : (assembly addresses .preemptReturnTrampoline)[7]? = some (call .processYield) := rfl
  have hbehind : Reaches (assembly addresses) ext ⟨.preemptReturnTrampoline, 0, m'⟩
      ⟨.preemptReturnTrampoline, 8, m₄⟩ := hreach.trans (Reaches.call hget hext₄)
  rw [hpc] at hleaves₅ ht0
  exact ⟨m₅, hbehind.leaves hleaves₅, fun r hr ↦ (hsaved r hr).trans (hregs r), ht0, hothers, hmem₅⟩

end Preempt

/-- A timer handler that always preempts, and a `process_yield` that does nothing but what every
function of C may do. -/
def preempting (f : Symbol) (m : Machine) : Option Machine :=
  if f = .trapInterruptC then
    some (((clobbered m).setMem 0x3FC80000 (m.csrs .mepc)).setCsr .mepc 0x40380100)
  else some (clobbered m)

theorem preempt_resumes_timer : ∃ m' m'',
    Leaves (assembly ⟨0, 0, 0, 0, 0x3FC80000⟩) preempting
      ⟨mtvecBase 7, 0, interrupted.trap 0x42000100 (interruptCause 7) 0⟩ 0x40380100 m' ∧
    Leaves (assembly ⟨0, 0, 0, 0, 0x3FC80000⟩) preempting ⟨.preemptReturnTrampoline, 0, m'⟩
      0x42000100 m'' ∧
    m''.reg .s0 = interrupted.reg .s0 ∧ m''.reg .a0 = 0xDEADBEEF := by
  have hframe : ∀ p ∈ trapFrame, interrupted.reg .sp - 128 + p.2 ≠ 0x3FC80000 := by
    decide
  have hhandler : ∀ m₁, HandlerCall (interrupted.trap 0x42000100 (interruptCause 7) 0) m₁ →
      ∃ m₂, preempting .trapInterruptC m₁ = some m₂ ∧ KeepsFrame m₁ m₂ ∧
        m₂.mem 0x3FC80000 = m₁.csrs .mepc ∧ m₂.csrs .mepc = 0x40380100 := by
    intro m₁ hcall
    refine ⟨_, rfl, ⟨reg_clobbered m₁ (by decide), fun p hp ↦ ?_⟩, ?_, Machine.setCsr_csrs_self ..⟩
    · rw [hcall.sp]
      exact Function.update_of_ne (hframe p hp) ..
    · exact Function.update_self (0x3FC80000 : UInt32) (m₁.csrs .mepc) m₁.mem
  obtain ⟨m', m₁, hleaves, -, -, -, hyield⟩ := preempt_resumes ⟨0, 0, 0, 0, 0x3FC80000⟩
    preempting 7 interrupted 0x42000100 0x40380100 (by decide) (by decide) (by decide)
    interrupted_frame hhandler
  obtain ⟨m'', hleaves', hsaved, -, hothers, -⟩ := hyield (clobbered m₁) rfl
    ⟨fun r hr ↦ reg_clobbered m₁ hr, rfl, rfl⟩
  exact ⟨m', m'', hleaves, hleaves', hsaved .s0 (by decide), hothers .a0 (by decide) (by decide)⟩

end TensorOS
