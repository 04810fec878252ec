import TensorOS.Arch.Assembly

/-!
# Switching contexts

`context_switch` stores thirteen registers below the stack pointer, writes the stack pointer to the
slot of the process it leaves, and loads the same registers from the stack of the other process. So
a switch back finds what the switch away has stored, if nobody has touched it.
-/

namespace TensorOS

open Riscv Instr

/-! ## Marks -/

/-- The first four diagnostic registers. -/
def diagnosticWords : List UInt32 := [0x60008050, 0x60008054, 0x60008058, 0x6000805C]

/-- Nothing is changed but the temporaries `t0` and `t1` and the diagnostic registers. -/
abbrev OnlyMarks : Machine → Machine → Prop := Within [.t0, .t1] diagnosticWords

theorem execAll_mark (low : UInt32) (m : Machine) :
    ∃ m', execAll (mark low) m = some m' ∧ m'.reg .t0 = 0x60008050 ∧ OnlyMarks m m' := by
  refine ⟨(((((m.setReg .t0 0x60008000).setReg .t1 0xF000).setReg .t0 0x60008050).setReg .t1
    (0xF000 + low)).setMem 0x60008050 (0xF000 + low)), ?_, ?_, ?_⟩
  · have hbase : (0x60008 : UInt32) <<< 12 = 0x60008000 := by decide
    have hpage : (0xF : UInt32) <<< 12 = 0xF000 := by decide
    have haligned : (0x60008050 : UInt32) % 4 = 0 := by decide
    simp [mark, execAll_cons, Instr.exec, Machine.reg_setReg, hbase, hpage, haligned]
  · simp [Machine.reg_setReg]
  · have hset : ∀ {m : Machine} {r : Reg} (v : UInt32), r = .t0 ∨ r = .t1 →
        OnlyMarks m (m.setReg r v) := by
      rintro m r v (rfl | rfl) <;> exact .setReg (by decide) (by decide) v
    refine ((((hset _ ?_).trans (hset _ ?_)).trans (hset _ ?_)).trans (hset _ ?_)).trans
      (.setMem (by decide) _) <;> simp

theorem execAll_markStores (stores : List (Reg × UInt32))
    (hstores : ∀ p ∈ stores, p.2 ∈ [(0 : UInt32), 4, 8, 12]) {m : Machine}
    (ht0 : m.reg .t0 = 0x60008050) :
    ∃ m', execAll (stores.map fun p ↦ (sw p.1 p.2 .t0 : Instr Symbol)) m = some m' ∧
      OnlyMarks m m' := by
  induction stores generalizing m with
  | nil => exact ⟨m, rfl, .refl m⟩
  | cons p stores ih =>
    have hoffset : (0x60008050 + p.2) % 4 = 0 ∧ 0x60008050 + p.2 ∈ diagnosticWords := by
      have hp := hstores p List.mem_cons_self
      simp only [List.mem_cons, List.not_mem_nil, or_false] at hp
      rcases hp with h | h | h | h <;> rw [h] <;> decide
    obtain ⟨m', hexec, honly⟩ := ih (fun q hq ↦ hstores q (List.mem_cons_of_mem _ hq))
      (m := m.setMem (0x60008050 + p.2) (m.reg p.1)) ht0
    have hstore : OnlyMarks m (m.setMem (0x60008050 + p.2) (m.reg p.1)) := .setMem hoffset.2 _
    refine ⟨m', ?_, hstore.trans honly⟩
    rw [List.map_cons, execAll_cons, Instr.exec, ht0, if_pos hoffset.1]
    exact hexec

theorem execAll_mark_append (low : UInt32) (stores : List (Reg × UInt32))
    (hstores : ∀ p ∈ stores, p.2 ∈ [(0 : UInt32), 4, 8, 12]) (m : Machine) :
    ∃ m', execAll (mark low ++ stores.map fun p ↦ sw p.1 p.2 .t0) m = some m' ∧
      OnlyMarks m m' := by
  obtain ⟨m₁, hmark, ht0, honly₁⟩ := execAll_mark low m
  obtain ⟨m₂, hexec, honly₂⟩ := execAll_markStores stores hstores ht0
  refine ⟨m₂, ?_, honly₁.trans honly₂⟩
  rw [execAll_append, hmark]
  exact hexec

/-! ## The two routines -/

/-- Where both routines come to: the context is loaded, and the stack pointer is put above it. -/
def resume (low : UInt32) : List (Instr Symbol) :=
  contextFrame.restores ++ [addi .sp .sp 52] ++
    (mark low ++ [(Reg.ra, (8 : UInt32)), (.sp, 12)].map fun p ↦ sw p.1 p.2 .t0)

/-- The registers of a context, and the stack pointer. -/
def contextRegs : List Reg :=
  [.sp, .ra, .s0, .s1, .s2, .s3, .s4, .s5, .s6, .s7, .s8, .s9, .s10, .s11]

theorem mem_contextRegs {r : Reg} :
    r ∈ contextRegs ↔ r = .sp ∨ r ∈ contextFrame.map Prod.fst := by
  cases r <;> decide

theorem execAll_resume (low : UInt32) {m : Machine} (values : Reg → UInt32)
    (hsp : m.reg .sp % 4 = 0) (hheld : contextFrame.HeldAt m.mem (m.reg .sp) values) :
    ∃ m', execAll (resume low) m = some m' ∧ m'.reg .sp = m.reg .sp + 52 ∧
      (∀ r ∈ contextRegs, r ≠ .sp → m'.reg r = values r) ∧
      ∀ a, a ∉ diagnosticWords → m'.mem a = m.mem a := by
  obtain ⟨m₁, hload, hmem₁, -, hregs₁⟩ :=
    execAll_restores (F := Symbol) wellFormed_contextFrame hsp hheld
  have hsp₁ : m₁.reg .sp = m.reg .sp := by
    rw [hregs₁, if_neg (by decide)]
  obtain ⟨m₂, hmark, honly⟩ := execAll_mark_append low [(Reg.ra, (8 : UInt32)), (.sp, 12)]
    (by decide) (m₁.setReg .sp (m₁.reg .sp + 52))
  refine ⟨m₂, ?_, ?_, ?_, ?_⟩
  · rw [resume, execAll_append, execAll_append, hload]
    exact hmark
  · rw [honly.reg _ (by decide), Machine.reg_setReg _ _ _ _ (by decide), if_pos rfl,
      hsp₁]
  · intro r hr hne
    have hframe := (mem_contextRegs.mp hr).resolve_left hne
    have ht : r ∉ [Reg.t0, .t1] := by
      revert hr
      cases r <;> decide
    rw [honly.reg r ht, Machine.reg_setReg _ _ _ _ (by decide), if_neg hne, hregs₁,
      if_pos hframe]
  · intro a ha
    rw [honly.mem a ha, Machine.setReg_mem, hmem₁]

/-- The first half of `context_switch`: the context is stored, and the stacks are exchanged. -/
def suspend : List (Instr Symbol) :=
  [addi .sp .sp (-52)] ++ (mark 0x640 ++ [(Reg.sp, (4 : UInt32))].map fun p ↦ sw p.1 p.2 .t0) ++
    contextFrame.saves ++ [sw .sp 0 .a0, mv .sp .a1]

theorem contextSwitch_eq : contextSwitch = (suspend ++ resume 0x641) ++ [jr .ra] := rfl

theorem taskStartFirst_eq : taskStartFirst =
    ([mv .sp .a0] ++ (mark 0x605 ++ [(Reg.sp, (4 : UInt32))].map fun p ↦ sw p.1 p.2 .t0) ++
      resume 0x606) ++ [jr .ra] := rfl

/-- The words that the first half of `context_switch` writes. -/
def SuspendWrites (m : Machine) (a : UInt32) : Prop :=
  a ∈ diagnosticWords ∨ a = m.reg .a0 ∨ ∃ p ∈ contextFrame, a = m.reg .sp - 52 + p.2

theorem execAll_suspend {m : Machine} (hsp : m.reg .sp % 4 = 0) (ha0 : m.reg .a0 % 4 = 0)
    (hown : ∀ p ∈ contextFrame, m.reg .sp - 52 + p.2 ≠ m.reg .a0) :
    ∃ m', execAll suspend m = some m' ∧ m'.reg .sp = m.reg .a1 ∧
      m'.mem (m.reg .a0) = m.reg .sp - 52 ∧
      contextFrame.HeldAt m'.mem (m.reg .sp - 52) m.reg ∧
      ∀ a, ¬SuspendWrites m a → m'.mem a = m.mem a := by
  have hframe : ∀ p ∈ contextFrame, p.1 ∉ [Reg.t0, .t1] ∧ p.1 ≠ .sp := by decide
  have hsub : m.reg .sp + -52 = m.reg .sp - 52 := (sub_eq_add_neg ..).symm
  have hbelow : (m.reg .sp - 52) % 4 = 0 := by
    rw [← hsub]
    exact aligned_add hsp (by decide)
  -- room for the context, and the mark
  obtain ⟨m₁, hmark, honly⟩ := execAll_mark_append 0x640 [(Reg.sp, (4 : UInt32))] (by decide)
    (m.setReg .sp (m.reg .sp - 52))
  have hreg : ∀ r, r ∉ [Reg.t0, .t1] → m₁.reg r = if r = .sp then m.reg .sp - 52 else m.reg r := by
    intro r hr
    rw [honly.reg r hr, Machine.reg_setReg _ _ _ _ (by decide)]
  have hsp₁ : m₁.reg .sp = m.reg .sp - 52 := (hreg _ (by decide)).trans (if_pos rfl)
  have ha0₁ : m₁.reg .a0 = m.reg .a0 := (hreg _ (by decide)).trans (if_neg (by decide))
  have ha1₁ : m₁.reg .a1 = m.reg .a1 := (hreg _ (by decide)).trans (if_neg (by decide))
  -- the context is stored, and then the stack pointer
  have hstore := execAll_saves (F := Symbol) wellFormed_contextFrame (m := m₁) (by rwa [hsp₁])
  rw [hsp₁] at hstore
  have hheld := contextFrame.heldAt_store wellFormed_contextFrame (m.reg .sp - 52) m₁.reg m₁.mem
  refine ⟨({ m₁ with mem := contextFrame.store (m.reg .sp - 52) m₁.reg m₁.mem }.setMem (m.reg .a0)
    (m.reg .sp - 52)).setReg .sp (m.reg .a1), ?_, ?_, ?_, ?_, ?_⟩
  · rw [suspend, execAll_append, execAll_append, execAll_append, execAll_cons, Instr.exec, hsub]
    simp only [execAll_nil, Option.bind_some]
    rw [hmark, Option.bind_some, hstore, Option.bind_some, execAll_cons, Instr.exec]
    have haligned : (m₁.reg .a0 + 0) % 4 = 0 := by
      rw [ha0₁, add_zero]
      exact ha0
    rw [← ha0₁, ← ha1₁, ← hsp₁]
    refine (congrArg (Option.bind · _) (if_pos haligned)).trans ?_
    rw [Option.bind_some, add_zero]
    rfl
  · rw [Machine.reg_setReg _ _ _ _ (by decide), if_pos rfl]
  · rw [Machine.setReg_mem]
    exact Function.update_self ..
  · intro p hp
    rw [Machine.setReg_mem]
    refine (Function.update_of_ne (hown p hp) ..).trans ((hheld p hp).trans ?_)
    obtain ⟨ht, hne⟩ := hframe p hp
    rw [hreg _ ht, if_neg hne]
  · intro a ha
    simp only [SuspendWrites, not_or, not_exists, not_and] at ha
    rw [Machine.setReg_mem]
    refine (Function.update_of_ne ha.2.1 ..).trans ?_
    refine (contextFrame.store_of_ne _ _ fun p hp ↦ ha.2.2 p hp).trans ?_
    rw [honly.mem a ha.1, Machine.setReg_mem]

/-- The code before the last instruction, a jump to `ra`. -/
theorem leaves_of_execAll (addresses : LinkerAddresses) (ext : Symbol → Machine → Option Machine)
    (f : Symbol) {block : List (Instr Symbol)} (hcode : assembly addresses f = block ++ [jr .ra])
    {m m' : Machine} (hexec : execAll block m = some m') :
    Leaves (assembly addresses) ext ⟨f, 0, m⟩ (m'.reg .ra &&& ~~~1) m' := by
  refine ⟨⟨f, 0 + block.length, m'⟩, Reaches.block (by rw [List.drop_zero, hcode]) hexec, ?_⟩
  rw [step, hcode]
  simp

/-- **`context_switch`**, called with the address of the slot of the process it leaves and the stack
pointer of the other one: if the context of the other one is stored there and is not in the way, the
routine goes to the address that was stored as `ra`. -/
theorem contextSwitch_leaves (addresses : LinkerAddresses) (ext : Symbol → Machine → Option Machine)
    {m : Machine} (values : Reg → UInt32) (hsp : m.reg .sp % 4 = 0) (ha0 : m.reg .a0 % 4 = 0)
    (ha1 : m.reg .a1 % 4 = 0) (hheld : contextFrame.HeldAt m.mem (m.reg .a1) values)
    (hapart : ∀ p ∈ contextFrame, ¬SuspendWrites m (m.reg .a1 + p.2))
    (hslot : m.reg .a0 ∉ diagnosticWords) (hown : ∀ p ∈ contextFrame,
      m.reg .sp - 52 + p.2 ∉ diagnosticWords ∧ m.reg .sp - 52 + p.2 ≠ m.reg .a0) :
    ∃ m', Leaves (assembly addresses) ext ⟨.contextSwitch, 0, m⟩ (values .ra &&& ~~~1) m' ∧
      m'.reg .sp = m.reg .a1 + 52 ∧ (∀ r ∈ contextRegs, r ≠ .sp → m'.reg r = values r) ∧
      m'.mem (m.reg .a0) = m.reg .sp - 52 ∧
      contextFrame.HeldAt m'.mem (m.reg .sp - 52) m.reg ∧
      ∀ a, ¬SuspendWrites m a → m'.mem a = m.mem a := by
  obtain ⟨m₁, hsuspend, hsp₁, hslot₁, hheld₁, hmem₁⟩ :=
    execAll_suspend hsp ha0 fun p hp ↦ (hown p hp).2
  obtain ⟨m₂, hresume, hsp₂, hregs₂, hmem₂⟩ := execAll_resume 0x641 (m := m₁) values
    (by rw [hsp₁]; exact ha1) (by
      rw [hsp₁]
      exact fun p hp ↦ (hmem₁ _ (hapart p hp)).trans (hheld p hp))
  have hra : m₂.reg .ra = values .ra := hregs₂ _ (by decide) (by decide)
  refine ⟨m₂, ?_, ?_, hregs₂, ?_, ?_, ?_⟩
  · rw [← hra]
    refine leaves_of_execAll addresses ext .contextSwitch contextSwitch_eq ?_
    rw [execAll_append, hsuspend]
    exact hresume
  · rw [hsp₂, hsp₁]
  · rw [hmem₂ _ hslot, hslot₁]
  · exact fun p hp ↦ (hmem₂ _ (hown p hp).1).trans (hheld₁ p hp)
  · exact fun a ha ↦ (hmem₂ a fun hd ↦ ha (Or.inl hd)).trans (hmem₁ a ha)

/-- **`task_start_first`**, called with the stack pointer of the process. -/
theorem taskStartFirst_leaves (addresses : LinkerAddresses)
    (ext : Symbol → Machine → Option Machine) {m : Machine} (values : Reg → UInt32)
    (ha0 : m.reg .a0 % 4 = 0) (hheld : contextFrame.HeldAt m.mem (m.reg .a0) values)
    (hapart : ∀ p ∈ contextFrame, m.reg .a0 + p.2 ∉ diagnosticWords) :
    ∃ m', Leaves (assembly addresses) ext ⟨.taskStartFirst, 0, m⟩ (values .ra &&& ~~~1) m' ∧
      m'.reg .sp = m.reg .a0 + 52 ∧ (∀ r ∈ contextRegs, r ≠ .sp → m'.reg r = values r) ∧
      ∀ a, a ∉ diagnosticWords → m'.mem a = m.mem a := by
  obtain ⟨m₁, hmark, honly⟩ := execAll_mark_append 0x605 [(Reg.sp, (4 : UInt32))] (by decide)
    (m.setReg .sp (m.reg .a0))
  have hsp₁ : m₁.reg .sp = m.reg .a0 := by
    rw [honly.reg _ (by decide), Machine.reg_setReg _ _ _ _ (by decide), if_pos rfl]
  have hmem₁ : ∀ a, a ∉ diagnosticWords → m₁.mem a = m.mem a := by
    intro a ha
    rw [honly.mem a ha, Machine.setReg_mem]
  obtain ⟨m₂, hresume, hsp₂, hregs₂, hmem₂⟩ := execAll_resume 0x606 (m := m₁) values
    (by rw [hsp₁]; exact ha0) (by
      rw [hsp₁]
      exact fun p hp ↦ (hmem₁ _ (hapart p hp)).trans (hheld p hp))
  have hra : m₂.reg .ra = values .ra := hregs₂ _ (by decide) (by decide)
  refine ⟨m₂, ?_, ?_, hregs₂, fun a ha ↦ (hmem₂ a ha).trans (hmem₁ a ha)⟩
  · rw [← hra]
    refine leaves_of_execAll addresses ext .taskStartFirst taskStartFirst_eq ?_
    rw [execAll_append, execAll_append, execAll_cons, Instr.exec]
    simp only [execAll_nil, Option.bind_some]
    rw [hmark]
    exact hresume
  · rw [hsp₂, hsp₁]

end TensorOS
