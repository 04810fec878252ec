import TensorOS.Arch.Assembly

/-!
# The first instructions

`_start` sets the stack pointer and the global pointer, clears the words between `__bss_start` and
`__bss_end`, and calls `boot_main`. The comparison of the loop is unsigned, and the end need not be
a multiple of four.
-/

namespace TensorOS

open Riscv Instr

variable (addresses : LinkerAddresses) (ext : Symbol → Machine → Option Machine)

/-- One round of the loop: a word is cleared. -/
theorem start_round {m : Machine} (ht0 : m.reg .t0 % 4 = 0) (hlt : m.reg .t0 < m.reg .t1) :
    Reaches (assembly addresses) ext ⟨.start, 4, m⟩
      ⟨.start, 4, (m.setMem (m.reg .t0) 0).setReg .t0 (m.reg .t0 + 4)⟩ := by
  have hbranch : Reaches (assembly addresses) ext ⟨.start, 4, m⟩
      ⟨.start, if m.reg .t1 ≤ m.reg .t0 then 8 else 4 + 1, m⟩ :=
    Reaches.bgeu (by rfl)
  rw [if_neg (UInt32.not_le.mpr hlt)] at hbranch
  have hexec : execAll ([sw .zero 0 .t0, addi .t0 .t0 4] : List (Instr Symbol)) m =
      some ((m.setMem (m.reg .t0) 0).setReg .t0 (m.reg .t0 + 4)) := by
    have hzero : m.reg .zero = 0 := rfl
    rw [execAll_cons, Instr.exec, add_zero, if_pos ht0, Option.bind_some, hzero, execAll_cons,
      Instr.exec, Machine.setMem_reg, Option.bind_some, execAll_nil]
  have hcode : (assembly addresses .start).drop 5 =
      [sw .zero 0 .t0, addi .t0 .t0 4] ++ (start addresses).drop 7 := rfl
  have hjump : (assembly addresses .start)[7]? = some (j 4) := rfl
  exact (hbranch.trans (Reaches.block hcode hexec)).trans (Reaches.jump hjump)

theorem start_done {m : Machine} (hle : m.reg .t1 ≤ m.reg .t0) :
    Reaches (assembly addresses) ext ⟨.start, 4, m⟩ ⟨.start, 8, m⟩ := by
  have hbranch : Reaches (assembly addresses) ext ⟨.start, 4, m⟩
      ⟨.start, if m.reg .t1 ≤ m.reg .t0 then 8 else 4 + 1, m⟩ :=
    Reaches.bgeu (by rfl)
  rwa [if_pos hle] at hbranch

/-- The words from `t0` to `t1` are cleared, and nothing else is changed but `t0`. -/
structure Cleared (m m' : Machine) : Prop where
  regs : ∀ r, r ≠ .t0 → m'.reg r = m.reg r
  csrs : m'.csrs = m.csrs
  mem : ∀ a, m'.mem a = if m.reg .t0 ≤ a ∧ a < m.reg .t1 ∧ a % 4 = 0 then 0 else m.mem a

theorem cleared_of_le {m : Machine} (hle : m.reg .t1 ≤ m.reg .t0) : Cleared m m where
  regs := fun _ _ ↦ rfl
  csrs := rfl
  mem := fun a ↦ by
    refine (if_neg ?_).symm
    rintro ⟨hfrom, hto, -⟩
    exact absurd (UInt32.lt_of_le_of_lt hfrom hto) (UInt32.not_lt.mpr hle)

theorem Cleared.round {m m' : Machine} (ht0 : m.reg .t0 % 4 = 0) (hlt : m.reg .t0 < m.reg .t1)
    (hnat : (m.reg .t0 + 4).toNat = (m.reg .t0).toNat + 4)
    (h : Cleared ((m.setMem (m.reg .t0) 0).setReg .t0 (m.reg .t0 + 4)) m') : Cleared m m' := by
  have hreg : ∀ r, ((m.setMem (m.reg .t0) 0).setReg .t0 (m.reg .t0 + 4)).reg r =
      if r = .t0 then m.reg .t0 + 4 else m.reg r := fun r ↦
    Machine.reg_setReg _ _ _ _ (by decide)
  refine ⟨fun r hr ↦ ?_, ?_, fun a ↦ ?_⟩
  · rw [h.regs r hr, hreg, if_neg hr]
  · rw [h.csrs, Machine.setReg_csrs, Machine.setMem_csrs]
  · have ht0' := (hreg .t0).trans (if_pos rfl)
    have ht1' := (hreg .t1).trans (if_neg (by decide))
    rw [h.mem, ht0', ht1', Machine.setReg_mem]
    by_cases ha : a = m.reg .t0
    · rw [ha, if_neg, if_pos ⟨UInt32.le_refl _, hlt, ht0⟩]
      · exact Function.update_self ..
      · rintro ⟨hfrom, -⟩
        rw [UInt32.le_iff_toNat_le, hnat] at hfrom
        omega
    · refine if_congr ?_ rfl (Function.update_of_ne ha ..)
      -- between the two words there is no multiple of four
      have hne : a.toNat ≠ (m.reg .t0).toNat := fun heq ↦ ha (UInt32.toNat_inj.mp heq)
      rw [aligned_iff] at ht0 ⊢
      rw [UInt32.le_iff_toNat_le, UInt32.le_iff_toNat_le, hnat]
      constructor <;> rintro ⟨hfrom, hto, h4⟩ <;> exact ⟨by omega, hto, h4⟩

theorem start_loop (rounds : ℕ) {m : Machine} (ht0 : m.reg .t0 % 4 = 0)
    (hend : (m.reg .t1).toNat + 3 < 2 ^ 32)
    (hrounds : (m.reg .t1).toNat ≤ (m.reg .t0).toNat + 4 * rounds) :
    ∃ m', Reaches (assembly addresses) ext ⟨.start, 4, m⟩ ⟨.start, 8, m'⟩ ∧ Cleared m m' := by
  induction rounds generalizing m with
  | zero =>
    have hle : m.reg .t1 ≤ m.reg .t0 := UInt32.le_iff_toNat_le.mpr hrounds
    exact ⟨m, start_done addresses ext hle, cleared_of_le hle⟩
  | succ rounds ih =>
    by_cases hle : m.reg .t1 ≤ m.reg .t0
    · exact ⟨m, start_done addresses ext hle, cleared_of_le hle⟩
    have hlt : m.reg .t0 < m.reg .t1 := UInt32.not_le.mp hle
    have hnat : (m.reg .t0 + 4).toNat = (m.reg .t0).toNat + 4 := by
      rw [UInt32.lt_iff_toNat_lt] at hlt
      have h4 : (4 : UInt32).toNat = 4 := rfl
      rw [UInt32.toNat_add, h4]
      omega
    let m₁ := (m.setMem (m.reg .t0) 0).setReg .t0 (m.reg .t0 + 4)
    have ht0₁ : m₁.reg .t0 = m.reg .t0 + 4 := by simp [m₁, Machine.reg_setReg]
    have ht1₁ : m₁.reg .t1 = m.reg .t1 := by simp [m₁, Machine.reg_setReg]
    obtain ⟨m', hreach, hcleared⟩ := ih (m := m₁) (by rw [ht0₁]; exact aligned_add ht0 (by decide))
      (by rw [ht1₁]; exact hend) (by rw [ht0₁, ht1₁, hnat]; omega)
    exact ⟨m', (start_round addresses ext ht0 hlt).trans hreach, hcleared.round ht0 hlt hnat⟩

/-- **`_start` reaches `boot_main`**, with the stack pointer and the global pointer set, and with
exactly the words between `__bss_start` and `__bss_end` cleared. -/
theorem start_reaches (m : Machine) (hstart : addresses.bssStart % 4 = 0)
    (hend : addresses.bssEnd.toNat + 3 < 2 ^ 32) :
    ∃ m', Reaches (assembly addresses) ext ⟨.start, 0, m⟩ ⟨.start, 8, m'⟩ ∧
      (assembly addresses .start)[8]? = some (call .bootMain) ∧
      m'.reg .sp = addresses.stackTop ∧ m'.reg .gp = addresses.globalPointer ∧
      ∀ a, m'.mem a = if addresses.bssStart ≤ a ∧ a < addresses.bssEnd ∧ a % 4 = 0 then 0
        else m.mem a := by
  let m₁ := (((m.setReg .sp addresses.stackTop).setReg .gp addresses.globalPointer).setReg .t0
    addresses.bssStart).setReg .t1 addresses.bssEnd
  have hcode : (assembly addresses .start).drop 0 = [li .sp addresses.stackTop,
      li .gp addresses.globalPointer, li .t0 addresses.bssStart, li .t1 addresses.bssEnd] ++
      (start addresses).drop 4 := rfl
  have hblock : Reaches (assembly addresses) ext ⟨.start, 0, m⟩ ⟨.start, 4, m₁⟩ :=
    Reaches.block hcode rfl
  have ht0 : m₁.reg .t0 = addresses.bssStart := by simp [m₁, Machine.reg_setReg]
  have ht1 : m₁.reg .t1 = addresses.bssEnd := by simp [m₁, Machine.reg_setReg]
  obtain ⟨m', hreach, hcleared⟩ := start_loop addresses ext addresses.bssEnd.toNat (m := m₁)
    (by rw [ht0]; exact hstart) (by rw [ht1]; exact hend) (by rw [ht0, ht1]; omega)
  refine ⟨m', hblock.trans hreach, rfl, ?_, ?_, fun a ↦ ?_⟩
  · rw [hcleared.regs .sp (by decide)]
    simp [m₁, Machine.reg_setReg]
  · rw [hcleared.regs .gp (by decide)]
    simp [m₁, Machine.reg_setReg]
  · rw [hcleared.mem, ht0, ht1]
    simp [m₁]

theorem start_reaches_dram : ∃ m', Reaches
    (assembly ⟨0x3FCDFFF0, 0x3FC80800, 0x3FC80000, 0x3FC80020, 0x3FC80010⟩) (fun _ _ ↦ none)
    ⟨.start, 0, ⟨fun _ ↦ 0, fun _ ↦ 1, fun _ ↦ 0⟩⟩ ⟨.start, 8, m'⟩ ∧
    m'.mem 0x3FC8001C = 0 ∧ m'.mem 0x3FC80020 = 1 := by
  obtain ⟨m', hreach, -, -, -, hmem⟩ := start_reaches
    ⟨0x3FCDFFF0, 0x3FC80800, 0x3FC80000, 0x3FC80020, 0x3FC80010⟩ (fun _ _ ↦ none)
    ⟨fun _ ↦ 0, fun _ ↦ 1, fun _ ↦ 0⟩ (by decide) (by decide)
  refine ⟨m', hreach, ?_, ?_⟩
  · rw [hmem]
    decide
  · rw [hmem]
    decide

end TensorOS
