import Mathlib

/-!
# A subset of RISC-V

The 32-bit machine as far as context switches and trap entries use it: the integer registers, a
memory of aligned words, and the control registers of machine mode. A program is a family of
routines, and a position is a routine with an index into it, so that the code has no addresses.
Where control leaves the program, through a register or `mret`, the address it goes to is part of
the outcome. A call of a routine outside the program is one step, with what it does as a parameter.

## Blocks and frames

Code without jumps is a block, and a block is a function on the machine (`Reaches.block`). A frame
says which register is kept at which offset from the stack pointer. Storing a frame and loading it
again are the two halves of every context: `execAll_saves` and `execAll_restores`.
-/

namespace TensorOS

namespace Riscv

/-- The integer registers. -/
inductive Reg
  | zero | ra | sp | gp | tp | t0 | t1 | t2 | s0 | s1 | a0 | a1 | a2 | a3 | a4 | a5 | a6 | a7
  | s2 | s3 | s4 | s5 | s6 | s7 | s8 | s9 | s10 | s11 | t3 | t4 | t5 | t6
  deriving DecidableEq, Repr

/-- The registers that a call keeps. -/
def calleeSaved : List Reg :=
  [.sp, .gp, .tp, .s0, .s1, .s2, .s3, .s4, .s5, .s6, .s7, .s8, .s9, .s10, .s11]

/-- The control registers. -/
inductive Csr
  | mstatus | mtvec | mepc | mcause | mtval
  deriving DecidableEq, Repr

structure Machine where
  regs : Reg → UInt32
  mem : UInt32 → UInt32
  csrs : Csr → UInt32

/-- The instructions, with some pseudo-instructions of the assembler. A name of type `F` is that of
a routine. -/
inductive Instr (F : Type*)
  | lui (rd : Reg) (imm : UInt32)
  | addi (rd rs : Reg) (imm : UInt32)
  | li (rd : Reg) (imm : UInt32)
  | mv (rd rs : Reg)
  | lw (rd : Reg) (offset : UInt32) (base : Reg)
  | sw (rs : Reg) (offset : UInt32) (base : Reg)
  | csrr (rd : Reg) (csr : Csr)
  | csrci (csr : Csr) (mask : UInt32)
  | csrsi (csr : Csr) (mask : UInt32)
  | wfi
  | bltz (rs : Reg) (target : ℕ)
  | bgeu (rs rs' : Reg) (target : ℕ)
  | j (target : ℕ)
  | tail (routine : F)
  | call (routine : F)
  | jr (rs : Reg)
  | mret

/-! ## The machine -/

namespace Machine

variable (m : Machine) (r r' : Reg) (v : UInt32)

def reg (r : Reg) : UInt32 := if r = .zero then 0 else m.regs r

def setReg (r : Reg) (v : UInt32) : Machine :=
  if r = .zero then m else { m with regs := Function.update m.regs r v }

def setMem (a v : UInt32) : Machine := { m with mem := Function.update m.mem a v }

def setCsr (csr : Csr) (v : UInt32) : Machine := { m with csrs := Function.update m.csrs csr v }

@[simp] theorem setReg_mem : (m.setReg r v).mem = m.mem := by
  rw [setReg]
  split <;> rfl

@[simp] theorem setReg_csrs : (m.setReg r v).csrs = m.csrs := by
  rw [setReg]
  split <;> rfl

theorem reg_setReg (hr : r ≠ .zero) : (m.setReg r v).reg r' = if r' = r then v else m.reg r' := by
  rw [setReg, if_neg hr, reg, reg]
  by_cases h : r' = r
  · subst h
    rw [if_neg hr, if_pos rfl]
    exact Function.update_self ..
  · rw [if_neg h]
    exact congrArg (ite (r' = .zero) 0) (Function.update_of_ne h ..)

@[simp] theorem setMem_reg (a : UInt32) : (m.setMem a v).reg r = m.reg r := rfl

@[simp] theorem setMem_csrs (a : UInt32) : (m.setMem a v).csrs = m.csrs := rfl

@[simp] theorem setCsr_reg (csr : Csr) : (m.setCsr csr v).reg r = m.reg r := rfl

@[simp] theorem setCsr_csrs_self (csr : Csr) : (m.setCsr csr v).csrs csr = v := by
  rw [setCsr]
  exact Function.update_self csr v m.csrs

@[simp] theorem setCsr_mem (csr : Csr) : (m.setCsr csr v).mem = m.mem := rfl

/-- A trap is taken at `pc`: interrupts are disabled, and it is kept whether they were enabled. -/
def trap (pc cause tval : UInt32) : Machine :=
  let mstatus := m.csrs .mstatus
  { m with
    csrs := fun
      | .mstatus => (mstatus &&& ~~~(0x88 : UInt32)) ||| (mstatus <<< 4 &&& 0x80)
      | .mtvec => m.csrs .mtvec
      | .mepc => pc
      | .mcause => cause
      | .mtval => tval }

/-- The return from a trap: interrupts are as enabled as they were before it. -/
def mret : Machine :=
  let mstatus := m.csrs .mstatus
  m.setCsr .mstatus ((mstatus &&& ~~~(0x8 : UInt32)) ||| (mstatus >>> 4 &&& 0x8) ||| 0x80)

theorem mret_mstatus : m.mret.csrs .mstatus =
    ((m.csrs .mstatus &&& ~~~(0x8 : UInt32)) ||| (m.csrs .mstatus >>> 4 &&& 0x8) ||| 0x80) := by
  rw [mret, setCsr_csrs_self]

/-- Behind the return, interrupts are enabled as they were before the trap. -/
theorem trap_mret_enabled (pc cause tval : UInt32) :
    (m.trap pc cause tval).mret.csrs .mstatus &&& 0x8 = m.csrs .mstatus &&& 0x8 := by
  rw [mret_mstatus, trap]
  dsimp only
  generalize m.csrs .mstatus = mstatus
  rw [← UInt32.toBitVec_inj]
  refine BitVec.eq_of_getLsbD_eq fun i hi ↦ ?_
  simp only [UInt32.toBitVec_and, UInt32.toBitVec_or, UInt32.toBitVec_not,
    UInt32.toBitVec_shiftLeft, UInt32.toBitVec_shiftRight, BitVec.getLsbD_and, BitVec.getLsbD_or,
    BitVec.getLsbD_not]
  interval_cases i <;> simp

end Machine

variable {F : Type*}

/-- The effect of an instruction that goes on with the next one. An access that is not aligned is
none. -/
def Instr.exec (m : Machine) : Instr F → Option Machine
  | lui rd imm => some (m.setReg rd (imm <<< 12))
  | addi rd rs imm => some (m.setReg rd (m.reg rs + imm))
  | li rd imm => some (m.setReg rd imm)
  | mv rd rs => some (m.setReg rd (m.reg rs))
  | lw rd offset base =>
    if (m.reg base + offset) % 4 = 0 then some (m.setReg rd (m.mem (m.reg base + offset))) else none
  | sw rs offset base =>
    if (m.reg base + offset) % 4 = 0 then some (m.setMem (m.reg base + offset) (m.reg rs)) else none
  | csrr rd csr => some (m.setReg rd (m.csrs csr))
  | csrci csr mask => some (m.setCsr csr (m.csrs csr &&& ~~~mask))
  | csrsi csr mask => some (m.setCsr csr (m.csrs csr ||| mask))
  | wfi => some m
  | _ => none

/-- A machine at a position of the program. -/
structure Config (F : Type*) where
  routine : F
  index : ℕ
  machine : Machine

/-- What a step leads to: another position, or an address outside. -/
inductive Outcome (F : Type*)
  | next (config : Config F)
  | leave (pc : UInt32) (machine : Machine)

/-- The step at a position. `ext` says what the routines outside do, if they return. -/
def step (code : F → List (Instr F)) (ext : F → Machine → Option Machine) (c : Config F) :
    Option (Outcome F) :=
  match (code c.routine)[c.index]? with
  | none => none
  | some (.bltz rs target) =>
    some (.next { c with
      index := if c.machine.reg rs &&& 0x80000000 ≠ 0 then target else c.index + 1 })
  | some (.bgeu rs rs' target) =>
    some (.next { c with
      index := if c.machine.reg rs' ≤ c.machine.reg rs then target else c.index + 1 })
  | some (.j target) => some (.next { c with index := target })
  | some (.tail routine) => some (.next ⟨routine, 0, c.machine⟩)
  | some (.call routine) =>
    (ext routine c.machine).map fun m ↦ .next ⟨c.routine, c.index + 1, m⟩
  | some (.jr rs) => some (.leave (c.machine.reg rs &&& ~~~1) c.machine)
  | some .mret => some (.leave (c.machine.csrs .mepc) c.machine.mret)
  | some instr => (instr.exec c.machine).map fun m ↦ .next ⟨c.routine, c.index + 1, m⟩

/-- The positions that steps inside the program lead to. -/
def Reaches (code : F → List (Instr F)) (ext : F → Machine → Option Machine) :
    Config F → Config F → Prop :=
  Relation.ReflTransGen fun c c' ↦ step code ext c = some (.next c')

/-- The program is left to an address, with the machine as given. -/
def Leaves (code : F → List (Instr F)) (ext : F → Machine → Option Machine) (c : Config F)
    (pc : UInt32) (m : Machine) : Prop :=
  ∃ c', Reaches code ext c c' ∧ step code ext c' = some (.leave pc m)

theorem Reaches.leaves {code : F → List (Instr F)} {ext : F → Machine → Option Machine}
    {c c' : Config F} {pc : UInt32} {m : Machine} (h : Reaches code ext c c')
    (hl : Leaves code ext c' pc m) : Leaves code ext c pc m := by
  obtain ⟨c'', hreach, hstep⟩ := hl
  exact ⟨c'', h.trans hreach, hstep⟩

/-- The program is left in one way only. -/
theorem Leaves.unique {code : F → List (Instr F)} {ext : F → Machine → Option Machine}
    {c : Config F} {pc pc' : UInt32} {m m' : Machine} (h : Leaves code ext c pc m)
    (h' : Leaves code ext c pc' m') : pc = pc' ∧ m = m' := by
  obtain ⟨d, hreach, hleave⟩ := h
  obtain ⟨d', hreach', hleave'⟩ := h'
  have hlast : ∀ {d d' : Config F} {pc : UInt32} {m : Machine}, Reaches code ext d d' →
      step code ext d = some (.leave pc m) → d = d' := by
    intro d d' pc m hd hstep
    rcases hd.cases_head with rfl | ⟨e, he, -⟩
    · rfl
    · exact absurd (hstep.symm.trans he) (by simp)
  have hdet : Relator.RightUnique fun c c' : Config F ↦ step code ext c = some (.next c') := by
    intro a b b' hb hb'
    simpa using hb.symm.trans hb'
  have hsame : d = d' := by
    rcases Relation.ReflTransGen.total_of_right_unique hdet hreach hreach' with hd | hd
    · exact hlast hd hleave
    · exact (hlast hd hleave').symm
  subst hsame
  simpa using hleave.symm.trans hleave'

/-! ## Blocks -/

/-- The effect of a block. -/
def execAll (block : List (Instr F)) (m : Machine) : Option Machine :=
  block.foldlM (fun m instr ↦ instr.exec m) m

@[simp] theorem execAll_nil (m : Machine) : execAll ([] : List (Instr F)) m = some m := rfl

theorem execAll_cons (instr : Instr F) (block : List (Instr F)) (m : Machine) :
    execAll (instr :: block) m = (instr.exec m).bind (execAll block) := by
  rw [execAll, List.foldlM_cons]
  rfl

theorem execAll_append (block block' : List (Instr F)) (m : Machine) :
    execAll (block ++ block') m = (execAll block m).bind (execAll block') := by
  rw [execAll, List.foldlM_append]
  rfl

/-- An instruction that goes on with the next one is a step. -/
theorem step_of_exec {code : F → List (Instr F)} {ext : F → Machine → Option Machine} {f : F}
    {i : ℕ} {m m' : Machine} {instr : Instr F} (hget : (code f)[i]? = some instr)
    (hexec : instr.exec m = some m') : step code ext ⟨f, i, m⟩ = some (.next ⟨f, i + 1, m'⟩) := by
  rw [step]
  dsimp only
  rw [hget]
  cases instr with
  | bltz | bgeu | j | tail | call | jr | mret => cases hexec
  | lui | addi | li | mv | lw | sw | csrr | csrci | csrsi | wfi =>
    dsimp only
    rw [hexec]
    rfl

/-- **The block rule**: where the code has a block, it has its effect. -/
theorem Reaches.block {code : F → List (Instr F)} {ext : F → Machine → Option Machine} {f : F}
    {i : ℕ} {m m' : Machine} {block rest : List (Instr F)} (hcode : (code f).drop i = block ++ rest)
    (hexec : execAll block m = some m') :
    Reaches code ext ⟨f, i, m⟩ ⟨f, i + block.length, m'⟩ := by
  induction block generalizing i m with
  | nil =>
    obtain rfl := Option.some.inj hexec
    exact .refl
  | cons instr block ih =>
    rw [execAll_cons] at hexec
    obtain ⟨m₁, hinstr, hblock⟩ := Option.bind_eq_some_iff.mp hexec
    have hget : (code f)[i]? = some instr := by
      have h0 := congrArg (·[0]?) hcode
      simpa using h0
    have hdrop : (code f).drop (i + 1) = block ++ rest := by
      rw [← List.drop_drop, hcode]
      rfl
    have hrest := ih hdrop hblock
    rw [List.length_cons, Nat.add_comm block.length 1, ← Nat.add_assoc]
    exact .head (step_of_exec hget hinstr) hrest

/-- Nothing is changed but these registers and these words. -/
structure Within (regs : List Reg) (words : List UInt32) (m m' : Machine) : Prop where
  reg : ∀ r, r ∉ regs → m'.reg r = m.reg r
  csrs : m'.csrs = m.csrs
  mem : ∀ a, a ∉ words → m'.mem a = m.mem a

namespace Within

variable {regs regs' : List Reg} {words : List UInt32} {m m' m'' : Machine}

theorem refl (m : Machine) : Within regs words m m := ⟨fun _ _ ↦ rfl, rfl, fun _ _ ↦ rfl⟩

theorem trans (h : Within regs words m m') (h' : Within regs words m' m'') :
    Within regs words m m'' where
  reg := fun r hr ↦ (h'.reg r hr).trans (h.reg r hr)
  csrs := h'.csrs.trans h.csrs
  mem := fun a ha ↦ (h'.mem a ha).trans (h.mem a ha)

theorem mono (h : Within regs words m m') (hsub : ∀ r ∈ regs, r ∈ regs') :
    Within regs' words m m' where
  reg := fun r hr ↦ h.reg r fun hmem ↦ hr (hsub r hmem)
  csrs := h.csrs
  mem := h.mem

theorem setReg {rd : Reg} (hrd : rd ∈ regs) (hzero : rd ≠ .zero) (v : UInt32) :
    Within regs words m (m.setReg rd v) where
  reg := fun r hr ↦ by
    rw [Machine.reg_setReg _ _ _ _ hzero, if_neg]
    rintro rfl
    exact hr hrd
  csrs := Machine.setReg_csrs ..
  mem := fun _ _ ↦ by rw [Machine.setReg_mem]

theorem setMem {a : UInt32} (ha : a ∈ words) (v : UInt32) : Within regs words m (m.setMem a v) where
  reg := fun _ _ ↦ rfl
  csrs := rfl
  mem := fun b hb ↦ Function.update_of_ne (fun heq : b = a ↦ hb (heq ▸ ha)) ..

end Within

section Control

variable {code : F → List (Instr F)} {ext : F → Machine → Option Machine} {f g : F} {i target : ℕ}
  {m m' : Machine}

theorem Reaches.call (hget : (code f)[i]? = some (.call g)) (hext : ext g m = some m') :
    Reaches code ext ⟨f, i, m⟩ ⟨f, i + 1, m'⟩ := by
  refine .single ?_
  rw [step, hget]
  dsimp only
  rw [hext]
  rfl

theorem Reaches.jump (hget : (code f)[i]? = some (.j target)) :
    Reaches code ext ⟨f, i, m⟩ ⟨f, target, m⟩ := by
  refine .single ?_
  rw [step, hget]

theorem Reaches.bltz {rs : Reg} (hget : (code f)[i]? = some (.bltz rs target)) :
    Reaches code ext ⟨f, i, m⟩
      ⟨f, if m.reg rs &&& 0x80000000 ≠ 0 then target else i + 1, m⟩ := by
  refine .single ?_
  rw [step, hget]

theorem Reaches.bgeu {rs rs' : Reg} (hget : (code f)[i]? = some (.bgeu rs rs' target)) :
    Reaches code ext ⟨f, i, m⟩ ⟨f, if m.reg rs' ≤ m.reg rs then target else i + 1, m⟩ := by
  refine .single ?_
  rw [step, hget]

theorem leaves_jr {rs : Reg} (hget : (code f)[i]? = some (.jr rs)) :
    Leaves code ext ⟨f, i, m⟩ (m.reg rs &&& ~~~1) m := by
  refine ⟨_, .refl, ?_⟩
  rw [step, hget]

theorem leaves_mret (hget : (code f)[i]? = some .mret) :
    Leaves code ext ⟨f, i, m⟩ (m.csrs .mepc) m.mret := by
  refine ⟨_, .refl, ?_⟩
  rw [step, hget]

end Control

/-! ## Frames -/

/-- Which register is kept at which offset from the stack pointer. -/
abbrev RegFrame := List (Reg × UInt32)

namespace RegFrame

/-- The offsets are those of different words, and loading does not move the stack pointer. -/
structure WellFormed (frame : RegFrame) : Prop where
  nodup : (frame.map Prod.snd).Nodup
  aligned : ∀ p ∈ frame, p.2 % 4 = 0
  general : ∀ p ∈ frame, p.1 ≠ .sp ∧ p.1 ≠ .zero

/-- The words of the frame hold these values. -/
def HeldAt (frame : RegFrame) (mem : UInt32 → UInt32) (sp : UInt32) (values : Reg → UInt32) :
    Prop :=
  ∀ p ∈ frame, mem (sp + p.2) = values p.1

variable {frame : RegFrame} {p : Reg × UInt32}

theorem WellFormed.tail (h : WellFormed (p :: frame)) : WellFormed frame where
  nodup := (List.nodup_cons.mp h.nodup).2
  aligned := fun q hq ↦ h.aligned q (List.mem_cons_of_mem _ hq)
  general := fun q hq ↦ h.general q (List.mem_cons_of_mem _ hq)

theorem WellFormed.head_ne (h : WellFormed (p :: frame)) (sp : UInt32) :
    ∀ q ∈ frame, sp + p.2 ≠ sp + q.2 := by
  intro q hq heq
  have hoffset : p.2 = q.2 := by
    simpa using heq
  refine (List.nodup_cons.mp h.nodup).1 ?_
  rw [hoffset]
  exact List.mem_map_of_mem hq

/-- The memory after the values have been stored to the frame. -/
def store (frame : RegFrame) (sp : UInt32) (values : Reg → UInt32) (mem : UInt32 → UInt32) :
    UInt32 → UInt32 :=
  frame.foldl (fun mem p ↦ Function.update mem (sp + p.2) (values p.1)) mem

theorem store_of_ne {sp a : UInt32} (values : Reg → UInt32) (mem : UInt32 → UInt32)
    (ha : ∀ p ∈ frame, a ≠ sp + p.2) : frame.store sp values mem a = mem a := by
  induction frame generalizing mem with
  | nil => rfl
  | cons p frame ih =>
    rw [store, List.foldl_cons]
    refine (ih _ fun q hq ↦ ha q (List.mem_cons_of_mem _ hq)).trans ?_
    exact Function.update_of_ne (ha p List.mem_cons_self) ..

theorem heldAt_store (hf : frame.WellFormed) (sp : UInt32) (values : Reg → UInt32)
    (mem : UInt32 → UInt32) : frame.HeldAt (frame.store sp values mem) sp values := by
  induction frame generalizing mem with
  | nil => exact fun p hp ↦ absurd hp List.not_mem_nil
  | cons p frame ih =>
    intro q hq
    rw [store, List.foldl_cons]
    rcases List.mem_cons.mp hq with rfl | hq
    · exact (store_of_ne values _ (hf.head_ne sp)).trans (Function.update_self ..)
    · exact ih hf.tail _ q hq

/-- The instructions that store the registers. -/
def saves (frame : RegFrame) : List (Instr F) := frame.map fun p ↦ .sw p.1 p.2 .sp

/-- The instructions that load the registers. -/
def restores (frame : RegFrame) : List (Instr F) := frame.map fun p ↦ .lw p.1 p.2 .sp

end RegFrame

theorem aligned_iff {a : UInt32} : a % 4 = 0 ↔ a.toNat % 4 = 0 := by
  rw [← UInt32.toNat_inj, UInt32.toNat_mod]
  rfl

theorem aligned_add {a b : UInt32} (ha : a % 4 = 0) (hb : b % 4 = 0) : (a + b) % 4 = 0 := by
  rw [aligned_iff] at ha hb ⊢
  rw [UInt32.toNat_add]
  omega

/-- **Storing a frame.** -/
theorem execAll_saves {frame : RegFrame} (hf : frame.WellFormed) {m : Machine}
    (hsp : m.reg .sp % 4 = 0) : execAll (RegFrame.saves frame : List (Instr F)) m
      = some { m with mem := frame.store (m.reg .sp) m.reg m.mem } := by
  induction frame generalizing m with
  | nil => rfl
  | cons p frame ih =>
    have halign := aligned_add hsp (hf.aligned p List.mem_cons_self)
    rw [RegFrame.saves, List.map_cons, execAll_cons, Instr.exec, if_pos halign]
    exact ih hf.tail (m := m.setMem (m.reg .sp + p.2) (m.reg p.1)) hsp

/-- **Loading a frame.** -/
theorem execAll_restores {frame : RegFrame} (hf : frame.WellFormed) {m : Machine}
    {values : Reg → UInt32} (hsp : m.reg .sp % 4 = 0)
    (hheld : frame.HeldAt m.mem (m.reg .sp) values) :
    ∃ m', execAll (RegFrame.restores frame : List (Instr F)) m = some m' ∧ m'.mem = m.mem ∧
      m'.csrs = m.csrs ∧
      ∀ r, m'.reg r = if r ∈ frame.map Prod.fst then values r else m.reg r := by
  induction frame generalizing m with
  | nil => exact ⟨m, rfl, rfl, rfl, fun _ ↦ rfl⟩
  | cons p frame ih =>
    have halign := aligned_add hsp (hf.aligned p List.mem_cons_self)
    obtain ⟨hne, hzero⟩ := hf.general p List.mem_cons_self
    have hword : m.mem (m.reg .sp + p.2) = values p.1 := hheld p List.mem_cons_self
    have hsame : (m.setReg p.1 (values p.1)).reg .sp = m.reg .sp := by
      rw [Machine.reg_setReg _ _ _ _ hzero, if_neg (Ne.symm hne)]
    obtain ⟨m', hexec, hmem, hcsrs, hregs⟩ := ih hf.tail (m := m.setReg p.1 (values p.1))
      (by rw [hsame]; exact hsp) (by
        rw [hsame, Machine.setReg_mem]
        exact fun q hq ↦ hheld q (List.mem_cons_of_mem _ hq))
    refine ⟨m', ?_, ?_, ?_, ?_⟩
    · rw [RegFrame.restores, List.map_cons, execAll_cons, Instr.exec, if_pos halign, hword]
      exact hexec
    · rw [hmem, Machine.setReg_mem]
    · rw [hcsrs, Machine.setReg_csrs]
    · intro r
      rw [hregs r, Machine.reg_setReg _ _ _ _ hzero, List.map_cons]
      by_cases htail : r ∈ frame.map Prod.fst
      · rw [if_pos htail, if_pos (List.mem_cons_of_mem _ htail)]
      · rw [if_neg htail]
        by_cases hr : r = p.1
        · rw [if_pos hr, if_pos (by rw [hr]; exact List.mem_cons_self), hr]
        · rw [if_neg hr, if_neg]
          exact fun hmem ↦ (List.mem_cons.mp hmem).elim hr htail

end Riscv

end TensorOS
