import TensorOS.Syscall.Objects
import TensorOS.Fs.Access

/-!
# Handles to open files

The file callbacks of the dispatcher are wired to one file system, as `kernel.c` does it: an open
is made for the running process, and the other callbacks pass their arguments on. Then the handle
table and the open slots of the file system are kept in step (`files_in_step`): every handle to a
file names a used slot of its own process, every used slot has a handle, and only `HANDLE_DUP`
makes a second handle to a slot. So a slot is closed exactly when its last handle goes.
-/

namespace TensorOS

variable {ω : Type}

/-! ## The callbacks -/

/-- What lies behind the callbacks: the file system, the running process, and the rest. -/
structure FsContext (ω : Type) where
  fs : RuntimeFs
  pid : UInt32
  rest : ω

/-- The string in memory from an address on, in a memory that has this many bytes left. -/
def stringAt (memory : ℕ → UInt8) : ℕ → ℕ → Except Fault CString
  | 0, _ => .error .outOfBounds
  | left + 1, address =>
    if h : memory address = 0 then .ok ⟨[], by simp⟩
    else do
      let rest ← stringAt memory left (address + 1)
      .ok ⟨memory address :: rest.chars, by simpa [h] using rest.nonzero⟩

/-- A path argument. -/
def pathAt (memory : ℕ → UInt8) (address : UInt32) : Except Fault (Option CString) :=
  if address = 0 then .ok none
  else do
    let path ← stringAt memory (2 ^ 32 - address.toNat) address.toNat
    .ok (some path)

/-- A buffer argument: the memory from an address on. -/
def bufferAt (memory : ℕ → UInt8) (address : UInt32) : Option (ℕ → UInt8) :=
  if address = 0 then none else some fun i ↦ memory (address.toNat + i)

/-- The memory after a buffer was written. -/
def storeBuffer (memory : ℕ → UInt8) (address : UInt32) (buffer : Option (ℕ → UInt8)) : ℕ → UInt8 :=
  match buffer with
  | none => memory
  | some bytes => fun a ↦ if address.toNat ≤ a then bytes (a - address.toNat) else memory a

/-- A pointer to a record that a callback fills in: whether it is there. -/
def statAt (memory : ℕ → UInt8) (address : UInt32) : Option RuntimeFileStat :=
  if address = 0 then none
  else some ⟨load32 memory address.toNat, load32 memory (address.toNat + 4),
    load32 memory (address.toNat + 8)⟩

/-- The memory after a `struct runtime_file_stat` was stored. -/
def storeStat (memory : ℕ → UInt8) (address : UInt32) (stat : Option RuntimeFileStat) :
    ℕ → UInt8 :=
  match stat with
  | none => memory
  | some stat => writeBytes memory address.toNat
      (le32 stat.type ++ le32 stat.mode ++ le32 stat.sizeBytes)

/-- The `struct runtime_dir_entry` at an address. -/
def dirEntryAt (memory : ℕ → UInt8) (address : UInt32) : Option RuntimeDirEntry :=
  if address = 0 then none
  else some ⟨load32 memory address.toNat, fun i ↦ memory (address.toNat + 4 + i)⟩

/-- The memory after a `struct runtime_dir_entry` was stored. -/
def storeDirEntry (memory : ℕ → UInt8) (address : UInt32) (entry : Option RuntimeDirEntry) :
    ℕ → UInt8 :=
  match entry with
  | none => memory
  | some entry => writeBytes memory address.toNat (le32 entry.type ++ List.ofFn entry.name)

/-- The file system after a callback. -/
def SyscallWorld.withFs (w : SyscallWorld (FsContext ω)) (fs : RuntimeFs) :
    SyscallWorld (FsContext ω) :=
  { w with context := { w.context with fs := fs } }

/-- `runtime_fs_stress_mkdir`. -/
def fsMkdirCallback (path mode : UInt32) : Callback (FsContext ω) Int := fun w ↦ do
  let path ← pathAt w.memory path
  let (status, fs) ← runtimeFsMkdir w.context.fs w.context.pid path mode
  .ok (status, w.withFs fs)

/-- `g_runtime_fs_stress_file_ops`. -/
def fsFileOps : RuntimeSyscallFileOps (FsContext ω) where
  «open» := some fun path flags object w ↦ do
    let path ← pathAt w.memory path
    let (status, fs, stored) ← runtimeFsOpen w.context.fs w.context.pid path flags (some object)
    .ok ((status, stored.getD object), w.withFs fs)
  read := some fun object buffer size w ↦ do
    let (status, fs, bytes) ← runtimeFsRead w.context.fs object (bufferAt w.memory buffer) size
    .ok (status, { w.withFs fs with memory := storeBuffer w.memory buffer bytes })
  write := some fun object buffer size w ↦ do
    let (status, fs) ← runtimeFsWrite w.context.fs object (bufferAt w.memory buffer) size
    .ok (status, w.withFs fs)
  close := some fun object w ↦
    let (status, fs) := runtimeFsClose w.context.fs object
    .ok (status, w.withFs fs)
  stat := some fun object stat w ↦ do
    let (status, fs, filled) ← runtimeFsStat w.context.fs object (statAt w.memory stat)
    .ok (status, { w.withFs fs with memory := storeStat w.memory stat filled })
  readdir := some fun object entry w ↦ do
    let (status, fs, filled) ← runtimeFsReaddir w.context.fs object (dirEntryAt w.memory entry)
    .ok (status, { w.withFs fs with memory := storeDirEntry w.memory entry filled })
  seek := some fun object offset whence w ↦ do
    let (status, fs) ← runtimeFsSeek w.context.fs object offset whence
    .ok (status, w.withFs fs)
  remove := some fun path w ↦ do
    let path ← pathAt w.memory path
    let (status, fs) ← runtimeFsRemove w.context.fs w.context.pid path
    .ok (status, w.withFs fs)
  rename := some fun oldPath newPath w ↦ do
    let oldPath ← pathAt w.memory oldPath
    let newPath ← pathAt w.memory newPath
    let (status, fs) ← runtimeFsRename w.context.fs w.context.pid oldPath newPath
    .ok (status, w.withFs fs)

/-- The file system is left alone. -/
def SameFs (w w' : SyscallWorld (FsContext ω)) : Prop := w'.context.fs = w.context.fs

/-- The file callbacks are wired to the file system, and no other callback touches it. -/
structure WiredToFs (ops : RuntimeSyscallOps (FsContext ω)) : Prop where
  processCurrentPid : ops.processCurrentPid = some (·.context.pid)
  fsMkdir : ops.fsMkdir = some fsMkdirCallback
  fileOps : ops.fileOps = some fsFileOps
  others : { ops with fsMkdir := none, fileOps := none }.Keep SameFs
  otherCreates : ∀ {args kind w object w'}, kind ≠ .file → Creates ops args kind w object w' →
    SameFs w w'
  otherDestroys : ∀ {kind object w destroyed w'}, kind ≠ .file →
    Destroys ops kind object w destroyed w' → SameFs w w'

/-! ## Slots -/

/-- The number of the slot with the index. -/
def slotNumber (s : Fin 8) : UInt32 := UInt32.ofNat (s + 1)

theorem slotNumber_injective : Function.Injective slotNumber := by
  decide

/-- The object is a used slot. -/
def OpenSlot (fs : RuntimeFs) (object : UInt32) : Prop :=
  ∃ s, object = slotNumber s ∧ (fs.openFiles s).used ≠ 0

/-- The slots differ in their positions only. -/
def SameSlots (fs fs' : RuntimeFs) : Prop :=
  ∀ s, (fs.openFiles s).SameUse (fs'.openFiles s)

section Slots

variable {fs fs' : RuntimeFs} {call : FsCall} {status : Int}

theorem SameSlots.refl (fs : RuntimeFs) : SameSlots fs fs := fun _ ↦ ⟨rfl, rfl, rfl, rfl⟩

theorem SameSlots.of_eq (h : fs'.openFiles = fs.openFiles) : SameSlots fs fs' := by
  intro s
  rw [h]
  exact ⟨rfl, rfl, rfl, rfl⟩

theorem SameSlots.openSlot (h : SameSlots fs fs') (object : UInt32) :
    OpenSlot fs' object ↔ OpenSlot fs object := by
  simp only [OpenSlot, (h _).1]

/-- The call is `runtime_fs_open` or `runtime_fs_close`. -/
def FsCall.touchesSlots : FsCall → Bool
  | .open .. | .close .. => true
  | _ => false

theorem sameSlots_setOpen {s : Fin 8} {o : RuntimeFsOpenFile} (h : (fs.openFiles s).SameUse o) :
    SameSlots fs (fs.setOpen s o) := by
  intro t
  by_cases hts : t = s
  · subst hts
    rw [RuntimeFs.setOpen_openFiles_self]
    exact h
  · rw [RuntimeFs.setOpen_openFiles_of_ne hts]
    exact ⟨rfl, rfl, rfl, rfl⟩

/-- Only opens and closes touch the slots. -/
theorem FsMove.sameSlots (hcall : call.touchesSlots = false) (h : FsMove fs call status fs') :
    SameSlots fs fs' := by
  cases h with
  | idle => exact .refl fs
  | mkdir | removes | renames => exact .of_eq rfl
  | opens | openFails | closes => cases hcall
  | positions ho => exact sameSlots_setOpen ho
  | writes => exact sameSlots_setOpen ⟨rfl, rfl, rfl, rfl⟩

/-- The file system stays sound, and the slots stay in use. -/
def FsQuiet (w w' : SyscallWorld (FsContext ω)) : Prop :=
  Sound w.context.fs → Sound w'.context.fs ∧ SameSlots w.context.fs w'.context.fs

theorem SameFs.fsQuiet {w w' : SyscallWorld (FsContext ω)} (h : SameFs w w') : FsQuiet w w' := by
  intro hs
  rw [show w'.context.fs = w.context.fs from h]
  exact ⟨hs, .refl _⟩

theorem fsQuiet_of_run {w w' : SyscallWorld (FsContext ω)} (hcall : call.touchesSlots = false)
    (hrun : call.run w.context.fs = .ok (status, fs')) (hfs : w'.context.fs = fs') :
    FsQuiet w w' := by
  intro hs
  rw [hfs]
  exact ⟨FsCall.sound_of_run hs hrun, (FsCall.move hs hrun).sameSlots hcall⟩

end Slots

theorem fsFileOps_keep : (fsFileOps : RuntimeSyscallFileOps (FsContext ω)).Keep FsQuiet where
  read f hf object buffer size w a w' h := by
    cases hf
    obtain ⟨⟨status, fs, bytes⟩, hcall, h⟩ := bind_eq_ok.mp h
    cases h
    have hrun : (FsCall.read object (bufferAt w.memory buffer) size).run w.context.fs
        = .ok (a, fs) := by
      rw [FsCall.run, hcall, ok_bind]
    exact fsQuiet_of_run rfl hrun rfl
  write f hf object buffer size w a w' h := by
    cases hf
    obtain ⟨⟨status, fs⟩, hcall, h⟩ := bind_eq_ok.mp h
    cases h
    have hrun : (FsCall.write object (bufferAt w.memory buffer) size).run w.context.fs
        = .ok (a, fs) := hcall
    exact fsQuiet_of_run rfl hrun rfl
  stat f hf object stat w a w' h := by
    cases hf
    obtain ⟨⟨status, fs, filled⟩, hcall, h⟩ := bind_eq_ok.mp h
    cases h
    have hrun : (FsCall.stat object (statAt w.memory stat)).run w.context.fs = .ok (a, fs) := by
      rw [FsCall.run, hcall, ok_bind]
    exact fsQuiet_of_run rfl hrun rfl
  readdir f hf object entry w a w' h := by
    cases hf
    obtain ⟨⟨status, fs, filled⟩, hcall, h⟩ := bind_eq_ok.mp h
    cases h
    have hrun : (FsCall.readdir object (dirEntryAt w.memory entry)).run w.context.fs
        = .ok (a, fs) := by
      rw [FsCall.run, hcall, ok_bind]
    exact fsQuiet_of_run rfl hrun rfl
  seek f hf object offset whence w a w' h := by
    cases hf
    obtain ⟨⟨status, fs⟩, hcall, h⟩ := bind_eq_ok.mp h
    cases h
    have hrun : (FsCall.seek object offset whence).run w.context.fs = .ok (a, fs) := hcall
    exact fsQuiet_of_run rfl hrun rfl
  remove f hf path w a w' h := by
    cases hf
    obtain ⟨p, -, h⟩ := bind_eq_ok.mp h
    obtain ⟨⟨status, fs⟩, hcall, h⟩ := bind_eq_ok.mp h
    cases h
    have hrun : (FsCall.remove w.context.pid p).run w.context.fs = .ok (a, fs) := hcall
    exact fsQuiet_of_run rfl hrun rfl
  rename f hf oldPath newPath w a w' h := by
    cases hf
    obtain ⟨p, -, h⟩ := bind_eq_ok.mp h
    obtain ⟨q, -, h⟩ := bind_eq_ok.mp h
    obtain ⟨⟨status, fs⟩, hcall, h⟩ := bind_eq_ok.mp h
    cases h
    have hrun : (FsCall.rename w.context.pid p q).run w.context.fs = .ok (a, fs) := hcall
    exact fsQuiet_of_run rfl hrun rfl

section Wired

variable {ops : RuntimeSyscallOps (FsContext ω)} (hops : WiredToFs ops)

include hops

theorem WiredToFs.keep : ops.Keep FsQuiet :=
  { hops.others.mono fun _ _ h ↦ SameFs.fsQuiet h with
    fsMkdir := by
      intro f hf path mode w a w' h
      rw [hops.fsMkdir] at hf
      cases hf
      obtain ⟨p, -, h⟩ := bind_eq_ok.mp h
      obtain ⟨⟨status, fs⟩, hcall, h⟩ := bind_eq_ok.mp h
      cases h
      have hrun : (FsCall.mkdir w.context.pid p mode).run w.context.fs = .ok (a, fs) := hcall
      exact fsQuiet_of_run rfl hrun rfl
    fileOps := by
      intro file hfile
      rw [hops.fileOps] at hfile
      cases hfile
      exact fsFileOps_keep }

/-- **An open** fails, or fills a slot that was not in use. -/
theorem WiredToFs.creates_file {args : RuntimeSyscallArgs} {w w' : SyscallWorld (FsContext ω)}
    {object : Option UInt32} (hs : Sound w.context.fs) (h : Creates ops args .file w object w') :
    Sound w'.context.fs ∧ ((object = none ∧ SameSlots w.context.fs w'.context.fs) ∨
      ∃ s, object = some (slotNumber s) ∧ (w.context.fs.openFiles s).used = 0 ∧
        (w'.context.fs.openFiles s).used ≠ 0 ∧
        (w'.context.fs.openFiles s).ownerPid = w.context.pid ∧
        ∀ t, t ≠ s → w'.context.fs.openFiles t = w.context.fs.openFiles t) := by
  obtain ⟨f, hcreate, hf⟩ := h
  rw [RuntimeSyscallOps.create, hops.fileOps] at hcreate
  obtain rfl := Option.some_inj.mp hcreate
  obtain ⟨⟨status, stored⟩, hcall, rfl⟩ := Callback.answers_eq_ok.mp hf
  obtain ⟨path, -, hcall⟩ := bind_eq_ok.mp hcall
  obtain ⟨⟨status', fs, stored'⟩, hopen, hcall⟩ := bind_eq_ok.mp hcall
  simp only [Except.ok.injEq, Prod.mk.injEq] at hcall
  obtain ⟨⟨rfl, rfl⟩, rfl⟩ := hcall
  have hrun : (FsCall.open w.context.pid path args.arg1 (some 0)).run w.context.fs
      = .ok (status', fs) := by
    rw [FsCall.run, hopen, ok_bind]
  refine ⟨FsCall.sound_of_run hs hrun, ?_⟩
  change (_ ∧ SameSlots w.context.fs fs) ∨ _
  rcases runtimeFsOpen_spec hs w.context.pid path args.arg1 (some 0) with
    ⟨_, status, hneg, heq⟩ | ⟨node, fs₁, o, ht, ho, heq⟩
  · obtain ⟨rfl, rfl, rfl⟩ : status' = status ∧ fs = w.context.fs ∧ stored' = some 0 := by
      simpa using hopen.symm.trans heq
    exact Or.inl ⟨if_pos hneg, .refl _⟩
  · obtain ⟨rfl, rfl, rfl⟩ : status' = _ ∧ fs = _ ∧ stored' = _ := by
      simpa using hopen.symm.trans heq
    -- the slots are those before a node was created
    have hslots : fs₁.openFiles = w.context.fs.openFiles := by
      cases ht <;> rfl
    rcases fsOpenNode_spec fs₁ w.context.pid node args.arg1 with
      ⟨_, hneg, _, _, hnode⟩ | ⟨_, hneg, _, _, _, hnode⟩ | ⟨s, _, _, hfree, hnode⟩
    · rw [hnode]
      exact Or.inl ⟨if_pos hneg, .of_eq hslots⟩
    · rw [hnode]
      exact Or.inl ⟨if_pos hneg, .of_eq (by rw [fsOpenTruncate_openFiles, hslots])⟩
    · rw [hnode]
      refine Or.inr ⟨s, rfl, hslots ▸ hfree, ?_, ?_, fun t hts ↦ ?_⟩
      · change (((fsOpenTruncate fs₁ node args.arg1).setOpen s _).openFiles s).used ≠ 0
        rw [RuntimeFs.setOpen_openFiles_self]
        exact (by decide : (1 : UInt32) ≠ 0)
      · change (((fsOpenTruncate fs₁ node args.arg1).setOpen s _).openFiles s).ownerPid = _
        rw [RuntimeFs.setOpen_openFiles_self]
        rfl
      · change ((fsOpenTruncate fs₁ node args.arg1).setOpen s _).openFiles t = _
        rw [RuntimeFs.setOpen_openFiles_of_ne hts, fsOpenTruncate_openFiles, hslots]

/-- **A close** clears a slot in use. -/
theorem WiredToFs.destroys_file {object : UInt32} {w w' : SyscallWorld (FsContext ω)}
    {destroyed : Bool} {s : Fin 8} (hobject : object = slotNumber s)
    (hused : (w.context.fs.openFiles s).used ≠ 0) (h : Destroys ops .file object w destroyed w') :
    destroyed = true ∧ w'.context.fs = w.context.fs.setOpen s RuntimeFsOpenFile.zero := by
  obtain ⟨f, hdestroy, hf⟩ := h
  rw [RuntimeSyscallOps.destroy, hops.fileOps] at hdestroy
  obtain rfl := Option.some_inj.mp hdestroy
  obtain ⟨status, hcall, rfl⟩ := Callback.answers_eq_ok.mp hf
  rw [hobject, slotNumber] at hcall
  simp only [runtimeFsClose, fsOpenFileLookup_ofNat hused, Except.ok.injEq, Prod.mk.injEq] at hcall
  obtain ⟨rfl, rfl⟩ := hcall
  exact ⟨rfl, rfl⟩

theorem WiredToFs.honest : Honest ops (fun w ↦ Sound w.context.fs) .file
    (fun w ↦ OpenSlot w.context.fs) where
  others := hops.keep.mono fun _ _ hquiet hs ↦ ⟨(hquiet hs).1, (hquiet hs).2.openSlot⟩
  creates {args w object w'} hs h := by
    obtain ⟨hs', ⟨⟨⟩, -⟩ | ⟨s, hobject, hfree, hused, -, hothers⟩⟩ := hops.creates_file hs h
    cases hobject
    refine ⟨hs', ?_, fun o ↦ ?_⟩
    · rintro ⟨t, ht, hused'⟩
      obtain rfl := slotNumber_injective ht
      exact hused' hfree
    · constructor
      · rintro ⟨t, rfl, ht⟩
        by_cases hts : t = s
        · exact Or.inr (congrArg slotNumber hts)
        · rw [hothers t hts] at ht
          exact Or.inl ⟨t, rfl, ht⟩
      · rintro (⟨t, rfl, ht⟩ | rfl)
        · refine ⟨t, rfl, ?_⟩
          rw [hothers t (by rintro rfl; exact ht hfree)]
          exact ht
        · exact ⟨s, rfl, hused⟩
  fails hs h := by
    obtain ⟨hs', ⟨-, hsame⟩ | ⟨s, ⟨⟩, -⟩⟩ := hops.creates_file hs h
    exact ⟨hs', hsame.openSlot⟩
  destroys {object w destroyed w'} hs hlive h := by
    obtain ⟨s, hobject, hused⟩ := hlive
    obtain ⟨htrue, hfs⟩ := hops.destroys_file hobject hused h
    rw [hfs]
    refine ⟨hs.close s, htrue, fun o ↦ ?_⟩
    constructor
    · rintro ⟨t, rfl, ht⟩
      have hts : t ≠ s := by
        rintro rfl
        rw [RuntimeFs.setOpen_openFiles_self] at ht
        exact ht rfl
      rw [RuntimeFs.setOpen_openFiles_of_ne hts] at ht
      exact ⟨⟨t, rfl, ht⟩, fun heq ↦ hts (slotNumber_injective (heq.trans hobject))⟩
    · rintro ⟨⟨t, rfl, ht⟩, hne⟩
      refine ⟨t, rfl, ?_⟩
      rw [RuntimeFs.setOpen_openFiles_of_ne (by rintro rfl; exact hne hobject.symm)]
      exact ht
  destroyable _ _ := by
    rw [RuntimeSyscallOps.destroy, hops.fileOps]
    exact Option.some_ne_none _
  otherCreates hkind hs h := by
    obtain ⟨hs', hsame⟩ := (hops.otherCreates hkind h).fsQuiet hs
    exact ⟨hs', hsame.openSlot⟩
  otherDestroys hkind hs h := by
    obtain ⟨hs', hsame⟩ := (hops.otherDestroys hkind h).fsQuiet hs
    exact ⟨hs', hsame.openSlot⟩

end Wired

/-! ## Owners -/

/-- The slots in use before and after have one owner. -/
def SameOwners (fs fs' : RuntimeFs) : Prop :=
  ∀ s, (fs.openFiles s).used ≠ 0 → (fs'.openFiles s).used ≠ 0 →
    (fs'.openFiles s).ownerPid = (fs.openFiles s).ownerPid

theorem SameSlots.sameOwners {fs fs' : RuntimeFs} (h : SameSlots fs fs') : SameOwners fs fs' :=
  fun s _ _ ↦ (h s).2.2.1

/-- The handle that a call copies. -/
def handleSource (table : RuntimeSyscallTable) (args : RuntimeSyscallArgs)
    (number : RuntimeSyscallNumber) : Option (Fin 16) :=
  if number = .handleDup then runtimeSyscallLookupHandle table args.arg0 else none

/-- Where a handle to a file comes from: it was there before the call, it is a copy of the source,
or it is the first handle to a slot that was opened. -/
inductive FileOrigin (source : Option (Fin 16)) (table table' : RuntimeSyscallTable)
    (fs' : RuntimeFs) (i : Fin 16) (object : UInt32) : Prop
  | kept : table.Refers .file i object → table'.handles i = table.handles i →
      FileOrigin source table table' fs' i object
  | copied {j : Fin 16} : source = some j → table.Free i → table.Refers .file j object →
      (table'.handles i).ownerPid = (table.handles j).ownerPid →
      FileOrigin source table table' fs' i object
  | opened {s : Fin 8} : source = none → table.Free i → (∀ j, ¬ table.Refers .file j object) →
      object = slotNumber s → (fs'.openFiles s).ownerPid = (table'.handles i).ownerPid →
      FileOrigin source table table' fs' i object

section Origin

variable {ops : RuntimeSyscallOps (FsContext ω)} {table table' : RuntimeSyscallTable}
  {w w' : SyscallWorld (FsContext ω)} {number : RuntimeSyscallNumber} {args : RuntimeSyscallArgs}
  {fs' : RuntimeFs} {i j : Fin 16} {object : UInt32}

theorem fileOrigin_set {source : Option (Fin 16)} {entry : RuntimeHandleInfo}
    (hself : entry.type = handleTypeFile → entry.object = object →
      FileOrigin source table (table.set j entry) fs' j object)
    (h : (table.set j entry).Refers .file i object) :
    FileOrigin source table (table.set j entry) fs' i object := by
  by_cases hij : i = j
  · subst hij
    obtain ⟨htype, hobject⟩ := RuntimeSyscallTable.refers_set_self.mp h
    exact hself htype hobject
  · exact .kept ((RuntimeSyscallTable.refers_set_of_ne hij).mp h)
      (RuntimeSyscallTable.set_handles_of_ne hij)

theorem refers_clear (h : (table.clear j).Refers .file i object) :
    table.Refers .file i object ∧ (table.clear j).handles i = table.handles i := by
  have hij : i ≠ j := by
    rintro rfl
    exact not_refers_clear h
  exact ⟨(RuntimeSyscallTable.refers_set_of_ne hij).mp h, RuntimeSyscallTable.set_handles_of_ne hij⟩

/-- Closing a handle leaves the other handles as they are. -/
theorem CloseMove.refers (hmove : CloseMove ops table w table' w')
    (h : table'.Refers .file i object) :
    table.Refers .file i object ∧ table'.handles i = table.handles i := by
  cases hmove with
  | keeps | refuses => exact ⟨h, rfl⟩
  | drops | destroys | forgets => exact refers_clear h

variable (hops : WiredToFs ops)

include hops

theorem WiredToFs.sameOwners_of_destroys {kind : ObjectKind} {destroyed : Bool}
    (hlive : kind = .file → OpenSlot w.context.fs object)
    (h : Destroys ops kind object w destroyed w') : SameOwners w.context.fs w'.context.fs := by
  by_cases hkind : kind = .file
  · subst hkind
    obtain ⟨s, hobject, hused⟩ := hlive rfl
    obtain ⟨-, hfs⟩ := hops.destroys_file hobject hused h
    rw [hfs]
    intro t _ hafter
    have hts : t ≠ s := by
      rintro rfl
      rw [RuntimeFs.setOpen_openFiles_self] at hafter
      exact hafter rfl
    rw [RuntimeFs.setOpen_openFiles_of_ne hts]
  · rw [show w'.context.fs = w.context.fs from hops.otherDestroys hkind h]
    exact (SameSlots.refl _).sameOwners

/-- An attempt to make an object leaves the slots in use as they are. -/
theorem WiredToFs.sameUse_of_creates {kind : ObjectKind} {made : Option UInt32}
    (hs : Sound w.context.fs) (h : Creates ops args kind w made w') (s : Fin 8)
    (hused : (w.context.fs.openFiles s).used ≠ 0) :
    (w.context.fs.openFiles s).SameUse (w'.context.fs.openFiles s) := by
  by_cases hkind : kind = .file
  · subst hkind
    obtain ⟨-, ⟨-, hsame⟩ | ⟨t, -, hfree, -, -, hothers⟩⟩ := hops.creates_file hs h
    · exact hsame s
    · rw [hothers s (by rintro rfl; exact hused hfree)]
      exact ⟨rfl, rfl, rfl, rfl⟩
  · rw [show w'.context.fs = w.context.fs from hops.otherCreates hkind h]
    exact ⟨rfl, rfl, rfl, rfl⟩

theorem WiredToFs.sameOwners_of_creates {kind : ObjectKind} {made : Option UInt32}
    (hs : Sound w.context.fs) (h : Creates ops args kind w made w') :
    SameOwners w.context.fs w'.context.fs :=
  fun s hused _ ↦ (hops.sameUse_of_creates hs h s hused).2.2.1

/-- **The closing of a handle** leaves the owners as they are. -/
theorem CloseMove.sameOwners (h : HandlesBalanced .file (OpenSlot w.context.fs) table)
    (hmove : CloseMove ops table w table' w') : SameOwners w.context.fs w'.context.fs := by
  -- the file that a handle refers to is open
  have hlive : ∀ {kind i}, (table.handles i).type = ObjectKind.type kind → kind = .file →
      OpenSlot w.context.fs (table.handles i).object := by
    rintro kind i htype rfl
    exact (h.live_iff _).mpr ⟨i, htype, rfl⟩
  cases hmove with
  | keeps | drops | forgets => exact (SameSlots.refl _).sameOwners
  | destroys htype _ hdestroys => exact hops.sameOwners_of_destroys (hlive htype) hdestroys
  | refuses htype hdestroys => exact hops.sameOwners_of_destroys (hlive htype) hdestroys

/-- **A call** leaves the owners as they are, and every handle to a file after it has an origin. -/
theorem SyscallMove.fileOrigin (hs : Sound w.context.fs)
    (h : HandlesBalanced .file (OpenSlot w.context.fs) table)
    (hmove : SyscallMove ops FsQuiet number args table w table' w') :
    SameOwners w.context.fs w'.context.fs ∧ ∀ i object, table'.Refers .file i object →
      FileOrigin (handleSource table args number) table table' w'.context.fs i object := by
  cases hmove with
  | quiet hR => exact ⟨(hR hs).2.sameOwners, fun _ _ hi ↦ .kept hi rfl⟩
  | closes _ hclose =>
    refine ⟨hclose.sameOwners hops h, fun i object hi ↦ ?_⟩
    obtain ⟨hi', hentry⟩ := hclose.refers hi
    exact .kept hi' hentry
  | grants _ hR _ =>
    refine ⟨(hR hs).2.sameOwners, fun _ _ ↦ fileOrigin_set fun htype ↦ ?_⟩
    exact absurd htype (Ne.symm (ObjectKind.type_ne_process .file))
  | @dups i j hnumber hlookup _ hfree =>
    refine ⟨(SameSlots.refl _).sameOwners, fun _ _ ↦ fileOrigin_set fun htype hobject ↦ ?_⟩
    have hsource : handleSource table args number = some i := by
      rw [handleSource, if_pos hnumber, hlookup]
    refine .copied hsource hfree ⟨htype, hobject⟩ ?_
    rw [RuntimeSyscallTable.set_handles_self]
  | fails hfails => exact ⟨hops.sameOwners_of_creates hs hfails, fun _ _ hi ↦ .kept hi rfl⟩
  | returns hfails _ =>
    refine ⟨hops.sameOwners_of_creates hs hfails, fun i object hi ↦ ?_⟩
    obtain ⟨hi', hentry⟩ := refers_clear hi
    exact .kept hi' hentry
  | @creates kind made i _ hnumber hcreates hfree =>
    refine ⟨hops.sameOwners_of_creates hs hcreates, fun _ o ↦ fileOrigin_set fun htype hobject ↦ ?_⟩
    obtain rfl : kind = .file := ObjectKind.type_injective htype
    obtain rfl : made = o := hobject
    obtain ⟨-, ⟨⟨⟩, -⟩ | ⟨s, hslot, hunused, -, howner, -⟩⟩ := hops.creates_file hs hcreates
    refine .opened (if_neg hnumber) hfree (fun j hj ↦ ?_) (Option.some_inj.mp hslot) ?_
    · obtain ⟨t, ht, hused⟩ := (h.live_iff _).mpr ⟨j, hj⟩
      obtain rfl := slotNumber_injective ((Option.some_inj.mp hslot).symm.trans ht)
      exact hused hunused
    · rw [RuntimeSyscallTable.set_handles_self, howner]
      change _ = ops.currentPid w
      rw [RuntimeSyscallOps.currentPid, hops.processCurrentPid]
      rfl
  | leaks _ hcreates _ | abandons _ hcreates _ _ =>
    exact ⟨hops.sameOwners_of_creates hs hcreates, fun _ _ hi ↦ .kept hi rfl⟩
  | @unwinds kind made w₁ _ _ hcreates hdestroys _ =>
    refine ⟨fun s hused hused' ↦ ?_, fun _ _ hi ↦ .kept hi rfl⟩
    have huse := hops.sameUse_of_creates hs hcreates s hused
    have hmade : kind = .file → OpenSlot w₁.context.fs made := by
      rintro rfl
      exact ((hops.honest.creates hs hcreates).2.2 made).mpr (Or.inr rfl)
    rw [← huse.2.2.1]
    exact hops.sameOwners_of_destroys hmade hdestroys s (by rw [huse.1]; exact hused) hused'

end Origin

/-! ## Runs -/

/-- The handle table and the file system, the number of calls made so far, and for each handle the
call that it derives from. -/
structure FileHandleState where
  table : RuntimeSyscallTable
  fs : RuntimeFs
  calls : ℕ
  derivesFrom : Fin 16 → ℕ

/-- The call that a handle made by this call derives from: this call, or for `HANDLE_DUP` the call
that the copied handle derives from. -/
def FileHandleState.origin (s : FileHandleState) (source : Option (Fin 16)) : ℕ :=
  (source.map s.derivesFrom).getD s.calls

/-- The handles and their origins after a call. -/
def FileHandleState.called (s : FileHandleState) (source : Option (Fin 16))
    (table : RuntimeSyscallTable) (fs : RuntimeFs) : FileHandleState where
  table := table
  fs := fs
  calls := s.calls + 1
  derivesFrom := fun i ↦
    if (s.table.handles i).type = handleTypeNone then s.origin source else s.derivesFrom i

/-- One step: a call, or the release of the handles of a process. The process that runs, the memory
and the rest of the context are any. -/
inductive FileHandleStep (ops : RuntimeSyscallOps (FsContext ω)) (s : FileHandleState) :
    FileHandleState → Prop
  | call {syscallNumber : UInt32} {args : RuntimeSyscallArgs} {w w' : SyscallWorld (FsContext ω)}
      {status : Int} {table' : RuntimeSyscallTable} : w.context.fs = s.fs →
      runtimeSyscallDispatch syscallNumber args ops s.table w = .ok (status, table', w') →
      FileHandleStep ops s (s.called (runtimeSyscallNumbers[syscallNumber.toNat]?.bind
        (handleSource s.table args)) table' w'.context.fs)
  | release {ownerPid : UInt32} {w w' : SyscallWorld (FsContext ω)} {released : ℕ}
      {table' : RuntimeSyscallTable} : w.context.fs = s.fs →
      runtimeSyscallReleaseOwnerHandles s.table ownerPid ops w = .ok (released, table', w') →
      FileHandleStep ops s { s with table := table', fs := w'.context.fs }

/-- No handle, and no slot in use. -/
def FileHandleStart (s : FileHandleState) : Prop :=
  s.table = runtimeSyscallTableInit ∧ Sound s.fs ∧ ∀ t, (s.fs.openFiles t).used = 0

/-- The handles to files and the slots, without the origins. -/
structure FilesMatch (table : RuntimeSyscallTable) (fs : RuntimeFs) : Prop where
  sound : Sound fs
  balanced : HandlesBalanced .file (OpenSlot fs) table
  owner : ∀ {i t}, table.Refers .file i (slotNumber t) →
    (fs.openFiles t).ownerPid = (table.handles i).ownerPid

/-- Handles to one slot derive from one call. -/
def SameOrigin (table : RuntimeSyscallTable) (derivesFrom : Fin 16 → ℕ) : Prop :=
  ∀ i j object, table.Refers .file i object → table.Refers .file j object →
    derivesFrom i = derivesFrom j

section Runs

variable {ops : RuntimeSyscallOps (FsContext ω)} {table table' : RuntimeSyscallTable}
  {w w' : SyscallWorld (FsContext ω)} {s s' : FileHandleState}

/-- Owners agree after a call: each handle has an origin, and its slot was opened for its owner. -/
theorem FilesMatch.of_origin {fs fs' : RuntimeFs} (source : Option (Fin 16))
    (h : FilesMatch table fs) (hsound : Sound fs')
    (hbalanced : HandlesBalanced .file (OpenSlot fs') table') (howners : SameOwners fs fs')
    (horigin : ∀ i object, table'.Refers .file i object →
      FileOrigin source table table' fs' i object) : FilesMatch table' fs' := by
  refine ⟨hsound, hbalanced, fun {i t} hi ↦ ?_⟩
  have hused' : (fs'.openFiles t).used ≠ 0 := by
    obtain ⟨t', ht, hused⟩ := (hbalanced.live_iff _).mpr ⟨i, hi⟩
    rwa [slotNumber_injective ht]
  -- a slot that a handle referred to before the call keeps its owner
  have hold : ∀ {j}, table.Refers .file j (slotNumber t) →
      (fs'.openFiles t).ownerPid = (table.handles j).ownerPid := by
    intro j hj
    obtain ⟨t', ht, hused⟩ := (h.balanced.live_iff _).mpr ⟨j, hj⟩
    obtain rfl := slotNumber_injective ht
    rw [howners t hused hused', h.owner hj]
  cases horigin i _ hi with
  | kept hi' hentry => rw [hentry, hold hi']
  | copied _ _ hj howner => rw [howner, hold hj]
  | opened _ _ _ ht howner => rw [slotNumber_injective ht, howner]

theorem SameOrigin.called {source : Option (Fin 16)} {fs' : RuntimeFs}
    (h : SameOrigin s.table s.derivesFrom)
    (horigin : ∀ i object, table'.Refers .file i object →
      FileOrigin source s.table table' fs' i object) :
    SameOrigin table' (s.called source table' fs').derivesFrom := by
  have hkept : ∀ {i object}, s.table.Refers .file i object →
      (s.called source table' fs').derivesFrom i = s.derivesFrom i :=
    fun hi ↦ if_neg fun hfree ↦ RuntimeSyscallTable.Free.not_refers hfree hi
  have hnew : ∀ {i}, s.table.Free i →
      (s.called source table' fs').derivesFrom i = s.origin source :=
    fun hfree ↦ if_pos hfree
  -- a handle whose slot was referred to before derives from the same call as the old handles
  have hold : ∀ {i j object}, table'.Refers .file i object → s.table.Refers .file j object →
      (s.called source table' fs').derivesFrom i = s.derivesFrom j := by
    intro i j object hi hj
    cases horigin i object hi with
    | kept hi' => rw [hkept hi', h i j object hi' hj]
    | @copied a hsource hfree ha =>
      rw [hnew hfree, FileHandleState.origin, hsource, ← h a j object ha hj]
      rfl
    | opened _ _ hnone => exact absurd hj (hnone j)
  intro i j object hi hj
  cases horigin j object hj with
  | kept hj' => rw [hold hi hj', hkept hj']
  | @copied a hsource hfree ha => rw [hold hi ha, hold hj ha]
  | opened hsource hfree hnone =>
    cases horigin i object hi with
    | kept hi' => exact absurd hi' (hnone i)
    | copied hsource' => cases hsource.symm.trans hsource'
    | opened _ hfree' => rw [hnew hfree, hnew hfree']

variable (hops : WiredToFs ops)

include hops

theorem CloseMove.filesMatch (h : FilesMatch table w.context.fs)
    (hmove : CloseMove ops table w table' w') : FilesMatch table' w'.context.fs := by
  obtain ⟨hsound, hbalanced⟩ := hmove.balanced hops.honest h.sound h.balanced
  refine h.of_origin none hsound hbalanced (hmove.sameOwners hops h.balanced) ?_
  intro i object hi
  obtain ⟨hi', hentry⟩ := hmove.refers hi
  exact .kept hi' hentry

/-- **A step keeps handles and slots in step.** -/
theorem FileHandleStep.inStep (h : FilesMatch s.table s.fs ∧ SameOrigin s.table s.derivesFrom)
    (hstep : FileHandleStep ops s s') :
    FilesMatch s'.table s'.fs ∧ SameOrigin s'.table s'.derivesFrom := by
  obtain ⟨hmatch, horigins⟩ := h
  cases hstep with
  | @call syscallNumber args w w' _ table' hfs hcall =>
    rw [← hfs] at hmatch
    obtain ⟨rfl, rfl⟩ | ⟨number, hnumber, hmove⟩ := dispatch_move hops.keep hcall
    · refine ⟨hmatch, horigins.called fun i object hi ↦ ?_⟩
      exact .kept hi rfl
    · obtain ⟨howners, horigin⟩ := hmove.fileOrigin hops hmatch.sound hmatch.balanced
      obtain ⟨hsound, hbalanced⟩ := (hmove.mono fun _ _ hquiet hs ↦
        ⟨(hquiet hs).1, (hquiet hs).2.openSlot⟩).balanced hops.honest hmatch.sound hmatch.balanced
        (by rintro (⟨-, hkind⟩ | ⟨-, hkind⟩) <;> cases hkind)
      rw [hnumber]
      exact ⟨hmatch.of_origin _ hsound hbalanced howners horigin, horigins.called horigin⟩
  | @release ownerPid w w' _ table' hfs hcall =>
    rw [← hfs] at hmatch
    refine releaseOwnerHandles_invariant
      (J := fun table w ↦ FilesMatch table w.context.fs ∧ SameOrigin table s.derivesFrom)
      (fun hJ hmove ↦ ⟨hmove.filesMatch hops hJ.1, fun i j object hi hj ↦ ?_⟩)
      ⟨hmatch, horigins⟩ hcall
    exact hJ.2 i j object (hmove.refers hi).1 (hmove.refers hj).1

theorem reachable_inStep (h : Reachable FileHandleStart (FileHandleStep ops) s) :
    FilesMatch s.table s.fs ∧ SameOrigin s.table s.derivesFrom := by
  refine Reachable.invariant (P := fun s ↦ FilesMatch s.table s.fs ∧
    SameOrigin s.table s.derivesFrom) (fun s hs ↦ ?_) (fun s s' hs hstep ↦ hstep.inStep hops hs) h
  obtain ⟨htable, hsound, hunused⟩ := hs
  rw [htable]
  have hnone : ∀ i object, ¬ runtimeSyscallTableInit.Refers .file i object := by
    intro i object
    exact RuntimeSyscallTable.Free.not_refers rfl
  refine ⟨⟨hsound, balanced_init .file ?_, fun hi ↦ absurd hi (hnone _ _)⟩, fun i _ o hi ↦ ?_⟩
  · rintro object ⟨t, -, hused⟩
    exact hused (hunused t)
  · exact absurd hi (hnone i o)

/-- **Handles and slots are in step**: a handle to a file names a used slot of its own process, a
used slot has a handle, two handles to one slot derive from one `FILE_OPEN`, and in the next step a
slot is closed exactly when no handle to it is left. -/
theorem files_in_step (h : Reachable FileHandleStart (FileHandleStep ops) s) :
    (∀ i, (s.table.handles i).type = handleTypeFile →
      ∃ t, (s.table.handles i).object = slotNumber t ∧ (s.fs.openFiles t).used ≠ 0 ∧
        (s.fs.openFiles t).ownerPid = (s.table.handles i).ownerPid) ∧
    (∀ t, (s.fs.openFiles t).used ≠ 0 → ∃ i, s.table.Refers .file i (slotNumber t)) ∧
    (∀ i j object, s.table.Refers .file i object → s.table.Refers .file j object →
      s.derivesFrom i = s.derivesFrom j) ∧
    (∀ s', FileHandleStep ops s s' → ∀ t, (s.fs.openFiles t).used ≠ 0 →
      ((s'.fs.openFiles t).used = 0 ↔ ∀ i, ¬ s'.table.Refers .file i (slotNumber t))) := by
  have hused : ∀ {s}, Reachable FileHandleStart (FileHandleStep ops) s → ∀ t,
      (s.fs.openFiles t).used ≠ 0 ↔ ∃ i, s.table.Refers .file i (slotNumber t) := by
    intro s h t
    rw [← (reachable_inStep hops h).1.balanced.live_iff]
    constructor
    · exact fun hused ↦ ⟨t, rfl, hused⟩
    · rintro ⟨t', ht, hused⟩
      rwa [slotNumber_injective ht]
  obtain ⟨hmatch, horigins⟩ := reachable_inStep hops h
  refine ⟨fun i htype ↦ ?_, fun t ↦ (hused h t).mp, horigins, fun s' hstep t _ ↦ ?_⟩
  · obtain ⟨t, ht, hopen⟩ := (hmatch.balanced.live_iff _).mpr ⟨i, htype, rfl⟩
    exact ⟨t, ht, hopen, hmatch.owner ⟨htype, ht⟩⟩
  · rw [← not_exists, ← hused (h.step hstep) t, not_not]

end Runs

/-! ## A run -/

/-- Callbacks for files alone. -/
def fsOps : RuntimeSyscallOps (FsContext Unit) where
  processCurrentPid := some (·.context.pid)
  fsMkdir := some fsMkdirCallback
  fileOps := some fsFileOps

theorem wiredToFs_fsOps : WiredToFs fsOps where
  processCurrentPid := rfl
  fsMkdir := rfl
  fileOps := rfl
  others := by
    constructor
    case refl => exact fun _ ↦ rfl
    case store => exact fun _ _ ↦ rfl
    all_goals
      intro f hf
      cases hf
  otherCreates {_ kind _ _ _} hkind h := by
    obtain ⟨f, hcreate, -⟩ := h
    cases kind with
    | file => exact absurd rfl hkind
    | event | mailbox | service => cases hcreate
  otherDestroys {kind _ _ _ _} hkind h := by
    obtain ⟨f, hdestroy, -⟩ := h
    cases kind with
    | file => exact absurd rfl hkind
    | event | mailbox | service => cases hdestroy

/-- Process 5 runs, with the string `/a` in memory at address 16. -/
def fileWorld (fs : RuntimeFs) : SyscallWorld (FsContext Unit) where
  memory := writeBytes (fun _ ↦ 0) 16 [47, 97]
  context := ⟨fs, 5, ()⟩

/-- Its calls one after the other. -/
def runFileCalls : List (UInt32 × RuntimeSyscallArgs) → FileHandleState → Option FileHandleState
  | [], s => some s
  | (syscallNumber, args) :: rest, s =>
    match runtimeSyscallDispatch syscallNumber args fsOps s.table (fileWorld s.fs) with
    | .error _ => none
    | .ok (_, table, w) =>
      runFileCalls rest (s.called (runtimeSyscallNumbers[syscallNumber.toNat]?.bind
        (handleSource s.table args)) table w.context.fs)

theorem reachable_runFileCalls {calls : List (UInt32 × RuntimeSyscallArgs)} {s s' : FileHandleState}
    (h : Reachable FileHandleStart (FileHandleStep fsOps) s)
    (hrun : runFileCalls calls s = some s') :
    Reachable FileHandleStart (FileHandleStep fsOps) s' := by
  induction calls generalizing s with
  | nil =>
    cases hrun
    exact h
  | cons call rest ih =>
    obtain ⟨syscallNumber, args⟩ := call
    rw [runFileCalls] at hrun
    split at hrun
    · cases hrun
    · next hcall => exact ih (.step h (.call rfl hcall)) hrun

/-- A file is opened, its handle is copied, and the first handle is closed: the slot is still open.
-/
theorem files_in_step_dup : ∃ s, runFileCalls [(7, ⟨16, openWrite ||| openCreate, 0, 0⟩),
      (13, ⟨1, 0, 0, 0⟩), (3, ⟨1, 0, 0, 0⟩)] ⟨runtimeSyscallTableInit, runtimeFsInit, 0, fun _ ↦ 0⟩
        = some s ∧
    (s.fs.openFiles 0).used = 1 ∧ ∃ i, s.table.Refers .file i (slotNumber 0) := by
  have hrun : ∃ s, runFileCalls [(7, ⟨16, openWrite ||| openCreate, 0, 0⟩),
      (13, ⟨1, 0, 0, 0⟩), (3, ⟨1, 0, 0, 0⟩)] ⟨runtimeSyscallTableInit, runtimeFsInit, 0, fun _ ↦ 0⟩
        = some s ∧ (s.fs.openFiles 0).used = 1 := by
    refine ⟨(runFileCalls [(7, ⟨16, openWrite ||| openCreate, 0, 0⟩), (13, ⟨1, 0, 0, 0⟩),
      (3, ⟨1, 0, 0, 0⟩)] ⟨runtimeSyscallTableInit, runtimeFsInit, 0, fun _ ↦ 0⟩).get
      (by decide +kernel), by rw [Option.some_get], ?_⟩
    decide +kernel
  obtain ⟨s, hrun, hused⟩ := hrun
  have hstart : FileHandleStart ⟨runtimeSyscallTableInit, runtimeFsInit, 0, fun _ ↦ 0⟩ :=
    ⟨rfl, sound_init, fun _ ↦ rfl⟩
  refine ⟨s, hrun, hused, ?_⟩
  have h := files_in_step wiredToFs_fsOps (reachable_runFileCalls (.start hstart) hrun)
  refine h.2.1 0 ?_
  rw [hused]
  decide

end TensorOS
