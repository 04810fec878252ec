import TensorOS.Fs.Preserve
import TensorOS.Fs.ValidateSpec
import TensorOS.Lib.Transition

/-!
# Runs of the file system

The calls of the interface as one type, and the transition system they generate from
`runtime_fs_init`. The invariant of a run is `Sound`. What a call that returns can do to the nodes
and the slots is the relation `FsMove` (`FsCall.move`). Runs that spare the root also keep
`RootIntact`, and then the validator accepts every state and the used nodes form a tree.
-/

namespace TensorOS

/-! ## Calls -/

/-- A call of the file-system interface with its arguments. -/
inductive FsCall
  | mkdir (pid : UInt32) (path : Option CString) (mode : UInt32)
  | open (pid : UInt32) (path : Option CString) (flags : UInt32) (fileObject : Option UInt32)
  | read (fileObject : UInt32) (buffer : Option (ℕ → UInt8)) (size : UInt32)
  | write (fileObject : UInt32) (buffer : Option (ℕ → UInt8)) (size : UInt32)
  | close (fileObject : UInt32)
  | stat (fileObject : UInt32) (stat : Option RuntimeFileStat)
  | readdir (fileObject : UInt32) (entry : Option RuntimeDirEntry)
  | seek (fileObject : UInt32) (offset : Int32) (whence : UInt32)
  | remove (pid : UInt32) (path : Option CString)
  | rename (pid : UInt32) (oldPath newPath : Option CString)

namespace FsCall

/-- The status of a call and the file system after it. -/
def run (fs : RuntimeFs) : FsCall → Except Fault (Int × RuntimeFs)
  | mkdir pid path mode => runtimeFsMkdir fs pid path mode
  | .open pid path flags fileObject => do
    let (status, fs', _) ← runtimeFsOpen fs pid path flags fileObject
    .ok (status, fs')
  | read fileObject buffer size => do
    let (status, fs', _) ← runtimeFsRead fs fileObject buffer size
    .ok (status, fs')
  | write fileObject buffer size => runtimeFsWrite fs fileObject buffer size
  | close fileObject => .ok (runtimeFsClose fs fileObject)
  | stat fileObject st => do
    let (status, fs', _) ← runtimeFsStat fs fileObject st
    .ok (status, fs')
  | readdir fileObject entry => do
    let (status, fs', _) ← runtimeFsReaddir fs fileObject entry
    .ok (status, fs')
  | seek fileObject offset whence => runtimeFsSeek fs fileObject offset whence
  | remove pid path => runtimeFsRemove fs pid path
  | rename pid oldPath newPath => runtimeFsRename fs pid oldPath newPath

/-- The sum of the offset and the size of a write fits 32 bits. -/
def Fits (fs : RuntimeFs) : FsCall → Prop
  | write fileObject _ size => ∀ s, fsOpenFileLookup fs fileObject = some s →
      (fs.openFiles s).offset.toNat + size.toNat < 2 ^ 32
  | _ => True

/-- The target of a remove and the source of a rename are not node 0. -/
def SparesRoot (fs : RuntimeFs) : FsCall → Prop
  | remove _ path => fsResolvePath fs path ≠ .ok (some 0)
  | rename _ oldPath _ => fsResolvePath fs oldPath ≠ .ok (some 0)
  | _ => True

end FsCall

/-- One call that returns. -/
def FsStep (fs fs' : RuntimeFs) : Prop :=
  ∃ (call : FsCall) (status : Int), call.Fits fs ∧ call.run fs = .ok (status, fs')

/-- One call that returns and does not aim at the root. -/
def RootSafeStep (fs fs' : RuntimeFs) : Prop :=
  ∃ (call : FsCall) (status : Int),
    call.Fits fs ∧ call.SparesRoot fs ∧ call.run fs = .ok (status, fs')

/-- The states some sequence of calls leads to. -/
def FsReachable : RuntimeFs → Prop := Reachable (· = runtimeFsInit) FsStep

/-- The states some sequence of calls that return leads to, with writes of any size. -/
def ApiReachable : RuntimeFs → Prop := Reachable (· = runtimeFsInit) fun fs fs' ↦
  ∃ (call : FsCall) (status : Int), call.run fs = .ok (status, fs')

/-- The states some sequence of calls that spare the root leads to. -/
def RootSafeReachable : RuntimeFs → Prop := Reachable (· = runtimeFsInit) RootSafeStep

/-! ## One call -/

variable {fs fs' : RuntimeFs} {call : FsCall} {status : Int}

/-- The second half of an open keeps the file system sound. -/
theorem Sound.openNode (h : Sound fs) (pid : UInt32) (node : Fin 16) (flags : UInt32) :
    Sound (fsOpenNode fs pid node flags).2.1 := by
  rcases fsOpenNode_spec fs pid node flags with
    ⟨_, _, _, _, heq⟩ | ⟨_, _, _, _, _, heq⟩ | ⟨s, hmode, _, _, heq⟩
  · rw [heq]
    exact h
  · rw [heq]
    exact h.truncate node flags
  · rw [heq]
    exact h.openSlot s hmode

/-- **A call on a sound file system returns**, and what it leaves is sound. -/
theorem FsCall.run_sound (h : Sound fs) (hfits : call.Fits fs) :
    ∃ status fs', call.run fs = .ok (status, fs') ∧ Sound fs' := by
  cases call with
  | mkdir pid path mode =>
    rcases runtimeFsMkdir_spec h pid path mode with
      ⟨status, _, heq⟩ | ⟨node, leaf, parent, hc, heq⟩
    · exact ⟨status, fs, heq, h⟩
    · exact ⟨_, _, heq, h.create hc (Or.inl rfl)⟩
  | «open» pid path flags object =>
    rcases runtimeFsOpen_spec h pid path flags object with
      ⟨_, status, _, heq⟩ | ⟨node, fs₁, o, ht, _, heq⟩
    · exact ⟨status, fs, by rw [run, heq, ok_bind], h⟩
    · exact ⟨_, _, by rw [run, heq, ok_bind], (ht.sound h).openNode pid node flags⟩
  | read object buffer size =>
    rcases runtimeFsRead_spec h object buffer size with
      ⟨_, status, _, heq⟩ | ⟨s, _, _, hs, _, _, heq, _, _⟩
    · exact ⟨status, fs, by rw [run, heq, ok_bind], h⟩
    · refine ⟨_, _, by rw [run, heq, ok_bind], h.setOffset hs.used ?_⟩
      have h₁ := (h.slots s hs.used).offset_le
      have h₂ := (h.nodes.node (fs.openFiles s).node).size_le
      rw [readCount]
      omega
  | write object buffer size =>
    rcases runtimeFsWrite_spec h object buffer size with
      ⟨_, status, _, _, heq⟩ | ⟨s, bytes, hs, _, _, ⟨_, heq⟩ | ⟨hend, heq⟩ | ⟨hwrap, _⟩⟩
    · exact ⟨status, fs, heq, h⟩
    · exact ⟨_, fs, heq, h⟩
    · exact ⟨_, _, heq, h.write hs.used hs.regular hend⟩
    · exact absurd (hfits s hs.lookup) (by omega)
  | close object =>
    rcases runtimeFsClose_spec fs object with ⟨status, _, heq⟩ | ⟨s, _, heq⟩
    · exact ⟨status, fs, by rw [run, heq], h⟩
    · exact ⟨_, _, by rw [run, heq], h.close s⟩
  | stat object st =>
    obtain ⟨status, st', heq⟩ := runtimeFsStat_spec h object st
    exact ⟨status, fs, by rw [run, heq, ok_bind], h⟩
  | readdir object entry =>
    rcases runtimeFsReaddir_spec h object entry with
      ⟨status, heq⟩ | ⟨s, e, i, hs, _, heq⟩
    · exact ⟨status, fs, by rw [run, heq, ok_bind], h⟩
    · exact ⟨_, _, by rw [run, heq, ok_bind],
        h.setDirCursor (fsOpenFileLookup_eq_some hs).1 _⟩
  | seek object offset whence =>
    rcases runtimeFsSeek_spec h object offset whence with
      ⟨_, status, _, _, heq⟩ | ⟨s, hs, ⟨_, heq⟩ | ⟨base, target, _, _, hle, heq⟩⟩
    · exact ⟨status, fs, heq, h⟩
    · exact ⟨_, fs, heq, h⟩
    · exact ⟨_, _, heq, h.setOffset hs.used hle⟩
  | remove pid path =>
    rcases runtimeFsRemove_spec h pid path with
      ⟨_, status, _, heq⟩ | ⟨p, node, _, hr, heq⟩
    · exact ⟨status, fs, heq, h⟩
    · exact ⟨_, _, heq, h.remove hr⟩
  | rename pid oldPath newPath =>
    rcases runtimeFsRename_spec h pid oldPath newPath with
      ⟨_, status, _, heq⟩ | ⟨p, q, node, leaf, parent, _, _, hr, heq⟩
    · exact ⟨status, fs, heq, h⟩
    · exact ⟨_, _, heq, h.rename hr⟩

theorem FsStep.sound (h : Sound fs) (hstep : FsStep fs fs') : Sound fs' := by
  obtain ⟨call, status, hfits, hrun⟩ := hstep
  obtain ⟨status', fs₁, hrun', hsound⟩ := FsCall.run_sound h hfits
  obtain ⟨-, rfl⟩ : status = status' ∧ fs' = fs₁ := by simpa using hrun.symm.trans hrun'
  exact hsound

/-- **Every reachable file system is sound.** -/
theorem FsReachable.sound (h : FsReachable fs) : Sound fs := by
  refine Reachable.invariant ?_ (fun _ _ ↦ FsStep.sound) h
  rintro _ rfl
  exact sound_init

/-- A call that returns keeps a sound state, even if a sum of offset and size wraps: a write with
such a sum answers `ENOSPC` or leaves the bounds of the node. -/
theorem FsCall.sound_of_run (h : Sound fs) (hrun : call.run fs = .ok (status, fs')) :
    Sound fs' := by
  by_cases hfits : call.Fits fs
  · exact FsStep.sound h ⟨call, status, hfits, hrun⟩
  cases call with
  | write object buffer size =>
    rcases runtimeFsWrite_spec h object buffer size with
      ⟨_, _, _, _, heq⟩ | ⟨s, bytes, hs, _, _, ⟨_, heq⟩ | ⟨hend, heq⟩ | ⟨_, heq⟩⟩
    · obtain ⟨-, rfl⟩ : _ ∧ fs = fs' := by simpa using heq.symm.trans hrun
      exact h
    · obtain ⟨-, rfl⟩ : _ ∧ fs = fs' := by simpa using heq.symm.trans hrun
      exact h
    · obtain ⟨-, rfl⟩ : _ ∧ _ = fs' := by simpa using heq.symm.trans hrun
      exact h.write hs.used hs.regular hend
    · exact absurd (heq.symm.trans hrun) (by simp)
  | _ => exact absurd trivial hfits

theorem ApiReachable.sound (h : ApiReachable fs) : Sound fs := by
  refine Reachable.invariant ?_ (fun _ _ hs ⟨_, _, hrun⟩ ↦ FsCall.sound_of_run hs hrun) h
  rintro _ rfl
  exact sound_init

/-! ## What a call can do -/

/-- The slots differ in their positions only. -/
def RuntimeFsOpenFile.SameUse (o o' : RuntimeFsOpenFile) : Prop :=
  o'.used = o.used ∧ o'.nodeIndex = o.nodeIndex ∧ o'.ownerPid = o.ownerPid ∧ o'.flags = o.flags

/-- **The outcomes of a call**: the guard, and the file system after it. -/
inductive FsMove (fs : RuntimeFs) : FsCall → Int → RuntimeFs → Prop
  | idle {call : FsCall} {status : Int} : FsMove fs call status fs
  | mkdir {pid mode : UInt32} {path : Option CString} {node parent : Fin 16} {leaf : List UInt8} :
      CreateAt fs pid path node leaf parent → FsMove fs (.mkdir pid path mode) Status.ok
        (fs.setNode node (createdNode fs node fileTypeDirectory parent pid mode leaf))
  | opens {pid flags : UInt32} {path : Option CString} {object : Option UInt32} {node : Fin 16}
      {fs₁ : RuntimeFs} {s : Fin 8} : OpenTarget fs pid path flags node fs₁ →
      ¬OpenBlocked fs₁ pid node flags → (fs₁.openFiles s).used = 0 →
      FsMove fs (.open pid path flags object) Status.ok
        ((fsOpenTruncate fs₁ node flags).setOpen s (openedSlot pid node flags))
  | openFails {pid flags : UInt32} {path : Option CString} {object : Option UInt32} {node : Fin 16}
      {fs₁ fs' : RuntimeFs} {status : Int} : OpenTarget fs pid path flags node fs₁ → status < 0 →
      fs' = fs₁ ∨ fs' = fsOpenTruncate fs₁ node flags →
      FsMove fs (.open pid path flags object) status fs'
  /-- A read, a seek or a listing moves the position of its slot. -/
  | positions {call : FsCall} {status : Int} {s : Fin 8} {o : RuntimeFsOpenFile} :
      (fs.openFiles s).SameUse o → FsMove fs call status (fs.setOpen s o)
  | writes {object size : UInt32} {buffer : Option (ℕ → UInt8)} {bytes : ℕ → UInt8} {s : Fin 8} :
      fsOpenFileLookup fs object = some s → (fs.openFiles s).flags &&& openWrite ≠ 0 →
      (fs.openFiles s).offset.toNat + size.toNat ≤ 256 →
      FsMove fs (.write object buffer size) size.toNat
        ((fs.setNode (fs.openFiles s).node (fsWriteNode (fs.nodes (fs.openFiles s).node)
          (fs.openFiles s).offset size bytes)).setOpen s
          { fs.openFiles s with offset := (fs.openFiles s).offset + size })
  | closes {object : UInt32} {s : Fin 8} : fsOpenFileLookup fs object = some s →
      FsMove fs (.close object) Status.ok (fs.setOpen s RuntimeFsOpenFile.zero)
  | removes {pid : UInt32} {p : CString} {node : Fin 16} : Removes fs pid p node →
      FsMove fs (.remove pid (some p)) Status.ok (fs.setNode node (fsClearNode (fs.nodes node)))
  | renames {pid : UInt32} {p q : CString} {node parent : Fin 16} {leaf : List UInt8} :
      Renames fs pid p q node leaf parent → FsMove fs (.rename pid (some p) (some q)) Status.ok
        (fs.setNode node (renamedNode fs node leaf parent))

/-- **Every call that returns is one of these.** -/
theorem FsCall.move (h : Sound fs) (hrun : call.run fs = .ok (status, fs')) :
    FsMove fs call status fs' := by
  have result : ∀ {status₁ : Int} {fs₁ : RuntimeFs}, call.run fs = .ok (status₁, fs₁) →
      FsMove fs call status₁ fs₁ → FsMove fs call status fs' := by
    intro status₁ fs₁ heq hmove
    obtain ⟨rfl, rfl⟩ : status₁ = status ∧ fs₁ = fs' := by simpa using heq.symm.trans hrun
    exact hmove
  cases call with
  | mkdir pid path mode =>
    rcases runtimeFsMkdir_spec h pid path mode with ⟨_, _, heq⟩ | ⟨_, _, _, hc, heq⟩
    · exact result heq .idle
    · exact result heq (.mkdir hc)
  | «open» pid path flags object =>
    rcases runtimeFsOpen_spec h pid path flags object with
      ⟨_, _, _, heq⟩ | ⟨node, fs₁, o, ht, _, heq⟩
    · exact result (by rw [run, heq, ok_bind]) .idle
    refine result (by rw [run, heq, ok_bind]) ?_
    rcases fsOpenNode_spec fs₁ pid node flags with
      ⟨_, hneg, _, _, hopen⟩ | ⟨_, hneg, _, _, _, hopen⟩ | ⟨s, _, hfree, hs, hopen⟩
    · rw [hopen]
      exact .openFails ht hneg (Or.inl rfl)
    · rw [hopen]
      exact .openFails ht hneg (Or.inr rfl)
    · rw [hopen]
      exact .opens ht hfree hs
  | read object buffer size =>
    rcases runtimeFsRead_spec h object buffer size with
      ⟨_, _, _, heq⟩ | ⟨s, _, _, _, _, _, heq, _, _⟩
    · exact result (by rw [run, heq, ok_bind]) .idle
    · refine result (by rw [run, heq, ok_bind]) ?_
      exact .positions ⟨rfl, rfl, rfl, rfl⟩
  | write object buffer size =>
    rcases runtimeFsWrite_spec h object buffer size with
      ⟨_, _, _, _, heq⟩ | ⟨s, bytes, hs, hflag, _, ⟨_, heq⟩ | ⟨hend, heq⟩ | ⟨_, heq⟩⟩
    · exact result heq .idle
    · exact result heq .idle
    · exact result heq (.writes hs.lookup hflag hend)
    · exact absurd (heq.symm.trans hrun) (by simp)
  | close object =>
    rcases runtimeFsClose_spec fs object with ⟨_, _, heq⟩ | ⟨s, hs, heq⟩
    · exact result (by rw [run, heq]) .idle
    · exact result (by rw [run, heq]) (.closes hs)
  | stat object st =>
    obtain ⟨_, _, heq⟩ := runtimeFsStat_spec h object st
    exact result (by rw [run, heq, ok_bind]) .idle
  | readdir object entry =>
    rcases runtimeFsReaddir_spec h object entry with ⟨_, heq⟩ | ⟨s, _, _, _, _, heq⟩
    · exact result (by rw [run, heq, ok_bind]) .idle
    · refine result (by rw [run, heq, ok_bind]) ?_
      exact .positions ⟨rfl, rfl, rfl, rfl⟩
  | seek object offset whence =>
    rcases runtimeFsSeek_spec h object offset whence with
      ⟨_, _, _, _, heq⟩ | ⟨s, _, ⟨_, heq⟩ | ⟨_, _, _, _, _, heq⟩⟩
    · exact result heq .idle
    · exact result heq .idle
    · exact result heq (.positions ⟨rfl, rfl, rfl, rfl⟩)
  | remove pid path =>
    rcases runtimeFsRemove_spec h pid path with ⟨_, _, _, heq⟩ | ⟨p, node, rfl, hr, heq⟩
    · exact result heq .idle
    · exact result heq (.removes hr)
  | rename pid oldPath newPath =>
    rcases runtimeFsRename_spec h pid oldPath newPath with
      ⟨_, _, _, heq⟩ | ⟨p, q, node, leaf, parent, rfl, rfl, hr, heq⟩
    · exact result heq .idle
    · exact result heq (.renames hr)

/-! ## Calls that spare the root -/

theorem RootIntact.truncate (h : RootIntact fs) (node : Fin 16) (flags : UInt32) :
    RootIntact (fsOpenTruncate fs node flags) := by
  unfold fsOpenTruncate
  split
  · next hreg =>
    refine h.setNode (fun hn ↦ ?_) _
    rw [hn, h.type] at hreg
    exact absurd hreg.2 (by decide)
  · exact h

theorem RootIntact.setOpen (h : RootIntact fs) (s : Fin 8) (o : RuntimeFsOpenFile) :
    RootIntact (fs.setOpen s o) :=
  ⟨h.used, h.type, h.parentIndex, h.name_zero, h.name_one⟩

theorem OpenTarget.rootIntact {pid flags : UInt32} {path : Option CString} {node : Fin 16}
    (h : RootIntact fs) (ht : OpenTarget fs pid path flags node fs') : RootIntact fs' := by
  cases ht with
  | existing _ => exact h
  | created hc _ => exact h.setNode hc.node_ne _

/-- A call that does not aim at the root leaves it in place. -/
theorem FsCall.run_rootIntact (h : Sound fs) (hroot : RootIntact fs)
    (hspare : call.SparesRoot fs) (hrun : call.run fs = .ok (status, fs')) :
    RootIntact fs' := by
  cases FsCall.move h hrun with
  | idle => exact hroot
  | mkdir hc => exact hroot.setNode hc.node_ne _
  | opens ht _ _ => exact ((ht.rootIntact hroot).truncate _ _).setOpen _ _
  | openFails ht _ hfs =>
    obtain rfl | rfl := hfs
    · exact ht.rootIntact hroot
    · exact (ht.rootIntact hroot).truncate _ _
  | positions _ => exact hroot.setOpen _ _
  | writes hs hflag _ =>
    refine RootIntact.setOpen (hroot.setNode (fun hn ↦ hflag ?_) _) _ _
    -- a slot on the root, a directory, has no write flag
    exact (h.slots _ (fsOpenFileLookup_eq_some hs).1).dir_write (by rw [hn, hroot.type])
  | closes _ => exact hroot.setOpen _ _
  | removes hr =>
    refine hroot.setNode (fun hn ↦ hspare ?_) _
    rw [fsResolvePath_eq h.terminated, hr.resolves, hn]
  | renames hr =>
    refine hroot.setNode (fun hn ↦ hspare ?_) _
    rw [fsResolvePath_eq h.terminated, hr.resolves, hn]

theorem RootSafeReachable.sound (h : RootSafeReachable fs) : Sound fs ∧ RootIntact fs := by
  refine Reachable.invariant (P := fun fs ↦ Sound fs ∧ RootIntact fs) ?_ ?_ h
  · rintro _ rfl
    exact ⟨sound_init, rootIntact_init⟩
  · rintro fs fs' ⟨hs, hr⟩ ⟨call, status, hfits, hspare, hrun⟩
    exact ⟨FsStep.sound hs ⟨call, status, hfits, hrun⟩,
      FsCall.run_rootIntact hs hr hspare hrun⟩

/-! ## The tree of used nodes -/

/-- The used nodes form one tree with root node 0, and the open slots refer into it. -/
structure IsTree (fs : RuntimeFs) : Prop where
  root_used : (fs.nodes 0).used ≠ 0
  parent_dir : ∀ i, (fs.nodes i).used ≠ 0 → ∃ p : Fin 16, (fs.nodes i).parentIndex.toNat = p ∧
    (fs.nodes p).used ≠ 0 ∧ (fs.nodes p).type = fileTypeDirectory
  chain : ∀ i, (fs.nodes i).used ≠ 0 → ∃ k, (fun j ↦ (fs.nodes j).parent)^[k] i = 0
  terminated : ∀ i, (fs.nodes i).used ≠ 0 → ∃ k, (fs.nodes i).name k = 0
  name_ne : ∀ i, (fs.nodes i).used ≠ 0 → (fs.nodes i).text ≠ []
  siblings : ∀ i j, i ≠ j → (fs.nodes i).used ≠ 0 → (fs.nodes j).used ≠ 0 →
    (fs.nodes i).parentIndex = (fs.nodes j).parentIndex → (fs.nodes i).text ≠ (fs.nodes j).text
  size_le : ∀ i, (fs.nodes i).used ≠ 0 → (fs.nodes i).sizeBytes.toNat ≤ 256
  slot_node : ∀ s, (fs.openFiles s).used ≠ 0 → ∃ i : Fin 16,
    (fs.openFiles s).nodeIndex.toNat = i ∧ (fs.nodes i).used ≠ 0 ∧
    ((fs.nodes i).type = fileTypeDirectory → (fs.openFiles s).flags &&& openWrite = 0)
  slot_offset : ∀ s, (fs.openFiles s).used ≠ 0 → (fs.openFiles s).offset.toNat ≤ 256

theorem Sound.isTree (h : Sound fs) (hroot : RootIntact fs) : IsTree fs where
  root_used := hroot.used
  parent_dir i hu := by
    refine ⟨(fs.nodes i).parent, (h.nodes.node i).val_parent.symm, ?_⟩
    rcases h.nodes.parent_dir i hu with h0 | hd
    · rw [h0]
      exact ⟨hroot.used, hroot.type⟩
    · exact hd
  chain i _ := by
    obtain ⟨k, hk, -⟩ := (h.nodes.rooted i).exists_iterate
    exact ⟨k, hk⟩
  terminated i hu := (h.nodes.node i).terminated hu
  name_ne i hu := (h.nodes.node i).text_ne hu
  siblings i j hij hi hj hp ht := by
    refine hij (h.nodes.siblings i j hi hj ?_ ht)
    rw [RuntimeFsNode.parent, hp]
    rfl
  size_le i _ := (h.nodes.node i).size_le
  slot_node s hs := ⟨(fs.openFiles s).node, (h.slots s hs).val_node.symm,
    (h.slots s hs).node_used, (h.slots s hs).dir_write⟩
  slot_offset s hs := (h.slots s hs).offset_le

/-- **Runs that spare the root stay valid**: in every state the validator answers OK, the used nodes
form a tree, and every call whose sum of offset and size fits 32 bits returns. -/
theorem rootSafe_validate (h : RootSafeReachable fs) :
    runtimeFsValidate fs = .ok Status.ok ∧ IsTree fs ∧
      ∀ call : FsCall, call.Fits fs → ∃ status fs', call.run fs = .ok (status, fs') := by
  obtain ⟨hs, hr⟩ := h.sound
  refine ⟨hs.runtimeFsValidate_eq hr, hs.isTree hr, fun call hfits ↦ ?_⟩
  obtain ⟨status, fs', heq, -⟩ := FsCall.run_sound hs hfits
  exact ⟨status, fs', heq⟩

/-- The path `/a`. -/
def pathA : CString := ⟨[slash, 97], by simp [slash]⟩

/-- After `mkdir("/a")` the theorem speaks of a state with two used nodes. -/
theorem rootSafe_validate_mkdir :
    ∃ fs, RootSafeReachable fs ∧ (fs.nodes 1).used = 1 ∧
      runtimeFsValidate fs = .ok Status.ok ∧ IsTree fs := by
  have hused : ((FsCall.mkdir 7 (some pathA) 493).run runtimeFsInit).map
      (fun r ↦ (r.2.nodes 1).used) = .ok 1 := by decide +kernel
  obtain ⟨r, hrun, hnode⟩ := map_eq_ok.mp hused
  have hreach : RootSafeReachable r.2 :=
    .step (.start rfl) ⟨.mkdir 7 (some pathA) 493, r.1, trivial, trivial, hrun⟩
  exact ⟨r.2, hreach, hnode, (rootSafe_validate hreach).1, (rootSafe_validate hreach).2.1⟩

end TensorOS
