import TensorOS.Fs.Invariant

/-!
# What each operation does

One statement per operation, from a sound file system: either the operation answers with a negative
status and leaves the file system as it was, or a named condition on the arguments and the state
holds and the result is given outright. Later proofs use only these statements and never unfold an
operation again.

`runtime_fs_open` is the exception to the pattern: it can change the file system and then fail, so
its statement lists that case too.
-/

namespace TensorOS

variable {fs : RuntimeFs} {pid mode flags : UInt32} {path : Option CString}

theorem RuntimeFs.setNode_setNode (fs : RuntimeFs) (i : Fin 16) (a b : RuntimeFsNode) :
    (fs.setNode i a).setNode i b = fs.setNode i b := by
  simp [setNode]

theorem RuntimeFs.setOpen_setOpen (fs : RuntimeFs) (s : Fin 8) (a b : RuntimeFsOpenFile) :
    (fs.setOpen s a).setOpen s b = fs.setOpen s b := by
  simp [setOpen]

theorem RuntimeFs.setOpen_self (fs : RuntimeFs) (s : Fin 8) :
    fs.setOpen s (fs.openFiles s) = fs := by
  simp [setOpen]

theorem RuntimeFs.setNode_self (fs : RuntimeFs) (i : Fin 16) :
    fs.setNode i (fs.nodes i) = fs := by
  simp [setNode]

/-! ## Data ranges -/

theorem fsZeroRange_eq (node : RuntimeFsNode) (start stop : UInt32) :
    fsZeroRange node start stop = { node with
      data := fun k ↦ if start.toNat ≤ k ∧ (k : ℕ) < stop.toNat then 0 else node.data k } := by
  have hcap : fileCapacity.toNat = 256 := rfl
  unfold fsZeroRange
  by_cases hempty : start ≥ stop ∨ start ≥ fileCapacity
  · rw [if_pos hempty]
    simp only [ge_iff_le, UInt32.le_iff_toNat_le, hcap] at hempty
    have hdata : (fun k : Fin 256 ↦ if start.toNat ≤ k ∧ (k : ℕ) < stop.toNat then 0
        else node.data k) = node.data := by
      funext k
      rw [if_neg (by omega)]
    rw [hdata]
  · rw [if_neg hempty]
    have hdata : ∀ k : Fin 256, (start.toNat ≤ k ∧
        (k : ℕ) < (if stop > fileCapacity then fileCapacity else stop).toNat)
          ↔ (start.toNat ≤ k ∧ (k : ℕ) < stop.toNat) := by
      intro k
      by_cases hstop : stop > fileCapacity
      · rw [if_pos hstop, hcap]
        rw [gt_iff_lt, UInt32.lt_iff_toNat_lt, hcap] at hstop
        omega
      · rw [if_neg hstop]
    simp only [hdata]

/-- A write inside the capacity: the new bytes, zeros in a gap before them, the old bytes elsewhere,
and the size extended to the end of the write. -/
theorem fsWriteNode_eq (node : RuntimeFsNode) {offset size : UInt32} (bytes : ℕ → UInt8)
    (hend : offset.toNat + size.toNat ≤ 256) :
    fsWriteNode node offset size bytes = { node with
      sizeBytes := UInt32.ofNat (max node.sizeBytes.toNat (offset.toNat + size.toNat))
      data := fun k ↦
        if offset.toNat ≤ k ∧ (k : ℕ) < offset.toNat + size.toNat then bytes (k - offset.toNat)
        else if node.sizeBytes.toNat ≤ k ∧ (k : ℕ) < offset.toNat then 0
        else node.data k } := by
  have hsum : (offset + size).toNat = offset.toNat + size.toNat := by
    rw [UInt32.toNat_add]
    omega
  have hgap : (if offset > node.sizeBytes then fsZeroRange node node.sizeBytes offset else node)
      = { node with data := fun k ↦ if node.sizeBytes.toNat ≤ k ∧ (k : ℕ) < offset.toNat then 0
          else node.data k } := by
    split
    · exact fsZeroRange_eq ..
    · next hle =>
      rw [gt_iff_lt, UInt32.lt_iff_toNat_lt] at hle
      have hdata : (fun k : Fin 256 ↦ if node.sizeBytes.toNat ≤ k ∧ (k : ℕ) < offset.toNat then 0
          else node.data k) = node.data := by
        funext k
        rw [if_neg (by omega)]
      rw [hdata]
  unfold fsWriteNode
  rw [hgap]
  simp only [fsStoreBytes]
  by_cases hlt : offset + size > node.sizeBytes
  · rw [if_pos hlt]
    rw [gt_iff_lt, UInt32.lt_iff_toNat_lt, hsum] at hlt
    rw [max_eq_right (by omega), ← hsum, UInt32.ofNat_toNat]
  · rw [if_neg hlt]
    rw [gt_iff_lt, UInt32.lt_iff_toNat_lt, hsum] at hlt
    rw [max_eq_left (by omega), UInt32.ofNat_toNat]

/-! ## Searches -/

theorem fsAllocNode_eq_some {node : Fin 16} {fs' : RuntimeFs}
    (h : fsAllocNode fs = some (node, fs')) :
    node ≠ 0 ∧ (fs.nodes node).used = 0 ∧ fs' = fs.setNode node (fsFreshNode (fs.nodes node)) := by
  obtain ⟨i, hi, heq⟩ := Option.map_eq_some_iff.mp h
  have hfound : i ≠ 0 ∧ (fs.nodes i).used = 0 := by simpa using List.find?_some hi
  obtain ⟨rfl, rfl⟩ : i = node ∧ fs.setNode i (fsFreshNode (fs.nodes i)) = fs' := by
    simpa using heq
  exact ⟨hfound.1, hfound.2, rfl⟩

theorem fsAllocNode_eq_none (h : fsAllocNode fs = none) {i : Fin 16} (hi : i ≠ 0) :
    (fs.nodes i).used ≠ 0 := by
  have := List.find?_eq_none.mp (Option.map_eq_none_iff.mp h) i (List.mem_finRange i)
  simpa [hi] using this

theorem fsOpenSlotAlloc_eq_some {node : UInt32} {s : Fin 8} {fs' : RuntimeFs}
    (h : fsOpenSlotAlloc fs node flags = some (s, fs')) :
    (fs.openFiles s).used = 0 ∧ fs' = fs.setOpen s ⟨1, node, 0, flags, 0, 0⟩ := by
  obtain ⟨t, ht, heq⟩ := Option.map_eq_some_iff.mp h
  have hfound : (fs.openFiles t).used = 0 := by simpa using List.find?_some ht
  obtain ⟨rfl, rfl⟩ : t = s ∧ fs.setOpen t ⟨1, node, 0, flags, 0, 0⟩ = fs' := by
    simpa using heq
  exact ⟨hfound, rfl⟩

theorem fsOpenSlotAlloc_eq_none {node : UInt32} :
    fsOpenSlotAlloc fs node flags = none ↔ ∀ s, (fs.openFiles s).used ≠ 0 := by
  simp [fsOpenSlotAlloc]

theorem fsOpenFileLookup_eq_some {fileObject : UInt32} {s : Fin 8}
    (h : fsOpenFileLookup fs fileObject = some s) :
    (fs.openFiles s).used ≠ 0 ∧ fileObject.toNat = s + 1 := by
  rw [fsOpenFileLookup] at h
  split at h
  · next hbound =>
    have hne : fileObject.toNat ≠ 0 := fun h0 ↦ hbound.1 (UInt32.toNat_inj.mp h0)
    dsimp only at h
    split at h
    · cases h
    · next hused =>
      obtain rfl := Option.some.inj h
      exact ⟨hused, by simp; omega⟩
  · cases h

theorem fsOpenFileLookup_ofNat {s : Fin 8} (h : (fs.openFiles s).used ≠ 0) :
    fsOpenFileLookup fs (UInt32.ofNat ((s : ℕ) + 1)) = some s := by
  have hval : (UInt32.ofNat ((s : ℕ) + 1)).toNat = s + 1 := by
    rw [UInt32.toNat_ofNat']
    omega
  have hne : UInt32.ofNat ((s : ℕ) + 1) ≠ 0 := fun h0 ↦ by
    rw [h0] at hval
    exact absurd hval (by simp)
  rw [fsOpenFileLookup, dif_pos ⟨hne, by omega⟩]
  have hs : (⟨(UInt32.ofNat ((s : ℕ) + 1)).toNat - 1, by omega⟩ : Fin 8) = s :=
    Fin.ext (by simp only [hval]; omega)
  simp only [hs, if_neg h]

theorem fsNodeIsOpen_eq_false {i : Fin 16} (h : Sound fs) (hi : fsNodeIsOpen fs i = false)
    (s : Fin 8) (hs : (fs.openFiles s).used ≠ 0) : (fs.openFiles s).node ≠ i := by
  intro hnode
  have hval := (h.slots s hs).val_node
  rw [hnode] at hval
  have := List.any_eq_false.mp hi s (List.mem_finRange s)
  simp [hs, ← hval] at this

/-- A search for a slot on an unused node finds nothing. -/
theorem Sound.slot_node_ne (h : Sound fs) {i : Fin 16} (hi : (fs.nodes i).used = 0) {s : Fin 8}
    (hs : (fs.openFiles s).used ≠ 0) : (fs.openFiles s).node ≠ i :=
  fun hnode ↦ (h.slots s hs).node_used (hnode ▸ hi)

/-! ## Creating -/

/-- The conditions under which a create makes `node` a child of `parent` called `leaf`. -/
structure CreateAt (fs : RuntimeFs) (pid : UInt32) (path : Option CString) (node : Fin 16)
    (leaf : List UInt8) (parent : Fin 16) : Prop where
  node_ne : node ≠ 0
  unused : (fs.nodes node).used = 0
  unresolved : fs.resolve path = none
  parentPath : fs.resolveParent path = .ok (leaf, parent)
  owner : fsNodeOwnerAllows (fs.nodes parent) pid = true

/-- The node a create leaves behind. -/
def createdNode (fs : RuntimeFs) (node : Fin 16) (type : UInt32) (parent : Fin 16)
    (pid mode : UInt32) (leaf : List UInt8) : RuntimeFsNode :=
  fsNamedNode (fsFreshNode (fs.nodes node)) type parent pid mode leaf

theorem RuntimeFs.resolveParent_error_neg {status : Int}
    (h : fs.resolveParent path = .error status) : status < 0 := by
  have key : ∀ (rest : List (List UInt8)) (current : Fin 16) (tok : List UInt8),
      fs.parentWalk current tok rest = .error status → status < 0 := by
    intro rest
    induction rest with
    | nil => intro current tok hw; simp [parentWalk] at hw
    | cons next rest ih =>
      intro current tok hw
      rw [parentWalk] at hw
      split at hw
      · cases hw; decide
      · split at hw
        · cases hw; decide
        · split at hw
          · cases hw; decide
          · exact ih _ _ hw
  unfold resolveParent at h
  split at h
  · cases h; decide
  · split at h
    · split at h
      · cases h; decide
      · split at h
        · cases h; decide
        · exact key _ _ _ h
    · cases h; decide

/-- **`runtime_fs_mkdir`.** -/
theorem runtimeFsMkdir_spec (h : Sound fs) (pid : UInt32) (path : Option CString) (mode : UInt32) :
    (∃ status < 0, runtimeFsMkdir fs pid path mode = .ok (status, fs)) ∨
    ∃ node leaf parent, CreateAt fs pid path node leaf parent ∧
      runtimeFsMkdir fs pid path mode = .ok (Status.ok,
        fs.setNode node (createdNode fs node fileTypeDirectory parent pid mode leaf)) := by
  unfold runtimeFsMkdir
  by_cases habs : fsPathIsAbsoluteNonRoot path = false
  · exact Or.inl ⟨Status.einval, by decide, by rw [if_pos habs]⟩
  rw [if_neg habs]
  simp only [fsResolvePath_eq h.terminated, fsResolveParentPath_eq h.terminated, ok_bind]
  cases hres : fs.resolve path with
  | some i => exact Or.inl ⟨Status.eexist, by decide, rfl⟩
  | none =>
    cases hpar : fs.resolveParent path with
    | error status => exact Or.inl ⟨status, RuntimeFs.resolveParent_error_neg hpar, rfl⟩
    | ok found =>
      obtain ⟨leaf, parent⟩ := found
      by_cases hown : fsNodeOwnerAllows (fs.nodes parent) pid = false
      · exact Or.inl ⟨Status.eacces, by decide, by simp [hown]⟩
      cases halloc : fsAllocNode fs with
      | none => exact Or.inl ⟨Status.enospc, by decide, by simp [hown]⟩
      | some result =>
        obtain ⟨node, fs'⟩ := result
        obtain ⟨hne, hunused, rfl⟩ := fsAllocNode_eq_some halloc
        refine Or.inr ⟨node, leaf, parent,
          ⟨hne, hunused, hres, hpar, by simpa using hown⟩, ?_⟩
        simp [hown, createdNode, RuntimeFs.setNode_setNode]

/-! ## Opening -/

/-- The node `runtime_fs_open` works on, and the file system it then has: the node the path names,
or a node it has just created. -/
inductive OpenTarget (fs : RuntimeFs) (pid : UInt32) (path : Option CString) (flags : UInt32) :
    Fin 16 → RuntimeFs → Prop
  | existing {node : Fin 16} : fs.resolve path = some node →
      OpenTarget fs pid path flags node fs
  | created {node parent : Fin 16} {leaf : List UInt8} :
      CreateAt fs pid path node leaf parent → flags &&& openCreate ≠ 0 →
      OpenTarget fs pid path flags node
        (fs.setNode node (createdNode fs node fileTypeRegular parent pid 420 leaf))

/-- **The first half of `runtime_fs_open`.** -/
theorem fsOpenResolve_spec (h : Sound fs) (pid : UInt32) (path : Option CString) (flags : UInt32) :
    ((∀ node fs', ¬OpenTarget fs pid path flags node fs') ∧
      ∃ status < 0, fsOpenResolve fs pid path flags = .ok (.error status)) ∨
    ∃ node fs', OpenTarget fs pid path flags node fs' ∧
      fsOpenResolve fs pid path flags = .ok (.ok (node, fs')) := by
  unfold fsOpenResolve
  simp only [fsResolvePath_eq h.terminated, fsResolveParentPath_eq h.terminated, ok_bind]
  cases hres : fs.resolve path with
  | some i => exact Or.inr ⟨i, fs, .existing hres, rfl⟩
  | none =>
    -- a target must then have been created
    have hno : (∀ node leaf parent, CreateAt fs pid path node leaf parent →
        flags &&& openCreate = 0) → ∀ node fs', ¬OpenTarget fs pid path flags node fs' := by
      rintro hc _ _ (hsome | ⟨hcreate, hflag⟩)
      · exact absurd (hsome.symm.trans hres) (by simp)
      · exact hflag (hc _ _ _ hcreate)
    by_cases hcreate : flags &&& openCreate = 0
    · exact Or.inl ⟨hno fun _ _ _ _ ↦ hcreate, Status.enoent, by decide, by simp [hcreate]⟩
    cases hpar : fs.resolveParent path with
    | error status =>
      refine Or.inl ⟨hno fun _ _ _ hc ↦ ?_, status, RuntimeFs.resolveParent_error_neg hpar,
        by simp [hcreate]⟩
      exact absurd (hc.parentPath.symm.trans hpar) (by simp)
    | ok found =>
      obtain ⟨leaf, parent⟩ := found
      by_cases hown : fsNodeOwnerAllows (fs.nodes parent) pid = false
      · refine Or.inl ⟨hno fun _ _ _ hc ↦ ?_, Status.eacces, by decide, by simp [hown, hcreate]⟩
        obtain ⟨-, rfl⟩ : leaf = _ ∧ parent = _ := by simpa using hpar.symm.trans hc.parentPath
        exact absurd hc.owner (by simp [hown])
      cases halloc : fsAllocNode fs with
      | none =>
        refine Or.inl ⟨hno fun _ _ _ hc ↦ ?_, Status.enospc, by decide, by simp [hown, hcreate]⟩
        exact absurd hc.unused (fsAllocNode_eq_none halloc hc.node_ne)
      | some result =>
        obtain ⟨node, fs'⟩ := result
        obtain ⟨hne, hunused, rfl⟩ := fsAllocNode_eq_some halloc
        refine Or.inr
          ⟨node, _, .created ⟨hne, hunused, hres, hpar, by simpa using hown⟩ hcreate, ?_⟩
        simp [hown, hcreate, createdNode, RuntimeFs.setNode_setNode]

theorem fsOpenModeCheck_neg_or_ok (node : RuntimeFsNode) (flags : UInt32) :
    fsOpenModeCheck node flags < 0 ∨ fsOpenModeCheck node flags = Status.ok := by
  unfold fsOpenModeCheck
  split
  · exact Or.inl (by decide)
  split
  · exact Or.inl (by decide)
  split
  · exact Or.inl (by decide)
  split
  · exact Or.inl (by decide)
  · exact Or.inr rfl

/-- What stops `runtime_fs_open` after it has truncated the file. -/
def OpenBlocked (fs : RuntimeFs) (pid : UInt32) (node : Fin 16) (flags : UInt32) : Prop :=
  (flags &&& openWrite ≠ 0 ∧ fsNodeHasOpenWriter fs node = true) ∨
  (flags &&& (openWrite ||| openTruncate) ≠ 0 ∧
    fsNodeOwnerAllows (fs.nodes node) pid = false) ∨
  ∀ s, (fs.openFiles s).used ≠ 0

/-- The slot a successful open fills. -/
def openedSlot (pid : UInt32) (node : Fin 16) (flags : UInt32) : RuntimeFsOpenFile :=
  ⟨1, UInt32.ofNat node, pid, flags, 0, 0⟩

@[simp] theorem fsOpenTruncate_openFiles (fs : RuntimeFs) (node : Fin 16) (flags : UInt32) :
    (fsOpenTruncate fs node flags).openFiles = fs.openFiles := by
  unfold fsOpenTruncate
  split <;> rfl

theorem fsOpenTruncate_nodes (fs : RuntimeFs) (node : Fin 16) (flags : UInt32) (i : Fin 16) :
    ∃ sizeBytes data, (fsOpenTruncate fs node flags).nodes i
      = { fs.nodes i with sizeBytes := sizeBytes, data := data } := by
  unfold fsOpenTruncate
  split
  · by_cases hi : i = node
    · subst hi
      rw [RuntimeFs.setNode_nodes_self, fsZeroRange_eq]
      exact ⟨_, _, rfl⟩
    · rw [RuntimeFs.setNode_nodes_of_ne hi]
      exact ⟨_, _, rfl⟩
  · exact ⟨_, _, rfl⟩

theorem fsOpenTruncate_ownerAllows (fs : RuntimeFs) (node : Fin 16) (flags pid : UInt32) :
    fsNodeOwnerAllows ((fsOpenTruncate fs node flags).nodes node) pid
      = fsNodeOwnerAllows (fs.nodes node) pid := by
  obtain ⟨_, _, hnode⟩ := fsOpenTruncate_nodes fs node flags node
  rw [hnode]
  rfl

/-- **The second half of `runtime_fs_open`.** It fails before the truncation or after it. -/
theorem fsOpenNode_spec (fs : RuntimeFs) (pid : UInt32) (node : Fin 16) (flags : UInt32) :
    (∃ status < 0, ∃ stored, fsOpenModeCheck (fs.nodes node) flags ≠ Status.ok ∧
      fsOpenNode fs pid node flags = (status, fs, stored)) ∨
    (∃ status < 0, ∃ stored, fsOpenModeCheck (fs.nodes node) flags = Status.ok ∧
      OpenBlocked fs pid node flags ∧
      fsOpenNode fs pid node flags = (status, fsOpenTruncate fs node flags, stored)) ∨
    ∃ s, fsOpenModeCheck (fs.nodes node) flags = Status.ok ∧ ¬OpenBlocked fs pid node flags ∧
      (fs.openFiles s).used = 0 ∧
      fsOpenNode fs pid node flags = (Status.ok,
        (fsOpenTruncate fs node flags).setOpen s (openedSlot pid node flags),
        some (UInt32.ofNat ((s : ℕ) + 1))) := by
  unfold fsOpenNode
  by_cases hmode : fsOpenModeCheck (fs.nodes node) flags = Status.ok
  · simp only [hmode, ne_eq, not_true_eq_false, if_false, fsOpenTruncate_ownerAllows,
      false_and, exists_false, and_false, false_or, true_and]
    have hwriter : fsNodeHasOpenWriter (fsOpenTruncate fs node flags) node
        = fsNodeHasOpenWriter fs node := by
      rw [fsNodeHasOpenWriter, fsOpenTruncate_openFiles, fsNodeHasOpenWriter]
    rw [hwriter]
    by_cases hbusy : ¬flags &&& openWrite = 0 ∧ fsNodeHasOpenWriter fs node = true
    · exact Or.inl ⟨Status.ebusy, by decide, none, Or.inl hbusy, by rw [if_pos hbusy]⟩
    rw [if_neg hbusy]
    by_cases hown : ¬flags &&& (openWrite ||| openTruncate) = 0 ∧
        fsNodeOwnerAllows (fs.nodes node) pid = false
    · exact Or.inl ⟨Status.eacces, by decide, none, Or.inr (Or.inl hown), by rw [if_pos hown]⟩
    rw [if_neg hown]
    cases halloc : fsOpenSlotAlloc (fsOpenTruncate fs node flags) (UInt32.ofNat node) flags with
    | none =>
      have hfull := fsOpenSlotAlloc_eq_none.mp halloc
      rw [fsOpenTruncate_openFiles] at hfull
      exact Or.inl ⟨Status.enospc, by decide, _, Or.inr (Or.inr hfull), rfl⟩
    | some result =>
      obtain ⟨s, fs'⟩ := result
      obtain ⟨hfree, rfl⟩ := fsOpenSlotAlloc_eq_some halloc
      rw [fsOpenTruncate_openFiles] at hfree
      refine Or.inr ⟨s, ?_, hfree, ?_⟩
      · rintro (hb | ho | hf)
        · exact hbusy hb
        · exact hown ho
        · exact hf s hfree
      · simp [RuntimeFs.setOpen_setOpen, openedSlot]
  · simp only [hmode, ne_eq, not_false_eq_true, if_true]
    have hneg := (fsOpenModeCheck_neg_or_ok (fs.nodes node) flags).resolve_right hmode
    exact Or.inl ⟨_, hneg, none, trivial, rfl⟩

/-- **`runtime_fs_open`.** -/
theorem runtimeFsOpen_spec (h : Sound fs) (pid : UInt32) (path : Option CString) (flags : UInt32)
    (object : Option UInt32) :
    ((object = none ∨ ∀ node fs', ¬OpenTarget fs pid path flags node fs') ∧
      ∃ status < 0, runtimeFsOpen fs pid path flags object = .ok (status, fs, object)) ∨
    ∃ node fs' o, OpenTarget fs pid path flags node fs' ∧ object = some o ∧
      runtimeFsOpen fs pid path flags object = .ok ((fsOpenNode fs' pid node flags).1,
        (fsOpenNode fs' pid node flags).2.1,
        some ((fsOpenNode fs' pid node flags).2.2.getD o)) := by
  cases object with
  | none =>
    refine Or.inl ⟨Or.inl rfl, Status.einval, by decide, ?_⟩
    cases path <;> rfl
  | some o =>
    cases path with
    | none =>
      refine Or.inl ⟨Or.inr ?_, Status.einval, by decide, rfl⟩
      rintro _ _ (hsome | ⟨hcreate, -⟩)
      · simp [RuntimeFs.resolve] at hsome
      · exact absurd hcreate.parentPath (by simp [RuntimeFs.resolveParent])
    | some p =>
      unfold runtimeFsOpen
      by_cases h₀ : p.charAt 0 = slash
      · dsimp only
        rw [if_neg (not_not.mpr h₀)]
        rcases fsOpenResolve_spec h pid (some p) flags with
          ⟨hno, status, hneg, heq⟩ | ⟨node, fs', htarget, heq⟩
        · exact Or.inl ⟨Or.inr hno, status, hneg, by rw [heq, ok_bind]⟩
        · exact Or.inr ⟨node, fs', o, htarget, rfl, by rw [heq, ok_bind]⟩
      · refine Or.inl ⟨Or.inr ?_, Status.einval, by decide, by simp [h₀]⟩
        rintro _ _ (hsome | ⟨hcreate, -⟩)
        · simp [RuntimeFs.resolve, h₀] at hsome
        · exact absurd hcreate.parentPath (by simp [RuntimeFs.resolveParent, h₀])

/-- What an open that succeeds has done: found or made its node, cut it if asked to, and filled the
free slot it reports. -/
theorem runtimeFsOpen_eq_ok (h : Sound fs) {pid flags o : UInt32} {path : Option CString}
    {fs' : RuntimeFs} {s : Fin 8} (hrun : runtimeFsOpen fs pid path flags (some o)
      = .ok (Status.ok, fs', some (UInt32.ofNat ((s : ℕ) + 1)))) :
    ∃ node fs₁, OpenTarget fs pid path flags node fs₁ ∧ (fs₁.openFiles s).used = 0 ∧
      fs' = (fsOpenTruncate fs₁ node flags).setOpen s (openedSlot pid node flags) := by
  rcases runtimeFsOpen_spec h pid path flags (some o) with
    ⟨_, status, hneg, heq⟩ | ⟨node, fs₁, o', ht, _, heq⟩
  · have hstatus : status = Status.ok := congrArg Prod.fst (Except.ok.inj (heq.symm.trans hrun))
    exact absurd hneg (by rw [hstatus]; decide)
  have hres := Except.ok.inj (heq.symm.trans hrun)
  rcases fsOpenNode_spec fs₁ pid node flags with
    ⟨status, hneg, _, _, hopen⟩ | ⟨status, hneg, _, _, _, hopen⟩ | ⟨t, _, _, hfree, hopen⟩
  · rw [hopen] at hres
    have hstatus : status = Status.ok := congrArg Prod.fst hres
    exact absurd hneg (by rw [hstatus]; decide)
  · rw [hopen] at hres
    have hstatus : status = Status.ok := congrArg Prod.fst hres
    exact absurd hneg (by rw [hstatus]; decide)
  · rw [hopen] at hres
    have hslot : UInt32.ofNat ((t : ℕ) + 1) = UInt32.ofNat ((s : ℕ) + 1) :=
      Option.some.inj (congrArg (fun r ↦ r.2.2) hres)
    obtain rfl : t = s := by
      have hval := congrArg UInt32.toNat hslot
      rw [UInt32.toNat_ofNat', UInt32.toNat_ofNat'] at hval
      exact Fin.ext (by omega)
    exact ⟨node, fs₁, ht, hfree, (congrArg (fun r ↦ r.2.1) hres).symm⟩

/-! ## Reading, writing and seeking -/

/-- The file object names a used slot on a regular file. -/
structure RegularSlot (fs : RuntimeFs) (fileObject : UInt32) (s : Fin 8) : Prop where
  lookup : fsOpenFileLookup fs fileObject = some s
  regular : (fs.nodes (fs.openFiles s).node).type = fileTypeRegular

theorem RegularSlot.used {fileObject : UInt32} {s : Fin 8} (h : RegularSlot fs fileObject s) :
    (fs.openFiles s).used ≠ 0 := (fsOpenFileLookup_eq_some h.lookup).1

theorem RegularSlot.unique {fileObject : UInt32} {s t : Fin 8} (hs : RegularSlot fs fileObject s)
    (ht : RegularSlot fs fileObject t) : s = t :=
  Option.some.inj (hs.lookup.symm.trans ht.lookup)

theorem fsNotRegularStatus_neg (type : UInt32) : fsNotRegularStatus type < 0 := by
  unfold fsNotRegularStatus
  split <;> decide

theorem fsNotRegularStatus_ne {status : Int} (h₁ : Status.eisdir ≠ status)
    (h₂ : Status.enotsup ≠ status) {type : UInt32} : fsNotRegularStatus type ≠ status := by
  unfold fsNotRegularStatus
  split
  · exact h₁
  · exact h₂

theorem int32_eq_of_le {x : UInt32} (h : x.toNat ≤ 256) : int32 x = x.toNat := by
  rw [int32, BitVec.toInt_eq_toNat_of_lt]
  · rfl
  · rw [UInt32.toNat_toBitVec]
    omega

/-- The number of bytes a read of `size` bytes through the slot delivers. -/
def readCount (fs : RuntimeFs) (s : Fin 8) (size : UInt32) : ℕ :=
  min size.toNat
    ((fs.nodes (fs.openFiles s).node).sizeBytes.toNat - (fs.openFiles s).offset.toNat)

/-- **`runtime_fs_read`.** -/
theorem runtimeFsRead_spec (h : Sound fs) (fileObject : UInt32) (buffer : Option (ℕ → UInt8))
    (size : UInt32) :
    ((buffer = none ∨ ∀ s, RegularSlot fs fileObject s → (fs.openFiles s).flags &&& openRead = 0) ∧
      ∃ status < 0, runtimeFsRead fs fileObject buffer size = .ok (status, fs, buffer)) ∨
    ∃ s bytes bytes', RegularSlot fs fileObject s ∧ (fs.openFiles s).flags &&& openRead ≠ 0 ∧
      buffer = some bytes ∧
      runtimeFsRead fs fileObject buffer size = .ok ((readCount fs s size : Int),
        fs.setOpen s { fs.openFiles s with
          offset := UInt32.ofNat ((fs.openFiles s).offset.toNat + readCount fs s size) },
        some bytes') ∧
      (∀ i, i < readCount fs s size → ∀ hk : (fs.openFiles s).offset.toNat + i < 256,
        bytes' i = (fs.nodes (fs.openFiles s).node).data ⟨(fs.openFiles s).offset.toNat + i, hk⟩) ∧
      ∀ i, readCount fs s size ≤ i → bytes' i = bytes i := by
  unfold runtimeFsRead
  cases buffer with
  | none => exact Or.inl ⟨Or.inl rfl, Status.ebadf, by decide, rfl⟩
  | some bytes =>
    cases hlook : fsOpenFileLookup fs fileObject with
    | none =>
      refine Or.inl ⟨Or.inr fun s hs ↦ ?_, Status.ebadf, by decide, rfl⟩
      exact absurd (hs.lookup.symm.trans hlook) (by simp)
    | some s =>
      have hused := (fsOpenFileLookup_eq_some hlook).1
      have hslot := h.slots s hused
      have honly : ∀ t, RegularSlot fs fileObject t → t = s := fun t ht ↦
        Option.some.inj (ht.lookup.symm.trans hlook)
      by_cases hflag : (fs.openFiles s).flags &&& openRead = 0
      · refine Or.inl ⟨Or.inr fun t ht ↦ ?_, Status.ebadf, by decide, by simp [hflag]⟩
        rw [honly t ht]
        exact hflag
      simp only [hflag, if_false, hslot.nodeIndexOf_node, ok_bind]
      by_cases hreg : (fs.nodes (fs.openFiles s).node).type = fileTypeRegular
      · have hrs : RegularSlot fs fileObject s := ⟨hlook, hreg⟩
        have hsize := (h.nodes.node (fs.openFiles s).node).size_le
        have hword : UInt32.ofNat (fs.openFiles s).offset.toNat = (fs.openFiles s).offset := by simp
        simp only [hreg, ne_eq, not_true_eq_false, if_false, ge_iff_le, UInt32.le_iff_toNat_le,
          UInt32.lt_iff_toNat_lt]
        by_cases hpast : (fs.nodes (fs.openFiles s).node).sizeBytes.toNat
            ≤ (fs.openFiles s).offset.toNat
        · have hcount : readCount fs s size = 0 := by
            rw [readCount]
            omega
          refine Or.inr ⟨s, bytes, bytes, hrs, hflag, rfl, ?_, ?_, ?_⟩
          · simp only [hpast, if_true, hcount, Nat.add_zero, hword]
            exact congrArg (fun f ↦ Except.ok (0, f, some bytes)) (RuntimeFs.setOpen_self fs s).symm
          · intro i hi
            omega
          · intro i _
            rfl
        · -- inside the file: the copied count is the smaller of the two lengths
          have hrem : ((fs.nodes (fs.openFiles s).node).sizeBytes - (fs.openFiles s).offset).toNat
              = (fs.nodes (fs.openFiles s).node).sizeBytes.toNat
                - (fs.openFiles s).offset.toNat := by
            exact UInt32.toNat_sub_of_le _ _ (UInt32.le_iff_toNat_le.mpr (by omega))
          set count : UInt32 :=
            if size.toNat < ((fs.nodes (fs.openFiles s).node).sizeBytes
              - (fs.openFiles s).offset).toNat then size
            else (fs.nodes (fs.openFiles s).node).sizeBytes - (fs.openFiles s).offset with hcdef
          have hcount : count.toNat = readCount fs s size := by
            rw [readCount, hcdef]
            split <;> omega
          have hle : (fs.openFiles s).offset.toNat + readCount fs s size ≤ 256 := by
            rw [readCount]
            omega
          have hadd : (fs.openFiles s).offset + count
              = UInt32.ofNat ((fs.openFiles s).offset.toNat + readCount fs s size) := by
            rw [← hcount, UInt32.ofNat_add]
            simp
          refine Or.inr ⟨s, bytes, fsLoadBytes (fs.nodes (fs.openFiles s).node)
            (fs.openFiles s).offset count bytes, hrs, hflag, rfl, ?_, ?_, ?_⟩
          · simp only [hpast, if_false, hcount, Nat.not_lt.mpr hle]
            rw [int32_eq_of_le (by omega), hcount, hadd]
          · intro i hi hk
            simp [fsLoadBytes, hcount, hi, hk]
          · intro i hi
            simp [fsLoadBytes, hcount, Nat.not_lt.mpr hi]
      · refine Or.inl ⟨Or.inr fun t ht ↦ ?_,
          fsNotRegularStatus (fs.nodes (fs.openFiles s).node).type, fsNotRegularStatus_neg _, ?_⟩
        · obtain rfl := honly t ht
          exact absurd ht.regular hreg
        · simp [hreg]

/-- **`runtime_fs_write`.** The sum of offset and size is exact in every case but the last, where
it does not fit 32 bits. -/
theorem runtimeFsWrite_spec (h : Sound fs) (fileObject : UInt32) (buffer : Option (ℕ → UInt8))
    (size : UInt32) :
    ((buffer = none ∨
        ∀ s, RegularSlot fs fileObject s → (fs.openFiles s).flags &&& openWrite = 0) ∧
      ∃ status < 0, status ≠ Status.enospc ∧
        runtimeFsWrite fs fileObject buffer size = .ok (status, fs)) ∨
    ∃ s bytes, RegularSlot fs fileObject s ∧ (fs.openFiles s).flags &&& openWrite ≠ 0 ∧
      buffer = some bytes ∧
      ((256 < (fs.openFiles s).offset.toNat + size.toNat ∧
          runtimeFsWrite fs fileObject buffer size = .ok (Status.enospc, fs)) ∨
        ((fs.openFiles s).offset.toNat + size.toNat ≤ 256 ∧
          runtimeFsWrite fs fileObject buffer size = .ok ((size.toNat : Int),
            (fs.setNode (fs.openFiles s).node (fsWriteNode (fs.nodes (fs.openFiles s).node)
              (fs.openFiles s).offset size bytes)).setOpen s
              { fs.openFiles s with offset := (fs.openFiles s).offset + size })) ∨
        (2 ^ 32 ≤ (fs.openFiles s).offset.toNat + size.toNat ∧
          runtimeFsWrite fs fileObject buffer size = .error .outOfBounds)) := by
  unfold runtimeFsWrite
  cases buffer with
  | none => exact Or.inl ⟨Or.inl rfl, Status.ebadf, by decide, by decide, rfl⟩
  | some bytes =>
    cases hlook : fsOpenFileLookup fs fileObject with
    | none =>
      refine Or.inl ⟨Or.inr fun s hs ↦ ?_, Status.ebadf, by decide, by decide, rfl⟩
      exact absurd (hs.lookup.symm.trans hlook) (by simp)
    | some s =>
      have hslot := h.slots s (fsOpenFileLookup_eq_some hlook).1
      have honly : ∀ t, RegularSlot fs fileObject t → t = s := fun t ht ↦
        Option.some.inj (ht.lookup.symm.trans hlook)
      by_cases hflag : (fs.openFiles s).flags &&& openWrite = 0
      · refine Or.inl ⟨Or.inr fun t ht ↦ ?_, Status.ebadf, by decide, by decide, by simp [hflag]⟩
        rw [honly t ht]
        exact hflag
      simp only [hflag, if_false, hslot.nodeIndexOf_node, ok_bind]
      by_cases hreg : (fs.nodes (fs.openFiles s).node).type = fileTypeRegular
      · refine Or.inr ⟨s, bytes, ⟨hlook, hreg⟩, hflag, rfl, ?_⟩
        have hsum : ((fs.openFiles s).offset + size).toNat
            = ((fs.openFiles s).offset.toNat + size.toNat) % 2 ^ 32 := UInt32.toNat_add _ _
        have hcap : fileCapacity.toNat = 256 := rfl
        simp only [hreg, ne_eq, not_true_eq_false, if_false, gt_iff_lt, UInt32.lt_iff_toNat_lt,
          hcap]
        by_cases hover : 256 < ((fs.openFiles s).offset + size).toNat
        · exact Or.inl ⟨by omega, by rw [if_pos hover]⟩
        rw [if_neg hover]
        by_cases hwrap : 256 < (fs.openFiles s).offset.toNat + size.toNat
        · exact Or.inr (Or.inr ⟨by omega, by rw [if_pos hwrap]⟩)
        · refine Or.inr (Or.inl ⟨by omega, ?_⟩)
          rw [if_neg hwrap, int32_eq_of_le (by omega)]
      · refine Or.inl ⟨Or.inr fun t ht ↦ ?_,
          fsNotRegularStatus (fs.nodes (fs.openFiles s).node).type, fsNotRegularStatus_neg _,
          fsNotRegularStatus_ne (by decide) (by decide), ?_⟩
        · obtain rfl := honly t ht
          exact absurd ht.regular hreg
        · simp [hreg]

/-- The position a seek counts from. -/
def seekBase (fs : RuntimeFs) (s : Fin 8) (whence : UInt32) : Option ℕ :=
  if whence = seekSet then some 0
  else if whence = seekCur then some (fs.openFiles s).offset.toNat
  else if whence = seekEnd then some (fs.nodes (fs.openFiles s).node).sizeBytes.toNat
  else none

/-- **`runtime_fs_seek`.** -/
theorem runtimeFsSeek_spec (h : Sound fs) (fileObject : UInt32) (offset : Int32) (whence : UInt32) :
    ((∀ s, ¬RegularSlot fs fileObject s) ∧
      ∃ status < 0, status ≠ Status.einval ∧
        runtimeFsSeek fs fileObject offset whence = .ok (status, fs)) ∨
    ∃ s, RegularSlot fs fileObject s ∧
      (((∀ base, seekBase fs s whence = some base →
            base + offset.toInt < 0 ∨ 256 < base + offset.toInt) ∧
          runtimeFsSeek fs fileObject offset whence = .ok (Status.einval, fs)) ∨
        ∃ base target : ℕ, seekBase fs s whence = some base ∧
          (target : Int) = base + offset.toInt ∧ target ≤ 256 ∧
          runtimeFsSeek fs fileObject offset whence = .ok ((target : Int),
            fs.setOpen s { fs.openFiles s with offset := UInt32.ofNat target })) := by
  unfold runtimeFsSeek
  cases hlook : fsOpenFileLookup fs fileObject with
  | none =>
    refine Or.inl ⟨fun s hs ↦ ?_, Status.ebadf, by decide, by decide, rfl⟩
    exact absurd (hs.lookup.symm.trans hlook) (by simp)
  | some s =>
    have hslot := h.slots s (fsOpenFileLookup_eq_some hlook).1
    simp only [hslot.nodeIndexOf_node, ok_bind]
    by_cases hreg : (fs.nodes (fs.openFiles s).node).type = fileTypeRegular
    · refine Or.inr ⟨s, ⟨hlook, hreg⟩, ?_⟩
      have hbase : (if whence = seekSet then some (0 : Int)
          else if whence = seekCur then some ((fs.openFiles s).offset.toNat : Int)
          else if whence = seekEnd then
            some ((fs.nodes (fs.openFiles s).node).sizeBytes.toNat : Int)
          else none) = (seekBase fs s whence).map (fun n : ℕ ↦ (n : Int)) := by
        unfold seekBase
        split
        · rfl
        split
        · rfl
        split
        · rfl
        · rfl
      simp only [hreg, ne_eq, not_true_eq_false, if_false, hbase]
      cases hb : seekBase fs s whence with
      | none => exact Or.inl ⟨by simp, rfl⟩
      | some base =>
        simp only [Option.map_some]
        by_cases hout : (base : Int) + offset.toInt < 0 ∨ (base : Int) + offset.toInt > 256 ∨
            (base : Int) + offset.toInt > 2147483647
        · refine Or.inl ⟨fun b hbb ↦ ?_, by rw [if_pos hout]⟩
          obtain rfl := Option.some.inj hbb
          omega
        · refine Or.inr ⟨base, ((base : Int) + offset.toInt).toNat, rfl, by omega, by omega, ?_⟩
          rw [if_neg hout]
          have hword : UInt32.ofInt ((base : Int) + offset.toInt)
              = UInt32.ofNat ((base : Int) + offset.toInt).toNat := by
            rw [UInt32.ofInt, Int.emod_eq_of_lt (by omega) (by omega)]
          have hval : (UInt32.ofNat ((base : Int) + offset.toInt).toNat).toNat
              = ((base : Int) + offset.toInt).toNat := by
            rw [UInt32.toNat_ofNat']
            omega
          rw [hword, int32_eq_of_le (by omega), hval]
    · refine Or.inl ⟨fun t ht ↦ ?_,
        fsNotRegularStatus (fs.nodes (fs.openFiles s).node).type, fsNotRegularStatus_neg _,
        fsNotRegularStatus_ne (by decide) (by decide), ?_⟩
      · obtain rfl : t = s := Option.some.inj (ht.lookup.symm.trans hlook)
        exact absurd ht.regular hreg
      · simp [hreg]

/-! ## Closing, inspecting and listing -/

/-- **`runtime_fs_close`.** -/
theorem runtimeFsClose_spec (fs : RuntimeFs) (fileObject : UInt32) :
    (∃ status < 0, runtimeFsClose fs fileObject = (status, fs)) ∨
    ∃ s, fsOpenFileLookup fs fileObject = some s ∧
      runtimeFsClose fs fileObject = (Status.ok, fs.setOpen s RuntimeFsOpenFile.zero) := by
  unfold runtimeFsClose
  cases hlook : fsOpenFileLookup fs fileObject with
  | none => exact Or.inl ⟨Status.ebadf, by decide, rfl⟩
  | some s => exact Or.inr ⟨s, rfl, rfl⟩

/-- **`runtime_fs_stat`.** -/
theorem runtimeFsStat_spec (h : Sound fs) (fileObject : UInt32) (stat : Option RuntimeFileStat) :
    ∃ status stat', runtimeFsStat fs fileObject stat = .ok (status, fs, stat') := by
  unfold runtimeFsStat
  cases stat with
  | none => exact ⟨_, _, rfl⟩
  | some st =>
    cases hlook : fsOpenFileLookup fs fileObject with
    | none => exact ⟨_, _, rfl⟩
    | some s =>
      have hslot := h.slots s (fsOpenFileLookup_eq_some hlook).1
      simp only [hslot.nodeIndexOf_node, ok_bind]
      exact ⟨_, _, rfl⟩

/-- **`runtime_fs_readdir`.** -/
theorem runtimeFsReaddir_spec (h : Sound fs) (fileObject : UInt32)
    (entry : Option RuntimeDirEntry) :
    (∃ status, runtimeFsReaddir fs fileObject entry = .ok (status, fs, entry)) ∨
    ∃ s e, ∃ i : Fin 16, fsOpenFileLookup fs fileObject = some s ∧ entry = some e ∧
      runtimeFsReaddir fs fileObject entry = .ok (1,
        fs.setOpen s { fs.openFiles s with dirCursor := UInt32.ofNat ((i : ℕ) + 1) },
        some ⟨(fs.nodes i).type, copyName e.name (List.ofFn (fs.nodes i).name)⟩) := by
  unfold runtimeFsReaddir
  cases entry with
  | none => exact Or.inl ⟨_, rfl⟩
  | some e =>
    cases hlook : fsOpenFileLookup fs fileObject with
    | none => exact Or.inl ⟨_, rfl⟩
    | some s =>
      have hslot := h.slots s (fsOpenFileLookup_eq_some hlook).1
      simp only [hslot.nodeIndexOf_node, ok_bind]
      by_cases hflag : (fs.openFiles s).flags &&& openRead = 0
      · exact Or.inl ⟨Status.ebadf, by simp [hflag]⟩
      rw [if_neg hflag]
      by_cases hdir : (fs.nodes (fs.openFiles s).node).type = fileTypeDirectory
      · rw [if_neg (not_not.mpr hdir)]
        split
        · exact Or.inl ⟨0, rfl⟩
        · next i _ => exact Or.inr ⟨s, e, i, rfl, rfl, rfl⟩
      · exact Or.inl ⟨_, by rw [if_pos hdir]⟩

/-! ## Removing -/

/-- The conditions under which a remove clears `node`. -/
structure Removes (fs : RuntimeFs) (pid : UInt32) (path : CString) (node : Fin 16) : Prop where
  not_root : ¬(path.charAt 0 = slash ∧ path.charAt 1 = 0)
  resolves : fs.resolve (some path) = some node
  owner : fsNodeOwnerAllows (fs.nodes node) pid = true
  parent_owner : fsNodeOwnerAllows (fs.nodes (fs.nodes node).parent) pid = true
  closed : fsNodeIsOpen fs node = false
  childless : (fs.nodes node).type = fileTypeDirectory → fsNodeHasChildren fs node = false

/-- **`runtime_fs_remove`.** -/
theorem runtimeFsRemove_spec (h : Sound fs) (pid : UInt32) (path : Option CString) :
    ((∀ p node, path = some p → ¬Removes fs pid p node) ∧
      ∃ status < 0, runtimeFsRemove fs pid path = .ok (status, fs)) ∨
    ∃ p node, path = some p ∧ Removes fs pid p node ∧
      runtimeFsRemove fs pid path
        = .ok (Status.ok, fs.setNode node (fsClearNode (fs.nodes node))) := by
  cases path with
  | none => exact Or.inl ⟨by simp, Status.einval, by decide, rfl⟩
  | some p =>
    simp only [runtimeFsRemove, Option.some.injEq]
    by_cases h₀ : p.charAt 0 = slash
    case neg =>
      refine Or.inl ⟨fun q node hq hr ↦ ?_, Status.einval, by decide, by simp [h₀]⟩
      subst hq
      have := hr.resolves
      simp [RuntimeFs.resolve, h₀] at this
    rw [if_neg (not_not.mpr h₀)]
    by_cases h₁ : p.charAt 1 = 0
    · refine Or.inl ⟨fun q node hq hr ↦ ?_, Status.ebusy, by decide, by simp [fsPathIsRoot, h₀, h₁]⟩
      subst hq
      exact hr.not_root ⟨h₀, h₁⟩
    rw [if_neg (by simp [fsPathIsRoot, h₁]), fsResolveExistingPath_eq h.terminated h₀, ok_bind]
    cases hres : fs.resolve (some p) with
    | none =>
      refine Or.inl ⟨fun q node hq hr ↦ ?_, Status.enoent, by decide, rfl⟩
      subst hq
      exact absurd (hr.resolves.symm.trans hres) (by simp)
    | some node =>
      have honly : ∀ q n, p = q → Removes fs pid q n → Removes fs pid p node := by
        rintro q n rfl hr
        obtain rfl : n = node := Option.some.inj (hr.resolves.symm.trans hres)
        exact hr
      simp only [Option.elim_some, (h.nodes.node node).nodeIndexOf_parent, ok_bind]
      by_cases hown : fsNodeOwnerAllows (fs.nodes node) pid = false
      · refine Or.inl ⟨fun q n hq hr ↦ ?_, Status.eacces, by decide, by rw [if_pos hown]⟩
        exact absurd (honly q n hq hr).owner (by simp [hown])
      rw [if_neg hown]
      by_cases hpown : fsNodeOwnerAllows (fs.nodes (fs.nodes node).parent) pid = false
      · refine Or.inl ⟨fun q n hq hr ↦ ?_, Status.eacces, by decide, by rw [if_pos hpown]⟩
        exact absurd (honly q n hq hr).parent_owner (by simp [hpown])
      rw [if_neg hpown]
      by_cases hopen : fsNodeIsOpen fs node = true
      · refine Or.inl ⟨fun q n hq hr ↦ ?_, Status.ebusy, by decide, by rw [if_pos hopen]⟩
        exact absurd (honly q n hq hr).closed (by simp [hopen])
      rw [if_neg hopen]
      by_cases hkids : (fs.nodes node).type = fileTypeDirectory ∧ fsNodeHasChildren fs node = true
      · refine Or.inl ⟨fun q n hq hr ↦ ?_, Status.enotempty, by decide, by rw [if_pos hkids]⟩
        exact absurd ((honly q n hq hr).childless hkids.1) (by simp [hkids.2])
      rw [if_neg hkids]
      refine Or.inr ⟨p, node, rfl, ⟨fun hr ↦ h₁ hr.2, hres, by simpa using hown,
        by simpa using hpown, by simpa using hopen, fun hd ↦ ?_⟩, rfl⟩
      by_contra hk
      exact hkids ⟨hd, by simpa using hk⟩

/-! ## Renaming -/

theorem NodeOk.parentIndex_eq {node : RuntimeFsNode} (h : NodeOk node) :
    node.parentIndex = UInt32.ofNat node.parent := by
  rw [h.val_parent]
  simp

theorem ofNat_fin_eq_zero {i : Fin 16} : UInt32.ofNat (i : ℕ) = 0 ↔ i = 0 := by
  rw [← UInt32.toNat_inj, Fin.ext_iff]
  simp

/-- On a sound file system the parent walk ends, and decides whether the candidate is met. -/
theorem fsParentChainContains_eq (h : Sound fs) (start candidate : Fin 16) :
    ∃ b, fsParentChainContains fs start candidate = .ok b ∧
      (b = true ↔ OnChain (fun j ↦ (fs.nodes j).parent) 0 candidate start) := by
  have key : ∀ (k fuel : ℕ) (current : Fin 16), k < fuel →
      (fun j ↦ (fs.nodes j).parent)^[k] current = 0 →
      (∀ j < k, (fun j ↦ (fs.nodes j).parent)^[j] current ≠ 0) →
      ∃ b, fsParentChainLoop fs candidate fuel (UInt32.ofNat current) = .ok b ∧
        (b = true ↔ OnChain (fun j ↦ (fs.nodes j).parent) 0 candidate current) := by
    intro k
    induction k with
    | zero =>
      intro fuel current hfuel hroot _
      obtain ⟨fuel, rfl⟩ : ∃ f, fuel = f + 1 := ⟨fuel - 1, by omega⟩
      have hcur : current = 0 := hroot
      refine ⟨false, by rw [fsParentChainLoop, if_pos (ofNat_fin_eq_zero.mpr hcur)], ?_⟩
      simpa using fun hc : OnChain _ _ _ _ ↦ hc.ne_root hcur
    | succ k ih =>
      intro fuel current hfuel hroot hne
      obtain ⟨fuel, rfl⟩ : ∃ f, fuel = f + 1 := ⟨fuel - 1, by omega⟩
      have hcur : current ≠ 0 := hne 0 (by omega)
      rw [fsParentChainLoop, if_neg (fun hz ↦ hcur (ofNat_fin_eq_zero.mp hz))]
      by_cases hcand : current = candidate
      · refine ⟨true, by rw [if_pos (by simp [hcand])], ?_⟩
        simpa [hcand] using OnChain.here (hcand ▸ hcur)
      · have hval : (UInt32.ofNat (current : ℕ)).toNat ≠ candidate := by
          simpa [Fin.ext_iff] using hcand
        rw [if_neg hval, nodeIndexOf_ofNat, ok_bind, (h.nodes.node current).parentIndex_eq]
        obtain ⟨b, hb, hiff⟩ := ih fuel (fs.nodes current).parent (by omega) hroot
          fun j hj ↦ hne (j + 1) (by omega)
        refine ⟨b, hb, hiff.trans ⟨fun hc ↦ .up hcur hc, fun hc ↦ ?_⟩⟩
        cases hc with
        | here _ => exact absurd rfl hcand
        | up _ hc => exact hc
  obtain ⟨k, hk, hroot, hne⟩ := (h.nodes.rooted start).exists_lt_card
  rw [Fintype.card_fin] at hk
  exact key k 17 start (by omega) hroot hne

/-- The conditions under which a rename makes `node` a child of `parent` called `leaf`. -/
structure Renames (fs : RuntimeFs) (pid : UInt32) (oldPath newPath : CString) (node : Fin 16)
    (leaf : List UInt8) (parent : Fin 16) : Prop where
  distinct : oldPath ≠ newPath
  old_not_root : ¬(oldPath.charAt 0 = slash ∧ oldPath.charAt 1 = 0)
  new_not_root : ¬(newPath.charAt 0 = slash ∧ newPath.charAt 1 = 0)
  resolves : fs.resolve (some oldPath) = some node
  unresolved : fs.resolve (some newPath) = none
  parentPath : fs.resolveParent (some newPath) = .ok (leaf, parent)
  owner : fsNodeOwnerAllows (fs.nodes node) pid = true
  old_owner : fsNodeOwnerAllows (fs.nodes (fs.nodes node).parent) pid = true
  new_owner : fsNodeOwnerAllows (fs.nodes parent) pid = true
  not_below : (fs.nodes node).type = fileTypeDirectory →
    ¬OnChain (fun j ↦ (fs.nodes j).parent) 0 node parent

/-- The node a rename leaves behind. -/
def renamedNode (fs : RuntimeFs) (node : Fin 16) (leaf : List UInt8) (parent : Fin 16) :
    RuntimeFsNode :=
  { fs.nodes node with
    parentIndex := UInt32.ofNat parent
    name := copyName (fs.nodes node).name (leaf ++ [0]) }

theorem nameEquals_mem (p q : CString) : nameEquals p.mem q.mem = .ok (decide (p = q)) := by
  rw [nameEquals_eq (by simp [CString.mem]) (by simp [CString.mem]), CString.cstr_mem,
    CString.cstr_mem]
  congr 1
  exact decide_eq_decide.mpr ⟨CString.ext_chars, fun h ↦ by rw [h]⟩

theorem resolve_eq_some_charAt {p : CString} {node : Fin 16}
    (h : fs.resolve (some p) = some node) : p.charAt 0 = slash := by
  by_contra h₀
  simp [RuntimeFs.resolve, h₀] at h

theorem resolveParent_eq_ok_charAt {p : CString} {found : List UInt8 × Fin 16}
    (h : fs.resolveParent (some p) = .ok found) : p.charAt 0 = slash := by
  by_contra h₀
  simp [RuntimeFs.resolveParent, h₀] at h

/-- **`runtime_fs_rename`.** Equal strings succeed without doing anything. -/
theorem runtimeFsRename_spec (h : Sound fs) (pid : UInt32) (oldPath newPath : Option CString) :
    ((∀ p q node leaf parent, oldPath = some p → newPath = some q →
        ¬Renames fs pid p q node leaf parent) ∧
      ∃ status, (status < 0 ∨ status = Status.ok ∧ oldPath = newPath) ∧
        runtimeFsRename fs pid oldPath newPath = .ok (status, fs)) ∨
    ∃ p q node leaf parent, oldPath = some p ∧ newPath = some q ∧
      Renames fs pid p q node leaf parent ∧
      runtimeFsRename fs pid oldPath newPath
        = .ok (Status.ok, fs.setNode node (renamedNode fs node leaf parent)) := by
  cases oldPath with
  | none => exact Or.inl ⟨by simp, Status.einval, Or.inl (by decide), rfl⟩
  | some p =>
  cases newPath with
  | none => exact Or.inl ⟨by simp, Status.einval, Or.inl (by decide), rfl⟩
  | some q =>
    -- every refusal contradicts one field of `Renames`
    suffices hmain : (¬(∃ node leaf parent, Renames fs pid p q node leaf parent) ∧
        ∃ status, (status < 0 ∨ status = Status.ok ∧ p = q) ∧
          runtimeFsRename fs pid (some p) (some q) = .ok (status, fs)) ∨
        ∃ node leaf parent, Renames fs pid p q node leaf parent ∧
          runtimeFsRename fs pid (some p) (some q)
            = .ok (Status.ok, fs.setNode node (renamedNode fs node leaf parent)) by
      rcases hmain with ⟨hno, status, hst, heq⟩ | ⟨node, leaf, parent, hr, heq⟩
      · refine Or.inl ⟨?_, status, by simpa using hst, heq⟩
        rintro _ _ node leaf parent ⟨⟩ ⟨⟩ hr
        exact hno ⟨node, leaf, parent, hr⟩
      · exact Or.inr ⟨p, q, node, leaf, parent, rfl, rfl, hr, heq⟩
    simp only [runtimeFsRename]
    by_cases habs : p.charAt 0 ≠ slash ∨ q.charAt 0 ≠ slash
    · refine Or.inl ⟨?_, Status.einval, Or.inl (by decide), by rw [if_pos habs]⟩
      rintro ⟨node, leaf, parent, hr⟩
      rcases habs with h₀ | h₀
      · exact h₀ (resolve_eq_some_charAt hr.resolves)
      · exact h₀ (resolveParent_eq_ok_charAt hr.parentPath)
    rw [if_neg habs, nameEquals_mem, ok_bind]
    rw [not_or, not_not, not_not] at habs
    by_cases hpq : p = q
    · refine Or.inl ⟨?_, Status.ok, Or.inr ⟨rfl, hpq⟩, by simp [hpq]⟩
      rintro ⟨node, leaf, parent, hr⟩
      exact hr.distinct hpq
    rw [if_neg (by simpa using hpq)]
    by_cases hroot : p.charAt 1 = 0 ∨ q.charAt 1 = 0
    · refine Or.inl ⟨?_, Status.ebusy, Or.inl (by decide), ?_⟩
      · rintro ⟨node, leaf, parent, hr⟩
        rcases hroot with h₁ | h₁
        · exact hr.old_not_root ⟨habs.1, h₁⟩
        · exact hr.new_not_root ⟨habs.2, h₁⟩
      · rw [if_pos (by simpa [fsPathIsRoot, habs] using hroot)]
    rw [if_neg (by simpa [fsPathIsRoot, habs] using hroot)]
    rw [fsResolveExistingPath_eq h.terminated habs.1, ok_bind]
    rw [not_or] at hroot
    cases hres : fs.resolve (some p) with
    | none =>
      refine Or.inl ⟨?_, Status.enoent, Or.inl (by decide), rfl⟩
      rintro ⟨node, leaf, parent, hr⟩
      exact absurd (hr.resolves.symm.trans hres) (by simp)
    | some node =>
    simp only [Option.elim_some, fsResolvePath_eq h.terminated, ok_bind]
    cases hnew : fs.resolve (some q) with
    | some existing =>
      refine Or.inl ⟨?_, Status.eexist, Or.inl (by decide), rfl⟩
      rintro ⟨node', leaf, parent, hr⟩
      exact absurd (hr.unresolved.symm.trans hnew) (by simp)
    | none =>
    simp only [fsResolveParentPath_eq h.terminated, ok_bind]
    cases hpar : fs.resolveParent (some q) with
    | error status =>
      refine Or.inl ⟨?_, status, Or.inl (RuntimeFs.resolveParent_error_neg hpar), rfl⟩
      rintro ⟨node', leaf, parent, hr⟩
      exact absurd (hr.parentPath.symm.trans hpar) (by simp)
    | ok found =>
    obtain ⟨leaf, parent⟩ := found
    have honly : ∀ n l m, Renames fs pid p q n l m → Renames fs pid p q node leaf parent := by
      intro n l m hr
      obtain rfl : n = node := Option.some.inj (hr.resolves.symm.trans hres)
      obtain ⟨rfl, rfl⟩ : l = leaf ∧ m = parent := by
        simpa using hr.parentPath.symm.trans hpar
      exact hr
    simp only [(h.nodes.node node).nodeIndexOf_parent, ok_bind]
    by_cases hown : fsNodeOwnerAllows (fs.nodes node) pid = false
    · refine Or.inl ⟨?_, Status.eacces, Or.inl (by decide), by rw [if_pos hown]⟩
      rintro ⟨n, l, m, hr⟩
      exact absurd (honly n l m hr).owner (by simp [hown])
    rw [if_neg hown]
    by_cases howns : fsNodeOwnerAllows (fs.nodes (fs.nodes node).parent) pid = false ∨
        fsNodeOwnerAllows (fs.nodes parent) pid = false
    · refine Or.inl ⟨?_, Status.eacces, Or.inl (by decide), by rw [if_pos howns]⟩
      rintro ⟨n, l, m, hr⟩
      rcases howns with ho | ho
      · exact absurd (honly n l m hr).old_owner (by simp [ho])
      · exact absurd (honly n l m hr).new_owner (by simp [ho])
    rw [if_neg howns]
    rw [not_or, Bool.not_eq_false, Bool.not_eq_false] at howns
    obtain ⟨b, hb, hiff⟩ := fsParentChainContains_eq h parent node
    have hok : ∀ hbelow : (fs.nodes node).type = fileTypeDirectory →
        ¬OnChain (fun j ↦ (fs.nodes j).parent) 0 node parent,
        Renames fs pid p q node leaf parent := fun hbelow ↦
      ⟨hpq, fun hr ↦ hroot.1 hr.2, fun hr ↦ hroot.2 hr.2, hres, hnew, hpar, by simpa using hown,
        howns.1, howns.2, hbelow⟩
    by_cases hdir : (fs.nodes node).type = fileTypeDirectory
    · rw [if_pos hdir, hb, ok_bind]
      by_cases hbt : b = true
      · refine Or.inl ⟨?_, Status.einval, Or.inl (by decide), by rw [if_pos hbt]⟩
        rintro ⟨n, l, m, hr⟩
        exact (honly n l m hr).not_below hdir (hiff.mp hbt)
      · refine Or.inr ⟨node, leaf, parent, hok fun _ hc ↦ hbt (hiff.mpr hc), ?_⟩
        rw [if_neg hbt]
        rfl
    · rw [if_neg hdir]
      exact Or.inr ⟨node, leaf, parent, hok fun hd ↦ absurd hd hdir, rfl⟩

end TensorOS
