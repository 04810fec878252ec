import TensorOS.Fs.Run

/-!
# Owners and writers

Every node has an owner, and process 0 stands for everybody. Two things are read off the outcomes
of a call (`FsCall.move`). The open slots with the write flag are locks: a node has at most one, and
it was given to a process that may write (`single_writer`). And a call for one process leaves the
nodes of the others alone (`ownership_isolated`); for a write this rests on the first result,
because a write checks nothing but the flag of its slot.
-/

namespace TensorOS

variable {fs fs' : RuntimeFs} {call : FsCall} {status : Int}

/-! ## Writers -/

/-- The slot is in use for writing. -/
def RuntimeFsOpenFile.Writes (o : RuntimeFsOpenFile) : Prop :=
  o.used ≠ 0 ∧ o.flags &&& openWrite ≠ 0

theorem RuntimeFsOpenFile.SameUse.node {o o' : RuntimeFsOpenFile} (h : o.SameUse o') :
    o'.node = o.node := by
  rw [RuntimeFsOpenFile.node, h.2.1]
  rfl

theorem RuntimeFsOpenFile.SameUse.writes {o o' : RuntimeFsOpenFile} (h : o.SameUse o') :
    o'.Writes ↔ o.Writes := by
  rw [Writes, Writes, h.1, h.2.2.2]

/-- The writing slots of a node: there is at most one, and its process may write to the node. -/
structure Authorised (fs : RuntimeFs) : Prop where
  owner : ∀ s, (fs.openFiles s).Writes →
    fsNodeOwnerAllows (fs.nodes (fs.openFiles s).node) (fs.openFiles s).ownerPid = true
  unique : ∀ s t, (fs.openFiles s).Writes → (fs.openFiles t).Writes →
    (fs.openFiles s).node = (fs.openFiles t).node → s = t

theorem fsNodeOwnerAllows_congr {node node' : RuntimeFsNode} (h : node'.ownerPid = node.ownerPid)
    (pid : UInt32) : fsNodeOwnerAllows node' pid = fsNodeOwnerAllows node pid := by
  rw [fsNodeOwnerAllows, fsNodeOwnerAllows, h]

/-- A node is replaced by one with the same owner, or is not open. -/
theorem Authorised.setNode (h : Authorised fs) {i : Fin 16} {node : RuntimeFsNode}
    (hnode : node.ownerPid = (fs.nodes i).ownerPid ∨
      ∀ s, (fs.openFiles s).used ≠ 0 → (fs.openFiles s).node ≠ i) :
    Authorised (fs.setNode i node) := by
  refine ⟨fun s hs ↦ ?_, h.unique⟩
  by_cases hi : (fs.openFiles s).node = i
  · obtain howner | hclosed := hnode
    · rw [RuntimeFs.setNode_openFiles, hi, RuntimeFs.setNode_nodes_self,
        fsNodeOwnerAllows_congr howner, ← hi]
      exact h.owner s hs
    · exact absurd hi (hclosed s hs.1)
  · rw [RuntimeFs.setNode_openFiles, RuntimeFs.setNode_nodes_of_ne hi]
    exact h.owner s hs

/-- A slot is replaced by one that does not write, or writes with good reason. -/
theorem Authorised.setOpen (h : Authorised fs) {s : Fin 8} {o : RuntimeFsOpenFile}
    (howner : o.Writes → fsNodeOwnerAllows (fs.nodes o.node) o.ownerPid = true)
    (hunique : o.Writes → ∀ t, t ≠ s → (fs.openFiles t).Writes → (fs.openFiles t).node ≠ o.node) :
    Authorised (fs.setOpen s o) := by
  refine ⟨fun t ht ↦ ?_, fun t u ht hu hnode ↦ ?_⟩
  · by_cases hts : t = s
    · subst hts
      rw [RuntimeFs.setOpen_openFiles_self] at ht ⊢
      exact howner ht
    · rw [RuntimeFs.setOpen_openFiles_of_ne hts] at ht ⊢
      exact h.owner t ht
  · by_cases hts : t = s
    · by_cases hus : u = s
      · exact hts.trans hus.symm
      · rw [RuntimeFs.setOpen_openFiles_of_ne hus] at hu hnode
        subst hts
        rw [RuntimeFs.setOpen_openFiles_self] at ht hnode
        exact absurd hnode.symm (hunique ht u hus hu)
    · by_cases hus : u = s
      · rw [RuntimeFs.setOpen_openFiles_of_ne hts] at ht hnode
        subst hus
        rw [RuntimeFs.setOpen_openFiles_self] at hu hnode
        exact absurd hnode (hunique hu t hts ht)
      · rw [RuntimeFs.setOpen_openFiles_of_ne hts] at ht hnode
        rw [RuntimeFs.setOpen_openFiles_of_ne hus] at hu hnode
        exact h.unique t u ht hu hnode

theorem Authorised.position (h : Authorised fs) {s : Fin 8} {o : RuntimeFsOpenFile}
    (ho : (fs.openFiles s).SameUse o) : Authorised (fs.setOpen s o) := by
  refine h.setOpen (fun hw ↦ ?_) fun hw t hts ht hnode ↦ ?_
  · rw [ho.node, ho.2.2.1]
    exact h.owner s (ho.writes.mp hw)
  · rw [ho.node] at hnode
    exact hts (h.unique t s ht (ho.writes.mp hw) hnode)

theorem fsOpenTruncate_ownerPid (fs : RuntimeFs) (node : Fin 16) (flags : UInt32) (i : Fin 16) :
    ((fsOpenTruncate fs node flags).nodes i).ownerPid = (fs.nodes i).ownerPid := by
  obtain ⟨_, _, hnode⟩ := fsOpenTruncate_nodes fs node flags i
  rw [hnode]

theorem Authorised.truncate (h : Authorised fs) (node : Fin 16) (flags : UInt32) :
    Authorised (fsOpenTruncate fs node flags) := by
  refine ⟨fun s hs ↦ ?_, fun s t ↦ ?_⟩
  · rw [fsOpenTruncate_openFiles] at hs ⊢
    rw [fsNodeOwnerAllows_congr (fsOpenTruncate_ownerPid fs node flags _)]
    exact h.owner s hs
  · rw [fsOpenTruncate_openFiles]
    exact h.unique s t

theorem OpenTarget.authorised (hs : Sound fs) (h : Authorised fs) {pid flags : UInt32}
    {path : Option CString} {node : Fin 16} {fs₁ : RuntimeFs}
    (ht : OpenTarget fs pid path flags node fs₁) : Authorised fs₁ := by
  cases ht with
  | existing _ => exact h
  | created hc _ => exact h.setNode (Or.inr fun s hu ↦ hs.slot_node_ne hc.unused hu)

theorem fsNodeHasOpenWriter_eq_false (h : Sound fs) {i : Fin 16}
    (hi : fsNodeHasOpenWriter fs i = false) (s : Fin 8) (hs : (fs.openFiles s).Writes) :
    (fs.openFiles s).node ≠ i := by
  intro hnode
  have hval := (h.slots s hs.1).val_node
  rw [hnode] at hval
  have := List.any_eq_false.mp hi s (List.mem_finRange s)
  simp [hs.1, hs.2, ← hval] at this

/-- A flag of its own is in no union of flags that is empty. -/
theorem and_or_ne_zero {a b c : UInt32} (h : a &&& b ≠ 0) : a &&& (b ||| c) ≠ 0 := by
  intro hor
  refine h (UInt32.toBitVec_inj.mp ?_)
  have hor' := congrArg UInt32.toBitVec hor
  simp only [UInt32.toBitVec_and, UInt32.toBitVec_or, UInt32.toBitVec_zero] at hor' ⊢
  rw [BitVec.and_or_distrib_left] at hor'
  exact (BitVec.or_eq_zero_iff.mp hor').1

/-- **Every move keeps the writers in order.** -/
theorem FsMove.authorised (hs : Sound fs) (h : Authorised fs) (hmove : FsMove fs call status fs') :
    Authorised fs' := by
  cases hmove with
  | idle => exact h
  | mkdir hc => exact h.setNode (Or.inr fun s hu ↦ hs.slot_node_ne hc.unused hu)
  | @opens pid flags _ _ node fs₁ s ht hfree hslot =>
    have h₁ := ht.authorised hs h
    have hs₁ := ht.sound hs
    refine (h₁.truncate node flags).setOpen (fun hw ↦ ?_) fun hw t _ ht' hnode ↦ ?_
    · rw [openedSlot_node]
      change fsNodeOwnerAllows ((fsOpenTruncate fs₁ node flags).nodes node) pid = true
      rw [fsOpenTruncate_ownerAllows]
      by_contra hown
      exact hfree (Or.inr (Or.inl ⟨and_or_ne_zero hw.2, by simpa using hown⟩))
    · rw [fsOpenTruncate_openFiles] at ht' hnode
      rw [openedSlot_node] at hnode
      refine fsNodeHasOpenWriter_eq_false hs₁ ?_ t ht' hnode
      by_contra hwriter
      exact hfree (Or.inl ⟨hw.2, by simpa using hwriter⟩)
  | @openFails _ flags _ _ node _ _ _ ht _ hfs =>
    have h₁ := ht.authorised hs h
    obtain rfl | rfl := hfs
    · exact h₁
    · exact h₁.truncate node flags
  | positions ho => exact h.position ho
  | @writes _ size _ bytes s _ _ hend =>
    have hwritten : Authorised (fs.setNode (fs.openFiles s).node (fsWriteNode
        (fs.nodes (fs.openFiles s).node) (fs.openFiles s).offset size bytes)) := by
      refine h.setNode (Or.inl ?_)
      rw [fsWriteNode_eq _ bytes hend]
    exact hwritten.position ⟨rfl, rfl, rfl, rfl⟩
  | closes => exact h.setOpen (fun hw ↦ absurd rfl hw.1) fun hw ↦ absurd rfl hw.1
  | removes hr => exact h.setNode (Or.inr (fsNodeIsOpen_eq_false hs hr.closed))
  | renames => exact h.setNode (Or.inl rfl)

theorem authorised_init : Authorised runtimeFsInit :=
  ⟨fun _ hs ↦ absurd rfl hs.1, fun _ _ hs ↦ absurd rfl hs.1⟩

theorem ApiReachable.authorised (h : ApiReachable fs) : Sound fs ∧ Authorised fs := by
  refine Reachable.invariant (P := fun fs ↦ Sound fs ∧ Authorised fs) ?_ ?_ h
  · rintro _ rfl
    exact ⟨sound_init, authorised_init⟩
  · rintro fs fs' ⟨hs, ha⟩ ⟨call, status, hrun⟩
    exact ⟨FsCall.sound_of_run hs hrun, (FsCall.move hs hrun).authorised hs ha⟩

/-- **A node has at most one writer, and it is allowed.** In every reachable file system two slots
with the write flag on one node are one slot, and its process is 0, or the node belongs to process
0, or the node belongs to the process. -/
theorem single_writer (h : ApiReachable fs) :
    (∀ s t, (fs.openFiles s).used ≠ 0 → (fs.openFiles t).used ≠ 0 →
      (fs.openFiles s).flags &&& openWrite ≠ 0 → (fs.openFiles t).flags &&& openWrite ≠ 0 →
      (fs.openFiles s).nodeIndex = (fs.openFiles t).nodeIndex → s = t) ∧
    ∀ s, (fs.openFiles s).used ≠ 0 → (fs.openFiles s).flags &&& openWrite ≠ 0 →
      ∃ i : Fin 16, (fs.openFiles s).nodeIndex.toNat = i ∧
        ((fs.openFiles s).ownerPid = 0 ∨ (fs.nodes i).ownerPid = 0 ∨
          (fs.openFiles s).ownerPid = (fs.nodes i).ownerPid) := by
  obtain ⟨hs, ha⟩ := h.authorised
  refine ⟨fun s t hus hut hws hwt hnode ↦ ?_, fun s hus hws ↦ ?_⟩
  · refine ha.unique s t ⟨hus, hws⟩ ⟨hut, hwt⟩ ?_
    rw [RuntimeFsOpenFile.node, hnode]
    rfl
  · refine ⟨(fs.openFiles s).node, (hs.slots s hus).val_node.symm, ?_⟩
    have howner := ha.owner s ⟨hus, hws⟩
    simp only [fsNodeOwnerAllows, Bool.decide_or, Bool.or_eq_true, decide_eq_true_eq] at howner
    obtain hnode | hpid | heq := howner
    · exact Or.inr (Or.inl hnode)
    · exact Or.inl hpid
    · exact Or.inr (Or.inr heq.symm)

/-- Process 5 creates `/a` for writing. -/
theorem single_writer_create : ∃ fs, ApiReachable fs ∧
    (fs.openFiles 0).flags = openWrite ||| openCreate ∧
    ∀ s t, (fs.openFiles s).used ≠ 0 → (fs.openFiles t).used ≠ 0 →
      (fs.openFiles s).flags &&& openWrite ≠ 0 → (fs.openFiles t).flags &&& openWrite ≠ 0 →
      (fs.openFiles s).nodeIndex = (fs.openFiles t).nodeIndex → s = t := by
  have hrun : ((FsCall.open 5 (some pathA) (openWrite ||| openCreate) (some 0)).run
      runtimeFsInit).map (fun r ↦ (r.2.openFiles 0).flags) = .ok (openWrite ||| openCreate) := by
    decide +kernel
  obtain ⟨⟨status, fs⟩, hrun, hflags⟩ := map_eq_ok.mp hrun
  have hreach : ApiReachable fs := .step (.start rfl) ⟨_, status, hrun⟩
  exact ⟨fs, hreach, hflags, (single_writer hreach).1⟩

/-! ## Nodes of other processes -/

/-- The call acts for the process: it is called with its pid, or through a slot that it opened. -/
def FsCall.ActsFor (fs : RuntimeFs) (q : UInt32) : FsCall → Prop
  | .mkdir pid _ _ | .open pid _ _ _ | .remove pid _ | .rename pid _ _ => pid = q
  | .read object _ _ | .write object _ _ | .close object | .stat object _ | .readdir object _
  | .seek object _ _ => ∀ s, fsOpenFileLookup fs object = some s → (fs.openFiles s).ownerPid = q

/-- The node is in use and belongs to another process. -/
def RuntimeFsNode.BelongsToOther (node : RuntimeFsNode) (q : UInt32) : Prop :=
  node.used ≠ 0 ∧ node.ownerPid ≠ 0 ∧ node.ownerPid ≠ q

theorem RuntimeFsNode.BelongsToOther.not_allows {node : RuntimeFsNode} {q : UInt32} (hq : q ≠ 0)
    (h : node.BelongsToOther q) : fsNodeOwnerAllows node q = false := by
  simp [fsNodeOwnerAllows, hq, h.2.1, h.2.2]

/-- **The nodes of other processes are left alone** by every successful call that acts for a process
other than 0. -/
theorem ownership_isolated (h : ApiReachable fs) {q : UInt32} (hq : q ≠ 0)
    (hacts : call.ActsFor fs q) (hrun : call.run fs = .ok (status, fs')) (hstatus : 0 ≤ status)
    {i : Fin 16} (hi : (fs.nodes i).used ≠ 0) (howner : (fs.nodes i).ownerPid ≠ 0)
    (hother : (fs.nodes i).ownerPid ≠ q) : fs'.nodes i = fs.nodes i := by
  obtain ⟨hs, ha⟩ := h.authorised
  have hallows := RuntimeFsNode.BelongsToOther.not_allows hq ⟨hi, howner, hother⟩
  -- a node that is unused, or to which the process is allowed, is another one
  have hnode : ∀ {j : Fin 16}, (fs.nodes j).used = 0 ∨ fsNodeOwnerAllows (fs.nodes j) q = true →
      i ≠ j := by
    rintro j hj rfl
    obtain hunused | hallowed := hj
    · exact hi hunused
    · rw [hallows] at hallowed
      cases hallowed
  cases FsCall.move hs hrun with
  | idle => rfl
  | mkdir hc => exact RuntimeFs.setNode_nodes_of_ne (hnode (Or.inl hc.unused))
  | @opens pid flags _ _ node fs₁ s ht hfree _ =>
    obtain rfl : pid = q := hacts
    rw [RuntimeFs.setOpen_nodes]
    have hsame : fs₁.nodes i = fs.nodes i := by
      cases ht with
      | existing _ => rfl
      | created hc _ => exact RuntimeFs.setNode_nodes_of_ne (hnode (Or.inl hc.unused))
    rw [fsOpenTruncate]
    split
    · next htruncate =>
      by_cases heq : i = node
      · subst heq
        refine absurd (Or.inr (Or.inl ⟨?_, ?_⟩)) hfree
        · rw [UInt32.or_comm]
          exact and_or_ne_zero htruncate.1
        · rw [hsame]
          exact hallows
      · rw [RuntimeFs.setNode_nodes_of_ne heq, hsame]
    · exact hsame
  | openFails _ hneg _ => omega
  | positions => rfl
  | @writes _ _ _ _ s hlook hflag _ =>
    rw [RuntimeFs.setOpen_nodes]
    refine RuntimeFs.setNode_nodes_of_ne (hnode (Or.inr ?_))
    rw [← hacts s hlook]
    exact ha.owner s ⟨(fsOpenFileLookup_eq_some hlook).1, hflag⟩
  | closes => rfl
  | removes hr =>
    obtain rfl := hacts
    exact RuntimeFs.setNode_nodes_of_ne (hnode (Or.inr hr.owner))
  | renames hr =>
    obtain rfl := hacts
    exact RuntimeFs.setNode_nodes_of_ne (hnode (Or.inr hr.owner))

/-- Process 7 opens the file `/a` of process 5 for reading. -/
theorem ownership_isolated_read : ∃ fs fs', ApiReachable fs ∧ (fs.nodes 1).ownerPid = 5 ∧
    (FsCall.open 7 (some pathA) openRead (some 0)).run fs = .ok (Status.ok, fs') ∧
    fs'.nodes 1 = fs.nodes 1 := by
  have hrun : ((FsCall.open 5 (some pathA) (openWrite ||| openCreate) (some 0)).run runtimeFsInit
      >>= fun r ↦ ((FsCall.open 7 (some pathA) openRead (some 0)).run r.2).map fun q ↦
        ((r.2.nodes 1).used, (r.2.nodes 1).ownerPid, q.1)) = .ok (1, 5, Status.ok) := by
    decide +kernel
  obtain ⟨⟨status, fs⟩, hcreate, hrun⟩ := bind_eq_ok.mp hrun
  obtain ⟨⟨status', fs'⟩, hopen, hfacts⟩ := map_eq_ok.mp hrun
  simp only [Prod.mk.injEq] at hfacts
  obtain ⟨hused, howner, rfl⟩ := hfacts
  have hreach : ApiReachable fs := .step (.start rfl) ⟨_, status, hcreate⟩
  have hacts : (FsCall.open 7 (some pathA) openRead (some 0)).ActsFor fs 7 := rfl
  refine ⟨fs, fs', hreach, howner, hopen, ownership_isolated hreach (by decide) hacts hopen le_rfl
    ?_ ?_ ?_⟩
  · rw [hused]
    decide
  · rw [howner]
    decide
  · rw [howner]
    decide

end TensorOS
