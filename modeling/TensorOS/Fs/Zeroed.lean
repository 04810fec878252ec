import TensorOS.Fs.Access

/-!
# Bytes that no file has

The data array of a node is longer than its file. `Sound` has the bytes past the recorded size zero
in every node, so that a file which grows reads as zeros where nothing was written. For a node that
is not in use the recorded size is of no account, and there it takes an invariant of its own: all
bytes are zero, since a node is cleared when it is removed and no slot is left to write to it.
-/

namespace TensorOS

/-- The nodes that are not in use hold no bytes. -/
def BlankUnused (fs : RuntimeFs) : Prop := ∀ i, (fs.nodes i).used = 0 → ∀ k, (fs.nodes i).data k = 0

section Blank

variable {fs fs' : RuntimeFs} {call : FsCall} {status : Int}

theorem blankUnused_init : BlankUnused runtimeFsInit := by
  intro i _ k
  by_cases hi : i = 0
  · subst hi
    rfl
  · rw [runtimeFsInit_nodes_of_ne hi]
    rfl

/-- Replacing a node by one that is in use, or holds no bytes. -/
theorem BlankUnused.setNode (h : BlankUnused fs) {i : Fin 16} {n : RuntimeFsNode}
    (hn : n.used = 0 → ∀ k, n.data k = 0) : BlankUnused (fs.setNode i n) := by
  intro j hj
  by_cases hji : j = i
  · subst hji
    rw [RuntimeFs.setNode_nodes_self] at hj ⊢
    exact hn hj
  · rw [RuntimeFs.setNode_nodes_of_ne hji] at hj ⊢
    exact h j hj

theorem BlankUnused.setOpen (h : BlankUnused fs) (s : Fin 8) (o : RuntimeFsOpenFile) :
    BlankUnused (fs.setOpen s o) := h

theorem BlankUnused.truncate (h : BlankUnused fs) (node : Fin 16) (flags : UInt32) :
    BlankUnused (fsOpenTruncate fs node flags) := by
  unfold fsOpenTruncate
  split
  · refine h.setNode fun _ k ↦ ?_
    have hk : (k : ℕ) < fileCapacity.toNat := k.isLt
    rw [fsZeroRange_eq]
    exact if_pos ⟨Nat.zero_le _, hk⟩
  · exact h

theorem createdNode_used (fs : RuntimeFs) (node : Fin 16) (type : UInt32) (parent : Fin 16)
    (pid mode : UInt32) (leaf : List UInt8) :
    (createdNode fs node type parent pid mode leaf).used = 1 := by
  rw [createdNode, fsNamedNode, fsFreshNode, fsZeroRange_eq]

theorem BlankUnused.create (h : BlankUnused fs) (node : Fin 16) (type : UInt32) (parent : Fin 16)
    (pid mode : UInt32) (leaf : List UInt8) :
    BlankUnused (fs.setNode node (createdNode fs node type parent pid mode leaf)) := by
  refine h.setNode fun hunused ↦ ?_
  rw [createdNode_used] at hunused
  cases hunused

theorem OpenTarget.blankUnused {pid flags : UInt32} {path : Option CString} {node : Fin 16}
    (h : BlankUnused fs) (ht : OpenTarget fs pid path flags node fs') : BlankUnused fs' := by
  cases ht with
  | existing _ => exact h
  | created _ _ => exact h.create _ _ _ _ _ _

/-- **A call leaves no bytes in a node that is not in use.** A write goes to the node of a used
slot, which is in use; a removed node is cleared. -/
theorem FsMove.blankUnused (h : Sound fs) (hblank : BlankUnused fs)
    (hmove : FsMove fs call status fs') : BlankUnused fs' := by
  cases hmove with
  | idle => exact hblank
  | mkdir _ => exact hblank.create _ _ _ _ _ _
  | opens ht _ _ => exact ((ht.blankUnused hblank).truncate _ _).setOpen _ _
  | openFails ht _ heq =>
    rcases heq with rfl | rfl
    · exact ht.blankUnused hblank
    · exact (ht.blankUnused hblank).truncate _ _
  | positions _ => exact hblank.setOpen _ _
  | writes hlookup _ hend =>
    refine BlankUnused.setOpen (hblank.setNode fun hunused ↦ ?_) _ _
    rw [fsWriteNode_eq _ _ hend] at hunused
    exact absurd hunused (h.slots _ (fsOpenFileLookup_eq_some hlookup).1).node_used
  | closes _ => exact hblank.setOpen _ _
  | removes _ => exact hblank.setNode fun _ _ ↦ rfl
  | renames _ => exact hblank.setNode (hblank _)

theorem FsReachable.blankUnused (h : FsReachable fs) : BlankUnused fs := by
  refine (Reachable.invariant (P := fun fs ↦ Sound fs ∧ BlankUnused fs) ?_ ?_ h).2
  · rintro _ rfl
    exact ⟨sound_init, blankUnused_init⟩
  · rintro fs fs' ⟨hs, hblank⟩ hstep
    refine ⟨FsStep.sound hs hstep, ?_⟩
    obtain ⟨call, status, -, hrun⟩ := hstep
    exact FsMove.blankUnused hs hblank (FsCall.move hs hrun)

/-- **Zero tail**: in every reachable file system the bytes of a used node from the recorded size on
are zero, and so are all bytes of a node that is not in use. -/
theorem zeroTail (h : FsReachable fs) :
    (∀ i, (fs.nodes i).used ≠ 0 → ∀ k : Fin 256, (fs.nodes i).sizeBytes.toNat ≤ k →
      (fs.nodes i).data k = 0) ∧
    ∀ i, (fs.nodes i).used = 0 → ∀ k, (fs.nodes i).data k = 0 :=
  ⟨fun i _ k hk ↦ (h.sound.nodes.node i).tail_zero k hk, h.blankUnused⟩

/-- A file is created and three bytes are written to it; the theorem speaks of the rest of it and
of the nodes that are still free. -/
theorem zeroTail_write : ∃ fs, FsReachable fs ∧ (fs.nodes 1).sizeBytes = 3 ∧
    (∀ i, (fs.nodes i).used ≠ 0 → ∀ k : Fin 256, (fs.nodes i).sizeBytes.toNat ≤ k →
      (fs.nodes i).data k = 0) ∧
    ∀ i, (fs.nodes i).used = 0 → ∀ k, (fs.nodes i).data k = 0 := by
  have hsize : ((FsCall.open 7 (some pathA) (openWrite ||| openCreate) (some 0)).run runtimeFsInit
      >>= fun r ↦ (FsCall.write 1 (some fun _ ↦ 97) 3).run r.2).map
      (fun r ↦ (r.2.nodes 1).sizeBytes) = .ok 3 := by decide +kernel
  obtain ⟨w, hboth, hnode⟩ := map_eq_ok.mp hsize
  obtain ⟨o, hopen, hwrite⟩ := bind_eq_ok.mp hboth
  have hopened : FsReachable o.2 :=
    .step (.start rfl) ⟨.open 7 (some pathA) (openWrite ||| openCreate) (some 0), o.1, trivial,
      hopen⟩
  have hfits : (FsCall.write 1 (some fun _ ↦ 97) 3).Fits o.2 := by
    intro s hs
    have hle := (hopened.sound.slots s (fsOpenFileLookup_eq_some hs).1).offset_le
    have h3 : (3 : UInt32).toNat = 3 := rfl
    omega
  have hreach : FsReachable w.2 := hopened.step ⟨_, w.1, hfits, hwrite⟩
  exact ⟨w.2, hreach, hnode, zeroTail hreach⟩

end Blank

end TensorOS
