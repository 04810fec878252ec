import TensorOS.Fs.Spec

/-!
# Every operation keeps the file system sound

One lemma per way of changing the state: a created node, a truncated or written file, a cleared
node, a renamed node, and the slot updates.
-/

namespace TensorOS

variable {fs : RuntimeFs} {pid mode flags : UInt32} {path : Option CString}

/-! ## Names -/

/-- A component copied into a name field reads back as that component. -/
theorem cstr_copyName_leaf (dest : Fin 16 → UInt8) {leaf : List UInt8} (hnz : ∀ c ∈ leaf, c ≠ 0)
    (hlen : leaf.length < 16) : cstr (List.ofFn (copyName dest (leaf ++ [0]))) = leaf := by
  rw [cstr_copyName, cstr_append_zero hnz, List.take_of_length_le (by omega)]

/-- A node that the path walker did not find has no namesake among the children of the parent. -/
theorem NodesSound.no_sibling (h : NodesSound fs.nodes) {parent : Fin 16} {leaf : List UInt8}
    (hnone : fs.child parent leaf = none) {j : Fin 16} (hj : (fs.nodes j).used ≠ 0)
    (hp : (fs.nodes j).parent = parent) : (fs.nodes j).text ≠ leaf :=
  RuntimeFs.child_eq_none.mp hnone j hj (by rw [← (h.node j).val_parent, hp])

/-! ## Creating -/

theorem parent_ofNat {node : RuntimeFsNode} {parent : Fin 16}
    (h : node.parentIndex = UInt32.ofNat parent) : node.parent = parent := by
  rw [RuntimeFsNode.parent, h]
  ext
  simp

theorem createdNode_parent (fs : RuntimeFs) (node : Fin 16) (type : UInt32) (parent : Fin 16)
    (pid mode : UInt32) (leaf : List UInt8) :
    (createdNode fs node type parent pid mode leaf).parent = parent := parent_ofNat rfl

theorem createdNode_text (fs : RuntimeFs) (node : Fin 16) (type : UInt32) (parent : Fin 16)
    (pid mode : UInt32) {leaf : List UInt8} (hnz : ∀ c ∈ leaf, c ≠ 0) (hlen : leaf.length < 16) :
    (createdNode fs node type parent pid mode leaf).text = leaf :=
  cstr_copyName_leaf _ hnz hlen

theorem nodeOk_created (fs : RuntimeFs) (node : Fin 16) {type : UInt32} (parent : Fin 16)
    (pid mode : UInt32) {leaf : List UInt8}
    (htype : type = fileTypeDirectory ∨ type = fileTypeRegular) (hne : leaf ≠ [])
    (hnz : ∀ c ∈ leaf, c ≠ 0) (hlen : leaf.length < 16) :
    NodeOk (createdNode fs node type parent pid mode leaf) where
  flag := by simp [createdNode, fsNamedNode, fsFreshNode, fsZeroRange_eq]
  parent_lt := by simp [createdNode, fsNamedNode]
  unused_type := by simp [createdNode, fsNamedNode, fsFreshNode, fsZeroRange_eq]
  kind := fun _ ↦ htype
  terminated := fun _ ↦ copyName_terminated _ _
  text_ne := fun _ ↦ by rwa [createdNode_text _ _ _ _ _ _ hnz hlen]
  size_le := by simp [createdNode, fsNamedNode, fsFreshNode, fsZeroRange_eq]
  dir_size := fun _ ↦ by simp [createdNode, fsNamedNode, fsFreshNode, fsZeroRange_eq]
  tail_zero := fun k _ ↦ by
    have : (k : ℕ) < fileCapacity.toNat := k.isLt
    simp [createdNode, fsNamedNode, fsFreshNode, fsZeroRange_eq, this]

/-- **Creating a node.** -/
theorem Sound.create (h : Sound fs) {node parent : Fin 16} {leaf : List UInt8} {type : UInt32}
    (hc : CreateAt fs pid path node leaf parent)
    (htype : type = fileTypeDirectory ∨ type = fileTypeRegular) :
    Sound (fs.setNode node (createdNode fs node type parent pid mode leaf)) := by
  obtain ⟨hne, hslash, hnz, hlen, hparent, hresolve⟩ := RuntimeFs.resolveParent_eq_ok hc.parentPath
  have hchild : fs.child parent leaf = none := hresolve.symm.trans hc.unresolved
  have htext := createdNode_text fs node type parent pid mode hnz hlen
  refine h.setNode (h.nodes.update (nodeOk_created fs node parent pid mode htype hne hnz hlen)
    (fun h0 ↦ absurd h0 hc.node_ne) (fun _ _ ↦ by rwa [htext]) ?_ ?_ ?_ ?_) ?_
  · intro _
    rw [createdNode_parent]
    rcases hparent with h0 | hd
    · exact Or.inl h0
    · exact Or.inr ⟨fun hpn ↦ hd.1 (hpn ▸ hc.unused), hd⟩
  · -- nothing can be below a node that was not in use
    intro _ j _ hj hjp
    rcases h.nodes.parent_dir j hj with h0 | hd
    · exact absurd (hjp.symm.trans h0) hc.node_ne
    · exact absurd hc.unused (hjp ▸ hd.1)
  · right
    rw [createdNode_parent]
    intro hon
    rcases hparent with h0 | hd
    · exact hon.ne_root h0
    · exact h.nodes.used_of_onChain hd.1 hon hc.unused
  · intro _ j _ hj hjp
    rw [createdNode_parent] at hjp
    rw [htext]
    exact h.nodes.no_sibling hchild hj hjp
  · exact fun s hs hn ↦ absurd hn (h.slot_node_ne hc.unused hs)

/-! ## Truncating and writing -/

theorem Sound.truncate (h : Sound fs) (node : Fin 16) (flags : UInt32) :
    Sound (fsOpenTruncate fs node flags) := by
  unfold fsOpenTruncate
  split
  · next hreg =>
    have hn := h.nodes.node node
    rw [fsZeroRange_eq]
    refine h.setNode (h.nodes.update_contents ⟨hn.flag, hn.parent_lt, hn.unused_type, hn.kind,
      hn.terminated, hn.text_ne, by simp, fun _ ↦ rfl, fun k _ ↦ ?_⟩ rfl rfl rfl rfl rfl)
      fun _ _ _ ↦ ⟨rfl, rfl⟩
    have : (k : ℕ) < fileCapacity.toNat := k.isLt
    simp [this]
  · exact h

theorem nodeOk_written {node : RuntimeFsNode} (hn : NodeOk node) {offset size : UInt32}
    (bytes : ℕ → UInt8) (hreg : node.type = fileTypeRegular)
    (hend : offset.toNat + size.toNat ≤ 256) : NodeOk (fsWriteNode node offset size bytes) := by
  rw [fsWriteNode_eq node bytes hend]
  have hsize := hn.size_le
  have hval : (UInt32.ofNat (max node.sizeBytes.toNat (offset.toNat + size.toNat))).toNat
      = max node.sizeBytes.toNat (offset.toNat + size.toNat) := by
    rw [UInt32.toNat_ofNat']
    omega
  refine ⟨hn.flag, hn.parent_lt, hn.unused_type, hn.kind, hn.terminated, hn.text_ne, ?_, ?_, ?_⟩
  · rw [hval]
    omega
  · intro hdir
    exact absurd (hdir.symm.trans hreg) (by decide)
  · intro k hk
    rw [hval] at hk
    dsimp only
    rw [if_neg (by omega), if_neg (by omega)]
    exact hn.tail_zero k (by omega)

theorem Sound.write (h : Sound fs) {s : Fin 8} (hs : (fs.openFiles s).used ≠ 0)
    {size : UInt32} {bytes : ℕ → UInt8}
    (hreg : (fs.nodes (fs.openFiles s).node).type = fileTypeRegular)
    (hend : (fs.openFiles s).offset.toNat + size.toNat ≤ 256) :
    Sound ((fs.setNode (fs.openFiles s).node (fsWriteNode (fs.nodes (fs.openFiles s).node)
      (fs.openFiles s).offset size bytes)).setOpen s
        { fs.openFiles s with offset := (fs.openFiles s).offset + size }) := by
  have hok := nodeOk_written (h.nodes.node (fs.openFiles s).node) bytes hreg hend
  have hslot := h.slots s hs
  have hkeep := fsWriteNode_eq (fs.nodes (fs.openFiles s).node) bytes hend
  have hsound : Sound (fs.setNode (fs.openFiles s).node (fsWriteNode
      (fs.nodes (fs.openFiles s).node) (fs.openFiles s).offset size bytes)) :=
    h.setNode (h.nodes.update_contents hok (by rw [hkeep]) (by rw [hkeep]) (by rw [hkeep])
      (by rw [hkeep]) (by rw [hkeep])) fun _ _ _ ↦ by rw [hkeep]; exact ⟨rfl, rfl⟩
  refine hsound.setOpen fun _ ↦ ?_
  have hslot' := hsound.slots s hs
  refine ⟨hslot'.node_lt, hslot'.node_used, ?_, hslot'.dir_write⟩
  rw [UInt32.toNat_add]
  omega

theorem Sound.setOffset (h : Sound fs) {s : Fin 8} (hs : (fs.openFiles s).used ≠ 0) {offset : ℕ}
    (hle : offset ≤ 256) :
    Sound (fs.setOpen s { fs.openFiles s with offset := UInt32.ofNat offset }) := by
  have hslot := h.slots s hs
  refine h.setOpen fun _ ↦ ⟨hslot.node_lt, hslot.node_used, ?_, hslot.dir_write⟩
  rw [UInt32.toNat_ofNat']
  omega

theorem Sound.setDirCursor (h : Sound fs) {s : Fin 8} (hs : (fs.openFiles s).used ≠ 0)
    (cursor : UInt32) : Sound (fs.setOpen s { fs.openFiles s with dirCursor := cursor }) := by
  have hslot := h.slots s hs
  exact h.setOpen fun _ ↦ ⟨hslot.node_lt, hslot.node_used, hslot.offset_le, hslot.dir_write⟩

theorem Sound.close (h : Sound fs) (s : Fin 8) : Sound (fs.setOpen s RuntimeFsOpenFile.zero) :=
  h.setOpen fun hu ↦ absurd rfl hu

/-! ## Opening -/

theorem openedSlot_node (pid : UInt32) (node : Fin 16) (flags : UInt32) :
    (openedSlot pid node flags).node = node := by
  rw [RuntimeFsOpenFile.node, openedSlot]
  ext
  simp

theorem fsOpenTruncate_kind (fs : RuntimeFs) (node : Fin 16) (flags : UInt32) (i : Fin 16) :
    ((fsOpenTruncate fs node flags).nodes i).used = (fs.nodes i).used ∧
      ((fsOpenTruncate fs node flags).nodes i).type = (fs.nodes i).type := by
  obtain ⟨_, _, hnode⟩ := fsOpenTruncate_nodes fs node flags i
  rw [hnode]
  exact ⟨rfl, rfl⟩

/-- A mode check that passes rules out a writable slot on a directory. -/
theorem fsOpenModeCheck_eq_ok {node : RuntimeFsNode}
    (h : fsOpenModeCheck node flags = Status.ok) :
    (node.type = fileTypeDirectory → flags &&& openWrite = 0) ∧
      (node.type = fileTypeDirectory ∨ node.type = fileTypeRegular) := by
  unfold fsOpenModeCheck at h
  split at h
  · exact absurd h (by decide)
  · next h₁ =>
    split at h
    · exact absurd h (by decide)
    · next h₂ =>
      refine ⟨fun hd ↦ ?_, ?_⟩
      · by_contra hw
        exact h₁ ⟨hd, hw⟩
      · by_contra hk
        rw [not_or] at hk
        exact h₂ hk

/-- The node of a passed mode check is in use: an unused node has no type. -/
theorem NodeOk.used_of_modeCheck {node : RuntimeFsNode} (hn : NodeOk node)
    (h : fsOpenModeCheck node flags = Status.ok) : node.used ≠ 0 := by
  intro hu
  have ht := hn.unused_type hu
  rcases (fsOpenModeCheck_eq_ok h).2 with hd | hr
  · exact absurd (ht.symm.trans hd) (by decide)
  · exact absurd (ht.symm.trans hr) (by decide)

theorem Sound.openSlot (h : Sound fs) {node : Fin 16} (s : Fin 8)
    (hmode : fsOpenModeCheck (fs.nodes node) flags = Status.ok) :
    Sound ((fsOpenTruncate fs node flags).setOpen s (openedSlot pid node flags)) := by
  refine (h.truncate node flags).setOpen fun _ ↦ ?_
  have hkind := fsOpenTruncate_kind fs node flags node
  refine ⟨by simp [openedSlot], ?_, by simp [openedSlot], ?_⟩
  · rw [openedSlot_node, hkind.1]
    exact (h.nodes.node node).used_of_modeCheck hmode
  · rw [openedSlot_node, hkind.2]
    exact (fsOpenModeCheck_eq_ok hmode).1

theorem OpenTarget.sound (h : Sound fs) {node : Fin 16} {fs' : RuntimeFs}
    (ht : OpenTarget fs pid path flags node fs') : Sound fs' := by
  cases ht with
  | existing _ => exact h
  | created hc _ => exact h.create hc (Or.inr rfl)

/-! ## Removing and renaming -/

theorem nodeOk_clear (node : RuntimeFsNode) : NodeOk (fsClearNode node) where
  flag := Or.inl rfl
  parent_lt := by simp [fsClearNode]
  unused_type := fun _ ↦ rfl
  kind := fun h ↦ absurd rfl h
  terminated := fun h ↦ absurd rfl h
  text_ne := fun h ↦ absurd rfl h
  size_le := by simp [fsClearNode]
  dir_size := fun _ ↦ rfl
  tail_zero := fun _ _ ↦ rfl

theorem fsNodeHasChildren_eq_false (h : NodesSound fs.nodes) {i : Fin 16}
    (hi : fsNodeHasChildren fs i = false) {j : Fin 16} (hj : j ≠ i) (hu : (fs.nodes j).used ≠ 0) :
    (fs.nodes j).parent ≠ i := by
  intro hp
  have hval := (h.node j).val_parent
  rw [hp] at hval
  have := List.any_eq_false.mp hi j (List.mem_finRange j)
  simp [hu, ← hval, hj] at this

/-- **Removing a node.** -/
theorem Sound.remove (h : Sound fs) {p : CString} {node : Fin 16}
    (hr : Removes fs pid p node) : Sound (fs.setNode node (fsClearNode (fs.nodes node))) := by
  have hunused : (fsClearNode (fs.nodes node)).used = 0 := rfl
  have hparent : (fsClearNode (fs.nodes node)).parent = 0 := rfl
  refine h.setNode (h.nodes.update (nodeOk_clear _) (fun _ ↦ ⟨fun hu ↦ absurd hunused hu, rfl⟩)
    (fun _ hu ↦ absurd hunused hu) (fun hu ↦ absurd hunused hu) ?_ ?_
    (fun hu ↦ absurd hunused hu)) ?_
  · intro hi j hj hju hjp
    -- a node with children is a directory, and a directory with children is not removed
    rcases h.nodes.parent_dir j hju with h0 | hd
    · exact absurd (hjp.symm.trans h0) hi
    · rw [hjp] at hd
      exact absurd hjp (fsNodeHasChildren_eq_false h.nodes (hr.childless hd.2) hj hju)
  · right
    rw [hparent]
    exact fun hc ↦ hc.ne_root rfl
  · exact fun s hs hn ↦ absurd hn (fsNodeIsOpen_eq_false h hr.closed s hs)

theorem renamedNode_parent (fs : RuntimeFs) (node : Fin 16) (leaf : List UInt8)
    (parent : Fin 16) : (renamedNode fs node leaf parent).parent = parent := parent_ofNat rfl

theorem renamedNode_text (fs : RuntimeFs) (node : Fin 16) {leaf : List UInt8} (parent : Fin 16)
    (hnz : ∀ c ∈ leaf, c ≠ 0) (hlen : leaf.length < 16) :
    (renamedNode fs node leaf parent).text = leaf := cstr_copyName_leaf _ hnz hlen

/-- **Renaming a node.** A rename of node 0 is allowed here too: chains end at index 0 whatever its
own parent entry says. -/
theorem Sound.rename (h : Sound fs) {p q : CString} {node parent : Fin 16} {leaf : List UInt8}
    (hr : Renames fs pid p q node leaf parent) :
    Sound (fs.setNode node (renamedNode fs node leaf parent)) := by
  obtain ⟨hne, hslash, hnz, hlen, hparent, hresolve⟩ := RuntimeFs.resolveParent_eq_ok hr.parentPath
  have hchild : fs.child parent leaf = none := hresolve.symm.trans hr.unresolved
  have htext := renamedNode_text fs node parent hnz hlen
  have hn := h.nodes.node node
  have hok : NodeOk (renamedNode fs node leaf parent) :=
    ⟨hn.flag, by simp [renamedNode], hn.unused_type, hn.kind, fun _ ↦ copyName_terminated _ _,
      fun _ ↦ by rwa [htext], hn.size_le, hn.dir_size, hn.tail_zero⟩
  -- a regular file is on nobody's chain, so the source's check for directories is enough
  have hchain : ¬OnChain (fun j ↦ (fs.nodes j).parent) 0 node parent := by
    intro hon
    rcases hparent with h0 | hd
    · exact hon.ne_root h0
    · exact hr.not_below (h.nodes.dir_of_onChain hd hon) hon
  refine h.setNode (h.nodes.update hok ?_ (fun _ _ ↦ by rwa [htext]) ?_ ?_ ?_ ?_) ?_
  · rintro rfl
    exact ⟨h.nodes.root_type, h.nodes.root_owner⟩
  · intro _
    rw [renamedNode_parent]
    rcases hparent with h0 | hd
    · exact Or.inl h0
    · by_cases hpn : parent = node
      · by_cases h0 : node = 0
        · exact Or.inl (hpn.trans h0)
        · exact absurd (hpn ▸ OnChain.here (hpn ▸ h0)) hchain
      · exact Or.inr ⟨hpn, hd⟩
  · intro hi j _ hju hjp
    rcases h.nodes.parent_dir j hju with h0 | hd
    · exact absurd (hjp.symm.trans h0) hi
    · rw [hjp] at hd
      exact hd
  · right
    rwa [renamedNode_parent]
  · intro _ j _ hju hjp
    rw [renamedNode_parent] at hjp
    rw [htext]
    exact h.nodes.no_sibling hchild hju hjp
  · exact fun _ _ _ ↦ ⟨rfl, rfl⟩

end TensorOS
