import TensorOS.Fs.Spec
import TensorOS.Fs.Validate

/-!
# What the validator decides

On a file system that is `Sane`, meaning that it passes every check but the comparison of sibling
names, `runtime_fs_validate` cannot fault and answers `EEXIST` or OK according to whether two
siblings below the root carry the same name. Both a state the operations reach and a state an image
was loaded into are sane, so this one equation serves both.
-/

namespace TensorOS

variable {fs : RuntimeFs}

/-! ## Loops -/

/-- A loop whose rounds answer OK or one fixed status answers that status if some round does. -/
theorem firstStatus_eq_ite {α : Type} {f : α → Except Fault Int} {P : α → Prop} [DecidablePred P]
    {Q : Prop} [Decidable Q] {status : Int} (hstatus : status ≠ Status.ok) {l : List α}
    (hQ : Q ↔ ∃ a ∈ l, P a) (h : ∀ a ∈ l, f a = .ok (if P a then status else Status.ok)) :
    firstStatus f l = .ok (if Q then status else Status.ok) := by
  by_cases hq : Q
  · rw [if_pos hq]
    obtain ⟨a, ha, hPa⟩ := hQ.mp hq
    clear hQ hq
    induction l with
    | nil => simp at ha
    | cons b l ih =>
      rw [firstStatus, h b (by simp), ok_bind]
      by_cases hb : P b
      · simp [hb, hstatus]
      · rcases List.mem_cons.mp ha with rfl | ha
        · exact absurd hPa hb
        · simpa [hb] using ih (fun c hc ↦ h c (by simp [hc])) ha
  · rw [if_neg hq, firstStatus_eq_ok]
    intro a ha
    rw [h a ha, if_neg fun hPa ↦ hq (hQ.mpr ⟨a, ha, hPa⟩)]

/-! ## The checks -/

/-- What the validator checks of a used node below the root, the sibling names apart. -/
structure SaneNode (fs : RuntimeFs) (i : Fin 16) : Prop where
  kind : (fs.nodes i).type = fileTypeDirectory ∨ (fs.nodes i).type = fileTypeRegular
  name_ne : (fs.nodes i).name 0 ≠ 0
  terminated : ∃ k, (fs.nodes i).name k = 0
  parent_lt : (fs.nodes i).parentIndex.toNat < 16
  parent_used : (fs.nodes (fs.nodes i).parent).used ≠ 0
  parent_dir : (fs.nodes (fs.nodes i).parent).type = fileTypeDirectory
  size_le : (fs.nodes i).sizeBytes.toNat ≤ 256
  rooted : Rooted (fun j ↦ (fs.nodes j).parent) 0 i

/-- What the validator checks, the sibling names apart. -/
structure Sane (fs : RuntimeFs) : Prop where
  root : RootIntact fs
  nodes : ∀ i, i ≠ 0 → (fs.nodes i).used ≠ 0 → SaneNode fs i
  slots : ∀ s, (fs.openFiles s).used ≠ 0 → SlotOk fs.nodes (fs.openFiles s)

/-- Node `j` repeats the name of its earlier sibling `i`. -/
def Collides (fs : RuntimeFs) (i j : Fin 16) : Prop :=
  i < j ∧ (fs.nodes j).used ≠ 0 ∧ (fs.nodes j).parentIndex = (fs.nodes i).parentIndex ∧
    (fs.nodes j).text = (fs.nodes i).text

instance (fs : RuntimeFs) (i j : Fin 16) : Decidable (Collides fs i j) :=
  inferInstanceAs (Decidable (_ ∧ _))

theorem SaneNode.val_parent {i : Fin 16} (h : SaneNode fs i) :
    ((fs.nodes i).parent : ℕ) = (fs.nodes i).parentIndex.toNat := by
  rw [RuntimeFsNode.parent, Fin.val_ofNat]
  exact Nat.mod_eq_of_lt h.parent_lt

/-- A parent entry below the number of nodes, as the word the validator reads. -/
theorem RuntimeFsNode.parentIndex_eq {node : RuntimeFsNode} (h : node.parentIndex.toNat < 16) :
    node.parentIndex = UInt32.ofNat node.parent := by
  rw [RuntimeFsNode.parent, Fin.val_ofNat, Nat.mod_eq_of_lt h]
  simp

theorem SaneNode.nodeIndexOf_parent {i : Fin 16} (h : SaneNode fs i) :
    nodeIndexOf (fs.nodes i).parentIndex = .ok (fs.nodes i).parent := by
  rw [RuntimeFsNode.parentIndex_eq h.parent_lt, nodeIndexOf_ofNat]

theorem SaneNode.zero_mem {i : Fin 16} (h : SaneNode fs i) :
    (0 : UInt8) ∈ List.ofFn (fs.nodes i).name := by
  obtain ⟨k, hk⟩ := h.terminated
  rw [← hk]
  exact List.mem_ofFn.mpr ⟨k, rfl⟩

/-! ## One node -/

theorem SaneNode.parentIndex_eq {i : Fin 16} (h : SaneNode fs i) :
    (fs.nodes i).parentIndex = UInt32.ofNat (fs.nodes i).parent :=
  RuntimeFsNode.parentIndex_eq h.parent_lt

/-- The parent walk ends at the root before its count runs out. -/
theorem Sane.validateChain_eq (h : Sane fs) {i : Fin 16} (hi : i ≠ 0)
    (hu : (fs.nodes i).used ≠ 0) : validateChain fs 16 (UInt32.ofNat i) = .ok Status.ok := by
  have hwalk := (h.nodes i hi hu).rooted.walk
    (P := fun left j ↦ (fs.nodes j).used ≠ 0 →
      validateChain fs left (UInt32.ofNat j) = .ok Status.ok)
    (fun left _ ↦ by rw [validateChain, if_pos (ofNat_fin_eq_zero.mpr rfl)]) ?_
  · exact hwalk hu
  · intro left j hj ih hused
    have hnode := h.nodes j hj hused
    rw [validateChain, if_neg (fun hz ↦ hj (ofNat_fin_eq_zero.mp hz)), nodeIndexOf_ofNat, ok_bind]
    simp only [hnode.nodeIndexOf_parent, ok_bind, hnode.parent_used, if_false]
    rw [hnode.parentIndex_eq]
    exact ih hnode.parent_used

theorem Sane.validatePeer_eq (h : Sane fs) {i j : Fin 16} (hi : i ≠ 0)
    (hu : (fs.nodes i).used ≠ 0) (hij : i < j) : validatePeer fs i j
      = .ok (if Collides fs i j then Status.eexist else Status.ok) := by
  unfold validatePeer
  by_cases hpeer : (fs.nodes j).used ≠ 0 ∧ (fs.nodes j).parentIndex = (fs.nodes i).parentIndex
  · have hj : j ≠ 0 := fun hj ↦ absurd hij (by rw [hj]; exact Fin.not_lt_zero i)
    rw [if_pos hpeer, nameEquals_eq (h.nodes j hj hpeer.1).zero_mem (h.nodes i hi hu).zero_mem,
      ok_bind]
    by_cases htext : (fs.nodes j).text = (fs.nodes i).text
    · have hc : Collides fs i j := ⟨hij, hpeer.1, hpeer.2, htext⟩
      rw [if_pos hc, if_pos (by simpa [RuntimeFsNode.text] using htext)]
    · rw [if_neg fun hc : Collides fs i j ↦ htext hc.2.2.2,
        if_neg (by simpa [RuntimeFsNode.text] using htext)]
  · rw [if_neg hpeer, if_neg fun hc : Collides fs i j ↦ hpeer ⟨hc.2.1, hc.2.2.1⟩]

theorem Sane.validateNode_eq (h : Sane fs) {i : Fin 16} (hi : i ≠ 0) : validateNode fs i
      = .ok (if (fs.nodes i).used ≠ 0 ∧ ∃ j, Collides fs i j then Status.eexist
          else Status.ok) := by
  unfold validateNode
  by_cases hu : (fs.nodes i).used = 0
  · simp [hu]
  have hnode := h.nodes i hi hu
  have hkind : ¬((fs.nodes i).type ≠ fileTypeDirectory ∧ (fs.nodes i).type ≠ fileTypeRegular) :=
    fun hk ↦ hnode.kind.elim hk.1 hk.2
  have hempty : ¬fsNameIsEmpty (fs.nodes i).name = true := by
    simpa [fsNameIsEmpty] using hnode.name_ne
  have hlt : ¬(fs.nodes i).parentIndex ≥ 16 := by
    rw [ge_iff_le, UInt32.le_iff_toNat_le]
    exact Nat.not_le.mpr hnode.parent_lt
  have hdir : ¬((fs.nodes (fs.nodes i).parent).used = 0 ∨
      (fs.nodes (fs.nodes i).parent).type ≠ fileTypeDirectory) :=
    fun hd ↦ hd.elim hnode.parent_used fun ht ↦ ht hnode.parent_dir
  have hsize : ¬(fs.nodes i).sizeBytes > fileCapacity := by
    rw [gt_iff_lt, UInt32.lt_iff_toNat_lt]
    exact Nat.not_lt.mpr hnode.size_le
  dsimp only
  rw [if_neg hu, if_neg hkind, if_neg hempty, if_neg hlt, hnode.nodeIndexOf_parent, ok_bind,
    if_neg hdir, if_neg hsize, h.validateChain_eq hi hu, ok_bind, if_neg (not_not.mpr rfl)]
  refine firstStatus_eq_ite (by decide) ⟨?_, ?_⟩ fun j hj ↦
    h.validatePeer_eq hi hu (by simpa using hj)
  · rintro ⟨-, j, hc⟩
    exact ⟨j, by simpa using hc.1, hc⟩
  · rintro ⟨j, -, hc⟩
    exact ⟨hu, j, hc⟩

/-! ## The whole validator -/

theorem Sane.validateSlot_eq (h : Sane fs) (s : Fin 8) :
    validateSlot fs s = .ok Status.ok := by
  unfold validateSlot
  by_cases hu : (fs.openFiles s).used = 0
  · simp [hu]
  have hslot := h.slots s hu
  have hlt : ¬(fs.openFiles s).nodeIndex ≥ 16 := by
    rw [ge_iff_le, UInt32.le_iff_toNat_le]
    exact Nat.not_le.mpr hslot.node_lt
  have hoff : ¬((fs.nodes (fs.openFiles s).node).type = fileTypeRegular ∧
      (fs.openFiles s).offset > fileCapacity) := by
    rintro ⟨-, hgt⟩
    rw [gt_iff_lt, UInt32.lt_iff_toNat_lt] at hgt
    exact absurd hslot.offset_le (Nat.not_le.mpr hgt)
  dsimp only
  rw [if_neg hu, if_neg hlt, hslot.nodeIndexOf_node, ok_bind, if_neg hslot.node_used, if_neg hoff,
    if_neg fun hd ↦ hd.2 (hslot.dir_write hd.1)]

/-- **The validator on a sane file system** reports repeated sibling names and nothing else. -/
theorem Sane.runtimeFsValidate_eq (h : Sane fs) : runtimeFsValidate fs
      = .ok (if ∃ i j, i ≠ 0 ∧ (fs.nodes i).used ≠ 0 ∧ Collides fs i j then Status.eexist
          else Status.ok) := by
  unfold runtimeFsValidate
  have hroot : ¬((fs.nodes 0).used = 0 ∨ (fs.nodes 0).type ≠ fileTypeDirectory ∨
      (fs.nodes 0).parentIndex ≠ 0 ∨ (fs.nodes 0).name 0 ≠ slash ∨ (fs.nodes 0).name 1 ≠ 0) := by
    rintro (hr | hr | hr | hr | hr)
    · exact h.root.used hr
    · exact hr h.root.type
    · exact hr h.root.parentIndex
    · exact hr h.root.name_zero
    · exact hr h.root.name_one
  have hnodes : firstStatus (validateNode fs) ((List.finRange 16).filter (0 < ·))
      = .ok (if ∃ i j, i ≠ 0 ∧ (fs.nodes i).used ≠ 0 ∧ Collides fs i j then Status.eexist
          else Status.ok) := by
    refine firstStatus_eq_ite (by decide) ⟨?_, ?_⟩ fun i hmem ↦
      h.validateNode_eq (by simpa [Fin.pos_iff_ne_zero] using hmem)
    · rintro ⟨i, j, hi, hu, hc⟩
      exact ⟨i, by simpa [Fin.pos_iff_ne_zero] using hi, hu, j, hc⟩
    · rintro ⟨i, hmem, hu, j, hc⟩
      exact ⟨i, j, by simpa [Fin.pos_iff_ne_zero] using hmem, hu, hc⟩
  have hslots : firstStatus (validateSlot fs) (List.finRange 8) = .ok Status.ok :=
    firstStatus_eq_ok.mpr fun s _ ↦ h.validateSlot_eq s
  dsimp only
  rw [if_neg hroot, hnodes, ok_bind]
  split
  · rfl
  · exact hslots

/-- A file system that the validator accepts has its root. -/
theorem rootIntact_of_validate (h : runtimeFsValidate fs = .ok Status.ok) : RootIntact fs := by
  unfold runtimeFsValidate at h
  dsimp only at h
  split at h
  · exact absurd (Except.ok.inj h) (by decide)
  · next hroot =>
    simp only [not_or, not_not] at hroot
    exact ⟨hroot.1, hroot.2.1, hroot.2.2.1, hroot.2.2.2.1, hroot.2.2.2.2⟩

/-! ## Sound file systems -/

theorem NodeOk.name_ne {node : RuntimeFsNode} (h : NodeOk node) (hu : node.used ≠ 0) :
    node.name 0 ≠ 0 := by
  intro h0
  apply h.text_ne hu
  rw [RuntimeFsNode.text, List.ofFn_succ, h0]
  exact cstr_cons_zero

/-- A sound file system whose root is in place passes every check. -/
theorem Sound.sane (h : Sound fs) (hroot : RootIntact fs) : Sane fs where
  root := hroot
  nodes i _ hu := by
    have hparent : (fs.nodes (fs.nodes i).parent).used ≠ 0 ∧
        (fs.nodes (fs.nodes i).parent).type = fileTypeDirectory := by
      rcases h.nodes.parent_dir i hu with h0 | hd
      · rw [h0]
        exact ⟨hroot.used, hroot.type⟩
      · exact hd
    have hn := h.nodes.node i
    exact ⟨hn.kind hu, hn.name_ne hu, hn.terminated hu, hn.parent_lt, hparent.1, hparent.2,
      hn.size_le, h.nodes.rooted i⟩
  slots := h.slots

theorem Sound.runtimeFsValidate_eq (h : Sound fs) (hroot : RootIntact fs) :
    runtimeFsValidate fs = .ok Status.ok := by
  rw [(h.sane hroot).runtimeFsValidate_eq, if_neg]
  rintro ⟨i, j, -, hu, hij, hju, hpar, htext⟩
  have hparent : (fs.nodes j).parent = (fs.nodes i).parent := by
    rw [RuntimeFsNode.parent, hpar]
    rfl
  exact absurd (h.nodes.siblings j i hju hu hparent htext) (Fin.ne_of_gt hij)

end TensorOS
