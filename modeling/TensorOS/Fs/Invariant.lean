import TensorOS.Fs.Ops
import TensorOS.Fs.Walk
import TensorOS.Lib.Rooted

/-!
# The invariant of the file system

`Sound` is what every operation keeps, whatever its arguments. It says nothing about node 0 being
the intact root: a path such as `//` names node 0 without being recognised as the root, so a
remove or a rename can take the root away, and the invariant has to survive that. What the
operations rely on afterwards is only that chains of parents *end* at index 0, which no operation
can break. `RootIntact` adds the rest for runs that never touch the root.

The invariant has a part about each node alone (`NodeOk`), a part about the parent map and sibling
names (`NodesSound`), and a part about the open slots (`SlotOk`). Every mutation of a node goes
through `NodesSound.update`, which lists what replacing one node must respect.
-/

namespace TensorOS

/-! ## One node -/

/-- The parent entry as an index. -/
def RuntimeFsNode.parent (node : RuntimeFsNode) : Fin 16 := Fin.ofNat 16 node.parentIndex.toNat

/-- What holds of each node by itself. -/
structure NodeOk (node : RuntimeFsNode) : Prop where
  flag : node.used = 0 ∨ node.used = 1
  parent_lt : node.parentIndex.toNat < 16
  unused_type : node.used = 0 → node.type = fileTypeUnknown
  kind : node.used ≠ 0 → node.type = fileTypeDirectory ∨ node.type = fileTypeRegular
  terminated : node.used ≠ 0 → ∃ k, node.name k = 0
  text_ne : node.used ≠ 0 → node.text ≠ []
  size_le : node.sizeBytes.toNat ≤ 256
  dir_size : node.type = fileTypeDirectory → node.sizeBytes = 0
  /-- The bytes past the recorded size are zero. -/
  tail_zero : ∀ k : Fin 256, node.sizeBytes.toNat ≤ k → node.data k = 0

theorem NodeOk.val_parent {node : RuntimeFsNode} (h : NodeOk node) :
    (node.parent : ℕ) = node.parentIndex.toNat := by
  rw [RuntimeFsNode.parent, Fin.val_ofNat]
  exact Nat.mod_eq_of_lt h.parent_lt

theorem NodeOk.nodeIndexOf_parent {node : RuntimeFsNode} (h : NodeOk node) :
    nodeIndexOf node.parentIndex = .ok node.parent := by
  rw [nodeIndexOf_eq_ok h.parent_lt]
  exact congrArg Except.ok (Fin.ext h.val_parent.symm)

/-! ## The node array -/

/-- What holds of the node array. -/
structure NodesSound (nodes : Fin 16 → RuntimeFsNode) : Prop where
  node : ∀ i, NodeOk (nodes i)
  root_type : (nodes 0).used ≠ 0 → (nodes 0).type = fileTypeDirectory
  root_owner : (nodes 0).ownerPid = 0
  text_slash : ∀ i, i ≠ 0 → (nodes i).used ≠ 0 → slash ∉ (nodes i).text
  parent_dir : ∀ i, (nodes i).used ≠ 0 → (nodes i).parent = 0 ∨
    (nodes (nodes i).parent).used ≠ 0 ∧ (nodes (nodes i).parent).type = fileTypeDirectory
  rooted : ∀ i, Rooted (fun j ↦ (nodes j).parent) 0 i
  siblings : ∀ i j, (nodes i).used ≠ 0 → (nodes j).used ≠ 0 →
    (nodes i).parent = (nodes j).parent → (nodes i).text = (nodes j).text → i = j

theorem NodesSound.used_of_onChain {nodes : Fin 16 → RuntimeFsNode} (h : NodesSound nodes)
    {n i : Fin 16} (hi : (nodes i).used ≠ 0)
    (hc : OnChain (fun j ↦ (nodes j).parent) 0 n i) : (nodes n).used ≠ 0 := by
  refine hc.induct_up (P := fun j ↦ (nodes j).used ≠ 0) (fun j _ hj hne ↦ ?_) hi
  rcases h.parent_dir j hj with h0 | hp
  · exact absurd h0 hne
  · exact hp.1

/-- Everything above a used node, apart from the node itself, is a directory. -/
theorem NodesSound.dir_of_onChain {nodes : Fin 16 → RuntimeFsNode} (h : NodesSound nodes)
    {n i : Fin 16} (hi : (nodes i).used ≠ 0 ∧ (nodes i).type = fileTypeDirectory)
    (hc : OnChain (fun j ↦ (nodes j).parent) 0 n i) : (nodes n).type = fileTypeDirectory := by
  refine (hc.induct_up (P := fun j ↦ (nodes j).used ≠ 0 ∧ (nodes j).type = fileTypeDirectory)
    (fun j _ hj hne ↦ ?_) hi).2
  rcases h.parent_dir j hj.1 with h0 | hp
  · exact absurd h0 hne
  · exact hp

/-- **Replacing one node.** The new node's parent must be the root or a directory, nodes below must
still find a directory above them, the new parent's chain must avoid the node, and no sibling may
carry the new name. -/
theorem NodesSound.update {nodes : Fin 16 → RuntimeFsNode} (h : NodesSound nodes) {i : Fin 16}
    {n : RuntimeFsNode} (hn : NodeOk n)
    (hroot : i = 0 → (n.used ≠ 0 → n.type = fileTypeDirectory) ∧ n.ownerPid = 0)
    (hslash : i ≠ 0 → n.used ≠ 0 → slash ∉ n.text)
    (hparent : n.used ≠ 0 → n.parent = 0 ∨ n.parent ≠ i ∧
      (nodes n.parent).used ≠ 0 ∧ (nodes n.parent).type = fileTypeDirectory)
    (hbelow : i ≠ 0 → ∀ j, j ≠ i → (nodes j).used ≠ 0 → (nodes j).parent = i →
      n.used ≠ 0 ∧ n.type = fileTypeDirectory)
    (hchain : n.parent = (nodes i).parent ∨ ¬OnChain (fun j ↦ (nodes j).parent) 0 i n.parent)
    (hsib : n.used ≠ 0 → ∀ j, j ≠ i → (nodes j).used ≠ 0 → (nodes j).parent = n.parent →
      (nodes j).text ≠ n.text) :
    NodesSound (Function.update nodes i n) := by
  have hself : Function.update nodes i n i = n := Function.update_self ..
  have hother : ∀ j, j ≠ i → Function.update nodes i n j = nodes j :=
    fun j hj ↦ Function.update_of_ne hj ..
  have hparents : (fun j ↦ (Function.update nodes i n j).parent)
      = Function.update (fun j ↦ (nodes j).parent) i n.parent := by
    funext j
    by_cases hj : j = i
    · rw [hj, hself, Function.update_self]
    · rw [hother j hj, Function.update_of_ne hj]
  refine ⟨fun j ↦ ?_, ?_, ?_, fun j hj0 hju ↦ ?_, fun j hju ↦ ?_, fun j ↦ ?_,
    fun j k hju hku hp ht ↦ ?_⟩
  · by_cases hj : j = i
    · rwa [hj, hself]
    · rw [hother j hj]
      exact h.node j
  · by_cases hi : (0 : Fin 16) = i
    · rw [hi, hself]
      exact (hroot hi.symm).1
    · rw [hother 0 hi]
      exact h.root_type
  · by_cases hi : (0 : Fin 16) = i
    · rw [hi, hself]
      exact (hroot hi.symm).2
    · rw [hother 0 hi]
      exact h.root_owner
  · by_cases hj : j = i
    · subst hj
      rw [hself] at hju ⊢
      exact hslash hj0 hju
    · rw [hother j hj] at hju ⊢
      exact h.text_slash j hj0 hju
  · by_cases hj : j = i
    · subst hj
      rw [hself] at hju ⊢
      rcases hparent hju with h0 | ⟨hne, hp⟩
      · exact Or.inl h0
      · rw [hother _ hne]
        exact Or.inr hp
    · rw [hother j hj] at hju ⊢
      by_cases hpi : (nodes j).parent = i
      · by_cases hi0 : i = 0
        · exact Or.inl (hpi.trans hi0)
        · rw [hpi, hself]
          exact Or.inr (hbelow hi0 j hj hju hpi)
      · rw [hother _ hpi]
        exact h.parent_dir j hju
  · rw [hparents]
    rcases hchain with heq | hnot
    · rw [heq, Function.update_eq_self]
      exact h.rooted j
    · exact (h.rooted n.parent).update hnot (h.rooted j)
  · by_cases hj : j = i
    · subst hj
      by_cases hk : k = j
      · exact hk.symm
      · rw [hself] at hju hp ht
        rw [hother k hk] at hku hp ht
        exact absurd ht.symm (hsib hju k hk hku hp.symm)
    · by_cases hk : k = i
      · subst hk
        rw [hself] at hku hp ht
        rw [hother j hj] at hju hp ht
        exact absurd ht (hsib hku j hj hju hp)
      · rw [hother j hj] at hju hp ht
        rw [hother k hk] at hku hp ht
        exact h.siblings j k hju hku hp ht

/-- Replacing a node by one with the same place in the tree and other contents. -/
theorem NodesSound.update_contents {nodes : Fin 16 → RuntimeFsNode} (h : NodesSound nodes)
    {i : Fin 16} {n : RuntimeFsNode} (hn : NodeOk n) (hused : n.used = (nodes i).used)
    (htype : n.type = (nodes i).type) (hpar : n.parentIndex = (nodes i).parentIndex)
    (howner : n.ownerPid = (nodes i).ownerPid) (hname : n.name = (nodes i).name) :
    NodesSound (Function.update nodes i n) := by
  have hp : n.parent = (nodes i).parent := by rw [RuntimeFsNode.parent, hpar]; rfl
  have ht : n.text = (nodes i).text := by rw [RuntimeFsNode.text, hname]; rfl
  refine h.update hn (fun hi ↦ ?_) (fun hi hu ↦ ?_) (fun hu ↦ ?_) (fun hi j _ hju hjp ↦ ?_)
    (Or.inl hp) fun hu j hj hju hjp ↦ ?_
  · subst hi
    rw [hused, htype, howner]
    exact ⟨h.root_type, h.root_owner⟩
  · rw [ht]
    exact h.text_slash i hi (hused ▸ hu)
  · rw [hp]
    rw [hused] at hu
    rcases h.parent_dir i hu with h0 | hd
    · exact Or.inl h0
    · by_cases hi : i = 0
      · subst hi
        by_cases hself : (nodes 0).parent = 0
        · exact Or.inl hself
        · exact Or.inr ⟨hself, hd⟩
      · exact Or.inr ⟨(h.rooted i).parent_ne hi, hd⟩
  · rw [hused, htype]
    rcases h.parent_dir j hju with h0 | hd
    · exact absurd (hjp.symm.trans h0) hi
    · rwa [hjp] at hd
  · rw [ht]
    exact fun heq ↦ hj (h.siblings j i hju (hused ▸ hu) (hjp.trans hp) heq)

/-! ## Open slots -/

/-- The node entry of a slot as an index. -/
def RuntimeFsOpenFile.node (openFile : RuntimeFsOpenFile) : Fin 16 :=
  Fin.ofNat 16 openFile.nodeIndex.toNat

/-- What holds of each used slot. -/
structure SlotOk (nodes : Fin 16 → RuntimeFsNode) (openFile : RuntimeFsOpenFile) : Prop where
  node_lt : openFile.nodeIndex.toNat < 16
  node_used : (nodes openFile.node).used ≠ 0
  offset_le : openFile.offset.toNat ≤ 256
  dir_write : (nodes openFile.node).type = fileTypeDirectory → openFile.flags &&& openWrite = 0

theorem SlotOk.val_node {nodes : Fin 16 → RuntimeFsNode} {openFile : RuntimeFsOpenFile}
    (h : SlotOk nodes openFile) : (openFile.node : ℕ) = openFile.nodeIndex.toNat := by
  rw [RuntimeFsOpenFile.node, Fin.val_ofNat]
  exact Nat.mod_eq_of_lt h.node_lt

theorem SlotOk.nodeIndexOf_node {nodes : Fin 16 → RuntimeFsNode} {openFile : RuntimeFsOpenFile}
    (h : SlotOk nodes openFile) : nodeIndexOf openFile.nodeIndex = .ok openFile.node := by
  rw [nodeIndexOf_eq_ok h.node_lt]
  exact congrArg Except.ok (Fin.ext h.val_node.symm)

/-- A slot does not notice a node update that keeps the use and the type of its own node. -/
theorem SlotOk.update {nodes : Fin 16 → RuntimeFsNode} {openFile : RuntimeFsOpenFile}
    (h : SlotOk nodes openFile) {i : Fin 16} {n : RuntimeFsNode}
    (hi : openFile.node = i → n.used = (nodes i).used ∧ n.type = (nodes i).type) :
    SlotOk (Function.update nodes i n) openFile := by
  by_cases hni : openFile.node = i
  · obtain ⟨hu, ht⟩ := hi hni
    have hself : Function.update nodes i n openFile.node = n := by
      rw [hni, Function.update_self]
    refine ⟨h.node_lt, ?_, h.offset_le, ?_⟩
    · rw [hself, hu, ← hni]
      exact h.node_used
    · rw [hself, ht, ← hni]
      exact h.dir_write
  · have hother : Function.update nodes i n openFile.node = nodes openFile.node :=
      Function.update_of_ne hni ..
    exact ⟨h.node_lt, hother ▸ h.node_used, h.offset_le, hother ▸ h.dir_write⟩

/-! ## The whole file system -/

/-- The invariant of every operation. -/
structure Sound (fs : RuntimeFs) : Prop where
  nodes : NodesSound fs.nodes
  slots : ∀ s, (fs.openFiles s).used ≠ 0 → SlotOk fs.nodes (fs.openFiles s)

theorem Sound.terminated {fs : RuntimeFs} (h : Sound fs) : fs.Terminated :=
  fun i hi ↦ (h.nodes.node i).terminated hi

theorem Sound.setOpen {fs : RuntimeFs} (h : Sound fs) {s : Fin 8} {o : RuntimeFsOpenFile}
    (ho : o.used ≠ 0 → SlotOk fs.nodes o) : Sound (fs.setOpen s o) := by
  refine ⟨h.nodes, fun t ht ↦ ?_⟩
  by_cases hts : t = s
  · subst hts
    rw [RuntimeFs.setOpen_openFiles_self] at ht ⊢
    exact ho ht
  · rw [RuntimeFs.setOpen_openFiles_of_ne hts] at ht ⊢
    exact h.slots t ht

/-- Replacing a node that no slot refers to, or whose use and type stay. -/
theorem Sound.setNode {fs : RuntimeFs} (h : Sound fs) {i : Fin 16} {n : RuntimeFsNode}
    (hn : NodesSound (Function.update fs.nodes i n))
    (hslot : ∀ s, (fs.openFiles s).used ≠ 0 → (fs.openFiles s).node = i →
      n.used = (fs.nodes i).used ∧ n.type = (fs.nodes i).type) : Sound (fs.setNode i n) :=
  ⟨hn, fun s hs ↦ (h.slots s hs).update (hslot s hs)⟩

/-- Node 0 is the root directory `/`. -/
structure RootIntact (fs : RuntimeFs) : Prop where
  used : (fs.nodes 0).used ≠ 0
  type : (fs.nodes 0).type = fileTypeDirectory
  parentIndex : (fs.nodes 0).parentIndex = 0
  name_zero : (fs.nodes 0).name 0 = slash
  name_one : (fs.nodes 0).name 1 = 0

theorem RootIntact.setNode {fs : RuntimeFs} (h : RootIntact fs) {i : Fin 16} (hi : i ≠ 0)
    (n : RuntimeFsNode) : RootIntact (fs.setNode i n) := by
  have h0 : (fs.setNode i n).nodes 0 = fs.nodes 0 :=
    RuntimeFs.setNode_nodes_of_ne (Ne.symm hi)
  exact ⟨h0 ▸ h.used, h0 ▸ h.type, h0 ▸ h.parentIndex, h0 ▸ h.name_zero, h0 ▸ h.name_one⟩

/-! ## The initial state -/

theorem nodeOk_zero : NodeOk RuntimeFsNode.zero where
  flag := Or.inl rfl
  parent_lt := by decide
  unused_type := fun _ ↦ rfl
  kind := fun h ↦ absurd rfl h
  terminated := fun h ↦ absurd rfl h
  text_ne := fun h ↦ absurd rfl h
  size_le := by decide
  dir_size := fun _ ↦ rfl
  tail_zero := fun _ _ ↦ rfl

theorem runtimeFsInit_nodes_of_ne {i : Fin 16} (hi : i ≠ 0) :
    runtimeFsInit.nodes i = RuntimeFsNode.zero := by
  simp only [runtimeFsInit]
  exact Function.update_of_ne hi ..

theorem rootIntact_init : RootIntact runtimeFsInit := by
  constructor <;> decide

theorem sound_init : Sound runtimeFsInit := by
  have hzero : ∀ i, i ≠ 0 → (runtimeFsInit.nodes i).used = 0 := fun i hi ↦ by
    rw [runtimeFsInit_nodes_of_ne hi]
    rfl
  have honly : ∀ i, (runtimeFsInit.nodes i).used ≠ 0 → i = 0 := fun i hu ↦ by
    by_contra hi
    exact hu (hzero i hi)
  have hparent : ∀ i, (runtimeFsInit.nodes i).parent = 0 := by decide
  refine ⟨⟨fun i ↦ ?_, fun _ ↦ by decide, by decide, fun i hi hu ↦ absurd (honly i hu) hi,
    fun i _ ↦ Or.inl (hparent i), fun i ↦ ?_, fun i j hi hj _ _ ↦ ?_⟩, fun s hs ↦ ?_⟩
  · by_cases hi : i = 0
    · subst hi
      exact ⟨Or.inr rfl, by decide, fun h ↦ absurd h (by decide), fun _ ↦ Or.inl rfl,
        fun _ ↦ ⟨1, by decide⟩, fun _ ↦ by decide, by decide, fun _ ↦ by decide, fun _ _ ↦ rfl⟩
    · rw [runtimeFsInit_nodes_of_ne hi]
      exact nodeOk_zero
  · by_cases hi : i = 0
    · rw [hi]
      exact .root
    · refine .step hi ?_
      simp only [hparent]
      exact .root
  · rw [honly i hi, honly j hj]
  · exact absurd rfl hs

end TensorOS
