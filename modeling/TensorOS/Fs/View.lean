import TensorOS.Fs.Rename
import TensorOS.Fs.Store

/-!
# The store that a file system represents

The entries of the store are the used nodes, each at the names on its chain, and its handles are the
used slots. A path is looked up in the store exactly as the walkers look it up in the node array,
and each of the six ways in which the node array changes is one change of the store.
-/

namespace TensorOS

/-! ## The view -/

/-- What a node holds. -/
def RuntimeFsNode.entry (node : RuntimeFsNode) : FileEntry where
  owner := node.ownerPid
  mode := node.mode
  kind := if node.type = fileTypeDirectory then .directory else .regular node.contents

/-- The handle a slot is. -/
def RuntimeFs.handle (fs : RuntimeFs) (o : RuntimeFsOpenFile) : Option FileHandle :=
  if o.used = 0 then none else some ⟨fs.chainNames o.node, o.flags, o.offset.toNat⟩

/-- The store of a file system. -/
noncomputable def RuntimeFs.view (fs : RuntimeFs) : FileStore where
  tree := .ofPaths (fun i ↦ (fs.nodes i).used ≠ 0) fs.chainNames fun i ↦ (fs.nodes i).entry
  handles := fun s ↦ fs.handle (fs.openFiles s)

theorem RuntimeFs.view_tree (fs : RuntimeFs) : fs.view.tree
    = .ofPaths (fun i ↦ (fs.nodes i).used ≠ 0) fs.chainNames fun i ↦ (fs.nodes i).entry := rfl

theorem RuntimeFs.view_handles (fs : RuntimeFs) (s : Fin 8) :
    fs.view.handles s = fs.handle (fs.openFiles s) := rfl

/-- A sound file system whose root is in place. -/
structure Intact (fs : RuntimeFs) : Prop where
  sound : Sound fs
  root : RootIntact fs

theorem FileStore.ext {S S' : FileStore} (htree : S.tree = S'.tree)
    (hhandles : S.handles = S'.handles) : S = S' := by
  cases S
  cases S'
  congr

variable {fs fs' : RuntimeFs} {i j q : Fin 16} {s : Fin 8} {e : FileEntry}
  {names : List (List UInt8)} {n : RuntimeFsNode}

theorem RuntimeFsNode.entry_allows (node : RuntimeFsNode) (pid : UInt32) :
    node.entry.allows pid = fsNodeOwnerAllows node pid := rfl

theorem RuntimeFsNode.entry_kind_eq_directory {node : RuntimeFsNode} :
    node.entry.kind = .directory ↔ node.type = fileTypeDirectory := by
  rw [entry]
  split
  · next h => simp [h]
  · next h => simp [h]

theorem RuntimeFsNode.entry_kind_of_regular {node : RuntimeFsNode}
    (h : node.type = fileTypeRegular) : node.entry.kind = .regular node.contents := by
  rw [entry, if_neg]
  rw [h]
  decide

theorem fsModeCheck_entry {node : RuntimeFsNode}
    (h : node.type = fileTypeDirectory ∨ node.type = fileTypeRegular) (flags : UInt32) :
    fsOpenModeCheck node flags = node.entry.modeCheck flags := by
  have hkind : ¬(node.type ≠ fileTypeDirectory ∧ node.type ≠ fileTypeRegular) := by
    rintro ⟨hd, hr⟩
    exact h.elim hd hr
  simp only [fsOpenModeCheck, FileEntry.modeCheck, RuntimeFsNode.entry_kind_eq_directory, hkind,
    if_false]
  rfl

/-! ## Elements and their names -/

namespace Intact

theorem named (h : Intact fs) : Named fs := h.sound.named h.root

theorem parent_used (h : Intact fs) (hi : (fs.nodes i).used ≠ 0) :
    (fs.nodes (fs.nodes i).parent).used ≠ 0 := by
  rcases h.sound.nodes.parent_dir i hi with h0 | hd
  · rw [h0]
    exact h.root.used
  · exact hd.1

theorem parent_type (h : Intact fs) (hi : (fs.nodes i).used ≠ 0) :
    (fs.nodes (fs.nodes i).parent).type = fileTypeDirectory := by
  rcases h.sound.nodes.parent_dir i hi with h0 | hd
  · rw [h0]
    exact h.root.type
  · exact hd.2

theorem kind (h : Intact fs) (hi : (fs.nodes i).used ≠ 0) :
    (fs.nodes i).type = fileTypeDirectory ∨ (fs.nodes i).type = fileTypeRegular :=
  (h.sound.nodes.node i).kind hi

/-- Different used nodes have different chains of names. -/
theorem chain_inj (h : Intact fs) (hi : (fs.nodes i).used ≠ 0) (hj : (fs.nodes j).used ≠ 0)
    (heq : fs.chainNames i = fs.chainNames j) : i = j := by
  have hsiblings : ∀ a b, (fs.nodes a).used ≠ 0 → (fs.nodes b).used ≠ 0 → a ≠ 0 → b ≠ 0 →
      (fs.nodes a).parent = (fs.nodes b).parent → (fs.nodes a).text = (fs.nodes b).text → a = b :=
    fun a b ha hb _ _ hparent htext ↦ h.sound.nodes.siblings a b ha hb hparent htext
  have hup : ∀ k, (fs.nodes k).used ≠ 0 → k ≠ 0 → (fs.nodes (fs.nodes k).parent).used ≠ 0 :=
    fun k hk _ ↦ h.parent_used hk
  exact trail_inj hup (fun k _ ↦ h.sound.nodes.rooted k) hsiblings hi hj heq

theorem chain_eq (h : Intact fs) (hi : i ≠ 0) (hu : (fs.nodes i).used ≠ 0) :
    fs.chainNames i = fs.chainNames (fs.nodes i).parent ++ [(fs.nodes i).text] :=
  h.named.chainNames_eq hi hu

theorem onChain_iff (h : Intact fs) (hi : i ≠ 0) (hu : (fs.nodes i).used ≠ 0)
    (hj : (fs.nodes j).used ≠ 0) : OnChain (fun j ↦ (fs.nodes j).parent) 0 i j ↔
      fs.chainNames i <+: fs.chainNames j := by
  have hup : ∀ k, (fs.nodes k).used ≠ 0 → k ≠ 0 → (fs.nodes (fs.nodes k).parent).used ≠ 0 :=
    fun k hk _ ↦ h.parent_used hk
  exact onChain_iff_prefix (fun _ _ ha hb heq ↦ h.chain_inj ha hb heq) hup
    (fun k _ ↦ h.sound.nodes.rooted k) hu hi hj

/-! ## Looking up -/

theorem tree_eq_some_iff (h : Intact fs) : fs.view.tree names = some e ↔
    ∃ i, (fs.nodes i).used ≠ 0 ∧ fs.chainNames i = names ∧ (fs.nodes i).entry = e := by
  rw [RuntimeFs.view_tree]
  exact PathTree.ofPaths_eq_some_iff fun _ _ ha hb heq ↦ h.chain_inj ha hb heq

theorem tree_chain (h : Intact fs) (hi : (fs.nodes i).used ≠ 0) :
    fs.view.tree (fs.chainNames i) = some (fs.nodes i).entry :=
  h.tree_eq_some_iff.mpr ⟨i, hi, rfl, rfl⟩

theorem allows_chain (h : Intact fs) (hi : (fs.nodes i).used ≠ 0) (pid : UInt32) :
    fs.view.allows (fs.chainNames i) pid = fsNodeOwnerAllows (fs.nodes i) pid := by
  rw [FileStore.allows, h.tree_chain hi]
  rfl

/-- A path names in the store what it names in the file system. -/
theorem tree_names (h : Intact fs) {p : CString} (h₀ : p.charAt 0 = slash) :
    fs.view.tree p.names = (fs.resolve (some p)).map fun i ↦ (fs.nodes i).entry := by
  ext e
  rw [h.tree_eq_some_iff, Option.map_eq_some_iff]
  refine exists_congr fun i ↦ ?_
  rw [h.named.resolve_eq_some_iff]
  simp only [h₀, true_and, CString.names, and_assoc]

theorem resolve_eq_some (h : Intact fs) {p : CString} (hi : fs.resolve (some p) = some i) :
    (fs.nodes i).used ≠ 0 ∧ p.names = fs.chainNames i := by
  obtain ⟨-, hu, hchain⟩ := h.named.resolve_eq_some_iff.mp hi
  exact ⟨hu, hchain.symm⟩

theorem tree_child (h : Intact fs) (hq : (fs.nodes q).used ≠ 0) {tok : List UInt8}
    (htok : slash ∉ tok) (hlen : tok.length < 16) :
    fs.view.tree (fs.chainNames q ++ [tok])
      = (fs.child q tok).map fun i ↦ (fs.nodes i).entry := by
  have hcomponent : fs.component q tok = fs.child q tok := by
    rw [RuntimeFs.component, if_neg (by omega)]
  ext e
  rw [h.tree_eq_some_iff, Option.map_eq_some_iff, ← hcomponent]
  refine exists_congr fun i ↦ ?_
  rw [h.named.isLookup.find htok]
  constructor
  · rintro ⟨hu, hchain, he⟩
    have hi : i ≠ 0 := by
      rintro rfl
      rw [Named.chainNames_root] at hchain
      exact absurd hchain.symm (by simp)
    rw [h.chain_eq hi hu] at hchain
    obtain ⟨hparent, htext⟩ := List.append_inj' hchain rfl
    exact ⟨⟨hu, hi, h.chain_inj (h.parent_used hu) hq hparent, by simpa using htext⟩, he⟩
  · rintro ⟨⟨hu, hi, rfl, rfl⟩, he⟩
    exact ⟨hu, h.chain_eq hi hu, he⟩

theorem chain_child (h : Intact fs) {tok : List UInt8} (htok : slash ∉ tok)
    (hlen : tok.length < 16) (hi : fs.child q tok = some i) :
    (fs.nodes i).used ≠ 0 ∧ fs.chainNames i = fs.chainNames q ++ [tok] := by
  have hcomponent : fs.component q tok = some i := by
    rw [RuntimeFs.component, if_neg (by omega), hi]
  obtain ⟨hu, hi0, rfl, rfl⟩ := (h.named.isLookup.find htok).mp hcomponent
  exact ⟨hu, h.chain_eq hi0 hu⟩

theorem parentWalk_eq (h : Intact fs) {tok : List UInt8} {rest : List (List UInt8)}
    (hq : (fs.nodes q).used ≠ 0) (hlegal : ∀ n ∈ tok :: rest, slash ∉ n) (hlen : tok.length < 16) :
    fs.view.parentWalk (fs.chainNames q) tok rest
      = (fs.parentWalk q tok rest).map fun found ↦ fs.chainNames found.2 := by
  induction rest generalizing q tok with
  | nil => rfl
  | cons next rest ih =>
    rw [FileStore.parentWalk, RuntimeFs.parentWalk]
    by_cases hlong : 16 ≤ next.length
    · rw [if_pos hlong, if_pos hlong]
      rfl
    rw [if_neg hlong, if_neg hlong, h.tree_child hq (hlegal tok (by simp)) hlen]
    cases hchild : fs.child q tok with
    | none => rfl
    | some i =>
      obtain ⟨hu, hchain⟩ := h.chain_child (hlegal tok (by simp)) hlen hchild
      simp only [Option.map_some, RuntimeFsNode.entry_kind_eq_directory, ne_eq]
      by_cases hdir : (fs.nodes i).type = fileTypeDirectory
      · rw [if_pos hdir, if_neg (not_not.mpr hdir), ← hchain]
        exact ih hu (fun n hn ↦ hlegal n (List.mem_cons_of_mem _ hn)) (by omega)
      · rw [if_neg hdir, if_pos hdir]
        rfl

theorem parent_names (h : Intact fs) {p : CString} (h₀ : p.charAt 0 = slash) :
    fs.view.parent p.names
      = (fs.resolveParent (some p)).map fun found ↦ fs.chainNames found.2 := by
  rw [RuntimeFs.resolveParent, if_pos h₀, CString.names]
  cases hnames : components slash p.chars with
  | nil => rfl
  | cons tok rest =>
    rw [FileStore.parent]
    by_cases hlong : 16 ≤ tok.length
    · simp only [hlong, if_true]
      rfl
    simp only [hlong, if_false]
    have hroot : fs.chainNames 0 = [] := Named.chainNames_root
    rw [← hroot]
    refine h.parentWalk_eq h.root.used (fun n hn ↦ ?_) (by omega)
    exact (mem_components slash (hnames ▸ hn)).2.1

theorem resolveParent_eq_ok (h : Intact fs) {p : CString} {leaf : List UInt8} {parent : Fin 16}
    (hp : fs.resolveParent (some p) = .ok (leaf, parent)) :
    (fs.nodes parent).used ≠ 0 ∧ p.names = fs.chainNames parent ++ [leaf] := by
  have hused : (fs.nodes parent).used ≠ 0 := by
    rcases (RuntimeFs.resolveParent_eq_ok hp).2.2.2.2.1 with rfl | hd
    · exact h.root.used
    · exact hd.1
  obtain ⟨before, hnames, hbefore⟩ := RuntimeFs.resolveParent_descend hp
  have hlegal : ∀ n ∈ before, slash ∉ n := fun n hn ↦
    (mem_components slash (l := p.chars) (by rw [hnames]; exact List.mem_append_left _ hn)).2.1
  have htrail := (h.named.isLookup.descend_eq_some_iff (fun j hj _ ↦ Or.inr (h.parent_used hj))
    (fun j _ ↦ h.sound.nodes.rooted j) hlegal).mp hbefore
  exact ⟨hused, by rw [CString.names, hnames, ← htrail.2]; rfl⟩

theorem full_iff (h : Intact fs) : fs.view.Full ↔ ∀ i, i ≠ 0 → (fs.nodes i).used ≠ 0 := by
  have hcount : {names | fs.view.tree names ≠ none}.ncard
      = {i | (fs.nodes i).used ≠ 0}.ncard := by
    rw [RuntimeFs.view_tree]
    exact PathTree.ncard_ofPaths fun _ _ ha hb heq ↦ h.chain_inj ha hb heq
  have huniv : (Set.univ : Set (Fin 16)).ncard = 16 := by
    rw [Set.ncard_univ, Nat.card_eq_fintype_card, Fintype.card_fin]
  rw [FileStore.Full, hcount]
  constructor
  · intro hfull i _
    have hall : {i | (fs.nodes i).used ≠ 0} = Set.univ := by
      refine Set.eq_of_subset_of_ncard_le (Set.subset_univ _) ?_
      rw [hfull, huniv]
    have hmem : i ∈ {i | (fs.nodes i).used ≠ 0} := by
      rw [hall]
      exact Set.mem_univ i
    exact hmem
  · intro hall
    have hset : {i | (fs.nodes i).used ≠ 0} = Set.univ := by
      refine Set.eq_univ_of_forall fun i ↦ ?_
      by_cases hi : i = 0
      · rw [hi]
        exact h.root.used
      · exact hall i hi
    rw [hset, huniv]

theorem hasChildren_iff (h : Intact fs) (hi : (fs.nodes i).used ≠ 0) (hi0 : i ≠ 0) :
    fs.view.HasChildren (fs.chainNames i) ↔ fsNodeHasChildren fs i = true := by
  have hloop : fsNodeHasChildren fs i = true ↔
      ∃ j, (fs.nodes j).used ≠ 0 ∧ (fs.nodes j).parent = i ∧ j ≠ i := by
    rw [fsNodeHasChildren, List.any_eq_true]
    simp only [List.mem_finRange, true_and, decide_eq_true_eq]
    refine exists_congr fun j ↦ ?_
    rw [← (h.sound.nodes.node j).val_parent, Fin.ext_iff]
  rw [hloop, FileStore.HasChildren]
  constructor
  · rintro ⟨name, hname⟩
    obtain ⟨e, he⟩ := Option.ne_none_iff_exists'.mp hname
    obtain ⟨j, hj, hchain, -⟩ := h.tree_eq_some_iff.mp he
    have hj0 : j ≠ 0 := by
      rintro rfl
      rw [Named.chainNames_root] at hchain
      exact absurd hchain.symm (by simp)
    rw [h.chain_eq hj0 hj] at hchain
    have hparent := h.chain_inj (h.parent_used hj) hi (List.append_inj' hchain rfl).1
    refine ⟨j, hj, hparent, ?_⟩
    rintro rfl
    exact (h.sound.nodes.rooted j).parent_ne hj0 hparent
  · rintro ⟨j, hj, rfl, -⟩
    have hj0 : j ≠ 0 := by
      rintro rfl
      exact hi0 h.root.parent_eq
    exact ⟨(fs.nodes j).text, by rw [← h.chain_eq hj0 hj, h.tree_chain hj]; simp⟩

/-! ## Handles -/

theorem handle_any (h : Intact fs) (hi : (fs.nodes i).used ≠ 0) (P : UInt32 → Bool) (s : Fin 8) :
    ((fs.view.handles s).any fun handle ↦ handle.path = fs.chainNames i ∧ P handle.flags)
      = decide ((fs.openFiles s).used ≠ 0 ∧ (fs.openFiles s).nodeIndex.toNat = i ∧
          P (fs.openFiles s).flags) := by
  simp only [RuntimeFs.view, RuntimeFs.handle]
  by_cases hu : (fs.openFiles s).used = 0
  · simp [hu]
  have hslot := h.sound.slots s hu
  have hnode : fs.chainNames (fs.openFiles s).node = fs.chainNames i ↔
      (fs.openFiles s).nodeIndex.toNat = i := by
    rw [← hslot.val_node, ← Fin.ext_iff]
    exact ⟨h.chain_inj hslot.node_used hi, fun heq ↦ by rw [heq]⟩
  rw [if_neg hu, Option.any_some]
  simp only [hnode, hu, ne_eq, not_false_eq_true, true_and]

theorem isOpen_eq (h : Intact fs) (hi : (fs.nodes i).used ≠ 0) :
    fs.view.isOpen (fs.chainNames i) = fsNodeIsOpen fs i := by
  rw [FileStore.isOpen, fsNodeIsOpen]
  congr 1
  funext s
  simpa using h.handle_any hi (fun _ ↦ true) s

theorem hasWriter_eq (h : Intact fs) (hi : (fs.nodes i).used ≠ 0) :
    fs.view.hasWriter (fs.chainNames i) = fsNodeHasOpenWriter fs i := by
  rw [FileStore.hasWriter, fsNodeHasOpenWriter]
  congr 1
  funext s
  simpa using h.handle_any hi (fun flags ↦ flags &&& openWrite ≠ 0) s

theorem freeHandle_eq (fs : RuntimeFs) : fs.view.freeHandle
    = (List.finRange 8).find? fun s ↦ (fs.openFiles s).used = 0 := by
  rw [FileStore.freeHandle]
  congr 1
  funext s
  simp only [RuntimeFs.view, RuntimeFs.handle]
  by_cases hu : (fs.openFiles s).used = 0
  · simp [hu]
  · simp [hu]

/-- A file object stands for the slot that the code looks up. -/
theorem lookup_eq (h : Intact fs) (object : UInt32) :
    fs.view.lookup object = (fsOpenFileLookup fs object).map fun s ↦
      (s, ⟨fs.chainNames (fs.openFiles s).node, (fs.openFiles s).flags,
        (fs.openFiles s).offset.toNat⟩, (fs.nodes (fs.openFiles s).node).entry) := by
  unfold FileStore.lookup fsOpenFileLookup
  by_cases hobject : object ≠ 0 ∧ object.toNat ≤ 8
  · simp only [dif_pos hobject]
    have hlt : object.toNat - 1 < 8 := by omega
    by_cases hu : (fs.openFiles ⟨object.toNat - 1, hlt⟩).used = 0
    · simp [RuntimeFs.view, RuntimeFs.handle, hu]
    · have htree := h.tree_chain (h.sound.slots _ hu).node_used
      have hhandle : fs.view.handles ⟨object.toNat - 1, hlt⟩
          = some ⟨fs.chainNames (fs.openFiles ⟨object.toNat - 1, hlt⟩).node,
            (fs.openFiles ⟨object.toNat - 1, hlt⟩).flags,
            (fs.openFiles ⟨object.toNat - 1, hlt⟩).offset.toNat⟩ := by
        simp [RuntimeFs.view, RuntimeFs.handle, hu]
      rw [hhandle, Option.bind_some, htree, if_neg hu]
      rfl
  · simp only [dif_neg hobject]
    rfl

end Intact

/-! ## Changes -/

theorem view_setOpen (fs : RuntimeFs) (s : Fin 8) (o : RuntimeFsOpenFile) :
    (fs.setOpen s o).view = fs.view.setHandle s (fs.handle o) := by
  refine FileStore.ext rfl ?_
  funext t
  by_cases hts : t = s
  · subst hts
    simp only [RuntimeFs.view, FileStore.setHandle, RuntimeFs.setOpen_openFiles_self,
      Function.update_self]
    rfl
  · simp only [RuntimeFs.view, FileStore.setHandle, RuntimeFs.setOpen_openFiles_of_ne hts,
      Function.update_of_ne hts]
    rfl

/-- The chains of the used nodes do not notice a change of a node that is not in use. -/
theorem Intact.chain_congr (h : Intact fs) (hi : (fs.nodes i).used = 0)
    (hothers : ∀ k, k ≠ i → fs'.nodes k = fs.nodes k) (hj : (fs.nodes j).used ≠ 0) :
    fs'.chainNames j = fs.chainNames j := by
  refine trail_congr (h.sound.nodes.rooted j) fun k hk ↦ ?_
  have hki : k ≠ i := by
    rintro rfl
    exact h.sound.nodes.used_of_onChain hj hk hi
  rw [hothers k hki]
  exact ⟨rfl, rfl⟩

/-- A handle depends on the nodes only through the chain of its own node. -/
theorem RuntimeFs.handle_congr {o : RuntimeFsOpenFile}
    (hchain : o.used ≠ 0 → fs'.chainNames o.node = fs.chainNames o.node) :
    fs'.handle o = fs.handle o := by
  unfold handle
  by_cases hu : o.used = 0
  · rw [if_pos hu, if_pos hu]
  · rw [if_neg hu, if_neg hu, hchain hu]

theorem Intact.handles_congr (h : Intact fs) (hslots : fs'.openFiles = fs.openFiles)
    (hchain : ∀ j, (fs.nodes j).used ≠ 0 → fs'.chainNames j = fs.chainNames j) :
    fs'.view.handles = fs.view.handles := by
  funext s
  rw [RuntimeFs.view_handles, RuntimeFs.view_handles, hslots]
  exact RuntimeFs.handle_congr fun hu ↦ hchain _ (h.sound.slots s hu).node_used

theorem Intact.view_setContents (h : Intact fs) (hi : (fs.nodes i).used ≠ 0)
    (hused : n.used = (fs.nodes i).used) (hparent : n.parent = (fs.nodes i).parent)
    (htext : n.text = (fs.nodes i).text) :
    (fs.setNode i n).view = fs.view.put (fs.chainNames i) n.entry := by
  have hparents : ∀ k, ((fs.setNode i n).nodes k).parent = (fs.nodes k).parent := by
    intro k
    by_cases hk : k = i
    · rw [hk, RuntimeFs.setNode_nodes_self, hparent]
    · rw [RuntimeFs.setNode_nodes_of_ne hk]
  have htexts : ∀ k, ((fs.setNode i n).nodes k).text = (fs.nodes k).text := by
    intro k
    by_cases hk : k = i
    · rw [hk, RuntimeFs.setNode_nodes_self, htext]
    · rw [RuntimeFs.setNode_nodes_of_ne hk]
  have hchain : (fs.setNode i n).chainNames = fs.chainNames := by
    funext j
    simp only [RuntimeFs.chainNames, hparents, htexts]
  have hpresent : ∀ k, ((fs.setNode i n).nodes k).used ≠ 0 ↔ k = i ∨ (fs.nodes k).used ≠ 0 := by
    intro k
    by_cases hk : k = i
    · subst hk
      simp [hused, hi]
    · rw [RuntimeFs.setNode_nodes_of_ne hk]
      simp [hk]
  refine FileStore.ext ?_ (h.handles_congr rfl fun j _ ↦ by rw [hchain])
  have hused' : ∀ k, ((fs.setNode i n).nodes k).used ≠ 0 → (fs.nodes k).used ≠ 0 := by
    intro k hk
    rcases (hpresent k).mp hk with rfl | hk
    · exact hi
    · exact hk
  have hinj : ∀ a b, ((fs.setNode i n).nodes a).used ≠ 0 → ((fs.setNode i n).nodes b).used ≠ 0 →
      (fs.setNode i n).chainNames a = (fs.setNode i n).chainNames b → a = b := by
    intro a b ha hb heq
    rw [hchain] at heq
    exact h.chain_inj (hused' a ha) (hused' b hb) heq
  have hentry : ∀ k, (fs.nodes k).used ≠ 0 → k ≠ i →
      ((fs.setNode i n).nodes k).entry = (fs.nodes k).entry := by
    intro k _ hk
    rw [RuntimeFs.setNode_nodes_of_ne hk]
  have hset : (fs.setNode i n).view.tree = Function.update fs.view.tree
      ((fs.setNode i n).chainNames i) (some ((fs.setNode i n).nodes i).entry) :=
    PathTree.ofPaths_set hinj hpresent (fun _ _ ↦ by rw [hchain]) hentry
  rw [RuntimeFs.setNode_nodes_self, hchain] at hset
  exact hset

theorem Intact.view_create (h : Intact fs) (h' : Intact (fs.setNode i n))
    (hi : (fs.nodes i).used = 0) (hn : n.used ≠ 0) (hparent : (fs.nodes n.parent).used ≠ 0) :
    (fs.setNode i n).view = fs.view.put (fs.chainNames n.parent ++ [n.text]) n.entry := by
  have hi0 : i ≠ 0 := by
    rintro rfl
    exact h.root.used hi
  have hself : (fs.setNode i n).nodes i = n := RuntimeFs.setNode_nodes_self
  have hchain : ∀ j, (fs.nodes j).used ≠ 0 → (fs.setNode i n).chainNames j = fs.chainNames j :=
    fun j hj ↦ h.chain_congr hi (fun k hk ↦ RuntimeFs.setNode_nodes_of_ne hk) hj
  have hchaini : (fs.setNode i n).chainNames i = fs.chainNames n.parent ++ [n.text] := by
    rw [h'.chain_eq hi0 (by rw [hself]; exact hn), hself, hchain _ hparent]
  have hpresent : ∀ k, ((fs.setNode i n).nodes k).used ≠ 0 ↔ k = i ∨ (fs.nodes k).used ≠ 0 := by
    intro k
    by_cases hk : k = i
    · subst hk
      simp [hn]
    · rw [RuntimeFs.setNode_nodes_of_ne hk]
      simp [hk]
  refine FileStore.ext ?_ (h.handles_congr rfl hchain)
  have hentry : ∀ k, (fs.nodes k).used ≠ 0 → k ≠ i →
      ((fs.setNode i n).nodes k).entry = (fs.nodes k).entry := by
    intro k _ hk
    rw [RuntimeFs.setNode_nodes_of_ne hk]
  have hset : (fs.setNode i n).view.tree = Function.update fs.view.tree
      ((fs.setNode i n).chainNames i) (some ((fs.setNode i n).nodes i).entry) :=
    PathTree.ofPaths_set (fun _ _ ha hb heq ↦ h'.chain_inj ha hb heq) hpresent hchain hentry
  rw [hself, hchaini] at hset
  exact hset

theorem Intact.view_clear (h : Intact fs) (h' : Intact (fs.setNode i n))
    (hi : (fs.nodes i).used ≠ 0) (hn : n.used = 0)
    (hslots : ∀ s, (fs.openFiles s).used ≠ 0 → (fs.openFiles s).node ≠ i) :
    (fs.setNode i n).view = fs.view.erase (fs.chainNames i) := by
  have hself : ((fs.setNode i n).nodes i).used = 0 := by
    rw [RuntimeFs.setNode_nodes_self]
    exact hn
  have hpresent : ∀ k, ((fs.setNode i n).nodes k).used ≠ 0 ↔ (fs.nodes k).used ≠ 0 ∧ k ≠ i := by
    intro k
    by_cases hk : k = i
    · subst hk
      simp [hn]
    · rw [RuntimeFs.setNode_nodes_of_ne hk]
      simp [hk]
  have hchain : ∀ j, ((fs.setNode i n).nodes j).used ≠ 0 →
      (fs.setNode i n).chainNames j = fs.chainNames j := by
    intro j hj
    exact (h'.chain_congr hself (fun k hk ↦ (RuntimeFs.setNode_nodes_of_ne hk).symm) hj).symm
  refine FileStore.ext ?_ ?_
  · have hentry : ∀ k, ((fs.setNode i n).nodes k).used ≠ 0 →
        ((fs.setNode i n).nodes k).entry = (fs.nodes k).entry := by
      intro k hk
      rw [RuntimeFs.setNode_nodes_of_ne ((hpresent k).mp hk).2]
    exact PathTree.ofPaths_unset (fun _ _ ha hb heq ↦ h.chain_inj ha hb heq) hi hpresent hchain
      hentry
  · funext s
    refine RuntimeFs.handle_congr fun hu ↦ hchain _ ?_
    exact (hpresent _).mpr ⟨(h.sound.slots s hu).node_used, hslots s hu⟩

theorem Intact.view_move (h : Intact fs) (h' : Intact (fs.setNode i n)) (hi0 : i ≠ 0)
    (hi : (fs.nodes i).used ≠ 0) (hused : n.used ≠ 0) (hentry : n.entry = (fs.nodes i).entry)
    (hparent : (fs.nodes n.parent).used ≠ 0)
    (hbelow : ¬OnChain (fun j ↦ (fs.nodes j).parent) 0 i n.parent)
    (hfree : fs.view.tree (fs.chainNames n.parent ++ [n.text]) = none) :
    (fs.setNode i n).view
      = fs.view.move (fs.chainNames i) (fs.chainNames n.parent ++ [n.text]) := by
  have hparents : (fun k ↦ ((fs.setNode i n).nodes k).parent)
      = Function.update (fun k ↦ (fs.nodes k).parent) i n.parent := by
    funext k
    by_cases hk : k = i
    · rw [hk, RuntimeFs.setNode_nodes_self, Function.update_self]
    · rw [RuntimeFs.setNode_nodes_of_ne hk, Function.update_of_ne hk]
  have htexts : (fun k ↦ ((fs.setNode i n).nodes k).text)
      = Function.update (fun k ↦ (fs.nodes k).text) i n.text := by
    funext k
    by_cases hk : k = i
    · rw [hk, RuntimeFs.setNode_nodes_self, Function.update_self]
    · rw [RuntimeFs.setNode_nodes_of_ne hk, Function.update_of_ne hk]
  have hpresent : ∀ k, ((fs.setNode i n).nodes k).used ≠ 0 ↔ (fs.nodes k).used ≠ 0 := by
    intro k
    by_cases hk : k = i
    · rw [hk, RuntimeFs.setNode_nodes_self]
      exact iff_of_true hused hi
    · rw [RuntimeFs.setNode_nodes_of_ne hk]
  have hchain : ∀ j, (fs.nodes j).used ≠ 0 → (fs.setNode i n).chainNames j
      = movePath (fs.chainNames i) (fs.chainNames n.parent ++ [n.text]) (fs.chainNames j) := by
    intro j hj
    have hup : ∀ k, (fs.nodes k).used ≠ 0 → k ≠ 0 → (fs.nodes (fs.nodes k).parent).used ≠ 0 :=
      fun k hk _ ↦ h.parent_used hk
    rw [RuntimeFs.chainNames, hparents, htexts]
    exact trail_move (fun _ _ ha hb heq ↦ h.chain_inj ha hb heq) hup
      (fun k _ ↦ h.sound.nodes.rooted k) hi hi0 hparent hbelow hj
  have hnew : ∀ j, (fs.nodes j).used ≠ 0 →
      ¬fs.chainNames n.parent ++ [n.text] <+: fs.chainNames j := by
    intro j hj
    induction h.sound.nodes.rooted j with
    | root =>
      rw [Named.chainNames_root, List.prefix_nil]
      simp
    | @step j hj0 _ ih =>
      rw [h.chain_eq hj0 hj, List.prefix_concat_iff, ← h.chain_eq hj0 hj]
      rintro (heq | hprefix)
      · rw [heq, h.tree_chain hj] at hfree
        exact absurd hfree (by simp)
      · exact ih (h.parent_used hj) hprefix
  refine FileStore.ext ?_ ?_
  · have hsame : (fun k ↦ ((fs.setNode i n).nodes k).used ≠ 0)
        = fun k ↦ (fs.nodes k).used ≠ 0 := funext fun k ↦ propext (hpresent k)
    have hentries : ∀ k, (fs.nodes k).used ≠ 0 →
        ((fs.setNode i n).nodes k).entry = (fs.nodes k).entry := by
      intro k _
      by_cases hk : k = i
      · rw [hk, RuntimeFs.setNode_nodes_self, hentry]
      · rw [RuntimeFs.setNode_nodes_of_ne hk]
    rw [RuntimeFs.view_tree, hsame]
    exact PathTree.ofPaths_move (fun _ _ ha hb heq ↦ h.chain_inj ha hb heq)
      (fun a b ha hb heq ↦ h'.chain_inj ((hpresent a).mpr ha) ((hpresent b).mpr hb) heq)
      hnew hchain hentries
  · funext s
    have hslot : (fs.setNode i n).handle (fs.openFiles s) = (fs.handle (fs.openFiles s)).map
        fun handle ↦ { handle with
          path :=
            movePath (fs.chainNames i) (fs.chainNames n.parent ++ [n.text]) handle.path } := by
      unfold RuntimeFs.handle
      by_cases hu : (fs.openFiles s).used = 0
      · rw [if_pos hu, if_pos hu]
        rfl
      · rw [if_neg hu, if_neg hu, hchain _ (h.sound.slots s hu).node_used]
        rfl
    exact hslot

theorem intact_init : Intact runtimeFsInit := ⟨sound_init, rootIntact_init⟩

theorem view_init : runtimeFsInit.view = FileStore.init := by
  refine FileStore.ext ?_ rfl
  funext names
  ext e
  rw [intact_init.tree_eq_some_iff, FileStore.init]
  have hused : ∀ i, (runtimeFsInit.nodes i).used ≠ 0 ↔ i = 0 := by decide
  have hroot : (runtimeFsInit.nodes 0).entry = ⟨0, 493, .directory⟩ := by decide
  simp only [hused]
  rw [exists_eq_left, Named.chainNames_root, hroot]
  by_cases hnames : names = []
  · simp [hnames]
  · rw [Function.update_of_ne hnames]
    simp [Ne.symm hnames]

end TensorOS
