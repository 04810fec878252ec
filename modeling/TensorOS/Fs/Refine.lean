import TensorOS.Fs.View

/-!
# The file system refines the store

Call by call, the status and everything a call stores through its pointers are what the store
answers, and the file system afterwards represents the store afterwards. Which node and which chain
of indices a path uses never shows, nor do the bytes behind the end of a file.
-/

namespace TensorOS

variable {fs fs' : RuntimeFs} {pid mode flags : UInt32} {p q : CString} {node : Fin 16}

/-- A status and a file system, seen from outside. -/
noncomputable def seen (r : Int × RuntimeFs) : Int × FileStore := (r.1, r.2.view)

/-! ## Creating -/

theorem Intact.createRefusal_eq (h : Intact fs) (h₀ : p.charAt 0 = slash) (pid : UInt32) :
    fs.view.createRefusal pid p.names =
      match fs.resolveParent (some p) with
      | .error status => some status
      | .ok (_, parent) =>
        if fsNodeOwnerAllows (fs.nodes parent) pid = false then some Status.eacces
        else
          match fsAllocNode fs with
          | none => some Status.enospc
          | some _ => none := by
  rw [FileStore.createRefusal, h.parent_names h₀]
  cases hparent : fs.resolveParent (some p) with
  | error status => rfl
  | ok found =>
    obtain ⟨leaf, parent⟩ := found
    simp only [Except.map, h.allows_chain (h.resolveParent_eq_ok hparent).1]
    by_cases hown : fsNodeOwnerAllows (fs.nodes parent) pid = false
    · rw [if_pos hown, if_pos hown]
    rw [if_neg hown, if_neg hown]
    cases halloc : fsAllocNode fs with
    | none => rw [if_pos (h.full_iff.mpr fun i hi ↦ fsAllocNode_eq_none halloc hi)]
    | some result =>
      obtain ⟨hne, hunused, -⟩ := fsAllocNode_eq_some halloc
      rw [if_neg fun hfull ↦ h.full_iff.mp hfull _ hne hunused]

theorem createdNode_used_ne (fs : RuntimeFs) (node : Fin 16) (type : UInt32) (parent : Fin 16)
    (pid mode : UInt32) (leaf : List UInt8) :
    (createdNode fs node type parent pid mode leaf).used ≠ 0 := by
  simp [createdNode, fsNamedNode, fsFreshNode, fsZeroRange_eq]

theorem createdNode_entry (fs : RuntimeFs) (node : Fin 16) (type : UInt32) (parent : Fin 16)
    (pid mode : UInt32) (leaf : List UInt8) :
    (createdNode fs node type parent pid mode leaf).entry
      = ⟨pid, mode, if type = fileTypeDirectory then .directory else .regular []⟩ := by
  have hcontents : (createdNode fs node type parent pid mode leaf).contents = [] := by
    have hsize : (createdNode fs node type parent pid mode leaf).sizeBytes = 0 := by
      simp [createdNode, fsNamedNode, fsFreshNode, fsZeroRange_eq]
    rw [RuntimeFsNode.contents, hsize]
    rfl
  rw [RuntimeFsNode.entry, hcontents]
  rfl

theorem Intact.created (h : Intact fs) {parent : Fin 16} {leaf : List UInt8} {type : UInt32}
    (hc : CreateAt fs pid (some p) node leaf parent)
    (htype : type = fileTypeDirectory ∨ type = fileTypeRegular) (mode : UInt32) :
    Intact (fs.setNode node (createdNode fs node type parent pid mode leaf)) ∧
      (fs.setNode node (createdNode fs node type parent pid mode leaf)).view
        = fs.view.put p.names
            ⟨pid, mode, if type = fileTypeDirectory then .directory else .regular []⟩ ∧
      (fs.setNode node (createdNode fs node type parent pid mode leaf)).chainNames node
        = p.names := by
  obtain ⟨-, -, hnz, hlen, -, -⟩ := RuntimeFs.resolveParent_eq_ok hc.parentPath
  obtain ⟨hparent, hnames⟩ := h.resolveParent_eq_ok hc.parentPath
  have h' : Intact (fs.setNode node (createdNode fs node type parent pid mode leaf)) :=
    ⟨h.sound.create hc htype, h.root.setNode hc.node_ne _⟩
  have hcreated := createdNode_parent fs node type parent pid mode leaf
  have htext := createdNode_text fs node type parent pid mode hnz hlen
  have hview := h.view_create h' hc.unused (createdNode_used_ne fs node type parent pid mode leaf)
    (by rw [hcreated]; exact hparent)
  rw [hcreated, htext, ← hnames, createdNode_entry] at hview
  refine ⟨h', hview, ?_⟩
  have hself : (fs.setNode node (createdNode fs node type parent pid mode leaf)).nodes node
      = createdNode fs node type parent pid mode leaf := RuntimeFs.setNode_nodes_self
  have hused' : ((fs.setNode node
      (createdNode fs node type parent pid mode leaf)).nodes node).used ≠ 0 := by
    rw [hself]
    exact createdNode_used_ne fs node type parent pid mode leaf
  rw [h'.chain_eq hc.node_ne hused', hself, hcreated, htext,
    h.chain_congr hc.unused (fun k hk ↦ RuntimeFs.setNode_nodes_of_ne hk) hparent, hnames]

theorem Intact.mkdir_refines (h : Intact fs) (pid : UInt32) (path : Option CString)
    (mode : UInt32) :
    (runtimeFsMkdir fs pid path mode).map seen = .ok (fs.view.mkdir pid path mode) := by
  unfold runtimeFsMkdir
  cases path with
  | none => rfl
  | some p =>
    by_cases habs : p.charAt 0 ≠ slash ∨ p.charAt 1 = 0
    · have hfalse : fsPathIsAbsoluteNonRoot (some p) = false := by
        rcases habs with h₀ | h₁
        · simp [fsPathIsAbsoluteNonRoot, h₀]
        · simp [fsPathIsAbsoluteNonRoot, h₁]
      rw [if_pos hfalse, FileStore.mkdir, if_pos habs]
      rfl
    rw [FileStore.mkdir, if_neg habs]
    rw [not_or, not_not] at habs
    obtain ⟨h₀, h₁⟩ := habs
    have htrue : fsPathIsAbsoluteNonRoot (some p) = true := by
      simp [fsPathIsAbsoluteNonRoot, h₀, h₁]
    rw [htrue, if_neg (by simp), fsResolvePath_eq h.sound.terminated, ok_bind,
      fsResolveParentPath_eq h.sound.terminated, h.tree_names h₀, h.createRefusal_eq h₀]
    cases hres : fs.resolve (some p) with
    | some i => rfl
    | none =>
      simp only [Option.map_none, ne_eq, not_true_eq_false, if_false, ok_bind]
      cases hparent : fs.resolveParent (some p) with
      | error status => rfl
      | ok found =>
        obtain ⟨leaf, parent⟩ := found
        by_cases hown : fsNodeOwnerAllows (fs.nodes parent) pid = false
        · simp only [hown, if_true]
          rfl
        rw [Bool.not_eq_false] at hown
        simp only [hown, Bool.true_eq_false, if_false]
        cases halloc : fsAllocNode fs with
        | none => rfl
        | some result =>
          obtain ⟨node, fs'⟩ := result
          obtain ⟨hne, hunused, rfl⟩ := fsAllocNode_eq_some halloc
          have hc : CreateAt fs pid (some p) node leaf parent :=
            ⟨hne, hunused, hres, hparent, hown⟩
          have hview := (h.created hc (Or.inl rfl) mode).2.1
          simp only [RuntimeFs.setNode_nodes_self, RuntimeFs.setNode_setNode, Except.map, seen]
          rw [createdNode] at hview
          rw [hview]
          rfl

/-! ## Opening -/

/-- The first half of an open finds or makes the entry at the path. -/
theorem Intact.openResolve_refines (h : Intact fs) (h₀ : p.charAt 0 = slash) (pid flags : UInt32) :
    (∃ status, fsOpenResolve fs pid (some p) flags = .ok (.error status) ∧
      fs.view.openResolve pid p.names flags = .error status) ∨
    ∃ node fs', fsOpenResolve fs pid (some p) flags = .ok (.ok (node, fs')) ∧ Intact fs' ∧
      (fs'.nodes node).used ≠ 0 ∧ fs'.chainNames node = p.names ∧
      fs.view.openResolve pid p.names flags = .ok ((fs'.nodes node).entry, fs'.view) := by
  unfold fsOpenResolve
  rw [FileStore.openResolve, fsResolvePath_eq h.sound.terminated, ok_bind,
    fsResolveParentPath_eq h.sound.terminated, h.tree_names h₀, h.createRefusal_eq h₀]
  cases hres : fs.resolve (some p) with
  | some i =>
    obtain ⟨hu, hnames⟩ := h.resolve_eq_some hres
    exact Or.inr ⟨i, fs, rfl, h, hu, hnames.symm, rfl⟩
  | none =>
    simp only [Option.map_none, ok_bind]
    by_cases hcreate : flags &&& openCreate = 0
    · exact Or.inl ⟨_, by rw [if_pos hcreate], by rw [if_pos hcreate]⟩
    rw [if_neg hcreate, if_neg hcreate]
    cases hparent : fs.resolveParent (some p) with
    | error status => exact Or.inl ⟨status, rfl, rfl⟩
    | ok found =>
      obtain ⟨leaf, parent⟩ := found
      by_cases hown : fsNodeOwnerAllows (fs.nodes parent) pid = false
      · simp only [hown, if_true]
        exact Or.inl ⟨_, rfl, rfl⟩
      rw [Bool.not_eq_false] at hown
      simp only [hown, Bool.true_eq_false, if_false]
      cases halloc : fsAllocNode fs with
      | none => exact Or.inl ⟨_, rfl, rfl⟩
      | some result =>
        obtain ⟨node, fs'⟩ := result
        obtain ⟨hne, hunused, rfl⟩ := fsAllocNode_eq_some halloc
        have hc : CreateAt fs pid (some p) node leaf parent :=
          ⟨hne, hunused, hres, hparent, hown⟩
        obtain ⟨h', hview, hchain⟩ := h.created hc (Or.inr rfl) 420
        simp only [RuntimeFs.setNode_nodes_self, RuntimeFs.setNode_setNode]
        refine Or.inr ⟨node, _, rfl, h', ?_, hchain, ?_⟩
        · rw [RuntimeFs.setNode_nodes_self]
          exact createdNode_used_ne fs node fileTypeRegular parent pid 420 leaf
        · rw [RuntimeFs.setNode_nodes_self]
          rw [createdNode] at hview
          rw [hview, ← createdNode, createdNode_entry]
          rfl

theorem chainNames_congr (hparent : ∀ k, (fs'.nodes k).parent = (fs.nodes k).parent)
    (htext : ∀ k, (fs'.nodes k).text = (fs.nodes k).text) : fs'.chainNames = fs.chainNames := by
  funext j
  simp only [RuntimeFs.chainNames, hparent, htext]

theorem fsOpenTruncate_chainNames (fs : RuntimeFs) (node : Fin 16) (flags : UInt32) :
    (fsOpenTruncate fs node flags).chainNames = fs.chainNames := by
  refine chainNames_congr ?_ ?_
  · intro k
    obtain ⟨_, _, hk⟩ := fsOpenTruncate_nodes fs node flags k
    rw [hk]
    rfl
  · intro k
    obtain ⟨_, _, hk⟩ := fsOpenTruncate_nodes fs node flags k
    rw [hk]
    rfl

theorem Intact.truncate (h : Intact fs) (node : Fin 16) (flags : UInt32) :
    Intact (fsOpenTruncate fs node flags) :=
  ⟨h.sound.truncate node flags, h.root.truncate node flags⟩

theorem Intact.truncate_refines (h : Intact fs) (hu : (fs.nodes node).used ≠ 0) (flags : UInt32) :
    (fsOpenTruncate fs node flags).view
      = fs.view.truncate (fs.chainNames node) (fs.nodes node).entry flags := by
  have hkind : (fs.nodes node).type = fileTypeRegular ↔
      (fs.nodes node).entry.kind ≠ .directory := by
    rw [ne_eq, RuntimeFsNode.entry_kind_eq_directory]
    rcases h.kind hu with hd | hr
    · simp [hd, fileTypeDirectory, fileTypeRegular]
    · simp [hr, fileTypeDirectory, fileTypeRegular]
  unfold fsOpenTruncate FileStore.truncate
  simp only [hkind]
  split
  · next hcut =>
    have hreg := hkind.mpr hcut.2
    rw [fsZeroRange_eq, h.view_setContents hu]
    · congr 1
      rw [RuntimeFsNode.entry, if_neg (by rw [hreg]; decide)]
      rfl
    · rfl
    · rfl
    · rfl
  · rfl

/-- **The second half of an open.** -/
theorem Intact.openEntry_refines (h : Intact fs) (hu : (fs.nodes node).used ≠ 0)
    (pid flags : UInt32) :
    fs.view.openEntry pid (fs.chainNames node) (fs.nodes node).entry flags
      = ((fsOpenNode fs pid node flags).1, (fsOpenNode fs pid node flags).2.1.view,
          (fsOpenNode fs pid node flags).2.2) := by
  unfold FileStore.openEntry fsOpenNode
  rw [fsModeCheck_entry (h.kind hu)]
  by_cases hmode : (fs.nodes node).entry.modeCheck flags = Status.ok
  · have h' := h.truncate node flags
    have hu' : ((fsOpenTruncate fs node flags).nodes node).used ≠ 0 := by
      rw [(fsOpenTruncate_kind fs node flags node).1]
      exact hu
    simp only [hmode, ne_eq, not_true_eq_false, if_false, ← h.truncate_refines hu,
      fsOpenTruncate_ownerAllows, RuntimeFsNode.entry_allows]
    rw [← fsOpenTruncate_chainNames fs node flags, h'.hasWriter_eq hu']
    split
    · rfl
    split
    · rfl
    simp only [Intact.freeHandle_eq, fsOpenSlotAlloc]
    cases hfree : (List.finRange 8).find? fun s ↦
        ((fsOpenTruncate fs node flags).openFiles s).used = 0 with
    | none => rfl
    | some s =>
      have hslot : openedSlot pid node flags
          = { ((fsOpenTruncate fs node flags).setOpen s
              ⟨1, UInt32.ofNat node, 0, flags, 0, 0⟩).openFiles s with ownerPid := pid } := by
        rw [RuntimeFs.setOpen_openFiles_self]
        rfl
      simp only [Option.map_some, ← hslot, RuntimeFs.setOpen_setOpen, view_setOpen]
      rw [RuntimeFs.handle, if_neg (by simp [openedSlot]), openedSlot_node]
      rfl
  · simp only [hmode, ne_eq, not_false_eq_true, if_true]

theorem Intact.open_refines (h : Intact fs) (pid : UInt32) (path : Option CString) (flags : UInt32)
    (object : Option UInt32) :
    (runtimeFsOpen fs pid path flags object).map (fun r ↦ (r.1, r.2.1.view, r.2.2))
      = .ok (fs.view.open pid path flags object) := by
  cases path with
  | none => rfl
  | some p =>
    cases object with
    | none => rfl
    | some o =>
      rw [runtimeFsOpen, FileStore.open]
      by_cases h₀ : p.charAt 0 = slash
      · simp only [h₀, ne_eq, not_true_eq_false, if_false]
        rcases h.openResolve_refines h₀ pid flags with
          ⟨status, hrun, hstore⟩ | ⟨node, fs', hrun, h', hu, hchain, hstore⟩
        · rw [hrun, hstore]
          rfl
        · rw [hrun, hstore, ok_bind]
          simp only [← hchain, h'.openEntry_refines hu]
          rfl
      · simp only [h₀, ne_eq, not_false_eq_true, if_true]
        rfl

/-! ## Open files -/

theorem RuntimeFs.handle_setOffset (fs : RuntimeFs) {o : RuntimeFsOpenFile} (h : o.used ≠ 0)
    (offset : UInt32) : fs.handle { o with offset := offset }
      = some ⟨fs.chainNames o.node, o.flags, offset.toNat⟩ := if_neg h

theorem Intact.read_refines (h : Intact fs) (object : UInt32) (buffer : Option (ℕ → UInt8))
    (size : UInt32) :
    (runtimeFsRead fs object buffer size).map (fun r ↦ (r.1, r.2.1.view, r.2.2))
      = .ok (fs.view.read object buffer size) := by
  cases buffer with
  | none => rfl
  | some bytes =>
    unfold FileStore.read
    rw [h.lookup_eq]
    cases hlook : fsOpenFileLookup fs object with
    | none =>
      simp only [runtimeFsRead, hlook]
      rfl
    | some s =>
      have hused := (fsOpenFileLookup_eq_some hlook).1
      have hslot := h.sound.slots s hused
      simp only [Option.map_some]
      by_cases hflag : (fs.openFiles s).flags &&& openRead = 0
      · simp only [runtimeFsRead, hlook, hflag, if_true]
        rfl
      rw [if_neg hflag]
      by_cases hdir : (fs.nodes (fs.openFiles s).node).type = fileTypeDirectory
      · have hdir' := hdir
        rw [← RuntimeFsNode.entry_kind_eq_directory] at hdir'
        have hnot : (fs.nodes (fs.openFiles s).node).type ≠ fileTypeRegular := by
          rw [hdir]
          decide
        simp only [hdir', runtimeFsRead, hlook, hflag, if_false, hslot.nodeIndexOf_node, ok_bind]
        rw [if_pos hnot, fsNotRegularStatus, if_pos hdir]
        rfl
      have hreg := (h.kind hslot.node_used).resolve_left hdir
      rcases runtimeFsRead_spec h.sound object (some bytes) size with
        ⟨hno, -⟩ | ⟨t, bytes₀, bytes', hs, _, hbytes, heq, hdata, hrest⟩
      · exact absurd (hno.resolve_left (by simp) s ⟨hlook, hreg⟩) hflag
      obtain rfl := hs.unique ⟨hlook, hreg⟩
      obtain rfl := Option.some.inj hbytes
      have hgot := bytesOf_read h.sound t hdata
      have hlen := congrArg List.length hgot
      rw [length_bytesOf] at hlen
      have hbound : (fs.openFiles t).offset.toNat + readCount fs t size ≤ 256 := by
        have h₁ := hslot.offset_le
        have h₂ := (h.sound.nodes.node (fs.openFiles t).node).size_le
        rw [readCount]
        omega
      have hword : (UInt32.ofNat ((fs.openFiles t).offset.toNat + readCount fs t size)).toNat
          = (fs.openFiles t).offset.toNat + readCount fs t size := by
        rw [UInt32.toNat_ofNat']
        omega
      rw [heq]
      simp only [Except.map, RuntimeFsNode.entry_kind_of_regular hreg, view_setOpen,
        ← hgot, length_bytesOf]
      rw [RuntimeFs.handle_setOffset _ hused, hword]
      refine congrArg Except.ok (Prod.ext rfl (Prod.ext rfl (congrArg some (funext fun i ↦ ?_))))
      by_cases hi : i < readCount fs t size
      · simp [bytesOf, hi]
      · rw [List.getD_eq_default _ _ (by rw [length_bytesOf]; omega)]
        exact hrest i (by omega)

theorem Intact.write_refines (h : Intact fs) (object : UInt32) (buffer : Option (ℕ → UInt8))
    (size : UInt32) (hfits : (FsCall.write object buffer size).Fits fs) :
    (runtimeFsWrite fs object buffer size).map seen = .ok (fs.view.write object buffer size) := by
  cases buffer with
  | none => rfl
  | some bytes =>
    unfold FileStore.write
    rw [h.lookup_eq]
    cases hlook : fsOpenFileLookup fs object with
    | none =>
      simp only [runtimeFsWrite, hlook]
      rfl
    | some s =>
      have hused := (fsOpenFileLookup_eq_some hlook).1
      have hslot := h.sound.slots s hused
      simp only [Option.map_some]
      by_cases hflag : (fs.openFiles s).flags &&& openWrite = 0
      · simp only [runtimeFsWrite, hlook, hflag, if_true]
        rfl
      have hreg : (fs.nodes (fs.openFiles s).node).type = fileTypeRegular :=
        (h.kind hslot.node_used).resolve_left fun hdir ↦ hflag (hslot.dir_write hdir)
      rw [if_neg hflag]
      simp only [RuntimeFsNode.entry_kind_of_regular hreg]
      rcases runtimeFsWrite_spec h.sound object (some bytes) size with
        ⟨hno, -⟩ | ⟨t, bytes₀, hs, _, hbytes, ⟨hover, heq⟩ | ⟨hend, heq⟩ | ⟨hwrap, -⟩⟩
      · exact absurd (hno.resolve_left (by simp) s ⟨hlook, hreg⟩) hflag
      · obtain rfl := hs.unique ⟨hlook, hreg⟩
        rw [if_pos hover, heq]
        rfl
      · obtain rfl := hs.unique ⟨hlook, hreg⟩
        obtain rfl := Option.some.inj hbytes
        have hsize := (h.sound.nodes.node (fs.openFiles t).node).size_le
        have hsum : ((fs.openFiles t).offset + size).toNat
            = (fs.openFiles t).offset.toNat + size.toNat := by
          rw [UInt32.toNat_add]
          omega
        have hnode := fsWriteNode_eq (fs.nodes (fs.openFiles t).node) bytes hend
        have hwritten := contents_fsWriteNode hsize bytes hend
        have hview := h.view_setContents (n := fsWriteNode (fs.nodes (fs.openFiles t).node)
          (fs.openFiles t).offset size bytes) hslot.node_used (by rw [hnode]) (by rw [hnode]; rfl)
          (by rw [hnode]; rfl)
        have hentry : (fsWriteNode (fs.nodes (fs.openFiles t).node) (fs.openFiles t).offset size
            bytes).entry = { (fs.nodes (fs.openFiles t).node).entry with
              kind := .regular (writeAt (fs.nodes (fs.openFiles t).node).contents
                (fs.openFiles t).offset.toNat (bytesOf bytes size.toNat)) } := by
          rw [RuntimeFsNode.entry, hwritten, hnode]
          simp only [hreg]
          rfl
        have hchain : (fs.setNode (fs.openFiles t).node (fsWriteNode
            (fs.nodes (fs.openFiles t).node) (fs.openFiles t).offset size bytes)).chainNames
            = fs.chainNames := by
          refine chainNames_congr ?_ ?_
          · intro k
            by_cases hk : k = (fs.openFiles t).node
            · rw [hk, RuntimeFs.setNode_nodes_self, hnode]
              rfl
            · rw [RuntimeFs.setNode_nodes_of_ne hk]
          · intro k
            by_cases hk : k = (fs.openFiles t).node
            · rw [hk, RuntimeFs.setNode_nodes_self, hnode]
              rfl
            · rw [RuntimeFs.setNode_nodes_of_ne hk]
        rw [if_neg (by omega), heq]
        simp only [Except.map, seen, view_setOpen, hview, hentry]
        rw [RuntimeFs.handle_setOffset _ hused, hchain, hsum]
      · obtain rfl := hs.unique ⟨hlook, hreg⟩
        exact absurd (hfits t hlook) (by omega)

theorem Intact.close_refines (h : Intact fs) (object : UInt32) :
    seen (runtimeFsClose fs object) = fs.view.close object := by
  rw [FileStore.close, h.lookup_eq, runtimeFsClose]
  cases fsOpenFileLookup fs object with
  | none => rfl
  | some s =>
    simp only [Option.map_some, seen, view_setOpen]
    rfl

theorem RuntimeFsNode.entry_type {node : RuntimeFsNode}
    (h : node.type = fileTypeDirectory ∨ node.type = fileTypeRegular) :
    node.entry.kind.type = node.type := by
  rw [entry]
  rcases h with hd | hr
  · rw [if_pos hd, hd]
    rfl
  · rw [if_neg (by rw [hr]; decide), hr]
    rfl

theorem Intact.stat_refines (h : Intact fs) (object : UInt32) (st : Option RuntimeFileStat) :
    (runtimeFsStat fs object st).map (fun r ↦ (r.1, r.2.1.view, r.2.2))
      = .ok ((fs.view.stat object st).1, fs.view, (fs.view.stat object st).2) := by
  cases st with
  | none => rfl
  | some st =>
    unfold FileStore.stat
    rw [h.lookup_eq]
    cases hlook : fsOpenFileLookup fs object with
    | none =>
      simp only [runtimeFsStat, hlook]
      rfl
    | some s =>
      have hslot := h.sound.slots s (fsOpenFileLookup_eq_some hlook).1
      have hkind := h.kind hslot.node_used
      have hn := h.sound.nodes.node (fs.openFiles s).node
      have hsize : UInt32.ofNat (fs.nodes (fs.openFiles s).node).entry.kind.contents.length
          = (fs.nodes (fs.openFiles s).node).sizeBytes := by
        rcases hkind with hd | hr
        · rw [RuntimeFsNode.entry_kind_eq_directory.mpr hd, hn.dir_size hd]
          rfl
        · rw [RuntimeFsNode.entry_kind_of_regular hr, FileKind.contents,
            RuntimeFsNode.length_contents hn.size_le, UInt32.ofNat_toNat]
      simp only [runtimeFsStat, hlook, hslot.nodeIndexOf_node, ok_bind, Option.map_some, Except.map,
        RuntimeFsNode.entry_type hkind, hsize]
      rfl

theorem Intact.seek_refines (h : Intact fs) (object : UInt32) (offset : Int32) (whence : UInt32) :
    (runtimeFsSeek fs object offset whence).map seen = .ok (fs.view.seek object offset whence) := by
  rw [FileStore.seek, h.lookup_eq]
  cases hlook : fsOpenFileLookup fs object with
  | none =>
    simp only [runtimeFsSeek, hlook]
    rfl
  | some s =>
    have hused := (fsOpenFileLookup_eq_some hlook).1
    have hslot := h.sound.slots s hused
    simp only [Option.map_some]
    by_cases hdir : (fs.nodes (fs.openFiles s).node).type = fileTypeDirectory
    · have hdir' := hdir
      rw [← RuntimeFsNode.entry_kind_eq_directory] at hdir'
      have hnot : (fs.nodes (fs.openFiles s).node).type ≠ fileTypeRegular := by
        rw [hdir]
        decide
      simp only [hdir', runtimeFsSeek, hlook, hslot.nodeIndexOf_node, ok_bind]
      rw [if_pos hnot, fsNotRegularStatus, if_pos hdir]
      rfl
    have hreg := (h.kind hslot.node_used).resolve_left hdir
    have hsize := (h.sound.nodes.node (fs.openFiles s).node).size_le
    simp only [RuntimeFsNode.entry_kind_of_regular hreg]
    rcases runtimeFsSeek_spec h.sound object offset whence with
      ⟨hno, -⟩ | ⟨t, hs, ⟨hout, heq⟩ | ⟨base, target, hbase, htarget, hle, heq⟩⟩
    · exact absurd ⟨hlook, hreg⟩ (hno s)
    · obtain rfl := hs.unique ⟨hlook, hreg⟩
      rw [heq]
      cases hw : whenceOf whence with
      | none => rfl
      | some w =>
        have hrange := hout _ (seekBase_eq hw t hsize)
        simp only [hrange, if_true]
        rfl
    · obtain rfl := hs.unique ⟨hlook, hreg⟩
      rw [heq]
      cases hw : whenceOf whence with
      | none =>
        unfold whenceOf at hw
        unfold seekBase at hbase
        grind
      | some w =>
        obtain rfl := Option.some.inj (hbase.symm.trans (seekBase_eq hw t hsize))
        have hin : ¬((target : Int) < 0 ∨ 256 < (target : Int)) := by omega
        have hword : (UInt32.ofNat target).toNat = target := by
          rw [UInt32.toNat_ofNat']
          omega
        simp only [← htarget, hin, if_false, Except.map, seen, view_setOpen, Int.toNat_natCast]
        rw [RuntimeFs.handle_setOffset _ hused, hword]

/-- A listing reports one of the entries a store may report. -/
theorem Intact.readdir_refines (h : Intact fs) {object : UInt32}
    {entry entry' : Option RuntimeDirEntry} {status : Int}
    (hrun : runtimeFsReaddir fs object entry = .ok (status, fs', entry')) :
    fs'.view = fs.view ∧ fs.view.Lists object entry status entry' := by
  cases entry with
  | none =>
    obtain ⟨rfl, rfl, rfl⟩ : Status.ebadf = status ∧ fs = fs' ∧ none = entry' := by
      simpa using Except.ok.inj hrun
    exact ⟨rfl, .null⟩
  | some e =>
    have hlookup := h.lookup_eq object
    cases hlook : fsOpenFileLookup fs object with
    | none =>
      rw [hlook] at hlookup
      simp only [runtimeFsReaddir, hlook] at hrun
      obtain ⟨rfl, rfl, rfl⟩ : Status.ebadf = status ∧ fs = fs' ∧ some e = entry' := by
        simpa using Except.ok.inj hrun
      exact ⟨rfl, .closed hlookup⟩
    | some s =>
      have hused := (fsOpenFileLookup_eq_some hlook).1
      have hslot := h.sound.slots s hused
      have hsn := h.sound.nodes.node (fs.openFiles s).node
      rw [hlook] at hlookup
      simp only [runtimeFsReaddir, hlook, hslot.nodeIndexOf_node, ok_bind] at hrun
      by_cases hflag : (fs.openFiles s).flags &&& openRead = 0
      · rw [if_pos hflag] at hrun
        obtain ⟨rfl, rfl, rfl⟩ : Status.ebadf = status ∧ fs = fs' ∧ some e = entry' := by
          simpa using Except.ok.inj hrun
        exact ⟨rfl, .unreadable hlookup hflag⟩
      rw [if_neg hflag] at hrun
      by_cases hdir : (fs.nodes (fs.openFiles s).node).type = fileTypeDirectory
      case neg =>
        have hreg := (h.kind hslot.node_used).resolve_left hdir
        rw [if_pos hdir, if_pos hreg] at hrun
        obtain ⟨rfl, rfl, rfl⟩ : Status.enotdir = status ∧ fs = fs' ∧ some e = entry' := by
          simpa using Except.ok.inj hrun
        exact ⟨rfl, .notDirectory hlookup hflag
          (mt RuntimeFsNode.entry_kind_eq_directory.mp hdir)⟩
      rw [if_neg (not_not.mpr hdir)] at hrun
      have hdir' := RuntimeFsNode.entry_kind_eq_directory.mpr hdir
      cases hfind : (List.finRange 16).find? fun i : Fin 16 ↦
          (fs.openFiles s).dirCursor.toNat ≤ (i : ℕ) ∧ (fs.nodes i).used ≠ 0 ∧
            (fs.nodes i).parentIndex = (fs.openFiles s).nodeIndex with
      | none =>
        rw [hfind] at hrun
        obtain ⟨rfl, rfl, rfl⟩ : 0 = status ∧ fs = fs' ∧ some e = entry' := by
          simpa using Except.ok.inj hrun
        exact ⟨rfl, .finished hlookup hflag hdir'⟩
      | some i =>
        rw [hfind] at hrun
        obtain ⟨rfl, rfl, rfl⟩ : 1 = status ∧ fs.setOpen s { fs.openFiles s with
            dirCursor := UInt32.ofNat ((i : ℕ) + 1) } = fs' ∧
            some ⟨(fs.nodes i).type, copyName e.name (List.ofFn (fs.nodes i).name)⟩ = entry' := by
          simpa using Except.ok.inj hrun
        have hfound := List.find?_some hfind
        simp only [decide_eq_true_eq] at hfound
        obtain ⟨-, hui, hparentIndex⟩ := hfound
        have hni := h.sound.nodes.node i
        have hparent : (fs.nodes i).parent = (fs.openFiles s).node := by
          rw [Fin.ext_iff, hni.val_parent, hslot.val_node, hparentIndex]
        have htext : cstr (List.ofFn (copyName e.name (List.ofFn (fs.nodes i).name)))
            = (fs.nodes i).text := by
          rw [cstr_copyName, ← RuntimeFsNode.text, List.take_of_length_le]
          have hlt := RuntimeFsNode.text_length_lt (hni.terminated hui)
          omega
        refine ⟨?_, .found hlookup hflag hdir'
          (RuntimeFsNode.entry_type (h.kind hui)).symm ?_⟩
        · rw [view_setOpen]
          have hsame : fs.handle { fs.openFiles s with
              dirCursor := UInt32.ofNat ((i : ℕ) + 1) } = fs.view.handles s := rfl
          rw [hsame, FileStore.setHandle, Function.update_eq_self]
        · rw [htext]
          by_cases hi0 : i = 0
          · right
            subst hi0
            rw [h.root.parent_eq] at hparent
            rw [← hparent, h.root.text_eq]
            have hroot : fs.chainNames 0 = [] := Named.chainNames_root
            exact ⟨hroot, rfl, rfl⟩
          · left
            rw [← hparent, ← h.chain_eq hi0 hui]
            exact h.tree_chain hui

/-! ## Removing and renaming -/

theorem Intact.dropLast_chain (h : Intact fs) (hi0 : node ≠ 0) (hu : (fs.nodes node).used ≠ 0) :
    (fs.chainNames node).dropLast = fs.chainNames (fs.nodes node).parent := by
  rw [h.chain_eq hi0 hu, List.dropLast_concat]

/-- Only directories have children. -/
theorem Intact.hasChildren_iff_dir (h : Intact fs) (hu : (fs.nodes node).used ≠ 0)
    (hi0 : node ≠ 0) : fs.view.HasChildren (fs.chainNames node) ↔
      (fs.nodes node).type = fileTypeDirectory ∧ fsNodeHasChildren fs node = true := by
  rw [h.hasChildren_iff hu hi0]
  refine ⟨fun hchildren ↦ ⟨?_, hchildren⟩, And.right⟩
  rw [fsNodeHasChildren, List.any_eq_true] at hchildren
  obtain ⟨j, -, hj⟩ := hchildren
  obtain ⟨hju, hparent, -⟩ := of_decide_eq_true hj
  rw [← (h.sound.nodes.node j).val_parent, ← Fin.ext_iff] at hparent
  rw [← hparent]
  exact h.parent_type hju

theorem Intact.remove_refines (h : Intact fs) (pid : UInt32) (path : Option CString)
    (hspare : fs.resolve path ≠ some 0) :
    (runtimeFsRemove fs pid path).map seen = .ok (fs.view.remove pid path) := by
  cases path with
  | none => rfl
  | some p =>
    rw [runtimeFsRemove, FileStore.remove]
    by_cases h₀ : p.charAt 0 = slash
    case neg =>
      rw [if_pos h₀, if_pos h₀]
      rfl
    rw [if_neg (not_not.mpr h₀), if_neg (not_not.mpr h₀)]
    by_cases h₁ : p.charAt 1 = 0
    · rw [if_pos (by simp [fsPathIsRoot, h₀, h₁]), if_pos h₁]
      rfl
    rw [if_neg (by simp [fsPathIsRoot, h₁]), if_neg h₁,
      fsResolveExistingPath_eq h.sound.terminated h₀, ok_bind, h.tree_names h₀]
    cases hres : fs.resolve (some p) with
    | none => rfl
    | some node =>
      have hi0 : node ≠ 0 := by
        rintro rfl
        exact hspare hres
      obtain ⟨hu, hnames⟩ := h.resolve_eq_some hres
      rw [hnames]
      simp only [Option.elim_some, Option.map_some, reduceCtorEq, if_false,
        h.dropLast_chain hi0 hu, h.allows_chain hu, h.allows_chain (h.parent_used hu),
        (h.sound.nodes.node node).nodeIndexOf_parent, ok_bind, h.isOpen_eq hu]
      by_cases hown : fsNodeOwnerAllows (fs.nodes node) pid = false
      · rw [if_pos hown, if_pos (Or.inl hown)]
        rfl
      by_cases hpown : fsNodeOwnerAllows (fs.nodes (fs.nodes node).parent) pid = false
      · rw [if_neg hown, if_pos hpown, if_pos (Or.inr hpown)]
        rfl
      have hneither : ¬(fsNodeOwnerAllows (fs.nodes node) pid = false ∨
          fsNodeOwnerAllows (fs.nodes (fs.nodes node).parent) pid = false) := by
        rintro (ho | ho)
        · exact hown ho
        · exact hpown ho
      rw [if_neg hown, if_neg hpown, if_neg hneither]
      by_cases hopen : fsNodeIsOpen fs node = true
      · rw [if_pos hopen, if_pos hopen]
        rfl
      rw [if_neg hopen, if_neg hopen]
      by_cases hkids : (fs.nodes node).type = fileTypeDirectory ∧ fsNodeHasChildren fs node = true
      · rw [if_pos hkids, if_pos ((h.hasChildren_iff_dir hu hi0).mpr hkids)]
        rfl
      rw [if_neg hkids, if_neg (mt (h.hasChildren_iff_dir hu hi0).mp hkids)]
      rw [Bool.not_eq_false] at hown hpown
      rw [Bool.not_eq_true] at hopen
      have hr : Removes fs pid p node := by
        refine ⟨fun hroot ↦ h₁ hroot.2, hres, hown, hpown, hopen, fun hd ↦ ?_⟩
        by_contra hk
        exact hkids ⟨hd, by simpa using hk⟩
      have h' : Intact (fs.setNode node (fsClearNode (fs.nodes node))) :=
        ⟨h.sound.remove hr, h.root.setNode hi0 _⟩
      have hview := h.view_clear h' hu rfl fun s hs ↦ fsNodeIsOpen_eq_false h.sound hopen s hs
      simp only [Except.map, seen, hview]

/-- A node is below itself or above the new parent exactly if its names begin the new path. -/
theorem Intact.prefix_iff (h : Intact fs) (hi0 : node ≠ 0) (hu : (fs.nodes node).used ≠ 0)
    {parent : Fin 16} {leaf : List UInt8} (hparent : (fs.nodes parent).used ≠ 0)
    (hfree : fs.view.tree (fs.chainNames parent ++ [leaf]) = none) :
    fs.chainNames node <+: fs.chainNames parent ++ [leaf] ↔
      OnChain (fun j ↦ (fs.nodes j).parent) 0 node parent := by
  rw [h.onChain_iff hi0 hu hparent, List.prefix_concat_iff, or_iff_right]
  intro heq
  rw [← heq, h.tree_chain hu] at hfree
  exact absurd hfree (by simp)

theorem Intact.rename_refines (h : Intact fs) (pid : UInt32) (oldPath newPath : Option CString)
    (hspare : fs.resolve oldPath ≠ some 0) :
    (runtimeFsRename fs pid oldPath newPath).map seen
      = .ok (fs.view.rename pid oldPath newPath) := by
  cases oldPath with
  | none => rfl
  | some p =>
  cases newPath with
  | none => rfl
  | some q =>
    unfold runtimeFsRename FileStore.rename
    simp only
    by_cases habs : p.charAt 0 ≠ slash ∨ q.charAt 0 ≠ slash
    · rw [if_pos habs, if_pos habs]
      rfl
    rw [if_neg habs, if_neg habs, nameEquals_mem, ok_bind]
    rw [not_or, not_not, not_not] at habs
    by_cases hpq : p = q
    · rw [if_pos (by simpa using hpq), if_pos hpq]
      rfl
    rw [if_neg (by simpa using hpq), if_neg hpq]
    have hroots : (fsPathIsRoot (some p) = true ∨ fsPathIsRoot (some q) = true) ↔
        p.charAt 1 = 0 ∨ q.charAt 1 = 0 := by
      simp [fsPathIsRoot, habs]
    simp only [hroots]
    by_cases hroot : p.charAt 1 = 0 ∨ q.charAt 1 = 0
    · rw [if_pos hroot, if_pos hroot]
      rfl
    rw [if_neg hroot, if_neg hroot, fsResolveExistingPath_eq h.sound.terminated habs.1, ok_bind,
      fsResolvePath_eq h.sound.terminated, fsResolveParentPath_eq h.sound.terminated]
    rw [not_or] at hroot
    have htree := h.tree_names habs.2
    rw [h.tree_names habs.1, h.parent_names habs.2]
    cases hres : fs.resolve (some p) with
    | none => rfl
    | some node =>
    have hi0 : node ≠ 0 := by
      rintro rfl
      exact hspare hres
    obtain ⟨hu, hnames⟩ := h.resolve_eq_some hres
    simp only [Option.elim_some, Option.map_some, reduceCtorEq, if_false, ok_bind]
    cases hnew : fs.resolve (some q) with
    | some existing =>
      rw [hnew] at htree
      rw [htree]
      rfl
    | none =>
    rw [hnew, Option.map_none] at htree
    rw [htree]
    simp only [ne_eq, not_true_eq_false, if_false]
    cases hpar : fs.resolveParent (some q) with
    | error status => rfl
    | ok found =>
    obtain ⟨leaf, parent⟩ := found
    obtain ⟨hparent, hqnames⟩ := h.resolveParent_eq_ok hpar
    obtain ⟨-, -, hnz, hlen, -, -⟩ := RuntimeFs.resolveParent_eq_ok hpar
    have hparentDir : (fs.nodes parent).type = fileTypeDirectory := by
      rcases (RuntimeFs.resolveParent_eq_ok hpar).2.2.2.2.1 with rfl | hd
      · exact h.root.type
      · exact hd.2
    rw [hqnames] at htree
    have hbelow := h.prefix_iff hi0 hu hparent htree
    simp only [Except.map, hnames, hqnames, h.dropLast_chain hi0 hu, h.allows_chain hu,
      h.allows_chain (h.parent_used hu), h.allows_chain hparent,
      (h.sound.nodes.node node).nodeIndexOf_parent, ok_bind]
    by_cases hown : fsNodeOwnerAllows (fs.nodes node) pid = false
    · rw [if_pos hown, if_pos (Or.inl hown)]
      rfl
    by_cases howns : fsNodeOwnerAllows (fs.nodes (fs.nodes node).parent) pid = false ∨
        fsNodeOwnerAllows (fs.nodes parent) pid = false
    · rw [if_neg hown, if_pos howns, if_pos (Or.inr howns)]
      rfl
    have hneither : ¬(fsNodeOwnerAllows (fs.nodes node) pid = false ∨
        fsNodeOwnerAllows (fs.nodes (fs.nodes node).parent) pid = false ∨
        fsNodeOwnerAllows (fs.nodes parent) pid = false) := by
      rintro (ho | ho)
      · exact hown ho
      · exact howns ho
    rw [if_neg hown, if_neg howns, if_neg hneither]
    obtain ⟨b, hb, hiff⟩ := fsParentChainContains_eq h.sound parent node
    by_cases hon : fs.chainNames node <+: fs.chainNames parent ++ [leaf]
    · -- everything above a directory is a directory, so the code's check finds the node
      have hdir := h.sound.nodes.dir_of_onChain ⟨hparent, hparentDir⟩ (hbelow.mp hon)
      rw [if_pos hdir, hb, ok_bind, if_pos (hiff.mpr (hbelow.mp hon)), if_pos hon]
      rfl
    have hfalse : b = false := by simpa using mt hiff.mp (mt hbelow.mpr hon)
    have hr : Renames fs pid p q node leaf parent := by
      rw [not_or, Bool.not_eq_false, Bool.not_eq_false] at howns
      rw [Bool.not_eq_false] at hown
      exact ⟨hpq, fun hroot' ↦ hroot.1 hroot'.2, fun hroot' ↦ hroot.2 hroot'.2, hres, hnew, hpar,
        hown, howns.1, howns.2, fun _ ↦ mt hbelow.mpr hon⟩
    have h' : Intact (fs.setNode node (renamedNode fs node leaf parent)) :=
      ⟨h.sound.rename hr, h.root.setNode hi0 _⟩
    have hview := h.view_move h' hi0 hu hu rfl (by rwa [renamedNode_parent])
      (by rw [renamedNode_parent]; exact mt hbelow.mpr hon)
      (by rwa [renamedNode_parent, renamedNode_text fs node parent hnz hlen])
    rw [renamedNode_parent, renamedNode_text fs node parent hnz hlen] at hview
    simp only [hb, hfalse, ok_bind, Bool.false_eq_true, if_false, ite_self]
    rw [if_neg hon]
    exact congrArg (fun S ↦ Except.ok (Status.ok, S)) hview

/-! ## One call -/

theorem FsCall.run_eq_answer (fs : RuntimeFs) (call : FsCall) :
    call.run fs = (call.answer fs).map fun r ↦ (r.1.status, r.2) := by
  cases call with
  | mkdir pid path mode =>
    rw [run, answer]
    cases runtimeFsMkdir fs pid path mode <;> rfl
  | «open» pid path flags object =>
    rw [run, answer]
    cases runtimeFsOpen fs pid path flags object <;> rfl
  | read object buffer size =>
    rw [run, answer]
    cases runtimeFsRead fs object buffer size <;> rfl
  | write object buffer size =>
    rw [run, answer]
    cases runtimeFsWrite fs object buffer size <;> rfl
  | close object => rfl
  | stat object st =>
    rw [run, answer]
    cases runtimeFsStat fs object st <;> rfl
  | readdir object entry =>
    rw [run, answer]
    cases runtimeFsReaddir fs object entry <;> rfl
  | seek object offset whence =>
    rw [run, answer]
    cases runtimeFsSeek fs object offset whence <;> rfl
  | remove pid path =>
    rw [run, answer]
    cases runtimeFsRemove fs pid path <;> rfl
  | rename pid oldPath newPath =>
    rw [run, answer]
    cases runtimeFsRename fs pid oldPath newPath <;> rfl

theorem FsCall.run_of_answer {call : FsCall} {a : FsAnswer} (h : call.answer fs = .ok (a, fs')) :
    call.run fs = .ok (a.status, fs') := by
  rw [run_eq_answer, h]
  rfl

theorem Intact.store_step (h : Intact fs) {call : FsCall} {a : FsAnswer} (hfits : call.Fits fs)
    (hspare : call.SparesRoot fs) (hrun : call.answer fs = .ok (a, fs')) :
    fs.view.Step call a fs'.view := by
  have hresolve : ∀ path, fsResolvePath fs path ≠ .ok (some 0) → fs.resolve path ≠ some 0 := by
    intro path hpath h0
    rw [fsResolvePath_eq h.sound.terminated, h0] at hpath
    exact hpath rfl
  cases call with
  | mkdir pid path mode =>
    obtain ⟨⟨status, fs₁⟩, hcall, hr⟩ := bind_eq_ok.mp hrun
    obtain ⟨rfl, rfl⟩ := Prod.mk.inj (Except.ok.inj hr)
    have hstore := h.mkdir_refines pid path mode
    rw [hcall] at hstore
    have hanswer : fs.view.mkdir pid path mode = (status, fs₁.view) :=
      (Except.ok.inj hstore).symm
    have hstep : fs.view.Step (.mkdir pid path mode) _ _ := .mkdir
    rwa [hanswer] at hstep
  | «open» pid path flags object =>
    obtain ⟨⟨status, fs₁, object'⟩, hcall, hr⟩ := bind_eq_ok.mp hrun
    obtain ⟨rfl, rfl⟩ := Prod.mk.inj (Except.ok.inj hr)
    have hstore := h.open_refines pid path flags object
    rw [hcall] at hstore
    have hanswer : fs.view.open pid path flags object = (status, fs₁.view, object') :=
      (Except.ok.inj hstore).symm
    have hstep : fs.view.Step (.open pid path flags object) _ _ := .open
    rwa [hanswer] at hstep
  | read object buffer size =>
    obtain ⟨⟨status, fs₁, bytes⟩, hcall, hr⟩ := bind_eq_ok.mp hrun
    obtain ⟨rfl, rfl⟩ := Prod.mk.inj (Except.ok.inj hr)
    have hstore := h.read_refines object buffer size
    rw [hcall] at hstore
    have hanswer : fs.view.read object buffer size = (status, fs₁.view, bytes) :=
      (Except.ok.inj hstore).symm
    have hstep : fs.view.Step (.read object buffer size) _ _ := .read
    rwa [hanswer] at hstep
  | write object buffer size =>
    obtain ⟨⟨status, fs₁⟩, hcall, hr⟩ := bind_eq_ok.mp hrun
    obtain ⟨rfl, rfl⟩ := Prod.mk.inj (Except.ok.inj hr)
    have hstore := h.write_refines object buffer size hfits
    rw [hcall] at hstore
    have hanswer : fs.view.write object buffer size = (status, fs₁.view) :=
      (Except.ok.inj hstore).symm
    have hstep : fs.view.Step (.write object buffer size) _ _ := .write
    rwa [hanswer] at hstep
  | close object =>
    obtain ⟨rfl, rfl⟩ := Prod.mk.inj (Except.ok.inj hrun)
    have hstore := h.close_refines object
    have hstep : fs.view.Step (.close object) _ _ := .close
    rwa [← hstore] at hstep
  | stat object st =>
    obtain ⟨⟨status, fs₁, st'⟩, hcall, hr⟩ := bind_eq_ok.mp hrun
    obtain ⟨rfl, rfl⟩ := Prod.mk.inj (Except.ok.inj hr)
    have hstore := h.stat_refines object st
    rw [hcall] at hstore
    obtain ⟨hstatus, hpair⟩ := Prod.mk.inj (Except.ok.inj hstore)
    obtain ⟨hview, hst⟩ := Prod.mk.inj hpair
    have hanswer : fs.view.stat object st = (status, st') := Prod.ext hstatus.symm hst.symm
    have hsame : fs₁.view = fs.view := hview
    have hstep : fs.view.Step (.stat object st) _ _ := .stat
    rw [hsame]
    rwa [hanswer] at hstep
  | readdir object entry =>
    obtain ⟨⟨status, fs₁, entry'⟩, hcall, hr⟩ := bind_eq_ok.mp hrun
    obtain ⟨rfl, rfl⟩ := Prod.mk.inj (Except.ok.inj hr)
    obtain ⟨hview, hlists⟩ := h.readdir_refines hcall
    rw [hview]
    exact .readdir hlists
  | seek object offset whence =>
    obtain ⟨⟨status, fs₁⟩, hcall, hr⟩ := bind_eq_ok.mp hrun
    obtain ⟨rfl, rfl⟩ := Prod.mk.inj (Except.ok.inj hr)
    have hstore := h.seek_refines object offset whence
    rw [hcall] at hstore
    have hanswer : fs.view.seek object offset whence = (status, fs₁.view) :=
      (Except.ok.inj hstore).symm
    have hstep : fs.view.Step (.seek object offset whence) _ _ := .seek
    rwa [hanswer] at hstep
  | remove pid path =>
    obtain ⟨⟨status, fs₁⟩, hcall, hr⟩ := bind_eq_ok.mp hrun
    obtain ⟨rfl, rfl⟩ := Prod.mk.inj (Except.ok.inj hr)
    have hstore := h.remove_refines pid path (hresolve path hspare)
    rw [hcall] at hstore
    have hanswer : fs.view.remove pid path = (status, fs₁.view) := (Except.ok.inj hstore).symm
    have hstep : fs.view.Step (.remove pid path) _ _ := .remove
    rwa [hanswer] at hstep
  | rename pid oldPath newPath =>
    obtain ⟨⟨status, fs₁⟩, hcall, hr⟩ := bind_eq_ok.mp hrun
    obtain ⟨rfl, rfl⟩ := Prod.mk.inj (Except.ok.inj hr)
    have hstore := h.rename_refines pid oldPath newPath (hresolve oldPath hspare)
    rw [hcall] at hstore
    have hanswer : fs.view.rename pid oldPath newPath = (status, fs₁.view) :=
      (Except.ok.inj hstore).symm
    have hstep : fs.view.Step (.rename pid oldPath newPath) _ _ := .rename
    rwa [hanswer] at hstep

theorem Intact.of_answer (h : Intact fs) {call : FsCall} {a : FsAnswer}
    (hspare : call.SparesRoot fs) (hrun : call.answer fs = .ok (a, fs')) : Intact fs' :=
  ⟨FsCall.sound_of_run h.sound (FsCall.run_of_answer hrun),
    FsCall.run_rootIntact h.sound h.root hspare (FsCall.run_of_answer hrun)⟩

end TensorOS
