import TensorOS.Fs.Run
import TensorOS.Lib.Volume

/-!
# File contents

A regular node holds the list of its first `size_bytes` bytes, and a used slot on it is a cursor.
Under this reading the successful opens, the reads, the writes, the seeks and the closes of the file
system are the operations of a `Volume` with capacity 256: `FileStep.volume_step` for one operation
and `fileRun_refines` for any sequence of them, however the slots share files.
-/

namespace TensorOS

/-! ## The volume of a file system -/

/-- The bytes of a file. -/
def RuntimeFsNode.contents (node : RuntimeFsNode) : List UInt8 :=
  (List.ofFn node.data).take node.sizeBytes.toNat

/-- The cursor a slot is, if it is in use on a regular file. -/
def RuntimeFsOpenFile.cursor (nodes : Fin 16 → RuntimeFsNode) (openFile : RuntimeFsOpenFile) :
    Option (Fin 16 × ℕ) :=
  if openFile.used ≠ 0 ∧ (nodes openFile.node).type = fileTypeRegular then
    some (openFile.node, openFile.offset.toNat)
  else none

/-- The files and cursors of a file system. -/
def RuntimeFs.volume (fs : RuntimeFs) : Volume (Fin 16) (Fin 8) UInt8 where
  file i := if (fs.nodes i).type = fileTypeRegular then (fs.nodes i).contents else []
  cursor s := (fs.openFiles s).cursor fs.nodes

variable {fs fs' : RuntimeFs}

theorem RuntimeFs.volume_file {i : Fin 16} (h : (fs.nodes i).type = fileTypeRegular) :
    fs.volume.file i = (fs.nodes i).contents := if_pos h

theorem RegularSlot.cursor {object : UInt32} {s : Fin 8} (h : RegularSlot fs object s) :
    fs.volume.cursor s = some ((fs.openFiles s).node, (fs.openFiles s).offset.toNat) :=
  if_pos ⟨h.used, h.regular⟩

/-- A cursor depends on the nodes only through the type of its own node. -/
theorem RuntimeFsOpenFile.cursor_congr {nodes nodes' : Fin 16 → RuntimeFsNode}
    {openFile : RuntimeFsOpenFile} (h : openFile.used ≠ 0 →
      (nodes' openFile.node).type = (nodes openFile.node).type) :
    openFile.cursor nodes' = openFile.cursor nodes := by
  unfold cursor
  by_cases hu : openFile.used ≠ 0
  · simp only [h hu]
  · rw [if_neg fun hc ↦ hu hc.1, if_neg fun hc ↦ hu hc.1]

theorem volume_setOpen (fs : RuntimeFs) (s : Fin 8) (o : RuntimeFsOpenFile) :
    (fs.setOpen s o).volume = fs.volume.setCursor s (o.cursor fs.nodes) := by
  have hcursor : (fs.setOpen s o).volume.cursor
      = Function.update fs.volume.cursor s (o.cursor fs.nodes) := by
    funext t
    by_cases hts : t = s
    · subst hts
      rw [Function.update_self]
      simp [RuntimeFs.volume]
    · rw [Function.update_of_ne hts]
      simp [RuntimeFs.volume, RuntimeFs.setOpen_openFiles_of_ne hts]
  exact congrArg (Volume.mk fs.volume.file) hcursor

/-- A node update that keeps the type keeps the cursors. -/
theorem volume_setNode {i : Fin 16} {n : RuntimeFsNode} (hn : n.type = fileTypeRegular)
    (hi : (fs.nodes i).type = fileTypeRegular) :
    (fs.setNode i n).volume = fs.volume.setFile i n.contents := by
  have htype : ∀ j, ((fs.setNode i n).nodes j).type = (fs.nodes j).type := by
    intro j
    by_cases hj : j = i
    · rw [hj, RuntimeFs.setNode_nodes_self, hn, hi]
    · rw [RuntimeFs.setNode_nodes_of_ne hj]
  have hfile : (fs.setNode i n).volume.file = Function.update fs.volume.file i n.contents := by
    funext j
    by_cases hj : j = i
    · subst hj
      rw [Function.update_self, RuntimeFs.volume_file (by rw [htype, hi]),
        RuntimeFs.setNode_nodes_self]
    · rw [Function.update_of_ne hj]
      simp [RuntimeFs.volume, RuntimeFs.setNode_nodes_of_ne hj]
  have hcursor : (fs.setNode i n).volume.cursor = fs.volume.cursor := by
    funext s
    exact RuntimeFsOpenFile.cursor_congr fun _ ↦ htype _
  exact congrArg₂ Volume.mk hfile hcursor

/-! ## Contents after a write and a truncation -/

theorem RuntimeFsNode.length_contents {node : RuntimeFsNode} (h : node.sizeBytes.toNat ≤ 256) :
    node.contents.length = node.sizeBytes.toNat := by
  rw [contents, List.length_take, List.length_ofFn]
  omega

theorem RuntimeFsNode.getElem?_contents (node : RuntimeFsNode) (k : Fin 256) :
    node.contents[(k : ℕ)]? = if (k : ℕ) < node.sizeBytes.toNat then some (node.data k)
      else none := by
  rw [contents, List.getElem?_take]
  split
  · rw [List.getElem?_ofFn, dif_pos k.isLt]
  · rfl

/-- The bytes a write is given. -/
def bytesOf (bytes : ℕ → UInt8) (n : ℕ) : List UInt8 := List.ofFn fun k : Fin n ↦ bytes k

theorem length_bytesOf (bytes : ℕ → UInt8) (n : ℕ) : (bytesOf bytes n).length = n := by
  simp [bytesOf]

/-- **The stored bytes of a write** are the list with the range replaced. -/
theorem contents_fsWriteNode {node : RuntimeFsNode} (hsize : node.sizeBytes.toNat ≤ 256)
    {offset size : UInt32} (bytes : ℕ → UInt8) (hend : offset.toNat + size.toNat ≤ 256) :
    (fsWriteNode node offset size bytes).contents
      = writeAt node.contents offset.toNat (bytesOf bytes size.toNat) := by
  have hval : (fsWriteNode node offset size bytes).sizeBytes.toNat
      = max node.sizeBytes.toNat (offset.toNat + size.toNat) := by
    rw [fsWriteNode_eq node bytes hend, UInt32.toNat_ofNat']
    omega
  have hlen : (fsWriteNode node offset size bytes).contents.length
      = (writeAt node.contents offset.toNat (bytesOf bytes size.toNat)).length := by
    rw [RuntimeFsNode.length_contents (by omega), hval, length_writeAt, length_bytesOf,
      RuntimeFsNode.length_contents hsize]
  refine List.ext_getElem? fun k ↦ ?_
  by_cases hk : k < 256
  · have hnew := (fsWriteNode node offset size bytes).getElem?_contents ⟨k, hk⟩
    have hold := node.getElem?_contents ⟨k, hk⟩
    simp only at hnew hold
    rw [hnew, getElem?_writeAt, length_bytesOf, RuntimeFsNode.length_contents hsize, hold, hval,
      fsWriteNode_eq node bytes hend]
    by_cases hin : offset.toNat ≤ k ∧ k < offset.toNat + size.toNat
    · rw [if_pos hin, if_pos (by omega)]
      simp only [hin, and_self, if_true, bytesOf]
      rw [List.getElem?_ofFn, dif_pos (by omega)]
    · rw [if_neg hin]
      by_cases hgap : node.sizeBytes.toNat ≤ k ∧ k < offset.toNat
      · rw [if_pos hgap, if_pos (by omega)]
        simp only [hin, if_false, hgap, and_self, if_true]
      · rw [if_neg hgap]
        simp only [hin, if_false, hgap]
        exact if_congr (by omega) rfl rfl
  · rw [List.getElem?_eq_none, List.getElem?_eq_none]
    · rw [← hlen, RuntimeFsNode.length_contents (by omega), hval]
      omega
    · rw [RuntimeFsNode.length_contents (by omega), hval]
      omega

/-! ## Operations as events -/

/-- The meaning of a `whence` argument. -/
def whenceOf (whence : UInt32) : Option Whence :=
  if whence = seekSet then some .start
  else if whence = seekCur then some .cursor
  else if whence = seekEnd then some .finish
  else none

/-- One call on a regular file that succeeds, or that is refused for its offset or its size, with
what the caller observes of it. -/
inductive FileStep (fs : RuntimeFs) : FileEvent (Fin 16) (Fin 8) UInt8 → RuntimeFs → Prop
  | open {pid flags o : UInt32} {path : Option CString} {fs' : RuntimeFs} {s : Fin 8}
      {i : Fin 16} :
      runtimeFsOpen fs pid path flags (some o)
        = .ok (Status.ok, fs', some (UInt32.ofNat ((s : ℕ) + 1))) →
      (fs'.openFiles s).nodeIndex.toNat = i → (fs'.nodes i).type = fileTypeRegular →
      FileStep fs (.open s i (flags &&& openTruncate ≠ 0)) fs'
  | read {object size : UInt32} {bytes bytes' : ℕ → UInt8} {fs' : RuntimeFs} {s : Fin 8} {n : ℕ} :
      object.toNat = s + 1 →
      runtimeFsRead fs object (some bytes) size = .ok ((n : Int), fs', some bytes') →
      FileStep fs (.read s size.toNat (bytesOf bytes' n)) fs'
  | write {object size : UInt32} {bytes : ℕ → UInt8} {fs' : RuntimeFs} {s : Fin 8} {n : ℕ} :
      object.toNat = s + 1 → (FsCall.write object (some bytes) size).Fits fs →
      runtimeFsWrite fs object (some bytes) size = .ok ((n : Int), fs') →
      FileStep fs (.write s (bytesOf bytes size.toNat)) fs'
  | writeRefused {object size : UInt32} {bytes : ℕ → UInt8} {fs' : RuntimeFs} {s : Fin 8} :
      object.toNat = s + 1 → (FsCall.write object (some bytes) size).Fits fs →
      runtimeFsWrite fs object (some bytes) size = .ok (Status.enospc, fs') →
      FileStep fs (.writeRefused s (bytesOf bytes size.toNat)) fs'
  | seek {object whence : UInt32} {offset : Int32} {w : Whence} {fs' : RuntimeFs} {s : Fin 8}
      {target : ℕ} :
      object.toNat = s + 1 → whenceOf whence = some w →
      runtimeFsSeek fs object offset whence = .ok ((target : Int), fs') →
      FileStep fs (.seek s w offset.toInt target) fs'
  | seekRefused {object whence : UInt32} {offset : Int32} {w : Whence} {fs' : RuntimeFs}
      {s : Fin 8} :
      object.toNat = s + 1 → whenceOf whence = some w →
      runtimeFsSeek fs object offset whence = .ok (Status.einval, fs') →
      FileStep fs (.seekRefused s w offset.toInt) fs'
  | close {object : UInt32} {fs' : RuntimeFs} {s : Fin 8} :
      RegularSlot fs object s → runtimeFsClose fs object = (Status.ok, fs') →
      FileStep fs (.close s) fs'

/-- Any sequence of such calls. -/
inductive FileRun : RuntimeFs → List (FileEvent (Fin 16) (Fin 8) UInt8) → RuntimeFs → Prop
  | nil {fs : RuntimeFs} : FileRun fs [] fs
  | cons {fs fs' fs'' : RuntimeFs} {e : FileEvent (Fin 16) (Fin 8) UInt8}
      {es : List (FileEvent (Fin 16) (Fin 8) UInt8)} :
      FileStep fs e fs' → FileRun fs' es fs'' → FileRun fs (e :: es) fs''

theorem FileStep.fsStep {e : FileEvent (Fin 16) (Fin 8) UInt8} (h : FileStep fs e fs') :
    FsStep fs fs' := by
  cases h with
  | @«open» pid flags o path _ s i hrun =>
    exact ⟨.open pid path flags (some o), _, trivial, by rw [FsCall.run, hrun, ok_bind]⟩
  | @read object size bytes _ _ s n _ hrun =>
    exact ⟨.read object (some bytes) size, _, trivial, by rw [FsCall.run, hrun, ok_bind]⟩
  | write _ hfits hrun => exact ⟨_, _, hfits, hrun⟩
  | writeRefused _ hfits hrun => exact ⟨_, _, hfits, hrun⟩
  | @seek object whence offset _ _ _ _ _ _ hrun =>
    exact ⟨.seek object offset whence, _, trivial, hrun⟩
  | @seekRefused object whence offset _ _ _ _ _ hrun =>
    exact ⟨.seek object offset whence, _, trivial, hrun⟩
  | @close object _ _ _ hrun =>
    exact ⟨.close object, Status.ok, trivial, by rw [FsCall.run, hrun]⟩

/-! ## Each operation refines its event -/

theorem seekBase_eq {whence : UInt32} {w : Whence} (hw : whenceOf whence = some w)
    (s : Fin 8) (hsize : (fs.nodes (fs.openFiles s).node).sizeBytes.toNat ≤ 256) :
    seekBase fs s whence = some (w.base (fs.openFiles s).offset.toNat
      (fs.nodes (fs.openFiles s).node).contents.length) := by
  rw [RuntimeFsNode.length_contents hsize]
  unfold whenceOf at hw
  unfold seekBase
  split at hw
  · next h => rw [if_pos h, ← Option.some.inj hw, Whence.base]
  · next h₁ =>
    rw [if_neg h₁]
    split at hw
    · next h => rw [if_pos h, ← Option.some.inj hw, Whence.base]
    · next h₂ =>
      rw [if_neg h₂]
      split at hw
      · next h => rw [if_pos h, ← Option.some.inj hw, Whence.base]
      · cases hw

theorem RegularSlot.eq_of_object {object : UInt32} {s t : Fin 8} (h : RegularSlot fs object t)
    (hs : object.toNat = s + 1) : t = s := by
  have := (fsOpenFileLookup_eq_some h.lookup).2
  exact Fin.ext (by omega)

theorem volume_fsOpenTruncate {node : Fin 16} (hreg : (fs.nodes node).type = fileTypeRegular)
    (flags : UInt32) : (fsOpenTruncate fs node flags).volume
      = if flags &&& openTruncate ≠ 0 then fs.volume.setFile node [] else fs.volume := by
  unfold fsOpenTruncate
  by_cases htr : flags &&& openTruncate ≠ 0
  · rw [if_pos ⟨htr, hreg⟩, if_pos htr, volume_setNode _ hreg, fsZeroRange_eq]
    · rfl
    · rw [fsZeroRange_eq]
      exact hreg
  · rw [if_neg fun h ↦ htr h.1, if_neg htr]

/-- Creating a file leaves the volume as it was: its node was no file before, and is an empty one
now. -/
theorem volume_created (h : Sound fs) {pid : UInt32} {path : Option CString} {node parent : Fin 16}
    {leaf : List UInt8} (hc : CreateAt fs pid path node leaf parent) :
    (fs.setNode node (createdNode fs node fileTypeRegular parent pid 420 leaf)).volume
      = fs.volume := by
  have htype : (createdNode fs node fileTypeRegular parent pid 420 leaf).type
    = fileTypeRegular := rfl
  have hempty : (createdNode fs node fileTypeRegular parent pid 420 leaf).contents = [] := by
    have hsize : (createdNode fs node fileTypeRegular parent pid 420 leaf).sizeBytes = 0 := by
      simp [createdNode, fsNamedNode, fsFreshNode, fsZeroRange_eq]
    rw [RuntimeFsNode.contents, hsize]
    rfl
  have hold : (fs.nodes node).type ≠ fileTypeRegular := by
    rw [(h.nodes.node node).unused_type hc.unused]
    decide
  have hfile : (fs.setNode node
      (createdNode fs node fileTypeRegular parent pid 420 leaf)).volume.file
      = fs.volume.file := by
    funext j
    by_cases hj : j = node
    · subst hj
      rw [RuntimeFs.volume_file (by rw [RuntimeFs.setNode_nodes_self, htype]),
        RuntimeFs.setNode_nodes_self, hempty]
      exact (if_neg hold).symm
    · simp [RuntimeFs.volume, RuntimeFs.setNode_nodes_of_ne hj]
  have hcursor : (fs.setNode node
      (createdNode fs node fileTypeRegular parent pid 420 leaf)).volume.cursor
      = fs.volume.cursor := by
    funext s
    refine RuntimeFsOpenFile.cursor_congr fun hs ↦ ?_
    exact congrArg _ (RuntimeFs.setNode_nodes_of_ne (h.slot_node_ne hc.unused hs))
  exact congrArg₂ Volume.mk hfile hcursor

theorem OpenTarget.volume_eq (h : Sound fs) {pid flags : UInt32} {path : Option CString}
    {node : Fin 16} (ht : OpenTarget fs pid path flags node fs') : fs'.volume = fs.volume := by
  cases ht with
  | existing _ => rfl
  | created hc _ => exact volume_created h hc

theorem volume_step_open (h : Sound fs) {pid flags o : UInt32} {path : Option CString} {s : Fin 8}
    {i : Fin 16} (hrun : runtimeFsOpen fs pid path flags (some o)
      = .ok (Status.ok, fs', some (UInt32.ofNat ((s : ℕ) + 1))))
    (hi : (fs'.openFiles s).nodeIndex.toNat = i) (hreg : (fs'.nodes i).type = fileTypeRegular) :
    fs.volume.Step 256 (.open s i (flags &&& openTruncate ≠ 0)) fs'.volume := by
  obtain ⟨node, fs₁, ht, hfree, rfl⟩ := runtimeFsOpen_eq_ok h hrun
  obtain rfl : i = node := by
    rw [RuntimeFs.setOpen_openFiles_self] at hi
    exact Fin.ext (by simpa [openedSlot] using hi.symm)
  have hkind : (fs₁.nodes i).type = fileTypeRegular := by
    rw [RuntimeFs.setOpen_nodes, (fsOpenTruncate_kind fs₁ i flags i).2] at hreg
    exact hreg
  have hcursor : (openedSlot pid i flags).cursor (fsOpenTruncate fs₁ i flags).nodes
      = some (i, 0) := by
    have hpos : (openedSlot pid i flags).used ≠ 0 ∧
        ((fsOpenTruncate fs₁ i flags).nodes (openedSlot pid i flags).node).type
          = fileTypeRegular := by
      rw [openedSlot_node, (fsOpenTruncate_kind fs₁ i flags i).2]
      exact ⟨by simp [openedSlot], hkind⟩
    rw [RuntimeFsOpenFile.cursor, if_pos hpos, openedSlot_node]
    rfl
  rw [volume_setOpen, hcursor, volume_fsOpenTruncate hkind, ht.volume_eq h]
  have hnone : fs.volume.cursor s = none := by
    rw [← ht.volume_eq h]
    exact if_neg fun hu ↦ hu.1 hfree
  have hstep : fs.volume.Step 256 (.open s i (flags &&& openTruncate ≠ 0)) _ := .open hnone
  simpa using hstep

/-- The bytes a read delivers are a piece of the contents. -/
theorem bytesOf_read (h : Sound fs) (s : Fin 8) {size : UInt32} {bytes' : ℕ → UInt8}
    (hbytes : ∀ k, k < readCount fs s size → ∀ hk : (fs.openFiles s).offset.toNat + k < 256,
      bytes' k = (fs.nodes (fs.openFiles s).node).data
        ⟨(fs.openFiles s).offset.toNat + k, hk⟩) :
    bytesOf bytes' (readCount fs s size)
      = (((fs.nodes (fs.openFiles s).node).contents.drop (fs.openFiles s).offset.toNat).take
          size.toNat) := by
  have hsize := (h.nodes.node (fs.openFiles s).node).size_le
  refine List.ext_getElem? fun k ↦ ?_
  by_cases hk : k < readCount fs s size
  · have hbound : (fs.openFiles s).offset.toNat + k < 256 := by
      rw [readCount] at hk
      omega
    have hget := (fs.nodes (fs.openFiles s).node).getElem?_contents
      ⟨(fs.openFiles s).offset.toNat + k, hbound⟩
    simp only at hget
    rw [readCount] at hk
    rw [bytesOf, List.getElem?_ofFn, dif_pos (by rw [readCount]; omega),
      List.getElem?_take_of_lt (by omega), List.getElem?_drop, hget, if_pos (by omega),
      hbytes k (by rw [readCount]; omega) hbound]
  · rw [List.getElem?_eq_none (by rw [length_bytesOf]; omega), List.getElem?_eq_none]
    rw [List.length_take, List.length_drop, RuntimeFsNode.length_contents hsize]
    rw [readCount] at hk
    omega

theorem cursor_setOffset {object : UInt32} {s : Fin 8} (hs : RegularSlot fs object s) {offset : ℕ}
    (hle : offset ≤ 256) :
    { fs.openFiles s with offset := UInt32.ofNat offset }.cursor fs.nodes
      = some ((fs.openFiles s).node, offset) := by
  have hval : (UInt32.ofNat offset).toNat = offset := by
    rw [UInt32.toNat_ofNat']
    omega
  have hpos : (fs.openFiles s).used ≠ 0 ∧
      (fs.nodes (fs.openFiles s).node).type = fileTypeRegular := ⟨hs.used, hs.regular⟩
  exact (if_pos hpos).trans (by rw [hval]; rfl)

theorem volume_step_read (h : Sound fs) {object size : UInt32} {bytes bytes' : ℕ → UInt8}
    {s : Fin 8} {n : ℕ} (hs : object.toNat = s + 1)
    (hrun : runtimeFsRead fs object (some bytes) size = .ok ((n : Int), fs', some bytes')) :
    fs.volume.Step 256 (.read s size.toNat (bytesOf bytes' n)) fs'.volume := by
  rcases runtimeFsRead_spec h object (some bytes) size with
    ⟨_, status, hneg, heq⟩ | ⟨t, _, bytes₁, ht, _, _, heq, hbytes, _⟩
  · have hstatus : status = n := congrArg Prod.fst (Except.ok.inj (heq.symm.trans hrun))
    omega
  obtain rfl := ht.eq_of_object hs
  have hres := Except.ok.inj (heq.symm.trans hrun)
  have hn : readCount fs t size = n := Int.ofNat.inj (congrArg Prod.fst hres)
  have hfs := congrArg (fun r ↦ r.2.1) hres
  obtain rfl : bytes₁ = bytes' := Option.some.inj (congrArg (fun r ↦ r.2.2) hres)
  have hread := bytesOf_read h t hbytes
  have hsize := (h.nodes.node (fs.openFiles t).node).size_le
  have hoff := (h.slots t ht.used).offset_le
  have hcount : (fs.openFiles t).offset.toNat + readCount fs t size ≤ 256 := by
    rw [readCount]
    omega
  simp only at hfs
  have hstep : fs.volume.Step 256 (.read t size.toNat _) _ := .read ht.cursor
  rw [RuntimeFs.volume_file ht.regular, ← hread, length_bytesOf] at hstep
  rw [← hfs, volume_setOpen, cursor_setOffset ht hcount, ← hn]
  exact hstep

theorem volume_step_write (h : Sound fs) {object size : UInt32} {bytes : ℕ → UInt8} {s : Fin 8}
    {n : ℕ} (hs : object.toNat = s + 1)
    (hrun : runtimeFsWrite fs object (some bytes) size = .ok ((n : Int), fs')) :
    fs.volume.Step 256 (.write s (bytesOf bytes size.toNat)) fs'.volume := by
  rcases runtimeFsWrite_spec h object (some bytes) size with
    ⟨_, status, hneg, _, heq⟩ | ⟨t, bytes₁, ht, _, hbytes, ⟨_, heq⟩ | ⟨hend, heq⟩ | ⟨_, heq⟩⟩
  · have hstatus : status = n := congrArg Prod.fst (Except.ok.inj (heq.symm.trans hrun))
    omega
  · have hstatus : Status.enospc = n := congrArg Prod.fst (Except.ok.inj (heq.symm.trans hrun))
    exact absurd hstatus (by rw [Status.enospc]; omega)
  · obtain rfl := ht.eq_of_object hs
    obtain rfl := Option.some.inj hbytes
    have hfs := congrArg Prod.snd (Except.ok.inj (heq.symm.trans hrun))
    simp only at hfs
    have hsize := (h.nodes.node (fs.openFiles t).node).size_le
    have hkeep := fsWriteNode_eq (fs.nodes (fs.openFiles t).node) bytes hend
    have hword : (fs.openFiles t).offset + size
        = UInt32.ofNat ((fs.openFiles t).offset.toNat + size.toNat) := by
      rw [UInt32.ofNat_add, UInt32.ofNat_toNat, UInt32.ofNat_toNat]
    have htype : (fsWriteNode (fs.nodes (fs.openFiles t).node) (fs.openFiles t).offset size
        bytes).type = fileTypeRegular := by
      rw [hkeep]
      exact ht.regular
    have hcursor : { fs.openFiles t with offset := (fs.openFiles t).offset + size }.cursor
        (fs.setNode (fs.openFiles t).node (fsWriteNode (fs.nodes (fs.openFiles t).node)
          (fs.openFiles t).offset size bytes)).nodes
        = some ((fs.openFiles t).node, (fs.openFiles t).offset.toNat + size.toNat) := by
      rw [hword, RuntimeFsOpenFile.cursor_congr, cursor_setOffset ht hend]
      intro _
      exact (congrArg RuntimeFsNode.type RuntimeFs.setNode_nodes_self).trans
        (htype.trans ht.regular.symm)
    have hstep : fs.volume.Step 256 (.write t (bytesOf bytes size.toNat)) _ :=
      .write ht.cursor (by rw [length_bytesOf]; exact hend)
    rw [RuntimeFs.volume_file ht.regular, length_bytesOf] at hstep
    rw [← hfs, volume_setOpen, hcursor, volume_setNode htype ht.regular,
      contents_fsWriteNode hsize bytes hend]
    exact hstep
  · exact absurd (heq.symm.trans hrun) (by simp)

theorem volume_step_writeRefused (h : Sound fs) {object size : UInt32} {bytes : ℕ → UInt8}
    {s : Fin 8} (hs : object.toNat = s + 1)
    (hrun : runtimeFsWrite fs object (some bytes) size = .ok (Status.enospc, fs')) :
    fs.volume.Step 256 (.writeRefused s (bytesOf bytes size.toNat)) fs'.volume := by
  rcases runtimeFsWrite_spec h object (some bytes) size with
    ⟨_, status, _, hne, heq⟩ | ⟨t, bytes₁, ht, _, _, ⟨hfull, heq⟩ | ⟨_, heq⟩ | ⟨_, heq⟩⟩
  · exact absurd (congrArg Prod.fst (Except.ok.inj (heq.symm.trans hrun))) hne
  · obtain rfl := ht.eq_of_object hs
    obtain rfl : fs = fs' := congrArg Prod.snd (Except.ok.inj (heq.symm.trans hrun))
    exact .writeRefused ht.cursor (by rw [length_bytesOf]; exact hfull)
  · have hstatus : (size.toNat : Int) = Status.enospc :=
      congrArg Prod.fst (Except.ok.inj (heq.symm.trans hrun))
    exact absurd hstatus (by rw [Status.enospc]; omega)
  · exact absurd (heq.symm.trans hrun) (by simp)

theorem volume_step_seek (h : Sound fs) {object whence : UInt32} {offset : Int32} {w : Whence}
    {s : Fin 8} {target : ℕ} (hs : object.toNat = s + 1) (hw : whenceOf whence = some w)
    (hrun : runtimeFsSeek fs object offset whence = .ok ((target : Int), fs')) :
    fs.volume.Step 256 (.seek s w offset.toInt target) fs'.volume := by
  rcases runtimeFsSeek_spec h object offset whence with
    ⟨_, status, hneg, _, heq⟩ | ⟨t, ht, ⟨_, heq⟩ | ⟨base, target₁, hbase, hsum, hle, heq⟩⟩
  · have hstatus : status = target := congrArg Prod.fst (Except.ok.inj (heq.symm.trans hrun))
    omega
  · have hstatus : Status.einval = target := congrArg Prod.fst (Except.ok.inj (heq.symm.trans hrun))
    exact absurd hstatus (by rw [Status.einval]; omega)
  · obtain rfl := ht.eq_of_object hs
    have hres := Except.ok.inj (heq.symm.trans hrun)
    obtain rfl : target₁ = target := Int.ofNat.inj (congrArg Prod.fst hres)
    have hfs := congrArg Prod.snd hres
    simp only at hfs
    rw [seekBase_eq hw t (h.nodes.node _).size_le, ← RuntimeFs.volume_file ht.regular] at hbase
    rw [← hfs, volume_setOpen, cursor_setOffset ht hle]
    exact .seek ht.cursor (by rw [hsum, Option.some.inj hbase]) hle

theorem volume_step_seekRefused (h : Sound fs) {object whence : UInt32} {offset : Int32}
    {w : Whence} {s : Fin 8} (hs : object.toNat = s + 1) (hw : whenceOf whence = some w)
    (hrun : runtimeFsSeek fs object offset whence = .ok (Status.einval, fs')) :
    fs.volume.Step 256 (.seekRefused s w offset.toInt) fs'.volume := by
  rcases runtimeFsSeek_spec h object offset whence with
    ⟨_, status, _, hne, heq⟩ | ⟨t, ht, ⟨hout, heq⟩ | ⟨base, target, _, _, _, heq⟩⟩
  · exact absurd (congrArg Prod.fst (Except.ok.inj (heq.symm.trans hrun))) hne
  · obtain rfl := ht.eq_of_object hs
    obtain rfl : fs = fs' := congrArg Prod.snd (Except.ok.inj (heq.symm.trans hrun))
    have hrange := hout _ (seekBase_eq hw t (h.nodes.node _).size_le)
    rw [← RuntimeFs.volume_file ht.regular] at hrange
    exact .seekRefused ht.cursor fun hin ↦ by omega
  · have hstatus : (target : Int) = Status.einval :=
      congrArg Prod.fst (Except.ok.inj (heq.symm.trans hrun))
    exact absurd hstatus (by rw [Status.einval]; omega)

/-- **One call refines one operation on the volume.** -/
theorem FileStep.volume_step (h : Sound fs) {e : FileEvent (Fin 16) (Fin 8) UInt8}
    (hstep : FileStep fs e fs') : fs.volume.Step 256 e fs'.volume := by
  cases hstep with
  | «open» hrun hi hreg => exact volume_step_open h hrun hi hreg
  | read hs hrun => exact volume_step_read h hs hrun
  | write hs _ hrun => exact volume_step_write h hs hrun
  | writeRefused hs _ hrun => exact volume_step_writeRefused h hs hrun
  | seek hs hw hrun => exact volume_step_seek h hs hw hrun
  | seekRefused hs hw hrun => exact volume_step_seekRefused h hs hw hrun
  | @close object _ s hs hrun =>
    rcases runtimeFsClose_spec fs object with ⟨status, hneg, heq⟩ | ⟨t, ht, heq⟩
    · have hstatus : status = Status.ok := congrArg Prod.fst (heq.symm.trans hrun)
      exact absurd hneg (by rw [hstatus]; decide)
    · obtain rfl : t = s := Option.some.inj (ht.symm.trans hs.lookup)
      obtain rfl : fs.setOpen t RuntimeFsOpenFile.zero = fs' :=
        congrArg Prod.snd (heq.symm.trans hrun)
      rw [volume_setOpen]
      exact .close hs.cursor

/-! ## Any sequence of operations -/

/-- What the calls on an open slot answer: a read delivers, a write is stored or refused for lack of
space, and a seek moves the slot or is refused. -/
structure SlotAnswers (fs : RuntimeFs) (s : Fin 8) : Prop where
  read : (fs.openFiles s).flags &&& openRead ≠ 0 → ∀ bytes size, ∃ (n : ℕ) (fs' : RuntimeFs)
    (bytes' : ℕ → UInt8), runtimeFsRead fs (UInt32.ofNat ((s : ℕ) + 1)) (some bytes) size
      = .ok ((n : Int), fs', some bytes')
  write : (fs.openFiles s).flags &&& openWrite ≠ 0 → ∀ bytes size,
    (fs.openFiles s).offset.toNat + size.toNat < 2 ^ 32 →
    ∃ (status : Int) (fs' : RuntimeFs), (status = size.toNat ∨ status = Status.enospc) ∧
      runtimeFsWrite fs (UInt32.ofNat ((s : ℕ) + 1)) (some bytes) size = .ok (status, fs')
  seek : ∀ offset whence w, whenceOf whence = some w → ∃ (status : Int) (fs' : RuntimeFs),
    ((∃ target : ℕ, status = target) ∨ status = Status.einval) ∧
      runtimeFsSeek fs (UInt32.ofNat ((s : ℕ) + 1)) offset whence = .ok (status, fs')

theorem Sound.slotAnswers (h : Sound fs) {s : Fin 8} (hs : (fs.volume.cursor s).isSome) :
    SlotAnswers fs s := by
  have hused : (fs.openFiles s).used ≠ 0 ∧
      (fs.nodes (fs.openFiles s).node).type = fileTypeRegular := by
    by_contra hnot
    simp [RuntimeFs.volume, RuntimeFsOpenFile.cursor, hnot] at hs
  have hreg : RegularSlot fs (UInt32.ofNat ((s : ℕ) + 1)) s :=
    ⟨fsOpenFileLookup_ofNat hused.1, hused.2⟩
  refine ⟨fun hflag bytes size ↦ ?_, fun hflag bytes size hfits ↦ ?_, fun offset whence w hw ↦ ?_⟩
  · rcases runtimeFsRead_spec h (UInt32.ofNat ((s : ℕ) + 1)) (some bytes) size with
      ⟨hno, _⟩ | ⟨t, _, bytes', _, _, _, heq, _, _⟩
    · rcases hno with hnone | hno
      · cases hnone
      · exact absurd (hno s hreg) hflag
    · exact ⟨_, _, bytes', heq⟩
  · rcases runtimeFsWrite_spec h (UInt32.ofNat ((s : ℕ) + 1)) (some bytes) size with
      ⟨hno, _⟩ | ⟨t, _, ht, _, _, ⟨_, heq⟩ | ⟨_, heq⟩ | ⟨hwrap, _⟩⟩
    · rcases hno with hnone | hno
      · cases hnone
      · exact absurd (hno s hreg) hflag
    · exact ⟨_, _, Or.inr rfl, heq⟩
    · exact ⟨_, _, Or.inl rfl, heq⟩
    · rw [ht.unique hreg] at hwrap
      omega
  · rcases runtimeFsSeek_spec h (UInt32.ofNat ((s : ℕ) + 1)) offset whence with
      ⟨hno, _⟩ | ⟨t, _, ⟨_, heq⟩ | ⟨_, target, _, _, _, heq⟩⟩
    · exact absurd hreg (hno s)
    · exact ⟨_, _, Or.inr rfl, heq⟩
    · exact ⟨_, _, Or.inl ⟨target, rfl⟩, heq⟩

theorem FileRun.sound (h : Sound fs) {events : List (FileEvent (Fin 16) (Fin 8) UInt8)}
    (hrun : FileRun fs events fs') : Sound fs' := by
  induction hrun with
  | nil => exact h
  | cons hstep _ ih => exact ih (hstep.fsStep.sound h)

theorem FileRun.volume_run (h : Sound fs) {events : List (FileEvent (Fin 16) (Fin 8) UInt8)}
    (hrun : FileRun fs events fs') : Volume.Run 256 fs.volume events fs'.volume := by
  induction hrun with
  | nil => exact .nil
  | cons hstep _ ih => exact .cons (hstep.volume_step h) (ih (hstep.fsStep.sound h))

/-- **File contents refine byte lists.** Any sequence of opens, reads, writes, seeks and closes on
regular files, from any reachable state, is a sequence of operations on the volume with the same
data, and in the state it leads to every open slot answers. -/
theorem fileRun_refines (h : FsReachable fs) {events : List (FileEvent (Fin 16) (Fin 8) UInt8)}
    (hrun : FileRun fs events fs') : Volume.Run 256 fs.volume events fs'.volume ∧
      ∀ s, (fs'.volume.cursor s).isSome → SlotAnswers fs' s :=
  ⟨hrun.volume_run h.sound, fun _ ↦ (hrun.sound h.sound).slotAnswers⟩

/-- Create `/a`, store two bytes, go back to the start and read them. -/
theorem fileRun_refines_hi : ∃ fs',
    FileRun runtimeFsInit [.open 0 1 false, .write 0 [104, 105], .seek 0 .start 0 0,
      .read 0 5 [104, 105]] fs' ∧
    Volume.Run 256 runtimeFsInit.volume [.open 0 1 false, .write 0 [104, 105], .seek 0 .start 0 0,
      .read 0 5 [104, 105]] fs'.volume := by
  have hall : (runtimeFsOpen runtimeFsInit 0 (some pathA) 7 (some 0) >>= fun r₁ ↦
      runtimeFsWrite r₁.2.1 1 (some fun k ↦ UInt8.ofNat (104 + k)) 2 >>= fun r₂ ↦
      runtimeFsSeek r₂.2 1 0 0 >>= fun r₃ ↦
      (runtimeFsRead r₃.2 1 (some fun _ ↦ 0) 5).map fun r₄ ↦
        ([r₁.1, r₂.1, r₃.1, r₄.1],
          [r₁.2.2, some (r₁.2.1.openFiles 0).nodeIndex, some (r₁.2.1.nodes 1).type],
          r₄.2.2.map fun b ↦ bytesOf b 2))
      = .ok ([0, 2, 0, 2], [some 1, some 1, some 1], some [104, 105]) := by decide +kernel
  obtain ⟨⟨st₁, fs₁, o₁⟩, hopen, hall⟩ := bind_eq_ok.mp hall
  obtain ⟨⟨st₂, fs₂⟩, hwrite, hall⟩ := bind_eq_ok.mp hall
  obtain ⟨⟨st₃, fs₃⟩, hseek, hall⟩ := bind_eq_ok.mp hall
  obtain ⟨⟨st₄, fs₄, b₄⟩, hread, hall⟩ := map_eq_ok.mp hall
  simp only [Prod.mk.injEq, Option.map_eq_some_iff, List.cons.injEq, Option.some.injEq] at hall
  obtain ⟨⟨rfl, rfl, rfl, rfl, -⟩, ⟨rfl, hnode, htype, -⟩, b, rfl, hbytes⟩ := hall
  have h₁ : FileStep runtimeFsInit (.open 0 1 false) fs₁ :=
    .open hopen (by rw [hnode]; rfl) htype
  have h₂ : FileStep fs₁ (.write 0 [104, 105]) fs₂ := by
    refine FileStep.write (n := 2) (by decide) (fun s hs ↦ ?_) hwrite
    have hle := ((h₁.fsStep.sound sound_init).slots s (fsOpenFileLookup_eq_some hs).1).offset_le
    have htwo : (2 : UInt32).toNat = 2 := rfl
    dsimp only
    omega
  have h₃ : FileStep fs₂ (.seek 0 .start 0 0) fs₃ := .seek (by decide) rfl hseek
  have h₄ : FileStep fs₃ (.read 0 5 [104, 105]) fs₄ := by
    rw [← hbytes]
    exact .read (by decide) hread
  have hrun := FileRun.cons h₁ (.cons h₂ (.cons h₃ (.cons h₄ .nil)))
  exact ⟨fs₄, hrun, (fileRun_refines (.start rfl) hrun).1⟩

/-! ## The bound of a write

The end of a write is computed in 32 bits and compared with the capacity; the store loop runs over
the whole size. Since no offset is beyond the capacity, a sum that wraps is always small enough for
the comparison. -/

/-- The write returns, so that all its stores are inside the data array; it is refused for lack of
space exactly if its end, as a natural number, is beyond the capacity; and no recorded size exceeds
the capacity afterwards. -/
def WriteBounded (fs : RuntimeFs) (object : UInt32) (s : Fin 8) (bytes : ℕ → UInt8)
    (size : UInt32) : Prop :=
  ∃ status fs', runtimeFsWrite fs object (some bytes) size = .ok (status, fs') ∧
    (status = Status.enospc ↔ 256 < (fs.openFiles s).offset.toNat + size.toNat) ∧
    ∀ i, (fs'.nodes i).sizeBytes.toNat ≤ 256

/-- **When a write is bounded**: in every reachable state, through a writable slot on a regular
file, exactly if the sum of offset and size fits 32 bits. -/
theorem writeBounded_iff (h : ApiReachable fs) {object : UInt32} {s : Fin 8}
    (hs : RegularSlot fs object s) (hflag : (fs.openFiles s).flags &&& openWrite ≠ 0)
    (bytes : ℕ → UInt8) (size : UInt32) :
    WriteBounded fs object s bytes size ↔
      (fs.openFiles s).offset.toNat + size.toNat < 2 ^ 32 := by
  have hsound := h.sound
  rcases runtimeFsWrite_spec hsound object (some bytes) size with
    ⟨hno, _⟩ | ⟨t, bytes', ht, -, -, hcases⟩
  · rcases hno with hnone | hno
    · cases hnone
    · exact absurd (hno s hs) hflag
  obtain rfl := ht.unique hs
  have hoffset := (hsound.slots t hs.used).offset_le
  constructor
  · rintro ⟨status, fs', hrun, -, -⟩
    by_contra hwrap
    rcases hcases with ⟨hfull, heq⟩ | ⟨hend, -⟩ | ⟨-, heq⟩
    · -- the sum wraps to less than the offset, so the comparison lets it pass
      have hsum : ((fs.openFiles t).offset + size).toNat ≤ 256 := by
        have hsize := size.toNat_lt
        rw [UInt32.toNat_add]
        omega
      have hslot := hsound.slots t hs.used
      have hcap : ¬(fs.openFiles t).offset + size > fileCapacity := by
        rw [gt_iff_lt, UInt32.lt_iff_toNat_lt]
        exact Nat.not_lt.mpr hsum
      unfold runtimeFsWrite at heq
      simp only [hs.lookup, hflag, if_false, hslot.nodeIndexOf_node, ok_bind, hs.regular, ne_eq,
        not_true_eq_false, hcap, hfull, if_true] at heq
      cases heq
    · omega
    · exact absurd (heq.symm.trans hrun) (by simp)
  · intro hfits
    rcases hcases with ⟨hfull, heq⟩ | ⟨hend, heq⟩ | ⟨hwrap, -⟩
    · exact ⟨_, fs, heq, iff_of_true rfl hfull, fun i ↦ (hsound.nodes.node i).size_le⟩
    · refine ⟨_, _, heq, iff_of_false ?_ (by omega), fun i ↦ ?_⟩
      · rw [Status.enospc]
        omega
      · exact ((hsound.write hs.used hs.regular hend).nodes.node i).size_le
    · omega

/-- A new file, a slot that can write to it, and one byte stored. -/
theorem writable_reachable : ∃ fs, ApiReachable fs ∧ RegularSlot fs 1 0 ∧
    (fs.openFiles 0).flags &&& openWrite ≠ 0 ∧ (fs.openFiles 0).offset = 1 ∧
    runtimeFsWrite fs 1 (some fun _ ↦ 120) 4294967295 = .error .outOfBounds := by
  have hruns : ((FsCall.open 0 (some pathA) (openWrite ||| openCreate) (some 0)).run runtimeFsInit
      >>= fun a ↦ ((FsCall.write 1 (some fun _ ↦ 120) 1).run a.2).map fun b ↦
        ((fsOpenFileLookup b.2 1, (b.2.nodes (b.2.openFiles 0).node).type,
          (b.2.openFiles 0).flags), (b.2.openFiles 0).offset,
          (runtimeFsWrite b.2 1 (some fun _ ↦ 120) 4294967295).map fun _ ↦ 0))
      = .ok ((some 0, fileTypeRegular, openWrite ||| openCreate), 1, .error .outOfBounds) := by
    decide +kernel
  obtain ⟨a, hopen, hruns⟩ := bind_eq_ok.mp hruns
  obtain ⟨b, hwrite, hvalues⟩ := map_eq_ok.mp hruns
  simp only [Prod.mk.injEq] at hvalues
  obtain ⟨⟨hlookup, htype, hflags⟩, hoffset, hfault⟩ := hvalues
  refine ⟨b.2, .step (.step (.start rfl) ⟨_, a.1, hopen⟩) ⟨_, b.1, hwrite⟩, ⟨hlookup, htype⟩, ?_,
    hoffset, ?_⟩
  · rw [hflags]
    decide
  · cases hresult : runtimeFsWrite b.2 1 (some fun _ ↦ 120) 4294967295 with
    | ok r =>
      rw [hresult] at hfault
      cases hfault
    | error fault =>
      rw [hresult] at hfault
      exact congrArg Except.error (Except.error.inj hfault)

/-- With one byte stored, the theorem speaks of a write of 256 bytes, which is refused. -/
theorem writeBounded_iff_full : ∃ fs, ApiReachable fs ∧ (fs.openFiles 0).offset = 1 ∧
    WriteBounded fs 1 0 (fun _ ↦ 120) 256 := by
  obtain ⟨fs, hreach, hslot, hflag, hoffset, -⟩ := writable_reachable
  refine ⟨fs, hreach, hoffset, (writeBounded_iff hreach hslot hflag _ 256).mpr ?_⟩
  rw [hoffset]
  decide

/-- **A write that leaves the file**: at offset 1 a size of `0xFFFFFFFF` wraps to the end 0, and the
stores go on past the data array. -/
theorem write_wraps : ∃ fs, ApiReachable fs ∧ RegularSlot fs 1 0 ∧
    (fs.openFiles 0).flags &&& openWrite ≠ 0 ∧
    ¬WriteBounded fs 1 0 (fun _ ↦ 120) 4294967295 := by
  obtain ⟨fs, hreach, hslot, hflag, -, hfault⟩ := writable_reachable
  refine ⟨fs, hreach, hslot, hflag, ?_⟩
  rintro ⟨status, fs', hrun, -⟩
  exact absurd (hfault.symm.trans hrun) (by simp)

end TensorOS
