import TensorOS.Fs.Path

/-!
# File-system operations

The operations of `runtime_fs.c` as state transformers. Each takes the file system and the
arguments of the C function and returns the status and the file system after the call, together
with whatever the call stores through a pointer argument. A pointer argument is an `Option`, with
`none` for null; the file-system pointer itself is never null here. The diagnostic globals that
`runtime_fs_mkdir` and `runtime_fs_validate` write beside their results are left out.
-/

namespace TensorOS

/-! ## Helpers on nodes and slots -/

/-- `fs_zero_range`. -/
def fsZeroRange (node : RuntimeFsNode) (start stop : UInt32) : RuntimeFsNode :=
  if start ≥ stop ∨ start ≥ fileCapacity then node
  else
    let stop := if stop > fileCapacity then fileCapacity else stop
    { node with
      data := fun i ↦ if start.toNat ≤ i ∧ (i : ℕ) < stop.toNat then 0 else node.data i }

/-- The fields `fs_alloc_node` gives to the slot it takes. -/
def fsFreshNode (node : RuntimeFsNode) : RuntimeFsNode :=
  fsZeroRange
    { node with
      used := 1
      type := fileTypeUnknown
      parentIndex := 0
      ownerPid := 0
      mode := 0
      sizeBytes := 0
      name := Function.update node.name 0 0 }
    0 fileCapacity

/-- `fs_alloc_node`: the first unused node after the root. -/
def fsAllocNode (fs : RuntimeFs) : Option (Fin 16 × RuntimeFs) :=
  ((List.finRange 16).find? fun i ↦ i ≠ 0 ∧ (fs.nodes i).used = 0).map fun i ↦
    (i, fs.setNode i (fsFreshNode (fs.nodes i)))

/-- `fs_open_slot_alloc`: the first unused slot. -/
def fsOpenSlotAlloc (fs : RuntimeFs) (nodeIndex flags : UInt32) : Option (Fin 8 × RuntimeFs) :=
  ((List.finRange 8).find? fun s ↦ (fs.openFiles s).used = 0).map fun s ↦
    (s, fs.setOpen s
      { used := 1, nodeIndex := nodeIndex, ownerPid := 0, flags := flags, offset := 0,
        dirCursor := 0 })

/-- `fs_open_file_lookup`: file objects are slot numbers counted from one. -/
def fsOpenFileLookup (fs : RuntimeFs) (fileObject : UInt32) : Option (Fin 8) :=
  if h : fileObject ≠ 0 ∧ fileObject.toNat ≤ 8 then
    let s : Fin 8 := ⟨fileObject.toNat - 1, by omega⟩
    if (fs.openFiles s).used = 0 then none else some s
  else none

/-- `fs_clear_node`. -/
def fsClearNode (node : RuntimeFsNode) : RuntimeFsNode :=
  { used := 0
    type := fileTypeUnknown
    parentIndex := 0
    ownerPid := 0
    mode := 0
    sizeBytes := 0
    name := Function.update node.name 0 0
    data := fun _ ↦ 0 }

/-- `fs_node_has_children`. -/
def fsNodeHasChildren (fs : RuntimeFs) (nodeIndex : Fin 16) : Bool :=
  (List.finRange 16).any fun i ↦
    (fs.nodes i).used ≠ 0 ∧ (fs.nodes i).parentIndex.toNat = nodeIndex ∧ i ≠ nodeIndex

/-- `fs_node_is_open`. -/
def fsNodeIsOpen (fs : RuntimeFs) (nodeIndex : Fin 16) : Bool :=
  (List.finRange 8).any fun s ↦
    (fs.openFiles s).used ≠ 0 ∧ (fs.openFiles s).nodeIndex.toNat = nodeIndex

/-- `fs_node_owner_allows`. -/
def fsNodeOwnerAllows (node : RuntimeFsNode) (currentPid : UInt32) : Bool :=
  node.ownerPid = 0 ∨ currentPid = 0 ∨ node.ownerPid = currentPid

/-- `fs_node_has_open_writer`. -/
def fsNodeHasOpenWriter (fs : RuntimeFs) (nodeIndex : Fin 16) : Bool :=
  (List.finRange 8).any fun s ↦
    (fs.openFiles s).used ≠ 0 ∧ (fs.openFiles s).nodeIndex.toNat = nodeIndex ∧
      (fs.openFiles s).flags &&& openWrite ≠ 0

/-- The loop of `fs_parent_chain_contains`. -/
def fsParentChainLoop (fs : RuntimeFs) (candidateAncestor : Fin 16) :
    ℕ → UInt32 → Except Fault Bool
  | 0, _ => .error .diverges
  | fuel + 1, current =>
    if current = 0 then .ok false
    else if current.toNat = candidateAncestor then .ok true
    else do
      let node ← nodeIndexOf current
      fsParentChainLoop fs candidateAncestor fuel (fs.nodes node).parentIndex

/-- `fs_parent_chain_contains`. The source's loop has no bound of its own: after seventeen visits
to a sixteen-node array without meeting node 0 it is in a cycle. -/
def fsParentChainContains (fs : RuntimeFs) (startIndex candidateAncestor : Fin 16) :
    Except Fault Bool :=
  fsParentChainLoop fs candidateAncestor 17 (UInt32.ofNat startIndex)

/-! ## Creating -/

/-- `runtime_fs_init`. -/
def runtimeFsInit : RuntimeFs where
  nodes := Function.update (fun _ ↦ RuntimeFsNode.zero) 0
    { RuntimeFsNode.zero with
      used := 1
      type := fileTypeDirectory
      parentIndex := 0
      ownerPid := 0
      mode := 493
      name := Function.update (Function.update (fun _ ↦ 0) 0 slash) 1 0 }
  openFiles := fun _ ↦ RuntimeFsOpenFile.zero

/-- The fields a create gives to the node it has allocated. -/
def fsNamedNode (node : RuntimeFsNode) (type : UInt32) (parent : Fin 16) (ownerPid mode : UInt32)
    (leafName : List UInt8) : RuntimeFsNode :=
  { node with
    type := type
    parentIndex := UInt32.ofNat parent
    ownerPid := ownerPid
    mode := mode
    name := copyName node.name (leafName ++ [0]) }

/-- `runtime_fs_mkdir`. -/
def runtimeFsMkdir (fs : RuntimeFs) (currentPid : UInt32) (path : Option CString) (mode : UInt32) :
    Except Fault (Int × RuntimeFs) :=
  if fsPathIsAbsoluteNonRoot path = false then .ok (Status.einval, fs)
  else do
    match ← fsResolvePath fs path with
    | some _ => .ok (Status.eexist, fs)
    | none =>
      match ← fsResolveParentPath fs path with
      | .error status => .ok (status, fs)
      | .ok (leafName, parent) =>
        if fsNodeOwnerAllows (fs.nodes parent) currentPid = false then .ok (Status.eacces, fs)
        else
          match fsAllocNode fs with
          | none => .ok (Status.enospc, fs)
          | some (node, fs') =>
            .ok (Status.ok, fs'.setNode node
              (fsNamedNode (fs'.nodes node) fileTypeDirectory parent currentPid mode leafName))

/-! ## Opening -/

/-- The first half of `runtime_fs_open`: the node the path names, created when the flags ask for
it. -/
def fsOpenResolve (fs : RuntimeFs) (currentPid : UInt32) (path : Option CString) (flags : UInt32) :
    Except Fault (Except Int (Fin 16 × RuntimeFs)) := do
  match ← fsResolvePath fs path with
  | some node => .ok (.ok (node, fs))
  | none =>
    if flags &&& openCreate = 0 then .ok (.error Status.enoent)
    else
      match ← fsResolveParentPath fs path with
      | .error status => .ok (.error status)
      | .ok (leafName, parent) =>
        if fsNodeOwnerAllows (fs.nodes parent) currentPid = false then
          .ok (.error Status.eacces)
        else
          match fsAllocNode fs with
          | none => .ok (.error Status.enospc)
          | some (node, fs') =>
            .ok (.ok (node, fs'.setNode node
              (fsNamedNode (fs'.nodes node) fileTypeRegular parent currentPid 420 leafName)))

/-- The checks of `runtime_fs_open` that come before it touches the node's contents. -/
def fsOpenModeCheck (node : RuntimeFsNode) (flags : UInt32) : Int :=
  if node.type = fileTypeDirectory ∧ flags &&& openWrite ≠ 0 then Status.eisdir
  else if node.type ≠ fileTypeDirectory ∧ node.type ≠ fileTypeRegular then Status.enotsup
  else if flags &&& openWrite ≠ 0 ∧ node.mode &&& 146 = 0 then Status.ebadf
  else if flags &&& openRead ≠ 0 ∧ node.mode &&& 292 = 0 then Status.ebadf
  else Status.ok

/-- The truncation step of `runtime_fs_open`. -/
def fsOpenTruncate (fs : RuntimeFs) (node : Fin 16) (flags : UInt32) : RuntimeFs :=
  if flags &&& openTruncate ≠ 0 ∧ (fs.nodes node).type = fileTypeRegular then
    fs.setNode node (fsZeroRange { fs.nodes node with sizeBytes := 0 } 0 fileCapacity)
  else fs

/-- The second half of `runtime_fs_open`, on the resolved node. The last component is the value
stored through `file_object`, if one is stored. -/
def fsOpenNode (fs : RuntimeFs) (currentPid : UInt32) (node : Fin 16) (flags : UInt32) :
    Int × RuntimeFs × Option UInt32 :=
  let status := fsOpenModeCheck (fs.nodes node) flags
  if status ≠ Status.ok then (status, fs, none)
  else
    let fs := fsOpenTruncate fs node flags
    if flags &&& openWrite ≠ 0 ∧ fsNodeHasOpenWriter fs node then (Status.ebusy, fs, none)
    else if flags &&& (openWrite ||| openTruncate) ≠ 0 ∧
        fsNodeOwnerAllows (fs.nodes node) currentPid = false then (Status.eacces, fs, none)
    else
      match fsOpenSlotAlloc fs (UInt32.ofNat node) flags with
      | none => (Status.enospc, fs, some (UInt32.ofInt Status.enospc))
      | some (s, fs') =>
        (Status.ok, fs'.setOpen s { fs'.openFiles s with ownerPid := currentPid },
          some (UInt32.ofNat ((s : ℕ) + 1)))

/-- `runtime_fs_open`. `fileObject` is the word the pointer refers to; the result holds it after
the call. -/
def runtimeFsOpen (fs : RuntimeFs) (currentPid : UInt32) (path : Option CString) (flags : UInt32)
    (fileObject : Option UInt32) : Except Fault (Int × RuntimeFs × Option UInt32) :=
  match path, fileObject with
  | some p, some object =>
    if p.charAt 0 ≠ slash then .ok (Status.einval, fs, fileObject)
    else do
      match ← fsOpenResolve fs currentPid path flags with
      | .error status => .ok (status, fs, fileObject)
      | .ok (node, fs') =>
        let (status, fs'', stored) := fsOpenNode fs' currentPid node flags
        .ok (status, fs'', some (stored.getD object))
  | _, _ => .ok (Status.einval, fs, fileObject)

/-! ## Reading and writing -/

/-- The status for an operation that needs a regular file. -/
def fsNotRegularStatus (type : UInt32) : Int :=
  if type = fileTypeDirectory then Status.eisdir else Status.enotsup

/-- The copy loop of `runtime_fs_read`, for a range inside the data array. -/
def fsLoadBytes (node : RuntimeFsNode) (offset count : UInt32) (bytes : ℕ → UInt8) : ℕ → UInt8 :=
  fun i ↦
    if h : i < count.toNat ∧ offset.toNat + i < 256 then node.data ⟨offset.toNat + i, h.2⟩
    else bytes i

/-- `runtime_fs_read`. `buffer` is the caller's memory from the pointer on; the result holds it
after the call. -/
def runtimeFsRead (fs : RuntimeFs) (fileObject : UInt32) (buffer : Option (ℕ → UInt8))
    (size : UInt32) : Except Fault (Int × RuntimeFs × Option (ℕ → UInt8)) :=
  match buffer, fsOpenFileLookup fs fileObject with
  | some bytes, some s => do
    let openFile := fs.openFiles s
    if openFile.flags &&& openRead = 0 then .ok (Status.ebadf, fs, buffer)
    else
      let index ← nodeIndexOf openFile.nodeIndex
      let node := fs.nodes index
      if node.type ≠ fileTypeRegular then .ok (fsNotRegularStatus node.type, fs, buffer)
      else if openFile.offset ≥ node.sizeBytes then .ok (0, fs, buffer)
      else
        let remaining := node.sizeBytes - openFile.offset
        let count := if size < remaining then size else remaining
        -- the copy loop reads `data[offset + index]` for every index below `count`
        if 256 < openFile.offset.toNat + count.toNat then .error .outOfBounds
        else
          .ok (int32 count, fs.setOpen s { openFile with offset := openFile.offset + count },
            some (fsLoadBytes node openFile.offset count bytes))
  | _, _ => .ok (Status.ebadf, fs, buffer)

/-- The store loop of `runtime_fs_write`, for a range inside the data array. -/
def fsStoreBytes (node : RuntimeFsNode) (offset size : UInt32) (bytes : ℕ → UInt8) :
    RuntimeFsNode :=
  { node with
    data := fun i ↦
      if offset.toNat ≤ i ∧ (i : ℕ) < offset.toNat + size.toNat then bytes (i - offset.toNat)
      else node.data i }

/-- What `runtime_fs_write` does to the node once its checks have passed: fill a gap between the old
end and the offset with zeros, store the bytes, and extend the recorded size. -/
def fsWriteNode (node : RuntimeFsNode) (offset size : UInt32) (bytes : ℕ → UInt8) :
    RuntimeFsNode :=
  let node := if offset > node.sizeBytes then fsZeroRange node node.sizeBytes offset else node
  let node := fsStoreBytes node offset size bytes
  if offset + size > node.sizeBytes then { node with sizeBytes := offset + size } else node

/-- `runtime_fs_write`. The end offset is computed in 32 bits, so a huge size can pass the capacity
check; its store loop then leaves the data array. -/
def runtimeFsWrite (fs : RuntimeFs) (fileObject : UInt32) (buffer : Option (ℕ → UInt8))
    (size : UInt32) : Except Fault (Int × RuntimeFs) :=
  match buffer, fsOpenFileLookup fs fileObject with
  | some bytes, some s => do
    let openFile := fs.openFiles s
    if openFile.flags &&& openWrite = 0 then .ok (Status.ebadf, fs)
    else
      let index ← nodeIndexOf openFile.nodeIndex
      let node := fs.nodes index
      if node.type ≠ fileTypeRegular then .ok (fsNotRegularStatus node.type, fs)
      else
        let endOffset := openFile.offset + size
        if endOffset > fileCapacity then .ok (Status.enospc, fs)
        else if 256 < openFile.offset.toNat + size.toNat then .error .outOfBounds
        else
          let fs := fs.setNode index (fsWriteNode node openFile.offset size bytes)
          .ok (int32 size, fs.setOpen s { openFile with offset := endOffset })
  | _, _ => .ok (Status.ebadf, fs)

/-- `runtime_fs_close`. -/
def runtimeFsClose (fs : RuntimeFs) (fileObject : UInt32) : Int × RuntimeFs :=
  match fsOpenFileLookup fs fileObject with
  | none => (Status.ebadf, fs)
  | some s => (Status.ok, fs.setOpen s RuntimeFsOpenFile.zero)

/-- `runtime_fs_stat`. -/
def runtimeFsStat (fs : RuntimeFs) (fileObject : UInt32) (stat : Option RuntimeFileStat) :
    Except Fault (Int × RuntimeFs × Option RuntimeFileStat) :=
  match stat, fsOpenFileLookup fs fileObject with
  | some _, some s => do
    let index ← nodeIndexOf (fs.openFiles s).nodeIndex
    let node := fs.nodes index
    .ok (Status.ok, fs, some ⟨node.type, node.mode, node.sizeBytes⟩)
  | _, _ => .ok (Status.ebadf, fs, stat)

/-- `runtime_fs_readdir`. -/
def runtimeFsReaddir (fs : RuntimeFs) (fileObject : UInt32) (entry : Option RuntimeDirEntry) :
    Except Fault (Int × RuntimeFs × Option RuntimeDirEntry) :=
  match entry, fsOpenFileLookup fs fileObject with
  | some e, some s => do
    let openFile := fs.openFiles s
    if openFile.flags &&& openRead = 0 then .ok (Status.ebadf, fs, entry)
    else
      let index ← nodeIndexOf openFile.nodeIndex
      let node := fs.nodes index
      if node.type ≠ fileTypeDirectory then
        .ok (if node.type = fileTypeRegular then Status.enotdir else Status.enotsup, fs, entry)
      else
        let found := (List.finRange 16).find? fun i : Fin 16 ↦
          openFile.dirCursor.toNat ≤ (i : ℕ) ∧ (fs.nodes i).used ≠ 0 ∧
            (fs.nodes i).parentIndex = openFile.nodeIndex
        match found with
        | none => .ok (0, fs, entry)
        | some i =>
          .ok (1, fs.setOpen s { openFile with dirCursor := UInt32.ofNat ((i : ℕ) + 1) },
            some ⟨(fs.nodes i).type, copyName e.name (List.ofFn (fs.nodes i).name)⟩)
  | _, _ => .ok (Status.ebadf, fs, entry)

/-- `runtime_fs_seek`. The sum is taken in 64 bits, where it cannot overflow. -/
def runtimeFsSeek (fs : RuntimeFs) (fileObject : UInt32) (offset : Int32) (whence : UInt32) :
    Except Fault (Int × RuntimeFs) :=
  match fsOpenFileLookup fs fileObject with
  | none => .ok (Status.ebadf, fs)
  | some s => do
    let openFile := fs.openFiles s
    let index ← nodeIndexOf openFile.nodeIndex
    let node := fs.nodes index
    if node.type ≠ fileTypeRegular then .ok (fsNotRegularStatus node.type, fs)
    else
      let base : Option Int :=
        if whence = seekSet then some 0
        else if whence = seekCur then some openFile.offset.toNat
        else if whence = seekEnd then some node.sizeBytes.toNat
        else none
      match base with
      | none => .ok (Status.einval, fs)
      | some base =>
        let nextOffset := base + offset.toInt
        if nextOffset < 0 ∨ nextOffset > 256 ∨ nextOffset > 2147483647 then
          .ok (Status.einval, fs)
        else
          let stored := UInt32.ofInt nextOffset
          .ok (int32 stored, fs.setOpen s { openFile with offset := stored })

/-! ## Removing and renaming -/

/-- `runtime_fs_remove`. -/
def runtimeFsRemove (fs : RuntimeFs) (currentPid : UInt32) (path : Option CString) :
    Except Fault (Int × RuntimeFs) :=
  match path with
  | none => .ok (Status.einval, fs)
  | some p =>
    if p.charAt 0 ≠ slash then .ok (Status.einval, fs)
    else if fsPathIsRoot path then .ok (Status.ebusy, fs)
    else do
      match ← fsResolveExistingPath fs path with
      | .error status => .ok (status, fs)
      | .ok node =>
        if fsNodeOwnerAllows (fs.nodes node) currentPid = false then .ok (Status.eacces, fs)
        else
          let parent ← nodeIndexOf (fs.nodes node).parentIndex
          if fsNodeOwnerAllows (fs.nodes parent) currentPid = false then .ok (Status.eacces, fs)
          else if fsNodeIsOpen fs node then .ok (Status.ebusy, fs)
          else if (fs.nodes node).type = fileTypeDirectory ∧ fsNodeHasChildren fs node then
            .ok (Status.enotempty, fs)
          else .ok (Status.ok, fs.setNode node (fsClearNode (fs.nodes node)))

/-- `runtime_fs_rename`. -/
def runtimeFsRename (fs : RuntimeFs) (currentPid : UInt32) (oldPath newPath : Option CString) :
    Except Fault (Int × RuntimeFs) :=
  match oldPath, newPath with
  | some oldP, some newP =>
    if oldP.charAt 0 ≠ slash ∨ newP.charAt 0 ≠ slash then .ok (Status.einval, fs)
    else do
      if ← nameEquals oldP.mem newP.mem then .ok (Status.ok, fs)
      else if fsPathIsRoot oldPath ∨ fsPathIsRoot newPath then .ok (Status.ebusy, fs)
      else
        match ← fsResolveExistingPath fs oldPath with
        | .error status => .ok (status, fs)
        | .ok node =>
          match ← fsResolvePath fs newPath with
          | some _ => .ok (Status.eexist, fs)
          | none =>
            match ← fsResolveParentPath fs newPath with
            | .error status => .ok (status, fs)
            | .ok (leafName, parent) =>
              if fsNodeOwnerAllows (fs.nodes node) currentPid = false then
                .ok (Status.eacces, fs)
              else
                let oldParent ← nodeIndexOf (fs.nodes node).parentIndex
                if fsNodeOwnerAllows (fs.nodes oldParent) currentPid = false ∨
                    fsNodeOwnerAllows (fs.nodes parent) currentPid = false then
                  .ok (Status.eacces, fs)
                else
                  let intoItself ←
                    if (fs.nodes node).type = fileTypeDirectory then
                      fsParentChainContains fs parent node
                    else .ok false
                  if intoItself then .ok (Status.einval, fs)
                  else
                    .ok (Status.ok, fs.setNode node
                      { fs.nodes node with
                        parentIndex := UInt32.ofNat parent
                        name := copyName (fs.nodes node).name (leafName ++ [0]) })
  | _, _ => .ok (Status.einval, fs)

end TensorOS
