import TensorOS.Fs.Validate
import TensorOS.Lib.ByteMem
import TensorOS.Lib.Fnv

/-!
# File-system images: the format and its operations

An image is a header of ten words, one record of 56 bytes for each used node in the order of node
indices, a complete binary hash tree over the records, and the bytes of the regular files one after
the other. The model follows `runtime_fs_image.c`: `runtime_fs_image_export` writes an image,
`runtime_fs_image_validate` checks one, and `runtime_fs_image_import` replaces a file system by one.

The buffer is a memory from the buffer pointer on, with arbitrary contents past its end. The
variables a loop carries from round to round are functions of the round here
(`imageExpectedOffset`, `imagePresentMask`). The diagnostic globals of the validator are left out.
-/

namespace TensorOS

/-! ## Header, records and layout -/

def imageHashEmpty : UInt32 := 0x811C9DC5
def imageMagic : UInt32 := 0x31465354
def imageVersion : UInt32 := 1
def imageHeaderBytes : UInt32 := 40
def imageRecordBytes : UInt32 := 56
def imageMaxTreeLeaves : UInt32 := 16

/-- `struct runtime_fs_image_header`. -/
structure ImageHeader where
  magic : UInt32
  version : UInt32
  headerBytes : UInt32
  recordCount : UInt32
  recordBytes : UInt32
  treeLeafCount : UInt32
  treeHashCount : UInt32
  dataBytes : UInt32
  rootHash : UInt32
  imageBytes : UInt32
  deriving DecidableEq, Repr

/-- `struct runtime_fs_image_record`. -/
structure ImageRecord where
  nodeIndex : UInt32
  type : UInt32
  parentIndex : UInt32
  ownerPid : UInt32
  mode : UInt32
  sizeBytes : UInt32
  dataOffset : UInt32
  dataSize : UInt32
  dataHash : UInt32
  objectHash : UInt32
  name : Fin 16 → UInt8
  deriving DecidableEq

/-- `struct runtime_fs_image_layout`. -/
structure ImageLayout where
  recordCount : UInt32
  treeLeafCount : UInt32
  treeHashCount : UInt32
  dataBytes : UInt32
  imageBytes : UInt32
  rootHash : UInt32
  deriving DecidableEq, Repr

/-! ## Helpers -/

/-- `runtime_fs_image_store_u32`. -/
def imageStoreU32 (bytes : ℕ → UInt8) (offset : ℕ) (value : UInt32) : ℕ → UInt8 :=
  writeBytes bytes offset (le32 value)

/-- `runtime_fs_image_copy_name`: the text of the source, cut to fifteen characters, then zeros. -/
def imageCopyName (src : Fin 16 → UInt8) : Fin 16 → UInt8 := fun i ↦
  if (i : ℕ) < min (cstr (List.ofFn src)).length 15 then src i else 0

/-- `runtime_fs_image_name_equals_bounded`, on the bytes of the two names. When the capacity of the
left name is reached the answer is no, whatever stands behind the right one. -/
def imageNameEqualsBounded : List UInt8 → List UInt8 → Bool
  | a :: as, b :: bs =>
    if a ≠ 0 ∧ b ≠ 0 then
      if a ≠ b then false else imageNameEqualsBounded as bs
    else b = 0 ∧ a = 0
  | _, _ => false

/-- `runtime_fs_image_hash_bytes`. -/
def imageHashBytes (data : List UInt8) : UInt32 := fnv imageHashEmpty data

/-- `runtime_fs_image_hash_u32`. -/
def imageHashU32 (hash value : UInt32) : UInt32 := fnv hash (le32 value)

/-- `runtime_fs_image_object_hash`: every field of the record but the object hash itself. -/
def imageObjectHash (record : ImageRecord) : UInt32 :=
  let hash := imageHashU32 imageHashEmpty record.nodeIndex
  let hash := imageHashU32 hash record.type
  let hash := imageHashU32 hash record.parentIndex
  let hash := imageHashU32 hash record.ownerPid
  let hash := imageHashU32 hash record.mode
  let hash := imageHashU32 hash record.sizeBytes
  let hash := imageHashU32 hash record.dataOffset
  let hash := imageHashU32 hash record.dataSize
  let hash := imageHashU32 hash record.dataHash
  fnv hash (List.ofFn record.name)

/-- `runtime_fs_image_tree_hash`. -/
def imageTreeHash (left right : UInt32) : UInt32 :=
  imageHashU32 (imageHashU32 imageHashEmpty left) right

/-- The loop of `runtime_fs_image_next_pow2`. -/
def imageNextPow2Loop (value : UInt32) : ℕ → UInt32 → UInt32
  | 0, result => result
  | fuel + 1, result =>
    if result < value then imageNextPow2Loop value fuel (result <<< 1) else result

/-- `runtime_fs_image_next_pow2`. Both callers pass at most sixteen, which needs four rounds. -/
def imageNextPow2 (value : UInt32) : UInt32 := imageNextPow2Loop value 32 1

/-- `runtime_fs_image_has_open_files`. -/
def imageHasOpenFiles (fs : RuntimeFs) : Bool :=
  (List.finRange 8).any fun s ↦ (fs.openFiles s).used ≠ 0

/-- The nodes that get a record, in order. -/
def imageNodes (fs : RuntimeFs) : List (Fin 16) :=
  (List.finRange 16).filter fun i ↦ (fs.nodes i).used ≠ 0

/-- `runtime_fs_image_record_count`. -/
def imageRecordCount (fs : RuntimeFs) : UInt32 := UInt32.ofNat (imageNodes fs).length

/-- The number of payload bytes a node contributes. -/
def imageDataSize (node : RuntimeFsNode) : UInt32 :=
  if node.type = fileTypeRegular then node.sizeBytes else 0

/-- `runtime_fs_image_data_bytes`. -/
def imageDataBytes (fs : RuntimeFs) : UInt32 :=
  ((imageNodes fs).map fun i ↦ imageDataSize (fs.nodes i)).sum

/-! ## Reading -/

/-- The fields `runtime_fs_image_parse_header` loads. -/
def imageLoadHeader (buffer : ℕ → UInt8) : ImageHeader where
  magic := load32 buffer 0
  version := load32 buffer 4
  headerBytes := load32 buffer 8
  recordCount := load32 buffer 12
  recordBytes := load32 buffer 16
  treeLeafCount := load32 buffer 20
  treeHashCount := load32 buffer 24
  dataBytes := load32 buffer 28
  rootHash := load32 buffer 32
  imageBytes := load32 buffer 36

/-- `runtime_fs_image_parse_header`. -/
def imageParseHeader (buffer : ℕ → UInt8) (size : UInt32) : Option ImageHeader :=
  if size < imageHeaderBytes then none
  else
    let header := imageLoadHeader buffer
    if header.magic ≠ imageMagic ∨ header.version ≠ imageVersion ∨
        header.headerBytes ≠ imageHeaderBytes ∨ header.recordBytes ≠ imageRecordBytes ∨
        header.recordCount = 0 ∨ header.recordCount > 16 ∨ header.treeLeafCount = 0 ∨
        header.treeLeafCount > imageMaxTreeLeaves ∨
        header.treeHashCount ≠ header.treeLeafCount * 2 - 1 ∨
        header.treeLeafCount < header.recordCount ∨
        imageNextPow2 header.treeLeafCount ≠ header.treeLeafCount then none
    else if header.imageBytes ≠ header.headerBytes + header.recordCount * header.recordBytes +
        header.treeHashCount * 4 + header.dataBytes then none
    else if header.imageBytes = size then some header else none

/-- `runtime_fs_image_read_record`. -/
def imageReadRecord (buffer : ℕ → UInt8) (offset : ℕ) : ImageRecord where
  nodeIndex := load32 buffer offset
  type := load32 buffer (offset + 4)
  parentIndex := load32 buffer (offset + 8)
  ownerPid := load32 buffer (offset + 12)
  mode := load32 buffer (offset + 16)
  sizeBytes := load32 buffer (offset + 20)
  dataOffset := load32 buffer (offset + 24)
  dataSize := load32 buffer (offset + 28)
  dataHash := load32 buffer (offset + 32)
  objectHash := load32 buffer (offset + 36)
  name := fun i ↦ buffer (offset + 40 + i)

/-- The record of a round: the record offset is the header length. -/
def imageRecordAt (buffer : ℕ → UInt8) (index : ℕ) : ImageRecord :=
  imageReadRecord buffer (40 + 56 * index)

/-- `records`, once the first loop has filled it. -/
def imageRecords (buffer : ℕ → UInt8) (header : ImageHeader) : List ImageRecord :=
  (List.range header.recordCount.toNat).map (imageRecordAt buffer)

/-- `tree_offset`. -/
def imageTreeOffset (header : ImageHeader) : ℕ := 40 + 56 * header.recordCount.toNat

/-- `data_offset`. -/
def imageDataOffset (header : ImageHeader) : ℕ :=
  imageTreeOffset header + 4 * header.treeHashCount.toNat

/-- `runtime_fs_image_find_record`, as the position of the record. -/
def imageFindRecord (records : List ImageRecord) (nodeIndex : UInt32) : Option ℕ :=
  records.findIdx? fun r ↦ r.nodeIndex = nodeIndex

/-! ## Validating -/

/-- The first status in a sequence of checks that is not OK. -/
def firstFailure (statuses : List Int) : Int :=
  (statuses.find? (· ≠ Status.ok)).getD Status.ok

/-- A check that returns the status when the condition holds. -/
def failWhen (condition : Bool) (status : Int) : Int := if condition then status else Status.ok

/-- `expected_payload_offset` before a round. -/
def imageExpectedOffset (buffer : ℕ → UInt8) : ℕ → UInt32
  | 0 => 0
  | index + 1 => imageExpectedOffset buffer index + (imageRecordAt buffer index).dataSize

/-- `present_mask` before a round. -/
def imagePresentMask (buffer : ℕ → UInt8) : ℕ → UInt32
  | 0 => 0
  | index + 1 =>
    imagePresentMask buffer index ||| (1 : UInt32) <<< (imageRecordAt buffer index).nodeIndex

/-- One round of the first loop of `runtime_fs_image_validate`. -/
def imageRecordStatus (buffer : ℕ → UInt8) (header : ImageHeader) (index : ℕ) : Int :=
  let record := imageRecordAt buffer index
  firstFailure [
    failWhen (record.nodeIndex ≥ 16) Status.einval,
    failWhen (imagePresentMask buffer index >>> record.nodeIndex &&& 1 ≠ 0) Status.eexist,
    failWhen (index = 0 ∧ record.nodeIndex ≠ 0) Status.einval,
    failWhen (index > 0 ∧ record.nodeIndex ≤ (imageRecordAt buffer (index - 1)).nodeIndex)
      Status.einval,
    failWhen (record.type ≠ fileTypeDirectory ∧ record.type ≠ fileTypeRegular) Status.einval,
    failWhen (record.type = fileTypeDirectory ∧ record.dataSize ≠ 0) Status.einval,
    failWhen (record.type = fileTypeRegular ∧ record.dataSize ≠ record.sizeBytes) Status.einval,
    failWhen (record.sizeBytes > fileCapacity) Status.enospc,
    failWhen (record.dataOffset ≠ imageExpectedOffset buffer index) Status.einval,
    failWhen (record.dataOffset + record.dataSize > header.dataBytes) Status.einval,
    failWhen (index = 0 ∧ record.parentIndex ≠ 0) Status.einval,
    failWhen (index = 0 ∧ record.type ≠ fileTypeDirectory) Status.einval,
    failWhen (index = 0 ∧ (record.name 0 ≠ slash ∨ record.name 1 ≠ 0)) Status.einval,
    failWhen (index ≠ 0 ∧ (record.name 0 = 0 ∨ record.name 0 = slash ∧ record.name 1 = 0))
      Status.einval,
    failWhen (imageHashBytes (bytesAt buffer (imageDataOffset header + record.dataOffset.toNat)
      record.dataSize.toNat) ≠ record.dataHash) Status.einval,
    failWhen (imageObjectHash record ≠ record.objectHash) Status.einval]

/-- The parent walk of the second loop, with the steps that are left before the depth exceeds the
number of nodes. -/
def imageChainStatus (records : List ImageRecord) (left : ℕ) (current : UInt32) : Int :=
  if current = 0 then Status.ok
  else
    match (imageFindRecord records current).bind fun i ↦ records[i]?, left with
    | none, _ => Status.einval
    | some _, 0 => Status.einval
    | some node, left + 1 => imageChainStatus records left node.parentIndex

/-- One round of the second loop of `runtime_fs_image_validate`. -/
def imageParentStatus (buffer : ℕ → UInt8) (header : ImageHeader) (index : ℕ) : Int :=
  let records := imageRecords buffer header
  let record := imageRecordAt buffer index
  let presentMask := imagePresentMask buffer header.recordCount.toNat
  let parent := imageFindRecord records record.parentIndex
  firstFailure [
    failWhen (record.nodeIndex ≠ 0 ∧ presentMask >>> record.parentIndex &&& 1 = 0) Status.einval,
    failWhen (record.nodeIndex = 0 ∧ parent ≠ some 0) Status.einval,
    failWhen (record.nodeIndex ≠ 0 ∧
      (parent.bind fun i ↦ records[i]?).all fun p ↦ p.type ≠ fileTypeDirectory) Status.einval,
    imageChainStatus records 16 record.nodeIndex]

/-- One comparison of the third loop of `runtime_fs_image_validate`. -/
def imagePairStatus (buffer : ℕ → UInt8) (index other : ℕ) : Int :=
  let record := imageRecordAt buffer index
  let peer := imageRecordAt buffer other
  failWhen (record.parentIndex = peer.parentIndex ∧
    imageNameEqualsBounded (List.ofFn record.name) (List.ofFn peer.name)) Status.eexist

/-- `tree_hashes`, as loaded from the image. -/
def imageTreeAt (buffer : ℕ → UInt8) (header : ImageHeader) (index : ℕ) : UInt32 :=
  load32 buffer (imageTreeOffset header + 4 * index)

/-- The comparison of one leaf with the record it stands for. -/
def imageLeafStatus (buffer : ℕ → UInt8) (header : ImageHeader) (index : ℕ) : Int :=
  let expectedHash :=
    if index < header.recordCount.toNat then (imageRecordAt buffer index).objectHash
    else imageHashEmpty
  failWhen (imageTreeAt buffer header
    (header.treeHashCount.toNat - header.treeLeafCount.toNat + index) ≠ expectedHash) Status.einval

/-- The comparison of one inner node with its children. -/
def imageInnerStatus (buffer : ℕ → UInt8) (header : ImageHeader) (parent : ℕ) : Int :=
  failWhen (imageTreeAt buffer header parent ≠
    imageTreeHash (imageTreeAt buffer header (parent * 2 + 1))
      (imageTreeAt buffer header (parent * 2 + 2))) Status.einval

/-- The checks of `runtime_fs_image_validate` after the header, in the order of the source. -/
def imageBodyStatus (buffer : ℕ → UInt8) (header : ImageHeader) : Int :=
  let count := header.recordCount.toNat
  let inner := header.treeHashCount.toNat - header.treeLeafCount.toNat
  firstFailure (
    (List.range count).map (imageRecordStatus buffer header) ++
    [failWhen (imageExpectedOffset buffer count ≠ header.dataBytes) Status.einval] ++
    (List.range count).map (imageParentStatus buffer header) ++
    (List.range count).flatMap (fun index ↦
      ((List.range count).filter (index < ·)).map (imagePairStatus buffer index)) ++
    (List.range header.treeLeafCount.toNat).map (imageLeafStatus buffer header) ++
    (List.range inner).reverse.map (imageInnerStatus buffer header) ++
    [failWhen (imageTreeAt buffer header 0 ≠ header.rootHash) Status.einval])

/-- `runtime_fs_image_validate`. The layout is filled only when the image is accepted. -/
def imageValidate (buffer : Option (ℕ → UInt8)) (size : UInt32) (layout : Option ImageLayout) :
    Int × Option ImageLayout :=
  match buffer with
  | none => (Status.einval, layout)
  | some bytes =>
    match imageParseHeader bytes size with
    | none => (Status.einval, layout)
    | some header =>
      let status := imageBodyStatus bytes header
      if status ≠ Status.ok then (status, layout)
      else
        (Status.ok, layout.map fun _ ↦
          ⟨header.recordCount, header.treeLeafCount, header.treeHashCount, header.dataBytes,
            header.imageBytes, header.rootHash⟩)

/-! ## Importing -/

/-- The empty file system that an import fills: `runtime_fs_init`, then every node and slot
cleared. -/
def imageWiped : RuntimeFs where
  nodes := fun i ↦
    { used := 0
      type := fileTypeUnknown
      parentIndex := 0
      ownerPid := 0
      mode := 0
      sizeBytes := 0
      name := Function.update (runtimeFsInit.nodes i).name 0 0
      data := fun _ ↦ 0 }
  openFiles := fun _ ↦ RuntimeFsOpenFile.zero

/-- The node an import makes from a record and the payload. -/
def imageLoadNode (bytes : ℕ → UInt8) (dataOffset : ℕ) (record : ImageRecord)
    (node : RuntimeFsNode) : RuntimeFsNode where
  used := 1
  type := record.type
  parentIndex := record.parentIndex
  ownerPid := record.ownerPid
  mode := record.mode
  sizeBytes := record.sizeBytes
  name := imageCopyName record.name
  data := fun k ↦
    if (k : ℕ) < record.dataSize.toNat then bytes (dataOffset + record.dataOffset.toNat + k)
    else node.data k

/-- One round of the loop of `runtime_fs_image_import`. -/
def imageImportRecord (bytes : ℕ → UInt8) (header : ImageHeader) (fs : RuntimeFs) (index : ℕ) :
    Except Fault RuntimeFs := do
  let record := imageRecordAt bytes index
  let i ← nodeIndexOf record.nodeIndex
  if 256 < record.dataSize.toNat then .error .outOfBounds
  else .ok (fs.setNode i (imageLoadNode bytes (imageDataOffset header) record (fs.nodes i)))

/-- `runtime_fs_image_import`. -/
def imageImport (fs : RuntimeFs) (buffer : Option (ℕ → UInt8)) (size : UInt32)
    (layout : Option ImageLayout) : Except Fault (Int × RuntimeFs × Option ImageLayout) :=
  match buffer with
  | none => .ok (Status.einval, fs, layout)
  | some bytes =>
    let (status, layout) := imageValidate buffer size layout
    if status ≠ Status.ok then .ok (Status.einval, fs, layout)
    else
      match imageParseHeader bytes size with
      | none => .ok (Status.einval, fs, layout)
      | some header => do
        let fs ← (List.range header.recordCount.toNat).foldlM (imageImportRecord bytes header)
          imageWiped
        let status ← runtimeFsValidate fs
        .ok (status, fs, layout)

/-! ## Exporting -/

/-- `runtime_fs_image_required_bytes`. -/
def imageRequiredBytes (fs : RuntimeFs) : Except Fault UInt32 := do
  if (← runtimeFsValidate fs) ≠ Status.ok then .ok 0
  else if imageRecordCount fs = 0 then .ok 0
  else
    .ok (imageHeaderBytes + imageRecordCount fs * imageRecordBytes +
      (imageNextPow2 (imageRecordCount fs) * 2 - 1) * 4 + imageDataBytes fs)

/-- `runtime_fs_image_write_record`. -/
def imageWriteRecord (bytes : ℕ → UInt8) (offset : ℕ) (record : ImageRecord) : ℕ → UInt8 :=
  let bytes := imageStoreU32 bytes offset record.nodeIndex
  let bytes := imageStoreU32 bytes (offset + 4) record.type
  let bytes := imageStoreU32 bytes (offset + 8) record.parentIndex
  let bytes := imageStoreU32 bytes (offset + 12) record.ownerPid
  let bytes := imageStoreU32 bytes (offset + 16) record.mode
  let bytes := imageStoreU32 bytes (offset + 20) record.sizeBytes
  let bytes := imageStoreU32 bytes (offset + 24) record.dataOffset
  let bytes := imageStoreU32 bytes (offset + 28) record.dataSize
  let bytes := imageStoreU32 bytes (offset + 32) record.dataHash
  let bytes := imageStoreU32 bytes (offset + 36) record.objectHash
  writeBytes bytes (offset + 40) (List.ofFn record.name)

/-- The record `runtime_fs_image_export` makes for a node, its object hash included. -/
def imageNodeRecord (fs : RuntimeFs) (nodeIndex : Fin 16) (payloadCursor : UInt32) : ImageRecord :=
  let node := fs.nodes nodeIndex
  let dataSize := imageDataSize node
  let record : ImageRecord :=
    { nodeIndex := UInt32.ofNat nodeIndex
      type := node.type
      parentIndex := node.parentIndex
      ownerPid := node.ownerPid
      mode := node.mode
      sizeBytes := node.sizeBytes
      dataOffset := payloadCursor
      dataSize := dataSize
      dataHash := imageHashBytes ((List.ofFn node.data).take dataSize.toNat)
      objectHash := 0
      name := imageCopyName node.name }
  { record with objectHash := imageObjectHash record }

/-- What the node loop of `runtime_fs_image_export` carries. -/
structure ImageExportState where
  bytes : ℕ → UInt8
  recordOffset : ℕ
  payloadCursor : UInt32
  objectHashes : List UInt32

/-- One round of the node loop of `runtime_fs_image_export`, for a used node. -/
def imageExportNode (fs : RuntimeFs) (dataOffset : ℕ) (state : ImageExportState)
    (nodeIndex : Fin 16) : ImageExportState :=
  let record := imageNodeRecord fs nodeIndex state.payloadCursor
  let bytes := imageWriteRecord state.bytes state.recordOffset record
  { bytes := writeBytes bytes (dataOffset + state.payloadCursor.toNat)
      ((List.ofFn (fs.nodes nodeIndex).data).take record.dataSize.toNat)
    recordOffset := state.recordOffset + 56
    payloadCursor := state.payloadCursor + record.dataSize
    objectHashes := state.objectHashes ++ [record.objectHash] }

/-- The leaves of the hash tree, in an array that starts out empty. -/
def imageTreeLeaves (inner leafCount : ℕ) (objectHashes : List UInt32) : ℕ → UInt32 := fun k ↦
  if inner ≤ k ∧ k < inner + leafCount then objectHashes.getD (k - inner) imageHashEmpty
  else imageHashEmpty

/-- The loop that fills the inner nodes from the last one up to the root. -/
def imageTreeInner (tree : ℕ → UInt32) : ℕ → ℕ → UInt32
  | 0 => tree
  | parent + 1 =>
    imageTreeInner (Function.update tree parent
      (imageTreeHash (tree (parent * 2 + 1)) (tree (parent * 2 + 2)))) parent

/-- `runtime_fs_image_export`. `bytesWritten` and `layout` hold what the pointers refer to. -/
def imageExport (fs : RuntimeFs) (buffer : Option (ℕ → UInt8)) (capacity : UInt32)
    (bytesWritten : Option UInt32) (layout : Option ImageLayout) :
    Except Fault (Int × Option (ℕ → UInt8) × Option UInt32 × Option ImageLayout) :=
  match buffer, bytesWritten with
  | some bytes, some _ => do
    if (← runtimeFsValidate fs) ≠ Status.ok then
      .ok (Status.einval, buffer, bytesWritten, layout)
    else if imageHasOpenFiles fs then .ok (Status.ebusy, buffer, bytesWritten, layout)
    else if imageRecordCount fs = 0 then .ok (Status.einval, buffer, bytesWritten, layout)
    else
      let recordCount := imageRecordCount fs
      let treeLeafCount := imageNextPow2 recordCount
      let treeHashCount := treeLeafCount * 2 - 1
      let dataBytes := imageDataBytes fs
      let imageBytes := imageHeaderBytes + recordCount * imageRecordBytes + treeHashCount * 4 +
        dataBytes
      if capacity < imageBytes then .ok (Status.enospc, buffer, bytesWritten, layout)
      else
        let treeOffset := 40 + 56 * recordCount.toNat
        let dataOffset := treeOffset + 4 * treeHashCount.toNat
        let state := (imageNodes fs).foldl (imageExportNode fs dataOffset) ⟨bytes, 40, 0, []⟩
        let inner := treeHashCount.toNat - treeLeafCount.toNat
        let tree := imageTreeInner
          (imageTreeLeaves inner treeLeafCount.toNat state.objectHashes) inner
        let bytes := (List.range treeHashCount.toNat).foldl
          (fun bytes index ↦ imageStoreU32 bytes (treeOffset + 4 * index) (tree index)) state.bytes
        let bytes := imageStoreU32 bytes 0 imageMagic
        let bytes := imageStoreU32 bytes 4 imageVersion
        let bytes := imageStoreU32 bytes 8 imageHeaderBytes
        let bytes := imageStoreU32 bytes 12 recordCount
        let bytes := imageStoreU32 bytes 16 imageRecordBytes
        let bytes := imageStoreU32 bytes 20 treeLeafCount
        let bytes := imageStoreU32 bytes 24 treeHashCount
        let bytes := imageStoreU32 bytes 28 dataBytes
        let bytes := imageStoreU32 bytes 32 (tree 0)
        let bytes := imageStoreU32 bytes 36 imageBytes
        .ok (Status.ok, some bytes, some imageBytes, layout.map fun _ ↦
          ⟨recordCount, treeLeafCount, treeHashCount, dataBytes, imageBytes, tree 0⟩)
  | _, _ => .ok (Status.einval, buffer, bytesWritten, layout)

end TensorOS
