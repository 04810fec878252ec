import TensorOS.Image.Format
import TensorOS.Fs.Invariant

/-!
# What an export writes

The stores of `runtime_fs_image_export` go to disjoint ranges that together cover the front of the
buffer, so their order does not matter: the memory afterwards is the memory before with the list
`imageOf fs` in front (`imageExport_eq`). The list is the header, the records, the hash tree and the
payload, one after the other.
-/

namespace TensorOS

variable {fs : RuntimeFs}

/-! ## Headers and records as bytes -/

/-- The bytes of a record. -/
def ImageRecord.encode (r : ImageRecord) : List UInt8 :=
  le32 r.nodeIndex ++ le32 r.type ++ le32 r.parentIndex ++ le32 r.ownerPid ++ le32 r.mode ++
    le32 r.sizeBytes ++ le32 r.dataOffset ++ le32 r.dataSize ++ le32 r.dataHash ++
    le32 r.objectHash ++ List.ofFn r.name

/-- The bytes of a header. -/
def ImageHeader.encode (h : ImageHeader) : List UInt8 :=
  le32 h.magic ++ le32 h.version ++ le32 h.headerBytes ++ le32 h.recordCount ++
    le32 h.recordBytes ++ le32 h.treeLeafCount ++ le32 h.treeHashCount ++ le32 h.dataBytes ++
    le32 h.rootHash ++ le32 h.imageBytes

@[simp] theorem ImageRecord.length_encode (r : ImageRecord) : r.encode.length = 56 := by
  simp [encode]

@[simp] theorem ImageHeader.length_encode (h : ImageHeader) : h.encode.length = 40 := by
  simp [encode]

theorem imageWriteRecord_eq (m : ℕ → UInt8) (a : ℕ) (r : ImageRecord) :
    imageWriteRecord m a r = writeBytes m a r.encode := by
  simp only [ImageRecord.encode, ← writeBytes_append, List.length_append, length_le32]
  rfl

theorem imageStoreHeader_eq (m : ℕ → UInt8) (h : ImageHeader) :
    imageStoreU32 (imageStoreU32 (imageStoreU32 (imageStoreU32 (imageStoreU32 (imageStoreU32
      (imageStoreU32 (imageStoreU32 (imageStoreU32 (imageStoreU32 m 0 h.magic) 4 h.version)
      8 h.headerBytes) 12 h.recordCount) 16 h.recordBytes) 20 h.treeLeafCount) 24 h.treeHashCount)
      28 h.dataBytes) 32 h.rootHash) 36 h.imageBytes = writeBytes m 0 h.encode := by
  simp only [ImageHeader.encode, ← writeBytes_append, List.length_append, length_le32]
  rfl

theorem Holds.imageReadRecord_eq {m : ℕ → UInt8} {a : ℕ} {r : ImageRecord}
    (h : Holds m a r.encode) : imageReadRecord m a = r := by
  simp only [ImageRecord.encode, holds_append, List.length_append, length_le32] at h
  obtain ⟨⟨⟨⟨⟨⟨⟨⟨⟨⟨h₀, h₁⟩, h₂⟩, h₃⟩, h₄⟩, h₅⟩, h₆⟩, h₇⟩, h₈⟩, h₉⟩, hname⟩ := h
  have hn : (fun i : Fin 16 ↦ m (a + 40 + i)) = r.name := by
    funext i
    have hi := holds_iff.mp hname i (by rw [List.length_ofFn]; exact i.isLt)
    rwa [List.getElem_ofFn] at hi
  have e₀ := h₀.load32_eq
  have e₁ := h₁.load32_eq
  have e₂ := h₂.load32_eq
  have e₃ := h₃.load32_eq
  have e₄ := h₄.load32_eq
  have e₅ := h₅.load32_eq
  have e₆ := h₆.load32_eq
  have e₇ := h₇.load32_eq
  have e₈ := h₈.load32_eq
  have e₉ := h₉.load32_eq
  simp only [imageReadRecord, hn, e₀, e₁, e₂, e₃, e₄, e₅, e₆, e₇, e₈, e₉]

theorem Holds.imageLoadHeader_eq {m : ℕ → UInt8} {h : ImageHeader} (hm : Holds m 0 h.encode) :
    imageLoadHeader m = h := by
  simp only [ImageHeader.encode, holds_append, List.length_append, length_le32] at hm
  obtain ⟨⟨⟨⟨⟨⟨⟨⟨⟨h₀, h₁⟩, h₂⟩, h₃⟩, h₄⟩, h₅⟩, h₆⟩, h₇⟩, h₈⟩, h₉⟩ := hm
  have e₀ := h₀.load32_eq
  have e₁ := h₁.load32_eq
  have e₂ := h₂.load32_eq
  have e₃ := h₃.load32_eq
  have e₄ := h₄.load32_eq
  have e₅ := h₅.load32_eq
  have e₆ := h₆.load32_eq
  have e₇ := h₇.load32_eq
  have e₈ := h₈.load32_eq
  have e₉ := h₉.load32_eq
  simp only [imageLoadHeader, e₀, e₁, e₂, e₃, e₄, e₅, e₆, e₇, e₈, e₉]

/-! ## The node loop -/

/-- The payload of a node. -/
def imagePayload (node : RuntimeFsNode) : List UInt8 :=
  (List.ofFn node.data).take (imageDataSize node).toNat

/-- The records of a list of nodes, with the payload cursor running. -/
def imageNodeRecords (fs : RuntimeFs) : List (Fin 16) → UInt32 → List ImageRecord
  | [], _ => []
  | i :: l, cursor =>
    imageNodeRecord fs i cursor :: imageNodeRecords fs l (cursor + imageDataSize (fs.nodes i))

/-- The payload of every node fits the capacity of a file. -/
def PayloadFits (fs : RuntimeFs) : Prop := ∀ i, (imageDataSize (fs.nodes i)).toNat ≤ 256

theorem PayloadFits.length_imagePayload (h : PayloadFits fs) (i : Fin 16) :
    (imagePayload (fs.nodes i)).length = (imageDataSize (fs.nodes i)).toNat := by
  rw [imagePayload, List.length_take, List.length_ofFn]
  exact Nat.min_eq_left (h i)

theorem length_flatMap_encode (l : List ImageRecord) :
    (l.flatMap ImageRecord.encode).length = 56 * l.length := by
  induction l with
  | nil => rfl
  | cons r l ih =>
    rw [List.flatMap_cons, List.length_append, ih, ImageRecord.length_encode, List.length_cons]
    omega

theorem length_imageNodeRecords (l : List (Fin 16)) (cursor : UInt32) :
    (imageNodeRecords fs l cursor).length = l.length := by
  induction l generalizing cursor with
  | nil => rfl
  | cons i l ih => rw [imageNodeRecords, List.length_cons, ih, List.length_cons]

/-- **The node loop** stores the records below the data offset and the payload from it on. -/
theorem imageExportNode_foldl (h : PayloadFits fs) {D : ℕ} {l : List (Fin 16)}
    (state : ImageExportState) (hrecords : state.recordOffset + 56 * l.length ≤ D)
    (hpayload : state.payloadCursor.toNat + 256 * l.length < 2 ^ 32) :
    (l.foldl (imageExportNode fs D) state).bytes
        = writeBytes (writeBytes state.bytes state.recordOffset
            ((imageNodeRecords fs l state.payloadCursor).flatMap ImageRecord.encode))
            (D + state.payloadCursor.toNat) (l.flatMap fun i ↦ imagePayload (fs.nodes i)) ∧
      (l.foldl (imageExportNode fs D) state).objectHashes = state.objectHashes ++
        (imageNodeRecords fs l state.payloadCursor).map ImageRecord.objectHash := by
  induction l generalizing state with
  | nil =>
    have hnil : ∀ (m : ℕ → UInt8) (a : ℕ), writeBytes m a [] = m := fun m a ↦ by
      funext k
      rw [writeBytes]
      split <;> simp
    simp [imageNodeRecords, hnil]
  | cons i l ih =>
    have hfit := h i
    have hlen := h.length_imagePayload i
    rw [List.length_cons] at hrecords hpayload
    have hcursor : (state.payloadCursor + imageDataSize (fs.nodes i)).toNat
        = state.payloadCursor.toNat + (imageDataSize (fs.nodes i)).toNat := by
      rw [UInt32.toNat_add]
      omega
    -- the state after the first round, with both stores as lists
    have hstep : imageExportNode fs D state i =
        ⟨writeBytes (writeBytes state.bytes state.recordOffset
            (imageNodeRecord fs i state.payloadCursor).encode)
            (D + state.payloadCursor.toNat) (imagePayload (fs.nodes i)),
          state.recordOffset + 56, state.payloadCursor + imageDataSize (fs.nodes i),
          state.objectHashes ++ [(imageNodeRecord fs i state.payloadCursor).objectHash]⟩ := by
      simp only [imageExportNode, imageWriteRecord_eq]
      rfl
    have hrest := length_flatMap_encode
      (imageNodeRecords fs l (state.payloadCursor + imageDataSize (fs.nodes i)))
    rw [length_imageNodeRecords] at hrest
    obtain ⟨hbytes, hhashes⟩ := ih (imageExportNode fs D state i)
      (by rw [hstep]; dsimp only; omega) (by rw [hstep]; dsimp only; omega)
    -- the records of the later rounds stand below the payload of this one
    have hswap := fun m ↦ writeBytes_comm m
      ((imageNodeRecords fs l (state.payloadCursor + imageDataSize (fs.nodes i))).flatMap
        ImageRecord.encode) (imagePayload (fs.nodes i))
      (a := state.recordOffset + 56) (b := D + state.payloadCursor.toNat) (by omega)
    rw [List.foldl_cons]
    constructor
    · rw [hbytes, hstep]
      dsimp only
      rw [hcursor, ← hswap, imageNodeRecords, List.flatMap_cons, List.flatMap_cons,
        ← writeBytes_append, ← writeBytes_append, ImageRecord.length_encode, hlen, Nat.add_assoc]
    · rw [hhashes, hstep]
      simp [imageNodeRecords]

/-! ## The tree and the header -/

theorem imageStoreTree_foldl (m : ℕ → UInt8) (a : ℕ) (tree : ℕ → UInt32) (n : ℕ) :
    (List.range n).foldl (fun bytes index ↦ imageStoreU32 bytes (a + 4 * index) (tree index)) m
      = writeBytes m a ((List.range n).flatMap fun index ↦ le32 (tree index)) := by
  have hlen : ∀ k, ((List.range k).flatMap fun index ↦ le32 (tree index)).length = 4 * k := by
    intro k
    simp [List.length_flatMap, mul_comm]
  induction n with
  | zero =>
    funext k
    simp [writeBytes]
  | succ n ih =>
    rw [List.range_succ, List.foldl_append, ih, List.flatMap_append, ← writeBytes_append, hlen]
    simp [imageStoreU32]

/-- The inner nodes of the finished tree are hashes of their children, and the leaves stay. -/
theorem imageTreeInner_spec (tree : ℕ → UInt32) (n : ℕ) :
    (∀ p < n, imageTreeInner tree n p
      = imageTreeHash (imageTreeInner tree n (p * 2 + 1)) (imageTreeInner tree n (p * 2 + 2))) ∧
      ∀ p, n ≤ p → imageTreeInner tree n p = tree p := by
  induction n generalizing tree with
  | zero => exact ⟨fun p hp ↦ absurd hp (by omega), fun p _ ↦ rfl⟩
  | succ n ih =>
    rw [imageTreeInner]
    obtain ⟨hinner, hkeep⟩ := ih (Function.update tree n
      (imageTreeHash (tree (n * 2 + 1)) (tree (n * 2 + 2))))
    refine ⟨fun p hp ↦ ?_, fun p hp ↦ ?_⟩
    · rcases Nat.lt_or_eq_of_le (Nat.lt_succ_iff.mp hp) with hlt | rfl
      · exact hinner p hlt
      · -- the children of this node come after it, so later rounds leave them alone
        rw [hkeep p le_rfl, hkeep _ (by omega), hkeep _ (by omega), Function.update_self,
          Function.update_of_ne (by omega), Function.update_of_ne (by omega)]
    · rw [hkeep p (by omega), Function.update_of_ne (by omega)]

/-! ## The whole image -/

/-- The hash tree an export builds. -/
def imageTreeOf (fs : RuntimeFs) : ℕ → UInt32 :=
  let leafCount := (imageNextPow2 (imageRecordCount fs)).toNat
  imageTreeInner (imageTreeLeaves (leafCount - 1) leafCount
    ((imageNodeRecords fs (imageNodes fs) 0).map ImageRecord.objectHash)) (leafCount - 1)

/-- The header an export writes. -/
def imageHeaderOf (fs : RuntimeFs) : ImageHeader where
  magic := imageMagic
  version := imageVersion
  headerBytes := imageHeaderBytes
  recordCount := imageRecordCount fs
  recordBytes := imageRecordBytes
  treeLeafCount := imageNextPow2 (imageRecordCount fs)
  treeHashCount := imageNextPow2 (imageRecordCount fs) * 2 - 1
  dataBytes := imageDataBytes fs
  rootHash := imageTreeOf fs 0
  imageBytes := imageHeaderBytes + imageRecordCount fs * imageRecordBytes +
    (imageNextPow2 (imageRecordCount fs) * 2 - 1) * 4 + imageDataBytes fs

/-- The bytes an export writes. -/
def imageOf (fs : RuntimeFs) : List UInt8 :=
  (imageHeaderOf fs).encode ++
    ((imageNodeRecords fs (imageNodes fs) 0).flatMap ImageRecord.encode ++
    ((List.range (imageHeaderOf fs).treeHashCount.toNat).flatMap
      (fun k ↦ le32 (imageTreeOf fs k)) ++
    (imageNodes fs).flatMap fun i ↦ imagePayload (fs.nodes i)))

theorem length_imageNodes_le (fs : RuntimeFs) : (imageNodes fs).length ≤ 16 := by
  have := List.length_filter_le (fun i ↦ decide ((fs.nodes i).used ≠ 0)) (List.finRange 16)
  rwa [List.length_finRange] at this

theorem toNat_imageRecordCount (fs : RuntimeFs) :
    (imageRecordCount fs).toNat = (imageNodes fs).length := by
  have := length_imageNodes_le fs
  rw [imageRecordCount, UInt32.toNat_ofNat']
  omega

/-- Up to sixteen, the next power of two is one, is large enough and stays in the bound. -/
theorem imageNextPow2_spec {n : UInt32} (h0 : n ≠ 0) (h : n.toNat ≤ 16) :
    n.toNat ≤ (imageNextPow2 n).toNat ∧ (imageNextPow2 n).toNat ≤ 16 ∧
      imageNextPow2 (imageNextPow2 n) = imageNextPow2 n := by
  have key : ∀ k : Fin 17, k ≠ 0 → k ≤ (imageNextPow2 (UInt32.ofNat k)).toNat ∧
      (imageNextPow2 (UInt32.ofNat k)).toNat ≤ 16 ∧
      imageNextPow2 (imageNextPow2 (UInt32.ofNat k)) = imageNextPow2 (UInt32.ofNat k) := by
    decide +kernel
  have hne : (⟨n.toNat, by omega⟩ : Fin 17) ≠ 0 := by
    intro hk
    have hval : n.toNat = 0 := congrArg Fin.val hk
    exact h0 (UInt32.toNat_inj.mp hval)
  simpa using key ⟨n.toNat, by omega⟩ hne

/-- The header of an export describes a tree with one root more than inner nodes. -/
theorem toNat_treeHashCount_imageHeaderOf (h : imageRecordCount fs ≠ 0) :
    (imageHeaderOf fs).treeHashCount.toNat
      = 2 * (imageNextPow2 (imageRecordCount fs)).toNat - 1 := by
  have hle : (imageRecordCount fs).toNat ≤ 16 := by
    rw [toNat_imageRecordCount]
    exact length_imageNodes_le fs
  have hpos : (imageRecordCount fs).toNat ≠ 0 := fun h0 ↦ h (UInt32.toNat_inj.mp h0)
  obtain ⟨hge, hmax, -⟩ := imageNextPow2_spec h hle
  have h2 : (2 : UInt32).toNat = 2 := rfl
  have h1 : (1 : UInt32).toNat = 1 := rfl
  have hmul : (imageNextPow2 (imageRecordCount fs) * 2).toNat
      = (imageNextPow2 (imageRecordCount fs)).toNat * 2 := by
    rw [UInt32.toNat_mul, h2]
    omega
  rw [imageHeaderOf, UInt32.toNat_sub_of_le, hmul, h1]
  · omega
  · rw [UInt32.le_iff_toNat_le, hmul, h1]
    omega

/-- The stores of an export, in the order the source makes them, are one store. -/
theorem writeBytes_regions (m : ℕ → UInt8) (H R T P : List UInt8) {a b c : ℕ} (ha : a = H.length)
    (hb : b = a + R.length) (hc : c = b + T.length) :
    writeBytes (writeBytes (writeBytes (writeBytes m a R) c P) b T) 0 H
      = writeBytes m 0 (H ++ (R ++ (T ++ P))) := by
  have hHR := fun m ↦ writeBytes_comm m H R (a := 0) (b := a) (by omega)
  have hHT := fun m ↦ writeBytes_comm m H T (a := 0) (b := b) (by omega)
  have hHP := fun m ↦ writeBytes_comm m H P (a := 0) (b := c) (by omega)
  have hTP := fun m ↦ writeBytes_comm m T P (a := b) (b := c) (by omega)
  rw [← hHT, ← hHP, ← hHR, ← hTP, ← writeBytes_append, ← writeBytes_append, ← writeBytes_append,
    Nat.zero_add, ← ha, ← hb, ← hc]

/-- **An export** of a valid file system without open files stores its image at the front of any
buffer that is large enough. -/
theorem imageExport_eq (h : PayloadFits fs) (hvalid : runtimeFsValidate fs = .ok Status.ok)
    (hclosed : imageHasOpenFiles fs = false) (hcount : imageRecordCount fs ≠ 0)
    (bytes : ℕ → UInt8) {capacity : UInt32} (hcap : (imageHeaderOf fs).imageBytes ≤ capacity)
    (written : UInt32) (layout : Option ImageLayout) :
    imageExport fs (some bytes) capacity (some written) layout
      = .ok (Status.ok, some (writeBytes bytes 0 (imageOf fs)),
          some (imageHeaderOf fs).imageBytes, layout.map fun _ ↦
            ⟨(imageHeaderOf fs).recordCount, (imageHeaderOf fs).treeLeafCount,
              (imageHeaderOf fs).treeHashCount, (imageHeaderOf fs).dataBytes,
              (imageHeaderOf fs).imageBytes, (imageHeaderOf fs).rootHash⟩) := by
  have hhash := toNat_treeHashCount_imageHeaderOf hcount
  have hlen := length_imageNodes_le fs
  have hrecords := toNat_imageRecordCount fs
  have hinner : (imageHeaderOf fs).treeHashCount.toNat
      - (imageNextPow2 (imageRecordCount fs)).toNat
        = (imageNextPow2 (imageRecordCount fs)).toNat - 1 := by omega
  have hlenR := length_flatMap_encode (imageNodeRecords fs (imageNodes fs) 0)
  rw [length_imageNodeRecords] at hlenR
  have hlenT : ((List.range (imageHeaderOf fs).treeHashCount.toNat).flatMap
      fun k ↦ le32 (imageTreeOf fs k)).length = 4 * (imageHeaderOf fs).treeHashCount.toNat := by
    simp [List.length_flatMap, mul_comm]
  obtain ⟨hbytes, hhashes⟩ := imageExportNode_foldl h
    (D := 40 + 56 * (imageRecordCount fs).toNat + 4 * (imageHeaderOf fs).treeHashCount.toNat)
    (l := imageNodes fs) ⟨bytes, 40, 0, []⟩ (by dsimp only; omega)
    (by dsimp only; rw [UInt32.toNat_zero]; omega)
  have htree : imageTreeInner (imageTreeLeaves ((imageNextPow2 (imageRecordCount fs)).toNat - 1)
      (imageNextPow2 (imageRecordCount fs)).toNat
      ((imageNodeRecords fs (imageNodes fs) 0).map ImageRecord.objectHash))
      ((imageNextPow2 (imageRecordCount fs)).toNat - 1) = imageTreeOf fs := rfl
  have hcount' : imageNextPow2 (imageRecordCount fs) * 2 - 1
      = (imageHeaderOf fs).treeHashCount := rfl
  unfold imageExport
  dsimp only
  rw [hvalid, ok_bind, if_neg (not_not.mpr rfl), hclosed, if_neg Bool.false_ne_true, if_neg hcount,
    if_neg (UInt32.not_lt.mpr hcap : ¬capacity < imageHeaderBytes + imageRecordCount fs *
      imageRecordBytes + (imageNextPow2 (imageRecordCount fs) * 2 - 1) * 4 + imageDataBytes fs),
    hcount', hhashes, hinner, List.nil_append, htree, imageStoreTree_foldl, hbytes]
  -- the stores in the order of their addresses
  have hstore := imageStoreHeader_eq (writeBytes (writeBytes (writeBytes bytes 40
    ((imageNodeRecords fs (imageNodes fs) 0).flatMap ImageRecord.encode))
    (40 + 56 * (imageRecordCount fs).toNat + 4 * (imageHeaderOf fs).treeHashCount.toNat)
    ((imageNodes fs).flatMap fun i ↦ imagePayload (fs.nodes i)))
    (40 + 56 * (imageRecordCount fs).toNat)
    ((List.range (imageHeaderOf fs).treeHashCount.toNat).flatMap fun k ↦ le32 (imageTreeOf fs k)))
    (imageHeaderOf fs)
  have hsorted := writeBytes_regions bytes (imageHeaderOf fs).encode
    ((imageNodeRecords fs (imageNodes fs) 0).flatMap ImageRecord.encode)
    ((List.range (imageHeaderOf fs).treeHashCount.toNat).flatMap fun k ↦ le32 (imageTreeOf fs k))
    ((imageNodes fs).flatMap fun i ↦ imagePayload (fs.nodes i)) (ImageHeader.length_encode _).symm
    (b := 40 + 56 * (imageRecordCount fs).toNat) (by omega)
    (c := 40 + 56 * (imageRecordCount fs).toNat + 4 * (imageHeaderOf fs).treeHashCount.toNat)
    (by omega)
  rw [imageOf, ← hsorted, ← hstore]
  rfl

end TensorOS
