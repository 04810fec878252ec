import TensorOS.Fs.Run
import TensorOS.Image.Export
import TensorOS.Image.Import
import TensorOS.Image.Tamper

/-!
# The round trip through an image

Exporter and validator are written separately; they meet at `Stored`, which says where the regions
of `imageOf fs` stand in memory. An image that is stored so passes each of the validator's checks,
because a sound file system without its root moved has increasing node indices, distinct sibling
names and chains of parents. The import then builds a file system that agrees with the exported one
on everything an image keeps, and bytes past the end of a file are zero on both sides.
-/

namespace TensorOS

variable {fs : RuntimeFs} {m : ℕ → UInt8}

/-! ## The nodes of an image -/

theorem mem_imageNodes {i : Fin 16} : i ∈ imageNodes fs ↔ (fs.nodes i).used ≠ 0 := by
  simp [imageNodes]

theorem sorted_imageNodes (fs : RuntimeFs) : (imageNodes fs).Pairwise (· < ·) :=
  (List.pairwise_lt_finRange 16).filter _

theorem imageNodes_getElem_lt {j k : ℕ} (hjk : j < k) (hk : k < (imageNodes fs).length) :
    (imageNodes fs)[j] < (imageNodes fs)[k] :=
  List.pairwise_iff_getElem.mp (sorted_imageNodes fs) j k (by omega) hk hjk

/-- A valid file system has its root as the first record. -/
theorem RootIntact.imageNodes_zero (h : RootIntact fs) :
    ∃ hpos : 0 < (imageNodes fs).length, (imageNodes fs)[0] = 0 := by
  obtain ⟨k, hk, hzero⟩ := List.mem_iff_getElem.mp (mem_imageNodes.mpr h.used)
  refine ⟨by omega, ?_⟩
  rcases Nat.eq_zero_or_pos k with rfl | hpos
  · exact hzero
  · have hlt := imageNodes_getElem_lt hpos hk
    rw [hzero] at hlt
    exact absurd hlt (Fin.not_lt_zero _)

/-! ## Payload offsets -/

/-- The payload offset of a record. -/
def imageOffset (fs : RuntimeFs) (k : ℕ) : UInt32 :=
  (((imageNodes fs).take k).map fun i ↦ imageDataSize (fs.nodes i)).sum

theorem imageOffset_succ {k : ℕ} (hk : k < (imageNodes fs).length) :
    imageOffset fs (k + 1) = imageOffset fs k + imageDataSize (fs.nodes (imageNodes fs)[k]) := by
  rw [imageOffset, List.take_succ_eq_append_getElem hk, List.map_append, List.sum_append,
    imageOffset]
  simp

theorem imageOffset_length (fs : RuntimeFs) :
    imageOffset fs (imageNodes fs).length = imageDataBytes fs := by
  rw [imageOffset, List.take_length, imageDataBytes]

theorem PayloadFits.imageOffset_le (h : PayloadFits fs) {k : ℕ} (hk : k ≤ (imageNodes fs).length) :
    (imageOffset fs k).toNat ≤ 256 * k := by
  induction k with
  | zero => simp [imageOffset]
  | succ k ih =>
    have hsize := h (imageNodes fs)[k]
    have hprev := ih (by omega)
    rw [imageOffset_succ (by omega), UInt32.toNat_add]
    omega

theorem PayloadFits.toNat_imageOffset_succ (h : PayloadFits fs) {k : ℕ}
    (hk : k < (imageNodes fs).length) : (imageOffset fs (k + 1)).toNat
      = (imageOffset fs k).toNat + (imageDataSize (fs.nodes (imageNodes fs)[k])).toNat := by
  have hlen := length_imageNodes_le fs
  have hsize := h (imageNodes fs)[k]
  have hprev := h.imageOffset_le (Nat.le_of_lt hk)
  rw [imageOffset_succ hk, UInt32.toNat_add]
  omega

theorem PayloadFits.imageOffset_mono (h : PayloadFits fs) {j k : ℕ} (hjk : j ≤ k)
    (hk : k ≤ (imageNodes fs).length) : (imageOffset fs j).toNat ≤ (imageOffset fs k).toNat := by
  induction k with
  | zero =>
    obtain rfl := Nat.le_zero.mp hjk
    exact le_rfl
  | succ k ih =>
    rcases Nat.lt_or_eq_of_le hjk with hlt | rfl
    · have hprev := ih (by omega) (by omega)
      rw [h.toNat_imageOffset_succ (by omega)]
      omega
    · exact le_rfl

/-- The payloads in front of a record have the length its offset says. -/
theorem PayloadFits.length_flatMap_payload (h : PayloadFits fs) {k : ℕ}
    (hk : k ≤ (imageNodes fs).length) :
    (((imageNodes fs).take k).flatMap fun i ↦ imagePayload (fs.nodes i)).length
      = (imageOffset fs k).toNat := by
  induction k with
  | zero => simp [imageOffset]
  | succ k ih =>
    rw [h.toNat_imageOffset_succ (by omega), List.take_succ_eq_append_getElem (by omega),
      List.flatMap_append, List.length_append, ih (by omega), List.flatMap_singleton,
      h.length_imagePayload]

theorem imageNodeRecords_getElem {l : List (Fin 16)} {cursor : UInt32} {k : ℕ}
    (hk : k < (imageNodeRecords fs l cursor).length) (hl : k < l.length) :
    (imageNodeRecords fs l cursor)[k] = imageNodeRecord fs l[k]
      (cursor + ((l.take k).map fun i ↦ imageDataSize (fs.nodes i)).sum) := by
  induction l generalizing cursor k with
  | nil => simp at hl
  | cons i l ih =>
    cases k with
    | zero => simp [imageNodeRecords]
    | succ k =>
      have hk' : k < l.length := by simpa using hl
      simp only [imageNodeRecords, List.getElem_cons_succ, List.take_succ_cons, List.map_cons,
        List.sum_cons]
      rw [ih (by rw [length_imageNodeRecords]; exact hk') hk', add_assoc]

/-! ## Where the regions stand -/

/-- The record of the image with the given position. -/
def imageRecordOf (fs : RuntimeFs) (k : ℕ) (hk : k < (imageNodes fs).length) : ImageRecord :=
  imageNodeRecord fs (imageNodes fs)[k] (imageOffset fs k)

/-- The image of the file system stands at the front of memory. -/
structure Stored (fs : RuntimeFs) (m : ℕ → UInt8) : Prop where
  header : imageLoadHeader m = imageHeaderOf fs
  record : ∀ k, (hk : k < (imageNodes fs).length) → imageRecordAt m k = imageRecordOf fs k hk
  tree : ∀ k < (imageHeaderOf fs).treeHashCount.toNat,
    imageTreeAt m (imageHeaderOf fs) k = imageTreeOf fs k
  payload : ∀ k, (hk : k < (imageNodes fs).length) →
    bytesAt m (imageDataOffset (imageHeaderOf fs) + (imageOffset fs k).toNat)
      (imageDataSize (fs.nodes (imageNodes fs)[k])).toNat
        = imagePayload (fs.nodes (imageNodes fs)[k])

theorem Holds.stored (h : PayloadFits fs) (hm : Holds m 0 (imageOf fs)) : Stored fs m := by
  rw [imageOf, holds_append, holds_append, holds_append] at hm
  obtain ⟨hheader, hrecords, htree, hpayload⟩ := hm
  have hlenR := length_flatMap_encode (imageNodeRecords fs (imageNodes fs) 0)
  rw [length_imageNodeRecords] at hlenR
  have hlenT : ∀ n, ((List.range n).flatMap fun k ↦ le32 (imageTreeOf fs k)).length = 4 * n := by
    intro n
    simp [List.length_flatMap, mul_comm]
  have hcount : (imageHeaderOf fs).recordCount.toNat = (imageNodes fs).length :=
    toNat_imageRecordCount fs
  rw [ImageHeader.length_encode, Nat.zero_add] at hrecords htree hpayload
  rw [hlenR] at htree hpayload
  rw [hlenT] at hpayload
  refine ⟨hheader.imageLoadHeader_eq, fun k hk ↦ ?_, fun k hk ↦ ?_, fun k hk ↦ ?_⟩
  · have hk' : k < (imageNodeRecords fs (imageNodes fs) 0).length := by
      rwa [length_imageNodeRecords]
    rw [List.flatMap_def] at hrecords
    have hget := holds_flatten hrecords (i := k) (by rwa [List.length_map])
    rw [← List.map_take, ← List.flatMap_def, length_flatMap_encode, List.length_take,
      Nat.min_eq_left (by omega), List.getElem_map] at hget
    rw [imageRecordAt, hget.imageReadRecord_eq, imageNodeRecords_getElem hk' hk, zero_add]
    rfl
  · rw [List.flatMap_def] at htree
    have hget := holds_flatten htree (i := k) (by rwa [List.length_map, List.length_range])
    rw [← List.map_take, ← List.flatMap_def, List.take_range, Nat.min_eq_left (by omega), hlenT,
      List.getElem_map, List.getElem_range] at hget
    rw [imageTreeAt, imageTreeOffset, hcount]
    exact hget.load32_eq
  · rw [List.flatMap_def] at hpayload
    have hget := holds_flatten hpayload (i := k) (by rwa [List.length_map])
    rw [← List.map_take, ← List.flatMap_def, h.length_flatMap_payload (by omega),
      List.getElem_map, Holds, h.length_imagePayload] at hget
    rw [imageDataOffset, imageTreeOffset, hcount]
    exact hget

theorem Stored.toNat_nodeIndex (h : Stored fs m) {k : ℕ} (hk : k < (imageNodes fs).length) :
    (imageRecordAt m k).nodeIndex.toNat = (imageNodes fs)[k] := by
  rw [h.record k hk]
  change (UInt32.ofNat (imageNodes fs)[k]).toNat = _
  rw [UInt32.toNat_ofNat', fin_mod_word]

theorem imageHeaderOf_recordCount (fs : RuntimeFs) :
    (imageHeaderOf fs).recordCount.toNat = (imageNodes fs).length := toNat_imageRecordCount fs

/-! ## The mask -/

theorem shiftRight_and_one {x n : UInt32} (hn : n.toNat < 32) :
    x >>> n &&& 1 = 0 ↔ x.toNat.testBit n.toNat = false := by
  have h1 : (1 : UInt32).toNat = 1 := rfl
  rw [← UInt32.toNat_inj, UInt32.toNat_and, UInt32.toNat_shiftRight, Nat.mod_eq_of_lt hn, h1,
    UInt32.toNat_zero, Nat.testBit, Nat.and_comm]
  simp

theorem testBit_or_shiftLeft {x n : UInt32} (hn : n.toNat < 32) (b : ℕ) (hb : b < 32) :
    (x ||| (1 : UInt32) <<< n).toNat.testBit b = (x.toNat.testBit b || decide (n.toNat = b)) := by
  have h1 : (1 : UInt32).toNat = 1 := rfl
  rw [UInt32.toNat_or, UInt32.toNat_shiftLeft, Nat.mod_eq_of_lt hn, h1, Nat.one_shiftLeft,
    Nat.testBit_or, Nat.testBit_mod_two_pow, Nat.testBit_two_pow]
  simp [hb]

/-- The mask holds the node indices of the records so far. -/
theorem Stored.testBit_mask (h : Stored fs m) {k b : ℕ} (hk : k ≤ (imageNodes fs).length)
    (hb : b < 32) : (imagePresentMask m k).toNat.testBit b = true ↔
      ∃ i ∈ (imageNodes fs).take k, (i : ℕ) = b := by
  induction k with
  | zero => simp [imagePresentMask]
  | succ k ih =>
    have hindex := h.toNat_nodeIndex (k := k) (by omega)
    rw [imagePresentMask, testBit_or_shiftLeft (by omega) b hb, Bool.or_eq_true, ih (by omega),
      decide_eq_true_eq, hindex, List.take_succ_eq_append_getElem (by omega)]
    simp only [List.mem_append, List.mem_singleton, or_and_right, exists_or, exists_eq_left]

/-! ## The checks of the validator -/

theorem Sound.payloadFits (h : Sound fs) : PayloadFits fs := by
  intro i
  rw [imageDataSize]
  split
  · exact (h.nodes.node i).size_le
  · simp

/-- Cutting a terminated name to fifteen characters changes nothing. -/
theorem cstr_take_of_terminated {name : Fin 16 → UInt8} (h : ∃ k, name k = 0) :
    (cstr (List.ofFn name)).take 15 = cstr (List.ofFn name) := by
  obtain ⟨k, hk⟩ := h
  have hlt := cstr_length_lt (l := List.ofFn name) (hk ▸ List.mem_ofFn.mpr ⟨k, rfl⟩)
  rw [List.length_ofFn] at hlt
  exact List.take_of_length_le (by omega)

theorem Sound.cstr_imageRecordOf (h : Sound fs) {k : ℕ} (hk : k < (imageNodes fs).length) :
    cstr (List.ofFn (imageRecordOf fs k hk).name) = (fs.nodes (imageNodes fs)[k]).text := by
  have hu := mem_imageNodes.mp (List.getElem_mem hk)
  rw [imageRecordOf, imageNodeRecord, cstr_imageCopyName,
    cstr_take_of_terminated ((h.nodes.node _).terminated hu)]
  rfl

theorem Stored.expectedOffset_eq (h : Stored fs m) {k : ℕ} (hk : k ≤ (imageNodes fs).length) :
    imageExpectedOffset m k = imageOffset fs k := by
  induction k with
  | zero => simp [imageExpectedOffset, imageOffset]
  | succ k ih =>
    rw [imageExpectedOffset, ih (by omega), h.record k (by omega), imageOffset_succ (by omega)]
    rfl

theorem Stored.increasing (h : Stored fs m) : Increasing m (imageHeaderOf fs) := by
  intro i j hij hj
  rw [imageHeaderOf_recordCount] at hj
  rw [h.toNat_nodeIndex (by omega), h.toNat_nodeIndex hj]
  exact imageNodes_getElem_lt hij hj

/-- The name of the root goes into its record unchanged. -/
theorem RootIntact.imageCopyName_eq (h : RootIntact fs) :
    imageCopyName (fs.nodes 0).name 0 = slash ∧ imageCopyName (fs.nodes 0).name 1 = 0 := by
  have hne : (fs.nodes 0).name 0 ≠ 0 := by
    rw [h.name_zero]
    decide
  refine ⟨(imageCopyName_zero hne).trans h.name_zero, ?_⟩
  rw [imageCopyName]
  split
  · exact h.name_one
  · rfl

/-- The name of a record below the root is neither empty nor a single slash. -/
theorem Sound.record_name_ne (h : Sound fs) {k : ℕ} (hk : k < (imageNodes fs).length)
    (hne : (imageNodes fs)[k] ≠ 0) : (imageRecordOf fs k hk).name 0 ≠ 0 ∧
      ¬((imageRecordOf fs k hk).name 0 = slash ∧ (imageRecordOf fs k hk).name 1 = 0) := by
  have hu := mem_imageNodes.mp (List.getElem_mem hk)
  have hname := (h.nodes.node (imageNodes fs)[k]).name_ne hu
  have hcopy : (imageRecordOf fs k hk).name 0 = (fs.nodes (imageNodes fs)[k]).name 0 :=
    imageCopyName_zero hname
  rw [hcopy]
  refine ⟨hname, fun hslash ↦ h.nodes.text_slash _ hne hu ?_⟩
  rw [RuntimeFsNode.text, List.ofFn_succ, cstr_cons_of_ne hname, hslash.1]
  exact List.mem_cons_self

/-- The hash of a record does not depend on the field that stores it. -/
theorem imageObjectHash_imageNodeRecord (fs : RuntimeFs) (i : Fin 16) (cursor : UInt32) :
    imageObjectHash (imageNodeRecord fs i cursor) = (imageNodeRecord fs i cursor).objectHash := by
  simp only [imageNodeRecord, imageObjectHash]

/-- Every record of a stored image passes the first loop. -/
theorem Stored.recordOk (hs : Sound fs) (hroot : RootIntact fs) (h : Stored fs m) {k : ℕ}
    (hk : k < (imageNodes fs).length) : RecordOk m (imageHeaderOf fs) k := by
  have hu := mem_imageNodes.mp (List.getElem_mem hk)
  have hnode := hs.nodes.node (imageNodes fs)[k]
  have hindex := h.toNat_nodeIndex hk
  have hlt := (imageNodes fs)[k].isLt
  obtain ⟨hpos, hfirst⟩ := hroot.imageNodes_zero
  have hzero : k = 0 ↔ (imageNodes fs)[k] = 0 := by
    refine ⟨fun h0 ↦ by subst h0; exact hfirst, fun h0 ↦ ?_⟩
    by_contra hne
    have hlt' := imageNodes_getElem_lt (Nat.pos_of_ne_zero hne) hk
    rw [h0] at hlt'
    exact absurd hlt' (Fin.not_lt_zero _)
  have hfits := hs.payloadFits
  have hrec := h.record k hk
  refine ⟨by omega, ?_, fun h0 ↦ ?_, fun hk0 ↦ ?_, ?_, ?_, ?_, ?_, ?_, ?_, fun h0 ↦ ?_,
    fun h0 ↦ ?_, fun h0 ↦ ?_, fun hk0 ↦ ?_, ?_, ?_⟩
  · rw [shiftRight_and_one (by omega), ← Bool.not_eq_true, h.testBit_mask (by omega) (by omega)]
    rintro ⟨i, hmem, hi⟩
    obtain ⟨j, hj, rfl⟩ := List.mem_iff_getElem.mp hmem
    rw [List.length_take] at hj
    rw [List.getElem_take, hindex] at hi
    have hjk : j < k := by omega
    exact absurd (Fin.ext hi) (imageNodes_getElem_lt hjk hk).ne
  · exact UInt32.toNat_inj.mp (hindex.trans (congrArg Fin.val (hzero.mp h0)))
  · exact h.increasing (k - 1) k (by omega) (by rwa [imageHeaderOf_recordCount])
  · rw [hrec]
    exact hnode.kind hu
  · rw [hrec]
    intro hdir
    refine if_neg fun hreg ↦ absurd (hreg.symm.trans hdir) (by decide)
  · rw [hrec]
    exact fun hreg ↦ if_pos hreg
  · rw [hrec]
    exact hnode.size_le
  · rw [hrec, h.expectedOffset_eq (by omega)]
    rfl
  · rw [hrec]
    change (imageOffset fs k + imageDataSize (fs.nodes (imageNodes fs)[k])).toNat
      ≤ (imageDataBytes fs).toNat
    rw [← imageOffset_succ hk, ← imageOffset_length]
    exact hfits.imageOffset_mono hk le_rfl
  · rw [hrec, imageRecordOf, hzero.mp h0]
    exact hroot.parentIndex
  · rw [hrec, imageRecordOf, hzero.mp h0]
    exact hroot.type
  · rw [hrec, imageRecordOf, hzero.mp h0]
    exact hroot.imageCopyName_eq
  · rw [hrec]
    exact hs.record_name_ne hk fun hz ↦ hk0 (hzero.mpr hz)
  · rw [hrec]
    exact congrArg imageHashBytes (h.payload k hk)
  · rw [hrec]
    exact imageObjectHash_imageNodeRecord fs _ _

theorem Stored.find_used (h : Stored fs m) {i : Fin 16} (hu : (fs.nodes i).used ≠ 0) :
    ∃ record, ((imageFindRecord (imageRecords m (imageHeaderOf fs)) (UInt32.ofNat i)).bind
        fun k ↦ (imageRecords m (imageHeaderOf fs))[k]?) = some record ∧
      record.type = (fs.nodes i).type ∧ record.parentIndex = (fs.nodes i).parentIndex := by
  obtain ⟨k, hk, rfl⟩ := List.mem_iff_getElem.mp (mem_imageNodes.mpr hu)
  refine ⟨imageRecordAt m k, h.increasing.find_eq_some.mpr
    ⟨k, by rwa [imageHeaderOf_recordCount], ?_, rfl⟩, ?_, ?_⟩
  · rw [h.record k hk]
    rfl
  · rw [h.record k hk]
    rfl
  · rw [h.record k hk]
    rfl

theorem Stored.chain_eq (hsane : Sane fs) (h : Stored fs m) {i : Fin 16}
    (hi : Rooted (fun j ↦ (fs.nodes j).parent) 0 i) (hu : (fs.nodes i).used ≠ 0) :
    imageChainStatus (imageRecords m (imageHeaderOf fs)) 16 (UInt32.ofNat i) = Status.ok := by
  have hwalk := hi.walk
    (P := fun left j ↦ (fs.nodes j).used ≠ 0 →
      imageChainStatus (imageRecords m (imageHeaderOf fs)) left (UInt32.ofNat j) = Status.ok)
    (fun left _ ↦ by rw [imageChainStatus.eq_def, if_pos (ofNat_fin_eq_zero.mpr rfl)]) ?_
  · exact hwalk hu
  · intro left j hj ih hused
    have hnode := hsane.nodes j hj hused
    obtain ⟨record, hfind, -, hpar⟩ := h.find_used hused
    rw [imageChainStatus_found (fun hz ↦ hj (ofNat_fin_eq_zero.mp hz)) hfind, hpar,
      hnode.parentIndex_eq]
    exact ih hnode.parent_used

/-- Every record of a stored image passes the second loop. -/
theorem Stored.parentOk (hs : Sound fs) (hroot : RootIntact fs) (h : Stored fs m) {k : ℕ}
    (hk : k < (imageNodes fs).length) : ParentOk m (imageHeaderOf fs) k := by
  have hsane := hs.sane hroot
  have hu := mem_imageNodes.mp (List.getElem_mem hk)
  have hindex : (imageRecordAt m k).nodeIndex = UInt32.ofNat (imageNodes fs)[k] := by
    rw [h.record k hk]
    rfl
  have hparent : (imageRecordAt m k).parentIndex = (fs.nodes (imageNodes fs)[k]).parentIndex := by
    rw [h.record k hk]
    rfl
  have hzero : (imageRecordAt m k).nodeIndex = 0 ↔ (imageNodes fs)[k] = 0 := by
    rw [hindex]
    exact ofNat_fin_eq_zero
  refine ⟨fun hne ↦ ?_, fun h0 ↦ ?_, fun hne ↦ ?_, ?_⟩
  · have hnode := hsane.nodes _ (fun h0 ↦ hne (hzero.mpr h0)) hu
    have hlt := hnode.parent_lt
    rw [hparent, ne_eq, shiftRight_and_one (by omega), ← Bool.not_eq_true, not_not,
      imageHeaderOf_recordCount, h.testBit_mask le_rfl (by omega), List.take_length]
    exact ⟨_, mem_imageNodes.mpr hnode.parent_used, hnode.val_parent⟩
  · obtain ⟨hpos, hfirst⟩ := hroot.imageNodes_zero
    rw [hparent, hzero.mp h0, hroot.parentIndex, h.increasing.imageFindRecord_eq_some,
      imageHeaderOf_recordCount]
    refine ⟨hpos, UInt32.toNat_inj.mp ?_⟩
    rw [h.toNat_nodeIndex hpos, hfirst]
    rfl
  · have hnode := hsane.nodes _ (fun h0 ↦ hne (hzero.mpr h0)) hu
    obtain ⟨record, hfind, htype, -⟩ := h.find_used hnode.parent_used
    rw [hparent, hnode.parentIndex_eq]
    exact ⟨record, hfind, htype.trans hnode.parent_dir⟩
  · rw [hindex]
    exact h.chain_eq hsane (hs.nodes.rooted _) hu

theorem cstr_eq_of_imageNameEqualsBounded {l l' : List UInt8}
    (h : imageNameEqualsBounded l l' = true) : cstr l = cstr l' := by
  induction l generalizing l' with
  | nil => simp [imageNameEqualsBounded] at h
  | cons a l ih =>
    cases l' with
    | nil => simp [imageNameEqualsBounded] at h
    | cons b l' =>
      rw [imageNameEqualsBounded] at h
      split at h
      · next hne =>
        split at h
        · cases h
        · next heq =>
          rw [cstr_cons_of_ne hne.1, cstr_cons_of_ne hne.2, ih h, not_not.mp heq]
      · obtain ⟨hb, ha⟩ : b = 0 ∧ a = 0 := by simpa using h
        rw [ha, hb, cstr_cons_zero, cstr_cons_zero]

theorem Stored.text_ne (hs : Sound fs) (h : Stored fs m) {j k : ℕ} (hjk : j < k)
    (hk : k < (imageNodes fs).length)
    (hpar : (imageRecordAt m j).parentIndex = (imageRecordAt m k).parentIndex) :
    cstr (List.ofFn (imageRecordAt m j).name) ≠ cstr (List.ofFn (imageRecordAt m k).name) := by
  have hj : j < (imageNodes fs).length := by omega
  rw [h.record j hj, h.record k hk] at hpar ⊢
  rw [hs.cstr_imageRecordOf hj, hs.cstr_imageRecordOf hk]
  intro htext
  have hparent : (fs.nodes (imageNodes fs)[j]).parent = (fs.nodes (imageNodes fs)[k]).parent :=
    congrArg (fun x : UInt32 ↦ Fin.ofNat 16 x.toNat) hpar
  have heq := hs.nodes.siblings _ _ (mem_imageNodes.mp (List.getElem_mem hj))
    (mem_imageNodes.mp (List.getElem_mem hk)) hparent htext
  exact absurd heq (imageNodes_getElem_lt hjk hk).ne

theorem RootIntact.recordCount_ne (h : RootIntact fs) : imageRecordCount fs ≠ 0 := by
  intro h0
  obtain ⟨hpos, -⟩ := h.imageNodes_zero
  have hcount := toNat_imageRecordCount fs
  rw [h0, UInt32.toNat_zero] at hcount
  omega

theorem Stored.treeOk (hroot : RootIntact fs) (h : Stored fs m) : TreeOk m (imageHeaderOf fs) := by
  have hhash := toNat_treeHashCount_imageHeaderOf hroot.recordCount_ne
  have hleaf : (imageHeaderOf fs).treeLeafCount = imageNextPow2 (imageRecordCount fs) := rfl
  obtain ⟨hpos, -⟩ := hroot.imageNodes_zero
  have hcount := toNat_imageRecordCount fs
  have hlen := length_imageNodes_le fs
  obtain ⟨hge, -, -⟩ := imageNextPow2_spec hroot.recordCount_ne (by omega)
  obtain ⟨hinner, hkeep⟩ := imageTreeInner_spec
    (imageTreeLeaves ((imageNextPow2 (imageRecordCount fs)).toNat - 1)
      (imageNextPow2 (imageRecordCount fs)).toNat
      ((imageNodeRecords fs (imageNodes fs) 0).map ImageRecord.objectHash))
    ((imageNextPow2 (imageRecordCount fs)).toNat - 1)
  rw [← hleaf] at hhash hinner hkeep hge
  refine ⟨fun k hk ↦ ?_, fun p hp ↦ ?_, h.tree 0 (by omega)⟩
  · have hsub : (imageHeaderOf fs).treeHashCount.toNat - (imageHeaderOf fs).treeLeafCount.toNat
        = (imageHeaderOf fs).treeLeafCount.toNat - 1 := by omega
    rw [h.tree _ (by omega), hsub]
    refine (hkeep _ (by omega)).trans ?_
    rw [imageTreeLeaves, if_pos (by omega), Nat.add_sub_cancel_left, imageHeaderOf_recordCount,
      List.getD_eq_getElem?_getD, List.getElem?_map]
    by_cases hlt : k < (imageNodes fs).length
    · have hlt' : k < (imageNodeRecords fs (imageNodes fs) 0).length := by
        rwa [length_imageNodeRecords]
      rw [if_pos hlt, List.getElem?_eq_getElem hlt', imageNodeRecords_getElem hlt' hlt, zero_add,
        h.record k hlt]
      rfl
    · rw [if_neg hlt, List.getElem?_eq_none (by rw [length_imageNodeRecords]; omega)]
      rfl
  · rw [h.tree p (by omega), h.tree _ (by omega), h.tree _ (by omega)]
    exact hinner p (by omega)

/-- The number of bytes in the header, in exact arithmetic. -/
theorem PayloadFits.toNat_imageBytes (h : PayloadFits fs) (hcount : imageRecordCount fs ≠ 0) :
    (imageHeaderOf fs).imageBytes.toNat = 40 + 56 * (imageNodes fs).length
      + 4 * (imageHeaderOf fs).treeHashCount.toNat + (imageDataBytes fs).toNat := by
  have hrecords := toNat_imageRecordCount fs
  have hlen := length_imageNodes_le fs
  have hhash := toNat_treeHashCount_imageHeaderOf hcount
  obtain ⟨-, hmax, -⟩ := imageNextPow2_spec hcount (by omega)
  have hdata := h.imageOffset_le le_rfl
  rw [imageOffset_length] at hdata
  have h₁ : imageHeaderBytes.toNat = 40 := rfl
  have h₂ : imageRecordBytes.toNat = 56 := rfl
  have h₃ : (4 : UInt32).toNat = 4 := rfl
  have htotal : (imageHeaderOf fs).imageBytes = imageHeaderBytes + imageRecordCount fs *
      imageRecordBytes + (imageHeaderOf fs).treeHashCount * 4 + imageDataBytes fs := rfl
  rw [htotal]
  simp only [UInt32.toNat_add, UInt32.toNat_mul, h₁, h₂, h₃]
  omega

theorem length_imageOf (h : PayloadFits fs) (hcount : imageRecordCount fs ≠ 0) :
    (imageOf fs).length = (imageHeaderOf fs).imageBytes.toNat := by
  have hpay := h.length_flatMap_payload le_rfl
  rw [List.take_length, imageOffset_length] at hpay
  rw [h.toNat_imageBytes hcount, imageOf, List.length_append, List.length_append,
    List.length_append, ImageHeader.length_encode, length_flatMap_encode, length_imageNodeRecords,
    hpay]
  simp only [List.length_flatMap, length_le32, List.map_const', List.length_range,
    List.sum_replicate_nat]
  omega

theorem PayloadFits.headerOk (h : PayloadFits fs) (hcount : imageRecordCount fs ≠ 0) :
    HeaderOk (imageHeaderOf fs) (imageHeaderOf fs).imageBytes := by
  have hrecords := toNat_imageRecordCount fs
  have hlen := length_imageNodes_le fs
  have hpos : (imageRecordCount fs).toNat ≠ 0 := fun h0 ↦ hcount (UInt32.toNat_inj.mp h0)
  obtain ⟨hge, hmax, hpow⟩ := imageNextPow2_spec hcount (by omega)
  refine ⟨?_, rfl, rfl, rfl, rfl, hcount, by rw [← hrecords] at hlen; exact hlen, fun h0 ↦ ?_, hmax,
    rfl, hge, hpow, rfl, rfl⟩
  · rw [h.toNat_imageBytes hcount]
    omega
  · have hzero : (imageNextPow2 (imageRecordCount fs)).toNat = 0 := congrArg UInt32.toNat h0
    omega

/-- **The validator accepts every stored image.** -/
theorem Stored.accepted (hs : Sound fs) (hroot : RootIntact fs) (h : Stored fs m) :
    Accepted m (imageHeaderOf fs).imageBytes (imageHeaderOf fs) := by
  refine ⟨h.header.symm, hs.payloadFits.headerOk hroot.recordCount_ne,
    fun k hk ↦ ?_, ?_, fun k hk ↦ ?_, fun j k hjk hk hpar ↦ ?_, h.treeOk hroot⟩
  · exact h.recordOk hs hroot (by rwa [imageHeaderOf_recordCount] at hk)
  · rw [imageHeaderOf_recordCount, h.expectedOffset_eq le_rfl, imageOffset_length]
    rfl
  · exact h.parentOk hs hroot (by rwa [imageHeaderOf_recordCount] at hk)
  · rw [imageHeaderOf_recordCount] at hk
    rw [← Bool.not_eq_true]
    exact fun heq ↦ h.text_ne hs hjk hk hpar (cstr_eq_of_imageNameEqualsBounded heq)

/-! ## What the import gives back -/

/-- Two file systems agree on everything an image keeps. -/
structure SameTree (fs fs' : RuntimeFs) : Prop where
  used : ∀ i, (fs'.nodes i).used = (fs.nodes i).used
  type : ∀ i, (fs.nodes i).used ≠ 0 → (fs'.nodes i).type = (fs.nodes i).type
  parent : ∀ i, (fs.nodes i).used ≠ 0 → (fs'.nodes i).parentIndex = (fs.nodes i).parentIndex
  owner : ∀ i, (fs.nodes i).used ≠ 0 → (fs'.nodes i).ownerPid = (fs.nodes i).ownerPid
  mode : ∀ i, (fs.nodes i).used ≠ 0 → (fs'.nodes i).mode = (fs.nodes i).mode
  size : ∀ i, (fs.nodes i).used ≠ 0 → (fs'.nodes i).sizeBytes = (fs.nodes i).sizeBytes
  text : ∀ i, (fs.nodes i).used ≠ 0 → (fs'.nodes i).text = (fs.nodes i).text
  data : ∀ i, (fs.nodes i).used ≠ 0 → (fs'.nodes i).data = (fs.nodes i).data

theorem NodeOk.imageDataSize_eq {node : RuntimeFsNode} (h : NodeOk node) (hu : node.used ≠ 0) :
    imageDataSize node = node.sizeBytes := by
  rw [imageDataSize]
  split
  · rfl
  · next hreg => exact (h.dir_size ((h.kind hu).resolve_right hreg)).symm

theorem Stored.imageNodeAt_eq (h : Stored fs m) {k : ℕ} (hk : k < (imageNodes fs).length) :
    imageNodeAt m k = (imageNodes fs)[k] := by
  rw [imageNodeAt, h.toNat_nodeIndex hk]
  exact Fin.ofNat_val_eq_self _

/-- The payload in memory and the zeros around it are the data of the node. -/
theorem Stored.loadNode_data (hs : Sound fs) (h : Stored fs m) {k : ℕ}
    (hk : k < (imageNodes fs).length) (i : Fin 16) :
    (imageLoadNode m (imageDataOffset (imageHeaderOf fs)) (imageRecordOf fs k hk)
      (imageWiped.nodes i)).data = (fs.nodes (imageNodes fs)[k]).data := by
  have hnode := hs.nodes.node (imageNodes fs)[k]
  have hsize := hnode.imageDataSize_eq (mem_imageNodes.mp (List.getElem_mem hk))
  have hfields : (imageRecordOf fs k hk).dataSize = imageDataSize (fs.nodes (imageNodes fs)[k]) ∧
      (imageRecordOf fs k hk).dataOffset = imageOffset fs k := ⟨rfl, rfl⟩
  funext b
  rw [imageLoadNode, hfields.1, hfields.2]
  by_cases hb : (b : ℕ) < (imageDataSize (fs.nodes (imageNodes fs)[k])).toNat
  · simp only [hb, if_true]
    have hget := congrArg (fun l ↦ l[(b : ℕ)]?) (h.payload k hk)
    simp only [getElem?_bytesAt, hb, if_true, imagePayload, List.getElem?_take, List.getElem?_ofFn,
      b.isLt, dif_pos] at hget
    exact Option.some.inj hget
  · simp only [hb, if_false]
    rw [hsize] at hb
    exact (hnode.tail_zero b (by omega)).symm

/-- A part of the node that the loading of every record restores is as it was exported. -/
theorem Stored.restores {fs' : RuntimeFs} (h : Stored fs m)
    (himp : Imported m (imageHeaderOf fs) (imageNodes fs).length fs') {β : Type}
    (part : RuntimeFsNode → β)
    (hload : ∀ k, ∀ hk : k < (imageNodes fs).length, ∀ i,
      part (imageLoadNode m (imageDataOffset (imageHeaderOf fs)) (imageRecordOf fs k hk)
        (imageWiped.nodes i)) = part (fs.nodes (imageNodes fs)[k])) {i : Fin 16}
    (hu : (fs.nodes i).used ≠ 0) : part (fs'.nodes i) = part (fs.nodes i) := by
  obtain ⟨k, hk, rfl⟩ := List.mem_iff_getElem.mp (mem_imageNodes.mpr hu)
  have hnode := himp.loaded k hk
  rw [h.imageNodeAt_eq hk, h.record k hk] at hnode
  rw [hnode]
  exact hload k hk _

/-- **The import gives back what was exported.** -/
theorem Stored.sameTree {fs' : RuntimeFs} (hs : Sound fs) (h : Stored fs m)
    (himp : Imported m (imageHeaderOf fs) (imageHeaderOf fs).recordCount.toNat fs') :
    SameTree fs fs' := by
  rw [imageHeaderOf_recordCount] at himp
  have hmem : ∀ {k} (hk : k < (imageNodes fs).length), (fs.nodes (imageNodes fs)[k]).used ≠ 0 :=
    fun hk ↦ mem_imageNodes.mp (List.getElem_mem hk)
  refine
    { used := fun i ↦ ?_
      type := fun _ ↦ h.restores himp (·.type) fun _ _ _ ↦ rfl
      parent := fun _ ↦ h.restores himp (·.parentIndex) fun _ _ _ ↦ rfl
      owner := fun _ ↦ h.restores himp (·.ownerPid) fun _ _ _ ↦ rfl
      mode := fun _ ↦ h.restores himp (·.mode) fun _ _ _ ↦ rfl
      size := fun _ ↦ h.restores himp (·.sizeBytes) fun _ _ _ ↦ rfl
      text := fun _ ↦ h.restores himp (·.text) fun k hk i ↦ ?_
      data := fun _ ↦ h.restores himp (·.data) fun _ hk i ↦ h.loadNode_data hs hk i }
  · by_cases hu : (fs.nodes i).used = 0
    · rw [himp.cleared i fun k hk hki ↦ ?_, hu]
      · rfl
      · rw [h.imageNodeAt_eq hk] at hki
        exact hmem hk (hki ▸ hu)
    · refine h.restores himp (·.used) (fun k hk i ↦ ?_) hu
      exact ((hs.nodes.node _).flag.resolve_left (hmem hk)).symm
  · rw [RuntimeFsNode.text, imageLoadNode, cstr_imageCopyName, hs.cstr_imageRecordOf hk]
    exact cstr_take_of_terminated ((hs.nodes.node _).terminated (hmem hk))

theorem Stored.not_namesClash (hs : Sound fs) (h : Stored fs m) :
    ¬NamesClash m (imageHeaderOf fs) := by
  rintro ⟨j, k, -, hjk, hk, hpar, htext⟩
  rw [imageHeaderOf_recordCount] at hk
  refine h.text_ne hs hjk hk hpar ?_
  have hcut : ∀ n, (hn : n < (imageNodes fs).length) →
      (cstr (List.ofFn (imageRecordAt m n).name)).take 15
        = cstr (List.ofFn (imageRecordAt m n).name) := by
    intro n hn
    rw [h.record n hn, hs.cstr_imageRecordOf hn]
    exact cstr_take_of_terminated
      ((hs.nodes.node _).terminated (mem_imageNodes.mp (List.getElem_mem hn)))
  rwa [hcut j (by omega), hcut k hk] at htext

/-! ## The second export -/

section SameTree

variable {fs' : RuntimeFs}

theorem SameTree.imageNodes_eq (h : SameTree fs fs') : imageNodes fs' = imageNodes fs := by
  simp only [imageNodes, h.used]

theorem SameTree.imageDataSize_eq (h : SameTree fs fs') {i : Fin 16}
    (hu : (fs.nodes i).used ≠ 0) : imageDataSize (fs'.nodes i) = imageDataSize (fs.nodes i) := by
  rw [imageDataSize, imageDataSize, h.type i hu, h.size i hu]

theorem imageCopyName_congr {a b : Fin 16 → UInt8} (h : cstr (List.ofFn a) = cstr (List.ofFn b)) :
    imageCopyName a = imageCopyName b := by
  rw [imageCopyName_eq, imageCopyName_eq]
  funext i
  rw [copyName, copyName, h]

theorem SameTree.imageNodeRecord_eq (h : SameTree fs fs') {i : Fin 16}
    (hu : (fs.nodes i).used ≠ 0) (cursor : UInt32) :
    imageNodeRecord fs' i cursor = imageNodeRecord fs i cursor := by
  have hname : imageCopyName (fs'.nodes i).name = imageCopyName (fs.nodes i).name :=
    imageCopyName_congr (h.text i hu)
  simp only [imageNodeRecord, h.imageDataSize_eq hu, h.type i hu, h.parent i hu, h.owner i hu,
    h.mode i hu, h.size i hu, h.data i hu, hname]

theorem SameTree.imageNodeRecords_eq (h : SameTree fs fs') {l : List (Fin 16)}
    (hl : ∀ i ∈ l, (fs.nodes i).used ≠ 0) (cursor : UInt32) :
    imageNodeRecords fs' l cursor = imageNodeRecords fs l cursor := by
  induction l generalizing cursor with
  | nil => rfl
  | cons i l ih =>
    have hu := hl i List.mem_cons_self
    rw [imageNodeRecords, imageNodeRecords, h.imageNodeRecord_eq hu, h.imageDataSize_eq hu,
      ih fun j hj ↦ hl j (List.mem_cons_of_mem _ hj)]

/-- **Equal trees have equal images.** -/
theorem SameTree.imageOf_eq (h : SameTree fs fs') :
    imageHeaderOf fs' = imageHeaderOf fs ∧ imageOf fs' = imageOf fs := by
  have hused : ∀ i ∈ imageNodes fs, (fs.nodes i).used ≠ 0 := fun i hi ↦ mem_imageNodes.mp hi
  have hcount : imageRecordCount fs' = imageRecordCount fs := by
    rw [imageRecordCount, imageRecordCount, h.imageNodes_eq]
  have hdata : imageDataBytes fs' = imageDataBytes fs := by
    rw [imageDataBytes, imageDataBytes, h.imageNodes_eq,
      List.map_congr_left fun i hi ↦ h.imageDataSize_eq (hused i hi)]
  have hrecords := h.imageNodeRecords_eq hused 0
  have htree : imageTreeOf fs' = imageTreeOf fs := by
    rw [imageTreeOf, imageTreeOf, hcount, h.imageNodes_eq, hrecords]
  have hheader : imageHeaderOf fs' = imageHeaderOf fs := by
    rw [imageHeaderOf, imageHeaderOf, hcount, hdata, htree]
  have hpayload : ((imageNodes fs).flatMap fun i ↦ imagePayload (fs'.nodes i))
      = (imageNodes fs).flatMap fun i ↦ imagePayload (fs.nodes i) := by
    refine List.flatMap_congr fun i hi ↦ ?_
    rw [imagePayload, imagePayload, h.imageDataSize_eq (hused i hi), h.data i (hused i hi)]
  refine ⟨hheader, ?_⟩
  rw [imageOf, imageOf, hheader, h.imageNodes_eq, hrecords, htree, hpayload]

end SameTree

/-! ## Round trip and tampering -/

theorem imageHasOpenFiles_eq_false : imageHasOpenFiles fs = false ↔
    ∀ s, (fs.openFiles s).used = 0 := by
  simp [imageHasOpenFiles]

theorem imageRequiredBytes_eq (hvalid : runtimeFsValidate fs = .ok Status.ok)
    (hcount : imageRecordCount fs ≠ 0) :
    imageRequiredBytes fs = .ok (imageHeaderOf fs).imageBytes := by
  unfold imageRequiredBytes
  rw [hvalid, ok_bind, if_neg (not_not.mpr rfl), if_neg hcount]
  rfl

/-- **The round trip.** A valid file system without open files is exported into every buffer that
has the required number of bytes; the validator accepts what was written; an import into any file
system gives back the same tree, and that exports to the same bytes. -/
theorem image_roundTrip (hreach : FsReachable fs) (hvalid : runtimeFsValidate fs = .ok Status.ok)
    (hclosed : ∀ s, (fs.openFiles s).used = 0) :
    ∃ (required : UInt32) (image : List UInt8), imageRequiredBytes fs = .ok required ∧
      image.length = required.toNat ∧
      ∀ (bytes : ℕ → UInt8) (capacity written : UInt32) (layout : Option ImageLayout),
        required ≤ capacity →
        (∃ layout', imageExport fs (some bytes) capacity (some written) layout
          = .ok (Status.ok, some (writeBytes bytes 0 image), some required, layout')) ∧
        (imageValidate (some (writeBytes bytes 0 image)) required layout).1 = Status.ok ∧
        ∀ prior, ∃ fs' layout', imageImport prior (some (writeBytes bytes 0 image)) required layout
            = .ok (Status.ok, fs', layout') ∧
          (∀ s, (fs'.openFiles s).used = 0) ∧ SameTree fs fs' ∧
          imageRequiredBytes fs' = .ok required ∧
          ∀ (bytes' : ℕ → UInt8) (capacity' written' : UInt32) (layout₁ : Option ImageLayout),
            required ≤ capacity' → ∃ layout₂,
              imageExport fs' (some bytes') capacity' (some written') layout₁
                = .ok (Status.ok, some (writeBytes bytes' 0 image), some required, layout₂) := by
  have hs := hreach.sound
  have hroot := rootIntact_of_validate hvalid
  have hfits := hs.payloadFits
  have hcount := hroot.recordCount_ne
  refine ⟨(imageHeaderOf fs).imageBytes, imageOf fs, imageRequiredBytes_eq hvalid hcount,
    length_imageOf hfits hcount, fun bytes capacity written layout hcap ↦ ?_⟩
  have hstored : Stored fs (writeBytes bytes 0 (imageOf fs)) :=
    Holds.stored hfits (holds_writeBytes bytes 0 _)
  have haccept := hstored.accepted hs hroot
  refine ⟨⟨_, imageExport_eq hfits hvalid (imageHasOpenFiles_eq_false.mpr hclosed) hcount bytes hcap
    written layout⟩, imageValidate_eq_ok.mpr ⟨_, haccept⟩, fun prior ↦ ?_⟩
  obtain ⟨fs', _, layout', himp, hvalid', hrun, ⟨hclash, -⟩ | ⟨-, rfl⟩⟩ :=
    imageImport_accepted haccept prior layout
  · exact absurd hclash (hstored.not_namesClash hs)
  have hsame := hstored.sameTree hs himp
  have hclosed' : ∀ s, (fs'.openFiles s).used = 0 := fun s ↦ by
    rw [himp.slots]
    rfl
  obtain ⟨hheader, himage⟩ := hsame.imageOf_eq
  have hcount' : imageRecordCount fs' ≠ 0 := (rootIntact_of_validate hvalid').recordCount_ne
  -- the payload of the imported nodes fits, since it is the payload of the exported ones
  have hfits' : PayloadFits fs' := by
    intro i
    by_cases hu : (fs.nodes i).used = 0
    · rw [imageDataSize, if_neg]
      · simp
      · rw [himp.cleared i fun k hk hki ↦ himp.used hk (by rw [hki, hsame.used, hu])]
        exact (by decide : fileTypeUnknown ≠ fileTypeRegular)
    · rw [hsame.imageDataSize_eq hu]
      exact hfits i
  refine ⟨fs', layout', hrun, hclosed', hsame, ?_, fun bytes' capacity' written' layout₁ hcap' ↦ ?_⟩
  · rw [imageRequiredBytes_eq hvalid' hcount', hheader]
  · rw [← hheader] at hcap'
    have hexport := imageExport_eq hfits' hvalid' (imageHasOpenFiles_eq_false.mpr hclosed') hcount'
      bytes' hcap' written' layout₁
    rw [himage, hheader] at hexport
    exact ⟨_, hexport⟩

/-- The round trip of the file system after `mkdir("/a")`. -/
theorem image_roundTrip_mkdir : ∃ fs, FsReachable fs ∧ (fs.nodes 1).used = 1 ∧
    ∃ required image, imageRequiredBytes fs = .ok required ∧ image.length = required.toNat ∧
      ∀ (bytes : ℕ → UInt8) (prior : RuntimeFs), ∃ fs' layout',
        imageImport prior (some (writeBytes bytes 0 image)) required none
          = .ok (Status.ok, fs', layout') ∧ SameTree fs fs' := by
  have hcall : ((FsCall.mkdir 7 (some pathA) 493).run runtimeFsInit).map
      (fun r ↦ ((r.2.nodes 1).used, runtimeFsValidate r.2,
        decide (∀ s, (r.2.openFiles s).used = 0))) = .ok (1, .ok Status.ok, true) := by
    decide +kernel
  obtain ⟨r, hrun, hres⟩ := map_eq_ok.mp hcall
  simp only [Prod.mk.injEq, decide_eq_true_eq] at hres
  have hreach : FsReachable r.2 :=
    .step (.start rfl) ⟨.mkdir 7 (some pathA) 493, r.1, trivial, hrun⟩
  obtain ⟨required, image, hreq, hlen, hall⟩ := image_roundTrip hreach hres.2.1 hres.2.2
  refine ⟨r.2, hreach, hres.1, required, image, hreq, hlen, fun bytes prior ↦ ?_⟩
  obtain ⟨fs', layout', himport, -, hsame, -⟩ :=
    (hall bytes required 0 none (UInt32.le_refl _)).2.2 prior
  exact ⟨fs', layout', himport, hsame⟩

/-- What a successful export says about the file system and the buffer. -/
theorem imageExport_eq_ok (hs : Sound fs) {buffer : Option (ℕ → UInt8)} {capacity : UInt32}
    {written : Option UInt32} {layout layout' : Option ImageLayout} {bytes' : ℕ → UInt8}
    {n : UInt32} (h : imageExport fs buffer capacity written layout
      = .ok (Status.ok, some bytes', some n, layout')) :
    RootIntact fs ∧ n = (imageHeaderOf fs).imageBytes ∧ Stored fs bytes' := by
  have hne : ∀ {status : Int} {b : Option (ℕ → UInt8)} {w : Option UInt32} {l : Option ImageLayout},
      status ≠ Status.ok → (.ok (status, b, w, l) : Except Fault _)
        ≠ .ok (Status.ok, some bytes', some n, layout') := by
    intro status b w l hstatus heq
    exact hstatus (congrArg Prod.fst (Except.ok.inj heq))
  cases buffer with
  | none => exact absurd h (hne (by decide))
  | some bytes =>
    cases written with
    | none => exact absurd h (hne (by decide))
    | some w =>
      have h' := h
      unfold imageExport at h'
      dsimp only at h'
      obtain ⟨status, hvalid, h'⟩ := bind_eq_ok.mp h'
      split at h'
      · exact absurd h' (hne (by decide))
      next hstatus =>
      rw [not_not.mp hstatus] at hvalid
      split at h'
      · exact absurd h' (hne (by decide))
      next hclosed =>
      split at h'
      · exact absurd h' (hne (by decide))
      next hcount =>
      split at h'
      · exact absurd h' (hne (by decide))
      next hcap =>
      have hexport := imageExport_eq hs.payloadFits hvalid (Bool.not_eq_true _ ▸ hclosed) hcount
        bytes (UInt32.not_lt.mp hcap) w layout
      obtain ⟨-, hbytes, hn, -⟩ : _ ∧ some (writeBytes bytes 0 (imageOf fs)) = some bytes' ∧
          some (imageHeaderOf fs).imageBytes = some n ∧ _ := by
        simpa only [Except.ok.injEq, Prod.mk.injEq] using hexport.symm.trans h
      obtain rfl := Option.some.inj hbytes
      exact ⟨rootIntact_of_validate hvalid, (Option.some.inj hn).symm,
        Holds.stored hs.payloadFits (holds_writeBytes bytes 0 _)⟩

/-- **Tampering is detected.** An exported image with one byte replaced by another value is not
accepted. -/
theorem tampered_image_rejected (hreach : ApiReachable fs) {buffer : Option (ℕ → UInt8)}
    {capacity : UInt32} {written : Option UInt32} {layout layout' : Option ImageLayout}
    {bytes' : ℕ → UInt8} {n : UInt32}
    (hexport : imageExport fs buffer capacity written layout
      = .ok (Status.ok, some bytes', some n, layout')) {i : ℕ} (hi : i < n.toNat) {b : UInt8}
    (hb : b ≠ bytes' i) (layout₁ : Option ImageLayout) :
    (imageValidate (some (Function.update bytes' i b)) n layout₁).1 ≠ Status.ok := by
  obtain ⟨hroot, rfl, hstored⟩ := imageExport_eq_ok hreach.sound hexport
  intro haccept
  obtain ⟨header, htampered⟩ := imageValidate_eq_ok.mp haccept
  exact (hstored.accepted hreach.sound hroot).not_accepted_update hi hb header htampered

/-- The image of the initial file system with its first byte cleared. -/
theorem tampered_image_rejected_init : ∃ bytes' layout',
    imageExport runtimeFsInit (some fun _ ↦ 0) 512 (some 0) none
        = .ok (Status.ok, some bytes', some 100, layout') ∧ bytes' 0 = 84 ∧
      (imageValidate (some (Function.update bytes' 0 0)) 100 none).1 ≠ Status.ok := by
  have hrun : (imageExport runtimeFsInit (some fun _ ↦ 0) 512 (some 0) none).map
      (fun r ↦ (r.1, r.2.1.map (· 0), r.2.2.1)) = .ok (Status.ok, some 84, some 100) := by
    decide +kernel
  obtain ⟨⟨status, buffer, written, layout'⟩, hexport, hres⟩ := map_eq_ok.mp hrun
  simp only [Prod.mk.injEq, Option.map_eq_some_iff] at hres
  obtain ⟨rfl, ⟨bytes', rfl, hfirst⟩, rfl⟩ := hres
  refine ⟨bytes', layout', hexport, hfirst, ?_⟩
  exact tampered_image_rejected (.start rfl) hexport (by decide) (by rw [hfirst]; decide) none

end TensorOS
