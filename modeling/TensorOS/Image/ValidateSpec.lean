import TensorOS.Image.Format

/-!
# What an accepted image satisfies

`imageBodyStatus` answers OK exactly when every one of its checks passes. This module turns the
sequence of checks into the structures `HeaderOk`, `RecordOk`, `ParentOk` and `TreeOk`, in both
directions, and derives what the loops were for: node indices increase along the records, so a
record is found by its index, and the mask holds exactly the indices seen so far.
-/

namespace TensorOS

variable {m : ℕ → UInt8} {header : ImageHeader} {size : UInt32}

/-! ## Sequences of checks -/

theorem firstFailure_eq_ok {l : List Int} :
    firstFailure l = Status.ok ↔ ∀ status ∈ l, status = Status.ok := by
  rw [firstFailure]
  cases h : l.find? (· ≠ Status.ok) with
  | none => simpa using List.find?_eq_none.mp h
  | some status =>
    have hne : status ≠ Status.ok := by simpa using List.find?_some h
    rw [Option.getD_some]
    exact iff_of_false hne fun hall ↦ hne (hall status (List.mem_of_find?_eq_some h))

theorem failWhen_eq_ok {condition : Bool} {status : Int} (h : status ≠ Status.ok) :
    failWhen condition status = Status.ok ↔ condition = false := by
  cases condition with
  | true => simpa [failWhen] using h
  | false => simp [failWhen]

/-! ## The header -/

/-- What `runtime_fs_image_parse_header` demands. -/
structure HeaderOk (header : ImageHeader) (size : UInt32) : Prop where
  size_ge : 40 ≤ size.toNat
  magic : header.magic = imageMagic
  version : header.version = imageVersion
  headerBytes : header.headerBytes = imageHeaderBytes
  recordBytes : header.recordBytes = imageRecordBytes
  count_ne : header.recordCount ≠ 0
  count_le : header.recordCount.toNat ≤ 16
  leaf_ne : header.treeLeafCount ≠ 0
  leaf_le : header.treeLeafCount.toNat ≤ 16
  hash_count : header.treeHashCount = header.treeLeafCount * 2 - 1
  count_le_leaf : header.recordCount.toNat ≤ header.treeLeafCount.toNat
  pow2 : imageNextPow2 header.treeLeafCount = header.treeLeafCount
  total : header.imageBytes = header.headerBytes + header.recordCount * header.recordBytes +
    header.treeHashCount * 4 + header.dataBytes
  size_eq : header.imageBytes = size

theorem imageParseHeader_eq_some :
    imageParseHeader m size = some header ↔ header = imageLoadHeader m ∧ HeaderOk header size := by
  have h40 : imageHeaderBytes.toNat = 40 := rfl
  have h16 : (16 : UInt32).toNat = 16 := rfl
  have hmax : imageMaxTreeLeaves.toNat = 16 := rfl
  unfold imageParseHeader
  constructor
  · intro h
    split at h
    · cases h
    next hsize =>
    dsimp only at h
    split at h
    · cases h
    next hfields =>
    split at h
    · cases h
    next htotal =>
    split at h
    · next heq =>
      obtain rfl := Option.some.inj h
      simp only [not_or, not_not, gt_iff_lt, UInt32.not_lt, UInt32.le_iff_toNat_le, h16, hmax]
        at hfields
      rw [UInt32.lt_iff_toNat_lt, h40] at hsize
      obtain ⟨h₁, h₂, h₃, h₄, h₅, h₆, h₇, h₈, h₉, h₁₀, h₁₁⟩ := hfields
      exact ⟨rfl, by omega, h₁, h₂, h₃, h₄, h₅, h₆, h₇, h₈, h₉, h₁₀, h₁₁, not_not.mp htotal, heq⟩
    · cases h
  · rintro ⟨rfl, h⟩
    rw [if_neg (by rw [UInt32.lt_iff_toNat_lt, h40]; exact Nat.not_lt.mpr h.size_ge)]
    dsimp only
    rw [if_neg, if_neg (not_not.mpr h.total), if_pos h.size_eq]
    simp only [not_or, not_not, gt_iff_lt, UInt32.not_lt, UInt32.le_iff_toNat_le, h16, hmax]
    exact ⟨h.magic, h.version, h.headerBytes, h.recordBytes, h.count_ne, h.count_le, h.leaf_ne,
      h.leaf_le, h.hash_count, h.count_le_leaf, h.pow2⟩

theorem HeaderOk.toNat_treeHashCount (h : HeaderOk header size) :
    header.treeHashCount.toNat = 2 * header.treeLeafCount.toNat - 1 := by
  have hpos : header.treeLeafCount.toNat ≠ 0 := fun h0 ↦ h.leaf_ne (UInt32.toNat_inj.mp h0)
  have hle := h.leaf_le
  have hmul : (header.treeLeafCount * 2).toNat = header.treeLeafCount.toNat * 2 := by
    rw [UInt32.toNat_mul]
    have h2 : (2 : UInt32).toNat = 2 := rfl
    rw [h2]
    omega
  have hone : (1 : UInt32).toNat = 1 := rfl
  rw [h.hash_count, UInt32.toNat_sub_of_le, hmul, hone]
  · omega
  · rw [UInt32.le_iff_toNat_le, hmul, hone]
    omega

/-! ## The records -/

/-- What one round of the first loop demands. -/
structure RecordOk (m : ℕ → UInt8) (header : ImageHeader) (index : ℕ) : Prop where
  index_lt : (imageRecordAt m index).nodeIndex.toNat < 16
  fresh : imagePresentMask m index >>> (imageRecordAt m index).nodeIndex &&& 1 = 0
  first : index = 0 → (imageRecordAt m index).nodeIndex = 0
  increasing : 0 < index → (imageRecordAt m (index - 1)).nodeIndex.toNat
    < (imageRecordAt m index).nodeIndex.toNat
  kind : (imageRecordAt m index).type = fileTypeDirectory ∨
    (imageRecordAt m index).type = fileTypeRegular
  dir_size : (imageRecordAt m index).type = fileTypeDirectory →
    (imageRecordAt m index).dataSize = 0
  reg_size : (imageRecordAt m index).type = fileTypeRegular →
    (imageRecordAt m index).dataSize = (imageRecordAt m index).sizeBytes
  size_le : (imageRecordAt m index).sizeBytes.toNat ≤ 256
  offset_eq : (imageRecordAt m index).dataOffset = imageExpectedOffset m index
  end_le : ((imageRecordAt m index).dataOffset + (imageRecordAt m index).dataSize).toNat
    ≤ header.dataBytes.toNat
  root_parent : index = 0 → (imageRecordAt m index).parentIndex = 0
  root_dir : index = 0 → (imageRecordAt m index).type = fileTypeDirectory
  root_name : index = 0 → (imageRecordAt m index).name 0 = slash ∧
    (imageRecordAt m index).name 1 = 0
  name_ne : index ≠ 0 → (imageRecordAt m index).name 0 ≠ 0 ∧
    ¬((imageRecordAt m index).name 0 = slash ∧ (imageRecordAt m index).name 1 = 0)
  data_hash : imageHashBytes (bytesAt m
    (imageDataOffset header + (imageRecordAt m index).dataOffset.toNat)
    (imageRecordAt m index).dataSize.toNat) = (imageRecordAt m index).dataHash
  object_hash : imageObjectHash (imageRecordAt m index) = (imageRecordAt m index).objectHash

theorem imageRecordStatus_eq_ok {index : ℕ} :
    imageRecordStatus m header index = Status.ok ↔ RecordOk m header index := by
  have h16 : (16 : UInt32).toNat = 16 := rfl
  have hcap : fileCapacity.toNat = 256 := rfl
  have e₁ : Status.einval ≠ Status.ok := by decide
  have e₂ : Status.eexist ≠ Status.ok := by decide
  have e₃ : Status.enospc ≠ Status.ok := by decide
  simp only [imageRecordStatus, firstFailure_eq_ok, List.forall_mem_cons, failWhen_eq_ok e₁,
    failWhen_eq_ok e₂, failWhen_eq_ok e₃, decide_eq_false_iff_not, ge_iff_le, gt_iff_lt,
    UInt32.lt_iff_toNat_lt, UInt32.le_iff_toNat_le, h16, hcap, not_and, not_or, ne_eq, not_not,
    Nat.not_le, Nat.not_lt, List.not_mem_nil, false_imp_iff, implies_true,
    and_true]
  constructor
  · rintro ⟨h₁, h₂, h₃, h₄, h₅, h₆, h₇, h₈, h₉, h₁₀, h₁₁, h₁₂, h₁₃, h₁₄, h₁₅, h₁₆⟩
    refine ⟨h₁, h₂, h₃, h₄, ?_, h₆, h₇, h₈, h₉, h₁₀, h₁₁, h₁₂, h₁₃, fun hi ↦ ?_, h₁₅, h₁₆⟩
    · by_cases hd : (imageRecordAt m index).type = fileTypeDirectory
      · exact Or.inl hd
      · exact Or.inr (h₅ hd)
    · exact ⟨(h₁₄ hi).1, fun hn ↦ (h₁₄ hi).2 hn.1 hn.2⟩
  · intro h
    exact ⟨h.index_lt, h.fresh, h.first, h.increasing, fun hd ↦ h.kind.resolve_left hd,
      h.dir_size, h.reg_size, h.size_le, h.offset_eq, h.end_le, h.root_parent, h.root_dir,
      h.root_name, fun hi ↦ ⟨(h.name_ne hi).1, fun h₁ h₂ ↦ (h.name_ne hi).2 ⟨h₁, h₂⟩⟩,
      h.data_hash, h.object_hash⟩

/-! ## The whole body -/

/-- What one round of the second loop demands. -/
structure ParentOk (m : ℕ → UInt8) (header : ImageHeader) (index : ℕ) : Prop where
  present : (imageRecordAt m index).nodeIndex ≠ 0 →
    imagePresentMask m header.recordCount.toNat >>> (imageRecordAt m index).parentIndex &&& 1 ≠ 0
  root : (imageRecordAt m index).nodeIndex = 0 →
    imageFindRecord (imageRecords m header) (imageRecordAt m index).parentIndex = some 0
  parent_dir : (imageRecordAt m index).nodeIndex ≠ 0 →
    ∃ parent, ((imageFindRecord (imageRecords m header) (imageRecordAt m index).parentIndex).bind
      fun i ↦ (imageRecords m header)[i]?) = some parent ∧ parent.type = fileTypeDirectory
  chain : imageChainStatus (imageRecords m header) 16 (imageRecordAt m index).nodeIndex = Status.ok

theorem imageParentStatus_eq_ok {index : ℕ} :
    imageParentStatus m header index = Status.ok ↔ ParentOk m header index := by
  have e₁ : Status.einval ≠ Status.ok := by decide
  have hall : ∀ o : Option ImageRecord,
      ¬(o.all fun p ↦ decide (p.type ≠ fileTypeDirectory)) = true
        ↔ ∃ parent, o = some parent ∧ parent.type = fileTypeDirectory := by
    intro o
    cases o with
    | none => simp
    | some p => simp
  simp only [imageParentStatus, firstFailure_eq_ok, List.forall_mem_cons, failWhen_eq_ok e₁,
    decide_eq_false_iff_not, not_and, hall, List.not_mem_nil, false_imp_iff, implies_true,
    and_true, not_not]
  exact ⟨fun ⟨h₁, h₂, h₃, h₄⟩ ↦ ⟨h₁, h₂, h₃, h₄⟩,
    fun h ↦ ⟨h.present, h.root, h.parent_dir, h.chain⟩⟩

/-- What the checks of the hash tree demand. -/
structure TreeOk (m : ℕ → UInt8) (header : ImageHeader) : Prop where
  leaf : ∀ index < header.treeLeafCount.toNat, imageTreeAt m header
    (header.treeHashCount.toNat - header.treeLeafCount.toNat + index)
      = if index < header.recordCount.toNat then (imageRecordAt m index).objectHash
        else imageHashEmpty
  inner : ∀ parent < header.treeHashCount.toNat - header.treeLeafCount.toNat,
    imageTreeAt m header parent = imageTreeHash (imageTreeAt m header (parent * 2 + 1))
      (imageTreeAt m header (parent * 2 + 2))
  root : imageTreeAt m header 0 = header.rootHash

/-- What the checks after the header demand. -/
structure BodyOk (m : ℕ → UInt8) (header : ImageHeader) : Prop where
  record : ∀ index < header.recordCount.toNat, RecordOk m header index
  payload : imageExpectedOffset m header.recordCount.toNat = header.dataBytes
  parent : ∀ index < header.recordCount.toNat, ParentOk m header index
  names : ∀ index other, index < other → other < header.recordCount.toNat →
    (imageRecordAt m index).parentIndex = (imageRecordAt m other).parentIndex →
    imageNameEqualsBounded (List.ofFn (imageRecordAt m index).name)
      (List.ofFn (imageRecordAt m other).name) = false
  tree : TreeOk m header

/-- **The body of an image is accepted** exactly when it meets every demand. -/
theorem imageBodyStatus_eq_ok : imageBodyStatus m header = Status.ok ↔ BodyOk m header := by
  have e₁ : Status.einval ≠ Status.ok := by decide
  have e₂ : Status.eexist ≠ Status.ok := by decide
  simp only [imageBodyStatus, firstFailure_eq_ok, List.forall_mem_append, List.mem_flatMap,
    List.forall_mem_map, List.mem_range, List.mem_reverse, List.forall_mem_singleton,
    failWhen_eq_ok e₁, decide_eq_false_iff_not, not_not, ne_eq, imageRecordStatus_eq_ok,
    imageParentStatus_eq_ok, imageLeafStatus, imageInnerStatus]
  constructor
  · rintro ⟨⟨⟨⟨⟨⟨h₁, h₂⟩, h₃⟩, h₄⟩, h₅⟩, h₆⟩, h₇⟩
    refine ⟨h₁, h₂, h₃, fun index other hlt hother hpar ↦ ?_, ⟨h₅, h₆, h₇⟩⟩
    have hpair := h₄ (imagePairStatus m index other) ⟨index, by omega, List.mem_map.mpr
      ⟨other, List.mem_filter.mpr ⟨List.mem_range.mpr hother, by simpa using hlt⟩, rfl⟩⟩
    rw [imagePairStatus, failWhen_eq_ok e₂] at hpair
    simpa [hpar] using hpair
  · rintro ⟨h₁, h₂, h₃, h₄, ⟨h₅, h₆, h₇⟩⟩
    refine ⟨⟨⟨⟨⟨⟨h₁, h₂⟩, h₃⟩, ?_⟩, h₅⟩, h₆⟩, h₇⟩
    rintro status ⟨index, _, hmem⟩
    obtain ⟨other, hother, rfl⟩ := List.mem_map.mp hmem
    obtain ⟨hrange, hlt⟩ := List.mem_filter.mp hother
    rw [imagePairStatus, failWhen_eq_ok e₂, decide_eq_false_iff_not]
    rintro ⟨hpar, hname⟩
    rw [h₄ index other (by simpa using hlt) (List.mem_range.mp hrange) hpar] at hname
    cases hname

/-- The image in memory is accepted, under the header it starts with. -/
structure Accepted (m : ℕ → UInt8) (size : UInt32) (header : ImageHeader) : Prop where
  loaded : header = imageLoadHeader m
  head : HeaderOk header size
  body : BodyOk m header

/-- **The validator accepts** exactly the images that meet every demand. -/
theorem imageValidate_eq_ok {layout : Option ImageLayout} :
    (imageValidate (some m) size layout).1 = Status.ok ↔ ∃ header, Accepted m size header := by
  unfold imageValidate
  dsimp only
  cases hparse : imageParseHeader m size with
  | none =>
    refine iff_of_false (fun h ↦ absurd h (show Status.einval ≠ Status.ok by decide)) ?_
    rintro ⟨header, hload, hok, -⟩
    rw [imageParseHeader_eq_some.mpr ⟨hload, hok⟩] at hparse
    cases hparse
  | some header =>
    obtain ⟨hload, hok⟩ := imageParseHeader_eq_some.mp hparse
    dsimp only
    by_cases hbody : imageBodyStatus m header = Status.ok
    · rw [if_neg (not_not.mpr hbody)]
      exact iff_of_true rfl ⟨header, hload, hok, imageBodyStatus_eq_ok.mp hbody⟩
    · rw [if_pos hbody]
      refine iff_of_false hbody ?_
      rintro ⟨header', hload', -, hb⟩
      rw [hload', ← hload] at hb
      exact hbody (imageBodyStatus_eq_ok.mpr hb)

/-! ## Records by index -/

/-- Node indices increase along the records. -/
def Increasing (m : ℕ → UInt8) (header : ImageHeader) : Prop :=
  ∀ i j, i < j → j < header.recordCount.toNat →
    (imageRecordAt m i).nodeIndex.toNat < (imageRecordAt m j).nodeIndex.toNat

theorem BodyOk.increasing (h : BodyOk m header) : Increasing m header := by
  intro i j hij hj
  induction j with
  | zero => omega
  | succ j ih =>
    have hstep := (h.record (j + 1) hj).increasing (by omega)
    rw [Nat.add_sub_cancel] at hstep
    rcases Nat.lt_or_eq_of_le (Nat.lt_succ_iff.mp hij) with hlt | rfl
    · exact (ih hlt (by omega)).trans hstep
    · exact hstep

theorem Increasing.eq_of_nodeIndex (h : Increasing m header) {i j : ℕ}
    (hi : i < header.recordCount.toNat) (hj : j < header.recordCount.toNat)
    (heq : (imageRecordAt m i).nodeIndex = (imageRecordAt m j).nodeIndex) : i = j := by
  rcases lt_trichotomy i j with hlt | hij | hgt
  · exact absurd (h i j hlt hj) (by rw [heq]; exact lt_irrefl _)
  · exact hij
  · exact absurd (h j i hgt hi) (by rw [heq]; exact lt_irrefl _)

@[simp] theorem length_imageRecords : (imageRecords m header).length
    = header.recordCount.toNat := by
  simp [imageRecords]

theorem imageRecords_getElem? {k : ℕ} (hk : k < header.recordCount.toNat) :
    (imageRecords m header)[k]? = some (imageRecordAt m k) := by
  simp [imageRecords, hk]

theorem Increasing.imageFindRecord_eq_some (h : Increasing m header) {n : UInt32} {k : ℕ} :
    imageFindRecord (imageRecords m header) n = some k ↔
      k < header.recordCount.toNat ∧ (imageRecordAt m k).nodeIndex = n := by
  rw [imageFindRecord, List.findIdx?_eq_some_iff_getElem]
  constructor
  · rintro ⟨hk, hn, -⟩
    rw [length_imageRecords] at hk
    exact ⟨hk, by simpa [imageRecords] using hn⟩
  · rintro ⟨hk, rfl⟩
    refine ⟨by simpa using hk, by simp [imageRecords], fun j hj ↦ ?_⟩
    have hne := (h j k hj hk).ne
    simp only [imageRecords, List.getElem_map, List.getElem_range, decide_eq_true_eq]
    exact fun heq ↦ hne (by rw [heq])

/-- The record with a node index, as the validator finds it. -/
theorem Increasing.find_eq_some (h : Increasing m header) {n : UInt32} {record : ImageRecord} :
    ((imageFindRecord (imageRecords m header) n).bind fun i ↦ (imageRecords m header)[i]?)
        = some record ↔
      ∃ k < header.recordCount.toNat, (imageRecordAt m k).nodeIndex = n ∧
        imageRecordAt m k = record := by
  rw [Option.bind_eq_some_iff]
  constructor
  · rintro ⟨k, hk, hget⟩
    obtain ⟨hlt, hn⟩ := h.imageFindRecord_eq_some.mp hk
    rw [imageRecords_getElem? hlt] at hget
    exact ⟨k, hlt, hn, Option.some.inj hget⟩
  · rintro ⟨k, hlt, hn, rfl⟩
    exact ⟨k, h.imageFindRecord_eq_some.mpr ⟨hlt, hn⟩, imageRecords_getElem? hlt⟩

/-! ## The parent walk -/

theorem imageChainStatus_exhausted {records : List ImageRecord} {current : UInt32}
    (h0 : current ≠ 0) : imageChainStatus records 0 current ≠ Status.ok := by
  unfold imageChainStatus
  rw [if_neg h0]
  cases (imageFindRecord records current).bind fun i ↦ records[i]? with
  | none => exact (by decide : Status.einval ≠ Status.ok)
  | some record => exact (by decide : Status.einval ≠ Status.ok)

theorem imageChainStatus_missing {records : List ImageRecord} {left : ℕ} {current : UInt32}
    (h0 : current ≠ 0)
    (h : ((imageFindRecord records current).bind fun i ↦ records[i]?) = none) :
    imageChainStatus records left current ≠ Status.ok := by
  unfold imageChainStatus
  rw [if_neg h0, h]
  exact (by decide : Status.einval ≠ Status.ok)

theorem imageChainStatus_found {records : List ImageRecord} {left : ℕ} {current : UInt32}
    {node : ImageRecord} (h0 : current ≠ 0)
    (h : ((imageFindRecord records current).bind fun i ↦ records[i]?) = some node) :
    imageChainStatus records (left + 1) current
      = imageChainStatus records left node.parentIndex := by
  rw [imageChainStatus.eq_def, if_neg h0, h]

end TensorOS
