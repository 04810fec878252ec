import TensorOS.Image.ValidateSpec
import TensorOS.Lib.Checks

/-!
# The reads of the image validator

`imageValidate` says what the validator answers; it reads a memory without an end. Here each of its
checks carries the reads, the shift and the array accesses it makes, in the order of the source,
and a check that goes out of bounds is a fault. A run that returns answers what `imageValidate`
answers (`imageValidateGuarded_eq_ok`), and which images let it return is `memorySafe_iff`.

## Three ways out of bounds

* The size of the image is compared with a sum that is taken modulo `2 ^ 32`. A payload length
  close to `2 ^ 32` makes the sum small, and then the records themselves may lie past the end of
  the buffer.
* The parent index of a record is checked against the mask of present indices by a shift, and
  nothing bounds it before.
* The comparison of names stops after sixteen bytes of the left one, and then looks at the
  seventeenth byte of the right one.

An image whose sum does not wrap cannot lead the validator out of the buffer: the payload lengths
are at most 256 each, so that no offset computed from them wraps. The import reads nothing that an
accepted image does not hold.
-/

namespace TensorOS

/-! ## Checks with their reads -/

/-- The bytes from an offset on are inside the buffer. -/
def insideBuffer (size : UInt32) (offset count : ℕ) : Bool :=
  count = 0 ∨ offset + count ≤ size.toNat

/-- The checks of one round of the first loop, up to the hash of the payload. -/
def imageFieldChecks (buffer : ℕ → UInt8) (size : UInt32) (header : ImageHeader) (index : ℕ) :
    List (Bool × Int) :=
  let record := imageRecordAt buffer index
  [ -- `records[index]` is filled from the buffer
    (index < 16 ∧ insideBuffer size (40 + 56 * index) 56, Status.ok),
    (true, failWhen (record.nodeIndex ≥ 16) Status.einval),
    -- the mask is shifted
    (record.nodeIndex < 32,
      failWhen (imagePresentMask buffer index >>> record.nodeIndex &&& 1 ≠ 0) Status.eexist),
    (true, failWhen (index = 0 ∧ record.nodeIndex ≠ 0) Status.einval),
    -- `records[index - 1]`
    (index - 1 < 16,
      failWhen (index > 0 ∧ record.nodeIndex ≤ (imageRecordAt buffer (index - 1)).nodeIndex)
        Status.einval),
    (true, failWhen (record.type ≠ fileTypeDirectory ∧ record.type ≠ fileTypeRegular)
      Status.einval),
    (true, failWhen (record.type = fileTypeDirectory ∧ record.dataSize ≠ 0) Status.einval),
    (true, failWhen (record.type = fileTypeRegular ∧ record.dataSize ≠ record.sizeBytes)
      Status.einval),
    (true, failWhen (record.sizeBytes > fileCapacity) Status.enospc),
    (true, failWhen (record.dataOffset ≠ imageExpectedOffset buffer index) Status.einval),
    (true, failWhen (record.dataOffset + record.dataSize > header.dataBytes) Status.einval),
    (true, failWhen (index = 0 ∧ record.parentIndex ≠ 0) Status.einval),
    (true, failWhen (index = 0 ∧ record.type ≠ fileTypeDirectory) Status.einval),
    (true, failWhen (index = 0 ∧ (record.name 0 ≠ slash ∨ record.name 1 ≠ 0)) Status.einval),
    (true, failWhen (index ≠ 0 ∧ (record.name 0 = 0 ∨ record.name 0 = slash ∧ record.name 1 = 0))
      Status.einval)]

/-- The checks of one round of the first loop of `runtime_fs_image_validate`. -/
def imageRecordChecks (buffer : ℕ → UInt8) (size : UInt32) (header : ImageHeader) (index : ℕ) :
    List (Bool × Int) :=
  let record := imageRecordAt buffer index
  let payload := imageDataOffset header + record.dataOffset.toNat
  imageFieldChecks buffer size header index ++
  [ (insideBuffer size payload record.dataSize.toNat,
      failWhen (imageHashBytes (bytesAt buffer payload record.dataSize.toNat) ≠ record.dataHash)
        Status.einval),
    (true, failWhen (imageObjectHash record ≠ record.objectHash) Status.einval),
    -- `object_hashes[index]` is stored and the mask extended by a shift
    (index < 16 ∧ record.nodeIndex < 32, Status.ok)]

/-- The checks of one round of the second loop. The mask is shifted by the parent index unless the
record is that of node 0. -/
def imageParentChecks (buffer : ℕ → UInt8) (header : ImageHeader) (index : ℕ) :
    List (Bool × Int) :=
  let records := imageRecords buffer header
  let record := imageRecordAt buffer index
  let presentMask := imagePresentMask buffer header.recordCount.toNat
  let parent := imageFindRecord records record.parentIndex
  [ (index < 16 ∧ (record.nodeIndex = 0 ∨ record.parentIndex < 32),
      failWhen (record.nodeIndex ≠ 0 ∧ presentMask >>> record.parentIndex &&& 1 = 0) Status.einval),
    -- `runtime_fs_image_find_record` looks at all the records
    (header.recordCount.toNat ≤ 16,
      failWhen (record.nodeIndex = 0 ∧ parent ≠ some 0) Status.einval),
    (true, failWhen (record.nodeIndex ≠ 0 ∧
      (parent.bind fun i ↦ records[i]?).all fun p ↦ p.type ≠ fileTypeDirectory) Status.einval),
    (true, imageChainStatus records 16 record.nodeIndex)]

/-- Whether `runtime_fs_image_name_equals_bounded` looks behind the right name: it does when it has
compared all of the left one. -/
def imageNameReadsPast : List UInt8 → List UInt8 → Bool
  | a :: as, b :: bs =>
    if a ≠ 0 ∧ b ≠ 0 then
      if a ≠ b then false else imageNameReadsPast as bs
    else false
  | _, _ => true

/-- One comparison of the third loop. The names are compared only below the same parent. -/
def imagePairCheck (buffer : ℕ → UInt8) (index other : ℕ) : Bool × Int :=
  let record := imageRecordAt buffer index
  let peer := imageRecordAt buffer other
  (index < 16 ∧ other < 16 ∧ ¬(record.parentIndex = peer.parentIndex ∧
    imageNameReadsPast (List.ofFn record.name) (List.ofFn peer.name)),
    imagePairStatus buffer index other)

/-- The checks of the hash tree. `tree_hashes` has 31 entries. -/
def imageTreeChecks (buffer : ℕ → UInt8) (size : UInt32) (header : ImageHeader) :
    List (Bool × Int) :=
  let inner := header.treeHashCount.toNat - header.treeLeafCount.toNat
  [(decide (header.treeHashCount.toNat ≤ 31) &&
    insideBuffer size (imageTreeOffset header) (4 * header.treeHashCount.toNat), Status.ok)] ++
  (List.range header.treeLeafCount.toNat).map (fun index ↦
    (decide (inner + index < 31 ∧ index < 16), imageLeafStatus buffer header index)) ++
  (List.range inner).reverse.map (fun parent ↦
    (decide (parent * 2 + 2 < 31), imageInnerStatus buffer header parent)) ++
  [(true, failWhen (imageTreeAt buffer header 0 ≠ header.rootHash) Status.einval)]

/-- The checks of `runtime_fs_image_validate` after the header, in the order of the source. -/
def imageChecks (buffer : ℕ → UInt8) (size : UInt32) (header : ImageHeader) : List (Bool × Int) :=
  let count := header.recordCount.toNat
  (List.range count).flatMap (imageRecordChecks buffer size header) ++
  ([(true, failWhen (imageExpectedOffset buffer count ≠ header.dataBytes) Status.einval)] ++
  ((List.range count).flatMap (imageParentChecks buffer header) ++
  ((List.range count).flatMap (fun index ↦ (List.range count).flatMap fun other ↦
    if index < other then [imagePairCheck buffer index other] else []) ++
  imageTreeChecks buffer size header)))

/-- `runtime_fs_image_validate`, with its reads. The words of the header are read only from a buffer
that holds them. -/
def imageValidateGuarded (buffer : ℕ → UInt8) (size : UInt32) : Except Fault Int :=
  match imageParseHeader buffer size with
  | none => .ok Status.einval
  | some header => runChecks Status.ok (imageChecks buffer size header)

/-- The reads of the loop of `runtime_fs_image_import`, and the accesses to the node array. -/
def imageImportChecks (buffer : ℕ → UInt8) (size : UInt32) (header : ImageHeader) :
    List (Bool × Int) :=
  (List.range header.recordCount.toNat).flatMap fun index ↦
    let record := imageRecordAt buffer index
    [ (insideBuffer size (40 + 56 * index) 56, Status.ok),
      (record.nodeIndex < 16, Status.ok),
      (record.dataSize.toNat ≤ 256 ∧ insideBuffer size
        (imageDataOffset header + record.dataOffset.toNat) record.dataSize.toNat, Status.ok)]

/-- `runtime_fs_image_import`, with its reads, up to the file-system validator at its end. -/
def imageImportGuarded (buffer : ℕ → UInt8) (size : UInt32) : Except Fault Int := do
  let status ← imageValidateGuarded buffer size
  if status ≠ Status.ok then .ok Status.einval
  else
    match imageParseHeader buffer size with
    | none => .ok Status.einval
    | some header => runChecks Status.ok (imageImportChecks buffer size header)


variable {m : ℕ → UInt8} {header : ImageHeader} {size : UInt32}

/-! ## The answers are those of the validator -/

theorem firstFailure_cons_ok (l : List Int) : firstFailure (Status.ok :: l) = firstFailure l := by
  simp [firstFailure]

theorem firstFailure_append (l l' : List Int) : firstFailure (l ++ l') =
    if firstFailure l = Status.ok then firstFailure l' else firstFailure l := by
  induction l with
  | nil => simp [firstFailure]
  | cons status l ih =>
    by_cases hstatus : status = Status.ok
    · rw [hstatus, List.cons_append, firstFailure_cons_ok, firstFailure_cons_ok, ih]
    · have hfirst : ∀ rest, firstFailure (status :: rest) = status := by
        intro rest
        simp [firstFailure, hstatus]
      rw [List.cons_append, hfirst, hfirst, if_neg hstatus]

theorem firstFailure_append_congr {a a' b b' : List Int} (ha : firstFailure a = firstFailure a')
    (hb : firstFailure b = firstFailure b') :
    firstFailure (a ++ b) = firstFailure (a' ++ b') := by
  rw [firstFailure_append, firstFailure_append, ha, hb]

theorem firstFailure_singleton (status : Int) : firstFailure [status] = status := by
  by_cases hstatus : status = Status.ok
  · rw [hstatus, firstFailure_cons_ok]
    rfl
  · simp [firstFailure, hstatus]

theorem firstFailure_flatMap {α : Type} (l : List α) (round : α → List Int) :
    firstFailure (l.flatMap round) = firstFailure (l.map fun a ↦ firstFailure (round a)) := by
  induction l with
  | nil => rfl
  | cons a l ih =>
    rw [List.flatMap_cons, List.map_cons, firstFailure_append, ih, ← List.singleton_append,
      firstFailure_append, firstFailure_singleton]

/-- Checks that return answer the first status that is not OK. -/
theorem runChecks_eq_ok {checks : List (Bool × Int)} {status : Int}
    (h : runChecks Status.ok checks = .ok status) :
    firstFailure (checks.map Prod.snd) = status := by
  induction checks with
  | nil => exact Except.ok.inj h
  | cons check rest ih =>
    obtain ⟨inBounds, answer⟩ := check
    rw [runChecks] at h
    cases inBounds with
    | false => cases h
    | true =>
      rw [if_neg (by simp)] at h
      rw [List.map_cons]
      by_cases hanswer : answer = Status.ok
      · rw [if_neg (not_not.mpr hanswer)] at h
        rw [hanswer, firstFailure_cons_ok]
        exact ih h
      · rw [if_pos hanswer] at h
        rw [← Except.ok.inj h]
        simp [firstFailure, hanswer]

theorem allGood_iff {checks : List (Bool × Int)} :
    AllGood Status.ok checks ↔ firstFailure (checks.map Prod.snd) = Status.ok := by
  rw [firstFailure_eq_ok, List.forall_mem_map]
  rfl

theorem firstFailure_recordChecks (index : ℕ) :
    firstFailure ((imageRecordChecks m size header index).map Prod.snd)
      = imageRecordStatus m header index := by
  have hlast : ∀ l, firstFailure (l ++ [Status.ok]) = firstFailure l := by
    intro l
    rw [firstFailure_append]
    split
    · next hok => exact hok.symm
    · rfl
  rw [imageRecordStatus]
  simp only [imageRecordChecks, imageFieldChecks, List.map_append, List.map_cons, List.map_nil]
  rw [List.cons_append, firstFailure_cons_ok]
  change firstFailure (_ ++ ([_, _] ++ [Status.ok])) = _
  rw [← List.append_assoc, hlast]
  rfl

theorem firstFailure_parentChecks (index : ℕ) :
    firstFailure ((imageParentChecks m header index).map Prod.snd)
      = imageParentStatus m header index := rfl

theorem flatMap_ite_eq_map_filter {α β : Type} (l : List α) (P : α → Prop) [DecidablePred P]
    (f : α → β) : (l.flatMap fun a ↦ if P a then [f a] else []) = (l.filter (P ·)).map f := by
  induction l with
  | nil => rfl
  | cons a l ih =>
    rw [List.flatMap_cons, ih]
    by_cases ha : P a
    · simp [ha]
    · simp [ha]

/-- The checks with their reads are the checks of the validator. -/
theorem firstFailure_imageChecks :
    firstFailure ((imageChecks m size header).map Prod.snd) = imageBodyStatus m header := by
  have hrecords : firstFailure (((List.range header.recordCount.toNat).flatMap
      (imageRecordChecks m size header)).map Prod.snd) =
      firstFailure ((List.range header.recordCount.toNat).map (imageRecordStatus m header)) := by
    rw [List.map_flatMap, firstFailure_flatMap]
    simp only [firstFailure_recordChecks]
  have hparents : firstFailure (((List.range header.recordCount.toNat).flatMap
      (imageParentChecks m header)).map Prod.snd) =
      firstFailure ((List.range header.recordCount.toNat).map (imageParentStatus m header)) := by
    rw [List.map_flatMap, firstFailure_flatMap]
    simp only [firstFailure_parentChecks]
  have hpairs : ((List.range header.recordCount.toNat).flatMap (fun index ↦
      (List.range header.recordCount.toNat).flatMap fun other ↦
        if index < other then [imagePairCheck m index other] else [])).map Prod.snd =
      (List.range header.recordCount.toNat).flatMap (fun index ↦
        ((List.range header.recordCount.toNat).filter (index < ·)).map
          (imagePairStatus m index)) := by
    rw [List.map_flatMap]
    congr 1
    funext index
    rw [flatMap_ite_eq_map_filter, List.map_map]
    rfl
  have htree : firstFailure ((imageTreeChecks m size header).map Prod.snd) = firstFailure
      ((List.range header.treeLeafCount.toNat).map (imageLeafStatus m header) ++
      ((List.range (header.treeHashCount.toNat - header.treeLeafCount.toNat)).reverse.map
        (imageInnerStatus m header) ++
      [failWhen (imageTreeAt m header 0 ≠ header.rootHash) Status.einval])) := by
    simp only [imageTreeChecks, List.map_append, List.map_cons, List.map_nil, List.map_map,
      List.append_assoc, List.singleton_append]
    rw [List.cons_append, firstFailure_cons_ok]
    rfl
  simp only [imageChecks, imageBodyStatus, List.map_append, List.append_assoc]
  refine firstFailure_append_congr hrecords (firstFailure_append_congr rfl ?_)
  refine firstFailure_append_congr hparents (firstFailure_append_congr ?_ htree)
  rw [hpairs]

/-- **A run that returns** answers what the validator answers. -/
theorem imageValidateGuarded_eq_ok {status : Int} (h : imageValidateGuarded m size = .ok status)
    (layout : Option ImageLayout) : (imageValidate (some m) size layout).1 = status := by
  unfold imageValidateGuarded at h
  unfold imageValidate
  dsimp only
  cases hparse : imageParseHeader m size with
  | none =>
    rw [hparse] at h
    exact Except.ok.inj h
  | some header =>
    rw [hparse] at h
    have hstatus := runChecks_eq_ok h
    rw [firstFailure_imageChecks] at hstatus
    dsimp only
    rw [hstatus]
    split
    · rfl
    · next hok => exact (not_not.mp hok).symm

/-! ## The length of an image -/

/-- The sum of the lengths of the regions that a header describes. -/
def imageLength (header : ImageHeader) : ℕ := imageDataOffset header + header.dataBytes.toNat

theorem insideBuffer_iff {offset count : ℕ} :
    insideBuffer size offset count = true ↔ count = 0 ∨ offset + count ≤ size.toNat := by
  simp [insideBuffer]

theorem HeaderOk.toNat_size (h : HeaderOk header size) :
    size.toNat = imageLength header % 2 ^ 32 := by
  have hcount := h.count_le
  have hleaf := h.leaf_le
  have hhashes := h.toNat_treeHashCount
  have h40 : imageHeaderBytes.toNat = 40 := rfl
  have h56 : imageRecordBytes.toNat = 56 := rfl
  have h4 : (4 : UInt32).toNat = 4 := rfl
  rw [← h.size_eq, h.total, h.headerBytes, h.recordBytes]
  simp only [UInt32.toNat_add, UInt32.toNat_mul, h40, h56, h4, imageLength, imageDataOffset,
    imageTreeOffset]
  omega

/-- The payload offsets stay small as long as the records are accepted. -/
theorem toNat_imageExpectedOffset_le {k : ℕ} (hk : k ≤ 16)
    (hrecords : ∀ j < k, RecordOk m header j) : (imageExpectedOffset m k).toNat ≤ 256 * k := by
  induction k with
  | zero => simp [imageExpectedOffset]
  | succ k ih =>
    have hbefore := ih (by omega) fun j hj ↦ hrecords j (by omega)
    have hrecord := hrecords k (by omega)
    have hsize : (imageRecordAt m k).dataSize.toNat ≤ 256 := by
      rcases hrecord.kind with hdir | hreg
      · rw [hrecord.dir_size hdir]
        simp
      · rw [hrecord.reg_size hreg]
        exact hrecord.size_le
    rw [imageExpectedOffset, UInt32.toNat_add]
    omega

theorem payload_of_fieldChecks {k : ℕ}
    (h : AllGood Status.ok (imageFieldChecks m size header k)) :
    (imageRecordAt m k).nodeIndex.toNat < 16 ∧ (imageRecordAt m k).dataSize.toNat ≤ 256 ∧
      (imageRecordAt m k).dataOffset = imageExpectedOffset m k ∧
      ((imageRecordAt m k).dataOffset + (imageRecordAt m k).dataSize).toNat
        ≤ header.dataBytes.toNat := by
  have h16 : (16 : UInt32).toNat = 16 := rfl
  have hcap : fileCapacity.toNat = 256 := rfl
  have e₁ : Status.einval ≠ Status.ok := by decide
  have e₂ : Status.eexist ≠ Status.ok := by decide
  have e₃ : Status.enospc ≠ Status.ok := by decide
  simp only [AllGood, imageFieldChecks, List.forall_mem_cons, failWhen_eq_ok e₁, failWhen_eq_ok e₂,
    failWhen_eq_ok e₃, decide_eq_false_iff_not, ge_iff_le, gt_iff_lt, UInt32.lt_iff_toNat_lt,
    UInt32.le_iff_toNat_le, h16, hcap, not_and, ne_eq, not_not, Nat.not_le, Nat.not_lt] at h
  obtain ⟨-, hindex, -, -, -, hkind, hdir, hreg, hsize, hoffset, hend, -⟩ := h
  refine ⟨hindex, ?_, hoffset, hend⟩
  by_cases hd : (imageRecordAt m k).type = fileTypeDirectory
  · rw [hdir hd]
    simp
  · rw [hreg (hkind hd)]
    exact hsize

/-- The payload of a record is inside the region that the header gives to payloads. -/
theorem payload_inside {k : ℕ} (hk : k < 16) (hrecords : ∀ j < k, RecordOk m header j)
    (h : AllGood Status.ok (imageFieldChecks m size header k)) :
    (imageRecordAt m k).dataOffset.toNat + (imageRecordAt m k).dataSize.toNat
      ≤ header.dataBytes.toNat := by
  obtain ⟨-, hsize, hoffset, hend⟩ := payload_of_fieldChecks h
  have hsmall := toNat_imageExpectedOffset_le (by omega) hrecords
  rw [← hoffset] at hsmall
  rw [UInt32.toNat_add] at hend
  omega

/-! ## Which checks are contained -/

theorem contained_fieldChecks {k : ℕ} (hk : k < 16) :
    Contained Status.ok (imageFieldChecks m size header k) ↔ 40 + 56 * (k + 1) ≤ size.toNat := by
  have e₁ : Status.einval ≠ Status.ok := by decide
  have hshift : failWhen (decide ((imageRecordAt m k).nodeIndex ≥ 16)) Status.einval = Status.ok →
      (imageRecordAt m k).nodeIndex < 32 := by
    rw [failWhen_eq_ok e₁, decide_eq_false_iff_not, ge_iff_le, UInt32.not_le]
    intro hlt
    exact UInt32.lt_trans hlt (by decide)
  simp only [imageFieldChecks, Contained, decide_eq_true_eq, insideBuffer_iff, hk, true_and,
    show k - 1 < 16 by omega, implies_true, and_true, true_imp_iff]
  constructor
  · rintro ⟨hinside, -⟩
    omega
  · intro hinside
    exact ⟨Or.inr (by omega), hshift⟩

/-- A round of the first loop reads its record and, if it gets there, the payload. -/
theorem contained_recordChecks {k : ℕ} (hk : k < 16) :
    Contained Status.ok (imageRecordChecks m size header k) ↔ 40 + 56 * (k + 1) ≤ size.toNat ∧
      (AllGood Status.ok (imageFieldChecks m size header k) →
        insideBuffer size (imageDataOffset header + (imageRecordAt m k).dataOffset.toNat)
          (imageRecordAt m k).dataSize.toNat = true) := by
  rw [imageRecordChecks, contained_append, contained_fieldChecks hk]
  refine and_congr_right fun _ ↦ imp_congr_right fun hfields ↦ ?_
  have hindex : (imageRecordAt m k).nodeIndex < 32 := by
    rw [UInt32.lt_iff_toNat_lt]
    exact lt_trans (payload_of_fieldChecks hfields).1 (by decide)
  simp [Contained, hk, hindex]

theorem allGood_recordChecks {k : ℕ} :
    AllGood Status.ok (imageRecordChecks m size header k) ↔ RecordOk m header k := by
  rw [allGood_iff, firstFailure_recordChecks, imageRecordStatus_eq_ok]

theorem allGood_parentChecks {k : ℕ} :
    AllGood Status.ok (imageParentChecks m header k) ↔ ParentOk m header k := by
  rw [allGood_iff, firstFailure_parentChecks, imageParentStatus_eq_ok]

theorem contained_parentChecks (h : HeaderOk header size) {k : ℕ} (hk : k < 16) :
    Contained Status.ok (imageParentChecks m header k) ↔
      ((imageRecordAt m k).nodeIndex ≠ 0 → (imageRecordAt m k).parentIndex.toNat < 32) := by
  have h32 : (32 : UInt32).toNat = 32 := rfl
  simp only [imageParentChecks, Contained, decide_eq_true_eq, hk, h.count_le, true_and,
    implies_true, and_true, UInt32.lt_iff_toNat_lt, h32]
  exact Decidable.or_iff_not_imp_left

/-- The comparison looks behind the names exactly if they are full and equal. -/
theorem imageNameReadsPast_iff {a b : List UInt8} (hlen : a.length = b.length) :
    imageNameReadsPast a b = true ↔ a = b ∧ ∀ c ∈ a, c ≠ 0 := by
  induction a generalizing b with
  | nil =>
    obtain rfl : b = [] := List.eq_nil_of_length_eq_zero hlen.symm
    simp [imageNameReadsPast]
  | cons x a ih =>
    cases b with
    | nil => cases hlen
    | cons y b =>
      rw [imageNameReadsPast]
      by_cases hxy : x ≠ 0 ∧ y ≠ 0
      · by_cases hne : x = y
        · subst hne
          rw [if_pos hxy, if_neg (not_not.mpr rfl), ih (Nat.succ_injective hlen)]
          simp [hxy.1]
        · simp [hxy, hne]
      · rw [if_neg hxy]
        refine iff_of_false (by simp) ?_
        rintro ⟨heq, hall⟩
        obtain ⟨rfl, -⟩ := List.cons.inj heq
        exact hxy ⟨hall x (by simp), hall x (by simp)⟩

/-- Two records have the same parent and the same sixteen characters, and no terminator. -/
def FullNamesMeet (m : ℕ → UInt8) (i j : ℕ) : Prop :=
  (imageRecordAt m i).parentIndex = (imageRecordAt m j).parentIndex ∧
    (imageRecordAt m i).name = (imageRecordAt m j).name ∧ ∀ b, (imageRecordAt m i).name b ≠ 0

theorem pairCheck_inBounds {i j : ℕ} (hi : i < 16) (hj : j < 16) :
    (imagePairCheck m i j).1 = true ↔ ¬FullNamesMeet m i j := by
  have hnames : imageNameReadsPast (List.ofFn (imageRecordAt m i).name)
      (List.ofFn (imageRecordAt m j).name) = true ↔
      (imageRecordAt m i).name = (imageRecordAt m j).name ∧
        ∀ b, (imageRecordAt m i).name b ≠ 0 := by
    rw [imageNameReadsPast_iff (by simp only [List.length_ofFn]), List.ofFn_inj,
      List.forall_mem_ofFn_iff]
  simp only [imagePairCheck, FullNamesMeet, hi, hj, true_and, decide_eq_true_eq, hnames]

/-- A comparison of the third loop is reached if the ones before it found different names. -/
def PairReached (m : ℕ → UInt8) (header : ImageHeader) (i j : ℕ) : Prop :=
  (∀ i' < i, ∀ j' < header.recordCount.toNat, i' < j' → imagePairStatus m i' j' = Status.ok) ∧
    ∀ j' < j, i < j' → imagePairStatus m i j' = Status.ok

theorem contained_pairChecks (h : HeaderOk header size) :
    Contained Status.ok ((List.range header.recordCount.toNat).flatMap fun index ↦
      (List.range header.recordCount.toNat).flatMap fun other ↦
        if index < other then [imagePairCheck m index other] else []) ↔
      ∀ i j, i < j → j < header.recordCount.toNat → PairReached m header i j →
        ¬FullNamesMeet m i j := by
  have hcount := h.count_le
  have hcontained : ∀ i j, Contained Status.ok (if i < j then [imagePairCheck m i j] else []) ↔
      (i < j → (imagePairCheck m i j).1 = true) := by
    intro i j
    by_cases hij : i < j
    · simp [hij, Contained]
    · simp [hij, Contained]
  have hgood : ∀ i j, AllGood Status.ok (if i < j then [imagePairCheck m i j] else []) ↔
      (i < j → imagePairStatus m i j = Status.ok) := by
    intro i j
    by_cases hij : i < j
    · simp [hij, AllGood, imagePairCheck]
    · simp [hij, AllGood]
  simp only [contained_flatMap_range, allGood_flatMap, List.mem_range, hcontained, hgood]
  constructor
  · intro hpairs i j hij hj hreached
    rw [← pairCheck_inBounds (by omega) (by omega)]
    exact hpairs i (by omega) hreached.1 j hj hreached.2 hij
  · intro hpairs i hi hrows j hj hrow hij
    rw [pairCheck_inBounds (by omega) (by omega)]
    exact hpairs i j hij hj ⟨hrows, hrow⟩

/-- An accepted payload is short, and then the sum does not wrap. -/
theorem imageLength_lt (h : HeaderOk header size)
    (hrecords : ∀ k < header.recordCount.toNat, RecordOk m header k)
    (hpayload : imageExpectedOffset m header.recordCount.toNat = header.dataBytes) :
    imageLength header < 2 ^ 32 := by
  have hcount := h.count_le
  have hleaf := h.leaf_le
  have hhashes := h.toNat_treeHashCount
  have hoffset := toNat_imageExpectedOffset_le hcount hrecords
  rw [hpayload] at hoffset
  simp only [imageLength, imageDataOffset, imageTreeOffset]
  omega

/-- The hash tree is inside a buffer of the length of the image, and its arrays are large enough. -/
theorem contained_treeChecks (h : HeaderOk header size) (hlen : imageLength header < 2 ^ 32) :
    Contained Status.ok (imageTreeChecks m size header) := by
  have hleaf := h.leaf_le
  have hhashes := h.toNat_treeHashCount
  have hsize : size.toNat = imageLength header := by
    rw [h.toNat_size, Nat.mod_eq_of_lt hlen]
  have hend : imageTreeOffset header + 4 * header.treeHashCount.toNat ≤ size.toNat := by
    rw [hsize, imageLength, imageDataOffset]
    omega
  refine contained_of_forall ?_
  simp only [imageTreeChecks, List.forall_mem_append, List.forall_mem_singleton,
    List.forall_mem_map, List.mem_range, List.mem_reverse, decide_eq_true_eq, Bool.and_eq_true,
    insideBuffer_iff, and_true]
  refine ⟨⟨⟨by omega, Or.inr hend⟩, ?_⟩, ?_⟩
  · intro index hindex
    omega
  · intro parent hparent
    omega

theorem contained_importChecks (h : HeaderOk header size) (hbody : BodyOk m header) :
    Contained Status.ok (imageImportChecks m size header) := by
  have hcount := h.count_le
  have hlen := imageLength_lt h hbody.record hbody.payload
  have hsize : size.toNat = imageLength header := by
    rw [h.toNat_size, Nat.mod_eq_of_lt hlen]
  refine contained_of_forall ?_
  simp only [imageImportChecks, List.mem_flatMap, List.mem_range]
  rintro check ⟨index, hindex, hcheck⟩
  have hrecord := hbody.record index hindex
  have hfields : AllGood Status.ok (imageFieldChecks m size header index) := by
    have hall : AllGood Status.ok (imageRecordChecks m size header index) :=
      allGood_recordChecks.mpr hrecord
    rw [imageRecordChecks, allGood_append] at hall
    exact hall.1
  obtain ⟨hnode, hdata, -, -⟩ := payload_of_fieldChecks hfields
  have hinside := payload_inside (by omega) (fun j hj ↦ hbody.record j (by omega)) hfields
  simp only [List.mem_cons, List.not_mem_nil, or_false] at hcheck
  have h16 : (16 : UInt32).toNat = 16 := rfl
  rcases hcheck with rfl | rfl | rfl
  · simp only [insideBuffer_iff, hsize, imageLength, imageDataOffset, imageTreeOffset]
    omega
  · simpa only [decide_eq_true_eq, UInt32.lt_iff_toNat_lt, h16] using hnode
  · simp only [decide_eq_true_eq, insideBuffer_iff, hsize, imageLength]
    omega

/-! ## Memory safety -/

/-- What keeps the reads of the validator inside. -/
structure ReadsInside (m : ℕ → UInt8) (size : UInt32) (header : ImageHeader) : Prop where
  /-- The sum of the regions does not wrap, or the validator refuses the image before it needs a
  byte behind the end: each record up to the first one that is refused is inside the buffer, and
  has no payload. -/
  records : imageLength header < 2 ^ 32 ∨ ∀ k < header.recordCount.toNat,
    (∀ j < k, RecordOk m header j) → 40 + 56 * (k + 1) ≤ size.toNat ∧
      (AllGood Status.ok (imageFieldChecks m size header k) → (imageRecordAt m k).dataSize = 0)
  /-- The first record that the second loop refuses, and the ones before, have a parent index
  below the width of the mask. -/
  shifts : (∀ k < header.recordCount.toNat, RecordOk m header k) →
    imageExpectedOffset m header.recordCount.toNat = header.dataBytes →
    ∀ k < header.recordCount.toNat, (∀ j < k, ParentOk m header j) →
      (imageRecordAt m k).nodeIndex ≠ 0 → (imageRecordAt m k).parentIndex.toNat < 32
  /-- No two siblings that are compared share a name of sixteen characters. -/
  names : (∀ k < header.recordCount.toNat, RecordOk m header k) →
    imageExpectedOffset m header.recordCount.toNat = header.dataBytes →
    (∀ k < header.recordCount.toNat, ParentOk m header k) →
    ∀ i j, i < j → j < header.recordCount.toNat → PairReached m header i j →
      ¬FullNamesMeet m i j

/-- Neither the validator nor the import goes out of bounds. -/
def MemorySafe (m : ℕ → UInt8) (size : UInt32) : Prop :=
  (∃ status, imageValidateGuarded m size = .ok status) ∧
    ∃ status, imageImportGuarded m size = .ok status

theorem contained_records_iff (h : HeaderOk header size) :
    Contained Status.ok ((List.range header.recordCount.toNat).flatMap
      (imageRecordChecks m size header)) ↔
      (imageLength header < 2 ^ 32 ∨ ∀ k < header.recordCount.toNat,
        (∀ j < k, RecordOk m header j) → 40 + 56 * (k + 1) ≤ size.toNat ∧
          (AllGood Status.ok (imageFieldChecks m size header k) →
            (imageRecordAt m k).dataSize = 0)) := by
  have hcount := h.count_le
  simp only [contained_flatMap_range, allGood_recordChecks]
  by_cases hlen : imageLength header < 2 ^ 32
  · -- without a wrap everything the header announces is in the buffer
    have hsize : size.toNat = imageLength header := by
      rw [h.toNat_size, Nat.mod_eq_of_lt hlen]
    refine iff_of_true ?_ (Or.inl hlen)
    intro k hk hbefore
    rw [contained_recordChecks (by omega), hsize]
    constructor
    · simp only [imageLength, imageDataOffset, imageTreeOffset]
      omega
    · intro hfields
      have hinside := payload_inside (by omega) hbefore hfields
      rw [insideBuffer_iff, hsize, imageLength]
      omega
  · -- with a wrap the buffer ends before the payloads begin
    have hbyte := header.dataBytes.toNat_lt
    have hend : size.toNat < imageDataOffset header := by
      have hleaf := h.leaf_le
      have hhashes := h.toNat_treeHashCount
      have hsum := h.toNat_size
      simp only [imageLength, imageDataOffset, imageTreeOffset] at hlen hsum ⊢
      omega
    simp only [hlen, false_or]
    refine forall_congr' fun k ↦ imp_congr_right fun hk ↦ imp_congr_right fun hbefore ↦ ?_
    rw [contained_recordChecks (by omega)]
    refine and_congr_right fun _ ↦ imp_congr_right fun _ ↦ ?_
    rw [insideBuffer_iff, ← UInt32.toNat_inj]
    constructor
    · rintro (hzero | hinside)
      · exact hzero
      · omega
    · exact Or.inl

theorem contained_imageChecks (h : HeaderOk header size) :
    Contained Status.ok (imageChecks m size header) ↔ ReadsInside m size header := by
  have hcount := h.count_le
  have e₁ : Status.einval ≠ Status.ok := by decide
  have hparents : Contained Status.ok ((List.range header.recordCount.toNat).flatMap
      (imageParentChecks m header)) ↔ ∀ k < header.recordCount.toNat,
        (∀ j < k, ParentOk m header j) → (imageRecordAt m k).nodeIndex ≠ 0 →
          (imageRecordAt m k).parentIndex.toNat < 32 := by
    simp only [contained_flatMap_range, allGood_parentChecks]
    refine forall_congr' fun k ↦ imp_congr_right fun hk ↦ imp_congr_right fun _ ↦ ?_
    exact contained_parentChecks h (by omega)
  simp only [imageChecks, contained_append, contained_records_iff h, allGood_flatMap,
    allGood_recordChecks, allGood_parentChecks, List.mem_range, hparents, contained_pairChecks h]
  simp only [AllGood, Contained, List.forall_mem_singleton, failWhen_eq_ok e₁,
    decide_eq_false_iff_not, ne_eq, not_not, implies_true, and_true, true_and]
  constructor
  · rintro ⟨hrecords, hrest⟩
    refine ⟨hrecords, fun hr hp ↦ (hrest hr hp).1, fun hr hp hpar ↦ ((hrest hr hp).2 hpar).1⟩
  · intro hinside
    refine ⟨hinside.records, fun hr hp ↦ ⟨hinside.shifts hr hp, fun hpar ↦
      ⟨hinside.names hr hp hpar, fun _ ↦ contained_treeChecks h (imageLength_lt h hr hp)⟩⟩⟩

/-- Only the validator can lead the import out of bounds. -/
theorem imageImportGuarded_returns (h : ∃ status, imageValidateGuarded m size = .ok status) :
    ∃ status, imageImportGuarded m size = .ok status := by
  obtain ⟨status, hvalidate⟩ := h
  have haccept := imageValidateGuarded_eq_ok hvalidate none
  rw [imageImportGuarded, hvalidate, ok_bind]
  by_cases hstatus : status = Status.ok
  · rw [if_neg (not_not.mpr hstatus)]
    rw [hstatus] at haccept
    obtain ⟨header, hload, hok, hbody⟩ := imageValidate_eq_ok.mp haccept
    rw [imageParseHeader_eq_some.mpr ⟨hload, hok⟩]
    exact runChecks_returns_iff.mpr (contained_importChecks hok hbody)
  · rw [if_pos hstatus]
    exact ⟨_, rfl⟩

/-- **The validator and the import stay inside** the buffer and their arrays exactly for the images
whose header, if it is accepted, describes reads inside. -/
theorem memorySafe_iff (m : ℕ → UInt8) (size : UInt32) : MemorySafe m size ↔
    ∀ header, imageParseHeader m size = some header → ReadsInside m size header := by
  have hvalidate : (∃ status, imageValidateGuarded m size = .ok status) ↔
      ∀ header, imageParseHeader m size = some header → ReadsInside m size header := by
    rw [imageValidateGuarded]
    cases hparse : imageParseHeader m size with
    | none => simp
    | some header =>
      have hok := (imageParseHeader_eq_some.mp hparse).2
      simp only [runChecks_returns_iff, contained_imageChecks hok, Option.some.injEq, forall_eq']
  rw [← hvalidate]
  exact ⟨And.left, fun h ↦ ⟨h, imageImportGuarded_returns h⟩⟩

/-- A header and nothing behind it. It announces one record, one hash, and a payload of
`2 ^ 32 - 60` bytes, which with the 100 bytes before it makes 40. -/
def wrappingImage : ℕ → UInt8 := fun i ↦
  (le32 imageMagic ++ le32 imageVersion ++ le32 40 ++ le32 1 ++ le32 56 ++ le32 1 ++ le32 1 ++
    le32 (0 - 60) ++ le32 0 ++ le32 40).getD i 0

theorem wrappingImage_not_safe : ¬MemorySafe wrappingImage 40 := by
  have hfault : imageValidateGuarded wrappingImage 40 = .error .outOfBounds := by
    decide +kernel
  rintro ⟨⟨status, hstatus⟩, -⟩
  rw [hfault] at hstatus
  cases hstatus

end TensorOS
