import TensorOS.Image.ValidateSpec

/-!
# Tampering with an accepted image

Changing any one byte of an accepted image makes the validator reject it. Every byte of the image is
read by some check: the header words are constants, determined by the other words, or the root hash
of the tree; a record is covered by its object hash; a tree word is a record's hash or the hash of
the two words below it; and the payload is covered by the data hashes of the records.
-/

namespace TensorOS

variable {m : ℕ → UInt8} {header : ImageHeader} {size : UInt32}

/-! ## Sizes -/

theorem BodyOk.dataSize_le (h : BodyOk m header) {k : ℕ} (hk : k < header.recordCount.toNat) :
    (imageRecordAt m k).dataSize.toNat ≤ 256 := by
  have hr := h.record k hk
  rcases hr.kind with hd | hreg
  · rw [hr.dir_size hd]
    simp
  · rw [hr.reg_size hreg]
    exact hr.size_le

theorem BodyOk.expectedOffset_le (h : BodyOk m header) {k : ℕ}
    (hk : k ≤ header.recordCount.toNat) : (imageExpectedOffset m k).toNat ≤ 256 * k := by
  induction k with
  | zero => simp [imageExpectedOffset]
  | succ k ih =>
    have hprev := ih (by omega)
    have hsize := h.dataSize_le (k := k) (by omega)
    rw [imageExpectedOffset, UInt32.toNat_add]
    omega

theorem BodyOk.expectedOffset_succ (h : BodyOk m header) (hcount : header.recordCount.toNat ≤ 16)
    {k : ℕ} (hk : k < header.recordCount.toNat) : (imageExpectedOffset m (k + 1)).toNat
      = (imageExpectedOffset m k).toNat + (imageRecordAt m k).dataSize.toNat := by
  have hprev := h.expectedOffset_le (Nat.le_of_lt hk)
  have hsize := h.dataSize_le hk
  rw [imageExpectedOffset, UInt32.toNat_add]
  omega

theorem Accepted.dataBytes_le (h : Accepted m size header) : header.dataBytes.toNat ≤ 4096 := by
  have hle := h.body.expectedOffset_le le_rfl
  have hcount := h.head.count_le
  rw [h.body.payload] at hle
  omega

/-- The size of an accepted image, in exact arithmetic. -/
theorem Accepted.size_eq (h : Accepted m size header) :
    size.toNat = imageDataOffset header + header.dataBytes.toNat := by
  have hd := h.dataBytes_le
  have hc := h.head.count_le
  have hl := h.head.leaf_le
  have ht := h.head.toNat_treeHashCount
  have h₁ : imageHeaderBytes.toNat = 40 := rfl
  have h₂ : imageRecordBytes.toNat = 56 := rfl
  have h₃ : (4 : UInt32).toNat = 4 := rfl
  rw [← h.head.size_eq, h.head.total, h.head.headerBytes, h.head.recordBytes, imageDataOffset,
    imageTreeOffset]
  simp only [UInt32.toNat_add, UInt32.toNat_mul, h₁, h₂, h₃]
  omega

theorem BodyOk.exists_record (h : BodyOk m header) (hcount : header.recordCount.toNat ≤ 16)
    {p k : ℕ} (hk : k ≤ header.recordCount.toNat) (hp : p < (imageExpectedOffset m k).toNat) :
    ∃ r < k, (imageExpectedOffset m r).toNat ≤ p ∧
      p < (imageExpectedOffset m r).toNat + (imageRecordAt m r).dataSize.toNat := by
  induction k with
  | zero => simp [imageExpectedOffset] at hp
  | succ k ih =>
    rw [h.expectedOffset_succ hcount (by omega)] at hp
    by_cases hlt : p < (imageExpectedOffset m k).toNat
    · obtain ⟨r, hr, hrange⟩ := ih (by omega) hlt
      exact ⟨r, by omega, hrange⟩
    · exact ⟨k, by omega, by omega, hp⟩

/-! ## Hashes over memory -/

/-- The object hash of a record in memory is the hash of its bytes, the hash word left out. -/
theorem imageObjectHash_readRecord (m : ℕ → UInt8) (a : ℕ) :
    imageObjectHash (imageReadRecord m a)
      = fnv imageHashEmpty (bytesAt m a 36 ++ bytesAt m (a + 40) 16) := by
  have hwords : bytesAt m a 36 = bytesAt m a 4 ++ (bytesAt m (a + 4) 4 ++ (bytesAt m (a + 8) 4 ++
      (bytesAt m (a + 12) 4 ++ (bytesAt m (a + 16) 4 ++ (bytesAt m (a + 20) 4 ++
      (bytesAt m (a + 24) 4 ++ (bytesAt m (a + 28) 4 ++ bytesAt m (a + 32) 4))))))) := by
    simp only [← bytesAt_append]
  rw [hwords]
  simp only [imageObjectHash, imageReadRecord, imageHashU32, le32_load32, ← fnv_append,
    List.append_assoc]
  rfl

/-- A hash over memory notices the change of one byte in its range. -/
theorem fnv_bytesAt_update_ne {i a n : ℕ} {b : UInt8} (hb : b ≠ m i) (ha : a ≤ i) (hn : i < a + n)
    (h : UInt32) : fnv h (bytesAt (Function.update m i b) a n) ≠ fnv h (bytesAt m a n) := by
  refine fnv_ne_of_getElem_ne (i := i - a) (by simp) ?_ fun j hj ↦ ?_
  · rw [getElem?_bytesAt, getElem?_bytesAt, if_pos (by omega), if_pos (by omega),
      Nat.add_sub_cancel' ha, Function.update_self]
    simpa using hb
  · rw [getElem?_bytesAt, getElem?_bytesAt]
    rw [Function.update_of_ne (by omega)]

theorem load32_update_of_not_mem {i a : ℕ} {b : UInt8} (h : i < a ∨ a + 4 ≤ i) :
    load32 (Function.update m i b) a = load32 m a := by
  rw [load32, load32, Function.update_of_ne (by omega), Function.update_of_ne (by omega),
    Function.update_of_ne (by omega), Function.update_of_ne (by omega)]

theorem load32_update_ne {i a : ℕ} {b : UInt8} (hb : b ≠ m i) (ha : a ≤ i) (hn : i < a + 4) :
    load32 (Function.update m i b) a ≠ load32 m a := by
  intro heq
  have hbytes := congrArg le32 heq
  rw [le32_load32, le32_load32] at hbytes
  exact fnv_bytesAt_update_ne hb ha hn 0 (congrArg (fnv 0) hbytes)

theorem bytesAt_update_of_not_mem {i a n : ℕ} {b : UInt8} (h : i < a ∨ a + n ≤ i) :
    bytesAt (Function.update m i b) a n = bytesAt m a n :=
  bytesAt_congr fun k h₁ h₂ ↦ Function.update_of_ne (by omega) ..

/-- A record outside the changed byte is read as before. -/
theorem imageReadRecord_update_of_not_mem {i a : ℕ} {b : UInt8} (h : i < a ∨ a + 56 ≤ i) :
    imageReadRecord (Function.update m i b) a = imageReadRecord m a := by
  have hname : (fun k : Fin 16 ↦ Function.update m i b (a + 40 + k))
      = fun k : Fin 16 ↦ m (a + 40 + k) := by
    funext k
    exact Function.update_of_ne (by omega) ..
  simp only [imageReadRecord, hname]
  congr 1 <;> exact load32_update_of_not_mem (by omega)

/-- A changed byte in a record contradicts its object hash. -/
theorem imageReadRecord_update_hash {i a : ℕ} {b : UInt8} (hb : b ≠ m i) (ha : a ≤ i)
    (hn : i < a + 56)
    (hok : imageObjectHash (imageReadRecord m a) = (imageReadRecord m a).objectHash) :
    imageObjectHash (imageReadRecord (Function.update m i b) a)
      ≠ (imageReadRecord (Function.update m i b) a).objectHash := by
  rw [imageObjectHash_readRecord] at hok ⊢
  have hword : ∀ x : ℕ → UInt8, (imageReadRecord x a).objectHash = load32 x (a + 36) := fun _ ↦ rfl
  rw [hword] at hok ⊢
  by_cases h₁ : i < a + 36
  · -- a hashed word changed, the name and the stored hash did not
    rw [load32_update_of_not_mem (by omega), ← hok, fnv_append, fnv_append,
      bytesAt_update_of_not_mem (a := a + 40) (by omega)]
    exact fun heq ↦ fnv_bytesAt_update_ne hb ha h₁ _ (fnv_left_injective _ heq)
  · by_cases h₂ : i < a + 40
    · rw [bytesAt_update_of_not_mem (by omega), bytesAt_update_of_not_mem (by omega), hok]
      exact (load32_update_ne hb (by omega) (by omega)).symm
    · rw [load32_update_of_not_mem (by omega), ← hok, fnv_append, fnv_append,
        bytesAt_update_of_not_mem (by omega)]
      exact fnv_bytesAt_update_ne hb (by omega) (by omega) _

/-! ## The four regions -/

/-- Two headers for one size: the words that are no constants determine each other. -/
theorem HeaderOk.sum_eq {header' : ImageHeader} (h : HeaderOk header size)
    (h' : HeaderOk header' size) :
    header.recordCount * imageRecordBytes + header.treeHashCount * 4 + header.dataBytes
      = header'.recordCount * imageRecordBytes + header'.treeHashCount * 4 + header'.dataBytes := by
  have hsum := h.total.symm.trans (h.size_eq.trans (h'.size_eq.symm.trans h'.total))
  rw [h.headerBytes, h.recordBytes, h'.headerBytes, h'.recordBytes] at hsum
  simpa only [add_assoc, add_right_inj] using hsum

theorem HeaderOk.recordCount_eq {header' : ImageHeader} (h : HeaderOk header size)
    (h' : HeaderOk header' size) (htree : header.treeHashCount = header'.treeHashCount)
    (hdata : header.dataBytes = header'.dataBytes) : header.recordCount = header'.recordCount := by
  have hsmall : ∀ a b : ℕ, a ≤ 16 → b ≤ 16 → a * 56 % 2 ^ 32 = b * 56 % 2 ^ 32 → a = b := by
    intro a b ha hb hab
    rw [Nat.mod_eq_of_lt (by omega), Nat.mod_eq_of_lt (by omega)] at hab
    exact Nat.eq_of_mul_eq_mul_right (by decide) hab
  have hsum := h.sum_eq h'
  rw [htree, hdata, add_left_inj, add_left_inj] at hsum
  have hmul := congrArg UInt32.toNat hsum
  rw [UInt32.toNat_mul, UInt32.toNat_mul] at hmul
  exact UInt32.toNat_inj.mp (hsmall _ _ h.count_le h'.count_le hmul)

theorem HeaderOk.treeLeafCount_eq {header' : ImageHeader} (h : HeaderOk header size)
    (h' : HeaderOk header' size) (htree : header.treeHashCount = header'.treeHashCount) :
    header.treeLeafCount = header'.treeLeafCount := by
  have hcount := h.toNat_treeHashCount
  have hcount' := h'.toNat_treeHashCount
  have hpos : header.treeLeafCount.toNat ≠ 0 := fun h0 ↦ h.leaf_ne (UInt32.toNat_inj.mp h0)
  have hpos' : header'.treeLeafCount.toNat ≠ 0 := fun h0 ↦ h'.leaf_ne (UInt32.toNat_inj.mp h0)
  rw [← htree] at hcount'
  exact UInt32.toNat_inj.mp (by omega)

theorem HeaderOk.dataBytes_eq {header' : ImageHeader} (h : HeaderOk header size)
    (h' : HeaderOk header' size) (hcount : header.recordCount = header'.recordCount)
    (htree : header.treeHashCount = header'.treeHashCount) :
    header.dataBytes = header'.dataBytes := by
  have hsum := h.sum_eq h'
  rwa [hcount, htree, add_right_inj] at hsum

theorem Accepted.update_header (h : Accepted m size header) {i : ℕ} (hi : i < 40) {b : UInt8}
    (hb : b ≠ m i) {header' : ImageHeader} : ¬Accepted (Function.update m i b) size header' := by
  intro h'
  obtain rfl := h.loaded
  obtain rfl := h'.loaded
  -- the word the byte belongs to has changed, and no other word has
  have hkeep : ∀ a, i < a ∨ a + 4 ≤ i →
      load32 (Function.update m i b) a = load32 m a := fun a ↦ load32_update_of_not_mem
  have hchange : ∀ a, a ≤ i → i < a + 4 →
      load32 (Function.update m i b) a ≠ load32 m a := fun a ↦ load32_update_ne hb
  -- one word of the header after the other
  rcases lt_or_ge i 4 with hw | h₄
  · exact hchange 0 (by omega) hw (h'.head.magic.trans h.head.magic.symm)
  rcases lt_or_ge i 8 with hw | h₈
  · exact hchange 4 h₄ hw (h'.head.version.trans h.head.version.symm)
  rcases lt_or_ge i 12 with hw | h₁₂
  · exact hchange 8 h₈ hw (h'.head.headerBytes.trans h.head.headerBytes.symm)
  rcases lt_or_ge i 16 with hw | h₁₆
  · exact hchange 12 h₁₂ hw
      (h'.head.recordCount_eq h.head (hkeep 24 (by omega)) (hkeep 28 (by omega)))
  rcases lt_or_ge i 20 with hw | h₂₀
  · exact hchange 16 h₁₆ hw (h'.head.recordBytes.trans h.head.recordBytes.symm)
  rcases lt_or_ge i 24 with hw | h₂₄
  · exact hchange 20 h₂₀ hw (h'.head.treeLeafCount_eq h.head (hkeep 24 (by omega)))
  rcases lt_or_ge i 28 with hw | h₂₈
  · have hleaf : (imageLoadHeader (Function.update m i b)).treeLeafCount
        = (imageLoadHeader m).treeLeafCount := hkeep 20 (by omega)
    refine hchange 24 h₂₄ hw (h'.head.hash_count.trans ?_)
    rw [hleaf]
    exact h.head.hash_count.symm
  rcases lt_or_ge i 32 with hw | h₃₂
  · exact hchange 28 h₂₈ hw
      (h'.head.dataBytes_eq h.head (hkeep 12 (by omega)) (hkeep 24 (by omega)))
  rcases lt_or_ge i 36 with hw | h₃₆
  · -- the root hash is the first word of the tree, which has not changed
    have hcount : (imageLoadHeader (Function.update m i b)).recordCount
        = (imageLoadHeader m).recordCount := hkeep 12 (by omega)
    have hroot := h.body.tree.root
    have hroot' := h'.body.tree.root
    rw [imageTreeAt, imageTreeOffset] at hroot hroot'
    rw [hkeep _ (by omega), hcount] at hroot'
    exact hchange 32 h₃₂ hw (hroot'.symm.trans hroot)
  · exact hchange 36 h₃₆ hi (h'.head.size_eq.trans h.head.size_eq.symm)

theorem Accepted.update_loaded (h : Accepted m size header) {i : ℕ} (hi : 40 ≤ i) {b : UInt8}
    {header' : ImageHeader} (h' : Accepted (Function.update m i b) size header') :
    header' = header := by
  rw [h.loaded, h'.loaded]
  simp only [imageLoadHeader]
  congr 1 <;> exact load32_update_of_not_mem (by omega)

theorem Accepted.update_record (h : Accepted m size header) {i : ℕ} (hi : 40 ≤ i)
    (hend : i < imageTreeOffset header) {b : UInt8} (hb : b ≠ m i) :
    ¬Accepted (Function.update m i b) size header := by
  intro h'
  rw [imageTreeOffset] at hend
  have hr : (i - 40) / 56 < header.recordCount.toNat := by omega
  exact imageReadRecord_update_hash hb (a := 40 + 56 * ((i - 40) / 56)) (by omega) (by omega)
    (h.body.record _ hr).object_hash (h'.body.record _ hr).object_hash

theorem imageRecordAt_update {i k : ℕ} {b : UInt8} (hi : imageTreeOffset header ≤ i)
    (hk : k < header.recordCount.toNat) :
    imageRecordAt (Function.update m i b) k = imageRecordAt m k := by
  rw [imageTreeOffset] at hi
  exact imageReadRecord_update_of_not_mem (by omega)

theorem Accepted.update_tree (h : Accepted m size header) {i : ℕ}
    (hi : imageTreeOffset header ≤ i) (hend : i < imageDataOffset header) {b : UInt8}
    (hb : b ≠ m i) : ¬Accepted (Function.update m i b) size header := by
  intro h'
  rw [imageDataOffset] at hend
  have hword : (i - imageTreeOffset header) / 4 < header.treeHashCount.toNat := by omega
  generalize hw : (i - imageTreeOffset header) / 4 = w at hword
  have hchange : imageTreeAt (Function.update m i b) header w ≠ imageTreeAt m header w :=
    load32_update_ne hb (by omega) (by omega)
  have hkeep : ∀ k, k ≠ w → imageTreeAt (Function.update m i b) header k
      = imageTreeAt m header k := fun k hk ↦ load32_update_of_not_mem (by omega)
  have hcount := h.head.toNat_treeHashCount
  by_cases hleaf : header.treeHashCount.toNat - header.treeLeafCount.toNat ≤ w
  · obtain ⟨k, rfl⟩ := Nat.exists_eq_add_of_le hleaf
    apply hchange
    rw [h.body.tree.leaf k (by omega), h'.body.tree.leaf k (by omega)]
    by_cases hk : k < header.recordCount.toNat
    · rw [if_pos hk, if_pos hk, imageRecordAt_update hi hk]
    · rw [if_neg hk, if_neg hk]
  · apply hchange
    rw [h.body.tree.inner w (by omega), h'.body.tree.inner w (by omega), hkeep _ (by omega),
      hkeep _ (by omega)]

theorem Accepted.update_payload (h : Accepted m size header) {i : ℕ}
    (hi : imageDataOffset header ≤ i) (hend : i < size.toNat) {b : UInt8} (hb : b ≠ m i) :
    ¬Accepted (Function.update m i b) size header := by
  intro h'
  rw [h.size_eq] at hend
  have hpayload := h.body.payload
  obtain ⟨r, hr, hlo, hhi⟩ := h.body.exists_record h.head.count_le le_rfl
    (p := i - imageDataOffset header) (by rw [hpayload]; omega)
  have hsame : imageRecordAt (Function.update m i b) r = imageRecordAt m r :=
    imageRecordAt_update (by rw [imageDataOffset] at hi; omega) hr
  have hhash := (h.body.record r hr).data_hash
  have hhash' := (h'.body.record r hr).data_hash
  rw [hsame] at hhash'
  have hoff := (h.body.record r hr).offset_eq
  rw [← hoff] at hlo hhi
  exact fnv_bytesAt_update_ne hb (by omega) (by omega) _ (hhash'.trans hhash.symm)

/-- **Tamper detection.** No image that differs from an accepted one in exactly one byte is
accepted. -/
theorem Accepted.not_accepted_update (h : Accepted m size header) {i : ℕ} (hi : i < size.toNat)
    {b : UInt8} (hb : b ≠ m i) (header' : ImageHeader) :
    ¬Accepted (Function.update m i b) size header' := by
  by_cases h₁ : i < 40
  · exact h.update_header h₁ hb
  intro h'
  obtain rfl := h.update_loaded (by omega) h'
  by_cases h₂ : i < imageTreeOffset header'
  · exact h.update_record (by omega) h₂ hb h'
  by_cases h₃ : i < imageDataOffset header'
  · exact h.update_tree (by omega) h₃ hb h'
  · exact h.update_payload (by omega) hi hb h'

end TensorOS
