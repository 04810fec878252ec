import TensorOS.Fs.ValidateSpec
import TensorOS.Image.ValidateSpec

/-!
# What an import builds

The records of an accepted image have increasing node indices below sixteen, so the import loop
fills each node at most once and the file system it builds is given by `Imported`: the node of each
record, and cleared nodes elsewhere. That file system passes every check of the file-system
validator but one. Names are cut to fifteen characters on import, while the image validator compares
them over sixteen bytes, so two names may become equal; `importAtomic_iff` says that this is the
only way for an import to fail after it has replaced the old contents.
-/

namespace TensorOS

variable {m : ℕ → UInt8} {header : ImageHeader} {size : UInt32}

/-! ## Nodes by record -/

/-- The node a record is about. -/
def imageNodeAt (m : ℕ → UInt8) (k : ℕ) : Fin 16 :=
  Fin.ofNat 16 (imageRecordAt m k).nodeIndex.toNat

theorem BodyOk.val_imageNodeAt (h : BodyOk m header) {k : ℕ} (hk : k < header.recordCount.toNat) :
    (imageNodeAt m k : ℕ) = (imageRecordAt m k).nodeIndex.toNat := by
  rw [imageNodeAt, Fin.val_ofNat]
  exact Nat.mod_eq_of_lt (h.record k hk).index_lt

theorem BodyOk.imageNodeAt_inj (h : BodyOk m header) {i j : ℕ}
    (hi : i < header.recordCount.toNat) (hj : j < header.recordCount.toNat)
    (heq : imageNodeAt m i = imageNodeAt m j) : i = j := by
  have hval := congrArg Fin.val heq
  rw [h.val_imageNodeAt hi, h.val_imageNodeAt hj] at hval
  exact h.increasing.eq_of_nodeIndex hi hj (UInt32.toNat_inj.mp hval)

/-! ## The loop -/

/-- The file system the first `n` records make. -/
structure Imported (m : ℕ → UInt8) (header : ImageHeader) (n : ℕ) (fs : RuntimeFs) : Prop where
  slots : fs.openFiles = fun _ ↦ RuntimeFsOpenFile.zero
  loaded : ∀ k < n, fs.nodes (imageNodeAt m k) = imageLoadNode m (imageDataOffset header)
    (imageRecordAt m k) (imageWiped.nodes (imageNodeAt m k))
  cleared : ∀ i, (∀ k < n, imageNodeAt m k ≠ i) → fs.nodes i = imageWiped.nodes i

theorem BodyOk.imageImport_loop (h : BodyOk m header) {n : ℕ}
    (hn : n ≤ header.recordCount.toNat) : ∃ fs, Imported m header n fs ∧
      (List.range n).foldlM (imageImportRecord m header) imageWiped = .ok fs := by
  induction n with
  | zero =>
    exact ⟨imageWiped, ⟨rfl, fun k hk ↦ absurd hk (by omega), fun _ _ ↦ rfl⟩, rfl⟩
  | succ n ih =>
    obtain ⟨fs, hfs, hrun⟩ := ih (by omega)
    have hrec := h.record n (by omega)
    have hnew : ∀ k < n, imageNodeAt m k ≠ imageNodeAt m n := fun k hk heq ↦
      absurd (h.imageNodeAt_inj (by omega) (by omega) heq) (by omega)
    have hindex : nodeIndexOf (imageRecordAt m n).nodeIndex = .ok (imageNodeAt m n) := by
      rw [nodeIndexOf_eq_ok hrec.index_lt]
      exact congrArg Except.ok (Fin.ext (h.val_imageNodeAt (by omega)).symm)
    have hsize : ¬256 < (imageRecordAt m n).dataSize.toNat := by
      rcases hrec.kind with hd | hreg
      · rw [hrec.dir_size hd]
        simp
      · rw [hrec.reg_size hreg]
        exact Nat.not_lt.mpr hrec.size_le
    refine ⟨fs.setNode (imageNodeAt m n) (imageLoadNode m (imageDataOffset header)
      (imageRecordAt m n) (fs.nodes (imageNodeAt m n))), ⟨hfs.slots, fun k hk ↦ ?_,
      fun i hi ↦ ?_⟩, ?_⟩
    · rcases Nat.lt_or_eq_of_le (Nat.lt_succ_iff.mp hk) with hlt | rfl
      · rw [RuntimeFs.setNode_nodes_of_ne (hnew k hlt)]
        exact hfs.loaded k hlt
      · rw [RuntimeFs.setNode_nodes_self, hfs.cleared _ hnew]
    · rw [RuntimeFs.setNode_nodes_of_ne (hi n (by omega)).symm]
      exact hfs.cleared i fun k hk ↦ hi k (by omega)
    · rw [List.range_succ, List.foldlM_append, hrun, ok_bind]
      simp only [List.foldlM_cons, List.foldlM_nil, imageImportRecord, hindex, ok_bind, hsize,
        if_false]
      rfl

/-! ## Names -/

theorem imageCopyName_eq (src : Fin 16 → UInt8) :
    imageCopyName src = copyName (fun _ ↦ 0) (List.ofFn src) := by
  funext i
  rw [imageCopyName, copyName]
  by_cases hi : (i : ℕ) < min (cstr (List.ofFn src)).length 15
  · have hlt : (i : ℕ) < (cstr (List.ofFn src)).length := by omega
    have hget : (cstr (List.ofFn src))[(i : ℕ)] = src i := by
      have hpre : (List.ofFn src)[(i : ℕ)]? = some (cstr (List.ofFn src))[(i : ℕ)] :=
        List.getElem?_eq_some_iff.mpr ⟨by simp, (List.IsPrefix.getElem
          (List.takeWhile_prefix _) hlt).symm⟩
      rw [List.getElem?_ofFn, dif_pos i.isLt] at hpre
      exact (Option.some.inj hpre).symm
    simp only [hi, if_true, List.getD_eq_getElem?_getD, List.getElem?_eq_getElem hlt, hget,
      Option.getD_some]
  · simp only [hi, if_false, ite_self]

/-- An imported name is the text of the record, cut to fifteen characters. -/
theorem cstr_imageCopyName (src : Fin 16 → UInt8) :
    cstr (List.ofFn (imageCopyName src)) = (cstr (List.ofFn src)).take 15 := by
  rw [imageCopyName_eq, cstr_copyName]

theorem imageCopyName_zero {src : Fin 16 → UInt8} (h : src 0 ≠ 0) :
    imageCopyName src 0 = src 0 := by
  have hlen : 0 < (cstr (List.ofFn src)).length := by
    rw [List.ofFn_succ, cstr_cons_of_ne h]
    simp
  rw [imageCopyName, if_pos (by simpa using hlen)]

/-! ## The imported file system is sane -/

section Imported

variable {fs : RuntimeFs}

theorem Imported.exists_record {n : ℕ} (hfs : Imported m header n fs) {i : Fin 16}
    (hu : (fs.nodes i).used ≠ 0) : ∃ k < n, imageNodeAt m k = i := by
  by_contra! hno
  rw [hfs.cleared i hno] at hu
  exact hu rfl

theorem Imported.used {n k : ℕ} (hfs : Imported m header n fs) (hk : k < n) :
    (fs.nodes (imageNodeAt m k)).used ≠ 0 := by
  rw [hfs.loaded k hk]
  exact UInt32.zero_ne_one.symm

theorem Imported.parent_eq {n k : ℕ} (hfs : Imported m header n fs) (hk : k < n) :
    (fs.nodes (imageNodeAt m k)).parent
      = Fin.ofNat 16 (imageRecordAt m k).parentIndex.toNat := by
  rw [hfs.loaded k hk]
  rfl

/-- An accepted parent walk is a chain of parents in the imported file system. -/
theorem Imported.rooted_of_chain (h : BodyOk m header)
    (hfs : Imported m header header.recordCount.toNat fs) {left : ℕ} {current : UInt32}
    (hchain : imageChainStatus (imageRecords m header) left current = Status.ok) :
    Rooted (fun j ↦ (fs.nodes j).parent) 0 (Fin.ofNat 16 current.toNat) := by
  induction left generalizing current with
  | zero =>
    by_cases h0 : current = 0
    · rw [h0]
      exact .root
    · exact absurd hchain (imageChainStatus_exhausted h0)
  | succ left ih =>
    by_cases h0 : current = 0
    · rw [h0]
      exact .root
    cases hfind : (imageFindRecord (imageRecords m header) current).bind
        fun i ↦ (imageRecords m header)[i]? with
    | none => exact absurd hchain (imageChainStatus_missing h0 hfind)
    | some record =>
      rw [imageChainStatus_found h0 hfind] at hchain
      obtain ⟨k, hk, rfl, rfl⟩ := h.increasing.find_eq_some.mp hfind
      have hne : imageNodeAt m k ≠ 0 := by
        intro hz
        have hval := h.val_imageNodeAt hk
        rw [hz] at hval
        exact h0 (UInt32.toNat_inj.mp hval.symm)
      refine .step hne ?_
      have hpar := hfs.parent_eq hk
      rw [imageNodeAt] at hpar
      simp only [hpar]
      exact ih hchain

/-- The node of a record below the root passes the checks of the file-system validator. -/
theorem Imported.saneNode (h : BodyOk m header)
    (hfs : Imported m header header.recordCount.toNat fs) {k : ℕ}
    (hk : k < header.recordCount.toNat) (hne : imageNodeAt m k ≠ 0) :
    SaneNode fs (imageNodeAt m k) := by
  have hrec := h.record k hk
  have hindex : (imageRecordAt m k).nodeIndex ≠ 0 := fun h0 ↦ hne (by rw [imageNodeAt, h0]; rfl)
  have hk0 : k ≠ 0 := fun h0 ↦ hindex (hrec.first h0)
  obtain ⟨parent, hfind, hdir⟩ := (h.parent k hk).parent_dir hindex
  obtain ⟨j, hj, hjk, rfl⟩ := h.increasing.find_eq_some.mp hfind
  have hparent : (fs.nodes (imageNodeAt m k)).parent = imageNodeAt m j := by
    rw [hfs.parent_eq hk, ← hjk]
    rfl
  have hnode := hfs.loaded k hk
  refine ⟨?_, ?_, ?_, ?_, ?_, ?_, ?_, ?_⟩
  · rw [hnode]
    exact hrec.kind
  · rw [hnode]
    have hname := (hrec.name_ne hk0).1
    rwa [← imageCopyName_zero hname] at hname
  · rw [hnode]
    have hterm := copyName_terminated (fun _ ↦ 0) (List.ofFn (imageRecordAt m k).name)
    rwa [← imageCopyName_eq] at hterm
  · have hlt := (h.record j hj).index_lt
    rw [hjk] at hlt
    rw [hnode]
    exact hlt
  · rw [hparent]
    exact hfs.used hj
  · rw [hparent, hfs.loaded j hj]
    exact hdir
  · rw [hnode]
    exact hrec.size_le
  · exact hfs.rooted_of_chain h (h.parent k hk).chain

theorem Imported.sane (h : BodyOk m header) (hcount : header.recordCount ≠ 0)
    (hfs : Imported m header header.recordCount.toNat fs) : Sane fs := by
  have hpos : 0 < header.recordCount.toNat := by
    refine Nat.pos_of_ne_zero fun h0 ↦ hcount (UInt32.toNat_inj.mp h0)
  have hrec := h.record 0 hpos
  have hzero : imageNodeAt m 0 = 0 := by
    rw [imageNodeAt, hrec.first rfl]
    rfl
  have hroot := hfs.loaded 0 hpos
  rw [hzero] at hroot
  refine ⟨?_, fun i hi hu ↦ ?_, fun s hs ↦ ?_⟩
  · have hname := hrec.root_name rfl
    refine ⟨?_, ?_, ?_, ?_, ?_⟩
    · rw [hroot]
      exact UInt32.zero_ne_one.symm
    · rw [hroot]
      exact hrec.root_dir rfl
    · rw [hroot]
      exact hrec.root_parent rfl
    · rw [hroot]
      have hslash : (imageRecordAt m 0).name 0 ≠ 0 := by
        rw [hname.1]
        decide
      exact (imageCopyName_zero hslash).trans hname.1
    · rw [hroot]
      have hcstr : cstr (List.ofFn (imageRecordAt m 0).name) = [slash] := by
        rw [List.ofFn_succ, List.ofFn_succ, cstr_cons_of_ne (by rw [hname.1]; decide), hname.1]
        have h1 : (imageRecordAt m 0).name (Fin.succ 0) = 0 := hname.2
        rw [h1, cstr_cons_zero]
      simp only [imageLoadNode, imageCopyName, hcstr]
      rfl
  · obtain ⟨k, hk, rfl⟩ := hfs.exists_record hu
    exact hfs.saneNode h hk hi
  · rw [hfs.slots] at hs
    exact absurd rfl hs

/-! ## Names that clash -/

/-- Two records below the root with the same parent and names that agree once they are cut to
fifteen characters. -/
def NamesClash (m : ℕ → UInt8) (header : ImageHeader) : Prop :=
  ∃ i j, 0 < i ∧ i < j ∧ j < header.recordCount.toNat ∧
    (imageRecordAt m i).parentIndex = (imageRecordAt m j).parentIndex ∧
    (cstr (List.ofFn (imageRecordAt m i).name)).take 15
      = (cstr (List.ofFn (imageRecordAt m j).name)).take 15

theorem Imported.text_eq {n k : ℕ} (hfs : Imported m header n fs) (hk : k < n) :
    (fs.nodes (imageNodeAt m k)).text = (cstr (List.ofFn (imageRecordAt m k).name)).take 15 := by
  rw [hfs.loaded k hk]
  exact cstr_imageCopyName _

theorem BodyOk.imageNodeAt_lt (h : BodyOk m header) {i j : ℕ} (hi : i < header.recordCount.toNat)
    (hj : j < header.recordCount.toNat) : imageNodeAt m i < imageNodeAt m j ↔ i < j := by
  rw [Fin.lt_def, h.val_imageNodeAt hi, h.val_imageNodeAt hj]
  constructor
  · intro hlt
    by_contra hge
    rcases Nat.lt_or_eq_of_le (Nat.not_lt.mp hge) with hji | rfl
    · exact absurd (h.increasing j i hji hi) (by omega)
    · omega
  · exact fun hij ↦ h.increasing i j hij hj

/-- Repeated sibling names in the imported file system are clashing names in the image. -/
theorem Imported.collides_iff (h : BodyOk m header)
    (hfs : Imported m header header.recordCount.toNat fs) :
    (∃ i j, i ≠ 0 ∧ (fs.nodes i).used ≠ 0 ∧ Collides fs i j) ↔ NamesClash m header := by
  have hzero : 0 < header.recordCount.toNat → imageNodeAt m 0 = 0 := fun hpos ↦ by
    rw [imageNodeAt, (h.record 0 hpos).first rfl]
    rfl
  have hpar : ∀ k, k < header.recordCount.toNat →
      (fs.nodes (imageNodeAt m k)).parentIndex = (imageRecordAt m k).parentIndex := fun k hk ↦ by
    rw [hfs.loaded k hk]
    rfl
  constructor
  · rintro ⟨_, _, hne, hui, hlt, huj, hp, ht⟩
    obtain ⟨i, hi, rfl⟩ := hfs.exists_record hui
    obtain ⟨j, hj, rfl⟩ := hfs.exists_record huj
    rw [hpar i hi, hpar j hj] at hp
    rw [hfs.text_eq hi, hfs.text_eq hj] at ht
    have hpos : 0 < i := by
      refine Nat.pos_of_ne_zero fun h0 ↦ hne ?_
      rw [h0]
      exact hzero (by omega)
    exact ⟨i, j, hpos, (h.imageNodeAt_lt hi hj).mp hlt, hj, hp.symm, ht.symm⟩
  · rintro ⟨i, j, hpos, hij, hj, hp, ht⟩
    have hi : i < header.recordCount.toNat := by omega
    refine ⟨imageNodeAt m i, imageNodeAt m j, fun h0 ↦ ?_, hfs.used hi,
      (h.imageNodeAt_lt hi hj).mpr hij, hfs.used hj, ?_, ?_⟩
    · have := h.imageNodeAt_inj hi (by omega) (h0.trans (hzero (by omega)).symm)
      omega
    · rw [hpar i hi, hpar j hj, hp]
    · rw [hfs.text_eq hi, hfs.text_eq hj, ht]

/-! ## All or nothing -/

/-- **An accepted image** replaces the file system by the one its records describe, and the answer
is OK unless names clash. -/
theorem imageImport_accepted (h : Accepted m size header) (prior : RuntimeFs)
    (layout : Option ImageLayout) : ∃ fs status layout',
      Imported m header header.recordCount.toNat fs ∧ runtimeFsValidate fs = .ok status ∧
      imageImport prior (some m) size layout = .ok (status, fs, layout') ∧
      (NamesClash m header ∧ status = Status.eexist ∨
        ¬NamesClash m header ∧ status = Status.ok) := by
  obtain ⟨fs, hfs, hloop⟩ := h.body.imageImport_loop le_rfl
  have haccept : (imageValidate (some m) size layout).1 = Status.ok :=
    imageValidate_eq_ok.mpr ⟨header, h⟩
  have hparse := imageParseHeader_eq_some.mpr ⟨h.loaded, h.head⟩
  have hvalid := (hfs.sane h.body h.head.count_ne).runtimeFsValidate_eq
  have hrun : imageImport prior (some m) size layout = (do
      let status ← runtimeFsValidate fs
      .ok (status, fs, (imageValidate (some m) size layout).2)) := by
    unfold imageImport
    dsimp only
    rw [if_neg (not_not.mpr haccept), hparse]
    dsimp only
    rw [hloop, ok_bind]
  rw [hvalid, ok_bind] at hrun
  refine ⟨fs, _, _, hfs, hvalid, hrun, ?_⟩
  by_cases hclash : NamesClash m header
  · exact Or.inl ⟨hclash, if_pos ((hfs.collides_iff h.body).mpr hclash)⟩
  · exact Or.inr ⟨hclash, if_neg fun hc ↦ hclash ((hfs.collides_iff h.body).mp hc)⟩

theorem imageImport_rejected {buffer : Option (ℕ → UInt8)} {layout : Option ImageLayout}
    (h : (imageValidate buffer size layout).1 ≠ Status.ok) (prior : RuntimeFs) :
    ∃ layout', imageImport prior buffer size layout = .ok (Status.einval, prior, layout') := by
  unfold imageImport
  cases buffer with
  | none => exact ⟨layout, rfl⟩
  | some bytes => exact ⟨(imageValidate (some bytes) size layout).2, if_pos h⟩

/-- An import answers OK or changes nothing, and it answers OK for every accepted image. -/
structure ImportAtomic (buffer : Option (ℕ → UInt8)) (size : UInt32) : Prop where
  atomic : ∀ prior layout,
    (∃ fs layout', imageImport prior buffer size layout = .ok (Status.ok, fs, layout')) ∨
      ∃ status ≠ Status.ok, ∃ layout',
        imageImport prior buffer size layout = .ok (status, prior, layout')
  accepted : ∀ layout, (imageValidate buffer size layout).1 = Status.ok → ∀ prior,
    ∃ fs layout', imageImport prior buffer size layout = .ok (Status.ok, fs, layout')

/-- The image is accepted although two names below one parent agree in their first fifteen
characters. -/
def ClashingImage (buffer : Option (ℕ → UInt8)) (size : UInt32) : Prop :=
  (imageValidate buffer size none).1 = Status.ok ∧
    ∃ m, buffer = some m ∧ NamesClash m (imageLoadHeader m)

/-- **When an import is all or nothing**: exactly when the image is not an accepted one with
clashing names. -/
theorem importAtomic_iff (buffer : Option (ℕ → UInt8)) (size : UInt32) :
    ImportAtomic buffer size ↔ ¬ClashingImage buffer size := by
  constructor
  · rintro hatomic ⟨haccept, m, rfl, hclash⟩
    obtain ⟨header, h⟩ := imageValidate_eq_ok.mp haccept
    rw [← h.loaded] at hclash
    obtain ⟨fs, _, layout', _, _, hrun, ⟨-, rfl⟩ | ⟨hno, -⟩⟩ :=
      imageImport_accepted h imageWiped none
    · obtain ⟨fs', layout'', hok⟩ := hatomic.accepted none haccept imageWiped
      have hstatus : Status.eexist = Status.ok :=
        congrArg Prod.fst (Except.ok.inj (hrun.symm.trans hok))
      exact absurd hstatus (by decide)
    · exact hno hclash
  · intro hno
    have hgood : ∀ layout, (imageValidate buffer size layout).1 = Status.ok → ∀ prior,
        ∃ fs layout', imageImport prior buffer size layout = .ok (Status.ok, fs, layout') := by
      intro layout haccept prior
      cases buffer with
      | none => exact absurd haccept (show Status.einval ≠ Status.ok by decide)
      | some m =>
        obtain ⟨header, h⟩ := imageValidate_eq_ok.mp haccept
        obtain ⟨fs, _, layout', _, _, hrun, ⟨hclash, -⟩ | ⟨-, rfl⟩⟩ :=
          imageImport_accepted h prior layout
        · rw [h.loaded] at hclash
          exact absurd ⟨imageValidate_eq_ok.mpr ⟨header, h⟩, m, rfl, hclash⟩ hno
        · exact ⟨fs, layout', hrun⟩
    refine ⟨fun prior layout ↦ ?_, hgood⟩
    by_cases haccept : (imageValidate buffer size layout).1 = Status.ok
    · exact Or.inl (hgood layout haccept prior)
    · obtain ⟨layout', hrun⟩ := imageImport_rejected haccept prior
      exact Or.inr ⟨Status.einval, by decide, layout', hrun⟩

/-- An image of three directories: the root, and two children whose names are fifteen letters `a`
followed by `b` and by nothing. -/
def clashImage : ℕ → UInt8 := fun k ↦
  [
    84, 83, 70, 49, 1, 0, 0, 0, 40, 0, 0, 0, 3, 0, 0, 0, 56, 0, 0, 0,
    4, 0, 0, 0, 7, 0, 0, 0, 0, 0, 0, 0, 173, 19, 216, 233, 236, 0, 0, 0,
    0, 0, 0, 0, 2, 0, 0, 0, 0, 0, 0, 0, 0, 0, 0, 0, 237, 1, 0, 0,
    0, 0, 0, 0, 0, 0, 0, 0, 0, 0, 0, 0, 197, 157, 28, 129, 175, 148, 109, 199,
    47, 0, 0, 0, 0, 0, 0, 0, 0, 0, 0, 0, 0, 0, 0, 0,
    1, 0, 0, 0, 2, 0, 0, 0, 0, 0, 0, 0, 0, 0, 0, 0, 237, 1, 0, 0,
    0, 0, 0, 0, 0, 0, 0, 0, 0, 0, 0, 0, 197, 157, 28, 129, 36, 42, 253, 43,
    97, 97, 97, 97, 97, 97, 97, 97, 97, 97, 97, 97, 97, 97, 97, 98,
    2, 0, 0, 0, 2, 0, 0, 0, 0, 0, 0, 0, 0, 0, 0, 0, 237, 1, 0, 0,
    0, 0, 0, 0, 0, 0, 0, 0, 0, 0, 0, 0, 197, 157, 28, 129, 121, 52, 252, 248,
    97, 97, 97, 97, 97, 97, 97, 97, 97, 97, 97, 97, 97, 97, 97, 0,
    173, 19, 216, 233, 164, 29, 33, 170, 57, 162, 184, 109, 175, 148,
    109, 199, 36, 42, 253, 43, 121, 52, 252, 248, 197, 157, 28, 129].getD k 0

/-- The image is accepted, and its import answers `EEXIST` after the old file system is gone. -/
theorem importAtomic_clash :
    (imageValidate (some clashImage) 236 none).1 = Status.ok ∧
      (imageImport runtimeFsInit (some clashImage) 236 none).map
        (fun r ↦ (r.1, (runtimeFsInit.nodes 1).used, (r.2.1.nodes 1).used))
          = .ok (Status.eexist, 0, 1) ∧
      ¬ImportAtomic (some clashImage) 236 := by
  have hrun : (imageImport runtimeFsInit (some clashImage) 236 none).map
      (fun r ↦ (r.1, (runtimeFsInit.nodes 1).used, (r.2.1.nodes 1).used))
        = .ok (Status.eexist, 0, 1) := by decide +kernel
  refine ⟨by decide +kernel, hrun, fun hatomic ↦ ?_⟩
  obtain ⟨r, hr, hres⟩ := map_eq_ok.mp hrun
  simp only [Prod.mk.injEq] at hres
  rcases hatomic.atomic runtimeFsInit none with ⟨fs, layout, hok⟩ | ⟨status, _, layout, hfail⟩
  · have hstatus : r.1 = Status.ok := congrArg Prod.fst (Except.ok.inj (hr.symm.trans hok))
    exact absurd (hres.1.symm.trans hstatus) (by decide)
  · have hfs : r.2.1 = runtimeFsInit :=
      congrArg (fun q ↦ q.2.1) (Except.ok.inj (hr.symm.trans hfail))
    rw [hfs, hres.2.1] at hres
    exact absurd hres.2.2 (by decide)

end Imported

end TensorOS
