import TensorOS.Fs.Paths
import TensorOS.Image.Import

/-!
# Whether an imported file system can be addressed

The image validator rejects the name `/` and the empty name below the root, and accepts any other. A
name that merely contains a slash is stored in the node, but no path leads there: the component that
would have to match it ends at the slash. Such an image is the only kind whose import leaves a node
that its path does not name, and then it is the node itself, or one below it.
-/

namespace TensorOS

variable {m : ℕ → UInt8} {size : UInt32} {prior fs : RuntimeFs}
    {layout layout' : Option ImageLayout}

/-- Every used node below the root is named by its canonical path. -/
def Addressable (fs : RuntimeFs) : Prop :=
  ∀ i, i ≠ 0 → (fs.nodes i).used ≠ 0 → fsResolvePath fs (some (fs.canonicalPath i)) = .ok (some i)

/-- No record behind the first has a slash in the part of its name that is imported. -/
def NamesFreeOfSlash (m : ℕ → UInt8) : Prop :=
  ∀ k, 0 < k → k < (imageLoadHeader m).recordCount.toNat →
    slash ∉ (cstr (List.ofFn (imageRecordAt m k).name)).take 15

theorem imageImport_eq_ok (h : imageImport prior (some m) size layout
    = .ok (Status.ok, fs, layout')) : ∃ header, Accepted m size header ∧
      Imported m header header.recordCount.toNat fs ∧ runtimeFsValidate fs = .ok Status.ok := by
  by_cases haccept : (imageValidate (some m) size layout).1 = Status.ok
  · obtain ⟨header, haccepted⟩ := imageValidate_eq_ok.mp haccept
    obtain ⟨fs₁, status, layout₁, hfs, hvalid, hrun, -⟩ :=
      imageImport_accepted haccepted prior layout
    have hresult := Except.ok.inj (hrun.symm.trans h)
    obtain rfl : status = Status.ok := congrArg Prod.fst hresult
    obtain rfl : fs₁ = fs := congrArg (fun r ↦ r.2.1) hresult
    exact ⟨header, haccepted, hfs, hvalid⟩
  · obtain ⟨layout₁, hrun⟩ := imageImport_rejected haccept prior
    have hstatus : Status.einval = Status.ok :=
      congrArg Prod.fst (Except.ok.inj (hrun.symm.trans h))
    exact absurd hstatus (by decide)

/-- The used nodes below the root are those of the records behind the first. -/
theorem Imported.forall_text_iff {header : ImageHeader} (h : BodyOk m header)
    (hfs : Imported m header header.recordCount.toNat fs) {P : List UInt8 → Prop} :
    (∀ i, i ≠ 0 → (fs.nodes i).used ≠ 0 → P (fs.nodes i).text) ↔
      ∀ k, 0 < k → k < header.recordCount.toNat →
        P ((cstr (List.ofFn (imageRecordAt m k).name)).take 15) := by
  have hzero : 0 < header.recordCount.toNat → imageNodeAt m 0 = 0 := by
    intro hpos
    rw [imageNodeAt, (h.record 0 hpos).first rfl]
    rfl
  constructor
  · intro hall k hk hcount
    rw [← hfs.text_eq hcount]
    refine hall _ ?_ (hfs.used hcount)
    intro hnode
    have heq := h.imageNodeAt_inj hcount (by omega) (hnode.trans (hzero (by omega)).symm)
    omega
  · intro hall i hi hu
    obtain ⟨k, hk, rfl⟩ := hfs.exists_record hu
    rw [hfs.text_eq hk]
    refine hall k (Nat.pos_of_ne_zero ?_) hk
    rintro rfl
    exact hi (hzero hk)

/-- **Which imports are addressable**: when an import answers OK, every node below the root is
named by its canonical path exactly if no record behind the first has a slash in its name. -/
theorem imported_addressable_iff (h : imageImport prior (some m) size layout
    = .ok (Status.ok, fs, layout')) : Addressable fs ↔ NamesFreeOfSlash m := by
  obtain ⟨header, haccepted, hfs, hvalid⟩ := imageImport_eq_ok h
  have hsane := hfs.sane haccepted.body haccepted.head.count_ne
  have hnamed := hsane.named hvalid
  have hterm : fs.Terminated := by
    intro i hu
    by_cases hi : i = 0
    · exact ⟨1, hi ▸ hsane.root.name_one⟩
    · exact (hsane.nodes i hi hu).terminated
  have hresolve : Addressable fs ↔ ∀ i, i ≠ 0 → (fs.nodes i).used ≠ 0 →
      fs.resolve (some (fs.canonicalPath i)) = some i := by
    refine forall₃_congr fun i _ _ ↦ ?_
    rw [fsResolvePath_eq hterm]
    exact ⟨Except.ok.inj, congrArg Except.ok⟩
  rw [hresolve, hnamed.all_resolve_canonicalPath_iff, NamesFreeOfSlash, ← haccepted.loaded]
  exact hfs.forall_text_iff (P := (slash ∉ ·)) haccepted.body

/-- An image of the root and one directory below it, whose name is `a`, the given character and `b`.
The hashes of the record and of the tree depend on the name. -/
def childImage (c : UInt8) (recordHash treeHash : List UInt8) : ℕ → UInt8 := fun k ↦
  ([84, 83, 70, 49, 1, 0, 0, 0, 40, 0, 0, 0, 2, 0, 0, 0, 56, 0, 0, 0,
    2, 0, 0, 0, 3, 0, 0, 0, 0, 0, 0, 0] ++ treeHash ++ [164, 0, 0, 0,
    0, 0, 0, 0, 2, 0, 0, 0, 0, 0, 0, 0, 0, 0, 0, 0, 237, 1, 0, 0,
    0, 0, 0, 0, 0, 0, 0, 0, 0, 0, 0, 0, 197, 157, 28, 129, 175, 148, 109, 199,
    47, 0, 0, 0, 0, 0, 0, 0, 0, 0, 0, 0, 0, 0, 0, 0,
    1, 0, 0, 0, 2, 0, 0, 0, 0, 0, 0, 0, 0, 0, 0, 0, 237, 1, 0, 0,
    0, 0, 0, 0, 0, 0, 0, 0, 0, 0, 0, 0, 197, 157, 28, 129] ++ recordHash ++
    [97, c, 98, 0, 0, 0, 0, 0, 0, 0, 0, 0, 0, 0, 0, 0] ++
    treeHash ++ [175, 148, 109, 199] ++ recordHash).getD k 0

/-- The image whose child is called `axb`. -/
def plainImage : ℕ → UInt8 := childImage 120 [166, 196, 126, 105] [233, 161, 191, 196]

/-- The image whose child is called `a/b`. -/
def slashImage : ℕ → UInt8 := childImage slash [91, 228, 87, 208] [242, 136, 61, 36]

/-- The import of the child `axb` answers OK, and the theorem speaks of it. -/
theorem imported_addressable_iff_plain : ∃ fs layout',
    imageImport runtimeFsInit (some plainImage) 164 none = .ok (Status.ok, fs, layout') ∧
      (fs.nodes 1).used = 1 ∧ Addressable fs := by
  have hrun : (imageImport runtimeFsInit (some plainImage) 164 none).map
      (fun r ↦ (r.1, (r.2.1.nodes 1).used)) = .ok (Status.ok, 1) := by decide +kernel
  obtain ⟨⟨status, fs, layout'⟩, himport, hvalues⟩ := map_eq_ok.mp hrun
  obtain ⟨rfl, hused⟩ := Prod.mk.inj hvalues
  refine ⟨fs, layout', himport, hused, (imported_addressable_iff himport).mpr ?_⟩
  intro k hpos hcount
  have hk : k = 1 := by
    have htwo : (imageLoadHeader plainImage).recordCount.toNat = 2 := by decide +kernel
    omega
  subst hk
  decide +kernel

/-- **A node without a path**: the import of the child `a/b` answers OK, and `/a/b` names nothing.
-/
theorem imported_unaddressable : ∃ fs layout',
    imageImport runtimeFsInit (some slashImage) 164 none = .ok (Status.ok, fs, layout') ∧
      ¬Addressable fs := by
  have hrun : (imageImport runtimeFsInit (some slashImage) 164 none).map
      (fun r ↦ (r.1, (r.2.1.nodes 1).used, (r.2.1.canonicalPath 1).chars,
        fsResolvePath r.2.1 (some (r.2.1.canonicalPath 1))))
      = .ok (Status.ok, 1, [slash, 97, slash, 98], .ok none) := by decide +kernel
  obtain ⟨⟨status, fs, layout'⟩, himport, hvalues⟩ := map_eq_ok.mp hrun
  simp only [Prod.mk.injEq] at hvalues
  obtain ⟨rfl, hused, -, hresolve⟩ := hvalues
  refine ⟨fs, layout', himport, fun haddressable ↦ ?_⟩
  have hone := haddressable 1 (by decide) (by rw [hused]; decide)
  exact absurd (hresolve.symm.trans hone) (by simp)

end TensorOS
