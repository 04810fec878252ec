import Mathlib
import TensorOS.Fs.Run

/-!
# Calls that fail

What a call with a negative status leaves behind. Every call but `runtime_fs_open` leaves the file
system as it was. An open does not always: it creates or truncates before its last checks, and
`openAtomic_iff` says exactly when a failure is visible afterwards.

The second half is about the root. Remove and rename recognise it by comparing the path with `/`,
while the path walker skips repeated slashes, so `//` names the root without being recognised.
-/

namespace TensorOS

variable {fs fs' : RuntimeFs}

/-! ## Every call but an open -/

/-- The call is `runtime_fs_open`. -/
def FsCall.IsOpen : FsCall → Prop
  | .open .. => True
  | _ => False

/-- **A failed call changes nothing**, unless it is an open. -/
theorem failed_call_unchanged (h : FsReachable fs) {call : FsCall} (hopen : ¬call.IsOpen)
    (hfits : call.Fits fs) :
    ∃ status fs', call.run fs = .ok (status, fs') ∧ (status < 0 → fs' = fs) := by
  have hs := h.sound
  cases call with
  | mkdir pid path mode =>
    rcases runtimeFsMkdir_spec hs pid path mode with ⟨status, _, heq⟩ | ⟨_, _, _, _, heq⟩
    · exact ⟨status, fs, heq, fun _ ↦ rfl⟩
    · exact ⟨_, _, heq, fun hneg ↦ absurd hneg (by decide)⟩
  | «open» pid path flags object => exact absurd trivial hopen
  | read object buffer size =>
    rcases runtimeFsRead_spec hs object buffer size with
      ⟨_, status, _, heq⟩ | ⟨s, _, _, _, _, _, heq, _, _⟩
    · exact ⟨status, fs, by rw [FsCall.run, heq, ok_bind], fun _ ↦ rfl⟩
    · exact ⟨_, _, by rw [FsCall.run, heq, ok_bind], fun hneg ↦ absurd hneg (by omega)⟩
  | write object buffer size =>
    rcases runtimeFsWrite_spec hs object buffer size with
      ⟨_, status, _, _, heq⟩ | ⟨s, bytes, hr, _, _, ⟨_, heq⟩ | ⟨_, heq⟩ | ⟨hwrap, _⟩⟩
    · exact ⟨status, fs, heq, fun _ ↦ rfl⟩
    · exact ⟨_, fs, heq, fun _ ↦ rfl⟩
    · exact ⟨_, _, heq, fun hneg ↦ absurd hneg (by omega)⟩
    · exact absurd (hfits s hr.lookup) (by omega)
  | close object =>
    rcases runtimeFsClose_spec fs object with ⟨status, _, heq⟩ | ⟨s, _, heq⟩
    · exact ⟨status, fs, by rw [FsCall.run, heq], fun _ ↦ rfl⟩
    · exact ⟨_, _, by rw [FsCall.run, heq], fun hneg ↦ absurd hneg (by decide)⟩
  | stat object st =>
    obtain ⟨status, _, heq⟩ := runtimeFsStat_spec hs object st
    exact ⟨status, fs, by rw [FsCall.run, heq, ok_bind], fun _ ↦ rfl⟩
  | readdir object entry =>
    rcases runtimeFsReaddir_spec hs object entry with ⟨status, heq⟩ | ⟨s, _, _, _, _, heq⟩
    · exact ⟨status, fs, by rw [FsCall.run, heq, ok_bind], fun _ ↦ rfl⟩
    · exact ⟨_, _, by rw [FsCall.run, heq, ok_bind], fun hneg ↦ absurd hneg (by decide)⟩
  | seek object offset whence =>
    rcases runtimeFsSeek_spec hs object offset whence with
      ⟨_, status, _, _, heq⟩ | ⟨s, _, ⟨_, heq⟩ | ⟨_, _, _, _, _, heq⟩⟩
    · exact ⟨status, fs, heq, fun _ ↦ rfl⟩
    · exact ⟨_, fs, heq, fun _ ↦ rfl⟩
    · exact ⟨_, _, heq, fun hneg ↦ absurd hneg (by omega)⟩
  | remove pid path =>
    rcases runtimeFsRemove_spec hs pid path with ⟨_, status, _, heq⟩ | ⟨_, _, _, _, heq⟩
    · exact ⟨status, fs, heq, fun _ ↦ rfl⟩
    · exact ⟨_, _, heq, fun hneg ↦ absurd hneg (by decide)⟩
  | rename pid oldPath newPath =>
    rcases runtimeFsRename_spec hs pid oldPath newPath with
      ⟨_, status, _, heq⟩ | ⟨_, _, _, _, _, _, _, _, heq⟩
    · exact ⟨status, fs, heq, fun _ ↦ rfl⟩
    · exact ⟨_, _, heq, fun hneg ↦ absurd hneg (by decide)⟩

/-- Removing a missing file fails, and the theorem applies to it. -/
theorem failed_call_unchanged_remove :
    ((FsCall.remove 3 (some pathA)).run runtimeFsInit).map (fun r ↦ r.1)
        = .ok Status.enoent ∧
      ∃ status fs', (FsCall.remove 3 (some pathA)).run runtimeFsInit
        = .ok (status, fs') ∧ (status < 0 → fs' = runtimeFsInit) :=
  ⟨by decide +kernel, failed_call_unchanged (.start rfl) id trivial⟩

/-! ## Opening -/

/-- The two ways in which a failed open is visible afterwards: a node was created and no slot is
left for it, or a file that had contents was truncated before a later check failed. -/
def OpenLeaks (fs : RuntimeFs) (pid : UInt32) (path : Option CString) (flags : UInt32) : Prop :=
  (flags &&& openCreate ≠ 0 ∧ (∃ node leaf parent, CreateAt fs pid path node leaf parent) ∧
    ∀ s, (fs.openFiles s).used ≠ 0) ∨
  ∃ node, fs.resolve path = some node ∧ flags &&& openTruncate ≠ 0 ∧
    (fs.nodes node).type = fileTypeRegular ∧ (fs.nodes node).sizeBytes ≠ 0 ∧
    fsOpenModeCheck (fs.nodes node) flags = Status.ok ∧ OpenBlocked fs pid node flags

/-- The open returns, and a negative status means that nothing has changed. -/
def OpenAtomic (fs : RuntimeFs) (pid : UInt32) (path : Option CString) (flags : UInt32)
    (object : Option UInt32) : Prop :=
  ∃ status fs' object', runtimeFsOpen fs pid path flags object = .ok (status, fs', object') ∧
    (status < 0 → fs' = fs)

/-- A truncation is visible exactly on a regular file that was not empty. -/
theorem fsOpenTruncate_eq_self (h : Sound fs) (node : Fin 16) (flags : UInt32) :
    fsOpenTruncate fs node flags = fs ↔ ¬(flags &&& openTruncate ≠ 0 ∧
      (fs.nodes node).type = fileTypeRegular ∧ (fs.nodes node).sizeBytes ≠ 0) := by
  unfold fsOpenTruncate
  by_cases htr : flags &&& openTruncate ≠ 0 ∧ (fs.nodes node).type = fileTypeRegular
  · rw [if_pos htr, fsZeroRange_eq]
    constructor
    · intro heq hlost
      have hsize := congrArg (fun f : RuntimeFs ↦ (f.nodes node).sizeBytes) heq
      simp only [RuntimeFs.setNode_nodes_self] at hsize
      exact hlost.2.2 hsize.symm
    · intro hkept
      have hzero : (fs.nodes node).sizeBytes = 0 := by
        by_contra hne
        exact hkept ⟨htr.1, htr.2, hne⟩
      have hdata : (fun k : Fin 256 ↦ if (0 : UInt32).toNat ≤ k ∧ (k : ℕ) < fileCapacity.toNat
          then 0 else (fs.nodes node).data k) = (fs.nodes node).data := by
        funext k
        have hk := (h.nodes.node node).tail_zero k (by simp [hzero])
        rw [hk, ite_self]
      have hnode : { fs.nodes node with
          sizeBytes := 0
          data := fun k : Fin 256 ↦ if (0 : UInt32).toNat ≤ k ∧ (k : ℕ) < fileCapacity.toNat
            then 0 else (fs.nodes node).data k } = fs.nodes node := by
        rw [hdata, ← hzero]
      exact (congrArg (fs.setNode node) hnode).trans (RuntimeFs.setNode_self fs node)
  · rw [if_neg htr]
    exact iff_of_true rfl fun hlost ↦ htr ⟨hlost.1, hlost.2.1⟩

theorem createdNode_modeCheck (fs : RuntimeFs) (node parent : Fin 16) (pid flags : UInt32)
    (leaf : List UInt8) :
    fsOpenModeCheck (createdNode fs node fileTypeRegular parent pid 420 leaf) flags
      = Status.ok := by
  have htype : (createdNode fs node fileTypeRegular parent pid 420 leaf).type
    = fileTypeRegular := rfl
  have hmode : (createdNode fs node fileTypeRegular parent pid 420 leaf).mode = 420 := rfl
  unfold fsOpenModeCheck
  rw [htype, hmode, if_neg fun hd ↦ absurd hd.1 (by decide), if_neg fun hk ↦ hk.2 rfl,
    if_neg fun hw ↦ absurd hw.2 (by decide), if_neg fun hr ↦ absurd hr.2 (by decide)]

/-- An open of a node it has just created is stopped only by a full slot table: the node has no
writer yet, and it belongs to the caller. -/
theorem openBlocked_created (h : Sound fs) {pid flags : UInt32} {path : Option CString}
    {node parent : Fin 16} {leaf : List UInt8} (hc : CreateAt fs pid path node leaf parent) :
    OpenBlocked (fs.setNode node (createdNode fs node fileTypeRegular parent pid 420 leaf)) pid node
      flags ↔ ∀ s, (fs.openFiles s).used ≠ 0 := by
  constructor
  · rintro (⟨-, hwriter⟩ | ⟨-, howner⟩ | hfull)
    · obtain ⟨s, -, hs⟩ := List.any_eq_true.mp hwriter
      have hs := of_decide_eq_true hs
      rw [RuntimeFs.setNode_openFiles] at hs
      refine absurd ?_ (h.slot_node_ne hc.unused hs.1)
      exact Fin.ext ((h.slots s hs.1).val_node.trans hs.2.1)
    · rw [RuntimeFs.setNode_nodes_self] at howner
      have hpid : (createdNode fs node fileTypeRegular parent pid 420 leaf).ownerPid = pid := rfl
      simp [fsNodeOwnerAllows, hpid] at howner
    · exact hfull
  · exact fun hfull ↦ Or.inr (Or.inr hfull)

/-- **When a failed open changes nothing**: exactly when the object pointer is null or none of the
two leaks happens. -/
theorem openAtomic_iff (h : FsReachable fs) (pid : UInt32) (path : Option CString)
    (flags : UInt32) (object : Option UInt32) :
    OpenAtomic fs pid path flags object ↔ object = none ∨ ¬OpenLeaks fs pid path flags := by
  have hs := h.sound
  unfold OpenAtomic
  rcases runtimeFsOpen_spec hs pid path flags object with
    ⟨hno, status, _, heq⟩ | ⟨node, fs₁, o, ht, rfl, heq⟩
  · refine iff_of_true ⟨status, fs, object, heq, fun _ ↦ rfl⟩ ?_
    refine hno.imp id fun hno hleak ↦ ?_
    rcases hleak with ⟨hflag, ⟨_, _, _, hc⟩, -⟩ | ⟨_, hres, -⟩
    · exact hno _ _ (.created hc hflag)
    · exact hno _ _ (.existing hres)
  · rw [heq]
    simp only [Except.ok.injEq, Prod.mk.injEq, reduceCtorEq, false_or]
    have hkey : (∃ status fs' object', ((fsOpenNode fs₁ pid node flags).1 = status ∧
        (fsOpenNode fs₁ pid node flags).2.1 = fs' ∧
        some ((fsOpenNode fs₁ pid node flags).2.2.getD o) = object') ∧ (status < 0 → fs' = fs)) ↔
        ((fsOpenNode fs₁ pid node flags).1 < 0 → (fsOpenNode fs₁ pid node flags).2.1 = fs) :=
      ⟨by rintro ⟨_, _, _, ⟨rfl, rfl, rfl⟩, himp⟩; exact himp, fun himp ↦
        ⟨_, _, _, ⟨rfl, rfl, rfl⟩, himp⟩⟩
    rw [hkey]
    cases ht with
    | existing hres =>
      have honly : ∀ n, fs.resolve path = some n → n = node := fun n hn ↦
        Option.some.inj (hn.symm.trans hres)
      have hleak : OpenLeaks fs pid path flags ↔ flags &&& openTruncate ≠ 0 ∧
          (fs.nodes node).type = fileTypeRegular ∧ (fs.nodes node).sizeBytes ≠ 0 ∧
          fsOpenModeCheck (fs.nodes node) flags = Status.ok ∧ OpenBlocked fs pid node flags := by
        constructor
        · rintro (⟨-, ⟨_, _, _, hc⟩, -⟩ | ⟨n, hn, hl⟩)
          · exact absurd (hc.unresolved.symm.trans hres) (by simp)
          · rwa [honly n hn] at hl
        · exact fun hl ↦ Or.inr ⟨node, hres, hl⟩
      rw [hleak]
      rcases fsOpenNode_spec fs pid node flags with
        ⟨_, _, _, hmode, hopen⟩ | ⟨_, hneg, _, hmode, hblock, hopen⟩ | ⟨s, _, hfree, _, hopen⟩
      · rw [hopen]
        exact iff_of_true (fun _ ↦ rfl) fun hl ↦ hmode hl.2.2.2.1
      · rw [hopen]
        simp only [hneg, forall_const, fsOpenTruncate_eq_self hs, hmode, hblock, and_true]
      · rw [hopen]
        exact iff_of_true (fun hneg ↦ absurd hneg (lt_irrefl (0 : Int))) fun hl ↦ hfree hl.2.2.2.2
    | created hc hflag =>
      have hleak : OpenLeaks fs pid path flags ↔ ∀ s, (fs.openFiles s).used ≠ 0 := by
        constructor
        · rintro (⟨-, -, hfull⟩ | ⟨n, hn, -⟩)
          · exact hfull
          · exact absurd (hn.symm.trans hc.unresolved) (by simp)
        · exact fun hfull ↦ Or.inl ⟨hflag, ⟨_, _, _, hc⟩, hfull⟩
      rw [hleak, ← openBlocked_created hs hc]
      rcases fsOpenNode_spec (fs.setNode node (createdNode fs node fileTypeRegular _ pid 420 _))
        pid node flags with
        ⟨_, _, _, hmode, _⟩ | ⟨_, hneg, _, _, hblock, hopen⟩ | ⟨s, _, hfree, _, hopen⟩
      · rw [RuntimeFs.setNode_nodes_self] at hmode
        exact absurd (createdNode_modeCheck fs node _ pid flags _) hmode
      · rw [hopen]
        refine iff_of_false (fun himp ↦ ?_) (not_not.mpr hblock)
        -- the created node is in use now, and it was not before
        have hused := congrArg (fun f : RuntimeFs ↦ (f.nodes node).used) (himp hneg)
        simp only [(fsOpenTruncate_kind _ _ _ _).1, RuntimeFs.setNode_nodes_self, hc.unused]
          at hused
        simp [createdNode, fsNamedNode, fsFreshNode, fsZeroRange_eq] at hused
      · rw [hopen]
        exact iff_of_true (fun hneg ↦ absurd hneg (lt_irrefl (0 : Int))) hfree

/-- After `/a` was created for writing and a byte stored in it, opening it again for writing and
truncation answers `EBUSY` and empties it. -/
theorem written_reachable : ∃ fs, FsReachable fs ∧
    (runtimeFsOpen fs 0 (some pathA) (openWrite ||| openTruncate) (some 0)).map
      (fun r ↦ (r.1, (fs.nodes 1).sizeBytes, (r.2.1.nodes 1).sizeBytes))
      = .ok (Status.ebusy, 1, 0) := by
  have hrun : ((FsCall.open 0 (some pathA) (openWrite ||| openCreate) (some 0)).run runtimeFsInit
      >>= fun r ↦ (FsCall.write 1 (some fun _ ↦ 120) 1).run r.2
      >>= fun r ↦ (runtimeFsOpen r.2 0 (some pathA) (openWrite ||| openTruncate) (some 0)).map
        fun q ↦ (q.1, (r.2.nodes 1).sizeBytes, (q.2.1.nodes 1).sizeBytes))
      = .ok (Status.ebusy, 1, 0) := by decide +kernel
  obtain ⟨r₁, hopen, hrun⟩ := bind_eq_ok.mp hrun
  obtain ⟨r₂, hwrite, hrun⟩ := bind_eq_ok.mp hrun
  have h₁ : FsReachable r₁.2 :=
    .step (.start rfl)
      ⟨.open 0 (some pathA) (openWrite ||| openCreate) (some 0), r₁.1, trivial, hopen⟩
  refine ⟨r₂.2, .step h₁ ⟨.write 1 (some fun _ ↦ 120) 1, r₂.1, fun s hs ↦ ?_, hwrite⟩, hrun⟩
  have hle := (h₁.sound.slots s (fsOpenFileLookup_eq_some hs).1).offset_le
  have hone : (1 : UInt32).toNat = 1 := rfl
  omega

/-- A second open for writing and truncation is refused, and the file is empty afterwards. -/
theorem openAtomic_busy : ∃ fs, FsReachable fs ∧
    ¬OpenAtomic fs 0 (some pathA) (openWrite ||| openTruncate) (some 0) := by
  obtain ⟨fs, hreach, hmap⟩ := written_reachable
  refine ⟨fs, hreach, ?_⟩
  rintro ⟨status, fs', object', heq, himp⟩
  obtain ⟨r, hopen, hr⟩ := map_eq_ok.mp hmap
  obtain rfl : r = (status, fs', object') := by simpa using hopen.symm.trans heq
  simp only [Prod.mk.injEq] at hr
  rw [himp (by rw [hr.1]; decide), hr.2.1] at hr
  exact absurd hr.2.2 (by decide)

/-- On the initial file system an open that creates `/a` finds a slot, so it leaks nothing. -/
theorem openAtomic_init :
    OpenAtomic runtimeFsInit 0 (some pathA) (openWrite ||| openCreate) (some 0) := by
  refine (openAtomic_iff (.start rfl) 0 _ _ (some 0)).mpr (Or.inr ?_)
  rintro (⟨-, -, hfull⟩ | ⟨node, hres, -⟩)
  · exact hfull 0 rfl
  · have hnone : runtimeFsInit.resolve (some pathA) = none := by decide +kernel
    exact absurd (hres.symm.trans hnone) (by simp)

/-! ## The root -/

/-- Remove of the path, and rename with it in either place and another path in the other, answer
with a negative status and change nothing. -/
structure RootProtected (fs : RuntimeFs) (pid : UInt32) (path : CString) : Prop where
  remove : ∃ status < 0, runtimeFsRemove fs pid (some path) = .ok (status, fs)
  renameFrom : ∀ other ≠ some path,
    ∃ status < 0, runtimeFsRename fs pid (some path) other = .ok (status, fs)
  renameTo : ∀ other ≠ some path,
    ∃ status < 0, runtimeFsRename fs pid other (some path) = .ok (status, fs)

/-- Among seventeen one-character names some is not the name of any of the sixteen nodes. -/
theorem exists_fresh_name (fs : RuntimeFs) :
    ∃ c : UInt8, c ≠ 0 ∧ c ≠ slash ∧ ∀ i, (fs.nodes i).text ≠ [c] := by
  by_contra! hall
  have hnode : ∀ k : Fin 17, ∃ i, (fs.nodes i).text = [UInt8.ofNat (k + 1)] := fun k ↦
    hall _ (by revert k; decide) (by revert k; decide)
  choose f hf using hnode
  obtain ⟨a, b, hab, heq⟩ := Fintype.exists_ne_map_eq_of_card_lt f (by simp)
  have hchar : UInt8.ofNat (a + 1) = UInt8.ofNat (b + 1) := by
    have hb := hf b
    rw [← heq, hf a] at hb
    exact List.singleton_injective hb
  have hinj : ∀ a b : Fin 17, UInt8.ofNat (a + 1) = UInt8.ofNat (b + 1) → a = b := by decide
  exact hab (hinj a b hchar)

/-- A one-character name that no node has can be created below the root. -/
theorem resolve_fresh {c : UInt8} (hc : c ≠ 0) (hslash : c ≠ slash)
    (hfresh : ∀ i, (fs.nodes i).text ≠ [c]) :
    ∃ q : CString, q.charAt 1 ≠ 0 ∧ fs.resolve (some q) = none ∧
      fs.resolveParent (some q) = .ok ([c], 0) := by
  have hnz : ∀ x ∈ [slash, c], x ≠ 0 := by simp [hc, slash]
  have hcomp : components slash [slash, c] = [[c]] := by
    rw [components_cons_sep, components_eq_cons slash hslash]
    simp [hslash]
  refine ⟨⟨[slash, c], hnz⟩, by simpa [CString.charAt] using hc, ?_, ?_⟩
  · have hnone : fs.child 0 [c] = none := RuntimeFs.child_eq_none.mpr fun i _ _ ↦ hfresh i
    simp [RuntimeFs.resolve, CString.charAt, hcomp, RuntimeFs.walk, hnone]
  · simp [RuntimeFs.resolveParent, CString.charAt, hcomp, RuntimeFs.parentWalk]

/-- A path that names the root has no second character exactly if it is `/`. -/
theorem charAt_one_root {path : CString} (hres : fs.resolve (some path) = some 0) :
    path.charAt 1 = 0 ↔ path.chars = [slash] :=
  ⟨CString.chars_of_charAt_one (resolve_eq_some_charAt hres), fun hc ↦ by simp [CString.charAt, hc]⟩

/-- A rename onto the root is refused, whatever path names the root. -/
theorem rename_onto_root_refused (h : Sound fs) (pid : UInt32) {path : CString}
    (hres : fs.resolve (some path) = some 0) {other : Option CString} (hother : other ≠ some path) :
    ∃ status < 0, runtimeFsRename fs pid other (some path) = .ok (status, fs) := by
  rcases runtimeFsRename_spec h pid other (some path) with
    ⟨-, status, hst, heq⟩ | ⟨_, _, _, _, _, rfl, ⟨⟩, hr, -⟩
  · exact ⟨status, hst.resolve_right fun ho ↦ hother ho.2, heq⟩
  · exact absurd (hr.unresolved.symm.trans hres) (by simp)

/-- Removing the root is refused unless the path is not `/`, both owners let the caller, and the
root is neither open nor has children. -/
theorem remove_root_refused_iff (h : Sound fs) (pid : UInt32) {path : CString}
    (hres : fs.resolve (some path) = some 0) :
    (∃ status < 0, runtimeFsRemove fs pid (some path) = .ok (status, fs)) ↔
      ¬Removes fs pid path 0 := by
  rcases runtimeFsRemove_spec h pid (some path) with
    ⟨hno, status, hneg, heq⟩ | ⟨_, node, ⟨⟩, hr, heq⟩
  · exact iff_of_true ⟨status, hneg, heq⟩ (hno path 0 rfl)
  · obtain rfl : node = 0 := Option.some.inj (hr.resolves.symm.trans hres)
    refine iff_of_false ?_ (not_not.mpr hr)
    rintro ⟨status, hneg, heq'⟩
    have hstatus : status = Status.ok := congrArg Prod.fst (Except.ok.inj (heq'.symm.trans heq))
    exact absurd hneg (by rw [hstatus]; decide)

/-- Every rename of the root is refused exactly if the path is `/` or the owner of the root's
parent entry refuses the caller: otherwise the root can go to a fresh name below itself. -/
theorem rename_root_refused_iff (h : Sound fs) (pid : UInt32) {path : CString}
    (hres : fs.resolve (some path) = some 0) :
    (∀ other ≠ some path, ∃ status < 0, runtimeFsRename fs pid (some path) other = .ok (status, fs))
      ↔ path.chars = [slash] ∨ fsNodeOwnerAllows (fs.nodes (fs.nodes 0).parent) pid = false := by
  have hroot := charAt_one_root hres
  constructor
  · intro hp
    by_contra! hbad
    obtain ⟨c, hc, hslash, hfresh⟩ := exists_fresh_name fs
    obtain ⟨q, hq, hqres, hqpar⟩ := resolve_fresh hc hslash hfresh
    have hne : some q ≠ some path := fun heq ↦ by simp [heq, hres] at hqres
    have hrename : Renames fs pid path q 0 [c] 0 :=
      { distinct := fun heq ↦ hne (by rw [heq])
        old_not_root := fun hr ↦ hbad.1 (hroot.mp hr.2)
        new_not_root := fun hr ↦ hq hr.2
        resolves := hres
        unresolved := hqres
        parentPath := hqpar
        owner := by simp [fsNodeOwnerAllows, h.nodes.root_owner]
        old_owner := by simpa using hbad.2
        new_owner := by simp [fsNodeOwnerAllows, h.nodes.root_owner]
        not_below := fun _ hc ↦ hc.target_ne_root rfl }
    obtain ⟨status, hneg, heq⟩ := hp (some q) hne
    rcases runtimeFsRename_spec h pid (some path) (some q) with
      ⟨hno, -⟩ | ⟨_, _, _, _, _, _, _, _, heq'⟩
    · exact hno _ _ _ _ _ rfl rfl hrename
    · have hstatus : status = Status.ok := congrArg Prod.fst (Except.ok.inj (heq.symm.trans heq'))
      exact absurd hneg (by rw [hstatus]; decide)
  · intro hok other hother
    rcases runtimeFsRename_spec h pid (some path) other with
      ⟨-, status, hst, heq⟩ | ⟨_, _, node, _, _, ⟨⟩, rfl, hr, -⟩
    · exact ⟨status, hst.resolve_right fun ho ↦ hother ho.2.symm, heq⟩
    · obtain rfl : node = 0 := Option.some.inj (hr.resolves.symm.trans hres)
      have hblocked := hok.resolve_left fun hc ↦
        hr.old_not_root ⟨resolve_eq_some_charAt hres, hroot.mpr hc⟩
      exact absurd hr.old_owner (by simp [hblocked])

/-- **When the root is protected** under a path that names it: exactly when the path is `/` itself
or the owner of the root's parent entry refuses the caller. While the root is in place its parent
entry is the root, which nobody owns, so only the first case is left. -/
theorem rootProtected_iff (h : FsReachable fs) (pid : UInt32) {path : CString}
    (hpath : fsResolvePath fs (some path) = .ok (some 0)) :
    RootProtected fs pid path ↔ path.chars = [slash] ∨
      fsNodeOwnerAllows (fs.nodes (fs.nodes 0).parent) pid = false := by
  have hs := h.sound
  have hres : fs.resolve (some path) = some 0 := by
    simpa [fsResolvePath_eq hs.terminated] using hpath
  constructor
  · intro hp
    exact (rename_root_refused_iff hs pid hres).mp hp.renameFrom
  · intro hok
    have hremove : ¬Removes fs pid path 0 := fun hr ↦ by
      have hblocked := hok.resolve_left fun hc ↦
        hr.not_root ⟨resolve_eq_some_charAt hres, (charAt_one_root hres).mpr hc⟩
      exact absurd hr.parent_owner (by simp [hblocked])
    exact
      { remove := (remove_root_refused_iff hs pid hres).mpr hremove
        renameFrom := (rename_root_refused_iff hs pid hres).mpr hok
        renameTo := fun _ hother ↦ rename_onto_root_refused hs pid hres hother }

/-- The path `/`. -/
def pathSlash : CString := ⟨[slash], by simp [slash]⟩

/-- The path `//`. -/
def pathDoubleSlash : CString := ⟨[slash, slash], by simp [slash]⟩

/-- The plain path `/` is protected on the initial file system. -/
theorem rootProtected_slash : RootProtected runtimeFsInit 5 pathSlash :=
  (rootProtected_iff (.start rfl) 5 (by decide +kernel)).mpr (Or.inl rfl)

/-- The path `//` names the root, and removing it succeeds and clears the root. -/
theorem rootProtected_double_slash :
    FsReachable runtimeFsInit ∧
      fsResolvePath runtimeFsInit (some pathDoubleSlash) = .ok (some 0) ∧
      (runtimeFsRemove runtimeFsInit 5 (some pathDoubleSlash)).map
        (fun r ↦ (r.1, (r.2.nodes 0).used)) = .ok (Status.ok, 0) ∧
      ¬RootProtected runtimeFsInit 5 pathDoubleSlash := by
  have hrun : (runtimeFsRemove runtimeFsInit 5 (some pathDoubleSlash)).map
      (fun r ↦ (r.1, (r.2.nodes 0).used)) = .ok (Status.ok, 0) := by decide +kernel
  refine ⟨.start rfl, by decide +kernel, hrun, fun hp ↦ ?_⟩
  obtain ⟨status, hneg, heq⟩ := hp.remove
  obtain ⟨r, hr, hpair⟩ := map_eq_ok.mp hrun
  obtain rfl : (status, runtimeFsInit) = r := by simpa using heq.symm.trans hr
  simp only [Prod.mk.injEq] at hpair
  exact absurd hneg (by rw [hpair.1]; decide)

end TensorOS
