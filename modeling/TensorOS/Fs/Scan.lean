import TensorOS.Fs.Access
import TensorOS.Fs.Failure
import TensorOS.Fs.Paths

/-!
# Listing a directory

`runtime_fs_readdir` keeps a position in its slot, an index into the node array, and each call
reports the next used node whose parent entry is the directory. The array changes between two
calls: nodes are removed, others take their place, and a rename gives a node another parent.

## Completeness

The position only grows, and a call passes over a node only if the node is not a child at that
moment. A node that is a child all the time is therefore reported once, whatever happens around it
(`directory_scan_complete`). Which node a report is about is told by the entry it stores: no other
child has that name. The argument needs the slot to stay as it is, apart from its position: while it
is open the directory can be renamed but not removed.

## Soundness

What is reported is selected by the parent entry alone, and the root is its own parent. A listing of
the root starts with the root itself, and this is the only entry that is not a proper child
(`directory_scan_sound`).
-/

namespace TensorOS

variable {fs fs' : RuntimeFs} {call : FsCall} {status : Int} {s : Fin 8}

/-! ## One call -/

/-- The slot is open for reading on a directory. -/
structure ListsDirectory (fs : RuntimeFs) (s : Fin 8) : Prop where
  used : (fs.openFiles s).used ≠ 0
  readable : (fs.openFiles s).flags &&& openRead ≠ 0
  directory : (fs.nodes (fs.openFiles s).node).type = fileTypeDirectory

/-- The node that the next listing through a slot reports. -/
def nextEntry (fs : RuntimeFs) (s : Fin 8) : Option (Fin 16) :=
  (List.finRange 16).find? fun i : Fin 16 ↦
    (fs.openFiles s).dirCursor.toNat ≤ (i : ℕ) ∧ (fs.nodes i).used ≠ 0 ∧
      (fs.nodes i).parentIndex = (fs.openFiles s).nodeIndex

/-- The node is in use and has the directory of the slot as its parent. -/
def IsEntry (fs : RuntimeFs) (s : Fin 8) (i : Fin 16) : Prop :=
  (fs.nodes i).used ≠ 0 ∧ (fs.nodes i).parentIndex = (fs.openFiles s).nodeIndex

theorem nextEntry_eq_some {i : Fin 16} (h : nextEntry fs s = some i) :
    (fs.openFiles s).dirCursor.toNat ≤ i ∧ IsEntry fs s i ∧
      ∀ j : Fin 16, (fs.openFiles s).dirCursor.toNat ≤ j → j < i → ¬IsEntry fs s j := by
  have hfound : (fs.openFiles s).dirCursor.toNat ≤ i ∧ IsEntry fs s i := by
    simpa [IsEntry] using List.find?_some h
  refine ⟨hfound.1, hfound.2, ?_⟩
  intro j hj hji hentry
  obtain ⟨-, k, hk, hget, hbefore⟩ := List.find?_eq_some_iff_getElem.mp h
  have hki : k = i := by simpa [Fin.ext_iff] using congrArg Fin.val hget
  have hearlier := hbefore j (by omega)
  simp [hj, hentry.1, hentry.2] at hearlier

theorem nextEntry_eq_none (h : nextEntry fs s = none) {i : Fin 16} (hi : IsEntry fs s i) :
    (i : ℕ) < (fs.openFiles s).dirCursor.toNat := by
  have hnot := List.find?_eq_none.mp h i (List.mem_finRange i)
  simp [hi.1, hi.2] at hnot
  omega

/-- **`runtime_fs_readdir`** through a slot on a directory. -/
theorem runtimeFsReaddir_eq (h : Sound fs) (hs : ListsDirectory fs s) {object : UInt32}
    (hobject : fsOpenFileLookup fs object = some s) (e : RuntimeDirEntry) :
    (nextEntry fs s = none ∧ runtimeFsReaddir fs object (some e) = .ok (0, fs, some e)) ∨
    ∃ i, nextEntry fs s = some i ∧ runtimeFsReaddir fs object (some e) = .ok (1,
      fs.setOpen s { fs.openFiles s with dirCursor := UInt32.ofNat ((i : ℕ) + 1) },
      some ⟨(fs.nodes i).type, copyName e.name (List.ofFn (fs.nodes i).name)⟩) := by
  have hslot := h.slots s hs.used
  have hread : ¬(fs.openFiles s).flags &&& openRead = 0 := hs.readable
  have hdir : ¬(fs.nodes (fs.openFiles s).node).type ≠ fileTypeDirectory :=
    not_not.mpr hs.directory
  unfold runtimeFsReaddir
  simp only [hobject, hslot.nodeIndexOf_node, ok_bind]
  rw [if_neg hread, if_neg hdir]
  cases hnext : nextEntry fs s with
  | none =>
    unfold nextEntry at hnext
    refine Or.inl ⟨rfl, ?_⟩
    rw [hnext]
  | some i =>
    unfold nextEntry at hnext
    refine Or.inr ⟨i, rfl, ?_⟩
    rw [hnext]

/-! ## What other calls do to the slot -/

/-- The call is neither a close of the slot nor a listing through it. -/
def FsCall.PassesBy (s : Fin 8) : FsCall → Prop
  | .close object => object.toNat ≠ s + 1
  | .readdir object entry => object.toNat ≠ s + 1 ∨ entry = none
  | _ => True

/-- The slot is the same, apart from its offset. -/
def RuntimeFsOpenFile.SamePlace (o o' : RuntimeFsOpenFile) : Prop :=
  o'.used = o.used ∧ o'.nodeIndex = o.nodeIndex ∧ o'.flags = o.flags ∧ o'.dirCursor = o.dirCursor

theorem RuntimeFsOpenFile.SamePlace.refl (o : RuntimeFsOpenFile) : o.SamePlace o :=
  ⟨rfl, rfl, rfl, rfl⟩

theorem RuntimeFsOpenFile.SamePlace.node {o o' : RuntimeFsOpenFile} (h : o.SamePlace o') :
    o'.node = o.node := by
  rw [RuntimeFsOpenFile.node, h.2.1]
  rfl

/-- A slot that is set keeps its place if the new value has it, and the other slots keep theirs. -/
theorem samePlace_setOpen {t : Fin 8} {o : RuntimeFsOpenFile}
    (h : t = s → (fs.openFiles s).SamePlace o) :
    (fs.openFiles s).SamePlace ((fs.setOpen t o).openFiles s) := by
  by_cases hts : t = s
  · subst hts
    rw [RuntimeFs.setOpen_openFiles_self]
    exact h rfl
  · rw [RuntimeFs.setOpen_openFiles_of_ne (Ne.symm hts)]
    exact .refl _

theorem OpenTarget.openFiles_eq {pid flags : UInt32} {path : Option CString} {node : Fin 16}
    (ht : OpenTarget fs pid path flags node fs') : fs'.openFiles = fs.openFiles := by
  cases ht with
  | existing _ => rfl
  | created _ _ => rfl

/-- **A call that passes by leaves the slot in its place.** -/
theorem FsCall.samePlace (h : Sound fs) (hs : (fs.openFiles s).used ≠ 0) (hcall : call.PassesBy s)
    (hrun : call.run fs = .ok (status, fs')) :
    (fs.openFiles s).SamePlace (fs'.openFiles s) := by
  have result : ∀ {status₁ : Int} {fs₁ : RuntimeFs}, call.run fs = .ok (status₁, fs₁) →
      (fs.openFiles s).SamePlace (fs₁.openFiles s) →
      (fs.openFiles s).SamePlace (fs'.openFiles s) := by
    intro status₁ fs₁ heq hsame
    obtain ⟨-, rfl⟩ : status₁ = status ∧ fs₁ = fs' := by simpa using heq.symm.trans hrun
    exact hsame
  cases call with
  | mkdir pid path mode =>
    rcases runtimeFsMkdir_spec h pid path mode with ⟨_, _, heq⟩ | ⟨_, _, _, _, heq⟩
    · exact result heq (.refl _)
    · exact result heq (.refl _)
  | «open» pid path flags object =>
    rcases runtimeFsOpen_spec h pid path flags object with
      ⟨_, _, _, heq⟩ | ⟨node, fs₁, _, ht, _, heq⟩
    · exact result (by rw [run, heq, ok_bind]) (.refl _)
    refine result (by rw [run, heq, ok_bind]) ?_
    rcases fsOpenNode_spec fs₁ pid node flags with
      ⟨_, _, _, _, hopen⟩ | ⟨_, _, _, _, _, hopen⟩ | ⟨t, _, _, hfree, hopen⟩
    · rw [hopen, ht.openFiles_eq]
      exact .refl _
    · rw [hopen, fsOpenTruncate_openFiles, ht.openFiles_eq]
      exact .refl _
    · -- the slot it takes was free, so it is another one
      have hts : s ≠ t := by
        rintro rfl
        rw [ht.openFiles_eq] at hfree
        exact hs hfree
      rw [hopen, RuntimeFs.setOpen_openFiles_of_ne hts, fsOpenTruncate_openFiles,
        ht.openFiles_eq]
      exact .refl _
  | read object buffer size =>
    rcases runtimeFsRead_spec h object buffer size with
      ⟨_, _, _, heq⟩ | ⟨t, _, _, _, _, _, heq, _, _⟩
    · exact result (by rw [run, heq, ok_bind]) (.refl _)
    · refine result (by rw [run, heq, ok_bind]) (samePlace_setOpen ?_)
      rintro rfl
      exact ⟨rfl, rfl, rfl, rfl⟩
  | write object buffer size =>
    rcases runtimeFsWrite_spec h object buffer size with
      ⟨_, _, _, _, heq⟩ | ⟨t, _, _, _, _, ⟨_, heq⟩ | ⟨_, heq⟩ | ⟨_, heq⟩⟩
    · exact result heq (.refl _)
    · exact result heq (.refl _)
    · refine result heq ?_
      by_cases hts : t = s
      · subst hts
        rw [RuntimeFs.setOpen_openFiles_self]
        exact ⟨rfl, rfl, rfl, rfl⟩
      · rw [RuntimeFs.setOpen_openFiles_of_ne (Ne.symm hts)]
        exact .refl _
    · exact absurd (heq.symm.trans hrun) (by simp)
  | close object =>
    rcases runtimeFsClose_spec fs object with ⟨_, _, heq⟩ | ⟨t, ht, heq⟩
    · exact result (by rw [run, heq]) (.refl _)
    · refine result (by rw [run, heq]) (samePlace_setOpen ?_)
      rintro rfl
      exact absurd (fsOpenFileLookup_eq_some ht).2 hcall
  | stat object st =>
    obtain ⟨_, _, heq⟩ := runtimeFsStat_spec h object st
    exact result (by rw [run, heq, ok_bind]) (.refl _)
  | readdir object entry =>
    rcases runtimeFsReaddir_spec h object entry with ⟨_, heq⟩ | ⟨t, _, _, ht, hentry, heq⟩
    · exact result (by rw [run, heq, ok_bind]) (.refl _)
    · refine result (by rw [run, heq, ok_bind]) (samePlace_setOpen ?_)
      rintro rfl
      rcases hcall with hobject | hnone
      · exact absurd (fsOpenFileLookup_eq_some ht).2 hobject
      · exact absurd (hentry.symm.trans hnone) (by simp)
  | seek object offset whence =>
    rcases runtimeFsSeek_spec h object offset whence with
      ⟨_, _, _, _, heq⟩ | ⟨t, _, ⟨_, heq⟩ | ⟨_, _, _, _, _, heq⟩⟩
    · exact result heq (.refl _)
    · exact result heq (.refl _)
    · refine result heq (samePlace_setOpen ?_)
      rintro rfl
      exact ⟨rfl, rfl, rfl, rfl⟩
  | remove pid path =>
    rcases runtimeFsRemove_spec h pid path with ⟨_, _, _, heq⟩ | ⟨_, _, _, _, heq⟩
    · exact result heq (.refl _)
    · exact result heq (.refl _)
  | rename pid oldPath newPath =>
    rcases runtimeFsRename_spec h pid oldPath newPath with
      ⟨_, _, _, heq⟩ | ⟨_, _, _, _, _, _, _, _, heq⟩
    · exact result heq (.refl _)
    · exact result heq (.refl _)

/-- **A node that is open keeps its type.** -/
theorem FsMove.type_of_open (h : Sound fs) (hs : (fs.openFiles s).used ≠ 0)
    (hmove : FsMove fs call status fs') :
    (fs'.nodes (fs.openFiles s).node).type = (fs.nodes (fs.openFiles s).node).type := by
  have hcreated : ∀ {node : Fin 16} {n : RuntimeFsNode}, (fs.nodes node).used = 0 →
      ((fs.setNode node n).nodes (fs.openFiles s).node).type
        = (fs.nodes (fs.openFiles s).node).type := by
    intro node n hunused
    rw [RuntimeFs.setNode_nodes_of_ne (h.slot_node_ne hunused hs)]
  have htarget : ∀ {pid flags : UInt32} {path : Option CString} {node : Fin 16} {fs₁ : RuntimeFs},
      OpenTarget fs pid path flags node fs₁ →
      (fs₁.nodes (fs.openFiles s).node).type = (fs.nodes (fs.openFiles s).node).type := by
    intro pid flags path node fs₁ ht
    cases ht with
    | existing _ => rfl
    | created hc _ => exact hcreated hc.unused
  have hsame : ∀ {node : Fin 16} {n : RuntimeFsNode}, n.type = (fs.nodes node).type →
      ((fs.setNode node n).nodes (fs.openFiles s).node).type
        = (fs.nodes (fs.openFiles s).node).type := by
    intro node n htype
    by_cases hnode : (fs.openFiles s).node = node
    · rw [← hnode, RuntimeFs.setNode_nodes_self, htype, hnode]
    · rw [RuntimeFs.setNode_nodes_of_ne hnode]
  cases hmove with
  | idle => rfl
  | mkdir hc => exact hcreated hc.unused
  | opens ht _ _ =>
    rw [RuntimeFs.setOpen_nodes, (fsOpenTruncate_kind _ _ _ _).2]
    exact htarget ht
  | openFails ht _ hfs' =>
    rcases hfs' with rfl | rfl
    · exact htarget ht
    · rw [(fsOpenTruncate_kind _ _ _ _).2]
      exact htarget ht
  | positions _ => rfl
  | writes _ _ hend =>
    rw [RuntimeFs.setOpen_nodes]
    apply hsame
    rw [fsWriteNode_eq _ _ hend]
  | closes _ => rfl
  | removes hr =>
    rw [RuntimeFs.setNode_nodes_of_ne (fsNodeIsOpen_eq_false h hr.closed s hs)]
  | renames _ => exact hsame rfl

/-- A call that passes by leaves the slot on its directory. -/
theorem ListsDirectory.passBy (h : Sound fs) (hs : ListsDirectory fs s) (hcall : call.PassesBy s)
    (hrun : call.run fs = .ok (status, fs')) : ListsDirectory fs' s := by
  have hsame := FsCall.samePlace h hs.used hcall hrun
  have htype := (FsCall.move h hrun).type_of_open h hs.used
  constructor
  · rw [hsame.1]
    exact hs.used
  · rw [hsame.2.2.1]
    exact hs.readable
  · rw [hsame.node, htype]
    exact hs.directory

/-! ## A whole listing -/

/-- The entry that a listing stores has the name of the node. -/
theorem Sound.entry_text (h : Sound fs) {i : Fin 16} (hu : (fs.nodes i).used ≠ 0)
    (name : Fin 16 → UInt8) :
    cstr (List.ofFn (copyName name (List.ofFn (fs.nodes i).name))) = (fs.nodes i).text := by
  have hshort := RuntimeFsNode.text_length_lt ((h.nodes.node i).terminated hu)
  rw [cstr_copyName]
  exact List.take_of_length_le (by rw [RuntimeFsNode.text] at hshort; omega)

/-- An entry and the file system that a listing stored it from: the entry has the type and the name
of this node, which is a child of the directory. -/
def Reports (directory : UInt32) (i : Fin 16) (r : RuntimeFs × RuntimeDirEntry) : Prop :=
  (r.1.nodes i).used ≠ 0 ∧ (r.1.nodes i).parentIndex = directory ∧
    r.2.type = (r.1.nodes i).type ∧ cstr (List.ofFn r.2.name) = (r.1.nodes i).text

instance (directory : UInt32) (i : Fin 16) (r : RuntimeFs × RuntimeDirEntry) :
    Decidable (Reports directory i r) :=
  inferInstanceAs (Decidable (_ ∧ _ ∧ _ ∧ _))

/-- What a listing stores describes the node that it has come to, and no other one: two children of
a directory have different names. -/
theorem reports_iff (h : Sound fs) {i : Fin 16} (hi : IsEntry fs s i) (name : Fin 16 → UInt8)
    (k : Fin 16) : Reports (fs.openFiles s).nodeIndex k
      (fs, ⟨(fs.nodes i).type, copyName name (List.ofFn (fs.nodes i).name)⟩) ↔ k = i := by
  rw [Reports, h.entry_text hi.1]
  constructor
  · rintro ⟨hu, hparent, -, htext⟩
    refine h.nodes.siblings k i hu hi.1 ?_ htext.symm
    rw [RuntimeFsNode.parent, hparent, ← hi.2]
    rfl
  · rintro rfl
    exact ⟨hi.1, hi.2, rfl, rfl⟩

/-- A stretch of calls that return, from the first state on, in which slot `s` is not closed: the
states it passes, and the entries that the listings through the slot have stored, each with the
state in which it was listed. -/
inductive ScanRun (s : Fin 8) (start : RuntimeFs) :
    List RuntimeFs → List (RuntimeFs × RuntimeDirEntry) → RuntimeFs → Prop
  | nil : ScanRun s start [start] [] start
  | other {states : List RuntimeFs} {entries : List (RuntimeFs × RuntimeDirEntry)}
      {fs fs' : RuntimeFs} {call : FsCall} {status : Int} : ScanRun s start states entries fs →
      call.PassesBy s → call.run fs = .ok (status, fs') →
      ScanRun s start (states ++ [fs']) entries fs'
  | entry {states : List RuntimeFs} {entries : List (RuntimeFs × RuntimeDirEntry)}
      {fs fs' : RuntimeFs} {object : UInt32} {e e' : RuntimeDirEntry} :
      ScanRun s start states entries fs → object.toNat = s + 1 →
      runtimeFsReaddir fs object (some e) = .ok (1, fs', some e') →
      ScanRun s start (states ++ [fs']) (entries ++ [(fs, e')]) fs'

/-- What a listing has reported so far: with every entry one node, each node at most once, all of
them before the position, and every node before the position that has been a child all the time. -/
structure ScanInvariant (s : Fin 8) (directory : UInt32) (states : List RuntimeFs)
    (entries : List (RuntimeFs × RuntimeDirEntry)) (fs : RuntimeFs) : Prop where
  sound : Sound fs
  lists : ListsDirectory fs s
  place : (fs.openFiles s).nodeIndex = directory
  named : ∀ r ∈ entries, ∃! i, Reports directory i r
  once : ∀ i, entries.countP (Reports directory i ·) ≤ 1
  before : ∀ r ∈ entries, ∀ i, Reports directory i r → (i : ℕ) < (fs.openFiles s).dirCursor.toNat
  last : fs ∈ states
  reported : ∀ i : Fin 16, (i : ℕ) < (fs.openFiles s).dirCursor.toNat →
    (∀ g ∈ states, (g.nodes i).used ≠ 0 ∧ (g.nodes i).parentIndex = directory) →
    ∃ r ∈ entries, Reports directory i r

section Invariant

variable {directory : UInt32} {states : List RuntimeFs}
  {entries : List (RuntimeFs × RuntimeDirEntry)}

theorem ScanInvariant.other (h : ScanInvariant s directory states entries fs)
    (hcall : call.PassesBy s) (hrun : call.run fs = .ok (status, fs')) :
    ScanInvariant s directory (states ++ [fs']) entries fs' := by
  have hsame := FsCall.samePlace h.sound h.lists.used hcall hrun
  constructor
  · exact FsCall.sound_of_run h.sound hrun
  · exact h.lists.passBy h.sound hcall hrun
  · rw [hsame.2.1]
    exact h.place
  · exact h.named
  · exact h.once
  · rw [hsame.2.2.2]
    exact h.before
  · simp
  · intro i hi hchild
    rw [hsame.2.2.2] at hi
    exact h.reported i hi fun g hg ↦ hchild g (by simp [hg])

theorem ScanInvariant.entry (h : ScanInvariant s directory states entries fs) {object : UInt32}
    {e e' : RuntimeDirEntry} (hobject : object.toNat = s + 1)
    (hrun : runtimeFsReaddir fs object (some e) = .ok (1, fs', some e')) :
    ScanInvariant s directory (states ++ [fs']) (entries ++ [(fs, e')]) fs' := by
  obtain rfl : object = UInt32.ofNat ((s : ℕ) + 1) := by
    rw [← hobject]
    simp
  obtain rfl := h.place
  rcases runtimeFsReaddir_eq h.sound h.lists (fsOpenFileLookup_ofNat h.lists.used) e with
    ⟨-, heq⟩ | ⟨j, hnext, heq⟩
  · exact absurd (congrArg Prod.fst (Except.ok.inj (heq.symm.trans hrun))) (by simp)
  have hresult := Except.ok.inj (heq.symm.trans hrun)
  obtain rfl : fs.setOpen s { fs.openFiles s with dirCursor := UInt32.ofNat ((j : ℕ) + 1) } = fs' :=
    congrArg (fun r ↦ r.2.1) hresult
  obtain rfl : _ = e' := Option.some.inj (congrArg (fun r ↦ r.2.2) hresult)
  have hset : (UInt32.ofNat ((j : ℕ) + 1)).toNat = j + 1 := by
    rw [UInt32.toNat_ofNat']
    omega
  obtain ⟨hle, hentry, hskipped⟩ := nextEntry_eq_some hnext
  have hdescribes := reports_iff h.sound hentry e.name
  have hnew : ∀ r ∈ entries, ¬Reports (fs.openFiles s).nodeIndex j r := by
    intro r hr hreports
    have hlt := h.before r hr j hreports
    omega
  constructor
  · exact h.sound.setDirCursor h.lists.used _
  · exact ⟨by simpa using h.lists.used, by simpa using h.lists.readable,
      by simpa [RuntimeFsOpenFile.node] using h.lists.directory⟩
  · simp
  · intro r hr
    rcases List.mem_append.mp hr with hr | hr
    · exact h.named r hr
    · rw [List.mem_singleton.mp hr]
      exact ⟨j, (hdescribes j).mpr rfl, fun k hk ↦ (hdescribes k).mp hk⟩
  · intro k
    rw [List.countP_append, List.countP_singleton]
    by_cases hkj : k = j
    · -- the node had not been reported
      subst hkj
      have hzero : entries.countP (Reports (fs.openFiles s).nodeIndex k ·) = 0 :=
        List.countP_eq_zero.mpr fun r hr ↦ by simpa using hnew r hr
      rw [hzero, if_pos (decide_eq_true ((hdescribes k).mpr rfl))]
    · have hold := h.once k
      rw [if_neg (by simpa using fun hk ↦ hkj ((hdescribes k).mp hk))]
      exact hold
  · intro r hr k hk
    rw [RuntimeFs.setOpen_openFiles_self]
    simp only [hset]
    rcases List.mem_append.mp hr with hr | hr
    · have hlt := h.before r hr k hk
      omega
    · rw [List.mem_singleton.mp hr] at hk
      rw [(hdescribes k).mp hk]
      exact Nat.lt_succ_self _
  · simp
  · intro k hk hchild
    rw [RuntimeFs.setOpen_openFiles_self] at hk
    simp only [hset] at hk
    rcases Nat.lt_or_ge k (fs.openFiles s).dirCursor.toNat with hbefore | hafter
    · obtain ⟨r, hr, hreports⟩ := h.reported k hbefore fun g hg ↦ hchild g (by simp [hg])
      exact ⟨r, List.mem_append_left _ hr, hreports⟩
    · -- the position has just passed the node, and it was a child then
      have hnow := hchild fs (List.mem_append_left _ h.last)
      have hkj : k = j := by
        by_contra hne
        have hlt : k < j := by
          rw [Fin.lt_def]
          have hval : (k : ℕ) ≠ j := fun heq ↦ hne (Fin.ext heq)
          omega
        exact hskipped k hafter hlt hnow
      exact ⟨_, List.mem_append_right _ (List.mem_singleton_self _), (hdescribes k).mpr hkj⟩

theorem ScanRun.invariant {start : RuntimeFs} (hsound : Sound start)
    (hlists : ListsDirectory start s) (hcursor : (start.openFiles s).dirCursor = 0)
    (h : ScanRun s start states entries fs) :
    ScanInvariant s (start.openFiles s).nodeIndex states entries fs := by
  induction h with
  | nil =>
    refine ⟨hsound, hlists, rfl, ?_, fun _ ↦ Nat.zero_le _, ?_, by simp, ?_⟩
    · intro r hr
      cases hr
    · intro r hr
      cases hr
    · intro i hi
      rw [hcursor] at hi
      exact absurd hi (Nat.not_lt_zero _)
  | other _ hcall hrun ih => exact ih.other hcall hrun
  | entry _ hobject hrun ih => exact ih.entry hobject hrun

end Invariant

/-- **A listing is complete**, whatever is called between its steps. From the open of a directory
for reading, as long as its slot is not closed, every entry that a listing through the slot stores
has the type and the name of exactly one child, and no node is described twice; and when a listing
answers 0, every node that has been a child of the directory in all states since the open has been
described once. -/
theorem directory_scan_complete {start : RuntimeFs} (h : ApiReachable fs) {pid flags o : UInt32}
    {path : Option CString} (hopen : runtimeFsOpen fs pid path flags (some o)
      = .ok (Status.ok, start, some (UInt32.ofNat ((s : ℕ) + 1))))
    (hread : flags &&& openRead ≠ 0)
    (hdir : (start.nodes (start.openFiles s).node).type = fileTypeDirectory)
    {states : List RuntimeFs} {entries : List (RuntimeFs × RuntimeDirEntry)}
    (hrun : ScanRun s start states entries fs') :
    (∀ r ∈ entries, ∃! i, Reports (start.openFiles s).nodeIndex i r) ∧
    (∀ i, entries.countP (Reports (start.openFiles s).nodeIndex i ·) ≤ 1) ∧
    ∀ (object : UInt32) (e e' : RuntimeDirEntry) (final : RuntimeFs), object.toNat = s + 1 →
      runtimeFsReaddir fs' object (some e) = .ok (0, final, some e') →
      ∀ i : Fin 16, (∀ g ∈ states, (g.nodes i).used ≠ 0 ∧
          (g.nodes i).parentIndex = (start.openFiles s).nodeIndex) →
        entries.countP (Reports (start.openFiles s).nodeIndex i ·) = 1 := by
  have hslot : ∃ node, start.openFiles s = openedSlot pid node flags := by
    obtain ⟨node, fs₁, -, -, rfl⟩ := runtimeFsOpen_eq_ok h.sound hopen
    exact ⟨node, RuntimeFs.setOpen_openFiles_self⟩
  obtain ⟨node, hslot⟩ := hslot
  have hlists : ListsDirectory start s := by
    refine ⟨?_, ?_, hdir⟩
    · rw [hslot]
      exact (by decide : (1 : UInt32) ≠ 0)
    · rw [hslot]
      exact hread
  have hcall : (FsCall.open pid path flags (some o)).run fs = .ok (Status.ok, start) := by
    rw [FsCall.run, hopen, ok_bind]
  have hstart := FsCall.sound_of_run h.sound hcall
  have hinv := hrun.invariant hstart hlists (by rw [hslot]; rfl)
  refine ⟨hinv.named, hinv.once, ?_⟩
  intro object e e' final hobject hzero i hchild
  obtain rfl : object = UInt32.ofNat ((s : ℕ) + 1) := by
    rw [← hobject]
    simp
  have hnone : nextEntry fs' s = none := by
    rcases runtimeFsReaddir_eq hinv.sound hinv.lists (fsOpenFileLookup_ofNat hinv.lists.used) e with
      ⟨hnone, -⟩ | ⟨j, -, heq⟩
    · exact hnone
    · exact absurd (congrArg Prod.fst (Except.ok.inj (heq.symm.trans hzero))) (by simp)
  have hnow := hchild fs' hinv.last
  have hbefore := nextEntry_eq_none hnone ⟨hnow.1, hnow.2.trans hinv.place.symm⟩
  obtain ⟨r, hr, hreports⟩ := hinv.reported i hbefore hchild
  have hpos : 0 < entries.countP (Reports (start.openFiles s).nodeIndex i ·) :=
    List.countP_pos_iff.mpr ⟨r, hr, decide_eq_true hreports⟩
  exact Nat.le_antisymm (hinv.once i) hpos

/-- A directory entry that nothing has been stored to. -/
def blankEntry : RuntimeDirEntry := ⟨0, fun _ ↦ 0⟩

/-- After `mkdir("/a")` and `mkdir("/a//b")` a listing of `/a` stores one entry, of a directory with
the name `b`. It describes node 2, and by the theorem it is the only one that does. -/
theorem directory_scan_complete_once : ∃ start states e' fs',
    ScanRun 0 start states [(start, e')] fs' ∧ e'.type = fileTypeDirectory ∧
    cstr (List.ofFn e'.name) = [98] ∧
    [(start, e')].countP (Reports (start.openFiles 0).nodeIndex 2 ·) = 1 := by
  have hruns : ((FsCall.mkdir 7 (some pathA) 493).run runtimeFsInit
      >>= fun a ↦ (FsCall.mkdir 7 (some pathAB) 493).run a.2
      >>= fun b ↦ runtimeFsOpen b.2 7 (some pathA) openRead (some 0)
      >>= fun c ↦ runtimeFsReaddir c.2.1 1 (some blankEntry)
      >>= fun d ↦ (runtimeFsReaddir d.2.1 1 (some blankEntry)).map fun f ↦
        ((c.1, c.2.2, (c.2.1.nodes (c.2.1.openFiles 0).node).type), (d.1, f.1, f.2.2.isSome),
          decide (d.2.2.map (fun e ↦ (e.type, cstr (List.ofFn e.name)))
              = some (fileTypeDirectory, [98]) ∧
            ∀ g ∈ [c.2.1, d.2.1], (g.nodes 2).used ≠ 0 ∧
              (g.nodes 2).parentIndex = (c.2.1.openFiles 0).nodeIndex)))
      = .ok ((Status.ok, some 1, fileTypeDirectory), (1, 0, true), true) := by
    decide +kernel
  obtain ⟨a, hmkdirA, hruns⟩ := bind_eq_ok.mp hruns
  obtain ⟨b, hmkdirB, hruns⟩ := bind_eq_ok.mp hruns
  obtain ⟨⟨status, start, object⟩, hopen, hruns⟩ := bind_eq_ok.mp hruns
  obtain ⟨⟨count, fs', entry⟩, hfirst, hruns⟩ := bind_eq_ok.mp hruns
  obtain ⟨⟨zero, final, entry'⟩, hsecond, hvalues⟩ := map_eq_ok.mp hruns
  simp only [Prod.mk.injEq, Option.isSome_iff_exists, Option.map_eq_some_iff,
    decide_eq_true_eq] at hvalues
  obtain ⟨⟨rfl, rfl, hdir⟩, ⟨rfl, rfl, e₂, rfl⟩, ⟨e₁, rfl, htype, hname⟩, hchild⟩ := hvalues
  have hreach : ApiReachable b.2 :=
    .step (.step (.start rfl) ⟨_, a.1, hmkdirA⟩) ⟨_, b.1, hmkdirB⟩
  have hscan : ScanRun 0 start ([start] ++ [fs']) ([] ++ [(start, e₁)]) fs' :=
    .entry .nil (by decide) hfirst
  exact ⟨start, _, e₁, fs', hscan, htype, hname,
    (directory_scan_complete hreach hopen (by decide) hdir hscan).2.2 1 blankEntry e₂ final
      (by decide) hsecond 2 hchild⟩

/-! ## What is reported -/

/-- Once the root has another parent it has a name that a path can spell. -/
def RootNamed (fs : RuntimeFs) : Prop :=
  (fs.nodes 0).used ≠ 0 → (fs.nodes 0).parentIndex ≠ 0 → slash ∉ (fs.nodes 0).text

theorem fsOpenTruncate_place (fs : RuntimeFs) (node : Fin 16) (flags : UInt32) (i : Fin 16) :
    ((fsOpenTruncate fs node flags).nodes i).parentIndex = (fs.nodes i).parentIndex ∧
      ((fsOpenTruncate fs node flags).nodes i).name = (fs.nodes i).name := by
  obtain ⟨_, _, hnode⟩ := fsOpenTruncate_nodes fs node flags i
  rw [hnode]
  exact ⟨rfl, rfl⟩

/-- A call leaves the place of the root as it is, or clears the root, or gives it a name that a path
can spell. -/
theorem FsMove.root_place (hmove : FsMove fs call status fs') :
    ((fs'.nodes 0).parentIndex = (fs.nodes 0).parentIndex ∧
      (fs'.nodes 0).name = (fs.nodes 0).name ∧ (fs'.nodes 0).used = (fs.nodes 0).used) ∨
    (fs'.nodes 0).used = 0 ∨ slash ∉ (fs'.nodes 0).text := by
  have htarget : ∀ {pid flags : UInt32} {path : Option CString} {node : Fin 16} {fs₁ : RuntimeFs},
      OpenTarget fs pid path flags node fs₁ → fs₁.nodes 0 = fs.nodes 0 := by
    intro pid flags path node fs₁ ht
    cases ht with
    | existing _ => rfl
    | created hc _ => exact RuntimeFs.setNode_nodes_of_ne (Ne.symm hc.node_ne)
  have htruncate : ∀ {pid flags : UInt32} {path : Option CString} {node : Fin 16}
      {fs₁ : RuntimeFs}, OpenTarget fs pid path flags node fs₁ →
      ((fsOpenTruncate fs₁ node flags).nodes 0).parentIndex = (fs.nodes 0).parentIndex ∧
        ((fsOpenTruncate fs₁ node flags).nodes 0).name = (fs.nodes 0).name ∧
        ((fsOpenTruncate fs₁ node flags).nodes 0).used = (fs.nodes 0).used := by
    intro pid flags path node fs₁ ht
    rw [(fsOpenTruncate_place _ _ _ _).1, (fsOpenTruncate_place _ _ _ _).2,
      (fsOpenTruncate_kind _ _ _ _).1, htarget ht]
    exact ⟨rfl, rfl, rfl⟩
  cases hmove with
  | idle => exact Or.inl ⟨rfl, rfl, rfl⟩
  | mkdir hc =>
    rw [RuntimeFs.setNode_nodes_of_ne (Ne.symm hc.node_ne)]
    exact Or.inl ⟨rfl, rfl, rfl⟩
  | opens ht _ _ => exact Or.inl (htruncate ht)
  | openFails ht _ hfs' =>
    rcases hfs' with rfl | rfl
    · rw [htarget ht]
      exact Or.inl ⟨rfl, rfl, rfl⟩
    · exact Or.inl (htruncate ht)
  | positions _ => exact Or.inl ⟨rfl, rfl, rfl⟩
  | @writes _ _ _ _ s _ _ hend =>
    left
    rw [RuntimeFs.setOpen_nodes]
    by_cases hnode : 0 = (fs.openFiles s).node
    · rw [← hnode, RuntimeFs.setNode_nodes_self, fsWriteNode_eq _ _ hend]
      exact ⟨rfl, rfl, rfl⟩
    · rw [RuntimeFs.setNode_nodes_of_ne hnode]
      exact ⟨rfl, rfl, rfl⟩
  | closes _ => exact Or.inl ⟨rfl, rfl, rfl⟩
  | @removes _ _ node _ =>
    by_cases hnode : 0 = node
    · right
      left
      rw [← hnode, RuntimeFs.setNode_nodes_self]
      rfl
    · rw [RuntimeFs.setNode_nodes_of_ne hnode]
      exact Or.inl ⟨rfl, rfl, rfl⟩
  | @renames _ _ _ node parent leaf hr =>
    by_cases hnode : 0 = node
    · obtain ⟨-, hslash, hnz, hlen, -, -⟩ := RuntimeFs.resolveParent_eq_ok hr.parentPath
      right
      right
      rw [← hnode, RuntimeFs.setNode_nodes_self, renamedNode_text fs 0 parent hnz hlen]
      exact hslash
    · rw [RuntimeFs.setNode_nodes_of_ne hnode]
      exact Or.inl ⟨rfl, rfl, rfl⟩

theorem ApiReachable.rootNamed (h : ApiReachable fs) : Sound fs ∧ RootNamed fs := by
  refine Reachable.invariant (P := fun fs ↦ Sound fs ∧ RootNamed fs) ?_ ?_ h
  · rintro _ rfl
    exact ⟨sound_init, fun _ hparent ↦ absurd rfl hparent⟩
  · rintro fs fs' ⟨hs, hnamed⟩ ⟨call, status, hrun⟩
    refine ⟨FsCall.sound_of_run hs hrun, ?_⟩
    rcases (FsCall.move hs hrun).root_place with ⟨hparent, hname, hused⟩ | hunused | hslash
    · intro hu hp
      rw [RuntimeFsNode.text, hname]
      exact hnamed (hused ▸ hu) (hparent ▸ hp)
    · exact fun hu ↦ absurd hunused hu
    · exact fun _ _ ↦ hslash

theorem Sound.component_eq_some (h : Sound fs) {i : Fin 16} (hu : (fs.nodes i).used ≠ 0) :
    fs.component (fs.nodes i).parent (fs.nodes i).text = some i := by
  have hshort := RuntimeFsNode.text_length_lt ((h.nodes.node i).terminated hu)
  have hval : ∀ j, (fs.nodes j).parentIndex.toNat = ((fs.nodes i).parent : ℕ) ↔
      (fs.nodes j).parent = (fs.nodes i).parent := by
    intro j
    rw [← (h.nodes.node j).val_parent, Fin.ext_iff]
  rw [RuntimeFs.component, if_neg (by omega)]
  cases hc : fs.child (fs.nodes i).parent (fs.nodes i).text with
  | none => exact absurd rfl (RuntimeFs.child_eq_none.mp hc i hu ((hval i).mpr rfl))
  | some j =>
    obtain ⟨hju, hjp, hjtext⟩ := RuntimeFs.child_eq_some hc
    rw [h.nodes.siblings j i hju hu ((hval j).mp hjp) hjtext]

/-- An entry that is reported is a proper child: it describes a used node other than the directory,
which has the directory as its parent, and which a path to the directory, a slash and the name of
the entry lead to. -/
def ProperEntry (fs : RuntimeFs) (s : Fin 8) (entry : RuntimeDirEntry) : Prop :=
  ∃ i : Fin 16, i ≠ (fs.openFiles s).node ∧ (fs.nodes i).used ≠ 0 ∧
    (fs.nodes i).parentIndex = (fs.openFiles s).nodeIndex ∧ entry.type = (fs.nodes i).type ∧
    cstr (List.ofFn entry.name) = (fs.nodes i).text ∧
    ∀ d whole : CString, fsResolvePath fs (some d) = .ok (some (fs.openFiles s).node) →
      whole.chars = d.chars ++ slash :: cstr (List.ofFn entry.name) →
      fsResolvePath fs (some whole) = .ok (some i)

/-- **Soundness of a listing.** In every reachable state, what a listing through a slot reports is a
proper child of the directory exactly if it is not the first listing of a root that is its own
parent. -/
theorem directory_scan_sound (h : ApiReachable fs) (hs : ListsDirectory fs s) {object : UInt32}
    (hobject : fsOpenFileLookup fs object = some s) (e : RuntimeDirEntry) :
    (∀ fs' entry, runtimeFsReaddir fs object (some e) = .ok (1, fs', some entry) →
      ProperEntry fs s entry) ↔
    ¬((fs.openFiles s).nodeIndex = 0 ∧ (fs.nodes 0).parentIndex = 0 ∧
      (fs.openFiles s).dirCursor = 0) := by
  obtain ⟨hsound, hnamed⟩ := h.rootNamed
  have hslot := hsound.slots s hs.used
  have hnodeIndex : ∀ i, (fs.nodes i).parentIndex = (fs.openFiles s).nodeIndex →
      (fs.nodes i).parent = (fs.openFiles s).node := by
    intro i hi
    rw [RuntimeFsNode.parent, hi]
    rfl
  constructor
  · rintro hsoundness ⟨hroot, hparent, hcursor⟩
    have hnode : (fs.openFiles s).node = 0 := by
      rw [RuntimeFsOpenFile.node, hroot]
      rfl
    have hused : (fs.nodes 0).used ≠ 0 := hnode ▸ hslot.node_used
    rcases runtimeFsReaddir_eq hsound hs hobject e with ⟨hnone, -⟩ | ⟨i, hnext, heq⟩
    · have hbefore := nextEntry_eq_none hnone (i := 0) ⟨hused, hparent.trans hroot.symm⟩
      rw [hcursor] at hbefore
      exact absurd hbefore (Nat.not_lt_zero _)
    · -- the root is the first child of itself
      have hi : i = 0 := by
        by_contra hne
        refine (nextEntry_eq_some hnext).2.2 0 ?_ (Fin.pos_of_ne_zero hne)
          ⟨hused, hparent.trans hroot.symm⟩
        rw [hcursor]
        exact Nat.zero_le _
      subst hi
      obtain ⟨j, hne, hju, hjparent, -, hjtext, -⟩ := hsoundness _ _ heq
      rw [hsound.entry_text hused] at hjtext
      refine hne ?_
      rw [hnode]
      refine hsound.nodes.siblings j 0 hju hused ?_ hjtext.symm
      rw [hnodeIndex j hjparent, hnodeIndex 0 (hparent.trans hroot.symm)]
  · rintro hnot fs' entry hentry
    rcases runtimeFsReaddir_eq hsound hs hobject e with ⟨-, heq⟩ | ⟨i, hnext, heq⟩
    · exact absurd (congrArg Prod.fst (Except.ok.inj (heq.symm.trans hentry))) (by simp)
    obtain rfl : _ = entry :=
      Option.some.inj (congrArg (fun r ↦ r.2.2) (Except.ok.inj (heq.symm.trans hentry)))
    obtain ⟨hle, ⟨hu, hparent⟩, -⟩ := nextEntry_eq_some hnext
    have hup := hnodeIndex i hparent
    have hne : i ≠ (fs.openFiles s).node := by
      intro hself
      have hi : i = 0 := by
        by_contra hi
        exact (hsound.nodes.rooted i).parent_ne hi (hup.trans hself.symm)
      subst hi
      have hroot : (fs.openFiles s).nodeIndex = 0 := by
        apply UInt32.toNat_inj.mp
        rw [← hslot.val_node, ← hself]
        rfl
      refine hnot ⟨hroot, hparent.trans hroot, UInt32.toNat_inj.mp ?_⟩
      exact Nat.le_zero.mp hle
    have hslash : slash ∉ (fs.nodes i).text := by
      by_cases hi : i = 0
      · subst hi
        refine hnamed hu fun hzero ↦ hne ?_
        rw [RuntimeFsOpenFile.node, ← hparent, hzero]
        rfl
      · exact hsound.nodes.text_slash i hi hu
    refine ⟨i, hne, hu, hparent, rfl, hsound.entry_text hu _, ?_⟩
    intro d whole hd hwhole
    rw [fsResolvePath_eq hsound.terminated] at hd ⊢
    have hd := Except.ok.inj hd
    rw [hsound.entry_text hu] at hwhole
    rw [RuntimeFs.resolve_append (resolve_eq_some_charAt hd) hwhole, hd, Option.bind_some,
      components_of_not_mem slash ((hsound.nodes.node i).text_ne hu) hslash, descend_cons, ← hup,
      hsound.component_eq_some hu]
    rfl

/-- After `mkdir("/a")` the theorem speaks of a listing of `/a`. -/
theorem directory_scan_sound_below : ∃ fs, ApiReachable fs ∧ ListsDirectory fs 0 ∧
    (fs.openFiles 0).nodeIndex = 1 ∧
    ∀ fs' entry, runtimeFsReaddir fs 1 (some blankEntry) = .ok (1, fs', some entry) →
      ProperEntry fs 0 entry := by
  have hruns : ((FsCall.mkdir 7 (some pathA) 493).run runtimeFsInit
      >>= fun a ↦ ((FsCall.open 7 (some pathA) openRead (some 0)).run a.2).map fun b ↦
        (((b.2.openFiles 0).used, (b.2.openFiles 0).nodeIndex, (b.2.openFiles 0).flags),
          (b.2.nodes (b.2.openFiles 0).node).type))
      = .ok ((1, 1, openRead), fileTypeDirectory) := by
    decide +kernel
  obtain ⟨a, hmkdir, hruns⟩ := bind_eq_ok.mp hruns
  obtain ⟨b, hopen, hvalues⟩ := map_eq_ok.mp hruns
  simp only [Prod.mk.injEq] at hvalues
  obtain ⟨⟨hused, hnode, hflags⟩, hdir⟩ := hvalues
  have hlists : ListsDirectory b.2 0 :=
    ⟨by rw [hused]; decide, by rw [hflags]; decide, hdir⟩
  have hreach : ApiReachable b.2 :=
    .step (.step (.start rfl) ⟨_, a.1, hmkdir⟩) ⟨_, b.1, hopen⟩
  have hlookup : fsOpenFileLookup b.2 1 = some 0 := fsOpenFileLookup_ofNat (s := 0) hlists.used
  refine ⟨b.2, hreach, hlists, hnode,
    (directory_scan_sound hreach hlists hlookup blankEntry).mpr ?_⟩
  rintro ⟨hroot, -, -⟩
  rw [hnode] at hroot
  exact absurd hroot (by decide)

/-- **The root lists itself**: the first entry of `/` is `/`, and no other node is in use. -/
theorem root_lists_itself : ∃ fs, ApiReachable fs ∧ ListsDirectory fs 0 ∧
    fsOpenFileLookup fs 1 = some 0 ∧
    ¬∀ fs' entry, runtimeFsReaddir fs 1 (some blankEntry) = .ok (1, fs', some entry) →
      ProperEntry fs 0 entry := by
  have hruns : ((FsCall.open 7 (some pathSlash) openRead (some 0)).run runtimeFsInit
      >>= fun a ↦ (runtimeFsReaddir a.2 1 (some blankEntry)).map fun b ↦
        (((a.2.openFiles 0).used, (a.2.openFiles 0).flags, (a.2.openFiles 0).node),
          (a.2.nodes (a.2.openFiles 0).node).type, b.1, b.2.2.isSome,
          decide (∀ i, i ≠ 0 → (a.2.nodes i).used = 0)))
      = .ok ((1, openRead, 0), fileTypeDirectory, 1, true, true) := by
    decide +kernel
  obtain ⟨a, hopen, hruns⟩ := bind_eq_ok.mp hruns
  obtain ⟨⟨count, fs', stored⟩, hreaddir, hvalues⟩ := map_eq_ok.mp hruns
  simp only [Prod.mk.injEq, Option.isSome_iff_exists, decide_eq_true_eq] at hvalues
  obtain ⟨⟨hused, hflags, hnode⟩, hdir, rfl, ⟨entry, rfl⟩, honly⟩ := hvalues
  have hlists : ListsDirectory a.2 0 :=
    ⟨by rw [hused]; decide, by rw [hflags]; decide, hdir⟩
  have hlookup : fsOpenFileLookup a.2 1 = some 0 := fsOpenFileLookup_ofNat (s := 0) hlists.used
  refine ⟨a.2, .step (.start rfl) ⟨_, a.1, hopen⟩, hlists, hlookup, fun hsound ↦ ?_⟩
  obtain ⟨i, hne, hi, -⟩ := hsound fs' entry hreaddir
  rw [hnode] at hne
  exact hi (honly i hne)

end TensorOS
