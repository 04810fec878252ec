import TensorOS.Fs.Paths

/-!
# Renaming

A rename writes two fields of one node. What it does to paths follows from the lookups before and
after: the node is moved below its new parent, with everything below it, and no other path changes
its meaning.

The source checks that the new parent is not below the node only if the node is a directory. This
is enough, since the parent walk has made sure that the new parent is a directory, and everything
above a directory is one.
-/

namespace TensorOS

variable {fs fs' : RuntimeFs} {pid : UInt32}

/-! ## The parent of a path -/

/-- The parent walk goes where the names before the last lead. -/
theorem RuntimeFs.parentWalk_descend {current parent : Fin 16} {tok leaf : List UInt8}
    {rest : List (List UInt8)} (htok : tok.length < 16)
    (h : fs.parentWalk current tok rest = .ok (leaf, parent)) :
    ∃ before, tok :: rest = before ++ [leaf] ∧
      descend fs.component current before = some parent := by
  induction rest generalizing current tok with
  | nil =>
    rw [parentWalk] at h
    obtain ⟨rfl, rfl⟩ : tok = leaf ∧ current = parent := by simpa using h
    exact ⟨[], rfl, rfl⟩
  | cons next rest ih =>
    rw [parentWalk] at h
    by_cases hlong : 16 ≤ next.length
    · simp [hlong] at h
    rw [if_neg hlong] at h
    cases hchild : fs.child current tok with
    | none => simp [hchild] at h
    | some i =>
      by_cases hdir : (fs.nodes i).type = fileTypeDirectory
      · simp only [hchild, hdir, ne_eq, not_true_eq_false, if_false] at h
        obtain ⟨before, hnames, hbefore⟩ := ih (by omega) h
        refine ⟨tok :: before, by rw [hnames]; rfl, ?_⟩
        rw [descend_cons, component, if_neg (by omega), hchild]
        exact hbefore
      · simp [hchild, hdir] at h

theorem RuntimeFs.resolveParent_descend {path : CString} {leaf : List UInt8} {parent : Fin 16}
    (h : fs.resolveParent (some path) = .ok (leaf, parent)) :
    ∃ before, components slash path.chars = before ++ [leaf] ∧
      descend fs.component 0 before = some parent := by
  have h₀ := resolveParent_eq_ok_charAt h
  cases hcomp : components slash path.chars with
  | nil => simp [resolveParent, h₀, hcomp] at h
  | cons tok rest =>
    by_cases hlong : 16 ≤ tok.length
    · simp [resolveParent, h₀, hcomp, hlong] at h
    · simp only [resolveParent, h₀, hcomp, hlong, if_true, if_false] at h
      exact parentWalk_descend (by omega) h

/-! ## The lookups before and after -/

/-- **A rename is a move** of its node. -/
theorem Renames.isMove (h : Sound fs) (hroot : RootIntact fs) {p q : CString}
    {node parent : Fin 16} {leaf : List UInt8} (hr : Renames fs pid p q node leaf parent)
    (hnode : node ≠ 0) :
    IsMove (fun j ↦ (fs.nodes j).parent) 0 (fun j ↦ (fs.nodes j).text)
      (fun j ↦ (fs.nodes j).used ≠ 0) (slash ∉ ·) fs.component
      (fs.setNode node (renamedNode fs node leaf parent)).component node parent leaf := by
  obtain ⟨-, hslash, hnz, hlen, hparent, hresolve⟩ := RuntimeFs.resolveParent_eq_ok hr.parentPath
  have hnot : ¬OnChain (fun j ↦ (fs.nodes j).parent) 0 node parent := by
    intro hon
    rcases hparent with h0 | hd
    · exact hon.ne_root h0
    · exact hr.not_below (h.nodes.dir_of_onChain hd hon) hon
  have hused : (fs.nodes node).used ≠ 0 :=
    (RuntimeFs.resolve_eq_some hr.resolves).resolve_left hnode
  have hafter := ((h.rename hr).named (hroot.setNode hnode _)).isLookup
  have hparents : (fun j ↦ ((fs.setNode node (renamedNode fs node leaf parent)).nodes j).parent)
      = Function.update (fun j ↦ (fs.nodes j).parent) node parent := by
    funext j
    by_cases hj : j = node
    · rw [hj, RuntimeFs.setNode_nodes_self, Function.update_self, renamedNode_parent]
    · rw [RuntimeFs.setNode_nodes_of_ne hj, Function.update_of_ne hj]
  have htexts : (fun j ↦ ((fs.setNode node (renamedNode fs node leaf parent)).nodes j).text)
      = Function.update (fun j ↦ (fs.nodes j).text) node leaf := by
    funext j
    by_cases hj : j = node
    · rw [hj, RuntimeFs.setNode_nodes_self, Function.update_self,
        renamedNode_text fs node parent hnz hlen]
    · rw [RuntimeFs.setNode_nodes_of_ne hj, Function.update_of_ne hj]
  have hpresent : (fun j ↦ ((fs.setNode node (renamedNode fs node leaf parent)).nodes j).used ≠ 0)
      = fun j ↦ (fs.nodes j).used ≠ 0 := by
    funext j
    by_cases hj : j = node
    · rw [hj, RuntimeFs.setNode_nodes_self]
      rfl
    · rw [RuntimeFs.setNode_nodes_of_ne hj]
  rw [hparents, htexts, hpresent] at hafter
  constructor
  · exact (h.named hroot).isLookup
  · exact hafter
  · exact h.nodes.rooted node
  · exact hnode
  · exact hused
  · exact hnot
  · exact hslash
  · rw [RuntimeFs.component, if_neg (by omega)]
    exact hresolve.symm.trans hr.unresolved

/-! ## What a rename does -/

/-- Some initial part of the path leads to the node. -/
def PassesThrough (fs : RuntimeFs) (path : CString) (node : Fin 16) : Prop :=
  ∃ before, before <+: components slash path.chars ∧ fs.walk 0 before = some node

/-- The path of a renamed node continues as the old one did: the suffix is empty or starts with a
slash. -/
structure SuffixOf (path whole : CString) (suffix : List UInt8) : Prop where
  chars : whole.chars = path.chars ++ suffix
  starts : suffix = [] ∨ ∃ below, suffix = slash :: below

theorem SuffixOf.components_eq {path whole : CString} {suffix : List UInt8}
    (h : SuffixOf path whole suffix) :
    components slash whole.chars = components slash path.chars ++ components slash suffix := by
  rw [h.chars]
  rcases h.starts with rfl | ⟨below, rfl⟩
  · simp
  · rw [components_append_sep, components_cons_sep]

theorem SuffixOf.resolve_eq {path whole : CString} {suffix : List UInt8}
    (h : SuffixOf path whole suffix) (h₀ : path.charAt 0 = slash) :
    fs.resolve (some whole) = (descend fs.component 0 (components slash path.chars)).bind
      fun i ↦ descend fs.component i (components slash suffix) := by
  have hwhole₀ : whole.charAt 0 = slash := by
    cases hchars : path.chars with
    | nil => simp [CString.charAt, hchars, slash] at h₀
    | cons c l => simpa [CString.charAt, h.chars, hchars] using h₀
  rw [RuntimeFs.resolve, if_pos hwhole₀, h.components_eq, RuntimeFs.walk_eq_descend, descend_append]

/-- What a rename that moves `node` from one path to another leaves behind. -/
structure MovesSubtree (fs fs' : RuntimeFs) (oldPath newPath : CString) (node : Fin 16) : Prop where
  /-- What the old path and a suffix named is named by the new path and the suffix. -/
  moved : ∀ suffix oldWhole newWhole, SuffixOf oldPath oldWhole suffix →
    SuffixOf newPath newWhole suffix →
    fsResolvePath fs' (some newWhole) = fsResolvePath fs (some oldWhole)
  /-- The old path names nothing. -/
  gone : fsResolvePath fs' (some oldPath) = .ok none
  /-- A path that did not pass through the node names what it named. -/
  kept : ∀ path i, fsResolvePath fs (some path) = .ok (some i) → ¬PassesThrough fs path node →
    fsResolvePath fs' (some path) = .ok (some i)
  /-- The other nodes are as they were. -/
  others : ∀ j, j ≠ node → fs'.nodes j = fs.nodes j
  /-- So is the node itself, apart from its parent and its name. -/
  contents : (fs'.nodes node).used = (fs.nodes node).used ∧
    (fs'.nodes node).type = (fs.nodes node).type ∧
    (fs'.nodes node).ownerPid = (fs.nodes node).ownerPid ∧
    (fs'.nodes node).mode = (fs.nodes node).mode ∧
    (fs'.nodes node).sizeBytes = (fs.nodes node).sizeBytes ∧
    (fs'.nodes node).data = (fs.nodes node).data
  slots : fs'.openFiles = fs.openFiles

theorem Renames.movesSubtree (h : Sound fs) (hroot : RootIntact fs) {p q : CString}
    {node parent : Fin 16} {leaf : List UInt8} (hr : Renames fs pid p q node leaf parent)
    (hnode : node ≠ 0) :
    MovesSubtree fs (fs.setNode node (renamedNode fs node leaf parent)) p q node := by
  have hmove := hr.isMove h hroot hnode
  have hterm := h.terminated
  have hterm' := (h.rename hr).terminated
  have hp₀ := resolve_eq_some_charAt hr.resolves
  have hq₀ := resolveParent_eq_ok_charAt hr.parentPath
  have hlegal : ∀ (l : List UInt8), ∀ n ∈ components slash l, slash ∉ n :=
    fun l n hn ↦ (mem_components slash hn).2.1
  have hold : descend fs.component 0 (components slash p.chars) = some node := by
    rw [← RuntimeFs.walk_eq_descend]
    have hres := hr.resolves
    rwa [RuntimeFs.resolve, if_pos hp₀] at hres
  obtain ⟨before, hnames, hbefore⟩ := RuntimeFs.resolveParent_descend hr.parentPath
  have hnew : descend (fs.setNode node (renamedNode fs node leaf parent)).component 0
      (components slash q.chars) = some node := by
    rw [hnames]
    refine hmove.descend_new (fun n hn ↦ hlegal q.chars n ?_) hbefore
    rw [hnames]
    exact List.mem_append_left _ hn
  constructor
  · intro suffix oldWhole newWhole hsold hsnew
    rw [fsResolvePath_eq hterm', fsResolvePath_eq hterm, hsnew.resolve_eq hq₀, hsold.resolve_eq hp₀,
      hold, hnew, Option.bind_some, Option.bind_some, hmove.descend_below (hlegal suffix)]
  · rw [fsResolvePath_eq hterm', RuntimeFs.resolve, if_pos hp₀, RuntimeFs.walk_eq_descend,
      hmove.descend_old (hlegal p.chars) hold]
  · intro path i hi havoids
    rw [fsResolvePath_eq hterm] at hi
    have hi := Except.ok.inj hi
    have h₀ := resolve_eq_some_charAt hi
    rw [RuntimeFs.resolve, if_pos h₀, RuntimeFs.walk_eq_descend] at hi
    rw [fsResolvePath_eq hterm', RuntimeFs.resolve, if_pos h₀, RuntimeFs.walk_eq_descend]
    refine congrArg Except.ok (hmove.descend_of_avoids (hlegal path.chars) hi ?_)
    intro names hprefix hto
    exact havoids ⟨names, hprefix, by rw [RuntimeFs.walk_eq_descend, hto]⟩
  · intro j hj
    exact RuntimeFs.setNode_nodes_of_ne hj
  · rw [RuntimeFs.setNode_nodes_self]
    exact ⟨rfl, rfl, rfl, rfl, rfl, rfl⟩
  · rfl

/-- **A rename moves one subtree.** From every reachable state that the validator accepts, a rename
between different paths that answers OK, and whose old path does not name the root, moves the node
that the old path names, and everything below it, to the new path; nothing else changes. -/
theorem rename_moves_subtree (h : ApiReachable fs) (hvalid : runtimeFsValidate fs = .ok Status.ok)
    {oldPath newPath : CString} (hdistinct : oldPath ≠ newPath)
    (hold : fsResolvePath fs (some oldPath) ≠ .ok (some 0))
    (hrun : runtimeFsRename fs pid (some oldPath) (some newPath) = .ok (Status.ok, fs')) :
    ∃ node, fsResolvePath fs (some oldPath) = .ok (some node) ∧
      MovesSubtree fs fs' oldPath newPath node := by
  have hsound := h.sound
  have hroot := rootIntact_of_validate hvalid
  rcases runtimeFsRename_spec hsound pid (some oldPath) (some newPath) with
    ⟨_, status, hstatus, heq⟩ | ⟨p, q, node, leaf, parent, hp, hq, hr, heq⟩
  · have hok : status = Status.ok := congrArg Prod.fst (Except.ok.inj (heq.symm.trans hrun))
    rcases hstatus with hneg | ⟨-, hsame⟩
    · exact absurd hneg (by rw [hok]; decide)
    · exact absurd (Option.some.inj hsame) hdistinct
  · obtain rfl := Option.some.inj hp
    obtain rfl := Option.some.inj hq
    obtain rfl : _ = fs' := congrArg Prod.snd (Except.ok.inj (heq.symm.trans hrun))
    have hresolve : fsResolvePath fs (some oldPath) = .ok (some node) := by
      rw [fsResolvePath_eq hsound.terminated, hr.resolves]
    have hnode : node ≠ 0 := by
      rintro rfl
      exact hold hresolve
    exact ⟨node, hresolve, hr.movesSubtree hsound hroot hnode⟩

/-- The path `/c`. -/
def pathC : CString := ⟨[slash, 99], by simp [slash]⟩

/-- After `mkdir("/a")` and `mkdir("/a//b")` the theorem speaks of the rename of `/a` to `/c`. -/
theorem rename_moves_subtree_a : ∃ fs fs', ApiReachable fs ∧
    runtimeFsRename fs 7 (some pathA) (some pathC) = .ok (Status.ok, fs') ∧
    ∃ node, fsResolvePath fs (some pathA) = .ok (some node) ∧
      MovesSubtree fs fs' pathA pathC node := by
  have hruns : ((FsCall.mkdir 7 (some pathA) 493).run runtimeFsInit
      >>= fun a ↦ (FsCall.mkdir 7 (some pathAB) 493).run a.2
      >>= fun b ↦ (runtimeFsRename b.2 7 (some pathA) (some pathC)).map fun c ↦
        (c.1, runtimeFsValidate b.2, fsResolvePath b.2 (some pathA)))
      = .ok (Status.ok, .ok Status.ok, .ok (some 1)) := by
    decide +kernel
  obtain ⟨a, hmkdirA, hruns⟩ := bind_eq_ok.mp hruns
  obtain ⟨b, hmkdirB, hruns⟩ := bind_eq_ok.mp hruns
  obtain ⟨⟨status, fs'⟩, hrename, hvalues⟩ := map_eq_ok.mp hruns
  simp only [Prod.mk.injEq] at hvalues
  obtain ⟨rfl, hvalid, hresolve⟩ := hvalues
  have hreach : ApiReachable b.2 :=
    .step (.step (.start rfl) ⟨_, a.1, hmkdirA⟩) ⟨_, b.1, hmkdirB⟩
  have hnotRoot : fsResolvePath b.2 (some pathA) ≠ .ok (some 0) := by
    rw [hresolve]
    decide
  exact ⟨b.2, fs', hreach, hrename,
    rename_moves_subtree hreach hvalid (by decide) hnotRoot hrename⟩

end TensorOS
