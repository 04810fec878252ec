import TensorOS.Fs.Run
import TensorOS.Lib.Naming

/-!
# Paths and nodes

A path is text, a node is an index, and the two correspond: the names met on the way down to a node,
joined with slashes, name the node, and a path names a node only if its components are these names.

## Which file systems

The correspondence rests on the checks of the validator and on nothing else (`Named`), so that it
serves both for states that calls lead to and for states an image was loaded into. Names may
contain a slash there. Such a name is never found, since a component holds no slash, and this is
the only way in which a node can be out of reach (`Named.resolve_canonicalPath_iff`).

## The two walkers

`fs_resolve_parent_path` rejects more than `fs_resolve_path` on its way: a component that is too
long is seen one step earlier, and a node that is not a directory ends the walk. Neither makes a
difference to the answer, since nothing hangs below a file.
-/

namespace TensorOS

variable {fs : RuntimeFs}

/-! ## The two walkers -/

/-- Where the parent walk fails, the walk finds nothing. -/
theorem RuntimeFs.parentWalk_eq_error {current : Fin 16} {tok : List UInt8}
    {rest : List (List UInt8)} {status : Int}
    (hdir : ∀ i p : Fin 16, (fs.nodes i).used ≠ 0 → (fs.nodes i).parentIndex.toNat = p →
      (fs.nodes p).type = fileTypeDirectory)
    (htok : tok.length < 16) (h : fs.parentWalk current tok rest = .error status) :
    fs.walk current (tok :: rest) = none := by
  induction rest generalizing current tok with
  | nil => exact absurd h (by simp [parentWalk])
  | cons next rest ih =>
    rw [walk_cons htok]
    cases hchild : fs.child current tok with
    | none => rfl
    | some i =>
      rw [Option.bind_some]
      by_cases hlong : 16 ≤ next.length
      · rw [walk, if_pos hlong]
      by_cases htype : (fs.nodes i).type = fileTypeDirectory
      · apply ih (by omega)
        simpa [parentWalk, hlong, hchild, htype] using h
      · -- the source stops at a file; the other walker goes on and finds no child there
        have hnone : fs.child i next = none := by
          rw [child_eq_none]
          intro j hj hparent
          exact absurd (hdir j i hj hparent) htype
        rw [walk_cons (by omega), hnone]
        rfl

/-- Where the parent of a path that has a component is not found, the path names nothing. -/
theorem RuntimeFs.resolveParent_eq_error {path : CString} {status : Int}
    (hdir : ∀ i p : Fin 16, (fs.nodes i).used ≠ 0 → (fs.nodes i).parentIndex.toNat = p →
      (fs.nodes p).type = fileTypeDirectory)
    (hcomp : components slash path.chars ≠ [])
    (h : fs.resolveParent (some path) = .error status) : fs.resolve (some path) = none := by
  by_cases h₀ : path.charAt 0 = slash
  · rw [resolve, if_pos h₀]
    rw [resolveParent, if_pos h₀] at h
    cases hcs : components slash path.chars with
    | nil => exact absurd hcs hcomp
    | cons tok rest =>
      by_cases hlong : 16 ≤ tok.length
      · rw [walk, if_pos hlong]
      · simp only [hcs, hlong, if_false] at h
        exact parentWalk_eq_error hdir (by omega) h
  · rw [resolve, if_neg h₀]

/-- A text that is not made of separators alone has a component. -/
theorem components_ne_nil {path : List UInt8} (h : ∃ c ∈ path, c ≠ slash) :
    components slash path ≠ [] := by
  obtain ⟨c, hc, hne⟩ := h
  rw [← components_dropWhile_sep]
  cases hscan : path.dropWhile (· = slash) with
  | nil =>
    have hall := List.dropWhile_eq_nil_iff.mp hscan c hc
    exact absurd (by simpa using hall) hne
  | cons d rest =>
    have hd : d ≠ slash := by
      have hhead := List.head?_dropWhile_not (· = slash) path
      rw [hscan] at hhead
      simpa using hhead
    rw [components_eq_cons slash hd]
    simp

/-- **The two walkers agree.** For a path with a component, `fs_resolve_parent_path` returns; a
parent and a leaf name it returns are those of the node `fs_resolve_path` finds, and where it
returns an error `fs_resolve_path` finds nothing. -/
theorem path_walkers_agree (h : IsTree fs) (path : CString) (hname : ∃ c ∈ path.chars, c ≠ slash) :
    (∃ leaf parent, fsResolveParentPath fs (some path) = .ok (.ok (leaf, parent)) ∧
        fsResolvePath fs (some path) = fsFindChild fs parent (leaf ++ [0])) ∨
      (∃ status, fsResolveParentPath fs (some path) = .ok (.error status) ∧
        fsResolvePath fs (some path) = .ok none) := by
  have hterm : fs.Terminated := h.terminated
  rw [fsResolveParentPath_eq hterm, fsResolvePath_eq hterm]
  cases hparent : fs.resolveParent (some path) with
  | ok found =>
    obtain ⟨leaf, parent⟩ := found
    obtain ⟨-, -, hnonzero, -, -, hresolve⟩ := RuntimeFs.resolveParent_eq_ok hparent
    refine Or.inl ⟨leaf, parent, rfl, ?_⟩
    rw [fsFindChild_eq hterm hnonzero, hresolve]
  | error status =>
    refine Or.inr ⟨status, rfl, ?_⟩
    rw [RuntimeFs.resolveParent_eq_error ?_ (components_ne_nil hname) hparent]
    intro i p hused hp
    obtain ⟨q, hq, -, hqdir⟩ := h.parent_dir i hused
    obtain rfl : p = q := Fin.ext (hp.symm.trans hq)
    exact hqdir

/-- The path `/a//b`. -/
def pathAB : CString := ⟨[slash, 97, slash, slash, 98], by simp [slash]⟩

/-- After `mkdir("/a")` the theorem speaks of the path `/a//b`, which names nothing yet. -/
theorem path_walkers_agree_below_a : ∃ fs, IsTree fs ∧ (fs.nodes 1).used ≠ 0 ∧
    ((∃ leaf parent, fsResolveParentPath fs (some pathAB) = .ok (.ok (leaf, parent)) ∧
        fsResolvePath fs (some pathAB) = fsFindChild fs parent (leaf ++ [0])) ∨
      (∃ status, fsResolveParentPath fs (some pathAB) = .ok (.error status) ∧
        fsResolvePath fs (some pathAB) = .ok none)) := by
  have hused : ((FsCall.mkdir 7 (some pathA) 493).run runtimeFsInit).map
      (fun r ↦ (r.2.nodes 1).used) = .ok 1 := by decide +kernel
  obtain ⟨r, hrun, hnode⟩ := map_eq_ok.mp hused
  have hspare : (FsCall.mkdir 7 (some pathA) 493).SparesRoot runtimeFsInit := trivial
  have hroot := FsCall.run_rootIntact sound_init rootIntact_init hspare hrun
  have htree := (FsCall.sound_of_run sound_init hrun).isTree hroot
  have hone : (r.2.nodes 1).used ≠ 0 := by
    rw [hnode]
    decide
  exact ⟨r.2, htree, hone, path_walkers_agree htree pathAB ⟨98, by decide, by decide⟩⟩

/-! ## Looking up one name -/

/-- The lookup of one component. One that does not fit a name finds nothing. -/
def RuntimeFs.component (fs : RuntimeFs) (parent : Fin 16) (tok : List UInt8) : Option (Fin 16) :=
  if 16 ≤ tok.length then none else fs.child parent tok

theorem RuntimeFs.walk_eq_descend (current : Fin 16) (toks : List (List UInt8)) :
    fs.walk current toks = descend fs.component current toks := by
  induction toks generalizing current with
  | nil => rfl
  | cons tok rest ih =>
    rw [descend_cons, component]
    by_cases hlong : 16 ≤ tok.length
    · rw [walk, if_pos hlong, if_pos hlong]
      rfl
    · rw [walk_cons (by omega), if_neg hlong]
      congr 1
      funext next
      exact ih next

/-- A path after which a slash follows is walked first. -/
theorem RuntimeFs.resolve_append {path whole : CString} {below : List UInt8}
    (h₀ : path.charAt 0 = slash) (hwhole : whole.chars = path.chars ++ slash :: below) :
    fs.resolve (some whole) = (fs.resolve (some path)).bind fun i ↦
      descend fs.component i (components slash below) := by
  have hwhole₀ : whole.charAt 0 = slash := by
    cases hchars : path.chars with
    | nil => simp [CString.charAt, hchars, slash] at h₀
    | cons c l =>
      simpa [CString.charAt, hwhole, hchars] using h₀
  rw [resolve, resolve, if_pos h₀, if_pos hwhole₀, hwhole, components_append_sep, walk_eq_descend,
    walk_eq_descend, descend_append]

/-- What the correspondence of paths and nodes rests on. -/
structure Named (fs : RuntimeFs) : Prop extends Sane fs where
  siblings : ∀ i j, i ≠ 0 → j ≠ 0 → (fs.nodes i).used ≠ 0 → (fs.nodes j).used ≠ 0 →
    (fs.nodes i).parent = (fs.nodes j).parent → (fs.nodes i).text = (fs.nodes j).text → i = j

theorem Sound.named (h : Sound fs) (hroot : RootIntact fs) : Named fs where
  toSane := h.sane hroot
  siblings i j _ _ hi hj := h.nodes.siblings i j hi hj

/-- A sane file system that the validator accepts is named. -/
theorem Sane.named (h : Sane fs) (hvalid : runtimeFsValidate fs = .ok Status.ok) : Named fs where
  toSane := h
  siblings i j hi hj hui huj hparent htext := by
    rw [h.runtimeFsValidate_eq] at hvalid
    have hnone : ¬∃ i j, i ≠ 0 ∧ (fs.nodes i).used ≠ 0 ∧ Collides fs i j := by
      intro hcollides
      rw [if_pos hcollides] at hvalid
      exact absurd (Except.ok.inj hvalid) (by decide)
    have hindex : (fs.nodes i).parentIndex = (fs.nodes j).parentIndex := by
      rw [(h.nodes i hi hui).parentIndex_eq, (h.nodes j hj huj).parentIndex_eq, hparent]
    rcases lt_trichotomy i j with hlt | heq | hlt
    · exact absurd ⟨i, j, hi, hui, hlt, huj, hindex.symm, htext.symm⟩ hnone
    · exact heq
    · exact absurd ⟨j, i, hj, huj, hlt, hui, hindex, htext⟩ hnone

theorem RuntimeFsNode.text_length_lt {node : RuntimeFsNode} (h : ∃ k, node.name k = 0) :
    node.text.length < 16 := by
  obtain ⟨k, hk⟩ := h
  have hmem : (0 : UInt8) ∈ List.ofFn node.name := by
    rw [← hk]
    exact List.mem_ofFn.mpr ⟨k, rfl⟩
  simpa [RuntimeFsNode.text] using cstr_length_lt hmem

theorem RootIntact.text_eq (h : RootIntact fs) : (fs.nodes 0).text = [slash] := by
  rw [RuntimeFsNode.text, List.ofFn_succ, List.ofFn_succ, h.name_zero,
    show Fin.succ (0 : Fin 15) = (1 : Fin 16) from rfl, h.name_one,
    cstr_cons_of_ne (by decide), cstr_cons_zero]

theorem RootIntact.parent_eq (h : RootIntact fs) : (fs.nodes 0).parent = 0 := by
  rw [RuntimeFsNode.parent, h.parentIndex]
  rfl

theorem Named.text_ne_nil (h : Named fs) {i : Fin 16} (hi : i ≠ 0) (hu : (fs.nodes i).used ≠ 0) :
    (fs.nodes i).text ≠ [] := by
  rw [RuntimeFsNode.text, List.ofFn_succ, cstr_cons_of_ne (h.nodes i hi hu).name_ne]
  simp

theorem Named.isLookup (h : Named fs) : IsLookup (fun j ↦ (fs.nodes j).parent) 0
    (fun j ↦ (fs.nodes j).text) (fun j ↦ (fs.nodes j).used ≠ 0) (slash ∉ ·) fs.component := by
  constructor
  intro q n i hn
  have hroot : (fs.nodes 0).text ≠ n := by
    intro htext
    rw [h.root.text_eq] at htext
    exact hn (by simp [← htext])
  have hparent : ∀ j, j ≠ 0 → (fs.nodes j).used ≠ 0 →
      ((fs.nodes j).parentIndex.toNat = q ↔ (fs.nodes j).parent = q) := by
    intro j hj hu
    rw [← (h.nodes j hj hu).val_parent, Fin.ext_iff]
  rw [RuntimeFs.component]
  constructor
  · intro hi
    split at hi
    · cases hi
    obtain ⟨hu, hp, htext⟩ := RuntimeFs.child_eq_some hi
    have hi0 : i ≠ 0 := by
      rintro rfl
      exact hroot htext
    exact ⟨hu, hi0, (hparent i hi0 hu).mp hp, htext⟩
  · rintro ⟨hu, hi0, hp, rfl⟩
    have hshort := RuntimeFsNode.text_length_lt (h.nodes i hi0 hu).terminated
    rw [if_neg (by omega)]
    cases hc : fs.child q (fs.nodes i).text with
    | none => exact absurd rfl (RuntimeFs.child_eq_none.mp hc i hu ((hparent i hi0 hu).mpr hp))
    | some j =>
      obtain ⟨hju, hjp, hjtext⟩ := RuntimeFs.child_eq_some hc
      have hj0 : j ≠ 0 := by
        rintro rfl
        exact hroot hjtext
      rw [h.siblings j i hj0 hi0 hju hu (((hparent j hj0 hju).mp hjp).trans hp.symm) hjtext]

/-! ## Canonical paths -/

/-- The names on the chain from the root to a node. -/
def RuntimeFs.chainNames (fs : RuntimeFs) (i : Fin 16) : List (List UInt8) :=
  trail (fun j ↦ (fs.nodes j).parent) 0 (fun j ↦ (fs.nodes j).text) 16 i

/-- The absolute path made of the names on the chain from the root to a node. -/
def RuntimeFs.canonicalPath (fs : RuntimeFs) (i : Fin 16) : CString where
  chars := if i = 0 then [slash] else joinComponents slash (fs.chainNames i)
  nonzero := by
    intro c hc
    split at hc
    · rw [List.mem_singleton.mp hc]
      decide
    · obtain ⟨n, hn, hc⟩ := List.mem_flatMap.mp hc
      rcases List.mem_cons.mp hc with rfl | hc
      · decide
      · obtain ⟨j, rfl⟩ := exists_of_mem_trail hn
        exact ne_zero_of_mem_cstr hc

namespace Named

/-- **Paths and nodes.** A path names a node exactly if it is absolute, the node is in use and the
components of the path are the names on the chain of the node. -/
theorem resolve_eq_some_iff (h : Named fs) {path : CString} {i : Fin 16} :
    fs.resolve (some path) = some i ↔ path.charAt 0 = slash ∧ (fs.nodes i).used ≠ 0 ∧
      fs.chainNames i = components slash path.chars := by
  by_cases h₀ : path.charAt 0 = slash
  · have hiff := h.isLookup.descend_eq_some_iff
      (fun j hj hne ↦ Or.inr (h.nodes j hne hj).parent_used)
      (fun j hj ↦ if hj0 : j = 0 then hj0 ▸ .root else (h.nodes j hj0 hj).rooted)
      (i := i) fun n (hn : n ∈ components slash path.chars) ↦ (mem_components slash hn).2.1
    have hused : (i = 0 ∨ (fs.nodes i).used ≠ 0) ↔ (fs.nodes i).used ≠ 0 := by
      refine ⟨fun hi ↦ ?_, Or.inr⟩
      rcases hi with rfl | hi
      · exact h.root.used
      · exact hi
    rw [RuntimeFs.resolve, if_pos h₀, RuntimeFs.walk_eq_descend, hiff, hused]
    simp only [h₀, true_and]
    rfl
  · simp [RuntimeFs.resolve, h₀]

theorem chainNames_root : fs.chainNames 0 = [] := trail_root 16

theorem chainNames_eq (h : Named fs) {i : Fin 16} (hi : i ≠ 0) (hu : (fs.nodes i).used ≠ 0) :
    fs.chainNames i = fs.chainNames (fs.nodes i).parent ++ [(fs.nodes i).text] :=
  (h.nodes i hi hu).rooted.trail_eq hi

/-- The names on a chain are names of used nodes below the root. -/
theorem exists_of_mem_chainNames (h : Named fs) {i : Fin 16} (hu : (fs.nodes i).used ≠ 0)
    {n : List UInt8} (hn : n ∈ fs.chainNames i) :
    ∃ j, j ≠ 0 ∧ (fs.nodes j).used ≠ 0 ∧ (fs.nodes j).text = n := by
  by_cases hi : i = 0
  · rw [hi, chainNames_root] at hn
    exact absurd hn List.not_mem_nil
  have hrooted := (h.nodes i hi hu).rooted
  induction hrooted with
  | root => exact absurd rfl hi
  | @step i hne hrest ih =>
    rw [h.chainNames_eq hne hu] at hn
    rcases List.mem_append.mp hn with hn | hn
    · by_cases hparent : (fs.nodes i).parent = 0
      · rw [hparent, chainNames_root] at hn
        exact absurd hn List.not_mem_nil
      · exact ih (h.nodes i hne hu).parent_used hn hparent
    · exact ⟨i, hne, hu, (List.mem_singleton.mp hn).symm⟩

theorem ne_nil_of_mem_chainNames (h : Named fs) {i : Fin 16} (hu : (fs.nodes i).used ≠ 0)
    {n : List UInt8} (hn : n ∈ fs.chainNames i) : n ≠ [] := by
  obtain ⟨j, hj, hju, rfl⟩ := h.exists_of_mem_chainNames hu hn
  exact h.text_ne_nil hj hju

theorem canonicalPath_charAt (h : Named fs) {i : Fin 16} (hu : (fs.nodes i).used ≠ 0) :
    (fs.canonicalPath i).charAt 0 = slash := by
  by_cases hi : i = 0
  · simp [RuntimeFs.canonicalPath, CString.charAt, hi]
  · rw [CString.charAt, RuntimeFs.canonicalPath]
    simp only [hi, if_false]
    rw [h.chainNames_eq hi hu]
    cases hnames : fs.chainNames (fs.nodes i).parent with
    | nil => simp [joinComponents]
    | cons n names => simp [joinComponents]

/-- **When a node is addressable.** The canonical path of a node names it exactly if no name on its
chain holds a slash. -/
theorem resolve_canonicalPath_iff (h : Named fs) {i : Fin 16} (hu : (fs.nodes i).used ≠ 0) :
    fs.resolve (some (fs.canonicalPath i)) = some i ↔ ∀ n ∈ fs.chainNames i, slash ∉ n := by
  rw [h.resolve_eq_some_iff]
  simp only [h.canonicalPath_charAt hu, hu, ne_eq, not_false_eq_true, true_and]
  by_cases hi : i = 0
  · simp [hi, chainNames_root, RuntimeFs.canonicalPath]
  · simp only [RuntimeFs.canonicalPath, hi, if_false]
    rw [eq_comm, components_joinComponents_iff]
    refine forall₂_congr fun n hn ↦ ?_
    simp [h.ne_nil_of_mem_chainNames hu hn]

/-- Every node below the root is addressable exactly if no name below the root holds a slash. -/
theorem all_resolve_canonicalPath_iff (h : Named fs) :
    (∀ i, i ≠ 0 → (fs.nodes i).used ≠ 0 → fs.resolve (some (fs.canonicalPath i)) = some i) ↔
      ∀ i, i ≠ 0 → (fs.nodes i).used ≠ 0 → slash ∉ (fs.nodes i).text := by
  constructor
  · intro hall i hi hu
    refine (h.resolve_canonicalPath_iff hu).mp (hall i hi hu) _ ?_
    rw [h.chainNames_eq hi hu]
    simp
  · intro hall i hi hu
    rw [h.resolve_canonicalPath_iff hu]
    intro n hn
    obtain ⟨j, hj, hju, rfl⟩ := h.exists_of_mem_chainNames hu hn
    exact hall j hj hju

end Named

/-! ## States that calls lead to -/

/-- The states that calls which return lead to, as long as no remove and no rename aims at the
root. -/
def SparingReachable : RuntimeFs → Prop := Reachable (· = runtimeFsInit) fun fs fs' ↦
  ∃ (call : FsCall) (status : Int), call.SparesRoot fs ∧ call.run fs = .ok (status, fs')

theorem SparingReachable.sound (h : SparingReachable fs) : Sound fs ∧ RootIntact fs := by
  refine Reachable.invariant (P := fun fs ↦ Sound fs ∧ RootIntact fs) ?_ ?_ h
  · rintro _ rfl
    exact ⟨sound_init, rootIntact_init⟩
  · rintro fs fs' ⟨hs, hr⟩ ⟨call, status, hspare, hrun⟩
    exact ⟨FsCall.sound_of_run hs hrun, FsCall.run_rootIntact hs hr hspare hrun⟩

/-- **Paths and nodes correspond.** In every state of a run that spares the root the canonical path
of a used node names the node, so that different nodes have different canonical paths, and a path
names a node only if its components are the names on the chain of the node. -/
theorem paths_and_nodes_correspond (h : SparingReachable fs) :
    (∀ i, (fs.nodes i).used ≠ 0 → fsResolvePath fs (some (fs.canonicalPath i)) = .ok (some i)) ∧
    (∀ i j, (fs.nodes i).used ≠ 0 → (fs.nodes j).used ≠ 0 →
      fs.canonicalPath i = fs.canonicalPath j → i = j) ∧
    ∀ path i, fsResolvePath fs (some path) = .ok (some i) →
      components slash path.chars = fs.chainNames i := by
  obtain ⟨hsound, hroot⟩ := h.sound
  have hnamed := hsound.named hroot
  have hresolve : ∀ i, (fs.nodes i).used ≠ 0 →
      fsResolvePath fs (some (fs.canonicalPath i)) = .ok (some i) := by
    intro i hu
    rw [fsResolvePath_eq hsound.terminated, (hnamed.resolve_canonicalPath_iff hu).mpr]
    intro n hn
    obtain ⟨j, hj, hju, rfl⟩ := hnamed.exists_of_mem_chainNames hu hn
    exact hsound.nodes.text_slash j hj hju
  refine ⟨hresolve, ?_, ?_⟩
  · intro i j hi hj heq
    have hsame := (hresolve i hi).symm.trans (heq ▸ hresolve j hj)
    exact Option.some.inj (Except.ok.inj hsame)
  · intro path i hpath
    rw [fsResolvePath_eq hsound.terminated] at hpath
    exact (hnamed.resolve_eq_some_iff.mp (Except.ok.inj hpath)).2.2.symm

/-- After `mkdir("/a")` the theorem speaks of node 1 and the path `/a`. -/
theorem paths_and_nodes_correspond_mkdir : ∃ fs, SparingReachable fs ∧ (fs.nodes 1).used ≠ 0 ∧
    fsResolvePath fs (some (fs.canonicalPath 1)) = .ok (some 1) := by
  have hused : ((FsCall.mkdir 7 (some pathA) 493).run runtimeFsInit).map
      (fun r ↦ (r.2.nodes 1).used) = .ok 1 := by decide +kernel
  obtain ⟨r, hrun, hnode⟩ := map_eq_ok.mp hused
  have hone : (r.2.nodes 1).used ≠ 0 := by
    rw [hnode]
    decide
  have hreach : SparingReachable r.2 :=
    .step (.start rfl) ⟨.mkdir 7 (some pathA) 493, r.1, trivial, hrun⟩
  exact ⟨r.2, hreach, hone, (paths_and_nodes_correspond hreach).1 1 hone⟩

end TensorOS
