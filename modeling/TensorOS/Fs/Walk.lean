import TensorOS.Fs.Path
import TensorOS.Lib.Partiality

/-!
# The path walkers as recursions over components

On a file system whose used names are terminated, `fs_find_child` is the lookup `child` and the two
walkers are `walk` and `parentWalk`, which recurse over the components of the path and cannot
fault. The main fact is that the walkers agree: where `parentWalk` finds a parent and a leaf name,
`walk` is the lookup of that name under that parent (the last part of `parentWalk_eq_ok`).
-/

namespace TensorOS

/-! ## Names -/

theorem nameEquals_eq {a b : List UInt8} (ha : 0 ∈ a) (hb : 0 ∈ b) :
    nameEquals a b = .ok (decide (cstr a = cstr b)) := by
  fun_induction nameEquals a b with
  | case1 a as b bs hne hab =>
    rw [cstr_cons_of_ne hne.1, cstr_cons_of_ne hne.2]
    simp [hab]
  | case2 a as b bs hne hab ih =>
    obtain rfl : a = b := not_not.mp hab
    have h0 : (0 : UInt8) ≠ a := Ne.symm hne.1
    rw [cstr_cons_of_ne hne.1, cstr_cons_of_ne hne.1,
      ih (by simpa [h0] using ha) (by simpa [h0] using hb)]
    simp
  | case3 a as b bs hz =>
    by_cases h : a = 0
    · subst h
      by_cases hb0 : b = 0
      · simp [hb0, cstr_cons_zero]
      · simp [hb0, cstr_cons_zero, cstr_cons_of_ne]
    · have hb0 : b = 0 := by
        by_contra hb0
        exact hz ⟨h, hb0⟩
      simp [h, hb0, cstr_cons_zero, cstr_cons_of_ne]
  | case4 a b hne =>
    cases a with
    | nil => simp at ha
    | cons a as =>
      cases b with
      | nil => simp at hb
      | cons b bs => exact absurd rfl (hne a as b bs rfl)

/-- What `copy_name` leaves in the destination is terminated. -/
theorem copyName_terminated (dest : Fin 16 → UInt8) (src : List UInt8) :
    ∃ k, copyName dest src k = 0 :=
  ⟨⟨min (cstr src).length 15, by omega⟩, by simp [copyName]⟩

/-- What `copy_name` leaves in the destination reads as the source, cut to fifteen characters. -/
theorem cstr_copyName (dest : Fin 16 → UInt8) (src : List UInt8) :
    cstr (List.ofFn (copyName dest src)) = (cstr src).take 15 := by
  have hk : min (cstr src).length 15 < (List.ofFn (copyName dest src)).length := by
    rw [List.length_ofFn]
    omega
  have hcopy : ∀ j, j < min (cstr src).length 15 →
      ∀ (h₁ : j < (List.ofFn (copyName dest src)).length)
      (h₂ : j < (cstr src).length), (List.ofFn (copyName dest src))[j] = (cstr src)[j] := by
    intro j hj h₁ h₂
    rw [List.getElem_ofFn, copyName]
    simp only [hj, if_true]
    simp [h₂]
  rw [cstr_eq_take hk]
  · apply List.ext_getElem
    · simp only [List.length_take, List.length_ofFn]
      omega
    · intro j h₁ h₂
      rw [List.length_take] at h₁ h₂
      rw [List.getElem_take, List.getElem_take, hcopy j (by omega) _ (by omega)]
  · rw [List.getElem_ofFn, copyName]
    simp
  · intro j hj
    rw [hcopy j hj _ (by omega)]
    exact ne_zero_of_mem_cstr (List.getElem_mem _)

/-! ## Lookup and walks -/

/-- The name of a node, as text. -/
def RuntimeFsNode.text (node : RuntimeFsNode) : List UInt8 := cstr (List.ofFn node.name)

namespace RuntimeFs

/-- Every used node has a terminated name. -/
def Terminated (fs : RuntimeFs) : Prop := ∀ i, (fs.nodes i).used ≠ 0 → ∃ k, (fs.nodes i).name k = 0

/-- The first used node with the given parent and name. -/
def child (fs : RuntimeFs) (parent : Fin 16) (name : List UInt8) : Option (Fin 16) :=
  (List.finRange 16).find? fun i ↦
    (fs.nodes i).used ≠ 0 ∧ (fs.nodes i).parentIndex.toNat = parent ∧ (fs.nodes i).text = name

/-- Follow components downwards. -/
def walk (fs : RuntimeFs) : Fin 16 → List (List UInt8) → Option (Fin 16)
  | current, [] => some current
  | current, tok :: rest =>
    if 16 ≤ tok.length then none
    else
      match fs.child current tok with
      | none => none
      | some next => fs.walk next rest

/-- Follow components downwards, stopping before the last. -/
def parentWalk (fs : RuntimeFs) :
    Fin 16 → List UInt8 → List (List UInt8) → Except Int (List UInt8 × Fin 16)
  | current, tok, [] => .ok (tok, current)
  | current, tok, next :: rest =>
    if 16 ≤ next.length then .error Status.einval
    else
      match fs.child current tok with
      | none => .error Status.enoent
      | some i =>
        if (fs.nodes i).type ≠ fileTypeDirectory then .error Status.enotdir
        else fs.parentWalk i next rest

variable {fs : RuntimeFs}

theorem child_eq_some {parent i : Fin 16} {name : List UInt8} (h : fs.child parent name = some i) :
    (fs.nodes i).used ≠ 0 ∧ (fs.nodes i).parentIndex.toNat = parent ∧ (fs.nodes i).text = name := by
  simpa using List.find?_some h

theorem child_eq_none {parent : Fin 16} {name : List UInt8} :
    fs.child parent name = none ↔ ∀ i, (fs.nodes i).used ≠ 0 →
      (fs.nodes i).parentIndex.toNat = parent → (fs.nodes i).text ≠ name := by
  simp [child]

theorem walk_cons {current : Fin 16} {tok : List UInt8} {rest : List (List UInt8)}
    (h : tok.length < 16) : fs.walk current (tok :: rest) = (fs.child current tok).bind
      fun next ↦ fs.walk next rest := by
  rw [walk, if_neg (by omega)]
  cases fs.child current tok with
  | none => rfl
  | some next => rfl

/-- The parent a walk ends in is where it started or a used directory, and the leaf name is one of
the components. -/
theorem parentWalk_eq_ok {current parent : Fin 16} {tok leaf : List UInt8}
    {rest : List (List UInt8)} (htok : tok.length < 16)
    (h : fs.parentWalk current tok rest = .ok (leaf, parent)) :
    leaf ∈ tok :: rest ∧ leaf.length < 16 ∧
      (parent = current ∨
        (fs.nodes parent).used ≠ 0 ∧ (fs.nodes parent).type = fileTypeDirectory) ∧
      fs.walk current (tok :: rest) = fs.child parent leaf := by
  induction rest generalizing current tok with
  | nil =>
    rw [parentWalk] at h
    obtain ⟨rfl, rfl⟩ : tok = leaf ∧ current = parent := by simpa using h
    refine ⟨by simp, htok, Or.inl rfl, ?_⟩
    rw [walk_cons htok]
    simp [walk]
  | cons next rest ih =>
    rw [parentWalk] at h
    by_cases hlen : 16 ≤ next.length
    · simp [hlen] at h
    rw [if_neg hlen] at h
    cases hc : fs.child current tok with
    | none => simp [hc] at h
    | some i =>
      by_cases hdir : (fs.nodes i).type = fileTypeDirectory
      · simp only [hc, hdir, ne_eq, not_true_eq_false, if_false] at h
        obtain ⟨hmem, hleaf, hparent, hwalk⟩ := ih (by omega) h
        refine ⟨List.mem_cons_of_mem _ hmem, hleaf, Or.inr ?_, ?_⟩
        · rcases hparent with rfl | hparent
          · exact ⟨(child_eq_some hc).1, hdir⟩
          · exact hparent
        · rw [walk_cons htok, hc]
          exact hwalk
      · simp [hc, hdir] at h

/-- The node a path names. -/
def resolve (fs : RuntimeFs) : Option CString → Option (Fin 16)
  | none => none
  | some path =>
    if path.charAt 0 = slash then fs.walk 0 (components slash path.chars) else none

/-- The parent and the leaf name of a path. -/
def resolveParent (fs : RuntimeFs) : Option CString → Except Int (List UInt8 × Fin 16)
  | none => .error Status.einval
  | some path =>
    if path.charAt 0 = slash then
      match components slash path.chars with
      | [] => .error Status.einval
      | tok :: rest =>
        if 16 ≤ tok.length then .error Status.einval else fs.parentWalk 0 tok rest
    else .error Status.einval

end RuntimeFs

/-! ## The source's loops compute the walks -/

variable {fs : RuntimeFs}

theorem fsFindChild_eq (h : fs.Terminated) {parent : Fin 16} {name : List UInt8}
    (hname : ∀ c ∈ name, c ≠ 0) :
    fsFindChild fs parent (name ++ [0]) = .ok (fs.child parent name) := by
  refine findM?_eq_ok fun i _ ↦ ?_
  by_cases hi : (fs.nodes i).used ≠ 0 ∧ (fs.nodes i).parentIndex.toNat = parent
  · obtain ⟨k, hk⟩ := h i hi.1
    have hzero : (0 : UInt8) ∈ List.ofFn (fs.nodes i).name := by
      rw [← hk]
      exact List.mem_ofFn.mpr ⟨k, rfl⟩
    rw [if_pos hi, nameEquals_eq hzero (by simp), cstr_append_zero hname]
    simp [hi.1, hi.2, RuntimeFsNode.text]
  · rw [if_neg hi]
    rw [not_and] at hi
    by_cases hu : (fs.nodes i).used = 0
    · simp [hu]
    · simp [hi hu]

/-- What one token step reports, in terms of the components of the text. -/
theorem fsTokenNext_spec (cursor : List UInt8) :
    match components slash cursor with
    | [] => fsTokenNext cursor = .done
    | tok :: rest => (16 ≤ tok.length ∧ fsTokenNext cursor = .tooLong) ∨
        (tok.length < 16 ∧ ∃ behind, fsTokenNext cursor = .token tok behind ∧
          components slash behind = rest ∧ behind.length < cursor.length ∧
          ∀ c ∈ behind, c ∈ cursor) := by
  rw [← components_dropWhile_sep]
  have hsuf : cursor.dropWhile (· = slash) <:+ cursor := List.dropWhile_suffix _
  have hhead : ∀ c l, cursor.dropWhile (· = slash) = c :: l → c ≠ slash := by
    intro c l h
    have := List.head?_dropWhile_not (· = slash) cursor
    rw [h] at this
    simpa using this
  cases hscan : cursor.dropWhile (· = slash) with
  | nil => simp [fsTokenNext, hscan]
  | cons c l =>
    have hc := hhead c l hscan
    rw [hscan] at hsuf
    rw [components_eq_cons slash hc]
    simp only [fsTokenNext, hscan, List.cons_ne_nil, if_false]
    by_cases hlen : 16 ≤ ((c :: l).takeWhile (· ≠ slash)).length
    · exact Or.inl ⟨hlen, by rw [if_pos hlen]⟩
    · refine Or.inr ⟨by omega, _, by rw [if_neg hlen], rfl, ?_, ?_⟩
      · -- the first character belongs to the token, so the rest is shorter
        have h₁ : ((c :: l).dropWhile (· ≠ slash)).length ≤ l.length := by
          rw [List.dropWhile_cons_of_pos (by simpa using hc)]
          exact List.length_dropWhile_le _ _
        have h₂ := hsuf.length_le
        rw [List.length_cons] at h₂
        omega
      · intro a ha
        exact hsuf.subset ((List.dropWhile_suffix _).subset ha)

theorem fsResolveLoop_eq (h : fs.Terminated) {fuel : ℕ} {cursor : List UInt8} {current : Fin 16}
    (hfuel : cursor.length < fuel) (hnz : ∀ c ∈ cursor, c ≠ 0) :
    fsResolveLoop fs fuel cursor current = .ok (fs.walk current (components slash cursor)) := by
  induction fuel generalizing cursor current with
  | zero => omega
  | succ fuel ih =>
    have hspec := fsTokenNext_spec cursor
    cases hcomp : components slash cursor with
    | nil =>
      rw [hcomp] at hspec
      simp only at hspec
      rw [fsResolveLoop, hspec, RuntimeFs.walk]
    | cons tok rest =>
      rw [hcomp] at hspec
      have htok : ∀ c ∈ tok, c ≠ 0 := fun c hc ↦
        hnz c ((mem_components slash (by rw [hcomp]; simp)).2.2 c hc)
      rcases hspec with ⟨hlen, hstep⟩ | ⟨hlen, behind, hstep, hrest, hshort, hsub⟩
      · rw [fsResolveLoop, hstep, RuntimeFs.walk, if_pos hlen]
      · rw [fsResolveLoop, hstep, RuntimeFs.walk_cons hlen]
        simp only [fsFindChild_eq h htok, ok_bind]
        cases fs.child current tok with
        | none => rfl
        | some next =>
          rw [Option.bind_some, ← hrest]
          exact ih (by omega) fun c hc ↦ hnz c (hsub c hc)

theorem fsResolveParentLoop_eq (h : fs.Terminated) {fuel : ℕ} {cursor token : List UInt8}
    {current : Fin 16} (hfuel : cursor.length < fuel) (hnz : ∀ c ∈ cursor, c ≠ 0)
    (htoken : ∀ c ∈ token, c ≠ 0) :
    fsResolveParentLoop fs fuel cursor token current
      = .ok (fs.parentWalk current token (components slash cursor)) := by
  induction fuel generalizing cursor token current with
  | zero => omega
  | succ fuel ih =>
    have hspec := fsTokenNext_spec cursor
    cases hcomp : components slash cursor with
    | nil =>
      rw [hcomp] at hspec
      simp only at hspec
      rw [fsResolveParentLoop, hspec, RuntimeFs.parentWalk]
    | cons tok rest =>
      rw [hcomp] at hspec
      have htok : ∀ c ∈ tok, c ≠ 0 := fun c hc ↦
        hnz c ((mem_components slash (by rw [hcomp]; simp)).2.2 c hc)
      rcases hspec with ⟨hlen, hstep⟩ | ⟨hlen, behind, hstep, hrest, hshort, hsub⟩
      · rw [fsResolveParentLoop, hstep, RuntimeFs.parentWalk, if_pos hlen]
      · rw [fsResolveParentLoop, hstep, RuntimeFs.parentWalk, if_neg (by omega)]
        simp only [fsFindChild_eq h htoken, ok_bind]
        cases fs.child current token with
        | none => rfl
        | some next =>
          by_cases hdir : (fs.nodes next).type = fileTypeDirectory
          · simp only [hdir, ne_eq, not_true_eq_false, if_false, ← hrest]
            exact ih (by omega) (fun c hc ↦ hnz c (hsub c hc)) htok
          · simp [hdir]

theorem CString.chars_of_charAt_one {path : CString} (h₀ : path.charAt 0 = slash)
    (h₁ : path.charAt 1 = 0) : path.chars = [slash] := by
  obtain ⟨chars, hnz⟩ := path
  match chars with
  | [] => simp [CString.charAt, slash] at h₀
  | [c] => simpa [CString.charAt] using h₀
  | c :: d :: cs => exact absurd (by simpa [CString.charAt] using h₁) (hnz d (by simp))

theorem fsResolvePath_eq (h : fs.Terminated) (path : Option CString) :
    fsResolvePath fs path = .ok (fs.resolve path) := by
  cases path with
  | none => rfl
  | some path =>
    by_cases h₀ : path.charAt 0 = slash
    · by_cases h₁ : path.charAt 1 = 0
      · simp [fsResolvePath, RuntimeFs.resolve, h₀, h₁, RuntimeFs.walk,
          CString.chars_of_charAt_one h₀ h₁]
      · simp only [fsResolvePath, RuntimeFs.resolve, h₀, h₁, ne_eq, not_true_eq_false, if_false,
          and_false, if_true]
        exact fsResolveLoop_eq h (by omega) path.nonzero
    · simp [fsResolvePath, RuntimeFs.resolve, h₀]

theorem fsResolveParentPath_eq (h : fs.Terminated) (path : Option CString) :
    fsResolveParentPath fs path = .ok (fs.resolveParent path) := by
  cases path with
  | none => rfl
  | some path =>
    by_cases h₀ : path.charAt 0 = slash
    · by_cases h₁ : path.charAt 1 = 0
      · simp [fsResolveParentPath, RuntimeFs.resolveParent, fsPathIsAbsoluteNonRoot, h₀, h₁,
          CString.chars_of_charAt_one h₀ h₁]
      · have habs : fsPathIsAbsoluteNonRoot (some path) = true := by
          simp [fsPathIsAbsoluteNonRoot, h₀, h₁]
        simp only [fsResolveParentPath, RuntimeFs.resolveParent, habs, h₀, if_true, if_false,
          Bool.true_eq_false]
        have hspec := fsTokenNext_spec path.chars
        cases hcomp : components slash path.chars with
        | nil =>
          rw [hcomp] at hspec
          simp only at hspec
          rw [hspec]
        | cons tok rest =>
          rw [hcomp] at hspec
          rcases hspec with ⟨hlen, hstep⟩ | ⟨hlen, behind, hstep, hrest, hshort, hsub⟩
          · rw [hstep]
            simp [hlen]
          · rw [hstep]
            simp only [Nat.not_le.mpr hlen, if_false, ← hrest]
            refine fsResolveParentLoop_eq h (by omega) (fun c hc ↦ path.nonzero c (hsub c hc)) ?_
            exact fun c hc ↦ path.nonzero c
              ((mem_components slash (by rw [hcomp]; simp)).2.2 c hc)
    · simp [fsResolveParentPath, RuntimeFs.resolveParent, fsPathIsAbsoluteNonRoot, h₀]

theorem fsResolveExistingPath_eq (h : fs.Terminated) {path : CString}
    (h₀ : path.charAt 0 = slash) :
    fsResolveExistingPath fs (some path)
      = .ok ((fs.resolve (some path)).elim (.error Status.enoent) .ok) := by
  simp only [fsResolveExistingPath, h₀, ne_eq, not_true_eq_false, if_false, fsResolvePath_eq h,
    ok_bind]
  cases fs.resolve (some path) with
  | none => rfl
  | some node => rfl

/-- What a parent lookup that succeeds says: the leaf is a proper component that fits a name, the
parent is the root or a used directory, and the path itself names the leaf under the parent. -/
theorem RuntimeFs.resolveParent_eq_ok {path : Option CString} {leaf : List UInt8}
    {parent : Fin 16} (h : fs.resolveParent path = .ok (leaf, parent)) :
    leaf ≠ [] ∧ slash ∉ leaf ∧ (∀ c ∈ leaf, c ≠ 0) ∧ leaf.length < 16 ∧
      (parent = 0 ∨ (fs.nodes parent).used ≠ 0 ∧ (fs.nodes parent).type = fileTypeDirectory) ∧
      fs.resolve path = fs.child parent leaf := by
  cases path with
  | none => simp [resolveParent] at h
  | some path =>
    by_cases h₀ : path.charAt 0 = slash
    · cases hcomp : components slash path.chars with
      | nil => simp [resolveParent, h₀, hcomp] at h
      | cons tok rest =>
        by_cases hlen : 16 ≤ tok.length
        · simp [resolveParent, h₀, hcomp, hlen] at h
        · simp only [resolveParent, h₀, hcomp, hlen, if_true, if_false] at h
          obtain ⟨hmem, hleaf, hparent, hwalk⟩ := parentWalk_eq_ok (by omega) h
          obtain ⟨hne, hsep, hsub⟩ := mem_components slash (l := path.chars) (hcomp ▸ hmem)
          refine ⟨hne, hsep, fun c hc ↦ path.nonzero c (hsub c hc), hleaf, hparent, ?_⟩
          rw [resolve, if_pos h₀, hcomp, hwalk]
    · simp [resolveParent, h₀] at h

theorem RuntimeFs.resolve_eq_some {path : Option CString} {i : Fin 16}
    (h : fs.resolve path = some i) : i = 0 ∨ (fs.nodes i).used ≠ 0 := by
  have key : ∀ (l : List (List UInt8)) (current : Fin 16), fs.walk current l = some i →
      i = current ∨ (fs.nodes i).used ≠ 0 := by
    intro l
    induction l with
    | nil =>
      intro current hw
      exact Or.inl (by simpa [walk] using hw.symm)
    | cons tok rest ih =>
      intro current hw
      by_cases hlen : 16 ≤ tok.length
      · simp [walk, hlen] at hw
      · rw [walk_cons (by omega)] at hw
        obtain ⟨next, hc, hw⟩ := Option.bind_eq_some_iff.mp hw
        rcases ih next hw with rfl | hu
        · exact Or.inr (child_eq_some hc).1
        · exact Or.inr hu
  cases path with
  | none => simp [resolve] at h
  | some path =>
    by_cases h₀ : path.charAt 0 = slash
    · rw [resolve, if_pos h₀] at h
      exact key _ _ h
    · simp [resolve, h₀] at h

end TensorOS
