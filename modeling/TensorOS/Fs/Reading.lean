import TensorOS.Fs.Run
import TensorOS.Lib.Scan

/-!
# Reads of path arguments

The calls that take a path, on the memory behind the pointer. Their bodies are those of
`TensorOS.Fs.Ops` with every read of a path byte made explicit, in the order of the source; for
`runtime_fs_mkdir` that includes the bytes that are only read for its diagnostics, and the
diagnostics themselves.

On memory that ends with the terminator of the path, open, remove and rename return what they return
on the path as a string. `runtime_fs_mkdir` does unless the path is short: the diagnostics read the
second byte of an empty path, and the fourth and fifth byte of every path that names no node.
-/

namespace TensorOS

namespace Reading

/-! ## Names and tokens -/

/-- `fs_path_is_root`. -/
def fsPathIsRoot (path : Option (List UInt8)) : Except Fault Bool :=
  match path with
  | none => .ok false
  | some p => do
    let c ← readAt p 0
    if c ≠ slash then .ok false
    else
      let d ← readAt p 1
      .ok (d = 0)

/-- `fs_path_is_absolute_non_root`. -/
def fsPathIsAbsoluteNonRoot (path : Option (List UInt8)) : Except Fault Bool :=
  match path with
  | none => .ok false
  | some p => do
    let c ← readAt p 0
    if c ≠ slash then .ok false
    else
      let d ← readAt p 1
      .ok (d ≠ 0)

/-- The second loop of `fs_token_next`, from the characters read so far on. -/
def readToken : List UInt8 → List UInt8 → Except Fault TokenStep
  | [], _ => .error .outOfBounds
  | c :: scan, token =>
    if c = 0 ∨ c = slash then .ok (.token token (c :: scan))
    else if 16 ≤ token.length + 1 then .ok .tooLong
    else readToken scan (token ++ [c])

/-- `fs_token_next`. -/
def fsTokenNext (cursor : List UInt8) : Except Fault TokenStep := do
  let scan ← skipWhile (· = slash) cursor
  let c ← readAt scan 0
  if c = 0 then .ok .done else readToken scan []

/-! ## Walkers -/

/-- The loop of `fs_resolve_path`. -/
def fsResolveLoop (fs : RuntimeFs) : ℕ → List UInt8 → Fin 16 → Except Fault (Option (Fin 16))
  | 0, _, _ => .error .diverges
  | fuel + 1, cursor, current => do
    match ← fsTokenNext cursor with
    | .done => .ok (some current)
    | .tooLong => .ok none
    | .token tok rest => do
      match ← fsFindChild fs current (tok ++ [0]) with
      | none => .ok none
      | some next => fsResolveLoop fs fuel rest next

/-- `fs_resolve_path`. -/
def fsResolvePath (fs : RuntimeFs) (path : Option (List UInt8)) :
    Except Fault (Option (Fin 16)) :=
  match path with
  | none => .ok none
  | some p => do
    let c ← readAt p 0
    if c ≠ slash then .ok none
    else
      let d ← readAt p 1
      if d = 0 then .ok (some 0) else fsResolveLoop fs p.length p 0

/-- `fs_resolve_existing_path`. -/
def fsResolveExistingPath (fs : RuntimeFs) (path : Option (List UInt8)) :
    Except Fault (Except Int (Fin 16)) :=
  match path with
  | none => .ok (.error Status.einval)
  | some p => do
    let c ← readAt p 0
    if c ≠ slash then .ok (.error Status.einval)
    else
      match ← fsResolvePath fs path with
      | none => .ok (.error Status.enoent)
      | some node => .ok (.ok node)

/-- The loop of `fs_resolve_parent_path`. -/
def fsResolveParentLoop (fs : RuntimeFs) :
    ℕ → List UInt8 → List UInt8 → Fin 16 → Except Fault (Except Int (List UInt8 × Fin 16))
  | 0, _, _, _ => .error .diverges
  | fuel + 1, cursor, token, current => do
    match ← fsTokenNext cursor with
    | .done => .ok (.ok (token, current))
    | .tooLong => .ok (.error Status.einval)
    | .token nextToken peek => do
      match ← fsFindChild fs current (token ++ [0]) with
      | none => .ok (.error Status.enoent)
      | some next =>
        if (fs.nodes next).type ≠ fileTypeDirectory then .ok (.error Status.enotdir)
        else fsResolveParentLoop fs fuel peek nextToken next

/-- `fs_resolve_parent_path`. -/
def fsResolveParentPath (fs : RuntimeFs) (path : Option (List UInt8)) :
    Except Fault (Except Int (List UInt8 × Fin 16)) :=
  match path with
  | none => .ok (.error Status.einval)
  | some p => do
    if !(← fsPathIsAbsoluteNonRoot path) then .ok (.error Status.einval)
    else
      match ← fsTokenNext p with
      | .done => .ok (.error Status.einval)
      | .tooLong => .ok (.error Status.einval)
      | .token token cursor => fsResolveParentLoop fs p.length cursor token 0

/-! ## Calls -/

/-- What `runtime_fs_mkdir` leaves in its diagnostic globals. -/
structure MkdirDiag where
  code : UInt32
  arg0 : UInt32
  arg1 : UInt32
  deriving DecidableEq, Repr

/-- Two neighbouring path bytes, packed for the diagnostics. -/
def readPair (path : List UInt8) (index : ℕ) : Except Fault UInt32 := do
  let low ← readAt path index
  let high ← readAt path (index + 1)
  .ok (low.toUInt32 ||| high.toUInt32 <<< 8)

/-- `runtime_fs_mkdir`. `address` is where the file system is in memory. -/
def runtimeFsMkdir (address : UInt32) (fs : RuntimeFs) (currentPid : UInt32)
    (path : Option (List UInt8)) (mode : UInt32) : Except Fault (Int × RuntimeFs × MkdirDiag) :=
  match path with
  | none => .ok (Status.einval, fs, ⟨0xB200, address, 0⟩)
  | some p => do
    if !(← fsPathIsAbsoluteNonRoot path) then
      let start ← readPair p 0
      .ok (Status.einval, fs, ⟨0xB200, address, start⟩)
    else
      match ← fsResolvePath fs path with
      | some node => .ok (Status.eexist, fs, ⟨0xB201, UInt32.ofNat node, currentPid⟩)
      | none =>
        -- the diagnostics 0xB211, overwritten before the call returns
        let _ ← readPair p 1
        let _ ← readPair p 3
        match ← fsResolveParentPath fs path with
        | .error status =>
          let start ← readPair p 1
          .ok (status, fs, ⟨0xB202, UInt32.ofInt status, start⟩)
        | .ok (leafName, parent) =>
          if fsNodeOwnerAllows (fs.nodes parent) currentPid = false then
            .ok (Status.eacces, fs, ⟨0xB203, UInt32.ofNat parent, (fs.nodes parent).ownerPid⟩)
          else
            match fsAllocNode fs with
            | none => .ok (Status.enospc, fs, ⟨0xB204, 16, currentPid⟩)
            | some (node, fs') =>
              .ok (Status.ok, fs'.setNode node
                (fsNamedNode (fs'.nodes node) fileTypeDirectory parent currentPid mode leafName),
                ⟨0xB2FF, UInt32.ofNat node, UInt32.ofNat parent⟩)

/-- The first half of `runtime_fs_open`. -/
def fsOpenResolve (fs : RuntimeFs) (currentPid : UInt32) (path : Option (List UInt8))
    (flags : UInt32) : Except Fault (Except Int (Fin 16 × RuntimeFs)) := do
  match ← fsResolvePath fs path with
  | some node => .ok (.ok (node, fs))
  | none =>
    if flags &&& openCreate = 0 then .ok (.error Status.enoent)
    else
      match ← fsResolveParentPath fs path with
      | .error status => .ok (.error status)
      | .ok (leafName, parent) =>
        if fsNodeOwnerAllows (fs.nodes parent) currentPid = false then
          .ok (.error Status.eacces)
        else
          match fsAllocNode fs with
          | none => .ok (.error Status.enospc)
          | some (node, fs') =>
            .ok (.ok (node, fs'.setNode node
              (fsNamedNode (fs'.nodes node) fileTypeRegular parent currentPid 420 leafName)))

/-- `runtime_fs_open`. -/
def runtimeFsOpen (fs : RuntimeFs) (currentPid : UInt32) (path : Option (List UInt8))
    (flags : UInt32) (fileObject : Option UInt32) :
    Except Fault (Int × RuntimeFs × Option UInt32) :=
  match path, fileObject with
  | some p, some object => do
    let c ← readAt p 0
    if c ≠ slash then .ok (Status.einval, fs, fileObject)
    else
      match ← fsOpenResolve fs currentPid path flags with
      | .error status => .ok (status, fs, fileObject)
      | .ok (node, fs') =>
        let (status, fs'', stored) := fsOpenNode fs' currentPid node flags
        .ok (status, fs'', some (stored.getD object))
  | _, _ => .ok (Status.einval, fs, fileObject)

/-- `runtime_fs_remove`. -/
def runtimeFsRemove (fs : RuntimeFs) (currentPid : UInt32) (path : Option (List UInt8)) :
    Except Fault (Int × RuntimeFs) :=
  match path with
  | none => .ok (Status.einval, fs)
  | some p => do
    let c ← readAt p 0
    if c ≠ slash then .ok (Status.einval, fs)
    else if ← fsPathIsRoot path then .ok (Status.ebusy, fs)
    else
      match ← fsResolveExistingPath fs path with
      | .error status => .ok (status, fs)
      | .ok node =>
        if fsNodeOwnerAllows (fs.nodes node) currentPid = false then .ok (Status.eacces, fs)
        else
          let parent ← nodeIndexOf (fs.nodes node).parentIndex
          if fsNodeOwnerAllows (fs.nodes parent) currentPid = false then .ok (Status.eacces, fs)
          else if fsNodeIsOpen fs node then .ok (Status.ebusy, fs)
          else if (fs.nodes node).type = fileTypeDirectory ∧ fsNodeHasChildren fs node then
            .ok (Status.enotempty, fs)
          else .ok (Status.ok, fs.setNode node (fsClearNode (fs.nodes node)))

/-- `runtime_fs_rename`. -/
def runtimeFsRename (fs : RuntimeFs) (currentPid : UInt32) (oldPath newPath : Option (List UInt8)) :
    Except Fault (Int × RuntimeFs) :=
  match oldPath, newPath with
  | some oldP, some newP => do
    let c ← readAt oldP 0
    if c ≠ slash then .ok (Status.einval, fs)
    else
      let d ← readAt newP 0
      if d ≠ slash then .ok (Status.einval, fs)
      else if ← nameEquals oldP newP then .ok (Status.ok, fs)
      else if ← fsPathIsRoot oldPath then .ok (Status.ebusy, fs)
      else if ← fsPathIsRoot newPath then .ok (Status.ebusy, fs)
      else
        match ← fsResolveExistingPath fs oldPath with
        | .error status => .ok (status, fs)
        | .ok node =>
          match ← fsResolvePath fs newPath with
          | some _ => .ok (Status.eexist, fs)
          | none =>
            match ← fsResolveParentPath fs newPath with
            | .error status => .ok (status, fs)
            | .ok (leafName, parent) =>
              if fsNodeOwnerAllows (fs.nodes node) currentPid = false then
                .ok (Status.eacces, fs)
              else
                let oldParent ← nodeIndexOf (fs.nodes node).parentIndex
                if fsNodeOwnerAllows (fs.nodes oldParent) currentPid = false ∨
                    fsNodeOwnerAllows (fs.nodes parent) currentPid = false then
                  .ok (Status.eacces, fs)
                else
                  let intoItself ←
                    if (fs.nodes node).type = fileTypeDirectory then
                      fsParentChainContains fs parent node
                    else .ok false
                  if intoItself then .ok (Status.einval, fs)
                  else
                    .ok (Status.ok, fs.setNode node
                      { fs.nodes node with
                        parentIndex := UInt32.ofNat parent
                        name := copyName (fs.nodes node).name (leafName ++ [0]) })
  | _, _ => .ok (Status.einval, fs)

end Reading

/-! ## Memory that ends with the terminator -/

section Terminated

variable {fs : RuntimeFs} {p : CString}

theorem CString.length_mem (p : CString) : p.mem.length = p.chars.length + 1 := by
  rw [CString.mem, List.length_append, List.length_singleton]

theorem readAt_mem {index : ℕ} (h : index ≤ p.chars.length) :
    readAt p.mem index = .ok (p.charAt index) := readAt_terminated h

theorem readAt_mem_zero : readAt p.mem 0 = .ok (p.charAt 0) := readAt_mem (Nat.zero_le _)

/-- The second byte of a path that starts with a slash. -/
theorem readAt_mem_one (h : p.charAt 0 = slash) : readAt p.mem 1 = .ok (p.charAt 1) := by
  refine readAt_mem (Nat.one_le_iff_ne_zero.mpr fun hnil ↦ ?_)
  rw [List.length_eq_zero_iff] at hnil
  rw [CString.charAt, hnil] at h
  exact absurd h (by decide)

theorem reading_isRoot :
    Reading.fsPathIsRoot (some p.mem) = .ok (fsPathIsRoot (some p)) := by
  rw [Reading.fsPathIsRoot, readAt_mem_zero, ok_bind]
  by_cases h : p.charAt 0 = slash
  · rw [if_neg (not_not.mpr h), readAt_mem_one h, ok_bind]
    simp [fsPathIsRoot, h]
  · rw [if_pos h]
    simp [fsPathIsRoot, h]

theorem reading_isAbsoluteNonRoot :
    Reading.fsPathIsAbsoluteNonRoot (some p.mem) = .ok (fsPathIsAbsoluteNonRoot (some p)) := by
  rw [Reading.fsPathIsAbsoluteNonRoot, readAt_mem_zero, ok_bind]
  by_cases h : p.charAt 0 = slash
  · rw [if_neg (not_not.mpr h), readAt_mem_one h, ok_bind]
    simp [fsPathIsAbsoluteNonRoot, h]
  · rw [if_pos h]
    simp [fsPathIsAbsoluteNonRoot, h]

/-! ### Tokens -/

/-- The cursor behind a token, in the memory that the text is the start of. -/
def TokenStep.into (more : List UInt8) : TokenStep → TokenStep
  | .done => .done
  | .tooLong => .tooLong
  | .token tok rest => .token tok (rest ++ more)

theorem readToken_eq {text token more : List UInt8} (htext : ∀ c ∈ text, c ≠ 0)
    (htoken : token.length < 16) : Reading.readToken (text ++ 0 :: more) token = .ok
      (if 16 ≤ (token ++ text.takeWhile (· ≠ slash)).length then .tooLong
        else .token (token ++ text.takeWhile (· ≠ slash))
          (text.dropWhile (· ≠ slash) ++ 0 :: more)) := by
  induction text generalizing token with
  | nil =>
    rw [List.nil_append, Reading.readToken, if_pos (.inl rfl), List.takeWhile_nil,
      List.append_nil, if_neg (by omega), List.dropWhile_nil, List.nil_append]
  | cons c text ih =>
    have hc : c ≠ 0 := htext c List.mem_cons_self
    rw [List.cons_append, Reading.readToken]
    by_cases hslash : c = slash
    · rw [if_pos (.inr hslash), List.takeWhile_cons_of_neg (by simpa using hslash),
        List.dropWhile_cons_of_neg (by simpa using hslash), List.append_nil, if_neg (by omega),
        List.cons_append]
    · rw [if_neg (not_or.mpr ⟨hc, hslash⟩), List.takeWhile_cons_of_pos (by simpa using hslash),
        List.dropWhile_cons_of_pos (by simpa using hslash)]
      by_cases hfull : 16 ≤ token.length + 1
      · rw [if_pos hfull, if_pos]
        simp only [List.length_append, List.length_cons]
        omega
      · have hstep : (token ++ [c]).length < 16 := by
          rw [List.length_append, List.length_singleton]
          omega
        rw [if_neg hfull, ih (fun d hd ↦ htext d (List.mem_cons_of_mem c hd)) hstep,
          List.append_assoc, List.singleton_append]

/-- **A token step reads no further than the terminator.** -/
theorem reading_tokenNext {text more : List UInt8} (htext : ∀ c ∈ text, c ≠ 0) :
    Reading.fsTokenNext (text ++ 0 :: more) = .ok ((fsTokenNext text).into (0 :: more)) := by
  have hscan : ∀ c ∈ text.dropWhile (· = slash), c ≠ 0 :=
    fun c hc ↦ htext c ((List.dropWhile_suffix _).subset hc)
  rw [Reading.fsTokenNext, skipWhile_terminated (by decide), ok_bind, fsTokenNext,
    readAt_terminated (Nat.zero_le _), ok_bind]
  cases h : text.dropWhile (· = slash) with
  | nil => rfl
  | cons c scan =>
    rw [h] at hscan
    have hc : (c :: scan).getD 0 0 ≠ 0 := hscan c List.mem_cons_self
    rw [if_neg hc, readToken_eq hscan (by decide), List.nil_append,
      if_neg (List.cons_ne_nil c scan)]
    dsimp only
    split
    · rfl
    · rfl

theorem fsTokenNext_rest {text tok rest : List UInt8} (h : fsTokenNext text = .token tok rest) :
    ∀ c ∈ rest, c ∈ text := by
  have hspec := fsTokenNext_spec text
  cases hcomp : components slash text with
  | nil =>
    rw [hcomp] at hspec
    rw [show fsTokenNext text = .done from hspec] at h
    cases h
  | cons tok' rest' =>
    rw [hcomp] at hspec
    rcases hspec with ⟨-, hlong⟩ | ⟨-, behind, htoken, -, -, hsub⟩
    · rw [hlong] at h
      cases h
    · rw [htoken] at h
      obtain ⟨-, rfl⟩ := TokenStep.token.inj h
      exact hsub

/-! ### Walkers -/

theorem reading_resolveLoop {fuel : ℕ} {cursor : List UInt8} {current : Fin 16}
    (hcursor : ∀ c ∈ cursor, c ≠ 0) :
    Reading.fsResolveLoop fs fuel (cursor ++ [0]) current
      = fsResolveLoop fs fuel cursor current := by
  induction fuel generalizing cursor current with
  | zero => rfl
  | succ fuel ih =>
    rw [Reading.fsResolveLoop, fsResolveLoop, reading_tokenNext hcursor, ok_bind]
    cases hstep : fsTokenNext cursor with
    | done => rfl
    | tooLong => rfl
    | token tok rest =>
      have hrest : ∀ c ∈ rest, c ≠ 0 := fun c hc ↦ hcursor c (fsTokenNext_rest hstep c hc)
      refine bind_congr fun found ↦ ?_
      cases found with
      | none => rfl
      | some next => exact ih hrest

theorem reading_resolvePath :
    Reading.fsResolvePath fs (some p.mem) = fsResolvePath fs (some p) := by
  rw [Reading.fsResolvePath, fsResolvePath, readAt_mem_zero, ok_bind]
  by_cases h : p.charAt 0 = slash
  · rw [if_neg (not_not.mpr h), if_neg (not_not.mpr h), readAt_mem_one h, ok_bind, p.length_mem]
    by_cases hroot : p.charAt 1 = 0
    · rw [if_pos hroot, if_pos ⟨h, hroot⟩]
    · rw [if_neg hroot, if_neg fun hboth ↦ hroot hboth.2, CString.mem,
        reading_resolveLoop p.nonzero]
  · rw [if_pos h, if_pos h]

theorem reading_resolveExistingPath :
    Reading.fsResolveExistingPath fs (some p.mem) = fsResolveExistingPath fs (some p) := by
  rewrite [Reading.fsResolveExistingPath, fsResolveExistingPath, readAt_mem_zero, ok_bind,
    reading_resolvePath]
  rfl

theorem reading_resolveParentLoop {fuel : ℕ} {cursor token : List UInt8} {current : Fin 16}
    (hcursor : ∀ c ∈ cursor, c ≠ 0) :
    Reading.fsResolveParentLoop fs fuel (cursor ++ [0]) token current
      = fsResolveParentLoop fs fuel cursor token current := by
  induction fuel generalizing cursor token current with
  | zero => rfl
  | succ fuel ih =>
    rw [Reading.fsResolveParentLoop, fsResolveParentLoop, reading_tokenNext hcursor, ok_bind]
    cases hstep : fsTokenNext cursor with
    | done => rfl
    | tooLong => rfl
    | token tok rest =>
      have hrest : ∀ c ∈ rest, c ≠ 0 := fun c hc ↦ hcursor c (fsTokenNext_rest hstep c hc)
      refine bind_congr fun found ↦ ?_
      cases found with
      | none => rfl
      | some next =>
        dsimp only
        rw [ih hrest]

theorem reading_resolveParentPath :
    Reading.fsResolveParentPath fs (some p.mem) = fsResolveParentPath fs (some p) := by
  rw [Reading.fsResolveParentPath, fsResolveParentPath, reading_isAbsoluteNonRoot, ok_bind]
  cases fsPathIsAbsoluteNonRoot (some p) with
  | false => rfl
  | true =>
    have htoken : Reading.fsTokenNext p.mem = .ok ((fsTokenNext p.chars).into [0]) :=
      reading_tokenNext p.nonzero
    rw [htoken, ok_bind, p.length_mem]
    cases hstep : fsTokenNext p.chars with
    | done => rfl
    | tooLong => rfl
    | token tok rest =>
      exact reading_resolveParentLoop fun c hc ↦ p.nonzero c (fsTokenNext_rest hstep c hc)

/-! ### Calls -/

theorem reading_open (currentPid flags : UInt32) (fileObject : Option UInt32) :
    Reading.runtimeFsOpen fs currentPid (some p.mem) flags fileObject
      = runtimeFsOpen fs currentPid (some p) flags fileObject := by
  cases fileObject with
  | none => rfl
  | some object =>
    have hresolve : Reading.fsOpenResolve fs currentPid (some p.mem) flags
        = fsOpenResolve fs currentPid (some p) flags := by
      rewrite [Reading.fsOpenResolve, fsOpenResolve, reading_resolvePath,
        reading_resolveParentPath]
      rfl
    rw [Reading.runtimeFsOpen, runtimeFsOpen]
    dsimp only
    rewrite [readAt_mem_zero, ok_bind, hresolve]
    rfl

theorem reading_remove (currentPid : UInt32) :
    Reading.runtimeFsRemove fs currentPid (some p.mem)
      = runtimeFsRemove fs currentPid (some p) := by
  rewrite [Reading.runtimeFsRemove, runtimeFsRemove, readAt_mem_zero, ok_bind, reading_isRoot,
    ok_bind, reading_resolveExistingPath]
  rfl

theorem reading_rename (currentPid : UInt32) (q : CString) :
    Reading.runtimeFsRename fs currentPid (some p.mem) (some q.mem)
      = runtimeFsRename fs currentPid (some p) (some q) := by
  rw [Reading.runtimeFsRename, runtimeFsRename]
  dsimp only
  rw [readAt_mem_zero, ok_bind, readAt_mem_zero, ok_bind, reading_isRoot, reading_isRoot,
    reading_resolveExistingPath, reading_resolvePath, reading_resolveParentPath]
  by_cases h : p.charAt 0 = slash
  · by_cases hq : q.charAt 0 = slash
    · rw [if_neg (not_not.mpr h), if_neg (not_not.mpr hq), if_neg (by simp [h, hq])]
      cases nameEquals p.mem q.mem with
      | error e => rfl
      | ok same =>
        cases same with
        | true => rfl
        | false =>
          -- the two tests for the root are one condition there
          cases fsPathIsRoot (some p) with
          | true => rfl
          | false =>
            cases fsPathIsRoot (some q) with
            | true => rfl
            | false => rfl
    · rw [if_neg (not_not.mpr h), if_pos hq, if_pos (.inr hq)]
  · rw [if_pos h, if_pos (.inl h)]

/-- The paths on which `runtime_fs_mkdir` reads beyond the terminator. -/
def MkdirReadsBeyond (fs : RuntimeFs) (p : CString) : Prop :=
  p.chars = [] ∨ p.charAt 0 = slash ∧ (p.chars.length = 2 ∨ p.chars.length = 3) ∧
    fs.resolve (some p) = none

/-- The calls that take the path read nothing beyond its terminator. -/
def ReadsWithin (fs : RuntimeFs) (p : CString) : Prop :=
  ∀ (address currentPid mode flags : UInt32) (fileObject : Option UInt32) (q : Option CString),
    (∃ result, Reading.runtimeFsMkdir address fs currentPid (some p.mem) mode = .ok result) ∧
    (∃ result, Reading.runtimeFsOpen fs currentPid (some p.mem) flags fileObject = .ok result) ∧
    (∃ result, Reading.runtimeFsRemove fs currentPid (some p.mem) = .ok result) ∧
    (∃ result, Reading.runtimeFsRename fs currentPid (some p.mem) (q.map CString.mem)
      = .ok result) ∧
    ∃ result, Reading.runtimeFsRename fs currentPid (q.map CString.mem) (some p.mem) = .ok result

theorem readPair_mem (index : ℕ) (h : index + 1 ≤ p.chars.length) :
    ∃ value, Reading.readPair p.mem index = .ok value := by
  rw [Reading.readPair, readAt_mem (by omega), ok_bind, readAt_mem h, ok_bind]
  exact ⟨_, rfl⟩

theorem readPair_beyond {index : ℕ} (h : p.chars.length < index + 1) :
    Reading.readPair p.mem index = .error .outOfBounds := by
  have hlength := p.length_mem
  rw [Reading.readPair]
  rcases Nat.lt_or_ge p.chars.length index with hlt | hge
  · rw [readAt_beyond (by omega), error_bind]
  · rw [readAt_mem hge, ok_bind, readAt_beyond (by omega), error_bind]

/-- An absolute path that is not the root has a second character. -/
theorem isAbsoluteNonRoot_iff :
    fsPathIsAbsoluteNonRoot (some p) = true ↔ p.charAt 0 = slash ∧ 2 ≤ p.chars.length := by
  rw [fsPathIsAbsoluteNonRoot, decide_eq_true_eq]
  refine and_congr_right fun h ↦ ?_
  rcases Nat.lt_or_ge 1 p.chars.length with hlt | hge
  · have hone : p.charAt 1 = p.chars[1] := by
      rw [CString.charAt, List.getD_eq_getElem _ _ hlt]
    have hne : p.charAt 1 ≠ 0 := by
      rw [hone]
      exact p.nonzero _ (List.getElem_mem hlt)
    exact iff_of_true hne hlt
  · have hzero : p.charAt 1 = 0 := by
      rw [CString.charAt, List.getD_eq_default _ _ hge]
    exact iff_of_false (not_not.mpr hzero) (by omega)

/-- **On other paths `runtime_fs_mkdir` returns** what it does on the path as a string. -/
theorem reading_mkdir (hterm : fs.Terminated) (h : ¬MkdirReadsBeyond fs p)
    (address currentPid mode : UInt32) :
    (Reading.runtimeFsMkdir address fs currentPid (some p.mem) mode).map (fun r ↦ (r.1, r.2.1))
      = runtimeFsMkdir fs currentPid (some p) mode := by
  obtain ⟨hnil, hshort⟩ := not_or.mp h
  rw [Reading.runtimeFsMkdir, runtimeFsMkdir, reading_isAbsoluteNonRoot, ok_bind]
  cases habs : fsPathIsAbsoluteNonRoot (some p) with
  | false =>
    obtain ⟨start, hstart⟩ := readPair_mem (p := p) 0
      (Nat.one_le_iff_ne_zero.mpr (mt List.length_eq_zero_iff.mp hnil))
    rw [if_pos Bool.not_false, if_pos rfl, hstart]
    rfl
  | true =>
    obtain ⟨hslash, htwo⟩ := isAbsoluteNonRoot_iff.mp habs
    rw [if_neg (by simp), if_neg (by simp), reading_resolvePath, fsResolvePath_eq hterm]
    cases hres : fs.resolve (some p) with
    | some node => rfl
    | none =>
      have hfour : 4 ≤ p.chars.length := by
        by_contra hlt
        exact hshort ⟨hslash, by omega, hres⟩
      obtain ⟨start, hstart⟩ := readPair_mem (p := p) 1 (by omega)
      obtain ⟨next, hnext⟩ := readPair_mem (p := p) 3 hfour
      rw [ok_bind, ok_bind, hstart, hnext, reading_resolveParentPath,
        fsResolveParentPath_eq hterm]
      cases hparent : fs.resolveParent (some p) with
      | error status => rfl
      | ok target =>
        obtain ⟨leafName, parent⟩ := target
        dsimp only [ok_bind]
        split
        · rfl
        · cases fsAllocNode fs with
          | none => rfl
          | some taken => rfl

/-- **On the paths of `MkdirReadsBeyond` it does not return.** -/
theorem reading_mkdir_beyond (hterm : fs.Terminated) (h : MkdirReadsBeyond fs p)
    (address currentPid mode : UInt32) :
    Reading.runtimeFsMkdir address fs currentPid (some p.mem) mode = .error .outOfBounds := by
  rw [Reading.runtimeFsMkdir, reading_isAbsoluteNonRoot, ok_bind]
  rcases h with hnil | ⟨hslash, hlength, hres⟩
  · have habs : fsPathIsAbsoluteNonRoot (some p) = false := by
      rw [Bool.eq_false_iff, ne_eq, isAbsoluteNonRoot_iff, hnil]
      simp
    rw [habs, if_pos Bool.not_false, readPair_beyond (by rw [hnil]; decide), error_bind]
  · have habs : fsPathIsAbsoluteNonRoot (some p) = true :=
      isAbsoluteNonRoot_iff.mpr ⟨hslash, by omega⟩
    obtain ⟨start, hstart⟩ := readPair_mem (p := p) 1 (by omega)
    rw [habs, if_neg (by simp), reading_resolvePath, fsResolvePath_eq hterm, hres, ok_bind]
    dsimp only
    rw [hstart, ok_bind, readPair_beyond (by omega), error_bind]

/-! ### Every call -/

theorem Sound.returns (h : Sound fs) (call : FsCall) (hfits : call.Fits fs) :
    ∃ status fs', call.run fs = .ok (status, fs') := by
  obtain ⟨status, fs', hrun, -⟩ := FsCall.run_sound h hfits
  exact ⟨status, fs', hrun⟩

/-- **Opening, removing and renaming read within every path.** -/
theorem otherCalls_readWithin (h : Sound fs) (currentPid flags : UInt32)
    (fileObject : Option UInt32) (q : Option CString) :
    (∃ result, Reading.runtimeFsOpen fs currentPid (some p.mem) flags fileObject = .ok result) ∧
    (∃ result, Reading.runtimeFsRemove fs currentPid (some p.mem) = .ok result) ∧
    (∃ result, Reading.runtimeFsRename fs currentPid (some p.mem) (q.map CString.mem)
      = .ok result) ∧
    ∃ result, Reading.runtimeFsRename fs currentPid (q.map CString.mem) (some p.mem)
      = .ok result := by
  refine ⟨?_, ?_, ?_, ?_⟩
  · obtain ⟨status, fs', hrun⟩ :=
      h.returns (.open currentPid (some p) flags fileObject) trivial
    obtain ⟨result, hresult, -⟩ := bind_eq_ok.mp hrun
    exact ⟨result, (reading_open currentPid flags fileObject).trans hresult⟩
  · obtain ⟨status, fs', hrun⟩ :=
      h.returns (.remove currentPid (some p)) trivial
    exact ⟨_, (reading_remove currentPid).trans hrun⟩
  · cases q with
    | none => exact ⟨_, rfl⟩
    | some q =>
      obtain ⟨status, fs', hrun⟩ :=
        h.returns (.rename currentPid (some p) (some q)) trivial
      exact ⟨_, (reading_rename currentPid q).trans hrun⟩
  · cases q with
    | none => exact ⟨_, rfl⟩
    | some q =>
      obtain ⟨status, fs', hrun⟩ :=
        h.returns (.rename currentPid (some q) (some p)) trivial
      exact ⟨_, (reading_rename currentPid p).trans hrun⟩

theorem readsWithin_of (h : Sound fs) (hwithin : ¬MkdirReadsBeyond fs p) : ReadsWithin fs p := by
  intro address currentPid mode flags fileObject q
  refine ⟨?_, otherCalls_readWithin h currentPid flags fileObject q⟩
  obtain ⟨status, fs', hrun⟩ := h.returns (.mkdir currentPid (some p) mode) trivial
  rw [FsCall.run, ← reading_mkdir h.terminated hwithin address] at hrun
  obtain ⟨result, hresult, -⟩ := map_eq_ok.mp hrun
  exact ⟨result, hresult⟩

theorem not_readsWithin (h : Sound fs) (hbeyond : MkdirReadsBeyond fs p) : ¬ReadsWithin fs p := by
  intro hwithin
  obtain ⟨result, hresult⟩ := (hwithin 0 0 0 0 none none).1
  rw [reading_mkdir_beyond h.terminated hbeyond] at hresult
  cases hresult

/-- **Path bytes are read up to the terminator**, in every state and by every call, exactly if the
path is not one of those on which `runtime_fs_mkdir` reads beyond. -/
theorem pathReads_within_iff (h : ApiReachable fs) (p : CString) :
    ReadsWithin fs p ↔ ¬MkdirReadsBeyond fs p :=
  ⟨fun hwithin hbeyond ↦ not_readsWithin h.sound hbeyond hwithin, readsWithin_of h.sound⟩

/-- The path `/` is read up to its terminator. -/
theorem pathReads_within_root : ReadsWithin runtimeFsInit ⟨[slash], by simp [slash]⟩ :=
  (pathReads_within_iff (.start rfl) _).mpr (by simp [MkdirReadsBeyond])

/-- `mkdir("/a")` reads two bytes behind the terminator. -/
theorem pathReads_short : ¬∀ fs, ApiReachable fs → ∀ p, ReadsWithin fs p := by
  intro h
  have hbeyond : MkdirReadsBeyond runtimeFsInit pathA := .inr ⟨rfl, .inl rfl, by decide +kernel⟩
  exact not_readsWithin sound_init hbeyond (h runtimeFsInit (.start rfl) pathA)

end Terminated

end TensorOS
