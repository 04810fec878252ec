import TensorOS.Fs.Ops

/-!
# The file-system validator

`runtime_fs_validate` checks the root, then each further node, then each open slot, and returns the
first status that is not OK. The walk up the parent chain counts its steps, so it ends on any
memory contents; but it indexes the node array with parent entries it has not checked, and compares
names it does not know to be terminated, so on corrupted contents it can leave an array.
-/

namespace TensorOS

/-- A loop that stops at the first status other than OK. -/
def firstStatus {α : Type} (f : α → Except Fault Int) : List α → Except Fault Int
  | [] => .ok Status.ok
  | a :: as => do
    let status ← f a
    if status ≠ Status.ok then .ok status else firstStatus f as

theorem firstStatus_eq_ok {α : Type} {f : α → Except Fault Int} {l : List α} :
    firstStatus f l = .ok Status.ok ↔ ∀ a ∈ l, f a = .ok Status.ok := by
  induction l with
  | nil => simp [firstStatus]
  | cons a l ih =>
    rw [firstStatus, List.forall_mem_cons, ← ih]
    cases hf : f a with
    | error e => simp [bind, Except.bind]
    | ok status =>
      by_cases hs : status = Status.ok
      · simp [bind, Except.bind, hs]
      · simp [bind, Except.bind, hs]

/-- The parent walk of `runtime_fs_validate`, with the steps that are left before the depth exceeds
the number of nodes. -/
def validateChain (fs : RuntimeFs) : ℕ → UInt32 → Except Fault Int
  | left, current =>
    if current = 0 then .ok Status.ok
    else do
      let node ← nodeIndexOf current
      let current := (fs.nodes node).parentIndex
      match left with
      | 0 => .ok Status.einval
      | left + 1 => do
        let next ← nodeIndexOf current
        if (fs.nodes next).used = 0 then .ok Status.einval else validateChain fs left current

/-- The comparison of one node with a later one. -/
def validatePeer (fs : RuntimeFs) (index other : Fin 16) : Except Fault Int := do
  let node := fs.nodes index
  let peer := fs.nodes other
  if peer.used ≠ 0 ∧ peer.parentIndex = node.parentIndex then
    if ← nameEquals (List.ofFn peer.name) (List.ofFn node.name) then .ok Status.eexist
    else .ok Status.ok
  else .ok Status.ok

/-- One round of the node loop. -/
def validateNode (fs : RuntimeFs) (index : Fin 16) : Except Fault Int :=
  let node := fs.nodes index
  if node.used = 0 then .ok Status.ok
  else if node.type ≠ fileTypeDirectory ∧ node.type ≠ fileTypeRegular then .ok Status.einval
  else if fsNameIsEmpty node.name then .ok Status.einval
  else if node.parentIndex ≥ 16 then .ok Status.einval
  else do
    let parent ← nodeIndexOf node.parentIndex
    if (fs.nodes parent).used = 0 ∨ (fs.nodes parent).type ≠ fileTypeDirectory then
      .ok Status.einval
    else if node.sizeBytes > fileCapacity then .ok Status.einval
    else
      let status ← validateChain fs 16 (UInt32.ofNat index)
      if status ≠ Status.ok then .ok status
      else firstStatus (validatePeer fs index) ((List.finRange 16).filter (index < ·))

/-- One round of the slot loop. -/
def validateSlot (fs : RuntimeFs) (index : Fin 8) : Except Fault Int :=
  let openFile := fs.openFiles index
  if openFile.used = 0 then .ok Status.ok
  else if openFile.nodeIndex ≥ 16 then .ok Status.ebadf
  else do
    let node ← nodeIndexOf openFile.nodeIndex
    if (fs.nodes node).used = 0 then .ok Status.ebadf
    else if (fs.nodes node).type = fileTypeRegular ∧ openFile.offset > fileCapacity then
      .ok Status.einval
    else if (fs.nodes node).type = fileTypeDirectory ∧ openFile.flags &&& openWrite ≠ 0 then
      .ok Status.eisdir
    else .ok Status.ok

/-- `runtime_fs_validate`. -/
def runtimeFsValidate (fs : RuntimeFs) : Except Fault Int :=
  let root := fs.nodes 0
  if root.used = 0 ∨ root.type ≠ fileTypeDirectory ∨ root.parentIndex ≠ 0 ∨
      root.name 0 ≠ slash ∨ root.name 1 ≠ 0 then .ok Status.einval
  else do
    let status ← firstStatus (validateNode fs) ((List.finRange 16).filter (0 < ·))
    if status ≠ Status.ok then .ok status
    else firstStatus (validateSlot fs) (List.finRange 8)

end TensorOS
