import TensorOS.Lib.LinkedTree
import TensorOS.Lib.Partiality

/-!
# The ready queue

The ready queue of `scheduler.c` is a red-black tree in five arrays over the ten process slots. A
child, parent or root entry is a slot or `UINT32_MAX`, here an `Option`; using `UINT32_MAX` as an
index leaves the arrays and is a `Fault`. The two halves of each balancing loop of the source are
the same code with left and right exchanged, so the model has one half with a `Side` for both.

Loops carry a bound on their rounds, and a loop that exceeds it is a `Fault` as well.
-/

namespace TensorOS

instance neZeroTen : NeZero 10 := ⟨by decide⟩

/-- A process slot. -/
abbrev Slot := Fin 10

/-- More rounds than a loop over a tree of ten slots makes. -/
def loopBound : ℕ := 16

/-- A slot number used as an index. -/
def slotOf : Option Slot → Except Fault Slot
  | some i => .ok i
  | none => .error .outOfBounds

/-! ## Rotations -/

/-- Hang `new` where `old` hangs below its parent, as the rotations and
`scheduler_ready_queue_transplant` do. The child on side `s` is tested first. -/
def replaceChild (s : Side) (q : Links Slot) (parent : Option Slot) (old : Slot)
    (new : Option Slot) : Links Slot :=
  match parent with
  | none => q.setRoot new
  | some p => if q.child s p = some old then q.setChild s p new else q.setChild s.other p new

/-- `scheduler_ready_queue_rotate_left`, and its mirror image. -/
def readyQueueRotate (s : Side) (q : Links Slot) (index : Slot) : Except Fault (Links Slot) := do
  let pivot ← slotOf (q.child s.other index)
  let parent := q.parent index
  let inner := q.child s pivot
  let q := q.setChild s.other index inner
  let q := q.adopt inner (some index)
  let q := q.setParent pivot parent
  let q := replaceChild s q parent index (some pivot)
  let q := q.setChild s pivot (some index)
  .ok (q.setParent index (some pivot))

def readyQueueRotateLeft : Links Slot → Slot → Except Fault (Links Slot) := readyQueueRotate .left

/-- `scheduler_ready_queue_rotate_right`. -/
def readyQueueRotateRight : Links Slot → Slot → Except Fault (Links Slot) := readyQueueRotate .right

/-- The slot exists and is red. -/
def isRed (q : Links Slot) : Option Slot → Bool
  | some i => q.color i = .red
  | none => false

/-- Colour a slot black, if there is one. -/
def blacken (q : Links Slot) : Option Slot → Links Slot
  | some i => q.setColor i .black
  | none => q

/-! ## Inserting -/

/-- The first loop of `scheduler_ready_queue_insert`: the slot to insert below. -/
def insertDescend (before : Slot → Slot → Bool) (q : Links Slot) (index : Slot) :
    ℕ → Option Slot → Option Slot → Except Fault (Option Slot)
  | _, none, parent => .ok parent
  | 0, some _, _ => .error .diverges
  | bound + 1, some cursor, _ =>
    insertDescend before q index bound
      (q.child (if before index cursor then .left else .right) cursor) (some cursor)

/-- The part of `scheduler_ready_queue_insert` that hangs the slot below its parent. -/
def insertLeaf (before : Slot → Slot → Bool) (q : Links Slot) (index : Slot) :
    Option Slot → Links Slot
  | none => q.setRoot (some index)
  | some p => q.setChild (if before index p then .left else .right) p (some index)

/-- The part of the second loop of `scheduler_ready_queue_insert` for a black uncle, with the slot
the loop goes on with. -/
def insertRotate (s : Side) (q : Links Slot) (index parentIndex grandparent : Slot) :
    Except Fault (Links Slot × Slot) := do
  let (q, index, parentIndex, grandparent) ←
    if q.child s.other parentIndex = some index then do
      let q ← readyQueueRotate s q parentIndex
      let p ← slotOf (q.parent parentIndex)
      let g ← slotOf (q.parent p)
      .ok (q, parentIndex, p, g)
    else .ok (q, index, parentIndex, grandparent)
  let q := (q.setColor parentIndex .black).setColor grandparent .red
  let q ← readyQueueRotate s.other q grandparent
  .ok (q, index)

/-- The second loop of `scheduler_ready_queue_insert`. -/
def insertFixup : ℕ → Links Slot → Slot → Except Fault (Links Slot)
  | 0, _, _ => .error .diverges
  | bound + 1, q, index =>
    if q.root = some index then .ok q
    else do
      let parentIndex ← slotOf (q.parent index)
      if q.color parentIndex ≠ .red then .ok q
      else do
        let grandparent ← slotOf (q.parent parentIndex)
        let s : Side := if q.child .left grandparent = some parentIndex then .left else .right
        let uncle := q.child s.other grandparent
        if isRed q uncle then
          let q := blacken (q.setColor parentIndex .black) uncle
          insertFixup bound (q.setColor grandparent .red) grandparent
        else do
          let (q, index) ← insertRotate s q index parentIndex grandparent
          insertFixup bound q index

/-- The walk to the left that `scheduler_ready_queue_recompute_leftmost` and
`scheduler_ready_queue_minimum` share. -/
def leftmostFrom (q : Links Slot) : ℕ → Slot → Except Fault Slot
  | 0, _ => .error .diverges
  | bound + 1, index =>
    match q.child .left index with
    | none => .ok index
    | some l => leftmostFrom q bound l

/-- `scheduler_ready_queue_recompute_leftmost`, as the value it stores. -/
def recomputeLeftmost (q : Links Slot) : Except Fault (Option Slot) :=
  match q.root with
  | none => .ok none
  | some index => do
    let index ← leftmostFrom q loopBound index
    .ok (some index)

/-- The ready queue: `g_sched_rb_parent`, `g_sched_rb_left`, `g_sched_rb_right`, `g_sched_rb_color`
and `g_sched_rq_root` are the links. -/
structure ReadyQueue where
  links : Links Slot
  onRq : Slot → Bool
  leftmost : Option Slot

/-- `scheduler_ready_queue_insert`. -/
def readyQueueInsert (before : Slot → Slot → Bool) (rq : ReadyQueue) (index : Slot) :
    Except Fault ReadyQueue :=
  if rq.onRq index then .ok rq
  else do
    let q := (rq.links.setChild .left index none).setChild .right index none
    let parent ← insertDescend before q index loopBound q.root none
    let q := (q.setParent index parent).setColor index .red
    let q ← insertFixup loopBound (insertLeaf before q index parent) index
    let root ← slotOf q.root
    let q := q.setColor root .black
    let leftmost ← recomputeLeftmost q
    .ok { links := q, onRq := Function.update rq.onRq index true, leftmost := leftmost }

/-! ## Removing -/

/-- `scheduler_ready_queue_minimum`. -/
def readyQueueMinimum (q : Links Slot) : Option Slot → Except Fault (Option Slot)
  | none => .ok none
  | some index => do
    let index ← leftmostFrom q loopBound index
    .ok (some index)

/-- `scheduler_ready_queue_transplant`. -/
def readyQueueTransplant (q : Links Slot) (old : Slot) (new : Option Slot) : Links Slot :=
  let parent := q.parent old
  (replaceChild .left q parent old new).adopt new parent

/-- The last part of a round of `scheduler_ready_queue_remove_fixup`, when the sibling has a red
child: at most two rotations, after which the loop is left. -/
def removeRotate (s : Side) (q : Links Slot) (parent sibling : Slot) :
    Except Fault (Links Slot) := do
  let (q, sibling) ←
    if !isRed q (q.child s.other sibling) then do
      let q := blacken q (q.child s sibling)
      let q := q.setColor sibling .red
      let q ← readyQueueRotate s.other q sibling
      let sibling ← slotOf (q.child s.other parent)
      .ok (q, sibling)
    else .ok (q, sibling)
  let q := q.setColor sibling (q.color parent)
  let q := q.setColor parent .black
  let q := blacken q (q.child s.other sibling)
  readyQueueRotate s q parent

/-- A round of `scheduler_ready_queue_remove_fixup` once the sibling is not red, with the answer
whether the loop goes on at the parent. -/
def removeRound (s : Side) (q : Links Slot) (parent : Slot) : Except Fault (Links Slot × Bool) :=
  match q.child s.other parent with
  | none => .ok (q, true)
  | some sibling =>
    if !isRed q (q.child s sibling) && !isRed q (q.child s.other sibling) then
      .ok (q.setColor sibling .red, true)
    else do
      let q ← removeRotate s q parent sibling
      .ok (q, false)

/-- `scheduler_ready_queue_remove_fixup`. -/
def removeFixup : ℕ → Links Slot → Option Slot → Option Slot → Except Fault (Links Slot)
  | 0, _, _, _ => .error .diverges
  | bound + 1, q, index, parent =>
    if index = q.root ∨ isRed q index then .ok (blacken q index)
    else
      match parent with
      | none => .ok (blacken q index)
      | some p => do
        let s : Side := if index = q.child .left p then .left else .right
        let sibling := q.child s.other p
        let q ← if isRed q sibling then
            readyQueueRotate s ((blacken q sibling).setColor p .red) p
          else .ok q
        let (q, again) ← removeRound s q p
        if again then removeFixup bound q (some p) (q.parent p)
        else .ok (blacken q q.root)

/-- What `scheduler_ready_queue_remove` takes out of the tree. -/
structure Spliced where
  links : Links Slot
  removedColor : Color
  replacement : Option Slot
  replacementParent : Option Slot

/-- The first part of taking out a slot with two children: the next slot gives up its place and
takes the right subtree over. The answer has the parent of the slot that came in its place. -/
def removeNext (q : Links Slot) (index removedIndex : Slot) :
    Except Fault (Links Slot × Option Slot) :=
  if q.parent removedIndex = some index then
    .ok (q.adopt (q.child .right removedIndex) (some removedIndex), some removedIndex)
  else do
    let replacementParent := q.parent removedIndex
    let q := readyQueueTransplant q removedIndex (q.child .right removedIndex)
    let q := q.setChild .right removedIndex (q.child .right index)
    let r ← slotOf (q.child .right removedIndex)
    .ok (q.setParent r (some removedIndex), replacementParent)

/-- The part of `scheduler_ready_queue_remove` that takes a slot with two children out: the next
slot comes in its place. -/
def removeInner (q : Links Slot) (index : Slot) : Except Fault Spliced := do
  let removedIndex ← slotOf (← readyQueueMinimum q (q.child .right index))
  let removedColor := q.color removedIndex
  let replacement := q.child .right removedIndex
  let (q, replacementParent) ← removeNext q index removedIndex
  let q := readyQueueTransplant q index (some removedIndex)
  let q := q.setChild .left removedIndex (q.child .left index)
  let l ← slotOf (q.child .left removedIndex)
  let q := q.setParent l (some removedIndex)
  .ok ⟨q.setColor removedIndex (q.color index), removedColor, replacement, replacementParent⟩

/-- The part of `scheduler_ready_queue_remove` that takes the slot out of the tree. -/
def removeSplice (q : Links Slot) (index : Slot) : Except Fault Spliced :=
  if q.child .left index = none then
    .ok ⟨readyQueueTransplant q index (q.child .right index), q.color index, q.child .right index,
      q.parent index⟩
  else if q.child .right index = none then
    .ok ⟨readyQueueTransplant q index (q.child .left index), q.color index, q.child .left index,
      q.parent index⟩
  else removeInner q index

/-- The entries of a slot outside the tree, as the source leaves them. -/
def clearSlot (q : Links Slot) (index : Slot) : Links Slot :=
  (((q.setParent index none).setChild .left index none).setChild .right index none).setColor index
    .black

/-- `scheduler_ready_queue_remove`. -/
def readyQueueRemove (rq : ReadyQueue) (index : Slot) : Except Fault ReadyQueue :=
  if rq.onRq index = false then .ok rq
  else do
    let spliced ← removeSplice rq.links index
    let q := clearSlot spliced.links index
    let q ← if spliced.removedColor = .black then
        removeFixup loopBound q spliced.replacement spliced.replacementParent
      else .ok q
    let leftmost ← recomputeLeftmost q
    .ok { links := q, onRq := Function.update rq.onRq index false, leftmost := leftmost }

end TensorOS
