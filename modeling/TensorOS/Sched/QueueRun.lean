import TensorOS.Sched.Sync

/-!
# Runs of the ready queue

The queue by itself, under any sequence of insertions and removals, with the keys of the slots
changed in between. A slot that is enqueued keeps its key: this is what the scheduler has to see
to, and here it is part of what an operation may do.

`enqueued` says what a queue is for, as a set: the slots inserted and not removed since. The main
result is that after every sequence the five arrays hold a red-black search tree of this set
(`runQueue_spec`). No sequence leaves the arrays or makes a loop run on, so that the statement is
about the queue that each operation returns.
-/

namespace TensorOS

/-! ## Search trees -/

/-- A search tree: what is left of a node comes before it, what is right of it after. -/
def RbTree.Ordered {α : Type*} (before : α → α → Prop) : RbTree α → Prop
  | .nil => True
  | .node _ l a r => (∀ x ∈ l.toList, before x a) ∧ (∀ x ∈ r.toList, before a x) ∧
      l.Ordered before ∧ r.Ordered before

/-- A tree whose nodes are in order from left to right is a search tree. -/
theorem RbTree.ordered_of_pairwise {α : Type*} {before : α → α → Prop} {t : RbTree α}
    (h : t.toList.Pairwise before) : t.Ordered before := by
  induction t with
  | nil => trivial
  | node c l a r ihl ihr =>
    obtain ⟨hl, hrest, hcross⟩ := List.pairwise_append.mp h
    obtain ⟨ha, hr⟩ := List.pairwise_cons.mp hrest
    exact ⟨fun x hx ↦ hcross x hx a (by simp), ha, ihl hl, ihr hr⟩

/-! ## Operations -/

/-- What is done to the queue and to the keys of the slots. -/
inductive QueueOp
  | insert (index : Slot)
  | remove (index : Slot)
  | rekey (index : Slot) (vruntime : UInt64) (pid : UInt32)

/-- One operation. A slot on the queue keeps its key. -/
def QueueOp.run (s : Scheduler) : QueueOp → Except Fault Scheduler
  | .insert index => do
    let queue ← readyQueueInsert s.vruntimeBefore s.queue index
    .ok { s with queue := queue }
  | .remove index => do
    let queue ← readyQueueRemove s.queue index
    .ok { s with queue := queue }
  | .rekey index vruntime pid =>
    if s.queue.onRq index then .ok s
    else .ok { s with
      vruntime := Function.update s.vruntime index vruntime
      processes := Function.update s.processes index { s.processes index with pid := pid } }

/-- A sequence of operations. -/
def runQueue (s : Scheduler) : List QueueOp → Except Fault Scheduler
  | [] => .ok s
  | op :: ops => do
    let s ← op.run s
    runQueue s ops

/-- A queue without slots. What the arrays hold besides does not matter. -/
def emptyQueue (links : Links Slot) : ReadyQueue where
  links := links.setRoot none
  onRq := fun _ ↦ false
  leftmost := none

/-- The slots on the queue after an operation. -/
def QueueOp.enqueues (members : Set Slot) : QueueOp → Set Slot
  | .insert index => members ∪ {index}
  | .remove index => members \ {index}
  | .rekey _ _ _ => members

/-- The slots inserted and not removed since. -/
def enqueued (ops : List QueueOp) : Set Slot := ops.foldl QueueOp.enqueues ∅

/-- The arrays hold a red-black search tree of the slots, and the leftmost slot is the first. -/
structure ReadyTree (s : Scheduler) (members : Set Slot) : Prop where
  /-- The links are those of a tree with the root black, no red node below a red one and as many
  black nodes on each way down, ordered by `scheduler_vruntime_before`. -/
  tree : ∃ t height, Rep s.queue.links t [] ∧ Balanced t .black height ∧
    t.Ordered (fun a b ↦ s.vruntimeBefore a b = true) ∧ ∀ i, i ∈ t.toList ↔ i ∈ members
  onRq : ∀ i, s.queue.onRq i = true ↔ i ∈ members
  leftmost_none : s.queue.leftmost = none ↔ members = ∅
  leftmost_first : ∀ i, s.queue.leftmost = some i ↔
    i ∈ members ∧ ∀ j ∈ members, j ≠ i → s.vruntimeBefore i j = true

namespace Scheduler

variable {s : Scheduler} {members : Set Slot}

/-! ## One operation -/

/-- The queue is sorted, and its slots are the given ones. -/
structure QueueOf (s : Scheduler) (members : Set Slot) : Prop where
  sorted : s.QueueSorted
  onRq : ∀ i, s.queue.onRq i = true ↔ i ∈ members

theorem QueueOf.insert (h : s.QueueOf members) (index : Slot) :
    ∃ s', (QueueOp.insert index).run s = .ok s' ∧ s'.QueueOf (members ∪ {index}) := by
  obtain ⟨l, hl, hsort⟩ := h.sorted
  cases hon : s.queue.onRq index with
  | true =>
    -- the source returns at once
    have hrun : readyQueueInsert s.vruntimeBefore s.queue index = .ok s.queue := if_pos hon
    refine ⟨s, by rw [QueueOp.run, hrun]; rfl, h.sorted, fun i ↦ ?_⟩
    rw [Set.union_eq_left.mpr (Set.singleton_subset_iff.mpr ((h.onRq index).mp hon))]
    exact h.onRq i
  | false =>
    obtain ⟨rq', l', hrun, hholds, hperm, hmarks, hsorted⟩ := hl.insert s.strictBefore hon
    refine ⟨{ s with queue := rq' }, by rw [QueueOp.run, hrun]; rfl, ⟨l', hholds, hsorted hsort⟩,
      ?_⟩
    intro i
    change rq'.onRq i = true ↔ _
    rw [hmarks, Set.mem_union, Set.mem_singleton_iff, ← h.onRq i]
    by_cases hi : i = index
    · simp [hi]
    · simp [hi]

theorem QueueOf.remove (h : s.QueueOf members) (index : Slot) :
    ∃ s', (QueueOp.remove index).run s = .ok s' ∧ s'.QueueOf (members \ {index}) := by
  obtain ⟨l, hl, hsort⟩ := h.sorted
  cases hon : s.queue.onRq index with
  | false =>
    have hrun : readyQueueRemove s.queue index = .ok s.queue := if_pos hon
    have hout : index ∉ members := by
      rw [← h.onRq index, hon]
      simp
    refine ⟨s, by rw [QueueOp.run, hrun]; rfl, h.sorted, fun i ↦ ?_⟩
    rw [Set.sdiff_singleton_eq_self hout]
    exact h.onRq i
  | true =>
    obtain ⟨rq', hrun, hholds, hmarks⟩ := hl.remove hon
    refine ⟨{ s with queue := rq' }, by rw [QueueOp.run, hrun]; rfl,
      ⟨l.erase index, hholds, hsort.sublist List.erase_sublist⟩, ?_⟩
    intro i
    change rq'.onRq i = true ↔ _
    rw [hmarks, Set.mem_sdiff_singleton, ← h.onRq i]
    by_cases hi : i = index
    · simp [hi]
    · simp [hi]

/-- The key of a slot outside the queue does not matter to the order inside. -/
theorem QueueOf.rekey (h : s.QueueOf members) (index : Slot) (vruntime : UInt64) (pid : UInt32) :
    ∃ s', (QueueOp.rekey index vruntime pid).run s = .ok s' ∧ s'.QueueOf members := by
  cases hon : s.queue.onRq index with
  | true => exact ⟨s, by rw [QueueOp.run, if_pos hon], h⟩
  | false =>
    have hrun : (QueueOp.rekey index vruntime pid).run s = .ok { s with
        vruntime := Function.update s.vruntime index vruntime
        processes := Function.update s.processes index { s.processes index with pid := pid } } :=
      if_neg (by simp [hon])
    refine ⟨_, hrun, ?_, h.onRq⟩
    refine h.sorted.congr rfl fun i hi ↦ ?_
    have hne : i ≠ index := by
      rintro rfl
      rw [hon] at hi
      cases hi
    constructor
    · exact Function.update_of_ne hne ..
    · exact congrArg Process.pid (Function.update_of_ne hne ..)

/-- **One operation** returns, and keeps the queue. -/
theorem QueueOf.step (h : s.QueueOf members) (op : QueueOp) :
    ∃ s', op.run s = .ok s' ∧ s'.QueueOf (op.enqueues members) := by
  cases op with
  | insert index => exact h.insert index
  | remove index => exact h.remove index
  | rekey index vruntime pid => exact h.rekey index vruntime pid

/-- What the operations keep is what the queue is to be. -/
theorem QueueOf.readyTree (h : s.QueueOf members) : ReadyTree s members := by
  obtain ⟨l, hl, hsort⟩ := h.sorted
  obtain ⟨t, height, hrep, hbal, rfl⟩ := hl.queued
  have hmem : ∀ i, i ∈ t.toList ↔ i ∈ members := by
    intro i
    rw [← hl.onRq, h.onRq]
  refine ⟨⟨t, height, hrep, hbal, RbTree.ordered_of_pairwise hsort, hmem⟩, h.onRq, ?_, ?_⟩
  · rw [hl.leftmost, List.head?_eq_none_iff, Set.eq_empty_iff_forall_notMem]
    simp only [← hmem, List.eq_nil_iff_forall_not_mem]
  · intro i
    constructor
    · intro hi
      refine ⟨(h.onRq i).mp (h.sorted.sound.leftmost_onRq hi), fun j hj hne ↦ ?_⟩
      exact h.sorted.leftmost_before hi ((h.onRq j).mpr hj) hne
    · rintro ⟨hi, hfirst⟩
      cases hlm : s.queue.leftmost with
      | none =>
        have hoff := h.sorted.sound.leftmost_none hlm i
        rw [(h.onRq i).mpr hi] at hoff
        cases hoff
      | some n =>
        -- two first slots would each come before the other
        by_contra hne
        have hni : n ≠ i := fun heq ↦ hne (congrArg some heq)
        have hn := h.sorted.sound.leftmost_onRq hlm
        have hin := hfirst n ((h.onRq n).mp hn) hni
        have hback := h.sorted.leftmost_before hlm ((h.onRq i).mpr hi) hni.symm
        have hcycle := s.strictBefore.trans i n i hin hback
        rw [s.strictBefore.irrefl i] at hcycle
        cases hcycle

end Scheduler

/-! ## Runs -/

/-- A sequence of operations returns, and keeps the queue. -/
theorem Scheduler.QueueOf.runs {s : Scheduler} {members : Set Slot} (h : s.QueueOf members)
    (ops : List QueueOp) :
    ∃ s', runQueue s ops = .ok s' ∧ s'.QueueOf (ops.foldl QueueOp.enqueues members) := by
  induction ops generalizing s members with
  | nil => exact ⟨s, rfl, h⟩
  | cons op ops ih =>
    obtain ⟨s₁, hstep, h₁⟩ := h.step op
    obtain ⟨s', hrun, h'⟩ := ih h₁
    exact ⟨s', by rw [runQueue, hstep]; exact hrun, h'⟩

theorem queueOf_empty (s : Scheduler) (links : Links Slot) :
    Scheduler.QueueOf { s with queue := emptyQueue links } ∅ := by
  refine ⟨⟨[], ⟨⟨.nil, 0, ⟨rfl, trivial, trivial, by simp [RbTree.toList, pathNodes]⟩, .nil, rfl⟩,
    ?_, rfl⟩, .nil⟩, ?_⟩
  · intro i
    simp [emptyQueue]
  · intro i
    simp [emptyQueue]

/-- **The ready queue.** From an empty queue, every sequence of insertions, removals and changes of
keys returns, and leaves a red-black search tree of the slots that were inserted and not removed
since, with its first slot as the leftmost one. -/
theorem runQueue_spec (s : Scheduler) (links : Links Slot) (ops : List QueueOp) :
    ∃ s', runQueue { s with queue := emptyQueue links } ops = .ok s' ∧
      ReadyTree s' (enqueued ops) := by
  obtain ⟨s', hrun, h⟩ := (queueOf_empty s links).runs ops
  exact ⟨s', hrun, h.readyTree⟩

end TensorOS
