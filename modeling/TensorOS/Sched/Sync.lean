import TensorOS.Sched.QueueSpec
import TensorOS.Sched.Scheduler

/-!
# Bringing the queue in step with the process table

The scheduler changes process states directly and repairs the queue afterwards, with
`scheduler_sync_ready_queue`. Whatever the queue held before, it then holds exactly the READY
processes; and if it was sorted by the present keys, it still is.
-/

namespace TensorOS

namespace Scheduler

variable {s t : Scheduler}

/-! ## The order of the queue -/

theorem vruntimeBefore_iff {a b : Slot} : s.vruntimeBefore a b = true ↔
    s.vruntime a < s.vruntime b ∨ s.vruntime a = s.vruntime b ∧
      ((s.processes a).pid < (s.processes b).pid ∨
        (s.processes a).pid = (s.processes b).pid ∧ a < b) := by
  simp only [vruntimeBefore, UInt64.lt_iff_toNat_lt, gt_iff_lt, UInt32.lt_iff_toNat_lt,
    ← UInt64.toNat_inj, ← UInt32.toNat_inj]
  split_ifs
  · simp_all
  · simp only [false_iff]
    omega
  · simp only [true_iff]
    omega
  · simp only [false_iff]
    omega
  · simp only [decide_eq_true_eq, Fin.lt_def]
    omega

theorem strictBefore (s : Scheduler) : StrictBefore s.vruntimeBefore := by
  refine ⟨fun a ↦ ?_, fun a b c hab hbc ↦ ?_, fun a b hne ↦ ?_⟩
  · rw [← Bool.not_eq_true, vruntimeBefore_iff]
    simp
  · rw [vruntimeBefore_iff] at hab hbc ⊢
    simp only [UInt64.lt_iff_toNat_lt, UInt32.lt_iff_toNat_lt, ← UInt64.toNat_inj,
      ← UInt32.toNat_inj, Fin.lt_def] at hab hbc ⊢
    omega
  · rw [vruntimeBefore_iff, vruntimeBefore_iff]
    have hval : a.val ≠ b.val := fun h ↦ hne (Fin.ext h)
    simp only [UInt64.lt_iff_toNat_lt, UInt32.lt_iff_toNat_lt, ← UInt64.toNat_inj,
      ← UInt32.toNat_inj, Fin.lt_def]
    omega

theorem vruntimeBefore_congr {a b : Slot} (ha : t.vruntime a = s.vruntime a)
    (hb : t.vruntime b = s.vruntime b) (hpa : (t.processes a).pid = (s.processes a).pid)
    (hpb : (t.processes b).pid = (s.processes b).pid) :
    t.vruntimeBefore a b = s.vruntimeBefore a b := by
  simp only [vruntimeBefore, ha, hb, hpa, hpb]

/-! ## The queue of a scheduler -/

/-- The queue is a balanced tree that agrees with the marks. -/
def QueueSound (s : Scheduler) : Prop := ∃ l, s.queue.Holds l

/-- The queue is such a tree, and sorted. -/
def QueueSorted (s : Scheduler) : Prop :=
  ∃ l, s.queue.Holds l ∧ l.Pairwise fun a b ↦ s.vruntimeBefore a b = true

theorem QueueSorted.sound (h : s.QueueSorted) : s.QueueSound := by
  obtain ⟨l, hl, -⟩ := h
  exact ⟨l, hl⟩

/-- A queue stays sorted when the keys of its slots stay. -/
theorem QueueSorted.congr (h : s.QueueSorted) (hqueue : t.queue = s.queue)
    (hkeys : ∀ i, s.queue.onRq i = true →
      t.vruntime i = s.vruntime i ∧ (t.processes i).pid = (s.processes i).pid) : t.QueueSorted := by
  obtain ⟨l, hl, hsort⟩ := h
  refine ⟨l, hqueue ▸ hl, hsort.imp_of_mem fun {a b} ha hb hab ↦ ?_⟩
  obtain ⟨hva, hpa⟩ := hkeys a ((hl.onRq a).mpr ha)
  obtain ⟨hvb, hpb⟩ := hkeys b ((hl.onRq b).mpr hb)
  rwa [vruntimeBefore_congr hva hvb hpa hpb]

theorem QueueSound.leftmost_onRq (h : s.QueueSound) {n : Slot} (hn : s.queue.leftmost = some n) :
    s.queue.onRq n = true := by
  obtain ⟨l, hl⟩ := h
  obtain ⟨rest, hrest⟩ := List.head?_eq_some_iff.mp (hl.leftmost ▸ hn)
  rw [hl.onRq, hrest]
  simp

theorem QueueSound.leftmost_none (h : s.QueueSound) (hn : s.queue.leftmost = none) (i : Slot) :
    s.queue.onRq i = false := by
  obtain ⟨l, hl⟩ := h
  rw [hl.leftmost, List.head?_eq_none_iff] at hn
  rw [← Bool.not_eq_true, hl.onRq, hn]
  simp

theorem QueueSorted.leftmost_before (h : s.QueueSorted) {n : Slot} (hn : s.queue.leftmost = some n)
    {i : Slot} (hi : s.queue.onRq i = true) (hne : i ≠ n) : s.vruntimeBefore n i = true := by
  obtain ⟨l, hl, hsort⟩ := h
  obtain ⟨rest, hrest⟩ := List.head?_eq_some_iff.mp (hl.leftmost ▸ hn)
  rw [hl.onRq, hrest, List.mem_cons] at hi
  rw [hrest, List.pairwise_cons] at hsort
  exact hsort.1 i (hi.resolve_left hne)

/-! ## Synchronising -/

/-- What one round of `scheduler_sync_ready_queue` does to the mark of its slot. -/
theorem sync_round (index : Slot) {rq : ReadyQueue} {l : List Slot} (h : rq.Holds l) :
    ∃ rq' l', (if s.stateOf index = .ready then readyQueueInsert s.vruntimeBefore rq index
        else readyQueueRemove rq index) = .ok rq' ∧ rq'.Holds l' ∧
      rq'.onRq = Function.update rq.onRq index (decide (s.stateOf index = .ready)) ∧
      ((l.Pairwise fun a b ↦ s.vruntimeBefore a b = true) →
        l'.Pairwise fun a b ↦ s.vruntimeBefore a b = true) := by
  by_cases hready : s.stateOf index = .ready
  · rw [if_pos hready, decide_eq_true hready]
    cases hon : rq.onRq index with
    | true =>
      refine ⟨rq, l, by rw [readyQueueInsert, if_pos hon], h, ?_, id⟩
      rw [← hon, Function.update_eq_self]
    | false =>
      obtain ⟨rq', l', hrun, hl', -, honRq, hsort⟩ := h.insert s.strictBefore hon
      exact ⟨rq', l', hrun, hl', honRq, hsort⟩
  · rw [if_neg hready, decide_eq_false hready]
    cases hon : rq.onRq index with
    | true =>
      obtain ⟨rq', hrun, hl', honRq⟩ := h.remove hon
      exact ⟨rq', l.erase index, hrun, hl', honRq, fun hsort ↦ hsort.sublist List.erase_sublist⟩
    | false =>
      refine ⟨rq, l, by rw [readyQueueRemove, if_pos hon], h, ?_, id⟩
      rw [← hon, Function.update_eq_self]

/-- The scheduler `s'` is `t` with a queue that holds exactly the READY processes. -/
structure Synced (t s' : Scheduler) : Prop where
  eq : s' = { t with queue := s'.queue }
  sound : s'.QueueSound
  onRq : ∀ i, s'.queue.onRq i = true ↔ t.stateOf i = .ready
  sorted : t.QueueSorted → s'.QueueSorted

/-- The slots a part of the loop has visited are right. -/
theorem sync_loop (indices : List Slot) {rq : ReadyQueue} {l : List Slot} (h : rq.Holds l) :
    ∃ rq' l', indices.foldlM (fun queue index ↦
        if s.stateOf index = .ready then readyQueueInsert s.vruntimeBefore queue index
        else readyQueueRemove queue index) rq = .ok rq' ∧ rq'.Holds l' ∧
      (∀ i, rq'.onRq i = if i ∈ indices then decide (s.stateOf i = .ready) else rq.onRq i) ∧
      ((l.Pairwise fun a b ↦ s.vruntimeBefore a b = true) →
        l'.Pairwise fun a b ↦ s.vruntimeBefore a b = true) := by
  induction indices generalizing rq l with
  | nil => exact ⟨rq, l, rfl, h, by simp, id⟩
  | cons index indices ih =>
    obtain ⟨rq₁, l₁, hround, h₁, honRq₁, hsort₁⟩ := sync_round (s := s) index h
    obtain ⟨rq', l', hrun, hl', honRq, hsort⟩ := ih h₁
    refine ⟨rq', l', ?_, hl', fun i ↦ ?_, fun h ↦ hsort (hsort₁ h)⟩
    · rw [List.foldlM_cons, hround, ok_bind, hrun]
    · rw [honRq, honRq₁, Function.update_apply]
      by_cases hi : i ∈ indices
      · simp [hi]
      · by_cases hx : i = index
        · simp [hx]
        · simp [hi, hx]

/-- **Synchronising** succeeds on every sound queue. -/
theorem QueueSound.sync (h : s.QueueSound) : ∃ s', s.syncReadyQueue = .ok s' ∧ Synced s s' := by
  obtain ⟨l₀, h₀⟩ := h
  obtain ⟨rq₀, l₀', hrun₀, hl₀, honRq₀, -⟩ := sync_loop (s := s) (List.finRange 10) h₀
  refine ⟨{ s with queue := rq₀ }, by rw [syncReadyQueue, hrun₀, ok_bind], rfl, ⟨l₀', hl₀⟩,
    fun i ↦ by simp [honRq₀ i], fun hsorted ↦ ?_⟩
  -- the loop has one result, whichever list describes the queue
  obtain ⟨l, h, hl⟩ := hsorted
  obtain ⟨rq, l', hrun, hl', -, hsort⟩ := sync_loop (s := s) (List.finRange 10) h
  obtain rfl : rq₀ = rq := Except.ok.inj (hrun₀.symm.trans hrun)
  exact ⟨l', hl', hsort hl⟩

end Scheduler

end TensorOS
