import TensorOS.Ipc.Mailbox
import TensorOS.Mem.Sizes

/-!
# Destroying a mailbox

A mailbox and its two wait queues are three allocations of the kernel heap. `kernel_mailbox_destroy`
destroys the queue of the senders and then that of the receivers, and either may refuse because
processes are blocked in it. When the second one refuses, the call answers 0 like every call that
failed, but the first queue is gone and its memory is given back. Every other call that fails leaves
everything as it was (`mailboxDestroy_atomic_iff`).
-/

namespace TensorOS

variable {n : ℕ}

/-- The kernel with its heap and the mailboxes in it. Wait queues and mailboxes are named by the
pointers that `kmem_alloc` returned for them, and the pointers in a mailbox may be null. -/
structure IpcMemory (n : ℕ) where
  kernel : Kernel n ℕ
  heap : Kmem
  mailboxes : ℕ → KernelMailbox (Option ℕ)

section

variable (sizeofBlock : UInt32) (s : IpcMemory n)

/-- `kernel_wait_queue_destroy`. -/
def kernelWaitQueueDestroy : Option ℕ → Except Fault (IpcMemory n × Bool)
  | none => .ok (s, false)
  | some queue =>
    let entry := s.kernel.queues queue
    if ¬ s.kernel.kernelWaitQueueIsValid queue ∨ entry.waiterCount ≠ 0 then .ok (s, false)
    else do
      let queues := Function.update s.kernel.queues queue { entry with magic := 0 }
      let heap ← kmemFree sizeofBlock s.heap (some queue)
      .ok ({ s with kernel := { s.kernel with queues := queues }, heap := heap }, true)

/-- `kernel_mailbox_is_valid`, of a mailbox whose pointers may be null. -/
def kernelMailboxHasQueues (mailbox : KernelMailbox (Option ℕ)) : Bool :=
  kernelMailboxIsValid mailbox ∧ mailbox.senderWaitQueue ≠ none ∧ mailbox.receiverWaitQueue ≠ none

/-- `kernel_mailbox_destroy`. -/
def kernelMailboxDestroy : Option ℕ → Except Fault (IpcMemory n × Bool)
  | none => .ok (s, false)
  | some mailbox =>
    let entry := s.mailboxes mailbox
    if ¬ kernelMailboxHasQueues entry ∨ entry.hasMessage ≠ 0 then .ok (s, false)
    else do
      let (s, destroyed) ← kernelWaitQueueDestroy sizeofBlock s entry.senderWaitQueue
      if destroyed = false then .ok (s, false)
      else
        let (s, destroyed) ← kernelWaitQueueDestroy sizeofBlock s entry.receiverWaitQueue
        if destroyed = false then .ok (s, false)
        else
          let cleared :=
            { entry with magic := 0, senderWaitQueue := none, receiverWaitQueue := none }
          let heap ← kmemFree sizeofBlock s.heap (some mailbox)
          .ok ({ s with heap := heap, mailboxes := Function.update s.mailboxes mailbox cleared },
            true)

end

/-! ## When it fails -/

/-- The queue can be destroyed: it is one, and no process is in it. -/
def KernelWaitQueue.Idle (queue : KernelWaitQueue) : Prop :=
  queue.magic = kernelWaitQueueMagic ∧ queue.waiterCount = 0

instance KernelWaitQueue.decidableIdle (queue : KernelWaitQueue) : Decidable queue.Idle :=
  inferInstanceAs (Decidable (_ ∧ _))

/-- The mailbox and its queues are three allocations that are live. -/
structure MailboxLive (sizeofBlock : UInt32) (s : IpcMemory n) (mailbox senders receivers : ℕ) :
    Prop where
  allocated : ∃ calls live returned, KmemTrace sizeofBlock calls s.heap live returned ∧
    mailbox ∈ live ∧ senders ∈ live ∧ receivers ∈ live
  distinct : [mailbox, senders, receivers].Nodup
  senders_eq : (s.mailboxes mailbox).senderWaitQueue = some senders
  receivers_eq : (s.mailboxes mailbox).receiverWaitQueue = some receivers

/-- The call returns, and if it answers 0 then the mailbox, the queues, the heap and the processes
are as before. -/
def DestroyAtomic (sizeofBlock : UInt32) (s : IpcMemory n) (mailbox : Option ℕ) : Prop :=
  ∃ s' destroyed, kernelMailboxDestroy sizeofBlock s mailbox = .ok (s', destroyed) ∧
    (destroyed = false → s' = s)

/-- What is left when a queue is destroyed. -/
def IpcMemory.withoutQueue (s : IpcMemory n) (queue : ℕ) (heap : Kmem) : IpcMemory n :=
  let queues := Function.update s.kernel.queues queue { s.kernel.queues queue with magic := 0 }
  { s with kernel := { s.kernel with queues := queues }, heap := heap }

/-- What is left when the mailbox is destroyed, after its queues. -/
def IpcMemory.withoutMailbox (s : IpcMemory n) (mailbox : ℕ) (heap : Kmem) : IpcMemory n :=
  let cleared :=
    { s.mailboxes mailbox with magic := 0, senderWaitQueue := none, receiverWaitQueue := none }
  { s with heap := heap, mailboxes := Function.update s.mailboxes mailbox cleared }

section

variable {sizeofBlock : UInt32} {s : IpcMemory n} {mailbox senders receivers : ℕ}

/-- **`kernel_wait_queue_destroy`** of a queue that is idle. -/
theorem kernelWaitQueueDestroy_idle {queue : ℕ} {heap : Kmem}
    (hidle : (s.kernel.queues queue).Idle)
    (hfree : kmemFree sizeofBlock s.heap (some queue) = .ok heap) :
    kernelWaitQueueDestroy sizeofBlock s (some queue) = .ok (s.withoutQueue queue heap, true) := by
  have hruns : ¬ (¬ s.kernel.kernelWaitQueueIsValid queue ∨
      (s.kernel.queues queue).waiterCount ≠ 0) := by
    simp [Kernel.kernelWaitQueueIsValid, hidle.1, hidle.2]
  rw [kernelWaitQueueDestroy]
  dsimp only
  rw [if_neg hruns, hfree]
  rfl

theorem kernelWaitQueueDestroy_refuses {queue : ℕ} (hidle : ¬ (s.kernel.queues queue).Idle) :
    kernelWaitQueueDestroy sizeofBlock s (some queue) = .ok (s, false) := by
  rw [kernelWaitQueueDestroy]
  refine if_pos ?_
  by_contra hboth
  rw [not_or, not_not, not_not] at hboth
  exact hidle ⟨of_decide_eq_true hboth.1, hboth.2⟩

theorem withoutQueue_ne {queue : ℕ} {heap : Kmem} (hidle : (s.kernel.queues queue).Idle) :
    s.withoutQueue queue heap ≠ s := by
  intro heq
  have hmagic := congrArg (fun s : IpcMemory n ↦ (s.kernel.queues queue).magic) heq
  simp only [IpcMemory.withoutQueue, Function.update_self, hidle.1] at hmagic
  exact absurd hmagic (by decide)

theorem withoutQueue_queues_of_ne {queue queue' : ℕ} {heap : Kmem} (h : queue' ≠ queue) :
    (s.withoutQueue queue heap).kernel.queues queue' = s.kernel.queues queue' :=
  Function.update_of_ne h ..

/-- The three allocations can be given back in any heap. -/
theorem MailboxLive.frees (hpos : 0 < sizeofBlock) (hle : sizeofBlock ≤ 4096)
    (h : MailboxLive sizeofBlock s mailbox senders receivers) :
    ∃ heap₁ heap₂ heap₃, kmemFree sizeofBlock s.heap (some senders) = .ok heap₁ ∧
      kmemFree sizeofBlock heap₁ (some receivers) = .ok heap₂ ∧
      kmemFree sizeofBlock heap₂ (some mailbox) = .ok heap₃ := by
  have hpos' : 0 < sizeofBlock.toNat := UInt32.lt_iff_toNat_lt.mp hpos
  obtain ⟨calls, live, returned, htrace, hmailbox, hsenders, hreceivers⟩ := h.allocated
  obtain ⟨hms, hmr, hsr⟩ : mailbox ≠ senders ∧ mailbox ≠ receivers ∧ senders ≠ receivers := by
    have hdistinct := h.distinct
    simp only [List.nodup_cons, List.mem_cons, List.not_mem_nil, or_false, not_or,
      not_false_eq_true, List.nodup_nil, and_true] at hdistinct
    exact ⟨hdistinct.1.1, hdistinct.1.2, hdistinct.2⟩
  obtain ⟨row, hok⟩ := htrace.traceOk hpos hle
  obtain ⟨heap₁, row₁, hfree₁, hok₁⟩ := hok.free hpos' hsenders
  obtain ⟨heap₂, row₂, hfree₂, hok₂⟩ :=
    hok₁.free hpos' ((List.mem_erase_of_ne hsr.symm).mpr hreceivers)
  obtain ⟨heap₃, row₃, hfree₃, -⟩ := hok₂.free hpos'
    ((List.mem_erase_of_ne hmr).mpr ((List.mem_erase_of_ne hms).mpr hmailbox))
  exact ⟨heap₁, heap₂, heap₃, hfree₁, hfree₂, hfree₃⟩

theorem kernelMailboxDestroy_refuses
    (h : ¬ (kernelMailboxIsValid (s.mailboxes mailbox) = true ∧
    (s.mailboxes mailbox).hasMessage = 0)) :
    kernelMailboxDestroy sizeofBlock s (some mailbox) = .ok (s, false) := by
  rw [kernelMailboxDestroy]
  refine if_pos ?_
  by_contra hboth
  rw [not_or, not_not, not_not] at hboth
  exact h ⟨(of_decide_eq_true hboth.1).1, hboth.2⟩

theorem MailboxLive.destroy_eq (h : MailboxLive sizeofBlock s mailbox senders receivers)
    (hvalid : kernelMailboxIsValid (s.mailboxes mailbox) = true)
    (hempty : (s.mailboxes mailbox).hasMessage = 0) :
    kernelMailboxDestroy sizeofBlock s (some mailbox) =
      (kernelWaitQueueDestroy sizeofBlock s (some senders) >>= fun (s₁, destroyed) ↦
        if destroyed = false then .ok (s₁, false)
        else kernelWaitQueueDestroy sizeofBlock s₁ (some receivers) >>= fun (s₂, destroyed) ↦
          if destroyed = false then .ok (s₂, false)
          else
            let cleared := { s.mailboxes mailbox with
              magic := 0, senderWaitQueue := none, receiverWaitQueue := none }
            kmemFree sizeofBlock s₂.heap (some mailbox) >>= fun heap ↦
              .ok ({ s₂ with
                heap := heap
                mailboxes := Function.update s₂.mailboxes mailbox cleared }, true)) := by
  have hruns : ¬ (¬ kernelMailboxHasQueues (s.mailboxes mailbox) ∨
      (s.mailboxes mailbox).hasMessage ≠ 0) := by
    simp [kernelMailboxHasQueues, hvalid, hempty, h.senders_eq, h.receivers_eq]
  rw [kernelMailboxDestroy]
  dsimp only
  rw [if_neg hruns, h.senders_eq, h.receivers_eq]

/-- **`kernel_mailbox_destroy`** of an empty mailbox: the queue of the senders refuses, or it is
gone and that of the receivers refuses, or everything is gone. -/
theorem MailboxLive.destroy_cases (hpos : 0 < sizeofBlock) (hle : sizeofBlock ≤ 4096)
    (h : MailboxLive sizeofBlock s mailbox senders receivers)
    (hvalid : kernelMailboxIsValid (s.mailboxes mailbox) = true)
    (hempty : (s.mailboxes mailbox).hasMessage = 0) :
    (¬ (s.kernel.queues senders).Idle ∧
      kernelMailboxDestroy sizeofBlock s (some mailbox) = .ok (s, false)) ∨
    ((s.kernel.queues senders).Idle ∧ ¬ (s.kernel.queues receivers).Idle ∧ ∃ heap,
      kernelMailboxDestroy sizeofBlock s (some mailbox) =
        .ok (s.withoutQueue senders heap, false)) ∨
    (s.kernel.queues senders).Idle ∧ (s.kernel.queues receivers).Idle ∧ ∃ s',
      kernelMailboxDestroy sizeofBlock s (some mailbox) = .ok (s', true) := by
  obtain ⟨heap₁, heap₂, heap₃, hfree₁, hfree₂, hfree₃⟩ := h.frees hpos hle
  have hne : receivers ≠ senders := by
    have hdistinct := h.distinct
    simp only [List.nodup_cons, List.mem_cons, List.not_mem_nil, or_false] at hdistinct
    exact fun heq ↦ hdistinct.2.1 heq.symm
  have hother : (s.withoutQueue senders heap₁).kernel.queues receivers =
      s.kernel.queues receivers := withoutQueue_queues_of_ne hne
  rw [h.destroy_eq hvalid hempty]
  by_cases hsenders : (s.kernel.queues senders).Idle
  swap
  · rw [kernelWaitQueueDestroy_refuses hsenders]
    exact Or.inl ⟨hsenders, rfl⟩
  rw [kernelWaitQueueDestroy_idle hsenders hfree₁, ok_bind]
  by_cases hreceivers : (s.kernel.queues receivers).Idle
  · refine Or.inr (Or.inr ⟨hsenders, hreceivers,
      ((s.withoutQueue senders heap₁).withoutQueue receivers heap₂).withoutMailbox mailbox heap₃,
      ?_⟩)
    rw [← hother] at hreceivers
    dsimp only
    rw [if_neg (by decide), kernelWaitQueueDestroy_idle hreceivers hfree₂, ok_bind]
    change kmemFree sizeofBlock heap₂ (some mailbox) >>= _ = _
    rw [hfree₃]
    rfl
  · refine Or.inr (Or.inl ⟨hsenders, hreceivers, heap₁, ?_⟩)
    rw [← hother] at hreceivers
    dsimp only
    rw [if_neg (by decide), kernelWaitQueueDestroy_refuses hreceivers]
    rfl

/-- **Failed destructions that change nothing**: all but those of an empty mailbox whose senders can
be destroyed while its receivers cannot. -/
theorem mailboxDestroy_atomic_iff (hpos : 0 < sizeofBlock) (hle : sizeofBlock ≤ 4096)
    (h : MailboxLive sizeofBlock s mailbox senders receivers) :
    DestroyAtomic sizeofBlock s (some mailbox) ↔
      ¬ (kernelMailboxIsValid (s.mailboxes mailbox) = true ∧
        (s.mailboxes mailbox).hasMessage = 0 ∧ (s.kernel.queues senders).Idle ∧
        ¬ (s.kernel.queues receivers).Idle) := by
  by_cases hgoes : kernelMailboxIsValid (s.mailboxes mailbox) = true ∧
      (s.mailboxes mailbox).hasMessage = 0
  swap
  · exact iff_of_true ⟨s, false, kernelMailboxDestroy_refuses hgoes, fun _ ↦ rfl⟩
      fun hhalf ↦ hgoes ⟨hhalf.1, hhalf.2.1⟩
  obtain ⟨hsenders, hrun⟩ | ⟨hsenders, hreceivers, heap, hrun⟩ | ⟨hsenders, hreceivers, s', hrun⟩ :=
    h.destroy_cases hpos hle hgoes.1 hgoes.2
  · exact iff_of_true ⟨s, false, hrun, fun _ ↦ rfl⟩ fun hhalf ↦ hsenders hhalf.2.2.1
  · refine iff_of_false ?_ fun hnot ↦ hnot ⟨hgoes.1, hgoes.2, hsenders, hreceivers⟩
    rintro ⟨s', destroyed, hrun', hsame⟩
    obtain ⟨rfl, rfl⟩ := Prod.mk.inj (Except.ok.inj (hrun.symm.trans hrun'))
    exact withoutQueue_ne hsenders (hsame rfl)
  · exact iff_of_true ⟨s', true, hrun, by simp⟩ fun hhalf ↦ hhalf.2.2.2 hreceivers

end

/-! ## A receiver that waits -/

/-- The heap after `kernel_mailbox_create`: a mailbox of 20 bytes and two queues of 12 bytes. -/
def mailboxHeap : Kmem :=
  kmemTake 12 (kmemTake 12 (kmemTake 12 (kmemInit 12 .boot) 0 24) 36 16) 64 16

theorem mailboxHeap_trace : KmemTrace 12 [.alloc 20, .alloc 12, .alloc 12] mailboxHeap [76, 48, 12]
    [12, 48, 76] := by
  have hfirst : kmemAlloc 12 .boot 20 = .ok (_, some 12) := rfl
  have hsecond : kmemAlloc 12 (kmemTake 12 (kmemInit 12 .boot) 0 24) 12 = .ok (_, some 48) := rfl
  have hthird : kmemAlloc 12 (kmemTake 12 (kmemTake 12 (kmemInit 12 .boot) 0 24) 36 16) 12 =
      .ok (mailboxHeap, some 76) := rfl
  exact ((KmemTrace.boot.alloc hfirst).alloc hsecond).alloc hthird

/-- The mailbox at 12 with its queues at 48 and 76. One process runs. -/
def freshMailbox (hasMessage : UInt32) : IpcMemory 1 where
  kernel :=
    { processes := fun _ ↦ { ProcessCore.resetSlot with pid := 1, state := .running }
      current := some 0
      queues :=
        (kernelWaitQueueCreate 76 (kernelWaitQueueCreate 48 (fun _ ↦ ⟨0, 0, 0⟩, 0x1000))).1 }
  heap := mailboxHeap
  mailboxes := fun _ ↦ ⟨kernelMailboxMagic, 0, hasMessage, some 48, some 76⟩

/-- The process receives from the empty mailbox and is blocked. -/
def waitingReceiver : IpcMemory 1 :=
  { freshMailbox 0 with kernel := (freshMailbox 0).kernel.kernelWaitQueueWaitStart 76 }

theorem freshMailbox_live (hasMessage : UInt32) :
    MailboxLive 12 (freshMailbox hasMessage) 12 48 76 :=
  ⟨⟨_, _, _, mailboxHeap_trace, by decide, by decide, by decide⟩, by decide, rfl, rfl⟩

/-- A mailbox with a message is not touched. -/
theorem mailboxDestroy_atomic_full : DestroyAtomic 12 (freshMailbox 1) (some 12) :=
  (mailboxDestroy_atomic_iff (by decide) (by decide) (freshMailbox_live 1)).mpr (by decide)

/-- With a blocked receiver the call fails, and the queue of the senders is gone. -/
theorem mailboxDestroy_half : ¬ ∀ (s : IpcMemory 1) (mailbox senders receivers : ℕ),
    MailboxLive 12 s mailbox senders receivers → DestroyAtomic 12 s (some mailbox) := by
  intro hall
  have hlive : MailboxLive 12 waitingReceiver 12 48 76 :=
    ⟨⟨_, _, _, mailboxHeap_trace, by decide, by decide, by decide⟩, by decide, rfl, rfl⟩
  obtain ⟨s', destroyed, hrun, hsame⟩ := hall waitingReceiver 12 48 76 hlive
  obtain ⟨hbusy, -⟩ | ⟨hidle, -, heap, hrun'⟩ | ⟨-, hidle, -⟩ :=
    hlive.destroy_cases (by decide) (by decide) rfl rfl
  · exact hbusy (by decide)
  · obtain ⟨rfl, rfl⟩ := Prod.mk.inj (Except.ok.inj (hrun'.symm.trans hrun))
    exact withoutQueue_ne hidle (hsame rfl)
  · exact absurd hidle (by decide)

end TensorOS
