import TensorOS.Ipc.Places

/-!
# Mailboxes

`mailbox.c`: a buffer for one message, with a queue for the senders and one for the receivers. A
send or a receive that succeeds wakes one process on the other side, but does not hand the slot or
the message over: any process may come first.

Nothing is lost, repeated or reordered, and no process sleeps on while it could go on and nobody is
on the way to do so (`mailbox_exchange`).
-/

namespace TensorOS

/-- `struct kernel_mailbox`. -/
structure KernelMailbox (κ : Type) where
  magic : UInt32
  message : UInt32
  hasMessage : UInt32
  senderWaitQueue : κ
  receiverWaitQueue : κ
  deriving DecidableEq

/-- `KERNEL_MAILBOX_MAGIC`. -/
def kernelMailboxMagic : UInt32 := 0x4D41494C

variable {n : ℕ} {κ : Type}

/-- `kernel_mailbox_is_valid`. -/
def kernelMailboxIsValid (mailbox : KernelMailbox κ) : Bool := mailbox.magic = kernelMailboxMagic

/-- `kernel_mailbox_create`, with the addresses that the allocator returns for the two queues. -/
def kernelMailboxCreate [DecidableEq κ] (senders receivers : κ)
    (memory : (κ → KernelWaitQueue) × UInt32) :
    KernelMailbox κ × (κ → KernelWaitQueue) × UInt32 :=
  let memory := kernelWaitQueueCreate senders memory
  let memory := kernelWaitQueueCreate receivers memory
  ({ magic := kernelMailboxMagic, message := 0, hasMessage := 0, senderWaitQueue := senders,
      receiverWaitQueue := receivers }, memory)

/-- `kernel_mailbox_try_send`. -/
def kernelMailboxTrySend (k : Kernel n κ) (mailbox : KernelMailbox κ) (message : UInt32) :
    Kernel n κ × KernelMailbox κ × Bool :=
  if ¬ kernelMailboxIsValid mailbox ∨ mailbox.hasMessage ≠ 0 then (k, mailbox, false)
  else
    (k.wakeOneWaiter mailbox.receiverWaitQueue,
      { mailbox with message := message, hasMessage := 1 }, true)

/-- `kernel_mailbox_send`, one turn of its loop. -/
def kernelMailboxSend (k : Kernel n κ) (mailbox : KernelMailbox κ) (message : UInt32) :
    Kernel n κ × KernelMailbox κ × Attempt κ Unit :=
  if ¬ kernelMailboxIsValid mailbox then (k, mailbox, .done ())
  else
    let (k, mailbox, sent) := kernelMailboxTrySend k mailbox message
    (k, mailbox, if sent then .done () else .wait mailbox.senderWaitQueue)

/-- `kernel_mailbox_try_receive`. -/
def kernelMailboxTryReceive (k : Kernel n κ) (mailbox : KernelMailbox κ) :
    Kernel n κ × KernelMailbox κ × Option UInt32 :=
  if ¬ kernelMailboxIsValid mailbox ∨ mailbox.hasMessage = 0 then (k, mailbox, none)
  else
    (k.wakeOneWaiter mailbox.senderWaitQueue, { mailbox with hasMessage := 0 },
      some mailbox.message)

/-- `kernel_mailbox_receive`, one turn of its loop. -/
def kernelMailboxReceive (k : Kernel n κ) (mailbox : KernelMailbox κ) :
    Kernel n κ × KernelMailbox κ × Attempt κ UInt32 :=
  if ¬ kernelMailboxIsValid mailbox then (k, mailbox, .done 0)
  else
    let (k, mailbox, received) := kernelMailboxTryReceive k mailbox
    (k, mailbox, match received with
      | some message => .done message
      | none => .wait mailbox.receiverWaitQueue)

/-- The two mailboxes have their queues in common. -/
def KernelMailbox.SameQueues (mailbox mailbox' : KernelMailbox κ) : Prop :=
  mailbox.senderWaitQueue = mailbox'.senderWaitQueue ∧
    mailbox.receiverWaitQueue = mailbox'.receiverWaitQueue

section Frame

variable (k : Kernel n κ) (mailbox : KernelMailbox κ)

theorem wakes_kernelMailboxTrySend (message : UInt32) :
    k.Wakes (kernelMailboxTrySend k mailbox message).1 := by
  rw [kernelMailboxTrySend]
  split
  · exact .refl k
  · exact k.wakes_wakeOneWaiter _

theorem wakes_kernelMailboxSend (message : UInt32) :
    k.Wakes (kernelMailboxSend k mailbox message).1 := by
  rw [kernelMailboxSend]
  split
  · exact .refl k
  · exact wakes_kernelMailboxTrySend k mailbox message

theorem wakes_kernelMailboxTryReceive : k.Wakes (kernelMailboxTryReceive k mailbox).1 := by
  rw [kernelMailboxTryReceive]
  split
  · exact .refl k
  · exact k.wakes_wakeOneWaiter _

theorem wakes_kernelMailboxReceive : k.Wakes (kernelMailboxReceive k mailbox).1 := by
  rw [kernelMailboxReceive]
  split
  · exact .refl k
  · exact wakes_kernelMailboxTryReceive k mailbox

theorem kernelMailboxTrySend_queues (message : UInt32) :
    (kernelMailboxTrySend k mailbox message).2.1.SameQueues mailbox := by
  rw [kernelMailboxTrySend]
  split <;> exact ⟨rfl, rfl⟩

theorem kernelMailboxSend_queues (message : UInt32) :
    (kernelMailboxSend k mailbox message).2.1.SameQueues mailbox := by
  rw [kernelMailboxSend]
  split
  · exact ⟨rfl, rfl⟩
  · exact kernelMailboxTrySend_queues k mailbox message

theorem kernelMailboxTryReceive_queues :
    (kernelMailboxTryReceive k mailbox).2.1.SameQueues mailbox := by
  rw [kernelMailboxTryReceive]
  split <;> exact ⟨rfl, rfl⟩

theorem kernelMailboxReceive_queues :
    (kernelMailboxReceive k mailbox).2.1.SameQueues mailbox := by
  rw [kernelMailboxReceive]
  split
  · exact ⟨rfl, rfl⟩
  · exact kernelMailboxTryReceive_queues k mailbox

theorem kernelMailboxSend_wait {message : UInt32} {queue : κ}
    (h : (kernelMailboxSend k mailbox message).2.2 = .wait queue) :
    queue = mailbox.senderWaitQueue := by
  rw [kernelMailboxSend] at h
  split at h
  · cases h
  · have hqueues := kernelMailboxTrySend_queues k mailbox message
    simp only at h
    split at h
    · cases h
    · cases h
      exact hqueues.1

theorem kernelMailboxReceive_wait {queue : κ}
    (h : (kernelMailboxReceive k mailbox).2.2 = .wait queue) :
    queue = mailbox.receiverWaitQueue := by
  rw [kernelMailboxReceive] at h
  split at h
  · cases h
  · have hqueues := kernelMailboxTryReceive_queues k mailbox
    simp only at h
    split at h
    · cases h
    · cases h
      exact hqueues.2

end Frame

section Specs

variable {mailbox : KernelMailbox κ} (hvalid : kernelMailboxIsValid mailbox = true)
  (k : Kernel n κ)

include hvalid

theorem kernelMailboxTrySend_eq (message : UInt32) : kernelMailboxTrySend k mailbox message =
    if mailbox.hasMessage = 0 then
      (k.wakeOneWaiter mailbox.receiverWaitQueue,
        { mailbox with message := message, hasMessage := 1 }, true)
    else (k, mailbox, false) := by
  simp [kernelMailboxTrySend, hvalid]

theorem kernelMailboxSend_eq (message : UInt32) : kernelMailboxSend k mailbox message =
    if mailbox.hasMessage = 0 then
      (k.wakeOneWaiter mailbox.receiverWaitQueue,
        { mailbox with message := message, hasMessage := 1 }, .done ())
    else (k, mailbox, .wait mailbox.senderWaitQueue) := by
  by_cases hempty : mailbox.hasMessage = 0
  · simp [kernelMailboxSend, hvalid, kernelMailboxTrySend_eq hvalid, hempty]
  · simp [kernelMailboxSend, hvalid, kernelMailboxTrySend_eq hvalid, hempty]

theorem kernelMailboxTryReceive_eq : kernelMailboxTryReceive k mailbox =
    if mailbox.hasMessage = 0 then (k, mailbox, none)
    else (k.wakeOneWaiter mailbox.senderWaitQueue, { mailbox with hasMessage := 0 },
      some mailbox.message) := by
  simp [kernelMailboxTryReceive, hvalid]

theorem kernelMailboxReceive_eq : kernelMailboxReceive k mailbox =
    if mailbox.hasMessage = 0 then (k, mailbox, .wait mailbox.receiverWaitQueue)
    else (k.wakeOneWaiter mailbox.senderWaitQueue, { mailbox with hasMessage := 0 },
      .done mailbox.message) := by
  by_cases hempty : mailbox.hasMessage = 0
  · simp [kernelMailboxReceive, hvalid, kernelMailboxTryReceive_eq hvalid, hempty]
  · simp [kernelMailboxReceive, hvalid, kernelMailboxTryReceive_eq hvalid, hempty]

end Specs

/-! ## Processes around a mailbox -/

/-- The calls. -/
inductive MailboxOp
  | send (message : UInt32)
  | trySend (message : UInt32)
  | receive
  | tryReceive
  | yield
  deriving DecidableEq

/-- What a call did. -/
inductive MailboxResult
  | accepted (message : UInt32)
  | received (message : UInt32)
  | nothing
  deriving DecidableEq

/-- The rounds of the calls. -/
def mailboxRound (op : MailboxOp) (k : Kernel n κ) (mailbox : KernelMailbox κ) :
    Kernel n κ × KernelMailbox κ × Outcome κ MailboxOp MailboxResult :=
  match op with
  | .send message =>
    let (k, mailbox', attempt) := kernelMailboxSend k mailbox message
    (k, mailbox', attempt.outcome (.send message) fun _ ↦
      if kernelMailboxIsValid mailbox then .accepted message else .nothing)
  | .trySend message =>
    let (k, mailbox, sent) := kernelMailboxTrySend k mailbox message
    (k, mailbox, .returns (if sent then .accepted message else .nothing))
  | .receive =>
    let (k, mailbox', attempt) := kernelMailboxReceive k mailbox
    (k, mailbox', attempt.outcome .receive fun message ↦
      if kernelMailboxIsValid mailbox then .received message else .nothing)
  | .tryReceive =>
    let (k, mailbox, received) := kernelMailboxTryReceive k mailbox
    (k, mailbox, .returns (match received with
      | some message => .received message
      | none => .nothing))
  | .yield => (k, mailbox, .yields .nothing)

/-- Every process may make every call at any time. -/
def mailboxProtocol (n : ℕ) (κ : Type) :
    Protocol n κ (KernelMailbox κ) MailboxOp MailboxResult where
  may _ _ _ := true
  round _ op k mailbox := mailboxRound op k mailbox

/-- The accepted messages, in order. -/
def acceptedMessages (log : List (Fin n × MailboxResult)) : List UInt32 :=
  log.filterMap fun entry ↦ match entry.2 with
    | .accepted message => some message
    | _ => none

/-- The received messages, in order. -/
def receivedMessages (log : List (Fin n × MailboxResult)) : List UInt32 :=
  log.filterMap fun entry ↦ match entry.2 with
    | .received message => some message
    | _ => none

/-- The addresses of the two queues of a mailbox. -/
inductive MailboxQueue
  | senders
  | receivers
  deriving DecidableEq

/-- The processes have not run, and the mailbox is as `kernel_mailbox_create` leaves it. -/
def MailboxStart (s : Coop n MailboxQueue (KernelMailbox MailboxQueue) MailboxOp MailboxResult) :
    Prop :=
  s.Fresh ∧ ∃ memory, (kernelMailboxCreate .senders .receivers memory).1 = s.object ∧
    (kernelMailboxCreate .senders .receivers memory).2.1 = s.kernel.queues

/-! ## The invariant -/

/-- What a mailbox holds. -/
def KernelMailbox.buffered (mailbox : KernelMailbox κ) : List UInt32 :=
  if mailbox.hasMessage = 0 then [] else [mailbox.message]

/-- The messages that were accepted and not yet received are in the mailbox, and the side that could
go on is attended. -/
structure MailboxInv [DecidableEq κ] (f : Fin n → Place κ) (mailbox : KernelMailbox κ)
    (log : List (Fin n × MailboxResult)) : Prop where
  valid : kernelMailboxIsValid mailbox = true
  queues : mailbox.senderWaitQueue ≠ mailbox.receiverWaitQueue
  flag : mailbox.hasMessage = 0 ∨ mailbox.hasMessage = 1
  fifo : acceptedMessages log = receivedMessages log ++ mailbox.buffered
  full : mailbox.hasMessage ≠ 0 → Attended 1 mailbox.receiverWaitQueue f
  empty : mailbox.hasMessage = 0 → Attended 1 mailbox.senderWaitQueue f

/-- With what a process goes on that waits on a queue of the mailbox. -/
def MailboxParked (mailbox : KernelMailbox κ) (_ : Fin n) (queue : κ) (op : MailboxOp) : Prop :=
  (∃ message, op = .send message) ∧ queue = mailbox.senderWaitQueue ∨
    op = .receive ∧ queue = mailbox.receiverWaitQueue

theorem wakes_mailboxRound (op : MailboxOp) (k : Kernel n κ) (mailbox : KernelMailbox κ) :
    k.Wakes (mailboxRound op k mailbox).1 := by
  cases op with
  | yield => exact .refl k
  | send message => exact wakes_kernelMailboxSend k mailbox message
  | trySend message => exact wakes_kernelMailboxTrySend k mailbox message
  | receive => exact wakes_kernelMailboxReceive k mailbox
  | tryReceive => exact wakes_kernelMailboxTryReceive k mailbox

theorem mailboxRound_queues (op : MailboxOp) (k : Kernel n κ) (mailbox : KernelMailbox κ) :
    (mailboxRound op k mailbox).2.1.SameQueues mailbox := by
  cases op with
  | yield => exact ⟨rfl, rfl⟩
  | send message => exact kernelMailboxSend_queues k mailbox message
  | trySend message => exact kernelMailboxTrySend_queues k mailbox message
  | receive => exact kernelMailboxReceive_queues k mailbox
  | tryReceive => exact kernelMailboxTryReceive_queues k mailbox

theorem mailboxRound_waits {op next : MailboxOp} {k : Kernel n κ} {mailbox : KernelMailbox κ}
    {queue : κ} (h : (mailboxRound op k mailbox).2.2 = .waits queue next) (i : Fin n) :
    MailboxParked mailbox i queue next := by
  cases op with
  | yield | trySend message | tryReceive => simp [mailboxRound] at h
  | send message =>
    obtain ⟨hwait, rfl⟩ := Attempt.outcome_eq_waits h
    exact Or.inl ⟨⟨message, rfl⟩, kernelMailboxSend_wait k mailbox hwait⟩
  | receive =>
    obtain ⟨hwait, rfl⟩ := Attempt.outcome_eq_waits h
    exact Or.inr ⟨rfl, kernelMailboxReceive_wait k mailbox hwait⟩

theorem mailbox_lawful : (mailboxProtocol n κ).Lawful MailboxParked where
  wakes _ op k mailbox := wakes_mailboxRound op k mailbox
  parks {i op k mailbox queue next} _ h := by
    obtain ⟨hs, hr⟩ := mailboxRound_queues op k mailbox
    have hparked := mailboxRound_waits h i
    rw [MailboxParked] at hparked ⊢
    simp only [mailboxProtocol, hs, hr]
    exact hparked
  stays {i op k mailbox j queue next} _ h := by
    obtain ⟨hs, hr⟩ := mailboxRound_queues op k mailbox
    rw [MailboxParked] at h ⊢
    simp only [mailboxProtocol, hs, hr]
    exact h

section Inv

variable [DecidableEq κ] {f f' : Fin n → Place κ} {mailbox : KernelMailbox κ}
  {log : List (Fin n × MailboxResult)} {i : Fin n}

theorem MailboxInv.nothing (h : MailboxInv f mailbox log) :
    MailboxInv f mailbox (log ++ [(i, .nothing)]) := by
  refine { h with fifo := ?_ }
  simpa [acceptedMessages, receivedMessages] using h.fifo

/-- The places change, but the side that could go on stays attended. -/
theorem MailboxInv.move (h : MailboxInv f mailbox log)
    (hreceivers : mailbox.hasMessage ≠ 0 → Attended 1 mailbox.receiverWaitQueue f →
      Attended 1 mailbox.receiverWaitQueue f')
    (hsenders : mailbox.hasMessage = 0 → Attended 1 mailbox.senderWaitQueue f →
      Attended 1 mailbox.senderWaitQueue f') : MailboxInv f' mailbox log :=
  { h with
    full := fun hfull ↦ hreceivers hfull (h.full hfull)
    empty := fun hempty ↦ hsenders hempty (h.empty hempty) }

theorem MailboxInv.accept (h : MailboxInv f mailbox log) (hempty : mailbox.hasMessage = 0)
    (message : UInt32) (hwakes : Attended 1 mailbox.receiverWaitQueue f') :
    MailboxInv f' { mailbox with message := message, hasMessage := 1 }
      (log ++ [(i, .accepted message)]) := by
  have hfifo := h.fifo
  rw [KernelMailbox.buffered, if_pos hempty, List.append_nil] at hfifo
  refine ⟨h.valid, h.queues, Or.inr rfl, ?_, fun _ ↦ hwakes, fun hzero ↦ absurd hzero (by simp)⟩
  simpa [acceptedMessages, receivedMessages, KernelMailbox.buffered] using hfifo

theorem MailboxInv.take (h : MailboxInv f mailbox log) (hfull : mailbox.hasMessage ≠ 0)
    (hwakes : Attended 1 mailbox.senderWaitQueue f') :
    MailboxInv f' { mailbox with hasMessage := 0 } (log ++ [(i, .received mailbox.message)]) := by
  have hfifo := h.fifo
  rw [KernelMailbox.buffered, if_neg hfull] at hfifo
  refine ⟨h.valid, h.queues, Or.inl rfl, ?_, fun hne ↦ absurd rfl hne, fun _ ↦ hwakes⟩
  simpa [acceptedMessages, receivedMessages, KernelMailbox.buffered] using hfifo

end Inv

/-- **What the calls keep.** -/
theorem mailbox_keeps [DecidableEq κ] :
    (mailboxProtocol n κ).Keeps MailboxParked (fun _ _ _ ↦ True) (fun _ ↦ MailboxInv) where
  wake h hi := h.move (fun _ ha ↦ ha.wake hi) fun _ ha ↦ ha.wake hi
  switch h _ hi := h.move (fun _ ha ↦ ha.update (by simp [hi]) (by simp))
    fun _ ha ↦ ha.update (by simp [hi]) (by simp)
  round {s i op f} hsound hi _ henters h := by
    change Protocol.Settles _ i { s with kernel := (mailboxRound op s.kernel s.object).1 }.place
      (mailboxRound op s.kernel s.object).2.1 s.log (mailboxRound op s.kernel s.object).2.2
    have hwakes : ∀ queue, Attended 1 queue
        { s with kernel := s.kernel.wakeOneWaiter queue }.place :=
      fun queue ↦ (Attended.zero queue _).of_wakesOne (hsound.place_wakeOneWaiter rfl rfl)
    cases op with
    | send message =>
      rw [mailboxRound, kernelMailboxSend_eq h.valid]
      by_cases hempty : s.object.hasMessage = 0
      · rw [if_pos hempty]
        simp only [Attempt.outcome, h.valid, if_true, Protocol.Settles]
        exact h.accept hempty message (hwakes _)
      · rw [if_neg hempty]
        exact h.move (fun _ ↦ henters.attended_asleep hi h.queues fun q hq ↦ by
          simpa [MailboxParked] using hq) fun hzero ↦ absurd hzero hempty
    | receive =>
      rw [mailboxRound, kernelMailboxReceive_eq h.valid]
      by_cases hempty : s.object.hasMessage = 0
      · rw [if_pos hempty]
        exact h.move (fun hne ↦ absurd hempty hne) fun _ ↦
          henters.attended_asleep hi h.queues.symm fun q hq ↦ by simpa [MailboxParked] using hq
      · rw [if_neg hempty]
        simp only [Attempt.outcome, h.valid, if_true, Protocol.Settles]
        exact h.take hempty (hwakes _)
    | trySend message =>
      obtain rfl := henters.of_call (by simp [MailboxParked])
      rw [mailboxRound, kernelMailboxTrySend_eq h.valid]
      by_cases hempty : s.object.hasMessage = 0
      · rw [if_pos hempty]
        exact h.accept hempty message (hwakes _)
      · rw [if_neg hempty]
        exact h.nothing
    | tryReceive =>
      obtain rfl := henters.of_call (by simp [MailboxParked])
      rw [mailboxRound, kernelMailboxTryReceive_eq h.valid]
      by_cases hempty : s.object.hasMessage = 0
      · rw [if_pos hempty]
        exact h.nothing
      · rw [if_neg hempty]
        exact h.take hempty (hwakes _)
    | yield =>
      obtain rfl := henters.of_call (by simp [MailboxParked])
      exact (h.move (fun _ ha ↦ ha.update (by simp [hi]) (by simp))
        fun _ ha ↦ ha.update (by simp [hi]) (by simp)).nothing

theorem MailboxStart.good
    {s : Coop n MailboxQueue (KernelMailbox MailboxQueue) MailboxOp MailboxResult}
    (h : MailboxStart s) : Protocol.Good MailboxParked (fun _ ↦ MailboxInv) s := by
  obtain ⟨hfresh, memory, hobject, hqueues⟩ := h
  refine ⟨hfresh.sound ?_ ?_ ?_, ?_, fun i queue op hp ↦ ?_⟩
  · intro queue
    rw [Kernel.kernelWaitQueueIsValid, ← hqueues]
    cases queue <;> rfl
  · rw [← hqueues]
    intro q q'
    cases q <;> cases q' <;> simp [kernelMailboxCreate, kernelWaitQueueCreate]
  · rw [← hqueues]
    intro queue
    cases queue <;> rfl
  · rw [hfresh.place, hfresh.log, ← hobject]
    exact ⟨rfl, by simp [kernelMailboxCreate], Or.inl rfl, rfl, fun hne ↦ absurd rfl hne,
      fun _ ↦ Or.inl (by simp)⟩
  · rw [hfresh.pending i] at hp
    cases hp

/-- **Mailboxes deliver.** In every interleaving of the calls on a mailbox the received messages are
the first of the accepted ones, all but the one in the mailbox. While the mailbox is full, no
receiver is blocked on it or one has been woken and is not yet back; while it is empty, the same is
true of the senders. -/
theorem mailbox_exchange {capacity : UInt32}
    {s : Coop capacity.toNat MailboxQueue (KernelMailbox MailboxQueue) MailboxOp MailboxResult}
    (h : (mailboxProtocol capacity.toNat MailboxQueue).Reaches MailboxStart (fun _ _ ↦ True) s) :
    receivedMessages s.log <+: acceptedMessages s.log ∧
    (receivedMessages s.log).length + s.object.hasMessage.toNat
      = (acceptedMessages s.log).length ∧
    (s.object.hasMessage ≠ 0 → (∀ i, ¬ s.BlockedOn s.object.receiverWaitQueue i) ∨
      ∃ i, s.WokenOn s.object.receiverWaitQueue i) ∧
    (s.object.hasMessage = 0 → (∀ i, ¬ s.BlockedOn s.object.senderWaitQueue i) ∨
      ∃ i, s.WokenOn s.object.senderWaitQueue i) := by
  obtain ⟨hsound, hinv, -⟩ := mailbox_keeps.reaches mailbox_lawful capacity.toNat_lt
    (fun s ↦ MailboxStart.good) (fun _ _ _ _ _ _ _ ↦ trivial) h
  simp only [hsound.blockedOn_iff, hsound.wokenOn_iff]
  refine ⟨⟨_, hinv.fifo.symm⟩, ?_, fun hfull ↦ Attended.one_iff.mp (hinv.full hfull),
    fun hempty ↦ Attended.one_iff.mp (hinv.empty hempty)⟩
  rw [hinv.fifo, List.length_append, KernelMailbox.buffered]
  obtain hzero | hone := hinv.flag
  · simp [hzero]
  · simp [hone]

/-- Three processes and a new mailbox. The third one stays outside. -/
def threeAtMailbox :
    Coop (3 : UInt32).toNat MailboxQueue (KernelMailbox MailboxQueue) MailboxOp MailboxResult :=
  let created := kernelMailboxCreate .senders .receivers (fun _ ↦ ⟨0, 0, 0⟩, 0x1000)
  .init (readyProcesses _) created.2.1 created.1

/-- The receiver comes first and sleeps; the sender fills the mailbox, which wakes it, and sleeps
with a second message; a stray wake-up brings the sender back in vain. -/
def mailboxLabels : List (CoopLabel (3 : UInt32).toNat MailboxOp) :=
  [.resume 1, .call .receive, .resume 0, .call (.trySend 7),
    .call (.send 8), .wake 1, .resume 0, .resume 1, .call .yield,
    .resume 0]

theorem mailbox_exchange_two :
    let s := (mailboxProtocol _ _).run threeAtMailbox mailboxLabels
    s.log.map Prod.snd = [.accepted 7, .received 7, .nothing, .accepted 8] ∧
    receivedMessages s.log <+: acceptedMessages s.log ∧
    (s.object.hasMessage ≠ 0 → (∀ i, ¬ s.BlockedOn s.object.receiverWaitQueue i) ∨
      ∃ i, s.WokenOn s.object.receiverWaitQueue i) := by
  have hreaches : (mailboxProtocol _ _).Reaches MailboxStart (fun _ _ ↦ True)
      ((mailboxProtocol _ _).run threeAtMailbox mailboxLabels) :=
    Protocol.Reaches.run (.start ⟨Coop.init_fresh _ _ fun _ ↦ rfl, _, rfl, rfl⟩) mailboxLabels
  obtain ⟨hreceived, -, hfull, -⟩ := mailbox_exchange hreaches
  exact ⟨by decide +kernel, hreceived, hfull⟩

end TensorOS
