import TensorOS.Ipc.Mailbox
import TensorOS.Ipc.Semaphore
import TensorOS.Ipc.Mutex

/-!
# The accumulator service

`process_service_server` and `runtime_service_request_sync` of `kernel.c`. A client puts its
request into a mailbox, signals an event, waits for a token and takes the answer out of a second
mailbox. The server waits for the event, takes a request, adds it to a total under a mutex, answers
with the total, gives a token and yields.

Both are sequences of calls with local variables, so the state has a program point for each process.
`serviceRound` is the call at a point, and a process may only make the call at its point.
-/

namespace TensorOS

/-! ## Events -/

/-- `struct kernel_event`. -/
structure KernelEvent (κ : Type) where
  magic : UInt32
  waitQueue : κ
  deriving DecidableEq

/-- `KERNEL_EVENT_MAGIC`. -/
def kernelEventMagic : UInt32 := 0x45564E54

variable {n : ℕ} {κ : Type}

/-- `kernel_event_is_valid`. -/
def kernelEventIsValid (event : KernelEvent κ) : Bool := event.magic = kernelEventMagic

/-- `kernel_event_create`, with the address that the allocator returns for the queue. -/
def kernelEventCreate [DecidableEq κ] (waiters : κ) (memory : (κ → KernelWaitQueue) × UInt32) :
    KernelEvent κ × (κ → KernelWaitQueue) × UInt32 :=
  ({ magic := kernelEventMagic, waitQueue := waiters }, kernelWaitQueueCreate waiters memory)

/-- `kernel_event_wait`. It is not a loop: the call is over after the wait. -/
def kernelEventWait (event : KernelEvent κ) : Attempt κ Unit :=
  if ¬ kernelEventIsValid event then .done () else .wait event.waitQueue

/-- `kernel_event_signal`. -/
def kernelEventSignal (k : Kernel n κ) (event : KernelEvent κ) : Kernel n κ × ℕ :=
  if ¬ kernelEventIsValid event then (k, 0) else k.kernelWaitQueueWakeAll event.waitQueue

theorem kernelEventWait_wait {event : KernelEvent κ} {queue : κ}
    (h : kernelEventWait event = .wait queue) : queue = event.waitQueue := by
  rw [kernelEventWait] at h
  split at h
  · cases h
  · cases h
    rfl

theorem wakes_kernelEventSignal (k : Kernel n κ) (event : KernelEvent κ) :
    k.Wakes (kernelEventSignal k event).1 := by
  rw [kernelEventSignal]
  split
  · exact .refl k
  · exact k.wakes_wakeAll _

/-! ## The service -/

/-- Where a process is in its program, with its local variables. -/
inductive ServicePoint
  /-- The server before `kernel_event_wait`, and inside it. -/
  | wait
  | receive
  | lock (request : UInt32)
  | compute (request : UInt32)
  | unlock (response : UInt32)
  | reply (response : UInt32)
  | release
  | yield
  /-- A client outside `runtime_service_request_sync`. -/
  | idle
  | signal
  | acquire
  | collect
  /-- A process that has nothing to do with the service. -/
  | bystander
  deriving DecidableEq

/-- The calls. -/
inductive ServiceOp
  | eventWait
  /-- The end of `kernel_event_wait`. -/
  | eventWaited
  | receiveRequest
  | lock
  | compute
  | unlock
  | sendReply
  | release
  | yield
  | sendRequest (request : UInt32)
  | signal
  | acquire
  | receiveReply
  deriving DecidableEq

/-- What a call did. -/
inductive ServiceResult
  | requested (request : UInt32)
  | received (request : UInt32)
  | computed (request total : UInt32)
  | replied (response : UInt32)
  | acquired
  | responded (response : UInt32)
  | nothing
  deriving DecidableEq

/-- The objects of the service, the numbers in `g_runtime_service_state` that the server writes, and
the program points. -/
structure Service (n : ℕ) (κ : Type) where
  requestEvent : KernelEvent κ
  requestMailbox : KernelMailbox κ
  replyMailbox : KernelMailbox κ
  replySemaphore : KernelSemaphore κ
  stateMutex : KernelMutex κ
  requestCount : UInt32
  totalProcessed : UInt32
  lastRequest : UInt32
  lastResponse : UInt32
  points : Fin n → ServicePoint

/-- A process goes to a point. -/
def Service.goto (x : Service n κ) (i : Fin n) (point : ServicePoint) : Service n κ :=
  { x with points := Function.update x.points i point }

section Goto

variable (x : Service n κ) (i : Fin n) (point : ServicePoint)

theorem Service.goto_points : (x.goto i point).points = Function.update x.points i point := rfl

@[simp] theorem Service.goto_requestMailbox :
    (x.goto i point).requestMailbox = x.requestMailbox := rfl

@[simp] theorem Service.goto_replyMailbox :
    (x.goto i point).replyMailbox = x.replyMailbox := rfl

@[simp] theorem Service.goto_replySemaphore :
    (x.goto i point).replySemaphore = x.replySemaphore := rfl

end Goto

/-- The calls at a point, with the end of `kernel_event_wait`. -/
def ServicePoint.calls : ServicePoint → ServiceOp → Bool
  | .wait, .eventWait | .wait, .eventWaited | .receive, .receiveRequest | .lock _, .lock
  | .compute _, .compute | .unlock _, .unlock | .reply _, .sendReply | .release, .release
  | .yield, .yield | .idle, .sendRequest _ | .idle, .yield | .signal, .signal
  | .acquire, .acquire | .collect, .receiveReply | .bystander, .yield => true
  | _, _ => false

/-- The points of a call. -/
def ServiceOp.At (point : ServicePoint) : ServiceOp → Prop
  | .eventWait | .eventWaited => point = .wait
  | .receiveRequest => point = .receive
  | .lock => ∃ request, point = .lock request
  | .compute => ∃ request, point = .compute request
  | .unlock => ∃ response, point = .unlock response
  | .sendReply => ∃ response, point = .reply response
  | .release => point = .release
  | .yield => point = .yield ∨ point = .idle ∨ point = .bystander
  | .sendRequest _ => point = .idle
  | .signal => point = .signal
  | .acquire => point = .acquire
  | .receiveReply => point = .collect

theorem ServicePoint.at_of_calls {point : ServicePoint} {op : ServiceOp}
    (h : point.calls op = true) : op.At point := by
  cases op <;> cases point <;>
    first | exact rfl | exact ⟨_, rfl⟩ | exact Or.inl rfl | exact Or.inr (Or.inl rfl) |
      exact Or.inr (Or.inr rfl) | cases h

/-- The locals of the server at its critical section. -/
def ServicePoint.request : ServicePoint → UInt32
  | .lock request | .compute request => request
  | _ => 0

/-- The answer the server has in hand. -/
def ServicePoint.response : ServicePoint → UInt32
  | .unlock response | .reply response => response
  | _ => 0

/-- The rounds of the calls. -/
def serviceRound (i : Fin n) (op : ServiceOp) (k : Kernel n κ) (x : Service n κ) :
    Kernel n κ × Service n κ × Outcome κ ServiceOp ServiceResult :=
  match op with
  | .eventWait =>
    match kernelEventWait x.requestEvent with
    | .done () => (k, x.goto i .receive, .returns .nothing)
    | .wait queue => (k, x, .waits queue .eventWaited)
  | .eventWaited => (k, x.goto i .receive, .returns .nothing)
  | .receiveRequest =>
    let (k, mailbox, attempt) := kernelMailboxReceive k x.requestMailbox
    let x := { x with requestMailbox := mailbox }
    match attempt with
    | .done request => (k, x.goto i (.lock request), .returns (.received request))
    | .wait queue => (k, x, .waits queue .receiveRequest)
  | .lock =>
    let (mutex, attempt) := kernelMutexLock k x.stateMutex
    let x := { x with stateMutex := mutex }
    match attempt with
    | .done () => (k, x.goto i (.compute (x.points i).request), .returns .nothing)
    | .wait queue => (k, x, .waits queue .lock)
  | .compute =>
    let request := (x.points i).request
    let total := x.totalProcessed + request
    let x := { x with
      requestCount := x.requestCount + 1, totalProcessed := total, lastRequest := request
      lastResponse := total }
    (k, x.goto i (.unlock total), .returns (.computed request total))
  | .unlock =>
    let (k, mutex, _) := kernelMutexUnlock k x.stateMutex
    let x := { x with stateMutex := mutex }
    (k, x.goto i (.reply (x.points i).response), .returns .nothing)
  | .sendReply =>
    let response := (x.points i).response
    let (k, mailbox, attempt) := kernelMailboxSend k x.replyMailbox response
    let x := { x with replyMailbox := mailbox }
    match attempt with
    | .done () => (k, x.goto i .release, .returns (.replied response))
    | .wait queue => (k, x, .waits queue .sendReply)
  | .release =>
    let (k, semaphore, _) := kernelSemaphoreRelease k x.replySemaphore
    (k, { x with replySemaphore := semaphore }.goto i .yield, .returns .nothing)
  | .yield =>
    (k, if x.points i = .yield then x.goto i .wait else x, .yields .nothing)
  | .sendRequest request =>
    let (k, mailbox, attempt) := kernelMailboxSend k x.requestMailbox request
    let x := { x with requestMailbox := mailbox }
    match attempt with
    | .done () => (k, x.goto i .signal, .returns (.requested request))
    | .wait queue => (k, x, .waits queue (.sendRequest request))
  | .signal => ((kernelEventSignal k x.requestEvent).1, x.goto i .acquire, .returns .nothing)
  | .acquire =>
    let (semaphore, attempt) := kernelSemaphoreAcquire x.replySemaphore
    let x := { x with replySemaphore := semaphore }
    match attempt with
    | .done () => (k, x.goto i .collect, .returns .acquired)
    | .wait queue => (k, x, .waits queue .acquire)
  | .receiveReply =>
    let (k, mailbox, attempt) := kernelMailboxReceive k x.replyMailbox
    let x := { x with replyMailbox := mailbox }
    match attempt with
    | .done response => (k, x.goto i .idle, .returns (.responded response))
    | .wait queue => (k, x, .waits queue .receiveReply)

/-- A process makes the call at its point. -/
def serviceProtocol (n : ℕ) (κ : Type) :
    Protocol n κ (Service n κ) ServiceOp ServiceResult where
  may x i op := (x.points i).calls op && op != .eventWaited
  round := serviceRound

/-- The addresses of the queues of the service. -/
inductive ServiceQueue
  | event
  | requestSenders
  | requestReceivers
  | replySenders
  | replyReceivers
  | tokens
  | state
  deriving DecidableEq

/-- The objects as `kernel_main` creates them, and the processes at the start of their programs. -/
def serviceCreate (points : Fin n → ServicePoint)
    (memory : (ServiceQueue → KernelWaitQueue) × UInt32) :
    Option (Service n ServiceQueue × (ServiceQueue → KernelWaitQueue)) :=
  let (event, memory) := kernelEventCreate .event memory
  let (requests, memory) := kernelMailboxCreate .requestSenders .requestReceivers memory
  let (replies, memory) := kernelMailboxCreate .replySenders .replyReceivers memory
  match kernelSemaphoreCreate 0 1 .tokens memory with
  | none => none
  | some (semaphore, memory) =>
    let (mutex, memory) := kernelMutexCreate .state memory
    some ({
      requestEvent := event
      requestMailbox := requests
      replyMailbox := replies
      replySemaphore := semaphore
      stateMutex := mutex
      requestCount := 0
      totalProcessed := 0
      lastRequest := 0
      lastResponse := 0
      points := points }, memory.1)

/-- The processes of the service: one server, clients and others. -/
def ServiceRoles (server : Fin n) (points : Fin n → ServicePoint) : Prop :=
  points server = .wait ∧ ∀ i, i ≠ server → points i = .idle ∨ points i = .bystander

/-- No process has run, and the service has just been created. -/
def ServiceStart (server : Fin n)
    (s : Coop n ServiceQueue (Service n ServiceQueue) ServiceOp ServiceResult) : Prop :=
  s.Fresh ∧ ServiceRoles server s.object.points ∧
    ∃ memory, serviceCreate s.object.points memory = some (s.object, s.kernel.queues)

/-! ## What a round leaves alone -/

/-- The addresses behind the names. -/
def Service.queueOf (x : Service n κ) : ServiceQueue → κ
  | .event => x.requestEvent.waitQueue
  | .requestSenders => x.requestMailbox.senderWaitQueue
  | .requestReceivers => x.requestMailbox.receiverWaitQueue
  | .replySenders => x.replyMailbox.senderWaitQueue
  | .replyReceivers => x.replyMailbox.receiverWaitQueue
  | .tokens => x.replySemaphore.waitQueue
  | .state => x.stateMutex.waitQueue

/-- The queue on which a process waits that goes on with the call. -/
def ServiceOp.site : ServiceOp → Option ServiceQueue
  | .eventWaited => some .event
  | .receiveRequest => some .requestReceivers
  | .lock => some .state
  | .sendReply => some .replySenders
  | .sendRequest _ => some .requestSenders
  | .acquire => some .tokens
  | .receiveReply => some .replyReceivers
  | _ => none

/-- With what a process goes on that waits. -/
def ServiceParked (x : Service n κ) (i : Fin n) (queue : κ) (op : ServiceOp) : Prop :=
  op.site.map x.queueOf = some queue ∧ (x.points i).calls op = true

theorem wakes_serviceRound (i : Fin n) (op : ServiceOp) (k : Kernel n κ) (x : Service n κ) :
    k.Wakes (serviceRound i op k x).1 := by
  cases op with
  | eventWait =>
    simp only [serviceRound]
    split <;> exact .refl k
  | eventWaited | compute | yield => exact .refl k
  | receiveRequest =>
    simp only [serviceRound]
    split <;> exact wakes_kernelMailboxReceive k _
  | lock =>
    simp only [serviceRound]
    split <;> exact .refl k
  | unlock => exact wakes_kernelMutexUnlock k _
  | sendReply =>
    simp only [serviceRound]
    split <;> exact wakes_kernelMailboxSend k _ _
  | release => exact wakes_kernelSemaphoreRelease k _
  | sendRequest request =>
    simp only [serviceRound]
    split <;> exact wakes_kernelMailboxSend k _ _
  | signal => exact wakes_kernelEventSignal k _
  | acquire =>
    simp only [serviceRound]
    split <;> exact .refl k
  | receiveReply =>
    simp only [serviceRound]
    split <;> exact wakes_kernelMailboxReceive k _

theorem serviceRound_queueOf (i : Fin n) (op : ServiceOp) (k : Kernel n κ) (x : Service n κ) :
    (serviceRound i op k x).2.1.queueOf = x.queueOf := by
  funext name
  cases op with
  | eventWait =>
    simp only [serviceRound]
    split <;> cases name <;> rfl
  | eventWaited | compute | signal => cases name <;> rfl
  | yield =>
    simp only [serviceRound]
    split <;> cases name <;> rfl
  | receiveRequest =>
    have hqueues := kernelMailboxReceive_queues k x.requestMailbox
    simp only [serviceRound]
    split <;> cases name <;> first | rfl | exact hqueues.1 | exact hqueues.2
  | lock =>
    have hqueue := kernelMutexLock_waitQueue k x.stateMutex
    simp only [serviceRound]
    split <;> cases name <;> first | rfl | exact hqueue
  | unlock =>
    have hqueue := kernelMutexUnlock_waitQueue k x.stateMutex
    cases name <;> first | rfl | exact hqueue
  | sendReply =>
    have hqueues := kernelMailboxSend_queues k x.replyMailbox (x.points i).response
    simp only [serviceRound]
    split <;> cases name <;> first | rfl | exact hqueues.1 | exact hqueues.2
  | release =>
    have hqueue := kernelSemaphoreRelease_waitQueue k x.replySemaphore
    cases name <;> first | rfl | exact hqueue
  | sendRequest request =>
    have hqueues := kernelMailboxSend_queues k x.requestMailbox request
    simp only [serviceRound]
    split <;> cases name <;> first | rfl | exact hqueues.1 | exact hqueues.2
  | acquire =>
    have hqueue := kernelSemaphoreAcquire_waitQueue x.replySemaphore
    simp only [serviceRound]
    split <;> cases name <;> first | rfl | exact hqueue
  | receiveReply =>
    have hqueues := kernelMailboxReceive_queues k x.replyMailbox
    simp only [serviceRound]
    split <;> cases name <;> first | rfl | exact hqueues.1 | exact hqueues.2

/-- A round moves the process that does it, and no other. -/
theorem serviceRound_points {i j : Fin n} (hj : j ≠ i) (op : ServiceOp) (k : Kernel n κ)
    (x : Service n κ) : (serviceRound i op k x).2.1.points j = x.points j := by
  cases op <;> simp only [serviceRound] <;> (try split) <;>
    first | rfl | exact Function.update_of_ne hj _ _

/-- What a round that waits goes on with. The process stays where it is. -/
theorem serviceRound_waits {i : Fin n} {op next : ServiceOp} {k : Kernel n κ} {x : Service n κ}
    {queue : κ} (h : (serviceRound i op k x).2.2 = .waits queue next)
    (hcalls : (x.points i).calls op = true) :
    next.site.map x.queueOf = some queue ∧
      ((serviceRound i op k x).2.1.points i).calls next = true := by
  cases op with
  | eventWaited | compute | unlock | release | signal => simp [serviceRound] at h
  | yield => simp [serviceRound] at h
  | eventWait =>
    simp only [serviceRound] at h ⊢
    cases hattempt : kernelEventWait x.requestEvent with
    | done value => simp [hattempt] at h
    | wait queue' =>
      simp only [hattempt, Outcome.waits.injEq] at h ⊢
      obtain ⟨rfl, rfl⟩ := h
      have hqueue := kernelEventWait_wait hattempt
      refine ⟨by rw [hqueue]; rfl, ?_⟩
      -- the two halves of `kernel_event_wait` are at the same point
      clear hattempt hqueue
      generalize x.points i = point at hcalls ⊢
      cases point <;> first | rfl | cases hcalls
  | receiveRequest =>
    simp only [serviceRound] at h ⊢
    cases hattempt : (kernelMailboxReceive k x.requestMailbox).2.2 with
    | done value => simp [hattempt] at h
    | wait queue' =>
      simp only [hattempt, Outcome.waits.injEq] at h ⊢
      obtain ⟨rfl, rfl⟩ := h
      rw [kernelMailboxReceive_wait k _ hattempt]
      exact ⟨rfl, hcalls⟩
  | lock =>
    simp only [serviceRound] at h ⊢
    cases hattempt : (kernelMutexLock k x.stateMutex).2 with
    | done value => simp [hattempt] at h
    | wait queue' =>
      simp only [hattempt, Outcome.waits.injEq] at h ⊢
      obtain ⟨rfl, rfl⟩ := h
      rw [kernelMutexLock_wait k _ hattempt]
      exact ⟨rfl, hcalls⟩
  | sendReply =>
    simp only [serviceRound] at h ⊢
    cases hattempt : (kernelMailboxSend k x.replyMailbox (x.points i).response).2.2 with
    | done value => simp [hattempt] at h
    | wait queue' =>
      simp only [hattempt, Outcome.waits.injEq] at h ⊢
      obtain ⟨rfl, rfl⟩ := h
      rw [kernelMailboxSend_wait k _ hattempt]
      exact ⟨rfl, hcalls⟩
  | sendRequest request =>
    simp only [serviceRound] at h ⊢
    cases hattempt : (kernelMailboxSend k x.requestMailbox request).2.2 with
    | done value => simp [hattempt] at h
    | wait queue' =>
      simp only [hattempt, Outcome.waits.injEq] at h ⊢
      obtain ⟨rfl, rfl⟩ := h
      rw [kernelMailboxSend_wait k _ hattempt]
      exact ⟨rfl, hcalls⟩
  | acquire =>
    simp only [serviceRound] at h ⊢
    cases hattempt : (kernelSemaphoreAcquire x.replySemaphore).2 with
    | done value => simp [hattempt] at h
    | wait queue' =>
      simp only [hattempt, Outcome.waits.injEq] at h ⊢
      obtain ⟨rfl, rfl⟩ := h
      rw [kernelSemaphoreAcquire_wait _ hattempt]
      exact ⟨rfl, hcalls⟩
  | receiveReply =>
    simp only [serviceRound] at h ⊢
    cases hattempt : (kernelMailboxReceive k x.replyMailbox).2.2 with
    | done value => simp [hattempt] at h
    | wait queue' =>
      simp only [hattempt, Outcome.waits.injEq] at h ⊢
      obtain ⟨rfl, rfl⟩ := h
      rw [kernelMailboxReceive_wait k _ hattempt]
      exact ⟨rfl, hcalls⟩

theorem service_lawful : (serviceProtocol n κ).Lawful ServiceParked where
  wakes := wakes_serviceRound
  parks {i op k x queue next} hentry h := by
    have hcalls : (x.points i).calls op = true := by
      obtain hmay | ⟨-, -, hcalls⟩ := hentry
      · exact ((Bool.and_eq_true _ _).mp hmay).1
      · exact hcalls
    rw [ServiceParked, show ((serviceProtocol n κ).round i op k x).2.1.queueOf = x.queueOf
      from serviceRound_queueOf i op k x]
    exact serviceRound_waits h hcalls
  stays {i op k x j queue next} hj h := by
    rw [ServiceParked, show ((serviceProtocol n κ).round i op k x).2.1.queueOf = x.queueOf
      from serviceRound_queueOf i op k x,
      show ((serviceProtocol n κ).round i op k x).2.1.points j = x.points j
      from serviceRound_points hj op k x]
    exact h

theorem calls_of_enters {s : Coop n κ (Service n κ) ServiceOp ServiceResult} {i : Fin n}
    {op : ServiceOp} {f : Fin n → Place κ}
    (h : (serviceProtocol n κ).Enters ServiceParked s i op f) :
    (s.object.points i).calls op = true := by
  obtain ⟨hmay, -⟩ | ⟨queue, ⟨-, hcalls⟩, -⟩ := h
  · exact ((Bool.and_eq_true _ _).mp hmay).1
  · exact hcalls

/-! ## The outcomes of a round -/

/-- The objects are valid and have their queues. -/
structure ServiceOk (x : Service n ServiceQueue) : Prop where
  event : kernelEventIsValid x.requestEvent = true
  requests : kernelMailboxIsValid x.requestMailbox = true
  replies : kernelMailboxIsValid x.replyMailbox = true
  tokens : kernelSemaphoreIsValid x.replySemaphore = true
  mutex : kernelMutexIsValid x.stateMutex = true
  maxCount : x.replySemaphore.maxCount = 1
  queues : x.queueOf = id

/-- **The outcomes of a round**, one constructor for each: the guard, and the state after it. -/
inductive ServiceMove (i : Fin n) (k : Kernel n ServiceQueue) (x : Service n ServiceQueue) :
    ServiceOp → Kernel n ServiceQueue → Service n ServiceQueue →
      Outcome ServiceQueue ServiceOp ServiceResult → Prop
  | waits : x.points i = .wait →
      ServiceMove i k x .eventWait k x (.waits .event .eventWaited)
  | waited : x.points i = .wait →
      ServiceMove i k x .eventWaited k (x.goto i .receive) (.returns .nothing)
  | receives : x.points i = .receive → x.requestMailbox.hasMessage ≠ 0 →
      ServiceMove i k x .receiveRequest (k.wakeOneWaiter .requestSenders)
        ({ x with requestMailbox := { x.requestMailbox with hasMessage := 0 } }.goto i
          (.lock x.requestMailbox.message))
        (.returns (.received x.requestMailbox.message))
  | noRequest : x.points i = .receive → x.requestMailbox.hasMessage = 0 →
      ServiceMove i k x .receiveRequest k x (.waits .requestReceivers .receiveRequest)
  | locks {request : UInt32} {mutex : KernelMutex ServiceQueue} : x.points i = .lock request →
      kernelMutexIsValid mutex = true → mutex.waitQueue = .state →
      ServiceMove i k x .lock k ({ x with stateMutex := mutex }.goto i (.compute request))
        (.returns .nothing)
  | locked {request : UInt32} : x.points i = .lock request →
      ServiceMove i k x .lock k x (.waits .state .lock)
  | computes {request : UInt32} : x.points i = .compute request →
      ServiceMove i k x .compute k ({ x with
          requestCount := x.requestCount + 1, totalProcessed := x.totalProcessed + request,
          lastRequest := request, lastResponse := x.totalProcessed + request }.goto i
          (.unlock (x.totalProcessed + request)))
        (.returns (.computed request (x.totalProcessed + request)))
  | unlocks {response : UInt32} {k' : Kernel n ServiceQueue} {mutex : KernelMutex ServiceQueue} :
      x.points i = .unlock response → kernelMutexIsValid mutex = true → mutex.waitQueue = .state →
      k' = k ∨ k' = k.wakeOneWaiter .state →
      ServiceMove i k x .unlock k' ({ x with stateMutex := mutex }.goto i (.reply response))
        (.returns .nothing)
  | replies {response : UInt32} : x.points i = .reply response → x.replyMailbox.hasMessage = 0 →
      ServiceMove i k x .sendReply (k.wakeOneWaiter .replyReceivers)
        ({ x with replyMailbox := { x.replyMailbox with
          message := response, hasMessage := 1 } }.goto i .release)
        (.returns (.replied response))
  | replyFull {response : UInt32} : x.points i = .reply response →
      x.replyMailbox.hasMessage ≠ 0 →
      ServiceMove i k x .sendReply k x (.waits .replySenders .sendReply)
  | releases : x.points i = .release → x.replySemaphore.count ≠ 1 →
      ServiceMove i k x .release (k.wakeOneWaiter .tokens)
        ({ x with replySemaphore := { x.replySemaphore with
          count := x.replySemaphore.count + 1 } }.goto i .yield)
        (.returns .nothing)
  | tokensFull : x.points i = .release → x.replySemaphore.count = 1 →
      ServiceMove i k x .release k (x.goto i .yield) (.returns .nothing)
  | yields : x.points i = .yield → ServiceMove i k x .yield k (x.goto i .wait) (.yields .nothing)
  | pauses : x.points i = .idle ∨ x.points i = .bystander →
      ServiceMove i k x .yield k x (.yields .nothing)
  | requests {request : UInt32} : x.points i = .idle → x.requestMailbox.hasMessage = 0 →
      ServiceMove i k x (.sendRequest request) (k.wakeOneWaiter .requestReceivers)
        ({ x with requestMailbox := { x.requestMailbox with
          message := request, hasMessage := 1 } }.goto i .signal)
        (.returns (.requested request))
  | requestFull {request : UInt32} : x.points i = .idle → x.requestMailbox.hasMessage ≠ 0 →
      ServiceMove i k x (.sendRequest request) k x (.waits .requestSenders (.sendRequest request))
  | signals : x.points i = .signal →
      ServiceMove i k x .signal (k.kernelWaitQueueWakeAll .event).1 (x.goto i .acquire)
        (.returns .nothing)
  | acquires : x.points i = .acquire → x.replySemaphore.count ≠ 0 →
      ServiceMove i k x .acquire k ({ x with replySemaphore := { x.replySemaphore with
          count := x.replySemaphore.count - 1 } }.goto i .collect)
        (.returns .acquired)
  | noToken : x.points i = .acquire → x.replySemaphore.count = 0 →
      ServiceMove i k x .acquire k x (.waits .tokens .acquire)
  | collects : x.points i = .collect → x.replyMailbox.hasMessage ≠ 0 →
      ServiceMove i k x .receiveReply (k.wakeOneWaiter .replySenders)
        ({ x with replyMailbox := { x.replyMailbox with hasMessage := 0 } }.goto i .idle)
        (.returns (.responded x.replyMailbox.message))
  | noReply : x.points i = .collect → x.replyMailbox.hasMessage = 0 →
      ServiceMove i k x .receiveReply k x (.waits .replyReceivers .receiveReply)

/-- **Every round is one of these.** -/
theorem ServiceOk.move {x : Service n ServiceQueue} (hok : ServiceOk x) (i : Fin n)
    {op : ServiceOp} (k : Kernel n ServiceQueue) (hcalls : (x.points i).calls op = true) :
    ServiceMove i k x op (serviceRound i op k x).1 (serviceRound i op k x).2.1
      (serviceRound i op k x).2.2 := by
  have hqueue : ∀ name, x.queueOf name = name := fun name ↦ congrFun hok.queues name
  have hat := ServicePoint.at_of_calls hcalls
  cases op with
  | eventWait =>
    have hevent : x.requestEvent.waitQueue = .event := hqueue .event
    simp only [serviceRound, kernelEventWait, hok.event, not_true_eq_false, if_false, hevent]
    exact .waits hat
  | eventWaited => exact .waited hat
  | receiveRequest =>
    have hsenders : k.wakeOneWaiter x.requestMailbox.senderWaitQueue =
        k.wakeOneWaiter .requestSenders := congrArg _ (hqueue .requestSenders)
    have hreceivers : x.requestMailbox.receiverWaitQueue = .requestReceivers :=
      hqueue .requestReceivers
    simp only [serviceRound, kernelMailboxReceive_eq hok.requests]
    by_cases hempty : x.requestMailbox.hasMessage = 0
    · simp only [hempty, if_true, hreceivers]
      exact .noRequest hat hempty
    · simp only [hempty, if_false, hsenders]
      exact .receives hat hempty
  | lock =>
    obtain ⟨request, hat⟩ := hat
    have hstate : x.stateMutex.waitQueue = .state := hqueue .state
    simp only [serviceRound]
    cases hattempt : (kernelMutexLock k x.stateMutex).2 with
    | done _ =>
      simp only [hat]
      exact .locks hat ((kernelMutexLock_isValid k _).trans hok.mutex)
        ((kernelMutexLock_waitQueue k _).trans hstate)
    | wait queue =>
      simp only [kernelMutexLock_of_wait k _ hattempt, kernelMutexLock_wait k _ hattempt, hstate]
      exact .locked hat
  | compute =>
    obtain ⟨request, hat⟩ := hat
    simp only [serviceRound, hat]
    exact .computes hat
  | unlock =>
    obtain ⟨response, hat⟩ := hat
    have hstate : x.stateMutex.waitQueue = .state := hqueue .state
    have hkernel := kernelMutexUnlock_kernel k x.stateMutex
    rw [hstate] at hkernel
    simp only [serviceRound, hat]
    exact .unlocks hat ((kernelMutexUnlock_isValid k _).trans hok.mutex)
      ((kernelMutexUnlock_waitQueue k _).trans hstate) hkernel
  | sendReply =>
    obtain ⟨response, hat⟩ := hat
    have hsenders : x.replyMailbox.senderWaitQueue = .replySenders := hqueue .replySenders
    have hreceivers : k.wakeOneWaiter x.replyMailbox.receiverWaitQueue =
        k.wakeOneWaiter .replyReceivers := congrArg _ (hqueue .replyReceivers)
    simp only [serviceRound, kernelMailboxSend_eq hok.replies, hat]
    by_cases hempty : x.replyMailbox.hasMessage = 0
    · simp only [hempty, if_true, hreceivers]
      exact .replies hat hempty
    · simp only [hempty, if_false, hsenders]
      exact .replyFull hat hempty
  | release =>
    have htokens : k.wakeOneWaiter x.replySemaphore.waitQueue = k.wakeOneWaiter .tokens :=
      congrArg _ (hqueue .tokens)
    simp only [serviceRound, kernelSemaphoreRelease_eq hok.tokens]
    by_cases hfull : x.replySemaphore.count = x.replySemaphore.maxCount
    · rw [if_pos hfull]
      exact .tokensFull hat (hfull.trans hok.maxCount)
    · rw [if_neg hfull, htokens]
      exact .releases hat (hok.maxCount ▸ hfull)
  | yield =>
    simp only [serviceRound]
    obtain hat | hat := hat
    · rw [if_pos hat]
      exact .yields hat
    · rw [if_neg (by obtain hat | hat := hat <;> simp [hat])]
      exact .pauses hat
  | sendRequest request =>
    have hsenders : x.requestMailbox.senderWaitQueue = .requestSenders := hqueue .requestSenders
    have hreceivers : k.wakeOneWaiter x.requestMailbox.receiverWaitQueue =
        k.wakeOneWaiter .requestReceivers := congrArg _ (hqueue .requestReceivers)
    simp only [serviceRound, kernelMailboxSend_eq hok.requests]
    by_cases hempty : x.requestMailbox.hasMessage = 0
    · simp only [hempty, if_true, hreceivers]
      exact .requests hat hempty
    · simp only [hempty, if_false, hsenders]
      exact .requestFull hat hempty
  | signal =>
    have hevent : x.requestEvent.waitQueue = .event := hqueue .event
    simp only [serviceRound, kernelEventSignal, hok.event, not_true_eq_false, if_false, hevent]
    exact .signals hat
  | acquire =>
    have htokens : x.replySemaphore.waitQueue = .tokens := hqueue .tokens
    simp only [serviceRound, kernelSemaphoreAcquire_eq hok.tokens]
    by_cases hzero : x.replySemaphore.count = 0
    · simp only [hzero, if_true, htokens]
      exact .noToken hat hzero
    · simp only [hzero, if_false]
      exact .acquires hat hzero
  | receiveReply =>
    have hsenders : k.wakeOneWaiter x.replyMailbox.senderWaitQueue =
        k.wakeOneWaiter .replySenders := congrArg _ (hqueue .replySenders)
    have hreceivers : x.replyMailbox.receiverWaitQueue = .replyReceivers := hqueue .replyReceivers
    simp only [serviceRound, kernelMailboxReceive_eq hok.replies]
    by_cases hempty : x.replyMailbox.hasMessage = 0
    · simp only [hempty, if_true, hreceivers]
      exact .noReply hat hempty
    · simp only [hempty, if_false, hsenders]
      exact .collects hat hempty

section Move

variable {i : Fin n} {k k' : Kernel n ServiceQueue} {x x' : Service n ServiceQueue}
  {op : ServiceOp} {outcome : Outcome ServiceQueue ServiceOp ServiceResult}

theorem ServiceMove.ok (h : ServiceMove i k x op k' x' outcome) (hok : ServiceOk x)
    (hqueues : x'.queueOf = x.queueOf) : ServiceOk x' := by
  obtain ⟨hevent, hrequests, hreplies, htokens, hmutex, hmax, hid⟩ := hok
  cases h with
  | locks hat hvalid _ =>
    exact ⟨hevent, hrequests, hreplies, htokens, hvalid, hmax, hqueues.trans hid⟩
  | unlocks hat hvalid _ _ =>
    exact ⟨hevent, hrequests, hreplies, htokens, hvalid, hmax, hqueues.trans hid⟩
  | _ => exact ⟨hevent, hrequests, hreplies, htokens, hmutex, hmax, hqueues.trans hid⟩

/-- Whose program a point belongs to. -/
inductive ServiceRole
  | server
  | client
  | bystander
  deriving DecidableEq

/-- Whose program the point belongs to. -/
def ServicePoint.role : ServicePoint → ServiceRole
  | .idle | .signal | .acquire | .collect => .client
  | .bystander => .bystander
  | _ => .server

/-- A process stays in its program. -/
theorem ServiceMove.role (h : ServiceMove i k x op k' x' outcome) (j : Fin n) :
    (x'.points j).role = (x.points j).role := by
  have hgoto : ∀ (y : Service n ServiceQueue) point, y.points = x.points →
      point.role = (x.points i).role → ((y.goto i point).points j).role = (x.points j).role := by
    intro y point hy hpoint
    rw [Service.goto_points, hy, Function.update_apply]
    split
    · next heq => rw [heq, hpoint]
    · rfl
  cases h with
  | waits | noRequest | locked | replyFull | pauses | requestFull | noToken | noReply => rfl
  | waited hat | locks hat | computes hat | unlocks hat | tokensFull hat | yields hat
  | signals hat | receives hat | replies hat | releases hat | requests hat | acquires hat
  | collects hat => exact hgoto _ _ rfl (by rw [hat]; rfl)

end Move

/-! ## The created service -/

/-- The place of a queue in the order of creation. -/
def ServiceQueue.rank : ServiceQueue → UInt32
  | .event => 0
  | .requestSenders => 1
  | .requestReceivers => 2
  | .replySenders => 3
  | .replyReceivers => 4
  | .tokens => 5
  | .state => 6

/-- The service as it is created, and its queues with the channels in the order of creation. -/
theorem serviceCreate_spec {points : Fin n → ServicePoint}
    {memory : (ServiceQueue → KernelWaitQueue) × UInt32} {x : Service n ServiceQueue}
    {queues : ServiceQueue → KernelWaitQueue}
    (h : serviceCreate points memory = some (x, queues)) :
    ServiceOk x ∧ x.requestMailbox.hasMessage = 0 ∧ x.replyMailbox.hasMessage = 0 ∧
      x.replySemaphore.count = 0 ∧ x.points = points ∧
      ∀ q : ServiceQueue, queues q = ⟨kernelWaitQueueMagic, memory.2 + q.rank, 0⟩ := by
  simp only [serviceCreate, kernelEventCreate, kernelMailboxCreate, kernelSemaphoreCreate,
    kernelMutexCreate] at h
  rw [if_neg (by decide)] at h
  simp only [Option.some_inj, Prod.mk.injEq] at h
  obtain ⟨rfl, rfl⟩ := h
  refine ⟨⟨rfl, rfl, rfl, rfl, rfl, rfl, ?_⟩, rfl, rfl, rfl, rfl, fun q ↦ ?_⟩
  · funext q
    cases q <;> rfl
  · cases q <;> simp [kernelWaitQueueCreate, ServiceQueue.rank, add_assoc]

theorem ServiceStart.ok {server : Fin n}
    {s : Coop n ServiceQueue (Service n ServiceQueue) ServiceOp ServiceResult}
    (h : ServiceStart server s) : s.Sound ∧ ServiceOk s.object ∧
      s.object.requestMailbox.hasMessage = 0 ∧ s.object.replyMailbox.hasMessage = 0 ∧
      s.object.replySemaphore.count = 0 := by
  obtain ⟨hfresh, -, memory, hcreate⟩ := h
  obtain ⟨hok, hrequests, hreplies, hcount, -, hqueues⟩ := serviceCreate_spec hcreate
  refine ⟨hfresh.sound (fun q ↦ ?_) (fun q q' heq ↦ ?_) fun q ↦ ?_, hok, hrequests, hreplies,
    hcount⟩
  · rw [Kernel.kernelWaitQueueIsValid, hqueues]
    rfl
  · simp only [hqueues, add_right_inj] at heq
    revert heq
    cases q <;> cases q' <;> decide
  · rw [hqueues]

end TensorOS
