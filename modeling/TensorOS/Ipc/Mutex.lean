import TensorOS.Ipc.Places

/-!
# Mutexes

`mutex.c`: the pid of the owner and one queue. An unlock clears the owner and wakes one process; it
does not make that process the owner, so another may lock the mutex first.

At most one process is between a successful lock and its successful unlock, it is the recorded
owner, and an unlocked mutex with blocked processes has one on the way (`mutex_excludes`).
-/

namespace TensorOS

/-- `struct kernel_mutex`. -/
structure KernelMutex (κ : Type) where
  magic : UInt32
  ownerPid : UInt32
  waitQueue : κ
  deriving DecidableEq

/-- `KERNEL_MUTEX_MAGIC`. -/
def kernelMutexMagic : UInt32 := 0x4D555458

variable {n : ℕ} {κ : Type}

/-- `kernel_mutex_is_valid`. -/
def kernelMutexIsValid (mutex : KernelMutex κ) : Bool := mutex.magic = kernelMutexMagic

/-- `kernel_mutex_create`, with the address that the allocator returns for the queue. -/
def kernelMutexCreate [DecidableEq κ] (waiters : κ) (memory : (κ → KernelWaitQueue) × UInt32) :
    KernelMutex κ × (κ → KernelWaitQueue) × UInt32 :=
  ({ magic := kernelMutexMagic, ownerPid := 0, waitQueue := waiters },
    kernelWaitQueueCreate waiters memory)

/-- `kernel_mutex_try_lock`. -/
def kernelMutexTryLock (k : Kernel n κ) (mutex : KernelMutex κ) : KernelMutex κ × Bool :=
  if ¬ kernelMutexIsValid mutex then (mutex, false)
  else
    let currentPid := k.processCurrentPid
    if currentPid = 0 ∨ mutex.ownerPid ≠ 0 then (mutex, false)
    else ({ mutex with ownerPid := currentPid }, true)

/-- `kernel_mutex_lock`, one turn of its loop. -/
def kernelMutexLock (k : Kernel n κ) (mutex : KernelMutex κ) : KernelMutex κ × Attempt κ Unit :=
  if ¬ kernelMutexIsValid mutex then (mutex, .done ())
  else
    let (mutex, locked) := kernelMutexTryLock k mutex
    (mutex, if locked then .done () else .wait mutex.waitQueue)

/-- `kernel_mutex_unlock`. -/
def kernelMutexUnlock (k : Kernel n κ) (mutex : KernelMutex κ) :
    Kernel n κ × KernelMutex κ × Bool :=
  if ¬ kernelMutexIsValid mutex then (k, mutex, false)
  else
    let currentPid := k.processCurrentPid
    if currentPid = 0 ∨ mutex.ownerPid ≠ currentPid then (k, mutex, false)
    else (k.wakeOneWaiter mutex.waitQueue, { mutex with ownerPid := 0 }, true)

section Frame

variable (k : Kernel n κ) (mutex : KernelMutex κ)

theorem kernelMutexTryLock_waitQueue :
    (kernelMutexTryLock k mutex).1.waitQueue = mutex.waitQueue := by
  simp only [kernelMutexTryLock]
  split_ifs <;> rfl

theorem kernelMutexLock_waitQueue : (kernelMutexLock k mutex).1.waitQueue = mutex.waitQueue := by
  rw [kernelMutexLock]
  split
  · rfl
  · exact kernelMutexTryLock_waitQueue k mutex

theorem kernelMutexLock_of_wait {queue : κ} (h : (kernelMutexLock k mutex).2 = .wait queue) :
    (kernelMutexLock k mutex).1 = mutex := by
  by_cases hvalid : kernelMutexIsValid mutex = true
  · by_cases hfails : k.processCurrentPid = 0 ∨ mutex.ownerPid ≠ 0
    · simp [kernelMutexLock, kernelMutexTryLock, hvalid, hfails]
    · simp [kernelMutexLock, kernelMutexTryLock, hvalid, hfails] at h
  · simp [kernelMutexLock, hvalid] at h

theorem kernelMutexLock_isValid :
    kernelMutexIsValid (kernelMutexLock k mutex).1 = kernelMutexIsValid mutex := by
  simp only [kernelMutexLock, kernelMutexTryLock]
  split_ifs <;> rfl

theorem kernelMutexLock_wait {queue : κ} (h : (kernelMutexLock k mutex).2 = .wait queue) :
    queue = mutex.waitQueue := by
  rw [kernelMutexLock] at h
  split at h
  · cases h
  · simp only at h
    split at h
    · cases h
    · cases h
      exact kernelMutexTryLock_waitQueue k mutex

theorem wakes_kernelMutexUnlock : k.Wakes (kernelMutexUnlock k mutex).1 := by
  simp only [kernelMutexUnlock]
  split_ifs
  · exact .refl k
  · exact k.wakes_wakeOneWaiter _
  · exact .refl k

theorem kernelMutexUnlock_isValid :
    kernelMutexIsValid (kernelMutexUnlock k mutex).2.1 = kernelMutexIsValid mutex := by
  simp only [kernelMutexUnlock]
  split_ifs <;> rfl

/-- An unlock does nothing to the kernel but wake a process. -/
theorem kernelMutexUnlock_kernel : (kernelMutexUnlock k mutex).1 = k ∨
    (kernelMutexUnlock k mutex).1 = k.wakeOneWaiter mutex.waitQueue := by
  simp only [kernelMutexUnlock]
  split_ifs <;> simp

theorem kernelMutexUnlock_waitQueue :
    (kernelMutexUnlock k mutex).2.1.waitQueue = mutex.waitQueue := by
  simp only [kernelMutexUnlock]
  split_ifs <;> rfl

end Frame

section Specs

variable {k : Kernel n κ} {mutex : KernelMutex κ} (hvalid : kernelMutexIsValid mutex = true)
  (hpid : k.processCurrentPid ≠ 0)

include hvalid hpid

theorem kernelMutexTryLock_eq : kernelMutexTryLock k mutex =
    if mutex.ownerPid = 0 then ({ mutex with ownerPid := k.processCurrentPid }, true)
    else (mutex, false) := by
  simp [kernelMutexTryLock, hvalid, hpid]

theorem kernelMutexLock_eq : kernelMutexLock k mutex =
    if mutex.ownerPid = 0 then ({ mutex with ownerPid := k.processCurrentPid }, .done ())
    else (mutex, .wait mutex.waitQueue) := by
  by_cases hfree : mutex.ownerPid = 0
  · simp [kernelMutexLock, hvalid, kernelMutexTryLock_eq hvalid hpid, hfree]
  · simp [kernelMutexLock, hvalid, kernelMutexTryLock_eq hvalid hpid, hfree]

theorem kernelMutexUnlock_eq : kernelMutexUnlock k mutex =
    if mutex.ownerPid = k.processCurrentPid then
      (k.wakeOneWaiter mutex.waitQueue, { mutex with ownerPid := 0 }, true)
    else (k, mutex, false) := by
  simp [kernelMutexUnlock, hvalid, hpid]

end Specs

/-! ## Processes around a mutex -/

/-- The calls. -/
inductive MutexOp
  | lock
  | tryLock
  | unlock
  | yield
  deriving DecidableEq

/-- What a call did. -/
inductive MutexResult
  | locked
  | unlocked
  | nothing
  deriving DecidableEq

/-- The rounds of the calls. -/
def mutexRound (op : MutexOp) (k : Kernel n κ) (mutex : KernelMutex κ) :
    Kernel n κ × KernelMutex κ × Outcome κ MutexOp MutexResult :=
  match op with
  | .lock =>
    let (mutex', attempt) := kernelMutexLock k mutex
    (k, mutex', attempt.outcome .lock fun _ ↦
      if kernelMutexIsValid mutex then .locked else .nothing)
  | .tryLock =>
    let (mutex, locked) := kernelMutexTryLock k mutex
    (k, mutex, .returns (if locked then .locked else .nothing))
  | .unlock =>
    let (k, mutex, unlocked) := kernelMutexUnlock k mutex
    (k, mutex, .returns (if unlocked then .unlocked else .nothing))
  | .yield => (k, mutex, .yields .nothing)

/-- Every process may make every call at any time. -/
def mutexProtocol (n : ℕ) (κ : Type) : Protocol n κ (KernelMutex κ) MutexOp MutexResult where
  may _ _ _ := true
  round _ op k mutex := mutexRound op k mutex

/-- Whether a process is between a successful lock and its successful unlock after a call, if it was
before. -/
def holdsAfter (i : Fin n) (held : Bool) (entry : Fin n × MutexResult) : Bool :=
  if entry.1 = i then
    match entry.2 with
    | .locked => true
    | .unlocked => false
    | .nothing => held
  else held

/-- The process is between a successful lock and its successful unlock. -/
def holdsMutex (log : List (Fin n × MutexResult)) (i : Fin n) : Bool :=
  log.foldl (holdsAfter i) false

/-- The processes have not run, they have different pids, and the mutex is as `kernel_mutex_create`
leaves it. -/
def MutexStart (s : Coop n Unit (KernelMutex Unit) MutexOp MutexResult) : Prop :=
  s.Fresh ∧ (∀ i, s.pids i ≠ some 0) ∧
    (∀ i j pid, s.pids i = some pid → s.pids j = some pid → i = j) ∧
    ∃ memory nextChannel,
      kernelMutexCreate () memory = (s.object, s.kernel.queues, nextChannel)

/-! ## The invariant -/

/-- The owner is the one process that holds the mutex. -/
structure MutexInv [DecidableEq κ] (pids : Fin n → Option UInt32) (f : Fin n → Place κ)
    (mutex : KernelMutex κ) (log : List (Fin n × MutexResult)) : Prop where
  valid : kernelMutexIsValid mutex = true
  nonzero : ∀ i, pids i ≠ some 0
  distinct : ∀ i j pid, pids i = some pid → pids j = some pid → i = j
  owner : ∀ i, holdsMutex log i = true ↔ pids i = some mutex.ownerPid
  attended : mutex.ownerPid = 0 → Attended 1 mutex.waitQueue f

/-- With what a process goes on that waits on the queue of the mutex. -/
def MutexParked (mutex : KernelMutex κ) (_ : Fin n) (queue : κ) (op : MutexOp) : Prop :=
  op = .lock ∧ queue = mutex.waitQueue

theorem wakes_mutexRound (op : MutexOp) (k : Kernel n κ) (mutex : KernelMutex κ) :
    k.Wakes (mutexRound op k mutex).1 := by
  cases op with
  | lock | tryLock | yield => exact .refl k
  | unlock => exact wakes_kernelMutexUnlock k mutex

theorem mutexRound_waitQueue (op : MutexOp) (k : Kernel n κ) (mutex : KernelMutex κ) :
    (mutexRound op k mutex).2.1.waitQueue = mutex.waitQueue := by
  cases op with
  | yield => rfl
  | lock => exact kernelMutexLock_waitQueue k mutex
  | tryLock => exact kernelMutexTryLock_waitQueue k mutex
  | unlock => exact kernelMutexUnlock_waitQueue k mutex

theorem mutexRound_waits {op next : MutexOp} {k : Kernel n κ} {mutex : KernelMutex κ} {queue : κ}
    (h : (mutexRound op k mutex).2.2 = .waits queue next) :
    next = .lock ∧ queue = mutex.waitQueue := by
  cases op with
  | yield | tryLock | unlock => simp [mutexRound] at h
  | lock =>
    obtain ⟨hwait, rfl⟩ := Attempt.outcome_eq_waits h
    exact ⟨rfl, kernelMutexLock_wait k mutex hwait⟩

theorem mutex_lawful : (mutexProtocol n κ).Lawful MutexParked where
  wakes _ op k mutex := wakes_mutexRound op k mutex
  parks {i op k mutex queue next} _ h := by
    rw [MutexParked, show ((mutexProtocol n κ).round i op k mutex).2.1.waitQueue = _
      from mutexRound_waitQueue op k mutex]
    exact mutexRound_waits h
  stays {i op k mutex j queue next} _ h := by
    rw [MutexParked, show ((mutexProtocol n κ).round i op k mutex).2.1.waitQueue = _
      from mutexRound_waitQueue op k mutex]
    exact h

section Inv

variable [DecidableEq κ] {pids : Fin n → Option UInt32} {f f' : Fin n → Place κ}
  {mutex : KernelMutex κ} {log : List (Fin n × MutexResult)} {i : Fin n} {pid : UInt32}

theorem holdsMutex_append (entry : Fin n × MutexResult) (i : Fin n) :
    holdsMutex (log ++ [entry]) i = holdsAfter i (holdsMutex log i) entry := by
  rw [holdsMutex, List.foldl_append, holdsMutex]
  rfl

theorem MutexInv.nothing (h : MutexInv pids f mutex log) :
    MutexInv pids f mutex (log ++ [(i, .nothing)]) := by
  refine { h with owner := fun j ↦ ?_ }
  rw [← h.owner j, holdsMutex_append, holdsAfter]
  split <;> rfl

theorem MutexInv.move (h : MutexInv pids f mutex log)
    (hattended : mutex.ownerPid = 0 → Attended 1 mutex.waitQueue f') :
    MutexInv pids f' mutex log :=
  { h with attended := hattended }

theorem MutexInv.take (h : MutexInv pids f mutex log) (hpid : pids i = some pid)
    (hfree : mutex.ownerPid = 0) :
    MutexInv pids f' { mutex with ownerPid := pid } (log ++ [(i, .locked)]) := by
  refine ⟨h.valid, h.nonzero, h.distinct, fun j ↦ ?_, fun hzero ↦ ?_⟩
  · rw [holdsMutex_append, holdsAfter]
    split
    · next hij =>
      obtain rfl : i = j := hij
      simp [hpid]
    · next hij =>
      -- nobody else holds it, as the owner was 0
      have hnot : pids j ≠ some mutex.ownerPid := by
        rw [hfree]
        exact h.nonzero j
      rw [h.owner j]
      exact iff_of_false hnot fun hj ↦ hij (h.distinct i j pid hpid hj)
  · refine absurd hpid ?_
    rw [show pid = 0 from hzero]
    exact h.nonzero i

/-- The owner gives the mutex back, and a process is woken. -/
theorem MutexInv.give (h : MutexInv pids f mutex log) (hpid : pids i = some mutex.ownerPid)
    (hattended : Attended 1 mutex.waitQueue f') :
    MutexInv pids f' { mutex with ownerPid := 0 } (log ++ [(i, .unlocked)]) := by
  refine ⟨h.valid, h.nonzero, h.distinct, fun j ↦ ?_, fun _ ↦ hattended⟩
  rw [holdsMutex_append, holdsAfter]
  refine iff_of_false ?_ (h.nonzero j)
  split
  · simp
  · next hij =>
    rw [h.owner j]
    exact fun hj ↦ hij (h.distinct i j mutex.ownerPid hpid hj)

theorem MutexInv.processCurrentPid {s : Coop n κ (KernelMutex κ) MutexOp MutexResult}
    (h : MutexInv s.pids f s.object s.log) (hsound : s.Sound) (hi : s.place i = .running) :
    s.pids i = some s.kernel.processCurrentPid ∧ s.kernel.processCurrentPid ≠ 0 := by
  obtain ⟨hp, hcurrent⟩ := Coop.place_eq_running.mp hi
  have hrunning := ((Coop.standing_of_none hp).mp (hsound.standing i)).2.mpr hcurrent
  have hident : s.pids i = some s.kernel.processCurrentPid := by
    rw [Coop.pids, Process.ident_of_ne (by simp [hrunning]), Kernel.processCurrentPid, hcurrent]
  refine ⟨hident, fun hzero ↦ h.nonzero i ?_⟩
  rw [hident, hzero]

end Inv

/-- **What the calls keep.** -/
theorem mutex_keeps [DecidableEq κ] :
    (mutexProtocol n κ).Keeps MutexParked (fun _ _ _ ↦ True) MutexInv where
  wake h hi := h.move fun hfree ↦ (h.attended hfree).wake hi
  switch h _ hi := h.move fun hfree ↦ (h.attended hfree).update (by simp [hi]) (by simp)
  round {s i op f} hsound hi _ henters h := by
    change Protocol.Settles _ i { s with kernel := (mutexRound op s.kernel s.object).1 }.place
      (mutexRound op s.kernel s.object).2.1 s.log (mutexRound op s.kernel s.object).2.2
    obtain ⟨hpid, hne⟩ := h.processCurrentPid hsound hi
    cases op with
    | lock =>
      rw [mutexRound, kernelMutexLock_eq h.valid hne]
      by_cases hfree : s.object.ownerPid = 0
      · rw [if_pos hfree]
        simp only [Attempt.outcome, h.valid, if_true, Protocol.Settles]
        exact h.take hpid hfree
      · rw [if_neg hfree]
        exact h.move fun hzero ↦ absurd hzero hfree
    | tryLock =>
      obtain rfl := henters.of_call (by simp [MutexParked])
      rw [mutexRound, kernelMutexTryLock_eq h.valid hne]
      by_cases hfree : s.object.ownerPid = 0
      · rw [if_pos hfree]
        exact h.take hpid hfree
      · rw [if_neg hfree]
        exact h.nothing
    | unlock =>
      obtain rfl := henters.of_call (by simp [MutexParked])
      rw [mutexRound, kernelMutexUnlock_eq h.valid hne]
      by_cases howner : s.object.ownerPid = s.kernel.processCurrentPid
      · rw [if_pos howner]
        refine h.give (howner ▸ hpid) ?_
        exact (Attended.zero _ _).of_wakesOne (hsound.place_wakeOneWaiter rfl rfl)
      · rw [if_neg howner]
        exact h.nothing
    | yield =>
      obtain rfl := henters.of_call (by simp [MutexParked])
      exact (h.move fun hfree ↦ (h.attended hfree).update (by simp [hi]) (by simp)).nothing

theorem MutexStart.good {s : Coop n Unit (KernelMutex Unit) MutexOp MutexResult}
    (h : MutexStart s) : Protocol.Good MutexParked MutexInv s := by
  obtain ⟨hfresh, hnonzero, hdistinct, memory, nextChannel, hcreate⟩ := h
  simp only [kernelMutexCreate, kernelWaitQueueCreate, Prod.mk.injEq] at hcreate
  obtain ⟨hobject, hqueues, -⟩ := hcreate
  refine ⟨hfresh.sound ?_ ?_ ?_, ?_, fun i queue op hp ↦ ?_⟩
  · intro queue
    rw [Kernel.kernelWaitQueueIsValid, ← hqueues]
    rfl
  · exact fun _ _ _ ↦ rfl
  · rw [← hqueues]
    exact fun _ ↦ rfl
  · rw [hfresh.place, hfresh.log, ← hobject]
    refine ⟨rfl, hnonzero, hdistinct, fun i ↦ ?_, fun _ ↦ Or.inl (by simp)⟩
    exact iff_of_false (by simp [holdsMutex]) (hnonzero i)
  · rw [hfresh.pending i] at hp
    cases hp

/-- **Mutexes exclude.** In every interleaving of the calls on a mutex at most one process is
between a successful lock and its successful unlock, and it is the recorded owner. An unlock
succeeds for that process only, and changes nothing otherwise. While the mutex is unlocked, no
process is blocked on it or one has been woken and is not yet back. -/
theorem mutex_excludes {capacity : UInt32}
    {s : Coop capacity.toNat Unit (KernelMutex Unit) MutexOp MutexResult}
    (h : (mutexProtocol capacity.toNat Unit).Reaches MutexStart (fun _ _ ↦ True) s) :
    (∀ i j, holdsMutex s.log i = true → holdsMutex s.log j = true → i = j) ∧
    (∀ i, holdsMutex s.log i = true → s.object.ownerPid ≠ 0 ∧
      (s.kernel.processes i).pid = s.object.ownerPid) ∧
    (∀ i, s.kernel.current = some i →
      ((kernelMutexUnlock s.kernel s.object).2.2 = true ↔ holdsMutex s.log i = true) ∧
      ((kernelMutexUnlock s.kernel s.object).2.2 = false →
        (kernelMutexUnlock s.kernel s.object).2.1 = s.object)) ∧
    (s.object.ownerPid = 0 → (∀ i, ¬ s.BlockedOn s.object.waitQueue i) ∨
      ∃ i, s.WokenOn s.object.waitQueue i) := by
  obtain ⟨hsound, hinv, -⟩ := mutex_keeps.reaches mutex_lawful capacity.toNat_lt
    (fun s ↦ MutexStart.good) (fun _ _ _ _ _ _ _ ↦ trivial) h
  have howner : ∀ i, holdsMutex s.log i = true → s.pids i = some s.object.ownerPid :=
    fun i ↦ (hinv.owner i).mp
  simp only [hsound.blockedOn_iff, hsound.wokenOn_iff]
  refine ⟨fun i j hi hj ↦ ?_, fun i hi ↦ ⟨fun hzero ↦ ?_, ?_⟩, fun i hcurrent ↦ ?_, fun hfree ↦ ?_⟩
  · exact hinv.distinct i j _ (howner i hi) (howner j hj)
  · exact hinv.nonzero i (hzero ▸ howner i hi)
  · have hpid := howner i hi
    rw [Coop.pids, Process.ident] at hpid
    split_ifs at hpid
    exact Option.some_inj.mp hpid
  · have hplace : s.place i = .running := by
      refine Coop.place_eq_running.mpr ⟨?_, hcurrent⟩
      cases hp : s.pending i with
      | none => rfl
      | some p => exact absurd hcurrent ((Coop.standing_of_some hp).mp (hsound.standing i)).1
    obtain ⟨hpid, hne⟩ := hinv.processCurrentPid hsound hplace
    rw [kernelMutexUnlock_eq hinv.valid hne, hinv.owner i, hpid, Option.some_inj]
    split
    · next howns => simp [howns]
    · next hother => simp [Ne.symm hother]
  · exact Attended.one_iff.mp (hinv.attended hfree)

/-- Three processes and a new mutex. The third one stays outside. -/
def threeAtMutex : Coop (3 : UInt32).toNat Unit (KernelMutex Unit) MutexOp MutexResult :=
  .init (readyProcesses _) (fun _ ↦ ⟨kernelWaitQueueMagic, 0x1000, 0⟩)
    { magic := kernelMutexMagic, ownerPid := 0, waitQueue := () }

/-- The second process sleeps while the first has the mutex, cannot unlock it when a stray wake-up
brings it back, and is woken by the unlock. -/
def mutexLabels : List (CoopLabel (3 : UInt32).toNat MutexOp) :=
  [.resume 0, .call .lock, .call .yield, .resume 1, .call .unlock,
    .call .lock, .wake 2, .resume 1, .resume 0, .call .unlock]

theorem mutex_excludes_two :
    let s := (mutexProtocol _ _).run threeAtMutex mutexLabels
    s.log.map Prod.snd = [.locked, .nothing, .nothing, .unlocked] ∧ s.object.ownerPid = 0 ∧
    (∀ i j, holdsMutex s.log i = true → holdsMutex s.log j = true → i = j) ∧
    ((∀ i, ¬ s.BlockedOn s.object.waitQueue i) ∨ ∃ i, s.WokenOn s.object.waitQueue i) := by
  have hpids : ∀ i j, threeAtMutex.pids i = threeAtMutex.pids j → i = j := by decide +kernel
  have hreaches : (mutexProtocol _ _).Reaches MutexStart (fun _ _ ↦ True)
      ((mutexProtocol _ _).run threeAtMutex mutexLabels) :=
    Protocol.Reaches.run (.start ⟨Coop.init_fresh _ _ fun _ ↦ rfl, by decide +kernel,
      fun i j _ hi hj ↦ hpids i j (hi.trans hj.symm), (fun _ ↦ ⟨0, 0, 0⟩, 0x1000), _, rfl⟩)
      mutexLabels
  obtain ⟨hone, -, -, hattended⟩ := mutex_excludes hreaches
  exact ⟨by decide +kernel, by decide +kernel, hone, hattended (by decide +kernel)⟩

end TensorOS
