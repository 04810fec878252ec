import TensorOS.Ipc.Places

/-!
# Semaphores

`semaphore.c`: a count of tokens with a maximum, and one queue. A release adds a token and wakes one
process, which then has to compete for the token with every other process.

Tokens are conserved, and while a process is blocked at least as many are on the way as there are
tokens (`semaphore_tokens`).
-/

namespace TensorOS

/-- `struct kernel_semaphore`. -/
structure KernelSemaphore (κ : Type) where
  magic : UInt32
  count : UInt32
  maxCount : UInt32
  waitQueue : κ
  deriving DecidableEq

/-- `KERNEL_SEMAPHORE_MAGIC`. -/
def kernelSemaphoreMagic : UInt32 := 0x53454D41

variable {n : ℕ} {κ : Type}

/-- `kernel_semaphore_is_valid`. -/
def kernelSemaphoreIsValid (semaphore : KernelSemaphore κ) : Bool :=
  semaphore.magic = kernelSemaphoreMagic

/-- `kernel_semaphore_create`, with the address that the allocator returns for the queue. -/
def kernelSemaphoreCreate [DecidableEq κ] (initialCount maxCount : UInt32) (waiters : κ)
    (memory : (κ → KernelWaitQueue) × UInt32) :
    Option (KernelSemaphore κ × (κ → KernelWaitQueue) × UInt32) :=
  if maxCount = 0 ∨ initialCount > maxCount then none
  else
    let semaphore :=
      { magic := kernelSemaphoreMagic
        count := initialCount
        maxCount := maxCount
        waitQueue := waiters }
    some (semaphore, kernelWaitQueueCreate waiters memory)

/-- `kernel_semaphore_try_acquire`. -/
def kernelSemaphoreTryAcquire (semaphore : KernelSemaphore κ) : KernelSemaphore κ × Bool :=
  if ¬ kernelSemaphoreIsValid semaphore ∨ semaphore.count = 0 then (semaphore, false)
  else ({ semaphore with count := semaphore.count - 1 }, true)

/-- `kernel_semaphore_acquire`, one turn of its loop. -/
def kernelSemaphoreAcquire (semaphore : KernelSemaphore κ) :
    KernelSemaphore κ × Attempt κ Unit :=
  if ¬ kernelSemaphoreIsValid semaphore then (semaphore, .done ())
  else
    let (semaphore, acquired) := kernelSemaphoreTryAcquire semaphore
    (semaphore, if acquired then .done () else .wait semaphore.waitQueue)

/-- `kernel_semaphore_release`. -/
def kernelSemaphoreRelease (k : Kernel n κ) (semaphore : KernelSemaphore κ) :
    Kernel n κ × KernelSemaphore κ × Bool :=
  if ¬ kernelSemaphoreIsValid semaphore ∨ semaphore.count = semaphore.maxCount then
    (k, semaphore, false)
  else
    (k.wakeOneWaiter semaphore.waitQueue, { semaphore with count := semaphore.count + 1 }, true)

section Frame

variable (k : Kernel n κ) (semaphore : KernelSemaphore κ)

theorem kernelSemaphoreTryAcquire_waitQueue :
    (kernelSemaphoreTryAcquire semaphore).1.waitQueue = semaphore.waitQueue := by
  rw [kernelSemaphoreTryAcquire]
  split <;> rfl

theorem kernelSemaphoreAcquire_waitQueue :
    (kernelSemaphoreAcquire semaphore).1.waitQueue = semaphore.waitQueue := by
  rw [kernelSemaphoreAcquire]
  split
  · rfl
  · exact kernelSemaphoreTryAcquire_waitQueue semaphore

theorem kernelSemaphoreAcquire_wait {queue : κ}
    (h : (kernelSemaphoreAcquire semaphore).2 = .wait queue) : queue = semaphore.waitQueue := by
  rw [kernelSemaphoreAcquire] at h
  split at h
  · cases h
  · simp only at h
    split at h
    · cases h
    · cases h
      exact kernelSemaphoreTryAcquire_waitQueue semaphore

theorem wakes_kernelSemaphoreRelease : k.Wakes (kernelSemaphoreRelease k semaphore).1 := by
  rw [kernelSemaphoreRelease]
  split
  · exact .refl k
  · exact k.wakes_wakeOneWaiter _

theorem kernelSemaphoreRelease_waitQueue :
    (kernelSemaphoreRelease k semaphore).2.1.waitQueue = semaphore.waitQueue := by
  rw [kernelSemaphoreRelease]
  split <;> rfl

end Frame

section Specs

variable {semaphore : KernelSemaphore κ} (hvalid : kernelSemaphoreIsValid semaphore = true)

include hvalid

theorem kernelSemaphoreTryAcquire_eq : kernelSemaphoreTryAcquire semaphore =
    if semaphore.count = 0 then (semaphore, false)
    else ({ semaphore with count := semaphore.count - 1 }, true) := by
  simp [kernelSemaphoreTryAcquire, hvalid]

theorem kernelSemaphoreAcquire_eq : kernelSemaphoreAcquire semaphore =
    if semaphore.count = 0 then (semaphore, .wait semaphore.waitQueue)
    else ({ semaphore with count := semaphore.count - 1 }, .done ()) := by
  by_cases hzero : semaphore.count = 0
  · simp [kernelSemaphoreAcquire, hvalid, kernelSemaphoreTryAcquire_eq hvalid, hzero]
  · simp [kernelSemaphoreAcquire, hvalid, kernelSemaphoreTryAcquire_eq hvalid, hzero]

theorem kernelSemaphoreRelease_eq (k : Kernel n κ) : kernelSemaphoreRelease k semaphore =
    if semaphore.count = semaphore.maxCount then (k, semaphore, false)
    else (k.wakeOneWaiter semaphore.waitQueue,
      { semaphore with count := semaphore.count + 1 }, true) := by
  simp [kernelSemaphoreRelease, hvalid]

end Specs

/-! ## Processes around a semaphore -/

/-- The calls. -/
inductive SemaphoreOp
  | acquire
  | tryAcquire
  | release
  | yield
  deriving DecidableEq

/-- What a call did. -/
inductive SemaphoreResult
  | acquired
  | released
  | nothing
  deriving DecidableEq

/-- The rounds of the calls. -/
def semaphoreRound (op : SemaphoreOp) (k : Kernel n κ) (semaphore : KernelSemaphore κ) :
    Kernel n κ × KernelSemaphore κ × Outcome κ SemaphoreOp SemaphoreResult :=
  match op with
  | .acquire =>
    let (semaphore', attempt) := kernelSemaphoreAcquire semaphore
    (k, semaphore', attempt.outcome .acquire fun _ ↦
      if kernelSemaphoreIsValid semaphore then .acquired else .nothing)
  | .tryAcquire =>
    let (semaphore, acquired) := kernelSemaphoreTryAcquire semaphore
    (k, semaphore, .returns (if acquired then .acquired else .nothing))
  | .release =>
    let (k, semaphore, released) := kernelSemaphoreRelease k semaphore
    (k, semaphore, .returns (if released then .released else .nothing))
  | .yield => (k, semaphore, .yields .nothing)

/-- Every process may make every call at any time. -/
def semaphoreProtocol (n : ℕ) (κ : Type) :
    Protocol n κ (KernelSemaphore κ) SemaphoreOp SemaphoreResult where
  may _ _ _ := true
  round _ op k semaphore := semaphoreRound op k semaphore

/-- How many calls did the given thing. -/
def countResult (result : SemaphoreResult) (log : List (Fin n × SemaphoreResult)) : ℕ :=
  log.countP fun entry ↦ entry.2 = result

/-- The processes have not run, and the semaphore is as `kernel_semaphore_create` leaves it. -/
def SemaphoreStart (initialCount maxCount : UInt32)
    (s : Coop n Unit (KernelSemaphore Unit) SemaphoreOp SemaphoreResult) : Prop :=
  s.Fresh ∧ ∃ memory nextChannel, kernelSemaphoreCreate initialCount maxCount () memory =
    some (s.object, s.kernel.queues, nextChannel)

/-! ## The invariant -/

/-- Tokens are conserved, and there are as many processes on the way as tokens. -/
structure SemaphoreInv [DecidableEq κ] (initialCount maxCount : UInt32) (f : Fin n → Place κ)
    (semaphore : KernelSemaphore κ) (log : List (Fin n × SemaphoreResult)) : Prop where
  valid : kernelSemaphoreIsValid semaphore = true
  max : semaphore.maxCount = maxCount
  bound : semaphore.count ≤ semaphore.maxCount
  tokens : semaphore.count.toNat + countResult .acquired log
    = initialCount.toNat + countResult .released log
  attended : Attended semaphore.count.toNat semaphore.waitQueue f

/-- With what a process goes on that waits on the queue of the semaphore. -/
def SemaphoreParked (semaphore : KernelSemaphore κ) (_ : Fin n) (queue : κ) (op : SemaphoreOp) :
    Prop :=
  op = .acquire ∧ queue = semaphore.waitQueue

theorem wakes_semaphoreRound (op : SemaphoreOp) (k : Kernel n κ) (semaphore : KernelSemaphore κ) :
    k.Wakes (semaphoreRound op k semaphore).1 := by
  cases op with
  | acquire | tryAcquire | yield => exact .refl k
  | release => exact wakes_kernelSemaphoreRelease k semaphore

theorem semaphoreRound_waitQueue (op : SemaphoreOp) (k : Kernel n κ)
    (semaphore : KernelSemaphore κ) :
    (semaphoreRound op k semaphore).2.1.waitQueue = semaphore.waitQueue := by
  cases op with
  | yield => rfl
  | acquire => exact kernelSemaphoreAcquire_waitQueue semaphore
  | tryAcquire => exact kernelSemaphoreTryAcquire_waitQueue semaphore
  | release => exact kernelSemaphoreRelease_waitQueue k semaphore

theorem semaphoreRound_waits {op next : SemaphoreOp} {k : Kernel n κ}
    {semaphore : KernelSemaphore κ} {queue : κ}
    (h : (semaphoreRound op k semaphore).2.2 = .waits queue next) :
    next = .acquire ∧ queue = semaphore.waitQueue := by
  cases op with
  | yield | tryAcquire | release => simp [semaphoreRound] at h
  | acquire =>
    obtain ⟨hwait, rfl⟩ := Attempt.outcome_eq_waits h
    exact ⟨rfl, kernelSemaphoreAcquire_wait semaphore hwait⟩

theorem semaphore_lawful : (semaphoreProtocol n κ).Lawful SemaphoreParked where
  wakes _ op k semaphore := wakes_semaphoreRound op k semaphore
  parks {i op k semaphore queue next} _ h := by
    rw [SemaphoreParked, show ((semaphoreProtocol n κ).round i op k semaphore).2.1.waitQueue = _
      from semaphoreRound_waitQueue op k semaphore]
    exact semaphoreRound_waits h
  stays {i op k semaphore j queue next} _ h := by
    rw [SemaphoreParked, show ((semaphoreProtocol n κ).round i op k semaphore).2.1.waitQueue = _
      from semaphoreRound_waitQueue op k semaphore]
    exact h

section Inv

variable [DecidableEq κ] {initialCount maxCount : UInt32} {f f' : Fin n → Place κ}
  {semaphore : KernelSemaphore κ} {log : List (Fin n × SemaphoreResult)} {i : Fin n}

theorem SemaphoreInv.nothing (h : SemaphoreInv initialCount maxCount f semaphore log) :
    SemaphoreInv initialCount maxCount f semaphore (log ++ [(i, .nothing)]) := by
  refine { h with tokens := ?_ }
  simpa [countResult] using h.tokens

theorem SemaphoreInv.move (h : SemaphoreInv initialCount maxCount f semaphore log)
    (hattended : Attended semaphore.count.toNat semaphore.waitQueue f') :
    SemaphoreInv initialCount maxCount f' semaphore log :=
  { h with attended := hattended }

theorem SemaphoreInv.take (h : SemaphoreInv initialCount maxCount f semaphore log)
    (hne : semaphore.count ≠ 0)
    (hattended : Attended (semaphore.count.toNat - 1) semaphore.waitQueue f') :
    SemaphoreInv initialCount maxCount f' { semaphore with count := semaphore.count - 1 }
      (log ++ [(i, .acquired)]) := by
  have hpos : semaphore.count.toNat ≠ 0 := fun hzero ↦ hne (UInt32.toNat_inj.mp hzero)
  have hone : (1 : UInt32) ≤ semaphore.count := by
    rw [UInt32.le_iff_toNat_le, UInt32.toNat_one]
    omega
  have hsub : (semaphore.count - 1).toNat = semaphore.count.toNat - 1 := by
    rw [UInt32.toNat_sub_of_le _ _ hone, UInt32.toNat_one]
  have hbound := UInt32.le_iff_toNat_le.mp h.bound
  have htokens := h.tokens
  refine ⟨h.valid, h.max, ?_, ?_, ?_⟩
  · rw [UInt32.le_iff_toNat_le, hsub]
    exact (Nat.sub_le _ _).trans hbound
  · rw [hsub]
    simp only [countResult, List.countP_append, List.countP_singleton] at htokens ⊢
    simp only [decide_true, if_true, reduceCtorEq, decide_false, Bool.false_eq_true, if_false]
    omega
  · rw [hsub]
    exact hattended

theorem SemaphoreInv.give (h : SemaphoreInv initialCount maxCount f semaphore log)
    (hne : semaphore.count ≠ semaphore.maxCount)
    (hattended : Attended (semaphore.count.toNat + 1) semaphore.waitQueue f') :
    SemaphoreInv initialCount maxCount f' { semaphore with count := semaphore.count + 1 }
      (log ++ [(i, .released)]) := by
  have hbound := UInt32.le_iff_toNat_le.mp h.bound
  have hlt : semaphore.count.toNat < semaphore.maxCount.toNat :=
    lt_of_le_of_ne hbound fun heq ↦ hne (UInt32.toNat_inj.mp heq)
  have hadd : (semaphore.count + 1).toNat = semaphore.count.toNat + 1 := by
    have hmax := semaphore.maxCount.toNat_lt
    rw [UInt32.toNat_add, UInt32.toNat_one, Nat.mod_eq_of_lt (by omega)]
  have htokens := h.tokens
  refine ⟨h.valid, h.max, ?_, ?_, ?_⟩
  · rw [UInt32.le_iff_toNat_le, hadd]
    exact hlt
  · rw [hadd]
    simp only [countResult, List.countP_append, List.countP_singleton] at htokens ⊢
    simp only [decide_true, if_true, reduceCtorEq, decide_false, Bool.false_eq_true, if_false]
    omega
  · rw [hadd]
    exact hattended

end Inv

/-- **What the calls keep.** -/
theorem semaphore_keeps [DecidableEq κ] (initialCount maxCount : UInt32) :
    (semaphoreProtocol n κ).Keeps SemaphoreParked (fun _ _ _ ↦ True)
      (fun _ ↦ SemaphoreInv initialCount maxCount) where
  wake h hi := h.move (h.attended.wake hi)
  switch h _ hi := h.move (h.attended.update (by simp [hi]) (by simp))
  round {s i op f} hsound hi _ henters h := by
    change Protocol.Settles _ i { s with kernel := (semaphoreRound op s.kernel s.object).1 }.place
      (semaphoreRound op s.kernel s.object).2.1 s.log (semaphoreRound op s.kernel s.object).2.2
    cases op with
    | acquire =>
      rw [semaphoreRound, kernelSemaphoreAcquire_eq h.valid]
      by_cases hzero : s.object.count = 0
      · -- without tokens any number of processes may sleep
        rw [if_pos hzero]
        refine h.move ?_
        rw [hzero]
        exact .zero _ _
      · rw [if_neg hzero]
        simp only [Attempt.outcome, h.valid, if_true, Protocol.Settles]
        exact h.take hzero (henters.attended_back hi h.attended)
    | tryAcquire =>
      obtain rfl := henters.of_call (by simp [SemaphoreParked])
      rw [semaphoreRound, kernelSemaphoreTryAcquire_eq h.valid]
      by_cases hzero : s.object.count = 0
      · rw [if_pos hzero]
        exact h.nothing
      · rw [if_neg hzero]
        exact h.take hzero (h.attended.mono (Nat.sub_le _ _))
    | release =>
      obtain rfl := henters.of_call (by simp [SemaphoreParked])
      rw [semaphoreRound, kernelSemaphoreRelease_eq h.valid]
      by_cases hmax : s.object.count = s.object.maxCount
      · rw [if_pos hmax]
        exact h.nothing
      · rw [if_neg hmax]
        exact h.give hmax (h.attended.of_wakesOne (hsound.place_wakeOneWaiter rfl rfl))
    | yield =>
      obtain rfl := henters.of_call (by simp [SemaphoreParked])
      exact (h.move (h.attended.update (by simp [hi]) (by simp))).nothing

theorem SemaphoreStart.good {initialCount maxCount : UInt32}
    {s : Coop n Unit (KernelSemaphore Unit) SemaphoreOp SemaphoreResult}
    (h : SemaphoreStart initialCount maxCount s) :
    Protocol.Good SemaphoreParked (fun _ ↦ SemaphoreInv initialCount maxCount) s := by
  obtain ⟨hfresh, memory, nextChannel, hcreate⟩ := h
  rw [kernelSemaphoreCreate] at hcreate
  split_ifs at hcreate with hreject
  rw [not_or, gt_iff_lt, UInt32.not_lt] at hreject
  simp only [kernelWaitQueueCreate, Option.some_inj, Prod.mk.injEq] at hcreate
  obtain ⟨hobject, hqueues, -⟩ := hcreate
  refine ⟨hfresh.sound ?_ ?_ ?_, ?_, fun i queue op hp ↦ ?_⟩
  · intro queue
    rw [Kernel.kernelWaitQueueIsValid, ← hqueues]
    rfl
  · exact fun _ _ _ ↦ rfl
  · rw [← hqueues]
    exact fun _ ↦ rfl
  · rw [hfresh.place, hfresh.log, ← hobject]
    exact ⟨rfl, rfl, hreject.2, rfl, Or.inl (by simp)⟩
  · rw [hfresh.pending i] at hp
    cases hp

/-- **Semaphores conserve their tokens.** In every interleaving of the calls on a semaphore the
count stays within its bounds and is the initial one with the releases added and the acquisitions
taken off; and no process is blocked on it, or as many have been woken and are not yet back as
there are tokens. -/
theorem semaphore_tokens {capacity initialCount maxCount : UInt32}
    {s : Coop capacity.toNat Unit (KernelSemaphore Unit) SemaphoreOp SemaphoreResult}
    (h : (semaphoreProtocol capacity.toNat Unit).Reaches (SemaphoreStart initialCount maxCount)
      (fun _ _ ↦ True) s) :
    s.object.maxCount = maxCount ∧ s.object.count ≤ maxCount ∧
    s.object.count.toNat + countResult .acquired s.log
      = initialCount.toNat + countResult .released s.log ∧
    ((∀ i, ¬ s.BlockedOn s.object.waitQueue i) ∨
      ∃ woken : Finset (Fin capacity.toNat), (∀ i ∈ woken, s.WokenOn s.object.waitQueue i) ∧
        s.object.count.toNat ≤ woken.card) := by
  obtain ⟨hsound, hinv, -⟩ := (semaphore_keeps initialCount maxCount).reaches semaphore_lawful
    capacity.toNat_lt (fun s ↦ SemaphoreStart.good) (fun _ _ _ _ _ _ _ ↦ trivial) h
  simp only [hsound.blockedOn_iff, hsound.wokenOn_iff]
  refine ⟨hinv.max, hinv.max ▸ hinv.bound, hinv.tokens, hinv.attended.imp_right fun hle ↦ ?_⟩
  exact ⟨Finset.univ.filter fun i ↦ s.place i = .woken s.object.waitQueue, by simp, hle⟩

/-- Three processes and a new semaphore without tokens. -/
def threeAtSemaphore :
    Coop (3 : UInt32).toNat Unit (KernelSemaphore Unit) SemaphoreOp SemaphoreResult :=
  .init (readyProcesses _) (fun _ ↦ ⟨kernelWaitQueueMagic, 0x1000, 0⟩)
    { magic := kernelSemaphoreMagic, count := 0, maxCount := 2, waitQueue := () }

/-- Two processes sleep. The third releases a token, which wakes one of them, takes the token
itself, and releases it again for the other one. The first is back in vain. -/
def semaphoreLabels : List (CoopLabel (3 : UInt32).toNat SemaphoreOp) :=
  [.resume 0, .call .acquire, .resume 1, .call .acquire,
    .resume 2, .call .release, .call .tryAcquire, .call .yield,
    .resume 0, .resume 2, .call .release]

theorem semaphore_tokens_three :
    let s := (semaphoreProtocol _ _).run threeAtSemaphore semaphoreLabels
    s.log.map Prod.snd = [.released, .acquired, .nothing, .released] ∧ s.object.count = 1 ∧
    ((∀ i, ¬ s.BlockedOn s.object.waitQueue i) ∨
      ∃ woken : Finset (Fin _), (∀ i ∈ woken, s.WokenOn s.object.waitQueue i) ∧
        s.object.count.toNat ≤ woken.card) := by
  have hreaches : (semaphoreProtocol _ _).Reaches (SemaphoreStart 0 2) (fun _ _ ↦ True)
      ((semaphoreProtocol _ _).run threeAtSemaphore semaphoreLabels) :=
    Protocol.Reaches.run (.start ⟨Coop.init_fresh _ _ fun _ ↦ rfl,
      (fun _ ↦ ⟨0, 0, 0⟩, 0x1000), _, rfl⟩) semaphoreLabels
  obtain ⟨-, -, -, hattended⟩ := semaphore_tokens hreaches
  exact ⟨by decide +kernel, by decide +kernel, hattended⟩

end TensorOS
