import TensorOS.Ipc.WaitQueue
import TensorOS.Lib.Tally
import TensorOS.Lib.Transition

/-!
# Cooperative processes

Processes call the operations of an object that lives in the kernel: a mailbox, a semaphore, a
mutex. A call that has to wait is a loop around `kernel_wait_queue_wait`, so the calls are
described by their *rounds*: what a call does between two switches. A round returns to the caller,
or gives up the processor and returns, or waits on a queue and goes on with another round when the
process is back.

A process leaves the processor inside `kernel_wait_queue_wait` and in `process_yield` only, and any
READY process may take it. `process_wake` may be called at any time.

## Places

What matters of a process for the others is its place: running, away, asleep on a queue, or woken
and not yet back. Everything is proved over the places, by `Coop.invariant`: the invariant of an
object has to survive a wake-up, a switch, and a round, and a round changes the places by waking
processes.
-/

namespace TensorOS

/-- How a round ends. -/
inductive Outcome (κ Op ρ : Type)
  | returns (result : ρ)
  | yields (result : ρ)
  | waits (queue : κ) (next : Op)
  deriving DecidableEq

/-- One turn of the loop of a blocking call: it is done, or waits on a queue. -/
inductive Attempt (κ α : Type)
  | done (value : α)
  | wait (queue : κ)
  deriving DecidableEq

/-- The loop goes round again after the wait. -/
def Attempt.outcome {κ Op ρ α : Type} (again : Op) (result : α → ρ) :
    Attempt κ α → Outcome κ Op ρ
  | .done value => .returns (result value)
  | .wait queue => .waits queue again

theorem Attempt.outcome_eq_waits {κ Op ρ α : Type} {again next : Op} {result : α → ρ} {queue : κ}
    {attempt : Attempt κ α} (h : attempt.outcome again result = .waits queue next) :
    attempt = .wait queue ∧ again = next := by
  cases attempt with
  | done value => cases h
  | wait queue' =>
    rw [Attempt.outcome, Outcome.waits.injEq] at h
    exact ⟨by rw [h.1], h.2⟩

/-- The calls of an object: which ones a process may make, and the rounds. -/
structure Protocol (n : ℕ) (κ σ Op ρ : Type) where
  may : σ → Fin n → Op → Bool
  round : Fin n → Op → Kernel n κ → σ → Kernel n κ × σ × Outcome κ Op ρ

/-- The state of a system of processes around an object. `pending` tells where a process inside
`kernel_wait_queue_wait` goes on, and `log` lists what the calls have returned. -/
structure Coop (n : ℕ) (κ σ Op ρ : Type) where
  kernel : Kernel n κ
  object : σ
  pending : Fin n → Option (κ × Op)
  log : List (Fin n × ρ)

/-- What may happen next. -/
inductive CoopLabel (n : ℕ) (Op : Type)
  | call (op : Op)
  | resume (index : Fin n)
  | wake (pid : UInt32)
  deriving DecidableEq

/-- Whether it is a wake-up from outside. -/
def CoopLabel.isWake {n : ℕ} {Op : Type} : CoopLabel n Op → Bool
  | .wake _ => true
  | _ => false

/-- The place of a process. -/
inductive Place (κ : Type)
  | away
  | running
  | asleep (queue : κ)
  | woken (queue : κ)
  deriving DecidableEq

variable {n : ℕ} {κ σ Op ρ : Type}

/-- The pid of an entry of the process table, if the entry is in use. -/
def Process.ident (process : Process) : Option UInt32 :=
  if process.state = .unused then none else some process.pid

theorem Process.ident_of_ne {process : Process} (h : process.state ≠ .unused) :
    process.ident = some process.pid := if_neg h

namespace Coop

/-- The place of a process. -/
def place (s : Coop n κ σ Op ρ) (i : Fin n) : Place κ :=
  match s.pending i with
  | none => if s.kernel.current = some i then .running else .away
  | some (queue, _) =>
    if (s.kernel.processes i).state = .blocked then .asleep queue else .woken queue

/-- The pids of the processes. An unused entry of the table has none. -/
def pids (s : Coop n κ σ Op ρ) (i : Fin n) : Option UInt32 := (s.kernel.processes i).ident

/-- The process is blocked on the queue. -/
def BlockedOn (s : Coop n κ σ Op ρ) (queue : κ) (i : Fin n) : Prop :=
  ProcessCore.waitsOn (s.kernel.queues queue).channel (s.kernel.processes i) = true

instance (s : Coop n κ σ Op ρ) (queue : κ) (i : Fin n) : Decidable (s.BlockedOn queue i) :=
  inferInstanceAs (Decidable (_ = true))

/-- The process has been woken on the queue, and not yet resumed. -/
def WokenOn (s : Coop n κ σ Op ρ) (queue : κ) (i : Fin n) : Prop :=
  (s.kernel.processes i).state = .ready ∧ ∃ op, s.pending i = some (queue, op)

/-- No process has run. -/
structure Fresh (s : Coop n κ σ Op ρ) : Prop where
  current : s.kernel.current = none
  idle : ∀ i, (s.kernel.processes i).state ≠ .running ∧ (s.kernel.processes i).state ≠ .blocked
  pending : ∀ i, s.pending i = none
  log : s.log = []

/-- Processes that have not run, around an object. -/
def init (processes : ProcessTable n) (queues : κ → KernelWaitQueue) (object : σ) :
    Coop n κ σ Op ρ where
  kernel := { processes := processes, current := none, queues := queues }
  object := object
  pending _ := none
  log := []

theorem init_fresh {processes : ProcessTable n} (queues : κ → KernelWaitQueue) (object : σ)
    (hidle : ∀ i, (processes i).state = .ready) :
    (init processes queues object : Coop n κ σ Op ρ).Fresh :=
  ⟨rfl, fun i ↦ by simp [init, hidle i], fun _ ↦ rfl, rfl⟩

end Coop

/-- Numerals for the processes of small systems. -/
instance neZeroToNatThree : NeZero (3 : UInt32).toNat := ⟨by decide⟩

/-- A table of READY processes with the pids 1, 2 and so on. -/
def readyProcesses (n : ℕ) : ProcessTable n := fun i ↦
  { ProcessCore.resetSlot with pid := UInt32.ofNat (i.val + 1), state := .ready }

namespace Protocol

variable [DecidableEq κ] (P : Protocol n κ σ Op ρ)

/-- What comes before a round, and the round that follows. -/
def enter (s : Coop n κ σ Op ρ) : CoopLabel n Op → Coop n κ σ Op ρ × Option (Fin n × Op)
  | .call op =>
    match s.kernel.current with
    | none => (s, none)
    | some i =>
      (s, if (s.pending i).isNone ∧ P.may s.object i op = true then some (i, op) else none)
  | .resume i =>
    if s.kernel.current = none ∧ (s.kernel.processes i).state = .ready then
      match s.pending i with
      | none => ({ s with kernel := s.kernel.switchTo i }, none)
      | some (queue, op) =>
        ({ s with
            kernel := (s.kernel.switchTo i).kernelWaitQueueWaitFinish queue
            pending := Function.update s.pending i none }, some (i, op))
    else (s, none)
  | .wake pid => ({ s with kernel := s.kernel.processWake pid }, none)

variable {P} in
theorem op_of_enter_call {s t : Coop n κ σ Op ρ} {op op' : Op} {i : Fin n}
    (h : P.enter s (.call op) = (t, some (i, op'))) : op' = op := by
  rw [enter] at h
  split at h
  · cases h
  · rw [Prod.mk.injEq] at h
    have hnext := h.2
    split_ifs at hnext
    rw [Option.some_inj, Prod.mk.injEq] at hnext
    exact hnext.2.symm

/-- A process that was not waiting is back without a round. -/
theorem enter_resume_of_none {s : Coop n κ σ Op ρ} {i : Fin n} (h : s.pending i = none) :
    (P.enter s (.resume i)).2 = none := by
  rw [enter, h]
  split <;> rfl

/-- The running process does a round. -/
def perform (s : Coop n κ σ Op ρ) (i : Fin n) (op : Op) : Coop n κ σ Op ρ :=
  match P.round i op s.kernel s.object with
  | (kernel, object, .returns result) =>
    { s with kernel := kernel, object := object, log := s.log ++ [(i, result)] }
  | (kernel, object, .yields result) =>
    { s with kernel := kernel.processYield, object := object, log := s.log ++ [(i, result)] }
  | (kernel, object, .waits queue next) =>
    { s with
      kernel := kernel.kernelWaitQueueWaitStart queue
      object := object
      pending := Function.update s.pending i (some (queue, next)) }

/-- A step. A label that does not apply changes nothing. -/
def step (s : Coop n κ σ Op ρ) (l : CoopLabel n Op) : Coop n κ σ Op ρ :=
  match P.enter s l with
  | (t, none) => t
  | (t, some (i, op)) => P.perform t i op

/-- Several steps. -/
def run (s : Coop n κ σ Op ρ) (labels : List (CoopLabel n Op)) : Coop n κ σ Op ρ :=
  labels.foldl P.step s

/-- The states reached by steps with labels that are allowed. -/
def Reaches (start : Coop n κ σ Op ρ → Prop) (ok : Coop n κ σ Op ρ → CoopLabel n Op → Prop) :
    Coop n κ σ Op ρ → Prop :=
  Reachable start fun s t ↦ ∃ l, ok s l ∧ t = P.step s l

/-- The round of a step is done under a condition. -/
def Obeys (cond : Coop n κ σ Op ρ → Fin n → Op → Prop) (s : Coop n κ σ Op ρ)
    (l : CoopLabel n Op) : Prop :=
  match P.enter s l with
  | (t, some (i, op)) => cond t i op
  | (_, none) => True

variable {P} in
theorem Obeys.round {cond : Coop n κ σ Op ρ → Fin n → Op → Prop} {s t : Coop n κ σ Op ρ}
    {l : CoopLabel n Op} {i : Fin n} {op : Op} (h : P.Obeys cond s l)
    (henter : P.enter s l = (t, some (i, op))) : cond t i op := by
  rwa [Obeys, henter] at h

instance (cond : Coop n κ σ Op ρ → Fin n → Op → Prop) [∀ s i op, Decidable (cond s i op)]
    (s : Coop n κ σ Op ρ) (l : CoopLabel n Op) : Decidable (P.Obeys cond s l) :=
  match h : P.enter s l with
  | (t, some (i, op)) => decidable_of_iff (cond t i op) (by rw [Obeys, h])
  | (_, none) => isTrue (by rw [Obeys, h]; trivial)

/-- The labels are allowed one after the other. -/
def allows (ok : Coop n κ σ Op ρ → CoopLabel n Op → Prop) [∀ s l, Decidable (ok s l)] :
    Coop n κ σ Op ρ → List (CoopLabel n Op) → Bool
  | _, [] => true
  | s, l :: labels => decide (ok s l) && allows ok (P.step s l) labels

variable {P} in
theorem Reaches.run_of_allows {start : Coop n κ σ Op ρ → Prop}
    {ok : Coop n κ σ Op ρ → CoopLabel n Op → Prop} [∀ s l, Decidable (ok s l)]
    {s : Coop n κ σ Op ρ} (h : P.Reaches start ok s) {labels : List (CoopLabel n Op)}
    (hallows : P.allows ok s labels = true) : P.Reaches start ok (P.run s labels) := by
  induction labels generalizing s with
  | nil => exact h
  | cons l labels ih =>
    rw [allows, Bool.and_eq_true, decide_eq_true_eq] at hallows
    exact ih (.step h ⟨l, hallows.1, rfl⟩) hallows.2

variable {P} in
/-- A run without conditions can go on with any labels. -/
theorem Reaches.run {start : Coop n κ σ Op ρ → Prop} {s : Coop n κ σ Op ρ}
    (h : P.Reaches start (fun _ _ ↦ True) s) (labels : List (CoopLabel n Op)) :
    P.Reaches start (fun _ _ ↦ True) (P.run s labels) := by
  induction labels generalizing s with
  | nil => exact h
  | cons l labels ih => exact ih (.step h ⟨l, trivial, rfl⟩)

end Protocol

/-! ## The kernel's part of the invariant -/

namespace Kernel

/-- Some blocked processes are made READY. -/
structure Wakes (k k' : Kernel n κ) : Prop where
  current : k'.current = k.current
  queues : k'.queues = k.queues
  processes : ∀ i, k'.processes i = k.processes i ∨
    k'.processes i = ProcessCore.makeReady (k.processes i)

variable {k : Kernel n κ}

theorem Wakes.ident {k' : Kernel n κ} (h : k.Wakes k') (i : Fin n) :
    (k'.processes i).ident = (k.processes i).ident := by
  obtain heq | heq := h.processes i
  · rw [heq]
  · rw [heq, Process.ident, Process.ident, ProcessCore.makeReady_state,
      ProcessCore.makeReady_pid]
    split_ifs <;> simp_all

/-- A process in use keeps its pid whatever else is written to its entry. -/
theorem ident_update {processes : ProcessTable n} {i : Fin n} {process : Process}
    (hused : (processes i).state ≠ .unused) (hstate : process.state ≠ .unused)
    (hpid : process.pid = (processes i).pid) (j : Fin n) :
    (Function.update processes i process j).ident = (processes j).ident := by
  by_cases hj : j = i
  · rw [hj, Function.update_self, Process.ident_of_ne hused, Process.ident_of_ne hstate, hpid]
  · rw [Function.update_of_ne hj]

theorem switchTo_ident {i : Fin n} (hused : (k.processes i).state ≠ .unused) (j : Fin n) :
    ((k.switchTo i).processes j).ident = (k.processes j).ident :=
  ident_update hused (by simp) (by rfl) j

theorem processYield_ident {i : Fin n} (hcurrent : k.current = some i)
    (hused : (k.processes i).state ≠ .unused) (j : Fin n) :
    (k.processYield.processes j).ident = (k.processes j).ident := by
  simp only [processYield, hcurrent]
  exact ident_update hused (by simp) (by rfl) j

theorem kernelWaitQueueWaitStart_ident [DecidableEq κ] {i : Fin n} (hcurrent : k.current = some i)
    (hused : (k.processes i).state ≠ .unused) (queue : κ) (j : Fin n) :
    ((k.kernelWaitQueueWaitStart queue).processes j).ident = (k.processes j).ident := by
  rw [kernelWaitQueueWaitStart]
  split
  · simp only [processWaitChannel, hcurrent]
    exact ident_update hused (by simp [ProcessCore.block]) (by rfl) j
  · rfl

theorem kernelWaitQueueWaitFinish_processes [DecidableEq κ] (k : Kernel n κ) (queue : κ) :
    (k.kernelWaitQueueWaitFinish queue).processes = k.processes := by
  simp only [kernelWaitQueueWaitFinish]
  split <;> rfl

theorem Wakes.refl (k : Kernel n κ) : k.Wakes k := ⟨rfl, rfl, fun _ ↦ Or.inl rfl⟩

theorem Wakes.one (k : Kernel n κ) (i : Fin n) : k.Wakes { k with
    processes := Function.update k.processes i (ProcessCore.makeReady (k.processes i)) } := by
  refine ⟨rfl, rfl, fun j ↦ ?_⟩
  by_cases hj : j = i
  · right
    simp [hj]
  · left
    simp [hj]

theorem wakes_processWake (k : Kernel n κ) (pid : UInt32) : k.Wakes (k.processWake pid) := by
  rw [processWake]
  split
  · exact .refl k
  · exact .one k _

theorem wakes_wakeOneWaiter (k : Kernel n κ) (queue : κ) : k.Wakes (k.wakeOneWaiter queue) := by
  rw [wakeOneWaiter]
  split_ifs
  · by_cases hvalid : k.kernelWaitQueueIsValid queue = true
    · obtain ⟨i, -, heq⟩ | ⟨-, heq⟩ := kernelWaitQueueWakeOne_cases hvalid
      · rw [heq]
        exact .one k i
      · rw [heq]
        exact .refl k
    · rw [kernelWaitQueueWakeOne, if_neg hvalid]
      exact .refl k
  · exact .refl k

theorem wakes_wakeAll (k : Kernel n κ) (queue : κ) :
    k.Wakes (k.kernelWaitQueueWakeAll queue).1 := by
  by_cases hvalid : k.kernelWaitQueueIsValid queue = true
  · rw [kernelWaitQueueWakeAll_eq hvalid]
    refine ⟨rfl, rfl, fun i ↦ ?_⟩
    dsimp only
    split
    · exact Or.inr rfl
    · exact Or.inl rfl
  · rw [kernelWaitQueueWakeAll, if_neg hvalid]
    exact .refl k

end Kernel

/-- Where a wake-up takes a process. -/
def Place.wake : Place κ → Place κ
  | .asleep queue => .woken queue
  | place => place

namespace Coop

/-- The table, the running process and the pending call of a process fit together. -/
def Standing (s : Coop n κ σ Op ρ) (i : Fin n) : Prop :=
  match s.pending i with
  | none => (s.kernel.processes i).state ≠ .blocked ∧
      ((s.kernel.processes i).state = .running ↔ s.kernel.current = some i)
  | some (queue, _) => s.kernel.current ≠ some i ∧
      ((s.kernel.processes i).state = .ready ∨ s.BlockedOn queue i)

/-- The queue inside whose `kernel_wait_queue_wait` the process is. -/
def site (s : Coop n κ σ Op ρ) (i : Fin n) : Option κ := (s.pending i).map Prod.fst

/-- The processes stand where they should, the queues are usable and count the processes that are
inside `kernel_wait_queue_wait`. -/
structure Sound [DecidableEq κ] (s : Coop n κ σ Op ρ) : Prop where
  standing : ∀ i, s.Standing i
  valid : ∀ queue, s.kernel.kernelWaitQueueIsValid queue = true
  channels : Function.Injective fun queue ↦ (s.kernel.queues queue).channel
  counts : ∀ queue, (s.kernel.queues queue).waiterCount.toNat =
    tally fun i ↦ s.site i = some queue

section Standing

variable {s t : Coop n κ σ Op ρ} {i : Fin n} {queue : κ} {op : Op}

theorem BlockedOn.blocked (h : s.BlockedOn queue i) : (s.kernel.processes i).state = .blocked := by
  rw [BlockedOn, ProcessCore.waitsOn, decide_eq_true_eq] at h
  exact h.1

theorem standing_of_none (h : s.pending i = none) : s.Standing i ↔
    (s.kernel.processes i).state ≠ .blocked ∧
      ((s.kernel.processes i).state = .running ↔ s.kernel.current = some i) := by
  rw [Standing, h]

theorem standing_of_some (h : s.pending i = some (queue, op)) : s.Standing i ↔
    s.kernel.current ≠ some i ∧ ((s.kernel.processes i).state = .ready ∨ s.BlockedOn queue i) := by
  rw [Standing, h]

theorem place_of_none (h : s.pending i = none) :
    s.place i = if s.kernel.current = some i then .running else .away := by
  rw [place, h]

theorem place_of_some (h : s.pending i = some (queue, op)) :
    s.place i =
      if (s.kernel.processes i).state = .blocked then .asleep queue else .woken queue := by
  rw [place, h]

theorem place_eq_running :
    s.place i = .running ↔ s.pending i = none ∧ s.kernel.current = some i := by
  cases h : s.pending i with
  | none => simp [place_of_none h]
  | some p =>
    obtain ⟨q, o⟩ := p
    rw [place_of_some h]
    split <;> simp

theorem place_eq_asleep : s.place i = .asleep queue ↔
    (∃ op, s.pending i = some (queue, op)) ∧ (s.kernel.processes i).state = .blocked := by
  cases h : s.pending i with
  | none =>
    rw [place_of_none h]
    split <;> simp
  | some p =>
    obtain ⟨q, o⟩ := p
    rw [place_of_some h]
    split <;> simp_all

theorem place_eq_woken : s.place i = .woken queue ↔
    (∃ op, s.pending i = some (queue, op)) ∧ (s.kernel.processes i).state ≠ .blocked := by
  cases h : s.pending i with
  | none =>
    rw [place_of_none h]
    split <;> simp
  | some p =>
    obtain ⟨q, o⟩ := p
    rw [place_of_some h]
    split <;> simp_all

/-- A process of which nothing changes stays where it is. -/
theorem Standing.congr (h : s.Standing i) (hpending : t.pending i = s.pending i)
    (hprocess : t.kernel.processes i = s.kernel.processes i)
    (hcurrent : t.kernel.current = some i ↔ s.kernel.current = some i)
    (hchannel : ∀ queue, (t.kernel.queues queue).channel = (s.kernel.queues queue).channel) :
    t.Standing i := by
  simpa only [Standing, BlockedOn, hpending, hprocess, hcurrent, hchannel, ne_eq] using h

theorem place_congr (hpending : t.pending i = s.pending i)
    (hprocess : t.kernel.processes i = s.kernel.processes i)
    (hcurrent : t.kernel.current = some i ↔ s.kernel.current = some i) : t.place i = s.place i := by
  simp only [place, hpending, hprocess, hcurrent]

end Standing

/-! ## Waking processes -/

section Wakes

variable {s t : Coop n κ σ Op ρ} {i : Fin n}

theorem Standing.wakes (h : s.Standing i) (hpending : t.pending = s.pending)
    (hw : s.kernel.Wakes t.kernel) : t.Standing i := by
  obtain heq | heq := hw.processes i
  · exact h.congr (by rw [hpending]) heq (by rw [hw.current]) fun queue ↦ by rw [hw.queues]
  cases hp : s.pending i with
  | none =>
    rw [standing_of_none hp] at h
    rw [ProcessCore.makeReady_of_ne _ h.1] at heq
    rw [standing_of_none (hpending ▸ hp), heq, hw.current]
    exact h
  | some p =>
    obtain ⟨queue, op⟩ := p
    rw [standing_of_some hp] at h
    rw [standing_of_some (hpending ▸ hp), heq, hw.current, ProcessCore.makeReady_state]
    refine ⟨h.1, Or.inl ?_⟩
    split
    · rfl
    · next hne => exact h.2.resolve_right fun hb ↦ hne hb.blocked

theorem place_makeReady (hpending : t.pending = s.pending)
    (hcurrent : t.kernel.current = s.kernel.current)
    (hprocess : t.kernel.processes i = ProcessCore.makeReady (s.kernel.processes i)) :
    t.place i = (s.place i).wake := by
  cases hp : s.pending i with
  | none =>
    rw [place_of_none hp, place_of_none (hpending ▸ hp), hcurrent]
    split <;> rfl
  | some p =>
    obtain ⟨queue, op⟩ := p
    rw [place_of_some hp, place_of_some (hpending ▸ hp), hprocess, ProcessCore.makeReady_state]
    split <;> simp_all [Place.wake]

theorem place_of_wakes (hpending : t.pending = s.pending) (hw : s.kernel.Wakes t.kernel)
    (i : Fin n) : t.place i = s.place i ∨ t.place i = (s.place i).wake := by
  obtain heq | heq := hw.processes i
  · exact Or.inl (place_congr (by rw [hpending]) heq (by rw [hw.current]))
  · exact Or.inr (place_makeReady hpending hw.current heq)

theorem place_update_makeReady (hpending : t.pending = s.pending)
    (hkernel : t.kernel = { s.kernel with
      processes := Function.update s.kernel.processes i
        (ProcessCore.makeReady (s.kernel.processes i)) }) :
    t.place = Function.update s.place i (s.place i).wake := by
  funext j
  by_cases hj : j = i
  · subst hj
    rw [Function.update_self]
    exact place_makeReady hpending (by rw [hkernel]) (by simp [hkernel])
  · rw [Function.update_of_ne hj]
    exact place_congr (by rw [hpending]) (by simp [hkernel, hj]) (by rw [hkernel])

variable [DecidableEq κ]

theorem Sound.wakes (h : s.Sound) (hpending : t.pending = s.pending)
    (hw : s.kernel.Wakes t.kernel) : t.Sound := by
  refine ⟨fun i ↦ (h.standing i).wakes hpending hw, fun queue ↦ ?_, ?_, fun queue ↦ ?_⟩
  · rw [Kernel.kernelWaitQueueIsValid, hw.queues]
    exact h.valid queue
  · simpa only [hw.queues] using h.channels
  · rw [hw.queues, h.counts queue]
    exact tally_congr fun i ↦ by rw [site, site, hpending]

/-- A process is blocked on a queue in the table exactly when it sleeps there. -/
theorem Sound.blockedOn_iff (h : s.Sound) (queue : κ) (i : Fin n) :
    s.BlockedOn queue i ↔ s.place i = .asleep queue := by
  have hi := h.standing i
  rw [place_eq_asleep]
  constructor
  · intro hb
    cases hp : s.pending i with
    | none => exact absurd hb.blocked ((standing_of_none hp).mp hi).1
    | some p =>
      obtain ⟨queue', op⟩ := p
      obtain ⟨-, hready | hb'⟩ := (standing_of_some hp).mp hi
      · exact absurd (hb.blocked.symm.trans hready) (by decide)
      · rw [BlockedOn, ProcessCore.waitsOn, decide_eq_true_eq] at hb hb'
        rw [h.channels (hb.2.2.symm.trans hb'.2.2 : _)]
        exact ⟨⟨op, rfl⟩, hb.1⟩
  · rintro ⟨⟨op, hp⟩, hblocked⟩
    obtain ⟨-, hready | hb⟩ := (standing_of_some hp).mp hi
    · exact absurd (hblocked.symm.trans hready) (by decide)
    · exact hb

theorem Sound.wokenOn_iff (h : s.Sound) (queue : κ) (i : Fin n) :
    s.WokenOn queue i ↔ s.place i = .woken queue := by
  rw [place_eq_woken, WokenOn]
  constructor
  · rintro ⟨hready, hp⟩
    exact ⟨hp, by simp [hready]⟩
  · rintro ⟨⟨op, hp⟩, hne⟩
    obtain ⟨-, hready | hb⟩ := (standing_of_some hp).mp (h.standing i)
    · exact ⟨hready, op, hp⟩
    · exact absurd hb.blocked hne

end Wakes

end Coop

end TensorOS
