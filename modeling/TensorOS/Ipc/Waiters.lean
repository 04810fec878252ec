import TensorOS.Ipc.WaitQueue
import TensorOS.Lib.Tally
import TensorOS.Sched.Invariant

/-!
# Who is inside `kernel_wait_queue_wait`

A wait queue counts the processes inside `kernel_wait_queue_wait`. The count is raised before the
process leaves the processor and lowered when it is back, so it is right as long as every process
that goes in comes out. A process that is killed there does not come out: `process_kill` makes it a
zombie and knows nothing of the queue, and the count stays up for good.

The wait queues are put on top of the scheduler itself, with all its calls, the timer and the
points of `process_yield`, and any process may make any call of `wait_queue.c` at any time. Events,
semaphores, mutexes and mailboxes are programs over these calls. `inside` is what the stack of a
process says: on which queue it waits.

## The invariant

A process inside is alive, and if it is not on the processor it will return from `process_yield`
when it is (`Within`). This is what makes it come out: the scheduler cannot lose it, nor start it
anew. From there the counts are kept step by step.
-/

namespace TensorOS

open Scheduler

variable {κ : Type} {singleForeground : Bool}

/-- The scheduler, the wait queues, and where the processes are. -/
structure WaitSystem (κ : Type) where
  system : System
  queues : κ → KernelWaitQueue
  nextChannel : UInt32
  inside : Slot → Option κ

/-- A step of the scheduler, or a call of `wait_queue.c`. -/
inductive WaitLabel (κ : Type)
  | sched (l : Label)
  | create (queue : κ)
  | destroy (queue : κ)
  | wait (queue : κ)
  | wakeOne (queue : κ)
  | wakeAll (queue : κ)

/-- The step is a call of `process_kill`. -/
def WaitLabel.isKill : WaitLabel κ → Bool
  | .sched (.call (.kill _ _)) => true
  | _ => false

namespace WaitSystem

/-! ## The calls -/

variable [DecidableEq κ] (w : WaitSystem κ)

omit [DecidableEq κ] in
/-- `kernel_wait_queue_is_valid`. -/
def isValid (queue : κ) : Bool := (w.queues queue).magic = kernelWaitQueueMagic

/-- `kernel_wait_queue_destroy`, with whether it has destroyed the queue. -/
def destroy (queue : κ) : WaitSystem κ × Bool :=
  if w.isValid queue = false ∨ (w.queues queue).waiterCount ≠ 0 then (w, false)
  else
    ({ w with queues := Function.update w.queues queue { w.queues queue with magic := 0 } }, true)

/-- `kernel_wait_queue_wait` after `process_wait_channel`. -/
def leave (queue : κ) : WaitSystem κ :=
  let entry := w.queues queue
  if entry.waiterCount ≠ 0 then
    { w with
      queues :=
        Function.update w.queues queue { entry with waiterCount := entry.waiterCount - 1 } }
  else w

omit [DecidableEq κ] in
/-- The process that returns from `process_wait_channel` inside `kernel_wait_queue_wait`. -/
def returning (l : Label) : Option (Slot × κ) :=
  if l = .resume ∧ w.system.control = .resume .returns then
    w.system.scheduler.current.bind fun i ↦ (w.inside i).map fun queue ↦ (i, queue)
  else none

omit [DecidableEq κ] in
/-- The state after a step of the scheduler. Nobody is in a free slot. -/
def scheduled (system : System) : WaitSystem κ :=
  { w with
    system := system
    inside := fun i ↦ if system.scheduler.stateOf i = .unused then none else w.inside i }

/-- A step of the scheduler. The process that returns goes on in `kernel_wait_queue_wait`. -/
def schedule (singleForeground : Bool) (l : Label) : Except Fault (WaitSystem κ) := do
  let (system, _) ← w.system.step singleForeground l
  match w.returning l with
  | none => .ok (w.scheduled system)
  | some (i, queue) =>
    let out := (w.scheduled system).leave queue
    .ok { out with inside := Function.update out.inside i none }

/-- `kernel_wait_queue_wait`. Without a current process `process_wait_channel` returns at once. -/
def wait (singleForeground : Bool) (queue : κ) : Except Fault (WaitSystem κ) :=
  if w.isValid queue then do
    let entry := w.queues queue
    let counted := { w with
      queues :=
        Function.update w.queues queue { entry with waiterCount := entry.waiterCount + 1 } }
    let out ← counted.schedule singleForeground (.call (.waitChannel entry.channel))
    match w.system.scheduler.current with
    | some index => .ok { out with inside := Function.update out.inside index (some queue) }
    | none => .ok (out.leave queue)
  else .ok w

/-- **One step.** The calls of `wait_queue.c` are made by process code, and the allocator returns
the address of no queue that is alive. -/
def step (singleForeground : Bool) : WaitLabel κ → Except Fault (WaitSystem κ)
  | .sched l => w.schedule singleForeground l
  | .create queue =>
    if w.system.control = .user ∧ w.isValid queue = false then
      let memory := kernelWaitQueueCreate queue (w.queues, w.nextChannel)
      .ok { w with queues := memory.1, nextChannel := memory.2 }
    else .ok w
  | .destroy queue => if w.system.control = .user then .ok (w.destroy queue).1 else .ok w
  | .wait queue => if w.system.control = .user then w.wait singleForeground queue else .ok w
  | .wakeOne queue =>
    if w.system.control = .user ∧ w.isValid queue = true then
      w.schedule singleForeground (.call (.wakeFirstChannel (w.queues queue).channel))
    else .ok w
  | .wakeAll queue =>
    if w.system.control = .user ∧ w.isValid queue = true then
      w.schedule singleForeground (.call (.wakeChannel (w.queues queue).channel))
    else .ok w

/-! ## Runs -/

omit [DecidableEq κ] in
/-- The system at boot. No memory is a wait queue. -/
structure Initial : Prop where
  system : w.system = System.boot
  queues : ∀ queue, w.isValid queue = false
  inside : ∀ i, w.inside i = none

omit [DecidableEq κ] in
/-- The process is alive. -/
def Live (i : Slot) : Prop :=
  w.system.scheduler.stateOf i ≠ .unused ∧ w.system.scheduler.stateOf i ≠ .zombie

omit [DecidableEq κ] in
instance decidableLive (i : Slot) : Decidable (w.Live i) := inferInstanceAs (Decidable (_ ∧ _))

/-- Each queue counts the processes that are alive and inside. -/
def CountsWaiters : Prop :=
  ∀ queue, w.isValid queue = true → (w.queues queue).waiterCount.toNat =
    tally fun i ↦ w.inside i = some queue ∧ w.Live i

omit [DecidableEq κ] in
/-- The step kills no process that is inside `kernel_wait_queue_wait`. -/
def Spares : WaitLabel κ → Prop
  | .sched (.call (.kill pid _)) =>
    ∀ i, w.inside i ≠ none → (w.system.scheduler.processes i).pid ≠ pid
  | _ => True

/-- The states that runs reach whose steps all meet a condition. -/
def WaitRun (singleForeground : Bool) (ok : WaitSystem κ → WaitLabel κ → Prop) :
    WaitSystem κ → Prop :=
  Reachable Initial fun a b ↦ ∃ l, ok a l ∧ a.step singleForeground l = .ok b

end WaitSystem

/-! ## Killing is reported -/

theorem event_waitpidRound {s : Scheduler} {pid callerPid : UInt32} {wantsCode : Bool}
    {sys' : System} {es : List Event}
    (h : System.waitpidRound s pid callerPid wantsCode = .ok (sys', es)) (p : UInt32)
    (exitCode : Int32) : Event.killed p exitCode ∉ es := by
  obtain ⟨⟨s', round⟩, -, hround⟩ := bind_eq_ok.mp h
  cases round with
  | child child code =>
    obtain ⟨-, rfl⟩ := Prod.mk.inj (Except.ok.inj hround)
    simp
  | failed =>
    obtain ⟨-, rfl⟩ := Prod.mk.inj (Except.ok.inj hround)
    simp
  | yields =>
    obtain ⟨-, rfl⟩ := Prod.mk.inj (Except.ok.inj hround)
    simp

/-- Only `process_kill` kills. -/
theorem kill_of_event {sys sys' : System} {l : Label} {es : List Event}
    (h : sys.step singleForeground l = .ok (sys', es)) {pid : UInt32} {exitCode : Int32}
    (hes : Event.killed pid exitCode ∈ es) : l = .call (.kill pid exitCode) := by
  obtain ⟨s, control⟩ := sys
  have quiet : ∀ {α : Type} {x : Except Fault α} {f : α → System},
      (do let a ← x; (.ok (f a, []) : Except Fault (System × List Event))) = .ok (sys', es) →
      False := by
    intro α x f hx
    obtain ⟨a, -, ha⟩ := bind_eq_ok.mp hx
    obtain ⟨-, rfl⟩ := Prod.mk.inj (Except.ok.inj ha)
    simp at hes
  have still : ∀ {x : System}, (.ok (x, []) : Except Fault (System × List Event)) =
      .ok (sys', es) → False := by
    intro x hx
    obtain ⟨-, rfl⟩ := Prod.mk.inj (Except.ok.inj hx)
    simp at hes
  unfold System.step at h
  dsimp only at h
  split at h
  · next c =>
    cases c with
    | spawn name hasEntry role =>
      obtain ⟨⟨t, p⟩, -, ha⟩ := bind_eq_ok.mp h
      obtain ⟨-, rfl⟩ := Prod.mk.inj (Except.ok.inj ha)
      split at hes <;> simp at hes
    | yield => exact (still h).elim
    | exit code =>
      obtain ⟨-, rfl⟩ := Prod.mk.inj (Except.ok.inj h)
      unfold System.exitEvents at hes
      split at hes <;> simp at hes
    | kill p code =>
      obtain ⟨t, -, ha⟩ := bind_eq_ok.mp h
      obtain ⟨-, rfl⟩ := Prod.mk.inj (Except.ok.inj ha)
      split at hes
      · obtain ⟨rfl, rfl⟩ := Event.killed.inj (List.mem_singleton.mp hes)
        rfl
      · simp at hes
    | reap p =>
      obtain ⟨⟨t, code⟩, -, ha⟩ := bind_eq_ok.mp h
      obtain ⟨-, rfl⟩ := Prod.mk.inj (Except.ok.inj ha)
      split at hes <;> simp at hes
    | waitpid p wantsCode =>
      rw [System.call] at h
      split at h
      · obtain ⟨-, rfl⟩ := Prod.mk.inj (Except.ok.inj h)
        simp at hes
      · exact absurd hes (event_waitpidRound h pid exitCode)
    | sleep ticks => exact (quiet h).elim
    | block p => exact (quiet h).elim
    | wake p => exact (quiet h).elim
    | waitChannel channel => exact (quiet h).elim
    | wakeChannel channel => exact (quiet h).elim
    | wakeFirstChannel channel => exact (quiet h).elim
    | tick tickCount => exact (quiet h).elim
  · exact (still h).elim
  · exact (quiet h).elim
  · exact (quiet h).elim
  · next k =>
    cases k with
    | fresh => exact (still h).elim
    | returns => exact (still h).elim
    | waitpid p callerPid wantsCode => exact absurd hes (event_waitpidRound h pid exitCode)
    | exit => exact (still h).elim
  · exact (still h).elim
  · exact (quiet h).elim
  · exact (still h).elim

/-! ## Processes inside come out -/

/-- The points at which the current process can be inside `process_wait_channel`. -/
def Control.InWait : Control → Prop
  | .user => False
  | .yielding k => k = .returns
  | .idle k => k = .returns
  | .picked k _ => k = .returns
  | .resume k => k = .returns
  | .halted _ => True

/-- The process is alive, and in `process_wait_channel` or on its way back there. -/
structure Within (sys : System) (i : Slot) : Prop where
  used : sys.scheduler.stateOf i ≠ .unused
  alive : sys.scheduler.stateOf i ≠ .zombie
  here : sys.scheduler.current = some i → sys.control.InWait
  away : sys.scheduler.current ≠ some i → sys.scheduler.context i = .returns

section Within

variable {s t s' : Scheduler} {control control' : Control} {i : Slot}

/-- A process that gets another state of a living one stays alive, and so do the others. -/
theorem alive_of_ite {P : Prop} [Decidable P] {state : ProcessState}
    (h : s.stateOf i ≠ .unused ∧ s.stateOf i ≠ .zombie)
    (hstate : s'.stateOf i = if P then state else s.stateOf i)
    (hliving : state ≠ .unused ∧ state ≠ .zombie) :
    s'.stateOf i ≠ .unused ∧ s'.stateOf i ≠ .zombie := by
  rw [hstate]
  split
  · exact hliving
  · exact h

theorem Within.change (h : Within ⟨s, control⟩ i) (hused : s'.stateOf i ≠ .unused)
    (halive : s'.stateOf i ≠ .zombie) (hcurrent : s'.current = s.current)
    (hcontext : s'.context i = s.context i)
    (hcontrol : s.current = some i → control.InWait → control'.InWait) :
    Within ⟨s', control'⟩ i := by
  refine ⟨hused, halive, fun hcur ↦ ?_, fun hcur ↦ ?_⟩
  · have hcur : s.current = some i := hcurrent ▸ hcur
    exact hcontrol hcur (h.here hcur)
  · have hcur : s.current ≠ some i := fun hx ↦ hcur (hcurrent.trans hx)
    exact hcontext.trans (h.away hcur)

theorem Within.same (h : Within ⟨s, control⟩ i)
    (hcontrol : s.current = some i → control.InWait → control'.InWait) :
    Within ⟨s, control'⟩ i :=
  h.change h.used h.alive rfl rfl hcontrol

/-- Synchronising changes the queue only. -/
theorem Within.synced (h : Within ⟨t, control⟩ i) (hs : Synced t s') : Within ⟨s', control⟩ i := by
  refine h.change ?_ ?_ ?_ ?_ fun _ ↦ id
  · rw [hs.stateOf]
    exact h.used
  · rw [hs.stateOf]
    exact h.alive
  · rw [hs.eq]
  · rw [hs.eq]

/-- A process that another one is woken by, or that is woken itself. -/
theorem Within.of_woken (h : Within ⟨s, control⟩ i)
    (hstate : s'.stateOf i = s.stateOf i ∨ s.stateOf i = .blocked ∧ s'.stateOf i = .ready)
    (hcurrent : s'.current = s.current) (hcontext : s'.context i = s.context i)
    (hcontrol : s.current = some i → control.InWait → control'.InWait) :
    Within ⟨s', control'⟩ i := by
  rcases hstate with heq | ⟨-, hready⟩
  · exact h.change (heq ▸ h.used) (heq ▸ h.alive) hcurrent hcontext hcontrol
  · exact h.change (by simp [hready]) (by simp [hready]) hcurrent hcontext hcontrol

theorem Within.endProcess {index : Slot} (h : Within ⟨s, control⟩ i) (hne : i ≠ index)
    (exitCode : Int32) (hcontrol : s.current = some i → control.InWait → control'.InWait) :
    Within ⟨s.endProcess index exitCode, control'⟩ i := by
  rcases endProcess_stateOf s index exitCode i with ⟨-, heq⟩ | ⟨-, hstate⟩
  · exact absurd heq hne
  · exact h.of_woken hstate rfl rfl hcontrol

theorem Within.setBlocked {index : Slot} (h : Within ⟨s, control⟩ i) (waitReason : WaitReason)
    (waitChannel : UInt32) (wakeTick : UInt64) (waitTargetPid : UInt32)
    (hcontrol : s.current = some i → control.InWait → control'.InWait) :
    Within ⟨s.setBlocked index waitReason waitChannel wakeTick waitTargetPid, control'⟩ i := by
  have hstate := setBlocked_stateOf s index waitReason waitChannel wakeTick waitTargetPid i
  obtain ⟨hused, halive⟩ := alive_of_ite ⟨h.used, h.alive⟩ hstate (by simp)
  exact h.change hused halive rfl rfl hcontrol

theorem Within.resets {index : Slot} (h : Within ⟨s, control⟩ i) (hz : s.stateOf index = .zombie)
    (hr : Resets s index s') (hcontrol : s.current = some i → control.InWait → control'.InWait) :
    Within ⟨s', control'⟩ i := by
  have hne : i ≠ index := by
    rintro rfl
    exact h.alive hz
  have hstate : s'.stateOf i = s.stateOf i := by rw [hr.stateOf, if_neg hne]
  exact h.change (hstate ▸ h.used) (hstate ▸ h.alive) (by rw [hr.eq]) (by rw [hr.eq]) hcontrol

theorem Within.countYield {index : Slot} (h : Within ⟨s, control⟩ i)
    (hcontrol : s.current = some i → control.InWait → control'.InWait) :
    Within ⟨System.countYield s index, control'⟩ i := by
  obtain ⟨processes, heq, -⟩ := countYield_spec s index
  have hstate : (System.countYield s index).stateOf i = s.stateOf i := countYield_stateOf index i
  exact h.change (hstate ▸ h.used) (hstate ▸ h.alive) (by rw [heq]) (by rw [heq]) hcontrol

theorem Within.chosen {k : Continuation} {index : Slot} (h : Within ⟨s, .yielding k⟩ i)
    (hcur : s.current = some index) : Within (System.chosen s k index) i := by
  rw [System.chosen, if_pos hcur]
  split
  · exact h.same fun _ ↦ id
  · have hstate : (s.setState index .running).stateOf i
        = if i = index then .running else s.stateOf i := stateOf_setProcess index i _
    obtain ⟨hused, halive⟩ := alive_of_ite ⟨h.used, h.alive⟩ hstate (by simp)
    exact h.change hused halive rfl rfl fun _ ↦ id

theorem WaitsAt.not_inWait {pid callerPid : UInt32} {wantsCode : Bool}
    (h : WaitsAt s pid callerPid wantsCode control) : ¬control.InWait := by
  cases h with
  | call _ _ => exact id
  | again => exact fun h ↦ by cases h

/-- **One step** leaves a process inside that it does not kill and that does not come out in it. -/
theorem Within.move {sys sys' : System} {l : Label} {es : List Event} (hsound : SystemSound sys)
    (h : Within sys i) (hmove : Move singleForeground sys l sys' es)
    (hspared : ∀ exitCode, Event.killed (sys.scheduler.processes i).pid exitCode ∉ es)
    (hstays : ¬(l = .resume ∧ sys.control = .resume .returns ∧ sys.scheduler.current = some i)) :
    Within sys' i := by
  cases hmove with
  | quiet => exact h
  | yields => exact h.same fun _ ↦ False.elim
  | exitBoot _ => exact h.same fun _ ↦ False.elim
  | @spawns s t s' c index hspawn hs =>
    have hne : i ≠ index := by
      rintro rfl
      exact h.used hspawn.free
    refine Within.synced (t := t) ?_ hs
    obtain ⟨process, vruntime, rfl, -⟩ := hspawn.eq
    have hstate : ∀ p, Function.update s.processes index p i = s.processes i := fun p ↦
      Function.update_of_ne hne ..
    refine h.change ?_ ?_ rfl (Function.update_of_ne hne ..) fun _ ↦ id
    · simpa [stateOf, hstate] using h.used
    · simpa [stateOf, hstate] using h.alive
  | @exits s c index exitCode e hproc _ =>
    have hcur := (currentProcess_eq_some hproc).1
    have hne : i ≠ index := by
      rintro rfl
      exact h.here hcur
    exact h.endProcess hne exitCode fun _ ↦ False.elim
  | @kills s s' c index exitCode _ _ _ hs =>
    have hne : i ≠ index := by
      rintro rfl
      exact hspared exitCode (List.mem_singleton.mpr rfl)
    exact (h.endProcess hne exitCode fun _ ↦ id).synced hs
  | killsZombie _ _ => exact h
  | reaps hz hr => exact h.resets hz hr fun _ ↦ id
  | collects hat hz _ hr => exact h.resets hz hr fun _ hin ↦ absurd hin hat.not_inWait
  | waitFails hcontrol =>
    refine h.same fun _ hin ↦ ?_
    rcases hcontrol with rfl | rfl
    · exact hin
    · cases hin
  | waitBlocks hat _ _ hs =>
    exact (h.setBlocked _ _ _ _ fun _ hin ↦ absurd hin hat.not_inWait).synced hs
  | waitYields hat _ => exact h.same fun _ hin ↦ absurd hin hat.not_inWait
  | blocks _ _ hs => exact (h.setBlocked _ _ _ _ fun _ ↦ False.elim).synced hs
  | blocksOther _ _ hs => exact (h.setBlocked _ _ _ _ fun _ ↦ id).synced hs
  | wakes hw hs _ =>
    exact (h.of_woken (hw.stateOf i) (by rw [hw.eq]) (by rw [hw.eq]) fun _ ↦ id).synced hs
  | picksNone _ _ => exact h.same fun _ _ ↦ trivial
  | picksFirst _ _ => exact h.same fun _ ↦ id
  | picksBack _ _ _ => exact h.countYield fun _ ↦ id
  | picksSelf hcur _ =>
    refine (h.countYield fun _ ↦ id).chosen ?_
    rwa [countYield_current]
  | picksOther _ _ _ => exact h.countYield fun _ ↦ id
  | picksIdle _ _ _ _ => exact h.countYield fun _ ↦ id
  | picksHalt _ _ _ _ => exact h.countYield fun _ _ ↦ trivial
  | waitsOn hs _ => exact h.synced hs
  | @waitsSelf s s' k index hs hcur _ =>
    refine ((h.same fun _ ↦ id : Within ⟨s, .yielding k⟩ i).synced hs).chosen ?_
    rw [hs.eq]
    exact hcur
  | @waitsOther s s' k next hs _ _ =>
    exact (h.same fun _ ↦ id : Within ⟨s, .picked k next⟩ i).synced hs
  | @starts s s' k next hcur hs =>
    have haway : s.context i = .returns := h.away (by simp [hcur])
    have hstate : (s.started next).stateOf i = if i = next then .running else s.stateOf i :=
      stateOf_setProcess next i _
    obtain ⟨hused, halive⟩ := alive_of_ite ⟨h.used, h.alive⟩ hstate (by simp)
    have hstarted : Within ⟨s.started next, .resume (s'.context next)⟩ i := by
      refine ⟨hused, halive, fun hon ↦ ?_, fun _ ↦ haway⟩
      obtain rfl : next = i := Option.some.inj hon
      change s'.context next = .returns
      rw [hs.eq]
      exact haway
    exact hstarted.synced hs
  | @switches s s' k index next hcur hs =>
    have hne : index ≠ next := (hsound.placed.control.2 index hcur).1
    -- the process that leaves keeps where it goes on, and the next one goes on there
    have hcontext : ((s.suspended index k).resumed next).context i = .returns := by
      change Function.update s.context index k i = .returns
      by_cases hi : i = index
      · rw [hi, Function.update_self]
        exact h.here (hi ▸ hcur)
      · rw [Function.update_of_ne hi]
        exact h.away fun hx ↦ hi (Option.some.inj (hx.symm.trans hcur))
    have hleft := alive_of_ite ⟨h.used, h.alive⟩ (suspended_stateOf s index k i) (by simp)
    obtain ⟨hused, halive⟩ := alive_of_ite hleft (resumed_stateOf _ next i) (by simp)
    have hswitched : Within ⟨(s.suspended index k).resumed next, .resume (s'.context next)⟩ i := by
      refine ⟨hused, halive, fun hon ↦ ?_, fun _ ↦ hcontext⟩
      obtain rfl : next = i := Option.some.inj hon
      change s'.context next = .returns
      rw [hs.eq]
      exact hcontext
    exact hswitched.synced hs
  | @goesOn s k hk =>
    refine h.same fun hcur hin ↦ hstays ⟨rfl, ?_, hcur⟩
    exact congrArg Control.resume hin
  | exitReturns => exact h.same fun _ _ ↦ trivial

end Within

/-! ## The counts -/

namespace WaitSystem

variable [DecidableEq κ] {w w' : WaitSystem κ}

/-- **What holds in every run** that kills nobody inside. -/
structure Tracked (w : WaitSystem κ) : Prop where
  sound : SystemSound w.system
  within : ∀ i, w.inside i ≠ none → Within w.system i
  valid : ∀ i queue, w.inside i = some queue → w.isValid queue = true
  counts : ∀ queue, w.isValid queue = true →
    (w.queues queue).waiterCount.toNat = tally fun i ↦ w.inside i = some queue

/-- The scheduler kills nobody inside. -/
def KillsNone (w : WaitSystem κ) (l : Label) : Prop :=
  ∀ pid exitCode, l = .call (.kill pid exitCode) →
    ∀ i, w.inside i ≠ none → (w.system.scheduler.processes i).pid ≠ pid

omit [DecidableEq κ] in
/-- A step of the scheduler in which nobody comes out leaves everybody inside. -/
theorem scheduled_spec {l : Label} {system : System} {es : List Event}
    (hsound : SystemSound w.system) (hwithin : ∀ i, w.inside i ≠ none → Within w.system i)
    (hkills : w.KillsNone l) (hstep : w.system.step singleForeground l = .ok (system, es))
    (hstays : ∀ i, w.inside i ≠ none → ¬(l = .resume ∧ w.system.control = .resume .returns ∧
      w.system.scheduler.current = some i)) :
    SystemSound system ∧ (∀ i, w.inside i ≠ none → Within system i) ∧
      (w.scheduled system).inside = w.inside := by
  have hmove := hsound.step_move hstep
  have hafter : ∀ i, w.inside i ≠ none → Within system i := by
    intro i hi
    refine (hwithin i hi).move hsound hmove (fun exitCode hes ↦ ?_) (hstays i hi)
    exact hkills _ _ (kill_of_event hstep hes) i hi rfl
  refine ⟨hsound.move hmove, hafter, funext fun i ↦ ?_⟩
  change (if system.scheduler.stateOf i = .unused then none else w.inside i) = w.inside i
  split
  · next hunused =>
    by_contra hne
    exact (hafter i (Ne.symm hne)).used hunused
  · rfl

omit [DecidableEq κ] in
theorem returning_eq_none {l : Label} (h : l ≠ .resume) : w.returning l = none := by
  rw [returning, if_neg fun hx ↦ h hx.1]

omit [DecidableEq κ] in
theorem returning_eq_some {l : Label} {i : Slot} {queue : κ}
    (h : w.returning l = some (i, queue)) : l = .resume ∧
      w.system.control = .resume .returns ∧ w.system.scheduler.current = some i ∧
      w.inside i = some queue := by
  rw [returning] at h
  split at h
  · next hat =>
    obtain ⟨j, hj, hmap⟩ := Option.bind_eq_some_iff.mp h
    obtain ⟨q, hq, heq⟩ := Option.map_eq_some_iff.mp hmap
    obtain ⟨rfl, rfl⟩ := Prod.mk.inj heq
    exact ⟨hat.1, hat.2, hj, hq⟩
  · cases h

theorem leave_queues {queue : κ} (h : 0 < (w.queues queue).waiterCount.toNat) (q : κ) :
    ((w.leave queue).isValid q = w.isValid q) ∧
      ((w.leave queue).queues q).waiterCount.toNat =
        if q = queue then (w.queues q).waiterCount.toNat - 1
        else (w.queues q).waiterCount.toNat := by
  have hne : (w.queues queue).waiterCount ≠ 0 := fun hz ↦ by simp [hz] at h
  have hqueues : (w.leave queue).queues = Function.update w.queues queue
      { w.queues queue with waiterCount := (w.queues queue).waiterCount - 1 } := by
    rw [leave, if_pos hne]
  rw [isValid, isValid, hqueues]
  by_cases hq : q = queue
  · subst hq
    have hone : (1 : UInt32).toNat = 1 := rfl
    rw [Function.update_self, if_pos rfl, UInt32.toNat_sub_of_le]
    · exact ⟨rfl, rfl⟩
    · rw [UInt32.le_iff_toNat_le, hone]
      exact h
  · rw [Function.update_of_ne hq, if_neg hq]
    exact ⟨rfl, rfl⟩

omit [DecidableEq κ] in
theorem leave_system [DecidableEq κ] (queue : κ) : (w.leave queue).system = w.system ∧
    (w.leave queue).inside = w.inside := by
  rw [leave]
  split
  · exact ⟨rfl, rfl⟩
  · exact ⟨rfl, rfl⟩

theorem Tracked.comesOut {i : Slot} {queue : κ} (hsound : SystemSound w.system)
    (hwithin : ∀ j, w.inside j ≠ none → j ≠ i → Within w.system j)
    (hvalid : ∀ j q, w.inside j = some q → w.isValid q = true)
    (hcounts : ∀ q, w.isValid q = true →
      (w.queues q).waiterCount.toNat = tally fun j ↦ w.inside j = some q)
    (hin : w.inside i = some queue) :
    Tracked { w.leave queue with inside := Function.update (w.leave queue).inside i none } := by
  have hcount := hcounts queue (hvalid i queue hin)
  have hpos : 0 < tally fun j ↦ w.inside j = some queue := tally_pos.mpr ⟨i, hin⟩
  have hqueues := leave_queues (hcount ▸ hpos)
  obtain ⟨hsystem, hinside⟩ := w.leave_system queue
  rw [hinside]
  -- the others stay where they are
  have hother : ∀ j q, Function.update w.inside i none j = some q →
      j ≠ i ∧ w.inside j = some q := by
    intro j q hj
    by_cases hji : j = i
    · rw [hji, Function.update_self] at hj
      cases hj
    · rw [Function.update_of_ne hji] at hj
      exact ⟨hji, hj⟩
  constructor
  · change SystemSound (w.leave queue).system
    rw [hsystem]
    exact hsound
  · intro j hj
    obtain ⟨q, hq⟩ := Option.ne_none_iff_exists'.mp hj
    obtain ⟨hji, hjq⟩ := hother j q hq
    change Within (w.leave queue).system j
    rw [hsystem]
    exact hwithin j (by simp [hjq]) hji
  · intro j q hj
    exact (hqueues q).1.trans (hvalid j q (hother j q hj).2)
  · intro q hq
    refine (hqueues q).2.trans ?_
    have hbefore := hcounts q ((hqueues q).1.symm.trans hq)
    have hagree : ∀ j, j ≠ i →
        (w.inside j = some q ↔ Function.update w.inside i none j = some q) := by
      intro j hji
      rw [Function.update_of_ne hji]
    split
    · next hqq =>
      subst hqq
      have hlose := tally_lose hagree hin (by simp)
      change _ = tally fun j ↦ Function.update w.inside i none j = some q
      omega
    · next hne =>
      refine hbefore.trans (tally_same hagree ?_)
      simp [hin, Ne.symm hne]

theorem step_returns {sys : System} (h : sys.control = .resume .returns) :
    sys.step singleForeground .resume = .ok (⟨sys.scheduler, .user⟩, []) := by
  obtain ⟨s, control⟩ := sys
  obtain rfl : control = _ := h
  rfl

theorem Tracked.schedule {l : Label} (h : w.Tracked) (hkills : w.KillsNone l)
    (hrun : w.schedule singleForeground l = .ok w') : w'.Tracked := by
  obtain ⟨⟨system, es⟩, hstep, hrest⟩ := bind_eq_ok.mp hrun
  cases hret : w.returning l with
  | none =>
    rw [hret] at hrest
    obtain rfl := Except.ok.inj hrest
    obtain ⟨hsound, hwithin, hinside⟩ := scheduled_spec h.sound h.within hkills hstep (by
      rintro i hi ⟨rfl, hcontrol, hcurrent⟩
      obtain ⟨queue, hqueue⟩ := Option.ne_none_iff_exists'.mp hi
      rw [returning, if_pos ⟨rfl, hcontrol⟩, hcurrent, Option.bind_some, hqueue] at hret
      cases hret)
    refine ⟨hsound, fun i hi ↦ hwithin i (hinside ▸ hi), fun i queue hi ↦ ?_, fun queue hq ↦ ?_⟩
    · exact h.valid i queue (hinside ▸ hi)
    · rw [hinside]
      exact h.counts queue hq
  | some out =>
    obtain ⟨i, queue⟩ := out
    rw [hret] at hrest
    obtain rfl := Except.ok.inj hrest
    obtain ⟨rfl, hcontrol, hcurrent, hin⟩ := returning_eq_some hret
    -- the step is the return into process code, and only this process comes out
    obtain ⟨hsystem, -⟩ := Prod.mk.inj (Except.ok.inj (hstep.symm.trans (step_returns hcontrol)))
    have hsame : (w.scheduled system).inside = w.inside := by
      funext j
      change (if system.scheduler.stateOf j = .unused then none else w.inside j) = w.inside j
      rw [hsystem]
      split
      · next hunused =>
        by_contra hne
        exact (h.within j (Ne.symm hne)).used hunused
      · rfl
    have hmove := h.sound.step_move hstep
    refine Tracked.comesOut (w := w.scheduled system) ?_ ?_ ?_ ?_ (hsame ▸ hin)
    · exact h.sound.move hmove
    · intro j hj hother
      refine (h.within j (hsame ▸ hj)).move h.sound hmove (fun exitCode hes ↦ ?_) ?_
      · cases kill_of_event hstep hes
      · rintro ⟨-, -, hcur⟩
        exact hother (Option.some.inj (hcur.symm.trans hcurrent))
    · intro j q hj
      exact h.valid j q (hsame ▸ hj)
    · intro q hq
      rw [hsame]
      exact h.counts q hq

/-- A queue is made or destroyed that nobody is inside. -/
theorem Tracked.vacant {queue : κ} {entry : KernelWaitQueue} {nextChannel : UInt32} (h : w.Tracked)
    (hempty : ∀ i, w.inside i ≠ some queue) (hzero : entry.waiterCount = 0) :
    Tracked { w with
      queues := Function.update w.queues queue entry
      nextChannel := nextChannel } := by
  -- the other queues are as they were
  have hother : ∀ q, q ≠ queue → Function.update w.queues queue entry q = w.queues q := fun q hq ↦
    Function.update_of_ne hq ..
  refine ⟨h.sound, h.within, fun i q hi ↦ ?_, fun q hq ↦ ?_⟩
  · have hne : q ≠ queue := fun heq ↦ hempty i (heq ▸ hi)
    change decide ((Function.update w.queues queue entry q).magic = _) = true
    rw [hother q hne]
    exact h.valid i q hi
  · by_cases hne : q = queue
    · subst hne
      change (Function.update w.queues q entry q).waiterCount.toNat = _
      rw [Function.update_self, hzero]
      exact (tally_eq_zero.mpr hempty).symm
    · change decide ((Function.update w.queues queue entry q).magic = _) = true at hq
      rw [hother q hne] at hq
      change (Function.update w.queues queue entry q).waiterCount.toNat = _
      rw [hother q hne]
      exact h.counts q hq

theorem Tracked.destroy (h : w.Tracked) (queue : κ) : (w.destroy queue).1.Tracked := by
  rw [WaitSystem.destroy]
  split
  · exact h
  · next hat =>
    obtain ⟨hvalid, hzero⟩ := not_or.mp hat
    have hzero : (w.queues queue).waiterCount = 0 := not_not.mp hzero
    have hcount := h.counts queue (by simpa using hvalid)
    rw [hzero] at hcount
    exact h.vacant (tally_eq_zero.mp hcount.symm) hzero

/-- The current process of process code is inside no queue. -/
theorem Tracked.inside_current (h : w.Tracked) (hcontrol : w.system.control = .user) {index : Slot}
    (hcurrent : w.system.scheduler.current = some index) : w.inside index = none := by
  by_contra hne
  have hin : w.system.control.InWait := (h.within index hne).here hcurrent
  rw [hcontrol] at hin
  exact hin

theorem step_waitChannel {sys system : System} {index : Slot} {channel : UInt32} {es : List Event}
    (hsound : SystemSound sys) (hcontrol : sys.control = .user)
    (hcurrent : sys.scheduler.current = some index)
    (hstep : sys.step singleForeground (.call (.waitChannel channel)) = .ok (system, es)) :
    Within system index := by
  obtain ⟨s, control⟩ := sys
  obtain rfl : control = .user := hcontrol
  obtain ⟨s', hsync, hs'⟩ := QueueSound.sync (s := s.setBlocked index .eventChannel channel 0 0)
    hsound.queue
  have hcall : System.step singleForeground ⟨s, .user⟩ (.call (.waitChannel channel))
      = .ok (⟨s', .yielding .returns⟩, []) := by
    change System.call singleForeground s (.waitChannel channel) = _
    rw [setBlocked] at hsync
    have hcurrent : s.current = some index := hcurrent
    simp [System.call, processWaitChannel, hcurrent, blockProcess, hsync, System.finish]
  obtain ⟨rfl, -⟩ := Prod.mk.inj (Except.ok.inj (hstep.symm.trans hcall))
  have hstate : (s.setBlocked index .eventChannel channel 0 0).stateOf index = .blocked := by
    rw [setBlocked_stateOf, if_pos rfl]
  have hblocked :
      Within ⟨s.setBlocked index .eventChannel channel 0 0, .yielding .returns⟩ index := by
    refine ⟨?_, ?_, fun _ ↦ rfl, fun haway ↦ absurd hcurrent haway⟩
    · simp [hstate]
    · simp [hstate]
  exact hblocked.synced hs'

/-- A count is far from its bound: there are ten processes. -/
theorem Tracked.count_le (h : w.Tracked) {queue : κ} (hvalid : w.isValid queue = true) :
    (w.queues queue).waiterCount.toNat ≤ 10 := by
  rw [h.counts queue hvalid]
  exact tally_le

theorem Tracked.goesIn {index : Slot} {queue : κ} (h : w.Tracked) (hvalid : w.isValid queue = true)
    (hout : w.inside index = none) (hin : Within w.system index) :
    Tracked { w with
      queues := Function.update w.queues queue
        { w.queues queue with waiterCount := (w.queues queue).waiterCount + 1 }
      inside := Function.update w.inside index (some queue) } := by
  have hkept : ∀ q, (Function.update w.queues queue
      { w.queues queue with waiterCount := (w.queues queue).waiterCount + 1 } q).magic
        = (w.queues q).magic := by
    intro q
    by_cases hq : q = queue
    · rw [hq, Function.update_self]
    · rw [Function.update_of_ne hq]
  have hagree : ∀ q j, j ≠ index →
      (w.inside j = some q ↔ Function.update w.inside index (some queue) j = some q) := by
    intro q j hj
    rw [Function.update_of_ne hj]
  constructor
  · exact h.sound
  · intro j hj
    by_cases hji : j = index
    · exact hji ▸ hin
    · change Function.update w.inside index (some queue) j ≠ none at hj
      rw [Function.update_of_ne hji] at hj
      exact h.within j hj
  · intro j q hj
    change decide ((Function.update w.queues queue _ q).magic = _) = true
    rw [hkept]
    by_cases hji : j = index
    · change Function.update w.inside index (some queue) j = some q at hj
      rw [hji, Function.update_self] at hj
      exact Option.some.inj hj ▸ hvalid
    · exact h.valid j q ((hagree q j hji).mpr hj)
  · intro q hq
    change decide ((Function.update w.queues queue _ q).magic = _) = true at hq
    rw [hkept] at hq
    have hbefore := h.counts q hq
    change (Function.update w.queues queue _ q).waiterCount.toNat
      = tally fun j ↦ Function.update w.inside index (some queue) j = some q
    by_cases hqq : q = queue
    · subst hqq
      have hbound := h.count_le hq
      have hone : (1 : UInt32).toNat = 1 := rfl
      rw [Function.update_self, tally_gain (hagree q) (by simp [hout]) (by simp), ← hbefore,
        UInt32.toNat_add, hone]
      exact Nat.mod_eq_of_lt (by omega)
    · rw [Function.update_of_ne hqq, hbefore]
      refine tally_same (hagree q) ?_
      simp [hout, Ne.symm hqq]

theorem leave_counted {queue : κ} (h : (w.queues queue).waiterCount.toNat ≤ 10) :
    WaitSystem.leave { w with
      queues := Function.update w.queues queue
        { w.queues queue with waiterCount := (w.queues queue).waiterCount + 1 } } queue = w := by
  have hne : (w.queues queue).waiterCount + 1 ≠ 0 := by
    intro hz
    have hzero := congrArg UInt32.toNat hz
    have hone : (1 : UInt32).toNat = 1 := rfl
    rw [UInt32.toNat_add, hone, Nat.mod_eq_of_lt (by omega)] at hzero
    exact absurd hzero (Nat.succ_ne_zero _)
  rw [leave]
  simp only [Function.update_self, Function.update_idem, UInt32.add_sub_cancel,
    Function.update_eq_self]
  exact if_pos hne

/-- `kernel_wait_queue_wait`: the current process goes in. -/
theorem Tracked.wait {queue : κ} (h : w.Tracked) (hcontrol : w.system.control = .user)
    (hrun : w.wait singleForeground queue = .ok w') : w'.Tracked := by
  rw [WaitSystem.wait] at hrun
  split at hrun
  · next hvalid =>
    obtain ⟨out, hsched, hrest⟩ := bind_eq_ok.mp hrun
    obtain ⟨⟨system, es⟩, hstep, hout⟩ := bind_eq_ok.mp hsched
    rw [returning_eq_none (by simp)] at hout
    obtain rfl := Except.ok.inj hout
    -- the queues aside this is a step of the scheduler
    have hafter : (w.scheduled system).Tracked := by
      refine h.schedule (fun _ _ hx ↦ by cases hx) (bind_eq_ok.mpr ⟨(system, es), hstep, ?_⟩)
      rw [returning_eq_none (by simp)]
    split at hrest
    · next index hcurrent =>
      obtain rfl := Except.ok.inj hrest
      have hinside : (w.scheduled system).inside index = none := by
        change (if _ then none else w.inside index) = none
        rw [h.inside_current hcontrol hcurrent, ite_self]
      exact hafter.goesIn hvalid hinside (step_waitChannel h.sound hcontrol hcurrent hstep)
    · obtain rfl := Except.ok.inj hrest
      have hleave := leave_counted (w := w.scheduled system) (hafter.count_le hvalid)
      exact hleave ▸ hafter
  · obtain rfl := Except.ok.inj hrun
    exact h

/-- **One step** that kills nobody inside. -/
theorem Tracked.step {l : WaitLabel κ} (h : w.Tracked) (hspares : w.Spares l)
    (hrun : w.step singleForeground l = .ok w') : w'.Tracked := by
  cases l with
  | sched l =>
    refine h.schedule ?_ hrun
    rintro pid exitCode rfl
    exact hspares
  | create queue =>
    rw [WaitSystem.step] at hrun
    split at hrun
    · next hat =>
      obtain rfl := Except.ok.inj hrun
      refine h.vacant (fun i hi ↦ ?_) rfl
      simp [h.valid i queue hi] at hat
    · obtain rfl := Except.ok.inj hrun
      exact h
  | destroy queue =>
    rw [WaitSystem.step] at hrun
    split at hrun
    · obtain rfl := Except.ok.inj hrun
      exact h.destroy queue
    · obtain rfl := Except.ok.inj hrun
      exact h
  | wait queue =>
    rw [WaitSystem.step] at hrun
    split at hrun
    · next hcontrol => exact h.wait hcontrol hrun
    · obtain rfl := Except.ok.inj hrun
      exact h
  | wakeOne queue =>
    rw [WaitSystem.step] at hrun
    split at hrun
    · exact h.schedule (fun _ _ hx ↦ by cases hx) hrun
    · obtain rfl := Except.ok.inj hrun
      exact h
  | wakeAll queue =>
    rw [WaitSystem.step] at hrun
    split at hrun
    · exact h.schedule (fun _ _ hx ↦ by cases hx) hrun
    · obtain rfl := Except.ok.inj hrun
      exact h

theorem Tracked.initial (h : w.Initial) : w.Tracked := by
  constructor
  · rw [h.system]
    exact sound_boot
  · intro i hi
    exact absurd (h.inside i) hi
  · intro i queue hi
    rw [h.inside i] at hi
    cases hi
  · intro queue hvalid
    rw [h.queues queue] at hvalid
    cases hvalid

/-- **The invariant in every run** that kills nobody inside. -/
theorem WaitRun.tracked (h : WaitRun singleForeground Spares w) : w.Tracked := by
  refine Reachable.invariant (fun _ ↦ Tracked.initial) ?_ h
  rintro a b ha ⟨l, hspares, hrun⟩
  exact ha.step hspares hrun

/-- **Waiter accounting.** As long as no process is killed inside `kernel_wait_queue_wait`, every
queue counts the processes that are alive and inside, and once there are none it can be destroyed.
-/
theorem waiterCount_eq_tally (h : WaitRun singleForeground Spares w) :
    w.CountsWaiters ∧ ∀ queue, w.isValid queue = true →
      (∀ i, w.inside i = some queue → ¬w.Live i) → (w.destroy queue).2 = true := by
  have ht := h.tracked
  have hlive : ∀ i queue, w.inside i = some queue → w.Live i := by
    intro i queue hi
    have hin := ht.within i (by simp [hi])
    exact ⟨hin.used, hin.alive⟩
  constructor
  · intro queue hvalid
    refine (ht.counts queue hvalid).trans (tally_congr fun i ↦ ?_)
    exact ⟨fun hi ↦ ⟨hi, hlive i queue hi⟩, And.left⟩
  · intro queue hvalid hnone
    have hempty : ∀ i, w.inside i ≠ some queue := fun i hi ↦ hnone i hi (hlive i queue hi)
    have hzero : (w.queues queue).waiterCount = 0 := by
      rw [← UInt32.toNat_inj, ht.counts queue hvalid]
      exact tally_eq_zero.mpr hempty
    rw [WaitSystem.destroy, if_neg]
    simp [hvalid, hzero]

/-! ## Two runs -/

/-- The memory at boot, with room for one queue. -/
def boot : WaitSystem Unit where
  system := System.boot
  queues := fun _ ↦ ⟨0, 0, 0⟩
  nextChannel := 1
  inside := fun _ ↦ none

theorem boot_initial : boot.Initial := ⟨rfl, by decide, fun _ ↦ rfl⟩

theorem WaitRun.exists_of_labels (ok : WaitSystem Unit → WaitLabel Unit → Prop)
    (allowed : WaitLabel Unit → Bool) (hok : ∀ w l, allowed l = true → ok w l)
    (labels : List (WaitLabel Unit)) (P : WaitSystem Unit → Bool)
    (h : (labels.foldlM (fun w l ↦ if allowed l then (w.step false l).toOption else none)
      boot).any P = true) : ∃ w, WaitRun false ok w ∧ P w = true := by
  obtain ⟨w, hrun, hP⟩ := (Option.any_eq_true ..).mp h
  refine ⟨w, Reachable.foldlM (fun a l b hb ↦ ?_) (.start boot_initial) hrun, hP⟩
  split at hb
  · next hallowed =>
    refine ⟨l, hok a l hallowed, ?_⟩
    cases hstep : a.step false l with
    | error fault =>
      rw [hstep] at hb
      cases hb
    | ok c =>
      rw [hstep] at hb
      exact congrArg Except.ok (Option.some.inj hb)
  · cases hb

omit [DecidableEq κ] in
theorem spares_of_isKill (w : WaitSystem κ) {l : WaitLabel κ} (h : l.isKill = false) :
    w.Spares l := by
  unfold Spares
  split
  · cases h
  · trivial

/-- The first process waits, and the second one runs. -/
def firstWaits : List (WaitLabel Unit) :=
  .create () :: twoProcesses.map .sched ++
    [.wait (), .sched .pick, .sched .switch, .sched .resume]

/-- A process waits, and its queue counts it. -/
theorem waiterCount_one : ∃ w : WaitSystem Unit, WaitRun false Spares w ∧
    w.isValid () = true ∧ (w.queues ()).waiterCount = 1 ∧ w.CountsWaiters := by
  obtain ⟨w, hrun, hP⟩ := WaitRun.exists_of_labels Spares (fun l ↦ !l.isKill)
    (fun w l hl ↦ spares_of_isKill w (by simpa using hl)) firstWaits
    (fun w ↦ w.isValid () = true ∧ (w.queues ()).waiterCount = 1) (by decide +kernel)
  obtain ⟨hvalid, hone⟩ := of_decide_eq_true hP
  exact ⟨w, hrun, hvalid, hone, (waiterCount_eq_tally hrun).1⟩

/-- The second process kills the first one. No process waits any more, and the queue still counts
one and cannot be destroyed. -/
theorem killed_waiter_counted : ∃ w : WaitSystem Unit, WaitRun false (fun _ _ ↦ True) w ∧
    ¬w.CountsWaiters ∧ w.isValid () = true ∧ (∀ i, w.inside i = some () → ¬w.Live i) ∧
    (w.destroy ()).2 = false := by
  obtain ⟨w, hrun, hP⟩ := WaitRun.exists_of_labels (fun _ _ ↦ True) (fun _ ↦ true)
    (fun _ _ _ ↦ trivial) (firstWaits ++ [.sched (.call (.kill 1 0))])
    (fun w ↦ w.isValid () = true ∧ (w.queues ()).waiterCount = 1 ∧
      (∀ i, w.inside i = some () → ¬w.Live i) ∧ (w.destroy ()).2 = false) (by decide +kernel)
  obtain ⟨hvalid, hone, hnone, hdestroy⟩ := of_decide_eq_true hP
  refine ⟨w, hrun, fun hcounts ↦ ?_, hvalid, hnone, hdestroy⟩
  have hzero := hcounts () hvalid
  rw [hone, tally_eq_zero.mpr fun i hi ↦ hnone i hi.1 hi.2] at hzero
  cases hzero

end WaitSystem

end TensorOS
