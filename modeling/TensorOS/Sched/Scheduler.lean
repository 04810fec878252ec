import TensorOS.Sched.Process
import TensorOS.Sched.ReadyQueue

/-!
# The scheduler

The state of `scheduler.c` and its functions. A process runs until it calls `process_yield`, itself
or inside another call, and goes on when the scheduler switches back to it. So a call is modelled up
to the point where it returns or enters `process_yield`, and `process_yield` as the steps between
which the timer interrupt can come: choosing the next process, waiting for one, and switching to it.
What a process does when it is switched to again is its `Continuation`.

`System.step` puts the steps together. A label that does not apply at a point of the run changes
nothing. The interrupt handler may run between any two steps. A call is one step, and so is the
choice of `process_yield`: it reads the queue and, if that is empty, counts the sleepers, and an
interrupt between these two reads is not modelled, although the source has interrupts enabled there.
-/

namespace TensorOS

/-! ## State -/

/-- What a process does when it is switched to: start at its entry, return from the call that
yielded, take another round in `process_waitpid`, or come to the end of `process_exit`. -/
inductive Continuation
  | fresh
  | returns
  | waitpid (pid callerPid : UInt32) (wantsCode : Bool)
  | exit
  deriving DecidableEq, Repr

/-- The variables of `scheduler.c`, with `g_kernel_ticks` of the timer. The saved context of a
process is its continuation. -/
structure Scheduler where
  processes : ProcessTable 10
  context : Slot → Continuation
  vruntime : Slot → UInt64
  execStartTick : Slot → UInt64
  queue : ReadyQueue
  current : Option Slot
  nextPid : UInt32
  switchCount : UInt32
  ticks : UInt64

namespace Scheduler

/-- The variables at boot. The queue's arrays are zeroed, but it has no root. -/
def boot : Scheduler where
  processes := fun _ ↦ ProcessCore.resetSlot
  context := fun _ ↦ .fresh
  vruntime := fun _ ↦ 0
  execStartTick := fun _ ↦ 0
  queue :=
    { links :=
        { root := none
          parent := fun _ ↦ some 0
          child := fun _ _ ↦ some 0
          color := fun _ ↦ .black }
      onRq := fun _ ↦ false
      leftmost := none }
  current := none
  nextPid := 1
  switchCount := 0
  ticks := 0

variable (s : Scheduler)

def stateOf (index : Slot) : ProcessState := (s.processes index).state

/-- Replace one entry of the process table. -/
def setProcess (index : Slot) (process : Process) : Scheduler :=
  { s with processes := Function.update s.processes index process }

/-- Change the state of one process. -/
def setState (index : Slot) (state : ProcessState) : Scheduler :=
  s.setProcess index { s.processes index with state := state }

/-- `scheduler_current_process`, as the index of the process. -/
def currentProcess : Option Slot :=
  s.current.filter fun index ↦ s.stateOf index ≠ .unused

/-- `process_current_pid`. -/
def processCurrentPid : UInt32 :=
  match s.currentProcess with
  | some index => (s.processes index).pid
  | none => 0

/-! ## The queue -/

/-- `scheduler_vruntime_before`. -/
def vruntimeBefore (lhsIndex rhsIndex : Slot) : Bool :=
  if s.vruntime lhsIndex < s.vruntime rhsIndex then true
  else if s.vruntime lhsIndex > s.vruntime rhsIndex then false
  else if (s.processes lhsIndex).pid < (s.processes rhsIndex).pid then true
  else if (s.processes lhsIndex).pid > (s.processes rhsIndex).pid then false
  else lhsIndex < rhsIndex

/-- `scheduler_min_vruntime`. -/
def minVruntime : UInt64 :=
  let running := s.current.filter fun index ↦ s.stateOf index = .running
  match s.queue.leftmost, running with
  | none, none => 0
  | some leftmost, none => s.vruntime leftmost
  | none, some current => s.vruntime current
  | some leftmost, some current =>
    if s.vruntime current < s.vruntime leftmost then s.vruntime current else s.vruntime leftmost

/-- `scheduler_account_runtime`. -/
def accountRuntime (index : Slot) : Scheduler :=
  if s.stateOf index ≠ .running then s
  else
    let now := s.ticks
    let started := s.execStartTick index
    let charge := if now > started then now - started else 1
    { s with
      vruntime := Function.update s.vruntime index (s.vruntime index + charge)
      execStartTick := Function.update s.execStartTick index now }

/-- `scheduler_sync_ready_queue`. -/
def syncReadyQueue : Except Fault Scheduler := do
  let queue ← (List.finRange 10).foldlM (fun queue index ↦
    if s.stateOf index = .ready then readyQueueInsert s.vruntimeBefore queue index
    else readyQueueRemove queue index) s.queue
  .ok { s with queue := queue }

/-- `scheduler_pick_next_ready`. -/
def pickNextReady : Option Slot := s.queue.leftmost

/-- `scheduler_reset_process_slot`. -/
def resetProcessSlot (index : Slot) : Except Fault Scheduler := do
  let queue ← readyQueueRemove s.queue index
  .ok { s with
    processes := Function.update s.processes index ProcessCore.resetSlot
    vruntime := Function.update s.vruntime index 0
    execStartTick := Function.update s.execStartTick index 0
    queue :=
      { queue with
        links := clearSlot queue.links index
        onRq := Function.update queue.onRq index false } }

/-- `scheduler_make_process_ready`. -/
def makeProcessReady (index : Slot) : Except Fault Scheduler :=
  (s.setProcess index (ProcessCore.makeReady (s.processes index))).syncReadyQueue

/-- `scheduler_block_process`. -/
def blockProcess (index : Slot) (waitReason : WaitReason) (waitChannel : UInt32) (wakeTick : UInt64)
    (waitTargetPid : UInt32) : Except Fault Scheduler :=
  (s.setProcess index (ProcessCore.block (s.processes index) waitReason waitChannel wakeTick
    waitTargetPid)).syncReadyQueue

/-- `scheduler_start_first_process`, for a slot. -/
def startFirstProcess (processIndex : Slot) : Except Fault Scheduler :=
  let s := { s with current := some processIndex }
  let s := s.setState processIndex .running
  let s := { s with execStartTick := Function.update s.execStartTick processIndex s.ticks }
  s.syncReadyQueue

/-- `scheduler_switch_process`, up to the switch of the context. -/
def switchProcess (currentIndex nextIndex : Slot) : Except Fault Scheduler :=
  let s := s.accountRuntime currentIndex
  let s := if s.stateOf currentIndex = .running then s.setState currentIndex .ready else s
  let next := s.processes nextIndex
  let s := s.setProcess nextIndex
    { next with state := .running, switchCount := next.switchCount + 1 }
  let s := { s with
    current := some nextIndex
    execStartTick := Function.update s.execStartTick nextIndex s.ticks }
  s.syncReadyQueue

/-! ## Calls -/

/-- The assignments of `process_spawn_with_role` to a free slot. -/
def fillSlot (index : Slot) (name : Option String) (role : UInt32) : Scheduler :=
  let process : Process :=
    { pid := s.nextPid, parentPid := s.processCurrentPid, name := some (name.getD "PROC"),
      role := role, state := .ready, exitCode := 0, switchCount := 0, yieldCount := 0,
      wakeTick := 0, waitTargetPid := 0, waitReason := .none, waitChannel := 0 }
  let s := { s.setProcess index process with nextPid := s.nextPid + 1 }
  { s with
    vruntime := Function.update s.vruntime index s.minVruntime
    execStartTick := Function.update s.execStartTick index 0
    context := Function.update s.context index .fresh }

/-- `process_spawn_with_role`, with the pid it returns. The first argument is
`CONFIG_RUNTIME_SINGLE_FOREGROUND`, and an entry may be missing. -/
def processSpawnWithRole (singleForeground : Bool) (name : Option String) (hasEntry : Bool)
    (role : UInt32) : Except Fault (Scheduler × UInt32) :=
  match ProcessCore.findFreeSlot s.processes with
  | none => .ok (s, 0)
  | some index =>
    if hasEntry = false ∨ s.nextPid = 0 then .ok (s, 0)
    else if ProcessCore.runtimePolicyCanSpawn s.processes singleForeground role = false then
      .ok (s, 0)
    else do
      let s ← (s.fillSlot index name role).syncReadyQueue
      .ok (s, (s.processes index).pid)

/-- How a call ends as far as it is one step: it returns a value (0 when it has none to return), or
it goes on with `process_yield`. -/
inductive Outcome
  | returned (value : UInt32)
  | yields (k : Continuation)
  deriving DecidableEq, Repr

/-- `process_exit`, up to `process_yield`. Nothing is done about the queue. -/
def processExit (exitCode : Int32) : Scheduler :=
  match s.currentProcess with
  | none => s
  | some index =>
    let process := s.processes index
    let s := s.setProcess index { process with state := .zombie, exitCode := exitCode }
    { s with processes := (ProcessCore.wakeWaitingParent s.processes process.pid).1 }

/-- `process_kill`. -/
def processKill (pid : UInt32) (exitCode : Int32) : Except Fault (Scheduler × Outcome) :=
  match ProcessCore.findIndexByPid s.processes pid with
  | none => .ok (s, .returned 0)
  | some index =>
    if s.current = some index then .ok (s.processExit exitCode, .yields .exit)
    else
      let process := s.processes index
      if process.state = .ready ∨ process.state = .running ∨ process.state = .blocked then do
        let s := s.setProcess index { process with state := .zombie, exitCode := exitCode }
        let s := { s with processes := (ProcessCore.wakeWaitingParent s.processes pid).1 }
        let s ← s.syncReadyQueue
        .ok (s, .returned 1)
      else .ok (s, .returned 1)

/-- `process_reap`, with the exit code when it returns 1. -/
def processReap (pid : UInt32) : Except Fault (Scheduler × Option Int32) :=
  match ProcessCore.findIndexByPid s.processes pid with
  | none => .ok (s, none)
  | some index =>
    if s.stateOf index ≠ .zombie then .ok (s, none)
    else do
      let exitCode := (s.processes index).exitCode
      let s ← s.resetProcessSlot index
      .ok (s, some exitCode)

/-- How a round of the loop in `process_waitpid` ends: with a child and its exit code, with -1, or
with `process_yield`. -/
inductive WaitRound
  | child (pid : UInt32) (exitCode : Int32)
  | failed
  | yields
  deriving DecidableEq, Repr

/-- A round of the loop in `process_waitpid`. -/
def processWaitpidRound (pid callerPid : UInt32) : Except Fault (Scheduler × WaitRound) :=
  match ProcessCore.findWaitableChild s.processes callerPid pid with
  | some childIndex => do
    let child := s.processes childIndex
    let s ← s.resetProcessSlot childIndex
    .ok (s, .child child.pid child.exitCode)
  | none =>
    if ProcessCore.hasChild s.processes callerPid pid = false then .ok (s, .failed)
    else
      match s.current with
      | some index => do
        let s ← s.blockProcess index .child pid 0 pid
        .ok (s, .yields)
      | none => .ok (s, .yields)

/-- `process_sleep`. -/
def processSleep (ticks : UInt32) : Except Fault (Scheduler × Outcome) :=
  match s.currentProcess with
  | none => .ok (s, .returned 0)
  | some index =>
    if ticks = 0 then .ok (s, .yields .returns)
    else do
      let wakeTick := s.ticks + ticks.toUInt64
      let s := s.setProcess index { s.processes index with wakeTick := wakeTick }
      let s ← s.blockProcess index .sleepTicks ticks wakeTick 0
      .ok (s, .yields .returns)

/-- `process_block`. -/
def processBlock (pid : UInt32) : Except Fault (Scheduler × Outcome) :=
  match ProcessCore.findIndexByPid s.processes pid with
  | none => .ok (s, .returned 0)
  | some index =>
    if s.stateOf index ≠ .ready ∧ s.stateOf index ≠ .running then .ok (s, .returned 0)
    else do
      let outcome := if s.current = some index then Outcome.yields .returns else .returned 1
      let s ← s.blockProcess index .manual pid 0 0
      .ok (s, outcome)

/-- `process_wake`. -/
def processWake (pid : UInt32) : Except Fault (Scheduler × Outcome) :=
  match ProcessCore.findIndexByPid s.processes pid with
  | none => .ok (s, .returned 0)
  | some index => do
    let s ← s.makeProcessReady index
    .ok (s, .returned 1)

/-- `process_wait_channel`. -/
def processWaitChannel (channel : UInt32) : Except Fault (Scheduler × Outcome) :=
  match s.current with
  | none => .ok (s, .returned 0)
  | some index => do
    let s ← s.blockProcess index .eventChannel channel 0 0
    .ok (s, .yields .returns)

/-- Take over a table after waking, and the number of processes woken. -/
def wakeAndSync (woken : ProcessTable 10 × ℕ) : Except Fault (Scheduler × Outcome) := do
  let s ← { s with processes := woken.1 }.syncReadyQueue
  .ok (s, .returned (.ofNat woken.2))

/-- `process_wake_channel`. -/
def processWakeChannel (channel : UInt32) : Except Fault (Scheduler × Outcome) :=
  s.wakeAndSync (ProcessCore.wakeChannel s.processes channel)

/-- `process_wake_first_channel`. -/
def processWakeFirstChannel (channel : UInt32) : Except Fault (Scheduler × Outcome) :=
  s.wakeAndSync (ProcessCore.wakeFirstChannel s.processes channel s.current)

/-- `process_tick`. -/
def processTick (tickCount : UInt64) : Except Fault Scheduler :=
  { s with processes := (ProcessCore.wakeSleepers s.processes tickCount).1 }.syncReadyQueue

/-- `systimer_tick_isr`, as far as it concerns the scheduler. -/
def systimerTickIsr : Except Fault Scheduler :=
  { s with ticks := s.ticks + 1 }.processTick (s.ticks + 1)

end Scheduler

/-! ## Runs -/

/-- Why the system has stopped: there is no first process to start, `process_yield` finds "no
runnable processes", or it returns to `process_exit`. -/
inductive Halt
  | noFirst
  | noRunnable
  | exitReturned
  deriving DecidableEq, Repr

/-- Where a run stands: in process code (or in boot code, before the first process starts), at the
points of `process_yield` around its choice, back in a process that was switched to, or stopped. -/
inductive Control
  | user
  | yielding (k : Continuation)
  | idle (k : Continuation)
  | picked (k : Continuation) (next : Slot)
  | resume (k : Continuation)
  | halted (reason : Halt)
  deriving DecidableEq, Repr

/-- What an observer of a run sees of the processes' ends. An answer of `process_waitpid` comes with
whether the caller asked for the exit code. -/
inductive Event
  | spawned (pid parentPid : UInt32)
  | exited (pid : UInt32) (exitCode : Int32)
  | killed (pid : UInt32) (exitCode : Int32)
  | reaped (pid : UInt32) (exitCode : Int32)
  | waited (callerPid pid : UInt32) (wantsCode : Bool) (result : Int32) (exitCode : Option Int32)
  deriving DecidableEq, Repr

/-- The calls a process can make. -/
inductive Call
  | spawn (name : Option String) (hasEntry : Bool) (role : UInt32)
  | yield
  | exit (exitCode : Int32)
  | kill (pid : UInt32) (exitCode : Int32)
  | reap (pid : UInt32)
  | waitpid (pid : UInt32) (wantsCode : Bool)
  | sleep (ticks : UInt32)
  | block (pid : UInt32)
  | wake (pid : UInt32)
  | waitChannel (channel : UInt32)
  | wakeChannel (channel : UInt32)
  | wakeFirstChannel (channel : UInt32)
  | tick (tickCount : UInt64)
  deriving DecidableEq, Repr

/-- The steps of a run: a call, the timer interrupt, and the parts of `process_yield`. -/
inductive Label
  | call (c : Call)
  | timer
  | pick
  | wait
  | switch
  | resume
  deriving DecidableEq, Repr

structure System where
  scheduler : Scheduler
  control : Control

namespace System

def boot : System := ⟨.boot, .user⟩

/-- A call that is over as far as it is one step. -/
def finish : Scheduler × Scheduler.Outcome → System
  | (s, .returned _) => ⟨s, .user⟩
  | (s, .yields k) => ⟨s, .yielding k⟩

/-- A round of `process_waitpid`. -/
def waitpidRound (s : Scheduler) (pid callerPid : UInt32) (wantsCode : Bool) :
    Except Fault (System × List Event) := do
  let (s, round) ← s.processWaitpidRound pid callerPid
  match round with
  | .child child exitCode =>
    .ok (⟨s, .user⟩, [.waited callerPid pid wantsCode child.toInt32
      (if wantsCode then some exitCode else none)])
  | .failed => .ok (⟨s, .user⟩, [.waited callerPid pid wantsCode (-1) none])
  | .yields => .ok (⟨s, .yielding (.waitpid pid callerPid wantsCode)⟩, [])

/-- The exit of the current process, if there is one. -/
def exitEvents (s : Scheduler) (exitCode : Int32) : List Event :=
  match s.currentProcess with
  | some index => [.exited (s.processes index).pid exitCode]
  | none => []

/-- The first step of a call. -/
def call (singleForeground : Bool) (s : Scheduler) : Call → Except Fault (System × List Event)
  | .spawn name hasEntry role => do
    let (t, pid) ← s.processSpawnWithRole singleForeground name hasEntry role
    .ok (⟨t, .user⟩, if pid = 0 then [] else [.spawned pid s.processCurrentPid])
  | .yield => .ok (⟨s, .yielding .returns⟩, [])
  | .exit exitCode => .ok (⟨s.processExit exitCode, .yielding .exit⟩, exitEvents s exitCode)
  | .kill pid exitCode => do
    let t ← s.processKill pid exitCode
    .ok (finish t, match ProcessCore.findIndexByPid s.processes pid with
      | some _ => [.killed pid exitCode]
      | none => [])
  | .reap pid => do
    let (t, exitCode) ← s.processReap pid
    .ok (⟨t, .user⟩, match exitCode with
      | some exitCode => [.reaped pid exitCode]
      | none => [])
  | .waitpid pid wantsCode =>
    let callerPid := s.processCurrentPid
    if callerPid = 0 then .ok (⟨s, .user⟩, [.waited callerPid pid wantsCode (-1) none])
    else waitpidRound s pid callerPid wantsCode
  | .sleep ticks => do .ok (finish (← s.processSleep ticks), [])
  | .block pid => do .ok (finish (← s.processBlock pid), [])
  | .wake pid => do .ok (finish (← s.processWake pid), [])
  | .waitChannel channel => do .ok (finish (← s.processWaitChannel channel), [])
  | .wakeChannel channel => do .ok (finish (← s.processWakeChannel channel), [])
  | .wakeFirstChannel channel => do .ok (finish (← s.processWakeFirstChannel channel), [])
  | .tick tickCount => do .ok (⟨← s.processTick tickCount, .user⟩, [])

/-- `process_yield` once it has a next process: the caller itself goes on, and another one is
switched to. -/
def chosen (s : Scheduler) (k : Continuation) (next : Slot) : System :=
  if s.current = some next then
    ⟨if s.stateOf next = .unused then s else s.setState next .running, .resume k⟩
  else ⟨s, .picked k next⟩

/-- `process_yield` counts the call, when there is a process that makes it. -/
def countYield (s : Scheduler) (index : Slot) : Scheduler :=
  let process := s.processes index
  if process.state = .unused then s
  else s.setProcess index { process with yieldCount := process.yieldCount + 1 }

/-- `process_yield` up to the choice of the next process, in one step: what it finds in the queue
and among the sleepers is of one moment. Before the first process has started there is no caller. -/
def pick (s : Scheduler) (k : Continuation) : System :=
  match s.current with
  | none =>
    match s.pickNextReady with
    | none => ⟨s, .halted .noFirst⟩
    | some next => ⟨s, .picked k next⟩
  | some index =>
    let s := countYield s index
    match s.pickNextReady with
    | some next => chosen s k next
    | none =>
      if s.stateOf index = .running then ⟨s, .resume k⟩
      else if ProcessCore.countBlockedSleepers s.processes ≠ 0 then ⟨s, .idle k⟩
      else ⟨s, .halted .noRunnable⟩

/-- A round of the loop in which `process_yield` waits for an interrupt. -/
def wait (s : Scheduler) (k : Continuation) : Except Fault System := do
  let s ← s.syncReadyQueue
  match s.pickNextReady with
  | none => .ok ⟨s, .idle k⟩
  | some next => .ok (chosen s k next)

/-- The switch at the end of `process_yield`, or the start of the first process. -/
def switch (s : Scheduler) (k : Continuation) (next : Slot) : Except Fault System :=
  match s.current with
  | none => do
    let s ← s.startFirstProcess next
    .ok ⟨s, .resume (s.context next)⟩
  | some index => do
    let s := { s with switchCount := s.switchCount + 1 }
    let s ← { s with context := Function.update s.context index k }.switchProcess index next
    .ok ⟨s, .resume (s.context next)⟩

/-- What a process does that is back from `process_yield`, or starts. -/
def goOn (s : Scheduler) : Continuation → Except Fault (System × List Event)
  | .fresh => .ok (⟨s, .user⟩, [])
  | .returns => .ok (⟨s, .user⟩, [])
  | .waitpid pid callerPid wantsCode => waitpidRound s pid callerPid wantsCode
  | .exit => .ok (⟨s, .halted .exitReturned⟩, [])

/-- **One step of the system**, with what is to be seen of it. -/
def step (singleForeground : Bool) (sys : System) (l : Label) :
    Except Fault (System × List Event) :=
  match l, sys.control with
  | .call c, .user => call singleForeground sys.scheduler c
  | .pick, .yielding k => .ok (pick sys.scheduler k, [])
  | .wait, .idle k => do .ok (← wait sys.scheduler k, [])
  | .switch, .picked k next => do .ok (← switch sys.scheduler k next, [])
  | .resume, .resume k => goOn sys.scheduler k
  | .timer, .halted _ => .ok (sys, [])
  | .timer, control => do .ok (⟨← sys.scheduler.systimerTickIsr, control⟩, [])
  | _, _ => .ok (sys, [])

end System

end TensorOS
