import TensorOS.Sched.Sync

/-!
# What a step can do

`Move sys l sys' es` lists the outcomes of a step, one constructor for each, with the state it leads
to written out up to the queue. A step never faults when the queue is sound, and its outcome is one
of these (`exists_move`). Everything that is proved about runs is proved from this list.
-/

namespace TensorOS

namespace Scheduler

variable {s : Scheduler}

/-- A process comes to its end: it is a zombie, and processes that wait for it are READY. -/
def endProcess (s : Scheduler) (index : Slot) (exitCode : Int32) : Scheduler :=
  let process := s.processes index
  let t := s.setProcess index { process with state := .zombie, exitCode := exitCode }
  { t with processes := (ProcessCore.wakeWaitingParent t.processes process.pid).1 }

/-- A process waits. -/
def setBlocked (s : Scheduler) (index : Slot) (waitReason : WaitReason) (waitChannel : UInt32)
    (wakeTick : UInt64) (waitTargetPid : UInt32) : Scheduler :=
  s.setProcess index
    (ProcessCore.block (s.processes index) waitReason waitChannel wakeTick waitTargetPid)

/-- The slot of a collected process is as it was at boot, and so is its place in the queue. -/
structure Resets (s : Scheduler) (index : Slot) (s' : Scheduler) : Prop where
  eq : s' = { s with
    processes := Function.update s.processes index ProcessCore.resetSlot
    vruntime := Function.update s.vruntime index 0
    execStartTick := Function.update s.execStartTick index 0
    queue := s'.queue }
  sound : s'.QueueSound
  onRq : s'.queue.onRq = Function.update s.queue.onRq index false
  sorted : s.QueueSorted → s'.QueueSorted

/-- Some blocked processes are made READY, and time may pass. -/
structure Wakes (s t : Scheduler) : Prop where
  eq : t = { s with processes := t.processes, ticks := t.ticks }
  processes : ∀ i, t.processes i = s.processes i ∨
    t.processes i = ProcessCore.makeReady (s.processes i)

/-- A new process in a free slot, as the policy allows it. -/
structure Spawns (singleForeground : Bool) (s : Scheduler) (index : Slot) (t : Scheduler) :
    Prop where
  free : s.stateOf index = .unused
  nextPid : s.nextPid ≠ 0
  eq : ∃ process vruntime, t = { s with
      processes := Function.update s.processes index process
      nextPid := s.nextPid + 1
      vruntime := Function.update s.vruntime index vruntime
      execStartTick := Function.update s.execStartTick index 0
      context := Function.update s.context index .fresh } ∧
    process.pid = s.nextPid ∧ process.parentPid = s.processCurrentPid ∧ process.state = .ready ∧
    process.exitCode = 0 ∧ process.waitReason = .none ∧
    ProcessCore.runtimePolicyCanSpawn s.processes singleForeground process.role = true

/-- The first process starts. -/
def started (s : Scheduler) (next : Slot) : Scheduler :=
  let t := { s with current := some next }.setState next .running
  { t with execStartTick := Function.update s.execStartTick next s.ticks }

/-- What a process is charged for the time since it was switched to. -/
def charge (s : Scheduler) (index : Slot) : UInt64 :=
  if s.ticks > s.execStartTick index then s.ticks - s.execStartTick index else 1

/-- The process gives up the processor: it is charged and READY again if it was RUNNING. -/
def suspended (s : Scheduler) (index : Slot) (k : Continuation) : Scheduler :=
  { s with
    switchCount := s.switchCount + 1
    context := Function.update s.context index k
    processes := Function.update s.processes index { s.processes index with
      state := if s.stateOf index = .running then .ready else s.stateOf index }
    vruntime := if s.stateOf index = .running then
        Function.update s.vruntime index (s.vruntime index + s.charge index)
      else s.vruntime
    execStartTick := if s.stateOf index = .running then
        Function.update s.execStartTick index s.ticks
      else s.execStartTick }

/-- The next process takes the processor. -/
def resumed (s : Scheduler) (next : Slot) : Scheduler :=
  let process := s.processes next
  let t := s.setProcess next { process with
    state := .running
    switchCount := process.switchCount + 1 }
  { t with current := some next, execStartTick := Function.update t.execStartTick next t.ticks }

end Scheduler

open Scheduler

/-- Where a round of `process_waitpid` stands: at the start of the call, or after a switch back. -/
inductive WaitsAt (s : Scheduler) (pid callerPid : UInt32) (wantsCode : Bool) : Control → Prop
  | call : s.processCurrentPid = callerPid → callerPid ≠ 0 → WaitsAt s pid callerPid wantsCode .user
  | again : WaitsAt s pid callerPid wantsCode (.resume (.waitpid pid callerPid wantsCode))

/-- **The outcomes of a step.** -/
inductive Move (singleForeground : Bool) : System → Label → System → List Event → Prop
  /-- A call without effect, or a label that does not apply. -/
  | quiet {sys : System} {l : Label} : Move singleForeground sys l sys []
  | yields {s : Scheduler} {c : Call} : Move singleForeground ⟨s, .user⟩ (.call c)
      ⟨s, .yielding .returns⟩ []
  | exitBoot {s : Scheduler} {c : Call} : s.currentProcess = none →
      Move singleForeground ⟨s, .user⟩ (.call c) ⟨s, .yielding .exit⟩ []
  | spawns {s t s' : Scheduler} {c : Call} {index : Slot} : Spawns singleForeground s index t →
      Synced t s' →
      Move singleForeground ⟨s, .user⟩ (.call c) ⟨s', .user⟩
        [.spawned s.nextPid s.processCurrentPid]
  | exits {s : Scheduler} {c : Call} {index : Slot} {exitCode : Int32} {e : Event} :
      s.currentProcess = some index →
      c = .exit exitCode ∧ e = .exited (s.processes index).pid exitCode ∨
        c = .kill (s.processes index).pid exitCode ∧ e = .killed (s.processes index).pid exitCode →
      Move singleForeground ⟨s, .user⟩ (.call c) ⟨s.endProcess index exitCode, .yielding .exit⟩ [e]
  | kills {s s' : Scheduler} {c : Call} {index : Slot} {exitCode : Int32} :
      s.current ≠ some index → s.stateOf index ≠ .unused → s.stateOf index ≠ .zombie →
      Synced (s.endProcess index exitCode) s' →
      Move singleForeground ⟨s, .user⟩ (.call c) ⟨s', .user⟩
        [.killed (s.processes index).pid exitCode]
  | killsZombie {s : Scheduler} {c : Call} {index : Slot} {exitCode : Int32} :
      s.current ≠ some index → s.stateOf index = .zombie →
      Move singleForeground ⟨s, .user⟩ (.call c) ⟨s, .user⟩
        [.killed (s.processes index).pid exitCode]
  | reaps {s s' : Scheduler} {c : Call} {index : Slot} : s.stateOf index = .zombie →
      Resets s index s' → Move singleForeground ⟨s, .user⟩ (.call c) ⟨s', .user⟩
        [.reaped (s.processes index).pid (s.processes index).exitCode]
  | collects {s s' : Scheduler} {l : Label} {control : Control} {index : Slot}
      {pid callerPid : UInt32} {wantsCode : Bool} :
      WaitsAt s pid callerPid wantsCode control → s.stateOf index = .zombie →
      ProcessCore.IsTarget callerPid pid (s.processes index) → Resets s index s' →
      Move singleForeground ⟨s, control⟩ l ⟨s', .user⟩ [.waited callerPid pid wantsCode
        (s.processes index).pid.toInt32
        (if wantsCode then some (s.processes index).exitCode else none)]
  | waitFails {s : Scheduler} {l : Label} {control : Control} {pid callerPid : UInt32}
      {wantsCode : Bool} :
      control = .user ∨ control = .resume (.waitpid pid callerPid wantsCode) →
      Move singleForeground ⟨s, control⟩ l ⟨s, .user⟩ [.waited callerPid pid wantsCode (-1) none]
  | waitBlocks {s s' : Scheduler} {l : Label} {control : Control} {index : Slot}
      {pid callerPid : UInt32} {wantsCode : Bool} :
      WaitsAt s pid callerPid wantsCode control → s.current = some index →
      (∀ i, ProcessCore.IsTarget callerPid pid (s.processes i) → s.stateOf i ≠ .zombie) →
      Synced (s.setBlocked index .child pid 0 pid) s' →
      Move singleForeground ⟨s, control⟩ l ⟨s', .yielding (.waitpid pid callerPid wantsCode)⟩ []
  | waitYields {s : Scheduler} {l : Label} {control : Control} {pid callerPid : UInt32}
      {wantsCode : Bool} : WaitsAt s pid callerPid wantsCode control → s.current = none →
      Move singleForeground ⟨s, control⟩ l ⟨s, .yielding (.waitpid pid callerPid wantsCode)⟩ []
  | blocks {s s' : Scheduler} {c : Call} {index : Slot} {waitReason : WaitReason}
      {waitChannel : UInt32} {wakeTick : UInt64} :
      s.current = some index → waitReason ≠ .child →
      Synced (s.setBlocked index waitReason waitChannel wakeTick 0) s' →
      Move singleForeground ⟨s, .user⟩ (.call c) ⟨s', .yielding .returns⟩ []
  | blocksOther {s s' : Scheduler} {c : Call} {index : Slot} {waitChannel : UInt32} :
      s.current ≠ some index → s.stateOf index = .ready ∨ s.stateOf index = .running →
      Synced (s.setBlocked index .manual waitChannel 0 0) s' →
      Move singleForeground ⟨s, .user⟩ (.call c) ⟨s', .user⟩ []
  | wakes {s t s' : Scheduler} {l : Label} {control : Control} : Wakes s t → Synced t s' →
      (∀ reason, control ≠ .halted reason) → Move singleForeground ⟨s, control⟩ l ⟨s', control⟩ []
  | picksNone {s : Scheduler} {k : Continuation} : s.current = none → s.queue.leftmost = none →
      Move singleForeground ⟨s, .yielding k⟩ .pick ⟨s, .halted .noFirst⟩ []
  | picksFirst {s : Scheduler} {k : Continuation} {next : Slot} : s.current = none →
      s.queue.leftmost = some next →
      Move singleForeground ⟨s, .yielding k⟩ .pick ⟨s, .picked k next⟩ []
  | picksBack {s : Scheduler} {k : Continuation} {index : Slot} : s.current = some index →
      s.queue.leftmost = none → s.stateOf index = .running →
      Move singleForeground ⟨s, .yielding k⟩ .pick ⟨System.countYield s index, .resume k⟩ []
  | picksSelf {s : Scheduler} {k : Continuation} {index : Slot} : s.current = some index →
      s.queue.leftmost = some index →
      Move singleForeground ⟨s, .yielding k⟩ .pick
        (System.chosen (System.countYield s index) k index) []
  | picksOther {s : Scheduler} {k : Continuation} {index next : Slot} : s.current = some index →
      s.queue.leftmost = some next → next ≠ index →
      Move singleForeground ⟨s, .yielding k⟩ .pick ⟨System.countYield s index, .picked k next⟩ []
  | picksIdle {s : Scheduler} {k : Continuation} {index : Slot} : s.current = some index →
      s.queue.leftmost = none → s.stateOf index ≠ .running →
      ProcessCore.countBlockedSleepers s.processes ≠ 0 →
      Move singleForeground ⟨s, .yielding k⟩ .pick ⟨System.countYield s index, .idle k⟩ []
  | picksHalt {s : Scheduler} {k : Continuation} {index : Slot} : s.current = some index →
      s.queue.leftmost = none → s.stateOf index ≠ .running →
      ProcessCore.countBlockedSleepers s.processes = 0 →
      Move singleForeground ⟨s, .yielding k⟩ .pick ⟨System.countYield s index, .halted .noRunnable⟩
        []
  | waitsOn {s s' : Scheduler} {k : Continuation} : Synced s s' → s'.queue.leftmost = none →
      Move singleForeground ⟨s, .idle k⟩ .wait ⟨s', .idle k⟩ []
  | waitsSelf {s s' : Scheduler} {k : Continuation} {index : Slot} : Synced s s' →
      s.current = some index → s'.queue.leftmost = some index →
      Move singleForeground ⟨s, .idle k⟩ .wait (System.chosen s' k index) []
  | waitsOther {s s' : Scheduler} {k : Continuation} {next : Slot} : Synced s s' →
      s'.queue.leftmost = some next → s.current ≠ some next →
      Move singleForeground ⟨s, .idle k⟩ .wait ⟨s', .picked k next⟩ []
  | starts {s s' : Scheduler} {k : Continuation} {next : Slot} : s.current = none →
      Synced (s.started next) s' →
      Move singleForeground ⟨s, .picked k next⟩ .switch ⟨s', .resume (s'.context next)⟩ []
  | switches {s s' : Scheduler} {k : Continuation} {index next : Slot} : s.current = some index →
      Synced ((s.suspended index k).resumed next) s' →
      Move singleForeground ⟨s, .picked k next⟩ .switch ⟨s', .resume (s'.context next)⟩ []
  | goesOn {s : Scheduler} {k : Continuation} : k = .fresh ∨ k = .returns →
      Move singleForeground ⟨s, .resume k⟩ .resume ⟨s, .user⟩ []
  | exitReturns {s : Scheduler} : Move singleForeground ⟨s, .resume .exit⟩ .resume
      ⟨s, .halted .exitReturned⟩ []

/-! ## Specifications of the parts -/

namespace Scheduler

variable {s : Scheduler}

theorem switchProcess_eq (s : Scheduler) (index next : Slot) (k : Continuation) :
    switchProcess { s with
      switchCount := s.switchCount + 1
      context := Function.update s.context index k } index next
      = ((s.suspended index k).resumed next).syncReadyQueue := by
  by_cases hrun : (s.processes index).state = .running
  · simp [switchProcess, suspended, accountRuntime, charge, resumed, setState, setProcess, stateOf,
      hrun]
  · simp [switchProcess, suspended, accountRuntime, resumed, setProcess, stateOf, hrun]

theorem resetProcessSlot_spec (h : s.QueueSound) (index : Slot) :
    ∃ s', s.resetProcessSlot index = .ok s' ∧ Resets s index s' := by
  -- a slot that is off the queue may be cleared
  have hclear : ∀ {rq : ReadyQueue} {l : List Slot}, rq.Holds l → index ∉ l →
      ReadyQueue.Holds { rq with
        links := clearSlot rq.links index
        onRq := Function.update rq.onRq index false } l := by
    intro rq l hl hmem
    obtain ⟨⟨t, m, hrep, hbal, hlist⟩, honRq, hleft⟩ := hl
    refine ⟨⟨t, m, hrep.clearSlot (by simpa [pathNodes, hlist] using hmem), hbal, hlist⟩,
      fun i ↦ ?_, hleft⟩
    change Function.update rq.onRq index false i = true ↔ _
    rw [Function.update_apply]
    by_cases hi : i = index
    · simp [hi, hmem]
    · simp [hi, honRq]
  have hremove : ∀ {l : List Slot}, s.queue.Holds l →
      ∃ rq', readyQueueRemove s.queue index = .ok rq' ∧
      rq'.Holds (l.erase index) ∧ rq'.onRq = Function.update s.queue.onRq index false := by
    intro l hl
    cases hon : s.queue.onRq index with
    | true => exact hl.remove hon
    | false =>
      have hmem : index ∉ l := fun hmem ↦ by simp [(hl.onRq index).mpr hmem] at hon
      refine ⟨s.queue, by rw [readyQueueRemove, if_pos hon], ?_, ?_⟩
      · rwa [List.erase_of_not_mem hmem]
      · rw [← hon, Function.update_eq_self]
  obtain ⟨l, hl⟩ := h
  obtain ⟨rq, hrun, hrq, honRq⟩ := hremove hl
  refine ⟨_, by rw [resetProcessSlot, hrun, ok_bind], rfl,
    ⟨l.erase index, hclear hrq hl.nodup.not_mem_erase⟩, ?_, fun hsorted ↦ ?_⟩
  · change Function.update rq.onRq index false = _
    rw [honRq, Function.update_idem]
  · obtain ⟨l', hl', hsort⟩ := hsorted
    obtain ⟨rq', hrun', hrq', -⟩ := hremove hl'
    obtain rfl : rq = rq' := Except.ok.inj (hrun.symm.trans hrun')
    refine ⟨l'.erase index, hclear hrq' hl'.nodup.not_mem_erase, ?_⟩
    refine (hsort.sublist List.erase_sublist).imp_of_mem fun {a b} ha hb hab ↦ ?_
    have hne : ∀ {a}, a ∈ l'.erase index → a ≠ index := fun ha ↦
      (hl'.nodup.mem_erase_iff.mp ha).1
    rw [vruntimeBefore_congr] <;>
      first | exact hab | simp [Function.update_of_ne (hne ha), Function.update_of_ne (hne hb)]

theorem findIndexByPid_spec {pid : UInt32} {index : Slot}
    (h : ProcessCore.findIndexByPid s.processes pid = some index) :
    s.stateOf index ≠ .unused ∧ (s.processes index).pid = pid := by
  rw [ProcessCore.findIndexByPid] at h
  split at h
  · cases h
  · simpa [stateOf] using List.find?_some h

end Scheduler

/-! ## Every step is a move -/

/-- The computation succeeds, with one of the outcomes. -/
def Moves (singleForeground : Bool) (sys : System) (l : Label)
    (result : Except Fault (System × List Event)) : Prop :=
  ∃ sys' es, result = .ok (sys', es) ∧ Move singleForeground sys l sys' es

variable {singleForeground : Bool} {s : Scheduler}

theorem moves_quiet {c : Call} {result : Except Fault (System × List Event)}
    (h : result = .ok (⟨s, .user⟩, [])) : Moves singleForeground ⟨s, .user⟩ (.call c) result :=
  ⟨_, _, h, .quiet⟩

theorem moves_spawn (h : s.QueueSound) (name : Option String) (hasEntry : Bool) (role : UInt32)
    (c : Call) : Moves singleForeground ⟨s, .user⟩ (.call c)
      (System.call singleForeground s (.spawn name hasEntry role)) := by
  rw [System.call]
  cases hfree : ProcessCore.findFreeSlot s.processes with
  | none => exact moves_quiet (by simp [processSpawnWithRole, hfree])
  | some index =>
    by_cases hentry : hasEntry = false ∨ s.nextPid = 0
    · exact moves_quiet (by simp [processSpawnWithRole, hfree, hentry])
    by_cases hpolicy : ProcessCore.runtimePolicyCanSpawn s.processes singleForeground role = false
    · exact moves_quiet (by simp [processSpawnWithRole, hfree, hpolicy])
    have hunused : s.stateOf index = .unused := by
      simpa [stateOf] using List.find?_some hfree
    obtain ⟨hhas, hpid⟩ := not_or.mp hentry
    obtain ⟨s', hsync, hs'⟩ := QueueSound.sync (s := s.fillSlot index name role) h
    have hnew : (s'.processes index).pid = s.nextPid := by
      rw [hs'.eq]
      simp [fillSlot, setProcess]
    refine ⟨⟨s', .user⟩, _, ?_, .spawns (t := s.fillSlot index name role)
      ⟨hunused, hpid, _, _, rfl, rfl, rfl, rfl, rfl, rfl, by simpa using hpolicy⟩ hs'⟩
    simp [processSpawnWithRole, hfree, hhas, hpolicy, hsync, hnew, hpid]

theorem moves_kill (h : s.QueueSound) (pid : UInt32) (exitCode : Int32) :
    Moves singleForeground ⟨s, .user⟩ (.call (.kill pid exitCode))
      (System.call singleForeground s (.kill pid exitCode)) := by
  rw [System.call]
  cases hfind : ProcessCore.findIndexByPid s.processes pid with
  | none => exact moves_quiet (by simp [processKill, hfind, System.finish])
  | some index =>
    obtain ⟨hused, rfl⟩ := findIndexByPid_spec hfind
    by_cases hcur : s.current = some index
    · have hproc : s.currentProcess = some index := by simp [currentProcess, hcur, hused]
      have hexit : s.processExit exitCode = s.endProcess index exitCode := by
        simp [processExit, hproc, endProcess]
      refine ⟨⟨s.endProcess index exitCode, .yielding .exit⟩, _, ?_,
        .exits hproc (Or.inr ⟨rfl, rfl⟩)⟩
      simp [processKill, hfind, hcur, hexit, System.finish]
    · by_cases hlive : s.stateOf index = .ready ∨ s.stateOf index = .running ∨
          s.stateOf index = .blocked
      · have hz : s.stateOf index ≠ .zombie := by
          intro heq
          simp [heq] at hlive
        obtain ⟨s', hsync, hs'⟩ := QueueSound.sync (s := s.endProcess index exitCode) h
        refine ⟨⟨s', .user⟩, _, ?_, .kills hcur hused hz hs'⟩
        rw [stateOf] at hlive
        rw [endProcess] at hsync
        simp [processKill, hfind, hcur, hlive, hsync, System.finish]
      · have hz : s.stateOf index = .zombie := by
          cases hst : s.stateOf index <;> simp_all
        refine ⟨⟨s, .user⟩, [.killed (s.processes index).pid exitCode], ?_, .killsZombie hcur hz⟩
        rw [stateOf] at hlive
        simp [processKill, hfind, hcur, hlive, System.finish]

theorem moves_reap (h : s.QueueSound) (pid : UInt32) (c : Call) :
    Moves singleForeground ⟨s, .user⟩ (.call c) (System.call singleForeground s (.reap pid)) := by
  rw [System.call]
  cases hfind : ProcessCore.findIndexByPid s.processes pid with
  | none => exact moves_quiet (by simp [processReap, hfind])
  | some index =>
    obtain ⟨-, rfl⟩ := findIndexByPid_spec hfind
    by_cases hz : s.stateOf index = .zombie
    · obtain ⟨s', hreset, hs'⟩ := resetProcessSlot_spec h index
      refine ⟨⟨s', .user⟩, _, ?_, .reaps hz hs'⟩
      simp [processReap, hfind, hz, hreset]
    · exact moves_quiet (by simp [processReap, hfind, hz])

theorem moves_waitpidRound (h : s.QueueSound) {pid callerPid : UInt32} {wantsCode : Bool}
    {control : Control} (hat : WaitsAt s pid callerPid wantsCode control) (l : Label) :
    Moves singleForeground ⟨s, control⟩ l (System.waitpidRound s pid callerPid wantsCode) := by
  rw [System.waitpidRound]
  cases hfind : ProcessCore.findWaitableChild s.processes callerPid pid with
  | some index =>
    have hchild := List.find?_some hfind
    simp only [decide_eq_true_eq] at hchild
    obtain ⟨s', hreset, hs'⟩ := resetProcessSlot_spec h index
    refine ⟨⟨s', .user⟩, _, ?_, .collects hat hchild.2 hchild.1 hs'⟩
    simp [processWaitpidRound, hfind, hreset]
  | none =>
    have hnone : ∀ i, ProcessCore.IsTarget callerPid pid (s.processes i) →
        s.stateOf i ≠ .zombie := by
      intro i hi hz
      have hi' := List.find?_eq_none.mp hfind i (by simp)
      simp only [decide_eq_true_eq] at hi'
      exact hi' ⟨hi, hz⟩
    by_cases hhas : ProcessCore.hasChild s.processes callerPid pid = false
    · refine ⟨⟨s, .user⟩, [.waited callerPid pid wantsCode (-1) none], ?_, .waitFails ?_⟩
      · simp [processWaitpidRound, hfind, hhas]
      · cases hat with
        | call _ _ => exact Or.inl rfl
        | again => exact Or.inr rfl
    · cases hcur : s.current with
      | none =>
        refine ⟨_, _, ?_, .waitYields hat hcur⟩
        simp [processWaitpidRound, hfind, hhas, hcur]
      | some index =>
        obtain ⟨s', hsync, hs'⟩ := QueueSound.sync (s := s.setBlocked index .child pid 0 pid) h
        refine ⟨_, _, ?_, .waitBlocks hat hcur hnone hs'⟩
        rw [setBlocked] at hsync
        simp [processWaitpidRound, hfind, hhas, hcur, blockProcess, hsync]

theorem moves_blocks (h : s.QueueSound) {index : Slot} (hcur : s.current = some index)
    (waitReason : WaitReason) (hreason : waitReason ≠ .child) (waitChannel : UInt32)
    (wakeTick : UInt64) (c : Call) : Moves singleForeground ⟨s, .user⟩ (.call c) (do
      let t ← s.blockProcess index waitReason waitChannel wakeTick 0
      .ok (⟨t, .yielding .returns⟩, [])) := by
  obtain ⟨s', hsync, hs'⟩ :=
    QueueSound.sync (s := s.setBlocked index waitReason waitChannel wakeTick 0) h
  refine ⟨⟨s', .yielding .returns⟩, [], ?_, .blocks hcur hreason hs'⟩
  rw [setBlocked] at hsync
  simp [blockProcess, hsync]

theorem moves_sleep (h : s.QueueSound) (ticks : UInt32) (c : Call) :
    Moves singleForeground ⟨s, .user⟩ (.call c)
      (System.call singleForeground s (.sleep ticks)) := by
  rw [System.call]
  cases hproc : s.currentProcess with
  | none => exact moves_quiet (by simp [processSleep, hproc, System.finish])
  | some index =>
    have hcur : s.current = some index := (Option.filter_eq_some_iff.mp hproc).1
    by_cases hzero : ticks = 0
    · refine ⟨_, _, ?_, .yields⟩
      simp [processSleep, hproc, hzero, System.finish]
    · have hblock : Moves singleForeground _ _ _ :=
        moves_blocks h hcur .sleepTicks (by decide) ticks (s.ticks + ticks.toUInt64) c
      have hsame : (s.setProcess index { s.processes index with
          wakeTick := s.ticks + ticks.toUInt64 }).blockProcess index .sleepTicks ticks
            (s.ticks + ticks.toUInt64) 0
          = s.blockProcess index .sleepTicks ticks (s.ticks + ticks.toUInt64) 0 := by
        simp [blockProcess, setProcess, ProcessCore.block]
      simpa [processSleep, hproc, hzero, hsame, System.finish] using hblock

theorem moves_block (h : s.QueueSound) (pid : UInt32) (c : Call) :
    Moves singleForeground ⟨s, .user⟩ (.call c) (System.call singleForeground s (.block pid)) := by
  rw [System.call]
  cases hfind : ProcessCore.findIndexByPid s.processes pid with
  | none => exact moves_quiet (by simp [processBlock, hfind, System.finish])
  | some index =>
    by_cases hrun : s.stateOf index ≠ .ready ∧ s.stateOf index ≠ .running
    · exact moves_quiet (by simp [processBlock, hfind, hrun, System.finish])
    by_cases hcur : s.current = some index
    · have hblock : Moves singleForeground _ _ _ :=
        moves_blocks h hcur .manual (by decide) pid 0 c
      simpa [processBlock, hfind, hrun, hcur, System.finish] using hblock
    · obtain ⟨s', hsync, hs'⟩ := QueueSound.sync (s := s.setBlocked index .manual pid 0 0) h
      refine ⟨⟨s', .user⟩, [], ?_, .blocksOther hcur (by tauto) hs'⟩
      rw [setBlocked] at hsync
      simp [processBlock, hfind, hrun, hcur, blockProcess, hsync, System.finish]

theorem moves_waitChannel (h : s.QueueSound) (channel : UInt32) (c : Call) :
    Moves singleForeground ⟨s, .user⟩ (.call c)
      (System.call singleForeground s (.waitChannel channel)) := by
  rw [System.call]
  cases hcur : s.current with
  | none => exact moves_quiet (by simp [processWaitChannel, hcur, System.finish])
  | some index =>
    have hblock : Moves singleForeground _ _ _ :=
      moves_blocks h hcur .eventChannel (by decide) channel 0 c
    simpa [processWaitChannel, hcur, System.finish] using hblock

theorem moves_wakes (h : s.QueueSound) {t : Scheduler} (ht : Wakes s t) (control : Control)
    (hcontrol : ∀ reason, control ≠ .halted reason) (l : Label) :
    Moves singleForeground ⟨s, control⟩ l (do .ok (⟨← t.syncReadyQueue, control⟩, [])) := by
  have hqueue : t.queue = s.queue := by
    rw [ht.eq]
  obtain ⟨s', hsync, hs'⟩ := QueueSound.sync (s := t) (by rwa [QueueSound, hqueue])
  exact ⟨⟨s', control⟩, [], by rw [hsync]; rfl, .wakes ht hs' hcontrol⟩

theorem wakes_of_table {processes : ProcessTable 10} (ticks : UInt64)
    (h : ∀ i, processes i = s.processes i ∨ processes i = ProcessCore.makeReady (s.processes i)) :
    Wakes s { s with processes := processes, ticks := ticks } := ⟨rfl, h⟩

theorem wake_apply {n : ℕ} (processes : ProcessTable n) (test : Process → Bool) (i : Fin n) :
    (ProcessCore.wake processes test).1 i = processes i ∨
      (ProcessCore.wake processes test).1 i = ProcessCore.makeReady (processes i) := by
  simp only [ProcessCore.wake]
  split
  · exact Or.inr rfl
  · exact Or.inl rfl

theorem update_makeReady_apply {n : ℕ} (processes : ProcessTable n) (index i : Fin n) :
    Function.update processes index (ProcessCore.makeReady (processes index)) i = processes i ∨
      Function.update processes index (ProcessCore.makeReady (processes index)) i
        = ProcessCore.makeReady (processes i) := by
  rw [Function.update_apply]
  split
  · next heq => exact Or.inr (by rw [heq])
  · exact Or.inl rfl

theorem wakeFirstChannel_apply {n : ℕ} (processes : ProcessTable n) (channel : UInt32)
    (current : Option (Fin n)) (i : Fin n) :
    (ProcessCore.wakeFirstChannel processes channel current).1 i = processes i ∨
      (ProcessCore.wakeFirstChannel processes channel current).1 i
        = ProcessCore.makeReady (processes i) := by
  rw [ProcessCore.wakeFirstChannel]
  split
  · exact update_makeReady_apply processes _ i
  · exact Or.inl rfl

theorem moves_wake (h : s.QueueSound) (pid : UInt32) (c : Call) :
    Moves singleForeground ⟨s, .user⟩ (.call c) (System.call singleForeground s (.wake pid)) := by
  rw [System.call]
  cases hfind : ProcessCore.findIndexByPid s.processes pid with
  | none => exact moves_quiet (by simp [processWake, hfind, System.finish])
  | some index =>
    have hwake : Moves singleForeground _ _ _ := moves_wakes h
      (wakes_of_table s.ticks (update_makeReady_apply s.processes index)) .user (by simp) (.call c)
    simpa [processWake, hfind, makeProcessReady, setProcess, System.finish] using hwake

theorem moves_wakeAndSync (h : s.QueueSound) {woken : ProcessTable 10 × ℕ} (c : Call)
    (hwoken : ∀ i, woken.1 i = s.processes i ∨ woken.1 i = ProcessCore.makeReady (s.processes i)) :
    Moves singleForeground ⟨s, .user⟩ (.call c)
      (do .ok (System.finish (← s.wakeAndSync woken), [])) := by
  have hwake : Moves singleForeground _ _ _ := moves_wakes h (wakes_of_table s.ticks hwoken) .user
    (by simp) (.call c)
  simpa [wakeAndSync, System.finish] using hwake

theorem moves_call (h : s.QueueSound) (c : Call) :
    Moves singleForeground ⟨s, .user⟩ (.call c) (System.call singleForeground s c) := by
  cases c with
  | spawn name hasEntry role => exact moves_spawn h name hasEntry role _
  | yield => exact ⟨_, _, rfl, .yields⟩
  | exit exitCode =>
    cases hproc : s.currentProcess with
    | none =>
      refine ⟨_, _, ?_, .exitBoot hproc⟩
      simp [System.call, processExit, System.exitEvents, hproc]
    | some index =>
      refine ⟨⟨s.endProcess index exitCode, .yielding .exit⟩, _, ?_,
        .exits hproc (Or.inl ⟨rfl, rfl⟩)⟩
      simp [System.call, processExit, System.exitEvents, hproc, endProcess]
  | kill pid exitCode => exact moves_kill h pid exitCode
  | reap pid => exact moves_reap h pid _
  | waitpid pid wantsCode =>
    rw [System.call]
    by_cases hpid : s.processCurrentPid = 0
    · refine ⟨⟨s, .user⟩, [.waited s.processCurrentPid pid wantsCode (-1) none], ?_,
        .waitFails (Or.inl rfl)⟩
      simp [hpid]
    · simp only [if_neg hpid]
      exact moves_waitpidRound h (.call rfl hpid) _
  | sleep ticks => exact moves_sleep h ticks _
  | block pid => exact moves_block h pid _
  | wake pid => exact moves_wake h pid _
  | waitChannel channel => exact moves_waitChannel h channel _
  | wakeChannel channel => exact moves_wakeAndSync h _ (wake_apply s.processes _)
  | wakeFirstChannel channel =>
    exact moves_wakeAndSync h _ (wakeFirstChannel_apply s.processes channel s.current)
  | tick tickCount =>
    exact moves_wakes h (wakes_of_table s.ticks (wake_apply s.processes _)) .user (by simp) _

theorem countYield_spec (s : Scheduler) (index : Slot) :
    ∃ processes, System.countYield s index = { s with processes := processes } ∧
      ∀ i, ∃ n, processes i = { s.processes i with yieldCount := n } := by
  rw [System.countYield]
  split
  · exact ⟨s.processes, rfl, fun i ↦ ⟨_, rfl⟩⟩
  · refine ⟨_, rfl, fun i ↦ ?_⟩
    rw [Function.update_apply]
    split
    · next heq => exact ⟨_, by rw [heq]⟩
    · exact ⟨_, rfl⟩

theorem countYield_stateOf (index i : Slot) :
    (System.countYield s index).stateOf i = s.stateOf i := by
  obtain ⟨processes, heq, hcount⟩ := countYield_spec s index
  obtain ⟨n, hn⟩ := hcount i
  simp [heq, stateOf, hn]

theorem countYield_sleepers (index : Slot) :
    ProcessCore.countBlockedSleepers (System.countYield s index).processes
      = ProcessCore.countBlockedSleepers s.processes := by
  obtain ⟨processes, heq, hcount⟩ := countYield_spec s index
  refine List.countP_congr fun i _ ↦ ?_
  obtain ⟨n, hn⟩ := hcount i
  simp [heq, hn]

theorem countYield_queue (s : Scheduler) (index : Slot) :
    (System.countYield s index).queue = s.queue := by
  obtain ⟨processes, heq, -⟩ := countYield_spec s index
  rw [heq]

theorem countYield_current (index : Slot) : (System.countYield s index).current = s.current := by
  obtain ⟨processes, heq, -⟩ := countYield_spec s index
  rw [heq]

theorem pick_some {index next : Slot} (hcur : s.current = some index)
    (hleft : s.queue.leftmost = some next) (k : Continuation) :
    System.pick s k = System.chosen (System.countYield s index) k next := by
  simp only [System.pick, hcur, pickNextReady, countYield_queue, hleft]

theorem pick_none {index : Slot} (hcur : s.current = some index) (hleft : s.queue.leftmost = none)
    (k : Continuation) : System.pick s k = ⟨System.countYield s index,
      if s.stateOf index = .running then .resume k
      else if ProcessCore.countBlockedSleepers s.processes ≠ 0 then .idle k
      else .halted .noRunnable⟩ := by
  simp only [System.pick, hcur, pickNextReady, countYield_queue, hleft, countYield_stateOf,
    countYield_sleepers]
  split_ifs <;> rfl

theorem chosen_other {next : Slot} (h : s.current ≠ some next) (k : Continuation) :
    System.chosen s k next = ⟨s, .picked k next⟩ := if_neg h

theorem moves_pick (s : Scheduler) (k : Continuation) :
    Move singleForeground ⟨s, .yielding k⟩ .pick (System.pick s k) [] := by
  cases hcur : s.current with
  | none =>
    cases hleft : s.queue.leftmost with
    | none => simpa [System.pick, hcur, pickNextReady, hleft] using .picksNone hcur hleft
    | some next => simpa [System.pick, hcur, pickNextReady, hleft] using .picksFirst hcur hleft
  | some index =>
    cases hleft : s.queue.leftmost with
    | some next =>
      rw [pick_some hcur hleft]
      by_cases hnext : next = index
      · subst hnext
        exact .picksSelf hcur hleft
      · rw [chosen_other (by rw [countYield_current, hcur]; simpa using Ne.symm hnext)]
        exact .picksOther hcur hleft hnext
    | none =>
      rw [pick_none hcur hleft]
      split_ifs with hrun hsleep
      · exact .picksBack hcur hleft hrun
      · exact .picksIdle hcur hleft hrun hsleep
      · exact .picksHalt hcur hleft hrun (not_not.mp hsleep)

theorem moves_wait (h : s.QueueSound) (k : Continuation) :
    Moves singleForeground ⟨s, .idle k⟩ .wait (do .ok (← System.wait s k, [])) := by
  obtain ⟨s', hsync, hs'⟩ := h.sync
  have hcurrent : s'.current = s.current := by rw [hs'.eq]
  simp only [System.wait, hsync, ok_bind, pickNextReady]
  cases hleft : s'.queue.leftmost with
  | none => exact ⟨_, _, rfl, .waitsOn hs' hleft⟩
  | some next =>
    refine ⟨System.chosen s' k next, [], rfl, ?_⟩
    by_cases hcur : s.current = some next
    · exact .waitsSelf hs' hcur hleft
    · have hother : System.chosen s' k next = ⟨s', .picked k next⟩ := by
        simp [System.chosen, hcurrent, hcur]
      rw [hother]
      exact .waitsOther hs' hleft hcur

theorem switch_spec (h : s.QueueSound) {index : Slot} (hcur : s.current = some index)
    (k : Continuation) (next : Slot) :
    ∃ s', System.switch s k next = .ok ⟨s', .resume (s'.context next)⟩ ∧
      Synced ((s.suspended index k).resumed next) s' := by
  obtain ⟨s', hsync, hs'⟩ := QueueSound.sync (s := (s.suspended index k).resumed next) h
  refine ⟨s', ?_, hs'⟩
  have hrun : Scheduler.switchProcess { s with
      switchCount := s.switchCount + 1
      context := Function.update s.context index k } index next = .ok s' :=
    (switchProcess_eq s index next k).trans hsync
  rw [hcur] at hrun
  simp [System.switch, hcur, hrun]

theorem moves_switch (h : s.QueueSound) (k : Continuation) (next : Slot) :
    Moves singleForeground ⟨s, .picked k next⟩ .switch (do .ok (← System.switch s k next, [])) := by
  cases hcur : s.current with
  | none =>
    obtain ⟨s', hsync, hs'⟩ := QueueSound.sync (s := s.started next) h
    refine ⟨_, _, ?_, .starts hcur hs'⟩
    have hrun : s.startFirstProcess next = .ok s' := hsync
    simp [System.switch, hcur, hrun]
  | some index =>
    obtain ⟨s', hswitch, hs'⟩ := switch_spec h hcur k next
    exact ⟨_, _, by rw [hswitch]; rfl, .switches hcur hs'⟩

theorem timer_spec (singleForeground : Bool) (h : s.QueueSound) {control : Control}
    (hcontrol : ∀ reason, control ≠ .halted reason) :
    ∃ t s', System.step singleForeground ⟨s, control⟩ .timer = .ok (⟨s', control⟩, []) ∧
      Wakes s t ∧ Synced t s' := by
  have ht := wakes_of_table (s := s) (s.ticks + 1)
    (wake_apply s.processes (ProcessCore.sleepsUntil (s.ticks + 1)))
  obtain ⟨s', hsync, hs'⟩ := QueueSound.sync (s := { s with
    processes := (ProcessCore.wakeSleepers s.processes (s.ticks + 1)).1, ticks := s.ticks + 1 }) h
  refine ⟨_, s', ?_, ht, hs'⟩
  have hisr : s.systimerTickIsr = .ok s' := hsync
  cases control with
  | halted reason => exact absurd rfl (hcontrol reason)
  | _ => simp [System.step, hisr]

/-- **Every step is a move**, and no step faults, as long as the queue is sound. -/
theorem exists_move (singleForeground : Bool) {sys : System} (h : sys.scheduler.QueueSound)
    (l : Label) :
    Moves singleForeground sys l (sys.step singleForeground l) := by
  obtain ⟨s, control⟩ := sys
  cases l with
  | call c =>
    cases control with
    | user => exact moves_call h c
    | _ => exact ⟨_, _, rfl, .quiet⟩
  | timer =>
    by_cases hcontrol : ∀ reason, control ≠ .halted reason
    · obtain ⟨t, s', hstep, hw, hs'⟩ := timer_spec singleForeground h hcontrol
      exact ⟨_, _, hstep, .wakes hw hs' hcontrol⟩
    · obtain ⟨reason, hreason⟩ := not_forall_not.mp hcontrol
      subst hreason
      exact ⟨_, _, rfl, .quiet⟩
  | pick =>
    cases control with
    | yielding k => exact ⟨_, _, rfl, moves_pick s k⟩
    | _ => exact ⟨_, _, rfl, .quiet⟩
  | wait =>
    cases control with
    | idle k => exact moves_wait h k
    | _ => exact ⟨_, _, rfl, .quiet⟩
  | switch =>
    cases control with
    | picked k next => exact moves_switch h k next
    | _ => exact ⟨_, _, rfl, .quiet⟩
  | resume =>
    cases control with
    | resume k =>
      cases k with
      | fresh => exact ⟨_, _, rfl, .goesOn (Or.inl rfl)⟩
      | returns => exact ⟨_, _, rfl, .goesOn (Or.inr rfl)⟩
      | waitpid pid callerPid wantsCode => exact moves_waitpidRound h .again _
      | exit => exact ⟨_, _, rfl, .exitReturns⟩
    | _ => exact ⟨_, _, rfl, .quiet⟩

end TensorOS
