import TensorOS.Lib.Transition
import TensorOS.Sched.Moves

/-!
# What holds in every run of the scheduler

`SystemSound` collects what no step of the system can break: the queue is a sound tree, pids of
live entries are distinct and smaller than the next one, the RUNNING process is the current one, a
slot on the queue is READY or the current one, and each point of `process_yield` finds the current
process as it left it. It does not say that the queue holds only READY processes: that is not true
of every run.
-/

namespace TensorOS

open Scheduler

variable {s t s' : Scheduler}

/-! ## States after the parts of a step -/

namespace Scheduler

theorem stateOf_setProcess (index i : Slot) (process : Process) :
    (s.setProcess index process).stateOf i = if i = index then process.state else s.stateOf i := by
  simp only [setProcess, stateOf, Function.update_apply]
  split <;> rfl

theorem Synced.stateOf (h : Synced t s') (i : Slot) : s'.stateOf i = t.stateOf i := by
  rw [h.eq]
  rfl

theorem Synced.processes (h : Synced t s') : s'.processes = t.processes := by rw [h.eq]

theorem Synced.current (h : Synced t s') : s'.current = t.current := by rw [h.eq]

theorem Synced.nextPid (h : Synced t s') : s'.nextPid = t.nextPid := by rw [h.eq]

theorem Synced.context (h : Synced t s') : s'.context = t.context := by rw [h.eq]

theorem endProcess_processes (s : Scheduler) (index : Slot) (exitCode : Int32) (i : Slot) :
    (s.endProcess index exitCode).processes i
      = if i = index then { s.processes index with state := .zombie, exitCode := exitCode }
        else if ProcessCore.waitsForChild (s.processes index).pid (s.processes i) then
          ProcessCore.makeReady (s.processes i)
        else s.processes i := by
  simp only [endProcess, setProcess, ProcessCore.wakeWaitingParent, ProcessCore.wake]
  by_cases hi : i = index
  · subst hi
    simp [ProcessCore.waitsForChild]
  · simp [hi]

theorem endProcess_stateOf (s : Scheduler) (index : Slot) (exitCode : Int32) (i : Slot) :
    (s.endProcess index exitCode).stateOf i = .zombie ∧ i = index ∨
      i ≠ index ∧ ((s.endProcess index exitCode).stateOf i = s.stateOf i ∨
        s.stateOf i = .blocked ∧ (s.endProcess index exitCode).stateOf i = .ready) := by
  rw [stateOf, endProcess_processes]
  by_cases hi : i = index
  · simp [hi]
  · rw [if_neg hi]
    refine Or.inr ⟨hi, ?_⟩
    split
    · rw [ProcessCore.makeReady_state]
      by_cases hb : s.stateOf i = .blocked
      · exact Or.inr ⟨hb, if_pos hb⟩
      · exact Or.inl (if_neg hb)
    · exact Or.inl rfl

theorem endProcess_pid (s : Scheduler) (index : Slot) (exitCode : Int32) (i : Slot) :
    ((s.endProcess index exitCode).processes i).pid = (s.processes i).pid := by
  rw [endProcess_processes]
  split
  · next hi => rw [hi]
  · split
    · exact ProcessCore.makeReady_pid _
    · rfl

/-- Waking leaves a state or makes a blocked process READY. -/
theorem Wakes.stateOf (h : Wakes s t) (i : Slot) :
    t.stateOf i = s.stateOf i ∨ s.stateOf i = .blocked ∧ t.stateOf i = .ready := by
  rw [Scheduler.stateOf, Scheduler.stateOf]
  rcases h.processes i with hi | hi
  · exact Or.inl (congrArg Process.state hi)
  · rw [hi, ProcessCore.makeReady_state]
    split
    · next hb => exact Or.inr ⟨hb, rfl⟩
    · exact Or.inl rfl

theorem Wakes.pid (h : Wakes s t) (i : Slot) : (t.processes i).pid = (s.processes i).pid := by
  rcases h.processes i with hi | hi
  · rw [hi]
  · rw [hi, ProcessCore.makeReady_pid]

theorem Wakes.current (h : Wakes s t) : t.current = s.current := by rw [h.eq]

theorem Wakes.context (h : Wakes s t) : t.context = s.context := by rw [h.eq]

theorem Wakes.nextPid (h : Wakes s t) : t.nextPid = s.nextPid := by rw [h.eq]

theorem suspended_stateOf (s : Scheduler) (index : Slot) (k : Continuation) (i : Slot) :
    (s.suspended index k).stateOf i
      = if i = index ∧ s.stateOf i = .running then .ready else s.stateOf i := by
  simp only [suspended, stateOf, Function.update_apply]
  by_cases hi : i = index
  · by_cases hrun : (s.processes index).state = .running
    · simp [hi, hrun]
    · simp [hi, hrun]
  · simp [hi]

theorem resumed_stateOf (s : Scheduler) (next i : Slot) :
    (s.resumed next).stateOf i = if i = next then .running else s.stateOf i :=
  stateOf_setProcess next i _

end Scheduler

/-! ## The table -/

/-- The pids of the entries in use. -/
structure TableOk (s : Scheduler) : Prop where
  nonzero : ∀ i, s.stateOf i ≠ .unused → (s.processes i).pid ≠ 0
  distinct : ∀ i j, s.stateOf i ≠ .unused → s.stateOf j ≠ .unused →
    (s.processes i).pid = (s.processes j).pid → i = j
  bound : ∀ i, s.stateOf i ≠ .unused → s.nextPid ≠ 0 → (s.processes i).pid < s.nextPid

/-- Entries may go out of use, but not change their pids. -/
theorem TableOk.of_used (h : TableOk s) (hnext : t.nextPid = s.nextPid)
    (hsame : ∀ i, t.stateOf i ≠ .unused →
      s.stateOf i ≠ .unused ∧ (t.processes i).pid = (s.processes i).pid) : TableOk t := by
  refine ⟨fun i hi ↦ ?_, fun i j hi hj hpid ↦ ?_, fun i hi hn ↦ ?_⟩
  · obtain ⟨hs, hpid⟩ := hsame i hi
    rw [hpid]
    exact h.nonzero i hs
  · obtain ⟨hsi, hpi⟩ := hsame i hi
    obtain ⟨hsj, hpj⟩ := hsame j hj
    exact h.distinct i j hsi hsj (by rw [← hpi, ← hpj, hpid])
  · obtain ⟨hs, hpid⟩ := hsame i hi
    rw [hnext] at hn ⊢
    rw [hpid]
    exact h.bound i hs hn

theorem lt_add_one_of_ne {a : UInt32} (ha : a + 1 ≠ 0) : a < a + 1 := by
  have hne : (a + 1).toNat ≠ 0 := fun h ↦ ha (UInt32.toNat_inj.mp h)
  have hlt := a.toNat_lt
  rw [UInt32.lt_iff_toNat_lt]
  rw [UInt32.toNat_add] at hne ⊢
  simp only [UInt32.toNat_one] at hne ⊢
  omega

theorem TableOk.spawns (h : TableOk s) {singleForeground : Bool} {index : Slot}
    (hspawn : Spawns singleForeground s index t) : TableOk t := by
  obtain ⟨process, vruntime, rfl, hpid, -, hready, -⟩ := hspawn.eq
  have hused : ∀ i, Scheduler.stateOf { s with
      processes := Function.update s.processes index process } i ≠ .unused →
      i = index ∨ i ≠ index ∧ s.stateOf i ≠ .unused := by
    intro i hi
    by_cases hx : i = index
    · exact Or.inl hx
    · refine Or.inr ⟨hx, ?_⟩
      simpa [stateOf, hx] using hi
  have hpidOf : ∀ i, i ≠ index → (Function.update s.processes index process i).pid
      = (s.processes i).pid := fun i hi ↦ by rw [Function.update_of_ne hi]
  have hpidAt : (Function.update s.processes index process index).pid = s.nextPid := by
    rw [Function.update_self, hpid]
  refine ⟨fun i hi ↦ ?_, fun i j hi hj heq ↦ ?_, fun i hi hn ↦ ?_⟩
  · change (Function.update s.processes index process i).pid ≠ 0
    rcases hused i hi with rfl | ⟨hx, hs⟩
    · rw [hpidAt]
      exact hspawn.nextPid
    · rw [hpidOf i hx]
      exact h.nonzero i hs
  · change (Function.update s.processes index process i).pid
      = (Function.update s.processes index process j).pid at heq
    -- the new pid is larger than the others
    have hnew : ∀ i, i ≠ index → s.stateOf i ≠ .unused → (s.processes i).pid ≠ s.nextPid :=
      fun i _ hs ↦ UInt32.ne_of_lt (h.bound i hs hspawn.nextPid)
    rcases hused i hi with rfl | ⟨hxi, hsi⟩
    · rcases hused j hj with rfl | ⟨hxj, hsj⟩
      · rfl
      · rw [hpidAt, hpidOf j hxj] at heq
        exact absurd heq.symm (hnew j hxj hsj)
    · rcases hused j hj with rfl | ⟨hxj, hsj⟩
      · rw [hpidAt, hpidOf i hxi] at heq
        exact absurd heq (hnew i hxi hsi)
      · rw [hpidOf i hxi, hpidOf j hxj] at heq
        exact h.distinct i j hsi hsj heq
  · change (Function.update s.processes index process i).pid < s.nextPid + 1
    have hn : s.nextPid + 1 ≠ 0 := hn
    rcases hused i hi with rfl | ⟨hx, hs⟩
    · rw [hpidAt]
      exact lt_add_one_of_ne hn
    · rw [hpidOf i hx]
      exact UInt32.lt_trans (h.bound i hs hspawn.nextPid) (lt_add_one_of_ne hn)

/-! ## Where the processes are -/

/-- A continuation in `process_waitpid` belongs to the process that made the call. -/
def Continuation.OwnedBy (pid : UInt32) : Continuation → Prop
  | .waitpid _ callerPid _ => callerPid = pid
  | _ => True

/-- The current process is in `process_yield` and will go on with `k`, unless it has exited. -/
structure Left (s : Scheduler) (k : Continuation) (i : Slot) : Prop where
  used : s.stateOf i ≠ .unused
  exit : k = .exit ↔ s.stateOf i = .zombie
  owned : k.OwnedBy (s.processes i).pid

/-- What a point of the run says about the current process. -/
def ControlOk (s : Scheduler) : Control → Prop
  | .user => ∀ i, s.current = some i → s.stateOf i = .running
  | .yielding k => ∀ i, s.current = some i → Left s k i
  | .idle k => ∃ i, s.current = some i ∧ Left s k i ∧ s.stateOf i ≠ .running
  | .picked k next => s.stateOf next = .ready ∧ ∀ i, s.current = some i → i ≠ next ∧ Left s k i
  | .resume k => ∃ i, s.current = some i ∧ s.stateOf i = .running ∧ k.OwnedBy (s.processes i).pid
  | .halted _ => True

/-- What holds of the processes at every point, whatever the queue holds. -/
structure Placed (s : Scheduler) (control : Control) : Prop where
  table : TableOk s
  running : ∀ i, s.stateOf i = .running → s.current = some i
  context : ∀ i, s.current ≠ some i → s.stateOf i = .ready ∨ s.stateOf i = .blocked →
    s.context i ≠ .exit ∧ (s.context i).OwnedBy (s.processes i).pid
  control : ControlOk s control

theorem Placed.synced {control : Control} (h : Placed t control) (hs : Synced t s') :
    Placed s' control := by
  rw [hs.eq]
  refine ⟨⟨h.table.nonzero, h.table.distinct, h.table.bound⟩, h.running, h.context, ?_⟩
  have hcontrol := h.control
  have hleft : ∀ {k i}, Left t k i → Left { t with queue := s'.queue } k i := fun hk ↦
    ⟨hk.used, hk.exit, hk.owned⟩
  cases control with
  | user => exact hcontrol
  | yielding k => exact fun i hi ↦ hleft (hcontrol i hi)
  | idle k =>
    obtain ⟨i, hi, hk, hrun⟩ := hcontrol
    exact ⟨i, hi, hleft hk, hrun⟩
  | picked k next => exact ⟨hcontrol.1, fun i hi ↦ ⟨(hcontrol.2 i hi).1, hleft (hcontrol.2 i hi).2⟩⟩
  | resume k => exact hcontrol
  | halted reason => trivial

theorem Placed.wakes {control : Control} (h : Placed s control) (hw : Wakes s t) :
    Placed t control := by
  have hused : ∀ i, t.stateOf i ≠ .unused ↔ s.stateOf i ≠ .unused := by
    intro i
    rcases hw.stateOf i with hi | ⟨hb, hr⟩
    · rw [hi]
    · simp [hb, hr]
  have hrun : ∀ i, t.stateOf i = .running ↔ s.stateOf i = .running := by
    intro i
    rcases hw.stateOf i with hi | ⟨hb, hr⟩
    · rw [hi]
    · simp [hb, hr]
  have hzombie : ∀ i, t.stateOf i = .zombie ↔ s.stateOf i = .zombie := by
    intro i
    rcases hw.stateOf i with hi | ⟨hb, hr⟩
    · rw [hi]
    · simp [hb, hr]
  have hleft : ∀ {k i}, Left s k i → Left t k i := fun {k i} hk ↦
    ⟨(hused i).mpr hk.used, hk.exit.trans (hzombie i).symm, by rw [hw.pid]; exact hk.owned⟩
  refine ⟨h.table.of_used hw.nextPid fun i hi ↦ ⟨(hused i).mp hi, hw.pid i⟩, fun i hi ↦ ?_,
    fun i hi hst ↦ ?_, ?_⟩
  · rw [hw.current]
    exact h.running i ((hrun i).mp hi)
  · rw [hw.context, hw.pid]
    rw [hw.current] at hi
    refine h.context i hi ?_
    rcases hw.stateOf i with heq | ⟨hb, -⟩
    · rwa [heq] at hst
    · exact Or.inr hb
  · have hcontrol := h.control
    cases control with
    | user => exact fun i hi ↦ (hrun i).mpr (hcontrol i (hw.current ▸ hi))
    | yielding k => exact fun i hi ↦ hleft (hcontrol i (hw.current ▸ hi))
    | idle k =>
      obtain ⟨i, hi, hk, hne⟩ := hcontrol
      exact ⟨i, hw.current.trans hi, hleft hk, fun hr ↦ hne ((hrun i).mp hr)⟩
    | picked k next =>
      refine ⟨?_, fun i hi ↦ ?_⟩
      · rcases hw.stateOf next with hst | ⟨-, hr⟩
        · exact hst.trans hcontrol.1
        · exact hr
      · obtain ⟨hne, hk⟩ := hcontrol.2 i (hw.current ▸ hi)
        exact ⟨hne, hleft hk⟩
    | resume k =>
      obtain ⟨i, hi, hr, howned⟩ := hcontrol
      exact ⟨i, hw.current.trans hi, (hrun i).mpr hr, by rw [hw.pid]; exact howned⟩
    | halted reason => trivial

/-- At the start of a call and after a switch back the current process is RUNNING. -/
theorem Placed.current_running {control : Control} (h : Placed s control)
    (hcontrol : control = .user ∨ ∃ k, control = .resume k) {i : Slot} (hi : s.current = some i) :
    s.stateOf i = .running := by
  rcases hcontrol with rfl | ⟨k, rfl⟩
  · exact h.control i hi
  · obtain ⟨j, hj, hrun, -⟩ := h.control
    obtain rfl : i = j := Option.some.inj (hi.symm.trans hj)
    exact hrun

theorem setBlocked_stateOf (s : Scheduler) (index : Slot) (waitReason : WaitReason)
    (waitChannel : UInt32) (wakeTick : UInt64) (waitTargetPid : UInt32) (i : Slot) :
    (s.setBlocked index waitReason waitChannel wakeTick waitTargetPid).stateOf i
      = if i = index then .blocked else s.stateOf i := stateOf_setProcess index i _

theorem setBlocked_pid (s : Scheduler) (index : Slot) (waitReason : WaitReason)
    (waitChannel : UInt32) (wakeTick : UInt64) (waitTargetPid : UInt32) (i : Slot) :
    ((s.setBlocked index waitReason waitChannel wakeTick waitTargetPid).processes i).pid
      = (s.processes i).pid := by
  simp only [setBlocked, setProcess, Function.update_apply]
  split
  · next hi => rw [hi]; rfl
  · rfl

theorem Placed.setBlocked {control control' : Control} (h : Placed s control) {index : Slot}
    (hused : s.stateOf index = .ready ∨ s.stateOf index = .running) (waitReason : WaitReason)
    (waitChannel : UInt32) (wakeTick : UInt64) (waitTargetPid : UInt32)
    (hcontrol : ControlOk
      (s.setBlocked index waitReason waitChannel wakeTick waitTargetPid) control') :
    Placed (s.setBlocked index waitReason waitChannel wakeTick waitTargetPid) control' := by
  refine ⟨h.table.of_used rfl fun i hi ↦ ⟨?_, setBlocked_pid ..⟩, fun i hi ↦ ?_,
    fun i hi hst ↦ ?_, hcontrol⟩
  · rw [setBlocked_stateOf] at hi
    split at hi
    · next hx => rw [hx]; rcases hused with hu | hu <;> simp [hu]
    · exact hi
  · rw [setBlocked_stateOf] at hi
    split at hi
    · cases hi
    · exact h.running i hi
  · rw [setBlocked_pid]
    refine h.context i hi ?_
    rw [setBlocked_stateOf] at hst
    split at hst
    · next hx =>
      subst hx
      exact Or.inl (hused.resolve_right fun hr ↦ hi (h.running i hr))
    · exact hst

/-- The end of a process, with the next point of the run to be shown. -/
theorem Placed.endProcess {control control' : Control} (h : Placed s control) {index : Slot}
    (hused : s.stateOf index ≠ .unused) (exitCode : Int32)
    (hcontrol : ControlOk (s.endProcess index exitCode) control') :
    Placed (s.endProcess index exitCode) control' := by
  refine ⟨h.table.of_used rfl fun i hi ↦ ⟨?_, endProcess_pid ..⟩, fun i hi ↦ ?_,
    fun i hi hst ↦ ?_, hcontrol⟩
  · rcases endProcess_stateOf s index exitCode i with ⟨-, rfl⟩ | ⟨-, heq | ⟨hb, -⟩⟩
    · exact hused
    · rwa [heq] at hi
    · simp [hb]
  · rcases endProcess_stateOf s index exitCode i with ⟨hz, -⟩ | ⟨-, heq | ⟨-, hr⟩⟩
    · simp [hz] at hi
    · exact h.running i (heq ▸ hi)
    · simp [hr] at hi
  · rw [endProcess_pid]
    refine h.context i hi ?_
    rcases endProcess_stateOf s index exitCode i with ⟨hz, -⟩ | ⟨-, heq | ⟨hb, -⟩⟩
    · simp [hz] at hst
    · rwa [heq] at hst
    · exact Or.inr hb

theorem Scheduler.Resets.stateOf {index : Slot} (h : Resets s index s') (i : Slot) :
    s'.stateOf i = if i = index then .unused else s.stateOf i := by
  rw [h.eq]
  exact stateOf_setProcess index i _

theorem Scheduler.Resets.processes_of_ne {index : Slot} (h : Resets s index s') {i : Slot}
    (hi : i ≠ index) :
    s'.processes i = s.processes i := by
  rw [h.eq]
  exact Function.update_of_ne hi _ _

theorem Placed.resets {control : Control} (h : Placed s control)
    (hcontrol : control = .user ∨ ∃ k, control = .resume k) {index : Slot}
    (hz : s.stateOf index = .zombie) (hr : Resets s index s') : Placed s' .user := by
  have hcurrent : s'.current = s.current := by rw [hr.eq]
  have hcontext : s'.context = s.context := by rw [hr.eq]
  have hold : ∀ i, s'.stateOf i ≠ .unused → i ≠ index ∧ s'.stateOf i = s.stateOf i := by
    intro i hi
    rw [hr.stateOf] at hi ⊢
    split at hi
    · exact absurd rfl hi
    · next hx => exact ⟨hx, if_neg hx⟩
  refine ⟨h.table.of_used (by rw [hr.eq]) fun i hi ↦ ?_, fun i hi ↦ ?_, fun i hi hst ↦ ?_,
    fun i hi ↦ ?_⟩
  · obtain ⟨hx, hst⟩ := hold i hi
    exact ⟨hst ▸ hi, by rw [hr.processes_of_ne hx]⟩
  · obtain ⟨-, hst⟩ := hold i (by simp [hi])
    exact hcurrent.trans (h.running i (hst ▸ hi))
  · obtain ⟨hx, heq⟩ := hold i (by rcases hst with hst | hst <;> simp [hst])
    rw [hcontext, hr.processes_of_ne hx]
    exact h.context i (hcurrent ▸ hi) (heq ▸ hst)
  · have hrun := h.current_running hcontrol (hcurrent ▸ hi)
    have hx : i ≠ index := by
      rintro rfl
      simp [hz] at hrun
    rw [hr.stateOf, if_neg hx, hrun]

theorem Placed.spawns {singleForeground : Bool} (h : Placed s .user) {index : Slot}
    (hspawn : Spawns singleForeground s index t) : Placed t .user := by
  have htable := h.table.spawns hspawn
  have hfree := hspawn.free
  obtain ⟨process, vruntime, rfl, -, -, hready, -⟩ := hspawn.eq
  have hstate : ∀ i, Scheduler.stateOf { s with
      processes := Function.update s.processes index process } i
      = if i = index then .ready else s.stateOf i := fun i ↦ by
    rw [← hready]
    exact stateOf_setProcess index i process
  have hcur : ∀ i, s.current = some i → i ≠ index := by
    rintro i hi rfl
    simp [h.control i hi] at hfree
  refine ⟨htable, fun i hi ↦ ?_, fun i hi hst ↦ ?_, fun i hi ↦ ?_⟩
  · have hst := (hstate i).symm.trans hi
    split at hst
    · cases hst
    · exact h.running i hst
  · by_cases hx : i = index
    · subst hx
      simp [Continuation.OwnedBy]
    · have hold := h.context i hi (by
        have hst' := (hstate i).symm ▸ hst
        rwa [if_neg hx] at hst')
      simpa [hx] using hold
  · refine (hstate i).trans ?_
    rw [if_neg (hcur i hi)]
    exact h.control i hi

/-- Nothing but a count changes, and the run goes on to another point. -/
theorem Placed.countYield {control control' : Control} (h : Placed s control) (index : Slot)
    (hcontrol : ControlOk (System.countYield s index) control') :
    Placed (System.countYield s index) control' := by
  obtain ⟨processes, heq, hcount⟩ := countYield_spec s index
  have hst : ∀ i, (System.countYield s index).stateOf i = s.stateOf i := countYield_stateOf index
  have hpid : ∀ i, ((System.countYield s index).processes i).pid = (s.processes i).pid := by
    intro i
    obtain ⟨n, hn⟩ := hcount i
    simp [heq, hn]
  have hcurrent : (System.countYield s index).current = s.current := by rw [heq]
  have hcontext : (System.countYield s index).context = s.context := by rw [heq]
  refine ⟨h.table.of_used (by rw [heq]) fun i hi ↦ ⟨hst i ▸ hi, hpid i⟩, fun i hi ↦ ?_,
    fun i hi hs ↦ ?_, hcontrol⟩
  · rw [hcurrent]
    exact h.running i (hst i ▸ hi)
  · rw [hcontext, hpid]
    exact h.context i (hcurrent ▸ hi) (hst i ▸ hs)

theorem Placed.setRunning {control : Control} (h : Placed s control) {index : Slot}
    (hcur : s.current = some index) (hused : s.stateOf index ≠ .unused) {k : Continuation}
    (hk : k.OwnedBy (s.processes index).pid) : Placed (s.setState index .running) (.resume k) := by
  have hst : ∀ i, (s.setState index .running).stateOf i
      = if i = index then .running else s.stateOf i := fun i ↦ stateOf_setProcess index i _
  have hpid : ∀ i, ((s.setState index .running).processes i).pid = (s.processes i).pid := by
    intro i
    simp only [setState, setProcess, Function.update_apply]
    split
    · next hi => rw [hi]
    · rfl
  refine ⟨h.table.of_used rfl fun i hi ↦ ⟨?_, hpid i⟩, fun i hi ↦ ?_, fun i hi hs ↦ ?_,
    index, hcur, by rw [hst, if_pos rfl], by rw [hpid]; exact hk⟩
  · rw [hst] at hi
    split at hi
    · next hx => rwa [hx]
    · exact hi
  · rw [hst] at hi
    split at hi
    · next hx => rw [hx]; exact hcur
    · exact h.running i hi
  · have hx : i ≠ index := fun hx ↦ hi (hx ▸ hcur)
    rw [hst, if_neg hx] at hs
    rw [hpid]
    exact h.context i hi hs

theorem Placed.started {k : Continuation} {next : Slot} (h : Placed s (.picked k next))
    (hcur : s.current = none) :
    Placed (s.started next) (.resume ((s.started next).context next)) := by
  obtain ⟨hready, -⟩ := h.control
  have hst : ∀ i, (s.started next).stateOf i = if i = next then .running else s.stateOf i :=
    fun i ↦ stateOf_setProcess next i _
  have hpid : ∀ i, ((s.started next).processes i).pid = (s.processes i).pid := by
    intro i
    simp only [Scheduler.started, setState, setProcess, Function.update_apply]
    split
    · next hi => rw [hi]
    · rfl
  have hnone : ∀ i, s.current ≠ some i := fun i ↦ by simp [hcur]
  refine ⟨h.table.of_used rfl fun i hi ↦ ⟨?_, hpid i⟩, fun i hi ↦ ?_, fun i hi hs ↦ ?_,
    next, rfl, by rw [hst, if_pos rfl], ?_⟩
  · rw [hst] at hi
    split at hi
    · next hx => simp [hx, hready]
    · exact hi
  · rw [hst] at hi
    split at hi
    · next hx => rw [hx]; rfl
    · exact absurd (h.running i hi) (hnone i)
  · have hx : i ≠ next := fun hx ↦ hi (hx ▸ rfl)
    rw [hst, if_neg hx] at hs
    rw [hpid]
    exact h.context i (hnone i) hs
  · rw [hpid]
    exact (h.context next (hnone next) (Or.inl hready)).2

theorem Placed.switched {k : Continuation} {index next : Slot} (h : Placed s (.picked k next))
    (hcur : s.current = some index) :
    Placed ((s.suspended index k).resumed next)
      (.resume (((s.suspended index k).resumed next).context next)) := by
  obtain ⟨hready, hleft⟩ := h.control
  obtain ⟨hne, hleft⟩ := hleft index hcur
  have hst : ∀ i, ((s.suspended index k).resumed next).stateOf i = if i = next then .running
      else if i = index ∧ s.stateOf i = .running then .ready else s.stateOf i := by
    intro i
    rw [resumed_stateOf, suspended_stateOf]
  have hpid : ∀ i,
      (((s.suspended index k).resumed next).processes i).pid = (s.processes i).pid := by
    intro i
    simp only [resumed, suspended, setProcess, Function.update_apply]
    split
    · next hi => rw [hi]; split <;> simp_all
    · split
      · next hi => rw [hi]
      · rfl
  have hctx : ∀ i, ((s.suspended index k).resumed next).context i
      = if i = index then k else s.context i := fun i ↦ Function.update_apply ..
  have hnext : s.current ≠ some next := fun heq ↦ hne (Option.some.inj (hcur.symm.trans heq))
  refine ⟨h.table.of_used rfl fun i hi ↦ ⟨?_, hpid i⟩, fun i hi ↦ ?_, fun i hi hs ↦ ?_,
    next, rfl, by rw [hst, if_pos rfl], ?_⟩
  · rw [hst] at hi
    split at hi
    · next hx => simp [hx, hready]
    · split at hi
      · next hx => simp [hx.2]
      · exact hi
  · rw [hst] at hi
    split at hi
    · next hx => rw [hx]; rfl
    · split at hi
      · cases hi
      · next hx =>
        have hindex : i = index := Option.some.inj ((h.running i hi).symm.trans hcur)
        exact absurd ⟨hindex, hi⟩ hx
  · have hx : i ≠ next := fun hx ↦ hi (hx ▸ rfl)
    rw [hst, if_neg hx] at hs
    rw [hctx, hpid]
    by_cases hindex : i = index
    · subst hindex
      rw [if_pos rfl]
      refine ⟨fun hexit ↦ ?_, hleft.owned⟩
      simp [hleft.exit.mp hexit] at hs
    · rw [if_neg hindex]
      rw [if_neg (by tauto)] at hs
      exact h.context i (fun heq ↦ hindex (Option.some.inj (heq.symm.trans hcur))) hs
  · rw [hctx, hpid, if_neg (Ne.symm hne)]
    exact (h.context next hnext (Or.inl hready)).2

/-! ## The invariant -/

/-- **What holds in every run.** -/
structure SystemSound (sys : System) : Prop where
  placed : Placed sys.scheduler sys.control
  queue : sys.scheduler.QueueSound
  onRq : ∀ i, sys.scheduler.queue.onRq i = true →
    sys.scheduler.stateOf i = .ready ∨ sys.scheduler.current = some i

theorem sound_boot : SystemSound System.boot := by
  have hunused : ∀ i, System.boot.scheduler.stateOf i = .unused := fun i ↦ rfl
  refine ⟨⟨⟨fun i hi ↦ absurd (hunused i) hi, fun i j hi ↦ absurd (hunused i) hi,
    fun i hi ↦ absurd (hunused i) hi⟩, fun i hi ↦ ?_, fun i _ hi ↦ ?_, fun i hi ↦ ?_⟩, ?_,
      fun i hi ↦ ?_⟩
  · simp [hunused i] at hi
  · simp [hunused i] at hi
  · cases hi
  · refine ⟨[], ⟨.nil, 0, ⟨rfl, trivial, trivial, by simp [RbTree.toList, pathNodes]⟩, .nil, rfl⟩,
      fun i ↦ ?_, rfl⟩
    simp [System.boot, Scheduler.boot]
  · cases hi

/-- After a synchronisation only the process states count. -/
theorem SystemSound.of_synced {control : Control} (h : Placed t control) (hs : Synced t s') :
    SystemSound ⟨s', control⟩ := by
  refine ⟨h.synced hs, hs.sound, fun i hi ↦ Or.inl ?_⟩
  change s'.stateOf i = .ready
  rw [hs.stateOf]
  exact (hs.onRq i).mp hi

theorem Scheduler.currentProcess_eq_some {index : Slot} (h : s.currentProcess = some index) :
    s.current = some index ∧ s.stateOf index ≠ .unused := by
  obtain ⟨hcur, hused⟩ := Option.filter_eq_some_iff.mp h
  exact ⟨hcur, by simpa using hused⟩

theorem WaitsAt.running {pid callerPid : UInt32} {wantsCode : Bool} {control : Control}
    (h : WaitsAt s pid callerPid wantsCode control) :
    control = .user ∨ ∃ k, control = .resume k := by
  cases h with
  | call _ _ => exact Or.inl rfl
  | again => exact Or.inr ⟨_, rfl⟩

/-- The caller in `process_waitpid` is the current process. -/
theorem WaitsAt.callerPid_eq {pid callerPid : UInt32} {wantsCode : Bool} {control : Control}
    (h : WaitsAt s pid callerPid wantsCode control) (hp : Placed s control) {index : Slot}
    (hcur : s.current = some index) : callerPid = (s.processes index).pid := by
  cases h with
  | call hpid hne =>
    have hrun := hp.control index hcur
    rw [← hpid, processCurrentPid]
    have hproc : s.currentProcess = some index := by simp [currentProcess, hcur, hrun]
    rw [hproc]
  | again =>
    obtain ⟨i, hi, -, howned⟩ := hp.control
    obtain rfl : index = i := Option.some.inj (hcur.symm.trans hi)
    exact howned

theorem Left.countYield {k : Continuation} (index : Slot) {i : Slot} (h : Left s k i) :
    Left (System.countYield s index) k i := by
  obtain ⟨processes, heq, hcount⟩ := countYield_spec s index
  obtain ⟨n, hn⟩ := hcount i
  refine ⟨by rw [countYield_stateOf]; exact h.used, by rw [countYield_stateOf]; exact h.exit, ?_⟩
  have hpid : ((System.countYield s index).processes i).pid = (s.processes i).pid := by
    simp [heq, hn]
  rw [hpid]
  exact h.owned

theorem SystemSound.chosen {k : Continuation} {control : Control} {index : Slot}
    (h : SystemSound ⟨s, control⟩)
    (hcur : s.current = some index) (hleft : Left s k index) :
    SystemSound (System.chosen s k index) := by
  rw [System.chosen, if_pos hcur, if_neg hleft.used]
  refine ⟨h.placed.setRunning hcur hleft.used hleft.owned, h.queue, fun i hi ↦ ?_⟩
  change (s.setState index .running).stateOf i = .ready ∨ s.current = some i
  rw [setState, stateOf_setProcess]
  split
  · next hx => exact Or.inr (hx ▸ hcur)
  · exact h.onRq i hi

theorem SystemSound.countYield {control control' : Control} (h : SystemSound ⟨s, control⟩)
    (index : Slot) (hcontrol : ControlOk (System.countYield s index) control') :
    SystemSound ⟨System.countYield s index, control'⟩ := by
  obtain ⟨processes, heq, -⟩ := countYield_spec s index
  have hqueue : (System.countYield s index).queue = s.queue := by rw [heq]
  have hcurrent : (System.countYield s index).current = s.current := by rw [heq]
  refine ⟨h.placed.countYield index hcontrol, ?_, fun i hi ↦ ?_⟩
  · change (System.countYield s index).QueueSound
    rw [QueueSound, hqueue]
    exact h.queue
  · change (System.countYield s index).stateOf i = .ready ∨
      (System.countYield s index).current = some i
    rw [countYield_stateOf, hcurrent]
    exact h.onRq i (by rwa [← hqueue])

theorem SystemSound.resets {control : Control} {index : Slot} (h : SystemSound ⟨s, control⟩)
    (hcontrol : control = .user ∨ ∃ k, control = .resume k) (hz : s.stateOf index = .zombie)
    (hr : Resets s index s') : SystemSound ⟨s', .user⟩ := by
  refine ⟨h.placed.resets hcontrol hz hr, hr.sound, fun i hi ↦ ?_⟩
  change s'.stateOf i = .ready ∨ s'.current = some i
  have hcurrent : s'.current = s.current := by rw [hr.eq]
  rw [hr.stateOf, hcurrent]
  rw [hr.onRq, Function.update_apply] at hi
  split at hi
  · cases hi
  · next hx =>
    rw [if_neg hx]
    exact h.onRq i hi

/-- **One step** keeps the invariant. -/
theorem SystemSound.move {singleForeground : Bool} {sys sys' : System} {l : Label} {es : List Event}
    (h : SystemSound sys) (hmove : Move singleForeground sys l sys' es) : SystemSound sys' := by
  cases hmove with
  | quiet => exact h
  | yields =>
    refine ⟨⟨h.placed.table, h.placed.running, h.placed.context, fun i hi ↦ ?_⟩, h.queue, h.onRq⟩
    have hrun := h.placed.control i hi
    exact ⟨by simp [hrun], by simp [hrun], trivial⟩
  | @exitBoot s c hnone =>
    refine ⟨⟨h.placed.table, h.placed.running, h.placed.context, fun i hi ↦ ?_⟩, h.queue, h.onRq⟩
    have hrun : s.stateOf i = .running := h.placed.control i hi
    simp only [currentProcess, Option.filter_eq_none_iff] at hnone
    exact absurd (hnone i hi) (by simp [hrun])
  | spawns hspawn hs => exact .of_synced (h.placed.spawns hspawn) hs
  | @exits s c index exitCode e hproc he =>
    obtain ⟨hcur, hused⟩ := currentProcess_eq_some hproc
    refine ⟨h.placed.endProcess hused exitCode fun i hi ↦ ?_, h.queue, fun i hi ↦ ?_⟩
    · obtain rfl : index = i := Option.some.inj (hcur.symm.trans hi)
      have hz : (s.endProcess index exitCode).stateOf index = .zombie := by
        simp [stateOf, endProcess_processes]
      exact ⟨by simp [hz], by simp [hz], trivial⟩
    · rcases endProcess_stateOf s index exitCode i with ⟨-, rfl⟩ | ⟨-, heq | ⟨-, hr⟩⟩
      · exact Or.inr hcur
      · exact heq ▸ h.onRq i hi
      · exact Or.inl hr
  | @kills s s' c index exitCode hcur hused hz hs =>
    refine .of_synced (h.placed.endProcess hused exitCode fun i hi ↦ ?_) hs
    have hrun := h.placed.control i hi
    rcases endProcess_stateOf s index exitCode i with ⟨-, rfl⟩ | ⟨-, heq | ⟨hb, -⟩⟩
    · exact absurd hi hcur
    · exact heq.trans hrun
    · exact absurd (hb.symm.trans hrun) (by decide)
  | killsZombie hcur hz => exact h
  | reaps hz hr => exact h.resets (Or.inl rfl) hz hr
  | collects hat hz htarget hr => exact h.resets hat.running hz hr
  | waitFails hcontrol =>
    refine ⟨⟨h.placed.table, h.placed.running, h.placed.context, fun i hi ↦ ?_⟩, h.queue, h.onRq⟩
    exact h.placed.current_running (hcontrol.imp id fun hw ↦ ⟨_, hw⟩) hi
  | @waitBlocks s s' l control index pid callerPid wantsCode hat hcur htarget hs =>
    have hrun := h.placed.current_running hat.running hcur
    refine .of_synced (h.placed.setBlocked (Or.inr hrun) .child pid 0 pid fun i hi ↦ ?_) hs
    obtain rfl : index = i := Option.some.inj (hcur.symm.trans hi)
    have hst : (s.setBlocked index .child pid 0 pid).stateOf index = .blocked := by
      rw [setBlocked_stateOf, if_pos rfl]
    refine ⟨by simp [hst], by simp [hst], ?_⟩
    rw [setBlocked_pid]
    exact hat.callerPid_eq h.placed hcur
  | waitYields hat hcur =>
    refine ⟨⟨h.placed.table, h.placed.running, h.placed.context, fun i hi ↦ ?_⟩, h.queue, h.onRq⟩
    exact absurd (hcur.symm.trans hi) (by simp)
  | @blocks s s' c index waitReason waitChannel wakeTick hcur hreason hs =>
    have hrun := h.placed.control index hcur
    refine .of_synced (h.placed.setBlocked (Or.inr hrun) waitReason waitChannel wakeTick 0
      fun i hi ↦ ?_) hs
    obtain rfl : index = i := Option.some.inj (hcur.symm.trans hi)
    have hst : (s.setBlocked index waitReason waitChannel wakeTick 0).stateOf index = .blocked := by
      rw [setBlocked_stateOf, if_pos rfl]
    exact ⟨by simp [hst], by simp [hst], trivial⟩
  | @blocksOther s s' c index waitChannel hcur hready hs =>
    refine .of_synced (h.placed.setBlocked hready .manual waitChannel 0 0 fun i hi ↦ ?_) hs
    have hx : i ≠ index := fun hx ↦ hcur (hx ▸ hi)
    rw [setBlocked_stateOf, if_neg hx]
    exact h.placed.control i hi
  | wakes hw hs hcontrol => exact .of_synced (h.placed.wakes hw) hs
  | picksNone hcur hleft => exact ⟨⟨h.placed.table, h.placed.running, h.placed.context, trivial⟩,
      h.queue, h.onRq⟩
  | @picksFirst s k next hcur hleft =>
    have hready := (h.onRq next (h.queue.leftmost_onRq hleft)).resolve_right (by simp [hcur])
    refine ⟨⟨h.placed.table, h.placed.running, h.placed.context, hready, fun i hi ↦ ?_⟩, h.queue,
      h.onRq⟩
    exact absurd (hcur.symm.trans hi) (by simp)
  | @picksBack s k index hcur hleft hrun =>
    have hk := Left.countYield index (h.placed.control index hcur)
    refine h.countYield index ⟨index, ?_, ?_, hk.owned⟩
    · rw [countYield_current, hcur]
    · rw [countYield_stateOf, hrun]
  | @picksSelf s k index hcur hleft =>
    have hk := Left.countYield index (h.placed.control index hcur)
    have hcount : SystemSound ⟨System.countYield s index, .yielding k⟩ := by
      refine h.countYield index fun i hi ↦ ?_
      rw [countYield_current] at hi
      exact (h.placed.control i hi).countYield index
    exact hcount.chosen (by rw [countYield_current, hcur]) hk
  | @picksOther s k index next hcur hleft hne =>
    have hready := (h.onRq next (h.queue.leftmost_onRq hleft)).resolve_right fun heq ↦
      hne (Option.some.inj (heq.symm.trans hcur))
    refine h.countYield index ⟨?_, fun i hi ↦ ?_⟩
    · rw [countYield_stateOf]
      exact hready
    · rw [countYield_current] at hi
      obtain rfl : index = i := Option.some.inj (hcur.symm.trans hi)
      exact ⟨Ne.symm hne, (h.placed.control index hcur).countYield index⟩
  | @picksIdle s k index hcur hleft hrun hsleep =>
    have hk := Left.countYield index (h.placed.control index hcur)
    refine h.countYield index ⟨index, ?_, hk, ?_⟩
    · rw [countYield_current, hcur]
    · rw [countYield_stateOf]
      exact hrun
  | @picksHalt s k index hcur hleft hrun hsleep => exact h.countYield index trivial
  | waitsOn hs hleft => exact .of_synced h.placed hs
  | @waitsSelf s s' k index hs hcur hleft =>
    have hsync : SystemSound ⟨s', .idle k⟩ := .of_synced h.placed hs
    obtain ⟨i, hi, hk, -⟩ := hsync.placed.control
    have hcur' : s'.current = some index := hs.current.trans hcur
    obtain rfl : index = i := Option.some.inj (hcur'.symm.trans hi)
    exact hsync.chosen hcur' hk
  | @waitsOther s s' k next hs hleft hcur =>
    have hsync : SystemSound ⟨s', .idle k⟩ := .of_synced h.placed hs
    obtain ⟨i, hi, hk, -⟩ := hsync.placed.control
    refine ⟨⟨hsync.placed.table, hsync.placed.running, hsync.placed.context, ?_, fun j hj ↦ ?_⟩,
      hsync.queue, hsync.onRq⟩
    · change s'.stateOf next = .ready
      rw [hs.stateOf]
      exact (hs.onRq next).mp (hs.sound.leftmost_onRq hleft)
    · obtain rfl : i = j := Option.some.inj (hi.symm.trans hj)
      refine ⟨?_, hk⟩
      rintro rfl
      exact hcur (hs.current.symm.trans hi)
  | @starts s s' k next hcur hs =>
    rw [hs.context]
    exact .of_synced (h.placed.started hcur) hs
  | @switches s s' k index next hcur hs =>
    rw [hs.context]
    exact .of_synced (h.placed.switched hcur) hs
  | goesOn hk =>
    refine ⟨⟨h.placed.table, h.placed.running, h.placed.context, fun i hi ↦ ?_⟩, h.queue, h.onRq⟩
    exact h.placed.current_running (Or.inr ⟨_, rfl⟩) hi
  | exitReturns =>
    exact ⟨⟨h.placed.table, h.placed.running, h.placed.context, trivial⟩, h.queue, h.onRq⟩

/-! ## Runs -/

/-- A step of a run, with the events seen so far. -/
def TraceStep (singleForeground : Bool) (a b : System × List Event) : Prop :=
  ∃ l es, a.1.step singleForeground l = .ok (b.1, es) ∧ b.2 = a.2 ++ es

/-- A state that some run from boot reaches, with the events seen on the way. -/
def Run (singleForeground : Bool) (sys : System) (trace : List Event) : Prop :=
  Reachable (· = (System.boot, [])) (TraceStep singleForeground) (sys, trace)

variable {singleForeground : Bool}

theorem SystemSound.step_move {sys sys' : System} {l : Label} {es : List Event}
    (h : SystemSound sys)
    (hstep : sys.step singleForeground l = .ok (sys', es)) :
    Move singleForeground sys l sys' es := by
  obtain ⟨sys₁, es₁, hstep₁, hmove⟩ := exists_move singleForeground h.queue l
  obtain ⟨rfl, rfl⟩ := Prod.mk.inj (Except.ok.inj (hstep.symm.trans hstep₁))
  exact hmove

/-- The invariant rule for runs: a property of states and traces may use that the state is sound,
and that the step is a move. -/
theorem Run.invariant {P : System → List Event → Prop} (h₀ : P System.boot [])
    (hmove : ∀ sys l sys' es trace, SystemSound sys → P sys trace →
      Move singleForeground sys l sys' es → P sys' (trace ++ es))
    {sys : System} {trace : List Event} (h : Run singleForeground sys trace) :
    SystemSound sys ∧ P sys trace := by
  refine Reachable.invariant (P := fun a ↦ SystemSound a.1 ∧ P a.1 a.2) ?_ ?_ h
  · rintro a rfl
    exact ⟨sound_boot, h₀⟩
  · rintro ⟨a, trace⟩ ⟨b, trace'⟩ ⟨hsound, hP⟩ ⟨l, es, hstep, rfl⟩
    have hm := hsound.step_move hstep
    exact ⟨hsound.move hm, hmove a l b es trace hsound hP hm⟩

theorem Run.sound {sys : System} {trace : List Event} (h : Run singleForeground sys trace) :
    SystemSound sys :=
  (h.invariant (P := fun _ _ ↦ True) trivial fun _ _ _ _ _ _ _ _ ↦ trivial).1

/-- The labels taken one after the other, with the events that are seen added to a trace. -/
def System.run (singleForeground : Bool) (labels : List Label) (a : System × List Event) :
    Except Fault (System × List Event) :=
  labels.foldlM (fun a l ↦ do
    let (sys, es) ← a.1.step singleForeground l
    .ok (sys, a.2 ++ es)) a

theorem System.run_cons (l : Label) (labels : List Label) {a : System × List Event} {sys : System}
    {es : List Event} (h : a.1.step singleForeground l = .ok (sys, es)) :
    System.run singleForeground (l :: labels) a
      = System.run singleForeground labels (sys, a.2 ++ es) := by
  rw [System.run, List.foldlM_cons, h]
  rfl

theorem System.run_append {labels : List Label} (labels' : List Label) {a b : System × List Event}
    (h : System.run singleForeground labels a = .ok b) :
    System.run singleForeground (labels ++ labels') a = System.run singleForeground labels' b := by
  rw [System.run, List.foldlM_append]
  exact (congrArg (· >>= _) h).trans rfl

/-- Executing labels gives runs. -/
theorem Run.run {labels : List Label} {sys sys' : System} {trace trace' : List Event}
    (h : Run singleForeground sys trace)
    (hrun : System.run singleForeground labels (sys, trace) = .ok (sys', trace')) :
    Run singleForeground sys' trace' := by
  induction labels generalizing sys trace with
  | nil =>
    obtain ⟨rfl, rfl⟩ := Prod.mk.inj (Except.ok.inj hrun)
    exact h
  | cons l labels ih =>
    obtain ⟨sys₁, es, hstep, -⟩ := exists_move singleForeground h.sound.queue l
    rw [System.run_cons l labels hstep] at hrun
    exact ih (h.step ⟨l, es, hstep, rfl⟩) hrun

/-- No step of a run leaves the arrays of the scheduler or loops. -/
theorem Run.step_ok {sys : System} {trace : List Event} (h : Run singleForeground sys trace)
    (l : Label) : ∃ sys' es, sys.step singleForeground l = .ok (sys', es) := by
  obtain ⟨sys', es, hstep, -⟩ := exists_move singleForeground h.sound.queue l
  exact ⟨sys', es, hstep⟩

/-! ## Runs under a condition -/

/-- A run whose steps all meet a condition on the state before the step. -/
def RunOf (singleForeground : Bool) (ok : System → Label → Prop) (sys : System)
    (trace : List Event) : Prop :=
  Reachable (· = (System.boot, []))
    (fun a b ↦ ∃ l es, ok a.1 l ∧ a.1.step singleForeground l = .ok (b.1, es) ∧ b.2 = a.2 ++ es)
    (sys, trace)

variable {ok : System → Label → Prop}

theorem RunOf.run {sys : System} {trace : List Event} (h : RunOf singleForeground ok sys trace) :
    Run singleForeground sys trace := by
  refine h.mono ?_
  rintro a b ⟨l, es, -, hstep, htrace⟩
  exact ⟨l, es, hstep, htrace⟩

theorem RunOf.invariant {P : System → List Event → Prop} (h₀ : P System.boot [])
    (hmove : ∀ sys l sys' es trace, RunOf singleForeground ok sys trace → P sys trace → ok sys l →
      Move singleForeground sys l sys' es → P sys' (trace ++ es))
    {sys : System} {trace : List Event} (h : RunOf singleForeground ok sys trace) :
    P sys trace := by
  refine (Reachable.invariant (P := fun a ↦ RunOf singleForeground ok a.1 a.2 ∧ P a.1 a.2)
    ?_ ?_ h).2
  · rintro a rfl
    exact ⟨.start rfl, h₀⟩
  · rintro ⟨a, trace⟩ ⟨b, trace'⟩ ⟨hrun, hP⟩ ⟨l, es, hok, hstep, rfl⟩
    exact ⟨.step hrun ⟨l, es, hok, hstep, rfl⟩,
      hmove a l b es trace hrun hP hok (hrun.run.sound.step_move hstep)⟩

/-- The labels taken one after the other, as long as each meets the condition. -/
def System.guarded (singleForeground : Bool) (ok : System → Label → Prop)
    [∀ sys l, Decidable (ok sys l)] (labels : List Label) (a : System × List Event) :
    Option (System × List Event) :=
  labels.foldlM (fun a l ↦
    if ok a.1 l then
      match a.1.step singleForeground l with
      | .ok (sys, es) => some (sys, a.2 ++ es)
      | .error _ => none
    else none) a

theorem RunOf.guarded [∀ sys l, Decidable (ok sys l)] {labels : List Label}
    {a b : System × List Event} (h : RunOf singleForeground ok a.1 a.2)
    (hrun : System.guarded singleForeground ok labels a = some b) :
    RunOf singleForeground ok b.1 b.2 := by
  refine Reachable.foldlM (fun a l b hb ↦ ?_) h hrun
  split at hb
  · next hok =>
    split at hb
    · next sys es hstep =>
      obtain rfl := Option.some.inj hb
      exact ⟨l, es, hok, hstep, rfl⟩
    · cases hb
  · cases hb

theorem RunOf.exists_of_labels (singleForeground : Bool) (ok : System → Label → Prop)
    [∀ sys l, Decidable (ok sys l)] (labels : List Label) (P : System → List Event → Bool)
    (h : (System.guarded singleForeground ok labels (System.boot, [])).any
      (fun a ↦ P a.1 a.2) = true) :
    ∃ sys trace, RunOf singleForeground ok sys trace ∧ P sys trace = true := by
  cases hrun : System.guarded singleForeground ok labels (System.boot, []) with
  | none => simp [hrun] at h
  | some a =>
    rw [hrun] at h
    exact ⟨a.1, a.2, RunOf.guarded (.start rfl) hrun, h⟩

/-- Boot code spawns two processes, and the first one is running. -/
def twoProcesses : List Label :=
  [.call (.spawn none true 1), .call (.spawn none true 1), .call .yield, .pick, .switch, .resume]

end TensorOS
