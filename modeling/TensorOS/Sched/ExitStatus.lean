import TensorOS.Sched.Invariant

/-!
# Pids and exit codes over a run

The events of a run tell which processes were spawned, which ended and with which code, and which
were collected by `process_waitpid` or `process_reap`. `Told` relates them to the process table: an
entry in use was spawned, a zombie holds the code of its first end, a collected process is in no
entry, and a process that waits for a child is not asleep while there is one to collect.
-/

namespace TensorOS

open Scheduler

variable {s t s' : Scheduler} {singleForeground : Bool}

/-! ## Pids -/

def spawnedPid : Event → Option UInt32
  | .spawned pid _ => some pid
  | _ => none

/-- The pids handed out, in order. -/
def spawnedPids (trace : List Event) : List UInt32 := trace.filterMap spawnedPid

theorem spawnedPids_append (trace es : List Event) :
    spawnedPids (trace ++ es) = spawnedPids trace ++ spawnedPids es := List.filterMap_append

theorem Move.spawned {sys sys' : System} {l : Label} {es : List Event}
    (h : Move singleForeground sys l sys' es) :
    spawnedPids es = [] ∧ sys'.scheduler.nextPid = sys.scheduler.nextPid ∨
      spawnedPids es = [sys.scheduler.nextPid] ∧ sys.scheduler.nextPid ≠ 0 ∧
        sys'.scheduler.nextPid = sys.scheduler.nextPid + 1 := by
  have hcount : ∀ (s : Scheduler) index, (System.countYield s index).nextPid = s.nextPid := by
    intro s index
    obtain ⟨processes, heq, -⟩ := countYield_spec s index
    rw [heq]
  have hchosen : ∀ (s : Scheduler) k index,
      (System.chosen s k index).scheduler.nextPid = s.nextPid := by
    intro s k index
    rw [System.chosen]
    split
    · dsimp only
      split <;> rfl
    · rfl
  cases h with
  | spawns hspawn hs =>
    obtain ⟨process, vruntime, rfl, -⟩ := hspawn.eq
    exact Or.inr ⟨rfl, hspawn.nextPid, hs.nextPid⟩
  | exits hproc he => rcases he with ⟨-, rfl⟩ | ⟨-, rfl⟩ <;> exact Or.inl ⟨rfl, rfl⟩
  | kills hcur hused hz hs => exact Or.inl ⟨rfl, hs.nextPid⟩
  | reaps hz hr => exact Or.inl ⟨rfl, by rw [hr.eq]⟩
  | collects hat hz htarget hr => exact Or.inl ⟨rfl, by rw [hr.eq]⟩
  | waitBlocks hat hcur htarget hs => exact Or.inl ⟨rfl, hs.nextPid⟩
  | blocks hcur hreason hs => exact Or.inl ⟨rfl, hs.nextPid⟩
  | blocksOther hcur hready hs => exact Or.inl ⟨rfl, hs.nextPid⟩
  | wakes hw hs hcontrol => exact Or.inl ⟨rfl, hs.nextPid.trans hw.nextPid⟩
  | picksBack hcur hleft hrun => exact Or.inl ⟨rfl, hcount _ _⟩
  | picksSelf hcur hleft => exact Or.inl ⟨rfl, (hchosen _ _ _).trans (hcount _ _)⟩
  | picksOther hcur hleft hne => exact Or.inl ⟨rfl, hcount _ _⟩
  | picksIdle hcur hleft hrun hsleep => exact Or.inl ⟨rfl, hcount _ _⟩
  | picksHalt hcur hleft hrun hsleep => exact Or.inl ⟨rfl, hcount _ _⟩
  | waitsOn hs hleft => exact Or.inl ⟨rfl, hs.nextPid⟩
  | waitsSelf hs hcur hleft => exact Or.inl ⟨rfl, (hchosen _ _ _).trans hs.nextPid⟩
  | waitsOther hs hleft hcur => exact Or.inl ⟨rfl, hs.nextPid⟩
  | starts hcur hs => exact Or.inl ⟨rfl, hs.nextPid⟩
  | switches hcur hs => exact Or.inl ⟨rfl, hs.nextPid⟩
  | _ => exact Or.inl ⟨rfl, rfl⟩

/-- The pids handed out are distinct and smaller than the next one. -/
structure PidsFresh (sys : System) (trace : List Event) : Prop where
  nodup : (spawnedPids trace).Nodup
  bound : sys.scheduler.nextPid ≠ 0 → ∀ pid ∈ spawnedPids trace, pid < sys.scheduler.nextPid

theorem PidsFresh.move {sys sys' : System} {l : Label} {es trace : List Event}
    (h : PidsFresh sys trace) (hmove : Move singleForeground sys l sys' es) :
    PidsFresh sys' (trace ++ es) := by
  rcases hmove.spawned with ⟨hes, hnext⟩ | ⟨hes, hne, hnext⟩
  · refine ⟨?_, ?_⟩
    · rw [spawnedPids_append, hes, List.append_nil]
      exact h.nodup
    · rw [spawnedPids_append, hes, List.append_nil, hnext]
      exact h.bound
  · have hnew : sys.scheduler.nextPid ∉ spawnedPids trace := fun hmem ↦
      UInt32.lt_irrefl _ (h.bound hne _ hmem)
    refine ⟨?_, fun hne' pid hpid ↦ ?_⟩
    · rw [spawnedPids_append, hes]
      exact List.nodup_append.mpr
        ⟨h.nodup, by simp, by simpa using fun a ha ↦ ne_of_mem_of_not_mem ha hnew⟩
    · rw [hnext] at hne' ⊢
      have hlt := lt_add_one_of_ne hne'
      rw [spawnedPids_append, hes, List.mem_append, List.mem_singleton] at hpid
      rcases hpid with hpid | rfl
      · exact UInt32.lt_trans (h.bound hne pid hpid) hlt
      · exact hlt

theorem Run.pidsFresh {sys : System} {trace : List Event} (h : Run singleForeground sys trace) :
    PidsFresh sys trace := by
  refine (h.invariant (P := PidsFresh) ⟨List.nodup_nil, ?_⟩ ?_).2
  · intro _ pid hpid
    cases hpid
  · intro sys l sys' es trace _ hP hmove
    exact hP.move hmove

/-- **The process table**: in every state of every run the pids in use are distinct and not 0, no
pid is handed out twice, and when `g_next_pid` has wrapped to 0 every spawn fails and it stays 0;
at most one process is RUNNING, it is the current one, and in process code the current one is
RUNNING. -/
theorem process_table {sys : System} {trace : List Event} (h : Run singleForeground sys trace) :
    (∀ i, sys.scheduler.stateOf i ≠ .unused → (sys.scheduler.processes i).pid ≠ 0) ∧
    (∀ i j, sys.scheduler.stateOf i ≠ .unused → sys.scheduler.stateOf j ≠ .unused →
      (sys.scheduler.processes i).pid = (sys.scheduler.processes j).pid → i = j) ∧
    (spawnedPids trace).Nodup ∧
    (sys.scheduler.nextPid = 0 →
      (∀ name hasEntry role, sys.scheduler.processSpawnWithRole singleForeground name hasEntry role
        = .ok (sys.scheduler, 0)) ∧
      ∀ l sys' es, sys.step singleForeground l = .ok (sys', es) → sys'.scheduler.nextPid = 0) ∧
    (∀ i j, sys.scheduler.stateOf i = .running → sys.scheduler.stateOf j = .running → i = j) ∧
    (∀ i, sys.scheduler.stateOf i = .running → sys.scheduler.current = some i) ∧
    (sys.control = .user → ∀ i, sys.scheduler.current = some i →
      sys.scheduler.stateOf i = .running) := by
  have hsound := h.sound
  have hrunning := hsound.placed.running
  refine ⟨hsound.placed.table.nonzero, hsound.placed.table.distinct, h.pidsFresh.nodup,
    fun hzero ↦ ⟨fun name hasEntry role ↦ ?_, fun l sys' es hstep ↦ ?_⟩, fun i j hi hj ↦ ?_,
    hrunning,
    fun hcontrol i hi ↦ ?_⟩
  · rw [processSpawnWithRole]
    split
    · rfl
    · rw [if_pos (Or.inr hzero)]
  · rcases (hsound.step_move hstep).spawned with ⟨-, hnext⟩ | ⟨-, hne, -⟩
    · exact hnext.trans hzero
    · exact absurd hzero hne
  · exact Option.some.inj ((hrunning i hi).symm.trans (hrunning j hj))
  · have hok := hsound.placed.control
    rw [hcontrol] at hok
    exact hok i hi

/-- With two processes. -/
theorem process_table_two : ∃ sys trace, Run false sys trace ∧ spawnedPids trace = [1, 2] ∧
    sys.scheduler.stateOf 0 = .running ∧ sys.scheduler.stateOf 1 = .ready ∧
    (sys.scheduler.processes 0).pid ≠ (sys.scheduler.processes 1).pid := by
  obtain ⟨sys, trace, hrun, hP⟩ := RunOf.exists_of_labels false (fun _ _ ↦ True) twoProcesses
    (fun sys trace ↦ spawnedPids trace = [1, 2] ∧ sys.scheduler.stateOf 0 = .running ∧
      sys.scheduler.stateOf 1 = .ready) (by decide +kernel)
  obtain ⟨hpids, hrunning, hready⟩ := of_decide_eq_true hP
  obtain ⟨-, hdistinct, -⟩ := process_table hrun.run
  refine ⟨sys, trace, hrun.run, hpids, hrunning, hready, fun heq ↦ ?_⟩
  cases hdistinct 0 1 (by simp [hrunning]) (by simp [hready]) heq

/-! ## What most steps do to a process -/

/-- A process that a step neither spawns, ends nor collects, nor lets wait for a child. -/
structure Kept (s s' : Scheduler) (i : Slot) : Prop where
  pid : (s'.processes i).pid = (s.processes i).pid
  parentPid : (s'.processes i).parentPid = (s.processes i).parentPid
  exitCode : (s'.processes i).exitCode = (s.processes i).exitCode
  used : s'.stateOf i ≠ .unused ↔ s.stateOf i ≠ .unused
  zombie : s'.stateOf i = .zombie → s.stateOf i = .zombie
  waits : s'.stateOf i = .blocked → (s'.processes i).waitReason = .child → s.stateOf i = .blocked ∧
    (s.processes i).waitReason = .child ∧
    (s'.processes i).waitTargetPid = (s.processes i).waitTargetPid

/-- An entry that is the same but for its state and its counts. -/
theorem Kept.of_state {i : Slot} (hpid : (s'.processes i).pid = (s.processes i).pid)
    (hparent : (s'.processes i).parentPid = (s.processes i).parentPid)
    (hexit : (s'.processes i).exitCode = (s.processes i).exitCode)
    (hreason : (s'.processes i).waitReason = (s.processes i).waitReason)
    (htarget : (s'.processes i).waitTargetPid = (s.processes i).waitTargetPid)
    (hstate : s'.stateOf i = s.stateOf i ∨
      s.stateOf i ≠ .unused ∧ (s'.stateOf i = .ready ∨ s'.stateOf i = .running)) : Kept s s' i := by
  refine ⟨hpid, hparent, hexit, ?_, fun hz ↦ ?_, fun hb hr ↦ ?_⟩
  · rcases hstate with heq | ⟨hused, hs | hs⟩
    · rw [heq]
    · simp [hs, hused]
    · simp [hs, hused]
  · rcases hstate with heq | ⟨-, hs | hs⟩
    · exact heq ▸ hz
    · simp [hs] at hz
    · simp [hs] at hz
  · rcases hstate with heq | ⟨-, hs | hs⟩
    · exact ⟨heq ▸ hb, hreason ▸ hr, htarget⟩
    · simp [hs] at hb
    · simp [hs] at hb

theorem Kept.of_eq {i : Slot} (h : s'.processes i = s.processes i) : Kept s s' i :=
  .of_state (by rw [h]) (by rw [h]) (by rw [h]) (by rw [h]) (by rw [h])
    (Or.inl (congrArg Process.state h))

theorem Kept.synced {i : Slot} (h : Kept s t i) (hs : Synced t s') : Kept s s' i := by
  have hprocess : s'.processes i = t.processes i := by rw [hs.processes]
  exact ⟨by rw [hprocess]; exact h.pid, by rw [hprocess]; exact h.parentPid,
    by rw [hprocess]; exact h.exitCode, by rw [hs.stateOf]; exact h.used,
    by rw [hs.stateOf]; exact h.zombie, by rw [hs.stateOf, hprocess]; exact h.waits⟩

theorem Scheduler.Wakes.kept (h : Wakes s t) (i : Slot) : Kept s t i := by
  by_cases hb : s.stateOf i = .blocked
  · rcases h.processes i with hi | hi
    · exact .of_eq hi
    · have hr : t.stateOf i = .ready := by
        rw [Scheduler.stateOf] at hb ⊢
        rw [hi, ProcessCore.makeReady_state, if_pos hb]
      exact ⟨h.pid i, by rw [hi, ProcessCore.makeReady_parentPid],
        by rw [hi, ProcessCore.makeReady_exitCode], by simp [hr, hb], by simp [hr], by simp [hr]⟩
  · rcases h.processes i with hi | hi
    · exact .of_eq hi
    · exact .of_eq (by rw [hi, ProcessCore.makeReady_of_ne _ hb])

theorem kept_setBlocked {index : Slot} (hused : s.stateOf index ≠ .unused) {waitReason : WaitReason}
    (hreason : waitReason ≠ .child) (waitChannel : UInt32) (wakeTick : UInt64)
    (waitTargetPid : UInt32) (i : Slot) :
    Kept s (s.setBlocked index waitReason waitChannel wakeTick waitTargetPid) i := by
  by_cases hi : i = index
  · subst hi
    have hself : (s.setBlocked i waitReason waitChannel wakeTick waitTargetPid).processes i
        = ProcessCore.block (s.processes i) waitReason waitChannel wakeTick waitTargetPid :=
      Function.update_self ..
    refine ⟨setBlocked_pid .., by rw [hself]; rfl, by rw [hself]; rfl, ?_, ?_, fun _ hr ↦ ?_⟩
    · simp [setBlocked_stateOf, hused]
    · simp [setBlocked_stateOf]
    · rw [hself] at hr
      exact absurd hr hreason
  · exact .of_eq (Function.update_of_ne hi _ _)

theorem kept_countYield (s : Scheduler) (index i : Slot) :
    Kept s (System.countYield s index) i := by
  obtain ⟨processes, heq, hcount⟩ := countYield_spec s index
  obtain ⟨n, hn⟩ := hcount i
  exact .of_state (by simp [heq, hn]) (by simp [heq, hn]) (by simp [heq, hn]) (by simp [heq, hn])
    (by simp [heq, hn]) (Or.inl (countYield_stateOf index i))

theorem kept_update {index : Slot} (process : Process) (hused : s.stateOf index ≠ .unused)
    (hprocesses : t.processes = Function.update s.processes index process)
    (hpid : process.pid = (s.processes index).pid)
    (hparent : process.parentPid = (s.processes index).parentPid)
    (hexit : process.exitCode = (s.processes index).exitCode)
    (hstate : process.state = .ready ∨ process.state = .running) (i : Slot) : Kept s t i := by
  by_cases hi : i = index
  · subst hi
    have hself : t.processes i = process := by rw [hprocesses, Function.update_self]
    have hst : t.stateOf i = process.state := congrArg Process.state hself
    refine ⟨by rw [hself, hpid], by rw [hself, hparent], by rw [hself, hexit], ?_, ?_, ?_⟩
    · rcases hstate with h | h <;> simp [hst, h, hused]
    · rcases hstate with h | h <;> simp [hst, h]
    · rcases hstate with h | h <;> simp [hst, h]
  · exact .of_eq (by rw [hprocesses, Function.update_of_ne hi])

theorem kept_setRunning {index : Slot} (hused : s.stateOf index ≠ .unused) (i : Slot) :
    Kept s (s.setState index .running) i :=
  kept_update { s.processes index with state := .running } hused rfl rfl rfl rfl (Or.inr rfl) i

theorem Kept.trans {i : Slot} (h : Kept s t i) (h' : Kept t s' i) : Kept s s' i :=
  ⟨h'.pid.trans h.pid, h'.parentPid.trans h.parentPid, h'.exitCode.trans h.exitCode,
    h'.used.trans h.used, fun hz ↦ h.zombie (h'.zombie hz), fun hb hr ↦
      have h₁ := h'.waits hb hr
      have h₂ := h.waits h₁.1 h₁.2.1
      ⟨h₂.1, h₂.2.1, h₁.2.2.trans h₂.2.2⟩⟩

theorem kept_chosen {k : Continuation} {index : Slot} (hused : s.stateOf index ≠ .unused)
    (i : Slot) : Kept s (System.chosen s k index).scheduler i := by
  rw [System.chosen, if_neg hused]
  split
  · exact kept_setRunning hused i
  · exact .of_eq rfl

theorem kept_suspended {index : Slot} (hused : s.stateOf index ≠ .unused) (k : Continuation)
    (i : Slot) : Kept s (s.suspended index k) i := by
  by_cases hrun : s.stateOf index = .running
  · refine kept_update { s.processes index with state := .ready } hused ?_ rfl rfl rfl
      (Or.inl rfl) i
    simp [suspended, hrun]
  · refine .of_eq ?_
    have hsame : (s.suspended index k).processes = s.processes := by
      simp only [suspended, if_neg hrun]
      exact Function.update_eq_self index s.processes
    rw [hsame]

theorem kept_resumed {next : Slot} (hused : s.stateOf next ≠ .unused) (i : Slot) :
    Kept s (s.resumed next) i :=
  kept_update { s.processes next with
    state := .running, switchCount := (s.processes next).switchCount + 1 } hused rfl rfl rfl rfl
    (Or.inr rfl) i

theorem kept_started {next : Slot} (hused : s.stateOf next ≠ .unused) (i : Slot) :
    Kept s (s.started next) i :=
  kept_update { s.processes next with state := .running } hused rfl rfl rfl rfl (Or.inr rfl) i

/-! ## Ends and collections -/

/-- The code with which the event ends the process. -/
def endOf (pid : UInt32) : Event → Option Int32
  | .exited p exitCode => if p = pid then some exitCode else none
  | .killed p exitCode => if p = pid then some exitCode else none
  | _ => none

/-- The code of the first exit or kill of the process. -/
def firstEnd (trace : List Event) (pid : UInt32) : Option Int32 := trace.findSome? (endOf pid)

/-- The process that `process_reap` or `process_waitpid` returns. -/
def collectedPid : Event → Option UInt32
  | .reaped pid _ => some pid
  | .waited _ _ _ result _ => if 0 < result then some result.toUInt32 else none
  | _ => none

def collectedPids (trace : List Event) : List UInt32 := trace.filterMap collectedPid

/-- What a positive answer of `process_waitpid` says: it is a child of the caller, the one asked
for if one was, it has ended, and the code is that of its first end. -/
def Delivered (trace : List Event) : Event → Prop
  | .waited callerPid pid wantsCode result exitCode => 0 < result → ∃ child code,
      child.toInt32 = result ∧ .spawned child callerPid ∈ trace ∧ (pid ≠ 0 → child = pid) ∧
        firstEnd trace child = some code ∧ exitCode = if wantsCode then some code else none
  | _ => True

/-- The system is about to stop, or has. -/
def Control.Over : Control → Prop
  | .resume .exit => True
  | .halted _ => True
  | _ => False

/-- **What the trace tells about the process table.** -/
structure Told (sys : System) (trace : List Event) : Prop where
  spawned : ∀ i, sys.scheduler.stateOf i ≠ .unused →
    .spawned (sys.scheduler.processes i).pid (sys.scheduler.processes i).parentPid ∈ trace
  zombie : ∀ i, sys.scheduler.stateOf i = .zombie →
    firstEnd trace (sys.scheduler.processes i).pid = some (sys.scheduler.processes i).exitCode
  live : ¬sys.control.Over → ∀ i, sys.scheduler.stateOf i ≠ .unused →
    sys.scheduler.stateOf i ≠ .zombie → firstEnd trace (sys.scheduler.processes i).pid = none
  known : ∀ pid, firstEnd trace pid ≠ none → pid ∈ spawnedPids trace
  gone : ∀ pid ∈ collectedPids trace, pid ∈ spawnedPids trace ∧
    ∀ i, sys.scheduler.stateOf i ≠ .unused → (sys.scheduler.processes i).pid ≠ pid
  once : (collectedPids trace).Nodup
  delivered : ∀ pre e, pre ++ [e] <+: trace → Delivered pre e
  awake : ∀ i j, sys.scheduler.stateOf i = .blocked →
    (sys.scheduler.processes i).waitReason = .child → sys.scheduler.stateOf j = .zombie →
    ¬ProcessCore.IsTarget (sys.scheduler.processes i).pid (sys.scheduler.processes i).waitTargetPid
      (sys.scheduler.processes j)

theorem told_boot : Told System.boot [] := by
  have hunused : ∀ i, System.boot.scheduler.stateOf i = .unused := fun i ↦ rfl
  refine ⟨fun i hi ↦ absurd (hunused i) hi, fun i hi ↦ ?_, fun _ i hi ↦ absurd (hunused i) hi,
    fun pid hpid ↦ absurd rfl hpid, by simp [collectedPids], by simp [collectedPids],
    fun pre e hpre ↦ ?_, fun i j hi ↦ ?_⟩
  · simp [hunused i] at hi
  · simp at hpre
  · simp [hunused i] at hi

theorem firstEnd_append (trace es : List Event) (pid : UInt32) :
    firstEnd (trace ++ es) pid = (firstEnd trace pid).or (firstEnd es pid) :=
  List.findSome?_append

theorem collectedPids_append (trace es : List Event) :
    collectedPids (trace ++ es) = collectedPids trace ++ collectedPids es := List.filterMap_append

theorem mem_spawnedPids {trace : List Event} {pid parentPid : UInt32}
    (h : .spawned pid parentPid ∈ trace) : pid ∈ spawnedPids trace :=
  List.mem_filterMap.mpr ⟨_, h, rfl⟩

theorem delivered_concat {trace : List Event} (h : ∀ pre e, pre ++ [e] <+: trace → Delivered pre e)
    {e : Event} (he : Delivered trace e) :
    ∀ pre e', pre ++ [e'] <+: trace ++ [e] → Delivered pre e' := by
  intro pre e' hpre
  rcases List.prefix_concat_iff.mp hpre with heq | hpre
  · obtain ⟨rfl, hlast⟩ := List.append_inj' heq rfl
    obtain rfl := List.singleton_inj.mp hlast
    exact he
  · exact h pre e' hpre

/-- An event about no end and no collection. -/
def QuietEvents (es : List Event) : Prop :=
  es = [] ∨ ∃ callerPid pid wantsCode, es = [.waited callerPid pid wantsCode (-1) none]

theorem QuietEvents.firstEnd {es : List Event} (h : QuietEvents es) (pid : UInt32) :
    firstEnd es pid = none := by
  rcases h with rfl | ⟨callerPid, target, wantsCode, rfl⟩ <;> rfl

theorem QuietEvents.collectedPids {es : List Event} (h : QuietEvents es) :
    collectedPids es = [] := by
  rcases h with rfl | ⟨callerPid, pid, wantsCode, rfl⟩
  · rfl
  · have hneg : ¬(0 : Int32) < -1 := by decide
    simp [TensorOS.collectedPids, collectedPid, hneg]

theorem QuietEvents.spawnedPids {es : List Event} (h : QuietEvents es) : spawnedPids es = [] := by
  rcases h with rfl | ⟨callerPid, pid, wantsCode, rfl⟩ <;> rfl

theorem QuietEvents.delivered {es trace : List Event} (h : QuietEvents es)
    (hd : ∀ pre e, pre ++ [e] <+: trace → Delivered pre e) :
    ∀ pre e, pre ++ [e] <+: trace ++ es → Delivered pre e := by
  rcases h with rfl | ⟨callerPid, pid, wantsCode, rfl⟩
  · simpa using hd
  · exact delivered_concat hd fun hpos ↦ absurd hpos (by decide)

theorem Told.kept {control control' : Control} {trace es : List Event} (h : Told ⟨s, control⟩ trace)
    (hk : ∀ i, Kept s s' i) (hes : QuietEvents es)
    (hover : control'.Over ∨ ¬control.Over ∧ ∀ i, s.stateOf i = .zombie → s'.stateOf i = .zombie) :
    Told ⟨s', control'⟩ (trace ++ es) := by
  have hend : ∀ pid, firstEnd (trace ++ es) pid = firstEnd trace pid := fun pid ↦ by
    rw [firstEnd_append, hes.firstEnd, Option.or_none]
  have hcollected : collectedPids (trace ++ es) = collectedPids trace := by
    rw [collectedPids_append, hes.collectedPids, List.append_nil]
  have hspawned : spawnedPids (trace ++ es) = spawnedPids trace := by
    rw [spawnedPids_append, hes.spawnedPids, List.append_nil]
  refine ⟨fun i hi ↦ ?_, fun i hi ↦ ?_, fun hnot i hi hz ↦ ?_, fun pid hpid ↦ ?_, fun pid hpid ↦ ?_,
    ?_, hes.delivered h.delivered, fun i j hb hr hz ↦ ?_⟩
  · rw [(hk i).pid, (hk i).parentPid]
    exact List.mem_append_left _ (h.spawned i ((hk i).used.mp hi))
  · rw [hend, (hk i).pid, (hk i).exitCode]
    exact h.zombie i ((hk i).zombie hi)
  · rw [hend, (hk i).pid]
    obtain ⟨hnot', hzombie⟩ := hover.resolve_left hnot
    exact h.live hnot' i ((hk i).used.mp hi) fun hs ↦ hz (hzombie i hs)
  · rw [hspawned]
    exact h.known pid (hend pid ▸ hpid)
  · rw [hcollected] at hpid
    rw [hspawned]
    refine ⟨(h.gone pid hpid).1, fun i hi ↦ ?_⟩
    rw [(hk i).pid]
    exact (h.gone pid hpid).2 i ((hk i).used.mp hi)
  · rw [hcollected]
    exact h.once
  · obtain ⟨hb', hr', htarget⟩ := (hk i).waits hb hr
    have hz' := (hk j).zombie hz
    have hold := h.awake i j hb' hr' hz'
    rw [(hk i).pid, htarget]
    intro hgoal
    refine hold ⟨(hk j).used.mp hgoal.1, ⟨hgoal.2.1.1, ?_⟩, ?_⟩
    · rw [← (hk j).parentPid]
      exact hgoal.2.1.2
    · rw [← (hk j).pid]
      exact hgoal.2.2

/-! ## The steps that end, collect or spawn a process -/

theorem Told.spawns {trace : List Event} (h : Told ⟨s, .user⟩ trace)
    (hfresh : PidsFresh ⟨s, .user⟩ trace)
    {index : Slot} (hspawn : Spawns singleForeground s index t) :
    Told ⟨t, .user⟩ (trace ++ [.spawned s.nextPid s.processCurrentPid]) := by
  have hnew : s.nextPid ∉ spawnedPids trace := fun hmem ↦
    UInt32.lt_irrefl _ (hfresh.bound hspawn.nextPid _ hmem)
  obtain ⟨process, vruntime, rfl, hpid, hparent, hready, -⟩ := hspawn.eq
  have hself : Function.update s.processes index process index = process := Function.update_self ..
  have hother : ∀ i, i ≠ index → Function.update s.processes index process i = s.processes i :=
    fun i hi ↦ Function.update_of_ne hi _ _
  have hend : ∀ pid, firstEnd (trace ++ [.spawned s.nextPid s.processCurrentPid]) pid
      = firstEnd trace pid := fun pid ↦ by
    rw [firstEnd_append]
    exact Option.or_none
  refine ⟨fun i hi ↦ ?_, fun i hi ↦ ?_, fun _ i hi hz ↦ ?_, fun pid hpid' ↦ ?_, fun pid hmem ↦ ?_,
    ?_, delivered_concat h.delivered trivial, fun i j hb hr hz ↦ ?_⟩
  · change Event.spawned (Function.update s.processes index process i).pid
      (Function.update s.processes index process i).parentPid ∈ _
    by_cases hx : i = index
    · rw [hx, hself, hpid, hparent]
      simp
    · rw [hother i hx]
      refine List.mem_append_left _ (h.spawned i ?_)
      simpa [stateOf, hother i hx] using hi
  · rw [hend]
    change firstEnd trace (Function.update s.processes index process i).pid
      = some (Function.update s.processes index process i).exitCode
    change (Function.update s.processes index process i).state = .zombie at hi
    by_cases hx : i = index
    · rw [hx, hself, hready] at hi
      cases hi
    · rw [hother i hx] at hi ⊢
      exact h.zombie i hi
  · rw [hend]
    change firstEnd trace (Function.update s.processes index process i).pid = none
    change (Function.update s.processes index process i).state ≠ .unused at hi
    change (Function.update s.processes index process i).state ≠ .zombie at hz
    by_cases hx : i = index
    · rw [hx, hself, hpid]
      by_contra hne
      exact hnew (h.known _ hne)
    · rw [hother i hx] at hi hz ⊢
      exact h.live (by simp [Control.Over]) i hi hz
  · rw [hend] at hpid'
    rw [spawnedPids_append]
    exact List.mem_append_left _ (h.known pid hpid')
  · rw [collectedPids_append] at hmem
    have hmem : pid ∈ collectedPids trace := by simpa [collectedPids, collectedPid] using hmem
    obtain ⟨hsp, hgone⟩ := h.gone pid hmem
    refine ⟨by rw [spawnedPids_append]; exact List.mem_append_left _ hsp, fun i hi ↦ ?_⟩
    change (Function.update s.processes index process i).state ≠ .unused at hi
    change (Function.update s.processes index process i).pid ≠ pid
    by_cases hx : i = index
    · rw [hx, hself, hpid]
      rintro rfl
      exact hnew hsp
    · rw [hother i hx] at hi ⊢
      exact hgone i hi
  · rw [collectedPids_append, show collectedPids [.spawned s.nextPid s.processCurrentPid]
      = [] from rfl, List.append_nil]
    exact h.once
  · change (Function.update s.processes index process i).state = .blocked at hb
    change (Function.update s.processes index process i).waitReason = .child at hr
    change (Function.update s.processes index process j).state = .zombie at hz
    change ¬ProcessCore.IsTarget (Function.update s.processes index process i).pid
      (Function.update s.processes index process i).waitTargetPid
      (Function.update s.processes index process j)
    have hxi : i ≠ index := by
      rintro rfl
      rw [hself, hready] at hb
      cases hb
    have hxj : j ≠ index := by
      rintro rfl
      rw [hself, hready] at hz
      cases hz
    rw [hother i hxi] at hb hr ⊢
    rw [hother j hxj] at hz ⊢
    exact h.awake i j hb hr hz

/-- The event of an end concerns the process that ends. -/
theorem firstEnd_ended {index : Slot} {exitCode : Int32} {e : Event}
    (he : e = .exited (s.processes index).pid exitCode ∨
      e = .killed (s.processes index).pid exitCode) (trace : List Event) (pid : UInt32) :
    firstEnd (trace ++ [e]) pid = (firstEnd trace pid).or
      (if (s.processes index).pid = pid then some exitCode else none) := by
  rw [firstEnd_append]
  rcases he with rfl | rfl
  · congr 1
    simp only [firstEnd, List.findSome?_cons, endOf]
    split <;> simp_all
  · congr 1
    simp only [firstEnd, List.findSome?_cons, endOf]
    split <;> simp_all

theorem quiet_ended {index : Slot} {exitCode : Int32} {e : Event}
    (he : e = .exited (s.processes index).pid exitCode ∨
      e = .killed (s.processes index).pid exitCode) :
    spawnedPids [e] = [] ∧ collectedPids [e] = [] ∧ ∀ trace, Delivered trace e := by
  rcases he with rfl | rfl
  · exact ⟨rfl, rfl, fun _ ↦ trivial⟩
  · exact ⟨rfl, rfl, fun _ ↦ trivial⟩

theorem Told.ended {control' : Control} {trace : List Event} (h : Told ⟨s, .user⟩ trace)
    (htable : TableOk s) {index : Slot} (hused : s.stateOf index ≠ .unused)
    (hnot : s.stateOf index ≠ .zombie) {exitCode : Int32} {e : Event}
    (he : e = .exited (s.processes index).pid exitCode ∨
      e = .killed (s.processes index).pid exitCode) :
    Told ⟨s.endProcess index exitCode, control'⟩ (trace ++ [e]) := by
  obtain ⟨hsp, hcol, hdel⟩ := quiet_ended he
  have hend := firstEnd_ended he trace
  have hnone := h.live (by simp [Control.Over]) index hused hnot
  -- entries other than the one that ends keep their identity
  have hne : ∀ i, i ≠ index → s.stateOf i ≠ .unused →
      ¬(s.processes index).pid = (s.processes i).pid := fun i hi hu heq ↦
    hi (htable.distinct i index hu hused heq.symm)
  have hzombie : ∀ i, i ≠ index → (s.endProcess index exitCode).stateOf i = .zombie →
      (s.endProcess index exitCode).processes i = s.processes i := by
    intro i hi hz
    rw [endProcess_processes, if_neg hi]
    split
    · next hw =>
      rw [stateOf, endProcess_processes, if_neg hi, if_pos hw, ProcessCore.makeReady_state] at hz
      split at hz
      · cases hz
      · next hb => exact ProcessCore.makeReady_of_ne _ hb
    · rfl
  have hkeep : ∀ i, (s.endProcess index exitCode).stateOf i ≠ .unused → s.stateOf i ≠ .unused ∧
      ((s.endProcess index exitCode).processes i).pid = (s.processes i).pid ∧
      ((s.endProcess index exitCode).processes i).parentPid = (s.processes i).parentPid := by
    intro i hi
    refine ⟨?_, endProcess_pid .., ?_⟩
    · rcases endProcess_stateOf s index exitCode i with ⟨-, rfl⟩ | ⟨-, heq | ⟨hb, -⟩⟩
      · exact hused
      · rwa [heq] at hi
      · simp [hb]
    · rw [endProcess_processes]
      split
      · next hx => rw [hx]
      · split
        · exact ProcessCore.makeReady_parentPid _
        · rfl
  refine ⟨fun i hi ↦ ?_, fun i hi ↦ ?_, fun _ i hi hz ↦ ?_, fun pid hpid ↦ ?_, fun pid hmem ↦ ?_,
    ?_, delivered_concat h.delivered (hdel trace), fun i j hb hr hz ↦ ?_⟩
  · obtain ⟨hu, hpid, hparent⟩ := hkeep i hi
    rw [hpid, hparent]
    exact List.mem_append_left _ (h.spawned i hu)
  · by_cases hx : i = index
    · subst hx
      rw [hend, endProcess_pid, hnone, if_pos rfl, endProcess_processes, if_pos rfl]
      rfl
    · have hsame := hzombie i hx hi
      have hzs : s.stateOf i = .zombie := by
        rw [stateOf, ← hsame]
        exact hi
      rw [hend, hsame, h.zombie i hzs]
      rfl
  · obtain ⟨hu, hpid, -⟩ := hkeep i hi
    have hx : i ≠ index := by
      rintro rfl
      exact hz (by simp [stateOf, endProcess_processes])
    have hzs : s.stateOf i ≠ .zombie := by
      rcases endProcess_stateOf s index exitCode i with ⟨-, hx'⟩ | ⟨-, heq | ⟨hb, -⟩⟩
      · exact absurd hx' hx
      · rwa [heq] at hz
      · simp [hb]
    rw [hend, hpid, h.live (by simp [Control.Over]) i hu hzs, if_neg (hne i hx hu)]
    rfl
  · rw [spawnedPids_append, hsp, List.append_nil]
    rw [hend] at hpid
    by_cases hx : (s.processes index).pid = pid
    · exact hx ▸ mem_spawnedPids (h.spawned index hused)
    · rw [if_neg hx, Option.or_none] at hpid
      exact h.known pid hpid
  · rw [collectedPids_append, hcol, List.append_nil] at hmem
    rw [spawnedPids_append, hsp, List.append_nil]
    obtain ⟨hmem', hgone⟩ := h.gone pid hmem
    refine ⟨hmem', fun i hi ↦ ?_⟩
    obtain ⟨hu, hpid, -⟩ := hkeep i hi
    rw [hpid]
    exact hgone i hu
  · rw [collectedPids_append, hcol, List.append_nil]
    exact h.once
  · -- a process that still waits for a child does not wait for this one
    obtain ⟨hsame, hnot⟩ : (s.endProcess index exitCode).processes i = s.processes i ∧
        ProcessCore.waitsForChild (s.processes index).pid (s.processes i) = false := by
      change ((s.endProcess index exitCode).processes i).state = .blocked at hb
      rw [endProcess_processes] at hb ⊢
      split at hb
      · cases hb
      · next hx =>
        rw [if_neg hx]
        split at hb
        · rw [ProcessCore.makeReady_state] at hb
          split at hb
          · cases hb
          · next hne => exact absurd hb hne
        · next hw => exact ⟨if_neg hw, by simpa using hw⟩
    change ((s.endProcess index exitCode).processes i).state = .blocked at hb
    change ((s.endProcess index exitCode).processes i).waitReason = .child at hr
    change ¬ProcessCore.IsTarget ((s.endProcess index exitCode).processes i).pid
      ((s.endProcess index exitCode).processes i).waitTargetPid
      ((s.endProcess index exitCode).processes j)
    rw [hsame] at hb hr ⊢
    by_cases hx : j = index
    · subst hx
      rintro ⟨-, -, htarget⟩
      rw [endProcess_pid] at htarget
      simp only [ProcessCore.waitsForChild, hb, hr, true_and, decide_eq_false_iff_not] at hnot
      exact hnot (htarget.imp id Eq.symm)
    · have hsamej := hzombie j hx hz
      rw [hsamej]
      refine h.awake i j hb hr ?_
      change (s.processes j).state = .zombie
      rw [← hsamej]
      exact hz

theorem Told.killsZombie {trace : List Event} (h : Told ⟨s, .user⟩ trace) {index : Slot}
    (hz : s.stateOf index = .zombie) (exitCode : Int32) :
    Told ⟨s, .user⟩ (trace ++ [.killed (s.processes index).pid exitCode]) := by
  have hend : ∀ pid, firstEnd (trace ++ [.killed (s.processes index).pid exitCode]) pid
      = firstEnd trace pid := by
    intro pid
    rw [firstEnd_ended (Or.inr rfl)]
    by_cases hx : (s.processes index).pid = pid
    · rw [← hx, h.zombie index hz]
      rfl
    · rw [if_neg hx, Option.or_none]
  have hsp : spawnedPids (trace ++ [.killed (s.processes index).pid exitCode])
      = spawnedPids trace := by
    rw [spawnedPids_append]
    exact List.append_nil _
  have hcol : collectedPids (trace ++ [.killed (s.processes index).pid exitCode])
      = collectedPids trace := by
    rw [collectedPids_append]
    exact List.append_nil _
  refine ⟨fun i hi ↦ List.mem_append_left _ (h.spawned i hi), fun i hi ↦ ?_, fun ho i hi hne ↦ ?_,
    fun pid hpid ↦ ?_, ?_, ?_, delivered_concat h.delivered trivial, h.awake⟩
  · rw [hend]
    exact h.zombie i hi
  · rw [hend]
    exact h.live ho i hi hne
  · rw [hsp]
    exact h.known pid (hend pid ▸ hpid)
  · rw [hcol, hsp]
    exact h.gone
  · rw [hcol]
    exact h.once

theorem Told.resets {control : Control} {trace : List Event} (h : Told ⟨s, control⟩ trace)
    (htable : TableOk s) (hover : ¬control.Over) {index : Slot} (hz : s.stateOf index = .zombie)
    (hr : Resets s index s') {e : Event} (hsp : spawnedPids [e] = [])
    (hend : ∀ pid, firstEnd [e] pid = none)
    (hcol : collectedPids [e] = [] ∨ collectedPids [e] = [(s.processes index).pid])
    (hdel : Delivered trace e) : Told ⟨s', .user⟩ (trace ++ [e]) := by
  have hend' : ∀ pid, firstEnd (trace ++ [e]) pid = firstEnd trace pid := fun pid ↦ by
    rw [firstEnd_append, hend, Option.or_none]
  have hsp' : spawnedPids (trace ++ [e]) = spawnedPids trace := by
    rw [spawnedPids_append, hsp, List.append_nil]
  have hused : s.stateOf index ≠ .unused := by simp [hz]
  have hold : ∀ i, s'.stateOf i ≠ .unused → i ≠ index ∧ s'.processes i = s.processes i ∧
      s.stateOf i ≠ .unused := by
    intro i hi
    have hx : i ≠ index := by
      rintro rfl
      simp [hr.stateOf] at hi
    refine ⟨hx, hr.processes_of_ne hx, ?_⟩
    rwa [hr.stateOf, if_neg hx] at hi
  have hstate : ∀ i, s'.stateOf i ≠ .unused → s'.stateOf i = s.stateOf i := fun i hi ↦ by
    rw [hr.stateOf, if_neg (hold i hi).1]
  refine ⟨fun i hi ↦ ?_, fun i hi ↦ ?_, fun _ i hi hne ↦ ?_, fun pid hpid ↦ ?_, fun pid hmem ↦ ?_,
    ?_, delivered_concat h.delivered hdel, fun i j hb hreason hj ↦ ?_⟩
  · obtain ⟨-, hsame, hu⟩ := hold i hi
    rw [hsame]
    exact List.mem_append_left _ (h.spawned i hu)
  · have hi' : s'.stateOf i = .zombie := hi
    obtain ⟨-, hsame, hu⟩ := hold i (by simp [hi'])
    rw [hend', hsame]
    exact h.zombie i ((hstate i (by simp [hi'])).symm.trans hi')
  · obtain ⟨-, hsame, hu⟩ := hold i hi
    rw [hend', hsame]
    exact h.live hover i hu (hstate i hi ▸ hne)
  · rw [hsp']
    exact h.known pid (hend' pid ▸ hpid)
  · rw [hsp']
    rw [collectedPids_append, List.mem_append] at hmem
    have hcases : pid ∈ collectedPids trace ∨ pid = (s.processes index).pid := by
      refine hmem.imp id fun hmem ↦ ?_
      rcases hcol with hcol | hcol
      · simp [hcol] at hmem
      · simpa [hcol] using hmem
    rcases hcases with hmem | rfl
    · refine ⟨(h.gone pid hmem).1, fun i hi ↦ ?_⟩
      obtain ⟨-, hsame, hu⟩ := hold i hi
      rw [hsame]
      exact (h.gone pid hmem).2 i hu
    · refine ⟨mem_spawnedPids (h.spawned index hused), fun i hi heq ↦ ?_⟩
      obtain ⟨hx, hsame, hu⟩ := hold i hi
      rw [hsame] at heq
      exact hx (htable.distinct i index hu hused heq)
  · rw [collectedPids_append]
    rcases hcol with hcol | hcol
    · rw [hcol, List.append_nil]
      exact h.once
    · rw [hcol]
      refine List.nodup_append.mpr ⟨h.once, by simp, ?_⟩
      intro a ha b hb
      rw [List.mem_singleton.mp hb]
      rintro rfl
      exact (h.gone _ ha).2 index hused rfl
  · have hb' : s'.stateOf i = .blocked := hb
    have hj' : s'.stateOf j = .zombie := hj
    obtain ⟨-, hsi, -⟩ := hold i (by simp [hb'])
    obtain ⟨-, hsj, -⟩ := hold j (by simp [hj'])
    rw [hsi] at hreason ⊢
    rw [hsj]
    exact h.awake i j ((hstate i (by simp [hb'])).symm.trans hb') hreason
      ((hstate j (by simp [hj'])).symm.trans hj')

/-- A process waits for a child, and none that it waits for is a zombie. -/
theorem Told.waits {control control' : Control} {trace : List Event} (h : Told ⟨s, control⟩ trace)
    (hover : ¬control.Over) {index : Slot} (hrun : s.stateOf index = .running) {pid : UInt32}
    (hnone : ∀ i, ProcessCore.IsTarget (s.processes index).pid pid (s.processes i) →
      s.stateOf i ≠ .zombie) : Told ⟨s.setBlocked index .child pid 0 pid, control'⟩ trace := by
  have hother : ∀ i, i ≠ index →
      (s.setBlocked index .child pid 0 pid).processes i = s.processes i := fun i hi ↦
    Function.update_of_ne hi _ _
  have hself : (s.setBlocked index .child pid 0 pid).processes index
      = ProcessCore.block (s.processes index) .child pid 0 pid := Function.update_self ..
  have hstate := setBlocked_stateOf s index .child pid 0 pid
  have hused : ∀ i, (s.setBlocked index .child pid 0 pid).stateOf i ≠ .unused →
      s.stateOf i ≠ .unused := by
    intro i hi
    by_cases hx : i = index
    · simp [hx, hrun]
    · rwa [hstate, if_neg hx] at hi
  have hparent : ∀ i, ((s.setBlocked index .child pid 0 pid).processes i).parentPid
      = (s.processes i).parentPid := by
    intro i
    by_cases hx : i = index
    · rw [hx, hself]
      rfl
    · rw [hother i hx]
  have hzombie : ∀ i, (s.setBlocked index .child pid 0 pid).stateOf i = .zombie →
      i ≠ index ∧ s.stateOf i = .zombie := by
    intro i hi
    rw [hstate] at hi
    split at hi
    · cases hi
    · next hx => exact ⟨hx, hi⟩
  refine ⟨fun i hi ↦ ?_, fun i hi ↦ ?_, fun _ i hi hz ↦ ?_, h.known, fun p hp ↦ ?_, h.once,
    h.delivered, fun i j hb hr hz ↦ ?_⟩
  · rw [setBlocked_pid, hparent]
    exact h.spawned i (hused i hi)
  · obtain ⟨hx, hz⟩ := hzombie i hi
    rw [hother i hx]
    exact h.zombie i hz
  · rw [setBlocked_pid]
    refine h.live hover i (hused i hi) ?_
    by_cases hx : i = index
    · simp [hx, hrun]
    · rwa [hstate, if_neg hx] at hz
  · refine ⟨(h.gone p hp).1, fun i hi ↦ ?_⟩
    rw [setBlocked_pid]
    exact (h.gone p hp).2 i (hused i hi)
  · obtain ⟨hxj, hzj⟩ := hzombie j hz
    rw [setBlocked_pid, hother j hxj]
    by_cases hxi : i = index
    · subst hxi
      rw [hself]
      exact fun htarget ↦ hnone j htarget hzj
    · rw [hother i hxi] at hr ⊢
      refine h.awake i j ?_ hr hzj
      change (s.setBlocked index .child pid 0 pid).stateOf i = .blocked at hb
      rwa [hstate, if_neg hxi] at hb

theorem Told.synced {control : Control} {trace : List Event} (h : Told ⟨t, control⟩ trace)
    (hover : ¬control.Over) (hs : Synced t s') : Told ⟨s', control⟩ trace := by
  have hkept : Told ⟨s', control⟩ (trace ++ []) := h.kept (fun i ↦ (Kept.of_eq rfl).synced hs)
    (Or.inl rfl) (Or.inr ⟨hover, fun i hz ↦ by rw [hs.stateOf]; exact hz⟩)
  rwa [List.append_nil] at hkept

/-- Steps without an event that keep every process and no zombie. -/
theorem Told.keeps {control control' : Control} {trace : List Event} (h : Told ⟨s, control⟩ trace)
    (hk : ∀ i, Kept s s' i)
    (hover : control'.Over ∨ ¬control.Over ∧ ∀ i, s.stateOf i = .zombie → s'.stateOf i = .zombie) :
    Told ⟨s', control'⟩ (trace ++ []) := h.kept hk (Or.inl rfl) hover

theorem Told.delivers {control : Control} {trace : List Event} (h : Told ⟨s, control⟩ trace)
    {index : Slot} (hz : s.stateOf index = .zombie) {pid callerPid : UInt32}
    (htarget : ProcessCore.IsTarget callerPid pid (s.processes index)) (wantsCode : Bool) :
    Delivered trace (.waited callerPid pid wantsCode (s.processes index).pid.toInt32
      (if wantsCode then some (s.processes index).exitCode else none)) := by
  obtain ⟨hused, ⟨-, hparent⟩, hpid⟩ := htarget
  refine fun _ ↦ ⟨(s.processes index).pid, (s.processes index).exitCode, rfl, ?_,
    fun hne ↦ hpid.resolve_left hne, h.zombie index hz, rfl⟩
  rw [← hparent]
  exact h.spawned index hused

theorem Scheduler.Wakes.zombie (h : Wakes s t) {i : Slot} (hz : s.stateOf i = .zombie) :
    t.stateOf i = .zombie := by
  rcases h.stateOf i with heq | ⟨hb, -⟩
  · exact heq.trans hz
  · simp [hz] at hb

theorem setBlocked_zombie {index : Slot} (hne : s.stateOf index ≠ .zombie) (waitReason : WaitReason)
    (waitChannel : UInt32) (wakeTick : UInt64) (waitTargetPid : UInt32) {i : Slot}
    (hz : s.stateOf i = .zombie) :
    (s.setBlocked index waitReason waitChannel wakeTick waitTargetPid).stateOf i = .zombie := by
  rw [setBlocked_stateOf, if_neg, hz]
  rintro rfl
  exact hne hz

/-- The caller of `process_yield` goes on, or the system is about to stop. -/
theorem Told.chosen {control : Control} {trace : List Event} {k : Continuation} {index : Slot}
    (h : Told ⟨s, control⟩ trace) (hover : ¬control.Over) (hcur : s.current = some index)
    (hleft : Left s k index) : Told (System.chosen s k index) (trace ++ []) := by
  have hk := kept_chosen (k := k) hleft.used
  rw [System.chosen, if_pos hcur, if_neg hleft.used] at hk ⊢
  refine h.keeps hk ?_
  by_cases hexit : k = .exit
  · exact Or.inl (by rw [hexit]; trivial)
  · refine Or.inr ⟨hover, fun i hz ↦ ?_⟩
    rw [setState, stateOf_setProcess, if_neg, hz]
    rintro rfl
    exact hexit (hleft.exit.mpr hz)

theorem collectedPids_waited (callerPid pid child : UInt32) (wantsCode : Bool)
    (exitCode : Option Int32) :
    collectedPids [.waited callerPid pid wantsCode child.toInt32 exitCode] = [] ∨
      collectedPids [.waited callerPid pid wantsCode child.toInt32 exitCode] = [child] := by
  by_cases hpos : 0 < child.toInt32
  · exact Or.inr (by simp [collectedPids, collectedPid, hpos])
  · exact Or.inl (by simp [collectedPids, collectedPid, hpos])

/-- **One step** keeps what the trace tells. -/
theorem Told.move {sys sys' : System} {l : Label} {es trace : List Event} (hsound : SystemSound sys)
    (hfresh : PidsFresh sys trace) (h : Told sys trace)
    (hmove : Move singleForeground sys l sys' es) : Told sys' (trace ++ es) := by
  have hsame : ∀ {s : Scheduler} (i : Slot), Kept s s i := fun i ↦ .of_eq rfl
  cases hmove with
  | quiet => exact h.keeps hsame (by
      by_cases hover : sys.control.Over
      · exact Or.inl hover
      · exact Or.inr ⟨hover, fun _ hz ↦ hz⟩)
  | yields => exact h.keeps hsame (Or.inr ⟨id, fun _ hz ↦ hz⟩)
  | exitBoot hnone => exact h.keeps hsame (Or.inr ⟨id, fun _ hz ↦ hz⟩)
  | spawns hspawn hs => exact (h.spawns hfresh hspawn).synced id hs
  | exits hproc he =>
    obtain ⟨hcur, hused⟩ := currentProcess_eq_some hproc
    have hrun := hsound.placed.control _ hcur
    exact h.ended hsound.placed.table hused (by rw [hrun]; decide) (he.imp And.right And.right)
  | kills hcur hused hz hs =>
    exact (h.ended hsound.placed.table hused hz (Or.inr rfl)).synced id hs
  | killsZombie hcur hz => exact h.killsZombie hz _
  | reaps hz hr =>
    exact h.resets hsound.placed.table id hz hr rfl (fun _ ↦ rfl) (Or.inr rfl) trivial
  | @collects s s' l control index pid callerPid wantsCode hat hz htarget hr =>
    have hover : ¬Control.Over control := by
      cases hat with
      | call _ _ => exact id
      | again => exact id
    exact h.resets hsound.placed.table hover hz hr rfl (fun _ ↦ rfl)
      (collectedPids_waited ..) (h.delivers hz htarget _)
  | waitFails hcontrol =>
    refine h.kept hsame (Or.inr ⟨_, _, _, rfl⟩) (Or.inr ⟨?_, fun _ hz ↦ hz⟩)
    rcases hcontrol with rfl | rfl <;> exact id
  | @waitBlocks s s' l control index pid callerPid wantsCode hat hcur htarget hs =>
    have hover : ¬Control.Over control := by
      cases hat with
      | call _ _ => exact id
      | again => exact id
    have hrun := hsound.placed.current_running hat.running hcur
    rw [hat.callerPid_eq hsound.placed hcur] at htarget
    rw [List.append_nil]
    exact (h.waits hover hrun htarget).synced id hs
  | waitYields hat hcur =>
    refine h.keeps hsame (Or.inr ⟨?_, fun _ hz ↦ hz⟩)
    cases hat with
    | call _ _ => exact id
    | again => exact id
  | @blocks s s' c index waitReason waitChannel wakeTick hcur hreason hs =>
    have hrun : s.stateOf index = .running := hsound.placed.control index hcur
    refine h.keeps (fun i ↦ (kept_setBlocked (by simp [hrun]) hreason ..).synced hs)
      (Or.inr ⟨id, fun i hz ↦ ?_⟩)
    rw [hs.stateOf]
    exact setBlocked_zombie (by simp [hrun]) _ _ _ _ hz
  | @blocksOther s s' c index waitChannel hcur hready hs =>
    have hused : s.stateOf index ≠ .unused := by rcases hready with h | h <;> simp [h]
    have hne : s.stateOf index ≠ .zombie := by rcases hready with h | h <;> simp [h]
    refine h.keeps (fun i ↦ (kept_setBlocked hused (by decide) ..).synced hs)
      (Or.inr ⟨id, fun i hz ↦ ?_⟩)
    rw [hs.stateOf]
    exact setBlocked_zombie hne _ _ _ _ hz
  | @wakes s t s' l control hw hs hcontrol =>
    refine h.keeps (fun i ↦ (hw.kept i).synced hs) ?_
    by_cases hover : control.Over
    · exact Or.inl hover
    · refine Or.inr ⟨hover, fun i hz ↦ ?_⟩
      rw [hs.stateOf]
      exact hw.zombie hz
  | picksNone hcur hleft => exact h.keeps hsame (Or.inl trivial)
  | picksFirst hcur hleft => exact h.keeps hsame (Or.inr ⟨id, fun _ hz ↦ hz⟩)
  | picksBack hcur hleft hrun =>
    refine h.keeps (kept_countYield _ _) (Or.inr ⟨id, fun i hz ↦ ?_⟩)
    rw [countYield_stateOf]
    exact hz
  | @picksSelf s k index hcur hleft =>
    have hcount : Told ⟨System.countYield s index, .yielding k⟩ (trace ++ []) := by
      refine h.keeps (kept_countYield _ _) (Or.inr ⟨id, fun i hz ↦ ?_⟩)
      rw [countYield_stateOf]
      exact hz
    rw [List.append_nil] at hcount
    exact hcount.chosen id (by rw [countYield_current, hcur])
      (Left.countYield index (hsound.placed.control index hcur))
  | picksOther hcur hleft hne =>
    refine h.keeps (kept_countYield _ _) (Or.inr ⟨id, fun i hz ↦ ?_⟩)
    rw [countYield_stateOf]
    exact hz
  | picksIdle hcur hleft hrun hsleep =>
    refine h.keeps (kept_countYield _ _) (Or.inr ⟨id, fun i hz ↦ ?_⟩)
    rw [countYield_stateOf]
    exact hz
  | picksHalt hcur hleft hrun hsleep => exact h.keeps (kept_countYield _ _) (Or.inl trivial)
  | waitsOn hs hleft =>
    rw [List.append_nil]
    exact h.synced id hs
  | @waitsSelf s s' k index hs hcur hleft =>
    have hplaced := hsound.placed.synced hs
    obtain ⟨i, hi, hk, -⟩ := hplaced.control
    have hcur' : s'.current = some index := hs.current.trans hcur
    obtain rfl : index = i := Option.some.inj (hcur'.symm.trans hi)
    exact (h.synced id hs).chosen id hcur' hk
  | waitsOther hs hleft hcur =>
    refine (h.synced id hs).keeps hsame (Or.inr ⟨id, fun _ hz ↦ hz⟩)
  | @starts s s' k next hcur hs =>
    obtain ⟨hready, -⟩ := hsound.placed.control
    have hready : s.stateOf next = .ready := hready
    refine h.keeps (fun i ↦ (kept_started (by simp [hready]) i).synced hs)
      (Or.inr ⟨id, fun i hz ↦ ?_⟩)
    rw [hs.stateOf]
    have hst : (s.started next).stateOf i = if i = next then .running else s.stateOf i :=
      stateOf_setProcess next i _
    rw [hst, if_neg, hz]
    rintro rfl
    simp [hready] at hz
  | @switches s s' k index next hcur hs =>
    obtain ⟨hready, hleft⟩ := hsound.placed.control
    have hready : s.stateOf next = .ready := hready
    have hleft := (hleft index hcur).2
    have hnext : (s.suspended index k).stateOf next ≠ .unused := by
      rw [suspended_stateOf]
      split <;> simp [hready]
    refine h.keeps
      (fun i ↦ ((kept_suspended hleft.used k i).trans (kept_resumed hnext i)).synced hs)
      (Or.inr ⟨id, fun i hz ↦ ?_⟩)
    have hz : s.stateOf i = .zombie := hz
    rw [hs.stateOf, resumed_stateOf, suspended_stateOf, if_neg, if_neg, hz]
    · rintro ⟨-, hrun⟩
      simp [hz] at hrun
    · rintro rfl
      simp [hready] at hz
  | goesOn hk =>
    refine h.keeps hsame (Or.inr ⟨?_, fun _ hz ↦ hz⟩)
    rcases hk with rfl | rfl <;> exact id
  | exitReturns => exact h.keeps hsame (Or.inl trivial)

/-! ## Runs -/

theorem Run.told {sys : System} {trace : List Event} (h : Run singleForeground sys trace) :
    Told sys trace := by
  have hP := h.invariant (P := fun sys trace ↦ PidsFresh sys trace ∧ Told sys trace)
    ⟨⟨List.nodup_nil, fun _ pid hpid ↦ by cases hpid⟩, told_boot⟩
    fun sys l sys' es trace hsound hP hmove ↦
      ⟨hP.1.move hmove, hP.2.move hsound hP.1 hmove⟩
  exact hP.2.2

/-- **Exit statuses are delivered once**: in every run a positive answer of `process_waitpid` is a
child of its caller, the one asked for if one was, that has exited or been killed, with the code of
its first exit or kill; no process is returned twice by `process_waitpid` or `process_reap`; and no
process is BLOCKED waiting for a child while there is a zombie for it to collect. -/
theorem exit_status_once {sys : System} {trace : List Event} (h : Run singleForeground sys trace) :
    (∀ pre e, pre ++ [e] <+: trace → Delivered pre e) ∧ (collectedPids trace).Nodup ∧
    ∀ i j, sys.scheduler.stateOf i = .blocked → (sys.scheduler.processes i).waitReason = .child →
      sys.scheduler.stateOf j = .zombie →
      ¬ProcessCore.IsTarget (sys.scheduler.processes i).pid
        (sys.scheduler.processes i).waitTargetPid (sys.scheduler.processes j) := by
  have htold := h.told
  exact ⟨htold.delivered, htold.once, htold.awake⟩

/-- The child of a waiting process exits with the code 7, and the answer is as it should be. -/
theorem exit_status_once_child : ∃ sys trace, Run false sys trace ∧
    trace = [.spawned 1 0, .spawned 2 1, .exited 2 7, .waited 1 0 true 2 (some 7)] ∧
    Delivered [.spawned 1 0, .spawned 2 1, .exited 2 7] (.waited 1 0 true 2 (some 7)) := by
  obtain ⟨sys, trace, hrun, hP⟩ := RunOf.exists_of_labels false (fun _ _ ↦ True)
    [.call (.spawn none true 1), .call .yield, .pick, .switch, .resume,
      .call (.spawn none true 1), .call (.waitpid 0 true), .pick, .switch, .resume,
      .call (.exit 7), .timer, .pick, .switch, .resume]
    (fun sys trace ↦
      trace = [.spawned 1 0, .spawned 2 1, .exited 2 7, .waited 1 0 true 2 (some 7)])
    (by decide +kernel)
  have htrace := of_decide_eq_true hP
  obtain ⟨hdelivered, -⟩ := exit_status_once hrun.run
  exact ⟨sys, trace, hrun.run, htrace, hdelivered _ _ (by rw [htrace]; exact List.prefix_rfl)⟩

end TensorOS
