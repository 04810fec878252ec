import TensorOS.Sched.ExitStatus

/-!
# The queue and the READY processes

When `process_yield` chooses a process it takes the leftmost one of the queue. Two paths leave the
queue out of step with the process states. A caller that has blocked and is woken again before the
choice is READY and on the queue; if it is chosen it becomes RUNNING and stays on the queue
(`Repicks`). And `process_exit` wakes a waiting parent without putting it on the queue, which
matters when nothing else is there to run or to wait for (`LoneExit`).

In a run that takes no step of the first kind the queue holds exactly the READY processes whenever
a process is running, and `process_yield` switches to the first of them. If the run takes no step
of the second kind either, a process that leaves the processor never stops the system while another
is READY.
-/

namespace TensorOS

open Scheduler

variable {s t s' : Scheduler} {singleForeground : Bool} {ok : System → Label → Prop}

/-! ## The caller is chosen again -/

/-- The points of `process_yield` at which the next process is chosen. -/
def Choosing : Control → Label → Bool
  | .yielding _, .pick => true
  | .idle _, .wait => true
  | _, _ => false

/-- The step lets `process_yield` choose its own caller, which has been woken since it blocked and
is the first of the READY processes. -/
def Repicks (sys : System) (l : Label) : Prop :=
  Choosing sys.control l = true ∧
  ∃ i, sys.scheduler.current = some i ∧ sys.scheduler.stateOf i = .ready ∧
    ∀ j, sys.scheduler.stateOf j = .ready → j ≠ i → sys.scheduler.vruntimeBefore i j = true

instance (sys : System) (l : Label) : Decidable (Repicks sys l) :=
  inferInstanceAs (Decidable (_ ∧ _))

theorem not_repicks {l : Label} (hpick : l ≠ .pick) (hwait : l ≠ .wait) (sys : System) :
    ¬Repicks sys l := by
  rintro ⟨hchoosing, -⟩
  cases l with
  | pick => exact hpick rfl
  | wait => exact hwait rfl
  | _ => simp [Choosing] at hchoosing

/-- From `process_exit` to the switch the queue may miss processes that the exit has woken. -/
def Control.AfterExit : Control → Prop
  | .yielding .exit => True
  | .idle .exit => True
  | .picked .exit _ => True
  | .halted _ => True
  | _ => False

/-- The queue is sorted and has the READY processes, and nobody returns to `process_exit`. -/
structure Fair (sys : System) : Prop where
  sorted : sys.scheduler.QueueSorted
  onRq : ∀ i, sys.scheduler.queue.onRq i = true → sys.scheduler.stateOf i = .ready
  ready : ¬sys.control.AfterExit → ∀ i, sys.scheduler.stateOf i = .ready →
    sys.scheduler.queue.onRq i = true
  returns : sys.control ≠ .resume .exit ∧ sys.control ≠ .halted .exitReturned

/-- The keys of the READY processes decide whether the queue stays sorted. -/
theorem Fair.sorted_of_keys {control : Control} (h : Fair ⟨s, control⟩) (hqueue : t.queue = s.queue)
    (hkeys : ∀ i, s.stateOf i = .ready →
      t.vruntime i = s.vruntime i ∧ (t.processes i).pid = (s.processes i).pid) : t.QueueSorted :=
  h.sorted.congr hqueue fun i hi ↦ hkeys i (h.onRq i hi)

/-- After synchronising nothing is amiss. -/
theorem Fair.of_synced {control : Control} (hs : Synced t s') (hsorted : t.QueueSorted)
    (hreturns : control ≠ .resume .exit ∧ control ≠ .halted .exitReturned) :
    Fair ⟨s', control⟩ := by
  refine ⟨hs.sorted hsorted, fun i hi ↦ ?_, fun _ i hi ↦ ?_, hreturns⟩
  · exact (hs.stateOf i).trans ((hs.onRq i).mp hi)
  · exact (hs.onRq i).mpr ((hs.stateOf i).symm.trans hi)

theorem Fair.same {control control' : Control} (h : Fair ⟨s, control⟩)
    (hafter : control.AfterExit → control'.AfterExit)
    (hreturns : control' ≠ .resume .exit ∧ control' ≠ .halted .exitReturned) : Fair ⟨s, control'⟩ :=
  ⟨h.sorted, h.onRq, fun hnot ↦ h.ready fun hcontrol ↦ hnot (hafter hcontrol), hreturns⟩

theorem Fair.countYield {control control' : Control} (h : Fair ⟨s, control⟩) (index : Slot)
    (hafter : control.AfterExit → control'.AfterExit)
    (hreturns : control' ≠ .resume .exit ∧ control' ≠ .halted .exitReturned) :
    Fair ⟨System.countYield s index, control'⟩ := by
  obtain ⟨processes, heq, hcount⟩ := countYield_spec s index
  have hqueue : (System.countYield s index).queue = s.queue := by rw [heq]
  refine ⟨h.sorted_of_keys hqueue fun i _ ↦ ?_, fun i hi ↦ ?_, fun hnot i hi ↦ ?_, hreturns⟩
  · obtain ⟨n, hn⟩ := hcount i
    simp [heq, hn]
  · change (System.countYield s index).stateOf i = .ready
    rw [countYield_stateOf]
    exact h.onRq i (hqueue ▸ hi)
  · change (System.countYield s index).queue.onRq i = true
    rw [hqueue]
    have hi : (System.countYield s index).stateOf i = .ready := hi
    rw [countYield_stateOf] at hi
    exact h.ready (fun hcontrol ↦ hnot (hafter hcontrol)) i hi

theorem Fair.resets {control : Control} {index : Slot} (h : Fair ⟨s, control⟩)
    (hafter : ¬control.AfterExit) (hz : s.stateOf index = .zombie) (hr : Resets s index s') :
    Fair ⟨s', .user⟩ := by
  have hne : ∀ i, s.stateOf i = .ready → i ≠ index := by
    rintro i hi rfl
    simp [hz] at hi
  refine ⟨hr.sorted h.sorted, fun i hi ↦ ?_, fun _ i hi ↦ ?_, by simp⟩
  · have hi : s'.queue.onRq i = true := hi
    rw [hr.onRq, Function.update_apply] at hi
    split at hi
    · cases hi
    · next hx =>
      change s'.stateOf i = .ready
      rw [hr.stateOf, if_neg hx]
      exact h.onRq i hi
  · have hi : s'.stateOf i = .ready := hi
    rw [hr.stateOf] at hi
    split at hi
    · cases hi
    · next hx =>
      change s'.queue.onRq i = true
      rw [hr.onRq, Function.update_of_ne hx]
      exact h.ready hafter i hi

/-- A READY caller that is chosen is the first of the READY processes. -/
theorem Fair.repicks {control : Control} {index : Slot} {l : Label} (h : Fair ⟨s, control⟩)
    (hafter : ¬control.AfterExit) (hat : Choosing control l = true)
    (hcur : s.current = some index) (hleft : s.queue.leftmost = some index) :
    Repicks ⟨s, control⟩ l := by
  have hon := h.sorted.sound.leftmost_onRq hleft
  exact ⟨hat, index, hcur, h.onRq index hon, fun j hj hne ↦
    h.sorted.leftmost_before hleft (h.ready hafter j hj) hne⟩

theorem notAfterExit {k : Continuation} (hk : k ≠ .exit) :
    ¬(Control.yielding k).AfterExit ∧ ¬(Control.idle k).AfterExit := by
  cases k with
  | exit => exact absurd rfl hk
  | _ => exact ⟨id, id⟩

theorem Fair.repicks_of_pick {k : Continuation} {index : Slot}
    (hsound : SystemSound ⟨s, .yielding k⟩) (h : Fair ⟨s, .yielding k⟩)
    (hcur : s.current = some index) (hleft : s.queue.leftmost = some index) :
    Repicks ⟨s, .yielding k⟩ .pick := by
  have hready : s.stateOf index = .ready := h.onRq _ (h.sorted.sound.leftmost_onRq hleft)
  have hk : k ≠ .exit := fun hk ↦ by
    have hz := (hsound.placed.control index hcur).exit.mp hk
    simp [hready] at hz
  exact h.repicks (notAfterExit hk).1 rfl hcur hleft

/-- A caller that is chosen after it has waited for an interrupt. -/
theorem Fair.repicks_of_wait {k : Continuation} {index : Slot} (h : Fair ⟨s, .idle k⟩)
    (hs : Synced s s') (hcur : s.current = some index) (hleft : s'.queue.leftmost = some index) :
    Repicks ⟨s, .idle k⟩ .wait := by
  have hready : s.stateOf index = .ready := (hs.onRq index).mp (hs.sound.leftmost_onRq hleft)
  have hsorted := hs.sorted h.sorted
  refine ⟨rfl, index, hcur, hready, fun j hj hne ↦ ?_⟩
  have hbefore := hsorted.leftmost_before hleft ((hs.onRq j).mpr hj) hne
  rwa [hs.eq] at hbefore

theorem WaitsAt.notAfterExit {pid callerPid : UInt32} {wantsCode : Bool} {control : Control}
    (h : WaitsAt s pid callerPid wantsCode control) : ¬control.AfterExit := by
  cases h with
  | call _ _ => exact id
  | again => exact id

theorem endProcess_ready {index : Slot} (exitCode : Int32) {i : Slot} (hi : s.stateOf i = .ready)
    (hne : i ≠ index) : (s.endProcess index exitCode).stateOf i = .ready := by
  rcases endProcess_stateOf s index exitCode i with ⟨-, heq⟩ | ⟨-, heq | ⟨hb, -⟩⟩
  · exact absurd heq hne
  · exact heq.trans hi
  · simp [hi] at hb

/-- **One step** that does not choose the caller again keeps the queue in step. -/
theorem Fair.move {sys sys' : System} {l : Label} {es : List Event} (hsound : SystemSound sys)
    (h : Fair sys) (hok : ¬Repicks sys l) (hmove : Move singleForeground sys l sys' es) :
    Fair sys' := by
  cases hmove with
  | quiet => exact h
  | yields => exact h.same (fun hcontrol ↦ hcontrol.elim) (by simp)
  | exitBoot hnone => exact h.same (fun hcontrol ↦ hcontrol.elim) (by simp)
  | @spawns s t s' c index hspawn hs =>
    refine .of_synced hs (h.sorted_of_keys ?_ fun i hi ↦ ?_) (by simp)
    · obtain ⟨process, vruntime, rfl, -⟩ := hspawn.eq
      rfl
    · have hne : i ≠ index := by
        rintro rfl
        simp [hspawn.free] at hi
      obtain ⟨process, vruntime, rfl, -⟩ := hspawn.eq
      exact ⟨Function.update_of_ne hne .., by simp [Function.update_of_ne hne]⟩
  | @exits s c index exitCode e hproc he =>
    have hrun : s.stateOf index = .running :=
      hsound.placed.control _ (currentProcess_eq_some hproc).1
    refine ⟨h.sorted_of_keys rfl fun i _ ↦ ⟨rfl, endProcess_pid ..⟩, fun i hi ↦ ?_,
      fun hnot ↦ absurd trivial hnot, by simp⟩
    have hready := h.onRq i hi
    refine endProcess_ready exitCode hready ?_
    rintro rfl
    simp [hrun] at hready
  | kills hcur hused hz hs =>
    exact .of_synced hs (h.sorted_of_keys rfl fun i _ ↦ ⟨rfl, endProcess_pid ..⟩) (by simp)
  | killsZombie hcur hz => exact h
  | reaps hz hr => exact h.resets id hz hr
  | collects hat hz htarget hr => exact h.resets hat.notAfterExit hz hr
  | waitFails hcontrol =>
    refine h.same ?_ (by simp)
    rcases hcontrol with rfl | rfl <;> exact False.elim
  | waitBlocks hat hcur htarget hs =>
    exact .of_synced hs (h.sorted_of_keys rfl fun i _ ↦ ⟨rfl, setBlocked_pid ..⟩) (by simp)
  | waitYields hat hcur =>
    exact h.same (fun hcontrol ↦ absurd hcontrol hat.notAfterExit) (by simp)
  | blocks hcur hreason hs =>
    exact .of_synced hs (h.sorted_of_keys rfl fun i _ ↦ ⟨rfl, setBlocked_pid ..⟩) (by simp)
  | blocksOther hcur hready hs =>
    exact .of_synced hs (h.sorted_of_keys rfl fun i _ ↦ ⟨rfl, setBlocked_pid ..⟩) (by simp)
  | wakes hw hs hcontrol =>
    refine .of_synced hs (h.sorted_of_keys ?_ fun i _ ↦ ⟨?_, hw.pid i⟩) h.returns
    · rw [hw.eq]
    · rw [hw.eq]
  | picksNone hcur hleft => exact h.same (fun _ ↦ trivial) (by simp)
  | @picksFirst s k next hcur hleft =>
    refine h.same ?_ (by simp)
    cases k <;> exact id
  | @picksBack s k index hcur hleft hrun =>
    have hrun : s.stateOf index = .running := hrun
    have hleft : Left s k index := hsound.placed.control index hcur
    have hk : k ≠ .exit := fun hk ↦ by simp [hleft.exit.mp hk] at hrun
    exact h.countYield index (fun hcontrol ↦ absurd hcontrol (notAfterExit hk).1)
      (by simpa using hk)
  | picksSelf hcur hleft => exact absurd (h.repicks_of_pick hsound hcur hleft) hok
  | @picksOther s k index next hcur hleft hne =>
    refine h.countYield index ?_ (by simp)
    cases k <;> exact id
  | @picksIdle s k index hcur hleft hrun hsleep =>
    refine h.countYield index ?_ (by simp)
    cases k <;> exact id
  | picksHalt hcur hleft hrun hsleep => exact h.countYield _ (fun _ ↦ trivial) (by simp)
  | waitsOn hs hleft => exact .of_synced hs h.sorted (by simp)
  | waitsSelf hs hcur hleft => exact absurd (h.repicks_of_wait hs hcur hleft) hok
  | waitsOther hs hleft hcur => exact .of_synced hs h.sorted (by simp)
  | @starts s s' k next hcur hs =>
    have hready : s.stateOf next = .ready := hsound.placed.control.1
    have hk := (hsound.placed.context next (by simp [hcur]) (Or.inl hready)).1
    refine .of_synced hs (h.sorted_of_keys rfl fun i _ ↦ ⟨rfl, ?_⟩) ⟨?_, by simp⟩
    · simp only [started, setState, setProcess, Function.update_apply]
      split
      · next hi => rw [hi]
      · rfl
    · rw [hs.context]
      change Control.resume (s.context next) ≠ .resume .exit
      simpa using hk
  | @switches s s' k index next hcur hs =>
    have hready : s.stateOf next = .ready := hsound.placed.control.1
    have hne : index ≠ next := (hsound.placed.control.2 index hcur).1
    have hk := (hsound.placed.context next (by simp [hcur, hne]) (Or.inl hready)).1
    refine .of_synced hs (h.sorted_of_keys rfl fun i hi ↦ ⟨?_, ?_⟩) ⟨?_, by simp⟩
    · -- the process that is charged was RUNNING
      change (s.suspended index k).vruntime i = s.vruntime i
      simp only [suspended]
      split
      · next hrun =>
        refine Function.update_of_ne ?_ ..
        rintro rfl
        simp [hi] at hrun
      · rfl
    · simp only [resumed, setProcess, suspended, Function.update_apply]
      split
      · next hx =>
        subst hx
        rw [if_neg (Ne.symm hne)]
      · split
        · next hx => rw [hx]
        · rfl
    · rw [hs.context]
      change Control.resume (Function.update s.context index k next) ≠ .resume .exit
      rw [Function.update_of_ne (Ne.symm hne)]
      simpa using hk
  | @goesOn s k hk =>
    refine h.same ?_ (by simp)
    rcases hk with rfl | rfl <;> exact False.elim
  | exitReturns => exact absurd rfl h.returns.1

theorem fair_boot : Fair System.boot := by
  obtain ⟨l, hl⟩ := sound_boot.queue
  have hempty : l = [] := List.eq_nil_iff_forall_not_mem.mpr fun i hi ↦ by
    cases (hl.onRq i).mpr hi
  refine ⟨⟨l, hl, ?_⟩, fun i hi ↦ ?_, fun _ i hi ↦ ?_, by decide⟩
  · rw [hempty]
    exact .nil
  · cases hi
  · cases hi

theorem RunOf.fair (hok : ∀ sys l, ok sys l → ¬Repicks sys l) {sys : System} {trace : List Event}
    (h : RunOf singleForeground ok sys trace) : Fair sys :=
  h.invariant (P := fun sys _ ↦ Fair sys) fair_boot fun sys l _ _ _ hrun hfair hl hmove ↦
    hfair.move hrun.run.sound (hok sys l hl) hmove

/-- **The ready queue**: in every run in which `process_yield` never chooses its own caller while
that is READY, whenever a process is running a slot is marked as on the queue exactly when its
process is READY, and the tree holds exactly these slots. -/
theorem ready_queue_membership {sys : System} {trace : List Event}
    (h : RunOf singleForeground (fun sys l ↦ ¬Repicks sys l) sys trace)
    (hcontrol : sys.control = .user) :
    (∀ i, sys.scheduler.queue.onRq i = true ↔ sys.scheduler.stateOf i = .ready) ∧
    ∃ l, sys.scheduler.queue.Holds l ∧ ∀ i, i ∈ l ↔ sys.scheduler.stateOf i = .ready := by
  have hfair := h.fair fun _ _ hl ↦ hl
  have honRq : ∀ i, sys.scheduler.queue.onRq i = true ↔ sys.scheduler.stateOf i = .ready := fun i ↦
    ⟨hfair.onRq i, hfair.ready (by rw [hcontrol]; exact id) i⟩
  obtain ⟨l, hl, -⟩ := hfair.sorted
  exact ⟨honRq, l, hl, fun i ↦ (hl.onRq i).symm.trans (honRq i)⟩

/-- With two processes, while the first one is running. -/
theorem ready_queue_membership_two : ∃ sys trace,
    RunOf false (fun sys l ↦ ¬Repicks sys l) sys trace ∧
    (sys.control = .user ∧ sys.scheduler.stateOf 0 = .running ∧ sys.scheduler.stateOf 1 = .ready) ∧
    (∀ i, sys.scheduler.queue.onRq i = true ↔ sys.scheduler.stateOf i = .ready) ∧
    ∃ l, sys.scheduler.queue.Holds l ∧ ∀ i, i ∈ l ↔ sys.scheduler.stateOf i = .ready := by
  obtain ⟨sys, trace, hrun, hP⟩ := RunOf.exists_of_labels false
    (fun sys l ↦ ¬Repicks sys l) twoProcesses
    (fun sys _ ↦ sys.control = .user ∧ sys.scheduler.stateOf 0 = .running ∧
      sys.scheduler.stateOf 1 = .ready) (by decide +kernel)
  have hP := of_decide_eq_true hP
  exact ⟨sys, trace, hrun, hP, ready_queue_membership hrun hP.1⟩

/-- The only process sleeps for a tick, is woken while `process_yield` waits, and is chosen again:
it is RUNNING and on the queue. -/
theorem ready_queue_repicked : ∃ sys trace, Run false sys trace ∧ sys.control = .user ∧
    sys.scheduler.stateOf 0 = .running ∧ sys.scheduler.queue.onRq 0 = true := by
  obtain ⟨sys, trace, hrun, hP⟩ := RunOf.exists_of_labels false (fun _ _ ↦ True)
    [.call (.spawn none true 1), .call .yield, .pick, .switch, .resume, .call (.sleep 1), .pick,
      .timer, .wait, .resume]
    (fun sys _ ↦ sys.control = .user ∧ sys.scheduler.stateOf 0 = .running ∧
      sys.scheduler.queue.onRq 0 = true) (by decide +kernel)
  exact ⟨sys, trace, hrun.run, of_decide_eq_true hP⟩

/-! ## Interrupts -/

/-- What interrupts change as far as the choice is concerned: blocked processes become READY. -/
structure Ticked (s s' : Scheduler) : Prop where
  current : s'.current = s.current
  stateOf : ∀ i, s'.stateOf i = s.stateOf i ∨ s.stateOf i = .blocked ∧ s'.stateOf i = .ready

theorem Ticked.refl (s : Scheduler) : Ticked s s := ⟨rfl, fun _ ↦ Or.inl rfl⟩

theorem Ticked.trans (h : Ticked s t) (h' : Ticked t s') : Ticked s s' := by
  refine ⟨h'.current.trans h.current, fun i ↦ ?_⟩
  rcases h.stateOf i with hi | ⟨hb, hr⟩
  · rw [← hi]
    exact h'.stateOf i
  · refine Or.inr ⟨hb, ?_⟩
    rcases h'.stateOf i with hi | ⟨hb', -⟩
    · exact hi.trans hr
    · simp [hr] at hb'

theorem Ticked.stateOf_eq (h : Ticked s s') {i : Slot} (hne : s.stateOf i ≠ .blocked) :
    s'.stateOf i = s.stateOf i :=
  (h.stateOf i).resolve_right fun hb ↦ hne hb.1

/-- Any number of interrupts leaves the run where it is. -/
theorem SystemSound.ticks (singleForeground : Bool) {control : Control}
    (h : SystemSound ⟨s, control⟩)
    (hcontrol : ∀ reason, control ≠ .halted reason) (n : ℕ) (trace : List Event) :
    ∃ s', System.run singleForeground (List.replicate n .timer) (⟨s, control⟩, trace)
        = .ok (⟨s', control⟩, trace) ∧ SystemSound ⟨s', control⟩ ∧ Ticked s s' := by
  induction n generalizing s with
  | zero => exact ⟨s, rfl, h, .refl s⟩
  | succ n ih =>
    obtain ⟨t, s₁, hstep, hw, hs⟩ := timer_spec singleForeground h.queue hcontrol
    have hsound₁ := h.move (.wakes hw hs hcontrol : Move false _ .timer _ _)
    obtain ⟨s', hrun, hsound, hticked⟩ := ih hsound₁
    refine ⟨s', ?_, hsound, Ticked.trans ⟨hs.current.trans hw.current, fun i ↦ ?_⟩ hticked⟩
    · rw [List.replicate_succ, System.run_cons _ _ hstep, List.append_nil]
      exact hrun
    · rw [hs.stateOf]
      exact hw.stateOf i

theorem RunOf.extend {labels : List Label} (hlabels : ∀ l ∈ labels, ∀ sys, ok sys l)
    {a b : System × List Event} (h : RunOf singleForeground ok a.1 a.2)
    (hrun : System.run singleForeground labels a = .ok b) : RunOf singleForeground ok b.1 b.2 := by
  induction labels generalizing a with
  | nil =>
    obtain rfl := Except.ok.inj hrun
    exact h
  | cons l labels ih =>
    obtain ⟨sys, es, hstep, -⟩ := exists_move singleForeground h.run.sound.queue l
    rw [System.run_cons l labels hstep] at hrun
    exact ih (fun l' hl' ↦ hlabels l' (List.mem_cons_of_mem _ hl'))
      (.step h ⟨l, es, hlabels l List.mem_cons_self a.1, hstep, rfl⟩) hrun

/-! ## The choice -/

/-- The current process and the next one after a switch. -/
theorem switched {index next : Slot} {k : Continuation}
    (hs : Synced ((s.suspended index k).resumed next) s') :
    s'.current = some next ∧ s'.stateOf next = .running := by
  refine ⟨hs.current, ?_⟩
  rw [hs.stateOf, resumed_stateOf, if_pos rfl]

theorem SystemSound.passes (singleForeground : Bool) {k : Continuation} {next caller : Slot}
    (h : SystemSound ⟨s, .picked k next⟩) (hcur : s.current = some caller) (n : ℕ)
    (trace : List Event) :
    ∃ s', System.run singleForeground (List.replicate n .timer ++ [.switch])
      (⟨s, .picked k next⟩, trace)
        = .ok (⟨s', .resume (s'.context next)⟩, trace) ∧
      s'.current = some next ∧ s'.stateOf next = .running ∧ s'.context next ≠ .exit := by
  obtain ⟨s₁, hticks, hsound, hticked⟩ := h.ticks singleForeground (by simp) n trace
  have hcur₁ : s₁.current = some caller := hticked.current.trans hcur
  obtain ⟨s', hswitch, hs⟩ := switch_spec hsound.queue hcur₁ k next
  have hstep : System.step singleForeground ⟨s₁, .picked k next⟩ .switch
      = .ok (⟨s', .resume (s'.context next)⟩, []) := by
    simp [System.step, hswitch]
  obtain ⟨hcurrent, hrunning⟩ := switched hs
  refine ⟨s', ?_, hcurrent, hrunning, ?_⟩
  · rw [System.run_append _ hticks, System.run_cons _ _ hstep, List.append_nil]
    rfl
  · -- the context of the next process is as it was
    obtain ⟨hready, hleft⟩ := hsound.placed.control
    have hne : caller ≠ next := (hleft caller hcur₁).1
    rw [hs.context]
    change Function.update s₁.context caller k next ≠ .exit
    rw [Function.update_of_ne (Ne.symm hne)]
    exact (hsound.placed.context next (by simp [hcur₁, hne]) (Or.inl hready)).1

/-- **The choice is fair**: in every run in which `process_yield` never chooses its own caller
while that is READY, when a RUNNING process yields while another one is READY, and whatever
interrupts come before the choice and before the switch, control passes to another process, the one
that is READY and first by `vruntime`, pid and slot at the choice. -/
theorem fair_pick {sys : System} {trace : List Event}
    (h : RunOf singleForeground (fun sys l ↦ ¬Repicks sys l) sys trace)
    (hcontrol : sys.control = .user) {caller : Slot} (hcur : sys.scheduler.current = some caller)
    (hother : ∃ i, sys.scheduler.stateOf i = .ready) (m n : ℕ) :
    ∃ s₁ s₂ next k,
      System.run singleForeground (.call .yield :: List.replicate m .timer) (sys, trace)
        = .ok (⟨s₁, .yielding .returns⟩, trace) ∧
      System.run singleForeground (.pick :: (List.replicate n .timer ++ [.switch]))
        (⟨s₁, .yielding .returns⟩, trace) = .ok (⟨s₂, .resume k⟩, trace) ∧
      (next ≠ caller ∧ s₁.stateOf next = .ready ∧
        ∀ j, s₁.stateOf j = .ready → j ≠ next → s₁.vruntimeBefore next j = true) ∧
      s₂.current = some next ∧ s₂.stateOf next = .running := by
  obtain ⟨s, control⟩ := sys
  obtain rfl : control = .user := hcontrol
  have hrunning : s.stateOf caller = .running := h.run.sound.placed.control caller hcur
  have hyields : RunOf singleForeground (fun sys l ↦ ¬Repicks sys l)
      ⟨s, .yielding .returns⟩ trace :=
    .step h ⟨.call .yield, [], not_repicks (by simp) (by simp) _, rfl, by simp⟩
  obtain ⟨s₁, hticks, hsound₁, hticked⟩ :=
    hyields.run.sound.ticks singleForeground (by simp) m trace
  have hrun₁ : RunOf singleForeground (fun sys l ↦ ¬Repicks sys l)
      ⟨s₁, .yielding .returns⟩ trace := by
    refine RunOf.extend (fun l hl sys ↦ ?_) hyields hticks
    rw [List.eq_of_mem_replicate hl]
    exact not_repicks (by simp) (by simp) sys
  have hfair := hrun₁.fair fun _ _ hl ↦ hl
  -- the caller is RUNNING and so not on the queue, and the other process is
  have hcaller : s₁.stateOf caller = .running :=
    (hticked.stateOf_eq (by simp [hrunning])).trans hrunning
  have hcur₁ : s₁.current = some caller := hticked.current.trans hcur
  obtain ⟨i, hi⟩ := hother
  have hi₁ : s₁.stateOf i = .ready := (hticked.stateOf_eq (by simp [hi])).trans hi
  cases hleft : s₁.queue.leftmost with
  | none =>
    have hoff := hsound₁.queue.leftmost_none hleft i
    cases hoff.symm.trans (hfair.ready id i hi₁)
  | some next =>
    have hready : s₁.stateOf next = .ready := hfair.onRq next (hsound₁.queue.leftmost_onRq hleft)
    have hne : next ≠ caller := by
      rintro rfl
      simp [hcaller] at hready
    have hpick : System.step singleForeground ⟨s₁, .yielding .returns⟩ .pick
        = .ok (⟨System.countYield s₁ caller, .picked .returns next⟩, []) := by
      change Except.ok (System.pick s₁ .returns, []) = _
      rw [pick_some hcur₁ hleft,
        chosen_other (by rw [countYield_current, hcur₁]; simpa using Ne.symm hne)]
    have hsound₂ := hsound₁.move (.picksOther hcur₁ hleft hne : Move false _ _ _ _)
    obtain ⟨s₂, hpasses, hcurrent, hrun, -⟩ :=
      hsound₂.passes singleForeground (by rw [countYield_current, hcur₁]) n trace
    refine ⟨s₁, s₂, next, s₂.context next, ?_, ?_, ⟨hne, hready, fun j hj hjne ↦ ?_⟩, hcurrent,
      hrun⟩
    · rw [System.run_cons _ _ rfl, List.append_nil]
      exact hticks
    · rw [System.run_cons _ _ hpick, List.append_nil]
      exact hpasses
    · exact hfair.sorted.leftmost_before hleft (hfair.ready id j hj) hjne

/-- With two processes, the first one yields. -/
theorem fair_pick_two : ∃ sys trace s₁ s₂ next k,
    RunOf false (fun sys l ↦ ¬Repicks sys l) sys trace ∧
    (sys.control = .user ∧ sys.scheduler.current = some 0 ∧ sys.scheduler.stateOf 1 = .ready) ∧
    System.run false (.call .yield :: List.replicate 1 .timer) (sys, trace)
      = .ok (⟨s₁, .yielding .returns⟩, trace) ∧
    System.run false (.pick :: (List.replicate 2 .timer ++ [.switch]))
      (⟨s₁, .yielding .returns⟩, trace) = .ok (⟨s₂, .resume k⟩, trace) ∧
    next ≠ 0 ∧ s₂.current = some next ∧ s₂.stateOf next = .running := by
  obtain ⟨sys, trace, hrun, hP⟩ := RunOf.exists_of_labels false
    (fun sys l ↦ ¬Repicks sys l) twoProcesses
    (fun sys _ ↦ sys.control = .user ∧ sys.scheduler.current = some 0 ∧
      sys.scheduler.stateOf 1 = .ready) (by decide +kernel)
  have hP := of_decide_eq_true hP
  obtain ⟨s₁, s₂, next, k, hyield, hpick, ⟨hne, -⟩, hcurrent, hrunning⟩ :=
    fair_pick hrun hP.1 hP.2.1 ⟨1, hP.2.2⟩ 1 2
  exact ⟨sys, trace, s₁, s₂, next, k, hrun, hP, hyield, hpick, hne, hcurrent, hrunning⟩

/-- The first of two processes is chosen again after a sleep, and then yields while the other one is
READY: it is still on the queue, and `process_yield` returns to it. -/
theorem pick_returns_to_caller : ∃ sys trace sys', Run false sys trace ∧ sys.control = .user ∧
    sys.scheduler.current = some 0 ∧ sys.scheduler.stateOf 0 = .running ∧
    sys.scheduler.stateOf 1 = .ready ∧
    System.run false [.call .yield, .pick, .resume] (sys, trace) = .ok (sys', trace) ∧
    sys'.control = .user ∧ sys'.scheduler.current = some 0 ∧
    sys'.scheduler.stateOf 1 = .ready := by
  obtain ⟨sys, trace, hrun, hP⟩ := RunOf.exists_of_labels false (fun _ _ ↦ True)
    (twoProcesses ++ [.call (.sleep 1), .pick, .switch, .resume, .timer, .call (.sleep 1), .pick,
      .switch, .resume, .call (.sleep 1), .pick, .timer, .wait, .resume])
    (fun sys trace ↦ decide (sys.control = .user ∧ sys.scheduler.current = some 0 ∧
      sys.scheduler.stateOf 0 = .running ∧ sys.scheduler.stateOf 1 = .ready) &&
      (System.run false [.call .yield, .pick, .resume] (sys, trace)).toOption.any fun a ↦
        a.2 = trace ∧ a.1.control = .user ∧ a.1.scheduler.current = some 0 ∧
          a.1.scheduler.stateOf 1 = .ready) (by decide +kernel)
  obtain ⟨hbefore, hafter⟩ := Bool.and_eq_true_iff.mp hP
  obtain ⟨hcontrol, hcur, hrunning, hready⟩ := of_decide_eq_true hbefore
  cases hyield : System.run false [.call .yield, .pick, .resume] (sys, trace) with
  | error e =>
    rw [hyield] at hafter
    cases hafter
  | ok a =>
    rw [hyield] at hafter
    obtain ⟨htrace, hcontrol', hcur', hready'⟩ := of_decide_eq_true hafter
    exact ⟨sys, trace, a.1, hrun.run, hcontrol, hcur, hrunning, hready,
      by rw [hyield, ← htrace], hcontrol', hcur', hready'⟩

end TensorOS
