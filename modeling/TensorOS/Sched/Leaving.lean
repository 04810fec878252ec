import TensorOS.Sched.Fair

/-!
# Leaving the processor

A process that exits or blocks calls `process_yield`, which stops the system when it finds nothing
to run and nobody asleep. `process_exit` wakes a waiting parent without putting it on the queue. If
no other process was READY and none sleeps, `process_yield` does not see the parent and stops the
system (`LoneExit`); otherwise the parent gets on the queue at the next synchronisation.

In runs without such exits, and in which no caller is chosen again while it is READY, the system
does not stop while a process is READY, and control passes to a READY process.
-/

namespace TensorOS

open Scheduler

variable {s t s' : Scheduler} {singleForeground : Bool}

/-! ## Exits that leave only a waiting parent -/

/-- The call ends the process with the given pid when that makes it. -/
def Exits (pid : UInt32) : Label → Bool
  | .call (.exit _) => true
  | .call (.kill target _) => target = pid
  | _ => false

/-- The running process ends while no other one is READY and none sleeps, but one waits for it. -/
def LoneExit (sys : System) (l : Label) : Prop :=
  sys.control = .user ∧ ∃ i, sys.scheduler.currentProcess = some i ∧
    Exits (sys.scheduler.processes i).pid l = true ∧
    (∀ j, sys.scheduler.stateOf j ≠ .ready) ∧
    ProcessCore.countBlockedSleepers sys.scheduler.processes = 0 ∧
    ∃ j, ProcessCore.waitsForChild (sys.scheduler.processes i).pid (sys.scheduler.processes j)
      = true

instance (sys : System) (l : Label) : Decidable (LoneExit sys l) :=
  inferInstanceAs (Decidable (_ ∧ _))

/-- The steps after which the queue is in step with the process states whenever that matters. -/
def Leaves (sys : System) (l : Label) : Prop := ¬Repicks sys l ∧ ¬LoneExit sys l

instance (sys : System) (l : Label) : Decidable (Leaves sys l) :=
  inferInstanceAs (Decidable (_ ∧ _))

theorem leaves_timer (sys : System) : Leaves sys .timer := by
  refine ⟨not_repicks (by simp) (by simp) sys, ?_⟩
  rintro ⟨-, i, -, hexits, -⟩
  cases hexits

/-! ## What such runs keep -/

/-- After an exit there is something to choose or to wait for if a process is READY; a stop for
want of processes finds none READY; and a process that has ended is a zombie until it is collected.
-/
structure Safe (sys : System) (trace : List Event) : Prop where
  waits : sys.control = .yielding .exit → (∃ i, sys.scheduler.stateOf i = .ready) →
    sys.scheduler.queue.leftmost ≠ none ∨
      ProcessCore.countBlockedSleepers sys.scheduler.processes ≠ 0
  halted : sys.control = .halted .noRunnable → ∀ i, sys.scheduler.stateOf i ≠ .ready
  ended : ∀ i, sys.scheduler.stateOf i ≠ .unused → sys.scheduler.stateOf i ≠ .zombie →
    firstEnd trace (sys.scheduler.processes i).pid = none

/-- A sleeper is still asleep after the end of another process. -/
theorem endProcess_sleepers {index : Slot} (exitCode : Int32) (hindex : s.stateOf index ≠ .blocked)
    (h : ProcessCore.countBlockedSleepers (s.endProcess index exitCode).processes = 0) :
    ProcessCore.countBlockedSleepers s.processes = 0 := by
  simp only [ProcessCore.countBlockedSleepers, List.countP_eq_zero, List.mem_finRange, true_implies,
    decide_eq_true_eq, not_and] at h ⊢
  intro i hb hr
  have hne : i ≠ index := by
    rintro rfl
    exact hindex hb
  have hsame : (s.endProcess index exitCode).processes i = s.processes i := by
    rw [endProcess_processes, if_neg hne, if_neg]
    simp [ProcessCore.waitsForChild, hr]
  refine h i ?_ ?_
  · rw [hsame]
    exact hb
  · rw [hsame]
    exact hr

/-- A process that the end of another one made READY waited for that. -/
theorem endProcess_woken {index : Slot} {exitCode : Int32} {i : Slot}
    (h : (s.endProcess index exitCode).stateOf i = .ready) (hnot : s.stateOf i ≠ .ready) :
    ProcessCore.waitsForChild (s.processes index).pid (s.processes i) = true := by
  rw [stateOf, endProcess_processes] at h
  split at h
  · cases h
  · split at h
    · assumption
    · exact absurd h hnot

theorem QueueSound.leftmost_ne_none {i : Slot} (h : s.QueueSound) (hi : s.queue.onRq i = true) :
    s.queue.leftmost ≠ none := by
  intro hnone
  simp [h.leftmost_none hnone i] at hi

/-- After a choice a process goes on or is switched to. -/
theorem chosen_goes_on (s : Scheduler) (k : Continuation) (next : Slot) :
    (∀ k', (System.chosen s k next).control ≠ .yielding k') ∧
      ∀ reason, (System.chosen s k next).control ≠ .halted reason := by
  rw [System.chosen]
  split
  · constructor <;> simp
  · constructor <;> simp

theorem Safe.waits_move {sys sys' : System} {l : Label} {es trace : List Event}
    (hsound : SystemSound sys) (hfair : Fair sys) (h : Safe sys trace) (hok : ¬LoneExit sys l)
    (hmove : Move singleForeground sys l sys' es) (hcontrol : sys'.control = .yielding .exit)
    (hready : ∃ i, sys'.scheduler.stateOf i = .ready) :
    sys'.scheduler.queue.leftmost ≠ none ∨
      ProcessCore.countBlockedSleepers sys'.scheduler.processes ≠ 0 := by
  obtain ⟨i, hi⟩ := hready
  cases hmove with
  | quiet => exact h.waits hcontrol ⟨i, hi⟩
  | exitBoot hnone => exact Or.inl (QueueSound.leftmost_ne_none hsound.queue (hfair.ready id i hi))
  | @exits s c index exitCode e hproc he =>
    have hrun : s.stateOf index = .running :=
      hsound.placed.control _ (currentProcess_eq_some hproc).1
    by_contra hcontra
    rw [not_or, not_not, not_not] at hcontra
    obtain ⟨hleft, hsleep⟩ := hcontra
    have hnone : ∀ j, s.stateOf j ≠ .ready := fun j hj ↦
      QueueSound.leftmost_ne_none hsound.queue (hfair.ready id j hj) hleft
    refine hok ⟨rfl, index, hproc, ?_, hnone, endProcess_sleepers exitCode (by simp [hrun]) hsleep,
      i, endProcess_woken hi (hnone i)⟩
    rcases he with ⟨rfl, -⟩ | ⟨rfl, -⟩
    · rfl
    · exact decide_eq_true rfl
  | wakes hw hs hnot =>
    exact Or.inl (QueueSound.leftmost_ne_none hs.sound
      ((hs.onRq i).mpr ((hs.stateOf i).symm.trans hi)))
  | picksSelf hcur hleft => exact absurd hcontrol ((chosen_goes_on ..).1 _)
  | waitsSelf hs hcur hleft => exact absurd hcontrol ((chosen_goes_on ..).1 _)
  | _ => cases hcontrol

theorem Safe.halted_move {sys sys' : System} {l : Label} {es trace : List Event}
    (hsound : SystemSound sys)
    (hfair : Fair sys) (h : Safe sys trace) (hmove : Move singleForeground sys l sys' es)
    (hcontrol : sys'.control = .halted .noRunnable) (i : Slot) :
    sys'.scheduler.stateOf i ≠ .ready := by
  cases hmove with
  | quiet => exact h.halted hcontrol i
  | wakes hw hs hnot => exact absurd hcontrol (hnot _)
  | @picksHalt s k index hcur hleft hrun hsleep =>
    intro hready
    have hready : (System.countYield s index).stateOf i = .ready := hready
    rw [countYield_stateOf] at hready
    by_cases hk : k = .exit
    · subst hk
      rcases h.waits rfl ⟨i, hready⟩ with hne | hne
      · exact hne hleft
      · exact hne hsleep
    · exact QueueSound.leftmost_ne_none hsound.queue
        (hfair.ready (notAfterExit hk).1 i hready) hleft
  | picksSelf hcur hleft => exact absurd hcontrol ((chosen_goes_on ..).2 _)
  | waitsSelf hs hcur hleft => exact absurd hcontrol ((chosen_goes_on ..).2 _)
  | _ => cases hcontrol

theorem Control.over_iff {control : Control} :
    control.Over ↔ control = .resume .exit ∨ ∃ reason, control = .halted reason := by
  cases control with
  | resume k => cases k <;> simp [Control.Over]
  | _ => simp [Control.Over]

/-- A process that is neither a zombie nor collected has not ended. -/
theorem Safe.ended_move {sys sys' : System} {l : Label} {es trace : List Event}
    (h : Safe sys trace) (hfair' : Fair sys') (htold' : Told sys' (trace ++ es))
    (hmove : Move singleForeground sys l sys' es) (i : Slot)
    (hused : sys'.scheduler.stateOf i ≠ .unused) (hz : sys'.scheduler.stateOf i ≠ .zombie) :
    firstEnd (trace ++ es) (sys'.scheduler.processes i).pid = none := by
  by_cases hover : sys'.control.Over
  · obtain ⟨reason, hcontrol⟩ : ∃ reason, sys'.control = .halted reason := by
      rcases Control.over_iff.mp hover with hexit | hhalted
      · exact absurd hexit hfair'.returns.1
      · exact hhalted
    -- the steps that stop the system change no process
    cases hmove with
    | quiet =>
      rw [List.append_nil]
      exact h.ended i hused hz
    | picksNone hcur hleft =>
      rw [List.append_nil]
      exact h.ended i hused hz
    | @picksHalt s k index hcur hleft hrun hsleep =>
      have hk := kept_countYield s index i
      rw [List.append_nil, hk.pid]
      refine h.ended i (hk.used.mp hused) fun hz' ↦ hz ?_
      change (System.countYield s index).stateOf i = .zombie
      rwa [countYield_stateOf]
    | exitReturns =>
      rw [List.append_nil]
      exact h.ended i hused hz
    | wakes hw hs hnot => exact absurd hcontrol (hnot reason)
    | picksSelf hcur hleft => exact absurd hcontrol ((chosen_goes_on ..).2 _)
    | waitsSelf hs hcur hleft => exact absurd hcontrol ((chosen_goes_on ..).2 _)
    | _ => cases hcontrol
  · exact htold'.live hover i hused hz

theorem RunOf.safe {sys : System} {trace : List Event}
    (h : RunOf singleForeground Leaves sys trace) :
    Fair sys ∧ Safe sys trace := by
  refine h.invariant (P := fun sys trace ↦ Fair sys ∧ Safe sys trace) ?_ ?_
  · exact ⟨fair_boot, by simp [System.boot], by simp [System.boot], fun i hi ↦ absurd rfl hi⟩
  · rintro sys l sys' es trace hrun ⟨hfair, hsafe⟩ hok hmove
    have hsound := hrun.run.sound
    have hfair' := hfair.move hsound hok.1 hmove
    have htold' := hrun.run.told.move hsound hrun.run.pidsFresh hmove
    exact ⟨hfair', hsafe.waits_move hsound hfair hok.2 hmove, hsafe.halted_move hsound hfair hmove,
      hsafe.ended_move hfair' htold' hmove⟩

/-! ## From the choice to the process -/

/-- The next process has been chosen: it is another one, to be switched to, or the caller, which
goes on. -/
structure Chosen (sys : System) (next : Slot) : Prop where
  sound : SystemSound sys
  control : (∃ k caller, sys.control = .picked k next ∧ sys.scheduler.current = some caller) ∨
    ∃ k, sys.control = .resume k ∧ k ≠ .exit ∧ sys.scheduler.current = some next

theorem Chosen.not_halted {sys : System} {next : Slot} (h : Chosen sys next) (reason : Halt) :
    sys.control ≠ .halted reason := by
  rcases h.control with ⟨k, caller, hcontrol, -⟩ | ⟨k, hcontrol, -⟩ <;> simp [hcontrol]

theorem Chosen.ticks {control : Control} {next : Slot} (singleForeground : Bool)
    (h : Chosen ⟨s, control⟩ next) (n : ℕ) (trace : List Event) :
    ∃ s', System.run singleForeground (List.replicate n .timer) (⟨s, control⟩, trace)
      = .ok (⟨s', control⟩, trace) ∧ Chosen ⟨s', control⟩ next := by
  obtain ⟨s', hrun, hsound, hticked⟩ := h.sound.ticks singleForeground h.not_halted n trace
  refine ⟨s', hrun, hsound, ?_⟩
  rcases h.control with ⟨k, caller, hcontrol, hcur⟩ | ⟨k, hcontrol, hk, hcur⟩
  · exact Or.inl ⟨k, caller, hcontrol, hticked.current.trans hcur⟩
  · exact Or.inr ⟨k, hcontrol, hk, hticked.current.trans hcur⟩

theorem Chosen.arrives {sys : System} {next : Slot} (singleForeground : Bool) (h : Chosen sys next)
    (n : ℕ) (trace : List Event) :
    ∃ s' k, System.run singleForeground (List.replicate n .timer ++ [.switch]) (sys, trace)
        = .ok (⟨s', .resume k⟩, trace) ∧ k ≠ .exit ∧ s'.current = some next ∧
      s'.stateOf next = .running := by
  obtain ⟨s, control⟩ := sys
  rcases h.control with ⟨k, caller, rfl, hcur⟩ | ⟨k, rfl, hk, hcur⟩
  · obtain ⟨s', hrun, hcurrent, hrunning, hexit⟩ := h.sound.passes singleForeground hcur n trace
    exact ⟨s', _, hrun, hexit, hcurrent, hrunning⟩
  · obtain ⟨s', hrun, hsound, hticked⟩ := h.sound.ticks singleForeground (by simp) n trace
    have hcur' : s'.current = some next := hticked.current.trans hcur
    have hstep : System.step singleForeground ⟨s', .resume k⟩ .switch = .ok (⟨s', .resume k⟩, []) :=
      rfl
    refine ⟨s', k, ?_, hk, hcur', hsound.placed.current_running (Or.inr ⟨k, rfl⟩) hcur'⟩
    rw [System.run_append _ hrun, System.run_cons _ _ hstep, List.append_nil]
    rfl

theorem SystemSound.chosen_next {k : Continuation} {caller next : Slot}
    (h : SystemSound (System.chosen s k next))
    (hcur : s.current = some caller) (hk : Left s k caller) (hready : s.stateOf next = .ready) :
    Chosen (System.chosen s k next) next := by
  refine ⟨h, ?_⟩
  by_cases hself : s.current = some next
  · obtain rfl : caller = next := Option.some.inj (hcur.symm.trans hself)
    have hexit : k ≠ .exit := fun hexit ↦ by simp [hk.exit.mp hexit] at hready
    rw [System.chosen, if_pos hself, if_neg hk.used]
    exact Or.inr ⟨k, rfl, hexit, hself⟩
  · rw [chosen_other hself]
    exact Or.inl ⟨k, caller, rfl, hcur⟩

/-- A round of waiting that finds a READY process chooses one. -/
theorem SystemSound.wait_chooses {k : Continuation} (h : SystemSound ⟨s, .idle k⟩) {i : Slot}
    (hi : s.stateOf i = .ready) (singleForeground : Bool) :
    ∃ sys next, System.step singleForeground ⟨s, .idle k⟩ .wait = .ok (sys, []) ∧
      s.stateOf next = .ready ∧ Chosen sys next := by
  obtain ⟨t, hsync, hs⟩ := h.queue.sync
  obtain ⟨caller, hcur, hk, -⟩ := (h.placed.synced hs).control
  cases hleft : t.queue.leftmost with
  | none => exact absurd hleft (QueueSound.leftmost_ne_none hs.sound ((hs.onRq i).mpr hi))
  | some next =>
    have hready : s.stateOf next = .ready := (hs.onRq next).mp (hs.sound.leftmost_onRq hleft)
    have hstep : System.step singleForeground ⟨s, .idle k⟩ .wait
        = .ok (System.chosen t k next, []) := by
      simp [System.step, System.wait, hsync, pickNextReady, hleft]
    have hsound : SystemSound (System.chosen t k next) := h.move (h.step_move hstep)
    exact ⟨_, next, hstep, hready, hsound.chosen_next hcur hk ((hs.stateOf next).trans hready)⟩

/-- The choice when the caller has left and a process is READY: one is chosen, or there is somebody
to wait for. -/
theorem RunOf.pick_chooses {k : Continuation} {caller i : Slot} {trace : List Event}
    (h : RunOf singleForeground Leaves ⟨s, .yielding k⟩ trace) (hcur : s.current = some caller)
    (hleft : s.stateOf caller ≠ .running) (hi : s.stateOf i = .ready) :
    ∃ t control, System.step singleForeground ⟨s, .yielding k⟩ .pick = .ok (⟨t, control⟩, []) ∧
      ((∃ next, s.stateOf next = .ready ∧ Chosen ⟨t, control⟩ next) ∨
        control = .idle k ∧ SystemSound ⟨t, control⟩ ∧ t.stateOf i = .ready) := by
  obtain ⟨hfair, hsafe⟩ := h.safe
  have hsound := h.run.sound
  have hk : Left s k caller := hsound.placed.control caller hcur
  have hstep : System.step singleForeground ⟨s, .yielding k⟩ .pick = .ok (System.pick s k, []) :=
    rfl
  have hsound' : SystemSound (System.pick s k) := hsound.move (hsound.step_move hstep)
  refine ⟨(System.pick s k).scheduler, (System.pick s k).control, hstep, ?_⟩
  cases hqueue : s.queue.leftmost with
  | some next =>
    have hready : s.stateOf next = .ready := hfair.onRq next (hsound.queue.leftmost_onRq hqueue)
    refine Or.inl ⟨next, hready, ?_⟩
    rw [pick_some hcur hqueue] at hsound' ⊢
    exact hsound'.chosen_next ((countYield_current caller).trans hcur) (hk.countYield caller)
      ((countYield_stateOf caller next).trans hready)
  | none =>
    have hsleep : ProcessCore.countBlockedSleepers s.processes ≠ 0 := by
      by_cases hexit : k = .exit
      · subst hexit
        exact (hsafe.waits rfl ⟨i, hi⟩).resolve_left fun hne ↦ hne hqueue
      · exact absurd hqueue
          (QueueSound.leftmost_ne_none hsound.queue (hfair.ready (notAfterExit hexit).1 i hi))
    rw [pick_none hcur hqueue, if_neg hleft, if_pos hsleep] at hsound' ⊢
    exact Or.inr ⟨rfl, hsound', (countYield_stateOf caller i).trans hi⟩

/-- **Leaving the processor is safe**: in every run in which `process_yield` never chooses its own
caller while that is READY, and no process ends while another waits for it and none is READY or
asleep, the system never stops with a READY process or by returning to `process_exit`, a process
that has ended is a zombie until it is collected; and when the caller of `process_yield` has exited
or blocked and a process is READY, then whatever interrupts come in between, control passes to a
process that is READY when it is chosen. -/
theorem leaving_safe {sys : System} {trace : List Event}
    (h : RunOf singleForeground Leaves sys trace) :
    (sys.control ≠ .resume .exit ∧ sys.control ≠ .halted .exitReturned) ∧
    (sys.control = .halted .noRunnable → ∀ i, sys.scheduler.stateOf i ≠ .ready) ∧
    (∀ i, firstEnd trace (sys.scheduler.processes i).pid ≠ none →
      sys.scheduler.stateOf i ≠ .unused → sys.scheduler.stateOf i = .zombie) ∧
    ∀ k caller, sys.control = .yielding k → sys.scheduler.current = some caller →
      sys.scheduler.stateOf caller ≠ .running → (∃ i, sys.scheduler.stateOf i = .ready) →
      ∀ a b c, ∃ sys₁ sys₂ s' next k',
        System.run singleForeground (List.replicate a .timer) (sys, trace) = .ok (sys₁, trace) ∧
        System.run singleForeground (.pick :: List.replicate b .timer) (sys₁, trace)
          = .ok (sys₂, trace) ∧
        System.run singleForeground (.wait :: (List.replicate c .timer ++ [.switch])) (sys₂, trace)
          = .ok (⟨s', .resume k'⟩, trace) ∧
        (sys₁.scheduler.stateOf next = .ready ∨ sys₂.scheduler.stateOf next = .ready) ∧
        s'.current = some next ∧ s'.stateOf next = .running ∧ k' ≠ .exit := by
  obtain ⟨hfair, hsafe⟩ := h.safe
  refine ⟨hfair.returns, hsafe.halted, fun i hend hused ↦ ?_,
    fun k caller hcontrol hcur hleft hi a b c ↦ ?_⟩
  · by_contra hz
    exact hend (hsafe.ended i hused hz)
  obtain ⟨s, control⟩ := sys
  obtain rfl : control = .yielding k := hcontrol
  obtain ⟨i, hi⟩ := hi
  obtain ⟨s₁, hticks, -, hticked⟩ := h.run.sound.ticks singleForeground (by simp) a trace
  have hrun₁ : RunOf singleForeground Leaves ⟨s₁, .yielding k⟩ trace :=
    RunOf.extend (fun l hl sys ↦ List.eq_of_mem_replicate hl ▸ leaves_timer sys) h hticks
  have hcur₁ : s₁.current = some caller := hticked.current.trans hcur
  have hleft₁ : s₁.stateOf caller ≠ .running := by
    rcases hticked.stateOf caller with heq | ⟨-, hr⟩
    · rw [heq]
      exact hleft
    · simp [hr]
  have hi₁ : s₁.stateOf i = .ready := (hticked.stateOf_eq (by simp [hi])).trans hi
  obtain ⟨t, control, hpick, ⟨next, hready, hchosen⟩ | ⟨rfl, hsound, hready⟩⟩ :=
    hrun₁.pick_chooses hcur₁ hleft₁ hi₁
  · -- the process is chosen at once, and there is nothing to wait for
    obtain ⟨s₂, hticks₂, hchosen₂⟩ := hchosen.ticks singleForeground b trace
    obtain ⟨s', k', harrives, hk', hcurrent, hrunning⟩ := hchosen₂.arrives singleForeground c trace
    have hwait : System.step singleForeground ⟨s₂, control⟩ .wait = .ok (⟨s₂, control⟩, []) := by
      rcases hchosen₂.control with ⟨k, caller, rfl, -⟩ | ⟨k, rfl, -⟩ <;> rfl
    refine ⟨_, ⟨s₂, control⟩, s', next, k', hticks, ?_, ?_, Or.inl hready, hcurrent, hrunning, hk'⟩
    · rw [System.run_cons _ _ hpick, List.append_nil]
      exact hticks₂
    · rw [System.run_cons _ _ hwait, List.append_nil]
      exact harrives
  · -- the next round of waiting finds the READY process
    obtain ⟨s₂, hticks₂, hsound₂, hticked₂⟩ := hsound.ticks singleForeground (by simp) b trace
    have hi₂ : s₂.stateOf i = .ready := (hticked₂.stateOf_eq (by simp [hready])).trans hready
    obtain ⟨sys, next, hwait, hready₂, hchosen⟩ := hsound₂.wait_chooses hi₂ singleForeground
    obtain ⟨s', k', harrives, hk', hcurrent, hrunning⟩ := hchosen.arrives singleForeground c trace
    refine ⟨_, ⟨s₂, .idle k⟩, s', next, k', hticks, ?_, ?_, Or.inr hready₂, hcurrent, hrunning, hk'⟩
    · rw [System.run_cons _ _ hpick, List.append_nil]
      exact hticks₂
    · rw [System.run_cons _ _ hwait, List.append_nil]
      exact harrives

/-- The first of two processes goes to sleep. -/
theorem leaving_safe_sleep : ∃ sys trace sys₁ sys₂ s' next k', RunOf false Leaves sys trace ∧
    (sys.control = .yielding .returns ∧ sys.scheduler.current = some 0 ∧
      sys.scheduler.stateOf 0 = .blocked ∧ sys.scheduler.stateOf 1 = .ready) ∧
    System.run false (List.replicate 0 .timer) (sys, trace) = .ok (sys₁, trace) ∧
    System.run false (.pick :: List.replicate 1 .timer) (sys₁, trace) = .ok (sys₂, trace) ∧
    System.run false (.wait :: (List.replicate 2 .timer ++ [.switch])) (sys₂, trace)
      = .ok (⟨s', .resume k'⟩, trace) ∧
    s'.current = some next ∧ s'.stateOf next = .running ∧ k' ≠ .exit := by
  obtain ⟨sys, trace, hrun, hP⟩ := RunOf.exists_of_labels false Leaves
    (twoProcesses ++ [.call (.sleep 1)])
    (fun sys _ ↦ sys.control = .yielding .returns ∧ sys.scheduler.current = some 0 ∧
      sys.scheduler.stateOf 0 = .blocked ∧ sys.scheduler.stateOf 1 = .ready) (by decide +kernel)
  have hP := of_decide_eq_true hP
  obtain ⟨-, -, -, hpasses⟩ := leaving_safe hrun
  obtain ⟨sys₁, sys₂, s', next, k', hticks, hpick, hwait, -, hcurrent, hrunning, hk'⟩ :=
    hpasses .returns 0 hP.1 hP.2.1 (by simp [hP.2.2.1]) ⟨1, hP.2.2.2⟩ 0 1 2
  exact ⟨sys, trace, sys₁, sys₂, s', next, k', hrun, hP, hticks, hpick, hwait, hcurrent, hrunning,
    hk'⟩

/-- A process waits for its only child, nothing else is there to run, and the child exits: the
parent is READY, but `process_yield` finds nothing to run and stops the system. -/
theorem lone_exit_halts : ∃ sys trace sys', Run false sys trace ∧ sys.control = .yielding .exit ∧
    sys.scheduler.current = some 1 ∧ sys.scheduler.stateOf 1 = .zombie ∧
    sys.scheduler.stateOf 0 = .ready ∧
    System.run false [.pick] (sys, trace) = .ok (sys', trace) ∧
    sys'.control = .halted .noRunnable := by
  obtain ⟨sys, trace, hrun, hP⟩ := RunOf.exists_of_labels false (fun _ _ ↦ True)
    [.call (.spawn none true 1), .call .yield, .pick, .switch, .resume,
      .call (.spawn none true 1), .call (.waitpid 0 true), .pick, .switch, .resume, .call (.exit 7)]
    (fun sys _ ↦ sys.control = .yielding .exit ∧ sys.scheduler.current = some 1 ∧
      sys.scheduler.stateOf 1 = .zombie ∧ sys.scheduler.stateOf 0 = .ready ∧
      (System.pick sys.scheduler .exit).control = .halted .noRunnable) (by decide +kernel)
  obtain ⟨hcontrol, hcur, hz, hready, hhalted⟩ := of_decide_eq_true hP
  refine ⟨sys, trace, System.pick sys.scheduler .exit, hrun.run, hcontrol, hcur, hz, hready, ?_,
    hhalted⟩
  have hstep : System.step false sys .pick = .ok (System.pick sys.scheduler .exit, []) := by
    simp only [System.step, hcontrol]
  rw [System.run_cons _ _ hstep, List.append_nil]
  rfl

end TensorOS
