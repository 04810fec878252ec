import TensorOS.Sched.Fair

/-!
# What a process is charged for

The queue is ordered by `vruntime`, and `scheduler_account_runtime` is what makes it grow: a
process that gives the processor to another one is to be charged for the ticks since it was given
the processor, and for one tick at least.

The helper charges a process that is RUNNING, by the difference between the tick counter and the
tick it noted at the last switch. A process that has blocked itself on the way to `process_yield`
is not RUNNING any more, so it is not charged at all. And a process that `process_yield` chooses
again, after it has slept, is given the processor without a switch, so that the tick noted is too
early.

## Time

`TimedRun` is a run with a clock for each process, which is set back when the process is given the
processor and counts the ticks from there on. The clock belongs to the statement and not to the
source. In a run that chooses no process again the clock and the tick noted agree (`Metered`), and
then a switch charges rightly exactly if the process is RUNNING and the sums fit their words.
-/

namespace TensorOS

open Scheduler

variable {s t s' : Scheduler} {singleForeground : Bool} {ok : System → Label → Prop}

/-! ## The tick counter -/

/-- What the computation returns has the tick counter of `s`. -/
def KeepsTicks {α : Type} (s : Scheduler) (view : α → Scheduler) (result : Except Fault α) : Prop :=
  ∀ a, result = .ok a → (view a).ticks = s.ticks

namespace KeepsTicks

variable {α β : Type} {view : α → Scheduler} {view' : β → Scheduler}

theorem pure {a : α} (h : (view a).ticks = s.ticks) : KeepsTicks s view (.ok a) := by
  intro b hb
  rw [← Except.ok.inj hb, h]

theorem bind {x : Except Fault α} {f : α → Except Fault β} (h : KeepsTicks s view x)
    (hf : ∀ a, (view a).ticks = s.ticks → KeepsTicks s view' (f a)) :
    KeepsTicks s view' (x >>= f) := by
  intro b hb
  obtain ⟨a, ha, hfa⟩ := bind_eq_ok.mp hb
  exact hf a (h a ha) b hfa

theorem sync (h : t.ticks = s.ticks) : KeepsTicks s id t.syncReadyQueue := by
  intro s' hs'
  obtain ⟨queue, -, hqueue⟩ := bind_eq_ok.mp hs'
  rw [← Except.ok.inj hqueue]
  exact h

theorem reset (index : Slot) : KeepsTicks s id (s.resetProcessSlot index) := by
  intro s' hs'
  obtain ⟨queue, -, hqueue⟩ := bind_eq_ok.mp hs'
  rw [← Except.ok.inj hqueue]
  rfl

theorem spawn (name : Option String) (hasEntry : Bool) (role : UInt32) :
    KeepsTicks s Prod.fst (s.processSpawnWithRole singleForeground name hasEntry role) := by
  unfold processSpawnWithRole
  split
  · exact .pure rfl
  split
  · exact .pure rfl
  split
  · exact .pure rfl
  · exact .bind (.sync rfl) fun s' hs' ↦ .pure hs'

theorem exit (exitCode : Int32) : (s.processExit exitCode).ticks = s.ticks := by
  unfold processExit
  split
  · rfl
  · rfl

theorem kill (pid : UInt32) (exitCode : Int32) :
    KeepsTicks s Prod.fst (s.processKill pid exitCode) := by
  unfold processKill
  split
  · exact .pure rfl
  split
  · exact .pure (exit exitCode)
  dsimp only
  split
  · exact .bind (.sync rfl) fun s' hs' ↦ .pure hs'
  · exact .pure rfl

theorem reap (pid : UInt32) : KeepsTicks s Prod.fst (s.processReap pid) := by
  unfold processReap
  split
  · exact .pure rfl
  split
  · exact .pure rfl
  · exact .bind (.reset _) fun s' hs' ↦ .pure hs'

theorem waitpidRound (pid callerPid : UInt32) :
    KeepsTicks s Prod.fst (s.processWaitpidRound pid callerPid) := by
  unfold processWaitpidRound
  split
  · exact .bind (.reset _) fun s' hs' ↦ .pure hs'
  split
  · exact .pure rfl
  split
  · exact .bind (.sync rfl) fun s' hs' ↦ .pure hs'
  · exact .pure rfl

theorem sleep (ticks : UInt32) : KeepsTicks s Prod.fst (s.processSleep ticks) := by
  unfold processSleep
  split
  · exact .pure rfl
  split
  · exact .pure rfl
  · exact .bind (.sync rfl) fun s' hs' ↦ .pure hs'

theorem block (pid : UInt32) : KeepsTicks s Prod.fst (s.processBlock pid) := by
  unfold processBlock
  split
  · exact .pure rfl
  split
  · exact .pure rfl
  · exact .bind (.sync rfl) fun s' hs' ↦ .pure hs'

theorem wake (pid : UInt32) : KeepsTicks s Prod.fst (s.processWake pid) := by
  unfold processWake
  split
  · exact .pure rfl
  · exact .bind (.sync rfl) fun s' hs' ↦ .pure hs'

theorem waitChannel (channel : UInt32) : KeepsTicks s Prod.fst (s.processWaitChannel channel) := by
  unfold processWaitChannel
  split
  · exact .pure rfl
  · exact .bind (.sync rfl) fun s' hs' ↦ .pure hs'

theorem wakeAndSync (woken : ProcessTable 10 × ℕ) : KeepsTicks s Prod.fst (s.wakeAndSync woken) :=
  .bind (.sync rfl) fun _ hs' ↦ .pure hs'

theorem finish {x : Except Fault (Scheduler × Scheduler.Outcome)} (h : KeepsTicks s Prod.fst x)
    {es : Scheduler × Scheduler.Outcome → List Event} :
    KeepsTicks s (fun a ↦ a.1.scheduler) (do
      let a ← x
      (.ok (System.finish a, es a) : Except Fault (System × List Event))) := by
  refine .bind h fun a ha ↦ .pure ?_
  obtain ⟨s', outcome⟩ := a
  cases outcome with
  | returned value => exact ha
  | yields k => exact ha

theorem systemWaitpidRound (pid callerPid : UInt32) (wantsCode : Bool) :
    KeepsTicks s (fun a ↦ a.1.scheduler) (System.waitpidRound s pid callerPid wantsCode) := by
  refine .bind (.waitpidRound pid callerPid) fun a ha ↦ ?_
  obtain ⟨s', round⟩ := a
  cases round with
  | child child exitCode => exact .pure ha
  | failed => exact .pure ha
  | yields => exact .pure ha

theorem call (c : Call) :
    KeepsTicks s (fun a ↦ a.1.scheduler) (System.call singleForeground s c) := by
  cases c with
  | spawn name hasEntry role => exact .bind (.spawn name hasEntry role) fun a ha ↦ .pure ha
  | yield => exact .pure rfl
  | exit exitCode => exact .pure (exit exitCode)
  | kill pid exitCode => exact .finish (.kill pid exitCode)
  | reap pid => exact .bind (.reap pid) fun a ha ↦ .pure ha
  | waitpid pid wantsCode =>
    rw [System.call]
    split
    · exact .pure rfl
    · exact .systemWaitpidRound _ _ _
  | sleep ticks => exact .finish (.sleep ticks)
  | block pid => exact .finish (.block pid)
  | wake pid => exact .finish (.wake pid)
  | waitChannel channel => exact .finish (.waitChannel channel)
  | wakeChannel channel => exact .finish (.wakeAndSync _)
  | wakeFirstChannel channel => exact .finish (.wakeAndSync _)
  | tick tickCount => exact .bind (.sync rfl) fun s' hs' ↦ .pure hs'

theorem goOn (k : Continuation) : KeepsTicks s (fun a ↦ a.1.scheduler) (System.goOn s k) := by
  cases k with
  | fresh => exact .pure rfl
  | returns => exact .pure rfl
  | waitpid pid callerPid wantsCode => exact .systemWaitpidRound _ _ _
  | exit => exact .pure rfl

theorem chosen (k : Continuation) (next : Slot) :
    (System.chosen s k next).scheduler.ticks = s.ticks := by
  unfold System.chosen
  split
  · split
    · rfl
    · rfl
  · rfl

theorem countYield (index : Slot) : (System.countYield s index).ticks = s.ticks := by
  obtain ⟨processes, heq, -⟩ := countYield_spec s index
  rw [heq]

theorem pick (k : Continuation) : (System.pick s k).scheduler.ticks = s.ticks := by
  unfold System.pick
  split
  · split
    · rfl
    · rfl
  dsimp only
  split
  · rw [chosen, countYield]
  split
  · exact countYield _
  split
  · exact countYield _
  · exact countYield _

theorem wait (k : Continuation) : KeepsTicks s System.scheduler (System.wait s k) := by
  refine .bind (.sync rfl) fun s' hs' ↦ ?_
  split
  · exact .pure hs'
  · exact .pure ((chosen k _).trans hs')

theorem switch (k : Continuation) (next : Slot) :
    KeepsTicks s System.scheduler (System.switch s k next) := by
  unfold System.switch
  split
  · exact .bind (.sync rfl) fun s' hs' ↦ .pure hs'
  · next index _ =>
    dsimp only
    rw [switchProcess_eq]
    exact .bind (.sync rfl) fun s' hs' ↦ .pure hs'

end KeepsTicks

/-- **The tick counter** goes on with the timer and stands still otherwise. -/
theorem step_ticks {sys sys' : System} {l : Label} {es : List Event}
    (h : sys.step singleForeground l = .ok (sys', es)) :
    sys'.scheduler.ticks = sys.scheduler.ticks ∨
      l = .timer ∧ sys'.scheduler.ticks = sys.scheduler.ticks + 1 := by
  obtain ⟨s, control⟩ := sys
  unfold System.step at h
  dsimp only at h
  split at h
  · exact Or.inl (KeepsTicks.call _ _ h)
  · obtain ⟨rfl, -⟩ := Prod.mk.inj (Except.ok.inj h)
    exact Or.inl (KeepsTicks.pick _)
  · obtain ⟨a, hwait, ha⟩ := bind_eq_ok.mp h
    obtain ⟨rfl, -⟩ := Prod.mk.inj (Except.ok.inj ha)
    exact Or.inl (KeepsTicks.wait _ _ hwait)
  · obtain ⟨a, hswitch, ha⟩ := bind_eq_ok.mp h
    obtain ⟨rfl, -⟩ := Prod.mk.inj (Except.ok.inj ha)
    exact Or.inl (KeepsTicks.switch _ _ _ hswitch)
  · exact Or.inl (KeepsTicks.goOn _ _ h)
  · obtain ⟨rfl, -⟩ := Prod.mk.inj (Except.ok.inj h)
    exact Or.inl rfl
  · obtain ⟨s', hsync, ha⟩ := bind_eq_ok.mp h
    obtain ⟨rfl, -⟩ := Prod.mk.inj (Except.ok.inj ha)
    have hticks : KeepsTicks { s with ticks := s.ticks + 1 } id s.systimerTickIsr := .sync rfl
    exact Or.inr ⟨rfl, hticks s' hsync⟩
  · obtain ⟨rfl, -⟩ := Prod.mk.inj (Except.ok.inj h)
    exact Or.inl rfl

/-! ## Runs with a clock -/

/-- The process has the processor. -/
def System.OnCpu (sys : System) (i : Slot) : Prop :=
  sys.scheduler.current = some i ∧ sys.scheduler.stateOf i = .running

instance decidableOnCpu (sys : System) (i : Slot) : Decidable (sys.OnCpu i) :=
  inferInstanceAs (Decidable (_ ∧ _))

/-- The clocks after a step: that of a process which is given the processor is set back, and each
tick counts. -/
def clockAfter (sys sys' : System) (clock : Slot → ℕ) (i : Slot) : ℕ :=
  if sys'.OnCpu i ∧ ¬sys.OnCpu i then 0
  else if sys'.scheduler.ticks = sys.scheduler.ticks then clock i
  else clock i + 1

/-- A run whose steps all meet a condition, with the ticks since each process was last given the
processor. -/
def TimedRun (singleForeground : Bool) (ok : System → Label → Prop) (sys : System)
    (clock : Slot → ℕ) : Prop :=
  Reachable (· = (System.boot, fun _ ↦ 0))
    (fun a b ↦ ∃ l es, ok a.1 l ∧ a.1.step singleForeground l = .ok (b.1, es) ∧
      b.2 = clockAfter a.1 b.1 a.2) (sys, clock)

theorem TimedRun.runOf {sys : System} {clock : Slot → ℕ}
    (h : TimedRun singleForeground ok sys clock) :
    ∃ trace, RunOf singleForeground ok sys trace := by
  refine h.invariant (P := fun a ↦ ∃ trace, RunOf singleForeground ok a.1 trace) ?_ ?_
  · rintro a rfl
    exact ⟨[], .start rfl⟩
  · rintro a b ⟨trace, hrun⟩ ⟨l, es, hl, hstep, -⟩
    exact ⟨trace ++ es, .step hrun ⟨l, es, hl, hstep, rfl⟩⟩

/-! ## The clock and the tick noted -/

/-- A process that has the processor after the step had it before, and the tick noted for it is the
same. -/
def Continues (sys sys' : System) : Prop :=
  ∀ i, sys'.OnCpu i → sys.OnCpu i ∧
    sys'.scheduler.execStartTick i = sys.scheduler.execStartTick i

/-- The processor is given to a process, and the tick is noted. -/
def HandsOver (sys sys' : System) : Prop :=
  ∃ next, sys'.scheduler.current = some next ∧ ¬sys.OnCpu next ∧
    sys'.scheduler.execStartTick next = sys'.scheduler.ticks

/-- A step that stops some processes from running and leaves the ticks noted alone. -/
theorem Continues.of_states {control control' : Control}
    (hcurrent : s'.current = s.current) (hnoted : s'.execStartTick = s.execStartTick)
    (hstates : ∀ i, s'.stateOf i = .running → s.stateOf i = .running) :
    Continues ⟨s, control⟩ ⟨s', control'⟩ := by
  rintro i ⟨hcur, hrun⟩
  exact ⟨⟨hcurrent ▸ hcur, hstates i hrun⟩, congrFun hnoted i⟩

theorem Continues.of_synced {control control' : Control} (hs : Synced t s')
    (h : Continues ⟨s, control⟩ ⟨t, control'⟩) : Continues ⟨s, control⟩ ⟨s', control'⟩ := by
  rintro i ⟨hcur, hrun⟩
  have hcur : s'.current = some i := hcur
  have hrun : s'.stateOf i = .running := hrun
  rw [hs.eq] at hcur
  rw [hs.stateOf] at hrun
  obtain ⟨hon, hnoted⟩ := h i ⟨hcur, hrun⟩
  refine ⟨hon, ?_⟩
  change s'.execStartTick i = s.execStartTick i
  rw [hs.eq]
  exact hnoted

theorem continues_endProcess {control control' : Control} {index : Slot} {exitCode : Int32} :
    Continues ⟨s, control⟩ ⟨s.endProcess index exitCode, control'⟩ := by
  refine .of_states rfl rfl fun i hrun ↦ ?_
  rcases endProcess_stateOf s index exitCode i with ⟨hz, -⟩ | ⟨-, heq | ⟨-, hr⟩⟩
  · rw [hz] at hrun
    cases hrun
  · exact heq ▸ hrun
  · rw [hr] at hrun
    cases hrun

theorem continues_setBlocked {control control' : Control} {index : Slot} {waitReason : WaitReason}
    {waitChannel : UInt32} {wakeTick : UInt64} {waitTargetPid : UInt32} :
    Continues ⟨s, control⟩
      ⟨s.setBlocked index waitReason waitChannel wakeTick waitTargetPid, control'⟩ := by
  refine .of_states rfl rfl fun i hrun ↦ ?_
  rw [setBlocked_stateOf] at hrun
  split at hrun
  · cases hrun
  · exact hrun

theorem continues_resets {control control' : Control} {index : Slot} (hr : Resets s index s') :
    Continues ⟨s, control⟩ ⟨s', control'⟩ := by
  rintro i ⟨hcur, hrun⟩
  have hcur : s'.current = some i := hcur
  have hrun : s'.stateOf i = .running := hrun
  rw [hr.stateOf] at hrun
  split at hrun
  · cases hrun
  · next hne =>
    rw [hr.eq] at hcur
    refine ⟨⟨hcur, hrun⟩, ?_⟩
    change s'.execStartTick i = s.execStartTick i
    rw [hr.eq]
    exact Function.update_of_ne hne ..

theorem continues_countYield {control control' : Control} {index : Slot} :
    Continues ⟨s, control⟩ ⟨System.countYield s index, control'⟩ := by
  obtain ⟨processes, heq, -⟩ := countYield_spec s index
  refine .of_states (by rw [heq]) (by rw [heq]) fun i hrun ↦ ?_
  rwa [countYield_stateOf] at hrun

/-- **One step** leaves the processor where it is, gives it away with the tick noted, or chooses the
caller again. -/
theorem Move.continues_or_handsOver {sys sys' : System} {l : Label} {es : List Event}
    (hsound : SystemSound sys) (hfair : Fair sys) (hok : ¬Repicks sys l)
    (hmove : Move singleForeground sys l sys' es) : Continues sys sys' ∨ HandsOver sys sys' := by
  have same : ∀ {s : Scheduler} {control control' : Control},
      Continues ⟨s, control⟩ ⟨s, control'⟩ := fun i hon ↦ ⟨hon, rfl⟩
  cases hmove with
  | quiet => exact Or.inl same
  | yields => exact Or.inl same
  | exitBoot _ => exact Or.inl same
  | @spawns s t s' c index hspawn hs =>
    refine Or.inl (.of_synced hs ?_)
    obtain ⟨process, vruntime, rfl, -, -, hready, -⟩ := hspawn.eq
    rintro i ⟨hcur, hrun⟩
    have hne : i ≠ index := by
      rintro rfl
      simp [stateOf, hready] at hrun
    refine ⟨⟨hcur, ?_⟩, Function.update_of_ne hne ..⟩
    simpa [stateOf, Function.update_of_ne hne] using hrun
  | exits _ _ => exact Or.inl continues_endProcess
  | kills _ _ _ hs => exact Or.inl (.of_synced hs continues_endProcess)
  | killsZombie _ _ => exact Or.inl same
  | reaps _ hr => exact Or.inl (continues_resets hr)
  | collects _ _ _ hr => exact Or.inl (continues_resets hr)
  | waitFails _ => exact Or.inl same
  | waitBlocks _ _ _ hs => exact Or.inl (.of_synced hs continues_setBlocked)
  | waitYields _ _ => exact Or.inl same
  | blocks _ _ hs => exact Or.inl (.of_synced hs continues_setBlocked)
  | blocksOther _ _ hs => exact Or.inl (.of_synced hs continues_setBlocked)
  | wakes hw hs _ =>
    refine Or.inl (.of_synced hs (.of_states (by rw [hw.eq]) (by rw [hw.eq]) fun i hrun ↦ ?_))
    rcases hw.stateOf i with heq | ⟨-, hr⟩
    · exact heq ▸ hrun
    · rw [hr] at hrun
      cases hrun
  | picksNone _ _ => exact Or.inl same
  | picksFirst _ _ => exact Or.inl same
  | picksBack _ _ _ => exact Or.inl continues_countYield
  | picksSelf hcur hleft => exact absurd (hfair.repicks_of_pick hsound hcur hleft) hok
  | picksOther _ _ _ => exact Or.inl continues_countYield
  | picksIdle _ _ _ _ => exact Or.inl continues_countYield
  | picksHalt _ _ _ _ => exact Or.inl continues_countYield
  | waitsOn hs _ => exact Or.inl (.of_synced hs same)
  | waitsSelf hs hcur hleft => exact absurd (hfair.repicks_of_wait hs hcur hleft) hok
  | waitsOther hs _ _ => exact Or.inl (.of_synced hs same)
  | @starts s s' k next hcur hs =>
    refine Or.inr ⟨next, ?_, fun hon ↦ ?_, ?_⟩
    · rw [hs.eq]
      rfl
    · exact absurd (hcur.symm.trans hon.1) (by simp)
    · rw [hs.eq]
      exact Function.update_self ..
  | @switches s s' k index next hcur hs =>
    have hne : index ≠ next := (hsound.placed.control.2 index hcur).1
    refine Or.inr ⟨next, ?_, fun hon ↦ ?_, ?_⟩
    · rw [hs.eq]
      rfl
    · exact hne (Option.some.inj (hcur.symm.trans hon.1))
    · rw [hs.eq]
      exact Function.update_self ..
  | goesOn _ => exact Or.inl same
  | exitReturns => exact Or.inl same

/-- The tick noted for the process that has the processor is as far back as its clock says. -/
def Metered (sys : System) (clock : Slot → ℕ) : Prop :=
  ∀ i, sys.OnCpu i → (sys.scheduler.execStartTick i).toNat + clock i = sys.scheduler.ticks.toNat

/-- The step chooses no caller again, and the tick counter does not start over. -/
def Timely (sys : System) (l : Label) : Prop :=
  ¬Repicks sys l ∧ (l = .timer → sys.scheduler.ticks.toNat + 1 < 2 ^ 64)

instance decidableTimely (sys : System) (l : Label) : Decidable (Timely sys l) :=
  inferInstanceAs (Decidable (_ ∧ _))

theorem Metered.step {sys sys' : System} {l : Label} {es : List Event} {clock : Slot → ℕ}
    (hsound : SystemSound sys) (hfair : Fair sys) (hok : Timely sys l)
    (hstep : sys.step singleForeground l = .ok (sys', es)) (h : Metered sys clock) :
    Metered sys' (clockAfter sys sys' clock) := by
  intro i hon
  rcases (hsound.step_move hstep).continues_or_handsOver hsound hfair hok.1 with
    hcontinues | ⟨next, hcurrent, hoff, hnoted⟩
  · obtain ⟨hbefore, hnoted⟩ := hcontinues i hon
    have hold := h i hbefore
    rw [clockAfter, if_neg fun hgiven ↦ hgiven.2 hbefore, hnoted]
    rcases step_ticks hstep with hticks | ⟨rfl, hticks⟩
    · rw [if_pos hticks, hticks]
      exact hold
    · have hlt := hok.2 rfl
      have hnat : sys'.scheduler.ticks.toNat = sys.scheduler.ticks.toNat + 1 := by
        rw [hticks, UInt64.toNat_add]
        exact Nat.mod_eq_of_lt hlt
      have hne : sys'.scheduler.ticks ≠ sys.scheduler.ticks := by
        intro heq
        rw [heq] at hnat
        omega
      rw [if_neg hne, hnat]
      omega
  · obtain rfl : i = next := Option.some.inj (hon.1.symm.trans hcurrent)
    rw [clockAfter, if_pos ⟨hon, hoff⟩, hnoted]
    rfl

/-- **The clocks** agree with the ticks noted in every run without a second choice. -/
theorem TimedRun.metered {sys : System} {clock : Slot → ℕ}
    (h : TimedRun singleForeground Timely sys clock) : Metered sys clock := by
  refine (h.invariant (P := fun a ↦ (∃ trace, RunOf singleForeground Timely a.1 trace) ∧
    Metered a.1 a.2) ?_ ?_).2
  · rintro a rfl
    refine ⟨⟨[], .start rfl⟩, fun i hon ↦ ?_⟩
    cases hon.1
  · rintro ⟨sys, clock⟩ ⟨sys', clock'⟩ ⟨⟨trace, hrun⟩, hmetered⟩ ⟨l, es, hl, hstep, hclock⟩
    obtain rfl : clock' = clockAfter sys sys' clock := hclock
    refine ⟨⟨trace ++ es, .step hrun ⟨l, es, hl, hstep, rfl⟩⟩, ?_⟩
    have hfair := hrun.fair fun _ _ hok ↦ hok.1
    exact hmetered.step hrun.run.sound hfair hl hstep

/-! ## The charge -/

theorem switch_vruntime {sys sys' : System} {k : Continuation} {next index : Slot}
    {es : List Event} (hcontrol : sys.control = .picked k next)
    (hcurrent : sys.scheduler.current = some index)
    (hstep : sys.step singleForeground .switch = .ok (sys', es)) :
    sys'.scheduler.vruntime = (sys.scheduler.suspended index k).vruntime := by
  obtain ⟨s, control⟩ := sys
  obtain rfl : control = .picked k next := hcontrol
  obtain ⟨a, hswitch, ha⟩ := bind_eq_ok.mp hstep
  obtain ⟨rfl, -⟩ := Prod.mk.inj (Except.ok.inj ha)
  unfold System.switch at hswitch
  split at hswitch
  · next hnone => exact absurd (hnone.symm.trans hcurrent) (by simp)
  · next index' hsome =>
    obtain rfl : index' = index := Option.some.inj (hsome.symm.trans hcurrent)
    dsimp only at hswitch
    rw [switchProcess_eq] at hswitch
    obtain ⟨s', hsync, hs'⟩ := bind_eq_ok.mp hswitch
    obtain ⟨queue, -, hqueue⟩ := bind_eq_ok.mp hsync
    rw [← Except.ok.inj hs', ← Except.ok.inj hqueue]
    rfl

theorem toNat_charge (s : Scheduler) (index : Slot) :
    (s.charge index).toNat = max 1 (s.ticks.toNat - (s.execStartTick index).toNat) := by
  unfold charge
  split
  · next hgt =>
    rw [gt_iff_lt, UInt64.lt_iff_toNat_lt] at hgt
    rw [UInt64.toNat_sub_of_le _ _ (UInt64.le_iff_toNat_le.mpr hgt.le)]
    omega
  · next hle =>
    rw [gt_iff_lt, UInt64.lt_iff_toNat_lt] at hle
    have hone : (1 : UInt64).toNat = 1 := rfl
    omega

/-- The process is charged for the ticks, for one at least, and nobody else is charged. -/
structure Charges (s s' : Scheduler) (index : Slot) (ticks : ℕ) : Prop where
  self : (s'.vruntime index).toNat = (s.vruntime index).toNat + max 1 ticks
  others : ∀ i, i ≠ index → s'.vruntime i = s.vruntime i

/-- **A switch charges** the process that gives up the processor for the ticks since it was given
it exactly if the process is still RUNNING and the sum fits its word, in every run that chooses no
caller again. -/
theorem switch_charges_iff {sys sys' : System} {clock : Slot → ℕ}
    (hrun : TimedRun singleForeground Timely sys clock) {k : Continuation} {next index : Slot}
    {es : List Event} (hcontrol : sys.control = .picked k next)
    (hcurrent : sys.scheduler.current = some index)
    (hstep : sys.step singleForeground .switch = .ok (sys', es)) :
    Charges sys.scheduler sys'.scheduler index (clock index) ↔
      sys.scheduler.stateOf index = .running ∧
        (sys.scheduler.vruntime index).toNat + max 1 (clock index) < 2 ^ 64 := by
  have haccounts := switch_vruntime hcontrol hcurrent hstep
  by_cases hrunning : sys.scheduler.stateOf index = .running
  · have hmetered := hrun.metered index ⟨hcurrent, hrunning⟩
    have hcharge : (sys.scheduler.charge index).toNat = max 1 (clock index) := by
      rw [toNat_charge]
      omega
    have hself : (sys'.scheduler.vruntime index).toNat =
        ((sys.scheduler.vruntime index).toNat + max 1 (clock index)) % 2 ^ 64 := by
      rw [haccounts, suspended]
      dsimp only
      rw [if_pos hrunning, Function.update_self, UInt64.toNat_add, hcharge]
    constructor
    · intro hcharges
      refine ⟨hrunning, ?_⟩
      have hword := (sys'.scheduler.vruntime index).toNat_lt
      rw [hcharges.self] at hword
      exact hword
    · rintro ⟨-, hlt⟩
      refine ⟨hself.trans (Nat.mod_eq_of_lt hlt), fun i hne ↦ ?_⟩
      rw [haccounts, suspended]
      dsimp only
      rw [if_pos hrunning, Function.update_of_ne hne]
  · -- nothing is charged at all
    refine iff_of_false (fun hcharges ↦ ?_) fun h ↦ hrunning h.1
    have hself := hcharges.self
    rw [haccounts, suspended] at hself
    dsimp only at hself
    rw [if_neg hrunning] at hself
    omega

/-- The labels taken one after the other, with the clocks, as long as each meets the condition. -/
def System.timed (singleForeground : Bool) (ok : System → Label → Prop)
    [∀ sys l, Decidable (ok sys l)] (labels : List Label) (a : System × (Slot → ℕ)) :
    Option (System × (Slot → ℕ)) :=
  labels.foldlM (fun a l ↦
    if ok a.1 l then
      match a.1.step singleForeground l with
      | .ok (sys, _) => some (sys, clockAfter a.1 sys a.2)
      | .error _ => none
    else none) a

theorem TimedRun.exists_of_labels (singleForeground : Bool) (ok : System → Label → Prop)
    [∀ sys l, Decidable (ok sys l)] (labels : List Label) (P : System → (Slot → ℕ) → Bool)
    (h : (System.timed singleForeground ok labels (System.boot, fun _ ↦ 0)).any
      (fun a ↦ P a.1 a.2) = true) :
    ∃ sys clock, TimedRun singleForeground ok sys clock ∧ P sys clock = true := by
  cases hrun : System.timed singleForeground ok labels (System.boot, fun _ ↦ 0) with
  | none => simp [hrun] at h
  | some a =>
    rw [hrun] at h
    refine ⟨a.1, a.2, Reachable.foldlM (fun a l b hb ↦ ?_) (.start rfl) hrun, h⟩
    split at hb
    · next hok =>
      split at hb
      · next sys es hstep =>
        obtain rfl := Option.some.inj hb
        exact ⟨l, es, hok, hstep, rfl⟩
      · cases hb
    · cases hb

/-- A process yields two ticks after it was given the processor. -/
theorem switch_charges_two : ∃ sys clock k sys' es, TimedRun false Timely sys clock ∧
    sys.control = .picked k 1 ∧ sys.scheduler.current = some 0 ∧ clock 0 = 2 ∧
    sys.step false .switch = .ok (sys', es) ∧ Charges sys.scheduler sys'.scheduler 0 2 := by
  obtain ⟨sys, clock, hrun, hP⟩ := TimedRun.exists_of_labels false Timely
    (twoProcesses ++ [.timer, .timer, .call .yield, .pick])
    (fun sys clock ↦ sys.control = .picked .returns 1 ∧ sys.scheduler.current = some 0 ∧
      clock 0 = 2 ∧ sys.scheduler.stateOf 0 = .running ∧ sys.scheduler.vruntime 0 = 0)
    (by decide +kernel)
  obtain ⟨hcontrol, hcurrent, hclock, hrunning, hzero⟩ := of_decide_eq_true hP
  obtain ⟨trace, hof⟩ := hrun.runOf
  obtain ⟨sys', es, hstep⟩ := hof.run.step_ok .switch
  have hcharges := (switch_charges_iff hrun hcontrol hcurrent hstep).mpr
    ⟨hrunning, by rw [hzero, hclock]; decide⟩
  exact ⟨sys, clock, _, sys', es, hrun, hcontrol, hcurrent, hclock, hstep, hclock ▸ hcharges⟩

/-- A process that goes to sleep three ticks after it was given the processor is not charged. -/
theorem sleep_not_charged : ∃ sys clock k sys' es, TimedRun false (fun _ _ ↦ True) sys clock ∧
    sys.control = .picked k 1 ∧ k = .returns ∧ sys.scheduler.current = some 0 ∧
    sys.step false .switch = .ok (sys', es) ∧
    ¬Charges sys.scheduler sys'.scheduler 0 (clock 0) := by
  obtain ⟨sys, clock, hrun, hP⟩ := TimedRun.exists_of_labels false (fun _ _ ↦ True)
    (twoProcesses ++ [.timer, .timer, .timer, .call (.sleep 5), .pick])
    (fun sys clock ↦ sys.control = .picked .returns 1 ∧ sys.scheduler.current = some 0 ∧
      clock 0 = 3 ∧ sys.scheduler.stateOf 0 = .blocked)
    (by decide +kernel)
  obtain ⟨hcontrol, hcurrent, hclock, hblocked⟩ := of_decide_eq_true hP
  obtain ⟨trace, hof⟩ := hrun.runOf
  obtain ⟨sys', es, hstep⟩ := hof.run.step_ok .switch
  refine ⟨sys, clock, _, sys', es, hrun, hcontrol, rfl, hcurrent, hstep, fun hcharges ↦ ?_⟩
  have hself := hcharges.self
  rw [switch_vruntime hcontrol hcurrent hstep, suspended] at hself
  dsimp only at hself
  rw [if_neg (by simp [hblocked])] at hself
  omega

end TensorOS
