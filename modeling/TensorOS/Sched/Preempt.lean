import Mathlib
import TensorOS.Lib.Transition

/-!
# The preempt-disable depth

`preempt.c` keeps one disable depth for all tasks, and `process_yield` changes it on both sides of a
context switch: one level down before the switch, one more when the task is back. The system below
has any number of tasks that disable, enable and yield, with the timer interrupt between any two
steps, and it keeps what the tasks see of the depth.

A task that yields at depth 0 leaves depth 0 behind and finds it again. A task that yields at a
greater depth leaves that depth to the next one, and finds one level less.
-/

namespace TensorOS

/-! ## The source -/

/-- `struct scheduler_preempt_state`. -/
structure SchedulerPreemptState where
  pending : UInt32
  tickCount : UInt32
  disableDepth : UInt32
  deriving DecidableEq, Repr

/-- `CONFIG_SCHEDULER_PREEMPTIVE`, and the answer of `scheduler_target_preempt_capable`. -/
structure PreemptConfig where
  preemptive : Bool
  targetCapable : Bool

section Source

variable (config : PreemptConfig)

/-- `scheduler_preempt_init`. -/
def schedulerPreemptInit : SchedulerPreemptState := ⟨0, 0, 0⟩

/-- `scheduler_preempt_on_timer_tick`. -/
def schedulerPreemptOnTimerTick (s : SchedulerPreemptState) : SchedulerPreemptState :=
  { s with tickCount := s.tickCount + 1, pending := if config.preemptive then 1 else s.pending }

/-- `scheduler_maybe_preempt_at_safe_point`. The hook of the target does nothing. -/
def schedulerMaybePreemptAtSafePoint (s : SchedulerPreemptState) : Bool × SchedulerPreemptState :=
  if !config.preemptive then (false, s)
  else if s.pending = 0 then (false, s)
  else if s.disableDepth ≠ 0 then (false, s)
  else if !config.targetCapable then (false, s)
  else (true, { s with pending := 0 })

/-- `preempt_disable`. -/
def preemptDisable (s : SchedulerPreemptState) : SchedulerPreemptState :=
  { s with disableDepth := s.disableDepth + 1 }

/-- `preempt_enable`. -/
def preemptEnable (s : SchedulerPreemptState) : SchedulerPreemptState :=
  if s.disableDepth = 0 then s
  else
    let s := { s with disableDepth := s.disableDepth - 1 }
    if s.disableDepth = 0 then (schedulerMaybePreemptAtSafePoint config s).2 else s

end Source

/-! ## Tasks -/

/-- How far a call of `process_yield` has come. -/
inductive YieldPhase
  /-- The timer trap has sent the task to the trampoline that calls `process_yield`. -/
  | redirected
  /-- Behind `preempt_disable`. -/
  | entered
  /-- Behind the safe point: the next process is chosen. -/
  | choosing
  /-- Behind `preempt_enable`, and switched away. -/
  | parked
  /-- Back from `scheduler_switch_process`. -/
  | resumed
  deriving DecidableEq, Repr

/-- A call of `process_yield` that has not returned, and the depth at which it was made. -/
structure YieldFrame where
  calledAt : UInt32
  phase : YieldPhase
  deriving DecidableEq, Repr

/-- A task: its disables that are not enabled again, and its calls of `process_yield`, the innermost
first. -/
structure PreemptTask where
  started : Bool
  held : ℕ
  frames : List YieldFrame

/-- What a task sees of the depth. -/
inductive Sight
  | starts (depth : UInt32)
  | returns (calledAt depth : UInt32) (held : ℕ)
  deriving DecidableEq, Repr

/-- A yield gives the depth back that it was called at, and a task that holds no disable sees depth
0 when it starts and when it goes on. -/
def Sight.Right : Sight → Prop
  | starts depth => depth = 0
  | returns calledAt depth held => depth = calledAt ∧ (held = 0 → depth = 0)

/-- The depth, the task on the processor, the tasks, and what they have seen. -/
structure PreemptSystem (ι : Type) where
  preempt : SchedulerPreemptState
  current : Option ι
  tasks : ι → PreemptTask
  seen : List Sight

/-- How a call of `process_yield` ends, with the depth it was made at. -/
inductive YieldEnd
  | stays (calledAt : UInt32)
  | switches (calledAt : UInt32)

variable {ι : Type} [DecidableEq ι]

namespace PreemptSystem

/-- No task has run. -/
def init : PreemptSystem ι := ⟨schedulerPreemptInit, none, fun _ ↦ ⟨false, 0, []⟩, []⟩

variable (s : PreemptSystem ι)

/-- The task has other frames. -/
def setFrames (i : ι) (frames : List YieldFrame) : PreemptSystem ι :=
  { s with tasks := Function.update s.tasks i { s.tasks i with frames := frames } }

/-- The task holds another number of disables. -/
def setHeld (i : ι) (held : ℕ) : PreemptSystem ι :=
  { s with tasks := Function.update s.tasks i { s.tasks i with held := held } }

/-- The task starts. -/
def begin (i : ι) : PreemptSystem ι :=
  { s with
    current := some i
    tasks := Function.update s.tasks i { s.tasks i with started := true }
    seen := s.seen ++ [.starts s.preempt.disableDepth] }

/-- The innermost call of the task returns. -/
def returns (i : ι) (calledAt : UInt32) (below : List YieldFrame) : PreemptSystem ι :=
  { s.setFrames i below with
    seen := s.seen ++ [.returns calledAt s.preempt.disableDepth (s.tasks i).held] }

end PreemptSystem

open PreemptSystem

/-- One step of the task on the processor, or of the timer. A task disables, enables what it has
disabled, and calls `process_yield`; the calls then go on in the order of the source. Where a call
ends, the step says how. -/
inductive PreemptStep (config : PreemptConfig) :
    PreemptSystem ι → Option YieldEnd → PreemptSystem ι → Prop
  /-- `scheduler_start_first_process`. -/
  | start {s : PreemptSystem ι} {i : ι} (hcurrent : s.current = none)
      (hfresh : (s.tasks i).started = false) : PreemptStep config s none (s.begin i)
  /-- `process_tick`, in the interrupt or where it is polled. -/
  | tick {s : PreemptSystem ι} : PreemptStep config s none
      { s with preempt := schedulerPreemptOnTimerTick config s.preempt }
  | disable {s : PreemptSystem ι} {i : ι} (hcurrent : s.current = some i)
      (hframes : (s.tasks i).frames = []) : PreemptStep config s none
      { s.setHeld i ((s.tasks i).held + 1) with preempt := preemptDisable s.preempt }
  | enable {s : PreemptSystem ι} {i : ι} {held : ℕ} (hcurrent : s.current = some i)
      (hframes : (s.tasks i).frames = []) (hheld : (s.tasks i).held = held + 1) :
      PreemptStep config s none
        { s.setHeld i held with preempt := preemptEnable config s.preempt }
  /-- The task calls `process_yield`. -/
  | yield {s : PreemptSystem ι} {i : ι} (hcurrent : s.current = some i)
      (hframes : (s.tasks i).frames = []) : PreemptStep config s none
      { s.setFrames i [⟨s.preempt.disableDepth, .entered⟩] with
        preempt := preemptDisable s.preempt }
  /-- The timer trap, if it preempts. -/
  | trap {s : PreemptSystem ι} {i : ι} (hcurrent : s.current = some i)
      (hpreemptive : config.preemptive = true) (hpending : s.preempt.pending ≠ 0)
      (hdepth : s.preempt.disableDepth = 0) : PreemptStep config s none
      { s.setFrames i (⟨0, .redirected⟩ :: (s.tasks i).frames) with
        preempt := { s.preempt with pending := 0 } }
  /-- `preempt_return_trampoline` calls `process_yield`. -/
  | trampoline {s : PreemptSystem ι} {i : ι} {c : UInt32} {below : List YieldFrame}
      (hcurrent : s.current = some i) (hframes : (s.tasks i).frames = ⟨c, .redirected⟩ :: below) :
      PreemptStep config s none
        { s.setFrames i (⟨s.preempt.disableDepth, .entered⟩ :: below) with
          preempt := preemptDisable s.preempt }
  | safePoint {s : PreemptSystem ι} {i : ι} {c : UInt32} {below : List YieldFrame}
      (hcurrent : s.current = some i) (hframes : (s.tasks i).frames = ⟨c, .entered⟩ :: below) :
      PreemptStep config s none
        { s.setFrames i (⟨c, .choosing⟩ :: below) with
          preempt := (schedulerMaybePreemptAtSafePoint config s.preempt).2 }
  /-- There is no other process, or the same one is chosen. -/
  | stay {s : PreemptSystem ι} {i : ι} {c : UInt32} {below : List YieldFrame}
      (hcurrent : s.current = some i) (hframes : (s.tasks i).frames = ⟨c, .choosing⟩ :: below) :
      PreemptStep config s (some (.stays c))
        (returns { s with preempt := preemptEnable config s.preempt } i c below)
  /-- The switch to a task that has not run yet. -/
  | switchFresh {s : PreemptSystem ι} {i j : ι} {c : UInt32} {below : List YieldFrame}
      (hcurrent : s.current = some i) (hframes : (s.tasks i).frames = ⟨c, .choosing⟩ :: below)
      (hne : j ≠ i) (hfresh : (s.tasks j).started = false) :
      PreemptStep config s (some (.switches c))
        (begin { s.setFrames i (⟨c, .parked⟩ :: below) with
          preempt := preemptEnable config s.preempt } j)
  /-- The switch to a task that is inside `process_yield` itself. -/
  | switchBack {s : PreemptSystem ι} {i j : ι} {c c' : UInt32} {below below' : List YieldFrame}
      (hcurrent : s.current = some i) (hframes : (s.tasks i).frames = ⟨c, .choosing⟩ :: below)
      (hne : j ≠ i) (hparked : (s.tasks j).frames = ⟨c', .parked⟩ :: below') :
      PreemptStep config s (some (.switches c))
        { (s.setFrames i (⟨c, .parked⟩ :: below)).setFrames j (⟨c', .resumed⟩ :: below') with
          current := some j, preempt := preemptEnable config s.preempt }
  /-- The second `preempt_enable`, and the return. -/
  | finish {s : PreemptSystem ι} {i : ι} {c : UInt32} {below : List YieldFrame}
      (hcurrent : s.current = some i) (hframes : (s.tasks i).frames = ⟨c, .resumed⟩ :: below) :
      PreemptStep config s none
        (returns { s with preempt := preemptEnable config s.preempt } i c below)

/-- A call that switches is made at depth 0, one that does not is made below the largest depth. -/
def YieldEnd.AtFittingDepth : YieldEnd → Prop
  | stays calledAt => calledAt ≠ 4294967295
  | switches calledAt => calledAt = 0

/-- The states that some run leads to. -/
def PreemptReachable (config : PreemptConfig) : PreemptSystem ι → Prop :=
  Reachable (· = init) fun s t ↦ ∃ ending, PreemptStep config s ending t

/-- The states that runs lead to in which all calls are made at a depth that fits. -/
def FittingReachable (config : PreemptConfig) : PreemptSystem ι → Prop :=
  Reachable (· = init) fun s t ↦
    ∃ ending, (∀ e ∈ ending, YieldEnd.AtFittingDepth e) ∧ PreemptStep config s ending t

/-! ## The depth under single calls -/

section Source

variable (config : PreemptConfig) {p : SchedulerPreemptState}

@[simp] theorem preemptDisable_disableDepth :
    (preemptDisable p).disableDepth = p.disableDepth + 1 := rfl

/-- The safe point takes a pending preemption, and leaves the depth. -/
@[simp] theorem schedulerMaybePreemptAtSafePoint_disableDepth :
    (schedulerMaybePreemptAtSafePoint config p).2.disableDepth = p.disableDepth := by
  unfold schedulerMaybePreemptAtSafePoint
  split
  · rfl
  split
  · rfl
  split
  · rfl
  split
  · rfl
  · rfl

theorem preemptEnable_of_zero (h : p.disableDepth = 0) : preemptEnable config p = p := if_pos h

theorem preemptEnable_disableDepth (h : p.disableDepth ≠ 0) :
    (preemptEnable config p).disableDepth = p.disableDepth - 1 := by
  rw [preemptEnable, if_neg h]
  dsimp only
  split
  · exact schedulerMaybePreemptAtSafePoint_disableDepth config
  · rfl

/-- An enable undoes a disable that did not wrap. -/
theorem preemptEnable_of_succ {c : UInt32} (h : p.disableDepth = c + 1) (hc : c ≠ 4294967295) :
    (preemptEnable config p).disableDepth = c := by
  have hne : p.disableDepth ≠ 0 := by
    rw [h]
    grind
  rw [preemptEnable_disableDepth config hne, h]
  grind

/-- The depth is not more than the number of disables. -/
theorem preemptEnable_le {held : ℕ} (h : p.disableDepth.toNat ≤ held + 1) :
    (preemptEnable config p).disableDepth.toNat ≤ held := by
  by_cases hzero : p.disableDepth = 0
  · rw [preemptEnable_of_zero config hzero, hzero]
    exact Nat.zero_le held
  · rw [preemptEnable_disableDepth config hzero]
    have hpos : p.disableDepth.toNat ≠ 0 := fun h0 ↦ hzero (UInt32.toNat_inj.mp h0)
    have hone : (1 : UInt32) ≤ p.disableDepth := by
      rw [UInt32.le_iff_toNat_le]
      have h1 : (1 : UInt32).toNat = 1 := rfl
      omega
    rw [UInt32.toNat_sub_of_le _ _ hone]
    have h1 : (1 : UInt32).toNat = 1 := rfl
    omega

theorem preemptDisable_le {held : ℕ} (h : p.disableDepth.toNat ≤ held) :
    (preemptDisable p).disableDepth.toNat ≤ held + 1 := by
  rw [preemptDisable_disableDepth, UInt32.toNat_add]
  have h1 : (1 : UInt32).toNat = 1 := rfl
  have := Nat.mod_le (p.disableDepth.toNat + (1 : UInt32).toNat) (2 ^ 32)
  omega

end Source

/-! ## The invariant -/

/-- The depth that belongs to the phase of a frame. -/
def YieldFrame.Fits (f : YieldFrame) (depth : UInt32) : Prop :=
  match f.phase with
  | .redirected => depth = 0 ∧ f.calledAt = 0
  | .entered => depth = f.calledAt + 1
  | .choosing => depth = f.calledAt + 1
  | .parked => False
  | .resumed => depth = 0 ∧ f.calledAt = 0

/-- **The depth that belongs to the frames of a task** that holds some disables: below each frame
it is the depth of the call. -/
def FramesFit (held : ℕ) : UInt32 → List YieldFrame → Prop
  | depth, [] => depth.toNat ≤ held
  | depth, f :: below => f.Fits depth ∧ f.calledAt.toNat ≤ held ∧ FramesFit held f.calledAt below

/-- The task has switched away at depth 0. -/
def ParkedFits (task : PreemptTask) : Prop :=
  ∃ below, task.frames = ⟨0, .parked⟩ :: below ∧ FramesFit task.held 0 below

/-- The invariant of the runs whose calls are made at a depth that fits. -/
structure PreemptSystem.Balanced (s : PreemptSystem ι) : Prop where
  idle : s.current = none → s.preempt.disableDepth = 0
  fresh : ∀ i, (s.tasks i).started = false → (s.tasks i).held = 0 ∧ (s.tasks i).frames = []
  running : ∀ i, s.current = some i → (s.tasks i).started = true ∧
    FramesFit (s.tasks i).held s.preempt.disableDepth (s.tasks i).frames
  parked : ∀ i, s.current ≠ some i → (s.tasks i).started = true → ParkedFits (s.tasks i)
  seen : ∀ sight ∈ s.seen, sight.Right

omit [DecidableEq ι] in
theorem PreemptSystem.balanced_init : (init : PreemptSystem ι).Balanced where
  idle _ := rfl
  fresh _ _ := ⟨rfl, rfl⟩
  running i h := by cases h
  parked i _ h := by cases h
  seen sight h := absurd h List.not_mem_nil

section Step

variable {config : PreemptConfig} {s s' : PreemptSystem ι} {i j : ι}
  {preempt : SchedulerPreemptState} {seen : List Sight}

omit [DecidableEq ι] in
theorem PreemptSystem.Balanced.top (h : s.Balanced) (hcurrent : s.current = some i)
    {frames : List YieldFrame} (hframes : (s.tasks i).frames = frames) :
    (s.tasks i).started = true ∧ FramesFit (s.tasks i).held s.preempt.disableDepth frames :=
  hframes ▸ h.running i hcurrent

theorem PreemptSystem.Balanced.update (h : s.Balanced) (hcurrent : s.current = some i)
    {task : PreemptTask} (hstarted : task.started = true)
    (hframes : FramesFit task.held preempt.disableDepth task.frames)
    (hseen : ∀ sight ∈ seen, sight.Right) :
    PreemptSystem.Balanced ⟨preempt, s.current, Function.update s.tasks i task, seen⟩ where
  idle hnone := by cases hcurrent.symm.trans hnone
  fresh k hk := by
    dsimp only at hk ⊢
    by_cases hki : k = i
    · rw [hki, Function.update_self, hstarted] at hk
      cases hk
    · rw [Function.update_of_ne hki] at hk ⊢
      exact h.fresh k hk
  running k hk := by
    obtain rfl : k = i := Option.some.inj (hk.symm.trans hcurrent)
    dsimp only
    rw [Function.update_self]
    exact ⟨hstarted, hframes⟩
  parked k hk hkstarted := by
    have hki : k ≠ i := fun hki ↦ hk (hki ▸ hcurrent)
    dsimp only at hkstarted ⊢
    rw [Function.update_of_ne hki] at hkstarted ⊢
    exact h.parked k hk hkstarted
  seen := hseen

theorem PreemptSystem.Balanced.switch (h : s.Balanced) (hcurrent : s.current = some i)
    {away back : PreemptTask} (haway : away.started = true) (hparked : ParkedFits away)
    (hback : back.started = true)
    (hframes : FramesFit back.held preempt.disableDepth back.frames)
    (hseen : ∀ sight ∈ seen, sight.Right) : PreemptSystem.Balanced
      ⟨preempt, some j, Function.update (Function.update s.tasks i away) j back, seen⟩ where
  idle hnone := by cases hnone
  fresh k hk := by
    dsimp only at hk ⊢
    by_cases hkj : k = j
    · rw [hkj, Function.update_self, hback] at hk
      cases hk
    rw [Function.update_of_ne hkj] at hk ⊢
    by_cases hki : k = i
    · rw [hki, Function.update_self, haway] at hk
      cases hk
    · rw [Function.update_of_ne hki] at hk ⊢
      exact h.fresh k hk
  running k hk := by
    obtain rfl : j = k := Option.some.inj hk
    dsimp only
    rw [Function.update_self]
    exact ⟨hback, hframes⟩
  parked k hk hkstarted := by
    have hkj : k ≠ j := fun hkj ↦ hk (hkj ▸ rfl)
    dsimp only at hkstarted ⊢
    rw [Function.update_of_ne hkj] at hkstarted ⊢
    by_cases hki : k = i
    · rw [hki, Function.update_self]
      exact hparked
    · rw [Function.update_of_ne hki] at hkstarted ⊢
      exact h.parked k (fun hk ↦ hki (Option.some.inj (hk.symm.trans hcurrent))) hkstarted
  seen := hseen

omit [DecidableEq ι] in
theorem PreemptSystem.Balanced.seen_append (h : s.Balanced) {sight : Sight} (hr : sight.Right) :
    ∀ o ∈ s.seen ++ [sight], o.Right := by
  intro o ho
  rcases List.mem_append.mp ho with hold | hnew
  · exact h.seen o hold
  · rw [List.mem_singleton.mp hnew]
    exact hr

omit [DecidableEq ι] in
/-- A task inside `process_yield` that is not on the processor. -/
theorem PreemptSystem.Balanced.away (h : s.Balanced) (hcurrent : s.current = some i) (hne : j ≠ i)
    {f : YieldFrame} {below : List YieldFrame} (hframes : (s.tasks j).frames = f :: below) :
    (s.tasks j).started = true ∧ ParkedFits (s.tasks j) := by
  have hstarted : (s.tasks j).started = true := by
    by_contra hfresh
    rw [(h.fresh j (Bool.eq_false_iff.mpr hfresh)).2] at hframes
    cases hframes
  refine ⟨hstarted, h.parked j (fun hj ↦ ?_) hstarted⟩
  exact hne (Option.some.inj (hj.symm.trans hcurrent))

theorem PreemptSystem.Balanced.begin (h : s.Balanced) (hcurrent : s.current = none)
    (hfresh : (s.tasks i).started = false) : (s.begin i).Balanced where
  idle hnone := by cases hnone
  fresh k hk := by
    dsimp only [PreemptSystem.begin] at hk ⊢
    by_cases hki : k = i
    · rw [hki, Function.update_self] at hk
      cases hk
    · rw [Function.update_of_ne hki] at hk ⊢
      exact h.fresh k hk
  running k hk := by
    obtain rfl : i = k := Option.some.inj hk
    obtain ⟨hheld, hframes⟩ := h.fresh i hfresh
    dsimp only [PreemptSystem.begin]
    rw [Function.update_self]
    dsimp only
    rw [hheld, hframes, h.idle hcurrent]
    exact ⟨rfl, le_rfl⟩
  parked k hk hkstarted := by
    have hki : k ≠ i := fun hki ↦ hk (hki ▸ rfl)
    dsimp only [PreemptSystem.begin] at hkstarted ⊢
    rw [Function.update_of_ne hki] at hkstarted ⊢
    exact h.parked k (by simp [hcurrent]) hkstarted
  seen := h.seen_append (h.idle hcurrent)

/-- **A step whose call is made at a depth that fits** keeps the balance. -/
theorem PreemptStep.balanced {ending : Option YieldEnd} (h : s.Balanced)
    (hfit : ∀ e ∈ ending, YieldEnd.AtFittingDepth e) (hstep : PreemptStep config s ending s') :
    s'.Balanced := by
  cases hstep with
  | start hcurrent hfresh => exact h.begin hcurrent hfresh
  | tick => exact ⟨h.idle, h.fresh, h.running, h.parked, h.seen⟩
  | disable hcurrent hframes =>
    obtain ⟨hstarted, hfits⟩ := h.top hcurrent hframes
    refine h.update hcurrent hstarted ?_ h.seen
    rw [hframes]
    exact preemptDisable_le hfits
  | enable hcurrent hframes hheld =>
    obtain ⟨hstarted, hfits⟩ := h.top hcurrent hframes
    rw [hheld] at hfits
    refine h.update hcurrent hstarted ?_ h.seen
    rw [hframes]
    exact preemptEnable_le config hfits
  | yield hcurrent hframes =>
    obtain ⟨hstarted, hfits⟩ := h.top hcurrent hframes
    exact h.update hcurrent hstarted ⟨rfl, hfits, hfits⟩ h.seen
  | trap hcurrent hpreemptive hpending hdepth =>
    obtain ⟨hstarted, hfits⟩ := h.running _ hcurrent
    rw [hdepth] at hfits
    exact h.update hcurrent hstarted ⟨⟨hdepth, rfl⟩, Nat.zero_le _, hfits⟩ h.seen
  | trampoline hcurrent hframes =>
    obtain ⟨hstarted, ⟨hdepth, hzero⟩, hheld, hbelow⟩ := h.top hcurrent hframes
    dsimp only at hzero
    subst hzero
    refine h.update hcurrent hstarted ?_ h.seen
    dsimp only
    rw [hdepth]
    exact ⟨by simp [YieldFrame.Fits, hdepth], hheld, hbelow⟩
  | safePoint hcurrent hframes =>
    obtain ⟨hstarted, hfits⟩ := h.top hcurrent hframes
    refine h.update hcurrent hstarted ?_ h.seen
    rw [schedulerMaybePreemptAtSafePoint_disableDepth]
    exact hfits
  | stay hcurrent hframes =>
    obtain ⟨hstarted, hdepth, hheld, hbelow⟩ := h.top hcurrent hframes
    -- the disable of the call did not wrap, and is undone
    have hback := preemptEnable_of_succ config hdepth (hfit _ rfl)
    refine h.update hcurrent hstarted ?_ (h.seen_append ⟨hback, fun hnone ↦ ?_⟩)
    · dsimp only [PreemptSystem.setFrames]
      rw [hback]
      exact hbelow
    · rw [hback]
      dsimp only at hnone
      rw [hnone] at hheld
      exact UInt32.toNat_inj.mp (Nat.le_zero.mp hheld)
  | switchFresh hcurrent hframes hne hfresh =>
    obtain ⟨hstarted, hdepth, hheld, hbelow⟩ := h.top hcurrent hframes
    obtain rfl := hfit _ rfl
    -- the call was made at depth 0, and leaves that to the next task
    have hzero := preemptEnable_of_succ config hdepth (by decide)
    obtain ⟨hjheld, hjframes⟩ := h.fresh _ hfresh
    refine h.switch hcurrent hstarted ⟨_, rfl, hbelow⟩ rfl ?_ (h.seen_append hzero)
    dsimp only [PreemptSystem.setFrames]
    rw [Function.update_of_ne hne, hjheld, hjframes, hzero]
    exact le_rfl
  | switchBack hcurrent hframes hne hparked =>
    obtain ⟨hstarted, hdepth, hheld, hbelow⟩ := h.top hcurrent hframes
    obtain rfl := hfit _ rfl
    have hzero := preemptEnable_of_succ config hdepth (by decide)
    obtain ⟨hjstarted, below, hjframes, hjfits⟩ := h.away hcurrent hne hparked
    obtain ⟨hframe, rfl⟩ := List.cons.inj (hparked.symm.trans hjframes)
    obtain ⟨rfl, -⟩ := YieldFrame.mk.inj hframe
    refine h.switch hcurrent hstarted ⟨_, rfl, hbelow⟩ ?_ ?_ h.seen
    · dsimp only [PreemptSystem.setFrames]
      rw [Function.update_of_ne hne]
      exact hjstarted
    · dsimp only [PreemptSystem.setFrames]
      rw [Function.update_of_ne hne, hzero]
      exact ⟨⟨rfl, rfl⟩, Nat.zero_le _, hjfits⟩
  | finish hcurrent hframes =>
    obtain ⟨hstarted, ⟨hdepth, hzero⟩, hheld, hbelow⟩ := h.top hcurrent hframes
    dsimp only at hzero
    subst hzero
    -- the second enable finds depth 0 and does nothing
    have hsame := preemptEnable_of_zero config hdepth
    refine h.update hcurrent hstarted ?_ (h.seen_append ?_)
    · dsimp only [PreemptSystem.setFrames]
      rw [hsame, hdepth]
      exact hbelow
    · rw [hsame]
      exact ⟨hdepth, fun _ ↦ hdepth⟩

theorem FittingReachable.balanced (h : FittingReachable config s) : s.Balanced := by
  refine Reachable.invariant (P := PreemptSystem.Balanced) ?_ ?_ h
  · rintro _ rfl
    exact PreemptSystem.balanced_init
  · rintro s t hs ⟨ending, hfit, hstep⟩
    exact PreemptStep.balanced hs hfit hstep

theorem FittingReachable.next (h : FittingReachable config s) {ending : Option YieldEnd}
    (hfit : ∀ e ∈ ending, YieldEnd.AtFittingDepth e) (hstep : PreemptStep config s ending s') :
    FittingReachable config s' :=
  h.step ⟨ending, hfit, hstep⟩

/-- **The depth belongs to the task** in every run in which each call of `process_yield` that
switches is made at depth 0 and each other one below the largest depth. -/
theorem preemptDepth_right (h : FittingReachable config s) : ∀ sight ∈ s.seen, sight.Right :=
  h.balanced.seen

end Step

/-- Two tasks yield to each other at depth 0, and the first one is back. -/
theorem preemptDepth_right_two : ∃ s : PreemptSystem Bool, FittingReachable ⟨true, false⟩ s ∧
    s.seen = [.starts 0, .starts 0, .returns 0 0 0] ∧ ∀ sight ∈ s.seen, sight.Right := by
  have h₀ : FittingReachable ⟨true, false⟩ (init : PreemptSystem Bool) := .start rfl
  have h₁ := h₀.next (by simp) (.start (i := false) rfl rfl)
  have h₂ := h₁.next (by simp) (.yield (i := false) rfl rfl)
  have h₃ := h₂.next (by simp) (.safePoint (i := false) rfl rfl)
  have h₄ := h₃.next (by rintro _ ⟨⟩; rfl)
    (.switchFresh (i := false) (j := true) rfl rfl (by decide) rfl)
  have h₅ := h₄.next (by simp) (.yield (i := true) rfl rfl)
  have h₆ := h₅.next (by simp) (.safePoint (i := true) rfl rfl)
  have h₇ := h₆.next (by rintro _ ⟨⟩; rfl)
    (.switchBack (i := true) (j := false) rfl rfl (by decide) rfl)
  have h₈ := h₇.next (by simp) (.finish (i := false) rfl rfl)
  exact ⟨_, h₈, rfl, preemptDepth_right h₈⟩

/-- **A task that yields while it holds a disable** leaves it to the next one. -/
theorem preemptDepth_leaks : ¬∀ (ι : Type) [DecidableEq ι] (config : PreemptConfig)
    (s : PreemptSystem ι), PreemptReachable config s → ∀ sight ∈ s.seen, sight.Right := by
  intro h
  have h₀ : PreemptReachable ⟨true, false⟩ (init : PreemptSystem Bool) := .start rfl
  have h₁ := h₀.step ⟨_, .start (i := false) rfl rfl⟩
  have h₂ := h₁.step ⟨_, .disable (i := false) rfl rfl⟩
  have h₃ := h₂.step ⟨_, .yield (i := false) rfl rfl⟩
  have h₄ := h₃.step ⟨_, .safePoint (i := false) rfl rfl⟩
  have h₅ := h₄.step ⟨_, .switchFresh (i := false) (j := true) rfl rfl (by decide) rfl⟩
  have hone : (1 : UInt32) = 0 := h Bool _ _ h₅ (.starts 1) (by decide)
  exact absurd hone (by decide)

end TensorOS
