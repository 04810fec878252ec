import TensorOS.Sched.Invariant

/-!
# One foreground app

In a build with `CONFIG_RUNTIME_SINGLE_FOREGROUND` the policy refuses to spawn a foreground app
while there is one. It looks at the table once, at the spawn. That there is never a second one
(`single_foreground`) needs that no other step changes a role or brings an entry back: a zombie
stays one until it is collected, with one exception. A process that exits while it is still on the
queue may pick itself in `process_yield`, and is RUNNING again until the system halts. Until the
next switch no process can be spawned, so such a process is counted as if it were there
(`Counted`).
-/

namespace TensorOS

open Scheduler

variable {s t s' : Scheduler}

namespace Scheduler

/-- The slot is in use by a foreground app that has not ended. -/
def IsForeground (s : Scheduler) (i : Slot) : Prop :=
  s.stateOf i ≠ .unused ∧ s.stateOf i ≠ .zombie ∧ (s.processes i).role = roleForegroundApp

/-- The slot is in use by a process that has not ended, or by the current one. -/
def Counted (s : Scheduler) (i : Slot) : Prop :=
  s.stateOf i ≠ .unused ∧ (s.stateOf i ≠ .zombie ∨ s.current = some i)

/-- No slot comes into use, and no role is changed. -/
def KeepsRoles (s s' : Scheduler) : Prop :=
  ∀ i, Counted s' i → Counted s i ∧ (s'.processes i).role = (s.processes i).role

theorem IsForeground.counted {i : Slot} (h : s.IsForeground i) : s.Counted i := ⟨h.1, Or.inl h.2.1⟩

theorem KeepsRoles.refl (s : Scheduler) : KeepsRoles s s := fun _ hi ↦ ⟨hi, rfl⟩

theorem KeepsRoles.synced (h : KeepsRoles s t) (hs : Synced t s') : KeepsRoles s s' := by
  rw [hs.eq]
  exact h

theorem KeepsRoles.trans (h : KeepsRoles s t) (h' : KeepsRoles t s') : KeepsRoles s s' := by
  intro i hi
  obtain ⟨ht, hrole'⟩ := h' i hi
  obtain ⟨hs, hrole⟩ := h i ht
  exact ⟨hs, hrole'.trans hrole⟩

/-- One entry is changed, but not its role, and it was counted before. No other one becomes
current. -/
theorem keepsRoles_of_update {index : Slot} {process : Process} (hindex : s.Counted index)
    (ht : t.processes = Function.update s.processes index process)
    (hrole : process.role = (s.processes index).role)
    (hcurrent : ∀ i, t.current = some i → i = index ∨ s.current = some i) : KeepsRoles s t := by
  intro i hi
  by_cases heq : i = index
  · subst heq
    refine ⟨hindex, ?_⟩
    rw [ht, Function.update_self, hrole]
  · have hsame : t.processes i = s.processes i := by
      rw [ht, Function.update_of_ne heq]
    refine ⟨?_, by rw [hsame]⟩
    rw [Counted, stateOf, hsame] at hi
    exact ⟨hi.1, hi.2.imp_right fun hcur ↦ (hcurrent i hcur).resolve_left heq⟩

theorem Wakes.keepsRoles (h : Wakes s t) : KeepsRoles s t := by
  intro i hi
  refine ⟨?_, ?_⟩
  · rw [Counted, h.current] at hi
    obtain heq | ⟨hb, -⟩ := h.stateOf i
    · rwa [heq] at hi
    · exact ⟨by simp [hb], Or.inl (by simp [hb])⟩
  · obtain hi | hi := h.processes i
    · rw [hi]
    · rw [hi, ProcessCore.makeReady_role]

theorem Resets.keepsRoles {index : Slot} (h : Resets s index s') : KeepsRoles s s' := by
  intro i hi
  have hne : i ≠ index := by
    rintro rfl
    refine hi.1 ?_
    rw [h.stateOf, if_pos rfl]
  have hcurrent : s'.current = s.current := by rw [h.eq]
  refine ⟨?_, by rw [h.processes_of_ne hne]⟩
  rwa [Counted, h.stateOf, if_neg hne, hcurrent] at hi

theorem keepsRoles_countYield (s : Scheduler) (index : Slot) :
    KeepsRoles s (System.countYield s index) := by
  obtain ⟨processes, heq, hcount⟩ := countYield_spec s index
  intro i hi
  obtain ⟨n, hn⟩ := hcount i
  refine ⟨?_, by simp [heq, hn]⟩
  rwa [Counted, countYield_stateOf, countYield_current] at hi

theorem keepsRoles_endProcess {index : Slot} (hindex : s.Counted index) (exitCode : Int32) :
    KeepsRoles s (s.endProcess index exitCode) := by
  intro i hi
  refine ⟨?_, ?_⟩
  · obtain ⟨-, rfl⟩ | ⟨-, heq | ⟨hb, -⟩⟩ := endProcess_stateOf s index exitCode i
    · exact hindex
    · rw [Counted, heq] at hi
      exact hi
    · exact ⟨by simp [hb], Or.inl (by simp [hb])⟩
  · rw [endProcess_processes]
    split
    · next heq => rw [heq]
    · split
      · exact ProcessCore.makeReady_role _
      · rfl

/-- The caller of `process_yield` goes on, even if it has exited. -/
theorem keepsRoles_chosen (k : Continuation) {index : Slot} (hcur : s.current = some index) :
    KeepsRoles s (System.chosen s k index).scheduler := by
  rw [System.chosen, if_pos hcur]
  dsimp only
  split
  · exact .refl s
  · next hused =>
    exact keepsRoles_of_update (t := s.setState index .running) ⟨hused, Or.inr hcur⟩ rfl rfl
      fun _ ↦ Or.inr

theorem keepsRoles_setBlocked {index : Slot} (hindex : s.Counted index) (waitReason : WaitReason)
    (waitChannel : UInt32) (wakeTick : UInt64) (waitTargetPid : UInt32) :
    KeepsRoles s (s.setBlocked index waitReason waitChannel wakeTick waitTargetPid) :=
  keepsRoles_of_update hindex rfl rfl fun _ ↦ Or.inr

theorem counted_of_ready {i : Slot} (h : s.stateOf i = .ready ∨ s.stateOf i = .running) :
    s.Counted i := by
  obtain h | h := h <;> exact ⟨by simp [h], Or.inl (by simp [h])⟩

/-- Another process takes the processor, and one that has exited is not counted any longer. -/
theorem keepsRoles_resumed {next : Slot} (hready : s.stateOf next = .ready) :
    KeepsRoles s (s.resumed next) :=
  keepsRoles_of_update (counted_of_ready (Or.inl hready)) rfl rfl
    fun _ hcur ↦ Or.inl (Option.some.inj hcur).symm

theorem keepsRoles_suspended {index : Slot} (hindex : s.Counted index) (k : Continuation) :
    KeepsRoles s (s.suspended index k) :=
  keepsRoles_of_update hindex rfl rfl fun _ ↦ Or.inr

theorem keepsRoles_started {next : Slot} (hready : s.stateOf next = .ready) :
    KeepsRoles s (s.started next) :=
  keepsRoles_of_update (counted_of_ready (Or.inl hready)) rfl rfl
    fun _ hcur ↦ Or.inl (Option.some.inj hcur).symm

end Scheduler

/-! ## Steps -/

/-- Every step but a spawn keeps the roles. -/
theorem Move.keepsRoles {singleForeground : Bool} {sys sys' : System} {l : Label} {es : List Event}
    (h : SystemSound sys) (hmove : Move singleForeground sys l sys' es) :
    KeepsRoles sys.scheduler sys'.scheduler ∨ ∃ index t, sys.control = .user ∧
      Spawns singleForeground sys.scheduler index t ∧ Synced t sys'.scheduler := by
  cases hmove with
  | spawns hspawn hs => exact Or.inr ⟨_, _, rfl, hspawn, hs⟩
  | quiet | yields | exitBoot | killsZombie | waitFails | waitYields | picksNone | picksFirst
  | goesOn | exitReturns => exact Or.inl (.refl _)
  | exits hproc _ =>
    obtain ⟨hcur, hused⟩ := currentProcess_eq_some hproc
    exact Or.inl (keepsRoles_endProcess ⟨hused, Or.inr hcur⟩ _)
  | kills _ hused hz hs =>
    exact Or.inl ((keepsRoles_endProcess ⟨hused, Or.inl hz⟩ _).synced hs)
  | reaps _ hr => exact Or.inl hr.keepsRoles
  | collects _ _ _ hr => exact Or.inl hr.keepsRoles
  | waitBlocks hat hcur _ hs =>
    have hrun := h.placed.current_running hat.running hcur
    exact Or.inl ((keepsRoles_setBlocked (counted_of_ready (Or.inr hrun)) _ _ _ _).synced hs)
  | blocks hcur _ hs =>
    have hrun := h.placed.control _ hcur
    exact Or.inl ((keepsRoles_setBlocked (counted_of_ready (Or.inr hrun)) _ _ _ _).synced hs)
  | blocksOther _ hready hs =>
    exact Or.inl ((keepsRoles_setBlocked (counted_of_ready hready) _ _ _ _).synced hs)
  | wakes hw hs _ => exact Or.inl (hw.keepsRoles.synced hs)
  | picksBack | picksOther | picksIdle | picksHalt => exact Or.inl (keepsRoles_countYield _ _)
  | @picksSelf s k index hcur _ =>
    have hchosen := keepsRoles_chosen (s := System.countYield s index) k
      (by rw [countYield_current, hcur])
    exact Or.inl ((keepsRoles_countYield s index).trans hchosen)
  | waitsOn hs _ => exact Or.inl ((KeepsRoles.refl _).synced hs)
  | @waitsSelf s s' k index hs hcur _ =>
    have hchosen := keepsRoles_chosen (s := s') k (hs.current.trans hcur)
    exact Or.inl (((KeepsRoles.refl s).synced hs).trans hchosen)
  | waitsOther hs _ _ => exact Or.inl ((KeepsRoles.refl _).synced hs)
  | starts _ hs =>
    exact Or.inl ((keepsRoles_started h.placed.control.1).synced hs)
  | @switches s s' k index next hcur hs =>
    obtain ⟨hready, hleft⟩ := h.placed.control
    obtain ⟨hne, hleft⟩ := hleft index hcur
    have hsuspended := keepsRoles_suspended (s := s) ⟨hleft.used, Or.inr hcur⟩ k
    have hready' : (s.suspended index k).stateOf next = .ready := by
      rw [suspended_stateOf, if_neg fun hx ↦ hne hx.1.symm]
      exact hready
    exact Or.inl ((hsuspended.trans (keepsRoles_resumed hready')).synced hs)

/-- At most one foreground app is counted. -/
def OneForeground (s : Scheduler) : Prop :=
  ∀ i j, s.Counted i → (s.processes i).role = roleForegroundApp → s.Counted j →
    (s.processes j).role = roleForegroundApp → i = j

theorem OneForeground.keepsRoles (h : OneForeground s) (hkeeps : KeepsRoles s s') :
    OneForeground s' := by
  intro i j hi hri hj hrj
  obtain ⟨hi, hi'⟩ := hkeeps i hi
  obtain ⟨hj, hj'⟩ := hkeeps j hj
  exact h i j hi (hi'.symm.trans hri) hj (hj'.symm.trans hrj)

/-- The policy refuses a foreground app exactly if there is one. -/
theorem runtimePolicyCanSpawn_foreground (s : Scheduler) :
    ProcessCore.runtimePolicyCanSpawn s.processes true roleForegroundApp = false ↔
      ∃ i, s.IsForeground i := by
  simp [ProcessCore.runtimePolicyCanSpawn, IsForeground, stateOf]

/-- A spawn adds one process, and a foreground app only where there is none. -/
theorem OneForeground.spawns (h : OneForeground s) {index : Slot}
    (hcontrol : ControlOk s .user) (hspawn : Spawns true s index t) : OneForeground t := by
  obtain ⟨process, vruntime, ht, -, -, -, -, -, hpolicy⟩ := hspawn.eq
  have hself : (t.processes index).role = process.role := by
    rw [ht]
    exact congrArg Process.role (Function.update_self ..)
  have hothers : ∀ {i}, i ≠ index → t.Counted i → s.Counted i ∧
      (t.processes i).role = (s.processes i).role := by
    intro i hne hi
    have hsame : t.processes i = s.processes i := by
      rw [ht]
      exact Function.update_of_ne hne ..
    have hcurrent : t.current = s.current := by rw [ht]
    refine ⟨?_, by rw [hsame]⟩
    rwa [Scheduler.Counted, stateOf, hsame, hcurrent] at hi
  -- the current process runs, so what is counted has not ended
  have hforeground : ∀ {i}, s.Counted i → (s.processes i).role = roleForegroundApp →
      s.IsForeground i := by
    intro i hi hrole
    refine ⟨hi.1, ?_, hrole⟩
    obtain hlive | hcur := hi.2
    · exact hlive
    · rw [hcontrol i hcur]
      decide
  have hnone : process.role = roleForegroundApp → ∀ i, ¬ s.IsForeground i := by
    intro hrole i hi
    rw [hrole] at hpolicy
    exact absurd hpolicy (Bool.not_eq_true _ |>.mpr
      ((runtimePolicyCanSpawn_foreground s).mpr ⟨i, hi⟩))
  intro i j hi hri hj hrj
  by_cases hii : i = index
  · by_cases hji : j = index
    · rw [hii, hji]
    · obtain ⟨hj, hrole⟩ := hothers hji hj
      rw [hii, hself] at hri
      exact absurd (hforeground hj (hrole.symm.trans hrj)) (hnone hri j)
  · obtain ⟨hi, hrole⟩ := hothers hii hi
    by_cases hji : j = index
    · rw [hji, hself] at hrj
      exact absurd (hforeground hi (hrole.symm.trans hri)) (hnone hrj i)
    · obtain ⟨hj, hrole'⟩ := hothers hji hj
      exact h i j hi (hrole.symm.trans hri) hj (hrole'.symm.trans hrj)

/-! ## Runs -/

theorem Run.oneForeground {sys : System} {trace : List Event} (h : Run true sys trace) :
    OneForeground sys.scheduler := by
  refine (h.invariant (P := fun sys _ ↦ OneForeground sys.scheduler) ?_ ?_).2
  · intro i _ hi
    exact absurd rfl hi.1
  · intro sys l sys' es _ hsound hone hmove
    obtain hkeeps | ⟨index, t, hcontrol, hspawn, hs⟩ := hmove.keepsRoles hsound
    · exact hone.keepsRoles hkeeps
    · have hplaced := hsound.placed.control
      rw [hcontrol] at hplaced
      exact (hone.spawns hplaced hspawn).keepsRoles ((KeepsRoles.refl t).synced hs)

theorem processSpawnWithRole_foreground (h : s.QueueSound) (name : Option String)
    (hfree : ∃ i, s.stateOf i = .unused) (hpid : s.nextPid ≠ 0) :
    s.processSpawnWithRole true name true roleForegroundApp = .ok (s, 0) ↔
      ∃ i, s.IsForeground i := by
  obtain ⟨index, hindex⟩ : ∃ index, ProcessCore.findFreeSlot s.processes = some index := by
    refine Option.isSome_iff_exists.mp (List.find?_isSome.mpr ?_)
    obtain ⟨i, hi⟩ := hfree
    exact ⟨i, List.mem_finRange i, by simpa [stateOf] using hi⟩
  rw [← runtimePolicyCanSpawn_foreground]
  obtain ⟨s', hsync, hs'⟩ := QueueSound.sync (s := s.fillSlot index name roleForegroundApp) h
  have hnew : (s'.processes index).pid = s.nextPid := by
    rw [hs'.eq]
    simp [fillSlot, setProcess]
  by_cases hpolicy :
      ProcessCore.runtimePolicyCanSpawn s.processes true roleForegroundApp = false
  · exact iff_of_true (by simp [processSpawnWithRole, hindex, hpid, hpolicy]) hpolicy
  · refine iff_of_false (fun hrefused ↦ hpid ?_) hpolicy
    have hspawned : s.processSpawnWithRole true name true roleForegroundApp
        = .ok (s', s.nextPid) := by
      simp [processSpawnWithRole, hindex, hpid, hpolicy, hsync, hnew]
    exact (Prod.mk.inj (Except.ok.inj (hspawned.symm.trans hrefused))).2

/-- **There is one foreground app**: in every run of a build with single foreground at most one slot
in use by a process that has not ended has this role, and a spawn of a foreground app is refused by
the policy exactly if there is such a slot. -/
theorem single_foreground {sys : System} {trace : List Event} (h : Run true sys trace) :
    (∀ i j, sys.scheduler.IsForeground i → sys.scheduler.IsForeground j → i = j) ∧
    (ProcessCore.runtimePolicyCanSpawn sys.scheduler.processes true roleForegroundApp = false ↔
      ∃ i, sys.scheduler.IsForeground i) ∧
    ∀ name, (∃ i, sys.scheduler.stateOf i = .unused) → sys.scheduler.nextPid ≠ 0 →
      (sys.scheduler.processSpawnWithRole true name true roleForegroundApp
        = .ok (sys.scheduler, 0) ↔ ∃ i, sys.scheduler.IsForeground i) := by
  refine ⟨fun i j hi hj ↦ ?_, runtimePolicyCanSpawn_foreground _,
    fun name hfree hpid ↦ processSpawnWithRole_foreground h.sound.queue name hfree hpid⟩
  exact h.oneForeground i j hi.counted hi.2.2 hj.counted hj.2.2

/-- Boot code spawns a foreground app, and the policy refuses a second one. -/
theorem single_foreground_refused : ∃ sys trace, Run true sys trace ∧
    sys.scheduler.IsForeground 0 ∧
    ∀ name, sys.scheduler.processSpawnWithRole true name true roleForegroundApp
      = .ok (sys.scheduler, 0) := by
  have hrun : ∃ sys trace, System.run true [.call (.spawn none true roleForegroundApp)]
      (System.boot, []) = .ok (sys, trace) ∧ sys.scheduler.stateOf 0 = .ready ∧
      (sys.scheduler.processes 0).role = roleForegroundApp ∧ sys.scheduler.stateOf 1 = .unused ∧
      sys.scheduler.nextPid = 2 := by
    refine ⟨_, _, rfl, ?_⟩
    decide +kernel
  obtain ⟨sys, trace, hrun, hready, hrole, hunused, hpid⟩ := hrun
  have hreach : Run true sys trace := Run.run (.start rfl) hrun
  have hforeground : sys.scheduler.IsForeground 0 := ⟨by simp [hready], by simp [hready], hrole⟩
  refine ⟨sys, trace, hreach, hforeground, fun name ↦ ?_⟩
  exact ((single_foreground hreach).2.2 name ⟨1, hunused⟩ (by rw [hpid]; decide)).mpr
    ⟨0, hforeground⟩

end TensorOS
