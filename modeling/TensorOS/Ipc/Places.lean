import TensorOS.Ipc.Coop

/-!
# The places of the processes in a run

What the steps do to the places, and the rule that proves an invariant of an object from its rounds.
-/

namespace TensorOS

variable {n : ℕ} {κ σ Op ρ : Type}

/-- One of the processes asleep on the queue is woken, if there is one. -/
def WakesOne (queue : κ) (f f' : Fin n → Place κ) : Prop :=
  (∃ i, f i = .asleep queue ∧ f' = Function.update f i (.woken queue)) ∨
    (∀ i, f i ≠ .asleep queue) ∧ f' = f

/-- Nobody sleeps on the queue, or at least `m` processes woken there are not yet back. -/
def Attended [DecidableEq κ] (m : ℕ) (queue : κ) (f : Fin n → Place κ) : Prop :=
  (∀ i, f i ≠ .asleep queue) ∨ m ≤ tally fun i ↦ f i = .woken queue

namespace Attended

variable [DecidableEq κ] {m : ℕ} {queue queue' : κ} {f f' : Fin n → Place κ} {i : Fin n}
  {p : Place κ}

theorem zero (queue : κ) (f : Fin n → Place κ) : Attended 0 queue f := Or.inr (Nat.zero_le _)

theorem mono (h : Attended m queue f) {m' : ℕ} (hle : m' ≤ m) : Attended m' queue f :=
  h.imp_right hle.trans

theorem one_iff : Attended 1 queue f ↔
    (∀ i, f i ≠ .asleep queue) ∨ ∃ i, f i = .woken queue := by
  rw [Attended, Nat.one_le_iff_ne_zero, ← Nat.pos_iff_ne_zero, tally_pos]

omit [DecidableEq κ] in
/-- A process that does not fall asleep there leaves everybody else asleep or not as they were. -/
theorem none_asleep_update (h : ∀ i, f i ≠ .asleep queue) (hp : p ≠ .asleep queue) (j : Fin n) :
    Function.update f i p j ≠ .asleep queue := by
  by_cases hji : j = i
  · rwa [hji, Function.update_self]
  · rw [Function.update_of_ne hji]
    exact h j

/-- A process moves, but it is not one of the woken and does not fall asleep there. -/
theorem update (h : Attended m queue f) (hf : f i ≠ .woken queue) (hp : p ≠ .asleep queue) :
    Attended m queue (Function.update f i p) := by
  refine h.imp (fun hnone j ↦ none_asleep_update hnone hp j) fun hm ↦ hm.trans ?_
  refine tally_mono fun j hj ↦ ?_
  rw [Function.update_of_ne, hj]
  rintro rfl
  exact hf hj

theorem back (h : Attended m queue f) (hf : f i = .woken queue) (hp : p ≠ .asleep queue)
    (hp' : p ≠ .woken queue) : Attended (m - 1) queue (Function.update f i p) := by
  refine h.imp (fun hnone j ↦ none_asleep_update hnone hp j) fun hm ↦ ?_
  have hlose : (tally fun j ↦ Function.update f i p j = .woken queue) + 1 =
      tally fun j ↦ f j = .woken queue :=
    tally_lose (fun j hj ↦ by rw [Function.update_of_ne hj]) hf (by rwa [Function.update_self])
  omega

theorem wake (h : Attended m queue f) (hi : f i = .asleep queue') :
    Attended m queue (Function.update f i (.woken queue')) :=
  h.update (by simp [hi]) (by simp)

theorem of_wakesOne (h : Attended m queue f) (hwakes : WakesOne queue f f') :
    Attended (m + 1) queue f' := by
  obtain ⟨i, hi, rfl⟩ | ⟨hnone, rfl⟩ := hwakes
  · refine Or.inr ?_
    have hgain : (tally fun j ↦ Function.update f i (.woken queue) j = .woken queue) =
        (tally fun j ↦ f j = .woken queue) + 1 :=
      tally_gain (fun j hj ↦ by rw [Function.update_of_ne hj]) (by simp [hi])
        (Function.update_self ..)
    have hm := h.resolve_left fun hnone ↦ hnone i hi
    omega
  · exact Or.inl hnone

end Attended

namespace Coop

variable [DecidableEq κ] {s t : Coop n κ σ Op ρ} {i : Fin n} {queue : κ} {op : Op}

/-! ## Waking -/

section Wake

variable (h : s.Sound) (hpending : t.pending = s.pending)

include h hpending

theorem Sound.place_wakeOneWaiter (hkernel : t.kernel = s.kernel.wakeOneWaiter queue) :
    WakesOne queue s.place t.place := by
  rw [Kernel.wakeOneWaiter] at hkernel
  split_ifs at hkernel with hcount
  · obtain ⟨i, hi, heq⟩ | ⟨hnone, heq⟩ := Kernel.kernelWaitQueueWakeOne_cases (h.valid queue)
    · have hplace : s.place i = .asleep queue := (h.blockedOn_iff queue i).mp hi
      refine Or.inl ⟨i, hplace, ?_⟩
      rw [place_update_makeReady hpending (hkernel.trans heq), hplace]
      rfl
    · refine Or.inr ⟨fun i hi ↦ ?_, ?_⟩
      · have hb : s.BlockedOn queue i := (h.blockedOn_iff queue i).mpr hi
        simp [BlockedOn, hnone i] at hb
      · funext j
        rw [heq] at hkernel
        exact place_congr (by rw [hpending]) (by rw [hkernel]) (by rw [hkernel])
  · -- the count is 0, so no process is inside `kernel_wait_queue_wait` on this queue
    refine Or.inr ⟨fun i hi ↦ ?_, ?_⟩
    · rw [not_not, Kernel.kernelWaitQueueWaiterCount, if_pos (h.valid queue)] at hcount
      have hzero := h.counts queue
      rw [hcount, UInt32.toNat_zero, eq_comm, tally_eq_zero] at hzero
      obtain ⟨⟨op, hp⟩, -⟩ := place_eq_asleep.mp hi
      exact hzero i (by rw [site, hp, Option.map_some])
    · funext j
      exact place_congr (by rw [hpending]) (by rw [hkernel]) (by rw [hkernel])

theorem Sound.place_wakeAll (hkernel : t.kernel = (s.kernel.kernelWaitQueueWakeAll queue).1) :
    t.place = fun i ↦ if s.place i = .asleep queue then .woken queue else s.place i := by
  rw [Kernel.kernelWaitQueueWakeAll_eq (h.valid queue)] at hkernel
  funext j
  have hj := h.blockedOn_iff queue j
  rw [BlockedOn] at hj
  split_ifs with hasleep
  · rw [place_makeReady hpending (by rw [hkernel])
      (by rw [hkernel]; simp only [hj.mpr hasleep, if_true]), hasleep]
    rfl
  · exact place_congr (by rw [hpending]) (by rw [hkernel]; simp [mt hj.mp hasleep])
      (by rw [hkernel])

omit h [DecidableEq κ] in
theorem place_processWake {pid : UInt32} (hkernel : t.kernel = s.kernel.processWake pid) :
    t.place = s.place ∨
      ∃ i queue, s.place i = .asleep queue ∧
      t.place = Function.update s.place i (.woken queue) := by
  rw [Kernel.processWake] at hkernel
  split at hkernel
  · exact Or.inl (funext fun j ↦ place_congr (by rw [hpending]) (by rw [hkernel]) (by rw [hkernel]))
  · next i _ =>
    rw [place_update_makeReady hpending hkernel]
    cases hi : s.place i with
    | asleep queue => exact Or.inr ⟨i, queue, hi, rfl⟩
    | _ => exact Or.inl (Function.update_eq_self_iff.mpr hi.symm)

end Wake

omit [DecidableEq κ] in
/-- Only one process is running. -/
theorem place_ne_running (hi : s.place i = .running) {j : Fin n} (hj : j ≠ i) :
    s.place j ≠ .running := by
  rw [Ne, place_eq_running, (place_eq_running.mp hi).2, Option.some_inj]
  exact fun h ↦ hj h.2.symm

/-! ## Taking and leaving the processor -/

section Switch

/-- Only the one process is affected, and the queues keep their channels. -/
structure SameOff (i : Fin n) (s t : Coop n κ σ Op ρ) : Prop where
  pending : ∀ j, j ≠ i → t.pending j = s.pending j
  process : ∀ j, j ≠ i → t.kernel.processes j = s.kernel.processes j
  current : ∀ j, j ≠ i → (t.kernel.current = some j ↔ s.kernel.current = some j)
  magic : ∀ queue, (t.kernel.queues queue).magic = (s.kernel.queues queue).magic
  channel : ∀ queue, (t.kernel.queues queue).channel = (s.kernel.queues queue).channel

omit [DecidableEq κ] in
theorem SameOff.place_eq (hsame : SameOff i s t) {p : Place κ} (hi : t.place i = p) :
    t.place = Function.update s.place i p := by
  funext j
  by_cases hj : j = i
  · rw [hj, Function.update_self, hi]
  · rw [Function.update_of_ne hj]
    exact place_congr (hsame.pending j hj) (hsame.process j hj) (hsame.current j hj)

theorem SameOff.sound (hsame : SameOff i s t) (h : s.Sound) (hi : t.Standing i)
    (hcounts : ∀ queue, (t.kernel.queues queue).waiterCount.toNat =
      tally fun i ↦ t.site i = some queue) : t.Sound := by
  refine ⟨fun j ↦ ?_, fun queue ↦ ?_, ?_, hcounts⟩
  · by_cases hj : j = i
    · rwa [hj]
    · exact (h.standing j).congr (hsame.pending j hj) (hsame.process j hj) (hsame.current j hj)
        hsame.channel
  · rw [Kernel.kernelWaitQueueIsValid, hsame.magic]
    exact h.valid queue
  · simpa only [hsame.channel] using h.channels

/-- The count of a queue that the process is not concerned with. -/
theorem SameOff.counts_of_ne (hsame : SameOff i s t) (h : s.Sound)
    (hcount : (t.kernel.queues queue).waiterCount = (s.kernel.queues queue).waiterCount)
    (hs : s.site i ≠ some queue) (ht : t.site i ≠ some queue) :
    (t.kernel.queues queue).waiterCount.toNat = tally fun i ↦ t.site i = some queue := by
  rw [hcount, h.counts queue]
  refine tally_same (i := i) (fun j hj ↦ ?_) (iff_of_false hs ht)
  rw [site, site, hsame.pending j hj]

theorem Sound.switchTo (h : s.Sound) (hcurrent : s.kernel.current = none)
    (hp : s.pending i = none) : { s with kernel := s.kernel.switchTo i }.Sound ∧
      { s with kernel := s.kernel.switchTo i }.place = Function.update s.place i .running := by
  have hsame : SameOff i s { s with kernel := s.kernel.switchTo i } := by
    refine ⟨fun _ _ ↦ rfl, fun j hj ↦ ?_, fun j hj ↦ ?_, fun _ ↦ rfl, fun _ ↦ rfl⟩
    · simp [Kernel.switchTo, hj]
    · simp [Kernel.switchTo, hcurrent, Ne.symm hj]
  refine ⟨hsame.sound h ?_ h.counts, hsame.place_eq (place_eq_running.mpr ⟨hp, rfl⟩)⟩
  rw [standing_of_none (by exact hp)]
  simp [Kernel.switchTo]

theorem Sound.waitFinish (h : s.Sound) (hcurrent : s.kernel.current = none)
    (hp : s.pending i = some (queue, op))
    (hkernel : t.kernel = (s.kernel.switchTo i).kernelWaitQueueWaitFinish queue)
    (hpending : t.pending = Function.update s.pending i none) :
    t.Sound ∧ t.place = Function.update s.place i .running := by
  have hcount := h.counts queue
  have hin : s.site i = some queue := by rw [site, hp, Option.map_some]
  have hpos : 0 < tally fun j ↦ s.site j = some queue := tally_pos.mpr ⟨i, hin⟩
  have hne : (s.kernel.queues queue).waiterCount ≠ 0 := by
    intro hzero
    rw [hzero, UInt32.toNat_zero] at hcount
    omega
  rw [Kernel.kernelWaitQueueWaitFinish] at hkernel
  simp only [Kernel.switchTo, hne, ne_eq, not_false_eq_true, if_true] at hkernel
  have hsame : SameOff i s t := by
    refine ⟨fun j hj ↦ ?_, fun j hj ↦ ?_, fun j hj ↦ ?_, fun q ↦ ?_, fun q ↦ ?_⟩
    · simp [hpending, hj]
    · simp [hkernel, hj]
    · simp [hkernel, hcurrent, Ne.symm hj]
    all_goals
      rw [hkernel]
      by_cases hq : q = queue <;> simp [hq]
  have hnone : t.pending i = none := by simp [hpending]
  have hout : ∀ q, ¬ t.site i = some q := by simp [site, hnone]
  refine ⟨hsame.sound h ?_ fun q ↦ ?_,
    hsame.place_eq (place_eq_running.mpr ⟨hnone, by rw [hkernel]⟩)⟩
  · rw [standing_of_none hnone]
    simp [hkernel]
  by_cases hq : q = queue
  · subst hq
    have hlose : (tally fun j ↦ t.site j = some q) + 1 = tally fun j ↦ s.site j = some q :=
      tally_lose (fun j hj ↦ by rw [site, site, hsame.pending j hj]) hin (hout q)
    have hone : (1 : UInt32) ≤ (s.kernel.queues q).waiterCount := by
      rw [UInt32.le_iff_toNat_le, UInt32.toNat_one]
      omega
    rw [hkernel]
    simp only [Function.update_self]
    rw [UInt32.toNat_sub_of_le _ _ hone, UInt32.toNat_one]
    omega
  · refine hsame.counts_of_ne h (by simp [hkernel, hq]) ?_ (hout q)
    rw [hin, Ne, Option.some_inj]
    exact Ne.symm hq

theorem Sound.processYield (h : s.Sound) (hi : s.place i = .running)
    (hkernel : t.kernel = s.kernel.processYield) (hpending : t.pending = s.pending) :
    t.Sound ∧ t.place = Function.update s.place i .away := by
  obtain ⟨hp, hcurrent⟩ := place_eq_running.mp hi
  simp only [Kernel.processYield, hcurrent] at hkernel
  have hsame : SameOff i s t := by
    refine ⟨fun j _ ↦ ?_, fun j hj ↦ ?_, fun j hj ↦ ?_, fun q ↦ ?_, fun q ↦ ?_⟩
    · rw [hpending]
    · simp [hkernel, hj]
    · simp [hkernel, hcurrent, Ne.symm hj]
    all_goals rw [hkernel]
  have hnone : t.pending i = none := by rw [hpending, hp]
  have haway : t.place i = .away := by
    rw [place_of_none hnone, hkernel]
    rfl
  refine ⟨hsame.sound h ?_ fun q ↦ ?_, hsame.place_eq haway⟩
  · rw [standing_of_none hnone]
    simp [hkernel]
  · rw [hkernel, h.counts q]
    exact tally_congr fun j ↦ by rw [site, site, hpending]

/-- The running process waits on a queue. The count cannot overflow, since a table has less than
`2 ^ 32` entries. -/
theorem Sound.waitStart (h : s.Sound) (hn : n < 2 ^ 32) (hi : s.place i = .running) {next : Op}
    (hkernel : t.kernel = s.kernel.kernelWaitQueueWaitStart queue)
    (hpending : t.pending = Function.update s.pending i (some (queue, next))) :
    t.Sound ∧ t.place = Function.update s.place i (.asleep queue) := by
  obtain ⟨hp, hcurrent⟩ := place_eq_running.mp hi
  rw [Kernel.kernelWaitQueueWaitStart, if_pos (h.valid queue)] at hkernel
  simp only [Kernel.processWaitChannel, hcurrent] at hkernel
  have hsame : SameOff i s t := by
    refine ⟨fun j hj ↦ ?_, fun j hj ↦ ?_, fun j hj ↦ ?_, fun q ↦ ?_, fun q ↦ ?_⟩
    · simp [hpending, hj]
    · simp [hkernel, hj]
    · simp [hkernel, hcurrent, Ne.symm hj]
    all_goals
      rw [hkernel]
      by_cases hq : q = queue <;> simp [hq]
  have hsome : t.pending i = some (queue, next) := by simp [hpending]
  have hblocked : (t.kernel.processes i).state = .blocked := by simp [hkernel, ProcessCore.block]
  refine ⟨hsame.sound h ?_ fun q ↦ ?_,
    hsame.place_eq (place_eq_asleep.mpr ⟨⟨next, hsome⟩, hblocked⟩)⟩
  · rw [standing_of_some hsome, BlockedOn, hsame.channel]
    simp [hkernel, ProcessCore.block, ProcessCore.waitsOn]
  have hin : t.site i = some queue := by rw [site, hsome, Option.map_some]
  have hout : ∀ q, s.site i ≠ some q := by simp [site, hp]
  by_cases hq : q = queue
  · subst hq
    have hgain : (tally fun j ↦ t.site j = some q) = (tally fun j ↦ s.site j = some q) + 1 :=
      tally_gain (fun j hj ↦ by rw [site, site, hsame.pending j hj]) (hout q) hin
    have hle : (tally fun j ↦ t.site j = some q) ≤ n := by simpa using tally_le (ι := Fin n)
    rw [hkernel]
    simp only [Function.update_self]
    rw [UInt32.toNat_add, UInt32.toNat_one, h.counts q, Nat.mod_eq_of_lt (by omega), hgain]
  · refine hsame.counts_of_ne h (by simp [hkernel, hq]) (hout q) ?_
    rw [hin, Ne, Option.some_inj]
    exact Ne.symm hq

end Switch

theorem Fresh.sound (h : s.Fresh) (hvalid : ∀ queue, s.kernel.kernelWaitQueueIsValid queue = true)
    (hchannels : Function.Injective fun queue ↦ (s.kernel.queues queue).channel)
    (hcounts : ∀ queue, (s.kernel.queues queue).waiterCount = 0) : s.Sound := by
  refine ⟨fun i ↦ ?_, hvalid, hchannels, fun queue ↦ ?_⟩
  · rw [standing_of_none (h.pending i), h.current]
    exact ⟨(h.idle i).2, iff_of_false (h.idle i).1 (by simp)⟩
  · rw [hcounts, UInt32.toNat_zero, eq_comm, tally_eq_zero]
    intro i
    simp [site, h.pending i]

omit [DecidableEq κ] in
theorem Fresh.place (h : s.Fresh) : s.place = fun _ ↦ .away := by
  funext i
  rw [place_of_none (h.pending i), h.current, if_neg (by simp)]

end Coop

/-! ## The rule -/

namespace Protocol

open Coop

variable [DecidableEq κ] (P : Protocol n κ σ Op ρ) (Parked : σ → Fin n → κ → Op → Prop)

theorem enter_cases {s t : Coop n κ σ Op ρ} {l : CoopLabel n Op} {next : Option (Fin n × Op)}
    (h : P.enter s l = (t, next)) :
    (next = none ∧ t = s) ∨
    (next = none ∧ ∃ pid, t = { s with kernel := s.kernel.processWake pid }) ∨
    (next = none ∧ ∃ i, s.kernel.current = none ∧ (s.kernel.processes i).state = .ready ∧
      s.pending i = none ∧ t = { s with kernel := s.kernel.switchTo i }) ∨
    (∃ i op, next = some (i, op) ∧ s.place i = .running ∧ P.may s.object i op = true ∧ t = s) ∨
    ∃ i queue op, next = some (i, op) ∧ s.kernel.current = none ∧
      (s.kernel.processes i).state = .ready ∧ s.pending i = some (queue, op) ∧
      s.place i = .woken queue ∧ t = { s with
        kernel := (s.kernel.switchTo i).kernelWaitQueueWaitFinish queue
        pending := Function.update s.pending i none } := by
  cases l with
  | call op =>
    cases hcurrent : s.kernel.current with
    | none =>
      simp only [enter, hcurrent, Prod.mk.injEq] at h
      exact Or.inl ⟨h.2.symm, h.1.symm⟩
    | some i =>
      simp only [enter, hcurrent, Prod.mk.injEq, Option.isNone_iff_eq_none] at h
      split_ifs at h with hmay
      · exact Or.inr (Or.inr (Or.inr (Or.inl ⟨i, op, h.2.symm,
          place_eq_running.mpr ⟨hmay.1, hcurrent⟩, hmay.2, h.1.symm⟩)))
      · exact Or.inl ⟨h.2.symm, h.1.symm⟩
  | resume i =>
    simp only [enter] at h
    split_ifs at h with hready
    · cases hp : s.pending i with
      | none =>
        simp only [hp, Prod.mk.injEq] at h
        exact Or.inr (Or.inr (Or.inl ⟨h.2.symm, i, hready.1, hready.2, hp, h.1.symm⟩))
      | some p =>
        obtain ⟨queue, op⟩ := p
        simp only [hp, Prod.mk.injEq] at h
        have hwoken : s.place i = .woken queue := by
          rw [place_of_some hp, hready.2, if_neg (by decide)]
        exact Or.inr (Or.inr (Or.inr (Or.inr
          ⟨i, queue, op, h.2.symm, hready.1, hready.2, hp, hwoken, h.1.symm⟩)))
    · rw [Prod.mk.injEq] at h
      exact Or.inl ⟨h.2.symm, h.1.symm⟩
  | wake pid =>
    simp only [enter, Prod.mk.injEq] at h
    exact Or.inr (Or.inl ⟨h.2.symm, pid, h.1.symm⟩)

/-- The process makes a call that it may make, or goes on with one in which it waited. In the second
case `f` has it where it was before it came back: among the woken. -/
def Enters (s : Coop n κ σ Op ρ) (i : Fin n) (op : Op) (f : Fin n → Place κ) : Prop :=
  (P.may s.object i op = true ∧ f = s.place) ∨
    ∃ queue, Parked s.object i queue op ∧ f = Function.update s.place i (.woken queue)

section Enters

variable {P Parked} {s : Coop n κ σ Op ρ} {i : Fin n} {op : Op} {f : Fin n → Place κ}
  (h : P.Enters Parked s i op f)

include h

omit [DecidableEq κ] in
/-- The places before the process came back differ from those now at that process only. -/
theorem Enters.update_place (p : Place κ) :
    Function.update s.place i p = Function.update f i p := by
  obtain ⟨-, rfl⟩ | ⟨queue, -, rfl⟩ := h
  · rfl
  · rw [Function.update_idem]

omit [DecidableEq κ] in
theorem Enters.place_eq :
    f = s.place ∨ ∃ queue, f i = .woken queue ∧ Parked s.object i queue op := by
  obtain ⟨-, rfl⟩ | ⟨queue, hq, rfl⟩ := h
  · exact Or.inl rfl
  · exact Or.inr ⟨queue, Function.update_self .., hq⟩

omit [DecidableEq κ] in
theorem Enters.place_of_ne {j : Fin n} (hj : j ≠ i) : f j = s.place j := by
  obtain ⟨-, rfl⟩ | ⟨queue, -, rfl⟩ := h
  · rfl
  · rw [Function.update_of_ne hj]

omit [DecidableEq κ] in
/-- A round with which no process goes on after a wait belongs to a new call. -/
theorem Enters.of_call (hnot : ∀ queue, ¬ Parked s.object i queue op) : f = s.place := by
  obtain heq | ⟨queue, -, hq⟩ := h.place_eq
  · exact heq
  · exact absurd hq (hnot queue)

/-- A process that cannot go on sleeps, again or for the first time: on another queue nothing
changes. -/
theorem Enters.attended_asleep (hi : s.place i = .running) {m : ℕ} {queue queue' : κ}
    (hne : queue ≠ queue') (hparked : ∀ q, Parked s.object i q op → q = queue)
    (ha : Attended m queue' f) : Attended m queue' (Function.update s.place i (.asleep queue)) := by
  rw [h.update_place]
  refine ha.update ?_ (by simpa using hne)
  obtain heq | ⟨q, hfi, hq⟩ := h.place_eq
  · simp [heq, hi]
  · simpa [hfi, hparked q hq] using hne

/-- A process goes on: if it was one of the woken, there is one less. -/
theorem Enters.attended_back (hi : s.place i = .running) {m : ℕ} {queue : κ}
    (ha : Attended m queue f) : Attended (m - 1) queue s.place := by
  have hplace : s.place = Function.update f i .running := by
    rw [← h.update_place, ← hi, Function.update_eq_self]
  by_cases hfi : f i = .woken queue
  · rw [hplace]
    exact ha.back hfi (by simp) (by simp)
  · rw [hplace]
    exact (ha.update hfi (by simp)).mono (Nat.sub_le _ _)

end Enters

/-- Rounds wake processes and do nothing else to the kernel, and `Parked` tells with what a process
goes on that waits. -/
structure Lawful : Prop where
  wakes : ∀ i op (k : Kernel n κ) x, k.Wakes (P.round i op k x).1
  parks : ∀ {i op k x queue next}, (P.may x i op = true ∨ ∃ queue, Parked x i queue op) →
    (P.round i op k x).2.2 = .waits queue next → Parked (P.round i op k x).2.1 i queue next
  stays : ∀ {i op k x j queue next}, j ≠ i → Parked x j queue next →
    Parked (P.round i op k x).2.1 j queue next

/-- What has to hold at the end of a round. -/
def Settles (J : (Fin n → Place κ) → σ → List (Fin n × ρ) → Prop) (i : Fin n)
    (f : Fin n → Place κ) (x : σ) (log : List (Fin n × ρ)) : Outcome κ Op ρ → Prop
  | .returns result => J f x (log ++ [(i, result)])
  | .yields result => J (Function.update f i .away) x (log ++ [(i, result)])
  | .waits queue _ => J (Function.update f i (.asleep queue)) x log

/-- What has to be proved of an object's invariant `J`, a property of the pids, the places, the
object and the log. Rounds are done under the condition `cond`. -/
structure Keeps (cond : Coop n κ σ Op ρ → Fin n → Op → Prop)
    (J : (Fin n → Option UInt32) → (Fin n → Place κ) → σ → List (Fin n × ρ) → Prop) : Prop where
  wake : ∀ {pids f x log i queue}, J pids f x log → f i = .asleep queue →
    J pids (Function.update f i (.woken queue)) x log
  switch : ∀ {pids f x log i}, J pids f x log → (∀ j, f j ≠ .running) → f i = .away →
    J pids (Function.update f i .running) x log
  round : ∀ {s i op f}, s.Sound → s.place i = .running → cond s i op →
    P.Enters Parked s i op f → J s.pids f s.object s.log →
    Settles (J s.pids) i { s with kernel := (P.round i op s.kernel s.object).1 }.place
      (P.round i op s.kernel s.object).2.1 s.log (P.round i op s.kernel s.object).2.2

/-- The invariant of a run: the kernel's, the object's, and what the waiting processes go on with.
-/
structure Good (J : (Fin n → Option UInt32) → (Fin n → Place κ) → σ → List (Fin n × ρ) → Prop)
    (s : Coop n κ σ Op ρ) : Prop where
  sound : s.Sound
  object : J s.pids s.place s.object s.log
  parked : ∀ i queue op, s.pending i = some (queue, op) → Parked s.object i queue op

variable {P Parked} {cond : Coop n κ σ Op ρ → Fin n → Op → Prop}
  {J : (Fin n → Option UInt32) → (Fin n → Place κ) → σ → List (Fin n × ρ) → Prop}
  {s : Coop n κ σ Op ρ}

theorem Good.of_pids {pids : Fin n → Option UInt32} (hsound : s.Sound)
    (hpids : ∀ i, (s.kernel.processes i).ident = pids i) (hobject : J pids s.place s.object s.log)
    (hparked : ∀ i queue op, s.pending i = some (queue, op) → Parked s.object i queue op) :
    Good Parked J s := by
  obtain rfl : s.pids = pids := funext hpids
  exact ⟨hsound, hobject, hparked⟩

/-- The end of a round. -/
theorem Keeps.perform (hJ : P.Keeps Parked cond J) (L : P.Lawful Parked) (hn : n < 2 ^ 32)
    {i : Fin n} {op : Op} {f : Fin n → Place κ} (hsound : s.Sound) (hi : s.place i = .running)
    (hcond : cond s i op) (henters : P.Enters Parked s i op f)
    (hobject : J s.pids f s.object s.log)
    (hparked : ∀ j queue op, s.pending j = some (queue, op) → Parked s.object j queue op) :
    Good Parked J (P.perform s i op) := by
  have hsettles := hJ.round hsound hi hcond henters hobject
  have hwakes := L.wakes i op s.kernel s.object
  have hsound' : { s with kernel := (P.round i op s.kernel s.object).1 }.Sound :=
    hsound.wakes rfl hwakes
  have hi' : { s with kernel := (P.round i op s.kernel s.object).1 }.place i = .running := by
    obtain ⟨hp, hcurrent⟩ := place_eq_running.mp hi
    exact place_eq_running.mpr ⟨hp, hwakes.current.trans hcurrent⟩
  obtain ⟨hnone, hcurrent⟩ := place_eq_running.mp hi'
  have hused : ((P.round i op s.kernel s.object).1.processes i).state ≠ .unused := by
    have hrunning := ((standing_of_none hnone).mp (hsound'.standing i)).2.mpr hcurrent
    exact fun hunused ↦ absurd (hrunning.symm.trans hunused) (by decide)
  have hentry : P.may s.object i op = true ∨ ∃ queue, Parked s.object i queue op := by
    obtain ⟨hmay, -⟩ | ⟨queue, hq, -⟩ := henters
    · exact Or.inl hmay
    · exact Or.inr ⟨queue, hq⟩
  have hparks : ∀ queue next, (P.round i op s.kernel s.object).2.2 = .waits queue next →
      Parked (P.round i op s.kernel s.object).2.1 i queue next :=
    fun queue next hwaits ↦ L.parks hentry hwaits
  have hstays : ∀ j queue next, s.pending j = some (queue, next) →
      Parked (P.round i op s.kernel s.object).2.1 j queue next := by
    intro j queue next hp
    refine L.stays ?_ (hparked j queue next hp)
    rintro rfl
    rw [(place_eq_running.mp hi).1] at hp
    cases hp
  rw [Protocol.perform]
  generalize P.round i op s.kernel s.object = r at *
  obtain ⟨kernel, object, outcome⟩ := r
  cases outcome with
  | returns result =>
    exact .of_pids (hsound'.wakes rfl (.refl _)) hwakes.ident hsettles hstays
  | yields result =>
    obtain ⟨hs, hplace⟩ := hsound'.processYield (t := { s with
      kernel := kernel.processYield, object := object, log := s.log ++ [(i, result)] }) hi' rfl rfl
    refine .of_pids hs (fun j ↦
      (Kernel.processYield_ident hcurrent hused j).trans (hwakes.ident j)) ?_ hstays
    rw [hplace]
    exact hsettles
  | waits queue next =>
    obtain ⟨hs, hplace⟩ := hsound'.waitStart (t := { s with
      kernel := kernel.kernelWaitQueueWaitStart queue, object := object,
      pending := Function.update s.pending i (some (queue, next)) }) hn hi' rfl rfl
    refine .of_pids hs (fun j ↦
      (Kernel.kernelWaitQueueWaitStart_ident hcurrent hused queue j).trans (hwakes.ident j))
      ?_ fun j queue' next' hp ↦ ?_
    · rw [hplace]
      exact hsettles
    change Function.update s.pending i (some (queue, next)) j = some (queue', next') at hp
    by_cases hj : j = i
    · subst hj
      rw [Function.update_self, Option.some_inj, Prod.mk.injEq] at hp
      obtain ⟨rfl, rfl⟩ := hp
      exact hparks _ _ rfl
    · rw [Function.update_of_ne hj] at hp
      exact hstays j queue' next' hp

/-- **A step keeps the invariant.** -/
theorem Keeps.step (hJ : P.Keeps Parked cond J) (L : P.Lawful Parked) (hn : n < 2 ^ 32)
    (h : Good Parked J s) {l : CoopLabel n Op}
    (hcond : ∀ t i op, P.enter s l = (t, some (i, op)) → cond t i op) :
    Good Parked J (P.step s l) := by
  rw [Protocol.step]
  rcases henter : P.enter s l with ⟨t, next⟩
  obtain ⟨rfl, rfl⟩ | ⟨rfl, pid, rfl⟩ | ⟨rfl, i, hcurrent, hready, hp, rfl⟩ |
    ⟨i, op, rfl, hi, hmay, rfl⟩ | ⟨i, queue, op, rfl, hcurrent, hready, hp, hwoken, rfl⟩ :=
    P.enter_cases henter
  · exact h
  · have hwakes := s.kernel.wakes_processWake pid
    refine .of_pids (h.sound.wakes rfl hwakes) hwakes.ident ?_ h.parked
    obtain heq | ⟨i, queue, hi, heq⟩ := place_processWake (s := s)
      (t := { s with kernel := s.kernel.processWake pid }) rfl rfl
    · rw [heq]
      exact h.object
    · rw [heq]
      exact hJ.wake h.object hi
  · obtain ⟨hs, hplace⟩ := h.sound.switchTo hcurrent hp
    refine .of_pids hs (Kernel.switchTo_ident (by simp [hready])) ?_ h.parked
    rw [hplace]
    refine hJ.switch h.object (fun j hj ↦ ?_) ?_
    · rw [place_eq_running, hcurrent] at hj
      cases hj.2
    · rw [place_of_none hp, hcurrent, if_neg (by simp)]
  · exact hJ.perform L hn h.sound hi (hcond _ i op henter) (Or.inl ⟨hmay, rfl⟩) h.object h.parked
  · obtain ⟨hs, hplace⟩ := h.sound.waitFinish (t := { s with
      kernel := (s.kernel.switchTo i).kernelWaitQueueWaitFinish queue
      pending := Function.update s.pending i none }) hcurrent hp rfl rfl
    have hpids : ∀ j, (((s.kernel.switchTo i).kernelWaitQueueWaitFinish queue).processes j).ident
        = s.pids j := fun j ↦ by
      rw [Kernel.kernelWaitQueueWaitFinish_processes, Kernel.switchTo_ident (by simp [hready]),
        Coop.pids]
    refine hJ.perform (f := s.place) L hn hs (by rw [hplace, Function.update_self])
      (hcond _ i op henter) (Or.inr ⟨queue, h.parked i queue op hp, ?_⟩) ?_
      fun j queue' op' hp' ↦ ?_
    · rw [hplace, Function.update_idem, ← hwoken, Function.update_eq_self]
    · rw [show Coop.pids { s with
          kernel := (s.kernel.switchTo i).kernelWaitQueueWaitFinish queue
          pending := Function.update s.pending i none } = s.pids from funext hpids]
      exact h.object
    · refine h.parked j queue' op' ?_
      change Function.update s.pending i none j = some (queue', op') at hp'
      by_cases hj : j = i
      · subst hj
        rw [Function.update_self] at hp'
        cases hp'
      · rwa [Function.update_of_ne hj] at hp'

/-- **The rule.** An invariant that the rounds of an object keep holds in every run. -/
theorem Keeps.reaches (hJ : P.Keeps Parked cond J) (L : P.Lawful Parked) (hn : n < 2 ^ 32)
    {start : Coop n κ σ Op ρ → Prop} {ok : Coop n κ σ Op ρ → CoopLabel n Op → Prop}
    (hstart : ∀ s, start s → Good Parked J s)
    (hok : ∀ s l t i op, ok s l → P.enter s l = (t, some (i, op)) → cond t i op)
    (h : P.Reaches start ok s) : Good Parked J s := by
  refine Reachable.invariant hstart (fun s t hs hstep ↦ ?_) h
  obtain ⟨l, hl, rfl⟩ := hstep
  exact hJ.step L hn hs fun t i op henter ↦ hok s l t i op hl henter

end Protocol

end TensorOS
