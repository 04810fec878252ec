import TensorOS.Lib.Ledger
import TensorOS.Lib.Transition
import TensorOS.Ui.Events

/-!
# Timers of the user interface

`runtime_ui.c`. A process arms timers, each named by a token of its own, and when a timer is due it
becomes an event in a ring of sixteen. There is room for eight timers. Arming a timer that is active
moves its due tick; collecting the due timers stops as soon as the ring is full.

A run is recorded in a ledger (`UiState.ledger`): an arming puts the due tick under the owner and
the token, a cancelling drops it, and an event takes it, with its own tick as the receipt. The
table of timers holds what is pending in the ledger (`TimersMatch`), so each arming is followed by
exactly one of the outcomes that it may have (`timers_fire_once`).
-/

namespace TensorOS

/-! ## Timers -/

/-- `struct runtime_ui_timer_entry`. -/
structure RuntimeUiTimerEntry where
  ownerPid : UInt32
  dueTick : UInt32
  token : UInt32
  active : UInt8
  deriving DecidableEq

/-- `struct runtime_ui_timer_table`. -/
structure RuntimeUiTimerTable where
  entries : Fin 8 → RuntimeUiTimerEntry

/-- An entry that is not active. -/
def RuntimeUiTimerEntry.zero : RuntimeUiTimerEntry where
  ownerPid := 0
  dueTick := 0
  token := 0
  active := 0

/-- `runtime_ui_timer_table_init`. -/
def runtimeUiTimerTableInit : RuntimeUiTimerTable where
  entries := fun _ ↦ .zero

/-- Replace one entry. -/
def RuntimeUiTimerTable.set (table : RuntimeUiTimerTable) (i : Fin 8)
    (entry : RuntimeUiTimerEntry) : RuntimeUiTimerTable :=
  { table with entries := Function.update table.entries i entry }

/-- The entry is the active timer of a process with a token. -/
def RuntimeUiTimerEntry.IsTimer (entry : RuntimeUiTimerEntry) (ownerPid token : UInt32) : Prop :=
  entry.active ≠ 0 ∧ entry.ownerPid = ownerPid ∧ entry.token = token

instance (entry : RuntimeUiTimerEntry) (ownerPid token : UInt32) :
    Decidable (entry.IsTimer ownerPid token) :=
  inferInstanceAs (Decidable (_ ∧ _))

/-- The loop that looks for a timer. -/
def RuntimeUiTimerTable.find (table : RuntimeUiTimerTable) (ownerPid token : UInt32) :
    Option (Fin 8) :=
  (List.finRange 8).find? fun i ↦ (table.entries i).IsTimer ownerPid token

/-- `runtime_ui_timer_arm`. -/
def runtimeUiTimerArm (table : RuntimeUiTimerTable) (ownerPid dueTick token : UInt32) :
    Int × RuntimeUiTimerTable :=
  if ownerPid = 0 then (Status.einval, table)
  else
    match table.find ownerPid token with
    | some i => (Status.ok, table.set i { table.entries i with dueTick := dueTick })
    | none =>
      match (List.finRange 8).find? fun i ↦ (table.entries i).active = 0 with
      | some i => (Status.ok, table.set i ⟨ownerPid, dueTick, token, 1⟩)
      | none => (Status.enospc, table)

/-- `runtime_ui_timer_cancel`. -/
def runtimeUiTimerCancel (table : RuntimeUiTimerTable) (ownerPid token : UInt32) :
    Int × RuntimeUiTimerTable :=
  if ownerPid = 0 then (Status.einval, table)
  else
    match table.find ownerPid token with
    | some i => (Status.ok, table.set i .zero)
    | none => (Status.enoent, table)

/-- The loop of `runtime_ui_timer_next_due`, with the best due tick so far. -/
def nextDueLoop (table : RuntimeUiTimerTable) : List (Fin 8) → Option UInt32 → Option UInt32
  | [], best => best
  | i :: rest, best =>
    if (table.entries i).active = 0 then nextDueLoop table rest best
    else if best.all fun due ↦ (table.entries i).dueTick < due then
      nextDueLoop table rest (some (table.entries i).dueTick)
    else nextDueLoop table rest best

/-- `runtime_ui_timer_next_due`: the due tick is there when the status is `OK`. -/
def runtimeUiTimerNextDue (table : RuntimeUiTimerTable) : Int × Option UInt32 :=
  match nextDueLoop table (List.finRange 8) none with
  | none => (Status.enoent, none)
  | some due => (Status.ok, some due)

/-- The event of a timer that is due. -/
def timerEvent (entry : RuntimeUiTimerEntry) (currentTick : UInt32) : RuntimeUiEvent where
  type := uiEventTimer
  targetPid := entry.ownerPid
  tick := currentTick
  arg0 := entry.token
  arg1 := entry.dueTick
  arg2 := 0

/-- The loop of `runtime_ui_timer_collect_due`. -/
def collectDueLoop (currentTick : UInt32) : List (Fin 8) → ℕ → RuntimeUiTimerTable →
    RuntimeUiEventQueue → ℕ × RuntimeUiTimerTable × RuntimeUiEventQueue
  | [], produced, table, queue => (produced, table, queue)
  | i :: rest, produced, table, queue =>
    if (table.entries i).active = 0 ∨ currentTick < (table.entries i).dueTick then
      collectDueLoop currentTick rest produced table queue
    else
      let (status, queue') := runtimeUiEventPush queue (timerEvent (table.entries i) currentTick)
      if status ≠ Status.ok then (produced, table, queue')
      else collectDueLoop currentTick rest (produced + 1) (table.set i .zero) queue'

/-- `runtime_ui_timer_collect_due`. -/
def runtimeUiTimerCollectDue (table : RuntimeUiTimerTable) (currentTick : UInt32)
    (queue : RuntimeUiEventQueue) : ℕ × RuntimeUiTimerTable × RuntimeUiEventQueue :=
  collectDueLoop currentTick (List.finRange 8) 0 table queue

/-! ## The table and the ledger -/

/-- The ledger of the timers: the keys are owners and tokens, the values due ticks, and the receipts
the ticks of the events. -/
abbrev TimerLedger := List (LedgerEntry (UInt32 × UInt32) UInt32 UInt32)

/-- The table holds what is pending in the ledger, and each timer once. -/
structure TimersMatch (table : RuntimeUiTimerTable) (ledger : TimerLedger) : Prop where
  valid : Ledger.Valid (fun due tick ↦ due ≤ tick) ledger
  unique : ∀ {i j owner token}, (table.entries i).IsTimer owner token →
    (table.entries j).IsTimer owner token → i = j
  pending_iff : ∀ {owner token due}, Ledger.pending ledger (owner, token) = some due ↔
    ∃ i, (table.entries i).IsTimer owner token ∧ (table.entries i).dueTick = due

section Match

variable {table : RuntimeUiTimerTable} {ledger : TimerLedger} {i j : Fin 8}
  {owner token due : UInt32}

namespace RuntimeUiTimerTable

theorem set_entries_self (table : RuntimeUiTimerTable) (i : Fin 8) (entry : RuntimeUiTimerEntry) :
    (table.set i entry).entries i = entry :=
  Function.update_self ..

theorem set_entries_of_ne (h : j ≠ i) (entry : RuntimeUiTimerEntry) :
    (table.set i entry).entries j = table.entries j :=
  Function.update_of_ne h ..

theorem find_eq_some (h : table.find owner token = some i) :
    (table.entries i).IsTimer owner token := by
  simpa using List.find?_some h

theorem find_eq_none (h : table.find owner token = none) (i : Fin 8) :
    ¬ (table.entries i).IsTimer owner token := by
  simpa using List.find?_eq_none.mp h i (List.mem_finRange i)

end RuntimeUiTimerTable

/-- Only its own key is that of a timer. -/
theorem RuntimeUiTimerEntry.IsTimer.key {entry : RuntimeUiTimerEntry}
    {owner' token' : UInt32} (h : entry.IsTimer owner token) (h' : entry.IsTimer owner' token') :
    (owner, token) = (owner', token') := by
  rw [← h.2.1, ← h.2.2, h'.2.1, h'.2.2]

/-- **An arming**, of a timer that is active or in an entry that is not. -/
theorem TimersMatch.put (h : TimersMatch table ledger) {entry : RuntimeUiTimerEntry}
    (hentry : entry.IsTimer owner token)
    (hplace : (table.entries i).IsTimer owner token ∨
      ((table.entries i).active = 0 ∧ ∀ j, ¬ (table.entries j).IsTimer owner token)) :
    TimersMatch (table.set i entry) (ledger ++ [.put (owner, token) entry.dueTick]) := by
  -- the timers other than this one are where they were
  have hothers : ∀ {j owner' token'}, (owner', token') ≠ (owner, token) →
      (((table.set i entry).entries j).IsTimer owner' token' ↔
        (table.entries j).IsTimer owner' token') ∧
      ((table.entries j).IsTimer owner' token' → j ≠ i) := by
    intro j owner' token' hkey
    have hji : (table.entries j).IsTimer owner' token' → j ≠ i := by
      rintro hj rfl
      obtain hold | ⟨hfree, -⟩ := hplace
      · exact hkey (hj.key hold)
      · exact hj.1 hfree
    refine ⟨?_, hji⟩
    by_cases heq : j = i
    · subst heq
      rw [RuntimeUiTimerTable.set_entries_self]
      exact iff_of_false (fun hj ↦ hkey (hj.key hentry)) fun hj ↦ hji hj rfl
    · rw [RuntimeUiTimerTable.set_entries_of_ne heq]
  have hself : ∀ {j}, ((table.set i entry).entries j).IsTimer owner token ↔ j = i := by
    intro j
    by_cases heq : j = i
    · subst heq
      rw [RuntimeUiTimerTable.set_entries_self]
      exact iff_of_true hentry rfl
    · rw [RuntimeUiTimerTable.set_entries_of_ne heq]
      refine iff_of_false (fun hj ↦ ?_) heq
      obtain hold | ⟨-, hnone⟩ := hplace
      · exact heq (h.unique hj hold)
      · exact hnone j hj
  constructor
  · exact .snoc h.valid trivial
  · intro a b owner' token' ha hb
    by_cases hkey : (owner', token') = (owner, token)
    · cases hkey
      exact (hself.mp ha).trans (hself.mp hb).symm
    · exact h.unique ((hothers hkey).1.mp ha) ((hothers hkey).1.mp hb)
  · intro owner' token' due'
    by_cases hkey : (owner', token') = (owner, token)
    · cases hkey
      rw [show Ledger.pending (ledger ++ [.put (owner, token) entry.dueTick]) (owner, token) =
        some entry.dueTick from Ledger.pending_snoc_self rfl]
      constructor
      · rintro ⟨⟩
        exact ⟨i, hself.mpr rfl, by rw [RuntimeUiTimerTable.set_entries_self]⟩
      · rintro ⟨j, hj, rfl⟩
        rw [hself.mp hj, RuntimeUiTimerTable.set_entries_self]
    · rw [Ledger.pending_snoc_of_ne (Ne.symm hkey), h.pending_iff]
      constructor
      · rintro ⟨j, hj, rfl⟩
        refine ⟨j, (hothers hkey).1.mpr hj, ?_⟩
        rw [RuntimeUiTimerTable.set_entries_of_ne ((hothers hkey).2 hj)]
      · rintro ⟨j, hj, rfl⟩
        have hold := (hothers hkey).1.mp hj
        refine ⟨j, hold, ?_⟩
        rw [RuntimeUiTimerTable.set_entries_of_ne ((hothers hkey).2 hold)]

/-- **A timer is cleared**, because it is cancelled or because it is due. -/
theorem TimersMatch.clear (h : TimersMatch table ledger)
    (hi : (table.entries i).IsTimer owner token)
    {record : LedgerEntry (UInt32 × UInt32) UInt32 UInt32} (hkey : record.key = (owner, token))
    (hvalue : record.value = none)
    (hallows : Ledger.Allows (fun due tick ↦ due ≤ tick) ledger record) :
    TimersMatch (table.set i .zero) (ledger ++ [record]) := by
  have hiff : ∀ {j owner' token'}, ((table.set i .zero).entries j).IsTimer owner' token' ↔
      j ≠ i ∧ (table.entries j).IsTimer owner' token' := by
    intro j owner' token'
    by_cases heq : j = i
    · subst heq
      rw [RuntimeUiTimerTable.set_entries_self]
      exact iff_of_false (fun hj ↦ hj.1 rfl) fun hj ↦ hj.1 rfl
    · rw [RuntimeUiTimerTable.set_entries_of_ne heq]
      exact (and_iff_right heq).symm
  constructor
  · exact .snoc h.valid hallows
  · intro a b owner' token' ha hb
    exact h.unique (hiff.mp ha).2 (hiff.mp hb).2
  · intro owner' token' due'
    rw [Ledger.pending_snoc, hkey]
    split
    · next heq =>
      cases heq
      rw [hvalue]
      refine iff_of_false (fun hnone ↦ by cases hnone) ?_
      rintro ⟨j, hj, -⟩
      exact (hiff.mp hj).1 (h.unique (hiff.mp hj).2 hi)
    · next hne =>
      rw [h.pending_iff]
      constructor
      · rintro ⟨j, hj, rfl⟩
        have hji : j ≠ i := by
          rintro rfl
          exact hne (hi.key hj)
        exact ⟨j, hiff.mpr ⟨hji, hj⟩, by rw [RuntimeUiTimerTable.set_entries_of_ne hji]⟩
      · rintro ⟨j, hj, rfl⟩
        obtain ⟨hji, hold⟩ := hiff.mp hj
        exact ⟨j, hold, by rw [RuntimeUiTimerTable.set_entries_of_ne hji]⟩

end Match

/-! ## Collecting -/

/-- What the event of a timer says about it. -/
def firedRecord (event : RuntimeUiEvent) : LedgerEntry (UInt32 × UInt32) UInt32 UInt32 :=
  .take (event.targetPid, event.arg0) event.arg1 event.tick

/-- The event that an entry of the ledger stands for. -/
def recordedEvent : LedgerEntry (UInt32 × UInt32) UInt32 UInt32 → Option RuntimeUiEvent
  | .take (owner, token) due tick => some
      { type := uiEventTimer
        targetPid := owner
        tick := tick
        arg0 := token
        arg1 := due
        arg2 := 0 }
  | .put _ _ | .drop _ => none

section Collect

variable {table : RuntimeUiTimerTable} {queue : RuntimeUiEventQueue} {ledger : TimerLedger}
  {tick : UInt32} {l : List (Fin 8)} {produced : ℕ}

/-- The entry is a timer that is due. -/
def RuntimeUiTimerTable.Due (table : RuntimeUiTimerTable) (tick : UInt32) (i : Fin 8) : Prop :=
  (table.entries i).active ≠ 0 ∧ (table.entries i).dueTick ≤ tick

theorem not_due_iff {i : Fin 8} : ¬ table.Due tick i ↔
    (table.entries i).active = 0 ∨ tick < (table.entries i).dueTick := by
  rw [RuntimeUiTimerTable.Due, not_and_or, not_not, UInt32.not_le]

theorem collectDueLoop_of_not_due {i : Fin 8} (h : ¬ table.Due tick i) :
    collectDueLoop tick (i :: l) produced table queue =
      collectDueLoop tick l produced table queue := by
  rw [collectDueLoop, if_pos (not_due_iff.mp h)]

theorem collectDueLoop_of_full {i : Fin 8} (h : table.Due tick i) (hfull : 16 ≤ queue.count) :
    collectDueLoop tick (i :: l) produced table queue = (produced, table, queue) := by
  rw [collectDueLoop, if_neg (not_due_iff.not.mp (not_not.mpr h)),
    RuntimeUiEventQueue.push_of_full (timerEvent (table.entries i) tick) hfull
      (by decide : uiEventTimer ≠ uiEventNone)]
  rfl

theorem collectDueLoop_of_room {i : Fin 8} (h : table.Due tick i) (hroom : queue.count < 16) :
    collectDueLoop tick (i :: l) produced table queue =
      collectDueLoop tick l (produced + 1) (table.set i .zero)
        (runtimeUiEventPush queue (timerEvent (table.entries i) tick)).2 := by
  obtain ⟨hok, -, -⟩ := RuntimeUiEventQueue.push_of_room (timerEvent (table.entries i) tick)
    hroom (by decide : uiEventTimer ≠ uiEventNone)
  rw [collectDueLoop, if_neg (not_due_iff.not.mp (not_not.mpr h))]
  dsimp only
  rw [hok]
  rfl

/-- **A full ring loses nothing**: the timers stay as they are. -/
theorem collectDueLoop_full (hfull : 16 ≤ queue.count) :
    collectDueLoop tick l produced table queue = (produced, table, queue) := by
  induction l with
  | nil => rfl
  | cons i l ih =>
    by_cases hdue : table.Due tick i
    · exact collectDueLoop_of_full hdue hfull
    · rw [collectDueLoop_of_not_due hdue, ih]

/-- **Collecting** pushes events for timers that are due, clears these timers, and leaves the
others as they are. -/
theorem TimersMatch.collectDueLoop (h : TimersMatch table ledger) (hcount : queue.count ≤ 16) :
    ∃ events, (collectDueLoop tick l produced table queue).2.2.contents =
        queue.contents ++ events ∧
      (collectDueLoop tick l produced table queue).1 = produced + events.length ∧
      (collectDueLoop tick l produced table queue).2.2.count ≤ 16 ∧
      TimersMatch (collectDueLoop tick l produced table queue).2.1
        (ledger ++ events.map firedRecord) ∧
      (events.map firedRecord).filterMap recordedEvent = events := by
  induction l generalizing produced table queue ledger with
  | nil =>
    refine ⟨[], (List.append_nil _).symm, rfl, hcount, ?_, rfl⟩
    rw [List.map_nil, List.append_nil]
    exact h
  | cons i l ih =>
    by_cases hdue : table.Due tick i
    · obtain hfull | hroom := Nat.lt_or_ge 15 queue.count
      · rw [collectDueLoop_of_full hdue hfull]
        refine ⟨[], (List.append_nil _).symm, rfl, hcount, ?_, rfl⟩
        rw [List.map_nil, List.append_nil]
        exact h
      · -- the event of this timer, and then those of the others
        rw [collectDueLoop_of_room hdue (by omega)]
        obtain ⟨-, hcount', hcontents⟩ := RuntimeUiEventQueue.push_of_room
          (timerEvent (table.entries i) tick) (by omega : queue.count < 16)
          (by decide : uiEventTimer ≠ uiEventNone)
        have hi : (table.entries i).IsTimer (table.entries i).ownerPid (table.entries i).token :=
          ⟨hdue.1, rfl, rfl⟩
        have hcleared : TimersMatch (table.set i .zero)
            (ledger ++ [firedRecord (timerEvent (table.entries i) tick)]) := by
          refine h.clear hi rfl rfl ⟨?_, hdue.2⟩
          exact h.pending_iff.mpr ⟨i, hi, rfl⟩
        have hle' : (runtimeUiEventPush queue (timerEvent (table.entries i) tick)).2.count
            ≤ 16 := by
          omega
        obtain ⟨events, hqueue, hproduced, hle, hmatch, hevents⟩ := ih hcleared hle'
        refine ⟨timerEvent (table.entries i) tick :: events, ?_, ?_, hle, ?_, ?_⟩
        · rw [hqueue, hcontents, List.append_assoc]
          rfl
        · rw [hproduced, List.length_cons]
          omega
        · rw [List.append_assoc] at hmatch
          exact hmatch
        · rw [List.map_cons, List.filterMap_cons]
          simp only [firedRecord, recordedEvent]
          rw [hevents]
          rfl
    · rw [collectDueLoop_of_not_due hdue]
      exact ih h hcount

theorem le_collectDueLoop : produced ≤ (collectDueLoop tick l produced table queue).1 := by
  induction l generalizing produced table queue with
  | nil => exact le_rfl
  | cons i l ih =>
    by_cases hdue : table.Due tick i
    · obtain hfull | hroom := Nat.lt_or_ge 15 queue.count
      · rw [collectDueLoop_of_full hdue hfull]
      · rw [collectDueLoop_of_room hdue (by omega)]
        exact (Nat.le_succ _).trans ih
    · rw [collectDueLoop_of_not_due hdue]
      exact ih

/-- With room in the ring an event is produced exactly if a timer is due. -/
theorem lt_collectDueLoop_iff (hroom : queue.count < 16) :
    produced < (collectDueLoop tick l produced table queue).1 ↔ ∃ i ∈ l, table.Due tick i := by
  induction l with
  | nil => simp [collectDueLoop]
  | cons i l ih =>
    by_cases hdue : table.Due tick i
    · rw [collectDueLoop_of_room hdue hroom]
      exact iff_of_true (Nat.lt_of_succ_le le_collectDueLoop) ⟨i, List.mem_cons_self, hdue⟩
    · rw [collectDueLoop_of_not_due hdue, ih]
      simp [hdue]

theorem nextDueLoop_le_iff {best : Option UInt32} :
    (∃ due, nextDueLoop table l best = some due ∧ due ≤ tick) ↔
      (∃ due, best = some due ∧ due ≤ tick) ∨ ∃ i ∈ l, table.Due tick i := by
  induction l generalizing best with
  | nil => simp [nextDueLoop]
  | cons i l ih =>
    rw [nextDueLoop]
    split
    · next hinactive =>
      rw [ih]
      simp [RuntimeUiTimerTable.Due, hinactive]
    · next hactive =>
      have hdue : table.Due tick i ↔ (table.entries i).dueTick ≤ tick := and_iff_right hactive
      rw [List.exists_mem_cons_iff, hdue]
      split
      -- this timer is the best so far
      · next hbest =>
        rw [ih, ← or_assoc]
        refine or_congr_left ⟨fun ⟨due, heq, hle⟩ ↦ ?_, fun h ↦ ⟨_, rfl, ?_⟩⟩
        · cases heq
          exact Or.inr hle
        · obtain ⟨due, rfl, hle⟩ | hle := h
          · have hlt : (table.entries i).dueTick < due := by simpa using hbest
            exact UInt32.le_trans (UInt32.le_of_lt hlt) hle
          · exact hle
      -- an earlier one is as good
      · next hbest =>
        rw [ih, ← or_assoc]
        refine or_congr_left ⟨Or.inl, fun h ↦ h.elim id fun hle ↦ ?_⟩
        cases best with
        | none => simp at hbest
        | some due =>
          have hge : due ≤ (table.entries i).dueTick := by simpa using hbest
          exact ⟨due, rfl, UInt32.le_trans hge hle⟩

end Collect

/-! ## Runs -/

/-- The timers, the ring, the ledger of the run, and the events that were popped. -/
structure UiState where
  timers : RuntimeUiTimerTable
  queue : RuntimeUiEventQueue
  ledger : TimerLedger
  popped : List RuntimeUiEvent

/-- The calls. -/
inductive UiCall
  | arm (ownerPid dueTick token : UInt32)
  | cancel (ownerPid token : UInt32)
  | collectDue (currentTick : UInt32)
  | pop

/-- A call, and what it adds to the records: an arming or a cancelling that returned `OK`, the
events that are new in the ring, or the event that was popped. -/
def UiCall.run (call : UiCall) (s : UiState) : UiState :=
  match call with
  | arm ownerPid dueTick token =>
    let (status, timers) := runtimeUiTimerArm s.timers ownerPid dueTick token
    { s with
      timers := timers
      ledger := s.ledger ++ if status = Status.ok then [.put (ownerPid, token) dueTick] else [] }
  | cancel ownerPid token =>
    let (status, timers) := runtimeUiTimerCancel s.timers ownerPid token
    { s with
      timers := timers
      ledger := s.ledger ++ if status = Status.ok then [.drop (ownerPid, token)] else [] }
  | collectDue currentTick =>
    let (_, timers, queue) := runtimeUiTimerCollectDue s.timers currentTick s.queue
    { s with
      timers := timers
      queue := queue
      ledger := s.ledger ++ (queue.contents.drop s.queue.count).map firedRecord }
  | pop =>
    let (_, event, queue) := runtimeUiEventPop s.queue
    { s with
      queue := queue
      popped := s.popped ++ event.toList }

/-- No timer, no event, and nothing was recorded. -/
def UiStart (s : UiState) : Prop :=
  ∃ queue, s = ⟨runtimeUiTimerTableInit, runtimeUiEventQueueInit queue, [], []⟩

/-- One call. -/
def UiStep (s s' : UiState) : Prop := ∃ call : UiCall, s' = call.run s

/-- What holds of the timers and the events in a state. -/
structure TimerLaws (s : UiState) : Prop where
  /-- There is at most one active entry for an owner and a token. -/
  unique : ∀ i j, (s.timers.entries i).active ≠ 0 → (s.timers.entries j).active ≠ 0 →
    (s.timers.entries i).ownerPid = (s.timers.entries j).ownerPid →
    (s.timers.entries i).token = (s.timers.entries j).token → i = j
  /-- A timer that was armed is still active with its due tick, or the next thing about it is that
  it was armed again, cancelled, or became an event at a tick that is not before its due tick. -/
  fate : ∀ older owner due token newer, s.ledger = older ++ .put (owner, token) due :: newer →
    (Ledger.Silent newer (owner, token) ∧
      ∃ i, (s.timers.entries i).IsTimer owner token ∧ (s.timers.entries i).dueTick = due) ∨
    Ledger.Fate (fun due tick ↦ due ≤ tick) newer (owner, token) due
  /-- An event comes from the last arming before it, and nothing else does. -/
  source : ∀ older owner due token tick newer,
    s.ledger = older ++ .take (owner, token) due tick :: newer →
    ∃ before between, older = before ++ .put (owner, token) due :: between ∧
      Ledger.Silent between (owner, token)
  /-- The events that were popped and those in the ring are the events of the ledger, in order. -/
  events : s.popped ++ s.queue.contents = s.ledger.filterMap recordedEvent
  /-- With a full ring the timers stay as they are. -/
  full : 16 ≤ s.queue.count → ∀ tick,
    (runtimeUiTimerCollectDue s.timers tick s.queue).2.1 = s.timers
  /-- Collecting returns how many events it has put behind those in the ring. -/
  produced : ∀ tick, ∃ events,
    (runtimeUiTimerCollectDue s.timers tick s.queue).2.2.contents = s.queue.contents ++ events ∧
      (runtimeUiTimerCollectDue s.timers tick s.queue).1 = events.length
  /-- With room in the ring an event is produced exactly if the next due tick has come. -/
  room : s.queue.count < 16 → ∀ tick, 0 < (runtimeUiTimerCollectDue s.timers tick s.queue).1 ↔
    ∃ due, runtimeUiTimerNextDue s.timers = (Status.ok, some due) ∧ due ≤ tick

/-- The invariant. -/
structure UiInv (s : UiState) : Prop where
  timers : TimersMatch s.timers s.ledger
  count_le : s.queue.count ≤ 16
  events : s.popped ++ s.queue.contents = s.ledger.filterMap recordedEvent

section Runs

variable {s s' : UiState}

theorem TimersMatch.arm {table : RuntimeUiTimerTable} {ledger : TimerLedger}
    (h : TimersMatch table ledger) (ownerPid dueTick token : UInt32) :
    TimersMatch (runtimeUiTimerArm table ownerPid dueTick token).2
      (ledger ++ if (runtimeUiTimerArm table ownerPid dueTick token).1 = Status.ok then
        [.put (ownerPid, token) dueTick] else []) := by
  have hfails : ∀ {status : Int}, status ≠ Status.ok → TimersMatch table
      (ledger ++ if status = Status.ok then [.put (ownerPid, token) dueTick] else []) := by
    intro status hne
    rw [if_neg hne, List.append_nil]
    exact h
  rw [runtimeUiTimerArm]
  split
  · exact hfails (show Status.einval ≠ Status.ok by decide)
  split
  · next i hfind =>
    have hi := RuntimeUiTimerTable.find_eq_some hfind
    have hentry : { table.entries i with dueTick := dueTick }.IsTimer ownerPid token := hi
    exact h.put hentry (Or.inl hi)
  · next hfind =>
    split
    · next i hfree =>
      have hentry : (⟨ownerPid, dueTick, token, 1⟩ : RuntimeUiTimerEntry).IsTimer ownerPid token :=
        ⟨show (1 : UInt8) ≠ 0 by decide, rfl, rfl⟩
      refine h.put hentry (Or.inr ⟨?_, RuntimeUiTimerTable.find_eq_none hfind⟩)
      simpa using List.find?_some hfree
    · exact hfails (show Status.enospc ≠ Status.ok by decide)

theorem TimersMatch.cancel {table : RuntimeUiTimerTable} {ledger : TimerLedger}
    (h : TimersMatch table ledger) (ownerPid token : UInt32) :
    TimersMatch (runtimeUiTimerCancel table ownerPid token).2
      (ledger ++ if (runtimeUiTimerCancel table ownerPid token).1 = Status.ok then
        [.drop (ownerPid, token)] else []) := by
  have hfails : ∀ {status : Int}, status ≠ Status.ok → TimersMatch table
      (ledger ++ if status = Status.ok then [.drop (ownerPid, token)] else []) := by
    intro status hne
    rw [if_neg hne, List.append_nil]
    exact h
  rw [runtimeUiTimerCancel]
  split
  · exact hfails (show Status.einval ≠ Status.ok by decide)
  split
  · next i hfind =>
    have hi := RuntimeUiTimerTable.find_eq_some hfind
    refine h.clear hi rfl rfl ?_
    intro hnone
    have hpending := h.pending_iff.mpr ⟨i, hi, rfl⟩
    rw [hnone] at hpending
    cases hpending
  · exact hfails (show Status.enoent ≠ Status.ok by decide)

/-- **A call keeps the invariant.** -/
theorem UiStep.inv (h : UiInv s) (hstep : UiStep s s') : UiInv s' := by
  obtain ⟨call, rfl⟩ := hstep
  cases call with
  | arm ownerPid dueTick token =>
    refine ⟨h.timers.arm ownerPid dueTick token, h.count_le, ?_⟩
    simp only [UiCall.run]
    rw [List.filterMap_append, h.events]
    split <;> exact (List.append_nil _).symm
  | cancel ownerPid token =>
    refine ⟨h.timers.cancel ownerPid token, h.count_le, ?_⟩
    simp only [UiCall.run]
    rw [List.filterMap_append, h.events]
    split <;> exact (List.append_nil _).symm
  | collectDue currentTick =>
    obtain ⟨events, hqueue, -, hle, hmatch, hrecorded⟩ :=
      h.timers.collectDueLoop h.count_le
    -- the new events are those behind the old ones
    have hnew : (runtimeUiTimerCollectDue s.timers currentTick s.queue).2.2.contents.drop
        s.queue.count = events := by
      rw [runtimeUiTimerCollectDue, hqueue, ← RuntimeUiEventQueue.length_contents,
        List.drop_left]
    refine ⟨?_, hle, ?_⟩
    · simp only [UiCall.run]
      rw [hnew]
      exact hmatch
    · simp only [UiCall.run]
      rw [hnew, List.filterMap_append, hrecorded, ← h.events, List.append_assoc]
      exact congrArg (s.popped ++ ·) hqueue
  | pop =>
    by_cases hempty : s.queue.count = 0
    · obtain ⟨hevent, hqueue⟩ := RuntimeUiEventQueue.pop_of_empty hempty
      have hsame : UiCall.pop.run s = s := by
        simp [UiCall.run, hevent, hqueue]
      rw [hsame]
      exact h
    · obtain ⟨hevent, hcount, hcontents⟩ :=
        RuntimeUiEventQueue.pop_of_pos (Nat.pos_of_ne_zero hempty)
      refine ⟨h.timers, ?_, ?_⟩
      · simp only [UiCall.run]
        rw [hcount]
        exact (Nat.sub_le ..).trans h.count_le
      · simp only [UiCall.run]
        rw [← h.events, hevent, hcontents, List.append_assoc]
        rfl

theorem UiInv.of_reachable (h : Reachable UiStart UiStep s) : UiInv s := by
  refine Reachable.invariant (P := UiInv) ?_ (fun _ _ hs hstep ↦ hstep.inv hs) h
  rintro _ ⟨queue, rfl⟩
  refine ⟨⟨.nil, fun hi ↦ absurd rfl hi.1, ?_⟩, Nat.zero_le _, rfl⟩
  intro owner token due
  refine iff_of_false (fun hnone ↦ by cases hnone) ?_
  rintro ⟨i, hi, -⟩
  exact hi.1 rfl

/-- **Timers fire once**: in every run the timers and the events obey the laws. -/
theorem timers_fire_once (h : Reachable UiStart UiStep s) : TimerLaws s := by
  have hinv := UiInv.of_reachable h
  have hmatch := hinv.timers
  constructor
  case unique =>
    intro i j hi hj howner htoken
    exact hmatch.unique ⟨hi, howner, htoken⟩ ⟨hj, rfl, rfl⟩
  case fate =>
    intro older owner due token newer hledger
    have hvalid := hmatch.valid
    rw [hledger] at hvalid
    refine (Ledger.fate hvalid).imp_left fun ⟨hsilent, hpending⟩ ↦ ⟨hsilent, ?_⟩
    rw [← hledger] at hpending
    exact hmatch.pending_iff.mp hpending
  case source =>
    intro older owner due token tick newer hledger
    have hvalid := hmatch.valid
    rw [hledger] at hvalid
    exact Ledger.source hvalid
  case events => exact hinv.events
  case full =>
    intro hfull tick
    rw [runtimeUiTimerCollectDue, collectDueLoop_full hfull]
  case produced =>
    intro tick
    obtain ⟨events, hqueue, hproduced, -⟩ :=
      @TimersMatch.collectDueLoop _ _ _ tick (List.finRange 8) 0 hmatch hinv.count_le
    exact ⟨events, hqueue, hproduced.trans (Nat.zero_add _)⟩
  case room =>
    intro hroom tick
    rw [runtimeUiTimerCollectDue, lt_collectDueLoop_iff hroom]
    have hnext : ∀ due, runtimeUiTimerNextDue s.timers = (Status.ok, some due) ↔
        nextDueLoop s.timers (List.finRange 8) none = some due := by
      intro due
      rw [runtimeUiTimerNextDue]
      split
      · next hnone => simp [hnone]
      · next hsome => simp [hsome]
    simp only [hnext]
    rw [nextDueLoop_le_iff]
    simp

/-- Process 7 arms a timer twice, and after it was due pops its event. -/
theorem timers_fire_once_rearmed : ∃ s, Reachable UiStart UiStep s ∧
    s.popped = [⟨uiEventTimer, 7, 25, 1, 20, 0⟩] ∧ TimerLaws s := by
  have hrun : ∀ (calls : List UiCall) {s}, Reachable UiStart UiStep s →
      Reachable UiStart UiStep (calls.foldl (fun s call ↦ call.run s) s) := by
    intro calls
    induction calls with
    | nil => exact fun h ↦ h
    | cons call calls ih => exact fun h ↦ ih (h.step ⟨call, rfl⟩)
  have hreach := hrun [.arm 7 10 1, .arm 7 20 1, .collectDue 25, .pop]
    (.start ⟨⟨fun _ ↦ ⟨0, 0, 0, 0, 0, 0⟩, 0, 0⟩, rfl⟩)
  exact ⟨_, hreach, by decide +kernel, timers_fire_once hreach⟩

end Runs

end TensorOS
