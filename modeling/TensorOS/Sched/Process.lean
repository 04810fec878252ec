import Mathlib

/-!
# The process table

`process_core.c`: the process records and the operations on a table of them. The table has as many
entries as the caller says, so it is a function on `Fin n`; the scheduler has ten. An index that the
source returns as `UINT32_MAX` is `none`.

The three functions that wake processes go over the table and make each entry that passes a test
ready. They are one definition with the test as a parameter, and their specification is one lemma.
-/

namespace TensorOS

/-- `enum process_state`. -/
inductive ProcessState
  | unused
  | ready
  | running
  | blocked
  | zombie
  deriving DecidableEq, Repr

/-- `enum process_wait_reason`. -/
inductive WaitReason
  | none
  | sleepTicks
  | manual
  | child
  | eventChannel
  deriving DecidableEq, Repr

/-- `struct process_runtime_state`. -/
structure Process where
  pid : UInt32
  parentPid : UInt32
  name : Option String
  role : UInt32
  state : ProcessState
  exitCode : Int32
  switchCount : UInt32
  yieldCount : UInt32
  wakeTick : UInt64
  waitTargetPid : UInt32
  waitReason : WaitReason
  waitChannel : UInt32
  deriving DecidableEq, Repr

/-- `RUNTIME_PROCESS_ROLE_NONE`. -/
def roleNone : UInt32 := 0

/-- `RUNTIME_PROCESS_ROLE_FOREGROUND_APP`. -/
def roleForegroundApp : UInt32 := 2

abbrev ProcessTable (n : ℕ) := Fin n → Process

namespace ProcessCore

/-! ## Single entries -/

/-- `process_core_reset_slot`, which leaves nothing of the entry. The zeroed entries of a fresh
table are the same. -/
def resetSlot : Process where
  pid := 0
  parentPid := 0
  name := none
  role := roleNone
  state := .unused
  exitCode := 0
  switchCount := 0
  yieldCount := 0
  wakeTick := 0
  waitTargetPid := 0
  waitReason := .none
  waitChannel := 0

/-- `process_core_make_ready`. -/
def makeReady (process : Process) : Process :=
  if process.state = .blocked then
    { process with
      state := .ready, wakeTick := 0, waitTargetPid := 0, waitReason := .none, waitChannel := 0 }
  else process

section MakeReady

variable (process : Process)

@[simp] theorem makeReady_pid : (makeReady process).pid = process.pid := by
  rw [makeReady]
  split <;> rfl

@[simp] theorem makeReady_parentPid : (makeReady process).parentPid = process.parentPid := by
  rw [makeReady]
  split <;> rfl

@[simp] theorem makeReady_role : (makeReady process).role = process.role := by
  rw [makeReady]
  split <;> rfl

@[simp] theorem makeReady_exitCode : (makeReady process).exitCode = process.exitCode := by
  rw [makeReady]
  split <;> rfl

theorem makeReady_state :
    (makeReady process).state = if process.state = .blocked then .ready else process.state := by
  rw [makeReady]
  split <;> rfl

theorem makeReady_of_ne (h : process.state ≠ .blocked) : makeReady process = process := if_neg h

end MakeReady

/-- `process_core_block`. -/
def block (process : Process) (waitReason : WaitReason) (waitChannel : UInt32) (wakeTick : UInt64)
    (waitTargetPid : UInt32) : Process :=
  { process with
    state := .blocked, waitReason := waitReason, waitChannel := waitChannel, wakeTick := wakeTick,
    waitTargetPid := waitTargetPid }

variable {n : ℕ} (processes : ProcessTable n)

/-! ## Searching -/

/-- `process_core_find_free_slot`. -/
def findFreeSlot : Option (Fin n) :=
  (List.finRange n).find? fun index ↦ (processes index).state = .unused

/-- `process_core_find_index_by_pid`. -/
def findIndexByPid (pid : UInt32) : Option (Fin n) :=
  if pid = 0 then none
  else (List.finRange n).find? fun index ↦
    (processes index).state ≠ .unused ∧ (processes index).pid = pid

/-- `process_core_count_blocked_sleepers`. -/
def countBlockedSleepers : ℕ :=
  (List.finRange n).countP fun index ↦
    (processes index).state = .blocked ∧ (processes index).waitReason = .sleepTicks

/-- `process_core_is_child_of`. -/
def isChildOf (parentPid : UInt32) (process : Process) : Prop :=
  parentPid ≠ 0 ∧ process.parentPid = parentPid

/-- An entry of a child of the given process, of the given one if it is not 0. -/
def IsTarget (parentPid targetPid : UInt32) (process : Process) : Prop :=
  process.state ≠ .unused ∧ isChildOf parentPid process ∧ (targetPid = 0 ∨ process.pid = targetPid)

instance (parentPid targetPid : UInt32) (process : Process) :
    Decidable (IsTarget parentPid targetPid process) :=
  inferInstanceAs (Decidable (_ ∧ (_ ∧ _) ∧ _))

/-- `process_core_find_waitable_child`. -/
def findWaitableChild (parentPid targetPid : UInt32) : Option (Fin n) :=
  (List.finRange n).find? fun index ↦
    IsTarget parentPid targetPid (processes index) ∧ (processes index).state = .zombie

/-- `process_core_has_child`. -/
def hasChild (parentPid targetPid : UInt32) : Bool :=
  (List.finRange n).any fun index ↦ IsTarget parentPid targetPid (processes index)

/-! ## Waking -/

/-- Make the entries ready that pass the test, and count them. -/
def wake (test : Process → Bool) : ProcessTable n × ℕ :=
  (fun index ↦ if test (processes index) then makeReady (processes index) else processes index,
    (List.finRange n).countP fun index ↦ test (processes index))

/-- Whether `process_core_wake_waiting_parent` wakes the process. -/
def waitsForChild (childPid : UInt32) (process : Process) : Bool :=
  process.state = .blocked ∧ process.waitReason = .child ∧
    (process.waitTargetPid = 0 ∨ process.waitTargetPid = childPid)

/-- Whether `process_core_wake_sleepers` wakes the process. -/
def sleepsUntil (tickCount : UInt64) (process : Process) : Bool :=
  process.state = .blocked ∧ process.waitReason = .sleepTicks ∧ process.wakeTick ≤ tickCount

/-- Whether the process waits on the channel. -/
def waitsOn (channel : UInt32) (process : Process) : Bool :=
  process.state = .blocked ∧ process.waitReason = .eventChannel ∧ process.waitChannel = channel

/-- `process_core_wake_waiting_parent`. -/
def wakeWaitingParent (childPid : UInt32) : ProcessTable n × ℕ :=
  wake processes (waitsForChild childPid)

/-- `process_core_wake_sleepers`. -/
def wakeSleepers (tickCount : UInt64) : ProcessTable n × ℕ := wake processes (sleepsUntil tickCount)

/-- `process_core_wake_channel`. -/
def wakeChannel (channel : UInt32) : ProcessTable n × ℕ := wake processes (waitsOn channel)

/-- The order in which `process_core_wake_first_channel` looks at the entries: from the one after
the current one, round the table. -/
def roundFrom (n : ℕ) (currentIndex : Option (Fin n)) : List (Fin n) :=
  let startIndex := match currentIndex with
    | none => 0
    | some index => index.val + 1
  (List.finRange n).map fun offset : Fin n ↦
    ⟨(startIndex + offset.val) % n, Nat.mod_lt _ offset.pos⟩

/-- `process_core_wake_first_channel`. -/
def wakeFirstChannel (channel : UInt32) (currentIndex : Option (Fin n)) : ProcessTable n × ℕ :=
  match (roundFrom n currentIndex).find? fun index ↦ waitsOn channel (processes index) with
  | some index => (Function.update processes index (makeReady (processes index)), 1)
  | none => (processes, 0)

/-! ## The spawn policy -/

/-- `runtime_policy_can_spawn`. The flag is `CONFIG_RUNTIME_SINGLE_FOREGROUND`. -/
def runtimePolicyCanSpawn (singleForeground : Bool) (role : UInt32) : Bool :=
  if singleForeground then
    if role ≠ roleForegroundApp then true
    else !(List.finRange n).any fun index ↦
      (processes index).state ≠ .unused ∧ (processes index).state ≠ .zombie ∧
        (processes index).role = roleForegroundApp
  else true

end ProcessCore

end TensorOS
