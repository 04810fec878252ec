import TensorOS.Syscall.Dispatch

/-!
# Handles of other processes

A call on a handle that belongs to another process answers `EBADF`, and that is all it does: the
table, the memory of the caller and the contexts of the callbacks stay as they are
(`handle_isolated`). The check stands in every branch of the switch, in different places, and in
all of them it comes before anything that could be noticed.
-/

namespace TensorOS

variable {ω : Type} {ops : RuntimeSyscallOps ω} {table : RuntimeSyscallTable} {w : SyscallWorld ω}
  {i : Fin 16}

@[simp] theorem toNat_handleNumber (i : Fin 16) : (handleNumber i).toNat = i + 1 := by
  rw [handleNumber, UInt32.toNat_ofNat']
  exact Nat.mod_eq_of_lt (by omega)

theorem runtimeSyscallLookupHandle_handleNumber (table : RuntimeSyscallTable) (i : Fin 16) :
    runtimeSyscallLookupHandle table (handleNumber i) =
      if (table.handles i).type = handleTypeNone then none else some i := by
  have hne : handleNumber i ≠ 0 := by
    intro h
    have hzero := toNat_handleNumber i
    rw [h] at hzero
    cases hzero
  have hle : (handleNumber i).toNat ≤ 16 := by
    rw [toNat_handleNumber]
    omega
  rw [runtimeSyscallLookupHandle, dif_pos ⟨hne, hle⟩]
  simp

/-- The calls whose first argument is a handle. -/
def RuntimeSyscallNumber.takesHandle : RuntimeSyscallNumber → Bool
  | handleClose | handleDup | handleInfo | processInfo | processTerminate | serviceRequest
  | eventSignal | mailboxSend | mailboxReceive | fileRead | fileWrite | fileStat | fileReaddir
  | fileSeek => true
  | _ => false

/-- The entry belongs to a process other than the caller. -/
def Foreign (ops : RuntimeSyscallOps ω) (table : RuntimeSyscallTable) (w : SyscallWorld ω)
    (i : Fin 16) : Prop :=
  ops.processCurrentPid ≠ none ∧ (table.handles i).ownerPid ≠ 0 ∧
    (table.handles i).ownerPid ≠ ops.currentPid w

theorem Foreign.access (h : Foreign ops table w i) :
    runtimeSyscallCheckHandleAccess (table.handles i) ops w = Status.ebadf := by
  obtain ⟨hpid, howner, hne⟩ := h
  obtain ⟨pid, hpid⟩ := Option.ne_none_iff_exists'.mp hpid
  rw [RuntimeSyscallOps.currentPid, hpid] at hne
  simp only [runtimeSyscallCheckHandleAccess, hpid]
  exact if_pos ⟨howner, hne⟩

theorem Foreign.forwardHandleCall_eq (h : Foreign ops table w i) (type : UInt32)
    (callback : RuntimeHandleInfo → Option (Callback ω Int)) :
    forwardHandleCall ops table type (handleNumber i) callback w =
      .ok (Status.ebadf, table, w) := by
  rw [forwardHandleCall, runtimeSyscallLookupHandle_handleNumber]
  split
  · rfl
  · next heq =>
    split at heq
    · cases heq
    cases heq
    simp only [h.access]
    split <;> rfl

/-- A closing that enforces access goes no further than the check. -/
theorem Foreign.closeHandle_eq (h : Foreign ops table w i) :
    runtimeSyscallCloseHandle i ops table w true = .ok (Status.ebadf, table, w) := by
  simp only [runtimeSyscallCloseHandle, h.access]
  rfl

theorem Foreign.run_eq (h : Foreign ops table w i) {number : RuntimeSyscallNumber}
    (htakes : number.takesHandle = true) {args : RuntimeSyscallArgs}
    (harg : args.arg0 = handleNumber i) :
    number.run args ops table w = .ok (Status.ebadf, table, w) := by
  cases number with
  | processInfo | processTerminate | serviceRequest | eventSignal | mailboxSend | mailboxReceive
  | fileRead | fileWrite | fileStat | fileReaddir | fileSeek =>
    simp only [RuntimeSyscallNumber.run, harg]
    exact h.forwardHandleCall_eq _ _
  | handleClose =>
    simp only [RuntimeSyscallNumber.run, harg, runtimeSyscallLookupHandle_handleNumber]
    split
    · rfl
    · next heq =>
      split at heq <;> cases heq
      exact h.closeHandle_eq
  | handleDup =>
    simp only [RuntimeSyscallNumber.run, harg, runtimeSyscallLookupHandle_handleNumber]
    split
    · rfl
    · next heq =>
      split at heq <;> cases heq
      rw [h.access]
      rfl
  | handleInfo =>
    simp only [RuntimeSyscallNumber.run, harg, runtimeSyscallLookupHandle_handleNumber]
    split
    · rfl
    · next heq =>
      split at heq <;> cases heq
      rw [h.access]
      split <;> rfl
  | _ => cases htakes

/-- **Handles are isolated.** A call on a handle that belongs to a process other than the caller
answers `EBADF` and changes neither the table nor the memory nor any context. This holds whatever
the callbacks are, even if every callback but `process_current_pid` ends in a fault, so none of
these is invoked; and it holds whatever type and object the entry has. -/
theorem handle_isolated (ops : RuntimeSyscallOps ω) {pid : SyscallWorld ω → UInt32}
    (hpid : ops.processCurrentPid = some pid) (syscallNumber : UInt32)
    (number : RuntimeSyscallNumber)
    (hnumber : runtimeSyscallNumbers[syscallNumber.toNat]? = some number)
    (htakes : number.takesHandle = true) (table : RuntimeSyscallTable) (i : Fin 16)
    (args : RuntimeSyscallArgs) (harg : args.arg0 = handleNumber i) (w : SyscallWorld ω)
    (howner : (table.handles i).ownerPid ≠ 0) (hforeign : (table.handles i).ownerPid ≠ pid w) :
    (∀ ops' : RuntimeSyscallOps ω, ops'.processCurrentPid = ops.processCurrentPid →
      runtimeSyscallDispatch syscallNumber args ops' table w = .ok (Status.ebadf, table, w)) ∧
    ∀ type object, let table' := table.set i { table.handles i with type := type, object := object }
      runtimeSyscallDispatch syscallNumber args ops table' w = .ok (Status.ebadf, table', w) := by
  have hanswer : ∀ (ops' : RuntimeSyscallOps ω) (table' : RuntimeSyscallTable),
      ops'.processCurrentPid = ops.processCurrentPid →
      (table'.handles i).ownerPid = (table.handles i).ownerPid →
      runtimeSyscallDispatch syscallNumber args ops' table' w = .ok (Status.ebadf, table', w) := by
    intro ops' table' hops howner'
    have h : Foreign ops' table' w i := by
      rw [Foreign, RuntimeSyscallOps.currentPid, hops, hpid, howner']
      exact ⟨by simp, howner, hforeign⟩
    rw [runtimeSyscallDispatch, hnumber]
    exact h.run_eq htakes harg
  exact ⟨fun ops' hops ↦ hanswer ops' table hops rfl,
    fun type object ↦ hanswer ops _ rfl (by rw [RuntimeSyscallTable.set_handles_self])⟩

/-- Every callback but `process_current_pid` faults or is missing. -/
def faultyOps : RuntimeSyscallOps UInt32 where
  processCurrentPid := some (·.context)
  processSleep := some fun _ _ ↦ .error .outOfBounds
  processKill := some fun _ _ _ ↦ .error .outOfBounds
  processInfo := some fun _ _ _ ↦ .error .outOfBounds
  processSpawnNamed := some fun _ _ _ ↦ .error .outOfBounds
  processSpawnableCount := some fun _ ↦ .error .outOfBounds
  processSpawnableInfo := some fun _ _ _ ↦ .error .outOfBounds
  serviceCount := some fun _ ↦ .error .outOfBounds
  serviceInfo := some fun _ _ _ ↦ .error .outOfBounds
  serviceOpen := some fun _ _ _ ↦ .error .outOfBounds
  serviceClose := some fun _ _ ↦ .error .outOfBounds
  serviceRequest := some fun _ _ _ _ ↦ .error .outOfBounds
  appCount := some fun _ ↦ .error .outOfBounds
  appInfo := some fun _ _ _ ↦ .error .outOfBounds
  appLaunch := some fun _ _ ↦ .error .outOfBounds
  eventCreate := some fun _ ↦ .error .outOfBounds
  eventDestroy := some fun _ _ ↦ .error .outOfBounds
  eventSignal := some fun _ _ ↦ .error .outOfBounds
  mailboxCreate := some fun _ ↦ .error .outOfBounds
  mailboxDestroy := some fun _ _ ↦ .error .outOfBounds
  mailboxSend := some fun _ _ _ ↦ .error .outOfBounds
  mailboxReceive := some fun _ _ _ ↦ .error .outOfBounds
  fsMkdir := some fun _ _ _ ↦ .error .outOfBounds

/-- Process 88 closes the event of process 7. -/
theorem handle_isolated_close :
    let table := runtimeSyscallTableInit.set 2 ⟨3, 7, handleTypeEvent, 1⟩
    runtimeSyscallDispatch 3 ⟨3, 0, 0, 0⟩ faultyOps table ⟨fun _ ↦ 0, 88⟩ =
      .ok (Status.ebadf, table, ⟨fun _ ↦ 0, 88⟩) :=
  (handle_isolated faultyOps rfl 3 .handleClose rfl rfl _ 2 ⟨3, 0, 0, 0⟩ rfl
    ⟨fun _ ↦ 0, 88⟩ (by decide) (by decide)).1 faultyOps rfl

end TensorOS
