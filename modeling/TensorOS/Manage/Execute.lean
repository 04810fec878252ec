import Mathlib
import TensorOS.Lib.Snapshot
import TensorOS.Lib.TextBuffer
import TensorOS.Manage.Tokens
import TensorOS.Mem.Kmem

/-!
# The management console

`runtime_manage_execute` cuts a command into tokens, selects a command by the first one and calls
back into the kernel. The callbacks are functions on a state `γ` of which nothing is known, and any
of them may be missing. The two readers of numbers are a parameter of the model, so that the
console of the source can be compared with one that reads every number as it was typed.

Texts that are logged are strings, a command is a list of characters.
-/

namespace TensorOS

/-! ## Tokens -/

/-- `ascii_is_space`. -/
def asciiIsSpace (ch : UInt8) : Bool := ch = 32 || ch = 9 || ch = 10 || ch = 13

/-- `skip_spaces`. -/
def skipSpaces (cursor : List UInt8) : List UInt8 := cursor.dropWhile asciiIsSpace

/-- `next_token`: the token and the cursor behind it. -/
def nextToken (cursor : List UInt8) : List UInt8 × List UInt8 :=
  let start := skipSpaces cursor
  (start.takeWhile (!asciiIsSpace ·), start.dropWhile (!asciiIsSpace ·))

/-- The characters of a word of the source. -/
def asciiBytes (word : String) : List UInt8 := word.toList.map fun c ↦ UInt8.ofNat c.toNat

/-- `token_equals`. -/
def tokenEquals (token : List UInt8) (word : String) : Bool := textEquals token (asciiBytes word)

/-- `token_is_empty`. -/
def tokenIsEmpty (token : List UInt8) : Bool := token.length = 0

/-! ## The interface -/

/-- `enum runtime_manage_status`. -/
inductive RuntimeManageStatus
  | ok
  | empty
  | unknownCommand
  | badArgument
  | unavailable
  deriving DecidableEq, Repr

/-- `struct process_info`. -/
structure ProcessInfo where
  pid : UInt32
  parentPid : UInt32
  name : Option String
  role : UInt32
  state : UInt32
  exitCode : Int32
  switchCount : UInt32
  yieldCount : UInt32
  wakeTick : UInt64
  waitReason : UInt32
  waitChannel : UInt32

/-- What `ops->snapshot` leaves in the eight entries it is given, and what it returns. -/
abbrev ProcessSnapshot := Snapshot ProcessInfo 8

/-- `struct runtime_manage_spawnable_info`. -/
structure RuntimeManageSpawnableInfo where
  taskName : Option String
  processName : Option String
  defaultRole : UInt32

/-- `struct runtime_manage_ops`, with callbacks on a state `γ`. -/
structure RuntimeManageOps (γ : Type) where
  snapshot : Option (γ → ProcessSnapshot × γ)
  spawnableSnapshot : Option (γ → (UInt32 × List RuntimeManageSpawnableInfo) × γ)
  kmemStats : Option (γ → KmemStats × γ)
  mailboxHasMessage : Option (γ → UInt32 × γ)
  mailboxWaitingSenders : Option (γ → UInt32 × γ)
  mailboxWaitingReceivers : Option (γ → UInt32 × γ)
  mailboxSend : Option (UInt32 → γ → Int × γ)
  mailboxReceive : Option (γ → Int × γ)
  eventSignal : Option (γ → UInt32 × γ)
  processWake : Option (UInt32 → γ → Int × γ)
  processKill : Option (UInt32 → Int → γ → Int × γ)
  spawnNamedProcess : Option (List UInt8 → UInt32 → γ → UInt32 × γ)
  demoProfile : Option (γ → UInt32 × γ)
  demoSetProfile : Option (UInt32 → γ → Int × γ)
  demoCompletedSteps : Option (γ → UInt32 × γ)
  demoTotalSteps : Option (γ → UInt32 × γ)
  shellPath : Option (γ → Option String × γ)
  resolveCommandPath : Option (List UInt8 → γ → Option String × γ)
  schedulerModeName : Option (γ → String × γ)
  runtimeModeName : Option (γ → String × γ)
  preemptStatusName : Option (γ → String × γ)
  log : Option (String → String → γ → γ)
  logU32 : Option (String → String → UInt32 → γ → γ)

/-- A run of the console on the state of the callbacks. -/
abbrev Console (γ : Type) := StateT γ (Except Undefined)

section Console

variable {γ : Type}

/-- Call back. -/
def Console.call {α : Type} (f : γ → α × γ) : Console γ α := fun context ↦ .ok (f context)

/-- Call back for the effect. -/
def Console.tell (f : γ → γ) : Console γ Unit := fun context ↦ .ok ((), f context)

open Console

theorem console_bind {α β : Type} (x : Console γ α) (f : α → Console γ β) (context : γ) :
    (x >>= f) context = x context >>= fun result ↦ f result.1 result.2 := rfl

theorem console_pure {α : Type} (a : α) (context : γ) :
    (pure a : Console γ α) context = .ok (a, context) := rfl

theorem call_apply {α : Type} (f : γ → α × γ) (context : γ) :
    call f context = .ok (f context) := rfl

theorem tell_apply (f : γ → γ) (context : γ) : tell f context = .ok ((), f context) := rfl

/-! ## Output -/

/-- `runtime_manage_demo_profile_name`. -/
def runtimeManageDemoProfileName (profile : UInt32) : String :=
  if profile = 1 then "profile_smoke" else if profile = 0 then "profile_off" else "profile_unknown"

/-- `process_state_name`. -/
def processStateName (state : UInt32) : String :=
  if state = 1 then "ready" else if state = 2 then "running" else if state = 3 then "blocked"
  else if state = 4 then "zombie" else "unused"

/-- `process_wait_reason_name`. -/
def processWaitReasonName (waitReason : UInt32) : String :=
  if waitReason = 1 then "sleep_ticks" else if waitReason = 2 then "manual"
  else if waitReason = 3 then "child" else if waitReason = 4 then "event_channel" else "none"

/-- `runtime_process_role_name`. -/
def runtimeProcessRoleName (role : UInt32) : String :=
  if role = 1 then "system" else if role = 2 then "foreground_app"
  else if role = 3 then "background_app" else if role = 4 then "live_activity" else "none"

/-- `count_role_in_snapshot`. The loop goes to the count, whatever the size of the buffer. -/
def countRoleInSnapshot (snapshot : ProcessSnapshot) (role : UInt32) : Except Undefined UInt32 :=
  (List.range snapshot.count.toNat).foldlM (fun (found : UInt32) index ↦ do
    return if (← snapshot.read index).role = role then found + 1 else found) 0

variable (ops : RuntimeManageOps γ)

/-- The lines of `runtime_manage_log_help`. -/
def helpLines : List String :=
  ["commands:", "help", "runtime", "path", "which <name>", "ps", "inspect <pid>", "kmem",
    "mailbox status", "mailbox send <value>", "mailbox recv", "event signal", "wake <pid>",
    "kill <pid> [exit_code]", "spawn list", "spawn <role> <task>", "demo status", "demo auto on",
    "demo auto off", "demo profile smoke", "demo profile off"]

/-- `runtime_manage_log_help`. -/
def runtimeManageLogHelp : Console γ Unit :=
  match ops.log with
  | none => pure ()
  | some log => helpLines.forM fun line ↦ tell (log "MGMT" line)

/-- `runtime_manage_log_runtime`. -/
def runtimeManageLogRuntime : Console γ Unit :=
  match ops.log, ops.schedulerModeName, ops.runtimeModeName, ops.preemptStatusName with
  | some log, some schedulerModeName, some runtimeModeName, some preemptStatusName => do
    tell (log "MGMT" "runtime")
    let name ← call schedulerModeName
    tell (log "MGMT" name)
    let name ← call runtimeModeName
    tell (log "MGMT" name)
    let name ← call preemptStatusName
    tell (log "MGMT" name)
  | _, _, _, _ => pure ()

/-- What a process waits for, as both listings print it. -/
def logWait (log : String → String → γ → γ) (logU32 : String → String → UInt32 → γ → γ)
    (info : ProcessInfo) : Console γ Unit := do
  if info.waitReason ≠ 0 then
    tell (log "PROC" (processWaitReasonName info.waitReason))
    tell (logU32 "PROC" "wait_channel=" info.waitChannel)
  if info.wakeTick ≠ 0 then
    tell (logU32 "PROC" "wake_tick=" info.wakeTick.toUInt32)

/-- `runtime_manage_log_snapshot`. -/
def runtimeManageLogSnapshot : Console γ Unit :=
  match ops.snapshot, ops.log, ops.logU32 with
  | some snapshot, some log, some logU32 => do
    let snapshot ← call snapshot
    tell (logU32 "PROC" "count=" snapshot.count)
    let foregroundCount ← StateT.lift (countRoleInSnapshot snapshot 2)
    tell (logU32 "PROC" "foreground_count=" foregroundCount)
    (List.range (min snapshot.count.toNat 8)).forM fun index ↦ do
      let info ← StateT.lift (snapshot.read index)
      tell (logU32 "PROC" "pid=" info.pid)
      tell (log "PROC" (runtimeProcessRoleName info.role))
      tell (log "PROC" (processStateName info.state))
      logWait log logU32 info
  | _, _, _ => pure ()

/-- `runtime_manage_log_process_detail`: whether there is a process with this pid. -/
def runtimeManageLogProcessDetail (targetPid : UInt32) : Console γ Bool :=
  match ops.snapshot, ops.log, ops.logU32 with
  | some snapshot, some log, some logU32 => do
    let snapshot ← call snapshot
    match ← StateT.lift ((List.range (min snapshot.count.toNat 8)).findM? fun index ↦ do
      return decide ((← snapshot.read index).pid = targetPid)) with
    | none => pure false
    | some index => do
      let info ← StateT.lift (snapshot.read index)
      tell (log "PROC" "inspect")
      tell (logU32 "PROC" "pid=" info.pid)
      tell (logU32 "PROC" "parent_pid=" info.parentPid)
      match info.name with
      | none => pure ()
      | some name => tell (log "PROC" name)
      tell (log "PROC" (runtimeProcessRoleName info.role))
      tell (log "PROC" (processStateName info.state))
      tell (logU32 "PROC" "switch_count=" info.switchCount)
      tell (logU32 "PROC" "yield_count=" info.yieldCount)
      tell (logU32 "PROC" "exit_code=" info.exitCode.toUInt32)
      logWait log logU32 info
      pure true
  | _, _, _ => pure false

/-- The counters that `runtime_manage_log_kmem` prints. -/
def kmemLines (stats : KmemStats) : List (String × UInt32) :=
  [("kmem_arena_capacity_bytes=", stats.arenaCapacityBytes), ("kmem_free_bytes=", stats.freeBytes),
    ("kmem_largest_free_block=", stats.largestFreeBlock), ("kmem_bytes_in_use=", stats.bytesInUse),
    ("kmem_peak_bytes_in_use=", stats.peakBytesInUse),
    ("kmem_allocation_count=", stats.allocationCount), ("kmem_free_count=", stats.freeCount),
    ("kmem_allocation_fail_count=", stats.allocationFailCount),
    ("kmem_live_allocations=", stats.liveAllocations),
    ("kmem_peak_live_allocations=", stats.peakLiveAllocations),
    ("kmem_block_count=", stats.blockCount), ("kmem_free_block_count=", stats.freeBlockCount),
    ("kmem_used_block_count=", stats.usedBlockCount)]

/-- `runtime_manage_log_kmem`. -/
def runtimeManageLogKmem : Console γ Unit :=
  match ops.logU32, ops.kmemStats with
  | some logU32, some kmemStats => do
    let stats ← call kmemStats
    (kmemLines stats).forM fun line ↦ tell (logU32 "MGMT" line.1 line.2)
  | _, _ => pure ()

/-- `runtime_manage_log_mailbox_status`. -/
def runtimeManageLogMailboxStatus : Console γ Unit :=
  match ops.logU32, ops.mailboxHasMessage, ops.mailboxWaitingSenders,
    ops.mailboxWaitingReceivers with
  | some logU32, some hasMessage, some waitingSenders, some waitingReceivers => do
    let value ← call hasMessage
    tell (logU32 "MGMT" "mailbox_has_message=" value)
    let value ← call waitingSenders
    tell (logU32 "MGMT" "mailbox_waiting_senders=" value)
    let value ← call waitingReceivers
    tell (logU32 "MGMT" "mailbox_waiting_receivers=" value)
  | _, _, _, _ => pure ()

/-- `runtime_manage_log_demo_status`. -/
def runtimeManageLogDemoStatus : Console γ Unit :=
  match ops.log, ops.demoProfile with
  | some log, some demoProfile => do
    tell (log "MGMT" "demo")
    let profile ← call demoProfile
    tell (log "MGMT" (runtimeManageDemoProfileName profile))
    let profile ← call demoProfile
    tell (log "MGMT" (if profile = 0 then "auto_off" else "auto_on"))
    match ops.logU32, ops.demoCompletedSteps, ops.demoTotalSteps with
    | some logU32, some completedSteps, some totalSteps => do
      let steps ← call completedSteps
      tell (logU32 "MGMT" "demo_completed_steps=" steps)
      let steps ← call totalSteps
      tell (logU32 "MGMT" "demo_total_steps=" steps)
    | _, _, _ => pure ()
  | _, _ => pure ()

/-- `runtime_manage_log_spawnables`. -/
def runtimeManageLogSpawnables : Console γ Unit :=
  match ops.spawnableSnapshot, ops.log, ops.logU32 with
  | some spawnableSnapshot, some log, some logU32 => do
    let (count, infos) ← call spawnableSnapshot
    tell (log "MGMT" "spawnables")
    tell (logU32 "MGMT" "spawnable_count=" count)
    ((infos.take count.toNat).take 16).forM fun info ↦ do
      match info.taskName with
      | none => pure ()
      | some name => tell (log "MGMT" name)
      match info.processName with
      | none => pure ()
      | some name => tell (log "MGMT" name)
      tell (log "MGMT" (runtimeProcessRoleName info.defaultRole))
  | _, _, _ => pure ()

/-- `runtime_manage_parse_role`. -/
def runtimeManageParseRole (token : List UInt8) : Option UInt32 :=
  if tokenEquals token "system" then some 1
  else if tokenEquals token "foreground" || tokenEquals token "foreground_app" then some 2
  else if tokenEquals token "background" || tokenEquals token "background_app" then some 3
  else if tokenEquals token "live" || tokenEquals token "live_activity" then some 4
  else none

/-- `runtime_manage_log_shell_path`. -/
def runtimeManageLogShellPath : Console γ Unit :=
  match ops.log, ops.shellPath with
  | some log, some shellPath => do
    match ← call shellPath with
    | none => pure ()
    | some _ => do
      -- the path is asked for again
      match ← call shellPath with
      | none => pure ()
      | some path => tell (log "MGMT" path)
  | _, _ => pure ()

/-! ## Commands -/

/-- The branch `which` of `runtime_manage_execute`. -/
def manageWhich (cursor : List UInt8) : Console γ RuntimeManageStatus := do
  let (commandName, _) := nextToken cursor
  match ops.resolveCommandPath, ops.log with
  | some resolveCommandPath, some log =>
    if tokenIsEmpty commandName || 24 ≤ commandName.length then pure .badArgument
    else do
      match ← call (resolveCommandPath commandName) with
      | none => pure .badArgument
      | some resolvedPath => do
        tell (log "MGMT" resolvedPath)
        pure .ok
  | _, _ => pure .badArgument

/-- The branch `spawn`. -/
def manageSpawn (cursor : List UInt8) : Console γ RuntimeManageStatus := do
  let (roleToken, cursor) := nextToken cursor
  if tokenEquals roleToken "list" then
    match ops.spawnableSnapshot with
    | none => pure .unavailable
    | some _ => do
      runtimeManageLogSpawnables ops
      pure .ok
  else do
    let (taskName, _) := nextToken cursor
    match runtimeManageParseRole roleToken, ops.spawnNamedProcess with
    | some role, some spawnNamedProcess =>
      if tokenIsEmpty taskName || 24 ≤ taskName.length then pure .badArgument
      else do
        let pid ← call (spawnNamedProcess taskName role)
        pure (if pid = 0 then .unavailable else .ok)
    | _, _ => pure .badArgument

/-- The branch `event`. -/
def manageEvent (cursor : List UInt8) : Console γ RuntimeManageStatus := do
  let (verb, _) := nextToken cursor
  match ops.eventSignal with
  | none => pure .badArgument
  | some eventSignal =>
    if tokenEquals verb "signal" then do
      let _ ← call eventSignal
      pure .ok
    else pure .badArgument

/-- The words that `demo auto` and `demo profile` take for the two profiles. -/
def manageDemoProfile (cursor : List UInt8) (smoke off : String) :
    Console γ RuntimeManageStatus := do
  let (mode, _) := nextToken cursor
  match ops.demoSetProfile with
  | none => pure .badArgument
  | some demoSetProfile =>
    if tokenEquals mode smoke then do
      let changed ← call (demoSetProfile 1)
      pure (if changed = 0 then .badArgument else .ok)
    else if tokenEquals mode off then do
      let changed ← call (demoSetProfile 0)
      pure (if changed = 0 then .badArgument else .ok)
    else pure .badArgument

/-- The branch `demo`. -/
def manageDemo (cursor : List UInt8) : Console γ RuntimeManageStatus := do
  let (verb, cursor) := nextToken cursor
  if tokenEquals verb "status" then do
    runtimeManageLogDemoStatus ops
    pure .ok
  else if tokenEquals verb "auto" then manageDemoProfile ops cursor "on" "off"
  else if tokenEquals verb "profile" then manageDemoProfile ops cursor "smoke" "off"
  else pure .badArgument

/-- The two readers of numbers. -/
structure TokenReaders where
  readU32 : List UInt8 → Option UInt32
  readI32 : List UInt8 → Except Undefined (Option Int)

variable (readers : TokenReaders)

/-- The branch `inspect`. -/
def manageInspect (cursor : List UInt8) : Console γ RuntimeManageStatus := do
  let (pidToken, _) := nextToken cursor
  match readers.readU32 pidToken with
  | none => pure .badArgument
  | some pid => do
    let found ← runtimeManageLogProcessDetail ops pid
    pure (if found then .ok else .badArgument)

/-- The branch `wake`. -/
def manageWake (cursor : List UInt8) : Console γ RuntimeManageStatus := do
  let (pidToken, _) := nextToken cursor
  match readers.readU32 pidToken, ops.processWake with
  | some pid, some processWake => do
    let woken ← call (processWake pid)
    pure (if woken = 0 then .badArgument else .ok)
  | _, _ => pure .badArgument

/-- The branch `kill`. Without an exit code it is -1. -/
def manageKill (cursor : List UInt8) : Console γ RuntimeManageStatus := do
  let (pidToken, cursor) := nextToken cursor
  match readers.readU32 pidToken, ops.processKill with
  | some pid, some processKill => do
    let (exitToken, _) := nextToken cursor
    let exitCode ← StateT.lift
      (if tokenIsEmpty exitToken then .ok (some (-1)) else readers.readI32 exitToken)
    match exitCode with
    | none => pure .badArgument
    | some exitCode => do
      let killed ← call (processKill pid exitCode)
      pure (if killed = 0 then .badArgument else .ok)
  | _, _ => pure .badArgument

/-- The branch `mailbox send`. -/
def manageMailboxSend (cursor : List UInt8) : Console γ RuntimeManageStatus := do
  let (valueToken, _) := nextToken cursor
  match readers.readU32 valueToken with
  | none => pure .badArgument
  | some message =>
    match ops.mailboxSend with
    | none => pure .unavailable
    | some mailboxSend => do
      let sent ← call (mailboxSend message)
      pure (if sent = 0 then .unavailable else .ok)

/-- The branch `mailbox`. -/
def manageMailbox (cursor : List UInt8) : Console γ RuntimeManageStatus := do
  let (verb, cursor) := nextToken cursor
  if tokenIsEmpty verb then pure .badArgument
  else if tokenEquals verb "send" then manageMailboxSend ops readers cursor
  else if tokenEquals verb "status" then do
    runtimeManageLogMailboxStatus ops
    pure .ok
  else if tokenEquals verb "recv" then
    match ops.mailboxReceive with
    | none => pure .unavailable
    | some mailboxReceive => do
      let received ← call mailboxReceive
      pure (if received = 0 then .unavailable else .ok)
  else pure .unknownCommand

/-- `runtime_manage_execute`, with readers of numbers. -/
def manageExecute (command : List UInt8) : Console γ RuntimeManageStatus := do
  let (token, cursor) := nextToken command
  if tokenIsEmpty token then pure .empty
  else if tokenEquals token "runtime" then do
    runtimeManageLogRuntime ops
    pure .ok
  else if tokenEquals token "help" then do
    runtimeManageLogHelp ops
    pure .ok
  else if tokenEquals token "path" then
    match ops.shellPath with
    | none => pure .unavailable
    | some _ => do
      runtimeManageLogShellPath ops
      pure .ok
  else if tokenEquals token "which" then manageWhich ops cursor
  else if tokenEquals token "ps" then do
    runtimeManageLogSnapshot ops
    pure .ok
  else if tokenEquals token "inspect" then manageInspect ops readers cursor
  else if tokenEquals token "kmem" then do
    runtimeManageLogKmem ops
    pure .ok
  else if tokenEquals token "wake" then manageWake ops readers cursor
  else if tokenEquals token "kill" then manageKill ops readers cursor
  else if tokenEquals token "spawn" then manageSpawn ops cursor
  else if tokenEquals token "event" then manageEvent ops cursor
  else if tokenEquals token "demo" then manageDemo ops cursor
  else if tokenEquals token "mailbox" then manageMailbox ops readers cursor
  else pure .unknownCommand

/-- The readers of the source. -/
def tokenReaders : TokenReaders := ⟨parseU32Token, parseI32Token⟩

end Console

/-- `runtime_manage_execute`. -/
def runtimeManageExecute {γ : Type} (command : Option (List UInt8))
    (ops : Option (RuntimeManageOps γ)) : Console γ RuntimeManageStatus :=
  match command, ops with
  | some command, some ops => manageExecute ops tokenReaders command
  | _, _ => pure .badArgument

end TensorOS
