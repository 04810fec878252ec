import TensorOS.Fs.Basic
import TensorOS.Lib.ByteMem

/-!
# System calls: the handle table and the dispatcher

`runtime_syscall.c`. A process names kernel objects by handles, numbers into one table that all
processes share. An entry records the process it belongs to, the type of the object and the object
itself, and `runtime_syscall_dispatch` is one switch over the calls.

The dispatcher reaches everything behind it through a record of function pointers. A callback may
read and write the memory of the caller and its own context, so it is a function on both, and it may
be null. It may also go wrong, as C code can: then it is a `Fault`, and so is the call. Pointers are
addresses, and words are those of the target, 32 bits wide.
-/

namespace TensorOS

namespace Status

def esrch : Int := -3
def enomem : Int := -12
def enosys : Int := -38

end Status

/-! ## The handle table -/

def handleTypeNone : UInt32 := 0
def handleTypeProcess : UInt32 := 1
def handleTypeEvent : UInt32 := 2
def handleTypeMailbox : UInt32 := 3
def handleTypeFile : UInt32 := 4
def handleTypeService : UInt32 := 5

/-- `struct runtime_handle_info`. -/
structure RuntimeHandleInfo where
  handle : UInt32
  ownerPid : UInt32
  type : UInt32
  object : UInt32
  deriving DecidableEq

/-- `struct runtime_syscall_table`. -/
structure RuntimeSyscallTable where
  handles : Fin 16 → RuntimeHandleInfo
  deriving DecidableEq

/-- `runtime_syscall_clear_handle`. -/
def runtimeSyscallClearHandle : RuntimeHandleInfo where
  handle := 0
  ownerPid := 0
  type := handleTypeNone
  object := 0

/-- `runtime_syscall_table_init`. -/
def runtimeSyscallTableInit : RuntimeSyscallTable where
  handles := fun _ ↦ runtimeSyscallClearHandle

namespace RuntimeSyscallTable

/-- Replace one entry. -/
def set (table : RuntimeSyscallTable) (i : Fin 16) (entry : RuntimeHandleInfo) :
    RuntimeSyscallTable :=
  { table with handles := Function.update table.handles i entry }

/-- Clear one entry. -/
def clear (table : RuntimeSyscallTable) (i : Fin 16) : RuntimeSyscallTable :=
  table.set i runtimeSyscallClearHandle

variable {table : RuntimeSyscallTable} {i j : Fin 16} {entry : RuntimeHandleInfo}

@[simp] theorem set_handles_self : (table.set i entry).handles i = entry :=
  Function.update_self ..

theorem set_handles_of_ne (h : j ≠ i) : (table.set i entry).handles j = table.handles j :=
  Function.update_of_ne h ..

theorem set_set {entry' : RuntimeHandleInfo} :
    (table.set i entry).set i entry' = table.set i entry' := by
  simp [set]

end RuntimeSyscallTable

/-- The number of the handle with the index. -/
def handleNumber (i : Fin 16) : UInt32 := UInt32.ofNat (i + 1)

/-- `runtime_syscall_alloc_handle`: the first free entry. It answers 0, here `none`, when the table
is full. -/
def runtimeSyscallAllocHandle (table : RuntimeSyscallTable) (ownerPid type object : UInt32) :
    Option (Fin 16 × RuntimeSyscallTable) :=
  ((List.finRange 16).find? fun i ↦ (table.handles i).type = handleTypeNone).map fun i ↦
    (i, table.set i
      { handle := handleNumber i, ownerPid := ownerPid, type := type, object := object })

/-- `runtime_syscall_lookup_handle`. -/
def runtimeSyscallLookupHandle (table : RuntimeSyscallTable) (handle : UInt32) : Option (Fin 16) :=
  if h : handle ≠ 0 ∧ handle.toNat ≤ 16 then
    let i : Fin 16 := ⟨handle.toNat - 1, by omega⟩
    if (table.handles i).type = handleTypeNone then none else some i
  else none

/-- The entries are handles of one process to one object. -/
def RuntimeHandleInfo.aliases (entry entry' : RuntimeHandleInfo) : Bool :=
  entry'.type = entry.type ∧ entry'.ownerPid = entry.ownerPid ∧ entry'.object = entry.object

/-- `runtime_syscall_handle_alias_count`. -/
def runtimeSyscallHandleAliasCount (table : RuntimeSyscallTable) (handle : RuntimeHandleInfo) : ℕ :=
  (List.finRange 16).countP fun i ↦ handle.aliases (table.handles i)

/-! ## Callbacks -/

/-- What lies behind the interface: the memory of the callers, and the context of the callbacks. -/
structure SyscallWorld (ω : Type) where
  memory : ℕ → UInt8
  context : ω

/-- A callback with its arguments. -/
abbrev Callback (ω α : Type) := SyscallWorld ω → Except Fault (α × SyscallWorld ω)

variable {ω α β : Type}

/-- A callback with its result converted. -/
def Callback.answers (f : Callback ω α) (answer : α → β) : Callback ω β := fun w ↦ do
  let (a, w) ← f w
  .ok (answer a, w)

/-- `struct runtime_syscall_file_ops`. An open gets the value of the word that its last argument
points to, and returns the value that it leaves there. What is not set is null. -/
structure RuntimeSyscallFileOps (ω : Type) where
  «open» : Option (UInt32 → UInt32 → UInt32 → Callback ω (Int × UInt32)) := none
  read : Option (UInt32 → UInt32 → UInt32 → Callback ω Int) := none
  write : Option (UInt32 → UInt32 → UInt32 → Callback ω Int) := none
  close : Option (UInt32 → Callback ω Int) := none
  stat : Option (UInt32 → UInt32 → Callback ω Int) := none
  readdir : Option (UInt32 → UInt32 → Callback ω Int) := none
  seek : Option (UInt32 → Int32 → UInt32 → Callback ω Int) := none
  remove : Option (UInt32 → Callback ω Int) := none
  rename : Option (UInt32 → UInt32 → Callback ω Int) := none

/-- `struct runtime_syscall_ops`. `process_current_pid` is a question and changes nothing. -/
structure RuntimeSyscallOps (ω : Type) where
  processCurrentPid : Option (SyscallWorld ω → UInt32) := none
  processSleep : Option (UInt32 → Callback ω Unit) := none
  processKill : Option (UInt32 → Int32 → Callback ω Int) := none
  processInfo : Option (UInt32 → UInt32 → Callback ω Int) := none
  processSpawnNamed : Option (UInt32 → UInt32 → Callback ω UInt32) := none
  processSpawnableCount : Option (Callback ω UInt32) := none
  processSpawnableInfo : Option (UInt32 → UInt32 → Callback ω Int) := none
  serviceCount : Option (Callback ω UInt32) := none
  serviceInfo : Option (UInt32 → UInt32 → Callback ω Int) := none
  serviceOpen : Option (UInt32 → UInt32 → Callback ω (Int × UInt32)) := none
  serviceClose : Option (UInt32 → Callback ω Int) := none
  serviceRequest : Option (UInt32 → UInt32 → UInt32 → Callback ω Int) := none
  appCount : Option (Callback ω UInt32) := none
  appInfo : Option (UInt32 → UInt32 → Callback ω Int) := none
  appLaunch : Option (UInt32 → Callback ω UInt32) := none
  eventCreate : Option (Callback ω UInt32) := none
  eventDestroy : Option (UInt32 → Callback ω Int) := none
  eventSignal : Option (UInt32 → Callback ω UInt32) := none
  mailboxCreate : Option (Callback ω UInt32) := none
  mailboxDestroy : Option (UInt32 → Callback ω Int) := none
  mailboxSend : Option (UInt32 → UInt32 → Callback ω Int) := none
  mailboxReceive : Option (UInt32 → UInt32 → Callback ω Int) := none
  fsMkdir : Option (UInt32 → UInt32 → Callback ω Int) := none
  fileOps : Option (RuntimeSyscallFileOps ω) := none

/-- The answer of a call: its status, the table and what lies behind it. -/
abbrev SyscallAnswer (ω : Type) := Int × RuntimeSyscallTable × SyscallWorld ω

/-- The pid that the calls use: 0 when there is no callback for it. -/
def RuntimeSyscallOps.currentPid (ops : RuntimeSyscallOps ω) (w : SyscallWorld ω) : UInt32 :=
  (ops.processCurrentPid.map fun pid ↦ pid w).getD 0

/-! ## Access to a handle -/

/-- `runtime_syscall_check_handle_access`. -/
def runtimeSyscallCheckHandleAccess (handle : RuntimeHandleInfo) (ops : RuntimeSyscallOps ω)
    (w : SyscallWorld ω) : Int :=
  match ops.processCurrentPid with
  | none => Status.einval
  | some pid =>
    if handle.ownerPid ≠ 0 ∧ handle.ownerPid ≠ pid w then Status.ebadf else Status.ok

/-- The end of a call that is a callback: null is not implemented. -/
def forwardCall (table : RuntimeSyscallTable) (callback : Option (Callback ω Int))
    (w : SyscallWorld ω) : Except Fault (SyscallAnswer ω) :=
  match callback with
  | none => .ok (Status.enosys, table, w)
  | some f => do
    let (status, w) ← f w
    .ok (status, table, w)

/-- The calls on a handle of one type: the handle is looked up, its type and its owner are checked,
and the rest is a callback. -/
def forwardHandleCall (ops : RuntimeSyscallOps ω) (table : RuntimeSyscallTable)
    (type handle : UInt32)
    (callback : RuntimeHandleInfo → Option (Callback ω Int)) (w : SyscallWorld ω) :
    Except Fault (SyscallAnswer ω) :=
  match runtimeSyscallLookupHandle table handle with
  | none => .ok (Status.ebadf, table, w)
  | some i =>
    if (table.handles i).type ≠ type then .ok (Status.ebadf, table, w)
    else
      let status := runtimeSyscallCheckHandleAccess (table.handles i) ops w
      if status ≠ Status.ok then .ok (status, table, w)
      else forwardCall table (callback (table.handles i)) w

/-! ## Closing a handle -/

/-- The end of `runtime_syscall_close_handle` for a handle whose object has to be destroyed.
`destroyed` tells a refusal from a success, and `refusal` is the status for it. -/
def closeLastHandle (table : RuntimeSyscallTable) (i : Fin 16)
    (destroy : Option (UInt32 → Callback ω Int)) (destroyed : Int → Bool) (refusal : Int)
    (w : SyscallWorld ω) : Except Fault (SyscallAnswer ω) :=
  match destroy with
  | none => .ok (Status.enosys, table, w)
  | some f => do
    let (result, w) ← f (table.handles i).object w
    if destroyed result then .ok (Status.ok, table.clear i, w) else .ok (refusal, table, w)

/-- `runtime_syscall_close_handle`, on the entry with the index. -/
def runtimeSyscallCloseHandle (i : Fin 16) (ops : RuntimeSyscallOps ω) (table : RuntimeSyscallTable)
    (w : SyscallWorld ω) (enforceAccess : Bool) : Except Fault (SyscallAnswer ω) :=
  let handle := table.handles i
  let accessStatus := runtimeSyscallCheckHandleAccess handle ops w
  if enforceAccess ∧ accessStatus ≠ Status.ok then .ok (accessStatus, table, w)
  else
    let shared := 1 < runtimeSyscallHandleAliasCount table handle
    if handle.type = handleTypeProcess then .ok (Status.ok, table.clear i, w)
    else if handle.type = handleTypeEvent then
      if shared then .ok (Status.ok, table.clear i, w)
      else closeLastHandle table i ops.eventDestroy (· ≠ 0) Status.ebusy w
    else if handle.type = handleTypeMailbox then
      if shared then .ok (Status.ok, table.clear i, w)
      else closeLastHandle table i ops.mailboxDestroy (· ≠ 0) Status.ebusy w
    else if handle.type = handleTypeFile then
      if shared then .ok (Status.ok, table.clear i, w)
      else closeLastHandle table i (ops.fileOps.bind (·.close)) (0 ≤ ·) Status.ebadf w
    else if handle.type = handleTypeService then
      if shared then .ok (Status.ok, table.clear i, w)
      -- without a callback the handle is cleared all the same
      else if ops.serviceClose.isNone then .ok (Status.ok, table.clear i, w)
      else closeLastHandle table i ops.serviceClose (0 ≤ ·) Status.ebadf w
    else .ok (Status.ebadf, table, w)

/-- The loop of `runtime_syscall_release_owner_handles`. -/
def releaseOwnerLoop (ops : RuntimeSyscallOps ω) (ownerPid : UInt32) :
    List (Fin 16) → ℕ → RuntimeSyscallTable → SyscallWorld ω →
      Except Fault (ℕ × RuntimeSyscallTable × SyscallWorld ω)
  | [], released, table, w => .ok (released, table, w)
  | i :: rest, released, table, w =>
    if (table.handles i).type = handleTypeNone ∨ (table.handles i).ownerPid ≠ ownerPid then
      releaseOwnerLoop ops ownerPid rest released table w
    else do
      let (status, table, w) ← runtimeSyscallCloseHandle i ops table w false
      releaseOwnerLoop ops ownerPid rest (if status = Status.ok then released + 1 else released)
        table w

/-- `runtime_syscall_release_owner_handles`. -/
def runtimeSyscallReleaseOwnerHandles (table : RuntimeSyscallTable) (ownerPid : UInt32)
    (ops : RuntimeSyscallOps ω) (w : SyscallWorld ω) :
    Except Fault (ℕ × RuntimeSyscallTable × SyscallWorld ω) :=
  if ownerPid = 0 then .ok (0, table, w)
  else releaseOwnerLoop ops ownerPid (List.finRange 16) 0 table w

/-! ## New handles -/

/-- A handle to an object that is there already. -/
def grantHandle (table : RuntimeSyscallTable) (ownerPid type object : UInt32) (w : SyscallWorld ω) :
    Except Fault (SyscallAnswer ω) :=
  match runtimeSyscallAllocHandle table ownerPid type object with
  | none => .ok (Status.enospc, table, w)
  | some (i, table) => .ok (int32 (handleNumber i), table, w)

/-- `EVENT_CREATE` and `MAILBOX_CREATE`. The object is made before there is an entry for it. -/
def createObject (table : RuntimeSyscallTable) (ownerPid type : UInt32)
    (create : Option (Callback ω UInt32)) (w : SyscallWorld ω) : Except Fault (SyscallAnswer ω) :=
  match create with
  | none => .ok (Status.enosys, table, w)
  | some f => do
    let (object, w) ← f w
    match runtimeSyscallAllocHandle table ownerPid type object with
    | none => .ok (Status.enospc, table, w)
    | some (i, table) =>
      if (table.handles i).object = 0 then .ok (Status.enomem, table.clear i, w)
      else .ok (int32 (handleNumber i), table, w)

/-- `SERVICE_OPEN` and `FILE_OPEN`. The object is closed again when there is no entry for it. -/
def openObject (table : RuntimeSyscallTable) (ownerPid type : UInt32)
    (opens : Option (Callback ω (Int × UInt32))) (close : Option (UInt32 → Callback ω Int))
    (w : SyscallWorld ω) : Except Fault (SyscallAnswer ω) :=
  match opens with
  | none => .ok (Status.enosys, table, w)
  | some f => do
    let ((status, object), w) ← f w
    if status < 0 then .ok (status, table, w)
    else
      match runtimeSyscallAllocHandle table ownerPid type object with
      | some (i, table) => .ok (int32 (handleNumber i), table, w)
      | none =>
        match close with
        | none => .ok (Status.enospc, table, w)
        | some close => do
          let (_, w) ← close object w
          .ok (Status.enospc, table, w)

/-- `PROCESS_SPAWN` and `APP_LAUNCH`. -/
def spawnProcess (table : RuntimeSyscallTable) (ownerPid : UInt32)
    (spawn : Option (Callback ω UInt32)) (w : SyscallWorld ω) : Except Fault (SyscallAnswer ω) :=
  match spawn with
  | none => .ok (Status.enosys, table, w)
  | some f => do
    let (pid, w) ← f w
    if pid = 0 then .ok (Status.enoent, table, w)
    else grantHandle table ownerPid handleTypeProcess pid w

/-! ## The dispatcher -/

/-- `enum runtime_syscall_number`, in the order of the numbers. -/
inductive RuntimeSyscallNumber
  | getpid | sleep | kill | handleClose | processSelf | eventCreate | mailboxCreate | fileOpen
  | fileRead | fileWrite | eventSignal | mailboxSend | mailboxReceive | handleDup | handleInfo
  | fileStat | mkdir | fileReaddir | fileSeek | fileRemove | fileRename | processSpawn
  | processSpawnableCount | processSpawnableInfo | serviceCount | serviceInfo | serviceOpen
  | serviceRequest | appCount | appInfo | appLaunch | processInfo | processTerminate
  deriving DecidableEq

open RuntimeSyscallNumber in
/-- The calls in the order of their numbers. -/
def runtimeSyscallNumbers : List RuntimeSyscallNumber :=
  [getpid, sleep, kill, handleClose, processSelf, eventCreate, mailboxCreate, fileOpen,
    fileRead, fileWrite, eventSignal, mailboxSend, mailboxReceive, handleDup, handleInfo,
    fileStat, mkdir, fileReaddir, fileSeek, fileRemove, fileRename, processSpawn,
    processSpawnableCount, processSpawnableInfo, serviceCount, serviceInfo, serviceOpen,
    serviceRequest, appCount, appInfo, appLaunch, processInfo, processTerminate]

/-- `struct runtime_syscall_args`. -/
structure RuntimeSyscallArgs where
  arg0 : UInt32
  arg1 : UInt32
  arg2 : UInt32
  arg3 : UInt32
  deriving DecidableEq

/-- `runtime_syscall_copy_handle_info`, through a pointer of the caller. -/
def runtimeSyscallCopyHandleInfo (w : SyscallWorld ω) (dest : UInt32) (source : RuntimeHandleInfo) :
    SyscallWorld ω :=
  { w with
    memory := writeBytes w.memory dest.toNat
      (le32 source.handle ++ le32 source.ownerPid ++ le32 source.type ++ le32 source.object) }

/-- The switch of `runtime_syscall_dispatch`. -/
def RuntimeSyscallNumber.run (number : RuntimeSyscallNumber) (args : RuntimeSyscallArgs)
    (ops : RuntimeSyscallOps ω) (table : RuntimeSyscallTable) (w : SyscallWorld ω) :
    Except Fault (SyscallAnswer ω) :=
  let currentPid := ops.currentPid w
  match number with
  | getpid =>
    .ok (if ops.processCurrentPid.isNone then Status.enosys else int32 currentPid, table, w)
  | sleep =>
    forwardCall table
      (ops.processSleep.map fun f ↦ Callback.answers (f args.arg0) fun _ ↦ Status.ok) w
  | kill =>
    forwardCall table (ops.processKill.map fun f ↦ Callback.answers (f args.arg0 args.arg1.toInt32)
      fun killed ↦ if killed = 0 then Status.esrch else Status.ok) w
  | handleClose =>
    match runtimeSyscallLookupHandle table args.arg0 with
    | none => .ok (Status.ebadf, table, w)
    | some i => runtimeSyscallCloseHandle i ops table w true
  | processSelf =>
    if ops.processCurrentPid.isNone then .ok (Status.enosys, table, w)
    else grantHandle table currentPid handleTypeProcess currentPid w
  | processInfo =>
    forwardHandleCall ops table handleTypeProcess args.arg0 (fun handle ↦
      if args.arg1 = 0 then none else ops.processInfo.map fun f ↦ f handle.object args.arg1) w
  | processTerminate =>
    forwardHandleCall ops table handleTypeProcess args.arg0 (fun handle ↦
      ops.processKill.map fun f ↦ Callback.answers (f handle.object args.arg1.toInt32)
        fun killed ↦ if killed = 0 then Status.esrch else Status.ok) w
  | eventCreate => createObject table currentPid handleTypeEvent ops.eventCreate w
  | processSpawn =>
    spawnProcess table currentPid (if args.arg0 = 0 then none
      else ops.processSpawnNamed.map fun f ↦ f args.arg0 args.arg1) w
  | processSpawnableCount =>
    forwardCall table (ops.processSpawnableCount.map fun f ↦ Callback.answers f int32) w
  | processSpawnableInfo =>
    forwardCall table (if args.arg1 = 0 then none
      else ops.processSpawnableInfo.map fun f ↦ f args.arg0 args.arg1) w
  | serviceCount => forwardCall table (ops.serviceCount.map fun f ↦ Callback.answers f int32) w
  | serviceInfo =>
    forwardCall table (if args.arg1 = 0 then none
      else ops.serviceInfo.map fun f ↦ f args.arg0 args.arg1) w
  | serviceOpen =>
    openObject table currentPid handleTypeService (if args.arg0 = 0 then none
      else ops.serviceOpen.map fun f ↦ f args.arg0 0) ops.serviceClose w
  | serviceRequest =>
    forwardHandleCall ops table handleTypeService args.arg0 (fun handle ↦
      if args.arg2 = 0 then none
      else ops.serviceRequest.map fun f ↦ f handle.object args.arg1 args.arg2) w
  | appCount => forwardCall table (ops.appCount.map fun f ↦ Callback.answers f int32) w
  | appInfo =>
    forwardCall table (if args.arg1 = 0 then none
      else ops.appInfo.map fun f ↦ f args.arg0 args.arg1) w
  | appLaunch =>
    spawnProcess table currentPid (if args.arg0 = 0 then none
      else ops.appLaunch.map fun f ↦ f args.arg0) w
  | mailboxCreate => createObject table currentPid handleTypeMailbox ops.mailboxCreate w
  | fileOpen =>
    openObject table currentPid handleTypeFile (ops.fileOps.bind fun file ↦
      file.open.map fun f ↦ f args.arg0 args.arg1 0) (ops.fileOps.bind (·.close)) w
  | fileRead =>
    forwardHandleCall ops table handleTypeFile args.arg0 (fun handle ↦
      ops.fileOps.bind fun file ↦ file.read.map fun f ↦ f handle.object args.arg1 args.arg2) w
  | fileWrite =>
    forwardHandleCall ops table handleTypeFile args.arg0 (fun handle ↦
      ops.fileOps.bind fun file ↦ file.write.map fun f ↦ f handle.object args.arg1 args.arg2) w
  | eventSignal =>
    forwardHandleCall ops table handleTypeEvent args.arg0 (fun handle ↦
      ops.eventSignal.map fun f ↦ Callback.answers (f handle.object) int32) w
  | mailboxSend =>
    forwardHandleCall ops table handleTypeMailbox args.arg0 (fun handle ↦
      ops.mailboxSend.map fun f ↦ Callback.answers (f handle.object args.arg1)
        fun sent ↦ if sent = 0 then Status.ebusy else Status.ok) w
  | mailboxReceive =>
    forwardHandleCall ops table handleTypeMailbox args.arg0 (fun handle ↦
      ops.mailboxReceive.map fun f ↦ Callback.answers (f handle.object args.arg1)
        fun received ↦ if received = 0 then Status.ebusy else Status.ok) w
  | handleDup =>
    match runtimeSyscallLookupHandle table args.arg0 with
    | none => .ok (Status.ebadf, table, w)
    | some i =>
      let handle := table.handles i
      let status := runtimeSyscallCheckHandleAccess handle ops w
      if status ≠ Status.ok then .ok (status, table, w)
      else grantHandle table handle.ownerPid handle.type handle.object w
  | handleInfo =>
    match runtimeSyscallLookupHandle table args.arg0 with
    | none => .ok (Status.ebadf, table, w)
    | some i =>
      if args.arg1 = 0 then .ok (Status.ebadf, table, w)
      else
        let status := runtimeSyscallCheckHandleAccess (table.handles i) ops w
        if status ≠ Status.ok then .ok (status, table, w)
        else .ok (Status.ok, table, runtimeSyscallCopyHandleInfo w args.arg1 (table.handles i))
  | fileStat =>
    forwardHandleCall ops table handleTypeFile args.arg0 (fun handle ↦
      if args.arg1 = 0 then none
      else ops.fileOps.bind fun file ↦ file.stat.map fun f ↦ f handle.object args.arg1) w
  | mkdir => forwardCall table (ops.fsMkdir.map fun f ↦ f args.arg0 args.arg1) w
  | fileReaddir =>
    forwardHandleCall ops table handleTypeFile args.arg0 (fun handle ↦
      if args.arg1 = 0 then none
      else ops.fileOps.bind fun file ↦ file.readdir.map fun f ↦ f handle.object args.arg1) w
  | fileSeek =>
    forwardHandleCall ops table handleTypeFile args.arg0 (fun handle ↦
      ops.fileOps.bind fun file ↦
        file.seek.map fun f ↦ f handle.object args.arg1.toInt32 args.arg2) w
  | fileRemove =>
    forwardCall table (if args.arg0 = 0 then none
      else ops.fileOps.bind fun file ↦ file.remove.map fun f ↦ f args.arg0) w
  | fileRename =>
    forwardCall table (if args.arg0 = 0 ∨ args.arg1 = 0 then none
      else ops.fileOps.bind fun file ↦ file.rename.map fun f ↦ f args.arg0 args.arg1) w

/-- `runtime_syscall_dispatch`. -/
def runtimeSyscallDispatch (syscallNumber : UInt32) (args : RuntimeSyscallArgs)
    (ops : RuntimeSyscallOps ω) (table : RuntimeSyscallTable) (w : SyscallWorld ω) :
    Except Fault (SyscallAnswer ω) :=
  match runtimeSyscallNumbers[syscallNumber.toNat]? with
  | none => .ok (Status.enosys, table, w)
  | some number => number.run args ops table w

end TensorOS
