import TensorOS.Syscall.Files
import TensorOS.Sched.Process

/-!
# Service sessions

`runtime_service.c` keeps a table of eight sessions with the one service of the kernel, and
`kernel.c` puts three callbacks on top of it. A session records the process that opened it and the
process that provides the service. The handle to a session is the number of its slot. When a
request finds that the provider has died or was replaced, all sessions with that provider are
cleared, but the handles to them stay in the handle table. So a handle may outlive its session, and
the slot may be given to another process (`session_confused`). As long as every process that opens
a session finds no handle of another process to the slot that it takes, every session is used by
its own process only (`sessions_not_confused`).
-/

namespace TensorOS

variable {ω : Type}

/-! ## The session table -/

/-- `struct runtime_service_session_entry`. -/
structure RuntimeServiceSessionEntry where
  object : UInt32
  ownerPid : UInt32
  providerPid : UInt32
  serviceSlot : UInt32
  active : UInt8
  deriving DecidableEq

/-- `struct runtime_service_session_info`. -/
structure RuntimeServiceSessionInfo where
  object : UInt32
  ownerPid : UInt32
  providerPid : UInt32
  serviceSlot : UInt32
  deriving DecidableEq

/-- `struct runtime_service_session_table`. -/
structure RuntimeServiceSessionTable where
  entries : Fin 8 → RuntimeServiceSessionEntry
  deriving DecidableEq

/-- `runtime_service_session_clear`. -/
def runtimeServiceSessionClear : RuntimeServiceSessionEntry where
  object := 0
  ownerPid := 0
  providerPid := 0
  serviceSlot := 0
  active := 0

/-- `runtime_service_session_table_init`. -/
def runtimeServiceSessionTableInit : RuntimeServiceSessionTable where
  entries := fun _ ↦ runtimeServiceSessionClear

/-- Replace one entry. -/
def RuntimeServiceSessionTable.set (table : RuntimeServiceSessionTable) (t : Fin 8)
    (entry : RuntimeServiceSessionEntry) : RuntimeServiceSessionTable :=
  { table with entries := Function.update table.entries t entry }

/-- The first entry that is not active. -/
def RuntimeServiceSessionTable.firstInactive (table : RuntimeServiceSessionTable) :
    Option (Fin 8) :=
  (List.finRange 8).find? fun t ↦ (table.entries t).active = 0

/-- The first active entry with the object. -/
def RuntimeServiceSessionTable.findActive (table : RuntimeServiceSessionTable) (object : UInt32) :
    Option (Fin 8) :=
  (List.finRange 8).find? fun t ↦
    (table.entries t).active ≠ 0 ∧ (table.entries t).object = object

/-- `runtime_service_session_open`, with the word that its last argument points to. -/
def runtimeServiceSessionOpen (table : RuntimeServiceSessionTable)
    (ownerPid providerPid serviceSlot object : UInt32) :
    Int × RuntimeServiceSessionTable × UInt32 :=
  if ownerPid = 0 ∨ providerPid = 0 then (Status.einval, table, object)
  else
    match table.firstInactive with
    | none => (Status.enospc, table, object)
    | some t => (Status.ok, table.set t ⟨slotNumber t, ownerPid, providerPid, serviceSlot, 1⟩,
        slotNumber t)

/-- `runtime_service_session_close`. -/
def runtimeServiceSessionClose (table : RuntimeServiceSessionTable) (object : UInt32) :
    Int × RuntimeServiceSessionTable :=
  if object = 0 then (Status.einval, table)
  else
    match table.findActive object with
    | none => (Status.ebadf, table)
    | some t => (Status.ok, table.set t runtimeServiceSessionClear)

/-- `runtime_service_session_info`, with the record that its last argument points to. -/
def runtimeServiceSessionInfo (table : RuntimeServiceSessionTable) (object : UInt32)
    (info : RuntimeServiceSessionInfo) : Int × RuntimeServiceSessionInfo :=
  if object = 0 then (Status.einval, info)
  else
    match table.findActive object with
    | none => (Status.ebadf, info)
    | some t =>
      let entry := table.entries t
      (Status.ok, ⟨entry.object, entry.ownerPid, entry.providerPid, entry.serviceSlot⟩)

/-- `runtime_service_session_invalidate_provider`. -/
def runtimeServiceSessionInvalidateProvider (table : RuntimeServiceSessionTable)
    (providerPid : UInt32) : ℕ × RuntimeServiceSessionTable :=
  if providerPid = 0 then (0, table)
  else
    let bound t := decide ((table.entries t).active ≠ 0 ∧
      (table.entries t).providerPid = providerPid)
    ((List.finRange 8).countP bound,
      { entries := fun t ↦ if bound t then runtimeServiceSessionClear else table.entries t })

/-! ## The callbacks -/

/-- One use of a session: the process that made the call, and the owner recorded in the session. -/
structure SessionUse where
  caller : UInt32
  opener : UInt32
  deriving DecidableEq

/-- What lies behind the callbacks: the sessions, the running process, `g_service_pid`, the states
of the processes in a snapshot, and the rest. The uses of sessions so far are recorded, the last
one first; no code reads them. -/
structure ServiceContext (ω : Type) where
  sessions : RuntimeServiceSessionTable
  pid : UInt32
  servicePid : UInt32
  snapshot : UInt32 → Option ProcessState
  rest : ω
  uses : List SessionUse

/-- `runtime_service_string_equals`, with the rest of the second string. -/
def runtimeServiceStringEquals (memory : ℕ → UInt8) (lhs : ℕ) : List UInt8 → Bool
  | [] => memory lhs = 0
  | c :: rest => memory lhs ≠ 0 ∧ memory lhs = c ∧ runtimeServiceStringEquals memory (lhs + 1) rest

/-- The key of the service, `"accum"`. -/
def accumKey : List UInt8 := [97, 99, 99, 117, 109]

/-- `runtime_service_provider_pid`. -/
def runtimeServiceProviderPid (context : ServiceContext ω) : UInt32 :=
  if context.servicePid = 0 then 0
  else
    match context.snapshot context.servicePid with
    | none | some .zombie | some .unused => 0
    | some _ => context.servicePid

/-- `runtime_syscall_service_open`. -/
def runtimeSyscallServiceOpen (serviceKey object : UInt32) :
    Callback (ServiceContext ω) (Int × UInt32) := fun w ↦
  if serviceKey = 0 then .ok ((Status.einval, object), w)
  else if runtimeServiceStringEquals w.memory serviceKey.toNat accumKey = false then
    .ok ((Status.enoent, object), w)
  else
    let providerPid := runtimeServiceProviderPid w.context
    if providerPid = 0 then .ok ((Status.esrch, object), w)
    else
      let (status, sessions, object) :=
        runtimeServiceSessionOpen w.context.sessions w.context.pid providerPid 0 object
      .ok ((status, object), { w with context := { w.context with sessions := sessions } })

/-- The record of a use of the session with the object. -/
def ServiceContext.recordUse (context : ServiceContext ω) (object : UInt32) : List SessionUse :=
  match context.sessions.findActive object with
  | none => context.uses
  | some t => ⟨context.pid, (context.sessions.entries t).ownerPid⟩ :: context.uses

/-- `runtime_syscall_service_close`. -/
def runtimeSyscallServiceClose (object : UInt32) : Callback (ServiceContext ω) Int := fun w ↦
  let (status, sessions) := runtimeServiceSessionClose w.context.sessions object
  .ok (status, { w with
    context := { w.context with sessions := sessions, uses := w.context.recordUse object } })

section Request

variable (exchange : UInt32 → ω → Option UInt32 × ω)

/-- `runtime_service_request_sync`. The exchange with the provider is a parameter; it is `none` when
the event, the mailboxes or the semaphore for it are missing. -/
def runtimeServiceRequestSync (providerPid request response : UInt32) :
    Callback (ServiceContext ω) Bool := fun w ↦
  if response = 0 ∨ providerPid = 0 ∨ w.context.servicePid ≠ providerPid then .ok (false, w)
  else
    match exchange request w.context.rest with
    | (none, rest) => .ok (false, { w with context := { w.context with rest := rest } })
    | (some reply, rest) => .ok (true,
        { memory := writeBytes w.memory response.toNat (le32 reply)
          context := { w.context with rest := rest } })

/-- `runtime_syscall_service_request`. -/
def runtimeSyscallServiceRequest (object request response : UInt32) :
    Callback (ServiceContext ω) Int := fun w ↦
  if response = 0 then .ok (Status.einval, w)
  else
    let (status, session) := runtimeServiceSessionInfo w.context.sessions object ⟨0, 0, 0, 0⟩
    if status ≠ Status.ok then .ok (Status.ebadf, w)
    else
      let providerPid := runtimeServiceProviderPid w.context
      if providerPid = 0 ∨ providerPid ≠ session.providerPid then
        let (_, sessions) :=
          runtimeServiceSessionInvalidateProvider w.context.sessions session.providerPid
        .ok (Status.esrch, { w with context := { w.context with sessions := sessions } })
      else do
        let (made, w) ← runtimeServiceRequestSync exchange providerPid request response
          { w with context := { w.context with uses := w.context.recordUse object } }
        .ok (if made then Status.ok else Status.ebusy, w)

/-- The callbacks for services. -/
def serviceOps : RuntimeSyscallOps (ServiceContext ω) where
  processCurrentPid := some (·.context.pid)
  serviceOpen := some runtimeSyscallServiceOpen
  serviceClose := some runtimeSyscallServiceClose
  serviceRequest := some (runtimeSyscallServiceRequest exchange)

end Request

/-! ## Runs -/

/-- The handles, the sessions, and the uses of sessions so far. -/
structure SessionState where
  table : RuntimeSyscallTable
  sessions : RuntimeServiceSessionTable
  uses : List SessionUse
  deriving DecidableEq

/-- The calls on sessions and on handles to them. -/
def RuntimeSyscallNumber.onSessions : RuntimeSyscallNumber → Bool
  | serviceOpen | serviceRequest | handleDup | handleClose => true
  | _ => false

/-- The session that `SERVICE_OPEN` takes, if it gets as far. -/
def sessionTaken (w : SyscallWorld (ServiceContext ω)) (args : RuntimeSyscallArgs) :
    Option (Fin 8) :=
  if args.arg0 ≠ 0 ∧ runtimeServiceStringEquals w.memory args.arg0.toNat accumKey = true ∧
      runtimeServiceProviderPid w.context ≠ 0 ∧ w.context.pid ≠ 0 then
    w.context.sessions.firstInactive
  else none

/-- If the call opens a session and there is a free handle, then all handles to its slot belong to
the caller. -/
def NoStaleHandle (table : RuntimeSyscallTable) (w : SyscallWorld (ServiceContext ω))
    (number : RuntimeSyscallNumber) (args : RuntimeSyscallArgs) : Prop :=
  number = .serviceOpen → ¬ table.Full → ∀ t, sessionTaken w args = some t →
    ∀ i, table.Refers .service i (slotNumber t) → (table.handles i).ownerPid = w.context.pid

/-- One step: a call that `ok` permits. The process that runs, the memory, the provider of the
service and the states of the processes are any, so the provider may die and be replaced between
two calls. -/
inductive SessionStep (exchange : UInt32 → ω → Option UInt32 × ω)
    (ok : RuntimeSyscallTable → SyscallWorld (ServiceContext ω) → RuntimeSyscallNumber →
      RuntimeSyscallArgs → Prop) (s : SessionState) : SessionState → Prop
  | call {syscallNumber : UInt32} {number : RuntimeSyscallNumber} {args : RuntimeSyscallArgs}
      {w w' : SyscallWorld (ServiceContext ω)} {status : Int} {table' : RuntimeSyscallTable} :
      w.context.sessions = s.sessions → w.context.uses = s.uses →
      runtimeSyscallNumbers[syscallNumber.toNat]? = some number → number.onSessions = true →
      ok s.table w number args →
      runtimeSyscallDispatch syscallNumber args (serviceOps exchange) s.table w
        = .ok (status, table', w') →
      SessionStep exchange ok s ⟨table', w'.context.sessions, w'.context.uses⟩

/-- No handle, no session, and none was used. -/
def SessionStart (s : SessionState) : Prop :=
  s = ⟨runtimeSyscallTableInit, runtimeServiceSessionTableInit, []⟩

/-! ## The invariant -/

/-- A session that is active has its own number and was opened by a process, and the handles to it
belong to this process. -/
structure SessionsMatch (table : RuntimeSyscallTable) (sessions : RuntimeServiceSessionTable) :
    Prop where
  object : ∀ t, (sessions.entries t).active ≠ 0 → (sessions.entries t).object = slotNumber t
  opened : ∀ t, (sessions.entries t).active ≠ 0 → (sessions.entries t).ownerPid ≠ 0
  owner : ∀ {i t}, table.Refers .service i (slotNumber t) → (sessions.entries t).active ≠ 0 →
    (sessions.entries t).ownerPid = (table.handles i).ownerPid

/-- Every use of a session was made by the process that opened it. -/
def UsedByOpener (uses : List SessionUse) : Prop := ∀ use ∈ uses, use.caller = use.opener

section Sessions

variable {table table' : RuntimeSyscallTable} {sessions sessions' : RuntimeServiceSessionTable}
  {w w' : SyscallWorld (ServiceContext ω)} {object : UInt32} {t : Fin 8} {i j : Fin 16}

theorem findActive_eq_some (h : sessions.findActive object = some t) :
    (sessions.entries t).active ≠ 0 ∧ (sessions.entries t).object = object := by
  simpa using List.find?_some h

/-- Every entry is as it was, or not active. -/
def OnlyClears (sessions sessions' : RuntimeServiceSessionTable) : Prop :=
  ∀ t, sessions'.entries t = sessions.entries t ∨ (sessions'.entries t).active = 0

theorem onlyClears_set (sessions : RuntimeServiceSessionTable) (t : Fin 8) :
    OnlyClears sessions (sessions.set t runtimeServiceSessionClear) := by
  intro t'
  by_cases ht : t' = t
  · subst ht
    exact Or.inr (by simp [RuntimeServiceSessionTable.set, runtimeServiceSessionClear])
  · exact Or.inl (Function.update_of_ne ht ..)

theorem onlyClears_close (sessions : RuntimeServiceSessionTable) (object : UInt32) :
    OnlyClears sessions (runtimeServiceSessionClose sessions object).2 := by
  rw [runtimeServiceSessionClose]
  split
  · exact fun _ ↦ Or.inl rfl
  · split
    · exact fun _ ↦ Or.inl rfl
    · exact onlyClears_set sessions _

theorem onlyClears_invalidateProvider (sessions : RuntimeServiceSessionTable)
    (providerPid : UInt32) :
    OnlyClears sessions (runtimeServiceSessionInvalidateProvider sessions providerPid).2 := by
  rw [runtimeServiceSessionInvalidateProvider]
  split
  · exact fun _ ↦ Or.inl rfl
  · intro t
    dsimp only
    split
    · exact Or.inr rfl
    · exact Or.inl rfl

theorem SessionsMatch.clears (h : SessionsMatch table sessions)
    (hclears : OnlyClears sessions sessions') : SessionsMatch table sessions' := by
  have hsame : ∀ {t}, (sessions'.entries t).active ≠ 0 →
      sessions'.entries t = sessions.entries t := by
    intro t hactive
    exact (hclears t).resolve_right hactive
  constructor
  · intro t hactive
    have hentry := hsame hactive
    rw [hentry] at hactive ⊢
    exact h.object t hactive
  · intro t hactive
    have hentry := hsame hactive
    rw [hentry] at hactive ⊢
    exact h.opened t hactive
  · intro i t hi hactive
    have hentry := hsame hactive
    rw [hentry] at hactive ⊢
    exact h.owner hi hactive

theorem SessionsMatch.clear (h : SessionsMatch table sessions) :
    SessionsMatch (table.clear i) sessions := by
  refine ⟨h.object, h.opened, fun {j t} hj hactive ↦ ?_⟩
  have hji : j ≠ i := by
    rintro rfl
    exact not_refers_clear hj
  rw [RuntimeSyscallTable.clear, RuntimeSyscallTable.set_handles_of_ne hji]
  exact h.owner ((RuntimeSyscallTable.refers_set_of_ne hji).mp hj) hactive

theorem SessionsMatch.dup (h : SessionsMatch table sessions) {number : UInt32} :
    SessionsMatch (table.set j ⟨number, (table.handles i).ownerPid, (table.handles i).type,
      (table.handles i).object⟩) sessions := by
  refine ⟨h.object, h.opened, fun {a t} ha hactive ↦ ?_⟩
  by_cases haj : a = j
  · subst haj
    rw [RuntimeSyscallTable.set_handles_self]
    obtain ⟨htype, hobject⟩ := RuntimeSyscallTable.refers_set_self.mp ha
    have hi : table.Refers .service i (slotNumber t) := ⟨htype, hobject⟩
    exact h.owner hi hactive
  · rw [RuntimeSyscallTable.set_handles_of_ne haj]
    exact h.owner ((RuntimeSyscallTable.refers_set_of_ne haj).mp ha) hactive

/-- A session may be opened if all handles to its slot belong to the process that opens it. -/
theorem SessionsMatch.open (h : SessionsMatch table sessions) {pid providerPid number : UInt32}
    (hpid : pid ≠ 0)
    (hstale : ∀ a, table.Refers .service a (slotNumber t) → (table.handles a).ownerPid = pid) :
    SessionsMatch (table.set i ⟨number, pid, handleTypeService, slotNumber t⟩)
      (sessions.set t ⟨slotNumber t, pid, providerPid, 0, 1⟩) := by
  have hself : (sessions.set t ⟨slotNumber t, pid, providerPid, 0, 1⟩).entries t =
      ⟨slotNumber t, pid, providerPid, 0, 1⟩ := Function.update_self ..
  have hothers : ∀ {t'}, t' ≠ t →
      (sessions.set t ⟨slotNumber t, pid, providerPid, 0, 1⟩).entries t' = sessions.entries t' :=
    fun ht ↦ Function.update_of_ne ht ..
  refine ⟨fun t' hactive ↦ ?_, fun t' hactive ↦ ?_, fun {a t'} ha hactive ↦ ?_⟩
  · by_cases ht : t' = t
    · subst ht
      rw [hself]
    · rw [hothers ht] at hactive ⊢
      exact h.object t' hactive
  · by_cases ht : t' = t
    · subst ht
      rw [hself]
      exact hpid
    · rw [hothers ht] at hactive ⊢
      exact h.opened t' hactive
  · by_cases hai : a = i
    · subst hai
      obtain ⟨-, hobject⟩ := RuntimeSyscallTable.refers_set_self.mp ha
      obtain rfl := slotNumber_injective hobject
      rw [hself, RuntimeSyscallTable.set_handles_self]
    · rw [RuntimeSyscallTable.set_handles_of_ne hai]
      have ha' := (RuntimeSyscallTable.refers_set_of_ne hai).mp ha
      by_cases ht : t' = t
      · subst ht
        rw [hself, hstale a ha']
      · rw [hothers ht] at hactive ⊢
        exact h.owner ha' hactive

/-- The session that was just opened is the one that its number finds. -/
theorem SessionsMatch.findActive_open (h : SessionsMatch table sessions)
    (pid providerPid : UInt32) :
    (sessions.set t ⟨slotNumber t, pid, providerPid, 0, 1⟩).findActive (slotNumber t) = some t := by
  have hself : (sessions.set t ⟨slotNumber t, pid, providerPid, 0, 1⟩).entries t =
      ⟨slotNumber t, pid, providerPid, 0, 1⟩ := Function.update_self ..
  cases hfind : (sessions.set t ⟨slotNumber t, pid, providerPid, 0, 1⟩).findActive
      (slotNumber t) with
  | none =>
    have hnone := List.find?_eq_none.mp hfind t (List.mem_finRange t)
    simp [hself] at hnone
  | some t' =>
    obtain ⟨hactive, hobject⟩ := findActive_eq_some hfind
    by_cases ht : t' = t
    · rw [ht]
    · rw [show (sessions.set t _).entries t' = sessions.entries t' from
        Function.update_of_ne ht ..] at hactive hobject
      exact absurd (slotNumber_injective ((h.object t' hactive).symm.trans hobject)) ht

theorem slotNumber_ne_zero (t : Fin 8) : slotNumber t ≠ 0 := by
  revert t
  decide

theorem SessionsMatch.close_open (h : SessionsMatch table sessions) (pid providerPid : UInt32) :
    OnlyClears sessions (runtimeServiceSessionClose
      (sessions.set t ⟨slotNumber t, pid, providerPid, 0, 1⟩) (slotNumber t)).2 := by
  rw [runtimeServiceSessionClose, if_neg (slotNumber_ne_zero t), h.findActive_open]
  have hset : (sessions.set t ⟨slotNumber t, pid, providerPid, 0, 1⟩).set t
      runtimeServiceSessionClear = sessions.set t runtimeServiceSessionClear := by
    simp [RuntimeServiceSessionTable.set]
  dsimp only
  rw [hset]
  exact onlyClears_set sessions t

theorem SessionsMatch.recordUse (h : SessionsMatch table w.context.sessions)
    (huses : UsedByOpener w.context.uses) (htype : (table.handles i).type = handleTypeService)
    (howner : (table.handles i).ownerPid = 0 ∨ (table.handles i).ownerPid = w.context.pid) :
    UsedByOpener (w.context.recordUse (table.handles i).object) := by
  rw [ServiceContext.recordUse]
  split
  · exact huses
  · next t hfind =>
    obtain ⟨hactive, hobject⟩ := findActive_eq_some hfind
    have hrefers : table.Refers .service i (slotNumber t) :=
      ⟨htype, hobject.symm.trans (h.object t hactive)⟩
    have hopener := h.owner hrefers hactive
    intro use huse
    obtain rfl | huse := List.mem_cons.mp huse
    · rw [← hopener] at howner
      exact (howner.resolve_left (h.opened t hactive)).symm
    · exact huses use huse

end Sessions

/-! ## The calls -/

section Calls

variable {exchange : UInt32 → ω → Option UInt32 × ω} {table table' : RuntimeSyscallTable}
  {w w' : SyscallWorld (ServiceContext ω)} {args : RuntimeSyscallArgs} {status : Int} {i : Fin 16}

/-- The invariant, on the table and on what lies behind the callbacks. -/
def SessionsGood (table : RuntimeSyscallTable) (w : SyscallWorld (ServiceContext ω)) : Prop :=
  SessionsMatch table w.context.sessions ∧ UsedByOpener w.context.uses

theorem owner_of_access
    (h : runtimeSyscallCheckHandleAccess (table.handles i) (serviceOps exchange) w = Status.ok) :
    (table.handles i).ownerPid = 0 ∨ (table.handles i).ownerPid = w.context.pid := by
  by_contra hne
  rw [not_or] at hne
  rw [runtimeSyscallCheckHandleAccess] at h
  simp only [serviceOps] at h
  rw [if_pos hne] at h
  cases h

/-- A call that does not fail before the callback is a callback on a handle of the caller. -/
theorem forwardHandleCall_cases {type handle : UInt32}
    {callback : RuntimeHandleInfo → Option (Callback (ServiceContext ω) Int)}
    (h : forwardHandleCall (serviceOps exchange) table type handle callback w
      = .ok (status, table', w')) :
    (table' = table ∧ w' = w) ∨ ∃ i f, (table.handles i).type = type ∧
      runtimeSyscallCheckHandleAccess (table.handles i) (serviceOps exchange) w = Status.ok ∧
      callback (table.handles i) = some f ∧ f w = .ok (status, w') ∧ table' = table := by
  have hfails : ∀ {code : Int}, (.ok (code, table, w) :
      Except Fault (SyscallAnswer (ServiceContext ω))) = .ok (status, table', w') →
      table' = table ∧ w' = w := by
    intro code h
    simp only [Except.ok.injEq, Prod.mk.injEq] at h
    exact ⟨h.2.1.symm, h.2.2.symm⟩
  rw [forwardHandleCall] at h
  split at h
  · exact Or.inl (hfails h)
  · next i _ =>
    split at h
    · exact Or.inl (hfails h)
    · next htype =>
      dsimp only at h
      split at h
      · exact Or.inl (hfails h)
      · next haccess =>
        simp only [forwardCall] at h
        split at h
        · exact Or.inl (hfails h)
        · next f hf =>
          obtain ⟨⟨code, v⟩, hcall, h⟩ := bind_eq_ok.mp h
          simp only [Except.ok.injEq, Prod.mk.injEq] at h
          obtain ⟨rfl, rfl, rfl⟩ := h
          exact Or.inr ⟨i, f, not_not.mp htype, not_not.mp haccess, hf, hcall, rfl⟩

theorem requestSync_eq_ok {providerPid request response : UInt32} {made : Bool}
    (h : runtimeServiceRequestSync exchange providerPid request response w = .ok (made, w')) :
    w'.context.sessions = w.context.sessions ∧ w'.context.uses = w.context.uses := by
  rw [runtimeServiceRequestSync] at h
  split at h
  · cases h
    exact ⟨rfl, rfl⟩
  · split at h <;> cases h <;> exact ⟨rfl, rfl⟩

theorem SessionsGood.serviceRequest (hgood : SessionsGood table w)
    (h : RuntimeSyscallNumber.serviceRequest.run args (serviceOps exchange) table w
      = .ok (status, table', w')) : SessionsGood table' w' := by
  obtain ⟨hmatch, huses⟩ := hgood
  simp only [RuntimeSyscallNumber.run] at h
  obtain ⟨rfl, rfl⟩ | ⟨i, f, htype, haccess, hcallback, hcall, rfl⟩ := forwardHandleCall_cases h
  · exact ⟨hmatch, huses⟩
  split at hcallback
  · cases hcallback
  obtain rfl := Option.some_inj.mp hcallback
  simp only [runtimeSyscallServiceRequest] at hcall
  split at hcall
  · cases hcall
    exact ⟨hmatch, huses⟩
  split at hcall
  · cases hcall
    exact ⟨hmatch, huses⟩
  split at hcall
  -- the provider is gone
  · cases hcall
    exact ⟨hmatch.clears (onlyClears_invalidateProvider _ _), huses⟩
  -- the request is made
  · obtain ⟨⟨made, v⟩, hsync, hcall⟩ := bind_eq_ok.mp hcall
    cases hcall
    obtain ⟨hsessions, hrecorded⟩ := requestSync_eq_ok hsync
    rw [SessionsGood, hsessions, hrecorded]
    exact ⟨hmatch, hmatch.recordUse huses htype (owner_of_access haccess)⟩

theorem SessionsGood.handleDup (hgood : SessionsGood table w)
    (h : RuntimeSyscallNumber.handleDup.run args (serviceOps exchange) table w
      = .ok (status, table', w')) : SessionsGood table' w' := by
  simp only [RuntimeSyscallNumber.run] at h
  split at h
  · cases h
    exact hgood
  · split at h
    · cases h
      exact hgood
    · obtain ⟨rfl, rfl | ⟨j, -, rfl⟩⟩ := grantHandle_move h
      · exact hgood
      · exact ⟨hgood.1.dup, hgood.2⟩

theorem serviceClose_eq_ok {object : UInt32} {code : Int}
    (h : runtimeSyscallServiceClose object w = .ok (code, w')) :
    w'.context.sessions = (runtimeServiceSessionClose w.context.sessions object).2 ∧
      w'.context.uses = w.context.recordUse object := by
  simp only [runtimeSyscallServiceClose, Except.ok.injEq, Prod.mk.injEq] at h
  obtain ⟨-, rfl⟩ := h
  exact ⟨rfl, rfl⟩

theorem SessionsGood.closeLastHandle (hgood : SessionsGood table w)
    (htype : (table.handles i).type = handleTypeService)
    (howner : (table.handles i).ownerPid = 0 ∨ (table.handles i).ownerPid = w.context.pid)
    (h : closeLastHandle table i (some runtimeSyscallServiceClose) (0 ≤ ·) Status.ebadf w
      = .ok (status, table', w')) : SessionsGood table' w' := by
  obtain ⟨hmatch, huses⟩ := hgood
  obtain ⟨⟨code, v⟩, hclose, h⟩ := bind_eq_ok.mp h
  obtain ⟨hsessions, hrecorded⟩ := serviceClose_eq_ok hclose
  have hclosed : SessionsGood table v := by
    rw [SessionsGood, hsessions, hrecorded]
    exact ⟨hmatch.clears (onlyClears_close _ _), hmatch.recordUse huses htype howner⟩
  dsimp only at h
  split at h
  · cases h
    exact ⟨hclosed.1.clear, hclosed.2⟩
  · cases h
    exact hclosed

theorem SessionsGood.handleClose (hgood : SessionsGood table w)
    (h : RuntimeSyscallNumber.handleClose.run args (serviceOps exchange) table w
      = .ok (status, table', w')) : SessionsGood table' w' := by
  have hclear : ∀ {i code}, (.ok (code, table.clear i, w) :
      Except Fault (SyscallAnswer (ServiceContext ω))) = .ok (status, table', w') →
      SessionsGood table' w' := by
    intro i code h
    cases h
    exact ⟨hgood.1.clear, hgood.2⟩
  have hkeep : ∀ {code}, (.ok (code, table, w) :
      Except Fault (SyscallAnswer (ServiceContext ω))) = .ok (status, table', w') →
      SessionsGood table' w' := by
    intro code h
    cases h
    exact hgood
  simp only [RuntimeSyscallNumber.run] at h
  split at h
  · exact hkeep h
  next i _ =>
  simp only [runtimeSyscallCloseHandle] at h
  split at h
  · exact hkeep h
  next haccess =>
  have howner : (table.handles i).ownerPid = 0 ∨ (table.handles i).ownerPid = w.context.pid :=
    owner_of_access (not_not.mp fun hne ↦ haccess ⟨trivial, hne⟩)
  -- one branch for each type
  split at h
  · exact hclear h
  split at h
  · split at h
    · exact hclear h
    · exact hkeep h
  split at h
  · split at h
    · exact hclear h
    · exact hkeep h
  split at h
  · split at h
    · exact hclear h
    · exact hkeep h
  split at h
  · next htype =>
    split at h
    · exact hclear h
    split at h
    · exact hclear h
    · exact hgood.closeLastHandle htype howner h
  · exact hkeep h

theorem serviceOpen_eq_ok {object made : UInt32} {code : Int}
    (h : runtimeSyscallServiceOpen args.arg0 object w = .ok ((code, made), w')) :
    (code < 0 ∧ w' = w) ∨ ∃ t, sessionTaken w args = some t ∧ w.context.pid ≠ 0 ∧
      made = slotNumber t ∧ 0 ≤ code ∧ w' = { w with
        context := { w.context with
          sessions := w.context.sessions.set t ⟨slotNumber t, w.context.pid,
            runtimeServiceProviderPid w.context, 0, 1⟩ } } := by
  have hfails : ∀ {status : Int}, status < 0 → (.ok ((status, object), w) :
      Except Fault ((Int × UInt32) × SyscallWorld (ServiceContext ω))) = .ok ((code, made), w') →
      code < 0 ∧ w' = w := by
    intro status hneg h
    cases h
    exact ⟨hneg, rfl⟩
  rw [runtimeSyscallServiceOpen] at h
  split at h
  · exact Or.inl (hfails (by decide) h)
  next hkey =>
  split at h
  · exact Or.inl (hfails (by decide) h)
  next haccum =>
  dsimp only at h
  split at h
  · exact Or.inl (hfails (by decide) h)
  next hprovider =>
  by_cases hpid : w.context.pid = 0
  · rw [runtimeServiceSessionOpen, if_pos (Or.inl hpid)] at h
    exact Or.inl (hfails (show Status.einval < 0 by decide) h)
  rw [runtimeServiceSessionOpen, if_neg (not_or.mpr ⟨hpid, hprovider⟩)] at h
  have htaken : sessionTaken w args = w.context.sessions.firstInactive :=
    if_pos ⟨hkey, Bool.not_eq_false _ |>.mp haccum, hprovider, hpid⟩
  split at h
  · exact Or.inl (hfails (show Status.enospc < 0 by decide) h)
  · next t hfirst =>
    cases h
    exact Or.inr ⟨t, htaken.trans hfirst, hpid, rfl, le_rfl, rfl⟩

theorem SessionsGood.serviceOpen (hgood : SessionsGood table w)
    (hok : NoStaleHandle table w .serviceOpen args)
    (h : RuntimeSyscallNumber.serviceOpen.run args (serviceOps exchange) table w
      = .ok (status, table', w')) : SessionsGood table' w' := by
  obtain ⟨hmatch, huses⟩ := hgood
  simp only [RuntimeSyscallNumber.run] at h
  by_cases hkey : args.arg0 = 0
  · rw [if_pos hkey] at h
    cases h
    exact ⟨hmatch, huses⟩
  rw [if_neg hkey] at h
  obtain ⟨⟨⟨code, object⟩, v⟩, hopen, h⟩ := bind_eq_ok.mp h
  dsimp only at h
  obtain ⟨hneg, rfl⟩ | ⟨t, htaken, hpid, rfl, hcode, rfl⟩ := serviceOpen_eq_ok hopen
  · rw [if_pos hneg] at h
    cases h
    exact ⟨hmatch, huses⟩
  rw [if_neg (not_lt.mpr hcode)] at h
  split at h
  · next i _ halloc =>
    obtain ⟨hfree, rfl⟩ := runtimeSyscallAllocHandle_eq_some halloc
    cases h
    have hroom : ¬ table.Full := fun hfull ↦ hfull i hfree
    exact ⟨hmatch.open hpid (hok rfl hroom t htaken), huses⟩
  -- there is no handle, and the session is closed again
  · obtain ⟨⟨code, v⟩, hclose, h⟩ := bind_eq_ok.mp h
    obtain ⟨hsessions, hrecorded⟩ := serviceClose_eq_ok hclose
    cases h
    rw [SessionsGood, hsessions, hrecorded]
    refine ⟨hmatch.clears (hmatch.close_open _ _), ?_⟩
    rw [ServiceContext.recordUse, hmatch.findActive_open]
    intro use huse
    obtain rfl | huse := List.mem_cons.mp huse
    · simp [RuntimeServiceSessionTable.set]
    · exact huses use huse

end Calls

section Run

variable {exchange : UInt32 → ω → Option UInt32 × ω} {s s' : SessionState}

/-- **A step keeps the invariant**, if no process opens a session whose slot has a handle of another
process. -/
theorem SessionStep.good (h : SessionsMatch s.table s.sessions ∧ UsedByOpener s.uses)
    (hstep : SessionStep exchange NoStaleHandle s s') :
    SessionsMatch s'.table s'.sessions ∧ UsedByOpener s'.uses := by
  obtain ⟨hsessions, huses, hnumber, hcalls, hok, hcall⟩ := hstep
  next number args w w' status table' =>
  have hgood : SessionsGood s.table w := by
    rw [SessionsGood, hsessions, huses]
    exact h
  rw [runtimeSyscallDispatch, hnumber] at hcall
  change SessionsGood table' w'
  cases number with
  | serviceOpen => exact hgood.serviceOpen hok hcall
  | serviceRequest => exact hgood.serviceRequest hcall
  | handleDup => exact hgood.handleDup hcall
  | handleClose => exact hgood.handleClose hcall
  | _ => cases hcalls

/-- **Sessions are not confused** in a run in which every process that opens a session finds no
handle of another process to its slot: every request through a session and every closing of a
session was made by the process that opened it. -/
theorem sessions_not_confused (h : Reachable SessionStart (SessionStep exchange NoStaleHandle) s) :
    ∀ use ∈ s.uses, use.caller = use.opener := by
  refine (Reachable.invariant (P := fun s ↦ SessionsMatch s.table s.sessions ∧
    UsedByOpener s.uses) ?_ (fun s s' hs hstep ↦ hstep.good hs) h).2
  rintro s rfl
  refine ⟨⟨fun t ht ↦ absurd rfl ht, fun t ht ↦ absurd rfl ht, fun _ ht ↦ absurd rfl ht⟩, ?_⟩
  intro use huse
  cases huse

end Run

/-! ## A stale handle -/

instance (table : RuntimeSyscallTable) (w : SyscallWorld (ServiceContext ω))
    (number : RuntimeSyscallNumber) (args : RuntimeSyscallArgs) :
    Decidable (NoStaleHandle table w number args) :=
  inferInstanceAs (Decidable (number = .serviceOpen → ¬ table.Full →
    ∀ t, sessionTaken w args = some t → ∀ i, table.Refers .service i (slotNumber t) →
      (table.handles i).ownerPid = w.context.pid))

/-- A call: the process that makes it, the provider of the service at this time, the number of the
call and its arguments. -/
structure SessionCall where
  pid : UInt32
  provider : UInt32
  syscallNumber : UInt32
  args : RuntimeSyscallArgs

/-- The key of the service is in memory at address 16, and the provider is alive. -/
def SessionCall.world (call : SessionCall) (s : SessionState) :
    SyscallWorld (ServiceContext Unit) where
  memory := writeBytes (fun _ ↦ 0) 16 accumKey
  context :=
    { sessions := s.sessions
      pid := call.pid
      servicePid := call.provider
      snapshot := fun pid ↦ if pid = call.provider then some .blocked else none
      rest := ()
      uses := s.uses }

/-- The provider answers every request. -/
def echo (request : UInt32) (_ : Unit) : Option UInt32 × Unit := (some request, ())

/-- Calls one after the other, as long as they are calls on sessions and `allowed`. -/
def runSessionCalls (allowed : RuntimeSyscallTable → SyscallWorld (ServiceContext Unit) →
    RuntimeSyscallNumber → RuntimeSyscallArgs → Bool) :
    List SessionCall → SessionState → Option SessionState
  | [], s => some s
  | call :: rest, s => do
    let number ← runtimeSyscallNumbers[call.syscallNumber.toNat]?
    if number.onSessions ∧ allowed s.table (call.world s) number call.args then
      match runtimeSyscallDispatch call.syscallNumber call.args (serviceOps echo) s.table
        (call.world s) with
      | .error _ => none
      | .ok (_, table, w) =>
        runSessionCalls allowed rest ⟨table, w.context.sessions, w.context.uses⟩
    else none

theorem reachable_runSessionCalls {allowed : RuntimeSyscallTable →
      SyscallWorld (ServiceContext Unit) → RuntimeSyscallNumber → RuntimeSyscallArgs → Bool}
    {ok : RuntimeSyscallTable → SyscallWorld (ServiceContext Unit) → RuntimeSyscallNumber →
      RuntimeSyscallArgs → Prop}
    (hok : ∀ table w number args, allowed table w number args = true → ok table w number args)
    {calls : List SessionCall} {s s' : SessionState}
    (h : Reachable SessionStart (SessionStep echo ok) s)
    (hrun : runSessionCalls allowed calls s = some s') :
    Reachable SessionStart (SessionStep echo ok) s' := by
  induction calls generalizing s with
  | nil =>
    cases hrun
    exact h
  | cons call rest ih =>
    obtain ⟨number, hnumber, hrun⟩ := Option.bind_eq_some_iff.mp hrun
    split at hrun
    · next hallowed =>
      split at hrun
      · cases hrun
      · next hcall =>
        exact ih (.step h (.call rfl rfl hnumber hallowed.1 (hok _ _ _ _ hallowed.2) hcall)) hrun
    · cases hrun

/-- No handle and no session. -/
def sessionStart : SessionState := ⟨runtimeSyscallTableInit, runtimeServiceSessionTableInit, []⟩

/-- **Sessions are confused**: process 5 opens a session with provider 100. The provider is
replaced by 101, and a request of process 5 clears the session. Process 6 opens a session and gets
the same slot. With its old handle process 5 makes a request through the session of process 6, and
closes it. -/
theorem session_confused : ∃ s, Reachable SessionStart (SessionStep echo fun _ _ _ _ ↦ True) s ∧
    s.uses = [⟨5, 6⟩, ⟨5, 6⟩] ∧ ¬ ∀ use ∈ s.uses, use.caller = use.opener := by
  have hrun : ∃ s, runSessionCalls (fun _ _ _ _ ↦ true) [⟨5, 100, 26, ⟨16, 0, 0, 0⟩⟩,
      ⟨5, 101, 27, ⟨1, 7, 64, 0⟩⟩, ⟨6, 101, 26, ⟨16, 0, 0, 0⟩⟩, ⟨5, 101, 27, ⟨1, 7, 64, 0⟩⟩,
      ⟨5, 101, 3, ⟨1, 0, 0, 0⟩⟩] sessionStart = some s ∧ s.uses = [⟨5, 6⟩, ⟨5, 6⟩] := by
    refine ⟨(runSessionCalls (fun _ _ _ _ ↦ true) [⟨5, 100, 26, ⟨16, 0, 0, 0⟩⟩,
      ⟨5, 101, 27, ⟨1, 7, 64, 0⟩⟩, ⟨6, 101, 26, ⟨16, 0, 0, 0⟩⟩, ⟨5, 101, 27, ⟨1, 7, 64, 0⟩⟩,
      ⟨5, 101, 3, ⟨1, 0, 0, 0⟩⟩] sessionStart).get (by decide +kernel),
      by rw [Option.some_get], ?_⟩
    decide +kernel
  obtain ⟨s, hrun, huses⟩ := hrun
  refine ⟨s, reachable_runSessionCalls (fun _ _ _ _ _ ↦ trivial) (.start rfl) hrun, huses, ?_⟩
  rw [huses]
  decide

/-- Process 5 opens a session, loses it with its provider, and opens it again: its old handle is to
its own session. -/
theorem sessions_not_confused_reopen : ∃ s, runSessionCalls
      (fun table w number args ↦ decide (NoStaleHandle table w number args))
      [⟨5, 100, 26, ⟨16, 0, 0, 0⟩⟩, ⟨5, 101, 27, ⟨1, 7, 64, 0⟩⟩, ⟨5, 101, 26, ⟨16, 0, 0, 0⟩⟩,
        ⟨5, 101, 27, ⟨1, 7, 64, 0⟩⟩] sessionStart = some s ∧
    s.uses.length = 1 ∧ ∀ use ∈ s.uses, use.caller = use.opener := by
  have hrun : ∃ s, runSessionCalls
      (fun table w number args ↦ decide (NoStaleHandle table w number args))
      [⟨5, 100, 26, ⟨16, 0, 0, 0⟩⟩, ⟨5, 101, 27, ⟨1, 7, 64, 0⟩⟩, ⟨5, 101, 26, ⟨16, 0, 0, 0⟩⟩,
        ⟨5, 101, 27, ⟨1, 7, 64, 0⟩⟩] sessionStart = some s ∧ s.uses.length = 1 := by
    refine ⟨(runSessionCalls
      (fun table w number args ↦ decide (NoStaleHandle table w number args))
      [⟨5, 100, 26, ⟨16, 0, 0, 0⟩⟩, ⟨5, 101, 27, ⟨1, 7, 64, 0⟩⟩, ⟨5, 101, 26, ⟨16, 0, 0, 0⟩⟩,
        ⟨5, 101, 27, ⟨1, 7, 64, 0⟩⟩] sessionStart).get (by decide +kernel),
      by rw [Option.some_get], ?_⟩
    decide +kernel
  obtain ⟨s, hrun, hlength⟩ := hrun
  refine ⟨s, hrun, hlength, sessions_not_confused (reachable_runSessionCalls ?_ (.start rfl) hrun)⟩
  intro table w number args hallowed
  exact of_decide_eq_true hallowed

end TensorOS
