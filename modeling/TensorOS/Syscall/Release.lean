import TensorOS.Syscall.Objects

/-!
# The handles of a process that is gone

`runtime_syscall_release_owner_handles` walks over the table and closes each entry of one process.
Handles to one object may stand anywhere in it, and the count of aliases that decides between
dropping an entry and destroying the object is taken anew each time, from the table as it is then.
`DestroyCall` records a call of a callback that destroys an object, `RuntimeSyscallOps.noted` is the
interface with a record of all of them, and `Released` says what holds after a part of the walk:
each object is destroyed, or refused to be, at most once, with the last of its handles.
-/

namespace TensorOS

variable {ω α : Type}

/-! ## A record of the calls -/

/-- A call of a callback that destroys an object, with its answer. -/
structure DestroyCall where
  kind : ObjectKind
  object : UInt32
  destroyed : Bool
  deriving DecidableEq

/-- A world with a record of calls. -/
def SyscallWorld.noted (w : SyscallWorld ω) (calls : List DestroyCall) :
    SyscallWorld (ω × List DestroyCall) where
  memory := w.memory
  context := (w.context, calls)

/-- A callback that adds to the record. -/
def Callback.noted (f : Callback ω α) (call : α → DestroyCall) :
    Callback (ω × List DestroyCall) α := fun w ↦ do
  let (a, v) ← f ⟨w.memory, w.context.1⟩
  .ok (a, v.noted (w.context.2 ++ [call a]))

/-- The interface with a record of the calls that destroy an object. The other callbacks are not
reached by the release of handles. -/
def RuntimeSyscallOps.noted (ops : RuntimeSyscallOps ω) :
    RuntimeSyscallOps (ω × List DestroyCall) where
  eventDestroy := ops.eventDestroy.map fun f object ↦
    (f object).noted fun result ↦ ⟨.event, object, result ≠ 0⟩
  mailboxDestroy := ops.mailboxDestroy.map fun f object ↦
    (f object).noted fun result ↦ ⟨.mailbox, object, result ≠ 0⟩
  serviceClose := ops.serviceClose.map fun f object ↦
    (f object).noted fun result ↦ ⟨.service, object, 0 ≤ result⟩
  fileOps := ops.fileOps.map fun file ↦
    { close := file.close.map fun f object ↦
        (f object).noted fun result ↦ ⟨.file, object, 0 ≤ result⟩ }

/-- The callbacks that destroy an object succeed or fail, and return. -/
def RuntimeSyscallOps.DestroysReturn (ops : RuntimeSyscallOps ω) : Prop :=
  ∀ kind object, ∀ f ∈ ops.destroy object kind, ∀ w, ∃ destroyed w', f w = .ok (destroyed, w')

/-- An entry of the process. -/
def RuntimeSyscallTable.Holds (table : RuntimeSyscallTable) (pid : UInt32) (i : Fin 16) : Prop :=
  ¬ table.Free i ∧ (table.handles i).ownerPid = pid

instance RuntimeSyscallTable.decidableHolds (table : RuntimeSyscallTable) (pid : UInt32)
    (i : Fin 16) : Decidable (table.Holds pid i) :=
  inferInstanceAs (Decidable (_ ∧ _))

/-- The types of `runtime_syscall.h`. -/
def handleTypes : List UInt32 :=
  [handleTypeNone, handleTypeProcess, handleTypeEvent, handleTypeMailbox, handleTypeFile,
    handleTypeService]

/-! ## One entry -/

section Entry

variable {ops : RuntimeSyscallOps ω} {table : RuntimeSyscallTable} {i : Fin 16}
  {w w' : SyscallWorld ω} {calls : List DestroyCall} {cleared : Bool}

/-- **What the release does with an entry**: the calls that it makes, and whether the entry is
cleared. -/
inductive ReleaseStep (ops : RuntimeSyscallOps ω) (table : RuntimeSyscallTable) (i : Fin 16)
    (w : SyscallWorld ω) : List DestroyCall → Bool → SyscallWorld ω → Prop
  | drops : (table.handles i).type = handleTypeProcess ∨
      1 < runtimeSyscallHandleAliasCount table (table.handles i) →
      ReleaseStep ops table i w [] true w
  /-- The callback is called, and the entry is cleared if it succeeds. -/
  | calls {kind : ObjectKind} {destroyed : Bool} {w' : SyscallWorld ω} :
      (table.handles i).type = kind.type →
      ¬ 1 < runtimeSyscallHandleAliasCount table (table.handles i) →
      Destroys ops kind (table.handles i).object w destroyed w' →
      ReleaseStep ops table i w [⟨kind, (table.handles i).object, destroyed⟩] destroyed w'
  /-- There is no callback. Only the handle to a service is cleared then. -/
  | misses {kind : ObjectKind} : (table.handles i).type = kind.type →
      ¬ 1 < runtimeSyscallHandleAliasCount table (table.handles i) →
      ops.destroy (table.handles i).object kind = none →
      ReleaseStep ops table i w [] (kind = .service) w

/-- The table after an entry is released. -/
def RuntimeSyscallTable.clearIf (table : RuntimeSyscallTable) (i : Fin 16) (cleared : Bool) :
    RuntimeSyscallTable :=
  if cleared then table.clear i else table

/-- Both interfaces close the entry in the same way, and one of them records the calls. -/
def ClosesAs (ops : RuntimeSyscallOps ω) (table : RuntimeSyscallTable) (i : Fin 16)
    (w : SyscallWorld ω) (calls : List DestroyCall) (cleared : Bool) (w' : SyscallWorld ω) : Prop :=
  ∃ status, (status = Status.ok ↔ cleared = true) ∧
    runtimeSyscallCloseHandle i ops table w false = .ok (status, table.clearIf i cleared, w') ∧
    ∀ log, runtimeSyscallCloseHandle i ops.noted table (w.noted log) false =
      .ok (status, table.clearIf i cleared, w'.noted (log ++ calls))

theorem Callback.noted_eq_ok {f : Callback ω α} {a : α} (h : f w = .ok (a, w'))
    (call : α → DestroyCall) (log : List DestroyCall) :
    f.noted call (w.noted log) = .ok (a, w'.noted (log ++ [call a])) := by
  change (f w >>= fun answer ↦ _) = _
  rw [h]
  rfl

theorem closeLastHandle_step (kind : ObjectKind) (htype : (table.handles i).type = kind.type)
    (hlast : ¬ 1 < runtimeSyscallHandleAliasCount table (table.handles i))
    (hreturns : ops.DestroysReturn) {destroy : Option (UInt32 → Callback ω Int)}
    {destroyed : Int → Bool} {refusal : Int} (hrefusal : refusal ≠ Status.ok)
    (hdestroy : ops.destroy (table.handles i).object kind =
      destroy.map fun f ↦ Callback.answers (f (table.handles i).object) destroyed)
    (hservice : kind = .service → destroy ≠ none)
    (hcloses : runtimeSyscallCloseHandle i ops table w false =
      closeLastHandle table i destroy destroyed refusal w)
    (hnoted : ∀ w, runtimeSyscallCloseHandle i ops.noted table w false =
      closeLastHandle table i
        (destroy.map fun f object ↦ (f object).noted fun result ↦ ⟨kind, object, destroyed result⟩)
        destroyed refusal w) :
    ∃ calls cleared w', ReleaseStep ops table i w calls cleared w' ∧
      ClosesAs ops table i w calls cleared w' := by
  simp only [ClosesAs, hcloses, hnoted]
  cases destroy with
  | none =>
    have hkind : decide (kind = .service) = false := decide_eq_false fun h ↦ hservice h rfl
    refine ⟨[], _, w, .misses htype hlast hdestroy, Status.enosys, ?_, ?_, fun log ↦ ?_⟩
    · rw [hkind]
      decide
    · rw [hkind]
      rfl
    · rw [hkind, List.append_nil]
      rfl
  | some f =>
    obtain ⟨b, w', hf⟩ := hreturns kind _ _ hdestroy w
    have hdestroys : Destroys ops kind (table.handles i).object w b w' := ⟨_, hdestroy, hf⟩
    obtain ⟨result, hresult, hb⟩ := Callback.answers_eq_ok.mp hf
    refine ⟨_, _, w', .calls htype hlast hdestroys, if b = true then Status.ok else refusal,
      ?_, ?_, fun log ↦ ?_⟩
    · cases b with
      | true => simp
      | false => simpa using hrefusal
    · rw [closeLastHandle, hresult, ok_bind]
      cases b with
      | true => simp [hb, RuntimeSyscallTable.clearIf]
      | false => simp [hb, RuntimeSyscallTable.clearIf]
    · rw [Option.map_some, closeLastHandle, Callback.noted_eq_ok hresult, ok_bind]
      cases b with
      | true => simp [hb, RuntimeSyscallTable.clearIf]
      | false => simp [hb, RuntimeSyscallTable.clearIf]

/-- A handle without an object of its own, or one of several to its object. -/
theorem closeHandle_drops (ops : RuntimeSyscallOps ω) (w : SyscallWorld ω)
    (h : (table.handles i).type = handleTypeProcess ∨
      (∃ kind : ObjectKind, (table.handles i).type = kind.type) ∧
        1 < runtimeSyscallHandleAliasCount table (table.handles i)) :
    runtimeSyscallCloseHandle i ops table w false = .ok (Status.ok, table.clear i, w) := by
  obtain hprocess | ⟨⟨kind, htype⟩, hshared⟩ := h
  · simp [runtimeSyscallCloseHandle, hprocess]
  · cases kind <;>
      simp [runtimeSyscallCloseHandle, htype, hshared, ObjectKind.type, handleTypeProcess,
        handleTypeEvent, handleTypeMailbox, handleTypeFile, handleTypeService]

theorem closeHandle_last_event (ops : RuntimeSyscallOps ω) (w : SyscallWorld ω)
    (htype : (table.handles i).type = handleTypeEvent)
    (hlast : ¬ 1 < runtimeSyscallHandleAliasCount table (table.handles i)) :
    runtimeSyscallCloseHandle i ops table w false =
      closeLastHandle table i ops.eventDestroy (· ≠ 0) Status.ebusy w := by
  simp [runtimeSyscallCloseHandle, htype, hlast, handleTypeProcess, handleTypeEvent]

theorem closeHandle_last_mailbox (ops : RuntimeSyscallOps ω) (w : SyscallWorld ω)
    (htype : (table.handles i).type = handleTypeMailbox)
    (hlast : ¬ 1 < runtimeSyscallHandleAliasCount table (table.handles i)) :
    runtimeSyscallCloseHandle i ops table w false =
      closeLastHandle table i ops.mailboxDestroy (· ≠ 0) Status.ebusy w := by
  simp [runtimeSyscallCloseHandle, htype, hlast, handleTypeProcess, handleTypeEvent,
    handleTypeMailbox]

theorem closeHandle_last_file (ops : RuntimeSyscallOps ω) (w : SyscallWorld ω)
    (htype : (table.handles i).type = handleTypeFile)
    (hlast : ¬ 1 < runtimeSyscallHandleAliasCount table (table.handles i)) :
    runtimeSyscallCloseHandle i ops table w false =
      closeLastHandle table i (ops.fileOps.bind (·.close)) (0 ≤ ·) Status.ebadf w := by
  simp [runtimeSyscallCloseHandle, htype, hlast, handleTypeProcess, handleTypeEvent,
    handleTypeMailbox, handleTypeFile]

theorem closeHandle_last_service (ops : RuntimeSyscallOps ω) (w : SyscallWorld ω)
    (htype : (table.handles i).type = handleTypeService)
    (hlast : ¬ 1 < runtimeSyscallHandleAliasCount table (table.handles i)) :
    runtimeSyscallCloseHandle i ops table w false =
      if ops.serviceClose.isNone then .ok (Status.ok, table.clear i, w)
      else closeLastHandle table i ops.serviceClose (0 ≤ ·) Status.ebadf w := by
  simp [runtimeSyscallCloseHandle, htype, hlast, handleTypeProcess, handleTypeEvent,
    handleTypeMailbox, handleTypeFile, handleTypeService]

theorem closesAs_clear
    (h : runtimeSyscallCloseHandle i ops table w false = .ok (Status.ok, table.clear i, w))
    (hnoted : ∀ log, runtimeSyscallCloseHandle i ops.noted table (w.noted log) false =
      .ok (Status.ok, table.clear i, w.noted log)) :
    ClosesAs ops table i w [] true w := by
  refine ⟨Status.ok, iff_of_true rfl rfl, h, fun log ↦ ?_⟩
  rw [List.append_nil]
  exact hnoted log

/-- **Every entry of a process is released in one of these ways.** -/
theorem closeHandle_step (hreturns : ops.DestroysReturn) (hfree : ¬ table.Free i)
    (htype : (table.handles i).type ∈ handleTypes) :
    ∃ calls cleared w', ReleaseStep ops table i w calls cleared w' ∧
      ClosesAs ops table i w calls cleared w' := by
  by_cases hprocess : (table.handles i).type = handleTypeProcess
  · exact ⟨[], true, w, .drops (Or.inl hprocess),
      closesAs_clear (closeHandle_drops ops w (Or.inl hprocess))
        fun log ↦ closeHandle_drops ops.noted _ (Or.inl hprocess)⟩
  have hkind : ∃ kind : ObjectKind, (table.handles i).type = kind.type := by
    simp only [handleTypes, List.mem_cons, List.not_mem_nil, or_false] at htype
    obtain h | h | h | h | h | h := htype
    · exact absurd h hfree
    · exact absurd h hprocess
    · exact ⟨.event, h⟩
    · exact ⟨.mailbox, h⟩
    · exact ⟨.file, h⟩
    · exact ⟨.service, h⟩
  by_cases hshared : 1 < runtimeSyscallHandleAliasCount table (table.handles i)
  · exact ⟨[], true, w, .drops (Or.inr hshared),
      closesAs_clear (closeHandle_drops ops w (Or.inr ⟨hkind, hshared⟩))
        fun log ↦ closeHandle_drops ops.noted _ (Or.inr ⟨hkind, hshared⟩)⟩
  obtain ⟨kind, hkind⟩ := hkind
  cases kind with
  | event =>
    exact closeLastHandle_step .event hkind hshared hreturns (by decide) rfl (by simp)
      (closeHandle_last_event ops w hkind hshared)
      fun v ↦ closeHandle_last_event ops.noted v hkind hshared
  | mailbox =>
    exact closeLastHandle_step .mailbox hkind hshared hreturns (by decide) rfl (by simp)
      (closeHandle_last_mailbox ops w hkind hshared)
      fun v ↦ closeHandle_last_mailbox ops.noted v hkind hshared
  | file =>
    refine closeLastHandle_step .file hkind hshared hreturns (by decide) rfl (by simp)
      (closeHandle_last_file ops w hkind hshared) fun v ↦ ?_
    rw [closeHandle_last_file ops.noted v hkind hshared, RuntimeSyscallOps.noted]
    cases ops.fileOps with
    | none => rfl
    | some file => rfl
  | service =>
    cases hclose : ops.serviceClose with
    | none =>
      have hdestroy : ops.destroy (table.handles i).object .service = none := by
        rw [RuntimeSyscallOps.destroy, hclose]
        rfl
      refine ⟨[], true, w, .misses hkind hshared hdestroy, closesAs_clear ?_ fun log ↦ ?_⟩
      · rw [closeHandle_last_service _ _ hkind hshared, hclose]
        rfl
      · rw [closeHandle_last_service _ _ hkind hshared, RuntimeSyscallOps.noted, hclose]
        rfl
    | some close =>
      refine closeLastHandle_step .service hkind hshared hreturns
        (by decide : Status.ebadf ≠ Status.ok) rfl ?_ ?_ fun v ↦ ?_
      · rw [hclose]
        simp
      · rw [closeHandle_last_service _ _ hkind hshared, hclose]
        rfl
      · rw [closeHandle_last_service _ _ hkind hshared, RuntimeSyscallOps.noted, hclose]
        rfl

theorem clearIf_of_ne {j : Fin 16} (h : j ≠ i) :
    (table.clearIf i cleared).handles j = table.handles j := by
  rw [RuntimeSyscallTable.clearIf]
  split
  · exact RuntimeSyscallTable.set_handles_of_ne h
  · rfl

theorem RuntimeSyscallTable.Refers.of_clearIf {kind : ObjectKind} {j : Fin 16} {object : UInt32}
    (h : (table.clearIf i cleared).Refers kind j object) :
    table.Refers kind j object ∧ (table.clearIf i cleared).handles j = table.handles j := by
  cases cleared with
  | false => exact ⟨h, rfl⟩
  | true =>
    have hne : j ≠ i := by
      rintro rfl
      exact not_refers_clear h
    rw [Refers, clearIf_of_ne hne] at h
    exact ⟨h, clearIf_of_ne hne⟩

theorem clearIf_self : (table.clearIf i true).handles i = runtimeSyscallClearHandle := by
  rw [RuntimeSyscallTable.clearIf, if_pos rfl, RuntimeSyscallTable.clear,
    RuntimeSyscallTable.set_handles_self]

theorem not_holds_clearIf {pid : UInt32} : ¬ (table.clearIf i true).Holds pid i := by
  intro h
  refine h.1 ?_
  rw [RuntimeSyscallTable.Free, clearIf_self]
  rfl

theorem RuntimeSyscallTable.Holds.of_clearIf {pid : UInt32} {j : Fin 16}
    (h : (table.clearIf i cleared).Holds pid j) :
    (table.clearIf i cleared).handles j = table.handles j := by
  cases cleared with
  | false => rfl
  | true =>
    refine clearIf_of_ne ?_
    rintro rfl
    exact not_holds_clearIf h

end Entry

/-! ## The walk -/

section Walk

variable {ops : RuntimeSyscallOps ω} {pid : UInt32} {table₀ table : RuntimeSyscallTable}
  {w₀ w w' : SyscallWorld ω} {l : List (Fin 16)} {calls calls' : List DestroyCall} {released : ℕ}
  {cleared : Bool} {i : Fin 16}

theorem releaseOwnerLoop_append {l' : List (Fin 16)} {released' : ℕ} {table' : RuntimeSyscallTable}
    (h : releaseOwnerLoop ops pid l released table w = .ok (released', table', w')) :
    releaseOwnerLoop ops pid (l ++ l') released table w =
      releaseOwnerLoop ops pid l' released' table' w' := by
  induction l generalizing released table w with
  | nil =>
    simp only [releaseOwnerLoop, Except.ok.injEq, Prod.mk.injEq] at h
    obtain ⟨rfl, rfl, rfl⟩ := h
    rfl
  | cons i l ih =>
    rw [releaseOwnerLoop] at h
    rw [List.cons_append, releaseOwnerLoop]
    split at h
    · next hskips =>
      rw [if_pos hskips]
      exact ih h
    · next hskips =>
      obtain ⟨answer, hcloses, h⟩ := bind_eq_ok.mp h
      rw [if_neg hskips, hcloses]
      exact ih h

/-- A call was made in the course of the walk, at an entry that was then the only one of the process
for its object. -/
def CalledAlone (ops : RuntimeSyscallOps ω) (pid : UInt32) (table₀ : RuntimeSyscallTable)
    (w₀ : SyscallWorld ω) (l : List (Fin 16)) (earlier : List DestroyCall) (call : DestroyCall) :
    Prop :=
  ∃ before i after, l = before ++ i :: after ∧ ∃ released table, ∃ w : SyscallWorld ω,
    releaseOwnerLoop ops.noted pid before 0 table₀ (w₀.noted []) =
      .ok (released, table, w.noted earlier) ∧
    (table.handles i).ownerPid = pid ∧ table.Refers call.kind i call.object ∧
    runtimeSyscallHandleAliasCount table (table.handles i) = 1 ∧
    ∃ status table', ∃ w' : SyscallWorld ω,
      runtimeSyscallCloseHandle i ops.noted table (w.noted earlier) false =
        .ok (status, table', w'.noted (earlier ++ [call]))

/-- **The release after the entries of a list.** -/
structure Released (ops : RuntimeSyscallOps ω) (pid : UInt32) (table₀ : RuntimeSyscallTable)
    (w₀ : SyscallWorld ω) (l : List (Fin 16)) (calls : List DestroyCall) (released : ℕ)
    (table : RuntimeSyscallTable) (w : SyscallWorld ω) : Prop where
  run : releaseOwnerLoop ops pid l 0 table₀ w₀ = .ok (released, table, w)
  noted : releaseOwnerLoop ops.noted pid l 0 table₀ (w₀.noted []) =
    .ok (released, table, w.noted calls)
  frame : ∀ i, i ∉ l ∨ ¬ table₀.Holds pid i → table.handles i = table₀.handles i
  settled : ∀ i ∈ l, table₀.Holds pid i → table.handles i = runtimeSyscallClearHandle ∨
    table.handles i = table₀.handles i ∧ ∃ kind : ObjectKind, (table₀.handles i).type = kind.type ∧
      (ops.destroy (table₀.handles i).object kind = none ∨
        ⟨kind, (table₀.handles i).object, false⟩ ∈ calls)
  /-- An entry that stays is the only one for its object. -/
  last : ∀ i ∈ l, table.Holds pid i →
    ∀ j, (table.handles i).aliases (table.handles j) = true → j = i
  once : (calls.map fun call ↦ (call.kind, call.object)).Nodup
  held : ∀ call ∈ calls, ∃ i, (table₀.handles i).ownerPid = pid ∧
    table₀.Refers call.kind i call.object
  /-- After a call no other entry for the object is met. -/
  spent : ∀ call ∈ calls, ∀ i, (table.handles i).ownerPid = pid →
    table.Refers call.kind i call.object → i ∈ l
  alone : ∀ earlier call later, calls = earlier ++ call :: later →
    CalledAlone ops pid table₀ w₀ l earlier call
  count : released = l.countP fun i ↦ table₀.Holds pid i ∧ ¬ table.Holds pid i

theorem Released.nil : Released ops pid table₀ w₀ [] [] 0 table₀ w₀ where
  run := rfl
  noted := rfl
  frame := fun _ _ ↦ rfl
  settled := fun _ h ↦ nomatch h
  last := fun _ h ↦ nomatch h
  once := List.nodup_nil
  held := fun _ h ↦ nomatch h
  spent := fun _ h ↦ nomatch h
  alone := fun earlier _ _ h ↦ by simp at h
  count := rfl

theorem CalledAlone.append {earlier : List DestroyCall} {call : DestroyCall}
    (h : CalledAlone ops pid table₀ w₀ l earlier call) (i : Fin 16) :
    CalledAlone ops pid table₀ w₀ (l ++ [i]) earlier call := by
  obtain ⟨before, j, after, rfl, h⟩ := h
  exact ⟨before, j, after ++ [i], by simp, h⟩

/-- An entry that is not one of the process is left alone. -/
theorem Released.skip (h : Released ops pid table₀ w₀ l calls released table w)
    (hnot : ¬ table₀.Holds pid i) :
    Released ops pid table₀ w₀ (l ++ [i]) calls released table w := by
  have hsame : table.handles i = table₀.handles i := h.frame i (Or.inr hnot)
  have hskips : (table.handles i).type = handleTypeNone ∨ (table.handles i).ownerPid ≠ pid := by
    rw [hsame]
    by_contra hboth
    rw [not_or, not_not] at hboth
    exact hnot hboth
  have hnot' : ¬ table.Holds pid i := by
    rw [RuntimeSyscallTable.Holds, RuntimeSyscallTable.Free, hsame]
    exact hnot
  refine ⟨?_, ?_, fun j hj ↦ h.frame j ?_, fun j hj hholds ↦ ?_, fun j hj hholds ↦ ?_, h.once,
    h.held, fun call hcall j hown hrefers ↦ ?_, fun earlier call later hcalls ↦ ?_, ?_⟩
  · rw [releaseOwnerLoop_append h.run, releaseOwnerLoop, if_pos hskips]
    rfl
  · rw [releaseOwnerLoop_append h.noted, releaseOwnerLoop, if_pos hskips]
    rfl
  · exact hj.imp_left fun hmem hl ↦ hmem (List.mem_append_left _ hl)
  · obtain hj | hj := List.mem_append.mp hj
    · exact h.settled j hj hholds
    · rw [List.mem_singleton.mp hj] at hholds
      exact absurd hholds hnot
  · obtain hj | hj := List.mem_append.mp hj
    · exact h.last j hj hholds
    · rw [List.mem_singleton.mp hj] at hholds
      exact absurd hholds hnot'
  · exact List.mem_append_left _ (h.spent call hcall j hown hrefers)
  · exact (h.alone earlier call later hcalls).append i
  · rw [List.countP_append, ← h.count, List.countP_singleton, if_neg (by simp [hnot])]
    rfl

theorem aliasCount_eq_one (h : ¬ 1 < runtimeSyscallHandleAliasCount table (table.handles i)) :
    runtimeSyscallHandleAliasCount table (table.handles i) = 1 := by
  have hpos : 0 < runtimeSyscallHandleAliasCount table (table.handles i) :=
    List.countP_pos_iff.mpr ⟨i, List.mem_finRange i, aliases_iff.mpr ⟨rfl, rfl, rfl⟩⟩
  omega

/-- The calls for an entry are for its object, and it is the last one. -/
theorem ReleaseStep.call (h : ReleaseStep ops table i w calls cleared w') {call : DestroyCall}
    (hcall : call ∈ calls) : calls = [call] ∧ table.Refers call.kind i call.object ∧
      ¬ 1 < runtimeSyscallHandleAliasCount table (table.handles i) := by
  cases h with
  | drops => cases hcall
  | misses => cases hcall
  | calls htype hlast _ =>
    obtain rfl := List.mem_singleton.mp hcall
    exact ⟨rfl, ⟨htype, rfl⟩, hlast⟩

/-- An entry that is not cleared is the last one for its object, and there is a reason. -/
theorem ReleaseStep.kept (h : ReleaseStep ops table i w calls false w') :
    ¬ 1 < runtimeSyscallHandleAliasCount table (table.handles i) ∧
      ∃ kind : ObjectKind, (table.handles i).type = kind.type ∧
        (ops.destroy (table.handles i).object kind = none ∨
          ⟨kind, (table.handles i).object, false⟩ ∈ calls) := by
  generalize hfalse : false = cleared at h
  cases h with
  | drops => cases hfalse
  | misses htype hlast hnone => exact ⟨hlast, _, htype, Or.inl hnone⟩
  | calls htype hlast _ =>
    subst hfalse
    exact ⟨hlast, _, htype, Or.inr List.mem_cons_self⟩

theorem RuntimeSyscallTable.Holds.of_aliases {j : Fin 16} (h : table.Holds pid i)
    (haliases : (table.handles i).aliases (table.handles j) = true) : table.Holds pid j := by
  obtain ⟨htype, hown, -⟩ := aliases_iff.mp haliases
  rw [Holds, Free, htype, hown]
  exact h

theorem ReleaseStep.calls_eq (h : ReleaseStep ops table i w calls cleared w') :
    calls = [] ∨ ∃ call, calls = [call] := by
  cases h with
  | drops => exact Or.inl rfl
  | misses => exact Or.inl rfl
  | calls => exact Or.inr ⟨_, rfl⟩

/-! ## One step of the walk -/

theorem Released.same (h : Released ops pid table₀ w₀ l calls released table w) (hmem : i ∉ l) :
    table.handles i = table₀.handles i :=
  h.frame i (Or.inl hmem)

theorem Released.holds (h : Released ops pid table₀ w₀ l calls released table w) (hmem : i ∉ l)
    (hholds₀ : table₀.Holds pid i) : table.Holds pid i := by
  rw [RuntimeSyscallTable.Holds, RuntimeSyscallTable.Free, h.same hmem]
  exact hholds₀

theorem holds_congr {table' : RuntimeSyscallTable} {j : Fin 16}
    (h : table'.handles j = table.handles j) : table'.Holds pid j ↔ table.Holds pid j := by
  rw [RuntimeSyscallTable.Holds, RuntimeSyscallTable.Holds, RuntimeSyscallTable.Free,
    RuntimeSyscallTable.Free, h]

/-- The entry is cleared, or stays for a reason, and so do those behind. -/
theorem Released.step_settled (h : Released ops pid table₀ w₀ l calls released table w)
    (hmem : i ∉ l) (hstep : ReleaseStep ops table i w calls' cleared w') {j : Fin 16}
    (hj : j ∈ l ++ [i]) (hholds : table₀.Holds pid j) :
    (table.clearIf i cleared).handles j = runtimeSyscallClearHandle ∨
      (table.clearIf i cleared).handles j = table₀.handles j ∧
        ∃ kind : ObjectKind, (table₀.handles j).type = kind.type ∧
          (ops.destroy (table₀.handles j).object kind = none ∨
            ⟨kind, (table₀.handles j).object, false⟩ ∈ calls ++ calls') := by
  obtain hj | hj := List.mem_append.mp hj
  · have hne : j ≠ i := fun heq ↦ hmem (heq ▸ hj)
    rw [clearIf_of_ne hne]
    refine (h.settled j hj hholds).imp_right fun ⟨hkept, kind, htype, hwhy⟩ ↦ ?_
    exact ⟨hkept, kind, htype, hwhy.imp_right fun hcall ↦ List.mem_append_left _ hcall⟩
  · obtain rfl := List.mem_singleton.mp hj
    cases cleared with
    | true => exact Or.inl clearIf_self
    | false =>
      obtain ⟨-, hwhy⟩ := hstep.kept
      rw [h.same hmem] at hwhy
      obtain ⟨kind, htype, hwhy⟩ := hwhy
      exact Or.inr ⟨h.same hmem, kind, htype,
        hwhy.imp_right fun hcall ↦ List.mem_append_right _ hcall⟩

/-- An entry that stays is the only one for its object. -/
theorem Released.step_last (h : Released ops pid table₀ w₀ l calls released table w)
    (hstep : ReleaseStep ops table i w calls' cleared w') {j k : Fin 16} (hj : j ∈ l ++ [i])
    (hholds : (table.clearIf i cleared).Holds pid j)
    (hk : ((table.clearIf i cleared).handles j).aliases ((table.clearIf i cleared).handles k) =
      true) : k = j := by
  have hj' := hholds.of_clearIf
  have hk' := (hholds.of_aliases hk).of_clearIf
  rw [hj', hk'] at hk
  obtain hj | hj := List.mem_append.mp hj
  · exact h.last j hj ((holds_congr hj').mp hholds) k hk
  · obtain rfl := List.mem_singleton.mp hj
    cases cleared with
    | true => exact absurd hholds not_holds_clearIf
    | false => exact eq_of_aliases hstep.kept.1 hk

/-- No object is called for twice: its entries are behind after the first call. -/
theorem Released.step_once (h : Released ops pid table₀ w₀ l calls released table w) (hmem : i ∉ l)
    (hholds₀ : table₀.Holds pid i) (hstep : ReleaseStep ops table i w calls' cleared w') :
    ((calls ++ calls').map fun call ↦ (call.kind, call.object)).Nodup := by
  obtain rfl | ⟨call, rfl⟩ := hstep.calls_eq
  · rw [List.append_nil]
    exact h.once
  obtain ⟨-, hrefers, -⟩ := hstep.call (List.mem_singleton_self call)
  rw [List.map_append, List.nodup_append]
  refine ⟨h.once, List.nodup_singleton _, ?_⟩
  rintro pair hpair pair' hpair' rfl
  obtain ⟨call', hcall', rfl⟩ := List.mem_map.mp hpair
  simp only [List.map_cons, List.map_nil, List.mem_singleton, Prod.mk.injEq] at hpair'
  rw [← hpair'.1, ← hpair'.2] at hrefers
  exact hmem (h.spent call' hcall' i (h.holds hmem hholds₀).2 hrefers)

theorem Released.step_spent (h : Released ops pid table₀ w₀ l calls released table w)
    (hmem : i ∉ l) (hholds₀ : table₀.Holds pid i)
    (hstep : ReleaseStep ops table i w calls' cleared w') {call : DestroyCall}
    (hcall : call ∈ calls ++ calls') {j : Fin 16}
    (hown : ((table.clearIf i cleared).handles j).ownerPid = pid)
    (hrefers : (table.clearIf i cleared).Refers call.kind j call.object) : j ∈ l ++ [i] := by
  obtain ⟨hrefers, hunchanged⟩ := hrefers.of_clearIf
  rw [hunchanged] at hown
  obtain hcall | hcall := List.mem_append.mp hcall
  · exact List.mem_append_left _ (h.spent call hcall j hown hrefers)
  · obtain ⟨-, hself, hlast⟩ := hstep.call hcall
    have hji : j = i := eq_of_aliases hlast (aliases_iff.mpr
      ⟨hrefers.1.trans hself.1.symm, hown.trans (h.holds hmem hholds₀).2.symm,
        hrefers.2.trans hself.2.symm⟩)
    rw [hji]
    exact List.mem_append_right _ (List.mem_singleton_self i)

theorem Released.step_alone (h : Released ops pid table₀ w₀ l calls released table w)
    (hmem : i ∉ l) (hholds₀ : table₀.Holds pid i)
    (hstep : ReleaseStep ops table i w calls' cleared w')
    (hcloses : ClosesAs ops table i w calls' cleared w') {earlier later : List DestroyCall}
    {call : DestroyCall} (hcalls : calls ++ calls' = earlier ++ call :: later) :
    CalledAlone ops pid table₀ w₀ (l ++ [i]) earlier call := by
  obtain rfl | ⟨call', rfl⟩ := hstep.calls_eq
  · rw [List.append_nil] at hcalls
    exact (h.alone earlier call later hcalls).append i
  obtain rfl | ⟨later, last, rfl⟩ := List.eq_nil_or_concat later
  · -- the new call
    obtain ⟨rfl, rfl⟩ := List.append_singleton_inj.mp hcalls
    obtain ⟨-, hrefers, hlast⟩ := hstep.call (List.mem_singleton_self _)
    obtain ⟨status, -, -, hnoted⟩ := hcloses
    exact ⟨l, i, [], rfl, released, table, w, h.noted, (h.holds hmem hholds₀).2, hrefers,
      aliasCount_eq_one hlast, status, _, w', hnoted _⟩
  · rw [List.concat_eq_append, ← List.cons_append, ← List.append_assoc] at hcalls
    exact (h.alone earlier call later (List.append_singleton_inj.mp hcalls).1).append i

theorem Released.step_count (h : Released ops pid table₀ w₀ l calls released table w)
    (hmem : i ∉ l) (hholds₀ : table₀.Holds pid i) :
    (if cleared = true then released + 1 else released) = (l ++ [i]).countP
      fun j ↦ table₀.Holds pid j ∧ ¬ (table.clearIf i cleared).Holds pid j := by
  have hcount : l.countP (fun j ↦ table₀.Holds pid j ∧ ¬ (table.clearIf i cleared).Holds pid j) =
      released := by
    rw [h.count]
    refine List.countP_congr fun j hj ↦ ?_
    have hne : j ≠ i := fun heq ↦ hmem (heq ▸ hj)
    simp only [holds_congr (clearIf_of_ne hne)]
  rw [List.countP_append, hcount, List.countP_singleton]
  cases cleared with
  | true => simp [hholds₀, not_holds_clearIf]
  | false => simp [RuntimeSyscallTable.clearIf, h.holds hmem hholds₀]

/-- **An entry of the process is released.** -/
theorem Released.step (h : Released ops pid table₀ w₀ l calls released table w) (hmem : i ∉ l)
    (hholds₀ : table₀.Holds pid i) (hstep : ReleaseStep ops table i w calls' cleared w')
    (hcloses : ClosesAs ops table i w calls' cleared w') :
    Released ops pid table₀ w₀ (l ++ [i]) (calls ++ calls')
      (if cleared = true then released + 1 else released) (table.clearIf i cleared) w' := by
  have hruns : ¬ ((table.handles i).type = handleTypeNone ∨ (table.handles i).ownerPid ≠ pid) := by
    rw [not_or, not_not]
    exact h.holds hmem hholds₀
  obtain ⟨status, hstatus, hrun, hnoted⟩ := id hcloses
  have hreleased : (if status = Status.ok then released + 1 else released) =
      if cleared = true then released + 1 else released := by
    simp only [hstatus]
  refine ⟨?_, ?_, fun j hj ↦ ?_, fun j ↦ h.step_settled hmem hstep,
    fun j hj hholds k ↦ h.step_last hstep hj hholds, h.step_once hmem hholds₀ hstep,
    fun call hcall ↦ ?_, fun call hcall j ↦ h.step_spent hmem hholds₀ hstep hcall,
    fun earlier call later ↦ h.step_alone hmem hholds₀ hstep hcloses, h.step_count hmem hholds₀⟩
  · rw [releaseOwnerLoop_append h.run, releaseOwnerLoop, if_neg hruns, hrun, ← hreleased]
    rfl
  · rw [releaseOwnerLoop_append h.noted, releaseOwnerLoop, if_neg hruns, hnoted, ← hreleased]
    rfl
  · have hne : j ≠ i := by
      rintro rfl
      exact hj.elim (fun hj ↦ hj (by simp)) fun hj ↦ hj hholds₀
    rw [clearIf_of_ne hne]
    exact h.frame j (hj.imp_left fun hj hl ↦ hj (List.mem_append_left _ hl))
  · obtain hcall | hcall := List.mem_append.mp hcall
    · exact h.held call hcall
    · obtain ⟨-, hrefers, -⟩ := hstep.call hcall
      rw [RuntimeSyscallTable.Refers, h.same hmem] at hrefers
      exact ⟨i, hholds₀.2, hrefers⟩

/-- **The whole walk**, over any list of entries. -/
theorem exists_released (pid : UInt32) (w₀ : SyscallWorld ω) (hreturns : ops.DestroysReturn)
    (htypes : ∀ i, (table₀.handles i).type ∈ handleTypes) (hnodup : l.Nodup) :
    ∃ calls released table w, Released ops pid table₀ w₀ l calls released table w := by
  induction l using List.reverseRecOn with
  | nil => exact ⟨[], 0, table₀, w₀, Released.nil⟩
  | append_singleton l i ih =>
    obtain ⟨hl, -, hdisjoint⟩ := List.nodup_append.mp hnodup
    obtain ⟨calls, released, table, w, h⟩ := ih hl
    have hmem : i ∉ l := fun hi ↦ hdisjoint i hi i (List.mem_singleton_self i) rfl
    by_cases hholds₀ : table₀.Holds pid i
    · have htype := htypes i
      rw [← h.same hmem] at htype
      obtain ⟨calls', cleared, w', hstep, hcloses⟩ :=
        closeHandle_step (w := w) hreturns (h.holds hmem hholds₀).1 htype
      exact ⟨_, _, _, _, h.step hmem hholds₀ hstep hcloses⟩
    · exact ⟨calls, released, table, w, h.skip hholds₀⟩

end Walk

/-- **The release of the handles of a process.** -/
theorem releaseOwnerHandles_settles (ops : RuntimeSyscallOps ω) (hreturns : ops.DestroysReturn)
    (table : RuntimeSyscallTable) (htypes : ∀ i, (table.handles i).type ∈ handleTypes)
    (pid : UInt32) (hpid : pid ≠ 0) (w : SyscallWorld ω) :
    ∃ released table' w' calls,
      runtimeSyscallReleaseOwnerHandles table pid ops w = .ok (released, table', w') ∧
      runtimeSyscallReleaseOwnerHandles table pid ops.noted (w.noted []) =
        .ok (released, table', w'.noted calls) ∧
      -- the callbacks: once for an object, for an object of the process, with its last handle
      (calls.map fun call ↦ (call.kind, call.object)).Nodup ∧
      (∀ call ∈ calls, ∃ i, (table.handles i).ownerPid = pid ∧
        table.Refers call.kind i call.object) ∧
      (∀ earlier call later, calls = earlier ++ call :: later →
        CalledAlone ops pid table w (List.finRange 16) earlier call) ∧
      -- the entries of the process
      (∀ i, table.Holds pid i → table'.handles i = runtimeSyscallClearHandle ∨
        table'.handles i = table.handles i ∧ ∃ kind : ObjectKind,
          (table.handles i).type = kind.type ∧ (ops.destroy (table.handles i).object kind = none ∨
            ⟨kind, (table.handles i).object, false⟩ ∈ calls)) ∧
      (∀ i j, table'.Holds pid i → table'.Holds pid j →
        (table'.handles i).type = (table'.handles j).type →
        (table'.handles i).object = (table'.handles j).object → i = j) ∧
      -- the other entries, and the count
      (∀ i, ¬ table.Holds pid i → table'.handles i = table.handles i) ∧
      released = (List.finRange 16).countP
        fun i ↦ table.Holds pid i ∧ table'.handles i = runtimeSyscallClearHandle := by
  obtain ⟨calls, released, table', w', h⟩ :=
    exists_released pid w hreturns htypes (List.nodup_finRange 16)
  refine ⟨released, table', w', calls, ?_, ?_, h.once, h.held, h.alone,
    fun i ↦ h.settled i (List.mem_finRange i), fun i j hi hj htype hobject ↦ ?_,
    fun i hi ↦ h.frame i (Or.inr hi), ?_⟩
  · rw [runtimeSyscallReleaseOwnerHandles, if_neg hpid]
    exact h.run
  · rw [runtimeSyscallReleaseOwnerHandles, if_neg hpid]
    exact h.noted
  · exact h.last j (List.mem_finRange j) hj i
      (aliases_iff.mpr ⟨htype, hi.2.trans hj.2.symm, hobject⟩)
  · rw [h.count]
    refine List.countP_congr fun i hi ↦ ?_
    simp only [decide_eq_true_eq, and_congr_right_iff]
    intro hholds
    constructor
    · intro hnot
      obtain hcleared | ⟨hkept, -⟩ := h.settled i hi hholds
      · exact hcleared
      · exact absurd ((holds_congr hkept).mpr hholds) hnot
    · intro hcleared hholds'
      refine hholds'.1 ?_
      rw [RuntimeSyscallTable.Free, hcleared]
      rfl

/-! ## A table with aliases -/

/-- Process 2 has three handles to one event and two to another, mixed with a file and a handle of
process 3 to the first event. -/
def mixedTable : RuntimeSyscallTable where
  handles := fun i ↦ match i.val with
    | 0 => ⟨1, 2, handleTypeEvent, 8⟩
    | 1 => ⟨2, 2, handleTypeEvent, 16⟩
    | 2 => ⟨3, 3, handleTypeEvent, 8⟩
    | 3 => ⟨4, 2, handleTypeEvent, 8⟩
    | 4 => ⟨5, 2, handleTypeFile, 8⟩
    | 5 => ⟨6, 2, handleTypeEvent, 16⟩
    | 6 => ⟨7, 2, handleTypeEvent, 8⟩
    | _ => runtimeSyscallClearHandle

/-- The event at 16 is in use, and files cannot be closed. -/
def busyEventOps : RuntimeSyscallOps Unit where
  eventDestroy := some fun event w ↦ .ok (if event = 16 then 0 else 1, w)

theorem busyEventOps_destroysReturn : busyEventOps.DestroysReturn := by
  intro kind object f hf w
  cases kind with
  | event =>
    obtain rfl := Option.some.inj hf
    exact ⟨_, _, rfl⟩
  | mailbox => cases hf
  | file => cases hf
  | service => cases hf

theorem releaseOwnerHandles_settles_mixedTable :
    (runtimeSyscallReleaseOwnerHandles mixedTable 2 busyEventOps ⟨fun _ ↦ 0, ()⟩).map (·.1) =
      .ok 4 ∧
    ∃ released table' w' calls,
      runtimeSyscallReleaseOwnerHandles mixedTable 2 busyEventOps ⟨fun _ ↦ 0, ()⟩ =
        .ok (released, table', w') ∧
      runtimeSyscallReleaseOwnerHandles mixedTable 2 busyEventOps.noted ⟨fun _ ↦ 0, ((), [])⟩ =
        .ok (released, table', w'.noted calls) ∧
      (calls.map fun call ↦ (call.kind, call.object)).Nodup ∧
      table'.handles 2 = mixedTable.handles 2 := by
  refine ⟨by decide, ?_⟩
  obtain ⟨released, table', w', calls, hrun, hnoted, honce, -, -, -, -, hframe, -⟩ :=
    releaseOwnerHandles_settles busyEventOps busyEventOps_destroysReturn mixedTable (by decide) 2
      (by decide) ⟨fun _ ↦ 0, ()⟩
  exact ⟨released, table', w', calls, hrun, hnoted, honce, hframe 2 (by decide)⟩

end TensorOS
