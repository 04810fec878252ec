import TensorOS.Syscall.Isolation

/-!
# What a system call can do to handles and objects

Four types of handles stand for objects that are made and destroyed by callbacks: events,
mailboxes, open files and service sessions. `SyscallMove` lists everything that a call of the
dispatcher can do to the table and to these objects, one constructor for each way (`run_move`), and
`CloseMove` does the same for the closing of a handle (`closeHandle_move`). The callbacks that
neither make nor destroy an object are summed up by a relation `R` that they keep.
-/

namespace TensorOS

variable {ω : Type}

/-! ## Objects -/

/-- The types of handles with an object of their own. -/
inductive ObjectKind
  | event
  | mailbox
  | file
  | service
  deriving DecidableEq

/-- The type of a handle to such an object. -/
def ObjectKind.type : ObjectKind → UInt32
  | .event => handleTypeEvent
  | .mailbox => handleTypeMailbox
  | .file => handleTypeFile
  | .service => handleTypeService

theorem ObjectKind.type_injective : Function.Injective ObjectKind.type := by
  intro kind kind' h
  cases kind <;> cases kind' <;> first | rfl | cases h

theorem ObjectKind.type_ne_none (kind : ObjectKind) : kind.type ≠ handleTypeNone := by
  cases kind <;> decide

theorem ObjectKind.type_ne_process (kind : ObjectKind) : kind.type ≠ handleTypeProcess := by
  cases kind <;> decide

/-- An object, unless the address is null. -/
def madeObject (object : UInt32) : Option UInt32 := if object = 0 then none else some object

/-- An object, unless the status is an error. -/
def openedObject (answer : Int × UInt32) : Option UInt32 :=
  if answer.1 < 0 then none else some answer.2

/-- The callback that makes an object, with the object as its result. -/
def RuntimeSyscallOps.create (ops : RuntimeSyscallOps ω) (args : RuntimeSyscallArgs) :
    ObjectKind → Option (Callback ω (Option UInt32))
  | .event => ops.eventCreate.map fun f ↦ Callback.answers f madeObject
  | .mailbox => ops.mailboxCreate.map fun f ↦ Callback.answers f madeObject
  | .file => (ops.fileOps.bind (·.open)).map fun f ↦
      Callback.answers (f args.arg0 args.arg1 0) openedObject
  | .service => ops.serviceOpen.map fun f ↦ Callback.answers (f args.arg0 0) openedObject

/-- The callback that destroys an object, with its success as the result. -/
def RuntimeSyscallOps.destroy (ops : RuntimeSyscallOps ω) (object : UInt32) :
    ObjectKind → Option (Callback ω Bool)
  | .event => ops.eventDestroy.map fun f ↦ Callback.answers (f object) (· ≠ 0)
  | .mailbox => ops.mailboxDestroy.map fun f ↦ Callback.answers (f object) (· ≠ 0)
  | .file => (ops.fileOps.bind (·.close)).map fun f ↦ Callback.answers (f object) (0 ≤ ·)
  | .service => ops.serviceClose.map fun f ↦ Callback.answers (f object) (0 ≤ ·)

/-- A callback made an object, or failed to. -/
def Creates (ops : RuntimeSyscallOps ω) (args : RuntimeSyscallArgs) (kind : ObjectKind)
    (w : SyscallWorld ω) (object : Option UInt32) (w' : SyscallWorld ω) : Prop :=
  ∃ f, ops.create args kind = some f ∧ f w = .ok (object, w')

/-- A callback destroyed an object, or refused to. -/
def Destroys (ops : RuntimeSyscallOps ω) (kind : ObjectKind) (object : UInt32)
    (w : SyscallWorld ω) (destroyed : Bool) (w' : SyscallWorld ω) : Prop :=
  ∃ f, ops.destroy object kind = some f ∧ f w = .ok (destroyed, w')

/-- Whatever a callback does is in the relation. -/
def Callback.Keeps {α : Type} (R : SyscallWorld ω → SyscallWorld ω → Prop) (f : Callback ω α) :
    Prop :=
  ∀ w a w', f w = .ok (a, w') → R w w'

/-- The same, for a callback that may be null. -/
def KeepsIfSet {α : Type} (R : SyscallWorld ω → SyscallWorld ω → Prop)
    (callback : Option (Callback ω α)) : Prop :=
  ∀ f ∈ callback, f.Keeps R

/-- The callbacks on files that neither open nor close one keep the relation. -/
structure RuntimeSyscallFileOps.Keep (file : RuntimeSyscallFileOps ω)
    (R : SyscallWorld ω → SyscallWorld ω → Prop) : Prop where
  read : ∀ f ∈ file.read, ∀ object buffer size, (f object buffer size).Keeps R
  write : ∀ f ∈ file.write, ∀ object buffer size, (f object buffer size).Keeps R
  stat : ∀ f ∈ file.stat, ∀ object stat, (f object stat).Keeps R
  readdir : ∀ f ∈ file.readdir, ∀ object entry, (f object entry).Keeps R
  seek : ∀ f ∈ file.seek, ∀ object offset whence, (f object offset whence).Keeps R
  remove : ∀ f ∈ file.remove, ∀ path, (f path).Keeps R
  rename : ∀ f ∈ file.rename, ∀ oldPath newPath, (f oldPath newPath).Keeps R

/-- The callbacks that neither make nor destroy an object keep the relation, and so does a store
into the memory of the caller. -/
structure RuntimeSyscallOps.Keep (ops : RuntimeSyscallOps ω)
    (R : SyscallWorld ω → SyscallWorld ω → Prop) : Prop where
  refl : ∀ w, R w w
  store : ∀ w memory, R w { w with memory := memory }
  processSleep : ∀ f ∈ ops.processSleep, ∀ ticks, (f ticks).Keeps R
  processKill : ∀ f ∈ ops.processKill, ∀ pid code, (f pid code).Keeps R
  processInfo : ∀ f ∈ ops.processInfo, ∀ pid info, (f pid info).Keeps R
  processSpawnNamed : ∀ f ∈ ops.processSpawnNamed, ∀ key role, (f key role).Keeps R
  processSpawnableCount : ∀ f ∈ ops.processSpawnableCount, f.Keeps R
  processSpawnableInfo : ∀ f ∈ ops.processSpawnableInfo, ∀ index info, (f index info).Keeps R
  serviceCount : ∀ f ∈ ops.serviceCount, f.Keeps R
  serviceInfo : ∀ f ∈ ops.serviceInfo, ∀ index info, (f index info).Keeps R
  serviceRequest : ∀ f ∈ ops.serviceRequest, ∀ object request response,
    (f object request response).Keeps R
  appCount : ∀ f ∈ ops.appCount, f.Keeps R
  appInfo : ∀ f ∈ ops.appInfo, ∀ index info, (f index info).Keeps R
  appLaunch : ∀ f ∈ ops.appLaunch, ∀ key, (f key).Keeps R
  eventSignal : ∀ f ∈ ops.eventSignal, ∀ event, (f event).Keeps R
  mailboxSend : ∀ f ∈ ops.mailboxSend, ∀ mailbox message, (f mailbox message).Keeps R
  mailboxReceive : ∀ f ∈ ops.mailboxReceive, ∀ mailbox message, (f mailbox message).Keeps R
  fsMkdir : ∀ f ∈ ops.fsMkdir, ∀ path mode, (f path mode).Keeps R
  fileOps : ∀ file ∈ ops.fileOps, file.Keep R

/-! ## The moves -/

namespace RuntimeSyscallTable

/-- An entry without a handle. -/
def Free (table : RuntimeSyscallTable) (i : Fin 16) : Prop :=
  (table.handles i).type = handleTypeNone

/-- No entry is free. -/
def Full (table : RuntimeSyscallTable) : Prop := ∀ i, ¬ table.Free i

/-- The entry is a handle to the object. -/
def Refers (table : RuntimeSyscallTable) (kind : ObjectKind) (i : Fin 16) (object : UInt32) :
    Prop :=
  (table.handles i).type = kind.type ∧ (table.handles i).object = object

instance (table : RuntimeSyscallTable) (i : Fin 16) : Decidable (table.Free i) :=
  inferInstanceAs (Decidable (_ = _))

instance (table : RuntimeSyscallTable) : Decidable table.Full :=
  inferInstanceAs (Decidable (∀ _, _))

instance (table : RuntimeSyscallTable) (kind : ObjectKind) (i : Fin 16) (object : UInt32) :
    Decidable (table.Refers kind i object) :=
  inferInstanceAs (Decidable (_ ∧ _))

end RuntimeSyscallTable

/-- **The closing of a handle.** -/
inductive CloseMove (ops : RuntimeSyscallOps ω) (table : RuntimeSyscallTable) (w : SyscallWorld ω) :
    RuntimeSyscallTable → SyscallWorld ω → Prop
  /-- The closing failed before it did anything. -/
  | keeps : CloseMove ops table w table w
  /-- The handle is not the last one to its object, or there is no object to destroy. -/
  | drops {i : Fin 16} : (table.handles i).type = handleTypeProcess ∨
      1 < runtimeSyscallHandleAliasCount table (table.handles i) →
      ¬ table.Free i → CloseMove ops table w (table.clear i) w
  | destroys {kind : ObjectKind} {i : Fin 16} {w' : SyscallWorld ω} :
      (table.handles i).type = kind.type →
      ¬ 1 < runtimeSyscallHandleAliasCount table (table.handles i) →
      Destroys ops kind (table.handles i).object w true w' →
      CloseMove ops table w (table.clear i) w'
  | refuses {kind : ObjectKind} {i : Fin 16} {w' : SyscallWorld ω} :
      (table.handles i).type = kind.type →
      Destroys ops kind (table.handles i).object w false w' → CloseMove ops table w table w'
  /-- There is no callback to close the session. -/
  | forgets {i : Fin 16} : (table.handles i).type = handleTypeService → ops.serviceClose = none →
      CloseMove ops table w (table.clear i) w

/-- **A call of the dispatcher.** -/
inductive SyscallMove (ops : RuntimeSyscallOps ω) (R : SyscallWorld ω → SyscallWorld ω → Prop)
    (number : RuntimeSyscallNumber) (args : RuntimeSyscallArgs) (table : RuntimeSyscallTable)
    (w : SyscallWorld ω) : RuntimeSyscallTable → SyscallWorld ω → Prop
  | quiet {w' : SyscallWorld ω} : R w w' → SyscallMove ops R number args table w table w'
  | closes {table' : RuntimeSyscallTable} {w' : SyscallWorld ω} : number = .handleClose →
      CloseMove ops table w table' w' → SyscallMove ops R number args table w table' w'
  /-- A handle to a process. -/
  | grants {i : Fin 16} {pid : UInt32} {w' : SyscallWorld ω} : number ≠ .handleDup → R w w' →
      table.Free i → SyscallMove ops R number args table w
        (table.set i ⟨handleNumber i, ops.currentPid w, handleTypeProcess, pid⟩) w'
  | dups {i j : Fin 16} : number = .handleDup →
      runtimeSyscallLookupHandle table args.arg0 = some i → ¬ table.Free i → table.Free j →
      SyscallMove ops R number args table w
        (table.set j ⟨handleNumber j, (table.handles i).ownerPid, (table.handles i).type,
          (table.handles i).object⟩) w
  /-- No object was made. -/
  | fails {kind : ObjectKind} {w' : SyscallWorld ω} : Creates ops args kind w none w' →
      SyscallMove ops R number args table w table w'
  /-- No object was made, and the entry for it is given back. -/
  | returns {kind : ObjectKind} {i : Fin 16} {w' : SyscallWorld ω} :
      Creates ops args kind w none w' → table.Free i →
      SyscallMove ops R number args table w (table.clear i) w'
  | creates {kind : ObjectKind} {object : UInt32} {i : Fin 16} {w' : SyscallWorld ω} :
      number ≠ .handleDup → Creates ops args kind w (some object) w' → table.Free i →
      SyscallMove ops R number args table w
        (table.set i ⟨handleNumber i, ops.currentPid w, kind.type, object⟩) w'
  /-- An event or a mailbox is made, and there is no entry for it. -/
  | leaks {kind : ObjectKind} {object : UInt32} {w' : SyscallWorld ω} :
      number = .eventCreate ∧ kind = .event ∨ number = .mailboxCreate ∧ kind = .mailbox →
      Creates ops args kind w (some object) w' → table.Full →
      SyscallMove ops R number args table w table w'
  /-- A file or a session is opened, there is no entry for it, and it is closed again. -/
  | unwinds {kind : ObjectKind} {object : UInt32} {w₁ w' : SyscallWorld ω} {destroyed : Bool} :
      Creates ops args kind w (some object) w₁ → Destroys ops kind object w₁ destroyed w' →
      table.Full → SyscallMove ops R number args table w table w'
  /-- The same, without a callback to close it. -/
  | abandons {kind : ObjectKind} {object : UInt32} {w' : SyscallWorld ω} :
      kind = .file ∨ kind = .service → Creates ops args kind w (some object) w' →
      ops.destroy object kind = none → table.Full → SyscallMove ops R number args table w table w'

theorem SyscallMove.mono {ops : RuntimeSyscallOps ω} {R R' : SyscallWorld ω → SyscallWorld ω → Prop}
    {number : RuntimeSyscallNumber} {args : RuntimeSyscallArgs} {table table' : RuntimeSyscallTable}
    {w w' : SyscallWorld ω} (hle : ∀ w w', R w w' → R' w w')
    (h : SyscallMove ops R number args table w table' w') :
    SyscallMove ops R' number args table w table' w' := by
  cases h with
  | quiet hR => exact .quiet (hle _ _ hR)
  | closes hnumber hclose => exact .closes hnumber hclose
  | grants hnumber hR hfree => exact .grants hnumber (hle _ _ hR) hfree
  | dups hnumber hlookup hused hfree => exact .dups hnumber hlookup hused hfree
  | fails hfails => exact .fails hfails
  | returns hfails hfree => exact .returns hfails hfree
  | creates hnumber hcreates hfree => exact .creates hnumber hcreates hfree
  | leaks hnumber hcreates hfull => exact .leaks hnumber hcreates hfull
  | unwinds hcreates hdestroys hfull => exact .unwinds hcreates hdestroys hfull
  | abandons hkind hcreates hnone hfull => exact .abandons hkind hcreates hnone hfull

/-! ## One lemma for each part of the dispatcher -/

section Parts

variable {ops : RuntimeSyscallOps ω} {R : SyscallWorld ω → SyscallWorld ω → Prop}
  {number : RuntimeSyscallNumber} {args : RuntimeSyscallArgs} {table table' : RuntimeSyscallTable}
  {w w' : SyscallWorld ω} {status : Int}

theorem Callback.answers_eq_ok {α β : Type} {f : Callback ω α} {answer : α → β} {b : β}
    {w w' : SyscallWorld ω} :
    f.answers answer w = .ok (b, w') ↔ ∃ a, f w = .ok (a, w') ∧ answer a = b := by
  rw [Callback.answers, bind_eq_ok]
  constructor
  · rintro ⟨⟨a, v⟩, hf, h⟩
    simp only [Except.ok.injEq, Prod.mk.injEq] at h
    obtain ⟨rfl, rfl⟩ := h
    exact ⟨a, hf, rfl⟩
  · rintro ⟨a, hf, rfl⟩
    exact ⟨(a, w'), hf, rfl⟩

theorem Callback.Keeps.answers {α β : Type} {f : Callback ω α} (h : f.Keeps R) (answer : α → β) :
    (f.answers answer).Keeps R := by
  intro w b w' hf
  obtain ⟨a, hf, -⟩ := Callback.answers_eq_ok.mp hf
  exact h w a w' hf

theorem Callback.Keeps.mono {α : Type} {R' : SyscallWorld ω → SyscallWorld ω → Prop}
    (hle : ∀ w w', R w w' → R' w w') {f : Callback ω α} (h : f.Keeps R) : f.Keeps R' :=
  fun w a w' hf ↦ hle w w' (h w a w' hf)

theorem RuntimeSyscallFileOps.Keep.mono {R' : SyscallWorld ω → SyscallWorld ω → Prop}
    (hle : ∀ w w', R w w' → R' w w') {file : RuntimeSyscallFileOps ω} (h : file.Keep R) :
    file.Keep R' where
  read f hf a b c := (h.read f hf a b c).mono hle
  write f hf a b c := (h.write f hf a b c).mono hle
  stat f hf a b := (h.stat f hf a b).mono hle
  readdir f hf a b := (h.readdir f hf a b).mono hle
  seek f hf a b c := (h.seek f hf a b c).mono hle
  remove f hf a := (h.remove f hf a).mono hle
  rename f hf a b := (h.rename f hf a b).mono hle

theorem RuntimeSyscallOps.Keep.mono {R' : SyscallWorld ω → SyscallWorld ω → Prop}
    (hle : ∀ w w', R w w' → R' w w') (h : ops.Keep R) : ops.Keep R' where
  refl w := hle w w (h.refl w)
  store w memory := hle w _ (h.store w memory)
  processSleep f hf a := (h.processSleep f hf a).mono hle
  processKill f hf a b := (h.processKill f hf a b).mono hle
  processInfo f hf a b := (h.processInfo f hf a b).mono hle
  processSpawnNamed f hf a b := (h.processSpawnNamed f hf a b).mono hle
  processSpawnableCount f hf := (h.processSpawnableCount f hf).mono hle
  processSpawnableInfo f hf a b := (h.processSpawnableInfo f hf a b).mono hle
  serviceCount f hf := (h.serviceCount f hf).mono hle
  serviceInfo f hf a b := (h.serviceInfo f hf a b).mono hle
  serviceRequest f hf a b c := (h.serviceRequest f hf a b c).mono hle
  appCount f hf := (h.appCount f hf).mono hle
  appInfo f hf a b := (h.appInfo f hf a b).mono hle
  appLaunch f hf a := (h.appLaunch f hf a).mono hle
  eventSignal f hf a := (h.eventSignal f hf a).mono hle
  mailboxSend f hf a b := (h.mailboxSend f hf a b).mono hle
  mailboxReceive f hf a b := (h.mailboxReceive f hf a b).mono hle
  fsMkdir f hf a b := (h.fsMkdir f hf a b).mono hle
  fileOps file hfile := (h.fileOps file hfile).mono hle

section KeepsIfSet

variable {α β : Type} {callback : Option (Callback ω α)}

theorem KeepsIfSet.of_map {o : Option β} {g : β → Callback ω α} (h : ∀ f ∈ o, (g f).Keeps R) :
    KeepsIfSet R (o.map g) := by
  intro _ hg
  obtain ⟨f, hf, rfl⟩ := Option.mem_map.mp hg
  exact h f hf

theorem KeepsIfSet.of_bind {o : Option β} {g : β → Option (Callback ω α)}
    (h : ∀ b ∈ o, KeepsIfSet R (g b)) : KeepsIfSet R (o.bind g) := by
  intro f hf
  obtain ⟨b, hb, hf⟩ := Option.mem_bind_iff.mp hf
  exact h b hb f hf

theorem KeepsIfSet.unless {c : Prop} [Decidable c] (h : KeepsIfSet R callback) :
    KeepsIfSet R (if c then none else callback) := by
  intro f hf
  split at hf
  · cases hf
  · exact h f hf

end KeepsIfSet

theorem runtimeSyscallAllocHandle_eq_some {ownerPid type object : UInt32} {i : Fin 16}
    (h : runtimeSyscallAllocHandle table ownerPid type object = some (i, table')) :
    table.Free i ∧ table' = table.set i ⟨handleNumber i, ownerPid, type, object⟩ := by
  rw [runtimeSyscallAllocHandle, Option.map_eq_some_iff] at h
  obtain ⟨j, hfind, heq⟩ := h
  simp only [Prod.mk.injEq] at heq
  obtain ⟨rfl, rfl⟩ := heq
  exact ⟨by simpa [RuntimeSyscallTable.Free] using List.find?_some hfind, rfl⟩

theorem runtimeSyscallAllocHandle_eq_none {ownerPid type object : UInt32}
    (h : runtimeSyscallAllocHandle table ownerPid type object = none) : table.Full := by
  rw [runtimeSyscallAllocHandle, Option.map_eq_none_iff, List.find?_eq_none] at h
  intro i
  simpa [RuntimeSyscallTable.Free] using h i (List.mem_finRange i)

theorem runtimeSyscallLookupHandle_eq_some {handle : UInt32} {i : Fin 16}
    (h : runtimeSyscallLookupHandle table handle = some i) : ¬ table.Free i := by
  rw [runtimeSyscallLookupHandle] at h
  split at h
  · simp only at h
    split at h
    · cases h
    · next hused =>
      cases h
      exact hused
  · cases h

theorem forwardCall_move (hR : ∀ w, R w w) {callback : Option (Callback ω Int)}
    (hkeeps : KeepsIfSet R callback)
    (h : forwardCall table callback w = .ok (status, table', w')) :
    SyscallMove ops R number args table w table' w' := by
  cases callback with
  | none =>
    simp only [forwardCall, Except.ok.injEq, Prod.mk.injEq] at h
    obtain ⟨-, rfl, rfl⟩ := h
    exact .quiet (hR w)
  | some f =>
    obtain ⟨⟨a, v⟩, hf, h⟩ := bind_eq_ok.mp h
    simp only [Except.ok.injEq, Prod.mk.injEq] at h
    obtain ⟨-, rfl, rfl⟩ := h
    exact .quiet (hkeeps f rfl w a v hf)

theorem forwardHandleCall_move (hR : ∀ w, R w w) {type handle : UInt32}
    {callback : RuntimeHandleInfo → Option (Callback ω Int)}
    (hkeeps : ∀ entry, KeepsIfSet R (callback entry))
    (h : forwardHandleCall ops table type handle callback w = .ok (status, table', w')) :
    SyscallMove ops R number args table w table' w' := by
  have hquiet : ∀ {code : Int}, (.ok (code, table, w) : Except Fault (SyscallAnswer ω)) =
      .ok (status, table', w') → SyscallMove ops R number args table w table' w' := by
    intro code h
    simp only [Except.ok.injEq, Prod.mk.injEq] at h
    obtain ⟨-, rfl, rfl⟩ := h
    exact .quiet (hR w)
  rw [forwardHandleCall] at h
  split at h
  · exact hquiet h
  · split at h
    · exact hquiet h
    · simp only at h
      split at h
      · exact hquiet h
      · exact forwardCall_move hR (hkeeps _) h

theorem grantHandle_move {ownerPid type object : UInt32}
    (h : grantHandle table ownerPid type object w = .ok (status, table', w')) :
    w' = w ∧ (table' = table ∨
      ∃ i, table.Free i ∧ table' = table.set i ⟨handleNumber i, ownerPid, type, object⟩) := by
  rw [grantHandle] at h
  split at h
  · simp only [Except.ok.injEq, Prod.mk.injEq] at h
    exact ⟨h.2.2.symm, Or.inl h.2.1.symm⟩
  · next i _ halloc =>
    simp only [Except.ok.injEq, Prod.mk.injEq] at h
    obtain ⟨hfree, rfl⟩ := runtimeSyscallAllocHandle_eq_some halloc
    exact ⟨h.2.2.symm, Or.inr ⟨i, hfree, h.2.1.symm⟩⟩

theorem spawnProcess_move (hR : ∀ w, R w w) (hnumber : number ≠ .handleDup)
    {spawn : Option (Callback ω UInt32)} (hkeeps : KeepsIfSet R spawn)
    (h : spawnProcess table (ops.currentPid w) spawn w = .ok (status, table', w')) :
    SyscallMove ops R number args table w table' w' := by
  cases spawn with
  | none =>
    simp only [spawnProcess, Except.ok.injEq, Prod.mk.injEq] at h
    obtain ⟨-, rfl, rfl⟩ := h
    exact .quiet (hR w)
  | some f =>
    obtain ⟨⟨pid, v⟩, hf, h⟩ := bind_eq_ok.mp h
    have hv : R w v := hkeeps f rfl w pid v hf
    simp only at h
    split at h
    · simp only [Except.ok.injEq, Prod.mk.injEq] at h
      obtain ⟨-, rfl, rfl⟩ := h
      exact .quiet hv
    · obtain ⟨rfl, rfl | ⟨i, hfree, rfl⟩⟩ := grantHandle_move h
      · exact .quiet hv
      · exact .grants hnumber hv hfree

theorem createObject_move (hR : ∀ w, R w w) (kind : ObjectKind)
    (hnumber : number = .eventCreate ∧ kind = .event ∨ number = .mailboxCreate ∧ kind = .mailbox)
    {create : Option (Callback ω UInt32)}
    (hcreate : ops.create args kind = create.map fun f ↦ Callback.answers f madeObject)
    (h : createObject table (ops.currentPid w) kind.type create w = .ok (status, table', w')) :
    SyscallMove ops R number args table w table' w' := by
  cases create with
  | none =>
    simp only [createObject, Except.ok.injEq, Prod.mk.injEq] at h
    obtain ⟨-, rfl, rfl⟩ := h
    exact .quiet (hR w)
  | some f =>
    obtain ⟨⟨object, v⟩, hf, h⟩ := bind_eq_ok.mp h
    have hcreates : Creates ops args kind w (madeObject object) v :=
      ⟨_, hcreate, Callback.answers_eq_ok.mpr ⟨object, hf, rfl⟩⟩
    simp only at h
    rw [madeObject] at hcreates
    split at h
    · next halloc =>
      simp only [Except.ok.injEq, Prod.mk.injEq] at h
      obtain ⟨-, rfl, rfl⟩ := h
      split at hcreates
      · exact .fails hcreates
      · exact .leaks hnumber hcreates (runtimeSyscallAllocHandle_eq_none halloc)
    · next i _ halloc =>
      obtain ⟨hfree, rfl⟩ := runtimeSyscallAllocHandle_eq_some halloc
      have hdup : number ≠ .handleDup := by
        obtain ⟨rfl, -⟩ | ⟨rfl, -⟩ := hnumber <;> decide
      rw [RuntimeSyscallTable.set_handles_self] at h
      split at h
      · next hzero =>
        simp only [Except.ok.injEq, Prod.mk.injEq] at h
        obtain ⟨-, rfl, rfl⟩ := h
        rw [if_pos hzero] at hcreates
        rw [RuntimeSyscallTable.clear, RuntimeSyscallTable.set_set]
        exact .returns hcreates hfree
      · next hzero =>
        simp only [Except.ok.injEq, Prod.mk.injEq] at h
        obtain ⟨-, rfl, rfl⟩ := h
        rw [if_neg hzero] at hcreates
        exact .creates hdup hcreates hfree

theorem openObject_move (hR : ∀ w, R w w) (hnumber : number ≠ .handleDup) (kind : ObjectKind)
    (hkind : kind = .file ∨ kind = .service)
    {opens : Option (Callback ω (Int × UInt32))} {close : Option (UInt32 → Callback ω Int)}
    (hcreate : ∀ f ∈ opens, ops.create args kind = some (Callback.answers f openedObject))
    (hdestroy : ∀ object, ops.destroy object kind =
      close.map fun f ↦ Callback.answers (f object) fun result ↦ decide (0 ≤ result))
    (h : openObject table (ops.currentPid w) kind.type opens close w = .ok (status, table', w')) :
    SyscallMove ops R number args table w table' w' := by
  cases opens with
  | none =>
    simp only [openObject, Except.ok.injEq, Prod.mk.injEq] at h
    obtain ⟨-, rfl, rfl⟩ := h
    exact .quiet (hR w)
  | some f =>
    obtain ⟨⟨⟨code, object⟩, v⟩, hf, h⟩ := bind_eq_ok.mp h
    have hcreates : Creates ops args kind w (openedObject (code, object)) v :=
      ⟨_, hcreate f rfl, Callback.answers_eq_ok.mpr ⟨_, hf, rfl⟩⟩
    simp only at h
    rw [openedObject] at hcreates
    split at h
    · next hneg =>
      simp only [Except.ok.injEq, Prod.mk.injEq] at h
      obtain ⟨-, rfl, rfl⟩ := h
      rw [if_pos hneg] at hcreates
      exact .fails hcreates
    · next hneg =>
      rw [if_neg hneg] at hcreates
      split at h
      · next i _ halloc =>
        simp only [Except.ok.injEq, Prod.mk.injEq] at h
        obtain ⟨hfree, rfl⟩ := runtimeSyscallAllocHandle_eq_some halloc
        obtain ⟨-, rfl, rfl⟩ := h
        exact .creates hnumber hcreates hfree
      · next halloc =>
        have hfull := runtimeSyscallAllocHandle_eq_none halloc
        cases close with
        | none =>
          simp only [Except.ok.injEq, Prod.mk.injEq] at h
          obtain ⟨-, rfl, rfl⟩ := h
          exact .abandons hkind hcreates (hdestroy object) hfull
        | some close =>
          obtain ⟨⟨result, u⟩, hclose, h⟩ := bind_eq_ok.mp h
          simp only [Except.ok.injEq, Prod.mk.injEq] at h
          obtain ⟨-, rfl, rfl⟩ := h
          exact .unwinds hcreates
            ⟨_, hdestroy object, Callback.answers_eq_ok.mpr ⟨result, hclose, rfl⟩⟩ hfull

theorem closeLastHandle_move (kind : ObjectKind) {i : Fin 16}
    (htype : (table.handles i).type = kind.type)
    (hlast : ¬ 1 < runtimeSyscallHandleAliasCount table (table.handles i))
    {destroy : Option (UInt32 → Callback ω Int)} {destroyed : Int → Bool} {refusal : Int}
    (hdestroy : ops.destroy (table.handles i).object kind =
      destroy.map fun f ↦ Callback.answers (f (table.handles i).object) destroyed)
    (h : closeLastHandle table i destroy destroyed refusal w = .ok (status, table', w')) :
    CloseMove ops table w table' w' := by
  cases destroy with
  | none =>
    simp only [closeLastHandle, Except.ok.injEq, Prod.mk.injEq] at h
    obtain ⟨-, rfl, rfl⟩ := h
    exact .keeps
  | some f =>
    obtain ⟨⟨result, v⟩, hf, h⟩ := bind_eq_ok.mp h
    have hdestroys : Destroys ops kind (table.handles i).object w (destroyed result) v :=
      ⟨_, hdestroy, Callback.answers_eq_ok.mpr ⟨result, hf, rfl⟩⟩
    simp only at h
    split at h
    · next hok =>
      simp only [Except.ok.injEq, Prod.mk.injEq] at h
      obtain ⟨-, rfl, rfl⟩ := h
      rw [hok] at hdestroys
      exact .destroys htype hlast hdestroys
    · next hok =>
      simp only [Except.ok.injEq, Prod.mk.injEq] at h
      obtain ⟨-, rfl, rfl⟩ := h
      rw [Bool.not_eq_true _ |>.mp hok] at hdestroys
      exact .refuses htype hdestroys

/-- **Every closing is one of these.** -/
theorem closeHandle_move {i : Fin 16} {enforceAccess : Bool}
    (h : runtimeSyscallCloseHandle i ops table w enforceAccess = .ok (status, table', w')) :
    CloseMove ops table w table' w' := by
  have hkeeps : ∀ {code : Int}, (.ok (code, table, w) : Except Fault (SyscallAnswer ω)) =
      .ok (status, table', w') → CloseMove ops table w table' w' := by
    intro code h
    simp only [Except.ok.injEq, Prod.mk.injEq] at h
    obtain ⟨-, rfl, rfl⟩ := h
    exact .keeps
  have hclears : (.ok (Status.ok, table.clear i, w) : Except Fault (SyscallAnswer ω)) =
      .ok (status, table', w') → table' = table.clear i ∧ w' = w := by
    intro h
    simp only [Except.ok.injEq, Prod.mk.injEq] at h
    exact ⟨h.2.1.symm, h.2.2.symm⟩
  have hdrops : ∀ kind : ObjectKind, (table.handles i).type = kind.type →
      1 < runtimeSyscallHandleAliasCount table (table.handles i) →
      (.ok (Status.ok, table.clear i, w) : Except Fault (SyscallAnswer ω)) =
        .ok (status, table', w') → CloseMove ops table w table' w' := by
    intro kind htype hshared h
    obtain ⟨rfl, rfl⟩ := hclears h
    refine .drops (Or.inr hshared) ?_
    rw [RuntimeSyscallTable.Free, htype]
    exact kind.type_ne_none
  simp only [runtimeSyscallCloseHandle] at h
  split at h
  · exact hkeeps h
  -- one branch for each type
  split at h
  · next htype =>
    obtain ⟨rfl, rfl⟩ := hclears h
    refine .drops (Or.inl htype) ?_
    rw [RuntimeSyscallTable.Free, htype]
    decide
  split at h
  · next htype =>
    split at h
    · next hshared => exact hdrops .event htype hshared h
    · next hlast => exact closeLastHandle_move .event htype hlast rfl h
  split at h
  · next htype =>
    split at h
    · next hshared => exact hdrops .mailbox htype hshared h
    · next hlast => exact closeLastHandle_move .mailbox htype hlast rfl h
  split at h
  · next htype =>
    split at h
    · next hshared => exact hdrops .file htype hshared h
    · next hlast => exact closeLastHandle_move .file htype hlast rfl h
  split at h
  · next htype =>
    split at h
    · next hshared => exact hdrops .service htype hshared h
    split at h
    · next hnone =>
      obtain ⟨rfl, rfl⟩ := hclears h
      exact .forgets htype (Option.isNone_iff_eq_none.mp hnone)
    · next hlast _ => exact closeLastHandle_move .service htype hlast rfl h
  · exact hkeeps h

/-- **Every call is one of these.** -/
theorem run_move (hkeep : ops.Keep R)
    (h : number.run args ops table w = .ok (status, table', w')) :
    SyscallMove ops R number args table w table' w' := by
  have hquiet : ∀ {code : Int}, (.ok (code, table, w) : Except Fault (SyscallAnswer ω)) =
      .ok (status, table', w') → SyscallMove ops R number args table w table' w' := by
    intro code h
    simp only [Except.ok.injEq, Prod.mk.injEq] at h
    obtain ⟨-, rfl, rfl⟩ := h
    exact .quiet (hkeep.refl w)
  cases number with
  | getpid => exact hquiet h
  | sleep =>
    exact forwardCall_move hkeep.refl (.of_map fun f hf ↦ (hkeep.processSleep f hf _).answers _) h
  | kill =>
    exact forwardCall_move hkeep.refl (.of_map fun f hf ↦ (hkeep.processKill f hf _ _).answers _) h
  | handleClose =>
    simp only [RuntimeSyscallNumber.run] at h
    split at h
    · exact hquiet h
    · exact .closes rfl (closeHandle_move h)
  | processSelf =>
    simp only [RuntimeSyscallNumber.run] at h
    split at h
    · exact hquiet h
    · obtain ⟨rfl, rfl | ⟨i, hfree, rfl⟩⟩ := grantHandle_move h
      · exact .quiet (hkeep.refl _)
      · exact .grants (by decide) (hkeep.refl _) hfree
  | processInfo =>
    simp only [RuntimeSyscallNumber.run] at h
    exact forwardHandleCall_move hkeep.refl
      (fun _ ↦ .unless (.of_map fun f hf ↦ hkeep.processInfo f hf _ _)) h
  | processTerminate =>
    simp only [RuntimeSyscallNumber.run] at h
    exact forwardHandleCall_move hkeep.refl
      (fun _ ↦ .of_map fun f hf ↦ (hkeep.processKill f hf _ _).answers _) h
  | eventCreate => exact createObject_move hkeep.refl .event (Or.inl ⟨rfl, rfl⟩) rfl h
  | mailboxCreate => exact createObject_move hkeep.refl .mailbox (Or.inr ⟨rfl, rfl⟩) rfl h
  | processSpawn =>
    exact spawnProcess_move hkeep.refl (by decide)
      (.unless (.of_map fun f hf ↦ hkeep.processSpawnNamed f hf _ _)) h
  | appLaunch =>
    exact spawnProcess_move hkeep.refl (by decide)
      (.unless (.of_map fun f hf ↦ hkeep.appLaunch f hf _)) h
  | processSpawnableCount =>
    exact forwardCall_move hkeep.refl
      (.of_map fun f hf ↦ (hkeep.processSpawnableCount f hf).answers _) h
  | serviceCount =>
    exact forwardCall_move hkeep.refl (.of_map fun f hf ↦ (hkeep.serviceCount f hf).answers _) h
  | appCount =>
    exact forwardCall_move hkeep.refl (.of_map fun f hf ↦ (hkeep.appCount f hf).answers _) h
  | processSpawnableInfo =>
    exact forwardCall_move hkeep.refl
      (.unless (.of_map fun f hf ↦ hkeep.processSpawnableInfo f hf _ _)) h
  | serviceInfo =>
    exact forwardCall_move hkeep.refl
      (.unless (.of_map fun f hf ↦ hkeep.serviceInfo f hf _ _)) h
  | appInfo =>
    exact forwardCall_move hkeep.refl (.unless (.of_map fun f hf ↦ hkeep.appInfo f hf _ _)) h
  | serviceOpen =>
    refine openObject_move hkeep.refl (by decide) .service (Or.inr rfl) (fun g hg ↦ ?_)
      (fun object ↦ rfl) h
    split at hg
    · cases hg
    obtain ⟨f, hf, rfl⟩ := Option.mem_map.mp hg
    simp [RuntimeSyscallOps.create, Option.mem_def.mp hf]
  | fileOpen =>
    refine openObject_move hkeep.refl (by decide) .file (Or.inl rfl) (fun g hg ↦ ?_)
      (fun object ↦ rfl) h
    obtain ⟨file, hfile, hg⟩ := Option.mem_bind_iff.mp hg
    obtain ⟨f, hf, rfl⟩ := Option.mem_map.mp hg
    simp [RuntimeSyscallOps.create, Option.mem_def.mp hfile, Option.mem_def.mp hf]
  | serviceRequest =>
    simp only [RuntimeSyscallNumber.run] at h
    exact forwardHandleCall_move hkeep.refl
      (fun _ ↦ .unless (.of_map fun f hf ↦ hkeep.serviceRequest f hf _ _ _)) h
  | eventSignal =>
    simp only [RuntimeSyscallNumber.run] at h
    exact forwardHandleCall_move hkeep.refl
      (fun _ ↦ .of_map fun f hf ↦ (hkeep.eventSignal f hf _).answers _) h
  | mailboxSend =>
    simp only [RuntimeSyscallNumber.run] at h
    exact forwardHandleCall_move hkeep.refl
      (fun _ ↦ .of_map fun f hf ↦ (hkeep.mailboxSend f hf _ _).answers _) h
  | mailboxReceive =>
    simp only [RuntimeSyscallNumber.run] at h
    exact forwardHandleCall_move hkeep.refl
      (fun _ ↦ .of_map fun f hf ↦ (hkeep.mailboxReceive f hf _ _).answers _) h
  | handleDup =>
    simp only [RuntimeSyscallNumber.run] at h
    split at h
    · exact hquiet h
    · next i hlookup =>
      split at h
      · exact hquiet h
      · obtain ⟨rfl, rfl | ⟨j, hfree, rfl⟩⟩ := grantHandle_move h
        · exact .quiet (hkeep.refl _)
        · exact .dups rfl hlookup (runtimeSyscallLookupHandle_eq_some hlookup) hfree
  | handleInfo =>
    simp only [RuntimeSyscallNumber.run] at h
    split at h
    · exact hquiet h
    · split at h
      · exact hquiet h
      · split at h
        · exact hquiet h
        · simp only [Except.ok.injEq, Prod.mk.injEq] at h
          obtain ⟨-, rfl, rfl⟩ := h
          exact .quiet (hkeep.store w _)
  | mkdir => exact forwardCall_move hkeep.refl (.of_map fun f hf ↦ hkeep.fsMkdir f hf _ _) h
  | fileRead =>
    simp only [RuntimeSyscallNumber.run] at h
    exact forwardHandleCall_move hkeep.refl (fun _ ↦ .of_bind fun file hfile ↦
      .of_map fun f hf ↦ (hkeep.fileOps file hfile).read f hf _ _ _) h
  | fileWrite =>
    simp only [RuntimeSyscallNumber.run] at h
    exact forwardHandleCall_move hkeep.refl (fun _ ↦ .of_bind fun file hfile ↦
      .of_map fun f hf ↦ (hkeep.fileOps file hfile).write f hf _ _ _) h
  | fileStat =>
    simp only [RuntimeSyscallNumber.run] at h
    exact forwardHandleCall_move hkeep.refl (fun _ ↦ .unless (.of_bind fun file hfile ↦
      .of_map fun f hf ↦ (hkeep.fileOps file hfile).stat f hf _ _)) h
  | fileReaddir =>
    simp only [RuntimeSyscallNumber.run] at h
    exact forwardHandleCall_move hkeep.refl (fun _ ↦ .unless (.of_bind fun file hfile ↦
      .of_map fun f hf ↦ (hkeep.fileOps file hfile).readdir f hf _ _)) h
  | fileSeek =>
    simp only [RuntimeSyscallNumber.run] at h
    exact forwardHandleCall_move hkeep.refl (fun _ ↦ .of_bind fun file hfile ↦
      .of_map fun f hf ↦ (hkeep.fileOps file hfile).seek f hf _ _ _) h
  | fileRemove =>
    exact forwardCall_move hkeep.refl (.unless (.of_bind fun file hfile ↦
      .of_map fun f hf ↦ (hkeep.fileOps file hfile).remove f hf _)) h
  | fileRename =>
    exact forwardCall_move hkeep.refl (.unless (.of_bind fun file hfile ↦
      .of_map fun f hf ↦ (hkeep.fileOps file hfile).rename f hf _ _)) h

/-- What the closing of a handle keeps, the release of all handles of a process keeps. -/
theorem releaseOwnerLoop_invariant {J : RuntimeSyscallTable → SyscallWorld ω → Prop}
    (hclose : ∀ {table w table' w'}, J table w → CloseMove ops table w table' w' → J table' w')
    {ownerPid : UInt32} {l : List (Fin 16)} {released released' : ℕ} (hJ : J table w)
    (h : releaseOwnerLoop ops ownerPid l released table w = .ok (released', table', w')) :
    J table' w' := by
  induction l generalizing released table w with
  | nil =>
    simp only [releaseOwnerLoop, Except.ok.injEq, Prod.mk.injEq] at h
    obtain ⟨-, rfl, rfl⟩ := h
    exact hJ
  | cons i rest ih =>
    rw [releaseOwnerLoop] at h
    split at h
    · exact ih hJ h
    · obtain ⟨⟨status, table₁, w₁⟩, hcall, h⟩ := bind_eq_ok.mp h
      exact ih (hclose hJ (closeHandle_move hcall)) h

theorem releaseOwnerHandles_invariant {J : RuntimeSyscallTable → SyscallWorld ω → Prop}
    (hclose : ∀ {table w table' w'}, J table w → CloseMove ops table w table' w' → J table' w')
    {ownerPid : UInt32} {released : ℕ} (hJ : J table w)
    (h : runtimeSyscallReleaseOwnerHandles table ownerPid ops w = .ok (released, table', w')) :
    J table' w' := by
  rw [runtimeSyscallReleaseOwnerHandles] at h
  split at h
  · simp only [Except.ok.injEq, Prod.mk.injEq] at h
    obtain ⟨-, rfl, rfl⟩ := h
    exact hJ
  · exact releaseOwnerLoop_invariant hclose hJ h

theorem dispatch_move (hkeep : ops.Keep R) {syscallNumber : UInt32}
    (h : runtimeSyscallDispatch syscallNumber args ops table w = .ok (status, table', w')) :
    (table' = table ∧ w' = w) ∨
      ∃ number, runtimeSyscallNumbers[syscallNumber.toNat]? = some number ∧
        SyscallMove ops R number args table w table' w' := by
  rw [runtimeSyscallDispatch] at h
  split at h
  · simp only [Except.ok.injEq, Prod.mk.injEq] at h
    exact Or.inl ⟨h.2.1.symm, h.2.2.symm⟩
  · next number hnumber => exact Or.inr ⟨number, hnumber, run_move hkeep h⟩

end Parts

end TensorOS
