import TensorOS.Lib.Triple
import TensorOS.Manage.Execute

/-!
# Listings of processes

What `ps` and `inspect` log of a snapshot that holds a list of processes. `ps` counts the foreground
processes over the whole list, so it needs one that fits the buffer; `inspect` searches the part
that fits. The callbacks that log are any that keep what is observed of their state.
-/

namespace TensorOS

section Listing

variable {γ : Type} {ops : RuntimeManageOps γ} {log : String → String → γ → γ}
  {logU32 : String → String → UInt32 → γ → γ} {snapshot : ProcessSnapshot}
  {infos : List ProcessInfo}

theorem yields_call {α : Type} {P : γ → Prop} {Q : α → γ → Prop} {f : γ → α × γ}
    (h : ∀ context, P context → Q (f context).1 (f context).2) : Yields P (Console.call f) Q :=
  .total h

theorem yields_tell {P Q : γ → Prop} {f : γ → γ} (h : ∀ context, P context → Q (f context)) :
    Yields P (Console.tell f) fun _ ↦ Q :=
  .total h

/-- The callbacks that the listings need. -/
structure Lists (ops : RuntimeManageOps γ) (snapshot : ProcessSnapshot)
    (log : String → String → γ → γ) (logU32 : String → String → UInt32 → γ → γ) : Prop where
  snapshot : ops.snapshot = some fun context ↦ (snapshot, context)
  log : ops.log = some log
  logU32 : ops.logU32 = some logU32

/-! ## Counting -/

theorem foldl_count (p : ProcessInfo → Prop) [DecidablePred p] (found : UInt32) :
    infos.foldl (fun found info ↦ if p info then found + 1 else found) found
      = found + UInt32.ofNat (infos.countP fun info ↦ p info) := by
  induction infos generalizing found with
  | nil => simp
  | cons info infos ih =>
    rw [List.foldl_cons, ih, List.countP_cons]
    by_cases hp : p info
    · rw [if_pos hp, if_pos (decide_eq_true hp), UInt32.ofNat_add, add_assoc,
        add_comm (UInt32.ofNat _)]
      rfl
    · rw [if_neg hp, if_neg (by simp [hp]), Nat.add_zero]

theorem countRoleInSnapshot_eq_ok (h : snapshot.Holds infos) (hfit : infos.length ≤ 8)
    (role : UInt32) : countRoleInSnapshot snapshot role
      = .ok (UInt32.ofNat (infos.countP fun info ↦ info.role = role)) := by
  rw [countRoleInSnapshot, h.count]
  refine (h.foldlM_eq_ok (fun found (info : ProcessInfo) ↦
    if info.role = role then found + 1 else found) 0 hfit le_rfl).trans ?_
  rw [List.take_length, foldl_count, zero_add]

/-- A list that does not fit is read beyond the buffer. -/
theorem countRoleInSnapshot_ne_ok (h : snapshot.Holds infos) (hbig : 8 < infos.length)
    (role found : UInt32) : countRoleInSnapshot snapshot role ≠ .ok found := by
  rw [countRoleInSnapshot, h.count]
  exact Snapshot.foldlM_beyond (fun found (info : ProcessInfo) ↦
    if info.role = role then found + 1 else found) 0 found hbig

/-- The search of `inspect` goes over the members that fit. -/
theorem find?_range_isSome (infos : List ProcessInfo) (p : ProcessInfo → Bool) :
    ((List.range (min infos.length 8)).find? fun index ↦ infos[index]?.any p).isSome ↔
      ∃ info ∈ infos.take 8, p info := by
  rw [List.find?_isSome]
  constructor
  · rintro ⟨index, hindex, hp⟩
    rw [List.mem_range] at hindex
    have hlt : index < infos.length := by omega
    rw [List.getElem?_eq_getElem hlt, Option.any_some] at hp
    exact ⟨infos[index], List.mem_take_iff_getElem.mpr ⟨index, by omega, rfl⟩, hp⟩
  · rintro ⟨info, hinfo, hp⟩
    obtain ⟨index, hindex, rfl⟩ := List.mem_take_iff_getElem.mp hinfo
    have hlt : index < infos.length := by omega
    refine ⟨index, List.mem_range.mpr (by omega), ?_⟩
    rw [List.getElem?_eq_getElem hlt, Option.any_some]
    exact hp

/-! ## Logging -/

theorem yields_logWait {P : γ → Prop} {info : ProcessInfo}
    (hlog : ∀ tag text context, P context → P (log tag text context))
    (hlogU32 : ∀ text value context, text ≠ "foreground_count=" → P context →
      P (logU32 "PROC" text value context)) :
    Yields P (logWait log logU32 info) fun _ ↦ P := by
  have hchannel := fun context ↦ hlogU32 "wait_channel=" info.waitChannel context (by decide)
  have htick := fun context ↦ hlogU32 "wake_tick=" info.wakeTick.toUInt32 context (by decide)
  unfold logWait
  split
  · dsimp only
    split
    · refine .bind (yields_tell (hlog _ _)) fun _ ↦ ?_
      exact .bind (yields_tell hchannel) fun _ ↦ yields_tell htick
    · exact yields_tell htick
  · dsimp only
    split
    · refine .bind (yields_tell (hlog _ _)) fun _ ↦ ?_
      exact .bind (yields_tell hchannel) fun _ ↦ .pure fun _ h ↦ h
    · exact .pure fun _ h ↦ h

/-- **`ps` of a list that fits.** Logging the number of foreground processes leads from the states
`before` to the states `after`, and nothing else that is logged matters. -/
theorem yields_logSnapshot (before after : γ → Prop) (hops : Lists ops snapshot log logU32)
    (h : snapshot.Holds infos) (hfit : infos.length ≤ 8)
    (hcount : ∀ value context, before context → before (logU32 "PROC" "count=" value context))
    (hforeground : ∀ context, before context → after (logU32 "PROC" "foreground_count="
      (UInt32.ofNat (infos.countP fun info ↦ info.role = 2)) context))
    (hlog : ∀ tag text context, after context → after (log tag text context))
    (hlogU32 : ∀ text value context, text ≠ "foreground_count=" → after context →
      after (logU32 "PROC" text value context)) :
    Yields before (runtimeManageLogSnapshot ops) fun _ ↦ after := by
  rw [runtimeManageLogSnapshot, hops.snapshot, hops.log, hops.logU32]
  dsimp only
  refine .bind_eq (yields_call fun _ hcontext ↦ ⟨rfl, hcontext⟩) ?_
  refine .bind (yields_tell (hcount _)) fun _ ↦ ?_
  refine .bind_eq (.lift (countRoleInSnapshot_eq_ok h hfit 2)) ?_
  refine .bind (yields_tell hforeground) fun _ ↦ ?_
  refine .forM fun index hindex ↦ ?_
  rw [h.count, List.mem_range] at hindex
  have hlt : index < infos.length := by omega
  refine .bind_eq (.lift (h.read_eq_ok (by omega) (List.getElem?_eq_getElem hlt))) ?_
  refine .bind (yields_tell fun context ↦ hlogU32 _ _ context (by decide)) fun _ ↦ ?_
  refine .bind (yields_tell (hlog _ _)) fun _ ↦ ?_
  refine .bind (yields_tell (hlog _ _)) fun _ ↦ ?_
  exact yields_logWait hlog hlogU32

theorem logSnapshot_ne_ok (hops : Lists ops snapshot log logU32) (h : snapshot.Holds infos)
    (hbig : 8 < infos.length) (context : γ) (result : Unit × γ) :
    runtimeManageLogSnapshot ops context ≠ .ok result := by
  rw [runtimeManageLogSnapshot, hops.snapshot, hops.log, hops.logU32]
  dsimp only
  rw [console_bind, call_apply, ok_bind, console_bind, tell_apply, ok_bind, console_bind]
  intro heq
  obtain ⟨⟨found, context'⟩, hfound, -⟩ := bind_eq_ok.mp heq
  obtain ⟨found', hcount, -⟩ := bind_eq_ok.mp hfound
  exact countRoleInSnapshot_ne_ok h hbig 2 found' hcount

/-- **`inspect` searches what fits the buffer.** -/
theorem yields_logProcessDetail {P : γ → Prop} (hops : Lists ops snapshot log logU32)
    (h : snapshot.Holds infos) (targetPid : UInt32)
    (hlog : ∀ tag text context, P context → P (log tag text context))
    (hlogU32 : ∀ text value context, P context → P (logU32 "PROC" text value context)) :
    Yields P (runtimeManageLogProcessDetail ops targetPid) fun found context ↦
      (found = true ↔ ∃ info ∈ infos.take 8, info.pid = targetPid) ∧ P context := by
  rw [runtimeManageLogProcessDetail, hops.snapshot, hops.log, hops.logU32]
  dsimp only
  refine .bind_eq (yields_call fun _ hcontext ↦ ⟨rfl, hcontext⟩) ?_
  have hsearch := h.findM?_eq_ok (fun info ↦ decide (info.pid = targetPid))
    (k := min snapshot.count.toNat 8) (min_le_right _ _) (h.count ▸ min_le_left _ _)
  rw [h.count] at hsearch ⊢
  refine .bind_eq (.lift hsearch) ?_
  have hfound := find?_range_isSome infos fun info ↦ decide (info.pid = targetPid)
  simp only [decide_eq_true_eq] at hfound
  cases hfind : (List.range (min infos.length 8)).find? fun index ↦
      infos[index]?.any fun info ↦ decide (info.pid = targetPid) with
  | none =>
    rw [hfind] at hfound
    exact .pure fun context hcontext ↦ ⟨by simpa using hfound, hcontext⟩
  | some index =>
    rw [hfind] at hfound
    have hindex := List.mem_range.mp (List.mem_of_find?_eq_some hfind)
    have hlt : index < infos.length := by omega
    refine .bind_eq (.lift (h.read_eq_ok (by omega) (List.getElem?_eq_getElem hlt))) ?_
    refine .bind (yields_tell (hlog _ _)) fun _ ↦ ?_
    refine .bind (yields_tell (hlogU32 _ _)) fun _ ↦ ?_
    refine .bind (yields_tell (hlogU32 _ _)) fun _ ↦ ?_
    have hrest : Yields P (do
        Console.tell (log "PROC" (runtimeProcessRoleName infos[index].role))
        Console.tell (log "PROC" (processStateName infos[index].state))
        Console.tell (logU32 "PROC" "switch_count=" infos[index].switchCount)
        Console.tell (logU32 "PROC" "yield_count=" infos[index].yieldCount)
        Console.tell (logU32 "PROC" "exit_code=" infos[index].exitCode.toUInt32)
        logWait log logU32 infos[index]
        pure true) fun found context ↦
          (found = true ↔ ∃ info ∈ infos.take 8, info.pid = targetPid) ∧ P context := by
      refine .bind (yields_tell (hlog _ _)) fun _ ↦ ?_
      refine .bind (yields_tell (hlog _ _)) fun _ ↦ ?_
      refine .bind (yields_tell (hlogU32 _ _)) fun _ ↦ ?_
      refine .bind (yields_tell (hlogU32 _ _)) fun _ ↦ ?_
      refine .bind (yields_tell (hlogU32 _ _)) fun _ ↦ ?_
      refine .bind (yields_logWait hlog fun text value context _ ↦ hlogU32 text value context)
        fun _ ↦ ?_
      exact .pure fun context hcontext ↦ ⟨by simpa using hfound, hcontext⟩
    split
    · exact hrest
    · exact .bind (yields_tell (hlog _ _)) fun _ ↦ hrest

end Listing

end TensorOS
