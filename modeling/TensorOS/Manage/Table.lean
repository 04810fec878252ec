import TensorOS.Manage.Typed
import TensorOS.Sched.Process

/-!
# The console over the process table

`process_core_snapshot` lists the table of ten entries into the console's buffer of eight. It
returns the number of processes, and `count_role_in_snapshot` takes that for the number of entries
it may read. So `ps` and `inspect` are right as long as no more than eight processes are there; one
more, and `ps` reads beyond the buffer.
-/

namespace TensorOS

/-- The numbers of `enum process_state`. -/
def ProcessState.toUInt32 : ProcessState → UInt32
  | unused => 0
  | ready => 1
  | running => 2
  | blocked => 3
  | zombie => 4

/-- The numbers of `enum process_wait_reason`. -/
def WaitReason.toUInt32 : WaitReason → UInt32
  | none => 0
  | sleepTicks => 1
  | manual => 2
  | child => 3
  | eventChannel => 4

/-- What `process_core_snapshot` copies of an entry. -/
def Process.info (process : Process) : ProcessInfo where
  pid := process.pid
  parentPid := process.parentPid
  name := process.name
  role := process.role
  state := process.state.toUInt32
  exitCode := process.exitCode
  switchCount := process.switchCount
  yieldCount := process.yieldCount
  wakeTick := process.wakeTick
  waitReason := process.waitReason.toUInt32
  waitChannel := process.waitChannel

namespace ProcessCore

variable {n : ℕ} (processes : ProcessTable n)

/-- `process_core_snapshot`, for a buffer of `m` entries. -/
def snapshot (m : ℕ) : Snapshot ProcessInfo m :=
  (List.finRange n).foldl (fun written index ↦
    if (processes index).state ≠ .unused then written.push (processes index).info else written)
    (.blank ProcessInfo m)

/-- The entries in use, in the order of the table. -/
def usedInfos : List ProcessInfo :=
  ((List.finRange n).filter fun index ↦ (processes index).state ≠ .unused).map
    fun index ↦ (processes index).info

/-- The number of processes. -/
def usedCount : ℕ := (List.finRange n).countP fun index ↦ (processes index).state ≠ .unused

/-- The number of processes with the foreground role. -/
def foregroundCount : ℕ := (List.finRange n).countP fun index ↦
  (processes index).state ≠ .unused ∧ (processes index).role = roleForegroundApp

theorem length_usedInfos : (usedInfos processes).length = usedCount processes := by
  rw [usedInfos, List.length_map, usedCount, List.countP_eq_length_filter]

theorem countP_usedInfos : (usedInfos processes).countP (fun info ↦ info.role = 2)
    = foregroundCount processes := by
  rw [usedInfos, List.countP_map, List.countP_filter, foregroundCount]
  refine List.countP_congr fun index _ ↦ ?_
  rw [Bool.and_eq_true, decide_eq_true_eq, decide_eq_true_eq, Function.comp_apply,
    decide_eq_true_eq]
  exact and_comm

theorem mem_usedInfos {info : ProcessInfo} : info ∈ usedInfos processes ↔
    ∃ index, (processes index).state ≠ .unused ∧ (processes index).info = info := by
  simp [usedInfos]

theorem usedCount_le : usedCount processes ≤ n := by
  have h := List.countP_le_length (p := fun index ↦ decide ((processes index).state ≠ .unused))
    (l := List.finRange n)
  rwa [List.length_finRange] at h

theorem foregroundCount_le : foregroundCount processes ≤ n := by
  have h := List.countP_le_length (p := fun index ↦ decide ((processes index).state ≠ .unused ∧
    (processes index).role = roleForegroundApp)) (l := List.finRange n)
  rwa [List.length_finRange] at h

theorem snapshot_holds (hn : n < 2 ^ 32) (m : ℕ) :
    (snapshot processes m).Holds (usedInfos processes) := by
  have hlength : (usedInfos processes).length < 2 ^ 32 := by
    rw [length_usedInfos]
    exact (usedCount_le processes).trans_lt hn
  have h := Snapshot.holds_foldl_push (m := m) hlength
  have hfold : (usedInfos processes).foldl Snapshot.push (.blank ProcessInfo m)
      = snapshot processes m := by
    rw [usedInfos, List.foldl_map, List.foldl_filter, snapshot]
    simp only [decide_eq_true_eq]
  rwa [hfold] at h

end ProcessCore

/-! ## Observed listings -/

/-- A line of the log, with the number that `log_u32` prints. -/
structure LogLine where
  tag : String
  text : String
  value : Option UInt32
  deriving DecidableEq, Repr

/-- The console of the kernel: `ops->snapshot` lists the table, and what is logged is kept. The
other callbacks are any. -/
def listingOps (ops : RuntimeManageOps (List LogLine)) (processes : ProcessTable 10) :
    RuntimeManageOps (List LogLine) :=
  { ops with
    snapshot := some fun lines ↦ (ProcessCore.snapshot processes 8, lines)
    log := some fun tag text lines ↦ lines ++ [⟨tag, text, none⟩]
    logU32 := some fun tag text value lines ↦ lines ++ [⟨tag, text, some value⟩] }

/-- The numbers that are reported as `foreground_count`. -/
def foregroundReports (lines : List LogLine) : List UInt32 :=
  lines.filterMap fun line ↦ if line.text = "foreground_count=" then line.value else none

/-- `ps` reads no entry that was not written, and reports the number of foreground processes. -/
def PsExact (ops : RuntimeManageOps (List LogLine)) (processes : ProcessTable 10) : Prop :=
  ∀ command, tokenAt 0 command = asciiBytes "ps" → ∃ lines value,
    runtimeManageExecute (some command) (some (listingOps ops processes)) [] = .ok (.ok, lines) ∧
      foregroundReports lines = [value] ∧ value.toNat = ProcessCore.foregroundCount processes

/-- `inspect` finds the processes in use. -/
def InspectExact (ops : RuntimeManageOps (List LogLine)) (processes : ProcessTable 10) : Prop :=
  ∀ command pid, tokenAt 0 command = asciiBytes "inspect" →
    parseU32Token (tokenAt 1 command) = some pid → ∃ status lines,
      runtimeManageExecute (some command) (some (listingOps ops processes)) []
          = .ok (status, lines) ∧
        (status = .ok ↔
          ∃ index, (processes index).state ≠ .unused ∧ (processes index).pid = pid)

section Exact

variable (ops : RuntimeManageOps (List LogLine)) (processes : ProcessTable 10)

theorem listingOps_lists : Lists (listingOps ops processes) (ProcessCore.snapshot processes 8)
    (fun tag text lines ↦ lines ++ [⟨tag, text, none⟩])
    (fun tag text value lines ↦ lines ++ [⟨tag, text, some value⟩]) := ⟨rfl, rfl, rfl⟩

theorem manageExecute_ps {γ : Type} {ops : RuntimeManageOps γ} {readers : TokenReaders}
    {command : List UInt8} (h : tokenAt 0 command = asciiBytes "ps") :
    manageExecute ops readers command = (do runtimeManageLogSnapshot ops; pure .ok) := by
  rw [tokenAt] at h
  simp only [manageExecute, h]
  rfl

theorem foregroundReports_append (lines : List LogLine) (line : LogLine) :
    foregroundReports (lines ++ [line]) = foregroundReports lines ++
      (if line.text = "foreground_count=" then line.value else none).toList := by
  rw [foregroundReports, foregroundReports, List.filterMap_append]
  cases h : (if line.text = "foreground_count=" then line.value else none) with
  | none => simp [h]
  | some value => simp [h]

theorem foregroundReports_append_other {lines : List LogLine} {line : LogLine}
    (h : line.text ≠ "foreground_count=" ∨ line.value = none) :
    foregroundReports (lines ++ [line]) = foregroundReports lines := by
  have hnone : (if line.text = "foreground_count=" then line.value else none) = none := by
    rcases h with htext | hvalue
    · exact if_neg htext
    · rw [hvalue, ite_self]
  rw [foregroundReports_append, hnone, Option.toList_none, List.append_nil]

theorem psExact_of_le (h : ProcessCore.usedCount processes ≤ 8) : PsExact ops processes := by
  intro command hps
  have hholds := ProcessCore.snapshot_holds processes (by norm_num) 8
  have hfit : (ProcessCore.usedInfos processes).length ≤ 8 := by
    rwa [ProcessCore.length_usedInfos]
  have hcount : "count=" ≠ "foreground_count=" := by decide
  obtain ⟨_, lines, hrun, hreports⟩ := yields_logSnapshot
    (fun lines ↦ foregroundReports lines = [])
    (fun lines ↦ foregroundReports lines
      = [UInt32.ofNat (ProcessCore.foregroundCount processes)])
    (listingOps_lists ops processes) hholds hfit
    (fun value lines hlines ↦ by rwa [foregroundReports_append_other (.inl hcount)])
    (fun lines hlines ↦ by
      rw [foregroundReports_append, hlines, ProcessCore.countP_usedInfos]
      rfl)
    (fun tag text lines hlines ↦ by rwa [foregroundReports_append_other (.inr rfl)])
    (fun text value lines htext hlines ↦ by rwa [foregroundReports_append_other (.inl htext)])
    [] rfl
  refine ⟨lines, UInt32.ofNat (ProcessCore.foregroundCount processes), ?_, hreports, ?_⟩
  · rw [runtimeManageExecute, manageExecute_ps hps, console_bind, hrun]
    rfl
  · have hcount := ProcessCore.foregroundCount_le processes
    rw [UInt32.toNat_ofNat', Nat.mod_eq_of_lt (by omega)]

/-- **With more than eight processes `ps` does not return.** -/
theorem not_psExact (h : 8 < ProcessCore.usedCount processes) : ¬PsExact ops processes := by
  intro hps
  have hholds := ProcessCore.snapshot_holds processes (by norm_num) 8
  obtain ⟨lines, value, hrun, -⟩ := hps (asciiBytes "ps") (by decide)
  rw [runtimeManageExecute, manageExecute_ps (by decide), console_bind] at hrun
  obtain ⟨result, hlog, -⟩ := bind_eq_ok.mp hrun
  rw [← ProcessCore.length_usedInfos] at h
  exact logSnapshot_ne_ok (listingOps_lists ops processes) hholds h [] result hlog

/-- **`inspect` finds the first eight processes**, whatever the number of processes. -/
theorem manageInspect_listing {command : List UInt8} {pid : UInt32}
    (hinspect : tokenAt 0 command = asciiBytes "inspect")
    (hpid : parseU32Token (tokenAt 1 command) = some pid) : ∃ status lines,
    runtimeManageExecute (some command) (some (listingOps ops processes)) []
        = .ok (status, lines) ∧
      (status = .ok ↔ ∃ info ∈ (ProcessCore.usedInfos processes).take 8, info.pid = pid) := by
  have hholds := ProcessCore.snapshot_holds processes (by norm_num) 8
  obtain ⟨found, lines, hrun, hfound, -⟩ := yields_logProcessDetail (P := fun _ ↦ True)
    (listingOps_lists ops processes) hholds pid (fun _ _ _ _ ↦ trivial) (fun _ _ _ _ ↦ trivial)
    [] trivial
  refine ⟨if found then .ok else .badArgument, lines, ?_, ?_⟩
  · have hread : tokenReaders.readU32 (nextToken (nextToken command).2).1 = some pid := hpid
    rw [runtimeManageExecute, manageExecute_inspect hinspect]
    simp only [manageInspect, hread]
    rw [console_bind, hrun]
    rfl
  · rw [← hfound]
    cases found with
    | true => simp
    | false => simp

theorem inspectExact_of_le (h : ProcessCore.usedCount processes ≤ 8) :
    InspectExact ops processes := by
  intro command pid hinspect hpid
  obtain ⟨status, lines, hrun, hstatus⟩ := manageInspect_listing ops processes hinspect hpid
  refine ⟨status, lines, hrun, hstatus.trans ?_⟩
  rw [← ProcessCore.length_usedInfos] at h
  rw [List.take_of_length_le h]
  constructor
  · rintro ⟨info, hinfo, rfl⟩
    obtain ⟨index, hused, rfl⟩ := (ProcessCore.mem_usedInfos processes).mp hinfo
    exact ⟨index, hused, rfl⟩
  · rintro ⟨index, hused, rfl⟩
    exact ⟨_, (ProcessCore.mem_usedInfos processes).mpr ⟨index, hused, rfl⟩, rfl⟩

/-- **The listings are right exactly if at most eight processes are there.** -/
theorem listings_exact_iff :
    PsExact ops processes ∧ InspectExact ops processes ↔ ProcessCore.usedCount processes ≤ 8 := by
  constructor
  · rintro ⟨hps, -⟩
    exact not_lt.mp fun hmore ↦ not_psExact ops processes hmore hps
  · exact fun h ↦ ⟨psExact_of_le ops processes h, inspectExact_of_le ops processes h⟩

end Exact

/-- Nine ready processes and a free entry. -/
def nineProcesses : ProcessTable 10 := fun index ↦
  if index = 9 then ProcessCore.resetSlot
  else { ProcessCore.resetSlot with pid := UInt32.ofNat (index + 1), state := .ready }

/-- `ps` of nine processes reads beyond the buffer. -/
theorem listings_nine : ¬∀ (ops : RuntimeManageOps (List LogLine)) (processes : ProcessTable 10),
    PsExact ops processes ∧ InspectExact ops processes := by
  intro h
  have hmore : 8 < ProcessCore.usedCount nineProcesses := by decide
  let ops : RuntimeManageOps (List LogLine) :=
    ⟨none, none, none, none, none, none, none, none, none, none, none, none, none, none, none, none,
      none, none, none, none, none, none, none⟩
  exact not_psExact ops nineProcesses hmore (h ops nineProcesses).1

end TensorOS
