import TensorOS.Manage.Listing

/-!
# Commands that act on numbers as they were typed

The console with exact readers refuses every number that is out of range. The console of the source
is that console for all commands but those of `Misreads`: a number that does not fit a word is
replaced by its remainder, and for `kill` this needs an exit code that is accepted as well.
-/

namespace TensorOS

open Classical in
/-- **Readers that read every number as it was typed**, and refuse what is out of range. -/
noncomputable def typedReaders : TokenReaders where
  readU32 token :=
    if h : ∃ value : UInt32, Denotes token value.toNat then some h.choose else none
  readI32 token :=
    .ok (if h : ∃ z, DenotesSigned token z ∧ IsInt32 z then some h.choose else none)

/-- The token at a position of a command. -/
def tokenAt : ℕ → List UInt8 → List UInt8
  | 0, cursor => (nextToken cursor).1
  | k + 1, cursor => tokenAt k (nextToken cursor).2

/-- The arguments of `kill` that are not acted on as they were typed. -/
def MisreadsKill (pidToken exitToken : List UInt8) : Prop :=
  WrapsU32 pidToken ∧
      (exitToken = [] ∨ WrapsI32 exitToken ∨ ∃ z, DenotesSigned exitToken z ∧ IsInt32 z) ∨
    (∃ n, Denotes pidToken n ∧ n < 2 ^ 32) ∧ WrapsI32 exitToken

/-- The commands that act on another number than the one typed. -/
def Misreads (command : List UInt8) : Prop :=
  (tokenAt 0 command = asciiBytes "inspect" ∨ tokenAt 0 command = asciiBytes "wake") ∧
      WrapsU32 (tokenAt 1 command) ∨
    tokenAt 0 command = asciiBytes "kill" ∧ MisreadsKill (tokenAt 1 command) (tokenAt 2 command) ∨
    tokenAt 0 command = asciiBytes "mailbox" ∧ tokenAt 1 command = asciiBytes "send" ∧
      WrapsU32 (tokenAt 2 command)

/-! ## The readers -/

section Readers

variable {token : List UInt8}

theorem typedReaders_readU32 {value : UInt32} :
    typedReaders.readU32 token = some value ↔ Denotes token value.toNat := by
  constructor
  · intro h
    rw [typedReaders] at h
    dsimp only at h
    split at h
    · rename_i hvalue
      rw [← Option.some.inj h]
      exact hvalue.choose_spec
    · cases h
  · intro h
    have hex : ∃ value : UInt32, Denotes token value.toNat := ⟨value, h⟩
    rw [typedReaders]
    dsimp only
    rw [dif_pos hex, Option.some_inj]
    exact UInt32.toNat_inj.mp (hex.choose_spec.unique h)

theorem typedReaders_readU32_eq_none (h : WrapsU32 token) : typedReaders.readU32 token = none := by
  obtain ⟨n, hn, hlarge⟩ := h
  cases hread : typedReaders.readU32 token with
  | none => rfl
  | some value =>
    have := hn.unique (typedReaders_readU32.mp hread)
    have := value.toNat_lt
    omega

theorem parseU32Token_eq_typed (h : ¬WrapsU32 token) :
    parseU32Token token = typedReaders.readU32 token := by
  refine Option.ext fun value ↦ ?_
  exact (readsU32_iff.mpr h value).trans typedReaders_readU32.symm

theorem WrapsU32.parse (h : WrapsU32 token) : ∃ value, parseU32Token token = some value := by
  obtain ⟨n, hn, -⟩ := h
  exact ⟨UInt32.ofNat n, parseU32Token_eq_some.mpr ⟨n, hn, toNat_ofNat_mod⟩⟩

/-- A token has one signed number. -/
theorem DenotesSigned.unique {y z : Int} (hy : DenotesSigned token y) (hz : DenotesSigned token z) :
    y = z := by
  rcases hy with ⟨n, hn, rfl⟩ | ⟨digits, n, rfl, hn, rfl⟩
  · rcases hz with ⟨m, hm, rfl⟩ | ⟨digits, m, rfl, -, -⟩
    · rw [hn.unique hm]
    · exact absurd hn (not_denotes_minus digits)
  · obtain ⟨m, hm, rfl⟩ := denotesSigned_minus.mp hz
    rw [hn.unique hm]

theorem typedReaders_readI32 (token : List UInt8) : ∃ result,
    typedReaders.readI32 token = .ok result ∧
    ∀ z, result = some z ↔ DenotesSigned token z ∧ IsInt32 z := by
  refine ⟨_, rfl, fun z ↦ ?_⟩
  split
  · rename_i h
    rw [Option.some_inj]
    constructor
    · rintro rfl
      exact h.choose_spec
    · exact fun hz ↦ h.choose_spec.1.unique hz.1
  · rename_i h
    exact iff_of_false (by simp) fun hz ↦ h ⟨z, hz⟩

theorem parseI32Token_eq_typed_iff :
    parseI32Token token = typedReaders.readI32 token ↔ ¬WrapsI32 token := by
  rw [← readsI32_iff]
  obtain ⟨typed, htyped, hspec⟩ := typedReaders_readI32 token
  constructor
  · intro h
    exact ⟨typed, h.trans htyped, hspec⟩
  · rintro ⟨result, hparse, hresult⟩
    rw [hparse, htyped]
    exact congrArg Except.ok (Option.ext fun z ↦ (hresult z).trans (hspec z).symm)

/-- A number that wraps is not refused. -/
theorem WrapsI32.parse_ne (h : WrapsI32 token) : parseI32Token token ≠ .ok none := by
  rcases h with ⟨n, hn, -, hsmall⟩ | ⟨digits, n, rfl, hn, hrange⟩
  · by_cases hplain : token.getD 0 0 = 45
    · obtain ⟨digits, rfl⟩ : ∃ digits, token = 45 :: digits := by
        cases token with
        | nil => exact absurd hplain (by decide)
        | cons c digits => exact ⟨digits, by rw [← hplain]; rfl⟩
      exact absurd hn (not_denotes_minus digits)
    · rw [parseI32Token_positive hplain hn, if_neg (by omega)]
      simp
  · rw [parseI32Token_negative hn, if_neg (by omega)]
    split
    · simp
    · simp

theorem not_wrapsI32_nil : ¬WrapsI32 [] := by
  rintro (⟨n, hn | ⟨x, digits, -, heq, -⟩, -⟩ | ⟨digits, n, heq, -⟩)
  · exact hn.1 rfl
  · cases heq
  · cases heq

end Readers

/-! ## The commands -/

section Dispatch

variable {γ : Type} {ops : RuntimeManageOps γ} {readers : TokenReaders} {command : List UInt8}

theorem tokenEquals_iff {token : List UInt8} {word : String} :
    tokenEquals token word = true ↔ token = asciiBytes word := textEquals_iff

theorem manageExecute_inspect (h : tokenAt 0 command = asciiBytes "inspect") :
    manageExecute ops readers command = manageInspect ops readers (nextToken command).2 := by
  rw [tokenAt] at h
  simp only [manageExecute, h]
  rfl

theorem manageExecute_wake (h : tokenAt 0 command = asciiBytes "wake") :
    manageExecute ops readers command = manageWake ops readers (nextToken command).2 := by
  rw [tokenAt] at h
  simp only [manageExecute, h]
  rfl

theorem manageExecute_kill (h : tokenAt 0 command = asciiBytes "kill") :
    manageExecute ops readers command = manageKill ops readers (nextToken command).2 := by
  rw [tokenAt] at h
  simp only [manageExecute, h]
  rfl

theorem manageExecute_mailbox (h : tokenAt 0 command = asciiBytes "mailbox") :
    manageExecute ops readers command = manageMailbox ops readers (nextToken command).2 := by
  rw [tokenAt] at h
  simp only [manageExecute, h]
  rfl

theorem manageMailbox_send {cursor : List UInt8} (h : tokenAt 0 cursor = asciiBytes "send") :
    manageMailbox ops readers cursor = manageMailboxSend ops readers (nextToken cursor).2 := by
  rw [tokenAt] at h
  simp only [manageMailbox, h]
  rfl

theorem manageMailbox_other {cursor : List UInt8} (other : TokenReaders)
    (h : tokenAt 0 cursor ≠ asciiBytes "send") :
    manageMailbox ops readers cursor = manageMailbox ops other cursor := by
  have hsend : tokenEquals (nextToken cursor).1 "send" = false :=
    Bool.eq_false_iff.mpr fun hequals ↦ h (tokenEquals_iff.mp hequals)
  simp only [manageMailbox, hsend, Bool.false_eq_true, if_false]

/-- The other commands read no number. -/
theorem manageExecute_other (other : TokenReaders)
    (hinspect : tokenAt 0 command ≠ asciiBytes "inspect")
    (hwake : tokenAt 0 command ≠ asciiBytes "wake") (hkill : tokenAt 0 command ≠ asciiBytes "kill")
    (hmailbox : tokenAt 0 command ≠ asciiBytes "mailbox") :
    manageExecute ops readers command = manageExecute ops other command := by
  have hother : ∀ word, tokenAt 0 command ≠ asciiBytes word →
      tokenEquals (nextToken command).1 word = false := by
    intro word h
    exact Bool.eq_false_iff.mpr fun hequals ↦ h (tokenEquals_iff.mp hequals)
  simp only [manageExecute, hother "inspect" hinspect, hother "wake" hwake, hother "kill" hkill,
    hother "mailbox" hmailbox, Bool.false_eq_true, if_false]

end Dispatch

/-! ## Agreement -/

section Congr

variable {γ : Type} {ops : RuntimeManageOps γ} {readers other : TokenReaders} {cursor : List UInt8}

theorem manageInspect_congr
    (h : readers.readU32 (tokenAt 0 cursor) = other.readU32 (tokenAt 0 cursor)) :
    manageInspect ops readers cursor = manageInspect ops other cursor := by
  rw [tokenAt] at h
  simp only [manageInspect, h]

theorem manageWake_congr
    (h : readers.readU32 (tokenAt 0 cursor) = other.readU32 (tokenAt 0 cursor)) :
    manageWake ops readers cursor = manageWake ops other cursor := by
  rw [tokenAt] at h
  simp only [manageWake, h]

theorem manageMailboxSend_congr
    (h : readers.readU32 (tokenAt 0 cursor) = other.readU32 (tokenAt 0 cursor)) :
    manageMailboxSend ops readers cursor = manageMailboxSend ops other cursor := by
  rw [tokenAt] at h
  simp only [manageMailboxSend, h]

theorem manageKill_congr
    (h : readers.readU32 (tokenAt 0 cursor) = other.readU32 (tokenAt 0 cursor))
    (hexit : readers.readU32 (tokenAt 0 cursor) = none ∨
      readers.readI32 (tokenAt 1 cursor) = other.readI32 (tokenAt 1 cursor)) :
    manageKill ops readers cursor = manageKill ops other cursor := by
  simp only [tokenAt] at h hexit
  rcases hexit with hnone | hexit
  · rw [hnone] at h
    simp only [manageKill, hnone, ← h]
  · simp only [manageKill, h, hexit]

theorem manageInspect_refused (h : readers.readU32 (tokenAt 0 cursor) = none) :
    manageInspect ops readers cursor = pure .badArgument := by
  rw [tokenAt] at h
  simp only [manageInspect, h]

theorem manageWake_refused (h : readers.readU32 (tokenAt 0 cursor) = none) :
    manageWake ops readers cursor = pure .badArgument := by
  rw [tokenAt] at h
  simp only [manageWake, h]

theorem manageMailboxSend_refused (h : readers.readU32 (tokenAt 0 cursor) = none) :
    manageMailboxSend ops readers cursor = pure .badArgument := by
  rw [tokenAt] at h
  simp only [manageMailboxSend, h]

/-- A command without a pid, or with an exit code that is refused, kills nothing. -/
theorem manageKill_refused (h : readers.readU32 (tokenAt 0 cursor) = none ∨
    tokenAt 1 cursor ≠ [] ∧ readers.readI32 (tokenAt 1 cursor) = .ok none) :
    manageKill ops readers cursor = pure .badArgument := by
  simp only [tokenAt] at h
  rcases h with hnone | ⟨hne, hexit⟩
  · simp only [manageKill, hnone]
  · have hempty : tokenIsEmpty (nextToken (nextToken cursor).2).1 = false := by
      simpa [tokenIsEmpty] using hne
    simp only [manageKill, hempty, hexit]
    cases readers.readU32 (nextToken cursor).1 with
    | none => rfl
    | some pid =>
      cases ops.processKill with
      | none => rfl
      | some processKill => rfl

end Congr

/-- Arguments that are not misread give the same call, or none. -/
theorem manageKill_agree {γ : Type} (ops : RuntimeManageOps γ) {cursor : List UInt8}
    (h : ¬MisreadsKill (tokenAt 0 cursor) (tokenAt 1 cursor)) :
    manageKill ops tokenReaders cursor = manageKill ops typedReaders cursor := by
  obtain ⟨hwraps, hsmall⟩ := not_or.mp h
  by_cases hpid : WrapsU32 (tokenAt 0 cursor)
  · -- the pid is replaced, and the exit code is refused
    obtain ⟨hne, hrest⟩ := not_or.mp (not_and.mp hwraps hpid)
    obtain ⟨hexit, hrange⟩ := not_or.mp hrest
    have hread := parseI32Token_eq_typed_iff.mpr hexit
    obtain ⟨result, htyped, hresult⟩ := typedReaders_readI32 (tokenAt 1 cursor)
    obtain rfl : result = none := by
      cases result with
      | none => rfl
      | some z => exact absurd ⟨z, (hresult z).mp rfl⟩ hrange
    rw [manageKill_refused (.inr ⟨hne, hread.trans htyped⟩),
      manageKill_refused (.inr ⟨hne, htyped⟩)]
  · have hread := parseU32Token_eq_typed hpid
    refine manageKill_congr hread ?_
    cases hvalue : typedReaders.readU32 (tokenAt 0 cursor) with
    | none => exact .inl (hread.trans hvalue)
    | some pid =>
      refine .inr (parseI32Token_eq_typed_iff.mpr fun hexit ↦ hsmall ⟨?_, hexit⟩)
      exact ⟨pid.toNat, typedReaders_readU32.mp hvalue, pid.toNat_lt⟩

theorem manageExecute_agree {γ : Type} (ops : RuntimeManageOps γ) {command : List UInt8}
    (h : ¬Misreads command) :
    manageExecute ops tokenReaders command = manageExecute ops typedReaders command := by
  obtain ⟨hpids, h⟩ := not_or.mp h
  obtain ⟨hkills, hsends⟩ := not_or.mp h
  by_cases hinspect : tokenAt 0 command = asciiBytes "inspect"
  · rw [manageExecute_inspect hinspect, manageExecute_inspect hinspect]
    exact manageInspect_congr (parseU32Token_eq_typed fun hwraps ↦ hpids ⟨.inl hinspect, hwraps⟩)
  by_cases hwake : tokenAt 0 command = asciiBytes "wake"
  · rw [manageExecute_wake hwake, manageExecute_wake hwake]
    exact manageWake_congr (parseU32Token_eq_typed fun hwraps ↦ hpids ⟨.inr hwake, hwraps⟩)
  by_cases hkill : tokenAt 0 command = asciiBytes "kill"
  · rw [manageExecute_kill hkill, manageExecute_kill hkill]
    exact manageKill_agree ops fun hmisread ↦ hkills ⟨hkill, hmisread⟩
  by_cases hmailbox : tokenAt 0 command = asciiBytes "mailbox"
  · rw [manageExecute_mailbox hmailbox, manageExecute_mailbox hmailbox]
    by_cases hsend : tokenAt 1 command = asciiBytes "send"
    · rw [manageMailbox_send hsend, manageMailbox_send hsend]
      exact manageMailboxSend_congr
        (parseU32Token_eq_typed fun hwraps ↦ hsends ⟨hmailbox, hsend, hwraps⟩)
    · exact manageMailbox_other typedReaders hsend
  · exact manageExecute_other typedReaders hinspect hwake hkill hmailbox

/-! ## Difference -/

/-- Callbacks that tell the calls apart: the only process has the pid `pid`, and the state records
the last number that a process was killed with. -/
def probeOps (pid : UInt32) : RuntimeManageOps (Option Int) where
  snapshot := some fun last ↦
    ((Snapshot.blank ProcessInfo 8).push ⟨pid, 0, none, 0, 0, 0, 0, 0, 0, 0, 0⟩, last)
  spawnableSnapshot := none
  kmemStats := none
  mailboxHasMessage := none
  mailboxWaitingSenders := none
  mailboxWaitingReceivers := none
  mailboxSend := some fun _ last ↦ (1, last)
  mailboxReceive := none
  eventSignal := none
  processWake := some fun _ last ↦ (1, last)
  processKill := some fun _ exitCode _ ↦ (1, some exitCode)
  spawnNamedProcess := none
  demoProfile := none
  demoSetProfile := none
  demoCompletedSteps := none
  demoTotalSteps := none
  shellPath := none
  resolveCommandPath := none
  schedulerModeName := none
  runtimeModeName := none
  preemptStatusName := none
  log := some fun _ _ last ↦ last
  logU32 := some fun _ _ _ last ↦ last

section Probe

variable {readers : TokenReaders} {pid : UInt32} {cursor : List UInt8}

theorem probe_detail :
    runtimeManageLogProcessDetail (probeOps pid) pid none = .ok (true, none) := by
  let info : ProcessInfo := ⟨pid, 0, none, 0, 0, 0, 0, 0, 0, 0, 0⟩
  have hlists : Lists (probeOps pid) ((Snapshot.blank ProcessInfo 8).push info)
      (fun _ _ last ↦ last) (fun _ _ _ last ↦ last) := ⟨rfl, rfl, rfl⟩
  have hholds : ((Snapshot.blank ProcessInfo 8).push info).Holds [info] :=
    Snapshot.holds_blank.push info (by decide)
  obtain ⟨found, context, hrun, hfound, hcontext⟩ := yields_logProcessDetail (P := (· = none))
    hlists hholds pid (fun _ _ _ h ↦ h) (fun _ _ _ h ↦ h) none rfl
  have hfound : found = true := hfound.mpr ⟨info, by simp, rfl⟩
  rw [hrun, hfound, hcontext]

theorem probe_inspect (h : readers.readU32 (tokenAt 0 cursor) = some pid) :
    manageInspect (probeOps pid) readers cursor none = .ok (.ok, none) := by
  rw [tokenAt] at h
  simp only [manageInspect, h]
  rw [console_bind, probe_detail, ok_bind]
  rfl

theorem probe_wake (h : readers.readU32 (tokenAt 0 cursor) = some pid) :
    manageWake (probeOps pid) readers cursor none = .ok (.ok, none) := by
  rw [tokenAt] at h
  simp only [manageWake, h, probeOps]
  rfl

theorem probe_send (h : readers.readU32 (tokenAt 0 cursor) = some pid) :
    manageMailboxSend (probeOps pid) readers cursor none = .ok (.ok, none) := by
  rw [tokenAt] at h
  simp only [manageMailboxSend, h, probeOps]
  rfl

/-- The exit code that `kill` is called with. -/
def exitCodeOf (readers : TokenReaders) (exitToken : List UInt8) : Except Undefined (Option Int) :=
  if exitToken = [] then .ok (some (-1)) else readers.readI32 exitToken

theorem probe_kill {value : UInt32} (h : readers.readU32 (tokenAt 0 cursor) = some value) :
    manageKill (probeOps pid) readers cursor none =
      (exitCodeOf readers (tokenAt 1 cursor)).map
        fun exitCode ↦ (if exitCode.isSome then .ok else .badArgument, exitCode) := by
  simp only [tokenAt] at h ⊢
  have hexit : (if tokenIsEmpty (nextToken (nextToken cursor).2).1 = true then .ok (some (-1))
      else readers.readI32 (nextToken (nextToken cursor).2).1)
      = exitCodeOf readers (nextToken (nextToken cursor).2).1 := by
    simp [exitCodeOf, tokenIsEmpty]
  simp only [manageKill, h, probeOps, hexit]
  cases exitCodeOf readers (nextToken (nextToken cursor).2).1 with
  | error e => rfl
  | ok exitCode =>
    cases exitCode with
    | none => rfl
    | some z => rfl

/-- The state after the probe tells the exit codes apart. -/
theorem probe_kill_inj {other : TokenReaders} {value value' : UInt32}
    (h : readers.readU32 (tokenAt 0 cursor) = some value)
    (h' : other.readU32 (tokenAt 0 cursor) = some value')
    (hsame : manageKill (probeOps pid) readers cursor = manageKill (probeOps pid) other cursor) :
    exitCodeOf readers (tokenAt 1 cursor) = exitCodeOf other (tokenAt 1 cursor) := by
  have hstate := congrFun hsame none
  rw [probe_kill h, probe_kill h'] at hstate
  generalize exitCodeOf readers (tokenAt 1 cursor) = x at hstate ⊢
  generalize exitCodeOf other (tokenAt 1 cursor) = y at hstate ⊢
  cases x with
  | error e =>
    cases y with
    | error e' => rw [Except.error.inj hstate]
    | ok z => simp [Except.map] at hstate
  | ok z =>
    cases y with
    | error e => simp [Except.map] at hstate
    | ok z' => rw [(Prod.mk.inj (Except.ok.inj hstate)).2]

end Probe

/-- An exit code is read if there is none, or a number, or one that wraps. -/
theorem exitCodeOf_ne_none {token : List UInt8}
    (h : token = [] ∨ WrapsI32 token ∨ ∃ z, DenotesSigned token z ∧ IsInt32 z) :
    exitCodeOf tokenReaders token ≠ .ok none := by
  intro hrefused
  by_cases hnil : token = []
  · simp [exitCodeOf, hnil] at hrefused
  · rw [exitCodeOf, if_neg hnil] at hrefused
    by_cases hwraps : WrapsI32 token
    · exact hwraps.parse_ne hrefused
    · obtain ⟨z, hz⟩ := (h.resolve_left hnil).resolve_left hwraps
      obtain ⟨result, htyped, hresult⟩ := typedReaders_readI32 token
      have hread := (parseI32Token_eq_typed_iff.mpr hwraps).symm.trans hrefused
      rw [htyped, (hresult z).mpr hz] at hread
      simp at hread

theorem manageKill_differ {cursor : List UInt8}
    (h : MisreadsKill (tokenAt 0 cursor) (tokenAt 1 cursor)) (pid : UInt32) :
    manageKill (probeOps pid) tokenReaders cursor
      ≠ manageKill (probeOps pid) typedReaders cursor := by
  intro hsame
  rcases h with ⟨hpid, hexit⟩ | ⟨⟨n, hn, hsmall⟩, hexit⟩
  · -- a call is made for a number that is refused
    obtain ⟨value, hvalue⟩ := hpid.parse
    have hstate := congrFun hsame none
    have hprobe : manageKill (probeOps pid) tokenReaders cursor none = _ := probe_kill hvalue
    rw [hprobe, manageKill_refused (.inl (typedReaders_readU32_eq_none hpid)),
      console_pure] at hstate
    refine exitCodeOf_ne_none hexit ?_
    generalize exitCodeOf tokenReaders (tokenAt 1 cursor) = x at hstate ⊢
    cases x with
    | error e => simp [Except.map] at hstate
    | ok z => rw [(Prod.mk.inj (Except.ok.inj hstate)).2]
  · -- the call is made with another exit code
    have hreads : ¬WrapsU32 (tokenAt 0 cursor) := by
      rintro ⟨m, hm, hlarge⟩
      have := hm.unique hn
      omega
    have htyped : typedReaders.readU32 (tokenAt 0 cursor) = some (UInt32.ofNat n) := by
      rw [typedReaders_readU32, toNat_ofNat_mod, Nat.mod_eq_of_lt hsmall]
      exact hn
    have hcodes := probe_kill_inj ((parseU32Token_eq_typed hreads).trans htyped) htyped hsame
    have hnil : tokenAt 1 cursor ≠ [] := by
      intro hnil
      rw [hnil] at hexit
      exact not_wrapsI32_nil hexit
    rw [exitCodeOf, if_neg hnil, exitCodeOf, if_neg hnil] at hcodes
    exact parseI32Token_eq_typed_iff.mp hcodes hexit

/-- A misread command is executed differently for some callbacks. -/
theorem manageExecute_differ {command : List UInt8} (h : Misreads command) :
    ∃ pid, manageExecute (probeOps pid) tokenReaders command
      ≠ manageExecute (probeOps pid) typedReaders command := by
  rcases h with ⟨hinspect | hwake, hwraps⟩ | ⟨hkill, hmisreads⟩ | ⟨hmailbox, hsend, hwraps⟩
  · obtain ⟨value, hvalue⟩ := hwraps.parse
    refine ⟨value, fun hsame ↦ ?_⟩
    rw [manageExecute_inspect hinspect, manageExecute_inspect hinspect] at hsame
    have hstate := congrFun hsame none
    rw [probe_inspect hvalue, manageInspect_refused (typedReaders_readU32_eq_none hwraps),
      console_pure] at hstate
    simp at hstate
  · obtain ⟨value, hvalue⟩ := hwraps.parse
    refine ⟨value, fun hsame ↦ ?_⟩
    rw [manageExecute_wake hwake, manageExecute_wake hwake] at hsame
    have hstate := congrFun hsame none
    rw [probe_wake hvalue, manageWake_refused (typedReaders_readU32_eq_none hwraps),
      console_pure] at hstate
    simp at hstate
  · refine ⟨0, ?_⟩
    rw [manageExecute_kill hkill, manageExecute_kill hkill]
    exact manageKill_differ hmisreads 0
  · obtain ⟨value, hvalue⟩ := hwraps.parse
    refine ⟨value, fun hsame ↦ ?_⟩
    rw [manageExecute_mailbox hmailbox, manageExecute_mailbox hmailbox, manageMailbox_send hsend,
      manageMailbox_send hsend] at hsame
    have hstate := congrFun hsame none
    rw [probe_send hvalue, manageMailboxSend_refused (typedReaders_readU32_eq_none hwraps),
      console_pure] at hstate
    simp at hstate

/-- Unsigned and signed tokens are read exactly, and a command acts on the numbers that were typed,
but for the numbers that wrap. -/
theorem numericTokens_exact_iff (token command : List UInt8) :
    (ReadsU32 token ↔ ¬WrapsU32 token) ∧ (ReadsI32 token ↔ ¬WrapsI32 token) ∧
    ((∀ (γ : Type) (ops : RuntimeManageOps γ),
      runtimeManageExecute (some command) (some ops) = manageExecute ops typedReaders command) ↔
        ¬Misreads command) := by
  refine ⟨readsU32_iff, readsI32_iff, ?_, ?_⟩
  · intro h hmisreads
    obtain ⟨pid, hdiffer⟩ := manageExecute_differ hmisreads
    exact hdiffer (h _ (probeOps pid))
  · exact fun h γ ops ↦ manageExecute_agree ops h

/-- `4294967297` is read as 1. -/
theorem numericTokens_wrap : ¬((∀ token, ReadsU32 token) ∧ (∀ token, ReadsI32 token) ∧
    ∀ (command : List UInt8) (γ : Type) (ops : RuntimeManageOps γ),
      runtimeManageExecute (some command) (some ops)
        = manageExecute ops typedReaders command) := by
  rintro ⟨h, -⟩
  have hdigits : HasDigits 10 [52, 50, 57, 52, 57, 54, 55, 50, 57, 55]
      [4, 2, 9, 4, 9, 6, 7, 2, 9, 7] := by
    simp [HasDigits, asciiDigit]
  have hnumber : Denotes [52, 50, 57, 52, 57, 54, 55, 50, 57, 55] 4294967297 :=
    .inl ⟨by simp, _, hdigits, by norm_num [Nat.ofDigits]⟩
  have hparse : parseU32Token [52, 50, 57, 52, 57, 54, 55, 50, 57, 55] = some 1 :=
    parseU32Token_eq_some.mpr ⟨4294967297, hnumber, rfl⟩
  have hone := hnumber.unique ((h _ 1).mp hparse)
  exact absurd hone (by decide)

end TensorOS
