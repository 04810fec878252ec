import TensorOS.Lib.Pieces
import TensorOS.Manage.Execute

/-!
# The line editor of the console

The console collects characters in a buffer of 64 bytes until a line is complete. Backspace and
delete erase, other control characters are dropped, and a terminator hands the text to
`runtime_manage_execute`. `pushChar_edit` and `pushChar_terminator` say what one character does to a
text that fits; a run over a stream hands over the edited texts of the lines, in order
(`runLine_exact`).

A printable character that does not fit resets the line, and nothing remembers that the rest of the
line belongs to it: the rest is collected, edited and executed as a line of its own
(`executedFrom`, `runLine_executed`).
-/

namespace TensorOS

/-! ## The source -/

/-- `struct runtime_manage_line_state`. The length leaves room for the terminator. -/
structure RuntimeManageLineState where
  buffer : TextBuffer 64
  length : ℕ
  length_lt : length < 64

/-- `runtime_manage_line_init`. -/
def runtimeManageLineInit (state : RuntimeManageLineState) : RuntimeManageLineState where
  buffer := state.buffer.set 0 0
  length := 0
  length_lt := by decide

section Push

variable {γ : Type}

/-- `runtime_manage_line_push_char`, with the call of `runtime_manage_execute` as a parameter. The
result is `none` where the source returns 0, and the status where it returns 1. -/
def linePushChar (execute : List UInt8 → Console γ RuntimeManageStatus)
    (state : RuntimeManageLineState) (ch : UInt8) :
    Console γ (RuntimeManageLineState × Option RuntimeManageStatus) :=
  if ch = 8 ∨ ch = 127 then
    if h : state.length ≠ 0 then
      pure (⟨state.buffer.set (state.length - 1) 0 (by have := state.length_lt; omega),
        state.length - 1, by have := state.length_lt; omega⟩, none)
    else pure (state, none)
  else if ch = 13 ∨ ch = 10 then
    if state.length = 0 then pure (state, some .empty)
    else do
      let buffer := state.buffer.set state.length 0 state.length_lt
      let status ← execute (cstr buffer.toList)
      pure (runtimeManageLineInit ⟨buffer, state.length, state.length_lt⟩, some status)
  else if ch < 32 ∨ 126 < ch then pure (state, none)
  else if h : 63 ≤ state.length then pure (runtimeManageLineInit state, some .badArgument)
  else
    pure (⟨(state.buffer.set state.length ch state.length_lt).set (state.length + 1) 0 (by omega),
      state.length + 1, by omega⟩, none)

/-- `runtime_manage_line_push_char`. -/
def runtimeManageLinePushChar (ops : Option (RuntimeManageOps γ)) :
    RuntimeManageLineState → UInt8 →
      Console γ (RuntimeManageLineState × Option RuntimeManageStatus) :=
  linePushChar fun command ↦ runtimeManageExecute (some command) ops

/-- The characters of a stream, one after the other. -/
def runLine (push : RuntimeManageLineState → UInt8 →
      Console γ (RuntimeManageLineState × Option RuntimeManageStatus)) :
    RuntimeManageLineState → List UInt8 → Console γ RuntimeManageLineState
  | state, [] => pure state
  | state, ch :: stream => do
    let (state, _) ← push state ch
    runLine push state stream

end Push

/-! ## Lines -/

/-- A character that ends a line. -/
def isTerminator (ch : UInt8) : Bool := ch = 13 || ch = 10

/-- A character that is inserted. -/
def IsPrintable (ch : UInt8) : Prop := 32 ≤ ch ∧ ch ≤ 126

instance IsPrintable.decidable (ch : UInt8) : Decidable (IsPrintable ch) :=
  inferInstanceAs (Decidable (_ ∧ _))

/-- What a character inside a line does to the text, in a line without a limit. -/
def editChar (text : List UInt8) (ch : UInt8) : List UInt8 :=
  if ch = 8 ∨ ch = 127 then text.dropLast else if IsPrintable ch then text ++ [ch] else text

/-- **The edited text of a line.** -/
def editedText (line : List UInt8) : List UInt8 := line.foldl editChar []

/-- The lines of a stream that are complete. -/
def completeLines (stream : List UInt8) : List (List UInt8) :=
  (stream.splitOnP isTerminator).dropLast

/-- The line that is not complete yet. -/
def currentLine (stream : List UInt8) : List UInt8 :=
  (stream.splitOnP isTerminator).getLastD []

/-- **The commands of a stream**: the edited texts that are not empty and that fit the buffer. -/
def lineCommands (stream : List UInt8) : List (List UInt8) :=
  ((completeLines stream).map editedText).filter fun text ↦ text ≠ [] ∧ text.length < 64

/-- A printable character only arrives while there is room for it. -/
def LinesFit (stream : List UInt8) : Prop :=
  ∀ before ch, before ++ [ch] <+: stream → IsPrintable ch →
    (editedText (currentLine before)).length < 63

/-! ## The text in the buffer -/

section Holds

variable {γ : Type} {state : RuntimeManageLineState} {text : List UInt8} {ch : UInt8}

/-- The state holds a text without zero bytes. -/
structure LineHolds (state : RuntimeManageLineState) (text : List UInt8) : Prop where
  length_eq : state.length = text.length
  holds : state.buffer.HoldsText text
  nonzero : ∀ c ∈ text, c ≠ 0

theorem lineHolds_init (state : RuntimeManageLineState) :
    LineHolds (runtimeManageLineInit state) [] := by
  obtain ⟨rest, hsplit⟩ : ∃ rest, state.buffer.toList = [] ++ rest := ⟨_, rfl⟩
  obtain ⟨old, rest, rfl⟩ := TextBuffer.exists_cons_of_lt hsplit (by decide)
  exact ⟨rfl, ⟨rest, TextBuffer.toList_set_end hsplit 0 (by decide)⟩, by simp⟩

theorem pushChar_erase (execute : List UInt8 → Console γ RuntimeManageStatus)
    (h : LineHolds state text) (hch : ch = 8 ∨ ch = 127) : ∃ after,
      linePushChar execute state ch = pure (after, none) ∧ LineHolds after text.dropLast := by
  rw [linePushChar, if_pos hch]
  cases text using List.reverseRecOn with
  | nil =>
    refine ⟨state, ?_, h⟩
    rw [dif_neg (by simp [h.length_eq])]
  | append_singleton text c =>
    have hlength : state.length = text.length + 1 := by
      rw [h.length_eq, List.length_append, List.length_singleton]
    have hlt := state.length_lt
    obtain ⟨rest, hrest⟩ := h.holds
    have hsplit : state.buffer.toList = text ++ c :: 0 :: rest := by simp [hrest]
    refine ⟨_, dif_pos (by omega), ?_, ?_, ?_⟩
    · rw [List.dropLast_concat]
      dsimp only
      omega
    · have hindex : state.length - 1 = text.length := by omega
      rw [List.dropLast_concat]
      refine ⟨0 :: rest, ?_⟩
      simp only [hindex]
      exact TextBuffer.toList_set_end hsplit 0 (by omega)
    · rw [List.dropLast_concat]
      exact fun a ha ↦ h.nonzero a (List.mem_append_left _ ha)

/-- A printable character takes the last branches of the source. -/
theorem IsPrintable.branches (h : IsPrintable ch) :
    ¬(ch = 8 ∨ ch = 127) ∧ ¬(ch = 13 ∨ ch = 10) ∧ ¬(ch < 32 ∨ 126 < ch) := by
  obtain ⟨hlow, hhigh⟩ := h
  refine ⟨?_, ?_, not_or.mpr ⟨UInt8.not_lt.mpr hlow, UInt8.not_lt.mpr hhigh⟩⟩
  · rintro (rfl | rfl)
    · exact absurd hlow (by decide)
    · exact absurd hhigh (by decide)
  · rintro (rfl | rfl)
    · exact absurd hlow (by decide)
    · exact absurd hlow (by decide)

theorem pushChar_insert (execute : List UInt8 → Console γ RuntimeManageStatus)
    (h : LineHolds state text) (hch : IsPrintable ch) (hroom : text.length < 63) :
    ∃ after, linePushChar execute state ch = pure (after, none) ∧
      LineHolds after (text ++ [ch]) := by
  have hlength := h.length_eq
  obtain ⟨herase, hterminator, hdropped⟩ := hch.branches
  obtain ⟨rest, hrest⟩ := h.holds
  have hend : state.buffer.toList = (text ++ [0]) ++ rest := by simp [hrest]
  obtain ⟨old, rest, rfl⟩ := TextBuffer.exists_cons_of_lt hend (by simpa using by omega)
  have hfirst := TextBuffer.toList_set_end hrest ch (by omega)
  have hsplit : (state.buffer.set text.length ch (by omega)).toList
      = (text ++ [ch]) ++ old :: rest := by simp [hfirst]
  have hsecond := TextBuffer.toList_set_end hsplit 0 (by simpa using by omega)
  rw [linePushChar, if_neg herase, if_neg hterminator, if_neg hdropped]
  refine ⟨_, dif_neg (by omega), ?_, ?_, ?_⟩
  · simp [hlength]
  · refine ⟨rest, ?_⟩
    simp only [hlength]
    simpa using hsecond
  · intro c hc
    rcases List.mem_append.mp hc with hc | hc
    · exact h.nonzero c hc
    · rw [List.mem_singleton.mp hc]
      rintro rfl
      exact absurd hch.1 (by decide)

/-- **A character inside a line** that fits edits the text. -/
theorem pushChar_edit (execute : List UInt8 → Console γ RuntimeManageStatus)
    (h : LineHolds state text) (hch : isTerminator ch = false)
    (hroom : IsPrintable ch → text.length < 63) :
    ∃ after, linePushChar execute state ch = pure (after, none) ∧
      LineHolds after (editChar text ch) := by
  rw [editChar]
  by_cases herase : ch = 8 ∨ ch = 127
  · rw [if_pos herase]
    exact pushChar_erase execute h herase
  rw [if_neg herase]
  by_cases hprintable : IsPrintable ch
  · rw [if_pos hprintable]
    exact pushChar_insert execute h hprintable (hroom hprintable)
  · -- another control character
    have hterminator : ¬(ch = 13 ∨ ch = 10) := by simpa [isTerminator] using hch
    have hdropped : ch < 32 ∨ 126 < ch := by
      rw [IsPrintable, not_and_or, UInt8.not_le, UInt8.not_le] at hprintable
      exact hprintable
    refine ⟨state, ?_, by rwa [if_neg hprintable]⟩
    rw [linePushChar, if_neg herase, if_neg hterminator, if_pos hdropped]

/-- **A terminator** hands over the text, unless it is empty. -/
theorem pushChar_terminator (execute : List UInt8 → Console γ RuntimeManageStatus)
    (h : LineHolds state text) (hch : isTerminator ch = true) :
    ∃ after, LineHolds after [] ∧ linePushChar execute state ch =
      if text = [] then pure (after, some .empty)
      else execute text >>= fun status ↦ pure (after, some status) := by
  have hterminator : ch = 13 ∨ ch = 10 := by simpa [isTerminator] using hch
  have herase : ¬(ch = 8 ∨ ch = 127) := by
    rcases hterminator with rfl | rfl
    · decide
    · decide
  rw [linePushChar, if_neg herase, if_pos hterminator]
  by_cases hnil : text = []
  · subst hnil
    have hzero : state.length = 0 := h.length_eq
    exact ⟨state, h, by rw [if_pos hzero, if_pos rfl]⟩
  · have hlength := h.length_eq
    have hpos := List.length_pos_iff.mpr hnil
    obtain ⟨rest, hrest⟩ := h.holds
    have hset : (state.buffer.set state.length 0 state.length_lt).toList = text ++ 0 :: rest := by
      simp only [hlength]
      exact TextBuffer.toList_set_end hrest 0 h.holds.length_lt
    let terminated : RuntimeManageLineState :=
      ⟨state.buffer.set state.length 0 state.length_lt, state.length, state.length_lt⟩
    refine ⟨runtimeManageLineInit terminated, lineHolds_init terminated, ?_⟩
    rw [if_neg (by omega), if_neg hnil]
    simp only [hset, cstr_append_zero h.nonzero]
    rfl

end Holds

/-! ## Lines, read from the left -/

/-- What a character does to the text of the current line. -/
def nextText (text : List UInt8) (ch : UInt8) : List UInt8 :=
  if isTerminator ch then [] else editChar text ch

/-- The commands of a stream that goes on behind a text. -/
def commandsFrom : List UInt8 → List UInt8 → List (List UInt8)
  | _, [] => []
  | text, ch :: stream =>
    if isTerminator ch then
      if text = [] then commandsFrom [] stream else text :: commandsFrom [] stream
    else commandsFrom (editChar text ch) stream

/-- The commands that are executed behind a text, in a stream with lines of any length: a printable
character for which there is no room empties the text. -/
def executedFrom : List UInt8 → List UInt8 → List (List UInt8)
  | _, [] => []
  | text, ch :: stream =>
    if isTerminator ch then
      if text = [] then executedFrom [] stream else text :: executedFrom [] stream
    else if IsPrintable ch ∧ text.length = 63 then executedFrom [] stream
    else executedFrom (editChar text ch) stream

/-- Behind a text, a printable character only arrives while there is room for it. -/
def FitsFrom (text stream : List UInt8) : Prop :=
  ∀ before ch, before ++ [ch] <+: stream → IsPrintable ch →
    (before.foldl nextText text).length < 63

section Lines

variable {text stream line : List UInt8} {lines : List (List UInt8)} {ch : UInt8}

theorem fitsFrom_cons (h : FitsFrom text (ch :: stream)) :
    (IsPrintable ch → text.length < 63) ∧ FitsFrom (nextText text ch) stream := by
  constructor
  · exact h [] ch ⟨stream, rfl⟩
  · rintro before c ⟨rest, hrest⟩ hc
    exact h (ch :: before) c ⟨rest, by rw [List.cons_append, List.cons_append, hrest]⟩ hc

theorem foldl_nextText (h : stream.splitOnP isTerminator = line :: lines) (text : List UInt8) :
    stream.foldl nextText text =
      if lines = [] then line.foldl editChar text else editedText (lines.getLastD []) := by
  induction stream generalizing text line lines with
  | nil =>
    rw [List.splitOnP_nil] at h
    obtain ⟨rfl, rfl⟩ := List.cons.inj h
    rfl
  | cons ch stream ih =>
    obtain ⟨first, others, hsplit, ⟨hch, rfl, rfl⟩ | ⟨hch, rfl, rfl⟩⟩ := exists_of_splitOnP_cons h
    · rw [List.foldl_cons, nextText, ih hsplit, if_pos hch, if_neg (List.cons_ne_nil _ _)]
      cases others with
      | nil => rfl
      | cons second others => rfl
    · rw [List.foldl_cons, nextText, ih hsplit, if_neg hch, List.foldl_cons]

theorem editedText_currentLine (stream : List UInt8) :
    editedText (currentLine stream) = stream.foldl nextText [] := by
  obtain ⟨line, lines, hsplit⟩ :=
    List.exists_cons_of_ne_nil (List.splitOnP_ne_nil isTerminator stream)
  rw [foldl_nextText hsplit, currentLine, hsplit]
  cases lines with
  | nil => rfl
  | cons second lines => rfl

theorem executedFrom_eq (h : FitsFrom text stream) :
    executedFrom text stream = commandsFrom text stream := by
  induction stream generalizing text with
  | nil => rfl
  | cons ch stream ih =>
    obtain ⟨hroom, hrest⟩ := fitsFrom_cons h
    rw [nextText] at hrest
    rw [executedFrom, commandsFrom]
    by_cases hch : isTerminator ch = true
    · rw [if_pos hch] at hrest
      rw [if_pos hch, if_pos hch, ih hrest]
    · rw [if_neg hch] at hrest
      have hfits : ¬(IsPrintable ch ∧ text.length = 63) := by
        rintro ⟨hprintable, hfull⟩
        have hlt := hroom hprintable
        omega
      rw [if_neg hch, if_neg hch, if_neg hfits, ih hrest]

theorem LinesFit.fitsFrom (h : LinesFit stream) : FitsFrom [] stream := by
  intro before ch hprefix hch
  rw [← editedText_currentLine]
  exact h before ch hprefix hch

/-- The commands behind a text, by the pieces of the stream. -/
theorem commandsFrom_eq (h : stream.splitOnP isTerminator = line :: lines) (text : List UInt8) :
    commandsFrom text stream = (if lines = [] then [] else
      line.foldl editChar text :: lines.dropLast.map editedText).filter (· ≠ []) := by
  induction stream generalizing text line lines with
  | nil =>
    rw [List.splitOnP_nil] at h
    obtain ⟨rfl, rfl⟩ := List.cons.inj h
    rfl
  | cons ch stream ih =>
    obtain ⟨first, others, hsplit, ⟨hch, rfl, rfl⟩ | ⟨hch, rfl, rfl⟩⟩ := exists_of_splitOnP_cons h
    · -- the line ends here, with the text edited so far
      rw [commandsFrom, if_pos hch, if_neg (List.cons_ne_nil _ _), ih hsplit, List.foldl_nil,
        List.filter_cons]
      have hlines : (first :: others).dropLast.map editedText = if others = [] then []
          else first.foldl editChar [] :: others.dropLast.map editedText := by
        cases others with
        | nil => rfl
        | cons second others => rfl
      rw [hlines]
      by_cases hnil : text = []
      · rw [if_pos hnil]
        simp [hnil]
      · rw [if_neg hnil]
        simp [hnil]
    · rw [commandsFrom, if_neg hch, ih hsplit, List.foldl_cons]

theorem commandsFrom_nil (stream : List UInt8) :
    commandsFrom [] stream = ((completeLines stream).map editedText).filter (· ≠ []) := by
  obtain ⟨line, lines, hsplit⟩ :=
    List.exists_cons_of_ne_nil (List.splitOnP_ne_nil isTerminator stream)
  rw [commandsFrom_eq hsplit, completeLines, hsplit]
  cases lines with
  | nil => rfl
  | cons second lines => rfl

theorem length_editChar_lt (htext : text.length < 64) (h : IsPrintable ch → text.length < 63) :
    (editChar text ch).length < 64 := by
  rw [editChar]
  split
  · rw [List.length_dropLast]
    omega
  split
  · rename_i hch
    rw [List.length_append, List.length_singleton]
    have := h hch
    omega
  · exact htext

/-- In a stream that fits no command is longer than the buffer. -/
theorem length_lt_of_mem_commandsFrom (htext : text.length < 64) (h : FitsFrom text stream) :
    ∀ command ∈ commandsFrom text stream, command.length < 64 := by
  induction stream generalizing text with
  | nil => simp [commandsFrom]
  | cons ch stream ih =>
    obtain ⟨hroom, hrest⟩ := fitsFrom_cons h
    rw [nextText] at hrest
    rw [commandsFrom]
    by_cases hch : isTerminator ch = true
    · rw [if_pos hch] at hrest ⊢
      have hothers := ih (by simp) hrest
      split
      · exact hothers
      · exact List.forall_mem_cons.mpr ⟨htext, hothers⟩
    · rw [if_neg hch] at hrest ⊢
      exact ih (length_editChar_lt htext hroom) hrest

theorem length_foldl_nextText_le (text stream : List UInt8) :
    (stream.foldl nextText text).length ≤ text.length + stream.length := by
  induction stream generalizing text with
  | nil => simp
  | cons ch stream ih =>
    have hnext : (nextText text ch).length ≤ text.length + 1 := by
      rw [nextText, editChar]
      split
      · simp
      split
      · rw [List.length_dropLast]
        omega
      split
      · simp
      · simp
    rw [List.foldl_cons, List.length_cons]
    exact (ih _).trans (by omega)

/-- A stream that is short as a whole fits. -/
theorem linesFit_of_length_le (h : stream.length ≤ 63) : LinesFit stream := by
  intro before ch hprefix _
  have hlength := hprefix.length_le
  have hle := length_foldl_nextText_le [] before
  rw [editedText_currentLine]
  rw [List.length_append, List.length_singleton] at hlength
  rw [List.length_nil] at hle
  omega

theorem lineCommands_eq (h : LinesFit stream) : lineCommands stream = commandsFrom [] stream := by
  have hshort := length_lt_of_mem_commandsFrom (by simp) h.fitsFrom
  rw [commandsFrom_nil] at hshort ⊢
  rw [lineCommands]
  refine List.filter_congr fun text htext ↦ ?_
  by_cases hnil : text = []
  · simp [hnil]
  · have := hshort text (List.mem_filter.mpr ⟨htext, by simpa using hnil⟩)
    simp [hnil, this]

end Lines

/-! ## Runs -/

section Run

variable {γ : Type} {state : RuntimeManageLineState} {text stream : List UInt8}

/-- Executing commands, for what they do to the state of the callbacks. -/
def executeAll (execute : List UInt8 → Console γ RuntimeManageStatus) (context : γ)
    (commands : List (List UInt8)) : Except Undefined γ :=
  commands.foldlM (fun context command ↦ (execute command context).map Prod.snd) context

/-- **Overflow.** One character too many empties the line. -/
theorem pushChar_overflow (execute : List UInt8 → Console γ RuntimeManageStatus) {ch : UInt8}
    (h : LineHolds state text) (hch : IsPrintable ch) (hfull : text.length = 63) :
    linePushChar execute state ch = pure (runtimeManageLineInit state, some .badArgument) := by
  obtain ⟨herase, hterminator, hdropped⟩ := hch.branches
  have hlength := h.length_eq
  rw [linePushChar, if_neg herase, if_neg hterminator, if_neg hdropped, dif_pos (by omega)]

/-- **A run** executes these commands, in order, and nothing else, whatever the stream is. -/
theorem runLine_executed (execute : List UInt8 → Console γ RuntimeManageStatus)
    (h : LineHolds state text) (context : γ) :
    (runLine (linePushChar execute) state stream context).map Prod.snd
      = executeAll execute context (executedFrom text stream) := by
  induction stream generalizing state text context with
  | nil => rfl
  | cons ch stream ih =>
    rw [runLine, executedFrom]
    by_cases hch : isTerminator ch = true
    · obtain ⟨after, hafter, hpush⟩ := pushChar_terminator execute h hch
      rw [hpush, if_pos hch]
      by_cases hnil : text = []
      · rw [if_pos hnil, if_pos hnil]
        exact ih hafter context
      · rw [if_neg hnil, if_neg hnil, executeAll, List.foldlM_cons, bind_assoc, console_bind]
        cases execute text context with
        | error e => rfl
        | ok result => exact ih hafter result.2
    rw [if_neg hch]
    by_cases hfull : IsPrintable ch ∧ text.length = 63
    · rw [pushChar_overflow execute h hfull.1 hfull.2, if_pos hfull]
      exact ih (lineHolds_init state) context
    · have hlength := h.length_eq
      have hlt := state.length_lt
      have hroom : IsPrintable ch → text.length < 63 := fun hp ↦ by
        by_contra hlong
        exact hfull ⟨hp, by omega⟩
      obtain ⟨after, hpush, hafter⟩ := pushChar_edit execute h (Bool.eq_false_iff.mpr hch) hroom
      rw [hpush, if_neg hfull]
      exact ih hafter context

/-- What the console is supposed to do with a stream, whatever executes the commands. -/
def LineExact (stream : List UInt8) : Prop :=
  ∀ (γ : Type) (execute : List UInt8 → Console γ RuntimeManageStatus)
    (state : RuntimeManageLineState) (context : γ),
    (runLine (linePushChar execute) (runtimeManageLineInit state) stream context).map Prod.snd
      = executeAll execute context (lineCommands stream)

/-- A stream whose lines fit is executed line by line. -/
theorem runLine_exact (stream : List UInt8) (h : LinesFit stream) : LineExact stream := by
  intro γ execute state context
  rw [lineCommands_eq h, ← executedFrom_eq h.fitsFrom]
  exact runLine_executed execute (lineHolds_init state) context

/-- A line with a slip that is erased, an empty line, and a second command. -/
theorem runLine_exact_two :
    LineExact (asciiBytes "px" ++ [8] ++ asciiBytes "s" ++ [13, 10] ++ asciiBytes "kill 3" ++
        [13]) ∧
      lineCommands (asciiBytes "px" ++ [8] ++ asciiBytes "s" ++ [13, 10] ++ asciiBytes "kill 3" ++
        [13]) = [asciiBytes "ps", asciiBytes "kill 3"] :=
  ⟨runLine_exact _ (linesFit_of_length_le (by decide +kernel)), by decide +kernel⟩

/-- Behind 64 characters that do not fit, the rest of the line is executed: it says `kill 3`. -/
theorem runLine_overflow : ¬∀ stream, LineExact stream := by
  intro h
  let execute : List UInt8 → Console (List (List UInt8)) RuntimeManageStatus :=
    fun command executed ↦ .ok (.ok, executed ++ [command])
  let state : RuntimeManageLineState := ⟨Vector.replicate 64 0, 0, by decide⟩
  let stream := List.replicate 64 97 ++ asciiBytes "kill 3" ++ [13]
  have hrun := h stream _ execute state []
  have hcommands : lineCommands stream = [] := by
    decide +kernel
  have hexecuted : executedFrom [] stream = [asciiBytes "kill 3"] := by
    decide +kernel
  rw [runLine_executed execute (lineHolds_init state), hexecuted, hcommands] at hrun
  exact List.cons_ne_nil _ _ (Except.ok.inj hrun)

end Run

end TensorOS
