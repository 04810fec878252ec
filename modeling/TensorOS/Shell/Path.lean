import Mathlib
import TensorOS.Lib.Pieces
import TensorOS.Lib.TextBuffer
import TensorOS.Fs.Basic

/-!
# The command search of the shell

A command with a slash in it is a path of its own; any other command is looked up in the directories
of a search path, in order. Both validators are scanners over one string, and the one of the search
path looks one character ahead. `validateSearchPath_iff` says which texts it accepts, as a grammar,
and `runtimeShellPathResolve_search` says what the lookup answers on an accepted text.

Characters are unsigned bytes, as `char` is on the targets. A pointer argument that may be null is
an `Option`, the callback `exists` is a predicate of the text it is handed, and a loop that walks a
string is driven by a counter as in the file system's walkers.
-/

namespace TensorOS

/-- The character `:`. -/
def colon : UInt8 := 58

/-- The character that separates words. -/
def space : UInt8 := 32

/-! ## Validators -/

/-- `runtime_shell_path_has_slash`. -/
def runtimeShellPathHasSlash : Option CString → Bool
  | none => false
  | some command => command.chars.any (· = slash)

/-- `runtime_shell_path_validate_command_name`. -/
def runtimeShellPathValidateCommandName : Option CString → Bool
  | none => false
  | some command =>
    if command.charAt 0 = 0 then false
    else command.chars.all fun ch ↦ !(ch = slash || ch = colon || ch ≤ space)

/-- The loop of `runtime_shell_path_validate_search_path`, on the characters not yet read. The
terminator is what stands behind the last of them. -/
def scanSearchPath : List UInt8 → ℕ → Bool
  | [], segmentLength => segmentLength ≠ 0
  | ch :: rest, segmentLength =>
    if ch = colon then
      if segmentLength = 0 ∨ rest.headD 0 ≠ slash then false
      else scanSearchPath rest 0
    else if ch ≤ space ∨ ch = slash ∧ rest.headD 0 = slash then false
    else scanSearchPath rest (segmentLength + 1)

/-- `runtime_shell_path_validate_search_path`. -/
def runtimeShellPathValidateSearchPath : Option CString → Bool
  | none => false
  | some pathList =>
    if pathList.charAt 0 = 0 then false
    else if pathList.charAt 0 ≠ slash then false
    else scanSearchPath pathList.chars 0

/-! ## Bounded appends -/

section Append

variable {capacity : ℕ}

/-- `runtime_shell_path_append`: whether the character fits, the buffer and the new length. -/
def runtimeShellPathAppend (buffer : TextBuffer capacity) (length : ℕ) (ch : UInt8) :
    Except Fault (Bool × TextBuffer capacity × ℕ) :=
  if capacity ≤ length + 1 then .ok (false, buffer, length)
  else do
    let buffer ← buffer.store length ch
    let buffer ← buffer.store (length + 1) 0
    .ok (true, buffer, length + 1)

/-- A loop that appends characters until one of them does not fit. -/
def appendChars (buffer : TextBuffer capacity) (length : ℕ) :
    List UInt8 → Except Fault (Bool × TextBuffer capacity × ℕ)
  | [] => .ok (true, buffer, length)
  | ch :: chars => do
    let (fits, buffer, length) ← runtimeShellPathAppend buffer length ch
    if fits then appendChars buffer length chars else .ok (false, buffer, length)

/-- The slash between a segment and the command, unless there is one. An empty segment has no last
character and gets a slash too. -/
def appendSlash (buffer : TextBuffer capacity) (length : ℕ) :
    Except Fault (Bool × TextBuffer capacity × ℕ) := do
  let last ← if length = 0 then .ok 0 else buffer.load (length - 1)
  if last ≠ slash then runtimeShellPathAppend buffer length slash else .ok (true, buffer, length)

/-- The body of the search loop up to the call of `exists`. -/
def buildCandidate (buffer : TextBuffer capacity) (segment command : List UInt8) :
    Except Fault (Bool × TextBuffer capacity × ℕ) := do
  let (fits, buffer, outLength) ← appendChars buffer 0 segment
  if fits then do
    let (fits, buffer, outLength) ← appendSlash buffer outLength
    if fits then appendChars buffer outLength command else .ok (false, buffer, outLength)
  else .ok (false, buffer, outLength)

/-! ## The lookup -/

/-- The loop over the segments of the search path. -/
def searchSegments (pathExists : List UInt8 → Bool) (command : List UInt8) :
    ℕ → List UInt8 → TextBuffer capacity → Except Fault (Int × TextBuffer capacity)
  | 0, _, _ => .error .diverges
  | fuel + 1, cursor, buffer =>
    if cursor = [] then .ok (Status.enoent, buffer)
    else
      let segment := cursor.takeWhile (· ≠ colon)
      let behind := cursor.drop segment.length
      let behind := if behind.headD 0 = colon then behind.tail else behind
      if segment.length ≠ 0 then do
        let (fits, buffer, _) ← buildCandidate buffer segment command
        if !fits then .ok (Status.enospc, buffer)
        else do
          let path ← buffer.read
          if pathExists path then .ok (Status.ok, buffer)
          else do
            let buffer ← buffer.store 0 0
            searchSegments pathExists command fuel behind buffer
      else searchSegments pathExists command fuel behind buffer

/-- `runtime_shell_path_resolve` behind its check for null arguments. -/
def resolveInto (pathList : Option CString) (command : CString) (pathExists : List UInt8 → Bool)
    (buffer : TextBuffer capacity) : Except Fault (Int × TextBuffer capacity) := do
  let buffer ← buffer.store 0 0
  if runtimeShellPathHasSlash (some command) then
    if command.charAt 0 ≠ slash then .ok (Status.einval, buffer)
    else do
      let (fits, buffer, _) ← appendChars buffer 0 command.chars
      if !fits then .ok (Status.enospc, buffer)
      else do
        let path ← buffer.read
        .ok (if pathExists path then Status.ok else Status.enoent, buffer)
  else if !runtimeShellPathValidateSearchPath pathList ||
      !runtimeShellPathValidateCommandName (some command) then .ok (Status.einval, buffer)
  else
    -- a valid search path is not null
    let cursor := (pathList.map CString.chars).getD []
    searchSegments pathExists command.chars (cursor.length + 1) cursor buffer

/-- `runtime_shell_path_resolve`. -/
def runtimeShellPathResolve (pathList command : Option CString)
    (pathExists : Option (List UInt8 → Bool)) (resolvedPath : Option (TextBuffer capacity)) :
    Except Fault (Int × Option (TextBuffer capacity)) :=
  match pathExists, resolvedPath, command with
  | some pathExists, some buffer, some command =>
    if capacity = 0 then .ok (Status.einval, some buffer)
    else do
      let (status, buffer) ← resolveInto pathList command pathExists buffer
      .ok (status, some buffer)
  | _, _, _ => .ok (Status.einval, resolvedPath)

end Append

/-! ## The grammar of search paths -/

/-- A directory of the search path: absolute, printable, and with single slashes. -/
structure IsSegment (segment : List UInt8) : Prop where
  absolute : segment.head? = some slash
  printable : ∀ ch ∈ segment, space < ch ∧ ch ≠ colon
  single : segment.IsChain fun a b ↦ ¬(a = slash ∧ b = slash)

/-- Segments with a colon between any two. -/
def IsSearchPath (segments : List (List UInt8)) (chars : List UInt8) : Prop :=
  segments ≠ [] ∧ (∀ segment ∈ segments, IsSegment segment) ∧ chars = [colon].intercalate segments

/-- What is left of a segment that the scanner has begun. -/
structure IsSegmentEnd (piece : List UInt8) : Prop where
  printable : ∀ ch ∈ piece, space < ch ∧ ch ≠ colon
  single : piece.IsChain fun a b ↦ ¬(a = slash ∧ b = slash)

theorem isSegment_iff {piece : List UInt8} :
    IsSegment piece ↔ piece.head? = some slash ∧ IsSegmentEnd piece :=
  ⟨fun h ↦ ⟨h.absolute, h.printable, h.single⟩, fun h ↦ ⟨h.1, h.2.printable, h.2.single⟩⟩

theorem isSegmentEnd_nil : IsSegmentEnd [] := ⟨by simp, .nil⟩

theorem isSegmentEnd_cons {ch : UInt8} {piece : List UInt8} (hcolon : ch ≠ colon) :
    IsSegmentEnd (ch :: piece) ↔
      space < ch ∧ ¬(ch = slash ∧ piece.head? = some slash) ∧ IsSegmentEnd piece := by
  constructor
  · intro h
    refine ⟨(h.printable ch (by simp)).1, ?_, fun c hc ↦ h.printable c (by simp [hc]),
      h.single.tail⟩
    rintro ⟨rfl, hhead⟩
    obtain ⟨tail, rfl⟩ : ∃ tail, piece = slash :: tail := by
      cases piece with
      | nil => simp at hhead
      | cons b tail => exact ⟨tail, by rw [Option.some.inj hhead]⟩
    exact (List.isChain_cons_cons.mp h.single).1 ⟨rfl, rfl⟩
  · rintro ⟨hspace, hslash, hprintable, hsingle⟩
    refine ⟨?_, ?_⟩
    · intro c hc
      rcases List.mem_cons.mp hc with rfl | hc
      · exact ⟨hspace, hcolon⟩
      · exact hprintable c hc
    · cases piece with
      | nil => exact .singleton ch
      | cons b tail =>
        refine List.isChain_cons_cons.mpr ⟨?_, hsingle⟩
        rintro ⟨rfl, rfl⟩
        exact hslash ⟨rfl, rfl⟩

/-- The character after the one just read is the first of the next piece. -/
theorem headD_eq_slash_iff {rest piece : List UInt8} {pieces : List (List UInt8)}
    (h : rest.splitOn colon = piece :: pieces) :
    rest.headD 0 = slash ↔ piece.head? = some slash := by
  cases rest with
  | nil =>
    rw [List.splitOn_nil] at h
    obtain ⟨rfl, -⟩ := List.cons.inj h
    simp [slash]
  | cons c rest =>
    rw [List.splitOn_cons_eq_if_modifyHead] at h
    by_cases hc : c = colon
    · rw [if_pos (by simpa using hc)] at h
      obtain ⟨rfl, -⟩ := List.cons.inj h
      simp [hc, colon, slash]
    · rw [if_neg (by simpa using hc)] at h
      obtain ⟨first, others, hsplit⟩ := List.exists_cons_of_ne_nil (List.splitOn_ne_nil colon rest)
      rw [hsplit, List.modifyHead_cons] at h
      obtain ⟨rfl, -⟩ := List.cons.inj h
      simp

/-- **The scanner and the grammar.** In the middle of a segment of which `segmentLength` characters
are read, the rest is accepted if it ends this segment and goes on with segments. -/
theorem scanSearchPath_iff {rest piece : List UInt8} {pieces : List (List UInt8)}
    (hsplit : rest.splitOn colon = piece :: pieces) (segmentLength : ℕ) :
    scanSearchPath rest segmentLength = true ↔
      0 < segmentLength + piece.length ∧ IsSegmentEnd piece ∧ ∀ p ∈ pieces, IsSegment p := by
  induction rest generalizing piece pieces segmentLength with
  | nil =>
    rw [List.splitOn_nil] at hsplit
    obtain ⟨rfl, rfl⟩ := List.cons.inj hsplit
    simp [scanSearchPath, isSegmentEnd_nil, Nat.pos_iff_ne_zero]
  | cons ch rest ih =>
    obtain ⟨first, others, hrest, hpieces⟩ := exists_of_splitOn_cons hsplit
    have hnext := headD_eq_slash_iff hrest
    rw [scanSearchPath]
    generalize rest.headD 0 = next at hnext ⊢
    obtain ⟨hcolon, rfl, rfl⟩ | ⟨hcolon, rfl, rfl⟩ := hpieces
    · -- the segment ends here and the look-ahead sees the start of the next one
      have hfirst : IsSegment first ↔
          next = slash ∧ 0 < 0 + first.length ∧ IsSegmentEnd first := by
        rw [isSegment_iff, hnext]
        refine and_congr_right fun hhead ↦ (and_iff_right ?_).symm
        cases first with
        | nil => simp at hhead
        | cons a first => simp
      rw [if_pos hcolon, List.forall_mem_cons, hfirst]
      by_cases hstop : segmentLength = 0 ∨ next ≠ slash
      · rw [if_pos hstop]
        rcases hstop with rfl | hstop
        · simp
        · simp [hstop]
      · rw [if_neg hstop, ih hrest 0]
        push Not at hstop
        simp [isSegmentEnd_nil, Nat.pos_iff_ne_zero, hstop, and_assoc]
    · rw [if_neg hcolon, isSegmentEnd_cons hcolon, ← hnext, ← UInt8.not_le]
      by_cases hstop : ch ≤ space ∨ ch = slash ∧ next = slash
      · rw [if_pos hstop]
        rcases hstop with hstop | hstop
        · simp [hstop]
        · simp [hstop]
      · rw [if_neg hstop, ih hrest (segmentLength + 1), List.length_cons, Nat.add_right_comm,
          Nat.add_assoc]
        obtain ⟨hspace, hslash⟩ := not_or.mp hstop
        simp only [hspace, hslash, not_false_eq_true, true_and]

theorem IsSegment.colon_not_mem {segment : List UInt8} (h : IsSegment segment) :
    colon ∉ segment := fun hmem ↦ (h.printable colon hmem).2 rfl

theorem validateSearchPath_eq (pathList : CString) :
    runtimeShellPathValidateSearchPath (some pathList) = true ↔
      pathList.chars.headD 0 = slash ∧ scanSearchPath pathList.chars 0 = true := by
  have hhead : pathList.charAt 0 = pathList.chars.headD 0 := by
    rw [CString.charAt]
    cases pathList.chars <;> rfl
  rw [runtimeShellPathValidateSearchPath, hhead]
  generalize pathList.chars.headD 0 = first
  by_cases h : first = slash
  · rw [h, if_neg (by decide), if_neg (by simp), and_iff_right rfl]
  · by_cases hzero : first = 0
    · rw [if_pos hzero]
      simp [h]
    · rw [if_neg hzero, if_pos h]
      simp [h]

theorem validateSearchPath_iff (pathList : CString) :
    runtimeShellPathValidateSearchPath (some pathList) = true ↔
      ∃ segments, IsSearchPath segments pathList.chars := by
  rw [validateSearchPath_eq]
  constructor
  · rintro ⟨hhead, hscan⟩
    obtain ⟨piece, pieces, hsplit⟩ :=
      List.exists_cons_of_ne_nil (List.splitOn_ne_nil colon pathList.chars)
    obtain ⟨-, hpiece, hpieces⟩ := (scanSearchPath_iff hsplit 0).mp hscan
    have habsolute := (headD_eq_slash_iff hsplit).mp hhead
    refine ⟨piece :: pieces, List.cons_ne_nil _ _, List.forall_mem_cons.mpr ⟨?_, hpieces⟩, ?_⟩
    · exact isSegment_iff.mpr ⟨habsolute, hpiece⟩
    · rw [← hsplit, List.intercalate_splitOn]
  · rintro ⟨segments, hne, hsegments, hchars⟩
    have hsplit : pathList.chars.splitOn colon = segments := by
      rw [hchars, List.splitOn_intercalate colon (fun s hs ↦ (hsegments s hs).colon_not_mem) hne]
    obtain ⟨piece, pieces, rfl⟩ := List.exists_cons_of_ne_nil hne
    obtain ⟨hpiece, hpieces⟩ := List.forall_mem_cons.mp hsegments
    refine ⟨(headD_eq_slash_iff hsplit).mpr hpiece.absolute, (scanSearchPath_iff hsplit 0).mpr ?_⟩
    refine ⟨?_, (isSegment_iff.mp hpiece).2, hpieces⟩
    have := List.ne_nil_of_mem (List.mem_of_mem_head? hpiece.absolute)
    have := List.length_pos_iff.mpr this
    omega

/-! ## The candidates -/

section Candidates

variable {capacity : ℕ} {buffer : TextBuffer capacity} {pre chars segment command : List UInt8}

/-- The path that a segment of the search path gives for a command. -/
def candidate (segment command : List UInt8) : List UInt8 :=
  segment ++ (if segment.getLast? = some slash then [] else [slash]) ++ command

theorem append_fits (h : buffer.HoldsText pre) (ch : UInt8) (hfits : pre.length + 1 < capacity) :
    ∃ after, runtimeShellPathAppend buffer pre.length ch = .ok (true, after, pre.length + 1) ∧
      after.HoldsText (pre ++ [ch]) := by
  obtain ⟨between, after, hfirst, hsecond, hafter⟩ := h.push hfits ch
  refine ⟨after, ?_, hafter⟩
  rw [runtimeShellPathAppend, if_neg (by omega), hfirst, ok_bind, hsecond, ok_bind]

theorem append_tooLong {length : ℕ} (hlong : capacity ≤ length + 1) (ch : UInt8) :
    runtimeShellPathAppend buffer length ch = .ok (false, buffer, length) := by
  rw [runtimeShellPathAppend, if_pos hlong]

theorem appendChars_fits (h : buffer.HoldsText pre) (hfits : (pre ++ chars).length < capacity) :
    ∃ after, appendChars buffer pre.length chars = .ok (true, after, (pre ++ chars).length) ∧
      after.HoldsText (pre ++ chars) := by
  induction chars generalizing buffer pre with
  | nil => exact ⟨buffer, by rw [appendChars, List.append_nil], by rwa [List.append_nil]⟩
  | cons ch chars ih =>
    have hcons : pre ++ ch :: chars = (pre ++ [ch]) ++ chars := by simp
    rw [hcons] at hfits ⊢
    obtain ⟨between, hpush, hbetween⟩ := append_fits h ch (by simp at hfits; omega)
    obtain ⟨after, hloop, hafter⟩ := ih hbetween hfits
    refine ⟨after, ?_, hafter⟩
    rw [List.length_append, List.length_singleton] at hloop
    rw [appendChars, hpush, ok_bind]
    dsimp only
    rw [if_pos rfl, hloop]

theorem appendChars_tooLong (h : buffer.HoldsText pre)
    (hlong : capacity ≤ (pre ++ chars).length) :
    ∃ after length, appendChars buffer pre.length chars = .ok (false, after, length) := by
  induction chars generalizing buffer pre with
  | nil =>
    have := h.length_lt
    rw [List.append_nil] at hlong
    omega
  | cons ch chars ih =>
    by_cases hfits : pre.length + 1 < capacity
    · obtain ⟨between, hpush, hbetween⟩ := append_fits h ch hfits
      obtain ⟨after, length, hloop⟩ := ih hbetween (by simpa using hlong)
      refine ⟨after, length, ?_⟩
      rw [List.length_append, List.length_singleton] at hloop
      rw [appendChars, hpush, ok_bind]
      dsimp only
      rw [if_pos rfl, hloop]
    · refine ⟨buffer, pre.length, ?_⟩
      rw [appendChars, append_tooLong (by omega), ok_bind]
      rfl

/-- What stands at the end of a segment in the buffer is its last character. -/
theorem load_end (h : buffer.HoldsText segment) (hne : segment ≠ []) :
    (buffer.load (segment.length - 1) : Except Fault UInt8) = .ok (segment.getLast hne) := by
  have hsplit := List.dropLast_append_getLast hne
  rw [← hsplit] at h
  have := h.load_last
  rwa [List.length_dropLast] at this

/-- The slash behind a segment is an append of nothing or of one character. -/
theorem appendSlash_eq (h : buffer.HoldsText segment) (hne : segment ≠ []) :
    appendSlash buffer segment.length = appendChars buffer segment.length
      (if segment.getLast? = some slash then [] else [slash]) := by
  rw [appendSlash, if_neg (by simpa using hne), load_end h hne, ok_bind,
    List.getLast?_eq_some_getLast hne]
  dsimp only
  by_cases hlast : segment.getLast hne = slash
  · rw [if_neg (not_not.mpr hlast), if_pos (by rw [hlast]), appendChars]
  · rw [if_pos hlast, if_neg (by simpa using hlast), appendChars]
    cases runtimeShellPathAppend buffer segment.length slash with
    | error e => rfl
    | ok result =>
      obtain ⟨fits, after, length⟩ := result
      rw [ok_bind]
      cases fits with
      | true => rfl
      | false => rfl

theorem buildCandidate_fits (h : buffer.HoldsText []) (hne : segment ≠ [])
    (hfits : (candidate segment command).length < capacity) :
    ∃ after length, buildCandidate buffer segment command = .ok (true, after, length) ∧
      after.HoldsText (candidate segment command) := by
  rw [candidate] at hfits ⊢
  generalize hsep : (if segment.getLast? = some slash then [] else [slash]) = separator at hfits ⊢
  have hfits₂ : (segment ++ separator).length < capacity := by
    rw [List.length_append] at hfits
    omega
  have hfits₁ : ([] ++ segment).length < capacity := by
    rw [List.length_append] at hfits₂
    rw [List.nil_append]
    omega
  obtain ⟨b₁, h₁, hb₁⟩ := appendChars_fits h hfits₁
  rw [List.nil_append, List.length_nil] at h₁
  rw [List.nil_append] at hb₁
  obtain ⟨b₂, h₂, hb₂⟩ := appendChars_fits hb₁ hfits₂
  obtain ⟨b₃, h₃, hb₃⟩ := appendChars_fits hb₂ hfits
  refine ⟨b₃, (segment ++ separator ++ command).length, ?_, hb₃⟩
  rw [buildCandidate, h₁, ok_bind]
  dsimp only
  rw [if_pos rfl, appendSlash_eq hb₁ hne, hsep, h₂, ok_bind]
  dsimp only
  rw [if_pos rfl, h₃]

theorem buildCandidate_tooLong (h : buffer.HoldsText []) (hne : segment ≠ [])
    (hlong : capacity ≤ (candidate segment command).length) :
    ∃ after length, buildCandidate buffer segment command = .ok (false, after, length) := by
  rw [candidate] at hlong
  generalize hsep : (if segment.getLast? = some slash then [] else [slash]) = separator at hlong
  rw [buildCandidate]
  -- the first of the three texts that does not fit ends the construction
  by_cases hfits₁ : ([] ++ segment).length < capacity
  · obtain ⟨b₁, h₁, hb₁⟩ := appendChars_fits h hfits₁
    rw [List.nil_append, List.length_nil] at h₁
    rw [List.nil_append] at hb₁
    rw [h₁, ok_bind]
    dsimp only
    rw [if_pos rfl, appendSlash_eq hb₁ hne, hsep]
    by_cases hfits₂ : (segment ++ separator).length < capacity
    · obtain ⟨b₂, h₂, hb₂⟩ := appendChars_fits hb₁ hfits₂
      obtain ⟨b₃, length, h₃⟩ := appendChars_tooLong hb₂ hlong
      refine ⟨b₃, length, ?_⟩
      rw [h₂, ok_bind]
      dsimp only
      rw [if_pos rfl, h₃]
    · obtain ⟨b₂, length, h₂⟩ := appendChars_tooLong hb₁ (not_lt.mp hfits₂)
      refine ⟨b₂, length, ?_⟩
      rw [h₂, ok_bind]
      rfl
  · obtain ⟨b₁, length, h₁⟩ := appendChars_tooLong h (not_lt.mp hfits₁)
    refine ⟨b₁, length, ?_⟩
    rw [List.length_nil] at h₁
    rw [h₁, ok_bind]
    rfl

theorem candidate_nonzero (hsegment : IsSegment segment) (hcommand : ∀ ch ∈ command, ch ≠ 0) :
    ∀ ch ∈ candidate segment command, ch ≠ 0 := by
  intro ch hch
  rw [candidate, List.mem_append, List.mem_append] at hch
  rcases hch with (hch | hch) | hch
  · have hspace := (hsegment.printable ch hch).1
    rintro rfl
    exact absurd hspace (by decide)
  · split at hch
    · exact absurd hch (by simp)
    · rw [List.mem_singleton.mp hch]
      decide
  · exact hcommand ch hch

end Candidates

/-! ## The search -/

section Search

variable {capacity : ℕ} {buffer : TextBuffer capacity}

/-- **The answer of a lookup** that tries candidates in order: the status, and the buffer after
it. -/
inductive SearchAnswer (pathExists : List UInt8 → Bool) :
    List (List UInt8) → Int → TextBuffer capacity → Prop
  | missing {buffer : TextBuffer capacity} : SearchAnswer pathExists [] Status.enoent buffer
  | tooLong {path : List UInt8} {paths : List (List UInt8)} {buffer : TextBuffer capacity} :
      capacity ≤ path.length → SearchAnswer pathExists (path :: paths) Status.enospc buffer
  | found {path : List UInt8} {paths : List (List UInt8)} {buffer : TextBuffer capacity} :
      path.length < capacity → pathExists path = true → buffer.HoldsText path →
      SearchAnswer pathExists (path :: paths) Status.ok buffer
  | next {path : List UInt8} {paths : List (List UInt8)} {status : Int}
      {buffer : TextBuffer capacity} : path.length < capacity → pathExists path = false →
      SearchAnswer pathExists paths status buffer →
      SearchAnswer pathExists (path :: paths) status buffer

theorem cursor_behind (segment : List UInt8) (segments : List (List UInt8)) (behind : List UInt8)
    (h : behind = ([colon].intercalate (segment :: segments)).drop segment.length) :
    (if behind.headD 0 = colon then behind.tail else behind) = [colon].intercalate segments := by
  cases segments with
  | nil =>
    rw [h, List.intercalate_singleton, List.drop_length]
    rfl
  | cons next segments =>
    rw [h, drop_intercalate_cons]
    rfl

theorem searchSegments_spec {segments : List (List UInt8)} {command : List UInt8} {fuel : ℕ}
    (pathExists : List UInt8 → Bool) (hcapacity : 0 < capacity)
    (hsegments : ∀ segment ∈ segments, IsSegment segment) (hcommand : ∀ ch ∈ command, ch ≠ 0)
    (hfuel : ([colon].intercalate segments).length < fuel) (hbuffer : buffer.HoldsText []) :
    ∃ status after,
      searchSegments pathExists command fuel ([colon].intercalate segments) buffer
        = .ok (status, after) ∧
      SearchAnswer pathExists (segments.map (candidate · command)) status after := by
  induction segments generalizing fuel buffer with
  | nil =>
    cases fuel with
    | zero => exact absurd hfuel (by simp)
    | succ fuel =>
      refine ⟨Status.enoent, buffer, ?_, .missing⟩
      rw [List.intercalate_nil, searchSegments, if_pos rfl]
  | cons segment segments ih =>
    cases fuel with
    | zero => exact absurd hfuel (by simp)
    | succ fuel =>
      obtain ⟨hsegment, hrest⟩ := List.forall_mem_cons.mp hsegments
      have htake := takeWhile_intercalate segments hsegment.colon_not_mem
      have hne : segment ≠ [] :=
        List.ne_nil_of_mem (List.mem_of_mem_head? hsegment.absolute)
      have hpos := List.length_pos_iff.mpr hne
      have hcursor : [colon].intercalate (segment :: segments) ≠ [] := by
        intro hnil
        rw [hnil] at htake
        exact hne htake.symm
      have hshorter : ([colon].intercalate segments).length < fuel := by
        have hlength := length_intercalate_cons colon segment segments
        omega
      rw [searchSegments, if_neg hcursor, htake]
      dsimp only
      rw [cursor_behind segment segments _ rfl, if_pos (by omega), List.map_cons]
      by_cases hfits : (candidate segment command).length < capacity
      · obtain ⟨built, length, hbuild, hbuilt⟩ := buildCandidate_fits hbuffer hne hfits
        rw [hbuild, ok_bind]
        dsimp only
        rw [if_neg (by simp), hbuilt.read_eq (candidate_nonzero hsegment hcommand), ok_bind]
        cases hexists : pathExists (candidate segment command) with
        | true => exact ⟨Status.ok, built, by rw [if_pos rfl], .found hfits hexists hbuilt⟩
        | false =>
          obtain ⟨cleared, hclear, hcleared⟩ := built.store_zero hcapacity
          obtain ⟨status, after, hloop, hanswer⟩ := ih hrest hshorter hcleared
          refine ⟨status, after, ?_, .next hfits hexists hanswer⟩
          rw [if_neg (by simp), hclear, ok_bind, hloop]
      · obtain ⟨built, length, hbuild⟩ := buildCandidate_tooLong hbuffer hne (not_lt.mp hfits)
        refine ⟨Status.enospc, built, ?_, .tooLong (not_lt.mp hfits)⟩
        rw [hbuild, ok_bind]
        rfl

theorem validateCommandName_iff (command : CString) :
    runtimeShellPathValidateCommandName (some command) = true ↔
      command.charAt 0 ≠ 0 ∧ ∀ ch ∈ command.chars, ch ≠ slash ∧ ch ≠ colon ∧ space < ch := by
  rw [runtimeShellPathValidateCommandName]
  by_cases hzero : command.charAt 0 = 0
  · simp [hzero]
  · simp [hzero, and_assoc]

/-- A valid command name is looked up, not taken as a path. -/
theorem hasSlash_of_validateCommandName {command : CString}
    (h : runtimeShellPathValidateCommandName (some command) = true) :
    runtimeShellPathHasSlash (some command) = false := by
  obtain ⟨-, hchars⟩ := (validateCommandName_iff command).mp h
  rw [runtimeShellPathHasSlash, List.any_eq_false]
  intro ch hch
  simpa using (hchars ch hch).1

/-- The search path validator accepts the texts of the grammar, and on an accepted search path the
lookup of a command tries the candidates in order, without an access outside the buffer. -/
theorem runtimeShellPath_search :
    (∀ pathList : CString, runtimeShellPathValidateSearchPath (some pathList) = true ↔
      ∃ segments, IsSearchPath segments pathList.chars) ∧
    ∀ (pathList command : CString) (segments : List (List UInt8)) (pathExists : List UInt8 → Bool)
      (capacity : ℕ) (buffer : TextBuffer capacity), 0 < capacity →
      IsSearchPath segments pathList.chars →
      runtimeShellPathValidateCommandName (some command) = true →
      ∃ status after, runtimeShellPathResolve (some pathList) (some command) (some pathExists)
          (some buffer) = .ok (status, some after) ∧
        SearchAnswer pathExists (segments.map (candidate · command.chars)) status after := by
  refine ⟨validateSearchPath_iff, ?_⟩
  intro pathList command segments pathExists capacity buffer hcapacity hpath hname
  have haccepted := (validateSearchPath_iff pathList).mpr ⟨segments, hpath⟩
  obtain ⟨-, hsegments, hchars⟩ := hpath
  obtain ⟨cleared, hclear, hcleared⟩ := buffer.store_zero hcapacity
  obtain ⟨status, after, hloop, hanswer⟩ := searchSegments_spec pathExists hcapacity hsegments
    command.nonzero (Nat.lt_succ_self _) hcleared
  refine ⟨status, after, ?_, hanswer⟩
  rw [← hchars] at hloop
  have hinto : resolveInto (some pathList) command pathExists buffer = .ok (status, after) := by
    rw [resolveInto, hclear, ok_bind, hasSlash_of_validateCommandName hname, if_neg (by simp),
      haccepted, hname, if_neg (by simp)]
    exact hloop
  rw [runtimeShellPathResolve]
  dsimp only
  rw [if_neg (by omega), hinto, ok_bind]

/-- `ls` on the search path `/bin:/`, in eight bytes, where only `/ls` exists. -/
theorem runtimeShellPath_search_root : ∃ status after,
    runtimeShellPathResolve (some ⟨[47, 98, 105, 110, 58, 47], by simp⟩)
        (some ⟨[108, 115], by simp⟩) (some (· == [47, 108, 115]))
        (some (Vector.replicate 8 (0 : UInt8))) = .ok (status, some after) ∧
      SearchAnswer (· == [47, 108, 115]) ([[47, 98, 105, 110], [47]].map (candidate · [108, 115]))
        status after := by
  refine runtimeShellPath_search.2 ⟨[47, 98, 105, 110, 58, 47], by simp⟩ ⟨[108, 115], by simp⟩
    [[47, 98, 105, 110], [47]] (· == [47, 108, 115]) 8 (Vector.replicate 8 0) (by decide) ?_
    (by decide)
  refine ⟨by decide, ?_, by decide⟩
  intro segment hsegment
  simp only [List.mem_cons, List.not_mem_nil, or_false] at hsegment
  rcases hsegment with rfl | rfl
  · exact ⟨rfl, by simp [space, colon], by simp [slash]⟩
  · exact ⟨rfl, by simp [space, colon], by simp⟩

end Search

end TensorOS
