import Mathlib
import TensorOS.Lib.Pieces
import TensorOS.Lib.TextBuffer
import TensorOS.Fs.Basic

/-!
# Resource paths of installed applications

The catalog lists the applications by key, and a resource of an application is found under
`/apps/`, the key, `/resources/` and a path of its own. The path is checked component by component
(`validateRelativePath_iff`); the key is only required to be a non-empty text that no other
application has. Whatever the catalog accepts as a key goes into the middle of the path, so that the
paths stay inside the directories of their applications exactly if every key passes the check that
the components of the resource path have to pass.
-/

namespace TensorOS

/-! ## The catalog -/

/-- The texts of `struct runtime_loader_record`. -/
structure RuntimeLoaderRecord where
  appKey : Option CString
  displayName : Option CString
  version : Option CString
  taskKey : Option CString

/-- `runtime_loader_string_equals`. -/
def runtimeLoaderStringEquals : Option CString → Option CString → Bool
  | some left, some right => textEquals left.chars right.chars
  | _, _ => false

/-- `runtime_loader_string_nonempty`. -/
def runtimeLoaderStringNonempty : Option CString → Bool
  | none => false
  | some value => value.charAt 0 ≠ 0

/-- `runtime_loader_find`. -/
def runtimeLoaderFind (records : List RuntimeLoaderRecord) (appKey : Option CString) :
    Option RuntimeLoaderRecord :=
  records.find? fun record ↦ runtimeLoaderStringEquals record.appKey appKey

/-- The loop of `runtime_loader_validate_catalog`. -/
def validateRecords : List RuntimeLoaderRecord → Bool
  | [] => true
  | record :: others =>
    if !runtimeLoaderStringNonempty record.appKey ||
        !runtimeLoaderStringNonempty record.displayName ||
        !runtimeLoaderStringNonempty record.version ||
        !runtimeLoaderStringNonempty record.taskKey then false
    else if others.any fun other ↦ runtimeLoaderStringEquals record.appKey other.appKey then false
    else validateRecords others

/-- `runtime_loader_validate_catalog`. -/
def runtimeLoaderValidateCatalog : Option (List RuntimeLoaderRecord) → Bool
  | none => false
  | some records => validateRecords records

/-! ## Relative paths -/

/-- The character `.`. -/
def dot : UInt8 := 46

/-- `runtime_resource_segment_ok`, on a segment that is not null. -/
def runtimeResourceSegmentOk (segment : List UInt8) : Bool :=
  if segment.length = 0 then false
  else if segment = [dot] then false
  else if segment = [dot, dot] then false
  else !segment.any (· = slash)

/-- The loop of `runtime_resource_validate_relative_path`. -/
def validateSegments : ℕ → List UInt8 → Except Fault Bool
  | 0, _ => .error .diverges
  | fuel + 1, cursor =>
    if cursor = [] then .ok true
    else
      let segment := cursor.takeWhile (· ≠ slash)
      if !runtimeResourceSegmentOk segment then .ok false
      else
        let behind := cursor.drop segment.length
        if behind.headD 0 = slash then
          if behind.tail = [] then .ok false else validateSegments fuel behind.tail
        else validateSegments fuel behind

/-- `runtime_resource_validate_relative_path`. -/
def runtimeResourceValidateRelativePath : Option CString → Except Fault Bool
  | none => .ok false
  | some resourcePath =>
    if resourcePath.charAt 0 = 0 ∨ resourcePath.charAt 0 = slash then .ok false
    else validateSegments (resourcePath.chars.length + 1) resourcePath.chars

/-! ## Building a path -/

/-- `struct runtime_resource_locator`. -/
structure RuntimeResourceLocator where
  appKey : Option CString
  resourcePath : Option CString
  deriving DecidableEq

/-- `RUNTIME_RESOURCE_PATH_PREFIX`, `/apps/`. -/
def runtimeResourcePathPrefix : List UInt8 := [47, 97, 112, 112, 115, 47]

/-- `RUNTIME_RESOURCE_PATH_RESOURCES`, `/resources/`. -/
def runtimeResourcePathResources : List UInt8 :=
  [47, 114, 101, 115, 111, 117, 114, 99, 101, 115, 47]

section Build

variable {capacity : ℕ}

/-- A loop that copies one text behind the bytes already written: whether it fits, the buffer and
the new index. -/
def copyText (buffer : TextBuffer capacity) (index : ℕ) :
    List UInt8 → Except Fault (Bool × TextBuffer capacity × ℕ)
  | [] => .ok (true, buffer, index)
  | ch :: chars =>
    if capacity ≤ index + 1 then .ok (false, buffer, index)
    else do
      let buffer ← buffer.store index ch
      copyText buffer (index + 1) chars

/-- The four loops of `runtime_resource_build_path`, one text each. -/
def copyTexts (buffer : TextBuffer capacity) (index : ℕ) :
    List (List UInt8) → Except Fault (Bool × TextBuffer capacity × ℕ)
  | [] => .ok (true, buffer, index)
  | text :: texts => do
    let (fits, buffer, index) ← copyText buffer index text
    if fits then copyTexts buffer index texts else .ok (false, buffer, index)

/-- The part of `runtime_resource_build_path` behind the lookup. -/
def writePath (buffer : TextBuffer capacity) (appKey resourcePath : List UInt8) :
    Except Fault (Int × TextBuffer capacity) := do
  let (fits, buffer, index) ← copyTexts buffer 0
    [runtimeResourcePathPrefix, appKey, runtimeResourcePathResources, resourcePath]
  if fits then do
    let buffer ← buffer.store index 0
    .ok (Status.ok, buffer)
  else .ok (Status.enospc, buffer)

/-- `runtime_resource_build_path`. -/
def runtimeResourceBuildPath (records : Option (List RuntimeLoaderRecord))
    (locator : Option RuntimeResourceLocator) (buffer : Option (TextBuffer capacity)) :
    Except Fault (Int × Option (TextBuffer capacity)) :=
  match records, locator, buffer with
  | some records, some ⟨some appKey, some resourcePath⟩, some buffer =>
    if capacity = 0 then .ok (Status.einval, some buffer)
    else do
      let valid ← runtimeResourceValidateRelativePath (some resourcePath)
      if !valid then .ok (Status.einval, some buffer)
      else
        match runtimeLoaderFind records (some appKey) with
        | none => .ok (Status.enoent, some buffer)
        | some record =>
          match record.appKey with
          -- a record that was found has a key
          | none => .error .outOfBounds
          | some key => do
            let (status, buffer) ← writePath buffer key.chars resourcePath.chars
            .ok (status, some buffer)
  | _, _, _ => .ok (Status.einval, buffer)

end Build

/-! ## What the checks accept -/

/-- A name that stays where it is put: not empty, not `.` or `..`, and without a slash. -/
structure IsComponent (name : List UInt8) : Prop where
  nonempty : name ≠ []
  ne_dot : name ≠ [dot]
  ne_dots : name ≠ [dot, dot]
  slash_not_mem : slash ∉ name

theorem segmentOk_iff {segment : List UInt8} :
    runtimeResourceSegmentOk segment = true ↔ IsComponent segment := by
  rw [runtimeResourceSegmentOk]
  by_cases hnil : segment = []
  · subst hnil
    exact iff_of_false (by simp) fun h ↦ h.nonempty rfl
  by_cases hdot : segment = [dot]
  · subst hdot
    exact iff_of_false (by simp) fun h ↦ h.ne_dot rfl
  by_cases hdots : segment = [dot, dot]
  · subst hdots
    exact iff_of_false (by simp) fun h ↦ h.ne_dots rfl
  rw [if_neg (by simpa using hnil), if_neg hdot, if_neg hdots]
  rw [Bool.not_eq_true', List.any_eq_false]
  constructor
  · intro h
    exact ⟨hnil, hdot, hdots, fun hmem ↦ h slash hmem (by simp)⟩
  · intro h ch hch heq
    rw [of_decide_eq_true heq] at hch
    exact h.slash_not_mem hch

theorem stringEquals_iff {left : Option CString} {right : CString} :
    runtimeLoaderStringEquals left (some right) = true ↔ left = some right := by
  cases left with
  | none => simp [runtimeLoaderStringEquals]
  | some left =>
    rw [runtimeLoaderStringEquals, textEquals_iff, Option.some_inj]
    exact ⟨CString.ext_chars, fun h ↦ by rw [h]⟩

theorem runtimeLoaderFind_eq (records : List RuntimeLoaderRecord) (appKey : CString) :
    (∃ record, runtimeLoaderFind records (some appKey) = some record ∧
      record.appKey = some appKey) ∨
    runtimeLoaderFind records (some appKey) = none ∧
      ∀ record ∈ records, record.appKey ≠ some appKey := by
  cases hfind : runtimeLoaderFind records (some appKey) with
  | some record =>
    rw [runtimeLoaderFind] at hfind
    exact .inl ⟨record, rfl, stringEquals_iff.mp (by simpa using List.find?_some hfind)⟩
  | none =>
    refine .inr ⟨rfl, fun record hrecord hkey ↦ ?_⟩
    exact List.find?_eq_none.mp hfind record hrecord (stringEquals_iff.mpr hkey)

theorem validateRecords_appKey {records : List RuntimeLoaderRecord}
    (h : validateRecords records = true) :
    ∀ record ∈ records, ∃ key, record.appKey = some key := by
  induction records with
  | nil => simp
  | cons record records ih =>
    rw [validateRecords] at h
    split at h
    · exact absurd h (by simp)
    · rename_i hnonempty
      split at h
      · exact absurd h (by simp)
      · refine List.forall_mem_cons.mpr ⟨?_, ih h⟩
        cases hkey : record.appKey with
        | none => simp [hkey, runtimeLoaderStringNonempty] at hnonempty
        | some key => exact ⟨key, rfl⟩

theorem validateSegments_iff {pieces : List (List UInt8)} {fuel : ℕ}
    (hpieces : ∀ piece ∈ pieces, slash ∉ piece) (hne : [slash].intercalate pieces ≠ [])
    (hfuel : ([slash].intercalate pieces).length < fuel) :
    ∃ valid, validateSegments fuel ([slash].intercalate pieces) = .ok valid ∧
      (valid = true ↔ ∀ piece ∈ pieces, IsComponent piece) := by
  induction pieces generalizing fuel with
  | nil => exact absurd List.intercalate_nil hne
  | cons piece pieces ih =>
    obtain ⟨hpiece, hrest⟩ := List.forall_mem_cons.mp hpieces
    cases fuel with
    | zero => exact absurd hfuel (by simp)
    | succ fuel =>
      rw [validateSegments, if_neg hne, takeWhile_intercalate pieces hpiece, List.forall_mem_cons]
      dsimp only
      by_cases hok : runtimeResourceSegmentOk piece = true
      · have hcomponent := segmentOk_iff.mp hok
        rw [if_neg (by simp [hok]), and_iff_right hcomponent]
        cases pieces with
        | nil =>
          -- the last segment: nothing stands behind it
          rw [List.intercalate_singleton] at hne hfuel ⊢
          have hpos := List.length_pos_iff.mpr hne
          obtain ⟨fuel, rfl⟩ := Nat.exists_eq_add_one_of_ne_zero (n := fuel) (by omega)
          refine ⟨true, ?_, by simp⟩
          rw [List.drop_length, if_neg (by simp [slash]), validateSegments, if_pos rfl]
        | cons next pieces =>
          have hbehind := drop_intercalate_cons slash piece next pieces
          have hlen := congrArg List.length hbehind
          rw [List.length_drop, List.length_cons] at hlen
          rw [hbehind, List.headD_cons, if_pos rfl, List.tail_cons]
          by_cases hrest' : [slash].intercalate (next :: pieces) = []
          · -- a slash at the end of the path, and an empty segment behind it
            have hnext : next = [] := by
              have := takeWhile_intercalate pieces (hrest next (by simp))
              rw [hrest'] at this
              exact this.symm
            refine ⟨false, by rw [if_pos hrest'], ?_⟩
            simp only [Bool.false_eq_true, false_iff]
            exact fun h ↦ (h next (by simp)).nonempty hnext
          · rw [if_neg hrest']
            exact ih hrest hrest' (by omega)
      · have hnot : ¬IsComponent piece := fun h ↦ hok (segmentOk_iff.mpr h)
        refine ⟨false, ?_, by simp [hnot]⟩
        rw [if_pos (by simpa using hok)]

theorem validateRelativePath_iff (resourcePath : CString) :
    ∃ valid, runtimeResourceValidateRelativePath (some resourcePath) = .ok valid ∧
      (valid = true ↔ ∀ piece ∈ resourcePath.chars.splitOn slash, IsComponent piece) := by
  have hjoin : [slash].intercalate (resourcePath.chars.splitOn slash) = resourcePath.chars :=
    List.intercalate_splitOn slash
  have hpieces : ∀ piece ∈ resourcePath.chars.splitOn slash, slash ∉ piece :=
    fun piece ↦ not_mem_of_mem_splitOn
  rw [runtimeResourceValidateRelativePath]
  by_cases hstart : resourcePath.charAt 0 = 0 ∨ resourcePath.charAt 0 = slash
  · -- the first piece is empty
    refine ⟨false, by rw [if_pos hstart], ?_⟩
    simp only [Bool.false_eq_true, false_iff]
    intro h
    refine (h [] ?_).nonempty rfl
    cases hchars : resourcePath.chars with
    | nil => simp
    | cons c chars =>
      have hzero : c ≠ 0 := resourcePath.nonzero c (by simp [hchars])
      have hslash : c = slash := by simpa [CString.charAt, hchars, hzero] using hstart
      rw [List.splitOn_cons_eq_if_modifyHead, if_pos (by simpa using hslash)]
      simp
  · have hne : resourcePath.chars ≠ [] := by
      intro hnil
      simp [CString.charAt, hnil] at hstart
    have hscan := validateSegments_iff hpieces (by rwa [hjoin]) (Nat.lt_succ_self _)
    rw [hjoin] at hscan
    rwa [if_neg hstart]

/-! ## What is built -/

section Build

variable {capacity : ℕ} {buffer : TextBuffer capacity} {pre rest : List UInt8}

theorem copyText_append (index : ℕ) (text more : List UInt8) :
    copyText buffer index (text ++ more) = (do
      let (fits, buffer, index) ← copyText buffer index text
      if fits then copyText buffer index more else .ok (false, buffer, index)) := by
  induction text generalizing buffer index with
  | nil => rfl
  | cons ch text ih =>
    rw [List.cons_append, copyText, copyText]
    by_cases hfits : capacity ≤ index + 1
    · rw [if_pos hfits, if_pos hfits, ok_bind]
      rfl
    · rw [if_neg hfits, if_neg hfits]
      cases hstore : buffer.store index ch with
      | error e => rfl
      | ok after =>
        rw [ok_bind, ok_bind, ih]

theorem copyTexts_eq (index : ℕ) (texts : List (List UInt8)) :
    copyTexts buffer index texts = copyText buffer index texts.flatten := by
  induction texts generalizing buffer index with
  | nil => rfl
  | cons text texts ih =>
    rw [copyTexts, List.flatten_cons, copyText_append]
    simp only [ih]

theorem copyText_fits {chars : List UInt8} (h : buffer.toList = pre ++ rest)
    (hfits : (pre ++ chars).length < capacity) :
    ∃ after rest', copyText buffer pre.length chars = .ok (true, after, (pre ++ chars).length) ∧
      after.toList = pre ++ chars ++ rest' := by
  induction chars generalizing buffer pre rest with
  | nil => exact ⟨buffer, rest, by rw [copyText, List.append_nil], by rw [List.append_nil, h]⟩
  | cons ch chars ih =>
    have hcons : pre ++ ch :: chars = (pre ++ [ch]) ++ chars := by simp
    have hroom : pre.length + 1 < capacity := by
      rw [List.length_append, List.length_cons] at hfits
      omega
    obtain ⟨old, rest, rfl⟩ := TextBuffer.exists_cons_of_lt h (by omega)
    obtain ⟨between, hstore, hbetween⟩ := TextBuffer.store_end h ch
    have hsplit : between.toList = (pre ++ [ch]) ++ rest := by simp [hbetween]
    rw [hcons] at hfits ⊢
    obtain ⟨after, rest', hloop, hafter⟩ := ih hsplit hfits
    refine ⟨after, rest', ?_, hafter⟩
    rw [List.length_append, List.length_singleton] at hloop
    rw [copyText, if_neg (by omega), hstore, ok_bind, hloop]

theorem copyText_tooLong {chars : List UInt8} (h : buffer.toList = pre ++ rest)
    (hpre : pre.length < capacity) (hlong : capacity ≤ (pre ++ chars).length) :
    ∃ after index, copyText buffer pre.length chars = .ok (false, after, index) := by
  induction chars generalizing buffer pre rest with
  | nil =>
    rw [List.append_nil] at hlong
    omega
  | cons ch chars ih =>
    by_cases hroom : pre.length + 1 < capacity
    · obtain ⟨old, rest, rfl⟩ := TextBuffer.exists_cons_of_lt h (by omega)
      obtain ⟨between, hstore, hbetween⟩ := TextBuffer.store_end h ch
      have hsplit : between.toList = (pre ++ [ch]) ++ rest := by simp [hbetween]
      obtain ⟨after, index, hloop⟩ := ih hsplit (by simpa using hroom) (by simpa using hlong)
      refine ⟨after, index, ?_⟩
      rw [List.length_append, List.length_singleton] at hloop
      rw [copyText, if_neg (by omega), hstore, ok_bind, hloop]
    · refine ⟨buffer, pre.length, ?_⟩
      rw [copyText, if_pos (by omega)]

/-- The path of a resource. -/
def resourcePathText (appKey resourcePath : List UInt8) : List UInt8 :=
  runtimeResourcePathPrefix ++ appKey ++ runtimeResourcePathResources ++ resourcePath

theorem flatten_path (appKey resourcePath : List UInt8) :
    [runtimeResourcePathPrefix, appKey, runtimeResourcePathResources, resourcePath].flatten
      = resourcePathText appKey resourcePath := by
  simp [resourcePathText]

theorem writePath_fits {appKey resourcePath : List UInt8} (buffer : TextBuffer capacity)
    (hfits : (resourcePathText appKey resourcePath).length < capacity) :
    ∃ after, writePath buffer appKey resourcePath = .ok (Status.ok, after) ∧
      after.HoldsText (resourcePathText appKey resourcePath) := by
  have hsplit : buffer.toList = [] ++ buffer.toList := rfl
  rw [← List.nil_append (resourcePathText _ _)] at hfits
  obtain ⟨between, rest, hcopy, hbetween⟩ := copyText_fits hsplit hfits
  rw [List.nil_append] at hfits hcopy hbetween
  obtain ⟨old, rest, rfl⟩ := TextBuffer.exists_cons_of_lt hbetween hfits
  obtain ⟨after, hstore, hafter⟩ := TextBuffer.store_end hbetween 0
  refine ⟨after, ?_, rest, hafter⟩
  rw [List.length_nil] at hcopy
  rw [writePath, copyTexts_eq, flatten_path, hcopy, ok_bind]
  dsimp only
  rw [if_pos rfl, hstore, ok_bind]

theorem writePath_tooLong {appKey resourcePath : List UInt8} (buffer : TextBuffer capacity)
    (hcapacity : 0 < capacity)
    (hlong : capacity ≤ (resourcePathText appKey resourcePath).length) :
    ∃ after, writePath buffer appKey resourcePath = .ok (Status.enospc, after) := by
  have hsplit : buffer.toList = [] ++ buffer.toList := rfl
  rw [← List.nil_append (resourcePathText _ _)] at hlong
  obtain ⟨after, index, hcopy⟩ := copyText_tooLong hsplit hcapacity hlong
  refine ⟨after, ?_⟩
  rw [List.length_nil] at hcopy
  rw [writePath, copyTexts_eq, flatten_path, hcopy, ok_bind]
  rfl

/-- **What the builder answers** on a locator without null pointers: it returns `OK` if the path is
valid, the application is in the catalog and the text fits, and the buffer holds the text then. -/
theorem runtimeResourceBuildPath_spec (records : List RuntimeLoaderRecord)
    (appKey resourcePath : CString) (buffer : TextBuffer capacity) :
    ∃ status after, runtimeResourceBuildPath (some records)
        (some ⟨some appKey, some resourcePath⟩) (some buffer) = .ok (status, some after) ∧
      (status = Status.ok ↔ (∀ piece ∈ resourcePath.chars.splitOn slash, IsComponent piece) ∧
        (∃ record ∈ records, record.appKey = some appKey) ∧
        (resourcePathText appKey.chars resourcePath.chars).length < capacity) ∧
      (status = Status.ok →
        after.HoldsText (resourcePathText appKey.chars resourcePath.chars)) := by
  rw [runtimeResourceBuildPath]
  by_cases hcapacity : capacity = 0
  · refine ⟨Status.einval, buffer, by simp only [if_pos hcapacity], ?_,
      fun h ↦ absurd h (by decide)⟩
    exact iff_of_false (by decide) fun h ↦ by omega
  obtain ⟨valid, hvalid, hiff⟩ := validateRelativePath_iff resourcePath
  simp only [if_neg hcapacity, hvalid, ok_bind]
  rw [← hiff]
  cases valid with
  | false =>
    refine ⟨Status.einval, buffer, rfl, ?_, fun h ↦ absurd h (by decide)⟩
    exact iff_of_false (by decide) fun h ↦ absurd h.1 (by decide)
  | true =>
    rcases runtimeLoaderFind_eq records appKey with ⟨record, hfind, hkey⟩ | ⟨hfind, hnone⟩
    · have hmem : ∃ record ∈ records, record.appKey = some appKey :=
        ⟨record, List.mem_of_find?_eq_some hfind, hkey⟩
      simp only [hfind, hkey]
      by_cases hfits : (resourcePathText appKey.chars resourcePath.chars).length < capacity
      · obtain ⟨after, hwrite, hafter⟩ := writePath_fits buffer hfits
        refine ⟨Status.ok, after, ?_, ?_, fun _ ↦ hafter⟩
        · simp only [hwrite, ok_bind]
          rfl
        · exact iff_of_true rfl ⟨trivial, hmem, hfits⟩
      · obtain ⟨after, hwrite⟩ :=
          writePath_tooLong buffer (Nat.pos_of_ne_zero hcapacity) (not_lt.mp hfits)
        refine ⟨Status.enospc, after, ?_, ?_, fun h ↦ absurd h (by decide)⟩
        · simp only [hwrite, ok_bind]
          rfl
        · exact iff_of_false (by decide) fun h ↦ hfits h.2.2
    · refine ⟨Status.enoent, buffer, by simp only [hfind]; rfl, ?_, fun h ↦ absurd h (by decide)⟩
      refine iff_of_false (by decide) ?_
      rintro ⟨-, ⟨record, hrecord, hkey⟩, -⟩
      exact hnone record hrecord hkey

end Build

/-! ## Confinement -/

/-- A path inside the resources of one application. -/
structure ConfinedPath (resourcePath path : List UInt8) : Prop where
  package : ∃ key, IsComponent key ∧ path = resourcePathText key resourcePath
  components : ∃ pieces, path.splitOn slash = [] :: pieces ∧ ∀ piece ∈ pieces, IsComponent piece

/-- Every path built from a catalog is confined. -/
def PathsConfined (records : List RuntimeLoaderRecord) : Prop :=
  ∀ (locator : Option RuntimeResourceLocator) (capacity : ℕ) (buffer : TextBuffer capacity)
    (after : Option (TextBuffer capacity)),
    runtimeResourceBuildPath (some records) locator (some buffer) = .ok (Status.ok, after) →
    ∃ appKey resourcePath built path, locator = some ⟨appKey, some resourcePath⟩ ∧
      after = some built ∧ built.read = .ok path ∧ ConfinedPath resourcePath.chars path

/-- Different locators never give the same path. -/
def PathsDistinct (records : List RuntimeLoaderRecord) : Prop :=
  ∀ (locator₁ locator₂ : RuntimeResourceLocator) (capacity₁ capacity₂ : ℕ)
    (buffer₁ after₁ : TextBuffer capacity₁) (buffer₂ after₂ : TextBuffer capacity₂),
    runtimeResourceBuildPath (some records) (some locator₁) (some buffer₁)
      = .ok (Status.ok, some after₁) →
    runtimeResourceBuildPath (some records) (some locator₂) (some buffer₂)
      = .ok (Status.ok, some after₂) →
    after₁.read = after₂.read → locator₁ = locator₂

section Confinement

variable {records : List RuntimeLoaderRecord} {capacity : ℕ}

theorem resourcePathText_nonzero (appKey resourcePath : CString) :
    ∀ ch ∈ resourcePathText appKey.chars resourcePath.chars, ch ≠ 0 := by
  have hprefix : ∀ ch ∈ runtimeResourcePathPrefix, ch ≠ 0 := by
    simp [runtimeResourcePathPrefix]
  have hresources : ∀ ch ∈ runtimeResourcePathResources, ch ≠ 0 := by
    simp [runtimeResourcePathResources]
  intro ch hch
  simp only [resourcePathText, List.mem_append] at hch
  rcases hch with ((hch | hch) | hch) | hch
  · exact hprefix ch hch
  · exact appKey.nonzero ch hch
  · exact hresources ch hch
  · exact resourcePath.nonzero ch hch

theorem runtimeResourceBuildPath_eq_ok {locator : Option RuntimeResourceLocator}
    {buffer : TextBuffer capacity} {after : Option (TextBuffer capacity)}
    (h : runtimeResourceBuildPath (some records) locator (some buffer) = .ok (Status.ok, after)) :
    ∃ appKey resourcePath built, locator = some ⟨some appKey, some resourcePath⟩ ∧
      after = some built ∧ (∀ piece ∈ resourcePath.chars.splitOn slash, IsComponent piece) ∧
      (∃ record ∈ records, record.appKey = some appKey) ∧
      built.read = .ok (resourcePathText appKey.chars resourcePath.chars) := by
  have heinval : (Except.ok (Status.einval, some buffer) :
      Except Fault (Int × Option (TextBuffer capacity))) ≠ .ok (Status.ok, after) := by
    simp [Status.einval, Status.ok]
  rcases locator with _ | ⟨_ | appKey, _ | resourcePath⟩
  · exact absurd h heinval
  · exact absurd h heinval
  · exact absurd h heinval
  · exact absurd h heinval
  · obtain ⟨status, built, hbuild, hstatus, hholds⟩ :=
      runtimeResourceBuildPath_spec records appKey resourcePath buffer
    rw [hbuild] at h
    obtain ⟨rfl, rfl⟩ := Prod.mk.inj (Except.ok.inj h)
    obtain ⟨hpieces, hmem, -⟩ := hstatus.mp rfl
    exact ⟨appKey, resourcePath, built, rfl, rfl, hpieces, hmem,
      (hholds rfl).read_eq (resourcePathText_nonzero appKey resourcePath)⟩

theorem exists_build {appKey : CString} (resourcePath : CString)
    (hmem : ∃ record ∈ records, record.appKey = some appKey)
    (hpieces : ∀ piece ∈ resourcePath.chars.splitOn slash, IsComponent piece) :
    ∃ buffer after : TextBuffer ((resourcePathText appKey.chars resourcePath.chars).length + 1),
      runtimeResourceBuildPath (some records) (some ⟨some appKey, some resourcePath⟩)
        (some buffer) = .ok (Status.ok, some after) ∧
      after.read = .ok (resourcePathText appKey.chars resourcePath.chars) := by
  obtain ⟨status, after, hbuild, hstatus, hholds⟩ := runtimeResourceBuildPath_spec records appKey
    resourcePath (Vector.replicate _ (0 : UInt8))
  obtain rfl := hstatus.mpr ⟨hpieces, hmem, Nat.lt_succ_self _⟩
  exact ⟨_, after, hbuild, (hholds rfl).read_eq (resourcePathText_nonzero appKey resourcePath)⟩

theorem splitOn_resourcePathText {appKey : List UInt8} (hkey : slash ∉ appKey)
    (resourcePath : List UInt8) : (resourcePathText appKey resourcePath).splitOn slash =
      [] :: [97, 112, 112, 115] :: appKey :: [114, 101, 115, 111, 117, 114, 99, 101, 115] ::
        resourcePath.splitOn slash := by
  have happs : slash ∉ ([97, 112, 112, 115] : List UInt8) := by simp [slash]
  have hnames : slash ∉ ([114, 101, 115, 111, 117, 114, 99, 101, 115] : List UInt8) := by
    simp [slash]
  have htext : resourcePathText appKey resourcePath = [] ++ slash :: ([97, 112, 112, 115] ++
      slash :: (appKey ++ slash :: ([114, 101, 115, 111, 117, 114, 99, 101, 115] ++
        slash :: resourcePath))) := by
    simp [resourcePathText, runtimeResourcePathPrefix, runtimeResourcePathResources, slash]
  rw [htext, List.splitOn_append_cons_self_of_not_mem List.not_mem_nil,
    List.splitOn_append_cons_self_of_not_mem happs, List.splitOn_append_cons_self_of_not_mem hkey,
    List.splitOn_append_cons_self_of_not_mem hnames]

theorem confinedPath_of_component {appKey resourcePath : List UInt8} (hkey : IsComponent appKey)
    (hpieces : ∀ piece ∈ resourcePath.splitOn slash, IsComponent piece) :
    ConfinedPath resourcePath (resourcePathText appKey resourcePath) := by
  have happs : IsComponent [97, 112, 112, 115] := segmentOk_iff.mp rfl
  have hnames : IsComponent [114, 101, 115, 111, 117, 114, 99, 101, 115] := segmentOk_iff.mp rfl
  refine ⟨⟨appKey, hkey, rfl⟩, _, splitOn_resourcePathText hkey.slash_not_mem resourcePath, ?_⟩
  simp only [List.forall_mem_cons]
  exact ⟨happs, hkey, hnames, hpieces⟩

/-- The key is what stands between the two fixed parts. -/
theorem resourcePathText_left_inj {key₁ key₂ resourcePath : List UInt8} :
    resourcePathText key₁ resourcePath = resourcePathText key₂ resourcePath ↔ key₁ = key₂ := by
  simp [resourcePathText]

theorem resourcePathText_inj {key₁ key₂ path₁ path₂ : List UInt8} (h₁ : slash ∉ key₁)
    (h₂ : slash ∉ key₂) (h : resourcePathText key₁ path₁ = resourcePathText key₂ path₂) :
    key₁ = key₂ ∧ path₁ = path₂ := by
  have hsplit := congrArg (List.splitOn slash) h
  rw [splitOn_resourcePathText h₁, splitOn_resourcePathText h₂] at hsplit
  simp only [List.cons.injEq, true_and] at hsplit
  have hjoin := congrArg ([slash].intercalate ·) hsplit.2
  rw [List.intercalate_splitOn, List.intercalate_splitOn] at hjoin
  exact ⟨hsplit.1, hjoin⟩

/-- The path of the resource `a` is confined only if the key is a component. -/
theorem PathsConfined.segmentOk (h : PathsConfined records) {key : CString}
    (hmem : ∃ record ∈ records, record.appKey = some key) :
    runtimeResourceSegmentOk key.chars = true := by
  have hpiece : ∀ piece ∈ ([97] : List UInt8).splitOn slash, IsComponent piece := by
    rw [List.splitOn_eq_singleton (by simp [slash])]
    simpa using segmentOk_iff.mp rfl
  obtain ⟨buffer, after, hbuild, hread⟩ := exists_build ⟨[97], by simp⟩ hmem hpiece
  obtain ⟨appKey, resourcePath, built, path, hlocator, hafter, hread', hpath⟩ := h _ _ _ _ hbuild
  obtain ⟨rfl⟩ := hafter
  obtain ⟨-, hresource⟩ := RuntimeResourceLocator.mk.inj (Option.some.inj hlocator)
  obtain rfl := Option.some.inj hresource
  obtain ⟨component, hcomponent, htext⟩ := hpath.package
  rw [hread] at hread'
  rw [← Except.ok.inj hread', resourcePathText_left_inj] at htext
  rw [htext]
  exact segmentOk_iff.mpr hcomponent

/-- On an accepted catalog the paths are confined and distinct exactly if every key passes the check
of a path segment. -/
theorem resourcePaths_confined_iff (records : List RuntimeLoaderRecord)
    (hcatalog : runtimeLoaderValidateCatalog (some records) = true) :
    PathsConfined records ∧ PathsDistinct records ↔
      ∀ record ∈ records, ∃ key, record.appKey = some key ∧
        runtimeResourceSegmentOk key.chars = true := by
  constructor
  · rintro ⟨hconfined, -⟩ record hrecord
    obtain ⟨key, hkey⟩ := validateRecords_appKey hcatalog record hrecord
    exact ⟨key, hkey, hconfined.segmentOk ⟨record, hrecord, hkey⟩⟩
  · intro hkeys
    have hcomponent : ∀ {key : CString}, (∃ record ∈ records, record.appKey = some key) →
        IsComponent key.chars := by
      rintro key ⟨record, hrecord, hkey⟩
      obtain ⟨key', hkey', hok⟩ := hkeys record hrecord
      obtain rfl : key = key' := Option.some.inj (hkey ▸ hkey')
      exact segmentOk_iff.mp hok
    constructor
    · intro locator capacity buffer after h
      obtain ⟨appKey, resourcePath, built, hlocator, hafter, hpieces, hmem, hread⟩ :=
        runtimeResourceBuildPath_eq_ok h
      exact ⟨some appKey, resourcePath, built, _, hlocator, hafter, hread,
        confinedPath_of_component (hcomponent hmem) hpieces⟩
    · intro locator₁ locator₂ capacity₁ capacity₂ buffer₁ after₁ buffer₂ after₂ h₁ h₂ hsame
      obtain ⟨key₁, path₁, built₁, hlocator₁, hafter₁, -, hmem₁, hread₁⟩ :=
        runtimeResourceBuildPath_eq_ok h₁
      obtain ⟨key₂, path₂, built₂, hlocator₂, hafter₂, -, hmem₂, hread₂⟩ :=
        runtimeResourceBuildPath_eq_ok h₂
      obtain ⟨rfl⟩ := hafter₁
      obtain ⟨rfl⟩ := hafter₂
      obtain ⟨rfl⟩ := hlocator₁
      obtain ⟨rfl⟩ := hlocator₂
      rw [hread₁, hread₂] at hsame
      obtain ⟨hkey, hpath⟩ := resourcePathText_inj (hcomponent hmem₁).slash_not_mem
        (hcomponent hmem₂).slash_not_mem (Except.ok.inj hsame)
      rw [CString.ext_chars hkey, CString.ext_chars hpath]

/-- A catalog of one application, `a`. -/
theorem resourcePaths_confined_single :
    PathsConfined [⟨some ⟨[97], by simp⟩, some ⟨[97], by simp⟩, some ⟨[97], by simp⟩,
      some ⟨[97], by simp⟩⟩] ∧
    PathsDistinct [⟨some ⟨[97], by simp⟩, some ⟨[97], by simp⟩, some ⟨[97], by simp⟩,
      some ⟨[97], by simp⟩⟩] := by
  refine (resourcePaths_confined_iff _ (by decide)).mpr ?_
  intro record hrecord
  rw [List.mem_singleton] at hrecord
  exact ⟨⟨[97], by simp⟩, by rw [hrecord], by decide⟩

/-- With the keys `a` and `a/resources/b` a path leaves the directory of its application, and the
resource `b/resources/c` of the first is the resource `c` of the second. -/
theorem resourcePaths_escape : ∃ records, runtimeLoaderValidateCatalog (some records) = true ∧
    ¬PathsConfined records ∧ ¬PathsDistinct records := by
  let first : CString := ⟨[97], by simp⟩
  let second : CString := ⟨[97, 47, 114, 101, 115, 111, 117, 114, 99, 101, 115, 47, 98], by simp⟩
  let record (key : CString) : RuntimeLoaderRecord := ⟨some key, some key, some key, some key⟩
  have hpieces₁ : ∀ piece ∈ ([98, 47, 114, 101, 115, 111, 117, 114, 99, 101, 115, 47, 99] :
      List UInt8).splitOn slash, runtimeResourceSegmentOk piece = true := by decide
  have hpieces₂ : ∀ piece ∈ ([99] : List UInt8).splitOn slash,
      runtimeResourceSegmentOk piece = true := by decide
  refine ⟨[record first, record second], by decide, ?_, ?_⟩
  · intro h
    have hsecond := h.segmentOk ⟨record second, by simp, rfl⟩
    exact absurd hsecond (by decide)
  · intro h
    obtain ⟨buffer₁, after₁, hbuild₁, hread₁⟩ := exists_build
      ⟨[98, 47, 114, 101, 115, 111, 117, 114, 99, 101, 115, 47, 99], by simp⟩
      ⟨record first, List.mem_cons_self, rfl⟩
      fun piece hpiece ↦ segmentOk_iff.mp (hpieces₁ piece hpiece)
    obtain ⟨buffer₂, after₂, hbuild₂, hread₂⟩ := exists_build ⟨[99], by simp⟩
      ⟨record second, List.mem_cons_of_mem _ List.mem_cons_self, rfl⟩
      fun piece hpiece ↦ segmentOk_iff.mp (hpieces₂ piece hpiece)
    have hsame : after₁.read = after₂.read := by
      rw [hread₁, hread₂]
      rfl
    have hlocator := h _ _ _ _ _ _ _ _ hbuild₁ hbuild₂ hsame
    exact absurd (congrArg RuntimeResourceLocator.appKey hlocator) (by simp [first, second])

end Confinement

end TensorOS
