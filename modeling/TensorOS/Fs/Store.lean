import TensorOS.Fs.Content
import TensorOS.Lib.PathTree

/-!
# The file system as its users see it

A store maps paths to directories and files and has eight handles, each on a path. It has no nodes,
no indices and no arrays: which path there is, who owns it and what a file holds decide the answer
of every call. This is what the file system is for, said without `runtime_fs.c`; that the file
system behaves so is the subject of the modules on its view.

Two calls keep a habit of the code that a store need not have: an open truncates before it finds out
that it may not open, and one that creates leaves the file behind when it fails later.

The order in which a directory is listed is not part of a store, nor how far a listing has come. So
a listing is a relation, which only says that what is listed is there. That nothing is left out is a
matter of the nodes and of the position in a slot (`Fs.Scan`).
-/

namespace TensorOS

/-- The names of a path. -/
def CString.names (path : CString) : List (List UInt8) := components slash path.chars

/-- What a path leads to. -/
inductive FileKind
  | directory
  | regular (contents : List UInt8)
  deriving DecidableEq

namespace FileKind

/-- The type that the interface reports. -/
def type : FileKind → UInt32
  | directory => fileTypeDirectory
  | regular _ => fileTypeRegular

def contents : FileKind → List UInt8
  | directory => []
  | regular contents => contents

@[simp] theorem type_eq_directory {k : FileKind} : k.type = fileTypeDirectory ↔ k = directory := by
  cases k with
  | directory => simp [type]
  | regular contents => simp [type, fileTypeRegular, fileTypeDirectory]

end FileKind

/-- A file or directory with its owner and its permissions. -/
structure FileEntry where
  owner : UInt32
  mode : UInt32
  kind : FileKind
  deriving DecidableEq

namespace FileEntry

/-- A process may change what it owns and what nobody owns; process 0 may change everything. -/
def allows (e : FileEntry) (pid : UInt32) : Bool := e.owner = 0 ∨ pid = 0 ∨ e.owner = pid

/-- Whether the flags of an open suit the entry. -/
def modeCheck (e : FileEntry) (flags : UInt32) : Int :=
  if e.kind = .directory ∧ flags &&& openWrite ≠ 0 then Status.eisdir
  else if flags &&& openWrite ≠ 0 ∧ e.mode &&& 146 = 0 then Status.ebadf
  else if flags &&& openRead ≠ 0 ∧ e.mode &&& 292 = 0 then Status.ebadf
  else Status.ok

end FileEntry

/-- An open file: its path, the flags it was opened with and the position. -/
structure FileHandle where
  path : List (List UInt8)
  flags : UInt32
  offset : ℕ
  deriving DecidableEq

/-- A tree of paths, and the handles. -/
structure FileStore where
  tree : PathTree (List UInt8) FileEntry
  handles : Fin 8 → Option FileHandle

namespace FileStore

variable (S : FileStore)

/-- The empty store: a root that nobody owns. -/
def init : FileStore where
  tree := Function.update (fun _ ↦ none) [] (some ⟨0, 493, .directory⟩)
  handles := fun _ ↦ none

def put (names : List (List UInt8)) (e : FileEntry) : FileStore :=
  { S with tree := Function.update S.tree names (some e) }

def erase (names : List (List UInt8)) : FileStore :=
  { S with tree := Function.update S.tree names none }

/-- Everything at and below `old`, and every handle on it, is at and below `new`. -/
def move (old new : List (List UInt8)) : FileStore where
  tree := S.tree.move old new
  handles := fun s ↦ (S.handles s).map fun h ↦ { h with path := movePath old new h.path }

def setHandle (s : Fin 8) (h : Option FileHandle) : FileStore :=
  { S with handles := Function.update S.handles s h }

/-! ## Questions -/

/-- The store holds the root and fifteen other entries. -/
def Full : Prop := {names | S.tree names ≠ none}.ncard = 16

def HasChildren (names : List (List UInt8)) : Prop := ∃ name, S.tree (names ++ [name]) ≠ none

/-- Whether the process may change what is at the path. -/
def allows (names : List (List UInt8)) (pid : UInt32) : Bool := (S.tree names).any (·.allows pid)

def isOpen (names : List (List UInt8)) : Bool :=
  (List.finRange 8).any fun s ↦ (S.handles s).any fun h ↦ h.path = names

def hasWriter (names : List (List UInt8)) : Bool :=
  (List.finRange 8).any fun s ↦ (S.handles s).any fun h ↦
    h.path = names ∧ h.flags &&& openWrite ≠ 0

def freeHandle : Option (Fin 8) := (List.finRange 8).find? fun s ↦ (S.handles s).isNone

theorem object_lt {object : UInt32} (h : object ≠ 0 ∧ object.toNat ≤ 8) :
    object.toNat - 1 < 8 := by
  omega

/-- The handle that a file object stands for, with the entry it is on. -/
def lookup (object : UInt32) : Option (Fin 8 × FileHandle × FileEntry) :=
  if h : object ≠ 0 ∧ object.toNat ≤ 8 then
    let s : Fin 8 := ⟨object.toNat - 1, object_lt h⟩
    (S.handles s).bind fun handle ↦ (S.tree handle.path).map fun e ↦ (s, handle, e)
  else none

/-- The way down to a last name: `tok` is the name read last, below `before`. -/
def parentWalk (before : List (List UInt8)) (tok : List UInt8) :
    List (List UInt8) → Except Int (List (List UInt8))
  | [] => .ok before
  | next :: rest =>
    if 16 ≤ next.length then .error Status.einval
    else
      match S.tree (before ++ [tok]) with
      | none => .error Status.enoent
      | some e =>
        if e.kind = .directory then parentWalk (before ++ [tok]) next rest
        else .error Status.enotdir

/-- The names before the last, if they lead to a directory and every name fits. -/
def parent : List (List UInt8) → Except Int (List (List UInt8))
  | [] => .error Status.einval
  | tok :: rest => if 16 ≤ tok.length then .error Status.einval else S.parentWalk [] tok rest

/-! ## Calls -/

open Classical in
/-- The reason why nothing can be created at the path, if there is one. -/
noncomputable def createRefusal (pid : UInt32) (names : List (List UInt8)) : Option Int :=
  match S.parent names with
  | .error status => some status
  | .ok before =>
    if S.allows before pid = false then some Status.eacces
    else if S.Full then some Status.enospc
    else none

noncomputable def mkdir (pid : UInt32) (path : Option CString) (mode : UInt32) : Int × FileStore :=
  match path with
  | none => (Status.einval, S)
  | some p =>
    if p.charAt 0 ≠ slash ∨ p.charAt 1 = 0 then (Status.einval, S)
    else if S.tree p.names ≠ none then (Status.eexist, S)
    else
      match S.createRefusal pid p.names with
      | some status => (status, S)
      | none => (Status.ok, S.put p.names ⟨pid, mode, .directory⟩)

/-- The entry that an open works on, created when there is none and the flags ask for it. -/
noncomputable def openResolve (pid : UInt32) (names : List (List UInt8)) (flags : UInt32) :
    Except Int (FileEntry × FileStore) :=
  match S.tree names with
  | some e => .ok (e, S)
  | none =>
    if flags &&& openCreate = 0 then .error Status.enoent
    else
      match S.createRefusal pid names with
      | some status => .error status
      | none => .ok (⟨pid, 420, .regular []⟩, S.put names ⟨pid, 420, .regular []⟩)

def truncate (names : List (List UInt8)) (e : FileEntry) (flags : UInt32) : FileStore :=
  if flags &&& openTruncate ≠ 0 ∧ e.kind ≠ .directory then
    S.put names { e with kind := .regular [] }
  else S

/-- An open of the entry at the path. The last component is what is stored as the file object. -/
def openEntry (pid : UInt32) (names : List (List UInt8)) (e : FileEntry) (flags : UInt32) :
    Int × FileStore × Option UInt32 :=
  let status := e.modeCheck flags
  if status ≠ Status.ok then (status, S, none)
  else
    let S := S.truncate names e flags
    if flags &&& openWrite ≠ 0 ∧ S.hasWriter names then (Status.ebusy, S, none)
    else if flags &&& (openWrite ||| openTruncate) ≠ 0 ∧ e.allows pid = false then
      (Status.eacces, S, none)
    else
      match S.freeHandle with
      | none => (Status.enospc, S, some (UInt32.ofInt Status.enospc))
      | some s =>
        (Status.ok, S.setHandle s (some ⟨names, flags, 0⟩), some (UInt32.ofNat ((s : ℕ) + 1)))

noncomputable def «open» (pid : UInt32) (path : Option CString) (flags : UInt32)
    (object : Option UInt32) : Int × FileStore × Option UInt32 :=
  match path, object with
  | some p, some o =>
    if p.charAt 0 ≠ slash then (Status.einval, S, object)
    else
      match S.openResolve pid p.names flags with
      | .error status => (status, S, object)
      | .ok (e, S') =>
        let (status, S'', stored) := S'.openEntry pid p.names e flags
        (status, S'', some (stored.getD o))
  | _, _ => (Status.einval, S, object)

def read (object : UInt32) (buffer : Option (ℕ → UInt8)) (size : UInt32) :
    Int × FileStore × Option (ℕ → UInt8) :=
  match buffer, S.lookup object with
  | some bytes, some (s, h, e) =>
    if h.flags &&& openRead = 0 then (Status.ebadf, S, buffer)
    else
      match e.kind with
      | .directory => (Status.eisdir, S, buffer)
      | .regular contents =>
        let got := (contents.drop h.offset).take size.toNat
        (got.length, S.setHandle s (some { h with offset := h.offset + got.length }),
          some fun i ↦ got.getD i (bytes i))
  | _, _ => (Status.ebadf, S, buffer)

def write (object : UInt32) (buffer : Option (ℕ → UInt8)) (size : UInt32) : Int × FileStore :=
  match buffer, S.lookup object with
  | some bytes, some (s, h, e) =>
    if h.flags &&& openWrite = 0 then (Status.ebadf, S)
    else
      match e.kind with
      | .directory => (Status.eisdir, S)
      | .regular contents =>
        if 256 < h.offset + size.toNat then (Status.enospc, S)
        else
          (size.toNat, (S.put h.path { e with
              kind := .regular (writeAt contents h.offset (bytesOf bytes size.toNat)) }).setHandle s
            (some { h with offset := h.offset + size.toNat }))
  | _, _ => (Status.ebadf, S)

def close (object : UInt32) : Int × FileStore :=
  match S.lookup object with
  | none => (Status.ebadf, S)
  | some (s, _) => (Status.ok, S.setHandle s none)

def stat (object : UInt32) (stat : Option RuntimeFileStat) : Int × Option RuntimeFileStat :=
  match stat, S.lookup object with
  | some _, some (_, _, e) =>
    (Status.ok, some ⟨e.kind.type, e.mode, UInt32.ofNat e.kind.contents.length⟩)
  | _, _ => (Status.ebadf, stat)

def seek (object : UInt32) (offset : Int32) (whence : UInt32) : Int × FileStore :=
  match S.lookup object with
  | none => (Status.ebadf, S)
  | some (s, h, e) =>
    match e.kind with
    | .directory => (Status.eisdir, S)
    | .regular contents =>
      match whenceOf whence with
      | none => (Status.einval, S)
      | some w =>
        let target := w.base h.offset contents.length + offset.toInt
        if target < 0 ∨ 256 < target then (Status.einval, S)
        else (target, S.setHandle s (some { h with offset := target.toNat }))

open Classical in
noncomputable def remove (pid : UInt32) (path : Option CString) : Int × FileStore :=
  match path with
  | none => (Status.einval, S)
  | some p =>
    if p.charAt 0 ≠ slash then (Status.einval, S)
    else if p.charAt 1 = 0 then (Status.ebusy, S)
    else if S.tree p.names = none then (Status.enoent, S)
    else if S.allows p.names pid = false ∨ S.allows p.names.dropLast pid = false then
      (Status.eacces, S)
    else if S.isOpen p.names then (Status.ebusy, S)
    else if S.HasChildren p.names then (Status.enotempty, S)
    else (Status.ok, S.erase p.names)

def rename (pid : UInt32) (oldPath newPath : Option CString) : Int × FileStore :=
  match oldPath, newPath with
  | some p, some q =>
    if p.charAt 0 ≠ slash ∨ q.charAt 0 ≠ slash then (Status.einval, S)
    else if p = q then (Status.ok, S)
    else if p.charAt 1 = 0 ∨ q.charAt 1 = 0 then (Status.ebusy, S)
    else if S.tree p.names = none then (Status.enoent, S)
    else if S.tree q.names ≠ none then (Status.eexist, S)
    else
      match S.parent q.names with
      | .error status => (status, S)
      | .ok before =>
        if S.allows p.names pid = false ∨ S.allows p.names.dropLast pid = false ∨
            S.allows before pid = false then (Status.eacces, S)
        else if p.names <+: q.names then (Status.einval, S)
        else (Status.ok, S.move p.names q.names)
  | _, _ => (Status.einval, S)

/-- What a listing may answer: an error, the end, or some entry of the directory. When it comes to
the end is left open. -/
inductive Lists (S : FileStore) (object : UInt32) :
    Option RuntimeDirEntry → Int → Option RuntimeDirEntry → Prop
  | null : Lists S object none Status.ebadf none
  | closed {entry : Option RuntimeDirEntry} : S.lookup object = none →
      Lists S object entry Status.ebadf entry
  | unreadable {entry : Option RuntimeDirEntry} {s : Fin 8} {h : FileHandle} {e : FileEntry} :
      S.lookup object = some (s, h, e) → h.flags &&& openRead = 0 →
      Lists S object entry Status.ebadf entry
  | notDirectory {entry : RuntimeDirEntry} {s : Fin 8} {h : FileHandle} {e : FileEntry} :
      S.lookup object = some (s, h, e) → h.flags &&& openRead ≠ 0 → e.kind ≠ .directory →
      Lists S object (some entry) Status.enotdir (some entry)
  | finished {entry : RuntimeDirEntry} {s : Fin 8} {h : FileHandle} {e : FileEntry} :
      S.lookup object = some (s, h, e) → h.flags &&& openRead ≠ 0 → e.kind = .directory →
      Lists S object (some entry) 0 (some entry)
  /-- The entry is one of the directory, or the root itself in a listing of the root. -/
  | found {entry entry' : RuntimeDirEntry} {s : Fin 8} {h : FileHandle} {e below : FileEntry} :
      S.lookup object = some (s, h, e) → h.flags &&& openRead ≠ 0 → e.kind = .directory →
      entry'.type = below.kind.type →
      S.tree (h.path ++ [cstr (List.ofFn entry'.name)]) = some below ∨
        h.path = [] ∧ cstr (List.ofFn entry'.name) = [slash] ∧ below = e →
      Lists S object (some entry) 1 (some entry')

end FileStore

/-! ## Answers -/

/-- What a call answers: its status, and the objects its pointers lead to after it. -/
structure FsAnswer where
  status : Int
  fileObject : Option UInt32
  buffer : Option (ℕ → UInt8)
  stat : Option RuntimeFileStat
  entry : Option RuntimeDirEntry

/-- The answer of a call that stores nothing. -/
def FsAnswer.plain (status : Int) : FsAnswer := ⟨status, none, none, none, none⟩

/-- The answer of a call and the file system after it. -/
def FsCall.answer (fs : RuntimeFs) : FsCall → Except Fault (FsAnswer × RuntimeFs)
  | mkdir pid path mode => do
    let (status, fs') ← runtimeFsMkdir fs pid path mode
    .ok (.plain status, fs')
  | .open pid path flags fileObject => do
    let (status, fs', object) ← runtimeFsOpen fs pid path flags fileObject
    .ok ({ FsAnswer.plain status with fileObject := object }, fs')
  | read fileObject buffer size => do
    let (status, fs', bytes) ← runtimeFsRead fs fileObject buffer size
    .ok ({ FsAnswer.plain status with buffer := bytes }, fs')
  | write fileObject buffer size => do
    let (status, fs') ← runtimeFsWrite fs fileObject buffer size
    .ok (.plain status, fs')
  | close fileObject =>
    .ok (.plain (runtimeFsClose fs fileObject).1, (runtimeFsClose fs fileObject).2)
  | stat fileObject st => do
    let (status, fs', st') ← runtimeFsStat fs fileObject st
    .ok ({ FsAnswer.plain status with stat := st' }, fs')
  | readdir fileObject entry => do
    let (status, fs', entry') ← runtimeFsReaddir fs fileObject entry
    .ok ({ FsAnswer.plain status with entry := entry' }, fs')
  | seek fileObject offset whence => do
    let (status, fs') ← runtimeFsSeek fs fileObject offset whence
    .ok (.plain status, fs')
  | remove pid path => do
    let (status, fs') ← runtimeFsRemove fs pid path
    .ok (.plain status, fs')
  | rename pid oldPath newPath => do
    let (status, fs') ← runtimeFsRename fs pid oldPath newPath
    .ok (.plain status, fs')

namespace FileStore

/-- One call on a store, with what it answers. -/
inductive Step (S : FileStore) : FsCall → FsAnswer → FileStore → Prop
  | mkdir {pid mode : UInt32} {path : Option CString} :
      Step S (.mkdir pid path mode) (.plain (S.mkdir pid path mode).1) (S.mkdir pid path mode).2
  | open {pid flags : UInt32} {path : Option CString} {object : Option UInt32} :
      Step S (.open pid path flags object)
        { FsAnswer.plain (S.open pid path flags object).1 with
          fileObject := (S.open pid path flags object).2.2 } (S.open pid path flags object).2.1
  | read {object size : UInt32} {buffer : Option (ℕ → UInt8)} :
      Step S (.read object buffer size)
        { FsAnswer.plain (S.read object buffer size).1 with
          buffer := (S.read object buffer size).2.2 } (S.read object buffer size).2.1
  | write {object size : UInt32} {buffer : Option (ℕ → UInt8)} :
      Step S (.write object buffer size) (.plain (S.write object buffer size).1)
        (S.write object buffer size).2
  | close {object : UInt32} :
      Step S (.close object) (.plain (S.close object).1) (S.close object).2
  | stat {object : UInt32} {st : Option RuntimeFileStat} :
      Step S (.stat object st)
        { FsAnswer.plain (S.stat object st).1 with stat := (S.stat object st).2 } S
  | readdir {object : UInt32} {entry entry' : Option RuntimeDirEntry} {status : Int} :
      S.Lists object entry status entry' →
      Step S (.readdir object entry) { FsAnswer.plain status with entry := entry' } S
  | seek {object whence : UInt32} {offset : Int32} :
      Step S (.seek object offset whence) (.plain (S.seek object offset whence).1)
        (S.seek object offset whence).2
  | remove {pid : UInt32} {path : Option CString} :
      Step S (.remove pid path) (.plain (S.remove pid path).1) (S.remove pid path).2
  | rename {pid : UInt32} {oldPath newPath : Option CString} :
      Step S (.rename pid oldPath newPath) (.plain (S.rename pid oldPath newPath).1)
        (S.rename pid oldPath newPath).2

/-- A sequence of calls on a store, with what they answer. -/
inductive Run : FileStore → List (FsCall × FsAnswer) → FileStore → Prop
  | nil {S : FileStore} : Run S [] S
  | cons {S S' S'' : FileStore} {call : FsCall} {a : FsAnswer} {rest : List (FsCall × FsAnswer)} :
      S.Step call a S' → Run S' rest S'' → Run S ((call, a) :: rest) S''

end FileStore

end TensorOS
