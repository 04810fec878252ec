import Mathlib
import TensorOS.Lib.CString
import TensorOS.Lib.Partiality

/-!
# The runtime file system: data model

`struct runtime_fs` is a flat array of sixteen nodes and a flat array of eight open slots. Nodes
name their parent by index, and an open slot names its node by index; nothing in the types keeps
these indices in range, so a read through one of them may leave the array. Such a read has no
meaning in C. The model makes it a `Fault`, as it does for a loop that never ends, and an operation
returns `Except Fault`: a theorem that an operation answers at all is then part of its statement.

Arrays are functions on `Fin n`, unsigned words are `UInt32`, and `int32_t` statuses are integers.
-/

namespace TensorOS

/-! ## Statuses -/

namespace Status

def ok : Int := 0
def enoent : Int := -2
def ebadf : Int := -9
def eacces : Int := -13
def ebusy : Int := -16
def eexist : Int := -17
def enotdir : Int := -20
def eisdir : Int := -21
def einval : Int := -22
def enospc : Int := -28
def enotempty : Int := -39
def enotsup : Int := -95

end Status

/-- The conversion `(int32_t)x`. -/
def int32 (x : UInt32) : Int := x.toBitVec.toInt

/-! ## Constants of the interface -/

def fileTypeUnknown : UInt32 := 0
def fileTypeRegular : UInt32 := 1
def fileTypeDirectory : UInt32 := 2

def openRead : UInt32 := 1
def openWrite : UInt32 := 2
def openCreate : UInt32 := 4
def openTruncate : UInt32 := 8

def seekSet : UInt32 := 0
def seekCur : UInt32 := 1
def seekEnd : UInt32 := 2

/-- `RUNTIME_FS_FILE_CAPACITY`. -/
def fileCapacity : UInt32 := 256

/-- The character `/`. -/
def slash : UInt8 := 47

/-! ## The state -/

/-- The node array has an index 0, as has a name. -/
instance neZeroSixteen : NeZero 16 := ⟨by decide⟩

/-- The slot array has an index 0. -/
instance neZeroEight : NeZero 8 := ⟨by decide⟩

/-- `struct runtime_fs_node`. -/
structure RuntimeFsNode where
  used : UInt32
  type : UInt32
  parentIndex : UInt32
  ownerPid : UInt32
  mode : UInt32
  sizeBytes : UInt32
  name : Fin 16 → UInt8
  data : Fin 256 → UInt8
  deriving DecidableEq

/-- `struct runtime_fs_open_file`. -/
structure RuntimeFsOpenFile where
  used : UInt32
  nodeIndex : UInt32
  ownerPid : UInt32
  flags : UInt32
  offset : UInt32
  dirCursor : UInt32
  deriving DecidableEq, Repr

/-- `struct runtime_fs`. -/
structure RuntimeFs where
  nodes : Fin 16 → RuntimeFsNode
  openFiles : Fin 8 → RuntimeFsOpenFile
  deriving DecidableEq

/-- `struct runtime_file_stat`. -/
structure RuntimeFileStat where
  type : UInt32
  mode : UInt32
  sizeBytes : UInt32
  deriving DecidableEq, Repr

/-- `struct runtime_dir_entry`. -/
structure RuntimeDirEntry where
  type : UInt32
  name : Fin 16 → UInt8
  deriving DecidableEq

/-- An all-zero node, as zeroed memory holds it. -/
def RuntimeFsNode.zero : RuntimeFsNode where
  used := 0
  type := 0
  parentIndex := 0
  ownerPid := 0
  mode := 0
  sizeBytes := 0
  name := fun _ ↦ 0
  data := fun _ ↦ 0

/-- An all-zero open slot, as zeroed memory holds it and as closing leaves it. -/
def RuntimeFsOpenFile.zero : RuntimeFsOpenFile where
  used := 0
  nodeIndex := 0
  ownerPid := 0
  flags := 0
  offset := 0
  dirCursor := 0

namespace RuntimeFs

/-- Replace one node. -/
def setNode (fs : RuntimeFs) (i : Fin 16) (n : RuntimeFsNode) : RuntimeFs :=
  { fs with nodes := Function.update fs.nodes i n }

/-- Replace one open slot. -/
def setOpen (fs : RuntimeFs) (s : Fin 8) (o : RuntimeFsOpenFile) : RuntimeFs :=
  { fs with openFiles := Function.update fs.openFiles s o }

variable {fs : RuntimeFs} {i j : Fin 16} {s t : Fin 8} {n : RuntimeFsNode} {o : RuntimeFsOpenFile}

@[simp] theorem setNode_openFiles : (fs.setNode i n).openFiles = fs.openFiles := rfl

@[simp] theorem setOpen_nodes : (fs.setOpen s o).nodes = fs.nodes := rfl

@[simp] theorem setNode_nodes_self : (fs.setNode i n).nodes i = n := Function.update_self ..

theorem setNode_nodes_of_ne (h : j ≠ i) : (fs.setNode i n).nodes j = fs.nodes j :=
  Function.update_of_ne h ..

@[simp] theorem setOpen_openFiles_self : (fs.setOpen s o).openFiles s = o :=
  Function.update_self ..

theorem setOpen_openFiles_of_ne (h : t ≠ s) : (fs.setOpen s o).openFiles t = fs.openFiles t :=
  Function.update_of_ne h ..

end RuntimeFs

/-- The index `i` of `fs->nodes[i]`, when nothing has checked it before. -/
def nodeIndexOf (i : UInt32) : Except Fault (Fin 16) :=
  if h : i.toNat < 16 then .ok ⟨i.toNat, h⟩ else .error .outOfBounds

theorem nodeIndexOf_eq_ok {x : UInt32} (h : x.toNat < 16) :
    nodeIndexOf x = .ok ⟨x.toNat, h⟩ := by
  rw [nodeIndexOf, dif_pos h]

/-- A node index survives the trip through a 32-bit word; stated in the form `simp` leaves. -/
@[simp] theorem fin_mod_word (i : Fin 16) : (i : ℕ) % 4294967296 = i :=
  Nat.mod_eq_of_lt (by omega)

@[simp] theorem nodeIndexOf_ofNat (i : Fin 16) : nodeIndexOf (UInt32.ofNat i) = .ok i := by
  rw [nodeIndexOf_eq_ok (by simp)]
  simp

/-! ## Paths

A path argument is a pointer to a terminated string, or null. -/

/-- A terminated string: its characters before the terminator, none of which is zero. -/
structure CString where
  chars : List UInt8
  nonzero : ∀ c ∈ chars, c ≠ 0
  deriving DecidableEq

namespace CString

/-- The string in memory, terminator included. -/
def mem (s : CString) : List UInt8 := s.chars ++ [0]

/-- The character at an index up to the terminator. -/
def charAt (s : CString) (i : ℕ) : UInt8 := s.chars.getD i 0

theorem cstr_mem (s : CString) : cstr s.mem = s.chars := cstr_append_zero s.nonzero []

theorem ext_chars {s t : CString} (h : s.chars = t.chars) : s = t := by
  cases s
  cases t
  simpa using h

end CString

end TensorOS
