import TensorOS.Lib.Partiality
import TensorOS.Lib.Segments

/-!
# The kernel heap

`kmem.c`: a first-fit allocator over an arena of 4096 bytes. Every block has a header, and the
headers are linked in the order of their addresses. A pointer into the arena is its distance from
the start of the arena, and null is `none`. `sizeof(struct kmem_block)` depends on the target and
is a parameter.

The memory of the arena is the headers in it, by their addresses; that the headers in use never
overlap each other or the contents of a block is part of what is proved about the heap. A loop over
the list of blocks has as many rounds as there are addresses, and faults when it is not over by
then.
-/

namespace TensorOS

/-- `struct kmem_block`. -/
structure KmemBlock where
  size : UInt32
  used : UInt32
  next : Option ℕ
  deriving DecidableEq, Repr

/-- The variables of `kmem.c`. -/
structure Kmem where
  block : ℕ → KmemBlock
  head : Option ℕ
  initialized : UInt8
  bytesInUse : UInt32
  peakBytesInUse : UInt32
  allocationCount : UInt32
  freeCount : UInt32
  allocationFailCount : UInt32
  liveAllocations : UInt32
  peakLiveAllocations : UInt32

/-- `KMEM_ALIGNMENT`. -/
def kmemAlignment : UInt32 := 8

/-- `KMEM_ARENA_SIZE`. -/
def kmemArenaSize : UInt32 := 4096

namespace Kmem

/-- The variables at boot. -/
def boot : Kmem where
  block := fun _ ↦ ⟨0, 0, none⟩
  head := none
  initialized := 0
  bytesInUse := 0
  peakBytesInUse := 0
  allocationCount := 0
  freeCount := 0
  allocationFailCount := 0
  liveAllocations := 0
  peakLiveAllocations := 0

/-- Write the header of a block. -/
def setBlock (m : Kmem) (address : ℕ) (b : KmemBlock) : Kmem :=
  { m with block := Function.update m.block address b }

end Kmem

/-- `kmem_align_up`. -/
def kmemAlignUp (value : UInt32) : UInt32 :=
  (value + (kmemAlignment - 1)) &&& ~~~(kmemAlignment - 1)

section

variable (sizeofBlock : UInt32)

/-- `kmem_init`. -/
def kmemInit (m : Kmem) : Kmem :=
  if m.initialized ≠ 0 then m
  else
    { m.setBlock 0 ⟨kmemArenaSize - sizeofBlock, 0, none⟩ with
      head := some 0
      initialized := 1
      bytesInUse := 0
      peakBytesInUse := 0
      allocationCount := 0
      freeCount := 0
      allocationFailCount := 0
      liveAllocations := 0
      peakLiveAllocations := 0 }

/-- `kmem_split_block`. -/
def kmemSplitBlock (m : Kmem) (address : ℕ) (size : UInt32) : Kmem :=
  let b := m.block address
  let remaining := b.size - size
  if remaining ≤ sizeofBlock + kmemAlignment then m
  else
    let next := address + sizeofBlock.toNat + size.toNat
    let m := m.setBlock next ⟨remaining - sizeofBlock, 0, b.next⟩
    m.setBlock address { m.block address with size := size, next := some next }

/-- The loop of `kmem_alloc`, up to the first block that is free and large enough. -/
def kmemFirstFit (m : Kmem) (alignedSize : UInt32) : ℕ → Option ℕ → Except Fault (Option ℕ)
  | _, none => .ok none
  | 0, some _ => .error .diverges
  | fuel + 1, some address =>
    if (m.block address).used = 0 ∧ (m.block address).size ≥ alignedSize then .ok (some address)
    else kmemFirstFit m alignedSize fuel (m.block address).next

/-- What `kmem_alloc` does with the block it has found. -/
def kmemTake (m : Kmem) (address : ℕ) (alignedSize : UInt32) : Kmem :=
  let m := kmemSplitBlock sizeofBlock m address alignedSize
  let m := m.setBlock address { m.block address with used := 1 }
  let bytesInUse := m.bytesInUse + (m.block address).size
  let liveAllocations := m.liveAllocations + 1
  { m with
    bytesInUse := bytesInUse
    peakBytesInUse := if bytesInUse > m.peakBytesInUse then bytesInUse else m.peakBytesInUse
    allocationCount := m.allocationCount + 1
    liveAllocations := liveAllocations
    peakLiveAllocations :=
      if liveAllocations > m.peakLiveAllocations then liveAllocations else m.peakLiveAllocations }

/-- `kmem_alloc`, with the pointer it returns. -/
def kmemAlloc (m : Kmem) (size : UInt32) : Except Fault (Kmem × Option ℕ) :=
  let m := kmemInit sizeofBlock m
  if size = 0 then .ok ({ m with allocationFailCount := m.allocationFailCount + 1 }, none)
  else do
    let alignedSize := kmemAlignUp size
    match ← kmemFirstFit m alignedSize kmemArenaSize.toNat m.head with
    | some address =>
      .ok (kmemTake sizeofBlock m address alignedSize, some (address + sizeofBlock.toNat))
    | none => .ok ({ m with allocationFailCount := m.allocationFailCount + 1 }, none)

/-- The loops of `kmem_coalesce`. A round of the inner loop merges a block with its successor and
stays at the block; when it is over, the outer loop goes on with the next block. -/
def kmemCoalesceFrom : ℕ → Kmem → Option ℕ → Except Fault Kmem
  | _, m, none => .ok m
  | 0, _, some _ => .error .diverges
  | fuel + 1, m, some address =>
    let b := m.block address
    match b.next with
    | none => .ok m
    | some next =>
      if b.used = 0 ∧ (m.block next).used = 0 then
        kmemCoalesceFrom fuel (m.setBlock address { b with
          size := b.size + (sizeofBlock + (m.block next).size)
          next := (m.block next).next }) (some address)
      else kmemCoalesceFrom fuel m (some next)

/-- `kmem_coalesce`. -/
def kmemCoalesce (m : Kmem) : Except Fault Kmem :=
  kmemCoalesceFrom sizeofBlock kmemArenaSize.toNat m m.head

/-- `kmem_free`. The header is the one in front of the pointer. -/
def kmemFree (m : Kmem) : Option ℕ → Except Fault Kmem
  | none => .ok m
  | some pointer =>
    let address := pointer - sizeofBlock.toNat
    let b := m.block address
    if b.used = 0 then .ok m
    else
      let m := m.setBlock address { b with used := 0 }
      kmemCoalesce sizeofBlock { m with
        bytesInUse := if m.bytesInUse ≥ b.size then m.bytesInUse - b.size else 0
        liveAllocations :=
          if m.liveAllocations ≠ 0 then m.liveAllocations - 1 else m.liveAllocations
        freeCount := m.freeCount + 1 }

/-- The blocks of the list, from a pointer on. -/
def kmemWalk (m : Kmem) : ℕ → Option ℕ → Except Fault (List ℕ)
  | _, none => .ok []
  | 0, some _ => .error .diverges
  | fuel + 1, some address => do .ok (address :: (← kmemWalk m fuel (m.block address).next))

/-- A loop over the list of blocks that only reads. -/
def kmemForBlocks {α : Type} (m : Kmem) (body : α → KmemBlock → α) (start : α) :
    Except Fault α := do
  let addresses ← kmemWalk m kmemArenaSize.toNat m.head
  .ok (addresses.foldl (fun acc address ↦ body acc (m.block address)) start)

/-- `struct kmem_stats`. -/
structure KmemStats where
  arenaCapacityBytes : UInt32
  freeBytes : UInt32
  largestFreeBlock : UInt32
  bytesInUse : UInt32
  peakBytesInUse : UInt32
  allocationCount : UInt32
  freeCount : UInt32
  allocationFailCount : UInt32
  liveAllocations : UInt32
  peakLiveAllocations : UInt32
  blockCount : UInt32
  freeBlockCount : UInt32
  usedBlockCount : UInt32
  deriving DecidableEq, Repr

/-- A round of the loop of `kmem_stats_snapshot`. -/
def KmemStats.count (stats : KmemStats) (b : KmemBlock) : KmemStats :=
  let stats := { stats with blockCount := stats.blockCount + 1 }
  if b.used = 0 then
    { stats with
      freeBlockCount := stats.freeBlockCount + 1
      freeBytes := stats.freeBytes + b.size
      largestFreeBlock :=
        if b.size > stats.largestFreeBlock then b.size else stats.largestFreeBlock }
  else { stats with usedBlockCount := stats.usedBlockCount + 1 }

/-- `kmem_stats_snapshot`. -/
def kmemStatsSnapshot (m : Kmem) : Except Fault KmemStats :=
  let m := kmemInit sizeofBlock m
  kmemForBlocks m KmemStats.count
    { arenaCapacityBytes := kmemArenaSize - sizeofBlock
      freeBytes := 0
      largestFreeBlock := 0
      bytesInUse := m.bytesInUse
      peakBytesInUse := m.peakBytesInUse
      allocationCount := m.allocationCount
      freeCount := m.freeCount
      allocationFailCount := m.allocationFailCount
      liveAllocations := m.liveAllocations
      peakLiveAllocations := m.peakLiveAllocations
      blockCount := 0
      freeBlockCount := 0
      usedBlockCount := 0 }

end

end TensorOS
