import TensorOS.Lib.Transition
import TensorOS.Mem.Heap

/-!
# Runs of the kernel heap

A run is any sequence of `kmem_alloc` with sizes that can be rounded up, and `kmem_free` of null or
of a pointer that is live. `KmemHistory` goes with the heap what the callers hold and what the
counters were after each call; the invariant relates them to the row of blocks.
-/

namespace TensorOS

section

variable {sizeofBlock : UInt32} {m : Kmem} {row : List Segment}

/-! ## Calls -/

/-- What `kmem_alloc` does: it fails and leaves the blocks alone, or it takes a block. -/
theorem kmemAlloc_cases (hpos : 0 < sizeofBlock.toNat)
    (h : HeapOk sizeofBlock (kmemInit sizeofBlock m) row) (size : UInt32) :
    ((size = 0 ∨ ∀ c ∈ row, c.used = false → c.size < (kmemAlignUp size).toNat) ∧
      kmemAlloc sizeofBlock m size = .ok ({ kmemInit sizeofBlock m with
        allocationFailCount := (kmemInit sizeofBlock m).allocationFailCount + 1 }, none)) ∨
    ∃ front c back, row = front ++ c :: back ∧ size ≠ 0 ∧ c.used = false ∧
      (kmemAlignUp size).toNat ≤ c.size ∧
      kmemAlloc sizeofBlock m size = .ok (kmemTake sizeofBlock (kmemInit sizeofBlock m)
        (extent sizeofBlock.toNat front) (kmemAlignUp size),
        some (extent sizeofBlock.toNat front + sizeofBlock.toNat)) := by
  rw [kmemAlloc]
  by_cases hzero : size = 0
  · exact Or.inl ⟨Or.inl hzero, if_pos hzero⟩
  · have hlength : row.length ≤ kmemArenaSize.toNat := (length_le_extent hpos row).trans_eq h.full
    dsimp only
    rw [if_neg hzero, h.head]
    rcases kmemFirstFit_spec (kmemAlignUp size) h.laid hlength with
      ⟨hfit, hall⟩ | ⟨front, c, back, rfl, hfree, hn, hfit⟩
    · rw [hfit]
      exact Or.inl ⟨Or.inr hall, rfl⟩
    · rw [hfit, Nat.zero_add]
      exact Or.inr ⟨front, c, back, rfl, hzero, hfree, hn, rfl⟩

theorem kmemAlloc_spec (hpos : 0 < sizeofBlock.toNat)
    (h : HeapOk sizeofBlock (kmemInit sizeofBlock m) row) {size : UInt32}
    (hsize : size.toNat ≤ 2 ^ 32 - 8) :
    ((size = 0 ∨ ∀ c ∈ row, c.used = false → c.size < (size.toNat + 7) / 8 * 8) ∧
      kmemAlloc sizeofBlock m size = .ok ({ kmemInit sizeofBlock m with
        allocationFailCount := (kmemInit sizeofBlock m).allocationFailCount + 1 }, none)) ∨
    ∃ front c back, row = front ++ c :: back ∧ size ≠ 0 ∧ c.used = false ∧
      (size.toNat + 7) / 8 * 8 ≤ c.size ∧
      kmemAlloc sizeofBlock m size = .ok (kmemTake sizeofBlock (kmemInit sizeofBlock m)
        (extent sizeofBlock.toNat front) (kmemAlignUp size),
        some (extent sizeofBlock.toNat front + sizeofBlock.toNat)) := by
  rw [← toNat_kmemAlignUp hsize]
  exact kmemAlloc_cases hpos h size

/-- A loop over the blocks visits the places of the row. -/
theorem kmemWalk_eq {first : Option ℕ} {a fuel : ℕ}
    (h : LaidTo sizeofBlock.toNat m.headerAt first a row none) (hfuel : row.length ≤ fuel) :
    kmemWalk m fuel first = .ok ((starts sizeofBlock.toNat a row).map Prod.fst) := by
  induction row generalizing first a fuel with
  | nil =>
    obtain rfl : first = none := h
    cases fuel <;> rfl
  | cons c row ih =>
    obtain ⟨rfl, hsize, hused, hrow⟩ := h
    obtain ⟨fuel, rfl⟩ : ∃ k, fuel = k + 1 := ⟨fuel - 1, by simp at hfuel; omega⟩
    have hwalk : kmemWalk m fuel (m.block a).next = _ := ih hrow (by simpa using hfuel)
    rw [kmemWalk, hwalk]
    rfl

theorem HeapOk.walk_eq (hpos : 0 < sizeofBlock.toNat) (h : HeapOk sizeofBlock m row) :
    kmemWalk m kmemArenaSize.toNat m.head
      = .ok ((starts sizeofBlock.toNat 0 row).map Prod.fst) := by
  rw [h.head]
  exact kmemWalk_eq h.laid ((length_le_extent hpos row).trans_eq h.full)

/-! ## Statistics -/

/-- The sizes of the free segments. -/
def freeSizes (row : List Segment) : List ℕ := (row.filter fun c ↦ !c.used).map Segment.size

/-- The numbers the loop of `kmem_stats_snapshot` works out. -/
structure Counted (stats stats' : KmemStats) (row : List Segment) : Prop where
  blockCount : stats'.blockCount.toNat = stats.blockCount.toNat + row.length
  freeBlockCount : stats'.freeBlockCount.toNat = stats.freeBlockCount.toNat + (freeSizes row).length
  usedBlockCount : stats'.usedBlockCount.toNat
    = stats.usedBlockCount.toNat + (row.filter Segment.used).length
  freeBytes : stats'.freeBytes.toNat = stats.freeBytes.toNat + (freeSizes row).sum
  largest : stats'.largestFreeBlock.toNat
    = max stats.largestFreeBlock.toNat ((freeSizes row).foldr max 0)
  rest : stats' = { stats with
    blockCount := stats'.blockCount
    freeBlockCount := stats'.freeBlockCount
    usedBlockCount := stats'.usedBlockCount
    freeBytes := stats'.freeBytes
    largestFreeBlock := stats'.largestFreeBlock }

theorem freeSizes_cons (c : Segment) (row : List Segment) :
    freeSizes (c :: row) = if c.used then freeSizes row else c.size :: freeSizes row := by
  cases hc : c.used <;> simp [freeSizes, hc]

/-- The counters have room for what is still to be counted. -/
def KmemStats.HasRoom (stats : KmemStats) (n : ℕ) : Prop :=
  stats.blockCount.toNat + n ≤ 4096 ∧ stats.freeBlockCount.toNat + n ≤ 4096 ∧
    stats.usedBlockCount.toNat + n ≤ 4096 ∧ stats.freeBytes.toNat + n ≤ 4096

theorem toNat_add_one_of_le {x : UInt32} (h : x.toNat + 1 ≤ 4096) :
    (x + 1).toNat = x.toNat + 1 := by
  rw [UInt32.toNat_add, Nat.mod_eq_of_lt]
  · rfl
  · change x.toNat + 1 < 2 ^ 32
    omega

theorem counted_used {b : KmemBlock} {c : Segment} (hc : c.used = true) (hused : ¬b.used = 0)
    {stats : KmemStats} {n : ℕ} (hroom : stats.HasRoom (sizeofBlock.toNat + c.size + n))
    (hpos : 0 < sizeofBlock.toNat) :
    Counted stats (stats.count b) [c] ∧ (stats.count b).HasRoom n := by
  obtain ⟨hblock, hfree, hinuse, hbytes⟩ := hroom
  have hblock' := toNat_add_one_of_le (x := stats.blockCount) (by omega)
  have hinuse' := toNat_add_one_of_le (x := stats.usedBlockCount) (by omega)
  have hsizes : freeSizes [c] = [] := by rw [freeSizes_cons, hc]; rfl
  rw [KmemStats.count, if_neg hused]
  refine ⟨⟨hblock', by rw [hsizes]; rfl, ?_, by rw [hsizes]; rfl, by rw [hsizes]; simp, rfl⟩,
    ?_, ?_, ?_, ?_⟩
  · simpa [hc] using hinuse'
  · change (stats.blockCount + 1).toNat + n ≤ 4096
    omega
  · change stats.freeBlockCount.toNat + n ≤ 4096
    omega
  · change (stats.usedBlockCount + 1).toNat + n ≤ 4096
    omega
  · change stats.freeBytes.toNat + n ≤ 4096
    omega

theorem counted_free {b : KmemBlock} {c : Segment} (hc : c.used = false) (hfree : b.used = 0)
    (hsize : b.size.toNat = c.size) {stats : KmemStats} {n : ℕ}
    (hroom : stats.HasRoom (sizeofBlock.toNat + c.size + n)) (hpos : 0 < sizeofBlock.toNat) :
    Counted stats (stats.count b) [c] ∧ (stats.count b).HasRoom n := by
  obtain ⟨hblock, hfrees, hinuse, hbytes⟩ := hroom
  have hblock' := toNat_add_one_of_le (x := stats.blockCount) (by omega)
  have hfrees' := toNat_add_one_of_le (x := stats.freeBlockCount) (by omega)
  have hbytes' : (stats.freeBytes + b.size).toNat = stats.freeBytes.toNat + c.size := by
    rw [UInt32.toNat_add, hsize, Nat.mod_eq_of_lt]
    omega
  have hsizes : freeSizes [c] = [c.size] := by rw [freeSizes_cons, hc]; rfl
  rw [KmemStats.count, if_pos hfree]
  refine ⟨⟨hblock', ?_, by simp [hc], ?_, ?_, rfl⟩, ?_, ?_, ?_, ?_⟩
  · rw [hsizes]
    exact hfrees'
  · rw [hsizes]
    simpa using hbytes'
  · rw [hsizes]
    simp only [List.foldr_cons, List.foldr_nil, Nat.max_zero, gt_iff_lt, UInt32.lt_iff_toNat_lt,
      hsize]
    split
    · rw [hsize]
      omega
    · omega
  · change (stats.blockCount + 1).toNat + n ≤ 4096
    omega
  · change (stats.freeBlockCount + 1).toNat + n ≤ 4096
    omega
  · change stats.usedBlockCount.toNat + n ≤ 4096
    omega
  · change (stats.freeBytes + b.size).toNat + n ≤ 4096
    omega

theorem counted_one (hpos : 0 < sizeofBlock.toNat) {b : KmemBlock} {c : Segment}
    (hsize : b.size.toNat = c.size) (hused : decide (b.used ≠ 0) = c.used) {stats : KmemStats}
    {n : ℕ} (hroom : stats.HasRoom (sizeofBlock.toNat + c.size + n)) :
    Counted stats (stats.count b) [c] ∧ (stats.count b).HasRoom n := by
  cases hc : c.used with
  | true =>
    rw [hc, decide_eq_true_eq] at hused
    exact counted_used hc hused hroom hpos
  | false =>
    rw [hc, decide_eq_false_iff_not, not_not] at hused
    exact counted_free hc hused hsize hroom hpos

theorem Counted.cons {stats stats₁ stats' : KmemStats} {c : Segment}
    (h : Counted stats stats₁ [c]) (h' : Counted stats₁ stats' row) :
    Counted stats stats' (c :: row) := by
  have hsizes : freeSizes (c :: row) = freeSizes [c] ++ freeSizes row := by
    rw [freeSizes_cons, freeSizes_cons]
    cases c.used <;> rfl
  refine ⟨?_, ?_, ?_, ?_, ?_, ?_⟩
  · rw [h'.blockCount, h.blockCount, List.length_singleton, List.length_cons]
    omega
  · rw [h'.freeBlockCount, h.freeBlockCount, hsizes, List.length_append, Nat.add_assoc]
  · rw [h'.usedBlockCount, h.usedBlockCount, List.filter_cons]
    cases hc : c.used
    · simp [hc]
    · simp [hc]
      omega
  · rw [h'.freeBytes, h.freeBytes, hsizes, List.sum_append, Nat.add_assoc]
  · rw [h'.largest, h.largest, hsizes, List.foldr_append]
    rw [freeSizes_cons]
    cases hc : c.used <;> simp [freeSizes, Nat.max_assoc]
  · rw [h'.rest, h.rest]

theorem counted_row (hpos : 0 < sizeofBlock.toNat) {first : Option ℕ} {a : ℕ}
    (h : LaidTo sizeofBlock.toNat m.headerAt first a row none) (stats : KmemStats)
    (hroom : stats.HasRoom (extent sizeofBlock.toNat row)) :
    Counted stats (((starts sizeofBlock.toNat a row).map Prod.fst).foldl
      (fun stats address ↦ stats.count (m.block address)) stats) row := by
  induction row generalizing first a stats with
  | nil => exact ⟨rfl, rfl, rfl, rfl, by simp [freeSizes, starts], rfl⟩
  | cons c row ih =>
    obtain ⟨-, hsize, hused, hrow⟩ := h
    rw [extent_cons] at hroom
    obtain ⟨hone, hroom'⟩ := counted_one hpos hsize hused hroom
    exact hone.cons (ih hrow _ hroom')

end

/-! ## Histories -/

/-- A heap with the pointers that are live and the sizes asked for, and with the bytes in use and
the live allocations after each call, the last one first. -/
structure KmemHistory where
  heap : Kmem
  live : List (ℕ × UInt32)
  seen : List (UInt32 × UInt32)

/-- The history after a call that leaves this heap and these pointers. -/
def KmemHistory.next (h : KmemHistory) (m : Kmem) (live : List (ℕ × UInt32)) : KmemHistory :=
  ⟨m, live, (m.bytesInUse, m.liveAllocations) :: h.seen⟩

/-- The calls: `kmem_alloc` of a size that can be rounded up, and `kmem_free` of a live pointer or
of null. -/
inductive KmemStep (sizeofBlock : UInt32) : KmemHistory → KmemHistory → Prop
  | alloc {h : KmemHistory} {m : Kmem} {size : UInt32} {pointer : Option ℕ} :
      size.toNat ≤ 2 ^ 32 - 8 → kmemAlloc sizeofBlock h.heap size = .ok (m, pointer) →
      KmemStep sizeofBlock h (h.next m ((pointer.map (·, size)).toList ++ h.live))
  | free {h : KmemHistory} {m : Kmem} {pointer : ℕ} {size : UInt32} : (pointer, size) ∈ h.live →
      kmemFree sizeofBlock h.heap (some pointer) = .ok m →
      KmemStep sizeofBlock h (h.next m (h.live.erase (pointer, size)))
  | freeNull {h : KmemHistory} {m : Kmem} : kmemFree sizeofBlock h.heap none = .ok m →
      KmemStep sizeofBlock h (h.next m h.live)

/-- The histories that begin at boot. -/
def KmemRun (sizeofBlock : UInt32) : KmemHistory → Prop :=
  Reachable (· = ⟨.boot, [], []⟩) (KmemStep sizeofBlock)

section

variable {sizeofBlock : UInt32} {m : Kmem} {row : List Segment}

/-- The live pointers are those to the segments in use, which are as large as was asked for. -/
structure Owned (sizeofBlock : UInt32) (live : List (ℕ × UInt32)) (row : List Segment) : Prop where
  perm : (live.map Prod.fst).Perm
    ((taken sizeofBlock.toNat 0 row).map fun x ↦ x.1 + sizeofBlock.toNat)
  size : ∀ x ∈ live, ∃ a c, (a, c) ∈ taken sizeofBlock.toNat 0 row ∧ x.1 = a + sizeofBlock.toNat ∧
    x.2.toNat ≤ c.size

theorem nodup_taken_places (hpos : 0 < sizeofBlock.toNat) (row : List Segment) :
    ((taken sizeofBlock.toNat 0 row).map fun x ↦ x.1 + sizeofBlock.toNat).Nodup := by
  refine List.pairwise_map.mpr (((pairwise_starts 0 row).filter _).imp fun {x y} hxy ↦ ?_)
  omega

theorem Owned.take {live : List (ℕ × UInt32)} (h : Owned sizeofBlock live row) {row' : List Segment}
    {a size : ℕ} {n : UInt32} (hn : n.toNat ≤ size)
    (hperm : (taken sizeofBlock.toNat 0 row').Perm
      ((a, ⟨size, true⟩) :: taken sizeofBlock.toNat 0 row)) :
    Owned sizeofBlock ((a + sizeofBlock.toNat, n) :: live) row' := by
  refine ⟨?_, fun x hx ↦ ?_⟩
  · rw [List.map_cons]
    refine (h.perm.cons _).trans ?_
    simpa using (hperm.map fun x ↦ x.1 + sizeofBlock.toNat).symm
  · rcases List.mem_cons.mp hx with rfl | hx
    · exact ⟨a, ⟨size, true⟩, hperm.mem_iff.mpr (by simp), rfl, hn⟩
    · obtain ⟨b, c, hc, hb, hle⟩ := h.size x hx
      exact ⟨b, c, hperm.mem_iff.mpr (List.mem_cons_of_mem _ hc), hb, hle⟩

theorem Owned.release (hpos : 0 < sizeofBlock.toNat) {live : List (ℕ × UInt32)}
    (h : Owned sizeofBlock live row) {row' : List Segment} {a : ℕ} {c : Segment} {size : UInt32}
    (hmem : (a + sizeofBlock.toNat, size) ∈ live)
    (hperm : (taken sizeofBlock.toNat 0 row).Perm ((a, c) :: taken sizeofBlock.toNat 0 row')) :
    Owned sizeofBlock (live.erase (a + sizeofBlock.toNat, size)) row' := by
  have hlive := List.perm_cons_erase hmem
  have hpointers := (hlive.map Prod.fst).symm.trans
    (h.perm.trans (hperm.map fun x ↦ x.1 + sizeofBlock.toNat))
  rw [List.map_cons, List.map_cons] at hpointers
  refine ⟨hpointers.cons_inv, fun x hx ↦ ?_⟩
  -- another live pointer does not point to the segment that is given back
  have hnodup : (live.map Prod.fst).Nodup := h.perm.nodup_iff.mpr (nodup_taken_places hpos row)
  rw [(hlive.map Prod.fst).nodup_iff, List.map_cons, List.nodup_cons] at hnodup
  obtain ⟨b, d, hd, hb, hle⟩ := h.size x (List.mem_of_mem_erase hx)
  rcases List.mem_cons.mp (hperm.mem_iff.mp hd) with heq | hd'
  · obtain ⟨rfl, rfl⟩ := Prod.mk.inj heq
    exact absurd (List.mem_map.mpr ⟨x, hx, hb⟩) hnodup.1
  · exact ⟨b, d, hd', hb, hle⟩

/-- **The invariant of histories.** Before the first call the heap is not initialised, and every
call that looks at it initialises it first. -/
structure HistoryOk (sizeofBlock : UInt32) (h : KmemHistory) (row : List Segment) : Prop where
  init : h.heap = .boot ∧ h.live = [] ∨ kmemInit sizeofBlock h.heap = h.heap
  heap : HeapOk sizeofBlock (kmemInit sizeofBlock h.heap) row
  owned : Owned sizeofBlock h.live row
  peakBytes : (kmemInit sizeofBlock h.heap).peakBytesInUse.toNat
    = (h.seen.map fun x ↦ x.1.toNat).foldr max 0
  peakLive : (kmemInit sizeofBlock h.heap).peakLiveAllocations.toNat
    = (h.seen.map fun x ↦ x.2.toNat).foldr max 0
  bytes : (kmemInit sizeofBlock h.heap).bytesInUse ≤ (kmemInit sizeofBlock h.heap).peakBytesInUse
  live : (kmemInit sizeofBlock h.heap).liveAllocations
    ≤ (kmemInit sizeofBlock h.heap).peakLiveAllocations

theorem toNat_max (x y : UInt32) : (if x > y then x else y).toNat = max x.toNat y.toNat := by
  split
  · next h =>
    have hlt := UInt32.lt_iff_toNat_lt.mp h
    omega
  · next h =>
    rw [gt_iff_lt, UInt32.lt_iff_toNat_lt] at h
    omega

variable {h : KmemHistory}

/-- A call whose peaks are those so far and the present numbers. -/
theorem HistoryOk.next (h₀ : HistoryOk sizeofBlock h row) {row' : List Segment}
    {live' : List (ℕ × UInt32)} (hheap : HeapOk sizeofBlock m row')
    (howned : Owned sizeofBlock live' row')
    (hpeakBytes : m.peakBytesInUse.toNat
      = max m.bytesInUse.toNat (kmemInit sizeofBlock h.heap).peakBytesInUse.toNat)
    (hpeakLive : m.peakLiveAllocations.toNat
      = max m.liveAllocations.toNat (kmemInit sizeofBlock h.heap).peakLiveAllocations.toNat) :
    HistoryOk sizeofBlock (h.next m live') row' := by
  have hinit := hheap.kmemInit_eq
  refine ⟨Or.inr hinit, ?_, howned, ?_, ?_, ?_, ?_⟩ <;>
    simp only [KmemHistory.next, hinit, List.map_cons, List.foldr_cons]
  · exact hheap
  · rw [hpeakBytes, ← h₀.peakBytes]
  · rw [hpeakLive, ← h₀.peakLive]
  · rw [UInt32.le_iff_toNat_le, hpeakBytes]
    exact Nat.le_max_left ..
  · rw [UInt32.le_iff_toNat_le, hpeakLive]
    exact Nat.le_max_left ..

theorem HistoryOk.alloc (hle : sizeofBlock.toNat ≤ 4096) (hpos : 0 < sizeofBlock.toNat)
    (h₀ : HistoryOk sizeofBlock h row) {size : UInt32} {pointer : Option ℕ}
    (hsize : size.toNat ≤ 2 ^ 32 - 8)
    (hrun : kmemAlloc sizeofBlock h.heap size = .ok (m, pointer)) :
    ∃ row', HistoryOk sizeofBlock (h.next m ((pointer.map (·, size)).toList ++ h.live)) row' := by
  rcases kmemAlloc_spec hpos h₀.heap hsize with
    ⟨-, hfail⟩ | ⟨front, c, back, rfl, -, hfree, hfits, htake⟩
  · obtain ⟨rfl, rfl⟩ := Prod.mk.inj (Except.ok.inj (hrun.symm.trans hfail))
    have hheap := h₀.heap
    exact ⟨row, h₀.next ⟨hheap.initialized, hheap.head, hheap.laid, hheap.full, hheap.separated,
      hheap.bytes, hheap.live⟩ h₀.owned (Nat.max_eq_right (UInt32.le_iff_toNat_le.mp h₀.bytes)).symm
      (Nat.max_eq_right (UInt32.le_iff_toNat_le.mp h₀.live)).symm⟩
  · obtain ⟨rfl, rfl⟩ := Prod.mk.inj (Except.ok.inj (hrun.symm.trans htake))
    have halign := toNat_kmemAlignUp hsize
    obtain ⟨size', row', hn, hheap, hperm⟩ := h₀.heap.take hle hpos hfree (halign ▸ hfits)
    obtain ⟨block, bytesInUse, -, heq⟩ := kmemTake_eq sizeofBlock (kmemInit sizeofBlock h.heap)
      (extent sizeofBlock.toNat front) (kmemAlignUp size)
    refine ⟨row', h₀.next hheap (h₀.owned.take (by omega) hperm) ?_ ?_⟩
    · rw [heq]
      exact toNat_max ..
    · rw [heq]
      exact toNat_max ..

theorem HistoryOk.free (hpos : 0 < sizeofBlock.toNat) (h₀ : HistoryOk sizeofBlock h row)
    {pointer : ℕ} {size : UInt32} (hmem : (pointer, size) ∈ h.live) :
    ∃ m row', kmemFree sizeofBlock h.heap (some pointer) = .ok m ∧
      HistoryOk sizeofBlock (h.next m (h.live.erase (pointer, size))) row' := by
  obtain ⟨a, c, hc, ha, -⟩ := h₀.owned.size _ hmem
  obtain rfl : pointer = a + sizeofBlock.toNat := ha
  obtain ⟨hstart, hused⟩ := List.mem_filter.mp hc
  obtain ⟨front, back, rfl, rfl⟩ := mem_starts_iff.mp hstart
  have hinit : kmemInit sizeofBlock h.heap = h.heap := by
    refine h₀.init.resolve_left fun hboot ↦ ?_
    simp [hboot.2] at hmem
  have hheap := h₀.heap
  rw [hinit] at hheap
  obtain ⟨m, row', hrun, hheap', hperm, hpeakBytes, hpeakLive⟩ := hheap.release hpos hused
  have hsum := (hperm.map fun x ↦ x.2.size).sum_eq
  have hlength := hperm.length_eq
  rw [List.map_cons, List.sum_cons, ← hheap.bytes, ← hheap'.bytes] at hsum
  rw [List.length_cons, ← hheap.live, ← hheap'.live] at hlength
  have hbytes := UInt32.le_iff_toNat_le.mp h₀.bytes
  have hlive := UInt32.le_iff_toNat_le.mp h₀.live
  rw [Nat.zero_add] at hmem ⊢
  refine ⟨m, row', hrun, h₀.next hheap' (h₀.owned.release hpos hmem hperm) ?_ ?_⟩
  · rw [hinit] at hbytes ⊢
    rw [hpeakBytes]
    omega
  · rw [hinit] at hlive ⊢
    rw [hpeakLive]
    omega

theorem historyOk_boot (hle : sizeofBlock ≤ 4096) :
    HistoryOk sizeofBlock ⟨.boot, [], []⟩ [⟨4096 - sizeofBlock.toNat, false⟩] :=
  ⟨Or.inl ⟨rfl, rfl⟩, heapOk_init hle, ⟨.nil, by simp⟩, rfl, rfl, UInt32.le_refl _,
    UInt32.le_refl _⟩

/-- A call that does nothing, perhaps before the heap is initialised. -/
theorem HistoryOk.quiet (h₀ : HistoryOk sizeofBlock h row) :
    HistoryOk sizeofBlock (h.next h.heap h.live) row := by
  have hle : h.heap.bytesInUse ≤ (kmemInit sizeofBlock h.heap).peakBytesInUse ∧
      h.heap.liveAllocations ≤ (kmemInit sizeofBlock h.heap).peakLiveAllocations := by
    rcases h₀.init with ⟨hboot, -⟩ | hinit
    · rw [hboot]
      exact ⟨UInt32.zero_le, UInt32.zero_le⟩
    · have hbytes := h₀.bytes
      have hlive := h₀.live
      rw [hinit] at hbytes hlive ⊢
      exact ⟨hbytes, hlive⟩
  refine ⟨h₀.init, h₀.heap, h₀.owned, ?_, ?_, h₀.bytes, h₀.live⟩
  · simp only [KmemHistory.next, List.map_cons, List.foldr_cons, ← h₀.peakBytes]
    exact (Nat.max_eq_right (UInt32.le_iff_toNat_le.mp hle.1)).symm
  · simp only [KmemHistory.next, List.map_cons, List.foldr_cons, ← h₀.peakLive]
    exact (Nat.max_eq_right (UInt32.le_iff_toNat_le.mp hle.2)).symm

theorem KmemRun.historyOk (hpos : 0 < sizeofBlock) (hle : sizeofBlock ≤ 4096)
    (hrun : KmemRun sizeofBlock h) : ∃ row, HistoryOk sizeofBlock h row := by
  have hpos' : 0 < sizeofBlock.toNat := UInt32.lt_iff_toNat_lt.mp hpos
  have hle' : sizeofBlock.toNat ≤ 4096 := UInt32.le_iff_toNat_le.mp hle
  refine Reachable.invariant (P := fun h ↦ ∃ row, HistoryOk sizeofBlock h row) ?_ ?_ hrun
  · rintro _ rfl
    exact ⟨_, historyOk_boot hle⟩
  · rintro h h' ⟨row, hok⟩ hstep
    cases hstep with
    | alloc hsize hrun => exact hok.alloc hle' hpos' hsize hrun
    | free hmem hrun =>
      obtain ⟨m, row', hfree, hok'⟩ := hok.free hpos' hmem
      obtain rfl := Except.ok.inj (hrun.symm.trans hfree)
      exact ⟨row', hok'⟩
    | freeNull hrun =>
      obtain rfl := Except.ok.inj hrun
      exact ⟨row, hok.quiet⟩

end

/-! ## The invariant in terms of the list of blocks -/

/-- Each block starts where the one before it ends, from a place on, and the last one ends with the
arena. -/
def Tiles (sizeofBlock : UInt32) (m : Kmem) : ℕ → List ℕ → Prop
  | a, [] => a = kmemArenaSize.toNat
  | a, b :: blocks => b = a ∧
    Tiles sizeofBlock m (a + sizeofBlock.toNat + (m.block b).size.toNat) blocks

/-- The free blocks of a list. -/
def Kmem.freeBlocks (m : Kmem) (blocks : List ℕ) : List ℕ :=
  blocks.filter fun b ↦ (m.block b).used = 0

/-- The blocks of a list that are in use. -/
def Kmem.usedBlocks (m : Kmem) (blocks : List ℕ) : List ℕ :=
  blocks.filter fun b ↦ (m.block b).used ≠ 0

/-- The sizes of the blocks of a list. -/
def Kmem.sizes (m : Kmem) (blocks : List ℕ) : List ℕ := blocks.map fun b ↦ (m.block b).size.toNat

/-- The addresses of the header of a block. -/
def headerSpan (sizeofBlock : UInt32) (b : ℕ) : Set ℕ := Set.Ico b (b + sizeofBlock.toNat)

/-- The addresses of the contents of a block. -/
def payloadSpan (sizeofBlock : UInt32) (m : Kmem) (b : ℕ) : Set ℕ :=
  Set.Ico (b + sizeofBlock.toNat) (b + sizeofBlock.toNat + (m.block b).size.toNat)

/-- **What holds of a heap** with these blocks and statistics, when these pointers are live. -/
structure KmemSound (sizeofBlock : UInt32) (m : Kmem) (h : KmemHistory) (blocks : List ℕ)
    (stats : KmemStats) : Prop where
  /-- The blocks are those of the list. -/
  list : kmemWalk m kmemArenaSize.toNat m.head = .ok blocks
  tiles : Tiles sizeofBlock m 0 blocks
  separated : blocks.IsChain fun a b ↦ (m.block a).used ≠ 0 ∨ (m.block b).used ≠ 0
  /-- The live pointers are those to the contents of the blocks in use. -/
  live : (h.live.map Prod.fst).Perm ((m.usedBlocks blocks).map (· + sizeofBlock.toNat))
  large : ∀ b ∈ blocks, ∀ size, (b + sizeofBlock.toNat, size) ∈ h.live →
    size.toNat ≤ (m.block b).size.toNat
  payloads : ∀ a ∈ m.usedBlocks blocks, ∀ b ∈ m.usedBlocks blocks, a ≠ b →
    Disjoint (payloadSpan sizeofBlock m a) (payloadSpan sizeofBlock m b)
  headers : ∀ a ∈ m.usedBlocks blocks, ∀ b ∈ blocks,
    Disjoint (payloadSpan sizeofBlock m a) (headerSpan sizeofBlock b)
  bytesInUse : m.bytesInUse.toNat = (m.sizes (m.usedBlocks blocks)).sum
  liveAllocations : m.liveAllocations.toNat = (m.usedBlocks blocks).length
  snapshot : kmemStatsSnapshot sizeofBlock m = .ok stats
  freeBytes : stats.freeBytes.toNat = (m.sizes (m.freeBlocks blocks)).sum
  largest : stats.largestFreeBlock.toNat = (m.sizes (m.freeBlocks blocks)).foldr max 0
  blockCount : stats.blockCount.toNat = blocks.length
  freeBlockCount : stats.freeBlockCount.toNat = (m.freeBlocks blocks).length
  usedBlockCount : stats.usedBlockCount.toNat = (m.usedBlocks blocks).length
  peakBytes : m.peakBytesInUse.toNat = (h.seen.map fun x ↦ x.1.toNat).foldr max 0
  peakLive : m.peakLiveAllocations.toNat = (h.seen.map fun x ↦ x.2.toNat).foldr max 0
  /-- Every allocation returns, and fails exactly when no free block is large enough. -/
  fails : ∀ size, size.toNat ≤ 2 ^ 32 - 8 → ∃ m' pointer,
    kmemAlloc sizeofBlock m size = .ok (m', pointer) ∧
      (pointer = none ↔ size = 0 ∨ stats.largestFreeBlock.toNat < (size.toNat + 7) / 8 * 8)
  frees : ∀ x ∈ h.live, ∃ m', kmemFree sizeofBlock m (some x.1) = .ok m'
  empty : h.live = [] → blocks = [0] ∧ m.block 0 = ⟨kmemArenaSize - sizeofBlock, 0, none⟩

section

variable {sizeofBlock : UInt32} {m : Kmem} {row : List Segment} {h : KmemHistory}

theorem LaidTo.tiles {first : Option ℕ} {a : ℕ}
    (hlaid : LaidTo sizeofBlock.toNat m.headerAt first a row none)
    (hfull : a + extent sizeofBlock.toNat row = kmemArenaSize.toNat) :
    Tiles sizeofBlock m a ((starts sizeofBlock.toNat a row).map Prod.fst) := by
  induction row generalizing first a with
  | nil => exact hfull
  | cons c row ih =>
    obtain ⟨-, hsize, -, hrow⟩ := hlaid
    have hsize : (m.block a).size.toNat = c.size := hsize
    refine ⟨rfl, ?_⟩
    rw [hsize]
    refine ih hrow ?_
    rw [← hfull, extent_cons]
    omega

theorem LaidTo.separated {first : Option ℕ} {a : ℕ}
    (hlaid : LaidTo sizeofBlock.toNat m.headerAt first a row none) (hsep : Separated row) :
    ((starts sizeofBlock.toNat a row).map Prod.fst).IsChain fun a b ↦
      (m.block a).used ≠ 0 ∨ (m.block b).used ≠ 0 := by
  induction row generalizing first a with
  | nil => exact .nil
  | cons c row ih =>
    obtain ⟨-, -, hused, hrow⟩ := hlaid
    have hused : decide ((m.block a).used ≠ 0) = c.used := hused
    obtain ⟨hhead, hsep'⟩ := List.isChain_cons.mp hsep
    cases row with
    | nil => exact .singleton a
    | cons d row =>
      obtain ⟨hnext, hsize', hused', hrow'⟩ := hrow
      have hused' : decide ((m.block (a + sizeofBlock.toNat + c.size)).used ≠ 0) = d.used := hused'
      refine List.isChain_cons_cons.mpr ⟨?_, ih ⟨hnext, hsize', hused', hrow'⟩ hsep'⟩
      refine (hhead d rfl).imp (fun hc ↦ ?_) fun hd ↦ ?_
      · rwa [← hused, decide_eq_true_eq] at hc
      · rwa [← hused', decide_eq_true_eq] at hd

theorem LaidTo.exists_segment {first : Option ℕ} {a b : ℕ}
    (hlaid : LaidTo sizeofBlock.toNat m.headerAt first a row none)
    (hb : b ∈ (starts sizeofBlock.toNat a row).map Prod.fst) : ∃ c,
    (b, c) ∈ starts sizeofBlock.toNat a row ∧ (m.block b).size.toNat = c.size := by
  obtain ⟨⟨b, c⟩, hc, rfl⟩ := List.mem_map.mp hb
  exact ⟨c, hc, (hlaid.heads_eq hc).1⟩

theorem LaidTo.payloads_disjoint {first : Option ℕ} {a b b' : ℕ}
    (hlaid : LaidTo sizeofBlock.toNat m.headerAt first a row none)
    (hb : b ∈ (starts sizeofBlock.toNat a row).map Prod.fst)
    (hb' : b' ∈ (starts sizeofBlock.toNat a row).map Prod.fst) (hne : b ≠ b') :
    Disjoint (payloadSpan sizeofBlock m b) (payloadSpan sizeofBlock m b') := by
  obtain ⟨c, hc, hsize⟩ := hlaid.exists_segment hb
  obtain ⟨d, hd, hsize'⟩ := hlaid.exists_segment hb'
  rw [payloadSpan, payloadSpan, Set.Ico_disjoint_Ico, hsize, hsize']
  have hapart := starts_disjoint hc hd hne
  omega

theorem LaidTo.payload_disjoint_header {first : Option ℕ} {a b b' : ℕ}
    (hlaid : LaidTo sizeofBlock.toNat m.headerAt first a row none)
    (hb : b ∈ (starts sizeofBlock.toNat a row).map Prod.fst)
    (hb' : b' ∈ (starts sizeofBlock.toNat a row).map Prod.fst) :
    Disjoint (payloadSpan sizeofBlock m b) (headerSpan sizeofBlock b') := by
  obtain ⟨c, hc, hsize⟩ := hlaid.exists_segment hb
  obtain ⟨d, hd, -⟩ := hlaid.exists_segment hb'
  rw [payloadSpan, headerSpan, Set.Ico_disjoint_Ico, hsize]
  by_cases hne : b = b'
  · subst hne
    omega
  · have hapart := starts_disjoint hc hd hne
    omega

theorem LaidTo.filter_eq {first : Option ℕ} {a : ℕ}
    (hlaid : LaidTo sizeofBlock.toNat m.headerAt first a row none) :
    m.usedBlocks ((starts sizeofBlock.toNat a row).map Prod.fst)
      = (taken sizeofBlock.toNat a row).map Prod.fst ∧
    m.freeBlocks ((starts sizeofBlock.toNat a row).map Prod.fst)
      = ((starts sizeofBlock.toNat a row).filter fun x ↦ !x.2.used).map Prod.fst := by
  have hused : ∀ x ∈ starts sizeofBlock.toNat a row, decide ((m.block x.1).used ≠ 0) = x.2.used :=
    fun x hx ↦ (hlaid.heads_eq hx).2
  rw [Kmem.usedBlocks, Kmem.freeBlocks, List.filter_map, List.filter_map, taken]
  refine ⟨congrArg _ (List.filter_congr fun x hx ↦ hused x hx),
    congrArg _ (List.filter_congr fun x hx ↦ ?_)⟩
  rw [← hused x hx]
  simp

theorem LaidTo.sizes_eq {first : Option ℕ} {a : ℕ}
    (hlaid : LaidTo sizeofBlock.toNat m.headerAt first a row none) (p : ℕ × Segment → Bool) :
    m.sizes (((starts sizeofBlock.toNat a row).filter p).map Prod.fst)
      = ((starts sizeofBlock.toNat a row).filter p).map fun x ↦ x.2.size := by
  rw [Kmem.sizes, List.map_map]
  exact List.map_congr_left fun x hx ↦ (hlaid.heads_eq (List.mem_of_mem_filter hx)).1

theorem freeSizes_eq (header a : ℕ) (row : List Segment) :
    freeSizes row = ((starts header a row).filter fun x ↦ !x.2.used).map fun x ↦ x.2.size := by
  have hrow : (starts header a row).map Prod.snd = row := map_snd_starts a row
  conv_lhs => rw [← hrow]
  rw [freeSizes, List.filter_map, List.map_map]
  rfl

theorem HeapOk.snapshot (hpos : 0 < sizeofBlock.toNat) (hheap : HeapOk sizeofBlock m row) :
    ∃ stats, kmemStatsSnapshot sizeofBlock m = .ok stats ∧ stats.blockCount.toNat = row.length ∧
      stats.freeBlockCount.toNat = (freeSizes row).length ∧
      stats.usedBlockCount.toNat = (row.filter Segment.used).length ∧
      stats.freeBytes.toNat = (freeSizes row).sum ∧
      stats.largestFreeBlock.toNat = (freeSizes row).foldr max 0 := by
  rw [kmemStatsSnapshot, hheap.kmemInit_eq]
  simp only [kmemForBlocks, hheap.walk_eq hpos, ok_bind]
  refine ⟨_, rfl, ?_⟩
  have hcounted := counted_row hpos hheap.laid (KmemStats.mk (kmemArenaSize - sizeofBlock) 0 0
    m.bytesInUse m.peakBytesInUse m.allocationCount m.freeCount m.allocationFailCount
    m.liveAllocations m.peakLiveAllocations 0 0 0) (by simp [KmemStats.HasRoom, hheap.full])
  obtain ⟨hblock, hfree, hused, hbytes, hlargest, -⟩ := hcounted
  refine ⟨hblock.trans ?_, hfree.trans ?_, hused.trans ?_, hbytes.trans ?_,
    hlargest.trans ?_⟩ <;> simp

theorem foldr_max_lt {l : List ℕ} {n : ℕ} (hn : 0 < n) : l.foldr max 0 < n ↔ ∀ x ∈ l, x < n := by
  induction l with
  | nil => simpa using hn
  | cons x l ih => simp [ih]

theorem mem_freeSizes {n : ℕ} : n ∈ freeSizes row ↔ ∃ c ∈ row, c.used = false ∧ c.size = n := by
  simp [freeSizes, and_assoc]

/-- An allocation returns, and fails exactly when no free block is large enough. -/
theorem HeapOk.fails_iff (hpos : 0 < sizeofBlock.toNat) (hheap : HeapOk sizeofBlock m row)
    {size : UInt32} (hsize : size.toNat ≤ 2 ^ 32 - 8) :
    ∃ m' pointer, kmemAlloc sizeofBlock m size = .ok (m', pointer) ∧
      (pointer = none ↔ size = 0 ∨ (freeSizes row).foldr max 0 < (size.toNat + 7) / 8 * 8) := by
  have hinit := hheap.kmemInit_eq
  rcases kmemAlloc_spec (m := m) hpos (hinit.symm ▸ hheap) hsize with
    ⟨hnone, hfail⟩ | ⟨front, c, back, rfl, hzero, hfree, hfits, htake⟩
  · refine ⟨_, none, hfail, iff_of_true rfl (or_iff_not_imp_left.mpr fun hzero ↦ ?_)⟩
    have hne : size.toNat ≠ 0 := fun heq ↦ hzero (UInt32.toNat_inj.mp heq)
    refine (foldr_max_lt (by omega)).mpr fun n hn ↦ ?_
    obtain ⟨c, hc, hfree, rfl⟩ := mem_freeSizes.mp hn
    exact hnone.resolve_left hzero c hc hfree
  · refine ⟨_, _, htake, iff_of_false (by simp) ?_⟩
    rintro (hz | hlt)
    · exact hzero hz
    · have hne : size.toNat ≠ 0 := fun heq ↦ hzero (UInt32.toNat_inj.mp heq)
      have hmem : c.size ∈ freeSizes (front ++ c :: back) :=
        mem_freeSizes.mpr ⟨c, by simp, hfree, rfl⟩
      have hbound := (foldr_max_lt (by omega)).mp hlt c.size hmem
      omega

/-- A heap without live pointers is as at the start. -/
theorem HeapOk.eq_initial (hle : sizeofBlock ≤ 4096) (hheap : HeapOk sizeofBlock m row)
    (htaken : taken sizeofBlock.toNat 0 row = []) :
    row = [⟨4096 - sizeofBlock.toNat, false⟩] ∧
      m.block 0 = ⟨kmemArenaSize - sizeofBlock, 0, none⟩ := by
  have hfree : ∀ c ∈ row, c.used = false := by
    intro c hc
    have hrow : (starts sizeofBlock.toNat 0 row).map Prod.snd = row := map_snd_starts 0 row
    rw [← hrow] at hc
    obtain ⟨x, hx, rfl⟩ := List.mem_map.mp hc
    simpa using List.filter_eq_nil_iff.mp htaken x hx
  have hne : row ≠ [] := by
    rintro rfl
    cases hheap.full
  have hrow := hheap.separated.eq_singleton sizeofBlock.toNat hfree hne
  rw [hheap.full] at hrow
  refine ⟨hrow, ?_⟩
  subst hrow
  obtain ⟨-, hsize, hused, hnext⟩ := hheap.laid
  have hsize : (m.block 0).size = kmemArenaSize - sizeofBlock :=
    UInt32.toNat_inj.mp (hsize.trans (UInt32.toNat_sub_of_le _ _ hle).symm)
  have hused : decide ((m.block 0).used ≠ 0) = false := hused
  have hnext : (m.block 0).next = none := hnext
  rw [decide_eq_false_iff_not, not_not] at hused
  rw [← hsize, ← hused, ← hnext]

/-- **The kernel heap**: after any calls of `kmem_alloc` and `kmem_free` of live pointers or null,
the blocks tile the arena and no two free ones are neighbours; the contents of live allocations are
as large as was asked for and overlap neither each other nor a header; the counters and the
statistics are those of the blocks, and the peaks are the maxima so far; an allocation fails
exactly when it is for no bytes or no free block is large enough; and without live allocations
there is one free block. -/
theorem kmem_sound (hpos : 0 < sizeofBlock) (hle : sizeofBlock ≤ 4096)
    (hrun : KmemRun sizeofBlock h) :
    ∃ blocks stats, KmemSound sizeofBlock (kmemInit sizeofBlock h.heap) h blocks stats := by
  obtain ⟨row, hok⟩ := hrun.historyOk hpos hle
  have hpos' : 0 < sizeofBlock.toNat := UInt32.lt_iff_toNat_lt.mp hpos
  have hheap := hok.heap
  set m := kmemInit sizeofBlock h.heap with hm
  obtain ⟨stats, hsnapshot, hblock, hfreeCount, hused, hfreeBytes, hlargest⟩ := hheap.snapshot hpos'
  obtain ⟨husedBlocks, hfreeBlocks⟩ := hheap.laid.filter_eq
  have hfreeSizes : m.sizes (m.freeBlocks ((starts sizeofBlock.toNat 0 row).map Prod.fst))
      = freeSizes row := by
    rw [hfreeBlocks, hheap.laid.sizes_eq, freeSizes_eq sizeofBlock.toNat 0]
  have husedSizes : m.sizes (m.usedBlocks ((starts sizeofBlock.toNat 0 row).map Prod.fst))
      = (taken sizeofBlock.toNat 0 row).map fun x ↦ x.2.size := by
    rw [husedBlocks, taken, hheap.laid.sizes_eq]
  refine ⟨(starts sizeofBlock.toNat 0 row).map Prod.fst, stats, ?_⟩
  refine
    { list := hheap.walk_eq hpos'
      tiles := hheap.laid.tiles ((Nat.zero_add _).trans hheap.full)
      separated := hheap.laid.separated hheap.separated
      live := ?_
      large := fun b hb size hlive ↦ ?_
      payloads := fun a ha b hb ↦ hheap.laid.payloads_disjoint (List.mem_of_mem_filter ha)
        (List.mem_of_mem_filter hb)
      headers := fun a ha b ↦ hheap.laid.payload_disjoint_header (List.mem_of_mem_filter ha)
      bytesInUse := by rw [husedSizes, hheap.bytes]
      liveAllocations := by rw [husedBlocks, List.length_map, hheap.live]
      snapshot := hsnapshot
      freeBytes := by rw [hfreeSizes, hfreeBytes]
      largest := by rw [hfreeSizes, hlargest]
      blockCount := ?_
      freeBlockCount := ?_
      usedBlockCount := ?_
      peakBytes := hok.peakBytes
      peakLive := hok.peakLive
      fails := fun size hsize ↦ by rw [hlargest]; exact hheap.fails_iff hpos' hsize
      frees := fun x hx ↦ ?_
      empty := fun hlive ↦ ?_ }
  · rw [husedBlocks, List.map_map]
    exact hok.owned.perm
  · obtain ⟨a, c, hc, heq, hle⟩ := hok.owned.size _ hlive
    obtain rfl : b = a := Nat.add_right_cancel heq
    exact hle.trans_eq (hheap.laid.heads_eq (List.mem_of_mem_filter hc)).1.symm
  · rw [hblock, List.length_map, length_starts]
  · rw [hfreeCount, ← hfreeSizes, Kmem.sizes, List.length_map]
  · rw [hused, husedBlocks, List.length_map, length_taken]
  · have hinit : m = h.heap := hok.init.resolve_left fun hboot ↦ by simp [hboot.2] at hx
    obtain ⟨m', -, hfree, -⟩ := hok.free hpos' hx
    exact ⟨m', hinit ▸ hfree⟩
  · have htaken : taken sizeofBlock.toNat 0 row = [] := by
      have hperm := hok.owned.perm
      rw [hlive, List.map_nil] at hperm
      exact List.map_eq_nil_iff.mp hperm.nil_eq.symm
    obtain ⟨hrow, hfirst⟩ := hheap.eq_initial hle htaken
    refine ⟨?_, hfirst⟩
    rw [hrow]
    rfl

/-- With headers of 12 bytes, after one allocation of 64 bytes. -/
theorem kmem_sound_alloc : ∃ m blocks stats, kmemAlloc 12 .boot 64 = .ok (m, some 12) ∧
    KmemSound 12 m ⟨m, [(12, 64)], [(m.bytesInUse, m.liveAllocations)]⟩ blocks stats := by
  have halloc : kmemAlloc 12 .boot 64 = .ok (kmemTake 12 (kmemInit 12 .boot) 0 64, some 12) := rfl
  have hrun : KmemRun 12 (KmemHistory.next ⟨.boot, [], []⟩ _ _) :=
    .step (.start rfl) (.alloc (by decide) halloc)
  obtain ⟨blocks, stats, hsound⟩ := kmem_sound (by decide) (by decide) hrun
  exact ⟨_, blocks, stats, halloc, hsound⟩

end

end TensorOS
