import TensorOS.Mem.HeapRun

/-!
# Sizes and alignment of allocations

`kmem_alloc` is called with any 32-bit size here, also with those that `kmem_align_up` cannot round
up. Rounding is done modulo 2 ^ 32, and for the seven largest sizes it ends at 0: every free block
is large enough then, and the caller gets a block that is far too small (`allocDelivers_iff`).

On the 32-bit target a header has 12 bytes. The first block of the arena begins with its header,
and so the first pointer that is ever returned is 12 bytes into the arena. It is not a multiple of
8, and nothing is aligned as soon as one allocation succeeds (`KmemTrace.first_returned`).
-/

namespace TensorOS

/-! ## Calls with any size -/

/-- A call of the heap. -/
inductive KmemCall
  | alloc (size : UInt32)
  | free (pointer : Option ℕ)

/-- **The calls since boot**, with the heap after them, the pointers that are live and all pointers
that were returned. Only null and live pointers are given back. -/
inductive KmemTrace (sizeofBlock : UInt32) : List KmemCall → Kmem → List ℕ → List ℕ → Prop
  | boot : KmemTrace sizeofBlock [] .boot [] []
  | alloc {calls : List KmemCall} {m m' : Kmem} {live returned : List ℕ} {size : UInt32}
      {pointer : Option ℕ} : KmemTrace sizeofBlock calls m live returned →
      kmemAlloc sizeofBlock m size = .ok (m', pointer) →
      KmemTrace sizeofBlock (calls ++ [.alloc size]) m' (pointer.toList ++ live)
        (returned ++ pointer.toList)
  | free {calls : List KmemCall} {m m' : Kmem} {live returned : List ℕ} {pointer : ℕ} :
      KmemTrace sizeofBlock calls m live returned → pointer ∈ live →
      kmemFree sizeofBlock m (some pointer) = .ok m' →
      KmemTrace sizeofBlock (calls ++ [.free (some pointer)]) m' (live.erase pointer) returned
  | freeNull {calls : List KmemCall} {m m' : Kmem} {live returned : List ℕ} :
      KmemTrace sizeofBlock calls m live returned → kmemFree sizeofBlock m none = .ok m' →
      KmemTrace sizeofBlock (calls ++ [.free none]) m' live returned

section

variable {sizeofBlock : UInt32} {m m' : Kmem} {row : List Segment} {calls : List KmemCall}
  {live returned : List ℕ}

/-- **The invariant of traces.** Unlike `Owned` it does not relate the blocks to the sizes that were
asked for. -/
structure TraceOk (sizeofBlock : UInt32) (m : Kmem) (live returned : List ℕ) (row : List Segment) :
    Prop where
  init : m = .boot ∧ live = [] ∨ kmemInit sizeofBlock m = m
  heap : HeapOk sizeofBlock (kmemInit sizeofBlock m) row
  perm : live.Perm ((taken sizeofBlock.toNat 0 row).map fun x ↦ x.1 + sizeofBlock.toNat)
  returned : ∀ pointer ∈ live, pointer ∈ returned

theorem HeapOk.traceOk (h : HeapOk sizeofBlock m row)
    (hperm : live.Perm ((taken sizeofBlock.toNat 0 row).map fun x ↦ x.1 + sizeofBlock.toNat))
    (hreturned : ∀ pointer ∈ live, pointer ∈ returned) :
    TraceOk sizeofBlock m live returned row := by
  have hinit := h.kmemInit_eq
  exact ⟨Or.inr hinit, hinit.symm ▸ h, hperm, hreturned⟩

theorem TraceOk.alloc (hle : sizeofBlock.toNat ≤ 4096) (hpos : 0 < sizeofBlock.toNat)
    (h : TraceOk sizeofBlock m live returned row) {size : UInt32} {pointer : Option ℕ}
    (hrun : kmemAlloc sizeofBlock m size = .ok (m', pointer)) :
    ∃ row', TraceOk sizeofBlock m' (pointer.toList ++ live) (returned ++ pointer.toList) row' := by
  rcases kmemAlloc_cases hpos h.heap size with
    ⟨-, hfail⟩ | ⟨front, c, back, rfl, -, hfree, hfits, htake⟩
  · obtain ⟨rfl, rfl⟩ := Prod.mk.inj (Except.ok.inj (hrun.symm.trans hfail))
    have hheap := h.heap
    have hheap' : HeapOk sizeofBlock { kmemInit sizeofBlock m with
        allocationFailCount := (kmemInit sizeofBlock m).allocationFailCount + 1 } row :=
      ⟨hheap.initialized, hheap.head, hheap.laid, hheap.full, hheap.separated, hheap.bytes,
        hheap.live⟩
    refine ⟨row, hheap'.traceOk h.perm fun p hp ↦ ?_⟩
    exact List.mem_append_left _ (h.returned p hp)
  · obtain ⟨rfl, rfl⟩ := Prod.mk.inj (Except.ok.inj (hrun.symm.trans htake))
    obtain ⟨size', row', -, hheap, hperm⟩ := h.heap.take hle hpos hfree hfits
    refine ⟨row', hheap.traceOk ?_ fun p hp ↦ ?_⟩
    · refine (h.perm.cons _).trans ?_
      exact (hperm.map fun x ↦ x.1 + sizeofBlock.toNat).symm
    · obtain rfl | hp := List.mem_cons.mp hp
      · exact List.mem_append_right _ (List.mem_singleton_self _)
      · exact List.mem_append_left _ (h.returned p hp)

theorem TraceOk.free (hpos : 0 < sizeofBlock.toNat) (h : TraceOk sizeofBlock m live returned row)
    {pointer : ℕ} (hmem : pointer ∈ live) :
    ∃ m' row', kmemFree sizeofBlock m (some pointer) = .ok m' ∧
      TraceOk sizeofBlock m' (live.erase pointer) returned row' := by
  obtain ⟨⟨a, c⟩, hc, rfl⟩ := List.mem_map.mp (h.perm.mem_iff.mp hmem)
  obtain ⟨hstart, hused⟩ := List.mem_filter.mp hc
  obtain ⟨front, back, rfl, rfl⟩ := mem_starts_iff.mp hstart
  have hinit : kmemInit sizeofBlock m = m := by
    refine h.init.resolve_left fun hboot ↦ ?_
    simp [hboot.2] at hmem
  have hheap := h.heap
  rw [hinit] at hheap
  obtain ⟨m', row', hrun, hheap', hperm, -, -⟩ := hheap.release hpos hused
  rw [Nat.zero_add] at hmem ⊢
  refine ⟨m', row', hrun, hheap'.traceOk ?_ fun p hp ↦ h.returned p (List.mem_of_mem_erase hp)⟩
  have hpointers := (List.perm_cons_erase hmem).symm.trans
    (h.perm.trans (hperm.map fun x ↦ x.1 + sizeofBlock.toNat))
  exact hpointers.cons_inv

/-- **The heap is in order after any calls**, whatever the sizes. -/
theorem KmemTrace.traceOk (hpos : 0 < sizeofBlock) (hle : sizeofBlock ≤ 4096)
    (h : KmemTrace sizeofBlock calls m live returned) :
    ∃ row, TraceOk sizeofBlock m live returned row := by
  have hpos' : 0 < sizeofBlock.toNat := UInt32.lt_iff_toNat_lt.mp hpos
  have hle' : sizeofBlock.toNat ≤ 4096 := UInt32.le_iff_toNat_le.mp hle
  induction h with
  | boot => exact ⟨_, Or.inl ⟨rfl, rfl⟩, heapOk_init hle, .nil, by simp⟩
  | alloc _ hrun ih =>
    obtain ⟨row, hok⟩ := ih
    exact hok.alloc hle' hpos' hrun
  | free _ hmem hrun ih =>
    obtain ⟨row, hok⟩ := ih
    obtain ⟨m', row', hfree, hok'⟩ := hok.free hpos' hmem
    obtain rfl := Except.ok.inj (hrun.symm.trans hfree)
    exact ⟨row', hok'⟩
  | freeNull _ hrun ih =>
    obtain ⟨row, hok⟩ := ih
    obtain rfl := Except.ok.inj hrun
    exact ⟨row, hok⟩

/-! ## Sizes -/

/-- The allocation returns, and a pointer that is not null points to a block in the arena that is as
large as was asked for. -/
def AllocDelivers (sizeofBlock : UInt32) (m : Kmem) (size : UInt32) : Prop :=
  ∃ m' pointer, kmemAlloc sizeofBlock m size = .ok (m', pointer) ∧ ∀ p ∈ pointer,
    size.toNat ≤ (m'.block (p - sizeofBlock.toNat)).size.toNat ∧
      p + (m'.block (p - sizeofBlock.toNat)).size.toNat ≤ kmemArenaSize.toNat

/-- Every block of the list is in use. -/
def Kmem.Exhausted (m : Kmem) : Prop :=
  ∃ addresses, kmemWalk m kmemArenaSize.toNat m.head = .ok addresses ∧
    ∀ address ∈ addresses, (m.block address).used ≠ 0

theorem toNat_kmemAlignUp_of_lt {size : UInt32} (h : 2 ^ 32 - 8 < size.toNat) :
    (kmemAlignUp size).toNat = 0 := by
  have hseven : kmemAlignment - 1 = 7 := rfl
  have hlt := size.toNat_lt
  have hsum : (size + 7).toNat = size.toNat + 7 - 2 ^ 32 := by
    rw [UInt32.toNat_add]
    change (size.toNat + 7) % 2 ^ 32 = _
    omega
  rw [kmemAlignUp, hseven, toNat_and_not_seven, hsum]
  omega

theorem HeapOk.exhausted_iff (hpos : 0 < sizeofBlock.toNat) (h : HeapOk sizeofBlock m row) :
    m.Exhausted ↔ ∀ c ∈ row, c.used = true := by
  have hused : ∀ {a c}, (a, c) ∈ starts sizeofBlock.toNat 0 row →
      ((m.block a).used ≠ 0 ↔ c.used = true) := by
    intro a c hc
    have hmark : decide ((m.block a).used ≠ 0) = c.used := (h.laid.heads_eq hc).2
    rw [← hmark, decide_eq_true_eq]
  rw [Kmem.Exhausted, h.walk_eq hpos]
  constructor
  · rintro ⟨addresses, haddresses, hall⟩ c hc
    obtain rfl := Except.ok.inj haddresses
    rw [← map_snd_starts 0 row] at hc
    obtain ⟨⟨a, c⟩, hmem, rfl⟩ := List.mem_map.mp hc
    exact (hused hmem).mp (hall a (List.mem_map_of_mem hmem))
  · intro hall
    refine ⟨_, rfl, fun address haddress ↦ ?_⟩
    obtain ⟨⟨a, c⟩, hmem, rfl⟩ := List.mem_map.mp haddress
    refine (hused hmem).mpr (hall c ?_)
    rw [← map_snd_starts 0 row]
    exact List.mem_map_of_mem hmem

theorem HeapOk.taken_block (h : HeapOk sizeofBlock m row) {a : ℕ} {c : Segment}
    (hmem : (a, c) ∈ taken sizeofBlock.toNat 0 row) :
    (m.block a).size.toNat = c.size ∧ a + sizeofBlock.toNat + c.size ≤ 4096 := by
  have hstart := List.mem_of_mem_filter hmem
  have hbounds := mem_starts_bounds hstart
  rw [h.full] at hbounds
  exact ⟨(h.laid.heads_eq hstart).1, by omega⟩

/-- **When an allocation delivers what was asked for**: the size can be rounded up, or there is no
free block. -/
theorem HeapOk.allocDelivers_iff (hle : sizeofBlock.toNat ≤ 4096) (hpos : 0 < sizeofBlock.toNat)
    (h : HeapOk sizeofBlock (kmemInit sizeofBlock m) row) (size : UInt32) :
    AllocDelivers sizeofBlock m size ↔
      size.toNat ≤ 2 ^ 32 - 8 ∨ (kmemInit sizeofBlock m).Exhausted := by
  rw [h.exhausted_iff hpos]
  rcases kmemAlloc_cases hpos h size with
    ⟨hnone, hfail⟩ | ⟨front, c, back, rfl, -, hfree, hfits, htake⟩
  · refine iff_of_true ⟨_, none, hfail, by simp⟩ ?_
    refine or_iff_not_imp_left.mpr fun hlarge c hc ↦ ?_
    have hzero := toNat_kmemAlignUp_of_lt (Nat.lt_of_not_le hlarge)
    obtain rfl | hall := hnone
    · exact absurd (by decide) hlarge
    · by_contra hfree
      have hlt := hall c hc (Bool.not_eq_true _ |>.mp hfree)
      omega
  · obtain ⟨size', row', hsize, hheap, hperm⟩ := h.take hle hpos hfree hfits
    obtain ⟨hblock, hroom⟩ := hheap.taken_block (hperm.mem_iff.mpr List.mem_cons_self)
    constructor
    · rintro ⟨m', pointer, hrun, hdelivers⟩
      obtain ⟨rfl, rfl⟩ := Prod.mk.inj (Except.ok.inj (htake.symm.trans hrun))
      have hlarge := (hdelivers _ rfl).1
      rw [Nat.add_sub_cancel, hblock] at hlarge
      dsimp only at hlarge hroom
      exact Or.inl (by omega)
    · intro hcond
      refine ⟨_, _, htake, fun p hp ↦ ?_⟩
      obtain rfl := Option.some.inj hp
      have hrounds : size.toNat ≤ 2 ^ 32 - 8 := by
        refine hcond.resolve_right fun hall ↦ ?_
        have hused := hall c (by simp)
        rw [hfree] at hused
        cases hused
      rw [toNat_kmemAlignUp hrounds] at hsize
      rw [Nat.add_sub_cancel, hblock]
      exact ⟨by dsimp only; omega, hroom⟩

/-- **Allocation and size**, in every heap that can be reached. -/
theorem kmemAlloc_delivers_iff (hpos : 0 < sizeofBlock) (hle : sizeofBlock ≤ 4096)
    (htrace : KmemTrace sizeofBlock calls m live returned) (size : UInt32) :
    AllocDelivers sizeofBlock m size ↔
      size.toNat ≤ 2 ^ 32 - 8 ∨ (kmemInit sizeofBlock m).Exhausted := by
  obtain ⟨row, hok⟩ := htrace.traceOk hpos hle
  exact hok.heap.allocDelivers_iff (UInt32.le_iff_toNat_le.mp hle)
    (UInt32.lt_iff_toNat_lt.mp hpos) size

/-- At boot, 64 bytes. -/
theorem kmemAlloc_delivers_boot : AllocDelivers 12 .boot 64 :=
  (kmemAlloc_delivers_iff (by decide) (by decide) .boot 64).mpr (Or.inl (by decide))

/-- The largest size is rounded to 0, and the first block of the arena is cut to no bytes. -/
theorem kmemAlloc_underdelivers : ¬ ∀ (calls : List KmemCall) (m : Kmem) (live returned : List ℕ)
    (size : UInt32), KmemTrace 12 calls m live returned → AllocDelivers 12 m size := by
  intro hall
  obtain ⟨m', pointer, hrun, hdelivers⟩ := hall [] .boot [] [] 0xFFFFFFFF .boot
  have halloc : kmemAlloc 12 .boot 0xFFFFFFFF =
      .ok (kmemTake 12 (kmemInit 12 .boot) 0 0, some 12) := rfl
  obtain ⟨rfl, rfl⟩ := Prod.mk.inj (Except.ok.inj (halloc.symm.trans hrun))
  exact absurd (hdelivers 12 rfl).1 (by decide)

/-! ## Alignment -/

/-- Before anything is returned, the arena is one free block. -/
theorem TraceOk.row_eq (hle : sizeofBlock ≤ 4096) (h : TraceOk sizeofBlock m live [] row) :
    row = [⟨4096 - sizeofBlock.toNat, false⟩] := by
  have hlive : live = [] := List.eq_nil_iff_forall_not_mem.mpr fun p hp ↦
    List.not_mem_nil (h.returned p hp)
  have hperm := h.perm
  rw [hlive] at hperm
  exact (h.heap.eq_initial hle (List.map_eq_nil_iff.mp hperm.nil_eq.symm)).1

/-- An allocation that the fresh heap cannot meet. -/
def KmemCall.Unmet (sizeofBlock : UInt32) : KmemCall → Prop
  | .alloc size => size = 0 ∨ 4096 - sizeofBlock.toNat < (kmemAlignUp size).toNat
  | .free _ => True

/-- The first allocation that the fresh heap can meet returns the start of the arena, behind the
header. -/
theorem KmemTrace.first_returned (hpos : 0 < sizeofBlock) (hle : sizeofBlock ≤ 4096)
    (h : KmemTrace sizeofBlock calls m live returned) :
    (returned = [] ∧ ∀ call ∈ calls, call.Unmet sizeofBlock) ∨
      sizeofBlock.toNat ∈ returned ∧ ∃ call ∈ calls, ¬ call.Unmet sizeofBlock := by
  have hpos' : 0 < sizeofBlock.toNat := UInt32.lt_iff_toNat_lt.mp hpos
  -- a call is added that returns nothing
  have hadd : ∀ {calls returned} (call : KmemCall), call.Unmet sizeofBlock →
      ((returned = [] ∧ ∀ call ∈ calls, call.Unmet sizeofBlock) ∨
        sizeofBlock.toNat ∈ returned ∧ ∃ call ∈ calls, ¬ call.Unmet sizeofBlock) →
      (returned = [] ∧ ∀ call' ∈ calls ++ [call], call'.Unmet sizeofBlock) ∨
        sizeofBlock.toNat ∈ returned ∧ ∃ call' ∈ calls ++ [call], ¬ call'.Unmet sizeofBlock := by
    rintro calls returned call hcall (⟨hnone, hall⟩ | ⟨hmem, call', hcall', hmet⟩)
    · refine Or.inl ⟨hnone, fun call' hcall' ↦ ?_⟩
      obtain hcall' | hcall' := List.mem_append.mp hcall'
      · exact hall call' hcall'
      · exact List.mem_singleton.mp hcall' ▸ hcall
    · exact Or.inr ⟨hmem, call', List.mem_append_left _ hcall', hmet⟩
  induction h with
  | boot => exact Or.inl ⟨rfl, by simp⟩
  | free _ _ _ ih => exact hadd _ trivial ih
  | freeNull _ _ ih => exact hadd _ trivial ih
  | @alloc calls m m' live returned size pointer htrace hrun ih =>
    obtain ⟨rfl, hall⟩ | ⟨hmem, call, hcall, hmet⟩ := ih
    · obtain ⟨row, hok⟩ := htrace.traceOk hpos hle
      have hrow := hok.row_eq hle
      rcases kmemAlloc_cases hpos' hok.heap size with
        ⟨hnone, hfail⟩ | ⟨front, c, back, hsplit, hzero, -, hfits, htake⟩
      · obtain ⟨rfl, rfl⟩ := Prod.mk.inj (Except.ok.inj (hrun.symm.trans hfail))
        refine hadd _ (hnone.imp_right fun hsmall ↦ ?_) (Or.inl ⟨rfl, hall⟩)
        exact hsmall _ (hrow ▸ List.mem_singleton_self _) rfl
      · obtain ⟨rfl, rfl⟩ := Prod.mk.inj (Except.ok.inj (hrun.symm.trans htake))
        obtain ⟨rfl, rfl, rfl⟩ : front = [] ∧ c = ⟨4096 - sizeofBlock.toNat, false⟩ ∧
          back = [] := by
          rw [hrow, List.singleton_eq_append_iff] at hsplit
          obtain ⟨hfront, hback⟩ | ⟨-, hback⟩ := hsplit
          · exact ⟨hfront, List.cons.inj hback⟩
          · cases hback
        refine Or.inr ⟨by simp, .alloc size, by simp, ?_⟩
        rintro (h | h)
        · exact hzero h
        · exact absurd hfits (Nat.not_le_of_lt h)
    · exact Or.inr ⟨List.mem_append_left _ hmem, call, List.mem_append_left _ hcall, hmet⟩

/-- **Alignment on the 32-bit target**: all pointers that are returned are aligned exactly if there
are none, because every allocation is for no bytes or for more than the arena holds. -/
theorem kmemAlloc_aligned_iff {base : ℕ} (hbase : kmemAlignment.toNat ∣ base)
    (htrace : KmemTrace 12 calls m live returned) :
    (∀ pointer ∈ returned, kmemAlignment.toNat ∣ base + pointer) ↔
      ∀ size, .alloc size ∈ calls → size = 0 ∨ 4084 < (kmemAlignUp size).toNat := by
  obtain ⟨rfl, hunmet⟩ | ⟨hmem, call, hcall, hmet⟩ :=
    htrace.first_returned (by decide) (by decide)
  · exact iff_of_true (by simp) fun size hsize ↦ hunmet _ hsize
  · refine iff_of_false (fun hall ↦ ?_) fun hall ↦ ?_
    · have hdvd := (Nat.dvd_add_right hbase).mp (hall _ hmem)
      exact absurd hdvd (by decide)
    · cases call with
      | alloc size => exact hmet (hall size hcall)
      | free pointer => exact hmet trivial

/-- A call for more than there is. -/
theorem kmemAlloc_aligned_large : ∃ m, KmemTrace 12 [.alloc 5000] m [] [] ∧
    ∀ pointer ∈ ([] : List ℕ), kmemAlignment.toNat ∣ 8192 + pointer := by
  have halloc : kmemAlloc 12 .boot 5000 = .ok (_, none) := rfl
  have htrace : KmemTrace 12 [.alloc 5000] _ [] [] := KmemTrace.boot.alloc halloc
  refine ⟨_, htrace, (kmemAlloc_aligned_iff (by decide) htrace).mpr fun size hsize ↦ ?_⟩
  obtain rfl : size = 5000 := by simpa using hsize
  exact Or.inr (by decide)

/-- The first allocation is not aligned. -/
theorem kmemAlloc_misaligned : ¬ ∀ (base : ℕ) (calls : List KmemCall) (m : Kmem)
    (live returned : List ℕ), kmemAlignment.toNat ∣ base → KmemTrace 12 calls m live returned →
      ∀ pointer ∈ returned, kmemAlignment.toNat ∣ base + pointer := by
  intro hall
  have halloc : kmemAlloc 12 .boot 8 = .ok (_, some 12) := rfl
  have htrace : KmemTrace 12 [.alloc 8] _ [12] [12] := KmemTrace.boot.alloc halloc
  exact absurd (hall 8192 _ _ _ _ (by decide) htrace 12 (by simp)) (by decide)

end

end TensorOS
