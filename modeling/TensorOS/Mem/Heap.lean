import TensorOS.Mem.Kmem

/-!
# What the kernel heap does

The list of blocks is a row of segments that fills the arena. Each operation is described by what it
does to that row.
-/

namespace TensorOS

/-- The header of a block as a header of a segment. -/
def Kmem.headerAt (m : Kmem) (address : ℕ) : SegmentHeader :=
  ⟨(m.block address).size.toNat, (m.block address).used ≠ 0, (m.block address).next⟩

/-- **The heap**: the list of blocks fills the arena, no two free blocks are neighbours, and the
counters are those of the blocks in use. -/
structure HeapOk (sizeofBlock : UInt32) (m : Kmem) (row : List Segment) : Prop where
  initialized : m.initialized ≠ 0
  head : m.head = some 0
  laid : LaidTo sizeofBlock.toNat m.headerAt (some 0) 0 row none
  full : extent sizeofBlock.toNat row = 4096
  separated : Separated row
  bytes : m.bytesInUse.toNat = ((taken sizeofBlock.toNat 0 row).map fun x ↦ x.2.size).sum
  live : m.liveAllocations.toNat = (taken sizeofBlock.toNat 0 row).length

section

variable {sizeofBlock : UInt32} {m : Kmem} {row : List Segment}

theorem setBlock_headerAt (m : Kmem) (address : ℕ) (b : KmemBlock) (x : ℕ) :
    (m.setBlock address b).headerAt x
      = if x = address then ⟨b.size.toNat, b.used ≠ 0, b.next⟩ else m.headerAt x := by
  simp only [Kmem.headerAt, Kmem.setBlock, Function.update_apply]
  split <;> rfl

theorem HeapOk.kmemInit_eq (h : HeapOk sizeofBlock m row) : kmemInit sizeofBlock m = m :=
  if_pos h.initialized

theorem heapOk_init (hle : sizeofBlock ≤ 4096) :
    HeapOk sizeofBlock (kmemInit sizeofBlock .boot) [⟨4096 - sizeofBlock.toNat, false⟩] := by
  have hle' : sizeofBlock.toNat ≤ 4096 := UInt32.le_iff_toNat_le.mp hle
  have hsize : (kmemArenaSize - sizeofBlock).toNat = 4096 - sizeofBlock.toNat :=
    UInt32.toNat_sub_of_le _ _ hle
  refine ⟨by simp [kmemInit, Kmem.boot], rfl, ⟨rfl, hsize, rfl, rfl⟩, ?_, .singleton _, rfl, rfl⟩
  rw [extent_cons, extent_nil]
  dsimp only
  omega

/-! ## Rounding -/

theorem toNat_and_not_seven (x : UInt32) : (x &&& ~~~7).toNat = x.toNat / 8 * 8 := by
  have hmask : (~~~7 : UInt32).toNat = (2 ^ 29 - 1) <<< 3 := by decide
  have hdiv : x.toNat / 8 * 8 = (x.toNat >>> 3) <<< 3 := by
    rw [Nat.shiftRight_eq_div_pow, Nat.shiftLeft_eq]
  rw [UInt32.toNat_and, hmask, hdiv]
  refine Nat.eq_of_testBit_eq fun i ↦ ?_
  rw [Nat.testBit_and, Nat.testBit_shiftLeft, Nat.testBit_shiftLeft, Nat.testBit_two_pow_sub_one,
    Nat.testBit_shiftRight]
  by_cases hi : 3 ≤ i
  · rw [Nat.add_sub_cancel' hi]
    by_cases hlt : i < 32
    · simp [hi, show i - 3 < 29 by omega]
    · have hbit : x.toNat.testBit i = false :=
        Nat.testBit_lt_two_pow (x.toNat_lt.trans_le (Nat.pow_le_pow_right (by simp) (by omega)))
      simp [hbit]
  · simp [hi]

theorem toNat_kmemAlignUp {size : UInt32} (h : size.toNat ≤ 2 ^ 32 - 8) :
    (kmemAlignUp size).toNat = (size.toNat + 7) / 8 * 8 := by
  have hseven : kmemAlignment - 1 = 7 := rfl
  rw [kmemAlignUp, hseven, toNat_and_not_seven, UInt32.toNat_add, Nat.mod_eq_of_lt]
  · rfl
  · change size.toNat + 7 < 2 ^ 32
    omega

/-! ## The loops -/

/-- The search ends, and finds the first segment that is free and large enough. -/
theorem kmemFirstFit_spec {first : Option ℕ} {a fuel : ℕ} (n : UInt32)
    (h : LaidTo sizeofBlock.toNat m.headerAt first a row none) (hfuel : row.length ≤ fuel) :
    (kmemFirstFit m n fuel first = .ok none ∧ ∀ c ∈ row, c.used = false → c.size < n.toNat) ∨
    ∃ front c back, row = front ++ c :: back ∧ c.used = false ∧ n.toNat ≤ c.size ∧
      kmemFirstFit m n fuel first = .ok (some (a + extent sizeofBlock.toNat front)) := by
  induction row generalizing first a fuel with
  | nil =>
    obtain rfl : first = none := h
    exact Or.inl ⟨by cases fuel <;> rfl, by simp⟩
  | cons c row ih =>
    obtain ⟨rfl, hsize, hused, hrow⟩ := h
    obtain ⟨fuel, rfl⟩ : ∃ k, fuel = k + 1 := ⟨fuel - 1, by simp at hfuel; omega⟩
    have hsize : (m.block a).size.toNat = c.size := hsize
    have hused : decide ((m.block a).used ≠ 0) = c.used := hused
    have hfits : (m.block a).used = 0 ∧ (m.block a).size ≥ n ↔
        c.used = false ∧ n.toNat ≤ c.size := by
      rw [ge_iff_le, UInt32.le_iff_toNat_le, hsize, ← hused]
      simp
    rw [kmemFirstFit]
    by_cases hc : c.used = false ∧ n.toNat ≤ c.size
    · exact Or.inr ⟨[], c, row, rfl, hc.1, hc.2, by rw [if_pos (hfits.mpr hc)]; rfl⟩
    · rw [if_neg (mt hfits.mp hc)]
      rcases ih hrow (by simpa using hfuel) with ⟨hnone, hall⟩ |
        ⟨front, d, back, rfl, hd, hle, hfit⟩
      · refine Or.inl ⟨hnone, fun d hd hfree ↦ ?_⟩
        rcases List.mem_cons.mp hd with rfl | hd
        · exact Nat.lt_of_not_le fun hle ↦ hc ⟨hfree, hle⟩
        · exact hall d hd hfree
      · refine Or.inr ⟨c :: front, d, back, rfl, hd, hle, ?_⟩
        have hfit : kmemFirstFit m n fuel (m.block a).next
          = .ok (some (a + sizeofBlock.toNat + c.size + extent sizeofBlock.toNat front)) := hfit
        rw [hfit, extent_cons]
        congr 2
        omega

/-- Merging ends, leaves what lies before alone, and merges the rest of the row. -/
theorem kmemCoalesceFrom_spec (hpos : 0 < sizeofBlock.toNat) {a : ℕ} (fuel : ℕ) (c : Segment)
    (h : LaidTo sizeofBlock.toNat m.headerAt (some a) a (c :: row) none)
    (hroom : extent sizeofBlock.toNat (c :: row) ≤ 4096) (hfuel : row.length < fuel) :
    ∃ block, kmemCoalesceFrom sizeofBlock fuel m (some a) = .ok { m with block := block } ∧
      (∀ x < a, block x = m.block x) ∧
      LaidTo sizeofBlock.toNat { m with block := block }.headerAt (some a) a
        (mergeFrom sizeofBlock.toNat c row) none := by
  induction row generalizing m a fuel c with
  | nil =>
    obtain ⟨-, hsize, hused, hnext⟩ := h
    obtain ⟨fuel, rfl⟩ : ∃ k, fuel = k + 1 := ⟨fuel - 1, by omega⟩
    have hnext : (m.block a).next = none := hnext
    exact ⟨m.block, by rw [kmemCoalesceFrom]; simp [hnext], fun _ _ ↦ rfl, rfl, hsize, hused, hnext⟩
  | cons d row ih =>
    obtain ⟨-, hsize, hused, hnext, hsize', hused', hrow⟩ := h
    obtain ⟨fuel, rfl⟩ : ∃ k, fuel = k + 1 := ⟨fuel - 1, by simp at hfuel; omega⟩
    set next := a + sizeofBlock.toNat + c.size with hnextdef
    have hnext : (m.block a).next = some next := hnext
    have hsize : (m.block a).size.toNat = c.size := hsize
    have hsize' : (m.block next).size.toNat = d.size := hsize'
    have hused : decide ((m.block a).used ≠ 0) = c.used := hused
    have hused' : decide ((m.block next).used ≠ 0) = d.used := hused'
    have hfree : (m.block a).used = 0 ∧ (m.block next).used = 0 ↔
        c.used = false ∧ d.used = false := by
      rw [← hused, ← hused']
      simp
    rw [extent_cons, extent_cons] at hroom
    rw [mergeFrom, kmemCoalesceFrom]
    simp only [hnext]
    by_cases hboth : c.used = false ∧ d.used = false
    · rw [if_pos hboth, if_pos (hfree.mpr hboth)]
      -- the two blocks become one, at the place of the first
      have hsum : ((m.block a).size + (sizeofBlock + (m.block next).size)).toNat
          = c.size + sizeofBlock.toNat + d.size := by
        rw [UInt32.toNat_add, UInt32.toNat_add, hsize, hsize', Nat.mod_eq_of_lt,
          Nat.mod_eq_of_lt] <;>
          omega
      set m₁ := m.setBlock a { m.block a with
        size := (m.block a).size + (sizeofBlock + (m.block next).size)
        next := (m.block next).next } with hm₁
      have hlaid : LaidTo sizeofBlock.toNat m₁.headerAt (some a) a
          (⟨c.size + sizeofBlock.toNat + d.size, false⟩ :: row) none := by
        have ha := setBlock_headerAt m a { m.block a with
          size := (m.block a).size + (sizeofBlock + (m.block next).size)
          next := (m.block next).next } a
        rw [← hm₁, if_pos rfl] at ha
        refine ⟨rfl, by rw [ha]; exact hsum, by rw [ha]; exact hused.trans hboth.1, ?_⟩
        rw [ha]
        have hplace : a + sizeofBlock.toNat + (c.size + sizeofBlock.toNat + d.size)
            = next + sizeofBlock.toNat + d.size := by omega
        rw [hplace]
        refine LaidTo.of_bounds hpos hrow fun b hb _ ↦ ?_
        rw [hm₁, setBlock_headerAt, if_neg (by omega)]
      obtain ⟨block, hrun, hbefore, hlaid'⟩ := ih fuel _ hlaid (by
        rw [extent_cons]
        dsimp only
        omega) (by simpa using hfuel)
      refine ⟨block, hrun, fun x hx ↦ ?_, hlaid'⟩
      rw [hbefore x hx, hm₁]
      exact Function.update_of_ne (by omega) ..
    · rw [if_neg hboth, if_neg (mt hfree.mp hboth)]
      obtain ⟨block, hrun, hbefore, hlaid'⟩ := ih fuel d ⟨rfl, hsize', hused', hrow⟩
        (by rw [extent_cons]; omega) (by simpa using hfuel)
      have ha : block a = m.block a := hbefore a (by omega)
      refine ⟨block, hrun, fun x hx ↦ hbefore x (by omega), rfl, ?_, ?_, ?_⟩
      · simp only [Kmem.headerAt, ha, hsize]
      · simp only [Kmem.headerAt, ha, hused]
      · simp only [Kmem.headerAt, ha, hnext]
        exact hlaid'

/-! ## Taking and giving back -/

theorem taken_middle {header : ℕ} (front middle back : List Segment) :
    taken header 0 (front ++ (middle ++ back))
      = taken header 0 front ++ (taken header (extent header front) middle ++
        taken header (extent header front + extent header middle) back) := by
  rw [taken_append, taken_append, Nat.zero_add]

theorem kmemTake_block (hle : sizeofBlock.toNat ≤ 4096) (hpos : 0 < sizeofBlock.toNat) {address : ℕ}
    {n : UInt32} {c : Segment} (hsize : (m.block address).size.toNat = c.size)
    (hn : n.toNat ≤ c.size) :
    LaidTo sizeofBlock.toNat (kmemTake sizeofBlock m address n).headerAt (some address) address
        (carve sizeofBlock.toNat (sizeofBlock.toNat + 8) n.toNat c) (m.block address).next ∧
      ∀ x, x < address ∨ address + sizeofBlock.toNat + c.size ≤ x →
        (kmemTake sizeofBlock m address n).headerAt x = m.headerAt x := by
  have hremaining : ((m.block address).size - n).toNat = c.size - n.toNat := by
    rw [UInt32.toNat_sub_of_le, hsize]
    rwa [UInt32.le_iff_toNat_le, hsize]
  have hslack : (sizeofBlock + kmemAlignment).toNat = sizeofBlock.toNat + 8 := by
    rw [UInt32.toNat_add, Nat.mod_eq_of_lt]
    · rfl
    · change sizeofBlock.toNat + 8 < 2 ^ 32
      omega
  have hsplit : (m.block address).size - n ≤ sizeofBlock + kmemAlignment ↔
      c.size - n.toNat ≤ sizeofBlock.toNat + 8 := by
    rw [UInt32.le_iff_toNat_le, hremaining, hslack]
  by_cases hsmall : c.size - n.toNat ≤ sizeofBlock.toNat + 8
  · have htake : ∀ x, (kmemTake sizeofBlock m address n).headerAt x
        = (m.setBlock address { m.block address with used := 1 }).headerAt x := by
      intro x
      rw [kmemTake, kmemSplitBlock, if_pos (hsplit.mpr hsmall)]
      rfl
    refine ⟨?_, fun x hx ↦ ?_⟩
    · rw [carve, if_pos hsmall]
      refine ⟨rfl, ?_, ?_, ?_⟩ <;> rw [htake, setBlock_headerAt, if_pos rfl]
      · exact hsize
      · rfl
      · rfl
    · rw [htake, setBlock_headerAt, if_neg (by omega)]
  · set next := address + sizeofBlock.toNat + n.toNat with hnext
    have hrest : ((m.block address).size - n - sizeofBlock).toNat
        = c.size - n.toNat - sizeofBlock.toNat := by
      rw [UInt32.toNat_sub_of_le, hremaining]
      rw [UInt32.le_iff_toNat_le, hremaining]
      omega
    have htake : ∀ x, (kmemTake sizeofBlock m address n).headerAt x
        = if x = address then ⟨n.toNat, true, some next⟩
          else if x = next then
            ⟨c.size - n.toNat - sizeofBlock.toNat, false, (m.block address).next⟩
          else m.headerAt x := by
      intro x
      rw [kmemTake, kmemSplitBlock, if_neg (mt hsplit.mp hsmall)]
      change ((((m.setBlock next _).setBlock address _).setBlock address _).headerAt x) = _
      rw [setBlock_headerAt, setBlock_headerAt, setBlock_headerAt]
      by_cases hx : x = address
      · rw [if_pos hx, if_pos hx]
        simp [Kmem.setBlock, hnext]
      · rw [if_neg hx, if_neg hx, if_neg hx, hrest]
        simp
    refine ⟨?_, fun x hx ↦ ?_⟩
    · rw [carve, if_neg hsmall]
      have haddress := htake address
      have hatnext := htake next
      rw [if_pos rfl] at haddress
      rw [if_neg (by omega), if_pos rfl] at hatnext
      refine ⟨rfl, by rw [haddress], by rw [haddress], ?_⟩
      rw [haddress]
      exact ⟨rfl, by rw [hatnext], by rw [hatnext], by rw [hatnext]; rfl⟩
    · rw [htake, if_neg (by omega), if_neg (by omega)]

theorem kmemSplitBlock_eq (sizeofBlock : UInt32) (m : Kmem) (address : ℕ) (n : UInt32) : ∃ block,
    kmemSplitBlock sizeofBlock m address n = { m with block := block } := by
  rw [kmemSplitBlock]
  dsimp only
  split
  · exact ⟨m.block, rfl⟩
  · exact ⟨_, rfl⟩

theorem kmemTake_eq (sizeofBlock : UInt32) (m : Kmem) (address : ℕ) (n : UInt32) :
    ∃ block bytesInUse, bytesInUse = m.bytesInUse + (block address).size ∧
      kmemTake sizeofBlock m address n = { m with
        block := block
        bytesInUse := bytesInUse
        peakBytesInUse := if bytesInUse > m.peakBytesInUse then bytesInUse else m.peakBytesInUse
        allocationCount := m.allocationCount + 1
        liveAllocations := m.liveAllocations + 1
        peakLiveAllocations := if m.liveAllocations + 1 > m.peakLiveAllocations then
          m.liveAllocations + 1 else m.peakLiveAllocations } := by
  obtain ⟨block, hsplit⟩ := kmemSplitBlock_eq sizeofBlock m address n
  rw [kmemTake, hsplit]
  exact ⟨_, _, rfl, rfl⟩

/-- **Taking a free block** that is large enough. -/
theorem HeapOk.take (hle : sizeofBlock.toNat ≤ 4096) (hpos : 0 < sizeofBlock.toNat)
    {front back : List Segment} {c : Segment} (h : HeapOk sizeofBlock m (front ++ c :: back))
    (hfree : c.used = false) {n : UInt32} (hn : n.toNat ≤ c.size) :
    ∃ size row', n.toNat ≤ size ∧
      HeapOk sizeofBlock (kmemTake sizeofBlock m (extent sizeofBlock.toNat front) n) row' ∧
      (taken sizeofBlock.toNat 0 row').Perm ((extent sizeofBlock.toNat front, ⟨size, true⟩) ::
        taken sizeofBlock.toNat 0 (front ++ c :: back)) := by
  set H := sizeofBlock.toNat with hH
  have hmem : (extent H front, c) ∈ starts H 0 (front ++ c :: back) :=
    mem_starts_iff.mpr ⟨front, back, rfl, (Nat.zero_add _).symm⟩
  obtain ⟨hmiddle, hsame⟩ := kmemTake_block hle hpos (h.laid.heads_eq hmem).1 hn
  obtain ⟨size, rest, hcarve, hsize, hrest, -⟩ := exists_carve H (H + 8) n.toNat hn
  have hextent : extent H (carve H (H + 8) n.toNat c) = H + c.size :=
    extent_carve hn (Nat.le_add_right H 8)
  have hbefore : taken H 0 (front ++ c :: back)
      = taken H 0 front ++ taken H (extent H front + (H + c.size)) back := by
    rw [taken_append, taken_cons, hfree, Nat.zero_add, ← Nat.add_assoc]
    rfl
  have hrest' : ∀ a, taken H a rest = [] := fun a ↦ by
    refine List.filter_eq_nil_iff.mpr fun x hx ↦ ?_
    have hx' : x.2 ∈ rest := by
      rw [← map_snd_starts a rest]
      exact List.mem_map_of_mem hx
    simp [hrest x.2 hx']
  have hafter : taken H 0 (front ++ (carve H (H + 8) n.toNat c ++ back)) = taken H 0 front ++
      ((extent H front, ⟨size, true⟩) :: taken H (extent H front + (H + c.size)) back) := by
    rw [taken_middle, hextent, hcarve, taken_cons, hrest']
    rfl
  have hperm : (taken H 0 (front ++ (carve H (H + 8) n.toNat c ++ back))).Perm
      ((extent H front, ⟨size, true⟩) :: taken H 0 (front ++ c :: back)) := by
    rw [hafter, hbefore]
    exact List.perm_middle
  have hfull : extent H (front ++ (carve H (H + 8) n.toNat c ++ back)) = 4096 := by
    rw [← h.full, extent_append, extent_append, extent_append, extent_cons, hextent]
  have hsum := (hperm.map fun x ↦ x.2.size).sum_eq
  have hlength := hperm.length_eq
  rw [List.map_cons, List.sum_cons, ← h.bytes] at hsum
  dsimp only at hsum
  rw [List.length_cons, ← h.live] at hlength
  have hroom := (size_taken_le 0 _).trans_eq hfull
  have hcount := (length_taken_le hpos 0 _).trans_eq hfull
  obtain ⟨block, bytesInUse, hbytes, htake⟩ := kmemTake_eq sizeofBlock m (extent H front) n
  refine ⟨size, _, hsize, ⟨?_, ?_, ?_, hfull, h.separated.carve hfree (H + 8) n.toNat hn, ?_, ?_⟩,
    hperm⟩
  · rw [htake]
    exact h.initialized
  · rw [htake]
    exact h.head
  · refine h.laid.replace hpos ?_ hextent ?_
    · intro b hb
      rw [Nat.zero_add] at hb
      exact hsame b hb
    · rw [Nat.zero_add]
      exact hmiddle
  · rw [hsum, htake]
    rw [hcarve, htake] at hmiddle
    have hblock : (block (extent H front)).size.toNat = size := hmiddle.2.1
    change bytesInUse.toNat = size + m.bytesInUse.toNat
    rw [hbytes, UInt32.toNat_add, hblock, Nat.mod_eq_of_lt] <;> omega
  · rw [hlength, htake]
    change (m.liveAllocations + 1).toNat = _
    rw [UInt32.toNat_add, Nat.mod_eq_of_lt]
    · rfl
    · change m.liveAllocations.toNat + 1 < 2 ^ 32
      omega

/-- Merging a whole heap whose free neighbours may be unmerged. -/
theorem kmemCoalesce_spec (hpos : 0 < sizeofBlock.toNat) (hhead : m.head = some 0)
    (hlaid : LaidTo sizeofBlock.toNat m.headerAt (some 0) 0 row none)
    (hfull : extent sizeofBlock.toNat row = 4096) :
    ∃ block row', kmemCoalesce sizeofBlock m = .ok { m with block := block } ∧
      LaidTo sizeofBlock.toNat { m with block := block }.headerAt (some 0) 0 row' none ∧
      extent sizeofBlock.toNat row' = 4096 ∧ Separated row' ∧
      taken sizeofBlock.toNat 0 row' = taken sizeofBlock.toNat 0 row := by
  cases row with
  | nil => cases hfull
  | cons c row =>
    have hlength := (length_le_extent hpos (c :: row)).trans_eq hfull
    obtain ⟨block, hrun, -, hlaid'⟩ := kmemCoalesceFrom_spec hpos 4096 c hlaid hfull.le
      (by simpa using hlength)
    refine ⟨block, mergeFrom sizeofBlock.toNat c row, ?_, hlaid', ?_, separated_mergeFrom c row,
      taken_mergeFrom 0 c row⟩
    · have hloop : kmemCoalesce sizeofBlock m = kmemCoalesceFrom sizeofBlock 4096 m (some 0) := by
        rw [kmemCoalesce, hhead]
        rfl
      exact hloop.trans hrun
    · rw [extent_mergeFrom, hfull]

/-- **Giving a block back.** -/
theorem HeapOk.release (hpos : 0 < sizeofBlock.toNat) {front back : List Segment} {c : Segment}
    (h : HeapOk sizeofBlock m (front ++ c :: back)) (hused : c.used = true) :
    ∃ m' row', kmemFree sizeofBlock m (some (extent sizeofBlock.toNat front + sizeofBlock.toNat))
        = .ok m' ∧ HeapOk sizeofBlock m' row' ∧
      (taken sizeofBlock.toNat 0 (front ++ c :: back)).Perm
        ((extent sizeofBlock.toNat front, c) :: taken sizeofBlock.toNat 0 row') ∧
      m'.peakBytesInUse = m.peakBytesInUse ∧ m'.peakLiveAllocations = m.peakLiveAllocations := by
  set H := sizeofBlock.toNat with hH
  set address := extent H front with haddress
  have hmem : (address, c) ∈ starts H 0 (front ++ c :: back) :=
    mem_starts_iff.mpr ⟨front, back, rfl, (Nat.zero_add _).symm⟩
  obtain ⟨hsize, hmark⟩ := h.laid.heads_eq hmem
  have hsize : (m.block address).size.toNat = c.size := hsize
  have hnot : (m.block address).used ≠ 0 := by
    have hmark : decide ((m.block address).used ≠ 0) = c.used := hmark
    rw [hused, decide_eq_true_eq] at hmark
    exact hmark
  have hbefore : taken H 0 (front ++ c :: back)
      = taken H 0 front ++ (address, c) :: taken H (address + (H + c.size)) back := by
    rw [taken_append, taken_cons, hused, Nat.zero_add, ← Nat.add_assoc]
    rfl
  have hafter : taken H 0 (front ++ ([⟨c.size, false⟩] ++ back))
      = taken H 0 front ++ taken H (address + (H + c.size)) back := by
    rw [taken_middle, extent_cons, extent_nil, Nat.add_zero]
    rfl
  have hperm : (taken H 0 (front ++ c :: back)).Perm
      ((address, c) :: taken H 0 (front ++ ([⟨c.size, false⟩] ++ back))) := by
    rw [hafter, hbefore]
    exact List.perm_middle
  have hsum := (hperm.map fun x ↦ x.2.size).sum_eq
  have hlength := hperm.length_eq
  rw [List.map_cons, List.sum_cons, ← h.bytes] at hsum
  dsimp only at hsum
  rw [List.length_cons, ← h.live] at hlength
  have hge : m.bytesInUse ≥ (m.block address).size := by
    rw [ge_iff_le, UInt32.le_iff_toNat_le, hsize]
    omega
  have hlive : m.liveAllocations ≠ 0 := by
    rw [Ne, ← UInt32.toNat_inj, hlength]
    simp
  set m₁ : Kmem := { m.setBlock address { m.block address with used := 0 } with
    bytesInUse := if m.bytesInUse ≥ (m.block address).size then
      m.bytesInUse - (m.block address).size else 0
    liveAllocations := if m.liveAllocations ≠ 0 then m.liveAllocations - 1 else m.liveAllocations
    freeCount := m.freeCount + 1 } with hm₁
  have hlaid₁ : LaidTo H m₁.headerAt (some 0) 0 (front ++ ([⟨c.size, false⟩] ++ back)) none := by
    have hat : ∀ x, m₁.headerAt x
        = if x = address then ⟨c.size, false, (m.block address).next⟩ else m.headerAt x := by
      intro x
      rw [← hsize]
      exact setBlock_headerAt m address { m.block address with used := 0 } x
    refine h.laid.replace hpos ?_ ?_ ?_
    · intro b hb
      rw [hat, if_neg (by omega)]
    · rw [extent_cons, extent_nil, Nat.add_zero]
    · rw [Nat.zero_add]
      have haddr := hat address
      rw [if_pos rfl] at haddr
      exact ⟨rfl, by rw [haddr], by rw [haddr], by rw [haddr]; rfl⟩
  have hfull₁ : extent H (front ++ ([⟨c.size, false⟩] ++ back)) = 4096 := by
    rw [← h.full, extent_append, extent_append, extent_append, extent_cons, extent_cons, extent_nil,
      Nat.add_zero]
  obtain ⟨block, row', hrun, hlaid', hfull', hsep', htaken'⟩ :=
    kmemCoalesce_spec hpos (m := m₁) h.head hlaid₁ hfull₁
  refine ⟨{ m₁ with block := block }, row', ?_,
    ⟨h.initialized, h.head, hlaid', hfull', hsep', ?_, ?_⟩, ?_, rfl, rfl⟩
  · rw [kmemFree, Nat.add_sub_cancel]
    exact (if_neg hnot).trans hrun
  · rw [htaken']
    change (if m.bytesInUse ≥ (m.block address).size then _ else 0 : UInt32).toNat = _
    rw [if_pos hge, UInt32.toNat_sub_of_le _ _ hge, hsize, hsum]
    exact Nat.add_sub_cancel_left ..
  · rw [htaken']
    change (if m.liveAllocations ≠ 0 then m.liveAllocations - 1 else _ : UInt32).toNat = _
    rw [if_pos hlive, UInt32.toNat_sub_of_le, hlength]
    · exact Nat.add_sub_cancel ..
    · rw [UInt32.le_iff_toNat_le, hlength]
      simp
  · rw [htaken']
    exact hperm

end

end TensorOS
