import TensorOS.Fs.ValidateSpec

/-!
# The validator on any memory contents

`runtime_fs_validate` is there to catch a corrupted file system, so its inputs are the malformed
ones. This file says what it does on every value of `struct runtime_fs`.

It answers OK exactly for the well-formed ones (`runtimeFsValidate_eq_ok_iff`), also when names have
no terminator. But it does not return on all others.

## Two ways out of the arrays

* The walk up the parent chain of a node goes through ancestors that have not been checked yet. It
  looks at the node that a parent entry names before anything has compared the entry with the
  number of nodes.
* The comparison of names stops at a terminator of either name or at a difference. Two siblings
  with the same sixteen characters have neither.

The walk itself ends on any contents: it counts its steps, and a walk that is to leave the array
does so before the count runs out, since until then it meets no node twice.
-/

namespace TensorOS

variable {fs : RuntimeFs}

/-! ## Well-formed file systems -/

/-- The parent chain of the node consists of used nodes and ends at node 0. -/
inductive UsedChain (fs : RuntimeFs) : Fin 16 → Prop
  | root : UsedChain fs 0
  | step {i : Fin 16} : i ≠ 0 → (fs.nodes i).parentIndex.toNat < 16 →
      (fs.nodes (fs.nodes i).parent).used ≠ 0 → UsedChain fs (fs.nodes i).parent → UsedChain fs i

/-- What the validator asks of the fields of a used node below the root. -/
structure FieldsOk (fs : RuntimeFs) (i : Fin 16) : Prop where
  kind : (fs.nodes i).type = fileTypeDirectory ∨ (fs.nodes i).type = fileTypeRegular
  name_ne : (fs.nodes i).name 0 ≠ 0
  parent_lt : (fs.nodes i).parentIndex.toNat < 16
  parent_used : (fs.nodes (fs.nodes i).parent).used ≠ 0
  parent_dir : (fs.nodes (fs.nodes i).parent).type = fileTypeDirectory
  size_le : (fs.nodes i).sizeBytes.toNat ≤ 256

/-- What the validator asks of a used slot. -/
structure SlotWellFormed (fs : RuntimeFs) (openFile : RuntimeFsOpenFile) : Prop where
  node_lt : openFile.nodeIndex.toNat < 16
  node_used : (fs.nodes openFile.node).used ≠ 0
  offset_le : (fs.nodes openFile.node).type = fileTypeRegular → openFile.offset.toNat ≤ 256
  dir_write : (fs.nodes openFile.node).type = fileTypeDirectory → openFile.flags &&& openWrite = 0

/-- A well-formed file system. Names are compared as far as their arrays go. -/
structure WellFormed (fs : RuntimeFs) : Prop where
  root : RootIntact fs
  fields : ∀ i, i ≠ 0 → (fs.nodes i).used ≠ 0 → FieldsOk fs i
  chain : ∀ i, i ≠ 0 → (fs.nodes i).used ≠ 0 → UsedChain fs i
  names : ∀ i j, i ≠ 0 → j ≠ 0 → i ≠ j → (fs.nodes i).used ≠ 0 → (fs.nodes j).used ≠ 0 →
    (fs.nodes i).parentIndex = (fs.nodes j).parentIndex → (fs.nodes i).text ≠ (fs.nodes j).text
  slots : ∀ s, (fs.openFiles s).used ≠ 0 → SlotWellFormed fs (fs.openFiles s)

/-! ## The parent walk -/

/-- The walk up from the node, through used nodes, meets a parent entry that is not the index of a
node. -/
inductive Escapes (fs : RuntimeFs) : Fin 16 → Prop
  | here {i : Fin 16} : i ≠ 0 → 16 ≤ (fs.nodes i).parentIndex.toNat → Escapes fs i
  | up {i : Fin 16} : i ≠ 0 → (fs.nodes i).parentIndex.toNat < 16 →
      (fs.nodes (fs.nodes i).parent).used ≠ 0 → Escapes fs (fs.nodes i).parent → Escapes fs i

theorem validateChain_zero_index (left : ℕ) :
    validateChain fs left (UInt32.ofNat (0 : Fin 16)) = .ok Status.ok := by
  rw [validateChain, if_pos (ofNat_fin_eq_zero.mpr rfl)]

/-- The steps of the walk: the count runs out, the entry is no index, the parent is not used, or the
walk goes on. -/
theorem validateChain_zero {i : Fin 16} (hi : i ≠ 0) :
    validateChain fs 0 (UInt32.ofNat i) = .ok Status.einval := by
  rw [validateChain, if_neg fun hz ↦ hi (ofNat_fin_eq_zero.mp hz), nodeIndexOf_ofNat, ok_bind]

theorem validateChain_of_ge {i : Fin 16} (hi : i ≠ 0) (left : ℕ)
    (h : 16 ≤ (fs.nodes i).parentIndex.toNat) :
    validateChain fs (left + 1) (UInt32.ofNat i) = .error .outOfBounds := by
  rw [validateChain, if_neg fun hz ↦ hi (ofNat_fin_eq_zero.mp hz), nodeIndexOf_ofNat, ok_bind]
  dsimp only
  rw [nodeIndexOf, dif_neg (Nat.not_lt.mpr h)]
  rfl

theorem validateChain_of_lt {i : Fin 16} (hi : i ≠ 0) (left : ℕ)
    (h : (fs.nodes i).parentIndex.toNat < 16) :
    validateChain fs (left + 1) (UInt32.ofNat i) =
      if (fs.nodes (fs.nodes i).parent).used = 0 then .ok Status.einval
      else validateChain fs left (UInt32.ofNat (fs.nodes i).parent) := by
  rw [validateChain, if_neg fun hz ↦ hi (ofNat_fin_eq_zero.mp hz), nodeIndexOf_ofNat, ok_bind]
  dsimp only
  rw [RuntimeFsNode.parentIndex_eq h, nodeIndexOf_ofNat, ok_bind]

/-- Whatever the count, the walk says one of three things, and it says the first two rightly. -/
theorem validateChain_cases (left : ℕ) (i : Fin 16) :
    validateChain fs left (UInt32.ofNat i) = .ok Status.ok ∧ UsedChain fs i ∨
      validateChain fs left (UInt32.ofNat i) = .error .outOfBounds ∧ Escapes fs i ∨
      validateChain fs left (UInt32.ofNat i) = .ok Status.einval := by
  induction left generalizing i with
  | zero =>
    by_cases hi : i = 0
    · rw [hi]
      exact Or.inl ⟨validateChain_zero_index 0, .root⟩
    · exact Or.inr (Or.inr (validateChain_zero hi))
  | succ left ih =>
    by_cases hi : i = 0
    · rw [hi]
      exact Or.inl ⟨validateChain_zero_index _, .root⟩
    rcases Nat.lt_or_ge (fs.nodes i).parentIndex.toNat 16 with hlt | hge
    · rw [validateChain_of_lt hi left hlt]
      by_cases hu : (fs.nodes (fs.nodes i).parent).used = 0
      · rw [if_pos hu]
        exact Or.inr (Or.inr rfl)
      · rw [if_neg hu]
        rcases ih (fs.nodes i).parent with ⟨hrun, hchain⟩ | ⟨hrun, hescapes⟩ | hrun
        · exact Or.inl ⟨hrun, .step hi hlt hu hchain⟩
        · exact Or.inr (Or.inl ⟨hrun, .up hi hlt hu hescapes⟩)
        · exact Or.inr (Or.inr hrun)
    · exact Or.inr (Or.inl ⟨validateChain_of_ge hi left hge, .here hi hge⟩)

theorem UsedChain.rooted {i : Fin 16} (h : UsedChain fs i) :
    Rooted (fun j ↦ (fs.nodes j).parent) 0 i := by
  induction h with
  | root => exact .root
  | step hi _ _ _ ih => exact .step hi ih

theorem UsedChain.validateChain_eq {i : Fin 16} (h : UsedChain fs i) :
    validateChain fs 16 (UInt32.ofNat i) = .ok Status.ok := by
  refine h.rooted.walk (P := fun left j ↦ UsedChain fs j →
    validateChain fs left (UInt32.ofNat j) = .ok Status.ok) ?_ ?_ h
  · intro left _
    exact validateChain_zero_index left
  · intro left j hj ih hchain
    cases hchain with
    | root => exact absurd rfl hj
    | step _ hlt hu hparent =>
      rw [validateChain_of_lt hj left hlt, if_neg hu]
      exact ih hparent

/-- Where the walk goes next, if there is a node of that index. -/
def parentEntry (fs : RuntimeFs) : Option (Fin 16) → Option (Fin 16)
  | none => none
  | some i => if (fs.nodes i).parentIndex.toNat < 16 then some (fs.nodes i).parent else none

theorem Escapes.rooted {i : Fin 16} (h : Escapes fs i) :
    Rooted (parentEntry fs) none (some i) := by
  induction h with
  | @here i _ hge =>
    have hnone : parentEntry fs (some i) = none := if_neg (Nat.not_lt.mpr hge)
    exact .step (by simp) (hnone ▸ .root)
  | @up i _ hlt _ _ ih =>
    have hsome : parentEntry fs (some i) = some (fs.nodes i).parent := if_pos hlt
    exact .step (by simp) (hsome ▸ ih)

/-- A walk that leaves the array does so before the count runs out: the array has as many nodes as
the count has steps, and the exit is one place more. -/
theorem Escapes.validateChain_eq {i : Fin 16} (h : Escapes fs i) :
    validateChain fs 16 (UInt32.ofNat i) = .error .outOfBounds := by
  have hcard : Fintype.card (Option (Fin 16)) ≤ 16 + 1 := by simp
  have hwalk := h.rooted.walk_of_card_le (P := fun left place ↦ ∀ j, place = some j →
    Escapes fs j → validateChain fs left (UInt32.ofNat j) = .error .outOfBounds) ?_ ?_ hcard
  · exact hwalk i rfl h
  · intro left j hj
    cases hj
  · rintro left _ - ih j rfl hescapes
    cases hescapes with
    | here hj hge => exact validateChain_of_ge hj left hge
    | up hj hlt hu hparent =>
      rw [validateChain_of_lt hj left hlt, if_neg hu]
      exact ih _ (if_pos hlt) hparent

theorem validateChain_eq_ok_iff {i : Fin 16} :
    validateChain fs 16 (UInt32.ofNat i) = .ok Status.ok ↔ UsedChain fs i := by
  refine ⟨fun hrun ↦ ?_, UsedChain.validateChain_eq⟩
  rcases validateChain_cases 16 i with ⟨-, hchain⟩ | ⟨herror, -⟩ | heinval
  · exact hchain
  · rw [hrun] at herror
    cases herror
  · rw [hrun] at heinval
    exact absurd (Except.ok.inj heinval) (by decide)

theorem validateChain_fault_iff {i : Fin 16} :
    (∃ e, validateChain fs 16 (UInt32.ofNat i) = .error e) ↔ Escapes fs i := by
  refine ⟨fun ⟨e, hrun⟩ ↦ ?_, fun h ↦ ⟨_, h.validateChain_eq⟩⟩
  rcases validateChain_cases 16 i with ⟨hok, -⟩ | ⟨-, hescapes⟩ | heinval
  · rw [hrun] at hok
    cases hok
  · exact hescapes
  · rw [hrun] at heinval
    cases heinval

/-! ## The comparison with later siblings -/

/-- A comparison inside the arrays reports different names rightly; one of two full and equal names
leaves them. -/
theorem nameEquals_cases {a b : List UInt8} (hlen : a.length = b.length) :
    nameEquals a b = .error .outOfBounds ∧ (a = b ∧ ∀ c ∈ a, c ≠ 0) ∨
      nameEquals a b = .ok (decide (cstr a = cstr b)) ∧ ¬(a = b ∧ ∀ c ∈ a, c ≠ 0) := by
  induction a generalizing b with
  | nil =>
    obtain rfl : b = [] := List.eq_nil_of_length_eq_zero hlen.symm
    exact Or.inl ⟨rfl, rfl, by simp⟩
  | cons x a ih =>
    cases b with
    | nil => cases hlen
    | cons y b =>
      rw [nameEquals]
      by_cases hxy : x ≠ 0 ∧ y ≠ 0
      · rw [if_pos hxy, cstr_cons_of_ne hxy.1, cstr_cons_of_ne hxy.2]
        by_cases hne : x = y
        · subst hne
          rw [if_neg (not_not.mpr rfl)]
          simpa [hxy.1] using ih (Nat.succ_injective hlen)
        · simp [hne]
      · rw [if_neg hxy]
        refine Or.inr ⟨?_, ?_⟩
        · by_cases hx : x = 0
          · by_cases hy : y = 0
            · simp [hx, hy, cstr_cons_zero]
            · simp [hx, hy, cstr_cons_zero, cstr_cons_of_ne]
          · have hy : y = 0 := by
              by_contra hy
              exact hxy ⟨hx, hy⟩
            simp [hx, hy, cstr_cons_zero, cstr_cons_of_ne]
        · rintro ⟨heq, hall⟩
          obtain ⟨rfl, -⟩ := List.cons.inj heq
          exact hxy ⟨hall x (by simp), hall x (by simp)⟩

/-- Node `j` has the parent and the sixteen characters of node `i`. -/
def SharesFullName (fs : RuntimeFs) (i j : Fin 16) : Prop :=
  (fs.nodes j).used ≠ 0 ∧ (fs.nodes j).parentIndex = (fs.nodes i).parentIndex ∧
    (fs.nodes j).name = (fs.nodes i).name ∧ ∀ b, (fs.nodes i).name b ≠ 0

theorem validatePeer_cases {i j : Fin 16} (hij : i < j) :
    validatePeer fs i j = .error .outOfBounds ∧ SharesFullName fs i j ∨
      validatePeer fs i j = .ok (if Collides fs i j then Status.eexist else Status.ok) ∧
        ¬SharesFullName fs i j := by
  have hfull : (List.ofFn (fs.nodes j).name = List.ofFn (fs.nodes i).name ∧
      ∀ c ∈ List.ofFn (fs.nodes j).name, c ≠ 0) ↔
      (fs.nodes j).name = (fs.nodes i).name ∧ ∀ b, (fs.nodes i).name b ≠ 0 := by
    rw [List.ofFn_inj, List.forall_mem_ofFn_iff]
    exact and_congr_right fun h ↦ by rw [h]
  have hlen : (List.ofFn (fs.nodes j).name).length = (List.ofFn (fs.nodes i).name).length := by
    simp only [List.length_ofFn]
  unfold validatePeer
  dsimp only
  by_cases hpeer : (fs.nodes j).used ≠ 0 ∧ (fs.nodes j).parentIndex = (fs.nodes i).parentIndex
  · rw [if_pos hpeer]
    rcases nameEquals_cases hlen with ⟨hrun, hsame⟩ | ⟨hrun, hsame⟩
    · rw [hrun]
      exact Or.inl ⟨rfl, hpeer.1, hpeer.2, hfull.mp hsame⟩
    · rw [hrun, ok_bind]
      refine Or.inr ⟨?_, fun hshares ↦ hsame (hfull.mpr hshares.2.2)⟩
      by_cases htext : (fs.nodes j).text = (fs.nodes i).text
      · have hc : Collides fs i j := ⟨hij, hpeer.1, hpeer.2, htext⟩
        rw [RuntimeFsNode.text, RuntimeFsNode.text] at htext
        rw [if_pos hc, if_pos (decide_eq_true htext)]
      · rw [if_neg fun hc : Collides fs i j ↦ htext hc.2.2.2]
        rw [RuntimeFsNode.text, RuntimeFsNode.text] at htext
        rw [if_neg fun ht ↦ htext (of_decide_eq_true ht)]
  · rw [if_neg hpeer, if_neg fun hc : Collides fs i j ↦ hpeer ⟨hc.2.1, hc.2.2.1⟩]
    exact Or.inr ⟨rfl, fun hshares ↦ hpeer ⟨hshares.1, hshares.2.1⟩⟩

theorem SharesFullName.collides {i j : Fin 16} (h : SharesFullName fs i j) (hij : i < j) :
    Collides fs i j := by
  refine ⟨hij, h.1, h.2.1, ?_⟩
  rw [RuntimeFsNode.text, RuntimeFsNode.text, h.2.2.1]

theorem validatePeer_eq_ok_iff {i j : Fin 16} (hij : i < j) :
    validatePeer fs i j = .ok Status.ok ↔ ¬Collides fs i j := by
  rcases validatePeer_cases hij with ⟨hrun, hshares⟩ | ⟨hrun, -⟩
  · rw [hrun]
    exact iff_of_false (by simp) (not_not.mpr (hshares.collides hij))
  · rw [hrun]
    by_cases hc : Collides fs i j
    · rw [if_pos hc]
      exact iff_of_false (by decide) (not_not.mpr hc)
    · rw [if_neg hc]
      exact iff_of_true rfl hc

theorem validatePeer_fault_iff {i j : Fin 16} (hij : i < j) :
    (∃ e, validatePeer fs i j = .error e) ↔ SharesFullName fs i j := by
  rcases validatePeer_cases hij with ⟨hrun, hshares⟩ | ⟨hrun, hshares⟩
  · exact iff_of_true ⟨_, hrun⟩ hshares
  · rw [hrun]
    exact iff_of_false (by simp) hshares

/-! ## One node -/

/-- A loop faults in the first round that is not OK, if that one does. -/
theorem firstStatus_fault_iff {α : Type} [Preorder α] {f : α → Except Fault Int} {l : List α}
    (hl : l.Pairwise (· < ·)) : (∃ e, firstStatus f l = .error e) ↔
      ∃ a ∈ l, (∀ b ∈ l, b < a → f b = .ok Status.ok) ∧ ∃ e, f a = .error e := by
  induction l with
  | nil => simp [firstStatus]
  | cons x l ih =>
    obtain ⟨hx, hl⟩ := List.pairwise_cons.mp hl
    rw [firstStatus]
    cases hf : f x with
    | error e =>
      refine iff_of_true ⟨e, rfl⟩ ⟨x, by simp, fun b hb hlt ↦ ?_, e, hf⟩
      rcases List.mem_cons.mp hb with rfl | hb
      · exact absurd hlt (lt_irrefl _)
      · exact absurd (hlt.trans (hx b hb)) (lt_irrefl _)
    | ok status =>
      rw [ok_bind]
      by_cases hstatus : status = Status.ok
      · rw [if_neg (not_not.mpr hstatus), ih hl]
        constructor
        · rintro ⟨a, ha, hbefore, hfault⟩
          refine ⟨a, by simp [ha], fun b hb hlt ↦ ?_, hfault⟩
          rcases List.mem_cons.mp hb with rfl | hb
          · rw [hf, hstatus]
          · exact hbefore b hb hlt
        · rintro ⟨a, ha, hbefore, e, he⟩
          rcases List.mem_cons.mp ha with rfl | ha
          · rw [hf] at he
            cases he
          · exact ⟨a, ha, fun b hb ↦ hbefore b (by simp [hb]), e, he⟩
      · rw [if_pos hstatus]
        refine iff_of_false (by simp) ?_
        rintro ⟨a, ha, hbefore, e, he⟩
        rcases List.mem_cons.mp ha with rfl | ha
        · rw [hf] at he
          cases he
        · have hok := hbefore x (by simp) (hx a ha)
          rw [hf] at hok
          exact hstatus (Except.ok.inj hok)

theorem validateNode_of_fieldsOk {i : Fin 16} (hu : (fs.nodes i).used ≠ 0) (h : FieldsOk fs i) :
    validateNode fs i = (do
      let status ← validateChain fs 16 (UInt32.ofNat i)
      if status ≠ Status.ok then .ok status
      else firstStatus (validatePeer fs i) ((List.finRange 16).filter (i < ·))) := by
  have hkind : ¬((fs.nodes i).type ≠ fileTypeDirectory ∧ (fs.nodes i).type ≠ fileTypeRegular) :=
    fun hk ↦ h.kind.elim hk.1 hk.2
  have hempty : ¬fsNameIsEmpty (fs.nodes i).name = true := by
    simpa [fsNameIsEmpty] using h.name_ne
  have hlt : ¬(fs.nodes i).parentIndex ≥ 16 := by
    rw [ge_iff_le, UInt32.le_iff_toNat_le]
    exact Nat.not_le.mpr h.parent_lt
  have hparent : nodeIndexOf (fs.nodes i).parentIndex = .ok (fs.nodes i).parent := by
    rw [RuntimeFsNode.parentIndex_eq h.parent_lt, nodeIndexOf_ofNat]
  have hdir : ¬((fs.nodes (fs.nodes i).parent).used = 0 ∨
      (fs.nodes (fs.nodes i).parent).type ≠ fileTypeDirectory) :=
    fun hd ↦ hd.elim h.parent_used fun ht ↦ ht h.parent_dir
  have hsize : ¬(fs.nodes i).sizeBytes > fileCapacity := by
    rw [gt_iff_lt, UInt32.lt_iff_toNat_lt]
    exact Nat.not_lt.mpr h.size_le
  unfold validateNode
  dsimp only
  rw [if_neg hu, if_neg hkind, if_neg hempty, if_neg hlt, hparent, ok_bind, if_neg hdir,
    if_neg hsize]

/-- A node whose fields are wrong is refused before anything is walked. -/
theorem validateNode_of_not_fieldsOk {i : Fin 16} (hu : (fs.nodes i).used ≠ 0)
    (h : ¬FieldsOk fs i) : validateNode fs i = .ok Status.einval := by
  unfold validateNode
  dsimp only
  rw [if_neg hu]
  split
  · rfl
  next hkind =>
  split
  · rfl
  next hempty =>
  split
  · rfl
  next hlt =>
  have hlt' : (fs.nodes i).parentIndex.toNat < 16 := by
    rw [ge_iff_le, UInt32.le_iff_toNat_le] at hlt
    exact Nat.not_le.mp hlt
  rw [RuntimeFsNode.parentIndex_eq hlt', nodeIndexOf_ofNat, ok_bind]
  split
  · rfl
  next hdir =>
  split
  · rfl
  next hsize =>
  refine absurd ⟨?_, ?_, hlt', ?_, ?_, ?_⟩ h
  · by_contra hk
    exact hkind (not_or.mp hk)
  · simpa [fsNameIsEmpty] using hempty
  · exact fun hz ↦ hdir (Or.inl hz)
  · by_contra hd
    exact hdir (Or.inr hd)
  · rw [gt_iff_lt, UInt32.lt_iff_toNat_lt] at hsize
    exact Nat.not_lt.mp hsize

/-- The node is not used, or it passes all checks. -/
def Passes (fs : RuntimeFs) (i : Fin 16) : Prop :=
  (fs.nodes i).used ≠ 0 → FieldsOk fs i ∧ UsedChain fs i ∧ ∀ j, ¬Collides fs i j

theorem validateNode_eq_ok_iff {i : Fin 16} :
    validateNode fs i = .ok Status.ok ↔ Passes fs i := by
  by_cases hu : (fs.nodes i).used = 0
  · refine iff_of_true ?_ fun h ↦ absurd hu h
    rw [validateNode, if_pos hu]
  by_cases hfields : FieldsOk fs i
  · rw [validateNode_of_fieldsOk hu hfields]
    constructor
    · intro hrun _
      obtain ⟨status, hchain, hrest⟩ := bind_eq_ok.mp hrun
      split at hrest
      · next hne => exact absurd (Except.ok.inj hrest) hne
      next hok =>
      rw [not_not.mp hok, validateChain_eq_ok_iff] at hchain
      refine ⟨hfields, hchain, fun j hc ↦ ?_⟩
      have hpeer := firstStatus_eq_ok.mp hrest j (by simpa using hc.1)
      exact (validatePeer_eq_ok_iff hc.1).mp hpeer hc
    · intro hpasses
      obtain ⟨-, hchain, hnames⟩ := hpasses hu
      rw [validateChain_eq_ok_iff.mpr hchain, ok_bind, if_neg (not_not.mpr rfl), firstStatus_eq_ok]
      intro j hj
      have hij : i < j := by simpa using hj
      exact (validatePeer_eq_ok_iff hij).mpr (hnames j)
  · rw [validateNode_of_not_fieldsOk hu hfields]
    refine iff_of_false (by decide) fun hpasses ↦ hfields (hpasses hu).1

/-- A used node with good fields from which the validator leaves an array: its chain does, or the
comparison with the first sibling of the same name. -/
structure LeadsOut (fs : RuntimeFs) (i : Fin 16) : Prop where
  used : (fs.nodes i).used ≠ 0
  fields : FieldsOk fs i
  way : Escapes fs i ∨ UsedChain fs i ∧ ∃ j, i < j ∧ SharesFullName fs i j ∧
    ∀ k < j, ¬Collides fs i k

theorem validateNode_fault_iff {i : Fin 16} :
    (∃ e, validateNode fs i = .error e) ↔ LeadsOut fs i := by
  by_cases hu : (fs.nodes i).used = 0
  · refine iff_of_false ?_ fun h ↦ h.used hu
    rw [validateNode, if_pos hu]
    simp
  by_cases hfields : FieldsOk fs i
  · rw [validateNode_of_fieldsOk hu hfields]
    have hpeers : (∃ e, firstStatus (validatePeer fs i) ((List.finRange 16).filter (i < ·))
        = .error e) ↔ ∃ j, i < j ∧ SharesFullName fs i j ∧ ∀ k < j, ¬Collides fs i k := by
      have hsorted : ((List.finRange 16).filter (i < ·)).Pairwise (· < ·) :=
        (List.pairwise_lt_finRange 16).filter _
      rw [firstStatus_fault_iff hsorted]
      simp only [List.mem_filter, List.mem_finRange, true_and, decide_eq_true_eq]
      constructor
      · rintro ⟨j, hij, hbefore, hfault⟩
        refine ⟨j, hij, (validatePeer_fault_iff hij).mp hfault, fun k hk hc ↦ ?_⟩
        exact (validatePeer_eq_ok_iff hc.1).mp (hbefore k hc.1 hk) hc
      · rintro ⟨j, hij, hshares, hbefore⟩
        refine ⟨j, hij, fun k hik hk ↦ ?_, (validatePeer_fault_iff hij).mpr hshares⟩
        exact (validatePeer_eq_ok_iff hik).mpr (hbefore k hk)
    have hiff : LeadsOut fs i ↔ Escapes fs i ∨ UsedChain fs i ∧ ∃ j, i < j ∧
        SharesFullName fs i j ∧ ∀ k < j, ¬Collides fs i k :=
      ⟨LeadsOut.way, fun h ↦ ⟨hu, hfields, h⟩⟩
    rw [hiff, ← hpeers]
    rcases validateChain_cases 16 i with ⟨hrun, hchain⟩ | ⟨hrun, hescapes⟩ | hrun
    · -- the chain is good: what is left are the comparisons
      have hnot : ¬Escapes fs i := by
        rw [← validateChain_fault_iff, hrun]
        simp
      rw [hrun, ok_bind, if_neg (not_not.mpr rfl)]
      simp only [hnot, hchain, false_or, true_and]
    · rw [hrun]
      exact iff_of_true ⟨_, rfl⟩ (Or.inl hescapes)
    · -- the chain is refused
      rw [hrun, ok_bind, if_pos (by decide)]
      refine iff_of_false (by simp) ?_
      rintro (hescapes | ⟨hchain, -⟩)
      · rw [hescapes.validateChain_eq] at hrun
        cases hrun
      · rw [hchain.validateChain_eq] at hrun
        exact absurd (Except.ok.inj hrun) (by decide)
  · rw [validateNode_of_not_fieldsOk hu hfields]
    exact iff_of_false (by simp) fun h ↦ hfields h.fields

/-! ## The whole validator -/

/-- The slot loop indexes only with what it has checked. -/
theorem validateSlot_cases (fs : RuntimeFs) (s : Fin 8) : ∃ status, validateSlot fs s = .ok status ∧
    (status = Status.ok ↔ ((fs.openFiles s).used ≠ 0 → SlotWellFormed fs (fs.openFiles s))) := by
  unfold validateSlot
  dsimp only
  split
  · next hu => exact ⟨_, rfl, iff_of_true rfl fun h ↦ absurd hu h⟩
  next hu =>
  split
  · next hge =>
    rw [ge_iff_le, UInt32.le_iff_toNat_le] at hge
    exact ⟨_, rfl, iff_of_false (by decide) fun h ↦ Nat.not_lt.mpr hge (h hu).node_lt⟩
  next hge =>
  have hlt : (fs.openFiles s).nodeIndex.toNat < 16 := by
    rw [ge_iff_le, UInt32.le_iff_toNat_le] at hge
    exact Nat.not_le.mp hge
  have hnode : nodeIndexOf (fs.openFiles s).nodeIndex = .ok (fs.openFiles s).node := by
    rw [nodeIndexOf_eq_ok hlt, RuntimeFsOpenFile.node]
    exact congrArg Except.ok (Fin.ext (Nat.mod_eq_of_lt hlt).symm)
  have hcap : fileCapacity.toNat = 256 := rfl
  rw [hnode, ok_bind]
  split
  · next hunused => exact ⟨_, rfl, iff_of_false (by decide) fun h ↦ (h hu).node_used hunused⟩
  next hused =>
  split
  · next hoff =>
    rw [gt_iff_lt, UInt32.lt_iff_toNat_lt, hcap] at hoff
    exact ⟨_, rfl, iff_of_false (by decide) fun h ↦
      Nat.not_le.mpr hoff.2 ((h hu).offset_le hoff.1)⟩
  next hoff =>
  split
  · next hdir =>
    exact ⟨_, rfl, iff_of_false (by decide) fun h ↦ hdir.2 ((h hu).dir_write hdir.1)⟩
  next hdir =>
  refine ⟨_, rfl, iff_of_true rfl fun _ ↦ ⟨hlt, hused, fun hreg ↦ ?_, fun hd ↦ ?_⟩⟩
  · rw [gt_iff_lt, UInt32.lt_iff_toNat_lt, hcap] at hoff
    exact Nat.not_lt.mp fun hgt ↦ hoff ⟨hreg, hgt⟩
  · by_contra hflag
    exact hdir ⟨hd, hflag⟩

theorem validateSlot_eq_ok_iff {s : Fin 8} : validateSlot fs s = .ok Status.ok ↔
    ((fs.openFiles s).used ≠ 0 → SlotWellFormed fs (fs.openFiles s)) := by
  obtain ⟨status, hrun, hiff⟩ := validateSlot_cases fs s
  rw [hrun, ← hiff]
  simp

theorem runtimeFsValidate_of_not_root (h : ¬RootIntact fs) :
    runtimeFsValidate fs = .ok Status.einval := by
  unfold runtimeFsValidate
  dsimp only
  split
  · rfl
  · next hroot =>
    simp only [not_or, not_not] at hroot
    exact absurd ⟨hroot.1, hroot.2.1, hroot.2.2.1, hroot.2.2.2.1, hroot.2.2.2.2⟩ h

theorem runtimeFsValidate_of_root (h : RootIntact fs) : runtimeFsValidate fs = (do
    let status ← firstStatus (validateNode fs) ((List.finRange 16).filter (0 < ·))
    if status ≠ Status.ok then .ok status
    else firstStatus (validateSlot fs) (List.finRange 8)) := by
  unfold runtimeFsValidate
  dsimp only
  rw [if_neg]
  rintro (hr | hr | hr | hr | hr)
  · exact h.used hr
  · exact hr h.type
  · exact hr h.parentIndex
  · exact hr h.name_zero
  · exact hr h.name_one

/-- The pairs of siblings that the validator compares are all of them. -/
theorem wellFormed_iff : WellFormed fs ↔ RootIntact fs ∧ (∀ i, i ≠ 0 → Passes fs i) ∧
    ∀ s, (fs.openFiles s).used ≠ 0 → SlotWellFormed fs (fs.openFiles s) := by
  constructor
  · intro h
    refine ⟨h.root, fun i hi hu ↦ ⟨h.fields i hi hu, h.chain i hi hu, fun j hc ↦ ?_⟩, h.slots⟩
    have hj : j ≠ 0 := fun hj ↦ Fin.not_lt_zero i (hj ▸ hc.1)
    exact h.names i j hi hj (ne_of_lt hc.1) hu hc.2.1 hc.2.2.1.symm hc.2.2.2.symm
  · rintro ⟨hroot, hnodes, hslots⟩
    refine ⟨hroot, fun i hi hu ↦ (hnodes i hi hu).1, fun i hi hu ↦ (hnodes i hi hu).2.1, ?_, hslots⟩
    intro i j hi hj hne hui huj hparent htext
    rcases lt_or_gt_of_ne hne with hlt | hgt
    · exact (hnodes i hi hui).2.2 j ⟨hlt, huj, hparent.symm, htext.symm⟩
    · exact (hnodes j hj huj).2.2 i ⟨hgt, hui, hparent, htext⟩

/-- **The validator accepts** exactly the well-formed file systems. -/
theorem runtimeFsValidate_eq_ok_iff :
    runtimeFsValidate fs = .ok Status.ok ↔ WellFormed fs := by
  rw [wellFormed_iff]
  by_cases hroot : RootIntact fs
  · rw [runtimeFsValidate_of_root hroot]
    have hnodes : firstStatus (validateNode fs) ((List.finRange 16).filter (0 < ·))
        = .ok Status.ok ↔ ∀ i, i ≠ 0 → Passes fs i := by
      simp only [firstStatus_eq_ok, validateNode_eq_ok_iff, List.mem_filter, List.mem_finRange,
        true_and, decide_eq_true_eq, Fin.pos_iff_ne_zero]
    have hslots : firstStatus (validateSlot fs) (List.finRange 8) = .ok Status.ok ↔
        ∀ s, (fs.openFiles s).used ≠ 0 → SlotWellFormed fs (fs.openFiles s) := by
      simp only [firstStatus_eq_ok, validateSlot_eq_ok_iff, List.mem_finRange, true_imp_iff]
    rw [← hnodes, ← hslots, bind_eq_ok]
    constructor
    · rintro ⟨status, hfirst, hrest⟩
      split at hrest
      · next hne => exact absurd (Except.ok.inj hrest) hne
      · next hok => exact ⟨hroot, not_not.mp hok ▸ hfirst, hrest⟩
    · rintro ⟨-, hfirst, hrest⟩
      exact ⟨_, hfirst, by rw [if_neg (not_not.mpr rfl), hrest]⟩
  · rw [runtimeFsValidate_of_not_root hroot]
    exact iff_of_false (by decide) fun h ↦ hroot h.1

/-- The validator gets to a node that leads it out of an array. -/
def Derails (fs : RuntimeFs) : Prop :=
  RootIntact fs ∧ ∃ i, i ≠ 0 ∧ (∀ k < i, k ≠ 0 → Passes fs k) ∧ LeadsOut fs i

theorem runtimeFsValidate_fault_iff :
    (∃ e, runtimeFsValidate fs = .error e) ↔ Derails fs := by
  by_cases hroot : RootIntact fs
  · have hsorted : ((List.finRange 16).filter (0 < ·)).Pairwise (· < ·) :=
      (List.pairwise_lt_finRange 16).filter _
    have hnodes : (∃ e, firstStatus (validateNode fs) ((List.finRange 16).filter (0 < ·))
        = .error e) ↔ Derails fs := by
      rw [firstStatus_fault_iff hsorted]
      simp only [Derails, hroot, validateNode_eq_ok_iff, validateNode_fault_iff, List.mem_filter,
        List.mem_finRange, true_and, decide_eq_true_eq, Fin.pos_iff_ne_zero]
      constructor
      · rintro ⟨i, hi, hbefore, hout⟩
        exact ⟨i, hi, fun k hk hne ↦ hbefore k hne hk, hout⟩
      · rintro ⟨i, hi, hbefore, hout⟩
        exact ⟨i, hi, fun k hne hk ↦ hbefore k hk hne, hout⟩
    rw [runtimeFsValidate_of_root hroot, ← hnodes]
    cases hrun : firstStatus (validateNode fs) ((List.finRange 16).filter (0 < ·)) with
    | error e => exact iff_of_true ⟨e, rfl⟩ ⟨e, rfl⟩
    | ok status =>
      rw [ok_bind]
      refine iff_of_false ?_ (by simp)
      rintro ⟨e, he⟩
      split at he
      · cases he
      -- the slots cannot fault
      obtain ⟨s, -, -, e', hfault⟩ :=
        (firstStatus_fault_iff (List.pairwise_lt_finRange 8)).mp ⟨e, he⟩
      obtain ⟨status', hslot, -⟩ := validateSlot_cases fs s
      rw [hslot] at hfault
      cases hfault
  · rw [runtimeFsValidate_of_not_root hroot]
    exact iff_of_false (by simp) fun h ↦ hroot h.1

/-- **The validator decides well-formedness** without leaving its arrays exactly when no node that
it gets to leads it out. -/
theorem runtimeFsValidate_decides_iff (fs : RuntimeFs) :
    (∃ status, runtimeFsValidate fs = .ok status ∧ (status = Status.ok ↔ WellFormed fs)) ↔
      ¬Derails fs := by
  rw [← runtimeFsValidate_fault_iff, ← runtimeFsValidate_eq_ok_iff]
  cases runtimeFsValidate fs with
  | error e => simp
  | ok status => simp

/-- Node 1 is below node 2, whose own parent entry is 16. -/
def orphanedFs : RuntimeFs :=
  let dir : RuntimeFsNode := { RuntimeFsNode.zero with
    used := 1
    type := fileTypeDirectory
    name := Function.update (fun _ ↦ 0) 0 97 }
  (runtimeFsInit.setNode 1 { dir with parentIndex := 2 }).setNode 2 { dir with parentIndex := 16 }

theorem orphanedFs_not_decided : ¬∃ status, runtimeFsValidate orphanedFs = .ok status ∧
    (status = Status.ok ↔ WellFormed orphanedFs) := by
  have hfault : runtimeFsValidate orphanedFs = .error .outOfBounds := by decide +kernel
  rintro ⟨status, hrun, -⟩
  rw [hfault] at hrun
  cases hrun

end TensorOS
