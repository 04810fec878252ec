import Mathlib
import TensorOS.Lib.Rooted

/-!
# Names in a rooted tree

A tree stored as a parent map gives each element the list of names met on the way down from the
root, its *trail*. Looking names up one after the other is the way back: if the lookup of one name
under one parent finds the child of that name and no other, then a list of names leads to an element
exactly if it is the trail of the element (`descend_eq_some_iff`).

Giving one element another parent and another name moves the whole tree below it and nothing else:
names that avoided the element lead where they led before, those that led to it lead nowhere, and
what follows behind its new trail is what followed behind the old one (the last section).

A lookup may be answered only for some names, the *legal* ones, so that a name no search can spell
does no harm.
-/

namespace TensorOS

variable {α ν : Type*}

/-! ## Following names -/

/-- Look the names up one after the other. -/
def descend (child : α → ν → Option α) : α → List ν → Option α
  | i, [] => some i
  | i, n :: names => (child i n).bind fun j ↦ descend child j names

section Descend

variable {child child' : α → ν → Option α} {i j k : α} {n : ν} {names rest : List ν}

@[simp] theorem descend_nil : descend child i [] = some i := rfl

theorem descend_cons : descend child i (n :: names) =
    (child i n).bind fun j ↦ descend child j names := rfl

theorem descend_append : descend child i (names ++ rest) =
    (descend child i names).bind fun j ↦ descend child j rest := by
  induction names generalizing i with
  | nil => rfl
  | cons n names ih =>
    rw [List.cons_append, descend_cons, descend_cons, Option.bind_assoc]
    congr 1
    funext j
    exact ih

theorem descend_concat_eq_some : descend child i (names ++ [n]) = some k ↔
    ∃ j, descend child i names = some j ∧ child j n = some k := by
  rw [descend_append, Option.bind_eq_some_iff]
  refine exists_congr fun j ↦ and_congr_right fun _ ↦ ?_
  rw [descend_cons]
  simp

/-- Two lookups that agree wherever the first one passes lead to the same element. -/
theorem descend_congr (hlookup : ∀ before n, before ++ [n] <+: names → ∀ j,
    descend child i before = some j → child j n = child' j n) :
    descend child i names = descend child' i names := by
  induction names generalizing i with
  | nil => rfl
  | cons n names ih =>
    have hfirst : child i n = child' i n := by
      refine hlookup [] n ?_ i rfl
      exact ⟨names, rfl⟩
    rw [descend_cons, descend_cons, ← hfirst]
    cases hc : child i n with
    | none => rfl
    | some j =>
      refine ih fun before m hbefore k hk ↦ hlookup (n :: before) m ?_ k ?_
      · exact List.cons_prefix_cons.mpr ⟨rfl, hbefore⟩
      · rw [descend_cons, hc]
        exact hk

end Descend

/-! ## Trails -/

variable [DecidableEq α] {p : α → α} {r : α} {name : α → ν}

/-- The names on the way down to an element, read off the parents with a bound on their number. -/
def trail (p : α → α) (r : α) (name : α → ν) : ℕ → α → List ν
  | 0, _ => []
  | bound + 1, i => if i = r then [] else trail p r name bound (p i) ++ [name i]

@[simp] theorem trail_root (bound : ℕ) : trail p r name bound r = [] := by
  cases bound with
  | zero => rfl
  | succ bound => rw [trail, if_pos rfl]

theorem exists_of_mem_trail {bound : ℕ} {i : α} {n : ν} (h : n ∈ trail p r name bound i) :
    ∃ j, name j = n := by
  induction bound generalizing i with
  | zero => exact absurd h List.not_mem_nil
  | succ bound ih =>
    by_cases hi : i = r
    · rw [hi, trail_root] at h
      exact absurd h List.not_mem_nil
    · rw [trail, if_neg hi] at h
      rcases List.mem_append.mp h with h | h
      · exact ih h
      · exact ⟨i, (List.mem_singleton.mp h).symm⟩

theorem trail_succ_of_iterate {k bound : ℕ} {i : α} (hk : k ≤ bound) (hroot : p^[k] i = r) :
    trail p r name (bound + 1) i = trail p r name bound i := by
  induction bound generalizing k i with
  | zero =>
    obtain rfl : k = 0 := by omega
    obtain rfl : i = r := hroot
    rw [trail_root, trail_root]
  | succ bound ih =>
    by_cases hi : i = r
    · rw [hi, trail_root, trail_root]
    · cases k with
      | zero => exact absurd hroot hi
      | succ k =>
        have hparent := ih (i := p i) (k := k) (by omega) hroot
        rw [trail, if_neg hi, hparent, trail, if_neg hi]

/-- Below the root, the trail of a rooted element is that of its parent and its own name. -/
theorem Rooted.trail_eq [Fintype α] {i : α} (h : Rooted p r i) (hi : i ≠ r) :
    trail p r name (Fintype.card α) i =
      trail p r name (Fintype.card α) (p i) ++ [name i] := by
  obtain ⟨k, hk, hroot, hbefore⟩ := h.exists_lt_card
  obtain ⟨bound, hbound⟩ : ∃ bound, Fintype.card α = bound + 1 :=
    ⟨Fintype.card α - 1, by omega⟩
  cases k with
  | zero => exact absurd hroot hi
  | succ k =>
    rw [hbound, trail, if_neg hi, trail_succ_of_iterate (k := k) (by omega) hroot]

/-! ## Lookups -/

/-- What a lookup is for: under each parent it finds, for a legal name, the element that has the
parent and the name. -/
structure IsLookup (p : α → α) (r : α) (name : α → ν) (present : α → Prop) (legal : ν → Prop)
    (child : α → ν → Option α) : Prop where
  find : ∀ {q n i}, legal n → (child q n = some i ↔ present i ∧ i ≠ r ∧ p i = q ∧ name i = n)

section Lookup

variable [Fintype α] {present : α → Prop} {legal : ν → Prop} {child : α → ν → Option α}

/-- **Names lead down a trail.** A list of legal names leads from the root to an element exactly if
the element is the root or present, and the list is its trail. -/
theorem IsLookup.descend_eq_some_iff (h : IsLookup p r name present legal child)
    (hup : ∀ i, present i → i ≠ r → p i = r ∨ present (p i))
    (hrooted : ∀ i, present i → Rooted p r i)
    {names : List ν} (hlegal : ∀ n ∈ names, legal n) {i : α} :
    descend child r names = some i ↔
      (i = r ∨ present i) ∧ trail p r name (Fintype.card α) i = names := by
  induction names using List.reverseRecOn generalizing i with
  | nil =>
    constructor
    · intro hi
      obtain rfl : r = i := by simpa using hi
      exact ⟨Or.inl rfl, trail_root _⟩
    · rintro ⟨rfl | hpresent, htrail⟩
      · rfl
      · by_cases hi : i = r
        · rw [hi]
          rfl
        · rw [(hrooted i hpresent).trail_eq hi] at htrail
          exact absurd htrail (by simp)
  | append_singleton names n ih =>
    have hlegal' : ∀ m ∈ names, legal m := fun m hm ↦ hlegal m (by simp [hm])
    rw [descend_concat_eq_some]
    constructor
    · rintro ⟨q, hq, hi⟩
      obtain ⟨hpresent, hne, rfl, rfl⟩ := (h.find (hlegal n (by simp))).mp hi
      refine ⟨Or.inr hpresent, ?_⟩
      rw [(hrooted i hpresent).trail_eq hne, ((ih hlegal').mp hq).2]
    · rintro ⟨hi, htrail⟩
      have hne : i ≠ r := by
        intro hir
        rw [hir, trail_root] at htrail
        exact absurd htrail.symm (by simp)
      have hpresent := hi.resolve_left hne
      rw [(hrooted i hpresent).trail_eq hne] at htrail
      obtain ⟨htrail, hname⟩ := List.append_inj' htrail rfl
      refine ⟨p i, (ih hlegal').mpr ⟨hup i hpresent hne, htrail⟩, ?_⟩
      exact (h.find (hlegal n (by simp))).mpr ⟨hpresent, hne, rfl, by simpa using hname⟩

end Lookup

/-! ## Moving an element -/

section Move

variable {present : α → Prop} {legal : ν → Prop} {child child' : α → ν → Option α} {m q : α}
  {n₀ : ν}

omit [DecidableEq α] in
/-- What names below an element lead to is below the element. -/
theorem IsLookup.onChain_of_descend (h : IsLookup p r name present legal child) (hm : m ≠ r)
    {names : List ν} (hlegal : ∀ n ∈ names, legal n) {i : α} (hi : descend child m names = some i) :
    OnChain p r m i := by
  induction names using List.reverseRecOn generalizing i with
  | nil =>
    obtain rfl : m = i := by simpa using hi
    exact .here hm
  | append_singleton names n ih =>
    obtain ⟨j, hj, hchild⟩ := descend_concat_eq_some.mp hi
    obtain ⟨-, hir, rfl, -⟩ := (h.find (hlegal n (by simp))).mp hchild
    exact .up hir (ih (fun k hk ↦ hlegal k (by simp [hk])) hj)

/-- An element `m` is given the parent `q` and the name `n₀`: the lookups before and after, with the
new parent not below the element and the new name not taken. -/
structure IsMove (p : α → α) (r : α) (name : α → ν) (present : α → Prop) (legal : ν → Prop)
    (child child' : α → ν → Option α) (m q : α) (n₀ : ν) : Prop where
  before : IsLookup p r name present legal child
  after : IsLookup (Function.update p m q) r (Function.update name m n₀) present legal child'
  rooted : Rooted p r m
  ne_root : m ≠ r
  present : present m
  not_below : ¬OnChain p r m q
  legal_name : legal n₀
  free : child q n₀ = none

namespace IsMove

theorem find_of_ne (h : IsMove p r name present legal child child' m q n₀) {a i : α} {n : ν}
    (hn : legal n) (hi : i ≠ m) : child' a n = some i ↔ child a n = some i := by
  rw [h.after.find hn, h.before.find hn, Function.update_of_ne hi, Function.update_of_ne hi]

theorem find_moved (h : IsMove p r name present legal child child' m q n₀) {a : α} {n : ν}
    (hn : legal n) : child' a n = some m ↔ q = a ∧ n₀ = n := by
  rw [h.after.find hn, Function.update_self, Function.update_self]
  simp [h.present, h.ne_root]

/-- Names that lead to an element without passing the moved one still lead there. -/
theorem descend_of_avoids (h : IsMove p r name present legal child child' m q n₀) {names : List ν}
    (hlegal : ∀ n ∈ names, legal n) {i : α} (hi : descend child r names = some i)
    (havoids : ∀ before, before <+: names → descend child r before ≠ some m) :
    descend child' r names = some i := by
  rw [← hi]
  symm
  apply descend_congr
  rintro before n ⟨rest, rfl⟩ j hj
  obtain ⟨k, hk, -⟩ := Option.bind_eq_some_iff.mp (descend_append.symm.trans hi)
  have hkm : k ≠ m := by
    rintro rfl
    exact havoids (before ++ [n]) (List.prefix_append _ _) hk
  obtain ⟨j', hj', hchild⟩ := descend_concat_eq_some.mp hk
  obtain rfl : j = j' := Option.some.inj (hj.symm.trans hj')
  rw [hchild]
  exact ((h.find_of_ne (hlegal n (by simp)) hkm).mpr hchild).symm

/-- Names that lead to an element which is not below the moved one do not pass it. -/
theorem avoids_of_not_onChain (h : IsMove p r name present legal child child' m q n₀)
    {names : List ν} (hlegal : ∀ n ∈ names, legal n) {i : α}
    (hi : descend child r names = some i) (hnot : ¬OnChain p r m i) {before : List ν}
    (hbefore : before <+: names) : descend child r before ≠ some m := by
  intro hm
  obtain ⟨rest, rfl⟩ := hbefore
  rw [descend_append, hm, Option.bind_some] at hi
  exact hnot (h.before.onChain_of_descend h.ne_root (fun n hn ↦ hlegal n (by simp [hn])) hi)

/-- The names of the new parent and the new name lead to the moved element. -/
theorem descend_new (h : IsMove p r name present legal child child' m q n₀) {names : List ν}
    (hlegal : ∀ n ∈ names, legal n) (hq : descend child r names = some q) :
    descend child' r (names ++ [n₀]) = some m := by
  rw [descend_concat_eq_some]
  refine ⟨q, h.descend_of_avoids hlegal hq fun before hbefore ↦ ?_, ?_⟩
  · exact h.avoids_of_not_onChain hlegal hq h.not_below hbefore
  · exact (h.find_moved h.legal_name).mpr ⟨rfl, rfl⟩

/-- The names that led to the moved element lead nowhere. -/
theorem descend_old (h : IsMove p r name present legal child child' m q n₀) {names : List ν}
    (hlegal : ∀ n ∈ names, legal n) (hm : descend child r names = some m) :
    descend child' r names = none := by
  rcases List.eq_nil_or_concat names with rfl | ⟨names, n, rfl⟩
  · exact absurd (by simpa using hm.symm) h.ne_root
  rw [List.concat_eq_append] at hlegal hm ⊢
  have hlegal' : ∀ k ∈ names, legal k := fun k hk ↦ hlegal k (by simp [hk])
  have hn : legal n := hlegal n (by simp)
  obtain ⟨j, hj, hchild⟩ := descend_concat_eq_some.mp hm
  obtain ⟨-, -, hparent, -⟩ := (h.before.find hn).mp hchild
  have hj' : descend child' r names = some j := by
    refine h.descend_of_avoids hlegal' hj fun before hbefore ↦ ?_
    refine h.avoids_of_not_onChain hlegal' hj ?_ hbefore
    rw [← hparent]
    exact h.rooted.not_onChain_parent h.ne_root
  rw [descend_append, hj', Option.bind_some, descend_cons]
  cases hchild' : child' j n with
  | none => rfl
  | some i =>
    by_cases hi : i = m
    · -- the moved element has left its old place, since its new name was not taken
      subst hi
      obtain ⟨rfl, rfl⟩ := (h.find_moved hn).mp hchild'
      exact absurd (h.free.symm.trans hchild) (by simp)
    · have hsame := (h.find_of_ne hn hi).mp hchild'
      exact absurd (Option.some.inj (hsame.symm.trans hchild)) hi

theorem descend_below (h : IsMove p r name present legal child child' m q n₀) {names : List ν}
    (hlegal : ∀ n ∈ names, legal n) : descend child' m names = descend child m names := by
  symm
  apply descend_congr
  rintro before n ⟨rest, rfl⟩ j hj
  have hn : legal n := hlegal n (by simp)
  have hon := h.before.onChain_of_descend h.ne_root (fun k hk ↦ hlegal k (by simp [hk])) hj
  ext i
  by_cases hi : i = m
  · subst hi
    refine iff_of_false ?_ ?_
    · intro hchild
      obtain ⟨-, -, hparent, -⟩ := (h.before.find hn).mp hchild
      rw [← hparent] at hon
      exact h.rooted.not_onChain_parent h.ne_root hon
    · intro hchild
      obtain ⟨rfl, -⟩ := (h.find_moved hn).mp hchild
      exact h.not_below hon
  · exact (h.find_of_ne hn hi).symm

end IsMove

end Move

end TensorOS
