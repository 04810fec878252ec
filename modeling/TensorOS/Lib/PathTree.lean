import TensorOS.Lib.Naming

/-!
# Trees keyed by paths

Seen from outside, a tree whose elements have names is a partial map from lists of names to
contents. Giving an element a content, adding a leaf and taking a leaf away are updates of the map
at one list of names (`ofPaths_set`, `ofPaths_unset`), and giving an element another place is a
`move` of everything whose names start with the element's (`ofPaths_move`).

The second half is about the trails of a parent map, which are the paths of its elements: different
elements have different trails, being above is being a prefix, and a trail changes only with what is
on it.
-/

namespace TensorOS

variable {α ν ε : Type*}

/-- What there is at each list of names. -/
abbrev PathTree (ν ε : Type*) := List ν → Option ε

/-- The place a list of names has after a move. -/
def movePath [DecidableEq ν] (old new names : List ν) : List ν :=
  if old <+: names then new ++ names.drop old.length else names

namespace PathTree

/-- What was at `old` and below it is at `new` and below it. -/
def move [DecidableEq ν] (t : PathTree ν ε) (old new : List ν) : PathTree ν ε := fun names ↦
  if new <+: names then t (old ++ names.drop new.length)
  else if old <+: names then none
  else t names

open Classical in
/-- The tree of elements that have paths and contents. -/
noncomputable def ofPaths (present : α → Prop) (path : α → List ν) (content : α → ε) :
    PathTree ν ε := fun names ↦
  if h : ∃ i, present i ∧ path i = names then some (content h.choose) else none

section OfPaths

variable {present present' : α → Prop} {path path' : α → List ν} {content content' : α → ε}
  {names : List ν} {i : α} {e : ε}

theorem ofPaths_eq_some_iff (hinj : ∀ i j, present i → present j → path i = path j → i = j) :
    ofPaths present path content names = some e ↔
      ∃ i, present i ∧ path i = names ∧ content i = e := by
  unfold ofPaths
  split
  · next h =>
    obtain ⟨hpresent, hpath⟩ := h.choose_spec
    constructor
    · intro he
      exact ⟨_, hpresent, hpath, Option.some.inj he⟩
    · rintro ⟨i, hi, hname, rfl⟩
      rw [hinj _ i hpresent hi (hpath.trans hname.symm)]
  · next h =>
    refine iff_of_false (by simp) ?_
    rintro ⟨i, hi, hname, -⟩
    exact h ⟨i, hi, hname⟩

theorem ofPaths_eq_none_iff : ofPaths present path content names = none ↔
    ∀ i, present i → path i ≠ names := by
  simp [ofPaths]

theorem ofPaths_path (hinj : ∀ i j, present i → present j → path i = path j → i = j)
    (hi : present i) : ofPaths present path content (path i) = some (content i) :=
  (ofPaths_eq_some_iff hinj).mpr ⟨i, hi, rfl, rfl⟩

theorem ofPaths_congr (hinj : ∀ i j, present i → present j → path i = path j → i = j)
    (hpresent : ∀ i, present' i ↔ present i) (hpath : ∀ i, present i → path' i = path i)
    (hcontent : ∀ i, present i → content' i = content i) :
    ofPaths present' path' content' = ofPaths present path content := by
  have hinj' : ∀ i j, present' i → present' j → path' i = path' j → i = j := by
    intro i j hi hj heq
    rw [hpath i ((hpresent i).mp hi), hpath j ((hpresent j).mp hj)] at heq
    exact hinj i j ((hpresent i).mp hi) ((hpresent j).mp hj) heq
  funext names
  ext e
  rw [ofPaths_eq_some_iff hinj', ofPaths_eq_some_iff hinj]
  refine exists_congr fun i ↦ ?_
  rw [hpresent]
  refine and_congr_right fun hi ↦ ?_
  rw [hpath i hi, hcontent i hi]

/-- An element that was there, or was not, has a content now. -/
theorem ofPaths_set [DecidableEq ν]
    (hinj' : ∀ i j, present' i → present' j → path' i = path' j → i = j)
    (hpresent : ∀ j, present' j ↔ j = i ∨ present j)
    (hpath : ∀ j, present j → path' j = path j)
    (hcontent : ∀ j, present j → j ≠ i → content' j = content j) :
    ofPaths present' path' content'
      = Function.update (ofPaths present path content) (path' i) (some (content' i)) := by
  have hinj : ∀ i j, present i → present j → path i = path j → i = j := by
    intro a b ha hb heq
    rw [← hpath a ha, ← hpath b hb] at heq
    exact hinj' a b ((hpresent a).mpr (Or.inr ha)) ((hpresent b).mpr (Or.inr hb)) heq
  funext names
  by_cases hnames : names = path' i
  · rw [hnames, Function.update_self]
    exact ofPaths_path hinj' ((hpresent i).mpr (Or.inl rfl))
  · rw [Function.update_of_ne hnames]
    ext e
    rw [ofPaths_eq_some_iff hinj', ofPaths_eq_some_iff hinj]
    constructor
    · rintro ⟨j, hj, rfl, rfl⟩
      have hne : j ≠ i := by
        rintro rfl
        exact hnames rfl
      have hj := ((hpresent j).mp hj).resolve_left hne
      exact ⟨j, hj, (hpath j hj).symm, (hcontent j hj hne).symm⟩
    · rintro ⟨j, hj, rfl, rfl⟩
      have hne : j ≠ i := by
        rintro rfl
        exact hnames (hpath j hj).symm
      exact ⟨j, (hpresent j).mpr (Or.inr hj), hpath j hj, hcontent j hj hne⟩

theorem ofPaths_unset [DecidableEq ν]
    (hinj : ∀ i j, present i → present j → path i = path j → i = j) (hi : present i)
    (hpresent : ∀ j, present' j ↔ present j ∧ j ≠ i)
    (hpath : ∀ j, present' j → path' j = path j)
    (hcontent : ∀ j, present' j → content' j = content j) :
    ofPaths present' path' content'
      = Function.update (ofPaths present path content) (path i) none := by
  have hinj' : ∀ i j, present' i → present' j → path' i = path' j → i = j := by
    intro a b ha hb heq
    rw [hpath a ha, hpath b hb] at heq
    exact hinj a b ((hpresent a).mp ha).1 ((hpresent b).mp hb).1 heq
  funext names
  by_cases hnames : names = path i
  · rw [hnames, Function.update_self, ofPaths_eq_none_iff]
    intro j hj heq
    rw [hpath j hj] at heq
    exact ((hpresent j).mp hj).2 (hinj j i ((hpresent j).mp hj).1 hi heq)
  · rw [Function.update_of_ne hnames]
    ext e
    rw [ofPaths_eq_some_iff hinj', ofPaths_eq_some_iff hinj]
    constructor
    · rintro ⟨j, hj, rfl, rfl⟩
      exact ⟨j, ((hpresent j).mp hj).1, (hpath j hj).symm, (hcontent j hj).symm⟩
    · rintro ⟨j, hj, rfl, rfl⟩
      have hj' : present' j := by
        refine (hpresent j).mpr ⟨hj, ?_⟩
        rintro rfl
        exact hnames rfl
      exact ⟨j, hj', hpath j hj', hcontent j hj'⟩

theorem ofPaths_move [DecidableEq ν] {old new : List ν}
    (hinj : ∀ i j, present i → present j → path i = path j → i = j)
    (hinj' : ∀ i j, present i → present j → path' i = path' j → i = j)
    (hfree : ∀ i, present i → ¬new <+: path i)
    (hpath : ∀ i, present i → path' i = movePath old new (path i))
    (hcontent : ∀ i, present i → content' i = content i) :
    ofPaths present path' content' = (ofPaths present path content).move old new := by
  funext names
  ext e
  rw [ofPaths_eq_some_iff hinj', move]
  split
  · next hnew =>
    obtain ⟨rest, rfl⟩ := hnew
    rw [List.drop_left, ofPaths_eq_some_iff hinj]
    refine exists_congr fun i ↦ and_congr_right fun hi ↦ ?_
    rw [hpath i hi, hcontent i hi, movePath]
    refine and_congr_left fun _ ↦ ?_
    split
    · next hold =>
      obtain ⟨below, hbelow⟩ := hold
      rw [← hbelow, List.drop_left, List.append_cancel_left_eq, List.append_cancel_left_eq]
    · next hold =>
      constructor
      · intro heq
        exact absurd ⟨rest, heq.symm⟩ (hfree i hi)
      · intro heq
        exact absurd ⟨rest, heq.symm⟩ hold
  · next hnew =>
    split
    · next hold =>
      refine iff_of_false ?_ (by simp)
      rintro ⟨i, hi, heq, -⟩
      rw [hpath i hi, movePath] at heq
      split at heq
      · exact hnew ⟨_, heq⟩
      · next hnot => exact hnot (heq ▸ hold)
    · next hold =>
      rw [ofPaths_eq_some_iff hinj]
      refine exists_congr fun i ↦ and_congr_right fun hi ↦ ?_
      rw [hpath i hi, hcontent i hi, movePath]
      refine and_congr_left fun _ ↦ ?_
      split
      · next habove =>
        constructor
        · intro heq
          exact absurd ⟨_, heq⟩ hnew
        · rintro rfl
          exact absurd habove hold
      · rfl

/-- There are as many lists of names with a content as there are elements. -/
theorem ncard_ofPaths (hinj : ∀ i j, present i → present j → path i = path j → i = j) :
    {names | ofPaths present path content names ≠ none}.ncard = {i | present i}.ncard := by
  have hinjOn : Set.InjOn path {i | present i} := fun i hi j hj heq ↦ hinj i j hi hj heq
  rw [← hinjOn.ncard_image]
  congr 1
  ext names
  simp [ofPaths_eq_none_iff]

end OfPaths

end PathTree

/-! ## Trails -/

section Trails

variable {p p' : α → α} {r : α} {name name' : α → ν} {present : α → Prop} {i j m q : α}

theorem Rooted.congr (h : Rooted p r i) (hp : ∀ j, OnChain p r j i → p' j = p j) :
    Rooted p' r i := by
  induction h with
  | root => exact .root
  | @step i hne hrest ih =>
    refine .step hne ?_
    rw [hp i (.here hne)]
    exact ih fun j hj ↦ hp j (.up hne hj)

variable [Fintype α] [DecidableEq α]

theorem trail_congr (h : Rooted p r i)
    (hag : ∀ j, OnChain p r j i → p' j = p j ∧ name' j = name j) :
    trail p' r name' (Fintype.card α) i = trail p r name (Fintype.card α) i := by
  induction h with
  | root => rw [trail_root, trail_root]
  | @step i hne hrest ih =>
    obtain ⟨hp, hname⟩ := hag i (.here hne)
    have hrooted' : Rooted p' r i :=
      (Rooted.step hne hrest).congr fun j hj ↦ (hag j hj).1
    rw [hrooted'.trail_eq hne, (Rooted.step hne hrest).trail_eq hne, hp, hname,
      ih fun j hj ↦ hag j (.up hne hj)]

theorem Rooted.trail_eq_nil_iff (h : Rooted p r i) :
    trail p r name (Fintype.card α) i = [] ↔ i = r := by
  constructor
  · intro htrail
    by_contra hi
    rw [h.trail_eq hi] at htrail
    exact absurd htrail (by simp)
  · rintro rfl
    exact trail_root _

/-- Different elements have different trails, if siblings have different names. -/
theorem trail_inj (hup : ∀ i, present i → i ≠ r → present (p i))
    (hrooted : ∀ i, present i → Rooted p r i)
    (hsiblings : ∀ i j, present i → present j → i ≠ r → j ≠ r → p i = p j → name i = name j → i = j)
    (hi : present i) (hj : present j)
    (heq : trail p r name (Fintype.card α) i = trail p r name (Fintype.card α) j) : i = j := by
  have hrooti := hrooted i hi
  induction hrooti generalizing j with
  | root =>
    rw [trail_root] at heq
    exact ((hrooted j hj).trail_eq_nil_iff.mp heq.symm).symm
  | @step i hne hrest ih =>
    have hjne : j ≠ r := by
      rintro rfl
      rw [trail_root] at heq
      exact hne ((hrooted i hi).trail_eq_nil_iff.mp heq)
    rw [(hrooted i hi).trail_eq hne, (hrooted j hj).trail_eq hjne] at heq
    obtain ⟨hparents, hnames⟩ := List.append_inj' heq rfl
    have hp : p i = p j := ih (hup i hi hne) (hup j hj hjne) hparents
    exact hsiblings i j hi hj hne hjne hp (by simpa using hnames)

/-- **Being above is being a prefix.** -/
theorem onChain_iff_prefix
    (hinj : ∀ i j, present i → present j →
      trail p r name (Fintype.card α) i = trail p r name (Fintype.card α) j → i = j)
    (hup : ∀ i, present i → i ≠ r → present (p i)) (hrooted : ∀ i, present i → Rooted p r i)
    (hm : present m) (hne : m ≠ r) (hi : present i) :
    OnChain p r m i ↔
      trail p r name (Fintype.card α) m <+: trail p r name (Fintype.card α) i := by
  have hrooti := hrooted i hi
  induction hrooti with
  | root =>
    refine iff_of_false (fun hon ↦ hon.ne_root rfl) ?_
    rw [trail_root, List.prefix_nil, (hrooted m hm).trail_eq_nil_iff]
    exact hne
  | @step i hir hrest ih =>
    have habove := ih (hup i hi hir)
    rw [(hrooted i hi).trail_eq hir, List.prefix_concat_iff, ← (hrooted i hi).trail_eq hir]
    constructor
    · intro hon
      cases hon with
      | here _ => exact Or.inl rfl
      | up _ hon => exact Or.inr (habove.mp hon)
    · rintro (heq | hon)
      · obtain rfl := hinj m i hm hi heq
        exact .here hne
      · exact .up hir (habove.mpr hon)

/-- **The trails after a move.** The element `m` has been given the parent `q`, which is not below
it, and the name `n₀`. -/
theorem trail_move [DecidableEq ν] {n₀ : ν}
    (hinj : ∀ i j, present i → present j →
      trail p r name (Fintype.card α) i = trail p r name (Fintype.card α) j → i = j)
    (hup : ∀ i, present i → i ≠ r → present (p i)) (hrooted : ∀ i, present i → Rooted p r i)
    (hm : present m) (hne : m ≠ r) (hq : present q) (hbelow : ¬OnChain p r m q)
    (hi : present i) :
    trail (Function.update p m q) r (Function.update name m n₀) (Fintype.card α) i
      = movePath (trail p r name (Fintype.card α) m) (trail p r name (Fintype.card α) q ++ [n₀])
          (trail p r name (Fintype.card α) i) := by
  have hrooted' : ∀ i, present i → Rooted (Function.update p m q) r i := fun i hi ↦
    (hrooted q hq).update hbelow (hrooted i hi)
  have hrooti := hrooted i hi
  induction hrooti with
  | root =>
    rw [trail_root, trail_root, movePath, if_neg]
    rw [List.prefix_nil, (hrooted m hm).trail_eq_nil_iff]
    exact hne
  | @step i hir hrest ih =>
    rw [(hrooted' i hi).trail_eq hir]
    by_cases him : i = m
    · subst him
      rw [Function.update_self, Function.update_self, movePath, if_pos (List.prefix_refl _),
        List.drop_length, List.append_nil]
      congr 1
      -- the chain of the new parent does not meet the element
      refine trail_congr (hrooted q hq) fun j hj ↦ ?_
      have hji : j ≠ i := by
        rintro rfl
        exact hbelow hj
      rw [Function.update_of_ne hji, Function.update_of_ne hji]
      exact ⟨rfl, rfl⟩
    · rw [Function.update_of_ne him, Function.update_of_ne him, ih (hup i hi hir),
        (hrooted i hi).trail_eq hir]
      have habove : trail p r name (Fintype.card α) m
            <+: trail p r name (Fintype.card α) (p i) ++ [name i] ↔
          trail p r name (Fintype.card α) m <+: trail p r name (Fintype.card α) (p i) := by
        rw [List.prefix_concat_iff, or_iff_right]
        intro heq
        rw [← (hrooted i hi).trail_eq hir] at heq
        exact him (hinj m i hm hi heq).symm
      rw [movePath, movePath]
      simp only [habove]
      split
      · next hon =>
        rw [List.drop_append_of_le_length hon.length_le, List.append_assoc]
      · rfl

end Trails

end TensorOS
