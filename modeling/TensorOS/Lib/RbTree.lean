import Mathlib

/-!
# Red-black trees with a path to a hole

Trees carry a colour at each node. A `Frame` is a node with a hole in place of one child, and a list
of frames, innermost first, is a tree with a hole (`plug` fills it). The two children are addressed
by a `Side`, so that an algorithm with a left and a right half is treated once: `join s` puts the
tree on side `s` first.

`Balanced t c n` says that `t` has a root of colour `c`, no red node with a red child, and `n` black
nodes on every way down. `Fits k c n` says that a path takes such a tree and the whole is balanced
with a black root; the two meet in `Fits.plug` and `Balanced.split`.
-/

namespace TensorOS

inductive Color
  | black
  | red
  deriving DecidableEq, Repr

inductive Side
  | left
  | right
  deriving DecidableEq, Repr

def Side.other : Side → Side
  | .left => .right
  | .right => .left

@[simp] theorem Side.other_other (s : Side) : s.other.other = s := by cases s <;> rfl

@[simp] theorem Side.other_ne (s : Side) : s.other ≠ s := by cases s <;> decide

@[simp] theorem Side.ne_other (s : Side) : s ≠ s.other := by cases s <;> decide

theorem Side.eq_other_of_ne {s s' : Side} (h : s' ≠ s) : s' = s.other := by
  cases s <;> cases s' <;> first | rfl | exact absurd rfl h

inductive RbTree (α : Type*)
  | nil
  | node (c : Color) (l : RbTree α) (a : α) (r : RbTree α)

variable {α : Type*}

namespace RbTree

/-- A node whose child on side `s` is given first. -/
def join (s : Side) (c : Color) (near : RbTree α) (a : α) (far : RbTree α) : RbTree α :=
  match s with
  | .left => node c near a far
  | .right => node c far a near

def top? : RbTree α → Option α
  | nil => none
  | node _ _ a _ => some a

/-- The elements in order. -/
def toList : RbTree α → List α
  | nil => []
  | node _ l a r => l.toList ++ a :: r.toList

@[simp] theorem top?_join (s : Side) (c : Color) (t : RbTree α) (a : α) (u : RbTree α) :
    (join s c t a u).top? = some a := by cases s <;> rfl

theorem toList_join_perm (s : Side) (c : Color) (t : RbTree α) (a : α) (u : RbTree α) :
    (join s c t a u).toList.Perm (a :: (t.toList ++ u.toList)) := by
  cases s with
  | left => exact List.perm_middle
  | right => exact List.perm_middle.trans (List.Perm.cons a List.perm_append_comm)

theorem mem_toList_join {s : Side} {c : Color} {t : RbTree α} {a : α} {u : RbTree α} {x : α} :
    x ∈ (join s c t a u).toList ↔ x = a ∨ x ∈ t.toList ∨ x ∈ u.toList := by
  rw [(toList_join_perm s c t a u).mem_iff, List.mem_cons, List.mem_append]

theorem join_other (s : Side) (c : Color) (t : RbTree α) (a : α) (u : RbTree α) :
    join s.other c t a u = join s c u a t := by cases s <;> rfl

/-- A rotation keeps the order, whatever the colours. -/
theorem toList_rotate (s : Side) (c d c' d' : Color) (t u v : RbTree α) (x y : α) :
    (join s d' (join s c' t x u) y v).toList = (join s c t x (join s d u y v)).toList := by
  cases s with
  | left => simp [join, toList]
  | right => simp [join, toList]

theorem toList_join_congr {s : Side} {c c' : Color} {t t' u u' : RbTree α} (a : α)
    (ht : t.toList = t'.toList) (hu : u.toList = u'.toList) :
    (join s c t a u).toList = (join s c' t' a u').toList := by
  cases s with
  | left => rw [join, join, toList, toList, ht, hu]
  | right => rw [join, join, toList, toList, ht, hu]

theorem top?_mem {t : RbTree α} {a : α} (h : t.top? = some a) : a ∈ t.toList := by
  cases t with
  | nil => cases h
  | node c l b r =>
    obtain rfl := Option.some.inj h
    simp [toList]

end RbTree

/-! ## Paths -/

/-- A node with a hole on one side. -/
structure Frame (α : Type*) where
  side : Side
  color : Color
  val : α
  sibling : RbTree α

namespace Frame

def fill (f : Frame α) (t : RbTree α) : RbTree α := .join f.side f.color t f.val f.sibling

end Frame

namespace RbTree

/-- The tree with the hole filled. -/
def plug (t : RbTree α) : List (Frame α) → RbTree α
  | [] => t
  | f :: k => plug (f.fill t) k

theorem plug_append (t : RbTree α) (k k' : List (Frame α)) :
    t.plug (k ++ k') = (t.plug k).plug k' := by
  induction k generalizing t with
  | nil => rfl
  | cons f k ih => exact ih (f.fill t)

end RbTree

/-- The elements on a path and beside it. -/
def pathNodes : List (Frame α) → List α
  | [] => []
  | f :: k => f.val :: (f.sibling.toList ++ pathNodes k)

/-- What comes before the hole. -/
def pathLower : List (Frame α) → List α
  | [] => []
  | ⟨.left, _, _, _⟩ :: k => pathLower k
  | ⟨.right, _, a, u⟩ :: k => pathLower k ++ (u.toList ++ [a])

/-- What comes after the hole. -/
def pathUpper : List (Frame α) → List α
  | [] => []
  | ⟨.left, _, a, u⟩ :: k => a :: u.toList ++ pathUpper k
  | ⟨.right, _, _, _⟩ :: k => pathUpper k

theorem toList_plug (t : RbTree α) (k : List (Frame α)) :
    (t.plug k).toList = pathLower k ++ (t.toList ++ pathUpper k) := by
  induction k generalizing t with
  | nil => simp [RbTree.plug, pathLower, pathUpper]
  | cons f k ih =>
    obtain ⟨s, c, a, u⟩ := f
    rw [RbTree.plug, ih]
    cases s with
    | left => simp [Frame.fill, RbTree.join, RbTree.toList, pathLower, pathUpper]
    | right => simp [Frame.fill, RbTree.join, RbTree.toList, pathLower, pathUpper]

theorem toList_plug_congr {t t' : RbTree α} (k : List (Frame α)) (h : t.toList = t'.toList) :
    (t.plug k).toList = (t'.plug k).toList := by
  rw [toList_plug, toList_plug, h]

theorem pathNodes_append (k k' : List (Frame α)) :
    pathNodes (k ++ k') = pathNodes k ++ pathNodes k' := by
  induction k with
  | nil => rfl
  | cons f k ih => simp [pathNodes, ih]

theorem toList_plug_perm (t : RbTree α) (k : List (Frame α)) :
    (t.plug k).toList.Perm (t.toList ++ pathNodes k) := by
  induction k generalizing t with
  | nil => simp [RbTree.plug, pathNodes]
  | cons f k ih =>
    refine (ih (f.fill t)).trans ?_
    have hperm : (f.fill t).toList.Perm (t.toList ++ f.val :: f.sibling.toList) :=
      (RbTree.toList_join_perm f.side f.color t f.val f.sibling).trans List.perm_middle.symm
    rw [pathNodes]
    simpa using hperm.append_right (pathNodes k)

theorem RbTree.exists_plug {t : RbTree α} {a : α} (h : a ∈ t.toList) :
    ∃ c l r k, t = (RbTree.node c l a r).plug k := by
  induction t with
  | nil => simp [toList] at h
  | node c l b r ihl ihr =>
    rw [toList, List.mem_append, List.mem_cons] at h
    rcases h with h | rfl | h
    · obtain ⟨c', l', r', k, rfl⟩ := ihl h
      refine ⟨c', l', r', k ++ [⟨.left, c, b, r⟩], ?_⟩
      rw [plug_append]
      rfl
    · exact ⟨c, l, r, [], rfl⟩
    · obtain ⟨c', l', r', k, rfl⟩ := ihr h
      refine ⟨c', l', r', k ++ [⟨.right, c, b, l⟩], ?_⟩
      rw [plug_append]
      rfl

/-! ## Balance -/

/-- A tree with a root of the given colour (leaves are black), no red node with a red child, and the
given number of black nodes on every way down. -/
inductive Balanced : RbTree α → Color → ℕ → Prop
  | nil : Balanced .nil .black 0
  | red {l r : RbTree α} {a : α} {n : ℕ} :
      Balanced l .black n → Balanced r .black n → Balanced (.node .red l a r) .red n
  | black {l r : RbTree α} {a : α} {c c' : Color} {n : ℕ} :
      Balanced l c n → Balanced r c' n → Balanced (.node .black l a r) .black (n + 1)

/-- A path that takes a tree of the given colour and height into a balanced tree with a black
root. -/
inductive Fits : List (Frame α) → Color → ℕ → Prop
  | top {n : ℕ} : Fits [] .black n
  | red {s : Side} {a : α} {u : RbTree α} {k : List (Frame α)} {n : ℕ} :
      Balanced u .black n → Fits k .red n → Fits (⟨s, .red, a, u⟩ :: k) .black n
  | black {s : Side} {a : α} {u : RbTree α} {k : List (Frame α)} {c c' : Color} {n : ℕ} :
      Balanced u c' n → Fits k .black (n + 1) → Fits (⟨s, .black, a, u⟩ :: k) c n

theorem balanced_join_red {s : Side} {t u : RbTree α} {a : α} {c : Color} {n : ℕ} :
    Balanced (.join s .red t a u) c n ↔ c = .red ∧ Balanced t .black n ∧ Balanced u .black n := by
  constructor
  · intro h
    cases s with
    | left =>
      cases h with
      | red hl hr => exact ⟨rfl, hl, hr⟩
    | right =>
      cases h with
      | red hl hr => exact ⟨rfl, hr, hl⟩
  · rintro ⟨rfl, ht, hu⟩
    cases s with
    | left => exact .red ht hu
    | right => exact .red hu ht

theorem balanced_join_black {s : Side} {t u : RbTree α} {a : α} {c : Color} {n : ℕ} :
    Balanced (.join s .black t a u) c n ↔
      c = .black ∧ ∃ m c₁ c₂, n = m + 1 ∧ Balanced t c₁ m ∧ Balanced u c₂ m := by
  constructor
  · intro h
    cases s with
    | left =>
      cases h with
      | black hl hr => exact ⟨rfl, _, _, _, rfl, hl, hr⟩
    | right =>
      cases h with
      | black hl hr => exact ⟨rfl, _, _, _, rfl, hr, hl⟩
  · rintro ⟨rfl, m, c₁, c₂, rfl, ht, hu⟩
    cases s with
    | left => exact .black ht hu
    | right => exact .black hu ht

theorem Fits.of_red {k : List (Frame α)} {n : ℕ} (h : Fits k .red n) : Fits k .black n := by
  cases h with
  | black hu hk => exact .black hu hk

theorem Fits.plug {t : RbTree α} {k : List (Frame α)} {c : Color} {n : ℕ} (hk : Fits k c n)
    (ht : Balanced t c n) : ∃ m, Balanced (t.plug k) .black m := by
  induction hk generalizing t with
  | top => exact ⟨_, ht⟩
  | red hu _ ih => exact ih (balanced_join_red.mpr ⟨rfl, ht, hu⟩)
  | black hu _ ih => exact ih (balanced_join_black.mpr ⟨rfl, _, _, _, rfl, ht, hu⟩)

/-- A subtree of a balanced tree is balanced, and the path to it takes it. -/
theorem Balanced.split {t : RbTree α} {k : List (Frame α)} {n : ℕ}
    (h : Balanced (t.plug k) .black n) : ∃ c m, Balanced t c m ∧ Fits k c m := by
  induction k generalizing t with
  | nil => exact ⟨_, _, h, .top⟩
  | cons f k ih =>
    obtain ⟨c, m, hfill, hk⟩ := ih h
    obtain ⟨s, d, a, u⟩ := f
    cases d with
    | red =>
      obtain ⟨rfl, ht, hu⟩ := balanced_join_red.mp hfill
      exact ⟨_, _, ht, .red hu hk⟩
    | black =>
      obtain ⟨rfl, m', c₁, c₂, rfl, ht, hu⟩ := balanced_join_black.mp hfill
      exact ⟨_, _, ht, .black hu hk⟩

/-- A balanced tree with a red top, seen from either side. -/
theorem Balanced.exists_join_red {t : RbTree α} {n : ℕ} (h : Balanced t .red n) (s : Side) :
    ∃ u a v, t = .join s .red u a v ∧ Balanced u .black n ∧ Balanced v .black n := by
  cases h with
  | red hl hr =>
    cases s with
    | left => exact ⟨_, _, _, rfl, hl, hr⟩
    | right => exact ⟨_, _, _, rfl, hr, hl⟩

/-- A balanced tree with a black node on every way down and a black top, seen from either side. -/
theorem Balanced.exists_join_black {t : RbTree α} {n : ℕ} (h : Balanced t .black (n + 1))
    (s : Side) :
    ∃ u a v c c', t = .join s .black u a v ∧ Balanced u c n ∧ Balanced v c' n := by
  cases h with
  | black hl hr =>
    cases s with
    | left => exact ⟨_, _, _, _, _, rfl, hl, hr⟩
    | right => exact ⟨_, _, _, _, _, rfl, hr, hl⟩

/-- The same tree with a black top. -/
def RbTree.blacken : RbTree α → RbTree α
  | .nil => .nil
  | .node _ l a r => .node .black l a r

@[simp] theorem RbTree.top?_blacken (t : RbTree α) : t.blacken.top? = t.top? := by cases t <;> rfl

@[simp] theorem RbTree.toList_blacken (t : RbTree α) : t.blacken.toList = t.toList := by
  cases t <;> rfl

theorem RbTree.blacken_join (s : Side) (c : Color) (t : RbTree α) (a : α) (u : RbTree α) :
    (RbTree.join s c t a u).blacken = .join s .black t a u := by
  cases s <;> rfl

theorem Balanced.blacken_eq {t : RbTree α} {n : ℕ} (h : Balanced t .black n) : t.blacken = t := by
  cases h <;> rfl

/-- Blackening a red top adds one black node to every way down. -/
theorem Balanced.blacken_red {t : RbTree α} {n : ℕ} (h : Balanced t .red n) :
    Balanced t.blacken .black (n + 1) := by
  cases h with
  | red hl hr => exact .black hl hr

theorem Balanced.exists_blacken {t : RbTree α} {c : Color} {n : ℕ} (h : Balanced t c n) :
    ∃ m, Balanced t.blacken .black m := by
  cases c with
  | red => exact ⟨_, h.blacken_red⟩
  | black => exact ⟨n, h.blacken_eq.symm ▸ h⟩

/-! ## Taking a node out -/

/-- A balanced tree that lacks a black node, or one with a red top that has them all once the top is
black. -/
def Short (t : RbTree α) (n : ℕ) : Prop :=
  Balanced t .black n ∨ ∃ l a r, t = .node .red l a r ∧ Balanced t.blacken .black (n + 1)

theorem Balanced.splice_red {s : Side} {u : RbTree α} {a : α} {c : Color} {n : ℕ}
    (h : Balanced (.join s .red .nil a u) c n) : c = .red ∧ Balanced u .black n := by
  obtain ⟨hc, -, hu⟩ := balanced_join_red.mp h
  exact ⟨hc, hu⟩

/-- The only child of a black node takes its place but for one black node. -/
theorem Balanced.splice_black {s : Side} {u : RbTree α} {a : α} {c : Color} {n : ℕ}
    (h : Balanced (.join s .black .nil a u) c n) : c = .black ∧ n = 1 ∧ Short u 0 := by
  obtain ⟨hc, m, c₁, c₂, rfl, hnil, hu⟩ := balanced_join_black.mp h
  cases hnil
  refine ⟨hc, rfl, ?_⟩
  cases hu with
  | nil => exact Or.inl .nil
  | red hl hr => exact Or.inr ⟨_, _, _, rfl, .black hl hr⟩

/-- Whether a path fits does not depend on the elements it carries. -/
theorem Fits.rename {k k' : List (Frame α)} {s : Side} {d c : Color} {a : α} {u : RbTree α} {n : ℕ}
    (h : Fits (k ++ ⟨s, d, a, u⟩ :: k') c n) (b : α) : Fits (k ++ ⟨s, d, b, u⟩ :: k') c n := by
  induction k generalizing c n with
  | nil =>
    cases h with
    | red hu hk => exact .red hu hk
    | black hu hk => exact .black hu hk
  | cons f k ih =>
    cases h with
    | red hu hk => exact .red hu (ih hk)
    | black hu hk => exact .black hu (ih hk)

theorem pathLower_eq_nil {k : List (Frame α)} (h : ∀ f ∈ k, f.side = .left) : pathLower k = [] := by
  induction k with
  | nil => rfl
  | cons f k ih =>
    obtain ⟨s, c, a, u⟩ := f
    obtain rfl : s = .left := h ⟨s, c, a, u⟩ (by simp)
    exact ih fun f hf ↦ h f (by simp [hf])

/-! ## Searching -/

section Search

variable {r : α → α → Prop} {k : List (Frame α)} {x : α}

/-- A search for the place of `x`: it goes left exactly where `x` comes first. -/
def Searches (r : α → α → Prop) (x : α) (k : List (Frame α)) : Prop :=
  ∀ f ∈ k, f.side = .left ↔ r x f.val

theorem Searches.cons {f : Frame α} (h : Searches r x (f :: k)) : Searches r x k :=
  fun g hg ↦ h g (by simp [hg])

variable [IsTrans α r]

theorem Searches.lower (h : Searches r x k) (hsort : (pathLower k).Pairwise r)
    (htotal : ∀ b ∈ pathNodes k, r x b ∨ r b x) : ∀ b ∈ pathLower k, r b x := by
  induction k with
  | nil => simp [pathLower]
  | cons f k ih =>
    obtain ⟨s, c, a, u⟩ := f
    have hside := h ⟨s, c, a, u⟩ (by simp)
    have htotal' : ∀ b ∈ pathNodes k, r x b ∨ r b x := fun b hb ↦ htotal b (by simp [pathNodes, hb])
    cases s with
    | left => exact ih h.cons hsort htotal'
    | right =>
      have hax : r a x := (htotal a (by simp [pathNodes])).resolve_left fun hxa ↦ by
        simpa using hside.mpr hxa
      rw [pathLower, List.pairwise_append] at hsort
      obtain ⟨hlow, hmid, -⟩ := hsort
      intro b hb
      rw [pathLower, List.mem_append, List.mem_append, List.mem_singleton] at hb
      rcases hb with hb | hb | rfl
      · exact ih h.cons hlow htotal' b hb
      · exact IsTrans.trans _ _ _ ((List.pairwise_append.mp hmid).2.2 b hb a (by simp)) hax
      · exact hax

theorem Searches.upper (h : Searches r x k) (hsort : (pathUpper k).Pairwise r) :
    ∀ b ∈ pathUpper k, r x b := by
  induction k with
  | nil => simp [pathUpper]
  | cons f k ih =>
    obtain ⟨s, c, a, u⟩ := f
    have hside := h ⟨s, c, a, u⟩ (by simp)
    cases s with
    | right => exact ih h.cons hsort
    | left =>
      have hxa : r x a := hside.mp rfl
      rw [pathUpper, List.cons_append, List.pairwise_cons, List.pairwise_append] at hsort
      obtain ⟨hfirst, -, hup, -⟩ := hsort
      intro b hb
      rw [pathUpper, List.cons_append, List.mem_cons, List.mem_append] at hb
      rcases hb with rfl | hb | hb
      · exact hxa
      · exact IsTrans.trans _ _ _ hxa (hfirst b (by simp [hb]))
      · exact ih h.cons hup b hb

/-- An element put where the search for it ends keeps the order. -/
theorem Searches.pairwise (h : Searches r x k)
    (hsort : (RbTree.plug .nil k).toList.Pairwise r)
    (htotal : ∀ b ∈ pathNodes k, r x b ∨ r b x) (c : Color) :
    ((RbTree.node c .nil x .nil).plug k).toList.Pairwise r := by
  rw [toList_plug] at hsort ⊢
  simp only [RbTree.toList, List.nil_append, List.cons_append] at hsort ⊢
  obtain ⟨hlow, hup, hcross⟩ := List.pairwise_append.mp hsort
  have hlower := h.lower hlow htotal
  refine List.pairwise_append.mpr ⟨hlow, List.pairwise_cons.mpr ⟨h.upper hup, hup⟩, ?_⟩
  intro b hb b' hb'
  rcases List.mem_cons.mp hb' with rfl | hb'
  · exact hlower b hb
  · exact hcross b hb b' hb'

end Search

end TensorOS
