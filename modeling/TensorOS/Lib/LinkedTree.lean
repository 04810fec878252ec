import TensorOS.Lib.RbTree

/-!
# Trees linked through arrays

A tree whose nodes are array indices, with a parent entry, two child entries and a colour for each
index. `Rep q t k` says that the arrays hold the tree `t` below the path `k`: the whole tree is
`t.plug k`, and the focus is at `t`. Moving the focus changes nothing (`rep_fill`, `rep_plug`), so
an algorithm that walks up or down stays in one representation, and an update is justified where it
happens: at the focus, at the nodes right below it, and at the link that leads to it.
-/

namespace TensorOS

variable {α : Type*}

/-- The link arrays. -/
structure Links (α : Type*) where
  root : Option α
  parent : α → Option α
  child : Side → α → Option α
  color : α → Color

namespace Links

def setRoot (q : Links α) (v : Option α) : Links α := { q with root := v }

section SetRoot

variable {q : Links α}

@[simp] theorem setRoot_root (v : Option α) : (q.setRoot v).root = v := rfl
@[simp] theorem setRoot_parent (v : Option α) : (q.setRoot v).parent = q.parent := rfl
@[simp] theorem setRoot_child (v : Option α) : (q.setRoot v).child = q.child := rfl
@[simp] theorem setRoot_color (v : Option α) : (q.setRoot v).color = q.color := rfl

end SetRoot

variable [DecidableEq α] (q : Links α)

def setParent (a : α) (v : Option α) : Links α :=
  { q with parent := fun b ↦ if b = a then v else q.parent b }

def setChild (s : Side) (a : α) (v : Option α) : Links α :=
  { q with child := fun s' b ↦ if s' = s ∧ b = a then v else q.child s' b }

def setColor (a : α) (c : Color) : Links α :=
  { q with color := fun b ↦ if b = a then c else q.color b }

/-- Set the parent entry of an index, if there is one. -/
def adopt (v : Option α) (p : Option α) : Links α :=
  match v with
  | some a => q.setParent a p
  | none => q

section Fields

variable {q}

@[simp] theorem setParent_root (a : α) (v : Option α) : (q.setParent a v).root = q.root := rfl
@[simp] theorem setParent_parent (a : α) (v : Option α) (b : α) :
    (q.setParent a v).parent b = if b = a then v else q.parent b := rfl
@[simp] theorem setParent_child (a : α) (v : Option α) : (q.setParent a v).child = q.child := rfl
@[simp] theorem setParent_color (a : α) (v : Option α) : (q.setParent a v).color = q.color := rfl

@[simp] theorem setChild_root (s : Side) (a : α) (v : Option α) :
    (q.setChild s a v).root = q.root := rfl
@[simp] theorem setChild_parent (s : Side) (a : α) (v : Option α) :
    (q.setChild s a v).parent = q.parent := rfl
@[simp] theorem setChild_child (s : Side) (a : α) (v : Option α) (s' : Side) (b : α) :
    (q.setChild s a v).child s' b = if s' = s ∧ b = a then v else q.child s' b := rfl
@[simp] theorem setChild_color (s : Side) (a : α) (v : Option α) :
    (q.setChild s a v).color = q.color := rfl

@[simp] theorem setColor_root (a : α) (c : Color) : (q.setColor a c).root = q.root := rfl
@[simp] theorem setColor_parent (a : α) (c : Color) : (q.setColor a c).parent = q.parent := rfl
@[simp] theorem setColor_child (a : α) (c : Color) : (q.setColor a c).child = q.child := rfl
@[simp] theorem setColor_color (a : α) (c : Color) (b : α) :
    (q.setColor a c).color b = if b = a then c else q.color b := rfl

@[simp] theorem adopt_root (v p : Option α) : (q.adopt v p).root = q.root := by cases v <;> rfl
@[simp] theorem adopt_parent (v p : Option α) (b : α) :
    (q.adopt v p).parent b = if v = some b then p else q.parent b := by
  cases v with
  | none => simp [adopt]
  | some a => simp [adopt, eq_comm]
@[simp] theorem adopt_child (v p : Option α) : (q.adopt v p).child = q.child := by cases v <;> rfl
@[simp] theorem adopt_color (v p : Option α) : (q.adopt v p).color = q.color := by cases v <;> rfl

end Fields

end Links

/-! ## Representation -/

/-- The node a path hangs the hole on. -/
def above : List (Frame α) → Option α
  | [] => none
  | f :: _ => some f.val

namespace Links

/-- The entry that leads to the hole. -/
def hole (q : Links α) : List (Frame α) → Option α
  | [] => q.root
  | f :: _ => q.child f.side f.val

/-- Change the entry that leads to the hole. -/
def setHole [DecidableEq α] (q : Links α) (v : Option α) : List (Frame α) → Links α
  | [] => q.setRoot v
  | f :: _ => q.setChild f.side f.val v

section SetHole

variable [DecidableEq α] {q : Links α} {k : List (Frame α)}

@[simp] theorem setHole_parent (v : Option α) : (q.setHole v k).parent = q.parent := by
  cases k <;> rfl

@[simp] theorem setHole_color (v : Option α) : (q.setHole v k).color = q.color := by
  cases k <;> rfl

@[simp] theorem hole_setHole (v : Option α) : (q.setHole v k).hole k = v := by
  cases k with
  | nil => rfl
  | cons f k => simp [setHole, hole]

@[simp] theorem hole_adopt (v p : Option α) : (q.adopt v p).hole k = q.hole k := by
  cases k with
  | nil => simp [hole]
  | cons f k => simp [hole]

/-- Away from the node above the hole the children are the same. -/
theorem setHole_child (v : Option α) (s : Side) {a : α} (h : above k ≠ some a) :
    (q.setHole v k).child s a = q.child s a := by
  cases k with
  | nil => rfl
  | cons f k =>
    have hne : a ≠ f.val := fun heq ↦ h (by rw [above, heq])
    simp [setHole, hne]

end SetHole

/-- The arrays hold the tree, below the given parent. -/
def Below (q : Links α) : Option α → RbTree α → Prop
  | _, .nil => True
  | p, .node c l a r => q.child .left a = l.top? ∧ q.child .right a = r.top? ∧ q.parent a = p ∧
      q.color a = c ∧ Below q (some a) l ∧ Below q (some a) r

/-- The arrays hold the path, the entry that leads to the hole left open. -/
def Around (q : Links α) : List (Frame α) → Prop
  | [] => True
  | f :: k => q.child f.side.other f.val = f.sibling.top? ∧ q.parent f.val = above k ∧
      q.color f.val = f.color ∧ q.Below (some f.val) f.sibling ∧ q.hole k = some f.val ∧
      Around q k

theorem below_join {q : Links α} {p : Option α} {s : Side} {c : Color} {t u : RbTree α} {a : α} :
    q.Below p (.join s c t a u) ↔ q.child s a = t.top? ∧ q.child s.other a = u.top? ∧
      q.parent a = p ∧ q.color a = c ∧ q.Below (some a) t ∧ q.Below (some a) u := by
  cases s with
  | left => rfl
  | right =>
    rw [RbTree.join, Below, Side.other]
    tauto

end Links

/-- The arrays hold the tree below the path, and no index occurs twice. -/
structure Rep (q : Links α) (t : RbTree α) (k : List (Frame α)) : Prop where
  hole : q.hole k = t.top?
  below : q.Below (above k) t
  around : q.Around k
  nodup : (t.toList ++ pathNodes k).Nodup

theorem rep_fill {q : Links α} {t : RbTree α} {f : Frame α} {k : List (Frame α)} :
    Rep q (f.fill t) k ↔ Rep q t (f :: k) := by
  have hperm : ((f.fill t).toList ++ pathNodes k).Perm (t.toList ++ pathNodes (f :: k)) := by
    have hfill : (f.fill t).toList.Perm (t.toList ++ f.val :: f.sibling.toList) :=
      (RbTree.toList_join_perm f.side f.color t f.val f.sibling).trans List.perm_middle.symm
    simpa [pathNodes] using hfill.append_right (pathNodes k)
  constructor
  · intro h
    obtain ⟨hs, ho, hp, hc, ht, hu⟩ := Links.below_join.mp h.below
    refine ⟨hs, ht, ⟨ho, hp, hc, hu, ?_, h.around⟩, hperm.nodup_iff.mp h.nodup⟩
    rw [h.hole, Frame.fill, RbTree.top?_join]
  · intro h
    obtain ⟨ho, hp, hc, hu, hhole, hk⟩ := h.around
    refine ⟨?_, Links.below_join.mpr ⟨h.hole, ho, hp, hc, h.below, hu⟩, hk,
      hperm.nodup_iff.mpr h.nodup⟩
    rw [hhole, Frame.fill, RbTree.top?_join]

theorem rep_plug {q : Links α} {t : RbTree α} {k k' : List (Frame α)} :
    Rep q (t.plug k) k' ↔ Rep q t (k ++ k') := by
  induction k generalizing t with
  | nil => rfl
  | cons f k ih => exact ih.trans rep_fill

/-! ## Frames -/

namespace Links

/-- The entries of an index are the same in both. -/
structure SameAt (q q' : Links α) (a : α) : Prop where
  parent : q'.parent a = q.parent a
  child : ∀ s, q'.child s a = q.child s a
  color : q'.color a = q.color a

variable {q q' : Links α}

theorem Below.congr {p : Option α} {t : RbTree α} (h : q.Below p t)
    (hsame : ∀ a ∈ t.toList, q.SameAt q' a) : q'.Below p t := by
  induction t generalizing p with
  | nil => trivial
  | node c l a r ihl ihr =>
    obtain ⟨hl, hr, hp, hc, hbl, hbr⟩ := h
    have ha := hsame a (by simp [RbTree.toList])
    exact ⟨(ha.child _).trans hl, (ha.child _).trans hr, ha.parent.trans hp, ha.color.trans hc,
      ihl hbl fun b hb ↦ hsame b (by simp [RbTree.toList, hb]),
      ihr hbr fun b hb ↦ hsame b (by simp [RbTree.toList, hb])⟩

/-- A tree may be hung below another parent by changing the parent entry of its top. -/
theorem Below.reparent {p p' : Option α} {t : RbTree α} (h : q.Below p t) (hnodup : t.toList.Nodup)
    (htop : ∀ a, t.top? = some a → q'.parent a = p' ∧ (∀ s, q'.child s a = q.child s a) ∧
      q'.color a = q.color a)
    (hsame : ∀ a ∈ t.toList, t.top? ≠ some a → q.SameAt q' a) : q'.Below p' t := by
  cases t with
  | nil => trivial
  | node c l a r =>
    obtain ⟨hl, hr, hp, hc, hbl, hbr⟩ := h
    obtain ⟨hp', hchild, hcolor⟩ := htop a rfl
    rw [RbTree.toList, List.nodup_middle] at hnodup
    have hne : ∀ b, b ∈ l.toList ∨ b ∈ r.toList → (RbTree.node c l a r).top? ≠ some b := by
      rintro b hb heq
      obtain rfl := Option.some.inj heq
      exact (List.nodup_cons.mp hnodup).1 (List.mem_append.mpr hb)
    exact ⟨(hchild _).trans hl, (hchild _).trans hr, hp', hcolor.trans hc,
      hbl.congr fun b hb ↦ hsame b (by simp [RbTree.toList, hb]) (hne b (Or.inl hb)),
      hbr.congr fun b hb ↦ hsame b (by simp [RbTree.toList, hb]) (hne b (Or.inr hb))⟩

theorem Around.congr {k : List (Frame α)} (h : q.Around k) (hnodup : (pathNodes k).Nodup)
    (hroot : k ≠ [] → q'.root = q.root)
    (hsame : ∀ a ∈ pathNodes k, above k ≠ some a → q.SameAt q' a)
    (htop : ∀ f k', k = f :: k' → q'.parent f.val = q.parent f.val ∧
      q'.color f.val = q.color f.val ∧ q'.child f.side.other f.val = q.child f.side.other f.val) :
    q'.Around k := by
  induction k with
  | nil => trivial
  | cons f k ih =>
    obtain ⟨ho, hp, hc, hu, hhole, hk⟩ := h
    obtain ⟨hp', hc', ho'⟩ := htop f k rfl
    rw [pathNodes, List.nodup_cons, List.mem_append, not_or] at hnodup
    have hout : ∀ a, a ∈ f.sibling.toList ∨ a ∈ pathNodes k → q.SameAt q' a := by
      intro a ha
      refine hsame a (List.mem_cons_of_mem _ (List.mem_append.mpr ha)) fun heq ↦ ?_
      obtain rfl : f.val = a := Option.some.inj heq
      exact ha.elim hnodup.1.1 hnodup.1.2
    refine ⟨ho'.trans ho, hp'.trans hp, hc'.trans hc, hu.congr fun a ha ↦ hout a (Or.inl ha), ?_,
      ih hk (List.nodup_append.mp hnodup.2).2.1 (fun _ ↦ hroot (by simp))
        (fun a ha _ ↦ hout a (Or.inr ha)) fun g k' hg ↦ ?_⟩
    · rw [← hhole]
      cases k with
      | nil => exact hroot (by simp)
      | cons g k => exact (hout g.val (Or.inr (by simp [pathNodes]))).child _
    · have hg' := hout g.val (Or.inr (by rw [hg]; simp [pathNodes]))
      exact ⟨hg'.parent, hg'.color, hg'.child _⟩

end Links

/-- The rule for an update at the focus: the path keeps its entries, apart from the one that leads
to the hole. -/
theorem Rep.update {q q' : Links α} {t t' : RbTree α} {k : List (Frame α)} (h : Rep q t k)
    (hhole : q'.hole k = t'.top?) (hbelow : q'.Below (above k) t')
    (hroot : k ≠ [] → q'.root = q.root)
    (hsame : ∀ a ∈ pathNodes k, above k ≠ some a → q.SameAt q' a)
    (htop : ∀ f k', k = f :: k' → q'.parent f.val = q.parent f.val ∧
      q'.color f.val = q.color f.val ∧ q'.child f.side.other f.val = q.child f.side.other f.val)
    (hnodup : (t'.toList ++ pathNodes k).Nodup) : Rep q' t' k :=
  ⟨hhole, hbelow, h.around.congr (List.nodup_append.mp h.nodup).2.1 hroot hsame htop, hnodup⟩

/-- An index of the focus is none of the path. -/
theorem Rep.not_mem_path {q : Links α} {t : RbTree α} {k : List (Frame α)} (h : Rep q t k) {a : α}
    (ha : a ∈ t.toList) : a ∉ pathNodes k := fun hk ↦
  (List.nodup_append.mp h.nodup).2.2 a ha a hk rfl

theorem above_mem {k : List (Frame α)} {a : α} (h : above k = some a) : a ∈ pathNodes k := by
  cases k with
  | nil => cases h
  | cons f k =>
    obtain rfl := Option.some.inj h
    simp [pathNodes]

/-- The entries of other indices do not matter. -/
theorem Rep.congr {q q' : Links α} {t : RbTree α} {k : List (Frame α)} (h : Rep q t k)
    (hroot : q'.root = q.root) (hsame : ∀ a ∈ t.toList ++ pathNodes k, q.SameAt q' a) :
    Rep q' t k := by
  have hpath : ∀ a ∈ pathNodes k, q.SameAt q' a := fun a ha ↦ hsame a (by simp [ha])
  refine h.update ?_ (h.below.congr fun a ha ↦ hsame a (by simp [ha])) (fun _ ↦ hroot)
    (fun a ha _ ↦ hpath a ha) (fun f k' hf ↦ ?_) h.nodup
  · rw [← h.hole]
    cases k with
    | nil => exact hroot
    | cons f k => exact (hpath f.val (by simp [pathNodes])).child _
  · have hf' := hpath f.val (by rw [hf]; simp [pathNodes])
    exact ⟨hf'.parent, hf'.color, hf'.child _⟩

theorem Rep.setColor [DecidableEq α] {q : Links α} {s : Side} {c : Color} {t u : RbTree α} {a : α}
    {k : List (Frame α)} (h : Rep q (.join s c t a u) k) (c' : Color) :
    Rep (q.setColor a c') (.join s c' t a u) k := by
  obtain ⟨hs, ho, hp, -, ht, hu⟩ := Links.below_join.mp h.below
  have hperm := (RbTree.toList_join_perm s c t a u).trans (RbTree.toList_join_perm s c' t a u).symm
  have hnodup := (hperm.append_right (pathNodes k)).nodup_iff.mp h.nodup
  have hin := (RbTree.toList_join_perm s c t a u).nodup_iff.mp (List.nodup_append.mp h.nodup).1
  have hak : a ∉ pathNodes k := h.not_mem_path (RbTree.mem_toList_join.mpr (Or.inl rfl))
  have hsame : ∀ b, b ≠ a → q.SameAt (q.setColor a c') b := fun b hb ↦
    ⟨rfl, fun _ ↦ rfl, by simp [hb]⟩
  refine h.update ?_ (Links.below_join.mpr ⟨hs, ho, hp, by simp, ht.congr fun b hb ↦ hsame b ?_,
    hu.congr fun b hb ↦ hsame b ?_⟩) (fun _ ↦ rfl) (fun b hb _ ↦ hsame b ?_)
    (fun f k' hf ↦ ⟨rfl, ?_, rfl⟩) hnodup
  · have hhole := h.hole
    rw [RbTree.top?_join] at hhole ⊢
    rw [← hhole]
    cases k <;> rfl
  · rintro rfl
    exact (List.nodup_cons.mp hin).1 (List.mem_append_left _ hb)
  · rintro rfl
    exact (List.nodup_cons.mp hin).1 (List.mem_append_right _ hb)
  · rintro rfl
    exact hak hb
  · refine (hsame f.val ?_).color
    rintro rfl
    exact hak (by rw [hf]; simp [pathNodes])

theorem Rep.setColor_above [DecidableEq α] {q : Links α} {s : Side} {c : Color} {t u : RbTree α}
    {a : α} {k : List (Frame α)} (h : Rep q t (⟨s, c, a, u⟩ :: k)) (c' : Color) :
    Rep (q.setColor a c') t (⟨s, c', a, u⟩ :: k) :=
  rep_fill.mp ((rep_fill.mpr h).setColor c')

theorem rep_swap {q : Links α} {s : Side} {c : Color} {t u : RbTree α} {a : α}
    {k : List (Frame α)} : Rep q t (⟨s, c, a, u⟩ :: k) ↔ Rep q u (⟨s.other, c, a, t⟩ :: k) := by
  rw [← rep_fill, ← rep_fill, Frame.fill, Frame.fill, RbTree.join_other]

theorem Rep.parent_top {q : Links α} {t : RbTree α} {k : List (Frame α)} {a : α} (h : Rep q t k)
    (ha : t.top? = some a) : q.parent a = above k := by
  cases t with
  | nil => cases ha
  | node c l b r =>
    obtain rfl := Option.some.inj ha
    exact h.below.2.2.1

theorem top?_plug_cons (t : RbTree α) (f : Frame α) (k : List (Frame α)) :
    ∃ a ∈ pathNodes (f :: k), (t.plug (f :: k)).top? = some a := by
  induction k generalizing t f with
  | nil => exact ⟨f.val, by simp [pathNodes], RbTree.top?_join ..⟩
  | cons g k ih =>
    obtain ⟨a, ha, htop⟩ := ih (f.fill t) g
    refine ⟨a, ?_, htop⟩
    rw [pathNodes]
    exact List.mem_cons_of_mem _ (List.mem_append_right _ ha)

theorem Rep.root_ne {q : Links α} {t : RbTree α} {f : Frame α} {k : List (Frame α)} {a : α}
    (h : Rep q t (f :: k)) (ha : a ∈ t.toList) : q.root ≠ some a := by
  intro hroot
  obtain ⟨b, hb, htop⟩ := top?_plug_cons t f k
  have hall : Rep q (t.plug (f :: k)) [] := rep_plug.mpr (by simpa using h)
  obtain rfl : b = a := Option.some.inj (htop.symm.trans (hall.hole.symm.trans hroot))
  exact h.not_mem_path ha hb

theorem Rep.top?_ne_root {q : Links α} {t : RbTree α} {f : Frame α} {k : List (Frame α)}
    (h : Rep q t (f :: k)) : t.top? ≠ q.root := by
  intro heq
  obtain ⟨b, hb, htop⟩ := top?_plug_cons t f k
  have hall : Rep q (t.plug (f :: k)) [] := rep_plug.mpr (by simpa using h)
  have hroot : q.root = some b := hall.hole.trans htop
  exact h.root_ne (RbTree.top?_mem (heq.trans hroot)) hroot

/-- No other child of the node above leads to the focus. -/
theorem Rep.other_ne {q : Links α} {t : RbTree α} {f : Frame α} {k : List (Frame α)} {a : α}
    (h : Rep q t (f :: k)) (ha : a ∈ t.toList) : q.child f.side.other f.val ≠ some a := by
  rw [h.around.1]
  intro heq
  exact h.not_mem_path ha (by simp [pathNodes, RbTree.top?_mem heq])

end TensorOS
