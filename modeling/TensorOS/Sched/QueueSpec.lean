import TensorOS.Sched.Rebalance

/-!
# The ready queue as a sorted list

`ReadyQueue.Holds rq l` says that the queue holds the slots of `l`, from left to right: its links
are a balanced tree with this list, the marks `onRq` are set for exactly these slots and `leftmost`
is the first one. Inserting and removing a slot keep such a list, and neither leaves the arrays or
runs longer than its bound. Whether the list is sorted is a separate matter: both operations keep
it so, but the structure does not depend on it.
-/

namespace TensorOS

variable {q : Links Slot} {k : List (Frame Slot)}

theorem Rep.length_le {t : RbTree Slot} (h : Rep q t k) :
    t.toList.length + (pathNodes k).length ≤ 10 := by
  have hcard := h.nodup.length_le_card
  simpa using hcard

theorem length_le_pathNodes {α : Type*} (k : List (Frame α)) : k.length ≤ (pathNodes k).length := by
  induction k with
  | nil => simp
  | cons f k ih => simp [pathNodes]; omega

/-! ## Walking down -/

/-- The walk to the left ends at the first slot of the tree. -/
theorem Rep.leftmostFrom_spec (bound : ℕ) {c : Color} {l r : RbTree Slot} {a : Slot}
    (h : Rep q (.node c l a r) k) (hbound : l.toList.length < bound) :
    ∃ d y u k', leftmostFrom q bound a = .ok y ∧
      RbTree.node c l a r = (RbTree.node d .nil y u).plug k' ∧ ∀ f ∈ k', f.side = .left := by
  induction l generalizing bound c a r k with
  | nil =>
    obtain ⟨bound, rfl⟩ : ∃ b, bound = b + 1 := ⟨bound - 1, by omega⟩
    have hleft : q.child .left a = none := h.below.1
    refine ⟨c, a, r, [], ?_, rfl, by simp⟩
    rw [leftmostFrom, hleft]
  | node c' l' a' r' ih _ =>
    obtain ⟨bound, rfl⟩ : ∃ b, bound = b + 1 := ⟨bound - 1, by omega⟩
    have hleft : q.child .left a = some a' := h.below.1
    have hfocus : Rep q (.node c' l' a' r') (⟨.left, c, a, r⟩ :: k) := rep_fill.mp h
    obtain ⟨d, y, u, k', hrun, htree, hside⟩ := ih bound hfocus (by
      simp [RbTree.toList] at hbound; omega)
    refine ⟨d, y, u, k' ++ [⟨.left, c, a, r⟩], ?_, ?_, ?_⟩
    · rw [leftmostFrom, hleft]
      exact hrun
    · rw [RbTree.plug_append, ← htree]
      rfl
    · intro f hf
      rcases List.mem_append.mp hf with hf | hf
      · exact hside f hf
      · rw [List.mem_singleton.mp hf]

theorem Rep.recomputeLeftmost_eq {t : RbTree Slot} (h : Rep q t []) :
    recomputeLeftmost q = .ok t.toList.head? := by
  have hroot : q.root = t.top? := h.hole
  cases t with
  | nil => rw [recomputeLeftmost, hroot]; rfl
  | node c l a r =>
    have hlen := h.length_le
    obtain ⟨d, y, u, k', hrun, htree, hside⟩ := h.leftmostFrom_spec loopBound (by
      simp [RbTree.toList, pathNodes, loopBound] at hlen ⊢; omega)
    rw [htree, toList_plug, pathLower_eq_nil hside, recomputeLeftmost, hroot]
    simp [RbTree.top?, hrun, RbTree.toList]

/-- **The search of an insertion** ends at the hole it is for. -/
theorem Rep.insertDescend_spec (before : Slot → Slot → Bool) (x : Slot) {bound : ℕ}
    {t : RbTree Slot} (h : Rep q t k) (hbound : t.toList.length ≤ bound) :
    ∃ k', insertDescend before q x bound t.top? (above k) = .ok (above (k' ++ k)) ∧
      t = RbTree.plug .nil k' ∧ Searches (fun a b ↦ before a b = true) x k' := by
  induction bound generalizing t k with
  | zero =>
    cases t with
    | nil => exact ⟨[], rfl, rfl, by simp [Searches]⟩
    | node c l a r => simp [RbTree.toList] at hbound
  | succ bound ih =>
    cases t with
    | nil => exact ⟨[], rfl, rfl, by simp [Searches]⟩
    | node c l a r =>
      -- the child the search goes to, with its frame
      obtain ⟨s, t', u, hs, hshape⟩ : ∃ s t' u, (if before x a then Side.left else .right) = s ∧
          RbTree.node c l a r = .join s c t' a u := by
        by_cases hb : before x a
        · exact ⟨.left, l, r, if_pos hb, rfl⟩
        · exact ⟨.right, r, l, if_neg hb, rfl⟩
      have hfocus : Rep q t' (⟨s, c, a, u⟩ :: k) := rep_fill.mp (by rw [hshape] at h; exact h)
      have hlen : t'.toList.length ≤ bound := by
        have hperm := (RbTree.toList_join_perm s c t' a u).length_eq
        rw [← hshape] at hperm
        simp at hperm
        omega
      obtain ⟨k', hrun, htree, hsearch⟩ := ih hfocus hlen
      refine ⟨k' ++ [⟨s, c, a, u⟩], ?_, ?_, ?_⟩
      · have hchild : q.child s a = t'.top? := hfocus.hole
        rw [RbTree.top?, insertDescend, hs, hchild]
        simpa [above] using hrun
      · rw [RbTree.plug_append, ← htree, hshape]
        rfl
      · intro f hf
        rcases List.mem_append.mp hf with hf | hf
        · exact hsearch f hf
        · rw [List.mem_singleton.mp hf]
          by_cases hb : before x a
          · simp [← hs, hb]
          · simp [← hs, hb]

/-! ## Inserting -/

/-- A new red leaf in the hole. -/
theorem Rep.attach {x : Slot} (h : Rep q .nil k) (hx : x ∉ pathNodes k)
    (hchild : ∀ s, q.child s x = none) :
    Rep (((q.setParent x (above k)).setColor x .red).setHole (some x) k)
      (.node .red .nil x .nil) k := by
  have hne : above k ≠ some x := fun heq ↦ hx (above_mem heq)
  refine h.update (by simp [RbTree.top?]) ?_ (fun hk ↦ ?_) (fun a ha hak ↦ ?_) (fun f k' hf ↦ ?_) ?_
  · exact ⟨by simp [Links.setHole_child _ _ hne, hchild, RbTree.top?],
      by simp [Links.setHole_child _ _ hne, hchild, RbTree.top?], by simp, by simp, trivial,
      trivial⟩
  · cases k with
    | nil => exact absurd rfl hk
    | cons f k => rfl
  · have hax : a ≠ x := fun heq ↦ hx (heq ▸ ha)
    exact ⟨by simp [hax], fun s ↦ by simp [Links.setHole_child _ _ hak], by simp [hax]⟩
  · have hfx : f.val ≠ x := fun heq ↦ hx (by rw [hf, ← heq]; simp [pathNodes])
    subst hf
    exact ⟨by simp [hfx], by simp [hfx], by simp [Links.setHole]⟩
  · simpa [RbTree.toList] using ⟨hx, h.nodup⟩

/-- The queue holds the slots of the list, from left to right. -/
structure ReadyQueue.Holds (rq : ReadyQueue) (l : List Slot) : Prop where
  queued : Queued rq.links l
  onRq : ∀ i, rq.onRq i = true ↔ i ∈ l
  leftmost : rq.leftmost = l.head?

/-- A strict total order, as `scheduler_vruntime_before` is one. -/
structure StrictBefore (before : Slot → Slot → Bool) : Prop where
  irrefl : ∀ a, before a a = false
  trans : ∀ a b c, before a b = true → before b c = true → before a c = true
  total : ∀ a b, a ≠ b → before a b = true ∨ before b a = true

theorem ReadyQueue.Holds.nodup {rq : ReadyQueue} {l : List Slot} (h : rq.Holds l) : l.Nodup := by
  obtain ⟨t, m, hrep, -, rfl⟩ := h.queued
  exact (List.nodup_append.mp hrep.nodup).1

/-- A slot is hung into the hole the search has ended at. -/
theorem Searches.insertLeaf_eq {before : Slot → Slot → Bool} {x : Slot}
    (hsearch : Searches (fun a b ↦ before a b = true) x k) (q : Links Slot) :
    insertLeaf before q x (above k) = q.setHole (some x) k := by
  cases k with
  | nil => rfl
  | cons f k =>
    have hside := hsearch f (by simp)
    have hs : (if before x f.val then Side.left else .right) = f.side := by
      by_cases hb : before x f.val
      · rw [if_pos hb, hside.mpr hb]
      · rw [if_neg hb]
        cases hf : f.side with
        | left => exact absurd (hside.mp hf) hb
        | right => rfl
    rw [above, insertLeaf, hs, Links.setHole]

/-- **Insertion** adds the slot, in its place when the queue is sorted. -/
theorem ReadyQueue.Holds.insert {before : Slot → Slot → Bool} (hlt : StrictBefore before)
    {rq : ReadyQueue} {l : List Slot} (h : rq.Holds l) {x : Slot} (hx : rq.onRq x = false) :
    ∃ rq' l', readyQueueInsert before rq x = .ok rq' ∧ rq'.Holds l' ∧ l'.Perm (x :: l) ∧
      rq'.onRq = Function.update rq.onRq x true ∧
      ((l.Pairwise fun a b ↦ before a b = true) → l'.Pairwise fun a b ↦ before a b = true) := by
  obtain ⟨t, m, hrep, hbal, rfl⟩ := h.queued
  have hxt : x ∉ t.toList := fun hmem ↦ by simp [(h.onRq x).mpr hmem] at hx
  obtain ⟨q, hqdef⟩ : ∃ q, (rq.links.setChild .left x none).setChild .right x none = q := ⟨_, rfl⟩
  have hq : Rep q t [] := by
    subst hqdef
    refine hrep.congr rfl fun a ha ↦ ?_
    have hax : a ≠ x := fun heq ↦ hxt (by simpa [pathNodes, heq] using ha)
    exact ⟨rfl, fun s ↦ by simp [hax], rfl⟩
  have hlen : t.toList.length ≤ loopBound := by
    have := hrep.length_le
    simp only [loopBound]
    omega
  obtain ⟨k, hdescend, rfl, hsearch⟩ := hq.insertDescend_spec before x hlen
  have hperm : (RbTree.plug RbTree.nil k).toList.Perm (pathNodes k) := toList_plug_perm .nil k
  have hxk : x ∉ pathNodes k := fun hmem ↦ hxt (hperm.mem_iff.mpr hmem)
  have hnil : Rep q .nil k := by simpa using rep_plug.mp hq
  have hleaf := hnil.attach hxk fun s ↦ by cases s <;> simp [← hqdef]
  obtain ⟨c, n, hleafbal, hfits⟩ := hbal.split
  cases hleafbal
  obtain ⟨q₁, t₁, hfix, hrep₁, hlist, m₁, hbal₁⟩ := hleaf.insertFixup_spec loopBound
    (.red .nil .nil) rfl hfits (by
      have := hnil.length_le
      have := length_le_pathNodes k
      simp only [loopBound]
      omega)
  have hperm₁ : t₁.toList.Perm (x :: (RbTree.plug RbTree.nil k).toList) := by
    rw [hlist]
    refine (toList_plug_perm _ k).trans ?_
    simpa [RbTree.toList] using hperm.symm.cons x
  obtain ⟨root, hroot⟩ : ∃ a, t₁.top? = some a := by
    cases t₁ with
    | nil => exact absurd hperm₁.length_eq (by simp [RbTree.toList])
    | node c l a r => exact ⟨a, rfl⟩
  have hqroot : q₁.root = some root := hrep₁.hole.trans hroot
  have hblack := hrep₁.blacken
  rw [hroot] at hblack
  refine ⟨{ links := q₁.setColor root .black, onRq := Function.update rq.onRq x true,
            leftmost := t₁.toList.head? }, t₁.toList, ?_,
              ⟨⟨_, m₁, hblack, hbal₁, by simp⟩, ?_, rfl⟩,
    hperm₁, rfl, fun hsorted ↦ ?_⟩
  · have hstart : q.root = (RbTree.plug RbTree.nil k).top? := hq.hole
    have hleftmost := hblack.recomputeLeftmost_eq
    rw [List.append_nil, ← hstart] at hdescend
    simp only [readyQueueInsert, hx, Bool.false_eq_true, if_false, hqdef]
    rw [show insertDescend before q x loopBound q.root none = .ok (above k) from hdescend]
    rw [ok_bind, hsearch.insertLeaf_eq, hfix, ok_bind, hqroot, slotOf, ok_bind]
    rw [TensorOS.blacken, RbTree.toList_blacken] at hleftmost
    rw [hleftmost]
    rfl
  · intro i
    change Function.update rq.onRq x true i = true ↔ _
    rw [hperm₁.mem_iff, List.mem_cons, ← h.onRq i, Function.update_apply]
    by_cases hi : i = x
    · simp [hi]
    · simp [hi]
  · have : IsTrans Slot fun a b ↦ before a b = true := ⟨hlt.trans⟩
    rw [hlist]
    refine hsearch.pairwise hsorted (fun b hb ↦ hlt.total x b ?_) _
    rintro rfl
    exact hxk hb

/-! ## Removing -/

theorem Rep.transplant_eq {t : RbTree Slot} {old : Slot} (h : Rep q t k) (hold : t.top? = some old)
    (new : Option Slot) :
    readyQueueTransplant q old new = (q.setHole new k).adopt new (above k) := by
  rw [readyQueueTransplant, h.parent_top hold, h.replaceChild_eq hold]
  intro s a ha
  rfl

/-- `scheduler_ready_queue_transplant` puts a part of the focus in the place of the focus. -/
theorem Rep.transplant {t u : RbTree Slot} {old : Slot} {p : Option Slot} (h : Rep q t k)
    (hold : t.top? = some old) (hu : q.Below p u) (hnodup : (u.toList ++ pathNodes k).Nodup) :
    Rep (readyQueueTransplant q old u.top?) u k := by
  obtain ⟨hun, -, hdisj⟩ := List.nodup_append.mp hnodup
  have htop : ∀ a ∈ pathNodes k, u.top? ≠ some a := fun a ha heq ↦
    hdisj a (RbTree.top?_mem heq) a ha rfl
  have habove : ∀ a ∈ u.toList, above k ≠ some a := fun a ha heq ↦
    hdisj a ha a (above_mem heq) rfl
  rw [h.transplant_eq hold]
  refine h.update (by simp) (hu.reparent hun (fun a ha ↦ ?_) fun a ha hat ↦ ?_) (fun hk ↦ ?_)
    (fun a ha hak ↦ ?_) (fun f k' hf ↦ ?_) hnodup
  · have hak := habove a (RbTree.top?_mem ha)
    exact ⟨by simp [ha], fun s ↦ by simp [Links.setHole_child _ _ hak], by simp⟩
  · exact ⟨by simp [hat], fun s ↦ by simp [Links.setHole_child _ _ (habove a ha)], by simp⟩
  · cases k with
    | nil => exact absurd rfl hk
    | cons f k => simp [Links.setHole]
  · exact ⟨by simp [htop a ha], fun s ↦ by simp [Links.setHole_child _ _ hak], by simp⟩
  · have hfk : u.top? ≠ some f.val := htop f.val (by rw [hf]; simp [pathNodes])
    subst hf
    exact ⟨by simp [hfk], by simp, by simp [Links.setHole]⟩

/-- The slot `y`, with its right subtree in place, is about to take the place of `x`. -/
structure Grafts (q : Links Slot) (k : List (Frame Slot)) (c : Color) (l r : RbTree Slot)
    (x y : Slot) : Prop where
  hole : q.hole k = some x
  parent : q.parent x = above k
  color : q.color x = c
  left : q.child .left x = l.top?
  right : q.child .right y = r.top?
  belowLeft : q.Below (some x) l
  belowRight : q.Below (some y) r
  around : q.Around k
  nodup : (x :: y :: (l.toList ++ (r.toList ++ pathNodes k))).Nodup

/-- The second half of taking out a slot with two children: the next slot takes its place, its left
subtree and its colour. -/
theorem Grafts.rep {c : Color} {l r : RbTree Slot} {x y a : Slot} (h : Grafts q k c l r x y)
    (hl : l.top? = some a) {q' : Links Slot} (hq' : readyQueueTransplant q x (some y) = q') :
    q'.child .left x = some a ∧
      Rep (((q'.setChild .left y (some a)).setParent a (some y)).setColor y (q'.color x))
        (.node c l y r) k := by
  have hnd := h.nodup
  simp only [List.nodup_cons, List.nodup_append, List.mem_cons, List.mem_append, not_or] at hnd
  obtain ⟨⟨hxy, hxl, hxr, hxk⟩, ⟨hyl, hyr, hyk⟩, hln, ⟨hrn, hkn, hrk⟩, hlrk⟩ := hnd
  have hal : a ∈ l.toList := RbTree.top?_mem hl
  have hay : a ≠ y := fun heq ↦ hyl (heq ▸ hal)
  have hak : a ∉ pathNodes k := fun hk ↦ hlrk a hal a (Or.inr hk) rfl
  have hxa : x ≠ a := fun heq ↦ hxl (heq ▸ hal)
  have habove : ∀ b, b ∉ pathNodes k → above k ≠ some b := fun b hb heq ↦ hb (above_mem heq)
  have heq : q' = (q.setHole (some y) k).setParent y (above k) := by
    rw [← hq', readyQueueTransplant, h.parent,
      replaceChild_eq h.hole h.around hxk .left (fun _ _ _ ↦ rfl) (some y)]
    rfl
  subst heq
  have hleft : (q.setHole (some y) k).child .left x = some a := by
    rw [Links.setHole_child _ _ (habove x hxk), h.left, hl]
  refine ⟨hleft, ?_⟩
  -- the entries of all other slots are kept
  have hout : ∀ b, b ≠ y → b ≠ a → above k ≠ some b → q.SameAt
      (((((q.setHole (some y) k).setParent y (above k)).setChild .left y (some a)).setParent a
        (some y)).setColor y (((q.setHole (some y) k).setParent y (above k)).color x)) b :=
    fun b hby hba hbk ↦
      ⟨by simp [hby, hba], fun s ↦ by simp [hby, Links.setHole_child _ _ hbk], by simp [hby]⟩
  refine ⟨?_, ⟨?_, ?_, ?_, ?_, ?_, ?_⟩, h.around.congr hkn (fun hk ↦ ?_) (fun b hb hbk ↦ ?_)
    (fun f k' hf ↦ ?_), ?_⟩
  · cases k with
    | nil => simp [Links.hole, Links.setHole, RbTree.top?]
    | cons f k =>
      have hfy : f.val ≠ y := fun heq ↦ hyk (by simp [pathNodes, heq])
      simp [Links.hole, Links.setHole, RbTree.top?, hfy]
  · simp [hl]
  · simp [Links.setHole_child _ _ (habove y hyk), h.right]
  · simp [Ne.symm hay]
  · simp [h.color]
  · refine h.belowLeft.reparent hln (fun b hb ↦ ?_) fun b hb hbt ↦ ?_
    · obtain rfl : a = b := Option.some.inj (hl.symm.trans hb)
      exact ⟨by simp, fun s ↦ by simp [hay, Links.setHole_child _ _ (habove a hak)], by simp [hay]⟩
    · exact hout b (fun e ↦ hyl (e ▸ hb)) (fun e ↦ hbt (e ▸ hl))
        (habove b fun hk ↦ hlrk b hb b (Or.inr hk) rfl)
  · exact h.belowRight.congr fun b hb ↦ hout b (fun e ↦ hyr (e ▸ hb))
      (fun e ↦ hlrk a hal b (Or.inl hb) e.symm) (habove b fun hk ↦ hrk b hb b hk rfl)
  · cases k with
    | nil => exact absurd rfl hk
    | cons f k => simp [Links.setHole]
  · exact hout b (fun e ↦ hyk (e ▸ hb)) (fun e ↦ hak (e ▸ hb)) hbk
  · have hmem : f.val ∈ pathNodes k := by rw [hf]; simp [pathNodes]
    have hfy : f.val ≠ y := fun e ↦ hyk (e ▸ hmem)
    have hfa : f.val ≠ a := fun e ↦ hak (e ▸ hmem)
    subst hf
    exact ⟨by simp [hfy, hfa], by simp [hfy], by simp [hfy, Links.setHole]⟩
  · have hperm : ((RbTree.node c l y r).toList ++ pathNodes k).Perm
        (y :: (l.toList ++ (r.toList ++ pathNodes k))) := by
      simp [RbTree.toList]
    exact hperm.nodup_iff.mpr (List.nodup_cons.mp h.nodup).2

theorem Links.adopt_eq_self {v p : Option Slot} (h : ∀ a, v = some a → q.parent a = p) :
    q.adopt v p = q := by
  cases v with
  | none => rfl
  | some a =>
    have hparent : (fun b ↦ if b = a then p else q.parent b) = q.parent := by
      funext b
      by_cases hb : b = a
      · rw [if_pos hb, hb, h a rfl]
      · rw [if_neg hb]
    rw [Links.adopt, Links.setParent, hparent]

theorem Links.Below.parent_top {p : Option Slot} {t : RbTree Slot} {a : Slot} (h : q.Below p t)
    (ha : t.top? = some a) : q.parent a = p := by
  cases t with
  | nil => cases ha
  | node c l b r =>
    obtain rfl := Option.some.inj ha
    exact h.2.2.1

/-- The next slot is cut out of its place, unless it is right below. -/
theorem Rep.removeNext_spec {c d : Color} {l u : RbTree Slot} {x y : Slot}
    {path : List (Frame Slot)} (h : Rep q (.node c l x ((RbTree.node d .nil y u).plug path)) k) :
    ∃ q', removeNext q x y = .ok (q', above (path ++ ⟨.right, c, y, l⟩ :: k)) ∧
      Grafts q' k c l (u.plug path) x y := by
  have hright : Rep q ((RbTree.node d .nil y u).plug path) (⟨.right, c, x, l⟩ :: k) := rep_fill.mp h
  have hy : Rep q (.node d .nil y u) (path ++ ⟨.right, c, x, l⟩ :: k) := rep_plug.mp hright
  obtain ⟨-, hyu, hyp, hyc, -, hu⟩ := hy.below
  obtain ⟨hxl, -, hxp, hxc, hxbl, -⟩ := h.below
  have hperm : ((RbTree.node c l x ((RbTree.node d .nil y u).plug path)).toList ++ pathNodes k).Perm
      (x :: y :: (l.toList ++ ((u.plug path).toList ++ pathNodes k))) := by
    have hcut : ((RbTree.node d .nil y u).plug path).toList.Perm (y :: (u.plug path).toList) := by
      refine (toList_plug_perm (RbTree.node d .nil y u) path).trans ?_
      simpa [RbTree.toList] using (toList_plug_perm u path).symm.cons y
    have hrest := (List.Perm.append_left l.toList (hcut.append_right (pathNodes k))).trans
      List.perm_middle
    refine List.Perm.trans ?_ (hrest.cons x)
    simp [RbTree.toList]
  have hnd := hperm.nodup_iff.mp h.nodup
  cases path with
  | nil =>
    have hyp : q.parent y = some x := hyp
    refine ⟨q, ?_, h.hole, hxp, hxc, hxl, hyu, hxbl, hu, h.around, hnd⟩
    rw [removeNext, if_pos hyp, Links.adopt_eq_self fun a ha ↦ hu.parent_top (hyu.symm.trans ha)]
    rfl
  | cons f path =>
    have hyp : q.parent y = some f.val := hyp
    have hnd' := hnd
    simp only [List.nodup_cons, List.nodup_append, List.mem_cons, List.mem_append, not_or] at hnd'
    obtain ⟨⟨hxy, hxl', hxu, hxk⟩, ⟨hyl, hyu', hyk⟩, -, ⟨hun, -, huk⟩, hluk⟩ := hnd'
    have hfx : some f.val ≠ some x := by
      intro heq
      refine hxu ((toList_plug_perm u (f :: path)).mem_iff.mpr ?_)
      simp [pathNodes, Option.some.inj heq]
    have hnd₁ : (u.toList ++ pathNodes (f :: path ++ ⟨.right, c, x, l⟩ :: k)).Nodup := by
      have := hy.nodup
      rw [RbTree.toList, RbTree.toList, List.nil_append, List.cons_append] at this
      exact (List.nodup_cons.mp this).2
    have h₁ : Rep (readyQueueTransplant q y u.top?) (u.plug (f :: path)) (⟨.right, c, x, l⟩ :: k) :=
      rep_plug.mpr (hy.transplant rfl hu hnd₁)
    obtain ⟨q₁, hq₁⟩ : ∃ q₁, readyQueueTransplant q y u.top? = q₁ := ⟨_, rfl⟩
    rw [hq₁] at h₁
    obtain ⟨r, -, hr⟩ := top?_plug_cons u f path
    have hr₁ : q₁.child .right x = some r := h₁.hole.trans hr
    have hru : r ∈ (u.plug (f :: path)).toList := RbTree.top?_mem hr
    have hrx : r ≠ x := fun heq ↦ hxu (heq ▸ hru)
    have hry : r ≠ y := fun heq ↦ hyu' (heq ▸ hru)
    have h₂ : Rep q₁ (.node c l x (u.plug (f :: path))) k := rep_fill.mpr h₁
    obtain ⟨hxl₁, -, hxp₁, hxc₁, hxbl₁, hxbr₁⟩ := h₂.below
    -- of the other slots no entry changes
    have hout : ∀ a, a ≠ y → a ≠ r →
        q₁.SameAt ((q₁.setChild .right y (some r)).setParent r (some y)) a := fun a hay har ↦
      ⟨by simp [har], fun s ↦ by simp [hay], rfl⟩
    have hpath : ∀ a ∈ pathNodes k,
        q₁.SameAt ((q₁.setChild .right y (some r)).setParent r (some y)) a := fun a ha ↦
      hout a (fun e ↦ hyk (e ▸ ha)) (fun e ↦ huk r hru a ha e.symm)
    refine ⟨(q₁.setChild .right y (some r)).setParent r (some y), ?_, ?_, ?_, hxc₁, ?_, ?_, ?_, ?_,
      ?_, hnd⟩
    · rw [removeNext, if_neg (hyp ▸ hfx), hyu, hq₁]
      simp [hr₁, slotOf, hyp, above]
    · have hhole : q₁.hole k = some x := h₂.hole
      cases k with
      | nil => exact hhole
      | cons g k => exact ((hpath g.val (by simp [pathNodes])).child _).trans hhole
    · simp [Ne.symm hrx, hxp₁]
    · simp [hxl₁]
    · simp [hr]
    · refine hxbl₁.congr fun a ha ↦ hout a (fun e ↦ hyl (e ▸ ha))
        (fun e ↦ hluk a ha r (Or.inl hru) e)
    · refine hxbr₁.reparent hun (fun a ha ↦ ?_) fun a ha har ↦ hout a (fun e ↦ hyu' (e ▸ ha))
        (fun e ↦ har (e ▸ hr))
      obtain rfl : r = a := Option.some.inj (hr.symm.trans ha)
      exact ⟨by simp, fun s ↦ by simp [hry], rfl⟩
    · exact h₂.around.congr (List.nodup_append.mp h₂.nodup).2.1 (fun _ ↦ rfl)
        (fun a ha _ ↦ hpath a ha) fun g k' hg ↦
          have hg' := hpath g.val (by rw [hg]; simp [pathNodes])
          ⟨hg'.parent, hg'.color, hg'.child _⟩

/-- A slot with two children is taken out: the next slot comes in its place, and what that slot had
on its right comes in place of that slot. -/
theorem Rep.removeInner_spec {c : Color} {l r : RbTree Slot} {x a b : Slot}
    (h : Rep q (.node c l x r) k) (hl : l.top? = some a) (hr : r.top? = some b) :
    ∃ q' d y u path, r = (RbTree.node d .nil y u).plug path ∧ (∀ f ∈ path, f.side = .left) ∧
      removeInner q x = .ok ⟨q', d, u.top?, above (path ++ ⟨.right, c, y, l⟩ :: k)⟩ ∧
      Rep q' u (path ++ ⟨.right, c, y, l⟩ :: k) := by
  have hright : Rep q r (⟨.right, c, x, l⟩ :: k) := rep_fill.mp h
  have hlen := hright.length_le
  obtain ⟨d, y, u, path, hmin, rfl, hside⟩ : ∃ d y u path, leftmostFrom q loopBound b = .ok y ∧
      r = (RbTree.node d .nil y u).plug path ∧ ∀ f ∈ path, f.side = .left := by
    cases r with
    | nil => cases hr
    | node d l' b' r' =>
      obtain rfl := Option.some.inj hr
      refine hright.leftmostFrom_spec loopBound ?_
      simp only [RbTree.toList, List.length_append, List.length_cons, loopBound] at hlen ⊢
      omega
  have hy : Rep q (.node d .nil y u) (path ++ ⟨.right, c, x, l⟩ :: k) := rep_plug.mp hright
  obtain ⟨-, hyu, -, hyc, -, -⟩ := hy.below
  have hxr : q.child .right x = some b := h.below.2.1.trans hr
  obtain ⟨q₁, hnext, hgraft⟩ := h.removeNext_spec
  obtain ⟨hleft, hrep⟩ := hgraft.rep hl rfl
  refine ⟨_, d, y, u, path, rfl, hside, ?_, rep_plug.mp (rep_fill.mp hrep)⟩
  rw [removeInner, hxr, readyQueueMinimum, hmin]
  simp [slotOf, hyc, hyu, hnext, hleft]

/-- Once a slot without a second child is out of its place, the tree is repaired. -/
theorem Rep.repair {s : Side} {c d : Color} {u : RbTree Slot} {y : Slot} {n : ℕ} (h : Rep q u k)
    (hb : Balanced (.join s d .nil y u) c n) (hk : Fits k c n) :
    Repairs (if d = .black then removeFixup loopBound q u.top? (above k) else .ok q)
      (u.plug k).toList := by
  have hlen := h.length_le
  have hpath := length_le_pathNodes k
  cases d with
  | red =>
    obtain ⟨rfl, hu⟩ := hb.splice_red
    obtain ⟨m, hm⟩ := hk.of_red.plug hu
    exact ⟨q, rfl, u.plug k, m, rep_plug.mpr (by simpa using h), hm, rfl⟩
  | black =>
    obtain ⟨rfl, rfl, hu⟩ := hb.splice_black
    exact h.removeFixup_spec loopBound hu hk (by simp only [loopBound]; omega)

/-- The entries of a slot outside the tree may be cleared. -/
theorem Rep.clearSlot {t : RbTree Slot} {x : Slot} (h : Rep q t k)
    (hx : x ∉ t.toList ++ pathNodes k) : Rep (clearSlot q x) t k := by
  refine h.congr rfl fun a ha ↦ ?_
  have hax : a ≠ x := fun heq ↦ hx (heq ▸ ha)
  exact ⟨by simp [TensorOS.clearSlot, hax], fun s ↦ by simp [TensorOS.clearSlot, hax],
    by simp [TensorOS.clearSlot, hax]⟩

/-- What taking a slot out of the tree leaves is repaired to the rest of the list. -/
def Unlinks (q : Links Slot) (x : Slot) (lower upper : List Slot) : Prop :=
  ∃ sp, removeSplice q x = .ok sp ∧
    Repairs (if sp.removedColor = .black then
        removeFixup loopBound (clearSlot sp.links x) sp.replacement sp.replacementParent
      else .ok (clearSlot sp.links x)) (lower ++ upper)

theorem Rep.removes_outer {s : Side} {c c' : Color} {u : RbTree Slot} {x : Slot} {n : ℕ}
    (h : Rep q (.join s c .nil x u) k) (hb : Balanced (.join s c .nil x u) c' n) (hk : Fits k c' n)
    (hsplice : removeSplice q x
      = .ok ⟨readyQueueTransplant q x u.top?, q.color x, u.top?, q.parent x⟩) :
    Unlinks q x (pathLower k) (u.toList ++ pathUpper k) := by
  obtain ⟨-, -, hxp, hxc, -, hu⟩ := Links.below_join.mp h.below
  have hperm : ((RbTree.join s c .nil x u).toList ++ pathNodes k).Perm
      (x :: (u.toList ++ pathNodes k)) :=
    (RbTree.toList_join_perm s c .nil x u).append_right (pathNodes k)
  obtain ⟨hx, hnd⟩ := List.nodup_cons.mp (hperm.nodup_iff.mp h.nodup)
  have hrep := (h.transplant (RbTree.top?_join ..) hu hnd).clearSlot hx
  refine ⟨_, hsplice, ?_⟩
  rw [hxp, hxc, ← toList_plug]
  exact hrep.repair hb hk

theorem Rep.removes_inner {c c' : Color} {l r : RbTree Slot} {x a b : Slot} {n : ℕ}
    (h : Rep q (.node c l x r) k) (hb : Balanced (.node c l x r) c' n) (hk : Fits k c' n)
    (hl : l.top? = some a) (hr : r.top? = some b) :
    Unlinks q x (pathLower k ++ l.toList) (r.toList ++ pathUpper k) := by
  obtain ⟨q', d, y, u, path, rfl, hside, hrun, hrep⟩ := h.removeInner_spec hl hr
  have hleft : q.child .left x ≠ none := by simp [h.below.1, hl]
  have hright : q.child .right x ≠ none := by simp [h.below.2.1, hr]
  obtain ⟨m, hm⟩ := hk.plug hb
  have hall : (RbTree.node c l x ((RbTree.node d .nil y u).plug path)).plug k
      = (RbTree.node d .nil y u).plug (path ++ ⟨.right, c, x, l⟩ :: k) := by
    rw [RbTree.plug_append]
    rfl
  rw [hall] at hm
  obtain ⟨c'', n', hy, hfits⟩ := hm.split
  have hxnd : x ∉ l.toList ++ (((RbTree.node d .nil y u).plug path).toList ++ pathNodes k) := by
    have hperm : ((RbTree.node c l x ((RbTree.node d .nil y u).plug path)).toList
        ++ pathNodes k).Perm
        (x :: (l.toList ++ (((RbTree.node d .nil y u).plug path).toList ++ pathNodes k))) := by
      simp [RbTree.toList]
    exact (List.nodup_cons.mp (hperm.nodup_iff.mp h.nodup)).1
  have hx : x ∉ u.toList ++ pathNodes (path ++ ⟨.right, c, y, l⟩ :: k) := by
    have hmem := (toList_plug_perm (RbTree.node d .nil y u) path).mem_iff (a := x)
    simp only [List.mem_append, not_or, hmem, RbTree.toList, List.nil_append, List.mem_cons] at hxnd
    simp only [pathNodes_append, pathNodes, List.mem_append, List.mem_cons, not_or]
    tauto
  refine ⟨⟨q', d, u.top?, above (path ++ ⟨.right, c, y, l⟩ :: k)⟩, ?_, ?_⟩
  · rw [removeSplice, if_neg hleft, if_neg hright, hrun]
  · have hfix := (hrep.clearSlot hx).repair (s := .left) hy (hfits.rename y)
    have hlower := pathLower_eq_nil hside
    have hlist : (u.plug (path ++ ⟨.right, c, y, l⟩ :: k)).toList = pathLower k ++ l.toList
        ++ (((RbTree.node d .nil y u).plug path).toList ++ pathUpper k) := by
      rw [RbTree.plug_append, RbTree.plug, toList_plug, toList_plug (RbTree.node d .nil y u),
        hlower]
      simp [Frame.fill, RbTree.join, RbTree.toList, toList_plug, hlower]
    rwa [hlist] at hfix

/-- **Taking a slot out** of a balanced tree. -/
theorem Rep.removes {t : RbTree Slot} {x : Slot} {m : ℕ} (h : Rep q t []) (hb : Balanced t .black m)
    (hx : x ∈ t.toList) :
    ∃ lower upper, t.toList = lower ++ x :: upper ∧ Unlinks q x lower upper := by
  obtain ⟨c, l, r, k, rfl⟩ := RbTree.exists_plug hx
  obtain ⟨c', n, hbal, hfits⟩ := hb.split
  have hfocus : Rep q (.node c l x r) k := by simpa using rep_plug.mp h
  obtain ⟨hxl, hxr, -, -, -, -⟩ := hfocus.below
  refine ⟨pathLower k ++ l.toList, r.toList ++ pathUpper k, ?_, ?_⟩
  · rw [toList_plug]
    simp [RbTree.toList]
  · cases l with
    | nil =>
      have hnone : q.child .left x = none := hxl
      have hrem := Rep.removes_outer (s := .left) hfocus hbal hfits (by
        rw [removeSplice, if_pos hnone, hxr])
      simpa [RbTree.toList] using hrem
    | node cl ll a lr =>
      have hleft : q.child .left x ≠ none := by simp [hxl, RbTree.top?]
      cases r with
      | nil =>
        have hnone : q.child .right x = none := hxr
        have hrem := Rep.removes_outer (s := .right) hfocus hbal hfits (by
          rw [removeSplice, if_neg hleft, if_pos hnone, hxl])
        unfold Unlinks at hrem ⊢
        simpa [RbTree.toList] using hrem
      | node cr rl b rr => exact hfocus.removes_inner hbal hfits rfl rfl

/-- **Removal** takes the slot out and keeps the rest. -/
theorem ReadyQueue.Holds.remove {rq : ReadyQueue} {l : List Slot} (h : rq.Holds l) {x : Slot}
    (hx : rq.onRq x = true) :
    ∃ rq', readyQueueRemove rq x = .ok rq' ∧ rq'.Holds (l.erase x) ∧
      rq'.onRq = Function.update rq.onRq x false := by
  obtain ⟨t, m, hrep, hbal, rfl⟩ := h.queued
  have hmem := (h.onRq x).mp hx
  obtain ⟨lower, upper, hlist, sp, hsplice, q', hfix, hqueued⟩ := hrep.removes hbal hmem
  have hnd := h.nodup
  have herase : t.toList.erase x = lower ++ upper := by
    rw [hlist] at hnd ⊢
    rw [List.erase_append_right _ fun hlow ↦ ?_, List.erase_cons_head]
    exact (List.nodup_append.mp hnd).2.2 x hlow x (by simp) rfl
  rw [herase]
  obtain ⟨t', m', hrep', hbal', hlist'⟩ := hqueued
  refine ⟨{ links := q', onRq := Function.update rq.onRq x false,
            leftmost := (lower ++ upper).head? }, ?_, ⟨⟨t', m', hrep', hbal', hlist'⟩, ?_, rfl⟩,
              rfl⟩
  · have hleftmost := hrep'.recomputeLeftmost_eq
    rw [hlist'] at hleftmost
    by_cases hblack : sp.removedColor = .black
    · rw [if_pos hblack] at hfix
      simp [readyQueueRemove, hx, hsplice, hblack, hfix, hleftmost]
    · rw [if_neg hblack] at hfix
      simp [readyQueueRemove, hx, hsplice, hblack, Except.ok.inj hfix, hleftmost]
  · intro i
    change Function.update rq.onRq x false i = true ↔ _
    rw [← herase, hnd.mem_erase_iff, ← h.onRq i, Function.update_apply]
    by_cases hi : i = x
    · simp [hi]
    · simp [hi]

end TensorOS
