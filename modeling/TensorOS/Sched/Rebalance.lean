import TensorOS.Sched.ReadyQueue

/-!
# Rotations and rebalancing

What `scheduler.c` does to the links around a slot, read as a change of the tree under the focus: a
rotation exchanges two nodes and keeps the order, the loop after an insertion carries a red node up,
and the loop after a removal carries up a missing black one. Each loop returns within its bound and
leaves a balanced tree in the same order (`Rep.insertFixup_spec`, `Rep.removeFixup_spec`).
-/

namespace TensorOS

variable {q : Links Slot} {k : List (Frame Slot)}

/-- The entry that leads to the hole is found by comparing children, since no slot occurs twice. -/
theorem replaceChild_eq {old : Slot} (hhole : q.hole k = some old) (haround : q.Around k)
    (hold : old ∉ pathNodes k) (s : Side) {q' : Links Slot}
    (hchild : ∀ s a, above k = some a → q'.child s a = q.child s a) (new : Option Slot) :
    replaceChild s q' (above k) old new = q'.setHole new k := by
  cases k with
  | nil => rfl
  | cons f k =>
    have hhole : q.child f.side f.val = some old := hhole
    have hother : q.child f.side.other f.val ≠ some old := by
      rw [haround.1]
      intro heq
      exact hold (by simp [pathNodes, RbTree.top?_mem heq])
    change (if q'.child s f.val = some old then _ else _) = q'.setChild f.side f.val new
    rw [hchild s f.val rfl]
    by_cases hs : f.side = s
    · rw [← hs, if_pos hhole]
    · have hs' := Side.eq_other_of_ne hs
      rw [if_neg, hs']
      rw [hs', Side.other_other] at hother
      exact hother

theorem Rep.replaceChild_eq {t : RbTree Slot} (h : Rep q t k) {old : Slot}
    (hold : t.top? = some old) (s : Side) {q' : Links Slot}
    (hchild : ∀ s a, above k = some a → q'.child s a = q.child s a) (new : Option Slot) :
    replaceChild s q' (above k) old new = q'.setHole new k :=
  TensorOS.replaceChild_eq (h.hole.trans hold) h.around (h.not_mem_path (RbTree.top?_mem hold)) s
    hchild new

/-- The entries a rotation changes. -/
structure Rotated (s : Side) (q q' : Links Slot) (k : List (Frame Slot)) (x y : Slot)
    (u : RbTree Slot) : Prop where
  color : q'.color = q.color
  root : k ≠ [] → q'.root = q.root
  hole : q'.hole k = some y
  parent : ∀ b, q'.parent b = if b = x then some y else if b = y then above k
    else if u.top? = some b then some x else q.parent b
  child : ∀ s' b, above k ≠ some b → q'.child s' b = if s' = s ∧ b = y then some x
    else if s' = s.other ∧ b = x then u.top? else q.child s' b
  other : ∀ f k', k = f :: k' → q'.child f.side.other f.val = q.child f.side.other f.val

theorem Rep.rotated {s : Side} {c d : Color} {t u v : RbTree Slot} {x y : Slot}
    (h : Rep q (.join s c t x (.join s d u y v)) k) :
    ∃ q', readyQueueRotate s q x = .ok q' ∧ Rotated s q q' k x y u := by
  obtain ⟨-, hxy, hxp, -, -, hy⟩ := Links.below_join.mp h.below
  obtain ⟨hyu, -, -, -, -, -⟩ := Links.below_join.mp hy
  rw [RbTree.top?_join] at hxy
  have hx : ∀ a, above k = some a → a ≠ x := by
    rintro a ha rfl
    exact h.not_mem_path (RbTree.mem_toList_join.mpr (Or.inl rfl)) (above_mem ha)
  have hyk : ∀ a, above k = some a → a ≠ y := by
    rintro a ha rfl
    refine h.not_mem_path (RbTree.mem_toList_join.mpr (Or.inr (Or.inr ?_))) (above_mem ha)
    exact RbTree.mem_toList_join.mpr (Or.inl rfl)
  have hrun : readyQueueRotate s q x = .ok ((((((q.setChild s.other x u.top?).adopt u.top? (some x)
      ).setParent y (above k)).setHole (some y) k).setChild s y (some x)).setParent x
      (some y)) := by
    rw [readyQueueRotate, hxy]
    simp only [slotOf, ok_bind, hyu, hxp]
    rw [h.replaceChild_eq (by simp) s]
    intro s' a ha
    simp [hx a ha]
  refine ⟨_, hrun, by simp, fun hk ↦ ?_, ?_, fun b ↦ by simp, fun s' b hb ↦ ?_, ?_⟩
  · cases k with
    | nil => exact absurd rfl hk
    | cons f k => simp [Links.setHole]
  · cases k with
    | nil => simp [Links.setHole, Links.hole]
    | cons f k => simp [Links.setHole, Links.hole, hyk f.val rfl]
  · simp [Links.setHole_child _ _ hb]
  · rintro f k' rfl
    simp [Links.setHole, hyk f.val rfl, hx f.val rfl]

/-- **A rotation** of the links is the rotation of the tree. -/
theorem Rep.rotate {s : Side} {c d : Color} {t u v : RbTree Slot} {x y : Slot}
    (h : Rep q (.join s c t x (.join s d u y v)) k) :
    ∃ q', readyQueueRotate s q x = .ok q' ∧ Rep q' (.join s d (.join s c t x u) y v) k := by
  obtain ⟨q', hrun, hrot⟩ := h.rotated
  obtain ⟨hxt, hxy, hxp, hxc, ht, hy⟩ := Links.below_join.mp h.below
  obtain ⟨hyu, hyv, hyp, hyc, hu, hv⟩ := Links.below_join.mp hy
  have hperm : ((RbTree.join s c t x (.join s d u y v)).toList ++ pathNodes k).Perm
      (x :: y :: (t.toList ++ (u.toList ++ (v.toList ++ pathNodes k)))) := by
    have h₁ := (RbTree.toList_join_perm s d u y v).append_left t.toList
    have h₂ := (RbTree.toList_join_perm s c t x (.join s d u y v)).trans
      (List.Perm.cons x (h₁.trans List.perm_middle))
    simpa using h₂.append_right (pathNodes k)
  have hnd := hperm.nodup_iff.mp h.nodup
  simp only [List.nodup_cons, List.nodup_append, List.mem_cons, List.mem_append, not_or] at hnd
  obtain ⟨⟨hne, hxt', hxu, hxv, hxk⟩, ⟨hyt, hyu', hyv', hyk⟩, -, ⟨hun, ⟨-, -, hvk⟩, huk⟩, htk⟩ :=
    hnd
  have habove : ∀ a, a ∉ pathNodes k → above k ≠ some a := fun a ha heq ↦ ha (above_mem heq)
  have htop : ∀ a, a ∉ u.toList → u.top? ≠ some a := fun a ha heq ↦ ha (RbTree.top?_mem heq)
  -- the entries of all other slots are kept
  have hout : ∀ a, a ≠ x → a ≠ y → u.top? ≠ some a → above k ≠ some a → q.SameAt q' a := by
    intro a hax hay hau hak
    refine ⟨?_, fun s' ↦ ?_, congrFun hrot.color a⟩
    · rw [hrot.parent, if_neg hax, if_neg hay, if_neg hau]
    · rw [hrot.child s' a hak, if_neg (by tauto), if_neg (by tauto)]
  refine ⟨q', hrun, h.update (hrot.hole.trans (by simp)) ?_ hrot.root (fun a ha hak ↦ ?_)
    (fun f k' hf ↦ ⟨?_, congrFun hrot.color _, hrot.other f k' hf⟩) ?_⟩
  · refine Links.below_join.mpr ⟨?_, ?_, ?_, ?_, Links.below_join.mpr ⟨?_, ?_, ?_, ?_, ?_, ?_⟩, ?_⟩
    · rw [hrot.child s y (habove y hyk), if_pos ⟨rfl, rfl⟩, RbTree.top?_join]
    · rw [hrot.child _ y (habove y hyk), if_neg (by simp), if_neg (by tauto), hyv]
    · rw [hrot.parent, if_neg (Ne.symm hne), if_pos rfl]
    · rw [hrot.color, hyc]
    · rw [hrot.child s x (habove x hxk), if_neg (by tauto), if_neg (by simp), hxt]
    · rw [hrot.child _ x (habove x hxk), if_neg (by tauto), if_pos ⟨rfl, rfl⟩]
    · rw [hrot.parent, if_pos rfl]
    · rw [hrot.color, hxc]
    · exact ht.congr fun a ha ↦ hout a (fun e ↦ hxt' (e ▸ ha)) (fun e ↦ hyt (e ▸ ha))
        (fun e ↦ htk a ha a (Or.inl (RbTree.top?_mem e)) rfl)
        (fun e ↦ htk a ha a (Or.inr (Or.inr (above_mem e))) rfl)
    · refine hu.reparent hun (fun a ha ↦ ?_) fun a ha hau ↦ hout a (fun e ↦ hxu (e ▸ ha))
        (fun e ↦ hyu' (e ▸ ha)) hau (fun e ↦ huk a ha a (Or.inr (above_mem e)) rfl)
      have hmem := RbTree.top?_mem ha
      have hax : a ≠ x := fun e ↦ hxu (e ▸ hmem)
      have hay : a ≠ y := fun e ↦ hyu' (e ▸ hmem)
      refine ⟨?_, fun s' ↦ ?_, congrFun hrot.color a⟩
      · rw [hrot.parent, if_neg hax, if_neg hay, if_pos ha]
      · rw [hrot.child s' a (habove a fun e ↦ huk a hmem a (Or.inr e) rfl), if_neg (by tauto),
          if_neg (by tauto)]
    · exact hv.congr fun a ha ↦ hout a (fun e ↦ hxv (e ▸ ha)) (fun e ↦ hyv' (e ▸ ha))
        (fun e ↦ huk a (RbTree.top?_mem e) a (Or.inl ha) rfl)
        (fun e ↦ hvk a ha a (above_mem e) rfl)
  · exact hout a (fun e ↦ hxk (e ▸ ha)) (fun e ↦ hyk (e ▸ ha))
      (fun e ↦ huk a (RbTree.top?_mem e) a (Or.inr ha) rfl) hak
  · have hmem : f.val ∈ pathNodes k := by rw [hf]; simp [pathNodes]
    have hfx : f.val ≠ x := fun e ↦ hxk (e ▸ hmem)
    have hfy : f.val ≠ y := fun e ↦ hyk (e ▸ hmem)
    rw [hrot.parent, if_neg hfx, if_neg hfy,
      if_neg fun e ↦ huk _ (RbTree.top?_mem e) _ (Or.inr hmem) rfl]
  · rw [RbTree.toList_rotate s c d c d]
    exact h.nodup

/-! ## Colours -/

theorem Rep.isRed_eq {t : RbTree Slot} {c : Color} {n : ℕ} (h : Rep q t k) (hb : Balanced t c n) :
    isRed q t.top? = decide (c = .red) := by
  cases hb with
  | nil => rfl
  | red hl hr =>
    have hcolor := h.below.2.2.2.1
    simp [isRed, RbTree.top?, hcolor]
  | black hl hr =>
    have hcolor := h.below.2.2.2.1
    simp [isRed, RbTree.top?, hcolor]

theorem Rep.blacken {t : RbTree Slot} (h : Rep q t k) : Rep (blacken q t.top?) t.blacken k := by
  cases t with
  | nil => exact h
  | node c l a r => exact Rep.setColor (s := .left) h .black

theorem Rep.blacken_sibling {s : Side} {c : Color} {t u : RbTree Slot} {a : Slot}
    (h : Rep q t (⟨s, c, a, u⟩ :: k)) :
    Rep (TensorOS.blacken q u.top?) t (⟨s, c, a, u.blacken⟩ :: k) :=
  rep_swap.mpr (rep_swap.mp h).blacken

/-! ## After an insertion -/

/-- The side the source computes is the side the focus is on. -/
theorem Rep.side_eq {t : RbTree Slot} {f : Frame Slot} {x : Slot} (h : Rep q t (f :: k))
    (hx : t.top? = some x) :
    (if q.child .left f.val = some x then Side.left else Side.right) = f.side := by
  have hhole : q.child f.side f.val = some x := h.hole.trans hx
  have hother := h.other_ne (RbTree.top?_mem hx)
  cases hs : f.side with
  | left => rw [hs] at hhole; exact if_pos hhole
  | right => rw [hs] at hother; exact if_neg hother

theorem Rep.insertFixup_black {t : RbTree Slot} {f : Frame Slot} {x : Slot} (h : Rep q t (f :: k))
    (hx : t.top? = some x) (hf : f.color = .black) (bound : ℕ) :
    insertFixup (bound + 1) q x = .ok q := by
  have hparent : q.parent x = some f.val := h.parent_top hx
  have hcolor : q.color f.val = .black := h.around.2.2.1.trans hf
  rw [insertFixup]
  split
  · rfl
  · simp [hparent, slotOf, hcolor]

/-- The recolouring and the rotation at the grandparent. -/
theorem Rep.rotate_outer {s : Side} {c d : Color} {a b u : RbTree Slot} {p g : Slot}
    (h : Rep q (.join s c a p b) (⟨s, d, g, u⟩ :: k)) :
    ∃ q', readyQueueRotate s.other ((q.setColor p .black).setColor g .red) g = .ok q' ∧
      Rep q' a (⟨s, .black, p, .join s .red b g u⟩ :: k) := by
  have hcolored := (h.setColor .black).setColor_above .red
  have hfocus : Rep ((q.setColor p .black).setColor g .red)
      (.join s.other .red u g (.join s.other .black b p a)) k := by
    rw [RbTree.join_other, RbTree.join_other]
    exact rep_fill.mpr hcolored
  obtain ⟨q', hrun, hrep⟩ := hfocus.rotate
  refine ⟨q', hrun, rep_fill.mp ?_⟩
  rwa [RbTree.join_other, RbTree.join_other] at hrep

/-- **The rotations after an insertion**: below a black uncle they give a balanced tree of the
height the grandparent had. -/
theorem Rep.insertRotate_spec {s s₁ : Side} {t u w : RbTree Slot} {x p g : Slot} {n : ℕ}
    (h : Rep q t (⟨s₁, .red, p, w⟩ :: ⟨s, .black, g, u⟩ :: k)) (ht : Balanced t .red n)
    (hx : t.top? = some x) (hw : Balanced w .black n) (hu : Balanced u .black n) :
    ∃ q' i t' f, insertRotate s q x p g = .ok (q', i) ∧ Rep q' t' (f :: k) ∧ t'.top? = some i ∧
      f.color = .black ∧ Balanced (f.fill t') .black (n + 1) ∧
      (f.fill t').toList = (t.plug [⟨s₁, .red, p, w⟩, ⟨s, .black, g, u⟩]).toList := by
  have hhole : q.child s₁ p = some x := h.hole.trans hx
  by_cases hs : s₁ = s.other
  · -- the inner grandchild is first turned into an outer one
    subst hs
    obtain ⟨a, y, b, rfl, ha, hb⟩ := ht.exists_join_red s
    obtain rfl : y = x := by simpa using hx
    have hfocus : Rep q (.join s .red w p (.join s .red a y b)) (⟨s, .black, g, u⟩ :: k) := by
      rw [← RbTree.join_other]
      exact rep_fill.mpr h
    obtain ⟨q₁, hrun₁, h₁⟩ := hfocus.rotate
    obtain ⟨q', hrun₂, h₂⟩ := h₁.rotate_outer
    obtain ⟨-, -, hyg, -, hinner, -⟩ := Links.below_join.mp h₁.below
    obtain ⟨-, -, hpy, -, -, -⟩ := Links.below_join.mp hinner
    refine ⟨q', p, _, _, ?_, h₂, RbTree.top?_join .., rfl, ?_, ?_⟩
    · have hgp : q₁.parent y = some g := hyg
      simp only [insertRotate, if_pos hhole, hrun₁, ok_bind, hpy, slotOf, hgp, hrun₂]
    · refine balanced_join_black.mpr ⟨rfl, n, .red, .red, rfl, ?_, ?_⟩
      · exact balanced_join_red.mpr ⟨rfl, hw, ha⟩
      · exact balanced_join_red.mpr ⟨rfl, hb, hu⟩
    · cases s <;> simp [Frame.fill, RbTree.plug, RbTree.join, RbTree.toList, Side.other]
  · obtain rfl : s₁ = s := by
      have := Side.eq_other_of_ne hs
      rwa [Side.other_other] at this
    have hne : q.child s₁.other p ≠ some x := h.other_ne (RbTree.top?_mem hx)
    obtain ⟨q', hrun, hrep⟩ := (rep_fill.mpr h).rotate_outer
    refine ⟨q', x, t, _, ?_, hrep, hx, rfl, ?_, ?_⟩
    · simp only [insertRotate, if_neg hne, ok_bind, hrun]
    · exact balanced_join_black.mpr ⟨rfl, n, .red, .red, rfl, ht,
        balanced_join_red.mpr ⟨rfl, hw, hu⟩⟩
    · cases s₁ <;> simp [Frame.fill, RbTree.plug, RbTree.join, RbTree.toList]

/-- **The loop after an insertion** gives a tree in the same order that is balanced once its root is
black. -/
theorem Rep.insertFixup_spec (bound : ℕ) {t : RbTree Slot} {x : Slot} {n : ℕ} (h : Rep q t k)
    (ht : Balanced t .red n) (hx : t.top? = some x) (hk : Fits k .black n)
    (hbound : k.length + 2 ≤ 2 * bound) :
    ∃ q' t', insertFixup bound q x = .ok q' ∧ Rep q' t' [] ∧ t'.toList = (t.plug k).toList ∧
      ∃ m, Balanced t'.blacken .black m := by
  induction bound generalizing q t x n k with
  | zero => omega
  | succ bound ih =>
    cases hk with
    | top =>
      have hroot : q.root = some x := h.hole.trans hx
      refine ⟨q, t, ?_, h, rfl, _, ht.blacken_red⟩
      rw [insertFixup, if_pos hroot]
    | @black s a u k _ c' _ hu hk =>
      refine ⟨q, t.plug (_ :: k), h.insertFixup_black hx rfl bound, rep_plug.mpr (by simpa using h),
        rfl, ?_⟩
      obtain ⟨m, hm⟩ := (Fits.black hu hk : Fits (⟨s, .black, a, u⟩ :: k) .red n).plug ht
      exact hm.exists_blacken
    | @red s₁ p w k _ hw hk =>
      cases hk with
      | @black s g u k _ c _ hu hk =>
        have hfocus := rep_fill.mpr h
        have hroot := h.root_ne (RbTree.top?_mem hx)
        have hparent : q.parent x = some p := h.parent_top hx
        have hcolor : q.color p = .red := h.around.2.2.1
        have hgrand : q.parent p = some g := h.around.2.1
        have hside := hfocus.side_eq (RbTree.top?_join ..)
        have huncle : q.child s.other g = u.top? := hfocus.around.1
        have hred := (rep_swap.mp hfocus).isRed_eq hu
        cases c with
        | red =>
          -- the uncle is red: the three nodes change colour and the loop goes on at the grandparent
          have hcolored := ((rep_fill.mpr (h.setColor_above .black)).blacken_sibling).setColor_above
            .red
          obtain ⟨q', t', hrun, hrep, hlist, hbal⟩ := ih (rep_fill.mpr hcolored)
            (balanced_join_red.mpr ⟨rfl, balanced_join_black.mpr ⟨rfl, n, _, _, rfl, ht, hw⟩,
              hu.blacken_red⟩) (RbTree.top?_join ..) hk (by simp at hbound; omega)
          refine ⟨q', t', ?_, hrep, hlist.trans ?_, hbal⟩
          · rw [insertFixup, if_neg hroot, hparent]
            simp only [slotOf, ok_bind, hcolor, hgrand, hside, huncle, hred]
            exact hrun
          · exact toList_plug_congr k (RbTree.toList_join_congr g
              (RbTree.toList_join_congr p rfl rfl) (RbTree.toList_blacken u))
        | black =>
          obtain ⟨bound, rfl⟩ : ∃ b, bound = b + 1 := ⟨bound - 1, by simp at hbound; omega⟩
          obtain ⟨q', i, t', f, hrot, hrep, hi, hf, hbal, hlist⟩ := h.insertRotate_spec ht hx hw hu
          refine ⟨q', (f.fill t').plug k, ?_, rep_plug.mpr (by simpa using rep_fill.mpr hrep),
            toList_plug_congr k hlist, ?_⟩
          · rw [insertFixup, if_neg hroot, hparent]
            simp only [slotOf, ok_bind, hcolor, hgrand, hside, huncle, hred, hrot]
            exact hrep.insertFixup_black hi hf bound
          · obtain ⟨m, hm⟩ := hk.plug hbal
            exact hm.exists_blacken

/-! ## After a removal -/

/-- A red far child of the sibling: one rotation restores the height. -/
theorem Rep.removeRotate_far {s : Side} {c : Color} {t a b : RbTree Slot} {p w : Slot}
    (h : Rep q t (⟨s, c, p, .join s .black a w b⟩ :: k)) (hb : isRed q b.top? = true) :
    ∃ q', removeRotate s q p w = .ok q' ∧
      Rep q' (.join s c (.join s .black t p a) w b.blacken) k := by
  have hsib := rep_swap.mp h
  obtain ⟨-, hwb, -, -, -, -⟩ := Links.below_join.mp hsib.below
  have hcolor : q.color p = c := h.around.2.2.1
  have h₁ := (rep_swap.mpr (hsib.setColor c)).setColor_above .black
  have h₂ : Rep (TensorOS.blacken ((q.setColor w c).setColor p .black) b.top?)
      (.join s .black t p (.join s c a w b.blacken)) k := by
    have hfar : Rep ((q.setColor w c).setColor p .black) b
        (⟨s.other, c, w, a⟩ :: ⟨s.other, .black, p, t⟩ :: k) := by
      rw [← rep_fill, Frame.fill, RbTree.join_other]
      exact rep_swap.mp h₁
    have hback := rep_fill.mpr (rep_fill.mpr hfar.blacken)
    rwa [Frame.fill, Frame.fill, RbTree.join_other, RbTree.join_other] at hback
  obtain ⟨q', hrun, hrep⟩ := h₂.rotate
  refine ⟨q', ?_, hrep⟩
  simp only [removeRotate, hwb, hb, Bool.not_true, Bool.false_eq_true, if_false, ok_bind, hcolor]
  simpa [hwb] using hrun

/-- A red near child of the sibling: a rotation at the sibling makes it the far one. -/
theorem Rep.removeRotate_near {s : Side} {c : Color} {t a₁ a₂ b : RbTree Slot} {p y w : Slot}
    (h : Rep q t (⟨s, c, p, .join s .black (.join s .red a₁ y a₂) w b⟩ :: k))
    (hb : isRed q b.top? = false) :
    ∃ q', removeRotate s q p w = .ok q' ∧
      Rep q' (.join s c (.join s .black t p a₁) y (.join s .black a₂ w b)) k := by
  have hsib := rep_swap.mp h
  obtain ⟨hwa, hwb, -, -, -, -⟩ := Links.below_join.mp hsib.below
  rw [RbTree.top?_join] at hwa
  -- colours first: the near child black, the sibling red
  have h₁ : Rep ((q.setColor y .black).setColor w .red)
      (.join s.other .red b w (.join s.other .black a₂ y a₁)) (⟨s.other, c, p, t⟩ :: k) := by
    have hnear : Rep q (.join s .red a₁ y a₂) (⟨s, .black, w, b⟩ :: ⟨s.other, c, p, t⟩ :: k) :=
      rep_fill.mp hsib
    have hcolored := rep_fill.mpr ((hnear.setColor .black).setColor_above .red)
    rwa [RbTree.join_other, RbTree.join_other]
  obtain ⟨q₂, hrun₂, h₂⟩ := h₁.rotate
  rw [RbTree.join_other, RbTree.join_other] at h₂
  have hnew : q₂.child s.other p = some y := by
    have hhole := h₂.hole
    rwa [RbTree.top?_join] at hhole
  have hrep := rep_swap.mpr h₂
  obtain ⟨-, hyb, -, -, hfar, -⟩ := Links.below_join.mp h₂.below
  have hred : isRed q₂ (RbTree.join s .red a₂ w b).top? = true := by
    obtain ⟨-, -, -, -, -, hb₂⟩ := Links.below_join.mp h₂.below
    obtain ⟨-, -, -, hwc, -, -⟩ := Links.below_join.mp hb₂
    simp [isRed, hwc]
  obtain ⟨q', hrun, hfinal⟩ := hrep.removeRotate_far hred
  rw [RbTree.blacken_join] at hfinal
  refine ⟨q', ?_, hfinal⟩
  rw [← hrun]
  simp only [removeRotate, hwb, hb, hwa, TensorOS.blacken, hrun₂, hnew, hyb, hred, slotOf, ok_bind,
    Bool.not_false, Bool.not_true, if_true, Bool.false_eq_true, if_false]

/-- **One round of the loop after a removal**, below a parent whose other child is black: either the
parent is balanced with a red child and one black node fewer, or the height is restored. -/
theorem Rep.removeRound_spec {s : Side} {c : Color} {t u : RbTree Slot} {p : Slot} {n : ℕ}
    (h : Rep q t (⟨s, c, p, u⟩ :: k)) (ht : Balanced t .black n)
    (hu : Balanced u .black (n + 1)) :
    (∃ q' a w b, removeRound s q p = .ok (q', true) ∧
      Rep q' (.join s c t p (.join s .red a w b)) k ∧
      u = .join s .black a w b ∧ Balanced (.join s .red a w b) .red n) ∨
    ∃ q' a b w, removeRound s q p = .ok (q', false) ∧
      Rep q' (.join s c a w b) k ∧ Balanced a .black (n + 1) ∧ Balanced b .black (n + 1) ∧
      (RbTree.join s c a w b).toList = (RbTree.join s c t p u).toList := by
  obtain ⟨a, w, b, ca, cb, rfl, ha, hb⟩ := hu.exists_join_black s
  have hsib := rep_swap.mp h
  obtain ⟨hwa, hwb, -, -, -, -⟩ := Links.below_join.mp hsib.below
  have hw : q.child s.other p = some w := by
    have hhole := hsib.hole
    rwa [RbTree.top?_join] at hhole
  have hreda : isRed q a.top? = decide (ca = .red) := by
    refine Rep.isRed_eq (k := ⟨s, .black, w, b⟩ :: ⟨s.other, c, p, t⟩ :: k) ?_ ha
    rw [← rep_fill]
    exact hsib
  have hredb : isRed q b.top? = decide (cb = .red) := by
    refine Rep.isRed_eq (k := ⟨s.other, .black, w, a⟩ :: ⟨s.other, c, p, t⟩ :: k) ?_ hb
    rw [← rep_fill, Frame.fill, RbTree.join_other]
    exact hsib
  cases cb with
  | red =>
    obtain ⟨q', hrun, hrep⟩ := h.removeRotate_far (by simpa using hredb)
    refine Or.inr ⟨q', _, _, w, ?_, hrep, ?_, hb.blacken_red, ?_⟩
    · simp [removeRound, hw, hwa, hwb, hredb, hrun]
    · exact balanced_join_black.mpr ⟨rfl, n, _, _, rfl, ht, ha⟩
    · rw [RbTree.toList_rotate s c .black]
      exact RbTree.toList_join_congr p rfl
        (RbTree.toList_join_congr w rfl (RbTree.toList_blacken b))
  | black =>
    cases ca with
    | red =>
      obtain ⟨a₁, y, a₂, rfl, ha₁, ha₂⟩ := ha.exists_join_red s
      obtain ⟨q', hrun, hrep⟩ := h.removeRotate_near (by simpa using hredb)
      refine Or.inr ⟨q', _, _, y, ?_, hrep, ?_, ?_, ?_⟩
      · have hwa' : isRed q (some y) = true := by simpa using hreda
        simp [removeRound, hw, hwa, hwa', hrun]
      · exact balanced_join_black.mpr ⟨rfl, n, _, _, rfl, ht, ha₁⟩
      · exact balanced_join_black.mpr ⟨rfl, n, _, _, rfl, ha₂, hb⟩
      · cases s <;> simp [RbTree.join, RbTree.toList]
    | black =>
      refine Or.inl ⟨q.setColor w .red, a, w, b, ?_, ?_, rfl,
        balanced_join_red.mpr ⟨rfl, ha, hb⟩⟩
      · simp [removeRound, hw, hwa, hwb, hreda, hredb]
      · exact rep_fill.mpr (rep_swap.mpr (hsib.setColor .red))

/-- The links hold a balanced tree with the given slots in order. -/
def Queued (q : Links Slot) (l : List Slot) : Prop :=
  ∃ t m, Rep q t [] ∧ Balanced t .black m ∧ t.toList = l

/-- The outcome of the loop after a removal. -/
def Repairs (result : Except Fault (Links Slot)) (l : List Slot) : Prop :=
  ∃ q', result = .ok q' ∧ Queued q' l

/-- A red top ends the loop. -/
theorem Rep.removeFixup_red (bound : ℕ) {t l r : RbTree Slot} {a : Slot} {n : ℕ} (h : Rep q t k)
    (ht : t = .node .red l a r) (hb : Balanced t.blacken .black (n + 1))
    (hk : Fits k .black (n + 1)) :
    Repairs (removeFixup (bound + 1) q t.top? (above k)) (t.plug k).toList := by
  have hred : isRed q t.top? = true := by
    subst ht
    simp [isRed, RbTree.top?, h.below.2.2.2.1]
  obtain ⟨m, hm⟩ := hk.plug hb
  refine ⟨_, ?_, t.blacken.plug k, m, rep_plug.mpr (by simpa using h.blacken), hm,
    toList_plug_congr k (RbTree.toList_blacken t)⟩
  rw [removeFixup.eq_def]
  exact if_pos (Or.inr hred)

/-- A whole tree that is balanced stays as it is when its root is coloured black. -/
theorem Rep.repairs_blacken {t : RbTree Slot} {m : ℕ} (h : Rep q t []) (hb : Balanced t .black m) :
    Repairs (.ok (TensorOS.blacken q q.root)) t.toList := by
  refine ⟨_, rfl, t, m, ?_, hb, rfl⟩
  have hroot : q.root = t.top? := h.hole
  have hblack := h.blacken
  rwa [hb.blacken_eq, ← hroot] at hblack

theorem Rep.repairs_last {s : Side} {c : Color} {t u a b : RbTree Slot} {p w : Slot} {m : ℕ}
    (h : Rep q (.join s c a w b) k) (hb : Balanced ((RbTree.join s c a w b).plug k) .black m)
    (hlist : (RbTree.join s c a w b).toList = (RbTree.join s c t p u).toList) :
    Repairs (.ok (TensorOS.blacken q q.root)) (t.plug (⟨s, c, p, u⟩ :: k)).toList := by
  have hfix := Rep.repairs_blacken (rep_plug.mpr (by simpa using h)) hb
  rwa [toList_plug_congr k hlist] at hfix

/-- The round below a red parent is the last one, or the parent ends the loop. -/
theorem Rep.removeRound_red (bound : ℕ) {s : Side} {t u : RbTree Slot} {p : Slot} {n : ℕ}
    (h : Rep q t (⟨s, .red, p, u⟩ :: k)) (ht : Balanced t .black n)
    (hu : Balanced u .black (n + 1)) (hk : Fits k .red (n + 1)) :
    Repairs (do
        let (q, again) ← removeRound s q p
        if again then removeFixup (bound + 1) q (some p) (q.parent p)
        else .ok (TensorOS.blacken q q.root))
      (t.plug (⟨s, .red, p, u⟩ :: k)).toList := by
  rcases h.removeRound_spec ht hu with
    ⟨q', a, w, b, hrun, hrep, rfl, hb⟩ | ⟨q', a, b, w, hrun, hrep, ha, hb, hlist⟩
  · have htop : (RbTree.join s .red t p (.join s .red a w b)).top? = some p := RbTree.top?_join ..
    have hblack : Balanced (RbTree.join s .red t p (.join s .red a w b)).blacken .black
        (n + 1) := by
      rw [RbTree.blacken_join]
      exact balanced_join_black.mpr ⟨rfl, n, _, _, rfl, ht, hb⟩
    obtain ⟨l, x, r, hshape⟩ : ∃ l x r, RbTree.join s .red t p (.join s .red a w b)
        = .node .red l x r := by cases s <;> exact ⟨_, _, _, rfl⟩
    have hfix := hrep.removeFixup_red bound hshape hblack hk.of_red
    rw [htop, ← hrep.parent_top htop] at hfix
    have hlist : ((RbTree.join s .red t p (.join s .red a w b)).plug k).toList
        = (t.plug (⟨s, .red, p, .join s .black a w b⟩ :: k)).toList :=
      toList_plug_congr k (RbTree.toList_join_congr p rfl (RbTree.toList_join_congr w rfl rfl))
    simp only [hrun, ok_bind, if_true]
    rwa [hlist] at hfix
  · obtain ⟨m, hm⟩ := hk.plug (balanced_join_red.mpr ⟨rfl, ha, hb⟩)
    simp only [hrun, ok_bind, Bool.false_eq_true, if_false]
    exact hrep.repairs_last hm hlist

/-- The side the source computes, when the other child is there. -/
theorem Rep.side_eq_of_sibling {t : RbTree Slot} {f : Frame Slot} (h : Rep q t (f :: k))
    (hsib : f.sibling.top? ≠ none) :
    (if t.top? = q.child .left f.val then Side.left else Side.right) = f.side := by
  have hhole : q.child f.side f.val = t.top? := h.hole
  have hother : q.child f.side.other f.val = f.sibling.top? := h.around.1
  cases hs : f.side with
  | left => rw [hs] at hhole; exact if_pos hhole.symm
  | right =>
    rw [hs] at hother
    refine if_neg fun heq ↦ ?_
    obtain ⟨a, ha⟩ := Option.ne_none_iff_exists'.mp hsib
    refine h.other_ne (RbTree.top?_mem ?_) (hs ▸ hother.trans ha)
    exact heq.trans (hother.trans ha)

/-- A red sibling: a rotation at the parent gives the focus a black one below a red parent. -/
theorem Rep.rotate_sibling {s : Side} {c : Color} {t a b : RbTree Slot} {p w : Slot}
    (h : Rep q t (⟨s, c, p, .join s .red a w b⟩ :: k)) :
    ∃ q', readyQueueRotate s ((TensorOS.blacken q (some w)).setColor p .red) p = .ok q' ∧
      Rep q' t (⟨s, .red, p, a⟩ :: ⟨s, .black, w, b⟩ :: k) := by
  have hcolored := h.blacken_sibling.setColor_above .red
  rw [RbTree.blacken_join, RbTree.top?_join] at hcolored
  obtain ⟨q', hrun, hrep⟩ := (rep_fill.mpr hcolored).rotate
  exact ⟨q', hrun, rep_fill.mp (rep_fill.mp hrep)⟩

/-- **The loop after a removal** gives a balanced tree in the same order. -/
theorem Rep.removeFixup_spec (bound : ℕ) {t : RbTree Slot} {n : ℕ} (h : Rep q t k)
    (ht : Short t n) (hk : Fits k .black (n + 1)) (hbound : k.length + 2 ≤ bound) :
    Repairs (removeFixup bound q t.top? (above k)) (t.plug k).toList := by
  induction bound generalizing q t n k with
  | zero => omega
  | succ bound ih =>
    obtain ⟨bound, rfl⟩ : ∃ b, bound = b + 1 := ⟨bound - 1, by omega⟩
    rcases ht with ht | ⟨l, a, r, hshape, hb⟩
    swap
    · exact h.removeFixup_red _ hshape hb hk
    cases k with
    | nil =>
      have hfix := h.repairs_blacken ht
      rw [removeFixup.eq_def]
      have hroot : t.top? = q.root := h.hole.symm
      simp only [hroot, true_or, if_true]
      exact hfix
    | cons f k =>
      have hblack : isRed q t.top? = false := by simp [h.isRed_eq ht]
      have hnot : ¬(t.top? = q.root ∨ isRed q t.top? = true) := by simp [hblack, h.top?_ne_root]
      rw [removeFixup.eq_def]
      simp only [if_neg hnot, above]
      cases hk with
      | @red s p u _ _ hu hk =>
        obtain ⟨a, w, b, ca, cb, hshape, -, -⟩ := hu.exists_join_black s
        have hside := h.side_eq_of_sibling (by simp [hshape])
        have hsib : q.child s.other p = u.top? := h.around.1
        have hred := (rep_swap.mp h).isRed_eq hu
        simp only [hside, hsib, hred, reduceCtorEq, decide_false, Bool.false_eq_true, if_false,
          ok_bind]
        exact h.removeRound_red _ ht hu hk
      | @black s p u _ _ c' _ hu hk =>
        have hsib : q.child s.other p = u.top? := h.around.1
        have hred := (rep_swap.mp h).isRed_eq hu
        cases c' with
        | red =>
          obtain ⟨a, w, b, rfl, ha, hb⟩ := hu.exists_join_red s
          have hside := h.side_eq_of_sibling (by simp)
          obtain ⟨q', hrun, hrep⟩ := h.rotate_sibling
          rw [RbTree.top?_join] at hsib hred
          simp only [hside, hsib, hred, decide_true, if_true, hrun, ok_bind]
          have hlist : (t.plug (⟨s, .red, p, a⟩ :: ⟨s, .black, w, b⟩ :: k)).toList
              = (t.plug (⟨s, .black, p, .join s .red a w b⟩ :: k)).toList :=
            toList_plug_congr k (RbTree.toList_rotate s .black .red .red .black t a b p w)
          rw [← hlist]
          exact hrep.removeRound_red _ ht ha (.black hb hk)
        | black =>
          obtain ⟨a, w, b, ca, cb, hshape, -, -⟩ := hu.exists_join_black s
          have hside := h.side_eq_of_sibling (by simp [hshape])
          simp only [hside, hsib, hred, reduceCtorEq, decide_false, Bool.false_eq_true, if_false,
            ok_bind]
          rcases h.removeRound_spec ht hu with
            ⟨q', a, w, b, hrun, hrep, rfl, hb⟩ | ⟨q', a, b, w, hrun, hrep, ha, hb, hlist⟩
          · -- the parent lacks a black node now, and the loop goes on there
            have hfix := ih hrep (Or.inl (balanced_join_black.mpr ⟨rfl, n, _, _, rfl, ht, hb⟩)) hk
              (by simp at hbound; omega)
            have hlist : ((RbTree.join s .black t p (.join s .red a w b)).plug k).toList
                = (t.plug (⟨s, .black, p, .join s .black a w b⟩ :: k)).toList :=
              toList_plug_congr k
                (RbTree.toList_join_congr p rfl (RbTree.toList_join_congr w rfl rfl))
            simp only [hrun, ok_bind, if_true]
            rwa [hlist, RbTree.top?_join, ← hrep.parent_top (RbTree.top?_join ..)] at hfix
          · obtain ⟨m, hm⟩ := hk.plug (balanced_join_black.mpr ⟨rfl, n + 1, _, _, rfl, ha, hb⟩)
            simp only [hrun, ok_bind, Bool.false_eq_true, if_false]
            exact hrep.repairs_last hm hlist

end TensorOS
