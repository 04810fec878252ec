import Mathlib

/-!
# A row of segments

An arena is cut into segments that lie one behind the other, each with a header of fixed size in
front of its contents. A segment is in use or free. Storage is taken by splitting a free segment
and given back by freeing one and merging neighbours.

A row is a list of segments; where they lie follows from their sizes. `starts` gives the segments
with their places, and `taken` those in use. Splitting, freeing and merging are described by what
they do to the extent of the row and to the segments in use. `LaidTo` says that a row is stored as
a linked list of headers.
-/

namespace TensorOS

/-- A segment: the size of its contents, and whether it is in use. -/
structure Segment where
  size : ℕ
  used : Bool
  deriving DecidableEq, Repr

section Row

variable (header : ℕ)

/-! ## Places -/

/-- The length of the row, headers included. -/
def extent (row : List Segment) : ℕ := (row.map fun c ↦ header + c.size).sum

/-- The segments with the places of their headers, from a given place on. -/
def starts : ℕ → List Segment → List (ℕ × Segment)
  | _, [] => []
  | a, c :: row => (a, c) :: starts (a + header + c.size) row

/-- The segments in use, with their places. -/
def taken (a : ℕ) (row : List Segment) : List (ℕ × Segment) :=
  (starts header a row).filter fun x ↦ x.2.used

variable {header} {a b : ℕ} {c : Segment} {row row' : List Segment}

@[simp] theorem extent_nil : extent header [] = 0 := rfl

@[simp] theorem extent_cons (c : Segment) (row : List Segment) :
    extent header (c :: row) = header + c.size + extent header row := rfl

theorem extent_append (row row' : List Segment) :
    extent header (row ++ row') = extent header row + extent header row' := by
  rw [extent, extent, extent, List.map_append, List.sum_append]

theorem starts_append (a : ℕ) (row row' : List Segment) :
    starts header a (row ++ row')
      = starts header a row ++ starts header (a + extent header row) row' := by
  induction row generalizing a with
  | nil => rfl
  | cons c row ih =>
    have hplace : a + header + c.size + extent header row = a + extent header (c :: row) := by
      rw [extent_cons]
      omega
    rw [List.cons_append, starts, starts, ih, hplace, List.cons_append]

theorem taken_append (a : ℕ) (row row' : List Segment) :
    taken header a (row ++ row')
      = taken header a row ++ taken header (a + extent header row) row' := by
  rw [taken, starts_append, List.filter_append]
  rfl

theorem taken_cons (a : ℕ) (c : Segment) (row : List Segment) :
    taken header a (c :: row)
      = (if c.used then [(a, c)] else []) ++ taken header (a + header + c.size) row := by
  cases hc : c.used <;> simp [taken, starts, hc]

theorem map_snd_starts (a : ℕ) (row : List Segment) : (starts header a row).map Prod.snd = row := by
  induction row generalizing a with
  | nil => rfl
  | cons c row ih => rw [starts, List.map_cons, ih]

theorem length_starts (a : ℕ) (row : List Segment) : (starts header a row).length = row.length := by
  rw [← List.length_map Prod.snd, map_snd_starts]

theorem length_taken (a : ℕ) (row : List Segment) :
    (taken header a row).length = (row.filter Segment.used).length := by
  induction row generalizing a with
  | nil => rfl
  | cons c row ih =>
    rw [taken_cons, List.length_append, ih]
    cases hc : c.used
    · simp [hc]
    · simp [hc, Nat.add_comm]

theorem mem_starts_iff : (b, c) ∈ starts header a row ↔
    ∃ front back, row = front ++ c :: back ∧ b = a + extent header front := by
  constructor
  · intro h
    induction row generalizing a with
    | nil => cases h
    | cons d row ih =>
      rw [starts, List.mem_cons] at h
      rcases h with h | h
      · obtain ⟨rfl, rfl⟩ := Prod.mk.inj h
        exact ⟨[], row, rfl, rfl⟩
      · obtain ⟨front, back, rfl, rfl⟩ := ih h
        refine ⟨d :: front, back, rfl, ?_⟩
        rw [extent_cons]
        omega
  · rintro ⟨front, back, rfl, rfl⟩
    rw [starts_append, starts]
    simp

theorem mem_starts_bounds (h : (b, c) ∈ starts header a row) :
    a ≤ b ∧ b + header + c.size ≤ a + extent header row := by
  obtain ⟨front, back, rfl, rfl⟩ := mem_starts_iff.mp h
  rw [extent_append, extent_cons]
  omega

theorem pairwise_starts (a : ℕ) (row : List Segment) :
    (starts header a row).Pairwise fun x y ↦ x.1 + header + x.2.size ≤ y.1 := by
  induction row generalizing a with
  | nil => exact .nil
  | cons c row ih =>
    rw [starts, List.pairwise_cons]
    exact ⟨fun x hx ↦ (mem_starts_bounds hx).1, ih _⟩

theorem starts_disjoint {d : Segment} (hc : (b, c) ∈ starts header a row) {b' : ℕ}
    (hd : (b', d) ∈ starts header a row) (hne : b ≠ b') :
    b + header + c.size ≤ b' ∨ b' + header + d.size ≤ b := by
  have hsymm : Std.Symm fun x y : ℕ × Segment ↦
      x.1 + header + x.2.size ≤ y.1 ∨ y.1 + header + y.2.size ≤ x.1 := ⟨fun x y hxy ↦ hxy.symm⟩
  have hpair := (pairwise_starts a row).imp fun {x y} hxy ↦
    (Or.inl hxy : x.1 + header + x.2.size ≤ y.1 ∨ y.1 + header + y.2.size ≤ x.1)
  exact hpair.forall hc hd fun heq ↦ hne (Prod.mk.inj heq).1

theorem length_le_extent (hpos : 0 < header) (row : List Segment) :
    row.length ≤ extent header row := by
  induction row with
  | nil => exact Nat.le_refl 0
  | cons c row ih =>
    rw [List.length_cons, extent_cons]
    omega

theorem sum_taken_le (a : ℕ) (row : List Segment) :
    ((taken header a row).map fun x ↦ header + x.2.size).sum ≤ extent header row := by
  induction row generalizing a with
  | nil => exact Nat.le_refl 0
  | cons c row ih =>
    have hrow := ih (a + header + c.size)
    rw [taken_cons, List.map_append, List.sum_append, extent_cons]
    cases hc : c.used with
    | true =>
      simp only [if_true, List.map_cons, List.map_nil, List.sum_cons, List.sum_nil]
      omega
    | false =>
      simp only [Bool.false_eq_true, if_false, List.map_nil, List.sum_nil]
      omega

theorem size_taken_le (a : ℕ) (row : List Segment) :
    ((taken header a row).map fun x ↦ x.2.size).sum ≤ extent header row :=
  (List.sum_le_sum fun x _ ↦ Nat.le_add_left x.2.size header).trans (sum_taken_le a row)

theorem length_taken_le (hpos : 0 < header) (a : ℕ) (row : List Segment) :
    (taken header a row).length ≤ extent header row := by
  refine le_trans ?_ (length_le_extent hpos row)
  rw [length_taken]
  exact List.length_filter_le ..

/-! ## Taking, freeing and merging -/

/-- No two neighbours are free. -/
def Separated (row : List Segment) : Prop := row.IsChain fun c d ↦ c.used = true ∨ d.used = true

/-- What a free segment becomes when some of it is taken: all of it is, unless enough is left for
another segment. -/
def carve (header slack n : ℕ) (c : Segment) : List Segment :=
  if c.size - n ≤ slack then [⟨c.size, true⟩] else [⟨n, true⟩, ⟨c.size - n - header, false⟩]

/-- Merge free neighbours, from a segment on. -/
def mergeFrom (header : ℕ) : Segment → List Segment → List Segment
  | c, [] => [c]
  | c, d :: row =>
    if c.used = false ∧ d.used = false then mergeFrom header ⟨c.size + header + d.size, false⟩ row
    else c :: mergeFrom header d row

theorem extent_carve {slack n : ℕ} (hn : n ≤ c.size) (hslack : header ≤ slack) :
    extent header (carve header slack n c) = header + c.size := by
  rw [carve]
  split
  · rw [extent_cons, extent_nil, Nat.add_zero]
  · rw [extent_cons, extent_cons, extent_nil]
    dsimp only
    omega

/-- The segment that is taken comes first, and is large enough. -/
theorem exists_carve (header slack n : ℕ) (hn : n ≤ c.size) : ∃ size rest,
    carve header slack n c = ⟨size, true⟩ :: rest ∧ n ≤ size ∧ (∀ d ∈ rest, d.used = false) ∧
      rest.length ≤ 1 := by
  rw [carve]
  split
  · exact ⟨c.size, [], rfl, hn, by simp, by simp⟩
  · exact ⟨n, _, rfl, Nat.le_refl n, by simp, by simp⟩

theorem extent_mergeFrom (c : Segment) (row : List Segment) :
    extent header (mergeFrom header c row) = extent header (c :: row) := by
  induction row generalizing c with
  | nil => rfl
  | cons d row ih =>
    rw [mergeFrom]
    split
    · rw [ih, extent_cons, extent_cons, extent_cons]
      dsimp only
      omega
    · rw [extent_cons, ih, extent_cons (c := c)]

/-- Merging touches no segment in use. -/
theorem taken_mergeFrom (a : ℕ) (c : Segment) (row : List Segment) :
    taken header a (mergeFrom header c row) = taken header a (c :: row) := by
  induction row generalizing a c with
  | nil => rfl
  | cons d row ih =>
    rw [mergeFrom]
    split
    · next hfree =>
      rw [ih, taken_cons, taken_cons, taken_cons, hfree.1, hfree.2]
      simp only [Bool.false_eq_true, if_false, List.nil_append]
      congr 1
      omega
    · rw [taken_cons, ih, taken_cons (c := c)]

theorem head?_mergeFrom_used (c : Segment) (row : List Segment) :
    ∀ d ∈ (mergeFrom header c row).head?, d.used = c.used := by
  induction row generalizing c with
  | nil => simp [mergeFrom]
  | cons e row ih =>
    rw [mergeFrom]
    split
    · next hfree =>
      rw [hfree.1]
      exact ih _
    · simp

theorem separated_mergeFrom (c : Segment) (row : List Segment) :
    Separated (mergeFrom header c row) := by
  induction row generalizing c with
  | nil => exact .singleton c
  | cons d row ih =>
    rw [mergeFrom]
    split
    · exact ih _
    · next hfree =>
      refine List.isChain_cons.mpr ⟨fun e he ↦ ?_, ih d⟩
      rw [head?_mergeFrom_used d row e he]
      cases hc : c.used <;> cases hd : d.used <;> simp_all

/-- A row without segments in use whose free neighbours are merged is one segment. -/
theorem Separated.eq_singleton (header : ℕ) (h : Separated row) (hfree : ∀ c ∈ row, c.used = false)
    (hne : row ≠ []) : row = [⟨extent header row - header, false⟩] := by
  cases row with
  | nil => exact absurd rfl hne
  | cons c row =>
    have hc : c.used = false := hfree c (by simp)
    cases row with
    | nil =>
      rw [extent_cons, extent_nil, Nat.add_zero, Nat.add_sub_cancel_left, ← hc]
    | cons d row =>
      have hd : d.used = false := hfree d (by simp)
      have hsep := (List.isChain_cons_cons.mp h).1
      simp [hc, hd] at hsep

/-- Taking a free segment leaves no free neighbours. -/
theorem Separated.carve {front back : List Segment} (h : Separated (front ++ c :: back))
    (hc : c.used = false) (slack n : ℕ) (hn : n ≤ c.size) :
    Separated (front ++ (carve header slack n c ++ back)) := by
  obtain ⟨size, rest, heq, -, -, hlen⟩ := exists_carve header slack n hn
  obtain ⟨hfront, hcback, hlast⟩ := List.isChain_append.mp h
  obtain ⟨hhead, hback⟩ := List.isChain_cons.mp hcback
  rw [heq]
  refine List.isChain_append.mpr ⟨hfront, List.isChain_cons.mpr ⟨fun _ _ ↦ Or.inl rfl, ?_⟩,
    fun x _ y hy ↦ ?_⟩
  · rcases rest with _ | ⟨d, _ | ⟨e, rest⟩⟩
    · exact hback
    · refine List.isChain_cons.mpr ⟨fun y hy ↦ ?_, hback⟩
      exact Or.inr ((hhead y hy).resolve_left (by simp [hc]))
    · simp at hlen
  · obtain rfl : (⟨size, true⟩ : Segment) = y := Option.some.inj hy
    exact Or.inr rfl

end Row

/-! ## Rows as linked lists -/

/-- What the header of a segment says. -/
structure SegmentHeader where
  size : ℕ
  used : Bool
  next : Option ℕ
  deriving DecidableEq, Repr

/-- The row lies from place `a` on: its headers are linked, the first is pointed to by `first` and
the last one points to `last`. -/
def LaidTo (header : ℕ) (heads : ℕ → SegmentHeader) : Option ℕ → ℕ → List Segment → Option ℕ → Prop
  | first, _, [], last => first = last
  | first, a, c :: row, last => first = some a ∧ (heads a).size = c.size ∧ (heads a).used = c.used ∧
      LaidTo header heads (heads a).next (a + header + c.size) row last

section Linked

variable {header a : ℕ} {heads heads' : ℕ → SegmentHeader} {first last : Option ℕ}
  {row row' : List Segment}

theorem laidTo_append : LaidTo header heads first a (row ++ row') last ↔
    ∃ middle, LaidTo header heads first a row middle ∧
      LaidTo header heads middle (a + extent header row) row' last := by
  induction row generalizing first a with
  | nil =>
    constructor
    · intro h
      exact ⟨first, rfl, h⟩
    · rintro ⟨middle, rfl, h⟩
      exact h
  | cons c row ih =>
    have hplace : a + header + c.size + extent header row = a + extent header (c :: row) := by
      rw [extent_cons]
      omega
    rw [List.cons_append, LaidTo, ih, hplace]
    constructor
    · rintro ⟨hfirst, hsize, hused, middle, hrow, hrow'⟩
      exact ⟨middle, ⟨hfirst, hsize, hused, hrow⟩, hrow'⟩
    · rintro ⟨middle, ⟨hfirst, hsize, hused, hrow⟩, hrow'⟩
      exact ⟨hfirst, hsize, hused, middle, hrow, hrow'⟩

/-- Only the headers of a row matter. -/
theorem LaidTo.congr (h : LaidTo header heads first a row last)
    (hsame : ∀ x ∈ starts header a row, heads' x.1 = heads x.1) :
    LaidTo header heads' first a row last := by
  induction row generalizing first a with
  | nil => exact h
  | cons c row ih =>
    obtain ⟨hfirst, hsize, hused, hrow⟩ := h
    have ha : heads' a = heads a := hsame (a, c) (by simp [starts])
    refine ⟨hfirst, by rw [ha, hsize], by rw [ha, hused], ?_⟩
    rw [ha]
    exact ih hrow fun x hx ↦ hsame x (by simp [starts, hx])

theorem LaidTo.of_bounds (hpos : 0 < header) (h : LaidTo header heads first a row last)
    (hsame : ∀ b, a ≤ b → b < a + extent header row → heads' b = heads b) :
    LaidTo header heads' first a row last := by
  refine h.congr fun x hx ↦ ?_
  obtain ⟨hle, hlt⟩ := mem_starts_bounds hx
  exact hsame x.1 hle (by omega)

/-- One segment is replaced by others that take the same room. -/
theorem LaidTo.replace (hpos : 0 < header) {front back middle : List Segment} {c : Segment}
    (h : LaidTo header heads first a (front ++ c :: back) last)
    (hsame : ∀ b, b < a + extent header front ∨ a + extent header front + header + c.size ≤ b →
      heads' b = heads b)
    (hextent : extent header middle = header + c.size)
    (hmiddle : LaidTo header heads' (some (a + extent header front))
      (a + extent header front) middle
      (heads (a + extent header front)).next) :
    LaidTo header heads' first a (front ++ (middle ++ back)) last := by
  obtain ⟨place, hfront, rfl, -, -, hback⟩ := laidTo_append.mp h
  refine laidTo_append.mpr ⟨_, hfront.of_bounds hpos fun b _ hb ↦ hsame b (Or.inl hb),
    laidTo_append.mpr ⟨_, hmiddle, ?_⟩⟩
  rw [hextent, ← Nat.add_assoc]
  exact hback.of_bounds hpos fun b hb _ ↦ hsame b (Or.inr hb)

theorem LaidTo.heads_eq (h : LaidTo header heads first a row last) {b : ℕ} {c : Segment}
    (hb : (b, c) ∈ starts header a row) : (heads b).size = c.size ∧ (heads b).used = c.used := by
  obtain ⟨front, back, rfl, rfl⟩ := mem_starts_iff.mp hb
  obtain ⟨middle, -, -, hsize, hused, -⟩ := laidTo_append.mp h
  exact ⟨hsize, hused⟩

end Linked

end TensorOS
