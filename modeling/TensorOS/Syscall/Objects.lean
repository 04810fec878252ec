import TensorOS.Syscall.Moves
import TensorOS.Lib.Transition

/-!
# Objects and the handles to them

The objects of a kind that are made and not yet destroyed should be those that the table refers to.
`HandlesBalanced` says this of a state, together with what it rests on: all handles to one object
belong to one process, because only `HANDLE_DUP` makes a second one. Each move keeps it but one.
`EVENT_CREATE` and `MAILBOX_CREATE` make the object before they look for an entry, and with a full
table they answer `ENOSPC` and forget the object (`object_leaked`), where `FILE_OPEN` and
`SERVICE_OPEN` close it again. Without such calls no object is ever lost (`objects_balanced`).
-/

namespace TensorOS

variable {ω : Type}

/-- The callbacks of a kind of object do what they are for, in the worlds that satisfy `Inv`: what
they make is new, what they destroy is gone, and nothing else makes or destroys an object of this
kind. -/
structure Honest (ops : RuntimeSyscallOps ω) (Inv : SyscallWorld ω → Prop) (kind : ObjectKind)
    (live : SyscallWorld ω → UInt32 → Prop) : Prop where
  others : ops.Keep fun w w' ↦ Inv w → Inv w' ∧ ∀ o, live w' o ↔ live w o
  creates : ∀ {args w object w'}, Inv w → Creates ops args kind w (some object) w' →
    Inv w' ∧ ¬ live w object ∧ ∀ o, live w' o ↔ live w o ∨ o = object
  fails : ∀ {args w w'}, Inv w → Creates ops args kind w none w' →
    Inv w' ∧ ∀ o, live w' o ↔ live w o
  destroys : ∀ {object w destroyed w'}, Inv w → live w object →
    Destroys ops kind object w destroyed w' →
    Inv w' ∧ destroyed = true ∧ ∀ o, live w' o ↔ live w o ∧ o ≠ object
  destroyable : ∀ {object w}, Inv w → live w object → ops.destroy object kind ≠ none
  otherCreates : ∀ {args kind' w object w'}, kind' ≠ kind → Inv w →
    Creates ops args kind' w object w' → Inv w' ∧ ∀ o, live w' o ↔ live w o
  otherDestroys : ∀ {kind' object w destroyed w'}, kind' ≠ kind → Inv w →
    Destroys ops kind' object w destroyed w' → Inv w' ∧ ∀ o, live w' o ↔ live w o

/-- The objects of a kind are those that the table refers to, and all handles to one object belong
to one process. -/
structure HandlesBalanced (kind : ObjectKind) (live : UInt32 → Prop) (table : RuntimeSyscallTable) :
    Prop where
  live_iff : ∀ object, live object ↔ ∃ i, table.Refers kind i object
  owner : ∀ {i j object}, table.Refers kind i object → table.Refers kind j object →
    (table.handles i).ownerPid = (table.handles j).ownerPid

/-! ## Entries -/

section Entries

variable {table : RuntimeSyscallTable} {kind : ObjectKind} {i j : Fin 16} {object : UInt32}
  {entry : RuntimeHandleInfo}

theorem RuntimeSyscallTable.refers_set_self :
    (table.set i entry).Refers kind i object ↔ entry.type = kind.type ∧ entry.object = object := by
  rw [Refers, set_handles_self]

theorem RuntimeSyscallTable.refers_set_of_ne (h : j ≠ i) :
    (table.set i entry).Refers kind j object ↔ table.Refers kind j object := by
  rw [Refers, Refers, set_handles_of_ne h]

theorem RuntimeSyscallTable.Free.not_refers (h : table.Free i) :
    ¬ table.Refers kind i object := by
  rintro ⟨htype, -⟩
  exact kind.type_ne_none (htype.symm.trans h)

theorem not_refers_clear : ¬ (table.clear i).Refers kind i object := by
  rw [RuntimeSyscallTable.clear, RuntimeSyscallTable.refers_set_self]
  rintro ⟨htype, -⟩
  exact kind.type_ne_none htype.symm

/-- An entry is counted more than once if two entries are aliases of it. -/
theorem one_lt_aliasCount : 1 < runtimeSyscallHandleAliasCount table entry ↔
    ∃ i j, i ≠ j ∧ entry.aliases (table.handles i) = true ∧
      entry.aliases (table.handles j) = true := by
  have hnodup := (List.nodup_finRange 16).filter fun i ↦ entry.aliases (table.handles i)
  rw [runtimeSyscallHandleAliasCount, List.countP_eq_length_filter,
    ← List.toFinset_card_of_nodup hnodup, Finset.one_lt_card]
  simp only [List.mem_toFinset, List.mem_filter, List.mem_finRange, true_and]
  constructor
  · rintro ⟨i, hi, j, hj, hne⟩
    exact ⟨i, j, hne, hi, hj⟩
  · rintro ⟨i, j, hne, hi, hj⟩
    exact ⟨i, hi, j, hj, hne⟩

theorem aliases_iff {entry entry' : RuntimeHandleInfo} : entry.aliases entry' = true ↔
    entry'.type = entry.type ∧ entry'.ownerPid = entry.ownerPid ∧ entry'.object = entry.object := by
  simp [RuntimeHandleInfo.aliases]

theorem exists_alias (h : 1 < runtimeSyscallHandleAliasCount table (table.handles i)) :
    ∃ j, j ≠ i ∧ (table.handles i).aliases (table.handles j) = true := by
  obtain ⟨a, b, hne, ha, hb⟩ := one_lt_aliasCount.mp h
  by_cases hai : a = i
  · exact ⟨b, fun hbi ↦ hne (hai.trans hbi.symm), hb⟩
  · exact ⟨a, hai, ha⟩

theorem eq_of_aliases (h : ¬ 1 < runtimeSyscallHandleAliasCount table (table.handles i))
    (hj : (table.handles i).aliases (table.handles j) = true) : j = i := by
  by_contra hne
  exact h (one_lt_aliasCount.mpr ⟨j, i, hne, hj, aliases_iff.mpr ⟨rfl, rfl, rfl⟩⟩)

end Entries

/-! ## The balance -/

section Balance

variable {kind : ObjectKind} {live live' : UInt32 → Prop} {table : RuntimeSyscallTable}
  {i j : Fin 16}

theorem HandlesBalanced.congr (h : HandlesBalanced kind live table)
    (hlive : ∀ o, live' o ↔ live o) :
    HandlesBalanced kind live' table :=
  ⟨fun o ↦ (hlive o).trans (h.live_iff o), h.owner⟩

/-- A free entry takes a handle that is not to an object of this kind. -/
theorem HandlesBalanced.set_other (h : HandlesBalanced kind live table) (hfree : table.Free i)
    {entry : RuntimeHandleInfo} (htype : entry.type ≠ kind.type) :
    HandlesBalanced kind live (table.set i entry) := by
  have hrefers : ∀ {j o}, (table.set i entry).Refers kind j o ↔ table.Refers kind j o := by
    intro j o
    by_cases hj : j = i
    · subst hj
      rw [RuntimeSyscallTable.refers_set_self]
      exact iff_of_false (fun he ↦ htype he.1) hfree.not_refers
    · exact RuntimeSyscallTable.refers_set_of_ne hj
  refine ⟨fun o ↦ ?_, fun {a b o} ha hb ↦ ?_⟩
  · simp only [hrefers]
    exact h.live_iff o
  · have hne : ∀ {j}, table.Refers kind j o → j ≠ i := by
      rintro j hj rfl
      exact hfree.not_refers hj
    rw [hrefers] at ha hb
    rw [RuntimeSyscallTable.set_handles_of_ne (hne ha),
      RuntimeSyscallTable.set_handles_of_ne (hne hb)]
    exact h.owner ha hb

theorem HandlesBalanced.clear_free (h : HandlesBalanced kind live table) (hfree : table.Free i) :
    HandlesBalanced kind live (table.clear i) :=
  h.set_other hfree (Ne.symm kind.type_ne_none)

/-- A handle that is not the last one to an object of this kind. -/
theorem HandlesBalanced.drop (h : HandlesBalanced kind live table)
    (hdrop : (table.handles i).type ≠ kind.type ∨
      1 < runtimeSyscallHandleAliasCount table (table.handles i)) :
    HandlesBalanced kind live (table.clear i) := by
  refine ⟨fun o ↦ (h.live_iff o).trans ⟨?_, ?_⟩, fun {a b o} ha hb ↦ ?_⟩
  · rintro ⟨j, hj⟩
    by_cases hji : j = i
    · subst hji
      obtain hother | hshared := hdrop
      · exact absurd hj.1 hother
      · obtain ⟨a, hne, ha⟩ := exists_alias hshared
        obtain ⟨htype, -, hobject⟩ := aliases_iff.mp ha
        exact ⟨a, (RuntimeSyscallTable.refers_set_of_ne hne).mpr
          ⟨htype.trans hj.1, hobject.trans hj.2⟩⟩
    · exact ⟨j, (RuntimeSyscallTable.refers_set_of_ne hji).mpr hj⟩
  · rintro ⟨j, hj⟩
    have hji : j ≠ i := by
      rintro rfl
      exact not_refers_clear hj
    exact ⟨j, (RuntimeSyscallTable.refers_set_of_ne hji).mp hj⟩
  · have hne : ∀ {j}, (table.clear i).Refers kind j o → j ≠ i := by
      rintro j hj rfl
      exact not_refers_clear hj
    rw [RuntimeSyscallTable.clear, RuntimeSyscallTable.set_handles_of_ne (hne ha),
      RuntimeSyscallTable.set_handles_of_ne (hne hb)]
    exact h.owner ((RuntimeSyscallTable.refers_set_of_ne (hne ha)).mp ha)
      ((RuntimeSyscallTable.refers_set_of_ne (hne hb)).mp hb)

theorem HandlesBalanced.destroy (h : HandlesBalanced kind live table)
    (htype : (table.handles i).type = kind.type)
    (hlast : ¬ 1 < runtimeSyscallHandleAliasCount table (table.handles i))
    (hlive : ∀ o, live' o ↔ live o ∧ o ≠ (table.handles i).object) :
    HandlesBalanced kind live' (table.clear i) := by
  have hself : table.Refers kind i (table.handles i).object := ⟨htype, rfl⟩
  -- the handles to the object belong to one process, so all of them are aliases
  have honly : ∀ j, table.Refers kind j (table.handles i).object → j = i := by
    intro j hj
    exact eq_of_aliases hlast (aliases_iff.mpr ⟨hj.1.trans htype.symm, h.owner hj hself, hj.2⟩)
  have hne : ∀ {j o}, (table.clear i).Refers kind j o → j ≠ i := by
    rintro j o hj rfl
    exact not_refers_clear hj
  refine ⟨fun o ↦ ?_, fun {a b o} ha hb ↦ ?_⟩
  · rw [hlive, h.live_iff]
    constructor
    · rintro ⟨⟨j, hj⟩, ho⟩
      have hji : j ≠ i := by
        rintro rfl
        exact ho hj.2.symm
      exact ⟨j, (RuntimeSyscallTable.refers_set_of_ne hji).mpr hj⟩
    · rintro ⟨j, hj⟩
      have hj' := (RuntimeSyscallTable.refers_set_of_ne (hne hj)).mp hj
      refine ⟨⟨j, hj'⟩, ?_⟩
      rintro rfl
      exact hne hj (honly j hj')
  · rw [RuntimeSyscallTable.clear, RuntimeSyscallTable.set_handles_of_ne (hne ha),
      RuntimeSyscallTable.set_handles_of_ne (hne hb)]
    exact h.owner ((RuntimeSyscallTable.refers_set_of_ne (hne ha)).mp ha)
      ((RuntimeSyscallTable.refers_set_of_ne (hne hb)).mp hb)

theorem HandlesBalanced.create (h : HandlesBalanced kind live table) (hfree : table.Free i)
    {entry : RuntimeHandleInfo} (htype : entry.type = kind.type)
    (hfresh : ¬ live entry.object) (hlive : ∀ o, live' o ↔ live o ∨ o = entry.object) :
    HandlesBalanced kind live' (table.set i entry) := by
  have hnone : ∀ j, ¬ table.Refers kind j entry.object := by
    intro j hj
    exact hfresh ((h.live_iff _).mpr ⟨j, hj⟩)
  have hcases : ∀ {j o}, (table.set i entry).Refers kind j o →
      (j = i ∧ o = entry.object) ∨ (j ≠ i ∧ table.Refers kind j o) := by
    intro j o hj
    by_cases hji : j = i
    · subst hji
      exact Or.inl ⟨rfl, (RuntimeSyscallTable.refers_set_self.mp hj).2.symm⟩
    · exact Or.inr ⟨hji, (RuntimeSyscallTable.refers_set_of_ne hji).mp hj⟩
  refine ⟨fun o ↦ ?_, fun {a b o} ha hb ↦ ?_⟩
  · rw [hlive, h.live_iff]
    constructor
    · rintro (⟨j, hj⟩ | rfl)
      · have hji : j ≠ i := by
          rintro rfl
          exact hfree.not_refers hj
        exact ⟨j, (RuntimeSyscallTable.refers_set_of_ne hji).mpr hj⟩
      · exact ⟨i, RuntimeSyscallTable.refers_set_self.mpr ⟨htype, rfl⟩⟩
    · rintro ⟨j, hj⟩
      obtain ⟨-, ho⟩ | ⟨-, hj⟩ := hcases hj
      · exact Or.inr ho
      · exact Or.inl ⟨j, hj⟩
  · obtain ⟨rfl, rfl⟩ | ⟨hai, ha'⟩ := hcases ha
    · obtain ⟨rfl, -⟩ | ⟨-, hb'⟩ := hcases hb
      · rfl
      · exact absurd hb' (hnone b)
    · obtain ⟨rfl, rfl⟩ | ⟨hbi, hb'⟩ := hcases hb
      · exact absurd ha' (hnone a)
      · rw [RuntimeSyscallTable.set_handles_of_ne hai, RuntimeSyscallTable.set_handles_of_ne hbi]
        exact h.owner ha' hb'

theorem HandlesBalanced.dup (h : HandlesBalanced kind live table) (hfree : table.Free j)
    (hused : ¬ table.Free i) {number : UInt32} :
    HandlesBalanced kind live
      (table.set j ⟨number, (table.handles i).ownerPid, (table.handles i).type,
      (table.handles i).object⟩) := by
  have hji : j ≠ i := by
    rintro rfl
    exact hused hfree
  have hself : ∀ {o}, (table.set j ⟨number, (table.handles i).ownerPid, (table.handles i).type,
      (table.handles i).object⟩).Refers kind j o ↔ table.Refers kind i o :=
    RuntimeSyscallTable.refers_set_self
  -- every handle has one with the same owner in the old table
  have hold : ∀ {a o}, (table.set j ⟨number, (table.handles i).ownerPid, (table.handles i).type,
      (table.handles i).object⟩).Refers kind a o → ∃ b, table.Refers kind b o ∧
      ((table.set j ⟨number, (table.handles i).ownerPid, (table.handles i).type,
        (table.handles i).object⟩).handles a).ownerPid = (table.handles b).ownerPid := by
    intro a o ha
    by_cases haj : a = j
    · subst haj
      exact ⟨i, hself.mp ha, by rw [RuntimeSyscallTable.set_handles_self]⟩
    · exact ⟨a, (RuntimeSyscallTable.refers_set_of_ne haj).mp ha,
        by rw [RuntimeSyscallTable.set_handles_of_ne haj]⟩
  refine ⟨fun o ↦ (h.live_iff o).trans ⟨?_, ?_⟩, fun {a b o} ha hb ↦ ?_⟩
  · rintro ⟨a, ha⟩
    have haj : a ≠ j := by
      rintro rfl
      exact hfree.not_refers ha
    exact ⟨a, (RuntimeSyscallTable.refers_set_of_ne haj).mpr ha⟩
  · rintro ⟨a, ha⟩
    obtain ⟨b, hb, -⟩ := hold ha
    exact ⟨b, hb⟩
  · obtain ⟨a', ha', hea⟩ := hold ha
    obtain ⟨b', hb', heb⟩ := hold hb
    rw [hea, heb]
    exact h.owner ha' hb'

end Balance

/-! ## The balance along a move -/

section Moves

variable {ops : RuntimeSyscallOps ω} {Inv : SyscallWorld ω → Prop} {kind : ObjectKind}
  {live : SyscallWorld ω → UInt32 → Prop} {table table' : RuntimeSyscallTable}
  {w w' : SyscallWorld ω} {number : RuntimeSyscallNumber} {args : RuntimeSyscallArgs}

/-- **The closing of a handle keeps the balance.** -/
theorem CloseMove.balanced (hops : Honest ops Inv kind live) (hinv : Inv w)
    (h : HandlesBalanced kind (live w) table) (hmove : CloseMove ops table w table' w') :
    Inv w' ∧ HandlesBalanced kind (live w') table' := by
  -- an object that the table refers to is there
  have hlive : ∀ {i}, (table.handles i).type = kind.type → live w (table.handles i).object :=
    fun {i} htype ↦ (h.live_iff _).mpr ⟨i, htype, rfl⟩
  cases hmove with
  | keeps => exact ⟨hinv, h⟩
  | drops hdrop _ =>
    refine ⟨hinv, h.drop (hdrop.imp_left fun hprocess hkind ↦ ?_)⟩
    exact kind.type_ne_process (hkind.symm.trans hprocess)
  | @destroys kind' i _ htype hlast hdestroys =>
    by_cases hkind : kind' = kind
    · subst hkind
      obtain ⟨hinv', -, hafter⟩ := hops.destroys hinv (hlive htype) hdestroys
      exact ⟨hinv', h.destroy htype hlast hafter⟩
    · obtain ⟨hinv', hafter⟩ := hops.otherDestroys hkind hinv hdestroys
      refine ⟨hinv', (h.drop (Or.inl fun htype' ↦ hkind ?_)).congr hafter⟩
      exact ObjectKind.type_injective (htype.symm.trans htype')
  | @refuses kind' i _ htype hdestroys =>
    by_cases hkind : kind' = kind
    · subst hkind
      obtain ⟨-, htrue, -⟩ := hops.destroys hinv (hlive htype) hdestroys
      cases htrue
    · obtain ⟨hinv', hafter⟩ := hops.otherDestroys hkind hinv hdestroys
      exact ⟨hinv', h.congr hafter⟩
  | @forgets i htype hnone =>
    refine ⟨hinv, h.drop (Or.inl fun htype' ↦ ?_)⟩
    obtain rfl : kind = .service := ObjectKind.type_injective (htype'.symm.trans htype)
    refine hops.destroyable hinv (hlive htype) ?_
    rw [RuntimeSyscallOps.destroy, hnone]
    rfl

/-- **A call keeps the balance**, unless it makes an event or a mailbox with a full table. -/
theorem SyscallMove.balanced (hops : Honest ops Inv kind live) (hinv : Inv w)
    (h : HandlesBalanced kind (live w) table)
    (hroom : number = .eventCreate ∧ kind = .event ∨ number = .mailboxCreate ∧ kind = .mailbox →
      table.Full → ∀ object w', ¬ Creates ops args kind w (some object) w')
    (hmove : SyscallMove ops (fun w w' ↦ Inv w → Inv w' ∧ ∀ o, live w' o ↔ live w o) number args
      table w table' w') :
    Inv w' ∧ HandlesBalanced kind (live w') table' := by
  cases hmove with
  | quiet hR =>
    obtain ⟨hinv', hafter⟩ := hR hinv
    exact ⟨hinv', h.congr hafter⟩
  | closes _ hclose => exact hclose.balanced hops hinv h
  | grants _ hR hfree =>
    obtain ⟨hinv', hafter⟩ := hR hinv
    exact ⟨hinv', (h.set_other hfree (Ne.symm kind.type_ne_process)).congr hafter⟩
  | dups _ _ hused hfree => exact ⟨hinv, h.dup hfree hused⟩
  | @fails kind' _ hfails =>
    by_cases hkind : kind' = kind
    · subst hkind
      obtain ⟨hinv', hafter⟩ := hops.fails hinv hfails
      exact ⟨hinv', h.congr hafter⟩
    · obtain ⟨hinv', hafter⟩ := hops.otherCreates hkind hinv hfails
      exact ⟨hinv', h.congr hafter⟩
  | @returns kind' _ _ hfails hfree =>
    by_cases hkind : kind' = kind
    · subst hkind
      obtain ⟨hinv', hafter⟩ := hops.fails hinv hfails
      exact ⟨hinv', (h.clear_free hfree).congr hafter⟩
    · obtain ⟨hinv', hafter⟩ := hops.otherCreates hkind hinv hfails
      exact ⟨hinv', (h.clear_free hfree).congr hafter⟩
  | @creates kind' _ _ _ _ hcreates hfree =>
    by_cases hkind : kind' = kind
    · subst hkind
      obtain ⟨hinv', hfresh, hafter⟩ := hops.creates hinv hcreates
      exact ⟨hinv', h.create hfree rfl hfresh hafter⟩
    · obtain ⟨hinv', hafter⟩ := hops.otherCreates hkind hinv hcreates
      refine ⟨hinv', (h.set_other hfree fun htype ↦ hkind ?_).congr hafter⟩
      exact ObjectKind.type_injective htype
  | @leaks kind' _ _ hnumber hcreates hfull =>
    by_cases hkind : kind' = kind
    · subst hkind
      exact absurd hcreates (hroom hnumber hfull _ _)
    · obtain ⟨hinv', hafter⟩ := hops.otherCreates hkind hinv hcreates
      exact ⟨hinv', h.congr hafter⟩
  | @unwinds kind' object _ _ _ hcreates hdestroys _ =>
    by_cases hkind : kind' = kind
    · subst hkind
      obtain ⟨hinv₁, hfresh, hmade⟩ := hops.creates hinv hcreates
      obtain ⟨hinv', -, hafter⟩ := hops.destroys hinv₁ ((hmade _).mpr (Or.inr rfl)) hdestroys
      refine ⟨hinv', h.congr fun o ↦ ?_⟩
      rw [hafter, hmade]
      constructor
      · rintro ⟨ho | ho, hne⟩
        · exact ho
        · exact absurd ho hne
      · intro ho
        refine ⟨Or.inl ho, ?_⟩
        rintro rfl
        exact hfresh ho
    · obtain ⟨hinv₁, hmade⟩ := hops.otherCreates hkind hinv hcreates
      obtain ⟨hinv', hafter⟩ := hops.otherDestroys hkind hinv₁ hdestroys
      exact ⟨hinv', h.congr fun o ↦ (hafter o).trans (hmade o)⟩
  | @abandons kind' _ _ _ hcreates hnone _ =>
    by_cases hkind : kind' = kind
    · subst hkind
      obtain ⟨hinv', -, hmade⟩ := hops.creates hinv hcreates
      exact absurd hnone (hops.destroyable hinv' ((hmade _).mpr (Or.inr rfl)))
    · obtain ⟨hinv', hafter⟩ := hops.otherCreates hkind hinv hcreates
      exact ⟨hinv', h.congr hafter⟩

end Moves

/-! ## Runs -/

/-- The table and what lies behind it. -/
structure SyscallState (ω : Type) where
  table : RuntimeSyscallTable
  world : SyscallWorld ω

/-- One step: a call that `ok` permits, the release of the handles of a process, or something
elsewhere that neither makes nor destroys an object. -/
inductive HandleStep (ops : RuntimeSyscallOps ω) (Inv : SyscallWorld ω → Prop)
    (live : ObjectKind → SyscallWorld ω → UInt32 → Prop)
    (ok : SyscallState ω → UInt32 → RuntimeSyscallArgs → Prop) (s : SyscallState ω) :
    SyscallState ω → Prop
  | call {syscallNumber : UInt32} {args : RuntimeSyscallArgs} {status : Int}
      {table' : RuntimeSyscallTable} {w' : SyscallWorld ω} : ok s syscallNumber args →
      runtimeSyscallDispatch syscallNumber args ops s.table s.world = .ok (status, table', w') →
      HandleStep ops Inv live ok s ⟨table', w'⟩
  | release {ownerPid : UInt32} {released : ℕ} {table' : RuntimeSyscallTable}
      {w' : SyscallWorld ω} :
      runtimeSyscallReleaseOwnerHandles s.table ownerPid ops s.world = .ok (released, table', w') →
      HandleStep ops Inv live ok s ⟨table', w'⟩
  | elsewhere {w' : SyscallWorld ω} : Inv w' →
      (∀ kind o, live kind w' o ↔ live kind s.world o) → HandleStep ops Inv live ok s ⟨s.table, w'⟩

/-- The table is empty, and there are no objects. -/
def HandleStart (Inv : SyscallWorld ω → Prop) (live : ObjectKind → SyscallWorld ω → UInt32 → Prop)
    (s : SyscallState ω) : Prop :=
  s.table = runtimeSyscallTableInit ∧ Inv s.world ∧ ∀ kind o, ¬ live kind s.world o

/-- `EVENT_CREATE` and `MAILBOX_CREATE` find a free entry, or their callbacks make no object. -/
def HasRoom (ops : RuntimeSyscallOps ω) (s : SyscallState ω) (syscallNumber : UInt32)
    (args : RuntimeSyscallArgs) : Prop :=
  ∀ number kind, runtimeSyscallNumbers[syscallNumber.toNat]? = some number →
    number = .eventCreate ∧ kind = .event ∨ number = .mailboxCreate ∧ kind = .mailbox →
    s.table.Full → ∀ object w', ¬ Creates ops args kind s.world (some object) w'

section Runs

variable {ops : RuntimeSyscallOps ω} {Inv : SyscallWorld ω → Prop}
  {live : ObjectKind → SyscallWorld ω → UInt32 → Prop} {s s' : SyscallState ω}

theorem balanced_init (kind : ObjectKind) {live : UInt32 → Prop} (h : ∀ o, ¬ live o) :
    HandlesBalanced kind live runtimeSyscallTableInit := by
  have hfree : ∀ i, runtimeSyscallTableInit.Free i := fun _ ↦ rfl
  refine ⟨fun o ↦ iff_of_false (h o) ?_, fun {i j o} hi ↦ absurd hi (hfree i).not_refers⟩
  rintro ⟨i, hi⟩
  exact (hfree i).not_refers hi

/-- **A step keeps the balance of every kind.** -/
theorem HandleStep.balanced (hops : ∀ kind, Honest ops Inv kind (live kind))
    (h : Inv s.world ∧ ∀ kind, HandlesBalanced kind (live kind s.world) s.table)
    (hstep : HandleStep ops Inv live (HasRoom ops) s s') :
    Inv s'.world ∧ ∀ kind, HandlesBalanced kind (live kind s'.world) s'.table := by
  obtain ⟨hinv, hbalanced⟩ := h
  cases hstep with
  | @call syscallNumber args _ table' w' hroom hcall =>
    have hkind : ∀ kind, Inv w' ∧ HandlesBalanced kind (live kind w') table' := by
      intro kind
      obtain ⟨rfl, rfl⟩ | ⟨number, hnumber, hmove⟩ := dispatch_move (hops kind).others hcall
      · exact ⟨hinv, hbalanced kind⟩
      · exact hmove.balanced (hops kind) hinv (hbalanced kind) (hroom number kind hnumber)
    exact ⟨(hkind .event).1, fun kind ↦ (hkind kind).2⟩
  | @release _ _ table' w' hcall =>
    have hkind : ∀ kind, Inv w' ∧ HandlesBalanced kind (live kind w') table' := by
      intro kind
      exact releaseOwnerHandles_invariant
        (J := fun table w ↦ Inv w ∧ HandlesBalanced kind (live kind w) table)
        (fun hJ hmove ↦ hmove.balanced (hops kind) hJ.1 hJ.2) ⟨hinv, hbalanced kind⟩ hcall
    exact ⟨(hkind .event).1, fun kind ↦ (hkind kind).2⟩
  | elsewhere hinv' hlive => exact ⟨hinv', fun kind ↦ (hbalanced kind).congr (hlive kind)⟩

/-- **No object is lost** in a run in which every event and every mailbox is made with a free entry:
the objects that are made and not yet destroyed are those that the table refers to. -/
theorem objects_balanced (hops : ∀ kind, Honest ops Inv kind (live kind))
    (h : Reachable (HandleStart Inv live) (HandleStep ops Inv live (HasRoom ops)) s)
    (kind : ObjectKind) (object : UInt32) :
    live kind s.world object ↔ ∃ i, s.table.Refers kind i object := by
  refine (Reachable.invariant (P := fun s ↦ Inv s.world ∧
    ∀ kind, HandlesBalanced kind (live kind s.world) s.table) (fun s hs ↦ ?_)
    (fun s s' hs hstep ↦ hstep.balanced hops hs) h).2 kind |>.live_iff object
  obtain ⟨htable, hinv, hnone⟩ := hs
  rw [htable]
  exact ⟨hinv, fun kind ↦ balanced_init kind (hnone kind)⟩

/-- Calls one after the other, as long as they are allowed. -/
def runCalls (ops : RuntimeSyscallOps ω) (allowed : SyscallState ω → Bool) :
    List (UInt32 × RuntimeSyscallArgs) → SyscallState ω → Option (SyscallState ω)
  | [], s => some s
  | (syscallNumber, args) :: rest, s =>
    match runtimeSyscallDispatch syscallNumber args ops s.table s.world with
    | .error _ => none
    | .ok (_, table, w) => if allowed s then runCalls ops allowed rest ⟨table, w⟩ else none

theorem reachable_runCalls {ok : SyscallState ω → UInt32 → RuntimeSyscallArgs → Prop}
    {allowed : SyscallState ω → Bool} {start : SyscallState ω → Prop}
    (hok : ∀ s syscallNumber args, allowed s = true → ok s syscallNumber args)
    {calls : List (UInt32 × RuntimeSyscallArgs)}
    (h : Reachable start (HandleStep ops Inv live ok) s)
    (hrun : runCalls ops allowed calls s = some s') :
    Reachable start (HandleStep ops Inv live ok) s' := by
  induction calls generalizing s with
  | nil =>
    cases hrun
    exact h
  | cons call rest ih =>
    obtain ⟨syscallNumber, args⟩ := call
    rw [runCalls] at hrun
    split at hrun
    · cases hrun
    · next hcall =>
      split at hrun
      · next hallowed => exact ih (.step h (.call (hok _ _ _ hallowed) hcall)) hrun
      · cases hrun

end Runs

/-! ## A leak -/

/-- The largest of the live events plus one, or null when this is too large. -/
def nextEvent (events : List UInt32) : UInt32 :=
  let next := (events.map UInt32.toNat).foldr max 0 + 1
  if next < 2 ^ 32 then UInt32.ofNat next else 0

/-- Callbacks for events alone; the context is the list of live events. -/
def eventOps : RuntimeSyscallOps (List UInt32) where
  processCurrentPid := some fun _ ↦ 1
  eventCreate := some fun w ↦
    let event := nextEvent w.context
    .ok (event, if event = 0 then w else { w with context := event :: w.context })
  eventDestroy := some fun event w ↦ .ok (1, { w with context := w.context.filter (· ≠ event) })

/-- The live objects behind these callbacks. -/
def liveEvents (kind : ObjectKind) (w : SyscallWorld (List UInt32)) (object : UInt32) : Prop :=
  kind = .event ∧ object ∈ w.context

theorem nextEvent_not_mem {events : List UInt32} (h : nextEvent events ≠ 0) :
    nextEvent events ∉ events := by
  intro hmem
  have hle : ∀ {l : List ℕ} {a : ℕ}, a ∈ l → a ≤ l.foldr max 0 := by
    intro l a ha
    induction l with
    | nil => cases ha
    | cons b l ih =>
      obtain rfl | ha := List.mem_cons.mp ha
      · exact le_max_left ..
      · exact (ih ha).trans (le_max_right ..)
  have hmax := hle (List.mem_map_of_mem (f := UInt32.toNat) hmem)
  rw [nextEvent] at hmax h
  split at hmax
  · next hlt =>
    rw [UInt32.toNat_ofNat', Nat.mod_eq_of_lt hlt] at hmax
    omega
  · next hlt => exact h (if_neg hlt)

/-- These callbacks make and destroy events and nothing else. -/
theorem creates_eventOps {args : RuntimeSyscallArgs} {kind : ObjectKind}
    {w w' : SyscallWorld (List UInt32)} {object : Option UInt32}
    (h : Creates eventOps args kind w object w') :
    kind = .event ∧ ((object = none ∧ w' = w) ∨ (object = some (nextEvent w.context) ∧
      nextEvent w.context ≠ 0 ∧ w'.context = nextEvent w.context :: w.context)) := by
  obtain ⟨f, hcreate, hf⟩ := h
  cases kind with
  | event =>
    obtain rfl := Option.some_inj.mp hcreate
    obtain ⟨event, hf, hobject⟩ := Callback.answers_eq_ok.mp hf
    simp only [Except.ok.injEq, Prod.mk.injEq] at hf
    obtain ⟨rfl, rfl⟩ := hf
    subst hobject
    by_cases hzero : nextEvent w.context = 0
    · exact ⟨rfl, Or.inl ⟨by simp [madeObject, hzero], if_pos hzero⟩⟩
    · exact ⟨rfl, Or.inr ⟨by simp [madeObject, hzero], hzero, by simp [hzero]⟩⟩
  | mailbox | file | service => cases hcreate

theorem destroys_eventOps {kind : ObjectKind} {object : UInt32}
    {w w' : SyscallWorld (List UInt32)} {destroyed : Bool}
    (h : Destroys eventOps kind object w destroyed w') :
    kind = .event ∧ destroyed = true ∧ w'.context = w.context.filter (· ≠ object) := by
  obtain ⟨f, hdestroy, hf⟩ := h
  cases kind with
  | event =>
    obtain rfl := Option.some_inj.mp hdestroy
    obtain ⟨result, hf, hresult⟩ := Callback.answers_eq_ok.mp hf
    simp only [Except.ok.injEq, Prod.mk.injEq] at hf
    obtain ⟨rfl, rfl⟩ := hf
    exact ⟨rfl, hresult.symm, rfl⟩
  | mailbox | file | service => cases hdestroy

theorem honest_eventOps (kind : ObjectKind) :
    Honest eventOps (fun _ ↦ True) kind (liveEvents kind) where
  others := by
    constructor
    case refl => exact fun _ _ ↦ ⟨trivial, fun _ ↦ Iff.rfl⟩
    case store => exact fun _ _ _ ↦ ⟨trivial, fun _ ↦ Iff.rfl⟩
    all_goals
      intro f hf
      cases hf
  creates _ h := by
    obtain ⟨rfl, ⟨⟨⟩, -⟩ | ⟨hobject, hne, hcontext⟩⟩ := creates_eventOps h
    cases hobject
    refine ⟨trivial, fun hlive ↦ nextEvent_not_mem hne hlive.2, fun o ↦ ?_⟩
    simp [liveEvents, hcontext, or_comm]
  fails _ h := by
    obtain ⟨rfl, ⟨-, rfl⟩ | ⟨⟨⟩, -⟩⟩ := creates_eventOps h
    exact ⟨trivial, fun _ ↦ Iff.rfl⟩
  destroys _ _ h := by
    obtain ⟨rfl, rfl, hcontext⟩ := destroys_eventOps h
    exact ⟨trivial, rfl, fun o ↦ by simp [liveEvents, hcontext]⟩
  destroyable _ hlive := by
    obtain ⟨rfl, -⟩ := hlive
    simp [RuntimeSyscallOps.destroy, eventOps]
  otherCreates hkind _ h := by
    obtain ⟨rfl, -⟩ := creates_eventOps h
    exact ⟨trivial, fun o ↦ iff_of_false (fun hlive ↦ hkind hlive.1.symm)
      fun hlive ↦ hkind hlive.1.symm⟩
  otherDestroys hkind _ h := by
    obtain ⟨rfl, -⟩ := destroys_eventOps h
    exact ⟨trivial, fun o ↦ iff_of_false (fun hlive ↦ hkind hlive.1.symm)
      fun hlive ↦ hkind hlive.1.symm⟩

/-- An empty table, and no events. -/
def eventStart : SyscallState (List UInt32) := ⟨runtimeSyscallTableInit, fun _ ↦ 0, []⟩

theorem handleStart_eventStart : HandleStart (fun _ ↦ True) liveEvents eventStart :=
  ⟨rfl, trivial, fun _ _ hlive ↦ by cases hlive.2⟩

/-- **An event is lost**: sixteen calls of `EVENT_CREATE` fill the table, and the event of the
seventeenth has no handle. -/
theorem object_leaked : ∃ s, Reachable (HandleStart (fun _ ↦ True) liveEvents)
      (HandleStep eventOps (fun _ ↦ True) liveEvents fun _ _ _ ↦ True) s ∧
    ¬ ∀ kind object, liveEvents kind s.world object ↔ ∃ i, s.table.Refers kind i object := by
  have hrun : ∃ s, runCalls eventOps (fun _ ↦ true)
      (List.replicate 17 (5, ⟨0, 0, 0, 0⟩)) eventStart = some s ∧
      17 ∈ s.world.context ∧ ∀ i, (s.table.handles i).object ≠ 17 := by
    refine ⟨(runCalls eventOps (fun _ ↦ true) (List.replicate 17 (5, ⟨0, 0, 0, 0⟩))
      eventStart).get (by decide +kernel), by rw [Option.some_get], ?_⟩
    decide +kernel
  obtain ⟨s, hrun, hlive, hnone⟩ := hrun
  refine ⟨s, reachable_runCalls (fun _ _ _ _ ↦ trivial) (.start handleStart_eventStart) hrun,
    fun h ↦ ?_⟩
  obtain ⟨i, -, hobject⟩ := (h .event 17).mp ⟨rfl, hlive⟩
  exact hnone i hobject

/-- An event with two handles, of which one is closed. -/
theorem objects_balanced_dup : ∃ s, runCalls eventOps (fun s ↦ ¬ s.table.Full)
      [(5, ⟨0, 0, 0, 0⟩), (13, ⟨1, 0, 0, 0⟩), (3, ⟨1, 0, 0, 0⟩)] eventStart = some s ∧
    ∀ kind object, liveEvents kind s.world object ↔ ∃ i, s.table.Refers kind i object := by
  have hrun : (runCalls eventOps (fun s ↦ ¬ s.table.Full)
      [(5, ⟨0, 0, 0, 0⟩), (13, ⟨1, 0, 0, 0⟩), (3, ⟨1, 0, 0, 0⟩)] eventStart).isSome := by
    decide +kernel
  obtain ⟨s, hrun⟩ := Option.isSome_iff_exists.mp hrun
  refine ⟨s, hrun, objects_balanced honest_eventOps (reachable_runCalls
    (fun s syscallNumber args hallowed ↦ ?_) (.start handleStart_eventStart) hrun)⟩
  intro number kind _ _ hfull
  exact absurd hfull (by simpa using hallowed)

end TensorOS
