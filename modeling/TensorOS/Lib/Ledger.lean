import Mathlib

/-!
# Ledgers

A ledger is a list of entries about keys, the oldest first. A value is put under a key, and later it
is dropped or taken; putting a new value replaces the old one. `pending` is the value that a key has
at the end, and a ledger is valid when values are dropped and taken only where they are pending.

In a valid ledger every value that was put is pending at the end, or the next entry about its key
says what became of it (`Ledger.fate`), and every value that was taken was put before, with nothing
about its key in between (`Ledger.source`). So no value is lost, and none is taken twice.
-/

namespace TensorOS

/-- An entry: a value is put, dropped, or taken with a receipt. -/
inductive LedgerEntry (κ ν ε : Type*)
  | put (key : κ) (value : ν)
  | drop (key : κ)
  | take (key : κ) (value : ν) (receipt : ε)
  deriving DecidableEq

namespace LedgerEntry

variable {κ ν ε : Type*}

/-- The key that the entry is about. -/
def key : LedgerEntry κ ν ε → κ
  | put key _ | drop key | take key _ _ => key

/-- The value of its key after the entry. -/
def value : LedgerEntry κ ν ε → Option ν
  | put _ value => some value
  | drop _ | take _ _ _ => none

end LedgerEntry

namespace Ledger

variable {κ ν ε : Type*} [DecidableEq κ]

/-- The value that a key has at the end. -/
def pending (ledger : List (LedgerEntry κ ν ε)) (key : κ) : Option ν :=
  ledger.foldl (fun value entry ↦ if entry.key = key then entry.value else value) none

/-- The entry may follow a ledger: what is dropped or taken is pending, and the receipt suits it. -/
def Allows (suits : ν → ε → Prop) (ledger : List (LedgerEntry κ ν ε)) :
    LedgerEntry κ ν ε → Prop
  | .put _ _ => True
  | .drop key => pending ledger key ≠ none
  | .take key value receipt => pending ledger key = some value ∧ suits value receipt

/-- Every entry of the ledger was allowed. -/
inductive Valid (suits : ν → ε → Prop) : List (LedgerEntry κ ν ε) → Prop
  | nil : Valid suits []
  | snoc {ledger : List (LedgerEntry κ ν ε)} {entry : LedgerEntry κ ν ε} : Valid suits ledger →
      Allows suits ledger entry → Valid suits (ledger ++ [entry])

/-- No entry is about the key. -/
def Silent (ledger : List (LedgerEntry κ ν ε)) (key : κ) : Prop := ∀ entry ∈ ledger, entry.key ≠ key

variable {suits : ν → ε → Prop} {ledger older newer : List (LedgerEntry κ ν ε)}
  {entry : LedgerEntry κ ν ε} {key : κ} {value : ν}

@[simp] theorem pending_nil : pending ([] : List (LedgerEntry κ ν ε)) key = none := rfl

theorem pending_snoc : pending (ledger ++ [entry]) key =
    if entry.key = key then entry.value else pending ledger key := by
  rw [pending, List.foldl_append]
  rfl

theorem pending_snoc_self (h : entry.key = key) :
    pending (ledger ++ [entry]) key = entry.value := by
  rw [pending_snoc, if_pos h]

theorem pending_snoc_of_ne (h : entry.key ≠ key) :
    pending (ledger ++ [entry]) key = pending ledger key := by
  rw [pending_snoc, if_neg h]

theorem pending_append_of_silent (h : Silent newer key) :
    pending (older ++ newer) key = pending older key := by
  induction newer using List.reverseRecOn with
  | nil => rw [List.append_nil]
  | append_singleton newer entry ih =>
    have hentry : entry.key ≠ key := h entry (by simp)
    rw [← List.append_assoc, pending_snoc_of_ne hentry]
    exact ih fun entry hentry ↦ h entry (List.mem_append_left _ hentry)

/-- The oldest entry about a key. -/
theorem silent_or_split (ledger : List (LedgerEntry κ ν ε)) (key : κ) :
    Silent ledger key ∨ ∃ older entry newer, ledger = older ++ entry :: newer ∧
      Silent older key ∧ entry.key = key := by
  induction ledger with
  | nil => exact Or.inl fun entry hentry ↦ by cases hentry
  | cons entry ledger ih =>
    by_cases hkey : entry.key = key
    · refine Or.inr ⟨[], entry, ledger, rfl, ?_, hkey⟩
      intro entry hentry
      cases hentry
    · obtain hsilent | ⟨older, found, newer, rfl, hsilent, hfound⟩ := ih
      · exact Or.inl (List.forall_mem_cons.mpr ⟨hkey, hsilent⟩)
      · exact Or.inr ⟨entry :: older, found, newer, rfl,
          List.forall_mem_cons.mpr ⟨hkey, hsilent⟩, hfound⟩

/-- A value that is pending was put, and nothing about its key came after it. -/
theorem exists_put_of_pending (h : pending ledger key = some value) :
    ∃ older newer, ledger = older ++ .put key value :: newer ∧ Silent newer key := by
  induction ledger using List.reverseRecOn with
  | nil => cases h
  | append_singleton ledger entry ih =>
    rw [pending_snoc] at h
    split at h
    · next hkey =>
      cases entry with
      | put key' value' =>
        cases h
        cases hkey
        refine ⟨ledger, [], rfl, ?_⟩
        intro entry hentry
        cases hentry
      | drop | take => cases h
    · next hkey =>
      obtain ⟨older, newer, rfl, hsilent⟩ := ih h
      refine ⟨older, newer ++ [entry], by simp, ?_⟩
      intro entry' hentry
      obtain hentry | hentry := List.mem_append.mp hentry
      · exact hsilent entry' hentry
      · rw [List.mem_singleton.mp hentry]
        exact hkey

namespace Valid

theorem of_append (h : Valid suits (older ++ newer)) : Valid suits older := by
  induction newer using List.reverseRecOn with
  | nil => rwa [List.append_nil] at h
  | append_singleton newer entry ih =>
    rw [← List.append_assoc] at h
    generalize hsnoc : older ++ newer ++ [entry] = ledger at h
    cases h with
    | nil => simp at hsnoc
    | snoc hvalid _ =>
      obtain ⟨rfl, -⟩ := List.append_inj' hsnoc rfl
      exact ih hvalid

theorem allows (h : Valid suits (older ++ entry :: newer)) : Allows suits older entry := by
  rw [List.append_cons] at h
  replace h := h.of_append
  generalize hsnoc : older ++ [entry] = ledger at h
  cases h with
  | nil => simp at hsnoc
  | snoc _ hallows =>
    obtain ⟨rfl, hentry⟩ := List.append_inj' hsnoc rfl
    cases hentry
    exact hallows

end Valid

/-- What became of a value: it is still pending, or the next entry about its key replaces it, drops
it, or takes it. -/
def Fate (suits : ν → ε → Prop) (newer : List (LedgerEntry κ ν ε)) (key : κ) (value : ν) : Prop :=
  ∃ older entry rest, newer = older ++ entry :: rest ∧ Silent older key ∧
    ((∃ value', entry = .put key value') ∨ entry = .drop key ∨
      ∃ receipt, entry = .take key value receipt ∧ suits value receipt)

/-- **No value is lost.** -/
theorem fate (h : Valid suits (older ++ .put key value :: newer)) :
    (Silent newer key ∧ pending (older ++ .put key value :: newer) key = some value) ∨
      Fate suits newer key value := by
  have hpending : ∀ {mid}, Silent mid key →
      pending (older ++ .put key value :: mid) key = some value := by
    intro mid hsilent
    rw [List.append_cons, pending_append_of_silent hsilent]
    exact pending_snoc_self rfl
  obtain hsilent | ⟨mid, entry, rest, rfl, hsilent, hkey⟩ := silent_or_split newer key
  · exact Or.inl ⟨hsilent, hpending hsilent⟩
  · right
    refine ⟨mid, entry, rest, rfl, hsilent, ?_⟩
    rw [← List.cons_append, ← List.append_assoc] at h
    have hallows := h.allows
    cases entry with
    | put key' value' =>
      cases hkey
      exact Or.inl ⟨value', rfl⟩
    | drop key' =>
      cases hkey
      exact Or.inr (Or.inl rfl)
    | take key' value' receipt =>
      cases hkey
      obtain ⟨hvalue, hsuits⟩ := hallows
      obtain rfl : value = value' := Option.some_inj.mp ((hpending hsilent).symm.trans hvalue)
      exact Or.inr (Or.inr ⟨receipt, rfl, hsuits⟩)

/-- **No value is taken twice**: what was taken was put before, and nothing about its key came in
between. -/
theorem source {receipt : ε} (h : Valid suits (older ++ .take key value receipt :: newer)) :
    ∃ before between, older = before ++ .put key value :: between ∧ Silent between key := by
  obtain ⟨hpending, -⟩ := h.allows
  exact exists_put_of_pending hpending

end Ledger

end TensorOS
