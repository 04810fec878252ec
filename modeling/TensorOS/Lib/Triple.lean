import Mathlib
import TensorOS.Lib.Partiality

/-!
# Triples for computations on a state that may fail

`Yields P x Q`: from every state with `P` the computation returns, and `Q` holds of what it returns
and of the state after it. There is one rule for each way a computation is put together; a loop
keeps an invariant.
-/

namespace TensorOS

variable {σ ε α β : Type}

/-- Total correctness. -/
def Yields (P : σ → Prop) (x : StateT σ (Except ε) α) (Q : α → σ → Prop) : Prop :=
  ∀ s, P s → ∃ a s', x s = .ok (a, s') ∧ Q a s'

namespace Yields

variable {P : σ → Prop} {Q : α → σ → Prop} {R : β → σ → Prop} {x : StateT σ (Except ε) α}

theorem pure {a : α} (h : ∀ s, P s → Q a s) :
    Yields P (Pure.pure a : StateT σ (Except ε) α) Q :=
  fun s hs ↦ ⟨a, s, rfl, h s hs⟩

theorem bind {f : α → StateT σ (Except ε) β} (hx : Yields P x Q)
    (hf : ∀ a, Yields (Q a) (f a) R) : Yields P (x >>= f) R := by
  intro s hs
  obtain ⟨a, s', hrun, hq⟩ := hx s hs
  obtain ⟨b, s'', hrest, hr⟩ := hf a s' hq
  refine ⟨b, s'', ?_, hr⟩
  rw [← hrest]
  exact congrArg (· >>= fun result ↦ f result.1 result.2) hrun

theorem bind_eq {f : α → StateT σ (Except ε) β} {a : α} {P' : σ → Prop}
    (hx : Yields P x fun b s ↦ b = a ∧ P' s) (hf : Yields P' (f a) R) : Yields P (x >>= f) R := by
  refine hx.bind fun b s hs ↦ ?_
  obtain ⟨rfl, hs⟩ := hs
  exact hf s hs

theorem total {f : σ → α × σ} (h : ∀ s, P s → Q (f s).1 (f s).2) :
    Yields P (fun s ↦ .ok (f s) : StateT σ (Except ε) α) Q :=
  fun s hs ↦ ⟨(f s).1, (f s).2, rfl, h s hs⟩

theorem lift {y : Except ε α} {a : α} (hy : y = .ok a) :
    Yields P (StateT.lift y : StateT σ (Except ε) α) fun b s ↦ b = a ∧ P s := by
  intro s hs
  exact ⟨a, s, by rw [hy]; rfl, rfl, hs⟩

theorem forM {l : List β} {body : β → StateT σ (Except ε) Unit}
    (h : ∀ b ∈ l, Yields P (body b) fun _ ↦ P) : Yields P (l.forM body) fun _ ↦ P := by
  induction l with
  | nil => exact pure fun _ hs ↦ hs
  | cons b l ih =>
    exact (h b List.mem_cons_self).bind fun _ ↦ ih fun c hc ↦ h c (List.mem_cons_of_mem b hc)

end Yields

end TensorOS
