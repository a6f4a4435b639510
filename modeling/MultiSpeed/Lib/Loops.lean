import Mathlib.Data.Finset.Insert
import Mathlib.Tactic.Common

/-!
# Loops that may fail

What holds of a loop that runs to its end, and loops that collect a set.
-/

namespace Loops

variable {ε : Type}

theorem bind_eq_ok {α β : Type} {x : Except ε α} {f : α → Except ε β} {b : β}
    (h : (x >>= f) = .ok b) : ∃ a, x = .ok a ∧ f a = .ok b := by
  cases x with
  | error e => cases h
  | ok a => exact ⟨a, rfl, h⟩

/-- What every turn of a loop keeps holds at its end. -/
theorem foldlM_invariant {α σ : Type} {f : σ → α → Except ε σ} {P : σ → Prop} {l : List α}
    (h : ∀ x ∈ l, ∀ s t, P s → f s x = .ok t → P t) {s t : σ} (hs : P s)
    (hfold : l.foldlM f s = .ok t) : P t := by
  induction l generalizing s with
  | nil => exact Except.ok.inj hfold ▸ hs
  | cons x l ih =>
      rw [List.foldlM_cons] at hfold
      obtain ⟨s', hstep, hrest⟩ := bind_eq_ok hfold
      exact ih (fun y hy ↦ h y (List.mem_cons_of_mem x hy))
        (h x List.mem_cons_self s s' hs hstep) hrest

/-- A loop that adds one value for each item, which `g` relates to the item. -/
theorem foldlM_insert {α β : Type} [DecidableEq β] {f : Finset β → α → Except ε (Finset β)}
    {g : α → β → Prop} {l : List α}
    (h : ∀ x ∈ l, ∃ b, (∀ b', g x b' ↔ b' = b) ∧ ∀ s, f s x = .ok (insert b s))
    (acc : Finset β) :
    ∃ result, l.foldlM f acc = .ok result ∧
      ∀ b, b ∈ result ↔ b ∈ acc ∨ ∃ x ∈ l, g x b := by
  induction l generalizing acc with
  | nil => exact ⟨acc, rfl, by simp⟩
  | cons x l ih =>
      obtain ⟨b, hb, hstep⟩ := h x List.mem_cons_self
      obtain ⟨result, hresult, hmem⟩ := ih (fun y hy ↦ h y (List.mem_cons_of_mem x hy))
        (insert b acc)
      refine ⟨result, ?_, ?_⟩
      · rw [List.foldlM_cons, hstep]
        exact hresult
      · intro b'
        rw [hmem, Finset.mem_insert, ← hb b']
        simp only [List.mem_cons, exists_eq_or_imp]
        rw [or_comm (a := g x b'), or_assoc]

end Loops
