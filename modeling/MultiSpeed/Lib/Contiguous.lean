import Mathlib.Data.List.Destutter
import Mathlib.Tactic.Common

/-!
# Lists without returning values

A list has no returns when equal elements have nothing else between them.  These
are the lists that lose all repetitions when adjacent repetitions are dropped.
-/

namespace List

variable {α : Type*}

/-- Between two equal elements there is only that element. -/
def NoReturn (l : List α) : Prop := ∀ a b, [a, b, a] <+ l → b = a

theorem NoReturn.sublist {l l' : List α} (h : NoReturn l') (hsub : l <+ l') : NoReturn l :=
  fun a b hab ↦ h a b (hab.trans hsub)

theorem noReturn_nil : NoReturn ([] : List α) := by
  intro a b h
  cases h

variable [DecidableEq α]

theorem mem_destutter'_ne {k x : α} {l : List α} (hx : x ≠ k) :
    x ∈ destutter' (· ≠ ·) k l ↔ x ∈ l := by
  induction l generalizing k with
  | nil => simp [hx]
  | cons y l ih =>
      by_cases hy : k ≠ y
      · rw [destutter'_cons_pos l hy, mem_cons, mem_cons]
        by_cases hxy : x = y
        · subst hxy
          simp [mem_destutter']
        · simp [hx, hxy, ih hxy]
      · obtain rfl : k = y := not_not.mp hy
        rw [destutter'_cons_neg l (by simp), ih hx]
        simp [hx]

/-- Dropping adjacent repetitions removes all repetitions exactly when no value
returns. -/
theorem nodup_destutter'_iff {k : α} {l : List α} :
    (destutter' (· ≠ ·) k l).Nodup ↔ NoReturn (k :: l) := by
  induction l generalizing k with
  | nil =>
      simp only [destutter'_nil, nodup_singleton, true_iff]
      intro a b h
      have hlength := h.length_le
      simp at hlength
  | cons y l ih =>
      by_cases hy : k = y
      · subst hy
        rw [destutter'_cons_neg l (by simp), ih]
        refine ⟨fun h a b hab ↦ ?_, fun h ↦ h.sublist (sublist_cons_self _ _)⟩
        cases hab with
        | cons _ hab => exact h a b hab
        | cons_cons _ hab =>
            cases hab with
            | cons_cons => rfl
            | cons _ hab => exact h k b (hab.cons_cons k)
      · rw [destutter'_cons_pos l hy, nodup_cons, ih]
        rw [mem_destutter'_ne hy]
        constructor
        · rintro ⟨hfresh, h⟩ a b hab
          cases hab with
          | cons _ hab => exact h a b hab
          | cons_cons _ hab =>
              cases hab with
              | cons_cons _ hab => exact absurd (singleton_sublist.mp hab) hfresh
              | cons _ hab =>
                  exact absurd (singleton_sublist.mp ((sublist_cons_self b [k]).trans hab))
                    hfresh
        · intro h
          refine ⟨fun hmem ↦ hy ?_, h.sublist (sublist_cons_self _ _)⟩
          have hsub : [k, y, k] <+ k :: y :: l :=
            ((singleton_sublist.mpr hmem).cons_cons y).cons_cons k
          exact (h k y hsub).symm

end List
