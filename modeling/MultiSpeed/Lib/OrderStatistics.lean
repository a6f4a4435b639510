import Mathlib.Data.List.Perm.Basic
import Mathlib.Order.Bounds.Basic
import Mathlib.Order.Defs.LinearOrder
import Mathlib.Tactic.Common

/-!
# Order statistics

The value at a place of a sorted list, described by how many values of the list are below
it and how many do not exceed it.  The description does not mention the order of the list.
-/

namespace OrderStatistics

variable {α : Type*} [LinearOrder α]

/-- The number of values that do not exceed `v`. -/
def atMost (l : List α) (v : α) : ℕ := l.countP fun x ↦ decide (x ≤ v)

/-- The number of values below `v`. -/
def below (l : List α) (v : α) : ℕ := l.countP fun x ↦ decide (x < v)

/-- The value at the place `k` in the order of the list, counted from zero. -/
structure IsStatistic (l : List α) (k : ℕ) (v : α) : Prop where
  mem : v ∈ l
  below_le : below l v ≤ k
  lt_atMost : k < atMost l v

variable {l l' : List α} {k : ℕ} {v w : α}

theorem atMost_perm (h : l.Perm l') (v : α) : atMost l v = atMost l' v := h.countP_eq _

theorem below_perm (h : l.Perm l') (v : α) : below l v = below l' v := h.countP_eq _

theorem atMost_le_below (h : v < w) (l : List α) : atMost l v ≤ below l w := by
  apply List.countP_mono_left
  intro x _ hx
  exact decide_eq_true ((of_decide_eq_true hx).trans_lt h)

theorem IsStatistic.perm (h : IsStatistic l k v) (hperm : l.Perm l') : IsStatistic l' k v where
  mem := hperm.mem_iff.mp h.mem
  below_le := below_perm hperm v ▸ h.below_le
  lt_atMost := atMost_perm hperm v ▸ h.lt_atMost

/-- What stands between the lesser and the greater values. -/
theorem isStatistic_append {lesser greater : List α} (hlesser : ∀ x ∈ lesser, x ≤ v)
    (hgreater : ∀ x ∈ greater, v ≤ x) :
    IsStatistic (lesser ++ v :: greater) lesser.length v := by
  refine ⟨List.mem_append_right _ List.mem_cons_self, ?_, ?_⟩
  · have hnone : (v :: greater).countP (fun x ↦ decide (x < v)) = 0 := by
      rw [List.countP_eq_zero]
      intro x hx hlt
      rcases List.mem_cons.mp hx with rfl | hx
      · exact lt_irrefl _ (of_decide_eq_true hlt)
      · exact (of_decide_eq_true hlt).not_ge (hgreater x hx)
    rw [below, List.countP_append, hnone, Nat.add_zero]
    exact List.countP_le_length
  · have hall : lesser.countP (fun x ↦ decide (x ≤ v)) = lesser.length := by
      rw [List.countP_eq_length]
      exact fun x hx ↦ decide_eq_true (hlesser x hx)
    have hself : 0 < (v :: greater).countP fun x ↦ decide (x ≤ v) :=
      List.countP_pos_iff.mpr ⟨v, List.mem_cons_self, decide_eq_true le_rfl⟩
    rw [atMost, List.countP_append, hall]
    omega

theorem isStatistic_getElem (hl : l.Pairwise (· ≤ ·)) (hk : k < l.length) :
    IsStatistic l k l[k] := by
  have hsplit : l.take k ++ l[k] :: l.drop (k + 1) = l := by
    rw [← List.drop_eq_getElem_cons hk, List.take_append_drop]
  have hlength : (l.take k).length = k := List.length_take_of_le hk.le
  have hsorted := hsplit.symm ▸ hl
  obtain ⟨-, hafter, hbefore⟩ := List.pairwise_append.mp hsorted
  have h := isStatistic_append (fun x hx ↦ hbefore x hx _ List.mem_cons_self)
    (List.pairwise_cons.mp hafter).1
  rwa [hsplit, hlength] at h

/-- The value at a place is the least that enough values do not exceed. -/
theorem IsStatistic.isLeast (h : IsStatistic l k v) :
    IsLeast {w | w ∈ l ∧ k < atMost l w} v := by
  refine ⟨⟨h.mem, h.lt_atMost⟩, ?_⟩
  rintro w ⟨-, hw⟩
  by_contra hlt
  have hle := atMost_le_below (not_le.mp hlt) l
  have hbelow := h.below_le
  omega

theorem IsStatistic.le_of_le {j : ℕ} (hv : IsStatistic l j v) (hw : IsStatistic l k w)
    (hjk : j ≤ k) : v ≤ w :=
  hv.isLeast.2 ⟨hw.mem, hjk.trans_lt hw.lt_atMost⟩

theorem IsStatistic.isLeast_first (h : IsStatistic l 0 v) : IsLeast {w | w ∈ l} v := by
  refine ⟨h.mem, ?_⟩
  intro w hw
  apply h.isLeast.2
  exact ⟨hw, List.countP_pos_iff.mpr ⟨w, hw, decide_eq_true le_rfl⟩⟩

theorem IsStatistic.isGreatest_last (h : IsStatistic l (l.length - 1) v) :
    IsGreatest {w | w ∈ l} v := by
  refine ⟨h.mem, ?_⟩
  intro w hw
  have hall : atMost l v = l.length := by
    have hle : atMost l v ≤ l.length := List.countP_le_length
    have hlt := h.lt_atMost
    omega
  exact of_decide_eq_true (List.countP_eq_length.mp hall w hw)

end OrderStatistics
