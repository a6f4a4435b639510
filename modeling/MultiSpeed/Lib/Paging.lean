import Mathlib.Algebra.Order.Floor.Div
import Mathlib.Data.List.Basic
import Mathlib.Data.List.Flatten

/-!
# Pages of a list

A list is read page by page, each page as the elements that a limit and an offset leave.
-/

namespace Paging

variable {α : Type*} (l : List α) (size : ℕ)

/-- The page with the number `k`, counted from zero. -/
def page (k : ℕ) : List α := (l.drop (k * size)).take size

theorem length_page (k : ℕ) : (page l size k).length = min size (l.length - k * size) := by
  rw [page, List.length_take, List.length_drop]

theorem map_page {β : Type*} (f : α → β) (k : ℕ) : (page l size k).map f = page (l.map f) size k := by
  rw [page, List.map_take, List.map_drop, page]

/-- The first pages are the beginning of the list. -/
theorem flatten_pages (n : ℕ) :
    ((List.range n).map (page l size)).flatten = l.take (n * size) := by
  induction n with
  | zero => simp
  | succ n ih =>
      rw [List.range_succ, List.map_append, List.flatten_append, ih, Nat.succ_mul, List.take_add]
      simp [page]

variable {size}

theorem lt_pages_iff (hsize : 0 < size) {n : ℕ} : n < l.length ⌈/⌉ size ↔ n * size < l.length := by
  rw [← not_le, ceilDiv_le_iff_le_mul hsize, not_le, mul_comm]

/-- All pages are the list. -/
theorem flatten_all_pages (hsize : 0 < size) :
    ((List.range (l.length ⌈/⌉ size)).map (page l size)).flatten = l := by
  rw [flatten_pages]
  apply List.take_of_length_le
  rw [mul_comm]
  exact (ceilDiv_le_iff_le_mul hsize).mp le_rfl

/-- A page that is not the last is full. -/
theorem length_page_of_lt (hsize : 0 < size) {k : ℕ} (hk : k + 1 < l.length ⌈/⌉ size) :
    (page l size k).length = size := by
  have hlt := (lt_pages_iff l hsize).mp hk
  rw [Nat.succ_mul] at hlt
  rw [length_page]
  omega

/-- A page is empty exactly beyond the last. -/
theorem page_eq_nil_iff (hsize : 0 < size) {k : ℕ} :
    page l size k = [] ↔ l.length ⌈/⌉ size ≤ k := by
  rw [← List.length_eq_zero_iff, length_page, ← not_lt, lt_pages_iff l hsize]
  omega

/-- The quotient that is rounded up where something is left. -/
theorem ceilDiv_eq (a : ℕ) {b : ℕ} (hb : 0 < b) :
    a ⌈/⌉ b = if a % b = 0 then a / b else a / b + 1 := by
  rw [Nat.ceilDiv_eq_add_pred_div]
  have hdiv := Nat.div_add_mod a b
  have hmod := Nat.mod_lt a hb
  split
  · rename_i hzero
    have hsum : a + b - 1 = b * (a / b) + (b - 1) := by omega
    rw [hsum, Nat.mul_add_div hb, Nat.div_eq_of_lt (by omega : b - 1 < b), add_zero]
  · rename_i hrest
    have hsum : a + b - 1 = b * (a / b + 1) + (a % b - 1) := by
      rw [mul_add, mul_one]
      omega
    rw [hsum, Nat.mul_add_div hb, Nat.div_eq_of_lt (by omega : a % b - 1 < b), add_zero]

theorem ceilDiv_le_self (a : ℕ) {b : ℕ} (hb : 0 < b) : a ⌈/⌉ b ≤ a := by
  rw [ceilDiv_le_iff_le_mul hb]
  exact Nat.le_mul_of_pos_left a hb

end Paging
