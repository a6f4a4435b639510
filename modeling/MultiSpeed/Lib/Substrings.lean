import Mathlib.Data.List.Infix

/-!
# Occurrences of a text

Where a text occurs first in another one, and where last.
-/

namespace Substrings

variable {α : Type*}

theorem eq_append_of_prefix {sub s : List α} (h : sub <+: s) : s = sub ++ s.drop sub.length := by
  obtain ⟨after, rfl⟩ := h
  rw [List.drop_left]

variable [DecidableEq α]

/-- The place of the first occurrence. -/
def index (sub : List α) : List α → Option ℕ
  | [] => if sub = [] then some 0 else none
  | c :: s => if sub <+: c :: s then some 0 else (index sub s).map (· + 1)

/-- The place of the last occurrence. -/
def lastIndex (sub : List α) : List α → Option ℕ
  | [] => if sub = [] then some 0 else none
  | c :: s =>
      match lastIndex sub s with
      | some n => some (n + 1)
      | none => if sub <+: c :: s then some 0 else none

/-- What is found stands there. -/
theorem eq_of_lastIndex {sub s : List α} {n : ℕ} (h : lastIndex sub s = some n) :
    s = s.take n ++ sub ++ s.drop (n + sub.length) := by
  induction s generalizing n with
  | nil =>
      rw [lastIndex] at h
      split at h
      · rename_i hsub
        rw [hsub, List.take_nil, List.drop_nil, List.append_nil, List.append_nil]
      · cases h
  | cons c s ih =>
      rw [lastIndex] at h
      split at h
      · rename_i m hm
        obtain rfl := Option.some.inj h
        rw [Nat.add_right_comm, List.take_succ_cons, List.drop_succ_cons, List.cons_append,
          List.cons_append, ← ih hm]
      · split at h
        · rename_i hstart
          obtain rfl := Option.some.inj h
          rw [List.take_zero, List.nil_append, Nat.zero_add]
          exact eq_append_of_prefix hstart
        · cases h

theorem infix_of_lastIndex {sub s : List α} {n : ℕ} (h : lastIndex sub s = some n) :
    sub <:+: s :=
  ⟨s.take n, s.drop (n + sub.length), (eq_of_lastIndex h).symm⟩

/-- The last occurrence is one that no other one begins behind. -/
theorem lastIndex_append {sub after : List α} (hsub : sub ≠ [])
    (h : ¬sub <:+: sub.tail ++ after) (before : List α) :
    lastIndex sub (before ++ (sub ++ after)) = some before.length := by
  induction before with
  | nil =>
      cases sub with
      | nil => exact absurd rfl hsub
      | cons c sub =>
          have hnone : lastIndex (c :: sub) (sub ++ after) = none := by
            cases hlast : lastIndex (c :: sub) (sub ++ after) with
            | none => rfl
            | some n => exact absurd (infix_of_lastIndex hlast) h
          rw [List.nil_append, List.cons_append, lastIndex, hnone]
          exact if_pos (List.prefix_append (c :: sub) after)
  | cons c before ih =>
      rw [List.cons_append, lastIndex, ih]
      rfl

/-- The first occurrence is one that no other one ends before. -/
theorem index_append {sub before : List α} (hsub : sub ≠ [])
    (h : ¬sub <:+: before ++ sub.dropLast) (after : List α) :
    index sub (before ++ (sub ++ after)) = some before.length := by
  induction before with
  | nil =>
      cases sub with
      | nil => exact absurd rfl hsub
      | cons c sub =>
          rw [List.nil_append, List.cons_append, index]
          exact if_pos (List.prefix_append (c :: sub) after)
  | cons c before ih =>
      have hrest : ¬sub <:+: before ++ sub.dropLast := by
        intro hinfix
        rw [List.cons_append] at h
        exact h (List.infix_cons hinfix)
      have hhead : ¬sub <+: c :: (before ++ (sub ++ after)) := by
        intro hstart
        have hsplit : c :: (before ++ (sub ++ after)) =
            (c :: before ++ sub.dropLast) ++ (sub.getLast hsub :: after) := by
          conv_lhs => rw [← List.dropLast_append_getLast hsub]
          simp
        have hlength : sub.length ≤ (c :: before ++ sub.dropLast).length := by
          rw [List.length_append, List.length_cons, List.length_dropLast]
          omega
        rw [hsplit] at hstart
        exact h (List.prefix_of_prefix_length_le hstart (List.prefix_append _ _) hlength).isInfix
      rw [List.cons_append, index, if_neg hhead, ih hrest]
      rfl

end Substrings
