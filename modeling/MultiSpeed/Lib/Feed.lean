import Mathlib.Data.List.TakeDrop
import Mathlib.Tactic.Common

/-!
# Readers of a growing log

A feed is a log that only grows at its end.  A reader joins it at some length of
the log and is meant to see everything from there on, until it leaves.  A window
holds these two lengths, and its view is the contiguous part of the log between
them, or up to the end as long as the reader has not left.
-/

namespace Feed

variable {α : Type*}

/-- The lengths of the log at which a reader joined and left. -/
structure Window where
  start : ℕ
  stop : Option ℕ
  deriving DecidableEq, Repr

namespace Window

/-- The reader has not left. -/
def isOpen (w : Window) : Bool := w.stop.isNone

/-- What the reader is meant to see of a log. -/
def view (w : Window) (log : List α) : List α :=
  match w.stop with
  | none => log.drop w.start
  | some stop => (log.take stop).drop w.start

/-- The ends of the window lie within the log. -/
structure Fits (w : Window) (log : List α) : Prop where
  start_le : w.start ≤ log.length
  stop_le : ∀ stop ∈ w.stop, w.start ≤ stop ∧ stop ≤ log.length

/-- The window of a reader that joins now. -/
def join (log : List α) : Window := ⟨log.length, none⟩

/-- The reader leaves at the present length of the log. -/
def leave (w : Window) (log : List α) : Window := { w with stop := some log.length }

theorem fits_join (log : List α) : (join log).Fits log :=
  ⟨Nat.le_refl _, fun _ h ↦ by cases h⟩

@[simp] theorem view_join (log : List α) : (join log).view log = [] := by
  simp [join, view]

theorem Fits.leave {w : Window} {log : List α} (h : w.Fits log) : (w.leave log).Fits log where
  start_le := h.start_le
  stop_le stop hstop := by
    obtain rfl := Option.some.inj hstop
    exact ⟨h.start_le, Nat.le_refl _⟩

theorem Fits.append {w : Window} {log : List α} (h : w.Fits log) (a : α) :
    w.Fits (log ++ [a]) where
  start_le := by
    rw [List.length_append]
    exact Nat.le_add_right_of_le h.start_le
  stop_le stop hstop := by
    obtain ⟨hlow, hhigh⟩ := h.stop_le stop hstop
    rw [List.length_append]
    exact ⟨hlow, Nat.le_add_right_of_le hhigh⟩

/-- A reader that leaves keeps what it has seen. -/
theorem view_leave {w : Window} (hopen : w.isOpen = true) (log : List α) :
    (w.leave log).view log = w.view log := by
  have hstop : w.stop = none := Option.isNone_iff_eq_none.mp hopen
  simp [view, leave, hstop]

/-- A reader that has not left sees each new entry. -/
theorem view_append_open {w : Window} {log : List α} (h : w.Fits log) (hopen : w.isOpen = true)
    (a : α) : w.view (log ++ [a]) = w.view log ++ [a] := by
  have hstop : w.stop = none := Option.isNone_iff_eq_none.mp hopen
  simp only [view, hstop]
  exact List.drop_append_of_le_length h.start_le

/-- New entries are not shown to a reader that has left. -/
theorem view_append_left {w : Window} {log : List α} (h : w.Fits log) (hleft : w.isOpen = false)
    (a : α) : w.view (log ++ [a]) = w.view log := by
  obtain ⟨stop, hstop⟩ : ∃ stop, w.stop = some stop := by
    rw [isOpen, Option.isNone_eq_false_iff] at hleft
    exact Option.isSome_iff_exists.mp hleft
  simp only [view, hstop]
  rw [List.take_append_of_le_length (h.stop_le stop hstop).2]

end Window

end Feed
