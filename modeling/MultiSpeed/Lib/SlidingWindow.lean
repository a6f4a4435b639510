import Mathlib.Algebra.Order.Group.Defs
import Mathlib.Algebra.Order.Group.Unbundled.Basic
import Mathlib.Data.List.Basic
import Mathlib.Data.List.Induction
import Mathlib.Tactic.Common

/-!
# Limits over a sliding window

A limiter admits a request of a key if fewer than `limit` admitted requests of the key lie
in the window before it.  A log of decisions obeys this rule when every decision follows
from the decisions before it.  Then no window holds more than `limit` admitted requests of
a key, the requests alone determine the decisions, and the decisions for one key are those
of a limiter that sees no other key.
-/

namespace SlidingWindow

variable {κ τ : Type*}

structure Decision (κ τ : Type*) where
  key : κ
  time : τ
  admitted : Bool

/-- The request that was decided. -/
def Decision.request (d : Decision κ τ) : κ × τ := (d.key, d.time)

section Times

variable [DecidableEq κ]

/-- The times of the admitted requests of a key. -/
def admissions (log : List (Decision κ τ)) (k : κ) : List τ :=
  (log.filter fun d ↦ decide (d.key = k) && d.admitted).map Decision.time

@[simp] theorem admissions_nil (k : κ) :
    admissions ([] : List (Decision κ τ)) k = [] := rfl

theorem admissions_concat (log : List (Decision κ τ)) (d : Decision κ τ) (k : κ) :
    admissions (log ++ [d]) k =
      admissions log k ++ if d.key = k ∧ d.admitted = true then [d.time] else [] := by
  unfold admissions
  rw [List.filter_append, List.map_append]
  by_cases h : d.key = k ∧ d.admitted = true
  · simp [h]
  · simp [h]

theorem admissions_filter (log : List (Decision κ τ)) (k : κ) :
    admissions (log.filter fun d ↦ d.key = k) k = admissions log k := by
  unfold admissions
  rw [List.filter_filter]
  congr 1
  apply List.filter_congr
  intro d _
  by_cases h : d.key = k
  · simp [h]
  · simp [h]

theorem mem_admissions {log : List (Decision κ τ)} {k : κ} {t : τ} :
    t ∈ admissions log k ↔ ∃ d ∈ log, d.key = k ∧ d.admitted = true ∧ d.time = t := by
  simp only [admissions, List.mem_map, List.mem_filter, Bool.and_eq_true, decide_eq_true_eq,
    and_assoc]

end Times

section Window

variable [AddCommGroup τ] [LinearOrder τ]

/-- The times after the start of the window that ends at `now`. -/
def recent (window : τ) (times : List τ) (now : τ) : List τ :=
  times.filter fun t ↦ now - window < t

/-- Later windows see only what earlier windows saw. -/
theorem recent_recent [IsOrderedAddMonoid τ] (window : τ) (times : List τ) {now later : τ}
    (h : now ≤ later) : recent window (recent window times now) later =
      recent window times later := by
  unfold recent
  rw [List.filter_filter]
  apply List.filter_congr
  intro t _
  by_cases hlater : later - window < t
  · have hnow : now - window < t := (sub_le_sub_right h window).trans_lt hlater
    simp [hlater, hnow]
  · simp [hlater]

/-- Nothing of a sorted list is recent whose last time is not. -/
theorem recent_eq_nil {window now : τ} {times : List τ} (hsorted : times.Pairwise (· ≤ ·))
    (hlast : ∀ t ∈ times.getLast?, t ≤ now - window) : recent window times now = [] := by
  refine List.filter_eq_nil_iff.mpr fun t ht ↦ ?_
  rw [decide_eq_true_eq, not_lt]
  rcases List.eq_nil_or_concat times with rfl | ⟨front, last, rfl⟩
  · cases ht
  · rw [List.concat_eq_append] at *
    have hend : last ≤ now - window := hlast last (by simp)
    rcases List.mem_append.mp ht with hfront | hlast
    · have hle := (List.pairwise_append.mp hsorted).2.2 t hfront last List.mem_cons_self
      exact hle.trans hend
    · obtain rfl := List.mem_singleton.mp hlast
      exact hend

variable [DecidableEq κ] (limit : ℕ) (window : τ)

/-- The rule for a request after a log. -/
def allowed (log : List (Decision κ τ)) (k : κ) (now : τ) : Bool :=
  decide ((recent window (admissions log k) now).length < limit)

/-- Every decision follows the rule. -/
inductive Obeys : List (Decision κ τ) → Prop
  | nil : Obeys []
  | concat {log : List (Decision κ τ)} {d : Decision κ τ} (h : Obeys log)
      (hd : d.admitted = allowed limit window log d.key d.time) : Obeys (log ++ [d])

variable {limit window} {log log' : List (Decision κ τ)}

/-- No window holds more than the limit. -/
theorem Obeys.window_le [IsOrderedAddMonoid τ] (h : Obeys limit window log) (k : κ) (start : τ) :
    ((admissions log k).filter fun t ↦ start ≤ t ∧ t < start + window).length ≤ limit := by
  induction h with
  | nil => exact Nat.zero_le _
  | @concat log d _ hd ih =>
      rw [admissions_concat, List.filter_append, List.length_append]
      by_cases hnew : d.key = k ∧ d.admitted = true
      · by_cases hin : start ≤ d.time ∧ d.time < start + window
        · -- the others of the window are recent for the new one
          have hothers : ((admissions log k).filter fun t ↦
              start ≤ t ∧ t < start + window).length ≤
                (recent window (admissions log k) d.time).length := by
            apply List.Sublist.length_le
            apply List.monotone_filter_right
            intro t ht
            rw [decide_eq_true_eq] at ht ⊢
            exact (sub_lt_iff_lt_add.mpr hin.2).trans_le ht.1
          have hroom : (recent window (admissions log k) d.time).length < limit := by
            rw [hnew.2, hnew.1] at hd
            exact of_decide_eq_true hd.symm
          have hone : (List.filter (fun t ↦ decide (start ≤ t ∧ t < start + window))
              (if d.key = k ∧ d.admitted = true then [d.time] else [])).length ≤ 1 := by
            rw [if_pos hnew]
            exact List.length_filter_le _ _
          omega
        · rw [if_pos hnew, List.filter_cons_of_neg (by simpa using hin)]
          exact ih
      · rw [if_neg hnew]
        exact ih

theorem Obeys.of_append {rest : List (Decision κ τ)} (h : Obeys limit window (log ++ rest)) :
    Obeys limit window log := by
  induction rest using List.reverseRecOn with
  | nil => rwa [List.append_nil] at h
  | append_singleton rest d ih =>
      rw [← List.append_assoc] at h
      generalize hall : log ++ rest ++ [d] = all at h
      cases h with
      | nil => simp at hall
      | concat hrest _ =>
          obtain ⟨rfl, -⟩ := List.append_inj' hall rfl
          exact ih hrest

theorem Obeys.last {d : Decision κ τ} (h : Obeys limit window (log ++ [d])) :
    d.admitted = allowed limit window log d.key d.time := by
  generalize hall : log ++ [d] = all at h
  cases h with
  | nil => simp at hall
  | concat _ hd =>
      obtain ⟨rfl, hlast⟩ := List.append_inj' hall rfl
      obtain rfl := List.singleton_inj.mp hlast
      exact hd

/-- A request is rejected only where the limit is used up. -/
theorem Obeys.rejected {d : Decision κ τ} {rest : List (Decision κ τ)}
    (h : Obeys limit window (log ++ d :: rest)) (hd : d.admitted = false) :
    limit ≤ (recent window (admissions log d.key) d.time).length := by
  have hsplit : log ++ d :: rest = (log ++ [d]) ++ rest := by simp
  rw [hsplit] at h
  have hrule := h.of_append.last
  rw [hd] at hrule
  exact not_lt.mp (of_decide_eq_false hrule.symm)

/-- The requests determine the decisions. -/
theorem Obeys.unique (h : Obeys limit window log) (h' : Obeys limit window log')
    (hrequests : log.map Decision.request = log'.map Decision.request) : log = log' := by
  induction h generalizing log' with
  | nil => exact (List.map_eq_nil_iff.mp hrequests.symm).symm
  | @concat log d h hd ih =>
      cases h' with
      | nil => simp at hrequests
      | @concat log' d' h' hd' =>
          rw [List.map_append, List.map_append] at hrequests
          obtain ⟨hfront, hlast⟩ := List.append_inj' hrequests rfl
          obtain rfl := ih h' hfront
          obtain ⟨hkey, htime⟩ := Prod.ext_iff.mp (List.singleton_inj.mp hlast)
          have hsame : d = d' := by
            obtain ⟨key, time, admitted⟩ := d
            obtain ⟨key', time', admitted'⟩ := d'
            obtain rfl : key = key' := hkey
            obtain rfl : time = time' := htime
            congr 1
            exact hd.trans hd'.symm
          rw [hsame]

/-- The decisions for one key obey the rule without the others. -/
theorem Obeys.restrict (h : Obeys limit window log) (k : κ) :
    Obeys limit window (log.filter fun d ↦ d.key = k) := by
  induction h with
  | nil => exact .nil
  | @concat log d _ hd ih =>
      rw [List.filter_append]
      by_cases hkey : d.key = k
      · rw [List.filter_cons_of_pos (by simpa using hkey)]
        refine ih.concat ?_
        rw [hd, allowed, allowed, hkey, admissions_filter]
      · rw [List.filter_cons_of_neg (by simpa using hkey), List.filter_nil, List.append_nil]
        exact ih

end Window

end SlidingWindow
