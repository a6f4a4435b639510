import Mathlib.Algebra.Order.Ring.Int
import Mathlib.Tactic.Common

/-!
# Wall clocks and the intervals they cut

A zone is the offset of its wall clock from universal time at each second.  The
clock may jump, so a reading can be shown twice or not at all, and a library that
looks for the instant of a reading has to choose one.  An instant at which a
function of time passes a value separates the earlier values from the others;
intervals follow each other without gap or overlap exactly when their ends are
such instants.
-/

/-! ## Passing a value -/

/-- `f` is below `q` before `s` and not below it from `s` on. -/
def Passes {α : Type*} [LT α] (f : α → ℤ) (s : α) (q : ℤ) : Prop := ∀ t, t < s ↔ f t < q

section Passes

variable {α : Type*} [LinearOrder α] {f : α → ℤ}

theorem Passes.le_iff {s t : α} {q : ℤ} (h : Passes f s q) : s ≤ t ↔ q ≤ f t := by
  rw [← not_lt, ← not_lt, h t]

theorem Passes.le {s s' : α} {q q' : ℤ} (h : Passes f s q) (h' : Passes f s' q')
    (hvalues : ∀ t, f t < q → f t < q') : s ≤ s' := by
  by_contra hlt
  have hbelow := (h s').mp (not_le.mp hlt)
  exact lt_irrefl s' ((h' s').mpr (hvalues s' hbelow))

/-- Values between which `f` takes no value are passed at one instant. -/
theorem Passes.unique {s s' : α} {q q' : ℤ} (h : Passes f s q) (h' : Passes f s' q')
    (hvalues : ∀ t, f t < q ↔ f t < q') : s = s' :=
  le_antisymm (h.le h' fun t ↦ (hvalues t).mp) (h'.le h fun t ↦ (hvalues t).mpr)

/-- Each value has one interval, every instant lies in the interval of its value, and
the intervals of two values between which `f` takes no value meet. -/
structure Tiles (f : α → ℤ) (start stop : α → α) : Prop where
  uniform : ∀ t t', f t = f t' → start t = start t' ∧ stop t = stop t'
  contained : ∀ t, start t ≤ t ∧ t < stop t
  meets : ∀ t t', f t < f t' → (∀ x, f x ≤ f t ∨ f t' ≤ f x) → stop t = start t'

variable {start stop : α → α}

/-- The interval of a smaller value is over before that of a larger one begins. -/
theorem Tiles.stop_le (h : Tiles f start stop) {t t' : α} (hlt : f t < f t') :
    stop t ≤ start t' := by
  -- induction on the distance of the two values
  obtain ⟨n, hn⟩ : ∃ n : ℕ, f t' - f t = n := ⟨(f t' - f t).toNat, by omega⟩
  induction n using Nat.strong_induction_on generalizing t t' with
  | _ n ih =>
      by_cases hbetween : ∀ x, f x ≤ f t ∨ f t' ≤ f x
      · exact (h.meets t t' hlt hbetween).le
      · simp only [not_forall, not_or, not_le] at hbetween
        obtain ⟨x, hleft, hright⟩ := hbetween
        have hfirst := ih (f x - f t).toNat (by omega) hleft (by omega)
        have hsecond := ih (f t' - f x).toNat (by omega) hright (by omega)
        have hinside := h.contained x
        exact hfirst.trans (hinside.1.trans (hinside.2.le.trans hsecond))

theorem Tiles.lt_start_iff (h : Tiles f start stop) (t x : α) : x < start t ↔ f x < f t := by
  have hx := h.contained x
  have ht := h.contained t
  constructor
  · intro hlt
    rcases lt_trichotomy (f x) (f t) with hless | heq | hgreater
    · exact hless
    · rw [(h.uniform x t heq).1] at hx
      exact absurd hx.1 (not_le.mpr hlt)
    · have hstop := ht.1.trans_lt (ht.2.trans_le (h.stop_le hgreater))
      exact absurd (hx.1.trans_lt hlt) (not_lt.mpr hstop.le)
  · intro hless
    exact hx.2.trans_le (h.stop_le hless)

theorem Tiles.lt_stop_iff (h : Tiles f start stop) (t x : α) : x < stop t ↔ f x ≤ f t := by
  have hx := h.contained x
  have ht := h.contained t
  constructor
  · intro hlt
    by_contra hgreater
    exact absurd ((h.stop_le (not_le.mp hgreater)).trans hx.1) (not_le.mpr hlt)
  · intro hle
    rcases hle.lt_or_eq with hless | heq
    · exact hx.2.trans (((h.stop_le hless).trans ht.1).trans_lt ht.2)
    · rw [← (h.uniform x t heq).2]
      exact hx.2

/-- Intervals tile time exactly when they run from the instant at which the value is
passed to the one at which its successor is. -/
theorem tiles_iff : Tiles f start stop ↔
    ∀ t, Passes f (start t) (f t) ∧ Passes f (stop t) (f t + 1) := by
  constructor
  · intro h t
    refine ⟨h.lt_start_iff t, fun x ↦ ?_⟩
    rw [h.lt_stop_iff t x, Int.lt_add_one_iff]
  · intro h
    constructor
    · intro t t' heq
      have hstart := (h t').1
      have hstop := (h t').2
      rw [← heq] at hstart hstop
      exact ⟨(h t).1.unique hstart fun _ ↦ Iff.rfl, (h t).2.unique hstop fun _ ↦ Iff.rfl⟩
    · intro t
      obtain ⟨hstart, hstop⟩ := h t
      exact ⟨hstart.le_iff.mpr le_rfl, (hstop t).mpr (Int.lt_succ _)⟩
    · intro t t' hlt hbetween
      apply (h t).2.unique (h t').1
      intro x
      have hx := hbetween x
      omega

end Passes

/-! ## Clocks -/

namespace WallClock

variable (offset : ℤ → ℤ)

/-- What the clock shows at a second of universal time. -/
def reading (s : ℤ) : ℤ := s + offset s

/-- The instant chosen for a reading: the offset is looked up at the reading itself,
and again at the instant this gives. -/
def instant (u : ℤ) : ℤ := u - offset (u - offset u)

/-- The lookups for the reading `u` see the offset that leads to `s`. -/
def LeadsTo (u s : ℤ) : Prop := offset (u - offset u) = u - s

/-- The clock shows `u` when it passes it, and both lookups see the offset of that
instant. -/
def Regular (u : ℤ) : Prop :=
  ∃ s, Passes (reading offset) s u ∧ reading offset s = u ∧
    offset (u - offset u) = offset s

variable {offset}

theorem leadsTo_iff {u s : ℤ} : LeadsTo offset u s ↔ instant offset u = s := by
  unfold LeadsTo instant
  omega

/-- The clock passes a regular reading at the instant that is found for it. -/
theorem Regular.exists_leadsTo {u : ℤ} (h : Regular offset u) :
    ∃ s, Passes (reading offset) s u ∧ reading offset s = u ∧ LeadsTo offset u s := by
  obtain ⟨s, hpasses, hreading, hlookup⟩ := h
  refine ⟨s, hpasses, hreading, ?_⟩
  rw [LeadsTo, hlookup, ← hreading]
  exact (add_sub_cancel_left s _).symm

theorem Regular.reading_instant {u : ℤ} (h : Regular offset u) :
    reading offset (instant offset u) = u := by
  obtain ⟨s, -, hreading, hlookup⟩ := h.exists_leadsTo
  rw [leadsTo_iff.mp hlookup, hreading]

/-- With one offset every reading is regular. -/
theorem regular_of_constant {c : ℤ} (h : ∀ s, offset s = c) (u : ℤ) : Regular offset u := by
  refine ⟨u - c, fun t ↦ ?_, ?_, ?_⟩
  · unfold reading
    rw [h]
    omega
  · unfold reading
    rw [h]
    omega
  · rw [h, h]

/-! ## Correcting a guess -/

section Correct

variable (offset) in
/-- The guess `s` for the reading `u` is moved by what the clock misses there, at most so
many times, until it misses nothing. -/
def correct (u : ℤ) : ℕ → ℤ → ℤ
  | 0, s => s
  | attempts + 1, s => if reading offset s = u then s else correct u attempts (u - offset s)

variable {u r : ℤ}

theorem correct_of_reading {s : ℤ} (h : reading offset s = u) (attempts : ℕ) :
    correct offset u attempts s = s := by
  cases attempts with
  | zero => rfl
  | succ attempts =>
      unfold correct
      exact if_pos h

theorem correct_succ (attempts : ℕ) (s : ℤ) :
    correct offset u (attempts + 1) s = correct offset u attempts (u - offset s) := by
  by_cases h : reading offset s = u
  · have hs : u - offset s = s := by
      rw [← h]
      exact add_sub_cancel_right s _
    rw [hs, correct_of_reading h, correct_of_reading h]
  · rw [correct]
    exact if_neg h

theorem reading_of_fixed {s : ℤ} (h : u - offset s = s) : reading offset s = u := by
  unfold reading
  omega

/-- Near the reading `u` the offset changes at most once. -/
def AtMostOneTransition (offset : ℤ → ℤ) (u r : ℤ) : Prop :=
  ∃ transition before after, ∀ s, |s - u| ≤ r →
    offset s = if s < transition then before else after

theorem AtMostOneTransition.offset_cases (h : AtMostOneTransition offset u r) {s₁ s₂ s₃ : ℤ}
    (h₁ : |s₁ - u| ≤ r) (h₂ : |s₂ - u| ≤ r) (h₃ : |s₃ - u| ≤ r)
    (hne : offset s₁ ≠ offset s₂) : offset s₃ = offset s₁ ∨ offset s₃ = offset s₂ := by
  obtain ⟨transition, before, after, hoffset⟩ := h
  rw [hoffset s₁ h₁, hoffset s₂ h₂] at hne
  rw [hoffset s₁ h₁, hoffset s₂ h₂, hoffset s₃ h₃]
  grind

section

variable (h : AtMostOneTransition offset u r) (hbounded : ∀ s, |offset s| ≤ r)

include hbounded

theorem near_sub_offset (s : ℤ) : |u - offset s - u| ≤ r := by
  rw [sub_sub_cancel_left, abs_neg]
  exact hbounded s

include h

/-- After an even number of corrections, and two at least, the guess is the instant that is
chosen for the reading: where the clock skips the reading, the corrections go to and fro
between two instants. -/
theorem correct_eq_instant (k : ℕ) : correct offset u (2 * k + 2) u = instant offset u := by
  induction k with
  | zero =>
      rw [Nat.mul_zero, Nat.zero_add, correct_succ, correct_succ]
      rfl
  | succ k ih =>
      have hsteps : ∀ attempts, correct offset u (attempts + 2) u =
          correct offset u attempts (instant offset u) := by
        intro attempts
        rw [correct_succ, correct_succ]
        rfl
      rw [show 2 * (k + 1) + 2 = 2 * k + 2 + 2 by omega, hsteps]
      by_cases hfixed : offset (instant offset u) = offset (u - offset u)
      · apply correct_of_reading
        apply reading_of_fixed
        rw [hfixed]
        rfl
      · have hself : |u - u| ≤ r := by
          rw [sub_self, abs_zero]
          exact (abs_nonneg _).trans (hbounded u)
        have hnear := near_sub_offset (u := u) hbounded
        have hfirst : offset (instant offset u) = offset u := by
          by_contra hne
          have hchanged : offset u ≠ offset (u - offset u) := by
            intro hsame
            apply hfixed
            rw [instant, ← hsame, ← hsame]
          rcases h.offset_cases hself (hnear _) (hnear _) hchanged with hcase | hcase
          · exact hne hcase
          · exact hfixed hcase
        have hback : correct offset u (2 * k + 2) u =
            correct offset u (2 * k + 1) (u - offset u) := correct_succ (2 * k + 1) u
        rw [correct_succ, hfirst, ← hback, ih]

/-- The only instant at which the clock shows the reading is the one chosen for it. -/
theorem instant_of_unique {s : ℤ} (hs : ∀ t, reading offset t = u ↔ t = s) :
    instant offset u = s := by
  have hself : |u - u| ≤ r := by
    rw [sub_self, abs_zero]
    exact (abs_nonneg _).trans (hbounded u)
  have hnear := near_sub_offset (u := u) hbounded
  have hshown : s = u - offset s := by
    have hreading : s + offset s = u := (hs s).mpr rfl
    omega
  by_cases hsame : offset (u - offset u) = offset u
  · apply (hs _).mp
    apply reading_of_fixed
    rw [instant, hsame, hsame]
  · have hnear_s : |s - u| ≤ r := by
      rw [hshown]
      exact hnear s
    rcases h.offset_cases hself (hnear _) hnear_s (Ne.symm hsame) with hcase | hcase
    · -- the first guess would be the instant, and show the reading
      rw [hcase] at hshown
      rw [← hshown] at hsame
      exact absurd hcase hsame
    · rw [instant, ← hcase]
      exact hshown.symm

end

end Correct

end WallClock
