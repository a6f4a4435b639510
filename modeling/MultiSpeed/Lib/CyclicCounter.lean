import Mathlib.Data.Nat.ModEq
import Mathlib.Tactic.Common

/-!
# A cyclic counter that never returns to zero

`value period n` is the reading after `n` increments of a counter that starts
at zero, runs through `1, …, period` and then begins again at one.  Readings
repeat after exactly `period` increments and not earlier.
-/

namespace CyclicCounter

/-- The reading after `n` increments. -/
def value (period : ℕ) : ℕ → ℕ
  | 0 => 0
  | n + 1 => n % period + 1

@[simp] theorem value_zero (period : ℕ) : value period 0 = 0 := rfl

theorem value_of_pos {period n : ℕ} (hn : 0 < n) :
    value period n = (n - 1) % period + 1 := by
  obtain ⟨m, rfl⟩ := Nat.exists_eq_succ_of_ne_zero hn.ne'
  rfl

theorem value_succ {period : ℕ} (hp : 0 < period) (n : ℕ) :
    value period (n + 1) = if value period n = period then 1 else value period n + 1 := by
  cases n with
  | zero =>
      have hne : (0 : ℕ) ≠ period := hp.ne
      simp [value, hne]
  | succ n =>
      have hlt := Nat.mod_lt n hp
      have hmod : (n + 1) % period = (n % period + 1) % period :=
        (Nat.mod_add_mod n period 1).symm
      by_cases hwrap : n % period + 1 = period
      · simp [value, hmod, hwrap]
      · have hsmall : n % period + 1 < period := by omega
        simp [value, hmod, hwrap, Nat.mod_eq_of_lt hsmall]

/-- Within one period all readings differ. -/
theorem value_ne_of_lt_of_lt_add {period a b : ℕ} (ha : 0 < a) (hab : a < b)
    (hb : b < a + period) : value period a ≠ value period b := by
  intro heq
  rw [value_of_pos ha, value_of_pos (ha.trans hab)] at heq
  have hmod : (a - 1) ≡ (b - 1) [MOD period] := Nat.succ.inj heq
  have hdvd : period ∣ (b - 1) - (a - 1) := (Nat.modEq_iff_dvd' (by omega)).mp hmod
  have hle := Nat.le_of_dvd (by omega) hdvd
  omega

theorem value_add_period {period n : ℕ} (hn : 0 < n) :
    value period (n + period) = value period n := by
  rw [value_of_pos hn, value_of_pos (by omega), Nat.sub_add_comm hn, Nat.add_mod_right]

end CyclicCounter
