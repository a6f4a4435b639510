import Mathlib.Algebra.Order.Round
import Mathlib.Algebra.Order.Archimedean.Basic
import Mathlib.Data.Int.Log
import Mathlib.Data.Rat.Floor
import Mathlib.Tactic.Linarith
import Mathlib.Tactic.NormNum
import Mathlib.Tactic.Ring

/-!
# Rounding to doubles

The rationals that a 64-bit floating-point number can be, and what it means to round
to the nearest of them, ties to the even significand.  Two complementary percentages
that were rounded separately have a sum that rounds to one hundred.  `roundDouble`
computes the rounding.
-/

/-- A finite double: a significand of 53 bits and an exponent in range. -/
def IsDouble (q : ℚ) : Prop :=
  ∃ m e : ℤ, |m| ≤ 2 ^ 53 ∧ -1074 ≤ e ∧ e ≤ 971 ∧ q = m * 2 ^ e

/-- A double whose full significand is even. -/
def IsEvenDouble (q : ℚ) : Prop :=
  ∃ m e : ℤ, |m| ≤ 2 ^ 53 ∧ (2 ^ 52 ≤ |m| ∨ e = -1074) ∧ -1074 ≤ e ∧ e ≤ 971 ∧ Even m ∧
    q = m * 2 ^ e

/-- Rounding to nearest, ties to even, below the overflow threshold. -/
structure NearestEven (rnd : ℚ → ℚ) : Prop where
  double : ∀ q, |q| ≤ 2 ^ 1023 → IsDouble (rnd q)
  nearest : ∀ q f, |q| ≤ 2 ^ 1023 → IsDouble f → |q - rnd q| ≤ |q - f|
  even : ∀ q f, |q| ≤ 2 ^ 1023 → IsDouble f → f ≠ rnd q → |q - f| = |q - rnd q| →
    IsEvenDouble (rnd q)

/-- The points of a binary grid are doubles as far as the significand reaches. -/
theorem isDouble_grid {k : ℤ} {n : ℕ} (hn : n ≤ 1074) (hk : |k| ≤ 2 ^ 53) :
    IsDouble (k / 2 ^ n) := by
  refine ⟨k, -n, hk, by omega, by omega, ?_⟩
  rw [zpow_neg, zpow_natCast, div_eq_mul_inv]

/-- From a power of two on a double lies on the grid that 52 more digits make. -/
theorem IsDouble.grid_of_le {q : ℚ} {k : ℤ} (h : IsDouble q) (hq : 2 ^ k ≤ q) :
    ∃ j : ℤ, q = j * 2 ^ (k - 52) := by
  obtain ⟨m, e, hm, -, -, rfl⟩ := h
  rcases le_or_gt (k - 52) e with hle | hlt
  · obtain ⟨n, hn⟩ := Int.eq_ofNat_of_zero_le (sub_nonneg.mpr hle)
    refine ⟨m * 2 ^ n, ?_⟩
    rw [show e = n + (k - 52) by omega, zpow_add₀ (by norm_num), zpow_natCast]
    push_cast
    ring
  · -- a smaller exponent leaves only the power itself
    have hpow : (2 : ℚ) ^ e ≤ 2 ^ (k - 53) := zpow_le_zpow_right₀ (by norm_num) (by omega)
    have hpos : (0 : ℚ) < 2 ^ e := zpow_pos (by norm_num) e
    have hmle : (m : ℚ) ≤ 2 ^ 53 := by exact_mod_cast (le_abs_self m).trans hm
    have hbound : (m : ℚ) * 2 ^ e ≤ 2 ^ k := by
      calc (m : ℚ) * 2 ^ e ≤ 2 ^ 53 * 2 ^ e := by gcongr
        _ ≤ 2 ^ 53 * 2 ^ (k - 53) := by gcongr
        _ = 2 ^ k := by
          rw [← zpow_natCast, ← zpow_add₀ (by norm_num)]
          congr 1
          omega
    refine ⟨2 ^ 52, ?_⟩
    rw [le_antisymm hbound hq, Int.cast_pow, Int.cast_ofNat, ← zpow_natCast,
      ← zpow_add₀ (by norm_num)]
    congr 1
    omega

/-- From 64 on a double lies on the grid of `2 ^ (-46)`. -/
theorem IsDouble.grid {q : ℚ} (h : IsDouble q) (hq : 64 ≤ q) : ∃ k : ℤ, q = k / 2 ^ 46 := by
  obtain ⟨j, hj⟩ := h.grid_of_le (k := 6) (by norm_num; exact hq)
  refine ⟨j, ?_⟩
  rw [hj]
  norm_num
  ring

/-- Between 64 and 128 the significand of a double is its place on that grid. -/
theorem IsEvenDouble.even_grid {k : ℤ} (h : IsEvenDouble (k / 2 ^ 46))
    (hlow : 64 * 2 ^ 46 < k) (hhigh : k < 128 * 2 ^ 46) : Even k := by
  obtain ⟨m, e, hm, hfull, he, -, heven, hq⟩ := h
  have hpos : (0 : ℚ) < 2 ^ e := zpow_pos (by norm_num) e
  have hlow : (64 : ℚ) < m * 2 ^ e := by
    rw [← hq, lt_div_iff₀ (by positivity)]
    exact_mod_cast hlow
  have hhigh : (m : ℚ) * 2 ^ e < 128 := by
    rw [← hq, div_lt_iff₀ (by positivity)]
    exact_mod_cast hhigh
  have hmpos : (0 : ℚ) < m := by
    by_contra hneg
    have hprod := mul_nonpos_of_nonpos_of_nonneg (not_lt.mp hneg) hpos.le
    linarith
  have habs : |m| = m := abs_of_pos (by exact_mod_cast hmpos)
  rw [habs] at hm hfull
  rcases lt_trichotomy e (-46) with hless | heq | hmore
  · have hpow : (2 : ℚ) ^ e ≤ 2 ^ (-47 : ℤ) := zpow_le_zpow_right₀ (by norm_num) (by omega)
    have hmle : (m : ℚ) ≤ 2 ^ 53 := by exact_mod_cast hm
    have hbound : (m : ℚ) * 2 ^ e ≤ 2 ^ 53 * 2 ^ (-47 : ℤ) :=
      mul_le_mul hmle hpow hpos.le (by norm_num)
    norm_num at hbound
    linarith
  · have hk : (k : ℚ) = m := by
      rw [heq, div_eq_iff (by norm_num)] at hq
      rw [hq]
      norm_num
      ring
    rw [show k = m by exact_mod_cast hk]
    exact heven
  · have hpow : (2 : ℚ) ^ (-45 : ℤ) ≤ 2 ^ e := zpow_le_zpow_right₀ (by norm_num) (by omega)
    have hmle : (2 : ℚ) ^ 52 ≤ m := by exact_mod_cast hfull.resolve_right (by omega)
    have hbound : (2 : ℚ) ^ 52 * 2 ^ (-45 : ℤ) ≤ m * 2 ^ e :=
      mul_le_mul hmle hpow (by positivity) hmpos.le
    norm_num at hbound
    linarith

namespace NearestEven

variable {rnd : ℚ → ℚ} (h : NearestEven rnd)

include h

theorem rnd_double {q : ℚ} (hq : |q| ≤ 2 ^ 1023) (hdouble : IsDouble q) : rnd q = q := by
  have hnear := h.nearest q q hq hdouble
  rw [sub_self, abs_zero] at hnear
  exact (sub_eq_zero.mp (abs_nonpos_iff.mp hnear)).symm

theorem le_rnd {q f : ℚ} (hq : |q| ≤ 2 ^ 1023) (hf : IsDouble f) (hle : f ≤ q) :
    f ≤ rnd q := by
  have hnear := h.nearest q f hq hf
  rw [abs_of_nonneg (sub_nonneg.mpr hle)] at hnear
  have hself := le_abs_self (q - rnd q)
  linarith

theorem rnd_le {q f : ℚ} (hq : |q| ≤ 2 ^ 1023) (hf : IsDouble f) (hle : q ≤ f) :
    rnd q ≤ f := by
  have hnear := h.nearest q f hq hf
  rw [abs_of_nonpos (sub_nonpos.mpr hle)] at hnear
  have hself := neg_abs_le (q - rnd q)
  linarith

/-- Where a grid consists of doubles, rounding errs by half its width at most. -/
theorem error_le {q : ℚ} {n : ℕ} (hn : n ≤ 1074) (hnonneg : 0 ≤ q) (hq : q * 2 ^ n ≤ 2 ^ 53) :
    |q - rnd q| ≤ 1 / 2 ^ (n + 1) := by
  have hone : (1 : ℚ) ≤ 2 ^ n := one_le_pow₀ (by norm_num)
  have hrange : |q| ≤ 2 ^ 1023 := by
    rw [abs_of_nonneg hnonneg]
    have hle : q ≤ q * 2 ^ n := le_mul_of_one_le_right hnonneg hone
    exact hle.trans (hq.trans (pow_le_pow_right₀ (by norm_num) (by norm_num)))
  -- the nearest point of the grid
  have hpoint : |round (q * 2 ^ n)| ≤ 2 ^ 53 := by
    obtain ⟨hlow, hhigh⟩ := abs_le.mp (abs_sub_round (q * 2 ^ n))
    have hscaled : 0 ≤ q * 2 ^ n := by positivity
    have hbelow : ((-1 : ℤ) : ℚ) < round (q * 2 ^ n) := by
      push_cast
      linarith
    have habove : (round (q * 2 ^ n) : ℚ) < ((2 ^ 53 + 1 : ℤ) : ℚ) := by
      push_cast
      linarith
    rw [Int.cast_lt] at hbelow habove
    rw [abs_le]
    omega
  have hnear := h.nearest q _ hrange (isDouble_grid hn hpoint)
  have hgrid : |q - (round (q * 2 ^ n) : ℚ) / 2 ^ n| ≤ 1 / 2 ^ (n + 1) := by
    have hhalf := abs_sub_round (q * 2 ^ n)
    have hscale : q - (round (q * 2 ^ n) : ℚ) / 2 ^ n =
        (q * 2 ^ n - round (q * 2 ^ n)) / 2 ^ n := by
      field_simp
    rw [hscale, abs_div, abs_of_pos (by positivity : (0 : ℚ) < 2 ^ n), pow_succ', ← div_div,
      div_le_div_iff_of_pos_right (by positivity)]
    exact hhalf
  exact hnear.trans hgrid

/-- Near one hundred the grid is `2 ^ (-46)`, and one hundred has an even place on it. -/
theorem rnd_hundred {q : ℚ} (hq : |q - 100| ≤ 1 / 2 ^ 47) : rnd q = 100 := by
  obtain ⟨hbelow, habove⟩ := abs_le.mp hq
  have hrange : |q| ≤ 2 ^ 1023 := by
    have hsmall : |q| ≤ 128 := by
      rw [abs_le]
      constructor
      · norm_num at hbelow ⊢
        linarith
      · norm_num at habove ⊢
        linarith
    exact hsmall.trans (by
      calc (128 : ℚ) = 2 ^ 7 := by norm_num
        _ ≤ 2 ^ 1023 := pow_le_pow_right₀ (by norm_num) (by norm_num))
  have hundred : IsDouble 100 := by
    have hgrid : IsDouble (((100 * 2 ^ 46 : ℤ) : ℚ) / 2 ^ 46) :=
      isDouble_grid (by norm_num) (by norm_num)
    norm_num at hgrid
    exact hgrid
  have hnear := h.nearest q 100 hrange hundred
  obtain ⟨hlow, hhigh⟩ := abs_le.mp (hnear.trans hq)
  have hfrom : 64 ≤ rnd q := by
    norm_num at hbelow habove hlow hhigh
    linarith
  obtain ⟨k, hk⟩ := (h.double q hrange).grid hfrom
  have hplace : (k : ℚ) = rnd q * 2 ^ 46 := by
    rw [hk]
    norm_num
  have hclose : |k - 100 * 2 ^ 46| ≤ 1 := by
    norm_num at hbelow habove hlow hhigh hplace
    rw [abs_le]
    constructor
    · have hcast : ((100 * 2 ^ 46 - 1 : ℤ) : ℚ) ≤ k := by
        push_cast
        linarith
      have hint := Int.cast_le.mp hcast
      omega
    · have hcast : (k : ℚ) ≤ ((100 * 2 ^ 46 + 1 : ℤ) : ℚ) := by
        push_cast
        linarith
      have hint := Int.cast_le.mp hcast
      omega
  by_contra hne
  have hoff : k = 100 * 2 ^ 46 - 1 ∨ k = 100 * 2 ^ 46 + 1 := by
    have hk' : k ≠ 100 * 2 ^ 46 := by
      intro heq
      rw [heq] at hk
      norm_num at hk
      exact hne hk
    have hbounds := abs_le.mp hclose
    omega
  -- one step away is as far as one hundred itself, and its place is odd
  have htie : |q - 100| = |q - rnd q| := by
    apply le_antisymm _ hnear
    apply hq.trans
    rcases hoff with heq | heq
    · have hself := le_abs_self (q - rnd q)
      rw [heq] at hplace
      norm_num at hbelow hplace ⊢
      linarith
    · have hself := neg_le_abs (q - rnd q)
      rw [heq] at hplace
      norm_num at habove hplace ⊢
      linarith
  have heven := h.even q 100 hrange hundred (Ne.symm hne) htie
  rw [hk] at heven
  have hparity := heven.even_grid (by omega) (by omega)
  rcases hoff with heq | heq
  · rw [heq] at hparity
    exact absurd hparity (by decide)
  · rw [heq] at hparity
    exact absurd hparity (by decide)

/-- Complementary percentages. -/
theorem rnd_add_rnd {x y : ℚ} (hx : 0 ≤ x) (hy : 0 ≤ y) (hxy : x + y = 100) :
    rnd (rnd x + rnd y) = 100 := by
  wlog hle : x ≤ y generalizing x y
  · rw [add_comm]
    exact this hy hx (by rw [add_comm, hxy]) (le_of_not_ge hle)
  apply h.rnd_hundred
  have hrange : ∀ z : ℚ, 0 ≤ z → z ≤ 100 → |z| ≤ 2 ^ 1023 := by
    intro z hz hz'
    rw [abs_of_nonneg hz]
    exact hz'.trans (le_of_lt (by
      calc (100 : ℚ) < 2 ^ 7 := by norm_num
        _ ≤ 2 ^ 1023 := pow_le_pow_right₀ (by norm_num) (by norm_num)))
  rcases le_or_gt 64 y with hlarge | hsmall
  · -- the complement of the rounded larger one is a double, and so are its neighbours
    have hyrange := hrange y hy (by linarith)
    have hxrange := hrange x hx (by linarith)
    have h64 : IsDouble 64 := by
      have hgrid : IsDouble (((64 : ℤ) : ℚ) / 2 ^ 0) := isDouble_grid (by norm_num) (by norm_num)
      norm_num at hgrid
      exact hgrid
    have h100 : IsDouble 100 := by
      have hgrid : IsDouble (((100 : ℤ) : ℚ) / 2 ^ 0) := isDouble_grid (by norm_num) (by norm_num)
      norm_num at hgrid
      exact hgrid
    have hlow := h.le_rnd hyrange h64 hlarge
    have hhigh := h.rnd_le hyrange h100 (by linarith)
    obtain ⟨k, hk⟩ := (h.double y hyrange).grid hlow
    have hyerror := h.error_le (n := 46) (by norm_num) hy (by linarith)
    obtain ⟨hbelow, habove⟩ := abs_le.mp hyerror
    have hplace : (k : ℚ) = rnd y * 2 ^ 46 := by
      rw [hk]
      norm_num
    have hklow : 64 * 2 ^ 46 ≤ k := by
      have hcast : ((64 * 2 ^ 46 : ℤ) : ℚ) ≤ k := by
        push_cast
        linarith
      exact Int.cast_le.mp hcast
    have hkhigh : k ≤ 100 * 2 ^ 46 := by
      have hcast : (k : ℚ) ≤ ((100 * 2 ^ 46 : ℤ) : ℚ) := by
        push_cast
        linarith
      exact Int.cast_le.mp hcast
    have hleft : IsDouble (((2 * (100 * 2 ^ 46 - k) - 1 : ℤ) : ℚ) / 2 ^ 47) :=
      isDouble_grid (by norm_num) (by rw [abs_le]; omega)
    have hright : IsDouble (((2 * (100 * 2 ^ 46 - k) + 1 : ℤ) : ℚ) / 2 ^ 47) :=
      isDouble_grid (by norm_num) (by rw [abs_le]; omega)
    have hxlow := h.le_rnd hxrange hleft (by
      push_cast
      rw [hplace]
      norm_num at hbelow ⊢
      linarith)
    have hxhigh := h.rnd_le hxrange hright (by
      push_cast
      rw [hplace]
      norm_num at habove ⊢
      linarith)
    push_cast at hxlow hxhigh
    rw [hplace] at hxlow hxhigh
    norm_num at hxlow hxhigh ⊢
    rw [abs_le]
    constructor <;> linarith
  · have hxerror := abs_le.mp (h.error_le (n := 47) (by norm_num) hx (by linarith))
    have hyerror := abs_le.mp (h.error_le (n := 47) (by norm_num) hy (by linarith))
    norm_num at hxerror hyerror ⊢
    rw [abs_le]
    constructor <;> linarith

end NearestEven

/-! ## The rounding function -/

/-- The nearest integer, and of two the even one. -/
def roundEven (s : ℚ) : ℤ :=
  if s - ⌊s⌋ = 1 / 2 then (if Even ⌊s⌋ then ⌊s⌋ else ⌊s⌋ + 1) else round s

theorem roundEven_nearest (s : ℚ) (j : ℤ) : |s - roundEven s| ≤ |s - j| := by
  unfold roundEven
  by_cases htie : s - ⌊s⌋ = 1 / 2
  · have hhalf : 1 / 2 ≤ |s - j| := by
      rcases le_or_gt j ⌊s⌋ with hle | hlt
      · have hcast : (j : ℚ) ≤ ⌊s⌋ := by exact_mod_cast hle
        have hself := le_abs_self (s - j)
        linarith
      · have hcast : (⌊s⌋ : ℚ) + 1 ≤ j := by exact_mod_cast hlt
        have hself := neg_le_abs (s - j)
        linarith
    rw [if_pos htie]
    split
    · rw [htie, abs_of_nonneg (by norm_num)]
      exact hhalf
    · push_cast
      rw [abs_of_nonpos (by linarith)]
      linarith
  · rw [if_neg htie]
    exact round_le s j

theorem roundEven_even {s : ℚ} {j : ℤ} (hne : j ≠ roundEven s)
    (htie : |s - j| = |s - roundEven s|) : Even (roundEven s) := by
  unfold roundEven at *
  by_cases hhalf : s - ⌊s⌋ = 1 / 2
  · rw [if_pos hhalf]
    by_cases heven : Even ⌊s⌋
    · rw [if_pos heven]
      exact heven
    · rw [if_neg heven]
      exact (Int.not_even_iff_odd.mp heven).add_one
  · -- the nearest integer is then nearer than every other
    exfalso
    rw [if_neg hhalf] at hne htie
    apply hhalf
    have hclose := abs_sub_round s
    have hapart : (1 : ℚ) ≤ |(j : ℚ) - round s| := by
      have hint := Int.one_le_abs (sub_ne_zero.mpr hne)
      exact_mod_cast hint
    have htriangle : |(j : ℚ) - round s| ≤ |s - j| + |s - round s| := by
      rw [abs_sub_comm s j]
      exact abs_sub_le _ _ _
    have hdist : |s - round s| = 1 / 2 := by linarith
    rw [abs_sub_round_eq_min] at hdist
    rw [← Int.fract]
    rcases min_choice (Int.fract s) (1 - Int.fract s) with hmin | hmin
    · rw [hmin] at hdist
      exact hdist
    · rw [hmin] at hdist
      linarith

theorem roundEven_le {s : ℚ} {n : ℤ} (h : s ≤ n) : roundEven s ≤ n := by
  by_contra hlt
  have hcast : (n : ℚ) + 1 ≤ roundEven s := by exact_mod_cast not_le.mp hlt
  have hnear := roundEven_nearest s n
  have hself := neg_le_abs (s - roundEven s)
  rw [abs_of_nonpos (by linarith : s - n ≤ 0)] at hnear
  linarith

theorem le_roundEven {s : ℚ} {n : ℤ} (h : n ≤ s) : n ≤ roundEven s := by
  by_contra hlt
  have hcast : (roundEven s : ℚ) + 1 ≤ n := by exact_mod_cast not_le.mp hlt
  have hnear := roundEven_nearest s n
  have hself := le_abs_self (s - roundEven s)
  rw [abs_of_nonneg (by linarith : 0 ≤ s - n)] at hnear
  linarith

theorem abs_roundEven_le {s : ℚ} {n : ℤ} (h : |s| ≤ n) : |roundEven s| ≤ n := by
  obtain ⟨hlow, hhigh⟩ := abs_le.mp h
  rw [abs_le]
  refine ⟨le_roundEven ?_, roundEven_le hhigh⟩
  rw [Int.cast_neg]
  exact hlow

theorem le_abs_roundEven {s : ℚ} {n : ℤ} (h : n ≤ |s|) : n ≤ |roundEven s| := by
  rw [le_abs] at h ⊢
  rcases h with hright | hleft
  · exact .inl (le_roundEven hright)
  · right
    have hle : roundEven s ≤ -n := by
      apply roundEven_le
      rw [Int.cast_neg]
      linarith
    omega

/-- The exponent of the doubles around a rational. -/
def doubleExponent (q : ℚ) : ℤ := max (Int.log 2 |q| - 52) (-1074)

/-- The nearest double, and of two the one with the even significand. -/
def roundDouble (q : ℚ) : ℚ :=
  roundEven (q / 2 ^ doubleExponent q) * 2 ^ doubleExponent q

section

variable {q : ℚ}

theorem doubleExponent_le (hq : |q| ≤ 2 ^ 1023) : doubleExponent q ≤ 971 := by
  have hlog : Int.log 2 |q| ≤ 1023 := by
    rcases (abs_nonneg q).eq_or_lt with hzero | hpos
    · rw [← hzero, Int.log_zero_right]
      norm_num
    · have hlt : |q| < ((2 : ℕ) : ℚ) ^ (1024 : ℤ) := by
        apply hq.trans_lt
        rw [Nat.cast_ofNat, show (1024 : ℤ) = ((1024 : ℕ) : ℤ) from rfl, zpow_natCast]
        exact pow_lt_pow_right₀ (by norm_num) (by norm_num)
      rw [Int.lt_zpow_iff_log_lt (by norm_num) hpos] at hlt
      omega
  unfold doubleExponent
  omega

/-- A rational has a significand of 53 bits at its exponent, -/
theorem abs_significand_le (q : ℚ) : |q / 2 ^ doubleExponent q| ≤ 2 ^ 53 := by
  have hpos : (0 : ℚ) < 2 ^ doubleExponent q := zpow_pos (by norm_num) _
  have hlt : |q| < 2 ^ (Int.log 2 |q| + 1) := by
    exact_mod_cast Int.lt_zpow_succ_log_self (b := 2) (by norm_num) |q|
  have hle : (2 : ℚ) ^ (Int.log 2 |q| + 1) ≤ 2 ^ (53 + doubleExponent q) := by
    apply zpow_le_zpow_right₀ (by norm_num)
    unfold doubleExponent
    omega
  rw [abs_div, abs_of_pos hpos, div_le_iff₀ hpos]
  rw [zpow_add₀ (by norm_num) 53] at hle
  exact hlt.le.trans hle

/-- and a full one unless the exponent is the least. -/
theorem le_abs_significand (hq : q ≠ 0) (hexp : doubleExponent q ≠ -1074) :
    2 ^ 52 ≤ |q / 2 ^ doubleExponent q| := by
  have hpos : (0 : ℚ) < 2 ^ doubleExponent q := zpow_pos (by norm_num) _
  have hlog : 52 + doubleExponent q = Int.log 2 |q| := by
    unfold doubleExponent at hexp ⊢
    omega
  have hle : (2 : ℚ) ^ Int.log 2 |q| ≤ |q| := by
    exact_mod_cast Int.zpow_log_le_self (b := 2) (by norm_num) (abs_pos.mpr hq)
  rw [abs_div, abs_of_pos hpos, le_div_iff₀ hpos]
  rw [← hlog, zpow_add₀ (by norm_num)] at hle
  exact hle

/-- A double is a point of the grid around `q`, or farther from `q` than one of them. -/
theorem IsDouble.on_grid {f : ℚ} (hf : IsDouble f) (hq : q ≠ 0) : ∃ j : ℤ,
    f = j * 2 ^ doubleExponent q ∨
      |q / 2 ^ doubleExponent q - j| < |q / 2 ^ doubleExponent q - f / 2 ^ doubleExponent q| := by
  obtain ⟨m, e, hm, he, -, rfl⟩ := hf
  have hpos : (0 : ℚ) < 2 ^ doubleExponent q := zpow_pos (by norm_num) _
  rcases le_or_gt (doubleExponent q) e with hle | hlt
  · obtain ⟨n, hn⟩ := Int.eq_ofNat_of_zero_le (sub_nonneg.mpr hle)
    refine ⟨m * 2 ^ n, .inl ?_⟩
    rw [show e = n + doubleExponent q by omega, zpow_add₀ (by norm_num), zpow_natCast]
    push_cast
    ring
  · -- the finer grid ends where the significands of `q` begin
    have hfull := le_abs_significand hq (by omega)
    have hfine : |(m : ℚ) * 2 ^ e / 2 ^ doubleExponent q| ≤ 2 ^ 52 := by
      have hmle : |(m : ℚ)| ≤ 2 ^ 53 := by exact_mod_cast hm
      have hpow : (2 : ℚ) ^ (1 + e) ≤ 2 ^ doubleExponent q :=
        zpow_le_zpow_right₀ (by norm_num) (by omega)
      rw [zpow_add₀ (by norm_num), zpow_one] at hpow
      have hfinepos : (0 : ℚ) < 2 ^ e := zpow_pos (by norm_num) e
      rw [abs_div, abs_mul, abs_of_pos hpos, abs_of_pos hfinepos, div_le_iff₀ hpos]
      calc |(m : ℚ)| * 2 ^ e ≤ 2 ^ 53 * 2 ^ e := by gcongr
        _ = 2 ^ 52 * (2 * 2 ^ e) := by ring
        _ ≤ 2 ^ 52 * 2 ^ doubleExponent q := by gcongr
    generalize q / 2 ^ doubleExponent q = s at hfull
    generalize hg : (m : ℚ) * 2 ^ e / 2 ^ doubleExponent q = g at hfine
    have hback : (m : ℚ) * 2 ^ e = g * 2 ^ doubleExponent q := by
      rw [← hg, div_mul_cancel₀ _ hpos.ne']
    obtain ⟨hlow, hhigh⟩ := abs_le.mp hfine
    rcases le_abs.mp hfull with hright | hleft
    · refine ⟨2 ^ 52, ?_⟩
      rcases hhigh.eq_or_lt with heq | hless
      · left
        rw [hback, heq]
        push_cast
        rfl
      · right
        push_cast
        rw [abs_of_nonneg (by linarith), abs_of_nonneg (by linarith)]
        linarith
    · refine ⟨-2 ^ 52, ?_⟩
      rcases hlow.eq_or_lt with heq | hmore
      · left
        rw [hback, ← heq]
        push_cast
        rfl
      · right
        push_cast
        rw [abs_of_nonpos (by linarith), abs_of_nonpos (by linarith)]
        linarith

end

theorem roundDouble_nearestEven : NearestEven roundDouble := by
  have hpos : ∀ q, (0 : ℚ) < 2 ^ doubleExponent q := fun q ↦ zpow_pos (by norm_num) _
  have hscale : ∀ q x : ℚ, |q - x| =
      |q / 2 ^ doubleExponent q - x / 2 ^ doubleExponent q| * 2 ^ doubleExponent q := by
    intro q x
    rw [← sub_div, abs_div, abs_of_pos (hpos q), div_mul_cancel₀ _ (hpos q).ne']
  have hplace : ∀ (q : ℚ) (j : ℤ),
      (j * 2 ^ doubleExponent q : ℚ) / 2 ^ doubleExponent q = j :=
    fun q j ↦ mul_div_cancel_right₀ _ (hpos q).ne'
  have hzero : roundDouble 0 = 0 := by decide +kernel
  have hbound : ∀ q, |roundEven (q / 2 ^ doubleExponent q)| ≤ 2 ^ 53 :=
    fun q ↦ abs_roundEven_le (by exact_mod_cast abs_significand_le q)
  constructor
  · intro q hq
    exact ⟨_, _, hbound q, le_max_right _ _, doubleExponent_le hq, rfl⟩
  · intro q f hq hf
    rcases eq_or_ne q 0 with rfl | hne
    · rw [hzero, sub_self, abs_zero]
      exact abs_nonneg _
    · obtain ⟨j, hj⟩ := hf.on_grid hne
      have hnear := roundEven_nearest (q / 2 ^ doubleExponent q) j
      rw [hscale q f, hscale q (roundDouble q), roundDouble, hplace,
        mul_le_mul_iff_left₀ (hpos q)]
      rcases hj with rfl | hfar
      · rw [hplace]
        exact hnear
      · exact hnear.trans hfar.le
  · intro q f hq hf hother htie
    rcases eq_or_ne q 0 with rfl | hne
    · rw [hzero, sub_self, abs_zero, zero_sub, abs_neg, abs_eq_zero] at htie
      exact absurd (htie.trans hzero.symm) hother
    · obtain ⟨j, hj⟩ := hf.on_grid hne
      have hnear := roundEven_nearest (q / 2 ^ doubleExponent q) j
      rw [hscale q f, hscale q (roundDouble q), mul_left_inj' (hpos q).ne', roundDouble,
        hplace] at htie
      rcases hj with rfl | hfar
      · rw [hplace] at htie
        have heven : Even (roundEven (q / 2 ^ doubleExponent q)) := by
          apply roundEven_even _ htie
          rintro rfl
          exact hother rfl
        refine ⟨_, _, hbound q, ?_, le_max_right _ _, doubleExponent_le hq, heven, rfl⟩
        by_cases hexp : doubleExponent q = -1074
        · exact .inr hexp
        · exact .inl (le_abs_roundEven (by exact_mod_cast le_abs_significand hne hexp))
      · linarith

example : roundDouble (1 / 3) = 6004799503160661 / 2 ^ 54 := by decide +kernel
