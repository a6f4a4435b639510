import MultiSpeed.Lib.OrderStatistics
import MultiSpeed.Statistics.Reordering

/-!
# Summaries of samples

What `summarize` says of the samples when their arithmetic is exact, and that rounding to
doubles does not move the rank of the 95th percentile.
-/

namespace MultiSpeed.Statistics

open OrderStatistics

/-! ## Sorted samples -/

def sorted (values : List ℚ) : List ℚ := values.mergeSort fun a b ↦ decide (a ≤ b)

theorem sorted_perm (values : List ℚ) : (sorted values).Perm values := List.mergeSort_perm _ _

theorem length_sorted (values : List ℚ) : (sorted values).length = values.length :=
  (sorted_perm values).length_eq

theorem pairwise_sorted (values : List ℚ) : (sorted values).Pairwise (· ≤ ·) := by
  have h := @List.pairwise_mergeSort ℚ (fun a b ↦ decide (a ≤ b))
    (fun a b c hab hbc ↦ decide_eq_true ((of_decide_eq_true hab).trans (of_decide_eq_true hbc)))
    (fun a b ↦ by
      rw [Bool.or_eq_true, decide_eq_true_eq, decide_eq_true_eq]
      exact le_total a b) values
  exact h.imp of_decide_eq_true

theorem isStatistic_sorted {values : List ℚ} {k : ℕ} (hk : k < values.length) :
    IsStatistic values k ((sorted values).getD k 0) := by
  have hk' : k < (sorted values).length := (length_sorted values).symm ▸ hk
  rw [← List.getElem_eq_getD (h := hk') 0]
  exact (isStatistic_getElem (pairwise_sorted values) hk').perm (sorted_perm values)

/-! ## The rank of the percentile -/

/-- The number of samples that are to be at most the 95th percentile. -/
def rank (n : ℕ) : ℤ := ⌈(95 / 100 * n : ℚ)⌉

theorem rank_le_iff {n : ℕ} {k : ℤ} : rank n ≤ k ↔ (95 / 100 * n : ℚ) ≤ k := Int.ceil_le

theorem half_lt_rank {n : ℕ} (hn : 0 < n) : ((n / 2 : ℕ) : ℤ) < rank n := by
  rw [← not_le, rank_le_iff, not_le]
  have hhalf : 2 * ((n / 2 : ℕ) : ℚ) ≤ n := by exact_mod_cast Nat.mul_div_le n 2
  have hpos : (0 : ℚ) < n := Nat.cast_pos.mpr hn
  rw [Int.cast_natCast]
  linarith

theorem rank_le (n : ℕ) : rank n ≤ n := by
  rw [rank_le_iff]
  have hnonneg : (0 : ℚ) ≤ n := Nat.cast_nonneg n
  rw [Int.cast_natCast]
  linarith

/-! ## Exact arithmetic -/

noncomputable def exactArithmetic : Arithmetic ℝ := ⟨id, fun q ↦ Real.sqrt q⟩

/-- The middle value, or the mean of the two middle ones. -/
def IsMedian (values : List ℚ) (median : ℚ) : Prop :=
  if values.length % 2 = 0 then
    ∃ lower upper, IsStatistic values (values.length / 2 - 1) lower ∧
      IsStatistic values (values.length / 2) upper ∧ median = (lower + upper) / 2
  else IsStatistic values (values.length / 2) median

/-- What the numbers of a summary say of the samples. -/
structure Describes (values : List ℚ) (minimum maximum average median p95 : ℚ)
    (standardDeviation : ℝ) : Prop where
  isLeast : IsLeast {v | v ∈ values} minimum
  isGreatest : IsGreatest {v | v ∈ values} maximum
  minimum_le_median : minimum ≤ median
  median_le_maximum : median ≤ maximum
  minimum_le_average : minimum ≤ average
  average_le_maximum : average ≤ maximum
  median_le_p95 : median ≤ p95
  p95_le_maximum : p95 ≤ maximum
  sum : values.length * average = values.sum
  isMedian : IsMedian values median
  isPercentile : IsLeast {v | v ∈ values ∧ (95 / 100 * values.length : ℚ) ≤ atMost values v} p95
  nonneg : 0 ≤ standardDeviation
  deviation : standardDeviation ^ 2 =
    ((values.map fun v ↦ (v - average) ^ 2).sum / values.length : ℚ)

theorem foldl_add_eq_sum (l : List ℚ) (f : ℚ → ℚ) (a : ℚ) :
    l.foldl (fun sum v ↦ sum + f v) a = a + (l.map f).sum := by
  induction l generalizing a with
  | nil => simp
  | cons v l ih => rw [List.foldl_cons, ih, List.map_cons, List.sum_cons, add_assoc]

/-- The place of the percentile in the sorted list, as `summarize` computes it. -/
def percentileIndex (product : ℚ) : ℕ :=
  (let index := ⌈product⌉ - 1
  if index < 0 then 0 else index).toNat

theorem percentileIndex_eq {product : ℚ} {n : ℕ} (hceil : ⌈product⌉ = rank n) :
    percentileIndex product = (rank n - 1).toNat := by
  rw [percentileIndex, hceil]
  dsimp only
  split <;> omega

theorem summarize_exact {values : List ℚ} (hne : values ≠ []) :
    summarize exactArithmetic values =
      let n := values.length
      let average := values.sum / n
      let place := fun k ↦ (sorted values).getD k 0
      ⟨n, some (place 0), some (place (n - 1)), some average,
        some (if n % 2 = 0 then (place (n / 2 - 1) + place (n / 2)) / 2 else place (n / 2)),
        some (place (rank n - 1).toNat),
        some (Real.sqrt ((values.map fun v ↦ (v - average) ^ 2).sum / n : ℚ))⟩ := by
  have hlength : values.length ≠ 0 := fun h ↦ hne (List.length_eq_zero_iff.mp h)
  have hsum : (sorted values).foldl (fun sum value ↦ sum + value) 0 = values.sum := by
    have hfold := foldl_add_eq_sum (sorted values) id 0
    rw [List.map_id, zero_add, (sorted_perm values).sum_eq] at hfold
    exact hfold
  have hsquares : ∀ average : ℚ, (sorted values).foldl
      (fun sum value ↦ sum + (value - average) * (value - average)) 0 =
        (values.map fun v ↦ (v - average) ^ 2).sum := by
    intro average
    rw [foldl_add_eq_sum, zero_add, ((sorted_perm values).map _).sum_eq]
    simp only [pow_two]
  unfold summarize exactArithmetic
  rw [if_neg hlength]
  simp only [id]
  rw [show values.mergeSort (fun a b ↦ decide (a ≤ b)) = sorted values from rfl, hsum]
  simp only [hsquares, length_sorted]
  have hindex : (if ⌈(95 / 100 * values.length : ℚ)⌉ - 1 < 0 then 0
      else ⌈(95 / 100 * values.length : ℚ)⌉ - 1).toNat = (rank values.length - 1).toNat :=
    percentileIndex_eq rfl
  rw [hindex]

theorem isMedian_sorted {values : List ℚ} (hne : values ≠ []) :
    IsMedian values (if values.length % 2 = 0 then
        ((sorted values).getD (values.length / 2 - 1) 0 +
          (sorted values).getD (values.length / 2) 0) / 2
      else (sorted values).getD (values.length / 2) 0) := by
  have hpos := List.length_pos_of_ne_nil hne
  unfold IsMedian
  split
  · exact ⟨_, _, isStatistic_sorted (by omega), isStatistic_sorted (by omega), rfl⟩
  · exact isStatistic_sorted (by omega)

/-- The median does not exceed the value in the middle, and is not below the one before. -/
theorem IsMedian.between {values : List ℚ} {median low high : ℚ} (h : IsMedian values median)
    {j k : ℕ} (hlow : IsStatistic values j low) (hhigh : IsStatistic values k high)
    (hj : j ≤ (values.length - 1) / 2) (hk : values.length / 2 ≤ k) :
    low ≤ median ∧ median ≤ high := by
  unfold IsMedian at h
  split at h
  · obtain ⟨lower, upper, hlower, hupper, rfl⟩ := h
    have hbelow := hlow.le_of_le hlower (by omega)
    have hmiddle := hlower.le_of_le hupper (by omega)
    have habove := hupper.le_of_le hhigh hk
    constructor
    · linarith
    · linarith
  · exact ⟨hlow.le_of_le h (by omega), h.le_of_le hhigh hk⟩

theorem isLeast_percentile {values : List ℚ} {p95 : ℚ}
    (h : IsStatistic values (rank values.length - 1).toNat p95) (hpos : 0 < rank values.length) :
    IsLeast {v | v ∈ values ∧ (95 / 100 * values.length : ℚ) ≤ atMost values v} p95 := by
  have hset : {v | v ∈ values ∧ (95 / 100 * values.length : ℚ) ≤ atMost values v} =
      {v | v ∈ values ∧ (rank values.length - 1).toNat < atMost values v} := by
    ext v
    have hrank : (95 / 100 * values.length : ℚ) ≤ atMost values v ↔
        rank values.length ≤ (atMost values v : ℤ) := by
      rw [rank_le_iff, Int.cast_natCast]
    rw [Set.mem_ofPred_eq, Set.mem_ofPred_eq, hrank]
    apply and_congr_right'
    omega
  rw [hset]
  exact h.isLeast

theorem average_between {values : List ℚ} {minimum maximum : ℚ} (hne : values ≠ [])
    (hmin : ∀ v ∈ values, minimum ≤ v) (hmax : ∀ v ∈ values, v ≤ maximum) :
    minimum ≤ values.sum / values.length ∧ values.sum / values.length ≤ maximum := by
  have hpos : (0 : ℚ) < values.length := Nat.cast_pos.mpr (List.length_pos_of_ne_nil hne)
  have hlow := List.card_nsmul_le_sum values minimum hmin
  have hhigh := List.sum_le_card_nsmul values maximum hmax
  rw [nsmul_eq_mul] at hlow hhigh
  rw [le_div_iff₀ hpos, div_le_iff₀ hpos]
  constructor
  · linarith
  · linarith

theorem describes_summarize {values : List ℚ} (hne : values ≠ []) :
    ∃ minimum maximum average median p95 standardDeviation,
      summarize exactArithmetic values = ⟨values.length, some minimum, some maximum,
        some average, some median, some p95, some standardDeviation⟩ ∧
      Describes values minimum maximum average median p95 standardDeviation := by
  have hpos := List.length_pos_of_ne_nil hne
  have hhalf := half_lt_rank hpos
  have hrank := rank_le values.length
  have hfirst := isStatistic_sorted hpos
  have hlast := @isStatistic_sorted values (values.length - 1) (by omega)
  have hp95 := @isStatistic_sorted values (rank values.length - 1).toNat (by omega)
  have hmedian := isMedian_sorted hne
  obtain ⟨hmin, hmax⟩ := average_between hne hfirst.isLeast_first.2 hlast.isGreatest_last.2
  refine ⟨_, _, _, _, _, _, summarize_exact hne, hfirst.isLeast_first, hlast.isGreatest_last,
    (hmedian.between hfirst hlast (by omega) (by omega)).1,
    (hmedian.between hfirst hlast (by omega) (by omega)).2, hmin, hmax,
    (hmedian.between hfirst hp95 (by omega) (by omega)).2,
    hp95.le_of_le hlast (by omega), ?_, hmedian, isLeast_percentile hp95 (by omega),
    Real.sqrt_nonneg _, ?_⟩
  · rw [mul_div_cancel₀]
    exact Nat.cast_ne_zero.mpr hpos.ne'
  · apply Real.sq_sqrt
    rw [Rat.cast_nonneg]
    apply div_nonneg _ (Nat.cast_nonneg _)
    apply List.sum_nonneg
    intro x hx
    obtain ⟨v, -, rfl⟩ := List.mem_map.mp hx
    exact sq_nonneg _

/-! ## Doubles -/

section Doubles

variable {rnd : ℚ → ℚ} (h : NearestEven rnd)

include h

/-- The double next to 0.95 is below it. -/
theorem rnd_percentile_le : rnd (95 / 100) ≤ 95 / 100 := by
  have hrange : |(95 / 100 : ℚ)| ≤ 2 ^ 1023 := by
    rw [abs_of_pos (by norm_num)]
    exact le_trans (by norm_num) (one_le_pow₀ (by norm_num : (1 : ℚ) ≤ 2))
  have hbelow : IsDouble (((8556839292003942 : ℤ) : ℚ) / 2 ^ 53) :=
    isDouble_grid (by norm_num) (by norm_num)
  have hnear := h.nearest (95 / 100) _ hrange hbelow
  by_contra hgt
  rw [not_le] at hgt
  rw [abs_of_neg (by linarith), abs_of_pos (by norm_num)] at hnear
  obtain ⟨j, hj⟩ := (h.double (95 / 100) hrange).grid_of_le (k := -1)
    (le_trans (by norm_num) hgt.le)
  have hplace : (j : ℚ) = rnd (95 / 100) * 2 ^ 53 := by
    rw [hj, mul_assoc, ← zpow_natCast, ← zpow_add₀ (by norm_num)]
    norm_num
  have hlow : ((8556839292003942 : ℤ) : ℚ) < j := by
    rw [hplace]
    norm_num
    linarith
  have hhigh : (j : ℚ) < ((8556839292003943 : ℤ) : ℚ) := by
    rw [hplace]
    norm_num at hnear ⊢
    linarith
  rw [Int.cast_lt] at hlow hhigh
  omega

/-- Rounding the constant and the product does not move the rank. -/
theorem ceil_rnd {n : ℕ} (hn : n ≤ 2 ^ 45) : ⌈rnd (rnd (95 / 100) * n)⌉ = rank n := by
  have hle := rnd_percentile_le h
  have hconstant := h.error_le (q := 95 / 100) (n := 53) (by norm_num) (by norm_num) (by norm_num)
  obtain ⟨-, hclose⟩ := abs_le.mp hconstant
  have hn' : (n : ℚ) ≤ 2 ^ 45 := by exact_mod_cast hn
  have hnonneg : (0 : ℚ) ≤ n := Nat.cast_nonneg n
  have hpositive : 0 ≤ rnd (95 / 100) := by
    norm_num at hclose
    linarith
  have hproduct : 0 ≤ rnd (95 / 100) * n := mul_nonneg hpositive hnonneg
  have hproductLe : rnd (95 / 100) * n ≤ 95 / 100 * n := mul_le_mul_of_nonneg_right hle hnonneg
  have hfits : rnd (95 / 100) * n * 2 ^ 8 ≤ 2 ^ 53 := by
    calc rnd (95 / 100) * n * 2 ^ 8 ≤ 2 ^ 45 * 2 ^ 8 := by
          gcongr
          linarith
      _ = 2 ^ 53 := by norm_num
  have herror := h.error_le (n := 8) (by norm_num) hproduct hfits
  obtain ⟨-, hbelow⟩ := abs_le.mp herror
  have hproductGe : 95 / 100 * n - 1 / 2 ^ 9 ≤ rnd (95 / 100) * n := by
    have hgap : (95 / 100 - rnd (95 / 100)) * n ≤ 1 / 2 ^ 54 * 2 ^ 45 :=
      mul_le_mul hclose hn' hnonneg (by positivity)
    norm_num at hgap ⊢
    linarith
  rw [Int.ceil_eq_iff]
  constructor
  · -- what is left of nineteen twentieths above a whole number is a twentieth at least
    have hlt : ((rank n - 1 : ℤ) : ℚ) < 95 / 100 * n := by
      have hceil := Int.ceil_lt_add_one (95 / 100 * n : ℚ)
      rw [Int.cast_sub, Int.cast_one]
      linarith [show ((rank n : ℤ) : ℚ) < 95 / 100 * n + 1 from hceil]
    have hwhole : 20 * (rank n - 1) + 1 ≤ 19 * (n : ℤ) := by
      have hscaled : ((20 * (rank n - 1) : ℤ) : ℚ) < ((19 * n : ℤ) : ℚ) := by
        push_cast at hlt ⊢
        linarith
      have hint := Int.cast_lt.mp hscaled
      omega
    have hwhole' : ((20 * (rank n - 1) + 1 : ℤ) : ℚ) ≤ ((19 * n : ℤ) : ℚ) := Int.cast_le.mpr hwhole
    push_cast at hwhole'
    norm_num at hbelow hproductGe
    linarith
  · have hrank := rank_le n
    have hrankNonneg : 0 ≤ rank n := Int.ceil_nonneg (by positivity)
    have hdouble : IsDouble (((rank n : ℤ) : ℚ) / 2 ^ 0) := by
      apply isDouble_grid (by norm_num)
      rw [abs_of_nonneg hrankNonneg]
      omega
    rw [pow_zero, div_one] at hdouble
    apply h.rnd_le _ hdouble
    · exact hproductLe.trans (Int.le_ceil _)
    · rw [abs_of_nonneg hproduct]
      calc rnd (95 / 100) * n ≤ 95 / 100 * n := hproductLe
        _ ≤ 2 ^ 45 := by linarith
        _ ≤ 2 ^ 1023 := pow_le_pow_right₀ (by norm_num) (by norm_num)

end Doubles

theorem p95_summarize {R : Type*} (A : Arithmetic R) {values : List ℚ} (hne : values ≠ []) :
    (summarize A values).p95 = some ((sorted values).getD
      (percentileIndex (A.round (A.round (95 / 100) * values.length))) 0) := by
  have hlength : values.length ≠ 0 := fun h ↦ hne (List.length_eq_zero_iff.mp h)
  rw [← length_sorted]
  unfold summarize
  rw [if_neg hlength]
  rfl

theorem p95_double {rnd : ℚ → ℚ} (h : NearestEven rnd) {values : List ℚ}
    (hlength : values.length ≤ 2 ^ 45) :
    (summarize ⟨rnd, fun q ↦ Real.sqrt q⟩ values).p95 = (summarize exactArithmetic values).p95 := by
  rcases eq_or_ne values [] with rfl | hne
  · rfl
  · rw [p95_summarize _ hne, p95_summarize _ hne, percentileIndex_eq (ceil_rnd h hlength)]
    exact congrArg (fun index ↦ some ((sorted values).getD index 0)) (percentileIndex_eq rfl).symm

/-! ## The samples given -/

/-- `summarize` of a slice that is all of one of the arrays.  Appending to a nil slice
makes a new array, and that one is sorted in place. -/
def summarizeSlice {R : Type*} (A : Arithmetic R) (arrays : List (List ℚ)) (values : ℕ) :
    Summary R × List (List ℚ) :=
  let input := arrays.getD values []
  if input.length = 0 then (summarize A input, arrays)
  else
    let ordered := arrays.length
    let arrays := arrays ++ [input]
    (summarize A (arrays.getD ordered []), arrays.modify ordered sorted)

theorem summarizeSlice_keeps {R : Type*} (A : Arithmetic R) {arrays : List (List ℚ)} {index : ℕ}
    {values : List ℚ} (hvalues : arrays[index]? = some values) :
    (summarizeSlice A arrays index).1 = summarize A values ∧
      ∀ i < arrays.length, (summarizeSlice A arrays index).2[i]? = arrays[i]? := by
  have hinput : arrays.getD index [] = values := by
    rw [List.getD_eq_getElem?_getD, hvalues, Option.getD_some]
  unfold summarizeSlice
  simp only [hinput]
  split
  · exact ⟨rfl, fun _ _ ↦ rfl⟩
  · constructor
    · rw [List.getD_eq_getElem?_getD, List.getElem?_concat_length, Option.getD_some]
    · intro i hi
      rw [List.getElem?_modify_ne _ _ hi.ne', List.getElem?_append_left hi]

/-- The summary of samples in exact arithmetic is what its names say, depends on the
samples only, and leaves them as they are.  In doubles the percentile is the same sample. -/
theorem summarize_describes {values : List ℚ} (hne : values ≠ []) :
    (∃ minimum maximum average median p95 standardDeviation,
      summarize exactArithmetic values = ⟨values.length, some minimum, some maximum,
        some average, some median, some p95, some standardDeviation⟩ ∧
      Describes values minimum maximum average median p95 standardDeviation) ∧
    (∀ values', values'.Perm values →
      summarize exactArithmetic values' = summarize exactArithmetic values) ∧
    (∀ arrays index, arrays[index]? = some values →
      (summarizeSlice exactArithmetic arrays index).1 = summarize exactArithmetic values ∧
        ∀ i < arrays.length, (summarizeSlice exactArithmetic arrays index).2[i]? = arrays[i]?) ∧
    ∀ rnd : ℚ → ℚ, NearestEven rnd → values.length ≤ 2 ^ 45 →
      (summarize ⟨rnd, fun q ↦ Real.sqrt q⟩ values).p95 = (summarize exactArithmetic values).p95 :=
  ⟨describes_summarize hne, fun _ hperm ↦ summarize_perm exactArithmetic hperm,
    fun _ _ hvalues ↦ summarizeSlice_keeps exactArithmetic hvalues,
    fun _ hrnd hlength ↦ p95_double hrnd hlength⟩

theorem summarize_describes_three :
    ∃ minimum maximum average median p95 standardDeviation,
      summarize exactArithmetic [2, 7 / 2, 2] = ⟨3, some minimum, some maximum, some average,
        some median, some p95, some standardDeviation⟩ ∧
      Describes [2, 7 / 2, 2] minimum maximum average median p95 standardDeviation :=
  (summarize_describes (List.cons_ne_nil 2 [7 / 2, 2])).1

end MultiSpeed.Statistics
