import Mathlib.Algebra.BigOperators.Group.Finset.Basic
import Mathlib.Algebra.BigOperators.Group.List.Basic
import Mathlib.Data.List.AList
import Mathlib.Data.List.Perm.Subperm
import Mathlib.Order.Defs.LinearOrder

/-!
# Grouping a stream by a key

A map from keys to accumulators groups a list of records when it has an entry for
exactly the keys that occur and each entry was made from the records of its key.
Adding one record changes one entry.  What can be summed over the records is then the
sum over the entries.  Records in another order give the same keys, so a sorted view of
the entries depends on their order only as far as the view of one entry does.
-/

namespace Grouping

variable {ρ κ γ M : Type*} [DecidableEq κ]

/-- The records of one key, in their order. -/
def fiber (key : ρ → κ) (rows : List ρ) (k : κ) : List ρ := rows.filter fun r ↦ key r = k

section Fiber

variable (key : ρ → κ)

@[simp] theorem fiber_nil (k : κ) : fiber key [] k = [] := rfl

theorem mem_fiber {rows : List ρ} {k : κ} {r : ρ} :
    r ∈ fiber key rows k ↔ r ∈ rows ∧ key r = k := by
  simp [fiber]

theorem fiber_concat_self (rows : List ρ) (r : ρ) :
    fiber key (rows ++ [r]) (key r) = fiber key rows (key r) ++ [r] := by
  simp [fiber]

theorem fiber_concat_ne (rows : List ρ) {r : ρ} {k : κ} (h : k ≠ key r) :
    fiber key (rows ++ [r]) k = fiber key rows k := by
  simp [fiber, h.symm]

/-- The sum over all records is the sum over the keys of the sums over their records. -/
theorem sum_fibers [AddCommMonoid M] (weight : ρ → M) {keys : List κ} (hkeys : keys.Nodup)
    {rows : List ρ} (hcover : ∀ r ∈ rows, key r ∈ keys) :
    (keys.map fun k ↦ ((fiber key rows k).map weight).sum).sum = (rows.map weight).sum := by
  induction rows with
  | nil => exact List.sum_eq_zero (by simp)
  | cons r rows ih =>
      have hsplit : ∀ k, ((fiber key (r :: rows) k).map weight).sum =
          (if k = key r then weight r else 0) + ((fiber key rows k).map weight).sum := by
        intro k
        by_cases hk : k = key r
        · simp [fiber, hk]
        · simp [fiber, hk, Ne.symm hk]
      -- the new record counts at one key
      have hone : (keys.map fun k ↦ if k = key r then weight r else 0).sum = weight r := by
        rw [List.sum_map_eq_nsmul_single (key r) _ fun k hk _ ↦ if_neg hk,
          List.count_eq_one_of_mem hkeys (hcover r List.mem_cons_self), one_nsmul, if_pos rfl]
      calc (keys.map fun k ↦ ((fiber key (r :: rows) k).map weight).sum).sum
          = (keys.map fun k ↦ (if k = key r then weight r else 0) +
              ((fiber key rows k).map weight).sum).sum := by rw [List.map_congr_left fun k _ ↦ hsplit k]
        _ = weight r + (rows.map weight).sum := by
            rw [List.sum_map_add, hone, ih fun x hx ↦ hcover x (List.mem_cons_of_mem r hx)]

/-- The records of all keys are all records. -/
theorem flatMap_fiber_perm {keys : List κ} (hkeys : keys.Nodup) {rows : List ρ}
    (hcover : ∀ r ∈ rows, key r ∈ keys) : (keys.flatMap (fiber key rows)).Perm rows := by
  induction keys generalizing rows with
  | nil =>
      obtain rfl : rows = [] := List.eq_nil_iff_forall_not_mem.mpr fun r hr ↦ by cases hcover r hr
      exact List.Perm.refl []
  | cons k keys ih =>
      obtain ⟨hk, hkeys⟩ := List.nodup_cons.mp hkeys
      have hrest := @ih hkeys (rows.filter fun r ↦ !decide (key r = k)) (by
        intro r hr
        obtain ⟨hmem, hne⟩ := List.mem_filter.mp hr
        rcases List.mem_cons.mp (hcover r hmem) with h | h
        · simp [h] at hne
        · exact h)
      have hsame : ∀ k' ∈ keys, fiber key (rows.filter fun r ↦ !decide (key r = k)) k' =
          fiber key rows k' := by
        intro k' hk'
        rw [fiber, fiber, List.filter_filter]
        apply List.filter_congr
        intro r _
        by_cases hr : key r = k'
        · have hne : key r ≠ k := fun h ↦ hk (h ▸ hr ▸ hk')
          simp [hr, hr ▸ hne]
        · simp [hr]
      rw [List.flatMap_cons, ← List.flatMap_congr hsame]
      exact (List.Perm.append_left _ hrest).trans (List.filter_append_perm _ rows)

end Fiber

/-- The records that no record of their key comes after. -/
def maxima (key : ρ → κ) (after : ρ → ρ → Bool) (rows : List ρ) : List ρ :=
  rows.filter fun r ↦ !rows.any fun r' ↦ decide (key r' = key r) && after r' r

section Maxima

variable {key : ρ → κ} {after : ρ → ρ → Bool} {rows : List ρ}

theorem mem_maxima {r : ρ} :
    r ∈ maxima key after rows ↔ r ∈ rows ∧ ∀ r' ∈ rows, key r' = key r → after r' r = false := by
  simp [maxima, List.any_eq_false]

/-- Where of two records one comes after the other, each key has one at most. -/
theorem nodup_maxima (hrows : rows.Nodup)
    (htotal : ∀ r ∈ rows, ∀ r' ∈ rows, r ≠ r' → after r r' = true ∨ after r' r = true) :
    ((maxima key after rows).map key).Nodup := by
  refine List.Nodup.map_on ?_ (hrows.filter _)
  intro r hr r' hr' hkey
  obtain ⟨hmem, hlast⟩ := mem_maxima.mp hr
  obtain ⟨hmem', hlast'⟩ := mem_maxima.mp hr'
  by_contra hne
  rcases htotal r hmem r' hmem' hne with hafter | hafter
  · exact absurd hafter (by simp [hlast' r hmem hkey])
  · exact absurd hafter (by simp [hlast r' hmem' hkey.symm])

/-- The last records of listed keys are no more than the keys. -/
theorem length_maxima_le (hrows : rows.Nodup)
    (htotal : ∀ r ∈ rows, ∀ r' ∈ rows, r ≠ r' → after r r' = true ∨ after r' r = true)
    {p : ρ → Bool} {keys : List κ} (hkeys : ∀ r ∈ rows, p r = true → key r ∈ keys) :
    ((maxima key after rows).filter p).length ≤ keys.length := by
  have hnodup : (((maxima key after rows).filter p).map key).Nodup :=
    (nodup_maxima hrows htotal).sublist (List.filter_sublist.map key)
  have hsubset : ((maxima key after rows).filter p).map key ⊆ keys := by
    intro k hk
    obtain ⟨r, hr, rfl⟩ := List.mem_map.mp hk
    obtain ⟨hmem, hp⟩ := List.mem_filter.mp hr
    exact hkeys r (mem_maxima.mp hmem).1 hp
  simpa using (hnodup.subperm hsubset).length_le

/-- Every key that occurs has a last record. -/
theorem exists_mem_maxima (hirrefl : ∀ r, after r r = false)
    (htrans : ∀ r r' r'', after r r' = true → after r' r'' = true → after r r'' = true)
    {r : ρ} (hr : r ∈ rows) : ∃ r' ∈ maxima key after rows, key r' = key r := by
  have hlast : ∀ l : List ρ, l ≠ [] → ∃ r' ∈ l, ∀ r ∈ l, after r r' = false := by
    intro l hl
    induction l with
    | nil => exact absurd rfl hl
    | cons r l ih =>
        by_cases hnil : l = []
        · refine ⟨r, List.mem_cons_self, ?_⟩
          simp [hnil, hirrefl]
        · obtain ⟨r', hr', hlast⟩ := ih hnil
          cases hafter : after r r' with
          | false =>
              refine ⟨r', List.mem_cons_of_mem r hr', ?_⟩
              simpa [hafter] using hlast
          | true =>
              refine ⟨r, List.mem_cons_self, ?_⟩
              intro r'' hr''
              rcases List.mem_cons.mp hr'' with rfl | hr''
              · exact hirrefl r''
              · rw [Bool.eq_false_iff]
                intro h
                have hcontra := htrans r'' r r' h hafter
                rw [hlast r'' hr''] at hcontra
                cases hcontra
  have hmem := (mem_fiber key).mpr ⟨hr, rfl⟩
  obtain ⟨r', hr', hall⟩ := hlast (fiber key rows (key r)) (List.ne_nil_of_mem hmem)
  obtain ⟨hrow, hkey⟩ := (mem_fiber key).mp hr'
  refine ⟨r', mem_maxima.mpr ⟨hrow, ?_⟩, hkey⟩
  intro r'' hr'' hkey'
  exact hall r'' ((mem_fiber key).mpr ⟨hr'', hkey'.trans hkey⟩)

/-- The record of a key that no other one comes after. -/
def maximum (key : ρ → κ) (after : ρ → ρ → Bool) (rows : List ρ) (k : κ) : Option ρ :=
  (maxima key after rows).find? fun r ↦ key r = k

theorem maximum_eq_some_iff (hrows : rows.Nodup)
    (htotal : ∀ r ∈ rows, ∀ r' ∈ rows, r ≠ r' → after r r' = true ∨ after r' r = true)
    {k : κ} {r : ρ} :
    maximum key after rows k = some r ↔ r ∈ maxima key after rows ∧ key r = k := by
  have hfound {k : κ} {r : ρ} (h : maximum key after rows k = some r) :
      r ∈ maxima key after rows ∧ key r = k := by
    rw [maximum] at h
    have hkey := List.find?_some h
    exact ⟨List.mem_of_find?_eq_some h, of_decide_eq_true hkey⟩
  constructor
  · exact hfound
  · rintro ⟨hmem, rfl⟩
    obtain ⟨r', hr'⟩ : ∃ r', maximum key after rows (key r) = some r' := by
      rw [← Option.isSome_iff_exists, maximum, List.find?_isSome]
      exact ⟨r, hmem, decide_eq_true rfl⟩
    obtain ⟨hmem', hkey⟩ := hfound hr'
    rw [hr', List.inj_on_of_nodup_map (nodup_maxima hrows htotal) hmem' hmem hkey]

end Maxima

/-! ## Maps by key -/

section IndexBy

variable {key : ρ → κ} {f : ρ → γ} {rows : List ρ}

/-- What `f` makes of the records, by their keys. -/
def indexBy (key : ρ → κ) (f : ρ → γ) (rows : List ρ) : AList fun _ : κ ↦ γ :=
  rows.foldl (fun entries r ↦ entries.insert (key r) (f r)) ∅

theorem indexBy_concat (r : ρ) :
    indexBy key f (rows ++ [r]) = (indexBy key f rows).insert (key r) (f r) := by
  rw [indexBy, List.foldl_concat]
  rfl

theorem lookup_indexBy_eq_some_iff (hrows : (rows.map key).Nodup) {k : κ} {g : γ} :
    (indexBy key f rows).lookup k = some g ↔ ∃ r ∈ rows, key r = k ∧ f r = g := by
  induction rows using List.reverseRecOn with
  | nil => simp [indexBy]
  | append_singleton rows r ih =>
      rw [List.map_append, List.map_singleton] at hrows
      have hnew : key r ∉ rows.map key := fun hmem ↦
        List.disjoint_of_nodup_append hrows hmem (List.mem_singleton_self _)
      have hrest := ih hrows.of_append_left
      rw [indexBy_concat]
      by_cases hk : k = key r
      · subst hk
        rw [AList.lookup_insert, Option.some.injEq]
        constructor
        · rintro rfl
          exact ⟨r, by simp, rfl, rfl⟩
        · rintro ⟨r', hr', hkey, rfl⟩
          rcases List.mem_append.mp hr' with hr' | hr'
          · exact absurd (List.mem_map.mpr ⟨r', hr', hkey⟩) hnew
          · rw [List.mem_singleton.mp hr']
      · rw [AList.lookup_insert_ne hk, hrest]
        simp [or_and_right, exists_or, Ne.symm hk]

end IndexBy

/-! ## Entries in the order of their keys' first records -/

/-- The map has the position of every entry by its key. -/
def Indexed (key : γ → κ) (entries : List γ) (indexes : AList fun _ : κ ↦ ℕ) : Prop :=
  ∀ k i, indexes.lookup k = some i ↔ (entries.map key)[i]? = some k

namespace Indexed

variable {key : γ → κ} {entries : List γ} {indexes : AList fun _ : κ ↦ ℕ}

theorem nil : Indexed key ([] : List γ) ∅ := by
  intro k i
  simp

theorem nodup (h : Indexed key entries indexes) : (entries.map key).Nodup := by
  rw [List.nodup_iff_getElem?_ne_getElem?]
  intro i j hij hj heq
  have hk := List.getElem?_eq_getElem hj
  have hi := (h _ i).mpr (heq.trans hk)
  rw [(h _ j).mpr hk] at hi
  exact hij.ne (Option.some.inj hi).symm

theorem lookup_eq_none_iff (h : Indexed key entries indexes) {k : κ} :
    indexes.lookup k = none ↔ k ∉ entries.map key := by
  rw [← not_iff_not, not_not, ← ne_eq, Option.ne_none_iff_exists', List.mem_iff_getElem?]
  exact exists_congr fun i ↦ h k i

/-- An entry with a new key is added at the end. -/
theorem push (h : Indexed key entries indexes) {e : γ} (hnew : indexes.lookup (key e) = none) :
    Indexed key (entries ++ [e]) (indexes.insert (key e) entries.length) := by
  have hlast : ((entries ++ [e]).map key)[entries.length]? = some (key e) := by simp
  intro k i
  by_cases hk : k = key e
  · subst hk
    rw [AList.lookup_insert, Option.some.injEq]
    constructor
    · rintro rfl
      exact hlast
    · intro hi
      rw [List.map_append, List.map_singleton] at hi
      by_contra hne
      rcases lt_or_gt_of_ne hne with hlt | hgt
      · rw [List.getElem?_eq_none (by simp; omega)] at hi
        cases hi
      · rw [List.getElem?_append_left (by simpa using hgt)] at hi
        exact h.lookup_eq_none_iff.mp hnew (List.mem_of_getElem? hi)
  · rw [AList.lookup_insert_ne hk, h k i, List.map_append, List.map_singleton]
    constructor
    · intro hi
      rw [List.getElem?_append_left (List.getElem?_eq_some_iff.mp hi).1]
      exact hi
    · intro hi
      rcases lt_or_ge i (entries.map key).length with hlt | hge
      · rwa [List.getElem?_append_left hlt] at hi
      · rw [List.getElem?_append_right hge] at hi
        have hmem := List.mem_of_getElem? hi
        exact absurd (List.mem_singleton.mp hmem) hk

omit [DecidableEq κ] in
theorem map_modify {f : γ → γ} (hf : ∀ e, key (f e) = key e) (i : ℕ) :
    (entries.modify i f).map key = entries.map key := by
  apply List.ext_getElem?
  intro j
  rw [List.getElem?_map, List.getElem?_map, List.getElem?_modify]
  cases entries[j]? with
  | none => rfl
  | some e =>
      simp only [Option.map_eq_map, Option.map_some]
      split
      · rw [hf]
      · rfl

theorem modify (h : Indexed key entries indexes) {f : γ → γ} (hf : ∀ e, key (f e) = key e)
    (i : ℕ) : Indexed key (entries.modify i f) indexes := by
  intro k j
  rw [map_modify hf]
  exact h k j

/-- Only the entry of the key is changed. -/
theorem mem_modify (h : Indexed key entries indexes) {f : γ → γ} {k : κ} {i : ℕ}
    (hi : indexes.lookup k = some i) {e : γ} (he : e ∈ entries.modify i f) :
    ∃ e' ∈ entries, e = if key e' = k then f e' else e' := by
  obtain ⟨j, hj⟩ := List.mem_iff_getElem?.mp he
  rw [List.getElem?_modify] at hj
  cases hentry : entries[j]? with
  | none =>
      rw [hentry] at hj
      cases hj
  | some e' =>
      rw [hentry] at hj
      have hkey : (entries.map key)[j]? = some (key e') := by
        rw [List.getElem?_map, hentry, Option.map_some]
      have hsame : key e' = k ↔ i = j := by
        constructor
        · rintro rfl
          rw [(h _ j).mpr hkey] at hi
          exact (Option.some.inj hi).symm
        · rintro rfl
          exact Option.some.inj (hkey.symm.trans ((h k i).mp hi))
      refine ⟨e', List.mem_of_getElem? hentry, ?_⟩
      simp only [hsame]
      exact (Option.some.inj hj).symm

end Indexed

/-- The entries of a map are made from the records of their keys, as `made` says. -/
def Groups (key : ρ → κ) (made : κ → List ρ → γ → Prop) (rows : List ρ)
    (lookup : κ → Option γ) : Prop :=
  ∀ k, match lookup k with
    | none => fiber key rows k = []
    | some g => fiber key rows k ≠ [] ∧ made k (fiber key rows k) g

namespace Groups

variable {key : ρ → κ} {made : κ → List ρ → γ → Prop} {rows : List ρ}

theorem nil : Groups key made [] fun _ ↦ none := fun _ ↦ rfl

theorem concat {lookup lookup' : κ → Option γ} (h : Groups key made rows lookup) {r : ρ} {g : γ}
    (hg : made (key r) (fiber key rows (key r) ++ [r]) g) (hself : lookup' (key r) = some g)
    (hother : ∀ k, k ≠ key r → lookup' k = lookup k) :
    Groups key made (rows ++ [r]) lookup' := by
  intro k
  by_cases hk : k = key r
  · rw [hk, hself, fiber_concat_self]
    exact ⟨List.append_ne_nil_of_right_ne_nil _ (List.cons_ne_nil r []), hg⟩
  · rw [hother k hk, fiber_concat_ne key rows hk]
    exact h k

theorem of_some {lookup : κ → Option γ} (h : Groups key made rows lookup) {k : κ} {g : γ}
    (hlookup : lookup k = some g) : fiber key rows k ≠ [] ∧ made k (fiber key rows k) g := by
  have hk := h k
  rwa [hlookup] at hk

theorem of_none {lookup : κ → Option γ} (h : Groups key made rows lookup) {k : κ}
    (hlookup : lookup k = none) : fiber key rows k = [] := by
  have hk := h k
  rwa [hlookup] at hk

theorem exists_of_mem {lookup : κ → Option γ} (h : Groups key made rows lookup) {r : ρ}
    (hr : r ∈ rows) : ∃ g, lookup (key r) = some g := by
  cases hlookup : lookup (key r) with
  | some g => exact ⟨g, rfl⟩
  | none =>
      have hmem := (mem_fiber key).mpr ⟨hr, rfl⟩
      rw [h.of_none hlookup] at hmem
      cases hmem

/-- Summing over the entries is summing over the records. -/
theorem sum_entries [AddCommMonoid M] {groups : AList fun _ : κ ↦ γ}
    (h : Groups key made rows groups.lookup) (weight : ρ → M) (total : γ → M)
    (htotal : ∀ k rows g, made k rows g → total g = (rows.map weight).sum) :
    (groups.entries.map fun e ↦ total e.2).sum = (rows.map weight).sum := by
  have hcover : ∀ r ∈ rows, key r ∈ groups.keys := by
    intro r hr
    obtain ⟨g, hg⟩ := h.exists_of_mem hr
    exact AList.mem_keys.mp (AList.lookup_isSome.mp (by rw [hg]; rfl))
  rw [← sum_fibers key weight groups.keys_nodup hcover, AList.keys, List.keys, List.map_map]
  congr 1
  apply List.map_congr_left
  intro e he
  have hlookup : groups.lookup e.1 = some e.2 := AList.mem_lookup_iff.mpr he
  exact htotal _ _ _ (h.of_some hlookup).2

end Groups

/-! ## Counting the keys -/

section Keys

variable {τ : Type*} [DecidableEq τ]

/-- The keys that occur. -/
def keys (key : ρ → κ) (rows : List ρ) : Finset κ := (rows.map key).toFinset

theorem mem_keys {key : ρ → κ} {rows : List ρ} {k : κ} :
    k ∈ keys key rows ↔ ∃ r ∈ rows, key r = k := by
  simp [keys]

theorem keys_concat (key : ρ → κ) (rows : List ρ) (r : ρ) :
    keys key (rows ++ [r]) = insert (key r) (keys key rows) := by
  ext k
  rw [Finset.mem_insert, mem_keys, mem_keys]
  simp only [List.mem_append, List.mem_singleton, or_and_right, exists_or, exists_eq_left]
  rw [or_comm, eq_comm]

theorem card_keys_concat (key : ρ → κ) (rows : List ρ) (r : ρ) :
    (keys key (rows ++ [r])).card =
      (keys key rows).card + if key r ∈ keys key rows then 0 else 1 := by
  rw [keys_concat]
  split
  · rename_i hmem
    rw [Finset.insert_eq_of_mem hmem, Nat.add_zero]
  · rename_i hnew
    exact Finset.card_insert_of_notMem hnew

theorem keys_mono (key : ρ → κ) {rows rows' : List ρ} (h : rows ⊆ rows') :
    keys key rows ⊆ keys key rows' := by
  intro k hk
  obtain ⟨r, hr, rfl⟩ := mem_keys.mp hk
  exact mem_keys.mpr ⟨r, h hr, rfl⟩

/-- Counting the second keys within each first key is counting the pairs. -/
theorem sum_card_keys (key : ρ → κ) (sub : ρ → τ) (rows : List ρ) :
    ∑ k ∈ keys key rows, (1 + (keys sub (fiber key rows k)).card) =
      (keys key rows).card + (keys (fun r ↦ (key r, sub r)) rows).card := by
  have hfirst : ∀ pair ∈ keys (fun r ↦ (key r, sub r)) rows, pair.1 ∈ keys key rows := by
    intro pair hpair
    obtain ⟨r, hr, rfl⟩ := mem_keys.mp hpair
    exact mem_keys.mpr ⟨r, hr, rfl⟩
  rw [Finset.sum_add_distrib, Finset.card_eq_sum_ones, Finset.card_eq_sum_card_fiberwise hfirst]
  congr 1
  refine Finset.sum_congr rfl fun k _ ↦ ?_
  have himage : ((keys (fun r ↦ (key r, sub r)) rows).filter fun pair ↦ pair.1 = k) =
      (keys sub (fiber key rows k)).image fun s ↦ (k, s) := by
    ext ⟨k', s⟩
    simp only [Finset.mem_filter, Finset.mem_image, mem_keys, mem_fiber, Prod.mk.injEq]
    constructor
    · rintro ⟨⟨r, hr, rfl, rfl⟩, rfl⟩
      exact ⟨sub r, ⟨r, ⟨hr, rfl⟩, rfl⟩, rfl, rfl⟩
    · rintro ⟨_, ⟨r, ⟨hr, rfl⟩, rfl⟩, rfl, rfl⟩
      exact ⟨⟨r, hr, rfl, rfl⟩, rfl⟩
  rw [himage, Finset.card_image_of_injective _ fun s s' h ↦ (Prod.mk.inj h).2]

namespace Groups

variable {key : ρ → κ} {made : κ → List ρ → γ → Prop} {rows : List ρ}

/-- A map has no entry exactly for the keys that do not occur. -/
theorem lookup_eq_none_iff {lookup : κ → Option γ} (h : Groups key made rows lookup) {k : κ} :
    lookup k = none ↔ k ∉ keys key rows := by
  constructor
  · intro hnone hk
    obtain ⟨r, hr, rfl⟩ := mem_keys.mp hk
    obtain ⟨g, hg⟩ := h.exists_of_mem hr
    rw [hnone] at hg
    cases hg
  · intro hk
    by_contra hsome
    obtain ⟨g, hg⟩ := Option.ne_none_iff_exists'.mp hsome
    obtain ⟨r, hr⟩ := List.exists_mem_of_ne_nil _ (h.of_some hg).1
    obtain ⟨hmem, rfl⟩ := (mem_fiber key).mp hr
    exact hk (mem_keys.mpr ⟨r, hmem, rfl⟩)

theorem keys_toFinset {groups : AList fun _ : κ ↦ γ} (h : Groups key made rows groups.lookup) :
    groups.keys.toFinset = keys key rows := by
  ext k
  rw [List.mem_toFinset, ← not_iff_not, ← h.lookup_eq_none_iff, AList.lookup_eq_none]
  rfl

/-- The entries are as many as the keys. -/
theorem length_entries {groups : AList fun _ : κ ↦ γ} (h : Groups key made rows groups.lookup) :
    groups.entries.length = (keys key rows).card := by
  rw [← h.keys_toFinset, List.toFinset_card_of_nodup groups.keys_nodup, AList.keys, List.keys,
    List.length_map]

/-- A sum over the entries is a sum over the keys. -/
theorem sum_entries_keys [AddCommMonoid M] {groups : AList fun _ : κ ↦ γ}
    (h : Groups key made rows groups.lookup) (total : γ → M) (value : κ → M)
    (htotal : ∀ e ∈ groups.entries, total e.2 = value e.1) :
    (groups.entries.map fun e ↦ total e.2).sum = ∑ k ∈ keys key rows, value k := by
  rw [← h.keys_toFinset, List.sum_toFinset _ groups.keys_nodup, AList.keys, List.keys, List.map_map,
    List.map_congr_left htotal]
  rfl

end Groups

end Keys

/-! ## Records in another order -/

theorem fiber_perm (key : ρ → κ) {rows rows' : List ρ} (h : rows.Perm rows') (k : κ) :
    (fiber key rows k).Perm (fiber key rows' k) := h.filter _

/-- Sorting by a rank forgets the order of a list whose elements differ in rank. -/
theorem mergeSort_eq_of_perm {α τ : Type*} [LinearOrder τ] (rank : α → τ) {l l' : List α}
    (h : l.Perm l') (hrank : ∀ a ∈ l, ∀ b ∈ l, rank a = rank b → a = b) :
    l.mergeSort (fun a b ↦ decide (rank a ≤ rank b)) =
      l'.mergeSort fun a b ↦ decide (rank a ≤ rank b) := by
  have hsorted : ∀ l : List α,
      (l.mergeSort fun a b ↦ decide (rank a ≤ rank b)).Pairwise fun a b ↦ rank a ≤ rank b := by
    intro l
    have hpairwise := @List.pairwise_mergeSort α (fun a b ↦ decide (rank a ≤ rank b))
      (fun a b c hab hbc ↦ decide_eq_true ((of_decide_eq_true hab).trans (of_decide_eq_true hbc)))
      (fun a b ↦ by
        rcases le_total (rank a) (rank b) with hle | hle <;> simp [hle]) l
    exact hpairwise.imp of_decide_eq_true
  refine List.Perm.eq_of_pairwise (fun a b ha hb hab hba ↦ ?_) (hsorted l) (hsorted l')
    ((List.mergeSort_perm l _).trans (h.trans (List.mergeSort_perm l' _).symm))
  exact hrank a (List.mem_mergeSort.mp ha) b (h.mem_iff.mpr (List.mem_mergeSort.mp hb))
    (le_antisymm hab hba)

namespace Groups

variable {key : ρ → κ} {made made' : κ → List ρ → γ → Prop} {rows rows' : List ρ}
  {groups groups' : AList fun _ : κ ↦ γ} {δ : Type*}

theorem entries_map (groups : AList fun _ : κ ↦ γ) (value : γ → δ) :
    groups.entries.map (fun e ↦ value e.2) =
      groups.keys.filterMap fun k ↦ (groups.lookup k).map value := by
  rw [AList.keys, List.keys, List.filterMap_map, ← List.filterMap_eq_map]
  apply List.filterMap_congr
  intro e he
  have hlookup : groups.lookup e.1 = some e.2 := AList.mem_lookup_iff.mpr he
  simp [hlookup]

/-- The entries agree up to their order in everything that agrees key by key. -/
theorem perm_values (h : Groups key made rows groups.lookup)
    (h' : Groups key made' rows' groups'.lookup) (hperm : rows.Perm rows') (value : γ → δ)
    (hvalue : ∀ k g g', groups.lookup k = some g → groups'.lookup k = some g' →
      value g = value g') :
    (groups.entries.map fun e ↦ value e.2).Perm (groups'.entries.map fun e ↦ value e.2) := by
  have hlookup : ∀ k, (groups.lookup k).map value = (groups'.lookup k).map value := by
    intro k
    have hfiber := fiber_perm key hperm k
    cases hg : groups.lookup k with
    | none =>
        rw [h.of_none hg] at hfiber
        cases hg' : groups'.lookup k with
        | none => rfl
        | some g' => exact absurd hfiber.nil_eq.symm (h'.of_some hg').1
    | some g =>
        cases hg' : groups'.lookup k with
        | none =>
            rw [h'.of_none hg'] at hfiber
            exact absurd hfiber.eq_nil (h.of_some hg).1
        | some g' => exact congrArg some (hvalue k g g' hg hg')
  have hkeys : groups.keys.Perm groups'.keys := by
    rw [List.perm_ext_iff_of_nodup groups.keys_nodup groups'.keys_nodup]
    intro k
    rw [← AList.mem_keys, ← AList.mem_keys, ← AList.lookup_isSome, ← AList.lookup_isSome,
      ← Option.isSome_map (f := value), hlookup, Option.isSome_map]
  rw [entries_map, entries_map, ← funext hlookup]
  exact hkeys.filterMap _

/-- A view of the entries sorted by a rank that tells the keys apart. -/
theorem sorted_values {τ : Type*} [LinearOrder τ] (h : Groups key made rows groups.lookup)
    (h' : Groups key made' rows' groups'.lookup) (hperm : rows.Perm rows') (value : γ → δ)
    (hvalue : ∀ k g g', groups.lookup k = some g → groups'.lookup k = some g' →
      value g = value g')
    (rank : δ → τ) (hrank : ∀ k k' g g', groups.lookup k = some g →
      groups.lookup k' = some g' → rank (value g) = rank (value g') → k = k')
    {le : γ → γ → Bool} (hle : ∀ g g', le g g' = decide (rank (value g) ≤ rank (value g'))) :
    ((groups.entries.map (·.2)).mergeSort le).map value =
      ((groups'.entries.map (·.2)).mergeSort le).map value := by
  have hview : ∀ groups : AList fun _ : κ ↦ γ,
      ((groups.entries.map (·.2)).mergeSort le).map value =
        (groups.entries.map fun e ↦ value e.2).mergeSort fun a b ↦ decide (rank a ≤ rank b) := by
    intro groups
    rw [@List.map_mergeSort γ δ le (fun a b ↦ decide (rank a ≤ rank b)) value _
      fun a _ b _ ↦ hle a b, List.map_map]
    rfl
  rw [hview, hview]
  refine mergeSort_eq_of_perm rank (h.perm_values h' hperm value hvalue) fun a ha b hb hab ↦ ?_
  obtain ⟨e, he, rfl⟩ := List.mem_map.mp ha
  obtain ⟨e', he', rfl⟩ := List.mem_map.mp hb
  have hlookup : groups.lookup e.1 = some e.2 := AList.mem_lookup_iff.mpr he
  have hlookup' : groups.lookup e'.1 = some e'.2 := AList.mem_lookup_iff.mpr he'
  have hkey := hrank _ _ _ _ hlookup hlookup' hab
  rw [hkey, hlookup'] at hlookup
  rw [Option.some.inj hlookup]

end Groups

end Grouping
