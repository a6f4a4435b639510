import Mathlib.Data.List.Nodup
import Mathlib.Data.List.Perm.Subperm
import Mathlib.Tactic.Common

/-!
# Relational tables with a primary key and row checks

A table is a list of rows in which no key occurs twice and every row passes
the schema's check, so a table that breaks a constraint cannot be written
down.  Statements that would break one return `none`.  Proofs about stored
data use the partial map `find?`; each statement has one lemma that says what
it does to that map, and so has each loop of upserts or retirements.
-/

/-- The primary key of a row type and the check constraints on one row. -/
structure Schema (ρ κ : Type*) where
  key : ρ → κ
  check : ρ → Bool

/-- Rows that satisfy the constraints of the schema. -/
structure Table {ρ κ : Type*} (S : Schema ρ κ) where
  rows : List ρ
  keys_nodup : (rows.map S.key).Nodup
  checked : ∀ r ∈ rows, S.check r = true

namespace Table

variable {ρ κ : Type*} [DecidableEq κ] {S : Schema ρ κ}

/-- The table without rows. -/
def empty : Table S := ⟨[], by simp, by simp⟩

instance : Inhabited (Table S) := ⟨empty⟩

/-- `SELECT ... WHERE key = k`. -/
def find? (t : Table S) (k : κ) : Option ρ := t.rows.find? fun r ↦ S.key r = k

/-- `INSERT`: fails when the key is taken or the row breaks a check. -/
def insert (t : Table S) (r : ρ) : Option (Table S) :=
  if h : S.key r ∉ t.rows.map S.key ∧ S.check r = true then
    some {
      rows := t.rows ++ [r]
      keys_nodup := by
        rw [List.map_append, List.nodup_append]
        refine ⟨t.keys_nodup, by simp, ?_⟩
        intro a ha b hb hab
        obtain rfl : b = S.key r := by simpa using hb
        exact h.1 (hab ▸ ha)
      checked := by
        intro q hq
        rcases List.mem_append.mp hq with hq | hq
        · exact t.checked q hq
        · obtain rfl : q = r := by simpa using hq
          exact h.2 }
  else none

/-- `UPDATE ... SET f WHERE p`: fails as a whole when a new row breaks a
check.  The columns that are set do not include the key. -/
def update (t : Table S) (p : ρ → Bool) (f : ρ → ρ) (hf : ∀ r, S.key (f r) = S.key r) :
    Option (Table S) :=
  if h : ∀ r ∈ t.rows, p r = true → S.check (f r) = true then
    some {
      rows := t.rows.map fun r ↦ if p r then f r else r
      keys_nodup := by
        have hkeys : (t.rows.map fun r ↦ if p r then f r else r).map S.key =
            t.rows.map S.key := by
          rw [List.map_map]
          apply List.map_congr_left
          intro r _
          by_cases hp : p r <;> simp [hp, hf]
        rw [hkeys]
        exact t.keys_nodup
      checked := by
        intro q hq
        obtain ⟨r, hr, rfl⟩ := List.mem_map.mp hq
        by_cases hp : p r
        · simpa [hp] using h r hr hp
        · simpa [hp] using t.checked r hr }
  else none

/-- `DELETE ... WHERE p`. -/
def delete (t : Table S) (p : ρ → Bool) : Table S where
  rows := t.rows.filter fun r ↦ !p r
  keys_nodup := t.keys_nodup.sublist (List.filter_sublist.map S.key)
  checked r hr := t.checked r (List.mem_of_mem_filter hr)

/-- `INSERT ... ON CONFLICT(key) DO UPDATE SET f`. -/
def upsert (t : Table S) (r : ρ) (f : ρ → ρ) (hf : ∀ r, S.key (f r) = S.key r) :
    Option (Table S) :=
  match t.find? (S.key r) with
  | some _ => t.update (fun q ↦ S.key q = S.key r) f hf
  | none => t.insert r

/-! ## Rows and the key map -/

theorem key_of_find? {t : Table S} {k : κ} {r : ρ} (h : t.find? k = some r) :
    S.key r = k := by
  simpa using List.find?_some h

theorem mem_of_find? {t : Table S} {k : κ} {r : ρ} (h : t.find? k = some r) :
    r ∈ t.rows := List.mem_of_find?_eq_some h

theorem check_of_find? {t : Table S} {k : κ} {r : ρ} (h : t.find? k = some r) :
    S.check r = true := t.checked r (mem_of_find? h)

private theorem find?_of_mem_of_nodup {k : κ} {r : ρ} :
    ∀ {l : List ρ}, (l.map S.key).Nodup → r ∈ l → S.key r = k →
      l.find? (fun q ↦ S.key q = k) = some r
  | q :: l, hnd, hmem, hk => by
      rw [List.map_cons, List.nodup_cons] at hnd
      rcases List.mem_cons.mp hmem with rfl | hmem
      · simp [hk]
      · have hne : S.key q ≠ k := by
          rintro rfl
          exact hnd.1 (List.mem_map.mpr ⟨r, hmem, hk⟩)
        rw [List.find?_cons_of_neg (by simpa using hne)]
        exact find?_of_mem_of_nodup hnd.2 hmem hk

theorem find?_of_mem {t : Table S} {r : ρ} (h : r ∈ t.rows) :
    t.find? (S.key r) = some r :=
  find?_of_mem_of_nodup t.keys_nodup h rfl

theorem mem_rows_iff {t : Table S} {r : ρ} :
    r ∈ t.rows ↔ t.find? (S.key r) = some r :=
  ⟨find?_of_mem, mem_of_find?⟩

theorem find?_eq_none_iff {t : Table S} {k : κ} :
    t.find? k = none ↔ k ∉ t.rows.map S.key := by
  simp [find?, List.find?_eq_none]

/-- A condition on some row, read through the key map. -/
theorem any_iff {t : Table S} {p : ρ → Bool} :
    t.rows.any p = true ↔ ∃ k r, t.find? k = some r ∧ p r = true := by
  rw [List.any_eq_true]
  constructor
  · rintro ⟨r, hr, hp⟩
    exact ⟨S.key r, r, find?_of_mem hr, hp⟩
  · rintro ⟨k, r, hr, hp⟩
    exact ⟨r, mem_of_find? hr, hp⟩

theorem any_eq_false_iff {t : Table S} {p : ρ → Bool} :
    t.rows.any p = false ↔ ∀ k r, t.find? k = some r → p r = false := by
  rw [← Bool.not_eq_true, any_iff]
  simp

@[simp] theorem find?_empty (k : κ) : (empty : Table S).find? k = none := rfl

/-! ## Counting rows -/

/-- Rows whose keys are listed are no more than the listed keys. -/
theorem length_filter_le {t : Table S} {p : ρ → Bool} {keys : List κ}
    (h : ∀ k r, t.find? k = some r → p r = true → k ∈ keys) :
    (t.rows.filter p).length ≤ keys.length := by
  have hnodup : ((t.rows.filter p).map S.key).Nodup :=
    t.keys_nodup.sublist (List.filter_sublist.map S.key)
  have hsubset : (t.rows.filter p).map S.key ⊆ keys := by
    intro k hk
    obtain ⟨r, hr, rfl⟩ := List.mem_map.mp hk
    obtain ⟨hmem, hp⟩ := List.mem_filter.mp hr
    exact h _ r (find?_of_mem hmem) hp
  simpa using (hnodup.subperm hsubset).length_le

theorem mem_filter_keys {t : Table S} {p : ρ → Bool} {k : κ} {r : ρ}
    (hr : t.find? k = some r) (hp : p r = true) : k ∈ (t.rows.filter p).map S.key :=
  List.mem_map.mpr ⟨r, List.mem_filter.mpr ⟨mem_of_find? hr, hp⟩, key_of_find? hr⟩

/-- Rows that were counted before are no more than before. -/
theorem length_filter_le_of_find? {t t' : Table S} {p p' : ρ → Bool}
    (h : ∀ k r', t'.find? k = some r' → p' r' = true → ∃ r, t.find? k = some r ∧ p r = true) :
    (t'.rows.filter p').length ≤ (t.rows.filter p).length := by
  have hkeys : (t'.rows.filter p').length ≤ ((t.rows.filter p).map S.key).length := by
    refine length_filter_le fun k r' hr' hp ↦ ?_
    obtain ⟨r, hr, hp⟩ := h k r' hr' hp
    exact mem_filter_keys hr hp
  simpa using hkeys

/-- One row at most is new. -/
theorem length_filter_le_succ {t t' : Table S} {p : ρ → Bool} {r : ρ} (k : κ)
    (h : ∀ k', t'.find? k' = if k = k' then some r else t.find? k') :
    (t'.rows.filter p).length ≤ (t.rows.filter p).length + 1 := by
  have hkeys : (t'.rows.filter p).length ≤ (k :: (t.rows.filter p).map S.key).length := by
    refine length_filter_le fun k' r' hr' hp ↦ ?_
    rw [h] at hr'
    split at hr'
    · rename_i hk
      exact hk ▸ List.mem_cons_self
    · exact List.mem_cons_of_mem k (mem_filter_keys hr' hp)
  simpa using hkeys

/-! ## What the statements do to the key map -/

theorem find?_insert {t t' : Table S} {r : ρ} (h : t.insert r = some t') (k : κ) :
    t'.find? k = if S.key r = k then some r else t.find? k := by
  unfold insert at h
  split at h
  · rename_i hfresh
    obtain rfl := Option.some.inj h
    have hnone : t.rows.find? (fun q ↦ decide (S.key q = S.key r)) = none :=
      find?_eq_none_iff.mpr hfresh.1
    by_cases hk : S.key r = k
    · subst hk
      simp [find?, List.find?_append, hnone]
    · simp [find?, List.find?_append, hk]
  · cases h

theorem find?_none_of_insert {t t' : Table S} {r : ρ} (h : t.insert r = some t') :
    t.find? (S.key r) = none := by
  unfold insert at h
  split at h
  · rename_i hfresh
    exact find?_eq_none_iff.mpr hfresh.1
  · cases h

private theorem find?_map_of_key {k : κ} (g : ρ → ρ) (hg : ∀ r, S.key (g r) = S.key r) :
    ∀ l : List ρ, (l.map g).find? (fun q ↦ S.key q = k) =
      (l.find? fun q ↦ S.key q = k).map g
  | [] => rfl
  | q :: l => by
      by_cases hk : S.key q = k
      · simp [hk, hg]
      · simp only [List.map_cons]
        rw [List.find?_cons_of_neg (by simpa [hg] using hk),
          List.find?_cons_of_neg (by simpa using hk)]
        exact find?_map_of_key g hg l

/-- Tables with the same rows up to columns beside the key have the same key map up to
them. -/
theorem find?_map_congr {t t' : Table S} {g : ρ → ρ} (hg : ∀ r, S.key (g r) = S.key r)
    (h : t'.rows.map g = t.rows.map g) (k : κ) : (t'.find? k).map g = (t.find? k).map g :=
  calc (t'.find? k).map g = (t'.rows.map g).find? (fun q ↦ S.key q = k) :=
        (find?_map_of_key g hg t'.rows).symm
    _ = (t.rows.map g).find? (fun q ↦ S.key q = k) := by rw [h]
    _ = (t.find? k).map g := find?_map_of_key g hg t.rows

theorem exists_insert {t : Table S} {r : ρ} (hkey : t.find? (S.key r) = none)
    (hcheck : S.check r = true) : ∃ t', t.insert r = some t' := by
  unfold insert
  rw [dif_pos ⟨find?_eq_none_iff.mp hkey, hcheck⟩]
  exact ⟨_, rfl⟩

theorem rows_insert {t t' : Table S} {r : ρ} (h : t.insert r = some t') :
    t'.rows = t.rows ++ [r] := by
  unfold insert at h
  split at h
  · obtain rfl := Option.some.inj h
    rfl
  · cases h

omit [DecidableEq κ] in
theorem rows_update {t t' : Table S} {p : ρ → Bool} {f : ρ → ρ}
    {hf : ∀ r, S.key (f r) = S.key r} (h : t.update p f hf = some t') :
    t'.rows = t.rows.map fun r ↦ if p r then f r else r := by
  unfold update at h
  split at h
  · obtain rfl := Option.some.inj h
    rfl
  · cases h

theorem find?_update {t t' : Table S} {p : ρ → Bool} {f : ρ → ρ}
    {hf : ∀ r, S.key (f r) = S.key r} (h : t.update p f hf = some t') (k : κ) :
    t'.find? k = (t.find? k).map fun r ↦ if p r then f r else r := by
  unfold update at h
  split at h
  · obtain rfl := Option.some.inj h
    refine find?_map_of_key _ (fun r ↦ ?_) t.rows
    by_cases hp : p r <;> simp [hp, hf]
  · cases h

theorem update_isSome {t : Table S} {p : ρ → Bool} {f : ρ → ρ}
    (hf : ∀ r, S.key (f r) = S.key r)
    (h : ∀ k r, t.find? k = some r → p r = true → S.check (f r) = true) :
    ∃ t', t.update p f hf = some t' := by
  unfold update
  rw [dif_pos (fun r hr hp ↦ h _ r (find?_of_mem hr) hp)]
  exact ⟨_, rfl⟩

theorem find?_delete (t : Table S) (p : ρ → Bool) (k : κ) :
    (t.delete p).find? k = (t.find? k).filter fun r ↦ !p r := by
  cases hfind : t.find? k with
  | none =>
      rw [find?_eq_none_iff] at hfind
      refine find?_eq_none_iff.mpr fun hmem ↦ hfind ?_
      obtain ⟨r, hr, hk⟩ := List.mem_map.mp hmem
      exact List.mem_map.mpr ⟨r, List.mem_of_mem_filter hr, hk⟩
  | some r =>
      have hk := key_of_find? hfind
      subst hk
      by_cases hp : p r
      · have hnone : (t.delete p).find? (S.key r) = none := by
          refine find?_eq_none_iff.mpr fun hmem ↦ ?_
          obtain ⟨q, hq, hqk⟩ := List.mem_map.mp hmem
          have hqt := find?_of_mem (List.mem_of_mem_filter hq)
          obtain rfl : r = q := by
            rw [hqk] at hqt
            exact Option.some.inj (hfind.symm.trans hqt)
          have := List.of_mem_filter hq
          simp [hp] at this
        simp [hnone, Option.filter, hp]
      · have hmem : r ∈ (t.delete p).rows :=
          List.mem_filter.mpr ⟨mem_of_find? hfind, by simpa using hp⟩
        simpa [Option.filter, hp] using find?_of_mem hmem

theorem find?_upsert {t t' : Table S} {r : ρ} {f : ρ → ρ}
    {hf : ∀ r, S.key (f r) = S.key r} (h : t.upsert r f hf = some t') (k : κ) :
    t'.find? k =
      if S.key r = k then some (((t.find? k).map f).getD r) else t.find? k := by
  unfold upsert at h
  split at h
  · rename_i q hq
    rw [find?_update h]
    by_cases hk : S.key r = k
    · subst hk
      simp [hq, key_of_find? hq]
    · cases hfind : t.find? k with
      | none => simp [hk]
      | some u => simp [hk, key_of_find? hfind, Ne.symm hk]
  · rename_i hnone
    rw [find?_insert h]
    by_cases hk : S.key r = k
    · subst hk
      simp [hnone]
    · simp [hk]

/-- An upsert succeeds where the row passes its check, inserted or set. -/
theorem exists_upsert {t : Table S} {r : ρ} {f : ρ → ρ} (hf : ∀ r, S.key (f r) = S.key r)
    (hinsert : S.check r = true) (hset : ∀ q, S.check (f q) = true) :
    ∃ t', t.upsert r f hf = some t' := by
  unfold upsert
  split
  · exact update_isSome hf fun _ q _ _ ↦ hset q
  · rename_i hnone
    exact exists_insert hnone hinsert

/-! ## Loops of statements -/

theorem mem_filter_keys_iff {t : Table S} {p : ρ → Bool} {k : κ} :
    k ∈ (t.rows.filter p).map S.key ↔ ∃ r, t.find? k = some r ∧ p r = true := by
  constructor
  · intro hk
    obtain ⟨r, hr, rfl⟩ := List.mem_map.mp hk
    obtain ⟨hmem, hp⟩ := List.mem_filter.mp hr
    exact ⟨r, find?_of_mem hmem, hp⟩
  · rintro ⟨r, hr, hp⟩
    exact mem_filter_keys hr hp

section Loops

variable {ι : Type*} {t t' : Table S}

omit [DecidableEq κ] in
/-- A loop of statements succeeds where each of them does. -/
theorem exists_foldlM {step : Table S → ι → Option (Table S)} {items : List ι}
    (h : ∀ i ∈ items, ∀ t, ∃ t', step t i = some t') (t : Table S) :
    ∃ t', items.foldlM step t = some t' := by
  induction items generalizing t with
  | nil => exact ⟨t, rfl⟩
  | cons i rest ih =>
      obtain ⟨hi, hrest⟩ := List.forall_mem_cons.mp h
      obtain ⟨middle, hmiddle⟩ := hi t
      rw [List.foldlM_cons, hmiddle]
      exact ih hrest middle

/-- What a loop of statements does to the row under one key. -/
theorem find?_foldlM {step : Table S → ι → Option (Table S)} (change : ι → Option ρ → Option ρ)
    {k : κ} (hstep : ∀ i (t t' : Table S), step t i = some t' →
      t'.find? k = change i (t.find? k)) {items : List ι}
    (h : items.foldlM step t = some t') :
    t'.find? k = items.foldl (fun r i ↦ change i r) (t.find? k) := by
  induction items generalizing t with
  | nil =>
      obtain rfl := Option.some.inj h
      rfl
  | cons i rest ih =>
      rw [List.foldlM_cons] at h
      cases hmiddle : step t i with
      | none =>
          rw [hmiddle] at h
          cases h
      | some middle =>
          rw [hmiddle] at h
          rw [List.foldl_cons, ← hstep i t middle hmiddle]
          exact ih h

variable {row : ι → ρ} {assign : ι → ρ → ρ} (hassign : ∀ i r, S.key (assign i r) = S.key r)
  {live : ρ → Bool} {retire : ρ → ρ} (hretire : ∀ r, S.key (retire r) = S.key r)

variable (row assign) in
/-- An upsert for each of the items. -/
def upsertAll (items : List ι) (t : Table S) : Option (Table S) :=
  items.foldlM (fun t i ↦ t.upsert (row i) (assign i) (hassign i)) t

variable (live retire) in
/-- An update of each live row that is listed and not to be kept. -/
def retireAll (kept keys : List κ) (t : Table S) : Option (Table S) :=
  keys.foldlM (fun t k ↦ if k ∈ kept then some t
    else t.update (fun r ↦ S.key r = k && live r) retire hretire) t

variable (row assign) in
/-- What one item makes of the row stored under its key. -/
def upserted (i : ι) : Option ρ → ρ
  | none => row i
  | some r => assign i r

variable (S row assign) in
/-- What the items with one key make of the row stored under it. -/
def upsertedAll (k : κ) (items : List ι) (r : Option ρ) : Option ρ :=
  items.foldl (fun r i ↦ if S.key (row i) = k then some (upserted row assign i r) else r) r

theorem find?_upsertAll {items : List ι} (h : upsertAll row assign hassign items t = some t')
    (k : κ) :
    t'.find? k = upsertedAll S row assign k items (t.find? k) := by
  refine find?_foldlM (fun i r ↦ if S.key (row i) = k then
    some (upserted row assign i r) else r) (fun i t t' hstep ↦ ?_) h
  rw [find?_upsert hstep]
  cases t.find? k <;> rfl

theorem upsertedAll_of_not_mem {k : κ} {items : List ι}
    (h : k ∉ items.map fun i ↦ S.key (row i)) (r : Option ρ) :
    upsertedAll S row assign k items r = r := by
  induction items with
  | nil => rfl
  | cons i rest ih =>
      rw [List.map_cons, List.mem_cons, not_or] at h
      rw [upsertedAll, List.foldl_cons, if_neg (Ne.symm h.1)]
      exact ih h.2

variable (row assign) in
theorem upsertedAll_of_nodup {i : ι} {items : List ι} (hi : i ∈ items)
    (hnd : (items.map fun i ↦ S.key (row i)).Nodup) (r : Option ρ) :
    upsertedAll S row assign (S.key (row i)) items r = some (upserted row assign i r) := by
  induction items with
  | nil => cases hi
  | cons other rest ih =>
      rw [List.map_cons, List.nodup_cons] at hnd
      rw [upsertedAll, List.foldl_cons]
      rcases List.mem_cons.mp hi with rfl | hi
      · rw [if_pos rfl]
        exact upsertedAll_of_not_mem hnd.1 _
      · have hne : S.key (row other) ≠ S.key (row i) :=
          fun heq ↦ hnd.1 (heq ▸ List.mem_map_of_mem hi)
        rw [if_neg hne]
        exact ih hi hnd.2

theorem find?_retireAll (hdead : ∀ r, live (retire r) = false) {kept keys : List κ}
    (h : retireAll live retire hretire kept keys t = some t') (k : κ) :
    t'.find? k = (t.find? k).map fun r ↦
      if k ∈ keys ∧ k ∉ kept ∧ live r = true then retire r else r := by
  unfold retireAll at h
  induction keys generalizing t with
  | nil =>
      obtain rfl := Option.some.inj h
      simp
  | cons key rest ih =>
      rw [List.foldlM_cons] at h
      by_cases hkept : key ∈ kept
      · rw [if_pos hkept] at h
        rw [ih h]
        congr 1
        funext r
        by_cases hk : k = key
        · subst hk
          simp [hkept]
        · simp [hk]
      · rw [if_neg hkept] at h
        cases hmiddle : t.update (fun r ↦ S.key r = key && live r) retire hretire with
        | none =>
            rw [hmiddle] at h
            cases h
        | some middle =>
            rw [hmiddle] at h
            rw [ih h, find?_update hmiddle, Option.map_map]
            cases hrow : t.find? k with
            | none => rfl
            | some r =>
                have hkey : S.key r = k := key_of_find? hrow
                by_cases hk : k = key
                · subst hk
                  by_cases hlive : live r = true
                  · simp [hkey, hlive, hkept, hdead]
                  · simp [hlive]
                · have hne : S.key r ≠ key := fun heq ↦ hk (hkey.symm.trans heq)
                  simp [hne, hk]

variable (live retire) in
/-- A row that is retired if it was live. -/
def retired (r : ρ) : ρ := if live r then retire r else r

theorem retired_dead (hdead : ∀ r, live (retire r) = false) (r : ρ) :
    live (retired live retire r) = false := by
  unfold retired
  split
  · exact hdead r
  · rename_i hlive
    simpa using hlive

/-- The listed items are upserted and all other live rows retired. -/
theorem find?_replaced (hdead : ∀ r, live (retire r) = false) {items : List ι} {keys : List κ}
    (hkeys : ∀ k, k ∈ keys ↔ ∃ r, t.find? k = some r ∧ live r = true) {middle : Table S}
    (hupsert : upsertAll row assign hassign items t = some middle)
    (hretired : retireAll live retire hretire (items.map fun i ↦ S.key (row i)) keys middle =
      some t') (k : κ) :
    t'.find? k = if k ∈ items.map fun i ↦ S.key (row i) then
        upsertedAll S row assign k items (t.find? k)
      else (t.find? k).map (retired live retire) := by
  rw [find?_retireAll hretire hdead hretired, find?_upsertAll hassign hupsert]
  by_cases hmem : k ∈ items.map fun i ↦ S.key (row i)
  · simp [hmem]
  · rw [if_neg hmem, upsertedAll_of_not_mem hmem]
    cases hrow : t.find? k with
    | none => rfl
    | some r =>
        by_cases hlive : live r = true
        · have hlisted : k ∈ keys := (hkeys k).mpr ⟨r, hrow, hlive⟩
          rw [Option.map_some, Option.map_some, if_pos ⟨hlisted, hmem, hlive⟩, retired,
            if_pos hlive]
        · rw [Option.map_some, Option.map_some, if_neg fun h ↦ hlive h.2.2, retired,
            if_neg hlive]

theorem exists_upsertAll {items : List ι} (hrow : ∀ i ∈ items, S.check (row i) = true)
    (hset : ∀ i ∈ items, ∀ r, S.check (assign i r) = true) (t : Table S) :
    ∃ t', upsertAll row assign hassign items t = some t' :=
  exists_foldlM (fun i hi _ ↦ exists_upsert (hassign i) (hrow i hi) (hset i hi)) t

variable (live retire) in
/-- A retirement that keeps the check succeeds. -/
theorem exists_retireAll (hcheck : ∀ r, S.check r = true → S.check (retire r) = true)
    (kept keys : List κ) (t : Table S) :
    ∃ t', retireAll live retire hretire kept keys t = some t' := by
  refine exists_foldlM (fun k _ t ↦ ?_) t
  by_cases hk : k ∈ kept
  · rw [if_pos hk]
    exact ⟨t, rfl⟩
  · rw [if_neg hk]
    exact update_isSome hretire fun _ r hr _ ↦ hcheck r (check_of_find? hr)

end Loops

end Table
