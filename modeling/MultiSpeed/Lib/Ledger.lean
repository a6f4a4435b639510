import Mathlib.Data.Multiset.MapFold
import Mathlib.Data.Multiset.UnionInter
import Mathlib.Tactic.Common

/-!
# Rows that are worked on

A ledger has rows under an identity, each with an owner and a status.  As long as
the status is active, one job is to work on the row; the jobs are a multiset of
identities, each with the status the job knows.  A sound ledger never has two jobs
for one row, and a job knows the status of its row.  A complete one has a job for
every active row.
-/

/-- The statuses of a row: which are active, which a new row may have, how a job
may change them, and the one a restart leaves. -/
structure Lifecycle (σ : Type*) where
  active : σ → Bool
  opens : σ → Prop
  moves : σ → σ → Prop
  interrupted : σ

structure LedgerRow (κ σ : Type*) where
  owner : κ
  status : σ
  /-- The end of the work is recorded. -/
  closed : Bool

structure Ledger (ι κ σ : Type*) where
  row : ι → Option (LedgerRow κ σ)
  live : κ → Prop
  jobs : Multiset (ι × σ)

namespace Ledger

variable {ι κ σ : Type*} [DecidableEq ι] (L : Lifecycle σ)

/-- The steps that keep every job accounted for. -/
inductive Step (l l' : Ledger ι κ σ) : Prop where
  /-- Something else happens; an owner with active rows stays live. -/
  | environment (rows : l'.row = l.row)
      (live : ∀ i r, l.row i = some r → L.active r.status = true → l.live r.owner →
        l'.live r.owner)
      (jobs : l'.jobs = l.jobs)
  | opened {i : ι} {r : LedgerRow κ σ} (fresh : l.row i = none) (opens : L.opens r.status)
      (active : L.active r.status = true) (owner : l.live r.owner)
      (rows : ∀ k, l'.row k = if i = k then some r else l.row k) (live : l'.live = l.live)
      (jobs : l'.jobs = (i, r.status) ::ₘ l.jobs)
  | recorded {i : ι} {r : LedgerRow κ σ} (fresh : l.row i = none) (opens : L.opens r.status)
      (ended : L.active r.status = false) (closed : r.closed = true)
      (rows : ∀ k, l'.row k = if i = k then some r else l.row k) (live : l'.live = l.live)
      (jobs : l'.jobs = l.jobs)
  | moved {i : ι} {st : σ} {r r' : LedgerRow κ σ} {rest : Multiset (ι × σ)}
      (held : l.jobs = (i, st) ::ₘ rest) (old : l.row i = some r)
      (moves : L.moves st r'.status) (active : L.active r'.status = true)
      (owner : r'.owner = r.owner)
      (rows : ∀ k, l'.row k = if i = k then some r' else l.row k) (live : l'.live = l.live)
      (jobs : l'.jobs = (i, r'.status) ::ₘ rest)
  | finished {i : ι} {st : σ} {r r' : LedgerRow κ σ}
      (held : l.jobs = (i, st) ::ₘ l'.jobs) (old : l.row i = some r)
      (moves : L.moves st r'.status) (ended : L.active r'.status = false)
      (closed : r'.closed = true) (owner : r'.owner = r.owner)
      (rows : ∀ k, l'.row k = if i = k then some r' else l.row k) (live : l'.live = l.live)
  | deleted (rows : ∀ i, l'.row i = l.row i ∨
        l'.row i = none ∧ ∀ r, l.row i = some r → L.active r.status = false)
      (live : l'.live = l.live) (jobs : l'.jobs = l.jobs)

/-- A job ends and leaves its row as it is. -/
structure Dropped (l l' : Ledger ι κ σ) : Prop where
  rows : l'.row = l.row
  live : l'.live = l.live
  jobs : ∃ job, l.jobs = job ::ₘ l'.jobs

/-- All jobs are gone and all active rows are closed. -/
structure Restarted (l l' : Ledger ι κ σ) : Prop where
  rows : ∀ i, l'.row i = (l.row i).map fun r ↦
    if L.active r.status then ⟨r.owner, L.interrupted, true⟩ else r
  live : l'.live = l.live
  jobs : l'.jobs = 0

/-! ## What a step does to one row -/

inductive Change : Option (LedgerRow κ σ) → Option (LedgerRow κ σ) → Prop where
  | same (r : Option (LedgerRow κ σ)) : Change r r
  | created {r : LedgerRow κ σ} (opens : L.opens r.status) : Change none (some r)
  | moved {r r' : LedgerRow κ σ} (owner : r'.owner = r.owner)
      (moves : L.moves r.status r'.status) : Change (some r) (some r')
  | deleted {r : LedgerRow κ σ} (ended : L.active r.status = false) : Change (some r) none

section

omit [DecidableEq ι]

variable {L}

theorem Change.opens {r : LedgerRow κ σ} (h : Change L none (some r)) : L.opens r.status := by
  cases h with
  | created opens => exact opens

theorem Change.ended {r : LedgerRow κ σ} (h : Change L (some r) none) :
    L.active r.status = false := by
  cases h with
  | deleted ended => exact ended

theorem Change.status {r r' : LedgerRow κ σ} (h : Change L (some r) (some r')) :
    r'.owner = r.owner ∧ (r'.status = r.status ∨ L.moves r.status r'.status) := by
  cases h with
  | same => exact ⟨rfl, .inl rfl⟩
  | moved owner moves => exact ⟨owner, .inr moves⟩

end

/-- The invariant of a ledger. -/
structure Sound (l : Ledger ι κ σ) : Prop where
  closed : ∀ i r, l.row i = some r → L.active r.status = false → r.closed = true
  live : ∀ i r, l.row i = some r → L.active r.status = true → l.live r.owner
  known : ∀ i st, (i, st) ∈ l.jobs → L.active st = true ∧ ∃ r, l.row i = some r ∧ r.status = st
  nodup : (l.jobs.map Prod.fst).Nodup

/-- Every active row has a job. -/
def Complete (l : Ledger ι κ σ) : Prop :=
  ∀ i r, l.row i = some r → L.active r.status = true → (i, r.status) ∈ l.jobs

variable {L}

omit [DecidableEq ι] in
theorem Sound.status_eq {l : Ledger ι κ σ} (h : Sound L l) {i : ι} {st : σ}
    {r : LedgerRow κ σ} {rest : Multiset (ι × σ)} (held : l.jobs = (i, st) ::ₘ rest)
    (hrow : l.row i = some r) : r.status = st := by
  have hmem : (i, st) ∈ l.jobs := held ▸ Multiset.mem_cons_self _ _
  obtain ⟨-, r', hr', hstatus⟩ := h.known i st hmem
  rw [hrow] at hr'
  obtain rfl := Option.some.inj hr'
  exact hstatus

omit [DecidableEq ι] in
theorem Sound.ne_of_mem_rest {l : Ledger ι κ σ} (h : Sound L l) {i k : ι} {st st' : σ}
    {rest : Multiset (ι × σ)} (held : l.jobs = (i, st) ::ₘ rest) (hk : (k, st') ∈ rest) :
    i ≠ k := by
  have hnodup := h.nodup
  rw [held, Multiset.map_cons, Multiset.nodup_cons] at hnodup
  rintro rfl
  exact hnodup.1 (Multiset.mem_map.mpr ⟨(i, st'), hk, rfl⟩)

theorem Step.change {l l' : Ledger ι κ σ} (hsound : Sound L l) (h : Step L l l') (k : ι) :
    Change L (l.row k) (l'.row k) := by
  cases h with
  | environment rows live jobs =>
      rw [rows]
      exact .same _
  | @opened i r fresh opens active owner rows live jobs =>
      rw [rows k]
      split
      · rename_i hik
        rw [← hik, fresh]
        exact .created opens
      · exact .same _
  | @recorded i r fresh opens ended closed rows live jobs =>
      rw [rows k]
      split
      · rename_i hik
        rw [← hik, fresh]
        exact .created opens
      · exact .same _
  | @moved i st r r' rest held old moves active owner rows live jobs =>
      rw [rows k]
      split
      · rename_i hik
        rw [← hik, old]
        refine .moved owner ?_
        rw [hsound.status_eq held old]
        exact moves
      · exact .same _
  | @finished i st r r' held old moves ended closed owner rows live =>
      rw [rows k]
      split
      · rename_i hik
        rw [← hik, old]
        refine .moved owner ?_
        rw [hsound.status_eq held old]
        exact moves
      · exact .same _
  | deleted rows live jobs =>
      rcases rows k with hsame | ⟨hnone, hended⟩
      · rw [hsame]
        exact .same _
      · rw [hnone]
        cases hrow : l.row k with
        | none => exact .same _
        | some r => exact .deleted (hended r hrow)

/-! ## Soundness -/

/-- A row that is written keeps the facts about rows, if they hold of its new
contents. -/
private theorem of_write {l l' : Ledger ι κ σ} {i : ι} {r' : LedgerRow κ σ}
    {P : ι → LedgerRow κ σ → Prop}
    (rows : ∀ k, l'.row k = if i = k then some r' else l.row k) (hnew : P i r')
    (hold : ∀ k r, i ≠ k → l.row k = some r → P k r) (k : ι) (r : LedgerRow κ σ)
    (hrow : l'.row k = some r) : P k r := by
  rw [rows k] at hrow
  split at hrow
  · rename_i hik
    obtain rfl := Option.some.inj hrow
    exact hik ▸ hnew
  · rename_i hik
    exact hold k r hik hrow

theorem Sound.step {l l' : Ledger ι κ σ} (hsound : Sound L l) (h : Step L l l') :
    Sound L l' := by
  cases h with
  | environment rows live jobs =>
      refine ⟨?_, ?_, ?_, ?_⟩
      · rw [rows]
        exact hsound.closed
      · intro i r hrow hactive
        rw [rows] at hrow
        exact live i r hrow hactive (hsound.live i r hrow hactive)
      · rw [rows, jobs]
        exact hsound.known
      · rw [jobs]
        exact hsound.nodup
  | @opened i r fresh opens active owner rows live jobs =>
      have hfree : ∀ k st, (k, st) ∈ l.jobs → i ≠ k := by
        rintro k st hk rfl
        obtain ⟨-, r', hr', -⟩ := hsound.known i st hk
        rw [fresh] at hr'
        cases hr'
      refine ⟨?_, ?_, ?_, ?_⟩
      · refine of_write rows (fun hended ↦ ?_) fun k r' _ hrow ↦ hsound.closed k r' hrow
        rw [active] at hended
        cases hended
      · rw [live]
        exact of_write rows (fun _ ↦ owner) fun k r' _ hrow ↦ hsound.live k r' hrow
      · intro k st hk
        rw [jobs, Multiset.mem_cons] at hk
        rcases hk with hk | hk
        · obtain ⟨rfl, rfl⟩ := Prod.mk.inj hk
          exact ⟨active, r, by rw [rows, if_pos rfl], rfl⟩
        · rw [rows, if_neg (hfree k st hk)]
          exact hsound.known k st hk
      · rw [jobs, Multiset.map_cons, Multiset.nodup_cons]
        refine ⟨fun hmem ↦ ?_, hsound.nodup⟩
        obtain ⟨⟨k, st⟩, hk, hki⟩ := Multiset.mem_map.mp hmem
        exact hfree k st hk hki.symm
  | @recorded i r fresh opens ended closed rows live jobs =>
      refine ⟨?_, ?_, ?_, ?_⟩
      · exact of_write rows (fun _ ↦ closed) fun k r' _ hrow ↦ hsound.closed k r' hrow
      · rw [live]
        refine of_write rows (fun hactive ↦ ?_) fun k r' _ hrow ↦ hsound.live k r' hrow
        rw [ended] at hactive
        cases hactive
      · intro k st hk
        rw [jobs] at hk
        obtain ⟨hactive, r', hr', hstatus⟩ := hsound.known k st hk
        have hik : i ≠ k := by
          rintro rfl
          rw [fresh] at hr'
          cases hr'
        rw [rows, if_neg hik]
        exact ⟨hactive, r', hr', hstatus⟩
      · rw [jobs]
        exact hsound.nodup
  | @moved i st r r' rest held old moves active owner rows live jobs =>
      have hactive : L.active st = true :=
        (hsound.known i st (held ▸ Multiset.mem_cons_self _ _)).1
      refine ⟨?_, ?_, ?_, ?_⟩
      · refine of_write rows (fun hended ↦ ?_) fun k q _ hrow ↦ hsound.closed k q hrow
        rw [active] at hended
        cases hended
      · rw [live]
        refine of_write rows (fun _ ↦ ?_) fun k q _ hrow ↦ hsound.live k q hrow
        rw [owner]
        refine hsound.live i r old ?_
        rw [hsound.status_eq held old]
        exact hactive
      · intro k st' hk
        rw [jobs, Multiset.mem_cons] at hk
        rcases hk with hk | hk
        · obtain ⟨rfl, rfl⟩ := Prod.mk.inj hk
          exact ⟨active, r', by rw [rows, if_pos rfl], rfl⟩
        · rw [rows, if_neg (hsound.ne_of_mem_rest held hk)]
          exact hsound.known k st' (held ▸ Multiset.mem_cons_of_mem hk)
      · have hnodup := hsound.nodup
        rw [held, Multiset.map_cons] at hnodup
        rw [jobs, Multiset.map_cons]
        exact hnodup
  | @finished i st r r' held old moves ended closed owner rows live =>
      refine ⟨?_, ?_, ?_, ?_⟩
      · exact of_write rows (fun _ ↦ closed) fun k q _ hrow ↦ hsound.closed k q hrow
      · rw [live]
        refine of_write rows (fun hactive ↦ ?_) fun k q _ hrow ↦ hsound.live k q hrow
        rw [ended] at hactive
        cases hactive
      · intro k st' hk
        rw [rows, if_neg (hsound.ne_of_mem_rest held hk)]
        exact hsound.known k st' (held ▸ Multiset.mem_cons_of_mem hk)
      · have hnodup := hsound.nodup
        rw [held, Multiset.map_cons, Multiset.nodup_cons] at hnodup
        exact hnodup.2
  | deleted rows live jobs =>
      have hkept : ∀ k r, l'.row k = some r → l.row k = some r := by
        intro k r hrow
        rcases rows k with hsame | ⟨hnone, -⟩
        · rw [← hsame]
          exact hrow
        · rw [hnone] at hrow
          cases hrow
      refine ⟨?_, ?_, ?_, ?_⟩
      · exact fun k r hrow ↦ hsound.closed k r (hkept k r hrow)
      · rw [live]
        exact fun k r hrow ↦ hsound.live k r (hkept k r hrow)
      · intro k st hk
        rw [jobs] at hk
        obtain ⟨hactive, r, hrow, hstatus⟩ := hsound.known k st hk
        refine ⟨hactive, r, ?_, hstatus⟩
        rcases rows k with hsame | ⟨-, hended⟩
        · rw [hsame]
          exact hrow
        · have hfalse := hended r hrow
          rw [hstatus, hactive] at hfalse
          cases hfalse
      · rw [jobs]
        exact hsound.nodup

omit [DecidableEq ι] in
theorem Sound.dropped {l l' : Ledger ι κ σ} (hsound : Sound L l) (h : Dropped l l') :
    Sound L l' := by
  obtain ⟨job, hjobs⟩ := h.jobs
  refine ⟨?_, ?_, ?_, ?_⟩
  · rw [h.rows]
    exact hsound.closed
  · rw [h.rows, h.live]
    exact hsound.live
  · intro i st hmem
    rw [h.rows]
    exact hsound.known i st (hjobs ▸ Multiset.mem_cons_of_mem hmem)
  · have hnodup := hsound.nodup
    rw [hjobs, Multiset.map_cons, Multiset.nodup_cons] at hnodup
    exact hnodup.2

omit [DecidableEq ι] in
theorem Sound.restarted {l l' : Ledger ι κ σ} (hsound : Sound L l) (h : Restarted L l l')
    (hinterrupted : L.active L.interrupted = false) : Sound L l' ∧ Complete L l' := by
  have hrow : ∀ i r', l'.row i = some r' →
      L.active r'.status = false ∧ r'.closed = true := by
    intro i r' hr'
    rw [h.rows i, Option.map_eq_some_iff] at hr'
    obtain ⟨r, hr, rfl⟩ := hr'
    cases hactive : L.active r.status with
    | true => exact ⟨hinterrupted, rfl⟩
    | false => exact ⟨hactive, hsound.closed i r hr hactive⟩
  refine ⟨⟨?_, ?_, ?_, ?_⟩, ?_⟩
  · exact fun i r hr _ ↦ (hrow i r hr).2
  · intro i r hr hactive
    rw [(hrow i r hr).1] at hactive
    cases hactive
  · intro i st hmem
    rw [h.jobs] at hmem
    exact absurd hmem (Multiset.notMem_zero _)
  · rw [h.jobs]
    exact Multiset.nodup_zero
  · intro i r hr hactive
    rw [(hrow i r hr).1] at hactive
    cases hactive

/-! ## Completeness -/

theorem Complete.step {l l' : Ledger ι κ σ} (hcomplete : Complete L l) (h : Step L l l') :
    Complete L l' := by
  cases h with
  | environment rows live jobs =>
      rw [Complete, rows, jobs]
      exact hcomplete
  | @opened i r fresh opens active owner rows live jobs =>
      rw [Complete, jobs]
      refine of_write rows (fun _ ↦ Multiset.mem_cons_self _ _) fun k r' _ hrow hactive ↦ ?_
      exact Multiset.mem_cons_of_mem (hcomplete k r' hrow hactive)
  | @recorded i r fresh opens ended closed rows live jobs =>
      rw [Complete, jobs]
      refine of_write rows (fun hactive ↦ ?_) fun k r' _ hrow ↦ hcomplete k r' hrow
      rw [ended] at hactive
      cases hactive
  | @moved i st r r' rest held old moves active owner rows live jobs =>
      rw [Complete, jobs]
      refine of_write rows (fun _ ↦ Multiset.mem_cons_self _ _) fun k q hik hrow hactive ↦ ?_
      have hmem := hcomplete k q hrow hactive
      rw [held, Multiset.mem_cons] at hmem
      rcases hmem with hmem | hmem
      · exact absurd (Prod.mk.inj hmem).1.symm hik
      · exact Multiset.mem_cons_of_mem hmem
  | @finished i st r r' held old moves ended closed owner rows live =>
      refine of_write rows (fun hactive ↦ ?_) fun k q hik hrow hactive ↦ ?_
      · rw [ended] at hactive
        cases hactive
      · have hmem := hcomplete k q hrow hactive
        rw [held, Multiset.mem_cons] at hmem
        rcases hmem with hmem | hmem
        · exact absurd (Prod.mk.inj hmem).1.symm hik
        · exact hmem
  | deleted rows live jobs =>
      intro k r hrow hactive
      rw [jobs]
      rcases rows k with hsame | ⟨hnone, -⟩
      · rw [hsame] at hrow
        exact hcomplete k r hrow hactive
      · rw [hnone] at hrow
        cases hrow

omit [DecidableEq ι] in
/-- In a complete ledger the active rows and the jobs are in one-to-one
correspondence. -/
theorem Complete.mem_jobs_iff {l : Ledger ι κ σ} (hsound : Sound L l)
    (hcomplete : Complete L l) (i : ι) :
    i ∈ l.jobs.map Prod.fst ↔ ∃ r, l.row i = some r ∧ L.active r.status = true := by
  rw [Multiset.mem_map]
  constructor
  · rintro ⟨⟨k, st⟩, hmem, rfl⟩
    obtain ⟨hactive, r, hrow, hstatus⟩ := hsound.known k st hmem
    exact ⟨r, hrow, hstatus ▸ hactive⟩
  · rintro ⟨r, hrow, hactive⟩
    exact ⟨(i, r.status), hcomplete i r hrow hactive, rfl⟩

end Ledger

/-! ## Jobs of numbered parties -/

/-- The jobs the parties have, before and after one party changes. -/
theorem List.exists_filterMap_set {α β : Type*} (f : α → Option β) {l : List α} {i : ℕ} {a : α}
    (h : l[i]? = some a) : ∃ rest : Multiset β,
      (l.filterMap f : Multiset β) = (f a).toList + rest ∧
        ∀ x, ((l.set i x).filterMap f : Multiset β) = (f x).toList + rest := by
  obtain ⟨hi, rfl⟩ := List.getElem?_eq_some_iff.mp h
  have hold : l.Perm (l[i] :: l.eraseIdx i) := (List.getElem_cons_eraseIdx_perm hi).symm
  have hsplit : ∀ b : α, (b :: l.eraseIdx i).filterMap f =
      (f b).toList ++ (l.eraseIdx i).filterMap f := by
    intro b
    cases hb : f b <;> simp [hb]
  refine ⟨((l.eraseIdx i).filterMap f : Multiset β), ?_, fun x ↦ ?_⟩
  · rw [Multiset.coe_add, ← hsplit, Multiset.coe_eq_coe]
    exact hold.filterMap f
  · have hnew : (l.set i x).Perm (x :: l.eraseIdx i) := List.set_perm_cons_eraseIdx hi x
    rw [Multiset.coe_add, ← hsplit, Multiset.coe_eq_coe]
    exact hnew.filterMap f
