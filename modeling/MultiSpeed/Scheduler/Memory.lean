import MultiSpeed.Lib.CyclicCounter
import MultiSpeed.Models
import Mathlib.Data.List.AList

/-!
# The scheduler's memory

The maps of `internal/scheduler` and the part of the cron library they point
into: the list of registered entries, to which `AddFunc` appends and from which
`Remove` takes.  A generation stamps one registration of a task.  Generations
are 64-bit and skip zero; `issued` is a history variable that counts how many
have been drawn, and every registration remembers its place in that count.
-/

namespace MultiSpeed.Scheduling

/-! ## Zones and schedules -/

/-- A time zone: the offset from UTC in seconds at each Unix second. -/
structure Location where
  offset : ℤ → ℤ

/-- The local minute an instant lies in, counted from 1970-01-01T00:00 on the
wall clock.  The layout `2006-01-02T15:04` prints exactly this. -/
def Location.localMinute (location : Location) (t : Time) : ℤ :=
  let second := t / 1000000000
  (second + location.offset second) / 60

/-- A parsed cron expression: the activation after an instant in a zone. -/
structure Schedule where
  next : Location → Time → Time

/-- The libraries the scheduler calls: `time.LoadLocation` and the cron parser. -/
structure Env where
  loadLocation : String → Option Location
  parse : String → Option Schedule

/-! ## The cron library -/

/-- A registered function.  The closure of the source is the pair of a task
and a generation. -/
structure CronEntry where
  id : ℕ
  spec : String
  taskID : String
  generation : UInt64
  /-- The number of generations drawn up to this one. -/
  issued : ℕ

structure Cron where
  entries : List CronEntry
  nextID : ℕ

namespace Cron

def remove (c : Cron) (id : ℕ) : Cron :=
  { c with entries := c.entries.filter fun e ↦ e.id ≠ id }

/-- `Schedule`: the new entry takes the next identity. -/
def schedule (c : Cron) (spec taskID : String) (generation : UInt64) (issued : ℕ) : Cron where
  entries := c.entries ++ [⟨c.nextID + 1, spec, taskID, generation, issued⟩]
  nextID := c.nextID + 1

theorem mem_remove {c : Cron} {id : ℕ} {e : CronEntry} :
    e ∈ (c.remove id).entries ↔ e ∈ c.entries ∧ e.id ≠ id := by
  simp [remove]

end Cron

/-! ## The maps -/

structure Scheduler where
  cron : Cron
  entries : AList fun _ : String ↦ ℕ
  generations : AList fun _ : String ↦ UInt64
  nextGeneration : UInt64
  /-- The local minute of a task's last fire. -/
  localFire : AList fun _ : String ↦ ℤ
  issued : ℕ

namespace Scheduler

/-- `New`. -/
def new : Scheduler where
  cron := ⟨[], 0⟩
  entries := ∅
  generations := ∅
  nextGeneration := 0
  localFire := ∅
  issued := 0

/-- `nextGenerationLocked`; the new value is read from `nextGeneration`. -/
def nextGenerationLocked (s : Scheduler) : Scheduler :=
  let g := s.nextGeneration + 1
  { s with
    nextGeneration := if g = 0 then g + 1 else g
    issued := s.issued + 1 }

def isCurrentGenerationLocked (s : Scheduler) (taskID : String) (generation : UInt64) : Bool :=
  match s.generations.lookup taskID with
  | some current => current = generation
  | none => false

/-- The cron entry of a task is removed. -/
def removeEntry (s : Scheduler) (taskID : String) : Scheduler :=
  match s.entries.lookup taskID with
  | some id => { s with cron := s.cron.remove id, entries := s.entries.erase taskID }
  | none => s

def deleteGeneration (s : Scheduler) (taskID : String) : Scheduler :=
  { s with generations := s.generations.erase taskID }

def deleteLocalFire (s : Scheduler) (taskID : String) : Scheduler :=
  { s with localFire := s.localFire.erase taskID }

/-- The part `rescheduleLocked` and `Remove` begin with. -/
def unschedule (s : Scheduler) (taskID : String) : Scheduler :=
  ((s.removeEntry taskID).nextGenerationLocked).deleteGeneration taskID

/-- `Remove`. -/
def remove (s : Scheduler) (taskID : String) : Scheduler :=
  (s.unschedule taskID).deleteLocalFire taskID

/-- The first loop of `Reconcile`. -/
def clear : List (Sigma fun _ : String ↦ ℕ) → Scheduler → Scheduler
  | [], s => s
  | ⟨taskID, entryID⟩ :: rest, s =>
      let s := ({ s with cron := s.cron.remove entryID } : Scheduler).nextGenerationLocked
      clear rest
        { s with
          entries := s.entries.erase taskID
          generations := s.generations.erase taskID
          localFire := s.localFire.erase taskID }

/-- The generation of a new registration is drawn and made current. -/
def drawGeneration (s : Scheduler) (taskID : String) : Scheduler :=
  let s := s.nextGenerationLocked
  { s with generations := s.generations.insert taskID s.nextGeneration }

/-- `AddFunc` with the generation drawn last, and the entry is recorded. -/
def addFunc (s : Scheduler) (taskID spec : String) : Scheduler :=
  let cron := s.cron.schedule spec taskID s.nextGeneration s.issued
  { s with cron := cron, entries := s.entries.insert taskID cron.nextID }

/-- A registration is taken back after its activation could not be stored. -/
def withdraw (s : Scheduler) (taskID : String) : Scheduler :=
  (s.removeEntry taskID).deleteGeneration taskID

end Scheduler

/-! ## Well-formed memory -/

/-- All 64-bit values but zero. -/
def generationPeriod : ℕ := 2 ^ 64 - 1

/-- The generation with a given place in the count. -/
def IsGeneration (issued : ℕ) (generation : UInt64) : Prop :=
  generation.toNat = CyclicCounter.value generationPeriod issued

theorem isGeneration_next {issued : ℕ} {g : UInt64} (h : IsGeneration issued g) :
    IsGeneration (issued + 1) (if g + 1 = 0 then g + 1 + 1 else g + 1) := by
  unfold IsGeneration at h ⊢
  rw [CyclicCounter.value_succ (by decide), ← h]
  have hlt := g.toNat_lt
  by_cases hmax : g.toNat = generationPeriod
  · have hzero : g + 1 = 0 := by
      apply UInt64.toNat_inj.mp
      rw [UInt64.toNat_add, hmax]
      rfl
    rw [if_pos hzero, if_pos hmax, hzero]
    rfl
  · have hsum : (g + 1).toNat = g.toNat + 1 := by
      rw [UInt64.toNat_add]
      unfold generationPeriod at hmax
      exact Nat.mod_eq_of_lt (by simp; omega)
    have hne : g + 1 ≠ 0 := by
      intro hzero
      rw [hzero] at hsum
      simp at hsum
    rw [if_neg hne, if_neg hmax, hsum]

theorem IsGeneration.ne {i j : ℕ} {g h : UInt64} (hg : IsGeneration i g)
    (hh : IsGeneration j h) (hi : 0 < i) (hij : i < j) (hj : j < i + generationPeriod) :
    g ≠ h := by
  rintro rfl
  exact CyclicCounter.value_ne_of_lt_of_lt_add hi hij hj (hg.symm.trans hh)

namespace Scheduler

/-- What holds whenever the mutex is free. -/
structure WellFormed (s : Scheduler) : Prop where
  counter : IsGeneration s.issued s.nextGeneration
  ids_le : ∀ e ∈ s.cron.entries, e.id ≤ s.cron.nextID
  ids_inj : ∀ e ∈ s.cron.entries, ∀ e' ∈ s.cron.entries, e.id = e'.id → e = e'
  keys : ∀ taskID, taskID ∈ s.entries ↔ taskID ∈ s.generations
  registered : ∀ e ∈ s.cron.entries, s.entries.lookup e.taskID = some e.id ∧
    s.generations.lookup e.taskID = some e.generation
  entry : ∀ taskID id, s.entries.lookup taskID = some id →
    ∃ e ∈ s.cron.entries, e.id = id ∧ e.taskID = taskID
  stamped : ∀ e ∈ s.cron.entries,
    0 < e.issued ∧ e.issued ≤ s.issued ∧ IsGeneration e.issued e.generation

theorem wellFormed_new : new.WellFormed where
  counter := rfl
  ids_le e he := by simp [new] at he
  ids_inj e he := by simp [new] at he
  keys taskID := by simp [new]
  registered e he := by simp [new] at he
  entry taskID id h := by simp [new] at h
  stamped e he := by simp [new] at he

theorem isCurrentGenerationLocked_iff {s : Scheduler} {taskID : String}
    {generation : UInt64} :
    s.isCurrentGenerationLocked taskID generation = true ↔
      s.generations.lookup taskID = some generation := by
  unfold isCurrentGenerationLocked
  cases s.generations.lookup taskID <;> simp

theorem WellFormed.entry_unique {s : Scheduler} (hs : s.WellFormed) {e e' : CronEntry}
    (he : e ∈ s.cron.entries) (he' : e' ∈ s.cron.entries) (htask : e.taskID = e'.taskID) :
    e = e' := by
  have h := (hs.registered e he).1
  rw [htask, (hs.registered e' he').1] at h
  exact (hs.ids_inj e' he' e he (Option.some.inj h)).symm

/-! ## Effects on the maps -/

section Effects

variable (s : Scheduler) (taskID k spec : String)

@[simp] theorem nextGenerationLocked_cron : s.nextGenerationLocked.cron = s.cron := rfl
@[simp] theorem nextGenerationLocked_entries :
    s.nextGenerationLocked.entries = s.entries := rfl
@[simp] theorem nextGenerationLocked_generations :
    s.nextGenerationLocked.generations = s.generations := rfl
@[simp] theorem nextGenerationLocked_localFire :
    s.nextGenerationLocked.localFire = s.localFire := rfl
@[simp] theorem nextGenerationLocked_issued :
    s.nextGenerationLocked.issued = s.issued + 1 := rfl

theorem lookup_erase_eq {ν : Type} (l : AList fun _ : String ↦ ν) :
    (l.erase taskID).lookup k = if taskID = k then none else l.lookup k := by
  by_cases h : taskID = k
  · subst h
    simp
  · rw [if_neg h, AList.lookup_erase_ne (Ne.symm h)]

theorem lookup_insert_eq {ν : Type} (l : AList fun _ : String ↦ ν) (v : ν) :
    (l.insert taskID v).lookup k = if taskID = k then some v else l.lookup k := by
  by_cases h : taskID = k
  · subst h
    simp
  · rw [if_neg h, AList.lookup_insert_ne (Ne.symm h)]

theorem withdraw_entries : (s.withdraw taskID).entries.lookup k =
    if taskID = k then none else s.entries.lookup k := by
  unfold withdraw removeEntry deleteGeneration
  cases h : s.entries.lookup taskID with
  | none =>
      by_cases hk : taskID = k
      · subst hk
        simpa using h
      · rw [if_neg hk]
  | some id => exact lookup_erase_eq _ _ _

@[simp] theorem removeEntry_generations :
    (s.removeEntry taskID).generations = s.generations := by
  unfold removeEntry
  split <;> rfl

theorem withdraw_generations : (s.withdraw taskID).generations.lookup k =
    if taskID = k then none else s.generations.lookup k := by
  simp [withdraw, deleteGeneration, lookup_erase_eq]

@[simp] theorem withdraw_localFire : (s.withdraw taskID).localFire = s.localFire := by
  unfold withdraw removeEntry deleteGeneration
  split <;> rfl

@[simp] theorem withdraw_issued : (s.withdraw taskID).issued = s.issued := by
  unfold withdraw removeEntry deleteGeneration
  split <;> rfl

@[simp] theorem withdraw_nextGeneration :
    (s.withdraw taskID).nextGeneration = s.nextGeneration := by
  unfold withdraw removeEntry deleteGeneration
  split <;> rfl

theorem unschedule_eq : s.unschedule taskID = (s.withdraw taskID).nextGenerationLocked := by
  unfold unschedule withdraw removeEntry deleteGeneration
  split <;> rfl

theorem unschedule_entries : (s.unschedule taskID).entries.lookup k =
    if taskID = k then none else s.entries.lookup k := by
  simp [unschedule_eq, withdraw_entries]

theorem unschedule_generations : (s.unschedule taskID).generations.lookup k =
    if taskID = k then none else s.generations.lookup k := by
  simp [unschedule_eq, withdraw_generations]

@[simp] theorem unschedule_localFire : (s.unschedule taskID).localFire = s.localFire := by
  simp [unschedule_eq]

@[simp] theorem unschedule_issued : (s.unschedule taskID).issued = s.issued + 1 := by
  simp [unschedule_eq]

theorem remove_entries : (s.remove taskID).entries.lookup k =
    if taskID = k then none else s.entries.lookup k :=
  unschedule_entries s taskID k

theorem remove_generations : (s.remove taskID).generations.lookup k =
    if taskID = k then none else s.generations.lookup k :=
  unschedule_generations s taskID k

theorem remove_localFire : (s.remove taskID).localFire.lookup k =
    if taskID = k then none else s.localFire.lookup k := by
  simp [remove, deleteLocalFire, lookup_erase_eq]

@[simp] theorem remove_issued : (s.remove taskID).issued = s.issued + 1 :=
  unschedule_issued s taskID

/-- A new registration: a generation, a cron entry and its identity. -/
def register : Scheduler := (s.drawGeneration taskID).addFunc taskID spec

theorem register_entries : (s.register taskID spec).entries.lookup k =
    if taskID = k then some (s.cron.nextID + 1) else s.entries.lookup k :=
  lookup_insert_eq _ _ _ _

theorem register_generations : (s.register taskID spec).generations.lookup k =
    if taskID = k then some s.nextGenerationLocked.nextGeneration
    else s.generations.lookup k :=
  lookup_insert_eq _ _ _ _

@[simp] theorem register_localFire : (s.register taskID spec).localFire = s.localFire := rfl

@[simp] theorem register_issued : (s.register taskID spec).issued = s.issued + 1 := rfl

theorem mem_register {e : CronEntry} : e ∈ (s.register taskID spec).cron.entries ↔
    e ∈ s.cron.entries ∨ e = ⟨s.cron.nextID + 1, spec, taskID,
      s.nextGenerationLocked.nextGeneration, s.issued + 1⟩ := by
  change e ∈ s.cron.entries ++ [_] ↔ _
  simp only [List.mem_append, List.mem_singleton]
  rfl

end Effects

/-- Removing a task's registration removes all cron entries of that task. -/
theorem WellFormed.mem_withdraw {s : Scheduler} (hs : s.WellFormed) {taskID : String}
    {e : CronEntry} :
    e ∈ (s.withdraw taskID).cron.entries ↔ e ∈ s.cron.entries ∧ e.taskID ≠ taskID := by
  cases h : s.entries.lookup taskID with
  | none =>
      have hcron : (s.withdraw taskID).cron = s.cron := by
        simp [withdraw, removeEntry, deleteGeneration, h]
      rw [hcron]
      refine ⟨fun he ↦ ⟨he, ?_⟩, And.left⟩
      rintro rfl
      have hsome := (hs.registered e he).1
      rw [h] at hsome
      cases hsome
  | some id =>
      have hcron : (s.withdraw taskID).cron = s.cron.remove id := by
        simp [withdraw, removeEntry, deleteGeneration, h]
      rw [hcron, Cron.mem_remove]
      obtain ⟨e₀, he₀, hid, htask⟩ := hs.entry taskID id h
      constructor
      · rintro ⟨he, hne⟩
        refine ⟨he, fun heq ↦ hne ?_⟩
        rw [hs.entry_unique he he₀ (heq.trans htask.symm), hid]
      · rintro ⟨he, hne⟩
        refine ⟨he, fun heq ↦ hne ?_⟩
        rw [hs.ids_inj e he e₀ he₀ (heq.trans hid.symm), htask]

theorem WellFormed.mem_unschedule {s : Scheduler} (hs : s.WellFormed) {taskID : String}
    {e : CronEntry} :
    e ∈ (s.unschedule taskID).cron.entries ↔ e ∈ s.cron.entries ∧ e.taskID ≠ taskID := by
  rw [unschedule_eq]
  exact hs.mem_withdraw

theorem WellFormed.mem_remove {s : Scheduler} (hs : s.WellFormed) {taskID : String}
    {e : CronEntry} :
    e ∈ (s.remove taskID).cron.entries ↔ e ∈ s.cron.entries ∧ e.taskID ≠ taskID :=
  hs.mem_unschedule

/-! ## Preservation -/

theorem WellFormed.nextGenerationLocked {s : Scheduler} (hs : s.WellFormed) :
    s.nextGenerationLocked.WellFormed where
  counter := isGeneration_next hs.counter
  ids_le := hs.ids_le
  ids_inj := hs.ids_inj
  keys := hs.keys
  registered := hs.registered
  entry := hs.entry
  stamped e he := by
    obtain ⟨hpos, hle, hgen⟩ := hs.stamped e he
    exact ⟨hpos, Nat.le_succ_of_le hle, hgen⟩

theorem WellFormed.withdraw {s : Scheduler} (hs : s.WellFormed) (taskID : String) :
    (s.withdraw taskID).WellFormed where
  counter := by simpa using hs.counter
  ids_le e he := by
    have hnext : (s.withdraw taskID).cron.nextID = s.cron.nextID := by
      unfold Scheduler.withdraw removeEntry deleteGeneration
      split <;> rfl
    rw [hnext]
    exact hs.ids_le e (hs.mem_withdraw.mp he).1
  ids_inj e he e' he' :=
    hs.ids_inj e (hs.mem_withdraw.mp he).1 e' (hs.mem_withdraw.mp he').1
  keys k := by
    rw [← AList.lookup_isSome, ← AList.lookup_isSome, withdraw_entries, withdraw_generations]
    by_cases hk : taskID = k
    · simp [hk]
    · simpa [hk, AList.lookup_isSome] using hs.keys k
  registered e he := by
    obtain ⟨hmem, hne⟩ := hs.mem_withdraw.mp he
    rw [withdraw_entries, withdraw_generations, if_neg (Ne.symm hne), if_neg (Ne.symm hne)]
    exact hs.registered e hmem
  entry k id h := by
    rw [withdraw_entries] at h
    split at h
    · cases h
    · rename_i hne
      obtain ⟨e, he, hid, htask⟩ := hs.entry k id h
      exact ⟨e, hs.mem_withdraw.mpr ⟨he, fun heq ↦ hne (heq.symm.trans htask)⟩, hid, htask⟩
  stamped e he := by
    simpa using hs.stamped e (hs.mem_withdraw.mp he).1

theorem WellFormed.unschedule {s : Scheduler} (hs : s.WellFormed) (taskID : String) :
    (s.unschedule taskID).WellFormed := by
  rw [unschedule_eq]
  exact (hs.withdraw taskID).nextGenerationLocked

theorem WellFormed.remove {s : Scheduler} (hs : s.WellFormed) (taskID : String) :
    (s.remove taskID).WellFormed :=
  let h := hs.unschedule taskID
  ⟨h.counter, h.ids_le, h.ids_inj, h.keys, h.registered, h.entry, h.stamped⟩

theorem WellFormed.register {s : Scheduler} (hs : s.WellFormed) {taskID : String}
    (hfree : s.entries.lookup taskID = none) (spec : String) :
    (s.register taskID spec).WellFormed := by
  have hgen := isGeneration_next hs.counter
  have hother : ∀ e ∈ s.cron.entries, taskID ≠ e.taskID := by
    rintro e he rfl
    have hsome := (hs.registered e he).1
    rw [hfree] at hsome
    cases hsome
  refine ⟨hgen, ?_, ?_, ?_, ?_, ?_, ?_⟩
  · intro e he
    change e.id ≤ s.cron.nextID + 1
    rcases (mem_register s taskID spec).mp he with he | rfl
    · exact Nat.le_succ_of_le (hs.ids_le e he)
    · exact le_refl _
  · intro e he e' he' hid
    rcases (mem_register s taskID spec).mp he with he | rfl <;>
      rcases (mem_register s taskID spec).mp he' with he' | rfl
    · exact hs.ids_inj e he e' he' hid
    · have hle := hs.ids_le e he
      change e.id = s.cron.nextID + 1 at hid
      omega
    · have hle := hs.ids_le e' he'
      change s.cron.nextID + 1 = e'.id at hid
      omega
    · rfl
  · intro k
    rw [← AList.lookup_isSome, ← AList.lookup_isSome, register_entries, register_generations]
    by_cases hk : taskID = k
    · simp [hk]
    · simpa [hk, AList.lookup_isSome] using hs.keys k
  · intro e he
    rw [register_entries, register_generations]
    rcases (mem_register s taskID spec).mp he with he | rfl
    · rw [if_neg (hother e he), if_neg (hother e he)]
      exact hs.registered e he
    · simp
  · intro k id h
    rw [register_entries] at h
    split at h
    · rename_i hk
      obtain rfl := Option.some.inj h
      exact ⟨_, (mem_register s taskID spec).mpr (.inr rfl), rfl, hk⟩
    · obtain ⟨e, he, hid, htask⟩ := hs.entry k id h
      exact ⟨e, (mem_register s taskID spec).mpr (.inl he), hid, htask⟩
  · intro e he
    rw [register_issued]
    rcases (mem_register s taskID spec).mp he with he | rfl
    · obtain ⟨hpos, hle, hstamp⟩ := hs.stamped e he
      exact ⟨hpos, Nat.le_succ_of_le hle, hstamp⟩
    · exact ⟨Nat.succ_pos _, le_refl _, hgen⟩

/-- A generation that was drawn and deleted again leaves the counter behind. -/
theorem drawGeneration_deleteGeneration {s : Scheduler} {taskID : String}
    (h : s.generations.lookup taskID = none) :
    (s.drawGeneration taskID).deleteGeneration taskID = s.nextGenerationLocked := by
  have hinsert : (s.generations.insert taskID s.nextGenerationLocked.nextGeneration).erase
      taskID = s.generations := by
    rw [AList.insert_of_notMem (AList.lookup_eq_none.mp h)]
    apply AList.ext
    exact List.kerase_cons_eq rfl
  unfold drawGeneration deleteGeneration
  simp only [nextGenerationLocked_generations, hinsert]
  rfl

/-! ## Clearing -/

/-- One round of the clearing loop is a removal. -/
theorem clear_cons {s : Scheduler} {taskID : String} {entryID : ℕ}
    {rest : List (Sigma fun _ : String ↦ ℕ)} (h : s.entries.lookup taskID = some entryID) :
    clear (⟨taskID, entryID⟩ :: rest) s = clear rest (s.remove taskID) := by
  simp [clear, remove, unschedule, removeEntry, deleteGeneration, deleteLocalFire,
    nextGenerationLocked, h]

/-- An invariant of removals survives the clearing loop, which leaves no listed
task behind. -/
theorem clear_induction {P : Scheduler → Prop}
    (hremove : ∀ s taskID, P s → P (s.remove taskID)) :
    ∀ (list : List (Sigma fun _ : String ↦ ℕ)) (s : Scheduler), list.NodupKeys →
      (∀ x ∈ list, s.entries.lookup x.1 = some x.2) → P s →
      P (clear list s) ∧ s.issued ≤ (clear list s).issued ∧
      ∀ k, (clear list s).entries.lookup k =
        if k ∈ list.keys then none else s.entries.lookup k
  | [], s, _, _, hs => ⟨hs, le_refl _, fun k ↦ by simp [clear]⟩
  | ⟨taskID, entryID⟩ :: rest, s, hnd, hlist, hs => by
      have hhead := hlist ⟨taskID, entryID⟩ (by simp)
      rw [List.nodupKeys_cons] at hnd
      have hrest : ∀ x ∈ rest, (s.remove taskID).entries.lookup x.1 = some x.2 := by
        intro x hx
        have hne : taskID ≠ x.1 := by
          intro heq
          exact hnd.1 (by simpa [heq] using List.mem_keys_of_mem hx)
        rw [remove_entries, if_neg hne]
        exact hlist x (by simp [hx])
      obtain ⟨hP, hissued, hentries⟩ :=
        clear_induction hremove rest (s.remove taskID) hnd.2 hrest (hremove s taskID hs)
      rw [clear_cons hhead]
      refine ⟨hP, ?_, fun k ↦ ?_⟩
      · rw [remove_issued] at hissued
        exact (Nat.le_succ _).trans hissued
      · rw [hentries k, remove_entries]
        by_cases hk : taskID = k
        · simp [hk]
        · simp [hk, Ne.symm hk]

/-- The first loop of `Reconcile`, over all entries. -/
def clearAll (s : Scheduler) : Scheduler := clear s.entries.entries s

theorem clearAll_induction {P : Scheduler → Prop}
    (hremove : ∀ s taskID, P s → P (s.remove taskID)) {s : Scheduler} (hs : P s) :
    P s.clearAll ∧ s.issued ≤ s.clearAll.issued ∧
      ∀ k, s.clearAll.entries.lookup k = none := by
  obtain ⟨hP, hissued, hentries⟩ := clear_induction hremove s.entries.entries s
    s.entries.nodupKeys (fun x hx ↦ AList.mem_lookup_iff.mpr hx) hs
  refine ⟨hP, hissued, fun k ↦ ?_⟩
  rw [clearAll, hentries k]
  split
  · rfl
  · rename_i hk
    exact AList.lookup_eq_none.mpr hk

theorem WellFormed.clearAll {s : Scheduler} (hs : s.WellFormed) : s.clearAll.WellFormed :=
  (clearAll_induction (P := WellFormed) (fun _ taskID h ↦ h.remove taskID) hs).1

end Scheduler

end MultiSpeed.Scheduling
