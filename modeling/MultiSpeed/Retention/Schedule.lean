import MultiSpeed.Database.Results
import MultiSpeed.Scheduler.Memory
import Mathlib.Data.List.Chain
import Mathlib.Tactic.Linarith

/-!
# The retention loop

At each tick the loop looks for the next activation after the instant 61 seconds
ago and runs a cleanup if it is not in the future, once for each displayed local
minute.  The cron library answers the zero time when it finds no activation, and
that instant is not in the future either.
-/

namespace MultiSpeed.Retention

open Database Scheduling

/-- 61 seconds. -/
def window : ℤ := 61000000000

/-- 122 seconds. -/
def spacing : ℤ := 122000000000

/-- What the layout `2006-01-02T15:04 MST` prints: the local minute and the zone
abbreviation. -/
abbrev Key := ℤ × String

/-- The settings the loop reads, with the abbreviations of their zone. -/
structure Maintenance where
  schedule : Schedule
  location : Location
  abbreviation : Time → String

variable (m : Maintenance)

/-- The next activation after the start of the window. -/
def Maintenance.dueAt (now : Time) : Time := m.schedule.next m.location (now - window)

/-- `due.Format`.  The zero time is in UTC. -/
def Maintenance.localKey (due : Time) : Key :=
  if due = zeroTime then (Location.localMinute ⟨fun _ ↦ 0⟩ due, "UTC")
  else (m.location.localMinute due, m.abbreviation due)

/-- One tick of `runRetention`: the key it remembers, and the due instant of the
cleanup it runs. -/
def tick (last : Option Key) (now : Time) : Option Key × Option Time :=
  let due := m.dueAt now
  if now < due then (last, none)
  else if last = some (m.localKey due) then (last, none)
  else (some (m.localKey due), some due)

/-- The cleanups of a run, each with its tick and its due instant. -/
def cleanups : Option Key → List Time → List (Time × Time)
  | _, [] => []
  | last, now :: rest =>
      ((tick m last now).2.map fun due ↦ (now, due)).toList ++ cleanups (tick m last now).1 rest

/-- `Next` of the cron library for the instants a schedule is due at after the zero time:
the first one after its argument, or the zero time if there is none up to the end of its
search. -/
structure Searches (due : Time → Prop) (limit : Time → Time) : Prop where
  positive : ∀ d, due d → zeroTime < d
  found : ∀ t, zeroTime ≤ t → m.schedule.next m.location t ≠ zeroTime →
    due (m.schedule.next m.location t) ∧ t < m.schedule.next m.location t ∧
      ∀ d, due d → t < d → m.schedule.next m.location t ≤ d
  missing : ∀ t, zeroTime ≤ t →
    (m.schedule.next m.location t = zeroTime ↔ ∀ d, due d → t < d → limit t < d)
  /-- The search goes on for five years. -/
  long : ∀ t, t + window ≤ limit t

/-- Due instants that show the same local time differ in their abbreviation, and so
they do from the zero time. -/
def Separated (due : Time → Prop) : Prop :=
  ∀ d e, (due d ∨ d = zeroTime) → (due e ∨ e = zeroTime) → m.localKey d = m.localKey e → d = e

/-- Ticks that follow one another within the window. -/
def Ticking (ticks : List Time) : Prop :=
  ticks.IsChain fun before now ↦ before < now ∧ now ≤ before + window

/-- Consecutive due instants are further apart. -/
def Spaced (due : Time → Prop) : Prop := ∀ d e, due d → due e → d < e → d + spacing < e

/-- Every cleanup has a due instant in the window up to its tick. -/
def Justified (due : Time → Prop) (ticks : List Time) : Prop :=
  ∀ cleanup ∈ cleanups m none ticks,
    ∃ d, due d ∧ cleanup.1 - window < d ∧ d ≤ cleanup.1

/-- Every due instant after the first tick and not after the last causes one cleanup. -/
def ExactlyOnce (due : Time → Prop) (ticks : List Time) : Prop :=
  ∀ d, due d → (∃ first, ticks.head? = some first ∧ first < d) →
    (∃ last, ticks.getLast? = some last ∧ d ≤ last) →
    (cleanups m none ticks).countP (fun cleanup ↦ decide (cleanup.2 = d)) = 1

variable {m} {due : Time → Prop} {limit : Time → Time}

/-! ## One tick -/

theorem tick_cleanup {last : Option Key} {now d : Time} (h : (tick m last now).2 = some d) :
    d = m.dueAt now ∧ d ≤ now ∧ (tick m last now).1 = some (m.localKey d) ∧
      last ≠ some (m.localKey d) := by
  unfold tick at h ⊢
  dsimp only at h ⊢
  split at h
  · cases h
  · rename_i hpast
    split at h
    · cases h
    · rename_i hkey
      obtain rfl := Option.some.inj h
      rw [if_neg hpast, if_neg hkey]
      exact ⟨rfl, not_lt.mp hpast, rfl, hkey⟩

theorem tick_idle {last : Option Key} {now : Time} (h : (tick m last now).2 = none) :
    (tick m last now).1 = last ∧ (now < m.dueAt now ∨ last = some (m.localKey (m.dueAt now))) := by
  unfold tick at h ⊢
  dsimp only at h ⊢
  split at h
  · rename_i hfuture
    rw [if_pos hfuture]
    exact ⟨rfl, .inl hfuture⟩
  · rename_i hpast
    split at h
    · rename_i hkey
      rw [if_neg hpast, if_pos hkey]
      exact ⟨rfl, .inr hkey⟩
    · cases h

theorem cleanups_cons_of_some {last : Option Key} {now d : Time} (rest : List Time)
    (h : (tick m last now).2 = some d) :
    cleanups m last (now :: rest) = (now, d) :: cleanups m (some (m.localKey d)) rest := by
  rw [cleanups, h, (tick_cleanup h).2.2.1]
  rfl

theorem cleanups_cons_of_none {last : Option Key} {now : Time} (rest : List Time)
    (h : (tick m last now).2 = none) :
    cleanups m last (now :: rest) = cleanups m last rest := by
  rw [cleanups, h, (tick_idle h).1]
  rfl

/-- The zero time shows that the window is empty. -/
theorem not_due_of_zero (hm : Searches m due limit) {now : Time}
    (hnow : zeroTime ≤ now - window) (h : m.dueAt now = zeroTime) {d : Time} (hd : due d)
    (hfrom : now - window < d) : now < d := by
  have hlimit := (hm.missing (now - window) hnow).mp h d hd hfrom
  have hlong := hm.long (now - window)
  linarith

/-- A due instant in the window is found, or an earlier one. -/
theorem dueAt_of_window (hm : Searches m due limit) {now d : Time}
    (hnow : zeroTime ≤ now - window) (hd : due d) (hfrom : now - window < d) (hto : d ≤ now) :
    due (m.dueAt now) ∧ now - window < m.dueAt now ∧ m.dueAt now ≤ d := by
  have hzero : m.dueAt now ≠ zeroTime := by
    intro hzero
    exact absurd (not_due_of_zero hm hnow hzero hd hfrom) (not_lt.mpr hto)
  obtain ⟨hdue, hlt, hleast⟩ := hm.found (now - window) hnow hzero
  exact ⟨hdue, hlt, hleast d hd hfrom⟩

/-! ## One due instant -/

/-- The cleanups of a run for a due instant. -/
def causes (m : Maintenance) (last : Option Key) (ticks : List Time) (d : Time) : ℕ :=
  (cleanups m last ticks).countP fun cleanup ↦ decide (cleanup.2 = d)

theorem causes_cons_of_ne {last : Option Key} {now d : Time} (rest : List Time)
    (h : (tick m last now).2 ≠ some d) :
    causes m last (now :: rest) d = causes m (tick m last now).1 rest d := by
  cases hcleanup : (tick m last now).2 with
  | none =>
      rw [causes, cleanups_cons_of_none rest hcleanup, (tick_idle hcleanup).1]
      rfl
  | some e =>
      have hne : ¬ e = d := by
        rintro rfl
        exact h hcleanup
      rw [causes, cleanups_cons_of_some rest hcleanup, List.countP_cons_of_neg (by simpa using hne),
        (tick_cleanup hcleanup).2.2.1]
      rfl

theorem causes_cons_of_eq {last : Option Key} {now d : Time} (rest : List Time)
    (h : (tick m last now).2 = some d) :
    causes m last (now :: rest) d = causes m (some (m.localKey d)) rest d + 1 := by
  rw [causes, cleanups_cons_of_some rest h, List.countP_cons_of_pos (by simp)]
  rfl

/-- The instant is remembered and still the first of the window, or it has left the
window. -/
def Handled (m : Maintenance) (due : Time → Prop) (d now : Time) (last : Option Key) : Prop :=
  last = some (m.localKey d) ∧ d ≤ now ∧ (∀ e, due e → now - window < e → d ≤ e) ∨
    d ≤ now - window

theorem Handled.tick (hm : Searches m due limit) {d before now : Time} {last : Option Key}
    (hnow : zeroTime ≤ now - window) (hd : due d) (hlt : before < now)
    (h : Handled m due d before last) :
    Handled m due d now (tick m last now).1 ∧ (tick m last now).2 ≠ some d := by
  have hgone : d ≤ now - window → (Retention.tick m last now).2 ≠ some d := by
    intro hleft hcleanup
    obtain ⟨hdue, -⟩ := tick_cleanup hcleanup
    by_cases hzero : m.dueAt now = zeroTime
    · rw [hzero] at hdue
      exact (hm.positive d hd).ne' hdue
    · obtain ⟨-, hafter, -⟩ := hm.found (now - window) hnow hzero
      rw [← Maintenance.dueAt, ← hdue] at hafter
      exact absurd hafter (not_lt.mpr hleft)
  rcases h with ⟨hlast, hpast, hfirst⟩ | hleft
  · cases hcleanup : (Retention.tick m last now).2 with
    | none =>
        refine ⟨.inl ⟨?_, hpast.trans hlt.le, fun e he hfrom ↦ hfirst e he ?_⟩, nofun⟩
        · rw [(tick_idle hcleanup).1, hlast]
        · linarith
    | some e =>
        obtain ⟨hdue, hto, -, hkey⟩ := tick_cleanup hcleanup
        have hne : e ≠ d := by
          rintro rfl
          exact hkey hlast
        refine ⟨.inr ?_, fun heq ↦ hne (Option.some.inj heq)⟩
        by_contra hinside
        obtain ⟨he, hfrom, hle⟩ :=
          dueAt_of_window hm hnow hd (not_le.mp hinside) (hpast.trans hlt.le)
        rw [← hdue] at he hfrom hle
        have hge := hfirst e he (by linarith)
        exact hne (le_antisymm hle hge)
  · have hleft : d ≤ now - window := by linarith
    exact ⟨.inr hleft, hgone hleft⟩

theorem causes_handled (hm : Searches m due limit) {d : Time} (hd : due d) {ticks : List Time}
    (hclock : ∀ now ∈ ticks, zeroTime ≤ now - window) {before : Time} {last : Option Key}
    (hticks : Ticking (before :: ticks)) (h : Handled m due d before last) :
    causes m last ticks d = 0 := by
  induction ticks generalizing before last with
  | nil => rfl
  | cons now rest ih =>
      obtain ⟨⟨hlt, -⟩, hrest⟩ := List.isChain_cons_cons.mp hticks
      obtain ⟨hnow, hclock⟩ := List.forall_mem_cons.mp hclock
      obtain ⟨hnext, hother⟩ := h.tick hm hnow hd hlt
      rw [causes_cons_of_ne rest hother]
      exact ih hclock hrest hnext

/-- Before the instant no tick runs a cleanup for it or remembers it. -/
theorem tick_before (hm : Searches m due limit) (hkeys : Separated m due) {d now : Time}
    {last : Option Key} (hnow : zeroTime ≤ now - window) (hd : due d) (hlt : now < d)
    (hlast : last ≠ some (m.localKey d)) :
    (tick m last now).2 ≠ some d ∧ (tick m last now).1 ≠ some (m.localKey d) := by
  cases hcleanup : (tick m last now).2 with
  | none =>
      rw [(tick_idle hcleanup).1]
      exact ⟨nofun, hlast⟩
  | some e =>
      obtain ⟨hdue, hto, hremembered, -⟩ := tick_cleanup hcleanup
      have hne : e ≠ d := (hto.trans_lt hlt).ne
      refine ⟨fun heq ↦ hne (Option.some.inj heq), fun hkey ↦ hne ?_⟩
      rw [hremembered] at hkey
      refine hkeys e d ?_ (.inl hd) (Option.some.inj hkey)
      by_cases hzero : m.dueAt now = zeroTime
      · exact .inr (hdue.trans hzero)
      · rw [hdue]
        exact .inl (hm.found _ hnow hzero).1

/-- The first tick that is not before the instant runs its cleanup. -/
theorem tick_at (hm : Searches m due limit) (hspaced : Spaced due) {d now : Time}
    {last : Option Key} (hnow : zeroTime ≤ now - window) (hd : due d)
    (hfrom : now - window < d) (hto : d ≤ now) (hlast : last ≠ some (m.localKey d)) :
    (tick m last now).2 = some d ∧ Handled m due d now (some (m.localKey d)) := by
  obtain ⟨he, hafter, hle⟩ := dueAt_of_window hm hnow hd hfrom hto
  have hearly : ∀ e, due e → now - window < e → d ≤ e := by
    intro e he hefrom
    by_contra hlt
    have hfar := hspaced e d he hd (not_le.mp hlt)
    rw [spacing] at hfar
    rw [window] at hefrom
    linarith
  have hdue : m.dueAt now = d := le_antisymm hle (hearly _ he hafter)
  refine ⟨?_, .inl ⟨rfl, hto, hearly⟩⟩
  unfold tick
  rw [hdue]
  dsimp only
  rw [if_neg (not_lt.mpr hto), if_neg hlast]

theorem causes_one (hm : Searches m due limit) (hkeys : Separated m due)
    (hspaced : Spaced due) {d : Time} (hd : due d) {ticks : List Time}
    (hclock : ∀ now ∈ ticks, zeroTime ≤ now - window) {before : Time} {last : Option Key}
    (hticks : Ticking (before :: ticks)) (hbefore : before < d)
    (hlast : last ≠ some (m.localKey d)) (hreached : ∃ now ∈ ticks, d ≤ now) :
    causes m last ticks d = 1 := by
  induction ticks generalizing before last with
  | nil => simp at hreached
  | cons now rest ih =>
      obtain ⟨⟨hlt, hnear⟩, hrest⟩ := List.isChain_cons_cons.mp hticks
      obtain ⟨hnow, hclock⟩ := List.forall_mem_cons.mp hclock
      rcases lt_or_ge now d with hearly | hto
      · obtain ⟨hother, hkept⟩ := tick_before hm hkeys hnow hd hearly hlast
        have hlater : ∃ now ∈ rest, d ≤ now := by
          obtain ⟨later, hmem, hle⟩ := hreached
          rcases List.mem_cons.mp hmem with rfl | hmem
          · exact absurd hearly (not_lt.mpr hle)
          · exact ⟨later, hmem, hle⟩
        rw [causes_cons_of_ne rest hother]
        exact ih hclock hrest hearly hkept hlater
      · obtain ⟨hcleanup, hhandled⟩ := tick_at hm hspaced hnow hd (by linarith) hto hlast
        rw [causes_cons_of_eq rest hcleanup, causes_handled hm hd hclock hrest hhandled]

/-- Whatever the schedule, due instants that are far enough apart cause one cleanup
each. -/
theorem exactlyOnce (hm : Searches m due limit) (hkeys : Separated m due)
    (hspaced : Spaced due) {ticks : List Time} (hticks : Ticking ticks)
    (hclock : ∀ now ∈ ticks, zeroTime ≤ now - window) : ExactlyOnce m due ticks := by
  rintro d hd ⟨first, hfirst, hbefore⟩ ⟨last, hlast, hreached⟩
  cases ticks with
  | nil => cases hfirst
  | cons now rest =>
      obtain rfl := Option.some.inj hfirst
      obtain ⟨hnow, hclock⟩ := List.forall_mem_cons.mp hclock
      have hmem : last ∈ rest := by
        rcases List.mem_cons.mp (List.mem_of_getLast? hlast) with rfl | hmem
        · exact absurd hbefore (not_lt.mpr hreached)
        · exact hmem
      have hfresh : (none : Option Key) ≠ some (m.localKey d) := nofun
      obtain ⟨hother, hkept⟩ := tick_before hm hkeys hnow hd hbefore hfresh
      change causes m none (now :: rest) d = 1
      rw [causes_cons_of_ne rest hother]
      exact causes_one hm hkeys hspaced hd hclock hticks hbefore hkept ⟨last, hmem, hreached⟩

/-! ## Spurious cleanups -/

theorem cleanup_found {last : Option Key} {ticks : List Time} {cleanup : Time × Time}
    (h : cleanup ∈ cleanups m last ticks) :
    cleanup.1 ∈ ticks ∧ cleanup.2 = m.dueAt cleanup.1 ∧ cleanup.2 ≤ cleanup.1 := by
  induction ticks generalizing last with
  | nil => cases h
  | cons now rest ih =>
      rw [cleanups, List.mem_append] at h
      rcases h with h | h
      · rw [Option.mem_toList, Option.map_eq_some_iff] at h
        obtain ⟨d, hcleanup, rfl⟩ := h
        obtain ⟨hdue, hto, -⟩ := tick_cleanup hcleanup
        exact ⟨List.mem_cons_self, hdue, hto⟩
      · obtain ⟨hmem, hdue⟩ := ih h
        exact ⟨List.mem_cons_of_mem _ hmem, hdue⟩

theorem justified_of_found (hm : Searches m due limit) {ticks : List Time}
    (hclock : ∀ now ∈ ticks, zeroTime ≤ now - window)
    (hfound : ∀ now ∈ ticks, m.dueAt now ≠ zeroTime) : Justified m due ticks := by
  intro cleanup hcleanup
  obtain ⟨hmem, hdue, hto⟩ := cleanup_found hcleanup
  obtain ⟨he, hafter, -⟩ := hm.found (cleanup.1 - window) (hclock _ hmem) (hfound _ hmem)
  exact ⟨m.dueAt cleanup.1, he, hafter, hdue ▸ hto⟩

/-- The first search that finds nothing runs a cleanup. -/
theorem spurious (hm : Searches m due limit) (hkeys : Separated m due) {ticks : List Time}
    {last : Option Key} (hclock : ∀ now ∈ ticks, zeroTime ≤ now - window)
    (hlast : last ≠ some (m.localKey zeroTime)) {now : Time} (hmem : now ∈ ticks)
    (hzero : m.dueAt now = zeroTime) :
    ∃ cleanup ∈ cleanups m last ticks, m.dueAt cleanup.1 = zeroTime := by
  induction ticks generalizing last with
  | nil => cases hmem
  | cons first rest ih =>
      obtain ⟨hnow, hrestclock⟩ := List.forall_mem_cons.mp hclock
      by_cases hfirst : m.dueAt first = zeroTime
      · have hcleanup : (tick m last first).2 = some zeroTime := by
          unfold tick
          rw [hfirst]
          dsimp only
          have hpast : zeroTime ≤ first := by
            rw [window] at hnow
            linarith
          rw [if_neg (not_lt.mpr hpast), if_neg hlast]
        refine ⟨(first, zeroTime), ?_, hfirst⟩
        rw [cleanups_cons_of_some rest hcleanup]
        exact List.mem_cons_self
      · have hrest : now ∈ rest := by
          rcases List.mem_cons.mp hmem with rfl | hrest
          · exact absurd hzero hfirst
          · exact hrest
        have hkept : (tick m last first).1 ≠ some (m.localKey zeroTime) := by
          cases hcleanup : (tick m last first).2 with
          | none =>
              rw [(tick_idle hcleanup).1]
              exact hlast
          | some e =>
              obtain ⟨hdue, -, hremembered, -⟩ := tick_cleanup hcleanup
              rw [hremembered]
              intro hkey
              have he : due e := hdue ▸ (hm.found _ hnow hfirst).1
              have heq := hkeys e zeroTime (.inl he) (.inr rfl) (Option.some.inj hkey)
              exact hfirst (hdue.symm.trans heq)
        obtain ⟨cleanup, hcleanup, hempty⟩ := ih hrestclock hkept hrest
        refine ⟨cleanup, ?_, hempty⟩
        rw [cleanups, List.mem_append]
        exact .inr hcleanup

/-- Due instants that are far enough apart cause one cleanup each, and the cleanups are
justified exactly if at every tick some instant is due between the start of the window
and the end of the search. -/
theorem retention_runs_when_due {m : Maintenance} {due : Time → Prop} {limit : Time → Time}
    (hm : Searches m due limit) (hkeys : Separated m due) {ticks : List Time}
    (hticks : Ticking ticks) (hclock : ∀ now ∈ ticks, zeroTime ≤ now - window) :
    (Justified m due ticks ∧ (Spaced due → ExactlyOnce m due ticks)) ↔
      ∀ now ∈ ticks, ∃ d, due d ∧ now - window < d ∧ d ≤ limit (now - window) := by
  have hempty : ∀ now ∈ ticks, (m.dueAt now ≠ zeroTime ↔
      ∃ d, due d ∧ now - window < d ∧ d ≤ limit (now - window)) := by
    intro now hnow
    rw [Maintenance.dueAt, Ne, hm.missing (now - window) (hclock now hnow)]
    push Not
    rfl
  constructor
  · rintro ⟨hjustified, -⟩ now hnow
    rw [← hempty now hnow]
    intro hzero
    have hfresh : (none : Option Key) ≠ some (m.localKey zeroTime) := nofun
    obtain ⟨cleanup, hcleanup, hnothing⟩ := spurious hm hkeys hclock hfresh hnow hzero
    obtain ⟨d, hd, hfrom, hto⟩ := hjustified cleanup hcleanup
    have hmem := hclock _ (cleanup_found hcleanup).1
    exact absurd (not_due_of_zero hm hmem hnothing hd hfrom) (not_lt.mpr hto)
  · intro hfound
    refine ⟨justified_of_found hm hclock fun now hnow ↦
      (hempty now hnow).mpr (hfound now hnow), ?_⟩
    exact fun hspaced ↦ exactlyOnce hm hkeys hspaced hticks hclock

/-! ## Wall clocks -/

/-- The wall clock of the zone, in nanoseconds. -/
def Maintenance.wall (m : Maintenance) (t : ℤ) : ℤ :=
  t + m.location.offset (t / 1000000000) * 1000000000

/-- If a wall clock shows a time again only under another abbreviation, and a schedule
is due at whole minutes of that clock, its due instants are separated. -/
theorem separated_of_wall {m : Maintenance} {due : ℤ → Prop}
    (hwall : ∀ t u, m.wall t = m.wall u → m.abbreviation t = m.abbreviation u → t = u)
    (hminute : ∀ d, due d → m.wall d % 60000000000 = 0)
    (hlater : ∀ d, due d → zeroTime < m.wall d) : Separated m due := by
  have hlocal : ∀ t : ℤ, m.location.localMinute t = m.wall t / 60000000000 := by
    intro t
    have hsecond : ∀ offset : ℤ, (t / 1000000000 + offset) / 60 =
        (t + offset * 1000000000) / 60000000000 := by
      intro offset
      omega
    exact hsecond _
  have hdue : ∀ d, m.wall d % 60000000000 = 0 → zeroTime < m.wall d → d ≠ zeroTime →
      m.localKey d ≠ m.localKey zeroTime := by
    intro d hwhole hafter hne hkey
    rw [Maintenance.localKey, if_neg hne, Maintenance.localKey, if_pos rfl, hlocal] at hkey
    have hminutes := congrArg Prod.fst hkey
    have hzero : Location.localMinute ⟨fun _ ↦ 0⟩ zeroTime = zeroTime / 60000000000 := by decide
    rw [hzero] at hminutes
    have hfloor : ∀ wall zero : ℤ, wall % 60000000000 = 0 → zero % 60000000000 = 0 →
        wall / 60000000000 = zero / 60000000000 → wall = zero := by
      intro wall zero hwall hzero heq
      omega
    exact hafter.ne' (hfloor _ _ hwhole (by decide) hminutes)
  intro d e hd he hkey
  by_cases hdzero : d = zeroTime
  · by_cases hezero : e = zeroTime
    · rw [hdzero, hezero]
    · have he := he.resolve_right hezero
      rw [hdzero] at hkey
      exact absurd hkey.symm (hdue e (hminute e he) (hlater e he) hezero)
  · have hd := hd.resolve_right hdzero
    by_cases hezero : e = zeroTime
    · rw [hezero] at hkey
      exact absurd hkey (hdue d (hminute d hd) (hlater d hd) hdzero)
    · have he := he.resolve_right hezero
      rw [Maintenance.localKey, if_neg hdzero, Maintenance.localKey, if_neg hezero, hlocal,
        hlocal] at hkey
      obtain ⟨hminutes, habbreviation⟩ := Prod.mk.inj hkey
      have hsame : m.wall d = m.wall e := by
        have hdwhole := hminute d hd
        have hewhole := hminute e he
        omega
      exact hwall d e hsame habbreviation

/-! ## Two schedules -/

def utc : Location := ⟨fun _ ↦ 0⟩

def day : ℤ := 86400000000000

def nextMidnight (t : ℤ) : ℤ := if t < 0 then day else (t / day + 1) * day

/-- `0 0 * * *` from 1970 on. -/
def daily : Maintenance where
  schedule := ⟨fun _ t ↦ nextMidnight t⟩
  location := utc
  abbreviation _ := "UTC"

def dailyDue (d : ℤ) : Prop := 0 < d ∧ d % day = 0

/-- `0 0 30 2 *`, which no date matches. -/
def february30 : Maintenance where
  schedule := ⟨fun _ _ ↦ zeroTime⟩
  location := utc
  abbreviation _ := "UTC"

theorem daily_next (t : ℤ) : dailyDue (nextMidnight t) ∧ t < nextMidnight t ∧
    ∀ d, dailyDue d → t < d → nextMidnight t ≤ d := by
  simp only [dailyDue, nextMidnight, day]
  split
  · refine ⟨by omega, by omega, fun d hd hlt ↦ ?_⟩
    omega
  · refine ⟨by omega, by omega, fun d hd hlt ↦ ?_⟩
    omega

/-- The library gives up a year after its answer. -/
def dailyLimit (t : ℤ) : ℤ := nextMidnight t + 365 * day

theorem searches_daily : Searches daily dailyDue dailyLimit := by
  have hzero : zeroTime < 0 := by decide
  refine ⟨fun d hd ↦ hzero.trans hd.1, fun t _ _ ↦ daily_next t, fun t _ ↦ ?_, fun t ↦ ?_⟩
  · obtain ⟨hdue, hlt, -⟩ := daily_next t
    constructor
    · intro hnone
      exact absurd hnone (hzero.trans hdue.1).ne'
    · intro hnone
      have hafter := hnone _ hdue hlt
      rw [dailyLimit, day] at hafter
      linarith
  · obtain ⟨-, hlt, -⟩ := daily_next t
    rw [dailyLimit, day, window]
    linarith

theorem separated_utc {m : Maintenance} {due : ℤ → Prop} (hlocation : m.location = utc)
    (hminute : ∀ d, due d → 0 ≤ d ∧ d % 60000000000 = 0) : Separated m due := by
  have hwall : ∀ t, m.wall t = t := by
    intro t
    simp [Maintenance.wall, hlocation, utc]
  refine separated_of_wall (fun t u hsame _ ↦ ?_) (fun d hd ↦ ?_) fun d hd ↦ ?_
  · rw [hwall, hwall] at hsame
    exact hsame
  · rw [hwall]
    exact (hminute d hd).2
  · rw [hwall]
    exact (show zeroTime < 0 by decide).trans_le (hminute d hd).1

theorem minute_of_dailyDue {d : ℤ} (h : dailyDue d) : 0 ≤ d ∧ d % 60000000000 = 0 := by
  obtain ⟨hpositive, hmidnight⟩ : 0 < d ∧ d % 86400000000000 = 0 := h
  omega

theorem retention_runs_when_due_daily :
    Justified daily dailyDue [86370000000000, 86430000000000] := by
  refine ((retention_runs_when_due searches_daily
    (separated_utc rfl fun _ ↦ minute_of_dailyDue) ?_ ?_).mpr ?_).1
  · rw [Ticking, List.isChain_pair]
    decide
  · decide
  · intro now _
    obtain ⟨hdue, hlt, -⟩ := daily_next (now - window)
    refine ⟨_, hdue, hlt, ?_⟩
    rw [dailyLimit, day]
    linarith

/-- A schedule that is never due deletes history at the first tick. -/
theorem impossible_schedule_cleans_up :
    Searches february30 (fun _ ↦ False) (fun t ↦ t + 1826 * day) ∧
      Separated february30 (fun _ ↦ False) ∧ Ticking [1767225600000000000] ∧
      ¬ Justified february30 (fun _ ↦ False) [1767225600000000000] := by
  refine ⟨⟨fun _ h ↦ h.elim, fun t _ h ↦ absurd rfl h, fun t _ ↦ ?_, fun t ↦ ?_⟩,
    separated_utc rfl (fun _ h ↦ h.elim), List.isChain_singleton _, ?_⟩
  · exact ⟨fun _ _ h ↦ h.elim, fun _ ↦ rfl⟩
  · rw [day, window]
    linarith
  · intro hjustified
    obtain ⟨d, hd, -⟩ := hjustified (1767225600000000000, zeroTime) (by decide)
    exact hd

end MultiSpeed.Retention
