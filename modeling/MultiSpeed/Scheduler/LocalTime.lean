import MultiSpeed.Lib.Contiguous
import MultiSpeed.Scheduler.System

/-!
# Repeated local times

A clock that is set back shows some local minutes twice.  `fire` remembers one
local minute: the one of the last fire.  It therefore drops a repetition exactly
when no other minute has fired in between.  With several matching minutes in the
repeated period the first one comes back after the others and runs again.
-/

namespace MultiSpeed.Scheduling

open Database

/-- A task whose registration is current and whose row can be fired. -/
structure Armed (env : Env) (core : Core) (taskID : String) (generation : UInt64)
    (location : Location) (row : Task) : Prop where
  current : core.scheduler.generations.lookup taskID = some generation
  loaded : core.store.getTask taskID = .ok row
  enabled : row.enabled = true
  zone : env.loadLocation row.timezone = some location
  parsed : (env.parse row.cronExpression).isSome = true

/-- A fire at `t` is dropped: as a duplicate, or because it is not after the last. -/
def suppresses (core : Core) (taskID : String) (location : Location) (row : Task)
    (t : Time) : Bool :=
  decide (core.scheduler.localFire.lookup taskID = some (location.localMinute t)) ||
    decide (row.lastScheduledAt.map location.localMinute = some (location.localMinute t)) ||
    row.lastScheduledAt.any fun last ↦ decide (t ≤ last)

/-- The instants of the fires that reach the queue call. -/
def queuedRuns (env : Env) (taskID : String) (generation : UInt64) :
    List FireInput → Core → List Time
  | [], _ => []
  | input :: rest, core =>
      let out := fire env input core taskID generation
      out.2.toList ++ queuedRuns env taskID generation rest out.1

/-- The calls are served and the timer elapses. -/
def FireInput.served (now : Time) : FireInput :=
  ⟨now, ⟨true, now, now⟩, ⟨true, now, now⟩, ⟨true, now, now⟩, none, true⟩

section Armed

variable {env : Env} {core : Core} {taskID : String} {generation : UInt64}
  {location : Location} {row : Task}

theorem Armed.setLocalFire (h : Armed env core taskID generation location row) (key : ℤ) :
    Armed env ⟨core.store, core.scheduler.setLocalFire taskID key⟩ taskID generation
      location row :=
  ⟨h.current, h.loaded, h.enabled, h.zone, h.parsed⟩

theorem Armed.persisted (h : Armed env core taskID generation location row) (key : ℤ)
    {last next : Option Time} {stamp : Time} {store : Store}
    (stored : core.store.updateTaskSchedule taskID last next stamp = .ok store) :
    Armed env ⟨store, core.scheduler.setLocalFire taskID key⟩ taskID generation location
      (Store.assignSchedule last next stamp row) := by
  obtain ⟨old, hold, hlive, htasks, -⟩ := Store.updateTaskSchedule_ok stored
  have hrow := (Store.getTask_eq_ok_iff.mp h.loaded).1
  obtain rfl := Option.some.inj (hold.symm.trans hrow)
  refine ⟨h.current, Store.getTask_eq_ok_iff.mpr ⟨?_, hlive⟩, h.enabled, h.zone, h.parsed⟩
  rw [htasks taskID, if_pos rfl]

theorem Armed.prepare (h : Armed env core taskID generation location row) {load : Call}
    {now : Time} {p : Prepared} (hp : prepare env load now core.store taskID = some p) :
    p.location = location ∧ p.scheduled = now ∧ p.localKey = location.localMinute now := by
  obtain ⟨-, task, zone, schedule, hload, -, hzone, -, rfl⟩ := prepare_eq_some_iff.mp hp
  obtain rfl : row = task := Except.ok.inj (h.loaded.symm.trans hload)
  obtain rfl : location = zone := Option.some.inj (h.zone.symm.trans hzone)
  exact ⟨rfl, rfl, rfl⟩

theorem suppresses_eq (core : Core) (taskID : String) (row : Task) {p : Prepared}
    {now : Time} (hlocation : p.location = location)
    (hscheduled : p.scheduled = now) (hkey : p.localKey = location.localMinute now) :
    suppresses core taskID location row now =
      (duplicateLocalTime core.scheduler taskID p row || outOfOrder p row) := by
  subst hlocation hscheduled
  simp [suppresses, duplicateLocalTime, outOfOrder, hkey]

/-- One fire of an armed task, whatever its calls answer: the last activation
stays and nothing is queued, or it moves to the instant of a fire that was not
to be dropped. -/
theorem fire_spec (h : Armed env core taskID generation location row) (input : FireInput) :
    ∃ row', Armed env (fire env input core taskID generation).1 taskID generation location
        row' ∧
      ((row'.lastScheduledAt = row.lastScheduledAt ∧
          (fire env input core taskID generation).2 = none) ∨
        (suppresses core taskID location row input.now = false ∧
          row'.lastScheduledAt = some input.now ∧
          ((fire env input core taskID generation).2 = none ∨
            (fire env input core taskID generation).2 = some input.now))) := by
  have hvalid : core.scheduler.isCurrentGenerationLocked taskID generation = true :=
    Scheduler.isCurrentGenerationLocked_iff.mpr h.current
  unfold fire
  rw [hvalid]
  cases hp : prepare env input.load input.now core.store taskID with
  | none => exact ⟨row, h, .inl ⟨rfl, rfl⟩⟩
  | some p =>
      obtain ⟨hlocation, hscheduled, hkey⟩ := h.prepare hp
      have hsuppresses := suppresses_eq core taskID row hlocation hscheduled hkey
      have hspec := persistLocked_spec input.reload input.update core taskID generation p
      dsimp only [Bool.not_true, Bool.false_eq_true, if_false]
      revert hspec
      generalize persistLocked input.reload input.update core taskID generation p = out
      intro hspec
      cases hspec with
      | stale | reloadFailed | duplicate | outOfOrder => exact ⟨row, h, .inl ⟨rfl, rfl⟩⟩
      | persistFailed => exact ⟨row, h.setLocalFire p.localKey, .inl ⟨rfl, rfl⟩⟩
      | @persisted _ store stamp valid loaded new later stored =>
          obtain rfl := Except.ok.inj (h.loaded.symm.trans loaded)
          have hnew : suppresses core taskID location row input.now = false := by
            rw [hsuppresses, new, later]
            rfl
          rw [← hscheduled]
          refine ⟨Store.assignSchedule (some p.scheduled) (some p.next) stamp row, ?_,
            .inr ⟨hscheduled ▸ hnew, rfl, ?_⟩⟩
          · simp only [Bool.not_true, Bool.false_eq_true, if_false]
            have harmed := h.persisted p.localKey stored
            split
            · exact harmed
            · split
              · exact harmed
              · exact harmed
          · simp only [Bool.not_true, Bool.false_eq_true, if_false]
            split
            · exact .inl rfl
            · split
              · exact .inl rfl
              · exact .inr rfl

theorem fire_of_suppresses (h : Armed env core taskID generation location row)
    {input : FireInput} (hdrop : suppresses core taskID location row input.now = true) :
    fire env input core taskID generation = (core, none) := by
  unfold fire
  split
  · rfl
  · cases hp : prepare env input.load input.now core.store taskID with
    | none => rfl
    | some p =>
        obtain ⟨hlocation, hscheduled, hkey⟩ := h.prepare hp
        rw [suppresses_eq core taskID row hlocation hscheduled hkey] at hdrop
        have hspec := persistLocked_spec input.reload input.update core taskID generation p
        dsimp only
        revert hspec
        generalize persistLocked input.reload input.update core taskID generation p = out
        intro hspec
        cases hspec with
        | stale | reloadFailed | duplicate | outOfOrder => rfl
        | persistFailed valid loaded new later =>
            obtain rfl := Except.ok.inj (h.loaded.symm.trans loaded)
            simp [new, later] at hdrop
        | persisted valid loaded new later =>
            obtain rfl := Except.ok.inj (h.loaded.symm.trans loaded)
            simp [new, later] at hdrop

/-- A fire that is not dropped queues its run when its calls are served. -/
theorem fire_served (h : Armed env core taskID generation location row) {now : Time}
    (hkeep : suppresses core taskID location row now = false) :
    ∃ row', Armed env (fire env (.served now) core taskID generation).1 taskID generation
        location row' ∧ row'.lastScheduledAt = some now ∧
      (fire env (.served now) core taskID generation).1.scheduler.localFire.lookup taskID =
        some (location.localMinute now) ∧
      (fire env (.served now) core taskID generation).2 = some now := by
  have hvalid : core.scheduler.isCurrentGenerationLocked taskID generation = true :=
    Scheduler.isCurrentGenerationLocked_iff.mpr h.current
  obtain ⟨schedule, hschedule⟩ := Option.isSome_iff_exists.mp h.parsed
  have hp : prepare env (FireInput.served now).load (FireInput.served now).now core.store
      taskID = some ⟨location, row.randomJitterSeconds, now, location.localMinute now,
      schedule.next location now⟩ :=
    prepare_eq_some_iff.mpr
      ⟨rfl, row, location, schedule, h.loaded, h.enabled, h.zone, hschedule, rfl⟩
  generalize hprepared : (⟨location, row.randomJitterSeconds, now, location.localMinute now,
    schedule.next location now⟩ : Prepared) = p at hp
  obtain ⟨hlocation, hscheduled, hkey⟩ := h.prepare hp
  change p.scheduled = now at hscheduled
  change p.localKey = location.localMinute now at hkey
  rw [suppresses_eq core taskID row hlocation hscheduled hkey, Bool.or_eq_false_iff] at hkeep
  have hverdict := persistLocked_of_served (FireInput.served now).reload
    (FireInput.served now).update rfl rfl p hvalid h.loaded
  rw [hkeep.1, hkeep.2] at hverdict
  have hspec := persistLocked_spec (FireInput.served now).reload (FireInput.served now).update
    core taskID generation p
  unfold fire
  rw [hvalid, hp]
  dsimp only [Bool.not_true, Bool.false_eq_true, if_false]
  revert hspec hverdict
  generalize persistLocked (FireInput.served now).reload (FireInput.served now).update core
    taskID generation p = out
  intro hverdict hspec
  cases hspec with
  | stale | reloadFailed | duplicate | outOfOrder | persistFailed => cases hverdict
  | @persisted _ store stamp valid loaded new later stored =>
      obtain rfl := Except.ok.inj (h.loaded.symm.trans loaded)
      have hcurrent : (core.scheduler.setLocalFire taskID p.localKey).isCurrentGenerationLocked
          taskID generation = true := hvalid
      have helapsed : waits p.randomJitterSeconds (FireInput.served now).random
          (FireInput.served now).elapsed = true := waits_of_elapsed _ _
      refine ⟨Store.assignSchedule (some p.scheduled) (some p.next) stamp row, ?_, ?_, ?_, ?_⟩
      · simp only [helapsed, hcurrent, Bool.not_true, Bool.false_eq_true, if_false]
        exact h.persisted p.localKey stored
      · rw [← hscheduled]
        rfl
      · simp only [helapsed, hcurrent, Bool.not_true, Bool.false_eq_true, if_false]
        simp [Scheduler.setLocalFire, hkey]
      · simp [helapsed, hcurrent, hscheduled]

end Armed

/-! ## Sequences of fires -/

section Sequences

variable {env : Env} {taskID : String} {generation : UInt64} {location : Location}

theorem queuedRuns_subset {inputs : List FireInput} :
    ∀ {core : Core} {row : Task}, Armed env core taskID generation location row →
      ∀ t ∈ queuedRuns env taskID generation inputs core, t ∈ inputs.map FireInput.now := by
  induction inputs with
  | nil =>
      intro core row _ t ht
      cases ht
  | cons input rest ih =>
      intro core row h t ht
      obtain ⟨row', h', hcases⟩ := fire_spec h input
      rw [List.map_cons, List.mem_cons]
      rcases List.mem_append.mp ht with ht | ht
      · rcases hcases with ⟨-, hnone⟩ | ⟨-, -, hnone | hsome⟩
        · simp [hnone] at ht
        · simp [hnone] at ht
        · rw [hsome] at ht
          exact .inl (by simpa using ht)
      · exact .inr (ih h' t ht)

/-- After a fire at `y` was persisted, a sequence in which no local minute
returns queues each local minute once, and that of `y` not again. -/
theorem nodup_queuedRuns_after {inputs : List FireInput} :
    ∀ {core : Core} {row : Task} {y : Time}, Armed env core taskID generation location row →
      row.lastScheduledAt = some y →
      (location.localMinute y :: (inputs.map FireInput.now).map location.localMinute).NoReturn →
      location.localMinute y ∉
          (queuedRuns env taskID generation inputs core).map location.localMinute ∧
        ((queuedRuns env taskID generation inputs core).map location.localMinute).Nodup := by
  induction inputs with
  | nil =>
      intro core row y _ _ _
      exact ⟨List.not_mem_nil, List.nodup_nil⟩
  | cons input rest ih =>
      intro core row y h hlast hreturn
      obtain ⟨row', h', hcases⟩ := fire_spec h input
      rcases hcases with ⟨hsame, hnone⟩ | ⟨hkeep, hnow, hout⟩
      · have hrest := ih h' (hsame.trans hlast)
          (hreturn.sublist ((List.sublist_cons_self _ _).cons_cons _))
        simpa [queuedRuns, hnone] using hrest
      · -- The fire was not dropped, so its minute is not that of `y`.
        have hne : location.localMinute input.now ≠ location.localMinute y := by
          intro heq
          simp [suppresses, hlast, heq] at hkeep
        have hrest := ih h' hnow (hreturn.sublist (List.sublist_cons_self _ _))
        have hfresh : location.localMinute y ∉
            (queuedRuns env taskID generation rest
              (fire env input core taskID generation).1).map location.localMinute := by
          intro hmem
          obtain ⟨z, hz, hkey⟩ := List.mem_map.mp hmem
          have hzrest : location.localMinute y ∈
              (rest.map FireInput.now).map location.localMinute :=
            hkey ▸ List.mem_map_of_mem (queuedRuns_subset h' z hz)
          refine hne (hreturn _ _ ?_)
          exact ((List.singleton_sublist.mpr hzrest).cons_cons _).cons_cons _
        rcases hout with hnone | hsome
        · have hout : queuedRuns env taskID generation (input :: rest) core =
              queuedRuns env taskID generation rest
                (fire env input core taskID generation).1 := by
            simp [queuedRuns, hnone]
          rw [hout]
          exact ⟨hfresh, hrest.2⟩
        · simp only [queuedRuns, hsome, Option.toList_some, List.singleton_append,
            List.map_cons, List.mem_cons, not_or, List.nodup_cons]
          exact ⟨⟨hne.symm, hfresh⟩, hrest⟩

/-- A sequence in which no local minute returns queues each local minute once,
whatever its calls answer. -/
theorem nodup_queuedRuns {inputs : List FireInput} :
    ∀ {core : Core} {row : Task}, Armed env core taskID generation location row →
      ((inputs.map FireInput.now).map location.localMinute).NoReturn →
      ((queuedRuns env taskID generation inputs core).map location.localMinute).Nodup := by
  induction inputs with
  | nil =>
      intro core row _ _
      exact List.nodup_nil
  | cons input rest ih =>
      intro core row h hreturn
      obtain ⟨row', h', hcases⟩ := fire_spec h input
      rcases hcases with ⟨-, hnone⟩ | ⟨-, hnow, hout⟩
      · have hrest := ih h' (hreturn.sublist (List.sublist_cons_self _ _))
        simpa [queuedRuns, hnone] using hrest
      · obtain ⟨hfresh, hrest⟩ := nodup_queuedRuns_after h' hnow hreturn
        rcases hout with hnone | hsome
        · simpa [queuedRuns, hnone] using hrest
        · simp only [queuedRuns, hsome, Option.toList_some, List.singleton_append,
            List.map_cons, List.nodup_cons]
          exact ⟨hfresh, hrest⟩

/-- Leading fires that the state already drops change nothing. -/
theorem queuedRuns_dropWhile {inputs : List FireInput} {core : Core} {row : Task}
    (h : Armed env core taskID generation location row) :
    queuedRuns env taskID generation inputs core = queuedRuns env taskID generation
      (inputs.dropWhile fun input ↦ suppresses core taskID location row input.now) core := by
  induction inputs with
  | nil => rfl
  | cons input rest ih =>
      cases hdrop : suppresses core taskID location row input.now with
      | true =>
          simp only [queuedRuns, fire_of_suppresses h hdrop, List.dropWhile_cons, hdrop,
            if_true]
          exact ih
      | false => simp only [List.dropWhile_cons, hdrop, Bool.false_eq_true, if_false]

/-- With all calls served, later fires queue one run for each change of the
local minute. -/
theorem map_queuedRuns_served {ts : List Time} :
    ∀ {core : Core} {row : Task} {y : Time}, Armed env core taskID generation location row →
      row.lastScheduledAt = some y →
      core.scheduler.localFire.lookup taskID = some (location.localMinute y) →
      (y :: ts).Pairwise (· < ·) →
      location.localMinute y :: (queuedRuns env taskID generation (ts.map .served) core).map
          location.localMinute =
        (ts.map location.localMinute).destutter' (· ≠ ·) (location.localMinute y) := by
  induction ts with
  | nil =>
      intro core row y _ _ _ _
      rfl
  | cons t rest ih =>
      intro core row y h hlast hlocal hsorted
      obtain ⟨hfirst, hrest⟩ := List.pairwise_cons.mp hsorted
      have hlt : y < t := hfirst t (by simp)
      rw [List.map_cons, List.map_cons]
      by_cases hkey : location.localMinute y = location.localMinute t
      · have hdrop : suppresses core taskID location row (FireInput.served t).now = true := by
          simp [suppresses, hlast, FireInput.served, hkey]
        rw [List.destutter'_cons_neg _ (by simpa using hkey), queuedRuns,
          fire_of_suppresses h hdrop]
        refine ih h hlast hlocal (List.pairwise_cons.mpr ⟨fun x hx ↦ ?_, ?_⟩)
        · exact hfirst x (by simp [hx])
        · exact (List.pairwise_cons.mp hrest).2
      · have hkeep : suppresses core taskID location row t = false := by
          simp [suppresses, hlast, hlocal, hkey, hlt]
        obtain ⟨row', h', hnow, hlocal', hsome⟩ := fire_served h hkeep
        rw [List.destutter'_cons_pos _ hkey, ← ih h' hnow hlocal' hrest]
        simp [queuedRuns, hsome]

/-- The fires of one task at the given instants queue no local minute twice,
whatever their calls answer, exactly when no local minute returns after another
one, the leading fires that are dropped left aside. -/
theorem local_minutes_nodup_iff {core : Core} {row : Task} {ts : List Time}
    (h : Armed env core taskID generation location row) (hts : ts.Pairwise (· < ·)) :
    (∀ inputs : List FireInput, inputs.map FireInput.now = ts →
      ((queuedRuns env taskID generation inputs core).map location.localMinute).Nodup) ↔
    ((ts.dropWhile (suppresses core taskID location row)).map
      location.localMinute).NoReturn := by
  constructor
  · intro hall
    have hserved : ∀ ts : List Time, (ts.map FireInput.served).map FireInput.now = ts := by
      intro ts
      rw [List.map_map]
      exact List.map_id ts
    have hnodup := hall (ts.map .served) (hserved ts)
    rw [queuedRuns_dropWhile h, List.dropWhile_map] at hnodup
    change ((queuedRuns env taskID generation
      ((ts.dropWhile (suppresses core taskID location row)).map .served) core).map
        location.localMinute).Nodup at hnodup
    have hsorted : (ts.dropWhile (suppresses core taskID location row)).Pairwise (· < ·) :=
      hts.sublist (List.dropWhile_sublist _)
    cases hlate : ts.dropWhile (suppresses core taskID location row) with
    | nil => exact List.noReturn_nil
    | cons t rest =>
        rw [hlate] at hnodup hsorted
        have hkeep : suppresses core taskID location row t = false := by
          have hhead := List.head_dropWhile_not (suppresses core taskID location row)
            (l := ts) (by simp [hlate])
          simpa [hlate] using hhead
        obtain ⟨row', h', hnow, hlocal, hsome⟩ := fire_served h hkeep
        have hrest := map_queuedRuns_served h' hnow hlocal hsorted
        rw [List.map_cons, ← List.nodup_destutter'_iff, ← hrest]
        simpa [queuedRuns, hsome] using hnodup
  · intro hreturn inputs hinputs
    rw [queuedRuns_dropWhile h]
    apply nodup_queuedRuns h
    rw [← hinputs, List.dropWhile_map] at hreturn
    exact hreturn

end Sequences

/-- Two fires in consecutive minutes of a zone without changes. -/
theorem local_minutes_nodup_iff_minutely :
    let core := (minutelyRun [.reschedule "task" (servedAt 0)]).core
    (∀ inputs : List FireInput, inputs.map FireInput.now = [60000000000, 120000000000] →
      ((queuedRuns minutely "task" 2 inputs core).map
        (Location.localMinute ⟨fun _ ↦ 0⟩)).Nodup) ↔
    (([60000000000, 120000000000].dropWhile
      (suppresses core "task" ⟨fun _ ↦ 0⟩ { scheduledTask with
        nextScheduledAt := some 60000000000 })).map
      (Location.localMinute ⟨fun _ ↦ 0⟩)).NoReturn := by
  intro core
  have harmed : Armed minutely core "task" 2 ⟨fun _ ↦ 0⟩
      { scheduledTask with nextScheduledAt := some 60000000000 } :=
    ⟨rfl, rfl, rfl, rfl, rfl⟩
  exact local_minutes_nodup_iff harmed (by decide)

/-! ## A clock that is set back -/

/-- Europe/Berlin around 2026-10-25: the offset falls from two hours to one at
01:00 UTC. -/
def fallBack : Location := ⟨fun second ↦ if second < 1792890000 then 7200 else 3600⟩

/-- The local minutes 02:00 and 02:30 of every day. -/
def atTwoAndHalfPast (minute : ℤ) : Bool :=
  decide (minute % 1440 = 120 ∨ minute % 1440 = 150)

/-- The first matching minute at or after `t`, of the next `fuel` ones. -/
def firstMatch (location : Location) (matching : ℤ → Bool) : ℕ → Time → Time
  | 0, _ => zeroTime
  | fuel + 1, t =>
      if matching (location.localMinute t) then t
      else firstMatch location matching fuel (t + 60000000000)

/-- The libraries as they answer for `0,30 2 * * *` in a zone that falls back. -/
def fallBackEnv : Env where
  loadLocation name := if name = "Europe/Berlin" then some fallBack else none
  parse spec :=
    if spec = "0,30 2 * * *" ∨ spec = "CRON_TZ=Europe/Berlin 0,30 2 * * *" then
      some ⟨fun location t ↦ firstMatch location atTwoAndHalfPast 2880
        ((t / 60000000000 + 1) * 60000000000)⟩
    else none

def berlinTask : Task :=
  { scheduledTask with
    cronExpression := "0,30 2 * * *"
    timezone := "Europe/Berlin"
    randomJitterSeconds := 0 }

def berlinStore : Store where
  tasks := ⟨[berlinTask], by simp, by decide⟩
  routes := Table.empty
  results := Table.empty
  settings := migratedSettings
  isConsistent := by decide

/-- The task is registered at 23:00 UTC of the day before. -/
def berlinCore : Core :=
  (rescheduleLocked fallBackEnv (servedAt 1792882800000000000) 0 ⟨berlinStore, .new⟩
    "task").core

/-- 02:00 and 02:30, twice. -/
def berlinInstants : List Time :=
  [1792886400000000000, 1792888200000000000, 1792890000000000000, 1792891800000000000]

theorem berlinInstants_matching (t : ℤ) (hfirst : 1792886400000000000 ≤ t)
    (hlast : t ≤ 1792891800000000000) :
    t ∈ berlinInstants ↔
      t % 60000000000 = 0 ∧ atTwoAndHalfPast (fallBack.localMinute t) = true := by
  constructor
  · intro ht
    have hall : ∀ t ∈ berlinInstants,
        t % 60000000000 = 0 ∧ atTwoAndHalfPast (fallBack.localMinute t) = true := by
      decide
    exact hall t ht
  · rintro ⟨hwhole, hmatch⟩
    obtain ⟨m, rfl⟩ := Int.dvd_of_emod_eq_zero hwhole
    obtain ⟨n, hn⟩ := Int.eq_ofNat_of_zero_le (by omega : 0 ≤ m - 29881440)
    obtain rfl : m = n + 29881440 := by omega
    have hlt : n < 91 := by omega
    have hall : ∀ n < 91, atTwoAndHalfPast
        (fallBack.localMinute (60000000000 * (((n : ℕ) : ℤ) + 29881440))) = true →
          60000000000 * (((n : ℕ) : ℤ) + 29881440) ∈ berlinInstants := by
      decide +kernel
    exact hall n hlt hmatch

/-- With two matching minutes in the repeated hour, each of them is queued
twice, although the callback fires at the matching instants and at no others. -/
theorem repeated_minutes_queued :
    ¬ ∀ (env : Env) (core : Core) (taskID : String) (generation : UInt64)
        (location : Location) (row : Task) (matching : ℤ → Bool) (ts : List Time),
      Armed env core taskID generation location row → ts.Pairwise (· < ·) →
      (∀ t, (∃ first ∈ ts, first ≤ t) → (∃ last ∈ ts, t ≤ last) →
        (t ∈ ts ↔ t % 60000000000 = 0 ∧ matching (location.localMinute t) = true)) →
      ∀ inputs : List FireInput, inputs.map FireInput.now = ts →
        ((queuedRuns env taskID generation inputs core).map location.localMinute).Nodup := by
  intro hclaim
  obtain ⟨row, harmed⟩ : ∃ row, Armed fallBackEnv berlinCore "task" 2 fallBack row :=
    ⟨_, rfl, rfl, rfl, rfl, rfl⟩
  have hbounds : ∀ t ∈ berlinInstants, 1792886400000000000 ≤ t ∧ t ≤ 1792891800000000000 := by
    decide
  have hnodup := hclaim fallBackEnv berlinCore "task" 2 fallBack row atTwoAndHalfPast
    berlinInstants harmed (by decide) (fun t hfirst hlast ↦ by
      obtain ⟨first, hmem, hle⟩ := hfirst
      obtain ⟨last, hmem', hle'⟩ := hlast
      exact berlinInstants_matching t ((hbounds first hmem).1.trans hle)
        (hle'.trans (hbounds last hmem').2))
    (berlinInstants.map .served) rfl
  have hqueued : (queuedRuns fallBackEnv "task" 2 (berlinInstants.map .served)
      berlinCore).map fallBack.localMinute = [29881560, 29881590, 29881560, 29881590] := by
    decide +kernel
  rw [hqueued] at hnodup
  revert hnodup
  decide

end MultiSpeed.Scheduling
