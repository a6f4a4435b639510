import Mathlib.Order.Bounds.Basic
import MultiSpeed.Lib.Gregorian
import MultiSpeed.Scheduler.System

/-!
# Next runs

`rescheduleLocked`, `fire` and `NextRuns` take what `Next` of the cron library answers for
the next run of a task.  Where the library finds no matching instant it answers the zero
time, which none of them looks for.
-/

namespace MultiSpeed.Scheduling

open Database

inductive NextRunsError where
  /-- `count must be between 1 and 20` -/
  | count
  /-- The error of `time.LoadLocation`. -/
  | location (name : String)
  /-- The error of the parser. -/
  | expression (text : String)

/-- The loop of `NextRuns`. -/
def runsAfter (schedule : Schedule) (location : Location) : ℕ → Time → List Time
  | 0, _ => []
  | count + 1, current =>
      let current := schedule.next location current
      current :: runsAfter schedule location count current

def nextRuns (env : Env) (task : Task) (count : ℤ) (now : Time) :
    Except NextRunsError (List Time) :=
  if count < 1 ∨ 20 < count then .error .count
  else
    match env.loadLocation task.timezone with
    | none => .error (.location task.timezone)
    | some location =>
        match env.parse task.cronExpression with
        | none => .error (.expression task.cronExpression)
        | some schedule => .ok (runsAfter schedule location count.toNat now)

/-! ## The search of the cron library -/

/-- `Next` of the parsed expressions: the least matching instant after its argument, or the
zero time where none is up to the limit of the search. -/
structure Searches (env : Env) (matching : String → Location → Time → Prop)
    (limit : Location → Time → Time) : Prop where
  found : ∀ expression schedule location t d, env.parse expression = some schedule →
    matching expression location d → t < d → d ≤ limit location t →
      IsLeast {e | matching expression location e ∧ t < e} (schedule.next location t)
  missing : ∀ expression schedule location t, env.parse expression = some schedule →
    (∀ d, matching expression location d → t < d → limit location t < d) →
      schedule.next location t = zeroTime

/-- An instant of `due` lies ahead within the search. -/
def Ahead (due : Time → Prop) (limit : Time → Time) (t : Time) : Prop :=
  ∃ d, due d ∧ t < d ∧ d ≤ limit t

/-- After `t` come so many instants of `due`, each within the search from the one before.
Only a clock that is before the zero time may be answered with it. -/
def Continues (due : Time → Prop) (limit : Time → Time) : ℕ → Time → Prop
  | 0, _ => True
  | count + 1, t =>
      (∃ d, IsLeast {e | due e ∧ t < e} d ∧ d ≤ limit t ∧ Continues due limit count d) ∨
        ¬Ahead due limit t ∧ t < zeroTime ∧ Continues due limit count zeroTime

section

variable {env : Env} {matching : String → Location → Time → Prop}
  {limit : Location → Time → Time} {expression : String} {schedule : Schedule}

theorem Searches.next_cases (h : Searches env matching limit)
    (hparse : env.parse expression = some schedule) (location : Location) (t : Time) :
    (Ahead (matching expression location) (limit location) t ∧
        IsLeast {e | matching expression location e ∧ t < e} (schedule.next location t) ∧
        schedule.next location t ≤ limit location t) ∨
      (¬Ahead (matching expression location) (limit location) t ∧
        schedule.next location t = zeroTime) := by
  by_cases hahead : Ahead (matching expression location) (limit location) t
  · obtain ⟨d, hd, hlt, hle⟩ := hahead
    have hleast := h.found expression schedule location t d hparse hd hlt hle
    exact .inl ⟨⟨d, hd, hlt, hle⟩, hleast, (hleast.2 ⟨hd, hlt⟩).trans hle⟩
  · right
    refine ⟨hahead, h.missing expression schedule location t hparse fun d hd hlt ↦ ?_⟩
    by_contra hle
    exact hahead ⟨d, hd, hlt, not_lt.mp hle⟩

/-- The answer is a later matching instant if there is one within the search. -/
theorem Searches.next_iff (h : Searches env matching limit)
    (hparse : env.parse expression = some schedule) (location : Location) (t : Time) :
    (t < schedule.next location t ∧ matching expression location (schedule.next location t)) ↔
      (Ahead (matching expression location) (limit location) t ∨
        t < zeroTime ∧ matching expression location zeroTime) := by
  rcases h.next_cases hparse location t with ⟨hahead, hleast, -⟩ | ⟨hnot, hzero⟩
  · obtain ⟨hmatching, hlt⟩ := hleast.1
    exact ⟨fun _ ↦ .inl hahead, fun _ ↦ ⟨hlt, hmatching⟩⟩
  · rw [hzero]
    constructor
    · exact .inr
    · exact fun hcase ↦ hcase.resolve_left hnot

theorem Searches.runsAfter_iff (h : Searches env matching limit)
    (hparse : env.parse expression = some schedule) (location : Location) (count : ℕ) (t : Time) :
    (t :: runsAfter schedule location count t).IsChain (· < ·) ↔
      Continues (matching expression location) (limit location) count t := by
  induction count generalizing t with
  | zero => simp [runsAfter, Continues]
  | succ count ih =>
      rw [runsAfter, List.isChain_cons_cons, ih, Continues]
      rcases h.next_cases hparse location t with
        ⟨hahead, hleast, hle⟩ | ⟨hnot, hzero⟩
      · constructor
        · exact fun ⟨_, hrest⟩ ↦ .inl ⟨_, hleast, hle, hrest⟩
        · rintro (⟨d, hd, -, hrest⟩ | ⟨hnot, -⟩)
          · obtain rfl := hd.unique hleast
            exact ⟨hleast.1.2, hrest⟩
          · exact absurd hahead hnot
      · rw [hzero]
        constructor
        · exact fun ⟨hlt, hrest⟩ ↦ .inr ⟨hnot, hlt, hrest⟩
        · rintro (⟨d, hd, hle, -⟩ | ⟨-, hlt, hrest⟩)
          · exact absurd ⟨d, hd.1.1, hd.1.2, hle⟩ hnot
          · exact ⟨hlt, hrest⟩

end

/-! ## What is persisted -/

/-- The next run of a task was persisted by `rescheduleLocked`, or by `fire` for the task
it had read, and was computed at `now`. -/
inductive Persists (env : Env) (task : Task) (now next : Time) : Prop where
  | rescheduleLocked {calls : Calls} {used : ℕ} {core : Core} {row : Task}
      (loaded : core.store.getTask task.id = .ok task)
      (clock : (calls (used + 1)).now = now)
      (succeeded : (rescheduleLocked env calls used core task.id).error = none)
      (stored : (Scheduling.rescheduleLocked env calls used core task.id).core.store.task? task.id =
        some row)
      (nonNull : row.nextScheduledAt = some next)
  | fire {load reload update : Call} {store : Store} {core core' : Core} {generation : UInt64}
      {p : Prepared} {row : Task} (loaded : store.getTask task.id = .ok task)
      (prepared : prepare env load now store task.id = some p)
      (persisted : persistLocked reload update core task.id generation p = (.persisted, core'))
      (stored : core'.store.task? task.id = some row)
      (nonNull : row.nextScheduledAt = some next)

/-- A successful call of `rescheduleLocked` persists the answer of `Next` for an enabled
task, and nothing for a disabled one. -/
theorem rescheduleLocked_next {env : Env} {calls : Calls} {used : ℕ} {core : Core} {task row : Task}
    (loaded : core.store.getTask task.id = .ok task)
    (succeeded : (rescheduleLocked env calls used core task.id).error = none)
    (stored : (rescheduleLocked env calls used core task.id).core.store.task? task.id = some row)
    {next : Time} (nonNull : row.nextScheduledAt = some next) :
    task.enabled = true ∧ ∃ location schedule, env.loadLocation task.timezone = some location ∧
      env.parse task.cronExpression = some schedule ∧
      next = schedule.next location (calls (used + 1)).now := by
  have hwritten : ∀ {last n : Option Time} {stamp : Time} {store : Store},
      core.store.updateTaskSchedule task.id last n stamp = .ok store →
      store.task? task.id = some row → n = some next := by
    intro last n stamp store hstore hrow
    obtain ⟨old, -, -, htasks, -⟩ := Store.updateTaskSchedule_ok hstore
    rw [htasks, if_pos rfl] at hrow
    obtain rfl := Option.some.inj hrow
    exact nonNull
  generalize hout : rescheduleLocked env calls used core task.id = out at succeeded stored
  unfold rescheduleLocked at hout
  dsimp only at hout
  split at hout
  · subst hout
    cases succeeded
  · rename_i read hread
    obtain ⟨-, hread⟩ := Call.serve_eq_ok_iff.mp hread
    obtain rfl := Except.ok.inj (loaded.symm.trans hread)
    split at hout
    · split at hout
      · subst hout
        cases succeeded
      · rename_i store hstored
        subst hout
        cases hwritten (Call.serve_eq_ok_iff.mp hstored).2 stored
    · rename_i hon
      split at hout
      · subst hout
        cases succeeded
      · rename_i location hlocation
        split at hout
        · subst hout
          cases succeeded
        · rename_i schedule hschedule
          split at hout
          · subst hout
            cases succeeded
          · split at hout
            · subst hout
              cases succeeded
            · rename_i store hstored
              subst hout
              have hnext := hwritten (Call.serve_eq_ok_iff.mp hstored).2 stored
              exact ⟨by simpa using hon, location, schedule, hlocation, hschedule,
                (Option.some.inj hnext).symm⟩

theorem Persists.next {env : Env} {task : Task} {now next : Time} (h : Persists env task now next) :
    task.enabled = true ∧ ∃ location schedule, env.loadLocation task.timezone = some location ∧
      env.parse task.cronExpression = some schedule ∧ next = schedule.next location now := by
  cases h with
  | rescheduleLocked loaded clock succeeded stored nonNull =>
      subst clock
      exact rescheduleLocked_next loaded succeeded stored nonNull
  | @fire _ reload update _ core _ generation p _ loaded prepared persisted stored nonNull =>
      obtain ⟨-, read, location, schedule, hread, hon, hlocation, hschedule, rfl⟩ :=
        prepare_eq_some_iff.mp prepared
      obtain rfl := Except.ok.inj (loaded.symm.trans hread)
      refine ⟨hon, location, schedule, hlocation, hschedule, ?_⟩
      generalize hnext : schedule.next location now = computed at persisted
      have hspec := persistLocked_spec reload update core task.id generation
        ⟨location, task.randomJitterSeconds, now, location.localMinute now, computed⟩
      rw [persisted] at hspec
      cases hspec with
      | persisted valid loaded new later updated =>
          obtain ⟨old, -, -, htasks, -⟩ := Store.updateTaskSchedule_ok updated
          rw [htasks, if_pos rfl] at stored
          obtain rfl := Option.some.inj stored
          exact (Option.some.inj nonNull).symm

theorem nextRuns_ok {env : Env} {task : Task} {count : ℤ} {now : Time} {runs : List Time}
    (h : nextRuns env task count now = .ok runs) :
    ∃ location schedule, env.loadLocation task.timezone = some location ∧
      env.parse task.cronExpression = some schedule ∧
      runs = runsAfter schedule location count.toNat now := by
  rw [nextRuns] at h
  split at h
  · cases h
  split at h
  · cases h
  rename_i location hlocation
  split at h
  · cases h
  rename_i schedule hschedule
  exact ⟨location, schedule, hlocation, hschedule, (Except.ok.inj h).symm⟩

/-- What is persisted is a later matching instant, and the listed runs follow one another
after the call, as far as the search of the library finds a matching instant. -/
theorem nextRuns_iff {env : Env} {matching : String → Location → Time → Prop}
    {limit : Location → Time → Time} (h : Searches env matching limit) {task : Task}
    {location : Location} (hlocation : env.loadLocation task.timezone = some location)
    (now : Time) :
    (∀ next, Persists env task now next →
      (now < next ∧ matching task.cronExpression location next ↔
        Ahead (matching task.cronExpression location) (limit location) now ∨
          now < zeroTime ∧ matching task.cronExpression location zeroTime)) ∧
      ∀ count runs, nextRuns env task count now = .ok runs →
        ((∀ run ∈ runs, now < run) ∧ runs.Pairwise (· < ·) ↔
          Continues (matching task.cronExpression location) (limit location) count.toNat now) := by
  constructor
  · intro next hpersists
    obtain ⟨-, zone, schedule, hzone, hparse, rfl⟩ := hpersists.next
    obtain rfl := Option.some.inj (hlocation.symm.trans hzone)
    exact h.next_iff hparse location now
  · intro count runs hruns
    obtain ⟨zone, schedule, hzone, hparse, rfl⟩ := nextRuns_ok hruns
    obtain rfl := Option.some.inj (hlocation.symm.trans hzone)
    rw [← List.pairwise_cons, ← List.isChain_iff_pairwise]
    exact h.runsAfter_iff hparse location count.toNat now

/-! ## A day that never comes -/

def minuteLength : ℤ := 60000000000

def dayLength : ℤ := 86400000000000

def everyMinute : List String := ["* * * * *", "CRON_TZ=UTC * * * * *"]

/-- Midnight on February 30. -/
def never : List String := ["0 0 30 2 *", "CRON_TZ=UTC 0 0 30 2 *"]

/-- The libraries as they answer for these expressions in UTC. -/
def calendar : Env where
  loadLocation name := if name = "UTC" then some ⟨fun _ ↦ 0⟩ else none
  parse expression :=
    if expression ∈ everyMinute then some ⟨fun _ t ↦ (t / minuteLength + 1) * minuteLength⟩
    else if expression ∈ never then some ⟨fun _ _ ↦ zeroTime⟩
    else none

def calendarMatching (expression : String) (_ : Location) (d : Time) : Prop :=
  if expression ∈ everyMinute then d % minuteLength = 0
  else d % dayLength = 0 ∧ Gregorian.month (d / dayLength) = 2 ∧ Gregorian.day (d / dayLength) = 30

/-- Five years. -/
def calendarLimit (_ : Location) (t : Time) : Time := t + 1826 * dayLength

theorem day_le_of_february {n : ℤ} (h : Gregorian.month n = 2) : Gregorian.day n ≤ 29 := by
  have hle := Gregorian.day_le_daysIn n
  have hleap := Gregorian.leapDay_mem (Gregorian.yearOf n)
  have hfebruary := Gregorian.monthStart_add (Gregorian.yearOf n) 1 (by decide)
  have hmarch := Gregorian.monthStart_add (Gregorian.yearOf n) 2 (by decide)
  rw [h, Gregorian.daysIn] at hle
  have hone : Gregorian.daysBefore (Gregorian.leapDay (Gregorian.yearOf n)) 1 = 31 := rfl
  have htwo : Gregorian.daysBefore (Gregorian.leapDay (Gregorian.yearOf n)) 2 =
      59 + Gregorian.leapDay (Gregorian.yearOf n) := by
    unfold Gregorian.daysBefore
    rw [if_neg (by decide)]
    rfl
  have hsub : (2 : ℤ) - 1 = 1 := rfl
  rw [hsub, hfebruary, hmarch, hone, htwo] at hle
  omega

theorem isLeast_nextMinute (t : ℤ) : IsLeast {e : ℤ | e % minuteLength = 0 ∧ t < e}
    ((t / minuteLength + 1) * minuteLength) := by
  unfold minuteLength
  constructor
  · constructor
    · omega
    · omega
  · rintro e ⟨he, hlt⟩
    omega

theorem nextMinute_le (t : ℤ) : (t / minuteLength + 1) * minuteLength ≤ t + 1826 * dayLength := by
  unfold minuteLength dayLength
  omega

theorem searches_calendar : Searches calendar calendarMatching calendarLimit where
  found := by
    intro expression schedule location t d hparse hd hlt hle
    rw [calendar] at hparse
    simp only at hparse
    split at hparse
    · rename_i hevery
      obtain rfl := Option.some.inj hparse
      simp only [calendarMatching, if_pos hevery]
      exact isLeast_nextMinute t
    · rename_i hevery
      rw [calendarMatching, if_neg hevery] at hd
      have hfew := day_le_of_february hd.2.1
      rw [hd.2.2] at hfew
      exact absurd hfew (by decide)
  missing := by
    intro expression schedule location t hparse hnone
    rw [calendar] at hparse
    simp only at hparse
    split at hparse
    · rename_i hevery
      obtain rfl := Option.some.inj hparse
      obtain ⟨⟨hmultiple, hlt⟩, -⟩ := isLeast_nextMinute t
      have hbeyond := hnone ((t / minuteLength + 1) * minuteLength)
        (by rwa [calendarMatching, if_pos hevery]) hlt
      exact absurd hbeyond (not_lt.mpr (nextMinute_le t))
    · split at hparse
      · obtain rfl := Option.some.inj hparse
        rfl
      · cases hparse

/-- A task that passes the validation of its expression and its zone. -/
def neverTask : Task := { scheduledTask with cronExpression := "0 0 30 2 *" }

def neverCore : Core where
  store := { oneTask with tasks := ⟨[neverTask], by simp, by decide⟩, isConsistent := by decide }
  scheduler := .new

/-- The zero time is persisted, and is what all the listed runs are. -/
theorem nextRuns_never : ∃ env matching limit, Searches env matching limit ∧
    nextRuns env neverTask 5 0 = .ok [zeroTime, zeroTime, zeroTime, zeroTime, zeroTime] ∧
      Persists env neverTask 0 zeroTime ∧ ¬(0 : ℤ) < zeroTime := by
  refine ⟨calendar, calendarMatching, calendarLimit, searches_calendar, rfl, ?_, by decide⟩
  exact @Persists.rescheduleLocked calendar neverTask 0 zeroTime (servedAt 0) 0 neverCore
    { neverTask with nextScheduledAt := some zeroTime } rfl rfl rfl rfl rfl

/-- The runs of every minute follow one another. -/
theorem nextRuns_iff_everyMinute :
    nextRuns calendar scheduledTask 3 30000000000 =
        .ok [60000000000, 120000000000, 180000000000] ∧
      Continues (calendarMatching "* * * * *" ⟨fun _ ↦ 0⟩) (calendarLimit ⟨fun _ ↦ 0⟩) 3
        30000000000 := by
  have hruns : nextRuns calendar scheduledTask 3 30000000000 =
      .ok [60000000000, 120000000000, 180000000000] := rfl
  have hiff := (@nextRuns_iff _ _ _ searches_calendar scheduledTask _ rfl 30000000000).2 3 _ hruns
  exact ⟨hruns, hiff.mp ⟨by decide, by decide⟩⟩

end MultiSpeed.Scheduling
