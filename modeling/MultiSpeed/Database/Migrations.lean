import MultiSpeed.Api.HostPolicy
import MultiSpeed.Lib.Transition
import Mathlib.Data.List.Lex
import Mathlib.Data.List.Sort
import Mathlib.Logic.Function.Basic

/-!
# Migrations

`migrate` of `internal/database/database.go`.  A process looks every script of its release
up in `schema_migrations` and applies it in a transaction of its own if it is not listed
there.  Any number of processes may open the database at once, of newer and of older
releases, and each may be killed between two statements.
-/

namespace MultiSpeed.Database.Migrations

open AddressText Api Transition

variable {σ : Type}

/-- An embedded script: what its statements make of the tables beside
`schema_migrations`, `none` where one of them fails.  A script may ask SQLite for the
time, as `strftime('%Y-%m-%dT%H:%M:%fZ', 'now')` of the third one does. -/
structure File (σ : Type) where
  name : List Char
  script : Time → σ → Option σ

inductive MigrationError where
  | connection
  | createTable
  | noPrefix (name : List Char)
  | badPrefix (name : List Char)
  | check (version : ℤ)
  | begin (version : ℤ)
  | apply (version : ℤ)
  | commit (version : ℤ)
  deriving DecidableEq

/-- The call of a transaction that is refused; a call outside a transaction is refused
by any of them. -/
inductive Refused where
  | begin
  | statement
  | commit
  deriving DecidableEq

/-- The number before the first underscore of a name. -/
def version (name : List Char) : Except MigrationError ℤ :=
  match cutFirst '_' name with
  | none => .error (.noPrefix name)
  | some (digits, _) =>
      match atoi digits with
      | none => .error (.badPrefix name)
      | some number => .ok number

/-! ## The database -/

/-- The rows of `schema_migrations`, where there is such a table, and all other tables. -/
structure Tables (σ : Type) where
  migrations : Option (List (ℤ × Time))
  others : σ
  deriving DecidableEq

namespace Tables

def rows (db : Tables σ) : List (ℤ × Time) := db.migrations.getD []

/-- `CREATE TABLE IF NOT EXISTS schema_migrations` -/
def createTable (db : Tables σ) : Tables σ := { db with migrations := some db.rows }

/-- `SELECT COUNT(*) FROM schema_migrations WHERE version = ?` is positive. -/
def lists (db : Tables σ) (number : ℤ) : Bool := db.rows.any fun row ↦ row.1 = number

/-- The script and its row, whose primary key is the version.  The script reads `clock`
and the row is of `now`. -/
def apply (db : Tables σ) (file : File σ) (number : ℤ) (clock now : Time) :
    Option (Tables σ) :=
  match file.script clock db.others with
  | none => none
  | some tables =>
      if db.migrations.isNone ∨ db.lists number then none
      else some ⟨some (db.rows ++ [(number, now)]), tables⟩

/-- The transaction of one script, from `BeginTx` to `Commit`. -/
def transaction (db : Tables σ) (file : File σ) (number : ℤ) (refused : Option Refused)
    (clock now : Time) : Except MigrationError (Tables σ) :=
  if refused = some .begin then .error (.begin number)
  else if refused = some .statement then .error (.apply number)
  else
    match db.apply file number clock now with
    | none => .error (.apply number)
    | some db' => if refused = some .commit then .error (.commit number) else .ok db'

/-- `SchemaVersion` -/
def schemaVersion (db : Tables σ) : Option ℤ :=
  db.migrations.map fun rows ↦ ((rows.map Prod.fst).max?).getD 0

end Tables

/-! ## Processes -/

inductive Phase (σ : Type) where
  /-- Before the connection is taken. -/
  | opened
  /-- Before the table is created. -/
  | connected
  /-- Before the version is looked up; `rest` is what the loop has still to do. -/
  | checking (number : ℤ) (file : File σ) (rest : List (File σ))
  /-- Before the transaction. -/
  | applying (number : ℤ) (file : File σ) (rest : List (File σ))
  | returned (error : Option MigrationError)

/-- A process of the release that embeds the first `release` scripts. -/
structure Process (σ : Type) where
  release : ℕ
  phase : Phase σ

/-- The head of the loop over the sorted names. -/
def loop : List (File σ) → Phase σ
  | [] => .returned none
  | file :: rest =>
      match version file.name with
      | .error e => .returned (some e)
      | .ok number => .checking number file rest

/-- The scripts of all releases, in the order in which they were added; their names are
sorted and numbered in this order. -/
structure History (σ : Type) where
  files : List (File σ)
  versions : List ℤ
  parsed : files.map (fun file ↦ version file.name) = versions.map .ok
  sorted : (files.map File.name).Pairwise (· ≤ ·)
  increasing : versions.Pairwise (· < ·)

/-- `sort.Strings` of the names a release embeds. -/
def History.embedded (history : History σ) (release : ℕ) : List (File σ) :=
  (history.files.take release).insertionSort fun a b ↦ a.name ≤ b.name

structure System (σ : Type) where
  database : Tables σ
  processes : ℕ → Option (Process σ)

inductive Action where
  /-- A process opens the database.  One that had the number before has been killed. -/
  | start (p release : ℕ)
  | kill (p : ℕ)
  /-- The next statement or transaction of a process. -/
  | proceed (p : ℕ) (refused : Option Refused) (clock now : Time)
  deriving DecidableEq

/-- One statement, or one transaction, of a process. -/
def advance (history : History σ) (release : ℕ) (refused : Option Refused)
    (clock now : Time) (db : Tables σ) : Phase σ → Option (Tables σ × Phase σ)
  | .opened =>
      if refused.isNone then some (db, .connected)
      else some (db, .returned (some .connection))
  | .connected =>
      if refused.isNone then some (db.createTable, loop (history.embedded release))
      else some (db, .returned (some .createTable))
  | .checking number file rest =>
      if refused.isNone then
        some (db, if db.lists number then loop rest else .applying number file rest)
      else some (db, .returned (some (.check number)))
  | .applying number file rest =>
      match db.transaction file number refused clock now with
      | .ok db' => some (db', loop rest)
      | .error e => some (db, .returned (some e))
  | .returned _ => none

def step (history : History σ) (s : System σ) : Action → Option (System σ)
  | .start p release =>
      some { s with processes := Function.update s.processes p (some ⟨release, .opened⟩) }
  | .kill p => some { s with processes := Function.update s.processes p none }
  | .proceed p refused clock now =>
      match s.processes p with
      | none => none
      | some process =>
          match advance history process.release refused clock now s.database
              process.phase with
          | none => none
          | some (db, phase) =>
              some ⟨db, Function.update s.processes p (some ⟨process.release, phase⟩)⟩

/-! ## What a history says of its files -/

namespace History

variable (history : History σ)

theorem length_versions : history.versions.length = history.files.length := by
  simpa using (congrArg List.length history.parsed).symm

theorem embedded_eq (release : ℕ) : history.embedded release = history.files.take release := by
  refine List.Pairwise.insertionSort_eq ?_
  exact (List.pairwise_map.mp history.sorted).sublist (List.take_sublist release history.files)

/-- The files before a place and those from it on. -/
theorem version_of_drop {k i : ℕ} {file : File σ} {rest : List (File σ)}
    (h : (history.files.take k).drop i = file :: rest) :
    ∃ number, version file.name = .ok number ∧ history.versions[i]? = some number ∧
      rest = (history.files.take k).drop (i + 1) := by
  have hfile : (history.files.take k)[i]? = some file := by
    rw [← List.head?_drop, h, List.head?_cons]
  have hk : i < k := by
    by_contra hk
    rw [List.getElem?_eq_none (by rw [List.length_take]; omega)] at hfile
    cases hfile
  rw [List.getElem?_take_of_lt hk] at hfile
  have hparsed := congrArg (fun l ↦ l[i]?) history.parsed
  simp only [List.getElem?_map, hfile, Option.map_some] at hparsed
  obtain ⟨number, hnumber, hversion⟩ := Option.map_eq_some_iff.mp hparsed.symm
  refine ⟨number, hversion.symm, hnumber, ?_⟩
  rw [← List.tail_drop, h, List.tail_cons]

theorem mem_take_versions {i n : ℕ} {number : ℤ} (h : history.versions[i]? = some number) :
    number ∈ history.versions.take n ↔ i < n := by
  have hnodup : history.versions.Nodup :=
    history.increasing.imp fun hlt ↦ ne_of_lt hlt
  rw [List.mem_take_iff_getElem]
  constructor
  · rintro ⟨j, hj, hnumber⟩
    obtain ⟨hi, hget⟩ := List.getElem?_eq_some_iff.mp h
    have hij := (List.Nodup.getElem_inj_iff hnodup).mp (hnumber.trans hget.symm)
    omega
  · intro hi
    obtain ⟨hlength, hget⟩ := List.getElem?_eq_some_iff.mp h
    exact ⟨i, by omega, hget⟩

end History

/-! ## Applied scripts -/

/-- The scripts one after the other, each at its time. -/
def applyAll (files : List (File σ)) (clocks : List Time) (tables : σ) : Option σ :=
  (files.zip clocks).foldlM (fun tables run ↦ run.1.script run.2 tables) tables

/-- The first `n` scripts, and no others, have been applied to `tables`, each of them once
and in their order. -/
structure Applied (history : History σ) (tables : σ) (n : ℕ) (db : Tables σ) : Prop where
  length : n ≤ history.files.length
  listed : db.rows.map Prod.fst = history.versions.take n
  tables : ∃ clocks : List Time, clocks.length = n ∧
    applyAll (history.files.take n) clocks tables = some db.others

theorem applyAll_append {files rest : List (File σ)} {clocks : List Time}
    (hlength : clocks.length = files.length) (file : File σ) (clock : Time) {tables result : σ}
    (h : applyAll files clocks tables = some result) :
    applyAll (files ++ file :: rest) (clocks ++ [clock]) tables = file.script clock result := by
  unfold applyAll at h ⊢
  rw [List.zip_append hlength.symm, List.foldlM_append, h]
  simp

namespace Applied

variable {history : History σ} {tables : σ} {n i : ℕ} {db db' : Tables σ} {number : ℤ}

theorem createTable (h : Applied history tables n db) :
    Applied history tables n db.createTable :=
  ⟨h.length, h.listed, h.tables⟩

theorem lists_iff (h : Applied history tables n db) (hi : history.versions[i]? = some number) :
    db.lists number = true ↔ i < n := by
  rw [← history.mem_take_versions hi, ← h.listed, Tables.lists]
  simp

/-- The transaction of a script commits only where the scripts before it, and not the
script itself, have been applied. -/
theorem apply (h : Applied history tables n db) {file : File σ} {clock now : Time}
    (hle : i ≤ n) (hfile : history.files[i]? = some file)
    (hi : history.versions[i]? = some number)
    (happly : db.apply file number clock now = some db') :
    i = n ∧ Applied history tables (n + 1) db' := by
  unfold Tables.apply at happly
  split at happly
  · cases happly
  · rename_i result hscript
    split at happly
    · cases happly
    · rename_i hnew
      obtain rfl := Option.some.inj happly
      have hlisted : ¬ i < n := fun hlt ↦ hnew (Or.inr ((h.lists_iff hi).mpr hlt))
      obtain rfl : i = n := by omega
      obtain ⟨hlength, hget⟩ := List.getElem?_eq_some_iff.mp hfile
      have hfiles : history.files.take (i + 1) = history.files.take i ++ [file] := by
        rw [List.take_add_one, hfile, Option.toList_some]
      have hversions : history.versions.take (i + 1) = history.versions.take i ++ [number] := by
        rw [List.take_add_one, hi, Option.toList_some]
      refine ⟨rfl, hlength, ?_, ?_⟩
      · have hrows := h.listed
        simpa [Tables.rows, hversions] using hrows
      · obtain ⟨clocks, hclocks, htables⟩ := h.tables
        have htaken : clocks.length = (history.files.take i).length := by
          rw [hclocks, List.length_take, min_eq_left h.length]
        refine ⟨clocks ++ [clock], by rw [List.length_append, hclocks, List.length_singleton],
          ?_⟩
        rw [hfiles, applyAll_append htaken file clock htables]
        exact hscript

/-- A transaction that commits has applied its script. -/
theorem transaction_ok {file : File σ} {refused : Option Refused} {clock now : Time}
    (h : db.transaction file number refused clock now = .ok db') :
    db.apply file number clock now = some db' := by
  unfold Tables.transaction at h
  cases happly : db.apply file number clock now with
  | none => grind
  | some result =>
      rw [happly] at h
      grind

theorem schemaVersion (h : Applied history tables n db) (hdb : db.migrations.isSome) :
    db.schemaVersion = some ((history.versions.take n).getLast?.getD 0) := by
  obtain ⟨rows, hrows⟩ := Option.isSome_iff_exists.mp hdb
  have hlisted : rows.map Prod.fst = history.versions.take n := by
    simpa [Tables.rows, hrows] using h.listed
  have hincreasing := history.increasing.sublist (List.take_sublist n history.versions)
  rw [Tables.schemaVersion, hrows, Option.map_some, hlisted]
  rcases List.eq_nil_or_concat (history.versions.take n) with hnil | ⟨init, last, hlast⟩
  · rw [hnil]
    rfl
  · rw [hlast] at hincreasing ⊢
    rw [List.concat_eq_append] at hincreasing ⊢
    have hmax : (init ++ [last]).max? = some last := by
      refine List.max?_eq_some_iff.mpr ⟨by simp, fun number hnumber ↦ ?_⟩
      rcases List.mem_append.mp hnumber with hnumber | hnumber
      · exact le_of_lt ((List.pairwise_append.mp hincreasing).2.2 number hnumber last (by simp))
      · exact le_of_eq (List.mem_singleton.mp hnumber)
    rw [hmax, List.getLast?_append]
    rfl

end Applied

/-! ## Runs -/

/-- What a process has established when it looks a version up or applies a script: that
the scripts before this one have been applied. -/
def Phase.Sound (history : History σ) (release n : ℕ) : Phase σ → Prop
  | .opened | .connected => True
  | .checking number file rest | .applying number file rest =>
      ∃ i ≤ n, history.files[i]? = some file ∧ history.versions[i]? = some number ∧
        rest = (history.files.take release).drop (i + 1)
  | .returned none => min release history.files.length ≤ n
  | .returned (some _) => True

section

variable {history : History σ} {tables : σ} {release n m i : ℕ}

theorem Phase.Sound.mono {phase : Phase σ} (h : phase.Sound history release n) (hle : n ≤ m) :
    phase.Sound history release m := by
  match phase, h with
  | .opened, _ | .connected, _ => trivial
  | .checking _ _ _, ⟨i, hi, hrest⟩ => exact ⟨i, hi.trans hle, hrest⟩
  | .applying _ _ _, ⟨i, hi, hrest⟩ => exact ⟨i, hi.trans hle, hrest⟩
  | .returned none, hn => exact le_trans hn hle
  | .returned (some _), _ => trivial

theorem file_of_drop {file : File σ} {rest : List (File σ)}
    (h : (history.files.take release).drop i = file :: rest) :
    i < release ∧ history.files[i]? = some file := by
  have hhead : (history.files.take release)[i]? = some file := by
    rw [← List.head?_drop, h, List.head?_cons]
  obtain ⟨hlength, -⟩ := List.getElem?_eq_some_iff.mp hhead
  rw [List.length_take] at hlength
  have hlt : i < release := by omega
  rw [List.getElem?_take_of_lt hlt] at hhead
  exact ⟨hlt, hhead⟩

/-- The loop goes on where the scripts up to here have been applied. -/
theorem sound_loop (hi : i ≤ n) :
    (loop ((history.files.take release).drop i)).Sound history release n := by
  cases hrest : (history.files.take release).drop i with
  | nil =>
      have hlength := List.drop_eq_nil_iff.mp hrest
      rw [List.length_take] at hlength
      exact le_trans hlength hi
  | cons file rest =>
      obtain ⟨number, hversion, hnumber, htail⟩ := history.version_of_drop hrest
      rw [loop, hversion]
      exact ⟨i, hi, (file_of_drop hrest).2, hnumber, htail⟩

/-- One statement of a process applies at most the next script. -/
theorem advance_sound {db db' : Tables σ} {phase phase' : Phase σ}
    {refused : Option Refused} {clock now : Time} (hdb : Applied history tables n db)
    (hphase : phase.Sound history release n)
    (h : advance history release refused clock now db phase = some (db', phase')) :
    ∃ n', n ≤ n' ∧ Applied history tables n' db' ∧ phase'.Sound history release n' := by
  match phase, hphase with
  | .opened, _ =>
      rw [advance] at h
      split at h
      all_goals
        obtain ⟨rfl, rfl⟩ := Prod.mk.inj (Option.some.inj h)
        exact ⟨n, le_rfl, hdb, trivial⟩
  | .connected, _ =>
      rw [advance] at h
      split at h
      · obtain ⟨rfl, rfl⟩ := Prod.mk.inj (Option.some.inj h)
        rw [history.embedded_eq, ← List.drop_zero (l := history.files.take release)]
        exact ⟨n, le_rfl, hdb.createTable, sound_loop (Nat.zero_le n)⟩
      · obtain ⟨rfl, rfl⟩ := Prod.mk.inj (Option.some.inj h)
        exact ⟨n, le_rfl, hdb, trivial⟩
  | .checking number file rest, ⟨i, hi, hfile, hnumber, hrest⟩ =>
      rw [advance] at h
      split at h
      · obtain ⟨rfl, rfl⟩ := Prod.mk.inj (Option.some.inj h)
        refine ⟨n, le_rfl, hdb, ?_⟩
        by_cases hlisted : db.lists number = true
        · rw [if_pos hlisted, hrest]
          exact sound_loop ((hdb.lists_iff hnumber).mp hlisted)
        · rw [if_neg hlisted]
          exact ⟨i, hi, hfile, hnumber, hrest⟩
      · obtain ⟨rfl, rfl⟩ := Prod.mk.inj (Option.some.inj h)
        exact ⟨n, le_rfl, hdb, trivial⟩
  | .applying number file rest, ⟨i, hi, hfile, hnumber, hrest⟩ =>
      rw [advance] at h
      split at h
      · rename_i applied hcommitted
        obtain ⟨rfl, rfl⟩ := Prod.mk.inj (Option.some.inj h)
        obtain ⟨rfl, hnext⟩ := hdb.apply hi hfile hnumber (Applied.transaction_ok hcommitted)
        refine ⟨i + 1, Nat.le_succ i, hnext, ?_⟩
        rw [hrest]
        exact sound_loop le_rfl
      · obtain ⟨rfl, rfl⟩ := Prod.mk.inj (Option.some.inj h)
        exact ⟨n, le_rfl, hdb, trivial⟩
  | .returned _, _ => cases h

end

/-- Every process goes by what has been applied. -/
structure System.Sound (history : History σ) (tables : σ) (n : ℕ) (s : System σ) : Prop where
  database : Applied history tables n s.database
  processes : ∀ p process, s.processes p = some process →
    process.phase.Sound history process.release n

section

variable {history : History σ} {tables : σ} {n : ℕ} {s t : System σ}

/-- A process is replaced by one that goes by what has been applied. -/
theorem System.Sound.update (hs : s.Sound history tables n) {m p : ℕ} (hle : n ≤ m)
    {db : Tables σ} (hdb : Applied history tables m db) {process : Option (Process σ)}
    (hprocess : ∀ q ∈ process, q.phase.Sound history q.release m) :
    System.Sound history tables m ⟨db, Function.update s.processes p process⟩ := by
  refine ⟨hdb, fun p' other hother ↦ ?_⟩
  by_cases hp : p' = p
  · subst hp
    simp only [Function.update_self] at hother
    exact hprocess other hother
  · simp only [Function.update_of_ne hp] at hother
    exact (hs.processes p' other hother).mono hle

theorem step_sound {action : Action} (hs : s.Sound history tables n)
    (h : step history s action = some t) : ∃ m, n ≤ m ∧ t.Sound history tables m := by
  cases action with
  | start p release =>
      obtain rfl := Option.some.inj h
      refine ⟨n, le_rfl, hs.update le_rfl hs.database fun q hq ↦ ?_⟩
      obtain rfl := Option.some.inj hq
      trivial
  | kill p =>
      obtain rfl := Option.some.inj h
      exact ⟨n, le_rfl, hs.update le_rfl hs.database nofun⟩
  | proceed p refused clock now =>
      rw [step] at h
      split at h
      · cases h
      · rename_i process hprocess
        split at h
        · cases h
        · rename_i db phase hadvance
          obtain rfl := Option.some.inj h
          obtain ⟨m, hle, hdb, hphase⟩ :=
            advance_sound hs.database (hs.processes p process hprocess) hadvance
          refine ⟨m, hle, hs.update hle hdb fun q hq ↦ ?_⟩
          obtain rfl := Option.some.inj hq
          exact hphase

theorem run_sound {actions : List Action} (hs : s.Sound history tables n)
    (h : run (step history) s actions = some t) : ∃ m, n ≤ m ∧ t.Sound history tables m := by
  induction actions generalizing s n with
  | nil =>
      obtain rfl : s = t := by simpa using h
      exact ⟨n, le_rfl, hs⟩
  | cons action rest ih =>
      obtain ⟨u, hu, hrest⟩ := (run_cons_iff _).mp h
      obtain ⟨k, hnk, hk⟩ := step_sound hs hu
      obtain ⟨m, hkm, hm⟩ := ih hk hrest
      exact ⟨m, hnk.trans hkm, hm⟩

end

/-- Whatever processes of whatever releases are started, killed and refused in between,
the database has the first scripts of the history, each applied once and as a whole.  A
process that has returned no error works on a schema that has all its scripts. -/
theorem migrations_applied_in_order (history : History σ) {tables : σ} {n : ℕ}
    {s t : System σ} {actions : List Action} (hs : Applied history tables n s.database)
    (hnew : ∀ p, s.processes p = none) (h : run (step history) s actions = some t) :
    ∃ m, n ≤ m ∧ Applied history tables m t.database ∧
      (∀ p process, t.processes p = some process → process.phase = .returned none →
        min process.release history.files.length ≤ m) ∧
      (t.database.migrations.isSome = true →
        t.database.schemaVersion = some ((history.versions.take m).getLast?.getD 0)) := by
  have hsound : s.Sound history tables n :=
    ⟨hs, fun p process hprocess ↦ by simp [hnew p] at hprocess⟩
  obtain ⟨m, hle, hm⟩ := run_sound hsound h
  refine ⟨m, hle, hm.database, fun p process hprocess hreturned ↦ ?_, hm.database.schemaVersion⟩
  have hphase := hm.processes p process hprocess
  rw [hreturned] at hphase
  exact hphase

/-! ## A process that is left alone -/

section

variable {history : History σ} {tables : σ} {release n i : ℕ}

/-- The transaction of the next script commits. -/
theorem Applied.exists_apply {db : Tables σ} (h : Applied history tables n db)
    (hdb : db.migrations.isSome = true)
    (hscripts : ∀ clocks, (applyAll (history.files.take release) clocks tables).isSome = true)
    {file : File σ} {number : ℤ} (hn : n < release) (hfile : history.files[n]? = some file)
    (hnumber : history.versions[n]? = some number) (clock now : Time) :
    ∃ db', db.apply file number clock now = some db' ∧ db'.migrations.isSome = true := by
  have hsplit : history.files.take release =
      history.files.take n ++ file :: (history.files.take release).drop (n + 1) := by
    have hhead : (history.files.take release)[n]? = some file := by
      rw [List.getElem?_take_of_lt hn, hfile]
    obtain ⟨hlength, hget⟩ := List.getElem?_eq_some_iff.mp hhead
    rw [← hget, ← List.drop_eq_getElem_cons hlength]
    have htake : history.files.take n = (history.files.take release).take n := by
      rw [List.take_take, min_eq_left hn.le]
    rw [htake, List.take_append_drop]
  obtain ⟨clocks, hclocks, htables⟩ := h.tables
  have htaken : clocks.length = (history.files.take n).length := by
    rw [hclocks, List.length_take, min_eq_left h.length]
  have hsucceeds := hscripts (clocks ++ [clock])
  rw [hsplit, applyAll_append htaken file clock htables] at hsucceeds
  cases hscript : file.script clock db.others with
  | none => simp [hscript] at hsucceeds
  | some others =>
      have hnew : ¬ (db.migrations.isNone = true ∨ db.lists number = true) := by
        rintro (hnone | hlisted)
        · rw [Option.isNone_iff_eq_none.mp hnone] at hdb
          cases hdb
        · exact lt_irrefl n ((h.lists_iff hnumber).mp hlisted)
      refine ⟨⟨some (db.rows ++ [(number, now)]), others⟩, ?_, rfl⟩
      rw [Tables.apply, hscript]
      exact if_neg hnew

/-- A script more is listed after its transaction. -/
theorem Applied.lt_of_apply {db db' : Tables σ} {m : ℕ} (h : Applied history tables n db)
    (h' : Applied history tables m db') {file : File σ} {number : ℤ} {clock now : Time}
    (hfile : history.files[n]? = some file) (hnumber : history.versions[n]? = some number)
    (happly : db.apply file number clock now = some db') : n < m := by
  obtain ⟨-, hadvanced⟩ := h.apply le_rfl hfile hnumber happly
  have hlengths := congrArg List.length (hadvanced.listed.symm.trans h'.listed)
  have hbound := hadvanced.length
  have hversions := history.length_versions
  simp only [List.length_take] at hlengths
  omega

theorem step_proceed (history : History σ) (clock now : Time) {s : System σ} {p : ℕ}
    {phase phase' : Phase σ} {db : Tables σ} (hp : s.processes p = some ⟨release, phase⟩)
    (h : advance history release none clock now s.database phase = some (db, phase')) :
    step history s (.proceed p none clock now) =
      some ⟨db, Function.update s.processes p (some ⟨release, phase'⟩)⟩ := by
  rw [step, hp]
  simp only [h]

/-- The loop of a process whose statements are served comes to its end. -/
theorem loop_completes {s : System σ} {p : ℕ} (clock now : Time) (hs : s.Sound history tables n)
    (hdb : s.database.migrations.isSome = true)
    (hscripts : ∀ clocks, (applyAll (history.files.take release) clocks tables).isSome = true)
    (hi : i ≤ n)
    (hp : s.processes p = some ⟨release, loop ((history.files.take release).drop i)⟩) :
    ∃ k t, run (step history) s (List.replicate k (.proceed p none clock now)) = some t ∧
      t.processes p = some ⟨release, .returned none⟩ := by
  -- the induction is on the scripts the loop has not come to
  induction hrest : (history.files.take release).drop i generalizing s n i with
  | nil =>
      rw [hrest] at hp
      exact ⟨0, s, rfl, hp⟩
  | cons file rest ih =>
      obtain ⟨number, hversion, hnumber, htail⟩ := history.version_of_drop hrest
      have hchecking : loop ((history.files.take release).drop i) =
          .checking number file rest := by
        rw [hrest, loop, hversion]
      rw [hchecking] at hp
      by_cases hin : i < n
      · have hlisted : s.database.lists number = true := (hs.database.lists_iff hnumber).mpr hin
        have hadvance : advance history release none clock now s.database
            (.checking number file rest) = some (s.database, loop rest) :=
          congrArg (fun phase ↦ some (s.database, phase)) (if_pos hlisted)
        have hstep := step_proceed history clock now hp hadvance
        obtain ⟨m, hnm, hm⟩ := step_sound hs hstep
        obtain ⟨k, t, hrun, ht⟩ := ih hm hdb (by omega : i + 1 ≤ m)
          (by rw [← htail]; exact Function.update_self ..) htail.symm
        refine ⟨k + 1, t, ?_, ht⟩
        rw [List.replicate_succ, run_cons_of_step _ hstep]
        exact hrun
      · obtain rfl : i = n := by omega
        obtain ⟨hrelease, hfile⟩ := file_of_drop hrest
        have hunlisted : ¬ s.database.lists number = true := fun hlisted ↦
          hin ((hs.database.lists_iff hnumber).mp hlisted)
        have hadvance : advance history release none clock now s.database
            (.checking number file rest) = some (s.database, .applying number file rest) :=
          congrArg (fun phase ↦ some (s.database, phase)) (if_neg hunlisted)
        have hcheck := step_proceed history clock now hp hadvance
        obtain ⟨db, hdb', hsome⟩ := hs.database.exists_apply hdb hscripts
          hrelease hfile hnumber clock now
        obtain ⟨m, him, hm⟩ := step_sound hs hcheck
        have hcommit : s.database.transaction file number none clock now = .ok db := by
          rw [Tables.transaction, hdb']
          rfl
        have happly := step_proceed history clock now
          (s := ⟨s.database, Function.update s.processes p
            (some ⟨release, .applying number file rest⟩)⟩)
          (Function.update_self ..) (by rw [advance, hcommit])
        obtain ⟨m', hmm', hm'⟩ := step_sound hm happly
        obtain ⟨k, t, hrun, ht⟩ := ih hm' hsome
          (hs.database.lt_of_apply hm'.database hfile hnumber hdb')
          (by rw [← htail]; exact Function.update_self ..) htail.symm
        refine ⟨k + 1 + 1, t, ?_, ht⟩
        rw [List.replicate_succ, run_cons_of_step _ hcheck, List.replicate_succ,
          run_cons_of_step _ happly]
        exact hrun

/-- From whatever the processes before it have left, a process whose statements are served
and whose scripts succeed brings the database to its release. -/
theorem migrate_completes {s : System σ} (hs : s.Sound history tables n)
    (hscripts : ∀ clocks, (applyAll (history.files.take release) clocks tables).isSome = true)
    (p : ℕ) (clock now : Time) :
    ∃ k t, run (step history) s (.start p release :: List.replicate k (.proceed p none clock now)) =
      some t ∧ t.processes p = some ⟨release, .returned none⟩ := by
  have hstart : step history s (.start p release) =
      some { s with processes := Function.update s.processes p (some ⟨release, .opened⟩) } := rfl
  obtain ⟨m, hnm, hm⟩ := step_sound hs hstart
  have hopened : advance history release none clock now s.database .opened =
      some (s.database, .connected) := rfl
  have hconnect := step_proceed history clock now
    (s := { s with processes := Function.update s.processes p (some ⟨release, .opened⟩) })
    (Function.update_self ..) hopened
  obtain ⟨m₁, -, hm₁⟩ := step_sound hm hconnect
  have hconnected : advance history release none clock now s.database .connected =
      some (s.database.createTable, loop (history.embedded release)) := rfl
  have hcreate := step_proceed history clock now
    (s := ⟨s.database, Function.update
      (Function.update s.processes p (some ⟨release, .opened⟩)) p (some ⟨release, .connected⟩)⟩)
    (Function.update_self ..) hconnected
  obtain ⟨m₂, -, hm₂⟩ := step_sound hm₁ hcreate
  rw [history.embedded_eq] at hcreate hm₂
  obtain ⟨k, t, hrun, ht⟩ := loop_completes (i := 0) (p := p) clock now hm₂ rfl hscripts
    (Nat.zero_le m₂) (by simp)
  refine ⟨k + 1 + 1, t, ?_, ht⟩
  rw [run_cons_of_step _ hstart, List.replicate_succ, run_cons_of_step _ hconnect,
    List.replicate_succ, run_cons_of_step _ hcreate]
  exact hrun

end

/-! ## The embedded scripts -/

/-- The names under `internal/migrations`. -/
def embeddedNames : List (List Char) :=
  ["001_initial.sql".toList, "002_result_security_metadata.sql".toList,
    "003_lifecycle_and_soft_deletion.sql".toList, "004_dashboard_result_indexes.sql".toList,
    "005_ookla_eula_acceptance.sql".toList, "006_ookla_eula_version.sql".toList]

def embeddedHistory (script : List Char → Time → σ → Option σ) : History σ where
  files := embeddedNames.map fun name ↦ ⟨name, script name⟩
  versions := [1, 2, 3, 4, 5, 6]
  parsed := by
    rw [List.map_map]
    exact (by decide : embeddedNames.map version = [1, 2, 3, 4, 5, 6].map .ok)
  sorted := by
    rw [List.map_map]
    exact (by decide : (embeddedNames.map id).Pairwise (· ≤ ·))
  increasing := by decide

/-- A script that records its name and its time. -/
def recordScript (name : List Char) (clock : Time) (runs : List (List Char × Time)) :
    Option (List (List Char × Time)) :=
  some (runs ++ [(name, clock)])

def noTables : Tables (List (List Char × Time)) := ⟨none, []⟩

/-- Two processes find the first script missing.  The one that commits it first is killed,
the other one is refused, and a process of the first release finds nothing to do. -/
def twoProcesses : List Action :=
  [.start 0 6, .start 1 6, .proceed 0 none 0 0, .proceed 1 none 0 0, .proceed 0 none 0 0,
    .proceed 1 none 0 0, .proceed 0 none 1 1, .proceed 1 none 1 1, .proceed 0 none 2 3,
    .proceed 1 none 4 5, .start 2 1, .kill 0, .proceed 2 none 6 6, .proceed 2 none 6 6,
    .proceed 2 none 6 6]

theorem migrations_applied_in_order_twoProcesses :
    ∃ t m, run (step (embeddedHistory recordScript)) ⟨noTables, fun _ ↦ none⟩ twoProcesses =
        some t ∧ Applied (embeddedHistory recordScript) [] m t.database ∧
      t.database = ⟨some [(1, 3)], [("001_initial.sql".toList, 2)]⟩ := by
  have htables : (run (step (embeddedHistory recordScript)) ⟨noTables, fun _ ↦ none⟩
      twoProcesses).map System.database =
        some ⟨some [(1, 3)], [("001_initial.sql".toList, 2)]⟩ := by
    decide
  obtain ⟨t, hrun, hdatabase⟩ := Option.map_eq_some_iff.mp htables
  have hnone : Applied (embeddedHistory recordScript) [] 0 noTables :=
    ⟨Nat.zero_le _, rfl, [], rfl, rfl⟩
  obtain ⟨m, -, hm, -⟩ := migrations_applied_in_order (embeddedHistory recordScript) hnone
    (fun _ ↦ rfl) hrun
  exact ⟨t, m, hrun, hm, hdatabase⟩

end MultiSpeed.Database.Migrations
