import MultiSpeed.Api.Sections
import MultiSpeed.Database.Replacement
import MultiSpeed.Execution.Results
import MultiSpeed.Scheduler.Generations

/-!
# An import between callbacks and manual runs

`Queue` has two callers: a callback of the scheduler, which holds the mutex of
the scheduler until the call returns, and `runTask`, which holds
`configurationMu`.  An import holds `configurationMu`, and each of its calls into
the scheduler takes the other mutex.
-/

namespace MultiSpeed.Api.Isolation

open Database Scheduling Transition

/-- Who holds `configurationMu`. -/
inductive Owner where
  | importer
  /-- A manual run, with its call of `Queue`. -/
  | run (call : ℕ)

/-- One import, any number of callbacks and manual runs, and the manager. -/
structure State where
  manager : Execution.State
  scheduler : Scheduler
  callbacks : List Callback
  /-- The call of `Queue` under the mutex of the scheduler. -/
  schedulerMu : Option ℕ
  configurationMu : Option Owner
  importer : Option Section
  /-- The document and the database the commit has left. -/
  imported : Option (Import × Store)

namespace State

def core (s : State) : Core := ⟨s.manager.store, s.scheduler⟩

def withCore (s : State) (core : Core) : State :=
  { s with manager := { s.manager with store := core.store }, scheduler := core.scheduler }

/-- A new call of `Queue`. -/
def enqueue (s : State) (taskID : String) (trigger : TriggerType) (scheduledAt : Option Time) :
    State :=
  { s with manager := { s.manager with
      calls := s.manager.calls ++ [⟨taskID, trigger, scheduledAt, .started⟩] } }

end State

inductive Action where
  /-- The cron loop starts the function of an entry. -/
  | fire (entryID : ℕ)
  | advance (index : ℕ) (input : Input)
  /-- A callback gives the mutex back. -/
  | unlock
  /-- `runTask` -/
  | run (taskID : String)
  | respond
  /-- `importConfiguration` -/
  | receive (document : Import)
  | handler
  | manager (action : Execution.Action)

/-- The sections of a callback under the mutex of the scheduler. -/
def phaseLocks : Phase → Bool
  | .started | .prepared _ | .waited _ => true
  | .checked | .jitter _ | .finished => false

/-- The sections of a handler that call the scheduler. -/
def sectionLocks : Section → Bool
  | .remove _ _ | .reschedule _ _ _ | .pause _ _ | .restore _ _ | .activate _ => true
  | _ => false

def returned : Execution.QueuePhase → Bool
  | .returned _ _ => true
  | _ => false

def answered : Section → Bool
  | .answered _ => true
  | _ => false

/-- The instant a callback calls `Queue` with. -/
def queuedAt? : Event → Option Time
  | .queued _ _ scheduledAt => some scheduledAt
  | .persisted _ _ _ => none

/-- The calls of `Queue`, the workers and the deletion of results. -/
def allowed : Execution.Action → Bool
  | .call _ _ | .receive _ | .work _ _ => true
  | .statement (.deleteResult _) | .statement (.deleteResults _) => true
  | .statement (.deleteResultsBefore _ _) => true
  | _ => false

/-- The registration of the imported tasks follows the commit. -/
def afterSection (store : Store) (imported : Option (Import × Store)) :
    Section → Option (Import × Store)
  | .activate document => some (document, store)
  | _ => imported

def State.hasReturned (s : State) (call : ℕ) : Bool :=
  s.manager.calls[call]?.any fun c ↦ returned c.phase

def step (env : Scheduling.Env) (host : Execution.Env) (calls : Calls) (s : State) :
    Action → Option State
  | .fire entryID =>
      match s.scheduler.cron.entries.find? fun e ↦ e.id = entryID with
      | none => none
      | some e =>
          some { s with
            callbacks := s.callbacks ++ [⟨e.taskID, e.generation, e.issued, .started⟩] }
  | .advance index input =>
      match s.callbacks[index]? with
      | none => none
      | some c =>
          if phaseLocks c.phase && s.schedulerMu.isSome then none
          else
            match c.advance env input index s.core with
            | none => none
            | some (core, phase, events) =>
                let next := { s.withCore core with
                  callbacks := s.callbacks.set index { c with phase := phase } }
                match events.findSome? queuedAt? with
                | none => some next
                | some scheduledAt =>
                    some { next.enqueue c.taskID .scheduled (some scheduledAt) with
                      schedulerMu := some s.manager.calls.length }
  | .unlock =>
      match s.schedulerMu with
      | none => none
      | some call => if s.hasReturned call then some { s with schedulerMu := none } else none
  | .run taskID =>
      match s.configurationMu with
      | some _ => none
      | none =>
          some { s.enqueue taskID .manual none with
            configurationMu := some (.run s.manager.calls.length) }
  | .respond =>
      match s.configurationMu with
      | some (.run call) =>
          if s.hasReturned call then some { s with configurationMu := none } else none
      | _ => none
  | .receive document =>
      match s.configurationMu, s.importer with
      | none, none =>
          some { s with
            configurationMu := some .importer
            importer := some (.read document) }
      | _, _ => none
  | .handler =>
      match s.importer with
      | none => none
      | some current =>
          if sectionLocks current && s.schedulerMu.isSome then none
          else
            match current.advance env calls s.core with
            | none => none
            | some (core, next) =>
                some { s.withCore core with
                  importer := some next
                  configurationMu := if answered next then none else s.configurationMu
                  imported := afterSection core.store s.imported next }
  | .manager action =>
      if allowed action then
        match Execution.step host s.manager action with
        | none => none
        | some manager => some { s with manager := manager }
      else none

/-- No mutex is held and the import has not arrived.  Callbacks may be suspended
anywhere, and jobs may wait in the channel. -/
structure Initial (s : State) : Prop where
  wellFormed : s.scheduler.WellFormed
  calls : ∀ c ∈ s.manager.calls, returned c.phase = true
  schedulerMu : s.schedulerMu = none
  configurationMu : s.configurationMu = none
  importer : s.importer = none
  imported : s.imported = none

/-- Between the return of `Reconcile` without tasks and the commit. -/
def State.paused (s : State) : Prop :=
  ∃ document current, s.importer = some (.replace document current)

/-! ## What a step does -/

section Steps

variable (env : Scheduling.Env) (host : Execution.Env) (calls : Calls)

/-- One case for each kind of step. -/
inductive Stepped (s : State) : State → Prop where
  | fired (callbacks : List Callback) : Stepped s { s with callbacks := callbacks }
  /-- A section of a callback other than the one that queues its run. -/
  | advanced {input : Input} {index : ℕ} {c : Callback} {core : Core} {phase : Phase}
      {events : List Event} (callbacks : List Callback)
      (advanced : Advanced input s.core index c core phase events) :
      Stepped s { s.withCore core with callbacks := callbacks }
  | queued {c : Callback} (callbacks : List Callback) (scheduledAt : Time)
      (free : s.schedulerMu = none)
      (current : s.scheduler.isCurrentGenerationLocked c.taskID c.generation = true) :
      Stepped s { s.enqueue c.taskID .scheduled (some scheduledAt) with
        callbacks := callbacks
        schedulerMu := some s.manager.calls.length }
  | unlocked {call : ℕ} (held : s.schedulerMu = some call) (done : s.hasReturned call = true) :
      Stepped s { s with schedulerMu := none }
  | ran (taskID : String) (free : s.configurationMu = none) :
      Stepped s { s.enqueue taskID .manual none with
        configurationMu := some (.run s.manager.calls.length) }
  | responded {call : ℕ} (held : s.configurationMu = some (.run call))
      (done : s.hasReturned call = true) : Stepped s { s with configurationMu := none }
  | received (document : Import) (free : s.configurationMu = none) (first : s.importer = none) :
      Stepped s { s with
        configurationMu := some .importer
        importer := some (.read document) }
  | handled {current next : Section} {core : Core} (at_ : s.importer = some current)
      (free : sectionLocks current = true → s.schedulerMu = none)
      (advanced : current.advance env calls s.core = some (core, next)) :
      Stepped s { s.withCore core with
        importer := some next
        configurationMu := if answered next then none else s.configurationMu
        imported := afterSection core.store s.imported next }
  | managed {action : Execution.Action} {manager : Execution.State}
      (allowed : allowed action = true)
      (moved : Execution.step host s.manager action = some manager) :
      Stepped s { s with manager := manager }

variable {env host calls}

/-- The only event with a call of `Queue` is that of a current callback. -/
theorem queuedAt?_advanced {input : Input} {core core' : Core} {index : ℕ} {c : Callback}
    {phase : Phase} {events : List Event} {scheduledAt : Time}
    (h : Advanced input core index c core' phase events)
    (hqueued : events.findSome? queuedAt? = some scheduledAt) :
    core' = core ∧ phaseLocks c.phase = true ∧
      core.scheduler.isCurrentGenerationLocked c.taskID c.generation = true := by
  cases h with
  | quiet => cases hqueued
  | unsaved => cases hqueued
  | persisted => cases hqueued
  | queued at_ valid =>
      refine ⟨rfl, ?_, valid⟩
      rw [at_]
      rfl

theorem step_spec {s t : State} {action : Action} (h : step env host calls s action = some t) :
    Stepped env host calls s t := by
  cases action with
  | fire entryID =>
      simp only [step] at h
      split at h
      · cases h
      · obtain rfl := Option.some.inj h
        exact .fired _
  | advance index input =>
      simp only [step] at h
      split at h
      · cases h
      · rename_i c hc
        split at h
        · cases h
        · rename_i hfree
          split at h
          · cases h
          · rename_i core phase events hadvance
            have hadvanced := advance_spec hadvance
            split at h
            · obtain rfl := Option.some.inj h
              exact .advanced _ hadvanced
            · rename_i scheduledAt hqueued
              obtain ⟨rfl, hlocks, hcurrent⟩ := queuedAt?_advanced hadvanced hqueued
              obtain rfl := Option.some.inj h
              refine .queued _ scheduledAt ?_ hcurrent
              simpa [hlocks] using hfree
  | unlock =>
      simp only [step] at h
      split at h
      · cases h
      · rename_i call hcall
        split at h
        · rename_i hdone
          obtain rfl := Option.some.inj h
          exact .unlocked hcall hdone
        · cases h
  | run taskID =>
      simp only [step] at h
      split at h
      · cases h
      · rename_i hfree
        obtain rfl := Option.some.inj h
        exact .ran taskID hfree
  | respond =>
      simp only [step] at h
      split at h
      · rename_i call hcall
        split at h
        · rename_i hdone
          obtain rfl := Option.some.inj h
          exact .responded hcall hdone
        · cases h
      · cases h
  | receive document =>
      simp only [step] at h
      split at h
      · rename_i hfree hfirst
        obtain rfl := Option.some.inj h
        exact .received document hfree hfirst
      · cases h
  | handler =>
      simp only [step] at h
      split at h
      · cases h
      · rename_i current hcurrent
        split at h
        · cases h
        · rename_i hfree
          split at h
          · cases h
          · rename_i core next hadvance
            obtain rfl := Option.some.inj h
            refine .handled hcurrent (fun hlocks ↦ ?_) hadvance
            simpa [hlocks] using hfree
  | manager action =>
      simp only [step] at h
      split at h
      · rename_i hallowed
        split at h
        · cases h
        · rename_i manager hmoved
          obtain rfl := Option.some.inj h
          exact .managed hallowed hmoved
      · cases h

/-! ## The manager -/

/-- A step of the manager is a section of a call, or it leaves the calls alone and
creates no row. -/
inductive Managed (host : Execution.Env) (before after : Execution.State) : Prop where
  | called {index : ℕ} {input : Execution.QueueInput} {c : Execution.QueueCall}
      {sent : Option Execution.Job} {phase : Execution.QueuePhase}
      (at_ : before.calls[index]? = some c)
      (advanced : c.advance host input before.store before.channel.length =
        some (after.store, sent, phase))
      (calls : after.calls = before.calls.set index { c with phase := phase })
      (jobs : after.sent = before.sent ++ sent.toList)
  | other (same : Store.SameExceptResults before.store after.store)
      (calls : after.calls = before.calls) (jobs : after.sent = before.sent)
      (rows : ∀ id, before.store.result? id = none → after.store.result? id = none)

theorem Managed.of_updateResult {before after : Execution.State} {result : Result}
    (h : before.store.updateResult result = .ok after.store) (calls : after.calls = before.calls)
    (jobs : after.sent = before.sent) : Managed host before after := by
  obtain ⟨row, hrow, hrows, hsame⟩ := Store.updateResult_ok h
  refine .other hsame calls jobs fun id hid ↦ ?_
  rw [hrows id, if_neg, hid]
  rintro rfl
  rw [hid] at hrow
  cases hrow

theorem Managed.of_deletes {before after : Execution.State}
    (h : Store.DeletesTerminal before.store after.store) (calls : after.calls = before.calls)
    (jobs : after.sent = before.sent) : Managed host before after := by
  refine .other h.same calls jobs fun id hid ↦ ?_
  cases hafter : after.store.result? id with
  | none => rfl
  | some row =>
      rw [h.kept id row hafter] at hid
      cases hid

theorem managed_spec {before after : Execution.State} {action : Execution.Action}
    (hallowed : allowed action = true) (h : Execution.step host before action = some after) :
    Managed host before after := by
  have hsame : Managed host before before := .other ⟨rfl, rfl, rfl⟩ rfl rfl fun _ hid ↦ hid
  cases Execution.step_spec h with
  | refused => exact hsame
  | queued => cases hallowed
  | called at_ free advanced => exact .called at_ advanced rfl rfl
  | received at_ head => exact .other ⟨rfl, rfl, rfl⟩ rfl rfl fun _ hid ↦ hid
  | worked at_ advanced =>
      cases Execution.advance_worked advanced with
      | kept => exact .other ⟨rfl, rfl, rfl⟩ rfl rfl fun _ hid ↦ hid
      | moved held moves active written => exact .of_updateResult written rfl rfl
      | finished at_ written => exact .of_updateResult written rfl rfl
      | dropped => exact .other ⟨rfl, rfl, rfl⟩ rfl rfl fun _ hid ↦ hid
  | @executed statement store external executed =>
      cases statement with
      | deleteResult id => exact .of_deletes (Store.deleteResult_ok executed) rfl rfl
      | deleteResults ids => exact .of_deletes (Store.deleteResults_ok executed) rfl rfl
      | deleteResultsBefore cutoff batchSize =>
          exact .of_deletes (Store.deleteResultsBefore_ok executed) rfl rfl
      | createTask | updateTask | deleteTask | createResult | updateResult
      | replaceConfiguration => cases hallowed
  | scheduled => cases hallowed
  | configured => cases hallowed
  | restarted => cases hallowed

/-- A section of a call writes to the results only. -/
theorem called_same {input : Execution.QueueInput} {store store' : Store}
    {c : Execution.QueueCall} {sent : Option Execution.Job} {phase : Execution.QueuePhase}
    (h : Execution.Called input store c store' sent phase) :
    Store.SameExceptResults store store' := by
  cases h with
  | kept => exact ⟨rfl, rfl, rfl⟩
  | recorded status finished idle inserted =>
      obtain ⟨-, -, -, -, hsame⟩ := Store.createResult_ok inserted
      exact hsame
  | opened status idle inserted =>
      obtain ⟨-, -, -, -, hsame⟩ := Store.createResult_ok inserted
      exact hsame
  | sent => exact ⟨rfl, rfl, rfl⟩
  | finished at_ written =>
      obtain ⟨-, -, -, hsame⟩ := Store.updateResult_ok written
      exact hsame
  | dropped => exact ⟨rfl, rfl, rfl⟩

/-! ## The sections of the import -/

def imports : Section → Bool
  | .read _ | .pause _ _ | .replace _ _ | .restore _ _ | .activate _ | .answered _ => true
  | .load _ | .remove _ _ | .delete _ _ | .explain _ _ | .reschedule _ _ _ => false

/-- A section of the import commits the document, or it changes no configuration. -/
inductive Imports (core : Core) : Section → Core → Section → Prop where
  | committed {document : Import} {current : ConfigurationSnapshot} {store : Store} {now : Time}
      (replaced : core.store.replaceConfiguration document.settings document.routes
        document.tasks now = .ok store) :
      Imports core (.replace document current) { core with store := store } (.activate document)
  | paused {document : Import} {current : ConfigurationSnapshot} {core' : Core}
      (wellFormed : core'.scheduler.WellFormed) (onlyNext : OnlyNext core.store core'.store)
      (cleared : ∀ k, core'.scheduler.generations.lookup k = none) :
      Imports core (.pause document current) core' (.replace document current)
  | other {current next : Section} {core' : Core} (wellFormed : core'.scheduler.WellFormed)
      (onlyNext : OnlyNext core.store core'.store) (next_imports : imports next = true)
      (idle : ∀ document, next ≠ .activate document)
      (running : ∀ document snapshot, next ≠ .replace document snapshot) :
      Imports core current core' next

theorem advance_imports {core core' : Core} {current next : Section}
    (hcore : core.scheduler.WellFormed) (himports : imports current = true)
    (h : current.advance env calls core = some (core', next)) :
    Imports core current core' next := by
  cases current with
  | read document =>
      simp only [Section.advance] at h
      split at h
      · obtain ⟨rfl, rfl⟩ := by simpa using h
        exact .other hcore (.refl _) rfl (fun _ h ↦ by cases h) (fun _ _ h ↦ by cases h)
      · obtain ⟨rfl, rfl⟩ := by simpa using h
        exact .other hcore (.refl _) rfl (fun _ h ↦ by cases h) (fun _ _ h ↦ by cases h)
  | pause document snapshot =>
      obtain ⟨rfl, rfl⟩ := by simpa [Section.advance] using h
      exact .paused hcore.clearAll (.refl _) hcore.clearAll_generations
  | replace document snapshot =>
      simp only [Section.advance] at h
      split at h
      · obtain ⟨rfl, rfl⟩ := by simpa using h
        exact .other hcore (.refl _) rfl (fun _ h ↦ by cases h) (fun _ _ h ↦ by cases h)
      · rename_i store hreplace
        obtain ⟨rfl, rfl⟩ := by simpa using h
        exact .committed (Call.serve_eq_ok_iff.mp hreplace).2
  | restore snapshot cause =>
      obtain ⟨rfl, rfl⟩ := by simpa [Section.advance] using h
      obtain ⟨hwell, honly⟩ := reconcile_onlyNext env calls 2 hcore snapshot.tasks
      exact .other hwell honly rfl (fun _ h ↦ by cases h) (fun _ _ h ↦ by cases h)
  | activate document =>
      obtain ⟨hwell, honly⟩ := reconcile_onlyNext env calls 2 hcore document.tasks
      simp only [Section.advance] at h
      split at h
      · obtain ⟨rfl, rfl⟩ := by simpa using h
        exact .other hwell honly rfl (fun _ h ↦ by cases h) (fun _ _ h ↦ by cases h)
      · obtain ⟨rfl, rfl⟩ := by simpa using h
        exact .other hwell honly rfl (fun _ h ↦ by cases h) (fun _ _ h ↦ by cases h)
  | answered reply => cases h
  | load | remove | delete | explain | reschedule => cases himports

/-! ## The two mutexes -/

/-- Every running call of `Queue` is made under one of the mutexes, an import that
runs holds the other, and while it is paused no task has a generation. -/
structure Exclusive (s : State) : Prop where
  wellFormed : s.scheduler.WellFormed
  owned : ∀ (i : ℕ) (c : Execution.QueueCall), s.manager.calls[i]? = some c →
    returned c.phase = true ∨ s.schedulerMu = some i ∨ s.configurationMu = some (.run i)
  importing : ∀ next, s.importer = some next → imports next = true ∧
    (answered next = true ∨ s.configurationMu = some .importer)
  paused : s.paused → s.schedulerMu = none ∧ ∀ k, s.scheduler.generations.lookup k = none

theorem Initial.exclusive {s : State} (hs : Initial s) : Exclusive s where
  wellFormed := hs.wellFormed
  owned _ c hc := .inl (hs.calls c (List.mem_of_getElem? hc))
  importing next h := by
    rw [hs.importer] at h
    cases h
  paused := by
    rintro ⟨document, current, h⟩
    rw [hs.importer] at h
    cases h

/-- Without the mutex of the scheduler a running call holds the other. -/
theorem Exclusive.owned_of_free {s : State} (hs : Exclusive s) (hfree : s.schedulerMu = none)
    {i : ℕ} {c : Execution.QueueCall} (hc : s.manager.calls[i]? = some c) :
    returned c.phase = true ∨ s.configurationMu = some (.run i) := by
  refine (hs.owned i c hc).imp_right fun howned ↦ howned.resolve_left fun hlocked ↦ ?_
  rw [hfree] at hlocked
  cases hlocked

/-- Without a manual run a running call is that of a callback. -/
theorem Exclusive.owned_of_not_run {s : State} (hs : Exclusive s)
    (hnot : ∀ call, s.configurationMu ≠ some (.run call)) {i : ℕ} {c : Execution.QueueCall}
    (hc : s.manager.calls[i]? = some c) :
    returned c.phase = true ∨ s.schedulerMu = some i :=
  (hs.owned i c hc).imp_right fun howned ↦ howned.resolve_right (hnot i)

/-- An import that still has a section to run holds `configurationMu`. -/
theorem Exclusive.running {s : State} (hs : Exclusive s) {next : Section}
    (hnext : s.importer = some next) (hrunning : answered next = false) :
    s.configurationMu = some .importer := by
  refine (hs.importing next hnext).2.resolve_left fun hanswered ↦ ?_
  rw [hrunning] at hanswered
  cases hanswered

theorem importer_ne_run {s : State} (hholds : s.configurationMu = some .importer) (call : ℕ) :
    s.configurationMu ≠ some (.run call) := by
  intro hlocked
  rw [hholds] at hlocked
  cases hlocked

theorem free_ne_run {s : State} (hfree : s.configurationMu = none) (call : ℕ) :
    s.configurationMu ≠ some (.run call) := by
  intro hlocked
  rw [hfree] at hlocked
  cases hlocked

/-- No call of `Queue` is running while the import is paused. -/
theorem Exclusive.idle {s : State} (hs : Exclusive s) (hpaused : s.paused) :
    ∀ c ∈ s.manager.calls, returned c.phase = true := by
  intro c hc
  obtain ⟨i, hi⟩ := List.mem_iff_getElem?.mp hc
  obtain ⟨hfree, -⟩ := hs.paused hpaused
  obtain ⟨document, current, hnext⟩ := hpaused
  have hholds := hs.running hnext rfl
  exact (hs.owned_of_free hfree hi).resolve_right (importer_ne_run hholds i)

theorem returned_of_hasReturned {s : State} {call : ℕ} {c : Execution.QueueCall}
    (hc : s.manager.calls[call]? = some c) (h : s.hasReturned call = true) :
    returned c.phase = true := by
  rwa [State.hasReturned, hc] at h

theorem exists_of_returned {phase : Execution.QueuePhase} (h : returned phase = true) :
    ∃ result error, phase = .returned result error := by
  cases phase with
  | returned result error => exact ⟨result, error, rfl⟩
  | started | loaded | waiting | locked | skipping | creating | created | overflow => cases h

/-- A call that has returned has no further section. -/
theorem advance_of_returned {input : Execution.QueueInput} {store : Store} {length : ℕ}
    {c : Execution.QueueCall} (h : returned c.phase = true) :
    c.advance host input store length = none := by
  obtain ⟨result, error, hphase⟩ := exists_of_returned h
  rw [Execution.QueueCall.advance, hphase]

theorem getElem?_concat {calls : List Execution.QueueCall} {new c : Execution.QueueCall} {i : ℕ}
    (h : (calls ++ [new])[i]? = some c) : calls[i]? = some c ∨ i = calls.length := by
  rw [List.getElem?_append] at h
  split at h
  · exact .inl h
  · rename_i hi
    obtain ⟨hlt, -⟩ := List.getElem?_eq_some_iff.mp h
    rw [List.length_singleton] at hlt
    exact .inr (by omega)

theorem Exclusive.step {s t : State} {action : Action} (hs : Exclusive s)
    (h : step env host calls s action = some t) : Exclusive t := by
  cases step_spec h with
  | fired callbacks => exact ⟨hs.wellFormed, hs.owned, hs.importing, hs.paused⟩
  | advanced callbacks advanced =>
      refine ⟨advanced.wellFormed hs.wellFormed, hs.owned, hs.importing, fun hpaused ↦ ?_⟩
      obtain ⟨hfree, hnone⟩ := hs.paused hpaused
      refine ⟨hfree, fun k ↦ ?_⟩
      have hsame := advanced.generations
      exact (congrArg (AList.lookup k) hsame).trans (hnone k)
  | queued callbacks scheduledAt free current =>
      refine ⟨hs.wellFormed, fun i c hc ↦ ?_, hs.importing, fun hpaused ↦ ?_⟩
      · rcases getElem?_concat hc with hold | rfl
        · exact (hs.owned_of_free free hold).imp_right .inr
        · exact .inr (.inl rfl)
      · -- a callback is not current while the import is paused
        have hnone := (hs.paused hpaused).2
        rw [Scheduler.isCurrentGenerationLocked_iff, hnone] at current
        cases current
  | @unlocked call held done =>
      refine ⟨hs.wellFormed, fun i c hc ↦ ?_, hs.importing, fun hpaused ↦ ⟨rfl, ?_⟩⟩
      · rcases hs.owned i c hc with hreturned | hlocked | hlocked
        · exact .inl hreturned
        · obtain rfl := Option.some.inj (held.symm.trans hlocked)
          exact .inl (returned_of_hasReturned hc done)
        · exact .inr (.inr hlocked)
      · exact (hs.paused hpaused).2
  | ran taskID free =>
      have hidle : ∀ next, s.importer = some next → answered next = true := by
        intro next hnext
        refine (hs.importing next hnext).2.resolve_right fun hholds ↦ ?_
        rw [free] at hholds
        cases hholds
      refine ⟨hs.wellFormed, fun i c hc ↦ ?_, fun next hnext ↦ ?_, ?_⟩
      · rcases getElem?_concat hc with hold | rfl
        · exact (hs.owned_of_not_run (free_ne_run free) hold).imp_right .inl
        · exact .inr (.inr rfl)
      · exact ⟨(hs.importing next hnext).1, .inl (hidle next hnext)⟩
      · rintro ⟨document, current, hnext⟩
        have hanswered := hidle _ hnext
        cases hanswered
  | @responded call held done =>
      refine ⟨hs.wellFormed, fun i c hc ↦ ?_, fun next hnext ↦ ?_, hs.paused⟩
      · rcases hs.owned i c hc with hreturned | hlocked | hlocked
        · exact .inl hreturned
        · exact .inr (.inl hlocked)
        · rw [held] at hlocked
          cases hlocked
          exact .inl (returned_of_hasReturned hc done)
      · obtain ⟨himports, hanswered | hholds⟩ := hs.importing next hnext
        · exact ⟨himports, .inl hanswered⟩
        · rw [held] at hholds
          cases hholds
  | received document free first =>
      refine ⟨hs.wellFormed, fun i c hc ↦ ?_, fun next hnext ↦ ?_, ?_⟩
      · exact (hs.owned_of_not_run (free_ne_run free) hc).imp_right .inl
      · obtain rfl := Option.some.inj hnext
        exact ⟨rfl, .inr rfl⟩
      · rintro ⟨document', current, hnext⟩
        cases hnext
  | @handled current next core at_ free advanced =>
      obtain ⟨himports, -⟩ := hs.importing current at_
      have hopen : answered current = false := by
        cases current with
        | answered reply => cases advanced
        | load | remove | delete | explain | reschedule | read | pause | replace | restore
        | activate => rfl
      have hrunning := hs.running at_ hopen
      have hspec := advance_imports hs.wellFormed himports advanced
      refine ⟨?_, fun i c hc ↦ ?_, fun next' hnext ↦ ?_, ?_⟩
      · cases hspec with
        | committed => exact hs.wellFormed
        | paused wellFormed => exact wellFormed
        | other wellFormed => exact wellFormed
      · exact (hs.owned_of_not_run (importer_ne_run hrunning) hc).imp_right .inl
      · obtain rfl := Option.some.inj hnext
        refine ⟨?_, ?_⟩
        · cases hspec with
          | committed => rfl
          | paused => rfl
          | other _ _ next_imports => exact next_imports
        · change answered next = true ∨ (if answered next then none else s.configurationMu) = _
          by_cases hanswered : answered next = true
          · exact .inl hanswered
          · exact .inr (by rw [if_neg hanswered, hrunning])
      · rintro ⟨document, snapshot, hnext⟩
        obtain rfl := Option.some.inj hnext
        cases hspec with
        | paused wellFormed onlyNext cleared => exact ⟨free rfl, cleared⟩
        | other _ _ _ _ running => exact absurd rfl (running document snapshot)
  | @managed action manager allowed moved =>
      refine ⟨hs.wellFormed, fun i c hc ↦ ?_, hs.importing, hs.paused⟩
      cases managed_spec allowed moved with
      | @called index input old sent phase at_ advanced hcalls jobs =>
          change manager.calls[i]? = some c at hc
          rw [hcalls] at hc
          by_cases hi : index = i
          · subst hi
            rcases hs.owned index old at_ with hreturned | hlocked
            · rw [advance_of_returned hreturned] at advanced
              cases advanced
            · exact .inr hlocked
          · rw [List.getElem?_set_ne hi] at hc
            exact hs.owned i c hc
      | other same hcalls jobs rows =>
          change manager.calls[i]? = some c at hc
          rw [hcalls] at hc
          exact hs.owned i c hc

/-! ## The rows of the import -/

/-- The task rows are those of `stored` with other activations, and the profiles are
those of `stored`. -/
structure Keeps (stored store : Store) : Prop where
  tasks : ∀ k row, store.task? k = some row → ∃ old last next stamp,
    stored.task? k = some old ∧ row = Store.assignSchedule last next stamp old
  routes : store.routes = stored.routes

theorem Keeps.refl (store : Store) : Keeps store store :=
  ⟨fun _ row hrow ↦ ⟨row, row.lastScheduledAt, row.nextScheduledAt, row.updatedAt, hrow, rfl⟩, rfl⟩

theorem Keeps.results {stored store store' : Store} (h : Keeps stored store)
    (hsame : Store.SameExceptResults store store') : Keeps stored store' := by
  refine ⟨fun k row hrow ↦ ?_, hsame.routes.trans h.routes⟩
  rw [hsame.task?] at hrow
  exact h.tasks k row hrow

theorem Keeps.schedule {stored store store' : Store} {id : String} {last next : Option Time}
    {now : Time} (h : Keeps stored store)
    (hwrite : store.updateTaskSchedule id last next now = .ok store') : Keeps stored store' := by
  obtain ⟨row, hrow, -, htasks, hsame⟩ := Store.updateTaskSchedule_ok hwrite
  refine ⟨fun k row' hrow' ↦ ?_, hsame.routes.trans h.routes⟩
  rw [htasks] at hrow'
  split at hrow'
  · rename_i hk
    subst hk
    obtain rfl := Option.some.inj hrow'
    obtain ⟨old, -, -, -, hold, rfl⟩ := h.tasks id row hrow
    exact ⟨old, last, next, now, hold, rfl⟩
  · exact h.tasks k row' hrow'

theorem Keeps.onlyNext {stored store store' : Store} (h : Keeps stored store)
    (honly : OnlyNext store store') : Keeps stored store' := by
  refine ⟨fun k row' hrow' ↦ ?_, honly.same.routes.trans h.routes⟩
  cases hrow : store.task? k with
  | none =>
      rw [honly.none k hrow] at hrow'
      cases hrow'
  | some row =>
      obtain ⟨next, stamp, hnew⟩ := honly.some k row hrow
      obtain rfl := Option.some.inj (hrow'.symm.trans hnew)
      obtain ⟨old, last, -, -, hold, rfl⟩ := h.tasks k row hrow
      exact ⟨old, last, next, stamp, hold, rfl⟩

/-- A live row of `stored`, with other activations. -/
def TaskOf (stored : Store) (task : Task) : Prop :=
  ∃ row last next stamp, stored.getTask row.id = .ok row ∧
    task = Store.assignSchedule last next stamp row

/-- A task of `stored` and its profile. -/
def SnapshotOf (stored : Store) (snapshot : Execution.Snapshot) : Prop :=
  ∃ task, TaskOf stored task ∧ snapshot.task = Execution.clonedTask task ∧
    ((task.routeProfileID = none ∧ snapshot.routeProfile = none) ∨
      ∃ id profile, task.routeProfileID = some id ∧ stored.getRouteProfile id = .ok profile ∧
        snapshot.routeProfile = some profile)

/-- What a call has read is of `stored`. -/
def PhaseOf (stored : Store) : Execution.QueuePhase → Prop
  | .started | .returned _ _ => True
  | .loaded task id => TaskOf stored task ∧ task.routeProfileID = some id
  | .waiting snapshot | .locked snapshot | .skipping snapshot _ | .creating snapshot
  | .created snapshot _ | .overflow snapshot _ _ => SnapshotOf stored snapshot

theorem Keeps.getTask {stored store : Store} (h : Keeps stored store) {id : String} {task : Task}
    (htask : store.getTask id = .ok task) : TaskOf stored task := by
  obtain ⟨hrow, hlive⟩ := Store.getTask_eq_ok_iff.mp htask
  obtain ⟨old, last, next, stamp, hold, rfl⟩ := h.tasks id task hrow
  obtain rfl := Store.task?_id hold
  exact ⟨old, last, next, stamp, Store.getTask_eq_ok_iff.mpr ⟨hold, hlive⟩, rfl⟩

theorem Keeps.getRouteProfile {stored store : Store} (h : Keeps stored store) {id : String}
    {profile : RouteProfile} (hprofile : store.getRouteProfile id = .ok profile) :
    stored.getRouteProfile id = .ok profile := by
  rwa [Store.getRouteProfile, Store.route?, h.routes] at hprofile

/-- A section reads rows of `stored` and sends jobs made of them. -/
theorem phaseOf_advance {input : Execution.QueueInput} {stored store store' : Store} {length : ℕ}
    {c : Execution.QueueCall} {sent : Option Execution.Job} {phase : Execution.QueuePhase}
    (hkeeps : Keeps stored store) (hphase : PhaseOf stored c.phase)
    (h : c.advance host input store length = some (store', sent, phase)) :
    PhaseOf stored phase ∧ ∀ job ∈ sent, ∃ snapshot resultID, SnapshotOf stored snapshot ∧
      job = snapshot.job resultID := by
  have hnone : ∀ job ∈ (none : Option Execution.Job), ∃ snapshot resultID,
      SnapshotOf stored snapshot ∧ job = snapshot.job resultID := by
    intro job hjob
    cases hjob
  obtain ⟨taskID, trigger, scheduledAt, current⟩ := c
  cases current with
  | started =>
      simp only [Execution.QueueCall.advance] at h
      split at h
      · obtain ⟨-, rfl, rfl⟩ := by simpa using h
        exact ⟨trivial, hnone⟩
      · rename_i task hload
        have htask := hkeeps.getTask (serve_eq_ok_iff.mp hload).2
        split at h
        · obtain ⟨-, rfl, rfl⟩ := by simpa using h
          exact ⟨trivial, hnone⟩
        · split at h
          · rename_i id hid
            obtain ⟨-, rfl, rfl⟩ := by simpa using h
            exact ⟨⟨htask, hid⟩, hnone⟩
          · rename_i hid
            obtain ⟨-, rfl, rfl⟩ := by simpa using h
            exact ⟨⟨task, htask, rfl, .inl ⟨hid, rfl⟩⟩, hnone⟩
  | loaded task id =>
      obtain ⟨htask, hid⟩ := hphase
      simp only [Execution.QueueCall.advance] at h
      split at h
      · obtain ⟨-, rfl, rfl⟩ := by simpa using h
        exact ⟨trivial, hnone⟩
      · rename_i profile hload
        have hprofile := hkeeps.getRouteProfile (serve_eq_ok_iff.mp hload).2
        obtain ⟨-, rfl, rfl⟩ := by simpa using h
        exact ⟨⟨task, htask, rfl, .inr ⟨id, profile, hid, hprofile, rfl⟩⟩, hnone⟩
  | waiting snapshot =>
      simp only [Execution.QueueCall.advance] at h
      obtain ⟨-, rfl, rfl⟩ := by simpa using h
      exact ⟨hphase, hnone⟩
  | locked snapshot =>
      simp only [Execution.QueueCall.advance] at h
      split at h
      · split at h
        · obtain ⟨-, rfl, rfl⟩ := by simpa using h
          exact ⟨trivial, hnone⟩
        · obtain ⟨-, rfl, rfl⟩ := by simpa using h
          refine ⟨?_, hnone⟩
          split <;> exact hphase
      · obtain ⟨-, rfl, rfl⟩ := by simpa using h
        exact ⟨hphase, hnone⟩
  | skipping snapshot finished =>
      simp only [Execution.QueueCall.advance] at h
      split at h
      · obtain ⟨-, rfl, rfl⟩ := by simpa using h
        exact ⟨trivial, hnone⟩
      · obtain ⟨-, rfl, rfl⟩ := by simpa using h
        exact ⟨trivial, hnone⟩
  | creating snapshot =>
      simp only [Execution.QueueCall.advance] at h
      split at h
      · obtain ⟨-, rfl, rfl⟩ := by simpa using h
        exact ⟨trivial, hnone⟩
      · obtain ⟨-, rfl, rfl⟩ := by simpa using h
        exact ⟨hphase, hnone⟩
  | created snapshot result =>
      simp only [Execution.QueueCall.advance] at h
      split at h
      · obtain ⟨-, rfl, rfl⟩ := by simpa using h
        refine ⟨trivial, fun job hjob ↦ ?_⟩
        obtain rfl := Option.some.inj hjob
        exact ⟨snapshot, result.id, hphase, rfl⟩
      · obtain ⟨-, rfl, rfl⟩ := by simpa using h
        exact ⟨hphase, hnone⟩
  | overflow snapshot result finished =>
      simp only [Execution.QueueCall.advance] at h
      split at h
      · obtain ⟨-, rfl, rfl⟩ := by simpa using h
        exact ⟨trivial, hnone⟩
      · obtain ⟨-, rfl, rfl⟩ := by simpa using h
        exact ⟨trivial, hnone⟩
  | returned result error => cases h

/-- After the commit the database holds the rows of the import, and so does all
that the running calls have read. -/
structure Committed (document : Import) (stored : Store) (s : State) : Prop where
  importer : s.importer = some (.activate document) ∨ ∃ reply, s.importer = some (.answered reply)
  replaced : ∃ (before : Store) (now : Time), before.replaceConfiguration document.settings
    document.routes document.tasks now = .ok stored
  keeps : Keeps stored s.manager.store
  calls : ∀ c ∈ s.manager.calls, PhaseOf stored c.phase

theorem Committed.congr {document : Import} {stored : Store} {s t : State}
    (hs : Committed document stored s) (hmanager : t.manager = s.manager)
    (himporter : t.importer = s.importer) : Committed document stored t := by
  refine ⟨?_, hs.replaced, ?_, ?_⟩
  · rw [himporter]
    exact hs.importer
  · rw [hmanager]
    exact hs.keeps
  · rw [hmanager]
    exact hs.calls

theorem Committed.enqueue {document : Import} {stored : Store} {s : State}
    (hs : Committed document stored s) (taskID : String) (trigger : TriggerType)
    (scheduledAt : Option Time) :
    ∀ c ∈ (s.enqueue taskID trigger scheduledAt).manager.calls, PhaseOf stored c.phase := by
  intro c hc
  rcases List.mem_append.mp hc with hc | hc
  · exact hs.calls c hc
  · obtain rfl := List.mem_singleton.mp hc
    trivial

theorem Keeps.advanced {stored : Store} {input : Input} {core core' : Core} {index : ℕ}
    {c : Callback} {phase : Phase} {events : List Event} (hkeeps : Keeps stored core.store)
    (h : Advanced input core index c core' phase events) : Keeps stored core'.store := by
  cases h with
  | quiet => exact hkeeps
  | unsaved => exact hkeeps
  | persisted at_ valid loaded new later stored => exact hkeeps.schedule stored
  | queued => exact hkeeps

theorem Committed.managed {document : Import} {stored : Store} {s : State}
    {manager : Execution.State} (hs : Committed document stored s)
    (h : Managed host s.manager manager) :
    Committed document stored { s with manager := manager } := by
  cases h with
  | called at_ advanced hcalls jobs =>
      have hphase := hs.calls _ (List.mem_of_getElem? at_)
      have hsame := called_same (Execution.advance_called advanced)
      refine ⟨hs.importer, hs.replaced, hs.keeps.results hsame, fun c hc ↦ ?_⟩
      change c ∈ manager.calls at hc
      rw [hcalls] at hc
      rcases List.mem_or_eq_of_mem_set hc with hc | rfl
      · exact hs.calls c hc
      · exact (phaseOf_advance hs.keeps hphase advanced).1
  | other same hcalls jobs rows =>
      refine ⟨hs.importer, hs.replaced, hs.keeps.results same, fun c hc ↦ ?_⟩
      change c ∈ manager.calls at hc
      rw [hcalls] at hc
      exact hs.calls c hc

/-- The section after the commit is the last one. -/
theorem Committed.handled {document : Import} {stored : Store} {s : State} {core : Core}
    {current next : Section} (hs : Committed document stored s) (hcore : s.scheduler.WellFormed)
    (hat : s.importer = some current)
    (h : current.advance env calls s.core = some (core, next)) :
    (∃ reply, next = .answered reply) ∧ Keeps stored core.store := by
  rcases hs.importer with hactivate | ⟨reply, hanswered⟩
  · obtain rfl := Option.some.inj (hat.symm.trans hactivate)
    have hcore : s.core.scheduler.WellFormed := hcore
    obtain ⟨-, honly⟩ := reconcile_onlyNext env calls 2 hcore document.tasks
    have hkeeps := hs.keeps.onlyNext honly
    simp only [Section.advance] at h
    split at h
    · obtain ⟨rfl, rfl⟩ := by simpa using h
      exact ⟨⟨_, rfl⟩, hkeeps⟩
    · obtain ⟨rfl, rfl⟩ := by simpa using h
      exact ⟨⟨_, rfl⟩, hkeeps⟩
  · obtain rfl := Option.some.inj (hat.symm.trans hanswered)
    cases h

theorem committed_step {s t : State} {action : Action} (hs : Exclusive s)
    (hcommitted : ∀ document stored, s.imported = some (document, stored) →
      Committed document stored s)
    (h : step env host calls s action = some t) (document : Import) (stored : Store)
    (himported : t.imported = some (document, stored)) : Committed document stored t := by
  cases step_spec h with
  | fired | unlocked | responded => exact (hcommitted document stored himported).congr rfl rfl
  | advanced callbacks advanced =>
      have hold := hcommitted document stored himported
      have hkeeps : Keeps stored s.core.store := hold.keeps
      exact ⟨hold.importer, hold.replaced, hkeeps.advanced advanced, hold.calls⟩
  | queued callbacks scheduledAt free current =>
      have hold := hcommitted document stored himported
      exact ⟨hold.importer, hold.replaced, hold.keeps, hold.enqueue _ _ _⟩
  | ran taskID free =>
      have hold := hcommitted document stored himported
      exact ⟨hold.importer, hold.replaced, hold.keeps, hold.enqueue _ _ _⟩
  | received document' free first =>
      -- the commit comes after the arrival of the import
      have hold := hcommitted document stored himported
      rcases hold.importer with hnext | ⟨reply, hnext⟩
      · rw [first] at hnext
        cases hnext
      · rw [first] at hnext
        cases hnext
  | @handled current next core at_ free advanced =>
      obtain ⟨himports, -⟩ := hs.importing current at_
      have hnext := fun hold : Committed document stored s ↦
        hold.handled hs.wellFormed at_ advanced
      have hspec := advance_imports hs.wellFormed himports advanced
      cases hspec with
      | @committed document' current' store now replaced =>
          obtain ⟨rfl, rfl⟩ := Prod.mk.inj (Option.some.inj himported)
          refine ⟨.inl rfl, ⟨_, _, replaced⟩, .refl _, fun c hc ↦ ?_⟩
          -- no call is running
          obtain ⟨result, error, hphase⟩ :=
            exists_of_returned (hs.idle ⟨document', current', at_⟩ c hc)
          rw [hphase]
          trivial
      | paused wellFormed onlyNext cleared =>
          have hold := hcommitted document stored himported
          obtain ⟨⟨reply, hreply⟩, -⟩ := hnext hold
          cases hreply
      | other wellFormed onlyNext next_imports idle running =>
          have hsame : afterSection core.store s.imported next = s.imported := by
            cases next with
            | activate document' => exact absurd rfl (idle document')
            | load | remove | delete | explain | reschedule | read | pause | replace | restore
            | answered => rfl
          have hold := hcommitted document stored (hsame.symm.trans himported)
          obtain ⟨⟨reply, rfl⟩, hkeeps⟩ := hnext hold
          exact ⟨.inr ⟨reply, rfl⟩, hold.replaced, hkeeps, hold.calls⟩
  | managed allowed moved =>
      exact (hcommitted document stored himported).managed (managed_spec allowed moved)

/-- Only a section of a call sends a job. -/
theorem sent_step {s t : State} {action : Action} (h : step env host calls s action = some t) :
    t.manager.sent = s.manager.sent ∨
      ∃ (c : Execution.QueueCall) (input : Execution.QueueInput)
        (sent : Option Execution.Job) (phase : Execution.QueuePhase), c ∈ s.manager.calls ∧
          c.advance host input s.manager.store s.manager.channel.length =
            some (t.manager.store, sent, phase) ∧
          t.manager.sent = s.manager.sent ++ sent.toList := by
  cases step_spec h with
  | managed allowed moved =>
      cases managed_spec allowed moved with
      | called at_ advanced hcalls jobs =>
          exact .inr ⟨_, _, _, _, List.mem_of_getElem? at_, advanced, jobs⟩
      | other same hcalls jobs rows => exact .inl jobs
  | fired | advanced | queued | unlocked | ran | responded | received | handled => exact .inl rfl

/-- While the import is paused no call of `Queue` goes on and no result is created. -/
theorem paused_step {s t : State} {action : Action} (hs : Exclusive s) (hpaused : s.paused)
    (h : step env host calls s action = some t) :
    t.manager.calls = s.manager.calls ∧
      ∀ id, s.manager.store.result? id = none → t.manager.store.result? id = none := by
  obtain ⟨hfree, hnone⟩ := hs.paused hpaused
  have hidle := hs.idle hpaused
  obtain ⟨document, snapshot, hnext⟩ := hpaused
  have hholds := hs.running hnext rfl
  cases step_spec h with
  | fired | unlocked | responded | received => exact ⟨rfl, fun _ hid ↦ hid⟩
  | @advanced input index c core phase events callbacks advanced =>
      refine ⟨rfl, fun id hid ↦ ?_⟩
      have hresults : core.store.results = s.manager.store.results := by
        cases advanced with
        | quiet => rfl
        | unsaved => rfl
        | persisted at_ valid loaded new later stored =>
            obtain ⟨-, -, -, -, hsame⟩ := Store.updateTaskSchedule_ok stored
            exact hsame.results
        | queued => rfl
      change core.store.result? id = none
      rwa [Store.result?, hresults]
  | queued callbacks scheduledAt free current =>
      rw [Scheduler.isCurrentGenerationLocked_iff, hnone] at current
      cases current
  | ran taskID free =>
      rw [hholds] at free
      cases free
  | @handled current next core at_ free advanced =>
      obtain rfl := Option.some.inj (at_.symm.trans hnext)
      refine ⟨rfl, fun id hid ↦ ?_⟩
      have hresults : core.store.results = s.manager.store.results := by
        cases advance_imports hs.wellFormed rfl advanced with
        | committed replaced =>
            obtain ⟨-, hresults, -⟩ := Store.replaceConfiguration_ok replaced
            exact hresults
        | other wellFormed onlyNext => exact onlyNext.same.results
      change core.store.result? id = none
      rwa [Store.result?, hresults]
  | managed allowed moved =>
      cases managed_spec allowed moved with
      | @called index input c sent phase at_ advanced hcalls jobs =>
          rw [advance_of_returned (hidle c (List.mem_of_getElem? at_))] at advanced
          cases advanced
      | other same hcalls jobs rows => exact ⟨hcalls, rows⟩

/-! ## Isolation -/

/-- The snapshots of a job are rows the import has stored; of the task row the
activations and the time of the update may have changed. -/
structure Imported (document : Import) (stored : Store) (job : Execution.Job) : Prop where
  task : ∃ task ∈ document.tasks, ∃ row last next stamp, stored.getTask task.id = .ok row ∧
    ConfigurationTask.from row = ConfigurationTask.from task ∧
    job.task = Execution.clonedTask (Store.assignSchedule last next stamp row)
  routeProfile : (job.task.routeProfileID = none ∧ job.routeProfile = none) ∨
    ∃ profile ∈ document.routes, ∃ row, job.task.routeProfileID = some profile.id ∧
      stored.getRouteProfile profile.id = .ok row ∧
      ConfigurationRouteProfile.from row = ConfigurationRouteProfile.from profile ∧
      job.routeProfile = some row

theorem imported_of_snapshot {document : Import} {before stored : Store} {now : Time}
    (h : before.replaceConfiguration document.settings document.routes document.tasks now =
      .ok stored) {snapshot : Execution.Snapshot} (hsnapshot : SnapshotOf stored snapshot)
    (resultID : String) : Imported document stored (snapshot.job resultID) := by
  have hreplaced := replaced_of_ok document.routesDistinct document.distinct h
  obtain ⟨task, ⟨row, last, next, stamp, hrow, rfl⟩, htask, hroute⟩ := hsnapshot
  constructor
  · obtain ⟨hfind, hlive⟩ := Store.getTask_eq_ok_iff.mp hrow
    have hlisted := (hreplaced.liveTasks row.id).mp ⟨row, hfind, hlive⟩
    obtain ⟨listed, hmem, hid⟩ := List.mem_map.mp hlisted
    obtain ⟨row', hfind', hsame⟩ := hreplaced.taskRows listed hmem
    rw [hid] at hfind'
    obtain rfl := Option.some.inj (hfind.symm.trans hfind')
    refine ⟨listed, hmem, row, last, next, stamp, ?_, hsame, htask⟩
    rw [hid]
    exact hrow
  · have hsameID : (snapshot.job resultID).task.routeProfileID =
        (Store.assignSchedule last next stamp row).routeProfileID := by
      change snapshot.task.routeProfileID = _
      rw [htask]
      rfl
    rw [hsameID]
    rcases hroute with hroute | ⟨id, profile, hid, hprofile, hsent⟩
    · exact .inl hroute
    · right
      obtain ⟨hfind, hlive⟩ := Store.getRouteProfile_eq_ok_iff.mp hprofile
      have hlisted := (hreplaced.liveRoutes id).mp ⟨profile, hfind, hlive⟩
      obtain ⟨listed, hmem, rfl⟩ := List.mem_map.mp hlisted
      obtain ⟨row', hfind', hsame⟩ := hreplaced.routeRows listed hmem
      obtain rfl := Option.some.inj (hfind.symm.trans hfind')
      exact ⟨listed, hmem, profile, hid, hprofile, hsame, hsent⟩

/-- While an import is paused no call of `Queue` goes on and no result is created,
and each job that is sent after its commit carries the imported task and profile. -/
theorem import_isolated (env : Scheduling.Env) (host : Execution.Env) (calls : Calls)
    {start s : State} {actions : List Action} (hstart : Initial start)
    (hrun : run (step env host calls) start actions = some s) :
    (s.paused → ∀ action t, step env host calls s action = some t →
      t.manager.calls = s.manager.calls ∧
        ∀ id, s.manager.store.result? id = none → t.manager.store.result? id = none) ∧
    (∀ document stored, s.imported = some (document, stored) → ∀ action t job,
      step env host calls s action = some t → t.manager.sent = s.manager.sent ++ [job] →
      Imported document stored job) := by
  obtain ⟨hexclusive, hcommitted⟩ := run_invariant (step env host calls)
    (P := fun s ↦ Exclusive s ∧ ∀ document stored, s.imported = some (document, stored) →
      Committed document stored s)
    (fun _ _ _ hs h ↦ ⟨hs.1.step h, committed_step hs.1 hs.2 h⟩)
    ⟨hstart.exclusive, fun document stored himported ↦ by
      rw [hstart.imported] at himported
      cases himported⟩ hrun
  refine ⟨fun hpaused action t h ↦ paused_step hexclusive hpaused h, ?_⟩
  intro document stored himported action t job h hsent
  have hs := hcommitted document stored himported
  rcases sent_step h with hsame | ⟨c, input, sent, phase, hc, hadvance, hjobs⟩
  · rw [hsame] at hsent
    simp at hsent
  · have hjob : sent = some job := by
      rw [hsent, List.append_cancel_left_eq] at hjobs
      cases sent with
      | none => cases hjobs
      | some other => exact congrArg some (List.cons.inj hjobs).1.symm
    obtain ⟨snapshot, resultID, hsnapshot, rfl⟩ :=
      (phaseOf_advance hs.keeps (hs.calls c hc) hadvance).2 job hjob
    obtain ⟨before, now, hreplaced⟩ := hs.replaced
    exact imported_of_snapshot hreplaced hsnapshot resultID

end Steps

/-! ## A manual run after an import -/

/-- The task as it is, without other data. -/
def oneTaskImport : Import where
  settings := migratedSettings
  routes := []
  tasks := [scheduledTask]
  routesDistinct := by decide
  distinct := by decide
  included := by simp [scheduledTask]

def oneTaskStart : State := ⟨.start oneTask, .new, [], none, none, none, none⟩

/-- The task is imported, and its manual run is about to be sent. -/
def importedRun : List Action :=
  .receive oneTaskImport :: List.replicate 4 .handler ++
    .run "task" :: List.replicate 4 (.manager (.call 0 Execution.callInput))

def oneTaskRun (actions : List Action) : Option State :=
  run (step minutely Execution.offline (servedAt 0)) oneTaskStart actions

theorem initial_oneTask : Initial oneTaskStart := by
  refine ⟨Scheduler.wellFormed_new, fun c hc ↦ ?_, rfl, rfl, rfl, rfl⟩
  have hempty : oneTaskStart.manager.calls = [] := rfl
  rw [hempty] at hc
  cases hc

theorem import_isolated_oneTask :
    ∃ s t document stored job, oneTaskRun importedRun = some s ∧
      s.imported = some (document, stored) ∧
      step minutely Execution.offline (servedAt 0) s (.manager (.call 0 Execution.callInput)) =
        some t ∧
      t.manager.sent = s.manager.sent ++ [job] ∧ Imported document stored job := by
  obtain ⟨s, t, document, stored, job, hs, himported, ht, hsent⟩ : ∃ s t document stored job,
      oneTaskRun importedRun = some s ∧ s.imported = some (document, stored) ∧
        step minutely Execution.offline (servedAt 0) s
          (.manager (.call 0 Execution.callInput)) = some t ∧
        t.manager.sent = s.manager.sent ++ [job] :=
    ⟨_, _, _, _, _, rfl, rfl, rfl, rfl⟩
  refine ⟨s, t, document, stored, job, hs, himported, ht, hsent, ?_⟩
  exact (import_isolated minutely Execution.offline (servedAt 0) initial_oneTask hs).2 document
    stored himported _ t job ht hsent

/-- Rescheduling the imported task stores its next activation, and the job carries
it: its task is not the row the commit has left. -/
theorem imported_row_changes :
    ¬ ∀ (env : Scheduling.Env) (host : Execution.Env) (calls : Calls) (start s : State)
        (actions : List Action), Initial start →
      run (step env host calls) start actions = some s →
      (s.paused → ∀ action t, step env host calls s action = some t →
        t.manager.calls = s.manager.calls ∧
          ∀ id, s.manager.store.result? id = none → t.manager.store.result? id = none) ∧
      (∀ document stored, s.imported = some (document, stored) → ∀ action t job,
        step env host calls s action = some t → t.manager.sent = s.manager.sent ++ [job] →
        (∃ task ∈ document.tasks, ∃ row, stored.getTask task.id = .ok row ∧
          job.task = Execution.clonedTask row) ∧
        ((job.task.routeProfileID = none ∧ job.routeProfile = none) ∨
          ∃ profile ∈ document.routes, ∃ row, job.task.routeProfileID = some profile.id ∧
            stored.getRouteProfile profile.id = .ok row ∧ job.routeProfile = some row)) := by
  intro hclaim
  obtain ⟨s, t, stored, job, row, hs, himported, ht, hsent, hrow, hstored, hjob⟩ :
      ∃ s t stored job row, oneTaskRun importedRun = some s ∧
        s.imported = some (oneTaskImport, stored) ∧
        step minutely Execution.offline (servedAt 0) s
          (.manager (.call 0 Execution.callInput)) = some t ∧
        t.manager.sent = s.manager.sent ++ [job] ∧ stored.getTask "task" = .ok row ∧
        row.nextScheduledAt.isSome = false ∧ job.task.nextScheduledAt.isSome = true :=
    ⟨_, _, _, _, _, rfl, rfl, rfl, rfl, rfl, rfl, rfl⟩
  obtain ⟨⟨task, htask, row', hrow', hsame⟩, -⟩ := (hclaim minutely Execution.offline (servedAt 0)
    oneTaskStart s importedRun initial_oneTask hs).2 oneTaskImport stored himported _ t job ht hsent
  obtain rfl := List.mem_singleton.mp htask
  obtain rfl := Except.ok.inj (hrow.symm.trans hrow')
  rw [hsame] at hjob
  have hkept : row.nextScheduledAt.isSome = true := hjob
  rw [hstored] at hkept
  cases hkept

end MultiSpeed.Api.Isolation
