import MultiSpeed.Api.Handlers

/-!
# Handlers in sections

`deleteTask` and `importConfiguration` hold `configurationMu` from their first
store call to their answer, and nothing else: between two of their calls the
callbacks of the scheduler and the workers go on.  A section is one call into the
store or into the scheduler.
-/

namespace MultiSpeed.Api

open Database Scheduling

/-- The call a handler makes next. -/
inductive Section where
  /-- `GetTask` of `deleteTask` -/
  | load (id : String)
  | remove (id : String) (existing : Task)
  | delete (id : String) (existing : Task)
  /-- `DeleteTask` asks why it has affected no row. -/
  | explain (id : String) (existing : Task)
  | reschedule (existing : Task) (used : ℕ) (cause : StoreError)
  /-- `Configuration` of `importConfiguration` -/
  | read (document : Import)
  /-- `Reconcile` without tasks -/
  | pause (document : Import) (current : ConfigurationSnapshot)
  | replace (document : Import) (current : ConfigurationSnapshot)
  /-- `Reconcile` with the tasks of before -/
  | restore (current : ConfigurationSnapshot) (cause : StoreError)
  /-- `Reconcile` with the imported tasks -/
  | activate (document : Import)
  | answered (reply : Reply)

/-- Where the handler of a request begins. -/
def Section.first : Request → Option Section
  | .delete id => some (.load id)
  | .importConfiguration (some document) => some (.read document)
  | _ => none

variable (env : Scheduling.Env) (calls : Calls)

/-- The next section: the core it leaves and the call that follows. -/
def Section.advance (core : Core) : Section → Option (Core × Section)
  | .load id =>
      match (calls 0).serve (core.store.getTask id) with
      | .error e => some (core, .answered (.store e))
      | .ok existing => some (core, .remove id existing)
  | .remove id existing => some (core.remove id, .delete id existing)
  | .delete id existing =>
      match (calls 1).serve (core.store.markTaskDeleted id (calls 1).stamp) with
      | .ok store => some ({ core with store := store }, .answered .done)
      | .error .notFound => some (core, .explain id existing)
      | .error e => some (core, .reschedule existing 2 e)
  | .explain id existing =>
      match (calls 2).serve (.ok (core.store.deleteTaskReason id)) with
      | .ok reason => some (core, .reschedule existing 3 reason)
      | .error e => some (core, .reschedule existing 3 e)
  | .reschedule existing used cause =>
      some ((rescheduleLocked env calls used core existing.id).core, .answered (.store cause))
  | .read document =>
      match (calls 0).serve core.store.configuration with
      | .error e => some (core, .answered (.store e))
      | .ok current => some (core, .pause document current)
  | .pause document current =>
      some ((reconcile env calls 1 core []).core, .replace document current)
  | .replace document current =>
      match (calls 1).serve (core.store.replaceConfiguration document.settings
          document.routes document.tasks (calls 1).stamp) with
      | .error e => some (core, .restore current e)
      | .ok store => some ({ core with store := store }, .activate document)
  | .restore current cause =>
      some ((reconcile env calls 2 core current.tasks).core,
        .answered (if cause = .active then .importActive else .store cause))
  | .activate document =>
      let out := reconcile env calls 2 core document.tasks
      match out.error with
      | none => some (out.core, .answered .done)
      | some e => some (out.core, .answered (.importFailed e))
  | .answered _ => none

/-- A number of sections with nothing in between. -/
def Section.sequence : ℕ → Core × Section → Core × Section
  | 0, s => s
  | n + 1, (core, next) =>
      match next.advance env calls core with
      | none => (core, next)
      | some s => Section.sequence n s

theorem sequence_deleteTask (core : Core) (id : String) :
    Section.sequence env calls 5 (core, .load id) =
      ((deleteTask env calls core id).1, .answered (deleteTask env calls core id).2) := by
  cases hload : (calls 0).serve (core.store.getTask id) with
  | error e => simp [Section.sequence, Section.advance, deleteTask, hload]
  | ok existing =>
      cases hmark : (calls 1).serve ((core.remove id).store.markTaskDeleted id (calls 1).stamp) with
      | ok store => simp [Section.sequence, Section.advance, deleteTask, deleteCall, hload, hmark]
      | error e =>
          cases hreason : (calls 2).serve (.ok ((core.remove id).store.deleteTaskReason id)) <;>
            cases e <;>
              simp [Section.sequence, Section.advance, deleteTask, deleteCall, hload, hmark, hreason]

theorem sequence_importConfiguration (core : Core) (document : Import) :
    Section.sequence env calls 5 (core, .read document) =
      ((importConfiguration env calls core (some document)).1,
        .answered (importConfiguration env calls core (some document)).2) := by
  cases hread : (calls 0).serve core.store.configuration with
  | error e => simp [Section.sequence, Section.advance, importConfiguration, hread]
  | ok current =>
      cases hreplace : (calls 1).serve ((reconcile env calls 1 core []).core.store.replaceConfiguration
          document.settings document.routes document.tasks (calls 1).stamp) with
      | error e => simp [Section.sequence, Section.advance, importConfiguration, hread, hreplace]
      | ok store =>
          cases hout : (reconcile env calls 2
              { (reconcile env calls 1 core []).core with store := store } document.tasks).error <;>
            simp [Section.sequence, Section.advance, importConfiguration, hread, hreplace, hout]

/-- The sections of a handler with nothing in between are the handler. -/
theorem sequence_handle (core : Core) {request : Request} {first : Section}
    (h : Section.first request = some first) :
    Section.sequence env calls 5 (core, first) =
      ((handle env calls core request).1, .answered (handle env calls core request).2) := by
  cases request with
  | delete id =>
      obtain rfl := Option.some.inj h
      exact sequence_deleteTask env calls core id
  | importConfiguration input =>
      cases input with
      | none => cases h
      | some document =>
          obtain rfl := Option.some.inj h
          exact sequence_importConfiguration env calls core document
  | create | update | duplicate => cases h

end MultiSpeed.Api
