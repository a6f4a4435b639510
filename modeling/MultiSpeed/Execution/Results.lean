import MultiSpeed.Execution.Lifecycle

/-!
# What every run of the manager does to the results

The status of a result follows its lifecycle, a closed result has an end, and an
active result keeps its row and its task.
-/

namespace MultiSpeed.Execution

open Database Transition

/-! ## A run of one task -/

/-- Libraries that know no addresses. -/
def offline : Env := ⟨⟨fun _ ↦ none, fun _ ↦ ""⟩, "1.0.0", fun name ↦ "\"" ++ name ++ "\""⟩

def validRoute : RouteValidation :=
  ⟨true, "eth0", "192.0.2.10", "", "", "1.1.1.1", "", true, 5, 0, []⟩

def measured : ProviderResult where
  downloadBitsPerSecond := some 1000
  uploadBitsPerSecond := some 500
  latencyMilliseconds := some (.finite 10)
  jitterMilliseconds := none
  packetLossPercent := none
  downloadBytes := none
  uploadBytes := none
  publicIP := ""
  server := ⟨"", "", "", "", "", ""⟩
  resultURL := ""
  cloudflareColo := ""
  durationMilliseconds := 0
  exitCode := none
  rawResponse := []
  providerVersion := ""
  tlsVerificationDisabled := false

/-- A section of a call; its row gets the identity `run`. -/
def callInput : QueueInput := ⟨true, 0, "run"⟩

/-- A section of a worker whose run succeeds. -/
def workInput (served : Bool) : WorkerInput where
  served := served
  now := 0
  cancelled := false
  validation := validRoute
  available := true
  availabilityMessage := []
  value := measured
  runError := none
  contextError := none
  choice := 0

/-- A run is queued and its worker takes it. -/
def takenRun : List Action :=
  .queue "task" .manual none :: List.replicate 5 (.call 0 callInput) ++ [.receive 0]

/-- The worker runs it to the end. -/
def succeededRun : List Action := takenRun ++ List.replicate 9 (.work 0 (workInput true))

def oneTaskRun (actions : List Action) : State :=
  (Transition.run (step offline) (.start oneTask) actions).getD (.start oneTask)

theorem rowsSound_oneTask : RowsSound oneTask := by
  have hempty : ∀ k, oneTask.result? k = none := fun _ ↦ rfl
  refine ⟨fun k row hrow ↦ ?_, fun k row hrow ↦ ?_⟩
  · rw [hempty] at hrow
    cases hrow
  · rw [hempty] at hrow
    cases hrow

theorem run_oneTaskRun {actions : List Action}
    (h : (Transition.run (step offline) (.start oneTask) actions).isSome = true) :
    Transition.run (step offline) (.start oneTask) actions = some (oneTaskRun actions) := by
  obtain ⟨s, hs⟩ := Option.isSome_iff_exists.mp h
  rw [oneTaskRun, hs]
  rfl

theorem reachable_oneTaskRun {actions : List Action}
    (h : (Transition.run (step offline) (.start oneTask) actions).isSome = true) :
    Reachable (step offline) Initial (oneTaskRun actions) :=
  ⟨.start oneTask, actions, ⟨oneTask, rowsSound_oneTask, rfl⟩, run_oneTaskRun h⟩

/-- The row of the run. -/
def runRow (actions : List Action) : Option Result := (oneTaskRun actions).store.result? "run"

example : (runRow succeededRun).map Result.status = some .succeeded := by decide +kernel

/-! ## One step, read on the rows -/

theorem row_of_result {s : State} {k : String} {row : Result}
    (h : s.store.result? k = some row) : s.ledger.row k = some (entry row) := by
  change (s.store.result? k).map entry = _
  rw [h]
  rfl

theorem row_of_none {s : State} {k : String} (h : s.store.result? k = none) :
    s.ledger.row k = none := by
  change (s.store.result? k).map entry = _
  rw [h]
  rfl

theorem row_of_job {s : State} (hsound : Ledger.Sound lifecycle s.ledger) {id : String}
    {status : ResultStatus} (h : (id, status) ∈ s.ledger.jobs) :
    ∃ row, s.store.result? id = some row ∧ row.status = status ∧ status.active = true := by
  obtain ⟨hactive, r, hr, hstatus⟩ := hsound.known _ _ h
  obtain ⟨row, hrow, rfl⟩ := Option.map_eq_some_iff.mp hr
  exact ⟨row, hrow, hstatus, hactive⟩

/-- What a step other than a restart does to one row. -/
theorem Refined.change {s t : State} {action : Action}
    (hsound : Ledger.Sound lifecycle s.ledger) (h : Refined s action t)
    (hrun : ∀ now, action ≠ .restart now) (k : String) :
    Ledger.Change lifecycle (s.ledger.row k) (t.ledger.row k) := by
  cases h with
  | stepped step => exact step.change hsound k
  | dropped dropped lost =>
      rw [dropped.rows]
      exact .same _
  | restarted at_ restarted => exact absurd at_ (hrun _)

/-- What a restart does to one row. -/
theorem restart_row {env : Env} {s t : State} {now : Time}
    (h : step env s (.restart now) = some t) (k : String) :
    t.store.result? k = (s.store.result? k).map fun row ↦
      if row.status.active then Store.assignInterrupted now row else row := by
  have hstepped := step_spec h
  cases hstepped with
  | refused statement => cases statement
  | restarted recovered => exact (Store.recoverInterruptedResults_ok recovered).1 k

/-- The status of a row that survives a step. -/
theorem status_step {env : Env} {s t : State} {action : Action}
    (hsound : Ledger.Sound lifecycle s.ledger) (h : step env s action = some t) {k : String}
    {before after : Result} (hbefore : s.store.result? k = some before)
    (hafter : t.store.result? k = some after) :
    after.status = before.status ∨ before.status.moves after.status = true ∨
      (∃ now, action = .restart now) ∧ before.status.active = true ∧
        after.status = .cancelled := by
  by_cases hrestart : ∃ now, action = .restart now
  · obtain ⟨now, rfl⟩ := hrestart
    have hrow := restart_row h k
    rw [hbefore, hafter, Option.map_some] at hrow
    obtain rfl := Option.some.inj hrow
    cases hactive : before.status.active with
    | true => exact .inr (.inr ⟨⟨now, rfl⟩, rfl, rfl⟩)
    | false => exact .inl rfl
  · have hrun : ∀ now, action ≠ .restart now := fun now heq ↦ hrestart ⟨now, heq⟩
    have hchange := (step_refines hsound h).change hsound hrun k
    rw [row_of_result hbefore, row_of_result hafter] at hchange
    rcases hchange.status.2 with hsame | hmoves
    · exact .inl hsame
    · exact .inr (.inl hmoves)

theorem terminal_moves {before after : ResultStatus} (h : before.terminal = true) :
    before.moves after = false := by
  cases before <;> first | rfl | cases h

/-! ## The lifecycle of every result -/

/-- In every state every closed result has an end; every step creates results
queued or skipped, moves a status along the lifecycle or, in recovery only,
cancels an active one, and keeps the status of a closed result. -/
theorem results_follow_lifecycle {env : Env} {s : State}
    (hs : Reachable (step env) Initial s) :
    (∀ k row, s.store.result? k = some row → row.status.terminal = true →
      row.finishedAt.isSome = true) ∧
    ∀ action t, step env s action = some t →
      (∀ k row, s.store.result? k = none → t.store.result? k = some row →
        row.status = .queued ∨ row.status = .skipped) ∧
      ∀ k before after, s.store.result? k = some before → t.store.result? k = some after →
        (after.status = before.status ∨ before.status.moves after.status = true ∨
          (∃ now, action = .restart now) ∧ before.status.active = true ∧
            after.status = .cancelled) ∧
        (before.status.terminal = true → after.status = before.status) := by
  have hsound := reachable_sound hs
  refine ⟨(rows_of_sound hsound).finished, fun action t hstep ↦ ⟨?_, ?_⟩⟩
  · intro k row hnone hrow
    have hrun : ∀ now, action ≠ .restart now := by
      rintro now rfl
      rw [restart_row hstep k, hnone] at hrow
      cases hrow
    have hchange := (step_refines hsound hstep).change hsound hrun k
    rw [row_of_none hnone, row_of_result hrow] at hchange
    exact hchange.opens
  · intro k before after hbefore hafter
    have hstatus := status_step hsound hstep hbefore hafter
    refine ⟨hstatus, fun hterminal ↦ ?_⟩
    rcases hstatus with hsame | hmoves | ⟨-, hactive, -⟩
    · exact hsame
    · rw [terminal_moves hterminal] at hmoves
      cases hmoves
    · rw [ResultStatus.active_eq_false_iff.mpr hterminal] at hactive
      cases hactive

theorem results_follow_lifecycle_succeeded :
    ((runRow succeededRun).get (by decide +kernel)).finishedAt.isSome = true :=
  (results_follow_lifecycle (reachable_oneTaskRun (by decide +kernel))).1 "run" _
    (Option.some_get _).symm (by decide +kernel)

/-! ## Active results -/

/-- No statement of the other components touches an active result. -/
theorem external_keeps_active {statement : Statement} {store store' : Store}
    (hexternal : external statement = true) (h : statement.execute store = .ok store')
    {k : String} {row : Result} (hrow : store.result? k = some row)
    (hactive : row.status.active = true) : store'.result? k = some row := by
  have hdeletes : Store.DeletesTerminal store store' → store'.result? k = some row := by
    intro hdeletes
    cases hafter : store'.result? k with
    | none =>
        have hended := ResultStatus.active_eq_false_iff.mpr
          (hdeletes.terminal k row hrow hafter)
        rw [hactive] at hended
        cases hended
    | some row' =>
        rw [hdeletes.kept k row' hafter] at hrow
        exact hrow
  cases statement with
  | createTask task uuid now =>
      obtain ⟨⟨created, written⟩, hcreate, rfl⟩ := Database.Except.map_ok h
      obtain ⟨-, -, -, hsame⟩ := Store.createTask_ok hcreate
      rw [hsame.result?, hrow]
  | updateTask task now =>
      obtain ⟨-, -, -, -, hsame⟩ := Store.updateTask_ok h
      rw [hsame.result?, hrow]
  | deleteTask id now =>
      obtain ⟨-, -, -, -, -, hsame⟩ :=
        Store.markTaskDeleted_ok (Store.deleteTask_eq_ok_iff.mp h)
      rw [hsame.result?, hrow]
  | createResult result uuid now => cases hexternal
  | updateResult result => cases hexternal
  | deleteResult id => exact hdeletes (Store.deleteResult_ok h)
  | deleteResults ids => exact hdeletes (Store.deleteResults_ok h)
  | deleteResultsBefore cutoff batchSize => exact hdeletes (Store.deleteResultsBefore_ok h)
  | replaceConfiguration settings routes tasks now =>
      obtain ⟨-, hresults, -⟩ := Store.replaceConfiguration_ok h
      rw [Store.result?, hresults]
      exact hrow

/-- In every state every active result belongs to a live task; a statement of
another component leaves it as it is, and any step keeps its row and its task and
can end it only by a change to a terminal status. -/
theorem active_results_kept {env : Env} {s : State} (hs : Reachable (step env) Initial s)
    {k : String} {row : Result} (hrow : s.store.result? k = some row)
    (hactive : row.status.active = true) :
    (∃ task, s.store.task? row.taskID = some task ∧ task.live = true) ∧
    (∀ statement t, step env s (.statement statement) = some t →
      t.store.result? k = some row) ∧
    ∀ action t, step env s action = some t → ∃ row', t.store.result? k = some row' ∧
      row'.taskID = row.taskID ∧
      (row'.status.active = true ∨ row'.status.terminal = true ∧
        (row.status.moves row'.status = true ∨
          (∃ now, action = .restart now) ∧ row'.status = .cancelled)) := by
  have hsound := reachable_sound hs
  refine ⟨(rows_of_sound hsound).live k row hrow hactive, ?_, ?_⟩
  · intro statement t hstep
    have hstepped := step_spec hstep
    cases hstepped with
    | refused statement => exact hrow
    | executed allowed executed => exact external_keeps_active allowed executed hrow hactive
  · intro action t hstep
    -- the row is still there
    obtain ⟨row', hrow', htask⟩ : ∃ row', t.store.result? k = some row' ∧
        row'.taskID = row.taskID := by
      by_cases hrestart : ∃ now, action = .restart now
      · obtain ⟨now, rfl⟩ := hrestart
        rw [restart_row hstep k, hrow, Option.map_some]
        refine ⟨_, rfl, ?_⟩
        split <;> rfl
      · have hrun : ∀ now, action ≠ .restart now := fun now heq ↦ hrestart ⟨now, heq⟩
        have hchange := (step_refines hsound hstep).change hsound hrun k
        rw [row_of_result hrow] at hchange
        cases hafter : t.store.result? k with
        | none =>
            rw [row_of_none hafter] at hchange
            have hended : row.status.active = false := hchange.ended
            rw [hactive] at hended
            cases hended
        | some row' =>
            rw [row_of_result hafter] at hchange
            exact ⟨row', rfl, hchange.status.1⟩
    refine ⟨row', hrow', htask, ?_⟩
    have hstatus := status_step hsound hstep hrow hrow'
    cases hactive' : row'.status.active with
    | true => exact .inl rfl
    | false =>
        refine .inr ⟨ResultStatus.active_eq_false_iff.mp hactive', ?_⟩
        rcases hstatus with hsame | hmoves | ⟨hrestart, -, hcancelled⟩
        · rw [hsame, hactive] at hactive'
          cases hactive'
        · exact .inl hmoves
        · exact .inr ⟨hrestart, hcancelled⟩

theorem active_results_kept_queued :
    ∃ task, (oneTaskRun takenRun).store.task?
        ((runRow takenRun).get (by decide +kernel)).taskID = some task ∧ task.live = true :=
  (active_results_kept (reachable_oneTaskRun (by decide +kernel)) (Option.some_get _).symm
    (by decide +kernel)).1

end MultiSpeed.Execution
