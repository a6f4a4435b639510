import MultiSpeed.Execution.Jobs

/-!
# Prevented overlap

While the flag of a task stays set, a call creates an active result of the task
only if it found none under `queueMu`.  The mutex keeps other calls out until that
row is there, and nothing else makes a result active.
-/

namespace MultiSpeed.Execution

open Database Transition

/-! ## Where active results come from -/

/-- No statement of the other components creates a result. -/
theorem external_keeps_or_deletes {statement : Statement} {store store' : Store}
    (hexternal : external statement = true) (h : statement.execute store = .ok store')
    {k : String} {row : Result} (hrow : store'.result? k = some row) :
    store.result? k = some row := by
  cases statement with
  | createTask task uuid now =>
      obtain ⟨⟨created, written⟩, hcreate, rfl⟩ := Database.Except.map_ok h
      obtain ⟨-, -, -, hsame⟩ := Store.createTask_ok hcreate
      rw [← hsame.result?, hrow]
  | updateTask task now =>
      obtain ⟨-, -, -, -, hsame⟩ := Store.updateTask_ok h
      rw [← hsame.result?, hrow]
  | deleteTask id now =>
      obtain ⟨-, -, -, -, -, hsame⟩ :=
        Store.markTaskDeleted_ok (Store.deleteTask_eq_ok_iff.mp h)
      rw [← hsame.result?, hrow]
  | createResult result uuid now => cases hexternal
  | updateResult result => cases hexternal
  | deleteResult id => exact (Store.deleteResult_ok h).kept k row hrow
  | deleteResults ids => exact (Store.deleteResults_ok h).kept k row hrow
  | deleteResultsBefore cutoff batchSize =>
      exact (Store.deleteResultsBefore_ok h).kept k row hrow
  | replaceConfiguration settings routes tasks now =>
      obtain ⟨-, hresults, -⟩ := Store.replaceConfiguration_ok h
      rw [Store.result?, hresults] at hrow
      exact hrow

theorem updateResult_none {store store' : Store} {result : Result}
    (h : store.updateResult result = .ok store') {k : String} (hnone : store.result? k = none) :
    store'.result? k = none := by
  obtain ⟨row, hrow, hrows, -⟩ := Store.updateResult_ok h
  rw [hrows k, if_neg, hnone]
  rintro rfl
  rw [hrow] at hnone
  cases hnone

theorem worked_none {input : WorkerInput} {store store' : Store} {phase phase' : Phase}
    (h : Worked input store phase store' phase') {k : String} (hnone : store.result? k = none) :
    store'.result? k = none := by
  cases h with
  | kept job => exact hnone
  | moved held moves active written held' => exact updateResult_none written hnone
  | finished at_ written => exact updateResult_none written hnone
  | dropped held lost => exact hnone

/-- A call creates an active result only after its check. -/
theorem advance_opens {env : Env} {input : QueueInput} {store store' : Store} {length : ℕ}
    {c : QueueCall} {sent : Option Job} {phase : QueuePhase}
    (h : c.advance env input store length = some (store', sent, phase)) {k : String}
    {row : Result} (hnone : store.result? k = none) (hrow : store'.result? k = some row)
    (hactive : row.status.active = true) :
    ∃ snapshot created, c.phase = .creating snapshot ∧ phase = .created snapshot created ∧
      row.taskID = snapshot.task.id ∧
      ∀ k', k' ≠ k → store'.result? k' = store.result? k' := by
  obtain ⟨taskID, trigger, scheduledAt, current⟩ := c
  have hsame : store' ≠ store := by
    rintro rfl
    rw [hnone] at hrow
    cases hrow
  cases current with
  | started | loaded | waiting | locked | created =>
      simp only [QueueCall.advance] at h
      repeat' split at h
      all_goals
        obtain ⟨rfl, rfl, rfl⟩ := by simpa using h
        exact absurd rfl hsame
  | skipping snapshot finished =>
      simp only [QueueCall.advance] at h
      split at h
      · obtain ⟨rfl, rfl, rfl⟩ := by simpa using h
        exact absurd rfl hsame
      · rename_i created written hcreated
        obtain ⟨rfl, rfl, rfl⟩ := by simpa using h
        obtain ⟨rfl, -, -, hrows, -⟩ := Store.createResult_ok (serve_eq_ok_iff.mp hcreated).2
        rw [hrows k] at hrow
        split at hrow
        · obtain rfl := Option.some.inj hrow
          cases hactive
        · rw [hnone] at hrow
          cases hrow
  | creating snapshot =>
      simp only [QueueCall.advance] at h
      split at h
      · obtain ⟨rfl, rfl, rfl⟩ := by simpa using h
        exact absurd rfl hsame
      · rename_i created written hcreated
        obtain ⟨rfl, rfl, rfl⟩ := by simpa using h
        obtain ⟨hnew, -, -, hrows, -⟩ := Store.createResult_ok (serve_eq_ok_iff.mp hcreated).2
        refine ⟨snapshot, created, rfl, rfl, ?_⟩
        rw [hrows k] at hrow
        split at hrow
        · rename_i hk
          obtain rfl := Option.some.inj hrow
          refine ⟨by rw [hnew]; rfl, fun k' hne ↦ ?_⟩
          rw [hrows k', if_neg]
          rintro rfl
          exact hne hk
        · rw [hnone] at hrow
          cases hrow
  | overflow snapshot result finished =>
      simp only [QueueCall.advance] at h
      split at h
      · obtain ⟨rfl, rfl, rfl⟩ := by simpa using h
        exact absurd rfl hsame
      · rename_i written hwritten
        obtain ⟨rfl, rfl, rfl⟩ := by simpa using h
        rw [updateResult_none (serve_eq_ok_iff.mp hwritten).2 hnone] at hrow
        cases hrow
  | returned result error => cases h

/-- A result that is active after a step was active before it, for the same task,
or a call has just created it. -/
theorem active_before {env : Env} {s t : State} {action : Action}
    (hsound : Ledger.Sound lifecycle s.ledger) (h : step env s action = some t) {k : String}
    {row : Result} (hrow : t.store.result? k = some row) (hactive : row.status.active = true) :
    (∃ old, s.store.result? k = some old ∧ old.status.active = true ∧
      old.taskID = row.taskID) ∨
    ∃ index input c snapshot created, action = .call index input ∧
      s.calls[index]? = some c ∧ c.phase = .creating snapshot ∧
      t.calls[index]? = some { c with phase := .created snapshot created } ∧
      row.taskID = snapshot.task.id ∧
      ∀ k', k' ≠ k → t.store.result? k' = s.store.result? k' := by
  cases hbefore : s.store.result? k with
  | some old =>
      refine .inl ⟨old, rfl, ?_⟩
      by_cases hrestart : ∃ now, action = .restart now
      · obtain ⟨now, rfl⟩ := hrestart
        rw [restart_row h k, hbefore, Option.map_some] at hrow
        obtain rfl := Option.some.inj hrow
        split at hactive
        · cases hactive
        · rename_i hended
          exact absurd hactive hended
      · have hrun : ∀ now, action ≠ .restart now := fun now heq ↦ hrestart ⟨now, heq⟩
        have hchange := (step_refines hsound h).change hsound hrun k
        rw [row_of_result hbefore, row_of_result hrow] at hchange
        obtain ⟨howner, hstatus⟩ := hchange.status
        refine ⟨?_, howner.symm⟩
        rcases hstatus with hsame | hmoves
        · have hsame : row.status = old.status := hsame
          rw [← hsame, hactive]
        · -- nothing moves on from a terminal status
          by_contra hended
          rw [Bool.not_eq_true] at hended
          have hstays : old.status.moves row.status = false :=
            terminal_moves (ResultStatus.active_eq_false_iff.mp hended)
          have hmoves : old.status.moves row.status = true := hmoves
          rw [hstays] at hmoves
          cases hmoves
  | none =>
      right
      cases step_spec h with
      | refused statement | queued | received =>
          rw [hbefore] at hrow
          cases hrow
      | @called index input c store sent phase at_ free advanced =>
          obtain ⟨snapshot, created, hcreating, rfl, htask, hothers⟩ :=
            advance_opens advanced hbefore hrow hactive
          have hset := List.getElem?_set_self (List.getElem?_eq_some_iff.mp at_).1
            (a := { c with phase := .created snapshot created })
          exact ⟨index, input, c, snapshot, created, rfl, at_, hcreating, hset, htask, hothers⟩
      | worked at_ advanced =>
          rw [worked_none (advance_worked advanced) hbefore] at hrow
          cases hrow
      | executed allowed executed =>
          rw [external_keeps_or_deletes allowed executed hrow] at hbefore
          cases hbefore
      | scheduled executed =>
          obtain ⟨-, -, -, -, hsame⟩ := Store.updateTaskSchedule_ok executed
          rw [hsame.result?, hbefore] at hrow
          cases hrow
      | configured executed =>
          obtain ⟨-, -, hresults, -⟩ := commit_eq_ok_iff.mp executed
          rw [Store.result?, hresults] at hrow
          rw [Store.result?, hrow] at hbefore
          cases hbefore
      | restarted recovered =>
          rw [restart_row h k, hbefore] at hrow
          cases hrow

/-! ## What a call knows -/

/-- The task a call has read. -/
def QueuePhase.task? : QueuePhase → Option Task
  | .loaded task _ => some task
  | .waiting snapshot | .locked snapshot | .skipping snapshot _ | .creating snapshot
  | .created snapshot _ | .overflow snapshot _ _ => some snapshot.task
  | .started | .returned _ _ => none

/-- The flag of the task is set. -/
def Prevents (id : String) (store : Store) : Prop :=
  ∀ task, store.task? id = some task → task.preventOverlap = true

instance (id : String) (store : Store) : Decidable (Prevents id store) :=
  match h : store.task? id with
  | none => isTrue fun task htask ↦ by rw [h] at htask; cases htask
  | some task =>
      decidable_of_iff (task.preventOverlap = true)
        ⟨fun hset row hrow ↦ by rw [h] at hrow; cases hrow; exact hset, fun hset ↦ hset task h⟩

/-- The call knows the flag of the task as set. -/
def QueuePhase.Knows (id : String) (phase : QueuePhase) : Prop :=
  ∀ task, phase.task? = some task → task.id = id → task.preventOverlap = true

theorem QueuePhase.Knows.of_eq {id : String} {phase phase' : QueuePhase} (h : phase.Knows id)
    (heq : phase'.task? = phase.task? ∨ phase'.task? = none) : phase'.Knows id := by
  intro task htask hid
  rcases heq with heq | heq
  · exact h task (heq ▸ htask) hid
  · rw [heq] at htask
    cases htask

theorem advance_knows {env : Env} {input : QueueInput} {store store' : Store} {length : ℕ}
    {c : QueueCall} {sent : Option Job} {phase : QueuePhase} {id : String}
    (hset : Prevents id store) (hknows : c.phase.Knows id)
    (h : c.advance env input store length = some (store', sent, phase)) : phase.Knows id := by
  obtain ⟨taskID, trigger, scheduledAt, current⟩ := c
  cases current with
  | started =>
      simp only [QueueCall.advance] at h
      split at h
      · obtain ⟨rfl, rfl, rfl⟩ := by simpa using h
        intro task htask
        cases htask
      · rename_i task hserved
        have hrow := (Store.getTask_eq_ok_iff.mp (serve_eq_ok_iff.mp hserved).2).1
        have hread : task.id = id → task.preventOverlap = true := by
          rintro rfl
          rw [← Store.task?_id hrow] at hrow
          exact hset task hrow
        split at h
        · obtain ⟨rfl, rfl, rfl⟩ := by simpa using h
          intro task htask
          cases htask
        · split at h
          all_goals
            obtain ⟨rfl, rfl, rfl⟩ := by simpa using h
            rintro _ ⟨⟩ hid
            exact hread hid
  | loaded task profile =>
      simp only [QueueCall.advance] at h
      split at h
      · obtain ⟨rfl, rfl, rfl⟩ := by simpa using h
        exact hknows.of_eq (.inr rfl)
      · obtain ⟨rfl, rfl, rfl⟩ := by simpa using h
        rintro _ ⟨⟩ hid
        exact hknows task rfl hid
  | waiting | skipping | creating | created | overflow =>
      simp only [QueueCall.advance] at h
      repeat' split at h
      all_goals
        obtain ⟨rfl, rfl, rfl⟩ := by simpa using h
        first
        | exact hknows.of_eq (.inl rfl)
        | exact hknows.of_eq (.inr rfl)
  | locked snapshot =>
      simp only [QueueCall.advance] at h
      split at h
      · split at h
        · obtain ⟨rfl, rfl, rfl⟩ := by simpa using h
          exact hknows.of_eq (.inr rfl)
        · obtain ⟨rfl, rfl, rfl⟩ := by simpa using h
          refine hknows.of_eq (.inl ?_)
          split <;> rfl
      · obtain ⟨rfl, rfl, rfl⟩ := by simpa using h
        exact hknows.of_eq (.inl rfl)
  | returned result error => cases h

theorem advance_holdsLock {env : Env} {input : QueueInput} {store store' : Store} {length : ℕ}
    {c : QueueCall} {sent : Option Job} {phase : QueuePhase}
    (h : c.advance env input store length = some (store', sent, phase))
    (hholds : phase.holdsLock = true) :
    c.phase.holdsLock = true ∨ ∃ snapshot, c.phase = .waiting snapshot := by
  obtain ⟨taskID, trigger, scheduledAt, current⟩ := c
  cases current with
  | started | loaded =>
      simp only [QueueCall.advance] at h
      repeat' split at h
      all_goals
        obtain ⟨rfl, rfl, rfl⟩ := by simpa using h
        cases hholds
  | waiting snapshot => exact .inr ⟨snapshot, rfl⟩
  | locked | skipping | creating | created | overflow => exact .inl rfl
  | returned result error => cases h

/-- A call goes on to create a queued row only after its check. -/
theorem advance_creating {env : Env} {input : QueueInput} {store store' : Store} {length : ℕ}
    {c : QueueCall} {sent : Option Job} {snapshot : Snapshot}
    (h : c.advance env input store length = some (store', sent, .creating snapshot)) :
    c.phase = .locked snapshot ∧ store' = store ∧
      (snapshot.task.preventOverlap = true →
        store.taskHasActiveResults snapshot.task.id = false) := by
  obtain ⟨taskID, trigger, scheduledAt, current⟩ := c
  cases current with
  | locked current =>
      simp only [QueueCall.advance] at h
      split at h
      · split at h
        · simp at h
        · rename_i active hserved
          cases active with
          | true => simp at h
          | false =>
              obtain ⟨rfl, -, rfl⟩ := by simpa using h
              exact ⟨rfl, rfl, fun _ ↦ by simpa using (serve_eq_ok_iff.mp hserved).2⟩
      · rename_i hoff
        obtain ⟨rfl, -, rfl⟩ := by simpa using h
        exact ⟨rfl, rfl, fun hset ↦ absurd hset hoff⟩
  | started | loaded | waiting | skipping | creating | created | overflow =>
      simp only [QueueCall.advance] at h
      repeat' split at h
      all_goals simp at h
  | returned result error => cases h

/-! ## At most one -/

/-- The result is active and of the task. -/
def Active (id : String) (store : Store) (k : String) : Prop :=
  ∃ row, store.result? k = some row ∧ row.taskID = id ∧ row.status.active = true

structure NoOverlap (id : String) (s : State) : Prop where
  sound : Ledger.Sound lifecycle s.ledger
  knows : ∀ c ∈ s.calls, c.phase.Knows id
  lock : ∀ (index : ℕ) (c : QueueCall), s.calls[index]? = some c → c.phase.holdsLock = true →
    s.lock = some index
  /-- The check of a call stays true until its row is there. -/
  checked : ∀ c ∈ s.calls, ∀ snapshot, c.phase = .creating snapshot →
    snapshot.task.id = id → ∀ k, ¬ Active id s.store k
  one : ∀ k k', Active id s.store k → Active id s.store k' → k = k'

variable {env : Env} {id : String}

/-- No active result of the task is made by anything but a call. -/
theorem active_of_other {s t : State} {action : Action}
    (hsound : Ledger.Sound lifecycle s.ledger) (h : step env s action = some t)
    (hother : ∀ index input, action ≠ .call index input) {k : String}
    (hk : Active id t.store k) : Active id s.store k := by
  obtain ⟨row, hrow, htask, hactive⟩ := hk
  rcases active_before hsound h hrow hactive with hold | hnew
  · obtain ⟨old, hold, holdactive, howner⟩ := hold
    exact ⟨old, hold, howner.trans htask, holdactive⟩
  · obtain ⟨index, input, -, -, -, rfl, -⟩ := hnew
    exact absurd rfl (hother index input)

/-- A step that is not a section of a call keeps what the calls rely on. -/
theorem NoOverlap.other {s t : State} {action : Action} (hs : NoOverlap id s)
    (h : step env s action = some t) (hother : ∀ index input, action ≠ .call index input)
    (hlock : t.lock = s.lock ∨ t.calls = [])
    (hcalls : ∀ (index : ℕ) (c : QueueCall), t.calls[index]? = some c →
      s.calls[index]? = some c ∨ c.phase = .started) : NoOverlap id t := by
  have hactive : ∀ k, Active id t.store k → Active id s.store k :=
    fun _ hk ↦ active_of_other hs.sound h hother hk
  have hcall : ∀ c ∈ t.calls, c ∈ s.calls ∨ c.phase = .started := by
    intro c hc
    obtain ⟨index, hindex⟩ := List.mem_iff_getElem?.mp hc
    exact (hcalls index c hindex).imp_left List.mem_of_getElem?
  refine ⟨(step_refines hs.sound h).sound hs.sound, fun c hc ↦ ?_, fun index c hc hholds ↦ ?_,
    fun c hc snapshot hphase hid k hk ↦ ?_, fun k k' hk hk' ↦ ?_⟩
  · rcases hcall c hc with hc | hstarted
    · exact hs.knows c hc
    · intro task htask
      rw [hstarted] at htask
      cases htask
  · rcases hcalls index c hc with hold | hstarted
    · rcases hlock with hlock | hnone
      · rw [hlock]
        exact hs.lock index c hold hholds
      · rw [hnone] at hc
        cases hc
    · rw [hstarted] at hholds
      cases hholds
  · rcases hcall c hc with hc | hstarted
    · exact hs.checked c hc snapshot hphase hid k (hactive k hk)
    · rw [hstarted] at hphase
      cases hphase
  · exact hs.one k k' (hactive k hk) (hactive k' hk')

theorem getElem?_set_cases {calls : List QueueCall} {index other : ℕ} {c d : QueueCall}
    (h : (calls.set index c)[other]? = some d) :
    other = index ∧ d = c ∨ other ≠ index ∧ calls[other]? = some d := by
  rw [List.getElem?_set] at h
  split at h
  · rename_i hsame
    split at h
    · exact .inl ⟨hsame.symm, (Option.some.inj h).symm⟩
    · cases h
  · rename_i hne
    exact .inr ⟨fun heq ↦ hne heq.symm, h⟩

/-- A section of a call.  Who creates an active result holds the mutex and has
found none. -/
theorem NoOverlap.call {s t : State} {index : ℕ} {input : QueueInput} (hs : NoOverlap id s)
    (hset : Prevents id s.store) (h : step env s (.call index input) = some t) :
    NoOverlap id t := by
  have hrefined := step_refines hs.sound h
  have hbefore : ∀ k, Active id t.store k → Active id s.store k ∨
      (∀ k', ¬ Active id s.store k') ∧ (∃ c snapshot, s.calls[index]? = some c ∧
        c.phase = .creating snapshot) ∧ ∀ k', k' ≠ k → t.store.result? k' = s.store.result? k' := by
    rintro k ⟨row, hrow, htask, hactive⟩
    rcases active_before hs.sound h hrow hactive with hold | hnew
    · obtain ⟨old, hold, holdactive, howner⟩ := hold
      exact .inl ⟨old, hold, howner.trans htask, holdactive⟩
    · obtain ⟨_, _, c, snapshot, created, heq, hc, hphase, -, hid, hothers⟩ := hnew
      obtain ⟨rfl, rfl⟩ := Action.call.inj heq
      have hnone := hs.checked c (List.mem_of_getElem? hc) snapshot hphase (hid.symm.trans htask)
      exact .inr ⟨hnone, ⟨c, snapshot, hc, hphase⟩, hothers⟩
  cases step_spec h with
  | refused statement => exact hs
  | @called _ _ c store sent phase at_ free advanced =>
      have hknows : phase.Knows id :=
        advance_knows hset (hs.knows c (List.mem_of_getElem? at_)) advanced
      refine ⟨hrefined.sound hs.sound, fun c' hc' ↦ ?_, fun other c' hc' hholds ↦ ?_,
        fun c' hc' snapshot hphase hid k hk ↦ ?_, fun k k' hk hk' ↦ ?_⟩
      · rcases List.mem_or_eq_of_mem_set hc' with hold | rfl
        · exact hs.knows c' hold
        · exact hknows
      · change lockAfter index c.phase phase s.lock = some other
        rcases getElem?_set_cases hc' with ⟨rfl, rfl⟩ | ⟨hne, hold⟩
        · exact if_pos hholds
        · have hheld := hs.lock other c' hold hholds
          have hfree : c.phase.holdsLock = false := by
            by_contra hboth
            rw [Bool.not_eq_false] at hboth
            have heq := hs.lock index c at_ hboth
            rw [hheld] at heq
            exact hne (Option.some.inj heq)
          have hafter : phase.holdsLock = false := by
            by_contra hboth
            rw [Bool.not_eq_false] at hboth
            rcases advance_holdsLock advanced hboth with hholds' | ⟨snapshot, hwaiting⟩
            · rw [hfree] at hholds'
              cases hholds'
            · rw [hwaiting, blocked, hheld] at free
              cases free
          rw [lockAfter, hafter, hfree]
          exact hheld
      · obtain ⟨other, hother⟩ := List.mem_iff_getElem?.mp hc'
        rcases getElem?_set_cases hother with ⟨rfl, rfl⟩ | ⟨hne, hold⟩
        rotate_left
        · -- the other call holds the mutex, so this one created nothing
          rcases hbefore k hk with hk | ⟨-, ⟨d, created, hd, hcreating⟩, -⟩
          · exact hs.checked c' (List.mem_of_getElem? hold) snapshot hphase hid k hk
          · have hfirst := hs.lock index d hd (by rw [hcreating]; rfl)
            have hsecond := hs.lock other c' hold (by rw [hphase]; rfl)
            rw [hfirst] at hsecond
            exact absurd (Option.some.inj hsecond).symm hne
        · obtain rfl : phase = .creating snapshot := hphase
          obtain ⟨hlocked, rfl, hnone⟩ := advance_creating advanced
          have hflag := hknows snapshot.task rfl hid
          have hidle := hnone hflag
          obtain ⟨row, hrow, htask, hactive⟩ := hk
          have hbusy : s.store.taskHasActiveResults snapshot.task.id = true :=
            Store.taskHasActiveResults_iff.mpr ⟨k, row, hrow, htask.trans hid.symm, hactive⟩
          rw [hidle] at hbusy
          cases hbusy
      · have hnew : ∀ {k k'}, (∀ j, ¬ Active id s.store j) →
            (∀ j, j ≠ k → store.result? j = s.store.result? j) → Active id store k' → k = k' := by
          rintro k k' hnone hothers ⟨row, hrow, htask, hactive⟩
          by_contra hne
          rw [hothers k' (fun heq ↦ hne heq.symm)] at hrow
          exact hnone k' ⟨row, hrow, htask, hactive⟩
        rcases hbefore k hk with hold | ⟨hnone, -, hothers⟩
        · rcases hbefore k' hk' with hold' | ⟨hnone, -, -⟩
          · exact hs.one k k' hold hold'
          · exact absurd hold (hnone k)
        · exact hnew hnone hothers hk'

theorem NoOverlap.step {s t : State} {action : Action} (hs : NoOverlap id s)
    (hset : Prevents id s.store) (h : step env s action = some t) : NoOverlap id t := by
  cases step_spec h with
  | refused statement => exact hs
  | called at_ free advanced => exact hs.call hset h
  | queued taskID trigger scheduledAt =>
      refine hs.other h (fun _ _ ↦ nofun) (.inl rfl) fun index c hc ↦ ?_
      rw [List.getElem?_append] at hc
      split at hc
      · exact .inl hc
      · obtain rfl := List.mem_singleton.mp (List.mem_of_getElem? hc)
        exact .inr rfl
  | received | worked | executed | scheduled | configured =>
      exact hs.other h (fun _ _ ↦ nofun) (.inl rfl) fun _ _ hc ↦ .inl hc
  | restarted recovered =>
      refine hs.other h (fun _ _ ↦ nofun) (.inr rfl) fun index c hc ↦ ?_
      cases hc

theorem noOverlap_recovered {s : State} (h : Recovered s) : NoOverlap id s := by
  have hsound := (accounted_recovered h).sound
  obtain ⟨old, now, store, -, hrecover, rfl⟩ := h
  have hnone : ∀ k, ¬ Active id store k := by
    rintro k ⟨row, hrow, -, hactive⟩
    rw [(Store.recoverInterruptedResults_ok hrecover).1 k, Option.map_eq_some_iff] at hrow
    obtain ⟨before, -, rfl⟩ := hrow
    split at hactive
    · cases hactive
    · rename_i hended
      exact absurd hactive hended
  refine ⟨hsound, ?_, ?_, ?_, fun k _ hk ↦ absurd hk (hnone k)⟩
  · exact fun c hc ↦ absurd hc List.not_mem_nil
  · intro index c hc
    cases hc
  · exact fun c hc ↦ absurd hc List.not_mem_nil

/-! ## A call that finds an active result -/

/-- The check of a call finds an active result, unless it is not served. -/
theorem locked_skips {s t : State} {index : ℕ} {input : QueueInput} {c : QueueCall}
    {snapshot : Snapshot} (hcall : s.calls[index]? = some c) (hphase : c.phase = .locked snapshot)
    (hflag : snapshot.task.preventOverlap = true) {k : String}
    (hactive : Active snapshot.task.id s.store k)
    (h : Execution.step env s (.call index input) = some t) :
    t.store = s.store ∧ t.sent = s.sent ∧ ∃ phase,
      t.calls[index]? = some { c with phase := phase } ∧
      (phase = .skipping snapshot input.now ∨
        phase = .returned none (some (.store .unavailable))) := by
  obtain ⟨store, sent, phase, hadvance, hstore, hsent, hset⟩ := call_spec hcall h
  obtain ⟨row, hrow, htask, hstatus⟩ := hactive
  have hbusy : s.store.taskHasActiveResults snapshot.task.id = true :=
    Store.taskHasActiveResults_iff.mpr ⟨k, row, hrow, htask, hstatus⟩
  simp only [QueueCall.advance, hphase, hflag, if_true, hbusy] at hadvance
  cases hserved : input.served with
  | true =>
      simp only [hserved, serve, if_true] at hadvance
      obtain ⟨rfl, rfl, rfl⟩ := by simpa using hadvance
      exact ⟨hstore, hsent.trans (List.append_nil _), _, hset, .inl rfl⟩
  | false =>
      simp only [hserved, serve] at hadvance
      obtain ⟨rfl, rfl, rfl⟩ := by simpa using hadvance
      exact ⟨hstore, hsent.trans (List.append_nil _), _, hset, .inr rfl⟩

/-- Such a call then creates one skipped row, unless the insert fails. -/
theorem skipping_records {s t : State} {index : ℕ} {input : QueueInput} {c : QueueCall}
    {snapshot : Snapshot} {finished : Time} (hcall : s.calls[index]? = some c)
    (hphase : c.phase = .skipping snapshot finished)
    (h : Execution.step env s (.call index input) = some t) :
    t.sent = s.sent ∧
      ((∃ e, t.store = s.store ∧
          t.calls[index]? = some { c with phase := .returned none (some (.store e)) }) ∨
        ∃ created, s.store.result? created.id = none ∧
          created.taskID = snapshot.task.id ∧ created.status = .skipped ∧
          created.finishedAt = some finished ∧
          (∀ k, t.store.result? k =
            if created.id = k then some created else s.store.result? k) ∧
          t.calls[index]? = some { c with phase := .returned (some created) none }) := by
  obtain ⟨store, sent, phase, hadvance, rfl, hsent, hset⟩ := call_spec hcall h
  simp only [QueueCall.advance, hphase] at hadvance
  split at hadvance
  · rename_i e hrefused
    obtain ⟨hstore, rfl, rfl⟩ := by simpa using hadvance
    exact ⟨hsent.trans (List.append_nil _), .inl ⟨e, hstore.symm, hset⟩⟩
  · rename_i created written hcreated
    obtain ⟨rfl, rfl, rfl⟩ := by simpa using hadvance
    obtain ⟨hnew, hfresh, -, hrows, -⟩ :=
      Store.createResult_ok (serve_eq_ok_iff.mp hcreated).2
    have hstored : Store.storedResult created = created := by
      rw [hnew]
      rfl
    rw [hstored] at hrows
    refine ⟨hsent.trans (List.append_nil _), .inr ⟨created, hfresh, ?_, ?_, ?_, hrows, hset⟩⟩
    · rw [hnew]
      rfl
    · rw [hnew]
      rfl
    · rw [hnew]
      rfl

theorem queued_of_channel {s : State} (hsound : Ledger.Sound lifecycle s.ledger) {job : Job}
    (hjob : job ∈ s.channel) :
    ∃ row, s.store.result? job.resultID = some row ∧ row.status = .queued := by
  have hmem : (job.resultID, ResultStatus.queued) ∈ s.ledger.jobs := by
    change _ ∈ s.jobs.map jobKey
    refine Multiset.mem_map.mpr ⟨(job, ResultStatus.queued), ?_, rfl⟩
    rw [State.jobs, Multiset.mem_add, Multiset.mem_add]
    exact .inl (.inl (List.mem_map.mpr ⟨job, hjob, rfl⟩))
  obtain ⟨row, hrow, hstatus, -⟩ := row_of_job hsound hmem
  exact ⟨row, hrow, hstatus⟩

/-- While the flag of a task stays set, at most one of its results is active.  A
call whose check finds one creates a skipped row and nothing else, or returns the
error of the database; it sends no job, and no skipped row is on the channel. -/
theorem overlap_prevented {env : Env} {id : String} {s₀ s : State} {actions : List Action}
    (h₀ : Recovered s₀)
    (hset : Guarded (step env) (fun s _ ↦ Prevents id s.store) s₀ actions)
    (hrun : Transition.run (step env) s₀ actions = some s) :
    (∀ k k', Active id s.store k → Active id s.store k' → k = k') ∧
    (∀ job ∈ s.channel, ∃ row, s.store.result? job.resultID = some row ∧
      row.status = .queued) ∧
    ∀ (index : ℕ) (c : QueueCall) (input : QueueInput) (t : State),
      s.calls[index]? = some c → step env s (.call index input) = some t →
      (∀ snapshot k, c.phase = .locked snapshot → snapshot.task.id = id →
        Active id s.store k → t.store = s.store ∧ t.sent = s.sent ∧ ∃ phase,
          t.calls[index]? = some { c with phase := phase } ∧
          (phase = .skipping snapshot input.now ∨
            phase = .returned none (some (.store .unavailable)))) ∧
      ∀ snapshot finished, c.phase = .skipping snapshot finished → t.sent = s.sent ∧
        ((∃ e, t.store = s.store ∧
            t.calls[index]? = some { c with phase := .returned none (some (.store e)) }) ∨
          ∃ created, s.store.result? created.id = none ∧
            created.taskID = snapshot.task.id ∧ created.status = .skipped ∧
            created.finishedAt = some finished ∧
            (∀ k, t.store.result? k =
              if created.id = k then some created else s.store.result? k) ∧
            t.calls[index]? = some { c with phase := .returned (some created) none }) := by
  have hs : NoOverlap id s :=
    guarded_run_invariant (step env) (fun _ _ _ hs hset h ↦ hs.step hset h)
      (noOverlap_recovered h₀) hset hrun
  refine ⟨hs.one, fun job hjob ↦ queued_of_channel hs.sound hjob, ?_⟩
  intro index c input t hcall hstep
  refine ⟨fun snapshot k hphase hid hactive ↦ ?_, fun snapshot finished hphase ↦ ?_⟩
  · have hflag : snapshot.task.preventOverlap = true := by
      refine hs.knows c (List.mem_of_getElem? hcall) snapshot.task ?_ hid
      rw [hphase]
      rfl
    subst hid
    exact locked_skips hcall hphase hflag hactive hstep
  · exact skipping_records hcall hphase hstep

/-! ## Two calls for one task -/

/-- A task that prevents overlap. -/
def exclusiveTask : Store where
  tasks := ⟨[{ scheduledTask with preventOverlap := true }], by simp, by decide⟩
  routes := Table.empty
  results := Table.empty
  settings := migratedSettings
  isConsistent := by decide

def exclusiveRun (actions : List Action) : State :=
  (Transition.run (step offline) (.start exclusiveTask) actions).getD (.start exclusiveTask)

/-- A second call is made while the first result is active. -/
def secondCall : List Action := takenRun ++ [.queue "task" .manual none]

/-- A section of the second call; its row gets the identity `next`. -/
def secondInput (served : Bool) : QueueInput := ⟨served, 1, "next"⟩

/-- The second call gets to its insert. -/
def skippingRun : List Action := secondCall ++ List.replicate 3 (.call 1 (secondInput true))

/-- The first result ends between the read of the task and the check of the second
call. -/
def overtakenRun : List Action :=
  secondCall ++ [.call 1 (secondInput true)] ++ List.replicate 9 (.work 0 (workInput true)) ++
    List.replicate 4 (.call 1 (secondInput true))

/-- The insert of the second call is not served. -/
def unservedRun : List Action := skippingRun ++ [.call 1 (secondInput false)]

theorem run_exclusiveRun {actions : List Action}
    (h : (Transition.run (step offline) (.start exclusiveTask) actions).isSome = true) :
    Transition.run (step offline) (.start exclusiveTask) actions =
      some (exclusiveRun actions) := by
  obtain ⟨s, hs⟩ := Option.isSome_iff_exists.mp h
  rw [exclusiveRun, hs]
  rfl

theorem recovered_exclusive : Recovered (.start exclusiveTask) := by
  refine ⟨exclusiveTask, 0, exclusiveTask, ?_, rfl, rfl⟩
  have hempty : ∀ k, exclusiveTask.result? k = none := fun _ ↦ rfl
  refine ⟨fun k row hrow ↦ ?_, fun k row hrow ↦ ?_⟩
  · rw [hempty] at hrow
    cases hrow
  · rw [hempty] at hrow
    cases hrow

theorem active_run {actions : List Action}
    (hstatus : ((exclusiveRun actions).store.result? "run").map
      (fun row ↦ (row.taskID, row.status.active)) = some ("task", true)) :
    Active "task" (exclusiveRun actions).store "run" := by
  obtain ⟨row, hrow, hrow'⟩ := Option.map_eq_some_iff.mp hstatus
  obtain ⟨htask, hactive⟩ := Prod.mk.inj hrow'
  exact ⟨row, hrow, htask, hactive⟩

theorem overlap_prevented_second :
    Active "task" (exclusiveRun skippingRun).store "run" ∧
      ∀ k, Active "task" (exclusiveRun skippingRun).store k → k = "run" :=
  ⟨active_run (by decide +kernel), fun k hk ↦
    (overlap_prevented recovered_exclusive (by decide +kernel)
      (run_exclusiveRun (by decide +kernel))).1 k "run" hk (active_run (by decide +kernel))⟩

/-- A call made while a result is active sends a job of its own, if that result
ends before the check, and creates no row, if its insert is not served. -/
theorem call_while_active_can_queue :
    Active "task" (exclusiveRun secondCall).store "run" ∧
      (Guarded (step offline) (fun s _ ↦ Prevents "task" s.store) (.start exclusiveTask)
        overtakenRun ∧
      ((exclusiveRun overtakenRun).store.result? "next").map Result.status = some .queued ∧
      (exclusiveRun overtakenRun).sent.map Job.resultID = ["run", "next"]) ∧
      Guarded (step offline) (fun s _ ↦ Prevents "task" s.store) (.start exclusiveTask)
        unservedRun ∧
      ((exclusiveRun unservedRun).calls.map fun c ↦ c.phase.task?.isNone) = [true, true] ∧
      (exclusiveRun unservedRun).store.results.rows.map Result.id = ["run"] :=
  ⟨active_run (by decide +kernel),
    ⟨by decide +kernel, by decide +kernel, by decide +kernel⟩, by decide +kernel,
    by decide +kernel, by decide +kernel⟩

end MultiSpeed.Execution
