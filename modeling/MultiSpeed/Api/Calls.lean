import MultiSpeed.Api.Configuring

/-!
# The calls of the handlers

What a call can do to the shared state, what the changes beside the handlers leave
alone, and what a handler has established before each call it makes.  An invariant of
the configuration is then proved call by call.
-/

namespace MultiSpeed.Configuring

open Api Concurrent Database Execution Network

variable {host : Host} {m m' : Memory}

/-! ## Effects -/

/-- What one call makes of the shared state. -/
inductive Effect (host : Host) (i : Input) (m : Memory) : Call → Memory → Prop where
  | none (c : Call) : Effect host i m c m
  | createTask {task created : Task} {store : Store}
      (h : m.store.createTask task i.uuid i.now = .ok (created, store)) :
      Effect host i m (.createTask task) { m with store := store }
  | updateTask {task : Task} {store : Store} (h : m.store.updateTask task i.now = .ok store) :
      Effect host i m (.updateTask task) { m with store := store }
  | markTaskDeleted {id : String} {store : Store}
      (h : m.store.markTaskDeleted id i.now = .ok store) :
      Effect host i m (.markTaskDeleted id) { m with store := store }
  | createRouteProfile {profile created : RouteProfile} {store : Store}
      (h : m.store.createRouteProfile profile i.uuid i.now = .ok (created, store)) :
      Effect host i m (.createRouteProfile profile)
        (({ m with store := store } : Memory).setOrigin created.id Option.none)
  | updateRouteProfile {profile : RouteProfile} {origin : Option Checked} {store : Store}
      (h : m.store.updateRouteProfile profile i.now = .ok store) :
      Effect host i m (.updateRouteProfile profile origin)
        (({ m with store := store } : Memory).setOrigin profile.id origin)
  | updateRouteValidation {id : String} {checked : Checked} {store : Store}
      (h : m.store.updateRouteValidation id (checked.record host) i.now = .ok store) :
      Effect host i m (.updateRouteValidation id checked)
        (({ m with store := store } : Memory).setOrigin id (some checked))
  | markRouteDeleted {id : String} {store : Store}
      (h : m.store.markRouteDeleted id i.now = .ok store) :
      Effect host i m (.markRouteDeleted id) { m with store := store }
  | updateSettings {settings : Settings} {store : Store}
      (h : m.store.updateSettings settings = .ok store) :
      Effect host i m (.updateSettings settings) { m with store := store }
  | replaceConfiguration {settings : Settings} {routes : List RouteProfile} {tasks : List Task}
      {store : Store}
      (h : m.store.replaceConfiguration settings routes tasks i.now = .ok store) :
      Effect host i m (.replaceConfiguration settings routes tasks)
        { m with
          store := store
          origin := fun k ↦ if k ∈ routes.map RouteProfile.id then Option.none else m.origin k }

theorem exec_effect (host : Host) (i : Input) (c : Call) (m : Memory) :
    Effect host i m c (exec host i c m).1 := by
  cases c with
  | getTask | getSettings | getRouteProfile | configuration | deleteTaskReason
  | deleteRouteReason | validateSource | preflight | validateRoute | schedule =>
      exact .none _
  | createTask task =>
      rw [exec]
      split
      · rename_i hok
        exact .createTask (serve_eq_ok_iff.mp hok).2
      · exact .none _
  | updateTask task =>
      rw [exec, Memory.write]
      split
      · rename_i hok
        exact .updateTask (serve_eq_ok_iff.mp hok).2
      · exact .none _
  | markTaskDeleted id =>
      rw [exec, Memory.write]
      split
      · rename_i hok
        exact .markTaskDeleted (serve_eq_ok_iff.mp hok).2
      · exact .none _
  | createRouteProfile profile =>
      rw [exec]
      split
      · rename_i hok
        exact .createRouteProfile (serve_eq_ok_iff.mp hok).2
      · exact .none _
  | updateRouteProfile profile origin =>
      rw [exec]
      split
      · rename_i hok
        exact .updateRouteProfile (serve_eq_ok_iff.mp hok).2
      · exact .none _
  | updateRouteValidation id checked =>
      rw [exec]
      split
      · rename_i hok
        exact .updateRouteValidation (serve_eq_ok_iff.mp hok).2
      · exact .none _
  | markRouteDeleted id =>
      rw [exec, Memory.write]
      split
      · rename_i hok
        exact .markRouteDeleted (serve_eq_ok_iff.mp hok).2
      · exact .none _
  | updateSettings settings =>
      rw [exec, Memory.write]
      split
      · rename_i hok
        exact .updateSettings (serve_eq_ok_iff.mp hok).2
      · exact .none _
  | replaceConfiguration settings routes tasks =>
      rw [exec]
      split
      · rename_i hok
        exact .replaceConfiguration (serve_eq_ok_iff.mp hok).2
      · exact .none _

/-- The call writes, its statement is served, and the store accepts it. -/
def Call.stored (host : Host) (i : Input) (m : Memory) : Call → Bool
  | .createTask task => (serve i.served (m.store.createTask task i.uuid i.now)).isOk
  | .updateTask task => (serve i.served (m.store.updateTask task i.now)).isOk
  | .markTaskDeleted id => (serve i.served (m.store.markTaskDeleted id i.now)).isOk
  | .createRouteProfile profile =>
      (serve i.served (m.store.createRouteProfile profile i.uuid i.now)).isOk
  | .updateRouteProfile profile _ => (serve i.served (m.store.updateRouteProfile profile i.now)).isOk
  | .updateRouteValidation id checked =>
      (serve i.served (m.store.updateRouteValidation id (checked.record host) i.now)).isOk
  | .markRouteDeleted id => (serve i.served (m.store.markRouteDeleted id i.now)).isOk
  | .updateSettings settings => (serve i.served (m.store.updateSettings settings)).isOk
  | .replaceConfiguration settings routes tasks =>
      (serve i.served (m.store.replaceConfiguration settings routes tasks i.now)).isOk
  | _ => false

/-- A condition on the calls that store something. -/
def WhereStored (host : Host) (P : Call → Memory → Prop) (i : Input) (c : Call) (m : Memory) :
    Prop := c.stored host i m = true → P c m

instance (host : Host) (P : Call → Memory → Prop) [∀ c m, Decidable (P c m)] (i : Input)
    (c : Call) (m : Memory) : Decidable (WhereStored host P i c m) :=
  inferInstanceAs (Decidable (_ → _))

theorem exec_of_not_stored {i : Input} {c : Call} (h : c.stored host i m = false) :
    (exec host i c m).1 = m := by
  cases c with
  | getTask | getSettings | getRouteProfile | configuration | deleteTaskReason
  | deleteRouteReason | validateSource | preflight | validateRoute | schedule => rfl
  | createTask | updateTask | markTaskDeleted | createRouteProfile | updateRouteProfile
  | updateRouteValidation | markRouteDeleted | updateSettings | replaceConfiguration =>
      simp only [Call.stored] at h
      simp only [exec, Memory.write]
      split
      · rename_i hok
        rw [hok] at h
        cases h
      · rfl

/-! ## What stays while a handler holds the mutex -/

end MultiSpeed.Configuring

namespace MultiSpeed

/-- The columns of a task that only the handlers with the mutex write. -/
def Task.settled (task : Task) : Task :=
  { task with updatedAt := 0, lastScheduledAt := none, nextScheduledAt := none }

/-- The columns of a profile that only the handlers with the mutex write. -/
def RouteProfile.settled (profile : RouteProfile) : RouteProfile :=
  { profile with
    updatedAt := 0
    lastValidationAt := none
    lastValidationSucceeded := none
    lastValidationSnapshot := none }

end MultiSpeed

namespace MultiSpeed.Configuring

open Api Concurrent Database Execution Network

variable {host : Host} {m m' : Memory}

/-- The profiles have the same settled columns. -/
def SameRoutes (m m' : Memory) : Prop :=
  m'.store.routes.rows.map RouteProfile.settled = m.store.routes.rows.map RouteProfile.settled

/-- The rows have the same settled columns. -/
structure Quiet (m m' : Memory) : Prop where
  tasks : m'.store.tasks.rows.map Task.settled = m.store.tasks.rows.map Task.settled
  routes : SameRoutes m m'

theorem Quiet.refl (m : Memory) : Quiet m m := ⟨rfl, rfl⟩

theorem SameRoutes.trans {m₁ m₂ m₃ : Memory} (h : SameRoutes m₁ m₂) (h' : SameRoutes m₂ m₃) :
    SameRoutes m₁ m₃ := Eq.trans h' h

theorem Quiet.trans {m₁ m₂ m₃ : Memory} (h : Quiet m₁ m₂) (h' : Quiet m₂ m₃) : Quiet m₁ m₃ :=
  ⟨h'.tasks.trans h.tasks, h.routes.trans h'.routes⟩

theorem SameRoutes.symm (h : SameRoutes m m') : SameRoutes m' m := Eq.symm h

theorem Quiet.symm (h : Quiet m m') : Quiet m' m := ⟨h.tasks.symm, h.routes.symm⟩

theorem SameRoutes.route? (h : SameRoutes m m') {id : String} {profile : RouteProfile}
    (hprofile : m.store.route? id = some profile) :
    ∃ profile', m'.store.route? id = some profile' ∧ profile'.settled = profile.settled := by
  have hmap := Table.find?_map_congr (S := routeSchema) (g := RouteProfile.settled)
    (fun _ ↦ rfl) h id
  have hfind : m.store.routes.find? id = some profile := hprofile
  rw [hfind] at hmap
  exact Option.map_eq_some_iff.mp hmap

theorem Quiet.task? (h : Quiet m m') {id : String} {task : Task}
    (htask : m.store.task? id = some task) :
    ∃ task', m'.store.task? id = some task' ∧ task'.settled = task.settled := by
  have hmap := Table.find?_map_congr (S := taskSchema) (g := Task.settled)
    (fun _ ↦ rfl) h.tasks id
  have hfind : m.store.tasks.find? id = some task := htask
  rw [hfind] at hmap
  exact Option.map_eq_some_iff.mp hmap

theorem settled_live {profile profile' : RouteProfile} (h : profile'.settled = profile.settled) :
    profile'.live = profile.live :=
  show profile'.settled.live = profile.settled.live by rw [h]

theorem settled_task_live {task task' : Task} (h : task'.settled = task.settled) :
    task'.live = task.live :=
  show task'.settled.live = task.settled.live by rw [h]

theorem SameRoutes.getRouteProfile (h : SameRoutes m m') {id : String} {profile : RouteProfile}
    (hprofile : m.store.getRouteProfile id = .ok profile) :
    ∃ profile', m'.store.getRouteProfile id = .ok profile' ∧
      profile'.settled = profile.settled := by
  obtain ⟨hfind, hlive⟩ := Store.getRouteProfile_eq_ok_iff.mp hprofile
  obtain ⟨profile', hfind', hsettled⟩ := h.route? hfind
  exact ⟨profile', Store.getRouteProfile_eq_ok_iff.mpr
    ⟨hfind', (settled_live hsettled).trans hlive⟩, hsettled⟩

theorem Quiet.getTask (h : Quiet m m') {id : String} {task : Task}
    (htask : m.store.getTask id = .ok task) :
    ∃ task', m'.store.getTask id = .ok task' ∧ task'.settled = task.settled := by
  obtain ⟨hfind, hlive⟩ := Store.getTask_eq_ok_iff.mp htask
  obtain ⟨task', hfind', hsettled⟩ := h.task? hfind
  exact ⟨task', Store.getTask_eq_ok_iff.mpr
    ⟨hfind', (settled_task_live hsettled).trans hlive⟩, hsettled⟩

/-- A write to tasks that sets no settled column. -/
theorem settled_updateLiveTask {s s' : Store} {id : String} {f : Task → Task}
    {hf : ∀ task, (f task).id = task.id} (hsettled : ∀ task, (f task).settled = task.settled)
    (h : s.updateLiveTask id f hf = .ok s') :
    s'.tasks.rows.map Task.settled = s.tasks.rows.map Task.settled := by
  unfold Store.updateLiveTask at h
  split at h
  · cases h
  · obtain ⟨hupdate, -⟩ := Store.writeTasks_ok h
    rw [Table.rows_update hupdate, List.map_map]
    refine List.map_congr_left fun row _ ↦ ?_
    rw [Function.comp_apply]
    split
    · exact hsettled row
    · rfl

/-- A write to profiles that sets no settled column. -/
theorem settled_updateLiveRoute {s s' : Store} {id : String} {f : RouteProfile → RouteProfile}
    {hf : ∀ profile, (f profile).id = profile.id}
    (hsettled : ∀ profile, (f profile).settled = profile.settled)
    (h : s.updateLiveRoute id f hf = .ok s') :
    s'.routes.rows.map RouteProfile.settled = s.routes.rows.map RouteProfile.settled := by
  unfold Store.updateLiveRoute at h
  split at h
  · cases h
  · obtain ⟨hupdate, -⟩ := Store.writeRoutes_ok h
    rw [Table.rows_update hupdate, List.map_map]
    refine List.map_congr_left fun row _ ↦ ?_
    rw [Function.comp_apply]
    split
    · exact hsettled row
    · rfl

/-- A recorded validation is quiet. -/
theorem quiet_updateRouteValidation {s s' : Store} {id : String} {validation : RouteValidation}
    {now : Time} (h : s.updateRouteValidation id validation now = .ok s') :
    s'.tasks = s.tasks ∧
      s'.routes.rows.map RouteProfile.settled = s.routes.rows.map RouteProfile.settled := by
  obtain ⟨-, -, -, -, hsame⟩ := Store.updateRouteValidation_ok h
  unfold Store.updateRouteValidation at h
  split at h
  · cases h
  · exact ⟨hsame.tasks, settled_updateLiveRoute (f := Store.assignValidation validation now)
      (fun _ ↦ rfl) h⟩

theorem ok_of_toOption {ε α : Type} {x : Except ε α} {a : α} (h : x.toOption = some a) :
    x = .ok a := by
  cases x with
  | error e => cases h
  | ok b => rw [Option.some.inj h]

/-- The changes beside the handlers are quiet. -/
theorem quiet_of_change {change : Change} (h : m.change change = some m') : Quiet m m' := by
  cases change with
  | results statement =>
      simp only [Memory.change] at h
      split at h
      · rename_i hresults
        obtain ⟨store, hstore, rfl⟩ := Option.map_eq_some_iff.mp h
        have hsame := writesResults_same hresults (ok_of_toOption hstore)
        exact ⟨by rw [hsame.tasks], by rw [SameRoutes, hsame.routes]⟩
      · cases h
  | schedule taskID last next now =>
      obtain ⟨store, hstore, rfl⟩ := Option.map_eq_some_iff.mp h
      have hok := ok_of_toOption hstore
      obtain ⟨-, -, -, -, hsame⟩ := Store.updateTaskSchedule_ok hok
      exact ⟨settled_updateLiveTask (f := Store.assignSchedule last next now)
        (fun _ ↦ rfl) hok, by rw [SameRoutes, hsame.routes]⟩
  | acceptance accepted now =>
      obtain ⟨store, hstore, rfl⟩ := Option.map_eq_some_iff.mp h
      obtain ⟨htasks, hroutes, -⟩ :=
        Store.commit_settings_ok (ok_of_toOption hstore)
      exact ⟨by rw [htasks], by rw [SameRoutes, hroutes]⟩
  | interfaces items =>
      obtain rfl := Option.some.inj h
      exact ⟨rfl, rfl⟩

theorem agrees_of_settled {net : Net} {task : Task} {profile profile' : RouteProfile}
    (h : Agrees net task profile) (hsettled : profile'.settled = profile.settled) :
    Agrees net task profile' := by
  have hagrees : Agrees net task profile.settled := h
  rw [← hsettled] at hagrees
  exact hagrees

/-! ## What a handler has established -/

/-- The profile the task names is there and is for its path. -/
def Attached (host : Host) (m : Memory) (task : Task) : Prop :=
  ∀ id ∈ task.routeProfileID, ∃ profile, m.store.getRouteProfile id = .ok profile ∧
    Agrees host.net task profile

theorem Attached.sameRoutes {task : Task} (h : Attached host m task) (hroutes : SameRoutes m m') :
    Attached host m' task := by
  intro id hid
  obtain ⟨profile, hprofile, hagrees⟩ := h id hid
  obtain ⟨profile', hprofile', hsettled⟩ := hroutes.getRouteProfile hprofile
  exact ⟨profile', hprofile', agrees_of_settled hagrees hsettled⟩

/-- The task has passed `validateTaskModel`: its profile is still there, and its source
was one of the interface in some state with `I`. -/
structure Accepted (host : Host) (I : Memory → Prop) (m : Memory) (task : Task) : Prop where
  checked : TaskChecked host task
  source : ∃ m₀, I m₀ ∧
    validateSource host.execution m₀.interfaces task.interfaceName task.sourceIP = none
  attached : Attached host m task

/-- The record of the profile is the one that was read in a state with `I`; the settled
columns are still those. -/
structure Read (I : Memory → Prop) (m : Memory) (id : String) (stored : Stored) : Prop where
  before : ∃ m₀, I m₀ ∧ m₀.getRouteProfile id = .ok stored ∧ SameRoutes m₀ m

/-- Why a handler makes a call.  The others are made without a reason. -/
def Justified (host : Host) (I : Memory → Prop) : Call → Memory → Prop
  | .createTask task, m =>
      Accepted host I m task ∧ task.id = "" ∨
        ∃ id row, m.store.getTask id = .ok row ∧ copyOf row = task
  | .updateTask task, m =>
      Accepted host I m task ∨
        -- the task is put back as it was read
        ∃ m₀, I m₀ ∧ m₀.store.getTask task.id = .ok task ∧ SameRoutes m₀ m
  | .createRouteProfile profile, _ =>
      ∃ input, profile = applyRouteDefaults host.net (RouteProfileInput.model input) ∧
        validateRouteFields host.net profile = none
  | .updateRouteProfile profile origin, m =>
      ∃ input stored, Read I m profile.id stored ∧ origin = stored.origin ∧
        profile = RouteProfileInput.over host input profile.id stored.profile ∧
        validateRouteFields host.net profile = none
  | .updateRouteValidation id checked, m =>
      ∃ stored, Read I m id stored ∧ checked.profile = stored.profile
  | .updateSettings settings, _ => validateSettings host settings = none
  | .replaceConfiguration settings routes tasks, _ =>
      ∃ interfaces, ∃ document : DecodedDocument, validateConfigurationDocument host interfaces
        document.toConfigurationDocument = .ok (settings, routes, tasks)
  | _, _ => True

/-- The call does not write. -/
def Call.reads : Call → Bool
  | .createTask _ | .updateTask _ | .markTaskDeleted _ | .createRouteProfile _
  | .updateRouteProfile .. | .updateRouteValidation .. | .markRouteDeleted _
  | .updateSettings _ | .replaceConfiguration .. => false
  | _ => true

/-- The call deletes a row. -/
def Call.deletes : Call → Bool
  | .markTaskDeleted _ | .markRouteDeleted _ => true
  | _ => false

/-- The call records a validation. -/
def Call.validates : Call → Bool
  | .updateRouteValidation .. => true
  | _ => false

/-- The calls that are made without a reason. -/
def Call.routine (c : Call) : Bool := c.reads || c.deletes

/-- The calls that `validateTask` makes. -/
def Call.free (c : Call) : Bool := c.reads || c.validates

theorem exec_reads (i : Input) {c : Call} (h : c.reads = true) (m : Memory) :
    (exec host i c m).1 = m := by
  cases c <;> first | rfl | cases h

theorem justified_of_routine {I : Memory → Prop} {c : Call} (h : c.routine = true)
    (m : Memory) : Justified host I c m := by
  cases c <;> trivial

end MultiSpeed.Configuring
