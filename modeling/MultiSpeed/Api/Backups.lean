import MultiSpeed.Api.Agreement
import MultiSpeed.Api.Portable

/-!
# Backups of the configuration

`exportConfiguration` and the import of what it has written, here or on another host with
the same checks.  A document is refused only for what has changed around the tasks: an
address that is gone, or a profile that has been moved.  The document is what its JSON
text decodes to.
-/

namespace MultiSpeed.Configuring

open Api Concurrent Database Execution Network Providers

variable {host : Host}

/-! ## Documents -/

/-- An exported task; its name is decoded as the text that is written of it. -/
def exportedTask (task : Task) : ConfigurationTask :=
  { ConfigurationTask.from task with name := utf8 (decoded task.name) }

/-- The document of `exportConfiguration`. -/
def exportConfiguration (snapshot : ConfigurationSnapshot) (version : String) (now : Time) :
    DecodedDocument where
  format := configurationFormat
  version := configurationFormatVersion
  exportedAt := now
  applicationVersion := version
  settings := .from snapshot.settings
  routeProfiles := some (snapshot.routeProfiles.map .from)
  tasks := some (snapshot.tasks.map exportedTask)
  names := by
    intro item hitem
    obtain ⟨task, -, rfl⟩ := List.mem_map.mp hitem
    exact ⟨_, rfl⟩

/-- The task that an import makes of an exported one. -/
def restoredTask (task : Task) : Task :=
  { (ConfigurationTask.from task).model with name := importedName task.name }

def restoredRoute (profile : RouteProfile) : RouteProfile :=
  (ConfigurationRouteProfile.from profile).model

/-- The interface has the address of an enabled task, and a listed profile is for the path of
the task. -/
def Placed (host : Host) (interfaces : List NetworkInterface) (routes : List RouteProfile)
    (task : Task) : Prop :=
  (task.enabled = true →
    validateSource host.execution interfaces task.interfaceName task.sourceIP = none) ∧
  ∀ id ∈ task.routeProfileID, ∃ profile,
    routes.find? (fun profile ↦ profile.id = id) = some profile ∧ Agrees host.net task profile

/-- The comparison of a profile with its task, once the source of the task is read. -/
theorem agrees_iff {ip : BitVec 128} {task : Task}
    (hsource : host.net.parseIP task.sourceIP = some ip) {profile : RouteProfile} :
    Agrees host.net task profile ↔ ¬ (profile.interfaceName ≠ task.interfaceName ∨
      host.net.parseIP profile.sourceIP ≠ some ip) := by
  rw [not_or, not_not, not_not, Agrees, sameIP, hsource]
  cases host.net.parseIP profile.sourceIP <;> simp

theorem configurationTaskRejection_eq_none_iff (interfaces : List NetworkInterface)
    (routes : List RouteProfile) {ip : BitVec 128} {task : Task}
    (htarget : validateTaskTargetAndSchedule host task = none)
    (hsource : host.net.parseIP task.sourceIP = some ip) :
    configurationTaskRejection host interfaces routes ip task = none ↔
      Placed host interfaces routes task := by
  unfold configurationTaskRejection Placed
  rw [htarget]
  dsimp only
  split
  · rename_i message hmessage
    refine iff_of_false (fun h ↦ by cases h) fun hplaced ↦ ?_
    split at hmessage
    · rename_i hon
      rw [hplaced.1 hon] at hmessage
      cases hmessage
    · cases hmessage
  · rename_i hvalid
    have hon : task.enabled = true →
        validateSource host.execution interfaces task.interfaceName task.sourceIP = none := by
      intro henabled
      rw [if_pos henabled] at hvalid
      exact hvalid
    cases hid : task.routeProfileID with
    | none => exact iff_of_true rfl ⟨hon, fun id hmem ↦ by cases hmem⟩
    | some id =>
        dsimp only
        cases hfind : routes.find? (fun profile ↦ profile.id = id) with
        | none =>
            refine iff_of_false (fun h ↦ by cases h) fun hplaced ↦ ?_
            obtain ⟨profile, hprofile, -⟩ := hplaced.2 id rfl
            rw [hfind] at hprofile
            cases hprofile
        | some profile =>
            dsimp only
            rw [ite_eq_right_iff]
            constructor
            · intro hagrees
              refine ⟨hon, fun other hother ↦ ?_⟩
              obtain rfl := Option.some.inj hother
              exact ⟨profile, hfind, (agrees_iff hsource).mpr fun hdiffer ↦ by
                cases hagrees hdiffer⟩
            · rintro ⟨-, hagrees⟩ hdiffer
              obtain ⟨other, hother, hplaced⟩ := hagrees id rfl
              obtain rfl := Option.some.inj (hfind.symm.trans hother)
              exact absurd hdiffer ((agrees_iff hsource).mp hplaced)

/-! ## What the checks make of a document -/

theorem restoredTask_defaults {task : Task} (h : PortableTask host (.from task))
    (settings : Settings) :
    applyTaskDefaults (exportedTask task).model settings = restoredTask task := by
  have hnormal : NormalTask host (exportedTask task) :=
    h.normal.renamed task.id (utf8 (decoded task.name)) task.enabled
  rw [hnormal.defaults, restoredTask, importedName]
  rfl

theorem restoredTask_fields {task : Task} (h : PortableTask host (.from task)) :
    ∃ ip, host.net.parseIP task.sourceIP = some ip ∧
      validateTaskFields host.net (restoredTask task) = .ok (ip, restoredTask task) := by
  have hname : StoredName task.name := h.name
  obtain ⟨hpos, hle, -⟩ := hname.imported
  exact h.normal.fields ⟨hpos, hle⟩

@[simp] theorem restoredTask_id (task : Task) : (restoredTask task).id = task.id := rfl

theorem restoredTask_target {task : Task} (h : PortableTask host (.from task)) :
    validateTaskTargetAndSchedule host (restoredTask task) = none := by
  have htarget := h.normal.target
  unfold validateTaskTargetAndSchedule nextRunsRejection taskTarget at htarget ⊢
  exact htarget

theorem forall_getElem?_cons {α : Type} {P : ℕ → α → Prop} {a : α} {l : List α} :
    (∀ i b, (a :: l)[i]? = some b → P i b) ↔
      P 0 a ∧ ∀ i b, l[i]? = some b → P (i + 1) b := by
  constructor
  · intro hall
    exact ⟨hall 0 a rfl, fun i b hb ↦ hall (i + 1) b hb⟩
  · rintro ⟨hfirst, hrest⟩ i b hb
    cases i with
    | zero =>
        obtain rfl := Option.some.inj hb
        exact hfirst
    | succ i => exact hrest i b hb

/-- The loop over exported tasks restores them where each of them is placed. -/
theorem validateConfigurationTasks_exported (interfaces : ℕ → List NetworkInterface)
    (settings : Settings) (routes : List RouteProfile) {rows tasks result : List Task}
    (hrows : ∀ row ∈ rows, PortableTask host (.from row))
    (hnodup : (tasks.map Task.id ++ rows.map Task.id).Nodup) :
    validateConfigurationTasks host interfaces settings routes (rows.map exportedTask) tasks =
        .ok result ↔
      result = tasks ++ rows.map restoredTask ∧
        ∀ i row, rows[i]? = some row → Placed host (interfaces (tasks.length + i)) routes row := by
  induction rows generalizing tasks with
  | nil =>
      rw [List.map_nil, validateConfigurationTasks, List.map_nil, List.append_nil]
      simp [eq_comm]
  | cons row rest ih =>
      obtain ⟨hrow, hrest⟩ := List.forall_mem_cons.mp hrows
      obtain ⟨ip, hip, hfields⟩ := restoredTask_fields hrow
      have hid : validateConfigurationID host "task" row.id = none := hrow.id
      have hfresh : row.id ∉ tasks.map Task.id := by
        rw [List.nodup_append] at hnodup
        exact fun hmem ↦ hnodup.2.2 _ hmem row.id (by simp) rfl
      have hnone : (tasks.any fun other ↦ other.id = row.id) = false := by
        rw [List.any_eq_false]
        intro other hother heq
        exact hfresh (List.mem_map.mpr ⟨other, hother, of_decide_eq_true heq⟩)
      have hnext : ((tasks ++ [restoredTask row]).map Task.id ++ rest.map Task.id).Nodup := by
        rw [List.map_append, List.append_assoc]
        exact hnodup
      have hplaced := configurationTaskRejection_eq_none_iff (interfaces tasks.length) routes
        (restoredTask_target hrow) hip
      rw [List.map_cons, validateConfigurationTasks, restoredTask_defaults hrow, restoredTask_id,
        hid, hnone, if_neg Bool.false_ne_true, hfields]
      dsimp only
      rw [forall_getElem?_cons]
      cases hrejection : configurationTaskRejection host (interfaces tasks.length) routes ip
          (restoredTask row) with
      | some e =>
          refine iff_of_false (fun h ↦ by cases h) ?_
          rintro ⟨-, hfirst, -⟩
          rw [hplaced.mpr hfirst] at hrejection
          cases hrejection
      | none =>
          have hindex : ∀ i, tasks.length + 1 + i = tasks.length + (i + 1) := fun i ↦ by omega
          have hfirst : Placed host (interfaces (tasks.length + 0)) routes row :=
            hplaced.mp hrejection
          dsimp only
          rw [ih hrest hnext, List.append_assoc, List.length_append, List.length_singleton]
          simp only [hindex, hfirst, true_and]
          rfl

theorem validateConfigurationRoutes_exported {rows : List RouteProfile}
    (hrows : ∀ row ∈ rows, PortableRoute host (.from row))
    (hnodup : (rows.map RouteProfile.id).Nodup) :
    validateConfigurationRoutes host (rows.map .from) [] = .ok (rows.map restoredRoute) := by
  have hdefaults : ∀ row ∈ rows, applyRouteDefaults host.net (restoredRoute row) =
      restoredRoute row := fun row hrow ↦ (hrows row hrow).normal.defaults
  have hresult : (rows.map ConfigurationRouteProfile.from).map
      (fun item ↦ applyRouteDefaults host.net item.model) = rows.map restoredRoute := by
    rw [List.map_map]
    exact List.map_congr_left hdefaults
  refine (validateConfigurationRoutes_ok_iff (by simp)).mpr ⟨by rw [hresult, List.nil_append],
    fun item hitem ↦ ?_, ?_⟩
  · obtain ⟨row, hrow, rfl⟩ := List.mem_map.mp hitem
    refine ⟨(hrows row hrow).id, ?_⟩
    have hsame : applyRouteDefaults host.net (ConfigurationRouteProfile.from row).model =
        restoredRoute row := hdefaults row hrow
    rw [hsame]
    exact (hrows row hrow).normal.fields
  · rw [List.map_map]
    exact hnodup

/-! ## Snapshots -/

theorem configuration_ok {s : Store} {snapshot : ConfigurationSnapshot}
    (h : s.configuration = .ok snapshot) :
    snapshot.settings = s.settings ∧ s.listTasks = .ok snapshot.tasks ∧
      s.listConfigurationRoutes = .ok snapshot.routeProfiles := by
  unfold Store.configuration at h
  split at h
  · cases h
  · rename_i tasks htasks
    split at h
    · cases h
    · rename_i routes hroutes
      cases h
      exact ⟨rfl, htasks, hroutes⟩

theorem length_of_capped {α : Type} {items items' : List α} (h : Store.capped items = .ok items') :
    items'.length ≤ 1000 := by
  unfold Store.capped at h
  split at h
  · cases h
  · rename_i hfew
    cases h
    exact not_lt.mp hfew

theorem mem_listedRoutes {s : Store} {items : List RouteProfile}
    (h : s.listConfigurationRoutes = .ok items) {profile : RouteProfile} :
    profile ∈ items ↔ s.getRouteProfile profile.id = .ok profile := by
  rw [Store.capped_ok h, (List.perm_insertionSort _ _).mem_iff, List.mem_filter, Table.mem_rows_iff,
    Store.getRouteProfile_eq_ok_iff]
  rfl

theorem listedRoutes_nodup {s : Store} {items : List RouteProfile}
    (h : s.listConfigurationRoutes = .ok items) : (items.map RouteProfile.id).Nodup := by
  rw [Store.capped_ok h]
  have hperm := (List.perm_insertionSort Store.routeOrder
    (s.routes.rows.filter RouteProfile.live)).map RouteProfile.id
  rw [hperm.nodup_iff]
  exact s.routes.keys_nodup.sublist (List.filter_sublist.map RouteProfile.id)

/-- The listed profile with an identity is the one the store has under it. -/
theorem find?_listedRoutes {s : Store} {items : List RouteProfile}
    (h : s.listConfigurationRoutes = .ok items) {id : String} {profile : RouteProfile} :
    items.find? (fun profile ↦ profile.id = id) = some profile ↔
      s.getRouteProfile id = .ok profile := by
  have hfound : ∀ other, items.find? (fun profile ↦ profile.id = id) = some other →
      s.getRouteProfile id = .ok other := by
    intro other hother
    have hid : other.id = id := by simpa using List.find?_some hother
    rw [← hid]
    exact (mem_listedRoutes h).mp (List.mem_of_find?_eq_some hother)
  refine ⟨hfound profile, fun hprofile ↦ ?_⟩
  have hid : profile.id = id := Store.route?_id (Store.getRouteProfile_eq_ok_iff.mp hprofile).1
  have hmem : profile ∈ items := (mem_listedRoutes h).mpr (by rw [hid]; exact hprofile)
  cases hfind : items.find? (fun profile ↦ profile.id = id) with
  | none => exact absurd hid (by simpa using List.find?_eq_none.mp hfind profile hmem)
  | some other =>
      have hother := hfound other hfind
      rw [hprofile] at hother
      rw [Except.ok.inj hother]

/-! ## Documents that are accepted -/

def restoredSettings (settings : Settings) : Settings := (ConfigurationSettings.from settings).model

theorem validateSettings_restored (settings : Settings) :
    validateSettings host (restoredSettings settings) = validateSettings host settings := rfl

variable {m : Memory} {snapshot : ConfigurationSnapshot} {version : String} {now : Time}

theorem portable_listed (hm : Portable host m) (h : m.store.configuration = .ok snapshot) :
    (∀ row ∈ snapshot.tasks, PortableTask host (.from row)) ∧
      ∀ row ∈ snapshot.routeProfiles, PortableRoute host (.from row) := by
  obtain ⟨-, htasks, hroutes⟩ := configuration_ok h
  exact ⟨fun row hrow ↦ hm.tasks row.id row (getTask_listed htasks hrow),
    fun row hrow ↦ hm.routes row.id row ((mem_listedRoutes hroutes).mp hrow)⟩

/-- An exported document is accepted exactly where every task is placed. -/
theorem validateConfigurationDocument_exported (hm : Portable host m)
    (h : m.store.configuration = .ok snapshot) (hversion : version.utf8ByteSize ≤ 128)
    (hnow : now ≠ zeroTime) (interfaces : ℕ → List NetworkInterface)
    {result : Settings × List RouteProfile × List Task} :
    validateConfigurationDocument host interfaces
        (exportConfiguration snapshot version now).toConfigurationDocument = .ok result ↔
      result = (restoredSettings m.store.settings, snapshot.routeProfiles.map restoredRoute,
          snapshot.tasks.map restoredTask) ∧
        ∀ i task, snapshot.tasks[i]? = some task →
          Placed host (interfaces i) (snapshot.routeProfiles.map restoredRoute) task := by
  obtain ⟨hsettings, htasks, hroutes⟩ := configuration_ok h
  obtain ⟨htaskRows, hrouteRows⟩ := portable_listed hm h
  have hcount : ¬ (1000 < (snapshot.routeProfiles.map ConfigurationRouteProfile.from).length ∨
      1000 < (snapshot.tasks.map exportedTask).length) := by
    rw [List.length_map, List.length_map, not_or, not_lt, not_lt]
    exact ⟨length_of_capped hroutes, length_of_capped htasks⟩
  have hvalid : validateSettings host (restoredSettings snapshot.settings) = none := by
    rw [validateSettings_restored, hsettings]
    exact hm.settings
  have hnodup : (([] : List Task).map Task.id ++ snapshot.tasks.map Task.id).Nodup :=
    listTasks_nodup htasks
  unfold validateConfigurationDocument exportConfiguration
  dsimp only
  rw [if_neg (not_not.mpr rfl), if_neg (not_not.mpr rfl), if_neg hnow,
    if_neg (not_lt.mpr hversion), Option.getD_some, Option.getD_some, if_neg hcount]
  have hmodel : (ConfigurationSettings.from snapshot.settings).model =
      restoredSettings snapshot.settings := rfl
  rw [hmodel, hvalid, validateConfigurationRoutes_exported hrouteRows (listedRoutes_nodup hroutes)]
  dsimp only
  rw [← hsettings]
  cases hloop : validateConfigurationTasks host interfaces (restoredSettings snapshot.settings)
      (snapshot.routeProfiles.map restoredRoute) (snapshot.tasks.map exportedTask) [] with
  | error e =>
      refine iff_of_false (fun h ↦ by cases h) ?_
      rintro ⟨-, hplaced⟩
      have hok := (validateConfigurationTasks_exported interfaces
        (restoredSettings snapshot.settings) (snapshot.routeProfiles.map restoredRoute) htaskRows
        hnodup).mpr ⟨rfl, fun i row hrow ↦ by simpa using hplaced i row hrow⟩
      rw [hloop] at hok
      cases hok
  | ok checked =>
      obtain ⟨hchecked, hplaced⟩ :=
        (validateConfigurationTasks_exported _ _ _ htaskRows hnodup).mp hloop
      rw [List.nil_append] at hchecked
      subst hchecked
      constructor
      · intro heq
        refine ⟨(Except.ok.inj heq).symm, fun i row hrow ↦ ?_⟩
        simpa using hplaced i row hrow
      · rintro ⟨rfl, -⟩
        rfl

/-- Where tasks name stored profiles, only their paths decide. -/
theorem placed_listed (interfaces : List NetworkInterface) {task : Task}
    (h : m.store.listConfigurationRoutes = .ok snapshot.routeProfiles)
    (hnamed : ∀ id ∈ task.routeProfileID, ∃ profile, m.store.getRouteProfile id = .ok profile) :
    Placed host interfaces (snapshot.routeProfiles.map restoredRoute) task ↔
      (task.enabled = true →
        validateSource host.execution interfaces task.interfaceName task.sourceIP = none) ∧
      ∀ id ∈ task.routeProfileID, ∀ profile, m.store.getRouteProfile id = .ok profile →
        Agrees host.net task profile := by
  have hfind : ∀ id, (snapshot.routeProfiles.map restoredRoute).find? (fun row ↦ row.id = id) =
      (snapshot.routeProfiles.find? fun row ↦ row.id = id).map restoredRoute :=
    fun id ↦ List.find?_map
  refine and_congr_right fun _ ↦ ⟨fun hplaced id hid profile hprofile ↦ ?_,
    fun hagrees id hid ↦ ?_⟩
  · obtain ⟨restored, hrestored, hagrees⟩ := hplaced id hid
    rw [hfind, (find?_listedRoutes h).mpr hprofile] at hrestored
    obtain rfl := Option.some.inj hrestored
    exact hagrees
  · obtain ⟨profile, hprofile⟩ := hnamed id hid
    refine ⟨restoredRoute profile, ?_, hagrees id hid profile hprofile⟩
    rw [hfind, (find?_listedRoutes h).mpr hprofile]
    rfl

/-! ## What is restored -/

theorem sqliteLength_go_le (name : Text) (afterLead : Bool) :
    sqliteLength.go afterLead name ≤ name.length := by
  induction name generalizing afterLead with
  | nil => exact le_rfl
  | cons b rest ih =>
      rw [sqliteLength.go, List.length_cons]
      split
      · omega
      · split
        · exact (ih _).trans (Nat.le_succ _)
        · exact Nat.succ_le_succ (ih _)

theorem sqliteLength_pos_iff (name : Text) : 1 ≤ sqliteLength name ↔ ∃ b ∈ name.head?, b ≠ 0 := by
  cases name with
  | nil => simp [sqliteLength, sqliteLength.go]
  | cons b rest =>
      by_cases hb : b = 0 <;> simp [sqliteLength, sqliteLength.go, hb]

/-- The imported name has a length that the schema accepts where the stored one has. -/
theorem sqliteLength_imported {name : Text} (h : StoredName name) (hpos : 1 ≤ sqliteLength name) :
    1 ≤ sqliteLength (importedName name) ∧ sqliteLength (importedName name) ≤ 120 := by
  obtain ⟨hone, hle, hsame⟩ := h.imported
  refine ⟨?_, (sqliteLength_go_le _ false).trans hle⟩
  obtain hsame | hblank := hsame
  · rw [hsame]
    exact hpos
  · rw [sqliteLength_pos_iff] at hpos ⊢
    have hne : importedName name ≠ [] := fun hnil ↦ by rw [hnil] at hone; cases hone
    rwa [hblank, List.head?_append_of_ne_nil _ hne] at hpos

theorem taskCheck_restored {task : Task} (h : StoredName task.name)
    (hcheck : taskCheck task = true) : taskCheck (restoredTask task) = true := by
  have hlength : 1 ≤ sqliteLength task.name ∧ sqliteLength task.name ≤ 120 := by
    simp only [taskCheck, Bool.and_eq_true, decide_eq_true_eq] at hcheck
    exact hcheck.1.1.1.1.1
  have hrestored : 1 ≤ sqliteLength (restoredTask task).name ∧
      sqliteLength (restoredTask task).name ≤ 120 := sqliteLength_imported h hlength.1
  have hname : (decide (1 ≤ sqliteLength (restoredTask task).name ∧
      sqliteLength (restoredTask task).name ≤ 120)) =
      decide (1 ≤ sqliteLength task.name ∧ sqliteLength task.name ≤ 120) := by
    rw [decide_eq_true hrestored, decide_eq_true hlength]
  rw [taskCheck, hname]
  exact hcheck

/-- The configuration of a store is that of another one, but for the blanks that copies of
tasks have left at the end of their names. -/
structure Restored (before after : Store) : Prop where
  settings : ConfigurationSettings.from after.settings = ConfigurationSettings.from before.settings
  tasks : ∀ id task, before.getTask id = .ok task → ∃ restored, after.getTask id = .ok restored ∧
    ConfigurationTask.from restored = { ConfigurationTask.from task with name := restored.name } ∧
    (restored.name = task.name ∨ task.name = restored.name ++ utf8 " ")
  routes : ∀ id profile, before.getRouteProfile id = .ok profile →
    ∃ restored, after.getRouteProfile id = .ok restored ∧
      ConfigurationRouteProfile.from restored = .from profile
  otherTasks : ∀ id restored, after.getTask id = .ok restored → ∃ task, before.getTask id = .ok task
  otherRoutes : ∀ id restored, after.getRouteProfile id = .ok restored →
    ∃ profile, before.getRouteProfile id = .ok profile

/-- An accepted document is stored on every store without an active result. -/
theorem replaceConfiguration_exported (hm : Portable host m) (hreferences : References m)
    (h : m.store.configuration = .ok snapshot) (store : Store) (stamp : Time)
    (hidle : store.hasActive = false) :
    ∃ after, store.replaceConfiguration (restoredSettings m.store.settings)
      (snapshot.routeProfiles.map restoredRoute) (snapshot.tasks.map restoredTask) stamp =
        .ok after := by
  obtain ⟨-, htasks, hroutes⟩ := configuration_ok h
  obtain ⟨htaskRows, hrouteRows⟩ := portable_listed hm h
  refine replaceConfiguration_stored ?_ ?_ ?_ ?_ ?_ ?_ ?_ hidle
  · rw [List.map_map]
    exact listedRoutes_nodup hroutes
  · rw [List.map_map]
    exact listTasks_nodup htasks
  · rintro _ htask
    obtain ⟨row, hrow, rfl⟩ := List.mem_map.mp htask
    exact (htaskRows row hrow).encodable
  · rintro _ htask
    obtain ⟨row, hrow, rfl⟩ := List.mem_map.mp htask
    have hstored := (Store.getTask_eq_ok_iff.mp (getTask_listed htasks hrow)).1
    have hcheck : taskCheck row = true := Table.check_of_find? (S := taskSchema) hstored
    exact taskCheck_restored (htaskRows row hrow).name hcheck
  · rintro _ hprofile
    obtain ⟨row, hrow, rfl⟩ := List.mem_map.mp hprofile
    have hstored := (Store.getRouteProfile_eq_ok_iff.mp ((mem_listedRoutes hroutes).mp hrow)).1
    have hcheck : routeCheck row = true := Table.check_of_find? (S := routeSchema) hstored
    exact hcheck
  · exact (Store.consistent_iff.mp m.store.isConsistent).2.2.2
  · rintro _ htask id hid
    obtain ⟨row, hrow, rfl⟩ := List.mem_map.mp htask
    obtain ⟨profile, hprofile⟩ := hreferences row.id row (getTask_listed htasks hrow) id hid
    have hprofileID : profile.id = id :=
      Store.route?_id (Store.getRouteProfile_eq_ok_iff.mp hprofile).1
    rw [List.map_map, ← hprofileID]
    refine List.mem_map.mpr ⟨profile, (mem_listedRoutes hroutes).mpr ?_, rfl⟩
    rw [hprofileID]
    exact hprofile

/-- What is stored of it is what was exported. -/
theorem restored_of_stored (hm : Portable host m) (h : m.store.configuration = .ok snapshot)
    {store after : Store} {stamp : Time}
    (hstored : store.replaceConfiguration (restoredSettings m.store.settings)
      (snapshot.routeProfiles.map restoredRoute) (snapshot.tasks.map restoredTask) stamp =
        .ok after) : Restored m.store after := by
  obtain ⟨-, htasks, hroutes⟩ := configuration_ok h
  obtain ⟨htaskRows, -⟩ := portable_listed hm h
  have hreplaced : Replaced _ _ _ stamp store after := replaced_of_ok
    (by rw [List.map_map]; exact listedRoutes_nodup hroutes)
    (by rw [List.map_map]; exact listTasks_nodup htasks) hstored
  refine ⟨hreplaced.settings, fun id task htask ↦ ?_, fun id profile hprofile ↦ ?_,
    fun id row hrow ↦ ?_, fun id row hrow ↦ ?_⟩
  · obtain rfl := Store.getTask_id htask
    have hlisted : task ∈ snapshot.tasks :=
      (Store.mem_listTasks htasks).mpr (Store.getTask_eq_ok_iff.mp htask)
    have hmem := List.mem_map_of_mem (f := restoredTask) hlisted
    obtain ⟨row, hrow, hlive⟩ := (hreplaced.liveTasks task.id).mpr
      (List.mem_map.mpr ⟨restoredTask task, hmem, rfl⟩)
    obtain ⟨row', hrow', hsame⟩ := hreplaced.taskRows (restoredTask task) hmem
    obtain rfl : row = row' := Option.some.inj (hrow.symm.trans hrow')
    have hname : row.name = importedName task.name := congrArg ConfigurationTask.name hsame
    have hstoredName : StoredName task.name := (htaskRows task hlisted).name
    refine ⟨row, Store.getTask_eq_ok_iff.mpr ⟨hrow, hlive⟩, ?_, ?_⟩
    · rw [hsame, hname]
      rfl
    · rw [hname]
      exact hstoredName.imported.2.2
  · obtain rfl := Store.route?_id (Store.getRouteProfile_eq_ok_iff.mp hprofile).1
    have hmem := List.mem_map_of_mem (f := restoredRoute)
      ((mem_listedRoutes hroutes).mpr hprofile)
    obtain ⟨row, hrow, hlive⟩ := (hreplaced.liveRoutes profile.id).mpr
      (List.mem_map.mpr ⟨restoredRoute profile, hmem, rfl⟩)
    obtain ⟨row', hrow', hsame⟩ := hreplaced.routeRows (restoredRoute profile) hmem
    obtain rfl : row = row' := Option.some.inj (hrow.symm.trans hrow')
    exact ⟨row, Store.getRouteProfile_eq_ok_iff.mpr ⟨hrow, hlive⟩, hsame⟩
  · obtain ⟨hfind, hlive⟩ := Store.getTask_eq_ok_iff.mp hrow
    obtain ⟨restored, hrestored, rfl⟩ :=
      List.mem_map.mp ((hreplaced.liveTasks id).mp ⟨row, hfind, hlive⟩)
    obtain ⟨task, htask, rfl⟩ := List.mem_map.mp hrestored
    exact ⟨task, getTask_listed htasks htask⟩
  · obtain ⟨hfind, hlive⟩ := Store.getRouteProfile_eq_ok_iff.mp hrow
    obtain ⟨restored, hrestored, rfl⟩ :=
      List.mem_map.mp ((hreplaced.liveRoutes id).mp ⟨row, hfind, hlive⟩)
    obtain ⟨profile, hprofile, rfl⟩ := List.mem_map.mp hrestored
    exact ⟨profile, (mem_listedRoutes hroutes).mp hprofile⟩

/-! ## Runs -/

/-- The requests of the API, whose new identities are valid. -/
abbrev identified (host : Host) :
    System Call.Answer Memory (ValidInput host) Reply Request String Change :=
  (system host).restrict fun i ↦ i.1

theorem portable_migrated (h : validateSettings host migratedSettings = none)
    (interfaces : List NetworkInterface) :
    Portable host ⟨migrated, interfaces, fun _ ↦ none⟩ :=
  ⟨h, fun _ _ htask ↦ (by cases htask), fun _ _ hprofile ↦ (by cases hprofile)⟩

/-- In every state of every run from the migrated store, a backup is accepted exactly where
the enabled tasks have their addresses and the tasks agree with the profiles they name; an
accepted one is stored on every store without an active result, and restores there what
it was made of. -/
theorem backup_restores (host : Host) (hmigrated : validateSettings host migratedSettings = none)
    {found : List NetworkInterface}
    {actions : List (Action Request String (ValidInput host) Change)}
    {s : State Call.Answer Memory Reply}
    (hrun : Transition.run (identified host).step ⟨⟨migrated, found, fun _ ↦ none⟩, none, []⟩
      actions = some s)
    {snapshot : ConfigurationSnapshot} (h : s.shared.store.configuration = .ok snapshot)
    (version : String) (hversion : version.utf8ByteSize ≤ 128) (now : Time) (hnow : now ≠ zeroTime)
    (interfaces : ℕ → List NetworkInterface) :
    ((∃ result, validateConfigurationDocument host interfaces
        (exportConfiguration snapshot version now).toConfigurationDocument = .ok result) ↔
      ∀ i task, snapshot.tasks[i]? = some task →
        (task.enabled = true → validateSource host.execution (interfaces i) task.interfaceName
          task.sourceIP = none) ∧
        ∀ id ∈ task.routeProfileID, ∀ profile, s.shared.store.getRouteProfile id = .ok profile →
          Agrees host.net task profile) ∧
    ∀ settings routes tasks, validateConfigurationDocument host interfaces
        (exportConfiguration snapshot version now).toConfigurationDocument =
          .ok (settings, routes, tasks) →
      ∀ (store : Store) (stamp : Time),
        ((∃ after, store.replaceConfiguration settings routes tasks stamp = .ok after) ↔
          store.hasActive = false) ∧
        ∀ after, store.replaceConfiguration settings routes tasks stamp = .ok after →
          Restored s.shared.store after := by
  have hm : Portable host s.shared :=
    Portable.keeps.run_all (portable_migrated hmigrated found) hrun
  have hfits : Fits host (fun _ _ ↦ True) := ⟨fun _ ↦ trivial, fun _ _ _ _ _ _ _ _ _ ↦ trivial⟩
  have hreferences : References s.shared := by
    have hkeeps := (Linked.keeps hfits (fun _ _ _ ↦ True)
      fun _ _ _ _ _ _ _ _ _ _ _ _ _ ↦ trivial).restrict fun i : ValidInput host ↦ i.1
    exact linked_iff_references.mp
      (hkeeps.run_all (fun _ _ htask ↦ (by cases htask)) hrun)
  obtain ⟨-, htasks, hroutes⟩ := configuration_ok h
  have haccepted : ∀ result, _ = Except.ok result ↔ _ := fun _ ↦
    validateConfigurationDocument_exported hm h hversion hnow interfaces
  constructor
  · have hplaced : ∀ i task, snapshot.tasks[i]? = some task →
        (Placed host (interfaces i) (snapshot.routeProfiles.map restoredRoute) task ↔ _) :=
      fun i task htask ↦ placed_listed (interfaces i) hroutes
        (hreferences task.id task (getTask_listed htasks (List.mem_of_getElem? htask)))
    constructor
    · rintro ⟨result, hresult⟩ i task htask
      exact (hplaced i task htask).mp (((haccepted result).mp hresult).2 i task htask)
    · intro hall
      exact ⟨_, (haccepted _).mpr ⟨rfl, fun i task htask ↦
        (hplaced i task htask).mpr (hall i task htask)⟩⟩
  · intro settings routes tasks hresult store stamp
    obtain ⟨heq, -⟩ := (haccepted _).mp hresult
    obtain ⟨rfl, hrest⟩ := Prod.mk.inj heq
    obtain ⟨rfl, rfl⟩ := Prod.mk.inj hrest
    refine ⟨⟨?_, replaceConfiguration_exported hm hreferences h store stamp⟩,
      fun after hstored ↦ restored_of_stored hm h hstored⟩
    rintro ⟨after, hstored⟩
    exact (Store.replaceConfiguration_ok hstored).1

/-- Every call is served, and new rows get this identity. -/
def identifiedInput (uuid : String) (h : trimmed uuid = uuid ∧ uuid.length = 36) :
    ValidInput smallHost :=
  ⟨servedInput uuid, fun _ ↦ if_neg (by simp [h.1, h.2, smallHost, servedInput])⟩

def profileID : String := "8c0f7a52-6a0e-4a1e-9a51-3f2b6f0c1d2e"

def taskID : String := "2d9a4f10-53b7-4c86-8f0e-7b1a9c3e5d44"

/-- A profile and a task that refers to it are created. -/
def backedUpRun : List (Action Request String (ValidInput smallHost) Change) :=
  .acquire (.createRouteProfile (some wanProfile)) ::
    List.replicate 2 (.advance (identifiedInput profileID (by decide))) ++
  .release :: .acquire (.createTask (some (wanTask profileID))) ::
    List.replicate 6 (.advance (identifiedInput taskID (by decide))) ++
  [.release]

/-- The tasks of the backup are not enabled and are for the paths of their profiles. -/
def unmoved (s : State Call.Answer Memory Reply) : Bool :=
  match s.shared.store.configuration with
  | .error _ => false
  | .ok snapshot => snapshot.tasks.all fun task ↦ !task.enabled &&
      task.routeProfileID.all fun id ↦
        match s.shared.store.getRouteProfile id with
        | .error _ => true
        | .ok profile => decide (Agrees smallHost.net task profile)

/-- The task and its profile are restored on a new host. -/
theorem backup_restores_attached :
    ∃ s snapshot settings routes tasks after,
      Transition.run (identified smallHost).step ⟨⟨migrated, twoInterfaces, fun _ ↦ none⟩, none, []⟩
        backedUpRun = some s ∧
      s.shared.store.configuration = .ok snapshot ∧
      validateConfigurationDocument smallHost (fun _ ↦ twoInterfaces)
        (exportConfiguration snapshot "1.0.0" 1).toConfigurationDocument =
          .ok (settings, routes, tasks) ∧
      migrated.replaceConfiguration settings routes tasks 1 = .ok after ∧
      Restored s.shared.store after := by
  obtain ⟨s, hs, hunmoved⟩ := (Option.any_eq_true _ _).mp
    (show (Transition.run (identified smallHost).step
      ⟨⟨migrated, twoInterfaces, fun _ ↦ none⟩, none, []⟩ backedUpRun).any unmoved = true by
        decide +kernel)
  unfold unmoved at hunmoved
  split at hunmoved
  · cases hunmoved
  · rename_i snapshot hsnapshot
    obtain ⟨haccepted, hrestored⟩ := backup_restores smallHost (by decide +kernel) hs hsnapshot
      "1.0.0" (by decide) 1 (by decide) fun _ ↦ twoInterfaces
    obtain ⟨⟨settings, routes, tasks⟩, hresult⟩ := haccepted.mpr fun i task htask ↦ by
      have htaskUnmoved := List.all_eq_true.mp hunmoved task (List.mem_of_getElem? htask)
      rw [Bool.and_eq_true, Bool.not_eq_true'] at htaskUnmoved
      refine ⟨fun hon ↦ ?_, fun id hid profile hprofile ↦ ?_⟩
      · rw [htaskUnmoved.1] at hon
        cases hon
      · have hagrees := (Option.all_eq_true _ _).mp htaskUnmoved.2 id hid
        rw [hprofile] at hagrees
        exact of_decide_eq_true hagrees
    obtain ⟨hstored, hsame⟩ := hrestored settings routes tasks hresult migrated 1
    obtain ⟨after, hafter⟩ := hstored.mpr rfl
    exact ⟨s, snapshot, settings, routes, tasks, after, hs, hsnapshot, hresult, hafter,
      hsame after hafter⟩

end MultiSpeed.Configuring
