import MultiSpeed.Api.ImportRequest
import MultiSpeed.Api.NormalForms
import MultiSpeed.Api.References

/-!
# What is stored is portable

Every row that the handlers store is in the form in which an import leaves it.  A task is
written with a time zone, a path in its canonical spelling and a name without white space
around it, but for the blank that the cut of a copied name leaves.
-/

namespace MultiSpeed.Configuring

open Api Concurrent Database Execution Network

variable {host : Host} {m m' : Memory}

/-! ## What is stored -/

/-- A live task as an import accepts it. -/
structure PortableTask (host : Host) (item : ConfigurationTask) : Prop where
  id : validateConfigurationID host "task" item.id = none
  name : StoredName item.name
  normal : NormalTask host item
  encodable : (encodableMap item.customServerDefinition && encodableMap item.providerOptions) = true

/-- A live profile as an import accepts it. -/
structure PortableRoute (host : Host) (item : ConfigurationRouteProfile) : Prop where
  id : validateConfigurationID host "route profile" item.id = none
  normal : NormalRoute host.net item

structure Portable (host : Host) (m : Memory) : Prop where
  settings : validateSettings host m.store.settings = none
  tasks : ∀ id task, m.store.getTask id = .ok task → PortableTask host (.from task)
  routes : ∀ id profile, m.store.getRouteProfile id = .ok profile → PortableRoute host (.from profile)

/-- The identities that `uuid.NewString` gives. -/
def ValidInput (host : Host) : Type :=
  { i : Input // ∀ kind, validateConfigurationID host kind i.uuid = none }

namespace Portable

theorem of_task {id : String} {written : Task} {store : Store} (hm : Portable host m)
    (hwrite : ∀ k, store.task? k = if id = k then some written else m.store.task? k)
    (hsame : Store.SameExceptTasks m.store store)
    (hwritten : written.live = true → PortableTask host (.from written)) :
    Portable host { m with store := store } where
  settings := by
    change validateSettings host store.settings = none
    rw [hsame.settings]
    exact hm.settings
  tasks k task htask := by
    obtain ⟨rfl, hlive⟩ | hbefore := getTask_of_write hwrite htask
    · exact hwritten hlive
    · exact hm.tasks k task hbefore
  routes k profile hprofile :=
    hm.routes k profile ((getRouteProfile_congr (hsame.route? k)).symm.trans hprofile)

theorem getTask_congr {s s' : Store} {id : String} (h : s'.task? id = s.task? id) :
    s'.getTask id = s.getTask id := by
  rw [Store.getTask, Store.getTask, h]

theorem of_route {id : String} {written : RouteProfile} {store : Store}
    {origin : String → Option Checked} (hm : Portable host m)
    (hwrite : ∀ k, store.route? k = if id = k then some written else m.store.route? k)
    (hsame : Store.SameExceptRoutes m.store store)
    (hwritten : written.live = true → PortableRoute host (.from written)) :
    Portable host ⟨store, m.interfaces, origin⟩ where
  settings := by
    change validateSettings host store.settings = none
    rw [hsame.settings]
    exact hm.settings
  tasks k task htask := hm.tasks k task ((getTask_congr (hsame.task? k)).symm.trans htask)
  routes k profile hprofile := by
    obtain ⟨hfind, hlive⟩ := Store.getRouteProfile_eq_ok_iff.mp hprofile
    rw [hwrite] at hfind
    split at hfind
    · obtain rfl := Option.some.inj hfind
      exact hwritten hlive
    · exact hm.routes k profile (Store.getRouteProfile_eq_ok_iff.mpr ⟨hfind, hlive⟩)

/-- The stored columns that are exported are settled. -/
theorem of_quiet (hm : Portable host m) (h : Quiet m m')
    (hsettings : validateSettings host m'.store.settings = none) : Portable host m' where
  settings := hsettings
  tasks k task htask := by
    obtain ⟨before, hbefore, hsettled⟩ := h.symm.getTask htask
    have hsame : ConfigurationTask.from before.settled = ConfigurationTask.from task.settled :=
      congrArg _ hsettled
    exact (show ConfigurationTask.from before = ConfigurationTask.from task from hsame) ▸
      hm.tasks k before hbefore
  routes k profile hprofile := by
    obtain ⟨before, hbefore, hsettled⟩ := h.routes.symm.getRouteProfile hprofile
    have hsame : ConfigurationRouteProfile.from before.settled =
        ConfigurationRouteProfile.from profile.settled := congrArg _ hsettled
    exact (show ConfigurationRouteProfile.from before = ConfigurationRouteProfile.from profile
      from hsame) ▸ hm.routes k before hbefore

end Portable

/-! ## Time zones -/

/-- A task is written with a time zone. -/
def Zoned : Call → Memory → Prop
  | .createTask task, _ | .updateTask task, _ => task.timezone ≠ ""
  | _, _ => True

/-- The program writes tasks with a time zone only. -/
structure Zoning (host : Host) {α : Type} (p : Handler α) (m : Memory) : Prop where
  safe : Safe (exec host) (Portable host) Zoned Quiet (fun _ _ ↦ True) p m

namespace Zoning

variable {α β : Type}

theorem of_routine {c : Call} (h : c.routine = true) (t : Memory) : Zoned c t := by
  cases c <;> trivial

theorem done {a : α} : Zoning host (.done a) m := ⟨trivial⟩

theorem routine {p : Handler α} (h : p.Only fun c ↦ c.routine = true) : Zoning host p m :=
  ⟨h.safe (fun _ t hc ↦ of_routine hc t) (fun _ _ ↦ trivial) m⟩

theorem ask {c : Call} {k : c.Answer → Handler α} (hc : ∀ t, Portable host t → Zoned c t)
    (hk : ∀ t i, Portable host t → Zoning host (k (exec host i c t).2) (exec host i c t).1) :
    Zoning host (Configuring.ask c >>= k) m :=
  ⟨fun t _ hI ↦ ⟨hc t hI, fun i ↦ (hk t i hI).safe⟩⟩

/-- A program that only reads, and what is known of its ends. -/
theorem reads {p : Handler β} {Q : β → Prop} {k : β → Handler α}
    (h : p.Only fun c ↦ c.reads = true) (hends : p.Ends Q)
    (hk : ∀ b t, Q b → Zoning host (k b) t) : Zoning host (p >>= k) m :=
  ⟨Safe.bind (h.safe_ends (fun _ t hc ↦ of_routine (by simp [Call.routine, hc]) t) hends m)
    fun b t hb ↦ (hk b t hb).safe⟩

end Zoning

/-- The checks leave the time zone alone. -/
theorem validateTaskModel_timezone (task : Task) :
    (validateTaskModel host task).Ends fun answer ↦
      ∀ checked, answer = .ok checked → checked.timezone = task.timezone := by
  have herror : ∀ e, (pure (.error e) : Handler (Except Rejection Task)).Ends fun answer ↦
      ∀ checked, answer = .ok checked → checked.timezone = task.timezone := fun e ↦
    Program.Ends.pure fun _ h ↦ by cases h
  unfold validateTaskModel
  split
  · exact herror _
  · rename_i ip checked hfields
    have hok : (pure (.ok checked) : Handler (Except Rejection Task)).Ends fun answer ↦
        ∀ checked, answer = .ok checked → checked.timezone = task.timezone := by
      apply Program.Ends.pure
      rintro _ ⟨⟩
      rw [(validateTaskFields_ok hfields).2]
    apply Program.Ends.bind
    intro source
    split
    · exact herror _
    split
    · exact herror _
    split
    · exact hok
    · apply Program.Ends.bind
      intro stored
      split
      · exact herror _
      split
      · exact herror _
      · exact hok

theorem defaultTimezone_ne {settings : Settings} (h : validateSettings host settings = none) :
    settings.defaultTimezone ≠ "" := by
  intro hempty
  have hshort : settings.defaultTimezone.utf8ByteSize < 1 ∨
      128 < settings.defaultTimezone.utf8ByteSize := by
    rw [hempty]
    exact .inl (by decide)
  unfold validateSettings at h
  by_cases hsize : settings.displayUnits.utf8ByteSize < 1 ∨ 8 < settings.displayUnits.utf8ByteSize
  · rw [if_pos hsize] at h
    cases h
  rw [if_neg hsize] at h
  by_cases hunits : settings.displayUnits ≠ "bits" ∧ settings.displayUnits ≠ "bytes"
  · rw [if_pos hunits] at h
    cases h
  rw [if_neg hunits, if_pos hshort] at h
  cases h

theorem defaults_timezone {settings : Settings} (h : validateSettings host settings = none)
    (task : Task) : (applyTaskDefaults task settings).timezone ≠ "" :=
  given_ne_empty (defaultTimezone_ne h)

/-- What passes the checks after the defaults has a time zone. -/
theorem Zoning.checked {α : Type} {settings : Settings} (h : validateSettings host settings = none)
    (task : Task) {k : Except Rejection Task → Handler α}
    (hk : ∀ answer t, (∀ checked, answer = .ok checked → checked.timezone ≠ "") →
      Zoning host (k answer) t) :
    Zoning host (validateTaskModel host (applyTaskDefaults task settings) >>= k) m := by
  have hzone := defaults_timezone h task
  generalize applyTaskDefaults task settings = given at hzone ⊢
  refine Zoning.reads (validateTaskModel_reads given) (validateTaskModel_timezone given)
    fun answer t hsame ↦ hk answer t fun checked hchecked ↦ ?_
  rw [hsame checked hchecked]
  exact hzone

theorem settings_of_serve {served : Bool} {settings : Settings} (hm : Portable host m)
    (h : serve served (.ok m.store.getSettings) = .ok settings) :
    validateSettings host settings = none := by
  obtain ⟨-, hread⟩ := serve_eq_ok_iff.mp h
  rw [← Except.ok.inj hread]
  exact hm.settings

theorem createTask_zoned (body : Option TaskInput) : Zoning host (createTask host body) m := by
  unfold createTask
  split
  · exact .done
  · rename_i input
    refine Zoning.ask (fun _ _ ↦ trivial) fun t i hI ↦ ?_
    split
    · exact .done
    · rename_i settings hsettings
      have hvalid := settings_of_serve hI hsettings
      refine Zoning.checked hvalid (input.model none) fun answer u hu ↦ ?_
      split
      · exact .done
      · rename_i task
        refine Zoning.reads (preflightIfEnabled_reads task) (fun _ _ ↦ trivial)
          fun reply v (_ : True) ↦ ?_
        split
        · exact .done
        · refine Zoning.ask (fun _ _ ↦ hu task rfl) fun w j _ ↦ .routine ?_
          split
          · trivial
          · refine .perform rfl fun scheduled ↦ ?_
            split
            · exact (deleteTaskRow_routine _).bind fun _ ↦ trivial
            · exact .perform rfl fun _ ↦ trivial

theorem updateTask_zoned (id : String) (body : Option TaskInput) :
    Zoning host (updateTask host id body) m := by
  unfold updateTask
  refine Zoning.ask (fun _ _ ↦ trivial) fun t i hI ↦ ?_
  split
  · exact .done
  · rename_i existing hexisting
    obtain ⟨-, hread⟩ := serve_eq_ok_iff.mp hexisting
    have hstored : existing.timezone ≠ "" := (hI.tasks id existing hread).normal.timezone
    split
    · exact .done
    · refine Zoning.ask (fun _ _ ↦ trivial) fun u j hIu ↦ ?_
      split
      · exact .done
      · rename_i settings hsettings
        have hvalid := settings_of_serve hIu hsettings
        refine Zoning.checked hvalid _ fun answer v hv ↦ ?_
        split
        · exact .done
        · rename_i task
          refine Zoning.reads (preflightIfEnabled_reads task) (fun _ _ ↦ trivial)
            fun reply w (_ : True) ↦ ?_
          split
          · exact .done
          · refine Zoning.ask (fun _ _ ↦ hv task rfl) fun x k _ ↦ ?_
            split
            · exact .done
            · refine Zoning.ask (fun _ _ ↦ trivial) fun y l _ ↦ ?_
              split
              · exact Zoning.ask (fun _ _ ↦ hstored) fun z n _ ↦
                  .routine (.perform rfl fun _ ↦ trivial)
              · exact .routine (.perform rfl fun _ ↦ trivial)

theorem duplicateTask_zoned (id : String) : Zoning host (duplicateTask id) m := by
  refine Zoning.ask (fun _ _ ↦ trivial) fun t i hI ↦ ?_
  split
  · exact .done
  · rename_i source hsource
    obtain ⟨-, hread⟩ := serve_eq_ok_iff.mp hsource
    have hstored : source.timezone ≠ "" := (hI.tasks id source hread).normal.timezone
    refine Zoning.ask (fun _ _ ↦ hstored) fun u j _ ↦ ?_
    split <;> exact .done

/-- The call writes no task. -/
def Zoneless (c : Call) : Prop := ∀ m, Zoned c m

theorem Zoneless.of_reads {c : Call} (h : c.reads = true) : Zoneless c :=
  Zoning.of_routine (by simp [Call.routine, h])

/-- The call writes a task from a request. -/
def Call.writesTask : Call → Bool
  | .createTask _ | .updateTask _ => true
  | _ => false

theorem Zoneless.of_other {c : Call} (h : c.writesTask = false) : Zoneless c := by
  intro m
  cases c with
  | createTask task => cases h
  | updateTask task => cases h
  | _ => trivial

theorem Zoning.zoneless {α : Type} {p : Handler α} (h : p.Only Zoneless) : Zoning host p m :=
  ⟨h.safe (fun _ t hc ↦ hc t) (fun _ _ ↦ trivial) m⟩

theorem validateRouteModel_reads (profile : RouteProfile) :
    (validateRouteModel host profile).Only fun c ↦ c.reads = true := by
  unfold validateRouteModel
  split
  · trivial
  · refine .perform rfl fun answer ↦ ?_
    split <;> trivial

theorem validateRouteModel_zoneless (profile : RouteProfile) :
    (validateRouteModel host profile).Only Zoneless :=
  (validateRouteModel_reads profile).mono fun _ h ↦ Zoneless.of_reads h

theorem createRouteProfile_zoneless (body : Option RouteProfileInput) :
    (createRouteProfile host body).Only Zoneless := by
  unfold createRouteProfile
  split
  · trivial
  · rename_i input
    generalize applyRouteDefaults host.net input.model = profile
    refine (validateRouteModel_zoneless profile).bind fun answer ↦ ?_
    split
    · trivial
    · refine .perform (Zoneless.of_other rfl) fun created ↦ ?_
      split <;> trivial

theorem updateRouteProfile_zoneless (id : String) (body : Option RouteProfileInput) :
    (updateRouteProfile host id body).Only Zoneless := by
  refine .perform (Zoneless.of_other rfl) fun answer ↦ ?_
  split
  · trivial
  · rename_i existing
    split
    · trivial
    rename_i input
    generalize RouteProfileInput.over host input id existing.profile = profile
    refine (validateRouteModel_zoneless profile).bind fun answer ↦ ?_
    split
    · trivial
    · refine .perform (Zoneless.of_other rfl) fun updated ↦ ?_
      split <;> trivial

theorem validateRouteProfile_zoneless (id : String) :
    (validateRouteProfile host id).Only Zoneless := by
  refine .perform (fun _ ↦ trivial) fun stored ↦ ?_
  split
  · trivial
  · refine .perform (fun _ ↦ trivial) fun checked ↦ .perform (fun _ ↦ trivial) fun recorded ↦ ?_
    split <;> trivial

theorem updateSettings_zoneless (body : Option Settings) :
    (updateSettings host body).Only Zoneless := by
  unfold updateSettings
  split
  · trivial
  split
  · trivial
  · refine .perform (Zoneless.of_other rfl) fun updated ↦ ?_
    split
    · trivial
    · refine .perform (Zoneless.of_other rfl) fun settings ↦ ?_
      split <;> trivial

theorem importConfiguration_zoneless (interfaces : ℕ → List NetworkInterface)
    (body : Option DecodedDocument) : (importConfiguration host interfaces body).Only Zoneless := by
  unfold importConfiguration
  split
  · trivial
  split
  · trivial
  · refine .perform (Zoneless.of_other rfl) fun current ↦ ?_
    split
    · trivial
    · refine .perform (Zoneless.of_other rfl) fun paused ↦ ?_
      split
      · trivial
      · refine .perform (Zoneless.of_other rfl) fun replaced ↦ ?_
        split
        · exact .perform (Zoneless.of_other rfl) fun _ ↦ trivial
        · refine .perform (Zoneless.of_other rfl) fun scheduled ↦ ?_
          split <;> trivial

theorem handle_zoned (request : Request) (m : Memory) : Zoning host (handle host request) m := by
  cases request with
  | createTask body => exact createTask_zoned body
  | updateTask id body => exact updateTask_zoned id body
  | deleteTask id => exact .routine (deleteTask_routine id)
  | duplicateTask id => exact duplicateTask_zoned id
  | createRouteProfile body => exact .zoneless (createRouteProfile_zoneless body)
  | updateRouteProfile id body => exact .zoneless (updateRouteProfile_zoneless id body)
  | deleteRouteProfile id => exact .routine (deleteRouteProfile_routine id)
  | validateRouteProfile id => exact .zoneless (validateRouteProfile_zoneless id)
  | updateSettings body => exact .zoneless (updateSettings_zoneless body)
  | importConfiguration interfaces body =>
      exact .zoneless (importConfiguration_zoneless interfaces body)

/-! ## Every call keeps what is stored portable -/

theorem timezone_of_document {interfaces : ℕ → List NetworkInterface} {document : DecodedDocument}
    {settings : Settings} {routes : List RouteProfile} {tasks : List Task}
    (h : validateConfigurationDocument host interfaces document.toConfigurationDocument =
      .ok (settings, routes, tasks)) : ∀ task ∈ tasks, task.timezone ≠ "" := by
  have hsettings := (documentChecked_of_ok h).settings
  unfold validateConfigurationDocument at h
  split at h
  · cases h
  split at h
  · cases h
  split at h
  · cases h
  split at h
  · cases h
  split at h
  · cases h
  split at h
  · dsimp only at h
    split at h
    · cases h
    split at h
    · cases h
    split at h
    · cases h
    · rename_i checkedTasks htasks
      cases h
      obtain ⟨⟨new, hnew, haccepted⟩, -⟩ := validateConfigurationTasks_ok (by simp) htasks
      rw [List.nil_append] at hnew
      subst hnew
      intro task htask
      obtain ⟨item, -, k, hitem⟩ := exists_of_forall₂ haccepted htask
      obtain ⟨ip, hfields, -⟩ := hitem.checked
      rw [(validateTaskFields_ok hfields).2]
      exact defaults_timezone hsettings _
  · cases h

namespace PortableTask

theorem of_checked {task : Task} (hid : validateConfigurationID host "task" task.id = none)
    (hchecked : TaskChecked host task) (htimezone : task.timezone ≠ "")
    (hencodable : (encodableMap task.customServerDefinition &&
      encodableMap task.providerOptions) = true) : PortableTask host (.from task) := by
  obtain ⟨hnormal, text, htext, hname⟩ := hchecked.normal htimezone
  refine ⟨hid, ?_, hnormal, hencodable⟩
  change StoredName task.name
  rw [hname]
  exact .normal htext

theorem created {task : Task} {id : String} (h : PortableTask host (.from { task with id := id }))
    {uuid : String} (huuid : validateConfigurationID host "task" uuid = none) (htask : task.id = "")
    (now : Time) : PortableTask host
      (.from { Store.newTask task uuid now with deletedAt := none }) := by
  refine ⟨?_, h.name, h.normal.renamed _ _ _, h.encodable⟩
  change validateConfigurationID host "task" (if task.id = "" then uuid else task.id) = none
  rw [if_pos htask]
  exact huuid

theorem copied {row : Task} (h : PortableTask host (.from row)) {uuid : String}
    (huuid : validateConfigurationID host "task" uuid = none) (now : Time) :
    PortableTask host (.from { Store.newTask (copyOf row) uuid now with deletedAt := none }) :=
  ⟨huuid, h.name.copy, h.normal.renamed _ _ _, h.encodable⟩

end PortableTask

namespace Portable

theorem exec_createTask {task created : Task} {store : Store} {i : Input}
    (hm : Portable host m) (huuid : validateConfigurationID host "task" i.uuid = none)
    (h : m.store.createTask task i.uuid i.now = .ok (created, store))
    (hc : Justified host (Portable host) (.createTask task) m) (hz : Zoned (.createTask task) m) :
    Portable host { m with store := store } := by
  obtain ⟨rfl, -, hwrite, hsame⟩ := Store.createTask_ok h
  refine hm.of_task hwrite hsame fun _ ↦ ?_
  obtain ⟨haccepted, hid⟩ | ⟨id, row, hrow, rfl⟩ := hc
  · have hchecked : PortableTask host (.from { task with id := i.uuid }) := by
      obtain ⟨hnormal, text, htext, hname⟩ := haccepted.checked.normal hz
      refine ⟨huuid, ?_, hnormal.renamed _ _ _, createTask_encodable h⟩
      change StoredName task.name
      rw [hname]
      exact .normal htext
    exact hchecked.created huuid hid i.now
  · exact (hm.tasks id row hrow).copied huuid i.now

theorem exec_updateTask {task : Task} {store : Store} {now : Time} (hm : Portable host m)
    (h : m.store.updateTask task now = .ok store)
    (hc : Justified host (Portable host) (.updateTask task) m) (hz : Zoned (.updateTask task) m) :
    Portable host { m with store := store } := by
  obtain ⟨row, hrow, hlive, hwrite, hsame⟩ := Store.updateTask_ok h
  refine hm.of_task hwrite hsame fun _ ↦ ?_
  have hid : row.id = task.id := Store.task?_id hrow
  have hexported : ConfigurationTask.from (Store.assignTask task now row) = .from task := by
    rw [ConfigurationTask.from, ConfigurationTask.from]
    dsimp only [Store.assignTask]
    rw [hid]
  rw [hexported]
  obtain haccepted | ⟨m₀, hm₀, htask, -⟩ := hc
  · have hrowid := (hm.tasks task.id row (Store.getTask_eq_ok_iff.mpr ⟨hrow, hlive⟩)).id
    change validateConfigurationID host "task" row.id = none at hrowid
    rw [hid] at hrowid
    exact .of_checked hrowid haccepted.checked hz (updateTask_encodable h)
  · exact hm₀.tasks _ task htask

end Portable

namespace PortableRoute

theorem renamed {net : Net} {item : ConfigurationRouteProfile} (h : NormalRoute net item)
    (id : String) : NormalRoute net { item with id := id } :=
  ⟨h.name, h.description, h.interfaceName, h.sourceIP, h.expectedGateway, h.expectedRoutingTable,
    h.notes, h.validationTarget, h.target, h.fields⟩

theorem created {profile : RouteProfile} (h : NormalRoute host.net (.from profile)) {uuid : String}
    (huuid : validateConfigurationID host "route profile" uuid = none) (hid : profile.id = "")
    (now : Time) :
    PortableRoute host (.from { Store.newRoute profile uuid now with deletedAt := none }) := by
  refine ⟨?_, renamed h (Store.newRoute profile uuid now).id⟩
  change validateConfigurationID host "route profile"
    (if profile.id = "" then uuid else profile.id) = none
  rw [if_pos hid]
  exact huuid

theorem assigned {profile row : RouteProfile} (h : NormalRoute host.net (.from profile))
    (hid : validateConfigurationID host "route profile" row.id = none) (now : Time) :
    PortableRoute host (.from (Store.assignRoute profile now row)) :=
  ⟨hid, renamed h row.id⟩

end PortableRoute

namespace Portable

theorem exec_createRouteProfile {profile created : RouteProfile} {store : Store} {i : Input}
    {origin : String → Option Checked} (hm : Portable host m)
    (huuid : validateConfigurationID host "route profile" i.uuid = none)
    (h : m.store.createRouteProfile profile i.uuid i.now = .ok (created, store))
    (hc : Justified host (Portable host) (.createRouteProfile profile) m) :
    Portable host ⟨store, m.interfaces, origin⟩ := by
  obtain ⟨rfl, -, hwrite, hsame⟩ := Store.createRouteProfile_ok h
  refine hm.of_route hwrite hsame fun _ ↦ ?_
  obtain ⟨input, hprofile, hfields⟩ := hc
  have hid : profile.id = "" := by rw [hprofile]; rfl
  have hnormal : NormalRoute host.net (.from profile) := by
    rw [hprofile] at hfields ⊢
    exact normalRoute_defaults hfields
  exact .created hnormal huuid hid i.now

theorem exec_updateRouteProfile {profile : RouteProfile} {stem : Option Checked} {store : Store}
    {now : Time} {origin : String → Option Checked} (hm : Portable host m)
    (h : m.store.updateRouteProfile profile now = .ok store)
    (hc : Justified host (Portable host) (.updateRouteProfile profile stem) m) :
    Portable host ⟨store, m.interfaces, origin⟩ := by
  obtain ⟨row, hrow, hlive, hwrite, hsame⟩ := Store.updateRouteProfile_ok h
  refine hm.of_route hwrite hsame fun _ ↦ ?_
  obtain ⟨input, stored, -, -, hprofile, hfields⟩ := hc
  have hnormal : NormalRoute host.net (.from profile) := by
    unfold RouteProfileInput.over at hprofile
    rw [hprofile] at hfields ⊢
    exact normalRoute_defaults hfields
  have hrowid := (hm.routes profile.id row
    (Store.getRouteProfile_eq_ok_iff.mpr ⟨hrow, hlive⟩)).id
  exact .assigned hnormal hrowid now

theorem exec_updateRouteValidation {id : String} {validation : RouteValidation} {store : Store}
    {now : Time} {origin : String → Option Checked} (hm : Portable host m)
    (h : m.store.updateRouteValidation id validation now = .ok store) :
    Portable host ⟨store, m.interfaces, origin⟩ := by
  obtain ⟨row, hrow, hlive, hwrite, hsame⟩ := Store.updateRouteValidation_ok h
  refine hm.of_route hwrite hsame fun _ ↦ ?_
  exact hm.routes id row (Store.getRouteProfile_eq_ok_iff.mpr ⟨hrow, hlive⟩)

/-- Only portable settings are checked. -/
theorem validateSettings_assign (settings row : Settings) :
    validateSettings host (assignSettings settings row) = validateSettings host settings := rfl

theorem exec_updateSettings {settings : Settings} {store : Store} (hm : Portable host m)
    (h : m.store.updateSettings settings = .ok store)
    (hvalid : validateSettings host settings = none) :
    Portable host { m with store := store } := by
  obtain ⟨htasks, hroutes, hsettings⟩ := Store.commit_settings_ok h
  refine ⟨?_, fun k task htask ↦ ?_, fun k profile hprofile ↦ ?_⟩
  · change validateSettings host store.settings = none
    rw [hsettings, validateSettings_assign]
    exact hvalid
  · refine hm.tasks k task ((getTask_congr ?_).symm.trans htask)
    rw [Store.task?, htasks, Store.task?]
  · refine hm.routes k profile ((getRouteProfile_congr ?_).symm.trans hprofile)
    rw [Store.route?, hroutes, Store.route?]

theorem exec_replaceConfiguration {settings : Settings} {routes : List RouteProfile}
    {tasks : List Task} {store : Store} {now : Time} {origin : String → Option Checked}
    (h : m.store.replaceConfiguration settings routes tasks now = .ok store)
    (hc : Justified host (Portable host) (.replaceConfiguration settings routes tasks) m) :
    Portable host ⟨store, m.interfaces, origin⟩ := by
  obtain ⟨interfaces, document, hdocument⟩ := hc
  have hchecked := documentChecked_of_ok hdocument
  have hreplaced := replaced_of_ok hchecked.routesDistinct hchecked.tasksDistinct h
  refine ⟨?_, fun k row hrow ↦ ?_, fun k row hrow ↦ ?_⟩
  · obtain ⟨-, -, hsettings, -⟩ := Store.replaceConfiguration_ok h
    change validateSettings host store.settings = none
    rw [hsettings, validateSettings_assign]
    exact hchecked.settings
  · obtain ⟨hfind, hlive⟩ := Store.getTask_eq_ok_iff.mp hrow
    obtain ⟨task, htask, rfl⟩ := List.mem_map.mp ((hreplaced.liveTasks k).mp ⟨row, hfind, hlive⟩)
    obtain ⟨row', hrow', hsame⟩ := hreplaced.taskRows task htask
    obtain rfl : row = row' := Option.some.inj (hfind.symm.trans hrow')
    rw [hsame]
    have himported := hchecked.tasksChecked task htask
    exact .of_checked himported.id himported.checked (timezone_of_document hdocument task htask)
      (replaceConfiguration_encodable h task htask)
  · obtain ⟨hfind, hlive⟩ := Store.getRouteProfile_eq_ok_iff.mp hrow
    obtain ⟨profile, hprofile, rfl⟩ :=
      List.mem_map.mp ((hreplaced.liveRoutes k).mp ⟨row, hfind, hlive⟩)
    obtain ⟨row', hrow', hsame⟩ := hreplaced.routeRows profile hprofile
    obtain rfl : row = row' := Option.some.inj (hfind.symm.trans hrow')
    rw [hsame]
    obtain ⟨hid, ⟨raw, hraw⟩, hfields⟩ := hchecked.routesChecked profile hprofile
    refine ⟨hid, ?_⟩
    rw [hraw] at hfields ⊢
    exact normalRoute_defaults hfields

/-- Every justified call keeps what is stored portable. -/
theorem exec (i : ValidInput host) {c : Call} (hm : Portable host m)
    (hc : Justified host (Portable host) c m) (hz : Zoned c m) :
    Portable host (Configuring.exec host i.1 c m).1 := by
  have heffect := exec_effect host i.1 c m
  generalize (Configuring.exec host i.1 c m).1 = m' at heffect ⊢
  cases heffect with
  | none => exact hm
  | createTask hok => exact hm.exec_createTask (i.2 "task") hok hc hz
  | updateTask hok => exact hm.exec_updateTask hok hc hz
  | markTaskDeleted hok =>
      obtain ⟨-, row, -, -, hwrite, hsame⟩ := Store.markTaskDeleted_ok hok
      exact hm.of_task hwrite hsame fun hlive ↦ by cases hlive
  | createRouteProfile hok => exact hm.exec_createRouteProfile (i.2 "route profile") hok hc
  | updateRouteProfile hok => exact hm.exec_updateRouteProfile hok hc
  | updateRouteValidation hok => exact hm.exec_updateRouteValidation hok
  | markRouteDeleted hok =>
      obtain ⟨-, row, -, -, hwrite, hsame⟩ := Store.markRouteDeleted_ok hok
      exact hm.of_route hwrite hsame fun hlive ↦ by cases hlive
  | updateSettings hok => exact hm.exec_updateSettings hok hc
  | replaceConfiguration hok => exact exec_replaceConfiguration hok hc

/-- So do the changes beside the handlers. -/
theorem change {change : Change} (hm : Portable host m) (h : m.change change = some m') :
    Portable host m' := by
  refine hm.of_quiet (quiet_of_change h) ?_
  cases change with
  | results statement =>
      simp only [Memory.change] at h
      split at h
      · rename_i hresults
        obtain ⟨store, hstore, rfl⟩ := Option.map_eq_some_iff.mp h
        change validateSettings host store.settings = none
        rw [(writesResults_same hresults (ok_of_toOption hstore)).settings]
        exact hm.settings
      · cases h
  | schedule taskID last next now =>
      obtain ⟨store, hstore, rfl⟩ := Option.map_eq_some_iff.mp h
      obtain ⟨-, -, -, -, hsame⟩ := Store.updateTaskSchedule_ok (ok_of_toOption hstore)
      change validateSettings host store.settings = none
      rw [hsame.settings]
      exact hm.settings
  | acceptance accepted now =>
      obtain ⟨store, hstore, rfl⟩ := Option.map_eq_some_iff.mp h
      obtain ⟨-, -, hsettings⟩ := Store.commit_settings_ok (ok_of_toOption hstore)
      change validateSettings host store.settings = none
      rw [hsettings]
      exact hm.settings
  | interfaces items =>
      obtain rfl := Option.some.inj h
      exact hm.settings

theorem keeps : ((system host).restrict fun i : ValidInput host ↦ i.1).Keeps (Portable host) Quiet
    (fun c m ↦ Justified host (Portable host) c m ∧ Zoned c m) (fun c _ ↦ c.free = true)
    (fun _ _ _ ↦ True) fun _ _ _ ↦ True where
  serial request m := ((handle_sound request m).safe.and (handle_zoned request m).safe).restrict _
  free id m := ((validateTask_free id).safe (fun _ _ hc ↦ hc) (fun _ _ ↦ trivial) m).restrict _
  serialCall c m i hm hc _ := hm.exec i hc.1 hc.2
  freeCall c m i hm hfree _ := by
    have hquiet : Quiet m (Configuring.exec host i.1 c m).1 := quiet_of_free i.1 hfree m
    refine ⟨hm.of_quiet hquiet ?_, hquiet⟩
    have heffect := exec_effect host i.1 c m
    change validateSettings host (Configuring.exec host i.1 c m).1.store.settings = none
    generalize (Configuring.exec host i.1 c m).1 = m' at heffect ⊢
    cases heffect with
    | none => exact hm.settings
    | updateRouteValidation hok => exact (hm.exec_updateRouteValidation hok).settings
    | createTask | updateTask | markTaskDeleted | createRouteProfile | updateRouteProfile
    | markRouteDeleted | updateSettings | replaceConfiguration => cases hfree
  outside change m m' hm h := ⟨hm.change h, quiet_of_change h⟩
  refl := Quiet.refl
  trans _ _ _ h h' := h.trans h'

end Portable

end MultiSpeed.Configuring
