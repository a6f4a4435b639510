import MultiSpeed.Api.Reasons

/-!
# Tasks refer to live profiles

Deletion is soft, so no foreign key keeps a live task from naming a deleted profile.
What does are the conditional deletion of a profile, the reads of a handler before it
writes a task, the mutex, and the checks of an imported document.  The argument is made
once for every relation of a task to its profile that depends on their paths.
-/

namespace MultiSpeed.Configuring

open Api Concurrent Database Execution Network

variable {host : Host} {m m' : Memory} {fits : Task → RouteProfile → Prop}

/-- A live task that names a profile names a live one that fits. -/
def Linked (fits : Task → RouteProfile → Prop) (m : Memory) : Prop :=
  ∀ id task, m.store.getTask id = .ok task → ∀ profileID ∈ task.routeProfileID,
    ∃ profile, m.store.getRouteProfile profileID = .ok profile ∧ fits task profile

/-- What the checks of a task establish is enough for a fit, and a fit depends on the
interfaces and sources only. -/
structure Fits (host : Host) (fits : Task → RouteProfile → Prop) : Prop where
  of_agrees : ∀ {task profile}, Agrees host.net task profile → fits task profile
  congr : ∀ task task' profile profile', task'.interfaceName = task.interfaceName →
    task'.sourceIP = task.sourceIP → profile'.interfaceName = profile.interfaceName →
    profile'.sourceIP = profile.sourceIP → fits task profile → fits task' profile'

theorem Fits.settled (hfits : Fits host fits) {task task' : Task}
    {profile profile' : RouteProfile} (htask : task'.settled = task.settled)
    (hprofile : profile'.settled = profile.settled) (h : fits task profile) :
    fits task' profile' :=
  hfits.congr task task' profile profile' (congrArg Task.interfaceName htask :)
    (congrArg Task.sourceIP htask :) (congrArg RouteProfile.interfaceName hprofile :)
    (congrArg RouteProfile.sourceIP hprofile :) h

theorem getRouteProfile_congr {s s' : Store} {id : String} (h : s'.route? id = s.route? id) :
    s'.getRouteProfile id = s.getRouteProfile id := by
  rw [Store.getRouteProfile, Store.getRouteProfile, h]

/-- A live task after a write is the written one or was there before. -/
theorem getTask_of_write {s s' : Store} {id k : String} {written task : Task}
    (h : ∀ k, s'.task? k = if id = k then some written else s.task? k)
    (htask : s'.getTask k = .ok task) :
    task = written ∧ written.live = true ∨ s.getTask k = .ok task := by
  obtain ⟨hfind, hlive⟩ := Store.getTask_eq_ok_iff.mp htask
  rw [h] at hfind
  split at hfind
  · obtain rfl := Option.some.inj hfind
    exact .inl ⟨rfl, hlive⟩
  · exact .inr (Store.getTask_eq_ok_iff.mpr ⟨hfind, hlive⟩)

namespace Linked

/-- A write of tasks keeps the links where the written one is linked. -/
theorem of_write {id : String} {written : Task} {store : Store} (hm : Linked fits m)
    (hwrite : ∀ k, store.task? k = if id = k then some written else m.store.task? k)
    (hroutes : ∀ k, store.route? k = m.store.route? k)
    (hwritten : written.live = true → ∀ profileID ∈ written.routeProfileID,
      ∃ profile, m.store.getRouteProfile profileID = .ok profile ∧ fits written profile) :
    Linked fits { m with store := store } := by
  intro k task htask profileID hid
  have hlinked : ∃ profile, m.store.getRouteProfile profileID = .ok profile ∧
      fits task profile := by
    obtain ⟨rfl, hlive⟩ | hbefore := getTask_of_write hwrite htask
    · exact hwritten hlive profileID hid
    · exact hm k task hbefore profileID hid
  obtain ⟨profile, hprofile, hfit⟩ := hlinked
  exact ⟨profile, (getRouteProfile_congr (hroutes profileID)).trans hprofile, hfit⟩

/-- A write of profiles keeps the links where the profiles that are linked go on to fit. -/
theorem of_routes {store : Store} {origin : String → Option Checked} (hm : Linked fits m)
    (htasks : ∀ k, store.task? k = m.store.task? k)
    (hroutes : ∀ id task profileID profile, m.store.getTask id = .ok task →
      profileID ∈ task.routeProfileID → m.store.getRouteProfile profileID = .ok profile →
      fits task profile →
      ∃ profile', store.getRouteProfile profileID = .ok profile' ∧ fits task profile') :
    Linked fits ⟨store, m.interfaces, origin⟩ := by
  intro k task htask profileID hid
  obtain ⟨hfind, hlive⟩ := Store.getTask_eq_ok_iff.mp htask
  have hbefore : m.store.getTask k = .ok task :=
    Store.getTask_eq_ok_iff.mpr ⟨(htasks k).symm.trans hfind, hlive⟩
  obtain ⟨profile, hprofile, hfit⟩ := hm k task hbefore profileID hid
  exact hroutes k task profileID profile hbefore hid hprofile hfit

/-- A write of one profile keeps the links where the written one fits the tasks that
name it. -/
theorem of_route {id : String} {written : RouteProfile} {store : Store}
    {origin : String → Option Checked} (hm : Linked fits m)
    (htasks : ∀ k, store.task? k = m.store.task? k)
    (hwrite : ∀ k, store.route? k = if id = k then some written else m.store.route? k)
    (hwritten : ∀ k task profile, m.store.getTask k = .ok task → id ∈ task.routeProfileID →
      m.store.getRouteProfile id = .ok profile → fits task profile →
      written.live = true ∧ fits task written) :
    Linked fits ⟨store, m.interfaces, origin⟩ := by
  refine hm.of_routes htasks fun k task profileID profile htask hid hprofile hfit ↦ ?_
  by_cases heq : id = profileID
  · subst heq
    obtain ⟨hlive, hfit'⟩ := hwritten k task profile htask hid hprofile hfit
    exact ⟨written, Store.getRouteProfile_eq_ok_iff.mpr ⟨by rw [hwrite, if_pos rfl], hlive⟩, hfit'⟩
  · exact ⟨profile, (getRouteProfile_congr (by rw [hwrite, if_neg heq])).trans hprofile, hfit⟩

/-- A profile that is in use is not deleted. -/
theorem of_markRouteDeleted {id : String} {now : Time} {store : Store}
    (hm : Linked fits m) (h : m.store.markRouteDeleted id now = .ok store) :
    Linked fits { m with store := store } := by
  obtain ⟨hunused, row, -, -, hwrite, hsame⟩ := Store.markRouteDeleted_ok h
  refine hm.of_route hsame.task? hwrite fun k task profile htask hid _ _ ↦ ?_
  obtain ⟨hfind, hlive⟩ := Store.getTask_eq_ok_iff.mp htask
  exact absurd hid (Store.routeInUse_eq_false_iff.mp hunused k task hfind hlive)

/-- The tasks of an accepted document agree with profiles of the document. -/
theorem of_replaced {settings : Settings} {routes : List RouteProfile}
    {tasks : List Task} {now : Time} {interfaces : ℕ → List NetworkInterface} {s s' : Store}
    (hfits : Fits host fits) (hdocument : DocumentChecked host interfaces settings routes tasks)
    (h : s.replaceConfiguration settings routes tasks now = .ok s')
    (origin : String → Option Checked) : Linked fits ⟨s', m.interfaces, origin⟩ := by
  have hreplaced := replaced_of_ok hdocument.routesDistinct hdocument.tasksDistinct h
  intro k row hrow profileID hid
  obtain ⟨hfind, hlive⟩ := Store.getTask_eq_ok_iff.mp hrow
  obtain ⟨task, htask, rfl⟩ := List.mem_map.mp ((hreplaced.liveTasks k).mp ⟨row, hfind, hlive⟩)
  obtain ⟨row', hrow', hsame⟩ := hreplaced.taskRows task htask
  obtain rfl : row = row' := Option.some.inj (hfind.symm.trans hrow')
  have hroute : row.routeProfileID = task.routeProfileID :=
    congrArg ConfigurationTask.routeProfileID hsame
  rw [hroute] at hid
  obtain ⟨profile, hprofile, rfl, hagrees⟩ :=
    (hdocument.tasksChecked task htask).agrees profileID hid
  obtain ⟨stored, hstored, hlive⟩ :=
    (hreplaced.liveRoutes profile.id).mpr (List.mem_map_of_mem hprofile)
  obtain ⟨stored', hstored', hcontent⟩ := hreplaced.routeRows profile hprofile
  obtain rfl : stored = stored' := Option.some.inj (hstored.symm.trans hstored')
  refine ⟨stored, Store.getRouteProfile_eq_ok_iff.mpr ⟨hstored, hlive⟩, ?_⟩
  exact hfits.congr task row profile stored (congrArg ConfigurationTask.interfaceName hsame)
    (congrArg ConfigurationTask.sourceIP hsame)
    (congrArg ConfigurationRouteProfile.interfaceName hcontent)
    (congrArg ConfigurationRouteProfile.sourceIP hcontent) (hfits.of_agrees hagrees)

/-- Every justified call keeps the links where an updated profile fits the tasks that
name it. -/
theorem exec (hfits : Fits host fits) (i : Input) {c : Call} (hm : Linked fits m)
    (hc : Justified host (Linked fits) c m)
    (hupdate : ∀ profile origin, c = .updateRouteProfile profile origin →
      ∀ k task row, m.store.getTask k = .ok task → profile.id ∈ task.routeProfileID →
        m.store.getRouteProfile profile.id = .ok row → fits task row → fits task profile) :
    Linked fits (Configuring.exec host i c m).1 := by
  have heffect := exec_effect host i c m
  generalize (Configuring.exec host i c m).1 = m' at heffect ⊢
  cases heffect with
  | none => exact hm
  | createTask hok =>
      obtain ⟨rfl, -, hwrite, hsame⟩ := Store.createTask_ok hok
      refine hm.of_write hwrite hsame.route? fun _ profileID hid ↦ ?_
      obtain ⟨haccepted, -⟩ | ⟨id, row, hrow, rfl⟩ := hc
      · obtain ⟨profile, hprofile, hagrees⟩ := haccepted.attached profileID hid
        exact ⟨profile, hprofile, hfits.of_agrees hagrees⟩
      · obtain ⟨profile, hprofile, hfit⟩ := hm id row hrow profileID hid
        exact ⟨profile, hprofile, hfits.congr row _ profile _ rfl rfl rfl rfl hfit⟩
  | @updateTask task _ hok =>
      obtain ⟨row, -, -, hwrite, hsame⟩ := Store.updateTask_ok hok
      refine hm.of_write hwrite hsame.route? fun _ profileID hid ↦ ?_
      obtain haccepted | ⟨m₀, hm₀, hrow, hroutes⟩ := hc
      · obtain ⟨profile, hprofile, hagrees⟩ := haccepted.attached profileID hid
        exact ⟨profile, hprofile, hfits.of_agrees hagrees⟩
      · obtain ⟨profile, hprofile, hfit⟩ := hm₀ _ _ hrow profileID hid
        obtain ⟨profile', hprofile', hsettled⟩ := hroutes.getRouteProfile hprofile
        have hfit' := hfits.settled rfl hsettled hfit
        exact ⟨profile', hprofile', hfits.congr task _ profile' _ rfl rfl rfl rfl hfit'⟩
  | markTaskDeleted hok =>
      obtain ⟨-, row, -, -, hwrite, hsame⟩ := Store.markTaskDeleted_ok hok
      exact hm.of_write hwrite hsame.route? fun hlive ↦ by cases hlive
  | createRouteProfile hok =>
      obtain ⟨-, hnone, hwrite, hsame⟩ := Store.createRouteProfile_ok hok
      refine hm.of_route hsame.task? hwrite fun k task profile _ _ hprofile _ ↦ ?_
      have hfind := (Store.getRouteProfile_eq_ok_iff.mp hprofile).1
      rw [hnone] at hfind
      cases hfind
  | @updateRouteProfile profile _ _ hok =>
      obtain ⟨row, -, hlive, hwrite, hsame⟩ := Store.updateRouteProfile_ok hok
      refine hm.of_route hsame.task? hwrite fun k task before htask hid hbefore hfit ↦
        ⟨hlive, hfits.congr task _ profile _ rfl rfl rfl rfl ?_⟩
      exact hupdate profile _ rfl k task before htask hid hbefore hfit
  | @updateRouteValidation _ checked _ hok =>
      obtain ⟨row, hrow, hlive, hwrite, hsame⟩ := Store.updateRouteValidation_ok hok
      refine hm.of_route hsame.task? hwrite fun k task before _ _ hbefore hfit ↦ ⟨hlive, ?_⟩
      obtain ⟨hfind, -⟩ := Store.getRouteProfile_eq_ok_iff.mp hbefore
      obtain rfl : row = before := Option.some.inj (hrow.symm.trans hfind)
      exact hfits.congr task _ row _ rfl rfl rfl rfl hfit
  | markRouteDeleted hok => exact hm.of_markRouteDeleted hok
  | updateSettings hok =>
      obtain ⟨htasks, hroutes, -⟩ := Store.commit_settings_ok hok
      refine hm.of_routes (fun k ↦ by rw [Store.task?, htasks, Store.task?])
        fun k task profileID profile _ _ hprofile hfit ↦ ⟨profile, ?_, hfit⟩
      exact (getRouteProfile_congr (by rw [Store.route?, hroutes, Store.route?])).trans hprofile
  | replaceConfiguration hok =>
      obtain ⟨interfaces, document, hdocument⟩ := hc
      exact of_replaced hfits (documentChecked_of_ok hdocument) hok _

/-- The links depend on settled columns only. -/
theorem quiet (hfits : Fits host fits) (hm : Linked fits m) (h : Quiet m m') :
    Linked fits m' := by
  intro id task htask profileID hid
  obtain ⟨before, hbefore, hsettled⟩ := h.symm.getTask htask
  have hroute : before.routeProfileID = task.routeProfileID :=
    (congrArg Task.routeProfileID hsettled :)
  obtain ⟨profile, hprofile, hfit⟩ := hm id before hbefore profileID (hroute ▸ hid)
  obtain ⟨profile', hprofile', hsettled'⟩ := h.routes.getRouteProfile hprofile
  exact ⟨profile', hprofile', hfits.settled hsettled.symm hsettled' hfit⟩

/-- The links are kept by the system where updated profiles go on to fit. -/
theorem keeps (hfits : Fits host fits) (allowedSerial : Input → Call → Memory → Prop)
    (hupdate : ∀ profile origin m i,
      Call.stored host i m (.updateRouteProfile profile origin) = true →
      allowedSerial i (.updateRouteProfile profile origin) m →
      ∀ k task row, m.store.getTask k = .ok task → profile.id ∈ task.routeProfileID →
        m.store.getRouteProfile profile.id = .ok row → fits task row → fits task profile) :
    (system host).Keeps (Linked fits) Quiet (Justified host (Linked fits))
      (fun c _ ↦ c.free = true) allowedSerial fun _ _ _ ↦ True := by
  refine keeps_of (fun c m i hm hc hstored hallowed ↦ ?_) (fun id checked m i hm _ _ ↦ ?_)
    fun change m m' hm h ↦ hm.quiet hfits (quiet_of_change h)
  · refine hm.exec hfits i hc fun profile origin heq ↦ ?_
    subst heq
    exact hupdate profile origin m i hstored hallowed
  · exact hm.quiet hfits (quiet_of_free i rfl m)

end Linked

/-- The profile of each live task is null or the identity of a live profile. -/
def References (m : Memory) : Prop :=
  ∀ id task, m.store.getTask id = .ok task → ∀ profileID ∈ task.routeProfileID,
    ∃ profile, m.store.getRouteProfile profileID = .ok profile

theorem linked_iff_references : Linked (fun _ _ ↦ True) m ↔ References m := by
  simp only [Linked, References, and_true]

/-- In every run of requests from a store in which live tasks name live profiles, they
do so in every state, whatever the order of the calls. -/
theorem tasks_reference_live_profiles (host : Host) {start : Memory} (hstart : References start)
    {actions : List (Action Request String Input Change)}
    {s : State Call.Answer Memory Reply}
    (hrun : Transition.run (system host).step ⟨start, none, []⟩ actions = some s) :
    ∀ id task, s.shared.store.getTask id = .ok task → ∀ profileID ∈ task.routeProfileID,
      ∃ profile, s.shared.store.getRouteProfile profileID = .ok profile := by
  have hfits : Fits host (fun _ _ ↦ True) := ⟨fun _ ↦ trivial, fun _ _ _ _ _ _ _ _ _ ↦ trivial⟩
  have hkeeps := Linked.keeps hfits (fun _ _ _ ↦ True)
    fun _ _ _ _ _ _ _ _ _ _ _ _ _ ↦ trivial
  exact linked_iff_references.mp (hkeeps.run_all (linked_iff_references.mpr hstart) hrun)

/-! ## A run on a host with two addresses -/

/-- Two addresses have their dotted texts, the others their number. -/
def numberedNet : Net where
  parseIP text :=
    if text = "192.0.2.10" then some 0xffffc000020a
    else if text = "192.0.2.20" then some 0xffffc0000214
    else
      match text.toList with
      | ':' :: digits =>
          if digits.all Char.isDigit then
            some (BitVec.ofNat 128 (Nat.ofDigitChars 10 digits 0))
          else none
      | _ => none
  ipString ip :=
    if ip = 0xffffc000020a then "192.0.2.10"
    else if ip = 0xffffc0000214 then "192.0.2.20"
    else String.ofList (':' :: Nat.toDigits 10 ip.toNat)

theorem lawful_numberedNet : LawfulNet numberedNet where
  parseIP_ipString ip := by
    unfold numberedNet
    dsimp only
    split
    · rename_i hip
      rw [hip]
      rfl
    · split
      · rename_i hip
        rw [hip]
        rfl
      · have hhead : ∀ text : String, text.toList.head? = some '1' →
            String.ofList (':' :: Nat.toDigits 10 ip.toNat) ≠ text := by
          rintro _ htext rfl
          rw [String.toList_ofList] at htext
          cases htext
        rw [if_neg (hhead _ rfl), if_neg (hhead _ rfl), String.toList_ofList]
        have hdigits : (Nat.toDigits 10 ip.toNat).all Char.isDigit = true :=
          List.all_eq_true.mpr fun c hc ↦ Nat.isDigit_of_mem_toDigits (by decide) (by decide) hc
        simp [hdigits]
  trimmed_ipString ip := by
    have hdigit : ∀ c : Char, c.isDigit = true → Providers.isSpace c.toNat = false := by
      intro c hc
      obtain ⟨hlow, hhigh⟩ := Char.isDigit_iff_toNat.mp hc
      have hzero : ('0' : Char).toNat = 48 := rfl
      have hnine : ('9' : Char).toNat = 57 := rfl
      simp [Providers.isSpace]
      omega
    have hten : ("192.0.2.10".toList.all fun c ↦ !Providers.isSpace c.toNat) = true := by decide
    have htwenty : ("192.0.2.20".toList.all fun c ↦ !Providers.isSpace c.toNat) = true := by
      decide
    refine trimmed_of_no_space fun c hc ↦ ?_
    unfold numberedNet at hc
    dsimp only at hc
    split at hc
    · simpa using List.all_eq_true.mp hten c hc
    · split at hc
      · simpa using List.all_eq_true.mp htwenty c hc
      · rw [String.toList_ofList] at hc
        rcases List.mem_cons.mp hc with rfl | hc
        · rfl
        · exact hdigit c (Nat.isDigit_of_mem_toDigits (by decide) (by decide) hc)

/-- UTC and two expressions. -/
def utcZones : Scheduling.Env where
  loadLocation name := if name = "UTC" then some ⟨fun _ ↦ 0⟩ else none
  parse spec :=
    if spec = "0 * * * *" ∨ spec = "CRON_TZ=UTC 0 * * * *" ∨ spec = "0 3 * * 0" then
      some ⟨fun _ t ↦ (t / 3600000000000 + 1) * 3600000000000⟩
    else none

/-- A host on which one provider accepts the automatic mode. -/
def smallHost : Host where
  execution := ⟨numberedNet, "1.0.0", fun name ↦ "\"" ++ name ++ "\""⟩
  lawful := lawful_numberedNet
  lower := Char.toLower
  zones := utcZones
  provider
    | .cloudflare => some fun target ↦
        if target.selectionMode = "automatic" then none
        else some "Cloudflare only supports automatic target selection"
    | _ => none
  isUUID id := id.length = 36

/-- The interfaces of the two addresses. -/
def twoInterfaces : List NetworkInterface :=
  [⟨"eth0", true, ["192.0.2.10"]⟩, ⟨"eth1", true, ["192.0.2.20"]⟩]

def emptyMemory : Memory := ⟨migrated, twoInterfaces, fun _ ↦ none⟩

/-- Every call is served, and the routes to all targets use the first interface. -/
def servedInput (uuid : String) : Input where
  served := true
  now := 0
  uuid := uuid
  answers := oneInterface
  preflight := none
  scheduled := none

/-- A request from its first call to its answer. -/
def requestRun (request : Request) (inputs : List Input) :
    List (Action Request String Input Change) :=
  .acquire request :: inputs.map .advance ++ [.release]

def wanProfile : RouteProfileInput :=
  ⟨"WAN", "", "eth0", "192.0.2.10", "", "", "", ""⟩

/-- A disabled task with the profile. -/
def wanTask (profileID : String) : TaskInput where
  name := "WAN task"
  description := none
  enabled := false
  provider := .cloudflare
  cronExpression := none
  timezone := none
  randomJitterSeconds := none
  serverSelectionMode := none
  serverID := none
  serverURL := none
  customServerDefinition := none
  interfaceName := "eth0"
  sourceIP := "192.0.2.10"
  ipFamily := none
  routeProfileID := some (some profileID)
  timeoutSeconds := none
  providerOptions := none
  preventOverlap := none
  routeValidation := none

/-- A profile and a task that refers to it are created. -/
def attachedRun : List (Action Request String Input Change) :=
  requestRun (.createRouteProfile (some wanProfile)) (List.replicate 2 (servedInput "profile")) ++
  requestRun (.createTask (some (wanTask "profile"))) (List.replicate 6 (servedInput "task"))

def smallRun (actions : List (Action Request String Input Change)) :
    Option (State Call.Answer Memory Reply) :=
  Transition.run (system smallHost).step ⟨emptyMemory, none, []⟩ actions

theorem references_empty : References emptyMemory := by
  intro id task htask
  cases htask

/-- The deletion of the profile is refused as long as the task is there. -/
theorem tasks_reference_live_profiles_attached :
    ∃ s, smallRun (attachedRun ++ requestRun (.deleteRouteProfile "profile")
        (List.replicate 2 (servedInput ""))) = some s ∧
      ∀ id task, s.shared.store.getTask id = .ok task → ∀ profileID ∈ task.routeProfileID,
        ∃ profile, s.shared.store.getRouteProfile profileID = .ok profile := by
  obtain ⟨s, hs⟩ := Option.isSome_iff_exists.mp
    (show (smallRun (attachedRun ++ requestRun (.deleteRouteProfile "profile")
      (List.replicate 2 (servedInput "")))).isSome = true by decide +kernel)
  exact ⟨s, hs, tasks_reference_live_profiles smallHost references_empty hs⟩

end MultiSpeed.Configuring
