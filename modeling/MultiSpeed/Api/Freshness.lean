import MultiSpeed.Api.Agreement

/-!
# Recorded validations

The record of a profile is written by the validation of the profile and, without the
mutex, by that of a saved task; an update of the profile copies it and an import clears
it.  A record of a success is for the current path of the profile as long as neither the
copy nor the record of a task's validation is for another path.
-/

namespace MultiSpeed.Configuring

open Api Concurrent Database Execution Network

/-- The columns of a profile that a validation depends on. -/
structure RoutePath where
  interfaceName : String
  sourceIP : String
  expectedGateway : String
  expectedRoutingTable : String
  validationTarget : String
  deriving DecidableEq

end MultiSpeed.Configuring

namespace MultiSpeed

def RouteProfile.path (profile : RouteProfile) : Configuring.RoutePath where
  interfaceName := profile.interfaceName
  sourceIP := profile.sourceIP
  expectedGateway := profile.expectedGateway
  expectedRoutingTable := profile.expectedRoutingTable
  validationTarget := profile.validationTarget

end MultiSpeed

namespace MultiSpeed.Configuring

open Api Concurrent Database Execution Network

variable {host : Host} {m m' : Memory}

theorem path_eq_of_settled {profile profile' : RouteProfile}
    (h : profile'.settled = profile.settled) : profile'.path = profile.path :=
  (congrArg RouteProfile.path h :)

/-- Two profiles with one path are validated alike. -/
theorem validate_congr {env : Env} {lower : Char → Char} {answers : Answers}
    {profile profile' : RouteProfile} (h : profile'.path = profile.path) :
    Network.validate env lower answers profile' = Network.validate env lower answers profile := by
  obtain ⟨hinterface, hsource, hgateway, htable, htarget⟩ := RoutePath.mk.inj h
  simp only [Network.validate, routeMismatch, hinterface, hsource, hgateway, htable, htarget]

theorem setOrigin_origin (id k : String) (origin : Option Checked) :
    (m.setOrigin id origin).origin k = if id = k then origin else m.origin k := rfl

/-! ## The invariant -/

/-- The record of the profile is that validation. -/
structure Records (validation : RouteValidation) (row : RouteProfile) : Prop where
  validatedAt : row.lastValidationAt = some validation.validatedAt
  success : row.lastValidationSucceeded = some validation.success
  snapshot : row.lastValidationSnapshot = some (Store.validationFields validation)

/-- The record of the profile is a validation of its path. -/
def FreshRecord (host : Host) (origin : Option Checked) (row : RouteProfile) : Prop :=
  ∃ checked, origin = some checked ∧ Records (checked.record host) row ∧
    checked.profile.path = row.path

/-- Every record of a success is fresh. -/
def Fresh (host : Host) (m : Memory) : Prop :=
  ∀ id row, m.store.getRouteProfile id = .ok row → row.lastValidationSucceeded = some true →
    FreshRecord host (m.origin id) row

/-- An update keeps the record it has read. -/
theorem Records.copied {validation : RouteValidation} {existing row : RouteProfile}
    {input : RouteProfileInput} {id : String} {now : Time} (h : Records validation existing) :
    Records validation
      (Store.assignRoute (RouteProfileInput.over host input id existing) now row) where
  validatedAt := h.validatedAt
  success := h.success
  snapshot := by
    change some (existing.lastValidationSnapshot.getD []) = _
    rw [h.snapshot, Option.getD_some]

/-- A live profile after a write is the written one or was there before. -/
theorem getRouteProfile_of_write {s s' : Store} {id k : String} {written row : RouteProfile}
    (h : ∀ k, s'.route? k = if id = k then some written else s.route? k)
    (hrow : s'.getRouteProfile k = .ok row) :
    id = k ∧ row = written ∧ written.live = true ∨
      id ≠ k ∧ s.getRouteProfile k = .ok row := by
  obtain ⟨hfind, hlive⟩ := Store.getRouteProfile_eq_ok_iff.mp hrow
  rw [h] at hfind
  split at hfind
  · rename_i hk
    obtain rfl := Option.some.inj hfind
    exact .inl ⟨hk, rfl, hlive⟩
  · rename_i hk
    exact .inr ⟨hk, Store.getRouteProfile_eq_ok_iff.mpr ⟨hfind, hlive⟩⟩

namespace Fresh

theorem of_same {store : Store} {interfaces : List NetworkInterface} (hm : Fresh host m)
    (hroutes : store.routes = m.store.routes) : Fresh host ⟨store, interfaces, m.origin⟩ := by
  intro id row hrow hsucceeded
  refine hm id row ?_ hsucceeded
  rw [← hrow]
  exact (getRouteProfile_congr (by rw [Store.route?, hroutes, Store.route?])).symm

/-- A write of one profile keeps the records fresh where the written one is fresh. -/
theorem of_route {id : String} {written : RouteProfile} {store : Store}
    {origin : Option Checked} (hm : Fresh host m)
    (hwrite : ∀ k, store.route? k = if id = k then some written else m.store.route? k)
    (hwritten : written.live = true → written.lastValidationSucceeded = some true →
      FreshRecord host origin written) :
    Fresh host (({ m with store := store } : Memory).setOrigin id origin) := by
  intro k row hrow hsucceeded
  rw [setOrigin_origin]
  obtain ⟨rfl, rfl, hlive⟩ | ⟨hk, hbefore⟩ := getRouteProfile_of_write hwrite hrow
  · rw [if_pos rfl]
    exact hwritten hlive hsucceeded
  · rw [if_neg hk]
    exact hm k row hbefore hsucceeded

/-- A write of one profile that leaves its origin alone. -/
theorem of_dead {id : String} {written : RouteProfile} {store : Store} (hm : Fresh host m)
    (hwrite : ∀ k, store.route? k = if id = k then some written else m.store.route? k)
    (hdead : written.live = false) : Fresh host { m with store := store } := by
  intro k row hrow hsucceeded
  obtain ⟨-, -, hlive⟩ | ⟨-, hbefore⟩ := getRouteProfile_of_write hwrite hrow
  · rw [hdead] at hlive
    cases hlive
  · exact hm k row hbefore hsucceeded

/-- The profiles of an accepted document have no record. -/
theorem of_replaced {settings : Settings} {routes : List RouteProfile} {tasks : List Task}
    {now : Time} {interfaces : ℕ → List NetworkInterface} {s s' : Store}
    (hdocument : DocumentChecked host interfaces settings routes tasks)
    (h : s.replaceConfiguration settings routes tasks now = .ok s')
    (origin : String → Option Checked) : Fresh host ⟨s', m.interfaces, origin⟩ := by
  intro k row hrow hsucceeded
  obtain ⟨hfind, hlive⟩ := Store.getRouteProfile_eq_ok_iff.mp hrow
  have hreplaced := replaced_of_ok hdocument.routesDistinct hdocument.tasksDistinct h
  obtain ⟨profile, hprofile, rfl⟩ :=
    List.mem_map.mp ((hreplaced.liveRoutes k).mp ⟨row, hfind, hlive⟩)
  rw [route?_listed hdocument.routesDistinct h hprofile] at hfind
  obtain rfl := Option.some.inj hfind
  cases hstored : s.route? profile.id with
  | none | some row =>
      rw [hstored] at hsucceeded
      cases hsucceeded

end Fresh

/-! ## The calls -/

/-- A profile that keeps a record of a success keeps its path. -/
def CopiesCurrent (c : Call) (m : Memory) : Prop :=
  ∀ profile ∈ c.updatedRoute, profile.lastValidationSucceeded = some true →
    ∀ row ∈ m.store.route? profile.id, profile.path = row.path

instance (c : Call) (m : Memory) : Decidable (CopiesCurrent c m) :=
  inferInstanceAs (Decidable (∀ profile ∈ c.updatedRoute, _))

def Call.recordedValidation : Call → Option (String × Checked)
  | .updateRouteValidation id checked => some (id, checked)
  | _ => none

/-- A success that a task's validation records is for the path the profile has. -/
def RecordsCurrent (host : Host) (c : Call) (m : Memory) : Prop :=
  ∀ recorded ∈ c.recordedValidation, (recorded.2.record host).success = true →
    ∀ row ∈ m.store.route? recorded.1, recorded.2.profile.path = row.path

instance (host : Host) (c : Call) (m : Memory) : Decidable (RecordsCurrent host c m) :=
  inferInstanceAs (Decidable (∀ recorded ∈ c.recordedValidation, _))

namespace Fresh

/-- A validation of the current path is recorded. -/
theorem of_updateRouteValidation {id : String} {checked : Checked} {now : Time} {store : Store}
    (hm : Fresh host m)
    (h : m.store.updateRouteValidation id (checked.record host) now = .ok store)
    (hpath : (checked.record host).success = true →
      ∀ row ∈ m.store.route? id, checked.profile.path = row.path) :
    Fresh host (({ m with store := store } : Memory).setOrigin id (some checked)) := by
  obtain ⟨row, hrow, -, hwrite, -⟩ := Store.updateRouteValidation_ok h
  refine hm.of_route hwrite fun _ hsucceeded ↦ ⟨checked, rfl, ⟨rfl, rfl, rfl⟩, ?_⟩
  have hsuccess : (checked.record host).success = true := Option.some.inj hsucceeded
  exact hpath hsuccess row hrow

/-- An update of a profile copies its record. -/
theorem of_updateRouteProfile {profile : RouteProfile} {input : RouteProfileInput}
    {stored : Stored} {now : Time} {store : Store} (hm : Fresh host m)
    (hread : Read (Fresh host) m profile.id stored)
    (hprofile : profile = RouteProfileInput.over host input profile.id stored.profile)
    (hpath : profile.lastValidationSucceeded = some true →
      ∀ row ∈ m.store.route? profile.id, profile.path = row.path)
    (h : m.store.updateRouteProfile profile now = .ok store) :
    Fresh host (({ m with store := store } : Memory).setOrigin profile.id stored.origin) := by
  obtain ⟨row, hrow, hlive, hwrite, -⟩ := Store.updateRouteProfile_ok h
  refine hm.of_route hwrite fun _ hsucceeded ↦ ?_
  have hcopied : profile.lastValidationSucceeded = some true := hsucceeded
  obtain ⟨m₀, hm₀, hanswer, hroutes⟩ := hread.before
  obtain ⟨before, hbefore, rfl⟩ := Database.Except.map_ok hanswer
  have hold : before.lastValidationSucceeded = some true := by
    rw [hprofile] at hcopied
    exact hcopied
  obtain ⟨checked, horigin, hrecord, hchecked⟩ := hm₀ _ _ hbefore hold
  refine ⟨checked, horigin, ?_, ?_⟩
  · rw [hprofile]
    exact hrecord.copied
  · -- the row still has the path that was read
    obtain ⟨row', hrow', hsettled⟩ := hroutes.getRouteProfile hbefore
    obtain ⟨hfind, -⟩ := Store.getRouteProfile_eq_ok_iff.mp hrow'
    obtain rfl : row = row' := Option.some.inj (hrow.symm.trans hfind)
    have hwritten : (Store.assignRoute profile now row).path = profile.path := rfl
    rw [hwritten, hpath hcopied row hrow, path_eq_of_settled hsettled, hchecked]

/-- Every justified and allowed call keeps the records fresh. -/
theorem exec (i : Input) {c : Call} (hm : Fresh host m) (hc : Justified host (Fresh host) c m)
    (hcopies : CopiesCurrent c m) : Fresh host (Configuring.exec host i c m).1 := by
  have heffect := exec_effect host i c m
  generalize (Configuring.exec host i c m).1 = m' at heffect ⊢
  cases heffect with
  | none => exact hm
  | createTask hok =>
      obtain ⟨-, -, -, hsame⟩ := Store.createTask_ok hok
      exact hm.of_same hsame.routes
  | updateTask hok =>
      obtain ⟨-, -, -, -, hsame⟩ := Store.updateTask_ok hok
      exact hm.of_same hsame.routes
  | markTaskDeleted hok =>
      obtain ⟨-, -, -, -, -, hsame⟩ := Store.markTaskDeleted_ok hok
      exact hm.of_same hsame.routes
  | createRouteProfile hok =>
      obtain ⟨input, rfl, -⟩ := hc
      obtain ⟨rfl, -, hwrite, -⟩ := Store.createRouteProfile_ok hok
      exact hm.of_route hwrite fun _ hsucceeded ↦ by cases hsucceeded
  | updateRouteProfile hok =>
      obtain ⟨input, stored, hread, rfl, hprofile, -⟩ := hc
      exact hm.of_updateRouteProfile hread hprofile (hcopies _ rfl) hok
  | updateRouteValidation hok =>
      obtain ⟨stored, hread, hchecked⟩ := hc
      refine hm.of_updateRouteValidation hok fun _ row hrow ↦ ?_
      obtain ⟨m₀, -, hanswer, hroutes⟩ := hread.before
      obtain ⟨before, hbefore, rfl⟩ := Database.Except.map_ok hanswer
      obtain ⟨row', hrow', hsettled⟩ := hroutes.getRouteProfile hbefore
      obtain ⟨hfind, -⟩ := Store.getRouteProfile_eq_ok_iff.mp hrow'
      obtain rfl : row = row' := Option.some.inj (hrow.symm.trans hfind)
      rw [hchecked, path_eq_of_settled hsettled]
  | markRouteDeleted hok =>
      obtain ⟨-, row, -, -, hwrite, -⟩ := Store.markRouteDeleted_ok hok
      exact hm.of_dead hwrite rfl
  | updateSettings hok =>
      obtain ⟨-, hroutes, -⟩ := Store.commit_settings_ok hok
      exact hm.of_same hroutes
  | replaceConfiguration hok =>
      obtain ⟨interfaces, document, hdocument⟩ := hc
      exact of_replaced (documentChecked_of_ok hdocument) hok _

/-- The changes beside the handlers leave the profiles alone. -/
theorem change {change : Change} (hm : Fresh host m) (h : m.change change = some m') :
    Fresh host m' := by
  cases change with
  | results statement =>
      simp only [Memory.change] at h
      split at h
      · rename_i hresults
        obtain ⟨store, hstore, rfl⟩ := Option.map_eq_some_iff.mp h
        exact hm.of_same (writesResults_same hresults (ok_of_toOption hstore)).routes
      · cases h
  | schedule taskID last next now =>
      obtain ⟨store, hstore, rfl⟩ := Option.map_eq_some_iff.mp h
      obtain ⟨-, -, -, -, hsame⟩ := Store.updateTaskSchedule_ok (ok_of_toOption hstore)
      exact hm.of_same hsame.routes
  | acceptance accepted now =>
      obtain ⟨store, hstore, rfl⟩ := Option.map_eq_some_iff.mp h
      obtain ⟨-, hroutes, -⟩ := Store.commit_settings_ok (ok_of_toOption hstore)
      exact hm.of_same hroutes
  | interfaces items =>
      obtain rfl := Option.some.inj h
      exact hm.of_same rfl

/-- A task's validation that is recorded for the path the profile has. -/
theorem validation (id : String) (checked : Checked) (i : Input) (hm : Fresh host m)
    (hcurrent : RecordsCurrent host (.updateRouteValidation id checked) m) :
    Fresh host (Configuring.exec host i (.updateRouteValidation id checked) m).1 := by
  have heffect := exec_effect host i (.updateRouteValidation id checked) m
  generalize (Configuring.exec host i (.updateRouteValidation id checked) m).1 = m' at heffect ⊢
  cases heffect with
  | none => exact hm
  | updateRouteValidation hok => exact hm.of_updateRouteValidation hok (hcurrent _ rfl)

end Fresh

/-- A fresh record of a success is that of a validation which has seen what the profile
now requires. -/
theorem FreshRecord.validated {origin : Option Checked} {row : RouteProfile}
    (h : FreshRecord host origin row) (hsucceeded : row.lastValidationSucceeded = some true) :
    ∃ checked, origin = some checked ∧ Records (checked.record host) row ∧
      checked.profile.path = row.path ∧
      Validated host.execution host.lower checked.answers row := by
  obtain ⟨checked, horigin, hrecord, hpath⟩ := h
  have hsuccess : (checked.record host).success = true :=
    Option.some.inj (hrecord.success.symm.trans hsucceeded)
  rw [Checked.record, ← validate_congr hpath.symm] at hsuccess
  exact ⟨checked, horigin, hrecord, hpath, validated_of_success hsuccess⟩

/-- In every run whose stored updates of profiles keep a record of a success only with the path
it is for, and in which a success of a task's validation is recorded only for the path
it was for, every recorded success is that of a validation of the current path. -/
theorem recorded_successes_are_fresh (host : Host) {start : Memory} (hstart : Fresh host start)
    {actions : List (Action Request String Input Change)}
    (hcurrent : Transition.Guarded (system host).step
      (System.Allowed (WhereStored host CopiesCurrent) (WhereStored host (RecordsCurrent host)))
      ⟨start, none, []⟩ actions)
    {s : State Call.Answer Memory Reply}
    (hrun : Transition.run (system host).step ⟨start, none, []⟩ actions = some s) :
    ∀ id row, s.shared.store.getRouteProfile id = .ok row →
      row.lastValidationSucceeded = some true →
      ∃ checked, s.shared.origin id = some checked ∧ Records (checked.record host) row ∧
        checked.profile.path = row.path ∧
        Validated host.execution host.lower checked.answers row := by
  have hkeeps : (system host).Keeps (Fresh host) Quiet (Justified host (Fresh host))
      (fun c _ ↦ c.free = true) (WhereStored host CopiesCurrent)
      (WhereStored host (RecordsCurrent host)) :=
    keeps_of (fun c m i hm hc hstored hcopies ↦ hm.exec i hc (hcopies hstored))
      (fun id checked m i hm hstored hrecords ↦ hm.validation id checked i (hrecords hstored))
      fun change m m' hm h ↦ hm.change h
  have hend : Fresh host s.shared := hkeeps.run hstart hcurrent hrun
  exact fun id row hrow hsucceeded ↦ (hend id row hrow hsucceeded).validated hsucceeded

/-! ## Records of other paths -/

/-- The profile with an address as its target. -/
def targetProfile (expectedGateway : String) : RouteProfileInput :=
  ⟨"WAN", "", "eth0", "192.0.2.10", expectedGateway, "", "192.0.2.20", ""⟩

/-- The profile is validated after it has been created. -/
def validatedRun : List (Action Request String Input Change) :=
  requestRun (.createRouteProfile (some (targetProfile "")))
    (List.replicate 2 (servedInput "profile")) ++
  requestRun (.validateRouteProfile "profile") (List.replicate 3 (servedInput ""))

/-- The update of the profile after its validation. -/
def retargetedRun (expectedGateway : String) : List (Action Request String Input Change) :=
  validatedRun ++ requestRun (.updateRouteProfile "profile" (some (targetProfile expectedGateway)))
    (List.replicate 3 (servedInput ""))

/-- A profile with a gateway no route has, a task that is checked for its interface
only, and the validation of the task. -/
def relaxedRun : List (Action Request String Input Change) :=
  requestRun (.createRouteProfile (some (targetProfile "192.0.2.20")))
    (List.replicate 2 (servedInput "profile")) ++
  requestRun (.createTask (some { wanTask "profile" with routeValidation := some "interface-only" }))
    (List.replicate 6 (servedInput "task")) ++
  .arrive "task" :: List.replicate 7 (.advanceOther 0 (servedInput ""))

theorem fresh_empty : Fresh smallHost emptyMemory := by
  intro id row hrow
  cases hrow

theorem recorded_successes_are_fresh_kept :
    ∃ s, smallRun (retargetedRun "") = some s ∧
      ∀ id row, s.shared.store.getRouteProfile id = .ok row →
        row.lastValidationSucceeded = some true →
        ∃ checked, s.shared.origin id = some checked ∧ Records (checked.record smallHost) row ∧
          checked.profile.path = row.path ∧
          Validated smallHost.execution smallHost.lower checked.answers row := by
  obtain ⟨s, hs⟩ := Option.isSome_iff_exists.mp
    (show (smallRun (retargetedRun "")).isSome = true by decide +kernel)
  exact ⟨s, hs, recorded_successes_are_fresh smallHost fresh_empty (by decide +kernel) hs⟩

/-- The profile named "profile" has a record of a success that is not for its path, and
a validation of its path with the same answers fails. -/
def staleRecord (s : State Call.Answer Memory Reply) : Bool :=
  match s.shared.store.getRouteProfile "profile", s.shared.origin "profile" with
  | .ok row, some checked => row.lastValidationSucceeded = some true ∧
      checked.profile.path ≠ row.path ∧
      (Network.validate smallHost.execution smallHost.lower checked.answers row).success = false
  | _, _ => false

/-- The run leaves a record of a success that is not for the path of the profile. -/
def LeavesStale (actions : List (Action Request String Input Change)) : Prop :=
  ∃ s, smallRun actions = some s ∧
    ∃ row checked, s.shared.store.getRouteProfile "profile" = .ok row ∧
      s.shared.origin "profile" = some checked ∧ row.lastValidationSucceeded = some true ∧
      checked.profile.path ≠ row.path ∧
      (Network.validate smallHost.execution smallHost.lower checked.answers row).success = false

theorem leavesStale_of_any {actions : List (Action Request String Input Change)}
    (h : (smallRun actions).any staleRecord = true) : LeavesStale actions := by
  obtain ⟨s, hs, hstale⟩ := (Option.any_eq_true _ _).mp h
  unfold staleRecord at hstale
  split at hstale
  · rename_i row checked hrow horigin
    obtain ⟨hsucceeded, hpath, hfails⟩ := of_decide_eq_true hstale
    exact ⟨s, hs, row, checked, hrow, horigin, hsucceeded, hpath, hfails⟩
  · cases hstale

/-- An update that requires another gateway keeps the record, and the validation of a
task records that of a relaxed copy. -/
theorem recorded_successes_are_fresh_stale :
    LeavesStale (retargetedRun "192.0.2.20") ∧ LeavesStale relaxedRun :=
  ⟨leavesStale_of_any (by decide +kernel), leavesStale_of_any (by decide +kernel)⟩

end MultiSpeed.Configuring
