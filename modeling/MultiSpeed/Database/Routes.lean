import MultiSpeed.Database.Configuration
import MultiSpeed.Providers.Output

/-!
# Route-profile and settings statements

The writes of `internal/database/routes.go` and `settings.go`.  Each has one lemma
that says what it does to the key map of `route_profiles` or to the settings row and
that it leaves the other tables alone.
-/

namespace MultiSpeed.Database

namespace Store

/-- The tables that no statement on `route_profiles` touches. -/
structure SameExceptRoutes (s s' : Store) : Prop where
  tasks : s'.tasks = s.tasks
  results : s'.results = s.results
  settings : s'.settings = s.settings

theorem SameExceptRoutes.task? {s s' : Store} (h : SameExceptRoutes s s') (id : String) :
    s'.task? id = s.task? id := by
  simp [Store.task?, h.tasks]

/-- The end of a write to `route_profiles`. -/
def writeRoutes (s : Store) : Option RouteTable → Except StoreError Store
  | none => .error .constraint
  | some routes => commit s.tasks routes s.results s.settings

theorem writeRoutes_ok {s s' : Store} {routes : Option RouteTable}
    (h : s.writeRoutes routes = .ok s') :
    routes = some s'.routes ∧ SameExceptRoutes s s' := by
  cases routes with
  | none => simp [writeRoutes] at h
  | some routes =>
      obtain ⟨htasks, hroutes, hresults, hsettings⟩ := commit_eq_ok_iff.mp h
      exact ⟨by rw [hroutes], htasks, hresults, hsettings⟩

/-! ## Columns -/

/-- The identity and the times `CreateRouteProfile` fills in. -/
def newRoute (profile : RouteProfile) (uuid : String) (now : Time) : RouteProfile :=
  { profile with
    id := if profile.id = "" then uuid else profile.id
    createdAt := now
    updatedAt := now }

/-- The columns `UpdateRouteProfile` sets. -/
def assignRoute (profile : RouteProfile) (now : Time) (row : RouteProfile) : RouteProfile :=
  { row with
    name := profile.name
    description := profile.description
    interfaceName := profile.interfaceName
    sourceIP := profile.sourceIP
    expectedGateway := profile.expectedGateway
    expectedRoutingTable := profile.expectedRoutingTable
    validationTarget := profile.validationTarget
    notes := profile.notes
    updatedAt := now
    lastValidationAt := profile.lastValidationAt
    lastValidationSucceeded := profile.lastValidationSucceeded
    lastValidationSnapshot := profile.lastValidationSnapshot }

/-- `json.Marshal` of a validation. -/
def validationFields (validation : RouteValidation) : JsonObject :=
  [("success", .bool validation.success), ("interfaceName", .string validation.interfaceName),
    ("sourceIp", .string validation.sourceIP), ("gateway", .string validation.gateway),
    ("routingTable", .string validation.routingTable),
    ("destination", .string validation.destination),
    ("detectedPublicIp", .string validation.detectedPublicIP),
    ("reachable", .bool validation.reachable), ("durationMs", .number validation.durationMS),
    ("validatedAt", .time validation.validatedAt),
    ("message", .string (Providers.decoded validation.message))]

/-- The columns `UpdateRouteValidation` sets. -/
def assignValidation (validation : RouteValidation) (now : Time) (row : RouteProfile) :
    RouteProfile :=
  { row with
    lastValidationAt := some validation.validatedAt
    lastValidationSucceeded := some validation.success
    lastValidationSnapshot := some (validationFields validation)
    updatedAt := now }

/-! ## Statements -/

def createRouteProfile (s : Store) (profile : RouteProfile) (uuid : String) (now : Time) :
    Except StoreError (RouteProfile × Store) :=
  if !encodableMap profile.lastValidationSnapshot then .error .encoding
  else
    match s.writeRoutes
        (s.routes.insert { newRoute profile uuid now with deletedAt := none }) with
    | .error e => .error e
    | .ok s' => .ok (newRoute profile uuid now, s')

/-- `UPDATE route_profiles SET f WHERE id=? AND deleted_at IS NULL`, where no affected
row is reported as not found. -/
def updateLiveRoute (s : Store) (id : String) (f : RouteProfile → RouteProfile)
    (hf : ∀ profile, (f profile).id = profile.id) : Except StoreError Store :=
  match s.getRouteProfile id with
  | .error e => .error e
  | .ok _ => s.writeRoutes (s.routes.update (fun row ↦ row.id = id && row.live) f hf)

def updateRouteProfile (s : Store) (profile : RouteProfile) (now : Time) :
    Except StoreError Store :=
  if !encodableMap profile.lastValidationSnapshot then .error .encoding
  else s.updateLiveRoute profile.id (assignRoute profile now) fun _ ↦ rfl

def updateRouteValidation (s : Store) (id : String) (validation : RouteValidation)
    (now : Time) : Except StoreError Store :=
  if !encodableMap (some (validationFields validation)) then .error .encoding
  else s.updateLiveRoute id (assignValidation validation now) fun _ ↦ rfl

/-- Some live task refers to the profile. -/
def routeInUse (s : Store) (id : String) : Bool :=
  s.tasks.rows.any fun task ↦ task.routeProfileID = some id && task.live

/-- The conditional `UPDATE` of `DeleteRouteProfile`; `notFound` when no row is affected. -/
def markRouteDeleted (s : Store) (id : String) (now : Time) : Except StoreError Store :=
  if s.routeInUse id then .error .notFound
  else s.updateLiveRoute id (assignRetiredRoute now) fun _ ↦ rfl

/-- The second query of `DeleteRouteProfile`, which names the reason. -/
def deleteRouteReason (s : Store) (id : String) : StoreError :=
  match s.getRouteProfile id with
  | .ok _ => if s.routeInUse id then .inUse else .notFound
  | .error _ => .notFound

/-- `ListRouteProfiles`, the query of `Configuration`. -/
def listRouteProfiles (s : Store) : Except StoreError (List RouteProfile) :=
  s.listConfigurationRoutes

def updateSettings (s : Store) (settings : Settings) : Except StoreError Store :=
  commit s.tasks s.routes s.results (assignSettings settings s.settings)

/-- The review marker of the release. -/
def currentOoklaEULAVersion : String := "ookla-eula-terms-privacy-review-2026-08-11"

/-- The columns `SetOoklaEULAAcceptance` sets. -/
def assignAcceptance (accepted : Bool) (now : Time) (row : Settings) : Settings :=
  { row with
    ooklaEULAAccepted := accepted
    ooklaEULAAcceptedAt := if accepted then some now else none
    ooklaEULAVersion := if accepted then some currentOoklaEULAVersion else none }

def setOoklaEULAAcceptance (s : Store) (accepted : Bool) (now : Time) : Except StoreError Store :=
  commit s.tasks s.routes s.results (assignAcceptance accepted now s.settings)

/-! ## What the writes do -/

theorem routeInUse_eq_false_iff {s : Store} {id : String} :
    s.routeInUse id = false ↔
      ∀ k task, s.task? k = some task → task.live = true → task.routeProfileID ≠ some id := by
  unfold routeInUse
  rw [Table.any_eq_false_iff]
  refine forall_congr' fun k ↦ forall_congr' fun task ↦ imp_congr_right fun _ ↦ ?_
  rw [Bool.and_eq_false_iff, decide_eq_false_iff_not]
  constructor
  · intro h hlive
    rcases h with hne | hdead
    · exact hne
    · rw [hlive] at hdead
      cases hdead
  · intro h
    cases hlive : task.live with
    | true => exact .inl (h hlive)
    | false => exact .inr rfl

theorem createRouteProfile_ok {s s' : Store} {profile created : RouteProfile} {uuid : String}
    {now : Time} (h : s.createRouteProfile profile uuid now = .ok (created, s')) :
    created = newRoute profile uuid now ∧
      s.route? created.id = none ∧
      (∀ k, s'.route? k =
        if created.id = k then some { created with deletedAt := none } else s.route? k) ∧
      SameExceptRoutes s s' := by
  unfold createRouteProfile at h
  split at h
  · cases h
  · split at h
    · cases h
    · rename_i u hu
      cases h
      obtain ⟨hinsert, hsame⟩ := writeRoutes_ok hu
      exact ⟨rfl, Table.find?_none_of_insert hinsert, Table.find?_insert hinsert, hsame⟩

theorem updateLiveRoute_ok {s s' : Store} {id : String} {f : RouteProfile → RouteProfile}
    {hf : ∀ profile, (f profile).id = profile.id} (h : s.updateLiveRoute id f hf = .ok s') :
    ∃ row, s.route? id = some row ∧ row.live = true ∧
      (∀ k, s'.route? k = if id = k then some (f row) else s.route? k) ∧
      SameExceptRoutes s s' := by
  unfold updateLiveRoute at h
  split at h
  · cases h
  · rename_i row hrow
    obtain ⟨hfind, hlive⟩ := getRouteProfile_eq_ok_iff.mp hrow
    obtain ⟨hupdate, hsame⟩ := writeRoutes_ok h
    refine ⟨row, hfind, hlive, fun k ↦ ?_, hsame⟩
    have hk : s'.route? k = (s.route? k).map _ := Table.find?_update hupdate k
    rw [hk]
    by_cases hid : id = k
    · subst hid
      simp [hfind, route?_id hfind, hlive]
    · rw [if_neg hid]
      cases hother : s.route? k with
      | none => rfl
      | some other =>
          have hne : other.id ≠ id := fun heq ↦ hid (heq.symm.trans (route?_id hother))
          simp [hne]

theorem updateRouteProfile_ok {s s' : Store} {profile : RouteProfile} {now : Time}
    (h : s.updateRouteProfile profile now = .ok s') :
    ∃ row, s.route? profile.id = some row ∧ row.live = true ∧
      (∀ k, s'.route? k =
        if profile.id = k then some (assignRoute profile now row) else s.route? k) ∧
      SameExceptRoutes s s' := by
  unfold updateRouteProfile at h
  split at h
  · cases h
  · exact updateLiveRoute_ok h

theorem updateRouteValidation_ok {s s' : Store} {id : String} {validation : RouteValidation}
    {now : Time} (h : s.updateRouteValidation id validation now = .ok s') :
    ∃ row, s.route? id = some row ∧ row.live = true ∧
      (∀ k, s'.route? k =
        if id = k then some (assignValidation validation now row) else s.route? k) ∧
      SameExceptRoutes s s' := by
  unfold updateRouteValidation at h
  split at h
  · cases h
  · exact updateLiveRoute_ok h

/-- A deleted profile was not in use. -/
theorem markRouteDeleted_ok {s s' : Store} {id : String} {now : Time}
    (h : s.markRouteDeleted id now = .ok s') :
    s.routeInUse id = false ∧
      ∃ row, s.route? id = some row ∧ row.live = true ∧
        (∀ k, s'.route? k =
          if id = k then some (assignRetiredRoute now row) else s.route? k) ∧
        SameExceptRoutes s s' := by
  unfold markRouteDeleted at h
  split at h
  · cases h
  · rename_i hunused
    exact ⟨by simpa using hunused, updateLiveRoute_ok h⟩

/-- The tables that a write to the settings row leaves alone. -/
theorem commit_settings_ok {s s' : Store} {settings : Settings}
    (h : commit s.tasks s.routes s.results settings = .ok s') :
    s'.tasks = s.tasks ∧ s'.routes = s.routes ∧ s'.settings = settings := by
  obtain ⟨htasks, hroutes, -, hsettings⟩ := commit_eq_ok_iff.mp h
  exact ⟨htasks, hroutes, hsettings⟩

end Store

end MultiSpeed.Database
