import MultiSpeed.Execution.Jobs
import MultiSpeed.Network.Route

/-!
# A provider runs on the validated path only

The run of `execute` for one job, where every section finds a store of its own and
gets any answers, and the validation is the one `Validate` makes of the answers of
the network.
-/

namespace MultiSpeed.Execution

open Database Network

structure TestTarget where
  selectionMode : String
  serverID : String
  serverURL : String
  customServerDefinition : Option JsonObject

structure RunRequest where
  taskID : String
  interfaceName : String
  sourceIP : String
  ipFamily : String
  target : TestTarget
  timeoutSeconds : ℤ
  options : Option JsonObject

def runRequest (task : Task) : RunRequest where
  taskID := task.id
  interfaceName := task.interfaceName
  sourceIP := task.sourceIP
  ipFamily := task.ipFamily
  target := ⟨task.serverSelectionMode, task.serverID, task.serverURL,
    task.customServerDefinition⟩
  timeoutSeconds := task.timeoutSeconds
  options := task.providerOptions

/-- The request `provider.Run` is called with; no other section calls it. -/
def Phase.request? : Phase → Option RunRequest
  | .running job _ _ _ => some (runRequest job.task)
  | _ => none

/-- What one section of `execute` finds. -/
structure Section where
  store : Store
  limiter : RunLimiter
  input : WorkerInput
  answers : Answers

variable (env : Env) (lower : Char → Char)

/-- The input of the section, with the validation of the effective profile. -/
def Section.validated (x : Section) : Phase → WorkerInput
  | .validating job _ _ _ =>
      match routeProfileForTask env.net job.task job.routeProfile with
      | .ok profile =>
          { x.input with validation := Network.validate env lower x.answers profile }
      | .error _ => x.input
  | _ => x.input

def execute (phase : Phase) (x : Section) : Option Phase :=
  (phase.advance env (x.validated env lower phase) x.store x.limiter).map fun r ↦ r.2.2

variable {env lower}

theorem execute_eq_some {phase phase' : Phase} {x : Section}
    (h : execute env lower phase x = some phase') : ∃ store limiter,
      phase.advance env (x.validated env lower phase) x.store x.limiter =
        some (store, limiter, phase') := by
  obtain ⟨⟨store, limiter, reached⟩, hadvance, rfl⟩ := Option.map_eq_some_iff.mp h
  exact ⟨store, limiter, hadvance⟩

/-! ## The sections before the provider -/

/-- A worker has its job until it is idle. -/
theorem execute_work {job : Job} {phase phase' : Phase} {x : Section}
    (hphase : phase.work? = some job ∨ phase.work? = none)
    (h : execute env lower phase x = some phase') :
    phase'.work? = some job ∨ phase'.work? = none := by
  obtain ⟨store, limiter, hadvance⟩ := execute_eq_some h
  rcases advance_work hadvance with hsame | hnone
  · rw [hsame]
    exact hphase
  · exact .inr hnone

theorem running_of_available {phase : Phase} {x : Section} {job : Job} {timeout : ℤ}
    {started : Time} {result : RunResult job .running}
    (h : execute env lower phase x = some (.running job timeout started result)) :
    phase = .available job timeout started result ∧
      ∃ store, serve x.input.served (x.store.updateResult result.result) = .ok store := by
  obtain ⟨store, limiter, hadvance⟩ := execute_eq_some h
  cases phase with
  | available other limit begun written =>
      simp only [Phase.advance] at hadvance
      split at hadvance
      · cases hadvance
      · rename_i store' hserved
        cases hadvance
        exact ⟨rfl, _, hserved⟩
  | validating other limit begun written =>
      simp only [Phase.advance, validate] at hadvance
      repeat' split at hadvance
      all_goals cases hadvance
  | idle | received | acquiring | admitted | loaded | running | unloaded | closing | leaving =>
      simp only [Phase.advance] at hadvance
      repeat' split at hadvance
      all_goals cases hadvance

theorem available_of_validate {input : WorkerInput} {other job : Job} {limit timeout : ℤ}
    {begun started : Time} {written : RunResult other .validating}
    {result : RunResult job .running}
    (h : validate env input other limit begun written = .available job timeout started result) :
    other = job ∧ (∃ profile,
      routeProfileForTask env.net job.task job.routeProfile = .ok profile) ∧
      input.validation.success = true ∧ input.available = true := by
  unfold validate at h
  split at h
  · cases h
  · rename_i profile hprofile
    dsimp only at h
    split at h
    · cases h
    · rename_i hsuccess
      split at h
      · cases h
      · split at h
        · cases h
        · rename_i havailable
          cases h
          exact ⟨rfl, ⟨profile, hprofile⟩, by simpa using hsuccess, by simpa using havailable⟩

theorem available_of_validating {phase : Phase} {x : Section} {job : Job} {timeout : ℤ}
    {started : Time} {result : RunResult job .running}
    (h : execute env lower phase x = some (.available job timeout started result)) :
    ∃ profile, routeProfileForTask env.net job.task job.routeProfile = .ok profile ∧
      (Network.validate env lower x.answers profile).success = true ∧
      x.input.available = true := by
  obtain ⟨store, limiter, hadvance⟩ := execute_eq_some h
  cases phase with
  | validating other limit begun written =>
      simp only [Phase.advance, Option.some.injEq, Prod.mk.injEq] at hadvance
      obtain ⟨rfl, ⟨profile, hprofile⟩, hsuccess, havailable⟩ :=
        available_of_validate hadvance.2.2
      have hinput : x.validated env lower (.validating other limit begun written) =
          { x.input with validation := Network.validate env lower x.answers profile } := by
        rw [Section.validated, hprofile]
      rw [hinput] at hsuccess havailable
      exact ⟨profile, hprofile, hsuccess, havailable⟩
  | idle | received | acquiring | admitted | loaded | available | running | unloaded | closing
  | leaving =>
      simp only [Phase.advance] at hadvance
      repeat' split at hadvance
      all_goals cases hadvance

/-! ## The effective profile -/

/-- The profile the task names is the attached one, for the interface and the source
of the task. -/
def Attached (net : Net) (job : Job) : Prop :=
  ∀ id, job.task.routeProfileID = some id → ∃ stored, job.routeProfile = some stored ∧
    stored.id = id ∧ stored.interfaceName = job.task.interfaceName ∧
    sameIP net stored.sourceIP job.task.sourceIP = true

theorem sameIP_eq_true {net : Net} {first second : String} (h : sameIP net first second = true) :
    net.parseIP first = net.parseIP second := by
  unfold sameIP at h
  split at h
  · rename_i firstIP secondIP hfirst hsecond
    rw [hfirst, hsecond, of_decide_eq_true h]
  · cases h

/-- What the effective profile keeps of the task and of the attached profile. -/
structure Effective (net : Net) (job : Job) (profile : RouteProfile) : Prop where
  attached : Attached net job
  interface : profile.interfaceName = job.task.interfaceName
  source : net.parseIP profile.sourceIP = net.parseIP job.task.sourceIP
  expected : ∀ id stored, job.task.routeProfileID = some id → job.routeProfile = some stored →
    job.task.routeValidation ≠ "interface-only" →
      profile.expectedGateway = stored.expectedGateway ∧
      profile.expectedRoutingTable = stored.expectedRoutingTable

theorem effective_of_ok {net : Net} {job : Job} {profile : RouteProfile}
    (h : routeProfileForTask net job.task job.routeProfile = .ok profile) :
    Effective net job profile := by
  obtain ⟨resultID, task, routeProfile⟩ := job
  unfold routeProfileForTask at h
  cases hnamed : task.routeProfileID with
  | none =>
      simp only [hnamed] at h
      have hkept : profile.interfaceName = task.interfaceName ∧ profile.sourceIP = task.sourceIP := by
        split at h
        all_goals
          cases h
          exact ⟨rfl, rfl⟩
      refine ⟨fun id hid ↦ ?_, hkept.1, by rw [hkept.2], fun id _ hid ↦ ?_⟩
      all_goals
        rw [hnamed] at hid
        cases hid
  | some id =>
      simp only [hnamed] at h
      cases hstored : routeProfile with
      | none =>
          simp only [hstored] at h
          cases h
      | some stored =>
          simp only [hstored] at h
          by_cases hid : stored.id = id
          · rw [if_neg (not_not_intro hid)] at h
            by_cases hother : stored.interfaceName ≠ task.interfaceName ∨
                (!sameIP net stored.sourceIP task.sourceIP) = true
            · rw [if_pos hother] at h
              cases h
            · rw [if_neg hother] at h
              obtain ⟨hinterface, hsource⟩ := not_or.mp hother
              have hinterface : stored.interfaceName = task.interfaceName :=
                not_not.mp hinterface
              have hsource : sameIP net stored.sourceIP task.sourceIP = true := by
                simpa using hsource
              have hattached : Attached net ⟨resultID, task, some stored⟩ := by
                intro id' hid'
                obtain rfl : id = id' := Option.some.inj (hnamed.symm.trans hid')
                exact ⟨stored, rfl, hid, hinterface, hsource⟩
              dsimp only at h
              split at h
              · rename_i hmode
                cases h
                exact ⟨hattached, hinterface, sameIP_eq_true hsource,
                  fun _ _ _ _ hrequired ↦ absurd hmode hrequired⟩
              · cases h
                refine ⟨hattached, hinterface, sameIP_eq_true hsource, ?_⟩
                rintro _ _ _ ⟨⟩ _
                exact ⟨rfl, rfl⟩
          · rw [if_pos hid] at h
            cases h

/-! ## The whole run -/

/-- The path of the task was validated: its source is an address of its operational
interface, the looked-up route uses both and meets what the attached profile expects,
and the trace endpoint was reached from the source. -/
structure PathChecked (env : Env) (lower : Char → Char) (job : Job) (answers : Answers) :
    Prop where
  assigned : ∃ ip, env.net.parseIP job.task.sourceIP = some ip ∧
    Assigned env answers.interfaces job.task.interfaceName ip
  selected : ∃ target source route,
    env.net.parseIP source = env.net.parseIP job.task.sourceIP ∧
    linuxRouteLookup answers target source job.task.interfaceName = .ok route ∧
    route.device = job.task.interfaceName ∧
    env.net.parseIP route.source = env.net.parseIP job.task.sourceIP ∧
    ∀ id stored, job.task.routeProfileID = some id → job.routeProfile = some stored →
      job.task.routeValidation ≠ "interface-only" →
        (stored.expectedGateway ≠ "" →
          ipAddressesEqual env.net route.gateway stored.expectedGateway = true) ∧
        (stored.expectedRoutingTable ≠ "" →
          routingTableMatches lower route.table stored.expectedRoutingTable = true)
  reachable : ∃ source trace, env.net.parseIP source = env.net.parseIP job.task.sourceIP ∧
    boundTrace env.net answers source = .ok trace

theorem pathChecked_of_validated {job : Job} {answers : Answers} {profile : RouteProfile}
    (hprofile : Effective env.net job profile) (h : Validated env lower answers profile) :
    PathChecked env lower job answers := by
  obtain ⟨ip, hip, hassigned⟩ := h.assigned
  obtain ⟨target, route, -, hroute, hselected⟩ := h.selected
  obtain ⟨trace, htrace⟩ := h.reachable
  rw [hprofile.interface] at hassigned hroute
  refine ⟨⟨ip, hprofile.source ▸ hip, hassigned⟩,
    ⟨target, profile.sourceIP, route, hprofile.source, hroute, ?_, ?_, ?_⟩,
    profile.sourceIP, trace, hprofile.source, htrace⟩
  · rw [hselected.device, hprofile.interface]
  · rw [hselected.source, hprofile.source]
  · intro id stored hid hstored hrequired
    obtain ⟨hgateway, htable⟩ := hprofile.expected id stored hid hstored hrequired
    rw [← hgateway, ← htable]
    exact ⟨hselected.gateway, hselected.table⟩

/-- Before the provider is called, two sections follow one another: one that
validates the path and finds the provider available, and one that persists the
running status. -/
theorem sections_before_provider {job : Job} {sections : List Section} {timeout : ℤ}
    {started : Time} {result : RunResult job .running}
    (h : Transition.run (execute env lower) (.received job) sections =
      some (.running job timeout started result)) :
    ∃ before validating persisting, sections = before ++ [validating, persisting] ∧
      (∃ profile, routeProfileForTask env.net job.task job.routeProfile = .ok profile ∧
        (Network.validate env lower validating.answers profile).success = true) ∧
      validating.input.available = true ∧
      ∃ store, serve persisting.input.served
        (persisting.store.updateResult result.result) = .ok store := by
  rcases List.eq_nil_or_concat sections with rfl | ⟨front, persisting, rfl⟩
  · cases h
  · rw [List.concat_eq_append, Transition.run_snoc_iff] at h
    obtain ⟨phase, hfront, hlast⟩ := h
    obtain ⟨rfl, hpersisted⟩ := running_of_available hlast
    rcases List.eq_nil_or_concat front with rfl | ⟨before, validating, rfl⟩
    · cases hfront
    · rw [List.concat_eq_append, Transition.run_snoc_iff] at hfront
      obtain ⟨phase, -, hvalidate⟩ := hfront
      obtain ⟨profile, hprofile, hsuccess, havailable⟩ := available_of_validating hvalidate
      refine ⟨before, validating, persisting, ?_, ⟨profile, hprofile, hsuccess⟩, havailable,
        hpersisted⟩
      rw [List.concat_eq_append, List.concat_eq_append, List.append_assoc]
      rfl

/-- The provider is called only after the path of the task was validated against the
attached profile, the provider was available and the running status was persisted; it
is called with the interface and the source of the task.  A task whose profile is
missing or for another path never gets that far. -/
theorem provider_runs_on_checked_path {env : Env} {lower : Char → Char} {job : Job}
    {sections : List Section} {phase : Phase} {request : RunRequest}
    (hrun : Transition.run (execute env lower) (.received job) sections = some phase)
    (hrequest : phase.request? = some request) :
    request.interfaceName = job.task.interfaceName ∧ request.sourceIP = job.task.sourceIP ∧
      Attached env.net job ∧
      ∃ before validating persisting, sections = before ++ [validating, persisting] ∧
        PathChecked env lower job validating.answers ∧
        validating.input.available = true ∧
        ∃ result store row, serve persisting.input.served
            (persisting.store.updateResult result) = .ok store ∧
          store.result? job.resultID = some row ∧ row.status = .running := by
  have hwork : phase.work? = some job ∨ phase.work? = none :=
    Transition.run_invariant (execute env lower)
      (P := fun phase ↦ phase.work? = some job ∨ phase.work? = none)
      (fun _ _ _ hphase h ↦ execute_work hphase h) (.inl rfl) hrun
  cases phase with
  | running other timeout started result =>
      obtain rfl : other = job := by
        rcases hwork with hwork | hwork
        · exact Option.some.inj hwork
        · cases hwork
      obtain rfl := Option.some.inj hrequest
      obtain ⟨before, validating, persisting, hsections, ⟨profile, hprofile, hsuccess⟩,
        havailable, store, hpersisted⟩ := sections_before_provider hrun
      have heffective := effective_of_ok hprofile
      refine ⟨rfl, rfl, heffective.attached, before, validating, persisting, hsections,
        pathChecked_of_validated heffective (validated_of_success hsuccess), havailable,
        result.result, store, ?_⟩
      obtain ⟨row, -, hrows, -⟩ := Store.updateResult_ok (serve_eq_ok_iff.mp hpersisted).2
      have hrow := hrows other.resultID
      rw [if_pos result.id] at hrow
      exact ⟨_, hpersisted, hrow, result.status_eq⟩
  | idle | received | acquiring | admitted | loaded | validating | available | unloaded | closing
  | leaving => cases hrequest

/-! ## A run -/

/-- Two addresses. -/
def twoAddresses : Net where
  parseIP text :=
    if text = "192.0.2.10" then some 0xffffc000020a
    else if text = "1.1.1.1" then some 0xffff01010101
    else none
  ipString ip := if ip = 0xffffc000020a then "192.0.2.10" else "1.1.1.1"

def online : Env := ⟨twoAddresses, "1.0.0", fun name ↦ "\"" ++ name ++ "\""⟩

/-- The task's interface is up, and the route to the target uses it. -/
def oneInterface : Answers where
  linux := true
  interfaces := [⟨"eth0", true, ["192.0.2.10"]⟩]
  newResolver := .ok ()
  lookupIPAddr _ := .error []
  routeGet _ source := .ok ⟨100, some [⟨"eth0", "", "", source, "", none⟩]⟩
  newDialer := .ok ()
  trace := .ok ⟨200, .ok (utf8 "ip=192.0.2.10\ncolo=FRA\n")⟩
  started := 0
  finished := 5000000

/-- What the sections find after the job was queued. -/
def queuedSection : Section :=
  ⟨(oneTaskRun takenRun).store, .new, workInput true, oneInterface⟩

theorem provider_runs_on_checked_path_eth0 :
    PathChecked online Char.toLower ⟨"run", scheduledTask, none⟩ oneInterface := by
  obtain ⟨phase, hrun⟩ := Option.isSome_iff_exists.mp
    (show (Transition.run (execute online Char.toLower) (.received ⟨"run", scheduledTask, none⟩)
      (List.replicate 6 queuedSection)).isSome = true by decide +kernel)
  have hrequest : (Transition.run (execute online Char.toLower)
      (.received ⟨"run", scheduledTask, none⟩)
      (List.replicate 6 queuedSection)).any (fun phase ↦ phase.request?.isSome) = true := by
    decide +kernel
  rw [hrun, Option.any_some] at hrequest
  obtain ⟨request, hrequest⟩ := Option.isSome_iff_exists.mp hrequest
  obtain ⟨-, -, -, before, validating, persisting, hsections, hchecked, -⟩ :=
    provider_runs_on_checked_path hrun hrequest
  have hmem : validating ∈ List.replicate 6 queuedSection := by
    rw [hsections]
    simp
  rw [(List.mem_replicate.mp hmem).2] at hchecked
  exact hchecked

end MultiSpeed.Execution
