import MultiSpeed.Api.References

/-!
# Tasks agree with their profiles

The interface and the source of a task and of its profile are compared when the task is
written and when a document is imported, and again before each run.  An update of the
profile compares nothing: the tasks that name it may be left behind.
-/

namespace MultiSpeed.Configuring

open Api Concurrent Database Execution Network

variable {host : Host} {m : Memory}

instance (net : Net) (task : Task) (profile : RouteProfile) :
    Decidable (Agrees net task profile) := inferInstanceAs (Decidable (_ ∧ _))

theorem fits_agrees (host : Host) : Fits host (Agrees host.net) where
  of_agrees h := h
  congr task task' profile profile' hinterface hsource hinterface' hsource' h := by
    unfold Agrees
    rw [hinterface, hsource, hinterface', hsource']
    exact h

/-- Each live task is attached to the profile it names. -/
def Agreement (host : Host) (m : Memory) : Prop := Linked (Agrees host.net) m

theorem sameIP_trans {net : Net} {first second third : String}
    (h : sameIP net first second = true) (h' : sameIP net second third = true) :
    sameIP net first third = true := by
  unfold sameIP at h
  split at h
  · rename_i ip ip' hfirst hsecond
    obtain rfl : ip = ip' := of_decide_eq_true h
    simpa [sameIP, hfirst, hsecond] using h'
  · cases h

/-- The profile of an agreeing task passes the comparison before a run. -/
theorem routeProfileForTask_of_agrees {net : Net} {task : Task} {profile : RouteProfile}
    (hid : profile.id ∈ task.routeProfileID) (h : Agrees net task profile) :
    ∃ effective, routeProfileForTask net task (some profile) = .ok effective := by
  have hsome : task.routeProfileID = some profile.id := hid
  unfold routeProfileForTask
  simp only [hsome, ne_eq, not_true_eq_false, if_false, h.1, h.2, Bool.not_true, or_self,
    Bool.false_eq_true]
  split <;> exact ⟨_, rfl⟩

def Call.updatedRoute : Call → Option RouteProfile
  | .updateRouteProfile profile _ => some profile
  | _ => none

/-- An update of a profile that a live task names keeps its interface and its source. -/
def KeepsPaths (host : Host) (c : Call) (m : Memory) : Prop :=
  ∀ profile ∈ c.updatedRoute, m.store.routeInUse profile.id = true →
    ∀ row ∈ m.store.route? profile.id, profile.interfaceName = row.interfaceName ∧
      sameIP host.net profile.sourceIP row.sourceIP = true

instance (host : Host) (c : Call) (m : Memory) : Decidable (KeepsPaths host c m) :=
  inferInstanceAs (Decidable (∀ profile ∈ c.updatedRoute, _))

theorem agreement_keeps (host : Host) :
    (system host).Keeps (Agreement host) Quiet (Justified host (Agreement host))
      (fun c _ ↦ c.free = true) (WhereStored host (KeepsPaths host)) fun _ _ _ ↦ True := by
  refine Linked.keeps (fits_agrees host) (WhereStored host (KeepsPaths host)) fun profile origin m
    i hstored hallowed k task row htask hid hrow hagrees ↦ ?_
  obtain ⟨hfind, hlive⟩ := Store.getTask_eq_ok_iff.mp htask
  have hused : m.store.routeInUse profile.id = true := by
    by_contra hunused
    exact Store.routeInUse_eq_false_iff.mp (Bool.eq_false_iff.mpr hunused) k task hfind hlive hid
  obtain ⟨hinterface, hsource⟩ :=
    hallowed hstored profile rfl hused row (Store.getRouteProfile_eq_ok_iff.mp hrow).1
  exact ⟨hinterface.trans hagrees.1, sameIP_trans hsource hagrees.2⟩

/-- In every run whose stored updates of profiles keep the paths of the tasks that name them,
each live task agrees with its profile and passes the comparison before a run. -/
theorem tasks_agree_with_profiles (host : Host) {start : Memory}
    (hstart : ∀ id task, start.store.getTask id = .ok task → Attached host start task)
    {actions : List (Action Request String Input Change)}
    (hkeeps : Transition.Guarded (system host).step
      (System.Allowed (WhereStored host (KeepsPaths host)) fun _ _ _ ↦ True)
      ⟨start, none, []⟩ actions)
    {s : State Call.Answer Memory Reply}
    (hrun : Transition.run (system host).step ⟨start, none, []⟩ actions = some s) :
    ∀ id task, s.shared.store.getTask id = .ok task → ∀ profileID ∈ task.routeProfileID,
      ∃ profile, s.shared.store.getRouteProfile profileID = .ok profile ∧
        Agrees host.net task profile ∧
        ∃ effective, routeProfileForTask host.net task (some profile) = .ok effective := by
  have hend : Agreement host s.shared := (agreement_keeps host).run hstart hkeeps hrun
  intro id task htask profileID hid
  obtain ⟨profile, hprofile, hagrees⟩ := hend id task htask profileID hid
  obtain rfl := Store.route?_id (Store.getRouteProfile_eq_ok_iff.mp hprofile).1
  exact ⟨profile, hprofile, hagrees, routeProfileForTask_of_agrees hid hagrees⟩

/-- The profile is renamed and keeps its path. -/
def renamedProfile : RouteProfileInput :=
  ⟨"Fibre", "", "eth0", "192.0.2.10", "", "", "", ""⟩

/-- The profile is moved to the other interface. -/
def movedProfile : RouteProfileInput :=
  ⟨"WAN", "", "eth1", "192.0.2.20", "", "", "", ""⟩

/-- An update of the profile after a task has been created that refers to it. -/
def updatedRun (input : RouteProfileInput) : List (Action Request String Input Change) :=
  attachedRun ++
    requestRun (.updateRouteProfile "profile" (some input)) (List.replicate 3 (servedInput ""))

theorem agreement_empty : ∀ id task, emptyMemory.store.getTask id = .ok task →
    Attached smallHost emptyMemory task := by
  intro id task htask
  cases htask

theorem tasks_agree_with_profiles_renamed :
    ∃ s, smallRun (updatedRun renamedProfile) = some s ∧
      ∀ id task, s.shared.store.getTask id = .ok task → ∀ profileID ∈ task.routeProfileID,
        ∃ profile, s.shared.store.getRouteProfile profileID = .ok profile ∧
          Agrees smallHost.net task profile ∧
          ∃ effective, routeProfileForTask smallHost.net task (some profile) = .ok effective := by
  obtain ⟨s, hs⟩ := Option.isSome_iff_exists.mp
    (show (smallRun (updatedRun renamedProfile)).isSome = true by decide +kernel)
  exact ⟨s, hs, tasks_agree_with_profiles smallHost agreement_empty (by decide +kernel) hs⟩

/-- The task named "task" refers to the profile named "profile" and is for another path. -/
def leftBehind (s : State Call.Answer Memory Reply) : Bool :=
  match s.shared.store.getTask "task", s.shared.store.getRouteProfile "profile" with
  | .ok task, .ok profile => task.routeProfileID = some "profile" ∧
      ¬ Agrees smallHost.net task profile ∧
      (routeProfileForTask smallHost.net task (some profile)).isOk = false
  | _, _ => false

/-- The moved profile leaves the task behind, and no run of it gets a profile. -/
theorem tasks_agree_with_profiles_moved :
    ∃ s, smallRun (updatedRun movedProfile) = some s ∧
      ∃ task profile, s.shared.store.getTask "task" = .ok task ∧
        task.routeProfileID = some "profile" ∧
        s.shared.store.getRouteProfile "profile" = .ok profile ∧
        ¬ Agrees smallHost.net task profile ∧
        (routeProfileForTask smallHost.net task (some profile)).isOk = false := by
  have hrun : (smallRun (updatedRun movedProfile)).any leftBehind = true := by decide +kernel
  obtain ⟨s, hs, hleft⟩ := (Option.any_eq_true _ _).mp hrun
  unfold leftBehind at hleft
  split at hleft
  · rename_i task profile htask hprofile
    obtain ⟨hid, hdisagree, hrefused⟩ := of_decide_eq_true hleft
    exact ⟨s, hs, task, profile, htask, hid, hprofile, hdisagree, hrefused⟩
  · cases hleft

end MultiSpeed.Configuring
