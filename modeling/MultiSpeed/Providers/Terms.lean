import MultiSpeed.Database.Routes
import MultiSpeed.Providers.Ookla

/-!
# The Ookla terms gate

The recorded acknowledgement across releases.  A release requires a review marker of
its own; the decision an operator records is kept in the settings row with the marker
of the release that recorded it.  The adapter asks the acceptance source of `main`
before it starts the CLI with the license flags; requests to the API go on meanwhile.
-/

namespace MultiSpeed.Providers.Terms

open Concurrent Database Ookla

/-- `CurrentOoklaEULAVersion` of a release. -/
structure ReviewMarker where
  text : String
  nonempty : text ≠ ""

def currentMarker : ReviewMarker := ⟨Store.currentOoklaEULAVersion, by decide⟩

/-- The columns `SetOoklaEULAAcceptance` sets. -/
def assignAcceptance (marker : ReviewMarker) (accepted : Bool) (now : Time) (row : Settings) :
    Settings :=
  { row with
    ooklaEULAAccepted := accepted
    ooklaEULAAcceptedAt := if accepted then some now else none
    ooklaEULAVersion := if accepted then some marker.text else none }

def setOoklaEULAAcceptance (marker : ReviewMarker) (s : Store) (accepted : Bool) (now : Time) :
    Except StoreError Store :=
  commit s.tasks s.routes s.results (assignAcceptance marker accepted now s.settings)

/-- With the marker of this release it is the update of the store. -/
theorem setOoklaEULAAcceptance_current (s : Store) (accepted : Bool) (now : Time) :
    setOoklaEULAAcceptance currentMarker s accepted now =
      s.setOoklaEULAAcceptance accepted now := rfl

/-- `GetSettings`, where a null marker is read as the empty text. -/
def getSettings (marker : ReviewMarker) (s : Store) : Settings :=
  { s.getSettings with
    ooklaEULAAccepted := s.settings.ooklaEULAAccepted &&
      decide (s.settings.ooklaEULAVersion.getD "" = marker.text) }

def ooklaEULAAcceptance (marker : ReviewMarker) (s : Store) : Bool :=
  s.settings.ooklaEULAAccepted && s.settings.ooklaEULAVersion.isSome &&
    decide (s.settings.ooklaEULAVersion.getD "" = marker.text)

/-! ## Deployments -/

/-- A decision as it was recorded; releases before the marker kept none. -/
structure Decision where
  accepted : Bool
  time : Time
  marker : Option String

/-- A running release: its database, its marker, the override of its environment, and
the decisions recorded so far, the last one first. -/
structure Deployment where
  store : Store
  marker : ReviewMarker
  acceptOoklaEULA : Bool
  decisions : List Decision

inductive Action where
  | setOoklaEULAAcceptance (accepted : Bool) (now : Time)
  | updateSettings (settings : Settings)
  | replaceConfiguration (settings : Settings) (routes : List RouteProfile) (tasks : List Task)
      (now : Time)
  /-- The process is replaced by one of another release or environment. -/
  | upgrade (marker : ReviewMarker) (acceptOoklaEULA : Bool)

def Deployment.write (d : Deployment) (written : Except StoreError Store)
    (decisions : List Decision) : Option Deployment :=
  match written with
  | .ok store => some { d with store := store, decisions := decisions }
  | .error _ => none

/-- An action that succeeds; one that fails leaves the deployment as it is. -/
def step (d : Deployment) : Action → Option Deployment
  | .setOoklaEULAAcceptance accepted now =>
      d.write (Terms.setOoklaEULAAcceptance d.marker d.store accepted now)
        (⟨accepted, now, some d.marker.text⟩ :: d.decisions)
  | .updateSettings settings => d.write (d.store.updateSettings settings) d.decisions
  | .replaceConfiguration settings routes tasks now =>
      d.write (d.store.replaceConfiguration settings routes tasks now) d.decisions
  | .upgrade marker acceptOoklaEULA =>
      some { d with marker := marker, acceptOoklaEULA := acceptOoklaEULA }

/-- The row holds the last decision. -/
def Recorded (decisions : List Decision) (row : Settings) : Prop :=
  match decisions with
  | [] =>
      row.ooklaEULAAccepted = false ∧ row.ooklaEULAAcceptedAt = none ∧ row.ooklaEULAVersion = none
  | decision :: _ =>
      row.ooklaEULAAccepted = decision.accepted ∧
      row.ooklaEULAAcceptedAt = (if decision.accepted then some decision.time else none) ∧
      row.ooklaEULAVersion = if decision.accepted then decision.marker else none

/-- Any release over any database, with the decisions that are recorded there. -/
def Initial (d : Deployment) : Prop := Recorded d.decisions d.store.settings

/-- The last recorded decision is an acceptance under the marker of the release. -/
def Accepted (d : Deployment) : Prop :=
  ∃ decision ∈ d.decisions.head?, decision.accepted = true ∧
    decision.marker = some d.marker.text

def Permitted (d : Deployment) : Prop := d.acceptOoklaEULA = true ∨ Accepted d

/-- The acceptance source `main` gives to the adapter. -/
def acceptanceSource (d : Deployment) : Bool :=
  if d.acceptOoklaEULA then true else ooklaEULAAcceptance d.marker d.store

/-- What a call of the adapter can be answered; the read of the settings can fail. -/
def answers (d : Deployment) : (c : Call) → c.Answer → Prop
  | .acceptance, answer => answer = .ok (acceptanceSource d) ∨ ∃ message, answer = .error message
  | .lookPath _, _ | .prepareRuntimeHome _ _, _ | .process _, _ => True

def Action.upgrades : Action → Bool
  | .upgrade _ _ => true
  | _ => false

/-- What the API does while the process runs. -/
def Meanwhile (d e : Deployment) : Prop :=
  ∃ actions : List Action, (∀ action ∈ actions, action.upgrades = false) ∧
    Transition.run step d actions = some e

theorem Meanwhile.trans {d e f : Deployment} (h : Meanwhile d e) (h' : Meanwhile e f) :
    Meanwhile d f := by
  obtain ⟨actions, hactions, hrun⟩ := h
  obtain ⟨later, hlater, hrun'⟩ := h'
  refine ⟨actions ++ later, ?_, (Transition.run_append_iff step).mpr ⟨e, hrun, hrun'⟩⟩
  intro action haction
  rcases List.mem_append.mp haction with haction | haction
  · exact hactions action haction
  · exact hlater action haction

variable (a : Adapter)

/-- The calls of one server listing or one test that starts in `d`. -/
inductive Serves (d : Deployment) : List (Deployment × Call) → Prop where
  | listing {request : ServerListRequest} {trace : List (Deployment × Call)}
      (h : Program.Makes Meanwhile answers (listServers a request) d trace) : Serves d trace
  | test {request : RunRequest} {trace : List (Deployment × Call)}
      (h : Program.Makes Meanwhile answers (run a request) d trace) : Serves d trace

/-- A process with a license flag. -/
def Accepting : Call → Prop
  | .process request =>
      "--accept-license" ∈ request.arguments ∨ "--accept-gdpr" ∈ request.arguments
  | _ => False

/-- The acceptance source has answered that the terms are accepted. -/
def Unlocks : (c : Call) → c.Answer → Prop
  | .acceptance, answer => answer = .ok true
  | _, _ => False

/-! ## The adapter asks first -/

theorem listServers_locked (request : ServerListRequest) :
    (listServers a request).Locked (fun c ↦ ¬ Accepting c) Unlocks := by
  refine ⟨id, fun answer ↦ ?_⟩
  rcases answer with message | accepted
  · exact Or.inr trivial
  · cases accepted with
    | false => exact Or.inr trivial
    | true => exact Or.inl rfl

theorem run_locked (request : RunRequest) :
    (run a request).Locked (fun c ↦ ¬ Accepting c) Unlocks := by
  refine ⟨id, fun answer ↦ ?_⟩
  rcases answer with message | accepted
  · exact Or.inr trivial
  · cases accepted with
    | false => exact Or.inr trivial
    | true => exact Or.inl rfl

/-- Before a process with a license flag the source has said yes. -/
theorem Serves.asked {d e : Deployment} {c : Call} {before after : List (Deployment × Call)}
    (h : Serves a d (before ++ (e, c) :: after)) (hc : Accepting c) :
    ∃ u, (u, Call.acceptance) ∈ before ∧ acceptanceSource u = true ∧ Meanwhile d u ∧
      Meanwhile u e := by
  have htrans : ∀ d e f, Meanwhile d e → Meanwhile e f → Meanwhile d f :=
    fun _ _ _ h h' ↦ h.trans h'
  have hunlocked : ∃ u key answer, (u, key) ∈ before ∧ answers u key answer ∧
      Unlocks key answer ∧ Meanwhile d u ∧ Meanwhile u e := by
    cases h with
    | listing h =>
        obtain ⟨u, key, answer, hbefore, hanswer, hunlocks, hlater⟩ :=
          (listServers_locked a _).unlocked h htrans (not_not_intro hc)
        exact ⟨u, key, answer, hbefore, hanswer, hunlocks,
          h.rely_of_mem htrans (List.mem_append_left _ hbefore), hlater⟩
    | test h =>
        obtain ⟨u, key, answer, hbefore, hanswer, hunlocks, hlater⟩ :=
          (run_locked a _).unlocked h htrans (not_not_intro hc)
        exact ⟨u, key, answer, hbefore, hanswer, hunlocks,
          h.rely_of_mem htrans (List.mem_append_left _ hbefore), hlater⟩
  obtain ⟨u, key, answer, hbefore, hanswer, hunlocks, hearlier, hlater⟩ := hunlocked
  cases key with
  | acceptance =>
      refine ⟨u, hbefore, ?_, hearlier, hlater⟩
      have hyes : answer = .ok true := hunlocks
      rcases hanswer with hanswer | ⟨message, hanswer⟩
      · exact Except.ok.inj (hanswer.symm.trans hyes)
      · rw [hyes] at hanswer
        cases hanswer
  | lookPath | prepareRuntimeHome | process => cases hunlocks

/-! ## The recorded decision -/

/-- The three columns of the decision. -/
def acknowledgement (s : Store) : Bool × Option Time × Option String :=
  (s.settings.ooklaEULAAccepted, s.settings.ooklaEULAAcceptedAt, s.settings.ooklaEULAVersion)

variable {d e : Deployment}

theorem write_eq_some {written : Except StoreError Store} {decisions : List Decision}
    (h : d.write written decisions = some e) :
    ∃ store, written = .ok store ∧ e = { d with store := store, decisions := decisions } := by
  cases written with
  | ok store => exact ⟨store, rfl, (Option.some.inj h).symm⟩
  | error message => cases h

/-- Only a decision changes the recorded one. -/
theorem acknowledgement_step {action : Action} (h : step d action = some e)
    (haction : ∀ accepted now, action ≠ .setOoklaEULAAcceptance accepted now) :
    acknowledgement e.store = acknowledgement d.store ∧ e.decisions = d.decisions := by
  cases action with
  | setOoklaEULAAcceptance accepted now => exact absurd rfl (haction accepted now)
  | updateSettings settings =>
      obtain ⟨store, hstore, rfl⟩ := write_eq_some h
      obtain ⟨-, -, hsettings⟩ := Store.commit_settings_ok hstore
      rw [acknowledgement, acknowledgement, hsettings]
      exact ⟨rfl, rfl⟩
  | replaceConfiguration settings routes tasks now =>
      obtain ⟨store, hstore, rfl⟩ := write_eq_some h
      obtain ⟨-, -, hsettings, -⟩ := Store.replaceConfiguration_ok hstore
      rw [acknowledgement, acknowledgement, hsettings]
      exact ⟨rfl, rfl⟩
  | upgrade marker acceptOoklaEULA =>
      obtain rfl := Option.some.inj h
      exact ⟨rfl, rfl⟩

theorem recorded_congr {decisions : List Decision} {s s' : Store}
    (h : acknowledgement s' = acknowledgement s) (hs : Recorded decisions s.settings) :
    Recorded decisions s'.settings := by
  obtain ⟨haccepted, hrest⟩ := Prod.mk.inj h
  obtain ⟨htime, hmarker⟩ := Prod.mk.inj hrest
  unfold Recorded at hs ⊢
  rw [haccepted, htime, hmarker]
  exact hs

theorem recorded_step {action : Action} (hd : Recorded d.decisions d.store.settings)
    (h : step d action = some e) : Recorded e.decisions e.store.settings := by
  by_cases haction : ∃ accepted now, action = .setOoklaEULAAcceptance accepted now
  · obtain ⟨accepted, now, rfl⟩ := haction
    obtain ⟨store, hstore, rfl⟩ := write_eq_some h
    obtain ⟨-, -, hsettings⟩ := Store.commit_settings_ok hstore
    rw [hsettings]
    exact ⟨rfl, rfl, rfl⟩
  · obtain ⟨hkept, hdecisions⟩ := acknowledgement_step h
      fun accepted now heq ↦ haction ⟨accepted, now, heq⟩
    rw [hdecisions]
    exact recorded_congr hkept hd

theorem recorded_of_reachable (hd : Transition.Reachable step Initial d) :
    Recorded d.decisions d.store.settings := by
  refine hd.invariant (P := fun d ↦ Recorded d.decisions d.store.settings) ?_
    fun _ _ _ hd h ↦ recorded_step hd h
  exact fun _ h ↦ h

/-- Both readers see the effective decision. -/
theorem ooklaEULAAcceptance_iff (hd : Recorded d.decisions d.store.settings) :
    ooklaEULAAcceptance d.marker d.store = true ↔ Accepted d := by
  unfold ooklaEULAAcceptance Accepted
  cases hdecisions : d.decisions with
  | nil =>
      rw [hdecisions] at hd
      obtain ⟨haccepted, -, -⟩ := hd
      simp [haccepted]
  | cons decision rest =>
      rw [hdecisions] at hd
      obtain ⟨haccepted, -, hmarker⟩ := hd
      rw [haccepted, hmarker]
      cases hyes : decision.accepted with
      | false => simp [hyes]
      | true =>
          cases hdecided : decision.marker with
          | none => simp [hdecided]
          | some text => simp [hyes, hdecided]

theorem getSettings_accepted (marker : ReviewMarker) (s : Store) :
    (getSettings marker s).ooklaEULAAccepted = ooklaEULAAcceptance marker s := by
  unfold getSettings ooklaEULAAcceptance
  cases hversion : s.settings.ooklaEULAVersion with
  | some text => simp
  | none =>
      -- no release requires the empty marker
      have hne : ¬ "" = marker.text := fun h ↦ marker.nonempty h.symm
      simp [hne]

theorem permitted_iff (hd : Recorded d.decisions d.store.settings) :
    acceptanceSource d = true ↔ Permitted d := by
  unfold acceptanceSource Permitted
  cases d.acceptOoklaEULA with
  | true => simp
  | false =>
      rw [if_neg Bool.false_ne_true, ooklaEULAAcceptance_iff hd]
      simp

/-! ## The gate -/

/-- While the process runs its marker and its environment stay. -/
theorem Meanwhile.deployment (h : Meanwhile d e) :
    e.marker = d.marker ∧ e.acceptOoklaEULA = d.acceptOoklaEULA := by
  obtain ⟨actions, hactions, hrun⟩ := h
  induction actions generalizing d with
  | nil =>
      obtain rfl : d = e := by simpa using hrun
      exact ⟨rfl, rfl⟩
  | cons action actions ih =>
      obtain ⟨f, hf, hrest⟩ := (Transition.run_cons_iff step).mp hrun
      obtain ⟨hmarker, henvironment⟩ :=
        ih (fun action haction ↦ hactions action (List.mem_cons_of_mem _ haction)) hrest
      have hfirst : f.marker = d.marker ∧ f.acceptOoklaEULA = d.acceptOoklaEULA := by
        cases action with
        | upgrade marker acceptOoklaEULA =>
            have hnot := hactions _ List.mem_cons_self
            cases hnot
        | setOoklaEULAAcceptance | updateSettings | replaceConfiguration =>
            obtain ⟨store, -, rfl⟩ := write_eq_some hf
            exact ⟨rfl, rfl⟩
      exact ⟨hmarker.trans hfirst.1, henvironment.trans hfirst.2⟩

theorem permitted_congr (h : Meanwhile d e) (hdecisions : d.decisions = e.decisions)
    (hd : Permitted d) : Permitted e := by
  obtain ⟨hmarker, henvironment⟩ := h.deployment
  rw [Permitted, Accepted, hmarker, henvironment, ← hdecisions]
  exact hd

/-- In every reachable deployment a listing or a test that nothing interrupts starts the
CLI with a license flag only where the environment overrides the decision or the last
decision is an acceptance under the required marker.  Where the API goes on meanwhile,
that was so when the adapter asked, and is still so unless a decision was recorded
since.  No settings update and no import changes the decision, its time or its marker,
and both readers report the same effective decision. -/
theorem ooklaTerms_gate (d : Deployment) (hd : Transition.Reachable step Initial d) :
    (∀ trace, Serves a d trace → (∀ made ∈ trace, made.1 = d) →
      ∀ made ∈ trace, Accepting made.2 → Permitted d) ∧
    (∀ before e c after, Serves a d (before ++ (e, c) :: after) → Accepting c →
      ∃ u, (u, Call.acceptance) ∈ before ∧ Meanwhile u e ∧ Permitted u ∧
        (u.decisions = e.decisions → Permitted e)) ∧
    (∀ action e, step d action = some e →
      (∀ accepted now, action ≠ .setOoklaEULAAcceptance accepted now) →
        acknowledgement e.store = acknowledgement d.store) ∧
    (getSettings d.marker d.store).ooklaEULAAccepted = ooklaEULAAcceptance d.marker d.store ∧
    (ooklaEULAAcceptance d.marker d.store = true ↔ Accepted d) := by
  have hasked : ∀ before e c after, Serves a d (before ++ (e, c) :: after) → Accepting c →
      ∃ u, (u, Call.acceptance) ∈ before ∧ Meanwhile u e ∧ Permitted u ∧
        (u.decisions = e.decisions → Permitted e) := by
    intro before e c after hserves hc
    obtain ⟨u, hu, hyes, hearlier, hlater⟩ := hserves.asked a hc
    have hreachable : Transition.Reachable step Initial u := by
      obtain ⟨actions, -, hrun⟩ := hearlier
      exact hd.append hrun
    have hpermitted := (permitted_iff (recorded_of_reachable hreachable)).mp hyes
    exact ⟨u, hu, hlater, hpermitted, fun heq ↦ permitted_congr hlater heq hpermitted⟩
  refine ⟨?_, hasked, ?_, getSettings_accepted d.marker d.store, ?_⟩
  · intro trace hserves hsame made hmade hc
    obtain ⟨before, after, rfl⟩ := List.append_of_mem hmade
    obtain ⟨u, hu, -, hpermitted, -⟩ := hasked before made.1 made.2 after hserves hc
    have heq : u = d := hsame (u, Call.acceptance) (List.mem_append_left _ hu)
    exact heq ▸ hpermitted
  · intro action e h haction
    exact (acknowledgement_step h haction).1
  · exact ooklaEULAAcceptance_iff (recorded_of_reachable hd)

/-- An acceptance under an earlier marker. -/
def upgraded : Deployment where
  store := { migrated with settings := { migratedSettings with
    ooklaEULAAccepted := true
    ooklaEULAAcceptedAt := some 7
    ooklaEULAVersion := some "ookla-eula-review-2025" } }
  marker := currentMarker
  acceptOoklaEULA := false
  decisions := [⟨true, 7, some "ookla-eula-review-2025"⟩]

def exampleAdapter : Adapter := ⟨"speedtest", fun _ ↦ .error [], fun _ _ ↦ .error [], id⟩

/-- The marker has changed since the acceptance. -/
theorem ooklaTerms_gate_upgraded :
    (getSettings upgraded.marker upgraded.store).ooklaEULAAccepted = false ∧
      ¬ Permitted upgraded := by
  have hreachable : Transition.Reachable step Initial upgraded :=
    ⟨upgraded, [], ⟨rfl, rfl, rfl⟩, rfl⟩
  obtain ⟨-, -, -, hreaders, hiff⟩ := ooklaTerms_gate exampleAdapter upgraded hreachable
  have hno : ooklaEULAAcceptance upgraded.marker upgraded.store = false := by decide +kernel
  refine ⟨hreaders.trans hno, ?_⟩
  rintro (henvironment | haccepted)
  · cases henvironment
  · rw [hiff.mpr haccepted] at hno
    cases hno

end MultiSpeed.Providers.Terms
