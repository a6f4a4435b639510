import MultiSpeed.Api.RateWindows

/-!
# Manual runs

The handler `runTask` of `internal/api`.  It asks the rate gate of manual runs while it holds
`configurationMu`, which the other handlers that change the configuration take as well.  So
no call of this gate is overtaken by another one, and the gate keeps its promise in every run.
-/

namespace MultiSpeed.Api.ManualRuns

open RateGate SlidingWindow

/-- `newRateGate(4, time.Minute)`. -/
def limit : ℕ := 4

def window : ℤ := 60000000000

/-- What becomes of `execution.Queue`. -/
inductive Outcome where
  | queued
  | notFound
  | failed
  deriving DecidableEq, Repr

def Outcome.status : Outcome → ℕ
  | queued => 202
  | notFound => 404
  | failed => 409

inductive Phase where
  | waiting
  /-- The request holds `configurationMu`. -/
  | holding
  /-- `Allow` has read the clock. -/
  | read (now : Time)
  /-- `Allow` has admitted the request, or has not. -/
  | decided (now : Time) (admitted : Bool)
  | answered (now : Time) (outcome : Option Outcome)
  deriving DecidableEq, Repr

/-- A request to run a task. -/
structure Request where
  remoteAddr : String
  taskID : String
  phase : Phase
  deriving DecidableEq, Repr

namespace Request

/-- The reading at which a request of the client was admitted. -/
def admittedAt (host : List Char) (r : Request) : Option Time :=
  if clientOf r.remoteAddr = host then
    match r.phase with
    | .decided now true => some now
    | .answered now (some _) => some now
    | _ => none
  else none

/-- The status of the response; a request that is not admitted gets `RATE_LIMITED`. -/
def status (r : Request) : Option ℕ :=
  match r.phase with
  | .answered _ outcome => some (outcome.elim 429 Outcome.status)
  | _ => none

end Request

inductive Holder where
  /-- Another handler. -/
  | elsewhere
  | request (index : ℕ)
  deriving DecidableEq, Repr

structure System where
  clock : Time
  holder : Option Holder
  requests : List Request
  gate : Gate
  log : List Entry

def System.start (clock : Time) : System := ⟨clock, none, [], newRateGate limit window, []⟩

inductive Action where
  | arrive (remoteAddr taskID : String)
  | tick (now : Time)
  | lockElsewhere
  | unlockElsewhere
  | lock (index : ℕ)
  /-- `Allow` reads the clock. -/
  | read (index : ℕ) (now : Time)
  /-- The critical section of `Allow`. -/
  | enter (index : ℕ)
  /-- `Queue`, the response and the deferred unlock. -/
  | answer (index : ℕ) (outcome : Outcome)

namespace System

def set (s : System) (index : ℕ) (r : Request) (phase : Phase) : System :=
  { s with requests := s.requests.set index { r with phase := phase } }

/-- The request, where it is the one that holds the lock. -/
def holding? (s : System) (index : ℕ) : Option Request :=
  if s.holder = some (.request index) then s.requests[index]? else none

end System

def step (s : System) : Action → Option System
  | .arrive remoteAddr taskID =>
      some { s with requests := s.requests ++ [⟨remoteAddr, taskID, .waiting⟩] }
  | .tick now => if now < s.clock then none else some { s with clock := now }
  | .lockElsewhere => if s.holder = none then some { s with holder := some .elsewhere } else none
  | .unlockElsewhere =>
      if s.holder = some .elsewhere then some { s with holder := none } else none
  | .lock index =>
      match s.requests[index]? with
      | none => none
      | some r =>
          if s.holder = none ∧ r.phase = .waiting then
            some { s.set index r .holding with holder := some (.request index) }
          else none
  | .read index now =>
      match s.holding? index with
      | none => none
      | some r =>
          if r.phase = .holding ∧ s.clock ≤ now then
            some { s.set index r (.read now) with clock := now }
          else none
  | .enter index =>
      match s.holding? index with
      | none => none
      | some r =>
          match r.phase with
          | .read now =>
              let (gate, log) := serve true (s.gate, s.log) ⟨clientOf r.remoteAddr, now⟩
              some { s.set index r (.decided now (log.getLast?.any (·.admitted))) with
                gate := gate
                log := log }
          | _ => none
  | .answer index outcome =>
      match s.holding? index with
      | none => none
      | some r =>
          match r.phase with
          | .decided now admitted =>
              some { s.set index r (.answered now (if admitted then some outcome else none)) with
                holder := none }
          | _ => none

/-! ## The invariant -/

/-- A reading of the request that has not been decided. -/
def Undecided (s : System) (now : Time) : Prop :=
  ∃ index r, s.holder = some (.request index) ∧ s.requests[index]? = some r ∧ r.phase = .read now

structure Sound (s : System) : Prop where
  served : Served true limit window (s.gate, s.log)
  past : ∀ e ∈ s.log, e.call.now ≤ s.clock
  /-- No section has run after the reading of the request that holds the lock. -/
  next : ∀ now, Undecided s now → now ≤ s.clock ∧ ∀ e ∈ s.log, e.call.now ≤ now
  /-- The admitted requests are those of the log. -/
  admitted : ∀ host, (s.requests.filterMap (·.admittedAt host)).Perm
    (admissions (s.log.map Entry.decision) host)

theorem sound_start (clock : Time) : Sound (.start clock) where
  served := .start
  past _ h := by cases h
  next _ := by
    rintro ⟨_, _, h, -⟩
    cases h
  admitted _ := .refl _

/-- An element is replaced. -/
theorem perm_filterMap_set {α β : Type*} (f : α → Option β) {l : List α} {index : ℕ} {a : α}
    (hat : l[index]? = some a) (b : α) :
    ((f a).toList ++ (l.set index b).filterMap f).Perm ((f b).toList ++ l.filterMap f) := by
  induction l generalizing index with
  | nil => cases hat
  | cons x rest ih =>
      cases index with
      | zero =>
          obtain rfl := Option.some.inj hat
          rw [List.set_cons_zero]
          cases ha : f x <;> cases hb : f b <;> simp [ha, hb]
          exact .swap _ _ _
      | succ index =>
          have hrest := ih hat
          rw [List.set_cons_succ]
          cases hx : f x with
          | none =>
              rw [List.filterMap_cons_none hx, List.filterMap_cons_none hx]
              exact hrest
          | some value =>
              rw [List.filterMap_cons_some hx, List.filterMap_cons_some hx]
              exact List.perm_middle.trans ((hrest.cons value).trans List.perm_middle.symm)

theorem holding?_eq_some {s : System} {index : ℕ} {r : Request}
    (h : s.holding? index = some r) :
    s.holder = some (.request index) ∧ s.requests[index]? = some r := by
  unfold System.holding? at h
  split at h
  · rename_i hholder
    exact ⟨hholder, h⟩
  · cases h

/-- A step that neither admits a request nor runs a section. -/
theorem Sound.keep {s t : System} (h : Sound s) (hgate : t.gate = s.gate) (hlog : t.log = s.log)
    (hclock : s.clock ≤ t.clock)
    (hnext : ∀ now, Undecided t now → Undecided s now ∨ now = t.clock)
    (hadmitted : ∀ host, (t.requests.filterMap (·.admittedAt host)).Perm
      (s.requests.filterMap (·.admittedAt host))) : Sound t where
  served := by
    rw [hgate, hlog]
    exact h.served
  past e he := (h.past e (hlog ▸ he)).trans hclock
  next now hnow := by
    rw [hlog]
    rcases hnext now hnow with hold | rfl
    · obtain ⟨hle, hall⟩ := h.next now hold
      exact ⟨hle.trans hclock, hall⟩
    · exact ⟨le_rfl, fun e he ↦ (h.past e he).trans hclock⟩
  admitted host := by
    rw [hlog]
    exact (hadmitted host).trans (h.admitted host)

/-- Another phase that is admitted no more and no less. -/
theorem perm_set {s : System} {index : ℕ} {r : Request} (hat : s.requests[index]? = some r)
    {phase : Phase}
    (hsame : ∀ host, ({ r with phase := phase } : Request).admittedAt host = r.admittedAt host)
    (host : List Char) :
    ((s.set index r phase).requests.filterMap (·.admittedAt host)).Perm
      (s.requests.filterMap (·.admittedAt host)) := by
  have hperm := perm_filterMap_set (·.admittedAt host) hat { r with phase := phase }
  rw [hsame host] at hperm
  exact (List.perm_append_left_iff _).mp hperm

theorem getElem?_set_self' {s : System} {index : ℕ} {r : Request} {phase : Phase}
    (hat : s.requests[index]? = some r) :
    (s.set index r phase).requests[index]? = some { r with phase := phase } :=
  List.getElem?_set_self (List.getElem?_eq_some_iff.mp hat).1

/-- The section of the request that holds the lock is not overtaken. -/
theorem Sound.enter {s : System} (h : Sound s) {index : ℕ} {r : Request} {now : Time}
    (hholder : s.holder = some (.request index)) (hat : s.requests[index]? = some r)
    (hphase : r.phase = .read now) {gate : Gate} {admitted pruned : Bool}
    (hserve : serve true (s.gate, s.log) ⟨clientOf r.remoteAddr, now⟩ =
      (gate, s.log ++ [⟨⟨clientOf r.remoteAddr, now⟩, admitted, pruned⟩])) :
    Sound { s.set index r (.decided now admitted) with
      gate := gate
      log := s.log ++ [⟨⟨clientOf r.remoteAddr, now⟩, admitted, pruned⟩] } := by
  obtain ⟨hle, hall⟩ := h.next now ⟨index, r, hholder, hat, hphase⟩
  have hlate : ¬ Overtakes s.log ⟨clientOf r.remoteAddr, now⟩ := by
    rintro ⟨e, he, -, hlt⟩
    exact absurd (hall e he) (not_le.mpr hlt)
  have hserved := h.served.next hlate
  rw [hserve] at hserved
  refine ⟨hserved, fun e he ↦ ?_, fun now' ↦ ?_, fun host ↦ ?_⟩
  · rcases List.mem_append.mp he with he | he
    · exact h.past e he
    · rw [List.mem_singleton.mp he]
      exact hle
  · rintro ⟨index', r', hholder', hat', hphase'⟩
    obtain rfl : index = index' :=
      Holder.request.inj (Option.some.inj (hholder.symm.trans hholder'))
    obtain rfl := Option.some.inj ((getElem?_set_self' hat).symm.trans hat')
    cases hphase'
  · have hperm := perm_filterMap_set (·.admittedAt host) hat
      { r with phase := .decided now admitted }
    have hbefore : r.admittedAt host = none := by simp [Request.admittedAt, hphase]
    rw [hbefore, Option.toList_none, List.nil_append] at hperm
    refine hperm.trans (List.perm_append_comm.trans ?_)
    dsimp only
    rw [List.map_append, List.map_singleton, admissions_concat]
    refine (List.Perm.append_right _ (h.admitted host)).trans (.of_eq ?_)
    congr 1
    cases admitted <;> simp [Request.admittedAt, Entry.decision]
    split <;> rfl

theorem Sound.step {s t : System} {action : Action} (h : Sound s)
    (hstep : ManualRuns.step s action = some t) : Sound t := by
  cases action with
  | arrive remoteAddr taskID =>
      obtain rfl := Option.some.inj hstep
      refine h.keep rfl rfl le_rfl (fun now ↦ ?_) fun host ↦ ?_
      · rintro ⟨index, r, hholder, hat, hphase⟩
        refine .inl ⟨index, r, hholder, ?_, hphase⟩
        rcases lt_or_ge index s.requests.length with hlt | hge
        · exact (List.getElem?_append_left hlt).symm.trans hat
        · rw [List.getElem?_append_right hge, List.getElem?_singleton] at hat
          split at hat
          · obtain rfl := Option.some.inj hat
            cases hphase
          · cases hat
      · have hnone : ∀ host, (Request.mk remoteAddr taskID .waiting).admittedAt host = none := by
          intro host
          simp [Request.admittedAt]
        rw [List.filterMap_append, List.filterMap_cons_none (hnone host), List.filterMap_nil,
          List.append_nil]
  | tick now =>
      simp only [ManualRuns.step] at hstep
      split at hstep
      · cases hstep
      · rename_i hclock
        obtain rfl := Option.some.inj hstep
        exact h.keep rfl rfl (not_lt.mp hclock) (fun _ ↦ .inl) fun _ ↦ .refl _
  | lockElsewhere | unlockElsewhere =>
      simp only [ManualRuns.step] at hstep
      split at hstep
      · obtain rfl := Option.some.inj hstep
        refine h.keep rfl rfl le_rfl (fun now ↦ ?_) fun _ ↦ .refl _
        rintro ⟨_, _, hholder, -⟩
        cases hholder
      · cases hstep
  | lock index =>
      simp only [ManualRuns.step] at hstep
      split at hstep
      · cases hstep
      · rename_i r hat
        split at hstep
        · rename_i hfree
          obtain rfl := Option.some.inj hstep
          refine h.keep rfl rfl le_rfl (fun now ↦ ?_) (perm_set hat fun host ↦ ?_)
          · rintro ⟨index', r', hholder, hat', hphase⟩
            obtain rfl : index = index' := Holder.request.inj (Option.some.inj hholder)
            obtain rfl := Option.some.inj ((getElem?_set_self' hat).symm.trans hat')
            cases hphase
          · simp [Request.admittedAt, hfree.2]
        · cases hstep
  | read index now =>
      simp only [ManualRuns.step] at hstep
      split at hstep
      · cases hstep
      · rename_i r hholding
        obtain ⟨hholder, hat⟩ := holding?_eq_some hholding
        split at hstep
        · rename_i hready
          obtain rfl := Option.some.inj hstep
          refine h.keep rfl rfl hready.2 (fun now' ↦ ?_) (perm_set hat fun host ↦ ?_)
          · rintro ⟨index', r', hholder', hat', hphase⟩
            obtain rfl : index = index' :=
              Holder.request.inj (Option.some.inj (hholder.symm.trans hholder'))
            obtain rfl := Option.some.inj ((getElem?_set_self' hat).symm.trans hat')
            exact .inr (Phase.read.inj hphase).symm
          · simp [Request.admittedAt, hready.1]
        · cases hstep
  | enter index =>
      simp only [ManualRuns.step] at hstep
      split at hstep
      · cases hstep
      · rename_i r hholding
        obtain ⟨hholder, hat⟩ := holding?_eq_some hholding
        split at hstep
        · rename_i now hphase
          obtain ⟨gate, admitted, pruned, hserve⟩ : ∃ gate admitted pruned,
              serve true (s.gate, s.log) ⟨clientOf r.remoteAddr, now⟩ =
                (gate, s.log ++ [⟨⟨clientOf r.remoteAddr, now⟩, admitted, pruned⟩]) :=
            ⟨_, _, _, rfl⟩
          have hentered := h.enter hholder hat hphase hserve
          rw [hserve] at hstep
          have ht : t = { s.set index r (.decided now admitted) with
              gate := gate
              log := s.log ++ [⟨⟨clientOf r.remoteAddr, now⟩, admitted, pruned⟩] } := by
            simpa using (Option.some.inj hstep).symm
          exact ht ▸ hentered
        · cases hstep
  | answer index outcome =>
      simp only [ManualRuns.step] at hstep
      split at hstep
      · cases hstep
      · rename_i r hholding
        obtain ⟨hholder, hat⟩ := holding?_eq_some hholding
        split at hstep
        · rename_i now admitted hphase
          obtain rfl := Option.some.inj hstep
          refine h.keep rfl rfl le_rfl (fun now' ↦ ?_) (perm_set hat fun host ↦ ?_)
          · rintro ⟨_, _, hholder', -⟩
            cases hholder'
          · cases admitted <;> simp [Request.admittedAt, hphase]
        · cases hstep

/-! ## Runs -/

/-- What a client can get of the handler. -/
structure Fair (s : System) : Prop where
  /-- At most four runs in each minute. -/
  window_le : ∀ host start, ((s.requests.filterMap (·.admittedAt host)).filter fun t ↦
    start ≤ t ∧ t < start + window).length ≤ limit
  /-- A request that finds a task to run was admitted. -/
  accepted : ∀ r ∈ s.requests, r.status = some 202 ∨ r.status = some 404 ∨ r.status = some 409 →
    ∃ now, r.admittedAt (clientOf r.remoteAddr) = some now
  law : Law limit window s.log

theorem Sound.fair {s : System} (h : Sound s) : Fair s where
  window_le host start := by
    have hfilter := (h.admitted host).filter fun t ↦
      decide (start ≤ t ∧ t < start + window)
    rw [hfilter.length_eq]
    exact h.served.law.window_le host start
  accepted r _ hstatus := by
    cases hphase : r.phase with
    | answered now outcome =>
        cases outcome with
        | none => simp [Request.status, hphase] at hstatus
        | some outcome => exact ⟨now, by simp [Request.admittedAt, hphase]⟩
    | _ => simp [Request.status, hphase] at hstatus
  law := h.served.law

/-- Under the lock of the configuration the gate of manual runs keeps its promise in every
run, however requests arrive and whatever else holds the lock. -/
theorem manual_runs_limited {clock : Time} {actions : List Action} {s : System}
    (hrun : Transition.run step (.start clock) actions = some s) : Fair s :=
  (Transition.run_invariant step (P := Sound) (fun _ _ _ h hstep ↦ h.step hstep)
    (sound_start clock) hrun).fair

/-- Two requests of one client; the second one reads the clock after the first is answered. -/
def twoRuns : List Action :=
  [.arrive "192.0.2.1:4000" "task", .arrive "192.0.2.1:4001" "task", .lock 1, .tick 7, .read 1 8,
    .enter 1, .answer 1 .queued, .lockElsewhere, .unlockElsewhere, .lock 0, .read 0 9, .enter 0,
    .answer 0 .notFound]

theorem manual_runs_limited_twoRuns : ∃ s, Transition.run step (.start 0) twoRuns = some s ∧
    Fair s ∧ s.requests.map Request.status = [some 404, some 202] := by
  have hrun : (Transition.run step (.start 0) twoRuns).map
      (fun s ↦ s.requests.map Request.status) = some [some 404, some 202] := by decide +kernel
  obtain ⟨s, hs, hstatus⟩ := Option.map_eq_some_iff.mp hrun
  exact ⟨s, hs, manual_runs_limited hs, hstatus⟩

end MultiSpeed.Api.ManualRuns
