import MultiSpeed.Api.HostPolicy
import MultiSpeed.Lib.SlidingWindow
import MultiSpeed.Lib.Transition
import MultiSpeed.Models
import Mathlib.Data.List.AList

/-!
# The rate gate

`rateGate.Allow` of `internal/api/middleware.go`.  A call reads the clock before it takes
the lock, so that the sections of two calls can run in the other order than their
readings.  A list of admitted times is filtered by every call of its client, and when the
table is large a call removes the lists whose last time has left its own window.  A
reading that was overtaken then misses times that have already been taken out.
-/

namespace MultiSpeed.Api.RateGate

open SlidingWindow

abbrev Clients := AList fun _ : List Char ↦ List Time

structure Gate where
  limit : ℕ
  window : ℤ
  clients : Clients

def newRateGate (limit : ℕ) (window : ℤ) : Gate := ⟨limit, window, ∅⟩

/-- The client of a request: the host of its remote address, or all of it. -/
def clientOf (remoteAddr : String) : List Char :=
  match splitHostPort remoteAddr.toList with
  | .ok (host, _) => host
  | .error _ => remoteAddr.toList

/-- The entry stays: its last time is after the cutoff. -/
def current (cutoff : Time) (values : List Time) : Bool :=
  values.getLast?.any fun last ↦ decide (cutoff < last)

/-- The loop that deletes the clients whose times are over. -/
def prune (clients : Clients) (cutoff : Time) : Clients :=
  ⟨clients.entries.filter fun entry ↦ current cutoff entry.2,
    clients.nodupKeys.sublist List.filter_sublist⟩

/-- The table is too large. -/
def crowded (clients : Clients) : Bool := decide (1024 < clients.entries.length)

/-- The second half of `Allow`: the times of the client that are in the window decide. -/
def allowKept (gate : Gate) (host : List Char) (now : Time) : Bool × Gate :=
  let cutoff := now - gate.window
  let kept := ((gate.clients.lookup host).getD []).filter fun value ↦ decide (cutoff < value)
  if gate.limit ≤ kept.length then (false, { gate with clients := gate.clients.insert host kept })
  else (true, { gate with clients := gate.clients.insert host (kept ++ [now]) })

/-- The critical section. -/
def allow (gate : Gate) (host : List Char) (now : Time) : Bool × Gate :=
  let cutoff := now - gate.window
  let clients := if crowded gate.clients then prune gate.clients cutoff else gate.clients
  allowKept { gate with clients := clients } host now

/-- The critical section, or one that leaves out the loop over a large table. -/
def allowWith (pruning : Bool) (gate : Gate) (host : List Char) (now : Time) : Bool × Gate :=
  if pruning then allow gate host now else allowKept gate host now

/-! ## Calls in any order -/

/-- A call that has read the clock. -/
structure Call where
  host : List Char
  now : Time

/-- A section that has run, and whether it found the table too large. -/
structure Entry where
  call : Call
  admitted : Bool
  pruned : Bool

def Entry.decision (e : Entry) : Decision (List Char) Time := ⟨e.call.host, e.call.now, e.admitted⟩

structure State where
  clock : Time
  waiting : List Call
  gate : Gate
  log : List Entry

inductive Action where
  /-- A request of an address arrives and its call reads the clock. -/
  | read (remoteAddr : String) (now : Time)
  /-- A waiting call enters the critical section. -/
  | enter (index : ℕ)

/-- The section of a call, and its entry in the log. -/
def serve (pruning : Bool) (served : Gate × List Entry) (call : Call) : Gate × List Entry :=
  let (admitted, gate) := allowWith pruning served.1 call.host call.now
  (gate, served.2 ++ [⟨call, admitted, pruning && crowded served.1.clients⟩])

def step (s : State) : Action → Option State
  | .read remoteAddr now =>
      if now < s.clock then none
      else some { s with clock := now, waiting := s.waiting ++ [⟨clientOf remoteAddr, now⟩] }
  | .enter index =>
      match s.waiting[index]? with
      | none => none
      | some call =>
          let (gate, log) := serve true (s.gate, s.log) call
          some { s with waiting := s.waiting.eraseIdx index, gate := gate, log := log }

def State.start (limit : ℕ) (window : ℤ) (clock : Time) : State :=
  ⟨clock, [], newRateGate limit window, []⟩

/-- No call of the same client, and none that found the table too large, has read a later
time and was served before. -/
def Overtakes (log : List Entry) (call : Call) : Prop :=
  ∃ e ∈ log, (e.call.host = call.host ∨ e.pruned = true) ∧ call.now < e.call.now

/-- A call that enters has not been overtaken. -/
def InOrder (s : State) : Action → Prop
  | .read _ _ => True
  | .enter index => ∀ call ∈ s.waiting[index]?, ¬ Overtakes s.log call

/-- The sections of these calls on a new gate. -/
def serveAll (pruning : Bool) (limit : ℕ) (window : ℤ) (calls : List Call) : Gate × List Entry :=
  calls.foldl (serve pruning) (newRateGate limit window, [])

/-- What the gate promises about the sections that have run. -/
structure Law (limit : ℕ) (window : ℤ) (log : List Entry) : Prop where
  window_le : ∀ host start, ((admissions (log.map Entry.decision) host).filter fun t ↦
    start ≤ t ∧ t < start + window).length ≤ limit
  rejected : ∀ before e after, log = before ++ e :: after → e.admitted = false →
    limit ≤ ((admissions (before.map Entry.decision) e.call.host).filter fun t ↦
      e.call.now - window < t ∧ t ≤ e.call.now).length
  /-- A gate that serves only the calls of this client decides the same. -/
  alone : ∀ host, (serveAll true limit window
    ((log.map Entry.call).filter fun call ↦ call.host = host)).2.map Entry.decision =
      (log.map Entry.decision).filter fun d ↦ d.key = host
  /-- A gate that never removes a client decides the same. -/
  unpruned : (serveAll false limit window (log.map Entry.call)).2.map Entry.decision =
    log.map Entry.decision

/-! ## The table -/

theorem prune_lookup (clients : Clients) (cutoff : Time) (host : List Char) :
    (prune clients cutoff).lookup host =
      (clients.lookup host).filter (current cutoff) := by
  cases hlookup : clients.lookup host with
  | none =>
      rw [Option.filter_none, AList.lookup_eq_none]
      have hmem := AList.lookup_eq_none.mp hlookup
      intro hkept
      obtain ⟨values, hvalues⟩ := List.mem_keys.mp hkept
      exact hmem (List.mem_keys.mpr ⟨values, List.mem_of_mem_filter hvalues⟩)
  | some values =>
      have hentry := AList.mem_lookup_iff.mp hlookup
      cases hcurrent : current cutoff values with
      | true =>
          rw [Option.filter_some_pos hcurrent]
          exact AList.mem_lookup_iff.mpr (List.mem_filter.mpr ⟨hentry, hcurrent⟩)
      | false =>
          rw [Option.filter_some_neg (by simpa using hcurrent), AList.lookup_eq_none]
          intro hkept
          obtain ⟨values', hvalues'⟩ := List.mem_keys.mp hkept
          obtain ⟨hentry', hcurrent'⟩ := List.mem_filter.mp hvalues'
          have hsame := AList.mem_lookup_iff.mpr hentry'
          rw [Option.mem_def, hlookup] at hsame
          obtain rfl := Option.some.inj hsame
          rw [hcurrent] at hcurrent'
          cases hcurrent'

/-- The times that are kept of a client. -/
def Gate.values (gate : Gate) (host : List Char) : List Time := (gate.clients.lookup host).getD []

/-- The times of a client after the loop. -/
def Gate.rest (pruning : Bool) (gate : Gate) (now : Time) (host : List Char) : List Time :=
  if pruning && crowded gate.clients && !current (now - gate.window) (gate.values host) then []
  else gate.values host

theorem lookup_rest (pruning : Bool) (gate : Gate) (now : Time) (host : List Char) :
    ((if pruning && crowded gate.clients then prune gate.clients (now - gate.window)
      else gate.clients).lookup host).getD [] = gate.rest pruning now host := by
  unfold Gate.rest
  cases hloop : (pruning && crowded gate.clients) with
  | false => rfl
  | true =>
      rw [if_pos rfl, prune_lookup, Bool.true_and]
      unfold Gate.values
      cases gate.clients.lookup host with
      | none => rfl
      | some values =>
          rw [Option.getD_some]
          cases hcurrent : current (now - gate.window) values with
          | true => simp [Option.filter, hcurrent]
          | false => simp [Option.filter, hcurrent]

/-- What a section does: it decides by the recent times of its client and adds its own. -/
theorem allowWith_spec (pruning : Bool) (gate : Gate) (host : List Char) (now : Time) :
    (allowWith pruning gate host now).1 =
        decide ((recent gate.window (gate.rest pruning now host) now).length < gate.limit) ∧
      (allowWith pruning gate host now).2.limit = gate.limit ∧
      (allowWith pruning gate host now).2.window = gate.window ∧
      ∀ other, (allowWith pruning gate host now).2.values other =
        if other = host then recent gate.window (gate.rest pruning now host) now ++
          (if (allowWith pruning gate host now).1 = true then [now] else [])
        else gate.rest pruning now other := by
  have hkept : ((((if pruning && crowded gate.clients then prune gate.clients (now - gate.window)
      else gate.clients).lookup host).getD []).filter fun value ↦
        decide (now - gate.window < value)) =
          recent gate.window (gate.rest pruning now host) now := by
    rw [lookup_rest]
    rfl
  have hvalues : ∀ (l : List Time) (other : List Char),
      (((if pruning && crowded gate.clients then prune gate.clients (now - gate.window)
        else gate.clients).insert host l).lookup other).getD [] =
          if other = host then l else gate.rest pruning now other := by
    intro l other
    by_cases heq : other = host
    · rw [if_pos heq, heq, AList.lookup_insert, Option.getD_some]
    · rw [if_neg heq, AList.lookup_insert_ne heq, lookup_rest]
  have hsection : allowWith pruning gate host now = allowKept { gate with
      clients := if pruning && crowded gate.clients then prune gate.clients (now - gate.window)
        else gate.clients } host now := by
    cases pruning <;> rfl
  rw [hsection]
  unfold allowKept
  simp only [hkept]
  by_cases hfull : gate.limit ≤ (recent gate.window (gate.rest pruning now host) now).length
  · rw [if_pos hfull]
    refine ⟨(decide_eq_false (not_lt.mpr hfull)).symm, rfl, rfl, fun other ↦ ?_⟩
    rw [if_neg Bool.false_ne_true, List.append_nil]
    exact hvalues _ other
  · rw [if_neg hfull]
    refine ⟨(decide_eq_true (not_le.mp hfull)).symm, rfl, rfl, fun other ↦ ?_⟩
    rw [if_pos rfl]
    exact hvalues _ other

end MultiSpeed.Api.RateGate
