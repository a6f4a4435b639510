import MultiSpeed.Lib.Ledger
import MultiSpeed.Lib.Transition
import MultiSpeed.Execution.Worker

/-!
# The run limiter under concurrency

Any number of callers of `Acquire`, each with arguments of its own, that release
what they acquired.  A turn of the loop of `Acquire` is one section under the
mutex; a refused caller leaves it with the channel it is going to wait on.  The
channels are numbered in the order they were made, so those before `changed` are
closed.
-/

namespace MultiSpeed.Execution

/-- What a holder has locked. -/
structure Held where
  taskID : String
  wan : String

/-- The limiter counts these holders and knows exactly their keys, which are
distinct. -/
structure RunLimiter.Holds (l : RunLimiter) (held : Multiset Held) : Prop where
  total : l.runningTotal = held.card
  tasks : ∀ k, k ∈ l.tasks ↔ ∃ h ∈ held, h.taskID = k
  wans : ∀ k, k ∈ l.wans ↔ ∃ h ∈ held, h.wan = k
  tasks_nodup : (held.map Held.taskID).Nodup
  wans_nodup : (held.map Held.wan).Nodup

namespace RunLimiter

theorem holds_new : new.Holds 0 := by
  refine ⟨rfl, fun k ↦ ?_, fun k ↦ ?_, ?_, ?_⟩ <;> simp [new]

theorem allowed_iff {l : RunLimiter} {taskID wan : String} {globalLimit : ℤ}
    {separateWAN : Bool} :
    l.allowed taskID wan globalLimit separateWAN = true ↔
      taskID ∉ l.tasks ∧ wan ∉ l.wans ∧ (l.runningTotal : ℤ) < clampLimit globalLimit ∧
        (separateWAN = false → l.runningTotal = 0) := by
  cases separateWAN <;> simp [allowed, and_assoc]

theorem acquire_eq_some {l l' : RunLimiter} {taskID wan : String} {globalLimit : ℤ}
    {separateWAN : Bool} (h : l.acquire taskID wan globalLimit separateWAN = some l') :
    l.allowed taskID wan globalLimit separateWAN = true ∧
      l' = ⟨l.runningTotal + 1, insert taskID l.tasks, insert wan l.wans⟩ := by
  unfold acquire at h
  split at h
  · rename_i hallowed
    exact ⟨hallowed, (Option.some.inj h).symm⟩
  · cases h

theorem acquire_eq_none {l : RunLimiter} {taskID wan : String} {globalLimit : ℤ}
    {separateWAN : Bool} (h : l.acquire taskID wan globalLimit separateWAN = none) :
    l.allowed taskID wan globalLimit separateWAN = false := by
  unfold acquire at h
  split at h
  · cases h
  · rename_i hrefused
    simpa using hrefused

/-- An admission can only make others inadmissible. -/
theorem allowed_of_allowed_acquire {l l' : RunLimiter} {taskID wan k w : String}
    {globalLimit limit : ℤ} {separateWAN separate : Bool}
    (h : l.acquire taskID wan globalLimit separateWAN = some l')
    (hallowed : l'.allowed k w limit separate = true) : l.allowed k w limit separate = true := by
  obtain ⟨-, rfl⟩ := acquire_eq_some h
  rw [allowed_iff] at hallowed ⊢
  obtain ⟨htask, hwan, hlimit, hseparate⟩ := hallowed
  simp only [Finset.mem_insert, not_or] at htask hwan
  have hmore : ((l.runningTotal + 1 : ℕ) : ℤ) < clampLimit limit := hlimit
  refine ⟨htask.2, hwan.2, by omega, fun hoff ↦ ?_⟩
  have hnone : l.runningTotal + 1 = 0 := hseparate hoff
  omega

variable {l : RunLimiter} {held : Multiset Held}

theorem Holds.acquire {l' : RunLimiter} {taskID wan : String} {globalLimit : ℤ}
    {separateWAN : Bool} (hl : l.Holds held)
    (h : l.acquire taskID wan globalLimit separateWAN = some l') :
    l'.Holds (⟨taskID, wan⟩ ::ₘ held) := by
  obtain ⟨hallowed, rfl⟩ := acquire_eq_some h
  obtain ⟨htask, hwan, -, -⟩ := allowed_iff.mp hallowed
  rw [hl.tasks] at htask
  rw [hl.wans] at hwan
  refine ⟨?_, fun k ↦ ?_, fun k ↦ ?_, ?_, ?_⟩
  · rw [Multiset.card_cons, hl.total]
  · simp only [Finset.mem_insert, hl.tasks, Multiset.mem_cons, exists_eq_or_imp, eq_comm]
  · simp only [Finset.mem_insert, hl.wans, Multiset.mem_cons, exists_eq_or_imp, eq_comm]
  · rw [Multiset.map_cons, Multiset.nodup_cons]
    exact ⟨fun hmem ↦ htask (Multiset.mem_map.mp hmem), hl.tasks_nodup⟩
  · rw [Multiset.map_cons, Multiset.nodup_cons]
    exact ⟨fun hmem ↦ hwan (Multiset.mem_map.mp hmem), hl.wans_nodup⟩

theorem Holds.release {h : Held} (hl : l.Holds (h ::ₘ held)) :
    (l.release h.taskID h.wan).Holds held ∧ 0 < l.runningTotal := by
  have htotal : l.runningTotal = held.card + 1 := by
    rw [hl.total, Multiset.card_cons]
  have htasks := hl.tasks_nodup
  have hwans := hl.wans_nodup
  rw [Multiset.map_cons, Multiset.nodup_cons] at htasks hwans
  refine ⟨⟨?_, fun k ↦ ?_, fun k ↦ ?_, htasks.2, hwans.2⟩, by omega⟩
  · rw [RunLimiter.release, htotal]
    rfl
  · rw [RunLimiter.release, Finset.mem_erase, hl.tasks]
    constructor
    · rintro ⟨hne, other, hother, rfl⟩
      rcases Multiset.mem_cons.mp hother with rfl | hother
      · exact absurd rfl hne
      · exact ⟨other, hother, rfl⟩
    · rintro ⟨other, hother, rfl⟩
      refine ⟨fun heq ↦ htasks.1 ?_, other, Multiset.mem_cons_of_mem hother, rfl⟩
      exact heq ▸ Multiset.mem_map_of_mem Held.taskID hother
  · rw [RunLimiter.release, Finset.mem_erase, hl.wans]
    constructor
    · rintro ⟨hne, other, hother, rfl⟩
      rcases Multiset.mem_cons.mp hother with rfl | hother
      · exact absurd rfl hne
      · exact ⟨other, hother, rfl⟩
    · rintro ⟨other, hother, rfl⟩
      refine ⟨fun heq ↦ hwans.1 ?_, other, Multiset.mem_cons_of_mem hother, rfl⟩
      exact heq ▸ Multiset.mem_map_of_mem Held.wan hother

end RunLimiter

namespace Limiter

/-- The arguments of `Acquire`, with the path its key is made of. -/
structure Request where
  taskID : String
  interfaceName : String
  sourceIP : String
  globalLimit : ℤ
  separateWAN : Bool

inductive Phase where
  /-- Before a turn of the loop. -/
  | entering
  /-- Going to wait, or waiting, on a channel. -/
  | parked (channel : ℕ)
  | holding
  /-- `Acquire` has returned the error of its context. -/
  | cancelled
  | released
deriving DecidableEq

structure Caller where
  request : Request
  phase : Phase

structure State where
  limiter : RunLimiter
  /-- The open channel. -/
  changed : ℕ
  callers : List Caller

inductive Action where
  | call (request : Request)
  | attempt (index : ℕ)
  /-- The channel is closed. -/
  | wake (index : ℕ)
  /-- The context is done. -/
  | cancel (index : ℕ)
  | release (index : ℕ)

variable (net : Net)

def Request.wan (r : Request) : String := wanPathKey net r.interfaceName r.sourceIP

def Request.held (r : Request) : Held := ⟨r.taskID, r.wan net⟩

/-- The caller with the index in another phase. -/
def State.move (s : State) (index : ℕ) (c : Caller) (phase : Phase) : State :=
  { s with callers := s.callers.set index { c with phase := phase } }

def step (s : State) : Action → Option State
  | .call request => some { s with callers := s.callers ++ [⟨request, .entering⟩] }
  | .attempt index =>
      match s.callers[index]? with
      | some c =>
          match c.phase with
          | .entering =>
              match s.limiter.acquire c.request.taskID (c.request.wan net)
                  c.request.globalLimit c.request.separateWAN with
              | some limiter => some { s.move index c .holding with limiter := limiter }
              | none => some (s.move index c (.parked s.changed))
          | _ => none
      | none => none
  | .wake index =>
      match s.callers[index]? with
      | some c =>
          match c.phase with
          | .parked channel =>
              if channel < s.changed then some (s.move index c .entering) else none
          | _ => none
      | none => none
  | .cancel index =>
      match s.callers[index]? with
      | some c =>
          match c.phase with
          | .parked _ => some (s.move index c .cancelled)
          | _ => none
      | none => none
  | .release index =>
      match s.callers[index]? with
      | some c =>
          match c.phase with
          | .holding =>
              some { s.move index c .released with
                limiter := s.limiter.release c.request.taskID (c.request.wan net)
                changed := s.changed + 1 }
          | _ => none
      | none => none

/-- A new limiter. -/
def Initial (s : State) : Prop := s = ⟨.new, 0, []⟩

/-- One case for each kind of step. -/
inductive Stepped (s : State) : Action → State → Prop where
  | called (request : Request) :
      Stepped s (.call request) { s with callers := s.callers ++ [⟨request, .entering⟩] }
  | admitted {index : ℕ} {c : Caller} {limiter : RunLimiter}
      (at_ : s.callers[index]? = some c) (phase : c.phase = .entering)
      (acquired : s.limiter.acquire c.request.taskID (c.request.wan net)
        c.request.globalLimit c.request.separateWAN = some limiter) :
      Stepped s (.attempt index) { s.move index c .holding with limiter := limiter }
  | refused {index : ℕ} {c : Caller}
      (at_ : s.callers[index]? = some c) (phase : c.phase = .entering)
      (refused : s.limiter.acquire c.request.taskID (c.request.wan net)
        c.request.globalLimit c.request.separateWAN = none) :
      Stepped s (.attempt index) (s.move index c (.parked s.changed))
  | woken {index channel : ℕ} {c : Caller} (at_ : s.callers[index]? = some c)
      (phase : c.phase = .parked channel) (closed : channel < s.changed) :
      Stepped s (.wake index) (s.move index c .entering)
  | cancelled {index channel : ℕ} {c : Caller} (at_ : s.callers[index]? = some c)
      (phase : c.phase = .parked channel) :
      Stepped s (.cancel index) (s.move index c .cancelled)
  | released {index : ℕ} {c : Caller} (at_ : s.callers[index]? = some c)
      (phase : c.phase = .holding) :
      Stepped s (.release index) { s.move index c .released with
        limiter := s.limiter.release c.request.taskID (c.request.wan net)
        changed := s.changed + 1 }

theorem step_spec {s t : State} {action : Action} (h : step net s action = some t) :
    Stepped net s action t := by
  cases action with
  | call request =>
      obtain rfl := Option.some.inj h
      exact .called request
  | attempt index =>
      simp only [step] at h
      split at h
      · rename_i c hc
        split at h
        · rename_i hphase
          split at h
          · rename_i limiter hacquire
            obtain rfl := Option.some.inj h
            exact .admitted hc hphase hacquire
          · rename_i hrefused
            obtain rfl := Option.some.inj h
            exact .refused hc hphase hrefused
        · cases h
      · cases h
  | wake index =>
      simp only [step] at h
      split at h
      · rename_i c hc
        split at h
        · rename_i channel hphase
          split at h
          · rename_i hclosed
            obtain rfl := Option.some.inj h
            exact .woken hc hphase hclosed
          · cases h
        · cases h
      · cases h
  | cancel index =>
      simp only [step] at h
      split at h
      · rename_i c hc
        split at h
        · rename_i channel hphase
          obtain rfl := Option.some.inj h
          exact .cancelled hc hphase
        · cases h
      · cases h
  | release index =>
      simp only [step] at h
      split at h
      · rename_i c hc
        split at h
        · rename_i hphase
          obtain rfl := Option.some.inj h
          exact .released hc hphase
        · cases h
      · cases h

/-! ## The holders -/

def Caller.held (c : Caller) : Option Held :=
  match c.phase with
  | .holding => some (c.request.held net)
  | _ => none

/-- What the callers that have acquired and not released have locked. -/
def State.held (s : State) : List Held := s.callers.filterMap (Caller.held net)

variable {net}

variable (net) in
theorem held_of_holding {c : Caller} (h : c.phase = .holding) :
    c.held net = some (c.request.held net) := by
  rw [Caller.held, h]

variable (net) in
theorem held_move {s : State} {index : ℕ} {c : Caller} (phase : Phase)
    (hc : s.callers[index]? = some c) : ∃ rest : Multiset Held,
      (s.held net : Multiset Held) = (c.held net).toList + rest ∧
        ((s.move index c phase).held net : Multiset Held) =
          (Caller.held net { c with phase := phase }).toList + rest := by
  obtain ⟨rest, hbefore, hafter⟩ := List.exists_filterMap_set (Caller.held net) hc
  exact ⟨rest, hbefore, hafter _⟩

/-- A caller that neither holds before nor after changes no holder. -/
theorem held_move_of_none {s : State} {index : ℕ} {c : Caller} {phase : Phase}
    (hc : s.callers[index]? = some c) (hbefore : c.held net = none)
    (hafter : Caller.held net { c with phase := phase } = none) :
    ((s.move index c phase).held net : Multiset Held) = s.held net := by
  obtain ⟨rest, hs, ht⟩ := held_move net phase hc
  rw [hs, ht, hbefore, hafter]

/-- The limiter counts the holders and locks their keys. -/
theorem holds_step {s t : State} {action : Action} (hs : s.limiter.Holds (s.held net))
    (h : step net s action = some t) : t.limiter.Holds (t.held net) := by
  cases step_spec net h with
  | called request =>
      have hsame : (State.held net { s with callers := s.callers ++ [⟨request, .entering⟩] }) =
          s.held net := by
        simp [State.held, Caller.held]
      rw [hsame]
      exact hs
  | @admitted index c limiter hc hphase hacquire =>
      obtain ⟨rest, hbefore, hafter⟩ := held_move net .holding hc
      have hnone : c.held net = none := by rw [Caller.held, hphase]
      rw [hnone] at hbefore
      have hrest : (s.held net : Multiset Held) = rest := by simpa using hbefore
      rw [hrest] at hs
      have hheld : ((s.move index c .holding).held net : Multiset Held) =
          c.request.held net ::ₘ rest := by
        rw [hafter]
        rfl
      have hnew := hs.acquire hacquire
      exact hheld ▸ hnew
  | refused hc hphase hrefused =>
      rw [held_move_of_none hc (by rw [Caller.held, hphase]) rfl]
      exact hs
  | woken hc hphase hclosed =>
      rw [held_move_of_none hc (by rw [Caller.held, hphase]) rfl]
      exact hs
  | cancelled hc hphase =>
      rw [held_move_of_none hc (by rw [Caller.held, hphase]) rfl]
      exact hs
  | @released index c hc hphase =>
      obtain ⟨rest, hbefore, hafter⟩ := held_move net .released hc
      rw [held_of_holding net hphase] at hbefore
      have hheld : ((s.move index c .released).held net : Multiset Held) = rest := by
        simpa [Caller.held] using hafter
      rw [hbefore] at hs
      have hnew : (s.limiter.release c.request.taskID (c.request.wan net)).Holds rest :=
        (RunLimiter.Holds.release hs).1
      exact hheld ▸ hnew

theorem holds_of_reachable {s : State} (hs : Transition.Reachable (step net) Initial s) :
    s.limiter.Holds (s.held net) := by
  refine hs.invariant (P := fun s ↦ s.limiter.Holds (s.held net)) ?_
    fun _ _ _ hs h ↦ holds_step hs h
  rintro s rfl
  exact RunLimiter.holds_new

/-! ## Mutual exclusion -/

def Caller.holds (c : Caller) : Bool :=
  match c.phase with
  | .holding => true
  | _ => false

def State.holders (s : State) : List Caller := s.callers.filter Caller.holds

theorem held_eq (s : State) : s.held net = s.holders.map fun c ↦ c.request.held net := by
  unfold State.held State.holders
  induction s.callers with
  | nil => rfl
  | cons c rest ih =>
      cases hphase : c.phase with
      | holding => simp [Caller.held, Caller.holds, hphase, ih]
      | entering | parked | cancelled | released =>
          simp [Caller.held, Caller.holds, hphase, ih]

variable (net)

/-- Two spellings of one address, or one text. -/
def SameAddress (first second : String) : Prop :=
  first = second ∨ ∃ ip, net.parseIP first = some ip ∧ net.parseIP second = some ip

/-- Both tests would run over the same WAN path. -/
def SamePath (r q : Request) : Prop :=
  r.interfaceName = q.interfaceName ∧ SameAddress net r.sourceIP q.sourceIP

theorem wan_of_samePath {r q : Request} (h : SamePath net r q) : r.wan net = q.wan net := by
  obtain ⟨hinterface, haddress⟩ := h
  unfold Request.wan wanPathKey
  rw [hinterface]
  rcases haddress with haddress | ⟨ip, hr, hq⟩
  · rw [haddress]
  · rw [hr, hq]

/-- The limiter knows exactly its holders, which exclude one another. -/
structure Exclusive (s : State) : Prop where
  total : s.limiter.runningTotal = s.holders.length
  tasks : ∀ k, k ∈ s.limiter.tasks ↔ ∃ c ∈ s.holders, c.request.taskID = k
  wans : ∀ k, k ∈ s.limiter.wans ↔ ∃ c ∈ s.holders, c.request.wan net = k
  distinct : ∀ (i j : ℕ) (c d : Caller), s.callers[i]? = some c → s.callers[j]? = some d →
    c.phase = .holding → d.phase = .holding → i ≠ j →
      c.request.taskID ≠ d.request.taskID ∧ ¬ SamePath net c.request d.request

variable {net}

/-- Holders at different places have different keys. -/
theorem pairwise_of_nodup {s : State} (f : Held → String) (hnd : ((s.held net).map f).Nodup)
    {i j : ℕ} {c d : Caller} (hc : s.callers[i]? = some c) (hd : s.callers[j]? = some d)
    (hholds : c.phase = .holding) (hholds' : d.phase = .holding) (hij : i ≠ j) :
    f (c.request.held net) ≠ f (d.request.held net) := by
  rw [State.held, List.map_filterMap, List.Nodup, List.pairwise_filterMap,
    List.pairwise_iff_getElem] at hnd
  obtain ⟨hi, rfl⟩ := List.getElem?_eq_some_iff.mp hc
  obtain ⟨hj, rfl⟩ := List.getElem?_eq_some_iff.mp hd
  have hfirst := congrArg (Option.map f) (held_of_holding net hholds)
  have hsecond := congrArg (Option.map f) (held_of_holding net hholds')
  rcases lt_or_gt_of_ne hij with hlt | hlt
  · exact hnd i j hi hj hlt _ hfirst _ hsecond
  · exact (hnd j i hj hi hlt _ hsecond _ hfirst).symm

theorem exclusive_of_holds {s : State} (hs : s.limiter.Holds (s.held net)) :
    Exclusive net s where
  total := by
    rw [hs.total, Multiset.coe_card, held_eq, List.length_map]
  tasks k := by
    rw [hs.tasks, held_eq]
    simp [Request.held]
  wans k := by
    rw [hs.wans, held_eq]
    simp [Request.held]
  distinct i j c d hc hd hholds hholds' hij := by
    refine ⟨pairwise_of_nodup Held.taskID hs.tasks_nodup hc hd hholds hholds' hij, fun hpath ↦ ?_⟩
    exact pairwise_of_nodup Held.wan hs.wans_nodup hc hd hholds hholds' hij
      (wan_of_samePath net hpath)

theorem holders_move {s : State} {index : ℕ} {c : Caller} {phase : Phase}
    (hc : s.callers[index]? = some c) (hbefore : c.holds = false)
    (hafter : Caller.holds { c with phase := phase } = false) :
    (s.move index c phase).holders = s.holders := by
  unfold State.holders State.move
  generalize s.callers = callers at hc
  induction callers generalizing index with
  | nil => rfl
  | cons first rest ih =>
      cases index with
      | zero =>
          obtain rfl := Option.some.inj hc
          simp [hbefore, hafter]
      | succ index =>
          have hc : rest[index]? = some c := hc
          have hrest := ih hc
          simp only [List.set_cons_succ, List.filter_cons, hrest]

/-- Only the limits of its own call let a caller in. -/
theorem admitted_below {s : State} {c : Caller} {limiter : RunLimiter} (hs : Exclusive net s)
    (h : s.limiter.acquire c.request.taskID (c.request.wan net)
      c.request.globalLimit c.request.separateWAN = some limiter) :
    (s.holders.length : ℤ) < RunLimiter.clampLimit c.request.globalLimit ∧
      (c.request.separateWAN = false → s.holders = []) := by
  obtain ⟨hallowed, -⟩ := RunLimiter.acquire_eq_some h
  obtain ⟨-, -, hlimit, hseparate⟩ := RunLimiter.allowed_iff.mp hallowed
  rw [hs.total] at hlimit hseparate
  exact ⟨hlimit, fun hoff ↦ List.length_eq_zero_iff.mp (hseparate hoff)⟩

/-- In every reachable state the limiter knows exactly its holders, which share
neither a task nor a path.  A caller is admitted only below its own limit, and
alone if it does not allow separate paths; a release takes one holder away, and a
cancelled call changes nothing. -/
theorem limiter_exclusive (net : Net) (s : State)
    (hs : Transition.Reachable (step net) Initial s) :
    Exclusive net s ∧
    (∀ (index : ℕ) (t : State) (c : Caller), step net s (.attempt index) = some t →
      t.callers[index]? = some c → c.phase = .holding →
        (s.holders.length : ℤ) < RunLimiter.clampLimit c.request.globalLimit ∧
        (c.request.separateWAN = false → s.holders = [])) ∧
    (∀ (index : ℕ) (t : State), step net s (.release index) = some t →
      0 < s.limiter.runningTotal ∧ t.limiter.runningTotal + 1 = s.limiter.runningTotal) ∧
    (∀ (index : ℕ) (t : State), step net s (.cancel index) = some t →
      t.limiter = s.limiter ∧ t.changed = s.changed ∧ t.holders = s.holders) := by
  have hexclusive := exclusive_of_holds (holds_of_reachable hs)
  refine ⟨hexclusive, ?_, ?_, ?_⟩
  · intro index t c h hc hphase
    cases step_spec net h with
    | @admitted _ d limiter hat hentering hacquire =>
        have hset : ((s.move index d .holding).callers)[index]? = some c := hc
        rw [State.move, List.getElem?_set_self (List.getElem?_eq_some_iff.mp hat).1] at hset
        obtain rfl := Option.some.inj hset
        exact admitted_below hexclusive hacquire
    | @refused _ d hat hentering hrefused =>
        rw [State.move, List.getElem?_set_self (List.getElem?_eq_some_iff.mp hat).1] at hc
        obtain rfl := Option.some.inj hc
        cases hphase
  · intro index t h
    have hbefore := holds_of_reachable hs
    have hafter := holds_step hbefore h
    cases step_spec net h with
    | @released _ c hat hphase =>
        obtain ⟨rest, hheld, -⟩ := held_move net .released hat
        rw [held_of_holding net hphase] at hheld
        rw [hheld] at hbefore
        have hpositive : 0 < s.limiter.runningTotal := (RunLimiter.Holds.release hbefore).2
        have hless : s.limiter.runningTotal - 1 + 1 = s.limiter.runningTotal := by omega
        exact ⟨hpositive, hless⟩
  · intro index t h
    cases step_spec net h with
    | cancelled hat hphase =>
        refine ⟨rfl, rfl, holders_move hat ?_ rfl⟩
        rw [Caller.holds, hphase]

/-- Reads two spellings of one address and nothing else. -/
def exampleNet : Net where
  parseIP text := if text = "2001:db8::1" ∨ text = "2001:0db8:0:0:0:0:0:1" then
    some 0x20010db8000000000000000000000001 else none
  ipString _ := "2001:db8::1"

/-- A holder, a call over the same path, and a call over another one. -/
def exampleRun : List Action :=
  [.call ⟨"a", "eth0", "2001:db8::1", 2, true⟩, .attempt 0,
    .call ⟨"b", "eth0", "2001:0db8:0:0:0:0:0:1", 2, true⟩, .attempt 1,
    .call ⟨"b", "eth1", "2001:db8::1", 2, true⟩, .attempt 2]

def exampleState : State :=
  (Transition.run (step exampleNet) ⟨.new, 0, []⟩ exampleRun).getD ⟨.new, 0, []⟩

theorem exampleState_reachable : Transition.Reachable (step exampleNet) Initial exampleState :=
  ⟨⟨.new, 0, []⟩, exampleRun, rfl, rfl⟩

theorem limiter_exclusive_samePath :
    exampleState.callers.map Caller.phase = [.holding, .parked 0, .holding] ∧
      Exclusive exampleNet exampleState :=
  ⟨by decide +kernel, (limiter_exclusive exampleNet exampleState exampleState_reachable).1⟩

/-! ## No lost wakeup -/

/-- A channel was made before now, and who waits on the open one is not let in by
the limiter as it is. -/
def Parked (net : Net) (s : State) : Prop :=
  ∀ c ∈ s.callers, ∀ channel, c.phase = .parked channel →
    channel ≤ s.changed ∧
    (channel = s.changed →
      s.limiter.allowed c.request.taskID (c.request.wan net)
        c.request.globalLimit c.request.separateWAN = false)

theorem mem_move {s : State} {index : ℕ} {c d : Caller} {phase : Phase}
    (h : d ∈ (s.move index c phase).callers) : d ∈ s.callers ∨ d = { c with phase := phase } :=
  List.mem_or_eq_of_mem_set h

theorem parked_step {s t : State} {action : Action} (hs : Parked net s)
    (h : step net s action = some t) : Parked net t := by
  cases step_spec net h with
  | called request =>
      intro c hc channel hparked
      rcases List.mem_append.mp hc with hc | hc
      · exact hs c hc channel hparked
      · obtain rfl := List.mem_singleton.mp hc
        cases hparked
  | @admitted index d limiter hat hphase hacquire =>
      intro c hc channel hparked
      rcases mem_move hc with hc | rfl
      · obtain ⟨hle, hrefused⟩ := hs c hc channel hparked
        refine ⟨hle, fun hopen ↦ ?_⟩
        -- an admission opens the limiter for nobody
        have hbefore := hrefused hopen
        by_contra hallowed
        rw [Bool.not_eq_false] at hallowed
        rw [RunLimiter.allowed_of_allowed_acquire hacquire hallowed] at hbefore
        cases hbefore
      · cases hparked
  | @refused index d hat hphase hrefused =>
      intro c hc channel hparked
      rcases mem_move hc with hc | rfl
      · exact hs c hc channel hparked
      · have hchannel : s.changed = channel := Phase.parked.inj hparked
        exact ⟨hchannel.ge, fun _ ↦ RunLimiter.acquire_eq_none hrefused⟩
  | woken hat hphase hclosed =>
      intro c hc channel hparked
      rcases mem_move hc with hc | rfl
      · exact hs c hc channel hparked
      · cases hparked
  | cancelled hat hphase =>
      intro c hc channel hparked
      rcases mem_move hc with hc | rfl
      · exact hs c hc channel hparked
      · cases hparked
  | released hat hphase =>
      intro c hc channel hparked
      rcases mem_move hc with hc | rfl
      · -- every channel there was is closed by a release
        obtain ⟨hle, -⟩ := hs c hc channel hparked
        have hlt : channel < s.changed + 1 := by omega
        exact ⟨hlt.le, fun hopen ↦ absurd hopen hlt.ne⟩
      · cases hparked

/-- Who is parked on a channel that is not closed would not be admitted by the
limiter as it is. -/
theorem no_lost_wakeup (net : Net) (s : State)
    (hs : Transition.Reachable (step net) Initial s) (index : ℕ) (c : Caller) (channel : ℕ)
    (hc : s.callers[index]? = some c) (hparked : c.phase = .parked channel)
    (hopen : ¬ channel < s.changed) :
    s.limiter.allowed c.request.taskID (c.request.wan net)
      c.request.globalLimit c.request.separateWAN = false := by
  have hinvariant : Parked net s := by
    refine hs.invariant (P := Parked net) ?_ fun _ _ _ hs h ↦ parked_step hs h
    rintro s rfl c hc
    cases hc
  obtain ⟨hle, hrefused⟩ := hinvariant c (List.mem_of_getElem? hc) channel hparked
  exact hrefused (by omega)

theorem no_lost_wakeup_samePath :
    exampleState.limiter.allowed "b" (wanPathKey exampleNet "eth0" "2001:0db8:0:0:0:0:0:1")
      2 true = false :=
  no_lost_wakeup exampleNet exampleState exampleState_reachable 1
    ⟨⟨"b", "eth0", "2001:0db8:0:0:0:0:0:1", 2, true⟩, .parked 0⟩ 0 rfl rfl (by decide +kernel)

end Limiter

end MultiSpeed.Execution
