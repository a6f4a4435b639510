import Mathlib.Data.Int.Notation
import Mathlib.Logic.Function.Basic
import MultiSpeed.Lib.Transition

/-!
# The runtime locks of the Ookla adapter

Any number of calls of `runProcess`, each for a home directory of its own.  The
statements that `acquireRuntimeLock` and `releaseRuntimeLockReference` make are
taken one at a time and in any order between the callers; the mutex only keeps
out who wants to enter it.  The locks are numbered in the order they were made,
and a released lock keeps its number.
-/

namespace MultiSpeed.Providers

/-- `semaphore` tells that the channel is full, `references` how many callers
have counted themselves. -/
structure RuntimeLock where
  semaphore : Bool
  references : ℤ
deriving DecidableEq

namespace RuntimeLocks

/-- Where a caller is.  From `looking` to `leaving` and from `dropping` to
`unlocking` it is inside the mutex. -/
inductive Phase where
  | calling
  | looking
  /-- About to increment the references. -/
  | counting (lock : ℕ)
  | leaving (lock : ℕ)
  /-- In the select. -/
  | waiting (lock : ℕ)
  /-- The process runs. -/
  | holding (lock : ℕ)
  /-- About to call `releaseRuntimeLockReference`. -/
  | releasing (lock : ℕ)
  /-- About to decrement the references. -/
  | dropping (lock : ℕ)
  /-- About to look whether the entry goes. -/
  | deleting (lock : ℕ)
  | unlocking
  | returned
deriving DecidableEq

structure Caller where
  homeDirectory : String
  phase : Phase

structure State where
  runtimeLocksMu : Bool
  runtimeLocks : String → Option ℕ
  locks : ℕ → RuntimeLock
  /-- The number of the next lock. -/
  next : ℕ
  callers : List Caller
  /-- The callers whose context is done. -/
  done : ℕ → Bool

inductive Action where
  | runProcess (homeDirectory : String)
  /-- The context of the caller is done. -/
  | cancel (index : ℕ)
  /-- The next statement of the caller; in the select, the send. -/
  | advance (index : ℕ)
  /-- The other branch of the select. -/
  | abandon (index : ℕ)

/-- The caller with the index in another phase. -/
def State.move (s : State) (index : ℕ) (c : Caller) (phase : Phase) : State :=
  { s with callers := s.callers.set index { c with phase := phase } }

def State.setLock (s : State) (lock : ℕ) (value : RuntimeLock) : State :=
  { s with locks := Function.update s.locks lock value }

def State.setEntry (s : State) (homeDirectory : String) (entry : Option ℕ) : State :=
  { s with runtimeLocks := Function.update s.runtimeLocks homeDirectory entry }

/-- The next statement, where it does not block. -/
def advance (s : State) (index : ℕ) (c : Caller) : Option State :=
  match c.phase with
  | .calling =>
      if s.runtimeLocksMu then none
      else some { s.move index c .looking with runtimeLocksMu := true }
  | .looking =>
      match s.runtimeLocks c.homeDirectory with
      | some lock => some (s.move index c (.counting lock))
      | none =>
          some { ((s.setLock s.next ⟨false, 0⟩).setEntry c.homeDirectory (some s.next)).move index c
              (.counting s.next) with next := s.next + 1 }
  | .counting lock =>
      some ((s.setLock lock { s.locks lock with references := (s.locks lock).references + 1 }).move
        index c (.leaving lock))
  | .leaving lock => some { s.move index c (.waiting lock) with runtimeLocksMu := false }
  | .waiting lock =>
      if (s.locks lock).semaphore then none
      else some ((s.setLock lock { s.locks lock with semaphore := true }).move index c
        (.holding lock))
  | .holding lock =>
      if (s.locks lock).semaphore then
        some ((s.setLock lock { s.locks lock with semaphore := false }).move index c
          (.releasing lock))
      else none
  | .releasing lock =>
      if s.runtimeLocksMu then none
      else some { s.move index c (.dropping lock) with runtimeLocksMu := true }
  | .dropping lock =>
      some ((s.setLock lock { s.locks lock with references := (s.locks lock).references - 1 }).move
        index c (.deleting lock))
  | .deleting lock =>
      if (s.locks lock).references = 0 ∧ s.runtimeLocks c.homeDirectory = some lock then
        some ((s.setEntry c.homeDirectory none).move index c .unlocking)
      else some (s.move index c .unlocking)
  | .unlocking => some { s.move index c .returned with runtimeLocksMu := false }
  | .returned => none

def step (s : State) : Action → Option State
  | .runProcess homeDirectory =>
      some { s with callers := s.callers ++ [⟨homeDirectory, .calling⟩] }
  | .cancel index => some { s with done := Function.update s.done index true }
  | .advance index =>
      match s.callers[index]? with
      | some c => advance s index c
      | none => none
  | .abandon index =>
      match s.callers[index]? with
      | some c =>
          match c.phase with
          | .waiting lock => if s.done index then some (s.move index c (.releasing lock)) else none
          | _ => none
      | none => none

/-- The map is nil, which reads as the empty map. -/
def State.new : State := ⟨false, fun _ ↦ none, fun _ ↦ ⟨false, 0⟩, 0, [], fun _ ↦ false⟩

def Initial (s : State) : Prop := s = .new

/-! ## What a step does -/

/-- One case for each kind of step of the caller. -/
inductive Advanced (s : State) (index : ℕ) (c : Caller) : State → Prop where
  | entered (phase : c.phase = .calling) (free : s.runtimeLocksMu = false) :
      Advanced s index c { s.move index c .looking with runtimeLocksMu := true }
  | found {lock : ℕ} (phase : c.phase = .looking)
      (entry : s.runtimeLocks c.homeDirectory = some lock) :
      Advanced s index c (s.move index c (.counting lock))
  | made (phase : c.phase = .looking) (entry : s.runtimeLocks c.homeDirectory = none) :
      Advanced s index c
        { ((s.setLock s.next ⟨false, 0⟩).setEntry c.homeDirectory (some s.next)).move index c
            (.counting s.next) with next := s.next + 1 }
  | counted {lock : ℕ} (phase : c.phase = .counting lock) :
      Advanced s index c
        ((s.setLock lock { s.locks lock with references := (s.locks lock).references + 1 }).move
          index c (.leaving lock))
  | left {lock : ℕ} (phase : c.phase = .leaving lock) :
      Advanced s index c { s.move index c (.waiting lock) with runtimeLocksMu := false }
  | sent {lock : ℕ} (phase : c.phase = .waiting lock) (empty : (s.locks lock).semaphore = false) :
      Advanced s index c
        ((s.setLock lock { s.locks lock with semaphore := true }).move index c (.holding lock))
  | received {lock : ℕ} (phase : c.phase = .holding lock)
      (full : (s.locks lock).semaphore = true) :
      Advanced s index c
        ((s.setLock lock { s.locks lock with semaphore := false }).move index c (.releasing lock))
  | reentered {lock : ℕ} (phase : c.phase = .releasing lock) (free : s.runtimeLocksMu = false) :
      Advanced s index c { s.move index c (.dropping lock) with runtimeLocksMu := true }
  | dropped {lock : ℕ} (phase : c.phase = .dropping lock) :
      Advanced s index c
        ((s.setLock lock { s.locks lock with references := (s.locks lock).references - 1 }).move
          index c (.deleting lock))
  | deleted {lock : ℕ} (phase : c.phase = .deleting lock)
      (unreferenced : (s.locks lock).references = 0)
      (entry : s.runtimeLocks c.homeDirectory = some lock) :
      Advanced s index c ((s.setEntry c.homeDirectory none).move index c .unlocking)
  | kept {lock : ℕ} (phase : c.phase = .deleting lock)
      (kept : (s.locks lock).references = 0 → s.runtimeLocks c.homeDirectory ≠ some lock) :
      Advanced s index c (s.move index c .unlocking)
  | unlocked (phase : c.phase = .unlocking) :
      Advanced s index c { s.move index c .returned with runtimeLocksMu := false }

theorem advance_spec {s t : State} {index : ℕ} {c : Caller} (h : advance s index c = some t) :
    Advanced s index c t := by
  cases hphase : c.phase with
  | calling =>
      simp only [advance, hphase] at h
      split at h
      · cases h
      · rename_i hfree
        obtain rfl := Option.some.inj h
        exact .entered hphase (Bool.eq_false_iff.mpr hfree)
  | looking =>
      simp only [advance, hphase] at h
      split at h
      · rename_i lock hentry
        obtain rfl := Option.some.inj h
        exact .found hphase hentry
      · rename_i hentry
        obtain rfl := Option.some.inj h
        exact .made hphase hentry
  | counting lock =>
      simp only [advance, hphase] at h
      obtain rfl := Option.some.inj h
      exact .counted hphase
  | leaving lock =>
      simp only [advance, hphase] at h
      obtain rfl := Option.some.inj h
      exact .left hphase
  | waiting lock =>
      simp only [advance, hphase] at h
      split at h
      · cases h
      · rename_i hempty
        obtain rfl := Option.some.inj h
        exact .sent hphase (Bool.eq_false_iff.mpr hempty)
  | holding lock =>
      simp only [advance, hphase] at h
      split at h
      · rename_i hfull
        obtain rfl := Option.some.inj h
        exact .received hphase hfull
      · cases h
  | releasing lock =>
      simp only [advance, hphase] at h
      split at h
      · cases h
      · rename_i hfree
        obtain rfl := Option.some.inj h
        exact .reentered hphase (Bool.eq_false_iff.mpr hfree)
  | dropping lock =>
      simp only [advance, hphase] at h
      obtain rfl := Option.some.inj h
      exact .dropped hphase
  | deleting lock =>
      simp only [advance, hphase] at h
      split at h
      · rename_i hlast
        obtain rfl := Option.some.inj h
        exact .deleted hphase hlast.1 hlast.2
      · rename_i hkept
        obtain rfl := Option.some.inj h
        exact .kept hphase fun hnone hentry ↦ hkept ⟨hnone, hentry⟩
  | unlocking =>
      simp only [advance, hphase] at h
      obtain rfl := Option.some.inj h
      exact .unlocked hphase
  | returned =>
      simp only [advance, hphase] at h
      cases h

/-- One case for each kind of action. -/
inductive Stepped (s : State) : Action → State → Prop where
  | called (homeDirectory : String) :
      Stepped s (.runProcess homeDirectory)
        { s with callers := s.callers ++ [⟨homeDirectory, .calling⟩] }
  | cancelled (index : ℕ) :
      Stepped s (.cancel index) { s with done := Function.update s.done index true }
  | advanced {index : ℕ} {c : Caller} {t : State} (at_ : s.callers[index]? = some c)
      (advanced : Advanced s index c t) : Stepped s (.advance index) t
  | abandoned {index lock : ℕ} {c : Caller} (at_ : s.callers[index]? = some c)
      (phase : c.phase = .waiting lock) :
      Stepped s (.abandon index) (s.move index c (.releasing lock))

theorem step_spec {s t : State} {action : Action} (h : step s action = some t) :
    Stepped s action t := by
  cases action with
  | runProcess homeDirectory =>
      obtain rfl := Option.some.inj h
      exact .called homeDirectory
  | cancel index =>
      obtain rfl := Option.some.inj h
      exact .cancelled index
  | advance index =>
      simp only [step] at h
      split at h
      · rename_i c hc
        exact .advanced hc (advance_spec h)
      · cases h
  | abandon index =>
      simp only [step] at h
      split at h
      · rename_i c hc
        split at h
        · rename_i lock hphase
          split at h
          · obtain rfl := Option.some.inj h
            exact .abandoned hc hphase
          · cases h
        · cases h
      · cases h

/-! ## Counting the callers -/

/-- The lock that the caller goes on to use. -/
def Phase.lock : Phase → Option ℕ
  | .counting lock | .leaving lock | .waiting lock | .holding lock | .releasing lock
  | .dropping lock | .deleting lock => some lock
  | .calling | .looking | .unlocking | .returned => none

/-- The lock in whose references the caller is counted. -/
def Phase.counted : Phase → Option ℕ
  | .leaving lock | .waiting lock | .holding lock | .releasing lock | .dropping lock => some lock
  | _ => none

/-- The lock whose channel the caller has filled. -/
def Phase.held : Phase → Option ℕ
  | .holding lock => some lock
  | _ => none

/-- The caller is between `Lock` and `Unlock` of the mutex. -/
def Phase.inside : Phase → Bool
  | .looking | .counting _ | .leaving _ | .dropping _ | .deleting _ | .unlocking => true
  | _ => false

/-- Holds, waits for or is about to release the lock. -/
def Phase.engaged : Phase → Option ℕ
  | .waiting lock | .holding lock | .releasing lock => some lock
  | _ => none

theorem Phase.lock_of_counted {phase : Phase} {lock : ℕ} (h : phase.counted = some lock) :
    phase.lock = some lock := by
  cases phase <;> simp_all [Phase.counted, Phase.lock]

theorem Phase.lock_of_held {phase : Phase} {lock : ℕ} (h : phase.held = some lock) :
    phase.lock = some lock := by
  cases phase <;> simp_all [Phase.held, Phase.lock]

/-- Outside the mutex the three notions of a caller's lock agree. -/
theorem Phase.of_not_inside {phase : Phase} (h : phase.inside = false) :
    phase.lock = phase.engaged ∧ phase.counted = phase.engaged := by
  cases phase <;> simp_all [Phase.inside, Phase.lock, Phase.counted, Phase.engaged]

def State.count (s : State) (p : Phase → Bool) : ℕ := s.callers.countP fun c ↦ p c.phase

theorem count_move {s : State} {index : ℕ} {c : Caller} (hc : s.callers[index]? = some c)
    (p : Phase → Bool) (phase : Phase) :
    (s.move index c phase).count p + (p c.phase).toNat = s.count p + (p phase).toNat := by
  obtain ⟨hlt, rfl⟩ := List.getElem?_eq_some_iff.mp hc
  have hpos : p s.callers[index].phase = true → 0 < s.count p := by
    intro hp
    exact List.countP_pos_iff.mpr ⟨_, List.getElem_mem hlt, hp⟩
  have hset : (s.move index s.callers[index] phase).count p =
      s.count p - (p s.callers[index].phase).toNat + (p phase).toNat := by
    rw [State.count, State.move, List.countP_set hlt]
    cases p s.callers[index].phase <;> cases p phase <;> rfl
  rw [hset]
  cases hp : p s.callers[index].phase with
  | false => simp
  | true =>
      have hpos := hpos hp
      simp only [Bool.toNat_true]
      omega

theorem count_eq_zero {s : State} {p : Phase → Bool} (h : ∀ c ∈ s.callers, p c.phase = false) :
    s.count p = 0 := by
  apply List.countP_eq_zero.mpr
  intro c hc
  rw [h c hc]
  exact Bool.false_ne_true

theorem pos_count {s : State} {p : Phase → Bool} {c : Caller} (hc : c ∈ s.callers)
    (h : p c.phase = true) : 0 < s.count p :=
  List.countP_pos_iff.mpr ⟨c, hc, h⟩

theorem mem_move {s : State} {index : ℕ} {c d : Caller} {phase : Phase}
    (h : d ∈ (s.move index c phase).callers) :
    d = { c with phase := phase } ∨ ∃ other ≠ index, s.callers[other]? = some d := by
  obtain ⟨other, hother⟩ := List.mem_iff_getElem?.mp h
  rw [State.move, List.getElem?_set] at hother
  split at hother
  · split at hother
    · exact Or.inl (Option.some.inj hother).symm
    · cases hother
  · rename_i hne
    exact Or.inr ⟨other, fun heq ↦ hne heq.symm, hother⟩

theorem mem_move_self {s : State} {index : ℕ} {c : Caller} (hc : s.callers[index]? = some c)
    (phase : Phase) : { c with phase := phase } ∈ (s.move index c phase).callers := by
  obtain ⟨hlt, -⟩ := List.getElem?_eq_some_iff.mp hc
  exact List.mem_set hlt _

/-- A caller is the one that moves, or is still there after the move. -/
theorem eq_or_mem_move {s : State} {index : ℕ} {c d : Caller} (hc : s.callers[index]? = some c)
    (hd : d ∈ s.callers) (phase : Phase) : d = c ∨ d ∈ (s.move index c phase).callers := by
  obtain ⟨other, hother⟩ := List.mem_iff_getElem?.mp hd
  rcases eq_or_ne other index with rfl | hne
  · exact Or.inl (Option.some.inj (hother.symm.trans hc))
  · refine Or.inr (List.mem_iff_getElem?.mpr ⟨other, ?_⟩)
    rw [State.move, List.getElem?_set_ne hne.symm]
    exact hother

/-- What holds of at most one entry does not hold at two places. -/
theorem eq_of_countP_le_one {α : Type*} {p : α → Bool} {l : List α} (h : l.countP p ≤ 1)
    {i j : ℕ} {a b : α} (ha : l[i]? = some a) (hb : l[j]? = some b) (hpa : p a = true)
    (hpb : p b = true) : i = j := by
  induction l generalizing i j with
  | nil => cases ha
  | cons first rest ih =>
      cases i with
      | zero =>
          cases j with
          | zero => rfl
          | succ j =>
              obtain rfl := Option.some.inj ha
              have hrest : 0 < rest.countP p :=
                List.countP_pos_iff.mpr ⟨b, List.mem_of_getElem? hb, hpb⟩
              rw [List.countP_cons_of_pos hpa] at h
              omega
      | succ i =>
          cases j with
          | zero =>
              obtain rfl := Option.some.inj hb
              have hrest : 0 < rest.countP p :=
                List.countP_pos_iff.mpr ⟨a, List.mem_of_getElem? ha, hpa⟩
              rw [List.countP_cons_of_pos hpb] at h
              omega
          | succ j =>
              have hle : rest.countP p ≤ 1 := by
                rw [List.countP_cons] at h
                omega
              exact congrArg Nat.succ (ih hle ha hb)

/-! ## The invariant -/

/-- The map knows the locks that callers use, one for each home directory. -/
structure Registered (s : State) : Prop where
  entry : ∀ c ∈ s.callers, ∀ lock, c.phase.lock = some lock →
    s.runtimeLocks c.homeDirectory = some lock
  used : ∀ home lock, s.runtimeLocks home = some lock →
    ∃ c ∈ s.callers, c.homeDirectory = home ∧ c.phase.lock = some lock
  made : ∀ home lock, s.runtimeLocks home = some lock → lock < s.next
  distinct : ∀ home other lock, s.runtimeLocks home = some lock →
    s.runtimeLocks other = some lock → home = other

/-- The mutex, the references and the channels count the callers. -/
structure Counted (s : State) : Prop where
  inside : s.count Phase.inside = s.runtimeLocksMu.toNat
  references : ∀ lock, (s.locks lock).references = s.count fun p ↦ p.counted = some lock
  semaphore : ∀ lock, (s.count fun p ↦ p.held = some lock) = (s.locks lock).semaphore.toNat

/-- A move that keeps the lock of the caller and the map. -/
theorem Registered.move {s t : State} (hs : Registered s) {index : ℕ} {c : Caller}
    (hc : s.callers[index]? = some c) (phase : Phase) (hlock : phase.lock = c.phase.lock)
    (hcallers : t.callers = (s.move index c phase).callers)
    (hentries : t.runtimeLocks = s.runtimeLocks) (hnext : t.next = s.next) : Registered t where
  entry d hd lock hused := by
    rw [hcallers] at hd
    rw [hentries]
    rcases mem_move hd with rfl | ⟨other, -, hother⟩
    · exact hs.entry c (List.mem_of_getElem? hc) lock (hlock ▸ hused)
    · exact hs.entry d (List.mem_of_getElem? hother) lock hused
  used home lock hentry := by
    rw [hentries] at hentry
    rw [hcallers]
    obtain ⟨d, hd, hhome, hused⟩ := hs.used home lock hentry
    rcases eq_or_mem_move hc hd phase with rfl | hmem
    · exact ⟨_, mem_move_self hc phase, hhome, hlock.trans hused⟩
    · exact ⟨d, hmem, hhome, hused⟩
  made := by
    rw [hentries, hnext]
    exact hs.made
  distinct := by
    rw [hentries]
    exact hs.distinct

theorem Registered.found {s : State} (hs : Registered s) {index lock : ℕ} {c : Caller}
    (hc : s.callers[index]? = some c) (hphase : c.phase = .looking)
    (hentry : s.runtimeLocks c.homeDirectory = some lock) :
    Registered (s.move index c (.counting lock)) where
  entry d hd held hused := by
    rcases mem_move hd with rfl | ⟨other, -, hother⟩
    · obtain rfl := Option.some.inj hused
      exact hentry
    · exact hs.entry d (List.mem_of_getElem? hother) held hused
  used home held hheld := by
    obtain ⟨d, hd, hhome, hused⟩ := hs.used home held hheld
    rcases eq_or_mem_move hc hd (.counting lock) with rfl | hmem
    · rw [hphase] at hused
      cases hused
    · exact ⟨d, hmem, hhome, hused⟩
  made := hs.made
  distinct := hs.distinct

theorem Registered.make {s : State} (hs : Registered s) {index : ℕ} {c : Caller}
    (hc : s.callers[index]? = some c) (hphase : c.phase = .looking)
    (hentry : s.runtimeLocks c.homeDirectory = none) :
    Registered { ((s.setLock s.next ⟨false, 0⟩).setEntry c.homeDirectory (some s.next)).move
      index c (.counting s.next) with next := s.next + 1 } where
  entry d hd held hused := by
    rcases mem_move (s := s) hd with rfl | ⟨other, -, hother⟩
    · obtain rfl := Option.some.inj hused
      exact Function.update_self ..
    · have hbefore := hs.entry d (List.mem_of_getElem? hother) held hused
      have hne : d.homeDirectory ≠ c.homeDirectory := by
        intro heq
        rw [heq, hentry] at hbefore
        cases hbefore
      exact (Function.update_of_ne hne ..).trans hbefore
  used home held hheld := by
    have hheld : Function.update s.runtimeLocks c.homeDirectory (some s.next) home = some held :=
      hheld
    rw [Function.update_apply] at hheld
    split at hheld
    · rename_i heq
      exact ⟨_, mem_move_self hc (.counting s.next), heq.symm, hheld⟩
    · obtain ⟨d, hd, hhome, hused⟩ := hs.used home held hheld
      rcases eq_or_mem_move hc hd (.counting s.next) with rfl | hmem
      · rw [hphase] at hused
        cases hused
      · exact ⟨d, hmem, hhome, hused⟩
  made home held hheld := by
    have hheld : Function.update s.runtimeLocks c.homeDirectory (some s.next) home = some held :=
      hheld
    show held < s.next + 1
    rw [Function.update_apply] at hheld
    split at hheld
    · have heq := Option.some.inj hheld
      omega
    · have hlt := hs.made home held hheld
      omega
  distinct home other held hhome hother := by
    have hhome : Function.update s.runtimeLocks c.homeDirectory (some s.next) home = some held :=
      hhome
    have hother : Function.update s.runtimeLocks c.homeDirectory (some s.next) other = some held :=
      hother
    rw [Function.update_apply] at hhome hother
    -- the new number is in no other entry
    split at hhome
    · rename_i heq
      split at hother
      · rename_i heq'
        exact heq.trans heq'.symm
      · have hlt := hs.made other held hother
        have hself := Option.some.inj hhome
        omega
    · split at hother
      · have hlt := hs.made home held hhome
        have hself := Option.some.inj hother
        omega
      · exact hs.distinct home other held hhome hother

/-- Who uses a lock and is not counted is inside the mutex. -/
theorem Phase.counted_or_inside {phase : Phase} {lock : ℕ} (h : phase.lock = some lock) :
    phase.counted = some lock ∨ phase.inside = true := by
  cases phase <;> simp_all [Phase.lock, Phase.counted, Phase.inside]

/-- The entry of a lock that counts nobody goes. -/
theorem Registered.delete {s : State} (hs : Registered s) (hcount : Counted s) {index lock : ℕ}
    {c : Caller} (hc : s.callers[index]? = some c) (hphase : c.phase = .deleting lock)
    (hnone : (s.locks lock).references = 0)
    (hentry : s.runtimeLocks c.homeDirectory = some lock) :
    Registered ((s.setEntry c.homeDirectory none).move index c .unlocking) where
  entry d hd held hused := by
    rcases mem_move (s := s) hd with rfl | ⟨other, hother, hat⟩
    · cases hused
    · have hbefore := hs.entry d (List.mem_of_getElem? hat) held hused
      have hne : d.homeDirectory ≠ c.homeDirectory := by
        intro heq
        rw [heq, hentry] at hbefore
        obtain rfl := Option.some.inj hbefore
        rcases Phase.counted_or_inside hused with hcounted | hinside
        · have hpos := pos_count (p := fun p ↦ p.counted = some lock)
            (List.mem_of_getElem? hat) (decide_eq_true hcounted)
          rw [hcount.references] at hnone
          omega
        · have hone : s.count Phase.inside ≤ 1 := by
            rw [hcount.inside]
            exact Bool.toNat_le _
          have hself : c.phase.inside = true := by rw [hphase]; rfl
          exact hother (eq_of_countP_le_one hone hat hc hinside hself)
      exact (Function.update_of_ne hne ..).trans hbefore
  used home held hheld := by
    have hheld : Function.update s.runtimeLocks c.homeDirectory none home = some held := hheld
    rw [Function.update_apply] at hheld
    split at hheld
    · cases hheld
    · rename_i hne
      obtain ⟨d, hd, hhome, hused⟩ := hs.used home held hheld
      rcases eq_or_mem_move hc hd .unlocking with rfl | hmem
      · exact absurd hhome.symm hne
      · exact ⟨d, hmem, hhome, hused⟩
  made home held hheld := by
    have hheld : Function.update s.runtimeLocks c.homeDirectory none home = some held := hheld
    rw [Function.update_apply] at hheld
    split at hheld
    · cases hheld
    · exact hs.made home held hheld
  distinct home other held hhome hother := by
    have hhome : Function.update s.runtimeLocks c.homeDirectory none home = some held := hhome
    have hother : Function.update s.runtimeLocks c.homeDirectory none other = some held := hother
    rw [Function.update_apply] at hhome hother
    split at hhome
    · cases hhome
    · split at hother
      · cases hother
      · exact hs.distinct home other held hhome hother

/-- The entry of a lock that still counts somebody stays. -/
theorem Registered.keep {s : State} (hs : Registered s) (hcount : Counted s) {index lock : ℕ}
    {c : Caller} (hc : s.callers[index]? = some c) (hphase : c.phase = .deleting lock)
    (hkept : (s.locks lock).references = 0 → s.runtimeLocks c.homeDirectory ≠ some lock) :
    Registered (s.move index c .unlocking) where
  entry d hd held hused := by
    rcases mem_move hd with rfl | ⟨other, -, hother⟩
    · cases hused
    · exact hs.entry d (List.mem_of_getElem? hother) held hused
  used home held hheld := by
    obtain ⟨d, hd, hhome, hused⟩ := hs.used home held hheld
    rcases eq_or_mem_move hc hd .unlocking with rfl | hmem
    · rw [hphase] at hused
      obtain rfl := Option.some.inj hused
      have hself : s.runtimeLocks d.homeDirectory = some lock :=
        hs.entry d (List.mem_of_getElem? hc) lock (by rw [hphase]; rfl)
      have hsome : (s.locks lock).references ≠ 0 := fun hnone ↦ hkept hnone hself
      rw [hcount.references] at hsome
      have hpos : 0 < s.count fun p ↦ p.counted = some lock := by omega
      obtain ⟨e, he, hcounted⟩ := List.countP_pos_iff.mp hpos
      have hcounted := of_decide_eq_true hcounted
      have heused := Phase.lock_of_counted hcounted
      rcases eq_or_mem_move hc he .unlocking with rfl | hmem
      · rw [hphase] at hcounted
        cases hcounted
      · refine ⟨e, hmem, ?_, heused⟩
        exact hs.distinct _ _ lock (hs.entry e he lock heused) hheld
    · exact ⟨d, hmem, hhome, hused⟩
  made := hs.made
  distinct := hs.distinct

/-- What a move has to do to the mutex, the references and the channels. -/
theorem Counted.move {s t : State} (hs : Counted s) {index : ℕ} {c : Caller}
    (hc : s.callers[index]? = some c) (phase : Phase)
    (hcallers : t.callers = (s.move index c phase).callers)
    (hinside : t.runtimeLocksMu.toNat + c.phase.inside.toNat =
      s.runtimeLocksMu.toNat + phase.inside.toNat)
    (hreferences : ∀ lock,
      (t.locks lock).references + (decide (c.phase.counted = some lock)).toNat =
        (s.locks lock).references + (decide (phase.counted = some lock)).toNat)
    (hsemaphore : ∀ lock,
      (t.locks lock).semaphore.toNat + (decide (c.phase.held = some lock)).toNat =
        (s.locks lock).semaphore.toNat + (decide (phase.held = some lock)).toNat) :
    Counted t := by
  have hcount : ∀ p, t.count p + (p c.phase).toNat = s.count p + (p phase).toNat := by
    intro p
    rw [State.count, hcallers]
    exact count_move hc p phase
  refine ⟨?_, fun lock ↦ ?_, fun lock ↦ ?_⟩
  · have hmoved := hcount Phase.inside
    rw [hs.inside] at hmoved
    omega
  · have hmoved := hcount fun p ↦ p.counted = some lock
    have hbefore := hs.references lock
    have hset := hreferences lock
    omega
  · have hmoved := hcount fun p ↦ p.held = some lock
    have hbefore := hs.semaphore lock
    have hset := hsemaphore lock
    omega

/-- A move between two phases of one lock that writes that lock. -/
theorem Counted.setLock {s : State} (hs : Counted s) {index lock : ℕ} {c : Caller}
    (hc : s.callers[index]? = some c) (phase : Phase) (value : RuntimeLock)
    (hbefore : c.phase.lock = some lock) (hafter : phase.lock = some lock)
    (hinside : c.phase.inside = phase.inside)
    (hreferences : value.references + (decide (c.phase.counted = some lock)).toNat =
      (s.locks lock).references + (decide (phase.counted = some lock)).toNat)
    (hsemaphore : value.semaphore.toNat + (decide (c.phase.held = some lock)).toNat =
      (s.locks lock).semaphore.toNat + (decide (phase.held = some lock)).toNat) :
    Counted ((s.setLock lock value).move index c phase) := by
  have hcounted : ∀ (q : Phase) (other : ℕ), q.lock = some lock → other ≠ lock →
      q.counted ≠ some other ∧ q.held ≠ some other := by
    intro q other hq hne
    constructor
    · intro h
      exact hne (Option.some.inj ((Phase.lock_of_counted h).symm.trans hq))
    · intro h
      exact hne (Option.some.inj ((Phase.lock_of_held h).symm.trans hq))
  refine hs.move hc phase rfl ?_ ?_ ?_
  · rw [hinside]
    rfl
  · intro other
    rcases eq_or_ne other lock with rfl | hne
    · simpa [State.setLock, State.move] using hreferences
    · simp [State.setLock, State.move, hne, (hcounted _ other hbefore hne).1,
        (hcounted _ other hafter hne).1]
  · intro other
    rcases eq_or_ne other lock with rfl | hne
    · simpa [State.setLock, State.move] using hsemaphore
    · simp [State.setLock, State.move, hne, (hcounted _ other hbefore hne).2,
        (hcounted _ other hafter hne).2]

theorem Counted.locked {s : State} (hs : Counted s) {c : Caller} (hc : c ∈ s.callers)
    (h : c.phase.inside = true) : s.runtimeLocksMu = true := by
  have hpos := pos_count (p := Phase.inside) hc h
  rw [hs.inside] at hpos
  cases hmu : s.runtimeLocksMu with
  | true => rfl
  | false =>
      rw [hmu] at hpos
      cases hpos

/-- Nobody is counted in a lock that is not made yet. -/
theorem locks_next {s : State} (hs : Registered s) (hcount : Counted s) :
    s.locks s.next = ⟨false, 0⟩ := by
  have hunused : ∀ c ∈ s.callers, c.phase.lock ≠ some s.next := by
    intro c hc hused
    exact absurd (hs.made _ _ (hs.entry c hc s.next hused)) (Nat.lt_irrefl _)
  have hreferences : (s.locks s.next).references = 0 := by
    rw [hcount.references, count_eq_zero]
    · rfl
    · intro c hc
      exact decide_eq_false fun h ↦ hunused c hc (Phase.lock_of_counted h)
  have hsemaphore : (s.locks s.next).semaphore.toNat = 0 := by
    rw [← hcount.semaphore]
    apply count_eq_zero
    intro c hc
    exact decide_eq_false fun h ↦ hunused c hc (Phase.lock_of_held h)
  cases hlock : s.locks s.next with
  | mk semaphore references =>
      rw [hlock] at hreferences hsemaphore
      obtain rfl : references = 0 := hreferences
      cases semaphore with
      | false => rfl
      | true => cases hsemaphore

/-- The map and the counts agree with the callers. -/
structure Consistent (s : State) : Prop where
  registered : Registered s
  counted : Counted s

variable {s t : State} {index : ℕ} {c : Caller}

theorem counted_advance (hs : Consistent s) (hc : s.callers[index]? = some c)
    (h : Advanced s index c t) : Counted t := by
  have hcount := hs.counted
  cases h with
  | entered hphase hfree =>
      refine hcount.move hc .looking rfl ?_ ?_ ?_
      · simp [hphase, hfree, Phase.inside]
      · simp [hphase, Phase.counted, State.move]
      · simp [hphase, Phase.held, State.move]
  | @found lock hphase hentry =>
      refine hcount.move hc (.counting lock) rfl ?_ ?_ ?_
      · simp [hphase, Phase.inside, State.move]
      · simp [hphase, Phase.counted, State.move]
      · simp [hphase, Phase.held, State.move]
  | made hphase hentry =>
      have hnext := locks_next hs.registered hcount
      have hlocks : Function.update s.locks s.next ⟨false, 0⟩ = s.locks := by
        rw [← hnext]
        exact Function.update_eq_self ..
      refine hcount.move hc (.counting s.next) rfl ?_ ?_ ?_
      · simp [hphase, Phase.inside, State.move, State.setLock, State.setEntry]
      · simp [hphase, Phase.counted, State.move, State.setLock, State.setEntry, hlocks]
      · simp [hphase, Phase.held, State.move, State.setLock, State.setEntry, hlocks]
  | @counted lock hphase =>
      apply hcount.setLock hc
      · rw [hphase, Phase.lock]
      · rw [Phase.lock]
      · simp [hphase, Phase.inside]
      · simp [hphase, Phase.counted]
      · simp [hphase, Phase.held]
  | @left lock hphase =>
      have hlocked := hcount.locked (List.mem_of_getElem? hc) (by simp [hphase, Phase.inside])
      refine hcount.move hc (.waiting lock) rfl ?_ ?_ ?_
      · simp [hphase, Phase.inside, hlocked]
      · simp [hphase, Phase.counted, State.move]
      · simp [hphase, Phase.held, State.move]
  | @sent lock hphase hempty =>
      apply hcount.setLock hc
      · rw [hphase, Phase.lock]
      · rw [Phase.lock]
      · simp [hphase, Phase.inside]
      · simp [hphase, Phase.counted]
      · simp [hphase, Phase.held, hempty]
  | @received lock hphase hfull =>
      apply hcount.setLock hc
      · rw [hphase, Phase.lock]
      · rw [Phase.lock]
      · simp [hphase, Phase.inside]
      · simp [hphase, Phase.counted]
      · simp [hphase, Phase.held, hfull]
  | @reentered lock hphase hfree =>
      refine hcount.move hc (.dropping lock) rfl ?_ ?_ ?_
      · simp [hphase, hfree, Phase.inside]
      · simp [hphase, Phase.counted, State.move]
      · simp [hphase, Phase.held, State.move]
  | @dropped lock hphase =>
      apply hcount.setLock hc
      · rw [hphase, Phase.lock]
      · rw [Phase.lock]
      · simp [hphase, Phase.inside]
      · simp [hphase, Phase.counted]
      · simp [hphase, Phase.held]
  | @deleted lock hphase hnone hentry =>
      refine hcount.move hc .unlocking rfl ?_ ?_ ?_
      · simp [hphase, Phase.inside, State.move, State.setEntry]
      · simp [hphase, Phase.counted, State.move, State.setEntry]
      · simp [hphase, Phase.held, State.move, State.setEntry]
  | @kept lock hphase hkept =>
      refine hcount.move hc .unlocking rfl ?_ ?_ ?_
      · simp [hphase, Phase.inside, State.move]
      · simp [hphase, Phase.counted, State.move]
      · simp [hphase, Phase.held, State.move]
  | unlocked hphase =>
      have hlocked := hcount.locked (List.mem_of_getElem? hc) (by simp [hphase, Phase.inside])
      refine hcount.move hc .returned rfl ?_ ?_ ?_
      · simp [hphase, Phase.inside, hlocked]
      · simp [hphase, Phase.counted, State.move]
      · simp [hphase, Phase.held, State.move]

theorem registered_advance (hs : Consistent s) (hc : s.callers[index]? = some c)
    (h : Advanced s index c t) : Registered t := by
  have hreg := hs.registered
  cases h with
  | entered hphase hfree =>
      exact hreg.move hc .looking (by simp [hphase, Phase.lock]) rfl rfl rfl
  | found hphase hentry => exact hreg.found hc hphase hentry
  | made hphase hentry => exact hreg.make hc hphase hentry
  | @counted lock hphase =>
      exact hreg.move hc (.leaving lock) (by simp [hphase, Phase.lock]) rfl rfl rfl
  | @left lock hphase =>
      exact hreg.move hc (.waiting lock) (by simp [hphase, Phase.lock]) rfl rfl rfl
  | @sent lock hphase hempty =>
      exact hreg.move hc (.holding lock) (by simp [hphase, Phase.lock]) rfl rfl rfl
  | @received lock hphase hfull =>
      exact hreg.move hc (.releasing lock) (by simp [hphase, Phase.lock]) rfl rfl rfl
  | @reentered lock hphase hfree =>
      exact hreg.move hc (.dropping lock) (by simp [hphase, Phase.lock]) rfl rfl rfl
  | @dropped lock hphase =>
      exact hreg.move hc (.deleting lock) (by simp [hphase, Phase.lock]) rfl rfl rfl
  | @deleted lock hphase hnone hentry => exact hreg.delete hs.counted hc hphase hnone hentry
  | @kept lock hphase hkept => exact hreg.keep hs.counted hc hphase hkept
  | unlocked hphase =>
      exact hreg.move hc .returned (by simp [hphase, Phase.lock]) rfl rfl rfl

/-- A new caller uses no lock. -/
theorem Consistent.call (hs : Consistent s) (homeDirectory : String) :
    Consistent { s with callers := s.callers ++ [⟨homeDirectory, .calling⟩] } := by
  have hcount : ∀ p : Phase → Bool, p .calling = false →
      State.count { s with callers := s.callers ++ [⟨homeDirectory, .calling⟩] } p =
        s.count p := by
    intro p hp
    simp [State.count, hp]
  refine ⟨⟨?_, ?_, hs.registered.made, hs.registered.distinct⟩, ⟨?_, ?_, ?_⟩⟩
  · intro d hd lock hused
    rcases List.mem_append.mp hd with hd | hd
    · exact hs.registered.entry d hd lock hused
    · obtain rfl := List.mem_singleton.mp hd
      cases hused
  · intro home lock hentry
    obtain ⟨d, hd, hhome, hused⟩ := hs.registered.used home lock hentry
    exact ⟨d, List.mem_append_left _ hd, hhome, hused⟩
  · rw [hcount _ rfl]
    exact hs.counted.inside
  · intro lock
    rw [hcount _ rfl]
    exact hs.counted.references lock
  · intro lock
    rw [hcount _ rfl]
    exact hs.counted.semaphore lock

/-- The map and the counts are consistent along every run. -/
theorem consistent_step {action : Action} (hs : Consistent s) (h : step s action = some t) :
    Consistent t := by
  cases step_spec h with
  | called homeDirectory => exact hs.call homeDirectory
  | cancelled index =>
      obtain ⟨⟨hentry, hused, hmade, hdistinct⟩, ⟨hinside, hreferences, hsemaphore⟩⟩ := hs
      exact ⟨⟨hentry, hused, hmade, hdistinct⟩, ⟨hinside, hreferences, hsemaphore⟩⟩
  | advanced hc hadvanced =>
      exact ⟨registered_advance hs hc hadvanced, counted_advance hs hc hadvanced⟩
  | @abandoned index lock c hc hphase =>
      refine ⟨?_, ?_⟩
      · exact hs.registered.move hc (.releasing lock) (by simp [hphase, Phase.lock]) rfl rfl rfl
      · refine hs.counted.move hc (.releasing lock) rfl ?_ ?_ ?_
        · simp [hphase, Phase.inside, State.move]
        · simp [hphase, Phase.counted, State.move]
        · simp [hphase, Phase.held, State.move]

theorem consistent_new : Consistent .new := by
  refine ⟨⟨?_, ?_, ?_, ?_⟩, ⟨rfl, fun _ ↦ rfl, fun _ ↦ rfl⟩⟩
  · intro c hc
    cases hc
  · intro home lock hentry
    cases hentry
  · intro home lock hentry
    cases hentry
  · intro home other lock hentry
    cases hentry

theorem consistent_of_reachable (hs : Transition.Reachable step Initial s) : Consistent s := by
  refine hs.invariant ?_ fun _ _ _ hs h ↦ consistent_step hs h
  rintro s rfl
  exact consistent_new

/-! ## Mutual exclusion -/

/-- What is true whenever nobody is inside the mutex. -/
structure Settled (s : State) : Prop where
  entry : ∀ home, (s.runtimeLocks home).isSome ↔
    ∃ c ∈ s.callers, c.homeDirectory = home ∧ c.phase.engaged.isSome
  references : ∀ home lock, s.runtimeLocks home = some lock →
    (s.locks lock).references =
      s.callers.countP fun c ↦ c.homeDirectory = home ∧ c.phase.engaged.isSome
  unused : (∀ c ∈ s.callers, c.phase.engaged = none) → s.runtimeLocks = fun _ ↦ none

/-- Outside the mutex every caller is engaged with the lock it uses. -/
theorem Consistent.not_inside (hs : Consistent s) (hfree : s.runtimeLocksMu = false) {d : Caller}
    (hd : d ∈ s.callers) : d.phase.inside = false := by
  rw [Bool.eq_false_iff]
  intro hinside
  have hlocked := hs.counted.locked hd hinside
  rw [hfree] at hlocked
  cases hlocked

theorem Consistent.settled (hs : Consistent s) (hfree : s.runtimeLocksMu = false) :
    Settled s := by
  have hlock : ∀ d ∈ s.callers, d.phase.lock = d.phase.engaged ∧
      d.phase.counted = d.phase.engaged :=
    fun d hd ↦ Phase.of_not_inside (hs.not_inside hfree hd)
  refine ⟨fun home ↦ ⟨?_, ?_⟩, ?_, ?_⟩
  · intro hsome
    obtain ⟨lock, hentry⟩ := Option.isSome_iff_exists.mp hsome
    obtain ⟨d, hd, hhome, hused⟩ := hs.registered.used home lock hentry
    rw [(hlock d hd).1] at hused
    exact ⟨d, hd, hhome, Option.isSome_iff_exists.mpr ⟨lock, hused⟩⟩
  · rintro ⟨d, hd, rfl, hsome⟩
    obtain ⟨lock, hengaged⟩ := Option.isSome_iff_exists.mp hsome
    rw [← (hlock d hd).1] at hengaged
    rw [hs.registered.entry d hd lock hengaged]
    rfl
  · intro home lock hentry
    rw [hs.counted.references]
    apply congrArg Nat.cast
    apply List.countP_congr
    intro d hd
    rw [decide_eq_true_iff, decide_eq_true_iff, (hlock d hd).2]
    constructor
    · intro hengaged
      have hused := (hlock d hd).1.trans hengaged
      have hhome := hs.registered.distinct _ _ lock (hs.registered.entry d hd lock hused) hentry
      exact ⟨hhome, Option.isSome_iff_exists.mpr ⟨lock, hengaged⟩⟩
    · rintro ⟨rfl, hsome⟩
      obtain ⟨other, hengaged⟩ := Option.isSome_iff_exists.mp hsome
      have hused := (hlock d hd).1.trans hengaged
      rw [hs.registered.entry d hd other hused] at hentry
      rw [hengaged, hentry]
  · intro hidle
    funext home
    cases hentry : s.runtimeLocks home with
    | none => rfl
    | some lock =>
        obtain ⟨d, hd, -, hused⟩ := hs.registered.used home lock hentry
        rw [(hlock d hd).1, hidle d hd] at hused
        cases hused

theorem Consistent.lock_unique (hs : Consistent s) {d : Caller} {lock other : ℕ}
    (hc : c ∈ s.callers) (hd : d ∈ s.callers) (hhome : c.homeDirectory = d.homeDirectory)
    (hlock : c.phase.lock = some lock) (hother : d.phase.lock = some other) : lock = other := by
  have hentry := hs.registered.entry c hc lock hlock
  rw [hhome, hs.registered.entry d hd other hother] at hentry
  exact (Option.some.inj hentry).symm

theorem Consistent.holder_unique (hs : Consistent s) {i j : ℕ} {d : Caller}
    (hc : s.callers[i]? = some c) (hd : s.callers[j]? = some d)
    (hhome : c.homeDirectory = d.homeDirectory) (hholds : c.phase.held.isSome)
    (hholds' : d.phase.held.isSome) : i = j := by
  obtain ⟨lock, hheld⟩ := Option.isSome_iff_exists.mp hholds
  obtain ⟨other, hheld'⟩ := Option.isSome_iff_exists.mp hholds'
  obtain rfl := hs.lock_unique (List.mem_of_getElem? hc) (List.mem_of_getElem? hd) hhome
    (Phase.lock_of_held hheld) (Phase.lock_of_held hheld')
  -- one channel has room for one of them
  have hone : s.count (fun p ↦ p.held = some lock) ≤ 1 := by
    rw [hs.counted.semaphore]
    exact Bool.toNat_le _
  exact eq_of_countP_le_one hone hc hd (decide_eq_true hheld) (decide_eq_true hheld')

/-- In every reachable state one caller at most holds the lock of a home directory
and one lock object at most is in use for it.  Whenever the mutex is free the map
has exactly the directories that callers hold, wait for or are about to release,
counts those callers, and is empty when there is none. -/
theorem runtimeLocks_exclusive (s : State) (hs : Transition.Reachable step Initial s) :
    (∀ (i j : ℕ) (c d : Caller), s.callers[i]? = some c → s.callers[j]? = some d →
      c.homeDirectory = d.homeDirectory → c.phase.held.isSome → d.phase.held.isSome → i = j) ∧
    (∀ c ∈ s.callers, ∀ d ∈ s.callers, c.homeDirectory = d.homeDirectory →
      ∀ lock other, c.phase.lock = some lock → d.phase.lock = some other → lock = other) ∧
    (s.runtimeLocksMu = false → Settled s) := by
  have hconsistent := consistent_of_reachable hs
  refine ⟨?_, ?_, hconsistent.settled⟩
  · intro i j c d hc hd hhome hholds hholds'
    exact hconsistent.holder_unique hc hd hhome hholds hholds'
  · intro c hc d hd hhome lock other hlock hother
    exact hconsistent.lock_unique hc hd hhome hlock hother

/-- A holder, a waiter that gives up, and a caller that comes after both are gone
and makes the entry anew. -/
def exampleRun : List Action :=
  [.runProcess "/tmp/same-home", .advance 0, .advance 0, .advance 0, .advance 0, .advance 0,
    .runProcess "/tmp/same-home", .advance 1, .advance 1, .advance 1, .advance 1, .cancel 1,
    .abandon 1, .advance 0, .advance 0, .advance 0, .advance 0, .advance 0,
    .advance 1, .advance 1, .advance 1, .advance 1,
    .runProcess "/tmp/same-home", .advance 2, .advance 2, .advance 2, .advance 2, .advance 2]

def exampleState : State := (Transition.run step .new exampleRun).getD .new

theorem runtimeLocks_exclusive_sameHome :
    exampleState.callers.map Caller.phase = [.returned, .returned, .holding 1] ∧
      exampleState.runtimeLocksMu = false ∧ Settled exampleState := by
  have hrun : (Transition.run step .new exampleRun).isSome := by decide +kernel
  obtain ⟨s, hs⟩ := Option.isSome_iff_exists.mp hrun
  have hreachable : Transition.Reachable step Initial exampleState := by
    refine ⟨.new, exampleRun, rfl, ?_⟩
    rw [exampleState, hs]
    rfl
  have hfree : exampleState.runtimeLocksMu = false := by decide +kernel
  exact ⟨by decide +kernel, hfree, (runtimeLocks_exclusive exampleState hreachable).2.2 hfree⟩

end RuntimeLocks

end MultiSpeed.Providers
