import MultiSpeed.Lib.Transition
import Mathlib.Data.List.Perm.Basic

/-!
# Announced changes

A value is replaced under a lock, and a replacement that changes what others see of it is
announced after the lock is released.  Replacements are ordered by the lock; announcements
are not ordered with them.
-/

namespace Announcements

variable {α : Type*}

structure State (α : Type*) where
  current : α
  /-- Changes that are still to be announced. -/
  pending : List α
  announced : List α

inductive Action (α : Type*) where
  | commit (next : α)
  | announce (index : ℕ)

variable (same : α → α → Bool)

def step (s : State α) : Action α → Option (State α)
  | .commit next => some
      ⟨next, if same s.current next then s.pending else s.pending ++ [next], s.announced⟩
  | .announce index => s.pending[index]?.map fun value ↦
      { s with pending := s.pending.eraseIdx index, announced := s.announced ++ [value] }

def commits : List (Action α) → List α
  | [] => []
  | .commit next :: rest => next :: commits rest
  | .announce _ :: rest => commits rest

/-- The values that differ from those before them. -/
def changes : α → List α → List α
  | _, [] => []
  | a, b :: rest => if same a b then changes b rest else b :: changes b rest

/-- The last value, or the given one. -/
def last : α → List α → α
  | a, [] => a
  | _, b :: rest => last b rest

/-- Each change has been announced before the next replacement. -/
def Prompt (s : State α) : Action α → Prop
  | .commit _ => s.pending = []
  | .announce _ => True

variable {same}

theorem current_run {s t : State α} {actions : List (Action α)}
    (hrun : Transition.run (step same) s actions = some t) :
    t.current = last s.current (commits actions) := by
  induction actions generalizing s with
  | nil =>
      obtain rfl : s = t := by simpa using hrun
      rfl
  | cons action rest ih =>
      obtain ⟨u, hu, hrest⟩ := (Transition.run_cons_iff _).mp hrun
      rw [ih hrest]
      cases action with
      | commit next =>
          obtain rfl := Option.some.inj hu
          rfl
      | announce index =>
          obtain ⟨value, -, rfl⟩ := Option.map_eq_some_iff.mp hu
          rfl

/-- No change is lost, and none is announced twice. -/
theorem announced_run {s t : State α} {actions : List (Action α)}
    (hrun : Transition.run (step same) s actions = some t) :
    (t.announced ++ t.pending).Perm
      (s.announced ++ s.pending ++ changes same s.current (commits actions)) := by
  induction actions generalizing s with
  | nil =>
      obtain rfl : s = t := by simpa using hrun
      rw [commits, changes, List.append_nil]
  | cons action rest ih =>
      obtain ⟨u, hu, hrest⟩ := (Transition.run_cons_iff _).mp hrun
      refine (ih hrest).trans ?_
      cases action with
      | commit next =>
          obtain rfl := Option.some.inj hu
          rw [commits, changes]
          dsimp only
          split
          · exact .refl _
          · simp
      | announce index =>
          obtain ⟨value, hvalue, rfl⟩ := Option.map_eq_some_iff.mp hu
          obtain ⟨hlt, rfl⟩ := List.getElem?_eq_some_iff.mp hvalue
          rw [commits]
          refine List.Perm.append_right _ ?_
          rw [List.append_assoc]
          exact (List.getElem_cons_eraseIdx_perm hlt).append_left s.announced

/-- Prompt announcements come in the order of the replacements. -/
theorem announced_run_prompt {s t : State α} {actions : List (Action α)}
    (hprompt : Transition.Guarded (step same) Prompt s actions)
    (hlength : s.pending.length ≤ 1)
    (hrun : Transition.run (step same) s actions = some t) :
    t.announced ++ t.pending =
      s.announced ++ s.pending ++ changes same s.current (commits actions) := by
  induction actions generalizing s with
  | nil =>
      obtain rfl : s = t := by simpa using hrun
      rw [commits, changes, List.append_nil]
  | cons action rest ih =>
      obtain ⟨u, hu, hrest⟩ := (Transition.run_cons_iff _).mp hrun
      have hlater := hprompt.2 u hu
      cases action with
      | commit next =>
          have hnone : s.pending = [] := hprompt.1
          obtain rfl := Option.some.inj hu
          rw [ih hlater (by dsimp only; split <;> simp [hnone]) hrest, commits, changes]
          dsimp only
          split
          · rfl
          · simp
      | announce index =>
          obtain ⟨value, hvalue, rfl⟩ := Option.map_eq_some_iff.mp hu
          obtain ⟨hlt, rfl⟩ := List.getElem?_eq_some_iff.mp hvalue
          obtain ⟨only, honly⟩ := List.length_eq_one_iff.mp
            (Nat.le_antisymm hlength (Nat.one_le_of_lt hlt))
          have hindex : index = 0 := by
            rw [honly] at hlt
            exact Nat.lt_one_iff.mp hlt
          rw [ih hlater (by simp [honly, hindex]) hrest, commits]
          simp [honly, hindex]

/-- What is announced last agrees with the last value, as far as others see it. -/
theorem same_last_changes (hrefl : ∀ a, same a a = true)
    (htrans : ∀ a b c, same a b = true → same b c = true → same a c = true) (a : α)
    (values : List α) : same (last a (changes same a values)) (last a values) = true := by
  have hkeep : ∀ (values : List α) (a b : α), same a b = true →
      same (last a (changes same b values)) (last b values) = true := by
    intro values
    induction values with
    | nil => exact fun a b h ↦ h
    | cons c rest ih =>
        intro a b h
        rw [changes]
        split
        · rename_i hsame
          exact ih a c (htrans a b c h hsame)
        · exact ih c c (hrefl c)
  exact hkeep values a a (hrefl a)

end Announcements
