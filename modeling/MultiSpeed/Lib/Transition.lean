import Mathlib.Tactic.Common

/-!
# Runs of a guarded transition function

A system is given by a partial step function: `step s a` is the state after
action `a`, and `none` where `a` is not enabled.  This module has the runs of
such a system and the induction principles the protocol proofs rest on: an
invariant is checked on one step, a relation between two states on one step,
and both then hold along every run.  The guarded forms carry a side condition
that is known of every step of the run.
-/

namespace Transition

variable {σ α : Type*} (step : σ → α → Option σ)

/-- The state reached by taking the actions in order. -/
def run : σ → List α → Option σ
  | s, [] => some s
  | s, a :: rest =>
      match step s a with
      | none => none
      | some t => run t rest

@[simp] theorem run_nil (s : σ) : run step s [] = some s := rfl

theorem run_cons_of_step {s t : σ} {a : α} (h : step s a = some t) (rest : List α) :
    run step s (a :: rest) = run step t rest := by
  simp [run, h]

theorem run_cons_iff {s u : σ} {a : α} {rest : List α} :
    run step s (a :: rest) = some u ↔
      ∃ t, step s a = some t ∧ run step t rest = some u := by
  cases h : step s a <;> simp [run, h]

theorem run_append_iff {s u : σ} {xs ys : List α} :
    run step s (xs ++ ys) = some u ↔
      ∃ t, run step s xs = some t ∧ run step t ys = some u := by
  induction xs generalizing s with
  | nil => simp
  | cons a xs ih =>
      cases h : step s a with
      | none => simp [run, h]
      | some v => simpa [run, h] using ih

theorem run_snoc_iff {s u : σ} {xs : List α} {a : α} :
    run step s (xs ++ [a]) = some u ↔
      ∃ t, run step s xs = some t ∧ step t a = some u := by
  simp [run_append_iff, run_cons_iff]

/-- What every step preserves, every run preserves. -/
theorem run_invariant {P : σ → Prop}
    (hstep : ∀ s a t, P s → step s a = some t → P t)
    {s t : σ} {as : List α} (hs : P s) (h : run step s as = some t) : P t := by
  induction as generalizing s with
  | nil => simp_all
  | cons a as ih =>
      obtain ⟨u, hu, hrest⟩ := (run_cons_iff step).mp h
      exact ih (hstep s a u hs hu) hrest

/-- A reflexive and transitive relation that holds across each step taken in an
invariant holds between the ends of every run. -/
theorem run_relation {P : σ → Prop} {R : σ → σ → Prop}
    (hrefl : ∀ s, R s s) (htrans : ∀ s t u, R s t → R t u → R s u)
    (hinv : ∀ s a t, P s → step s a = some t → P t)
    (hstep : ∀ s a t, P s → step s a = some t → R s t)
    {s t : σ} {as : List α} (hs : P s) (h : run step s as = some t) : R s t := by
  induction as generalizing s with
  | nil =>
      obtain rfl : s = t := by simpa using h
      exact hrefl s
  | cons a as ih =>
      obtain ⟨u, hu, hrest⟩ := (run_cons_iff step).mp h
      exact htrans s u t (hstep s a u hs hu) (ih (hinv s a u hs hu) hrest)

/-! ## Runs with a condition on every step -/

/-- Each action of the run is taken in a state in which `G` allows it. -/
def Guarded (G : σ → α → Prop) : σ → List α → Prop
  | _, [] => True
  | s, a :: rest => G s a ∧ ∀ t, step s a = some t → Guarded G t rest

instance decidableGuarded {G : σ → α → Prop} [∀ s a, Decidable (G s a)] :
    ∀ (s : σ) (as : List α), Decidable (Guarded step G s as)
  | _, [] => isTrue trivial
  | s, a :: rest =>
      match h : step s a with
      | none => decidable_of_iff (G s a) ⟨fun hG ↦ ⟨hG, by simp [h]⟩, And.left⟩
      | some t =>
          have : Decidable (Guarded step G t rest) := decidableGuarded t rest
          decidable_of_iff (G s a ∧ Guarded step G t rest) (by simp [Guarded, h])

theorem guarded_of_forall {G : σ → α → Prop} {as : List α}
    (h : ∀ s, ∀ a ∈ as, G s a) (s : σ) : Guarded step G s as := by
  induction as generalizing s with
  | nil => trivial
  | cons a as ih =>
      exact ⟨h s a (by simp), fun t _ ↦ ih (fun u b hb ↦ h u b (by simp [hb])) t⟩

/-- The one condition gives the other on the actions of the list. -/
theorem Guarded.imp_of_mem {G H : σ → α → Prop} {as : List α}
    (himp : ∀ s, ∀ a ∈ as, G s a → H s a) {s : σ} (hg : Guarded step G s as) :
    Guarded step H s as := by
  induction as generalizing s with
  | nil => trivial
  | cons a as ih =>
      refine ⟨himp s a List.mem_cons_self hg.1, fun t ht ↦ ?_⟩
      exact ih (fun u b hb ↦ himp u b (List.mem_cons_of_mem a hb)) (hg.2 t ht)

/-- What every allowed step preserves, every guarded run preserves. -/
theorem guarded_run_invariant {P : σ → Prop} {G : σ → α → Prop}
    (hstep : ∀ s a t, P s → G s a → step s a = some t → P t)
    {s t : σ} {as : List α} (hs : P s) (hg : Guarded step G s as)
    (h : run step s as = some t) : P t := by
  induction as generalizing s with
  | nil => simp_all
  | cons a as ih =>
      obtain ⟨u, hu, hrest⟩ := (run_cons_iff step).mp h
      exact ih (hstep s a u hs hg.1 hu) (hg.2 u hu) hrest

/-- The condition holds where the run takes an action. -/
theorem Guarded.of_run {G : σ → α → Prop} {s t : σ} {xs ys : List α} {a : α}
    (hg : Guarded step G s (xs ++ a :: ys)) (h : run step s xs = some t) : G t a := by
  induction xs generalizing s with
  | nil =>
      obtain rfl : s = t := by simpa using h
      exact hg.1
  | cons b xs ih =>
      obtain ⟨u, hu, hrest⟩ := (run_cons_iff step).mp h
      exact ih (hg.2 u hu) hrest

/-- Where an invariant of the allowed steps and the one condition give the other,
a run that meets the one meets the other. -/
theorem Guarded.imp {P : σ → Prop} {G H : σ → α → Prop}
    (hstep : ∀ s a t, P s → G s a → step s a = some t → P t)
    (himp : ∀ s a, P s → G s a → H s a) {s : σ} {as : List α} (hs : P s)
    (hg : Guarded step G s as) : Guarded step H s as := by
  induction as generalizing s with
  | nil => trivial
  | cons a as ih =>
      refine ⟨himp s a hs hg.1, fun t ht ↦ ?_⟩
      have ht' := hstep s a t hs hg.1 ht
      exact ih ht' (hg.2 t ht)

/-! ## Reachable states -/

/-- Some run from an initial state ends in `s`. -/
def Reachable (init : σ → Prop) (s : σ) : Prop :=
  ∃ s₀ as, init s₀ ∧ run step s₀ as = some s

variable {step}

theorem Reachable.snoc {init : σ → Prop} {s t : σ} {a : α}
    (hs : Reachable step init s) (h : step s a = some t) : Reachable step init t := by
  obtain ⟨s₀, as, hinit, hrun⟩ := hs
  exact ⟨s₀, as ++ [a], hinit, (run_snoc_iff _).mpr ⟨s, hrun, h⟩⟩

theorem Reachable.append {init : σ → Prop} {s t : σ} {as : List α}
    (hs : Reachable step init s) (h : run step s as = some t) :
    Reachable step init t := by
  obtain ⟨s₀, bs, hinit, hrun⟩ := hs
  exact ⟨s₀, bs ++ as, hinit, (run_append_iff _).mpr ⟨s, hrun, h⟩⟩

/-- The invariant rule: initial states have it and steps keep it. -/
theorem Reachable.invariant {init : σ → Prop} {P : σ → Prop}
    (hinit : ∀ s, init s → P s) (hstep : ∀ s a t, P s → step s a = some t → P t)
    {s : σ} (hs : Reachable step init s) : P s := by
  obtain ⟨s₀, as, h₀, hrun⟩ := hs
  exact run_invariant step hstep (hinit s₀ h₀) hrun

end Transition
