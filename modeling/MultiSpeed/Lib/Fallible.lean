import Mathlib.Tactic.Common

/-!
# Fallible computations on a state

A computation ends with a value or an error, and either way with a state: what it has
done before it fails stays done, unless a deferred cleanup undoes it.  `Ends` is the
weakest precondition for both kinds of end; one rule for each way to build a computation
lets a proof follow it step by step.
-/

/-- A computation on `σ` that may fail with an error of `ε`. -/
def Fallible (σ ε α : Type) : Type := σ → Except ε α × σ

namespace Fallible

variable {σ ε α β : Type}

instance : Monad (Fallible σ ε) where
  pure a := fun s ↦ (.ok a, s)
  bind x f := fun s ↦
    match x s with
    | (.ok a, t) => f a t
    | (.error e, t) => (.error e, t)

def fail (e : ε) : Fallible σ ε α := fun s ↦ (.error e, s)

/-- Reads a part of the state. -/
def reads (f : σ → α) : Fallible σ ε α := fun s ↦ (.ok (f s), s)

def modify (f : σ → σ) : Fallible σ ε Unit := fun s ↦ (.ok (), f s)

/-- A step that fails when it has an error. -/
def check : Option ε → Fallible σ ε Unit
  | none => pure ()
  | some e => fail e

/-- The same computation with other errors. -/
def rethrow {ε' : Type} (f : ε → ε') (x : Fallible σ ε α) : Fallible σ ε' α := fun s ↦
  match x s with
  | (.ok a, t) => (.ok a, t)
  | (.error e, t) => (.error (f e), t)

/-- The cleanup is done however the computation ends. -/
def deferring (cleanup : σ → σ) (x : Fallible σ ε α) : Fallible σ ε α := fun s ↦
  ((x s).1, cleanup (x s).2)

/-- From `s` the computation ends with a value and `good`, or with an error and `bad`. -/
def Ends (x : Fallible σ ε α) (good : α → σ → Prop) (bad : ε → σ → Prop) (s : σ) : Prop :=
  match x s with
  | (.ok a, t) => good a t
  | (.error e, t) => bad e t

variable {good good' : α → σ → Prop} {bad bad' : ε → σ → Prop} {s : σ}

@[simp] theorem ends_pure {a : α} :
    Ends (pure a : Fallible σ ε α) good bad s ↔ good a s := Iff.rfl

@[simp] theorem ends_fail {e : ε} :
    Ends (fail e : Fallible σ ε α) good bad s ↔ bad e s := Iff.rfl

@[simp] theorem ends_reads {f : σ → α} :
    Ends (reads f : Fallible σ ε α) good bad s ↔ good (f s) s := Iff.rfl

@[simp] theorem ends_modify {f : σ → σ} {good : Unit → σ → Prop} :
    Ends (modify f : Fallible σ ε Unit) good bad s ↔ good () (f s) := Iff.rfl

@[simp] theorem ends_bind {x : Fallible σ ε α} {f : α → Fallible σ ε β}
    {good : β → σ → Prop} :
    Ends (x >>= f) good bad s ↔ Ends x (fun a t ↦ Ends (f a) good bad t) bad s := by
  change (match (match x s with
    | (.ok a, t) => f a t
    | (.error e, t) => (.error e, t)) with
    | (.ok b, t) => good b t
    | (.error e, t) => bad e t) ↔ _
  unfold Ends
  rcases x s with ⟨_ | _, t⟩
  · exact Iff.rfl
  · exact Iff.rfl

theorem ends_check {failure : Option ε} {good : Unit → σ → Prop} :
    Ends (check failure : Fallible σ ε Unit) good bad s ↔
      (failure = none → good () s) ∧ ∀ e, failure = some e → bad e s := by
  cases failure with
  | none => simp [check]
  | some e => simp [check]

@[simp] theorem ends_deferring {cleanup : σ → σ} {x : Fallible σ ε α} :
    Ends (deferring cleanup x) good bad s ↔
      Ends x (fun a t ↦ good a (cleanup t)) (fun e t ↦ bad e (cleanup t)) s := by
  unfold Ends deferring
  rcases x s with ⟨_ | _, t⟩
  · exact Iff.rfl
  · exact Iff.rfl

@[simp] theorem ends_rethrow {ε' : Type} {f : ε' → ε} {x : Fallible σ ε' α} :
    Ends (rethrow f x) good bad s ↔ Ends x good (fun e t ↦ bad (f e) t) s := by
  unfold Ends rethrow
  generalize x s = outcome
  rcases outcome with ⟨_ | _, t⟩
  · exact Iff.rfl
  · exact Iff.rfl

theorem Ends.mono {x : Fallible σ ε α} (h : Ends x good bad s)
    (hgood : ∀ a t, good a t → good' a t) (hbad : ∀ e t, bad e t → bad' e t) :
    Ends x good' bad' s := by
  unfold Ends at h ⊢
  generalize x s = outcome at h ⊢
  rcases outcome with ⟨e | a, t⟩
  · exact hbad e t h
  · exact hgood a t h

theorem Ends.and {x : Fallible σ ε α} (h : Ends x good bad s) (h' : Ends x good' bad' s) :
    Ends x (fun a t ↦ good a t ∧ good' a t) (fun e t ↦ bad e t ∧ bad' e t) s := by
  unfold Ends at h h' ⊢
  generalize x s = outcome at h h' ⊢
  rcases outcome with ⟨e | a, t⟩
  · exact ⟨h, h'⟩
  · exact ⟨h, h'⟩

/-- Every computation ends. -/
theorem Ends.elim {x : Fallible σ ε α} {p : Prop} (h : Ends x good bad s)
    (hgood : ∀ a t, good a t → p) (hbad : ∀ e t, bad e t → p) : p := by
  unfold Ends at h
  generalize x s = outcome at h
  rcases outcome with ⟨e | a, t⟩
  · exact hbad e t h
  · exact hgood a t h

/-! ## Steps that only look -/

/-- The step changes nothing and ends well exactly where `P` holds. -/
def Tests (x : Fallible σ ε Unit) (P : σ → Prop) : Prop :=
  ∀ s, Ends x (fun _ t ↦ t = s ∧ P s) (fun _ t ↦ t = s ∧ ¬ P s) s

namespace Tests

variable {x y : Fallible σ ε Unit} {P Q : σ → Prop}

theorem pure : Tests (pure () : Fallible σ ε Unit) fun _ ↦ True := fun _ ↦ ⟨rfl, trivial⟩

theorem fail {e : ε} : Tests (Fallible.fail e : Fallible σ ε Unit) fun _ ↦ False :=
  fun _ ↦ ⟨rfl, id⟩

theorem check (failure : Option ε) :
    Tests (Fallible.check failure : Fallible σ ε Unit) fun _ ↦ failure = none := by
  intro s
  apply ends_check.mpr
  exact ⟨fun h ↦ ⟨rfl, h⟩, fun e h ↦ ⟨rfl, fun hnone ↦ by cases h.symm.trans hnone⟩⟩

theorem bind {k : Unit → Fallible σ ε Unit} (hx : Tests x P) (hk : ∀ u, Tests (k u) Q) :
    Tests (x >>= k) fun s ↦ P s ∧ Q s := by
  intro s
  rw [ends_bind]
  apply (hx s).mono
  · rintro _ t ⟨rfl, hP⟩
    apply (hk _ t).mono
    · exact fun _ u ⟨hu, hQ⟩ ↦ ⟨hu, hP, hQ⟩
    · exact fun _ u ⟨hu, hQ⟩ ↦ ⟨hu, fun h ↦ hQ h.2⟩
  · exact fun _ t ⟨ht, hP⟩ ↦ ⟨ht, fun h ↦ hP h.1⟩

/-- A step that reads the state first. -/
theorem reads {f : σ → α} {k : α → Fallible σ ε Unit} {R : α → σ → Prop}
    (hk : ∀ a, Tests (k a) (R a)) : Tests (Fallible.reads f >>= k) fun s ↦ R (f s) s := by
  intro s
  rw [ends_bind, ends_reads]
  exact hk (f s) s

/-- The step fails where the condition holds. -/
theorem refuse {c : Prop} [Decidable c] {e : ε} (hy : Tests y Q) :
    Tests (if c then Fallible.fail e else y) fun s ↦ ¬ c ∧ Q s := by
  intro s
  split
  · rename_i hc
    exact ⟨rfl, fun h ↦ h.1 hc⟩
  · rename_i hc
    apply (hy s).mono
    · exact fun _ u ⟨hu, hQ⟩ ↦ ⟨hu, hc, hQ⟩
    · exact fun _ u ⟨hu, hQ⟩ ↦ ⟨hu, fun h ↦ hQ h.2⟩

theorem congr (hx : Tests x P) (h : ∀ s, P s ↔ Q s) : Tests x Q := by
  intro s
  apply (hx s).mono
  · exact fun _ t ⟨ht, hP⟩ ↦ ⟨ht, (h s).mp hP⟩
  · exact fun _ t ⟨ht, hP⟩ ↦ ⟨ht, fun hQ ↦ hP ((h s).mpr hQ)⟩

/-- How a computation goes on after such a step. -/
theorem ends_bind {k : Unit → Fallible σ ε β} {good : β → σ → Prop} (hx : Tests x P)
    (hgood : P s → Ends (k ()) good bad s) (hbad : ∀ e, ¬ P s → bad e s) :
    Ends (x >>= k) good bad s := by
  rw [Fallible.ends_bind]
  apply (hx s).mono
  · rintro _ t ⟨rfl, hP⟩
    exact hgood hP
  · rintro e t ⟨rfl, hP⟩
    exact hbad e hP

end Tests

end Fallible
