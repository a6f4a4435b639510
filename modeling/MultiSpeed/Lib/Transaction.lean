import Mathlib.Tactic.Common

/-!
# Transactions whose calls may fail

A transaction works on a copy of the committed state.  Its calls are numbered,
and an arbitrary sequence says which of them are served, so that a failure at
any call is covered.  The copy becomes the committed state only if the commit
succeeds; a transaction left in any other way is rolled back.  A table is a part of
the copy, and a loop of statements on one table leaves the other parts as they are.
-/

/-- A program on the copy `ω`, with the number of the next call. -/
def Tx (ω ε α : Type) : Type := (ℕ → Bool) → ℕ → ω → Except ε (α × ℕ × ω)

namespace Tx

variable {ω ε α β : Type}

instance : Monad (Tx ω ε) where
  pure a := fun _ n w ↦ .ok (a, n, w)
  bind x f := fun served n w ↦
    match x served n w with
    | .error e => .error e
    | .ok (a, m, v) => f a served m v

/-- The function returns an error of its own. -/
def fail (e : ε) : Tx ω ε α := fun _ _ _ ↦ .error e

/-- One call; `lost` is the error of a call that is not served. -/
def call (lost : ε) (f : ω → Except ε (α × ω)) : Tx ω ε α := fun served n w ↦
  if served n then
    match f w with
    | .error e => .error e
    | .ok (a, v) => .ok (a, n + 1, v)
  else .error lost

/-- A call that only reads. -/
def query (lost : ε) (f : ω → α) : Tx ω ε α := call lost fun w ↦ .ok (f w, w)

/-- A call that only writes. -/
def exec (lost : ε) (f : ω → Except ε ω) : Tx ω ε Unit :=
  call lost fun w ↦ (f w).map fun v ↦ ((), v)

/-- A loop over a list. -/
def each (f : α → Tx ω ε Unit) : List α → Tx ω ε Unit
  | [] => pure ()
  | a :: rest => do
      f a
      each f rest

variable {served : ℕ → Bool} {n m : ℕ} {w v : ω} {lost : ε}

theorem pure_ok {a b : α} (h : (pure a : Tx ω ε α) served n w = .ok (b, m, v)) :
    b = a ∧ v = w := by
  cases h
  exact ⟨rfl, rfl⟩

theorem bind_ok {x : Tx ω ε α} {f : α → Tx ω ε β} {b : β}
    (h : (x >>= f) served n w = .ok (b, m, v)) :
    ∃ a k u, x served n w = .ok (a, k, u) ∧ f a served k u = .ok (b, m, v) := by
  change (match x served n w with
    | Except.error e => Except.error e
    | .ok (a, m, v) => f a served m v) = _ at h
  split at h
  · cases h
  · rename_i a k u hx
    exact ⟨a, k, u, hx, h⟩

theorem call_ok {f : ω → Except ε (α × ω)} {a : α}
    (h : call lost f served n w = .ok (a, m, v)) : f w = .ok (a, v) := by
  unfold call at h
  split at h
  · split at h
    · cases h
    · rename_i b u hf
      cases h
      exact hf
  · cases h

theorem query_ok {f : ω → α} {a : α} (h : query lost f served n w = .ok (a, m, v)) :
    a = f w ∧ v = w := by
  cases call_ok h
  exact ⟨rfl, rfl⟩

theorem exec_ok {f : ω → Except ε ω} {u : Unit}
    (h : exec lost f served n w = .ok (u, m, v)) : f w = .ok v := by
  have hcall := call_ok h
  cases hf : f w with
  | error e =>
      rw [hf] at hcall
      cases hcall
  | ok t =>
      rw [hf] at hcall
      cases hcall
      rfl

/-! ## Statements on one table -/

/-- A part of the copy that can be read and set. -/
structure Part (ω τ : Type) where
  get : ω → τ
  set : ω → τ → ω
  get_set : ∀ w t, get (set w t) = t
  set_get : ∀ w, set w (get w) = w
  set_set : ∀ w t t', set (set w t) t' = set w t'

namespace Part

variable {τ ι : Type} {refused : ε} (p : Part ω τ)

/-- A statement on one part; `refused` is the error of one that breaks a constraint. -/
def statement (lost refused : ε) (f : τ → Option τ) : Tx ω ε Unit :=
  exec lost fun w ↦
    match f (p.get w) with
    | none => .error refused
    | some t => .ok (p.set w t)

variable {p}

theorem statement_ok {f : τ → Option τ} {u : Unit}
    (h : p.statement lost refused f served n w = .ok (u, m, v)) :
    f (p.get w) = some (p.get v) ∧ v = p.set w (p.get v) := by
  have hexec := exec_ok h
  cases hf : f (p.get w) with
  | none =>
      rw [hf] at hexec
      cases hexec
  | some t =>
      rw [hf] at hexec
      obtain rfl := Except.ok.inj hexec
      rw [p.get_set]
      exact ⟨rfl, rfl⟩

/-- A statement that is made under a condition. -/
theorem ite_statement_ok {c : Prop} [Decidable c] {f : τ → Option τ} {u : Unit}
    (h : (if c then pure () else p.statement lost refused f) served n w = .ok (u, m, v)) :
    (if c then some (p.get w) else f (p.get w)) = some (p.get v) ∧ v = p.set w (p.get v) := by
  split at h
  · rename_i hc
    obtain ⟨-, rfl⟩ := pure_ok h
    exact ⟨if_pos hc, (p.set_get v).symm⟩
  · rename_i hc
    rw [if_neg hc]
    exact statement_ok h

/-- A loop whose rounds change one part changes this part by their steps. -/
theorem each_ok {f : ι → Tx ω ε Unit} {step : τ → ι → Option τ}
    (hstep : ∀ {i n m w v u}, f i served n w = .ok (u, m, v) →
      step (p.get w) i = some (p.get v) ∧ v = p.set w (p.get v)) {items : List ι} {u : Unit}
    (h : each f items served n w = .ok (u, m, v)) :
    items.foldlM step (p.get w) = some (p.get v) ∧ v = p.set w (p.get v) := by
  induction items generalizing n w with
  | nil =>
      obtain ⟨-, rfl⟩ := pure_ok h
      exact ⟨rfl, (p.set_get v).symm⟩
  | cons i rest ih =>
      obtain ⟨_, k, x, hhead, hrest⟩ := bind_ok h
      obtain ⟨hx, hset_x⟩ := hstep hhead
      obtain ⟨hv, hset_v⟩ := ih hrest
      refine ⟨?_, ?_⟩
      · rw [List.foldlM_cons, hx]
        exact hv
      · rw [hset_x, p.set_set] at hset_v
        exact hset_v

end Part

/-! ## Whole transactions -/

/-- `BeginTx`, the body, and `Commit`, next to a deferred `Rollback`: the new
committed state and the error that is returned. -/
def run {σ : Type} (lost : ε) (served : ℕ → Bool) (start : σ → ω) (body : Tx ω ε Unit)
    (commit : ω → Except ε σ) (s : σ) : σ × Option ε :=
  if served 0 then
    match body served 1 (start s) with
    | .error e => (s, some e)
    | .ok ((), n, w) =>
        if served n then
          match commit w with
          | .error e => (s, some e)
          | .ok t => (t, none)
        else (s, some lost)
  else (s, some lost)

/-- Nothing is left of a transaction that returns an error. -/
theorem run_of_error {σ : Type} {start : σ → ω} {body : Tx ω ε Unit}
    {commit : ω → Except ε σ} {s : σ} (h : (run lost served start body commit s).2 ≠ none) :
    (run lost served start body commit s).1 = s := by
  unfold run at h ⊢
  split
  · split
    · rfl
    · split
      · split
        · rfl
        · rename_i t hcommit
          simp_all
      · rfl
  · rfl

/-- A transaction without error has committed what its body left. -/
theorem run_of_ok {σ : Type} {start : σ → ω} {body : Tx ω ε Unit}
    {commit : ω → Except ε σ} {s : σ} (h : (run lost served start body commit s).2 = none) :
    ∃ n w, body served 1 (start s) = .ok ((), n, w) ∧
      commit w = .ok (run lost served start body commit s).1 := by
  unfold run at h ⊢
  split at h
  · rename_i hbegin
    rw [if_pos hbegin]
    split at h
    · cases h
    · rename_i n w hbody
      split at h
      · rename_i hserved
        split at h
        · cases h
        · rename_i t hcommit
          refine ⟨n, w, hbody, ?_⟩
          rw [if_pos hserved, hcommit]
      · cases h
  · cases h

end Tx
