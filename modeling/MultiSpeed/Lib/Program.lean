import MultiSpeed.Lib.Transition

/-!
# Programs that share a state

A program is a tree of atomic calls on a shared state: the answer of a call chooses
how it goes on.  Serial programs run one at a time, each from its first call to its
last; free programs run in between, as do atomic changes from outside.

An invariant of the state is proved program by program.  `Safe` follows a program call
by call and lets the others act before each call as far as a relation allows them; what
a serial program has read stays true as far as it survives that relation.
-/

namespace Concurrent

/-- A tree of calls `c` with answers in `A c`. -/
inductive Program {C : Type} (A : C → Type) (α : Type) where
  | done (answer : α)
  | call (c : C) (rest : A c → Program A α)

namespace Program

variable {C : Type} {A : C → Type} {α β : Type}

def bind : Program A α → (α → Program A β) → Program A β
  | .done answer, k => k answer
  | .call c rest, k => .call c fun a ↦ (rest a).bind k

instance : Monad (Program A) where
  pure := .done
  bind := .bind

/-- One call. -/
def perform (c : C) : Program A (A c) := .call c .done

@[simp] theorem pure_eq (a : α) : (pure a : Program A α) = .done a := rfl

@[simp] theorem done_bind (a : α) (k : α → Program A β) : (Program.done a >>= k) = k a := rfl

@[simp] theorem call_bind (c : C) (rest : A c → Program A α) (k : α → Program A β) :
    (Program.call c rest >>= k) = .call c fun a ↦ rest a >>= k := rfl

@[simp] theorem perform_bind (c : C) (k : A c → Program A β) :
    ((perform c : Program A (A c)) >>= k) = .call c k := rfl

/-- Some answers lead the program to this end. -/
def Returns (b : α) : Program A α → Prop
  | .done a => a = b
  | .call _ rest => ∃ answer, Returns b (rest answer)

theorem returns_bind {b : β} {p : Program A α} {k : α → Program A β} :
    (p >>= k).Returns b ↔ ∃ a, p.Returns a ∧ (k a).Returns b := by
  induction p with
  | done a => exact ⟨fun h ↦ ⟨a, rfl, h⟩, fun ⟨_, ha, h⟩ ↦ ha ▸ h⟩
  | call c rest ih =>
      constructor
      · rintro ⟨answer, h⟩
        obtain ⟨a, ha, hk⟩ := (ih answer).mp h
        exact ⟨a, ⟨answer, ha⟩, hk⟩
      · rintro ⟨a, ⟨answer, ha⟩, hk⟩
        exact ⟨answer, (ih answer).mpr ⟨a, ha, hk⟩⟩

/-- Every end of the program satisfies `P`. -/
def Ends (P : α → Prop) (p : Program A α) : Prop := ∀ b, p.Returns b → P b

theorem Ends.pure {P : α → Prop} {a : α} (h : P a) : (pure a : Program A α).Ends P := by
  rintro _ rfl
  exact h

theorem Ends.bind {P : β → Prop} {p : Program A α} {k : α → Program A β}
    (hk : ∀ a, (k a).Ends P) : (p >>= k).Ends P := by
  intro b hb
  obtain ⟨a, -, h⟩ := returns_bind.mp hb
  exact hk a b h

/-- The program makes no other calls than those of `P`. -/
def Only (P : C → Prop) : Program A α → Prop
  | .done _ => True
  | .call c rest => P c ∧ ∀ a, Only P (rest a)

theorem Only.pure {P : C → Prop} {a : α} : (pure a : Program A α).Only P := trivial

theorem Only.ite {P : C → Prop} {q : Prop} [Decidable q] {p p' : Program A α} (h : p.Only P)
    (h' : p'.Only P) : (if q then p else p').Only P := by
  split
  · exact h
  · exact h'

theorem Only.bind {P : C → Prop} {p : Program A α} {k : α → Program A β} (h : p.Only P)
    (hk : ∀ a, (k a).Only P) : (p >>= k).Only P := by
  induction p with
  | done a => exact hk a
  | call c rest ih => exact ⟨h.1, fun a ↦ ih a (h.2 a)⟩

/-- What a program makes of an answer counts only for the answers it can have. -/
theorem Only.bind_returns {P : C → Prop} {p : Program A α} {k : α → Program A β} (h : p.Only P)
    (hk : ∀ a, p.Returns a → (k a).Only P) : (p >>= k).Only P := by
  induction p with
  | done a => exact hk a rfl
  | call c rest ih => exact ⟨h.1, fun a ↦ ih a (h.2 a) fun b hb ↦ hk b ⟨a, hb⟩⟩

theorem only_of_forall {P : C → Prop} (h : ∀ c, P c) (p : Program A α) : p.Only P := by
  induction p with
  | done a => trivial
  | call c rest ih => exact ⟨h c, ih⟩

theorem Only.mono {P Q : C → Prop} {p : Program A α} (h : p.Only P) (hPQ : ∀ c, P c → Q c) :
    p.Only Q := by
  induction p with
  | done a => trivial
  | call c rest ih => exact ⟨hPQ c h.1, fun a ↦ ih a (h.2 a)⟩

theorem Only.perform {P : C → Prop} {c : C} {k : A c → Program A β} (hc : P c)
    (hk : ∀ a, (k a).Only P) : ((perform c : Program A (A c)) >>= k).Only P := ⟨hc, hk⟩

/-- The program ends with `b` after these calls and answers. -/
inductive Runs : Program A α → List (Sigma A) → α → Prop where
  | done (b : α) : Runs (.done b) [] b
  | call {c : C} {rest : A c → Program A α} {a : A c} {trace : List (Sigma A)} {b : α}
      (h : Runs (rest a) trace b) : Runs (.call c rest) (⟨c, a⟩ :: trace) b

theorem Runs.done_iff {a b : α} {trace : List (Sigma A)} :
    (Program.done a : Program A α).Runs trace b ↔ trace = [] ∧ b = a := by
  constructor
  · rintro ⟨⟩
    exact ⟨rfl, rfl⟩
  · rintro ⟨rfl, rfl⟩
    exact .done b

theorem Runs.call_iff {c : C} {rest : A c → Program A α} {trace : List (Sigma A)} {b : α} :
    (Program.call c rest).Runs trace b ↔
      ∃ a trace', trace = ⟨c, a⟩ :: trace' ∧ (rest a).Runs trace' b := by
  constructor
  · rintro ⟨⟩
    exact ⟨_, _, rfl, ‹_›⟩
  · rintro ⟨a, trace', rfl, h⟩
    exact .call h

theorem Runs.perform_iff {c : C} {k : A c → Program A β} {trace : List (Sigma A)} {b : β} :
    ((perform c : Program A (A c)) >>= k).Runs trace b ↔
      ∃ a trace', trace = ⟨c, a⟩ :: trace' ∧ (k a).Runs trace' b := by
  rw [perform_bind]
  exact Runs.call_iff

theorem Runs.bind {p : Program A α} {k : α → Program A β} {front back : List (Sigma A)} {a : α}
    {b : β} (h : p.Runs front a) (hk : (k a).Runs back b) :
    (p >>= k).Runs (front ++ back) b := by
  induction h with
  | done a => exact hk
  | call _ ih => exact .call (ih hk)

/-- A run of two programs in turn is a run of the first and then one of the second. -/
theorem runs_bind {p : Program A α} {k : α → Program A β} {trace : List (Sigma A)} {b : β} :
    (p >>= k).Runs trace b ↔
      ∃ front a back, trace = front ++ back ∧ p.Runs front a ∧ (k a).Runs back b := by
  constructor
  · intro h
    induction p generalizing trace with
    | done a => exact ⟨[], a, trace, rfl, .done a, h⟩
    | call c rest ih =>
        rw [call_bind] at h
        obtain ⟨answer, trace', rfl, hrest⟩ := Runs.call_iff.mp h
        obtain ⟨front, a, back, rfl, hfront, hback⟩ := ih answer hrest
        exact ⟨⟨c, answer⟩ :: front, a, back, rfl, .call hfront, hback⟩
  · rintro ⟨front, a, back, rfl, hfront, hback⟩
    exact hfront.bind hback

theorem Only.of_mem_runs {P : C → Prop} {p : Program A α} {trace : List (Sigma A)} {b : α}
    (h : p.Only P) (hruns : p.Runs trace b) : ∀ e ∈ trace, P e.1 := by
  induction hruns with
  | done => simp
  | call _ ih =>
      intro e he
      rcases List.mem_cons.mp he with rfl | he
      · exact h.1
      · exact ih (h.2 _) e he

/-- A program as a part of a larger system, which answers its calls `f c` as `c` is
answered. -/
def embed {D : Type} {B : D → Type} (f : C → D) (answer : ∀ c, B (f c) → A c) :
    Program A α → Program B α
  | .done a => .done a
  | .call c rest => .call (f c) fun b ↦ (rest (answer c b)).embed f answer

theorem Only.embed {D : Type} {B : D → Type} {f : C → D} {answer : ∀ c, B (f c) → A c}
    {P : D → Prop} {p : Program A α} (h : p.Only fun c ↦ P (f c)) : (p.embed f answer).Only P := by
  induction p with
  | done a => trivial
  | call c rest ih => exact ⟨h.1, fun b ↦ ih _ (h.2 _)⟩

/-- Where the program ends when its calls are answered so. -/
def eval (answers : ∀ c, A c) : Program A α → α
  | .done a => a
  | .call c rest => (rest (answers c)).eval answers

@[simp] theorem eval_done (answers : ∀ c, A c) (a : α) :
    (Program.done a : Program A α).eval answers = a := rfl

@[simp] theorem eval_call (answers : ∀ c, A c) (c : C) (rest : A c → Program A α) :
    (Program.call c rest).eval answers = (rest (answers c)).eval answers := rfl

@[simp] theorem eval_bind (answers : ∀ c, A c) (p : Program A α) (k : α → Program A β) :
    (p >>= k).eval answers = (k (p.eval answers)).eval answers := by
  induction p with
  | done a => rfl
  | call c rest ih => exact ih (answers c)

theorem returns_eval (answers : ∀ c, A c) (p : Program A α) : p.Returns (p.eval answers) := by
  induction p with
  | done a => rfl
  | call c rest ih => exact ⟨answers c, ih (answers c)⟩

/-- The calls of that run. -/
def calls (answers : ∀ c, A c) : Program A α → List (Sigma A)
  | .done _ => []
  | .call c rest => ⟨c, answers c⟩ :: (rest (answers c)).calls answers

theorem runs_eval (answers : ∀ c, A c) (p : Program A α) :
    p.Runs (p.calls answers) (p.eval answers) := by
  induction p with
  | done a => exact .done a
  | call c rest ih => exact .call (ih (answers c))

theorem answer_of_mem_calls {answers : ∀ c, A c} {p : Program A α} {e : Sigma A}
    (h : e ∈ p.calls answers) : e.2 = answers e.1 := by
  induction p with
  | done a => cases h
  | call c rest ih =>
      rcases List.mem_cons.mp h with rfl | h
      · rfl
      · exact ih _ h

/-- Each call is allowed by the calls and answers before it. -/
def Guarded (P : List (Sigma A) → C → Prop) : List (Sigma A) → Program A α → Prop
  | _, .done _ => True
  | past, .call c rest => P past c ∧ ∀ a, Guarded P (past ++ [⟨c, a⟩]) (rest a)

section Guarded

variable {P : List (Sigma A) → C → Prop} {past : List (Sigma A)} {p : Program A α}

theorem Guarded.bind {k : α → Program A β} (h : p.Guarded P past)
    (hk : ∀ trace a, p.Runs trace a → (k a).Guarded P (past ++ trace)) :
    (p >>= k).Guarded P past := by
  induction p generalizing past with
  | done a =>
      have hend := hk [] a (.done a)
      rwa [List.append_nil] at hend
  | call c rest ih =>
      refine ⟨h.1, fun a ↦ ih a (h.2 a) ?_⟩
      intro trace b hruns
      have hrest := hk (⟨c, a⟩ :: trace) b (.call hruns)
      rwa [List.append_cons] at hrest

theorem Guarded.perform {c : C} {k : A c → Program A β} (hc : P past c)
    (hk : ∀ a, (k a).Guarded P (past ++ [⟨c, a⟩])) :
    ((perform c : Program A (A c)) >>= k).Guarded P past := ⟨hc, hk⟩

/-- What is allowed after some calls is allowed to a program that goes on from there. -/
theorem Only.guarded {Q : C → Prop} (h : p.Only Q)
    (hQ : ∀ past' c, past <+: past' → Q c → P past' c) : p.Guarded P past := by
  induction p generalizing past with
  | done a => trivial
  | call c rest ih =>
      refine ⟨hQ past c (List.prefix_refl past) h.1, fun a ↦ ih a (h.2 a) ?_⟩
      intro past' c' hpast
      exact hQ past' c' ((List.prefix_append past _).trans hpast)

end Guarded

/-- Until an answer unlocks the rest, the program makes no other calls than those of
`P`. -/
def Locked (P : C → Prop) (unlocks : (c : C) → A c → Prop) : Program A α → Prop
  | .done _ => True
  | .call c rest => P c ∧ ∀ a, unlocks c a ∨ Locked P unlocks (rest a)

/-- The calls a program makes, each with the state in which it is made.  The others act
in between as `rely` lets them, and `answers` is what a call can be answered; the
program may be cut short anywhere. -/
inductive Makes {σ : Type} (rely : σ → σ → Prop) (answers : σ → (c : C) → A c → Prop) :
    Program A α → σ → List (σ × C) → Prop where
  | stop (p : Program A α) (s : σ) : Makes rely answers p s []
  | call {c : C} {rest : A c → Program A α} {s t : σ} {a : A c} {trace : List (σ × C)}
      (hrely : rely s t) (hanswer : answers t c a) (hrest : Makes rely answers (rest a) t trace) :
      Makes rely answers (.call c rest) s ((t, c) :: trace)

section Makes

variable {σ : Type} {rely : σ → σ → Prop} {answers : σ → (c : C) → A c → Prop}

/-- A call is made after the program started. -/
theorem Makes.rely_of_mem {p : Program A α} {s t : σ} {c : C} {trace : List (σ × C)}
    (h : Makes rely answers p s trace) (htrans : ∀ s t u, rely s t → rely t u → rely s u)
    (hmem : (t, c) ∈ trace) : rely s t := by
  induction h with
  | stop p s => cases hmem
  | call hrely hanswer hrest ih =>
      rcases List.mem_cons.mp hmem with heq | hmem
      · obtain ⟨rfl, -⟩ := Prod.mk.inj heq
        exact hrely
      · exact htrans _ _ _ hrely (ih hmem)

/-- A call that the lock forbids comes after an answer that unlocked the program. -/
theorem Locked.unlocked {P : C → Prop} {unlocks : (c : C) → A c → Prop} {p : Program A α}
    {s t : σ} {c : C} {before after : List (σ × C)} (hp : p.Locked P unlocks)
    (h : Makes rely answers p s (before ++ (t, c) :: after))
    (htrans : ∀ s t u, rely s t → rely t u → rely s u) (hc : ¬ P c) :
    ∃ u key a, (u, key) ∈ before ∧ answers u key a ∧ unlocks key a ∧ rely u t := by
  induction before generalizing p s with
  | nil =>
      cases h with
      | call hrely hanswer hrest => exact absurd hp.1 hc
  | cons first before ih =>
      cases h with
      | @call key rest _ u a _ hrely hanswer hrest =>
          rcases hp.2 a with hunlocked | hlocked
          · have hmem : (t, c) ∈ before ++ (t, c) :: after :=
              List.mem_append_right _ List.mem_cons_self
            exact ⟨u, key, a, List.mem_cons_self, hanswer, hunlocked,
              hrest.rely_of_mem htrans hmem⟩
          · obtain ⟨v, key', a', hbefore, hfacts⟩ := ih hlocked hrest
            exact ⟨v, key', a', List.mem_cons_of_mem _ hbefore, hfacts⟩

end Makes

end Program

/-! ## Safe programs -/

section Safe

variable {C : Type} {A : C → Type} {σ ι α β : Type} (exec : ι → (c : C) → σ → σ × A c)
  (I : σ → Prop) (justified : C → σ → Prop) (rely : σ → σ → Prop)

/-- From `s` on every call of the program is justified where it is made, whatever `rely`
lets the others do in between, as long as `I` holds there; it ends with `post`. -/
def Safe (post : α → σ → Prop) : Program A α → σ → Prop
  | .done a, s => post a s
  | .call c rest, s => ∀ t, rely s t → I t → justified c t ∧
      ∀ i, Safe post (rest (exec i c t).2) (exec i c t).1

variable {exec I justified rely}

/-- The others may act before the program goes on. -/
theorem Safe.interfere {post : α → σ → Prop} {p : Program A α} {s t : σ}
    (h : Safe exec I justified rely post p s)
    (htrans : ∀ s t u, rely s t → rely t u → rely s u)
    (hpost : ∀ a s t, rely s t → post a s → post a t) (hst : rely s t) :
    Safe exec I justified rely post p t := by
  cases p with
  | done a => exact hpost a s t hst h
  | call c rest => exact fun u htu ↦ h u (htrans s t u hst htu)

/-- A program goes on from where another one ends. -/
theorem Safe.bind {mid : α → σ → Prop} {post : β → σ → Prop} {p : Program A α}
    {k : α → Program A β} {s : σ} (h : Safe exec I justified rely mid p s)
    (hk : ∀ a t, mid a t → Safe exec I justified rely post (k a) t) :
    Safe exec I justified rely post (p >>= k) s := by
  induction p generalizing s with
  | done a => exact hk a s h
  | call c rest ih =>
      intro t hst hI
      obtain ⟨hjustified, hrest⟩ := h t hst hI
      exact ⟨hjustified, fun i ↦ ih _ (hrest i)⟩

/-- A program is safe whose calls are justified everywhere. -/
theorem Program.Only.safe {P : C → Prop} {post : α → σ → Prop} {p : Program A α}
    (h : p.Only P) (hP : ∀ c s, P c → justified c s) (hpost : ∀ a s, post a s) (s : σ) :
    Safe exec I justified rely post p s := by
  induction p generalizing s with
  | done a => exact hpost a s
  | call c rest ih => exact fun t _ _ ↦ ⟨hP c t h.1, fun i ↦ ih _ (h.2 _) _⟩

/-- So is a program that makes such calls only, and it ends as all its ends are. -/
theorem Program.Only.safe_ends {P : C → Prop} {Q : α → Prop} {p : Program A α} (h : p.Only P)
    (hP : ∀ c s, P c → justified c s) (hends : p.Ends Q) (s : σ) :
    Safe exec I justified rely (fun a _ ↦ Q a) p s := by
  induction p generalizing s with
  | done a => exact hends a rfl
  | call c rest ih =>
      refine fun t _ _ ↦ ⟨hP c t h.1, fun i ↦ ih _ (h.2 _) (fun b hb ↦ ?_) _⟩
      exact hends b ⟨_, hb⟩

/-- What is justified for two reasons is justified for both. -/
theorem Safe.and {justified' : C → σ → Prop} {post post' : α → σ → Prop} {p : Program A α} {s : σ}
    (h : Safe exec I justified rely post p s) (h' : Safe exec I justified' rely post' p s) :
    Safe exec I (fun c t ↦ justified c t ∧ justified' c t) rely post p s := by
  induction p generalizing s with
  | done a => exact h
  | call c rest ih =>
      intro t hst hI
      obtain ⟨hjustified, hrest⟩ := h t hst hI
      obtain ⟨hjustified', hrest'⟩ := h' t hst hI
      exact ⟨⟨hjustified, hjustified'⟩, fun i ↦ ih _ (hrest i) (hrest' i)⟩

/-- Fewer inputs leave a program safe. -/
theorem Safe.restrict {κ : Type} (f : κ → ι) {post : α → σ → Prop} {p : Program A α} {s : σ}
    (h : Safe exec I justified rely post p s) :
    Safe (fun i ↦ exec (f i)) I justified rely post p s := by
  induction p generalizing s with
  | done a => exact h
  | call c rest ih =>
      intro t hst hI
      obtain ⟨hjustified, hrest⟩ := h t hst hI
      exact ⟨hjustified, fun i ↦ ih _ (hrest (f i))⟩

end Safe

/-! ## Systems of programs -/

/-- What runs on a shared state: the calls, the programs of serial requests `ρ` and of
free requests `φ`, and the changes `β` from outside. -/
structure System {C : Type} (A : C → Type) (σ ι α ρ φ β : Type) where
  exec : ι → (c : C) → σ → σ × A c
  serial : ρ → Program A α
  free : φ → Program A α
  outside : β → σ → Option σ

/-- The shared state, the program that holds the mutex, and the free programs. -/
structure State {C : Type} (A : C → Type) (σ α : Type) where
  shared : σ
  holder : Option (Program A α)
  others : List (Program A α)

inductive Action (ρ φ ι β : Type) where
  | acquire (request : ρ)
  /-- The next call of the program that holds the mutex. -/
  | advance (input : ι)
  | release
  | arrive (request : φ)
  /-- The next call of a free program. -/
  | advanceOther (index : ℕ) (input : ι)
  | outside (change : β)
  /-- The process is restarted: no program goes on. -/
  | restart

namespace System

variable {C : Type} {A : C → Type} {σ ι α ρ φ β : Type} (S : System A σ ι α ρ φ β)

def step (s : State A σ α) : Action ρ φ ι β → Option (State A σ α)
  | .acquire request =>
      match s.holder with
      | some _ => none
      | none => some { s with holder := some (S.serial request) }
  | .advance input =>
      match s.holder with
      | some (.call c rest) =>
          let (shared, answer) := S.exec input c s.shared
          some { s with shared := shared, holder := some (rest answer) }
      | _ => none
  | .release =>
      match s.holder with
      | some (.done _) => some { s with holder := none }
      | _ => none
  | .arrive request => some { s with others := s.others ++ [S.free request] }
  | .advanceOther index input =>
      match s.others[index]? with
      | some (.call c rest) =>
          let (shared, answer) := S.exec input c s.shared
          some { s with shared := shared, others := s.others.set index (rest answer) }
      | _ => none
  | .outside change =>
      match S.outside change s.shared with
      | none => none
      | some shared => some { s with shared := shared }
  | .restart => some { s with holder := none, others := [] }

/-- The system where only some inputs occur. -/
def restrict {κ : Type} (f : κ → ι) : System A σ κ α ρ φ β where
  exec i := S.exec (f i)
  serial := S.serial
  free := S.free
  outside := S.outside

/-- The program that acts makes a call that is allowed with its input. -/
def Allowed (serial free : ι → C → σ → Prop) (s : State A σ α) : Action ρ φ ι β → Prop
  | .advance input => ∀ c rest, s.holder = some (.call c rest) → serial input c s.shared
  | .advanceOther index input =>
      ∀ c rest, s.others[index]? = some (.call c rest) → free input c s.shared
  | _ => True

instance decidableAllowed {serial free : ι → C → σ → Prop} [∀ i c s, Decidable (serial i c s)]
    [∀ i c s, Decidable (free i c s)] (s : State A σ α) :
    (action : Action ρ φ ι β) → Decidable (Allowed serial free s action)
  | .advance input =>
      match h : s.holder with
      | some (.call c rest) => decidable_of_iff (serial input c s.shared)
          ⟨fun hc _ _ heq ↦ by cases h.symm.trans heq; exact hc, fun hall ↦ hall c rest h⟩
      | some (.done _) | none => isTrue (by simp [Allowed, h])
  | .advanceOther index input =>
      match h : s.others[index]? with
      | some (.call c rest) => decidable_of_iff (free input c s.shared)
          ⟨fun hc _ _ heq ↦ by cases h.symm.trans heq; exact hc, fun hall ↦ hall c rest h⟩
      | some (.done _) | none => isTrue (by simp [Allowed, h])
  | .acquire _ | .release | .arrive _ | .outside _ | .restart => isTrue trivial

/-- What keeps an invariant: every call a program makes is justified, a serial program's
against quiet changes and a free one's against all; a justified and allowed call keeps the
invariant, and the free programs and the changes from outside are quiet. -/
structure Keeps (I : σ → Prop) (quiet : σ → σ → Prop)
    (serialCalls freeCalls : C → σ → Prop) (allowedSerial allowedFree : ι → C → σ → Prop) :
    Prop where
  serial : ∀ request s,
    Safe S.exec I serialCalls quiet (fun _ _ ↦ True) (S.serial request) s
  free : ∀ request s,
    Safe S.exec I freeCalls (fun _ _ ↦ True) (fun _ _ ↦ True) (S.free request) s
  serialCall : ∀ c s i, I s → serialCalls c s → allowedSerial i c s → I (S.exec i c s).1
  freeCall : ∀ c s i, I s → freeCalls c s → allowedFree i c s →
    I (S.exec i c s).1 ∧ quiet s (S.exec i c s).1
  outside : ∀ change s t, I s → S.outside change s = some t → I t ∧ quiet s t
  refl : ∀ s, quiet s s
  trans : ∀ s t u, quiet s t → quiet t u → quiet s u

/-- The invariant holds and every program in progress makes justified calls. -/
structure Keeping (I : σ → Prop) (quiet : σ → σ → Prop) (serialCalls freeCalls : C → σ → Prop)
    (s : State A σ α) : Prop where
  shared : I s.shared
  holder : ∀ p ∈ s.holder, Safe S.exec I serialCalls quiet (fun _ _ ↦ True) p s.shared
  others : ∀ p ∈ s.others,
    Safe S.exec I freeCalls (fun _ _ ↦ True) (fun _ _ ↦ True) p s.shared

variable {S} {I : σ → Prop} {quiet : σ → σ → Prop} {serialCalls freeCalls : C → σ → Prop}
  {allowedSerial allowedFree : ι → C → σ → Prop}

theorem Keeping.changed
    (hkeeps : S.Keeps I quiet serialCalls freeCalls allowedSerial allowedFree)
    {s : State A σ α} {t : σ} (h : S.Keeping I quiet serialCalls freeCalls s) (ht : I t)
    (hst : quiet s.shared t) : S.Keeping I quiet serialCalls freeCalls { s with shared := t } :=
  ⟨ht, fun p hp ↦ (h.holder p hp).interfere hkeeps.trans (fun _ _ _ _ _ ↦ trivial) hst,
    fun p hp ↦ (h.others p hp).interfere (fun _ _ _ _ _ ↦ trivial)
      (fun _ _ _ _ _ ↦ trivial) trivial⟩

theorem Keeping.step
    (hkeeps : S.Keeps I quiet serialCalls freeCalls allowedSerial allowedFree)
    {s t : State A σ α} {action : Action ρ φ ι β}
    (h : S.Keeping I quiet serialCalls freeCalls s)
    (hallowed : Allowed allowedSerial allowedFree s action) (hstep : S.step s action = some t) :
    S.Keeping I quiet serialCalls freeCalls t := by
  cases action with
  | acquire request =>
      simp only [System.step] at hstep
      split at hstep
      · cases hstep
      · obtain rfl := Option.some.inj hstep
        refine ⟨h.shared, fun p hp ↦ ?_, h.others⟩
        obtain rfl := Option.mem_some.mp hp
        exact hkeeps.serial request s.shared
  | advance input =>
      simp only [System.step] at hstep
      split at hstep
      · rename_i c rest hholder
        obtain rfl := Option.some.inj hstep
        obtain ⟨hcall, hrest⟩ := h.holder _ hholder s.shared (hkeeps.refl _) h.shared
        have hI := hkeeps.serialCall c s.shared input h.shared hcall (hallowed c rest hholder)
        refine ⟨hI, fun p hp ↦ ?_, fun p hp ↦ ?_⟩
        · obtain rfl := Option.mem_some.mp hp
          exact hrest input
        · exact (h.others p hp).interfere (fun _ _ _ _ _ ↦ trivial)
            (fun _ _ _ _ _ ↦ trivial) trivial
      · cases hstep
  | release =>
      simp only [System.step] at hstep
      split at hstep
      · obtain rfl := Option.some.inj hstep
        exact ⟨h.shared, (fun p hp ↦ by cases hp), h.others⟩
      · cases hstep
  | arrive request =>
      obtain rfl := Option.some.inj hstep
      refine ⟨h.shared, h.holder, fun p hp ↦ ?_⟩
      rcases List.mem_append.mp hp with hp | hp
      · exact h.others p hp
      · obtain rfl := List.mem_singleton.mp hp
        exact hkeeps.free request s.shared
  | advanceOther index input =>
      simp only [System.step] at hstep
      split at hstep
      · rename_i c rest hother
        obtain rfl := Option.some.inj hstep
        obtain ⟨hcall, hrest⟩ :=
          h.others _ (List.mem_of_getElem? hother) s.shared trivial h.shared
        obtain ⟨hI, hquiet⟩ :=
          hkeeps.freeCall c s.shared input h.shared hcall (hallowed c rest hother)
        have hafter := h.changed hkeeps hI hquiet
        refine ⟨hI, hafter.holder, fun p hp ↦ ?_⟩
        rcases List.mem_or_eq_of_mem_set hp with hp | rfl
        · exact hafter.others p hp
        · exact hrest input
      · cases hstep
  | outside change =>
      simp only [System.step] at hstep
      split at hstep
      · cases hstep
      · rename_i shared hchange
        obtain rfl := Option.some.inj hstep
        obtain ⟨hI, hquiet⟩ := hkeeps.outside change s.shared shared h.shared hchange
        exact h.changed hkeeps hI hquiet
  | restart =>
      obtain rfl := Option.some.inj hstep
      exact ⟨h.shared, (fun p hp ↦ by cases hp), (fun p hp ↦ by cases hp)⟩

/-- What is kept whatever the inputs is kept with some of them. -/
theorem Keeps.restrict {κ : Type} (f : κ → ι)
    (hkeeps : S.Keeps I quiet serialCalls freeCalls allowedSerial allowedFree) :
    (S.restrict f).Keeps I quiet serialCalls freeCalls (fun k ↦ allowedSerial (f k))
      (fun k ↦ allowedFree (f k)) where
  serial request s := (hkeeps.serial request s).restrict f
  free request s := (hkeeps.free request s).restrict f
  serialCall c s i := hkeeps.serialCall c s (f i)
  freeCall c s i := hkeeps.freeCall c s (f i)
  outside := hkeeps.outside
  refl := hkeeps.refl
  trans := hkeeps.trans

/-- A run that begins with no program in progress and makes allowed calls only keeps the
invariant. -/
theorem Keeps.run (hkeeps : S.Keeps I quiet serialCalls freeCalls allowedSerial allowedFree)
    {shared : σ} (hshared : I shared) {actions : List (Action ρ φ ι β)} {t : State A σ α}
    (hallowed : Transition.Guarded S.step (Allowed allowedSerial allowedFree)
      ⟨shared, none, []⟩ actions)
    (hrun : Transition.run S.step ⟨shared, none, []⟩ actions = some t) : I t.shared := by
  have hstart : S.Keeping I quiet serialCalls freeCalls ⟨shared, none, []⟩ :=
    ⟨hshared, (fun p hp ↦ by cases hp), (fun p hp ↦ by cases hp)⟩
  have hend := Transition.guarded_run_invariant S.step
    (fun s a t hs hg ht ↦ Keeping.step hkeeps hs hg ht) hstart hallowed hrun
  exact hend.shared

/-- Where every justified call keeps the invariant, it holds in every run. -/
theorem Keeps.run_all
    (hkeeps : S.Keeps I quiet serialCalls freeCalls (fun _ _ _ ↦ True) fun _ _ _ ↦ True)
    {shared : σ} (hshared : I shared) {actions : List (Action ρ φ ι β)} {t : State A σ α}
    (hrun : Transition.run S.step ⟨shared, none, []⟩ actions = some t) : I t.shared := by
  have hallowed : ∀ (s : State A σ α) (action : Action ρ φ ι β),
      Allowed (fun _ _ _ ↦ True) (fun _ _ _ ↦ True) s action := by
    intro s action
    cases action with
    | advance | advanceOther => exact fun _ _ _ ↦ trivial
    | _ => trivial
  exact hkeeps.run hshared (Transition.guarded_of_forall _ (fun s action _ ↦ hallowed s action) _)
    hrun

end System

end Concurrent
