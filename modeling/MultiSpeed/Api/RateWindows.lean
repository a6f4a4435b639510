import MultiSpeed.Api.RateGate

/-!
# What the rate gate promises

As long as no call enters after a later reading of its own client, or of a call that went
through the large table, the times that are kept agree with the admitted ones wherever a
later call looks.  The decisions then obey the rule of the sliding window.
-/

namespace MultiSpeed.Api.RateGate

open SlidingWindow

/-! ## The kept times -/

/-- The sections that have run, none of them overtaken. -/
inductive Served (pruning : Bool) (limit : ℕ) (window : ℤ) : Gate × List Entry → Prop
  | start : Served pruning limit window (newRateGate limit window, [])
  | next {served : Gate × List Entry} {call : Call} (h : Served pruning limit window served)
      (horder : ¬ Overtakes served.2 call) :
      Served pruning limit window (serve pruning served call)

/-- The kept times agree with the admitted ones for every reading that is not overtaken. -/
structure Sound (limit : ℕ) (window : ℤ) (served : Gate × List Entry) : Prop where
  limit_eq : served.1.limit = limit
  window_eq : served.1.window = window
  obeys : Obeys limit window (served.2.map Entry.decision)
  sorted : ∀ host, (served.1.values host).Pairwise (· ≤ ·)
  seen : ∀ host, ∀ t ∈ served.1.values host, ∃ e ∈ served.2, e.call.host = host ∧ e.call.now = t
  agrees : ∀ host later, ¬ Overtakes served.2 ⟨host, later⟩ →
    recent window (served.1.values host) later =
      recent window (admissions (served.2.map Entry.decision) host) later

theorem sound_start (limit : ℕ) (window : ℤ) : Sound limit window (newRateGate limit window, []) := by
  have hempty : ∀ host, (newRateGate limit window).values host = [] := by
    intro host
    unfold Gate.values newRateGate
    rw [AList.lookup_empty]
    rfl
  refine ⟨rfl, rfl, .nil, fun host ↦ ?_, fun host t ht ↦ ?_, fun host later _ ↦ ?_⟩
  · rw [hempty]
    exact List.Pairwise.nil
  · rw [hempty] at ht
    cases ht
  · rw [hempty]
    rfl

/-- The loop takes out only what no later reading sees. -/
theorem recent_rest {gate : Gate} {host : List Char} (hsorted : (gate.values host).Pairwise (· ≤ ·))
    (pruning : Bool) {now later : Time} (hlater : (pruning && crowded gate.clients) = true → now ≤ later) :
    recent gate.window (gate.rest pruning now host) later =
      recent gate.window (gate.values host) later := by
  unfold Gate.rest
  split
  · rename_i hgone
    rw [Bool.and_eq_true] at hgone
    obtain ⟨hloop, hold⟩ := hgone
    symm
    apply recent_eq_nil hsorted
    intro last hlast
    unfold current at hold
    rw [Option.mem_def.mp hlast, Option.any_some, Bool.not_eq_true', decide_eq_false_iff_not,
      not_lt] at hold
    exact hold.trans (sub_le_sub_right (hlater hloop) _)
  · rfl

theorem rest_sublist (gate : Gate) (pruning : Bool) (now : Time) (host : List Char) :
    (gate.rest pruning now host).Sublist (gate.values host) := by
  unfold Gate.rest
  split
  · exact List.nil_sublist _
  · exact List.Sublist.refl _

theorem not_overtakes {log : List Entry} {e : Entry} {call : Call}
    (h : ¬ Overtakes (log ++ [e]) call) :
    ¬ Overtakes log call ∧
      ((e.call.host = call.host ∨ e.pruned = true) → e.call.now ≤ call.now) := by
  constructor
  · rintro ⟨e', he', hsame, hlt⟩
    exact h ⟨e', List.mem_append_left _ he', hsame, hlt⟩
  · intro hsame
    by_contra hlt
    exact h ⟨e, List.mem_append_right _ List.mem_cons_self, hsame, not_le.mp hlt⟩

theorem Sound.next {limit : ℕ} {window : ℤ} {served : Gate × List Entry} {call : Call}
    (h : Sound limit window served) (horder : ¬ Overtakes served.2 call) (pruning : Bool) :
    Sound limit window (serve pruning served call) := by
  obtain ⟨gate, log⟩ := served
  obtain ⟨hlimit, hwindow, hobeys, hsorted, hseen, hagrees⟩ := h
  dsimp only at hlimit hwindow hobeys hsorted hseen hagrees horder
  obtain ⟨hadmitted, hlimit', hwindow', hvalues⟩ :=
    allowWith_spec pruning gate call.host call.now
  have hown : recent window (gate.rest pruning call.now call.host) call.now =
      recent window (admissions (log.map Entry.decision) call.host) call.now := by
    rw [← hagrees call.host call.now horder, ← hwindow]
    exact recent_rest (hsorted call.host) pruning fun _ ↦ le_rfl
  have hbound : ∀ t ∈ gate.values call.host, t ≤ call.now := by
    intro t ht
    obtain ⟨e, he, hhost, rfl⟩ := hseen call.host t ht
    by_contra hlt
    exact horder ⟨e, he, .inl hhost, not_le.mp hlt⟩
  rw [hwindow] at hadmitted hvalues hwindow'
  rw [hlimit] at hadmitted hlimit'
  unfold serve
  dsimp only
  generalize allowWith pruning gate call.host call.now = decision at *
  obtain ⟨admitted, gate'⟩ := decision
  dsimp only at hadmitted hlimit' hwindow' hvalues ⊢
  set e : Entry := ⟨call, admitted, pruning && crowded gate.clients⟩ with he
  refine ⟨hlimit', hwindow', ?_, fun host ↦ ?_, fun host t ht ↦ ?_, fun host later hlater ↦ ?_⟩
  · rw [List.map_append, List.map_singleton]
    refine hobeys.concat ?_
    change admitted = _
    rw [hadmitted, hown]
    rfl
  · dsimp only
    rw [hvalues]
    have hold := (hsorted host).sublist (rest_sublist gate pruning call.now host)
    by_cases hhost : host = call.host
    · subst hhost
      rw [if_pos rfl]
      refine List.pairwise_append.mpr ⟨hold.sublist List.filter_sublist, ?_, fun t ht t' ht' ↦ ?_⟩
      · split
        · exact List.pairwise_singleton _ _
        · exact List.Pairwise.nil
      · have hmem := (rest_sublist gate pruning call.now call.host).subset (List.mem_of_mem_filter ht)
        split at ht'
        · rw [List.mem_singleton.mp ht']
          exact hbound t hmem
        · cases ht'
    · rw [if_neg hhost]
      exact hold
  · dsimp only at ht
    rw [hvalues] at ht
    have hold : ∀ t ∈ gate.rest pruning call.now host,
        ∃ e' ∈ log ++ [e], e'.call.host = host ∧ e'.call.now = t := by
      intro t ht
      obtain ⟨e', he', hsame⟩ :=
        hseen host t ((rest_sublist gate pruning call.now host).subset ht)
      exact ⟨e', List.mem_append_left _ he', hsame⟩
    by_cases hhost : host = call.host
    · subst hhost
      rw [if_pos rfl, List.mem_append] at ht
      rcases ht with ht | ht
      · exact hold t (List.mem_of_mem_filter ht)
      · split at ht
        · rw [List.mem_singleton.mp ht]
          exact ⟨e, List.mem_append_right _ List.mem_cons_self, rfl, rfl⟩
        · cases ht
    · rw [if_neg hhost] at ht
      exact hold t ht
  · obtain ⟨hbefore, hnew⟩ := not_overtakes hlater
    dsimp only at hnew ⊢
    have hrest : recent window (gate.rest pruning call.now host) later =
        recent window (admissions (log.map Entry.decision) host) later := by
      rw [← hagrees host later hbefore, ← hwindow]
      exact recent_rest (hsorted host) pruning fun hloop ↦ hnew (.inr hloop)
    rw [hvalues, List.map_append, List.map_singleton, admissions_concat]
    by_cases hhost : host = call.host
    · subst hhost
      have hle : call.now ≤ later := hnew (.inl rfl)
      rw [if_pos rfl, recent, List.filter_append, ← recent, recent_recent window _ hle, hrest, recent,
        recent, List.filter_append]
      congr 2
      simp [Entry.decision, he]
    · rw [if_neg hhost, hrest, if_neg fun hsame ↦ hhost hsame.1.symm, List.append_nil]

theorem Served.sound {pruning : Bool} {limit : ℕ} {window : ℤ} {served : Gate × List Entry}
    (h : Served pruning limit window served) : Sound limit window served := by
  induction h with
  | start => exact sound_start limit window
  | next _ horder ih => exact ih.next horder pruning

/-! ## Other gates -/

variable {pruning : Bool} {limit : ℕ} {window : ℤ} {served : Gate × List Entry}

theorem serve_calls (pruning : Bool) (served : Gate × List Entry) (call : Call) :
    (serve pruning served call).2.map Entry.call = served.2.map Entry.call ++ [call] := by
  unfold serve
  rw [List.map_append]
  rfl

theorem Served.eq_serveAll (h : Served pruning limit window served) :
    served = serveAll pruning limit window (served.2.map Entry.call) := by
  induction h with
  | start => rfl
  | @next served call _ _ ih =>
      rw [serve_calls, serveAll, List.foldl_append]
      change _ = serve pruning (serveAll pruning limit window (served.2.map Entry.call)) call
      rw [← ih]

theorem Served.unpruned (h : Served false limit window served) :
    ∀ e ∈ served.2, e.pruned = false := by
  induction h with
  | start => exact fun e he ↦ by cases he
  | next _ _ ih =>
      intro e he
      rcases List.mem_append.mp he with he | he
      · exact ih e he
      · rw [List.mem_singleton.mp he]
        rfl

/-- Some of the calls, served by another gate, are not overtaken there either. -/
theorem Served.of_calls (h : Served pruning limit window served) (keep : Call → Bool)
    (pruning' : Bool)
    (hsame : ∀ call call', keep call = true → keep call' = true →
      pruning' = true → call.host = call'.host) :
    ∃ other, Served pruning' limit window other ∧
      other.2.map Entry.call = (served.2.map Entry.call).filter keep := by
  induction h with
  | start => exact ⟨_, .start, rfl⟩
  | @next served call _ horder ih =>
      obtain ⟨other, hother, hcalls⟩ := ih
      rw [serve_calls, List.filter_append]
      cases hkeep : keep call with
      | false =>
          refine ⟨other, hother, ?_⟩
          rw [hcalls, List.filter_cons_of_neg (by simpa using hkeep), List.filter_nil,
            List.append_nil]
      | true =>
          refine ⟨serve pruning' other call, hother.next ?_, ?_⟩
          · rintro ⟨e, he, hreason, hlt⟩
            have hmem : e.call ∈ (served.2.map Entry.call).filter keep :=
              hcalls ▸ List.mem_map_of_mem he
            obtain ⟨hcall, hkept⟩ := List.mem_filter.mp hmem
            obtain ⟨e', he', heq⟩ := List.mem_map.mp hcall
            have hhost : e.call.host = call.host := by
              rcases hreason with hhost | hpruned
              · exact hhost
              · apply hsame e.call call hkept hkeep
                cases hpruning : pruning' with
                | true => rfl
                | false =>
                    subst hpruning
                    rw [hother.unpruned e he] at hpruned
                    cases hpruned
            rw [← heq] at hhost hlt
            exact horder ⟨e', he', .inl hhost, hlt⟩
          · rw [serve_calls, hcalls, List.filter_cons_of_pos hkeep, List.filter_nil]

/-! ## The law of the gate -/

theorem Served.order (h : Served pruning limit window served) {before after : List Entry} {e : Entry}
    (hlog : served.2 = before ++ e :: after) : ¬ Overtakes before e.call := by
  induction h generalizing after with
  | start => simp at hlog
  | @next served call _ horder ih =>
      rcases List.eq_nil_or_concat after with rfl | ⟨front, last, rfl⟩
      · obtain ⟨rfl, hlast⟩ := List.append_inj' hlog rfl
        obtain rfl := List.singleton_inj.mp hlast
        exact horder
      · have hsplit : before ++ e :: front.concat last = (before ++ e :: front) ++ [last] := by simp
        rw [hsplit] at hlog
        exact ih (List.append_inj' hlog rfl).1

theorem Served.requests {pruning' : Bool} {keep : Call → Bool} {other : Gate × List Entry}
    (hcalls : other.2.map Entry.call = (served.2.map Entry.call).filter keep)
    (hother : Served pruning' limit window other) :
    (serveAll pruning' limit window ((served.2.map Entry.call).filter keep)).2.map Entry.decision =
        other.2.map Entry.decision ∧
      (other.2.map Entry.decision).map Decision.request =
        ((served.2.map Entry.call).filter keep).map fun call ↦ (call.host, call.now) := by
  rw [← hcalls, ← hother.eq_serveAll, List.map_map, List.map_map]
  exact ⟨rfl, rfl⟩

theorem Served.law (h : Served true limit window served) : Law limit window served.2 := by
  have hobeys := h.sound.obeys
  refine ⟨fun host start ↦ hobeys.window_le host start, fun before e after hlog hrejected ↦ ?_,
    fun host ↦ ?_, ?_⟩
  · rw [hlog, List.map_append, List.map_cons] at hobeys
    have hfull := hobeys.rejected hrejected
    have hwindow : recent window (admissions (before.map Entry.decision) e.call.host) e.call.now =
        (admissions (before.map Entry.decision) e.call.host).filter fun t ↦
          e.call.now - window < t ∧ t ≤ e.call.now := by
      apply List.filter_congr
      intro t ht
      obtain ⟨d, hd, hkey, -, rfl⟩ := mem_admissions.mp ht
      obtain ⟨e', he', rfl⟩ := List.mem_map.mp hd
      have hle : (Entry.decision e').time ≤ e.call.now := by
        by_contra hlt
        exact h.order hlog ⟨e', he', .inl hkey, not_le.mp hlt⟩
      simp [hle]
    rw [← hwindow]
    exact hfull
  · obtain ⟨other, hother, hcalls⟩ := h.of_calls (fun call ↦ call.host = host) true
      fun call call' hcall hcall' _ ↦
        (of_decide_eq_true hcall).trans (of_decide_eq_true hcall').symm
    obtain ⟨hserved, hrequests⟩ := hother.requests hcalls
    rw [hserved]
    apply hother.sound.obeys.unique (hobeys.restrict host)
    rw [hrequests, List.filter_map, List.filter_map, List.map_map, List.map_map]
    rfl
  · obtain ⟨other, hother, hcalls⟩ := h.of_calls (fun _ ↦ true) false
      fun _ _ _ _ hfalse ↦ by cases hfalse
    obtain ⟨hserved, hrequests⟩ := hother.requests hcalls
    have hall : (served.2.map Entry.call).filter (fun _ ↦ true) = served.2.map Entry.call :=
      List.filter_eq_self.mpr fun _ _ ↦ rfl
    rw [hall] at hserved hrequests
    rw [hserved]
    apply hother.sound.obeys.unique hobeys
    rw [hrequests, List.map_map, List.map_map]
    rfl

/-! ## Runs -/

theorem served_step {s t : State} {a : Action} (h : Served true limit window (s.gate, s.log))
    (horder : InOrder s a) (hstep : step s a = some t) :
    Served true limit window (t.gate, t.log) := by
  cases a with
  | read remoteAddr now =>
      simp only [step] at hstep
      split at hstep
      · cases hstep
      · obtain rfl := Option.some.inj hstep
        exact h
  | enter index =>
      simp only [step] at hstep
      cases hcall : s.waiting[index]? with
      | none =>
          rw [hcall] at hstep
          cases hstep
      | some call =>
          rw [hcall] at hstep
          obtain rfl := Option.some.inj hstep
          exact h.next (horder call hcall)

/-- In every run in which no call is overtaken, no window holds more than the limit, a call
is rejected only with a full window before its reading, and neither the other clients nor
the removal of clients matters. -/
theorem rateGate_law {limit : ℕ} {window : ℤ} {clock : Time} {actions : List Action} {s : State}
    (horder : Transition.Guarded step InOrder (.start limit window clock) actions)
    (hrun : Transition.run step (.start limit window clock) actions = some s) :
    Law limit window s.log := by
  have hserved := Transition.guarded_run_invariant step
    (P := fun s ↦ Served true limit window (s.gate, s.log))
    (fun s a t h hallowed hstep ↦ served_step h hallowed hstep) (Served.start) horder hrun
  exact hserved.law

instance (log : List Entry) (call : Call) : Decidable (Overtakes log call) := by
  unfold Overtakes
  infer_instance

instance (s : State) (a : Action) : Decidable (InOrder s a) := by
  cases a with
  | read remoteAddr now => exact isTrue trivial
  | enter index =>
      unfold InOrder
      infer_instance

/-- Three calls of one client, the second read and served before the third reads. -/
def threeCalls : List Action :=
  [.read "a" 0, .read "a" 1, .enter 0, .enter 0, .read "a" 5, .enter 0]

theorem rateGate_law_threeCalls :
    ∃ s, Transition.run step (.start 2 10 0) threeCalls = some s ∧ Law 2 10 s.log ∧
      s.log.map Entry.admitted = [true, true, false] := by
  have hrun : (Transition.run step (.start 2 10 0) threeCalls).map
      (fun s ↦ s.log.map Entry.admitted) = some [true, true, false] := by decide +kernel
  obtain ⟨s, hs, hlog⟩ := Option.map_eq_some_iff.mp hrun
  exact ⟨s, hs, rateGate_law (by decide +kernel) hs, hlog⟩

/-- The third call reads the time 2 and enters after a reading of 15. -/
def overtakenCalls : List Action :=
  [.read "a" 0, .enter 0, .read "a" 1, .enter 0, .read "a" 2, .read "a" 15, .enter 1, .enter 0]

/-- With a limit of 2 for each window of length 10 three calls are admitted at 0, 1 and 2;
and with a limit of 1 a call is rejected that has no admitted one before its reading. -/
theorem rateGate_overtaken :
    (∃ s, Transition.run step (.start 2 10 0) overtakenCalls = some s ∧
      admissions (s.log.map Entry.decision) ['a'] = [0, 1, 15, 2] ∧
      ¬ ((admissions (s.log.map Entry.decision) ['a']).filter fun t ↦
        0 ≤ t ∧ t < 0 + 10).length ≤ 2) ∧
    ∃ s, Transition.run step (.start 1 10 0) [.read "a" 0, .read "a" 1, .enter 1, .enter 0] =
        some s ∧
      s.log.map Entry.admitted = [true, false] ∧
      s.log.map (fun e ↦ e.call.now) = [1, 0] ∧ ¬ Law 1 10 s.log := by
  refine ⟨?_, ?_⟩
  · have hrun : (Transition.run step (.start 2 10 0) overtakenCalls).map
        (fun s ↦ admissions (s.log.map Entry.decision) ['a']) = some [0, 1, 15, 2] := by
      decide +kernel
    obtain ⟨s, hs, htimes⟩ := Option.map_eq_some_iff.mp hrun
    refine ⟨s, hs, htimes, ?_⟩
    rw [htimes]
    decide
  · have hrun : (Transition.run step (.start 1 10 0)
        [.read "a" 0, .read "a" 1, .enter 1, .enter 0]).map
          (fun s ↦ s.log.map fun e ↦ (e.call.host, e.call.now, e.admitted)) =
            some [(['a'], 1, true), (['a'], 0, false)] := by
      decide +kernel
    obtain ⟨s, hs, hlog⟩ := Option.map_eq_some_iff.mp hrun
    obtain ⟨first, rest, hentries, hfirst, hrest⟩ := List.map_eq_cons_iff.mp hlog
    obtain ⟨second, others, rfl, hsecond, hnone⟩ := List.map_eq_cons_iff.mp hrest
    obtain rfl := List.map_eq_nil_iff.mp hnone
    obtain ⟨hhost, hnow, hadmitted⟩ := Prod.ext_iff.mp hfirst |>.imp_right Prod.ext_iff.mp
    obtain ⟨hhost', hnow', hrejected⟩ := Prod.ext_iff.mp hsecond |>.imp_right Prod.ext_iff.mp
    dsimp only at hhost hnow hadmitted hhost' hnow' hrejected
    refine ⟨s, hs, ?_, ?_, fun hlaw ↦ ?_⟩
    · rw [hentries, List.map_cons, List.map_cons, hadmitted, hrejected]
      rfl
    · rw [hentries, List.map_cons, List.map_cons, hnow, hnow']
      rfl
    · have hfull := hlaw.rejected [first] second [] (by rw [hentries]; rfl) hrejected
      have htimes : admissions ([first].map Entry.decision) second.call.host = [1] := by
        simp [admissions, Entry.decision, hhost, hhost', hnow, hadmitted]
      rw [htimes, hnow'] at hfull
      exact absurd hfull (by decide)

end MultiSpeed.Api.RateGate
