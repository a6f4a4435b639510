import MultiSpeed.Events.Delivery

/-!
# The order of event identifiers

`Publish` draws the identifier of an event before it takes the mutex, so that two
goroutines can publish in the other order.  The identifiers a subscriber sees grow
as long as the goroutines take the mutex in the order of their draws.
-/

namespace MultiSpeed.Events

/-- The identifiers of the events sent on a channel grow. -/
def Channel.Increasing (c : Channel) : Prop := (c.sent.map Event.id).Pairwise (· < ·)

/-- The identifiers grow on every channel. -/
def Increasing (s : State) : Prop := ∀ r, (s.channels r).Increasing

/-- No event is delivered to a subscriber with room that was sent a larger identifier,
or the same one, before. -/
def InOrder (s : State) : Action → Prop
  | .deliver index _ => ∀ event ∈ s.publishing[index]?, ∀ entry ∈ s.subscribers,
      (s.channels entry.2).room = true →
        ∀ before ∈ (s.channels entry.2).sent, before.id < event.id
  | _ => True

theorem Channel.increasing_push {c : Channel} (hc : c.Increasing) (event : Event) :
    (c.push event).Increasing ↔ ∀ before ∈ c.sent, before.id < event.id := by
  unfold Increasing
  rw [sent_push, List.map_append, List.pairwise_append]
  constructor
  · rintro ⟨-, -, h⟩ before hbefore
    exact h _ (List.mem_map_of_mem hbefore) _ List.mem_cons_self
  · intro h
    refine ⟨hc, List.pairwise_singleton _ _, fun id hid x hx ↦ ?_⟩
    obtain ⟨before, hbefore, rfl⟩ := List.mem_map.mp hid
    rw [List.mem_singleton.mp hx]
    exact h before hbefore

/-- What a step does with the events: a draw, a step that sends none, or the section of
`Publish` in a running broker. -/
inductive EventStep (s : State) : Action → State → Prop where
  | published (type : String) (payload : Option String) (now : Time) :
      EventStep s (.publish type payload now) { s with
        nextEventID := s.nextEventID + 1
        publishing := s.publishing ++ [⟨s.nextEventID + 1, type, now, eventData payload⟩] }
  | silent {action : Action} {t : State} (order : InOrder s action)
      (sent : ∀ r, (t.channels r).sent = (s.channels r).sent)
      (publishing : t.publishing.Sublist s.publishing) (next : t.nextEventID = s.nextEventID) :
      EventStep s action t
  | delivered {index : ℕ} {order : List (UInt64 × ℕ)} {event : Event}
      (at_ : s.publishing[index]? = some event) :
      EventStep s (.deliver index order) {
        visited (·.offered event s.log) (fun c ↦ !c.room) s with
        publishing := s.publishing.eraseIdx index
        log := s.log ++ [event] }

theorem eventStep {s t : State} {action : Action} (hs : WellFormed s)
    (hstep : step s action = some t) : EventStep s action t := by
  have hkept := List.Sublist.refl s.publishing
  cases step_spec hs hstep with
  | published type payload now => exact .published type payload now
  | delivered hat hrunning => exact .delivered hat
  | idle | cancelled => exact .silent trivial (fun _ ↦ rfl) hkept rfl
  | @dropped index order event hat hended =>
      refine .silent (fun _ _ entry hentry ↦ ?_) (fun _ ↦ rfl) (List.eraseIdx_sublist _ _) rfl
      rw [hs.shut hended] at hentry
      cases hentry
  | drawn buffer limit =>
      refine .silent trivial (sent_update ?_) hkept rfl
      rw [hs.unmade s.made (Nat.le_refl _)]
      rfl
  | refused | registered | disconnected => exact .silent trivial (sent_update rfl) hkept rfl
  | received hat htaken =>
      exact .silent trivial (sent_update (Channel.sent_receive htaken)) hkept rfl
  | closed order =>
      refine .silent trivial (fun r ↦ ?_) hkept rfl
      dsimp only
      by_cases hmem : r ∈ s.subscribers.map Prod.snd
      · obtain ⟨entry, hentry, rfl⟩ := List.mem_map.mp hmem
        rw [visited_channel _ _ hentry]
        rfl
      · rw [visited_other _ _ hmem]

/-- A step keeps the identifiers growing exactly if it delivers in order. -/
theorem increasing_step_iff {s t : State} {action : Action} (hs : WellFormed s)
    (h : Increasing s) (hstep : step s action = some t) : Increasing t ↔ InOrder s action := by
  cases eventStep hs hstep with
  | published => exact iff_of_true h trivial
  | silent horder hsent =>
      refine iff_of_true (fun r ↦ ?_) horder
      unfold Channel.Increasing
      rw [hsent]
      exact h r
  | @delivered index order event hat =>
      have hchannel : ∀ entry ∈ s.subscribers, ((s.channels entry.2).room = true →
          ∀ before ∈ (s.channels entry.2).sent, before.id < event.id) ↔
            ((s.channels entry.2).offered event s.log).Increasing := by
        intro entry _
        unfold Channel.offered
        split
        · rename_i hroom
          rw [Channel.increasing_push (h _)]
          exact ⟨fun hbefore ↦ hbefore hroom, fun hbefore _ ↦ hbefore⟩
        · rename_i hroom
          exact iff_of_true (fun h' ↦ absurd h' hroom) (h entry.2)
      constructor
      · intro hincreasing event' hevent entry hentry
        rw [hat] at hevent
        obtain rfl := Option.some.inj hevent
        refine (hchannel entry hentry).mpr ?_
        have hentry' := hincreasing entry.2
        dsimp only at hentry'
        rwa [visited_channel _ _ hentry] at hentry'
      · intro horder r
        dsimp only
        by_cases hmem : r ∈ s.subscribers.map Prod.snd
        · obtain ⟨entry, hentry, rfl⟩ := List.mem_map.mp hmem
          rw [visited_channel _ _ hentry]
          exact (hchannel entry hentry).mp (horder event hat entry hentry)
        · rw [visited_other _ _ hmem]
          exact h r

theorem increasing_new : Increasing new := fun _ ↦ List.Pairwise.nil

/-! ## The order of the draws -/

/-- No goroutine that drew a smaller identifier still waits for the mutex when a
publishing goroutine takes it, and a draw does not wrap the counter. -/
def DrawOrder (s : State) : Action → Prop
  | .publish .. => s.nextEventID < s.nextEventID + 1
  | .deliver index _ => ∀ event ∈ s.publishing[index]?, ∀ waiting ∈ s.publishing,
      event.id ≤ waiting.id
  | _ => True

instance decidableDrawOrder (s : State) : ∀ action, Decidable (DrawOrder s action)
  | .publish .. => inferInstanceAs (Decidable (s.nextEventID < s.nextEventID + 1))
  | .deliver index _ => inferInstanceAs (Decidable (∀ event ∈ s.publishing[index]?,
      ∀ waiting ∈ s.publishing, event.id ≤ waiting.id))
  | .trySubscribe .. | .register _ | .cancel _ | .close _ | .receive _ => isTrue trivial

/-- What a run in the order of the draws keeps: the waiting events have identifiers of
their own, and what was sent is before all of them. -/
structure Ordered (s : State) : Prop where
  increasing : Increasing s
  distinct : (s.publishing.map Event.id).Nodup
  drawn : ∀ event ∈ s.publishing, event.id ≤ s.nextEventID
  counted : ∀ r, ∀ before ∈ (s.channels r).sent, before.id ≤ s.nextEventID
  earlier : ∀ r, ∀ before ∈ (s.channels r).sent, ∀ event ∈ s.publishing, before.id < event.id

theorem ordered_new : Ordered new where
  increasing := increasing_new
  distinct := List.nodup_nil
  drawn _ h := by cases h
  counted _ _ h := by cases h
  earlier _ _ h := by cases h

/-- A waiting event is after everything that was sent. -/
theorem Ordered.inOrder {s : State} (h : Ordered s) (action : Action) : InOrder s action := by
  cases action with
  | deliver index order =>
      intro event hevent entry _ _ before hbefore
      exact h.earlier entry.2 before hbefore event (List.mem_of_getElem? hevent)
  | publish | trySubscribe | register | cancel | close | receive => trivial

/-- The section of an event sends this event only. -/
theorem mem_sent_delivered {s : State} {event before : Event} {log : List Event} {r : ℕ}
    (hsent : before ∈ ((visited (·.offered event log) (fun c ↦ !c.room) s).channels r).sent) :
    before ∈ (s.channels r).sent ∨ before = event := by
  by_cases hmem : r ∈ s.subscribers.map Prod.snd
  · obtain ⟨entry, hentry, rfl⟩ := List.mem_map.mp hmem
    rw [visited_channel _ _ hentry, Channel.offered] at hsent
    split at hsent
    · rwa [Channel.sent_push, List.mem_append, List.mem_singleton] at hsent
    · exact .inl hsent
  · rw [visited_other _ _ hmem] at hsent
    exact .inl hsent

theorem Ordered.step {s t : State} {action : Action} (hs : WellFormed s) (h : Ordered s)
    (horder : DrawOrder s action) (hstep : step s action = some t) : Ordered t := by
  have hincreasing : Increasing t :=
    (increasing_step_iff hs h.increasing hstep).mpr (h.inOrder action)
  cases eventStep hs hstep with
  | published type payload now =>
      have hwaiting : ∀ event ∈ s.publishing, event.id < s.nextEventID + 1 :=
        fun event hevent ↦ UInt64.lt_of_le_of_lt (h.drawn event hevent) horder
      have hsent : ∀ r, ∀ before ∈ (s.channels r).sent, before.id < s.nextEventID + 1 :=
        fun r before hbefore ↦ UInt64.lt_of_le_of_lt (h.counted r before hbefore) horder
      refine ⟨hincreasing, ?_, ?_,
        fun r before hbefore ↦ UInt64.le_of_lt (hsent r before hbefore), ?_⟩
      · rw [List.map_append, List.map_singleton, ← List.concat_eq_append]
        refine h.distinct.concat fun hmem ↦ ?_
        obtain ⟨event, hevent, heq⟩ := List.mem_map.mp hmem
        exact absurd heq (UInt64.ne_of_lt (hwaiting event hevent))
      · intro event hevent
        rcases List.mem_append.mp hevent with hevent | hevent
        · exact UInt64.le_of_lt (hwaiting event hevent)
        · rw [List.mem_singleton.mp hevent]
          exact UInt64.le_refl _
      · intro r before hbefore event hevent
        rcases List.mem_append.mp hevent with hevent | hevent
        · exact h.earlier r before hbefore event hevent
        · rw [List.mem_singleton.mp hevent]
          exact hsent r before hbefore
  | silent _ hsent hpublishing hnext =>
      refine ⟨hincreasing, h.distinct.sublist (hpublishing.map _), ?_, ?_, ?_⟩
      · intro event hevent
        rw [hnext]
        exact h.drawn event (hpublishing.subset hevent)
      · intro r before hbefore
        rw [hsent] at hbefore
        rw [hnext]
        exact h.counted r before hbefore
      · intro r before hbefore event hevent
        rw [hsent] at hbefore
        exact h.earlier r before hbefore event (hpublishing.subset hevent)
  | @delivered index order event hat =>
      have hevent := List.mem_of_getElem? hat
      have hrest := List.eraseIdx_sublist s.publishing index
      refine ⟨hincreasing, h.distinct.sublist (hrest.map _),
        fun waiting hwaiting ↦ h.drawn waiting (hrest.subset hwaiting), ?_, ?_⟩
      · intro r before hbefore
        rcases mem_sent_delivered hbefore with hbefore | rfl
        · exact h.counted r before hbefore
        · exact h.drawn before hevent
      · intro r before hbefore waiting hwaiting
        rcases mem_sent_delivered hbefore with hbefore | rfl
        · exact h.earlier r before hbefore waiting (hrest.subset hwaiting)
        · -- the event took the mutex first, and no other one has its identifier
          refine UInt64.lt_of_le_of_ne (horder before hat waiting (hrest.subset hwaiting))
            fun heq ↦ ?_
          have htaken := (perm_eraseIdx hat [] Event.id).nodup_iff.mpr h.distinct
          exact (List.nodup_cons.mp htaken).1 (heq ▸ List.mem_map_of_mem hwaiting)

/-- In a run whose goroutines publish in the order of their draws every subscriber
receives growing identifiers. -/
theorem received_ids_increasing {actions : List Action} {s : State}
    (horder : Transition.Guarded step DrawOrder new actions)
    (hrun : Transition.run step new actions = some s) :
    ∀ subscription ∈ s.subscriptions,
      ((s.channels subscription.channel).received.map Event.id).Pairwise (· < ·) := by
  have hordered : WellFormed s ∧ Ordered s :=
    Transition.guarded_run_invariant Events.step (P := fun s ↦ WellFormed s ∧ Ordered s)
      (fun _ _ _ hs hg hstep ↦ ⟨hs.1.step hstep, hs.2.step hs.1 hg hstep⟩)
      ⟨wellFormed_new, ordered_new⟩ horder hrun
  intro subscription _
  have hsent := hordered.2.increasing subscription.channel
  unfold Channel.Increasing Channel.sent at hsent
  rw [List.map_append] at hsent
  exact (List.pairwise_append.mp hsent).1

/-- Two goroutines publish one after the other. -/
def orderedRun : List Action :=
  [.trySubscribe 64 128, .register 0, .publish "result" none 0, .deliver 0 [(1, 0)],
    .publish "result" none 0, .deliver 0 [(1, 0)], .receive 0, .receive 0]

theorem received_ids_increasing_ordered :
    ∃ s subscription, Transition.run step new orderedRun = some s ∧
      subscription ∈ s.subscriptions ∧
        (s.channels subscription.channel).received.map Event.id = [1, 2] ∧
        ((s.channels subscription.channel).received.map Event.id).Pairwise (· < ·) := by
  have horder : Transition.Guarded step DrawOrder new orderedRun := by decide
  exact ⟨_, ⟨1, 0, true, false⟩, rfl, by decide, rfl,
    received_ids_increasing horder rfl _ (by decide)⟩

/-- Two goroutines draw their identifiers, and the second one takes the mutex first. -/
def overtakingRun : List Action :=
  [.trySubscribe 64 128, .register 0, .publish "first" none 0, .publish "second" none 0,
    .deliver 1 [(1, 0)], .deliver 0 [(1, 0)], .receive 0, .receive 0]

theorem overtaken_event : ∃ s subscription, Transition.run step new overtakingRun = some s ∧
    subscription ∈ s.subscriptions ∧
      (s.channels subscription.channel).received.map Event.id = [2, 1] ∧
      ¬ ((s.channels subscription.channel).received.map Event.id).Pairwise (· < ·) :=
  ⟨_, ⟨1, 0, true, false⟩, rfl, by decide, rfl, by decide⟩

end MultiSpeed.Events
