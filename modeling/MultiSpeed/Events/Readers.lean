import MultiSpeed.Events.Delivery

/-!
# Readers of the channels

Each subscription has a channel of its own, and only a receive of this subscription takes
events out of it.  What holds of every published event holds of every event on a channel.
-/

namespace MultiSpeed.Events

open Feed

/-! ## What is received -/

/-- No other step receives. -/
theorem received_step {s t : State} {action : Action} (hs : WellFormed s)
    (hother : ∀ index, action ≠ .receive index) (hstep : step s action = some t) (r : ℕ) :
    (t.channels r).received = (s.channels r).received := by
  have hupdate : ∀ (reference : ℕ) (c : Channel),
      c.received = (s.channels reference).received →
        (Function.update s.channels reference c r).received = (s.channels r).received := by
    intro reference c hc
    rcases eq_or_ne r reference with rfl | hne
    · rw [Function.update_self, hc]
    · rw [Function.update_of_ne hne]
  have hvisited : ∀ (change : Channel → Channel) (leaves : Channel → Bool),
      (∀ c, (change c).received = c.received) →
        ((visited change leaves s).channels r).received = (s.channels r).received := by
    intro change leaves hchange
    change (if _ then change (s.channels r) else s.channels r).received = _
    split
    · exact hchange _
    · rfl
  cases step_spec hs hstep with
  | published | dropped | idle | cancelled => rfl
  | delivered =>
      refine hvisited (·.offered _ s.log) (fun c ↦ !c.room) fun c ↦ ?_
      unfold Channel.offered
      split <;> rfl
  | drawn =>
      refine hupdate _ _ ?_
      rw [hs.unmade s.made (Nat.le_refl _)]
      rfl
  | refused | registered | disconnected => exact hupdate _ _ rfl
  | closed => exact hvisited (·.shut s.log) (fun _ ↦ true) fun _ ↦ rfl
  | received => exact absurd rfl (hother _)

theorem Channel.received_receive {c c' : Channel} (h : c.receive = some c') :
    c'.received = c.received ++ c.buffer.head?.toList := by
  unfold receive at h
  split at h
  · rename_i event rest hbuffer
    obtain rfl := Option.some.inj h
    rw [hbuffer]
    rfl
  · rename_i hbuffer
    split at h
    · obtain rfl := Option.some.inj h
      rw [hbuffer]
      exact (List.append_nil _).symm
    · cases h

/-- What a receive does. -/
theorem receive_spec {s t : State} {index : ℕ} (hs : WellFormed s)
    (hstep : step s (.receive index) = some t) : ∃ subscription taken,
      s.subscriptions[index]? = some subscription ∧
        (s.channels subscription.channel).receive = some taken ∧
          t = s.setChannel subscription.channel taken := by
  generalize haction : Action.receive index = action at hstep
  cases step_spec hs hstep with
  | received hat htaken =>
      cases haction
      exact ⟨_, _, hat, htaken, rfl⟩
  | _ => cases haction

/-! ## Every subscription has its own channel -/

/-- The channels of the subscriptions and of the waiting registrations. -/
def State.handed (s : State) : List ℕ :=
  s.subscriptions.map Subscription.channel ++ s.registering.map Registration.channel

structure Owned (s : State) : Prop where
  differ : s.handed.Nodup
  made : ∀ r ∈ s.handed, r < s.made

theorem owned_new : Owned new := ⟨List.nodup_nil, fun _ h ↦ by cases h⟩

theorem perm_handed {s : State} {index : ℕ} {r : Registration}
    (hat : s.registering[index]? = some r) (accepted : Bool) :
    ((s.subscriptions ++ [r.subscription accepted]).map Subscription.channel ++
      (s.registering.eraseIdx index).map Registration.channel).Perm s.handed := by
  have hperm := perm_eraseIdx hat (s.subscriptions.map Subscription.channel) Registration.channel
  rw [List.map_append, List.append_assoc]
  exact List.perm_middle.trans hperm

theorem Owned.of_perm {s t : State} (h : Owned s) (hperm : t.handed.Perm s.handed)
    (hmade : t.made = s.made) : Owned t :=
  ⟨hperm.nodup_iff.mpr h.differ, fun r hr ↦ hmade ▸ h.made r (hperm.subset hr)⟩

theorem map_set_channel {subscriptions : List Subscription} {index : ℕ}
    {subscription : Subscription} (hat : subscriptions[index]? = some subscription) :
    (subscriptions.set index { subscription with done := true }).map Subscription.channel =
      subscriptions.map Subscription.channel := by
  obtain ⟨hlt, rfl⟩ := List.getElem?_eq_some_iff.mp hat
  have hlength : index < (subscriptions.map Subscription.channel).length := by simpa using hlt
  have hsame := List.set_getElem_self hlength
  rw [List.getElem_map] at hsame
  rw [List.map_set, hsame]

theorem Owned.step {s t : State} {action : Action} (hs : WellFormed s) (h : Owned s)
    (hstep : step s action = some t) : Owned t := by
  cases step_spec hs hstep with
  | published | delivered | dropped | idle | closed | received =>
      exact h.of_perm (List.Perm.refl _) rfl
  | refused accepted hat => exact h.of_perm (perm_handed hat accepted) rfl
  | registered hat => exact h.of_perm (perm_handed hat true) rfl
  | cancelled hat => exact h.of_perm (.append_right _ (.of_eq (map_set_channel hat))) rfl
  | disconnected hat => exact h.of_perm (.append_right _ (.of_eq (map_set_channel hat))) rfl
  | drawn buffer limit =>
      have hhanded : (s.draw buffer limit).handed = s.handed ++ [s.made] := by
        simp [State.handed, State.draw]
      refine ⟨?_, fun r hr ↦ ?_⟩
      · rw [hhanded, List.nodup_append]
        refine ⟨h.differ, List.nodup_singleton _, fun a ha b hb ↦ ?_⟩
        rw [List.mem_singleton.mp hb]
        exact (h.made a ha).ne
      · rw [hhanded] at hr
        rcases List.mem_append.mp hr with hr | hr
        · exact Nat.lt_succ_of_lt (h.made r hr)
        · rw [List.mem_singleton.mp hr]
          exact Nat.lt_succ_self _

theorem Owned.channel_ne {s : State} (h : Owned s) {i j : ℕ} {a b : Subscription}
    (hi : s.subscriptions[i]? = some a) (hj : s.subscriptions[j]? = some b) (hne : i ≠ j) :
    a.channel ≠ b.channel := by
  have hnodup := (List.nodup_append.mp h.differ).1
  have hmap : ∀ {k : ℕ} {c : Subscription}, s.subscriptions[k]? = some c →
      (s.subscriptions.map Subscription.channel)[k]? = some c.channel := by
    intro k c hk
    rw [List.getElem?_map, hk]
    rfl
  obtain ⟨hlt, hget⟩ := List.getElem?_eq_some_iff.mp (hmap hi)
  obtain ⟨hlt', hget'⟩ := List.getElem?_eq_some_iff.mp (hmap hj)
  intro heq
  exact hne ((List.Nodup.getElem_inj_iff hnodup).mp (hget.trans (heq.trans hget'.symm)))

/-- A subscription keeps its channel. -/
theorem map_channel_step {s t : State} {action : Action} (hs : WellFormed s)
    (hother : ∀ index, action ≠ .register index) (hstep : step s action = some t) :
    t.subscriptions.map Subscription.channel = s.subscriptions.map Subscription.channel := by
  cases step_spec hs hstep with
  | published | delivered | dropped | idle | closed | received | drawn => rfl
  | refused | registered => exact absurd rfl (hother _)
  | cancelled hat => exact map_set_channel hat
  | disconnected hat => exact map_set_channel hat

/-- A registration gives the next subscription, with the channel that waits for it. -/
theorem register_spec {s t : State} {index : ℕ} (hs : WellFormed s)
    (hstep : step s (.register index) = some t) : ∃ r accepted,
      r ∈ s.registering ∧ t.subscriptions = s.subscriptions ++ [r.subscription accepted] := by
  generalize haction : Action.register index = action at hstep
  cases step_spec hs hstep with
  | refused accepted hat => exact ⟨_, accepted, List.mem_of_getElem? hat, rfl⟩
  | registered hat => exact ⟨_, true, List.mem_of_getElem? hat, rfl⟩
  | _ => cases haction

/-! ## Properties of events -/

/-- The property holds of the events that are published and of those on the channels. -/
structure Carries (P : Event → Prop) (s : State) : Prop where
  publishing : ∀ event ∈ s.publishing, P event
  sent : ∀ r, ∀ event ∈ (s.channels r).sent, P event

theorem carries_new (P : Event → Prop) : Carries P new :=
  ⟨fun _ h ↦ (by cases h), fun _ _ h ↦ (by cases h)⟩

theorem Carries.step {P : Event → Prop} {s t : State} {action : Action} (hs : WellFormed s)
    (h : Carries P s) (hstep : step s action = some t)
    (hnew : ∀ type payload now, action = .publish type payload now →
      ∀ id, P ⟨id, type, now, eventData payload⟩) : Carries P t := by
  have hupdate : ∀ (reference : ℕ) (c : Channel), c.sent = (s.channels reference).sent →
      ∀ r, ∀ event ∈ (Function.update s.channels reference c r).sent, P event := by
    intro reference c hc r event hevent
    rw [sent_update hc] at hevent
    exact h.sent r event hevent
  cases step_spec hs hstep with
  | published type payload now =>
      refine ⟨fun event hevent ↦ ?_, h.sent⟩
      rcases List.mem_append.mp hevent with hevent | hevent
      · exact h.publishing event hevent
      · rw [List.mem_singleton.mp hevent]
        exact hnew type payload now rfl _
  | @delivered index order event hat =>
      refine ⟨fun other hother ↦ h.publishing other (List.mem_of_mem_eraseIdx hother),
        fun r other hother ↦ ?_⟩
      change other ∈ (if _ then (s.channels r).offered event s.log else s.channels r).sent
        at hother
      have hsent : other ∈ (s.channels r).sent ∨ other = event := by
        unfold Channel.offered at hother
        split at hother
        · split at hother
          · simpa using hother
          · exact .inl hother
        · exact .inl hother
      rcases hsent with hsent | rfl
      · exact h.sent r other hsent
      · exact h.publishing other (List.mem_of_getElem? hat)
  | dropped =>
      exact ⟨fun other hother ↦ h.publishing other (List.mem_of_mem_eraseIdx hother), h.sent⟩
  | idle | cancelled => exact ⟨h.publishing, h.sent⟩
  | drawn =>
      refine ⟨h.publishing, hupdate _ _ ?_⟩
      rw [hs.unmade s.made (Nat.le_refl _)]
      rfl
  | refused | registered | disconnected => exact ⟨h.publishing, hupdate _ _ rfl⟩
  | closed =>
      refine ⟨h.publishing, fun r event hevent ↦ h.sent r event ?_⟩
      change event ∈ (if _ then (s.channels r).shut s.log else s.channels r).sent at hevent
      split at hevent <;> exact hevent
  | received _ htaken =>
      exact ⟨h.publishing, hupdate _ _ (Channel.sent_receive htaken)⟩

end MultiSpeed.Events
