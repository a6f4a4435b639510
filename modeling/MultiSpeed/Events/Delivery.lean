import MultiSpeed.Events.Sections

/-!
# What subscribers see

The published events have one order, the order of the mutex.  A channel carries the
part of it between the registration of its subscriber and its close, without a gap,
as long as no registration takes an identifier that another subscriber still has in
the map.  Identifiers repeat only after all values of their counter.
-/

namespace MultiSpeed.Events

open Feed

/-! ## Connected channels -/

/-- An open channel of a subscriber is in the map, and a channel carries its part of
the published events. -/
structure Channel.Attached (c : Channel) (log : List Event) (registered : Prop) : Prop where
  connected : c.closed = false → c.window.isSome = true → registered
  fed : ∀ w ∈ c.window, c.sent = w.view log

namespace Channel

theorem attached_of_unseen {c : Channel} (hnone : c.window = none) (log : List Event)
    (registered : Prop) : c.Attached log registered where
  connected _ hsome := by
    rw [hnone] at hsome
    cases hsome
  fed w hw := by
    rw [hnone] at hw
    cases hw

theorem Attached.mono {c : Channel} {log : List Event} {p q : Prop} (h : c.Attached log p)
    (hpq : p → q) : c.Attached log q :=
  ⟨fun hopen hsome ↦ hpq (h.connected hopen hsome), h.fed⟩

theorem Attached.shut {c : Channel} {log : List Event} {p : Prop} (h : c.Attached log p)
    (hvalid : c.Valid log) (hopen : c.closed = false) (q : Prop) : (c.shut log).Attached log q where
  connected hclosed := by cases hclosed
  fed w hw := by
    obtain ⟨v, hv, rfl⟩ := Option.map_eq_some_iff.mp hw
    have hleft : v.isOpen = true := by rw [(hvalid.fits v hv).2, hopen]; rfl
    rw [Window.view_leave hleft, sent_shut]
    exact h.fed v hv

/-- A closed channel is not shown what is published afterwards. -/
theorem Attached.append {c : Channel} {log : List Event} {p : Prop} (h : c.Attached log p)
    (hvalid : c.Valid log) (hnot : ¬ p) (event : Event) (q : Prop) :
    c.Attached (log ++ [event]) q := by
  have hclosed : ∀ w ∈ c.window, c.closed = true := by
    intro w hw
    by_contra hopen
    exact hnot (h.connected (by simpa using hopen) (by rw [hw]; rfl))
  refine ⟨fun hopen hsome ↦ ?_, fun w hw ↦ ?_⟩
  · obtain ⟨w, hw⟩ := Option.isSome_iff_exists.mp hsome
    rw [hclosed w hw] at hopen
    cases hopen
  · obtain ⟨hfits, hleft⟩ := hvalid.fits w hw
    rw [Window.view_append_left hfits (by rw [hleft, hclosed w hw]; rfl)]
    exact h.fed w hw

/-- A subscriber gets the event, or is closed before it. -/
theorem Attached.offered {c : Channel} {log : List Event} {p : Prop} (h : c.Attached log p)
    (hvalid : c.Valid log) (hopen : c.closed = false) (event : Event) :
    (c.offered event log).Attached (log ++ [event]) (c.room = true) := by
  unfold Channel.offered
  split
  · rename_i hroom
    refine ⟨fun _ _ ↦ hroom, fun w hw ↦ ?_⟩
    obtain ⟨hfits, hleft⟩ := hvalid.fits w hw
    rw [Window.view_append_open hfits (by rw [hleft, hopen]; rfl), sent_push]
    exact congrArg (· ++ [event]) (h.fed w hw)
  · exact (h.shut hvalid hopen False).append hvalid.shut not_false event _

end Channel

/-- Every channel is attached. -/
def Attached (s : State) : Prop :=
  ∀ r, (s.channels r).Attached s.log (r ∈ s.subscribers.map Prod.snd)

theorem attached_new : Attached new := fun _ ↦ Channel.attached_of_unseen rfl _ _

/-- A registration takes an identifier that is not in the map. -/
def Fresh (s : State) : Action → Prop
  | .register index => ∀ r ∈ s.registering[index]?, r.id ∉ s.subscribers.map Prod.fst
  | _ => True

theorem Attached.step {s t : State} {action : Action} (hs : WellFormed s) (h : Attached s)
    (hfresh : Fresh s action) (hstep : step s action = some t) : Attached t := by
  intro x
  have hx := h x
  have hvalid := hs.valid x
  cases step_spec hs hstep with
  | published | dropped | idle | cancelled => exact hx
  | drawn buffer limit =>
      change (Function.update s.channels s.made _ x).Attached _ _
      by_cases heq : x = s.made
      · rw [heq, Function.update_self]
        exact Channel.attached_of_unseen rfl _ _
      · rw [Function.update_of_ne heq]
        exact hx
  | @refused index r accepted hat =>
      obtain ⟨capacity, hmake⟩ := hs.waiting r (List.mem_of_getElem? hat)
      change (Function.update s.channels r.channel _ x).Attached _ _
      by_cases heq : x = r.channel
      · rw [heq, Function.update_self, hmake]
        exact Channel.attached_of_unseen rfl _ _
      · rw [Function.update_of_ne heq]
        exact hx
  | @registered index r hat hrunning hfree =>
      obtain ⟨capacity, hmake⟩ := hs.waiting r (List.mem_of_getElem? hat)
      change (Function.update s.channels r.channel _ x).Attached _ (x ∈ List.map Prod.snd (_ :: _))
      rw [List.map_cons, List.mem_cons]
      by_cases heq : x = r.channel
      · rw [heq, Function.update_self, hmake]
        refine ⟨fun _ _ ↦ .inl rfl, fun w hw ↦ ?_⟩
        obtain rfl := Option.some.inj hw
        exact (Window.view_join s.log).symm
      · rw [Function.update_of_ne heq]
        have hkept : (s.subscribers.filter fun other ↦ other.1 ≠ r.id) = s.subscribers := by
          refine List.filter_eq_self.mpr fun other hother ↦ decide_eq_true fun hid ↦ ?_
          exact hfresh r hat (hid ▸ List.mem_map_of_mem hother)
        rw [hkept]
        exact hx.mono .inr
  | @disconnected index subscription entry hat hmem =>
      have hopen := (hs.registered entry hmem).1
      change (Function.update s.channels entry.2 _ x).Attached _ _
      by_cases heq : x = entry.2
      · rw [heq, Function.update_self]
        exact (h entry.2).shut (hs.valid _) hopen _
      · rw [Function.update_of_ne heq]
        refine hx.mono fun hold ↦ ?_
        obtain ⟨other, hother, rfl⟩ := List.mem_map.mp hold
        refine List.mem_map_of_mem (List.mem_filter.mpr ⟨hother, decide_eq_true fun hid ↦ ?_⟩)
        exact heq (by rw [List.inj_on_of_nodup_map hs.keys hother hmem hid])
  | closed order =>
      dsimp only
      by_cases hmem : x ∈ s.subscribers.map Prod.snd
      · obtain ⟨entry, hentry, rfl⟩ := List.mem_map.mp hmem
        rw [visited_channel _ _ hentry]
        exact hx.shut hvalid (hs.registered entry hentry).1 _
      · rw [visited_other _ _ hmem]
        exact hx.mono fun hold ↦ absurd hold hmem
  | @delivered index order event hat hrunning =>
      dsimp only
      by_cases hmem : x ∈ s.subscribers.map Prod.snd
      · obtain ⟨entry, hentry, rfl⟩ := List.mem_map.mp hmem
        rw [visited_channel _ _ hentry]
        refine (hx.offered hvalid (hs.registered entry hentry).1 event).mono fun hroom ↦ ?_
        exact List.mem_map_of_mem ((mem_visited _ _).mpr ⟨hentry, by rw [hroom]; rfl⟩)
      · rw [visited_other _ _ hmem]
        exact hx.append hvalid hmem event _
  | @received index subscription c hat htaken =>
      change (Function.update s.channels subscription.channel c x).Attached _ _
      by_cases heq : x = subscription.channel
      · rw [heq, Function.update_self]
        have hsent := Channel.sent_receive htaken
        have hold := h subscription.channel
        obtain rfl | ⟨event, rest, -, rfl⟩ := Channel.receive_eq_some htaken
        · exact hold
        · exact ⟨hold.connected, fun w hw ↦ hsent.trans (hold.fed w hw)⟩
      · rw [Function.update_of_ne heq]
        exact hx

/-! ## What lasts -/

/-- A window keeps its start, and it keeps its end once it has one. -/
def Kept (before after : Option Window) : Prop :=
  ∀ w ∈ before, ∃ w' ∈ after, w'.start = w.start ∧ (w.isOpen = false → w' = w)

theorem kept_refl (w : Option Window) : Kept w w := fun v hv ↦ ⟨v, hv, rfl, fun _ ↦ rfl⟩

theorem kept_none (w : Option Window) : Kept none w := fun _ h ↦ by cases h

theorem Kept.trans {u v w : Option Window} (h : Kept u v) (h' : Kept v w) : Kept u w := by
  intro x hx
  obtain ⟨y, hy, hstart, hkept⟩ := h x hx
  obtain ⟨z, hz, hstart', hkept'⟩ := h' y hy
  refine ⟨z, hz, hstart'.trans hstart, fun hleft ↦ ?_⟩
  obtain rfl := hkept hleft
  exact hkept' hleft

theorem Channel.kept_shut {c : Channel} {log : List Event} (hvalid : c.Valid log)
    (hopen : c.closed = false) : Kept c.window (c.shut log).window := by
  intro w hw
  refine ⟨w.leave log, Option.map_eq_some_iff.mpr ⟨w, hw, rfl⟩, rfl, fun hleft ↦ ?_⟩
  rw [(hvalid.fits w hw).2, hopen] at hleft
  cases hleft

theorem Channel.kept_receive {c c' : Channel} (h : c.receive = some c') :
    Kept c.window c'.window := by
  obtain rfl | ⟨event, rest, -, rfl⟩ := Channel.receive_eq_some h
  · exact kept_refl _
  · exact kept_refl _

/-- The published events stay published, the windows of the channels are kept, and
nothing is sent once the broker is closed. -/
structure Later (s t : State) : Prop where
  log : s.log <+: t.log
  windows : ∀ r, Kept (s.channels r).window (t.channels r).window
  ended : s.closed = true → t.closed = true ∧ t.log = s.log ∧
    ∀ r, (t.channels r).sent = (s.channels r).sent

theorem later_refl (s : State) : Later s s :=
  ⟨List.prefix_rfl, fun _ ↦ kept_refl _, fun h ↦ ⟨h, rfl, fun _ ↦ rfl⟩⟩

theorem Later.trans {s t u : State} (h : Later s t) (h' : Later t u) : Later s u := by
  refine ⟨h.log.trans h'.log, fun r ↦ (h.windows r).trans (h'.windows r), fun hclosed ↦ ?_⟩
  obtain ⟨hclosed', hlog, hsent⟩ := h.ended hclosed
  obtain ⟨hclosed'', hlog', hsent'⟩ := h'.ended hclosed'
  exact ⟨hclosed'', hlog'.trans hlog, fun r ↦ (hsent' r).trans (hsent r)⟩

/-- Only the channel of one reference changes. -/
theorem kept_update {s : State} {r : ℕ} {c : Channel} (h : Kept (s.channels r).window c.window)
    (x : ℕ) : Kept (s.channels x).window (Function.update s.channels r c x).window := by
  by_cases heq : x = r
  · rw [heq, Function.update_self]
    exact h
  · rw [Function.update_of_ne heq]
    exact kept_refl _

theorem sent_update {s : State} {r : ℕ} {c : Channel} (h : c.sent = (s.channels r).sent)
    (x : ℕ) : (Function.update s.channels r c x).sent = (s.channels x).sent := by
  by_cases heq : x = r
  · rw [heq, Function.update_self]
    exact h
  · rw [Function.update_of_ne heq]

theorem kept_visited {s : State} (change : Channel → Channel) (leaves : Channel → Bool)
    (h : ∀ entry ∈ s.subscribers,
      Kept (s.channels entry.2).window (change (s.channels entry.2)).window) (x : ℕ) :
    Kept (s.channels x).window ((visited change leaves s).channels x).window := by
  by_cases hmem : x ∈ s.subscribers.map Prod.snd
  · obtain ⟨entry, hentry, rfl⟩ := List.mem_map.mp hmem
    rw [visited_channel _ _ hentry]
    exact h entry hentry
  · rw [visited_other _ _ hmem]
    exact kept_refl _

theorem later_step {s t : State} {action : Action} (hs : WellFormed s)
    (hstep : step s action = some t) : Later s t := by
  cases step_spec hs hstep with
  | published | dropped | idle | cancelled =>
      exact ⟨List.prefix_rfl, fun _ ↦ kept_refl _, fun h ↦ ⟨h, rfl, fun _ ↦ rfl⟩⟩
  | drawn buffer limit =>
      have hunmade := hs.unmade s.made le_rfl
      refine ⟨List.prefix_rfl, kept_update ?_, fun h ↦ ⟨h, rfl, sent_update ?_⟩⟩
      · rw [hunmade]
        exact kept_none _
      · rw [hunmade]
        rfl
  | @refused index r accepted hat =>
      obtain ⟨capacity, hmake⟩ := hs.waiting r (List.mem_of_getElem? hat)
      refine ⟨List.prefix_rfl, kept_update ?_, fun h ↦ ⟨h, rfl, sent_update rfl⟩⟩
      rw [hmake]
      exact kept_none _
  | @registered index r hat hrunning hfree =>
      obtain ⟨capacity, hmake⟩ := hs.waiting r (List.mem_of_getElem? hat)
      refine ⟨List.prefix_rfl, kept_update ?_, fun h ↦ absurd h (by simp [hrunning])⟩
      rw [hmake]
      exact kept_none _
  | @disconnected index subscription entry hat hmem =>
      have hkept := Channel.kept_shut (hs.valid entry.2) (hs.registered entry hmem).1
      exact ⟨List.prefix_rfl, kept_update hkept, fun h ↦ ⟨h, rfl, sent_update rfl⟩⟩
  | closed order =>
      refine ⟨List.prefix_rfl, kept_visited (·.shut s.log) (fun _ ↦ true) fun entry hentry ↦ ?_,
        fun h ↦ ⟨rfl, rfl, fun x ↦ ?_⟩⟩
      · exact Channel.kept_shut (hs.valid _) (hs.registered entry hentry).1
      · dsimp only
        rw [visited_other _ _ (by simp [hs.shut h])]
  | @delivered index order event hat hrunning =>
      refine ⟨List.prefix_append _ _,
        kept_visited (·.offered event s.log) (fun c ↦ !c.room) fun entry hentry ↦ ?_,
        fun h ↦ absurd h (by simp [hrunning])⟩
      unfold Channel.offered
      split
      · exact kept_refl _
      · exact Channel.kept_shut (hs.valid _) (hs.registered entry hentry).1
  | @received index subscription c hat htaken =>
      exact ⟨List.prefix_rfl, kept_update (Channel.kept_receive htaken),
        fun h ↦ ⟨h, rfl, sent_update (Channel.sent_receive htaken)⟩⟩

theorem later_run {s t : State} {actions : List Action} (hs : WellFormed s)
    (hrun : Transition.run step s actions = some t) : Later s t :=
  Transition.run_relation step later_refl (fun _ _ _ ↦ Later.trans)
    (fun _ _ _ hs hstep ↦ hs.step hstep) (fun _ _ _ hs hstep ↦ later_step hs hstep) hs hrun

/-! ## The limit -/

/-- Every `TrySubscribe` has a positive limit of at most `bound`. -/
def Limited (bound : ℤ) : Action → Prop
  | .trySubscribe _ limit => 0 < limit ∧ limit ≤ bound
  | _ => True

/-- The waiting registrations have such a limit, and the map is within it. -/
structure Bounded (bound : ℤ) (s : State) : Prop where
  waiting : ∀ r ∈ s.registering, 0 < r.limit ∧ r.limit ≤ bound
  subscribers : (s.subscribers.length : ℤ) ≤ bound

theorem Bounded.step {bound : ℤ} {s t : State} {action : Action} (hs : WellFormed s)
    (h : Bounded bound s) (hlimited : Limited bound action) (hstep : step s action = some t) :
    Bounded bound t := by
  have hfilter : ∀ p : UInt64 × ℕ → Bool,
      ((s.subscribers.filter p).length : ℤ) ≤ s.subscribers.length :=
    fun p ↦ Int.ofNat_le.mpr (List.length_filter_le p _)
  have herase : ∀ index, ∀ r ∈ s.registering.eraseIdx index, 0 < r.limit ∧ r.limit ≤ bound :=
    fun index r hr ↦ h.waiting r (List.mem_of_mem_eraseIdx hr)
  cases step_spec hs hstep with
  | published | dropped | idle | cancelled | received => exact ⟨h.waiting, h.subscribers⟩
  | drawn buffer limit =>
      refine ⟨fun r hr ↦ ?_, h.subscribers⟩
      rcases List.mem_append.mp hr with hold | hnew
      · exact h.waiting r hold
      · rw [List.mem_singleton.mp hnew]
        exact hlimited
  | refused accepted hat => exact ⟨herase _, h.subscribers⟩
  | @registered index r hat hrunning hfree =>
      refine ⟨herase index, ?_⟩
      obtain ⟨hpositive, hbound⟩ := h.waiting r (List.mem_of_getElem? hat)
      have hlt : (s.subscribers.length : ℤ) < r.limit := by
        by_contra hge
        exact hfree ⟨hpositive, Int.not_lt.mp hge⟩
      have hle := hfilter fun other ↦ other.1 ≠ r.id
      rw [List.length_cons]
      push_cast
      omega
  | delivered | closed | disconnected =>
      exact ⟨h.waiting, Int.le_trans (hfilter _) h.subscribers⟩

/-! ## What a run delivers -/

/-- The laws of the broker in one state, and from it on. -/
structure Delivery (s : State) : Prop where
  /-- Nothing was sent on a closed channel, and none was closed twice. -/
  calm : s.panicked = false
  /-- A channel holds the published events between two points of their order, the
  second of which is the close. -/
  segment : ∀ r w, (s.channels r).window = some w →
    w.Fits s.log ∧ (w.isOpen = !(s.channels r).closed) ∧ (s.channels r).sent = w.view s.log
  /-- A channel that was never in the map holds nothing. -/
  unseen : ∀ r, (s.channels r).window = none → (s.channels r).sent = []
  /-- A subscriber with room gets an event, and one without is closed before it. -/
  overflow : ∀ (index : ℕ) order event t, s.closed = false → s.publishing[index]? = some event →
    step s (.deliver index order) = some t → ∀ entry ∈ s.subscribers,
      if (s.channels entry.2).room then
        t.channels entry.2 = (s.channels entry.2).push event ∧ entry ∈ t.subscribers
      else t.channels entry.2 = (s.channels entry.2).shut s.log ∧ entry ∉ t.subscribers
  /-- Registration begins at the present end of the order. -/
  joined : ∀ (index : ℕ) (r : Registration) t, s.closed = false → s.registering[index]? = some r →
    ¬ (0 < r.limit ∧ r.limit ≤ s.subscribers.length) → step s (.register index) = some t →
      (t.channels r.channel).window = some (.join s.log) ∧ (r.id, r.channel) ∈ t.subscribers
  /-- A buffered event can be received, whether the channel is closed or not. -/
  readable : ∀ (index : ℕ) (subscription : Subscription) event rest,
    s.subscriptions[index]? = some subscription →
    (s.channels subscription.channel).buffer = event :: rest →
      ∃ t, step s (.receive index) = some t ∧
        (t.channels subscription.channel).received =
          (s.channels subscription.channel).received ++ [event]
  /-- The order grows at its end, subscribers keep their points in it, and nothing is
  sent after `Broker.Close`. -/
  later : ∀ actions t, Transition.run step s actions = some t → Later s t

theorem room_of_deliver {s t : State} {index : ℕ} {order : List (UInt64 × ℕ)} {event : Event}
    (hs : WellFormed s) (hrunning : s.closed = false) (hat : s.publishing[index]? = some event)
    (hstep : step s (.deliver index order) = some t) {entry : UInt64 × ℕ}
    (hentry : entry ∈ s.subscribers) :
    if (s.channels entry.2).room then
      t.channels entry.2 = (s.channels entry.2).push event ∧ entry ∈ t.subscribers
    else t.channels entry.2 = (s.channels entry.2).shut s.log ∧ entry ∉ t.subscribers := by
  generalize haction : Action.deliver index order = action at hstep
  cases step_spec hs hstep with
  | @delivered index' order' event' hat' hrunning' =>
      obtain ⟨rfl, -⟩ := Action.deliver.inj haction
      rw [hat] at hat'
      obtain rfl := Option.some.inj hat'
      dsimp only
      rw [visited_channel _ _ hentry, mem_visited]
      unfold Channel.offered
      split
      · rename_i hroom
        exact ⟨rfl, hentry, by rw [hroom]; rfl⟩
      · rename_i hroom
        exact ⟨rfl, fun hmem ↦ hroom (by simpa using hmem.2)⟩
  | dropped hat' hended =>
      rw [hrunning] at hended
      cases hended
  | _ => cases haction

theorem window_of_register {s t : State} {index : ℕ} {r : Registration} (hs : WellFormed s)
    (hrunning : s.closed = false) (hat : s.registering[index]? = some r)
    (hfree : ¬ (0 < r.limit ∧ r.limit ≤ s.subscribers.length))
    (hstep : step s (.register index) = some t) :
    (t.channels r.channel).window = some (.join s.log) ∧ (r.id, r.channel) ∈ t.subscribers := by
  unfold step at hstep
  rw [if_neg (Bool.eq_false_iff.mp hs.calm)] at hstep
  simp only [hat, registerLocked, hrunning, if_neg hfree, settle] at hstep
  obtain rfl := Option.some.inj hstep
  simp [State.subscribed, State.setChannel]

theorem received_of_buffer {s : State} {index : ℕ} {subscription : Subscription} {event : Event}
    {rest : List Event} (hs : WellFormed s) (hat : s.subscriptions[index]? = some subscription)
    (hbuffer : (s.channels subscription.channel).buffer = event :: rest) :
    ∃ t, step s (.receive index) = some t ∧
      (t.channels subscription.channel).received =
        (s.channels subscription.channel).received ++ [event] := by
  obtain ⟨c, hc, hreceived⟩ : ∃ c, (s.channels subscription.channel).receive = some c ∧
      c.received = (s.channels subscription.channel).received ++ [event] := by
    unfold Channel.receive
    rw [hbuffer]
    exact ⟨_, rfl, rfl⟩
  refine ⟨s.setChannel subscription.channel c, ?_, ?_⟩
  · unfold step
    rw [if_neg (Bool.eq_false_iff.mp hs.calm)]
    dsimp only
    rw [hat]
    dsimp only
    rw [hc]
    rfl
  · rw [← hreceived]
    exact congrArg Channel.received (Function.update_self _ _ _)

theorem delivery_of_attached {s : State} (hs : WellFormed s) (h : Attached s) : Delivery s where
  calm := hs.calm
  segment r w hw := ⟨((hs.valid r).fits w hw).1, ((hs.valid r).fits w hw).2, (h r).fed w hw⟩
  unseen r := (hs.valid r).unseen
  overflow _ _ _ _ hrunning hat hstep _ := room_of_deliver hs hrunning hat hstep
  joined _ _ _ := window_of_register hs
  readable _ _ _ _ := received_of_buffer hs
  later _ _ := later_run hs

/-! ## Identifiers -/

def isTrySubscribe : Action → Bool
  | .trySubscribe .. => true
  | _ => false

/-- The identifiers in use are among the first ones drawn, and differ. -/
structure Drawn (count : ℕ) (s : State) : Prop where
  next : s.nextSubID = UInt64.ofNat count
  differ : (s.subscribers.map Prod.fst ++ s.registering.map Registration.id).Nodup
  drawn : ∀ id ∈ s.subscribers.map Prod.fst ++ s.registering.map Registration.id,
    ∃ k, 1 ≤ k ∧ k ≤ count ∧ id = UInt64.ofNat k

theorem ofNat_ne {j k : ℕ} (hj : 1 ≤ j) (hjk : j < k) (hk : k ≤ 2 ^ 64) :
    UInt64.ofNat j ≠ UInt64.ofNat k := by
  intro heq
  have hmod := congrArg UInt64.toNat heq
  rw [UInt64.toNat_ofNat', UInt64.toNat_ofNat'] at hmod
  omega

theorem Drawn.sublist {count : ℕ} {s : State} (h : Drawn count s) {t : State}
    (hnext : t.nextSubID = s.nextSubID)
    (hsub : List.Sublist (t.subscribers.map Prod.fst ++ t.registering.map Registration.id)
      (s.subscribers.map Prod.fst ++ s.registering.map Registration.id)) : Drawn count t :=
  ⟨hnext.trans h.next, h.differ.sublist hsub, fun id hid ↦ h.drawn id (hsub.subset hid)⟩

/-- A waiting registration has another identifier than the subscribers. -/
theorem Drawn.fresh {count : ℕ} {s : State} (h : Drawn count s) (action : Action) :
    Fresh s action := by
  cases action with
  | register index =>
      intro r hr hmem
      have hperm := perm_eraseIdx hr (s.subscribers.map Prod.fst) Registration.id
      have hnodup := hperm.nodup_iff.mpr h.differ
      exact (List.nodup_cons.mp hnodup).1 (List.mem_append_left _ hmem)
  | _ => trivial

theorem Drawn.step {count : ℕ} {s t : State} {action : Action} (hs : WellFormed s)
    (h : Drawn count s) (hcount : count + [action].countP isTrySubscribe ≤ 2 ^ 64)
    (hstep : step s action = some t) : Drawn (count + [action].countP isTrySubscribe) t := by
  have hfilter : ∀ p : UInt64 × ℕ → Bool, List.Sublist
      ((s.subscribers.filter p).map Prod.fst ++ s.registering.map Registration.id)
      (s.subscribers.map Prod.fst ++ s.registering.map Registration.id) :=
    fun p ↦ (List.filter_sublist.map Prod.fst).append_right _
  cases step_spec hs hstep with
  | published | dropped | idle | cancelled | received =>
      exact h.sublist rfl (List.Sublist.refl _)
  | delivered | closed | disconnected => exact h.sublist rfl (hfilter _)
  | drawn buffer limit =>
      have hnext : s.nextSubID + 1 = UInt64.ofNat (count + 1) := by
        rw [h.next]
        simp
      have hids : (s.draw buffer limit).subscribers.map Prod.fst ++
            (s.draw buffer limit).registering.map Registration.id =
          (s.subscribers.map Prod.fst ++ s.registering.map Registration.id) ++
            [s.nextSubID + 1] := by
        simp [State.draw]
      refine ⟨hnext, ?_, fun id hid ↦ ?_⟩
      · rw [hids]
        refine List.nodup_append.mpr ⟨h.differ, by simp, fun id hid x hx ↦ ?_⟩
        obtain rfl := List.mem_singleton.mp hx
        obtain ⟨k, hk, hle, rfl⟩ := h.drawn id hid
        rw [hnext]
        exact ofNat_ne hk (Nat.lt_succ_of_le hle) hcount
      · rw [hids, List.mem_append] at hid
        rcases hid with hold | hnew
        · obtain ⟨k, hk, hle, rfl⟩ := h.drawn id hold
          exact ⟨k, hk, Nat.le_succ_of_le hle, rfl⟩
        · refine ⟨count + 1, Nat.le_add_left 1 count, Nat.le_refl _, ?_⟩
          rw [List.mem_singleton.mp hnew, hnext]
  | @refused index r accepted hat =>
      have hsub : List.Sublist (s.registering.eraseIdx index) s.registering :=
        List.eraseIdx_sublist _ _
      exact h.sublist rfl ((hsub.map _).append_left _)
  | @registered index r hat hrunning hfree =>
      have hperm := perm_eraseIdx hat (s.subscribers.map Prod.fst) Registration.id
      have hsub : List.Sublist
          (((r.id, r.channel) :: s.subscribers.filter fun other ↦ other.1 ≠ r.id).map Prod.fst ++
            (s.registering.eraseIdx index).map Registration.id)
          (r.id :: (s.subscribers.map Prod.fst ++
            (s.registering.eraseIdx index).map Registration.id)) :=
        ((List.filter_sublist.map Prod.fst).append_right _).cons_cons _
      exact ⟨h.next, (hperm.nodup_iff.mpr h.differ).sublist hsub,
        fun id hid ↦ h.drawn id (hperm.subset (hsub.subset hid))⟩

/-- No identifier repeats before all of them have been drawn. -/
theorem guarded_fresh {actions : List Action} :
    ∀ {count : ℕ} {s : State}, WellFormed s → Drawn count s →
      count + actions.countP isTrySubscribe ≤ 2 ^ 64 →
        Transition.Guarded step Fresh s actions := by
  induction actions with
  | nil =>
      intro count s _ _ _
      trivial
  | cons action actions ih =>
      intro count s hs hdrawn hcount
      have hsplit : (action :: actions).countP isTrySubscribe =
          [action].countP isTrySubscribe + actions.countP isTrySubscribe := by
        rw [← List.countP_append]
        rfl
      refine ⟨hdrawn.fresh action, fun t hstep ↦ ?_⟩
      exact ih (hs.step hstep) (hdrawn.step hs (by omega) hstep) (by omega)

theorem drawn_new : Drawn 0 new where
  next := rfl
  differ := List.nodup_nil
  drawn _ h := by cases h

/-- In every run in which no registration takes an identifier that is still in the
map, and so in every run with at most `2 ^ 64` calls of `TrySubscribe`, every
subscriber sees its part of the published events; and the map stays within the
limit of its subscribers. -/
theorem broker_delivery {actions : List Action} {s : State}
    (hfresh : Transition.Guarded step Fresh new actions ∨
      actions.countP isTrySubscribe ≤ 2 ^ 64)
    (hrun : Transition.run step new actions = some s) :
    Delivery s ∧ ∀ limit : ℤ, 0 < limit → (∀ action ∈ actions, Limited limit action) →
      (s.subscribers.length : ℤ) ≤ limit := by
  have hguarded : Transition.Guarded step Fresh new actions := by
    rcases hfresh with hguarded | hcount
    · exact hguarded
    · exact guarded_fresh wellFormed_new drawn_new (by omega)
  have hattached : WellFormed s ∧ Attached s :=
    Transition.guarded_run_invariant step (P := fun s ↦ WellFormed s ∧ Attached s)
      (fun _ _ _ hs hg hstep ↦ ⟨hs.1.step hstep, hs.2.step hs.1 hg hstep⟩)
      ⟨wellFormed_new, attached_new⟩ hguarded hrun
  refine ⟨delivery_of_attached hattached.1 hattached.2, fun limit hlimit hactions ↦ ?_⟩
  have hbounded : WellFormed s ∧ Bounded limit s :=
    Transition.guarded_run_invariant step (P := fun s ↦ WellFormed s ∧ Bounded limit s)
      (fun _ _ _ hs hg hstep ↦ ⟨hs.1.step hstep, hs.2.step hs.1 hg hstep⟩)
      ⟨wellFormed_new, fun _ h ↦ (by cases h), Int.le_of_lt hlimit⟩
      (Transition.guarded_of_forall step (fun _ ↦ hactions) new) hrun
  exact hbounded.2.subscribers

/-- A subscriber with a buffer of one event and two events: the second one closes its
channel, the first one can still be received, and its place is free again. -/
def slowRun : List Action :=
  [.trySubscribe 1 1, .register 0, .publish "first" none 0, .deliver 0 [(1, 0)],
    .publish "second" none 0, .deliver 0 [(1, 0)], .receive 0, .receive 0,
    .trySubscribe 1 1, .register 0, .cancel 1, .cancel 0]

theorem broker_delivery_slow : ∃ s, Transition.run step new slowRun = some s ∧ Delivery s ∧
    (s.subscribers.length : ℤ) ≤ 1 ∧ (s.channels 0).received.length = 1 := by
  have hlimited : ∀ action ∈ slowRun, Limited 1 action := by
    intro action haction
    simp only [slowRun, List.mem_cons, List.not_mem_nil, or_false] at haction
    rcases haction with rfl | rfl | rfl | rfl | rfl | rfl | rfl | rfl | rfl | rfl | rfl | rfl <;>
      simp [Limited]
  have hcount : slowRun.countP isTrySubscribe ≤ 2 ^ 64 := by decide
  have hdelivery := broker_delivery (.inr hcount) rfl
  exact ⟨_, rfl, hdelivery.1, hdelivery.2 1 (by decide) hlimited, rfl⟩

/-! ## A counter that has gone round -/

/-- What many calls of `TrySubscribe` leave that never take the mutex. -/
structure Drew (n : ℕ) (s t : State) : Prop where
  calm : t.panicked = s.panicked
  closed : t.closed = s.closed
  log : t.log = s.log
  publishing : t.publishing = s.publishing
  subscribers : t.subscribers = s.subscribers
  next : t.nextSubID = s.nextSubID + UInt64.ofNat n
  made : t.made = s.made + n
  registering : t.registering.length = s.registering.length + n
  channels : ∀ r, r < s.made → t.channels r = s.channels r

theorem run_replicate_draw {s : State} (hcalm : s.panicked = false) (buffer limit : ℤ) (n : ℕ) :
    ∃ t, Transition.run step s (List.replicate n (.trySubscribe buffer limit)) = some t ∧
      Drew n s t := by
  induction n with
  | zero =>
      exact ⟨s, rfl, rfl, rfl, rfl, rfl, rfl, by simp, rfl, rfl, fun _ _ ↦ rfl⟩
  | succ n ih =>
      obtain ⟨t, hrun, h⟩ := ih
      have hcalm' : t.panicked = false := h.calm.trans hcalm
      refine ⟨t.draw buffer limit, ?_, h.calm, h.closed, h.log, h.publishing, h.subscribers, ?_,
        ?_, ?_, fun r hr ↦ ?_⟩
      · rw [List.replicate_succ']
        refine (Transition.run_snoc_iff step).mpr ⟨t, hrun, ?_⟩
        unfold step
        rw [if_neg (Bool.eq_false_iff.mp hcalm')]
      · change t.nextSubID + 1 = s.nextSubID + UInt64.ofNat (n + 1)
        rw [h.next, UInt64.ofNat_add, UInt64.add_assoc]
        rfl
      · change t.made + 1 = s.made + (n + 1)
        rw [h.made, Nat.add_assoc]
      · change (t.registering ++ [_]).length = s.registering.length + (n + 1)
        rw [List.length_append, h.registering]
        rfl
      · have hne : r ≠ t.made := by
          rw [h.made]
          omega
        exact (Function.update_of_ne hne _ _).trans (h.channels r hr)

/-- One more call draws the identifier of the first subscriber and takes its place in
the map; an event is published after that. -/
theorem run_overwrite {s : State} (hcalm : s.panicked = false) (hclosed : s.closed = false)
    (hsubscribers : s.subscribers = [(1, 0)]) (hnext : s.nextSubID = 0) (hmade : 0 < s.made)
    (hpublishing : s.publishing = []) :
    ∃ t event, Transition.run step s [.trySubscribe 1 0, .register s.registering.length,
        .publish "result" none 0, .deliver 0 [(1, s.made)]] = some t ∧
      t.channels 0 = s.channels 0 ∧ t.log = s.log ++ [event] := by
  have hid : (0 : UInt64) + 1 = 1 := rfl
  have hne : (0 : ℕ) ≠ s.made := hmade.ne
  have hroom : bufferSize 1 = 1 := rfl
  simp [Transition.run, step, State.draw, hcalm, hclosed, hsubscribers, hnext, hpublishing,
    registerLocked, settle, State.subscribed, State.setChannel, publishLocked, forEach, deliverTo,
    Channel.trySend, Channel.make, Channel.room, hid, hroom, hne]

/-- `2 ^ 64 + 1` calls of `TrySubscribe`.  The last one takes the identifier of the first,
whose channel stays open and gets no more events. -/
theorem overwritten_subscriber : ∃ actions s, Transition.run step new actions = some s ∧
    (s.channels 0).window = some ⟨0, none⟩ ∧ (s.channels 0).closed = false ∧
      (s.channels 0).sent = [] ∧ s.log ≠ [] ∧ ¬ Delivery s := by
  obtain ⟨s, hs, hwindow, hopen, hsent, hcalm, hclosed, hsubscribers, hnext, hmade, hpublishing,
      hlog⟩ : ∃ s, Transition.run step new [.trySubscribe 1 0, .register 0] = some s ∧
        (s.channels 0).window = some ⟨0, none⟩ ∧ (s.channels 0).closed = false ∧
          (s.channels 0).sent = [] ∧ s.panicked = false ∧ s.closed = false ∧
            s.subscribers = [(1, 0)] ∧ s.nextSubID = 1 ∧ s.made = 1 ∧ s.publishing = [] ∧
              s.log = [] :=
    ⟨_, rfl, rfl, rfl, rfl, rfl, rfl, rfl, rfl, rfl, rfl, rfl⟩
  obtain ⟨t, ht, hdrew⟩ := run_replicate_draw hcalm 1 0 (2 ^ 64 - 1)
  have hround : t.nextSubID = 0 := by
    rw [hdrew.next, hnext]
    rfl
  obtain ⟨u, event, hu, hchannel, hpublished⟩ := run_overwrite (hdrew.calm.trans hcalm)
    (hdrew.closed.trans hclosed) (hdrew.subscribers.trans hsubscribers) hround
    (by rw [hdrew.made, hmade]; omega) (hdrew.publishing.trans hpublishing)
  have hfirst : u.channels 0 = s.channels 0 :=
    hchannel.trans (hdrew.channels 0 (by rw [hmade]; exact Nat.zero_lt_one))
  rw [hdrew.log, hlog] at hpublished
  have hrun := (Transition.run_append_iff step).mpr ⟨s, hs,
    (Transition.run_append_iff step).mpr ⟨t, ht, hu⟩⟩
  refine ⟨_, u, hrun, by rw [hfirst, hwindow], by rw [hfirst, hopen], by rw [hfirst, hsent],
    by simp [hpublished], fun hdelivery ↦ ?_⟩
  have hsegment := (hdelivery.segment 0 _ (by rw [hfirst, hwindow])).2.2
  rw [hfirst, hsent, hpublished] at hsegment
  cases hsegment

end MultiSpeed.Events
