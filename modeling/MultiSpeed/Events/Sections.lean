import MultiSpeed.Events.Broker
import Mathlib.Data.List.Nodup
import Mathlib.Data.List.Perm.Basic

/-!
# What the sections of the broker do

The loops over the subscriber map visit every entry once.  As long as the entries
have different identifiers and different open channels the order of the visits does
not matter, and no send or close panics.
-/

namespace MultiSpeed.Events

open Feed

/-! ## Channels -/

namespace Channel

/-- What `Publish` does to the channel of a subscriber. -/
def offered (event : Event) (log : List Event) (c : Channel) : Channel :=
  if c.room then c.push event else c.shut log

@[simp] theorem closed_shut (c : Channel) (log : List Event) : (c.shut log).closed = true := rfl

@[simp] theorem sent_shut (c : Channel) (log : List Event) : (c.shut log).sent = c.sent := rfl

@[simp] theorem sent_push (c : Channel) (event : Event) :
    (c.push event).sent = c.sent ++ [event] := by
  simp [sent, push]

theorem close_ok {c : Channel} (hopen : c.closed = false) (log : List Event) :
    c.close log = .ok (c.shut log) := by
  simp [close, hopen]

theorem receive_eq_some {c c' : Channel} (h : c.receive = some c') :
    c' = c ∨ ∃ event rest, c.buffer = event :: rest ∧
      c' = { c with buffer := rest, received := c.received ++ [event] } := by
  unfold receive at h
  split at h
  · rename_i event rest hbuffer
    exact .inr ⟨event, rest, hbuffer, (Option.some.inj h).symm⟩
  · split at h
    · exact .inl (Option.some.inj h).symm
    · cases h

theorem sent_receive {c c' : Channel} (h : c.receive = some c') : c'.sent = c.sent := by
  obtain rfl | ⟨event, rest, hbuffer, rfl⟩ := receive_eq_some h
  · rfl
  · simp [sent, hbuffer]

/-- The state of a channel against the published events. -/
structure Valid (c : Channel) (log : List Event) : Prop where
  bounded : c.buffer.length ≤ c.capacity
  unseen : c.window = none → c.sent = []
  fits : ∀ w ∈ c.window, w.Fits log ∧ w.isOpen = !c.closed

theorem valid_make (capacity : ℕ) (log : List Event) : (make capacity).Valid log where
  bounded := Nat.zero_le _
  unseen _ := rfl
  fits _ h := by cases h

theorem Valid.append {c : Channel} {log : List Event} (h : c.Valid log) (event : Event) :
    c.Valid (log ++ [event]) :=
  ⟨h.bounded, h.unseen, fun w hw ↦ ⟨(h.fits w hw).1.append event, (h.fits w hw).2⟩⟩

theorem Valid.shut {c : Channel} {log : List Event} (h : c.Valid log) : (c.shut log).Valid log where
  bounded := h.bounded
  unseen hnone := h.unseen (Option.map_eq_none_iff.mp hnone)
  fits w hw := by
    obtain ⟨v, hv, rfl⟩ := Option.map_eq_some_iff.mp hw
    exact ⟨(h.fits v hv).1.leave, rfl⟩

theorem Valid.push {c : Channel} {log : List Event} (h : c.Valid log) (hroom : c.room = true)
    (hseen : c.window.isSome = true) (event : Event) : (c.push event).Valid log where
  bounded := by
    have hlt : c.buffer.length < c.capacity := of_decide_eq_true hroom
    simpa [Channel.push] using Nat.succ_le_of_lt hlt
  unseen hnone := by
    have hsome : (c.push event).window.isSome = true := hseen
    rw [hnone] at hsome
    cases hsome
  fits := h.fits

theorem Valid.offered {c : Channel} {log : List Event} (h : c.Valid log)
    (hseen : c.window.isSome = true) (event : Event) : (c.offered event log).Valid log := by
  unfold Channel.offered
  split
  · rename_i hroom
    exact h.push hroom hseen event
  · exact h.shut

theorem Valid.receive {c c' : Channel} {log : List Event} (h : c.Valid log)
    (hreceive : c.receive = some c') : c'.Valid log := by
  have hsent := sent_receive hreceive
  obtain rfl | ⟨event, rest, hbuffer, rfl⟩ := receive_eq_some hreceive
  · exact h
  · refine ⟨?_, fun hnone ↦ hsent.trans (h.unseen hnone), h.fits⟩
    have hbounded := h.bounded
    rw [hbuffer] at hbounded
    exact Nat.le_of_succ_le hbounded

end Channel

/-! ## Visits of the whole map -/

/-- Every subscriber has been visited: its channel has changed, and some have left. -/
def visited (change : Channel → Channel) (leaves : Channel → Bool) (s : State) : State :=
  { s with
    channels := fun r ↦
      if r ∈ s.subscribers.map Prod.snd then change (s.channels r) else s.channels r
    subscribers := s.subscribers.filter fun entry ↦ !leaves (s.channels entry.2) }

/-- One visit. -/
def visit (change : Channel → Channel) (leaves : Channel → Bool) (s : State)
    (entry : UInt64 × ℕ) : State :=
  { s with
    channels := Function.update s.channels entry.2 (change (s.channels entry.2))
    subscribers := if leaves (s.channels entry.2) then
      s.subscribers.filter (fun other ↦ other.1 ≠ entry.1) else s.subscribers }

theorem disconnect_ok {s : State} {entry : UInt64 × ℕ}
    (hopen : (s.channels entry.2).closed = false) :
    disconnect s entry = .ok (visit (·.shut s.log) (fun _ ↦ true) s entry) := by
  unfold disconnect
  rw [Channel.close_ok hopen]
  rfl

theorem deliverTo_ok {event : Event} {s : State} {entry : UInt64 × ℕ}
    (hopen : (s.channels entry.2).closed = false) :
    deliverTo event s entry =
      .ok (visit (·.offered event s.log) (fun c ↦ !c.room) s entry) := by
  unfold deliverTo Channel.trySend
  cases hroom : (s.channels entry.2).room with
  | true => simp [hopen, hroom, visit, Channel.offered, State.setChannel]
  | false => simp [hopen, hroom, visit, Channel.offered, disconnect_ok hopen]

/-- A loop whose body visits open channels. -/
theorem forEach_ok {body : State → UInt64 × ℕ → Except Panic State}
    {change : Channel → Channel} {leaves : Channel → Bool} {log : List Event}
    (hbody : ∀ s entry, s.log = log → (s.channels entry.2).closed = false →
      body s entry = .ok (visit change leaves s entry)) :
    ∀ (order : List (UInt64 × ℕ)) (s : State), s.log = log →
      (∀ entry ∈ order, (s.channels entry.2).closed = false) → (order.map Prod.snd).Nodup →
      forEach body s order = .ok { s with
        channels := fun r ↦
          if r ∈ order.map Prod.snd then change (s.channels r) else s.channels r
        subscribers := s.subscribers.filter fun other ↦
          !order.any fun entry ↦ leaves (s.channels entry.2) && other.1 = entry.1 }
  | [], s, _, _, _ => by simp [forEach]
  | entry :: rest, s, hlog, hopen, hnodup => by
      rw [List.map_cons, List.nodup_cons] at hnodup
      obtain ⟨hfirst, hrest⟩ := hnodup
      have hsame : ∀ r ∈ rest.map Prod.snd,
          (visit change leaves s entry).channels r = s.channels r := by
        intro r hr
        have hne : r ≠ entry.2 := fun heq ↦ hfirst (heq ▸ hr)
        exact Function.update_of_ne hne _ _
      have hchannel : ∀ other ∈ rest,
          (visit change leaves s entry).channels other.2 = s.channels other.2 :=
        fun other hother ↦ hsame other.2 (List.mem_map_of_mem hother)
      rw [forEach, hbody s entry hlog (hopen entry List.mem_cons_self)]
      dsimp only
      rw [forEach_ok hbody rest (visit change leaves s entry) hlog (fun other hother ↦ by
        rw [hchannel other hother]
        exact hopen other (List.mem_cons_of_mem _ hother)) hrest]
      congr 2
      · have hany : (fun other : UInt64 × ℕ ↦ !rest.any fun entry' ↦
              leaves ((visit change leaves s entry).channels entry'.2) &&
                decide (other.1 = entry'.1)) =
            fun other ↦ !rest.any fun entry' ↦
              leaves (s.channels entry'.2) && decide (other.1 = entry'.1) := by
          funext other
          rw [Bool.not_inj_iff, Bool.eq_iff_iff, List.any_eq_true, List.any_eq_true]
          exact exists_congr fun entry' ↦ and_congr_right fun hentry' ↦ by
            rw [hchannel entry' hentry']
        rw [hany]
        change List.filter _ (if _ then _ else _) = _
        split
        · rename_i hleaves
          rw [List.filter_filter]
          refine List.filter_congr fun other _ ↦ ?_
          rw [List.any_cons, hleaves]
          simp [Bool.and_comm]
        · rename_i hstays
          refine List.filter_congr fun other _ ↦ ?_
          simp [hstays]
      · funext r
        by_cases hr : r ∈ rest.map Prod.snd
        · rw [if_pos hr, hsame r hr, if_pos (by simp_all)]
        · rw [if_neg hr]
          by_cases heq : r = entry.2
          · rw [heq, if_pos (by simp)]
            exact Function.update_self _ _ _
          · rw [if_neg (by simp_all)]
            exact Function.update_of_ne heq _ _

/-- A loop over the whole map, in any order. -/
theorem forEach_all (body : State → UInt64 × ℕ → Except Panic State)
    (change : Channel → Channel) (leaves : Channel → Bool) {s : State}
    {order : List (UInt64 × ℕ)}
    (hbody : ∀ s' entry, s'.log = s.log → (s'.channels entry.2).closed = false →
      body s' entry = .ok (visit change leaves s' entry))
    (horder : order.Perm s.subscribers) (hkeys : (s.subscribers.map Prod.fst).Nodup)
    (hreferences : (s.subscribers.map Prod.snd).Nodup)
    (hopen : ∀ entry ∈ s.subscribers, (s.channels entry.2).closed = false) :
    forEach body s order = .ok (visited change leaves s) := by
  rw [forEach_ok hbody order s rfl (fun entry hentry ↦ hopen entry (horder.mem_iff.mp hentry))
    ((horder.map Prod.snd).nodup_iff.mpr hreferences)]
  unfold visited
  congr 2
  · refine List.filter_congr fun other hother ↦ ?_
    rw [Bool.not_inj_iff, Bool.eq_iff_iff, List.any_eq_true]
    constructor
    · rintro ⟨entry, hentry, h⟩
      obtain ⟨hleaves, hkey⟩ := (Bool.and_eq_true _ _).mp h
      have heq := List.inj_on_of_nodup_map hkeys hother (horder.mem_iff.mp hentry)
        (of_decide_eq_true hkey)
      rwa [heq]
    · intro hleaves
      exact ⟨other, horder.mem_iff.mpr hother, by simp [hleaves]⟩
  · funext r
    exact if_congr (horder.map Prod.snd).mem_iff rfl rfl

/-! ## Well-formed states -/

/-- The channels that the map and the waiting registrations refer to. -/
def State.references (s : State) : List ℕ :=
  s.subscribers.map Prod.snd ++ s.registering.map Registration.channel

structure WellFormed (s : State) : Prop where
  calm : s.panicked = false
  keys : (s.subscribers.map Prod.fst).Nodup
  references : s.references.Nodup
  made : ∀ r ∈ s.references, r < s.made
  owned : ∀ subscription ∈ s.subscriptions, subscription.channel < s.made
  registered : ∀ entry ∈ s.subscribers,
    (s.channels entry.2).closed = false ∧ (s.channels entry.2).window.isSome = true
  waiting : ∀ r ∈ s.registering, ∃ capacity, s.channels r.channel = .make capacity
  valid : ∀ r, (s.channels r).Valid s.log
  shut : s.closed = true → s.subscribers = []
  unmade : ∀ r, s.made ≤ r → s.channels r = .make 0

theorem wellFormed_new : WellFormed new where
  calm := rfl
  keys := List.nodup_nil
  references := List.nodup_nil
  made _ h := by cases h
  owned _ h := by cases h
  registered _ h := by cases h
  waiting _ h := by cases h
  valid _ := Channel.valid_make 0 _
  shut _ := rfl
  unmade _ _ := rfl

/-! ## Steps -/

/-- The subscription that `TrySubscribe` returns for a registration. -/
def Registration.subscription (r : Registration) (accepted : Bool) : Subscription :=
  ⟨r.id, r.channel, accepted, false⟩

/-- One case for each kind of step. -/
inductive Stepped (s : State) : Action → State → Prop where
  | published (type : String) (payload : Option String) (now : Time) :
      Stepped s (.publish type payload now) { s with
        nextEventID := s.nextEventID + 1
        publishing := s.publishing ++ [⟨s.nextEventID + 1, type, now, eventData payload⟩] }
  | delivered {index : ℕ} {order : List (UInt64 × ℕ)} {event : Event}
      (at_ : s.publishing[index]? = some event) (running : s.closed = false) :
      Stepped s (.deliver index order) {
        visited (·.offered event s.log) (fun c ↦ !c.room) s with
        publishing := s.publishing.eraseIdx index
        log := s.log ++ [event] }
  | dropped {index : ℕ} {order : List (UInt64 × ℕ)} {event : Event}
      (at_ : s.publishing[index]? = some event) (ended : s.closed = true) :
      Stepped s (.deliver index order) { s with publishing := s.publishing.eraseIdx index }
  | drawn (buffer limit : ℤ) : Stepped s (.trySubscribe buffer limit) (s.draw buffer limit)
  | refused {index : ℕ} {r : Registration} (accepted : Bool)
      (at_ : s.registering[index]? = some r) :
      Stepped s (.register index) { s with
        registering := s.registering.eraseIdx index
        channels := Function.update s.channels r.channel ((s.channels r.channel).shut s.log)
        subscriptions := s.subscriptions ++ [r.subscription accepted] }
  | registered {index : ℕ} {r : Registration} (at_ : s.registering[index]? = some r)
      (running : s.closed = false)
      (free : ¬ (0 < r.limit ∧ r.limit ≤ s.subscribers.length)) :
      Stepped s (.register index) { s with
        registering := s.registering.eraseIdx index
        channels := Function.update s.channels r.channel
          { s.channels r.channel with window := some (.join s.log) }
        subscribers := (r.id, r.channel) :: s.subscribers.filter fun other ↦ other.1 ≠ r.id
        subscriptions := s.subscriptions ++ [r.subscription true] }
  | idle (index : ℕ) : Stepped s (.cancel index) s
  | cancelled {index : ℕ} {subscription : Subscription}
      (at_ : s.subscriptions[index]? = some subscription) :
      Stepped s (.cancel index) { s with
        subscriptions := s.subscriptions.set index { subscription with done := true } }
  | disconnected {index : ℕ} {subscription : Subscription} {entry : UInt64 × ℕ}
      (at_ : s.subscriptions[index]? = some subscription) (mem : entry ∈ s.subscribers) :
      Stepped s (.cancel index) {
        visit (·.shut s.log) (fun _ ↦ true) s entry with
        subscriptions := s.subscriptions.set index { subscription with done := true } }
  | closed (order : List (UInt64 × ℕ)) :
      Stepped s (.close order) {
        visited (·.shut s.log) (fun _ ↦ true) s with closed := true }
  | received {index : ℕ} {subscription : Subscription} {c : Channel}
      (at_ : s.subscriptions[index]? = some subscription)
      (taken : (s.channels subscription.channel).receive = some c) :
      Stepped s (.receive index) (s.setChannel subscription.channel c)

theorem WellFormed.nodup_channels {s : State} (h : WellFormed s) :
    (s.subscribers.map Prod.snd).Nodup :=
  (List.nodup_append.mp h.references).1

theorem step_spec {s t : State} {action : Action} (hs : WellFormed s)
    (h : step s action = some t) : Stepped s action t := by
  unfold step at h
  rw [if_neg (Bool.eq_false_iff.mp hs.calm)] at h
  cases action with
  | publish type payload now =>
      obtain rfl := Option.some.inj h
      exact .published type payload now
  | deliver index order =>
      dsimp only at h
      split at h
      · cases h
      · rename_i event hat
        split at h
        · rename_i horder
          obtain rfl := Option.some.inj h
          unfold publishLocked
          split
          · rename_i hended
            exact .dropped hat hended
          · rename_i hrunning
            have hloop := forEach_all (deliverTo event) (·.offered event s.log) (fun c ↦ !c.room)
              (s := { s with publishing := s.publishing.eraseIdx index })
              (fun s' entry hlog hopen ↦ by rw [deliverTo_ok hopen, hlog]) horder hs.keys
              hs.nodup_channels (fun entry hentry ↦ (hs.registered entry hentry).1)
            rw [hloop]
            exact .delivered hat (by simpa using hrunning)
        · cases h
  | trySubscribe buffer limit =>
      obtain rfl := Option.some.inj h
      exact .drawn buffer limit
  | register index =>
      dsimp only at h
      split at h
      · cases h
      · rename_i r hat
        obtain rfl := Option.some.inj h
        obtain ⟨capacity, hfresh⟩ := hs.waiting r (List.mem_of_getElem? hat)
        have hopen : (s.channels r.channel).closed = false := by
          rw [hfresh]
          rfl
        unfold registerLocked
        dsimp only
        rw [Channel.close_ok hopen]
        split
        · exact .refused true hat
        · split
          · exact .refused false hat
          · rename_i hrunning hfree
            exact .registered hat (by simpa using hrunning) hfree
  | cancel index =>
      dsimp only at h
      split at h
      · cases h
      · rename_i subscription hat
        split at h
        · obtain rfl := Option.some.inj h
          exact .idle index
        · obtain rfl := Option.some.inj h
          unfold cancelLocked
          split
          · exact .cancelled hat
          · rename_i entry hentry
            have hmem : entry ∈ s.subscribers := List.mem_of_find?_eq_some hentry
            have hopen := disconnect_ok (s := { s with
              subscriptions := s.subscriptions.set index { subscription with done := true } })
              (hs.registered entry hmem).1
            rw [hopen]
            exact .disconnected hat hmem
  | close order =>
      dsimp only at h
      split at h
      · rename_i horder
        obtain rfl := Option.some.inj h
        unfold closeLocked
        have hloop := forEach_all disconnect (·.shut s.log) (fun _ ↦ true)
          (s := { s with closed := true })
          (fun s' entry hlog hopen ↦ by rw [disconnect_ok hopen, hlog]) horder hs.keys
          hs.nodup_channels (fun entry hentry ↦ (hs.registered entry hentry).1)
        rw [hloop]
        exact .closed order
      · cases h
  | receive index =>
      dsimp only at h
      split at h
      · cases h
      · rename_i subscription hat
        obtain ⟨c, hc, rfl⟩ := Option.map_eq_some_iff.mp h
        exact .received hat hc

/-! ## Steps keep states well-formed -/

theorem visited_channel (change : Channel → Channel) (leaves : Channel → Bool) {s : State}
    {entry : UInt64 × ℕ} (hentry : entry ∈ s.subscribers) :
    (visited change leaves s).channels entry.2 = change (s.channels entry.2) :=
  if_pos (List.mem_map_of_mem hentry)

theorem visited_other (change : Channel → Channel) (leaves : Channel → Bool) {s : State} {r : ℕ}
    (hr : r ∉ s.subscribers.map Prod.snd) : (visited change leaves s).channels r = s.channels r :=
  if_neg hr

theorem mem_visited (change : Channel → Channel) (leaves : Channel → Bool) {s : State}
    {entry : UInt64 × ℕ} : entry ∈ (visited change leaves s).subscribers ↔
      entry ∈ s.subscribers ∧ leaves (s.channels entry.2) = false := by
  simp [visited, List.mem_filter]

/-- An element is taken out of a list. -/
theorem perm_eraseIdx {α β : Type} {xs : List α} {index : ℕ} {x : α} (hat : xs[index]? = some x)
    (l : List β) (f : α → β) :
    (f x :: (l ++ (xs.eraseIdx index).map f)).Perm (l ++ xs.map f) := by
  obtain ⟨hlt, rfl⟩ := List.getElem?_eq_some_iff.mp hat
  have hperm := (List.getElem_cons_eraseIdx_perm hlt).map f
  rw [List.map_cons] at hperm
  exact List.perm_middle.symm.trans (hperm.append_left _)

namespace WellFormed

variable {s : State}

theorem not_mem_references (hs : WellFormed s) {r : Registration} (hr : r ∈ s.registering) :
    r.channel ∉ s.subscribers.map Prod.snd := by
  intro hmem
  have hdisjoint := (List.nodup_append.mp hs.references).2.2
  exact hdisjoint _ hmem _ (List.mem_map_of_mem hr) rfl

/-- The references of a state with fewer of them. -/
theorem sublist_references (hs : WellFormed s) {l : List ℕ} (h : List.Sublist l s.references) :
    l.Nodup ∧ ∀ r ∈ l, r < s.made :=
  ⟨hs.references.sublist h, fun r hr ↦ hs.made r (h.subset hr)⟩

theorem visited (hs : WellFormed s) (change : Channel → Channel) (leaves : Channel → Bool)
    (log : List Event)
    (hvalid : ∀ entry ∈ s.subscribers, (change (s.channels entry.2)).Valid log)
    (hlog : ∀ c : Channel, c.Valid s.log → c.Valid log)
    (hstays : ∀ c : Channel, c.closed = false → leaves c = false →
      (change c).closed = false ∧ (change c).window = c.window) :
    WellFormed { Events.visited change leaves s with log := log } := by
  have hsub : List.Sublist (Events.visited change leaves s).references s.references :=
    (List.filter_sublist.map Prod.snd).append_right _
  obtain ⟨hnodup, hmade⟩ := hs.sublist_references hsub
  refine ⟨hs.calm, hs.keys.sublist (List.filter_sublist.map Prod.fst), hnodup, hmade, hs.owned,
    fun entry hentry ↦ ?_, fun r hr ↦ ?_, fun r ↦ ?_, fun hclosed ↦ ?_, fun r hr ↦ ?_⟩
  · obtain ⟨hmem, hleaves⟩ := (mem_visited change leaves).mp hentry
    obtain ⟨hopen, hwindow⟩ := hs.registered entry hmem
    obtain ⟨hopen', hwindow'⟩ := hstays _ hopen hleaves
    change ((Events.visited change leaves s).channels entry.2).closed = false ∧
      ((Events.visited change leaves s).channels entry.2).window.isSome = true
    rw [visited_channel change leaves hmem, hwindow']
    exact ⟨hopen', hwindow⟩
  · change ∃ capacity, (Events.visited change leaves s).channels r.channel = .make capacity
    rw [visited_other change leaves (hs.not_mem_references hr)]
    exact hs.waiting r hr
  · change ((Events.visited change leaves s).channels r).Valid log
    by_cases hr : r ∈ s.subscribers.map Prod.snd
    · obtain ⟨entry, hentry, rfl⟩ := List.mem_map.mp hr
      rw [visited_channel change leaves hentry]
      exact hvalid entry hentry
    · rw [visited_other change leaves hr]
      exact hlog _ (hs.valid r)
  · change List.filter _ s.subscribers = []
    rw [hs.shut hclosed]
    rfl
  · change (Events.visited change leaves s).channels r = .make 0
    rw [visited_other change leaves fun hmem ↦ (hs.made r (List.mem_append_left _ hmem)).not_ge hr]
    exact hs.unmade r hr

/-- A waiting registration has been served: its channel has changed, and the map may
refer to it. -/
theorem served (hs : WellFormed s) {index : ℕ} {r : Registration} {c : Channel}
    {subscribers : List (UInt64 × ℕ)} {accepted : Bool}
    (hat : s.registering[index]? = some r) (hc : c.Valid s.log)
    (hkeys : (subscribers.map Prod.fst).Nodup)
    (hsub : List.Sublist (subscribers.map Prod.snd) (r.channel :: s.subscribers.map Prod.snd))
    (hmem : ∀ entry ∈ subscribers, entry ∈ s.subscribers ∨
      entry.2 = r.channel ∧ c.closed = false ∧ c.window.isSome = true)
    (hshut : s.closed = true → subscribers = []) :
    WellFormed { s with
      registering := s.registering.eraseIdx index
      channels := Function.update s.channels r.channel c
      subscribers := subscribers
      subscriptions := s.subscriptions ++ [r.subscription accepted] } := by
  have hperm := perm_eraseIdx hat (s.subscribers.map Prod.snd) Registration.channel
  have hnodup := hperm.nodup_iff.mpr hs.references
  have hmade : ∀ x ∈ r.channel :: (s.subscribers.map Prod.snd ++
      (s.registering.eraseIdx index).map Registration.channel), x < s.made :=
    fun x hx ↦ hs.made x (hperm.mem_iff.mp hx)
  have hfresh := (List.nodup_cons.mp hnodup).1
  have hsub' : List.Sublist
      (subscribers.map Prod.snd ++ (s.registering.eraseIdx index).map Registration.channel)
      (r.channel :: (s.subscribers.map Prod.snd ++
        (s.registering.eraseIdx index).map Registration.channel)) :=
    hsub.append_right _
  refine ⟨hs.calm, hkeys, hnodup.sublist hsub', fun x hx ↦ hmade x (hsub'.subset hx),
    fun subscription hsubscription ↦ ?_, fun entry hentry ↦ ?_, fun other hother ↦ ?_,
    fun x ↦ ?_, hshut, fun x hx ↦ ?_⟩
  · rcases List.mem_append.mp hsubscription with hold | hnew
    · exact hs.owned subscription hold
    · obtain rfl := List.mem_singleton.mp hnew
      exact hmade r.channel List.mem_cons_self
  · dsimp only
    by_cases heq : entry.2 = r.channel
    · rw [heq, Function.update_self]
      rcases hmem entry hentry with hold | ⟨-, hopen⟩
      · refine absurd ?_ hfresh
        rw [← heq]
        exact List.mem_append_left _ (List.mem_map_of_mem hold)
      · exact hopen
    · rw [Function.update_of_ne heq]
      rcases hmem entry hentry with hold | ⟨hnew, -⟩
      · exact hs.registered entry hold
      · exact absurd hnew heq
  · have hne : other.channel ≠ r.channel := by
      intro heq
      refine hfresh ?_
      rw [← heq]
      exact List.mem_append_right _ (List.mem_map_of_mem hother)
    dsimp only
    rw [Function.update_of_ne hne]
    exact hs.waiting other (List.mem_of_mem_eraseIdx hother)
  · dsimp only
    by_cases heq : x = r.channel
    · rw [heq, Function.update_self]
      exact hc
    · rw [Function.update_of_ne heq]
      exact hs.valid x
  · dsimp only
    have hlt := hmade r.channel List.mem_cons_self
    rw [Function.update_of_ne (hlt.trans_le hx).ne']
    exact hs.unmade x hx

theorem draw (hs : WellFormed s) (buffer limit : ℤ) : WellFormed (s.draw buffer limit) := by
  have hne : ∀ r ∈ s.references, r ≠ s.made := fun r hr ↦ (hs.made r hr).ne
  have hreferences : (s.draw buffer limit).references = s.references ++ [s.made] := by
    simp [State.draw, State.references]
  have hchannels : (s.draw buffer limit).channels =
      Function.update s.channels s.made (.make (bufferSize buffer)) := rfl
  refine ⟨hs.calm, hs.keys, ?_, fun r hr ↦ ?_,
    fun subscription hsubscription ↦ Nat.lt_succ_of_lt (hs.owned subscription hsubscription),
    fun entry hentry ↦ ?_, fun r hr ↦ ?_, fun r ↦ ?_, hs.shut, fun r hr ↦ ?_⟩
  · rw [hreferences]
    refine List.nodup_append.mpr ⟨hs.references, by simp, fun r hr x hx ↦ ?_⟩
    rw [List.mem_singleton.mp hx]
    exact hne r hr
  · rw [hreferences] at hr
    rcases List.mem_append.mp hr with hold | hnew
    · exact Nat.lt_succ_of_lt (hs.made r hold)
    · rw [List.mem_singleton.mp hnew]
      exact Nat.lt_succ_self _
  · rw [hchannels, Function.update_of_ne
      (hne _ (List.mem_append_left _ (List.mem_map_of_mem hentry)))]
    exact hs.registered entry hentry
  · rw [hchannels]
    rcases List.mem_append.mp hr with hold | hnew
    · rw [Function.update_of_ne (hne _ (List.mem_append_right _ (List.mem_map_of_mem hold)))]
      exact hs.waiting r hold
    · rw [List.mem_singleton.mp hnew]
      exact ⟨bufferSize buffer, Function.update_self _ _ _⟩
  · rw [hchannels]
    by_cases heq : r = s.made
    · rw [heq, Function.update_self]
      exact Channel.valid_make _ _
    · rw [Function.update_of_ne heq]
      exact hs.valid r
  · have hlt : s.made < r := hr
    rw [hchannels, Function.update_of_ne hlt.ne']
    exact hs.unmade r hlt.le

theorem owned_set (hs : WellFormed s) {index : ℕ} {subscription : Subscription}
    (hat : s.subscriptions[index]? = some subscription) :
    ∀ other ∈ s.subscriptions.set index { subscription with done := true },
      other.channel < s.made := by
  intro other hother
  rcases List.mem_or_eq_of_mem_set hother with hold | rfl
  · exact hs.owned other hold
  · exact hs.owned subscription (List.mem_of_getElem? hat)

/-- One subscriber is disconnected. -/
theorem disconnected (hs : WellFormed s) {entry : UInt64 × ℕ} (hentry : entry ∈ s.subscribers)
    {subscriptions : List Subscription}
    (howned : ∀ subscription ∈ subscriptions, subscription.channel < s.made) :
    WellFormed { visit (·.shut s.log) (fun _ ↦ true) s entry with
      subscriptions := subscriptions } := by
  have hfilter : (visit (·.shut s.log) (fun _ ↦ true) s entry).subscribers =
      s.subscribers.filter fun other ↦ other.1 ≠ entry.1 := rfl
  have hchannels : (visit (·.shut s.log) (fun _ ↦ true) s entry).channels =
      Function.update s.channels entry.2 ((s.channels entry.2).shut s.log) := rfl
  have hsub : List.Sublist (visit (·.shut s.log) (fun _ ↦ true) s entry).references
      s.references :=
    (List.filter_sublist.map Prod.snd).append_right _
  obtain ⟨hnodup, hmade⟩ := hs.sublist_references hsub
  have hreference : entry.2 ∈ s.subscribers.map Prod.snd := List.mem_map_of_mem hentry
  refine ⟨hs.calm, hs.keys.sublist (List.filter_sublist.map Prod.fst), hnodup, hmade, howned,
    fun other hother ↦ ?_, fun r hr ↦ ?_, fun r ↦ ?_, fun hclosed ↦ ?_, fun r hr ↦ ?_⟩
  · dsimp only at hother ⊢
    rw [hfilter, List.mem_filter] at hother
    obtain ⟨hmem, hkey⟩ := hother
    have hne : other.2 ≠ entry.2 := by
      intro heq
      have hsame := List.inj_on_of_nodup_map hs.nodup_channels hmem hentry heq
      simp [hsame] at hkey
    rw [hchannels, Function.update_of_ne hne]
    exact hs.registered other hmem
  · have hne : r.channel ≠ entry.2 := fun heq ↦ hs.not_mem_references hr (heq ▸ hreference)
    dsimp only
    rw [hchannels, Function.update_of_ne hne]
    exact hs.waiting r hr
  · dsimp only
    rw [hchannels]
    by_cases heq : r = entry.2
    · rw [heq, Function.update_self]
      exact (hs.valid _).shut
    · rw [Function.update_of_ne heq]
      exact hs.valid r
  · rw [hs.shut hclosed] at hentry
    cases hentry
  · dsimp only
    have hlt := hs.made entry.2 (List.mem_append_left _ hreference)
    rw [hchannels, Function.update_of_ne (hlt.trans_le hr).ne']
    exact hs.unmade r hr

/-- A subscriber has received from its channel. -/
theorem received (hs : WellFormed s) {r : ℕ} {c : Channel} (hmade : r < s.made)
    (htaken : (s.channels r).receive = some c) : WellFormed (s.setChannel r c) := by
  have hsame : c = s.channels r ∨ (∃ event, event ∈ (s.channels r).sent) ∧
      c.closed = (s.channels r).closed ∧ c.window = (s.channels r).window := by
    obtain rfl | ⟨event, rest, hbuffer, rfl⟩ := Channel.receive_eq_some htaken
    · exact .inl rfl
    · exact .inr ⟨⟨event, by simp [Channel.sent, hbuffer]⟩, rfl, rfl⟩
  refine ⟨hs.calm, hs.keys, hs.references, hs.made, hs.owned, fun entry hentry ↦ ?_,
    fun other hother ↦ ?_, fun x ↦ ?_, hs.shut, fun x hx ↦ ?_⟩
  · have hold := hs.registered entry hentry
    change (Function.update s.channels r c entry.2).closed = false ∧
      (Function.update s.channels r c entry.2).window.isSome = true
    by_cases heq : entry.2 = r
    · rw [heq] at hold ⊢
      rw [Function.update_self]
      rcases hsame with rfl | ⟨-, hclosed, hwindow⟩
      · exact hold
      · rw [hclosed, hwindow]
        exact hold
    · rw [Function.update_of_ne heq]
      exact hold
  · obtain ⟨capacity, hfresh⟩ := hs.waiting other hother
    refine ⟨capacity, ?_⟩
    change Function.update s.channels r c other.channel = .make capacity
    by_cases heq : other.channel = r
    · rw [heq] at hfresh ⊢
      rw [Function.update_self]
      rcases hsame with rfl | ⟨⟨event, hevent⟩, -⟩
      · exact hfresh
      · rw [hfresh] at hevent
        cases hevent
    · rw [Function.update_of_ne heq]
      exact hfresh
  · change (Function.update s.channels r c x).Valid s.log
    by_cases heq : x = r
    · rw [heq, Function.update_self]
      exact (hs.valid r).receive htaken
    · rw [Function.update_of_ne heq]
      exact hs.valid x
  · change Function.update s.channels r c x = .make 0
    rw [Function.update_of_ne (hmade.trans_le hx).ne']
    exact hs.unmade x hx

theorem step {t : State} {action : Action} (hs : WellFormed s)
    (h : Events.step s action = some t) : WellFormed t := by
  cases step_spec hs h with
  | published | dropped | idle =>
      exact ⟨hs.calm, hs.keys, hs.references, hs.made, hs.owned, hs.registered, hs.waiting,
        hs.valid, hs.shut, hs.unmade⟩
  | cancelled hat =>
      exact ⟨hs.calm, hs.keys, hs.references, hs.made, hs.owned_set hat, hs.registered,
        hs.waiting, hs.valid, hs.shut, hs.unmade⟩
  | drawn buffer limit => exact hs.draw buffer limit
  | @delivered index _ event hat hrunning =>
      have hvisited := hs.visited (·.offered event s.log) (fun c ↦ !c.room) (s.log ++ [event])
        (fun entry hentry ↦
          ((hs.valid _).offered (hs.registered entry hentry).2 event).append event)
        (fun _ hc ↦ hc.append event) (fun c hopen hroom ↦ by
          have hroom : c.room = true := by simpa using hroom
          simp [Channel.offered, hroom, Channel.push, hopen])
      exact ⟨hvisited.calm, hvisited.keys, hvisited.references, hvisited.made, hvisited.owned,
        hvisited.registered, hvisited.waiting, hvisited.valid, hvisited.shut, hvisited.unmade⟩
  | closed order =>
      have hvisited := hs.visited (·.shut s.log) (fun _ ↦ true) s.log (fun entry _ ↦ (hs.valid _).shut) (fun _ hc ↦ hc)
        (fun _ _ h ↦ by cases h)
      exact ⟨hvisited.calm, hvisited.keys, hvisited.references, hvisited.made, hvisited.owned,
        hvisited.registered, hvisited.waiting, hvisited.valid,
        fun _ ↦ List.filter_eq_nil_iff.mpr (by simp), hvisited.unmade⟩
  | refused accepted hat =>
      exact hs.served hat (hs.valid _).shut hs.keys (List.sublist_cons_self _ _)
        (fun _ hentry ↦ .inl hentry) hs.shut
  | @registered index r hat hrunning hfree =>
      obtain ⟨capacity, hfresh⟩ := hs.waiting r (List.mem_of_getElem? hat)
      have hopen : (s.channels r.channel).closed = false := by
        rw [hfresh]
        rfl
      refine hs.served hat ⟨(hs.valid _).bounded, fun hnone ↦ (by cases hnone), ?_⟩ ?_ ?_ ?_ ?_
      · intro w hw
        obtain rfl := Option.some.inj hw
        exact ⟨Window.fits_join _, by rw [hopen]; rfl⟩
      · rw [List.map_cons, List.nodup_cons]
        refine ⟨fun hmem ↦ ?_, hs.keys.sublist (List.filter_sublist.map Prod.fst)⟩
        obtain ⟨other, hother, heq⟩ := List.mem_map.mp hmem
        simp [heq] at hother
      · rw [List.map_cons]
        exact (List.filter_sublist.map Prod.snd).cons_cons _
      · intro entry hentry
        rcases List.mem_cons.mp hentry with rfl | hold
        · exact .inr ⟨rfl, hopen, rfl⟩
        · exact .inl (List.mem_of_mem_filter hold)
      · intro hclosed
        rw [hrunning] at hclosed
        cases hclosed
  | disconnected hat hmem => exact hs.disconnected hmem (hs.owned_set hat)
  | received hat htaken => exact hs.received (hs.owned _ (List.mem_of_getElem? hat)) htaken

end WellFormed

end MultiSpeed.Events
