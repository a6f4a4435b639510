import MultiSpeed.Events.Readers
import MultiSpeed.Lib.AddressText
import MultiSpeed.Lib.EventStream
import MultiSpeed.Statistics.Zone

/-!
# The live events

The handler `events` of `internal/api`, once for each request, beside the broker and the
goroutines that publish.  A handler that cannot write to its connection leaves a part of
its frame there, and a client may lose the connection at any character.
-/

namespace MultiSpeed.Api.Live

open Events EventStream Statistics

/-! ## Frames -/

/-- A character in a JSON string, with the escapes for HTML. -/
def escape (c : Char) : List Char :=
  if c = '"' ∨ c = '\\' then ['\\', c]
  else if c = Char.ofNat 8 then "\\b".toList
  else if c = Char.ofNat 12 then "\\f".toList
  else if c = '\n' then "\\n".toList
  else if c = '\r' then "\\r".toList
  else if c = '\t' then "\\t".toList
  else if c.toNat < 32 ∨ c ∈ ['<', '>', '&', Char.ofNat 0x2028, Char.ofNat 0x2029] then
    "\\u".toList ++ List.replicate (4 - (Nat.toDigits 16 c.toNat).length) '0' ++
      Nat.toDigits 16 c.toNat
  else [c]

def appendString (text : String) : List Char := '"' :: text.toList.flatMap escape ++ ['"']

/-- `time.Time.MarshalJSON` of an instant in UTC. -/
def marshalTime (t : Time) : Option (List Char) :=
  if -62167219200000000000 ≤ t ∧ t < 253402300800000000000 then
    some ('"' :: dayLayout (localDay utc t) ++ 'T' :: clockLayout (localSecond utc t % 86400) ++
      fractionLayout (t % 1000000000) ++ ['Z', '"'])
  else none

/-- `json.Marshal(event)`.  The data has been through `json.Marshal` before, and compacting it
once more changes nothing. -/
def marshal (event : Event) : Option (List Char) :=
  (marshalTime event.timestamp).map fun timestamp ↦
    "\x7b\"id\":".toList ++ Nat.toDigits 10 event.id.toNat ++
      ",\"type\":".toList ++ appendString event.type ++
      ",\"timestamp\":".toList ++ timestamp ++ ",\"data\":".toList ++ event.data.toList ++ ['}']

def eventFrame (event : Event) (data : List Char) : List Char :=
  "id: ".toList ++ Nat.toDigits 10 event.id.toNat ++ "\nevent: ".toList ++ event.type.toList ++
    "\ndata: ".toList ++ data ++ "\n\n".toList

def connected : List Char := ": connected\n\n".toList

def heartbeatFrame (now : Time) : List Char :=
  ": heartbeat ".toList ++ (formatRFC3339 utc now).toList ++ "\n\n".toList

/-- The line that `writeError` writes. -/
def errorLine (code message requestID : String) : List Char :=
  "\x7b\"error\":\x7b\"code\":".toList ++ appendString code ++
    ",\"message\":".toList ++ appendString message ++
      ",\"requestId\":".toList ++ appendString requestID ++ "\x7d\x7d".toList

/-! ## Connections -/

/-- What becomes of `writeSSEFrame`. -/
inductive Write where
  | complete
  /-- `SetWriteDeadline` fails. -/
  | deadline
  /-- `WriteString` or `Flush` fails, and so much of the frame is written. -/
  | failed (count : ℕ)
  deriving DecidableEq, Repr

inductive Phase where
  | opening
  | streaming
  | returned
  deriving DecidableEq, Repr

/-- A request to `events`, with the response it has got so far. -/
structure Connection where
  requestID : String
  phase : Phase
  status : ℕ
  written : List Char
  deriving DecidableEq, Repr

namespace Connection

def accepted (requestID : String) : Connection := ⟨requestID, .opening, 200, []⟩

def refused (requestID : String) : Connection :=
  ⟨requestID, .returned, 503,
    errorLine "SSE_CAPACITY_REACHED" "The live-event subscriber limit has been reached."
      requestID ++ ['\n']⟩

/-- The body of `SSE_UNSUPPORTED`. -/
def unsupported (c : Connection) : List Char :=
  errorLine "SSE_UNSUPPORTED" "Streaming is unavailable." c.requestID ++ ['\n']

/-- The first frame.  The status of an error is not sent after a part of the body. -/
def connect (c : Connection) : Write → Connection
  | .complete => { c with phase := .streaming, written := c.written ++ connected }
  | .deadline =>
      { c with phase := .returned, status := 500, written := c.written ++ c.unsupported }
  | .failed count =>
      { c with phase := .returned, written := c.written ++ connected.take count ++ c.unsupported }

/-- A frame of the loop; after an error the handler returns. -/
def write (c : Connection) (frame : List Char) : Write → Connection
  | .complete => { c with written := c.written ++ frame }
  | .deadline => { c with phase := .returned }
  | .failed count => { c with phase := .returned, written := c.written ++ frame.take count }

end Connection

/-! ## The system -/

/-- The requests have the numbers of their subscriptions. -/
structure System where
  broker : Events.State
  connections : List Connection

def start : System := ⟨Events.new, []⟩

inductive Action where
  /-- A step of a publishing goroutine, or `Broker.Close`. -/
  | broker (action : Events.Action)
  /-- A request calls `TrySubscribe`. -/
  | subscribe
  /-- `TrySubscribe` takes the mutex and returns. -/
  | register (index : ℕ) (requestID : String)
  /-- The first frame of a request. -/
  | connect (index : ℕ) (outcome : Write)
  /-- The case `event, ok := <-subscription.C`. -/
  | event (index : ℕ) (outcome : Write)
  | heartbeat (index : ℕ) (now : Time) (outcome : Write)
  /-- The case `<-r.Context().Done()`. -/
  | done (index : ℕ)
  /-- The deferred `subscription.Close()`. -/
  | leave (index : ℕ)
  deriving DecidableEq, Repr

/-- The steps of the broker that are not steps of a request. -/
def elsewhere : Events.Action → Bool
  | .publish .. | .deliver .. | .close _ => true
  | .trySubscribe .. | .register _ | .cancel _ | .receive _ => false

namespace System

def set (s : System) (index : ℕ) (c : Connection) : System :=
  { s with connections := s.connections.set index c }

/-- The connection of a request in the given phase. -/
def at? (s : System) (index : ℕ) (phase : Phase) : Option Connection :=
  s.connections[index]?.filter (·.phase = phase)

/-- The channel of a request. -/
def channel (s : System) (index : ℕ) : Channel :=
  s.broker.subscriptions[index]?.elim (.make 0) fun subscription ↦
    s.broker.channels subscription.channel

/-- The body of the case of an event, which is `none` on a closed channel. -/
def serve (c : Connection) (outcome : Write) : Option Event → Connection
  | none => { c with phase := .returned }
  | some event =>
      match marshal event with
      | none => c
      | some data => c.write (eventFrame event data) outcome

end System

def step (s : System) : Action → Option System
  | .broker action =>
      if elsewhere action then (Events.step s.broker action).map fun b ↦ { s with broker := b }
      else none
  | .subscribe =>
      (Events.step s.broker (.trySubscribe 64 128)).map fun b ↦ { s with broker := b }
  | .register index requestID =>
      (Events.step s.broker (.register index)).map fun b ↦
        { broker := b
          connections := s.connections ++
            [if b.subscriptions.getLast?.any (·.accepted) then .accepted requestID
              else .refused requestID] }
  | .connect index outcome =>
      (s.at? index .opening).map fun c ↦ s.set index (c.connect outcome)
  | .event index outcome =>
      (s.at? index .streaming).bind fun c ↦
        (Events.step s.broker (.receive index)).map fun b ↦
          { s.set index (System.serve c outcome (s.channel index).buffer.head?) with broker := b }
  | .heartbeat index now outcome =>
      (s.at? index .streaming).map fun c ↦
        s.set index (c.write (heartbeatFrame now) outcome)
  | .done index =>
      (s.at? index .streaming).map fun c ↦ s.set index { c with phase := .returned }
  | .leave index =>
      (s.at? index .returned).bind fun _ ↦
        (Events.step s.broker (.cancel index)).map fun b ↦ { s with broker := b }


/-! ## Frames are clean -/

section

variable {l : List Char}

theorem oneLine_of_forall (h : ∀ c ∈ l, c ≠ '\n' ∧ c ≠ '\r') : OneLine l :=
  ⟨fun hmem ↦ (h _ hmem).1 rfl, fun hmem ↦ (h _ hmem).2 rfl⟩

theorem oneLine_cons {c : Char} (hc : c ≠ '\n' ∧ c ≠ '\r') (hl : OneLine l) : OneLine (c :: l) := by
  have hfirst : OneLine [c] := ⟨by simp [hc.1.symm], by simp [hc.2.symm]⟩
  exact hfirst.append hl

theorem oneLine_of_isDigit (h : ∀ c ∈ l, c.isDigit = true) : OneLine l :=
  oneLine_of_forall fun c hc ↦ by
    constructor <;> rintro rfl <;> exact absurd (h _ hc) (by decide)

theorem oneLine_toDigits {b : ℕ} (hb : 1 < b) (hb16 : b ≤ 16) (n : ℕ) :
    OneLine (Nat.toDigits b n) :=
  ⟨AddressText.not_mem_toDigits hb hb16 (by decide), AddressText.not_mem_toDigits hb hb16 (by decide)⟩

theorem oneLine_appendInt (x : ℤ) (width : ℕ) : OneLine (appendInt x width) := by
  have hdigits : ∀ n w, OneLine (digits n w) := fun n w ↦
    oneLine_of_isDigit fun _ ↦ isDigit_of_mem_digits
  unfold appendInt signed
  split
  · exact oneLine_cons (by decide) (hdigits _ _)
  · exact hdigits _ _

theorem oneLine_dayLayout (n : ℤ) : OneLine (dayLayout n) :=
  ((oneLine_appendInt _ _).append (oneLine_cons (by decide) (oneLine_appendInt _ _))).append
    (oneLine_cons (by decide) (oneLine_appendInt _ _))

theorem oneLine_clockLayout (second : ℤ) : OneLine (clockLayout second) :=
  ((oneLine_appendInt _ _).append (oneLine_cons (by decide) (oneLine_appendInt _ _))).append
    (oneLine_cons (by decide) (oneLine_appendInt _ _))

theorem oneLine_fractionLayout (nanosecond : ℤ) : OneLine (fractionLayout nanosecond) := by
  unfold fractionLayout
  split
  · exact ⟨List.not_mem_nil, List.not_mem_nil⟩
  · refine oneLine_cons (by decide) (oneLine_of_isDigit fun c hc ↦ ?_)
    exact isDigit_of_mem_digits ((List.rdropWhile_prefix _ _).subset hc)

end

theorem oneLine_escape (c : Char) : OneLine (escape c) := by
  unfold escape
  split
  · rename_i hquote
    rcases hquote with rfl | rfl <;> exact ⟨by decide, by decide⟩
  repeat' split
  all_goals first
    | exact ⟨by decide, by decide⟩
    | skip
  · have hzeros : ∀ n, OneLine (List.replicate n '0') := fun n ↦
      oneLine_of_isDigit fun c hc ↦ by rw [List.eq_of_mem_replicate hc]; decide
    exact (OneLine.append ⟨by decide, by decide⟩ (hzeros _)).append
      (oneLine_toDigits (by decide) (by decide) _)
  · rename_i hn hr _ _
    exact oneLine_cons ⟨hn, hr⟩ ⟨List.not_mem_nil, List.not_mem_nil⟩

theorem oneLine_appendString (text : String) : OneLine (appendString text) := by
  have hescaped : OneLine (text.toList.flatMap escape) := by
    refine oneLine_of_forall fun c hc ↦ ?_
    obtain ⟨d, -, hd⟩ := List.mem_flatMap.mp hc
    exact ⟨fun h ↦ (oneLine_escape d).1 (h ▸ hd), fun h ↦ (oneLine_escape d).2 (h ▸ hd)⟩
  exact (oneLine_cons (by decide) hescaped).append ⟨by decide, by decide⟩

theorem oneLine_marshal {event : Event} {data : List Char} (hdata : OneLine event.data.toList)
    (h : marshal event = some data) : OneLine data := by
  obtain ⟨timestamp, htime, rfl⟩ := Option.map_eq_some_iff.mp h
  have htimestamp : OneLine timestamp := by
    unfold marshalTime at htime
    split at htime
    · obtain rfl := Option.some.inj htime
      exact (((oneLine_cons (by decide) (oneLine_dayLayout _)).append
        (oneLine_cons (by decide) (oneLine_clockLayout _))).append
          (oneLine_fractionLayout _)).append ⟨by decide, by decide⟩
    · cases htime
  have hid := oneLine_toDigits (b := 10) (by decide) (by decide) event.id.toNat
  have htype := oneLine_appendString event.type
  exact ((((((OneLine.append (by decide) hid).append (by decide)).append htype).append
    (by decide)).append htimestamp).append (by decide) |>.append hdata).append (by decide)

/-! ## What is published -/

/-- The types of the events that the program publishes. -/
def eventTypes : List String :=
  ["interface.state.changed", "settings.updated", "configuration.imported",
    "route-profile.created", "route-profile.updated", "route-profile.deleted",
    "route.validation.started", "route.validation.completed", "task.created", "task.updated",
    "task.disabled", "task.enabled", "task.deleted", "provider.updated", "run.queued",
    "result.stored", "test.started", "test.completed", "test.failed", "test.skipped",
    "test.cancelled"]

/-- The action publishes one of these types, and what `json.Marshal` returns has no line
breaks. -/
def Encoded : Action → Prop
  | .broker (.publish type payload _) =>
      type ∈ eventTypes ∧ ∀ text ∈ payload, OneLine text.toList
  | _ => True

structure Plain (event : Event) : Prop where
  type : event.type ∈ eventTypes
  data : OneLine event.data.toList

theorem Plain.oneLine_type {event : Event} (h : Plain event) :
    OneLine event.type.toList ∧ event.type.toList ≠ [] := by
  have htypes : ∀ type ∈ eventTypes, OneLine type.toList ∧ type.toList ≠ [] := by decide
  exact htypes _ h.type

/-- The message of an event; an event of a year that JSON has no text for has none. -/
def message (event : Event) : Option Message :=
  (marshal event).map fun data ↦
    ⟨event.type.toList, data, Nat.toDigits 10 event.id.toNat⟩

/-- The parts of a stream for the events that have been received. -/
def Shows (frames : List Frame) (received : List Event) : Prop :=
  (∀ frame ∈ frames, frame.Clean) ∧ frames.filterMap Frame.message? = received.filterMap message

theorem connected_eq : connected = (Frame.comment " connected".toList).text := by decide

theorem heartbeat_text (now : List Char) : ": heartbeat ".toList ++ now ++ "\n\n".toList =
    (Frame.comment (" heartbeat ".toList ++ now)).text := by
  have hopen : ": heartbeat ".toList = ':' :: " heartbeat ".toList := by decide
  have hblank : "\n\n".toList = ['\n', '\n'] := by decide
  rw [hopen, hblank]
  generalize " heartbeat ".toList = opening
  simp [Frame.text, Frame.lines, Reader.block]

theorem heartbeatFrame_eq (now : Time) : heartbeatFrame now =
    (Frame.comment (" heartbeat ".toList ++ (formatRFC3339 utc now).toList)).text :=
  heartbeat_text _

theorem clean_heartbeat (now : Time) :
    (Frame.comment (" heartbeat ".toList ++ (formatRFC3339 utc now).toList)).Clean := by
  refine OneLine.append (by decide) ?_
  have hzone : zoneLayout (utc.offset (now / 1000000000)) = ['Z'] := rfl
  rw [formatRFC3339, String.toList_ofList, hzone]
  exact ((oneLine_dayLayout _).append (oneLine_cons (by decide) (oneLine_clockLayout _))).append
    (by decide)

theorem event_text (id type data : List Char) :
    "id: ".toList ++ id ++ "\nevent: ".toList ++ type ++ "\ndata: ".toList ++ data ++
      "\n\n".toList = (Frame.event id type data).text := by
  have htype : "\nevent: ".toList = '\n' :: "event: ".toList := by decide
  have hdata : "\ndata: ".toList = '\n' :: "data: ".toList := by decide
  have hblank : "\n\n".toList = ['\n', '\n'] := by decide
  rw [htype, hdata, hblank]
  simp [Frame.text, Frame.lines, Reader.block]

theorem eventFrame_eq (event : Event) (data : List Char) : eventFrame event data =
    (Frame.event (Nat.toDigits 10 event.id.toNat) event.type.toList data).text :=
  event_text _ _ _

theorem clean_event {event : Event} {data : List Char} (h : Plain event)
    (hmarshal : marshal event = some data) :
    (Frame.event (Nat.toDigits 10 event.id.toNat) event.type.toList data).Clean :=
  ⟨oneLine_toDigits (by decide) (by decide) _, h.oneLine_type.1, oneLine_marshal h.data hmarshal,
    AddressText.not_mem_toDigits (by decide) (by decide) (by decide)⟩

theorem message?_event {event : Event} {data : List Char} (h : Plain event)
    (hmarshal : marshal event = some data) :
    (Frame.event (Nat.toDigits 10 event.id.toNat) event.type.toList data).message? =
      message event := by
  simp [Frame.message?, message, hmarshal, h.oneLine_type.2]

/-! ## What a connection has written -/

theorem Shows.snoc {frames : List Frame} {received : List Event} (h : Shows frames received)
    {event : Event} {data : List Char} (hplain : Plain event)
    (hmarshal : marshal event = some data) :
    Shows (frames ++ [.event (Nat.toDigits 10 event.id.toNat) event.type.toList data])
      (received ++ [event]) := by
  obtain ⟨hclean, hsame⟩ := h
  refine ⟨fun frame hframe ↦ ?_, ?_⟩
  · rcases List.mem_append.mp hframe with hframe | hframe
    · exact hclean frame hframe
    · rw [List.mem_singleton.mp hframe]
      exact clean_event hplain hmarshal
  · rw [List.filterMap_append, List.filterMap_append, hsame]
    have hone := message?_event hplain hmarshal
    have hmessage : message event =
        some ⟨event.type.toList, data, Nat.toDigits 10 event.id.toNat⟩ := by
      rw [message, hmarshal]
      rfl
    rw [hmessage] at hone
    rw [List.filterMap_cons_some hone, List.filterMap_cons_some hmessage, List.filterMap_nil,
      List.filterMap_nil]

theorem Shows.comment {frames : List Frame} {received : List Event} (h : Shows frames received)
    {text : List Char} (htext : OneLine text) : Shows (frames ++ [.comment text]) received := by
  obtain ⟨hclean, hsame⟩ := h
  refine ⟨fun frame hframe ↦ ?_, by rw [List.filterMap_append, hsame]; exact List.append_nil _⟩
  rcases List.mem_append.mp hframe with hframe | hframe
  · exact hclean frame hframe
  · rw [List.mem_singleton.mp hframe]
    exact htext

/-- An event that cannot be encoded is passed over. -/
theorem Shows.skip {frames : List Frame} {received : List Event} (h : Shows frames received)
    {event : Event} (hmarshal : marshal event = none) : Shows frames (received ++ [event]) := by
  have hmessage : message event = none := by
    rw [message, hmarshal]
    rfl
  exact ⟨h.1, by rw [List.filterMap_append, List.filterMap_cons_none hmessage, h.2]; simp⟩

/-- What a connection has written when its handler has received these events. -/
inductive Wrote (received : List Event) : Connection → Prop where
  | opening (requestID : String) (none : received = []) : Wrote received (.accepted requestID)
  | failed {c : Connection} (ended : c.phase = .returned) (status : c.status ≠ 200) :
      Wrote received c
  | cut {c : Connection} (ended : c.phase = .returned) (count : ℕ)
      (written : c.written = connected.take count ++ c.unsupported) : Wrote received c
  | stream {c : Connection} (opened : c.phase ≠ .opening) (frames : List Frame) (count : ℕ)
      (shows : Shows frames received)
      (written : c.written = (frames.flatMap Frame.text).take count)
      (whole : c.phase = .streaming → (frames.flatMap Frame.text).length ≤ count) :
      Wrote received c

theorem Wrote.write {received : List Event} {c : Connection} {frames : List Frame} {frame : Frame}
    (hphase : c.phase = .streaming) (hshows : Shows (frames ++ [frame]) received)
    (hwritten : c.written = frames.flatMap Frame.text) (outcome : Write) :
    Wrote received (c.write frame.text outcome) := by
  have hall : (frames ++ [frame]).flatMap Frame.text =
      frames.flatMap Frame.text ++ frame.text := by simp
  cases outcome with
  | complete =>
      refine .stream (by simp [Connection.write, hphase]) _ _ hshows ?_ fun _ ↦ Nat.le_refl _
      rw [List.take_length, hall, ← hwritten]
      rfl
  | deadline =>
      refine .stream (by simp [Connection.write]) _ (frames.flatMap Frame.text).length hshows ?_
        (by simp [Connection.write])
      rw [hall, List.take_left, ← hwritten]
      rfl
  | failed count =>
      refine .stream (by simp [Connection.write]) _ ((frames.flatMap Frame.text).length + count)
        hshows ?_ (by simp [Connection.write])
      rw [hall, List.take_length_add_append, ← hwritten]
      rfl

theorem Wrote.connect {received : List Event} {c : Connection} (h : Wrote received c)
    (hphase : c.phase = .opening) (outcome : Write) : Wrote received (c.connect outcome) := by
  cases h with
  | failed ended | cut ended => rw [hphase] at ended; cases ended
  | stream opened => exact absurd hphase opened
  | opening requestID hnone =>
      subst hnone
      cases outcome with
      | complete =>
          have hclean : OneLine " connected".toList := by decide
          have hshows : Shows [.comment " connected".toList] [] :=
            ⟨fun frame h ↦ (List.mem_singleton.mp h).symm ▸ hclean, rfl⟩
          refine .stream (by simp [Connection.connect]) _ connected.length hshows ?_ fun _ ↦ ?_
          · rw [List.flatMap_singleton, ← connected_eq, List.take_length]
            rfl
          · rw [List.flatMap_singleton, ← connected_eq]
      | deadline => exact .failed rfl (by simp [Connection.connect])
      | failed count => exact .cut rfl count rfl

/-- A streaming connection has written whole frames. -/
theorem Wrote.frames {received : List Event} {c : Connection} (h : Wrote received c)
    (hphase : c.phase = .streaming) :
    ∃ frames, Shows frames received ∧ c.written = frames.flatMap Frame.text := by
  cases h with
  | opening => cases hphase
  | failed ended | cut ended => rw [hphase] at ended; cases ended
  | stream opened frames count shows written whole =>
      exact ⟨frames, shows, by rw [written, List.take_of_length_le (whole hphase)]⟩

theorem Wrote.serve {received : List Event} {c : Connection} (h : Wrote received c)
    (hphase : c.phase = .streaming) (outcome : Write) :
    ∀ {event : Option Event}, (∀ e ∈ event, Plain e) →
      Wrote (received ++ event.toList) (System.serve c outcome event) := by
  obtain ⟨frames, hshows, hwritten⟩ := h.frames hphase
  intro event hplain
  cases event with
  | none =>
      refine .stream (by simp [System.serve]) frames (frames.flatMap Frame.text).length
        (by simpa using hshows) ?_ fun h ↦ by simp [System.serve] at h
      rw [List.take_length, ← hwritten]
      rfl
  | some event =>
      cases hmarshal : marshal event with
      | none =>
          rw [System.serve, hmarshal]
          exact .stream (by simp [hphase]) frames _ (hshows.skip hmarshal)
            (by rw [List.take_length, hwritten]) fun _ ↦ Nat.le_refl _
      | some data =>
          rw [System.serve, hmarshal]
          change Wrote _ (c.write (eventFrame event data) outcome)
          rw [eventFrame_eq]
          exact .write hphase (hshows.snoc (hplain event rfl) hmarshal) hwritten outcome

theorem errorLine_cons (code message requestID : String) :
    ∃ rest, errorLine code message requestID = '\x7b' :: rest ∧ OneLine rest := by
  have hopen : "\x7b\"error\":\x7b\"code\":".toList =
      '\x7b' :: "\"error\":\x7b\"code\":".toList := by decide
  have hfirst : OneLine "\"error\":\x7b\"code\":".toList := by decide
  have hmessage : OneLine ",\"message\":".toList := by decide
  have hrequest : OneLine ",\"requestId\":".toList := by decide
  have hclose : OneLine "\x7d\x7d".toList := by decide
  unfold errorLine
  rw [hopen]
  generalize "\"error\":\x7b\"code\":".toList = first at *
  generalize ",\"message\":".toList = second at *
  generalize ",\"requestId\":".toList = third at *
  generalize "\x7d\x7d".toList = last at *
  refine ⟨first ++ appendString code ++ second ++ appendString message ++ third ++
    appendString requestID ++ last, by simp, ?_⟩
  exact (((((hfirst.append (oneLine_appendString code)).append hmessage).append
    (oneLine_appendString message)).append hrequest).append
      (oneLine_appendString requestID)).append hclose

theorem quiet_errorLine (code message requestID : String) :
    Reader.Quiet (errorLine code message requestID) := by
  obtain ⟨rest, heq, hrest⟩ := errorLine_cons code message requestID
  rw [heq]
  exact ⟨oneLine_cons (by decide) hrest, by simp [fieldOf]⟩

/-- However much of a stream has arrived, the reader has dispatched the events that the
handler received, up to some point. -/
theorem Wrote.read {received : List Event} {c : Connection} (h : Wrote received c)
    (hstatus : c.status = 200) (n : ℕ) :
    EventStream.read (c.written.take n) <+: received.filterMap message := by
  cases h with
  | opening =>
      rw [Connection.accepted, List.take_nil]
      exact List.nil_prefix
  | failed _ status => exact absurd hstatus status
  | cut _ count written =>
      obtain ⟨rest, heq, -⟩ :=
        errorLine_cons "SSE_UNSUPPORTED" "Streaming is unavailable." c.requestID
      have hhead : (errorLine "SSE_UNSUPPORTED" "Streaming is unavailable." c.requestID).head? ≠
          some '\uFEFF' := by
        rw [heq]
        simp
      rw [written, Connection.unsupported, ← List.append_assoc, connected_eq,
        read_cut (by decide) (quiet_errorLine _ _ _) hhead]
      exact List.nil_prefix
  | stream _ frames count shows written =>
      rw [written, List.take_take, read_stream shows.1, ← shows.2]
      exact (arrived_isPrefix frames _).filterMap _

theorem Wrote.read_whole {received : List Event} {c : Connection} (h : Wrote received c)
    (hphase : c.phase = .streaming) :
    EventStream.read c.written = received.filterMap message := by
  obtain ⟨frames, hshows, hwritten⟩ := h.frames hphase
  have hread := read_stream hshows.1 (frames.flatMap Frame.text).length
  rw [List.take_length, arrived_of_le (Nat.le_refl _)] at hread
  rw [hwritten, hread, hshows.2]

/-! ## Runs -/

/-- The events that the handler of a request has received. -/
def System.received (s : System) (index : ℕ) : List Event := (s.channel index).received

/-- Every connection has written what its handler has received. -/
structure Sound (s : System) : Prop where
  wellFormed : WellFormed s.broker
  owned : Owned s.broker
  plain : Carries Plain s.broker
  numbered : s.connections.length = s.broker.subscriptions.length
  wrote : ∀ index c, s.connections[index]? = some c → Wrote (s.received index) c

theorem sound_start : Sound start where
  wellFormed := wellFormed_new
  owned := owned_new
  plain := carries_new _
  numbered := rfl
  wrote _ _ h := by cases h

theorem channel_eq (s : System) (index : ℕ) : s.channel index =
    (s.broker.subscriptions.map Subscription.channel)[index]?.elim (.make 0) s.broker.channels := by
  rw [System.channel, List.getElem?_map]
  cases s.broker.subscriptions[index]? <;> rfl

/-- Where the subscriptions keep their channels and nothing is received, the handlers have
received the same events. -/
theorem received_eq {s t : System} (index : ℕ)
    (hchannel : (t.broker.subscriptions.map Subscription.channel)[index]? =
      (s.broker.subscriptions.map Subscription.channel)[index]?)
    (hreceived : ∀ r, (t.broker.channels r).received = (s.broker.channels r).received) :
    t.received index = s.received index := by
  rw [System.received, System.received, channel_eq, channel_eq, hchannel]
  cases (s.broker.subscriptions.map Subscription.channel)[index]? with
  | none => rfl
  | some r => exact hreceived r

/-- A step that only moves the broker and receives nothing. -/
theorem Sound.broker {s : System} (h : Sound s) {action : Events.Action} {b : Events.State}
    (hother : ∀ index, action ≠ .receive index)
    (hplain : ∀ type payload now, action = .publish type payload now →
      ∀ id, Plain ⟨id, type, now, eventData payload⟩)
    (hstep : Events.step s.broker action = some b)
    (hsubscriptions : b.subscriptions.map Subscription.channel =
      s.broker.subscriptions.map Subscription.channel) : Sound { s with broker := b } where
  wellFormed := h.wellFormed.step hstep
  owned := h.owned.step h.wellFormed hstep
  plain := h.plain.step h.wellFormed hstep hplain
  numbered := by
    have hlength := congrArg List.length hsubscriptions
    rw [List.length_map, List.length_map] at hlength
    exact h.numbered.trans hlength.symm
  wrote index c hc := by
    have hreceived := received_eq (s := s) (t := { s with broker := b }) index
      (congrArg (·[index]?) hsubscriptions) (received_step h.wellFormed hother hstep)
    rw [hreceived]
    exact h.wrote index c hc

/-- A step of one handler that receives nothing. -/
theorem Sound.set {s : System} (h : Sound s) {index : ℕ} {c : Connection}
    (hc : Wrote (s.received index) c) : Sound (s.set index c) where
  wellFormed := h.wellFormed
  owned := h.owned
  plain := h.plain
  numbered := by
    rw [System.set, List.length_set]
    exact h.numbered
  wrote other d hd := by
    change Wrote (s.received other) d
    rw [System.set, List.getElem?_set] at hd
    split at hd
    · rename_i heq
      subst heq
      split at hd
      · obtain rfl := Option.some.inj hd
        exact hc
      · cases hd
    · exact h.wrote other d hd

theorem at?_eq_some {s : System} {index : ℕ} {phase : Phase} {c : Connection}
    (h : s.at? index phase = some c) : s.connections[index]? = some c ∧ c.phase = phase := by
  rw [System.at?, Option.filter_eq_some_iff] at h
  exact ⟨h.1, of_decide_eq_true h.2⟩

/-- The handler of a request takes the next event, or sees the end of its channel. -/
theorem received_event {s : System} {index : ℕ} {b : Events.State} (h : Sound s)
    (connections : List Connection) (hstep : Events.step s.broker (.receive index) = some b) :
    (∀ e ∈ (s.channel index).buffer.head?, Plain e) ∧
      (System.mk b connections).received index =
        s.received index ++ (s.channel index).buffer.head?.toList ∧
      ∀ other, other ≠ index → (System.mk b connections).received other = s.received other := by
  obtain ⟨subscription, taken, hat, htaken, rfl⟩ := receive_spec h.wellFormed hstep
  have hchannel : s.channel index = s.broker.channels subscription.channel := by
    rw [System.channel, hat]
    rfl
  refine ⟨fun e he ↦ ?_, ?_, fun other hne ↦ ?_⟩
  · rw [hchannel] at he
    exact h.plain.sent subscription.channel e (List.mem_append_right _ (List.mem_of_head? he))
  · have hnow : (System.mk (s.broker.setChannel subscription.channel taken) connections).channel
        index = taken := by
      change s.broker.subscriptions[index]?.elim _ _ = taken
      rw [hat]
      exact Function.update_self _ _ _
    rw [System.received, hnow, Channel.received_receive htaken, System.received, hchannel]
  · rw [System.received, System.received, System.channel, System.channel]
    change (s.broker.subscriptions[other]?.elim _ fun subscription' ↦
      Function.update s.broker.channels subscription.channel taken subscription'.channel).received = _
    cases hother : s.broker.subscriptions[other]? with
    | none => rfl
    | some subscription' =>
        have hne' := h.owned.channel_ne hother hat hne
        exact congrArg Channel.received (Function.update_of_ne hne' _ _)

theorem Sound.event {s : System} (h : Sound s) {index : ℕ} {c : Connection} {b : Events.State}
    (hc : s.connections[index]? = some c) (hphase : c.phase = .streaming) (outcome : Write)
    (hstep : Events.step s.broker (.receive index) = some b) :
    Sound { s.set index (System.serve c outcome (s.channel index).buffer.head?) with
      broker := b } := by
  obtain ⟨hplain, hown, hother⟩ := received_event h
    (s.set index (System.serve c outcome (s.channel index).buffer.head?)).connections hstep
  exact {
    wellFormed := h.wellFormed.step hstep
    owned := h.owned.step h.wellFormed hstep
    plain := h.plain.step h.wellFormed hstep fun _ _ _ h ↦ by cases h
    numbered := by
      have hmap := map_channel_step h.wellFormed (fun _ ↦ by simp) hstep
      have hlength := congrArg List.length hmap
      rw [List.length_map, List.length_map] at hlength
      change (s.connections.set index _).length = b.subscriptions.length
      rw [List.length_set, hlength, h.numbered]
    wrote := fun other d hd ↦ by
      change (s.connections.set index _)[other]? = some d at hd
      rw [List.getElem?_set] at hd
      split at hd
      · rename_i heq
        subst heq
        split at hd
        · obtain rfl := Option.some.inj hd
          exact hown ▸ (h.wrote index c hc).serve hphase outcome hplain
        · cases hd
      · rename_i hne
        exact hother other (Ne.symm hne) ▸ h.wrote other d hd }

/-- A request gets its subscription. -/
theorem Sound.register {s : System} (h : Sound s) {index : ℕ} {b : Events.State}
    (requestID : String) (hstep : Events.step s.broker (.register index) = some b) :
    Sound ⟨b, s.connections ++ [if b.subscriptions.getLast?.any (·.accepted) then
      .accepted requestID else .refused requestID]⟩ := by
  obtain ⟨r, accepted, hr, hsubscriptions⟩ := register_spec h.wellFormed hstep
  have hreceived := received_step h.wellFormed (fun _ ↦ by simp) hstep
  refine ⟨h.wellFormed.step hstep, h.owned.step h.wellFormed hstep,
    h.plain.step h.wellFormed hstep fun _ _ _ h ↦ (by cases h), ?_, fun other d hd ↦ ?_⟩
  · rw [hsubscriptions, List.length_append, List.length_append, h.numbered]
    rfl
  · generalize hnew : (if b.subscriptions.getLast?.any (·.accepted) then
      Connection.accepted requestID else .refused requestID) = new at hd ⊢
    dsimp only at hd
    rcases lt_or_ge other s.connections.length with hlt | hge
    · rw [List.getElem?_append_left hlt] at hd
      rw [received_eq (s := s) other ?_ hreceived]
      · exact h.wrote other d hd
      · change (b.subscriptions.map _)[other]? = _
        rw [hsubscriptions, List.map_append, List.getElem?_append_left]
        rw [List.length_map, ← h.numbered]
        exact hlt
    · rw [List.getElem?_append_right hge, List.getElem?_singleton] at hd
      split at hd
      · rename_i hzero
        obtain rfl := Option.some.inj hd
        have hlast : other = s.broker.subscriptions.length := by
          rw [← h.numbered]
          omega
        obtain ⟨capacity, hmake⟩ := h.wellFormed.waiting r hr
        have hnone : (System.mk b (s.connections ++ [new])).received other = [] := by
          rw [System.received, System.channel]
          change (b.subscriptions[other]?.elim _ fun subscription ↦
            b.channels subscription.channel).received = []
          rw [hsubscriptions, hlast, List.getElem?_concat_length]
          exact (hreceived r.channel).trans (by rw [hmake]; rfl)
        rw [hnone, ← hnew]
        split
        · exact .opening requestID rfl
        · exact .failed rfl (by simp [Connection.refused])
      · cases hd

theorem Sound.step {s t : System} {action : Action} (h : Sound s) (hencoded : Encoded action)
    (hstep : Live.step s action = some t) : Sound t := by
  cases action with
  | broker action =>
      change (if elsewhere action then _ else none) = some t at hstep
      split at hstep
      · rename_i helsewhere
        obtain ⟨b, hb, rfl⟩ := Option.map_eq_some_iff.mp hstep
        refine h.broker ?_ ?_ hb (map_channel_step h.wellFormed ?_ hb)
        · rintro index rfl
          cases helsewhere
        · rintro type payload now rfl id
          have hfallback : OneLine (eventData none).toList := by decide
          refine ⟨hencoded.1, ?_⟩
          cases payload with
          | none => exact hfallback
          | some text => exact hencoded.2 text rfl
        · rintro index rfl
          cases helsewhere
      · cases hstep
  | subscribe =>
      change Option.map _ (Events.step s.broker (.trySubscribe 64 128)) = some t at hstep
      obtain ⟨b, hb, rfl⟩ := Option.map_eq_some_iff.mp hstep
      exact h.broker (fun _ ↦ by simp) (fun _ _ _ h ↦ by cases h) hb
        (map_channel_step h.wellFormed (fun _ ↦ by simp) hb)
  | register index requestID =>
      obtain ⟨b, hb, rfl⟩ := Option.map_eq_some_iff.mp hstep
      exact h.register requestID hb
  | connect index outcome =>
      obtain ⟨c, hc, rfl⟩ := Option.map_eq_some_iff.mp hstep
      obtain ⟨hat, hphase⟩ := at?_eq_some hc
      exact h.set ((h.wrote index c hat).connect hphase outcome)
  | event index outcome =>
      obtain ⟨c, hc, hstep⟩ := Option.bind_eq_some_iff.mp hstep
      obtain ⟨b, hb, rfl⟩ := Option.map_eq_some_iff.mp hstep
      obtain ⟨hat, hphase⟩ := at?_eq_some hc
      exact h.event hat hphase outcome hb
  | heartbeat index now outcome =>
      obtain ⟨c, hc, rfl⟩ := Option.map_eq_some_iff.mp hstep
      obtain ⟨hat, hphase⟩ := at?_eq_some hc
      obtain ⟨frames, hshows, hwritten⟩ := (h.wrote index c hat).frames hphase
      refine h.set ?_
      rw [heartbeatFrame_eq]
      exact .write hphase (hshows.comment (clean_heartbeat now)) hwritten outcome
  | done index =>
      obtain ⟨c, hc, rfl⟩ := Option.map_eq_some_iff.mp hstep
      obtain ⟨hat, hphase⟩ := at?_eq_some hc
      refine h.set ?_
      have hserved : Wrote (s.received index ++ (none : Option Event).toList)
          (System.serve c .complete none) :=
        (h.wrote index c hat).serve hphase .complete fun _ h ↦ by cases h
      rwa [Option.toList_none, List.append_nil] at hserved
  | leave index =>
      obtain ⟨c, hc, hstep⟩ := Option.bind_eq_some_iff.mp hstep
      obtain ⟨b, hb, rfl⟩ := Option.map_eq_some_iff.mp hstep
      exact h.broker (fun _ ↦ by simp) (fun _ _ _ h ↦ by cases h) hb
        (map_channel_step h.wellFormed (fun _ ↦ by simp) hb)

/-! ## A run is a run of the broker -/

/-- The step of the broker that an action takes. -/
def brokerAction : Action → List Events.Action
  | .broker action => [action]
  | .subscribe => [.trySubscribe 64 128]
  | .register index _ => [.register index]
  | .event index _ => [.receive index]
  | .leave index => [.cancel index]
  | .connect .. | .heartbeat .. | .done _ => []

theorem broker_step {s t : System} {action : Action} (hstep : step s action = some t) :
    Transition.run Events.step s.broker (brokerAction action) = some t.broker := by
  have hone : ∀ {a : Events.Action} {b : Events.State}, Events.step s.broker a = some b →
      Transition.run Events.step s.broker [a] = some b := by
    intro a b hb
    rw [Transition.run_cons_of_step _ hb]
    rfl
  cases action with
  | broker action =>
      change (if elsewhere action then _ else none) = some t at hstep
      split at hstep
      · obtain ⟨b, hb, rfl⟩ := Option.map_eq_some_iff.mp hstep
        exact hone hb
      · cases hstep
  | subscribe =>
      change Option.map _ (Events.step s.broker (.trySubscribe 64 128)) = some t at hstep
      obtain ⟨b, hb, rfl⟩ := Option.map_eq_some_iff.mp hstep
      exact hone hb
  | register =>
      obtain ⟨b, hb, rfl⟩ := Option.map_eq_some_iff.mp hstep
      exact hone hb
  | connect | heartbeat | done =>
      obtain ⟨c, -, rfl⟩ := Option.map_eq_some_iff.mp hstep
      rfl
  | event | leave =>
      obtain ⟨c, -, hstep⟩ := Option.bind_eq_some_iff.mp hstep
      obtain ⟨b, hb, rfl⟩ := Option.map_eq_some_iff.mp hstep
      exact hone hb

theorem countP_brokerAction {s t : System} {action : Action} (hstep : step s action = some t) :
    (brokerAction action).countP isTrySubscribe = [action].count .subscribe := by
  cases action with
  | broker action =>
      have helsewhere : elsewhere action = true := by
        by_contra hnot
        change (if elsewhere action then _ else none) = some t at hstep
        rw [if_neg hnot] at hstep
        cases hstep
      cases action <;> first | rfl | cases helsewhere
  | _ => rfl

theorem broker_run {s t : System} {actions : List Action}
    (hrun : Transition.run step s actions = some t) :
    Transition.run Events.step s.broker (actions.flatMap brokerAction) = some t.broker ∧
      (actions.flatMap brokerAction).countP isTrySubscribe = actions.count .subscribe := by
  induction actions generalizing s with
  | nil =>
      obtain rfl : s = t := by simpa using hrun
      exact ⟨rfl, rfl⟩
  | cons action actions ih =>
      obtain ⟨u, hu, hrest⟩ := (Transition.run_cons_iff step).mp hrun
      obtain ⟨hbroker, hcount⟩ := ih hrest
      have hsplit : (action :: actions).count .subscribe =
          [action].count .subscribe + actions.count .subscribe :=
        @List.count_append _ _ _ [action] actions
      rw [List.flatMap_cons, List.countP_append, countP_brokerAction hu, hcount, hsplit]
      exact ⟨(Transition.run_append_iff _).mpr ⟨_, broker_step hu, hbroker⟩, rfl⟩

theorem sound_run {s t : System} {actions : List Action} (hs : Sound s)
    (hencoded : ∀ action ∈ actions, Encoded action)
    (hrun : Transition.run step s actions = some t) : Sound t :=
  Transition.guarded_run_invariant step (P := Sound) (G := fun _ action ↦ Encoded action)
    (fun _ _ _ hs hg hstep ↦ hs.step hg hstep) hs
    (Transition.guarded_of_forall step (fun _ ↦ hencoded) s) hrun

/-- The published events of the time in which the request was subscribed. -/
def System.window (s : System) (index : ℕ) : List Event :=
  (s.channel index).window.elim [] fun window ↦ window.view s.broker.log

/-! ## Clients -/

/-- However the goroutines interleave and wherever a connection breaks, a client has read
some first events of the time in which it was subscribed, each of them once and in the order
of publication; and as long as its handler serves it, it is sent all that the handler has
received. -/
theorem client_reads_published {actions : List Action} {s : System}
    (hrun : Transition.run step start actions = some s)
    (hencoded : ∀ action ∈ actions, Encoded action)
    (hcount : actions.count .subscribe ≤ 2 ^ 64)
    {index : ℕ} {c : Connection} (hc : s.connections[index]? = some c) (hstatus : c.status = 200) :
    (∀ n, EventStream.read (c.written.take n) <+: (s.window index).filterMap message) ∧
      (c.phase = .streaming → (s.channel index).buffer = [] →
        EventStream.read c.written = (s.window index).filterMap message) := by
  have hsound := sound_run sound_start hencoded hrun
  obtain ⟨hbroker, hdrawn⟩ := broker_run hrun
  have hattached : WellFormed s.broker ∧ Attached s.broker :=
    Transition.guarded_run_invariant Events.step (P := fun s ↦ WellFormed s ∧ Attached s)
      (fun _ _ _ hs hg hstep ↦ ⟨hs.1.step hstep, hs.2.step hs.1 hg hstep⟩)
      ⟨wellFormed_new, attached_new⟩
      (guarded_fresh wellFormed_new drawn_new (by omega)) hbroker
  have hdelivery := delivery_of_attached hattached.1 hattached.2
  have hsent : (s.channel index).sent = s.window index := by
    rw [System.window, System.channel]
    cases s.broker.subscriptions[index]? with
    | none => rfl
    | some subscription =>
        rw [Option.elim_some]
        cases hwindow : (s.broker.channels subscription.channel).window with
        | none => exact hdelivery.unseen _ hwindow
        | some w => exact (hdelivery.segment _ w hwindow).2.2
  have hwrote := hsound.wrote index c hc
  refine ⟨fun n ↦ (hwrote.read hstatus n).trans ?_, fun hphase hempty ↦ ?_⟩
  · rw [← hsent]
    exact (List.prefix_append _ _).filterMap _
  · rw [hwrote.read_whole hphase, ← hsent, Channel.sent, hempty, List.append_nil]
    rfl

/-- A client that loses its connection within the frame of the second of two events. -/
def brokenRun : List Action :=
  [.subscribe, .register 0 "request", .connect 0 .complete,
    .broker (.publish "task.created" (some "\x7b\x7d") 0), .broker (.deliver 0 [(1, 0)]),
    .event 0 .complete, .heartbeat 0 0 .complete,
    .broker (.publish "task.deleted" (some "\x7b\x7d") 0), .broker (.deliver 0 [(1, 0)]),
    .event 0 (.failed 30), .leave 0]

theorem client_reads_published_broken : ∃ s c, Transition.run step start brokenRun = some s ∧
    s.connections[0]? = some c ∧
      (∀ n, EventStream.read (c.written.take n) <+: (s.window 0).filterMap message) ∧
        (s.window 0).length = 2 := by
  have hencoded : ∀ action ∈ brokenRun, Encoded action := by
    intro action haction
    have htext : OneLine ['\x7b', '\x7d'] := by decide
    simp only [brokenRun, List.mem_cons, List.not_mem_nil, or_false] at haction
    rcases haction with rfl | rfl | rfl | rfl | rfl | rfl | rfl | rfl | rfl | rfl | rfl <;>
      simp [Encoded, eventTypes, htext]
  have hcount : brokenRun.count .subscribe ≤ 2 ^ 64 := by decide
  refine ⟨_, _, rfl, rfl, ?_, rfl⟩
  exact (client_reads_published rfl hencoded hcount rfl rfl).1

end MultiSpeed.Api.Live
