import MultiSpeed.Lib.Feed
import MultiSpeed.Lib.Transition
import MultiSpeed.Models
import Mathlib.Logic.Function.Basic

/-!
# The event broker

The broker of `internal/events` and the goroutines that use it.  `Publish` and
`TrySubscribe` draw their identifier before they take the mutex, so each of them
is two steps, and the steps of other goroutines may come in between.  A send on a
closed channel and a second `close` are panics.
-/

namespace MultiSpeed.Events

open Feed

structure Event where
  id : UInt64
  type : String
  timestamp : Time
  data : String
  deriving DecidableEq, Repr

/-- `json.Marshal(payload)`; `none` is a payload that cannot be encoded. -/
def eventData (payload : Option String) : String :=
  payload.getD "\x7b\"message\":\"event payload could not be encoded\"\x7d"

inductive Panic where
  /-- send on closed channel -/
  | sendOnClosed
  /-- close of closed channel -/
  | closeOfClosed
  deriving DecidableEq, Repr

/-! ## Channels -/

/-- A buffered channel.  The last two fields are its history: what was received from
it, and for which part of the published events it was in the subscriber map. -/
structure Channel where
  capacity : ℕ
  buffer : List Event
  closed : Bool
  received : List Event
  window : Option Window
  deriving DecidableEq, Repr

namespace Channel

/-- `make(chan Event, capacity)`. -/
def make (capacity : ℕ) : Channel := ⟨capacity, [], false, [], none⟩

/-- All events that were sent on the channel. -/
def sent (c : Channel) : List Event := c.received ++ c.buffer

/-- There is room for one more event. -/
def room (c : Channel) : Bool := decide (c.buffer.length < c.capacity)

def push (c : Channel) (event : Event) : Channel := { c with buffer := c.buffer ++ [event] }

/-- The channel after `close`; `log` is what has been published. -/
def shut (c : Channel) (log : List Event) : Channel :=
  { c with closed := true, window := c.window.map (·.leave log) }

/-- `close(channel)`. -/
def close (c : Channel) (log : List Event) : Except Panic Channel :=
  if c.closed then .error .closeOfClosed else .ok (c.shut log)

/-- `select { case channel <- event: default: }`; `none` is the default branch. -/
def trySend (c : Channel) (event : Event) : Except Panic (Option Channel) :=
  if c.closed then .error .sendOnClosed
  else if c.room then .ok (some (c.push event))
  else .ok none

/-- `<-channel` where it does not block. -/
def receive (c : Channel) : Option Channel :=
  match c.buffer with
  | event :: rest => some { c with buffer := rest, received := c.received ++ [event] }
  | [] => if c.closed then some c else none

end Channel

/-! ## The state -/

/-- A `TrySubscribe` that has drawn its identifier and made its channel. -/
structure Registration where
  id : UInt64
  channel : ℕ
  limit : ℤ
  deriving DecidableEq, Repr

/-- What `TrySubscribe` returned.  `done` is the state of its `sync.Once`. -/
structure Subscription where
  id : UInt64
  channel : ℕ
  accepted : Bool
  done : Bool
  deriving DecidableEq, Repr

/-- The broker, the channels by reference, the goroutines between their two steps,
and the published events in the order of the mutex. -/
structure State where
  subscribers : List (UInt64 × ℕ)
  nextSubID : UInt64
  nextEventID : UInt64
  closed : Bool
  channels : ℕ → Channel
  made : ℕ
  publishing : List Event
  registering : List Registration
  subscriptions : List Subscription
  log : List Event
  panicked : Bool

/-- `New`. -/
def new : State where
  subscribers := []
  nextSubID := 0
  nextEventID := 0
  closed := false
  channels _ := .make 0
  made := 0
  publishing := []
  registering := []
  subscriptions := []
  log := []
  panicked := false

def State.setChannel (s : State) (reference : ℕ) (c : Channel) : State :=
  { s with channels := Function.update s.channels reference c }

/-! ## The sections under the mutex -/

/-- `delete(b.subscribers, id); close(subscriber)`. -/
def disconnect (s : State) (entry : UInt64 × ℕ) : Except Panic State :=
  match (s.channels entry.2).close s.log with
  | .error p => .error p
  | .ok c => .ok { s.setChannel entry.2 c with
      subscribers := s.subscribers.filter fun other ↦ other.1 ≠ entry.1 }

/-- The body of the loop of `Publish`. -/
def deliverTo (event : Event) (s : State) (entry : UInt64 × ℕ) : Except Panic State :=
  match (s.channels entry.2).trySend event with
  | .error p => .error p
  | .ok (some c) => .ok (s.setChannel entry.2 c)
  | .ok none => disconnect s entry

/-- A loop over the map in the order in which Go happens to visit it. -/
def forEach (body : State → UInt64 × ℕ → Except Panic State) :
    State → List (UInt64 × ℕ) → Except Panic State
  | s, [] => .ok s
  | s, entry :: rest =>
      match body s entry with
      | .error p => .error p
      | .ok s' => forEach body s' rest

/-- `Publish` after `b.mu.Lock()`. -/
def publishLocked (event : Event) (order : List (UInt64 × ℕ)) (s : State) : Except Panic State :=
  if s.closed then .ok s
  else
    match forEach (deliverTo event) s order with
    | .error p => .error p
    | .ok s' => .ok { s' with log := s'.log ++ [event] }

/-- The buffer that `TrySubscribe` makes. -/
def bufferSize (buffer : ℤ) : ℕ :=
  if buffer < 1 then 32 else if 256 < buffer then 256 else buffer.toNat

/-- `TrySubscribe` returns. -/
def State.subscribed (s : State) (r : Registration) (accepted : Bool) : State :=
  { s with subscriptions := s.subscriptions ++ [⟨r.id, r.channel, accepted, false⟩] }

/-- `TrySubscribe` after `b.mu.Lock()`. -/
def registerLocked (r : Registration) (s : State) : Except Panic State :=
  if s.closed then
    match (s.channels r.channel).close s.log with
    | .error p => .error p
    | .ok c => .ok ((s.setChannel r.channel c).subscribed r true)
  else if 0 < r.limit ∧ r.limit ≤ s.subscribers.length then
    match (s.channels r.channel).close s.log with
    | .error p => .error p
    | .ok c => .ok ((s.setChannel r.channel c).subscribed r false)
  else
    let c := { s.channels r.channel with window := some (.join s.log) }
    .ok ({ s.setChannel r.channel c with
      subscribers := (r.id, r.channel) :: s.subscribers.filter fun other ↦ other.1 ≠ r.id
    }.subscribed r true)

/-- The function that `sync.Once` guards. -/
def cancelLocked (id : UInt64) (s : State) : Except Panic State :=
  match s.subscribers.find? fun entry ↦ entry.1 = id with
  | none => .ok s
  | some existing => disconnect s existing

/-- `Broker.Close`. -/
def closeLocked (order : List (UInt64 × ℕ)) (s : State) : Except Panic State :=
  forEach disconnect { s with closed := true } order

/-! ## Steps -/

inductive Action where
  /-- `Publish` up to the mutex. -/
  | publish (type : String) (payload : Option String) (now : Time)
  /-- A publishing goroutine takes the mutex and visits the map in an order. -/
  | deliver (index : ℕ) (order : List (UInt64 × ℕ))
  /-- `TrySubscribe` up to the mutex. -/
  | trySubscribe (buffer limit : ℤ)
  /-- A subscribing goroutine takes the mutex. -/
  | register (index : ℕ)
  /-- `Subscription.Close`. -/
  | cancel (index : ℕ)
  /-- `Broker.Close`. -/
  | close (order : List (UInt64 × ℕ))
  /-- A subscriber receives from its channel. -/
  | receive (index : ℕ)
  deriving DecidableEq, Repr

/-- A panic ends the process. -/
def settle (s : State) : Except Panic State → State
  | .ok s' => s'
  | .error _ => { s with panicked := true }

/-- `TrySubscribe` up to the mutex. -/
def State.draw (s : State) (buffer limit : ℤ) : State :=
  { s with
    nextSubID := s.nextSubID + 1
    channels := Function.update s.channels s.made (.make (bufferSize buffer))
    made := s.made + 1
    registering := s.registering ++ [⟨s.nextSubID + 1, s.made, limit⟩] }

def step (s : State) (action : Action) : Option State :=
  if s.panicked then none
  else
    match action with
    | .publish type payload now => some { s with
        nextEventID := s.nextEventID + 1
        publishing := s.publishing ++ [⟨s.nextEventID + 1, type, now, eventData payload⟩] }
    | .deliver index order =>
        match s.publishing[index]? with
        | none => none
        | some event =>
            if order.Perm s.subscribers then
              let s := { s with publishing := s.publishing.eraseIdx index }
              some (settle s (publishLocked event order s))
            else none
    | .trySubscribe buffer limit => some (s.draw buffer limit)
    | .register index =>
        match s.registering[index]? with
        | none => none
        | some r =>
            let s := { s with registering := s.registering.eraseIdx index }
            some (settle s (registerLocked r s))
    | .cancel index =>
        match s.subscriptions[index]? with
        | none => none
        | some subscription =>
            if !subscription.accepted || subscription.done then some s
            else
              let s := { s with
                subscriptions := s.subscriptions.set index { subscription with done := true } }
              some (settle s (cancelLocked subscription.id s))
    | .close order =>
        if order.Perm s.subscribers then some (settle s (closeLocked order s)) else none
    | .receive index =>
        match s.subscriptions[index]? with
        | none => none
        | some subscription =>
            (s.channels subscription.channel).receive.map (s.setChannel subscription.channel)

end MultiSpeed.Events
