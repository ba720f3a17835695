import CanTelemetry.Foundation.Execution
import CanTelemetry.VehicleCore.Contracts
import Mathlib.Data.Fintype.Basic
import Mathlib.Logic.Function.Basic

/-! The fixed-capacity latest-state channel. Every public operation is one section
under the channel mutex, except a dispatch, which detaches a notice in one section,
runs the callback without the lock, and ends in a second section. The system at the
end lets any operation of any thread, callbacks included, fall between the two. -/

namespace CanTelemetry.VehicleCore

abbrev notificationSubscribersPerChannel : ℕ := 2

abbrev Slot := Fin notificationSubscribersPerChannel

structure NotificationHandle where
  channel : BitVec 16 := 0xffff
  slot : BitVec 8 := 0xff
  generation : BitVec 16 := 0
  deriving DecidableEq

inductive NotificationStatus
  | ok | alreadyRunning | notRunning | invalidState | invalidCallback | invalidSubscription
  | capacityExceeded | noPending
  deriving DecidableEq, Repr

/-- One slot. `C` and `X` are the types of callbacks and of contexts; a null
pointer is `none`. -/
structure Subscriber (C X T : Type*) where
  callback : Option C := none
  context : Option X := none
  generation : BitVec 16 := 0
  registrationOrder : BitVec 64 := 0
  active : Bool := false
  pending : Bool := false
  pendingInitialSeed : Bool := false
  pendingNotice : Notification T := {}

structure NotificationChannel (C X T : Type*) where
  subscribers : Slot → Subscriber C X T := fun _ => {}
  current : Reading T := {}
  nextRegistrationOrder : BitVec 64 := 1
  dispatchCursorOrder : BitVec 64 := 0
  hasAvailablePeriod : Bool := false
  running : Bool := false
  dispatching : Bool := false
  callbackActive : Bool := false

/-- What a dispatch takes out of the channel before it runs the callback. -/
structure Delivery (C X T : Type*) where
  slot : Slot
  callback : Option C
  context : Option X
  notice : Notification T

variable {C X T : Type*}

/-- The canonical policy: only these two states make a value available. -/
def available (reading : Reading T) : Bool :=
  reading.value.isSome &&
    (reading.availability = .fresh || reading.availability = .freshnessUnverified)

def sameReading [BEq T] (left right : Reading T) : Bool :=
  left.value == right.value && left.availability = right.availability &&
    left.validation = right.validation

namespace Subscriber

/-- `merge_pending`: the initial state is a seed, so the first reading that
replaces it does not count as coalesced. -/
def mergePending (s : Subscriber C X T) (update : Notification T) : Subscriber C X T :=
  if !s.pending then
    { s with pendingNotice := update, pending := true, pendingInitialSeed := false }
  else
    { s with
      pendingNotice := { s.pendingNotice with
        coalesced := s.pendingNotice.coalesced || !s.pendingInitialSeed
        current := update.current
        becameUnavailable := s.pendingNotice.becameUnavailable || update.becameUnavailable
        recovered := s.pendingNotice.recovered || update.recovered }
      pendingInitialSeed := false }

/-- The slot of a new registration. -/
def register (s : Subscriber C X T) (callback : C) (context : Option X) (order : BitVec 64) :
    Subscriber C X T where
  active := true
  callback := some callback
  context := context
  registrationOrder := order
  generation := if s.generation + 1 = 0 then 1 else s.generation + 1

def release (s : Subscriber C X T) : Subscriber C X T :=
  { generation := s.generation }

/-- Run-local state of a slot at the start of a run. -/
def seed (s : Subscriber C X T) (current : Reading T) : Subscriber C X T :=
  { s with
    pending := s.active
    pendingInitialSeed := true
    pendingNotice := { current := current, initial := true } }

def discard (s : Subscriber C X T) : Subscriber C X T :=
  { s with pending := false, pendingInitialSeed := false, pendingNotice := {} }

def detach (s : Subscriber C X T) : Subscriber C X T :=
  { s with pending := false, pendingInitialSeed := false }

end Subscriber

namespace NotificationChannel

/-- Replace one slot. -/
def setSubscriber (c : NotificationChannel C X T) (i : Slot) (s : Subscriber C X T) :
    NotificationChannel C X T :=
  { c with subscribers := Function.update c.subscribers i s }

/-- The first free slot in index order. -/
def freeSlot (c : NotificationChannel C X T) : Option Slot :=
  (List.finRange _).find? fun i => !(c.subscribers i).active

def subscribe (channelId : BitVec 16) (c : NotificationChannel C X T) (callback : Option C)
    (context : Option X) :
    Except NotificationStatus (NotificationHandle × NotificationChannel C X T) :=
  if c.callbackActive || c.running then .error .invalidState
  else match callback with
    | none => .error .invalidCallback
    | some callback =>
      match c.freeSlot with
      | none => .error .capacityExceeded
      | some i =>
        let s := (c.subscribers i).register callback context c.nextRegistrationOrder
        let next := c.nextRegistrationOrder + 1
        .ok (⟨channelId, BitVec.ofNat 8 i, s.generation⟩,
          { c.setSubscriber i s with nextRegistrationOrder := if next = 0 then 1 else next })

def findSubscriber (channelId : BitVec 16) (c : NotificationChannel C X T)
    (handle : NotificationHandle) : Option Slot :=
  if h : handle.channel = channelId ∧ handle.slot.toNat < notificationSubscribersPerChannel then
    let i : Slot := ⟨handle.slot.toNat, h.2⟩
    if (c.subscribers i).active ∧ (c.subscribers i).generation = handle.generation then some i
    else none
  else none

def unsubscribe (channelId : BitVec 16) (c : NotificationChannel C X T)
    (handle : NotificationHandle) : Except NotificationStatus (NotificationChannel C X T) :=
  if c.callbackActive || c.running then .error .invalidState
  else match c.findSubscriber channelId handle with
    | none => .error .invalidSubscription
    | some i => .ok (c.setSubscriber i (c.subscribers i).release)

def start (c : NotificationChannel C X T) :
    Except NotificationStatus (NotificationChannel C X T) :=
  if c.callbackActive || c.running then .error .alreadyRunning
  else .ok { c with
    running := true
    dispatching := false
    dispatchCursorOrder := 0
    current := {}
    hasAvailablePeriod := false
    subscribers := fun i => (c.subscribers i).seed {} }

def stop (c : NotificationChannel C X T) :
    Except NotificationStatus (NotificationChannel C X T) :=
  if c.callbackActive || c.dispatching then .error .invalidState
  else if !c.running then .error .notRunning
  else .ok { c with
    running := false
    hasAvailablePeriod := false
    subscribers := fun i => (c.subscribers i).discard }

/-- The notice that one change contributes to every active slot. -/
def updateOf (c : NotificationChannel C X T) (reading : Reading T) : Notification T where
  current := reading
  becameUnavailable := available c.current && !available reading
  recovered := !available c.current && available reading && c.hasAvailablePeriod

/-- The state after a reading that differs from the current one. -/
def change (c : NotificationChannel C X T) (reading : Reading T) : NotificationChannel C X T :=
  { c with
    current := reading
    hasAvailablePeriod := c.hasAvailablePeriod || available reading
    subscribers := fun i =>
      if (c.subscribers i).active then (c.subscribers i).mergePending (c.updateOf reading)
      else c.subscribers i }

def publish [BEq T] (c : NotificationChannel C X T) (reading : Reading T) :
    Except NotificationStatus (NotificationChannel C X T) :=
  if !c.running then .error .notRunning
  else if sameReading c.current reading then .ok c
  else .ok (c.change reading)

/-- One iteration of either loop of `next_pending_subscriber`. -/
def selectOlder (c : NotificationChannel C X T) (qualifies : Slot → Bool)
    (selected : Option Slot) (i : Slot) : Option Slot :=
  if !((c.subscribers i).active && (c.subscribers i).pending && qualifies i) then selected
  else match selected with
    | none => some i
    | some j =>
      if (c.subscribers i).registrationOrder < (c.subscribers j).registrationOrder then some i
      else some j

/-- The pending slot of least registration order among those that qualify. -/
def oldestPending (c : NotificationChannel C X T) (qualifies : Slot → Bool) : Option Slot :=
  (List.finRange _).foldl (c.selectOlder qualifies) none

/-- The next slot after the cursor, wrapping to the oldest pending registration. -/
def nextPendingSubscriber (c : NotificationChannel C X T) : Option Slot :=
  match c.oldestPending fun i => c.dispatchCursorOrder < (c.subscribers i).registrationOrder with
  | some i => some i
  | none => c.oldestPending fun _ => true

/-- The first locked section of `dispatch_one`. -/
def dispatchBegin (c : NotificationChannel C X T) :
    Except NotificationStatus (Delivery C X T × NotificationChannel C X T) :=
  if !c.running then .error .notRunning
  else if c.callbackActive || c.dispatching then .error .invalidState
  else match c.nextPendingSubscriber with
    | none => .error .noPending
    | some i =>
      let s := c.subscribers i
      .ok (⟨i, s.callback, s.context, s.pendingNotice⟩,
        { c.setSubscriber i s.detach with
          dispatchCursorOrder := s.registrationOrder
          dispatching := true
          callbackActive := true })

/-- The second locked section of `dispatch_one`. -/
def dispatchEnd (c : NotificationChannel C X T) : NotificationChannel C X T :=
  { c with callbackActive := false, dispatching := false }

end NotificationChannel

/-! ### The channel under concurrent callers -/

namespace NotificationChannel

/-- The channel with the callbacks that are in progress, one for each dispatch
between its two sections. -/
structure System (C X T : Type*) where
  channel : NotificationChannel C X T := {}
  callbacks : List (Delivery C X T) := []

/-- One locked section of some thread; `dispatchEnd k` is the second section of
the dispatch whose callback is the `k`-th one in progress. -/
inductive Choice (C X T : Type*)
  | subscribe (callback : Option C) (context : Option X)
  | unsubscribe (handle : NotificationHandle)
  | start
  | stop
  | publish (reading : Reading T)
  | dispatchBegin
  | dispatchEnd (k : ℕ)

variable [BEq T] (channelId : BitVec 16)

/-- A rejected operation leaves the channel as it was. -/
def System.next (s : System C X T) : Choice C X T → Option (System C X T)
  | .subscribe callback context =>
    match s.channel.subscribe channelId callback context with
    | .ok (_, c) => some { s with channel := c }
    | .error _ => some s
  | .unsubscribe handle =>
    match s.channel.unsubscribe channelId handle with
    | .ok c => some { s with channel := c }
    | .error _ => some s
  | .start =>
    match s.channel.start with
    | .ok c => some { s with channel := c }
    | .error _ => some s
  | .stop =>
    match s.channel.stop with
    | .ok c => some { s with channel := c }
    | .error _ => some s
  | .publish reading =>
    match s.channel.publish reading with
    | .ok c => some { s with channel := c }
    | .error _ => some s
  | .dispatchBegin =>
    match s.channel.dispatchBegin with
    | .ok (d, c) => some { channel := c, callbacks := s.callbacks ++ [d] }
    | .error _ => some s
  | .dispatchEnd k =>
    if k < s.callbacks.length then
      some { channel := s.channel.dispatchEnd, callbacks := s.callbacks.eraseIdx k }
    else none

end NotificationChannel

end CanTelemetry.VehicleCore
