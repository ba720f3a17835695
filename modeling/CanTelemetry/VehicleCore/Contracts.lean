import Mathlib.Data.Option.Basic

/-! The value vocabulary of the portable core: timestamps, availability of a
semantic reading, and the notice delivered to a subscriber. -/

namespace CanTelemetry.VehicleCore

/-- Monotonic microseconds; the source type is `std::uint64_t`. -/
abbrev MonotonicTimestamp := BitVec 64

abbrev Microseconds := BitVec 64

/-- `freshnessUnverified` is not a synonym for `fresh`. -/
inductive Availability
  | noData | fresh | stale | freshnessUnverified | unavailable
  deriving DecidableEq, Repr

inductive ValidationStatus
  | reference | observed | confirmed
  deriving DecidableEq, Repr

inductive TransportHealth
  | awaitingTraffic | live | timedOut | faulted | stopped
  deriving DecidableEq, Repr

/-- A semantic value with its availability; `Reading<T>{}` is the default. -/
structure Reading (T : Type*) where
  value : Option T := none
  availability : Availability := .noData
  validation : ValidationStatus := .reference

structure Notification (T : Type*) where
  current : Reading T := {}
  initial : Bool := false
  becameUnavailable : Bool := false
  recovered : Bool := false
  coalesced : Bool := false

end CanTelemetry.VehicleCore
