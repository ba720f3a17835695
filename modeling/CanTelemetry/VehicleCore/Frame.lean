import CanTelemetry.VehicleCore.Contracts
import Mathlib.Data.Nat.Notation

/-! Receive-only classic CAN frames. -/

namespace CanTelemetry.VehicleCore

def canClassicPayloadBytes : ℕ := 8

/-- The underlying byte can hold a value outside the enumeration. -/
inductive CanIdentifierFormat
  | standard | extended | outOfEnum (raw : BitVec 8)
  deriving DecidableEq, Repr

structure RawCanFrame where
  timestampUs : MonotonicTimestamp := 0
  busId : BitVec 8 := 0
  identifier : BitVec 32 := 0
  identifierFormat : CanIdentifierFormat := .standard
  remoteRequest : Bool := false
  dlc : BitVec 8 := 0
  data : Vector (BitVec 8) canClassicPayloadBytes := Vector.replicate canClassicPayloadBytes 0
  deriving DecidableEq

instance : Inhabited RawCanFrame := ⟨{}⟩

namespace RawCanFrame

def isValid (frame : RawCanFrame) : Bool :=
  if frame.dlc.toNat > canClassicPayloadBytes then false
  else match frame.identifierFormat with
    | .standard => frame.identifier ≤ 0x7ff
    | .extended => frame.identifier ≤ 0x1fffffff
    | .outOfEnum _ => false

def isExtended (frame : RawCanFrame) : Bool :=
  frame.identifierFormat = .extended

end RawCanFrame

end CanTelemetry.VehicleCore
