/-
# `UQuic.Protocol` — the types and constants shared by every component

`internal/protocol`: packet numbers, byte counts and stream numbers are the
source's `int64`s, written as `Int` (no modelled operation comes near the
64-bit limits; where one does, its bound is stated there).  Times are
nanosecond counts with `0` for Go's zero time, so `IsZero` is a comparison.
-/
import Mathlib

namespace UQuic

/-- `protocol.InvalidPacketNumber`: never sent; `0` is a valid packet number. -/
def invalidPacketNumber : Int := -1

def maxByteCount : Nat := 2 ^ 62 - 1

/-- `protocol.MaxStreamCount`: the largest value a MAX_STREAMS frame can carry. -/
def maxStreamCount : Nat := 2 ^ 60

/-- `time.Time.IsZero`. -/
def isZeroTime (t : Int) : Bool := t == 0

/-- `protocol.EncryptionLevel`. -/
inductive EncryptionLevel
  | initial
  | handshake
  | zeroRTT
  | oneRTT
  deriving DecidableEq, Repr

/-- `protocol.Perspective`. -/
inductive Perspective
  | client
  | server
  deriving DecidableEq, Repr

/-- `protocol.ECN`. -/
inductive ECN
  | unsupported
  | non
  | ect1
  | ect0
  | ce
  deriving DecidableEq, Repr

/-! ## `params.go` -/

/-- The number of ACK ranges we keep track of. -/
def maxNumAckRanges : Nat := 32

/-- The time an ACK may be held back: 25 ms. -/
def maxAckDelay : Int := 25000000

end UQuic
