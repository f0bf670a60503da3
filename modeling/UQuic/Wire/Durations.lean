/-
# `UQuic.Wire.Durations` — durations that the peer sends

The ACK delay is scaled by an exponent and by 1000, the idle timeout by 1000000, each to an
`int64` of nanoseconds.  Both products can leave 64 bits:

    product, as a value of 64 bits    below 2^63            from 2^63
    delay                             the value             negative, so largest
    timeout                           the value             negative, so least

So a delay saturates as it should iff it is below 2^63 ns, or leaves at least 2^63 modulo 2^64,
and a timeout iff it is below 2^63 ns; otherwise a larger field may yield a shorter duration.
-/
import UQuic.Wire.AckEncoding
import UQuic.Wire.TransportParameters

namespace UQuic.Wire

open QuicVarint (encode read)

/-! ## Numeric parameters of the peer -/

namespace TransportParameters

/-- `protocol.MinRemoteIdleTimeout`: 5 s. -/
def minRemoteIdleTimeout : Int := 5000000000

/-- Why a numeric parameter is refused. -/
inductive NumericError
  /-- `error while reading transport parameter %d: %s`. -/
  | reading (paramID : Nat)
  /-- `inconsistent transport parameter length for transport parameter %#x`. -/
  | inconsistentLength (paramID : Nat)
  /-- `initial_max_streams_bidi too large: %d (maximum %d)`, or `initial_max_streams_uni`. -/
  | tooManyStreams (paramID : Nat) (n : Int)
  /-- `invalid value for …`. -/
  | invalidValue (paramID : Nat) (val : UInt64)
  /-- `TransportParameter BUG: transport parameter %d not found`. -/
  | notFound (paramID : Nat)

/-- `readNumericTransportParameter`. -/
def readNumericTransportParameter (p : TransportParameters) (b : List UInt8)
    (paramID expectedLen : Nat) : Except NumericError TransportParameters :=
  match QuicVarint.parse b with
  | none => .error (.reading paramID)
  | some (n, l) =>
    let val : UInt64 := .ofNat n
    if l ≠ expectedLen then .error (.inconsistentLength paramID)
    else match paramID with
    | 0x5 => .ok { p with initialMaxStreamDataBidiLocal := byteCount val }
    | 0x6 => .ok { p with initialMaxStreamDataBidiRemote := byteCount val }
    | 0x7 => .ok { p with initialMaxStreamDataUni := byteCount val }
    | 0x4 => .ok { p with initialMaxData := byteCount val }
    | 0x8 =>
      if maxStreamCount < byteCount val then .error (.tooManyStreams 0x8 (byteCount val))
      else .ok { p with maxBidiStreamNum := byteCount val }
    | 0x9 =>
      if maxStreamCount < byteCount val then .error (.tooManyStreams 0x9 (byteCount val))
      else .ok { p with maxUniStreamNum := byteCount val }
    | 0x1 => .ok { p with maxIdleTimeout := max minRemoteIdleTimeout (milliseconds val) }
    | 0x3 =>
      if val < 1200 then .error (.invalidValue 0x3 val)
      else .ok { p with maxUDPPayloadSize := byteCount val }
    | 0xa =>
      if 20 < val then .error (.invalidValue 0xa val)
      else .ok { p with ackDelayExponent := val.toNat }
    | 0xb =>
      if 16383 < val then .error (.invalidValue 0xb val)
      else .ok { p with maxAckDelay := milliseconds val }
    | 0xe =>
      if val < 2 then .error (.invalidValue 0xe val)
      else .ok { p with activeConnectionIDLimit := val }
    | 0x20 => .ok { p with maxDatagramFrameSize := byteCount val }
    | _ => .error (.notFound paramID)

/-- The largest duration is odd, and a number of milliseconds is not. -/
theorem milliseconds_saturates_iff {v : Nat} (hv : v < 2 ^ 64) :
    max minRemoteIdleTimeout (milliseconds (.ofNat v)) =
        max minRemoteIdleTimeout (min (v * 1000000 : Nat) (2 ^ 63 - 1)) ↔
      v * 1000000 < 2 ^ 63 := by
  have hvalue : milliseconds (.ofNat v) = ((v * 1000000 : Nat) : Int).bmod (2 ^ 64) := by
    unfold milliseconds
    rw [UInt64.toNat_ofNat', Nat.mod_eq_of_lt hv, Nat.cast_mul, Nat.cast_ofNat]
  have heven : v * 1000000 % 2 = 0 := by omega
  rw [hvalue]
  generalize v * 1000000 = product at heven ⊢
  rw [Int.bmod_def]
  unfold minRemoteIdleTimeout
  rcases Nat.lt_or_ge product (2 ^ 63) with hlt | hge
  · split <;> omega
  · split <;> omega

end TransportParameters

/-! ## The ACK delay -/

namespace AckFrame

variable {typ e la d : Nat} {b b₁ b₂ rest : List UInt8} {f : AckFrame}

theorem varint_of_read {r : Nat × List UInt8} (h : read b = some r) : varint b = .ok r := by
  rw [varint, Parser.ofOption, h]

/-- The second number of the frame is its delay, however it is encoded. -/
theorem delayTime_parse (hla : read b = some (la, b₁)) (hd : read b₁ = some (d, b₂))
    (h : parse typ e b = .ok (f, rest)) : f.delayTime = scaledDelay e d := by
  rw [parse, Parser.bind_apply, varint_of_read hla] at h
  dsimp only at h
  rw [Parser.bind_apply, varint_of_read hd] at h
  dsimp only at h
  generalize scaledDelay e d = delay at h ⊢
  refine (Parser.Returns.bind (Q := fun f : AckFrame => f.delayTime = delay)
    returns_varint fun n _ => returns_varint.bind fun block _ => .bind .check fun _ _ =>
      (returns_rangesField n _).bind fun rs _ => .bind .check fun _ _ => ?_) b₂ f rest h |>.1
  rw [ecnField]
  split
  · exact returns_varint.bind fun _ _ => returns_varint.bind fun _ _ =>
      returns_varint.bind fun _ _ => .pure rfl
  · exact .pure rfl

/-- A product that is not an `int64` turns out negative, or too small: it is even, and the largest
duration is odd. -/
theorem scaledDelay_saturates_iff :
    scaledDelay e d = min ((d * 2 ^ e * 1000 : Nat) : Int) (2 ^ 63 - 1) ↔
      d * 2 ^ e * 1000 < 2 ^ 63 ∨ 2 ^ 63 ≤ d * 2 ^ e * 1000 % 2 ^ 64 := by
  have hproduct : toInt64 (toInt64 (d * 2 ^ e) * 1000) =
      ((d * 2 ^ e * 1000 : Nat) : Int).bmod (2 ^ 64) := by
    rw [toInt64, toInt64, Int.bmod_mul_bmod]
    push_cast
    rfl
  have heven : d * 2 ^ e * 1000 % 2 = 0 := by omega
  simp only [scaledDelay, hproduct]
  generalize d * 2 ^ e * 1000 = product at heven ⊢
  rw [Int.bmod_def]
  rcases Nat.lt_or_ge product (2 ^ 63) with hlt | hge
  · split <;> split <;> omega
  · split <;> split <;> omega

end AckFrame

open TransportParameters

/-- **Durations saturate** iff the delay is below 2^63 ns, or leaves at least 2^63 modulo 2^64,
and iff the timeout is below 2^63 ns. -/
theorem durations_saturate_iff (typ e : Nat) (p : TransportParameters) :
    (∀ d b la b₁ b₂ f rest, read b = some (la, b₁) → read b₁ = some (d, b₂) →
      AckFrame.parse typ e b = .ok (f, rest) →
      (f.delayTime = min ((d * 2 ^ e * 1000 : Nat) : Int) (2 ^ 63 - 1) ↔
        d * 2 ^ e * 1000 < 2 ^ 63 ∨ 2 ^ 63 ≤ d * 2 ^ e * 1000 % 2 ^ 64)) ∧
    ∀ b v n, QuicVarint.parse b = some (v, n) →
      (p.readNumericTransportParameter b 0x1 n = .ok { p with
        maxIdleTimeout := max minRemoteIdleTimeout (min (v * 1000000 : Nat) (2 ^ 63 - 1)) } ↔
        v * 1000000 < 2 ^ 63) := by
  constructor
  · intro d b la b₁ b₂ f rest hlargest hdelay h
    rw [AckFrame.delayTime_parse hlargest hdelay h]
    exact AckFrame.scaledDelay_saturates_iff
  · intro b v n hparse
    have hv : v < 2 ^ 64 := by
      have hle := (QuicVarint.parse_bounds hparse).2
      omega
    rw [← milliseconds_saturates_iff hv, readNumericTransportParameter, hparse]
    simp only [ne_eq, not_true_eq_false, if_false, Except.ok.injEq]
    exact ⟨congrArg maxIdleTimeout, fun h => by rw [h]⟩

/-- A delay that saturates, and a timeout of 30 s. -/
theorem durations_saturate_iff_large :
    (∀ f rest, AckFrame.parse 0x2 3 (encode 7 ++ (encode (2 ^ 51) ++ [0, 0])) = .ok (f, rest) →
      f.delayTime = 2 ^ 63 - 1) ∧
    ∀ p : TransportParameters, p.readNumericTransportParameter (encode 30000) 0x1 4 =
      .ok { p with maxIdleTimeout := 30000000000 } := by
  refine ⟨fun f rest h => ?_, fun p => ?_⟩
  · have hdelay := QuicVarint.read_encode (i := 2 ^ 51) (by decide) [0, 0]
    exact ((durations_saturate_iff 0x2 3 (.ofConnectionID .empty)).1 (2 ^ 51) _ _ _ _ f rest
      (QuicVarint.read_encode (by decide) _) hdelay h).mpr (.inr (by decide))
  · have hparse : QuicVarint.parse (encode 30000) = some (30000, 4) := by decide +kernel
    exact ((durations_saturate_iff 0x2 3 p).2 _ _ _ hparse).mpr (by decide)

/-- A delay of more than 500000 years is read as 0, and a timeout of more than 9000000 years as
the least one. -/
theorem durations_wrap :
    AckFrame.parse 0x2 3 (encode 7 ++ (encode (2 ^ 61) ++ [0, 0])) =
      .ok (⟨[⟨7, 7⟩], 0, 0, 0, 0⟩, []) ∧
    ∀ p : TransportParameters, p.readNumericTransportParameter (encode (2 ^ 58)) 0x1 8 =
      .ok { p with maxIdleTimeout := minRemoteIdleTimeout } := by
  refine ⟨by decide +kernel, fun p => ?_⟩
  have hparse : QuicVarint.parse (encode (2 ^ 58)) = some (2 ^ 58, 8) := by decide +kernel
  have hwrap : milliseconds (.ofNat (2 ^ 58)) = 0 := by decide +kernel
  simp only [readNumericTransportParameter, hparse, hwrap]
  rfl

end UQuic.Wire
