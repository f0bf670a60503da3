/-
# `UQuic.UTransport` — connections from a profile

`u_transport.go`, `newUClientConnection` of `u_connection.go`, and `config.go`: a dial from its
`Config` to the connection.  What a client does comes from different places:

    QUICSpec    ──newUClientConnection──▶    the transport parameters on the wire, the layout of
                                             Initial packets, the length of the packet number
    Config      ──populateConfig, preSetup──▶  windows, stream limits, frame parser, token
    Transport   ──init──▶                    the generator of the source connection ID

The profile is shared: `PopulateFromUQUIC` writes into the parameter list that belongs
to the `QUICSpec`, so the transport after a call of `doDial` has the profile that this call
leaves for the next one.  `QUICSpec` is not nil.

## What is proved

`doDials_sendOwnID_iff`: connections from one profile, whose source connection ID is left
open, all send their own ID iff every ID after a non-empty one is equal to it.  So a
profile cannot be used twice with IDs of its own (`doDials_sendFirstID`).

## How

The list carries one source connection ID at any time (`CarriesID`).  It is filled in by
the first connection with a non-empty ID, and every later connection sends it.
-/
import UQuic.AckHandler.PacketNumbers
import UQuic.ConnIDGenerator
import UQuic.FlowControl
import UQuic.InitialDatagram
import UQuic.PacketHandlerMap
import UQuic.StreamsMapIncoming
import UQuic.Wire.FrameParser
import UQuic.Wire.TransportParameters

namespace UQuic

open List Option
open AckHandler (SentPacketHandler USentPacketHandler)
open FlowControl (ConnectionFlowController StreamFlowController)
open Wire (ConnectionID PacketNumberLen TransportParameter TransportParameters byteCount uint64)
open Wire.TransportParameters (Grease CarriesID)

/-! ## `Config` -/

/-- `TokenStore`: what `Pop` returns for a key. -/
structure TokenStore where
  pop : String → Option (List UInt8)

/-- `Config`, what a client's limits and its token depend on. -/
structure Config where
  versions : List Nat
  maxIdleTimeout : Int
  tokenStore : Option TokenStore
  initialStreamReceiveWindow : UInt64
  maxStreamReceiveWindow : UInt64
  initialConnectionReceiveWindow : UInt64
  maxConnectionReceiveWindow : UInt64
  maxIncomingStreams : Int
  maxIncomingUniStreams : Int
  enableDatagrams : Bool
  maxIncomingDatagramPayloadSize : Int
  initialPacketSize : UInt16

namespace Config

/-- `&Config{}`. -/
def zero : Config := ⟨[], 0, none, 0, 0, 0, 0, 0, 0, false, 0, 0⟩

def supportedVersions : List Nat := [Wire.Version.v1.number, Wire.Version.v2.number]

/-- The errors of `validateConfig`. -/
inductive Error
  | maxIncomingDatagramPayloadSize (n : Int)
  | version (v : Nat)
  deriving DecidableEq, Repr

/-- The limits that `validateConfig` writes into the configuration. -/
def capped (config : Config) : Config := { config with
  maxIncomingStreams := min config.maxIncomingStreams (2 ^ 60)
  maxIncomingUniStreams := min config.maxIncomingUniStreams (2 ^ 60)
  maxStreamReceiveWindow := min config.maxStreamReceiveWindow (.ofNat QuicVarint.maxVarInt8)
  maxConnectionReceiveWindow := min config.maxConnectionReceiveWindow (.ofNat QuicVarint.maxVarInt8)
  initialPacketSize :=
    if 1452 < config.initialPacketSize then 1452
    else if 0 < config.initialPacketSize ∧ config.initialPacketSize < 1200 then 1200
    else config.initialPacketSize }

/-- `validateConfig`, with the configuration as it leaves it. -/
def validateConfig (config : Config) : Except Error Config :=
  if config.maxIncomingDatagramPayloadSize < 0 then
    .error (.maxIncomingDatagramPayloadSize config.maxIncomingDatagramPayloadSize)
  else
    match config.versions.find? (· ∉ supportedVersions) with
    | some v => .error (.version v)
    | none => .ok config.capped

def orDefault {α : Type} [DecidableEq α] (zero : α) (v default : α) : α :=
  if v = zero then default else v

/-- The number of streams: zero for the default, a negative number for none. -/
def streamsOrDefault (n default : Int) : Int :=
  if n = 0 then default else if n < 0 then 0 else n

/-- `populateConfig` for a configuration that is not nil. -/
def populate (config : Config) : Config where
  versions := if config.versions = [] then supportedVersions else config.versions
  maxIdleTimeout := orDefault 0 config.maxIdleTimeout 30000000000
  tokenStore := config.tokenStore
  initialStreamReceiveWindow := orDefault 0 config.initialStreamReceiveWindow (2 ^ 10 * 512)
  maxStreamReceiveWindow := orDefault 0 config.maxStreamReceiveWindow (6 * 2 ^ 20)
  initialConnectionReceiveWindow :=
    orDefault 0 config.initialConnectionReceiveWindow (2 ^ 10 * 512 * 3 / 2)
  maxConnectionReceiveWindow := orDefault 0 config.maxConnectionReceiveWindow (15 * 2 ^ 20)
  maxIncomingStreams := streamsOrDefault config.maxIncomingStreams 100
  maxIncomingUniStreams := streamsOrDefault config.maxIncomingUniStreams 100
  enableDatagrams := config.enableDatagrams
  maxIncomingDatagramPayloadSize := config.maxIncomingDatagramPayloadSize
  initialPacketSize := orDefault 0 config.initialPacketSize 1280

/-- `populateConfig`; `none` is nil. -/
def populateConfig (config : Option Config) : Config := (config.getD zero).populate

/-- `Versions[0]`, one of those that `validateConfig` accepts. -/
def firstVersion (config : Config) : Wire.Version :=
  if config.versions.head? = some Wire.Version.v2.number then .v2 else .v1

end Config

/-! ## Profiles -/

/-- `tls.TLSExtension`: transport parameters, or something else. -/
inductive TLSExtension
  | quicTransportParameters (params : Option (List TransportParameter))
  | other (id : Nat)
  deriving DecidableEq, Repr

/-- `InitialPacketSpec`, the fields of the header.  `none` for a length of the packet number is
zero; no other value than 1 to 4 can be written. -/
structure InitialPacketSpec where
  srcConnIDLength : Int
  destConnIDLength : Int
  initPacketNumberLength : Option PacketNumberLen
  initPacketNumber : UInt64
  tokenStore : Option TokenStore
  clientTokenLength : Int

/-- `QUICSpec`, with the extensions of its `ClientHelloSpec`. -/
structure ClientSpec extends QUICSpec where
  initialPacketSpec : InitialPacketSpec
  clientHelloSpec : Option (List TLSExtension)

/-! ## Connection IDs -/

theorem length_draw_le {l : Int} {random : Nat → UInt8} (hl : l ≤ 20) :
    ((List.range l.toNat).map random).length ≤ 20 := by
  rw [List.length_map, List.length_range]
  omega

/-- `protocol.GenerateConnectionID`, which panics if the array is too short. -/
def generateConnectionID (l : Int) (random : Nat → UInt8) : Option ConnectionID :=
  if h : 0 ≤ l ∧ l ≤ 20 then some ⟨(List.range l.toNat).map random, length_draw_le h.2⟩ else none

/-- `generateConnectionIDForInitial`; the first byte decides the length. -/
def generateConnectionIDForInitial (r : UInt8) (random : Nat → UInt8) : Option ConnectionID :=
  generateConnectionID (8 + r.toNat % (20 - 8 + 1)) random

/-- `DefaultConnectionIDGenerator`, with the bytes that each of its calls draws. -/
def defaultConnectionIDGenerator (connLen : Int) (random : Nat → Nat → UInt8) :
    ConnectionIDGenerator :=
  ⟨connLen.toNat, fun call => generateConnectionID connLen (random call)⟩

def expEmptyConnectionIDGenerator : ConnectionIDGenerator := ⟨0, fun _ => some .empty⟩

/-! ## Connections -/

/-- What a dial draws, and what it is given from outside. -/
structure Draws where
  /-- The bytes for each source connection ID. -/
  srcConnID : Nat → Nat → UInt8
  /-- The calls of the generator before. -/
  call : Nat
  destConnIDLen : UInt8
  destConnID : Nat → UInt8
  /-- For the generators of packet numbers. -/
  rnd : Nat
  grease : Grease
  /-- The streams, the queues and the keys that `newUPacketPacker` gets. -/
  packer : UPacketPacker

/-- The arguments of `doDial`, with the key of the token store. -/
structure Dial where
  config : Config
  initialPacketNumber : Nat
  version : Wire.Version
  tokenStoreKey : String
  draws : Draws

/-- A client connection after `newUClientConnection`; `sent` is what `Marshal` gave to TLS. -/
structure UConnection where
  config : Config
  packer : UPacketPacker
  params : TransportParameters
  sent : List TransportParameter
  connectionIDLimit : UInt64
  frameParser : Wire.FrameParser
  connFlowController : ConnectionFlowController
  maxIncomingBidiStreams : UInt64
  maxIncomingUniStreams : UInt64

namespace UConnection

/-- What the packer writes into the headers. -/
def srcConnID (s : UConnection) : ConnectionID := s.packer.srcConnID

/-- The parameters of a connection without a `ClientHelloSpec`. -/
def defaultParams (config : Config) (srcConnID : ConnectionID) : TransportParameters where
  initialMaxStreamDataBidiLocal := byteCount config.initialStreamReceiveWindow
  initialMaxStreamDataBidiRemote := byteCount config.initialStreamReceiveWindow
  initialMaxStreamDataUni := byteCount config.initialStreamReceiveWindow
  initialMaxData := byteCount config.initialConnectionReceiveWindow
  maxAckDelay := maxAckDelay + 1000000
  ackDelayExponent := 3
  disableActiveMigration := true
  maxUDPPayloadSize := maxPacketBufferSize
  maxUniStreamNum := config.maxIncomingUniStreams
  maxBidiStreamNum := config.maxIncomingStreams
  maxIdleTimeout := config.maxIdleTimeout
  initialSourceConnectionID := srcConnID
  activeConnectionIDLimit := 4
  maxDatagramFrameSize := if config.enableDatagrams then 16383 else Wire.invalidByteCount
  clientOverride := none

/-- The loop of `newUClientConnection` over the extensions: the first one with transport
parameters counts, and without one it panics. -/
def populateFirst (tp : TransportParameters) :
    List TLSExtension → Option (TransportParameters × List TLSExtension)
  | [] => none
  | .other id :: exts => (populateFirst tp exts).map fun (tp, exts) => (tp, .other id :: exts)
  | .quicTransportParameters none :: exts => some (tp, .quicTransportParameters none :: exts)
  | .quicTransportParameters (some params) :: exts =>
    (tp.populateFromUQUIC params).map fun (tp, params) =>
      (tp, .quicTransportParameters (some params) :: exts)

/-- The packer, with the token that `SetToken` gets. -/
def newPacker (d : Dial) (destConnID srcConnID : ConnectionID) (uSpec : ClientSpec) :
    UPacketPacker :=
  let h : USentPacketHandler := ⟨.new d.initialPacketNumber false .client d.draws.rnd,
    uSpec.initialPacketSpec.initPacketNumberLength⟩
  { d.draws.packer with
    srcConnID := srcConnID
    destConnID := destConnID
    perspective := .client
    token := (d.config.tokenStore.bind (·.pop d.tokenStoreKey)).getD []
    pnManager := fun encLevel => (h.peekPacketNumber encLevel).toOption.getD (0, .two)
    acks_sendable := d.draws.packer.acks_sendable
    version := d.version
    uSpec := uSpec.toQUICSpec }

/-- The connection for given parameters: `preSetup`, and what is made of the parameters. -/
def ofParams (config : Config) (packer : UPacketPacker) (grease : Grease)
    (params : TransportParameters) : UConnection where
  config := config
  packer := packer
  params := params
  sent := params.marshal grease
  connectionIDLimit := params.activeConnectionIDLimit
  frameParser := ⟨0, config.enableDatagrams⟩
  connFlowController := .new (byteCount config.initialConnectionReceiveWindow)
    (byteCount config.maxConnectionReceiveWindow)
  maxIncomingBidiStreams := uint64 config.maxIncomingStreams
  maxIncomingUniStreams := uint64 config.maxIncomingUniStreams

/-- `newUClientConnection`, with the profile as it leaves it. -/
def newUClientConnection (d : Dial) (destConnID srcConnID : ConnectionID) (uSpec : ClientSpec) :
    Option (UConnection × ClientSpec) :=
  let conn := ofParams d.config (newPacker d destConnID srcConnID uSpec) d.draws.grease
  match uSpec.clientHelloSpec with
  | none => some (conn (defaultParams d.config srcConnID), uSpec)
  | some exts =>
    (populateFirst (.ofConnectionID srcConnID) exts).map fun (params, exts) =>
      (conn params, { uSpec with clientHelloSpec := some exts })

end UConnection

/-! ## Dialing -/

/-- `UTransport`, with its `Transport`.  `connIDGenerator` is what `init` has stored, `none` before;
`dialed` counts the connections. -/
structure UTransport where
  connectionIDGenerator : Option ConnectionIDGenerator
  connectionIDLength : Int
  isSingleUse : Bool
  connIDGenerator : Option ConnectionIDGenerator
  closed : Bool
  handlerMap : PacketHandlerMap
  dialed : Nat
  quicSpec : ClientSpec

namespace UTransport

/-- The errors of `dial`. -/
inductive DialError
  | config (e : Config.Error)
  | minimumDatagramSize (minimum maximum : Int)
  /-- No connection ID was generated. -/
  | connectionID
  | transportClosed
  | panicked
  deriving DecidableEq, Repr

/-- The generator that `init` chooses. -/
def chooseGenerator (t : UTransport) (d : Draws) : ConnectionIDGenerator :=
  match t.connectionIDGenerator with
  | some g => g
  | none => defaultConnectionIDGenerator
      (if t.connectionIDLength = 0 ∧ t.isSingleUse = false then 4 else t.connectionIDLength)
      d.srcConnID

/-- `init`, which runs once. -/
def init (t : UTransport) (d : Draws) : UTransport :=
  { t with connIDGenerator := some (t.connIDGenerator.getD (t.chooseGenerator d)) }

/-- `doDial`, up to where the connection runs.  The result of `Add` is not looked at. -/
def doDial (t : UTransport) (d : Dial) : Except DialError (UConnection × UTransport) :=
  match t.connIDGenerator.bind (·.generateConnectionID d.draws.call),
      generateConnectionIDForInitial d.draws.destConnIDLen d.draws.destConnID with
  | some srcConnID, some destConnID =>
    if t.closed then .error .transportClosed
    else
      match UConnection.newUClientConnection d destConnID srcConnID t.quicSpec with
      | none => .error .panicked
      | some (conn, quicSpec) => .ok (conn, { t with
          handlerMap := (t.handlerMap.add srcConnID (.conn t.dialed)).1
          dialed := t.dialed + 1
          quicSpec := quicSpec })
  | _, _ => .error .connectionID

/-- Connections one after the other, from one profile. -/
def doDials (t : UTransport) : List Dial → Except DialError (List UConnection)
  | [] => .ok []
  | d :: ds => (t.doDial d).bind fun (conn, t) => (doDials t ds).map (conn :: ·)

/-- `validateConfig`, which accepts nil. -/
def validate (conf : Option Config) : Except DialError (Option Config) :=
  match conf with
  | none => .ok none
  | some conf => (conf.validateConfig.map some).mapError .config

/-- The configuration that `dial` passes on. -/
def dialConfig (conf : Option Config) (quicSpec : ClientSpec) : Config :=
  let unset := (conf.map (·.initialPacketSize)).getD 0 = 0
  let conf := Config.populateConfig conf
  if unset ∧ conf.initialPacketSize.toNat < quicSpec.udpDatagramMinSize then
    { conf with initialPacketSize := .ofNat quicSpec.udpDatagramMinSize.toNat }
  else conf

/-- `dial`.  What it stores in `ConnectionIDGenerator` comes too late for `init`. -/
def dial (t : UTransport) (conf : Option Config) (tokenStoreKey : String) (d : Draws) :
    Except DialError (UConnection × UTransport) :=
  (validate conf).bind fun conf =>
    if maxPacketBufferSize < t.quicSpec.udpDatagramMinSize then
      .error (.minimumDatagramSize t.quicSpec.udpDatagramMinSize maxPacketBufferSize)
    else
      let config := dialConfig conf t.quicSpec
      let length := t.quicSpec.initialPacketSpec.srcConnIDLength
      { t.init d with
        connectionIDGenerator :=
          some (if length ≠ 0 then defaultConnectionIDGenerator length d.srcConnID
          else expEmptyConnectionIDGenerator) }.doDial
            ⟨config, 0, config.firstVersion, tokenStoreKey, d⟩

variable {t t' : UTransport} {d : Dial} {conn : UConnection}

/-- **What a dial does**: a connection is made for two connection IDs, and registered for one of
them. -/
theorem doDial_eq_ok (h : t.doDial d = .ok (conn, t')) : ∃ srcConnID destConnID quicSpec,
    t.connIDGenerator.bind (·.generateConnectionID d.draws.call) = some srcConnID ∧
    generateConnectionIDForInitial d.draws.destConnIDLen d.draws.destConnID = some destConnID ∧
    UConnection.newUClientConnection d destConnID srcConnID t.quicSpec = some (conn, quicSpec) ∧
    t' = { t with
      handlerMap := (t.handlerMap.add srcConnID (.conn t.dialed)).1
      dialed := t.dialed + 1
      quicSpec := quicSpec } := by
  rw [doDial] at h
  split at h
  · rename_i srcConnID destConnID hsrc hdest
    split_ifs at h
    split at h
    · cases h
    · rename_i conn' quicSpec hconn
      cases h
      exact ⟨srcConnID, destConnID, quicSpec, hsrc, hdest, hconn, rfl⟩
  · cases h

/-- A connection is made of its configuration, its packer and its parameters. -/
theorem newUClientConnection_eq_some {destConnID srcConnID : ConnectionID} {spec spec' : ClientSpec}
    (h : UConnection.newUClientConnection d destConnID srcConnID spec = some (conn, spec')) :
    ∃ params, conn = UConnection.ofParams d.config
      (UConnection.newPacker d destConnID srcConnID spec) d.draws.grease params := by
  rw [UConnection.newUClientConnection] at h
  split at h
  · cases h
    exact ⟨_, rfl⟩
  · obtain ⟨⟨params, exts⟩, -, heq⟩ := map_eq_some_iff.mp h
    cases heq
    exact ⟨params, rfl⟩

theorem validate_eq {conf conf' : Option Config} (h : validate conf = .ok conf') :
    conf' = conf.map Config.capped := by
  cases conf with
  | none =>
    cases h
    rfl
  | some conf =>
    simp only [validate, Config.validateConfig] at h
    split at h
    · cases h
    · split at h
      · cases h
      · cases h
        rfl

/-- A dial goes on to `doDial` on the transport that `init` leaves, with the profile as it is. -/
theorem dial_eq_ok {conf : Option Config} {key : String} {draws : Draws}
    (h : t.dial conf key draws = .ok (conn, t')) : ∃ conf' g,
    validate conf = .ok conf' ∧
    { t.init draws with connectionIDGenerator := g }.doDial ⟨dialConfig conf' t.quicSpec, 0,
      (dialConfig conf' t.quicSpec).firstVersion, key, draws⟩ = .ok (conn, t') := by
  obtain ⟨conf', hconf, h⟩ := Except.bind_eq_ok_iff.mp h
  split_ifs at h
  exact ⟨conf', _, hconf, h⟩

/-- The packet handler map is told of the connection, as `DialingTransport` has it. -/
theorem doDial_registers {conns : List DialedConn} (h : t.doDial d = .ok (conn, t'))
    (hconns : conns.length = t.dialed) :
    t'.handlerMap = (DialingTransport.register
    ⟨t.handlerMap, conns⟩ conn.srcConnID).handlerMap := by
  obtain ⟨srcConnID, destConnID, spec, -, -, hconn, rfl⟩ := doDial_eq_ok h
  obtain ⟨params, rfl⟩ := newUClientConnection_eq_some hconn
  rw [DialingTransport.register, hconns]
  rfl

end UTransport

/-! ## Source connection IDs -/

variable {b : List UInt8} {exts exts' : List TLSExtension} {tp tp' : TransportParameters}

/-- The first transport parameters among the extensions carry the source connection ID `b`. -/
def CarriesSourceID (b : List UInt8) : List TLSExtension → Prop
  | [] => False
  | .other _ :: exts => CarriesSourceID b exts
  | .quicTransportParameters none :: _ => False
  | .quicTransportParameters (some params) :: _ => CarriesID b params

/-- A profile that leaves the source connection ID open, or has it filled in. -/
def ClientSpec.Carries (b : List UInt8) (spec : ClientSpec) : Prop :=
  ∃ exts, spec.clientHelloSpec = some exts ∧ CarriesSourceID b exts

namespace UConnection

def SendsOwnID (s : UConnection) : Prop := CarriesID s.srcConnID.bytes s.sent

theorem populateFirst_carries (hid : CarriesSourceID b exts)
    (h : populateFirst tp exts = some (tp', exts')) : ∃ params, tp'.clientOverride = some params ∧
      CarriesID (if b = [] then tp.initialSourceConnectionID.bytes else b) params ∧
      CarriesSourceID (if b = [] then tp.initialSourceConnectionID.bytes else b) exts' := by
  induction exts generalizing exts' with
  | nil => exact hid.elim
  | cons ext exts ih =>
    cases ext with
    | other id =>
      obtain ⟨⟨tp₁, exts₁⟩, hrest, heq⟩ := map_eq_some_iff.mp h
      cases heq
      obtain ⟨params, hoverride, hcarries, hnext⟩ := ih hid hrest
      exact ⟨params, hoverride, hcarries, hnext⟩
    | quicTransportParameters params =>
      cases params with
      | none => exact hid.elim
      | some params =>
        obtain ⟨⟨tp₁, params₁⟩, hparams, heq⟩ := map_eq_some_iff.mp h
        cases heq
        obtain ⟨hcarries, hoverride⟩ :=
          Wire.TransportParameters.populateFromUQUIC_carries hid hparams
        exact ⟨params₁, hoverride, hcarries, hcarries⟩

end UConnection

namespace UTransport

open UConnection (SendsOwnID)

variable {t t' : UTransport} {d : Dial} {conn : UConnection} {ds : List Dial}
  {conns : List UConnection}

/-- **One connection** sends the ID of the profile, or fills in its own. -/
theorem doDial_carries (hid : t.quicSpec.Carries b) (h : t.doDial d = .ok (conn, t')) :
    CarriesID (if b = [] then conn.srcConnID.bytes else b) conn.sent ∧
      t'.quicSpec.Carries (if b = [] then conn.srcConnID.bytes else b) := by
  obtain ⟨exts, hspec, hcarries⟩ := hid
  obtain ⟨srcConnID, destConnID, spec, -, -, hconn, rfl⟩ := doDial_eq_ok h
  rw [UConnection.newUClientConnection, hspec] at hconn
  obtain ⟨⟨params, exts'⟩, hpopulate, heq⟩ := map_eq_some_iff.mp hconn
  cases heq
  obtain ⟨sent, hoverride, hsent, hnext⟩ := UConnection.populateFirst_carries hcarries hpopulate
  refine ⟨?_, _, rfl, hnext⟩
  show CarriesID _ (params.marshal d.draws.grease)
  rw [TransportParameters.marshal, hoverride]
  exact hsent

/-- An ID may follow another one: nothing was filled in, or it is the same. -/
def MayFollow (a b : List UInt8) : Prop := a = [] ∨ a = b

instance : DecidableRel MayFollow := fun a b => inferInstanceAs (Decidable (a = [] ∨ a = b))

/-- Connections from a profile that carries the ID `b`. -/
theorem doDials_sendOwnID (hid : t.quicSpec.Carries b) (h : t.doDials ds = .ok conns) :
    (∀ conn ∈ conns, SendsOwnID conn) ↔
      (b :: conns.map (·.srcConnID.bytes)).Pairwise MayFollow := by
  induction ds generalizing t b conns with
  | nil =>
    cases h
    exact ⟨fun _ => pairwise_singleton _ _, fun _ _ h => absurd h not_mem_nil⟩
  | cons d ds ih =>
    obtain ⟨⟨conn, t'⟩, hdial, hrest⟩ := Except.bind_eq_ok_iff.mp h
    obtain ⟨conns', htail, rfl⟩ := Except.map_eq_ok_iff.mp hrest
    obtain ⟨hsent, hnext⟩ := doDial_carries hid hdial
    rw [forall_mem_cons, ih hnext htail]
    have hown : SendsOwnID conn ↔ MayFollow b conn.srcConnID.bytes := by
      rw [SendsOwnID]
      cases b with
      | nil => exact ⟨fun _ => .inl rfl, fun _ => hsent⟩
      | cons c b =>
        refine ⟨fun h => .inr (hsent.eq h), fun h => ?_⟩
        rcases h with h | h
        · cases h
        · rw [← h]
          exact hsent
    rw [hown, map_cons]
    cases b with
    | nil =>
      -- The profile is still open: what follows depends on this connection's ID.
      refine ⟨fun ⟨_, h⟩ => pairwise_cons.mpr ⟨fun _ _ => .inl rfl, h⟩, fun h =>
        ⟨.inl rfl, (pairwise_cons.mp h).2⟩⟩
    | cons c b =>
      constructor
      · rintro ⟨h | h, hpairs⟩
        · cases h
        · rw [← h]
          refine pairwise_cons.mpr ⟨fun x hx => ?_, hpairs⟩
          rcases mem_cons.mp hx with rfl | hx
          · exact .inr rfl
          · exact (pairwise_cons.mp hpairs).1 x hx
      · intro h
        obtain ⟨hall, hpairs⟩ := pairwise_cons.mp h
        refine ⟨hall _ mem_cons_self, pairwise_cons.mpr ⟨fun x hx => ?_,
          (pairwise_cons.mp hpairs).2⟩⟩
        exact hall x (mem_cons_of_mem _ hx)

/-- **Reusing a profile.**  Connections made one after the other, from a profile that leaves
the source connection ID open, all send their own ID iff no ID follows a different one that
is not empty. -/
theorem doDials_sendOwnID_iff (hopen : t.quicSpec.Carries []) (h : t.doDials ds = .ok conns) :
    (∀ conn ∈ conns, SendsOwnID conn) ↔ (conns.map (·.srcConnID.bytes)).Pairwise MayFollow := by
  rw [doDials_sendOwnID hopen h, pairwise_cons]
  exact and_iff_right fun _ _ => .inl rfl

/-- Header fields as the transport sets them anyway. -/
def plainSpec : InitialPacketSpec := ⟨4, 9, some .one, 0, none, 0⟩

/-- A profile with a window and an open source connection ID. -/
def openProfile : ClientSpec where
  frameBuilder := .none
  udpDatagramMinSize := 0
  initialPacketSpec := plainSpec
  clientHelloSpec := some [.other 0x33,
    .quicTransportParameters (some [.initialMaxData 1000, .initialSourceConnectionID []])]

theorem carries_openProfile : openProfile.Carries [] :=
  ⟨_, rfl, ⟨_, mem_cons_of_mem _ mem_cons_self, rfl⟩, by decide⟩

def nextDraws (call : Nat) : Draws :=
  ⟨fun _ _ => 7, call, 1, fun _ => 9, 0, ⟨0, []⟩, UPacketPacker.threeBytesClient⟩

/-- A transport with a profile, whose generator returns these connection IDs. -/
def generating (ids : List ConnectionID) (quicSpec : ClientSpec) : UTransport :=
  ⟨none, 0, false, some ⟨0, fun call => ids[call]?⟩, false, .new, 0, quicSpec⟩

/-- The first `n` dials. -/
def dials (n : Nat) : List Dial :=
  (List.range n).map fun call => ⟨Config.populateConfig none, 0, .v1, "", nextDraws call⟩

/-- An empty ID, and then the same one twice. -/
def sameIDs : UTransport := generating [.empty, .single 7, .single 7] openProfile

theorem doDials_sendOwnID_iff_sameID : ∃ conns, sameIDs.doDials (dials 3) = .ok conns ∧
    conns.map (·.srcConnID.bytes) = [[], [7], [7]] ∧ ∀ conn ∈ conns, SendsOwnID conn := by
  obtain ⟨conns, hdials, hids⟩ : ∃ conns, sameIDs.doDials (dials 3) = .ok conns ∧
    conns.map (·.srcConnID.bytes) = [[], [7], [7]] := ⟨_, rfl, rfl⟩
  refine ⟨conns, hdials, hids,
    (doDials_sendOwnID_iff (t := sameIDs) carries_openProfile hdials).mpr ?_⟩
  rw [hids]
  decide

/-- Two connections with different IDs: the second sends the ID of the first. -/
theorem doDials_sendFirstID : openProfile.Carries [] ∧
    ∃ first second, (generating [.single 1, .single 2] openProfile).doDials (dials 2) =
        .ok [first, second] ∧ second.srcConnID.bytes = [2] ∧
      second.sent = [.initialMaxData 1000, .initialSourceConnectionID [1]] ∧
      ¬ SendsOwnID second := by
  refine ⟨carries_openProfile, _, _, rfl, rfl, rfl, fun h => ?_⟩
  have hid := h.all (.initialSourceConnectionID [1]) (mem_cons_of_mem _ mem_cons_self) rfl
  cases hid

end UTransport

end UQuic
