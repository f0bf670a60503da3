/-
# `UQuic.InitialHeader` — the header that a profile asks for

`InitialPacketSpec` of `u_initial_packet_spec.go` fixes header fields of the first Initial
packet.  Each of them has its own way through `init`, `dial` and `newUClientConnection` to the
packer, or none:

    field                    read by                 what the packer is given
    SrcConnIDLength          dial, after `init`      an ID of the generator that `init` has stored
    DestConnIDLength         —                       8 to 20 bytes
    InitPacketNumber         —                       0
    InitPacketNumberLength   newUClientConnection    this length
    TokenStore,              UpdateConfig, which     a token of the store in the `Config`
      ClientTokenLength        nothing calls

All of it is in `UTransport`; here it is followed to the header.

## What is proved

`honoured_iff`: the header is the one of the profile iff the generator of the transport, the
draws and the token store of the `Config` happen to yield it, and `InitPacketNumber` is 0.  Only
the length of the packet number is always the one of the profile.
-/
import UQuic.UTransport

namespace UQuic

open Wire (ConnectionID ExtendedHeader PacketNumberLen)
open AckHandler (SentPacketHandler USentPacketHandler)

/-! ## The header -/

/-- The header has the fields of the profile. -/
structure InitialPacketSpec.Honoured (spec : InitialPacketSpec) (hdr : ExtendedHeader) : Prop where
  src : (hdr.srcConnectionID.bytes.length : Int) = spec.srcConnIDLength
  dest : 8 ≤ spec.destConnIDLength → spec.destConnIDLength ≤ 20 →
    (hdr.destConnectionID.bytes.length : Int) = spec.destConnIDLength
  packetNumber : hdr.packetNumber = spec.initPacketNumber.toNat
  packetNumberLen : ∀ pnLen, spec.initPacketNumberLength = some pnLen → hdr.packetNumberLen = pnLen
  token : spec.tokenStore = none → 0 < spec.clientTokenLength →
    (hdr.token.length : Int) = spec.clientTokenLength

/-- What the profile asks for is what the transport, the draws and the `Config` yield. -/
structure InitialPacketSpec.Matches (spec : InitialPacketSpec) (t : UTransport)
    (store : Option TokenStore) (key : String) (d : Draws) : Prop where
  src : ∀ srcConnID, (t.connIDGenerator.getD (t.chooseGenerator d)).generateConnectionID d.call =
    some srcConnID → (srcConnID.bytes.length : Int) = spec.srcConnIDLength
  dest : 8 ≤ spec.destConnIDLength → spec.destConnIDLength ≤ 20 →
    8 + d.destConnIDLen.toNat % 13 = spec.destConnIDLength
  packetNumber : spec.initPacketNumber = 0
  token : spec.tokenStore = none → 0 < spec.clientTokenLength →
    (((store.bind (·.pop key)).getD []).length : Int) = spec.clientTokenLength

variable {t t' : UTransport} {conf : Option Config} {key : String} {d : Draws} {conn : UConnection}

/-- `validateConfig` and `populateConfig` leave the token store alone. -/
theorem tokenStore_dialConfig {conf' : Option Config} (spec : ClientSpec)
    (h : UTransport.validate conf = .ok conf') :
    (UTransport.dialConfig conf' spec).tokenStore = conf.bind (·.tokenStore) := by
  rw [UTransport.validate_eq h]
  simp only [UTransport.dialConfig]
  split
  · cases conf <;> rfl
  · cases conf <;> rfl

theorem length_generateConnectionIDForInitial {r : UInt8} {random : Nat → UInt8}
    {id : ConnectionID} (h : generateConnectionIDForInitial r random = some id) :
    (id.bytes.length : Int) = 8 + r.toNat % 13 := by
  simp only [generateConnectionIDForInitial, generateConnectionID] at h
  split_ifs at h
  cases h
  rw [List.length_map, List.length_range]
  omega

/-- The first Initial packet: its number, and the length that was set or computed. -/
theorem peekPacketNumber_new (rnd : Nat) (o : Option PacketNumberLen) :
    USentPacketHandler.peekPacketNumber ⟨.new 0 false .client rnd, o⟩ .initial =
      .ok (0, o.getD .two) := by
  cases o with
  | none =>
    have htwo : AckHandler.packetNumberLengthForHeader (0 : Nat) invalidPacketNumber =
        .two := by decide
    exact congrArg (fun pnLen => Except.ok (0, pnLen)) htwo
  | some pnLen => rfl

/-- **The header of the first Initial packet** is the one of the profile iff what the transport,
the draws and the `Config` yield matches it. -/
theorem honoured_iff (h : t.dial conf key d = .ok (conn, t')) :
    t.quicSpec.initialPacketSpec.Honoured (conn.packer.getLongHeader .initial .initial) ↔
      t.quicSpec.initialPacketSpec.Matches t (conf.bind (·.tokenStore)) key d := by
  obtain ⟨conf', generator, hconf, hdial⟩ := UTransport.dial_eq_ok h
  obtain ⟨srcConnID, destConnID, spec, hsrc, hdest, hconn, -⟩ := UTransport.doDial_eq_ok hdial
  obtain ⟨params, rfl⟩ := UTransport.newUClientConnection_eq_some hconn
  have hlength := length_generateConnectionIDForInitial hdest
  have hstore := tokenStore_dialConfig t.quicSpec hconf
  have hsrc : (t.connIDGenerator.getD (t.chooseGenerator d)).generateConnectionID d.call =
      some srcConnID := hsrc
  constructor
  · intro hhonoured
    refine ⟨fun id hid => ?_, fun hlo hhi => ?_, ?_, ?_⟩
    · cases hsrc.symm.trans hid
      exact hhonoured.src
    · rw [← hlength]
      exact hhonoured.dest hlo hhi
    · have hzero := hhonoured.packetNumber
      simp only [PacketPacker.getLongHeader, UConnection.ofParams, UConnection.newPacker,
        peekPacketNumber_new] at hzero
      exact UInt64.toNat_inj.mp hzero.symm
    · rw [← hstore]
      exact hhonoured.token
  · intro hm
    refine ⟨hm.src srcConnID hsrc, fun hlo hhi => hlength.trans (hm.dest hlo hhi), ?_,
      fun pnLen hlen => ?_, ?_⟩
    · rw [hm.packetNumber]
      simp only [PacketPacker.getLongHeader, UConnection.ofParams, UConnection.newPacker,
        peekPacketNumber_new]
      rfl
    · simp only [PacketPacker.getLongHeader, UConnection.ofParams, UConnection.newPacker,
        UTransport.init, peekPacketNumber_new, hlen]
      rfl
    · have htoken := hm.token
      rw [← hstore] at htoken
      exact htoken

/-- A profile like that of a browser, with a token. -/
def browserSpec : InitialPacketSpec := ⟨0, 8, some .one, 1, none, 16⟩

/-- A transport that was not used before. -/
def newTransport (spec : InitialPacketSpec) : UTransport :=
  ⟨none, 0, false, none, false, .new, 0, { UTransport.openProfile with initialPacketSpec := spec }⟩

/-- All fields but the length of the packet number are ignored. -/
theorem browserSpec_not_honoured :
    ∃ conn t, (newTransport browserSpec).dial none "" (UTransport.nextDraws 0) = .ok (conn, t) ∧
      (conn.packer.getLongHeader .initial .initial).srcConnectionID.bytes = [7, 7, 7, 7] ∧
      (conn.packer.getLongHeader .initial .initial).destConnectionID.bytes =
        [9, 9, 9, 9, 9, 9, 9, 9, 9] ∧
      (conn.packer.getLongHeader .initial .initial).packetNumber = 0 ∧
      (conn.packer.getLongHeader .initial .initial).packetNumberLen = .one ∧
      (conn.packer.getLongHeader .initial .initial).token = [] ∧
      ¬ browserSpec.Honoured (conn.packer.getLongHeader .initial .initial) := by
  refine ⟨_, _, rfl, rfl, rfl, rfl, rfl, rfl, fun hhonoured => ?_⟩
  have hone : 0 = 1 := hhonoured.packetNumber
  cases hone

theorem honoured_iff_defaultSpec : ∃ conn t,
    (newTransport UTransport.plainSpec).dial none "" (UTransport.nextDraws 0) = .ok (conn, t) ∧
      UTransport.plainSpec.Honoured (conn.packer.getLongHeader .initial .initial) := by
  obtain ⟨⟨conn, t⟩, hdial⟩ : ∃ r,
    (newTransport UTransport.plainSpec).dial none "" (UTransport.nextDraws 0) = .ok r := ⟨_, rfl⟩
  refine ⟨conn, t, hdial, (honoured_iff hdial).mpr ⟨?_, fun _ _ => rfl, rfl, fun _ hpos => ?_⟩⟩
  · rintro _ ⟨⟩
    rfl
  · exact absurd hpos (by decide)

end UQuic
