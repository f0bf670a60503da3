/-
# `UQuic.Wire.TransportParameters` — transport parameters from a profile

`internal/wire/transport_parameters.go`, as a client uses it.  A profile holds the
parameters as uTLS writes them, one value after the other.  `PopulateFromUQUIC` reads
them into the record that the connection uses, and keeps the list to be sent
(`ClientOverride`).  An empty `InitialSourceConnectionID` stands for the ID of the
connection, and is replaced in the list itself.

    profile  ──populate──▶  record, with the list
    record   ──marshal───▶  the list if there is one, and the record's values otherwise

What is sent is written here as the list of parameters, not as their bytes.  `none` is a
panic: a parameter whose number stands for another Go type, or a connection ID that is
too long.
-/
import UQuic.Wire.Header

namespace UQuic.Wire

open List Option

def invalidByteCount : Int := -1

/-- `protocol.DefaultMaxAckDelay`, in nanoseconds. -/
def defaultMaxAckDelay : Int := 25000000

def defaultAckDelayExponent : Nat := 3

def defaultActiveConnectionIDLimit : UInt64 := 2

/-- The conversion from `uint64` to `int64`: byte counts and stream numbers. -/
def byteCount (v : UInt64) : Int := v.toInt64.toInt

/-- The conversion from `int64` to `uint64`. -/
def uint64 (v : Int) : UInt64 := .ofInt v

/-- `time.Duration(v) * time.Millisecond`, an `int64` of nanoseconds. -/
def milliseconds (v : UInt64) : Int := (v.toNat * 1000000 : Int).bmod (2 ^ 64)

def parseConnectionID (b : List UInt8) : Option ConnectionID :=
  if h : b.length ≤ maxConnIDLen then some ⟨b, h⟩ else none

/-- `tls.TransportParameter`: the types that `PopulateFromUQUIC` knows, and any other
with its number and its value. -/
inductive TransportParameter
  | maxIdleTimeout (v : UInt64)
  | initialMaxData (v : UInt64)
  | initialMaxStreamDataBidiLocal (v : UInt64)
  | initialMaxStreamDataBidiRemote (v : UInt64)
  | initialMaxStreamDataUni (v : UInt64)
  | initialMaxStreamsBidi (v : UInt64)
  | initialMaxStreamsUni (v : UInt64)
  | maxAckDelay (v : UInt64)
  | disableActiveMigration
  | activeConnectionIDLimit (v : UInt64)
  | initialSourceConnectionID (b : List UInt8)
  | maxDatagramFrameSize (v : UInt64)
  | other (id : Nat) (value : List UInt8)
  deriving DecidableEq, Repr

/-- `ID`. -/
def TransportParameter.id : TransportParameter → Nat
  | .maxIdleTimeout _ => 0x1
  | .initialMaxData _ => 0x4
  | .initialMaxStreamDataBidiLocal _ => 0x5
  | .initialMaxStreamDataBidiRemote _ => 0x6
  | .initialMaxStreamDataUni _ => 0x7
  | .initialMaxStreamsBidi _ => 0x8
  | .initialMaxStreamsUni _ => 0x9
  | .maxAckDelay _ => 0xb
  | .disableActiveMigration => 0xc
  | .activeConnectionIDLimit _ => 0xe
  | .initialSourceConnectionID _ => 0xf
  | .maxDatagramFrameSize _ => 0x20
  | .other id _ => id

/-- `TransportParameters`, without what only a server sends. -/
structure TransportParameters where
  initialMaxStreamDataBidiLocal : Int
  initialMaxStreamDataBidiRemote : Int
  initialMaxStreamDataUni : Int
  initialMaxData : Int
  maxAckDelay : Int
  ackDelayExponent : Nat
  disableActiveMigration : Bool
  maxUDPPayloadSize : Int
  maxUniStreamNum : Int
  maxBidiStreamNum : Int
  maxIdleTimeout : Int
  initialSourceConnectionID : ConnectionID
  activeConnectionIDLimit : UInt64
  maxDatagramFrameSize : Int
  /-- `none` is a nil slice. -/
  clientOverride : Option (List TransportParameter)

namespace TransportParameters

/-- The record with a connection ID and otherwise zeros. -/
def ofConnectionID (srcConnID : ConnectionID) : TransportParameters :=
  ⟨0, 0, 0, 0, 0, 0, false, 0, 0, 0, 0, srcConnID, 0, 0, none⟩

/-- The numbers for which `PopulateFromUQUIC` insists on a type. -/
def asserted : List Nat := [0x1, 0x4, 0x5, 0x6, 0x7, 0x8, 0x9, 0xb, 0xe, 0x20]

/-- One round of `PopulateFromUQUIC`: the record, and what stands in the list afterwards. -/
def populateParam (tp : TransportParameters) :
    TransportParameter → Option (TransportParameters × TransportParameter)
  | .maxIdleTimeout v => some ({ tp with maxIdleTimeout := milliseconds v }, .maxIdleTimeout v)
  | .initialMaxData v => some ({ tp with initialMaxData := byteCount v }, .initialMaxData v)
  | .initialMaxStreamDataBidiLocal v =>
    some ({ tp with initialMaxStreamDataBidiLocal := byteCount v },
      .initialMaxStreamDataBidiLocal v)
  | .initialMaxStreamDataBidiRemote v =>
    some ({ tp with initialMaxStreamDataBidiRemote := byteCount v },
      .initialMaxStreamDataBidiRemote v)
  | .initialMaxStreamDataUni v =>
    some ({ tp with initialMaxStreamDataUni := byteCount v }, .initialMaxStreamDataUni v)
  | .initialMaxStreamsBidi v =>
    some ({ tp with maxBidiStreamNum := byteCount v }, .initialMaxStreamsBidi v)
  | .initialMaxStreamsUni v =>
    some ({ tp with maxUniStreamNum := byteCount v }, .initialMaxStreamsUni v)
  | .maxAckDelay v => some ({ tp with maxAckDelay := milliseconds v }, .maxAckDelay v)
  | .disableActiveMigration =>
    some ({ tp with disableActiveMigration := true }, .disableActiveMigration)
  | .activeConnectionIDLimit v =>
    some ({ tp with activeConnectionIDLimit := v }, .activeConnectionIDLimit v)
  | .initialSourceConnectionID b =>
    if 0 < b.length then
      (parseConnectionID b).map fun connID =>
        ({ tp with initialSourceConnectionID := connID }, .initialSourceConnectionID b)
    else some (tp, .initialSourceConnectionID tp.initialSourceConnectionID.bytes)
  | .maxDatagramFrameSize v =>
    some ({ tp with maxDatagramFrameSize := byteCount v }, .maxDatagramFrameSize v)
  | .other id value =>
    if id ∈ asserted then none
    else if id = 0xc then some ({ tp with disableActiveMigration := true }, .other id value)
    else some (tp, .other id value)

/-- The loop of `PopulateFromUQUIC`. -/
def populateLoop (tp : TransportParameters) :
    List TransportParameter → Option (TransportParameters × List TransportParameter)
  | [] => some (tp, [])
  | param :: params =>
    (tp.populateParam param).bind fun (tp, param') =>
      (populateLoop tp params).map fun (tp, params') => (tp, param' :: params')

/-- `PopulateFromUQUIC`, with the list as it leaves it. -/
def populateFromUQUIC (tp : TransportParameters) (quicparams : List TransportParameter) :
    Option (TransportParameters × List TransportParameter) :=
  (tp.populateLoop quicparams).map fun (tp, quicparams) =>
    ({ tp with clientOverride := some quicparams }, quicparams)

/-- What `Marshal` draws for a greased parameter. -/
structure Grease where
  random : UInt8
  value : List UInt8

/-- A parameter that is only sent under a condition. -/
def sentIf (send : Bool) (param : TransportParameter) : List TransportParameter :=
  if send then [param] else []

/-- The parameters of a client without a profile, in the order in which `Marshal` writes
them. -/
def ownParameters (p : TransportParameters) (grease : Grease) : List TransportParameter :=
  List.flatten [[.other (27 + 31 * grease.random.toNat) grease.value,
      .initialMaxStreamDataBidiLocal (uint64 p.initialMaxStreamDataBidiLocal),
      .initialMaxStreamDataBidiRemote (uint64 p.initialMaxStreamDataBidiRemote),
      .initialMaxStreamDataUni (uint64 p.initialMaxStreamDataUni),
      .initialMaxData (uint64 p.initialMaxData), .initialMaxStreamsBidi (uint64 p.maxBidiStreamNum),
      .initialMaxStreamsUni (uint64 p.maxUniStreamNum),
      .maxIdleTimeout (uint64 (p.maxIdleTimeout.tdiv 1000000))], sentIf (0 < p.maxUDPPayloadSize)
      (.other 0x3 (QuicVarint.encode (uint64 p.maxUDPPayloadSize).toNat)),
    sentIf (p.maxAckDelay ≠ defaultMaxAckDelay)
      (.maxAckDelay (uint64 (p.maxAckDelay.tdiv 1000000))),
    sentIf (p.ackDelayExponent ≠ defaultAckDelayExponent)
      (.other 0xa (QuicVarint.encode p.ackDelayExponent)),
    sentIf p.disableActiveMigration .disableActiveMigration,
    sentIf (p.activeConnectionIDLimit ≠ defaultActiveConnectionIDLimit)
      (.activeConnectionIDLimit p.activeConnectionIDLimit),
    [.initialSourceConnectionID p.initialSourceConnectionID.bytes],
    sentIf (p.maxDatagramFrameSize ≠ invalidByteCount)
      (.maxDatagramFrameSize (uint64 p.maxDatagramFrameSize))]

/-- `Marshal` for a client: what is sent. -/
def marshal (p : TransportParameters) (grease : Grease) : List TransportParameter :=
  match p.clientOverride with
  | some params => params
  | none => p.ownParameters grease

/-! ## Connection IDs -/

variable {tp tp' : TransportParameters} {param param' : TransportParameter}
  {params params' : List TransportParameter} {b : List UInt8}

/-- The list has a source connection ID, and it is `b` wherever it stands. -/
structure CarriesID (b : List UInt8) (params : List TransportParameter) : Prop where
  some_ : ∃ param ∈ params, param.id = 0xf
  all : ∀ param ∈ params, param.id = 0xf → param = .initialSourceConnectionID b

/-- What `PopulateFromUQUIC` puts in the place of an empty connection ID. -/
def fill (connID : List UInt8) (param : TransportParameter) : TransportParameter :=
  if param = .initialSourceConnectionID [] then .initialSourceConnectionID connID else param

theorem fill_eq (connID : List UInt8) (h : param ≠ .initialSourceConnectionID []) :
    fill connID param = param := if_neg h

/-- One round fills in the connection ID, and only another one changes it. -/
theorem populateParam_eq (h : tp.populateParam param = some (tp', param')) :
    param' = fill tp.initialSourceConnectionID.bytes param ∧
      (param = .initialSourceConnectionID [] ∨ param.id ≠ 0xf →
        tp'.initialSourceConnectionID = tp.initialSourceConnectionID) := by
  cases param with
  | initialSourceConnectionID b =>
    cases b with
    | nil =>
      cases h
      exact ⟨rfl, fun _ => rfl⟩
    | cons c b =>
      obtain ⟨connID, -, heq⟩ := map_eq_some_iff.mp h
      cases heq
      refine ⟨rfl, fun h => ?_⟩
      rcases h with h | h
      · cases h
      · exact absurd rfl h
  | other id value =>
    simp only [populateParam] at h
    split at h
    · cases h
    · split at h
      · cases h
        exact ⟨rfl, fun _ => rfl⟩
      · cases h
        exact ⟨rfl, fun _ => rfl⟩
  | _ =>
    cases h
    exact ⟨rfl, fun _ => rfl⟩

/-- The loop, for a list whose connection IDs are all the same. -/
theorem populateLoop_eq (hall : ∀ param ∈ params, param.id = 0xf →
    param = .initialSourceConnectionID b)
    (h : tp.populateLoop params = some (tp', params')) :
    params' = params.map (fill tp.initialSourceConnectionID.bytes) := by
  induction params generalizing tp params' with
  | nil =>
    cases h
    rfl
  | cons param params ih =>
    obtain ⟨⟨tp₁, param'⟩, hparam, h⟩ := bind_eq_some_iff.mp h
    obtain ⟨⟨tp₂, params₁⟩, hloop, heq⟩ := map_eq_some_iff.mp h
    cases heq
    obtain ⟨rfl, hsame⟩ := populateParam_eq hparam
    have htail : ∀ q ∈ params, q.id = 0xf → q = .initialSourceConnectionID b :=
      fun q hq => hall q (mem_cons_of_mem _ hq)
    rw [ih htail hloop, map_cons]
    congr 1
    by_cases hb : b = []
    · -- An empty ID is filled in and does not change the one of the connection.
      subst hb
      rw [hsame (or_iff_not_imp_right.mpr fun hid => hall param mem_cons_self (not_not.mp hid))]
    · refine map_congr_left fun q hq => ?_
      have hq : q ≠ .initialSourceConnectionID [] := by
        intro heq
        have hid := htail q hq (by rw [heq]; rfl)
        rw [heq, TransportParameter.initialSourceConnectionID.injEq] at hid
        exact hb hid.symm
      rw [fill_eq _ hq, fill_eq _ hq]

/-- **What is sent** carries the ID of the profile, or that of the connection if the profile
leaves it open. -/
theorem populateFromUQUIC_carries (hid : CarriesID b params)
    (h : tp.populateFromUQUIC params = some (tp', params')) :
    CarriesID (if b = [] then tp.initialSourceConnectionID.bytes else b) params' ∧
      tp'.clientOverride = some params' := by
  obtain ⟨⟨tp₁, params₁⟩, hloop, heq⟩ := map_eq_some_iff.mp h
  cases heq
  rw [populateLoop_eq hid.all hloop]
  have hfill : ∀ param ∈ params, param.id = 0xf → fill tp.initialSourceConnectionID.bytes param =
      .initialSourceConnectionID (if b = [] then tp.initialSourceConnectionID.bytes else b) := by
    intro param hmem hparam
    rw [hid.all param hmem hparam]
    cases b with
    | nil | cons c b => rfl
  refine ⟨⟨?_, ?_⟩, rfl⟩
  · obtain ⟨param, hmem, hparam⟩ := hid.some_
    exact ⟨_, mem_map_of_mem hmem, by rw [hfill param hmem hparam]; rfl⟩
  · intro q hq hqid
    obtain ⟨param, hmem, rfl⟩ := mem_map.mp hq
    by_cases hparam : param.id = 0xf
    · exact hfill param hmem hparam
    · have hne : param ≠ .initialSourceConnectionID [] := by
        intro heq
        rw [heq] at hparam
        exact hparam rfl
      rw [fill_eq _ hne] at hqid
      exact absurd hqid hparam

/-- A list carries one ID at most. -/
theorem CarriesID.eq {b' : List UInt8} (h : CarriesID b params) (h' : CarriesID b' params) :
    b = b' := by
  obtain ⟨param, hmem, hparam⟩ := h.some_
  have heq := (h.all param hmem hparam).symm.trans (h'.all param hmem hparam)
  exact TransportParameter.initialSourceConnectionID.inj heq

end TransportParameters

end UQuic.Wire
