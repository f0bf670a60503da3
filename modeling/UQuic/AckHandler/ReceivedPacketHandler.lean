/-
# `UQuic.AckHandler.ReceivedPacketHandler` — the ACK frames of a connection

`internal/ackhandler/received_packet_handler.go`: one tracker for each packet
number space.  After a 1-RTT packet was recorded, the handler asks the sent
packet handler for the lowest packet number whose acknowledgement is not known
to have arrived, and forgets every received packet below it.  That value is an
argument of the call here.

## What is proved

`ackFrame_valid_of_keepsRange`: along every run whose calls satisfy `KeepsRange`, every frame
`GetAckFrame` returns has a range, its ranges descend without touching, and
each number in them was received in that packet number space.

`KeepsRange` restricts one call only, a 1-RTT `ReceivedPacket`: the limit must
not lie above everything recorded — unless no ACK is due anyway.  The condition
is exact: a call that violates it empties the history while an ACK is due, and
the next `GetAckFrame` returns a frame without ranges (`getAckFrame_empty`).  A
peer gets there by sending, late, a packet with a low number that carries the
ACK which raises the limit.

`acks_sendable`: where the counters and times are in range as well, the frames can be written.
That is what the packet packer is promised (`PacketPacker.acks_sendable`).
-/
import UQuic.AckHandler.ReceivedPacketTracker
import UQuic.Lib.Machine
import UQuic.Lib.Except
import UQuic.Wire.AckEncoding

namespace UQuic.AckHandler

open IntRange
open UQuic.Wire (AckRange AckFrame)

/-- `receivedPacketHandler`; a dropped packet number space is `none`. -/
structure ReceivedPacketHandler where
  initialPackets : Option ReceivedPacketTracker
  handshakePackets : Option ReceivedPacketTracker
  appDataPackets : AppDataReceivedPacketTracker
  lowest1RTTPacket : Int
  deriving DecidableEq, Repr

namespace ReceivedPacketHandler

/-- `newReceivedPacketHandler`. -/
def new : ReceivedPacketHandler := ⟨some .new, some .new, .new, invalidPacketNumber⟩

/-- The 1-RTT branch of `ReceivedPacket`. -/
def receivedPacket1RTT (h : ReceivedPacketHandler) (pn : Int) (ecn : ECN) (rcvTime : Int)
    (ackEliciting : Bool) (lowestNotConfirmedAcked : Int) :
    Except ReceiveError ReceivedPacketHandler :=
  match h.appDataPackets.receivedPacket pn ecn rcvTime ackEliciting with
  | .error e => .error e
  | .ok t =>
    .ok { h with
      lowest1RTTPacket :=
        if h.lowest1RTTPacket = invalidPacketNumber ∨ pn < h.lowest1RTTPacket then pn
        else h.lowest1RTTPacket
      appDataPackets := t.setIgnoreBelow lowestNotConfirmedAcked }

/-- `ReceivedPacket`.  The last argument is what
`sentPackets.GetLowestPacketNotConfirmedAcked` returns in this call. -/
def receivedPacket (h : ReceivedPacketHandler) (pn : Int) (ecn : ECN) (rcvTime : Int)
    (ackEliciting : Bool) (lowestNotConfirmedAcked : Int) :
    EncryptionLevel → Except ReceiveError ReceivedPacketHandler
  | .initial =>
    match h.initialPackets with
    | none => .error .panic
    | some t =>
      (t.receivedPacket pn ecn ackEliciting).map fun t => { h with initialPackets := some t }
  | .handshake =>
    match h.handshakePackets with
    -- the space may have been dropped while this packet's CRYPTO frame was handled
    | none => .ok h
    | some t =>
      (t.receivedPacket pn ecn ackEliciting).map fun t => { h with handshakePackets := some t }
  | .zeroRTT =>
    if h.lowest1RTTPacket ≠ invalidPacketNumber ∧ h.lowest1RTTPacket < pn then
      .error (.zeroRTTAfter1RTT pn h.lowest1RTTPacket)
    else
      (h.appDataPackets.receivedPacket pn ecn rcvTime ackEliciting).map fun t =>
        { h with appDataPackets := t }
  | .oneRTT => h.receivedPacket1RTT pn ecn rcvTime ackEliciting lowestNotConfirmedAcked

/-- `DropPackets`; the 1-RTT space cannot be dropped. -/
def dropPackets (h : ReceivedPacketHandler) : EncryptionLevel → Option ReceivedPacketHandler
  | .initial => some { h with initialPackets := none }
  | .handshake => some { h with handshakePackets := none }
  | .zeroRTT => some h
  | .oneRTT => none

def getAlarmTimeout (h : ReceivedPacketHandler) : Int := h.appDataPackets.getAlarmTimeout

def getAckFrame (h : ReceivedPacketHandler) (now : Int) (onlyIfQueued : Bool) :
    EncryptionLevel → ReceivedPacketHandler × Option AckFrame
  | .initial =>
    match h.initialPackets with
    | some t => ({ h with initialPackets := some t.getAckFrame.1 }, t.getAckFrame.2)
    | none => (h, none)
  | .handshake =>
    match h.handshakePackets with
    | some t => ({ h with handshakePackets := some t.getAckFrame.1 }, t.getAckFrame.2)
    | none => (h, none)
  | .oneRTT =>
    ({ h with appDataPackets := (h.appDataPackets.getAckFrame now onlyIfQueued).1 },
      (h.appDataPackets.getAckFrame now onlyIfQueued).2)
  | .zeroRTT => (h, none)

/-- `IsPotentiallyDuplicate`; a dropped space panics. -/
def isPotentiallyDuplicate (h : ReceivedPacketHandler) (pn : Int) : EncryptionLevel → Option Bool
  | .initial => h.initialPackets.map (·.isPotentiallyDuplicate pn)
  | .handshake => h.handshakePackets.map (·.isPotentiallyDuplicate pn)
  | .zeroRTT | .oneRTT => some (h.appDataPackets.isPotentiallyDuplicate pn)

/-! ## Runs -/

/-- The calls of a connection. -/
inductive Call
  | receivedPacket (pn : Int) (ecn : ECN) (encLevel : EncryptionLevel) (rcvTime : Int)
      (ackEliciting : Bool) (lowestNotConfirmedAcked : Int)
  | dropPackets (encLevel : EncryptionLevel)
  | getAckFrame (encLevel : EncryptionLevel) (now : Int) (onlyIfQueued : Bool)
  deriving DecidableEq, Repr

def step (h : ReceivedPacketHandler) : Call → Option ReceivedPacketHandler
  | .receivedPacket pn ecn encLevel rcvTime ackEliciting lowest =>
    (h.receivedPacket pn ecn rcvTime ackEliciting lowest encLevel).toOption
  | .dropPackets encLevel => h.dropPackets encLevel
  | .getAckFrame encLevel now onlyIfQueued => some (h.getAckFrame now onlyIfQueued encLevel).1

def machine : Machine ReceivedPacketHandler Call := .ofStep new step

/-- The packet number space of an encryption level: 0-RTT and 1-RTT share one. -/
def space : EncryptionLevel → EncryptionLevel
  | .zeroRTT => .oneRTT
  | l => l

/-- `pn` was received in the space of `encLevel`. -/
def ReceivedIn (tr : List Call) (encLevel : EncryptionLevel) (pn : Int) : Prop :=
  ∃ ecn l rcvTime ae lowest,
    .receivedPacket pn ecn l rcvTime ae lowest ∈ tr ∧ space l = space encLevel

/-- The limit a 1-RTT packet brings with it does not lie above everything
recorded, or no ACK is due. -/
def KeepsRange (h : ReceivedPacketHandler) : Call → Prop
  | .receivedPacket pn _ .oneRTT _ ackEliciting lowest =>
    lowest ≤ pn ∨ (∃ r ∈ h.appDataPackets.packetHistory.ranges, lowest ≤ r.end_) ∨
      (ackEliciting = false ∧ h.appDataPackets.hasNewAck = false)
  | _ => True

instance (h : ReceivedPacketHandler) (c : Call) : Decidable (h.KeepsRange c) := by
  unfold KeepsRange; split <;> infer_instance

/-- The invariant: every tracker's, with "received in this space" read off the
trace. -/
structure Inv (tr : List Call) (h : ReceivedPacketHandler) : Prop where
  initial : ∀ t, h.initialPackets = some t → TrackerInv (ReceivedIn tr .initial) t
  handshake : ∀ t, h.handshakePackets = some t → TrackerInv (ReceivedIn tr .handshake) t
  appData : AppDataReceivedPacketTracker.Inv (ReceivedIn tr .oneRTT) h.appDataPackets

variable {tr : List Call} {h h' : ReceivedPacketHandler} {pn rcvTime lowest : Int} {ecn : ECN}
  {ae : Bool}

theorem receivedIn_append {c : Call} {l : EncryptionLevel} {p : Int} (hp : ReceivedIn tr l p) :
    ReceivedIn (tr ++ [c]) l p := by
  obtain ⟨ecn, l', t, ae, lowest, hmem, hsp⟩ := hp
  exact ⟨ecn, l', t, ae, lowest, List.mem_append_left _ hmem, hsp⟩

theorem inv_append (hi : Inv tr h) (c : Call) : Inv (tr ++ [c]) h :=
  ⟨fun t ht => (hi.initial t ht).mono fun _ => receivedIn_append,
   fun t ht => (hi.handshake t ht).mono fun _ => receivedIn_append,
   ⟨hi.appData.base.mono fun _ => receivedIn_append, hi.appData.limit⟩⟩

theorem inv_new : Inv [] new :=
  ⟨fun _ ht => by cases ht; exact ReceivedPacketTracker.inv_new,
   fun _ ht => by cases ht; exact ReceivedPacketTracker.inv_new,
   AppDataReceivedPacketTracker.inv_new⟩

theorem receivedIn_last {pn lowest rcvTime : Int} {l : EncryptionLevel}
    {l' : EncryptionLevel} (h : space l = space l') :
    ReceivedIn (tr ++ [.receivedPacket pn ecn l rcvTime ae lowest]) l' pn :=
  ⟨ecn, l, rcvTime, ae, lowest, List.mem_append_right _ List.mem_cons_self, h⟩

theorem receivedPacket1RTT_ok (h₁ : h.receivedPacket1RTT pn ecn rcvTime ae lowest = .ok h') :
    ∃ t, h.appDataPackets.receivedPacket pn ecn rcvTime ae = .ok t ∧
      h'.appDataPackets = t.setIgnoreBelow lowest ∧
      h'.initialPackets = h.initialPackets ∧ h'.handshakePackets = h.handshakePackets := by
  simp only [receivedPacket1RTT] at h₁
  cases ht : h.appDataPackets.receivedPacket pn ecn rcvTime ae with
  | error e =>
    rw [ht] at h₁
    cases h₁
  | ok t =>
    rw [ht] at h₁
    cases h₁
    exact ⟨t, rfl, rfl, rfl, rfl⟩

/-- After a packet was recorded, an ACK is due and the ranges reach the limit,
or no ACK is due: that is what `KeepsRange` says before the call. -/
theorem keepsRange_iff {t : AppDataReceivedPacketTracker}
    (hi : Inv tr h) (ht : h.appDataPackets.receivedPacket pn ecn rcvTime ae = .ok t) :
    h.KeepsRange (.receivedPacket pn ecn .oneRTT rcvTime ae lowest) ↔
      (t.hasNewAck = true → ∃ r ∈ t.packetHistory.ranges, lowest ≤ r.end_) := by
  obtain ⟨hb, -⟩ := AppDataReceivedPacketTracker.receivedPacket_ok ht
  obtain ⟨hnew, hh, -, hdue⟩ := ReceivedPacketTracker.receivedPacket_ok hb
  rw [hdue, hh,
    ReceivedPacketHistory.receivedPacket_exists_end_ge hi.appData.base.wf pn hnew lowest]
  simp only [KeepsRange]
  cases ae <;> cases h.appDataPackets.hasNewAck <;> simp

/-! ## One step keeps the invariant -/

theorem receivedPacket_inv (hi : Inv tr h) :
    ∀ {l : EncryptionLevel}, h.KeepsRange (.receivedPacket pn ecn l rcvTime ae lowest) →
      h.receivedPacket pn ecn rcvTime ae lowest l = .ok h' →
      Inv (tr ++ [.receivedPacket pn ecn l rcvTime ae lowest]) h'
  | .initial, _, hok => by
    have hi' := inv_append hi (.receivedPacket pn ecn .initial rcvTime ae lowest)
    simp only [receivedPacket] at hok
    cases ht : h.initialPackets with
    | none =>
      rw [ht] at hok
      cases hok
    | some t =>
      rw [ht] at hok
      obtain ⟨t', hr, rfl⟩ := Except.map_eq_ok_iff.mp hok
      refine { hi' with initial := ?_ }
      intro _ heq
      cases heq
      exact ReceivedPacketTracker.receivedPacket_inv (hi'.initial t ht) (receivedIn_last rfl) hr
  | .handshake, _, hok => by
    have hi' := inv_append hi (.receivedPacket pn ecn .handshake rcvTime ae lowest)
    simp only [receivedPacket] at hok
    cases ht : h.handshakePackets with
    | none =>
      rw [ht] at hok
      cases hok
      exact hi'
    | some t =>
      rw [ht] at hok
      obtain ⟨t', hr, rfl⟩ := Except.map_eq_ok_iff.mp hok
      refine ⟨hi'.initial, ?_, hi'.appData⟩
      intro _ heq
      cases heq
      exact ReceivedPacketTracker.receivedPacket_inv (hi'.handshake t ht) (receivedIn_last rfl) hr
  | .zeroRTT, _, hok => by
    have hi' := inv_append hi (.receivedPacket pn ecn .zeroRTT rcvTime ae lowest)
    simp only [receivedPacket] at hok
    split_ifs at hok
    obtain ⟨t, hr, rfl⟩ := Except.map_eq_ok_iff.mp hok
    exact { hi' with
      appData :=
        AppDataReceivedPacketTracker.receivedPacket_inv hi'.appData (receivedIn_last rfl) hr }
  | .oneRTT, hk, hok => by
    have hi' := inv_append hi (.receivedPacket pn ecn .oneRTT rcvTime ae lowest)
    obtain ⟨t, ht, happ, hinit, hhandshake⟩ := receivedPacket1RTT_ok hok
    have hit := AppDataReceivedPacketTracker.receivedPacket_inv hi'.appData
      (receivedIn_last rfl) ht
    refine ⟨?_, ?_, ?_⟩
    · rw [hinit]
      exact hi'.initial
    · rw [hhandshake]
      exact hi'.handshake
    · rw [happ]
      exact AppDataReceivedPacketTracker.setIgnoreBelow_inv hit ((keepsRange_iff hi ht).mp hk)

theorem dropPackets_inv (hi : Inv tr h) :
    ∀ {l : EncryptionLevel}, h.dropPackets l = some h' → Inv tr h'
  | .initial, hd => by
    cases hd
    exact { hi with initial := fun _ heq => (nomatch heq) }
  | .handshake, hd => by
    cases hd
    exact ⟨hi.initial, fun _ heq => (nomatch heq), hi.appData⟩
  | .zeroRTT, hd => by
    cases hd
    exact hi
  | .oneRTT, hd => nomatch hd

theorem getAckFrame_inv (hi : Inv tr h) (now : Int) (onlyIfQueued : Bool) :
    ∀ (l : EncryptionLevel), Inv tr (h.getAckFrame now onlyIfQueued l).1
  | .initial => by
    simp only [getAckFrame]
    cases ht : h.initialPackets with
    | none => exact hi
    | some t =>
      refine { hi with initial := ?_ }
      intro _ heq
      cases heq
      exact ReceivedPacketTracker.getAckFrame_inv (hi.initial t ht)
  | .handshake => by
    simp only [getAckFrame]
    cases ht : h.handshakePackets with
    | none => exact hi
    | some t =>
      refine ⟨hi.initial, ?_, hi.appData⟩
      intro _ heq
      cases heq
      exact ReceivedPacketTracker.getAckFrame_inv (hi.handshake t ht)
  | .zeroRTT => hi
  | .oneRTT => { hi with
      appData := AppDataReceivedPacketTracker.getAckFrame_inv hi.appData now onlyIfQueued }

theorem step_inv (hi : Inv tr h) :
    ∀ {c : Call}, h.KeepsRange c → h.step c = some h' → Inv (tr ++ [c]) h'
  | .receivedPacket _ _ _ _ _ _, hk, hs =>
    receivedPacket_inv hi hk (Except.toOption_eq_some_iff.mp hs)
  | .dropPackets _, _, hs => inv_append (dropPackets_inv hi hs) _
  | .getAckFrame l now onlyIfQueued, _, hs => by
    cases hs
    exact inv_append (getAckFrame_inv hi now onlyIfQueued l) _

theorem run_inv (hrun : (machine.guard KeepsRange).Run tr h) : Inv tr h := by
  refine Machine.Run.invariant (I := Inv) ?_ ?_ hrun
  · intro s hs
    cases hs
    exact inv_new
  · intro tr s c s' _ hi hstep
    exact step_inv hi hstep.1 hstep.2

/-! ## The frames -/

/-- A frame is that of the tracker of its level. -/
theorem getAckFrame_cases {now : Int} {onlyIfQueued : Bool} {a : AckFrame} {l : EncryptionLevel}
    (ha : (h.getAckFrame now onlyIfQueued l).2 = some a) :
    (l = .initial ∧ ∃ t, h.initialPackets = some t ∧ t.getAckFrame.2 = some a) ∨
    (l = .handshake ∧ ∃ t, h.handshakePackets = some t ∧ t.getAckFrame.2 = some a) ∨
    (l = .oneRTT ∧ (h.appDataPackets.getAckFrame now onlyIfQueued).2 = some a) := by
  cases l with
  | initial =>
    simp only [getAckFrame] at ha
    cases ht : h.initialPackets with
    | none =>
      rw [ht] at ha
      cases ha
    | some t =>
      rw [ht] at ha
      exact .inl ⟨rfl, t, rfl, ha⟩
  | handshake =>
    simp only [getAckFrame] at ha
    cases ht : h.handshakePackets with
    | none =>
      rw [ht] at ha
      cases ha
    | some t =>
      rw [ht] at ha
      exact .inr (.inl ⟨rfl, t, rfl, ha⟩)
  | zeroRTT => cases ha
  | oneRTT => exact .inr (.inr ⟨rfl, ha⟩)

theorem getAckFrame_valid (hi : Inv tr h) {now : Int} {onlyIfQueued : Bool} {a : AckFrame}
    {l : EncryptionLevel} (ha : (h.getAckFrame now onlyIfQueued l).2 = some a) :
    a.Valid ∧ ∀ p, a.Acks p → ReceivedIn tr l p := by
  obtain ⟨rfl, t, ht, ha⟩ | ⟨rfl, t, ht, ha⟩ | ⟨rfl, ha⟩ := getAckFrame_cases ha
  · exact ReceivedPacketTracker.getAckFrame_valid (hi.initial t ht) (Prod.ext rfl ha)
  · exact ReceivedPacketTracker.getAckFrame_valid (hi.handshake t ht) (Prod.ext rfl ha)
  · exact AppDataReceivedPacketTracker.getAckFrame_valid hi.appData (Prod.ext rfl ha)

/-- A 1-RTT packet that violates `KeepsRange` leaves an ACK due with nothing to
report. -/
theorem getAckFrame_empty {c : Call} (hi : Inv tr h) (hk : ¬ h.KeepsRange c)
    (hs : h.step c = some h') (now : Int) :
    ∃ a, (h'.getAckFrame now false .oneRTT).2 = some a ∧ a.ackRanges = [] := by
  cases c with
  | receivedPacket pn ecn l rcvTime ae lowest =>
    cases l with
    | oneRTT =>
      have hr : h.receivedPacket1RTT pn ecn rcvTime ae lowest = .ok h' :=
        Except.toOption_eq_some_iff.mp hs
      obtain ⟨t, ht, happ, -, -⟩ := receivedPacket1RTT_ok hr
      have hit := AppDataReceivedPacketTracker.receivedPacket_inv
        (inv_append hi (.receivedPacket pn ecn .oneRTT rcvTime ae lowest)).appData
        (receivedIn_last rfl) ht
      rw [keepsRange_iff hi ht, Classical.not_imp] at hk
      simp only [getAckFrame, happ]
      exact AppDataReceivedPacketTracker.getAckFrame_of_setIgnoreBelow hit hk.1 hk.2 now
    | initial | handshake | zeroRTT => exact absurd trivial hk
  | dropPackets l | getAckFrame l now onlyIfQueued => exact absurd trivial hk

/-- **The frames of a connection.**  Along a run whose calls satisfy
`KeepsRange`, every frame has a range, its ranges descend without touching, and
it acknowledges only what was received in its space; and the first call that
violates `KeepsRange` makes the next `GetAckFrame` return a frame without
ranges. -/
theorem ackFrame_valid_of_keepsRange (hrun : (machine.guard KeepsRange).Run tr h) :
    (∀ encLevel now onlyIfQueued a, (h.getAckFrame now onlyIfQueued encLevel).2 = some a →
      a.Valid ∧ ∀ p, a.Acks p → ReceivedIn tr encLevel p) ∧
    (∀ c h' now, ¬ h.KeepsRange c → h.step c = some h' →
      ∃ a, (h'.getAckFrame now false .oneRTT).2 = some a ∧ a.ackRanges = []) :=
  ⟨fun _ _ _ _ ha => getAckFrame_valid (run_inv hrun) ha,
   fun _ _ now hk hs => getAckFrame_empty (run_inv hrun) hk hs now⟩

/-- Three packets with gaps; the limit rises to 2 and then to 5, which forgets the first. -/
def risingLimit : List Call :=
  [.receivedPacket 3 .non .oneRTT 1 true 0, .receivedPacket 10 .non .oneRTT 2 true 2,
    .receivedPacket 12 .non .oneRTT 3 true 5]

theorem ackFrame_valid_risingLimit :
    ∃ h a, (machine.guard KeepsRange).Run risingLimit h ∧
      (h.getAckFrame 9 false .oneRTT).2 = some a ∧ a.ackRanges = [⟨12, 12⟩, ⟨10, 10⟩] ∧
      a.Valid ∧ ∀ p, a.Acks p → ReceivedIn risingLimit .oneRTT p := by
  let h := (risingLimit.foldlM step new).getD new
  have hrun : (machine.guard KeepsRange).Run risingLimit h := by
    rw [machine, Machine.run_guard_iff]
    decide
  exact ⟨h, _, hrun, rfl, rfl, (ackFrame_valid_of_keepsRange hrun).1 .oneRTT 9 false _ rfl⟩

/-- Packet 10 is acknowledged; then packet 9 arrives late, carrying the ACK that
makes 11 the lowest number not known to be acknowledged. -/
def lateAck : List Call :=
  [.receivedPacket 10 .non .oneRTT 1 true 0, .getAckFrame .oneRTT 2 false,
    .receivedPacket 9 .non .oneRTT 3 true 11]

/-- Packet 9 is no duplicate and the limit only rises, and still the frame that
follows has no range to index. -/
theorem ackFrame_empty_lateAck :
    ∃ h₂ h a, machine.Run (lateAck.take 2) h₂ ∧ h₂.isPotentiallyDuplicate 9 .oneRTT = some false ∧
      machine.Run lateAck h ∧ (h.getAckFrame 4 false .oneRTT).2 = some a ∧
      a.ackRanges = [] ∧ a.largestAcked = none ∧ ¬ a.Valid := by
  let h₂ := ((lateAck.take 2).foldlM step new).getD new
  let h := (lateAck.foldlM step new).getD new
  have hrun₂ : machine.Run (lateAck.take 2) h₂ := Machine.run_ofStep_iff.mpr (by decide)
  have hrun : machine.Run lateAck h := Machine.run_ofStep_iff.mpr (by decide)
  exact ⟨h₂, h, _, hrun₂, by decide, hrun, rfl, by decide, by decide,
    fun hv => hv.nonempty (by decide)⟩

/-! ## What the packer is given -/

/-- `GetAckFrame`, by encryption level and whether only a queued one is asked for. -/
def acks (h : ReceivedPacketHandler) (now : Int) (encLevel : EncryptionLevel)
    (onlyIfQueued : Bool) : Option AckFrame := (h.getAckFrame now onlyIfQueued encLevel).2

def trackers (h : ReceivedPacketHandler) : List ReceivedPacketTracker :=
  h.appDataPackets.toReceivedPacketTracker :: h.initialPackets.toList ++ h.handshakePackets.toList

/-- The counters have at most 62 bits, and the delay is an `int64`. -/
structure InRange (h : ReceivedPacketHandler) (now : Int) : Prop where
  ecn : ∀ t ∈ h.trackers, t.ect0 ≤ QuicVarint.maxVarInt8 ∧ t.ect1 ≤ QuicVarint.maxVarInt8 ∧
    t.ecnce ≤ QuicVarint.maxVarInt8
  delay : now - h.appDataPackets.largestObservedRcvdTime < 2 ^ 63

/-- A frame is that of one of the trackers, perhaps with a delay. -/
theorem acks_eq {now : Int} {onlyIfQueued : Bool} {a : AckFrame} {l : EncryptionLevel}
    (ha : h.acks now l onlyIfQueued = some a) :
    ∃ t ∈ h.trackers, a = { t.ackFrame with delayTime := a.delayTime } ∧ 0 ≤ a.delayTime ∧
      a.delayTime ≤ max 0 (now - h.appDataPackets.largestObservedRcvdTime) := by
  obtain ⟨-, t, ht, ha⟩ | ⟨-, t, ht, ha⟩ | ⟨-, ha⟩ := getAckFrame_cases ha
  · obtain ⟨-, rfl, -⟩ := ReceivedPacketTracker.getAckFrame_some (Prod.ext rfl ha)
    exact ⟨t, by simp [trackers, ht], rfl, le_rfl, le_max_left _ _⟩
  · obtain ⟨-, rfl, -⟩ := ReceivedPacketTracker.getAckFrame_some (Prod.ext rfl ha)
    exact ⟨t, by simp [trackers, ht], rfl, le_rfl, le_max_left _ _⟩
  · obtain ⟨-, rfl, -⟩ := AppDataReceivedPacketTracker.getAckFrame_some (Prod.ext rfl ha)
    exact ⟨_, List.mem_cons_self, rfl, le_max_left _ _, le_rfl⟩

/-- **The frames of a connection can be written.** -/
theorem acks_sendable (hrun : (machine.guard KeepsRange).Run tr h) {now : Int}
    (hpn : ∀ l pn, ReceivedIn tr l pn → 0 ≤ pn ∧ pn ≤ QuicVarint.maxVarInt8)
    (hrange : h.InRange now) :
    ∀ encLevel onlyIfQueued ack, h.acks now encLevel onlyIfQueued = some ack → ack.Sendable := by
  intro encLevel onlyIfQueued ack hack
  obtain ⟨hvalid, hreceived⟩ := getAckFrame_valid (run_inv hrun) hack
  obtain ⟨t, ht, hframe, hnonneg, hdelay⟩ := acks_eq hack
  have hnumber : ∀ r ∈ ack.ackRanges, ∀ p, r.smallest ≤ p → p ≤ r.largest →
      0 ≤ p ∧ p ≤ QuicVarint.maxVarInt8 :=
    fun r hr p hlo hhi => hpn encLevel p (hreceived p ⟨r, hr, hlo, hhi⟩)
  refine { hvalid with
    nonneg := fun r hr => (hnumber r hr _ le_rfl (hvalid.ordered r hr)).1
    encodable := fun r hr => (hnumber r hr _ (hvalid.ordered r hr) le_rfl).2
    delay := ⟨hnonneg, hdelay.trans_lt (max_lt (by decide) hrange.delay)⟩
    ecn := ?_ }
  rw [hframe]
  exact hrange.ecn t ht

end ReceivedPacketHandler

end UQuic.AckHandler
