/-
# `UQuic.AckHandler.Amplification` — the amplification limit

A server may not send more than `amplificationFactor` times what it received until the
address of the client is validated.  `SendMode` returns `SendNone` once the limit is
reached, and the connection asks it before each datagram:

    received n      ReceivedBytes
    datagram        SendMode, then PopPacketNumber, QueueProbePacket and one SentPacket
                    for each packet that was coalesced
    call c          any other call to the handler

## What is proved

    less than one datagram too much                             (`bytesSent_le`)
    1200 bytes are answered by three datagrams of 1280 bytes    (`bytesSent_beyond_limit`)

## How

A call adds the size of its packet to the bytes sent, the number of bytes received to those,
and changes neither counter otherwise (`call_counts`); a datagram adds the sum of its packets
(`calls_count`).
-/
import UQuic.AckHandler.LossTimer

namespace UQuic.AckHandler

open List Except
open UQuic.Wire (AckRange AckFrame)

def maxOutstandingSentPackets : Nat := 2 * 10000

def maxTrackedSentPackets : Nat := maxOutstandingSentPackets * 5 / 4

/-- What `SendMode` returns: a mode that the handler also stores (`SendNone` and those of a PTO),
or one of the others. -/
inductive SendDecision
  | stored (mode : SendMode)
  | sendAck
  | sendPacingLimited
  | sendAny
  deriving DecidableEq, Repr

/-- What the congestion controller answers: `CanSend` and `HasPacingBudget`. -/
structure Congestion where
  canSend : Bool
  hasPacingBudget : Bool
  deriving DecidableEq, Repr

namespace SentPacketHandler

variable {h h' : SentPacketHandler}

def numTrackedPackets (h : SentPacketHandler) : Nat :=
  h.appDataPackets.history.packets.length +
    (h.initialPackets.map (·.history.packets.length)).getD 0 +
    (h.handshakePackets.map (·.history.packets.length)).getD 0

def sendMode (h : SentPacketHandler) (congestion : Congestion) : SendDecision :=
  if h.isAmplificationLimited then .stored .sendNone
  else if maxTrackedSentPackets ≤ h.numTrackedPackets then .stored .sendNone
  else if 0 < h.numProbesToSend then .stored h.ptoMode
  else if congestion.canSend = false then .sendAck
  else if maxOutstandingSentPackets ≤ h.numTrackedPackets then .sendAck
  else if congestion.hasPacingBudget = false then .sendPacingLimited
  else .sendAny

/-- Whatever may be sent, the limit was not reached. -/
theorem unlimited_of_sendMode {congestion : Congestion}
    (hmode : h.sendMode congestion ≠ .stored .sendNone) : h.isAmplificationLimited = false := by
  cases hlim : h.isAmplificationLimited with
  | false => rfl
  | true =>
    rw [sendMode, if_pos hlim] at hmode
    exact absurd rfl hmode

theorem sent_lt_of_unlimited (hlim : h.isAmplificationLimited = false)
    (hv : h.peerAddressValidated = false) :
    h.bytesSent < amplificationFactor * h.bytesReceived := by
  rw [isAmplificationLimited, hv, Bool.not_false, Bool.true_and] at hlim
  exact Nat.not_le.mp (of_decide_eq_false hlim)

/-! ## The counters -/

/-- The bytes received and sent, and whether they are limited. -/
def counters (h : SentPacketHandler) : Nat × Nat × Bool :=
  (h.bytesReceived, h.bytesSent, h.peerAddressValidated)

theorem Shrinks.counters_eq (hs : h.Shrinks h') : h'.counters = h.counters := by
  obtain ⟨-, hv, -, hreceived, hsent, -, -⟩ := settings_eq_iff.mp hs.settings_eq
  rw [counters, hreceived, hsent, hv, counters]

def sentBy : Call → Nat
  | .sentPacket a _ => a.size
  | _ => 0

def receivedBy : Call → Nat
  | .receivedBytes n _ _ => n
  | _ => 0

/-- What a call adds to the counters; an address that was validated stays so. -/
structure Counts (received sent : Nat) (h h' : SentPacketHandler) : Prop where
  received : h'.bytesReceived = h.bytesReceived + received
  sent : h'.bytesSent = h.bytesSent + sent
  validated : h'.peerAddressValidated = false → h.peerAddressValidated = false

theorem Counts.of_eq (heq : h'.counters = h.counters) : Counts 0 0 h h' := by
  obtain ⟨hreceived, hsent, hv⟩ : h'.bytesReceived = h.bytesReceived ∧
      h'.bytesSent = h.bytesSent ∧ h'.peerAddressValidated = h.peerAddressValidated := by
    simpa only [counters, Prod.mk.injEq] using heq
  exact ⟨hreceived, hsent, hv.symm.trans⟩

theorem counters_setSpace (s : PacketNumberSpace) (encLevel : EncryptionLevel) :
    (h.setSpace s encLevel).counters = h.counters := by
  cases encLevel <;> rfl

theorem onHistory_counters (encLevel : EncryptionLevel)
    (f : SentPacketHistory → Except Failure SentPacketHistory) :
    (h.onHistory encLevel f).Meets (fun h' => h'.counters = h.counters) fun _ => True := by
  rw [onHistory]
  cases h.space encLevel with
  | none => trivial
  | some s =>
    have hf : (f s.history).Meets (fun _ => True) fun _ => True := by
      cases f s.history <;> trivial
    exact hf.map fun history _ => counters_setSpace _ encLevel

theorem sentPacket_counts (h : SentPacketHandler) (a : Sent) (rtt : RTT) :
    (h.sentPacket a rtt).Meets (Counts 0 a.size h) fun _ => True := by
  rw [sentPacket]
  cases h.space a.encLevel with
  | none => trivial
  | some s =>
    dsimp only
    generalize hb : SentPacketHandler.setSpace { h with bytesSent := h.bytesSent + a.size }
      { s with largestSent := a.pn } a.encLevel = b
    -- what follows does not change the counters of `b`
    have hcount : ∀ h' : SentPacketHandler, h'.counters = b.counters →
        Counts 0 a.size h h' := by
      intro h' heq
      rw [← hb, counters_setSpace] at heq
      obtain ⟨hreceived, hsent, hv⟩ : h'.bytesReceived = h.bytesReceived ∧
          h'.bytesSent = h.bytesSent + a.size ∧
          h'.peerAddressValidated = h.peerAddressValidated := by
        simpa only [counters, Prod.mk.injEq] using heq
      exact ⟨hreceived, hsent, hv.symm.trans⟩
    split
    · exact (onHistory_counters _ _).map fun h' heq => hcount _ heq
    · split
      · refine (onHistory_counters _ _).map fun h' heq => ?_
        split
        · exact hcount h' heq
        · exact hcount _ heq
      · refine (onHistory_counters _ _).map fun h' heq => hcount _ ?_
        exact heq.trans (counters_setSpace _ _)

theorem receivedAck_counters (h : SentPacketHandler) (ack : AckFrame)
    (encLevel : EncryptionLevel) (t : Int) (rtt : RTT) :
    (h.receivedAck ack encLevel t rtt).Meets (fun r => r.1.counters = h.counters)
      fun _ => True := by
  refine ((receivedAck_cases h ack encLevel t rtt).mono fun r hcases => ?_).mono_error
    fun _ _ => trivial
  obtain ⟨h₁, ht, heq⟩ := hcases
  have hvalidated : (h.completeAddressValidation encLevel t rtt).counters = h.counters := by
    rw [completeAddressValidation]
    split <;> rfl
  have hack := ht.shrinks.counters_eq.trans hvalidated
  rcases heq with heq | heq
  · exact heq ▸ hack
  · exact heq ▸ hack

theorem Drops.counters_eq {encLevel : EncryptionLevel} (hd : Drops h encLevel h') :
    h'.counters = h.counters := by
  cases hd with
  | initial ht | handshake ht | zeroRTT ht => exact ht.shrinks.counters_eq

theorem dropPackets_counters (h : SentPacketHandler) (encLevel : EncryptionLevel) (now : Int)
    (rtt : RTT) : (h.dropPackets encLevel now rtt).Meets (fun h' => h'.counters = h.counters)
      fun _ => True := by
  have hvalidated : (h.validateOnDrop encLevel).counters = h.counters := by
    rw [validateOnDrop]
    split <;> rfl
  refine ((dropPackets_cases h encLevel now rtt).mono fun h' hcases => ?_).mono_error
    fun _ _ => trivial
  rcases hcases with rfl | ⟨h₁, hd, rfl⟩
  · exact hvalidated
  · exact hd.counters_eq.trans hvalidated

theorem resetForRetry_counters (h : SentPacketHandler) (rnd : Nat) :
    (h.resetForRetry rnd).Meets (fun h' => h'.counters = h.counters) fun _ => True := by
  have hz : SentPacketHandler.counters { h with bytesInFlight := 0 } = h.counters := rfl
  rw [resetForRetry]
  generalize { h with bytesInFlight := 0 } = h₀ at hz ⊢
  cases h.initialPackets with
  | none => trivial
  | some s =>
    exact (trimming_foldlM queueForRetry_trims _ h₀).shrinking.map
      fun h₁ hs => hs.counters_eq.trans hz

/-- **What one call adds to the counters.** -/
theorem call_counts (h : SentPacketHandler) (c : Call) :
    (h.call c).Meets (Counts (receivedBy c) (sentBy c) h) fun _ => True := by
  cases c with
  | popPacketNumber encLevel rnd =>
    exact (popPacketNumber_shrinks h encLevel rnd).map fun _ hs =>
      .of_eq hs.counters_eq
  | sentPacket a rtt => exact sentPacket_counts h a rtt
  | receivedAck ack encLevel t rtt =>
    exact (receivedAck_counters h ack encLevel t rtt).map fun _ heq =>
      .of_eq heq
  | onLossDetectionTimeout now rtt rnd =>
    exact (lossDetection_shrinking h now rtt rnd).map fun _ hs =>
      .of_eq hs.counters_eq
  | queueProbePacket encLevel =>
    exact ((queueProbePacket_trims h encLevel).map fun _ ht =>
      .of_eq ht.shrinks.counters_eq).mono_error fun _ _ => trivial
  | dropPackets encLevel now rtt =>
    exact (dropPackets_counters h encLevel now rtt).mono fun _ heq => .of_eq heq
  | resetForRetry rnd => exact (resetForRetry_counters h rnd).mono fun _ heq => .of_eq heq
  | migratedPath now rtt =>
    refine ((migratedPath_cases h now rtt).mono fun h' hcases => ?_).mono_error fun _ _ => trivial
    obtain ⟨h₁, ht, rfl⟩ := hcases
    exact .of_eq ht.shrinks.counters_eq
  | receivedBytes n t rtt =>
    show Counts n 0 h (h.receivedBytes n t rtt)
    rw [receivedBytes]
    split <;> exact ⟨rfl, rfl, id⟩
  | receivedPacket l t rtt =>
    show Counts 0 0 h (h.receivedPacket l t rtt)
    rw [receivedPacket]
    split
    · exact ⟨rfl, rfl, by rintro ⟨⟩⟩
    · exact .of_eq rfl

/-- The calls of a datagram add the sizes of its packets. -/
theorem calls_count (cs : List Call) (hcs : ∀ c ∈ cs, receivedBy c = 0) : ∀ h : SentPacketHandler,
      (cs.foldlM call h).Meets (Counts 0 (cs.map sentBy).sum h) fun _ => True := by
  induction cs with
  | nil =>
    intro h
    exact ⟨rfl, rfl, id⟩
  | cons c cs ih =>
    intro h
    rw [foldlM_cons]
    have hc : receivedBy c = 0 := hcs c mem_cons_self
    have hrest : ∀ c ∈ cs, receivedBy c = 0 := fun d hd => hcs d (mem_cons_of_mem c hd)
    refine (call_counts h c).bind fun h₁ h₁c => ?_
    refine (ih hrest h₁).mono fun h₂ h₂c => ⟨?_, ?_, fun hv => h₁c.validated (h₂c.validated hv)⟩
    · rw [h₂c.received, h₁c.received, hc, Nat.add_zero]
    · rw [h₂c.sent, h₁c.sent, map_cons, sum_cons, Nat.add_assoc]

/-! ## Sending in datagrams -/

/-- What happens at a connection, as far as the handler is told. -/
inductive DatagramEvent
  | datagram (congestion : Congestion) (maxPacketSize : Nat) (cs : List Call)
  | call (c : Call)
  deriving DecidableEq, Repr

/-- A call made while a datagram is packed and registered. -/
def Packs : Call → Prop
  | .popPacketNumber .. | .queueProbePacket _ | .sentPacket .. => True
  | _ => False

instance : (c : Call) → Decidable (Packs c)
  | .popPacketNumber .. | .queueProbePacket _ | .sentPacket .. => .isTrue trivial
  | .receivedAck .. | .onLossDetectionTimeout .. | .dropPackets .. | .resetForRetry _
  | .migratedPath .. | .receivedBytes .. | .receivedPacket .. => .isFalse id

theorem receivedBy_of_packs {c : Call} (hc : Packs c) : receivedBy c = 0 := by
  cases c with
  | receivedBytes n t rtt => exact hc.elim
  | _ => rfl

/-- A datagram is sent if the mode allows it, and is not larger than the maximum packet size; a
packet is sent in a datagram only. -/
def DatagramPermitted (h : SentPacketHandler) : DatagramEvent → Prop
  | .datagram congestion maxPacketSize cs =>
    h.sendMode congestion ≠ .stored .sendNone ∧ (∀ c ∈ cs, Packs c) ∧
      (cs.map sentBy).sum ≤ maxPacketSize
  | .call c => sentBy c = 0

instance (h : SentPacketHandler) : (e : DatagramEvent) → Decidable (h.DatagramPermitted e)
  | .datagram congestion maxPacketSize cs => inferInstanceAs (Decidable
      (h.sendMode congestion ≠ .stored .sendNone ∧ (∀ c ∈ cs, Packs c) ∧
        (cs.map sentBy).sum ≤ maxPacketSize))
  | .call c => inferInstanceAs (Decidable (sentBy c = 0))

def datagramStep (h : SentPacketHandler) (e : DatagramEvent) : Option SentPacketHandler :=
  if h.DatagramPermitted e then
    match e with
    | .datagram _ _ cs => (cs.foldlM call h).toOption
    | .call c => (h.call c).toOption
  else none

/-- The handler of a server, with a client whose address is not validated yet. -/
def datagramMachine (initialPN rnd : Nat) : Machine SentPacketHandler DatagramEvent :=
  .ofStep (new initialPN false .server rnd) datagramStep

/-- **What an event does to the counters**: a datagram is sent below the limit, any other event
sends nothing. -/
theorem datagramStep_cases {e : DatagramEvent} (hstep : h.datagramStep e = some h') :
    (∃ congestion maxPacketSize cs, e = .datagram congestion maxPacketSize cs ∧
      h.isAmplificationLimited = false ∧ (cs.map sentBy).sum ≤ maxPacketSize ∧
      Counts 0 (cs.map sentBy).sum h h') ∨ ∃ c, e = .call c ∧ Counts (receivedBy c) 0 h h' := by
  cases e with
  | datagram congestion maxPacketSize cs =>
    simp only [datagramStep] at hstep
    split_ifs at hstep with hperm
    obtain ⟨hmode, hpacks, hsize⟩ := hperm
    refine .inl ⟨congestion, maxPacketSize, cs, rfl, unlimited_of_sendMode hmode, hsize, ?_⟩
    exact (calls_count cs (fun c hc => receivedBy_of_packs (hpacks c hc)) h).of_eq_ok
      (toOption_eq_some_iff.mp hstep)
  | call c =>
    simp only [datagramStep] at hstep
    split_ifs at hstep with hperm
    have hsent : sentBy c = 0 := hperm
    have hcount := (call_counts h c).of_eq_ok (toOption_eq_some_iff.mp hstep)
    rw [hsent] at hcount
    exact .inr ⟨c, rfl, hcount⟩

section Runs

variable {initialPN rnd : Nat} {tr : List DatagramEvent}

def AtMost (m : Nat) : DatagramEvent → Prop
  | .datagram _ maxPacketSize _ => maxPacketSize ≤ m
  | .call _ => True

/-- **Less than one datagram too much**: `SendMode` looks at what was sent already. -/
theorem bytesSent_le {m : Nat} (hrun : (datagramMachine initialPN rnd).Run tr h) :
    (∀ e ∈ tr, AtMost m e) → h.peerAddressValidated = false →
      h.bytesSent ≤ amplificationFactor * h.bytesReceived + (m - 1) := by
  refine Machine.Run.invariant (I := fun tr h => (∀ e ∈ tr, AtMost m e) →
    h.peerAddressValidated = false →
      h.bytesSent ≤ amplificationFactor * h.bytesReceived + (m - 1)) ?_ ?_ hrun
  · rintro h rfl - -
    exact Nat.zero_le _
  · intro tr h e h' _ ih hstep hmax hv'
    rw [forall_mem_append, forall_mem_singleton] at hmax
    obtain ⟨congestion, maxPacketSize, cs, rfl, hlim, hsize, hcount⟩ | ⟨c, rfl, hcount⟩ :=
      datagramStep_cases hstep
    · -- there was room for one more byte
      have hroom := sent_lt_of_unlimited hlim (hcount.validated hv')
      have hm : maxPacketSize ≤ m := hmax.2
      rw [hcount.sent, hcount.received, Nat.add_zero]
      omega
    · have hbefore := ih hmax.1 (hcount.validated hv')
      rw [hcount.sent, hcount.received, Nat.add_zero, Nat.mul_add]
      omega

def initialDatagram (pn size : Nat) : DatagramEvent :=
  .datagram ⟨true, true⟩ 1280 [.popPacketNumber .initial 0,
    .sentPacket ⟨1000000000, pn, invalidPacketNumber, [], [⟨pn, true⟩], .initial, size, false,
      false⟩ ⟨100000000, 300000000, 300000000⟩]

/-- 1200 bytes were received, and `n` datagrams are sent. -/
def answered (size n : Nat) : List DatagramEvent :=
  .call (.receivedBytes 1200 1000000000 ⟨100000000, 300000000, 300000000⟩) ::
    (List.range n).map (initialDatagram · size)

theorem bytesSent_le_three : ∃ h, (datagramMachine 0 0).Run (answered 1280 3) h ∧
    h.bytesSent ≤ amplificationFactor * h.bytesReceived + 1279 := by
  have hmax : ∀ e ∈ answered 1280 3, AtMost 1280 e := by
    simp [answered, initialDatagram, AtMost]
  have hrun : (datagramMachine 0 0).Run (answered 1280 3) _ := Machine.run_ofStep_iff.mpr rfl
  exact ⟨_, hrun, bytesSent_le hrun hmax rfl⟩

/-- **One datagram of 1200 bytes is answered by three of 1280 bytes.** -/
theorem bytesSent_beyond_limit :
    ∃ h, (datagramMachine 0 0).Run (answered 1280 3) h ∧ h.peerAddressValidated = false ∧
      h.bytesReceived = 1200 ∧ h.bytesSent = 3840 ∧
      amplificationFactor * h.bytesReceived < h.bytesSent := by
  refine ⟨((answered 1280 3).foldlM datagramStep (new 0 false .server 0)).getD
    (new 0 false .server 0), Machine.run_ofStep_iff.mpr ?_, ?_⟩
  · decide
  · decide

end Runs

end SentPacketHandler

end UQuic.AckHandler
