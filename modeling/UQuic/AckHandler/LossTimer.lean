/-
# `UQuic.AckHandler.LossTimer` — the loss detection timer is armed when it has to be

The alarm of the sent packet handler is a stored value.  `setLossDetectionTimer` computes
it anew, and some calls leave it as it is:

    SentPacket (ack-eliciting, path probe)    set
    SentPacket (other)                        set until the peer completed validation
    ReceivedAck                               set if a packet was acknowledged
    ReceivedBytes, ReceivedPacket             set if the amplification limit is lifted
    DropPackets                               set, unless the keys were dropped before
    OnLossDetectionTimeout, MigratedPath      set
    QueueProbePacket, PopPacketNumber         left as it is
    ResetForRetry                             cleared

## What is proved

`lossTimer_armed`: in every reachable state in which the handler is not amplification
limited and something must be retransmitted or probed (`Needs`), the alarm is not zero.

## How

A call that does not set the alarm only takes packets away (`Shrinks`), so whatever needs
the alarm afterwards needed it before.  Where the alarm is set, `Clocked` makes it non-zero: a
space with outstanding packets knows when it last sent one.  Times are readings of a clock,
after the zero value of `time.Time`.
-/
import UQuic.AckHandler.Books

namespace UQuic.AckHandler

open List Except
open UQuic.Wire (AckRange AckFrame)

/-! ## Taking packets away -/

/-- No outstanding packet and no path probe was added. -/
structure SentPacketHistory.Shrinks (h h' : SentPacketHistory) : Prop where
  outstanding : h'.numOutstanding ≤ h.numOutstanding
  probes : ∀ p ∈ h'.pathProbePackets, p ∈ h.pathProbePackets

namespace SentPacketHistory

variable {h h' h'' : SentPacketHistory} {pn : Int}

theorem Shrinks.refl (h : SentPacketHistory) : h.Shrinks h := ⟨le_rfl, fun _ hp => hp⟩

theorem Shrinks.trans (h₁ : h.Shrinks h') (h₂ : h'.Shrinks h'') : h.Shrinks h'' :=
  ⟨h₂.outstanding.trans h₁.outstanding, fun p hp => h₁.probes p (h₂.probes p hp)⟩

/-- A number is used in sequence, and then something is added that counts for nothing. -/
theorem checkSequential_shrinks (h : SentPacketHistory) (pn : Int)
    {f : SentPacketHistory → SentPacketHistory} (hf : ∀ h : SentPacketHistory, h.Shrinks (f h)) :
    ((h.checkSequentialPacketNumberUse pn).map f).Meets h.Shrinks fun _ => True := by
  rw [checkSequentialPacketNumberUse]
  split
  · trivial
  · have hnumber : h.Shrinks { h with highestPacketNumber := pn } :=
      ⟨le_rfl, fun _ hp => hp⟩
    exact hnumber.trans (hf _)

theorem skippedPacket_shrinks (h : SentPacketHistory) (pn : Int) :
    (h.skippedPacket pn).Meets h.Shrinks fun _ => True :=
  checkSequential_shrinks h pn fun _ => ⟨le_rfl, fun _ hp => hp⟩

theorem sentNonAckElicitingPacket_shrinks (h : SentPacketHistory) (pn : Int) :
    (h.sentNonAckElicitingPacket pn).Meets h.Shrinks fun _ => True := by
  refine checkSequential_shrinks h pn fun h => ?_
  split
  · exact .refl h
  · exact ⟨le_rfl, fun _ hp => hp⟩

end SentPacketHistory

/-- The same for a packet number space, which still knows when it last sent a packet. -/
structure PacketNumberSpace.Shrinks (s s' : PacketNumberSpace) : Prop where
  history : s.history.Shrinks s'.history
  lastSent : s'.lastAckElicitingPacketTime = s.lastAckElicitingPacketTime

namespace SentPacketHandler

/-- Packets were taken away, and the alarm is as it was. -/
structure Shrinks (h h' : SentPacketHandler) : Prop where
  space : ∀ l s', h'.space l = some s' → ∃ s, h.space l = some s ∧ s.Shrinks s'
  settings_eq : h'.settings = h.settings

variable {h h' h'' : SentPacketHandler} {encLevel : EncryptionLevel} {s s' : PacketNumberSpace}
  {a : Sent} {now : Int} {sent : Bool} {x : Except Failure SentPacketHandler}

theorem Shrinks.refl (h : SentPacketHandler) : h.Shrinks h :=
  ⟨fun _ s hs => ⟨s, hs, .refl _, rfl⟩, rfl⟩

theorem Shrinks.trans (h₁ : h.Shrinks h') (h₂ : h'.Shrinks h'') : h.Shrinks h'' := by
  refine ⟨fun l s'' hs'' => ?_, h₂.settings_eq.trans h₁.settings_eq⟩
  obtain ⟨s', hs', hsub'⟩ := h₂.space l s'' hs''
  obtain ⟨s, hs, hsub⟩ := h₁.space l s' hs'
  exact ⟨s, hs, hsub.history.trans hsub'.history, hsub'.lastSent.trans hsub.lastSent⟩

theorem Shrinks.of_eq (hspace : ∀ l, h'.space l = h.space l)
    (hsettings : h'.settings = h.settings) :
    h.Shrinks h' :=
  ⟨fun l s hs => ⟨s, (hspace l).symm.trans hs, .refl _, rfl⟩, hsettings⟩

theorem Shrinks.setSpace (hs : h.space encLevel = some s) (hsub : s.Shrinks s') :
    h.Shrinks (h.setSpace s' encLevel) := by
  refine ⟨fun l t ht => ?_, settings_setSpace⟩
  rcases space_setSpace_cases hs ht with hold | ⟨hnew, hold⟩
  · exact ⟨t, hold, .refl _, rfl⟩
  · exact ⟨s, hold, hnew ▸ hsub⟩

theorem Trims.shrinks (ht : h.Trims h') : h.Shrinks h' := by
  refine ⟨fun l s' hs' => ?_, ht.settings_eq⟩
  obtain ⟨s, hs, hts⟩ := ht.space l s' hs'
  exact ⟨s, hs, { hts.history with }, hts.lastSent⟩

/-- The result of a computation has shrunk. -/
def Shrinking (h : SentPacketHandler) (x : Except Failure SentPacketHandler) : Prop :=
  x.Meets h.Shrinks fun _ => True

theorem Trimming.shrinking (hx : h.Trimming x) : h.Shrinking x :=
  (Meets.mono hx fun _ ht => ht.shrinks).mono_error fun _ _ => trivial

variable {f : SentPacketHistory → Except Failure SentPacketHistory}

theorem onHistory_shrinking (hf : ∀ history, (f history).Meets history.Shrinks fun _ => True) :
    h.Shrinking (h.onHistory encLevel f) := by
  rw [onHistory]
  cases hs : h.space encLevel with
  | none => trivial
  | some s =>
    exact (hf s.history).map fun history hsub => .setSpace hs ⟨hsub, rfl⟩

/-! ### Packet numbers and the timeout -/

theorem popPacketNumber_shrinks (h : SentPacketHandler) (encLevel : EncryptionLevel) (rnd : Nat) :
    (h.popPacketNumber encLevel rnd).Meets (fun r => h.Shrinks r.1) fun _ => True := by
  rw [popPacketNumber]
  cases hs : h.space encLevel with
  | none => trivial
  | some s =>
    dsimp only
    split
    · refine (s.history.skippedPacket_shrinks _).map fun history hsub => ?_
      exact .setSpace hs ⟨hsub, rfl⟩
    · exact .setSpace hs ⟨.refl _, rfl⟩

theorem lossDetection_shrinking (h : SentPacketHandler) (now : Int) (rtt : RTT) (rnd : Nat) :
    h.Shrinking ((if h.handshakeConfirmed then h.detectLostPathProbes now else .ok h).bind
      (·.lossOrPTO now rtt rnd)) := by
  refine lossDetection_rule (fun _ _ => trivial) (I := h.Shrinks) ?_ ?_ ?_ ?_ ?_ (.refl h)
  · exact fun _ _ _ hs => hs.trans (.of_eq (fun l => by cases l <;> rfl) rfl)
  · exact fun hs => (detectLostPathProbes_trims _ now).shrinking.mono fun _ hs' => hs.trans hs'
  · exact fun l hs => (detectLostPackets_trims _ now l rtt).shrinking.mono
      fun _ hs' => hs.trans hs'
  · exact fun hs => (popPacketNumber_shrinks _ .oneRTT rnd).mono fun _ hs' => hs.trans hs'
  · exact fun pn hs => (onHistory_shrinking fun history => history.skippedPacket_shrinks pn).mono
      fun _ hs' => hs.trans hs'

/-! ## What needs the timer -/

/-- Something has to be retransmitted or probed.  `sent` is that a packet was sent since the last
Retry.  Path probes are 1-RTT packets (`registerPackedShortHeaderPacket`). -/
def Needs (sent : Bool) (h : SentPacketHandler) : Prop :=
  h.hasOutstandingCryptoPackets = true ∨
  (h.handshakeConfirmed = true ∧ h.appDataPackets.history.hasOutstandingPackets = true) ∨
  h.appDataPackets.history.hasOutstandingPathProbes = true ∨
  (h.perspective = .client ∧ h.peerCompletedAddressValidation = false ∧ sent = true)

/-- The alarm is set if it is needed. -/
def Armed (sent : Bool) (h : SentPacketHandler) : Prop :=
  h.isAmplificationLimited = false → h.Needs sent → h.alarm.time ≠ 0

/-- What makes an alarm non-zero where it is set. -/
structure Clocked (h : SentPacketHandler) : Prop where
  outstanding : ∀ l s, h.space l = some s → 0 < s.history.numOutstanding →
    0 < s.lastAckElicitingPacketTime
  probes : ∀ p ∈ h.appDataPackets.history.pathProbePackets, 0 < p.sendTime
  server : h.perspective = .server → h.peerCompletedAddressValidation = true
  confirmed : h.handshakeConfirmed = true → h.peerCompletedAddressValidation = true

theorem settings_eq_iff : h'.settings = h.settings ↔
    h'.peerCompletedAddressValidation = h.peerCompletedAddressValidation ∧
    h'.peerAddressValidated = h.peerAddressValidated ∧
    h'.handshakeConfirmed = h.handshakeConfirmed ∧ h'.bytesReceived = h.bytesReceived ∧
    h'.bytesSent = h.bytesSent ∧ h'.perspective = h.perspective ∧ h'.alarm = h.alarm := by
  simp only [settings, Prod.mk.injEq]

theorem hasOutstandingCryptoPackets_iff : h.hasOutstandingCryptoPackets = true ↔
    (∃ s, h.initialPackets = some s ∧ 0 < s.history.numOutstanding) ∨
      ∃ s, h.handshakePackets = some s ∧ 0 < s.history.numOutstanding := by
  simp only [hasOutstandingCryptoPackets, SentPacketHistory.hasOutstandingPackets,
    Bool.or_eq_true, Option.any_eq_true, decide_eq_true_eq]

variable {history : SentPacketHistory}

theorem hasOutstandingPathProbes_iff :
    history.hasOutstandingPathProbes = true ↔ history.pathProbePackets ≠ [] := by
  rw [SentPacketHistory.hasOutstandingPathProbes, Bool.not_eq_true', isEmpty_eq_false_iff]

section

variable (hs : h.Shrinks h')

include hs

/-- What is outstanding after packets were taken away was outstanding before. -/
theorem Shrinks.crypto (hc : h'.hasOutstandingCryptoPackets = true) :
    h.hasOutstandingCryptoPackets = true := by
  rw [hasOutstandingCryptoPackets_iff] at hc ⊢
  rcases hc with ⟨s', hs', hpos⟩ | ⟨s', hs', hpos⟩
  · obtain ⟨s, hspace, hsub⟩ := hs.space .initial s' hs'
    exact .inl ⟨s, hspace, hpos.trans_le hsub.history.outstanding⟩
  · obtain ⟨s, hspace, hsub⟩ := hs.space .handshake s' hs'
    exact .inr ⟨s, hspace, hpos.trans_le hsub.history.outstanding⟩

theorem Shrinks.appData : h.appDataPackets.Shrinks h'.appDataPackets := by
  obtain ⟨s, hspace, hsub⟩ := hs.space .oneRTT h'.appDataPackets rfl
  cases hspace
  exact hsub

theorem Shrinks.appOutstanding (ho : h'.appDataPackets.history.hasOutstandingPackets = true) :
    h.appDataPackets.history.hasOutstandingPackets = true :=
  decide_eq_true ((of_decide_eq_true ho).trans_le hs.appData.history.outstanding)

theorem Shrinks.appProbes (hp : h'.appDataPackets.history.hasOutstandingPathProbes = true) :
    h.appDataPackets.history.hasOutstandingPathProbes = true := by
  rw [hasOutstandingPathProbes_iff] at hp ⊢
  intro hnil
  obtain ⟨p, hmem⟩ := exists_mem_of_ne_nil _ hp
  have hmem' := hs.appData.history.probes p hmem
  rw [hnil] at hmem'
  cases hmem'

theorem Shrinks.needs (hn : h'.Needs sent) : h.Needs sent := by
  obtain ⟨hcompleted, -, hconfirmed, -, -, hpers, -⟩ := settings_eq_iff.mp hs.settings_eq
  rcases hn with hn | ⟨hc, ho⟩ | hp | ⟨hclient, hnot, hsent⟩
  · exact .inl (hs.crypto hn)
  · exact .inr (.inl ⟨hconfirmed ▸ hc, hs.appOutstanding ho⟩)
  · exact .inr (.inr (.inl (hs.appProbes hp)))
  · exact .inr (.inr (.inr ⟨hpers ▸ hclient, hcompleted ▸ hnot, hsent⟩))

theorem Shrinks.limited : h'.isAmplificationLimited = h.isAmplificationLimited := by
  obtain ⟨-, hvalidated, -, hreceived, hsent, -, -⟩ := settings_eq_iff.mp hs.settings_eq
  rw [isAmplificationLimited, isAmplificationLimited, hvalidated, hreceived, hsent]

end

theorem Armed.shrinks (ha : h.Armed sent) (hs : h.Shrinks h') : h'.Armed sent := by
  intro hlim hn
  obtain ⟨-, -, -, -, -, -, halarm⟩ := settings_eq_iff.mp hs.settings_eq
  rw [halarm]
  exact ha (hs.limited ▸ hlim) (hs.needs hn)

theorem Clocked.shrinks (hc : h.Clocked) (hs : h.Shrinks h') : h'.Clocked := by
  obtain ⟨hcompleted, -, hconfirmed, -, -, hpers, -⟩ := settings_eq_iff.mp hs.settings_eq
  constructor
  case outstanding =>
    intro l s' hs' hpos
    obtain ⟨s, hspace, hsub⟩ := hs.space l s' hs'
    rw [hsub.lastSent]
    exact hc.outstanding l s hspace (hpos.trans_le hsub.history.outstanding)
  case probes =>
    intro p hp
    exact hc.probes p (hs.appData.history.probes p hp)
  case server =>
    intro hserver
    rw [hcompleted]
    exact hc.server (hpers ▸ hserver)
  case confirmed =>
    intro h'
    rw [hcompleted]
    exact hc.confirmed (hconfirmed ▸ h')

/-- A space may vanish, the others are not written. -/
theorem Clocked.of_space (hc : h.Clocked) (hs : ∀ l s, h'.space l = some s → h.space l = some s)
    (hserver : h'.perspective = .server → h'.peerCompletedAddressValidation = true)
    (hconfirmed : h'.handshakeConfirmed = true → h'.peerCompletedAddressValidation = true) :
    h'.Clocked := by
  have happ : h.appDataPackets = h'.appDataPackets :=
    Option.some.inj (hs .oneRTT h'.appDataPackets rfl)
  refine ⟨fun l s hl => hc.outstanding l s (hs l s hl), ?_, hserver, hconfirmed⟩
  rw [← happ]
  exact hc.probes

/-! ## Setting the timer -/

theorem getScaledPTO_pos (h : SentPacketHandler) (pto : Int) : 0 < h.getScaledPTO pto := by
  rw [getScaledPTO]
  split_ifs with hscaled
  · decide
  · omega

/-- A time that was found stays, or an earlier one is found. -/
theorem earlierPTO_ne_zero {best : Int × Option EncryptionLevel} {o : Option PacketNumberSpace}
    {pto : Int} (hpto : 0 < pto)
    (ho : ∀ s, o = some s → 0 < s.history.numOutstanding → 0 < s.lastAckElicitingPacketTime)
    (h : best.1 ≠ 0 ∨ ∃ s, o = some s ∧ 0 < s.history.numOutstanding) :
    (earlierPTO best o pto encLevel).1 ≠ 0 := by
  cases o with
  | none =>
    rcases h with h | ⟨s, hs, -⟩
    · exact h
    · cases hs
  | some s =>
    rw [earlierPTO]
    split_ifs with hcond
    · simp only [Bool.and_eq_true, SentPacketHistory.hasOutstandingPackets,
        decide_eq_true_eq] at hcond
      have hlast := ho s rfl hcond.1.1
      omega
    · -- nothing was found here, so there was a time before
      rcases h with h | ⟨s', hs', hpos⟩
      · exact h
      · cases hs'
        have hlast := ho s rfl hpos
        intro hz
        refine hcond ?_
        simp only [isZeroTime, SentPacketHistory.hasOutstandingPackets, hz,
          Bool.and_eq_true, decide_eq_true_eq, Bool.not_eq_true', beq_eq_false_iff_ne,
          Bool.or_eq_true, beq_self_eq_true, true_or, and_true]
        omega

/-- The PTO is set if a space with outstanding packets may be probed, and for a client that waits
for its address to be validated. -/
theorem getPTOTime_ne_zero (hc : h.Clocked) (hnow : 0 < now) (rtt : RTT)
    (hn : h.hasOutstandingCryptoPackets = true ∨
      (h.handshakeConfirmed = true ∧ h.appDataPackets.history.hasOutstandingPackets = true) ∨
      h.peerCompletedAddressValidation = false) : (h.getPTOTimeAndSpace now rtt).1 ≠ 0 := by
  rw [getPTOTimeAndSpace]
  split
  · rename_i hno
    rw [Bool.and_eq_true, Bool.not_eq_true', Bool.not_eq_true'] at hno
    have hnot : h.peerCompletedAddressValidation = false := by
      rcases hn with hn | ⟨hn, -⟩ | hn
      · rw [hno.2] at hn
        cases hn
      · rw [hno.1] at hn
        cases hn
      · exact hn
    rw [if_neg (by rw [hnot]; exact Bool.false_ne_true)]
    have hpto := h.getScaledPTO_pos rtt.pto
    show now + h.getScaledPTO rtt.pto ≠ 0
    omega
  · rename_i hsomething
    have hpto := h.getScaledPTO_pos rtt.pto
    have hinitial := hc.outstanding .initial
    have hhandshake := hc.outstanding .handshake
    dsimp only
    have hcrypto : h.hasOutstandingCryptoPackets = true →
        (earlierPTO (earlierPTO (0, none) h.initialPackets (h.getScaledPTO rtt.pto) .initial)
          h.handshakePackets (h.getScaledPTO rtt.pto) .handshake).1 ≠ 0 := by
      intro hout
      rw [hasOutstandingCryptoPackets_iff] at hout
      rcases hout with hout | hout
      · exact earlierPTO_ne_zero hpto hhandshake
          (.inl (earlierPTO_ne_zero hpto hinitial (.inr hout)))
      · exact earlierPTO_ne_zero hpto hhandshake (.inr hout)
    split_ifs with hconfirmed
    · refine earlierPTO_ne_zero (h.getScaledPTO_pos rtt.ptoInclMaxAckDelay) ?_ ?_
      · intro s hs hpos
        cases hs
        exact hc.outstanding .oneRTT _ rfl hpos
      · rcases hn with hn | ⟨-, hn⟩ | hn
        · exact .inl (hcrypto hn)
        · exact .inr ⟨_, rfl, of_decide_eq_true hn⟩
        · rw [hc.confirmed hconfirmed] at hn
          cases hn
    · have hout : h.hasOutstandingCryptoPackets = true := by
        rw [Bool.and_eq_true, Bool.not_eq_true', Bool.not_eq_true', not_and] at hsomething
        exact eq_true_of_ne_false (hsomething (eq_false_of_ne_true hconfirmed))
      exact hcrypto hout

theorem pathProbeLossTime_ne_zero (hc : h.Clocked)
    (hp : h.appDataPackets.history.hasOutstandingPathProbes = true) : h.pathProbeLossTime ≠ 0 := by
  rw [hasOutstandingPathProbes_iff] at hp
  rw [pathProbeLossTime, SentPacketHistory.firstOutstandingPathProbe]
  obtain ⟨p, rest, hlist⟩ := exists_cons_of_ne_nil hp
  rw [hlist, List.head?_cons]
  have hpos := hc.probes p (by rw [hlist]; exact mem_cons_self)
  have htimeout : pathProbePacketLossTimeout = 1000000000 := rfl
  dsimp only
  omega

/-- **Where the timer is set, it is armed.** -/
theorem lossDetectionTime_ne_zero (hc : h.Clocked) (hnow : 0 < now) (rtt : RTT)
    (hlim : h.isAmplificationLimited = false) (hn : h.Needs sent) :
    (h.lossDetectionTime now rtt).time ≠ 0 := by
  -- a probe, or else a PTO
  have htime : h.pathProbeLossTime ≠ 0 ∨ (h.getPTOTimeAndSpace now rtt).1 ≠ 0 := by
    rcases hn with hn | hn | hn | ⟨-, hn, -⟩
    · exact .inr (getPTOTime_ne_zero hc hnow rtt (.inl hn))
    · exact .inr (getPTOTime_ne_zero hc hnow rtt (.inr (.inl hn)))
    · exact .inl (pathProbeLossTime_ne_zero hc hn)
    · exact .inr (getPTOTime_ne_zero hc hnow rtt (.inr (.inr hn)))
  have hcancel : (h.peerCompletedAddressValidation && !h.hasOutstandingCryptoPackets &&
      !h.appDataPackets.history.hasOutstandingPackets &&
      !h.appDataPackets.history.hasOutstandingPathProbes) = false := by
    rcases hn with hn | ⟨-, hn⟩ | hn | ⟨-, hn, -⟩
    · rw [hn, Bool.not_true, Bool.and_false, Bool.false_and, Bool.false_and]
    · rw [hn, Bool.not_true, Bool.and_false, Bool.false_and]
    · rw [hn, Bool.not_true, Bool.and_false]
    · rw [hn, Bool.false_and, Bool.false_and, Bool.false_and]
  rw [lossDetectionTime, hcancel, if_neg Bool.false_ne_true, hlim, if_neg Bool.false_ne_true]
  generalize h.getPTOTimeAndSpace now rtt = pto at htime ⊢
  obtain ⟨lossTime, lossLevel⟩ := h.getLossTimeAndSpace
  obtain ⟨ptoTime, ptoLevel⟩ := pto
  dsimp only at htime ⊢
  split
  · rename_i hloss
    simp only [isZeroTime, Bool.and_eq_true, Bool.not_eq_true', beq_eq_false_iff_ne] at hloss
    exact hloss.1
  · split
    · rename_i hpto
      simp only [isZeroTime, Bool.and_eq_true, Bool.not_eq_true', beq_eq_false_iff_ne] at hpto
      exact hpto.1
    · rename_i hpto
      split_ifs with hprobe
      · simp only [isZeroTime, Bool.not_eq_true', beq_eq_false_iff_ne] at hprobe
        exact hprobe
      · -- without a probe the PTO would have been taken
        simp only [isZeroTime, Bool.not_eq_true, Bool.not_eq_false', beq_iff_eq] at hprobe
        rcases htime with htime | htime
        · exact absurd hprobe htime
        · refine absurd ?_ hpto
          simp only [isZeroTime, hprobe, beq_self_eq_true, Bool.true_or, Bool.and_true,
            Bool.not_eq_true', beq_eq_false_iff_ne]
          exact htime

/-! ## Every call -/

/-- The times of a call are readings of a clock. -/
def OnClock : Call → Prop
  | .sentPacket a _ => 0 < a.time
  | .receivedAck _ _ t _ | .onLossDetectionTimeout t _ _ | .dropPackets _ t _
  | .migratedPath t _ | .receivedBytes _ t _ | .receivedPacket _ t _ => 0 < t
  | .popPacketNumber _ _ | .queueProbePacket _ | .resetForRetry _ => True

instance : (c : Call) → Decidable (OnClock c)
  | .sentPacket a _ => inferInstanceAs (Decidable (0 < a.time))
  | .receivedAck _ _ t _ | .onLossDetectionTimeout t _ _ | .dropPackets _ t _
  | .migratedPath t _ | .receivedBytes _ t _ | .receivedPacket _ t _ =>
    inferInstanceAs (Decidable (0 < t))
  | .popPacketNumber _ _ | .queueProbePacket _ | .resetForRetry _ => .isTrue trivial

/-- Whether a packet was sent since the last Retry, after one more call. -/
def sentAfter (sent : Bool) : Call → Bool
  | .sentPacket _ _ => true
  | .resetForRetry _ => false
  | .popPacketNumber _ _ | .receivedAck _ _ _ _ | .onLossDetectionTimeout _ _ _
  | .queueProbePacket _ | .dropPackets _ _ _ | .migratedPath _ _ | .receivedBytes _ _ _
  | .receivedPacket _ _ _ => sent

/-- Whether a packet was sent since the last Retry. -/
def sentSinceRetry (tr : List Call) : Bool := tr.foldl sentAfter false

/-- What every call keeps. -/
def Ready (sent : Bool) (h : SentPacketHandler) : Prop := h.Clocked ∧ h.Armed sent

theorem Ready.shrinks (hr : h.Ready sent) (hs : h.Shrinks h') : h'.Ready sent :=
  ⟨hr.1.shrinks hs, hr.2.shrinks hs⟩

theorem Clocked.ready (hc : h.Clocked) (hnow : 0 < now) (rtt : RTT) (sent : Bool) :
    (h.setLossDetectionTimer now rtt).Ready sent :=
  ⟨{ hc with }, fun hlim hn => lossDetectionTime_ne_zero hc hnow rtt hlim hn⟩

theorem ready_new (initialPN : Nat) (validated : Bool) (pers : Perspective) (rnd : Nat) :
    (new initialPN validated pers rnd).Ready false := by
  refine ⟨⟨?_, forall_mem_nil _, ?_, nofun⟩, ?_⟩
  · intro l s hs hpos
    cases l <;> cases hs <;> cases hpos
  · intro hserver
    exact beq_iff_eq.mpr hserver
  · rintro - (hn | ⟨hn, -⟩ | hn | ⟨-, -, hn⟩)
    · cases hn
    · cases hn
    · cases hn
    · cases hn

/-! ### Sending -/

/-- A space is written whose times are in order. -/
theorem Clocked.setSpace (hc : h.Clocked) (hs : h.space encLevel = some s)
    (ho : 0 < s'.history.numOutstanding → 0 < s'.lastAckElicitingPacketTime)
    (hp : ∀ p ∈ s'.history.pathProbePackets,
      p ∈ s.history.pathProbePackets ∨ 0 < p.sendTime) : (h.setSpace s' encLevel).Clocked := by
  have hset : (h.setSpace s' encLevel).settings = h.settings := settings_setSpace
  obtain ⟨hcompleted, -, hconfirmed, -, -, hpers, -⟩ := settings_eq_iff.mp hset
  constructor
  case outstanding =>
    intro l t ht
    rcases space_of_setSpace ht with rfl | ht
    · exact ho
    · exact hc.outstanding l t ht
  case probes =>
    have happ : h.appDataPackets = s → ∀ p ∈ s'.history.pathProbePackets, 0 < p.sendTime := by
      rintro rfl p hmem
      exact (hp p hmem).elim (hc.probes p) id
    cases encLevel with
    | initial | handshake => exact hc.probes
    | zeroRTT | oneRTT => exact happ (Option.some.inj hs)
  case server =>
    rw [hpers, hcompleted]
    exact hc.server
  case confirmed =>
    rw [hconfirmed, hcompleted]
    exact hc.confirmed

theorem onHistory_clocked (hc : h.Clocked)
    (hf : ∀ s, h.space encLevel = some s → (f s.history).Meets
      (fun history => (0 < history.numOutstanding → 0 < s.lastAckElicitingPacketTime) ∧
        ∀ p ∈ history.pathProbePackets, p ∈ s.history.pathProbePackets ∨ 0 < p.sendTime)
      fun _ => True) : (h.onHistory encLevel f).Meets Clocked fun _ => True := by
  rw [onHistory]
  cases hs : h.space encLevel with
  | none => trivial
  | some s =>
    exact (hf s hs).map fun history hh => hc.setSpace hs hh.1 hh.2

theorem checkSequential_meets_of {pn : Int}
    {f : SentPacketHistory → SentPacketHistory} {Q : SentPacketHistory → Prop}
    (hQ : Q (f { history with highestPacketNumber := pn })) :
    ((history.checkSequentialPacketNumberUse pn).map f).Meets Q fun _ => True := by
  rw [SentPacketHistory.checkSequentialPacketNumberUse]
  split
  · trivial
  · exact hQ

theorem sentPathProbe_clocked (hc : h.Clocked) (ht : 0 < a.time) :
    (h.sentPathProbe a).Meets Clocked fun _ => True := by
  refine onHistory_clocked hc fun s hs => checkSequential_meets_of ⟨hc.outstanding _ s hs, ?_⟩
  intro p hp
  rcases mem_append.mp hp with hp | hp
  · exact .inl hp
  · rw [mem_singleton.mp hp]
    exact .inr ht

/-- The alarm is set, or nothing has changed that it depends on but the bytes sent. -/
theorem sentNonAckEliciting_ready (hc : h.Clocked) (ht : 0 < a.time)
    (rtt : RTT) (ha : h.peerCompletedAddressValidation = true → h.Armed sent) :
    (h.sentNonAckEliciting a rtt).Meets (Ready true) fun _ => True := by
  have hshrinks : h.Shrinking (h.onHistory a.encLevel (·.sentNonAckElicitingPacket a.pn)) :=
    onHistory_shrinking fun history => history.sentNonAckElicitingPacket_shrinks a.pn
  refine hshrinks.map fun h' hs => ?_
  have hc' := hc.shrinks hs
  split_ifs with hcompleted'
  · obtain ⟨hcompleted, -⟩ := settings_eq_iff.mp hs.settings_eq
    refine ⟨hc', fun hlim hn => (ha ?_).shrinks hs hlim ?_⟩
    · rw [← hcompleted]
      exact hcompleted'
    · -- a peer that completed validation leaves the last case out
      rcases hn with hn | hn | hn | ⟨-, hn, -⟩
      · exact .inl hn
      · exact .inr (.inl hn)
      · exact .inr (.inr (.inl hn))
      · rw [hcompleted'] at hn
        cases hn
  · exact hc'.ready ht rtt true

theorem sentAckEliciting_ready (hc : h.Clocked) (hs : h.space a.encLevel = some s)
    (ht : 0 < a.time) (rtt : RTT) :
    (h.sentAckEliciting s a rtt).Meets (Ready true) fun _ => True := by
  have hsent : (h.setSpace { s with lastAckElicitingPacketTime := a.time } a.encLevel).Clocked :=
    hc.setSpace hs (fun _ => ht) fun _ hp => .inl hp
  have hcounted : ((h.setSpace { s with lastAckElicitingPacketTime := a.time }
      a.encLevel).countSent a).Clocked :=
    hsent.shrinks (.of_eq (fun l => by cases l <;> rfl) rfl)
  have hspace : ((h.setSpace { s with lastAckElicitingPacketTime := a.time }
      a.encLevel).countSent a).space a.encLevel =
        some { s with lastAckElicitingPacketTime := a.time } := by
    cases a.encLevel <;> rfl
  refine (onHistory_clocked hcounted fun s' hs' => ?_).map fun h' hc' =>
    hc'.ready ht rtt true
  rw [hspace] at hs'
  cases hs'
  exact checkSequential_meets_of ⟨fun _ => ht, fun _ hp => .inl hp⟩

theorem limited_of_sent {n : Nat}
    (hlim : SentPacketHandler.isAmplificationLimited { h with bytesSent := h.bytesSent + n } =
      false) : h.isAmplificationLimited = false := by
  simp only [isAmplificationLimited, Bool.and_eq_false_iff, Bool.not_eq_false',
    decide_eq_false_iff_not, Nat.not_le] at hlim ⊢
  exact hlim.imp_right fun hsent => (Nat.le_add_right _ n).trans_lt hsent

theorem sentPacket_ready (hr : h.Ready sent) (ht : 0 < a.time)
    (rtt : RTT) : (h.sentPacket a rtt).Meets (Ready true) fun _ => True := by
  rw [sentPacket]
  cases hs : h.space a.encLevel with
  | none => trivial
  | some s =>
    dsimp only
    -- the bytes are counted and the number is noted
    generalize hb : { h with bytesSent := h.bytesSent + a.size } = b
    have hclocked : b.Clocked := by
      subst hb
      exact hr.1.of_space (fun l s hl => by cases l <;> exact hl) hr.1.server hr.1.confirmed
    have hab : b.Armed sent := by
      subst hb
      exact fun hlim hn => hr.2 (limited_of_sent hlim) hn
    have hspace : b.space a.encLevel = some s := by
      subst hb
      rw [← hs]
      cases a.encLevel <;> rfl
    have hnoted : b.Shrinks (b.setSpace { s with largestSent := a.pn } a.encLevel) :=
      .setSpace hspace ⟨.refl _, rfl⟩
    split
    · exact (sentPathProbe_clocked (hclocked.shrinks hnoted) ht).map
        fun h' hc' => hc'.ready ht rtt true
    · split
      · exact sentNonAckEliciting_ready (hclocked.shrinks hnoted) ht rtt fun _ => hab.shrinks hnoted
      · exact sentAckEliciting_ready (hclocked.shrinks hnoted) space_setSpace ht rtt

/-! ### The other calls -/

variable {t : Int}

theorem completeAddressValidation_ready (hr : h.Ready sent)
    (encLevel : EncryptionLevel) (ht : 0 < t) (rtt : RTT) :
    (h.completeAddressValidation encLevel t rtt).Ready sent := by
  rw [completeAddressValidation]
  split
  · have hc : Clocked { h with peerCompletedAddressValidation := true } :=
      hr.1.of_space (fun l s hl => by cases l <;> exact hl) (fun _ => rfl) fun _ => rfl
    exact hc.ready ht rtt sent
  · exact hr

theorem receivedAck_ready (hr : h.Ready sent) (ack : AckFrame)
    (encLevel : EncryptionLevel) (ht : 0 < t) (rtt : RTT) :
    (h.receivedAck ack encLevel t rtt).Meets (fun r => r.1.Ready sent) fun _ => True := by
  refine ((receivedAck_cases h ack encLevel t rtt).mono fun r hcases => ?_).mono_error
    fun _ _ => trivial
  obtain ⟨h₁, htrims, heq⟩ := hcases
  have hr₁ := (completeAddressValidation_ready hr encLevel ht rtt).shrinks htrims.shrinks
  rcases heq with heq | heq
  · exact heq ▸ hr₁
  · have hreset : h₁.Shrinks { h₁ with
        ptoCount := if h₁.peerCompletedAddressValidation then 0 else h₁.ptoCount
        numProbesToSend := 0 } := .of_eq (fun l => by cases l <;> rfl) rfl
    exact heq ▸ (hr₁.1.shrinks hreset).ready ht rtt sent

theorem onLossDetectionTimeout_ready (hr : h.Ready sent) (hnow : 0 < now) (rtt : RTT) (rnd : Nat) :
    (h.onLossDetectionTimeout now rtt rnd).Meets (Ready sent) fun _ => True :=
  (lossDetection_shrinking h now rtt rnd).map fun _ hs =>
    (hr.1.shrinks hs).ready hnow rtt sent

theorem validateOnDrop_ready (hr : h.Ready sent) (encLevel : EncryptionLevel) :
    (h.validateOnDrop encLevel).Ready sent := by
  rw [validateOnDrop]
  split
  · refine ⟨hr.1.of_space (fun l s hl => by cases l <;> exact hl) (fun _ => rfl) fun _ => rfl,
      fun hlim hn => hr.2 hlim ?_⟩
    rcases hn with hn | hn | hn | ⟨-, hn, -⟩
    · exact .inl hn
    · exact .inr (.inl hn)
    · exact .inr (.inr (.inl hn))
    · cases hn
  · exact hr

/-- Dropping the Handshake keys comes with a peer that completed validation. -/
theorem validateOnDrop_handshake (hc : h.Clocked) :
    (h.validateOnDrop .handshake).peerCompletedAddressValidation = true := by
  rw [validateOnDrop]
  split_ifs with hclient
  · rfl
  · refine hc.server ?_
    cases hp : h.perspective with
    | client => exact absurd ⟨hp, rfl⟩ hclient
    | server => rfl

theorem dropInitial_clocked (hc : h.Clocked) : Clocked { h with initialPackets := none } := by
  refine hc.of_space (fun l s hl => ?_) hc.server hc.confirmed
  cases l with
  | initial => cases hl
  | handshake | zeroRTT | oneRTT => exact hl

theorem dropHandshake_clocked (hc : h.Clocked)
    (hcompleted : h.peerCompletedAddressValidation = true) :
    Clocked { h with handshakePackets := none, handshakeConfirmed := true } := by
  refine hc.of_space (fun l s hl => ?_) hc.server fun _ => hcompleted
  cases l with
  | handshake => cases hl
  | initial | zeroRTT | oneRTT => exact hl

theorem Drops.clocked (hd : Drops h encLevel h') (hc : h.Clocked)
    (hcompleted : encLevel = .handshake → h.peerCompletedAddressValidation = true) :
    h'.Clocked := by
  cases hd with
  | initial ht => exact dropInitial_clocked (hc.shrinks ht.shrinks)
  | handshake ht =>
    obtain ⟨hsame, -⟩ := settings_eq_iff.mp ht.settings_eq
    exact dropHandshake_clocked (hc.shrinks ht.shrinks) (hsame.trans (hcompleted rfl))
  | zeroRTT ht => exact hc.shrinks ht.shrinks

section

variable (hr : h.Ready sent)

include hr

theorem dropPackets_ready (encLevel : EncryptionLevel) (hnow : 0 < now) (rtt : RTT) :
    (h.dropPackets encLevel now rtt).Meets (Ready sent) fun _ => True := by
  have hvalidated := validateOnDrop_ready hr encLevel
  refine ((dropPackets_cases h encLevel now rtt).mono fun h' hcases => ?_).mono_error
    fun _ _ => trivial
  rcases hcases with rfl | ⟨h₁, hd, rfl⟩
  · exact hvalidated
  · have hc₁ : h₁.Clocked := by
      refine hd.clocked hvalidated.1 ?_
      rintro rfl
      exact validateOnDrop_handshake hr.1
    have hreset : h₁.Shrinks h₁.resetPTO := .of_eq (fun l => by cases l <;> rfl) rfl
    exact (hc₁.shrinks hreset).ready hnow rtt sent

theorem migratedPath_ready (hnow : 0 < now)
    (rtt : RTT) : (h.migratedPath now rtt).Meets (Ready sent) fun _ => True := by
  refine ((migratedPath_cases h now rtt).mono fun h' hcases => ?_).mono_error fun _ _ => trivial
  obtain ⟨h₁, ht, rfl⟩ := hcases
  exact (hr.1.shrinks ht.shrinks).ready hnow rtt sent

theorem receivedBytes_ready (n : Nat) (ht : 0 < t)
    (rtt : RTT) : (h.receivedBytes n t rtt).Ready sent := by
  have hc : Clocked { h with bytesReceived := h.bytesReceived + n } :=
    hr.1.of_space (fun l s hl => by cases l <;> exact hl) hr.1.server hr.1.confirmed
  rw [receivedBytes]
  split_ifs with hsame
  · exact hc.ready ht rtt sent
  · refine ⟨hc, fun hlim hn => hr.2 ?_ hn⟩
    -- it was not limited before, or the alarm would have been set
    rw [hlim, Bool.not_false, Bool.and_true] at hsame
    exact eq_false_of_ne_true hsame

theorem receivedPacket_ready (l : EncryptionLevel)
    (ht : 0 < t) (rtt : RTT) : (h.receivedPacket l t rtt).Ready sent := by
  rw [receivedPacket]
  split
  · have hc : Clocked { h with peerAddressValidated := true } :=
      hr.1.of_space (fun l s hl => by cases l <;> exact hl) hr.1.server hr.1.confirmed
    exact hc.ready ht rtt sent
  · exact hr

/-- After a Retry nothing is outstanding, and no packet was sent yet. -/
theorem resetForRetry_ready (a : Accounts 0 h) (rnd : Nat)
    (hperm : ∀ s ∈ h.handshakePackets, s.history.packets = []) :
    (h.resetForRetry rnd).Meets (Ready false) fun _ => True := by
  have hz : h.Shrinks { h with bytesInFlight := 0 } := .of_eq (fun l => by cases l <;> rfl) rfl
  rw [resetForRetry]
  generalize { h with bytesInFlight := 0 } = h₀ at hz ⊢
  cases h.initialPackets with
  | none => trivial
  | some s =>
    refine (trimming_foldlM queueForRetry_trims _ _).shrinking.map fun h₁ hs => ?_
    have hs := hz.trans hs
    have hc₁ := hr.1.shrinks hs
    -- no Handshake packet is outstanding
    have hshake : ∀ s, h₁.handshakePackets = some s → s.history.numOutstanding ≤ 0 := by
      intro s₁ hs₁
      obtain ⟨s₀, hs₀, hsub⟩ := hs.space .handshake s₁ hs₁
      have hcount := (a.wf .handshake s₀ hs₀).counted
      rw [hperm s₀ hs₀] at hcount
      exact hsub.history.outstanding.trans hcount.le
    refine ⟨⟨?_, forall_mem_nil _, hc₁.server, hc₁.confirmed⟩, ?_⟩
    · intro l t hl hpos
      cases l with
      | handshake => exact hc₁.outstanding .handshake t hl hpos
      | initial | zeroRTT | oneRTT =>
        cases hl
        cases hpos
    · rintro - (hn | ⟨-, hn⟩ | hn | ⟨-, -, hn⟩)
      · rcases hasOutstandingCryptoPackets_iff.mp hn with ⟨t, ht, hpos⟩ | ⟨t, ht, hpos⟩
        · cases ht
          cases hpos
        · exact absurd hpos (Int.not_lt.mpr (hshake t ht))
      · cases hn
      · cases hn
      · cases hn

/-- **One call keeps the alarm armed.** -/
theorem call_ready (a : Accounts 0 h) {c : Call} (hclock : OnClock c) (hperm : RetriesEarly h c) :
    (h.call c).Meets (Ready (sentAfter sent c)) fun _ => True := by
  cases c with
  | popPacketNumber encLevel rnd =>
    exact (popPacketNumber_shrinks h encLevel rnd).map fun _ hs =>
      hr.shrinks hs
  | sentPacket a rtt => exact sentPacket_ready hr hclock rtt
  | receivedAck ack encLevel t rtt =>
    exact (receivedAck_ready hr ack encLevel hclock rtt).map fun _ h => h
  | onLossDetectionTimeout now rtt rnd => exact onLossDetectionTimeout_ready hr hclock rtt rnd
  | queueProbePacket encLevel =>
    exact ((queueProbePacket_trims h encLevel).map fun _ ht =>
      hr.shrinks ht.shrinks).mono_error fun _ _ => trivial
  | dropPackets encLevel now rtt => exact dropPackets_ready hr encLevel hclock rtt
  | resetForRetry rnd => exact resetForRetry_ready hr a rnd hperm
  | migratedPath now rtt => exact migratedPath_ready hr hclock rtt
  | receivedBytes n t rtt => exact receivedBytes_ready hr n hclock rtt
  | receivedPacket l t rtt => exact receivedPacket_ready hr l hclock rtt

end

/-! ## Every run -/

section Runs

variable {initialPN : Nat} {validated : Bool} {pers : Perspective} {rnd : Nat} {tr : List Call}

theorem run_ready (hrun : ((machine initialPN validated pers rnd).guard RetriesEarly).Run tr h) :
    (∀ c ∈ tr, OnClock c) → h.Ready (sentSinceRetry tr) := by
  refine Machine.Run.invariant (I := fun tr h => (∀ c ∈ tr, OnClock c) →
    h.Ready (sentSinceRetry tr)) ?_ ?_ hrun
  · rintro h rfl -
    exact ready_new initialPN validated pers rnd
  · intro tr h c h' hrun ih ⟨hearly, hstep⟩ hclock
    rw [forall_mem_append, forall_mem_singleton] at hclock
    rw [sentSinceRetry, foldl_concat]
    exact (call_ready (ih hclock.1) (run_accounts hrun) hclock.2 hearly).of_eq_ok
      (toOption_eq_some_iff.mp hstep)

/-- **The loss timer is armed whenever something must be retransmitted**: a packet of the Initial
or Handshake space, one with application data once the handshake is confirmed, a path probe, or a
packet of a client whose address the server may not have validated.  A Retry comes before the
first Handshake packet. -/
theorem lossTimer_armed
    (hrun : ((machine initialPN validated pers rnd).guard RetriesEarly).Run tr h)
    (hclock : ∀ c ∈ tr, OnClock c) (hlimited : h.isAmplificationLimited = false)
    (hneeds : h.Needs (sentSinceRetry tr)) : h.alarm.time ≠ 0 :=
  (run_ready hrun hclock).2 hlimited hneeds

/-- The second of two Initial packets was acknowledged; the first one is outstanding. -/
theorem lossTimer_armed_twoInitials :
    let h := (twoInitials.foldlM step (new 0 false .client 0)).getD (new 0 false .client 0)
    ((machine 0 false .client 0).guard RetriesEarly).Run twoInitials h ∧
      h.hasOutstandingCryptoPackets = true ∧ h.alarm.time ≠ 0 := by
  intro h
  have hrun : ((machine 0 false .client 0).guard RetriesEarly).Run twoInitials h :=
    Machine.run_guard_iff.mpr (by decide)
  have hout : h.hasOutstandingCryptoPackets = true := by decide
  exact ⟨hrun, hout, lossTimer_armed hrun (by decide) (by decide) (.inl hout)⟩

/-- **A late Retry clears the alarm** although a Handshake packet is outstanding, and a datagram
that arrives does not set it again. -/
theorem lossTimer_lateRetry :
    let calls := lateRetry ++ [.receivedBytes 1200 2000000000 ⟨100000000, 300000000, 300000000⟩]
    ∃ h, (machine 0 false .client 0).Run calls h ∧ (∀ c ∈ calls, OnClock c) ∧
      h.isAmplificationLimited = false ∧ h.hasOutstandingCryptoPackets = true ∧
      h.alarm.time = 0 := by
  intro calls
  exact ⟨(calls.foldlM step (new 0 false .client 0)).getD (new 0 false .client 0),
    Machine.run_ofStep_iff.mpr (by decide), by decide, by decide, by decide, by decide⟩

end Runs

end SentPacketHandler

end UQuic.AckHandler
