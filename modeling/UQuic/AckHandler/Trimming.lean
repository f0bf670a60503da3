/-
# `UQuic.AckHandler.Trimming` — what acknowledgements, losses and dropped keys do to a handler

All of them take packets away and do nothing else that matters later:

    spaces       one may be dropped; the others keep their generator and the time at which they
                 last sent a packet
    histories    no packet number is used, no packet becomes outstanding, no path probe is added
    settings     the address validation, the counters and the alarm stay (`settings`)

This is said once, for every part of every call (`Trims`), with the failures that may occur: none
is about the sequence of packet numbers.  The calls themselves then set a flag or the alarm,
which `receivedAck_cases`, `dropPackets_cases` and `migratedPath_cases` write out.
-/
import UQuic.AckHandler.BytesInFlight

namespace UQuic.AckHandler

open Except
open UQuic.Wire (AckRange AckFrame)

/-- Any failure other than the panic of the history about a packet number. -/
def Failure.Sequential (e : Failure) : Prop := e ≠ .nonSequential

theorem Failure.Plain.sequential (e : Failure) (he : e.Plain) : e.Sequential := he.2.2

/-! ## Histories -/

/-- Packets were taken away from a history. -/
structure SentPacketHistory.Trims (h h' : SentPacketHistory) : Prop where
  highest : h'.highestPacketNumber = h.highestPacketNumber
  outstanding : h'.numOutstanding ≤ h.numOutstanding
  probes : ∀ p ∈ h'.pathProbePackets, p ∈ h.pathProbePackets

namespace SentPacketHistory

variable {h h' h'' : SentPacketHistory}

theorem Trims.refl (h : SentPacketHistory) : h.Trims h := ⟨rfl, le_rfl, fun _ hp => hp⟩

theorem Trims.trans (h₁ : h.Trims h') (h₂ : h'.Trims h'') : h.Trims h'' :=
  ⟨h₂.highest.trans h₁.highest, h₂.outstanding.trans h₁.outstanding,
    fun p hp => h₁.probes p (h₂.probes p hp)⟩

theorem getIndex_sequential (h : SentPacketHistory) (pn : Int) :
    (h.getIndex pn).Meets (fun _ => True) Failure.Sequential := by
  rw [getIndex]
  split
  · trivial
  · rintro ⟨⟩
  · split
    · trivial
    · split <;> trivial

theorem countDown_le (n : Int) (p : Packet) : (countDown n p).Meets (· ≤ n) Failure.Sequential := by
  rw [countDown]
  split
  · split
    · rintro ⟨⟩
    · exact Int.sub_le_self n (by decide)
  · exact le_rfl

theorem remove_trims (h : SentPacketHistory) (pn : Int) :
    (h.remove pn).Meets h.Trims Failure.Sequential := by
  refine (getIndex_sequential h pn).bind fun o _ => ?_
  cases o with
  | none => exact nofun
  | some idx =>
    dsimp only
    split
    · refine (countDown_le _ _).bind fun n hn => ?_
      dsimp only
      split
      · exact nofun
      · exact ⟨rfl, hn, fun _ hp => hp⟩
    · exact nofun

theorem declareLost_trims (h : SentPacketHistory) (pn : Int) :
    (h.declareLost pn).Meets h.Trims Failure.Sequential := by
  refine (getIndex_sequential h pn).bind fun o _ => ?_
  cases o with
  | none => exact .refl h
  | some idx =>
    dsimp only
    split
    · exact (countDown_le _ _).bind fun n hn => ⟨rfl, hn, fun _ hp => hp⟩
    · exact nofun

theorem removePathProbe_trims (h : SentPacketHistory) (pn : Int) :
    h.Trims (h.removePathProbe pn).1 :=
  ⟨rfl, le_rfl, fun _ hp => List.mem_of_mem_eraseP hp⟩

end SentPacketHistory

/-! ## Handlers -/

/-- Packets were taken away from a space. -/
structure PacketNumberSpace.Trims (s s' : PacketNumberSpace) : Prop where
  history : s.history.Trims s'.history
  pns : s'.pns = s.pns
  lastSent : s'.lastAckElicitingPacketTime = s.lastAckElicitingPacketTime

namespace SentPacketHandler

/-- What decides about the alarm besides the packets, and the alarm. -/
def settings (h : SentPacketHandler) :
    Bool × Bool × Bool × Nat × Nat × Perspective × AlarmTimer :=
  (h.peerCompletedAddressValidation, h.peerAddressValidated, h.handshakeConfirmed,
    h.bytesReceived, h.bytesSent, h.perspective, h.alarm)

/-- Packets were taken away from the spaces. -/
structure Trims (h h' : SentPacketHandler) : Prop where
  space : ∀ l s', h'.space l = some s' → ∃ s, h.space l = some s ∧ s.Trims s'
  settings_eq : h'.settings = h.settings

variable {h h' h'' : SentPacketHandler} {encLevel : EncryptionLevel} {s s' : PacketNumberSpace}

theorem Trims.trans (h₁ : h.Trims h') (h₂ : h'.Trims h'') : h.Trims h'' := by
  refine ⟨fun l s'' hs'' => ?_, h₂.settings_eq.trans h₁.settings_eq⟩
  obtain ⟨s', hs', ht'⟩ := h₂.space l s'' hs''
  obtain ⟨s, hs, ht⟩ := h₁.space l s' hs'
  exact ⟨s, hs, ht.history.trans ht'.history, ht'.pns.trans ht.pns, ht'.lastSent.trans ht.lastSent⟩

theorem Trims.of_eq (hspace : ∀ l, h'.space l = h.space l) (hsettings : h'.settings = h.settings) :
    h.Trims h' :=
  ⟨fun l s hs => ⟨s, (hspace l).symm.trans hs, .refl _, rfl, rfl⟩, hsettings⟩

theorem Trims.refl (h : SentPacketHandler) : h.Trims h := .of_eq (fun _ => rfl) rfl

@[simp] theorem settings_setSpace : (h.setSpace s encLevel).settings = h.settings := by
  cases encLevel <;> rfl

/-- The space that was written, under any of its levels, or one that was not. -/
theorem space_setSpace_cases {l : EncryptionLevel} {t : PacketNumberSpace}
    (hs : h.space encLevel = some s) (ht : (h.setSpace s' encLevel).space l = some t) :
    h.space l = some t ∨ t = s' ∧ h.space l = some s := by
  cases encLevel <;> cases l <;> simp_all [SentPacketHandler.setSpace, SentPacketHandler.space]

theorem Trims.setSpace (hs : h.space encLevel = some s) (ht : s.Trims s') :
    h.Trims (h.setSpace s' encLevel) := by
  refine ⟨fun l t hl => ?_, settings_setSpace⟩
  rcases space_setSpace_cases hs hl with hold | ⟨hnew, hold⟩
  · exact ⟨t, hold, .refl _, rfl, rfl⟩
  · exact ⟨s, hold, hnew ▸ ht⟩

/-- A computation that takes packets away. -/
def Trimming (h : SentPacketHandler) (x : Except Failure SentPacketHandler) : Prop :=
  x.Meets h.Trims Failure.Sequential

theorem Trimming.bind {x : Except Failure SentPacketHandler}
    {f : SentPacketHandler → Except Failure SentPacketHandler} (hx : h.Trimming x)
    (hf : ∀ h' : SentPacketHandler, h'.Trimming (f h')) : h.Trimming (x.bind f) :=
  Meets.bind hx fun h₁ ht =>
    Meets.mono (hf h₁) fun _ ht' => ht.trans ht'

theorem Trimming.after {x : Except Failure SentPacketHandler} (ht : h.Trims h')
    (hx : h'.Trimming x) : h.Trimming x :=
  Meets.mono hx fun _ ht' => ht.trans ht'

theorem trimming_foldlM {α : Type} {f : SentPacketHandler → α → Except Failure SentPacketHandler}
    (hf : ∀ (h : SentPacketHandler) (a : α), h.Trimming (f h a)) (l : List α)
    (h : SentPacketHandler) : h.Trimming (l.foldlM f h) :=
  Meets.foldlM (I := fun _ b => h.Trims b)
    (fun a _ b hb => Meets.mono (hf b a) fun _ ht => hb.trans ht) (Trims.refl h)

theorem onHistory_trims {f : SentPacketHistory → Except Failure SentPacketHistory}
    (hf : ∀ history, (f history).Meets history.Trims Failure.Sequential) (h : SentPacketHandler)
    (encLevel : EncryptionLevel) : h.Trimming (h.onHistory encLevel f) := by
  rw [onHistory]
  cases hs : h.space encLevel with
  | none => rintro ⟨⟩
  | some s =>
    exact (hf s.history).map fun _ ht => .setSpace hs ⟨ht, rfl, rfl⟩

/-- The history of the application data space is cut down. -/
theorem withHistory_trims {history : SentPacketHistory}
    (ht : h.appDataPackets.history.Trims history) :
    h.Trims { h with appDataPackets := { h.appDataPackets with history := history } } :=
  @Trims.setSpace h .oneRTT h.appDataPackets { h.appDataPackets with history := history } rfl
    ⟨ht, rfl, rfl⟩

/-! ### Losses -/

variable (h) (encLevel) (p : Packet)

theorem removeFromBytesInFlight_trims : h.Trimming (h.removeFromBytesInFlight p) := by
  rw [removeFromBytesInFlight]
  split
  · split
    · rintro ⟨⟩
    · exact Trims.of_eq (fun l => by cases l <;> rfl) rfl
  · exact Trims.refl h

theorem queueFrames_trims : h.Trimming (h.queueFramesForRetransmission p) := by
  rw [queueFramesForRetransmission]
  split
  · rintro ⟨⟩
  · exact Trims.of_eq (fun l => by cases l <;> rfl) rfl

theorem declareLost_trimming (pn : Int) : h.Trimming (h.onHistory encLevel (·.declareLost pn)) :=
  onHistory_trims (fun history => history.declareLost_trims pn) h encLevel

theorem loseRegular_trims : h.Trimming (h.loseRegular p) := by
  rw [loseRegular]
  split
  · exact Trims.refl h
  · exact (removeFromBytesInFlight_trims h p).bind fun h' => queueFrames_trims h' p

theorem setLossTime_trims (t : Int) : h.Trims (h.setLossTime encLevel t) := by
  rw [setLossTime]
  cases hs : h.space encLevel with
  | none => exact .refl h
  | some s =>
    dsimp only
    split
    · exact .setSpace hs ⟨.refl _, rfl, rfl⟩
    · exact .refl h

theorem detectLostPackets_trims (now : Int) (encLevel : EncryptionLevel)
    (rtt : RTT) : h.Trimming (h.detectLostPackets now encLevel rtt) := by
  refine (detectLostPackets_rule Failure.Plain.sequential (I := fun _ => h.Trims) ?_ ?_ ?_).mono
    fun h' ⟨_, ht⟩ => ht
  · intro p rest h' ht
    exact Trimming.after ht ((declareLost_trimming h' encLevel p.packetNumber).bind fun h'' =>
      loseRegular_trims h'' p)
  · exact fun t ht => ht.trans (setLossTime_trims _ encLevel t)
  · exact fun s hs => .setSpace hs ⟨.refl _, rfl, rfl⟩

theorem losePathProbe_trims : h.Trimming (h.losePathProbe p) := by
  rw [losePathProbe]
  split
  · have hprobes := withHistory_trims (h := h)
      (h.appDataPackets.history.removePathProbe_trims p.packetNumber)
    exact hprobes.trans (.of_eq (fun l => by cases l <;> rfl) rfl)
  · rintro ⟨⟩

theorem detectLostPathProbes_trims (now : Int) : h.Trimming (h.detectLostPathProbes now) :=
  trimming_foldlM losePathProbe_trims _ h

theorem queueProbePacket_trims :
    (h.queueProbePacket encLevel).Meets (fun r => h.Trims r.1) Failure.Sequential := by
  rw [queueProbePacket]
  split
  · rintro ⟨⟩
  · split
    · exact Trims.refl h
    · rename_i p _
      exact Meets.map (((queueFrames_trims h p).bind fun h' =>
        removeFromBytesInFlight_trims h' p).bind fun h' =>
          declareLost_trimming h' encLevel p.packetNumber) fun _ h => h

theorem loseMigrated_trims : h.Trimming (h.loseMigrated p) :=
  (declareLost_trimming h .oneRTT p.packetNumber).bind fun h' => loseRegular_trims h' p

/-! ### Acknowledgements -/

theorem collectAcked_trims {ack : AckFrame} {lowestAcked largestAcked : Int} (ps : List Packet)
    (ranges : List AckRange) (history : SentPacketHistory) (acked : List Packet) :
    (collectAcked ack encLevel lowestAcked largestAcked ps ranges history acked).Meets
      (fun r => history.Trims r.1) Failure.Sequential :=
  collectAcked_rule Failure.Plain.sequential (I := fun _ history' _ => history.Trims history')
    (fun ht => ht) (fun _ ht => ht.trans (SentPacketHistory.removePathProbe_trims _ _))
    (fun _ ht => ht) ps (.refl history)

theorem settleAcked_trims (encLevel : EncryptionLevel) (h : SentPacketHandler) (p : Packet) :
    h.Trimming (settleAcked encLevel h p) := by
  refine Trimming.after ?_
    (onHistory_trims (fun history => history.remove_trims p.packetNumber) _ encLevel)
  exact .of_eq (fun l => by cases l <;> rfl) rfl

theorem detectAndRemoveAckedPackets_trims (ack : AckFrame) (encLevel : EncryptionLevel) :
    (h.detectAndRemoveAckedPackets ack encLevel).Meets (fun r => h.Trims r.1)
      Failure.Sequential := by
  rw [detectAndRemoveAckedPackets]
  split
  · rename_i s lowestAcked largestAcked hs _ _
    refine (collectAcked_trims _ _ _ _ _).bind fun r ht => ?_
    refine Meets.map (Trimming.after ?_
      (trimming_foldlM (settleAcked_trims encLevel) r.2 _)) fun _ h => h
    exact .setSpace hs ⟨ht, rfl, rfl⟩
  · rintro ⟨⟩

/-- The largest acknowledged number is raised, and what is lost by now is dealt with. -/
theorem lossAfterAck_trims (acked : List Packet)
    (encLevel : EncryptionLevel) (largestAcked t : Int) (rtt : RTT) :
    h.Trimming (((h.raiseLargestAcked encLevel largestAcked).detectLost encLevel t rtt).bind
      fun h => acked.foldlM removeFromBytesInFlight h) := by
  have hraise : h.Trims (h.raiseLargestAcked encLevel largestAcked) := by
    rw [raiseLargestAcked]
    cases hs : h.space encLevel with
    | none => exact .refl h
    | some s => exact .setSpace hs ⟨.refl _, rfl, rfl⟩
  refine Trimming.bind (Trimming.after hraise ?_) fun h' =>
    trimming_foldlM removeFromBytesInFlight_trims acked h'
  refine (detectLostPackets_trims _ t encLevel rtt).bind fun h' => ?_
  split
  · exact detectLostPathProbes_trims h' t
  · exact Trims.refl h'

/-- **`ReceivedAck`**: the client may learn that its address is validated, packets are taken away,
and the alarm is set if one of them was acknowledged. -/
theorem receivedAck_cases (ack : AckFrame) (encLevel : EncryptionLevel) (t : Int) (rtt : RTT) :
    (h.receivedAck ack encLevel t rtt).Meets (fun r => ∃ h₁,
      (h.completeAddressValidation encLevel t rtt).Trims h₁ ∧
        (r.1 = h₁ ∨ r.1 = h₁.finishAck t rtt)) Failure.Sequential := by
  rw [receivedAck]
  split
  · rename_i s largestAcked _ _
    split
    · rintro ⟨⟩
    · refine (detectAndRemoveAckedPackets_trims _ ack encLevel).bind
        fun r ht => ?_
      dsimp only
      split
      · exact ⟨r.1, ht, .inl rfl⟩
      · exact Meets.map (lossAfterAck_trims r.1 r.2 encLevel largestAcked t rtt) fun h₁ ht' =>
          ⟨h₁, ht.trans ht', .inr rfl⟩
  · rintro ⟨⟩

/-! ### Dropping keys and migration -/

theorem removeQuietly_trims (pn : Int) : h.Trimming (h.removeQuietly pn) := by
  have hremove := h.appDataPackets.history.remove_trims pn
  rw [removeQuietly]
  split
  · rename_i history hok
    exact withHistory_trims (hremove.of_eq_ok hok)
  · exact Trims.refl h
  · rename_i e _ he
    exact hremove.of_eq_error he

theorem drop0RTTLoop_trims (ps : List Packet) (h : SentPacketHandler) :
    h.Trimming (drop0RTTLoop ps h) := by
  refine (drop0RTTLoop_rule (I := fun _ => h.Trims) (fun {p _ h'} ht => ?_) ps (.refl h)).mono
    fun h' ⟨_, ht⟩ => ht
  exact Trimming.after ht ((removeFromBytesInFlight_trims h' p).bind fun h'' =>
    removeQuietly_trims h'' p.packetNumber)

/-- What `DropPackets` makes of the handler: a space is gone, or 0-RTT packets are. -/
inductive Drops (h : SentPacketHandler) : EncryptionLevel → SentPacketHandler → Prop
  | initial {h₁ : SentPacketHandler} : h.Trims h₁ →
      Drops h .initial { h₁ with initialPackets := none }
  | handshake {h₁ : SentPacketHandler} : h.Trims h₁ →
      Drops h .handshake { h₁ with handshakePackets := none, handshakeConfirmed := true }
  | zeroRTT {h₁ : SentPacketHandler} : h.Trims h₁ → Drops h .zeroRTT h₁

theorem dropSpace_cases : (h.dropSpace encLevel).Meets (fun o => ∀ h' ∈ o, Drops h encLevel h')
      Failure.Sequential := by
  have hremove := fun ps => trimming_foldlM removeFromBytesInFlight_trims ps h
  cases encLevel with
  | initial =>
    rw [dropSpace]
    split
    · exact fun _ hmem => absurd hmem (Option.not_mem_none _)
    · refine Meets.map (hremove _) fun h₁ ht => ?_
      rintro _ ⟨⟩
      exact .initial ht
  | handshake =>
    rw [dropSpace]
    split
    · exact fun _ hmem => absurd hmem (Option.not_mem_none _)
    · refine Meets.map (hremove _) fun h₁ ht => ?_
      rintro _ ⟨⟩
      exact .handshake ht
  | zeroRTT =>
    refine Meets.map (drop0RTTLoop_trims _ h) fun h₁ ht => ?_
    rintro _ ⟨⟩
    exact .zeroRTT ht
  | oneRTT => rintro ⟨⟩

/-- **`DropPackets`**: nothing if the keys were dropped before, otherwise the alarm is set. -/
theorem dropPackets_cases (now : Int) (rtt : RTT) :
    (h.dropPackets encLevel now rtt).Meets (fun h' => h' = h.validateOnDrop encLevel ∨
      ∃ h₁, Drops (h.validateOnDrop encLevel) encLevel h₁ ∧
        h' = h₁.resetPTO.setLossDetectionTimer now rtt) Failure.Sequential := by
  refine (dropSpace_cases _ encLevel).map fun o ho => ?_
  cases o with
  | none => exact .inl rfl
  | some h₁ => exact .inr ⟨h₁, ho h₁ rfl, rfl⟩

/-- **`MigratedPath`**: packets are lost, and the alarm is set. -/
theorem migratedPath_cases (now : Int) (rtt : RTT) :
    (h.migratedPath now rtt).Meets (fun h' => ∃ h₁, h.Trims h₁ ∧
      h' = h₁.setLossDetectionTimer now rtt) Failure.Sequential := by
  refine Meets.map (trimming_foldlM loseMigrated_trims _ h)
    fun h₁ ht => ⟨h₁.clearPathProbes, ht.trans (withHistory_trims ?_), rfl⟩
  exact ⟨rfl, le_rfl, fun _ hp => (probesAfterMigration_sublist _).mem hp⟩

theorem queueForRetry_trims : h.Trimming (h.queueForRetry p) := by
  rw [queueForRetry]
  split
  · exact Trims.refl h
  · exact queueFrames_trims h p

end SentPacketHandler

end UQuic.AckHandler
