/-
# `UQuic.AckHandler.Loops` — rules for the loops of the sent packet handler

Several properties of the handler are kept by the same loops.  Each loop is walked
once here: a rule takes an invariant, which may speak about the packets still to
come, and asks what one round does to it.

    function               rule                       a round
    detectLostPackets      `detectLostPackets_rule`   a packet is lost, or the loss time set
    collectAcked           `collectAcked_rule`        skip, collect, or take a path probe
    drop0RTTLoop           `drop0RTTLoop_rule`        a packet is removed
    lossOrPTO              `lossOrPTO_rule`           losses, or a probe timeout
    removePathProbes       `removePathProbes_sublist` a path probe is removed

`E` is what is said of a failure; the rules raise only failures that are `Plain`.
-/
import UQuic.AckHandler.SentPacketHandler

namespace UQuic.AckHandler

open List Except
open UQuic.Wire (AckRange AckFrame)

/-- None of the panics about a counter or a packet number. -/
def Failure.Plain (e : Failure) : Prop :=
  e ≠ .negativeBytesInFlight ∧ e ≠ .negativeOutstanding ∧ e ≠ .nonSequential

theorem Failure.Plain.countersHold (e : Failure) (he : e.Plain) : e.CountersHold :=
  ⟨he.1, he.2.1⟩

namespace SentPacketHandler

variable {E : Failure → Prop} {encLevel : EncryptionLevel} {ack : AckFrame} {now : Int} {rtt : RTT}
  {rnd : Nat}

section Plain

variable (hE : ∀ e, Failure.Plain e → E e)

include hE

/-! ## Losses -/

/-- The loop may end before the last packet. -/
theorem detectLostPackets_rule {I : List Packet → SentPacketHandler → Prop}
    (hlost : ∀ {p rest h}, I (p :: rest) h →
      ((h.onHistory encLevel (·.declareLost p.packetNumber)).bind (·.loseRegular p)).Meets
        (I rest) E)
    (htime : ∀ {p rest h} (t : Int), I (p :: rest) h → I rest (h.setLossTime encLevel t))
    {h : SentPacketHandler} (hstart : ∀ s, h.space encLevel = some s →
      I s.history.entries (h.setSpace { s with lossTime := 0 } encLevel)) :
    (h.detectLostPackets now encLevel rtt).Meets (fun h' => ∃ rest, I rest h') E := by
  have hloop : ∀ (largestAcked lostSendTime lossDelay : Int) (rest : List Packet)
      (h : SentPacketHandler), I rest h →
      (detectLostLoop encLevel largestAcked lostSendTime lossDelay rest h).Meets
        (fun h' => ∃ rest, I rest h') E := by
    intro largestAcked lostSendTime lossDelay rest
    induction rest with
    | nil => exact fun h hi => ⟨[], hi⟩
    | cons p rest ih =>
      intro h hi
      rw [detectLostLoop]
      split
      · exact ⟨p :: rest, hi⟩
      · split
        · exact (hlost hi).bind ih
        · exact ih _ (htime _ hi)
  rw [detectLostPackets]
  split
  · exact hE _ ⟨nofun, nofun, nofun⟩
  · rename_i s hs
    exact hloop _ _ _ _ _ (hstart s hs)

/-! ## Acknowledgements -/

theorem inRange_meets (ack : AckFrame) (pn : Int) (ranges : List AckRange) :
    (inRange ack pn ranges).Meets (fun _ => True) E := by
  rw [inRange]
  split
  · split
    · exact hE _ ⟨nofun, nofun, nofun⟩
    · split
      · trivial
      · split
        · exact hE _ ⟨nofun, nofun, nofun⟩
        · trivial
  · trivial

/-- A packet that is not acknowledged is skipped, a path probe is taken from its own list. -/
theorem collectAcked_rule {I : List Packet → SentPacketHistory → List Packet → Prop}
    (hskip : ∀ {p rest history acked}, I (p :: rest) history acked → I rest history acked)
    (hprobe : ∀ {p rest history acked}, p.isPathProbePacket = true → I (p :: rest) history acked →
      I rest (history.removePathProbe p.packetNumber).1
        (acked ++ (history.removePathProbe p.packetNumber).2.toList))
    (hregular : ∀ {p rest history acked}, p.isPathProbePacket = false →
      I (p :: rest) history acked → I rest history (acked ++ [p]))
    {lowestAcked largestAcked : Int} (rest : List Packet) :
    ∀ {ranges : List AckRange} {history : SentPacketHistory} {acked : List Packet},
      I rest history acked →
      (collectAcked ack encLevel lowestAcked largestAcked rest ranges history acked).Meets
        (fun r => I [] r.1 r.2) E := by
  induction rest with
  | nil => exact fun hi => hi
  | cons p rest ih =>
    intro ranges history acked hi
    -- the rest is passed over when the loop breaks
    have hbreak : ∀ (ps : List Packet), I ps history acked → I [] history acked := by
      intro ps
      induction ps with
      | nil => exact id
      | cons q ps ih => exact fun hi => ih (hskip hi)
    have hrange := inRange_meets hE ack p.packetNumber ranges
    rw [collectAcked]
    split
    · exact ih (hskip hi)
    · split
      · exact hbreak _ hi
      · split
        · rename_i herr
          exact hrange.of_eq_error herr
        · exact ih (hskip hi)
        · split
          · exact hE _ ⟨nofun, nofun, nofun⟩
          · split_ifs with hflag
            · exact ih (hprobe hflag hi)
            · exact ih (hregular (Bool.eq_false_iff.mpr hflag) hi)

/-! ## The loss detection timer -/

/-- What a timeout does besides detecting losses: it counts a PTO and sets its mode. -/
theorem lossOrPTO_rule {Q : SentPacketHandler → Prop} {h : SentPacketHandler}
    (hfields : ∀ ptoCount numProbesToSend ptoMode, Q
      { h with ptoCount := ptoCount, numProbesToSend := numProbesToSend, ptoMode := ptoMode })
    (hlost : ∀ l, (h.detectLostPackets now l rtt).Meets Q E)
    (hpto : ∀ l, ((h.countPTO 2).setPTOMode rnd l).Meets Q E) :
    (h.lossOrPTO now rtt rnd).Meets Q E := by
  rw [lossOrPTO]
  dsimp only
  split
  · exact hlost _
  · split
    · rw [probeAddress]
      split
      · exact hfields _ _ _
      · split
        · exact hfields _ _ _
        · exact hE _ ⟨nofun, nofun, nofun⟩
    · split
      · split
        · exact hfields _ _ _
        · rw [firePTO]
          split
          · exact hE _ ⟨nofun, nofun, nofun⟩
          · split
            · exact hfields _ _ _
            · exact hpto _
      · exact hfields _ _ _

/-- `OnLossDetectionTimeout`, before the timer is set again. -/
theorem lossDetection_rule {I : SentPacketHandler → Prop}
    (hfields : ∀ {h : SentPacketHandler} ptoCount numProbesToSend ptoMode, I h → I
      { h with ptoCount := ptoCount, numProbesToSend := numProbesToSend, ptoMode := ptoMode })
    (hprobes : ∀ {h : SentPacketHandler}, I h → (h.detectLostPathProbes now).Meets I E)
    (hlost : ∀ {h : SentPacketHandler} l, I h → (h.detectLostPackets now l rtt).Meets I E)
    (hpop : ∀ {h : SentPacketHandler}, I h →
      (h.popPacketNumber .oneRTT rnd).Meets (fun r => I r.1) E)
    (hskip : ∀ {h : SentPacketHandler} (pn : Nat), I h →
      (h.onHistory .oneRTT (·.skippedPacket pn)).Meets I E) {h : SentPacketHandler} (hi : I h) :
    ((if h.handshakeConfirmed then h.detectLostPathProbes now else .ok h).bind
      (·.lossOrPTO now rtt rnd)).Meets I E := by
  have hmode : ∀ {h : SentPacketHandler} (l : EncryptionLevel), I h →
      (h.setPTOMode rnd l).Meets I E := by
    intro h l hi
    cases l with
    | initial | handshake => exact hfields _ _ _ hi
    | zeroRTT => exact hE _ ⟨nofun, nofun, nofun⟩
    | oneRTT =>
      refine (hpop hi).bind fun r hr => ?_
      exact (hskip r.2 hr).map fun h' hi' => hfields _ _ _ hi'
  have hfirst : (if h.handshakeConfirmed then h.detectLostPathProbes now else .ok h).Meets I E := by
    split
    · exact hprobes hi
    · exact hi
  refine hfirst.bind fun h' hi' => ?_
  exact lossOrPTO_rule hE (fun _ _ _ => hfields _ _ _ hi') (fun l => hlost l hi')
    fun l => hmode l (hfields _ _ _ hi')

end Plain

/-! ## Dropping 0-RTT packets -/

/-- The loop ends at the first 1-RTT packet. -/
theorem drop0RTTLoop_rule {I : List Packet → SentPacketHandler → Prop}
    (hdrop : ∀ {p rest h}, I (p :: rest) h →
      ((h.removeFromBytesInFlight p).bind (·.removeQuietly p.packetNumber)).Meets (I rest) E)
    (rest : List Packet) : ∀ {h : SentPacketHandler}, I rest h →
      (drop0RTTLoop rest h).Meets (fun h' => ∃ rest, I rest h') E := by
  induction rest with
  | nil => exact fun hi => ⟨[], hi⟩
  | cons p rest ih =>
    intro h hi
    rw [drop0RTTLoop]
    split
    · exact ⟨p :: rest, hi⟩
    · exact (hdrop hi).bind fun h' hi' => ih hi'

/-! ## The path probes of `MigratedPath` -/

/-- The slice loses one element; the array behind it keeps its length. -/
theorem removeFromArray_spec {array : List Packet} {len : Nat} (hlen : len ≤ array.length)
    (pn : Int) : (removeFromArray array len pn).2 ≤ (removeFromArray array len pn).1.length ∧
      ((removeFromArray array len pn).1.take (removeFromArray array len pn).2).Sublist
        (array.take len) := by
  simp only [removeFromArray]
  split
  · exact ⟨hlen, List.Sublist.refl _⟩
  · rename_i idx hidx
    obtain ⟨hlt, -⟩ := List.findIdx?_eq_some_iff_getElem.mp hidx
    have herase : ((array.take len).eraseIdx idx).length = len - 1 := by
      rw [length_eraseIdx_of_lt hlt, length_take_of_le hlen]
    dsimp only
    refine ⟨?_, ?_⟩
    · rw [append_assoc, length_append, herase]
      exact Nat.le_add_right _ _
    · rw [append_assoc, take_left' herase]
      exact eraseIdx_sublist _ _

/-- The path probes that are left after a migration were there before. -/
theorem removePathProbes_sublist : ∀ (rounds i : Nat) {array : List Packet} {len : Nat},
    len ≤ array.length →
    ((removePathProbes rounds i (array, len)).1.take
    (removePathProbes rounds i (array, len)).2).Sublist
      (array.take len)
  | 0, _, _, _, _ => List.Sublist.refl _
  | rounds + 1, i, array, len, hlen => by
    simp only [removePathProbes]
    split
    · exact List.Sublist.refl _
    · rename_i p _
      obtain ⟨hlen', hsub⟩ := removeFromArray_spec hlen p.packetNumber
      exact (removePathProbes_sublist rounds (i + 1) hlen').trans hsub

theorem probesAfterMigration_sublist (ps : List Packet) : (probesAfterMigration ps).Sublist ps := by
  have hsub := removePathProbes_sublist ps.length 0 (Nat.le_refl ps.length)
  rwa [take_length] at hsub

end SentPacketHandler

end UQuic.AckHandler
