/-
# `UQuic.AckHandler.Books` — what the calls do to the bytes and the frames of a packet

The sent packet handler keeps two books about the packets it tracks:

    bytes      `bytesInFlight` is the sum of the tracked packets, and `e` (`Accounts e`)
    frames     a frame was settled and is carried `n` times at most (`Ledger x n`)

Every call is walked once, for both of them.

## What is proved

    bytesInFlight = Σ length of the tracked packets that are counted
    callbacks of a frame + packets that still carry it ≤ how often it was sent

in every state a run of calls reaches (`bytesInFlight_exact`, `frames_settled_once`), and no call
from such a state fails with one of the two negative counters.  The first line needs every Retry
to come before the first Handshake packet (`RetriesEarly`, `bytesInFlight_lateRetry`).

## How

A packet leaves its history with its bytes and its frames, so taking it out raises `e` and lowers
`n`; `removeFromBytesInFlight` and the callbacks bring them back, whichever comes first.  A
counter can become negative only if `e` is (`Failure.Fair`), which a Retry in the middle of the
handshake would cause.
-/
import UQuic.AckHandler.FrameSettlement

namespace UQuic.AckHandler

open List Except
open UQuic.Wire (AckRange AckFrame)

/-- A counter becomes negative only if the bytes in flight are below the sum. -/
def Failure.Fair (e : Int) (f : Failure) : Prop := 0 ≤ e → f.CountersHold

theorem Failure.CountersHold.fair {e : Int} (f : Failure) (hf : f.CountersHold) : f.Fair e :=
  fun _ => hf

theorem Failure.Plain.fair {e : Int} (f : Failure) (hf : f.Plain) : f.Fair e :=
  fun _ => Failure.Plain.countersHold f hf

namespace SentPacketHandler

/-- Both books. -/
structure Books (x : Nat) (n e : Int) (h : SentPacketHandler) : Prop where
  ledger : Ledger x n h
  accounts : Accounts e h

/-- The packets a loop has yet to visit, for both books. -/
def Ahead (encLevel : EncryptionLevel) (rest : List Packet) (h : SentPacketHandler) : Prop :=
  Tracks encLevel rest h ∧ Stands encLevel rest h

variable {x : Nat} {n m e e' e₀ : Int} {h h' : SentPacketHandler} {encLevel : EncryptionLevel}
  {s s' : PacketNumberSpace} {p : Packet} {rest ps : List Packet} {history : SentPacketHistory}

/-! ## Steps -/

theorem Books.mono (b : Books x n e h) (hle : n ≤ m) : Books x m e h :=
  ⟨b.ledger.mono hle, b.accounts⟩

theorem Books.congr (b : Books x n e h) (hspace : ∀ l, h'.space l = h.space l)
    (hbytes : h'.bytesInFlight = h.bytesInFlight) (hcallbacks : h'.callbacks = h.callbacks) :
    Books x n e h' := by
  have hinitial : h'.initialPackets = h.initialPackets := hspace .initial
  have hhandshake : h'.handshakePackets = h.handshakePackets := hspace .handshake
  have happ : h'.appDataPackets = h.appDataPackets := Option.some.inj (hspace .oneRTT)
  refine ⟨⟨fun l s hs => b.ledger.sound l s ((hspace l).symm.trans hs), ?_⟩,
    fun l s hs => b.accounts.wf l s ((hspace l).symm.trans hs), ?_⟩
  · rw [settled, live, hcallbacks, hinitial, hhandshake, happ]
    exact b.ledger.balance
  · rw [inFlight, hbytes, hinitial, hhandshake, happ]
    exact b.accounts.balance

theorem Books.setLossDetectionTimer (b : Books x n e h) {now : Int} {rtt : RTT} :
    Books x n e (h.setLossDetectionTimer now rtt) := b.congr (fun l => by cases l <;> rfl) rfl rfl

/-- Replacing a space replaces its part of the two sums. -/
theorem sums_setSpace (x : Nat) (s' : PacketNumberSpace) (hs : h.space encLevel = some s) :
    (h.setSpace s' encLevel).inFlight + s.history.inFlight = h.inFlight + s'.history.inFlight ∧
      live x (h.setSpace s' encLevel) + historyCarried x s.history =
        live x h + historyCarried x s'.history := by
  cases encLevel with
  | initial =>
    have hi : h.initialPackets = some s := hs
    simp only [inFlight, live, setSpace, spaceInFlight, spaceCarried, hi]
    omega
  | handshake =>
    have hi : h.handshakePackets = some s := hs
    simp only [inFlight, live, setSpace, spaceInFlight, spaceCarried, hi]
    omega
  | zeroRTT | oneRTT =>
    cases hs
    simp only [inFlight, live, setSpace]
    omega

theorem space_le_inFlight (hs : h.space encLevel = some s) : s.history.inFlight ≤ h.inFlight := by
  have hsum := (sums_setSpace 0 { s with history := .new } hs).1
  have hnew : SentPacketHistory.new.inFlight = 0 := rfl
  simp only [hnew] at hsum
  omega

/-- Replace a space: what its history loses in bytes, `e` gains, and `n` may be lowered by what
it carried. -/
theorem Books.setSpace (b : Books x n e h) (hs : h.space encLevel = some s) (sd : Sound s'.history)
    (hframes : (historyCarried x s'.history : Int) + n ≤ historyCarried x s.history + m)
    (hbytes : (s'.history.inFlight : Int) + e' = s.history.inFlight + e) :
    Books x m e' (h.setSpace s' encLevel) := by
  have hsound : ∀ l t, (h.setSpace s' encLevel).space l = some t → Sound t.history := by
    intro l t ht
    rcases space_of_setSpace ht with rfl | ht
    · exact sd
    · exact b.ledger.sound l t ht
  have hsettled : settled x (h.setSpace s' encLevel) = settled x h := by cases encLevel <;> rfl
  obtain ⟨hsum, hlive⟩ := sums_setSpace x s' hs
  have hle := b.ledger.balance
  have hb := b.accounts.balance
  refine ⟨⟨hsound, ?_⟩, fun l t ht => (hsound l t ht).wf, ?_⟩
  · rw [hsettled]
    omega
  · rw [bytesInFlight_setSpace]
    omega

theorem Books.sameHistory (b : Books x n e h) (hs : h.space encLevel = some s)
    (heq : s'.history = s.history) : Books x n e (h.setSpace s' encLevel) := by
  refine b.setSpace hs ?_ (Int.le_of_eq ?_) ?_
  · rw [heq]
    exact b.ledger.sound encLevel s hs
  · rw [heq]
  · rw [heq]

theorem Books.adds (b : Books x n e h) (hs : h.space encLevel = some s) {frames bytes : Nat}
    (hadds : Adds x s.history frames bytes s'.history) :
    Books x (n + frames) (e - bytes) (h.setSpace s' encLevel) := by
  obtain ⟨sd, hframes, hbytes⟩ := hadds
  exact b.setSpace hs sd (by omega) (by omega)

theorem Books.callbacks (b : Books x n e h) {cs : List FrameCallback}
    (hle : n + ((cs.map FrameCallback.frame).count x : Nat) ≤ m) :
    Books x m e { h with callbacks := h.callbacks ++ cs } :=
  ⟨b.ledger.callbacks hle, b.accounts.wf, b.accounts.balance⟩

/-- Path probes may go at any time: their bytes are not counted. -/
theorem Books.withProbes (b : Books x n e h) (hsub : ps.Sublist h.probes)
    (hsum : (carriedBy x ps : Int) + n ≤ carriedBy x h.probes + m) :
    Books x m e { h with appDataPackets := { h.appDataPackets with
      history := { h.appDataPackets.history with pathProbePackets := ps } } } := by
  have hs : h.space .oneRTT = some h.appDataPackets := rfl
  let space := { h.appDataPackets with
    history := { h.appDataPackets.history with pathProbePackets := ps } }
  have b' : Books x m e (h.setSpace space .oneRTT) := by
    refine b.setSpace hs ((b.ledger.sound _ _ hs).withProbes hsub) ?_ rfl
    rw [probes] at hsum
    simp only [space, historyCarried]
    omega
  exact b'

theorem onHistory_adds (b : Books x n e h)
    {f : SentPacketHistory → Except Failure SentPacketHistory} {frames bytes : Nat}
    (hf : ∀ history, Sound history →
      (f history).Meets (Adds x history frames bytes) Failure.CountersHold) :
    (h.onHistory encLevel f).Meets (Books x (n + frames) (e - bytes)) (Failure.Fair e₀) := by
  simp only [onHistory]
  cases hs : h.space encLevel with
  | none => exact fun _ => ⟨Failure.noConfusion, Failure.noConfusion⟩
  | some s =>
    refine ((hf s.history (b.ledger.sound encLevel s hs)).mono_error
      Failure.CountersHold.fair).map fun history hadds => ?_
    exact b.adds hs hadds

theorem Ahead.sublist (ha : Ahead encLevel rest h) (hsub : ps.Sublist rest) :
    Ahead encLevel ps h := by
  obtain ⟨⟨s, hs, hp⟩, t, ht, hstanding⟩ := ha
  exact ⟨⟨s, hs, hp.sublist hsub⟩, t, ht, hstanding.sublist hsub⟩

theorem Ahead.congr (ha : Ahead encLevel rest h) (heq : ∀ l, h'.space l = h.space l) :
    Ahead encLevel rest h' := by
  rw [Ahead, Tracks, Stands, heq]
  exact ha

/-- A packet ahead is part of the sum. -/
theorem Ahead.le_inFlight (ha : Ahead encLevel (p :: rest) h) : p.inFlight ≤ h.inFlight := by
  obtain ⟨s, hs, hp⟩ := ha.1
  obtain ⟨q, hq, -, hbytes⟩ := hp.entry p mem_cons_self
  rw [← hbytes]
  exact (SentPacketHistory.le_total_of_mem hq).trans (space_le_inFlight hs)

theorem ahead_entries (b : Books x n e h) (hs : h.space encLevel = some s) :
    Ahead encLevel s.history.entries h :=
  ⟨⟨s, hs, pending_entries (b.accounts.wf encLevel s hs)⟩,
    s, hs, standing_entries (b.accounts.wf encLevel s hs)⟩

/-- The next packet of a loop is taken out, with its bytes and what its entry carries. -/
theorem onHistory_books {f : SentPacketHistory → Int → Except Failure SentPacketHistory}
    (hf : TakesOut f) (b : Books x n e h) (ha : Ahead encLevel (p :: rest) h) :
    ∃ h', h.onHistory encLevel (f · p.packetNumber) = .ok h' ∧
      Books x (n - own x p) (e + p.inFlight) h' ∧ Ahead encLevel rest h' := by
  obtain ⟨⟨s, hs, hp⟩, t, ht, hstanding⟩ := ha
  cases hs.symm.trans ht
  have sd := b.ledger.sound encLevel s hs
  -- both books speak of one entry
  obtain ⟨q, hq, hnum, hbytes⟩ := hp.entry p mem_cons_self
  obtain ⟨q', hq', hnum', hle⟩ := own_le (x := x) hstanding
  obtain rfl : q' = q := eq_of_packetNumber sd.wf hq' hq (hnum'.trans hnum.symm)
  obtain ⟨history', hok, hr, hhigh⟩ := hf sd.wf hq
  obtain ⟨sd', hcarried⟩ := sd.removes (x := x) hr hhigh
  have hsum := hr.sum Packet.inFlight fun r hr hskip =>
    inFlight_eq_zero (sd.wf.plain r hr (.inl hskip))
  refine ⟨h.setSpace { s with history := history' } encLevel, ?_, b.setSpace hs sd' ?_ ?_,
    ⟨_, space_setSpace, hp.removes hnum hr⟩, _, space_setSpace, hstanding.removes hnum hr⟩
  · simp only [onHistory, hs, ← hnum, hok, Except.map]
  · show (historyCarried x history' : Int) + n ≤ historyCarried x s.history + (n - own x p)
    omega
  · show (SentPacketHistory.total Packet.inFlight history'.packets : Int) + (e + p.inFlight) =
      SentPacketHistory.total Packet.inFlight s.history.packets + e
    omega

theorem queueFrames_books (b : Books x n e h) : (h.queueFramesForRetransmission p).Meets
      (fun h' => Books x (n + carried x p) e h' ∧ ∀ l, h'.space l = h.space l)
      (Failure.Fair e₀) := by
  simp only [queueFramesForRetransmission]
  split
  · exact fun _ => ⟨Failure.noConfusion, Failure.noConfusion⟩
  · refine ⟨b.callbacks ?_, fun l => by cases l <;> rfl⟩
    rw [map_frame_onLost]
    exact le_rfl

theorem removeFromBytesInFlight_books (b : Books x n (e + p.inFlight) h)
    (he : 0 ≤ e₀ → 0 ≤ e + h.inFlight) : (h.removeFromBytesInFlight p).Meets
      (fun h' => Books x n e h' ∧ ∀ l, h'.space l = h.space l) (Failure.Fair e₀) := by
  have hb := b.accounts.balance
  simp only [removeFromBytesInFlight]
  split
  · rename_i hp
    have hbytes : p.inFlight = p.length := if_pos hp
    split
    · intro he₀
      have he := he he₀
      omega
    · refine ⟨⟨{ b.ledger with }, b.accounts.wf, ?_⟩,
        fun l => by cases l <;> rfl⟩
      show ((h.bytesInFlight - p.length : Nat) : Int) = h.inFlight + e
      omega
  · rename_i hp
    rw [inFlight_eq_zero (Bool.eq_false_iff.mpr hp), Int.natCast_zero, Int.add_zero] at b
    exact ⟨b, fun _ => rfl⟩

theorem inFlight_congr (hspace : ∀ l, h'.space l = h.space l) : h'.inFlight = h.inFlight := by
  have hinitial : h'.initialPackets = h.initialPackets := hspace .initial
  have hhandshake : h'.handshakePackets = h.handshakePackets := hspace .handshake
  have happ : h'.appDataPackets = h.appDataPackets := Option.some.inj (hspace .oneRTT)
  rw [inFlight, hinitial, hhandshake, happ, inFlight]

theorem removeAll_books (b : Books x n (e + bytesOf ps) h) (he : 0 ≤ e₀ → 0 ≤ e + h.inFlight) :
    (ps.foldlM removeFromBytesInFlight h).Meets
      (fun h' => Books x n e h' ∧ ∀ l, h'.space l = h.space l) (Failure.Fair e₀) := by
  refine (Meets.foldlM (I := fun rest h' => Books x n (e + bytesOf rest) h' ∧
    ∀ l, h'.space l = h.space l) ?_ ⟨b, fun _ => rfl⟩).mono fun h' hh => ?_
  · rintro p rest b' ⟨b, hspace⟩
    have hsame := inFlight_congr hspace
    have b' : Books x n (e + bytesOf rest + p.inFlight) b' := by
      rw [bytesOf_cons, Int.natCast_add] at b
      rwa [Int.add_assoc, Int.add_comm (bytesOf rest : Int)]
    refine (removeFromBytesInFlight_books b' fun he₀ => ?_).mono fun h₁ hh =>
      ⟨hh.1, fun l => (hh.2 l).trans (hspace l)⟩
    have he := he he₀
    omega
  · rw [bytesOf_nil, Int.natCast_zero, Int.add_zero] at hh
    exact hh

/-! ## Losses -/

theorem loseRegular_books (b : Books x (n - own x p) (e + p.inFlight) h)
    (hplain : p.skippedPacket = true ∨ p.isPathProbePacket = true → p.inFlight = 0) :
    (h.loseRegular p).Meets (fun h' => Books x n e h' ∧ ∀ l, h'.space l = h.space l)
      (Failure.Fair e) := by
  simp only [loseRegular]
  split_ifs with hirregular
  · rw [hplain (by simpa using hirregular), Int.natCast_zero, Int.add_zero] at b
    exact ⟨b.mono (Int.sub_le_self n (Int.natCast_nonneg _)), fun _ => rfl⟩
  · have hown : own x p = carried x p := by
      rw [own, if_neg]
      intro hprobe
      rw [hprobe, Bool.or_true] at hirregular
      exact hirregular rfl
    refine (removeFromBytesInFlight_books b (by omega)).bind fun h₁ hh₁ => ?_
    refine (queueFrames_books hh₁.1).mono fun h₂ hh₂ => ⟨hh₂.1.mono ?_, fun l => ?_⟩
    · exact Int.le_of_eq (by rw [hown, Int.sub_add_cancel])
    · rw [hh₂.2 l, hh₁.2 l]

theorem declareLost_loseRegular_books (b : Books x n e h) (ha : Ahead encLevel (p :: rest) h) :
    ((h.onHistory encLevel (·.declareLost p.packetNumber)).bind (·.loseRegular p)).Meets
      (fun h' => Books x n e h' ∧ Ahead encLevel rest h') (Failure.Fair e) := by
  have hplain : p.skippedPacket = true ∨ p.isPathProbePacket = true → p.inFlight = 0 := by
    obtain ⟨s, -, hp⟩ := ha.1
    exact hp.plain p mem_cons_self
  obtain ⟨h₁, hok, b₁, ha₁⟩ := onHistory_books takesOut_declareLost b ha
  rw [hok]
  exact (loseRegular_books b₁ hplain).mono fun h₂ hh₂ => ⟨hh₂.1, ha₁.congr hh₂.2⟩

theorem setLossTime_books (b : Books x n e h) (ha : Ahead encLevel rest h) (t : Int) :
    Books x n e (h.setLossTime encLevel t) ∧ Ahead encLevel rest (h.setLossTime encLevel t) := by
  obtain ⟨⟨s, hs, hp⟩, s', hs', hstanding⟩ := ha
  cases hs.symm.trans hs'
  simp only [setLossTime, hs]
  split
  · exact ⟨b.sameHistory hs rfl, ⟨_, space_setSpace, hp⟩, _, space_setSpace, hstanding⟩
  · exact ⟨b, ⟨s, hs, hp⟩, s, hs, hstanding⟩

theorem detectLostPackets_books (b : Books x n e h) (now : Int) (encLevel : EncryptionLevel)
    (rtt : RTT) : (h.detectLostPackets now encLevel rtt).Meets (Books x n e) (Failure.Fair e) := by
  refine (detectLostPackets_rule Failure.Plain.fair
    (I := fun rest h => Books x n e h ∧ Ahead encLevel rest h) ?_ ?_ fun s hs => ?_).mono ?_
  · exact fun hi => declareLost_loseRegular_books hi.1 hi.2
  · exact fun t hi => setLossTime_books hi.1 (hi.2.sublist (sublist_cons_self _ _)) t
  · have b' : Books x n e (h.setSpace { s with lossTime := 0 } encLevel) := b.sameHistory hs rfl
    have ha := ahead_entries b' space_setSpace
    exact ⟨b', ha⟩
  · rintro h' ⟨rest, b', -⟩
    exact b'

theorem queueProbePacket_books (b : Books x n e h) (encLevel : EncryptionLevel) :
    (h.queueProbePacket encLevel).Meets (fun r => Books x n e r.1) (Failure.Fair e) := by
  simp only [queueProbePacket]
  cases hs : h.space encLevel with
  | none => exact fun _ => ⟨Failure.noConfusion, Failure.noConfusion⟩
  | some s =>
    dsimp only
    cases hp : s.history.firstOutstanding with
    | none => exact b
    | some p =>
      simp only [SentPacketHistory.firstOutstanding] at hp
      split_ifs at hp
      have hsub : [p].Sublist s.history.entries :=
        singleton_sublist.mpr (mem_of_find?_eq_some hp)
      have hout : p.outstanding = true := List.find?_some hp
      have hown : own x p = carried x p := by
        rw [own, if_neg]
        intro hprobe
        rw [Packet.outstanding, hprobe, Bool.not_true, Bool.and_false] at hout
        cases hout
      have ha := (ahead_entries b hs).sublist hsub
      refine Meets.map (((queueFrames_books b).bind fun h₁ hh₁ => ?_).bind fun _ h => h)
        fun _ h => h
      have ha₁ := ha.congr hh₁.2
      have hle := ha₁.le_inFlight
      have b₁ : Books x (n + carried x p) (e - p.inFlight + p.inFlight) h₁ := by
        rw [Int.sub_add_cancel]
        exact hh₁.1
      refine (removeFromBytesInFlight_books b₁ (by omega)).mono fun h₂ hh₂ => ?_
      obtain ⟨h₃, hok₃, b₃, -⟩ := onHistory_books takesOut_declareLost hh₂.1
        (ha₁.congr hh₂.2)
      rw [Int.sub_add_cancel] at b₃
      rw [hok₃]
      exact b₃.mono (Int.le_of_eq (by rw [hown, Int.add_sub_cancel]))

/-! ## Path probes -/

/-- A path probe is lost: its frames are settled, and it leaves its list. -/
theorem losePathProbe_books (b : Books x n e h) (hp : p ∈ h.probes)
    (hrest : ∀ q ∈ rest, p.packetNumber < q.packetNumber ∧ q ∈ h.probes) :
    (h.losePathProbe p).Meets (fun h' => Books x n e h' ∧ ∀ q ∈ rest, q ∈ h'.probes)
      (Failure.Fair e₀) := by
  simp only [losePathProbe]
  split_ifs with hall
  · have sd := b.ledger.sound .oneRTT h.appDataPackets rfl
    have hfind := find?_packetNumber sd.ascending hp
    have hsum := carriedBy_eraseP (x := x) hfind
    have hframes : p.frames.filter (·.hasHandler) = p.frames :=
      filter_eq_self.mpr (all_eq_true.mp hall)
    have hcount : ((p.frames.map fun f => FrameCallback.onLost f.frame).map
        FrameCallback.frame).count x ≤ carried x p := by
      rw [carried, handled, filter_append, hframes, map_append, count_append, map_map]
      exact Nat.le_add_right _ _
    refine ⟨?_, fun q hq => ?_⟩
    · have b' : Books x (n - carried x p) e { h with appDataPackets := { h.appDataPackets with
          history := (h.appDataPackets.history.removePathProbe p.packetNumber).1 } } := by
        refine b.withProbes eraseP_sublist ?_
        rw [probes] at *
        omega
      exact b'.callbacks (by omega)
    · obtain ⟨hlt, hq⟩ := hrest q hq
      refine (mem_eraseP_of_neg ?_).mpr hq
      intro heq
      have heq := of_decide_eq_true heq
      omega
  · exact fun _ => ⟨Failure.noConfusion, Failure.noConfusion⟩

theorem detectLostPathProbes_books (b : Books x n e h) (now : Int) :
    (h.detectLostPathProbes now).Meets (Books x n e) (Failure.Fair e₀) := by
  have sd := b.ledger.sound .oneRTT h.appDataPackets rfl
  refine (Meets.foldlM (I := fun rest h => Books x n e h ∧
    (rest.Pairwise fun p q => p.packetNumber < q.packetNumber) ∧ ∀ q ∈ rest, q ∈ h.probes)
    ?_ ⟨b, ?_, ?_⟩).mono fun _ hh => hh.1
  · rintro p rest h ⟨b, hasc, hmem⟩
    have hrest : ∀ q ∈ rest, p.packetNumber < q.packetNumber ∧ q ∈ h.probes := fun q hq =>
      ⟨rel_of_pairwise_cons hasc hq, hmem q (mem_cons_of_mem p hq)⟩
    exact (losePathProbe_books b (hmem p mem_cons_self) hrest).mono
      fun h' hh => ⟨hh.1, List.Pairwise.of_cons hasc, hh.2⟩
  · exact sd.ascending.sublist filter_sublist
  · intro q hq
    exact (mem_filter.mp hq).1

/-! ## Acknowledgements -/

/-- What the first loop of `detectAndRemoveAckedPackets` collects is ahead, and no packet is
taken out; the path probes among it have left their list. -/
theorem collectAcked_books {ack : AckFrame} {lowestAcked largestAcked : Int}
    {ranges : List AckRange} (sd : Sound history) (hp : Pending ([] ++ rest) history)
    (hstanding : Standing ([] ++ rest) history) :
    (collectAcked ack encLevel lowestAcked largestAcked rest ranges history []).Meets
      (fun r => Sound r.1 ∧ r.1.inFlight = history.inFlight ∧
        historyCarried x r.1 + owedBy x r.2 = historyCarried x history ∧
        Pending (r.2 ++ []) r.1 ∧ Standing (r.2 ++ []) r.1) (Failure.Fair e₀) := by
  refine collectAcked_rule Failure.Plain.fair (I := fun rest history' acked =>
    Sound history' ∧ history'.inFlight = history.inFlight ∧
      historyCarried x history' + owedBy x acked = historyCarried x history ∧
      Pending (acked ++ rest) history' ∧ Standing (acked ++ rest) history')
    ?_ ?_ ?_ rest ⟨sd, rfl, rfl, hp, hstanding⟩
  · rintro p rest history' acked ⟨sd, hbytes, hsum, hp, hstanding⟩
    have hskip := List.Sublist.append_left (sublist_cons_self p rest) acked
    exact ⟨sd, hbytes, hsum, hp.sublist hskip, hstanding.sublist hskip⟩
  · rintro p rest history' acked hprobe ⟨sd, hbytes, hsum, hp, hstanding⟩
    cases hq : history'.pathProbePackets.find?
        fun q => decide (q.packetNumber = p.packetNumber) with
    | none =>
      have herase : history'.removePathProbe p.packetNumber = (history', none) := by
        rw [SentPacketHistory.removePathProbe, hq, eraseP_of_forall_not]
        exact fun q hmem => List.find?_eq_none.mp hq q hmem
      have hskip := List.Sublist.append_left (sublist_cons_self p rest) acked
      rw [herase, Option.toList_none, append_nil]
      exact ⟨sd, hbytes, hsum, hp.sublist hskip, hstanding.sublist hskip⟩
    | some q =>
      have hmem := mem_of_find?_eq_some hq
      have hflag := sd.flagged q hmem
      have hnum := List.find?_some hq
      have hnum := of_decide_eq_true hnum
      have herase := carriedBy_eraseP (x := x) hq
      have howed : owedBy x [q] = carried x q := by
        show owed x q + 0 = _
        rw [owed, if_pos hflag]
        rfl
      have hz := hp.plain p (mem_append_right _ mem_cons_self) (.inr hprobe)
      have hp' := hp.replace hnum (inFlight_eq_zero (sd.wf.probes q hmem)) hz
      have hstanding' := hstanding.replace hnum hflag
      simp only [SentPacketHistory.removePathProbe, hq, Option.toList_some]
      refine ⟨sd.removePathProbe p.packetNumber, hbytes, ?_,
        { hp' with }, hstanding'.ascending, hstanding'.entry⟩
      rw [owedBy_append, howed]
      simp only [historyCarried] at hsum ⊢
      omega
  · rintro p rest history' acked hregular ⟨sd, hbytes, hsum, hp, hstanding⟩
    have howed : owedBy x [p] = 0 := by
      show owed x p + 0 = 0
      rw [owed, hregular]
      rfl
    rw [append_assoc, singleton_append, owedBy_append, howed]
    exact ⟨sd, hbytes, hsum, hp, hstanding⟩

theorem settleAcked_books (b : Books x (n - owedBy x (p :: rest)) e h)
    (ha : Ahead encLevel (p :: rest) h) : (settleAcked encLevel h p).Meets
      (fun h' => Books x (n - owedBy x rest) (e + p.inFlight) h' ∧ Ahead encLevel rest h')
      (Failure.Fair e₀) := by
  have hcallbacks : Books x (n - owedBy x rest + own x p) e
      { h with callbacks := h.callbacks ++ (handled p).map FrameCallback.onAcked } := by
    have hown := own_add_owed x p
    refine b.callbacks ?_
    rw [map_frame_onAcked, owedBy_cons]
    rw [carried] at hown
    omega
  have hconfirm : Books x (n - owedBy x rest + own x p) e (confirmAcked encLevel h p) :=
    hcallbacks.congr (fun l => by cases l <;> rfl) rfl rfl
  obtain ⟨h', hok, b', ha'⟩ := onHistory_books takesOut_remove hconfirm
    (show Ahead encLevel (p :: rest) (confirmAcked encLevel h p) from ha)
  rw [Int.add_sub_cancel] at b'
  rw [settleAcked, hok]
  exact ⟨b', ha'⟩

/-- The acknowledged packets are out of the history, their bytes still counted. -/
theorem detectAndRemoveAckedPackets_books (b : Books x n e h) {ack : AckFrame} :
    (h.detectAndRemoveAckedPackets ack encLevel).Meets
      (fun r => Books x n (e + bytesOf r.2) r.1) (Failure.Fair e₀) := by
  simp only [detectAndRemoveAckedPackets]
  split
  · rename_i s lowestAcked largestAcked hs _ _
    have sd := b.ledger.sound encLevel s hs
    refine (collectAcked_books (x := x) sd (pending_entries sd.wf) (standing_entries sd.wf)).bind ?_
    rintro ⟨history, acked⟩ ⟨sd', hbytes, hsum, hp', hstanding'⟩
    rw [append_nil] at hp' hstanding'
    dsimp only at hbytes hsum
    have b' : Books x (n - owedBy x acked) (e + bytesOf acked - bytesOf acked)
        (h.setSpace { s with history := history } encLevel) := by
      rw [Int.add_sub_cancel]
      refine b.setSpace hs sd' ?_ ?_
      · show (historyCarried x history : Int) + n ≤ _
        omega
      · show (history.inFlight : Int) + e = _
        omega
    -- the bytes of the packets that are settled are in `e`, those of the rest in the history
    refine (Meets.foldlM (I := fun rest h' =>
      Books x (n - owedBy x rest) (e + bytesOf acked - bytesOf rest) h' ∧ Ahead encLevel rest h')
      (fun p rest h' hh => ?_)
      ⟨b', ⟨_, space_setSpace, hp'⟩, _, space_setSpace, hstanding'⟩).map fun h' hh => ?_
    · refine (settleAcked_books hh.1 hh.2).mono fun h'' hh' => ⟨?_, hh'.2⟩
      have heq : e + bytesOf acked - bytesOf (p :: rest) + p.inFlight =
          e + bytesOf acked - bytesOf rest := by
        rw [bytesOf_cons]
        omega
      rw [← heq]
      exact hh'.1
    · rw [bytesOf_nil, Int.natCast_zero, Int.sub_zero] at hh
      exact hh.1.mono (Int.sub_le_self n (Int.natCast_nonneg _))
  · exact fun _ => ⟨Failure.noConfusion, Failure.noConfusion⟩

theorem raiseLargestAcked_books (b : Books x n e h) (encLevel : EncryptionLevel) (pn : Int) :
    Books x n e (h.raiseLargestAcked encLevel pn) := by
  simp only [raiseLargestAcked]
  split
  · exact b
  · rename_i s hs
    exact b.sameHistory hs rfl

theorem completeAddressValidation_books (b : Books x n e h) (encLevel : EncryptionLevel)
    (rcvTime : Int) (rtt : RTT) :
    Books x n e (h.completeAddressValidation encLevel rcvTime rtt) := by
  simp only [completeAddressValidation]
  split
  · exact b.congr (fun l => by cases l <;> rfl) rfl rfl
  · exact b

theorem processAcked_books {acked : List Packet} (b : Books x n (e + bytesOf acked) h)
    {largestAcked rcvTime : Int} {rtt : RTT} :
    (h.processAcked acked largestAcked encLevel rcvTime rtt).Meets (fun r => Books x n e r.1)
      (Failure.Fair e) := by
  have hlost : ((h.raiseLargestAcked encLevel largestAcked).detectLost encLevel rcvTime rtt).Meets
      (Books x n (e + bytesOf acked)) (Failure.Fair e) := by
    have b' := raiseLargestAcked_books b encLevel largestAcked
    refine ((detectLostPackets_books b' rcvTime encLevel rtt).mono_error
      fun f hf he => hf (by omega)).bind fun h' b'' => ?_
    split
    · exact detectLostPathProbes_books b'' rcvTime
    · exact b''
  refine Meets.map (hlost.bind fun h' b' => ?_) fun _ h => h
  exact (removeAll_books b' (by omega)).mono fun h'' hh =>
    hh.1.congr (fun l => by cases l <;> rfl) rfl rfl

theorem receivedAck_books (b : Books x n e h) (ack : AckFrame) (encLevel : EncryptionLevel)
    (rcvTime : Int) (rtt : RTT) :
    (h.receivedAck ack encLevel rcvTime rtt).Meets (fun r => Books x n e r.1) (Failure.Fair e) := by
  simp only [receivedAck]
  split
  · split
    · exact fun _ => ⟨Failure.noConfusion, Failure.noConfusion⟩
    · have b' := completeAddressValidation_books b encLevel rcvTime rtt
      refine (detectAndRemoveAckedPackets_books b').bind ?_
      rintro ⟨h', acked⟩ b''
      dsimp only at b'' ⊢
      split_ifs with hnil
      · rw [hnil, bytesOf_nil, Int.natCast_zero, Int.add_zero] at b''
        exact b''
      · exact processAcked_books b''
  · exact fun _ => ⟨Failure.noConfusion, Failure.noConfusion⟩

/-! ## Sending -/

theorem popPacketNumber_books (b : Books x n e h) (encLevel : EncryptionLevel) (rnd : Nat) :
    (h.popPacketNumber encLevel rnd).Meets (fun r => Books x n e r.1) (Failure.Fair e₀) := by
  simp only [popPacketNumber]
  cases hs : h.space encLevel with
  | none => exact fun _ => ⟨Failure.noConfusion, Failure.noConfusion⟩
  | some s =>
    dsimp only
    split_ifs with hskip
    · have hpos := pop_skipped hskip
      have hnonneg : (0 : Int) ≤ ((s.pns.pop rnd).2.2 : Int) - 1 := by omega
      refine ((skippedPacket_adds (x := x) (b.ledger.sound encLevel s hs)
        hnonneg).mono_error Failure.CountersHold.fair).map fun history hadds => ?_
      have b' : Books x (n + (0 : Nat)) (e - (0 : Nat)) (h.setSpace
        { s with pns := (s.pns.pop rnd).1, history := history } encLevel) := b.adds hs hadds
      rwa [Int.natCast_zero, Int.add_zero, Int.sub_zero] at b'
    · exact b.sameHistory hs rfl

theorem skippedPacket_books (b : Books x n e h) (pn : Nat) :
    (h.onHistory encLevel (·.skippedPacket pn)).Meets (Books x n e) (Failure.Fair e₀) := by
  refine (onHistory_adds b fun history sd =>
    skippedPacket_adds sd (Int.natCast_nonneg pn)).mono fun h' b' => ?_
  rwa [Int.natCast_zero, Int.add_zero, Int.sub_zero] at b'

theorem sentPathProbe_books (b : Books x n e h) (a : Sent) :
    (h.sentPathProbe a).Meets (Books x (n + carried x a.packet) e) (Failure.Fair e₀) := by
  refine (onHistory_adds b fun history sd => sentPathProbePacket_adds sd
    (Int.natCast_nonneg a.pn) ⟨rfl, rfl⟩).mono fun h' b' => ?_
  -- the stream frames of a path probe are not recorded
  have hle : carried x { Packet.zero a.pn with
      sendTime := a.time, encryptionLevel := some a.encLevel, length := a.size,
      frames := a.frames, isPathProbePacket := true } ≤ carried x a.packet := by
    refine List.Sublist.count_le x (List.Sublist.map _ (List.Sublist.filter _ ?_))
    exact List.Sublist.append_left (nil_sublist _) _
  rw [Int.natCast_zero, Int.sub_zero] at b'
  exact b'.mono (by omega)

theorem sentNonAckEliciting_books (b : Books x n e h) (a : Sent) (rtt : RTT) :
    (h.sentNonAckEliciting a rtt).Meets (Books x n e) (Failure.Fair e₀) := by
  refine (onHistory_adds b fun history sd =>
    sentNonAckElicitingPacket_adds sd (Int.natCast_nonneg a.pn)).map fun h' b' => ?_
  rw [Int.natCast_zero, Int.add_zero, Int.sub_zero] at b'
  split
  · exact b'
  · exact b'.setLossDetectionTimer

/-- The bytes are counted first, then the packet is tracked. -/
theorem sentAckEliciting_books (b : Books x n e h) (a : Sent) (hs : h.space a.encLevel = some s)
    (rtt : RTT) : (h.sentAckEliciting s a rtt).Meets (Books x (n + carried x a.packet) e)
      (Failure.Fair e₀) := by
  have b₁ : Books x n e (h.setSpace { s with lastAckElicitingPacketTime := a.time } a.encLevel) :=
    b.sameHistory hs rfl
  have b₂ : Books x n (e + a.size)
      ((h.setSpace { s with lastAckElicitingPacketTime := a.time } a.encLevel).countSent a) := by
    have hb := b₁.accounts.balance
    refine ⟨{ b₁.ledger with }, b₁.accounts.wf, ?_⟩
    simp only [countSent, Int.natCast_add]
    rw [hb, Int.add_assoc]
    rfl
  refine (onHistory_adds b₂ fun history sd => sentAckElicitingPacket_adds
    (p := a.packet) sd (Int.natCast_nonneg a.pn) ⟨rfl, rfl⟩).map fun h' b' => ?_
  have hbytes : a.packet.inFlight = a.size := rfl
  rw [hbytes, Int.add_sub_cancel] at b'
  exact b'.setLossDetectionTimer

theorem sentPacket_books (b : Books x n e h) (a : Sent) (rtt : RTT) :
    (h.sentPacket a rtt).Meets (Books x (n + carried x a.packet) e) (Failure.Fair e₀) := by
  simp only [sentPacket]
  cases hs : h.space a.encLevel with
  | none => exact fun _ => ⟨Failure.noConfusion, Failure.noConfusion⟩
  | some s =>
    have b₀ : Books x n e { h with bytesSent := h.bytesSent + a.size } :=
      b.congr (fun l => by cases l <;> rfl) rfl rfl
    have b₁ : Books x n e ({ h with bytesSent := h.bytesSent + a.size }.setSpace
        { s with largestSent := a.pn } a.encLevel) := b₀.sameHistory hs rfl
    dsimp only
    split
    · exact (sentPathProbe_books b₁ a).map fun h' b' =>
        b'.setLossDetectionTimer
    · split
      · refine (sentNonAckEliciting_books b₁ a rtt).mono fun h' b' => b'.mono ?_
        exact Int.le_add_of_nonneg_right (Int.natCast_nonneg _)
      · exact sentAckEliciting_books b₁ a space_setSpace rtt

/-! ## Keys, Retry and migration -/

theorem removeQuietly_books (b : Books x n e h) (ha : Ahead .oneRTT (p :: rest) h) :
    (h.removeQuietly p.packetNumber).Meets
      (fun h' => Books x n (e + p.inFlight) h' ∧ Ahead .oneRTT rest h') (Failure.Fair e₀) := by
  obtain ⟨h', hok, b', ha'⟩ := onHistory_books takesOut_remove b ha
  simp only [onHistory, space, map_eq_ok_iff] at hok
  obtain ⟨history, hremoves, rfl⟩ := hok
  rw [removeQuietly, hremoves]
  exact ⟨b'.mono (Int.sub_le_self n (Int.natCast_nonneg _)), ha'⟩

theorem drop0RTTLoop_books (b : Books x n e h) (ha : Ahead .oneRTT rest h) :
    (drop0RTTLoop rest h).Meets (Books x n e) (Failure.Fair e) := by
  refine (drop0RTTLoop_rule (I := fun rest h => Books x n e h ∧ Ahead .oneRTT rest h) ?_ rest
    ⟨b, ha⟩).mono fun _ hi => hi.elim fun _ hi => hi.1
  rintro p rest h ⟨b, ha⟩
  have hle := ha.le_inFlight
  have b₁ : Books x n (e - p.inFlight + p.inFlight) h := by
    rwa [Int.sub_add_cancel]
  refine (removeFromBytesInFlight_books b₁ (by omega)).bind fun h₁ hh₁ => ?_
  refine (removeQuietly_books hh₁.1 (ha.congr hh₁.2)).mono fun h₂ hh₂ => ?_
  rwa [Int.sub_add_cancel] at hh₂

/-- A space is dropped, after its bytes were subtracted. -/
theorem Books.drop (b : Books x n (e - bytesOf s.history.entries) h)
    (hspace : ∀ l t, h'.space l = some t → h.space l = some t) (hlive : live x h' ≤ live x h)
    (hbytes : h.inFlight = h'.inFlight + bytesOf s.history.entries)
    (hcount : h'.bytesInFlight = h.bytesInFlight) (hcallbacks : h'.callbacks = h.callbacks) :
    Books x n e h' := by
  refine ⟨⟨fun l t ht => b.ledger.sound l t (hspace l t ht), ?_⟩,
    fun l t ht => b.accounts.wf l t (hspace l t ht), ?_⟩
  · have hb := b.ledger.balance
    rw [settled] at hb ⊢
    rw [hcallbacks]
    omega
  · have hb := b.accounts.balance
    rw [hcount]
    omega

theorem removeEntries_books (encLevel : EncryptionLevel) (b : Books x n e h)
    (hs : h.space encLevel = some s) : (s.history.entries.foldlM removeFromBytesInFlight h).Meets
      (fun h' => Books x n (e - bytesOf s.history.entries) h' ∧ h'.space encLevel = some s)
      (Failure.Fair e) := by
  have hle : bytesOf s.history.entries ≤ h.inFlight := space_le_inFlight hs
  have b' : Books x n (e - bytesOf s.history.entries + bytesOf s.history.entries) h := by
    rwa [Int.sub_add_cancel]
  exact (removeAll_books b' (by omega)).mono fun h' hh => ⟨hh.1, (hh.2 encLevel).trans hs⟩

theorem dropSpace_books (b : Books x n e h) (encLevel : EncryptionLevel) :
    (h.dropSpace encLevel).Meets (fun r => ∀ h', r = some h' → Books x n e h')
      (Failure.Fair e) := by
  cases encLevel with
  | initial =>
    simp only [dropSpace]
    split
    · rintro h' ⟨⟩
    · rename_i s hs
      refine (removeEntries_books .initial b hs).map ?_
      rintro h' ⟨b', hs'⟩ _ ⟨⟩
      have hi : h'.initialPackets = some s := hs'
      refine b'.drop (fun l t ht => ?_) ?_ ?_ rfl rfl
      · cases l with
        | initial => cases ht
        | handshake | zeroRTT | oneRTT => exact ht
      · simp only [live, spaceCarried]
        omega
      · have hentries : s.history.inFlight = bytesOf s.history.entries := rfl
        simp only [inFlight, hi, spaceInFlight]
        omega
  | handshake =>
    simp only [dropSpace]
    split
    · rintro h' ⟨⟩
    · rename_i s hs
      refine (removeEntries_books .handshake b hs).map ?_
      rintro h' ⟨b', hs'⟩ _ ⟨⟩
      have hi : h'.handshakePackets = some s := hs'
      refine b'.drop (fun l t ht => ?_) ?_ ?_ rfl rfl
      · cases l with
        | handshake => cases ht
        | initial | zeroRTT | oneRTT => exact ht
      · simp only [live, spaceCarried]
        omega
      · have hentries : s.history.inFlight = bytesOf s.history.entries := rfl
        simp only [inFlight, hi, spaceInFlight]
        omega
  | zeroRTT =>
    have ha := ahead_entries b (show h.space .oneRTT = some h.appDataPackets from rfl)
    refine (drop0RTTLoop_books b ha).map ?_
    rintro h' b' _ ⟨⟩
    exact b'
  | oneRTT => exact fun _ => ⟨Failure.noConfusion, Failure.noConfusion⟩

theorem dropPackets_books (b : Books x n e h) (encLevel : EncryptionLevel) (now : Int)
    (rtt : RTT) : (h.dropPackets encLevel now rtt).Meets (Books x n e) (Failure.Fair e) := by
  have b' : Books x n e (h.validateOnDrop encLevel) := by
    simp only [validateOnDrop]
    split
    · exact b.congr (fun l => by cases l <;> rfl) rfl rfl
    · exact b
  refine (dropSpace_books b' encLevel).map fun r hr => ?_
  cases r with
  | none => exact b'
  | some h'' => exact (hr h'' rfl).congr (fun l => by cases l <;> rfl) rfl rfl

theorem queueForRetry_books (b : Books x n e h) (p : Packet) : (h.queueForRetry p).Meets
      (fun h' => Books x (n + carried x p) e h' ∧ ∀ l, h'.space l = h.space l)
      (Failure.Fair e₀) := by
  simp only [queueForRetry]
  split
  · exact ⟨b.mono (Int.le_add_of_nonneg_right (Int.natCast_nonneg _)), fun _ => rfl⟩
  · exact queueFrames_books b

/-- All frames of the two spaces are settled, then the spaces start afresh.  The bytes are those
of the Handshake packets too few. -/
theorem resetForRetry_books (b : Books x n e h) (rnd : Nat) :
    (h.resetForRetry rnd).Meets (Books x n (-spaceInFlight h.handshakePackets))
      (Failure.Fair e₀) := by
  cases hs : h.initialPackets with
  | none =>
    rw [resetForRetry, hs]
    exact fun _ => ⟨Failure.noConfusion, Failure.noConfusion⟩
  | some s =>
    have b₀ : Books x n (-h.inFlight) { h with bytesInFlight := 0 } :=
      ⟨{ b.ledger with }, b.accounts.wf, (Int.add_right_neg _).symm⟩
    obtain ⟨all, hall⟩ : ∃ all, all = s.history.entries ++ h.appDataPackets.history.entries :=
      ⟨_, rfl⟩
    have hfold := Meets.foldlM (f := queueForRetry) (E := Failure.Fair e₀)
      (I := fun rest h' => Books x (n + carriedBy x all - carriedBy x rest) (-h.inFlight) h' ∧
        ∀ l, h'.space l = h.space l)
      (fun p rest h' hh => (queueForRetry_books hh.1 p).mono fun h'' hh' =>
        ⟨hh'.1.mono (by rw [carriedBy_cons]; omega), fun l => (hh'.2 l).trans (hh.2 l)⟩)
      (l := all) (b := { h with bytesInFlight := 0 })
      ⟨b₀.mono (by omega), fun l => by cases l <;> rfl⟩
    have hreset : h.resetForRetry rnd =
        (all.foldlM queueForRetry { h with bytesInFlight := 0 }).map (·.renewSpaces s rnd) := by
      rw [resetForRetry, hall]
      simp only [hs]
    rw [hreset]
    refine hfold.map fun h' hh => ?_
    obtain ⟨b', hspace⟩ := hh
    have hsound : ∀ l t, (h'.renewSpaces s rnd).space l = some t → Sound t.history := by
      intro l t ht
      cases l with
      | handshake => exact b'.ledger.sound .handshake t ht
      | initial | zeroRTT | oneRTT =>
        cases ht
        exact sound_new
    have hhandshake : h'.handshakePackets = h.handshakePackets := hspace .handshake
    refine ⟨⟨hsound, ?_⟩, fun l t ht => (hsound l t ht).wf, ?_⟩
    · have hb := b'.ledger.balance
      have hinitial : h'.initialPackets = some s := (hspace .initial).trans hs
      have happ : h'.appDataPackets = h.appDataPackets := Option.some.inj (hspace .oneRTT)
      have hentries : carriedBy x all = SentPacketHistory.total (carried x) s.history.packets +
          SentPacketHistory.total (carried x) h.appDataPackets.history.packets := by
        rw [hall, carriedBy_append]
        rfl
      have hbefore : live x h' = historyCarried x s.history +
          spaceCarried x h'.handshakePackets + historyCarried x h.appDataPackets.history := by
        rw [live, hinitial, happ]
        rfl
      have hafter : live x (h'.renewSpaces s rnd) =
          0 + spaceCarried x h'.handshakePackets + 0 := rfl
      have hsettled : settled x (h'.renewSpaces s rnd) = settled x h' := rfl
      rw [hbefore, hentries, carriedBy_nil, historyCarried, historyCarried] at hb
      rw [hafter, hsettled]
      omega
    · have hb := b'.accounts.balance
      rw [inFlight_congr hspace, Int.add_right_neg] at hb
      show (h'.bytesInFlight : Int) = ((0 + spaceInFlight h'.handshakePackets + 0 : Nat) : Int) +
        -spaceInFlight h.handshakePackets
      rw [hhandshake]
      omega

theorem migratedPath_books (b : Books x n e h) (now : Int) (rtt : RTT) :
    (h.migratedPath now rtt).Meets (Books x n e) (Failure.Fair e) := by
  have ha := ahead_entries b (show h.space .oneRTT = some h.appDataPackets from rfl)
  refine (Meets.foldlM (I := fun rest h => Books x n e h ∧ Ahead .oneRTT rest h)
    (fun p rest h hh => declareLost_loseRegular_books hh.1 hh.2) ⟨b, ha⟩).map ?_
  rintro h' ⟨b', -⟩
  have hsub := probesAfterMigration_sublist h'.probes
  have hle := carriedBy_sublist (x := x) hsub
  have b'' : Books x n e h'.clearPathProbes := b'.withProbes hsub
    (Int.add_le_add_right (Int.ofNat_le.mpr hle) n)
  exact b''.setLossDetectionTimer

/-! ## The timer -/

theorem onLossDetectionTimeout_books (b : Books x n e h) (now : Int) (rtt : RTT) (rnd : Nat) :
    (h.onLossDetectionTimeout now rtt rnd).Meets (Books x n e) (Failure.Fair e) := by
  refine (lossDetection_rule Failure.Plain.fair (I := Books x n e)
    (fun _ _ _ b => b.congr (fun l => by cases l <;> rfl) rfl rfl) ?_ ?_ ?_ ?_ b).map
    fun _ b' => b'.setLossDetectionTimer
  · exact fun b => detectLostPathProbes_books b now
  · exact fun l b => detectLostPackets_books b now l rtt
  · exact fun b => popPacketNumber_books b .oneRTT rnd
  · exact fun pn b => skippedPacket_books b pn

/-! ## Every run -/

/-- The frames with a handler that a call hands over. -/
def handedOver : Call → List Nat
  | .sentPacket a _ => handled a.packet
  | _ => []

/-- **One call.**  The bound on a frame grows by what is handed over, and the count of the bytes
stays exact if the call is permitted. -/
theorem call_books (b : Books x n e h) (c : Call) :
    (h.call c).Meets (fun h' => ∃ e', Books x (n + (handedOver c).count x) e' h' ∧
      (RetriesEarly h c → e = 0 → e' = 0)) (Failure.Fair e) := by
  have hkeeps : ∀ h', Books x n e h' → ∃ e', Books x (n + (handedOver c).count x) e' h' ∧
      (RetriesEarly h c → e = 0 → e' = 0) := fun _ b' =>
    ⟨e, b'.mono (Int.le_add_of_nonneg_right (Int.natCast_nonneg _)), fun _ he => he⟩
  cases c with
  | sentPacket a rtt =>
    exact (sentPacket_books b a rtt).mono fun _ b' => ⟨e, b', fun _ he => he⟩
  | popPacketNumber encLevel rnd =>
    exact (popPacketNumber_books b encLevel rnd).map fun r => hkeeps r.1
  | receivedAck ack encLevel rcvTime rtt =>
    exact (receivedAck_books b ack encLevel rcvTime rtt).map
      fun r => hkeeps r.1
  | onLossDetectionTimeout now rtt rnd =>
    exact (onLossDetectionTimeout_books b now rtt rnd).mono hkeeps
  | queueProbePacket encLevel =>
    exact (queueProbePacket_books b encLevel).map fun r => hkeeps r.1
  | dropPackets encLevel now rtt => exact (dropPackets_books b encLevel now rtt).mono hkeeps
  | resetForRetry rnd =>
    refine (resetForRetry_books b rnd).mono fun h' b' =>
      ⟨_, b'.mono (Int.le_add_of_nonneg_right (Int.natCast_nonneg _)), fun hperm _ => ?_⟩
    cases hh : h.handshakePackets with
    | none => rfl
    | some t =>
      have hnil := hperm t hh
      simp [spaceInFlight, SentPacketHistory.inFlight, hnil]
  | migratedPath now rtt => exact (migratedPath_books b now rtt).mono hkeeps
  | receivedBytes k t rtt =>
    refine hkeeps (h.receivedBytes k t rtt) ?_
    simp only [receivedBytes]
    split
    · exact b.congr (fun l => by cases l <;> rfl) rfl rfl
    · exact b.congr (fun l => by cases l <;> rfl) rfl rfl
  | receivedPacket l t rtt =>
    refine hkeeps (h.receivedPacket l t rtt) ?_
    simp only [receivedPacket]
    split
    · exact b.congr (fun l => by cases l <;> rfl) rfl rfl
    · exact b

/-- The same for calls of which some may fail: nothing is claimed of a failure. -/
theorem call_ledger (b : Books x n e h) (c : Call) :
    (h.call c).Meets (fun h' => ∃ e', Books x (n + (handedOver c).count x) e' h') AnyFailure :=
  ((call_books b c).mono fun _ hh => hh.imp fun _ hb => hb.1).mono_error fun _ _ => trivial

variable {initialPN : Nat} {validated : Bool} {pers : Perspective} {rnd : Nat} {tr : List Call}

theorem books_new (x initialPN : Nat) (validated : Bool) (pers : Perspective) (rnd : Nat) :
    Books x 0 0 (new initialPN validated pers rnd) := by
  have hsound : ∀ l s, (new initialPN validated pers rnd).space l = some s → Sound s.history := by
    intro l s hs
    cases l <;> cases hs <;> exact sound_new
  exact ⟨⟨hsound, Int.le_refl 0⟩, fun l s hs => (hsound l s hs).wf, rfl⟩

theorem run_ledger (x : Nat) (hrun : (machine initialPN validated pers rnd).Run tr h) :
    Ledger x ((tr.flatMap handedOver).count x) h := by
  have hbooks : ∃ e, Books x ((tr.flatMap handedOver).count x) e h := by
    refine Machine.Run.invariant
      (I := fun tr h => ∃ e, Books x ((tr.flatMap handedOver).count x) e h) ?_ ?_ hrun
    · rintro h rfl
      exact ⟨0, books_new x initialPN validated pers rnd⟩
    · rintro tr h c h' - ⟨e, b⟩ hstep
      rw [flatMap_append, count_append, flatMap_singleton, Int.natCast_add]
      exact (call_ledger b c).of_eq_ok (toOption_eq_some_iff.mp hstep)
  obtain ⟨e, b⟩ := hbooks
  exact b.ledger

theorem run_books (hrun : ((machine initialPN validated pers rnd).guard RetriesEarly).Run tr h) :
    ∃ n, Books 0 n 0 h := by
  refine Machine.Run.stable (I := fun h => ∃ n, Books 0 n 0 h) ?_ ?_ hrun
  · rintro h rfl
    exact ⟨0, books_new 0 initialPN validated pers rnd⟩
  · rintro h c h' ⟨n, b⟩ ⟨hearly, hstep⟩
    obtain ⟨e', b', he⟩ := (call_books b c).of_eq_ok (toOption_eq_some_iff.mp hstep)
    rw [he hearly rfl] at b'
    exact ⟨_, b'⟩

theorem run_accounts (hrun : ((machine initialPN validated pers rnd).guard RetriesEarly).Run tr h) :
    Accounts 0 h := by
  obtain ⟨n, b⟩ := run_books hrun
  exact b.accounts

/-- **The bytes in flight are exact.**  After any calls that returned without an
error, with a Retry only before the first Handshake packet, `bytesInFlight` is the sum
of the lengths of the tracked packets that are included in it, and no next call panics
on a negative count of bytes or of outstanding packets. -/
theorem bytesInFlight_exact
    (hrun : ((machine initialPN validated pers rnd).guard RetriesEarly).Run tr h) :
    h.bytesInFlight = ((h.tracked.filter (·.includedInBytesInFlight)).map (·.length)).sum ∧
      ∀ c, h.call c ≠ .error .negativeBytesInFlight ∧ h.call c ≠ .error .negativeOutstanding := by
  obtain ⟨n, b⟩ := run_books hrun
  refine ⟨?_, fun c => ⟨fun herr => ?_, fun herr => ?_⟩⟩
  · rw [← bytesOf_eq_sum_filter, bytesOf_tracked b.accounts]
    have := b.accounts.balance
    omega
  · exact ((call_books b c).of_eq_error herr (Int.le_refl 0)).1 rfl
  · exact ((call_books b c).of_eq_error herr (Int.le_refl 0)).2 rfl

/-- Two Initial packets of a client, the second acknowledged. -/
def twoInitials : List Call :=
  let sent (pn : Nat) : Sent :=
    ⟨1000000000, pn, invalidPacketNumber, [], [⟨pn, true⟩], .initial, 1200, false, false⟩
  let rtt : RTT := ⟨100000000, 300000000, 300000000⟩
  [.popPacketNumber .initial 0, .sentPacket (sent 0) rtt, .popPacketNumber .initial 0,
    .sentPacket (sent 1) rtt, .receivedAck ⟨[⟨1, 1⟩], 0, 0, 0, 0⟩ .initial 1050000000 rtt]

theorem bytesInFlight_exact_twoInitials :
    let h := (twoInitials.foldlM step (new 0 false .client 0)).getD (new 0 false .client 0)
    ((machine 0 false .client 0).guard RetriesEarly).Run twoInitials h ∧ h.bytesInFlight = 1200 ∧
      ((h.tracked.filter (·.includedInBytesInFlight)).map (·.length)).sum = 1200 := by
  intro h
  have hrun : ((machine 0 false .client 0).guard RetriesEarly).Run twoInitials h :=
    Machine.run_guard_iff.mpr (by decide)
  have hbytes : h.bytesInFlight = 1200 := by decide
  exact ⟨hrun, hbytes, (bytesInFlight_exact hrun).1.symm.trans hbytes⟩

/-- A Handshake packet, and then a Retry. -/
def lateRetry : List Call :=
  [.popPacketNumber .handshake 0,
    .sentPacket ⟨1000000000, 0, invalidPacketNumber, [], [⟨0, true⟩], .handshake,
      1200, false, false⟩
      ⟨100000000, 300000000, 300000000⟩, .resetForRetry 0]

/-- **A late Retry forgets the bytes of the Handshake packets**, which stay tracked; dropping
their keys is a panic then. -/
theorem bytesInFlight_lateRetry : ∃ h, (machine 0 false .client 0).Run lateRetry h ∧
    h.bytesInFlight = 0 ∧
      ((h.tracked.filter (·.includedInBytesInFlight)).map (·.length)).sum = 1200 ∧
      h.call (.dropPackets .handshake 1000000000 ⟨100000000, 300000000, 300000000⟩) =
        .error .negativeBytesInFlight :=
  ⟨(lateRetry.foldlM step (new 0 false .client 0)).getD (new 0 false .client 0),
    Machine.run_ofStep_iff.mpr (by decide), by decide, by decide, by decide⟩

/-- **No frame is settled twice.**  After any calls, the handlers were told about a frame at
most as often as it was handed to `SentPacket` with a handler; so if every frame that was
handed over is a different one, no frame was acknowledged twice, lost twice, or both. -/
theorem frames_settled_once (hrun : (machine initialPN validated pers rnd).Run tr h) :
    (∀ x, (h.callbacks.map FrameCallback.frame).count x ≤ (tr.flatMap handedOver).count x) ∧
      ((tr.flatMap handedOver).Nodup → (h.callbacks.map FrameCallback.frame).Nodup) := by
  have hle : ∀ x, (h.callbacks.map FrameCallback.frame).count x ≤
      (tr.flatMap handedOver).count x := by
    intro x
    have hb := (run_ledger x hrun).balance
    rw [settled] at hb
    omega
  refine ⟨hle, fun hnodup => nodup_iff_count_le_one.mpr fun x => ?_⟩
  exact (hle x).trans (nodup_iff_count_le_one.mp hnodup x)

/-- The second of two Initial packets is acknowledged; the first is sent again in a probe
packet. -/
theorem frames_settled_once_twoInitials :
    let calls := twoInitials ++ [.queueProbePacket .initial]
    let h := (calls.foldlM step (new 0 false .client 0)).getD (new 0 false .client 0)
    (machine 0 false .client 0).Run calls h ∧ h.callbacks = [.onAcked 1, .onLost 0] ∧
      (h.callbacks.map FrameCallback.frame).Nodup := by
  intro calls h
  have hrun : (machine 0 false .client 0).Run calls h := Machine.run_ofStep_iff.mpr (by decide)
  exact ⟨hrun, by decide, (frames_settled_once hrun).2 (by decide)⟩

end SentPacketHandler

end UQuic.AckHandler
