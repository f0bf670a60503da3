/-
# `UQuic.AckHandler.FrameSettlement` — the frames that a sent packet handler settles

A frame is handed to `SentPacket` with a handler.  The handler is told that the frame was
acknowledged or that it was lost, and if it is told twice, data is sent twice and the stream
counts its outstanding frames below zero.

The frames of a packet are in one of two places, the entries of a history or its list of path
probes.  They are settled where the packet leaves that place:

    before it leaves     QueueProbePacket, acknowledged packets, ResetForRetry
    after it left        lost packets, acknowledged path probes, MigratedPath
    never                dropped keys, rejected 0-RTT, path probes after a migration

`Ledger x n h` bounds by `n` how often the frame `x` was settled and is still carried.  Taking a
packet out lowers `n` by what the packet carries, a callback raises it again
(`Ledger.callbacks`), whichever comes first.
-/
import UQuic.AckHandler.Trimming

namespace UQuic.AckHandler

open List Except SentPacketHistory
open UQuic.Wire (AckRange AckFrame)

def FrameCallback.frame : FrameCallback → Nat
  | .onAcked frame => frame
  | .onLost frame => frame

namespace SentPacketHandler

/-! ## What the packets carry -/

/-- How often a packet carries a frame that is to be settled. -/
def carried (x : Nat) (p : Packet) : Nat := (handled p).count x

def carriedBy (x : Nat) (ps : List Packet) : Nat := (ps.map (carried x)).sum

/-- How often the entries and the path probes of a history do. -/
def historyCarried (x : Nat) (history : SentPacketHistory) : Nat :=
  SentPacketHistory.total (carried x) history.packets + carriedBy x history.pathProbePackets

/-- The same for a space that may have been dropped. -/
def spaceCarried (x : Nat) : Option PacketNumberSpace → Nat
  | none => 0
  | some s => historyCarried x s.history

/-- How often the tracked packets carry a frame. -/
def live (x : Nat) (h : SentPacketHandler) : Nat :=
  spaceCarried x h.initialPackets + spaceCarried x h.handshakePackets +
    historyCarried x h.appDataPackets.history

/-- How often the handler of a frame was called. -/
def settled (x : Nat) (h : SentPacketHandler) : Nat := (h.callbacks.map FrameCallback.frame).count x

@[simp] theorem carriedBy_nil {x : Nat} : carriedBy x [] = 0 := rfl

variable {ps : List Packet}

@[simp] theorem carriedBy_cons {x : Nat} {p : Packet} :
    carriedBy x (p :: ps) = carried x p + carriedBy x ps := rfl

variable {qs : List Packet}

@[simp] theorem carriedBy_append {x : Nat} :
    carriedBy x (ps ++ qs) = carriedBy x ps + carriedBy x qs := by
  simp only [carriedBy, map_append, sum_append]

theorem carriedBy_sublist {x : Nat} (h : ps.Sublist qs) : carriedBy x ps ≤ carriedBy x qs := by
  induction h with
  | slnil => exact le_rfl
  | cons p _ ih => exact ih.trans (Nat.le_add_left _ _)
  | cons_cons p _ ih => exact Nat.add_le_add_left ih _

/-- The first packet with a number is taken out, with what it carries. -/
theorem carriedBy_eraseP {x : Nat} {f : Packet → Bool} : ∀ {ps : List Packet} {p : Packet},
    ps.find? f = some p → carriedBy x (ps.eraseP f) + carried x p = carriedBy x ps
  | [], _, h => by cases h
  | q :: ps, p, h => by
    by_cases hq : f q = true
    · rw [List.find?_cons_of_pos hq] at h
      cases h
      rw [eraseP_cons_of_pos hq, carriedBy_cons, Nat.add_comm]
    · rw [List.find?_cons_of_neg hq] at h
      rw [eraseP_cons_of_neg hq, carriedBy_cons, carriedBy_cons, ← carriedBy_eraseP h,
        Nat.add_assoc]

/-! ## Histories -/

/-- Skipped numbers and the entries that stand for path probes carry nothing, and path probes
have numbers of their own. -/
structure Sound (history : SentPacketHistory) : Prop where
  wf : history.WF
  bare : ∀ p ∈ history.entries, p.skippedPacket = true ∨ p.isPathProbePacket = true →
    handled p = []
  flagged : ∀ p ∈ history.pathProbePackets, p.isPathProbePacket = true
  ascending : history.pathProbePackets.Pairwise fun p q => p.packetNumber < q.packetNumber
  sent : ∀ p ∈ history.pathProbePackets,
    0 ≤ p.packetNumber ∧ p.packetNumber ≤ history.highestPacketNumber

theorem sound_new : Sound .new where
  wf := wf_new
  bare _ hp := absurd hp not_mem_nil
  flagged _ hp := absurd hp not_mem_nil
  ascending := List.Pairwise.nil
  sent _ hp := absurd hp not_mem_nil

section History

variable {x : Nat} {history history' : SentPacketHistory} {p : Packet} {pn : Int}
  {rest : List Packet}

theorem Sound.withProbes (sd : Sound history) {probes : List Packet}
    (hsub : probes.Sublist history.pathProbePackets) :
    Sound { history with pathProbePackets := probes } :=
  ⟨sd.wf.withProbes fun _ hp => hsub.subset hp, sd.bare, fun p hp => sd.flagged p (hsub.subset hp),
    sd.ascending.sublist hsub, fun p hp => sd.sent p (hsub.subset hp)⟩

theorem Sound.removePathProbe (sd : Sound history) (pn : Int) :
    Sound (history.removePathProbe pn).1 :=
  sd.withProbes eraseP_sublist

theorem Sound.removes (sd : Sound history) (hr : history.Removes p history')
    (hhigh : history'.highestPacketNumber = history.highestPacketNumber) :
    Sound history' ∧ historyCarried x history' + carried x p = historyCarried x history := by
  refine ⟨⟨hr.wf, fun q hq => sd.bare q (hr.sub q hq), ?_, ?_, ?_⟩, ?_⟩
  · rw [hr.probes]
    exact sd.flagged
  · rw [hr.probes]
    exact sd.ascending
  · rw [hr.probes, hhigh]
    exact sd.sent
  · have hbare : ∀ q ∈ history.entries, q.skippedPacket = true → carried x q = 0 := by
      intro q hq hskip
      rw [carried, sd.bare q hq (.inl hskip), count_nil]
    have hsum := hr.sum (carried x) hbare
    rw [historyCarried, historyCarried, hr.probes]
    omega

/-- A number that is used in sequence is larger than those before. -/
theorem checkSequential_eq_ok (h : history.checkSequentialPacketNumberUse pn = .ok history')
    (sd : Sound history) (hpn : 0 ≤ pn) : history' = { history with highestPacketNumber := pn } ∧
      history.highestPacketNumber ≤ pn ∧
      ∀ p ∈ history.pathProbePackets, p.packetNumber < pn := by
  simp only [SentPacketHistory.checkSequentialPacketNumberUse] at h
  split_ifs at h with hseq
  cases h
  simp only [invalidPacketNumber] at hseq
  refine ⟨rfl, by omega, fun p hp => ?_⟩
  have hsent := sd.sent p hp
  omega

theorem Sound.push (sd : Sound history) {y : Option Packet} {n : Int}
    (wf : SentPacketHistory.WF ⟨history.packets ++ [y], history.pathProbePackets, n, pn⟩)
    (hy : ∀ p, y = some p → p.skippedPacket = true ∨ p.isPathProbePacket = true → handled p = [])
    (hle : history.highestPacketNumber ≤ pn) :
    Sound ⟨history.packets ++ [y], history.pathProbePackets, n, pn⟩ := by
  refine ⟨wf, fun p hp hplain => ?_, sd.flagged, sd.ascending, fun p hp => ?_⟩
  · rw [SentPacketHistory.entries, entriesOf_append, mem_append] at hp
    rcases hp with hp | hp
    · exact sd.bare p hp hplain
    · cases y with
      | none => cases hp
      | some q => exact hy p (congrArg some (mem_singleton.mp hp).symm) hplain
  · have hsent := sd.sent p hp
    exact ⟨hsent.1, hsent.2.trans hle⟩

/-- What using a number does to the two sums. -/
def Adds (x : Nat) (history : SentPacketHistory) (frames bytes : Nat)
    (history' : SentPacketHistory) : Prop :=
  Sound history' ∧ historyCarried x history' = historyCarried x history + frames ∧
    history'.inFlight = history.inFlight + bytes

theorem skippedPacket_adds (sd : Sound history) (hpn : 0 ≤ pn) :
    (history.skippedPacket pn).Meets (Adds x history 0 0) Failure.CountersHold := by
  refine (skippedPacket_meets sd.wf hpn).mono_eq ?_
  rintro history' h ⟨hwf, hbytes⟩
  obtain ⟨h₁, hseq, rfl⟩ := map_eq_ok_iff.mp h
  obtain ⟨rfl, hle, -⟩ := checkSequential_eq_ok hseq sd hpn
  refine ⟨sd.push hwf ?_ hle, ?_, hbytes⟩
  · rintro p ⟨⟩ -
    rfl
  · simp only [historyCarried, SentPacketHistory.push, total_append]
    rfl

theorem sentNonAckElicitingPacket_adds (sd : Sound history) (hpn : 0 ≤ pn) :
    (history.sentNonAckElicitingPacket pn).Meets (Adds x history 0 0) Failure.CountersHold := by
  refine (sentNonAckElicitingPacket_meets sd.wf hpn).mono_eq ?_
  rintro history' h ⟨hwf, hbytes⟩
  obtain ⟨h₁, hseq, rfl⟩ := map_eq_ok_iff.mp h
  obtain ⟨rfl, hle, -⟩ := checkSequential_eq_ok hseq sd hpn
  dsimp only at hwf hbytes ⊢
  split_ifs at hwf hbytes ⊢ with hnil
  · refine ⟨{ sd with wf := hwf, sent := fun p hp => ?_ }, rfl, hbytes⟩
    exact ⟨(sd.sent p hp).1, Int.le_trans (sd.sent p hp).2 hle⟩
  · refine ⟨sd.push hwf (fun _ hy => absurd hy.symm (Option.some_ne_none _)) hle, ?_, hbytes⟩
    simp only [historyCarried, SentPacketHistory.push, total_append]
    rfl

theorem sentAckElicitingPacket_adds (sd : Sound history) (hpn : 0 ≤ p.packetNumber)
    (hp : p.skippedPacket = false ∧ p.isPathProbePacket = false) :
    (history.sentAckElicitingPacket p).Meets (Adds x history (carried x p) p.inFlight)
      Failure.CountersHold := by
  refine (sentAckElicitingPacket_meets sd.wf hpn hp).mono_eq ?_
  rintro history' h ⟨hwf, hbytes⟩
  obtain ⟨h₁, hseq, rfl⟩ := map_eq_ok_iff.mp h
  obtain ⟨rfl, hle, -⟩ := checkSequential_eq_ok hseq sd hpn
  refine ⟨sd.push hwf ?_ hle, ?_, hbytes⟩
  · rintro q ⟨⟩ hplain
    rw [hp.1, hp.2] at hplain
    simp at hplain
  · simp only [historyCarried, SentPacketHistory.push, total_append, total_cons_some, total_nil]
    omega

/-- A path probe goes to its own list; the entry in its place carries nothing. -/
theorem sentPathProbePacket_adds (sd : Sound history) (hpn : 0 ≤ p.packetNumber)
    (hp : p.includedInBytesInFlight = false ∧ p.isPathProbePacket = true) :
    (history.sentPathProbePacket p).Meets (Adds x history (carried x p) 0)
      Failure.CountersHold := by
  refine (sentPathProbePacket_meets sd.wf hpn hp.1).mono_eq ?_
  rintro history' h ⟨hwf, hbytes⟩
  obtain ⟨h₁, hseq, rfl⟩ := map_eq_ok_iff.mp h
  obtain ⟨rfl, hle, hlt⟩ := checkSequential_eq_ok hseq sd hpn
  have hentry : ∀ q, some { Packet.zero p.packetNumber with isPathProbePacket := true } = some q →
      q.skippedPacket = true ∨ q.isPathProbePacket = true → handled q = [] := by
    rintro q ⟨⟩ -
    rfl
  have hpush := sd.push (hwf.withProbes fun q hq => mem_append_left _ hq) hentry hle
  refine ⟨⟨hwf, hpush.bare, ?_, ?_, ?_⟩, ?_, hbytes⟩
  · exact forall_mem_append.mpr ⟨sd.flagged, forall_mem_singleton.mpr hp.2⟩
  · refine pairwise_append.mpr ⟨sd.ascending, pairwise_singleton _ _, fun q hq r hr => ?_⟩
    rw [mem_singleton.mp hr]
    exact hlt q hq
  · exact forall_mem_append.mpr
      ⟨hpush.sent, forall_mem_singleton.mpr ⟨hpn, le_rfl⟩⟩
  · simp only [historyCarried, SentPacketHistory.push, total_append,
      carriedBy_append, carriedBy_cons, carriedBy_nil]
    show _ + 0 + (_ + (_ + 0)) = _
    omega

/-! ### Entries that leave -/

/-- An operation of the history that takes the entry with a number out. -/
def TakesOut (f : SentPacketHistory → Int → Except Failure SentPacketHistory) : Prop :=
  ∀ {history : SentPacketHistory} {p : Packet}, history.WF → p ∈ history.entries →
    ∃ history', f history p.packetNumber = .ok history' ∧ history.Removes p history' ∧
      history'.highestPacketNumber = history.highestPacketNumber

theorem takesOut_remove : TakesOut SentPacketHistory.remove := by
  intro history p wf hp
  obtain ⟨history', hok, hr⟩ := remove_ok wf hp
  exact ⟨history', hok, hr, ((history.remove_trims _).of_eq_ok hok).highest⟩

theorem takesOut_declareLost : TakesOut SentPacketHistory.declareLost := by
  intro history p wf hp
  obtain ⟨history', hok, hr⟩ := declareLost_ok wf hp
  exact ⟨history', hok, hr, ((history.declareLost_trims _).of_eq_ok hok).highest⟩

/-- The packets a loop has yet to visit: an entry stands for each of them, the packet itself
or, for a path probe, the one in its place. -/
structure Standing (rest : List Packet) (history : SentPacketHistory) : Prop where
  ascending : rest.Pairwise fun p q => p.packetNumber < q.packetNumber
  entry : ∀ p ∈ rest, ∃ e ∈ history.entries,
    e.packetNumber = p.packetNumber ∧ (p.isPathProbePacket = false → e = p)

theorem standing_entries (wf : history.WF) : Standing history.entries history :=
  ⟨ascending_of_numbered wf.numbered, fun p hp => ⟨p, hp, rfl, fun _ => rfl⟩⟩

theorem Standing.sublist {rest rest' : List Packet} (hstanding : Standing rest history)
    (hsub : rest'.Sublist rest) : Standing rest' history :=
  ⟨hstanding.ascending.sublist hsub, fun p hp => hstanding.entry p (hsub.subset hp)⟩

/-- Taking the first one out leaves the others. -/
theorem Standing.removes {e : Packet} (hstanding : Standing (p :: rest) history)
    (he : e.packetNumber = p.packetNumber) (hr : history.Removes e history') :
    Standing rest history' :=
  ⟨List.Pairwise.of_cons hstanding.ascending,
    entry_removes hstanding.ascending hstanding.entry he hr⟩

/-- A path probe takes the place of its entry. -/
theorem Standing.replace {acked : List Packet} {q : Packet}
    (hstanding : Standing (acked ++ p :: rest) history) (hnum : q.packetNumber = p.packetNumber)
    (hq : q.isPathProbePacket = true) : Standing (acked ++ [q] ++ rest) history := by
  refine ⟨ascending_replace hnum hstanding.ascending, forall_replace ?_ hstanding.entry⟩
  rintro ⟨e, he, hen, -⟩
  refine ⟨e, he, hen.trans hnum.symm, fun hfalse => ?_⟩
  rw [hq] at hfalse
  cases hfalse

/-- What the entry of a packet carries. -/
def own (x : Nat) (p : Packet) : Nat := if p.isPathProbePacket then 0 else carried x p

/-- What a path probe carries, which its entry does not. -/
def owed (x : Nat) (p : Packet) : Nat := if p.isPathProbePacket then carried x p else 0

theorem own_add_owed (x : Nat) (p : Packet) : own x p + owed x p = carried x p := by
  rw [own, owed]
  split
  · exact Nat.zero_add _
  · exact Nat.add_zero _

theorem own_le (hstanding : Standing (p :: rest) history) :
    ∃ e ∈ history.entries, e.packetNumber = p.packetNumber ∧ own x p ≤ carried x e := by
  obtain ⟨e, he, hnum, hsame⟩ := hstanding.entry p mem_cons_self
  refine ⟨e, he, hnum, ?_⟩
  rw [own]
  split_ifs with hprobe
  · exact Nat.zero_le _
  · exact Nat.le_of_eq (congrArg (carried x) (hsame (Bool.eq_false_iff.mpr hprobe)).symm)

end History

/-! ## The ledger -/

/-- All histories are sound, and a frame was settled and is carried `n` times at most. -/
structure Ledger (x : Nat) (n : Int) (h : SentPacketHandler) : Prop where
  sound : ∀ encLevel s, h.space encLevel = some s → Sound s.history
  balance : ((settled x h + live x h : Nat) : Int) ≤ n

/-- Every error is permitted: nothing is claimed of a call that fails. -/
def AnyFailure (_ : Failure) : Prop := True

section Ledger

variable {x : Nat} {n m : Int} {h : SentPacketHandler} {encLevel : EncryptionLevel}
  {s s' : PacketNumberSpace} {p : Packet} {rest : List Packet} {history : SentPacketHistory}

theorem Ledger.mono (lg : Ledger x n h) (hle : n ≤ m) : Ledger x m h :=
  ⟨lg.sound, lg.balance.trans hle⟩

/-- The packets of `rest` are standing in a space of the handler. -/
def Stands (encLevel : EncryptionLevel) (rest : List Packet) (h : SentPacketHandler) : Prop :=
  ∃ s, h.space encLevel = some s ∧ Standing rest s.history

/-! ### Callbacks -/

theorem Ledger.callbacks (lg : Ledger x n h) {cs : List FrameCallback}
    (hle : n + ((cs.map FrameCallback.frame).count x : Nat) ≤ m) :
    Ledger x m { h with callbacks := h.callbacks ++ cs } := by
  refine ⟨lg.sound, ?_⟩
  have hb := lg.balance
  have hsettled : settled x { h with callbacks := h.callbacks ++ cs } =
      settled x h + (cs.map FrameCallback.frame).count x := by
    simp only [settled, map_append, count_append]
  have hlive : live x { h with callbacks := h.callbacks ++ cs } = live x h := rfl
  rw [hsettled, hlive]
  omega

theorem map_frame_onLost (l : List Nat) :
    (l.map FrameCallback.onLost).map FrameCallback.frame = l := by
  rw [map_map]
  exact map_id l

theorem map_frame_onAcked (l : List Nat) :
    (l.map FrameCallback.onAcked).map FrameCallback.frame = l := by
  rw [map_map]
  exact map_id l

/-! ### Path probes -/

def probes (h : SentPacketHandler) : List Packet := h.appDataPackets.history.pathProbePackets

/-- Among numbers that ascend, a packet is found by its own. -/
theorem find?_packetNumber {p : Packet}
    (hasc : ps.Pairwise fun p q => p.packetNumber < q.packetNumber) (hp : p ∈ ps) :
    ps.find? (fun q => decide (q.packetNumber = p.packetNumber)) = some p := by
  induction ps with
  | nil => exact absurd hp not_mem_nil
  | cons q ps ih =>
    rcases mem_cons.mp hp with rfl | hp
    · exact List.find?_cons_of_pos (decide_eq_true rfl)
    · have hlt := rel_of_pairwise_cons hasc hp
      rw [List.find?_cons_of_neg]
      · exact ih (List.Pairwise.of_cons hasc) hp
      · intro heq
        have heq := of_decide_eq_true heq
        omega

/-! ### Acknowledgements -/

/-- What the path probes of a list carry. -/
def owedBy (x : Nat) (ps : List Packet) : Nat := (ps.map (owed x)).sum

@[simp] theorem owedBy_cons : owedBy x (p :: rest) = owed x p + owedBy x rest := rfl

@[simp] theorem owedBy_append : owedBy x (ps ++ qs) = owedBy x ps + owedBy x qs := by
  simp only [owedBy, map_append, sum_append]

end Ledger

end SentPacketHandler

end UQuic.AckHandler
