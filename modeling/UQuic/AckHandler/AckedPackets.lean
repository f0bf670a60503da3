/-
# `UQuic.AckHandler.AckedPackets` — an ACK takes out exactly what it acknowledges

`detectAndRemoveAckedPackets` walks the tracked packets upwards and the ranges of the ACK
from the last one, which is the lowest, with a cursor that never goes back.  What it
collects it then removes from the list it walked.

    entry in the history                   the number lies in a range
    ------------------------------------   ------------------------------------------
    a packet                               collected and removed
    a skipped number                       an error
    the placeholder of a path probe        the probe is collected and removed, and with
                                           it the placeholder; unless it was lost before

## What is proved

`acked_exact`: for every history that a handler reaches and every ACK with valid ranges,
the call returns exactly these packets in ascending order, and leaves exactly the others;
or it returns the error about a skipped number, and no other one.  `AcksPacket`, which
finds a range by binary search, is true exactly of the numbers in the ranges.
-/
import UQuic.AckHandler.Books

/-! ## Ranges -/

namespace UQuic.Wire

open List

def InRanges (ranges : List AckRange) (pn : Int) : Prop :=
  ∃ r ∈ ranges, r.smallest ≤ pn ∧ pn ≤ r.largest

instance (ranges : List AckRange) (pn : Int) : Decidable (InRanges ranges pn) :=
  List.decidableBEx ..

/-- Ranges that are not inverted, the lowest first. -/
structure Rising (ranges : List AckRange) : Prop where
  ordered : ∀ r ∈ ranges, r.smallest ≤ r.largest
  apart : ranges.Pairwise fun a b => a.largest < b.smallest

variable {r : AckRange} {ranges : List AckRange}

theorem Rising.tail (h : Rising (r :: ranges)) : Rising ranges :=
  ⟨fun r' hr' => h.ordered r' (mem_cons_of_mem r hr'), (pairwise_cons.mp h.apart).2⟩

theorem Rising.suffix {ranges' : List AckRange} (h : Rising ranges)
    (hs : ranges' <:+ ranges) : Rising ranges' :=
  ⟨fun r hr => h.ordered r (hs.subset hr), h.apart.sublist hs.sublist⟩

variable {pn : Int}

/-- Below the first range there is nothing. -/
theorem Rising.not_inRanges (h : Rising (r :: ranges))
    (hlt : pn < r.smallest) : ¬InRanges (r :: ranges) pn := by
  rintro ⟨r', hr', hle, -⟩
  rcases mem_cons.mp hr' with rfl | hr'
  · omega
  · have hbefore := (pairwise_cons.mp h.apart).1 r' hr'
    have hr := h.ordered r mem_cons_self
    omega

namespace AckFrame

variable {f : AckFrame}

instance (f : AckFrame) (pn : Int) : Decidable (f.Acks pn) :=
  inferInstanceAs (Decidable (InRanges f.ackRanges pn))

theorem Valid.rising (h : f.Valid) : Rising f.ackRanges.reverse := by
  refine ⟨fun r hr => h.ordered r (mem_reverse.mp hr), pairwise_reverse.mpr ?_⟩
  refine h.descending.imp fun hlt => ?_
  omega

theorem inRanges_reverse : InRanges f.ackRanges.reverse pn ↔ f.Acks pn := by
  rw [InRanges, Acks]
  simp only [mem_reverse]

/-- The ranges lie between the lowest and the largest number. -/
theorem Valid.bounds (h : f.Valid) {lowest largest : Int} (hlow : f.lowestAcked = some lowest)
    (hlarge : f.largestAcked = some largest) (hpn : f.Acks pn) : lowest ≤ pn ∧ pn ≤ largest := by
  obtain ⟨r, hr, hsmall, hbig⟩ := hpn
  have hlow' : (f.ackRanges.getLast h.nonempty).smallest = lowest :=
    Option.some.inj ((lowestAcked_eq h.nonempty).symm.trans hlow)
  constructor
  · rcases eq_or_ne r (f.ackRanges.getLast h.nonempty) with heq | hne
    · rw [heq, hlow'] at hsmall
      exact hsmall
    · have hsplit := dropLast_append_getLast h.nonempty
      rw [← hsplit] at hr
      have hr' : r ∈ f.ackRanges.dropLast := by
        rcases mem_append.mp hr with hr | hr
        · exact hr
        · exact absurd (mem_singleton.mp hr) hne
      have hpair := h.descending
      rw [← hsplit] at hpair
      have hlt := (pairwise_append.mp hpair).2.2 r hr' _ (mem_singleton_self _)
      have hord := h.ordered _ (getLast_mem h.nonempty)
      omega
  · rw [largestAcked] at hlarge
    cases hranges : f.ackRanges with
    | nil => exact absurd hranges h.nonempty
    | cons first rest =>
      rw [hranges] at hlarge hr
      cases hlarge
      rcases mem_cons.mp hr with rfl | hr
      · exact hbig
      · have hpair := h.descending
        rw [hranges] at hpair
        have hlt := (pairwise_cons.mp hpair).1 r hr
        have hord := h.ordered first (by rw [hranges]; exact mem_cons_self)
        show pn ≤ first.largest
        omega

/-- The search finds the first range that starts at or below a number. -/
theorem Valid.searchRange_le_iff (h : f.Valid) {k : Nat}
    (hk : f.ackRanges[k]? = some r) : f.searchRange pn ≤ k ↔ r.smallest ≤ pn := by
  have hlt := (List.getElem?_eq_some_iff.mp hk).1
  rw [searchRange, Search.search_le_iff ?_ hlt, hk]
  · exact decide_eq_true_iff
  · intro i j hij hj hi
    obtain ⟨a, ha, hle⟩ := (Option.any_eq_true _ _).mp hi
    rw [List.getElem?_eq_getElem hj]
    rcases Nat.eq_or_lt_of_le hij with rfl | hij
    · rw [List.getElem?_eq_getElem hj] at ha
      cases ha
      exact hle
    · obtain ⟨hilt, rfl⟩ := List.getElem?_eq_some_iff.mp ha
      have hdesc := pairwise_iff_getElem.mp h.descending i j hilt hj hij
      have hord := h.ordered _ (getElem_mem hj)
      have hsmall := of_decide_eq_true hle
      exact decide_eq_true (by omega)

/-- **`AcksPacket` is true exactly of the numbers in the ranges.** -/
theorem Valid.acksPacket_eq (h : f.Valid) (pn : Int) :
    f.acksPacket pn = some (decide (f.Acks pn)) := by
  obtain ⟨largest, hlarge⟩ := largestAcked_isSome h.nonempty
  have hlow := lowestAcked_eq h.nonempty
  by_cases hout : pn < (f.ackRanges.getLast h.nonempty).smallest ∨ largest < pn
  · have hnot : ¬f.Acks pn := fun hacks => by
      have hb := h.bounds hlow hlarge hacks
      omega
    simp [acksPacket, hlow, hlarge, hout, hnot]
  · have hlast : f.ackRanges[f.ackRanges.length - 1]? = some (f.ackRanges.getLast h.nonempty) := by
      rw [← List.getLast?_eq_getElem?, List.getLast?_eq_some_getLast h.nonempty]
    have hpos := length_pos_iff.mpr h.nonempty
    have hle := (h.searchRange_le_iff hlast).mpr (show _ ≤ pn by omega)
    have hlt : f.searchRange pn < f.ackRanges.length := by omega
    have hr := List.getElem?_eq_getElem hlt
    have hacks : pn ≤ f.ackRanges[f.searchRange pn].largest ↔ f.Acks pn := by
      constructor
      · intro hbig
        exact ⟨_, getElem_mem hlt, (h.searchRange_le_iff hr).mp le_rfl, hbig⟩
      · rintro ⟨r, hmem, hsmall, hbig⟩
        obtain ⟨k, hk, rfl⟩ := getElem_of_mem hmem
        have hle' := (h.searchRange_le_iff (List.getElem?_eq_getElem hk)).mpr hsmall
        rcases Nat.eq_or_lt_of_le hle' with heq | hlt'
        · subst heq
          exact hbig
        · -- a range further down lies below the one that was found
          have hdesc := pairwise_iff_getElem.mp h.descending _ k hlt hk hlt'
          have hstart := (h.searchRange_le_iff hr).mp le_rfl
          omega
    simp [acksPacket, hlow, hlarge, hout, hr, hacks]

end AckFrame

end UQuic.Wire

namespace UQuic.AckHandler.SentPacketHandler

open List Except Bool SentPacketHistory
open UQuic.Wire (AckRange AckFrame InRanges Rising)

/-! ## The cursor -/

/-- The cursor stops at the first range that does not end below the number, or at the last one. -/
theorem advanceRange_spec (pn : Int) : ∀ {ranges : List AckRange}, ranges ≠ [] → Rising ranges →
    ∃ r rest, advanceRange pn ranges = r :: rest ∧ (r :: rest) <:+ ranges ∧
      (∀ m, pn ≤ m → (InRanges ranges m ↔ InRanges (r :: rest) m)) ∧
      (pn ≤ r.largest ∨ rest = []) := by
  intro ranges
  induction ranges with
  | nil =>
    intro hne _
    exact absurd rfl hne
  | cons r ranges ih =>
    intro _ hrising
    cases ranges with
    | nil => exact ⟨r, [], rfl, suffix_refl _, fun _ _ => Iff.rfl, .inr rfl⟩
    | cons r' rest =>
      rw [advanceRange]
      split_ifs with hlt
      · obtain ⟨x, xs, heq, hsuffix, hsame, hor⟩ := ih nofun hrising.tail
        refine ⟨x, xs, heq, hsuffix.trans (suffix_cons r _), fun m hm => ?_, hor⟩
        rw [← hsame m hm, InRanges, InRanges, exists_mem_cons_iff]
        refine or_iff_right ?_
        omega
      · exact ⟨r, r' :: rest, rfl, suffix_refl _, fun _ _ => Iff.rfl, .inl (by omega)⟩

/-- The ranges from the cursor on: the last one is that of the ACK. -/
structure Cursor (ack : AckFrame) (lowestAcked largestAcked : Int) (ranges : List AckRange) :
    Prop where
  nonempty : ranges ≠ []
  rising : Rising ranges
  last : (ranges.getLast nonempty).largest = largestAcked
  single : ack.hasMissingRanges = false → ∃ r, ranges = [r] ∧ r.smallest = lowestAcked

variable {lowestAcked largestAcked : Int}

theorem cursor_reverse {ack : AckFrame} (hvalid : ack.Valid)
    (hlow : ack.lowestAcked = some lowestAcked) (hlarge : ack.largestAcked = some largestAcked) :
    Cursor ack lowestAcked largestAcked ack.ackRanges.reverse := by
  have hne : ack.ackRanges.reverse ≠ [] := reverse_ne_nil_iff.mpr hvalid.nonempty
  refine ⟨hne, hvalid.rising, ?_, fun hone => ?_⟩
  · rw [getLast_reverse]
    rw [AckFrame.largestAcked, List.head?_eq_some_head hvalid.nonempty] at hlarge
    exact Option.some.inj hlarge
  · have hlen : ¬1 < ack.ackRanges.length := of_decide_eq_false hone
    rw [AckFrame.lowestAcked] at hlow
    cases hranges : ack.ackRanges with
    | nil => exact absurd hranges hvalid.nonempty
    | cons r rest =>
      rw [hranges, length_cons] at hlen
      have hrest : rest = [] := eq_nil_of_length_eq_zero (by omega)
      subst hrest
      rw [hranges] at hlow
      exact ⟨r, rfl, Option.some.inj hlow⟩

/-- Asking for a number between the lowest and the largest: the answer is right, and the ranges that
are left are enough for larger numbers. -/
theorem Cursor.inRange_eq {ack : AckFrame} {pn : Int}
    {ranges : List AckRange} (hc : Cursor ack lowestAcked largestAcked ranges)
    (hlow : lowestAcked ≤ pn) (hlarge : pn ≤ largestAcked) :
    ∃ ranges', inRange ack pn ranges = .ok (ranges', decide (InRanges ranges pn)) ∧
      Cursor ack lowestAcked largestAcked ranges' ∧
      ∀ m, pn ≤ m → (InRanges ranges m ↔ InRanges ranges' m) := by
  rw [inRange]
  cases hmiss : ack.hasMissingRanges with
  | false =>
    obtain ⟨r, rfl, hr⟩ := hc.single hmiss
    have hlast : r.largest = largestAcked := hc.last
    have hin : InRanges [r] pn := ⟨r, mem_singleton_self r, by omega, by omega⟩
    rw [if_neg Bool.false_ne_true, decide_eq_true hin]
    exact ⟨[r], rfl, hc, fun _ _ => Iff.rfl⟩
  | true =>
    obtain ⟨r, rest, heq, hsuffix, hsame, hor⟩ := advanceRange_spec pn hc.nonempty hc.rising
    have hrising := hc.rising.suffix hsuffix
    have hlast : ((r :: rest).getLast (cons_ne_nil r rest)).largest = largestAcked := by
      rw [← hc.last, hsuffix.getLast]
    have hc' : Cursor ack lowestAcked largestAcked (r :: rest) :=
      ⟨by rintro ⟨⟩, hrising, hlast, fun hone => by rw [hmiss] at hone; cases hone⟩
    rw [if_pos rfl, heq]
    dsimp only
    split
    · rename_i hlt
      have hnot : ¬InRanges ranges pn := by
        rw [hsame pn le_rfl]
        exact hrising.not_inRanges hlt
      rw [decide_eq_false hnot]
      exact ⟨r :: rest, rfl, hc', hsame⟩
    · rename_i hge
      have hle : pn ≤ r.largest := by
        rcases hor with hle | rfl
        · exact hle
        · have hr : r.largest = largestAcked := hlast
          omega
      have hin : InRanges ranges pn := by
        rw [hsame pn le_rfl]
        exact ⟨r, mem_cons_self, by omega, hle⟩
      rw [if_neg (by omega), decide_eq_true hin]
      exact ⟨r :: rest, rfl, hc', hsame⟩

/-! ## Collecting -/

/-- What an entry contributes to the packets that an ACK acknowledges. -/
def pick (ack : AckFrame) (probes : List Packet) (p : Packet) : Option Packet :=
  if ack.Acks p.packetNumber then
    if p.isPathProbePacket then probes.find? (·.packetNumber = p.packetNumber) else some p
  else none

/-- The path probes that stay: those without a placeholder that is acknowledged. -/
def probesLeft (ack : AckFrame) (entries probes : List Packet) : List Packet :=
  probes.filter fun q => !entries.any fun p =>
    p.isPathProbePacket && decide (ack.Acks p.packetNumber) &&
      decide (p.packetNumber = q.packetNumber)

def Ascending (ps : List Packet) : Prop := ps.Pairwise fun p q => p.packetNumber < q.packetNumber

section Collect

variable {ack : AckFrame} {p q : Packet} {ps probes : List Packet} {pn : Int}

theorem pick_of_not (h : ¬ack.Acks p.packetNumber) : pick ack probes p = none := if_neg h

theorem pick_regular (h : ack.Acks p.packetNumber) (hp : p.isPathProbePacket = false) :
    pick ack probes p = some p := by
  rw [pick, if_pos h, hp, if_neg Bool.false_ne_true]

theorem pick_probe (h : ack.Acks p.packetNumber) (hp : p.isPathProbePacket = true) :
    pick ack probes p = probes.find? (·.packetNumber = p.packetNumber) := by
  rw [pick, if_pos h, if_pos hp]

theorem packetNumber_pick (h : pick ack probes p = some q) : q.packetNumber = p.packetNumber := by
  rw [pick] at h
  split at h
  · split at h
    · have hq := List.find?_some h
      exact of_decide_eq_true hq
    · cases h
      rfl
  · cases h

theorem eraseP_eq_filter (h : Ascending probes) (pn : Int) :
    (probes.eraseP fun q => q.packetNumber = pn) = probes.filter fun q =>
    !decide (q.packetNumber = pn) := by
  induction probes with
  | nil => rfl
  | cons q probes ih =>
    obtain ⟨hq, htail⟩ := pairwise_cons.mp h
    by_cases heq : q.packetNumber = pn
    · rw [eraseP_cons_of_pos (by simp [heq]), filter_cons_of_neg (by simp [heq])]
      refine (filter_eq_self.mpr fun r hr => ?_).symm
      have hlt := hq r hr
      simp only [not_eq_true', decide_eq_false_iff_not]
      omega
    · rw [eraseP_cons_of_neg (by simp [heq]), filter_cons_of_pos (by simp [heq]), ih htail]

/-- A probe that leaves does not stand in the way of others. -/
theorem pick_erase (h : Ascending probes) (hne : p.packetNumber ≠ pn) :
    pick ack (probes.eraseP fun q => q.packetNumber = pn) p = pick ack probes p := by
  have hfind : (probes.eraseP fun q => q.packetNumber = pn).find?
    (·.packetNumber = p.packetNumber) =
      probes.find? (·.packetNumber = p.packetNumber) := by
    rw [eraseP_eq_filter h, List.find?_filter]
    congr 1
    funext q
    by_cases heq : q.packetNumber = p.packetNumber
    · simp [heq, hne]
    · simp [heq]
  rw [pick, pick, hfind]

theorem probesLeft_nil : probesLeft ack [] probes = probes := by
  rw [probesLeft]
  exact filter_eq_self.mpr fun _ _ => rfl

theorem probesLeft_cons_of_not (h : ¬(p.isPathProbePacket = true ∧ ack.Acks p.packetNumber)) :
    probesLeft ack (p :: ps) probes = probesLeft ack ps probes := by
  rw [probesLeft, probesLeft]
  refine filter_congr fun q _ => ?_
  have hfalse : (p.isPathProbePacket && decide (ack.Acks p.packetNumber)) = false := by
    rw [eq_false_iff, ne_eq, and_eq_true, decide_eq_true_eq]
    exact h
  rw [any_cons, hfalse, Bool.false_and, Bool.false_or]

theorem probesLeft_cons (hprobes : Ascending probes) (hp : p.isPathProbePacket = true)
    (hacks : ack.Acks p.packetNumber) : probesLeft ack (p :: ps) probes =
      probesLeft ack ps (probes.eraseP fun q => q.packetNumber = p.packetNumber) := by
  rw [eraseP_eq_filter hprobes, probesLeft, probesLeft, filter_filter]
  refine filter_congr fun q _ => ?_
  rw [any_cons, hp, decide_eq_true hacks, Bool.and_self, Bool.true_and, Bool.not_or, Bool.and_comm]
  congr 2
  exact decide_eq_decide.mpr eq_comm

/-- How the first loop ends: at a skipped number that is acknowledged, or with what the entries
contribute. -/
def Collects (ack : AckFrame) (encLevel : EncryptionLevel) (ps : List Packet)
    (history : SentPacketHistory) (acked : List Packet)
    (x : Except Failure (SentPacketHistory × List Packet)) : Prop :=
  (∃ p ∈ ps, p.skippedPacket = true ∧ ack.Acks p.packetNumber ∧
    x = .error (.ackForSkipped p.packetNumber encLevel)) ∨
  (∀ p ∈ ps, p.skippedPacket = true → ¬ack.Acks p.packetNumber) ∧
    x = .ok ({ history with pathProbePackets := probesLeft ack ps history.pathProbePackets },
      acked ++ ps.filterMap (pick ack history.pathProbePackets))

variable {encLevel : EncryptionLevel} {history : SentPacketHistory} {acked : List Packet}
  {x : Except Failure (SentPacketHistory × List Packet)}

theorem Collects.skip (hnot : ¬ack.Acks p.packetNumber)
    (h : Collects ack encLevel ps history acked x) :
    Collects ack encLevel (p :: ps) history acked x := by
  rw [Collects, filterMap_cons_none (pick_of_not hnot), probesLeft_cons_of_not fun h => hnot h.2]
  rcases h with ⟨q, hq, hrest⟩ | ⟨hno, hok⟩
  · exact .inl ⟨q, mem_cons_of_mem p hq, hrest⟩
  · exact .inr ⟨forall_mem_cons.mpr ⟨fun _ => hnot, hno⟩, hok⟩

theorem collects_nil : Collects ack encLevel [] history acked (.ok (history, acked)) := by
  refine .inr ⟨forall_mem_nil _, ?_⟩
  rw [probesLeft_nil, filterMap_nil, append_nil]

theorem collects_none : ∀ {ps : List Packet}, (∀ p ∈ ps, ¬ack.Acks p.packetNumber) →
    Collects ack encLevel ps history acked (.ok (history, acked)) := by
  intro ps
  induction ps with
  | nil =>
    intro _
    exact collects_nil
  | cons p ps ih =>
    intro hnot
    obtain ⟨hp, hps⟩ := forall_mem_cons.mp hnot
    exact (ih hps).skip hp

theorem Collects.regular (hacks : ack.Acks p.packetNumber) (hskip : p.skippedPacket = false)
    (hp : p.isPathProbePacket = false) (h : Collects ack encLevel ps history (acked ++ [p]) x) :
    Collects ack encLevel (p :: ps) history acked x := by
  rw [Collects, filterMap_cons_some (pick_regular hacks hp),
    probesLeft_cons_of_not fun h => by rw [hp] at h; cases h.1]
  rcases h with ⟨q, hq, hrest⟩ | ⟨hno, hok⟩
  · exact .inl ⟨q, mem_cons_of_mem p hq, hrest⟩
  · refine .inr ⟨forall_mem_cons.mpr ⟨fun h => ?_, hno⟩, ?_⟩
    · rw [hskip] at h
      cases h
    · rw [hok, append_assoc]
      rfl

theorem Collects.probe (hprobes : Ascending history.pathProbePackets) (hps : Ascending (p :: ps))
    (hacks : ack.Acks p.packetNumber) (hskip : p.skippedPacket = false)
    (hp : p.isPathProbePacket = true)
    (h : Collects ack encLevel ps (history.removePathProbe p.packetNumber).1
      (acked ++ (history.removePathProbe p.packetNumber).2.toList) x) :
    Collects ack encLevel (p :: ps) history acked x := by
  have hsame : ps.filterMap (pick ack (history.removePathProbe p.packetNumber).1.pathProbePackets) =
      ps.filterMap (pick ack history.pathProbePackets) := by
    refine filterMap_congr fun q hq => pick_erase hprobes ?_
    have hlt := rel_of_pairwise_cons hps hq
    omega
  have hpick : (p :: ps).filterMap (pick ack history.pathProbePackets) =
      (history.removePathProbe p.packetNumber).2.toList ++
        ps.filterMap (pick ack history.pathProbePackets) := by
    have hfind : pick ack history.pathProbePackets p =
        history.pathProbePackets.find? (·.packetNumber = p.packetNumber) := pick_probe hacks hp
    rw [SentPacketHistory.removePathProbe, ← hfind]
    cases hone : pick ack history.pathProbePackets p with
    | none => rw [filterMap_cons_none hone]; rfl
    | some q => rw [filterMap_cons_some hone]; rfl
  rcases h with ⟨q, hq, hrest⟩ | ⟨hno, hok⟩
  · exact .inl ⟨q, mem_cons_of_mem p hq, hrest⟩
  · refine .inr ⟨forall_mem_cons.mpr ⟨fun h => ?_, hno⟩, ?_⟩
    · rw [hskip] at h
      cases h
    · rw [hok, hsame, hpick, append_assoc, probesLeft_cons hprobes hp hacks]
      rfl

/-- **The first loop.** -/
theorem collectAcked_collects (hbounds : ∀ pn, ack.Acks pn → lowestAcked ≤ pn ∧ pn ≤ largestAcked) :
    ∀ (ps : List Packet) (ranges : List AckRange) (history : SentPacketHistory)
    (acked : List Packet),
    Ascending ps → Ascending history.pathProbePackets → Cursor ack lowestAcked largestAcked ranges →
    (∀ p ∈ ps, ack.Acks p.packetNumber ↔ InRanges ranges p.packetNumber) →
    Collects ack encLevel ps history acked
      (collectAcked ack encLevel lowestAcked largestAcked ps ranges history acked) := by
  intro ps
  induction ps with
  | nil =>
    intro ranges history acked _ _ _ _
    exact collects_nil
  | cons p ps ih =>
    intro ranges history acked hps hprobes hc hranges
    obtain ⟨hp, hps'⟩ := pairwise_cons.mp hps
    obtain ⟨hpr, hranges'⟩ := forall_mem_cons.mp hranges
    rw [collectAcked]
    split
    · rename_i hlow
      refine (ih ranges history acked hps' hprobes hc hranges').skip fun hacks => ?_
      have := hbounds _ hacks
      omega
    · rename_i hlow
      split
      · -- the entries from here on are larger than what is acknowledged
        rename_i hlarge
        refine collects_none (forall_mem_cons.mpr ⟨fun hacks => ?_, fun q hq hacks => ?_⟩)
        · have := hbounds _ hacks
          omega
        · have := hbounds _ hacks
          have := hp q hq
          omega
      · rename_i hlarge
        obtain ⟨ranges', hin, hc', hsame⟩ :=
          hc.inRange_eq (Int.not_lt.mp hlow) (Int.not_lt.mp hlarge)
        have hnext : ∀ q ∈ ps, ack.Acks q.packetNumber ↔ InRanges ranges' q.packetNumber :=
          fun q hq => (hranges' q hq).trans (hsame _ (Int.le_of_lt (hp q hq)))
        rw [hin]
        by_cases hacks : ack.Acks p.packetNumber
        · rw [decide_eq_true (hpr.mp hacks)]
          dsimp only
          split
          · rename_i hskip
            exact .inl ⟨p, mem_cons_self, hskip, hacks, rfl⟩
          · rename_i hskip
            have hskip' := eq_false_iff.mpr hskip
            split_ifs with hprobe
            · exact (ih ranges' _ _ hps'
                (List.Pairwise.sublist eraseP_sublist hprobes) hc' hnext).probe
                hprobes hps hacks hskip' hprobe
            · exact (ih ranges' history _ hps' hprobes hc' hnext).regular hacks hskip'
                (eq_false_iff.mpr hprobe)
        · rw [decide_eq_false fun h => hacks (hpr.mpr h)]
          exact (ih ranges' history acked hps' hprobes hc' hnext).skip hacks

end Collect

/-! ## Removing -/

section Remove

variable {history history' : SentPacketHistory} {e p q : Packet} {acked : List Packet}

/-- Weight one for an entry, and none for all others. -/
def marks (e : Packet) (q : Packet) : Nat := if q = e then 1 else 0

theorem total_marks (packets : List (Option Packet)) :
    SentPacketHistory.total (marks e) packets = (SentPacketHistory.entriesOf packets).count e := by
  rw [SentPacketHistory.total]
  induction SentPacketHistory.entriesOf packets with
  | nil => rfl
  | cons q l ih =>
    rw [map_cons, sum_cons, ih, marks, count_cons, Nat.add_comm]
    simp only [beq_iff_eq]

/-- Taking out an entry leaves all others that are not skipped numbers. -/
theorem mem_of_removes (hr : history.Removes p history')
    (he : e.skippedPacket = false) (hne : e ≠ p) :
    e ∈ history'.entries ↔ e ∈ history.entries := by
  have hsum := hr.sum (marks e) fun q _ hq => if_neg fun heq => by
    rw [heq, he] at hq
    cases hq
  rw [marks, if_neg (Ne.symm hne), Nat.add_zero, total_marks, total_marks] at hsum
  rw [← count_pos_iff, ← count_pos_iff]
  exact iff_of_eq (congrArg (0 < ·) hsum)

/-- The entry itself is gone: there was only one with its number. -/
theorem not_mem_of_removes (wf : history.WF) (hr : history.Removes p history')
    (hp : p ∈ history.entries)
    (hskip : p.skippedPacket = false) : p ∉ history'.entries := by
  intro hmem
  have hsum := hr.sum (marks p) fun q _ hq => if_neg fun heq => by
    rw [heq, hskip] at hq
    cases hq
  rw [marks, if_pos rfl, total_marks, total_marks] at hsum
  -- the numbers ascend, so that nothing occurs twice
  have hnodup : history.entries.Nodup :=
    (ascending_of_numbered wf.numbered).imp fun hlt heq => by
      rw [heq] at hlt
      exact Int.lt_irrefl _ hlt
  have hpos : 0 < (SentPacketHistory.entriesOf history'.packets).count p := count_pos_iff.mpr hmem
  have hone : (SentPacketHistory.entriesOf history.packets).count p = 1 :=
    count_eq_one_of_mem hnodup hp
  omega


/-- **The second loop** removes the entries of the packets that were collected. -/
theorem settleAll_eq {encLevel : EncryptionLevel} :
    ∀ (acked : List Packet) (h : SentPacketHandler) (s : PacketNumberSpace),
    h.space encLevel = some s → s.history.WF → Standing acked s.history →
    (∀ q ∈ acked, ∀ e ∈ s.history.entries, e.packetNumber = q.packetNumber →
    e.skippedPacket = false) →
    ∃ h' s', acked.foldlM (settleAcked encLevel) h = .ok h' ∧ h'.space encLevel = some s' ∧
      s'.history.pathProbePackets = s.history.pathProbePackets ∧
      (∀ e ∈ s'.history.entries, e ∈ s.history.entries) ∧
      ∀ e ∈ s.history.entries, e.skippedPacket = false →
        (e ∈ s'.history.entries ↔ ∀ q ∈ acked, q.packetNumber ≠ e.packetNumber) := by
  intro acked
  induction acked with
  | nil =>
    intro h s hs _ _ _
    exact ⟨h, s, rfl, hs, rfl, fun _ he => he,
      fun e he _ => ⟨fun _ => forall_mem_nil _, fun _ => he⟩⟩
  | cons p acked ih =>
    intro h s hs wf hstanding hplain
    obtain ⟨e₀, he₀, hnum₀, -⟩ := hstanding.entry p mem_cons_self
    obtain ⟨history', hok, hr, -⟩ := takesOut_remove wf he₀
    have hskip₀ := hplain p mem_cons_self e₀ he₀ hnum₀
    have hsettle : settleAcked encLevel h p =
        .ok ((confirmAcked encLevel h p).setSpace { s with history := history' } encLevel) := by
      have hs' : (confirmAcked encLevel h p).space encLevel = some s := by
        rw [← hs]
        cases encLevel <;> rfl
      rw [settleAcked, onHistory, hs', ← hnum₀]
      dsimp only
      rw [hok]
      rfl
    obtain ⟨h', s', hfold, hs', hprobes, hsub, hmem⟩ := ih _ { s with history := history' }
      space_setSpace hr.wf (hstanding.removes hnum₀ hr) fun q hq e he =>
        hplain q (mem_cons_of_mem p hq) e (hr.sub e he)
    refine ⟨h', s', ?_, hs', hprobes.trans hr.probes, fun e he => hr.sub e (hsub e he),
      fun e he hskip => ?_⟩
    · rw [foldlM_cons, hsettle]
      exact hfold
    · rw [forall_mem_cons]
      by_cases heq : e = e₀
      · subst heq
        refine iff_of_false (fun h => ?_) fun h => h.1 hnum₀.symm
        exact not_mem_of_removes wf hr he hskip (hsub e h)
      · have hne : p.packetNumber ≠ e.packetNumber := fun hnum =>
          heq (eq_of_packetNumber wf he he₀ (hnum.symm.trans hnum₀.symm))
        have hin : e ∈ history'.entries := (mem_of_removes hr hskip heq).mpr he
        rw [hmem e hin hskip]
        exact ⟨fun h => ⟨hne, h⟩, fun h => h.2⟩

end Remove

/-! ## The whole call -/

section Whole

variable {ack : AckFrame} {history : SentPacketHistory} {p : Packet}

theorem mem_picked (sd : Sound history) :
    p ∈ history.entries.filterMap (pick ack history.pathProbePackets) ↔
      p ∈ history.entries ∧ p.isPathProbePacket = false ∧ ack.Acks p.packetNumber ∨
      p ∈ history.pathProbePackets ∧ ack.Acks p.packetNumber ∧
        ∃ e ∈ history.entries, e.isPathProbePacket = true ∧ e.packetNumber = p.packetNumber := by
  rw [mem_filterMap]
  constructor
  · rintro ⟨e, he, hpick⟩
    have hnum := packetNumber_pick hpick
    rw [pick] at hpick
    split at hpick
    · rename_i hacks
      split_ifs at hpick with hprobe
      · exact .inr ⟨mem_of_find?_eq_some hpick, hnum ▸ hacks, e, he, hprobe, hnum.symm⟩
      · cases hpick
        exact .inl ⟨he, eq_false_iff.mpr hprobe, hacks⟩
    · cases hpick
  · rintro (⟨he, hprobe, hacks⟩ | ⟨hp, hacks, e, he, hprobe, hnum⟩)
    · exact ⟨p, he, pick_regular hacks hprobe⟩
    · refine ⟨e, he, ?_⟩
      rw [pick_probe (hnum ▸ hacks) hprobe, hnum]
      exact find?_packetNumber sd.ascending hp

theorem ascending_picked (wf : history.WF) :
    Ascending (history.entries.filterMap (pick ack history.pathProbePackets)) := by
  refine pairwise_filterMap.mpr
    ((ascending_of_numbered wf.numbered).imp fun hlt q hq q' hq' => ?_)
  rw [packetNumber_pick hq, packetNumber_pick hq']
  exact hlt

/-- Each packet that is collected has an entry, itself or its placeholder. -/
theorem standing_picked (sd : Sound history) :
    Standing (history.entries.filterMap (pick ack history.pathProbePackets))
      { history with
        pathProbePackets := probesLeft ack history.entries history.pathProbePackets } := by
  refine ⟨ascending_picked sd.wf, fun q hq => ?_⟩
  rcases (mem_picked sd).mp hq with ⟨he, -, -⟩ | ⟨hp, -, e, he, -, hnum⟩
  · exact ⟨q, he, rfl, fun _ => rfl⟩
  · refine ⟨e, he, hnum, fun hprobe => ?_⟩
    rw [sd.flagged q hp] at hprobe
    cases hprobe

/-- The probes that are left are those that were not collected. -/
theorem mem_probesLeft (sd : Sound history) :
    p ∈ probesLeft ack history.entries history.pathProbePackets ↔ p ∈ history.pathProbePackets ∧
      p ∉ history.entries.filterMap (pick ack history.pathProbePackets) := by
  rw [probesLeft, mem_filter]
  refine and_congr_right fun hp => ?_
  rw [mem_picked sd, not_eq_true', eq_false_iff, ne_eq, any_eq_true]
  refine not_congr ?_
  simp only [and_eq_true, decide_eq_true_eq]
  constructor
  · rintro ⟨e, he, ⟨hprobe, hacks⟩, hnum⟩
    exact .inr ⟨hp, hnum ▸ hacks, e, he, hprobe, hnum⟩
  · rintro (⟨-, hprobe, -⟩ | ⟨-, hacks, e, he, hprobe, hnum⟩)
    · rw [sd.flagged p hp] at hprobe
      cases hprobe
    · exact ⟨e, he, ⟨hprobe, hnum ▸ hacks⟩, hnum⟩

end Whole

variable {initialPN : Nat} {validated : Bool} {pers : Perspective} {rnd : Nat} {tr : List Call}
  {h : SentPacketHandler} {encLevel : EncryptionLevel} {s : PacketNumberSpace} {ack : AckFrame}

theorem detectAndRemove_cases (sd : Sound s.history) (hs : h.space encLevel = some s)
    (hvalid : ack.Valid) :
    (∃ p ∈ s.history.entries, p.skippedPacket = true ∧ ack.Acks p.packetNumber ∧
      h.detectAndRemoveAckedPackets ack encLevel = .error
      (.ackForSkipped p.packetNumber encLevel)) ∨
    (∀ p ∈ s.history.entries, p.skippedPacket = true → ¬ack.Acks p.packetNumber) ∧
      ∃ h' s', h.detectAndRemoveAckedPackets ack encLevel =
          .ok (h', s.history.entries.filterMap (pick ack s.history.pathProbePackets)) ∧
        h'.space encLevel = some s' ∧
        s'.history.pathProbePackets = probesLeft ack s.history.entries s.history.pathProbePackets ∧
        (∀ e ∈ s'.history.entries, e ∈ s.history.entries) ∧
        ∀ e ∈ s.history.entries, e.skippedPacket = false → (e ∈ s'.history.entries ↔
          ∀ q ∈ s.history.entries.filterMap (pick ack s.history.pathProbePackets),
            q.packetNumber ≠ e.packetNumber) := by
  obtain ⟨largest, hlarge⟩ := AckFrame.largestAcked_isSome hvalid.nonempty
  have hlow := AckFrame.lowestAcked_eq hvalid.nonempty
  have hcollect : Collects ack encLevel s.history.entries s.history [] (collectAcked ack encLevel _
      largest s.history.entries ack.ackRanges.reverse s.history []) :=
    collectAcked_collects (fun pn hpn => hvalid.bounds hlow hlarge hpn) s.history.entries
      ack.ackRanges.reverse s.history [] (ascending_of_numbered sd.wf.numbered)
      sd.ascending (cursor_reverse hvalid hlow hlarge) fun p _ => AckFrame.inRanges_reverse.symm
  rw [detectAndRemoveAckedPackets, hs, hlow, hlarge]
  dsimp only
  rcases hcollect with ⟨p, hp, hskip, hacks, herr⟩ | ⟨hno, hok⟩
  · rw [herr]
    exact .inl ⟨p, hp, hskip, hacks, rfl⟩
  · rw [hok, nil_append]
    set history₁ : SentPacketHistory := { s.history with
      pathProbePackets := probesLeft ack s.history.entries s.history.pathProbePackets }
    have hwf : history₁.WF := sd.wf.withProbes fun q hq => (mem_filter.mp hq).1
    have hplain : ∀ q ∈ s.history.entries.filterMap (pick ack s.history.pathProbePackets),
        ∀ e ∈ history₁.entries, e.packetNumber = q.packetNumber → e.skippedPacket = false := by
      intro q hq e he hnum
      have hacks : ack.Acks q.packetNumber := by
        rcases (mem_picked sd).mp hq with ⟨-, -, hacks⟩ | ⟨-, hacks, -⟩
        · exact hacks
        · exact hacks
      exact eq_false_iff.mpr fun hskip => hno e he hskip (hnum ▸ hacks)
    obtain ⟨h', s', hfold, hs', hprobes, hsub, hmem⟩ := settleAll_eq _
      (h.setSpace { s with history := history₁ } encLevel) { s with history := history₁ }
      space_setSpace hwf (standing_picked sd) hplain
    refine .inr ⟨hno, h', s', ?_, hs', hprobes, hsub, hmem⟩
    show Except.map _ (List.foldlM _ _ _) = _
    rw [hfold]
    rfl

/-- **An ACK takes out exactly what it acknowledges.** -/
theorem acked_exact (hrun : (machine initialPN validated pers rnd).Run tr h)
    (hs : h.space encLevel = some s) (hvalid : ack.validateAckRanges = true) :
    (∀ pn, ack.acksPacket pn = some (decide (ack.Acks pn))) ∧
    ((∃ e, h.detectAndRemoveAckedPackets ack encLevel = .error e) ↔
      ∃ p ∈ s.history.entries, p.skippedPacket = true ∧ ack.Acks p.packetNumber) ∧
    (∀ e, h.detectAndRemoveAckedPackets ack encLevel = .error e →
      ∃ pn, e = .ackForSkipped pn encLevel) ∧
    ∀ h' acked, h.detectAndRemoveAckedPackets ack encLevel = .ok (h', acked) →
      (acked.Pairwise fun p q => p.packetNumber < q.packetNumber) ∧ (∀ p, p ∈ acked ↔
        p ∈ s.history.entries ∧ p.isPathProbePacket = false ∧ ack.Acks p.packetNumber ∨
        p ∈ s.history.pathProbePackets ∧ ack.Acks p.packetNumber ∧
          ∃ e ∈ s.history.entries, e.isPathProbePacket = true ∧ e.packetNumber = p.packetNumber) ∧
      ∃ s', h'.space encLevel = some s' ∧ (∀ p ∈ s'.history.entries, p ∈ s.history.entries) ∧
        (∀ p ∈ s.history.entries, p.skippedPacket = false →
          (p ∈ s'.history.entries ↔ ∀ q ∈ acked, q.packetNumber ≠ p.packetNumber)) ∧
        ∀ p, p ∈ s'.history.pathProbePackets ↔ p ∈ s.history.pathProbePackets ∧ p ∉ acked := by
  have hval := AckFrame.validateAckRanges_iff.mp hvalid
  have sd := (run_ledger 0 hrun).sound encLevel s hs
  refine ⟨hval.acksPacket_eq, ?_⟩
  rcases detectAndRemove_cases sd hs hval with ⟨p, hp, hskip, hacks, herr⟩ |
    ⟨hno, h', s', hok, hs', hprobes, hsub, hmem⟩
  · rw [herr]
    refine ⟨iff_of_true ⟨_, rfl⟩ ⟨p, hp, hskip, hacks⟩, fun e he => ?_, fun _ _ hok => ?_⟩
    · exact ⟨_, (Except.error.inj he).symm⟩
    · exact absurd hok.symm ok_ne_error
  · rw [hok]
    refine ⟨iff_of_false (fun ⟨_, herr⟩ => ok_ne_error herr)
      fun ⟨p, hp, hskip, hacks⟩ => hno p hp hskip hacks,
      fun _ herr => absurd herr ok_ne_error, fun h'' acked hret => ?_⟩
    obtain ⟨rfl, rfl⟩ := Prod.mk.inj (Except.ok.inj hret)
    refine ⟨ascending_picked sd.wf, fun p => mem_picked sd, s', hs', hsub, hmem, fun p => ?_⟩
    rw [hprobes]
    exact mem_probesLeft sd

/-- Three Initial packets; the first and the third are acknowledged. -/
theorem acked_exact_threeInitials :
    let sent (pn : Nat) : Sent :=
      ⟨1000000000, pn, invalidPacketNumber, [], [⟨pn, true⟩], .initial, 1200, false, false⟩
    let calls : List Call := [0, 1, 2].flatMap fun pn =>
      [.popPacketNumber .initial 0, .sentPacket (sent pn) ⟨100000000, 300000000, 300000000⟩]
    let h := (calls.foldlM step (new 0 false .client 0)).getD (new 0 false .client 0)
    let ack : AckFrame := ⟨[⟨2, 2⟩, ⟨0, 0⟩], 0, 0, 0, 0⟩
    ((h.detectAndRemoveAckedPackets ack .initial).toOption.map fun r =>
      r.2.map (·.packetNumber)) = some [0, 2] ∧
    ack.acksPacket 1 = some (decide (ack.Acks 1)) := by
  intro sent calls h ack
  have hrun : (machine 0 false .client 0).Run calls h :=
    Machine.run_ofStep_iff.mpr (by decide +kernel)
  obtain ⟨s, hs⟩ : ∃ s, h.space .initial = some s := Option.isSome_iff_exists.mp (by decide +kernel)
  exact ⟨by decide +kernel, (acked_exact hrun hs (by decide)).1 1⟩

end UQuic.AckHandler.SentPacketHandler
