/-
# `UQuic.AckHandler.BytesInFlight` — the bytes that a sent packet handler counts

A packet leaves the sent packet handler in seven ways: acknowledged, lost by time
or by reordering, probed, dropped with its keys, rejected as 0-RTT, invalidated
by a Retry, left behind by a migration.  Some take it out of its history before
`bytesInFlight` is adjusted, some after.

`Accounts extra h` says that `bytesInFlight` is the sum of the tracked packets that
are counted, and `extra`.  Taking a packet out of its history raises `extra` by its
bytes, and each loop carries what its remaining packets will need: they are still
tracked, and their numbers ascend (`Pending`).
-/
import UQuic.AckHandler.Loops

namespace UQuic.AckHandler

open List
open UQuic.Wire (AckRange AckFrame)

namespace SentPacketHandler

/-! ## The sum -/

/-- All packets the existing packet number spaces track. -/
def tracked (h : SentPacketHandler) : List Packet :=
  (h.initialPackets.toList ++ h.handshakePackets.toList ++ [h.appDataPackets]).flatMap fun s =>
    s.history.entries ++ s.history.pathProbePackets

/-- The bytes of a space that may have been dropped. -/
def spaceInFlight : Option PacketNumberSpace → Nat
  | none => 0
  | some s => s.history.inFlight

def inFlight (h : SentPacketHandler) : Nat :=
  spaceInFlight h.initialPackets + spaceInFlight h.handshakePackets +
    h.appDataPackets.history.inFlight

def bytesOf (ps : List Packet) : Nat := (ps.map Packet.inFlight).sum

@[simp] theorem bytesOf_nil : bytesOf [] = 0 := rfl

@[simp] theorem bytesOf_cons (p : Packet) (ps : List Packet) :
    bytesOf (p :: ps) = p.inFlight + bytesOf ps := rfl

@[simp] theorem bytesOf_append (ps qs : List Packet) :
    bytesOf (ps ++ qs) = bytesOf ps + bytesOf qs := by
  simp [bytesOf]

theorem bytesOf_eq_zero : ∀ {ps : List Packet},
    (∀ p ∈ ps, p.includedInBytesInFlight = false) → bytesOf ps = 0
  | [], _ => rfl
  | p :: ps, h => by
    have hp := h p mem_cons_self
    have ih := bytesOf_eq_zero fun q hq => h q (mem_cons_of_mem _ hq)
    rw [bytesOf_cons, ih]
    simp [Packet.inFlight, hp]

/-- The bytes of a list are those of its counted packets. -/
theorem bytesOf_eq_sum_filter : ∀ ps : List Packet,
    bytesOf ps = ((ps.filter (·.includedInBytesInFlight)).map (·.length)).sum
  | [] => rfl
  | p :: ps => by
    rw [bytesOf_cons, bytesOf_eq_sum_filter ps]
    by_cases hp : p.includedInBytesInFlight = true
    · simp [Packet.inFlight, hp]
    · simp [Packet.inFlight, hp]

/-! ## The invariant -/

/-- Every history is well formed, and `bytesInFlight` is the sum and `extra`. -/
structure Accounts (extra : Int) (h : SentPacketHandler) : Prop where
  wf : ∀ encLevel s, h.space encLevel = some s → s.history.WF
  balance : (h.bytesInFlight : Int) = h.inFlight + extra

variable {h : SentPacketHandler} {e : Int} {encLevel : EncryptionLevel}
  {s s' : PacketNumberSpace} {p q : Packet} {rest : List Packet}

theorem bytesOf_tracked (a : Accounts e h) : bytesOf h.tracked = h.inFlight := by
  have hspace : ∀ s : PacketNumberSpace, s.history.WF →
      bytesOf (s.history.entries ++ s.history.pathProbePackets) = s.history.inFlight := by
    intro s wf
    rw [bytesOf_append, bytesOf_eq_zero wf.probes]
    rfl
  have hopt : ∀ o : Option PacketNumberSpace, (∀ s, o = some s → s.history.WF) →
      bytesOf (o.toList.flatMap fun s => s.history.entries ++ s.history.pathProbePackets) =
        spaceInFlight o := by
    intro o wf
    cases o with
    | none => rfl
    | some s =>
      simp only [Option.toList_some, flatMap_cons, flatMap_nil, append_nil]
      exact hspace s (wf s rfl)
  simp only [tracked, flatMap_append, flatMap_cons, flatMap_nil, append_nil, inFlight]
  rw [bytesOf_append, bytesOf_append, hopt h.initialPackets (a.wf .initial),
    hopt h.handshakePackets (a.wf .handshake), hspace _ (a.wf .oneRTT _ rfl)]

/-! ### Spaces -/

@[simp] theorem space_setSpace : (h.setSpace s encLevel).space encLevel = some s := by
  cases encLevel <;> rfl

@[simp] theorem bytesInFlight_setSpace :
    (h.setSpace s encLevel).bytesInFlight = h.bytesInFlight := by
  cases encLevel <;> rfl

theorem space_of_setSpace {l : EncryptionLevel} {t : PacketNumberSpace}
    (ht : (h.setSpace s encLevel).space l = some t) : t = s ∨ h.space l = some t := by
  cases encLevel <;> cases l <;> simp_all [setSpace, space]

/-! ## Packets a loop has yet to visit -/

/-- The packets of `rest` are tracked, by entries that count for as many bytes,
and come in ascending order. -/
structure Pending (rest : List Packet) (history : SentPacketHistory) : Prop where
  ascending : rest.Pairwise fun p q => p.packetNumber < q.packetNumber
  entry : ∀ p ∈ rest, ∃ q ∈ history.entries,
    q.packetNumber = p.packetNumber ∧ q.inFlight = p.inFlight
  plain : ∀ p ∈ rest, p.skippedPacket = true ∨ p.isPathProbePacket = true → p.inFlight = 0

theorem inFlight_eq_zero (hp : p.includedInBytesInFlight = false) : p.inFlight = 0 := by
  simp [Packet.inFlight, hp]

variable {history history' : SentPacketHistory} {acked : List Packet}

/-- At its start a loop has all entries before it. -/
theorem pending_entries (wf : history.WF) : Pending history.entries history :=
  ⟨SentPacketHistory.ascending_of_numbered wf.numbered, fun p hp => ⟨p, hp, rfl, rfl⟩,
    fun p hp hplain => inFlight_eq_zero (wf.plain p hp hplain)⟩

theorem Pending.sublist {rest' : List Packet} (hp : Pending rest history)
    (hsub : rest'.Sublist rest) : Pending rest' history :=
  ⟨hp.ascending.sublist hsub, fun p hm => hp.entry p (hsub.subset hm),
    fun p hm => hp.plain p (hsub.subset hm)⟩

/-- An entry of a history is known by its number. -/
theorem eq_of_packetNumber (wf : history.WF) (hq : q ∈ history.entries) (hp : p ∈ history.entries)
    (hnum : q.packetNumber = p.packetNumber) : q = p := by
  obtain ⟨i, hi⟩ := SentPacketHistory.mem_entriesOf.mp hq
  obtain ⟨j, hj⟩ := SentPacketHistory.mem_entriesOf.mp hp
  have hqi := wf.numbered i q hi
  have hpj := wf.numbered j p hj
  have hij : i = j := by omega
  subst hij
  exact Option.some.inj (Option.some.inj (hi.symm.trans hj))

/-- Taking the entry of the first packet out leaves the entries of the others. -/
theorem entry_removes {R : Packet → Packet → Prop}
    (hasc : (p :: rest).Pairwise fun p q => p.packetNumber < q.packetNumber)
    (hentry : ∀ p' ∈ p :: rest, ∃ e ∈ history.entries, e.packetNumber = p'.packetNumber ∧ R e p')
    (hq : q.packetNumber = p.packetNumber) (hr : history.Removes q history') :
    ∀ p' ∈ rest, ∃ e ∈ history'.entries, e.packetNumber = p'.packetNumber ∧ R e p' := by
  intro p' hp'
  obtain ⟨e, he, hnum, hR⟩ := hentry p' (mem_cons_of_mem p hp')
  have hlt := rel_of_pairwise_cons hasc hp'
  exact ⟨e, hr.later e he (by omega), hnum, hR⟩

theorem Pending.removes (hp : Pending (p :: rest) history) (hq : q.packetNumber = p.packetNumber)
    (hr : history.Removes q history') : Pending rest history' :=
  ⟨List.Pairwise.of_cons hp.ascending, entry_removes hp.ascending hp.entry hq hr,
    fun p' hm => hp.plain p' (mem_cons_of_mem p hm)⟩

/-- A packet takes the place of the one with its number. -/
theorem ascending_replace (hnum : q.packetNumber = p.packetNumber)
    (hasc : (acked ++ p :: rest).Pairwise fun p q => p.packetNumber < q.packetNumber) :
    (acked ++ [q] ++ rest).Pairwise fun p q => p.packetNumber < q.packetNumber := by
  simp only [append_assoc, singleton_append, pairwise_append, pairwise_cons,
    mem_cons, forall_eq_or_imp, hnum] at hasc ⊢
  exact hasc

theorem forall_replace {C : Packet → Prop} (hq : C p → C q) (hall : ∀ r ∈ acked ++ p :: rest, C r) :
    ∀ r ∈ acked ++ [q] ++ rest, C r := by
  simp only [append_assoc, singleton_append, forall_mem_append, forall_mem_cons] at hall ⊢
  exact ⟨hall.1, hq hall.2.1, hall.2.2⟩

/-- A path probe stands for the entry that holds its number. -/
theorem Pending.replace (hp : Pending (acked ++ p :: rest) history)
    (hnum : q.packetNumber = p.packetNumber) (hq : q.inFlight = 0) (hbytes : p.inFlight = 0) :
    Pending (acked ++ [q] ++ rest) history := by
  refine ⟨ascending_replace hnum hp.ascending, forall_replace ?_ hp.entry,
    forall_replace (fun _ _ => hq) hp.plain⟩
  rintro ⟨e, he, hnum', hbytes'⟩
  exact ⟨e, he, hnum'.trans hnum.symm, by omega⟩

/-- The packets of `rest` are pending in a space of the handler. -/
def Tracks (encLevel : EncryptionLevel) (rest : List Packet) (h : SentPacketHandler) : Prop :=
  ∃ s, h.space encLevel = some s ∧ Pending rest s.history

/-- The number after a skipped one is not the first. -/
theorem pop_skipped {g : PacketNumberGenerator} {rnd : Nat} (hskip : (g.pop rnd).2.1 = true) :
    0 < (g.pop rnd).2.2 := by
  cases g with
  | sequential next => cases hskip
  | skipping period maxPeriod next nextToSkip =>
    simp only [PacketNumberGenerator.pop] at hskip ⊢
    split_ifs at hskip ⊢ with heq
    exact Nat.succ_pos next

end SentPacketHandler

end UQuic.AckHandler
