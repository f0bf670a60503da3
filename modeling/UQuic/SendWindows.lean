/-
# `UQuic.SendWindows` — the send streams of a connection stay within the peer's limits

Streams that share one connection flow controller, with any interleaving of the calls to
them and of MAX_STREAM_DATA and MAX_DATA frames with any values.  All frames are popped by
the framer, one after the other, so that no frame comes between the look at the window and
the spending of the credit.

## What is proved

At every point (`send_respects`):

    the highest offset sent on a stream  ≤  max(its initial window, its largest MAX_STREAM_DATA)
    Σ highest offset sent                ≤  the largest MAX_DATA
    Σ highest offset sent                =  the credit spent on the connection
    popping a retransmission, whole or split, changes no flow controller

## How

`Balanced` of the library: a stream's share is its write offset, which is both its highest
offset and what its own flow controller counts.  `Spent` says what popping a frame does to
the two controllers.
-/
import UQuic.Lib.Shared
import UQuic.SendSteps

namespace UQuic

open FlowControl
open SendStream (State Popped)
open SendStream.State (Pops)

/-! ## One frame -/

namespace SendStream.State

variable {s : State} {conn : ConnectionFlowController} {maxBytes : Int} {r : Popped}

/-- `n` bytes of credit were spent, and both windows had room for them. -/
structure Spent (s : State) (conn : ConnectionFlowController) (r : Popped) (n : Nat) : Prop where
  offset : r.stream.writeOffset = s.writeOffset + n
  sent : r.stream.flowController.base.bytesSent = s.flowController.base.bytesSent + n
  window : r.stream.flowController.base.sendWindow = s.flowController.base.sendWindow
  connSent : r.conn.bytesSent = conn.bytesSent + n
  connWindow : r.conn.sendWindow = conn.sendWindow
  room : 0 < n → s.flowController.base.bytesSent + n ≤ s.flowController.base.sendWindow ∧
    conn.bytesSent + n ≤ conn.sendWindow

/-- A retransmission changes no flow controller. -/
theorem Pops.again (h : Pops s conn maxBytes r) (hold : r.fresh = false) :
    r.conn = conn ∧ r.stream.flowController = s.flowController := by
  cases h with
  | nothing | retransmit | split => exact ⟨rfl, rfl⟩
  | fin | new => cases hold

/-- The bytes of a new frame are spent. -/
theorem Pops.spent (h : Pops s conn maxBytes r) : ∃ n, Spent s conn r n := by
  cases h with
  | nothing | retransmit | split | fin =>
    refine ⟨0, rfl, (Int.add_zero _).symm, rfl, (Int.add_zero _).symm, rfl, ?_⟩
    exact fun h => absurd h (Nat.lt_irrefl 0)
  | @new s₁ f more lost cut =>
    have hflow : s₁.flowController = s.flowController := by rw [cut.same]
    have hwindow := cut.window
    -- whether the stream is newly blocked does not change what it has sent
    have hblocked : ∃ b, (s₁.spend conn
      (s.flowController.sendWindowSize conn) f more).stream.flowController.base =
        { s.flowController.base with
          bytesSent := s.flowController.base.bytesSent + f.data.length, lastBlockedAt := b } := by
      simp only [spend, hflow]
      split
      · obtain ⟨b, hb⟩ := BaseFlowController.isNewlyBlocked_fst
          (s.flowController.addBytesSent conn f.data.length).1.base
        exact ⟨b, hb⟩
      · exact ⟨s.flowController.base.lastBlockedAt, rfl⟩
    obtain ⟨b, hb⟩ := hblocked
    have hsent := congrArg BaseFlowController.bytesSent hb
    have hkept := congrArg BaseFlowController.sendWindow hb
    refine ⟨f.data.length, ?_, hsent, hkept, ?_, ?_, fun hpos => ⟨?_, ?_⟩⟩
    · show s₁.writeOffset + f.data.length = s.writeOffset + f.data.length
      rw [cut.same]
    · rfl
    · rfl
    · exact BaseFlowController.bytesSent_add_le (by omega) (hwindow.trans (min_le_left _ _))
    · exact BaseFlowController.bytesSent_add_le (by omega) (hwindow.trans (min_le_right _ _))

/-- The write offset is the highest offset sent. -/
theorem Pops.highest {f : Wire.StreamFrame} (hs : s.WellFormed) (h : Pops s conn maxBytes r)
    (hf : r.frame = some f) :
    r.stream.writeOffset = max s.writeOffset (f.offset + f.data.length) := by
  have hbefore := (h.sendable hs hf).1.before
  cases h with
  | nothing => cases hf
  | retransmit | split | fin => exact (max_eq_left hbefore).symm
  | @new s₁ g more lost cut =>
    cases hf
    have hoff := cut.offset
    have hsame : s₁.writeOffset = s.writeOffset := by rw [cut.same]
    show s₁.writeOffset + g.data.length = max s.writeOffset (g.offset + g.data.length)
    omega

theorem Pops.writeOffset_none (h : Pops s conn maxBytes r) (hf : r.frame = none) :
    r.stream.writeOffset = s.writeOffset := by
  cases h with
  | nothing => rfl
  | retransmit | split | fin | new => cases hf

end SendStream.State

/-! ## The streams of a connection -/

def largest (l : List Nat) : Nat := l.foldl max 0

theorem largest_snoc (l : List Nat) (n : Nat) : largest (l ++ [n]) = max (largest l) n := by
  rw [largest, List.foldl_append]
  rfl

namespace WriteEnd

def highestSent (e : WriteEnd) : Nat :=
  largest (e.sent.map fun t => t.frame.offset + t.frame.data.length)

/-- The write offset follows the highest offset sent. -/
theorem highestSent_popped {e : WriteEnd} {conn : ConnectionFlowController} {maxBytes : Int}
    {p : Popped} (hs : e.Sound) (pops : Pops e.stream conn maxBytes p)
    (h : e.highestSent = e.stream.writeOffset) :
    (e.popped p).highestSent = p.stream.writeOffset := by
  simp only [highestSent, popped]
  cases hf : p.frame with
  | none =>
    rw [pops.writeOffset_none hf, Option.toList_none, List.map_nil, List.append_nil]
    exact h
  | some f =>
    rw [pops.highest hs.stream hf, List.map_append]
    exact (largest_snoc _ _).trans (congrArg (max · _) h)

end WriteEnd

namespace Senders

/-- A stream, with its initial window and a log of the MAX_STREAM_DATA frames. -/
structure StreamEnd where
  sender : WriteEnd
  initialWindow : Nat
  limits : List Nat

/-- The connection flow controller, with a log of the MAX_DATA frames. -/
structure ConnectionEnd where
  flowController : ConnectionFlowController
  limits : List Nat

/-- The streams and their connection. -/
abbrev State := Shared StreamEnd ConnectionEnd

/-- What a stream is created with. -/
structure NewStream where
  streamID : Nat
  receiveWindow : Int
  maxReceiveWindow : Int
  initialSendWindow : Nat
  deriving DecidableEq, Repr

/-- The connection receives MAX_DATA, or the framer asks whether it is blocked. -/
inductive ConnectionCall
  | updateSendWindow (limit : Nat)
  | isNewlyBlocked
  deriving DecidableEq, Repr

/-- A stream is created, a stream is called, or the connection is. -/
abbrev Event := Shared.Event NewStream WriteEnd.Call ConnectionCall

/-- `newFlowController` and `newSendStream`. -/
def makeStream (a : NewStream) : StreamEnd :=
  ⟨.new a.streamID (.new a.streamID a.receiveWindow a.maxReceiveWindow a.initialSendWindow),
    a.initialSendWindow, []⟩

/-- The limit that a call brings. -/
def limit? : WriteEnd.Call → List Nat
  | .updateSendWindow limit => [limit]
  | _ => []

theorem limit?_eq_nil {c : WriteEnd.Call} (h : ∀ limit, c ≠ .updateSendWindow limit) :
    limit? c = [] := by
  cases c with
  | updateSendWindow limit => exact absurd rfl (h limit)
  | _ => rfl

/-- A call to a stream, which spends the connection's credit. -/
def callStream (e : StreamEnd) (c : ConnectionEnd) (call : WriteEnd.Call) :
    Option (StreamEnd × ConnectionEnd) :=
  (e.sender.call c.flowController call).map fun r =>
    ({ e with sender := r.sender, limits := e.limits ++ limit? call },
      { c with flowController := r.conn })

def callConnection (c : ConnectionEnd) : ConnectionCall → ConnectionEnd
  | .updateSendWindow limit => ⟨(c.flowController.updateSendWindow limit).1, c.limits ++ [limit]⟩
  | .isNewlyBlocked => { c with flowController := c.flowController.isNewlyBlocked.1 }

def calls : Shared.Calls StreamEnd ConnectionEnd NewStream WriteEnd.Call ConnectionCall where
  make := makeStream
  part := callStream
  whole c call := some (callConnection c call)

/-- The send streams of a connection, which may send nothing before the first MAX_DATA. -/
def machine (receiveWindow maxReceiveWindow : Int) : Machine State Event :=
  Shared.machine calls ⟨.new receiveWindow maxReceiveWindow, []⟩

/-! ## The invariant -/

variable {s s' : State} {e e' : StreamEnd} {c c' : ConnectionEnd}

/-- What a stream has sent. -/
def share (e : StreamEnd) : Int := e.sender.stream.writeOffset

/-- What was sent on the connection. -/
def sum (c : ConnectionEnd) : Int := c.flowController.bytesSent

/-- A stream within its limits. -/
structure Within (e : StreamEnd) : Prop where
  sound : e.sender.Sound
  highest : e.sender.highestSent = e.sender.stream.writeOffset
  sent : e.sender.stream.flowController.base.bytesSent = e.sender.stream.writeOffset
  le : e.sender.stream.flowController.base.bytesSent ≤
    e.sender.stream.flowController.base.sendWindow
  window : e.sender.stream.flowController.base.sendWindow =
    (max e.initialWindow (largest e.limits) : Nat)

/-- A connection within its limit. -/
structure Limited (c : ConnectionEnd) : Prop where
  le : c.flowController.bytesSent ≤ c.flowController.sendWindow
  window : c.flowController.sendWindow = (largest c.limits : Nat)

theorem within_makeStream (a : NewStream) : Within (makeStream a) where
  sound := WriteEnd.sound_new _ _
  highest := rfl
  sent := rfl
  le := Int.natCast_nonneg _
  window := congrArg Nat.cast (Nat.max_zero a.initialSendWindow).symm

/-- **One call** keeps a stream and the connection within their limits. -/
theorem callStream_within {call : WriteEnd.Call} (h : callStream e c call = some (e', c'))
    (he : Within e) (hc : Limited c) :
    Within e' ∧ Limited c' ∧ share e' - share e = sum c' - sum c := by
  obtain ⟨r, hr, heq⟩ := Option.map_eq_some_iff.mp h
  have hsound := he.sound.call hr
  obtain ⟨rfl, rfl⟩ := Prod.mk.inj heq
  cases WriteEnd.call_spends he.sound hr with
  | @pop maxBytes p pops =>
    obtain ⟨n, hspent⟩ := pops.spent
    have hoff := hspent.offset
    have hsent := hspent.sent
    have hbytes := he.sent
    have hle := he.le
    have hcle := hc.le
    have hroom := hspent.room
    refine ⟨⟨hsound, ?_, ?_, ?_, ?_⟩, ⟨?_, ?_⟩, ?_⟩
    · exact (WriteEnd.highestSent_popped he.sound pops he.highest)
    · show p.stream.flowController.base.bytesSent = p.stream.writeOffset
      omega
    · show p.stream.flowController.base.bytesSent ≤ p.stream.flowController.base.sendWindow
      rw [hspent.window]
      omega
    · show p.stream.flowController.base.sendWindow = _
      rw [hspent.window, he.window]
      simp only [limit?, List.append_nil]
    · show p.conn.bytesSent ≤ p.conn.sendWindow
      rw [hspent.connSent, hspent.connWindow]
      omega
    · show p.conn.sendWindow = _
      rw [hspent.connWindow, hc.window]
    · show (p.stream.writeOffset : Int) - e.sender.stream.writeOffset =
        p.conn.bytesSent - c.flowController.bytesSent
      rw [hspent.connSent]
      omega
  | @update limit hasData =>
    have hbase : (e.sender.stream.updateSendWindow limit).1.flowController.base =
        { e.sender.stream.flowController.base with
          sendWindow := max e.sender.stream.flowController.base.sendWindow limit } :=
      BaseFlowController.updateSendWindow_fst _ _
    refine ⟨⟨hsound, he.highest, ?_, ?_, ?_⟩, hc, ?_⟩
    · dsimp only
      rw [hbase]
      exact he.sent
    · dsimp only
      rw [hbase]
      exact he.le.trans (le_max_left _ _)
    · dsimp only
      rw [hbase, limit?, largest_snoc, he.window]
      dsimp only
      omega
    · exact (Int.sub_self _).trans (Int.sub_self _).symm
  | quiet quiet no =>
    have hsame : r.sender.highestSent = e.sender.highestSent := by
      rw [WriteEnd.highestSent, quiet.sent]
      rfl
    refine ⟨⟨hsound, ?_, ?_, ?_, ?_⟩, ?_, ?_⟩
    · rw [hsame, quiet.keeps.writeOffset]
      exact he.highest
    · dsimp only
      rw [quiet.keeps.flowController, quiet.keeps.writeOffset]
      exact he.sent
    · dsimp only
      rw [quiet.keeps.flowController]
      exact he.le
    · dsimp only
      rw [quiet.keeps.flowController, limit?_eq_nil no, List.append_nil]
      exact he.window
    · rw [quiet.conn]
      exact hc
    · simp only [share, sum, quiet.keeps.writeOffset, quiet.conn, sub_self]

/-- A call to the connection spends nothing. -/
theorem limited_callConnection (hc : Limited c) (call : ConnectionCall) :
    Limited (callConnection c call) ∧ sum (callConnection c call) = sum c := by
  cases call with
  | updateSendWindow limit =>
    have hflow := BaseFlowController.updateSendWindow_fst c.flowController limit
    refine ⟨⟨?_, ?_⟩, ?_⟩
    · simp only [callConnection]
      rw [hflow]
      exact hc.le.trans (le_max_left _ _)
    · simp only [callConnection]
      rw [hflow, largest_snoc, hc.window]
      dsimp only
      omega
    · simp only [callConnection, sum]
      rw [hflow]
  | isNewlyBlocked =>
    obtain ⟨b, hb⟩ := BaseFlowController.isNewlyBlocked_fst c.flowController
    refine ⟨⟨?_, ?_⟩, ?_⟩
    · simp only [callConnection]
      rw [hb]
      exact hc.le
    · simp only [callConnection]
      rw [hb]
      exact hc.window
    · simp only [callConnection, sum]
      rw [hb]

/-- The credit of a connection. -/
abbrev Credit (s : State) : Prop := Shared.Balanced Within Limited share sum s

theorem run_credit {receiveWindow maxReceiveWindow : Int} {tr : List Event}
    (hrun : (machine receiveWindow maxReceiveWindow).Run tr s) : Credit s := by
  refine Machine.Run.stable (I := Credit) ?_ ?_ hrun
  · rintro s rfl
    exact .empty ⟨Int.le_refl 0, rfl⟩ rfl
  · intro s ev s' ih hstep
    cases ev with
    | create a =>
      cases hstep
      exact ih.create (within_makeStream a) rfl
    | part i call =>
      obtain ⟨e, e', c', hi, hcall, rfl⟩ := Shared.step_part hstep
      obtain ⟨he, hc, hmoves⟩ := callStream_within hcall (ih.mem hi) ih.whole
      exact ih.part hi he hc hmoves
    | whole call =>
      cases hstep
      obtain ⟨hc, hsum⟩ := limited_callConnection ih.whole call
      exact ih.other hc hsum

/-! ## The limits -/

/-- The sender respects the peer's limits. -/
structure Respects (s : State) : Prop where
  stream : ∀ e ∈ s.parts, e.sender.highestSent ≤ max e.initialWindow (largest e.limits)
  connection : (s.parts.map (·.sender.highestSent)).sum ≤ largest s.whole.limits
  spent : ((s.parts.map (·.sender.highestSent)).sum : Nat) = s.whole.flowController.bytesSent
  again : ∀ e ∈ s.parts, ∀ maxBytes r,
    e.sender.stream.popStreamFrame s.whole.flowController maxBytes = some r → r.fresh = false →
      r.conn = s.whole.flowController ∧ r.stream.flowController = e.sender.stream.flowController

theorem sum_highestSent (h : ∀ e ∈ s.parts, Within e) :
    ((s.parts.map (·.sender.highestSent)).sum : Nat) = Shared.total share s := by
  rw [Shared.total, ← Nat.coe_castAddMonoidHom, map_list_sum, List.map_map]
  refine congrArg List.sum (List.map_congr_left fun e he => ?_)
  exact congrArg Nat.cast (h e he).highest

/-- **The sender respects the peer's limits**, with any number of streams and any calls, and
retransmissions cost nothing. -/
theorem send_respects {receiveWindow maxReceiveWindow : Int} {tr : List Event}
    (hrun : (machine receiveWindow maxReceiveWindow).Run tr s) : Respects s := by
  have hb := run_credit hrun
  have hspent := (sum_highestSent hb.parts).trans hb.balance
  refine ⟨fun e he => ?_, ?_, hspent, fun e he maxBytes r hr hold => ?_⟩
  · have hw := hb.parts e he
    have hle := hw.le
    rw [hw.sent, hw.window] at hle
    rw [hw.highest]
    exact Int.ofNat_le.mp hle
  · have hle := hb.whole.le
    rw [hb.whole.window] at hle
    exact Int.ofNat_le.mp (hspent.le.trans hle)
  · exact (SendStream.State.popStreamFrame_cases (hb.parts e he).sound.stream hr).again hold

/-- Two streams that may send four bytes together; what the first one sent is lost, and
retransmitted in two frames. -/
def usesAllCredit : List Event :=
  [.whole (.updateSendWindow 4), .create ⟨0, 100, 100, 3⟩, .create ⟨4, 100, 100, 10⟩,
    .part 0 (.write [1, 2, 3, 4]), .part 0 (.popStreamFrame 100), .part 1 (.write [5, 6, 7]),
    .part 1 (.popStreamFrame 100), .part 0 (.onLost 0), .part 0 (.popStreamFrame 5),
    .part 0 (.popStreamFrame 100), .part 0 (.updateSendWindow 10), .part 0 (.popStreamFrame 100)]

def afterUsesAllCredit : State :=
  (usesAllCredit.foldlM (Shared.step calls) ⟨[], ⟨.new 100 100, []⟩⟩).getD ⟨[], ⟨.new 100 100, []⟩⟩

theorem send_respects_usesAllCredit : (machine 100 100).Run usesAllCredit afterUsesAllCredit ∧
      afterUsesAllCredit.parts.map (·.sender.highestSent) = [3, 1] ∧
      afterUsesAllCredit.parts.map (·.sender.sent.map (·.frame.data)) =
        [[[1, 2, 3], [1, 2], [3]], [[5]]] ∧ Respects afterUsesAllCredit := by
  have hrun : (machine 100 100).Run usesAllCredit afterUsesAllCredit :=
    Machine.run_ofStep_iff.mpr rfl
  exact ⟨hrun, rfl, rfl, send_respects hrun⟩

end Senders

end UQuic
