/-
# `UQuic.SendConservation` — a send stream neither loses nor invents bytes

Let `W` be the data that `Write` accepted so far.  Any calls may interleave, as long as
nobody cancels the stream or shuts it down.

## What is proved

For any interleaving (`send_conserves`):

    every frame popped holds the bytes of W at its offset
    every position of W lies in exactly one of: dataForWriting, nextFrame, the frames in
      flight, the retransmission queue, the frames acknowledged
    the new frames are contiguous, and the last one ends at the write offset
    a frame with FIN was popped after Close, and ends where W does
    a new frame popped after Close that ends where W does has FIN
    once the FIN was sent, exactly one frame in flight, lost or acknowledged carries it

The last but one is about new frames only: a frame that was sent before `Close`, lost, and
retransmitted after it ends where `W` does without a FIN (`retransmission_without_fin`).  The FIN
then follows in a frame of its own.

## How

`Cutting` says it of the frames that left the stream, as a list in which they may be moved and
split; what did not leave yet is `W` from the write offset on.
-/
import UQuic.Lib.Machine
import UQuic.Lib.Pieces
import UQuic.SendSteps

namespace UQuic

open List Option
open FlowControl (StreamFlowController ConnectionFlowController)
open Wire (StreamFrame)
open SendStream (State Popped)
open SendStream.State (Sendable WellFormed Pops Cut)

/-- Where the frame belongs. -/
def Wire.StreamFrame.piece (f : StreamFrame) : Piece UInt8 := ⟨f.offset, f.data⟩

/-- Each frame starts where the one before ends, from `a` to `b`. -/
def Contiguous : Nat → List StreamFrame → Nat → Prop
  | a, [], b => a = b
  | a, f :: fs, b => f.offset = a ∧ Contiguous (a + f.data.length) fs b

theorem Contiguous.snoc {f : StreamFrame} : ∀ {a b : Nat} {fs : List StreamFrame},
    Contiguous a fs b → f.offset = b → Contiguous a (fs ++ [f]) (b + f.data.length)
  | _, _, [], h, hf => ⟨hf.trans h.symm, congrArg (· + _) h⟩
  | _, _, _ :: _, h, hf => ⟨h.1, h.2.snoc hf⟩

/-! ## The frames that left the stream -/

/-- The frames `fs`, in any order, are what was cut from `w` up to the offset, and one of them
has the FIN if it was sent. -/
structure Cutting (w : List UInt8) (offset : Nat) (finSent : Bool) (fs : List StreamFrame) :
    Prop where
  of : ∀ f ∈ fs, f.piece.Of w
  tile : Piece.Tile (fs.map StreamFrame.piece) offset
  fin : fs.countP (·.fin) = if finSent then 1 else 0
  last : ∀ f ∈ fs, f.fin = true → f.offset + f.data.length = w.length

namespace Cutting

variable {offset n : Nat} {w v : List UInt8} {finSent : Bool} {fs gs : List StreamFrame}
  {f : StreamFrame}

theorem perm (h : Cutting w offset finSent fs) (hp : fs.Perm gs) : Cutting w offset finSent gs where
  of f hf := h.of f (hp.mem_iff.mpr hf)
  tile := h.tile.perm (hp.map _)
  fin := hp.countP_eq _ ▸ h.fin
  last f hf := h.last f (hp.mem_iff.mpr hf)

/-- No frame has the FIN before it was sent. -/
theorem finSent_of_fin (h : Cutting w offset finSent fs) (hf : f ∈ fs) (hfin : f.fin = true) :
    finSent = true := by
  by_contra hno
  have := h.fin
  rw [if_neg hno] at this
  exact countP_eq_zero.mp this f hf hfin

theorem append (h : Cutting w offset false fs) : Cutting (w ++ v) offset false fs where
  of f hf := (h.of f hf).append
  tile := h.tile
  fin := h.fin
  last f hf hfin := by cases h.finSent_of_fin hf hfin

theorem new (h : Cutting w offset false fs) (hof : f.piece.Of w) (hoff : f.offset = offset)
    (hlast : f.fin = true → f.offset + f.data.length = w.length) :
    Cutting w (offset + f.data.length) f.fin (f :: fs) where
  of g hg := (mem_cons.mp hg).elim (fun h => h ▸ hof) (h.of g)
  tile := h.tile.snoc hoff
  fin := by
    have := h.fin
    rw [countP_cons, this]
    cases f.fin <;> rfl
  last g hg hfin := by
    rcases mem_cons.mp hg with rfl | hg
    · exact hlast hfin
    · cases h.finSent_of_fin hg hfin

theorem split (h : Cutting w offset finSent (f :: fs)) (hn : n < f.data.length) :
    Cutting w offset finSent ((f.splitAt n).1 :: (f.splitAt n).2 :: fs) := by
  have hof := h.of f mem_cons_self
  refine ⟨fun g hg => ?_, h.tile.cut n, ?_, fun g hg hfin => ?_⟩
  · rcases mem_cons.mp hg with rfl | hg
    · exact hof.take
    · rcases mem_cons.mp hg with rfl | hg
      · exact hof.drop hn.le
      · exact h.of g (mem_cons_of_mem _ hg)
  · have hcount := h.fin
    rw [countP_cons] at hcount
    rw [countP_cons, countP_cons, ← hcount]
    rfl
  · rcases mem_cons.mp hg with rfl | hg
    · cases hfin
    · rcases mem_cons.mp hg with rfl | hg
      · have := h.last f mem_cons_self hfin
        simp only [StreamFrame.splitAt, length_drop]
        omega
      · exact h.last g (mem_cons_of_mem _ hg) hfin

/-- Whether a frame has a length field does not matter. -/
theorem lengthField (h : Cutting w offset finSent (f :: fs)) :
    Cutting w offset finSent ({ f with dataLenPresent := true } :: fs) where
  of g hg := (mem_cons.mp hg).elim (fun e => e ▸ h.of f mem_cons_self)
    fun hg => h.of g (mem_cons_of_mem _ hg)
  tile := h.tile
  fin := by
    have := h.fin
    rw [countP_cons] at this
    rw [countP_cons]
    exact this
  last g hg := (mem_cons.mp hg).elim (fun e => e ▸ h.last f mem_cons_self)
    fun hg => h.last g (mem_cons_of_mem _ hg)

end Cutting

/-! ## The stream -/

namespace SendStream.State

/-- Nobody has given up. -/
def Alive (s : State) : Prop :=
  s.finalError = none ∧ s.cancelled = false ∧ s.queuedResetStreamFrame = none

variable {s : State}

/-- A round of `Write`: the rest is buffered, or nothing was left, or it sleeps. -/
theorem writeLoop_alive (h : s.finalError = none) (len : Nat) (notified : Bool) :
    (s.writeLoop len notified).stream = s.buffer ∧ s.canBufferStreamFrame = true ∧
        s.dataForWriting ≠ [] ∧ (s.writeLoop len notified).result ≠ none ∨
      (s.writeLoop len notified).stream = s ∧
        ((s.writeLoop len notified).result ≠ none → s.dataForWriting = []) := by
  simp only [writeLoop, h]
  split
  · rename_i hcan
    exact .inl ⟨rfl, hcan.1, hcan.2, fun h => by cases h⟩
  · split_ifs with hnil
    · exact .inr ⟨rfl, fun _ => hnil⟩
    · exact .inr ⟨rfl, fun h => absurd rfl h⟩

end SendStream.State

/-! ## The invariant -/

namespace WriteEnd

def frames (e : WriteEnd) : List StreamFrame :=
  e.inFlight ++ e.stream.retransmissionQueue ++ e.acked

def newFrames (sent : List SentFrame) : List StreamFrame := (sent.filter (·.fresh)).map (·.frame)

/-- What is true of a frame after it was popped. -/
structure Logged (w : List UInt8) (finished : Bool) (t : SentFrame) : Prop where
  of : t.frame.piece.Of w
  fin : t.frame.fin = true → finished = true ∧ t.frame.offset + t.frame.data.length = w.length
  closed : t.closed = true → finished = true
  last : t.fresh = true → t.closed = true →
    t.frame.offset + t.frame.data.length = w.length → t.frame.fin = true

/-- All bytes are accounted for. -/
structure Conserved (e : WriteEnd) : Prop where
  alive : e.stream.Alive
  offset : e.stream.writeOffset ≤ e.written.length
  rest : e.written.drop e.stream.writeOffset = e.stream.pending
  outstanding : e.stream.numOutstandingFrames = e.inFlight.length
  frames : Cutting e.written e.stream.writeOffset e.stream.finSent e.frames
  closed : e.stream.finSent = true → e.stream.finishedWriting = true ∧ e.stream.pending = []
  sent : ∀ t ∈ e.sent, Logged e.written e.stream.finishedWriting t
  fresh : Contiguous 0 (newFrames e.sent) e.stream.writeOffset
  noResets : e.resets = []

variable {t : SentFrame}

theorem Logged.append {w v : List UInt8} (h : Logged w false t) : Logged (w ++ v) false t where
  of := h.of.append
  fin hfin := by cases (h.fin hfin).1
  closed := h.closed
  last _ hclosed := by cases h.closed hclosed

theorem Logged.finish {w : List UInt8} {finished : Bool} (h : Logged w finished t) :
    Logged w true t where
  of := h.of
  fin hfin := ⟨rfl, (h.fin hfin).2⟩
  closed _ := rfl
  last := h.last

namespace Conserved

variable {e : WriteEnd} {conn : ConnectionFlowController} {p : List UInt8}
  {num : Int} {sent : List SentFrame}

theorem finSent_of_open (h : Conserved e) (hopen : e.stream.finishedWriting = false) :
    e.stream.finSent = false := by
  by_contra hsent
  rw [(h.closed (Bool.not_eq_false _ |>.mp hsent)).1] at hopen
  cases hopen

theorem elsewhere (h : Conserved e) {completed writeChan : Bool} {fc : StreamFlowController}
    {writing : Option Nat} {results : List SendStream.WriteResult} :
    Conserved { e with
      stream := { e.stream with
        completed := completed, writeChan := writeChan, flowController := fc }
      writing := writing
      results := results } :=
  { h with }

theorem isNewlyCompleted (h : Conserved e) :
    Conserved { e with stream := e.stream.isNewlyCompleted.1 } := by
  rw [State.isNewlyCompleted_fst]
  exact h.elsewhere

theorem accept (h : Conserved e) (hidle : e.stream.dataForWriting = [])
    (hopen : e.stream.finishedWriting = false) :
    Conserved { e with
      stream := { e.stream with dataForWriting := p }
      written := e.written ++ p } := by
  have hsent := h.finSent_of_open hopen
  have hframes := h.frames
  rw [hsent] at hframes
  refine ⟨h.alive, ?_, ?_, h.outstanding, ?_, fun hfin => ?_, fun t ht => ?_, h.fresh, h.noResets⟩
  · show e.stream.writeOffset ≤ (e.written ++ p).length
    rw [length_append]
    exact h.offset.trans (Nat.le_add_right _ _)
  · show (e.written ++ p).drop e.stream.writeOffset = e.stream.buffered ++ p
    rw [drop_append_of_le_length h.offset, h.rest, State.pending, hidle, append_nil]
  · show Cutting (e.written ++ p) e.stream.writeOffset e.stream.finSent e.frames
    rw [hsent]
    exact hframes.append
  · have hfin : e.stream.finSent = true := hfin
    rw [hsent] at hfin
    cases hfin
  · have ht := h.sent t ht
    show Logged (e.written ++ p) e.stream.finishedWriting t
    rw [hopen] at ht ⊢
    exact ht.append

theorem buffer (h : Conserved e) : Conserved { e with stream := e.stream.buffer } where
  alive := h.alive
  offset := h.offset
  rest := h.rest.trans State.pending_buffer.symm
  outstanding := h.outstanding
  frames := h.frames
  closed hfin := ⟨(h.closed hfin).1, State.pending_buffer.trans (h.closed hfin).2⟩
  sent := h.sent
  fresh := h.fresh
  noResets := h.noResets

/-- `Write` sleeps whenever data is left. -/
def Idle (e : WriteEnd) : Prop := e.writing = none → e.stream.dataForWriting = []

theorem settle (h : Conserved e) (conn : ConnectionFlowController) (len : Nat) (notified : Bool) :
    Conserved (e.settle conn len (e.stream.writeLoop len notified)).sender ∧
      Idle (e.settle conn len (e.stream.writeLoop len notified)).sender := by
  rcases State.writeLoop_alive h.alive.1 len notified with
    ⟨hstream, hcan, hd, hresult⟩ | ⟨hstream, hresult⟩
  · refine ⟨?_, fun _ => ?_⟩
    · show Conserved { e with stream := _, writing := _, results := _ }
      rw [hstream]
      exact h.buffer.elsewhere
    · show (e.stream.writeLoop len notified).stream.dataForWriting = []
      rw [hstream]
      rfl
  · refine ⟨?_, fun hidle => ?_⟩
    · show Conserved { e with stream := _, writing := _, results := _ }
      rw [hstream]
      exact h.elsewhere
    · show (e.stream.writeLoop len notified).stream.dataForWriting = []
      rw [hstream]
      refine hresult fun hno => ?_
      simp only [WriteEnd.settle, hno] at hidle
      cases hidle

theorem write (h : Conserved e) (hidle : Idle e) (hno : e.writing = none) (p : List UInt8) :
    let c := { e with written := e.written ++ e.accepted p }.settle conn p.length (e.stream.write p)
    Conserved c.sender ∧ Idle c.sender := by
  intro c
  have hdata := hidle hno
  by_cases hopen : e.stream.finishedWriting = false
  · have haccept : e.accepted p = p := if_pos ⟨h.alive.1, hopen⟩
    have hmore := h.accept (p := p) hdata hopen
    by_cases hp : p = []
    · -- an empty `Write` returns at once
      subst hp
      simp only [c, State.write, h.alive.1, hopen, haccept, append_nil]
      exact ⟨h.elsewhere, fun _ => hdata⟩
    · have hwrite : e.stream.write p =
          { e.stream with dataForWriting := p }.writeLoop p.length false := by
        simp only [State.write, h.alive.1, hopen, hp, if_false, Bool.false_eq_true]
      simp only [c, hwrite, haccept]
      exact hmore.settle conn p.length false
  · have hfinished := Bool.not_eq_false _ |>.mp hopen
    have hrefuse : e.accepted p = [] := if_neg fun hopen' => hopen hopen'.2
    simp only [c, State.write, h.alive.1, hfinished, hrefuse, if_true, append_nil]
    exact ⟨h.elsewhere, fun _ => hdata⟩

theorem close (h : Conserved e) : Conserved { e with stream := e.stream.close.1 } := by
  rw [State.close]
  split_ifs with hopen
  · exact h
  · have hclosed : Conserved { e with stream := { e.stream with
        finishedWriting := true
        cancellationFlagged := e.stream.cancellationFlagged || e.stream.cancelled } } :=
      ⟨h.alive, h.offset, h.rest, h.outstanding, h.frames,
        fun hfin => ⟨rfl, (h.closed hfin).2⟩, fun t ht => (h.sent t ht).finish, h.fresh, h.noResets⟩
    exact hclosed.isNewlyCompleted

/-- A frame that is sent again. -/
theorem logged_again {f : StreamFrame} (h : Conserved e) (hof : f.piece.Of e.written)
    (hfin : f.fin = true → f ∈ e.frames) :
    Logged e.written e.stream.finishedWriting ⟨f, false, e.stream.finishedWriting⟩ where
  of := hof
  fin h1 := ⟨(h.closed (h.frames.finSent_of_fin (hfin h1) h1)).1, h.frames.last f (hfin h1) h1⟩
  closed h1 := h1
  last h1 := by cases h1

theorem sent_snoc {w : List UInt8} {finished : Bool}
    (h : ∀ t ∈ sent, Logged w finished t) (ht : Logged w finished t) :
    ∀ u ∈ sent ++ [t], Logged w finished u := by
  intro u hu
  rcases mem_append.mp hu with hu | hu
  · exact h u hu
  · exact mem_singleton.mp hu ▸ ht

theorem newFrames_again {f : StreamFrame} {closed : Bool} :
    newFrames (sent ++ [⟨f, false, closed⟩]) = newFrames sent := by
  rw [newFrames, filter_append]
  exact congrArg _ (append_nil _)

theorem newFrames_new {f : StreamFrame} {closed : Bool} :
    newFrames (sent ++ [⟨f, true, closed⟩]) = newFrames sent ++ [f] := by
  rw [newFrames, filter_append, map_append]
  rfl

theorem retransmit {f : StreamFrame} {rest : List StreamFrame} (h : Conserved e)
    (hq : e.stream.retransmissionQueue = f :: rest)
    (hnum : num = e.stream.numOutstandingFrames + 1) :
    Conserved { e with
      stream := { e.stream with retransmissionQueue := rest, numOutstandingFrames := num }
      inFlight := e.inFlight ++ [f]
      sent := e.sent ++ [⟨f, false, e.stream.finishedWriting⟩] } := by
  have hmem : f ∈ e.frames := by
    rw [WriteEnd.frames, hq]
    exact mem_append_left _ (mem_append_right _ mem_cons_self)
  refine ⟨h.alive,
    h.offset, h.rest, ?_, ?_, h.closed,
    sent_snoc h.sent (h.logged_again (h.frames.of f hmem) fun _ => hmem),
    ?_, h.noResets⟩
  · show num = ((e.inFlight ++ [f]).length : Int)
    rw [hnum, h.outstanding, length_append]
    rfl
  · have hframes := h.frames
    rw [WriteEnd.frames, hq] at hframes
    show Cutting e.written e.stream.writeOffset e.stream.finSent
      (e.inFlight ++ [f] ++ rest ++ e.acked)
    rwa [append_assoc e.inFlight [f]]
  · show Contiguous 0 (newFrames (e.sent ++ [_])) e.stream.writeOffset
    rw [newFrames_again]
    exact h.fresh

theorem splitLost {f : StreamFrame} {rest : List StreamFrame} {n : Nat}
    (h : Conserved e) (hq : e.stream.retransmissionQueue = f :: rest) (hn : n < f.data.length)
    (hnum : num = e.stream.numOutstandingFrames + 1) :
    Conserved { e with
      stream := { e.stream with
        retransmissionQueue := (f.splitAt n).2 :: rest, numOutstandingFrames := num }
      inFlight := e.inFlight ++ [(f.splitAt n).1]
      sent := e.sent ++ [⟨(f.splitAt n).1, false, e.stream.finishedWriting⟩] } := by
  have hframes := h.frames
  rw [WriteEnd.frames, hq] at hframes
  have hperm : (e.inFlight ++ f :: rest ++ e.acked).Perm
      (f :: (e.inFlight ++ rest ++ e.acked)) := by
    simp only [append_assoc, cons_append]
    exact perm_middle
  have hcut := (hframes.perm hperm).split hn
  have hback : ((f.splitAt n).1 :: (f.splitAt n).2 :: (e.inFlight ++ rest ++ e.acked)).Perm
      (e.inFlight ++ [(f.splitAt n).1] ++ (f.splitAt n).2 :: rest ++ e.acked) := by
    simp only [append_assoc, cons_append, nil_append]
    exact (perm_middle.trans (perm_middle.cons _)).symm
  refine ⟨h.alive, h.offset, h.rest, ?_, hcut.perm hback, h.closed,
    sent_snoc h.sent (h.logged_again (hcut.of _ mem_cons_self) fun h => by cases h), ?_, h.noResets⟩
  · show num = ((e.inFlight ++ [_]).length : Int)
    rw [hnum, h.outstanding, length_append]
    rfl
  · show Contiguous 0 (newFrames (e.sent ++ [_])) e.stream.writeOffset
    rw [newFrames_again]
    exact h.fresh

/-- A new frame, cut from what was left. -/
theorem send {f : StreamFrame} {s' : State} (h : Conserved e) (halive : s'.Alive)
    (hq : s'.retransmissionQueue = e.stream.retransmissionQueue)
    (hfinished : s'.finishedWriting = e.stream.finishedWriting)
    (hnum : s'.numOutstandingFrames = e.stream.numOutstandingFrames + 1)
    (hoff : s'.writeOffset = e.stream.writeOffset + f.data.length)
    (hpending : e.stream.pending = f.data ++ s'.pending) (hstart : f.offset = e.stream.writeOffset)
    (hunsent : e.stream.finSent = false)
    (hfin : f.fin = (e.stream.finishedWriting && s'.pending.isEmpty)) (hsent : s'.finSent = f.fin) :
    Conserved { e with
      stream := s'
      inFlight := e.inFlight ++ [f]
      sent := e.sent ++ [⟨f, true, e.stream.finishedWriting⟩] } := by
  have hle := h.offset
  have hrest : e.written.drop f.piece.offset = f.piece.data ++ s'.pending := by
    show e.written.drop f.offset = f.data ++ s'.pending
    rw [hstart, h.rest, hpending]
  have hof : f.piece.Of e.written := Piece.of_drop hrest (hstart.le.trans hle)
  have hlen : e.written.length = e.stream.writeOffset + f.data.length + s'.pending.length := by
    have := congrArg List.length (h.rest.trans hpending)
    rw [length_drop, length_append] at this
    omega
  -- the FIN is set exactly if nothing follows
  have hfin_iff : f.fin = true ↔ e.stream.finishedWriting = true ∧
      f.offset + f.data.length = e.written.length := by
    rw [hfin, Bool.and_eq_true, List.isEmpty_iff, ← length_eq_zero_iff, hstart, hlen]
    refine and_congr_right fun _ => ?_
    omega
  have hframes := h.frames
  rw [hunsent] at hframes
  have hnew := hframes.new hof hstart fun h1 => (hfin_iff.mp h1).2
  refine ⟨halive, ?_, ?_, ?_, ?_, ?_, ?_, ?_, h.noResets⟩
  · show s'.writeOffset ≤ e.written.length
    omega
  · show e.written.drop s'.writeOffset = s'.pending
    rw [hoff, ← drop_drop, h.rest, hpending, drop_left]
  · show s'.numOutstandingFrames = ((e.inFlight ++ [f]).length : Int)
    rw [hnum, h.outstanding, length_append]
    rfl
  · show Cutting e.written s'.writeOffset s'.finSent
      (e.inFlight ++ [f] ++ s'.retransmissionQueue ++ e.acked)
    rw [hoff, hsent, hq]
    refine hnew.perm ?_
    simp only [WriteEnd.frames, append_assoc, cons_append, nil_append]
    exact perm_middle.symm
  · intro hsent'
    have hsent' : s'.finSent = true := hsent'
    rw [hsent] at hsent'
    refine ⟨hfinished.trans (hfin_iff.mp hsent').1, ?_⟩
    rw [hfin, Bool.and_eq_true, List.isEmpty_iff] at hsent'
    exact hsent'.2
  · show ∀ t ∈ e.sent ++ [_], Logged e.written s'.finishedWriting t
    rw [hfinished]
    exact sent_snoc h.sent ⟨hof, hfin_iff.mp, id,
      fun _ hclosed hend => hfin_iff.mpr ⟨hclosed, hend⟩⟩
  · show Contiguous 0 (newFrames (e.sent ++ [_])) s'.writeOffset
    rw [newFrames_new, hoff]
    exact h.fresh.snoc hstart

/-- **Popping a frame loses nothing.** -/
theorem pop {maxBytes : Int} {r : Popped} (h : Conserved e)
    (hp : Pops e.stream conn maxBytes r) : Conserved (e.popped r) := by
  cases hp with
  | nothing =>
    simp only [popped, State.popNothing, toList_none, append_nil, map_nil]
    exact h
  | retransmit queue => exact h.retransmit queue rfl
  | split queue _ short => exact h.splitLost queue short rfl
  | fin lost next data finished unsent =>
    have hpending : e.stream.pending = [] := by rw [State.pending_none next, data]
    refine h.send (f := { e.stream.emptyFrame with fin := true })
      h.alive
      rfl rfl rfl rfl rfl rfl unsent ?_ rfl
    show true = (e.stream.finishedWriting && e.stream.pending.isEmpty)
    rw [finished, hpending]
    rfl
  | @new s₁ f more lost cut =>
    have hunsent : e.stream.finSent = false := by
      by_contra hsent
      have hnil := (h.closed (Bool.not_eq_false _ |>.mp hsent)).2
      rw [cut.pending] at hnil
      exact cut.nonempty (append_eq_nil_iff.mp hnil).1
    have hunsent₁ : s₁.finSent = false := by
      rw [cut.same]
      exact hunsent
    have hfinished : s₁.finishedWriting = e.stream.finishedWriting := by rw [cut.same]
    have hempty : (s₁.dataForWriting.isEmpty && s₁.nextFrame.isNone) = s₁.pending.isEmpty := by
      cases hn : s₁.nextFrame with
      | none => rw [State.pending_none hn, isNone_none, Bool.and_true]
      | some g =>
        rw [State.pending_some hn, isNone_some, Bool.and_false, eq_comm, isEmpty_eq_false_iff]
        exact append_ne_nil_of_left_ne_nil (cut.next g hn).nonempty _
    refine h.send (f := { f with fin := s₁.finishedWriting && s₁.dataForWriting.isEmpty &&
        s₁.nextFrame.isNone && !s₁.finSent }) ?_ ?_ hfinished ?_ ?_
      cut.pending cut.offset hunsent ?_ ?_
    · show s₁.Alive
      rw [cut.same]
      exact h.alive
    · show s₁.retransmissionQueue = e.stream.retransmissionQueue
      rw [cut.same]
    · show s₁.numOutstandingFrames + 1 = e.stream.numOutstandingFrames + 1
      rw [cut.same]
    · show s₁.writeOffset + f.data.length = e.stream.writeOffset + f.data.length
      rw [cut.same]
    · show (s₁.finishedWriting && s₁.dataForWriting.isEmpty && s₁.nextFrame.isNone && !s₁.finSent) =
        (e.stream.finishedWriting && s₁.pending.isEmpty)
      rw [hunsent₁, Bool.and_assoc s₁.finishedWriting, hempty, hfinished]
      exact Bool.and_true _
    · show (s₁.finSent || _) = _
      rw [hunsent₁]
      exact Bool.false_or _

/-- A frame in flight, in front of the others. -/
theorem perm_inFlight {i : Nat} {f : StreamFrame} (hf : e.inFlight[i]? = some f) :
    e.frames.Perm (f :: (e.inFlight.eraseIdx i ++ e.stream.retransmissionQueue ++ e.acked)) := by
  obtain ⟨hi, rfl⟩ := List.getElem?_eq_some_iff.mp hf
  have hperm := (getElem_cons_eraseIdx_perm hi).symm
  exact (hperm.append_right _).append_right _

theorem length_eraseIdx {i : Nat} {f : StreamFrame} (h : Conserved e)
    (hf : e.inFlight[i]? = some f) :
    e.stream.numOutstandingFrames - 1 = ((e.inFlight.eraseIdx i).length : Int) := by
  obtain ⟨hi, -⟩ := List.getElem?_eq_some_iff.mp hf
  rw [h.outstanding, length_eraseIdx_of_lt hi]
  omega

theorem acked {i : Nat} {f : StreamFrame} (h : Conserved e)
    (hf : e.inFlight[i]? = some f) (hnum : num = e.stream.numOutstandingFrames - 1) :
    Conserved { e with
      stream := { e.stream with numOutstandingFrames := num }
      inFlight := e.inFlight.eraseIdx i
      acked := f :: e.acked } := by
  refine { h with outstanding := hnum.trans (h.length_eraseIdx hf), frames := ?_ }
  exact (h.frames.perm (perm_inFlight hf)).perm perm_middle.symm

theorem lost {i : Nat} {f : StreamFrame} (h : Conserved e)
    (hf : e.inFlight[i]? = some f) (hnum : num = e.stream.numOutstandingFrames - 1) :
    Conserved { e with
      stream := { e.stream with
        retransmissionQueue := e.stream.retransmissionQueue ++ [{ f with dataLenPresent := true }]
        numOutstandingFrames := num }
      inFlight := e.inFlight.eraseIdx i } := by
  have hframes := (h.frames.perm (perm_inFlight hf)).lengthField
  refine { h with outstanding := hnum.trans (h.length_eraseIdx hf), frames := hframes.perm ?_ }
  show (_ :: (e.inFlight.eraseIdx i ++ e.stream.retransmissionQueue ++ e.acked)).Perm
    (e.inFlight.eraseIdx i ++ (e.stream.retransmissionQueue ++ [_]) ++ e.acked)
  simp only [← append_assoc]
  rw [append_assoc _ [_] e.acked]
  exact perm_middle.symm

end Conserved

/-! ## Runs -/

/-- What can happen: a call to the stream, or the connection's flow controller changes because of
another stream or a MAX_DATA frame. -/
inductive Event
  | call (c : Call)
  | elsewhere (conn : ConnectionFlowController)

def step (s : WriteEnd × ConnectionFlowController) :
    Event → Option (WriteEnd × ConnectionFlowController)
  | .call c => (s.1.call s.2 c).map fun r => (r.sender, r.conn)
  | .elsewhere conn => some (s.1, conn)

def machine (streamID : Nat) (fc : StreamFlowController) (conn : ConnectionFlowController) :
    Machine (WriteEnd × ConnectionFlowController) Event :=
  .ofStep (new streamID fc, conn) step

/-- Nobody gives up, and a frame fits a packet buffer. -/
def Sends (_ : WriteEnd × ConnectionFlowController) : Event → Prop
  | .call (.cancelWrite _ _) | .call .closeForShutdown => False
  | .call (.popStreamFrame maxBytes) => maxBytes ≤ maxPacketBufferSize
  | _ => True

instance (s : WriteEnd × ConnectionFlowController) : (ev : Event) → Decidable (Sends s ev)
  | .call (.cancelWrite _ _) | .call .closeForShutdown => .isFalse id
  | .call (.popStreamFrame _) => inferInstanceAs (Decidable (_ ≤ _))
  | .call (.write _) | .call .wake | .call .close | .call (.onAcked _) | .call (.onLost _)
  | .call (.updateSendWindow _) | .call .getControlFrame | .call (.onResetAcked _)
  | .call (.onResetLost _) | .elsewhere _ => .isTrue trivial

open Conserved (Idle)

theorem conserved_new (streamID : Nat) (fc : StreamFlowController) :
    Conserved (new streamID fc) where
  alive := ⟨rfl, rfl, rfl⟩
  offset := Nat.le_refl 0
  rest := rfl
  outstanding := rfl
  frames := ⟨(fun _ h => by cases h), Piece.tile_nil, rfl, fun _ h => by cases h⟩
  closed h := by cases h
  sent _ h := by cases h
  fresh := rfl
  noResets := rfl

theorem call_conserved {e : WriteEnd} {conn : ConnectionFlowController} {c : Call} {r : Called}
    (hs : e.Sound) (h : Conserved e) (hidle : Idle e) (hc : Sends (e, conn) (.call c))
    (hr : e.call conn c = some r) : Conserved r.sender ∧ Idle r.sender := by
  have hcancelled := h.alive.2.1
  cases c with
  | write p =>
    simp only [call] at hr
    split_ifs at hr with hno
    cases hr
    exact h.write hidle (not_isSome_iff_eq_none.mp hno) p
  | wake =>
    obtain ⟨len, hwriting, hr⟩ := bind_eq_some_iff.mp hr
    split_ifs at hr
    cases hr
    have hwoken : Conserved { e with stream := { e.stream with writeChan := false } } := h.elsewhere
    exact hwoken.settle conn len true
  | close =>
    cases hr
    refine ⟨h.close, fun hno => ?_⟩
    show e.stream.close.1.dataForWriting = []
    rw [State.close]
    split
    · exact hidle hno
    · dsimp only
      rw [State.isNewlyCompleted_fst]
      exact hidle hno
  | popStreamFrame maxBytes =>
    obtain ⟨p, hp, rfl⟩ := map_eq_some_iff.mp hr
    have hpops := State.popStreamFrame_cases hs.stream hp
    exact ⟨h.pop hpops, fun hno => hpops.idle (hidle hno)⟩
  | onAcked i =>
    obtain ⟨f, hf, hr⟩ := bind_eq_some_iff.mp hr
    obtain ⟨p, hp, rfl⟩ := map_eq_some_iff.mp hr
    rcases State.onAcked_cases hp with ⟨hyes, -⟩ | ⟨-, rfl⟩
    · rw [hcancelled] at hyes
      cases hyes
    · refine ⟨(h.acked hf rfl).isNewlyCompleted, fun hno => ?_⟩
      show (State.isNewlyCompleted _).1.dataForWriting = []
      rw [State.isNewlyCompleted_fst]
      exact hidle hno
  | onLost i =>
    obtain ⟨f, hf, hr⟩ := bind_eq_some_iff.mp hr
    obtain ⟨p, hp, rfl⟩ := map_eq_some_iff.mp hr
    rcases State.onLost_cases hp with ⟨hyes, -⟩ | ⟨-, rfl⟩
    · rw [hcancelled] at hyes
      cases hyes
    · exact ⟨h.lost hf rfl, hidle⟩
  | updateSendWindow limit =>
    cases hr
    exact ⟨h.elsewhere, hidle⟩
  | cancelWrite | closeForShutdown => exact hc.elim
  | getControlFrame =>
    cases hr
    simp only [State.getControlFrame, h.alive.2.2, toList_none, append_nil]
    exact ⟨h, hidle⟩
  | onResetAcked i =>
    obtain ⟨f, hf, -⟩ := bind_eq_some_iff.mp hr
    rw [h.noResets] at hf
    cases hf
  | onResetLost i =>
    obtain ⟨f, hf, -⟩ := map_eq_some_iff.mp hr
    rw [h.noResets] at hf
    cases hf

theorem run_conserved {streamID : Nat} {fc : StreamFlowController}
    {conn : ConnectionFlowController} {tr : List Event} {s : WriteEnd × ConnectionFlowController}
    (hrun : ((machine streamID fc conn).guard Sends).Run tr s) :
    s.1.Sound ∧ Conserved s.1 ∧ Idle s.1 := by
  refine Machine.Run.stable (I := fun s => s.1.Sound ∧ Conserved s.1 ∧ Idle s.1) ?_ ?_ hrun
  · rintro s rfl
    exact ⟨sound_new streamID fc, conserved_new streamID fc, fun _ => rfl⟩
  · rintro ⟨e, conn⟩ ev s' ⟨hs, h, hidle⟩ ⟨hok, hstep⟩
    cases ev with
    | call c =>
      obtain ⟨r, hr, rfl⟩ := map_eq_some_iff.mp hstep
      exact ⟨hs.call hr, call_conserved hs h hidle hok hr⟩
    | elsewhere conn' =>
      cases hstep
      exact ⟨hs, h, hidle⟩

/-! ## Conservation -/

/-- The data that `Write` has not handed over, at the end of what it accepted. -/
def unsent (e : WriteEnd) : Piece UInt8 :=
  ⟨e.written.length - e.stream.dataForWriting.length, e.stream.dataForWriting⟩

/-- Every place where data can be. -/
def places (e : WriteEnd) : List (Piece UInt8) :=
  e.unsent :: e.stream.nextFrame.toList.map StreamFrame.piece ++ e.frames.map StreamFrame.piece

/-- What is meant by conservation. -/
structure Conserves (e : WriteEnd) : Prop where
  data : ∀ t ∈ e.sent, t.frame.piece.Of e.written
  held : ∀ p ∈ e.places, p.Of e.written
  once : ∀ i < e.written.length, Piece.coverage e.places i = 1
  fresh : Contiguous 0 (newFrames e.sent) e.stream.writeOffset
  fin : ∀ t ∈ e.sent, t.frame.fin = true → e.stream.finishedWriting = true ∧
    t.frame.offset + t.frame.data.length = e.written.length
  last : ∀ t ∈ e.sent, t.fresh = true → t.closed = true →
    t.frame.offset + t.frame.data.length = e.written.length → t.frame.fin = true
  one : e.frames.countP (·.fin) = if e.stream.finSent then 1 else 0

theorem Conserved.tile {e : WriteEnd} (h : Conserved e) (hs : e.Sound) :
    Piece.Tile e.places e.written.length := by
  have hlen := congrArg List.length h.rest
  rw [length_drop] at hlen
  have hle := h.offset
  have htile := h.frames.tile
  cases hn : e.stream.nextFrame with
  | none =>
    rw [State.pending_none hn] at hlen
    have hu : e.unsent.offset = e.stream.writeOffset := by
      show e.written.length - e.stream.dataForWriting.length = e.stream.writeOffset
      omega
    have := htile.snoc hu
    rw [show e.stream.writeOffset + e.unsent.data.length = e.written.length by
      show e.stream.writeOffset + e.stream.dataForWriting.length = e.written.length
      omega] at this
    rwa [places, hn]
  | some f =>
    rw [State.pending_some hn, length_append] at hlen
    have hf : f.piece.offset = e.stream.writeOffset := (hs.stream.next f hn).offset
    have hu : e.unsent.offset = e.stream.writeOffset + f.piece.data.length := by
      show e.written.length - e.stream.dataForWriting.length = e.stream.writeOffset + f.data.length
      omega
    have := (htile.snoc hf).snoc hu
    rw [show e.stream.writeOffset + f.piece.data.length + e.unsent.data.length = e.written.length by
      show e.stream.writeOffset + f.data.length + e.stream.dataForWriting.length = e.written.length
      omega] at this
    rwa [places, hn]

theorem Conserved.held {e : WriteEnd} (h : Conserved e) (hs : e.Sound) :
    ∀ p ∈ e.places, p.Of e.written := by
  have hwritten : e.written = e.written.take e.stream.writeOffset ++ e.stream.buffered ++
      e.stream.dataForWriting := by
    rw [append_assoc, ← State.pending, ← h.rest, take_append_drop]
  intro p hp
  rcases mem_append.mp hp with hp | hp
  · rcases mem_cons.mp hp with rfl | hp
    · refine ⟨_, [], hwritten.trans (append_nil _).symm, ?_⟩
      have hlen := congrArg List.length hwritten
      rw [length_append] at hlen
      show _ = e.written.length - e.stream.dataForWriting.length
      omega
    · obtain ⟨f, hf, rfl⟩ := mem_map.mp hp
      have hf := mem_toList.mp hf
      refine ⟨e.written.take e.stream.writeOffset, e.stream.dataForWriting, ?_, ?_⟩
      · rw [State.buffered, hf] at hwritten
        exact hwritten
      · show _ = f.offset
        rw [(hs.stream.next f hf).offset, length_take, Nat.min_eq_left h.offset]
  · obtain ⟨f, hf, rfl⟩ := mem_map.mp hp
    exact h.frames.of f hf

/-- **A send stream conserves the bytes** that `Write` accepted, under any interleaving of calls,
and the FIN. -/
theorem send_conserves {streamID : Nat} {fc : StreamFlowController}
    {conn : ConnectionFlowController} {tr : List Event} {s : WriteEnd × ConnectionFlowController}
    (hrun : ((machine streamID fc conn).guard Sends).Run tr s) : Conserves s.1 := by
  obtain ⟨hs, h, -⟩ := run_conserved hrun
  refine ⟨fun t ht => (h.sent t ht).of, h.held hs, fun i hi => ?_, h.fresh,
    fun t ht => (h.sent t ht).fin,
    fun t ht => (h.sent t ht).last, h.frames.fin⟩
  rw [h.tile hs i, if_pos hi]

/-- A stream that may send a hundred bytes. -/
def hundredBytes : WriteEnd × ConnectionFlowController :=
  (new 0 (.new 0 100 100 100), { ConnectionFlowController.new 100 100 with sendWindow := 100 })

/-- Three bytes, of which two are sent, lost, and retransmitted in two frames; the third one is
sent after `Close`. -/
def lostAndSplit : List Event :=
  [.call (.write [1, 2, 3]), .call (.popStreamFrame 5), .call (.onLost 0), .call .close,
    .call (.popStreamFrame 4), .call (.popStreamFrame 100), .call (.popStreamFrame 100),
    .call (.onAcked 1)]

theorem run_lostAndSplit :
    ((machine 0 hundredBytes.1.stream.flowController hundredBytes.2).guard Sends).Run lostAndSplit
      ((lostAndSplit.foldlM step hundredBytes).getD hundredBytes) := by
  rw [machine, Machine.run_guard_iff]
  rfl

theorem send_conserves_lostAndSplit :
    ∃ s, ((machine 0 hundredBytes.1.stream.flowController hundredBytes.2).guard Sends).Run
        lostAndSplit s ∧ s.1.sent.map (·.frame.data) = [[1, 2], [1], [2], [3]] ∧
      s.1.frames.map (·.data) = [[1], [3], [2]] ∧ Conserves s.1 :=
  ⟨_, run_lostAndSplit, rfl, rfl, send_conserves run_lostAndSplit⟩

/-- Two bytes that are sent, lost, and retransmitted after `Close`. -/
def lostBeforeClose : List Event :=
  [.call (.write [1, 2]), .call (.popStreamFrame 100), .call (.onLost 0), .call .close,
    .call (.popStreamFrame 100)]

theorem run_lostBeforeClose :
    ((machine 0 hundredBytes.1.stream.flowController hundredBytes.2).guard Sends).Run
      lostBeforeClose ((lostBeforeClose.foldlM step hundredBytes).getD hundredBytes) := by
  rw [machine, Machine.run_guard_iff]
  rfl

/-- The retransmission was popped after `Close`, and ends where the data does, without a FIN. -/
theorem retransmission_without_fin :
    ∃ s, ((machine 0 hundredBytes.1.stream.flowController hundredBytes.2).guard Sends).Run
        lostBeforeClose s ∧ ∃ t ∈ s.1.sent, t.closed = true ∧
        t.frame.offset + t.frame.data.length = s.1.written.length ∧ t.frame.fin = false :=
  ⟨_, run_lostBeforeClose, ⟨⟨0, 0, [1, 2], false, true⟩, false, true⟩, by decide, rfl, rfl, rfl⟩

end WriteEnd

end UQuic
