/-
# `UQuic.SendSteps` — what each call to a send stream does

    popStreamFrame    nothing, a lost frame, the start of one, a lone FIN, or the start
                      of what is pending                                (`Pops`)
    the other calls   leave the credit and the write offset alone       (`Keeps`)

`WellFormed` is what every call keeps about the frames of a stream, and `Sound` adds the
frames in flight.

## What is proved

    popStreamFrame_cases     popping does one of the five
    Pops.drained             if it announces no more data, there is none
    toSendStream             it keeps the promise on which the framer relies
    WriteEnd.call_spends     a call pops a frame, updates the window, or keeps the credit
    WriteEnd.Sound.call      every call keeps the frames sound
-/
import UQuic.SendStream

namespace UQuic

open List Option
open FlowControl (StreamFlowController ConnectionFlowController)
open Wire (StreamFrame)

namespace Wire.StreamFrame

/-! ## How much fits -/

variable {f : StreamFrame} {maxSize : Int}

theorem size_eq (f : StreamFrame) :
    f.size = f.headerLen + f.data.length + QuicVarint.excess f.dataLenPresent f.data.length := by
  have hpos := QuicVarint.size_pos f.data.length
  simp only [size, fields, headerLen, QuicVarint.excess, map_append, sum_append, sum_size_ite,
    map_cons, map_nil, sum_cons, sum_nil]
  split_ifs <;> omega

theorem maxDataLen_eq_room :
    f.maxDataLen maxSize = QuicVarint.room f.headerLen f.dataLenPresent maxSize := rfl

theorem maxDataLen_nonneg : 0 ≤ f.maxDataLen maxSize := maxDataLen_eq_room ▸ QuicVarint.room_nonneg

/-- Data of at most `MaxDataLen` bytes makes a frame that fits, if there is some or room for it. -/
theorem size_le_of_maxDataLen (hne : f.data ≠ [] ∨ f.maxDataLen maxSize ≠ 0)
    (hdata : f.data.length ≤ maxPacketBufferSize) (h : f.data.length ≤ f.maxDataLen maxSize) :
    (f.size : Int) ≤ maxSize := by
  rw [size_eq]
  exact QuicVarint.fits_of_le_room h (hdata.trans (by decide))
    (hne.imp_left length_pos_iff.mpr)

/-- A frame that is returned whole fits. -/
theorem size_le_of_fits (h : f.maybeSplitOffFrame maxSize = .fits) : (f.size : Int) ≤ maxSize := by
  rw [maybeSplitOffFrame] at h
  split at h
  · assumption
  · dsimp only at h
    split at h <;> cases h

/-- Both parts of a frame that is split have data. -/
theorem maybeSplitOffFrame_split {new rest : StreamFrame}
    (hdata : f.data.length ≤ maxPacketBufferSize)
    (h : f.maybeSplitOffFrame maxSize = .split new rest) :
    ∃ n : Nat, 0 < n ∧ n < f.data.length ∧ n = f.maxDataLen maxSize ∧
      (new, rest) = f.splitAt n := by
  rw [maybeSplitOffFrame] at h
  split_ifs at h with hbig
  dsimp only at h
  split_ifs at h with hne
  have hnonneg : 0 ≤ f.maxDataLen maxSize := maxDataLen_nonneg
  have hlt : f.maxDataLen maxSize < f.data.length := Int.not_le.mp fun hle =>
    hbig (size_le_of_maxDataLen (.inr hne) hdata hle)
  cases h
  exact ⟨(f.maxDataLen maxSize).toNat, by omega, by omega, by omega, rfl⟩

end Wire.StreamFrame

namespace SendStream.State

theorem isNewlyCompleted_fst (s : State) :
    s.isNewlyCompleted.1 = { s with completed := s.completed || s.isNewlyCompleted.2 } := by
  rw [isNewlyCompleted]
  repeat' split
  · rw [Bool.or_false]
  · rw [Bool.or_false]
  · rw [Bool.or_true]
  · rw [Bool.or_true]
  · rw [Bool.or_false]

theorem onAcked_cases {s : State} {r : State × Bool} (h : s.onAcked = some r) :
    s.cancelled = true ∧ r = (s, false) ∨
      s.cancelled = false ∧
        r = { s with numOutstandingFrames := s.numOutstandingFrames - 1 }.isNewlyCompleted := by
  rw [onAcked] at h
  split at h
  · cases h
    exact .inl ⟨‹_›, rfl⟩
  · split at h <;> cases h
    exact .inr ⟨Bool.not_eq_true _ |>.mp ‹_›, rfl⟩

theorem onLost_cases {s : State} {f : StreamFrame} {r : State × Bool} (h : s.onLost f = some r) :
    s.cancelled = true ∧ r = (s, false) ∨
      s.cancelled = false ∧ r = ({ s with
        retransmissionQueue := s.retransmissionQueue ++ [{ f with dataLenPresent := true }]
        numOutstandingFrames := s.numOutstandingFrames - 1 }, true) := by
  rw [onLost] at h
  split at h
  · cases h
    exact .inl ⟨‹_›, rfl⟩
  · split at h <;> cases h
    exact .inr ⟨Bool.not_eq_true _ |>.mp ‹_›, rfl⟩

/-! ## Where the bytes are -/

/-- What `Write` accepted and no frame was cut from yet. -/
def pending (s : State) : List UInt8 := s.buffered ++ s.dataForWriting

/-- Nothing is left to send. -/
structure Drained (s : State) : Prop where
  lost : s.retransmissionQueue = []
  next : s.nextFrame = none
  data : s.dataForWriting = []
  fin : s.finishedWriting = true → s.finSent = true

/-- The frame that data is buffered in. -/
structure Buffers (streamID offset : Nat) (f : StreamFrame) : Prop where
  streamID : f.streamID = streamID
  offset : f.offset = offset
  dataLenPresent : f.dataLenPresent = true
  nonempty : f.data ≠ []
  fits : f.data.length ≤ maxPacketBufferSize

/-- A frame that may be popped: it was cut before the write offset. -/
structure Sendable (streamID writeOffset : Nat) (f : StreamFrame) : Prop where
  streamID : f.streamID = streamID
  before : f.offset + f.data.length ≤ writeOffset
  nonempty : f.data ≠ [] ∨ f.fin = true
  fits : f.data.length ≤ maxPacketBufferSize

/-- The frames of the stream are as they should be. -/
structure WellFormed (s : State) : Prop where
  next : ∀ f, s.nextFrame = some f → Buffers s.streamID s.writeOffset f
  lost : ∀ f ∈ s.retransmissionQueue, Sendable s.streamID s.writeOffset f ∧ f.dataLenPresent = true
  final : s.finalError ≠ none → s.cancelled = true ∨ s.closedForShutdown = true

variable {s s' s₁ : State} {conn : ConnectionFlowController} {maxBytes w : Int} {f : StreamFrame}
  {more : Bool} {r : Popped}

theorem pending_none (h : s.nextFrame = none) : s.pending = s.dataForWriting := by
  rw [pending, buffered, h]
  rfl

theorem pending_some (h : s.nextFrame = some f) : s.pending = f.data ++ s.dataForWriting := by
  rw [pending, buffered, h]
  rfl

/-- Nothing is pending only if both places are empty. -/
theorem WellFormed.pending_eq_nil (hs : s.WellFormed) (h : s.pending = []) :
    s.nextFrame = none ∧ s.dataForWriting = [] := by
  obtain ⟨hb, hd⟩ := append_eq_nil_iff.mp h
  refine ⟨?_, hd⟩
  cases hn : s.nextFrame with
  | none => rfl
  | some f =>
    rw [buffered, hn] at hb
    exact absurd hb (hs.next f hn).nonempty

theorem pending_buffer : s.buffer.pending = s.pending := by
  rw [pending_some (s := s.buffer) rfl]
  cases h : s.nextFrame with
  | none =>
    rw [pending_none h]
    simp only [buffer, h, append_nil]
  | some f =>
    rw [pending_some h]
    simp only [buffer, h, append_nil]

theorem WellFormed.buffer (hs : s.WellFormed) (hcan : s.canBufferStreamFrame = true)
    (hd : s.dataForWriting ≠ []) : s.buffer.WellFormed := by
  refine ⟨fun f hf => ?_, hs.lost, hs.final⟩
  have hcan : s.buffered.length + s.dataForWriting.length ≤ maxPacketBufferSize := by
    simpa only [canBufferStreamFrame, decide_eq_true_eq] using hcan
  cases hn : s.nextFrame with
  | none =>
    simp only [State.buffer, hn, Option.some.injEq] at hf
    subst hf
    exact ⟨rfl, rfl, rfl, hd, by dsimp only; omega⟩
  | some g =>
    simp only [State.buffer, hn, Option.some.injEq] at hf
    subst hf
    obtain ⟨hid, hoff, hlen, hne, -⟩ := hs.next g hn
    refine ⟨hid, hoff, hlen, fun hnil => hne (append_eq_nil_iff.mp hnil).1, ?_⟩
    rw [buffered, hn] at hcan
    rw [length_append]
    exact hcan

/-! ## Popping, case by case -/

/-- `f` is cut from the start of what is pending. -/
structure Cut (s s₁ : State) (maxBytes w : Int) (f : StreamFrame) (more : Bool) : Prop where
  same : s₁ = { s with
    nextFrame := s₁.nextFrame, dataForWriting := s₁.dataForWriting, writeChan := s₁.writeChan }
  frame : f = { s.emptyFrame with data := f.data, fin := f.fin }
  nonempty : f.data ≠ []
  pending : s.pending = f.data ++ s₁.pending
  window : f.data.length ≤ w
  room : f.data.length ≤ s.emptyFrame.maxDataLen maxBytes
  fits : f.data.length ≤ maxPacketBufferSize
  next : ∀ g, s₁.nextFrame = some g → Buffers s.streamID (s.writeOffset + f.data.length) g
  data : s₁.dataForWriting <:+ s.dataForWriting
  more : more = false → s₁.pending = []

/-- The buffered frame, or its start. -/
theorem popNewStreamFrame_next {o : Option StreamFrame} {g : StreamFrame} (hs : s.WellFormed)
    (hn : s.nextFrame = some g) (hw : 0 < w)
    (h : s.popNewStreamFrame maxBytes w = some (s₁, o, more)) :
    (s₁ = s ∧ o = none ∧ more = true) ∨ ∃ f, o = some f ∧ Cut s s₁ maxBytes w f more := by
  have hg := hs.next g hn
  have hf : g = { s.emptyFrame with data := g.data, fin := g.fin } := by
    have h1 := hg.streamID
    have h2 := hg.offset
    have h3 := hg.dataLenPresent
    cases g
    simp only at h1 h2 h3
    rw [h1, h2, h3]
    rfl
  have hroom : g.maxDataLen maxBytes = s.emptyFrame.maxDataLen maxBytes := by
    rw [hf]
    rfl
  have hnonneg : 0 ≤ s.emptyFrame.maxDataLen maxBytes := Wire.StreamFrame.maxDataLen_nonneg
  simp only [popNewStreamFrame, hn] at h
  rw [hroom] at h
  split at h
  · obtain ⟨rfl, rfl, rfl⟩ : s₁ = s ∧ o = none ∧ more = true := by
      cases h
      exact ⟨rfl, rfl, rfl⟩
    exact .inl ⟨rfl, rfl, rfl⟩
  · rename_i hmin
    split_ifs at h with hlong
    · have hlen : (min w (s.emptyFrame.maxDataLen maxBytes)).toNat ≤ g.data.length := by omega
      cases h
      refine .inr ⟨_, rfl, ⟨rfl, ?_, ?_, ?_, ?_, ?_, ?_, ?_, suffix_rfl, fun h => by cases h⟩⟩
      · rw [hf]
      · intro hnil
        rcases take_eq_nil_iff.mp hnil with h0 | h0
        · omega
        · exact hg.nonempty h0
      · rw [pending_some hn, pending_some rfl, ← append_assoc, take_append_drop]
      · simp only [length_take]
        omega
      · simp only [length_take]
        omega
      · have := hg.fits
        simp only [length_take]
        omega
      · intro k hk
        cases hk
        have := hg.fits
        refine ⟨rfl, ?_, rfl, ?_, ?_⟩
        · simp only [length_take, Nat.min_eq_left hlen]
        · intro hnil
          have := drop_eq_nil_iff.mp hnil
          omega
        · simp only [length_drop]
          omega
    · cases h
      refine .inr ⟨g, rfl, ⟨rfl, hf, hg.nonempty, ?_, by omega, by omega, hg.fits,
        (fun k hk => by cases hk), suffix_rfl, fun h => ?_⟩⟩
      · rw [pending_some hn, pending_none rfl]
        rfl
      · rw [pending_none rfl]
        show s.dataForWriting = []
        simpa using h

/-- The start of what `Write` has not handed over. -/
theorem popNewStreamFrame_data {o : Option StreamFrame} (hn : s.nextFrame = none)
    (hd : s.dataForWriting ≠ []) (hw : 0 < w)
    (h : s.popNewStreamFrame maxBytes w = some (s₁, o, more)) :
    (s₁ = s ∧ o = none ∧ more = true) ∨ ∃ f, o = some f ∧ Cut s s₁ maxBytes w f more := by
  have hnonneg : 0 ≤ s.emptyFrame.maxDataLen maxBytes := Wire.StreamFrame.maxDataLen_nonneg
  simp only [popNewStreamFrame, hn] at h
  split_ifs at h with hroom
  · cases h
    refine .inl ⟨rfl, rfl, ?_⟩
    rw [hasMoreData, isEmpty_eq_false_iff.mpr hd]
    rfl
  · obtain ⟨⟨s₂, data⟩, hget, heq⟩ := map_eq_some_iff.mp h
    obtain ⟨rfl, rfl, rfl⟩ : s₂ = s₁ ∧ (if data = [] then none else
        some { s.emptyFrame with data := data }) = o ∧ s₂.hasMoreData = more := by
      cases heq
      exact ⟨rfl, rfl, rfl⟩
    -- what was taken, and the state without it
    have hcut : data ≠ [] ∧ s.dataForWriting = data ++ s₂.dataForWriting ∧
        (data.length : Int) ≤ min (s.emptyFrame.maxDataLen maxBytes) w ∧
        data.length ≤ maxPacketBufferSize ∧ s₂ = { s with
          dataForWriting := s₂.dataForWriting, writeChan := s₂.writeChan } := by
      rw [getDataForWriting] at hget
      split at hget
      · split_ifs at hget
        cases hget
        exact ⟨hd, (append_nil _).symm, by assumption, by omega, rfl⟩
      · split_ifs at hget
        dsimp only at hget
        have hpos : 0 < min (s.emptyFrame.maxDataLen maxBytes) w := by omega
        cases hget
        refine ⟨?_, ?_, ?_, ?_, ?_⟩
        · intro hnil
          rcases take_eq_nil_iff.mp hnil with h0 | h0
          · omega
          · exact hd h0
        · split <;> exact (take_append_drop _ _).symm
        · simp only [length_take]
          omega
        · simp only [length_take]
          omega
        · split <;> rfl
    obtain ⟨hne, hsplit, hle, hfits, hsame⟩ := hcut
    have hnext : s₂.nextFrame = none := by
      rw [hsame]
      exact hn
    rw [if_neg hne]
    refine .inr ⟨_, rfl, ⟨?_, rfl, hne, ?_, by dsimp only; omega, by dsimp only; omega, hfits, ?_,
      ⟨data, hsplit.symm⟩, ?_⟩⟩
    · rw [hnext, ← hn]
      exact hsame
    · rw [pending_none hn, pending_none hnext, hsplit]
    · intro g hg
      rw [hnext] at hg
      cases hg
    · intro hmore
      rw [hasMoreData, hnext] at hmore
      rw [pending_none hnext]
      cases hdata : s₂.dataForWriting with
      | nil => rfl
      | cons b bs =>
        rw [hdata] at hmore
        cases hmore

/-- What `popStreamFrame` can do. -/
inductive Pops (s : State) (conn : ConnectionFlowController) (maxBytes : Int) : Popped → Prop
  | nothing {more : Bool} (done : more = false → s.finalError ≠ none ∨ s.Drained) :
      Pops s conn maxBytes (s.popNothing conn more)
  | retransmit {f : StreamFrame} {rest : List StreamFrame}
      (queue : s.retransmissionQueue = f :: rest) (size : (f.size : Int) ≤ maxBytes) :
      Pops s conn maxBytes
        (count ⟨{ s with retransmissionQueue := rest }, conn, some f, false, none, true⟩)
  | split {f : StreamFrame} {rest : List StreamFrame} {n : Nat}
      (queue : s.retransmissionQueue = f :: rest) (pos : 0 < n) (short : n < f.data.length)
      (room : n = f.maxDataLen maxBytes) :
      Pops s conn maxBytes
        (count ⟨{ s with retransmissionQueue := (f.splitAt n).2 :: rest }, conn,
          some (f.splitAt n).1, false, none, true⟩)
  | fin (lost : s.retransmissionQueue = []) (next : s.nextFrame = none)
    (data : s.dataForWriting = [])
      (finished : s.finishedWriting = true) (unsent : s.finSent = false) :
      Pops s conn maxBytes
        (count ⟨{ s with finSent := true }, conn, some { s.emptyFrame with fin := true },
          true, none, false⟩)
  | new {s₁ : State} {f : StreamFrame} {more : Bool} (lost : s.retransmissionQueue = [])
      (cut : Cut s s₁ maxBytes (s.flowController.sendWindowSize conn) f more) :
      Pops s conn maxBytes (count (s₁.spend conn (s.flowController.sendWindowSize conn) f more))

theorem popNew_cases (hs : s.WellFormed) (hlost : s.retransmissionQueue = [])
    (h : s.popNew conn maxBytes = some r) : Pops s conn maxBytes (count r) := by
  rw [popNew] at h
  split at h
  · rename_i hno
    split_ifs at h with hfin
    · obtain ⟨hfinished, hunsent⟩ := Bool.and_eq_true_iff.mp hfin
      cases h
      exact .fin hlost hno.2 hno.1 hfinished (by simpa using hunsent)
    · cases h
      refine .nothing fun _ => .inr ⟨hlost, hno.2, hno.1, fun hfinished => ?_⟩
      by_contra hunsent
      exact hfin (by rw [hfinished, Bool.not_eq_true _ |>.mp hunsent]; rfl)
  · rename_i hsome
    dsimp only at h
    split_ifs at h with hwindow
    · cases h
      exact .nothing fun h => by cases h
    · have hw : 0 < s.flowController.sendWindowSize conn := by
        have := s.flowController.sendWindowSize_nonneg conn
        omega
      obtain ⟨⟨s₁, o, more⟩, hpop, rfl⟩ := map_eq_some_iff.mp h
      have hcases : (s₁ = s ∧ o = none ∧ more = true) ∨
          ∃ f, o = some f ∧ Cut s s₁ maxBytes (s.flowController.sendWindowSize conn) f more := by
        cases hn : s.nextFrame with
        | some g => exact popNewStreamFrame_next hs hn hw hpop
        | none => exact popNewStreamFrame_data hn (fun hd => hsome ⟨hd, hn⟩) hw hpop
      rcases hcases with ⟨rfl, rfl, rfl⟩ | ⟨f, rfl, hcut⟩
      · exact .nothing fun h => by cases h
      · exact .new hlost hcut

/-- **What `popStreamFrame` does**: nothing, a retransmission, the start of one, the FIN, or new
data. -/
theorem popStreamFrame_cases (hs : s.WellFormed) (h : s.popStreamFrame conn maxBytes = some r) :
    Pops s conn maxBytes r := by
  obtain ⟨r₁, hpop, rfl⟩ := map_eq_some_iff.mp h
  clear h
  rw [popNewOrRetransmittedStreamFrame] at hpop
  split_ifs at hpop with hfinal
  · cases hpop
    exact .nothing fun _ => .inl hfinal
  · split at hpop
    · rename_i hq
      exact popNew_cases hs hq hpop
    · rename_i f rest hq
      obtain ⟨hf, hlen⟩ := hs.lost f (by rw [hq]; exact mem_cons_self)
      cases hsplit : f.maybeSplitOffFrame maxBytes with
      | fits =>
        simp only [maybeGetRetransmission, hsplit, isSome_some, Bool.true_or, if_true] at hpop
        cases hpop
        exact .retransmit hq (Wire.StreamFrame.size_le_of_fits hsplit)
      | tooSmall =>
        simp only [maybeGetRetransmission, hsplit, Bool.or_true, if_true] at hpop
        cases hpop
        exact .nothing fun h => by cases h
      | split new left =>
        simp only [maybeGetRetransmission, hsplit, Bool.or_true, if_true] at hpop
        obtain ⟨n, hpos, hshort, hroom, heq⟩ :=
          Wire.StreamFrame.maybeSplitOffFrame_split hf.fits hsplit
        cases hpop
        cases heq
        exact .split hq hpos hshort hroom

theorem Sendable.splitAt {id offset n : Nat} (h : Sendable id offset f) (hn : n < f.data.length)
    (hpos : 0 < n) : Sendable id offset (f.splitAt n).1 ∧ Sendable id offset (f.splitAt n).2 := by
  have hfits := h.fits
  have hbefore := h.before
  refine ⟨⟨h.streamID, ?_, .inl ?_, ?_⟩, ⟨h.streamID, ?_, .inl ?_, ?_⟩⟩
  · simp only [StreamFrame.splitAt, length_take]
    omega
  · intro hnil
    rcases take_eq_nil_iff.mp hnil with h0 | h0
    · omega
    · rw [h0, length_nil] at hn
      omega
  · simp only [StreamFrame.splitAt, length_take]
    omega
  · simp only [StreamFrame.splitAt, length_drop]
    omega
  · intro hnil
    have := drop_eq_nil_iff.mp hnil
    omega
  · simp only [StreamFrame.splitAt, length_drop]
    omega

theorem Sendable.mono {id a b : Nat} (h : Sendable id a f) (hab : a ≤ b) : Sendable id b f :=
  { h with before := h.before.trans hab }

theorem Cut.streamID (h : Cut s s₁ maxBytes w f more) : f.streamID = s.streamID := by
  rw [h.frame]
  rfl

theorem Cut.offset (h : Cut s s₁ maxBytes w f more) : f.offset = s.writeOffset := by
  rw [h.frame]
  rfl

theorem Cut.dataLenPresent (h : Cut s s₁ maxBytes w f more) : f.dataLenPresent = true := by
  rw [h.frame]
  rfl

/-- Popping a frame keeps the frames of the stream as they should be. -/
theorem Pops.wellFormed (hs : s.WellFormed) (h : Pops s conn maxBytes r) : r.stream.WellFormed := by
  cases h with
  | nothing => exact hs
  | retransmit queue =>
    exact ⟨hs.next, fun g hg => hs.lost g (by rw [queue]; exact mem_cons_of_mem _ hg), hs.final⟩
  | @split f rest n queue pos short =>
    obtain ⟨hf, hlen⟩ := hs.lost f (by rw [queue]; exact mem_cons_self)
    refine ⟨hs.next, fun g hg => ?_, hs.final⟩
    rcases mem_cons.mp hg with rfl | hg
    · exact ⟨(hf.splitAt short pos).2, hlen⟩
    · exact hs.lost g (by rw [queue]; exact mem_cons_of_mem _ hg)
  | fin => exact { hs with }
  | @new s₁ f more lost cut =>
    refine ⟨fun g hg => ?_, fun g hg => ?_, ?_⟩
    · obtain ⟨hid, hoff, hlen, hne, hfits⟩ := cut.next g hg
      refine ⟨?_, ?_, hlen, hne, hfits⟩
      · show g.streamID = s₁.streamID
        rw [hid, cut.same]
      · show g.offset = s₁.writeOffset + f.data.length
        rw [hoff, cut.same]
    · have hnil : s₁.retransmissionQueue = [] := by
        rw [cut.same]
        exact lost
      have hg : g ∈ s₁.retransmissionQueue := hg
      rw [hnil] at hg
      cases hg
    · show s₁.finalError ≠ none → s₁.cancelled = true ∨ s₁.closedForShutdown = true
      rw [cut.same]
      exact hs.final

theorem Pops.streamID (h : Pops s conn maxBytes r) : r.stream.streamID = s.streamID := by
  cases h with
  | nothing | retransmit | split | fin => rfl
  | @new s₁ _ _ _ cut =>
    show s₁.streamID = s.streamID
    rw [cut.same]

theorem Pops.writeOffset_le (h : Pops s conn maxBytes r) :
    s.writeOffset ≤ r.stream.writeOffset := by
  cases h with
  | nothing | retransmit | split | fin => exact le_rfl
  | @new s₁ f _ _ cut =>
    show s.writeOffset ≤ s₁.writeOffset + f.data.length
    rw [cut.same]
    exact Nat.le_add_right _ _

/-- Popping a frame gives `Write` no new data. -/
theorem Pops.idle (h : Pops s conn maxBytes r) (hd : s.dataForWriting = []) :
    r.stream.dataForWriting = [] := by
  cases h with
  | nothing | retransmit | split | fin => exact hd
  | new _ cut => exact suffix_nil.mp (hd ▸ cut.data)

/-- A frame that is popped belongs to the stream, and fits unless it is a lone FIN. -/
theorem Pops.sendable (hs : s.WellFormed) (h : Pops s conn maxBytes r) (hf : r.frame = some f) :
    Sendable s.streamID r.stream.writeOffset f ∧ f.dataLenPresent = true ∧
    ((f.size : Int) ≤ maxBytes ∨ f.data = []) := by
  cases h with
  | nothing => cases hf
  | @retransmit g rest queue size =>
    cases hf
    obtain ⟨hf, hlen⟩ := hs.lost f (by rw [queue]; exact mem_cons_self)
    exact ⟨hf, hlen, .inl size⟩
  | @split g rest n queue pos short room =>
    cases hf
    obtain ⟨hg, hlen⟩ := hs.lost g (by rw [queue]; exact mem_cons_self)
    obtain ⟨hnew, -⟩ := hg.splitAt short pos
    refine ⟨hnew, hlen, .inl (Wire.StreamFrame.size_le_of_maxDataLen (.inl ?_) hnew.fits ?_)⟩
    · exact hnew.nonempty.resolve_right fun h => by cases h
    · have : (g.splitAt n).1.maxDataLen maxBytes = g.maxDataLen maxBytes := rfl
      rw [this, ← room]
      simp only [StreamFrame.splitAt, length_take]
      omega
  | fin => cases hf; exact ⟨⟨rfl, le_rfl, .inr rfl, Nat.zero_le _⟩, rfl, .inr rfl⟩
  | @new s₁ g more lost cut =>
    cases hf
    have hend : g.offset + g.data.length ≤ s₁.writeOffset + g.data.length := by
      rw [cut.offset, cut.same]
    refine ⟨⟨cut.streamID, hend, .inl cut.nonempty, cut.fits⟩, cut.dataLenPresent, .inl ?_⟩
    refine Wire.StreamFrame.size_le_of_maxDataLen (.inl cut.nonempty) cut.fits ?_
    have hroom := cut.room
    have : s.emptyFrame.maxDataLen maxBytes = g.maxDataLen maxBytes := by
      rw [cut.frame]
      rfl
    rw [this] at hroom
    exact hroom

/-- If no more data is announced, there is none. -/
theorem Pops.drained (hs : s.WellFormed) (h : Pops s conn maxBytes r) (hmore : r.hasMore = false) :
    r.stream.finalError ≠ none ∨ r.stream.Drained := by
  cases h with
  | nothing done => exact done hmore
  | retransmit | split => cases hmore
  | fin lost next data => exact .inr ⟨lost, next, data, fun _ => rfl⟩
  | @new s₁ f more lost cut =>
    have hs' := Pops.wellFormed hs (.new lost cut)
    obtain ⟨hnext, hdata⟩ := hs'.pending_eq_nil (cut.more hmore)
    have hnext : s₁.nextFrame = none := hnext
    have hdata : s₁.dataForWriting = [] := hdata
    refine .inr ⟨?_, hnext, hdata, fun hfin => ?_⟩
    · show s₁.retransmissionQueue = []
      rw [cut.same]
      exact lost
    · have hfin : s₁.finishedWriting = true := hfin
      show (s₁.finSent || (s₁.finishedWriting && s₁.dataForWriting.isEmpty && s₁.nextFrame.isNone &&
        !s₁.finSent)) = true
      rw [hfin, hdata, hnext]
      cases s₁.finSent <;> rfl

/-! ## What the other calls keep -/

/-- No new frame was cut: the credit is as before. -/
structure Keeps (s s' : State) : Prop where
  streamID : s'.streamID = s.streamID
  writeOffset : s'.writeOffset = s.writeOffset
  flowController : s'.flowController = s.flowController
  wellFormed : s.WellFormed → s'.WellFormed

theorem Keeps.refl (s : State) : Keeps s s := ⟨rfl, rfl, rfl, id⟩

/-- A change that has nothing to do with the frames comes first. -/
theorem Keeps.after (h : Keeps s₁ s') (hid : s₁.streamID = s.streamID)
    (hoff : s₁.writeOffset = s.writeOffset) (hflow : s₁.flowController = s.flowController)
    (hnext : s₁.nextFrame = s.nextFrame) (hlost : s₁.retransmissionQueue = s.retransmissionQueue)
    (hfinal : s₁.finalError = s.finalError) (hcancelled : s₁.cancelled = s.cancelled)
    (hclosed : s₁.closedForShutdown = s.closedForShutdown) : Keeps s s' := by
  refine ⟨h.streamID.trans hid, h.writeOffset.trans hoff, h.flowController.trans hflow,
    fun hs => h.wellFormed ⟨?_, ?_, ?_⟩⟩
  · rw [hnext, hid, hoff]
    exact hs.next
  · rw [hlost, hid, hoff]
    exact hs.lost
  · rw [hfinal, hcancelled, hclosed]
    exact hs.final

theorem keeps_isNewlyCompleted (s : State) : Keeps s s.isNewlyCompleted.1 := by
  rw [isNewlyCompleted_fst]
  exact ⟨rfl, rfl, rfl, fun hs => { hs with }⟩

theorem keeps_failWrite (s : State) (n : Nat) (err : FinalError) :
    Keeps s (s.failWrite n err).stream := by
  simp only [failWrite]
  split <;> exact (keeps_isNewlyCompleted _).after rfl rfl rfl rfl rfl rfl rfl rfl

theorem keeps_writeLoop (s : State) (len : Nat) (notified : Bool) :
    Keeps s (s.writeLoop len notified).stream := by
  simp only [writeLoop]
  split
  · rename_i hcan
    exact ⟨rfl, rfl, rfl, fun hs => hs.buffer hcan.1 hcan.2⟩
  · split
    · split <;> exact .refl s
    · split
      · exact .refl s
      · exact keeps_failWrite s _ _

theorem keeps_write (s : State) (p : List UInt8) : Keeps s (s.write p).stream := by
  simp only [write]
  split
  · exact keeps_failWrite s _ _
  · split
    · exact .refl s
    · split
      · exact .refl s
      · exact (keeps_writeLoop _ _ _).after rfl rfl rfl rfl rfl rfl rfl rfl

theorem keeps_close (s : State) : Keeps s s.close.1 := by
  rw [close]
  split
  · exact .refl s
  · exact (keeps_isNewlyCompleted _).after rfl rfl rfl rfl rfl rfl rfl rfl

theorem keeps_cancelWrite (s : State) (errorCode : Nat) (remote : Bool) :
    Keeps s (s.cancelWrite errorCode remote).1 := by
  rw [cancelWrite]
  split
  · exact .refl s
  · dsimp only
    split
    · split
      · exact ⟨rfl, rfl, rfl, fun hs => { hs with }⟩
      · exact (keeps_isNewlyCompleted _).after rfl rfl rfl rfl rfl rfl rfl rfl
    · exact ⟨rfl, rfl, rfl, fun hs => ⟨hs.next, (fun _ h => by cases h), fun _ => .inl rfl⟩⟩

theorem keeps_onAcked {r : State × Bool} (h : s.onAcked = some r) : Keeps s r.1 := by
  rcases onAcked_cases h with ⟨-, rfl⟩ | ⟨-, rfl⟩
  · exact .refl s
  · exact (keeps_isNewlyCompleted _).after rfl rfl rfl rfl rfl rfl rfl rfl

theorem keeps_onLost {r : State × Bool} (hf : Sendable s.streamID s.writeOffset f)
    (h : s.onLost f = some r) :
    Keeps s r.1 := by
  rcases onLost_cases h with ⟨-, rfl⟩ | ⟨-, rfl⟩
  · exact .refl s
  · refine ⟨rfl, rfl, rfl, fun hs => ⟨hs.next, fun g hg => ?_, hs.final⟩⟩
    rcases mem_append.mp hg with hg | hg
    · exact hs.lost g hg
    · rw [mem_singleton.mp hg]
      exact ⟨{ hf with }, rfl⟩

theorem keeps_getControlFrame (s : State) : Keeps s s.getControlFrame.1 := by
  rw [getControlFrame]
  split
  · exact .refl s
  · exact ⟨rfl, rfl, rfl, fun hs => { hs with }⟩

theorem keeps_onResetAcked {r : State × Bool} (h : s.onResetAcked = some r) : Keeps s r.1 := by
  rw [onResetAcked] at h
  split at h <;> cases h
  exact (keeps_isNewlyCompleted _).after rfl rfl rfl rfl rfl rfl rfl rfl

/-! ## No panic, and the promise to the framer -/

/-- The offsets of the stream have an encoding. -/
structure Encodable (s : State) : Prop where
  streamID : s.streamID ≤ QuicVarint.maxVarInt8
  writeOffset : s.writeOffset ≤ QuicVarint.maxVarInt8

/-- The frame popped starts where there is an encoding. -/
theorem Pops.offset_le (hs : s.WellFormed) (h : Pops s conn maxBytes r) (hf : r.frame = some f) :
    f.offset ≤ s.writeOffset := by
  have hlost {g : StreamFrame} {rest : List StreamFrame}
      (queue : s.retransmissionQueue = g :: rest) : g.offset ≤ s.writeOffset :=
    (Nat.le_add_right _ _).trans (hs.lost g (by rw [queue]; exact mem_cons_self)).1.before
  cases h with
  | nothing => cases hf
  | retransmit queue => cases hf; exact hlost queue
  | split queue =>
    cases hf
    have := hlost queue
    exact this
  | fin => cases hf; exact le_rfl
  | new _ cut => cases hf; exact cut.offset.le

def streamDataBlocked (streamID maximumStreamData : Nat) : List UInt8 :=
  0x15 :: QuicVarint.encode streamID ++ QuicVarint.encode maximumStreamData

/-- The stream as the framer sees it. -/
def toSendStream (s : State) (conn : ConnectionFlowController) (hs : s.WellFormed)
    (hb : s.Encodable) : SendStream where
  popStreamFrame maxBytes :=
    match s.popStreamFrame conn maxBytes with
    | none => ⟨none, none⟩
    | some r => ⟨r.frame, r.blocked.map (streamDataBlocked s.streamID)⟩
  promise maxBytes f hmin hf := by
    have hmin : 128 ≤ maxBytes := hmin
    cases hpop : s.popStreamFrame conn maxBytes with
    | none =>
      rw [hpop] at hf
      cases hf
    | some r =>
      rw [hpop] at hf
      have hp := popStreamFrame_cases hs hpop
      obtain ⟨hsend, hlen, hsize⟩ := hp.sendable hs hf
      refine ⟨⟨hsend.nonempty, hsend.streamID ▸ hb.streamID,
        (hp.offset_le hs hf).trans hb.writeOffset, hsend.fits⟩,
        hlen, ?_⟩
      rcases hsize with hsize | hnil
      · exact hsize
      · -- a lone FIN is a header
        have hle := Framer.size_le hlen
        rw [hnil] at hle
        have hone : QuicVarint.size ([] : List UInt8).length = 1 := rfl
        rw [hone, List.length_nil] at hle
        omega

end SendStream.State

open SendStream (State Popped)

namespace WriteEnd

/-! ## All calls -/

/-- The frames are as they should be, those in flight too. -/
structure Sound (e : WriteEnd) : Prop where
  stream : e.stream.WellFormed
  inFlight : ∀ f ∈ e.inFlight, State.Sendable e.stream.streamID e.stream.writeOffset f

variable {e : WriteEnd} {conn : ConnectionFlowController} {c : Call} {r : Called}

theorem sound_new (streamID : Nat) (fc : StreamFlowController) : Sound (new streamID fc) :=
  ⟨⟨(fun _ h => by cases h), (fun _ h => by cases h), fun h => absurd rfl h⟩, fun _ h => by cases h⟩

/-- What a call that is neither `popStreamFrame` nor `updateSendWindow` keeps. -/
structure Quiet (e : WriteEnd) (conn : ConnectionFlowController) (r : Called) : Prop where
  keeps : e.stream.Keeps r.sender.stream
  conn : r.conn = conn
  sent : r.sender.sent = e.sent
  inFlight : ∀ f ∈ r.sender.inFlight, f ∈ e.inFlight

/-- A call, as far as its credit is concerned. -/
inductive Spends (e : WriteEnd) (conn : ConnectionFlowController) : Call → Called → Prop
  | pop {maxBytes : Int} {p : Popped} (pops : e.stream.Pops conn maxBytes p) :
      Spends e conn (.popStreamFrame maxBytes) ⟨e.popped p, p.conn, false, false⟩
  | update {limit : Nat} {hasData : Bool} :
      Spends e conn (.updateSendWindow limit)
        ⟨{ e with stream := (e.stream.updateSendWindow limit).1 }, conn, hasData, false⟩
  | quiet {c : Call} {r : Called} (quiet : Quiet e conn r)
    (no : ∀ limit, c ≠ .updateSendWindow limit) :
      Spends e conn c r

/-- **Every call pops a frame, updates the window, or leaves the credit alone.** -/
theorem call_spends (hs : e.Sound) (h : e.call conn c = some r) : Spends e conn c r := by
  cases c with
  | write p =>
    simp only [call] at h
    split at h <;> cases h
    exact .quiet ⟨State.keeps_write _ _, rfl, rfl, fun _ h => h⟩ (fun _ h => by cases h)
  | wake =>
    obtain ⟨len, -, h⟩ := bind_eq_some_iff.mp h
    split at h <;> cases h
    exact .quiet ⟨(State.keeps_writeLoop _ _ _).after rfl rfl rfl rfl rfl rfl rfl rfl, rfl,
      rfl, fun _ h => h⟩
      (fun _ h => by cases h)
  | close =>
    cases h
    exact .quiet ⟨State.keeps_close _, rfl, rfl, fun _ h => h⟩ (fun _ h => by cases h)
  | popStreamFrame maxBytes =>
    obtain ⟨p, hp, rfl⟩ := map_eq_some_iff.mp h
    exact .pop (State.popStreamFrame_cases hs.stream hp)
  | onAcked i =>
    obtain ⟨f, hf, h⟩ := bind_eq_some_iff.mp h
    obtain ⟨p, hp, rfl⟩ := map_eq_some_iff.mp h
    exact .quiet ⟨State.keeps_onAcked hp, rfl, rfl, fun _ h => mem_of_mem_eraseIdx h⟩
      (fun _ h => by cases h)
  | onLost i =>
    obtain ⟨f, hf, h⟩ := bind_eq_some_iff.mp h
    obtain ⟨p, hp, rfl⟩ := map_eq_some_iff.mp h
    have hsend := hs.inFlight f (mem_of_getElem? hf)
    exact .quiet ⟨State.keeps_onLost hsend hp, rfl, rfl, fun _ h => mem_of_mem_eraseIdx h⟩
      (fun _ h => by cases h)
  | updateSendWindow limit =>
    cases h
    exact .update
  | cancelWrite errorCode remote =>
    cases h
    exact .quiet ⟨State.keeps_cancelWrite _ _ _, rfl, rfl, fun _ h => h⟩ (fun _ h => by cases h)
  | closeForShutdown =>
    cases h
    exact .quiet ⟨⟨rfl, rfl, rfl, fun hs => ⟨hs.next, hs.lost, fun _ => .inr rfl⟩⟩, rfl,
      rfl, fun _ h => h⟩
      (fun _ h => by cases h)
  | getControlFrame =>
    cases h
    exact .quiet ⟨State.keeps_getControlFrame _, rfl, rfl, fun _ h => h⟩ (fun _ h => by cases h)
  | onResetAcked i =>
    obtain ⟨f, hf, h⟩ := bind_eq_some_iff.mp h
    obtain ⟨p, hp, rfl⟩ := map_eq_some_iff.mp h
    exact .quiet ⟨State.keeps_onResetAcked hp, rfl, rfl, fun _ h => h⟩ (fun _ h => by cases h)
  | onResetLost i =>
    obtain ⟨f, hf, rfl⟩ := map_eq_some_iff.mp h
    exact .quiet ⟨⟨rfl, rfl, rfl, fun hs => { hs with }⟩, rfl, rfl, fun _ h => h⟩
      (fun _ h => by cases h)

theorem Sound.call (hs : e.Sound) (h : e.call conn c = some r) : r.sender.Sound := by
  cases call_spends hs h with
  | @pop maxBytes p pops =>
    refine ⟨pops.wellFormed hs.stream, fun f hf => ?_⟩
    have hid : p.stream.streamID = e.stream.streamID := pops.streamID
    show State.Sendable p.stream.streamID p.stream.writeOffset f
    rw [hid]
    rcases mem_append.mp hf with hf | hf
    · exact (hs.inFlight f hf).mono pops.writeOffset_le
    · exact (pops.sendable hs.stream (mem_toList.mp hf)).1
  | update => exact ⟨{ hs.stream with }, hs.inFlight⟩
  | quiet quiet =>
    refine ⟨quiet.keeps.wellFormed hs.stream, fun f hf => ?_⟩
    rw [quiet.keeps.streamID, quiet.keeps.writeOffset]
    exact hs.inFlight f (quiet.inFlight f hf)

end WriteEnd

end UQuic
