/-
# `UQuic.Consumers` — acceptors and receivers beside each other

`AcceptStream`, and `Receive` of `datagram_queue.go` and of `http3/datagram.go`, may be called from
several goroutines at once, which share one channel with one slot (`Token.Pool`).  The lock is held
while streams are opened or a datagram is queued, and during the posts.

Two calls have found nothing and are on their way to the channel:

    acceptors       two streams are opened at once: one acceptor gets the token and takes one
                    stream, the other one parks beside the other stream
    receivers       two datagrams come
    datagrammers    the same; and a receive error wakes one receiver only

With one call at a time, nobody waits beside what it waits for.
-/
import UQuic.Lib.Token
import UQuic.StreamsMapIncoming
import UQuic.DatagramQueue
import UQuic.HTTP3.Datagrams

namespace UQuic

open Token Token.Pool Option

/-! ## Acceptors -/

namespace IncomingStreams

variable {T : Type} {newStream : Int → T} {maxStreams : Nat}

/-- `AcceptStream`, beside `GetOrOpenStream`, which posts once for each stream; the channel is
that of the pool. -/
def acceptors (newStream : Int → T) (maxStreams : Nat) : Pool (IncomingStreams T) Event where
  init := new maxStreams
  produce s
    | .getOrOpenStream num => (s.step newStream (.getOrOpenStream num)).map (·, 0)
    | .openStreams => s.opening.bind fun num => (s.step newStream .openStreams).map
        (·, (num + 1 - s.map.nextStreamToOpen).toNat)
    | _ => none
  look s := s.map.acceptStream.map fun r => { s with map := r.1, accepted := s.accepted ++ [r.2] }
  drains := true

/-- There is something to accept. -/
theorem acceptStream_isSome (m : IncomingStreamsMap T) : m.acceptStream.isSome =
    (m.closeErr || (m.streams.lookup m.nextStreamToAccept).isSome) := by
  simp only [IncomingStreamsMap.acceptStream]
  cases m.closeErr with
  | true => rfl
  | false =>
    cases m.streams.lookup m.nextStreamToAccept with
    | none => rfl
    | some entry =>
      simp only [Bool.false_eq_true, if_false]
      split
      · split <;> rfl
      · rfl

theorem acceptors_posts : (acceptors newStream maxStreams).Posts := by
  intro s e s' posts h
  simp only [acceptors, isSome_map, acceptStream_isSome] at h ⊢
  split at h
  · obtain ⟨s₁, hstep, heq⟩ := map_eq_some_iff.mp h
    cases heq
    simp only [step] at hstep
    split at hstep
    · cases hstep
    · split at hstep <;> cases hstep <;> exact .inr id
  · obtain ⟨num, hnum, h⟩ := bind_eq_some_iff.mp h
    obtain ⟨s₁, hstep, heq⟩ := map_eq_some_iff.mp h
    cases heq
    rw [step, hnum, bind_some] at hstep
    obtain ⟨m, hm, rfl⟩ := map_eq_some_iff.mp hstep
    obtain ⟨m₁, hloop, rfl⟩ := map_eq_some_iff.mp hm
    rcases Nat.eq_zero_or_pos (num + 1 - s.map.nextStreamToOpen).toNat with hzero | hpos
    · -- no stream was opened
      rw [hzero] at hloop
      cases hloop
      exact .inr id
    · exact .inl hpos
  · cases h

/-- **An acceptor that is alone** does not wait beside a stream. -/
theorem acceptors_woken {tr : List (Token.Event Event)} {s : System (IncomingStreams T)}
    (hrun : ((acceptors newStream maxStreams).machine.guard Alone).Run tr s) (i : Nat) :
    ¬ (acceptors newStream maxStreams).Stuck s i :=
  not_stuck acceptors_posts hrun i

/-- A stream is opened while the acceptor is on its way to the channel. -/
theorem acceptors_woken_first : ∃ s, (acceptors id 1).machine.Run
    ([.consumer 0 .enter, .consumer 0 .look] ++
      [.produce (.getOrOpenStream 1), .produce .openStreams, .post]) s ∧
    s.phase 0 = .looked ∧ ((acceptors id 1).look s.shared).isSome = true ∧ s.slot = true ∧
    ¬ (acceptors id 1).Stuck s 0 := by
  have hrun := run_first (w := acceptors id 1) rfl
    [.produce (.getOrOpenStream 1), .produce .openStreams, .post] (by simp) rfl
  exact ⟨_, hrun.of_guard, rfl, rfl, rfl, acceptors_woken hrun 0⟩

/-- Two streams are opened at once for two acceptors. -/
theorem acceptors_stuck : ∃ s, (acceptors id 2).machine.Run
    (crowd [.produce (.getOrOpenStream 2), .produce .openStreams, .post, .post]) s ∧
      s.phase 1 = .parked ∧ (acceptors id 2).Stuck s 1 := by
  refine ⟨_, Machine.run_ofStep_iff.mpr rfl, rfl, trivial, rfl, rfl, rfl, ?_⟩
  rintro (_ | _ | j) <;> exact Phase.noConfusion

end IncomingStreams

/-! ## Receivers of datagrams -/

namespace RcvQueue

/-- `Receive`, beside `HandleDatagramFrame`. -/
def receivers (maxSize : Nat) : Pool RcvQueue (List UInt8) where
  init := ⟨[], maxSize⟩
  produce h data := some (h.handleDatagramFrame data)
  look := receive
  drains := false

theorem receivers_posts {maxSize : Nat} : (receivers maxSize).Posts := by
  intro h data h' posts heq
  simp only [receivers, handleDatagramFrame, some.injEq] at heq
  split_ifs at heq
  · cases heq
    exact .inr id
  · cases heq
    exact .inr id
  · cases heq
    exact .inl Nat.one_pos

end RcvQueue

namespace HTTP3.Datagrammer

/-- `enqueue` or `SetReceiveError`, and whether it signals. -/
def produce (d : Datagrammer) : Option (List UInt8) → Datagrammer × Nat
  | some data =>
    (d.enqueue data, if d.receiveErr || streamDatagramQueueLen ≤ d.queue.length then 0 else 1)
  | none => ({ d with receiveErr := true }, 1)

/-- `Receive`, under the lock; `none` if it has to wait. -/
def tryReceive (d : Datagrammer) : Option Datagrammer :=
  if d.queue ≠ [] then some d.receive else if d.receiveErr then some d else none

/-- `Receive`, beside `enqueue` and `SetReceiveError`. -/
def datagrammers : Pool Datagrammer (Option (List UInt8)) where
  init := new
  produce d p := some (d.produce p)
  look := tryReceive
  drains := false

theorem datagrammers_posts : datagrammers.Posts := by
  intro d p d' posts heq
  cases p with
  | none =>
    cases heq
    exact .inl Nat.one_pos
  | some data =>
    simp only [datagrammers, produce, enqueue, some.injEq] at heq
    rcases hclosed : d.receiveErr with _ | _
    · rcases hfull : decide (streamDatagramQueueLen ≤ d.queue.length) with _ | _
      · rw [hclosed, hfull] at heq
        cases heq
        exact .inl Nat.one_pos
      · rw [hclosed, if_pos (of_decide_eq_true hfull), hfull] at heq
        cases heq
        exact .inr id
    · rw [hclosed] at heq
      cases heq
      exact .inr id

/-- **A receiver that is alone** does not wait beside a datagram, or beside an error. -/
theorem receivers_woken {maxSize : Nat} {tr : List (Event (List UInt8))} {h : System RcvQueue}
    (hrun : ((RcvQueue.receivers maxSize).machine.guard Alone).Run tr h)
    {tr' : List (Event (Option (List UInt8)))} {s : System Datagrammer}
    (hrun' : (datagrammers.machine.guard Alone).Run tr' s) (i : Nat) :
    ¬ (RcvQueue.receivers maxSize).Stuck h i ∧ ¬ datagrammers.Stuck s i :=
  ⟨not_stuck RcvQueue.receivers_posts hrun i, not_stuck datagrammers_posts hrun' i⟩

/-- A datagram comes, or the stream is reset, while the receiver is on its way to the channel. -/
theorem receivers_woken_first : ∃ h s,
    (RcvQueue.receivers 9).machine.Run
      ([.consumer 0 .enter, .consumer 0 .look] ++ [.produce [1], .post]) h ∧
    datagrammers.machine.Run ([.consumer 0 .enter, .consumer 0 .look] ++
      [.produce (some [2]), .post, .produce none, .post]) s ∧
    h.shared.rcvQueue = [[1]] ∧ h.phase 0 = .looked ∧ h.slot = true ∧
    s.shared.queue = [[2]] ∧ s.shared.receiveErr = true ∧ s.phase 0 = .looked ∧ s.slot = true ∧
    ¬ (RcvQueue.receivers 9).Stuck h 0 ∧ ¬ datagrammers.Stuck s 0 := by
  have hrun := run_first (w := RcvQueue.receivers 9) rfl [.produce [1], .post] (by simp) rfl
  have hrun' := run_first (w := datagrammers) rfl
    [.produce (some [2]), .post, .produce none, .post] (by simp) rfl
  exact ⟨_, _, hrun.of_guard, hrun'.of_guard, rfl, rfl, rfl, rfl, rfl, rfl, rfl,
    receivers_woken hrun hrun' 0⟩

/-- Two datagrams, or an error, for two receivers. -/
theorem receivers_stuck :
    (∃ h, (RcvQueue.receivers 9).machine.Run
        (crowd [.produce [1], .post, .produce [2], .post]) h ∧
      h.phase 1 = .parked ∧ (RcvQueue.receivers 9).Stuck h 1) ∧
    (∃ s, datagrammers.machine.Run
        (crowd [.produce (some [1]), .post, .produce (some [2]), .post]) s ∧
      s.phase 1 = .parked ∧ datagrammers.Stuck s 1) ∧
    ∃ s, datagrammers.machine.Run (crowd [.produce none, .post]) s ∧
      s.phase 1 = .parked ∧ datagrammers.Stuck s 1 := by
  refine ⟨⟨_, Machine.run_ofStep_iff.mpr rfl, rfl, trivial, rfl, rfl, rfl, ?_⟩,
    ⟨_, Machine.run_ofStep_iff.mpr rfl, rfl, trivial, rfl, rfl, rfl, ?_⟩,
    ⟨_, Machine.run_ofStep_iff.mpr rfl, rfl, trivial, rfl, rfl, rfl, ?_⟩⟩ <;>
  rintro (_ | _ | j) <;> exact Phase.noConfusion

end HTTP3.Datagrammer

end UQuic
