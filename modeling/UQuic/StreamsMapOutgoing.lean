/-
# `UQuic.StreamsMapOutgoing` — callers waiting for an outgoing stream

`streams_map_outgoing.go`.  `OpenStreamSync` is a process.  It enters
`openQueue` and then waits in a `select` on its own one-slot channel and on its
context; everything between two waits happens under the mutex, so it is one
step here.

    waiting ──receive──▶ woken ──resume──▶ returns a stream, or waits again
       └────ctxDone───▶ leaving ──leave──▶ returns ctx.Err()

A caller stays in `openQueue` until the step that deletes its entry, so a woken
and a leaving caller are still in the queue.

## What is proved

In every run streams are numbered consecutively from 1, never above
`maxStream`, and go to the waiting callers in queue order (`InOrder`).

`NoLostWakeup`: while callers are queued and a stream is available, a token is
in some queued caller's channel or a woken caller has not run yet.  One step can
break it: a caller whose context was cancelled leaves with the token still in
its channel (`HandsOver` excludes it), because the deletion of the entry does
not signal the next caller.  Every other step keeps it, and a step against
`HandsOver` always breaks it.
-/
import UQuic.Lib.Machine

namespace UQuic

open List

/-- A one-slot channel. -/
inductive WaitChan
  | empty | token | closed
  deriving DecidableEq, Repr

/-- Where an `OpenStreamSync` call is. -/
inductive WaiterPhase
  /-- In its `select`. -/
  | waiting
  /-- Has received from its channel, and has not locked the mutex yet. -/
  | woken
  /-- Has chosen `<-ctx.Done()`, and has not locked the mutex yet. -/
  | leaving
  /-- Has returned because the map was closed; its entry stays. -/
  | returned
  deriving DecidableEq, Repr

/-- An entry of `openQueue`, with the call that waits on it. -/
structure Waiter where
  queuePos : Nat
  waitChan : WaitChan
  phase : WaiterPhase
  ctxDone : Bool
  deriving DecidableEq, Repr

/-- A stream that was opened, and the queue position of the call that waited for
it, if one did. -/
structure Opened where
  num : Int
  waited : Option Nat
  deriving DecidableEq, Repr

/-- `outgoingStreamsMap`.  The queue is written in the order of its positions;
`opened` and `blocked` log the calls of `newStream` and of
`queueStreamIDBlocked`. -/
structure OutgoingStreamsMap where
  openQueue : List Waiter
  lowestInQueue : Nat
  highestInQueue : Nat
  nextStream : Int
  maxStream : Int
  blockedSent : Bool
  closeErr : Bool
  opened : List Opened
  blocked : List Int
  deriving DecidableEq, Repr

namespace OutgoingStreamsMap

def invalidStreamNum : Int := -1

/-- `newOutgoingStreamsMap`. -/
def new : OutgoingStreamsMap := ⟨[], 0, 0, 1, invalidStreamNum, false, false, [], []⟩

def openStream (m : OutgoingStreamsMap) (waited : Option Nat) : OutgoingStreamsMap :=
  { m with opened := m.opened ++ [⟨m.nextStream, waited⟩], nextStream := m.nextStream + 1 }

def maybeSendBlockedFrame (m : OutgoingStreamsMap) : OutgoingStreamsMap :=
  if m.blockedSent then m
  else
    { m with
      blocked := m.blocked ++ [if m.maxStream ≠ invalidStreamNum then m.maxStream else 0]
      blockedSent := true }

/-- The loop of `unblockOpenSync`: the entry at the lowest position from `qp`
on, with `n` positions to go. -/
def unblockLoop (queue : List Waiter) (qp : Nat) : Nat → Option Waiter
  | 0 => none
  | n + 1 =>
    match queue.find? fun c => c.queuePos = qp with
    | some c => some c
    | none => unblockLoop queue (qp + 1) n

def modify (queue : List Waiter) (pos : Nat) (f : Waiter → Waiter) : List Waiter :=
  queue.map fun c => if c.queuePos = pos then f c else c

/-- `unblockOpenSync`.  The `select` with a `default` leaves a full channel as
it is; sending on a closed channel panics. -/
def unblockOpenSync (m : OutgoingStreamsMap) : Option OutgoingStreamsMap :=
  if m.openQueue = [] then some m
  else
    match unblockLoop m.openQueue m.lowestInQueue (m.highestInQueue + 1 - m.lowestInQueue) with
    | none => some m
    | some c =>
      if c.waitChan = .closed then none
      else some { m with
        openQueue := modify m.openQueue c.queuePos fun c => { c with waitChan := .token } }

/-- `OpenStream`: the state it leaves. -/
def tryOpenStream (m : OutgoingStreamsMap) : OutgoingStreamsMap :=
  if m.closeErr then m
  else if m.openQueue ≠ [] ∨ m.maxStream < m.nextStream then m.maybeSendBlockedFrame
  else m.openStream none

/-- Enter the queue at the next position. -/
def enqueue (m : OutgoingStreamsMap) : OutgoingStreamsMap :=
  { m with
    highestInQueue := m.highestInQueue + 1
    lowestInQueue := if m.openQueue = [] then m.highestInQueue else m.lowestInQueue
    openQueue := m.openQueue ++ [⟨m.highestInQueue, .empty, .waiting, false⟩] }

/-- `OpenStreamSync` up to its first wait. -/
def openStreamSync (m : OutgoingStreamsMap) (ctxDone : Bool) : OutgoingStreamsMap :=
  if m.closeErr then m
  else if ctxDone then m
  else if m.openQueue = [] ∧ m.nextStream ≤ m.maxStream then m.openStream none
  else m.enqueue.maybeSendBlockedFrame

/-- `OpenStreamSync` after it received from its channel. -/
def resume (m : OutgoingStreamsMap) (pos : Nat) : Option OutgoingStreamsMap :=
  if m.closeErr then
    some { m with openQueue := modify m.openQueue pos fun c => { c with phase := .returned } }
  else if m.maxStream < m.nextStream then
    some { m with openQueue := modify m.openQueue pos fun c => { c with phase := .waiting } }
  else
    { m.openStream (some pos) with
      openQueue := m.openQueue.filter fun c => c.queuePos ≠ pos
      lowestInQueue := pos + 1 }.unblockOpenSync

/-- `OpenStreamSync` after its context was cancelled. -/
def leave (m : OutgoingStreamsMap) (pos : Nat) : OutgoingStreamsMap :=
  { m with openQueue := m.openQueue.filter fun c => c.queuePos ≠ pos }

/-- The new limit in `SetMaxStream`, before a caller is woken. -/
def raiseMaxStream (m : OutgoingStreamsMap) (num : Int) : OutgoingStreamsMap :=
  if num < m.nextStream - 1 + (m.openQueue.length : Int) then
    { m with maxStream := num, blockedSent := false }.maybeSendBlockedFrame
  else { m with maxStream := num, blockedSent := false }

def setMaxStream (m : OutgoingStreamsMap) (num : Int) : Option OutgoingStreamsMap :=
  if num ≤ m.maxStream then some m else (m.raiseMaxStream num).unblockOpenSync

def closeWithError (m : OutgoingStreamsMap) : OutgoingStreamsMap :=
  { m with
    closeErr := true
    openQueue := m.openQueue.map fun c => { c with waitChan := .closed } }

/-! ## The processes -/

/-- What can happen next. -/
inductive Event
  | openStream
  | openStreamSync (ctxDone : Bool)
  | cancel (pos : Nat)
  | receive (pos : Nat)
  | ctxDone (pos : Nat)
  | resume (pos : Nat)
  | leave (pos : Nat)
  | setMaxStream (num : Int)
  | closeWithError
  deriving DecidableEq, Repr

def waiter (m : OutgoingStreamsMap) (pos : Nat) : Option Waiter :=
  m.openQueue.find? fun c => c.queuePos = pos

/-- Receiving empties a channel unless it is closed. -/
def WaitChan.afterReceive : WaitChan → WaitChan
  | .closed => .closed
  | .empty | .token => .empty

def update (m : OutgoingStreamsMap) (pos : Nat) (f : Waiter → Waiter) : OutgoingStreamsMap :=
  { m with openQueue := modify m.openQueue pos f }

/-- One step of the system: a call, a step of a waiting caller, or the
cancellation of its context.  `none` if the caller is not there. -/
def step (m : OutgoingStreamsMap) : Event → Option OutgoingStreamsMap
  | .openStream => some m.tryOpenStream
  | .openStreamSync ctxDone => some (m.openStreamSync ctxDone)
  | .cancel pos => some (m.update pos fun c => { c with ctxDone := true })
  | .receive pos =>
    (m.waiter pos).bind fun c =>
      if c.phase = .waiting ∧ c.waitChan ≠ .empty then
        some (m.update pos fun c =>
          { c with phase := .woken, waitChan := WaitChan.afterReceive c.waitChan })
      else none
  | .ctxDone pos =>
    (m.waiter pos).bind fun c =>
      if c.phase = .waiting ∧ c.ctxDone then
        some (m.update pos fun c => { c with phase := .leaving })
      else none
  | .resume pos =>
    (m.waiter pos).bind fun c => if c.phase = .woken then m.resume pos else none
  | .leave pos =>
    (m.waiter pos).bind fun c => if c.phase = .leaving then some (m.leave pos) else none
  | .setMaxStream num => m.setMaxStream num
  | .closeWithError => some m.closeWithError

def machine : Machine OutgoingStreamsMap Event := .ofStep new step

/-! ## The properties -/

def positions (m : OutgoingStreamsMap) : List Nat := m.openQueue.map (·.queuePos)

/-- The positions of the callers that got a stream, in the order they got it. -/
def givenTo (m : OutgoingStreamsMap) : List Nat := m.opened.filterMap (·.waited)

/-- Streams are numbered 1, 2, 3, … and never exceed the limit; waiting callers
get them in queue order, and nobody is overtaken. -/
structure InOrder (m : OutgoingStreamsMap) : Prop where
  consecutive : m.opened.map (·.num) =
    (List.range m.opened.length).map fun (i : Nat) => (i : Int) + 1
  limit : ∀ o ∈ m.opened, o.num ≤ m.maxStream
  order : m.givenTo.Pairwise (· < ·)
  first : ∀ p ∈ m.givenTo, ∀ q ∈ m.positions, p < q

/-- A queued caller that will act on a token. -/
def Waiter.Signalled (c : Waiter) : Prop := c.waitChan = .token ∨ c.phase = .woken

/-- Streams are available and callers queued only if one of them is signalled. -/
def NoLostWakeup (m : OutgoingStreamsMap) : Prop :=
  m.closeErr = false → m.openQueue ≠ [] → m.nextStream ≤ m.maxStream →
    ∃ c ∈ m.openQueue, Waiter.Signalled c

/-- No caller leaves with a token that the next one needs. -/
def HandsOver (m : OutgoingStreamsMap) : Event → Prop
  | .leave pos =>
    ∀ c ∈ m.openQueue, c.queuePos = pos → c.waitChan = .token → m.closeErr = false →
      m.nextStream ≤ m.maxStream → ∀ d ∈ m.openQueue, d.queuePos = pos
  | _ => True

instance (m : OutgoingStreamsMap) (e : Event) : Decidable (m.HandsOver e) := by
  cases e <;> unfold HandsOver <;> infer_instance

instance (c : Waiter) : Decidable (Waiter.Signalled c) := by unfold Waiter.Signalled; infer_instance

instance (m : OutgoingStreamsMap) : Decidable m.NoLostWakeup := by
  unfold NoLostWakeup; infer_instance

/-! ## The invariant -/

variable {m m' : OutgoingStreamsMap} {rest : List Waiter} {c : Waiter} {pos : Nat}
  {f : Waiter → Waiter}

/-- Positions ascend between the two counters; only the first caller can be
signalled; streams are numbered and handed out in order. -/
structure Inv (m : OutgoingStreamsMap) : Prop where
  sorted : m.positions.Pairwise (· < ·)
  bounds : ∀ p ∈ m.positions, m.lowestInQueue ≤ p ∧ p < m.highestInQueue
  quiet : m.closeErr = false → ∀ c ∈ m.openQueue.tail, ¬ Waiter.Signalled c
  open_ : m.closeErr = false → ∀ c ∈ m.openQueue, c.waitChan ≠ .closed
  next : m.nextStream = m.opened.length + 1
  given : ∀ p ∈ m.givenTo, p < m.highestInQueue
  inOrder : InOrder m

theorem inv_new : Inv new where
  sorted := .nil
  bounds _ h := by cases h
  quiet _ _ h := by cases h
  open_ _ _ h := by cases h
  next := rfl
  given _ h := by cases h
  inOrder := ⟨rfl, fun _ h => (by cases h), .nil, fun _ h => (by cases h)⟩

/-! ### Entries -/

/-- Changing entries in place moves nobody. -/
theorem positions_modify {queue : List Waiter} (hf : ∀ c, (f c).queuePos = c.queuePos) :
    (modify queue pos f).map (·.queuePos) = queue.map (·.queuePos) := by
  simp only [modify, map_map]
  refine map_congr_left fun c _ => ?_
  simp only [Function.comp]
  split
  · exact hf c
  · rfl

theorem waiter_some (h : m.waiter pos = some c) : c ∈ m.openQueue ∧ c.queuePos = pos :=
  ⟨mem_of_find?_eq_some h, by simpa using List.find?_some h⟩

/-- Positions identify callers. -/
theorem Inv.unique (hi : Inv m) {c d : Waiter} (hc : c ∈ m.openQueue) (hd : d ∈ m.openQueue)
    (h : c.queuePos = d.queuePos) : c = d :=
  inj_on_of_nodup_map (hi.sorted.imp fun hlt => Nat.ne_of_lt hlt) hc hd h

/-- A signalled caller is the first one. -/
theorem Inv.head (hi : Inv m) (hopen : m.closeErr = false) (hc : c ∈ m.openQueue)
    (hs : Waiter.Signalled c) : ∃ rest, m.openQueue = c :: rest := by
  have hq := hi.quiet hopen
  cases hl : m.openQueue with
  | nil =>
    rw [hl] at hc
    cases hc
  | cons d rest =>
    rw [hl] at hc hq
    rcases mem_cons.mp hc with rfl | hc
    · exact ⟨rest, rfl⟩
    · exact absurd hs (hq c hc)

/-- The entries behind the first. -/
theorem lt_of_cons (hs : m.positions.Pairwise (· < ·))
    (hl : m.openQueue = c :: rest) : ∀ d ∈ rest, c.queuePos < d.queuePos := by
  simp only [positions, hl, map_cons, pairwise_cons] at hs
  exact fun d hd => hs.1 _ (mem_map_of_mem hd)

/-- The search of `unblockOpenSync` finds the first caller. -/
theorem unblockLoop_eq (hrest : ∀ d ∈ rest, c.queuePos < d.queuePos) :
    ∀ (n qp : Nat), qp ≤ c.queuePos → c.queuePos < qp + n → unblockLoop (c :: rest) qp n = some c
  | 0, qp, hle, hlt => absurd hlt (by omega)
  | n + 1, qp, hle, hlt => by
    simp only [unblockLoop]
    by_cases heq : c.queuePos = qp
    · rw [List.find?_cons_of_pos (by simpa using heq)]
    · have hno : (c :: rest).find? (fun d => d.queuePos = qp) = none := by
        rw [List.find?_eq_none]
        intro d hd
        rcases mem_cons.mp hd with rfl | hd
        · simpa using heq
        · have := hrest d hd
          simp only [decide_eq_true_eq]
          omega
      rw [hno]
      exact unblockLoop_eq hrest n (qp + 1) (by omega) (by omega)

/-- What `unblockOpenSync` does: a token for the first caller. -/
theorem unblockOpenSync_some (hs : m.positions.Pairwise (· < ·))
    (hb : ∀ p ∈ m.positions, m.lowestInQueue ≤ p ∧ p < m.highestInQueue)
    (h : m.unblockOpenSync = some m') :
    (m.openQueue = [] ∧ m' = m) ∨
    ∃ c rest, m.openQueue = c :: rest ∧
      m' = { m with openQueue := { c with waitChan := .token } :: rest } := by
  simp only [unblockOpenSync] at h
  cases hl : m.openQueue with
  | nil =>
    simp only [hl, if_true] at h
    cases h
    exact .inl ⟨rfl, rfl⟩
  | cons c rest =>
    have hrest := lt_of_cons hs hl
    have hc := hb c.queuePos (by simp [positions, hl])
    rw [hl, if_neg (by simp), unblockLoop_eq hrest _ _ hc.1 (by omega)] at h
    dsimp only at h
    split_ifs at h
    cases h
    refine .inr ⟨c, rest, rfl, ?_⟩
    have htail : (rest.map fun d => if d.queuePos = c.queuePos
        then { d with waitChan := .token } else d) = rest := by
      refine (map_congr_left fun d hd => ?_).trans (map_id _)
      exact if_neg (Nat.ne_of_gt (hrest d hd))
    simp [modify, htail]

/-! ### Every step keeps it -/

/-- Sending a STREAMS_BLOCKED frame changes nothing else. -/
theorem maybeSendBlockedFrame_eq (m : OutgoingStreamsMap) :
    ∃ b s, m.maybeSendBlockedFrame = { m with blocked := b, blockedSent := s } := by
  simp only [maybeSendBlockedFrame]
  split
  · exact ⟨m.blocked, m.blockedSent, rfl⟩
  · exact ⟨_, _, rfl⟩

section

variable (hi : Inv m)

include hi

theorem maybeSendBlockedFrame_inv : Inv m.maybeSendBlockedFrame := by
  obtain ⟨b, s, heq⟩ := maybeSendBlockedFrame_eq m
  rw [heq]
  exact ⟨hi.sorted, hi.bounds, hi.quiet, hi.open_, hi.next, hi.given,
    hi.inOrder.consecutive, hi.inOrder.limit, hi.inOrder.order, hi.inOrder.first⟩

/-- Opening the next stream, for nobody or for a caller that is ahead of the
queue. -/
theorem openStream_inv {waited : Option Nat} (hle : m.nextStream ≤ m.maxStream)
    (hw : ∀ p, waited = some p → p < m.highestInQueue ∧ (∀ q ∈ m.positions, p < q) ∧
      ∀ g ∈ m.givenTo, g < p) : Inv (m.openStream waited) := by
  have hgiven : ∀ p, p ∈ (m.openStream waited).givenTo ↔ p ∈ m.givenTo ∨ waited = some p := by
    intro p
    simp [givenTo, openStream]
  refine ⟨hi.sorted, hi.bounds, hi.quiet, hi.open_, ?_, ?_, ?_, ?_, ?_, ?_⟩
  · simp only [openStream, hi.next, length_append, length_singleton]
    omega
  · intro p hp
    rcases (hgiven p).mp hp with hp | hp
    · exact hi.given p hp
    · exact (hw p hp).1
  · have hc := hi.inOrder.consecutive
    simp only [openStream, map_append, length_append, range_add, hc, hi.next]
    simp
  · intro o ho
    rcases mem_append.mp ho with ho | ho
    · exact hi.inOrder.limit o ho
    · rw [mem_singleton.mp ho]
      exact hle
  · have ho := hi.inOrder.order
    cases waited with
    | none => simpa [givenTo, openStream] using ho
    | some p =>
      have heq : (m.openStream (some p)).givenTo = m.givenTo ++ [p] := by
        simp [givenTo, openStream]
      rw [heq]
      refine pairwise_append.mpr ⟨ho, pairwise_singleton _ _, ?_⟩
      intro g hg q hq
      rw [mem_singleton.mp hq]
      exact (hw p rfl).2.2 g hg
  · intro p hp q hq
    rcases (hgiven p).mp hp with hp | hp
    · exact hi.inOrder.first p hp q hq
    · exact (hw p hp).2.1 q hq

theorem tryOpenStream_inv : Inv m.tryOpenStream := by
  simp only [tryOpenStream]
  split
  · exact hi
  · split_ifs with hfree
    · exact maybeSendBlockedFrame_inv hi
    · exact openStream_inv hi (by omega) (fun _ h => by cases h)

/-- A caller enters at the end of the queue, with an empty channel. -/
theorem enqueue_inv : Inv m.enqueue := by
  have hpos : m.enqueue.positions = m.positions ++ [m.highestInQueue] := by
    simp [positions, enqueue]
  refine ⟨?_, ?_, ?_, ?_, hi.next, ?_, hi.inOrder.consecutive, hi.inOrder.limit,
    hi.inOrder.order, ?_⟩
  · rw [hpos]
    refine pairwise_append.mpr ⟨hi.sorted, pairwise_singleton _ _, ?_⟩
    intro p hp q hq
    rw [mem_singleton.mp hq]
    exact (hi.bounds p hp).2
  · intro p hp
    rw [hpos] at hp
    simp only [enqueue]
    rcases mem_append.mp hp with hp | hp
    · have hne : m.openQueue ≠ [] := by
        intro hnil
        simp [positions, hnil] at hp
      have := hi.bounds p hp
      rw [if_neg hne]
      omega
    · rw [mem_singleton.mp hp]
      split_ifs with hne
      · omega
      · obtain ⟨c, hc⟩ := exists_mem_of_ne_nil _ hne
        have := hi.bounds c.queuePos (mem_map_of_mem hc)
        omega
  · intro hopen c hc
    cases hl : m.openQueue with
    | nil =>
      simp only [enqueue, hl, nil_append, tail_cons] at hc
      cases hc
    | cons d rest =>
      have hq := hi.quiet hopen
      simp only [enqueue, hl, cons_append, tail_cons] at hc
      rw [hl, tail_cons] at hq
      rcases mem_append.mp hc with hc | hc
      · exact hq c hc
      · rw [mem_singleton.mp hc]
        simp [Waiter.Signalled]
  · intro hopen c hc
    rcases mem_append.mp hc with hc | hc
    · exact hi.open_ hopen c hc
    · rw [mem_singleton.mp hc]
      simp
  · intro p hp
    exact Nat.lt_succ_of_lt (hi.given p hp)
  · intro p hp q hq
    rw [hpos] at hq
    rcases mem_append.mp hq with hq | hq
    · exact hi.inOrder.first p hp q hq
    · rw [mem_singleton.mp hq]
      exact hi.given p hp

theorem openStreamSync_inv (ctxDone : Bool) : Inv (m.openStreamSync ctxDone) := by
  simp only [openStreamSync]
  split
  · exact hi
  · split
    · exact hi
    · split_ifs with hfree
      · exact openStream_inv hi hfree.2 (fun _ h => by cases h)
      · exact maybeSendBlockedFrame_inv (enqueue_inv hi)

/-- An entry changes in place: it must not become signalled behind the first, and
its channel must stay open. -/
theorem update_inv (hf : ∀ c, (f c).queuePos = c.queuePos)
    (hquiet : m.closeErr = false → ∀ c ∈ m.openQueue.tail, c.queuePos = pos →
      ¬ Waiter.Signalled (f c)) (hopen : m.closeErr = false → ∀ c ∈ m.openQueue, c.queuePos = pos →
      (f c).waitChan ≠ .closed) : Inv (m.update pos f) := by
  have hpos : (m.update pos f).positions = m.positions := positions_modify hf
  refine ⟨hpos ▸ hi.sorted, hpos ▸ hi.bounds, ?_, ?_, hi.next, hi.given,
    hi.inOrder.consecutive, hi.inOrder.limit, hi.inOrder.order, hpos ▸ hi.inOrder.first⟩
  · intro hc c hmem
    simp only [update, modify, ← map_tail] at hmem
    obtain ⟨d, hd, rfl⟩ := mem_map.mp hmem
    split_ifs with heq
    · exact hquiet hc d hd heq
    · exact hi.quiet hc d hd
  · intro hc c hmem
    obtain ⟨d, hd, rfl⟩ := mem_map.mp hmem
    split_ifs with heq
    · exact hopen hc d hd heq
    · exact hi.open_ hc d hd

theorem filter_inv {p : Waiter → Bool} {lowest : Nat}
    (hlow : ∀ c ∈ m.openQueue, p c = true → lowest ≤ c.queuePos) :
    Inv { m with openQueue := m.openQueue.filter p, lowestInQueue := lowest } := by
  have hsub : ((m.openQueue.filter p).map (·.queuePos)).Sublist m.positions :=
    filter_sublist.map _
  refine ⟨hi.sorted.sublist hsub, ?_, ?_, ?_, hi.next, hi.given, hi.inOrder.consecutive,
    hi.inOrder.limit, hi.inOrder.order, fun a ha b hb => hi.inOrder.first a ha b (hsub.subset hb)⟩
  · intro q hq
    obtain ⟨c, hc, rfl⟩ := mem_map.mp hq
    obtain ⟨hmem, hp⟩ := mem_filter.mp hc
    exact ⟨hlow c hmem hp, (hi.bounds _ (mem_map_of_mem hmem)).2⟩
  · intro hopen c hc
    refine hi.quiet hopen c ?_
    cases hl : m.openQueue with
    | nil =>
      simp [hl] at hc
    | cons d rest =>
      simp only [hl, filter_cons] at hc
      split at hc
      · exact (mem_filter.mp hc).1
      · exact (mem_filter.mp (mem_of_mem_tail hc)).1
  · intro hopen c hc
    exact hi.open_ hopen c (mem_filter.mp hc).1

theorem unblockOpenSync_inv (h : m.unblockOpenSync = some m') : Inv m' := by
  rcases unblockOpenSync_some hi.sorted hi.bounds h with ⟨-, rfl⟩ | ⟨c, rest, hl, rfl⟩
  · exact hi
  · have hs := hi.sorted
    have hb := hi.bounds
    have hfirst := hi.inOrder.first
    have hq := hi.quiet
    have ho := hi.open_
    simp only [positions, hl, map_cons, tail_cons] at hs hb hfirst hq ho
    refine ⟨hs, hb, hq, ?_, hi.next, hi.given, hi.inOrder.consecutive, hi.inOrder.limit,
      hi.inOrder.order, hfirst⟩
    intro hopen d hd
    rcases mem_cons.mp hd with rfl | hd
    · simp
    · exact ho hopen d (mem_cons_of_mem _ hd)

/-- After `unblockOpenSync` nobody waits unsignalled. -/
theorem unblockOpenSync_noLostWakeup (h : m.unblockOpenSync = some m') : m'.NoLostWakeup := by
  intro _ hne _
  rcases unblockOpenSync_some hi.sorted hi.bounds h with ⟨hnil, rfl⟩ | ⟨c, rest, -, rfl⟩
  · exact absurd hnil hne
  · exact ⟨_, mem_cons_self, .inl rfl⟩

/-- The state in which a woken caller that gets its stream wakes the next. -/
theorem served_inv (hl : m.openQueue = c :: rest) (hle : m.nextStream ≤ m.maxStream) :
    Inv { m.openStream (some c.queuePos) with
      openQueue := m.openQueue.filter fun d => d.queuePos ≠ c.queuePos
      lowestInQueue := c.queuePos + 1 } := by
  have hrest := lt_of_cons hi.sorted hl
  have hmem : c.queuePos ∈ m.positions := by simp [positions, hl]
  -- everybody else in the queue is behind `c`
  have hbehind : ∀ d ∈ m.openQueue, decide (d.queuePos ≠ c.queuePos) = true →
      c.queuePos < d.queuePos := by
    intro d hd hne
    rw [hl] at hd
    rcases mem_cons.mp hd with rfl | hd
    · simp at hne
    · exact hrest d hd
  refine openStream_inv (m := { m with
    openQueue := m.openQueue.filter fun d => d.queuePos ≠ c.queuePos
    lowestInQueue := c.queuePos + 1 }) (filter_inv hi hbehind) hle ?_
  intro p hp
  cases hp
  refine ⟨(hi.bounds _ hmem).2, ?_, fun g hg => hi.inOrder.first g hg _ hmem⟩
  intro q hq
  obtain ⟨d, hd, rfl⟩ := mem_map.mp hq
  obtain ⟨hd, hne⟩ := mem_filter.mp hd
  exact hbehind d hd hne

theorem resume_inv (hc : m.waiter pos = some c)
    (hw : c.phase = .woken) (hs : m.resume pos = some m') : Inv m' ∧ m'.NoLostWakeup := by
  obtain ⟨hmem, rfl⟩ := waiter_some hc
  simp only [resume] at hs
  split at hs
  · rename_i hclosed
    cases hs
    refine ⟨update_inv hi (fun _ => rfl) ?_ ?_, ?_⟩
    · intro hopen
      rw [hclosed] at hopen
      cases hopen
    · intro hopen
      rw [hclosed] at hopen
      cases hopen
    · intro hopen
      simp [hclosed] at hopen
  · rename_i hopen
    have hopen : m.closeErr = false := by simpa using hopen
    split_ifs at hs with hfull
    · cases hs
      refine ⟨update_inv hi (fun _ => rfl) ?_ ?_, ?_⟩
      · intro _ d hd _ hsignal
        refine hi.quiet hopen d hd ?_
        rcases hsignal with hsignal | hsignal
        · exact .inl hsignal
        · cases hsignal
      · intro _ d hd _
        exact hi.open_ hopen d hd
      · intro _ _ hle
        exact absurd hle (Int.not_le.mpr hfull)
    · obtain ⟨rest, hl⟩ := hi.head hopen hmem (.inr hw)
      have hi' := served_inv hi hl (Int.not_lt.mp hfull)
      exact ⟨unblockOpenSync_inv hi' hs, unblockOpenSync_noLostWakeup hi' hs⟩

theorem raiseMaxStream_inv {num : Int} (hlt : m.maxStream < num) : Inv (m.raiseMaxStream num) := by
  have hi' : Inv { m with maxStream := num, blockedSent := false } :=
    ⟨hi.sorted, hi.bounds, hi.quiet, hi.open_, hi.next, hi.given, hi.inOrder.consecutive,
      fun o ho => (hi.inOrder.limit o ho).trans hlt.le, hi.inOrder.order, hi.inOrder.first⟩
  simp only [raiseMaxStream]
  split
  · exact maybeSendBlockedFrame_inv hi'
  · exact hi'

theorem closeWithError_inv : Inv m.closeWithError := by
  have hpos : m.closeWithError.positions = m.positions := by
    simp [positions, closeWithError, Function.comp_def]
  exact ⟨hpos ▸ hi.sorted, hpos ▸ hi.bounds, fun h => (nomatch h), fun h => (nomatch h), hi.next,
    hi.given, hi.inOrder.consecutive, hi.inOrder.limit, hi.inOrder.order, hpos ▸ hi.inOrder.first⟩

end

/-- What a step of a queued caller needs. -/
theorem step_waiter {p : Waiter → Prop} [DecidablePred p] {r : Option OutgoingStreamsMap}
    (hs : ((m.waiter pos).bind fun c => if p c then r else none) = some m') :
    ∃ c, m.waiter pos = some c ∧ p c ∧ r = some m' := by
  obtain ⟨c, hc, hs⟩ := Option.bind_eq_some_iff.mp hs
  split_ifs at hs with hp
  exact ⟨c, hc, hp, hs⟩

theorem step_inv {e : Event} (hi : Inv m) (hs : m.step e = some m') : Inv m' := by
  cases e with
  | openStream =>
    cases hs
    exact tryOpenStream_inv hi
  | openStreamSync ctxDone =>
    cases hs
    exact openStreamSync_inv hi ctxDone
  | cancel pos =>
    cases hs
    exact update_inv hi (fun _ => rfl) (fun hopen c hc _ => hi.quiet hopen c hc)
      (fun hopen c hc _ => hi.open_ hopen c hc)
  | receive pos =>
    obtain ⟨c, hc, ⟨-, hchan⟩, hs⟩ := step_waiter hs
    cases hs
    obtain ⟨hmem, rfl⟩ := waiter_some hc
    refine update_inv hi (fun _ => rfl) ?_ ?_
    · -- a caller that receives holds a token, so it is the first
      intro hopen d hd heq _
      have hdc := hi.unique (mem_of_mem_tail hd) hmem heq
      have htok : d.waitChan = .token := by
        have := hi.open_ hopen c hmem
        rw [hdc]
        cases hstate : c.waitChan with
        | empty => exact absurd hstate hchan
        | token => rfl
        | closed => exact absurd hstate this
      exact hi.quiet hopen d hd (.inl htok)
    · intro hopen d hd _
      have := hi.open_ hopen d hd
      cases hstate : d.waitChan with
      | closed => exact absurd hstate this
      | empty | token => simp [WaitChan.afterReceive]
  | ctxDone pos =>
    obtain ⟨c, hc, -, hs⟩ := step_waiter hs
    cases hs
    refine update_inv hi (fun _ => rfl) ?_ fun hopen d hd _ => hi.open_ hopen d hd
    intro hopen d hd _ hsignal
    refine hi.quiet hopen d hd ?_
    rcases hsignal with hsignal | hsignal
    · exact .inl hsignal
    · cases hsignal
  | resume pos =>
    obtain ⟨c, hc, hw, hs⟩ := step_waiter hs
    exact (resume_inv hi hc hw hs).1
  | leave pos =>
    obtain ⟨c, hc, -, hs⟩ := step_waiter hs
    cases hs
    exact filter_inv hi fun d hd _ => (hi.bounds _ (mem_map_of_mem hd)).1
  | setMaxStream num =>
    simp only [step, setMaxStream] at hs
    split_ifs at hs with hgt
    · cases hs
      exact hi
    · exact unblockOpenSync_inv (raiseMaxStream_inv hi (Int.not_le.mp hgt)) hs
  | closeWithError =>
    cases hs
    exact closeWithError_inv hi

theorem run_inv {tr : List Event} (hrun : machine.Run tr m) : Inv m := by
  refine Machine.Run.stable (I := Inv) ?_ ?_ hrun
  · intro s hs
    cases hs
    exact inv_new
  · intro s e s' hi hstep
    exact step_inv hi hstep

/-! ## The token is handed on -/

/-- An entry that stays signalled while it changes. -/
theorem update_noLostWakeup (hn : m.NoLostWakeup)
    (hf : ∀ c ∈ m.openQueue, c.queuePos = pos → Waiter.Signalled c → Waiter.Signalled (f c)) :
    (m.update pos f).NoLostWakeup := by
  intro hopen hne hle
  have hne' : m.openQueue ≠ [] := by
    intro hnil
    simp [update, modify, hnil] at hne
  obtain ⟨c, hc, hsignal⟩ := hn hopen hne' hle
  refine ⟨_, mem_map_of_mem hc, ?_⟩
  split_ifs with heq
  · exact hf c hc heq hsignal
  · exact hsignal

theorem maybeSendBlockedFrame_noLostWakeup (hn : m.NoLostWakeup) :
    m.maybeSendBlockedFrame.NoLostWakeup := by
  obtain ⟨b, s, heq⟩ := maybeSendBlockedFrame_eq m
  rw [heq]
  exact hn

theorem openStreamSync_noLostWakeup (hn : m.NoLostWakeup) (ctxDone : Bool) :
    (m.openStreamSync ctxDone).NoLostWakeup := by
  simp only [openStreamSync]
  split
  · exact hn
  · split
    · exact hn
    · split_ifs with hfree
      · intro _ hne
        exact absurd hfree.1 hne
      · refine maybeSendBlockedFrame_noLostWakeup ?_
        intro hopen _ hle
        have hne : m.openQueue ≠ [] := fun hnil => hfree ⟨hnil, hle⟩
        obtain ⟨c, hc, hsignal⟩ := hn hopen hne hle
        exact ⟨c, mem_append_left _ hc, hsignal⟩

/-- A caller leaves: the signalled caller is another one, or nobody is left. -/
theorem leave_noLostWakeup (hi : Inv m) (hn : m.NoLostWakeup)
    (hk : m.HandsOver (.leave pos)) (hc : m.waiter pos = some c) (hl : c.phase = .leaving) :
    (m.leave pos).NoLostWakeup := by
  obtain ⟨hmem, rfl⟩ := waiter_some hc
  intro hopen hne hle
  have hne' : m.openQueue ≠ [] := by
    intro hnil
    simp [leave, hnil] at hne
  obtain ⟨d, hd, hsignal⟩ := hn hopen hne' hle
  by_cases heq : d.queuePos = c.queuePos
  · obtain rfl := hi.unique hd hmem heq
    have htok : d.waitChan = .token := by
      rcases hsignal with hsignal | hsignal
      · exact hsignal
      · rw [hl] at hsignal
        cases hsignal
    have hall := hk d hd rfl htok hopen hle
    refine absurd ?_ hne
    simp only [leave, filter_eq_nil_iff]
    intro x hx
    simp [hall x hx]
  · exact ⟨d, mem_filter.mpr ⟨hd, by simpa using heq⟩, hsignal⟩

theorem step_noLostWakeup {e : Event} (hi : Inv m) (hn : m.NoLostWakeup) (hk : m.HandsOver e)
    (hs : m.step e = some m') : m'.NoLostWakeup := by
  cases e with
  | openStream =>
    cases hs
    simp only [tryOpenStream]
    split
    · exact hn
    · split_ifs with hfree
      · exact maybeSendBlockedFrame_noLostWakeup hn
      · intro _ hne
        exact absurd (.inl hne) hfree
  | openStreamSync ctxDone =>
    cases hs
    exact openStreamSync_noLostWakeup hn ctxDone
  | cancel pos =>
    cases hs
    exact update_noLostWakeup hn fun c _ _ hsignal => hsignal
  | receive pos =>
    obtain ⟨c, -, -, hs⟩ := step_waiter hs
    cases hs
    exact update_noLostWakeup hn fun c _ _ _ => .inr rfl
  | ctxDone pos =>
    obtain ⟨c, hc, ⟨hw, -⟩, hs⟩ := step_waiter hs
    cases hs
    obtain ⟨hmem, rfl⟩ := waiter_some hc
    refine update_noLostWakeup hn fun d hd heq hsignal => ?_
    obtain rfl := hi.unique hd hmem heq
    rcases hsignal with hsignal | hsignal
    · exact .inl hsignal
    · rw [hw] at hsignal
      cases hsignal
  | resume pos =>
    obtain ⟨c, hc, hw, hs⟩ := step_waiter hs
    exact (resume_inv hi hc hw hs).2
  | leave pos =>
    obtain ⟨c, hc, hl, hs⟩ := step_waiter hs
    cases hs
    exact leave_noLostWakeup hi hn hk hc hl
  | setMaxStream num =>
    simp only [step, setMaxStream] at hs
    split_ifs at hs with hgt
    · cases hs
      exact hn
    · exact unblockOpenSync_noLostWakeup (raiseMaxStream_inv hi (Int.not_le.mp hgt)) hs
  | closeWithError =>
    cases hs
    intro hopen
    cases hopen

theorem run_noLostWakeup {tr : List Event} (hrun : (machine.guard HandsOver).Run tr m) :
    m.NoLostWakeup := by
  refine Machine.Run.invariant (I := fun _ m => m.NoLostWakeup) ?_ ?_ hrun
  · intro s hs
    cases hs
    intro _ hne
    exact absurd rfl hne
  · intro tr s e s' hr hn hstep
    exact step_noLostWakeup (run_inv hr.of_guard) hn hstep.1 hstep.2

/-- A caller that leaves with a needed token strands the others. -/
theorem not_noLostWakeup_of_not_handsOver {e : Event} (hi : Inv m) (hk : ¬ m.HandsOver e)
    (hs : m.step e = some m') : ¬ m'.NoLostWakeup := by
  cases e with
  | leave pos =>
    obtain ⟨-, -, -, hs⟩ := step_waiter hs
    cases hs
    simp only [HandsOver, not_forall] at hk
    obtain ⟨c, hc, rfl, htok, hopen, hle, d, hd, hne⟩ := hk
    intro hn
    have hd' : d ∈ (m.leave c.queuePos).openQueue := mem_filter.mpr ⟨hd, by simpa using hne⟩
    obtain ⟨x, hx, hsignal⟩ := hn hopen (ne_nil_of_mem hd') hle
    obtain ⟨hx, hxne⟩ := mem_filter.mp hx
    obtain ⟨rest, hl⟩ := hi.head hopen hc (.inl htok)
    obtain ⟨rest', hl'⟩ := hi.head hopen hx hsignal
    rw [hl] at hl'
    cases hl'
    simp at hxne
  | openStream | openStreamSync | cancel | receive | ctxDone | resume | setMaxStream
  | closeWithError => exact absurd trivial hk

/-- **Waiting callers.**  In every run streams are handed out in order.  In a run
in which every leaving caller `HandsOver`, no wake-up is lost; the first step
that does not loses one. -/
theorem inOrder_and_noLostWakeup {tr : List Event} (hrun : machine.Run tr m) : m.InOrder ∧
      ((machine.guard HandsOver).Run tr m → m.NoLostWakeup) ∧
      ∀ e m', ¬ m.HandsOver e → m.step e = some m' → ¬ m'.NoLostWakeup :=
  ⟨(run_inv hrun).inOrder, run_noLostWakeup,
    fun _ _ hk hs => not_noLostWakeup_of_not_handsOver (run_inv hrun) hk hs⟩

/-- Two callers wait, and two streams become available. -/
theorem inOrder_and_noLostWakeup_twoCallers :
    ∃ tr m, (machine.guard HandsOver).Run tr m ∧ m.openQueue.length = 1 ∧
    m.nextStream ≤ m.maxStream ∧
      m.InOrder ∧ m.NoLostWakeup := by
  let tr : List Event :=
    [.openStreamSync false, .openStreamSync false, .setMaxStream 2, .receive 0, .resume 0]
  let m := (tr.foldlM step new).getD new
  have hrun : (machine.guard HandsOver).Run tr m := by
    rw [machine, Machine.run_guard_iff]
    decide
  have h := inOrder_and_noLostWakeup hrun.of_guard
  exact ⟨tr, m, hrun, by decide, by decide, h.1, h.2.1 hrun⟩

/-- The first of two callers is cancelled and gets the token at the same time. -/
def cancelledWithToken : List Event :=
  [.openStreamSync false, .openStreamSync false, .cancel 0, .setMaxStream 1, .ctxDone 0, .leave 0]

/-- The second caller waits, a stream is available, and nobody holds a token. -/
theorem lostWakeup_cancelledWithToken : ∃ m, machine.Run cancelledWithToken m ∧ m.closeErr = false ∧
      m.openQueue = [⟨1, .empty, .waiting, false⟩] ∧ m.nextStream ≤ m.maxStream ∧
      ¬ m.NoLostWakeup := by
  let m := (cancelledWithToken.foldlM step new).getD new
  have hrun : machine.Run cancelledWithToken m := Machine.run_ofStep_iff.mpr (by decide)
  exact ⟨m, hrun, by decide, by decide, by decide, by decide⟩

end OutgoingStreamsMap

end UQuic
