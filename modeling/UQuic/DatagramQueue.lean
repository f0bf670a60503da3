/-
# `UQuic.DatagramQueue` — the queues for datagrams

`datagram_queue.go`.  Its receiving half has no state in common with the sending half but the
channel `closed`, and `Receive` is followed in `UQuic.Consumers`.  `Add` is a process: it
takes the lock and runs through its loop until it returns, or until it waits on `sendCond`
for room.  Everything between two waits happens under the lock, so it is one step here.

    add, resume ──▶ closed, or the frame violates the limit:  returns an error
                ──▶ room for the frame:                       queued, returns
                ──▶ otherwise:                                waits

The packer runs in the connection's run loop, like the changes of the limit: between
a `Peek` and its `Pop` the limit stays.  `CloseWithError` is called once.  The version,
which the length of a frame does not depend on, is left out.

A call of `Add` is its number with the frame, which stands for the pointer that is
queued.  `log` records what was admitted and popped, and the limits that were set.

## What is proved

`sendQueue_safe`: in every run the queue respects its bound and the current limit, it
is in the order of admission, only a limit set later takes out frames, and no wake-up
is lost.

## How

The last part is `CondVar.Covers` for the calls whose frame meets the limit: everyone in
the wait set has validated its frame against the current limit, since a change of the
limit wakes all.
-/
import UQuic.RingBuffer
import UQuic.Lib.CondVar
import UQuic.Lib.Machine
import UQuic.Wire.DatagramFrame

namespace UQuic

open List Option

def maxDatagramSendQueueLen : Nat := 32

def maxDatagramRcvQueueLen : Nat := 128

def minLengthBearingDatagramFrameSize : Int := 2

/-- The errors of `validateOutgoingDatagramFrame`. -/
inductive DatagramError
  /-- `datagram support disabled`. -/
  | disabled
  /-- `DatagramTooLargeError`. -/
  | tooLarge (maxDatagramPayloadSize : Int)
  deriving DecidableEq, Repr

/-- A call of `Add`. -/
structure AddCall where
  number : Nat
  frame : DatagramFrame
  deriving DecidableEq, Repr, Inhabited

/-- How far a call of `Add` gets before it releases the lock. -/
inductive AddOutcome (ε : Type)
  | added
  | closed (e : ε)
  | invalid (e : DatagramError)
  | waits
  deriving DecidableEq, Repr

/-- `datagramQueue`, the sending half.  `closed` is `closeErr` once the channel is closed. -/
structure DatagramQueue (ε : Type) where
  sendQueue : RingBuffer AddCall
  maxOutgoingDatagramFrameSize : Int
  closed : Option ε
  sendCond : CondVar AddCall

/-- `datagramQueue`, the receiving half, which has a lock of its own; for the channel, each
function says how often it posts. -/
structure RcvQueue where
  rcvQueue : List (List UInt8)
  maxIncomingDatagramPayloadSize : Nat
  deriving DecidableEq, Repr

namespace RcvQueue

def handleDatagramFrame (h : RcvQueue) (data : List UInt8) : RcvQueue × Nat :=
  if 0 < h.maxIncomingDatagramPayloadSize ∧ h.maxIncomingDatagramPayloadSize < data.length then
    (h, 0)
  else if maxDatagramRcvQueueLen ≤ h.rcvQueue.length then (h, 0)
  else ({ h with rcvQueue := h.rcvQueue ++ [data] }, 1)

/-- `Receive`, under the lock; `none` if it has to wait. -/
def receive (h : RcvQueue) : Option RcvQueue :=
  match h.rcvQueue with
  | [] => none
  | _ :: rest => some { h with rcvQueue := rest }

end RcvQueue

namespace DatagramQueue

variable {ε : Type}

/-- `newDatagramQueue`. -/
def new : DatagramQueue ε := ⟨.new, 0, none, .empty⟩

/-- `validateOutgoingDatagramFrame`, against a limit; `none` is nil. -/
def validateOutgoingDatagramFrame (maxSize : Int) (f : DatagramFrame) : Option DatagramError :=
  if maxSize < minLengthBearingDatagramFrameSize then some .disabled
  else if f.size ≤ maxSize then none
  else some (.tooLarge ((DatagramFrame.mk f.dataLenPresent []).maxDataLen maxSize))

/-- The frame of a call satisfies the limit. -/
def Admissible (maxSize : Int) (c : AddCall) : Prop :=
  minLengthBearingDatagramFrameSize ≤ maxSize ∧ (c.frame.size : Int) ≤ maxSize

instance (maxSize : Int) (c : AddCall) : Decidable (Admissible maxSize c) := instDecidableAnd

/-- The loop of `Add`, up to where it returns or waits. -/
def addLoop (h : DatagramQueue ε) (c : AddCall) : DatagramQueue ε × AddOutcome ε :=
  match h.closed with
  | some e => (h, .closed e)
  | none =>
    match validateOutgoingDatagramFrame h.maxOutgoingDatagramFrameSize c.frame with
    | some e => (h, .invalid e)
    | none =>
      if h.sendQueue.len < maxDatagramSendQueueLen then
        ({ h with sendQueue := h.sendQueue.pushBack c }, .added)
      else ({ h with sendCond := h.sendCond.wait c }, .waits)

/-- The loop of `SetMaxOutgoingDatagramFrameSize`, for `queued` rounds. -/
def revalidate (maxSize : Int) : Nat → RingBuffer AddCall → Option (RingBuffer AddCall)
  | 0, r => some r
  | queued + 1, r =>
    match r.popFront with
    | none => none
    | some (c, r) =>
      match validateOutgoingDatagramFrame maxSize c.frame with
      | none => revalidate maxSize queued (r.pushBack c)
      | some _ => revalidate maxSize queued r

def setMaxOutgoingDatagramFrameSize (h : DatagramQueue ε) (maxSize : Int) :
    Option (DatagramQueue ε) :=
  (revalidate maxSize h.sendQueue.len h.sendQueue).map fun r =>
    { h with
      sendQueue := r
      maxOutgoingDatagramFrameSize := maxSize
      sendCond := h.sendCond.broadcast }

def peek (h : DatagramQueue ε) : Option AddCall :=
  if h.sendQueue.isEmpty then none else h.sendQueue.peekFront

/-- `Pop`, with the frame that it discards; `i` is the waiter that `Signal` wakes. -/
def pop (h : DatagramQueue ε) (i : Nat) : Option (AddCall × DatagramQueue ε) :=
  h.sendQueue.popFront.map fun (c, r) =>
    (c, { h with sendQueue := r, sendCond := h.sendCond.signal i })

/-- `CloseWithError`; closing the channel again panics. -/
def closeWithError (h : DatagramQueue ε) (e : ε) : Option (DatagramQueue ε) :=
  match h.closed with
  | some _ => none
  | none => some { h with closed := some e, sendCond := h.sendCond.broadcast }

/-! ## The queue with its callers -/

/-- What happens to the queue. -/
inductive Entry
  | admitted (c : AddCall)
  | popped (c : AddCall)
  | limit (maxSize : Int)
  deriving DecidableEq, Repr

def admitted (log : List Entry) : List AddCall :=
  log.filterMap fun | .admitted c => some c | _ => none

def popped (log : List Entry) : List AddCall :=
  log.filterMap fun | .popped c => some c | _ => none

/-- The queue, the number of `Add` calls so far, what the packer has peeked and not yet
popped, and the log. -/
structure System (ε : Type) where
  queue : DatagramQueue ε
  calls : Nat
  peeked : Option AddCall
  log : List Entry

/-- A step under the lock. -/
inductive Event (ε : Type)
  /-- A new call of `Add` gets the lock. -/
  | add (f : DatagramFrame)
  /-- A woken call of `Add` gets the lock. -/
  | resume (i : Nat)
  | peek
  | pop (i : Nat)
  /-- The packer goes on without a `Pop`. -/
  | leave
  | setMaxOutgoingDatagramFrameSize (maxSize : Int)
  | closeWithError (e : ε)
  deriving DecidableEq, Repr

namespace System

/-- `newDatagramQueue`, without callers. -/
def new : System ε := ⟨.new, 0, none, []⟩

/-- What the outcome of a call adds to the log. -/
def entries (c : AddCall) : AddOutcome ε → List Entry
  | .added => [.admitted c]
  | .closed _ | .invalid _ | .waits => []

/-- `Add` runs until it releases the lock. -/
def run (s : System ε) (h : DatagramQueue ε) (c : AddCall) : System ε :=
  { s with queue := (h.addLoop c).1, log := s.log ++ entries c (h.addLoop c).2 }

/-- One step; `none` is a panic, or a step there is nobody for. -/
def step (s : System ε) : Event ε → Option (System ε)
  | .add f => some { s.run s.queue ⟨s.calls, f⟩ with calls := s.calls + 1 }
  | .resume i =>
    (s.queue.sendCond.resume i).map fun (c, cond) => s.run { s.queue with sendCond := cond } c
  | .peek => some { s with peeked := s.queue.peek }
  | .pop i =>
    (s.queue.pop i).map fun (c, h) =>
      { s with queue := h, peeked := none, log := s.log ++ [.popped c] }
  | .leave => some { s with peeked := none }
  | .setMaxOutgoingDatagramFrameSize maxSize =>
    (s.queue.setMaxOutgoingDatagramFrameSize maxSize).map fun h =>
      { s with queue := h, log := s.log ++ [.limit maxSize] }
  | .closeWithError e => (s.queue.closeWithError e).map fun h => { s with queue := h }

/-- What the connection keeps to: `Pop` follows a `Peek` that returned a frame, the limit
does not change in between, and the queue is closed once. -/
def Permitted (s : System ε) : Event ε → Prop
  | .pop _ => s.peeked ≠ none
  | .setMaxOutgoingDatagramFrameSize _ => s.peeked = none
  | .closeWithError _ => s.queue.closed.isNone
  | _ => True

instance (s : System ε) : (e : Event ε) → Decidable (Permitted s e)
  | .pop _ => inferInstanceAs (Decidable (s.peeked ≠ none))
  | .setMaxOutgoingDatagramFrameSize _ => inferInstanceAs (Decidable (s.peeked = none))
  | .closeWithError _ => inferInstanceAs (Decidable (s.queue.closed.isNone = true))
  | .add _ | .resume _ | .peek | .leave => .isTrue trivial

def machine (ε : Type) : Machine (System ε) (Event ε) :=
  (Machine.ofStep new step).guard Permitted

end System

/-! ## Validation -/

section Validation

variable {maxSize : Int} {c : AddCall}

theorem validate_eq_none : validateOutgoingDatagramFrame maxSize c.frame = none ↔
    Admissible maxSize c := by
  rw [validateOutgoingDatagramFrame, Admissible]
  split
  · simp only [reduceCtorEq, false_iff]
    omega
  · split
    · simp only [true_iff]
      omega
    · simp only [reduceCtorEq, false_iff]
      omega

theorem addLoop_cases (h : DatagramQueue ε) (c : AddCall) :
    (∃ e, h.closed = some e ∧ h.addLoop c = (h, .closed e)) ∨
    (h.closed = none ∧ ¬ Admissible h.maxOutgoingDatagramFrameSize c ∧
      ∃ e, h.addLoop c = (h, .invalid e)) ∨
    (h.closed = none ∧ Admissible h.maxOutgoingDatagramFrameSize c ∧
      h.sendQueue.len < maxDatagramSendQueueLen ∧
      h.addLoop c = ({ h with sendQueue := h.sendQueue.pushBack c }, .added)) ∨
    (h.closed = none ∧ Admissible h.maxOutgoingDatagramFrameSize c ∧
      maxDatagramSendQueueLen ≤ h.sendQueue.len ∧
      h.addLoop c = ({ h with sendCond := h.sendCond.wait c }, .waits)) := by
  simp only [addLoop]
  cases hclosed : h.closed with
  | some e => exact .inl ⟨e, rfl, rfl⟩
  | none =>
    refine .inr ?_
    cases hval : validateOutgoingDatagramFrame h.maxOutgoingDatagramFrameSize c.frame with
    | some e =>
      refine .inl ⟨rfl, fun hadmissible => ?_, e, rfl⟩
      rw [validate_eq_none.mpr hadmissible] at hval
      cases hval
    | none =>
      have hadmissible := validate_eq_none.mp hval
      refine .inr ?_
      dsimp only
      split
      · exact .inl ⟨rfl, hadmissible, by assumption, rfl⟩
      · exact .inr ⟨rfl, hadmissible, Nat.le_of_not_lt (by assumption), rfl⟩

/-- Rotating the buffer once, dropping what violates the limit, filters it. -/
theorem revalidate_eq (maxSize : Int) : ∀ (l kept : List AddCall) (r : RingBuffer AddCall),
    r.toList = l ++ kept → ∃ r', revalidate maxSize l.length r = some r' ∧
      r'.toList = kept ++ l.filter fun c => Admissible maxSize c := by
  intro l
  induction l with
  | nil =>
    intro kept r hr
    exact ⟨r, rfl, by rw [hr, nil_append, filter_nil, append_nil]⟩
  | cons c l ih =>
    intro kept r hr
    obtain ⟨r₁, hpop, hr₁⟩ := RingBuffer.popFront_of_toList (hr.trans cons_append)
    by_cases hadmissible : Admissible maxSize c
    · obtain ⟨r', hr', hlist⟩ := ih (kept ++ [c]) (r₁.pushBack c) (by
        rw [RingBuffer.toList_pushBack, hr₁, append_assoc])
      refine ⟨r', ?_, ?_⟩
      · simp only [length_cons, revalidate, hpop, validate_eq_none.mpr hadmissible]
        exact hr'
      · rw [hlist, filter_cons, if_pos (decide_eq_true hadmissible), append_assoc, singleton_append]
    · obtain ⟨r', hr', hlist⟩ := ih kept r₁ hr₁
      have hval := validate_eq_none.not.mpr hadmissible
      obtain ⟨e, he⟩ := ne_none_iff_exists'.mp hval
      refine ⟨r', ?_, ?_⟩
      · simp only [length_cons, revalidate, hpop, he]
        exact hr'
      · rw [hlist, filter_cons, if_neg (by simpa using hadmissible)]

theorem setMax_eq (h : DatagramQueue ε) (maxSize : Int) :
    ∃ r, h.setMaxOutgoingDatagramFrameSize maxSize =
        some ⟨r, maxSize, h.closed, h.sendCond.broadcast⟩ ∧
      r.toList = h.sendQueue.toList.filter fun c => Admissible maxSize c := by
  obtain ⟨r, hr, hlist⟩ := revalidate_eq maxSize h.sendQueue.toList [] h.sendQueue
    (append_nil _).symm
  rw [RingBuffer.length_toList] at hr
  refine ⟨r, ?_, hlist⟩
  rw [setMaxOutgoingDatagramFrameSize, hr]
  rfl

theorem pop_eq_some {h h' : DatagramQueue ε} {i : Nat} (hpop : h.pop i = some (c, h')) :
    h.sendQueue.toList = c :: h'.sendQueue.toList ∧
      h' = { h with sendQueue := h'.sendQueue, sendCond := h.sendCond.signal i } := by
  obtain ⟨⟨c', r⟩, hfront, heq⟩ := map_eq_some_iff.mp hpop
  cases heq
  exact ⟨RingBuffer.popFront_eq_some hfront, rfl⟩

theorem peek_eq (h : DatagramQueue ε) : h.peek = h.sendQueue.toList.head? := by
  rw [peek]
  split_ifs with hempty
  · rw [RingBuffer.isEmpty_iff.mp hempty, List.head?_nil]
  · exact RingBuffer.peekFront_eq _

end Validation

/-! ## The queue between two steps -/

def room (h : DatagramQueue ε) : Nat := maxDatagramSendQueueLen - h.sendQueue.len

/-- The call's frame satisfies the current limit. -/
def wants (h : DatagramQueue ε) (c : AddCall) : Bool :=
  Admissible h.maxOutgoingDatagramFrameSize c

/-- The bound and the limit hold; who waits satisfies the limit and the queue is open. -/
structure Sound (h : DatagramQueue ε) : Prop where
  le : h.sendQueue.toList.length ≤ maxDatagramSendQueueLen
  queued : ∀ c ∈ h.sendQueue.toList, Admissible h.maxOutgoingDatagramFrameSize c
  waiting : ∀ c ∈ h.sendCond.waiting, Admissible h.maxOutgoingDatagramFrameSize c
  closed : h.closed ≠ none → h.sendCond.waiting = []

/-- No wake-up is lost: the calls that were woken take all the room there is. -/
def Awake (h : DatagramQueue ε) : Prop := h.sendCond.Covers h.wants h.room

namespace Sound

variable {h : DatagramQueue ε} {h' : DatagramQueue ε}

theorem new : (new : DatagramQueue ε).Sound where
  le := Nat.zero_le _
  queued := forall_mem_nil _
  waiting := forall_mem_nil _
  closed _ := rfl

variable (hs : h.Sound)

include hs

/-- `Add` keeps the queue sound and awake.  A call that was just woken no longer counts
among the woken ones. -/
theorem addLoop {c : AddCall}
    (hc : h.sendCond.Covers h.wants (if h.wants c then h.room - 1 else h.room)) :
    (h.addLoop c).1.Sound ∧ (h.addLoop c).1.Awake := by
  rcases addLoop_cases h c with ⟨e, hclosed, heq⟩ | ⟨-, hadmissible, e, heq⟩ |
    ⟨-, hadmissible, hlen, heq⟩ | ⟨hopen, hadmissible, hlen, heq⟩
  · have hnil := hs.closed (by rw [hclosed]; nofun)
    rw [heq]
    exact ⟨hs, fun hw => absurd hnil hw⟩
  · have hwants : h.wants c = false := decide_eq_false hadmissible
    rw [hwants, if_neg Bool.false_ne_true] at hc
    rw [heq]
    exact ⟨hs, hc⟩
  · have hwants : h.wants c = true := decide_eq_true hadmissible
    rw [hwants, if_pos rfl] at hc
    rw [heq]
    refine ⟨⟨?_, ?_, hs.waiting, hs.closed⟩, hc.mono ?_⟩
    · rw [RingBuffer.toList_pushBack, length_append, RingBuffer.length_toList]
      exact hlen
    · intro d hd
      rw [RingBuffer.toList_pushBack, mem_append, mem_singleton] at hd
      rcases hd with hd | rfl
      · exact hs.queued d hd
      · exact hadmissible
    · rw [room, room, ← RingBuffer.length_toList, RingBuffer.toList_pushBack, length_append,
        RingBuffer.length_toList]
      exact Nat.le_of_eq (Nat.sub_add_eq _ _ _)
  · rw [heq]
    refine ⟨⟨hs.le, hs.queued, ?_, fun hne => absurd hopen hne⟩, ?_⟩
    · intro d hd
      rcases mem_append.mp hd with hd | hd
      · exact hs.waiting d hd
      · rw [mem_singleton.mp hd]
        exact hadmissible
    · have hroom : h.room = 0 := Nat.sub_eq_zero_of_le hlen
      show (h.sendCond.wait c).Covers _ h.room
      rw [hroom]
      exact CondVar.Covers.wait

theorem add (ha : h.Awake) (c : AddCall) : (h.addLoop c).1.Sound ∧ (h.addLoop c).1.Awake := by
  refine hs.addLoop (ha.mono ?_)
  split
  · exact Nat.sub_le _ _
  · exact le_rfl

theorem resume (ha : h.Awake) {i : Nat} {c : AddCall} {cond : CondVar AddCall}
    (hresume : h.sendCond.resume i = some (c, cond)) :
    ({ h with sendCond := cond }.addLoop c).1.Sound ∧
      ({ h with sendCond := cond }.addLoop c).1.Awake := by
  have hcovers := CondVar.Covers.resume ha hresume
  obtain ⟨-, rfl⟩ := CondVar.resume_eq_some hresume
  have hs' : Sound { h with
      sendCond := { h.sendCond with woken := h.sendCond.woken.eraseIdx i } } :=
    { hs with }
  exact hs'.addLoop hcovers

theorem pop (ha : h.Awake) {i : Nat} {c : AddCall}
    (hpop : h.pop i = some (c, h')) : h'.Sound ∧ h'.Awake := by
  obtain ⟨hlist, heq⟩ := pop_eq_some hpop
  have hlen : h.sendQueue.len = h'.sendQueue.len + 1 := by
    rw [← RingBuffer.length_toList, hlist, length_cons, RingBuffer.length_toList]
  have hle : h.sendQueue.len ≤ maxDatagramSendQueueLen := by
    rw [← RingBuffer.length_toList]
    exact hs.le
  have hroom : h'.room = h.room + 1 := by
    rw [room, room]
    omega
  rw [heq]
  refine ⟨⟨?_, ?_, ?_, ?_⟩, ?_⟩
  · rw [RingBuffer.length_toList]
    exact Nat.le_trans (Nat.le_of_lt (by rw [hlen]; exact Nat.lt_succ_self _)) hle
  · intro d hd
    exact hs.queued d (by rw [hlist]; exact mem_cons_of_mem c hd)
  · intro d hd
    exact hs.waiting d (CondVar.mem_waiting_signal hd)
  · intro hclosed
    have hnil := hs.closed hclosed
    rcases CondVar.signal_cases h.sendCond i with ⟨-, hsignal⟩ | ⟨j, k, hk, -⟩
    · show (h.sendCond.signal i).waiting = []
      rw [hsignal, hnil]
    · rw [hnil] at hk
      cases hk
  · show (h.sendCond.signal i).Covers h.wants h'.room
    rw [hroom]
    exact ha.signal (fun k hk => decide_eq_true (hs.waiting k hk)) i

theorem setMax {maxSize : Int}
    (hset : h.setMaxOutgoingDatagramFrameSize maxSize = some h') : h'.Sound ∧ h'.Awake := by
  obtain ⟨r, heq, hlist⟩ := setMax_eq h maxSize
  cases heq.symm.trans hset
  refine ⟨⟨?_, ?_, forall_mem_nil _, fun _ => rfl⟩, CondVar.Covers.broadcast⟩
  · rw [hlist]
    exact (length_filter_le _ _).trans hs.le
  · intro c hc
    rw [hlist] at hc
    exact of_decide_eq_true (mem_filter.mp hc).2

theorem close {e : ε} (hclose : h.closeWithError e = some h') : h'.Sound ∧ h'.Awake := by
  rw [closeWithError] at hclose
  split at hclose
  · cases hclose
  · cases hclose
    exact ⟨⟨hs.le, hs.queued, forall_mem_nil _, fun _ => rfl⟩, CondVar.Covers.broadcast⟩

end Sound

/-! ## The order of admission -/

/-- The frame was admitted, and a limit that it does not satisfy was set later. -/
def Discarded (log : List Entry) (c : AddCall) : Prop :=
  ∃ before between after maxSize,
    log = before ++ .admitted c :: (between ++ .limit maxSize :: after) ∧
    ¬ Admissible maxSize c

/-- What was popped and what is queued is in the order of admission, and everything else
that was admitted has been discarded. -/
structure Orderly (log : List Entry) (queue : List AddCall) : Prop where
  sublist : (popped log ++ queue).Sublist (admitted log)
  complete : ∀ c ∈ admitted log, c ∈ popped log ++ queue ∨ Discarded log c

section Order

variable {log : List Entry} {queue : List AddCall} {c : AddCall}

@[simp] theorem admitted_append (log : List Entry) (e : Entry) : admitted (log ++ [e]) =
    admitted log ++ (match e with | .admitted c => [c] | _ => []) := by
  rw [admitted, filterMap_append]
  cases e <;> rfl

@[simp] theorem popped_append (log : List Entry) (e : Entry) : popped (log ++ [e]) =
    popped log ++ (match e with | .popped c => [c] | _ => []) := by
  rw [popped, filterMap_append]
  cases e <;> rfl

theorem Discarded.append (h : Discarded log c) (e : Entry) : Discarded (log ++ [e]) c := by
  obtain ⟨before, between, after, maxSize, rfl, hadmissible⟩ := h
  refine ⟨before, between, after ++ [e], maxSize, ?_, hadmissible⟩
  simp only [append_assoc, cons_append]

/-- A limit that a frame does not satisfy is set after its admission. -/
theorem Discarded.of_limit {maxSize : Int} (h : c ∈ admitted log)
    (hadmissible : ¬ Admissible maxSize c) :
    Discarded (log ++ [.limit maxSize]) c := by
  obtain ⟨e, he, hc⟩ := mem_filterMap.mp h
  cases e with
  | admitted d =>
    cases hc
    obtain ⟨before, after, rfl⟩ := append_of_mem he
    exact ⟨before, after, [], maxSize, by simp only [append_assoc, cons_append], hadmissible⟩
  | popped d | limit n => cases hc

namespace Orderly

theorem nil : Orderly [] [] := ⟨List.Sublist.slnil, forall_mem_nil _⟩

theorem joined (h : Orderly log queue) (c : AddCall) :
    Orderly (log ++ [.admitted c]) (queue ++ [c]) where
  sublist := by
    rw [popped_append, admitted_append, append_nil, ← append_assoc]
    exact h.sublist.append (List.Sublist.refl _)
  complete d hd := by
    rw [admitted_append, mem_append, mem_singleton] at hd
    rw [popped_append, append_nil, ← append_assoc]
    rcases hd with hd | rfl
    · exact (h.complete d hd).imp (mem_append_left _) (·.append _)
    · exact .inl (mem_append_right _ mem_cons_self)

theorem pop (h : Orderly log (c :: queue)) : Orderly (log ++ [.popped c]) queue where
  sublist := by
    rw [popped_append, admitted_append, append_nil, append_assoc]
    exact h.sublist
  complete d hd := by
    rw [admitted_append, append_nil] at hd
    rw [popped_append, append_assoc]
    exact (h.complete d hd).imp id (·.append _)

theorem limit (h : Orderly log queue) (maxSize : Int) :
    Orderly (log ++ [.limit maxSize]) (queue.filter fun c => Admissible maxSize c) where
  sublist := by
    rw [popped_append, admitted_append, append_nil, append_nil]
    exact ((List.Sublist.refl _).append filter_sublist).trans h.sublist
  complete c hc := by
    rw [admitted_append, append_nil] at hc
    rw [popped_append, append_nil]
    rcases h.complete c hc with hmem | hdiscarded
    · rcases mem_append.mp hmem with hp | hq
      · exact .inl (mem_append_left _ hp)
      · by_cases hadmissible : Admissible maxSize c
        · exact .inl (mem_append_right _ (mem_filter.mpr ⟨hq, decide_eq_true hadmissible⟩))
        · exact .inr (.of_limit hc hadmissible)
    · exact .inr (hdiscarded.append _)

end Orderly

end Order

/-! ## Calls are told apart by their numbers -/

/-- The calls that were admitted and those that wait have different numbers, below `calls`. -/
def Numbered (calls : Nat) (log : List Entry) (pending : List AddCall) : Prop :=
  ((admitted log ++ pending).map (·.number)).Nodup ∧
    ∀ c ∈ admitted log ++ pending, c.number < calls

section Numbers

variable {calls : Nat} {log : List Entry} {l l' : List AddCall} {c : AddCall}

theorem Numbered.perm (h : Numbered calls log l) (hp : l'.Perm l) : Numbered calls log l' := by
  have hperm := hp.append_left (admitted log)
  refine ⟨(hperm.map _).nodup_iff.mpr h.1, fun c hc => h.2 c (hperm.mem_iff.mp hc)⟩

theorem Numbered.cons (h : Numbered calls log l) (f : DatagramFrame) :
    Numbered (calls + 1) log (⟨calls, f⟩ :: l) := by
  have hperm : (admitted log ++ ⟨calls, f⟩ :: l).Perm (⟨calls, f⟩ :: (admitted log ++ l)) :=
    perm_middle
  constructor
  · rw [(hperm.map _).nodup_iff, map_cons, nodup_cons]
    refine ⟨fun hmem => ?_, h.1⟩
    obtain ⟨c, hc, hnum⟩ := mem_map.mp hmem
    exact Nat.ne_of_lt (h.2 c hc) hnum
  · intro c hc
    rcases mem_cons.mp (hperm.mem_iff.mp hc) with rfl | hc
    · exact Nat.lt_succ_self calls
    · exact Nat.lt_succ_of_lt (h.2 c hc)

theorem Numbered.tail (h : Numbered calls log (c :: l)) : Numbered calls log l := by
  have hsub : (admitted log ++ l).Sublist (admitted log ++ c :: l) :=
    (List.Sublist.refl _).append (sublist_cons_self c l)
  exact ⟨h.1.sublist (hsub.map _), fun d hd => h.2 d (hsub.subset hd)⟩

theorem Numbered.joined (h : Numbered calls log (c :: l)) :
    Numbered calls (log ++ [.admitted c]) l := by
  have heq : admitted (log ++ [.admitted c]) ++ l = admitted log ++ c :: l := by
    rw [admitted_append, append_assoc]
    rfl
  rw [Numbered, heq]
  exact h

theorem Numbered.congr {log' : List Entry} (h : Numbered calls log l)
    (heq : admitted log' = admitted log) : Numbered calls log' l := by
  rw [Numbered, heq]
  exact h

end Numbers

/-! ## Whole runs -/

namespace System

/-- What holds at every point where the lock is free. -/
structure Invariant (s : System ε) : Prop where
  sound : s.queue.Sound
  awake : s.queue.Awake
  peeked : ∀ c ∈ s.peeked, s.queue.sendQueue.toList.head? = some c
  orderly : Orderly s.log s.queue.sendQueue.toList
  numbered : Numbered s.calls s.log s.queue.sendCond.pending

variable {s s' : System ε}

theorem Invariant.new : (new : System ε).Invariant where
  sound := .new
  awake hw := absurd rfl hw
  peeked := by simp [System.new]
  orderly := .nil
  numbered := ⟨nodup_nil, forall_mem_nil _⟩

/-- What a call of `Add` does to the log and to the calls that wait. -/
theorem run_keeps {h : DatagramQueue ε} {c : AddCall} {calls : Nat}
    (ho : Orderly s.log h.sendQueue.toList) (hn : Numbered calls s.log (c :: h.sendCond.pending)) :
    Orderly (s.run h c).log (s.run h c).queue.sendQueue.toList ∧
      Numbered calls (s.run h c).log (s.run h c).queue.sendCond.pending := by
  simp only [run]
  rcases addLoop_cases h c with ⟨e, -, heq⟩ | ⟨-, -, e, heq⟩ | ⟨-, -, -, heq⟩ | ⟨-, -, -, heq⟩
  · rw [heq, entries, append_nil]
    exact ⟨ho, hn.tail⟩
  · rw [heq, entries, append_nil]
    exact ⟨ho, hn.tail⟩
  · rw [heq, entries, RingBuffer.toList_pushBack]
    exact ⟨ho.joined c, hn.joined⟩
  · rw [heq, entries, append_nil]
    exact ⟨ho, hn.perm CondVar.pending_wait⟩

/-- A call of `Add` leaves the front of the queue. -/
theorem head_addLoop {h : DatagramQueue ε} {c d : AddCall}
    (hd : h.sendQueue.toList.head? = some d) : (h.addLoop c).1.sendQueue.toList.head? = some d := by
  rcases addLoop_cases h c with ⟨e, -, heq⟩ | ⟨-, -, e, heq⟩ | ⟨-, -, -, heq⟩ | ⟨-, -, -, heq⟩
  · rwa [heq]
  · rwa [heq]
  · rw [heq, RingBuffer.toList_pushBack, List.head?_append, hd]
    rfl
  · rwa [heq]

theorem Invariant.step (hi : s.Invariant) {e : Event ε} (hp : Permitted s e)
    (hstep : s.step e = some s') : s'.Invariant := by
  cases e with
  | add f =>
    cases hstep
    obtain ⟨hsound, hawake⟩ := hi.sound.add hi.awake ⟨s.calls, f⟩
    obtain ⟨ho, hn⟩ := run_keeps hi.orderly (hi.numbered.cons f)
    exact ⟨hsound, hawake, fun d hd => head_addLoop (hi.peeked d hd), ho, hn⟩
  | resume i =>
    obtain ⟨⟨c, cond⟩, hresume, rfl⟩ := map_eq_some_iff.mp hstep
    obtain ⟨hsound, hawake⟩ := hi.sound.resume hi.awake hresume
    obtain ⟨ho, hn⟩ := run_keeps (h := { s.queue with sendCond := cond }) hi.orderly
      (hi.numbered.perm (CondVar.pending_resume hresume).symm)
    exact ⟨hsound, hawake, fun d hd => head_addLoop (hi.peeked d hd), ho, hn⟩
  | peek =>
    cases hstep
    refine { hi with peeked := fun c hc => ?_ }
    rw [← peek_eq]
    exact hc
  | pop i =>
    obtain ⟨⟨c, h⟩, hpop, rfl⟩ := map_eq_some_iff.mp hstep
    obtain ⟨hsound, hawake⟩ := hi.sound.pop hi.awake hpop
    obtain ⟨hlist, heq⟩ := pop_eq_some hpop
    have ho := hi.orderly
    rw [hlist] at ho
    refine ⟨hsound, hawake, nofun, ho.pop, ?_⟩
    have hn : Numbered s.calls s.log h.sendCond.pending := by
      rw [heq]
      exact hi.numbered.perm CondVar.pending_signal
    exact hn.congr (by rw [admitted_append, append_nil])
  | leave =>
    cases hstep
    exact { hi with peeked := nofun }
  | setMaxOutgoingDatagramFrameSize maxSize =>
    obtain ⟨h, hset, rfl⟩ := map_eq_some_iff.mp hstep
    obtain ⟨hsound, hawake⟩ := hi.sound.setMax hset
    obtain ⟨r, heq, hlist⟩ := setMax_eq s.queue maxSize
    cases heq.symm.trans hset
    refine ⟨hsound, hawake, fun c hc => ?_, ?_, ?_⟩
    · rw [show s.peeked = none from hp] at hc
      cases hc
    · show Orderly _ r.toList
      rw [hlist]
      exact hi.orderly.limit maxSize
    · exact (hi.numbered.perm CondVar.pending_broadcast).congr
        (by rw [admitted_append, append_nil])
  | closeWithError e =>
    obtain ⟨h, hclose, rfl⟩ := map_eq_some_iff.mp hstep
    obtain ⟨hsound, hawake⟩ := hi.sound.close hclose
    rw [closeWithError] at hclose
    split at hclose
    · cases hclose
    · cases hclose
      exact ⟨hsound, hawake, hi.peeked, hi.orderly, hi.numbered.perm CondVar.pending_broadcast⟩

theorem invariant_of_run {tr : List (Event ε)} (hrun : (machine ε).Run tr s) : s.Invariant := by
  refine Machine.Run.stable (I := Invariant) ?_ ?_ hrun
  · rintro s rfl
    exact .new
  · rintro s e s' hi ⟨hp, hstep⟩
    exact hi.step hp hstep

/-- What a `Pop` finds is what the `Peek` before it returned; there is no panic. -/
theorem Invariant.pop_peeked (hi : s.Invariant) {c : AddCall} (hc : s.peeked = some c) (i : Nat) :
    ∃ h, s.queue.pop i = some (c, h) := by
  obtain ⟨l, hl⟩ : ∃ l, s.queue.sendQueue.toList = c :: l := by
    have hhead := hi.peeked c hc
    cases hlist : s.queue.sendQueue.toList with
    | nil =>
      rw [hlist] at hhead
      cases hhead
    | cons d l =>
      rw [hlist] at hhead
      cases hhead
      exact ⟨l, rfl⟩
  obtain ⟨r, hr, -⟩ := RingBuffer.popFront_of_toList hl
  exact ⟨_, by rw [pop, hr]; rfl⟩

/-- **The send queue is safe.**  At every point of every run where the lock is free: the queue
respects its bound and every queued frame the current limit; what was popped and what is
queued is in the order of admission, where each frame stands once, and the only other
admitted frames are those that a limit set later excluded; a `Pop` finds the frame that was
peeked; who is in the wait set satisfies the current limit; and while somebody waits there
is no room and the queue is open, or a woken call has yet to run. -/
theorem sendQueue_safe {tr : List (Event ε)} (hrun : (machine ε).Run tr s) :
    (s.queue.sendQueue.toList.length ≤ 32 ∧ ∀ c ∈ s.queue.sendQueue.toList,
        validateOutgoingDatagramFrame s.queue.maxOutgoingDatagramFrameSize c.frame = none) ∧
    ((popped s.log ++ s.queue.sendQueue.toList).Sublist (admitted s.log) ∧
      ((admitted s.log).map (·.number)).Nodup ∧ ∀ c ∈ admitted s.log,
        c ∈ popped s.log ∨ c ∈ s.queue.sendQueue.toList ∨ Discarded s.log c) ∧
    (∀ c i, s.peeked = some c → ∃ h, s.queue.pop i = some (c, h)) ∧ (∀ c ∈ s.queue.sendCond.waiting,
      validateOutgoingDatagramFrame s.queue.maxOutgoingDatagramFrameSize c.frame = none) ∧
    (s.queue.sendCond.waiting ≠ [] → s.queue.sendQueue.toList.length < 32 ∨ s.queue.closed ≠ none →
        s.queue.sendCond.woken ≠ []) := by
  have hi := invariant_of_run hrun
  refine ⟨⟨hi.sound.le, fun c hc => validate_eq_none.mpr (hi.sound.queued c hc)⟩,
    ⟨hi.orderly.sublist, ?_, fun c hc => ?_⟩, fun c i hc => hi.pop_peeked hc i,
    fun c hc => validate_eq_none.mpr (hi.sound.waiting c hc), ?_⟩
  · have hnodup := hi.numbered.1
    rw [map_append] at hnodup
    exact (nodup_append.mp hnodup).1
  · rcases hi.orderly.complete c hc with hmem | hdiscarded
    · exact (mem_append.mp hmem).imp id Or.inl
    · exact .inr (.inr hdiscarded)
  · intro hw hroom
    rcases hroom with hroom | hclosed
    · refine hi.awake.woken_ne_nil hw ?_
      rw [room, ← RingBuffer.length_toList]
      exact Nat.sub_pos_of_lt hroom
    · exact absurd (hi.sound.closed hclosed) hw

/-- The queue is filled, two more calls wait, and the packer takes one frame. -/
def fullTrace : List (Event Unit) :=
  .setMaxOutgoingDatagramFrameSize 10 :: List.replicate 32 (.add ⟨true, [0x1]⟩) ++
    [.add ⟨true, [0x2, 0x3]⟩, .add ⟨true, []⟩, .peek, .pop 1]

def fullQueue : System Unit :=
  (fullTrace.foldlM (fun s e => if Permitted s e then s.step e else none) new).getD new

theorem run_fullTrace : (machine Unit).Run fullTrace fullQueue := by
  have hsome : (fullTrace.foldlM (fun s e => if Permitted s e then s.step e else none)
      (new : System Unit)).isSome = true := by decide +kernel
  obtain ⟨s, hs⟩ := isSome_iff_exists.mp hsome
  rw [machine, Machine.run_guard_iff, fullQueue, hs, getD_some]

theorem sendQueue_safe_fullQueue : fullQueue.queue.sendCond.waiting = [⟨32, ⟨true, [0x2, 0x3]⟩⟩] ∧
      fullQueue.queue.sendQueue.toList.length = 31 ∧ fullQueue.queue.sendCond.woken ≠ [] :=
  have hwaiting : fullQueue.queue.sendCond.waiting = [⟨32, ⟨true, [0x2, 0x3]⟩⟩] := by decide +kernel
  have hlen : fullQueue.queue.sendQueue.toList.length = 31 := by decide +kernel
  ⟨hwaiting, hlen, (sendQueue_safe run_fullTrace).2.2.2.2 (by rw [hwaiting]; nofun)
    (.inl (by rw [hlen]; decide))⟩

end System

end DatagramQueue

end UQuic
