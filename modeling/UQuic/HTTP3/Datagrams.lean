/-
# `UQuic.HTTP3.Datagrams` — HTTP datagrams and the streams they belong to

`datagram.go`, with `sendDatagram`, `receiveDatagrams` and `clearStream` of `conn.go`.  A datagram
starts with a quarter of the ID of its stream; the rest goes to the datagrammer that is
registered for the stream.  The receive loop runs beside the streams:

    openStream id       `openRequestStream`, or `acceptStream` of a server
    clearStream id      both directions of the stream are closed
    setReceiveError k   the receive direction is closed
    receive k           `Receive` takes a datagram from the queue
    datagram b          the loop gets a datagram and looks its stream up
    enqueue             the loop hands it over; the map is not locked any more

The datagrammers are numbered in the order in which they are created, and `streams` holds their
numbers.  The channel that wakes `Receive` up is left out.

## What is proved

    what a datagrammer was given is what it is owed, if the stream of every datagram was
    registered; and what `sendDatagram` writes is routed back    (`datagrams_reach_stream`)
    after a datagram for another stream, nothing is delivered    (`datagram_lost_after_unknown`)
-/
import UQuic.Lib.Machine
import UQuic.QuicVarint

namespace UQuic.HTTP3

open Function QuicVarint

def maxQuarterStreamID : Nat := 2 ^ 60 - 1

def streamDatagramQueueLen : Nat := 32

/-! ## Datagrammers -/

/-- `datagrammer`.  `received` records what `Receive` has returned. -/
structure Datagrammer where
  queue : List (List UInt8)
  receiveErr : Bool
  received : List (List UInt8)
  deriving DecidableEq, Repr

namespace Datagrammer

def new : Datagrammer := ⟨[], false, []⟩

def enqueue (data : List UInt8) (d : Datagrammer) : Datagrammer :=
  if d.receiveErr then d
  else if streamDatagramQueueLen ≤ d.queue.length then d
  else { d with queue := d.queue ++ [data] }

/-- `Receive`, if it need not wait. -/
def receive (d : Datagrammer) : Datagrammer :=
  match d.queue with
  | [] => d
  | data :: queue => { d with queue := queue, received := d.received ++ [data] }

def given (d : Datagrammer) : List (List UInt8) := d.received ++ d.queue

end Datagrammer

/-! ## Datagrams on the wire -/

/-- `sendDatagram`: what is sent. -/
def sendDatagram (streamID : Nat) (b : List UInt8) : Option (List UInt8) :=
  (QuicVarint.append [] (streamID / 4)).map (· ++ b)

/-- The errors of `receiveDatagrams`; the connection is closed with `ErrCodeDatagramError`. -/
inductive DatagramError
  /-- `could not read quarter stream id: %w`. -/
  | unreadable
  /-- `invalid quarter stream id: %w`. -/
  | invalid
  deriving DecidableEq, Repr

/-- The stream ID of a datagram, and its payload. -/
def route (b : List UInt8) : Except DatagramError (Nat × List UInt8) :=
  match QuicVarint.parse b with
  | none => .error .unreadable
  | some (quarterStreamID, n) =>
    if maxQuarterStreamID < quarterStreamID then .error .invalid
    else .ok (4 * quarterStreamID, b.drop n)

theorem route_sendDatagram {streamID : Nat} (hid : streamID % 4 = 0) (hlt : streamID < 2 ^ 62)
    (b : List UInt8) :
    ∃ data, sendDatagram streamID b = some data ∧ route data = .ok (streamID, b) := by
  have hquarter : ¬ maxQuarterStreamID < streamID / 4 := by
    rw [maxQuarterStreamID]
    omega
  have hvarint : streamID / 4 ≤ QuicVarint.maxVarInt8 := by
    rw [QuicVarint.maxVarInt8]
    omega
  refine ⟨QuicVarint.encode (streamID / 4) ++ b, ?_, ?_⟩
  · rw [sendDatagram, append_eq [] hvarint]
    rfl
  · rw [route, parse_encode hvarint b, ← length_encode]
    dsimp only
    rw [if_neg hquarter, List.drop_left, Nat.mul_div_cancel' (Nat.dvd_of_mod_eq_zero hid)]

/-! ## The connection -/

/-- `connection`.  `opened` counts the datagrammers; `looked` is the datagram that the loop is about
to hand over, `returned` what the loop returned.  `owed` records the datagrams whose stream was
registered when they came and whose queue was not full. -/
structure Connection where
  streams : Nat → Option Nat
  datagrammers : Nat → Datagrammer
  opened : Nat
  looked : Option (Nat × List UInt8)
  returned : Option (Option DatagramError)
  owed : List (Nat × List UInt8)

/-- What happens at a connection. -/
inductive DatagramEvent
  | openStream (id : Nat)
  | clearStream (id : Nat)
  | setReceiveError (k : Nat)
  | receive (k : Nat)
  | datagram (b : List UInt8)
  | enqueue
  deriving DecidableEq, Repr

namespace Connection

def new : Connection := ⟨fun _ => none, fun _ => .new, 0, none, none, []⟩

def modify (c : Connection) (k : Nat) (f : Datagrammer → Datagrammer) : Connection :=
  { c with datagrammers := Function.update c.datagrammers k (f (c.datagrammers k)) }

/-- The datagrammer of a datagram and the payload, or what the loop returns. -/
def target (c : Connection) (b : List UInt8) : Except (Option DatagramError) (Nat × List UInt8) :=
  match route b with
  | .error e => .error (some e)
  | .ok (streamID, data) =>
    match c.streams streamID with
    | none => .error none
    | some k => .ok (k, data)

/-- A datagram is owed to a datagrammer, unless the queue is full. -/
def owe (c : Connection) (k : Nat) (data : List UInt8) : Connection :=
  if (c.datagrammers k).queue.length < streamDatagramQueueLen then
    { c with owed := c.owed ++ [(k, data)] }
  else c

/-- The body of the loop up to where the map is unlocked. -/
def look (c : Connection) (b : List UInt8) : Connection :=
  match c.target b with
  | .error r => { c with returned := some r }
  | .ok p => { c with looked := some p }

/-- Nobody takes a datagram once the loop has returned. -/
def miss (c : Connection) (b : List UInt8) : Connection :=
  match c.target b with
  | .error _ => c
  | .ok (k, data) => c.owe k data

/-- One event; the loop handles one datagram after the other. -/
def step (c : Connection) : DatagramEvent → Option Connection
  | .openStream id => some
      { c with streams := Function.update c.streams id (some c.opened), opened := c.opened + 1 }
  | .clearStream id => some { c with streams := Function.update c.streams id none }
  | .setReceiveError k =>
    if k < c.opened then some (c.modify k ({ · with receiveErr := true })) else none
  | .receive k => if k < c.opened then some (c.modify k Datagrammer.receive) else none
  | .datagram b =>
    if c.returned.isSome then some (c.miss b)
    else if c.looked.isSome then none
    else some (c.look b)
  | .enqueue =>
    c.looked.map fun (k, data) => { (c.owe k data).modify k (.enqueue data) with looked := none }

def machine : Machine Connection DatagramEvent := .ofStep new step

/-- The stream of a datagram is registered when it comes. -/
def Known (c : Connection) : DatagramEvent → Prop
  | .datagram b => (c.target b).toOption.isSome = true
  | _ => True

instance (c : Connection) : (e : DatagramEvent) → Decidable (c.Known e)
  | .datagram b => inferInstanceAs (Decidable ((c.target b).toOption.isSome = true))
  | .openStream _ | .clearStream _ | .setReceiveError _ | .receive _ | .enqueue => .isTrue trivial

/-- What is owed to a datagrammer. -/
def owedTo (k : Nat) (owed : List (Nat × List UInt8)) : List (List UInt8) :=
  (owed.filter (·.1 = k)).map (·.2)

/-! ## Delivery -/

/-- What every event keeps while the loop runs. -/
structure Delivers (c : Connection) : Prop where
  running : c.returned = none
  given : ∀ k, (c.datagrammers k).receiveErr = false →
    (c.datagrammers k).given = owedTo k c.owed

variable {c c' : Connection} {k : Nat} {data : List UInt8}

/-- A datagrammer changes, but not what it was given, unless it fails. -/
theorem Delivers.modify (hd : c.Delivers) (k : Nat) {f : Datagrammer → Datagrammer}
    (hf : ∀ d, (f d).receiveErr = false → d.receiveErr = false ∧ (f d).given = d.given) :
    (c.modify k f).Delivers := by
  refine ⟨hd.running, fun j => ?_⟩
  by_cases hj : j = k
  · subst hj
    simp only [Connection.modify, update_self]
    intro herr
    obtain ⟨hok, hsame⟩ := hf _ herr
    rw [hsame]
    exact hd.given j hok
  · simp only [Connection.modify, update_of_ne hj]
    exact hd.given j

theorem given_receive (d : Datagrammer) :
    d.receive.receiveErr = d.receiveErr ∧ d.receive.given = d.given := by
  rw [Datagrammer.receive]
  split
  · exact ⟨rfl, rfl⟩
  · rename_i data queue hq
    refine ⟨rfl, ?_⟩
    rw [Datagrammer.given, Datagrammer.given, hq, List.append_assoc]
    rfl

theorem owedTo_concat (j k : Nat) (owed : List (Nat × List UInt8)) (data : List UInt8) :
    owedTo j (owed ++ [(k, data)]) = owedTo j owed ++ if k = j then [data] else [] := by
  rw [owedTo, List.filter_append, List.map_append]
  by_cases hk : k = j
  · simp [owedTo, hk]
  · simp [owedTo, hk]

/-- The loop hands a datagram over: it is given where it is owed. -/
theorem Delivers.enqueue (hd : c.Delivers) (k : Nat) (data : List UInt8) :
    ((c.owe k data).modify k (.enqueue data)).Delivers := by
  rw [owe]
  split_ifs with hroom
  · refine ⟨hd.running, fun j => ?_⟩
    rw [Connection.modify, owedTo_concat]
    by_cases hj : j = k
    · subst hj
      simp only [update_self, if_pos]
      intro herr
      rw [Datagrammer.enqueue] at herr ⊢
      split at herr
      · rename_i hclosed
        rw [hclosed] at herr
        cases herr
      · rename_i hopen
        have hold := hd.given j (eq_false_of_ne_true hopen)
        rw [if_neg hopen, if_neg (Nat.not_le.mpr hroom), ← hold, Datagrammer.given,
          Datagrammer.given, List.append_assoc]
    · simp only [update_of_ne hj, if_neg (Ne.symm hj), List.append_nil]
      exact hd.given j
  · -- a full queue stays as it is
    have hsame : (c.datagrammers k).enqueue data = c.datagrammers k := by
      rw [Datagrammer.enqueue, if_pos (Nat.not_lt.mp hroom), ite_self]
    rw [Connection.modify, hsame, update_eq_self]
    exact hd

/-- **One event**, if the stream of its datagram is registered. -/
theorem Delivers.step (hd : c.Delivers) {e : DatagramEvent} (hknown : c.Known e)
    (hstep : c.step e = some c') : c'.Delivers := by
  cases e with
  | openStream id | clearStream id =>
    cases hstep
    exact { hd with }
  | setReceiveError k =>
    rw [Connection.step] at hstep
    split_ifs at hstep
    cases hstep
    exact hd.modify k fun _ herr => nomatch herr
  | receive k =>
    rw [Connection.step] at hstep
    split_ifs at hstep
    cases hstep
    refine hd.modify k fun d herr => ?_
    obtain ⟨hsame, hgiven⟩ := given_receive d
    exact ⟨hsame ▸ herr, hgiven⟩
  | datagram b =>
    rw [Connection.step, hd.running] at hstep
    simp only [Option.isSome_none, Bool.false_eq_true, if_false] at hstep
    split_ifs at hstep
    cases hstep
    rw [look]
    split
    · rename_i r htarget
      rw [Known, htarget] at hknown
      cases hknown
    · exact { hd with }
  | enqueue =>
    obtain ⟨⟨k, data⟩, -, rfl⟩ := Option.map_eq_some_iff.mp hstep
    obtain ⟨hrunning, hgiven⟩ := hd.enqueue k data
    exact ⟨hrunning, hgiven⟩

theorem run_delivers {tr : List DatagramEvent} (hrun : (machine.guard Known).Run tr c) :
    c.Delivers := by
  refine Machine.Run.stable (I := Delivers) ?_ ?_ hrun
  · rintro _ rfl
    exact ⟨rfl, fun _ _ => rfl⟩
  · rintro c e c' hd ⟨hknown, hstep⟩
    exact hd.step hknown hstep

/-- **HTTP datagrams reach their stream**, if the stream of every datagram was registered when it
came: what a datagrammer was given, unless its stream was closed, are the datagrams that it is
owed, in their order.  And what `sendDatagram` writes is routed to the stream it was sent on. -/
theorem datagrams_reach_stream {tr : List DatagramEvent} (hrun : (machine.guard Known).Run tr c) :
    (∀ k, (c.datagrammers k).receiveErr = false → (c.datagrammers k).given = owedTo k c.owed) ∧
    ∀ streamID b, streamID % 4 = 0 → streamID < 2 ^ 62 →
      ∃ data, sendDatagram streamID b = some data ∧ route data = .ok (streamID, b) :=
  ⟨(run_delivers hrun).given, fun _ b hid hlt => route_sendDatagram hid hlt b⟩

def twoStreams : List DatagramEvent :=
  [.openStream 0, .openStream 4, .datagram [1, 7], .enqueue, .datagram [0, 9], .enqueue, .receive 0]

theorem datagrams_reach_stream_two :
    let c := (twoStreams.foldlM step new).getD new
    (machine.guard Known).Run twoStreams c ∧ (c.datagrammers 0).given = [[9]] ∧
      ∃ data, sendDatagram 8 [5] = some data ∧ route data = .ok (8, [5]) := by
  intro c
  have hrun : (machine.guard Known).Run twoStreams c := by
    rw [machine, Machine.run_guard_iff]
    rfl
  obtain ⟨hgiven, hroute⟩ := datagrams_reach_stream hrun
  exact ⟨hrun, hgiven 0 rfl, hroute 8 [5] rfl (by decide)⟩

/-- **A datagram for a stream that is not registered ends the loop**: the next one, for a stream
that is open and has an empty queue, is not delivered. -/
theorem datagram_lost_after_unknown :
    ∃ c, machine.Run [.openStream 0, .datagram [1, 7], .datagram [0, 9]] c ∧
      c.streams 0 = some 0 ∧ c.owed = [(0, [9])] ∧ c.datagrammers 0 = .new ∧
      c.returned = some none :=
  ⟨_, Machine.run_ofStep_iff.mpr rfl, rfl, rfl, rfl, rfl⟩

end Connection

end UQuic.HTTP3
