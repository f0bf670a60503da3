/-
# `UQuic.ActiveStreams` — no stream data is stranded

The framer visits only the streams in `activeStreams`, in the order of `streamQueue`.  A
stream enters when a call to it announces data, and leaves as soon as one pop reports that
there is no more.  Calls come from different goroutines:

    stream mutex     a call to a stream, up to where it is released; `popStreamFrame`
    framer mutex     `AddActiveStream`, `RemoveActiveStream`, the whole of `Append`

The announcement of a call (`onHasStreamData`) is made after the stream was released, so
that other calls, and any part of `Append`, may come between the two.  Within `Append` a
stream is called and released, and only then put back or removed.

## What is proved

For any interleaving, whenever no announcement is under way and `Append` is not running
(`no_data_stranded`), each stream that is neither cancelled, shut down nor completed and has
something to send is active and queued.  A `Write` that sleeps counts as not running.

## How

A stream that wants to send is active or about to be announced (`Framed.ready`).  A call
that makes a stream want to send announces it (`call_announces`); a pop that reports no more
data leaves nothing to send (`Pops.drained`), and whatever comes after it is announced.
-/
import UQuic.Lib.Machine
import UQuic.SendSteps

namespace UQuic

open List Option
open FlowControl (StreamFlowController ConnectionFlowController)
open Wire (StreamFrame)
open SendStream (State Popped)

/-! ## What a stream has to send -/

namespace SendStream.State

variable {s s' : State} {conn : ConnectionFlowController} {maxBytes : Int} {r : Popped}

/-- Neither cancelled, shut down nor completed. -/
structure Running (s : State) : Prop where
  cancelled : s.cancelled = false
  closedForShutdown : s.closedForShutdown = false
  completed : s.completed = false

/-- Lost frames, a buffered frame, data of a `Write`, or a FIN that was not sent. -/
def HasData (s : State) : Prop :=
  s.retransmissionQueue ≠ [] ∨ s.nextFrame ≠ none ∨ s.dataForWriting ≠ [] ∨
    s.finishedWriting = true ∧ s.finSent = false

/-- The stream should be visited. -/
structure Wants (s : State) : Prop where
  running : s.Running
  data : s.HasData

theorem Drained.not_hasData (h : s.Drained) : ¬ s.HasData := by
  rintro (hlost | hnext | hdata | ⟨hfinished, hunsent⟩)
  · exact hlost h.lost
  · exact hnext h.next
  · exact hdata h.data
  · rw [h.fin hfinished] at hunsent
    cases hunsent

theorem Wants.before (h : s'.Wants) (hcancelled : s'.cancelled = s.cancelled)
    (hclosed : s'.closedForShutdown = s.closedForShutdown)
    (hcompleted : s'.completed = false → s.completed = false)
    (hlost : s'.retransmissionQueue = s.retransmissionQueue) (hnext : s'.nextFrame = s.nextFrame)
    (hdata : s'.dataForWriting = s.dataForWriting)
    (hfinished : s'.finishedWriting = s.finishedWriting)
    (hfin : s'.finSent = s.finSent) : s.Wants := by
  refine ⟨⟨hcancelled ▸ h.running.cancelled, hclosed ▸ h.running.closedForShutdown,
    hcompleted h.running.completed⟩, ?_⟩
  rw [HasData, ← hlost, ← hnext, ← hdata, ← hfinished, ← hfin]
  exact h.data

theorem Wants.of_isNewlyCompleted (h : s.isNewlyCompleted.1.Wants) : s.Wants := by
  rw [isNewlyCompleted_fst] at h
  exact h.before rfl rfl (fun hc => (Bool.or_eq_false_iff.mp hc).1) rfl rfl rfl rfl rfl

theorem Wants.of_failWrite {n : Nat} {err : FinalError} (h : (s.failWrite n err).stream.Wants) :
    s.Wants := by
  simp only [failWrite] at h
  split at h
  · exact h.of_isNewlyCompleted.before rfl rfl id rfl rfl rfl rfl rfl
  · exact h.of_isNewlyCompleted

/-- A round of `Write` only moves data. -/
theorem Wants.of_writeLoop {len : Nat} {notified : Bool}
    (h : (s.writeLoop len notified).stream.Wants) : s.Wants := by
  simp only [writeLoop] at h
  split at h
  · rename_i hcan
    exact ⟨{ h.running with },
      .inr (.inr (.inl hcan.2))⟩
  · split at h
    · split at h <;> exact h
    · split at h
      · exact h
      · exact h.of_failWrite

/-- A round in which there is data announces it, unless it was before. -/
theorem writeLoop_hasData {len : Nat} (hfinal : s.finalError = none) (hd : s.dataForWriting ≠ []) :
    (s.writeLoop len false).hasData = true := by
  simp only [writeLoop, hfinal]
  split
  · rfl
  · rfl

theorem Wants.of_cancelWrite {errorCode : Nat} {remote : Bool}
    (h : (s.cancelWrite errorCode remote).1.Wants) : s.Wants := by
  rw [cancelWrite] at h
  split at h
  · exact h
  · dsimp only at h
    split at h
    · split at h
      · exact h.before rfl rfl id rfl rfl rfl rfl rfl
      · exact h.of_isNewlyCompleted.before rfl rfl id rfl rfl rfl rfl rfl
    · cases h.running.cancelled

theorem Wants.of_getControlFrame (h : s.getControlFrame.1.Wants) : s.Wants := by
  rw [getControlFrame] at h
  split at h
  · exact h
  · exact h.before rfl rfl id rfl rfl rfl rfl rfl

/-- A pop that announces no more data leaves a stream that wants nothing. -/
theorem Pops.not_wants (hs : s.WellFormed) (h : Pops s conn maxBytes r)
    (hmore : r.hasMore = false) :
    ¬ r.stream.Wants := by
  intro hwants
  rcases h.drained hs hmore with hfinal | hdrained
  · rcases (h.wellFormed hs).final hfinal with hyes | hyes
    · rw [hwants.running.cancelled] at hyes
      cases hyes
    · rw [hwants.running.closedForShutdown] at hyes
      cases hyes
  · exact hdrained.not_hasData hwants.data

end SendStream.State

namespace WriteEnd

variable {e : WriteEnd} {conn : ConnectionFlowController} {c : Call} {r : Called}

/-- `popStreamFrame`, which only the framer calls. -/
def Call.isPop : Call → Bool
  | .popStreamFrame _ => true
  | _ => false

theorem write_announces {s : State} {p : List UInt8} (h : (s.write p).stream.Wants) :
    (s.write p).hasData = true ∨ s.Wants := by
  simp only [State.write] at h ⊢
  split at h
  · exact .inr h.of_failWrite
  · rename_i hfinal
    split at h
    · exact .inr h
    · split_ifs at h with hp
      · exact .inr h
      · rw [if_neg ‹_›, if_neg hp]
        exact .inl (State.writeLoop_hasData hfinal hp)

/-- **A call that makes a stream want to send announces it.** -/
theorem call_announces (hc : c.isPop = false) (h : e.call conn c = some r)
    (hwants : r.sender.stream.Wants) : r.hasData = true ∨ e.stream.Wants := by
  cases c with
  | write p =>
    simp only [call] at h
    split at h <;> cases h
    exact write_announces hwants
  | wake =>
    obtain ⟨len, -, h⟩ := bind_eq_some_iff.mp h
    split at h <;> cases h
    exact .inr (State.Wants.of_writeLoop hwants |>.before rfl rfl id rfl rfl rfl rfl rfl)
  | close =>
    cases h
    rw [State.close] at hwants ⊢
    split_ifs at hwants with hopen
    · exact .inr hwants
    · rw [if_neg hopen]
      exact .inl (by rw [hwants.of_isNewlyCompleted.running.cancelled]; rfl)
  | popStreamFrame => cases hc
  | onAcked i =>
    obtain ⟨f, -, h⟩ := bind_eq_some_iff.mp h
    obtain ⟨p, hp, rfl⟩ := map_eq_some_iff.mp h
    rcases State.onAcked_cases hp with ⟨-, rfl⟩ | ⟨-, rfl⟩
    · exact .inr hwants
    · exact .inr (hwants.of_isNewlyCompleted.before rfl rfl id rfl rfl rfl rfl rfl)
  | onLost i =>
    obtain ⟨f, -, h⟩ := bind_eq_some_iff.mp h
    obtain ⟨p, hp, rfl⟩ := map_eq_some_iff.mp h
    rcases State.onLost_cases hp with ⟨-, rfl⟩ | ⟨-, rfl⟩
    · exact .inr hwants
    · exact .inl rfl
  | updateSendWindow limit =>
    cases h
    exact .inr (hwants.before rfl rfl id rfl rfl rfl rfl rfl)
  | cancelWrite errorCode remote =>
    cases h
    exact .inr hwants.of_cancelWrite
  | closeForShutdown =>
    cases h
    cases hwants.running.closedForShutdown
  | getControlFrame =>
    cases h
    exact .inr hwants.of_getControlFrame
  | onResetAcked i =>
    obtain ⟨f, -, h⟩ := bind_eq_some_iff.mp h
    obtain ⟨p, hp, rfl⟩ := map_eq_some_iff.mp h
    rw [State.onResetAcked] at hp
    split at hp <;> cases hp
    exact .inr (hwants.of_isNewlyCompleted.before rfl rfl id rfl rfl rfl rfl rfl)
  | onResetLost i =>
    obtain ⟨f, -, rfl⟩ := map_eq_some_iff.mp h
    exact .inr (hwants.before rfl rfl id rfl rfl rfl rfl rfl)

end WriteEnd

/-! ## The framer -/

namespace ActiveStreams

/-- An `Append` that is running: the rounds that are left, the room, and the stream that was
popped from and not put back or removed yet, with whether it has more data. -/
structure Append where
  rounds : Nat
  maxLen : Int
  settling : Option (Nat × Bool)
  deriving DecidableEq, Repr

/-- The room after the frames of a stream, or nothing if STREAM_DATA_BLOCKED does not fit. -/
def roomAfter (maxLen : Int) (id : Nat) (r : Popped) : Option Int :=
  let room := maxLen - ((r.frame.map StreamFrame.size).getD 0 : Nat)
  match r.blocked with
  | none => some room
  | some limit =>
    let l : Int := (State.streamDataBlocked id limit).length
    if room < l then none else some (room - l)

/-- `Append` after a frame was popped; if STREAM_DATA_BLOCKED does not fit, the loop ends. -/
def Append.next (a : Append) (id : Nat) (r : Popped) : Append :=
  match roomAfter a.maxLen id r with
  | none => ⟨0, a.maxLen, some (id, r.hasMore)⟩
  | some room => ⟨a.rounds - 1, room, some (id, r.hasMore)⟩

theorem Append.next_settling (a : Append) (id : Nat) (r : Popped) :
    (a.next id r).settling = some (id, r.hasMore) := by
  rw [next]
  split <;> rfl

/-- The streams of a connection by their ID, the IDs of those that are about to be announced,
and the framer.  The value of `activeStreams` for an ID is the stream with that ID. -/
structure Connection where
  streams : Nat → Option WriteEnd
  flowController : ConnectionFlowController
  announcing : List Nat
  activeStreams : List Nat
  streamQueue : List Nat
  appending : Option Append

namespace Connection

def new (flowController : ConnectionFlowController) : Connection :=
  ⟨fun _ => none, flowController, [], [], [], none⟩

/-- The stream between being popped from and being put back. -/
def settling (s : Connection) : Option (Nat × Bool) := s.appending.bind (·.settling)

def addActiveStream (s : Connection) (id : Nat) : Connection :=
  if id ∈ s.activeStreams then s
  else { s with activeStreams := id :: s.activeStreams, streamQueue := s.streamQueue ++ [id] }

def removeActiveStream (s : Connection) (id : Nat) : Connection :=
  { s with activeStreams := s.activeStreams.filter (· ≠ id) }

/-- A round of the loop of `Append`, up to where `getNextStreamFrame` has popped a frame. -/
def round (s : Connection) (a : Append) : Option Connection :=
  if a.rounds = 0 ∨ a.maxLen < minStreamFrameSize then some { s with appending := none }
  else
    match s.streamQueue with
    | [] => none
    | id :: queue =>
      if id ∈ s.activeStreams then
        (s.streams id).bind fun e =>
          (e.stream.popStreamFrame s.flowController
            (a.maxLen + QuicVarint.size a.maxLen.toNat)).map fun r =>
            { s with
              streams := Function.update s.streams id (some (e.popped r))
              flowController := r.conn
              streamQueue := queue
              appending := some (a.next id r) }
      else some { s with streamQueue := queue, appending := some { a with rounds := a.rounds - 1 } }

/-- The end of `getNextStreamFrame`: the stream is put back, or removed. -/
def settle (s : Connection) (a : Append) (id : Nat) (more : Bool) : Connection :=
  let s := { s with appending := some { a with settling := none } }
  if more then { s with streamQueue := s.streamQueue ++ [id] } else s.removeActiveStream id

end Connection

open Connection

/-- What can happen. -/
inductive Event
  /-- A stream is created. -/
  | create (id : Nat) (fc : StreamFlowController)
  /-- A call to a stream, or a step of one, up to where the stream is released. -/
  | call (id : Nat) (c : WriteEnd.Call)
  /-- `onHasStreamData`. -/
  | announce (i : Nat)
  /-- `onStreamCompleted`; for a stream that also receives, it may come much later. -/
  | complete (id : Nat)
  | append (maxLen : Int)
  | round
  | settle
  /-- The flow controller changes, because of MAX_DATA or what is received. -/
  | window (conn : ConnectionFlowController)

/-- One step.  `Append` holds the framer's mutex. -/
def step (s : Connection) : Event → Option Connection
  | .create id fc =>
    if (s.streams id).isSome then none
    else some { s with streams := Function.update s.streams id (some (.new id fc)) }
  | .call id c =>
    if c.isPop then none
    else
      (s.streams id).bind fun e => (e.call s.flowController c).map fun r =>
        { s with
          streams := Function.update s.streams id (some r.sender)
          flowController := r.conn
          announcing := if r.hasData then id :: s.announcing else s.announcing }
  | .announce i =>
    if s.appending.isSome then none
    else s.announcing[i]?.map fun id =>
      { s with announcing := s.announcing.eraseIdx i }.addActiveStream id
  | .complete id =>
    if s.appending.isSome then none
    else (s.streams id).bind fun e =>
      if e.stream.completed then some (s.removeActiveStream id) else none
  | .append maxLen =>
    if s.appending.isSome then none
    else some { s with appending := some ⟨s.streamQueue.length, maxLen, none⟩ }
  | .round => s.appending.bind fun a => if a.settling.isSome then none else s.round a
  | .settle => s.appending.bind fun a => a.settling.map fun p => s.settle a p.1 p.2
  | .window conn => some { s with flowController := conn }

def machine (conn : ConnectionFlowController) : Machine Connection Event := .ofStep (.new conn) step

/-! ## The invariant -/

/-- Every stream that wants to send is active, and will stay so, or is about to be announced. -/
structure Framed (s : Connection) : Prop where
  sound : ∀ id e, s.streams id = some e → e.Sound
  queued : ∀ id ∈ s.activeStreams, id ∈ s.streamQueue ∨ ∃ more, s.settling = some (id, more)
  ready : ∀ id e, s.streams id = some e → e.stream.Wants →
    id ∈ s.announcing ∨ id ∈ s.activeStreams ∧ s.settling ≠ some (id, false)

namespace Framed

variable {s : Connection} {a : Append} {id : Nat} {e : WriteEnd}

theorem update_cases {f : Nat → Option WriteEnd} {id' : Nat} {e' : WriteEnd}
    (h : Function.update f id (some e) id' = some e') :
    id' = id ∧ e' = e ∨ id' ≠ id ∧ f id' = some e' := by
  by_cases hid : id' = id
  · subst hid
    rw [Function.update_self] at h
    exact .inl ⟨rfl, (Option.some.inj h).symm⟩
  · rw [Function.update_of_ne hid] at h
    exact .inr ⟨hid, h⟩

theorem new (conn : ConnectionFlowController) : Framed (.new conn) :=
  ⟨(fun _ _ h => by cases h), (fun _ h => by cases h), fun _ _ h => by cases h⟩

variable (h : Framed s)

include h

theorem create (fc : StreamFlowController) :
    Framed { s with streams := Function.update s.streams id (some (.new id fc)) } := by
  refine ⟨fun id' e' he => ?_, h.queued, fun id' e' he hwants => ?_⟩
  · rcases update_cases he with ⟨-, rfl⟩ | ⟨-, he⟩
    · exact WriteEnd.sound_new _ _
    · exact h.sound id' e' he
  · rcases update_cases he with ⟨-, rfl⟩ | ⟨-, he⟩
    · rcases hwants.data with hne | hne | hne | ⟨hne, -⟩
      · exact absurd rfl hne
      · exact absurd rfl hne
      · exact absurd rfl hne
      · cases hne
    · exact h.ready id' e' he hwants

theorem call {c : WriteEnd.Call} {r : WriteEnd.Called} (he : s.streams id = some e)
    (hc : c.isPop = false) (hr : e.call s.flowController c = some r) :
    Framed { s with
      streams := Function.update s.streams id (some r.sender)
      flowController := r.conn
      announcing := if r.hasData then id :: s.announcing else s.announcing } := by
  have hmem {id' : Nat} (hid : id' ∈ s.announcing) :
      id' ∈ if r.hasData then id :: s.announcing else s.announcing := by
    split
    · exact mem_cons_of_mem _ hid
    · exact hid
  refine ⟨fun id' e' he' => ?_, h.queued, fun id' e' he' hwants => ?_⟩
  · rcases update_cases he' with ⟨-, rfl⟩ | ⟨-, he'⟩
    · exact (h.sound id e he).call hr
    · exact h.sound id' e' he'
  · rcases update_cases he' with ⟨rfl, rfl⟩ | ⟨-, he'⟩
    · rcases WriteEnd.call_announces hc hr hwants with hdata | hbefore
      · refine .inl ?_
        show id' ∈ if r.hasData then id' :: s.announcing else s.announcing
        rw [if_pos hdata]
        exact mem_cons_self
      · exact (h.ready id' e he hbefore).imp_left hmem
    · exact (h.ready id' e' he' hwants).imp_left hmem

/-- A stream is announced while `Append` is not running. -/
theorem announce {i : Nat} (hfree : s.appending = none) (hi : s.announcing[i]? = some id) :
    Framed ({ s with announcing := s.announcing.eraseIdx i }.addActiveStream id) := by
  have hfree {id' : Nat} : s.settling ≠ some (id', false) := by
    rw [Connection.settling, hfree]
    exact nofun
  have hother {id' : Nat} (hid : id' ∈ s.announcing) :
      id' = id ∨ id' ∈ s.announcing.eraseIdx i := by
    obtain ⟨hlt, rfl⟩ := List.getElem?_eq_some_iff.mp hi
    exact mem_cons.mp ((getElem_cons_eraseIdx_perm hlt).mem_iff.mpr hid)
  rw [addActiveStream]
  split_ifs with hactive
  · refine ⟨h.sound, h.queued, fun id' e' he hwants => ?_⟩
    rcases h.ready id' e' he hwants with hid | hid
    · rcases hother hid with rfl | hid
      · exact .inr ⟨hactive, hfree⟩
      · exact .inl hid
    · exact .inr hid
  · refine ⟨h.sound, fun id' hid => ?_, fun id' e' he hwants => ?_⟩
    · rcases mem_cons.mp hid with rfl | hid
      · exact .inl (mem_append_right _ (mem_singleton_self _))
      · exact (h.queued id' hid).imp_left (mem_append_left _)
    · rcases h.ready id' e' he hwants with hid | ⟨hid, hnot⟩
      · rcases hother hid with rfl | hid
        · exact .inr ⟨mem_cons_self, hfree⟩
        · exact .inl hid
      · exact .inr ⟨mem_cons_of_mem _ hid, hnot⟩

theorem complete (he : s.streams id = some e) (hdone : e.stream.completed = true) :
    Framed (s.removeActiveStream id) := by
  refine ⟨h.sound, fun id' hid => h.queued id' (mem_filter.mp hid).1, fun id' e' he' hwants => ?_⟩
  have hid : id' ≠ id := by
    rintro rfl
    have he' : s.streams id' = some e' := he'
    rw [he] at he'
    cases he'
    rw [hwants.running.completed] at hdone
    cases hdone
  refine (h.ready id' e' he' hwants).imp_right fun ⟨hactive, hnot⟩ => ⟨?_, hnot⟩
  exact mem_filter.mpr ⟨hactive, decide_eq_true hid⟩

/-- `Append` starts or ends a round without a stream. -/
theorem between {appending : Option Append} (hsettling : s.settling = none)
    (hno : appending.bind (·.settling) = none) : Framed { s with appending := appending } := by
  refine ⟨h.sound, fun id hid => ?_, fun id e he hwants => ?_⟩
  · rcases h.queued id hid with hid | ⟨more, hmore⟩
    · exact .inl hid
    · rw [hsettling] at hmore
      cases hmore
  · refine (h.ready id e he hwants).imp_right fun ⟨hactive, _⟩ => ⟨hactive, ?_⟩
    show appending.bind (·.settling) ≠ some (id, false)
    rw [hno]
    exact nofun

/-- The first stream of the queue is not active any more. -/
theorem skip {queue : List Nat} {appending : Option Append}
    (hsettling : s.settling = none) (hq : s.streamQueue = id :: queue) (hid : id ∉ s.activeStreams)
    (hno : appending.bind (·.settling) = none) :
    Framed { s with streamQueue := queue, appending := appending } := by
  have hb := h.between hsettling hno
  refine ⟨hb.sound, fun id' hid' => ?_, hb.ready⟩
  refine (hb.queued id' hid').imp_left fun hmem => ?_
  have hmem : id' ∈ s.streamQueue := hmem
  rw [hq] at hmem
  exact (mem_cons.mp hmem).resolve_left fun heq => hid (heq ▸ hid')

/-- A frame is popped from the first stream of the queue. -/
theorem pop {queue : List Nat} {r : Popped} {maxBytes : Int}
    (hsettling : s.settling = none) (hq : s.streamQueue = id :: queue) (hid : id ∈ s.activeStreams)
    (he : s.streams id = some e)
    (hr : e.stream.popStreamFrame s.flowController maxBytes = some r)
    (ha : a.settling = some (id, r.hasMore)) :
    Framed { s with
      streams := Function.update s.streams id (some (e.popped r))
      flowController := r.conn
      streamQueue := queue
      appending := some a } := by
  have hs := h.sound id e he
  have hpops := State.popStreamFrame_cases hs.stream hr
  refine ⟨fun id' e' he' => ?_, fun id' hid' => ?_, fun id' e' he' hwants => ?_⟩
  · rcases update_cases he' with ⟨-, rfl⟩ | ⟨-, he'⟩
    · have hcall : e.call s.flowController (.popStreamFrame maxBytes) =
          some ⟨e.popped r, r.conn, false, false⟩ := by
        rw [WriteEnd.call, hr]
        rfl
      exact hs.call hcall
    · exact h.sound id' e' he'
  · rcases h.queued id' hid' with hmem | ⟨more, hmore⟩
    · rw [hq] at hmem
      rcases mem_cons.mp hmem with rfl | hmem
      · exact .inr ⟨r.hasMore, ha⟩
      · exact .inl hmem
    · rw [hsettling] at hmore
      cases hmore
  · rcases update_cases he' with ⟨rfl, rfl⟩ | ⟨hne, he'⟩
    · refine .inr ⟨hid, fun hfalse => ?_⟩
      have hmore : a.settling = some (id', false) := hfalse
      rw [ha] at hmore
      exact hpops.not_wants hs.stream (Prod.mk.inj (Option.some.inj hmore)).2 hwants
    · refine (h.ready id' e' he' hwants).imp_right fun hready => ⟨hready.1, fun hfalse => hne ?_⟩
      have hfalse : a.settling = some (id', false) := hfalse
      rw [ha] at hfalse
      exact (Prod.mk.inj (Option.some.inj hfalse)).1.symm

/-- The stream is put back or removed. -/
theorem settle {more : Bool} (hsettling : s.settling = some (id, more)) :
    Framed (s.settle a id more) := by
  cases more with
  | true =>
    refine ⟨h.sound, fun id' hid => .inl ?_, fun id' e' he hwants => ?_⟩
    · show id' ∈ s.streamQueue ++ [id]
      rcases h.queued id' hid with hmem | ⟨more, hmore⟩
      · exact mem_append_left _ hmem
      · rw [hsettling] at hmore
        cases hmore
        exact mem_append_right _ (mem_singleton_self _)
    · exact (h.ready id' e' he hwants).imp_right fun ⟨hactive, _⟩ => ⟨hactive, nofun⟩
  | false =>
    refine ⟨h.sound, fun id' hid => .inl ?_, fun id' e' he hwants => ?_⟩
    · obtain ⟨hid, hne⟩ := mem_filter.mp hid
      rcases h.queued id' hid with hmem | ⟨more, hmore⟩
      · exact hmem
      · rw [hsettling] at hmore
        cases hmore
        exact absurd rfl (of_decide_eq_true hne)
    · refine (h.ready id' e' he hwants).imp_right fun ⟨hactive, hnot⟩ => ⟨?_, nofun⟩
      refine mem_filter.mpr ⟨hactive, decide_eq_true fun heq => hnot ?_⟩
      rw [hsettling, heq]

end Framed

/-- **One step** strands nothing. -/
theorem step_framed {s s' : Connection} {ev : Event} (h : Framed s) (hstep : step s ev = some s') :
    Framed s' := by
  cases ev with
  | create id fc =>
    simp only [step] at hstep
    split at hstep <;> cases hstep
    exact h.create fc
  | call id c =>
    simp only [step] at hstep
    split_ifs at hstep with hc
    obtain ⟨e, he, hstep⟩ := bind_eq_some_iff.mp hstep
    obtain ⟨r, hr, rfl⟩ := map_eq_some_iff.mp hstep
    exact h.call he (Bool.not_eq_true _ |>.mp hc) hr
  | announce i =>
    simp only [step] at hstep
    split_ifs at hstep with hfree
    obtain ⟨id, hi, rfl⟩ := map_eq_some_iff.mp hstep
    exact h.announce (not_isSome_iff_eq_none.mp hfree) hi
  | complete id =>
    simp only [step] at hstep
    split_ifs at hstep
    obtain ⟨e, he, hstep⟩ := bind_eq_some_iff.mp hstep
    split at hstep <;> cases hstep
    exact h.complete he ‹_›
  | append maxLen =>
    simp only [step] at hstep
    split at hstep <;> cases hstep
    rename_i hfree
    refine h.between ?_ rfl
    rw [Connection.settling, not_isSome_iff_eq_none.mp hfree]
    rfl
  | round =>
    obtain ⟨a, ha, hstep⟩ := bind_eq_some_iff.mp hstep
    split_ifs at hstep with hno
    have hno := not_isSome_iff_eq_none.mp hno
    have hsettling : s.settling = none := by
      rw [Connection.settling, ha]
      exact hno
    rw [Connection.round] at hstep
    split at hstep
    · cases hstep
      exact h.between hsettling rfl
    · split at hstep
      · cases hstep
      · rename_i id queue hq
        split_ifs at hstep with hid
        · obtain ⟨e, he, hstep⟩ := bind_eq_some_iff.mp hstep
          obtain ⟨r, hr, rfl⟩ := map_eq_some_iff.mp hstep
          exact h.pop hsettling hq hid he hr (a.next_settling id r)
        · cases hstep
          exact h.skip hsettling hq hid hno
  | settle =>
    obtain ⟨a, ha, hstep⟩ := bind_eq_some_iff.mp hstep
    obtain ⟨⟨id, more⟩, hp, rfl⟩ := map_eq_some_iff.mp hstep
    refine h.settle ?_
    rw [Connection.settling, ha]
    exact hp
  | window conn =>
    cases hstep
    exact { h with }

theorem run_framed {conn : ConnectionFlowController} {tr : List Event} {s : Connection}
    (hrun : (machine conn).Run tr s) : Framed s := by
  refine Machine.Run.stable (I := Framed) ?_ ?_ hrun
  · rintro s rfl
    exact .new conn
  · intro s ev s' ih hstep
    exact step_framed ih hstep

/-- No announcement is under way, and `Append` is not running. -/
structure Quiescent (s : Connection) : Prop where
  announcing : s.announcing = []
  appending : s.appending = none

/-- **No stream data is stranded.**  After any interleaving, when no call is in progress, a stream
that is not cancelled, shut down or completed and has something to send is active and queued. -/
theorem no_data_stranded {conn : ConnectionFlowController} {tr : List Event} {s : Connection}
    (hrun : (machine conn).Run tr s) (hquiet : Quiescent s) {id : Nat} {e : WriteEnd}
    (he : s.streams id = some e) (hrunning : e.stream.Running) (hdata : e.stream.HasData) :
    id ∈ s.activeStreams ∧ id ∈ s.streamQueue := by
  have h := run_framed hrun
  rcases h.ready id e he ⟨hrunning, hdata⟩ with hid | ⟨hactive, -⟩
  · rw [hquiet.announcing] at hid
    cases hid
  · rcases h.queued id hactive with hq | ⟨more, hmore⟩
    · exact ⟨hactive, hq⟩
    · rw [Connection.settling, hquiet.appending] at hmore
      cases hmore

/-- Two of three bytes are sent, as the connection allows, and lost. -/
def blockedAndLost : List Event :=
  [.window { ConnectionFlowController.new 100 100 with sendWindow := 2 },
    .create 0 (.new 0 100 100 100),
    .call 0 (.write [1, 2, 3]), .announce 0, .append 1000, .round, .settle, .round,
    .call 0 (.onLost 0),
    .announce 0]

def afterBlockedAndLost : Connection :=
  (blockedAndLost.foldlM step (.new (.new 100 100))).getD (.new (.new 100 100))

theorem no_data_stranded_blockedAndLost :
    ∃ e, (machine (.new 100 100)).Run blockedAndLost afterBlockedAndLost ∧
      afterBlockedAndLost.streams 0 = some e ∧
      e.stream.retransmissionQueue.map (·.data) = [[1, 2]] ∧
      e.stream.nextFrame.map (·.data) = some [3] ∧
      (0 ∈ afterBlockedAndLost.activeStreams ∧ 0 ∈ afterBlockedAndLost.streamQueue) := by
  have hrun : (machine (.new 100 100)).Run blockedAndLost afterBlockedAndLost :=
    Machine.run_ofStep_iff.mpr rfl
  refine ⟨_, hrun, rfl, rfl, rfl, ?_⟩
  exact no_data_stranded hrun ⟨rfl, rfl⟩ rfl ⟨rfl, rfl, rfl⟩ (.inl nofun)

end ActiveStreams

end UQuic
