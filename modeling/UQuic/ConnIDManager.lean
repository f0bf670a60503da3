/-
# `UQuic.ConnIDManager` — the connection IDs the peer issued

`conn_id_manager.go`.  A sequence number issued by the peer waits in a sorted
queue, becomes the active one, or is assigned to a path that is being probed;
when it is given up, a RETIRE_CONNECTION_ID frame is queued for it.

    queue ──Get──▶ active ──▶ retired
      └──GetConnIDForPath──▶ pathProbing ──▶ retired

The manager does not remember which numbers it has retired.  It classifies an
incoming NEW_CONNECTION_ID frame by three watermarks only: the active number,
the highest number ever assigned to a path, and the highest number the peer
asked to retire.

## What is proved

`Sound` says what the watermarks are meant to ensure: no number is in two
places at once, and none for which a RETIRE_CONNECTION_ID frame was queued is
in any of them.  Every operation keeps it (`Inv`), except `Add` of a frame
that repeats a number in use on a path, the active number while a higher one
is on a path, or the highest number ever put on a path.  For those three,
`sound_of_fresh` shows that `Sound` fails in the very next state: a
retransmitted NEW_CONNECTION_ID frame makes the manager retire a connection ID
it keeps using.

The three callbacks of the manager are modelled by the log of their calls, the
map of probed paths by an association list: an entry is added only for a path
that has none, and looking up and deleting take the first one.
-/
import UQuic.Lib.Machine
import UQuic.Lib.Except

namespace UQuic

open List Except

def maxActiveConnectionIDs : Nat := 4

def packetsPerConnectionID : Nat := 10000

/-- `newConnID`. -/
structure NewConnID where
  sequenceNumber : Nat
  connectionID : List UInt8
  statelessResetToken : List UInt8
  deriving DecidableEq, Repr

/-- `wire.NewConnectionIDFrame`; the parser rejects a frame that retires
numbers beyond its own. -/
structure NewConnectionIDFrame where
  sequenceNumber : Nat
  retirePriorTo : Nat
  connectionID : List UInt8
  statelessResetToken : List UInt8
  retire_le : retirePriorTo ≤ sequenceNumber
  deriving DecidableEq

/-- The calls the manager makes through its callbacks. -/
inductive ConnIDCallback
  | retireConnectionID (sequenceNumber : Nat)
  | addStatelessResetToken (token : List UInt8)
  | removeStatelessResetToken (token : List UInt8)
  deriving DecidableEq, Repr

/-- What `Add` can fail with. -/
inductive ConnIDError
  /-- `PROTOCOL_VIOLATION`: the peer uses zero-length connection IDs. -/
  | zeroLengthInUse
  /-- `CONNECTION_ID_LIMIT_ERROR`. -/
  | limitExceeded
  | conflictingConnectionIDs (seq : Nat)
  | conflictingTokens (seq : Nat)
  | panic
  deriving DecidableEq, Repr

/-- `connIDManager`. -/
structure ConnIDManager where
  queue : List NewConnID
  highestProbingID : Nat
  pathProbing : List (Int × NewConnID)
  handshakeComplete : Bool
  activeSequenceNumber : Nat
  highestRetired : Nat
  activeConnectionID : List UInt8
  activeStatelessResetToken : Option (List UInt8)
  packetsSinceLastChange : Nat
  packetsPerConnectionID : Nat
  calls : List ConnIDCallback
  closed : Bool
  connectionIDLimit : Nat
  deriving DecidableEq, Repr

namespace ConnIDManager

/-- `newConnIDManager`, with the limit the client's parameters set. -/
def new (initialDestConnID : List UInt8) (connectionIDLimit : Nat) : ConnIDManager where
  queue := []
  highestProbingID := 0
  pathProbing := []
  handshakeComplete := false
  activeSequenceNumber := 0
  highestRetired := 0
  activeConnectionID := initialDestConnID
  activeStatelessResetToken := none
  packetsSinceLastChange := 0
  packetsPerConnectionID := 0
  calls := []
  closed := false
  connectionIDLimit := connectionIDLimit

/-- Queue RETIRE_CONNECTION_ID frames. -/
def retire (h : ConnIDManager) (seqs : List Nat) : ConnIDManager :=
  { h with calls := h.calls ++ seqs.map .retireConnectionID }

/-- The loop of `add` over the probed paths. -/
def retireProbing (h : ConnIDManager) (retirePriorTo : Nat) : ConnIDManager :=
  if retirePriorTo = 0 then h
  else
    { h.retire ((h.pathProbing.filter fun e => e.2.sequenceNumber < retirePriorTo).map
        (·.2.sequenceNumber)) with
      pathProbing := h.pathProbing.filter fun e => ¬ e.2.sequenceNumber < retirePriorTo }

/-- The loop of `add` over the queue. -/
def retireQueued (h : ConnIDManager) (retirePriorTo : Nat) : ConnIDManager :=
  if h.highestRetired < retirePriorTo then
    { h.retire ((h.queue.takeWhile fun c => c.sequenceNumber < retirePriorTo).map
        (·.sequenceNumber)) with
      queue := h.queue.dropWhile fun c => c.sequenceNumber < retirePriorTo
      highestRetired := retirePriorTo }
  else h

/-- The loop of `addConnectionID`. -/
def insertLoop (c : NewConnID) : List NewConnID → Except ConnIDError (List NewConnID)
  | [] => .ok []
  | el :: rest =>
    if el.sequenceNumber = c.sequenceNumber then
      if el.connectionID ≠ c.connectionID then .error (.conflictingConnectionIDs c.sequenceNumber)
      else if el.statelessResetToken ≠ c.statelessResetToken then
        .error (.conflictingTokens c.sequenceNumber)
      else .ok (el :: rest)
    else if c.sequenceNumber < el.sequenceNumber then .ok (c :: el :: rest)
    else (insertLoop c rest).map (el :: ·)

/-- `h.queue.Len() == 0 || h.queue.Back().Value.SequenceNumber < seq`. -/
def goesLast (queue : List NewConnID) (seq : Nat) : Bool :=
  match queue.getLast? with
  | none => true
  | some back => back.sequenceNumber < seq

def addConnectionID (h : ConnIDManager) (c : NewConnID) : Except ConnIDError ConnIDManager :=
  if goesLast h.queue c.sequenceNumber then .ok { h with queue := h.queue ++ [c] }
  else (insertLoop c h.queue).map fun q => { h with queue := q }

/-- `updateConnectionID`; `rnd` is the outcome of `rand.Int31n`.  A closed
manager and an empty queue panic. -/
def updateConnectionID (h : ConnIDManager) (rnd : Fin UQuic.packetsPerConnectionID) :
    Option ConnIDManager :=
  match h.closed, h.queue with
  | false, front :: rest =>
    some { h with
      calls := h.calls ++ [.retireConnectionID h.activeSequenceNumber] ++
        (h.activeStatelessResetToken.toList.map .removeStatelessResetToken) ++
        [.addStatelessResetToken front.statelessResetToken]
      highestRetired := max h.highestRetired h.activeSequenceNumber
      queue := rest
      activeSequenceNumber := front.sequenceNumber
      activeConnectionID := front.connectionID
      activeStatelessResetToken := some front.statelessResetToken
      packetsSinceLastChange := 0
      packetsPerConnectionID := UQuic.packetsPerConnectionID / 2 + rnd }
  | _, _ => none

/-- The end of `add`: insert the new connection ID and leave the active one if
the peer wants it retired. -/
def insertAndUpdate (h : ConnIDManager) (f : NewConnectionIDFrame)
    (rnd : Fin UQuic.packetsPerConnectionID) : Except ConnIDError ConnIDManager :=
  match h.addConnectionID ⟨f.sequenceNumber, f.connectionID, f.statelessResetToken⟩ with
  | .error e => .error e
  | .ok h =>
    if h.activeSequenceNumber < f.retirePriorTo then
      match h.updateConnectionID rnd with
      | some h => .ok h
      | none => .error .panic
    else .ok h

/-- The part of `add` after the loops. -/
def addNew (h : ConnIDManager) (f : NewConnectionIDFrame)
    (rnd : Fin UQuic.packetsPerConnectionID) : Except ConnIDError ConnIDManager :=
  if f.sequenceNumber = h.activeSequenceNumber then .ok h else h.insertAndUpdate f rnd

/-- `add`. -/
def addFrame (h : ConnIDManager) (f : NewConnectionIDFrame)
    (rnd : Fin UQuic.packetsPerConnectionID) : Except ConnIDError ConnIDManager :=
  if h.activeConnectionID.length = 0 then .error .zeroLengthInUse
  -- a reordered or an already retired connection ID is given back at once
  else if f.sequenceNumber < max h.activeSequenceNumber h.highestProbingID ∨
      f.sequenceNumber < h.highestRetired then .ok (h.retire [f.sequenceNumber])
  else ((h.retireProbing f.retirePriorTo).retireQueued f.retirePriorTo).addNew f rnd

/-- The number of connection IDs `Add` stores. -/
def limit (h : ConnIDManager) : Nat :=
  if h.connectionIDLimit = 0 then maxActiveConnectionIDs else h.connectionIDLimit

def add (h : ConnIDManager) (f : NewConnectionIDFrame) (rnd : Fin UQuic.packetsPerConnectionID) :
    Except ConnIDError ConnIDManager :=
  match h.addFrame f rnd with
  | .error e => .error e
  | .ok h => if h.limit ≤ h.queue.length then .error .limitExceeded else .ok h

def close (h : ConnIDManager) : ConnIDManager :=
  { h with
    closed := true
    calls := h.calls ++ h.activeStatelessResetToken.toList.map .removeStatelessResetToken }

def changeInitialConnID (h : ConnIDManager) (newConnID : List UInt8) : Option ConnIDManager :=
  if h.activeSequenceNumber ≠ 0 then none else some { h with activeConnectionID := newConnID }

def setStatelessResetToken (h : ConnIDManager) (token : List UInt8) : Option ConnIDManager :=
  if h.closed ∨ h.activeSequenceNumber ≠ 0 then none
  else some { h with
    activeStatelessResetToken := some token
    calls := h.calls ++ [.addStatelessResetToken token] }

/-- `SentPacket`; the counter is a `uint32`. -/
def sentPacket (h : ConnIDManager) : ConnIDManager :=
  { h with packetsSinceLastChange := (h.packetsSinceLastChange + 1) % 2 ^ 32 }

def shouldUpdateConnID (h : ConnIDManager) : Bool :=
  h.handshakeComplete &&
    ((decide (0 < h.queue.length) && h.activeSequenceNumber == 0) ||
      (decide (maxActiveConnectionIDs ≤ 2 * h.queue.length) &&
        decide (h.packetsPerConnectionID ≤ h.packetsSinceLastChange)))

/-- `Get`: the state it leaves; the connection ID it returns is the active one. -/
def get (h : ConnIDManager) (rnd : Fin UQuic.packetsPerConnectionID) : Option ConnIDManager :=
  if h.closed then none
  else if h.shouldUpdateConnID then h.updateConnectionID rnd
  else some h

def setHandshakeComplete (h : ConnIDManager) : ConnIDManager := { h with handshakeComplete := true }

/-- `h.pathProbing[id]`. -/
def probing (h : ConnIDManager) (id : Int) : Option NewConnID :=
  (h.pathProbing.find? fun e => e.1 = id).map (·.2)

def getConnIDForPath (h : ConnIDManager) (id : Int) :
    Option (ConnIDManager × Option (List UInt8)) :=
  if h.closed then none
  else if h.activeConnectionID.length = 0 then some (h, some [])
  else
    match h.probing id, h.queue with
    | some entry, _ => some (h, some entry.connectionID)
    | none, [] => some (h, none)
    | none, front :: rest =>
      some ({ h with
        queue := rest
        pathProbing := (id, front) :: h.pathProbing
        highestProbingID := front.sequenceNumber }, some front.connectionID)

def retireConnIDForPath (h : ConnIDManager) (id : Int) : Option ConnIDManager :=
  if h.closed then none
  else if h.activeConnectionID.length = 0 then some h
  else
    match h.probing id with
    | none => some h
    | some entry =>
      some { h.retire [entry.sequenceNumber] with
        pathProbing := h.pathProbing.eraseP fun e => e.1 = id }

/-! ## Runs -/

/-- The operations on a manager. -/
inductive Op
  | add (f : NewConnectionIDFrame) (rnd : Fin UQuic.packetsPerConnectionID)
  | get (rnd : Fin UQuic.packetsPerConnectionID)
  | sentPacket
  | getConnIDForPath (id : Int)
  | retireConnIDForPath (id : Int)
  | setHandshakeComplete
  | changeInitialConnID (newConnID : List UInt8)
  | setStatelessResetToken (token : List UInt8)
  | close

def step (h : ConnIDManager) : Op → Option ConnIDManager
  | .add f rnd => (h.add f rnd).toOption
  | .get rnd => h.get rnd
  | .sentPacket => some h.sentPacket
  | .getConnIDForPath id => (h.getConnIDForPath id).map (·.1)
  | .retireConnIDForPath id => h.retireConnIDForPath id
  | .setHandshakeComplete => some h.setHandshakeComplete
  | .changeInitialConnID newConnID => h.changeInitialConnID newConnID
  | .setStatelessResetToken token => h.setStatelessResetToken token
  | .close => some h.close

def machine (initialDestConnID : List UInt8) (connectionIDLimit : Nat) :
    Machine ConnIDManager Op :=
  .ofStep (new initialDestConnID connectionIDLimit) step

/-! ## What is in use -/

def queued (h : ConnIDManager) : List Nat := h.queue.map (·.sequenceNumber)

def onPath (h : ConnIDManager) : List Nat := h.pathProbing.map (·.2.sequenceNumber)

/-- The sequence numbers in use, place by place. -/
def inUse (h : ConnIDManager) : List Nat := h.activeSequenceNumber :: (h.queued ++ h.onPath)

def retiredBy : ConnIDCallback → Option Nat
  | .retireConnectionID seq => some seq
  | .addStatelessResetToken _ | .removeStatelessResetToken _ => none

/-- The sequence numbers for which a RETIRE_CONNECTION_ID frame was queued. -/
def retired (h : ConnIDManager) : List Nat := h.calls.filterMap retiredBy

/-- No number is in two places, and no retired number is in any. -/
def Sound (h : ConnIDManager) : Prop := h.inUse.Nodup ∧ ∀ s ∈ h.retired, s ∉ h.inUse

/-- The frame repeats no number the watermarks misjudge. -/
def Fresh (h : ConnIDManager) : Op → Prop
  | .add f _ =>
    f.sequenceNumber ∉ h.onPath ∧
      ¬ (h.activeSequenceNumber < h.highestProbingID ∧
        (f.sequenceNumber = h.activeSequenceNumber ∨ f.sequenceNumber = h.highestProbingID))
  | _ => True

instance (h : ConnIDManager) : Decidable h.Sound := by unfold Sound; infer_instance

instance (h : ConnIDManager) (op : Op) : Decidable (h.Fresh op) := by
  cases op <;> unfold Fresh <;> infer_instance

/-! ## The invariant, as a fact about sequence numbers

`Numbering` speaks about numbers only: the three watermarks, the queue, the
numbers on paths and the numbers retired so far.  One lemma says what each
kind of move does to it. -/

/-- The queue ascends above every watermark, the paths hold numbers up to
`highestProbing`, and every retired number lies below a watermark. -/
structure Numbering (active highestProbing highestRetired : Nat)
    (queued onPath retired : List Nat) : Prop where
  sorted : queued.Pairwise (· < ·)
  queuedAbove : ∀ q ∈ queued, active < q ∧ highestProbing < q ∧ highestRetired ≤ q
  onPathBelow : ∀ p ∈ onPath, p ≤ highestProbing ∧ p ≠ active ∧ p ∉ retired
  onPathNodup : onPath.Nodup
  activeKept : active ∉ retired
  retiredBelow : ∀ s ∈ retired, s < active ∨ s ≤ highestProbing ∨ s < highestRetired
  watermark : highestProbing = 0 ∨ highestProbing ∈ onPath ∨ highestProbing ∈ retired

/-- In an ascending list everything after the numbers below `r` is at least `r`. -/
theorem le_of_mem_dropWhile {r q : Nat} :
    ∀ {l : List Nat}, l.Pairwise (· < ·) → q ∈ l.dropWhile (· < r) → r ≤ q
  | [], _, hq => by cases hq
  | x :: l, hs, hq => by
    obtain ⟨hx, hl⟩ := pairwise_cons.mp hs
    by_cases hlt : x < r
    · rw [dropWhile_cons_of_pos (by simpa using hlt)] at hq
      exact le_of_mem_dropWhile hl hq
    · rw [dropWhile_cons_of_neg (by simpa using hlt)] at hq
      rcases mem_cons.mp hq with rfl | hq
      · exact Nat.not_lt.mp hlt
      · exact (Nat.not_lt.mp hlt).trans (Nat.le_of_lt (hx q hq))

variable {s q : Nat}

namespace Numbering

variable {a hp hr : Nat} {Q P R : List Nat}

section

variable (h : Numbering a hp hr Q P R)

include h

variable {S P' Q' : List Nat} {r : Nat}

/-- Numbers below a watermark that are neither active nor left on a path may be
retired, and the watermark of the queue may rise to `r`. -/
theorem retire (hle : hr ≤ r) (hQ : Q'.Sublist Q) (habove : ∀ q ∈ Q', r ≤ q) (hsub : P'.Sublist P)
    (hS : ∀ s ∈ S, s ≠ a ∧ s ∉ P' ∧ (s < a ∨ s ≤ hp ∨ s < r))
    (hw : hp ∈ P → hp ∈ P' ∨ hp ∈ S) : Numbering a hp r Q' P' (R ++ S) where
  sorted := h.sorted.sublist hQ
  queuedAbove q hq := by
    obtain ⟨ha, hp', -⟩ := h.queuedAbove q (hQ.subset hq)
    exact ⟨ha, hp', habove q hq⟩
  onPathBelow p hp' := by
    obtain ⟨hle, hne, hnot⟩ := h.onPathBelow p (hsub.subset hp')
    refine ⟨hle, hne, fun hmem => ?_⟩
    rcases mem_append.mp hmem with hmem | hmem
    · exact hnot hmem
    · exact (hS p hmem).2.1 hp'
  onPathNodup := h.onPathNodup.sublist hsub
  activeKept hmem := by
    rcases mem_append.mp hmem with hmem | hmem
    · exact h.activeKept hmem
    · exact (hS a hmem).1 rfl
  retiredBelow s hs := by
    rcases mem_append.mp hs with hs | hs
    · exact (h.retiredBelow s hs).imp_right (Or.imp_right fun hlt => hlt.trans_le hle)
    · exact (hS s hs).2.2
  watermark := by
    rcases h.watermark with h₀ | hmem | hmem
    · exact .inl h₀
    · rcases hw hmem with hmem' | hmem'
      · exact .inr (.inl hmem')
      · exact .inr (.inr (mem_append_right _ hmem'))
    · exact .inr (.inr (mem_append_left _ hmem))

/-- Numbers given up while the queue stays as it is. -/
theorem giveUp (hsub : P'.Sublist P) (hS : ∀ s ∈ S, s ≠ a ∧ s ∉ P' ∧ (s < a ∨ s ≤ hp ∨ s < hr))
    (hw : hp ∈ P → hp ∈ P' ∨ hp ∈ S) : Numbering a hp hr Q P' (R ++ S) :=
  h.retire le_rfl (List.Sublist.refl Q) (fun q hq => (h.queuedAbove q hq).2.2) hsub hS hw

/-- Retiring the queue below `r` leaves what lies at or above `r`. -/
theorem retireQueued (hlt : hr < r) :
    Numbering a hp r (Q.dropWhile (· < r)) P (R ++ Q.takeWhile (· < r)) := by
  refine h.retire hlt.le (dropWhile_sublist _) (fun q => le_of_mem_dropWhile h.sorted)
    (List.Sublist.refl P) (fun s hs => ?_) Or.inl
  obtain ⟨ha, hp', -⟩ := h.queuedAbove s ((takeWhile_sublist _).subset hs)
  refine ⟨by omega, fun hmem => ?_, .inr (.inr (by simpa using mem_takeWhile_imp hs))⟩
  have := (h.onPathBelow s hmem).1
  omega

/-- A number above every watermark may enter the queue. -/
theorem insert (hs : a < s ∧ hp < s ∧ hr ≤ s) (hsorted : Q'.Pairwise (· < ·))
    (hmem : ∀ q, q ∈ Q' ↔ q ∈ Q ∨ q = s) : Numbering a hp hr Q' P R where
  sorted := hsorted
  queuedAbove q hq := by
    rcases (hmem q).mp hq with hq | rfl
    · exact h.queuedAbove q hq
    · exact hs
  onPathBelow := h.onPathBelow
  onPathNodup := h.onPathNodup
  activeKept := h.activeKept
  retiredBelow := h.retiredBelow
  watermark := h.watermark

/-- No retired number is above all watermarks. -/
theorem not_retired_of_queued (hq : q ∈ Q) : q ∉ R := by
  intro hmem
  obtain ⟨h₁, h₂, h₃⟩ := h.queuedAbove q hq
  rcases h.retiredBelow q hmem with h₄ | h₄ | h₄ <;> omega

end

/-- The front of the queue replaces the active number. -/
theorem promote (h : Numbering a hp hr (q :: Q) P R) :
    Numbering q hp (max hr a) Q P (R ++ [a]) := by
  obtain ⟨hfirst, hsorted⟩ := pairwise_cons.mp h.sorted
  obtain ⟨haq, hpq, hrq⟩ := h.queuedAbove q mem_cons_self
  constructor
  case sorted => exact hsorted
  case queuedAbove =>
    intro c hc
    obtain ⟨h₁, h₂, h₃⟩ := h.queuedAbove c (mem_cons_of_mem _ hc)
    exact ⟨hfirst c hc, h₂, by omega⟩
  case onPathBelow =>
    intro p hp'
    obtain ⟨hle, hne, hnot⟩ := h.onPathBelow p hp'
    exact ⟨hle, by omega, by simp [hnot, hne]⟩
  case onPathNodup => exact h.onPathNodup
  case activeKept =>
    have := h.not_retired_of_queued mem_cons_self
    simp only [mem_append, mem_singleton, not_or]
    exact ⟨this, by omega⟩
  case retiredBelow =>
    intro s hs
    rcases mem_append.mp hs with hs | hs
    · rcases h.retiredBelow s hs with h₁ | h₁ | h₁
      · exact .inl (by omega)
      · exact .inr (.inl h₁)
      · exact .inr (.inr (by omega))
    · rw [mem_singleton] at hs
      exact .inl (hs ▸ haq)
  case watermark =>
    rcases h.watermark with h₀ | hmem | hmem
    · exact .inl h₀
    · exact .inr (.inl hmem)
    · exact .inr (.inr (mem_append_left _ hmem))

/-- The front of the queue goes to a path. -/
theorem assign (h : Numbering a hp hr (q :: Q) P R) : Numbering a q hr Q (q :: P) R := by
  obtain ⟨hfirst, hsorted⟩ := pairwise_cons.mp h.sorted
  obtain ⟨haq, hpq, hrq⟩ := h.queuedAbove q mem_cons_self
  constructor
  case sorted => exact hsorted
  case queuedAbove =>
    intro c hc
    obtain ⟨h₁, h₂, h₃⟩ := h.queuedAbove c (mem_cons_of_mem _ hc)
    exact ⟨h₁, hfirst c hc, h₃⟩
  case onPathBelow =>
    intro p hp'
    rcases mem_cons.mp hp' with rfl | hp'
    · exact ⟨le_rfl, by omega, h.not_retired_of_queued mem_cons_self⟩
    · obtain ⟨hle, hne, hnot⟩ := h.onPathBelow p hp'
      exact ⟨by omega, hne, hnot⟩
  case onPathNodup =>
    refine nodup_cons.mpr ⟨fun hmem => ?_, h.onPathNodup⟩
    have := (h.onPathBelow q hmem).1
    omega
  case activeKept => exact h.activeKept
  case retiredBelow =>
    intro s hs
    rcases h.retiredBelow s hs with h₁ | h₁ | h₁
    · exact .inl h₁
    · exact .inr (.inl (by omega))
    · exact .inr (.inr h₁)
  case watermark => exact .inr (.inl mem_cons_self)

/-- The places are disjoint, and disjoint from what is retired. -/
theorem disjoint (h : Numbering a hp hr Q P R) :
    (a :: (Q ++ P)).Nodup ∧ ∀ s ∈ R, s ∉ a :: (Q ++ P) := by
  refine ⟨nodup_cons.mpr ⟨fun hmem => ?_, nodup_append.mpr ⟨?_, h.onPathNodup, ?_⟩⟩, ?_⟩
  · rcases mem_append.mp hmem with hmem | hmem
    · exact Nat.lt_irrefl _ (h.queuedAbove a hmem).1
    · exact (h.onPathBelow a hmem).2.1 rfl
  · exact h.sorted.imp fun hlt => Nat.ne_of_lt hlt
  · intro q hq p hp' heq
    have := (h.queuedAbove q hq).2.1
    have := (h.onPathBelow p hp').1
    omega
  · intro s hs hmem
    rcases mem_cons.mp hmem with rfl | hmem
    · exact h.activeKept hs
    · rcases mem_append.mp hmem with hmem | hmem
      · exact h.not_retired_of_queued hmem hs
      · exact (h.onPathBelow s hmem).2.2 hs

end Numbering

/-! ## What each operation does to the numbers -/

variable {h h' : ConnIDManager} {f : NewConnectionIDFrame} {rnd : Fin UQuic.packetsPerConnectionID}

def Numbered (h : ConnIDManager) : Prop :=
  Numbering h.activeSequenceNumber h.highestProbingID h.highestRetired h.queued h.onPath h.retired

/-- What every operation keeps. -/
structure Inv (h : ConnIDManager) : Prop where
  numbered : h.Numbered
  settled : h.highestRetired ≤ h.activeSequenceNumber

theorem queued_cons {front : NewConnID} {rest : List NewConnID} (hq : h.queue = front :: rest) :
    h.queued = front.sequenceNumber :: rest.map (·.sequenceNumber) := by
  rw [queued, hq, map_cons]

@[simp] theorem retired_retire (h : ConnIDManager) (seqs : List Nat) :
    (h.retire seqs).retired = h.retired ++ seqs := by
  simp [retired, retire, filterMap_map, Function.comp_def, retiredBy]

theorem inv_new (initialDestConnID : List UInt8) (connectionIDLimit : Nat) :
    Inv (new initialDestConnID connectionIDLimit) where
  numbered := ⟨.nil, by simp [queued, new], by simp [onPath, new], by simp [onPath, new],
    by simp [retired, new], by simp [retired, new], .inl rfl⟩
  settled := le_rfl

/-- `add` gives a number below a watermark back. -/
theorem numbered_retire (hn : h.Numbered) (hact : s ≠ h.activeSequenceNumber) (hpath : s ∉ h.onPath)
    (hlow : s < h.activeSequenceNumber ∨ s ≤ h.highestProbingID ∨ s < h.highestRetired) :
    (h.retire [s]).Numbered := by
  simp only [Numbered, retired_retire]
  refine Numbering.giveUp hn (List.Sublist.refl _) ?_ Or.inl
  intro s' hs'
  obtain rfl := mem_singleton.mp hs'
  exact ⟨hact, hpath, hlow⟩

theorem retireProbing_onPath (h : ConnIDManager) (r : Nat) :
    (h.retireProbing r).onPath = h.onPath.filter fun s => ¬ s < r := by
  simp only [retireProbing]
  split_ifs with hr
  · simp [hr]
  · simp [onPath, filter_map, Function.comp_def]

theorem retireProbing_retired (h : ConnIDManager) (r : Nat) :
    (h.retireProbing r).retired = h.retired ++ h.onPath.filter fun s => s < r := by
  simp only [retireProbing]
  split_ifs with hr
  · simp [hr]
  · show (h.retire _).retired = _
    simp [onPath, filter_map, Function.comp_def]

theorem retireProbing_frame (h : ConnIDManager) (r : Nat) :
    (h.retireProbing r).activeSequenceNumber = h.activeSequenceNumber ∧
      (h.retireProbing r).highestProbingID = h.highestProbingID ∧
      (h.retireProbing r).highestRetired = h.highestRetired ∧
      (h.retireProbing r).queue = h.queue := by
  simp only [retireProbing]
  split <;> exact ⟨rfl, rfl, rfl, rfl⟩

theorem retireProbing_numbered (hn : h.Numbered) (r : Nat) : (h.retireProbing r).Numbered := by
  obtain ⟨h₁, h₂, h₃, h₄⟩ := retireProbing_frame h r
  simp only [Numbered, queued, h₁, h₂, h₃, h₄, retireProbing_onPath, retireProbing_retired]
  refine Numbering.giveUp hn filter_sublist ?_ ?_
  · intro s hs
    rw [mem_filter, decide_eq_true_eq] at hs
    obtain ⟨hle, hne, -⟩ := hn.onPathBelow s hs.1
    exact ⟨hne, by simp [hs.2], .inr (.inl hle)⟩
  · intro hmem
    simp only [mem_filter, hmem, true_and, decide_eq_true_eq]
    exact (Nat.lt_or_ge h.highestProbingID r).symm.imp Nat.not_lt.mpr id

theorem retireQueued_frame (h : ConnIDManager) (r : Nat) :
    (h.retireQueued r).activeSequenceNumber = h.activeSequenceNumber ∧
      (h.retireQueued r).highestProbingID = h.highestProbingID ∧
      (h.retireQueued r).highestRetired = max h.highestRetired r ∧
      (h.retireQueued r).onPath = h.onPath := by
  simp only [retireQueued]
  split
  · exact ⟨rfl, rfl, by simp; omega, rfl⟩
  · exact ⟨rfl, rfl, by omega, rfl⟩

theorem retireQueued_numbered (hn : h.Numbered) (r : Nat) : (h.retireQueued r).Numbered := by
  simp only [retireQueued]
  split_ifs with hlt
  · have := Numbering.retireQueued hn hlt
    simp only [queued, dropWhile_map, takeWhile_map, Function.comp_def] at this
    rw [← retired_retire] at this
    exact this
  · exact hn

/-- The loops only add to what is retired. -/
theorem mem_retired_loops (r : Nat) (hs : s ∈ h.retired) :
    s ∈ ((h.retireProbing r).retireQueued r).retired := by
  have h₁ : s ∈ (h.retireProbing r).retired := by
    rw [retireProbing_retired]
    exact mem_append_left _ hs
  simp only [retireQueued]
  split
  · show s ∈ ((h.retireProbing r).retire _).retired
    rw [retired_retire]
    exact mem_append_left _ h₁
  · exact h₁

theorem insertLoop_ok {c : NewConnID} : ∀ {l l' : List NewConnID},
    (l.map (·.sequenceNumber)).Pairwise (· < ·) → (∃ el ∈ l, c.sequenceNumber ≤ el.sequenceNumber) →
    insertLoop c l = .ok l' →
      (l'.map (·.sequenceNumber)).Pairwise (· < ·) ∧
        ∀ q, q ∈ l'.map (·.sequenceNumber) ↔ q ∈ l.map (·.sequenceNumber) ∨ q = c.sequenceNumber
  | [], _, _, hex, _ => by
    obtain ⟨el, hel, -⟩ := hex
    cases hel
  | el :: rest, l', hs, hex, hok => by
    rw [map_cons, pairwise_cons] at hs
    simp only [insertLoop] at hok
    split at hok
    · rename_i heq
      split_ifs at hok
      cases hok
      refine ⟨pairwise_cons.mpr hs, fun q => ⟨Or.inl, fun hq => hq.elim id ?_⟩⟩
      intro hq
      rw [hq, ← heq]
      exact mem_cons_self
    · rename_i hne
      split_ifs at hok with hlt
      · cases hok
        refine ⟨pairwise_cons.mpr ⟨?_, pairwise_cons.mpr hs⟩, fun q => ?_⟩
        · intro q hq
          rcases mem_cons.mp hq with rfl | hq
          · exact hlt
          · exact hlt.trans (hs.1 q hq)
        · rw [map_cons, mem_cons]
          exact Or.comm
      · obtain ⟨rest', hrest, rfl⟩ := map_eq_ok_iff.mp hok
        have hex' : ∃ e ∈ rest, c.sequenceNumber ≤ e.sequenceNumber := by
          obtain ⟨e, he, hle⟩ := hex
          rcases mem_cons.mp he with rfl | he
          · omega
          · exact ⟨e, he, hle⟩
        obtain ⟨ih₁, ih₂⟩ := insertLoop_ok hs.2 hex' hrest
        refine ⟨pairwise_cons.mpr ⟨?_, ih₁⟩, fun q => ?_⟩
        · intro q hq
          rcases (ih₂ q).mp hq with hq | rfl
          · exact hs.1 q hq
          · show el.sequenceNumber < c.sequenceNumber
            omega
        · simp only [map_cons, mem_cons, ih₂ q, or_assoc]

theorem le_getLast_of_sorted {back : NewConnID} :
    ∀ {l : List NewConnID}, (l.map (·.sequenceNumber)).Pairwise (· < ·) →
      l.getLast? = some back → q ∈ l.map (·.sequenceNumber) → q ≤ back.sequenceNumber := by
  intro l hs hl hq
  obtain ⟨l', rfl⟩ := List.getLast?_eq_some_iff.mp hl
  simp only [map_append, map_cons, map_nil, pairwise_append] at hs hq
  rcases mem_append.mp hq with hq | hq
  · exact Nat.le_of_lt (hs.2.2 q hq _ mem_cons_self)
  · exact Nat.le_of_eq (mem_singleton.mp hq)

/-- What a successful `addConnectionID` did to the queue. -/
theorem addConnectionID_ok {c : NewConnID} (hs : h.queued.Pairwise (· < ·))
    (hok : h.addConnectionID c = .ok h') :
    h' = { h with queue := h'.queue } ∧ h'.queued.Pairwise (· < ·) ∧
      ∀ q, q ∈ h'.queued ↔ q ∈ h.queued ∨ q = c.sequenceNumber := by
  simp only [addConnectionID, goesLast] at hok
  cases hl : h.queue.getLast? with
  | none =>
    rw [List.getLast?_eq_none_iff] at hl
    simp only [hl, List.getLast?_nil, if_true, nil_append] at hok
    cases hok
    simp [queued, hl]
  | some back =>
    simp only [hl, decide_eq_true_eq] at hok
    have hback : back ∈ h.queue := mem_of_getLast? hl
    split_ifs at hok with hlt
    · cases hok
      refine ⟨rfl, ?_, by simp [queued]⟩
      simp only [queued, map_append, map_cons, map_nil]
      refine pairwise_append.mpr ⟨hs, pairwise_singleton _ _, ?_⟩
      intro q hq s hs'
      rw [mem_singleton] at hs'
      exact hs' ▸ (le_getLast_of_sorted hs hl hq).trans_lt hlt
    · obtain ⟨q, hq, rfl⟩ := map_eq_ok_iff.mp hok
      exact ⟨rfl, insertLoop_ok hs ⟨back, hback, Nat.not_lt.mp hlt⟩ hq⟩

theorem updateConnectionID_some (hs : h.updateConnectionID rnd = some h') :
    ∃ front rest, h.queue = front :: rest ∧ h'.queue = rest ∧
      h'.activeSequenceNumber = front.sequenceNumber ∧ h'.highestProbingID = h.highestProbingID ∧
      h'.highestRetired = max h.highestRetired h.activeSequenceNumber ∧
      h'.pathProbing = h.pathProbing ∧ h'.retired = h.retired ++ [h.activeSequenceNumber] := by
  simp only [updateConnectionID] at hs
  split at hs
  · rename_i front rest _ hq
    cases hs
    refine ⟨front, rest, hq, rfl, rfl, rfl, rfl, rfl, ?_⟩
    cases h.activeStatelessResetToken <;> simp [retired, retiredBy]
  · cases hs

theorem updateConnectionID_inv (hn : h.Numbered)
    (hs : h.updateConnectionID rnd = some h') : Inv h' := by
  obtain ⟨front, rest, hq, h₁, h₂, h₃, h₄, h₅, h₆⟩ := updateConnectionID_some hs
  have hn' : Numbering h.activeSequenceNumber h.highestProbingID h.highestRetired
      (front.sequenceNumber :: rest.map (·.sequenceNumber)) h.onPath h.retired := by
    exact queued_cons hq ▸ hn
  obtain ⟨ha, -, hr⟩ := hn'.queuedAbove _ mem_cons_self
  constructor
  · simp only [Numbered, queued, onPath, h₁, h₂, h₃, h₄, h₅, h₆]
    exact hn'.promote
  · rw [h₂, h₄]
    omega

theorem insertAndUpdate_eq_ok (hok : h.insertAndUpdate f rnd = .ok h') :
    ∃ h₁, h.addConnectionID ⟨f.sequenceNumber, f.connectionID, f.statelessResetToken⟩ = .ok h₁ ∧
      (h₁.updateConnectionID rnd = some h' ∨
        f.retirePriorTo ≤ h₁.activeSequenceNumber ∧ h' = h₁) := by
  simp only [insertAndUpdate] at hok
  split at hok
  · cases hok
  · rename_i h₁ hadd
    refine ⟨h₁, hadd, ?_⟩
    split_ifs at hok with hkeep
    · split at hok
      · rename_i hup
        cases hok
        exact .inl hup
      · cases hok
    · cases hok
      exact .inr ⟨Nat.not_lt.mp hkeep, rfl⟩

/-- What the end of `add` did: the new number is now queued or active, and
nothing left its path or the log. -/
theorem insertAndUpdate_ok
    (hs : h.queued.Pairwise (· < ·)) (hok : h.insertAndUpdate f rnd = .ok h') :
    (f.sequenceNumber = h'.activeSequenceNumber ∨ f.sequenceNumber ∈ h'.queued) ∧
      h'.onPath = h.onPath ∧ ∀ s ∈ h.retired, s ∈ h'.retired := by
  obtain ⟨h₁, hadd, hend⟩ := insertAndUpdate_eq_ok hok
  obtain ⟨heq, hsorted, hmem⟩ := addConnectionID_ok hs hadd
  have hin : f.sequenceNumber ∈ h₁.queued := (hmem _).mpr (.inr rfl)
  have hpath : h₁.onPath = h.onPath := by rw [heq]; rfl
  have hret : h₁.retired = h.retired := by rw [heq]; rfl
  rcases hend with hup | ⟨-, rfl⟩
  · obtain ⟨front, rest, hq, hq', hact, -, -, hprob, hret'⟩ := updateConnectionID_some hup
    refine ⟨?_, ?_, ?_⟩
    · simp only [queued, hq, map_cons, mem_cons] at hin
      rw [hact, queued, hq']
      exact hin
    · rw [← hpath, onPath, hprob, onPath]
    · intro s hs'
      rw [hret', hret]
      exact mem_append_left _ hs'
  · exact ⟨.inr hin, hpath, fun s hs' => hret ▸ hs'⟩

theorem insertAndUpdate_inv (hn : h.Numbered)
    (hlow : h.activeSequenceNumber < f.sequenceNumber ∧ h.highestProbingID < f.sequenceNumber ∧
      h.highestRetired ≤ f.sequenceNumber)
    (hret : h.highestRetired ≤ max h.activeSequenceNumber f.retirePriorTo)
    (hok : h.insertAndUpdate f rnd = .ok h') : Inv h' := by
  obtain ⟨h₁, hadd, hend⟩ := insertAndUpdate_eq_ok hok
  obtain ⟨heq, hsorted, hmem⟩ := addConnectionID_ok hn.sorted hadd
  have hn₁ : h₁.Numbered := by
    have := Numbering.insert hn hlow hsorted hmem
    rw [heq]
    rw [heq] at this
    exact this
  have hact : h₁.activeSequenceNumber = h.activeSequenceNumber := by rw [heq]
  have hhr : h₁.highestRetired = h.highestRetired := by rw [heq]
  rcases hend with hup | ⟨hkeep, rfl⟩
  · exact updateConnectionID_inv hn₁ hup
  · exact ⟨hn₁, by omega⟩

/-! ## `Add` -/

/-- A frame `add` does not give back has a number from every watermark on. -/
theorem addFrame_ok (hok : h.addFrame f rnd = .ok h') :
    ((f.sequenceNumber < h.activeSequenceNumber ∨ f.sequenceNumber < h.highestProbingID ∨
        f.sequenceNumber < h.highestRetired) ∧ h' = h.retire [f.sequenceNumber]) ∨
    ((h.activeSequenceNumber ≤ f.sequenceNumber ∧ h.highestProbingID ≤ f.sequenceNumber ∧
        h.highestRetired ≤ f.sequenceNumber) ∧
      ((h.retireProbing f.retirePriorTo).retireQueued f.retirePriorTo).addNew f rnd = .ok h') := by
  simp only [addFrame] at hok
  split at hok
  · cases hok
  · split at hok
    · cases hok
      exact .inl ⟨by omega, rfl⟩
    · exact .inr ⟨by omega, hok⟩

theorem addFrame_inv
    (hi : Inv h) (hf : h.Fresh (.add f rnd)) (hok : h.addFrame f rnd = .ok h') : Inv h' := by
  obtain ⟨hpath, hmark⟩ := hf
  have hle := f.retire_le
  have hset := hi.settled
  rcases addFrame_ok hok with ⟨hlow, rfl⟩ | ⟨hhigh, hnew⟩
  · refine ⟨numbered_retire hi.numbered ?_ hpath ?_, hset⟩
    · intro heq
      exact hmark ⟨by omega, .inl heq⟩
    · omega
  · have hn := retireQueued_numbered (retireProbing_numbered hi.numbered f.retirePriorTo)
      f.retirePriorTo
    obtain ⟨h₁, h₂, h₃, -⟩ := retireProbing_frame h f.retirePriorTo
    obtain ⟨h₄, h₅, h₆, -⟩ := retireQueued_frame (h.retireProbing f.retirePriorTo) f.retirePriorTo
    simp only [addNew] at hnew
    split_ifs at hnew with hne
    · cases hnew
      exact ⟨hn, by omega⟩
    · -- the highest number ever on a path is not asked for again
      have hstrict : h.highestProbingID < f.sequenceNumber := by
        refine Nat.lt_of_le_of_ne hhigh.2.1 fun heq => hmark ⟨by omega, .inr heq.symm⟩
      exact insertAndUpdate_inv hn ⟨by omega, by omega, by omega⟩ (by omega) hnew

/-- A frame that is not fresh breaks `Sound` at once. -/
theorem addFrame_not_sound
    (hi : Inv h) (hf : ¬ h.Fresh (.add f rnd)) (hok : h.addFrame f rnd = .ok h') : ¬ h'.Sound := by
  rintro ⟨hnodup, hret⟩
  have hset := hi.settled
  have hn := hi.numbered
  rw [Fresh, not_and_or, not_not, not_not] at hf
  rcases addFrame_ok hok with ⟨hlow, rfl⟩ | ⟨hhigh, hnew⟩
  · -- the frame is given back although its number is still in use
    refine hret f.sequenceNumber (by simp) ?_
    show f.sequenceNumber ∈ h.inUse
    rcases hf with hmem | ⟨hlt, heq | heq⟩
    · exact mem_cons_of_mem _ (mem_append_right _ hmem)
    · exact heq ▸ mem_cons_self
    · omega
  · -- the number of the highest path is queued a second time
    have heq : f.sequenceNumber = h.highestProbingID ∧
        h.highestProbingID ≠ h.activeSequenceNumber := by
      rcases hf with hmem | ⟨hlt, heq | heq⟩
      · obtain ⟨hle, hne, -⟩ := hn.onPathBelow _ hmem
        have : f.sequenceNumber = h.highestProbingID := by omega
        exact ⟨this, this ▸ hne⟩
      · omega
      · omega
    have hn' := retireQueued_numbered (retireProbing_numbered hn f.retirePriorTo) f.retirePriorTo
    obtain ⟨h₁, -, -, -⟩ := retireProbing_frame h f.retirePriorTo
    obtain ⟨h₄, -, -, h₇⟩ := retireQueued_frame (h.retireProbing f.retirePriorTo) f.retirePriorTo
    simp only [addNew] at hnew
    split at hnew
    · omega
    · obtain ⟨hin, hpath', hret'⟩ := insertAndUpdate_ok hn'.sorted hnew
      rcases hn.watermark with h₀ | hmem | hmem
      · omega
      · -- still on its path: the queue and the path share the number
        have honPath : f.sequenceNumber ∈ h'.onPath := by
          rw [hpath', h₇, retireProbing_onPath, mem_filter]
          exact ⟨heq.1 ▸ hmem, by simpa using f.retire_le⟩
        rw [inUse, nodup_cons, nodup_append] at hnodup
        rcases hin with hin | hin
        · exact hnodup.1 (mem_append_right _ (hin ▸ honPath))
        · exact hnodup.2.2.2 _ hin _ honPath rfl
      · -- retired before: a retired number is queued again
        refine hret f.sequenceNumber (hret' _ (mem_retired_loops _ (heq.1 ▸ hmem))) ?_
        rcases hin with hin | hin
        · exact hin ▸ mem_cons_self
        · exact mem_cons_of_mem _ (mem_append_left _ hin)

theorem add_ok (hok : h.add f rnd = .ok h') : h.addFrame f rnd = .ok h' := by
  simp only [add] at hok
  split at hok
  · cases hok
  · rename_i h₁ heq
    split_ifs at hok
    cases hok
    exact heq

/-! ## Paths -/

variable {id : Int} {c : Option (List UInt8)}

/-- `GetConnIDForPath` changes nothing, or the front of the queue goes to the path. -/
theorem getConnIDForPath_cases (hs : h.getConnIDForPath id = some (h', c)) :
    h' = h ∨ ∃ front rest, h.probing id = none ∧ h.queue = front :: rest ∧
      c = some front.connectionID ∧ h' = { h with
        queue := rest
        pathProbing := (id, front) :: h.pathProbing
        highestProbingID := front.sequenceNumber } := by
  simp only [getConnIDForPath] at hs
  split at hs
  · cases hs
  · split at hs
    · cases hs
      exact .inl rfl
    · split at hs
      · cases hs
        exact .inl rfl
      · cases hs
        exact .inl rfl
      · rename_i front rest hprob hq
        cases hs
        exact .inr ⟨front, rest, hprob, hq, rfl, rfl⟩

/-- `RetireConnIDForPath` changes nothing, or the entry of the path is retired. -/
theorem retireConnIDForPath_cases (hs : h.retireConnIDForPath id = some h') :
    h' = h ∧ (h.activeConnectionID = [] ∨ h.probing id = none) ∨
    ∃ entry, h.probing id = some entry ∧ h' = { h.retire [entry.sequenceNumber] with
      pathProbing := h.pathProbing.eraseP fun e => e.1 = id } := by
  simp only [retireConnIDForPath] at hs
  split at hs
  · cases hs
  · split_ifs at hs with hlen
    · cases hs
      exact .inl ⟨rfl, .inl (eq_nil_of_length_eq_zero hlen)⟩
    · split at hs
      · rename_i hprob
        cases hs
        exact .inl ⟨rfl, .inr hprob⟩
      · rename_i entry hprob
        cases hs
        exact .inr ⟨entry, hprob, rfl⟩

theorem getConnIDForPath_inv (hi : Inv h) (hs : h.getConnIDForPath id = some (h', c)) : Inv h' := by
  rcases getConnIDForPath_cases hs with rfl | ⟨front, rest, -, hq, -, rfl⟩
  · exact hi
  · have hn := hi.numbered
    rw [Numbered, queued_cons hq] at hn
    exact ⟨hn.assign, hi.settled⟩

/-- The entry of a path, and the entries without it. -/
theorem probing_some {entry : NewConnID} (hp : h.probing id = some entry) :
    ∃ as bs, h.pathProbing = as ++ (id, entry) :: bs ∧
      (h.pathProbing.eraseP fun e => e.1 = id) = as ++ bs := by
  simp only [probing, Option.map_eq_some_iff] at hp
  obtain ⟨e, he, rfl⟩ := hp
  obtain ⟨hid, as, bs, heq, has⟩ := List.find?_eq_some_iff_append.mp he
  obtain rfl : e.1 = id := by simpa using hid
  refine ⟨as, bs, heq, ?_⟩
  rw [heq, eraseP_append_right _ (by simpa using has), eraseP_cons_of_pos (by simp)]

theorem retireConnIDForPath_inv (hi : Inv h)
    (hs : h.retireConnIDForPath id = some h') : Inv h' := by
  rcases retireConnIDForPath_cases hs with ⟨rfl, -⟩ | ⟨entry, hprob, rfl⟩
  · exact hi
  · obtain ⟨as, bs, heq, herase⟩ := probing_some hprob
    refine ⟨?_, hi.settled⟩
    have honPath : h.onPath = as.map (·.2.sequenceNumber) ++
        entry.sequenceNumber :: bs.map (·.2.sequenceNumber) := by simp [onPath, heq]
    have hn := hi.numbered
    rw [Numbered, honPath] at hn
    show Numbering _ _ _ h.queued ((h.pathProbing.eraseP fun e => e.1 = id).map
      (·.2.sequenceNumber)) (h.retire [entry.sequenceNumber]).retired
    rw [retired_retire, herase, map_append]
    obtain ⟨hle, hne, -⟩ := hn.onPathBelow entry.sequenceNumber (by simp)
    refine hn.giveUp ((sublist_cons_self _ _).append_left _) ?_ ?_
    · intro s hs
      obtain rfl := mem_singleton.mp hs
      exact ⟨hne, (nodup_cons.mp (nodup_middle.mp hn.onPathNodup)).1, .inr (.inl hle)⟩
    · intro hin
      rcases mem_append.mp hin with hin | hin
      · exact .inl (mem_append_left _ hin)
      · rcases mem_cons.mp hin with hin | hin
        · exact .inr (mem_singleton.mpr hin)
        · exact .inl (mem_append_right _ hin)

/-! ## One step, and whole runs -/

/-- Adding other callbacks to the log retires nothing. -/
theorem retired_append_of_other {calls : List ConnIDCallback}
    (hc : ∀ c ∈ calls, retiredBy c = none) :
    (h.calls ++ calls).filterMap retiredBy = h.retired := by
  rw [filterMap_append, filterMap_eq_nil_iff.mpr hc, append_nil, retired]

/-- No number has moved; a new active connection ID comes from `ChangeInitialConnID`. -/
structure Same (op : Op) (h h' : ConnIDManager) : Prop where
  queue : h'.queue = h.queue
  pathProbing : h'.pathProbing = h.pathProbing
  active : h'.activeSequenceNumber = h.activeSequenceNumber
  highestProbing : h'.highestProbingID = h.highestProbingID
  highestRetired : h'.highestRetired = h.highestRetired
  retired : h'.retired = h.retired
  connID : h'.activeConnectionID = h.activeConnectionID ∨
    op = .changeInitialConnID h'.activeConnectionID

variable {op : Op}

/-- **What an operation does**: one of four calls that move numbers, or none moves. -/
theorem step_cases (hs : h.step op = some h') :
    (∃ f rnd, op = .add f rnd ∧ h.addFrame f rnd = .ok h') ∨
    (∃ rnd, h.updateConnectionID rnd = some h') ∨
    (∃ id c, op = .getConnIDForPath id ∧ h.getConnIDForPath id = some (h', c)) ∨
    (∃ id, op = .retireConnIDForPath id ∧ h.retireConnIDForPath id = some h') ∨ Same op h h' := by
  cases op with
  | add f rnd => exact .inl ⟨f, rnd, rfl, add_ok (toOption_eq_some_iff.mp hs)⟩
  | get rnd =>
    simp only [step, get] at hs
    split at hs
    · cases hs
    · split at hs
      · exact .inr (.inl ⟨rnd, hs⟩)
      · cases hs
        exact .inr (.inr (.inr (.inr ⟨rfl, rfl, rfl, rfl, rfl, rfl, .inl rfl⟩)))
  | getConnIDForPath id =>
    obtain ⟨⟨h₁, c⟩, hget, rfl⟩ := Option.map_eq_some_iff.mp hs
    exact .inr (.inr (.inl ⟨id, c, rfl, hget⟩))
  | retireConnIDForPath id => exact .inr (.inr (.inr (.inl ⟨id, rfl, hs⟩)))
  | sentPacket | setHandshakeComplete =>
    cases hs
    exact .inr (.inr (.inr (.inr ⟨rfl, rfl, rfl, rfl, rfl, rfl, .inl rfl⟩)))
  | changeInitialConnID newConnID =>
    simp only [step, changeInitialConnID] at hs
    split_ifs at hs
    cases hs
    exact .inr (.inr (.inr (.inr ⟨rfl, rfl, rfl, rfl, rfl, rfl, .inr rfl⟩)))
  | setStatelessResetToken token =>
    simp only [step, setStatelessResetToken] at hs
    split_ifs at hs
    cases hs
    refine .inr (.inr (.inr (.inr ⟨rfl, rfl, rfl, rfl, rfl, ?_, .inl rfl⟩)))
    exact retired_append_of_other (by simp [retiredBy])
  | close =>
    cases hs
    refine .inr (.inr (.inr (.inr ⟨rfl, rfl, rfl, rfl, rfl, ?_, .inl rfl⟩)))
    exact retired_append_of_other (by simp [retiredBy])

theorem step_inv (hi : Inv h) (hf : h.Fresh op) (hs : h.step op = some h') : Inv h' := by
  rcases step_cases hs with ⟨f, rnd, rfl, hadd⟩ | ⟨rnd, hup⟩ |
    ⟨id, c, -, hget⟩ | ⟨id, -, hret⟩ | heq
  · exact addFrame_inv hi hf hadd
  · exact updateConnectionID_inv hi.numbered hup
  · exact getConnIDForPath_inv hi hget
  · exact retireConnIDForPath_inv hi hret
  · refine ⟨?_, ?_⟩
    · rw [Numbered, queued, onPath, heq.queue, heq.pathProbing, heq.active, heq.highestProbing,
        heq.highestRetired, heq.retired]
      exact hi.numbered
    · rw [heq.active, heq.highestRetired]
      exact hi.settled

theorem run_inv {initialDestConnID : List UInt8} {limit : Nat} {tr : List Op}
    (hrun : ((machine initialDestConnID limit).guard Fresh).Run tr h) : Inv h := by
  refine Machine.Run.stable (I := Inv) ?_ ?_ hrun
  · intro s hs
    cases hs
    exact inv_new _ _
  · intro s op s' hi hstep
    exact step_inv hi hstep.1 hstep.2

/-- **Connection IDs in use stay in use.**  Along a run whose frames are all
fresh, no number is in two places and no retired number is in any; and the first
frame that is not fresh breaks this in the state that follows. -/
theorem sound_of_fresh {initialDestConnID : List UInt8} {limit : Nat} {tr : List Op}
    (hrun : ((machine initialDestConnID limit).guard Fresh).Run tr h) :
    h.Sound ∧ ∀ op h', ¬ h.Fresh op → h.step op = some h' → ¬ h'.Sound := by
  have hi := run_inv hrun
  refine ⟨hi.numbered.disjoint, ?_⟩
  intro op h' hf hs
  cases op with
  | add f rnd => exact addFrame_not_sound hi hf (add_ok (toOption_eq_some_iff.mp hs))
  | get | sentPacket | getConnIDForPath | retireConnIDForPath | setHandshakeComplete
  | changeInitialConnID | setStatelessResetToken | close => exact absurd trivial hf

def issue (seq : Nat) : Op :=
  .add ⟨seq, 0, [seq.toUInt8], [], Nat.zero_le _⟩ ⟨0, by decide⟩

/-- A rotation and a probed path. -/
theorem sound_of_rotation : ∃ h, ((machine [9] 0).guard Fresh).Run
        [issue 1, issue 2, .setHandshakeComplete, .get ⟨0, by decide⟩, .getConnIDForPath 7] h ∧
      h.inUse = [1, 2] ∧ h.retired = [0] ∧ h.Sound := by
  let tr : List Op :=
    [issue 1, issue 2, .setHandshakeComplete, .get ⟨0, by decide⟩, .getConnIDForPath 7]
  let h := (tr.foldlM step (new [9] 0)).getD (new [9] 0)
  have hrun : ((machine [9] 0).guard Fresh).Run tr h := by
    rw [machine, Machine.run_guard_iff]
    decide
  exact ⟨h, hrun, by decide, by decide, (sound_of_fresh hrun).1⟩

/-- The frame for number 1 is retransmitted after 1 and 2 went to two paths. -/
def retransmitted : List Op :=
  [issue 1, issue 2, .getConnIDForPath 7, .getConnIDForPath 8, issue 1]

/-- The manager retires number 1 and keeps it on its path. -/
theorem not_sound_retransmitted : ∃ h, (machine [9] 0).Run retransmitted h ∧ h.retired = [1] ∧
      (h.probing 7).map (·.sequenceNumber) = some 1 ∧ ¬ h.Sound := by
  let h := (retransmitted.foldlM step (new [9] 0)).getD (new [9] 0)
  have hrun : (machine [9] 0).Run retransmitted h := Machine.run_ofStep_iff.mpr (by decide)
  exact ⟨h, hrun, by decide, by decide, by decide⟩

end ConnIDManager

end UQuic
