/-
# `UQuic.StreamsMapIncoming` — the streams the peer opens

`streams_map_incoming.go`.  Three parties share the map.  The connection's run
loop opens streams, one call at a time (this is assumed, see `step`); the check of
the limit and the opening are two critical sections, and the others run between
them.  The application accepts streams in one goroutine, which sleeps on
`newStreamChan`.  Completed streams are deleted from anywhere.

    run loop    idle ──getOrOpenStream num──▶ opening num ──openStreams──▶ idle
    acceptor    idle ──acceptStream──▶ awake ──look──▶ idle, with a stream
                                         ▲    └──────▶ waiting ──ctxDone──▶ idle
                                         └──receive───────┘

A stream that is deleted before it was accepted stays in the map, marked, and
counts against the limit until the acceptor takes it.

## What is proved

In every run before `CloseWithError` (`Limited`): the map never holds more than
`maxNumStreams` entries; the limit only rises, by one for each entry that
leaves the map, up to `MaxStreamCount`; every rise is announced and the last
announcement is the limit in force; the acceptor gets streams 1, 2, 3, … and
never sleeps through one.  `DeleteStream` may be called with any number any
number of times: a call it refuses changes nothing.

## How

One invariant of the map (`Inv`).  The limit is kept as an equation,

    maxStream = min (nextStreamToOpen - 1 + maxNumStreams - len(streams)) MaxStreamCount

which opening streams leaves alone and which a deletion raises on both sides.
The loop that opens streams is followed one stream at a time, with the counter
the loop only writes at its end moved along.
-/
import UQuic.Protocol
import UQuic.StreamsMapOutgoing

namespace UQuic

open List Option

/-- `streamError`. -/
structure StreamError where
  message : String
  nums : List Int
  deriving DecidableEq, Repr

/-- `incomingStreamEntry`. -/
structure IncomingStreamEntry (T : Type) where
  stream : T
  shouldDelete : Bool
  deriving DecidableEq, Repr

/-- `incomingStreamsMap`; `queued` logs the MAX_STREAMS frames. -/
structure IncomingStreamsMap (T : Type) where
  newStreamChan : WaitChan
  streams : AList fun _ : Int => IncomingStreamEntry T
  nextStreamToAccept : Int
  nextStreamToOpen : Int
  maxStream : Int
  maxNumStreams : Nat
  closeErr : Bool
  queued : List Int
  deriving DecidableEq

namespace IncomingStreamsMap

variable {T : Type}

/-- `newIncomingStreamsMap`. -/
def new (maxStreams : Nat) : IncomingStreamsMap T :=
  ⟨.empty, ∅, 1, 1, maxStreams, maxStreams, false, []⟩

/-- `len(m.streams)`. -/
def size (m : IncomingStreamsMap T) : Nat := m.streams.keys.length

/-- `deleteStream` after an entry was removed: give the peer a new stream. -/
def queueMaxStreams (m : IncomingStreamsMap T) : IncomingStreamsMap T :=
  if m.size < m.maxNumStreams then
    let maxStream := m.nextStreamToOpen + (m.maxNumStreams - m.size : Nat) - 1
    if maxStream ≤ maxStreamCount then
      { m with maxStream := maxStream, queued := m.queued ++ [maxStream] }
    else m
  else m

def deleteStream (m : IncomingStreamsMap T) (num : Int) :
    Except StreamError (IncomingStreamsMap T) :=
  match m.streams.lookup num with
  | none => .error ⟨"tried to delete unknown incoming stream %d", [num]⟩
  | some entry =>
    if m.nextStreamToAccept ≤ num then
      if entry.shouldDelete then
        .error ⟨"tried to delete incoming stream %d multiple times", [num]⟩
      else
        .ok { m with streams := m.streams.insert num { entry with shouldDelete := true } }
    else .ok { m with streams := m.streams.erase num }.queueMaxStreams

/-- What `GetOrOpenStream` finds in its first critical section. -/
inductive Lookup (T : Type)
  | refused (e : StreamError)
  /-- An old stream; `none` if it was closed, or only waits to be accepted. -/
  | known (s : Option T)
  | opens
  deriving DecidableEq, Repr

/-- `GetOrOpenStream`, its first critical section. -/
def getOrOpenStream (m : IncomingStreamsMap T) (num : Int) : Lookup T :=
  if m.maxStream < num then
    .refused ⟨"peer tried to open stream %d (current limit: %d)", [num, m.maxStream]⟩
  else if num < m.nextStreamToOpen then
    match m.streams.lookup num with
    | some entry => if entry.shouldDelete then .known none else .known (some entry.stream)
    | none => .known none
  else .opens

/-- A send with a `default`; on a closed channel it panics. -/
def notify (m : IncomingStreamsMap T) : Option (IncomingStreamsMap T) :=
  match m.newStreamChan with
  | .empty | .token => some { m with newStreamChan := .token }
  | .closed => none

/-- One round of the loop in `GetOrOpenStream`. -/
def openStream (newStream : Int → T) (m : IncomingStreamsMap T) (num : Int) :
    Option (IncomingStreamsMap T) :=
  { m with streams := m.streams.insert num ⟨newStream num, false⟩ }.notify

/-- The loop in `GetOrOpenStream`: `n` streams from `newNum` on. -/
def openLoop (newStream : Int → T) (newNum : Int) :
    Nat → IncomingStreamsMap T → Option (IncomingStreamsMap T)
  | 0, m => some m
  | n + 1, m => (m.openStream newStream newNum).bind (openLoop newStream (newNum + 1) n)

/-- `GetOrOpenStream`, its second critical section. -/
def openStreams (newStream : Int → T) (m : IncomingStreamsMap T) (num : Int) :
    Option (IncomingStreamsMap T) :=
  (openLoop newStream m.nextStreamToOpen (num + 1 - m.nextStreamToOpen).toNat m).map fun m =>
    { m with nextStreamToOpen := num + 1 }

/-- An error of `AcceptStream`. -/
inductive AcceptError
  | closed
  | delete (e : StreamError)
  deriving DecidableEq, Repr

/-- `AcceptStream` from its lock to its unlock; `none` if it has to wait. -/
def acceptStream (m : IncomingStreamsMap T) :
    Option (IncomingStreamsMap T × Except AcceptError T) :=
  if m.closeErr then some (m, .error .closed)
  else
    match m.streams.lookup m.nextStreamToAccept with
    | none => none
    | some entry =>
      let m' := { m with nextStreamToAccept := m.nextStreamToAccept + 1 }
      if entry.shouldDelete then
        match m'.deleteStream m.nextStreamToAccept with
        | .error e => some (m', .error (.delete e))
        | .ok m'' => some (m'', .ok entry.stream)
      else some (m', .ok entry.stream)

def closeWithError (m : IncomingStreamsMap T) : IncomingStreamsMap T :=
  { m with closeErr := true, newStreamChan := .closed }

end IncomingStreamsMap

open IncomingStreamsMap (AcceptError)

/-! ## The parties -/

/-- Where the accepting goroutine is. -/
inductive AcceptPhase
  | idle
  /-- About to take the lock: it has drained the channel, or received from it. -/
  | awake
  /-- In its `select`. -/
  | waiting
  deriving DecidableEq, Repr

/-- The map, the run loop and the acceptor.  `accepted` logs what `AcceptStream`
returned, its context errors apart. -/
structure IncomingStreams (T : Type) where
  map : IncomingStreamsMap T
  opening : Option Int
  phase : AcceptPhase
  accepted : List (Except AcceptError T)
  deriving DecidableEq

namespace IncomingStreams

variable {T : Type}

/-- What can happen next. -/
inductive Event
  | getOrOpenStream (num : Int)
  | openStreams
  | acceptStream
  | look
  | receive
  | ctxDone
  | deleteStream (num : Int)
  | closeWithError
  deriving DecidableEq, Repr

def new (maxStreams : Nat) : IncomingStreams T := ⟨.new maxStreams, none, .idle, []⟩

/-- The channel after a receive that does not block. -/
def drained (m : IncomingStreamsMap T) : IncomingStreamsMap T :=
  { m with newStreamChan := OutgoingStreamsMap.WaitChan.afterReceive m.newStreamChan }

/-- The acceptor holds the lock. -/
def look (s : IncomingStreams T) : IncomingStreams T :=
  match s.map.acceptStream with
  | none => { s with phase := .waiting }
  | some (m, r) => { s with map := m, phase := .idle, accepted := s.accepted ++ [r] }

def delete (s : IncomingStreams T) (num : Int) : IncomingStreams T :=
  match s.map.deleteStream num with
  | .ok m => { s with map := m }
  | .error _ => s

/-- One step of the system; `none` if the party is not there, or panics.  That one goroutine at a
time calls `GetOrOpenStream` is an assumption: nothing in the map enforces it, and the code needs
it where it does not look at `nextStreamToOpen` again after it has taken the lock. -/
def step (newStream : Int → T) (s : IncomingStreams T) : Event → Option (IncomingStreams T)
  | .getOrOpenStream num =>
    if s.opening.isSome then none
    else
      match s.map.getOrOpenStream num with
      | .refused _ | .known _ => some s
      | .opens => some { s with opening := some num }
  | .openStreams =>
    s.opening.bind fun num =>
      (s.map.openStreams newStream num).map fun m => { s with map := m, opening := none }
  | .acceptStream =>
    if s.phase = .idle then some { s with map := drained s.map, phase := .awake } else none
  | .look => if s.phase = .awake then some s.look else none
  | .receive =>
    if s.phase = .waiting ∧ s.map.newStreamChan ≠ .empty then
      some { s with map := drained s.map, phase := .awake }
    else none
  | .ctxDone => if s.phase = .waiting then some { s with phase := .idle } else none
  | .deleteStream num => some (s.delete num)
  | .closeWithError => some { s with map := s.map.closeWithError }

def machine (newStream : Int → T) (maxStreams : Nat) : Machine (IncomingStreams T) Event :=
  .ofStep (new maxStreams) (step newStream)

end IncomingStreams

namespace IncomingStreamsMap

variable {T : Type}

/-- The limit `deleteStream` computes. -/
def limit (m : IncomingStreamsMap T) : Int := m.nextStreamToOpen - 1 + m.maxNumStreams - m.size

/-! ## The invariant of the map -/

/-- Every stream between the two counters is in the map; the limit follows the
number of entries; the frames lead up to it. -/
structure Inv (newStream : Int → T) (m : IncomingStreamsMap T) : Prop where
  known : ∀ num ∈ m.streams, num < m.nextStreamToOpen
  pending : ∀ num, m.nextStreamToAccept ≤ num → num < m.nextStreamToOpen → num ∈ m.streams
  made : ∀ num entry, m.streams.lookup num = some entry → entry.stream = newStream num
  accepts : m.nextStreamToAccept ≤ m.nextStreamToOpen
  within : m.nextStreamToOpen - 1 ≤ m.maxStream
  limited : m.maxStream = min m.limit maxStreamCount
  ascending : m.queued.Pairwise (· < ·)
  announced : ∀ num ∈ m.queued, num ≤ m.maxStream
  last : ∀ num ∈ m.queued.getLast?, num = m.maxStream

variable {newStream : Int → T} {m m' : IncomingStreamsMap T} {num : Int}

theorem inv_new {maxStreams : Nat} (hmax : maxStreams ≤ maxStreamCount) :
    Inv newStream (new maxStreams) where
  known num h := absurd h (AList.notMem_empty num)
  pending num h₁ h₂ := absurd h₂ (Int.not_lt.mpr h₁)
  made num entry h := by cases h
  accepts := le_rfl
  within := Int.natCast_nonneg _
  limited := by
    have hlim : (new maxStreams : IncomingStreamsMap T).limit = maxStreams := by
      simp only [limit, new, size, AList.keys_empty, length_nil]
      omega
    rw [hlim]
    exact (Int.min_eq_left (Int.ofNat_le.mpr hmax)).symm
  ascending := .nil
  announced _ h := by cases h
  last _ h := by cases h

theorem Inv.size_le (hi : Inv newStream m) : m.size ≤ m.maxNumStreams := by
  have hwithin := hi.within
  have hle : m.maxStream ≤ m.limit := by
    rw [hi.limited]
    exact Int.min_le_left _ _
  rw [limit] at hle
  omega

/-- The channel and the close error are nobody's business here. -/
theorem Inv.congr (hi : Inv newStream m) (hs : m'.streams = m.streams)
    (ha : m'.nextStreamToAccept = m.nextStreamToAccept)
    (ho : m'.nextStreamToOpen = m.nextStreamToOpen) (hm : m'.maxStream = m.maxStream)
    (hn : m'.maxNumStreams = m.maxNumStreams) (hq : m'.queued = m.queued) : Inv newStream m' := by
  have hl : m'.limit = m.limit := by rw [limit, limit, size, size, hs, ho, hn]
  exact
    { known := by rw [hs, ho]; exact hi.known
      pending := by rw [hs, ha, ho]; exact hi.pending
      made := by rw [hs]; exact hi.made
      accepts := by rw [ha, ho]; exact hi.accepts
      within := by rw [ho, hm]; exact hi.within
      limited := by rw [hm, hl]; exact hi.limited
      ascending := by rw [hq]; exact hi.ascending
      announced := by rw [hq, hm]; exact hi.announced
      last := by rw [hq, hm]; exact hi.last }

/-! ### Deleting -/

/-- Every entry is of the stream of its number, also after one went in. -/
theorem Inv.made_insert (hi : Inv newStream m) {entry : IncomingStreamEntry T}
    (hentry : entry.stream = newStream num) (k : Int) (e : IncomingStreamEntry T)
    (he : (m.streams.insert num entry).lookup k = some e) : e.stream = newStream k := by
  by_cases hk : k = num
  · subst hk
    rw [AList.lookup_insert] at he
    cases he
    exact hentry
  · rw [AList.lookup_insert_ne hk] at he
    exact hi.made k e he

/-- Marking an entry moves nothing. -/
theorem size_insert {entry : IncomingStreamEntry T} (hmem : num ∈ m.streams) :
    (m.streams.insert num entry).keys.length = m.streams.keys.length := by
  have hpos := length_pos_of_mem (AList.mem_keys.mp hmem)
  rw [AList.keys_insert, length_cons, length_erase_of_mem (AList.mem_keys.mp hmem)]
  omega

theorem Inv.mark (hi : Inv newStream m) {entry : IncomingStreamEntry T}
    (hentry : m.streams.lookup num = some entry) :
    Inv newStream { m with
      streams := m.streams.insert num { entry with shouldDelete := true } } := by
  have hmem : num ∈ m.streams := AList.lookup_isSome.mp (by rw [hentry]; rfl)
  have hlim : limit { m with
      streams := m.streams.insert num { entry with shouldDelete := true } } = m.limit := by
    simp only [limit, size, size_insert hmem]
  refine { hi with
    known := ?_, pending := ?_, made := hi.made_insert (hi.made num entry hentry), limited := ?_ }
  · intro k hk
    rcases (AList.mem_insert _).mp hk with rfl | hk
    · exact hi.known _ hmem
    · exact hi.known k hk
  · intro k hge hlt
    exact (AList.mem_insert _).mpr (.inr (hi.pending k hge hlt))
  · rw [hlim]
    exact hi.limited

/-- The limit rises by one with the entry that goes, unless it is at its bound. -/
theorem queueMaxStreams_eq (hi : Inv newStream m) (hmem : num ∈ m.streams) :
    { m with streams := m.streams.erase num }.queueMaxStreams =
      if m.limit + 1 ≤ maxStreamCount then
        { m with
          streams := m.streams.erase num
          maxStream := m.limit + 1
          queued := m.queued ++ [m.limit + 1] }
      else { m with streams := m.streams.erase num } := by
  have hpos := length_pos_of_mem (AList.mem_keys.mp hmem)
  have hle := hi.size_le
  have hsize : size { m with streams := m.streams.erase num } = m.size - 1 := by
    simp only [size, AList.keys_erase, length_erase_of_mem (AList.mem_keys.mp hmem)]
  have hpos : 0 < m.size := hpos
  have hmax : m.nextStreamToOpen + ((m.maxNumStreams - (m.size - 1) : Nat) : Int) - 1
      = m.limit + 1 := by
    rw [limit]
    omega
  rw [queueMaxStreams, hsize]
  dsimp only
  rw [if_pos (by omega), hmax]

theorem Inv.erase (hi : Inv newStream m) (hmem : num ∈ m.streams)
    (haccept : num < m.nextStreamToAccept) :
    Inv newStream { m with streams := m.streams.erase num }.queueMaxStreams := by
  have hpos : 0 < m.size := length_pos_of_mem (AList.mem_keys.mp hmem)
  have hknown : ∀ k ∈ m.streams.erase num, k < m.nextStreamToOpen := fun k hk =>
    hi.known k (AList.mem_erase.mp hk).2
  have hpending : ∀ k, m.nextStreamToAccept ≤ k → k < m.nextStreamToOpen →
      k ∈ m.streams.erase num := fun k hge hlt =>
    AList.mem_erase.mpr ⟨by omega, hi.pending k hge hlt⟩
  have hmade : ∀ k e, (m.streams.erase num).lookup k = some e → e.stream = newStream k := by
    intro k e he
    by_cases hk : k = num
    · subst hk
      rw [AList.lookup_erase] at he
      cases he
    · rw [AList.lookup_erase_ne hk] at he
      exact hi.made k e he
  have hsize : (m.streams.erase num).keys.length = m.size - 1 := by
    rw [AList.keys_erase, length_erase_of_mem (AList.mem_keys.mp hmem), size]
  have hlim := hi.limited
  have hwithin := hi.within
  rw [queueMaxStreams_eq hi hmem]
  split_ifs with hcount
  · have hlt : m.maxStream < m.limit + 1 := by omega
    refine ⟨hknown, hpending, hmade, hi.accepts, ?_, ?_, ?_, ?_, ?_⟩
    · dsimp only
      omega
    · simp only [limit, size, hsize] at *
      omega
    · refine pairwise_append.mpr ⟨hi.ascending, pairwise_singleton _ _, ?_⟩
      intro a ha b hb
      have hle := hi.announced a ha
      cases mem_singleton.mp hb
      omega
    · intro k hk
      rcases mem_append.mp hk with hk | hk
      · have hle := hi.announced k hk
        dsimp only
        omega
      · exact Int.le_of_eq (mem_singleton.mp hk)
    · intro k hk
      rw [List.getLast?_concat] at hk
      cases hk
      rfl
  · refine ⟨hknown, hpending, hmade, hi.accepts, hwithin, ?_, hi.ascending, hi.announced, hi.last⟩
    simp only [limit, size, hsize] at *
    omega

theorem deleteStream_cases (h : m.deleteStream num = .ok m') :
    ∃ entry, m.streams.lookup num = some entry ∧
      ((m.nextStreamToAccept ≤ num ∧ entry.shouldDelete = false ∧
          m' = { m with streams := m.streams.insert num { entry with shouldDelete := true } }) ∨
        (num < m.nextStreamToAccept ∧
          m' = { m with streams := m.streams.erase num }.queueMaxStreams)) := by
  rw [deleteStream] at h
  cases hentry : m.streams.lookup num with
  | none => rw [hentry] at h; cases h
  | some entry =>
    rw [hentry] at h
    dsimp only at h
    refine ⟨entry, rfl, ?_⟩
    split at h
    · rename_i hge
      split_ifs at h with hmark
      cases h
      exact .inl ⟨hge, Bool.eq_false_iff.mpr hmark, rfl⟩
    · rename_i hlt
      cases h
      exact .inr ⟨Int.not_le.mp hlt, rfl⟩

theorem Inv.deleteStream (hi : Inv newStream m) (h : m.deleteStream num = .ok m') :
    Inv newStream m' := by
  obtain ⟨entry, hentry, ⟨-, -, rfl⟩ | ⟨hlt, rfl⟩⟩ := deleteStream_cases h
  · exact hi.mark hentry
  · exact hi.erase (AList.lookup_isSome.mp (by rw [hentry]; rfl)) hlt

/-- What a deletion leaves alone, and that it never lowers the limit. -/
theorem deleteStream_frame (hi : Inv newStream m) (h : m.deleteStream num = .ok m') :
    m'.newStreamChan = m.newStreamChan ∧ m'.closeErr = m.closeErr ∧
      m'.nextStreamToAccept = m.nextStreamToAccept ∧
      m'.nextStreamToOpen = m.nextStreamToOpen ∧ m'.maxNumStreams = m.maxNumStreams ∧
      m.maxStream ≤ m'.maxStream := by
  obtain ⟨entry, hentry, ⟨-, -, rfl⟩ | ⟨hlt, rfl⟩⟩ := deleteStream_cases h
  · exact ⟨rfl, rfl, rfl, rfl, rfl, le_rfl⟩
  · rw [queueMaxStreams_eq hi (AList.lookup_isSome.mp (by rw [hentry]; rfl))]
    split
    · have hlim := hi.limited
      refine ⟨rfl, rfl, rfl, rfl, rfl, ?_⟩
      dsimp only
      omega
    · exact ⟨rfl, rfl, rfl, rfl, rfl, le_rfl⟩

/-! ### Opening -/

theorem notify_eq (h : m.notify = some m') : m' = { m with newStreamChan := .token } := by
  rw [notify] at h
  split at h <;> cases h <;> rfl

/-- One more stream, with the counter the loop has not written yet moved along. -/
theorem Inv.openStream (hi : Inv newStream { m with nextStreamToOpen := num })
    (hle : num ≤ m.maxStream) (h : m.openStream newStream num = some m') :
    Inv newStream { m' with nextStreamToOpen := num + 1 } := by
  rw [notify_eq h]
  have hfresh : num ∉ m.streams := fun hmem => Int.lt_irrefl _ (hi.known num hmem)
  have hsize : (m.streams.insert num ⟨newStream num, false⟩).keys.length =
      m.streams.keys.length + 1 := by
    rw [AList.keys_insert, length_cons, erase_of_not_mem (mt AList.mem_keys.mpr hfresh)]
  have haccepts : m.nextStreamToAccept ≤ num := hi.accepts
  refine ⟨?_, ?_, hi.made_insert rfl, ?_, ?_, ?_, hi.ascending, hi.announced, hi.last⟩
  · intro k hk
    rcases (AList.mem_insert _).mp hk with rfl | hk
    · exact Int.lt_add_one_of_le le_rfl
    · exact Int.lt_add_one_of_le (Int.le_of_lt (hi.known k hk))
  · intro k hge hlt
    rcases Int.lt_or_eq_of_le (Int.le_of_lt_add_one hlt) with hlt | rfl
    · exact (AList.mem_insert _).mpr (.inr (hi.pending k hge hlt))
    · exact (AList.mem_insert _).mpr (.inl rfl)
  · exact Int.le_add_one haccepts
  · dsimp only
    omega
  · have hlim := hi.limited
    simp only [limit, size, hsize] at *
    omega

/-- What opening a stream leaves alone. -/
theorem openStream_frame (h : m.openStream newStream num = some m') :
    m'.newStreamChan = .token ∧ m'.closeErr = m.closeErr ∧
      m'.nextStreamToAccept = m.nextStreamToAccept ∧ m'.maxNumStreams = m.maxNumStreams ∧
      m'.maxStream = m.maxStream := by
  rw [notify_eq h]
  exact ⟨rfl, rfl, rfl, rfl, rfl⟩

/-- The loop keeps the invariant, and leaves a token if it opened a stream. -/
theorem Inv.openLoop {newNum : Int} {n : Nat}
    (hi : Inv newStream { m with nextStreamToOpen := newNum })
    (hle : newNum + n ≤ m.maxStream + 1) (h : openLoop newStream newNum n m = some m') :
    Inv newStream { m' with nextStreamToOpen := newNum + n } ∧
      (n ≠ 0 → m'.newStreamChan = .token) ∧ m'.closeErr = m.closeErr ∧
      m'.nextStreamToAccept = m.nextStreamToAccept ∧ m'.maxNumStreams = m.maxNumStreams ∧
      m'.maxStream = m.maxStream := by
  -- On the number of rounds; the last round is the one that leaves the token.
  induction n generalizing m newNum with
  | zero =>
    cases h
    rw [Int.natCast_zero, Int.add_zero]
    exact ⟨hi, fun h => absurd rfl h, rfl, rfl, rfl, rfl⟩
  | succ n ih =>
    obtain ⟨m₁, hopen, hloop⟩ := bind_eq_some_iff.mp h
    obtain ⟨htok, hclose, haccept, hnum, hmax⟩ := openStream_frame hopen
    have hi₁ := hi.openStream (by omega) hopen
    obtain ⟨hi₂, htoken₂, hclose₂, haccept₂, hnum₂, hmax₂⟩ :=
      ih hi₁ (by rw [hmax]; omega) hloop
    have hend : newNum + 1 + (n : Int) = newNum + (n + 1 : Nat) := by omega
    rw [hend] at hi₂
    refine ⟨hi₂, fun _ => ?_, hclose₂.trans hclose, haccept₂.trans haccept, hnum₂.trans hnum,
      hmax₂.trans hmax⟩
    by_cases hn : n = 0
    · subst hn
      cases hloop
      exact htok
    · exact htoken₂ hn

/-- The second critical section, for a number that passed the first. -/
theorem Inv.openStreams (hi : Inv newStream m) (hge : m.nextStreamToOpen ≤ num)
    (hle : num ≤ m.maxStream) (h : m.openStreams newStream num = some m') :
    Inv newStream m' ∧ m'.newStreamChan = .token ∧ m'.closeErr = m.closeErr ∧
      m'.nextStreamToAccept = m.nextStreamToAccept ∧ m'.maxNumStreams = m.maxNumStreams ∧
      m'.maxStream = m.maxStream := by
  obtain ⟨m₁, hloop, rfl⟩ := map_eq_some_iff.mp h
  have hcount : m.nextStreamToOpen + ((num + 1 - m.nextStreamToOpen).toNat : Int) = num + 1 := by
    omega
  obtain ⟨hi₁, htok, hrest⟩ := Inv.openLoop hi (by omega) hloop
  rw [hcount] at hi₁
  exact ⟨hi₁, htok (by omega), hrest⟩

/-! ### Accepting -/

theorem Inv.advance (hi : Inv newStream m) (hlt : m.nextStreamToAccept < m.nextStreamToOpen) :
    Inv newStream { m with nextStreamToAccept := m.nextStreamToAccept + 1 } :=
  { hi with
    pending := fun k hge hlt => hi.pending k (Int.le_of_lt hge) hlt
    accepts := hlt }

/-- The acceptor waits when there is nothing to accept. -/
theorem acceptStream_none (hi : Inv newStream m) (hclose : m.closeErr = false)
    (hge : m.nextStreamToOpen ≤ m.nextStreamToAccept) : m.acceptStream = none := by
  have hno : m.streams.lookup m.nextStreamToAccept = none :=
    AList.lookup_eq_none.mpr fun hmem => Int.not_lt.mpr hge (hi.known _ hmem)
  rw [acceptStream, if_neg (by rw [hclose]; exact Bool.false_ne_true), hno]

/-- The acceptor takes the next stream, completed or not. -/
theorem Inv.acceptStream (hi : Inv newStream m) (hclose : m.closeErr = false)
    (hlt : m.nextStreamToAccept < m.nextStreamToOpen) :
    ∃ m', m.acceptStream = some (m', .ok (newStream m.nextStreamToAccept)) ∧ Inv newStream m' ∧
      m'.newStreamChan = m.newStreamChan ∧ m'.closeErr = m.closeErr ∧
      m'.nextStreamToAccept = m.nextStreamToAccept + 1 ∧
      m'.nextStreamToOpen = m.nextStreamToOpen ∧ m'.maxNumStreams = m.maxNumStreams ∧
      m.maxStream ≤ m'.maxStream := by
  have hmem := hi.pending m.nextStreamToAccept le_rfl hlt
  obtain ⟨entry, hentry⟩ := isSome_iff_exists.mp (AList.lookup_isSome.mpr hmem)
  have hmade := hi.made _ entry hentry
  have hi' := hi.advance hlt
  rw [IncomingStreamsMap.acceptStream, if_neg (by rw [hclose]; exact Bool.false_ne_true), hentry,
    ← hmade]
  dsimp only
  split
  · -- The deletion is not deferred again: the counter has passed the stream.
    obtain ⟨m', hdelete⟩ : ∃ m', IncomingStreamsMap.deleteStream
        { m with nextStreamToAccept := m.nextStreamToAccept + 1 } m.nextStreamToAccept
          = .ok m' := by
      rw [IncomingStreamsMap.deleteStream]
      dsimp only
      rw [hentry]
      dsimp only
      rw [if_neg (Int.not_le.mpr (Int.lt_add_one_of_le le_rfl))]
      exact ⟨_, rfl⟩
    rw [hdelete]
    exact ⟨m', rfl, hi'.deleteStream hdelete, deleteStream_frame hi' hdelete⟩
  · exact ⟨_, rfl, hi', rfl, rfl, rfl, rfl, rfl, le_rfl⟩

end IncomingStreamsMap

namespace IncomingStreams

open IncomingStreamsMap (Inv)

variable {T : Type} {newStream : Int → T} {maxStreams : Nat} {s s' : IncomingStreams T}
  {m : IncomingStreamsMap T} {e : Event} {tr : List Event}

/-! ## The properties -/

/-- A sleeping acceptor has nothing to accept, or a token to wake it. -/
def NoLostWakeup (s : IncomingStreams T) : Prop :=
  s.phase = .waiting → s.map.nextStreamToAccept < s.map.nextStreamToOpen →
    s.map.newStreamChan = .token

/-- The limits on the peer, what it is told about them, and what the
application gets. -/
structure Limited (newStream : Int → T) (maxStreams : Nat) (s : IncomingStreams T) : Prop where
  entries : s.map.size ≤ maxStreams
  /-- No step lowers the limit. -/
  monotone : ∀ e s', s.step newStream e = some s' → s.map.maxStream ≤ s'.map.maxStream
  ascending : s.map.queued.Pairwise (· < ·)
  last : ∀ num ∈ s.map.queued.getLast?, num = s.map.maxStream
  limit : s.map.nextStreamToOpen - 1 + maxStreams - s.map.size ≤ maxStreamCount →
    s.map.maxStream = s.map.nextStreamToOpen - 1 + maxStreams - s.map.size
  accepted : s.accepted = (List.range s.accepted.length).map fun (i : Nat) =>
    .ok (newStream (i + 1))
  /-- The next stream is handed out, if the peer has opened it. -/
  next : s.phase = .awake → (s.accepted.length : Int) + 1 < s.map.nextStreamToOpen →
    s.look.accepted = s.accepted ++ [.ok (newStream (s.accepted.length + 1))]
  wakes : s.NoLostWakeup

/-! ## The invariant of the system -/

/-- The map's invariant; the number being opened passed the check and still
would; the acceptor's log is as long as its counter says. -/
structure SysInv (newStream : Int → T) (maxStreams : Nat) (s : IncomingStreams T) : Prop where
  map : Inv newStream s.map
  maxNum : s.map.maxNumStreams = maxStreams
  alive : s.map.closeErr = false
  opening : ∀ num ∈ s.opening, s.map.nextStreamToOpen ≤ num ∧ num ≤ s.map.maxStream
  counter : s.map.nextStreamToAccept = s.accepted.length + 1
  accepted : s.accepted = (List.range s.accepted.length).map fun (i : Nat) =>
    .ok (newStream (i + 1))
  wakes : s.NoLostWakeup

theorem sysInv_new (hmax : maxStreams ≤ maxStreamCount) :
    SysInv newStream maxStreams (new maxStreams) where
  map := IncomingStreamsMap.inv_new hmax
  maxNum := rfl
  alive := rfl
  opening _ h := by cases h
  counter := rfl
  accepted := rfl
  wakes h := by cases h

/-- A receive changes the channel alone. -/
theorem inv_drained (hi : Inv newStream m) : Inv newStream (drained m) :=
  hi.congr rfl rfl rfl rfl rfl rfl

/-- The acceptor finds the next stream. -/
theorem look_accepts (hi : SysInv newStream maxStreams s)
    (hlt : s.map.nextStreamToAccept < s.map.nextStreamToOpen) :
    SysInv newStream maxStreams s.look ∧ s.map.maxStream ≤ s.look.map.maxStream ∧
      s.look.accepted = s.accepted ++ [.ok (newStream (s.accepted.length + 1))] := by
  obtain ⟨m, haccept, him, -, hclose, hnext, hopen, hnum, hmax⟩ := hi.map.acceptStream hi.alive hlt
  rw [hi.counter] at haccept hnext
  rw [look, haccept]
  refine ⟨⟨him, hnum.trans hi.maxNum, hclose.trans hi.alive, ?_, ?_, ?_, ?_⟩, hmax, rfl⟩
  · intro num hopening
    obtain ⟨hge, hle⟩ := hi.opening num hopening
    exact ⟨hopen.le.trans hge, hle.trans hmax⟩
  · rw [length_append]
    exact hnext
  · dsimp only
    rw [length_append, length_singleton, range_succ, map_append, ← hi.accepted]
    rfl
  · intro h
    cases h

/-- The acceptor finds nothing and goes to sleep. -/
theorem look_waits (hi : SysInv newStream maxStreams s)
    (hge : s.map.nextStreamToOpen ≤ s.map.nextStreamToAccept) :
    SysInv newStream maxStreams s.look ∧ s.look.map = s.map := by
  rw [look, IncomingStreamsMap.acceptStream_none hi.map hi.alive hge]
  exact ⟨{ hi with wakes := fun _ hlt => absurd hlt (Int.not_lt.mpr hge) }, rfl⟩

theorem step_sysInv (hi : SysInv newStream maxStreams s) (he : e ≠ .closeWithError)
    (h : s.step newStream e = some s') :
    SysInv newStream maxStreams s' ∧ s.map.maxStream ≤ s'.map.maxStream := by
  cases e with
  | getOrOpenStream num =>
    simp only [step] at h
    split_ifs at h
    split at h
    · cases h
      exact ⟨hi, le_rfl⟩
    · cases h
      exact ⟨hi, le_rfl⟩
    · rename_i hopens
      cases h
      refine ⟨{ hi with opening := ?_ }, le_rfl⟩
      intro k hk
      cases hk
      simp only [IncomingStreamsMap.getOrOpenStream] at hopens
      split at hopens
      · cases hopens
      · rename_i hle
        split_ifs at hopens with hge
        · split at hopens
          · split at hopens <;> cases hopens
          · cases hopens
        · exact ⟨Int.not_lt.mp hge, Int.not_lt.mp hle⟩
  | openStreams =>
    obtain ⟨num, hopening, h⟩ := bind_eq_some_iff.mp h
    obtain ⟨m, hopens, rfl⟩ := map_eq_some_iff.mp h
    obtain ⟨hge, hle⟩ := hi.opening num hopening
    obtain ⟨him, htok, hclose, haccept, hnum, hmax⟩ := hi.map.openStreams hge hle hopens
    refine ⟨⟨him, hnum.trans hi.maxNum, hclose.trans hi.alive, ?_, haccept.trans hi.counter,
      hi.accepted, fun _ _ => htok⟩, hmax.ge⟩
    intro k hk
    cases hk
  | acceptStream =>
    simp only [step] at h
    split_ifs at h
    cases h
    exact ⟨{ hi with map := inv_drained hi.map, wakes := fun hwait => nomatch hwait },
      le_rfl⟩
  | look =>
    simp only [step] at h
    split_ifs at h
    cases h
    by_cases hlt : s.map.nextStreamToAccept < s.map.nextStreamToOpen
    · obtain ⟨hi', hle, -⟩ := look_accepts hi hlt
      exact ⟨hi', hle⟩
    · obtain ⟨hi', hmap⟩ := look_waits hi (Int.not_lt.mp hlt)
      exact ⟨hi', Int.le_of_eq (by rw [hmap])⟩
  | receive =>
    simp only [step] at h
    split_ifs at h
    cases h
    exact ⟨{ hi with map := inv_drained hi.map, wakes := fun hwait => nomatch hwait },
      le_rfl⟩
  | ctxDone =>
    simp only [step] at h
    split_ifs at h
    cases h
    exact ⟨{ hi with wakes := fun hwait => nomatch hwait }, le_rfl⟩
  | deleteStream num =>
    cases h
    rw [delete]
    split
    · rename_i m hdelete
      obtain ⟨hchan, hclose, haccept, hopen, hnum, hmax⟩ :=
        IncomingStreamsMap.deleteStream_frame hi.map hdelete
      refine ⟨⟨hi.map.deleteStream hdelete, hnum.trans hi.maxNum, hclose.trans hi.alive, ?_,
        haccept.trans hi.counter, hi.accepted, ?_⟩, hmax⟩
      · intro k hk
        obtain ⟨hge, hle⟩ := hi.opening k hk
        exact ⟨hopen.le.trans hge, hle.trans hmax⟩
      · intro hwait hlt
        have hlt : m.nextStreamToAccept < m.nextStreamToOpen := hlt
        rw [haccept, hopen] at hlt
        exact hchan.trans (hi.wakes hwait hlt)
    · exact ⟨hi, le_rfl⟩
  | closeWithError => exact absurd rfl he

/-- The peer's limit never falls below the initial one. -/
theorem run_sysInv (hmax : maxStreams ≤ maxStreamCount)
    (hrun : (machine newStream maxStreams).Run tr s) (hopen : .closeWithError ∉ tr) :
    SysInv newStream maxStreams s ∧ (maxStreams : Int) ≤ s.map.maxStream := by
  refine Machine.Run.invariant (I := fun tr s => .closeWithError ∉ tr →
    SysInv newStream maxStreams s ∧ (maxStreams : Int) ≤ s.map.maxStream) ?_ ?_ hrun hopen
  · intro s hs _
    cases hs
    exact ⟨sysInv_new hmax, le_rfl⟩
  · intro tr s e s' _ ih hstep hnot
    rw [mem_append, not_or, mem_singleton] at hnot
    obtain ⟨hi, hle⟩ := ih hnot.1
    obtain ⟨hi', hle'⟩ := step_sysInv hi (Ne.symm hnot.2) hstep
    exact ⟨hi', hle.trans hle'⟩

/-- **Incoming stream limits.** In every run before `CloseWithError`, for a map
that may hold up to `MaxStreamCount` streams. -/
theorem incomingStreams_limited {tr : List Event} (hmax : maxStreams ≤ maxStreamCount)
    (hrun : (machine newStream maxStreams).Run tr s) (hopen : .closeWithError ∉ tr) :
    Limited newStream maxStreams s := by
  have hi := (run_sysInv hmax hrun hopen).1
  have hsize := hi.map.size_le
  have hlim := hi.map.limited
  rw [IncomingStreamsMap.limit, hi.maxNum] at hlim
  rw [hi.maxNum] at hsize
  refine ⟨hsize, ?_, hi.map.ascending, hi.map.last, ?_, hi.accepted, ?_, hi.wakes⟩
  · intro e s' hstep
    by_cases he : e = .closeWithError
    · subst he
      cases hstep
      exact le_rfl
    · exact (step_sysInv hi he hstep).2
  · intro hle
    exact hlim.trans (Int.min_eq_left hle)
  · intro _ hlt
    rw [← hi.counter] at hlt
    exact (look_accepts hi hlt).2.2

/-- Two streams at a time: the first is completed before it is accepted, and
makes room for a third when it is. -/
theorem incomingStreams_limited_completedFirst : ∃ s : IncomingStreams Int,
      (machine id 2).Run [.getOrOpenStream 2, .openStreams, .deleteStream 1, .acceptStream, .look,
        .getOrOpenStream 3, .openStreams] s ∧
      s.map.queued = [3] ∧ s.accepted = [.ok 1] ∧ s.map.size = 2 ∧ Limited id 2 s :=
  have hrun := Machine.run_ofStep_iff.mpr rfl
  ⟨_, hrun, rfl, rfl, rfl, incomingStreams_limited (by decide) hrun (by decide)⟩

end IncomingStreams

end UQuic
