/-
# `UQuic.ConnIDGenerator` — the connection IDs that are issued to the peer

`conn_id_generator.go`.  The generator keeps the connection IDs the peer may use by
their sequence number.  The one of the handshake has number 0; a new one is issued when
the peer's limit becomes known, and in place of one the peer retires:

    SetMaxActiveConnIDs     issues until min(limit, MaxIssuedConnectionIDs) are active
    Retire(seq)             retires seq and issues another, unless seq is 0 or was retired
    SetHandshakeComplete    retires the connection ID the client chose

  * the callbacks of the connection are the log of their calls;
  * the k-th call of `GenerateConnectionID` returns `generateConnectionID k`, or fails;
  * `RemoveAll` and `ReplaceWithClosed` change nothing here: `covered` is what they name.

## What is proved

`issued_connIDs`: along every run without an error, at most the limit is active, the
frames are numbered 1, 2, 3, … with one connection ID each, and every connection ID ever
registered is either covered by the close paths or was retired, once if the generator never
returns a connection ID of the handshake (`issued_connIDs_again`).
-/
import UQuic.Lib.Machine
import UQuic.Wire.Header

namespace UQuic

open List Option
open Wire (ConnectionID)

def maxIssuedConnectionIDs : Nat := 6

/-- `ConnectionIDGenerator`; the result of each call of `GenerateConnectionID`, where `none` is an
error. -/
structure ConnectionIDGenerator where
  connectionIDLen : Nat
  generateConnectionID : Nat → Option ConnectionID

/-- The calls the generator makes through its callbacks. -/
inductive ConnIDGeneratorCall
  | addConnectionID (connID : ConnectionID)
  | retireConnectionID (connID : ConnectionID)
  | newConnectionID (sequenceNumber : Nat) (connID : ConnectionID) (token : List UInt8)
  deriving DecidableEq

/-- `connIDGenerator`.  `generated` counts the calls of `GenerateConnectionID`. -/
structure ConnIDGenerator where
  generator : ConnectionIDGenerator
  /-- `statelessResetter.GetStatelessResetToken`. -/
  getStatelessResetToken : ConnectionID → List UInt8
  highestSeq : Nat
  activeSrcConnIDs : List (Nat × ConnectionID)
  initialClientDestConnID : Option ConnectionID
  generated : Nat
  calls : List ConnIDGeneratorCall

namespace ConnIDGenerator

/-- `newConnIDGenerator`. -/
def new (initialConnectionID : ConnectionID) (initialClientDestConnID : Option ConnectionID)
    (getStatelessResetToken : ConnectionID → List UInt8) (generator : ConnectionIDGenerator) :
    ConnIDGenerator where
  generator := generator
  getStatelessResetToken := getStatelessResetToken
  highestSeq := 0
  activeSrcConnIDs := [(0, initialConnectionID)]
  initialClientDestConnID := initialClientDestConnID
  generated := 0
  calls := []

/-- `delete(m.activeSrcConnIDs, seq)`. -/
def without (active : List (Nat × ConnectionID)) (seq : Nat) : List (Nat × ConnectionID) :=
  active.filter fun e => e.1 ≠ seq

def issueNewConnID (m : ConnIDGenerator) : Option ConnIDGenerator :=
  (m.generator.generateConnectionID m.generated).map fun connID =>
    { m with
      activeSrcConnIDs := without m.activeSrcConnIDs (m.highestSeq + 1) ++
        [(m.highestSeq + 1, connID)]
      calls := m.calls ++ [.addConnectionID connID,
        .newConnectionID (m.highestSeq + 1) connID (m.getStatelessResetToken connID)]
      highestSeq := m.highestSeq + 1
      generated := m.generated + 1 }

/-- The loop of `SetMaxActiveConnIDs`. -/
def issueLoop : Nat → ConnIDGenerator → Option ConnIDGenerator
  | 0, m => some m
  | n + 1, m => m.issueNewConnID.bind (issueLoop n)

def setMaxActiveConnIDs (m : ConnIDGenerator) (limit : Nat) : Option ConnIDGenerator :=
  if m.generator.connectionIDLen = 0 then some m
  else issueLoop (min limit maxIssuedConnectionIDs - m.activeSrcConnIDs.length) m

/-- `m.activeSrcConnIDs[seq]`. -/
def active? (m : ConnIDGenerator) (seq : Nat) : Option ConnectionID :=
  (m.activeSrcConnIDs.find? fun e => e.1 = seq).map (·.2)

/-- `Retire`; `none` is an error. -/
def retire (m : ConnIDGenerator) (seq : Nat) (sentWithDestConnID : ConnectionID) :
    Option ConnIDGenerator :=
  if m.highestSeq < seq then none
  else
    match m.active? seq with
    | none => some m
    | some connID =>
      if connID = sentWithDestConnID then none
      else
        let m' := { m with
          calls := m.calls ++ [.retireConnectionID connID]
          activeSrcConnIDs := without m.activeSrcConnIDs seq }
        if seq = 0 then some m' else m'.issueNewConnID

def setHandshakeComplete (m : ConnIDGenerator) : ConnIDGenerator :=
  match m.initialClientDestConnID with
  | none => m
  | some connID =>
    { m with
      calls := m.calls ++ [.retireConnectionID connID]
      initialClientDestConnID := none }

/-- What `RemoveAll` and `ReplaceWithClosed` name. -/
def covered (m : ConnIDGenerator) : List ConnectionID :=
  m.initialClientDestConnID.toList ++ m.activeSrcConnIDs.map (·.2)

/-! ## Runs -/

/-- The operations that issue and retire. -/
inductive Op
  | setMaxActiveConnIDs (limit : Nat)
  | retire (seq : Nat) (sentWithDestConnID : ConnectionID)
  | setHandshakeComplete

def step (m : ConnIDGenerator) : Op → Option ConnIDGenerator
  | .setMaxActiveConnIDs limit => m.setMaxActiveConnIDs limit
  | .retire seq sentWithDestConnID => m.retire seq sentWithDestConnID
  | .setHandshakeComplete => some m.setHandshakeComplete

def machine (initialConnectionID : ConnectionID) (initialClientDestConnID : Option ConnectionID)
    (getStatelessResetToken : ConnectionID → List UInt8) (generator : ConnectionIDGenerator) :
    Machine ConnIDGenerator Op :=
  .ofStep (new initialConnectionID initialClientDestConnID getStatelessResetToken generator) step

def limitOf : Op → Option Nat
  | .setMaxActiveConnIDs limit => some limit
  | .retire _ _ | .setHandshakeComplete => none

/-- The limits of a run, oldest first. -/
def limits (tr : List Op) : List Nat := tr.filterMap limitOf

def limit (tr : List Op) : Nat := (limits tr).getLast?.getD 0

/-! ## The calls -/

def addedBy : ConnIDGeneratorCall → Option ConnectionID
  | .addConnectionID connID => some connID
  | .retireConnectionID _ | .newConnectionID _ _ _ => none

def retiredBy : ConnIDGeneratorCall → Option ConnectionID
  | .retireConnectionID connID => some connID
  | .addConnectionID _ | .newConnectionID _ _ _ => none

/-- The number and the connection ID of a NEW_CONNECTION_ID frame. -/
def frameOf : ConnIDGeneratorCall → Option (Nat × ConnectionID)
  | .newConnectionID seq connID _ => some (seq, connID)
  | .addConnectionID _ | .retireConnectionID _ => none

/-- The connection IDs registered with `addConnectionID`. -/
def added (m : ConnIDGenerator) : List ConnectionID := m.calls.filterMap addedBy

/-- The connection IDs passed to `retireConnectionID`. -/
def retired (m : ConnIDGenerator) : List ConnectionID := m.calls.filterMap retiredBy

def frames (m : ConnIDGenerator) : List (Nat × ConnectionID) := m.calls.filterMap frameOf

/-- The connection IDs of a connection by construction. -/
def constructed (initialConnectionID : ConnectionID) (clientDest : Option ConnectionID) :
    List ConnectionID := clientDest.toList ++ [initialConnectionID]

/-- What every operation keeps: the numbers are fresh from `highestSeq` on, and each connection
ID ever registered is covered or retired. -/
structure Issued (g : ConnectionIDGenerator) (built : List ConnectionID) (m : ConnIDGenerator) :
    Prop where
  generator_eq : m.generator = g
  keysLe : ∀ e ∈ m.activeSrcConnIDs, e.1 ≤ m.highestSeq
  keysNodup : (m.activeSrcConnIDs.map (·.1)).Nodup
  frames_eq : m.frames.map (·.1) = List.range' 1 m.highestSeq
  added_eq : m.frames.map (·.2) = m.added
  generated_eq : m.added.map some = (List.range m.generated).map g.generateConnectionID
  accounted : (m.covered ++ m.retired).Perm (built ++ m.added)

variable {m m' : ConnIDGenerator} {g : ConnectionIDGenerator} {built : List ConnectionID}
  {connID : ConnectionID} {seq : Nat}

theorem issued_new (initial : ConnectionID) (dest : Option ConnectionID)
    (token : ConnectionID → List UInt8) (g : ConnectionIDGenerator) :
    Issued g (constructed initial dest) (new initial dest token g) where
  generator_eq := rfl
  keysLe e he := by
    rw [mem_singleton.mp he]
    exact Nat.le_refl 0
  keysNodup := nodup_singleton 0
  frames_eq := rfl
  added_eq := rfl
  generated_eq := rfl
  accounted := by
    show (constructed initial dest ++ []).Perm (constructed initial dest ++ [])
    exact .refl _

/-! ## Issuing -/

/-- A number that no entry has is not deleted. -/
theorem without_eq_self {active : List (Nat × ConnectionID)}
    (h : ∀ e ∈ active, e.1 ≠ seq) : without active seq = active := by
  rw [without, filter_eq_self]
  intro e he
  exact decide_eq_true (h e he)

theorem issueNewConnID_some (hi : Issued g built m) (h : m.issueNewConnID = some m') :
    ∃ connID, g.generateConnectionID m.generated = some connID ∧
      m'.generator = m.generator ∧ m'.highestSeq = m.highestSeq + 1 ∧
      m'.activeSrcConnIDs = m.activeSrcConnIDs ++ [(m.highestSeq + 1, connID)] ∧
      m'.initialClientDestConnID = m.initialClientDestConnID ∧ m'.generated = m.generated + 1 ∧
      m'.added = m.added ++ [connID] ∧ m'.retired = m.retired ∧
      m'.frames = m.frames ++ [(m.highestSeq + 1, connID)] := by
  obtain ⟨connID, hgen, rfl⟩ := map_eq_some_iff.mp h
  rw [hi.generator_eq] at hgen
  have hfresh : without m.activeSrcConnIDs (m.highestSeq + 1) = m.activeSrcConnIDs := by
    refine without_eq_self fun e he => ?_
    exact Nat.ne_of_lt (Nat.lt_succ_of_le (hi.keysLe e he))
  refine ⟨connID, hgen, rfl, rfl, ?_, rfl, rfl, ?_, ?_, ?_⟩
  · show without m.activeSrcConnIDs (m.highestSeq + 1) ++ _ = _
    rw [hfresh]
  · exact filterMap_append
  · exact filterMap_append.trans (append_nil _)
  · exact filterMap_append

theorem Issued.issueNewConnID (hi : Issued g built m) (h : m.issueNewConnID = some m') :
    Issued g built m' := by
  obtain ⟨connID, hgen, hg, hseq, hactive, hdest, hcount, hadded, hretired, hframes⟩ :=
    issueNewConnID_some hi h
  constructor
  case generator_eq => rw [hg, hi.generator_eq]
  case keysLe =>
    intro e he
    rw [hactive, mem_append, mem_singleton] at he
    rw [hseq]
    rcases he with he | rfl
    · exact Nat.le_succ_of_le (hi.keysLe e he)
    · exact le_rfl
  case keysNodup =>
    rw [hactive, map_append, nodup_append]
    refine ⟨hi.keysNodup, nodup_singleton _, ?_⟩
    intro k hk k' hk'
    obtain ⟨e, he, rfl⟩ := mem_map.mp hk
    rw [mem_singleton.mp hk']
    exact Nat.ne_of_lt (Nat.lt_succ_of_le (hi.keysLe e he))
  case frames_eq =>
    rw [hframes, map_append, hi.frames_eq, hseq, List.range'_concat, Nat.one_mul, Nat.add_comm 1]
    rfl
  case added_eq =>
    rw [hframes, map_append, hi.added_eq, hadded]
    rfl
  case generated_eq =>
    rw [hadded, map_append, hi.generated_eq, hcount, range_succ, map_append,
      map_singleton, map_singleton, hgen]
  case accounted =>
    have hcovered : m'.covered = m.covered ++ [connID] := by
      rw [covered, hdest, hactive, map_append, ← append_assoc]
      rfl
    rw [perm_iff_count]
    intro id
    have hcount := hi.accounted.count_eq id
    rw [hcovered, hretired, hadded]
    simp only [count_append] at hcount ⊢
    omega

theorem issued_issueLoop :
    ∀ (n : Nat) {m m' : ConnIDGenerator}, Issued g built m → issueLoop n m = some m' →
      Issued g built m' ∧ m'.activeSrcConnIDs.length = m.activeSrcConnIDs.length + n := by
  intro n
  induction n with
  | zero =>
    intro m m' hi h
    cases h
    exact ⟨hi, rfl⟩
  | succ n ih =>
    intro m m' hi h
    obtain ⟨m₁, h₁, h⟩ := bind_eq_some_iff.mp h
    obtain ⟨hi', hlen⟩ := ih (hi.issueNewConnID h₁) h
    obtain ⟨connID, -, -, -, hactive, -⟩ := issueNewConnID_some hi h₁
    refine ⟨hi', ?_⟩
    rw [hlen, hactive, length_append, length_singleton]
    omega

/-! ## Retiring -/

/-- The entry of a number, and the entries without it. -/
theorem perm_without {active : List (Nat × ConnectionID)} (hnodup : (active.map (·.1)).Nodup)
    (h : (active.find? fun e => e.1 = seq).map (·.2) = some connID) :
    active.Perm ((seq, connID) :: without active seq) := by
  obtain ⟨e, he, rfl⟩ := map_eq_some_iff.mp h
  obtain ⟨hkey, as, bs, rfl, has⟩ := List.find?_eq_some_iff_append.mp he
  obtain rfl : e.1 = seq := of_decide_eq_true hkey
  rw [map_append, map_cons, nodup_middle, nodup_cons] at hnodup
  have hother : ∀ e' ∈ as ++ bs, e'.1 ≠ e.1 := by
    intro e' he' heq
    refine hnodup.1 ?_
    rw [← heq, ← map_append]
    exact mem_map_of_mem he'
  have hwithout : without (as ++ e :: bs) e.1 = as ++ bs := by
    rw [without, filter_append, filter_cons_of_neg (by simp), ← filter_append]
    exact without_eq_self hother
  rw [hwithout]
  exact perm_middle

theorem calls_retired (h : m'.calls = m.calls ++ [.retireConnectionID connID]) :
    m'.added = m.added ∧ m'.frames = m.frames ∧ m'.retired = m.retired ++ [connID] := by
  refine ⟨?_, ?_, ?_⟩
  · rw [added, h, filterMap_append]
    exact append_nil _
  · rw [frames, h, filterMap_append]
    exact append_nil _
  · rw [retired, h, filterMap_append]
    rfl

/-- A connection ID is retired and no longer covered. -/
theorem Issued.of_retired (hi : Issued g built m)
    (hcalls : m'.calls = m.calls ++ [.retireConnectionID connID])
    (hcovered : m.covered.Perm (connID :: m'.covered))
    (hactive : m'.activeSrcConnIDs.Sublist m.activeSrcConnIDs)
    (hgenerator : m'.generator = m.generator) (hseq : m'.highestSeq = m.highestSeq)
    (hgenerated : m'.generated = m.generated) : Issued g built m' := by
  obtain ⟨hadded, hframes, hretired⟩ := calls_retired hcalls
  constructor
  case generator_eq => rw [hgenerator, hi.generator_eq]
  case keysLe =>
    intro e he
    rw [hseq]
    exact hi.keysLe e (hactive.subset he)
  case keysNodup => exact hi.keysNodup.sublist (hactive.map _)
  case frames_eq => rw [hframes, hseq, hi.frames_eq]
  case added_eq => rw [hframes, hadded, hi.added_eq]
  case generated_eq => rw [hadded, hgenerated, hi.generated_eq]
  case accounted =>
    rw [hadded, hretired, perm_iff_count]
    intro id
    have hbefore := hi.accounted.count_eq id
    have hgone := hcovered.count_eq id
    rw [← singleton_append] at hgone
    simp only [count_append] at hbefore hgone ⊢
    omega

/-- The state between the two halves of `Retire`. -/
def retiring (m : ConnIDGenerator) (seq : Nat) (connID : ConnectionID) : ConnIDGenerator :=
  { m with
    calls := m.calls ++ [.retireConnectionID connID]
    activeSrcConnIDs := without m.activeSrcConnIDs seq }

section

variable (hi : Issued g built m)

include hi

theorem Issued.retiring (h : m.active? seq = some connID) : Issued g built (m.retiring seq connID) ∧
      (m.retiring seq connID).activeSrcConnIDs.length + 1 = m.activeSrcConnIDs.length := by
  have hperm := perm_without hi.keysNodup h
  refine ⟨hi.of_retired rfl ?_ filter_sublist rfl rfl rfl, hperm.length_eq.symm⟩
  exact ((hperm.map (·.2)).append_left _).trans perm_middle

/-- `Retire` leaves at most as many active. -/
theorem Issued.retire {sent : ConnectionID} (h : m.retire seq sent = some m') :
    Issued g built m' ∧ m'.activeSrcConnIDs.length ≤ m.activeSrcConnIDs.length := by
  rw [ConnIDGenerator.retire] at h
  split at h
  · cases h
  · split at h
    · cases h
      exact ⟨hi, le_rfl⟩
    · rename_i connID hactive
      obtain ⟨hi₁, hlen⟩ := hi.retiring hactive
      split at h
      · cases h
      · dsimp only at h
        split at h
        · -- no replacement for the connection ID of the handshake
          cases h
          exact ⟨hi₁, by rw [← hlen]; exact Nat.le_succ _⟩
        · have h : (m.retiring seq connID).issueNewConnID = some m' := h
          obtain ⟨id, -, -, -, hentries, -⟩ := issueNewConnID_some hi₁ h
          refine ⟨hi₁.issueNewConnID h, Nat.le_of_eq ?_⟩
          rw [hentries, length_append, length_singleton, hlen]

theorem Issued.setHandshakeComplete : Issued g built m.setHandshakeComplete ∧
      m.setHandshakeComplete.activeSrcConnIDs = m.activeSrcConnIDs := by
  rw [ConnIDGenerator.setHandshakeComplete]
  split
  · exact ⟨hi, rfl⟩
  · rename_i connID hdest
    refine ⟨hi.of_retired rfl ?_ (List.Sublist.refl _) rfl rfl rfl, rfl⟩
    rw [covered, hdest]
    exact .refl _

/-! ## Whole runs -/

theorem setMaxActiveConnIDs_length {limit : Nat} (h : m.setMaxActiveConnIDs limit = some m') :
    Issued g built m' ∧ m'.activeSrcConnIDs.length ≤
      max m.activeSrcConnIDs.length (min limit maxIssuedConnectionIDs) := by
  rw [setMaxActiveConnIDs] at h
  split at h
  · cases h
    exact ⟨hi, Nat.le_max_left _ _⟩
  · obtain ⟨hi', hlen⟩ := issued_issueLoop _ hi h
    refine ⟨hi', ?_⟩
    omega

theorem step_issued {op : Op} (h : m.step op = some m') : Issued g built m' := by
  cases op with
  | setMaxActiveConnIDs limit => exact (setMaxActiveConnIDs_length hi h).1
  | retire seq sent => exact (hi.retire h).1
  | setHandshakeComplete =>
    cases h
    exact hi.setHandshakeComplete.1

end

section Runs

variable {initial : ConnectionID} {dest : Option ConnectionID} {token : ConnectionID → List UInt8}
  {tr : List Op}

theorem run_issued (hrun : (machine initial dest token g).Run tr m) :
    Issued g (constructed initial dest) m := by
  refine Machine.Run.stable (I := Issued g (constructed initial dest)) ?_ ?_ hrun
  · intro s hs
    cases hs
    exact issued_new _ _ _ _
  · intro s op s' hi hstep
    exact step_issued hi hstep

/-- The bound on what is active, for limits that do not go down. -/
theorem run_length (hrun : (machine initial dest token g).Run tr m) : (limits tr).Pairwise (· ≤ ·) →
      m.activeSrcConnIDs.length ≤ max 1 (min (limit tr) maxIssuedConnectionIDs) := by
  refine Machine.Run.invariant (I := fun tr m => (limits tr).Pairwise (· ≤ ·) →
    m.activeSrcConnIDs.length ≤ max 1 (min (limit tr) maxIssuedConnectionIDs)) ?_ ?_ hrun
  · intro s hs _
    cases hs
    exact Nat.le_max_left _ _
  · intro tr s op s' hrun ih hstep hpairwise
    have hi := run_issued hrun
    have hsplit : limits (tr ++ [op]) = limits tr ++ (limitOf op).toList := by
      rw [limits, filterMap_append, limits]
      cases op <;> rfl
    rw [hsplit, pairwise_append] at hpairwise
    have ih := ih hpairwise.1
    cases op with
    | setMaxActiveConnIDs l =>
      have hlim : limit (tr ++ [.setMaxActiveConnIDs l]) = l := by
        rw [limit, hsplit]
        exact congrArg (Option.getD · 0) List.getLast?_concat
      have hle : limit tr ≤ l := by
        rw [limit]
        cases hlast : (limits tr).getLast? with
        | none => exact Nat.zero_le _
        | some l' =>
          exact hpairwise.2.2 l' (mem_of_getLast? hlast) l (mem_singleton.mpr rfl)
      have hlen := (setMaxActiveConnIDs_length hi hstep).2
      rw [hlim]
      omega
    | retire seq sent =>
      have hlim : limit (tr ++ [.retire seq sent]) = limit tr := by
        rw [limit, hsplit, limit]
        exact congrArg (fun l => l.getLast?.getD 0) (append_nil _)
      rw [hlim]
      exact Nat.le_trans (hi.retire hstep).2 ih
    | setHandshakeComplete =>
      have hlim : limit (tr ++ [.setHandshakeComplete]) = limit tr := by
        rw [limit, hsplit, limit]
        exact congrArg (fun l => l.getLast?.getD 0) (append_nil _)
      cases hstep
      rw [hlim, hi.setHandshakeComplete.2]
      exact ih

/-- Distinct results of the generator are registered once each. -/
theorem Issued.added_nodup (hi : Issued g built m)
    (hdistinct : ∀ i j connID, g.generateConnectionID i = some connID →
      g.generateConnectionID j = some connID → i = j) : m.added.Nodup := by
  refine List.Nodup.of_map some ?_
  rw [hi.generated_eq]
  refine List.Nodup.map_on ?_ nodup_range
  intro i hi' j _ heq
  have hmem : g.generateConnectionID i ∈ m.added.map some := by
    rw [hi.generated_eq]
    exact mem_map_of_mem hi'
  obtain ⟨connID, -, hconnID⟩ := mem_map.mp hmem
  exact hdistinct i j connID hconnID.symm (heq.symm.trans hconnID.symm)

/-- **Issued connection IDs.**  The active ones stay within the limit, the frames are numbered
from 1 on with a connection ID each, and every connection ID that was registered is covered by
the close paths or was retired, as often as it was registered: once, if those of the handshake
are different and not generated again. -/
theorem issued_connIDs (hrun : (machine initial dest token g).Run tr m)
    (hlimits : (limits tr).Pairwise (· ≤ ·))
    (hdistinct : ∀ i j connID, g.generateConnectionID i = some connID →
      g.generateConnectionID j = some connID → i = j) :
    m.activeSrcConnIDs.length ≤ max 1 (min (limit tr) maxIssuedConnectionIDs) ∧
    m.frames.map (·.1) = List.range' 1 m.highestSeq ∧ m.frames.map (·.2) = m.added ∧ m.added.Nodup ∧
    (m.covered ++ m.retired).Perm (constructed initial dest ++ m.added) ∧
    ((constructed initial dest).Nodup → (∀ i connID, g.generateConnectionID i = some connID →
        connID ∉ constructed initial dest) → m.retired.Nodup ∧ m.covered.Nodup ∧
      ∀ connID, connID ∈ m.covered ↔
        connID ∈ constructed initial dest ++ m.added ∧ connID ∉ m.retired) := by
  have hi := run_issued hrun
  have hadded := hi.added_nodup hdistinct
  refine ⟨run_length hrun hlimits, hi.frames_eq, hi.added_eq, hadded, hi.accounted,
    fun hbuilt hfresh => ?_⟩
  have hnodup : (constructed initial dest ++ m.added).Nodup := by
    refine nodup_append.mpr ⟨hbuilt, hadded, fun connID hmem connID' hmem' heq => ?_⟩
    have hgenerated : some connID' ∈ (List.range m.generated).map g.generateConnectionID := by
      rw [← hi.generated_eq]
      exact mem_map_of_mem hmem'
    obtain ⟨i, -, hi'⟩ := mem_map.mp hgenerated
    exact hfresh i connID' hi' (heq ▸ hmem)
  have hall := hi.accounted.nodup_iff.mpr hnodup
  obtain ⟨hcovered, hretired, hdisjoint⟩ := nodup_append.mp hall
  refine ⟨hretired, hcovered, fun connID => ?_⟩
  rw [← hi.accounted.mem_iff, mem_append]
  constructor
  · intro hmem
    exact ⟨.inl hmem, fun hmem' => hdisjoint connID hmem connID hmem' rfl⟩
  · rintro ⟨hmem, hnot⟩
    exact hmem.resolve_right hnot

end Runs

def oneByte (b : UInt8) : ConnectionID := ⟨[b], Nat.succ_le_succ (Nat.zero_le 19)⟩

/-- Four connection IDs, and then an error. -/
def fourConnIDs : ConnectionIDGenerator where
  connectionIDLen := 1
  generateConnectionID k := [oneByte 1, oneByte 2, oneByte 3, oneByte 4][k]?

theorem fourConnIDs_distinct (i j : Nat) (connID : ConnectionID)
    (h : fourConnIDs.generateConnectionID i = some connID)
    (h' : fourConnIDs.generateConnectionID j = some connID) : i = j := by
  obtain ⟨hlt, -⟩ := List.getElem?_eq_some_iff.mp h
  exact (List.getElem?_inj hlt (by decide)).mp (h.trans h'.symm)

/-- The limit is three; number 1 is retired twice. -/
def retiredTwice : List Op :=
  [.setMaxActiveConnIDs 3, .retire 1 (oneByte 9), .setHandshakeComplete, .retire 1 (oneByte 9)]

/-- Three are active, and the retired ones are gone. -/
theorem issued_connIDs_retiredTwice :
    ∃ m, (machine (oneByte 9) (some (oneByte 8)) (fun _ => []) fourConnIDs).Run retiredTwice m ∧
      m.retired = [oneByte 1, oneByte 8] ∧ m.frames.map (·.1) = [1, 2, 3] ∧
      m.activeSrcConnIDs.length ≤ 3 ∧ m.covered.Nodup ∧ m.retired.Nodup := by
  obtain ⟨m, hm⟩ : ∃ m, retiredTwice.foldlM step
      (new (oneByte 9) (some (oneByte 8)) (fun _ => []) fourConnIDs) = some m := ⟨_, rfl⟩
  have hrun : (machine (oneByte 9) (some (oneByte 8)) (fun _ => []) fourConnIDs).Run
      retiredTwice m := Machine.run_ofStep_iff.mpr hm
  obtain ⟨hlength, -, -, -, -, honce⟩ := issued_connIDs hrun (by decide) fourConnIDs_distinct
  have hfresh : ∀ i connID, fourConnIDs.generateConnectionID i = some connID →
      connID ∉ constructed (oneByte 9) (some (oneByte 8)) := by
    intro i connID h
    have hmem := List.mem_of_getElem? h
    have hall : ∀ connID ∈ [oneByte 1, oneByte 2, oneByte 3, oneByte 4],
        connID ∉ constructed (oneByte 9) (some (oneByte 8)) := by decide
    exact hall connID hmem
  obtain ⟨hretired, hcovered, -⟩ := honce (by decide) hfresh
  cases hm
  exact ⟨_, hrun, by decide, by decide, hlength, hcovered, hretired⟩

/-- The client's own choice is generated again: it is retired, and covered all the same. -/
theorem issued_connIDs_again :
    (∀ i j connID, fourConnIDs.generateConnectionID i = some connID →
      fourConnIDs.generateConnectionID j = some connID → i = j) ∧
    ∃ m, (machine (oneByte 9) (some (oneByte 1)) (fun _ => []) fourConnIDs).Run
        [.setMaxActiveConnIDs 3, .setHandshakeComplete] m ∧
      oneByte 1 ∈ m.retired ∧ oneByte 1 ∈ m.covered :=
  ⟨fourConnIDs_distinct, _, Machine.run_ofStep_iff.mpr rfl, by decide, by decide⟩

end ConnIDGenerator

end UQuic
