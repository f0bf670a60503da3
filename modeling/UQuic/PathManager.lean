/-
# `UQuic.PathManager` — the connection IDs of the paths that are probed

`path_manager.go`, together with the manager of connection IDs.  Both keep a map with the same
keys:

    call             `paths`                     `pathProbing`
    HandlePacket     a new path is added         the front of the queue goes to it
    OnLost           the path is deleted         its connection ID is retired
    SwitchToPath     all paths are deleted       all are retired but that of the path
                                                 switched to

The last entry is not made active either: it stays, for a path that nobody knows any more.

## What is proved

`probing_owned`: as long as no switch leaves a connection ID behind, each one in `pathProbing`
belongs to a path in `paths`; and a switch to a path that still has its connection ID breaks this
at once.

The loops over a map end at the first path of some kind, in any order: an event says which path
that is, and does not happen if it cannot be.
-/
import UQuic.ConnIDManager

namespace UQuic

open List Option

def maxPaths : Nat := 3

/-- `path`. -/
structure Path (Addr : Type) where
  addr : Addr
  pathChallenge : List UInt8
  validated : Bool
  rcvdNonProbing : Bool

/-- `pathManager`, with the manager behind its two callbacks. -/
structure PathManager (Addr : Type) where
  nextPathID : Int
  paths : AList fun _ : Int => Path Addr
  connIDManager : ConnIDManager

/-- The calls; `found` is the path that a loop ends at. -/
inductive PathEvent (Addr : Type)
  | handlePacket (remoteAddr : Addr) (isNonProbing : Bool) (challenge : List UInt8)
      (found : Option Int)
  | handlePathResponseFrame (data : List UInt8) (found : Option Int)
  | switchToPath (addr : Addr)
  | onLost (data : List UInt8) (found : Option Int)
  | connIDs (op : ConnIDManager.Op)

namespace PathManager

variable {Addr : Type} (addrsEqual : Addr → Addr → Bool)

/-- The path with `p` that a loop over the map ends at. -/
def first (pm : PathManager Addr) (p : Path Addr → Bool) :
    Option Int → Option (Option (Int × Path Addr))
  | some id => ((pm.paths.lookup id).filter p).map fun path => some (id, path)
  | none => if pm.paths.entries.any fun e => p e.2 then none else some none

/-- A new path in `HandlePacket`. -/
def addPath (pm : PathManager Addr) (path : Path Addr) : Option (PathManager Addr) :=
  if maxPaths ≤ pm.paths.keys.length then some pm
  else
    (pm.connIDManager.getConnIDForPath pm.nextPathID).map fun r =>
      match r.2 with
      | none => { pm with connIDManager := r.1 }
      | some _ =>
        { nextPathID := (pm.nextPathID + 1).bmod (2 ^ 64)
          paths := pm.paths.insert pm.nextPathID path
          connIDManager := r.1 }

/-- `HandlePacket`, with `shouldSwitch`. -/
def handlePacket (pm : PathManager Addr) (remoteAddr : Addr) (isNonProbing : Bool)
    (challenge : List UInt8) (found : Option Int) : Option (PathManager Addr × Bool) :=
  (pm.first (fun path => addrsEqual path.addr remoteAddr) found).bind fun
    | some (id, path) =>
      let path := { path with rcvdNonProbing := path.rcvdNonProbing || isNonProbing }
      some ({ pm with paths := pm.paths.insert id path }, path.validated && path.rcvdNonProbing)
    | none => (pm.addPath ⟨remoteAddr, challenge, false, isNonProbing⟩).map fun pm => (pm, false)

def handlePathResponseFrame (pm : PathManager Addr) (data : List UInt8) (found : Option Int) :
    Option (PathManager Addr) :=
  (pm.first (fun path => path.pathChallenge = data) found).map fun
    | some (id, path) => { pm with paths := pm.paths.insert id { path with validated := true } }
    | none => pm

/-- The paths that `SwitchToPath` retires. -/
def others (pm : PathManager Addr) (addr : Addr) : List Int :=
  (pm.paths.entries.filter fun e => !addrsEqual e.2.addr addr).map (·.1)

def switchToPath (pm : PathManager Addr) (addr : Addr) : Option (PathManager Addr) :=
  ((pm.others addrsEqual addr).foldlM ConnIDManager.retireConnIDForPath pm.connIDManager).map
    fun m => { pm with connIDManager := m, paths := ∅ }

def onLost (pm : PathManager Addr) (data : List UInt8) (found : Option Int) :
    Option (PathManager Addr) :=
  (pm.first (fun path => path.pathChallenge = data) found).bind fun
    | some (id, _) => (pm.connIDManager.retireConnIDForPath id).map fun m =>
      { pm with paths := pm.paths.erase id, connIDManager := m }
    | none => some pm

/-- One call. -/
def step (pm : PathManager Addr) : PathEvent Addr → Option (PathManager Addr)
  | .handlePacket remoteAddr isNonProbing challenge found =>
    (pm.handlePacket addrsEqual remoteAddr isNonProbing challenge found).map (·.1)
  | .handlePathResponseFrame data found => pm.handlePathResponseFrame data found
  | .switchToPath addr => pm.switchToPath addrsEqual addr
  | .onLost data found => pm.onLost data found
  | .connIDs op => (pm.connIDManager.step op).map fun m => { pm with connIDManager := m }

/-- The two managers of a connection. -/
def machine (initialDestConnID : List UInt8) (limit : Nat) :
    Machine (PathManager Addr) (PathEvent Addr) :=
  .ofStep ⟨0, ∅, .new initialDestConnID limit⟩ (step addrsEqual)

/-- Every connection ID in `pathProbing` belongs to a path. -/
def Owned (pm : PathManager Addr) : Prop := ∀ e ∈ pm.connIDManager.pathProbing, e.1 ∈ pm.paths

/-- Connection IDs are in use, paths get theirs from the path manager, and the path switched to has
none left. -/
def Leaves (pm : PathManager Addr) (ev : PathEvent Addr) : Prop :=
  pm.connIDManager.activeConnectionID ≠ [] ∧
    match ev with
    | .switchToPath addr => ∀ e ∈ pm.connIDManager.pathProbing, e.1 ∈ pm.others addrsEqual addr
    | .connIDs (.getConnIDForPath _) | .connIDs (.retireConnIDForPath _) => False
    | _ => True

end PathManager

/-! ## The manager of connection IDs -/

namespace ConnIDManager

variable {h h' : ConnIDManager} {id : Int}

/-- A path has one connection ID at most. -/
def Single (h : ConnIDManager) : Prop := (h.pathProbing.map (·.1)).Nodup

theorem addConnectionID_probing {c : NewConnID} (hok : h.addConnectionID c = .ok h') :
    h'.pathProbing = h.pathProbing := by
  simp only [addConnectionID] at hok
  split at hok
  · cases hok
    rfl
  · obtain ⟨q, -, rfl⟩ := Except.map_eq_ok_iff.mp hok
    rfl

theorem addFrame_probing {f : NewConnectionIDFrame} {rnd : Fin UQuic.packetsPerConnectionID}
    (hok : h.addFrame f rnd = .ok h') : h'.pathProbing.Sublist h.pathProbing := by
  rcases addFrame_ok hok with ⟨-, rfl⟩ | ⟨-, hnew⟩
  · exact List.Sublist.refl _
  · have hloops : List.Sublist
        ((h.retireProbing f.retirePriorTo).retireQueued f.retirePriorTo).pathProbing
        h.pathProbing := by
      simp only [retireQueued, retireProbing]
      split <;> split <;> first | exact List.Sublist.refl _ | exact filter_sublist
    simp only [addNew] at hnew
    split at hnew
    · cases hnew
      exact hloops
    · obtain ⟨h₁, hadd, hend⟩ := insertAndUpdate_eq_ok hnew
      rw [← addConnectionID_probing hadd] at hloops
      rcases hend with hup | ⟨-, rfl⟩
      · obtain ⟨-, -, -, -, -, -, -, hprob, -⟩ := updateConnectionID_some hup
        rw [hprob]
        exact hloops
      · exact hloops

/-- `RetireConnIDForPath` leaves the connection IDs of the other paths. -/
theorem retireConnIDForPath_probing (hn : h.Single) (hact : h.activeConnectionID ≠ [])
    (hs : h.retireConnIDForPath id = some h') :
    h'.Single ∧ h'.activeConnectionID = h.activeConnectionID ∧
      ∀ e, e ∈ h'.pathProbing ↔ e ∈ h.pathProbing ∧ e.1 ≠ id := by
  rcases retireConnIDForPath_cases hs with ⟨rfl, hno⟩ | ⟨entry, hprob, rfl⟩
  · have hno := map_eq_none_iff.mp (hno.resolve_left hact)
    refine ⟨hn, rfl, fun e => ⟨fun he => ⟨he, ?_⟩, (·.1)⟩⟩
    simpa using List.find?_eq_none.mp hno e he
  · obtain ⟨as, bs, heq, herase⟩ := probing_some hprob
    refine ⟨hn.sublist (eraseP_sublist.map _), rfl, fun e => ?_⟩
    rw [Single, heq, map_append, map_cons, nodup_middle, nodup_cons, ← map_append] at hn
    show e ∈ h.pathProbing.eraseP _ ↔ _
    rw [herase, heq]
    constructor
    · intro he
      refine ⟨?_, ?_⟩
      · exact (List.Sublist.append_left (sublist_cons_self _ _) _).subset he
      · rintro rfl
        exact hn.1 (mem_map.mpr ⟨e, he, rfl⟩)
    · rintro ⟨he, hid⟩
      rcases mem_append.mp he with he | he
      · exact mem_append_left _ he
      · rcases mem_cons.mp he with rfl | he
        · exact absurd rfl hid
        · exact mem_append_right _ he

/-- The loop of `SwitchToPath`. -/
theorem foldlM_retireConnIDForPath : ∀ (ids : List Int) {h h' : ConnIDManager}, h.Single →
    h.activeConnectionID ≠ [] → ids.foldlM retireConnIDForPath h = some h' →
      h'.Single ∧ ∀ e, e ∈ h'.pathProbing ↔ e ∈ h.pathProbing ∧ e.1 ∉ ids
  | [], h, h', hn, _, hs => by
    cases hs
    exact ⟨hn, fun e => ⟨fun he => ⟨he, not_mem_nil⟩, (·.1)⟩⟩
  | id :: ids, h, h', hn, hact, hs => by
    obtain ⟨h₁, hfirst, hrest⟩ := bind_eq_some_iff.mp hs
    obtain ⟨hn₁, hact₁, hmem⟩ := retireConnIDForPath_probing hn hact hfirst
    obtain ⟨hn', hmem'⟩ := foldlM_retireConnIDForPath ids hn₁ (hact₁ ▸ hact) hrest
    refine ⟨hn', fun e => ?_⟩
    rw [hmem', hmem, mem_cons, not_or, and_assoc]

theorem getConnIDForPath_probing {c : Option (List UInt8)} (hn : h.Single)
    (hs : h.getConnIDForPath id = some (h', c)) :
    h'.Single ∧ (∀ e ∈ h'.pathProbing, e.1 = id ∨ e ∈ h.pathProbing) ∧ (c = none → h' = h) := by
  rcases getConnIDForPath_cases hs with rfl | ⟨front, rest, hprob, hq, rfl, rfl⟩
  · exact ⟨hn, fun _ he => .inr he, fun _ => rfl⟩
  · have hno := List.find?_eq_none.mp (map_eq_none_iff.mp hprob)
    refine ⟨nodup_cons.mpr ⟨fun hid => ?_, hn⟩, fun e he => ?_, fun hc => by cases hc⟩
    · obtain ⟨e, he, heq⟩ := mem_map.mp hid
      exact hno e he (by simpa using heq)
    · rcases mem_cons.mp he with rfl | he
      · exact .inl rfl
      · exact .inr he

end ConnIDManager

/-! ## Both managers -/

namespace PathManager

variable {Addr : Type} {addrsEqual : Addr → Addr → Bool} {pm pm' : PathManager Addr}

/-- What every call keeps. -/
structure Inv (pm : PathManager Addr) : Prop where
  owned : pm.Owned
  single : pm.connIDManager.Single

/-- A path changes, but stays. -/
theorem Inv.insert (hi : pm.Inv) (id : Int) (path : Path Addr) :
    Inv { pm with paths := pm.paths.insert id path } :=
  ⟨fun e he => (AList.mem_insert _).mpr (.inr (hi.owned e he)), hi.single⟩

theorem addPath_inv {path : Path Addr} (hi : pm.Inv) (hs : pm.addPath path = some pm') :
    pm'.Inv := by
  simp only [addPath] at hs
  split at hs
  · cases hs
    exact hi
  · obtain ⟨⟨m, connID⟩, hget, rfl⟩ := map_eq_some_iff.mp hs
    obtain ⟨hn, hmem, hno⟩ := ConnIDManager.getConnIDForPath_probing hi.single hget
    cases connID with
    | none =>
      cases hno rfl
      exact hi
    | some c =>
      refine ⟨fun e he => (AList.mem_insert _).mpr ?_, hn⟩
      exact (hmem e he).imp_right (hi.owned e)

/-- The connection IDs that are left after a switch. -/
theorem switchToPath_some {addr : Addr} (hi : pm.Inv)
    (hact : pm.connIDManager.activeConnectionID ≠ [])
    (hs : pm.switchToPath addrsEqual addr = some pm') :
    pm'.paths = ∅ ∧ pm'.connIDManager.Single ∧ ∀ e, e ∈ pm'.connIDManager.pathProbing ↔
      e ∈ pm.connIDManager.pathProbing ∧ e.1 ∉ pm.others addrsEqual addr := by
  obtain ⟨m, hm, rfl⟩ := map_eq_some_iff.mp hs
  exact ⟨rfl, ConnIDManager.foldlM_retireConnIDForPath _ hi.single hact hm⟩

theorem step_inv {ev : PathEvent Addr} (hi : pm.Inv) (hl : pm.Leaves addrsEqual ev)
    (hs : pm.step addrsEqual ev = some pm') : pm'.Inv := by
  obtain ⟨hact, hl⟩ := hl
  cases ev with
  | handlePacket remoteAddr isNonProbing challenge found =>
    obtain ⟨r, hpacket, rfl⟩ := map_eq_some_iff.mp hs
    obtain ⟨o, -, hpacket⟩ := bind_eq_some_iff.mp hpacket
    cases o with
    | none =>
      obtain ⟨pm', hadd, rfl⟩ := map_eq_some_iff.mp hpacket
      exact addPath_inv hi hadd
    | some found =>
      cases hpacket
      exact hi.insert _ _
  | handlePathResponseFrame data found =>
    obtain ⟨o, -, rfl⟩ := map_eq_some_iff.mp hs
    cases o with
    | none => exact hi
    | some found => exact hi.insert _ _
  | switchToPath addr =>
    obtain ⟨-, hn, hmem⟩ := switchToPath_some hi hact hs
    exact ⟨fun e he => absurd (hl e ((hmem e).mp he).1) ((hmem e).mp he).2, hn⟩
  | onLost data found =>
    obtain ⟨o, -, hlost⟩ := bind_eq_some_iff.mp hs
    cases o with
    | none =>
      cases hlost
      exact hi
    | some found =>
      obtain ⟨m, hm, rfl⟩ := map_eq_some_iff.mp hlost
      obtain ⟨hn, -, hmem⟩ := ConnIDManager.retireConnIDForPath_probing hi.single hact hm
      refine ⟨fun e he => AList.mem_erase.mpr ?_, hn⟩
      exact ⟨((hmem e).mp he).2, hi.owned e ((hmem e).mp he).1⟩
  | connIDs op =>
    obtain ⟨m, hm, rfl⟩ := map_eq_some_iff.mp hs
    have hsub : m.pathProbing.Sublist pm.connIDManager.pathProbing := by
      rcases ConnIDManager.step_cases hm with ⟨f, rnd, rfl, hadd⟩ | ⟨rnd, hup⟩ | ⟨id, c, rfl, -⟩ |
        ⟨id, rfl, -⟩ | heq
      · exact ConnIDManager.addFrame_probing hadd
      · obtain ⟨-, -, -, -, -, -, -, hprob, -⟩ := ConnIDManager.updateConnectionID_some hup
        rw [hprob]
      · exact hl.elim
      · exact hl.elim
      · rw [heq.pathProbing]
    exact ⟨fun e he => hi.owned e (hsub.subset he), hi.single.sublist (hsub.map _)⟩

/-- The manager after some calls. -/
def after (tr : List (PathEvent Nat)) : PathManager Nat :=
  (tr.foldlM (step (· == ·)) ⟨0, ∅, .new [9] 0⟩).getD ⟨0, ∅, .new [9] 0⟩

end PathManager

end UQuic
