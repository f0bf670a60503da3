/-
# `UQuic.PacketHandlerMap` — which connection gets a packet

`packet_handler_map.go`, and the connections of a transport as far as they call it.  The
map sends a packet to the handler that is registered for its destination connection ID:

    Add(id, c)              no entry for id: c;  otherwise nothing, and false
    Retire(id)              id is deleted later
    ReplaceWithClosed(ids)  a handler for the closed connection, and ids are deleted later

`UTransport.doDial` does not look at the result of `Add` (`doDial_registers`).  The
deletions run after a timeout, one after the other in any order, and delete whatever the
entries hold by then.

## What is proved

`get_srcConnID`: if every connection ID is registered while the map has no entry for it
and no deletion of it is due, each open connection gets the packets for its source
connection ID.  `get_srcConnID_repeated` is a second dial with the same ID.

## How

`Owns` says it of all the IDs in use of all open connections, and that no deletion of one
is due.  An entry names one connection, so the IDs of two connections are different
without saying so.
-/
import UQuic.Lib.Machine
import UQuic.Wire.Header

namespace UQuic

open List Option
open Wire (ConnectionID)

/-- `packetHandler`: a connection, or what takes the place of a closed one. -/
inductive PacketHandler
  | conn (number : Nat)
  | closedLocalConn (connClosePacket : List UInt8)
  | closedRemoteConn
  deriving DecidableEq

/-- `packetHandlerMap`.  `timers` are the deletions that are due. -/
structure PacketHandlerMap where
  handlers : ConnectionID → Option PacketHandler
  timers : List (List ConnectionID)

namespace PacketHandlerMap

def new : PacketHandlerMap := ⟨fun _ => none, []⟩

def get (h : PacketHandlerMap) (id : ConnectionID) : Option PacketHandler := h.handlers id

/-- `Add`: the map, and whether the handler was added. -/
def add (h : PacketHandlerMap) (id : ConnectionID) (handler : PacketHandler) :
    PacketHandlerMap × Bool :=
  match h.handlers id with
  | some _ => (h, false)
  | none => ({ h with handlers := fun i => if i = id then some handler else h.handlers i }, true)

def retire (h : PacketHandlerMap) (id : ConnectionID) : PacketHandlerMap :=
  { h with timers := h.timers ++ [[id]] }

/-- The handler of `ReplaceWithClosed`. -/
def closedHandler : Option (List UInt8) → PacketHandler
  | some connClosePacket => .closedLocalConn connClosePacket
  | none => .closedRemoteConn

def replaceWithClosed (h : PacketHandlerMap) (ids : List ConnectionID)
    (connClosePacket : Option (List UInt8)) : PacketHandlerMap where
  handlers i := if i ∈ ids then some (closedHandler connClosePacket) else h.handlers i
  timers := h.timers ++ [ids]

/-- The function of a timer. -/
def deleteAll (h : PacketHandlerMap) (ids : List ConnectionID) : ConnectionID →
    Option PacketHandler :=
  fun i => if i ∈ ids then none else h.handlers i

def fire (h : PacketHandlerMap) (k : Nat) : Option PacketHandlerMap :=
  (h.timers[k]?).map fun ids => ⟨h.deleteAll ids, h.timers.eraseIdx k⟩

/-- Nothing is registered for the connection ID, and no deletion of it is due. -/
def Free (h : PacketHandlerMap) (id : ConnectionID) : Prop :=
  h.handlers id = none ∧ ∀ ids ∈ h.timers, id ∉ ids

instance (h : PacketHandlerMap) (id : ConnectionID) : Decidable (h.Free id) := instDecidableAnd

end PacketHandlerMap

/-! ## The transport -/

/-- A connection: the IDs it has registered and not retired.  `srcConnID` is the one of `doDial`. -/
structure DialedConn where
  srcConnID : ConnectionID
  active : List ConnectionID
  closed : Bool

/-- A `UTransport`: the map, and the connections in the order of their numbers. -/
structure DialingTransport where
  handlerMap : PacketHandlerMap
  conns : List DialedConn

namespace DialingTransport

/-- What happens on a transport. -/
inductive Event
  /-- `doDial`, with the connection ID that the generator returned. -/
  | dial (srcConnID : ConnectionID)
  /-- A connection issues another connection ID. -/
  | issue (number : Nat) (id : ConnectionID)
  /-- `Retire` of a connection ID. -/
  | retire (number : Nat) (id : ConnectionID)
  /-- `ReplaceWithClosed` with the IDs in use. -/
  | close (number : Nat) (connClosePacket : Option (List UInt8))
  /-- A delayed deletion. -/
  | fire (k : Nat)

def new : DialingTransport := ⟨.new, []⟩

/-- The open connection with a number. -/
def open? (t : DialingTransport) (number : Nat) : Option DialedConn :=
  (t.conns[number]?).filter fun c => !c.closed

/-- The call of `Add` in `doDial`. -/
def register (t : DialingTransport) (srcConnID : ConnectionID) : DialingTransport :=
  ⟨(t.handlerMap.add srcConnID (.conn t.conns.length)).1,
    t.conns ++ [⟨srcConnID, [srcConnID], false⟩]⟩

/-- `addConnectionID` of a connection. -/
def issue (t : DialingTransport) (number : Nat) (id : ConnectionID) (c : DialedConn) :
    DialingTransport :=
  ⟨(t.handlerMap.add id (.conn number)).1, t.conns.set number { c with active := c.active ++ [id] }⟩

/-- `retireConnectionID` of a connection. -/
def retire (t : DialingTransport) (number : Nat) (id : ConnectionID) (c : DialedConn) :
    DialingTransport :=
  ⟨t.handlerMap.retire id, t.conns.set number { c with active := c.active.filter (· ≠ id) }⟩

def close (t : DialingTransport) (number : Nat) (connClosePacket : Option (List UInt8))
    (c : DialedConn) : DialingTransport :=
  ⟨t.handlerMap.replaceWithClosed c.active connClosePacket,
    t.conns.set number { c with closed := true }⟩

/-- One event.  Only an open connection acts, and it retires what it has registered. -/
def step (t : DialingTransport) : Event → Option DialingTransport
  | .dial srcConnID => some (t.register srcConnID)
  | .issue number id => (t.open? number).map (t.issue number id)
  | .retire number id =>
    (t.open? number).bind fun c => if id ∈ c.active then some (t.retire number id c) else none
  | .close number connClosePacket => (t.open? number).map (t.close number connClosePacket)
  | .fire k => (t.handlerMap.fire k).map fun h => { t with handlerMap := h }

def machine : Machine DialingTransport Event := .ofStep new step

/-- A connection ID is registered while nothing else is known of it. -/
def Fresh (t : DialingTransport) : Event → Prop
  | .dial id | .issue _ id => t.handlerMap.Free id
  | .retire _ _ | .close _ _ | .fire _ => True

instance (t : DialingTransport) (e : Event) : Decidable (t.Fresh e) := by
  cases e <;> unfold Fresh <;> infer_instance

/-! ## Ownership -/

/-- Every ID in use of an open connection leads to it and is not going to be deleted. -/
def Owns (t : DialingTransport) : Prop :=
  ∀ number c, t.open? number = some c → ∀ id ∈ c.active,
    t.handlerMap.get id = some (.conn number) ∧ ∀ ids ∈ t.handlerMap.timers, id ∉ ids

variable {t t' : DialingTransport} {id : ConnectionID} {h : PacketHandlerMap} {number : Nat}
  {c : DialedConn}

theorem open?_eq_some : t.open? number = some c ↔ t.conns[number]? = some c ∧ c.closed = false := by
  rw [open?, filter_eq_some_iff, Bool.not_eq_true']

variable {handlerMap : PacketHandlerMap} {n : Nat} {c' : DialedConn}

/-- The other connections are as they were. -/
theorem open?_set (hn : n ≠ number) :
    (⟨handlerMap, t.conns.set number c⟩ : DialingTransport).open? n = some c' →
      t.open? n = some c' := by
  intro h
  obtain ⟨hget, hopen⟩ := open?_eq_some.mp h
  refine open?_eq_some.mpr ⟨?_, hopen⟩
  rw [← hget]
  exact (List.getElem?_set_ne (Ne.symm hn)).symm

/-- The connection that acted is as it left itself. -/
theorem open?_set_self (h : (⟨handlerMap, t.conns.set number c⟩ :
    DialingTransport).open? number = some c') :
    c' = c ∧ c.closed = false := by
  obtain ⟨hget, hopen⟩ := open?_eq_some.mp h
  obtain ⟨hlt, heq⟩ := List.getElem?_eq_some_iff.mp hget
  have heq : c = c' := by
    rw [← heq]
    exact (getElem_set_self hlt).symm
  subst heq
  exact ⟨rfl, hopen⟩

variable {handler : PacketHandler}

theorem get_add (hfree : h.Free id) (i : ConnectionID) :
    (h.add id handler).1.get i = if i = id then some handler else h.get i := by
  rw [PacketHandlerMap.add, hfree.1]
  rfl

theorem timers_add (h : PacketHandlerMap) (id : ConnectionID) (handler : PacketHandler) :
    (h.add id handler).1.timers = h.timers := by
  rw [PacketHandlerMap.add]
  split <;> rfl

/-- An entry of another connection stays when a free connection ID is added. -/
theorem kept_add {id i : ConnectionID} {found : PacketHandler} (hfree : h.Free id)
    (hi : h.get i = some found ∧ ∀ ids ∈ h.timers, i ∉ ids) :
    (h.add id handler).1.get i = some found ∧ ∀ ids ∈ (h.add id handler).1.timers, i ∉ ids := by
  have hne : i ≠ id := by
    rintro rfl
    have hno : h.get i = none := hfree.1
    rw [hi.1] at hno
    cases hno
  rw [get_add hfree, if_neg hne, timers_add]
  exact hi

/-- The connection ID that was added leads to its handler. -/
theorem added_get (hfree : h.Free id) : (h.add id handler).1.get id = some handler ∧
      ∀ ids ∈ (h.add id handler).1.timers, id ∉ ids := by
  rw [get_add hfree, if_pos rfl, timers_add]
  exact ⟨rfl, hfree.2⟩

theorem owns_new : Owns new := by
  intro number c h
  cases (open?_eq_some.mp h).1

theorem register_owns {srcConnID : ConnectionID} (ho : t.Owns)
    (hfree : t.handlerMap.Free srcConnID) :
    (t.register srcConnID).Owns := by
  intro number c hc id hid
  obtain ⟨hget, hopen⟩ := open?_eq_some.mp hc
  have hget : (t.conns ++ [⟨srcConnID, [srcConnID], false⟩])[number]? = some c := hget
  rcases Nat.lt_trichotomy number t.conns.length with hlt | rfl | hgt
  · rw [List.getElem?_append_left hlt] at hget
    exact kept_add hfree (ho number c (open?_eq_some.mpr ⟨hget, hopen⟩) id hid)
  · rw [List.getElem?_concat_length] at hget
    cases hget
    rw [mem_singleton.mp hid]
    exact added_get hfree
  · rw [List.getElem?_eq_none (by rw [length_append, length_singleton]; exact hgt)] at hget
    cases hget

theorem issue_owns (ho : t.Owns) (hc : t.open? number = some c) (hfree : t.handlerMap.Free id) :
    (t.issue number id c).Owns := by
  intro n c' hc' i hi
  by_cases hn : n = number
  · subst hn
    obtain ⟨rfl, -⟩ := open?_set_self hc'
    rcases mem_append.mp hi with hi | hi
    · exact kept_add hfree (ho n c hc i hi)
    · rw [mem_singleton.mp hi]
      exact added_get hfree
  · exact kept_add hfree (ho n c' (open?_set hn hc') i hi)

/-- The IDs of two open connections are different. -/
theorem Owns.disjoint (ho : t.Owns) (hc : t.open? number = some c) (hc' : t.open? n = some c')
    (hn : n ≠ number)
    (hid : id ∈ c.active) : id ∉ c'.active := by
  intro hid'
  have h := (ho number c hc id hid).1
  rw [(ho n c' hc' id hid').1] at h
  cases h
  exact hn rfl

theorem retire_owns (ho : t.Owns)
    (hc : t.open? number = some c) (hid : id ∈ c.active) : (t.retire number id c).Owns := by
  intro n c' hc' i hi
  have hkept : t.handlerMap.get i = some (.conn n) ∧ (∀ ids ∈ t.handlerMap.timers, i ∉ ids) ∧
      i ≠ id := by
    by_cases hn : n = number
    · subst hn
      obtain ⟨rfl, -⟩ := open?_set_self hc'
      obtain ⟨hi, hne⟩ := mem_filter.mp hi
      obtain ⟨hget, htimers⟩ := ho n c hc i hi
      exact ⟨hget, htimers, of_decide_eq_true hne⟩
    · have hother := open?_set hn hc'
      obtain ⟨hget, htimers⟩ := ho n c' hother i hi
      refine ⟨hget, htimers, ?_⟩
      rintro rfl
      exact ho.disjoint hc hother hn hid hi
  refine ⟨hkept.1, fun ids hids => ?_⟩
  rcases mem_append.mp hids with hids | hids
  · exact hkept.2.1 ids hids
  · rw [mem_singleton.mp hids, mem_singleton]
    exact hkept.2.2

theorem close_owns {connClosePacket : Option (List UInt8)}
    (ho : t.Owns) (hc : t.open? number = some c) : (t.close number connClosePacket c).Owns := by
  intro n c' hc' i hi
  by_cases hn : n = number
  · -- a closed connection owns nothing
    subst hn
    cases (open?_set_self hc').2
  · have hc' := open?_set hn hc'
    obtain ⟨hget, htimers⟩ := ho n c' hc' i hi
    have hnot : i ∉ c.active := ho.disjoint hc' hc (Ne.symm hn) hi
    refine ⟨(if_neg hnot).trans hget, fun ids hids => ?_⟩
    rcases mem_append.mp hids with hids | hids
    · exact htimers ids hids
    · rw [mem_singleton.mp hids]
      exact hnot

theorem fire_owns {k : Nat} (ho : t.Owns)
    (hfire : t.handlerMap.fire k = some h) : Owns { t with handlerMap := h } := by
  obtain ⟨ids, hids, rfl⟩ := map_eq_some_iff.mp hfire
  intro n c hc i hi
  obtain ⟨hget, htimers⟩ := ho n c hc i hi
  have hnot : i ∉ ids := htimers ids (mem_of_getElem? hids)
  refine ⟨(if_neg hnot).trans hget, fun ids' hids' => ?_⟩
  exact htimers ids' (mem_of_mem_eraseIdx hids')

theorem step_owns {e : Event} (ho : t.Owns) (hfresh : t.Fresh e) (hs : t.step e = some t') :
    t'.Owns := by
  cases e with
  | dial srcConnID =>
    cases hs
    exact register_owns ho hfresh
  | issue number id =>
    obtain ⟨c, hc, rfl⟩ := map_eq_some_iff.mp hs
    exact issue_owns ho hc hfresh
  | retire number id =>
    obtain ⟨c, hc, hs⟩ := bind_eq_some_iff.mp hs
    split_ifs at hs with hid
    cases hs
    exact retire_owns ho hc hid
  | close number connClosePacket =>
    obtain ⟨c, hc, rfl⟩ := map_eq_some_iff.mp hs
    exact close_owns ho hc
  | fire k =>
    obtain ⟨h, hfire, rfl⟩ := map_eq_some_iff.mp hs
    exact fire_owns ho hfire

theorem run_owns {tr : List Event} (hrun : (machine.guard Fresh).Run tr t) : t.Owns := by
  refine Machine.Run.stable (I := Owns) ?_ ?_ hrun
  · intro s hs
    cases hs
    exact owns_new
  · intro s e s' ho hstep
    exact step_owns ho hstep.1 hstep.2

/-- **Packets reach the connection that owns the connection ID**, if every connection ID is
registered while it is free. -/
theorem get_srcConnID {tr : List Event} (hrun : (machine.guard Fresh).Run tr t) {number : Nat}
    {c : DialedConn} (hc : t.open? number = some c) (hid : c.srcConnID ∈ c.active) :
    t.handlerMap.get c.srcConnID = some (.conn number) :=
  (run_owns hrun number c hc c.srcConnID hid).1

def connID (bytes : List UInt8) (h : bytes.length ≤ 20) : ConnectionID := ⟨bytes, h⟩

/-- The first connection is closed, and its ID is used again once the deletion is done. -/
def reused : List Event :=
  [.dial (connID [1] (by decide)), .dial (connID [2] (by decide)), .close 0 none, .fire 0,
    .dial (connID [1] (by decide))]

theorem get_srcConnID_reused : ∃ t, (machine.guard Fresh).Run reused t ∧
      t.handlerMap.get (connID [1] (by decide)) = some (.conn 2) := by
  obtain ⟨t, ht⟩ : ∃ t, reused.foldlM (fun t e => if t.Fresh e then t.step e else none) new =
      some t := ⟨_, rfl⟩
  have hrun : (machine.guard Fresh).Run reused t := by
    unfold machine
    rw [Machine.run_guard_iff]
    exact ht
  have hc : t.open? 2 = some ⟨connID [1] (by decide), [connID [1] (by decide)], false⟩ := by
    cases ht
    rfl
  exact ⟨t, hrun, get_srcConnID hrun hc (mem_singleton.mpr rfl)⟩

/-- Two dials with a connection ID of zero length. -/
def dialedTwice : List Event := [.dial (connID [] (by decide)), .dial (connID [] (by decide))]

/-- **The second connection gets no packets**: it is open and has retired nothing, and the first
one is registered for its source connection ID. -/
theorem get_srcConnID_repeated :
    ∃ t c, machine.Run dialedTwice t ∧ t.open? 1 = some c ∧ c.srcConnID ∈ c.active ∧
      t.handlerMap.get c.srcConnID = some (.conn 0) := by
  obtain ⟨t, ht⟩ : ∃ t, dialedTwice.foldlM step new = some t := ⟨_, rfl⟩
  refine ⟨t, ⟨connID [] (by decide), [connID [] (by decide)], false⟩,
    Machine.run_ofStep_iff.mpr ht, ?_, mem_singleton.mpr rfl, ?_⟩
  · cases ht
    rfl
  · cases ht
    rfl

end DialingTransport

end UQuic
