/-
# `UQuic.ReceiveWindows` — all the receive streams of a connection

Streams that share one connection flow controller, with any interleaving of
frames, reads, cancellations and window updates.  The frames need not agree with
each other on the data.

## What is proved

While no stream was accused of exceeding a window (`receive_accounted`):

    Σ highestReceived = highestReceived of the connection
    Σ bytesRead       = bytesRead of the connection
    bytesRead ≤ highestReceived, with equality for a stream reported as completed

A peer that stays within what it was granted is never accused
(`compliant_never_accused`).  What it was granted may also be less than the windows
that are enforced (`compliant_unaccused`).

## How

`Balanced` of the library, twice.  The shares are the two counters of a stream, so
the balance is the accounting; for the second result every controller also has a
window that covers all that was granted (`Windowed`).  A call either moves counters
or widens windows (`ReadEnd.Effect`), and each of the two keeps both.
-/
import UQuic.Lib.Shared
import UQuic.ReceiveAccounting

namespace UQuic.Receivers

open List
open FlowControl

variable {F : FloatOps}

/-- The windows that the flow controllers start with: for a stream by its ID. -/
structure Windows where
  stream : Nat → Int
  maxStream : Nat → Int
  connection : Int
  maxConnection : Int

/-- The connection flow controller, with a log of what `GetWindowUpdate` returned. -/
structure ConnectionEnd where
  flowController : ConnectionFlowController
  granted : List Int

/-- The streams and their connection. -/
abbrev State := Shared ReadEnd ConnectionEnd

/-- A stream is created, with an ID and a send window; a stream is called; or the
connection is asked for a window update. -/
abbrev Event := Shared.Event (Nat × Int) ReadEnd.Call Tuning

/-- `newFlowController` and `newReceiveStream`. -/
def makeStream (w : Windows) (a : Nat × Int) : ReadEnd :=
  .new (.new a.1 (w.stream a.1) (w.maxStream a.1) a.2)

/-- A call to a stream, which reports to the connection. -/
def callStream (F : FloatOps) (e : ReadEnd) (c : ConnectionEnd) (call : ReadEnd.Call) :
    Option (ReadEnd × ConnectionEnd) :=
  (e.call F c.flowController call).map fun (e', conn') => (e', { c with flowController := conn' })

/-- `GetWindowUpdate` of the connection. -/
def getWindowUpdate (F : FloatOps) (c : ConnectionEnd) (t : Tuning) : ConnectionEnd :=
  let r := c.flowController.getWindowUpdate F t
  ⟨r.1, c.granted ++ [r.2]⟩

def calls (F : FloatOps) (w : Windows) :
    Shared.Calls ReadEnd ConnectionEnd (Nat × Int) ReadEnd.Call Tuning where
  make := makeStream w
  part := callStream F
  whole c t := some (getWindowUpdate F c t)

def start (w : Windows) : ConnectionEnd := ⟨.new w.connection w.maxConnection, []⟩

def machine (F : FloatOps) (w : Windows) : Machine State Event :=
  Shared.machine (calls F w) (start w)

variable {w : Windows} {s s' : State} {e e' : ReadEnd} {c : ConnectionEnd} {call : ReadEnd.Call}
  {c' : ConnectionEnd}

theorem callStream_eq (h : callStream F e c call = some (e', c')) :
    e.call F c.flowController call = some (e', c'.flowController) ∧ c'.granted = c.granted := by
  obtain ⟨⟨e₁, conn₁⟩, hcall, heq⟩ := Option.map_eq_some_iff.mp h
  cases heq
  exact ⟨hcall, rfl⟩

/-! ## The accounts -/

/-- The counters of a stream, -/
def share (e : ReadEnd) : Int × Int := (e.stream.highestReceived, e.stream.bytesRead)

/-- and those of the connection. -/
def sum (c : ConnectionEnd) : Int × Int :=
    (c.flowController.highestReceived, c.flowController.bytesRead)

/-- A call moves a stream's counters and the connection's by the same amounts. -/
theorem effect_moves (h : ReadEnd.Effect F e e' c.flowController c'.flowController) :
    share e' - share e = sum c' - sum c := by
  rcases h with ⟨hmoved, -⟩ | ⟨t, offset, heq, -⟩
  · exact Prod.ext hmoved.highest hmoved.read
  · obtain ⟨hstream, hconn, -⟩ :=
      e.stream.flowController.widens_getWindowUpdate F c.flowController t
    rw [heq] at hstream hconn
    have hconn : Widens c.flowController c'.flowController 0 := hconn
    have h₁ : share e' = share e := by
      rw [share, ReceiveStream.highestReceived, ReceiveStream.bytesRead, hstream.rest]
      rfl
    have h₂ : sum c' = sum c := by
      rw [sum, hconn.rest]
      rfl
    rw [h₁, h₂, sub_self, sub_self]

/-- No stream was accused. -/
def Unaccused (s : State) : Prop := ∀ e ∈ s.parts, e.Unaccused

/-- The accounts of a connection. -/
abbrev Accounts (s : State) : Prop := Shared.Balanced ReadEnd.Accounted (fun _ => True) share sum s

theorem accounted_makeStream (w : Windows) (a : Nat × Int) : (makeStream w a).Accounted :=
  ReadEnd.accounted_new _ rfl rfl

/-- What was logged stays in the log. -/
theorem unaccused_of_call {conn conn' : ConnectionFlowController}
    (h : e.call F conn call = some (e', conn')) (hok : e'.Unaccused) : e.Unaccused := by
  obtain ⟨errs, heq, -⟩ := ReadEnd.call_errors h
  exact fun err hmem => hok err (heq ▸ mem_append_left errs hmem)

/-- **One step** keeps the accounts, if it accuses nobody. -/
theorem step_accounts {ev : Event} (ih : Unaccused s → Accounts s)
    (hstep : Shared.step (calls F w) s ev = some s') (hok : Unaccused s') : Accounts s' := by
  cases ev with
  | create a =>
    cases hstep
    exact (ih fun e he => hok e (mem_append_left _ he)).create (accounted_makeStream w a) rfl
  | part i call =>
    obtain ⟨e, e', c', hi, hcall, rfl⟩ := Shared.step_part hstep
    obtain ⟨hcall, -⟩ := callStream_eq hcall
    have hb := ih (Shared.forall_of_set hi hok (unaccused_of_call hcall))
    have hok' := hok e' (mem_set (List.getElem?_eq_some_iff.mp hi).1 e')
    obtain ⟨ha, heffect⟩ := (hb.mem hi).call hcall hok'
    exact hb.part hi ha trivial (effect_moves heffect)
  | whole t =>
    cases hstep
    have hwidens := s.whole.flowController.widens_getWindowUpdate F t
    refine (ih hok).other trivial ?_
    show ((s.whole.flowController.getWindowUpdate F t).1.highestReceived,
      (s.whole.flowController.getWindowUpdate F t).1.bytesRead) = sum s.whole
    rw [hwidens.rest]
    rfl

theorem run_accounts {tr : List Event} (hrun : (machine F w).Run tr s) (hok : Unaccused s) :
    Accounts s := by
  refine Machine.Run.stable (I := fun s => Unaccused s → Accounts s) ?_ ?_ hrun hok
  · rintro s rfl -
    exact .empty trivial rfl
  · intro s ev s' ih hstep hok
    exact step_accounts ih hstep hok

/-- **The accounts of a connection.**  After any calls in which no stream was accused of
exceeding a window, the connection's counters are the sums of the streams' counters, and
a stream that was reported as completed has returned all of its credit. -/
theorem receive_accounted {tr : List Event} (hrun : (machine F w).Run tr s) (hok : Unaccused s) :
    Shared.total (fun e => e.stream.highestReceived) s = s.whole.flowController.highestReceived ∧
      Shared.total (fun e => e.stream.bytesRead) s = s.whole.flowController.bytesRead ∧
      ∀ e ∈ s.parts, e.stream.bytesRead ≤ e.stream.highestReceived ∧
        (e.reported = true → e.stream.bytesRead = e.stream.highestReceived) := by
  have hb := run_accounts hrun hok
  refine ⟨?_, ?_, fun e he => ?_⟩
  · calc Shared.total (fun e => e.stream.highestReceived) s = (Shared.total share s).1 :=
          (Shared.total_map (g := share) (AddMonoidHom.fst Int Int)).symm
      _ = s.whole.flowController.highestReceived := congrArg Prod.fst hb.balance
  · calc Shared.total (fun e => e.stream.bytesRead) s = (Shared.total share s).2 :=
          (Shared.total_map (g := share) (AddMonoidHom.snd Int Int)).symm
      _ = s.whole.flowController.bytesRead := congrArg Prod.snd hb.balance
  · have ha := hb.parts e he
    exact ⟨ha.sound.bytesRead_le, fun h => (ha.reported h).2⟩

def hundred : Windows := ⟨fun _ => 100, fun _ => 100, 100, 100⟩

/-- Two streams.  The first is cancelled after two of its three bytes, and its FIN comes
late; the second is reset before anything is read. -/
def cancelledAndReset : List Event :=
  [.create (0, 0), .create (4, 0),
    .part 0 (.streamFrame ⟨⟨0, 0, [1, 2, 3], false, true⟩, 0, by decide⟩), .part 0 (.read 2),
    .part 1 (.streamFrame ⟨⟨4, 0, [1, 2, 3, 4], false, true⟩, 1, by decide⟩),
    .part 0 (.cancelRead 7), .part 1 (.resetStreamFrame ⟨8, 6, by decide⟩), .part 1 (.read 1),
    .part 0 (.streamFrame ⟨⟨0, 3, [4, 5], true, true⟩, 2, by decide⟩), .part 0 .abandon]

def afterCancelledAndReset : State :=
  (cancelledAndReset.foldlM (Shared.step (calls .exact hundred)) ⟨[], start hundred⟩).getD
    ⟨[], start hundred⟩

theorem receive_accounted_cancelledAndReset :
    (machine .exact hundred).Run cancelledAndReset afterCancelledAndReset ∧
      afterCancelledAndReset.parts.map (·.reported) = [true, true] ∧
      Shared.total (fun e => e.stream.bytesRead) afterCancelledAndReset = 11 ∧
      afterCancelledAndReset.whole.flowController.bytesRead = 11 := by
  have hrun : (machine .exact hundred).Run cancelledAndReset afterCancelledAndReset :=
    Machine.run_ofStep_iff.mpr rfl
  have hok : Unaccused afterCancelledAndReset := by
    have herr : ∀ e ∈ afterCancelledAndReset.parts, e.errors = [] := by decide
    intro e he err hmem
    rw [herr e he] at hmem
    exact absurd hmem not_mem_nil
  have hread := (receive_accounted hrun hok).2.1
  exact ⟨hrun, rfl, hread.trans rfl, rfl⟩

/-! ## A compliant peer -/

/-- `x` is at most the largest of the initial window and the windows granted since;
`GetWindowUpdate` returns 0 for no update. -/
def Allowed (initial : Int) (granted : List Int) (x : Int) : Prop :=
  x ≤ initial ∨ ∃ window ∈ granted, window ≠ 0 ∧ x ≤ window

instance (initial : Int) (granted : List Int) (x : Int) : Decidable (Allowed initial granted x) :=
  inferInstanceAs (Decidable (_ ∨ _))

/-- The initial windows as the peer knows them. -/
structure Advertised where
  stream : Nat → Int
  connection : Int

/-- What the highest offsets add up to when a stream gets data up to `offset`. -/
def highestWith (s : State) (e : ReadEnd) (offset : Int) : Int :=
  Shared.total (fun e => e.stream.highestReceived) s +
    (max e.stream.highestReceived offset - e.stream.highestReceived)

/-- The peer sends a frame only as far as the windows allow. -/
def Compliant (a : Advertised) (s : State) : Event → Prop
  | .part i call => ∀ offset ∈ call.offset?, ∀ e ∈ s.parts[i]?,
      Allowed (a.stream e.stream.flowController.streamID) e.granted offset ∧
        Allowed a.connection s.whole.granted (highestWith s e offset)
  | _ => True

instance (a : Advertised) (s : State) : (ev : Event) → Decidable (Compliant a s ev)
  | .part i call => inferInstanceAs (Decidable (∀ offset ∈ call.offset?, ∀ e ∈ s.parts[i]?, _))
  | .create _ => .isTrue trivial
  | .whole _ => .isTrue trivial

/-- A flow controller honours its initial window and all it has granted since.  What was
read and the size of the window cover the window, so no update lowers it.  A negative window is
as good as none: no offset is below zero. -/
structure Windowed (initial : Int) (granted : List Int) (c : BaseFlowController) : Prop where
  credited : c.receiveWindow ≤ c.bytesRead + c.receiveWindowSize
  initial : initial ≤ max 0 c.receiveWindow
  granted : ∀ window ∈ granted, window ≠ 0 → window ≤ c.receiveWindow

namespace Windowed

variable {initial x offset : Int} {granted : List Int} {b b' : BaseFlowController}

variable (h : Windowed initial granted b)

include h

theorem allowed (hx : Allowed initial granted x) : x ≤ max 0 b.receiveWindow := by
  rcases hx with hx | ⟨window, hmem, hne, hx⟩
  · exact hx.trans h.initial
  · exact (hx.trans (h.granted window hmem hne)).trans (le_max_right _ _)

theorem counters
    (hrest : b' = { b with bytesRead := b'.bytesRead, highestReceived := b'.highestReceived })
    (hmono : b.bytesRead ≤ b'.bytesRead) : Windowed initial granted b' := by
  have hwindow : b'.receiveWindow = b.receiveWindow := by rw [hrest]
  have hsize : b'.receiveWindowSize = b.receiveWindowSize := by rw [hrest]
  have hcredited := h.credited
  exact ⟨by omega, hwindow ▸ h.initial, hwindow ▸ h.granted⟩

theorem widens (hw : Widens b b' offset) : Windowed initial (granted ++ [offset]) b' := by
  have hread : b'.bytesRead = b.bytesRead := by rw [hw.rest]
  have hsize := hw.size
  have hcredited := h.credited
  have hle : b.receiveWindow ≤ b'.receiveWindow := by
    rcases hw.window with ⟨hsame, -⟩ | ⟨hnew, -⟩ <;> omega
  refine ⟨?_, h.initial.trans (max_le_max_left 0 hle), fun window hmem hne => ?_⟩
  · rcases hw.window with ⟨hsame, -⟩ | ⟨hnew, -⟩ <;> omega
  · rcases mem_append.mp hmem with hmem | hmem
    · exact (h.granted window hmem hne).trans hle
    · rw [mem_singleton.mp hmem] at hne ⊢
      rcases hw.window with ⟨-, hz⟩ | ⟨-, heq⟩
      · exact absurd hz hne
      · exact heq.le

/-- A log may be forgotten in part. -/
theorem sub {granted' : List Int} (hsub : granted' ⊆ granted) : Windowed initial granted' b :=
  ⟨h.credited, h.initial, fun window hmem => h.granted window (hsub hmem)⟩

end Windowed

/-- What holds of a stream whose peer is compliant. -/
structure Honoured (a : Advertised) (e : ReadEnd) : Prop where
  accounted : e.Accounted
  unaccused : e.Unaccused
  windowed : Windowed (a.stream e.stream.flowController.streamID) e.granted
    e.stream.flowController.base

def HonouredConn (a : Advertised) (c : ConnectionEnd) : Prop :=
  Windowed a.connection c.granted c.flowController

/-- The invariant of a connection whose peer is compliant. -/
abbrev Honours (a : Advertised) (s : State) : Prop :=
  Shared.Balanced (Honoured a) (HonouredConn a) share sum s

variable {a : Advertised}

/-- A call keeps both windows. -/
theorem effect_windowed (hstream : Windowed (a.stream e.stream.flowController.streamID) e.granted
      e.stream.flowController.base) (hconn : HonouredConn a c) (hgranted : c'.granted = c.granted)
    (h : ReadEnd.Effect F e e' c.flowController c'.flowController) :
    Windowed (a.stream e'.stream.flowController.streamID) e'.granted
      e'.stream.flowController.base ∧ HonouredConn a c' := by
  rcases h with ⟨hmoved, hsame⟩ | ⟨t, offset, heq, hlog⟩
  · rw [hmoved.streamID, hsame, HonouredConn, hgranted]
    have hmono := hmoved.mono
    have hread := hmoved.read
    exact ⟨hstream.counters hmoved.stream hmono, hconn.counters hmoved.whole (by omega)⟩
  · obtain ⟨hwidens, hconn', -, hid⟩ :=
      e.stream.flowController.widens_getWindowUpdate F c.flowController t
    rw [heq] at hwidens hconn' hid
    have hid : e'.stream.flowController.streamID = e.stream.flowController.streamID := hid
    rw [hid, hlog, HonouredConn, hgranted]
    exact ⟨hstream.widens hwidens, (hconn.widens hconn').sub (subset_append_left _ _)⟩

/-- **A compliant call accuses nobody.** -/
theorem call_unaccused {conn conn' : ConnectionFlowController}
    (hok : e.Unaccused) (h : e.call F conn call = some (e', conn'))
    (hhighest : 0 ≤ e.stream.highestReceived) (hwhole : 0 ≤ conn.highestReceived)
    (hstream : ∀ offset ∈ call.offset?,
      (offset : Int) ≤ max 0 e.stream.flowController.base.receiveWindow)
    (hconn : ∀ offset ∈ call.offset?, conn.highestReceived +
      (max e.stream.highestReceived offset - e.stream.highestReceived) ≤ max 0 conn.receiveWindow) :
    e'.Unaccused := by
  obtain ⟨errs, heq, hwhy⟩ := ReadEnd.call_errors h
  intro err hmem hcode
  rw [heq] at hmem
  rcases mem_append.mp hmem with hmem | hmem
  · exact hok err hmem hcode
  · obtain ⟨offset, hoff, final, herr⟩ := hwhy err hmem
    have hr : Received e.stream.flowController conn offset final
        (e.stream.flowController.updateHighestReceived conn offset final) :=
      StreamFlowController.received_updateHighestReceived
    obtain ⟨hlt, hover⟩ := hr.accused ⟨err, herr, hcode⟩
    have hlt : e.stream.highestReceived < offset := hlt
    have hallowed := hstream offset hoff
    have htotal := hconn offset hoff
    rw [max_eq_right hlt.le] at htotal
    -- What is accused lies above what was received, so above zero.
    rcases hover with hover | hover
    · have hover : e.stream.flowController.base.receiveWindow < (offset : Int) := hover
      omega
    · have hover : conn.receiveWindow <
          conn.highestReceived + (offset - e.stream.highestReceived) := hover
      omega

/-- The highest offsets add up to what the connection has counted. -/
theorem Honours.highest (hb : Honours a s) :
    Shared.total (fun e => e.stream.highestReceived) s = s.whole.flowController.highestReceived :=
  (Shared.total_map (g := share) (AddMonoidHom.fst Int Int)).symm.trans
    (congrArg Prod.fst hb.balance)

theorem Honoured.highest_nonneg (h : Honoured a e) : 0 ≤ e.stream.highestReceived :=
  (Int.natCast_nonneg _).trans h.accounted.sound.readPos

theorem Honours.highest_nonneg (hb : Honours a s) : 0 ≤ s.whole.flowController.highestReceived := by
  rw [← hb.highest]
  refine sum_nonneg fun x hx => ?_
  obtain ⟨e, he, rfl⟩ := mem_map.mp hx
  exact (hb.parts e he).highest_nonneg

/-- **One compliant step.** -/
theorem step_honours {ev : Event} (hstream : ∀ id, a.stream id ≤ max 0 (w.stream id))
    (hb : Honours a s)
    (hc : Compliant a s ev) (hstep : Shared.step (calls F w) s ev = some s') : Honours a s' := by
  cases ev with
  | create id =>
    cases hstep
    refine hb.create ⟨accounted_makeStream w id, fun _ h => absurd h not_mem_nil, ?_⟩ rfl
    exact ⟨Int.le_of_eq (Int.zero_add _).symm, hstream id.1, fun _ h => absurd h not_mem_nil⟩
  | part i call =>
    obtain ⟨e, e', c', hi, hcall, rfl⟩ := Shared.step_part hstep
    obtain ⟨hcall, hgranted⟩ := callStream_eq hcall
    obtain ⟨ha, hok, hwindowed⟩ := hb.mem hi
    have hok' : e'.Unaccused := by
      refine call_unaccused hok hcall (hb.mem hi).highest_nonneg hb.highest_nonneg
        (fun offset hoff => ?_) (fun offset hoff => ?_)
      · exact hwindowed.allowed (hc offset hoff e hi).1
      · have hallowed := hb.whole.allowed (hc offset hoff e hi).2
        rw [highestWith, hb.highest] at hallowed
        exact hallowed
    obtain ⟨ha', heffect⟩ := ha.call hcall hok'
    obtain ⟨hwindowed', hwhole'⟩ := effect_windowed hwindowed hb.whole hgranted heffect
    exact hb.part hi ⟨ha', hok', hwindowed'⟩ hwhole' (effect_moves heffect)
  | whole t =>
    cases hstep
    have hwidens := s.whole.flowController.widens_getWindowUpdate F t
    refine hb.other (hb.whole.widens hwidens) ?_
    show ((s.whole.flowController.getWindowUpdate F t).1.highestReceived,
      (s.whole.flowController.getWindowUpdate F t).1.bytesRead) = sum s.whole
    rw [hwidens.rest]
    rfl

/-- A peer that stays within windows no larger than those enforced is never accused. -/
theorem compliant_unaccused (hstream : ∀ id, a.stream id ≤ max 0 (w.stream id))
    (hconn : a.connection ≤ max 0 w.connection) {tr : List Event}
    (hrun : ((machine F w).guard (Compliant a)).Run tr s) : Unaccused s := by
  have hb : Honours a s := by
    refine Machine.Run.stable (I := Honours a) ?_ ?_ hrun
    · rintro s rfl
      exact .empty ⟨Int.le_of_eq (Int.zero_add _).symm, hconn, fun _ h => absurd h not_mem_nil⟩
        rfl
    · rintro s ev s' hb ⟨hc, hstep⟩
      exact step_honours hstream hb hc hstep
  exact fun e he => (hb.parts e he).unaccused

/-- The windows as they are enforced. -/
def Windows.advertised (w : Windows) : Advertised := ⟨w.stream, w.connection⟩

/-- **A compliant peer is never accused.**  With any streams, calls and window updates: if
every frame stays within the largest window granted so far, for its stream and for the
connection, no `UpdateHighestReceived` returns FLOW_CONTROL_ERROR. -/
theorem compliant_never_accused {tr : List Event}
    (hrun : ((machine F w).guard (Compliant w.advertised)).Run tr s) :
    ∀ e ∈ s.parts, ∀ err ∈ e.errors, err.errorCode ≠ .flowControlError :=
  compliant_unaccused (fun _ => le_max_right _ _) (le_max_right _ _) hrun

/-- Windows of four bytes, for every stream and for the connection. -/
def four : Windows := ⟨fun _ => 4, fun _ => 8, 4, 8⟩

/-- The peer uses up both windows, and then what it is granted. -/
def usesUpdates : List Event :=
  [.create (0, 0), .part 0 (.streamFrame ⟨⟨0, 0, [1, 2, 3, 4], false, true⟩, 0, by decide⟩),
    .part 0 (.read 4), .part 0 (.getWindowUpdate ⟨true, true⟩), .whole ⟨false, true⟩,
    .part 0 (.streamFrame ⟨⟨0, 4, [5, 6, 7], false, true⟩, 1, by decide⟩)]

def afterUsesUpdates : State :=
  (usesUpdates.foldlM (Shared.step (calls .exact four)) ⟨[], start four⟩).getD ⟨[], start four⟩

theorem compliant_never_accused_usesUpdates :
    ((machine .exact four).guard (Compliant four.advertised)).Run usesUpdates afterUsesUpdates ∧
      afterUsesUpdates.parts.map (·.stream.highestReceived) = [7] ∧
      ∀ e ∈ afterUsesUpdates.parts, ∀ err ∈ e.errors, err.errorCode ≠ .flowControlError := by
  have hrun : ((machine .exact four).guard (Compliant four.advertised)).Run usesUpdates
      afterUsesUpdates := by
    rw [machine, Shared.machine, Machine.run_guard_iff]
    rfl
  exact ⟨hrun, rfl, compliant_never_accused hrun⟩

end UQuic.Receivers
