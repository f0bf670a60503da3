/-
# `UQuic.RetirePriorTo` — which frames make the manager give up connection IDs

A NEW_CONNECTION_ID frame may ask to retire every number below its
`RetirePriorTo`.  `add` looks at the frame's own number first:

    below the active number, one on a path,      a RETIRE_CONNECTION_ID frame for
    or one the peer asked to retire              this number, and nothing else
    otherwise                                    paths, queue and active number
                                                 are cleared up to RetirePriorTo

In the first case the request is not read.  A peer whose requests grow with the
numbers has made it before, with the higher number; the parser does not ask for
that.

## What is proved

`retirePriorTo_honoured_iff`: from every reachable state, an `Add` leaves no number
below `RetirePriorTo` in use, and has retired all that were, iff it is of the second
kind or no number below was in use.  It needs only that the queue ascends above the
active number and the numbers retired (`Ascending`), which every operation keeps, also
for repeated frames.
-/
import UQuic.ConnIDManager

namespace UQuic.ConnIDManager

open List

variable {h h' : ConnIDManager} {f : NewConnectionIDFrame}
  {rnd : Fin UQuic.packetsPerConnectionID}

/-- The queue ascends, above the active number and what the peer asked to retire. -/
structure Ascending (h : ConnIDManager) : Prop where
  sorted : h.queued.Pairwise (· < ·)
  above : ∀ q ∈ h.queued, h.activeSequenceNumber < q ∧ h.highestRetired ≤ q

/-- `add` gives the number of the frame back and reads no further. -/
def GivesBack (h : ConnIDManager) (f : NewConnectionIDFrame) : Prop :=
  f.sequenceNumber < max h.activeSequenceNumber h.highestProbingID ∨
    f.sequenceNumber < h.highestRetired

instance (h : ConnIDManager) (f : NewConnectionIDFrame) : Decidable (h.GivesBack f) :=
  instDecidableOr

/-! ## The queue ascends -/

theorem ascending_new (initialDestConnID : List UInt8) (limit : Nat) :
    (new initialDestConnID limit).Ascending where
  sorted := .nil
  above := forall_mem_nil _

theorem Ascending.of_eq (ha : h.Ascending) (hq : h'.queue = h.queue)
    (hact : h'.activeSequenceNumber = h.activeSequenceNumber)
    (hret : h'.highestRetired = h.highestRetired) : h'.Ascending := by
  have hqueued : h'.queued = h.queued := by rw [queued, hq, queued]
  constructor
  · rw [hqueued]
    exact ha.sorted
  · rw [hqueued, hact, hret]
    exact ha.above

theorem Ascending.retireProbing (ha : h.Ascending) (r : Nat) : (h.retireProbing r).Ascending := by
  obtain ⟨hact, -, hret, hq⟩ := retireProbing_frame h r
  exact ha.of_eq hq hact hret

theorem queued_retireQueued (hlt : h.highestRetired < f.retirePriorTo) :
    (h.retireQueued f.retirePriorTo).queued = h.queued.dropWhile (· < f.retirePriorTo) := by
  rw [ConnIDManager.retireQueued, if_pos hlt, queued, queued, dropWhile_map]
  rfl

theorem retired_retireQueued (hlt : h.highestRetired < f.retirePriorTo) :
    (h.retireQueued f.retirePriorTo).retired =
      h.retired ++ h.queued.takeWhile (· < f.retirePriorTo) := by
  rw [ConnIDManager.retireQueued, if_pos hlt, queued, takeWhile_map]
  exact retired_retire h _

/-- The queue is at least `RetirePriorTo` after the loop, also where the loop is skipped. -/
theorem Ascending.retireQueued (ha : h.Ascending) : (h.retireQueued f.retirePriorTo).Ascending ∧
      ∀ q ∈ (h.retireQueued f.retirePriorTo).queued, f.retirePriorTo ≤ q := by
  obtain ⟨hact, -, hret, -⟩ := retireQueued_frame h f.retirePriorTo
  by_cases hlt : h.highestRetired < f.retirePriorTo
  · have hle : ∀ q ∈ (h.retireQueued f.retirePriorTo).queued, f.retirePriorTo ≤ q := by
      intro q hq
      rw [queued_retireQueued hlt] at hq
      exact le_of_mem_dropWhile ha.sorted hq
    refine ⟨⟨?_, ?_⟩, hle⟩
    · rw [queued_retireQueued hlt]
      exact ha.sorted.sublist (dropWhile_sublist _)
    · intro q hq
      have hr := hle q hq
      rw [queued_retireQueued hlt] at hq
      obtain ⟨ha', hr'⟩ := ha.above q ((dropWhile_sublist _).subset hq)
      rw [hact, hret]
      exact ⟨ha', Nat.max_le.mpr ⟨hr', hr⟩⟩
  · have heq : h.retireQueued f.retirePriorTo = h := if_neg hlt
    rw [heq]
    refine ⟨ha, fun q hq => ?_⟩
    exact (Nat.not_lt.mp hlt).trans (ha.above q hq).2

theorem Ascending.updateConnectionID (ha : h.Ascending)
    (hs : h.updateConnectionID rnd = some h') : h'.Ascending := by
  obtain ⟨front, rest, hq, hq', hact, -, hret, -, -⟩ := updateConnectionID_some hs
  have hqueued := queued_cons hq
  have hsorted := ha.sorted
  rw [hqueued, pairwise_cons] at hsorted
  have hqueued' : h'.queued = rest.map (·.sequenceNumber) := by rw [queued, hq']
  constructor
  · rw [hqueued']
    exact hsorted.2
  · intro q hmem
    rw [hqueued'] at hmem
    have hmem' : q ∈ h.queued := by
      rw [hqueued]
      exact mem_cons_of_mem _ hmem
    obtain ⟨ha', hr'⟩ := ha.above q hmem'
    rw [hact, hret]
    exact ⟨hsorted.1 q hmem, Nat.max_le.mpr ⟨hr', ha'.le⟩⟩

/-- A number above the active one and what is retired may enter the queue. -/
theorem Ascending.addConnectionID {c : NewConnID} (ha : h.Ascending)
    (hc : h.activeSequenceNumber < c.sequenceNumber ∧ h.highestRetired ≤ c.sequenceNumber)
    (hok : h.addConnectionID c = .ok h') : h'.Ascending := by
  obtain ⟨heq, hsorted, hmem⟩ := addConnectionID_ok ha.sorted hok
  refine ⟨hsorted, fun q hq => ?_⟩
  rw [heq]
  rcases (hmem q).mp hq with hq | rfl
  · exact ha.above q hq
  · exact hc

/-! ## What an `Add` did -/

def From (h : ConnIDManager) (r : Nat) : Prop := ∀ n ∈ h.inUse, r ≤ n

theorem from_iff {r : Nat} : h.From r ↔ r ≤ h.activeSequenceNumber ∧ (∀ q ∈ h.queued, r ≤ q) ∧
    ∀ p ∈ h.onPath, r ≤ p := by
  rw [From, inUse, forall_mem_cons, forall_mem_append]

section

variable (ha : h.Ascending)

include ha

theorem insertAndUpdate_from
    (hc : h.activeSequenceNumber < f.sequenceNumber ∧ h.highestRetired ≤ f.sequenceNumber)
    (hq : ∀ q ∈ h.queued, f.retirePriorTo ≤ q) (hok : h.insertAndUpdate f rnd = .ok h') :
    h'.Ascending ∧ f.retirePriorTo ≤ h'.activeSequenceNumber ∧
      (∀ q ∈ h'.queued, f.retirePriorTo ≤ q) ∧ h'.onPath = h.onPath ∧
      (∀ s ∈ h.retired, s ∈ h'.retired) ∧
      (h.activeSequenceNumber < f.retirePriorTo → h.activeSequenceNumber ∈ h'.retired) := by
  obtain ⟨-, hpath, hretired⟩ := insertAndUpdate_ok ha.sorted hok
  obtain ⟨h₁, hadd, hend⟩ := insertAndUpdate_eq_ok hok
  have ha₁ := ha.addConnectionID hc hadd
  obtain ⟨heq, -, hmem⟩ := addConnectionID_ok ha.sorted hadd
  have hact₁ : h₁.activeSequenceNumber = h.activeSequenceNumber := by rw [heq]
  have hq₁ : ∀ q ∈ h₁.queued, f.retirePriorTo ≤ q := by
    intro q hmem'
    rcases (hmem q).mp hmem' with hmem' | rfl
    · exact hq q hmem'
    · exact f.retire_le
  rcases hend with hup | ⟨hkeep, rfl⟩
  · obtain ⟨front, rest, hqueue, hrest, hact, -, -, -, hret⟩ := updateConnectionID_some hup
    rw [queued_cons hqueue, forall_mem_cons] at hq₁
    refine ⟨ha₁.updateConnectionID hup, ?_, ?_, hpath, hretired, fun _ => ?_⟩
    · rw [hact]
      exact hq₁.1
    · rw [queued, hrest]
      exact hq₁.2
    · rw [hret, hact₁]
      exact mem_append_right _ (mem_singleton.mpr rfl)
  · refine ⟨ha₁, hkeep, hq₁, hpath, hretired, fun hlt => ?_⟩
    rw [hact₁] at hkeep
    exact absurd hlt (Nat.not_lt.mpr hkeep)

/-- The loops of `add` retire what is below `RetirePriorTo` on a path or in the queue. -/
theorem mem_retired_of_below {n : Nat} (hn : n ∈ h.queued ++ h.onPath) (hlt : n < f.retirePriorTo) :
    n ∈ ((h.retireProbing f.retirePriorTo).retireQueued f.retirePriorTo).retired := by
  obtain ⟨-, -, hret, hq⟩ := retireProbing_frame h f.retirePriorTo
  have hqueued : (h.retireProbing f.retirePriorTo).queued = h.queued := by rw [queued, hq, queued]
  rcases mem_append.mp hn with hn | hn
  · have hmark : (h.retireProbing f.retirePriorTo).highestRetired < f.retirePriorTo := by
      rw [hret]
      exact Nat.lt_of_le_of_lt (ha.above n hn).2 hlt
    rw [retired_retireQueued hmark, hqueued]
    refine mem_append_right _ ?_
    rw [← takeWhile_append_dropWhile (p := (· < f.retirePriorTo)) (l := h.queued)] at hn
    rcases mem_append.mp hn with hn | hn
    · simpa using hn
    · exact absurd hlt (Nat.not_lt.mpr (le_of_mem_dropWhile ha.sorted (by simpa using hn)))
  · have hprobing : n ∈ (h.retireProbing f.retirePriorTo).retired := by
      rw [retireProbing_retired]
      exact mem_append_right _ (mem_filter.mpr ⟨hn, decide_eq_true hlt⟩)
    by_cases hmark : (h.retireProbing f.retirePriorTo).highestRetired < f.retirePriorTo
    · rw [retired_retireQueued hmark]
      exact mem_append_left _ hprobing
    · rw [ConnIDManager.retireQueued, if_neg hmark]
      exact hprobing

/-- **What an `Add` did that read the request**: nothing below it is in use, and all that was
is retired. -/
theorem addFrame_from (hback : ¬ h.GivesBack f) (hok : h.addFrame f rnd = .ok h') :
    h'.Ascending ∧ h'.From f.retirePriorTo ∧
      ∀ n ∈ h.inUse, n < f.retirePriorTo → n ∈ h'.retired := by
  rcases addFrame_ok hok with ⟨hlow, -⟩ | ⟨hhigh, hnew⟩
  · refine absurd ?_ hback
    unfold GivesBack
    omega
  · obtain ⟨hact₁, -, hret₁, -⟩ := retireProbing_frame h f.retirePriorTo
    obtain ⟨hact₂, -, hret₂, hpath₂⟩ :=
      retireQueued_frame (h.retireProbing f.retirePriorTo) f.retirePriorTo
    obtain ⟨ha₂, hq₂⟩ := (ha.retireProbing f.retirePriorTo).retireQueued (f := f)
    have hbelow := fun n hn hlt => mem_retired_of_below (f := f) ha (n := n) hn hlt
    have hpath : ∀ p ∈ ((h.retireProbing f.retirePriorTo).retireQueued f.retirePriorTo).onPath,
        f.retirePriorTo ≤ p := by
      intro p hp
      rw [hpath₂, retireProbing_onPath, mem_filter] at hp
      exact Nat.not_lt.mp (of_decide_eq_true hp.2)
    have hle := f.retire_le
    simp only [addNew] at hnew
    split at hnew
    · -- the frame repeats the active number, which is not below its own request
      rename_i heq
      cases hnew
      refine ⟨ha₂, from_iff.mpr ⟨?_, hq₂, hpath⟩, ?_⟩
      · rw [← heq]
        exact hle
      · intro n hn hlt
        rcases mem_cons.mp hn with rfl | hn
        · omega
        · exact hbelow n hn hlt
    · rename_i hne
      obtain ⟨ha', hact', hq', hpath', hretired, hactive⟩ :=
        insertAndUpdate_from ha₂ ⟨by omega, by omega⟩ hq₂ hnew
      refine ⟨ha', from_iff.mpr ⟨hact', hq', ?_⟩, ?_⟩
      · rw [hpath']
        exact hpath
      · intro n hn hlt
        rcases mem_cons.mp hn with rfl | hn
        · rw [hact₂, hact₁] at hactive
          exact hactive hlt
        · exact hretired n (hbelow n hn hlt)

/-! ## Whole runs -/

theorem addFrame_ascending (hok : h.addFrame f rnd = .ok h') : h'.Ascending := by
  by_cases hback : h.GivesBack f
  · rcases addFrame_ok hok with ⟨-, rfl⟩ | ⟨hhigh, -⟩
    · exact ha.of_eq rfl rfl rfl
    · unfold GivesBack at hback
      omega
  · exact (addFrame_from ha hback hok).1

theorem step_ascending {op : Op} (hs : h.step op = some h') : h'.Ascending := by
  rcases step_cases hs with ⟨f, rnd, -, hadd⟩ | ⟨rnd, hup⟩ | ⟨id, c, -, hget⟩ | ⟨id, -, hret⟩ | heq
  · exact addFrame_ascending ha hadd
  · exact ha.updateConnectionID hup
  · rcases getConnIDForPath_cases hget with rfl | ⟨front, rest, -, hq, -, rfl⟩
    · exact ha
    · have hsorted := ha.sorted
      have habove := ha.above
      rw [queued_cons hq] at hsorted habove
      exact ⟨(pairwise_cons.mp hsorted).2, (forall_mem_cons.mp habove).2⟩
  · rcases retireConnIDForPath_cases hret with ⟨rfl, -⟩ | ⟨entry, -, rfl⟩
    · exact ha
    · exact ha.of_eq rfl rfl rfl
  · exact ha.of_eq heq.queue heq.active heq.highestRetired

end

theorem run_ascending {initialDestConnID : List UInt8} {limit : Nat} {tr : List Op}
    (hrun : (machine initialDestConnID limit).Run tr h) : h.Ascending := by
  refine Machine.Run.stable (I := Ascending) ?_ ?_ hrun
  · intro s hs
    cases hs
    exact ascending_new _ _
  · intro s op s' ha hstep
    exact step_ascending ha hstep

/-- **RETIRE_PRIOR_TO is honoured** iff the frame is not given back, or no number in use is below
it: no number below it stays active, queued or on a path, and each one that was is retired. -/
theorem retirePriorTo_honoured_iff {initialDestConnID : List UInt8} {limit : Nat} {tr : List Op}
    (hrun : (machine initialDestConnID limit).Run tr h) (hok : h.add f rnd = .ok h') :
    (h'.From f.retirePriorTo ∧ ∀ n ∈ h.inUse, n < f.retirePriorTo → n ∈ h'.retired) ↔
      ¬ h.GivesBack f ∨ h.From f.retirePriorTo := by
  have ha := run_ascending hrun
  have hok := add_ok hok
  by_cases hback : h.GivesBack f
  · rcases addFrame_ok hok with ⟨-, rfl⟩ | ⟨hhi, -⟩
    · -- the frame changed nothing in use
      refine ⟨fun hhonoured => .inr hhonoured.1, fun hread => ?_⟩
      have hfrom := hread.resolve_left (not_not_intro hback)
      exact ⟨hfrom, fun n hn hlt => absurd hlt (Nat.not_lt.mpr (hfrom n hn))⟩
    · unfold GivesBack at hback
      omega
  · exact iff_of_true (addFrame_from ha hback hok).2 (.inl hback)

/-- A frame that issues a connection ID and asks to retire the ones below it. -/
def replacing (seq : Nat) : NewConnectionIDFrame := ⟨seq, seq, [seq.toUInt8], [], le_rfl⟩

def after (tr : List Op) : ConnIDManager := (tr.foldlM step (new [9] 0)).getD (new [9] 0)

/-- Number 3 replaces the active one, a queued one and one on a path. -/
theorem retirePriorTo_honoured_iff_three :
    ∃ h', (after [issue 1, issue 2, .getConnIDForPath 7]).add (replacing 3) ⟨0, by decide⟩ =
        .ok h' ∧ h'.inUse = [3] ∧ h'.From 3 ∧ ∀ n ∈ [0, 2, 1], n < 3 → n ∈ h'.retired := by
  have hrun : (machine [9] 0).Run [issue 1, issue 2, .getConnIDForPath 7]
      (after [issue 1, issue 2, .getConnIDForPath 7]) := Machine.run_ofStep_iff.mpr (by decide)
  have hadd : ∃ h', (after [issue 1, issue 2, .getConnIDForPath 7]).add (replacing 3)
      ⟨0, by decide⟩ = .ok h' ∧ h'.inUse = [3] := ⟨_, rfl, by decide⟩
  obtain ⟨h', hadd, huse⟩ := hadd
  obtain ⟨hfrom, hretired⟩ := (retirePriorTo_honoured_iff hrun hadd).mpr (.inl (by decide))
  exact ⟨h', hadd, huse, hfrom, hretired⟩

/-- **A reordered frame is not honoured**: numbers 1 and 3 went to paths when the frame for
number 2 asks to retire what is below 2.  Number 0 stays active and number 1 on its path. -/
theorem retirePriorTo_ignored_reordered :
    ∃ h', (machine [9] 0).Run [issue 1, issue 3, .getConnIDForPath 7, .getConnIDForPath 8]
        (after [issue 1, issue 3, .getConnIDForPath 7, .getConnIDForPath 8]) ∧
      (after [issue 1, issue 3, .getConnIDForPath 7, .getConnIDForPath 8]).add (replacing 2)
        ⟨0, by decide⟩ = .ok h' ∧
      h'.activeSequenceNumber = 0 ∧ (h'.probing 7).map (·.sequenceNumber) = some 1 ∧
      h'.retired = [2] ∧ ¬ h'.From (replacing 2).retirePriorTo := by
  refine ⟨_, Machine.run_ofStep_iff.mpr (by decide), rfl, by decide, by decide, by decide, ?_⟩
  intro hfrom
  exact absurd (hfrom 0 (by decide)) (by decide)

end UQuic.ConnIDManager
