/-
# `UQuic.Lib.Token` — consumers that sleep on a channel with one slot

A consumer looks whether there is something to take, and goes to the channel if there is not.
A producer posts without blocking: to the consumer that has been parked longest, or into the
slot, or, if that is taken, to nobody.

    idle ──enter──▶ awake ──look──▶ idle, with what it took
                     ▲ ▲     └────▶ looked ──park──▶ parked ──leave──▶ idle
                     │ └───the slot───┘                │
                     └─────────────a post──────────────┘

A consumer looks under the lock.  A producer holds it from its change to its last post, which
are steps of their own: consumers enter, park and leave in between.  A consumer that has looked
is not parked yet: whatever is posted in the meantime goes into the slot, so that one token may
stand for any number of things to take, and a consumer may be `Stuck` beside one.  A consumer
that is `Alone` is not.
-/
import UQuic.Lib.Machine

namespace Token

/-- Where a consumer is. -/
inductive Phase
  | idle
  | awake
  | looked
  | parked
  deriving DecidableEq, Repr

/-- The consumer has found nothing, and has not received since. -/
def Phase.Waits : Phase → Prop
  | .looked | .parked => True
  | .idle | .awake => False

/-- What a consumer does. -/
inductive Act
  | enter
  | look
  | park
  | leave
  deriving DecidableEq, Repr

/-- What the parties share, and what they do to it. -/
structure Pool (σ π : Type) where
  init : σ
  /-- What a producer changes, and how often it posts then; `none` if it cannot do so. -/
  produce : σ → π → Option (σ × Nat)
  /-- Take something; `none` if there is nothing. -/
  look : σ → Option σ
  /-- A consumer empties the slot when it enters. -/
  drains : Bool

/-- The shared state, the posts that the producer has yet to make, the slot, and the consumers;
`queue` has those that are parked. -/
structure System (σ : Type) where
  shared : σ
  pending : Nat
  slot : Bool
  phase : Nat → Phase
  queue : List Nat

inductive Event (π : Type)
  | consumer (i : Nat) (a : Act)
  | produce (p : π)
  | post
  deriving DecidableEq, Repr

namespace System

variable {σ : Type}

/-- Consumer `i` goes on to another phase. -/
def move (s : System σ) (i : Nat) (phase : Phase) : System σ :=
  { s with phase := Function.update s.phase i phase }

/-- A send with a `default`. -/
def post (s : System σ) : System σ :=
  match s.queue with
  | [] => { s with slot := true }
  | i :: queue => { s.move i .awake with queue := queue }

end System

namespace Pool

variable {σ π : Type}

def act (w : Pool σ π) (s : System σ) (i : Nat) : Phase → Act → Option (System σ)
  | .idle, .enter => some { s.move i .awake with slot := s.slot && !w.drains }
  | .awake, .look =>
    if 0 < s.pending then none
    else
      match w.look s.shared with
      | none => some (s.move i .looked)
      | some shared => some { s.move i .idle with shared := shared }
  | .looked, .park =>
    if s.slot then some { s.move i .awake with slot := false }
    else some { s.move i .parked with queue := s.queue ++ [i] }
  | .looked, .leave => some (s.move i .idle)
  | .parked, .leave => some { s.move i .idle with queue := s.queue.erase i }
  | _, _ => none

def step (w : Pool σ π) (s : System σ) : Event π → Option (System σ)
  | .consumer i a => w.act s i (s.phase i) a
  | .produce p =>
    if 0 < s.pending then none
    else (w.produce s.shared p).map fun r => { s with shared := r.1, pending := r.2 }
  | .post => if 0 < s.pending then some { s.post with pending := s.pending - 1 } else none

def machine (w : Pool σ π) : Machine (System σ) (Event π) :=
  .ofStep ⟨w.init, 0, false, fun _ => .idle, []⟩ w.step

/-- Consumer `i` waits beside something to take, and nobody is about to post or to look. -/
def Stuck (w : Pool σ π) (s : System σ) (i : Nat) : Prop :=
  (s.phase i).Waits ∧ (w.look s.shared).isSome = true ∧ s.pending = 0 ∧ s.slot = false ∧
    ∀ j, s.phase j ≠ .awake

/-- No other consumer is there. -/
def Alone (s : System σ) : Event π → Prop
  | .consumer i _ => ∀ j, j ≠ i → s.phase j = .idle
  | .produce _ | .post => True

/-- Two consumers look, the producers do `es`, and then both go to the channel: the first one
finds a token and takes its share, the second one parks. -/
def crowd (es : List (Event π)) : List (Event π) :=
  [.consumer 0 .enter, .consumer 0 .look, .consumer 1 .enter, .consumer 1 .look] ++ es ++
    [.consumer 0 .park, .consumer 0 .look, .consumer 1 .park]

/-- A producer posts, or it brings nothing. -/
def Posts (w : Pool σ π) : Prop := ∀ s p s' posts, w.produce s p = some (s', posts) →
  0 < posts ∨ ((w.look s').isSome = true → (w.look s).isSome = true)

variable {w : Pool σ π} {s s' : System σ} {i j : Nat} {a : Act}

/-- A step of a consumer is its own. -/
theorem act_phase_of_ne (h : w.act s i (s.phase i) a = some s') (hne : j ≠ i) :
    s'.phase j = s.phase j := by
  rw [act.eq_def] at h
  split at h <;> (try split at h) <;> try split at h
  all_goals
    cases h
    try exact Function.update_of_ne hne _ _

/-- A consumer waits once it has found nothing, and goes on waiting if the slot is empty. -/
theorem act_waits (h : w.act s i (s.phase i) a = some s') (hwaits : (s'.phase i).Waits) :
    w.look s'.shared = none ∨ (s.phase i).Waits ∧ s.slot = false ∧
      s'.shared = s.shared ∧ s'.pending = s.pending := by
  rw [act.eq_def] at h
  split at h
  · cases h
    simp [System.move, Phase.Waits] at hwaits
  · split at h
    · cases h
    · split at h
      · rename_i hlook
        cases h
        exact .inl hlook
      · cases h
        simp [System.move, Phase.Waits] at hwaits
  · rename_i hphase
    rw [hphase]
    split at h
    · cases h
      simp [System.move, Phase.Waits] at hwaits
    · rename_i hslot
      cases h
      exact .inr ⟨trivial, Bool.not_eq_true _ ▸ hslot, rfl, rfl⟩
  · cases h
    simp [System.move, Phase.Waits] at hwaits
  · cases h
    simp [System.move, Phase.Waits] at hwaits
  · cases h

/-- There is a token, or somebody about to look. -/
def Covered (s : System σ) : Prop := s.slot = true ∨ ∃ j, s.phase j = .awake

theorem covered_post (s : System σ) : Covered s.post := by
  unfold System.post
  split
  · exact .inl rfl
  · rename_i i queue hqueue
    exact .inr ⟨i, Function.update_self i _ _⟩

/-- Nobody waits beside something to take, with nobody awake or about to post. -/
def Woken (w : Pool σ π) (s : System σ) : Prop :=
  ∀ i, (s.phase i).Waits → (w.look s.shared).isSome = true → 0 < s.pending ∨ Covered s

theorem woken_step (hw : w.Posts) (h : w.Woken s) {e : Event π} (ha : Alone s e)
    (hstep : w.step s e = some s') : w.Woken s' := by
  intro j hj hlook
  cases e with
  | consumer i a =>
    by_cases hne : j = i
    · subst hne
      rcases act_waits hstep hj with hnone | ⟨hwaits, hslot, hshared, hpending⟩
      · rw [hnone] at hlook
        cases hlook
      · -- the slot is empty, and the others are not there
        rw [hshared] at hlook
        rw [hpending]
        rcases h j hwaits hlook with hposts | htoken | ⟨k, hk⟩
        · exact .inl hposts
        · rw [hslot] at htoken
          cases htoken
        · by_cases hkj : k = j
          · rw [← hkj, hk] at hwaits
            exact hwaits.elim
          · rw [ha k hkj] at hk
            cases hk
    · rw [act_phase_of_ne hstep hne, ha j hne] at hj
      exact hj.elim
  | produce p =>
    simp only [step] at hstep
    split at hstep
    · cases hstep
    · obtain ⟨⟨shared, posts⟩, hp, rfl⟩ := Option.map_eq_some_iff.mp hstep
      rcases hw _ _ _ _ hp with hposts | hsame
      · exact .inl hposts
      · exact .inr ((h j hj (hsame hlook)).resolve_left ‹_›)
  | post =>
    simp only [step] at hstep
    split at hstep
    · cases hstep
      exact .inr (covered_post s)
    · cases hstep

/-- **A consumer that is alone is not stuck.** -/
theorem not_stuck (hw : w.Posts) {tr : List (Event π)} (hrun : (w.machine.guard Alone).Run tr s)
    (i : Nat) : ¬ w.Stuck s i := by
  have h : w.Woken s := by
    refine hrun.stable ?_ ?_
    · rintro s rfl i hi
      exact hi.elim
    · rintro s e s' h ⟨ha, hstep⟩
      exact woken_step hw h ha hstep
  rintro ⟨hi, hlook, hpending, hslot, hnobody⟩
  rcases h i hi hlook with hposts | htoken | ⟨j, hj⟩
  · exact hposts.ne' hpending
  · rw [hslot] at htoken
    cases htoken
  · exact hnobody j hj

/-- Nobody is there. -/
def quiet (w : Pool σ π) : System σ := ⟨w.init, 0, false, fun _ => .idle, []⟩

/-- The first consumer looks, and then the producers do `es`: it is alone. -/
theorem run_first (hlook : w.look w.init = none) (es : List (Event π))
    (hes : ∀ e ∈ es, ∀ i a, e ≠ .consumer i a)
    (hrun : es.foldlM w.step ((w.quiet.move 0 .awake).move 0 .looked) = some s) :
    (w.machine.guard Alone).Run ([.consumer 0 .enter, .consumer 0 .look] ++ es) s := by
  induction es using List.reverseRecOn generalizing s with
  | nil =>
    cases hrun
    have hinit : (w.machine.guard Alone).Run [] w.quiet := .init rfl
    have henter : (w.machine.guard Alone).Run [.consumer 0 .enter] (w.quiet.move 0 .awake) :=
      hinit.step (e := Event.consumer 0 .enter) ⟨fun _ _ => rfl, rfl⟩
    refine henter.step (e := Event.consumer 0 .look) ⟨fun j hj => Function.update_of_ne hj _ _, ?_⟩
    show w.act (w.quiet.move 0 .awake) 0 .awake .look = some _
    rw [act, if_neg (show ¬ 0 < (w.quiet.move 0 .awake).pending from lt_irrefl 0)]
    simp only [System.move, quiet, hlook]
  | append_singleton es e ih =>
    rw [List.foldlM_append] at hrun
    obtain ⟨s₁, hs₁, hstep⟩ := Option.bind_eq_some_iff.mp hrun
    have hstep : w.step s₁ e = some s := by simpa using hstep
    have hrun₁ := ih (fun e he => hes e (List.mem_append_left _ he)) hs₁
    rw [← List.append_assoc]
    refine hrun₁.step ⟨?_, hstep⟩
    cases e with
    | consumer i a =>
      exact (hes _ (List.mem_append_right _ (List.mem_singleton.mpr rfl)) i a rfl).elim
    | produce p => trivial
    | post => trivial

end Pool

end Token
