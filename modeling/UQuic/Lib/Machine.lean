/-
# `UQuic.Lib.Machine` — runs of a labelled machine, and what holds along them

A machine is a set of initial states and a labelled step relation.  Three
things are said about one, and every system of this development is an instance:

    M.Run tr s      the labels `tr`, in order, lead from an initial state to `s`
    M.guard ok      the same machine with only the steps that meet `ok`
    ofStep          the machine of a partial step function, whose runs are its folds

A run carries its trace, so an invariant may speak about what has happened so
far (`Run.invariant`) and not only about the present state.  Nothing here
mentions a program: the two induction rules are proved once, and a safety
result elsewhere is the two small goals they leave.
-/
import Mathlib

universe u v

/-- Initial states and labelled steps. -/
structure Machine (σ : Type u) (ε : Type v) where
  init : σ → Prop
  step : σ → ε → σ → Prop

namespace Machine

variable {σ : Type u} {ε : Type v}

/-- The machine of a partial step function: one initial state, and a step for
every label the function accepts. -/
def ofStep (s₀ : σ) (f : σ → ε → Option σ) : Machine σ ε where
  init s := s = s₀
  step s e s' := f s e = some s'

/-- `M.Run tr s`: the labels `tr`, oldest first, lead to `s`. -/
inductive Run (M : Machine σ ε) : List ε → σ → Prop
  | init {s : σ} : M.init s → Run M [] s
  | step {tr : List ε} {s s' : σ} {e : ε} :
      Run M tr s → M.step s e s' → Run M (tr ++ [e]) s'

/-- Only the steps that meet `ok` in the state they are taken from. -/
def guard (M : Machine σ ε) (ok : σ → ε → Prop) : Machine σ ε where
  init := M.init
  step s e s' := ok s e ∧ M.step s e s'

variable {M : Machine σ ε}

/-! ## The invariant rules -/

/-- An invariant of the trace and the state: true at the start, kept by every
step taken from a state that some run reaches. -/
theorem Run.invariant {I : List ε → σ → Prop} (h₀ : ∀ s, M.init s → I [] s)
    (hs : ∀ tr s e s', M.Run tr s → I tr s → M.step s e s' → I (tr ++ [e]) s') :
    ∀ {tr : List ε} {s : σ}, M.Run tr s → I tr s := by
  intro tr s h
  induction h with
  | init hi => exact h₀ _ hi
  | step hr hstep ih => exact hs _ _ _ _ hr ih hstep

/-- The same for a predicate on states alone. -/
theorem Run.stable {I : σ → Prop} (h₀ : ∀ s, M.init s → I s)
    (hs : ∀ s e s', I s → M.step s e s' → I s') {tr : List ε} {s : σ} (h : M.Run tr s) : I s :=
  Run.invariant (I := fun _ s => I s) h₀ (fun _ s e s' _ hi => hs s e s' hi) h

/-! ## Guards -/

theorem Run.of_guard {ok : σ → ε → Prop} {tr : List ε} {s : σ}
    (h : (M.guard ok).Run tr s) : M.Run tr s := by
  induction h with
  | init hi => exact .init hi
  | step _ hstep ih => exact .step ih hstep.2

/-- The runs of a step function are its folds. -/
theorem run_ofStep_iff {s₀ : σ} {f : σ → ε → Option σ} {tr : List ε} {s : σ} :
    (ofStep s₀ f).Run tr s ↔ tr.foldlM f s₀ = some s := by
  constructor
  · intro h
    induction h with
    | init hi =>
      cases hi
      rfl
    | step _ hstep ih =>
      rw [List.foldlM_append, ih]
      simpa [ofStep] using hstep
  · intro h
    induction tr using List.reverseRecOn generalizing s with
    | nil =>
      cases h
      exact .init rfl
    | append_singleton tr e ih =>
      simp only [List.foldlM_append, Option.bind_eq_bind, Option.bind_eq_some_iff] at h
      obtain ⟨s', hs', hstep⟩ := h
      exact .step (ih hs') (by simpa [ofStep] using hstep)

/-- A guarded step function is a step function. -/
theorem guard_ofStep {s₀ : σ} {f : σ → ε → Option σ} {ok : σ → ε → Prop}
    [∀ s e, Decidable (ok s e)] :
    (ofStep s₀ f).guard ok = ofStep s₀ fun s e => if ok s e then f s e else none := by
  simp only [guard, ofStep, mk.injEq, true_and]
  funext s e s'
  by_cases hok : ok s e <;> simp [hok]

theorem run_guard_iff {s₀ : σ} {f : σ → ε → Option σ} {ok : σ → ε → Prop}
    [∀ s e, Decidable (ok s e)] {tr : List ε} {s : σ} : ((ofStep s₀ f).guard ok).Run tr s ↔
      tr.foldlM (fun s e => if ok s e then f s e else none) s₀ = some s := by
  rw [guard_ofStep]
  exact run_ofStep_iff

end Machine
