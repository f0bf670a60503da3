/-
# `UQuic.Lib.Shared` — parts that draw on one whole

Several parts (accounts, streams, clients) share one whole (a bank, a
connection, a pool).  A call to a part changes that part and the whole; other
calls change the whole alone; parts are created as time goes by and are never
forgotten.

    parts    p₀  p₁  p₂ …          each meets `P`
    whole    w                     meets `W`
    balance  Σ g pᵢ = h w          in any commutative group

`Balanced` is the invariant such a system keeps, and its three rules say what is
left to show about a single call: that the part's share and the whole move by
the same amount.  Nothing here mentions a program.
-/
import UQuic.Lib.Machine

universe u v

/-- Parts, in the order of their creation, and the whole they share. -/
structure Shared (π : Type u) (ω : Type v) where
  parts : List π
  whole : ω

namespace Shared

open List

variable {π : Type u} {ω : Type v} {α ε δ : Type} {G : Type} [AddCommGroup G]

/-- What can happen to the system. -/
inductive Event (α ε δ : Type)
  | create (a : α)
  | part (i : Nat) (e : ε)
  | whole (d : δ)
  deriving DecidableEq, Repr

/-- How parts are made and what calls do; `none` for a call that is not possible. -/
structure Calls (π : Type u) (ω : Type v) (α ε δ : Type) where
  make : α → π
  part : π → ω → ε → Option (π × ω)
  whole : ω → δ → Option ω

def step (c : Calls π ω α ε δ) (s : Shared π ω) : Event α ε δ → Option (Shared π ω)
  | .create a => some { s with parts := s.parts ++ [c.make a] }
  | .part i e => s.parts[i]?.bind fun p => (c.part p s.whole e).map fun r =>
    ⟨s.parts.set i r.1, r.2⟩
  | .whole d => (c.whole s.whole d).map fun w => { s with whole := w }

/-- The system, from a whole without parts. -/
def machine (c : Calls π ω α ε δ) (w : ω) : Machine (Shared π ω) (Event α ε δ) :=
  .ofStep ⟨[], w⟩ (step c)

def total (g : π → G) (s : Shared π ω) : G := (s.parts.map g).sum

variable {s s' : Shared π ω} {c : Calls π ω α ε δ} {g : π → G} {i : Nat} {p p' : π} {w' : ω}

/-- A step to a part, taken apart. -/
theorem step_part {e : ε} (h : step c s (.part i e) = some s') :
    ∃ p p' w', s.parts[i]? = some p ∧ c.part p s.whole e = some (p', w') ∧
      s' = ⟨s.parts.set i p', w'⟩ := by
  obtain ⟨p, hp, h⟩ := Option.bind_eq_some_iff.mp h
  obtain ⟨⟨p', w'⟩, hcall, rfl⟩ := Option.map_eq_some_iff.mp h
  exact ⟨p, p', w', hp, hcall, rfl⟩

/-- One part's share changes. -/
theorem total_set (hp : s.parts[i]? = some p) :
    total g ⟨s.parts.set i p', w'⟩ = total g s + (g p' - g p) := by
  obtain ⟨hi, rfl⟩ := List.getElem?_eq_some_iff.mp hp
  have hlen : i < (s.parts.map g).length := by rwa [length_map]
  simp only [total]
  rw [map_set, sum_set', dif_pos hlen, getElem_map, sub_eq_neg_add]

theorem total_append : total g { s with parts := s.parts ++ [p] } = total g s + g p := by
  simp only [total, map_append, map_cons, map_nil, sum_append, sum_singleton]

/-- What holds of all parts after a call held before, if it did for the one called. -/
theorem forall_of_set {P : π → Prop} (hp : s.parts[i]? = some p)
    (hall : ∀ q ∈ s.parts.set i p', P q) (hback : P p' → P p) : ∀ q ∈ s.parts, P q := by
  intro q hq
  obtain ⟨hi, rfl⟩ := List.getElem?_eq_some_iff.mp hp
  obtain ⟨j, hj, rfl⟩ := getElem_of_mem hq
  by_cases hij : i = j
  · subst hij
    exact hback (hall p' (mem_set hi p'))
  · refine hall _ (mem_iff_getElem.mpr ⟨j, by rwa [length_set], ?_⟩)
    exact getElem_set_ne hij _

theorem total_map {H : Type} [AddCommGroup H] (f : G →+ H) :
    f (total g s) = total (fun p => f (g p)) s := by
  rw [total, map_list_sum, map_map]
  rfl

/-- Every part meets `P`, the whole meets `W`, and the shares add up to `h`. -/
structure Balanced (P : π → Prop) (W : ω → Prop) (g : π → G) (h : ω → G)
    (s : Shared π ω) : Prop where
  parts : ∀ p ∈ s.parts, P p
  whole : W s.whole
  balance : total g s = h s.whole

namespace Balanced

variable {P : π → Prop} {W : ω → Prop} {h : ω → G}

theorem empty {w : ω} (hw : W w) (h0 : h w = 0) : Balanced P W g h ⟨[], w⟩ :=
  ⟨fun _ hp => absurd hp not_mem_nil, hw, h0.symm⟩

variable (hb : Balanced P W g h s)

include hb

theorem create (hp : P p) (h0 : g p = 0) :
    Balanced P W g h { s with parts := s.parts ++ [p] } where
  parts q hq := by
    rcases mem_append.mp hq with hq | hq
    · exact hb.parts q hq
    · rw [mem_singleton.mp hq]
      exact hp
  whole := hb.whole
  balance := by
    rw [total_append, h0, add_zero]
    exact hb.balance

/-- A call to a part moves its share and the whole by the same amount. -/
theorem part (hp : s.parts[i]? = some p) (hp' : P p') (hw' : W w')
    (hmove : g p' - g p = h w' - h s.whole) : Balanced P W g h ⟨s.parts.set i p', w'⟩ where
  parts q hq := by
    rcases mem_or_eq_of_mem_set hq with hq | rfl
    · exact hb.parts q hq
    · exact hp'
  whole := hw'
  balance := by
    rw [total_set hp, hb.balance, hmove, add_sub_cancel]

/-- A call to the whole leaves the balance alone. -/
theorem other (hw' : W w') (hsame : h w' = h s.whole) :
    Balanced P W g h { s with whole := w' } :=
  ⟨hb.parts, hw', hb.balance.trans hsame.symm⟩

theorem mem (hp : s.parts[i]? = some p) : P p :=
  hb.parts p (mem_of_getElem? hp)

end Balanced

end Shared
