/-
# `UQuic.Lib.CondVar` — condition variables, and supplies they guard

A condition variable has a wait set; a waiter that was woken has left the set and
has to take the lock again before it goes on.

    wait k       the holder of the lock enters the wait set and releases the lock
    signal i     some waiter is woken, if there is one; `i` says which
    broadcast    all waiters are woken
    resume i     a woken waiter gets the lock

Waiters wait for a unit of some supply.  A wake-up may be overtaken, by another
process that takes the unit or by the waiter losing interest, so that counting
signals is not enough.  `Covers` is what survives: as long as somebody waits, every
free unit is matched by a woken waiter that still wants one.
-/
import Mathlib

universe u

/-- The wait set, and the waiters that were woken and do not have the lock yet. -/
structure CondVar (κ : Type u) where
  waiting : List κ
  woken : List κ
  deriving DecidableEq, Repr

namespace CondVar

open List

variable {κ : Type u}

def empty : CondVar κ := ⟨[], []⟩

/-- Everybody who has waited and does not have the lock yet. -/
def pending (c : CondVar κ) : List κ := c.waiting ++ c.woken

/-- Enter the wait set. -/
def wait (c : CondVar κ) (k : κ) : CondVar κ := { c with waiting := c.waiting ++ [k] }

def broadcast (c : CondVar κ) : CondVar κ := ⟨[], c.woken ++ c.waiting⟩

/-- Wake one, if there is one; which one is not specified. -/
def signal (c : CondVar κ) (i : Nat) : CondVar κ :=
  match c.waiting[i % c.waiting.length]? with
  | none => c
  | some k => ⟨c.waiting.eraseIdx (i % c.waiting.length), c.woken ++ [k]⟩

/-- A woken waiter gets the lock. -/
def resume (c : CondVar κ) (i : Nat) : Option (κ × CondVar κ) :=
  match c.woken[i]? with
  | none => none
  | some k => some (k, { c with woken := c.woken.eraseIdx i })

variable {c c' : CondVar κ} {i : Nat} {k : κ}

theorem signal_cases (c : CondVar κ) (i : Nat) : (c.waiting = [] ∧ c.signal i = c) ∨
    ∃ j k, c.waiting[j]? = some k ∧ c.signal i = ⟨c.waiting.eraseIdx j, c.woken ++ [k]⟩ := by
  rw [signal]
  split
  · rename_i h
    refine Or.inl ⟨?_, rfl⟩
    by_contra hne
    have hlt := Nat.mod_lt i (length_pos_iff.mpr hne)
    rw [List.getElem?_eq_getElem hlt] at h
    cases h
  · rename_i k h
    exact Or.inr ⟨_, k, h, rfl⟩

theorem resume_eq_some (h : c.resume i = some (k, c')) :
    c.woken[i]? = some k ∧ c' = { c with woken := c.woken.eraseIdx i } := by
  rw [resume] at h
  split at h
  · cases h
  · rename_i k' hk
    cases h
    exact ⟨hk, rfl⟩

/-! ## Who is pending -/

/-- Taking an entry out of a list and putting it in front. -/
theorem perm_cons_eraseIdx {l : List κ} {j : Nat} (h : l[j]? = some k) :
    l.Perm (k :: l.eraseIdx j) := by
  obtain ⟨hj, rfl⟩ := List.getElem?_eq_some_iff.mp h
  exact (getElem_cons_eraseIdx_perm hj).symm

theorem pending_wait : (c.wait k).pending.Perm (k :: c.pending) := by
  rw [pending, wait, pending, append_assoc]
  exact perm_middle

theorem pending_broadcast : c.broadcast.pending.Perm c.pending := by
  rw [pending, broadcast, pending, nil_append]
  exact perm_append_comm

theorem pending_signal : (c.signal i).pending.Perm c.pending := by
  rcases signal_cases c i with ⟨-, heq⟩ | ⟨j, k, hk, heq⟩
  · rw [heq]
  · rw [heq, pending, pending]
    refine List.Perm.trans ?_ ((perm_cons_eraseIdx hk).append_right c.woken).symm
    rw [← append_assoc]
    exact perm_append_singleton k _

theorem pending_resume (h : c.resume i = some (k, c')) : c.pending.Perm (k :: c'.pending) := by
  obtain ⟨hk, rfl⟩ := resume_eq_some h
  refine List.Perm.trans ?_ perm_middle
  exact (perm_cons_eraseIdx hk).append_left c.waiting

theorem mem_waiting_signal (h : k ∈ (c.signal i).waiting) : k ∈ c.waiting := by
  rcases signal_cases c i with ⟨-, heq⟩ | ⟨j, k', -, heq⟩
  · rwa [heq] at h
  · rw [heq] at h
    exact mem_of_mem_eraseIdx h

/-! ## Supplies -/

/-- While somebody waits, every one of the `room` free units is matched by a woken
waiter that wants one. -/
def Covers (c : CondVar κ) (wants : κ → Bool) (room : Nat) : Prop :=
  c.waiting ≠ [] → room ≤ c.woken.countP wants

namespace Covers

variable {wants : κ → Bool} {room : Nat}

/-- There is no lost wake-up. -/
theorem woken_ne_nil (h : c.Covers wants room) (hw : c.waiting ≠ []) (hroom : 0 < room) :
    c.woken ≠ [] := by
  intro hnil
  have := h hw
  rw [hnil, countP_nil] at this
  omega

/-- A waiter that found nothing goes to sleep. -/
theorem wait : (c.wait k).Covers wants 0 := fun _ => Nat.zero_le _

theorem broadcast : c.broadcast.Covers wants room := fun h => absurd rfl h

/-- Somebody else takes units. -/
theorem mono (h : c.Covers wants room) {n : Nat} (hn : n ≤ room) : c.Covers wants n :=
  fun hw => Nat.le_trans hn (h hw)

/-- A unit becomes free, and a waiter is woken. -/
theorem signal (h : c.Covers wants room) (hall : ∀ k ∈ c.waiting, wants k = true) (i : Nat) :
    (c.signal i).Covers wants (room + 1) := by
  intro hw
  rcases signal_cases c i with ⟨hnil, heq⟩ | ⟨j, k, hk, heq⟩
  · rw [heq] at hw
    exact absurd hnil hw
  · have hmem : k ∈ c.waiting := mem_of_getElem? hk
    have hroom := h (ne_nil_of_mem hmem)
    rw [heq, countP_append, countP_singleton, if_pos (hall k hmem)]
    omega

/-- A woken waiter that wants a unit takes one; one that does not leaves them. -/
theorem resume (h : c.Covers wants room) (hresume : c.resume i = some (k, c')) :
    c'.Covers wants (if wants k then room - 1 else room) := by
  obtain ⟨hk, rfl⟩ := resume_eq_some hresume
  intro hw
  have hroom := h hw
  rw [(perm_cons_eraseIdx hk).countP_eq, countP_cons] at hroom
  split
  · rename_i hwants
    rw [if_pos hwants] at hroom
    exact Nat.sub_le_of_le_add hroom
  · rename_i hwants
    rwa [if_neg hwants, Nat.add_zero] at hroom

end Covers

end CondVar
