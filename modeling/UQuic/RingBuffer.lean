/-
# `UQuic.RingBuffer` — the growing ring buffer

`internal/utils/ringbuffer/ringbuffer.go`.  A slice with a position to read from
and one to write to; when both meet, the flag `full` tells a full buffer from an
empty one.  A full buffer is copied into one of twice the size.

    headPos ≤ tailPos, not full     . . h x x t . .
    otherwise                       x x t . . h x x

The positions are inside the slice by construction, so that no index of the source
is out of range.  `none` is a panic; `default` is the zero value of the element type.

## What is proved

`toList` reads the buffer from its head.  On it `PushBack`, `PopFront` and
`PeekFront` are those of a queue, and `PopFront` panics on the empty one only.
-/
import Mathlib

namespace UQuic

open List

universe u

/-- `RingBuffer`. -/
structure RingBuffer (α : Type u) where
  ring : List α
  headPos : Nat
  tailPos : Nat
  full : Bool
  empty_ring : ring = [] → headPos = 0 ∧ tailPos = 0 ∧ full = false
  in_ring : ring ≠ [] → headPos < ring.length ∧ tailPos < ring.length
  full_eq : full = true → tailPos = headPos

namespace RingBuffer

variable {α : Type u} {r : RingBuffer α}

def new : RingBuffer α := ⟨[], 0, 0, false, fun _ => ⟨rfl, rfl, rfl⟩, fun h => absurd rfl h, nofun⟩

def len (r : RingBuffer α) : Nat :=
  if r.full then r.ring.length
  else if r.headPos ≤ r.tailPos then r.tailPos - r.headPos
  else r.tailPos + r.ring.length - r.headPos

/-- `Empty`. -/
def isEmpty (r : RingBuffer α) : Bool := !r.full && r.headPos == r.tailPos

def next (r : RingBuffer α) (pos : Nat) : Nat := if pos + 1 = r.ring.length then 0 else pos + 1

theorem next_lt {pos : Nat} (h : pos < r.ring.length) : r.next pos < r.ring.length := by
  rw [next]
  split <;> omega

/-- The slice from the head on, then the part before it. -/
def fromHead (r : RingBuffer α) : List α := r.ring.drop r.headPos ++ r.ring.take r.headPos

/-- The elements, first one first. -/
def toList (r : RingBuffer α) : List α := r.fromHead.take r.len

def peekFront (r : RingBuffer α) : Option α := if r.isEmpty then none else r.ring[r.headPos]?

theorem ring_ne_nil (h : r.isEmpty = false) : r.ring ≠ [] := by
  intro hnil
  obtain ⟨hhead, htail, hfull⟩ := r.empty_ring hnil
  simp [isEmpty, hhead, htail, hfull] at h

theorem ring_of_set_nil {l : List α} {i : Nat} {t : α} (h : l.set i t = []) : l = [] := by
  rw [← length_eq_zero_iff, ← length_set, h, length_nil]

/-- The rest of `PushBack`, when there is room. -/
def store (r : RingBuffer α) (h : r.ring ≠ []) (hfull : r.full = false) (t : α) : RingBuffer α where
  ring := r.ring.set r.tailPos t
  headPos := r.headPos
  tailPos := r.next r.tailPos
  full := if r.next r.tailPos = r.headPos then true else r.full
  empty_ring hnil := absurd (ring_of_set_nil hnil) h
  in_ring _ := by
    rw [List.length_set]
    exact ⟨(r.in_ring h).1, next_lt (r.in_ring h).2⟩
  full_eq := by
    intro hf
    split at hf
    · assumption
    · exact absurd hf (by rw [hfull]; nofun)

/-! ## The elements -/

theorem length_fromHead (r : RingBuffer α) : r.fromHead.length = r.ring.length := by
  simp only [fromHead, length_append, length_drop, length_take]
  omega

/-- A buffer that is not full has a free slot, unless it has none at all. -/
theorem len_lt (h : r.ring ≠ []) (hfull : r.full = false) : r.len < r.ring.length := by
  obtain ⟨hhead, htail⟩ := r.in_ring h
  simp only [len, hfull, Bool.false_eq_true, if_false]
  split <;> omega

theorem len_le (r : RingBuffer α) : r.len ≤ r.ring.length := by
  by_cases h : r.ring = []
  · obtain ⟨hhead, htail, hfull⟩ := r.empty_ring h
    simp [len, hhead, htail, hfull]
  · cases hfull : r.full with
    | true => simp [len, hfull]
    | false => exact Nat.le_of_lt (len_lt h hfull)

@[simp] theorem length_toList (r : RingBuffer α) : r.toList.length = r.len := by
  rw [toList, length_take, length_fromHead]
  exact Nat.min_eq_left r.len_le

theorem isEmpty_iff : r.isEmpty = true ↔ r.toList = [] := by
  rw [← length_eq_zero_iff, length_toList, isEmpty]
  by_cases h : r.ring = []
  · obtain ⟨hhead, htail, hfull⟩ := r.empty_ring h
    simp [len, hhead, htail, hfull]
  · obtain ⟨hhead, htail⟩ := r.in_ring h
    cases hfull : r.full with
    | true => simp [len, hfull, h]
    | false =>
      simp only [len, hfull, Bool.not_false, Bool.true_and, beq_iff_eq, Bool.false_eq_true,
        if_false]
      split <;> omega

/-- Seen from the head, the free slot is the one after the elements. -/
theorem fromHead_store (r : RingBuffer α) (h : r.ring ≠ []) (hfull : r.full = false) (t : α) :
    (r.store h hfull t).fromHead = r.fromHead.set r.len t := by
  obtain ⟨hhead, htail⟩ := r.in_ring h
  show (r.ring.set r.tailPos t).drop r.headPos ++ (r.ring.set r.tailPos t).take r.headPos = _
  rw [fromHead, len, hfull, if_neg Bool.false_ne_true, take_set, drop_set]
  by_cases hwrap : r.headPos ≤ r.tailPos
  · rw [if_neg (Nat.not_lt.mpr hwrap), if_pos hwrap, set_append_left]
    · have hbefore : (r.ring.take r.headPos).length ≤ r.tailPos := by
        rw [length_take]
        omega
      rw [set_eq_of_length_le hbefore]
    · rw [length_drop]
      omega
  · rw [if_pos (Nat.not_le.mp hwrap), if_neg hwrap, set_append_right]
    · rw [length_drop]
      congr 2
      omega
    · rw [length_drop]
      omega

theorem len_store (r : RingBuffer α) (h : r.ring ≠ []) (hfull : r.full = false) (t : α) :
    (r.store h hfull t).len = r.len + 1 := by
  obtain ⟨hhead, htail⟩ := r.in_ring h
  show (if (if r.next r.tailPos = r.headPos then true else r.full) = true
    then (r.ring.set r.tailPos t).length else if r.headPos ≤ r.next r.tailPos
    then r.next r.tailPos - r.headPos
    else r.next r.tailPos + (r.ring.set r.tailPos t).length - r.headPos) = _
  rw [length_set, len, hfull]
  simp only [next, Bool.false_eq_true, if_false]
  split_ifs <;> simp_all <;> omega

theorem toList_store (r : RingBuffer α) (h : r.ring ≠ []) (hfull : r.full = false) (t : α) :
    (r.store h hfull t).toList = r.toList ++ [t] := by
  have hlt : r.len < r.fromHead.length := by
    rw [length_fromHead]
    exact len_lt h hfull
  rw [toList, toList, fromHead_store, len_store, take_add_one, List.getElem?_set_self hlt, take_set,
    set_eq_of_length_le (by rw [length_take]; omega), Option.toList_some]

theorem peekFront_eq (r : RingBuffer α) : r.peekFront = r.toList.head? := by
  rw [peekFront]
  split_ifs with h
  · rw [isEmpty_iff.mp h, List.head?_nil]
  · have hne : r.isEmpty = false := Bool.eq_false_iff.mpr h
    obtain ⟨hhead, -⟩ := r.in_ring (ring_ne_nil hne)
    have hpos : 0 < r.len := by
      rw [← length_toList, length_pos_iff]
      exact isEmpty_iff.not.mp h
    rw [toList, fromHead, drop_eq_getElem_cons hhead, List.getElem?_eq_getElem hhead]
    obtain ⟨n, hn⟩ := Nat.exists_eq_succ_of_ne_zero (Nat.pos_iff_ne_zero.mp hpos)
    rw [hn]
    rfl

/-! ## Operations that write the zero value -/

variable [Inhabited α]

def grow (r : RingBuffer α) : RingBuffer α where
  ring := r.fromHead ++
    List.replicate
      ((if r.ring.length * 2 = 0 then 1 else r.ring.length * 2) - r.ring.length) default
  headPos := 0
  tailPos := r.ring.length
  full := false
  empty_ring h := by
    have := congrArg List.length h
    simp only [fromHead, List.length_append, List.length_drop, List.length_take,
      List.length_replicate, List.length_nil] at this
    split at this <;> omega
  in_ring _ := by
    simp only [fromHead, List.length_append, List.length_drop, List.length_take,
      List.length_replicate]
    split <;> omega
  full_eq := nofun

theorem full_grow (r : RingBuffer α) : r.grow.full = false := rfl

theorem grow_ring_ne_nil (r : RingBuffer α) : r.grow.ring ≠ [] := by
  intro h
  obtain ⟨-, htail, -⟩ := r.grow.empty_ring h
  have hlen : r.ring.length = 0 := htail
  have := congrArg List.length h
  simp [grow, hlen] at this

def pushBack (r : RingBuffer α) (t : α) : RingBuffer α :=
  if h : r.full = true ∨ r.ring = [] then r.grow.store r.grow_ring_ne_nil r.full_grow t
  else r.store (fun hnil => h (.inr hnil)) (Bool.eq_false_iff.mpr fun hf => h (.inl hf)) t

/-- `PopFront` after its check: the slot at the head is zeroed. -/
def advance (r : RingBuffer α) (h : r.ring ≠ []) : RingBuffer α where
  ring := r.ring.set r.headPos default
  headPos := r.next r.headPos
  tailPos := r.tailPos
  full := false
  empty_ring hnil := absurd (ring_of_set_nil hnil) h
  in_ring _ := by
    rw [List.length_set]
    exact ⟨next_lt (r.in_ring h).1, (r.in_ring h).2⟩
  full_eq := nofun

def popFront (r : RingBuffer α) : Option (α × RingBuffer α) :=
  if h : r.isEmpty = false then
    some (r.ring.get ⟨r.headPos, (r.in_ring (ring_ne_nil h)).1⟩, r.advance (ring_ne_nil h))
  else none

/-! ## The buffer is a queue -/

theorem fromHead_grow (r : RingBuffer α) :
    ∃ n, r.grow.fromHead = r.fromHead ++ replicate n default :=
  ⟨_, append_nil _⟩

theorem len_grow (r : RingBuffer α) : r.grow.len = r.fromHead.length := by
  rw [length_fromHead]
  rfl

/-- A full buffer, or one without a slot, keeps its elements when it grows. -/
theorem toList_grow (h : r.full = true ∨ r.ring = []) : r.grow.toList = r.toList := by
  have hlen : r.len = r.fromHead.length := by
    rw [length_fromHead]
    rcases h with h | h
    · simp [len, h]
    · have := r.len_le
      simp only [h, length_nil] at this ⊢
      omega
  obtain ⟨n, hn⟩ := fromHead_grow r
  rw [toList, toList, len_grow, hlen, hn, take_left, take_length]

@[simp] theorem toList_pushBack (r : RingBuffer α) (t : α) :
    (r.pushBack t).toList = r.toList ++ [t] := by
  rw [pushBack]
  split_ifs with h
  · rw [toList_store, toList_grow h]
  · rw [toList_store]

/-- Seen from the next slot, the head is the last one, and zero. -/
theorem fromHead_advance (h : r.ring ≠ []) :
    (r.advance h).fromHead = r.fromHead.tail ++ [default] := by
  obtain ⟨hhead, -⟩ := r.in_ring h
  have hlen : (r.ring.take r.headPos).length = r.headPos := length_take_of_le hhead.le
  show (r.ring.set r.headPos default).drop (r.next r.headPos) ++
    (r.ring.set r.headPos default).take (r.next r.headPos) = _
  rw [fromHead, drop_eq_getElem_cons hhead, cons_append, tail_cons, set_eq_take_append_cons_drop,
    if_pos hhead, next]
  split_ifs with hlast
  · rw [hlast, drop_length, drop_zero, take_zero, append_nil, nil_append]
  · rw [append_cons, drop_left' (by simp [hlen]), take_left' (by simp [hlen]), append_assoc]

theorem len_advance (h : r.isEmpty = false) : r.len = (r.advance (ring_ne_nil h)).len + 1 := by
  obtain ⟨hhead, htail⟩ := r.in_ring (ring_ne_nil h)
  show _ = (if r.next r.headPos ≤ r.tailPos then r.tailPos - r.next r.headPos
    else r.tailPos + (r.ring.set r.headPos default).length - r.next r.headPos) + 1
  rw [length_set, len, next]
  cases hfull : r.full with
  | true =>
    have heq := r.full_eq hfull
    rw [if_pos rfl]
    split_ifs <;> omega
  | false =>
    simp only [isEmpty, hfull, Bool.not_false, Bool.true_and, beq_eq_false_iff_ne] at h
    simp only [Bool.false_eq_true, if_false]
    split_ifs <;> omega

theorem len_advance_le (h : r.isEmpty = false) :
    (r.advance (ring_ne_nil h)).len ≤ r.fromHead.tail.length := by
  have hle := r.len_le
  rw [len_advance h] at hle
  rw [length_tail, length_fromHead]
  omega

/-- The head moves to the next slot. -/
theorem toList_advance (h : r.isEmpty = false) :
    r.toList = r.ring.get ⟨r.headPos, (r.in_ring (ring_ne_nil h)).1⟩ ::
      (r.advance (ring_ne_nil h)).toList := by
  obtain ⟨hhead, -⟩ := r.in_ring (ring_ne_nil h)
  rw [toList, toList, fromHead_advance, len_advance h, take_append_of_le_length (len_advance_le h),
    fromHead, drop_eq_getElem_cons hhead]
  rfl

theorem popFront_of_toList {t : α} {l : List α} (h : r.toList = t :: l) :
    ∃ r', r.popFront = some (t, r') ∧ r'.toList = l := by
  have hne : r.isEmpty = false := by
    rw [← Bool.not_eq_true, isEmpty_iff, h]
    exact cons_ne_nil t l
  have hcons := (toList_advance hne).symm.trans h
  obtain ⟨ht, hl⟩ := List.cons.inj hcons
  exact ⟨_, by rw [popFront, dif_pos hne, ht], hl⟩

/-- `PopFront` panics on an empty buffer only. -/
theorem popFront_eq_some {r r' : RingBuffer α} {t : α} (h : r.popFront = some (t, r')) :
    r.toList = t :: r'.toList := by
  rw [popFront] at h
  split_ifs at h with hne
  cases h
  exact toList_advance hne

end RingBuffer

end UQuic
