/-
# `UQuic.RingQueue` — the ring buffer over a whole run

`RingBuffer` carries the bounds of its positions, so that no index can be out of range there.
Here are the operations on the bare fields, as `internal/utils/ringbuffer/ringbuffer.go`
has them: every index is checked, and one out of range is a panic.

| on the fields | on `RingBuffer` | on a list |
| :-- | :-- | :-- |
| `pushBack` | `fields_pushBack` | append at the back |
| `popFront`, `peekFront` | `fields_popFront`, `fields_peekFront` | the front, or a panic |
| `len`, `empty` | `fields_len` | length, emptiness |
| `clear` | `fields_clear` | the empty list |

## What is proved

Whatever the first size and whatever the operations, the callers see what they would see of a
list, and all slots but those of the list's elements hold the zero value
(`run_eq_queue`): one step first (`exec_holds`), then the run.
-/
import UQuic.RingBuffer

namespace UQuic.RingBuffer

open List

universe u

variable {α : Type u}

/-- The fields of `RingBuffer`, whatever their values. -/
structure Fields (α : Type u) where
  ring : List α
  headPos : Nat
  tailPos : Nat
  full : Bool

namespace Fields

/-- The buffer before `Init`. -/
def zero : Fields α := ⟨[], 0, 0, false⟩

def len (r : Fields α) : Int :=
  if r.full then r.ring.length
  else if r.tailPos ≥ r.headPos then r.tailPos - r.headPos
  else r.tailPos - r.headPos + r.ring.length

def empty (r : Fields α) : Bool := !r.full && r.headPos == r.tailPos

def peekFront (r : Fields α) : Option α := if r.empty then none else r.ring[r.headPos]?

/-- The rest of `PushBack`, after the buffer has grown if it had to. -/
def store (r : Fields α) (t : α) : Option (Fields α) :=
  if r.tailPos < r.ring.length then
    let tailPos := if r.tailPos + 1 = r.ring.length then 0 else r.tailPos + 1
    some ⟨r.ring.set r.tailPos t, r.headPos, tailPos,
      if tailPos = r.headPos then true else r.full⟩
  else none

/-- `copy(dst[start:], src)`. -/
def copy (dst : List α) (start : Nat) (src : List α) : List α :=
  dst.take start ++ src.take (dst.length - start) ++ dst.drop (start + src.length)

variable [Inhabited α]

/-- `Init`. -/
def init (r : Fields α) (size : Nat) : Fields α := { r with ring := replicate size default }

def grow (r : Fields α) : Option (Fields α) :=
  let oldRing := r.ring
  let newSize := if oldRing.length * 2 = 0 then 1 else oldRing.length * 2
  if r.headPos ≤ oldRing.length then
    let ring := copy (replicate newSize default) 0 (oldRing.drop r.headPos)
    let headLen := min newSize (oldRing.length - r.headPos)
    some ⟨copy ring headLen (oldRing.take r.headPos), 0, oldRing.length, false⟩
  else none

def pushBack (r : Fields α) (t : α) : Option (Fields α) :=
  (if r.full || r.ring.length == 0 then r.grow else some r).bind (store · t)

def popFront (r : Fields α) : Option (α × Fields α) :=
  if r.empty then none
  else r.ring[r.headPos]?.map fun t =>
    (t, ⟨r.ring.set r.headPos default,
      if r.headPos + 1 = r.ring.length then 0 else r.headPos + 1, r.tailPos, false⟩)

def clear (r : Fields α) : Fields α := ⟨r.ring.map fun _ => default, 0, 0, false⟩

end Fields

/-! ## The operations keep the bounds -/

/-- The fields of a buffer whose positions are in range. -/
def fields (r : RingBuffer α) : Fields α := ⟨r.ring, r.headPos, r.tailPos, r.full⟩

variable {r : RingBuffer α}

theorem fields_len (r : RingBuffer α) : r.fields.len = r.len := by
  show (if r.full then (r.ring.length : Int) else if r.tailPos ≥ r.headPos then _ else _) = _
  by_cases h : r.ring = []
  · obtain ⟨hhead, htail, hfull⟩ := r.empty_ring h
    simp [fields, len, hhead, htail, hfull]
  · obtain ⟨hhead, htail⟩ := r.in_ring h
    rw [len]
    simp only [fields]
    split_ifs <;> omega

theorem fields_store (h : r.ring ≠ []) (hfull : r.full = false) (t : α) :
    r.fields.store t = some (r.store h hfull t).fields :=
  if_pos (r.in_ring h).2

/-- Copying behind what is there leaves the rest of the new slots. -/
theorem copy_append (x y : List α) {n : Nat} (d : α) (h : y.length ≤ n) :
    Fields.copy (x ++ replicate n d) x.length y = x ++ y ++ replicate (n - y.length) d := by
  rw [Fields.copy, take_left, length_append, length_replicate, Nat.add_sub_cancel_left,
    take_of_length_le h, drop_length_add_append, drop_replicate]

/-- The two halves of the old ring, one behind the other. -/
theorem copy_halves {old : List α} {h n : Nat} (d : α) (hh : h ≤ old.length) (hn : old.length ≤ n) :
    Fields.copy (Fields.copy (replicate n d) 0 (old.drop h)) (min n (old.length - h)) (old.take h) =
      old.drop h ++ old.take h ++ replicate (n - old.length) d := by
  have hdrop : (old.drop h).length = old.length - h := length_drop
  have htake : (old.take h).length = h := length_take_of_le hh
  have hfirst : Fields.copy (replicate n d) 0 (old.drop h) =
      old.drop h ++ replicate (n - (old.drop h).length) d :=
    copy_append [] _ d (by omega)
  rw [hfirst, Nat.min_eq_right (by omega), ← hdrop, copy_append _ _ d (by omega), htake]
  congr 2
  omega

theorem start_bounds (ring : List α) : (ring = [] → 0 = 0 ∧ 0 = 0 ∧ false = false) ∧
    (ring ≠ [] → 0 < ring.length ∧ 0 < ring.length) ∧ (false = true → 0 = 0) :=
  ⟨fun _ => ⟨rfl, rfl, rfl⟩, fun h => ⟨length_pos_iff.mpr h, length_pos_iff.mpr h⟩, fun _ => rfl⟩

/-- A buffer with no elements. -/
def ofRing (ring : List α) : RingBuffer α :=
  ⟨ring, 0, 0, false, (start_bounds ring).1, (start_bounds ring).2.1, (start_bounds ring).2.2⟩

variable [Inhabited α]

theorem fields_grow (r : RingBuffer α) : r.fields.grow = some r.grow.fields := by
  have hhead : r.headPos ≤ r.ring.length := by
    by_cases h : r.ring = []
    · rw [(r.empty_ring h).1]
      exact Nat.zero_le _
    · exact (r.in_ring h).1.le
  refine (if_pos hhead).trans (congrArg (fun x => some (Fields.mk x 0 _ false)) ?_)
  refine copy_halves default hhead ?_
  show r.ring.length ≤ if r.ring.length * 2 = 0 then 1 else r.ring.length * 2
  split_ifs <;> omega

theorem fields_pushBack (r : RingBuffer α) (t : α) :
    r.fields.pushBack t = some (r.pushBack t).fields := by
  rw [Fields.pushBack, pushBack]
  by_cases h : r.full = true ∨ r.ring = []
  · have hc : (r.fields.full || r.fields.ring.length == 0) = true := by
      simpa [fields] using h
    rw [dif_pos h, if_pos hc, fields_grow, Option.bind_some]
    exact fields_store r.grow_ring_ne_nil r.full_grow t
  · have hc : ¬(r.fields.full || r.fields.ring.length == 0) = true := by
      simpa [fields] using h
    rw [dif_neg h, if_neg hc, Option.bind_some]
    exact fields_store _ _ t

theorem fields_popFront (r : RingBuffer α) :
    r.fields.popFront = r.popFront.map fun p => (p.1, p.2.fields) := by
  rw [popFront]
  split_ifs with h
  · have hhead := (r.in_ring (ring_ne_nil h)).1
    have hget : r.fields.ring[r.fields.headPos]? = some (r.ring.get ⟨r.headPos, hhead⟩) :=
      List.getElem?_eq_getElem hhead
    rw [Fields.popFront, hget]
    exact if_neg (by rw [← Bool.not_eq_true] at h; exact h)
  · exact if_pos (Bool.not_eq_false _ ▸ h)

/-! ## Zeroed slots -/

/-- The buffer holds a list, and the zero value in every other slot. -/
structure Holds (r : RingBuffer α) (l : List α) : Prop where
  list : r.toList = l
  zero : ∀ t ∈ r.fromHead.drop r.len, t = default

theorem holds_ofRing {ring : List α} (h : ∀ t ∈ ring, t = default) : (ofRing ring).Holds [] := by
  refine ⟨take_zero, fun t ht => h t ?_⟩
  have heq : (ofRing ring).fromHead = ring := append_nil ring
  rw [heq] at ht
  exact mem_of_mem_drop ht

theorem zero_store {h : r.ring ≠ []} {hfull : r.full = false} {t : α}
    (hz : ∀ x ∈ r.fromHead.drop r.len, x = default) :
    ∀ x ∈ (r.store h hfull t).fromHead.drop (r.store h hfull t).len, x = default := by
  intro x hx
  rw [fromHead_store, len_store, drop_set_of_lt (Nat.lt_succ_self _), drop_add_one_eq_tail_drop]
    at hx
  exact hz x (mem_of_mem_tail hx)

theorem holds_pushBack {l : List α} (h : r.Holds l) (t : α) : (r.pushBack t).Holds (l ++ [t]) := by
  refine ⟨by rw [toList_pushBack, h.list], ?_⟩
  rw [pushBack]
  split_ifs with hg
  · refine zero_store fun x hx => ?_
    obtain ⟨n, hn⟩ := fromHead_grow r
    rw [hn, len_grow, drop_left] at hx
    exact eq_of_mem_replicate hx
  · exact zero_store h.zero

theorem holds_popFront {t : α} {l : List α} (h : r.Holds (t :: l)) :
    ∃ r', r.popFront = some (t, r') ∧ r'.Holds l := by
  obtain ⟨r', hp, hl⟩ := popFront_of_toList h.list
  refine ⟨r', hp, hl, fun x hx => ?_⟩
  rw [popFront] at hp
  split_ifs at hp with hne
  cases hp
  rw [fromHead_advance, drop_append_of_le_length (len_advance_le hne), mem_append,
    mem_singleton] at hx
  rcases hx with hx | hx
  · refine h.zero x ?_
    rwa [len_advance hne, ← drop_tail]
  · exact hx

/-! ## Runs -/

inductive Op (α : Type u)
  | pushBack (t : α)
  | popFront
  | peekFront
  | len
  | empty
  | clear

/-- What the caller sees. -/
inductive Answer (α : Type u)
  | done
  | elem (t : α)
  | number (n : Int)
  | flag (b : Bool)
  | panic

/-- An operation of the buffer.  A panic leaves it as it was. -/
def Fields.exec (r : Fields α) : Op α → Answer α × Fields α
  | .pushBack t => ((r.pushBack t).elim .panic fun _ => .done, (r.pushBack t).getD r)
  | .popFront => (r.popFront.elim .panic (.elem ·.1), (r.popFront.map (·.2)).getD r)
  | .peekFront => (r.peekFront.elim .panic .elem, r)
  | .len => (.number r.len, r)
  | .empty => (.flag r.empty, r)
  | .clear => (.done, r.clear)

/-- The same operation of a list. -/
def queueExec (l : List α) : Op α → Answer α × List α
  | .pushBack t => (.done, l ++ [t])
  | .popFront => (l.head?.elim .panic .elem, l.tail)
  | .peekFront => (l.head?.elim .panic .elem, l)
  | .len => (.number l.length, l)
  | .empty => (.flag l.isEmpty, l)
  | .clear => (.done, [])

def run {σ : Type u} (exec : σ → Op α → Answer α × σ) : σ → List (Op α) → List (Answer α) × σ
  | s, [] => ([], s)
  | s, op :: ops => let a := exec s op; let rest := run exec a.2 ops; (a.1 :: rest.1, rest.2)

/-- A new buffer, with or without a call of `Init`. -/
def Fields.start : Option Nat → Fields α
  | none => zero
  | some size => zero.init size

/-- One operation. -/
theorem exec_holds {l : List α} (h : r.Holds l) (op : Op α) :
    (r.fields.exec op).1 = (queueExec l op).1 ∧
      ∃ r' : RingBuffer α, (r.fields.exec op).2 = r'.fields ∧ r'.Holds (queueExec l op).2 := by
  have hpeek : r.peekFront = l.head? := (peekFront_eq r).trans (congrArg _ h.list)
  cases op with
  | pushBack t =>
    simp only [Fields.exec, fields_pushBack]
    exact ⟨rfl, _, rfl, holds_pushBack h t⟩
  | popFront =>
    simp only [Fields.exec, fields_popFront]
    cases l with
    | nil =>
      have hno : r.popFront = none := dif_neg (by simp [isEmpty_iff.mpr h.list])
      rw [hno]
      exact ⟨rfl, r, rfl, h⟩
    | cons t l =>
      obtain ⟨r', hp, hr'⟩ := holds_popFront h
      rw [hp]
      exact ⟨rfl, r', rfl, hr'⟩
  | peekFront => exact ⟨congrArg (Option.elim · _ _) hpeek, r, rfl, h⟩
  | len => exact ⟨congrArg Answer.number (by rw [fields_len, ← length_toList, h.list]), r, rfl, h⟩
  | empty =>
    refine ⟨congrArg Answer.flag ?_, r, rfl, h⟩
    show r.isEmpty = l.isEmpty
    rw [Bool.eq_iff_iff, isEmpty_iff, h.list, List.isEmpty_iff]
  | clear =>
    refine ⟨rfl, ofRing (r.ring.map fun _ => default), rfl, holds_ofRing fun t ht => ?_⟩
    obtain ⟨_, -, rfl⟩ := mem_map.mp ht
    rfl

theorem run_holds : ∀ (ops : List (Op α)) {r : RingBuffer α} {l : List α}, r.Holds l →
    (run Fields.exec r.fields ops).1 = (run queueExec l ops).1 ∧
      ∃ r' : RingBuffer α, (run Fields.exec r.fields ops).2 = r'.fields ∧
        r'.Holds (run queueExec l ops).2
  | [], r, l, h => ⟨rfl, r, rfl, h⟩
  | op :: ops, r, l, h => by
    obtain ⟨ha, r₁, hr₁, h₁⟩ := exec_holds h op
    obtain ⟨hs, hr⟩ := run_holds ops h₁
    simp only [run, ha, hr₁, hs]
    exact ⟨trivial, hr⟩

theorem start_holds (size : Option Nat) :
    ∃ r : RingBuffer α, Fields.start size = r.fields ∧ r.Holds [] := by
  cases size with
  | none => exact ⟨ofRing [], rfl, holds_ofRing (by simp)⟩
  | some n => exact ⟨ofRing (replicate n default), rfl, holds_ofRing fun t => eq_of_mem_replicate⟩

/-- **The ring buffer is a queue.**  Whatever its first size, every caller sees what they would see
of a list; from the head on the buffer holds the list and then only zero values. -/
theorem run_eq_queue (size : Option Nat) (ops : List (Op α)) :
    let buffer := run Fields.exec (Fields.start size) ops
    let queue := run queueExec [] ops
    buffer.1 = queue.1 ∧
      buffer.2.ring.drop buffer.2.headPos ++ buffer.2.ring.take buffer.2.headPos =
        queue.2 ++ replicate (buffer.2.ring.length - queue.2.length) default := by
  intro buffer queue
  obtain ⟨r, hr, h⟩ := start_holds (α := α) size
  obtain ⟨ha, r', hr', h'⟩ := run_holds ops h
  rw [← hr] at ha hr'
  refine ⟨ha, ?_⟩
  have hlen : r'.len = queue.2.length := by rw [← length_toList, h'.list]
  simp only [buffer, hr']
  show r'.fromHead = _
  rw [← take_append_drop r'.len r'.fromHead, eq_replicate_of_mem h'.zero, length_drop,
    length_fromHead, hlen]
  exact congrArg (· ++ _) (hlen ▸ h'.list)

end UQuic.RingBuffer
