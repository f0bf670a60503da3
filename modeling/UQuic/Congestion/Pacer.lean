/-
# `UQuic.Congestion.Pacer` — the token bucket

The budget grows with the time since the last packet, from what that packet left of it; the
deadline is the first instant, at least 1 ms later, at which it covers a datagram:

    Budget(last + e)   =   min(maxBurstSize, left + ⌊bw·e / 10⁹⌋)
    TimeUntilSend()    =   last + max(1 ms, ⌈10⁹·(maxDatagramSize − left) / bw⌉)

The first line holds as long as the 64-bit product does not wrap.  A product that wraps to a
negative number, and outweighs what is left, is recognised and gives the largest budget; one
that wraps to a small number is not.  The bandwidth, in bytes per second, is an argument: the
source asks for it in every call.
-/
import UQuic.Protocol

namespace UQuic.Congestion

/-- `pacer`. -/
structure Pacer where
  budgetAtLastSent : Int
  maxDatagramSize : Int
  lastSentTime : Int

namespace Pacer

/-- What 2 ms bring, and at least ten datagrams. -/
def maxBurstSize (p : Pacer) (bw : Nat) : Int :=
  max (((2000000 * bw : Int).bmod (2 ^ 64)).tdiv 1000000000) (10 * p.maxDatagramSize)

/-- `newPacer`, of `protocol.InitialPacketSize`. -/
def new (bw : Nat) : Pacer :=
  let p : Pacer := ⟨0, 1280, 0⟩
  { p with budgetAtLastSent := p.maxBurstSize bw }

/-- `time.Time.Sub`: it saturates. -/
def elapsed (now t : Int) : Int := max (-2 ^ 63) (min (now - t) (2 ^ 63 - 1))

def budget (p : Pacer) (bw : Nat) (now : Int) : Int :=
  if isZeroTime p.lastSentTime then p.maxBurstSize bw
  else
    let budget := p.budgetAtLastSent +
      ((bw * elapsed now p.lastSentTime).bmod (2 ^ 64)).tdiv 1000000000
    min (p.maxBurstSize bw) (if budget < 0 then maxByteCount else budget)

def sentPacket (p : Pacer) (bw : Nat) (sendTime size : Int) : Pacer :=
  let budget := p.budget bw sendTime
  { p with
    budgetAtLastSent := if budget ≤ size then 0 else budget - size
    lastSentTime := sendTime }

def timeUntilSend (p : Pacer) (bw : Nat) : Int :=
  if p.maxDatagramSize ≤ p.budgetAtLastSent then 0
  else
    let diff : Int := 1000000000 * (p.maxDatagramSize - p.budgetAtLastSent) % 2 ^ 64
    let d := if 0 < diff % bw then diff / bw + 1 else diff / bw
    p.lastSentTime + max 1000000 (d.bmod (2 ^ 64))

def setMaxDatagramSize (p : Pacer) (s : Int) : Pacer := { p with maxDatagramSize := s }

/-! ## Budget and deadline -/

/-- What every call keeps. -/
structure Sound (p : Pacer) : Prop where
  left : 0 ≤ p.budgetAtLastSent
  size : 0 < p.maxDatagramSize

variable {p : Pacer} {bw : Nat} {t : Int}

theorem budget_bounds (h : p.Sound) : 0 ≤ p.budget bw t ∧ p.budget bw t ≤ p.maxBurstSize bw := by
  have hburst : 10 * p.maxDatagramSize ≤ p.maxBurstSize bw := le_max_right _ _
  have hsize := h.size
  simp only [budget, maxByteCount]
  split
  · omega
  · split <;> omega

theorem Sound.sentPacket (h : p.Sound) (t size : Int) : (p.sentPacket bw t size).Sound := by
  refine ⟨?_, h.size⟩
  simp only [Pacer.sentPacket]
  split <;> omega

theorem bmod_eq {x : Int} (h0 : 0 ≤ x) (h : x < 2 ^ 63) : x.bmod (2 ^ 64) = x :=
  Int.bmod_eq_of_le (by omega) (by omega)

/-- `bw * timeSinceLastSent`, as an `int64`. -/
def earned (p : Pacer) (bw : Nat) (t : Int) : Int :=
  (bw * (t - p.lastSentTime) : Int).bmod (2 ^ 64)

/-- The product is large enough, or so negative that the sum is. -/
def Earns (p : Pacer) (bw : Nat) (t : Int) : Prop :=
  1000000000 * (p.maxDatagramSize - p.budgetAtLastSent) ≤ p.earned bw t ∨
    p.earned bw t ≤ -(1000000000 * (p.budgetAtLastSent + 1))

/-- Before the first packet, and then once enough has been earned. -/
theorem le_budget_iff (h : p.Sound) (hmax : p.maxDatagramSize ≤ maxByteCount)
    (hlt : p.budgetAtLastSent < p.maxDatagramSize) (ht : p.lastSentTime ≤ t)
    (hfit : t - p.lastSentTime < 2 ^ 63) :
    p.maxDatagramSize ≤ p.budget bw t ↔ p.lastSentTime = 0 ∨ p.Earns bw t := by
  have hburst : 10 * p.maxDatagramSize ≤ p.maxBurstSize bw := le_max_right _ _
  have hsize := h.size
  have hleft := h.left
  by_cases hfirst : p.lastSentTime = 0
  · rw [budget, isZeroTime, if_pos (beq_iff_eq.mpr hfirst)]
    exact iff_of_true (by omega) (.inl hfirst)
  have helapsed : elapsed t p.lastSentTime = t - p.lastSentTime := by
    rw [elapsed]
    omega
  simp only [budget, isZeroTime, beq_iff_eq, hfirst, if_false, false_or, helapsed, Earns, earned]
  generalize ((bw : Int) * (t - p.lastSentTime)).bmod (2 ^ 64) = earned
  rcases lt_or_ge earned 0 with hneg | hnonneg
  · obtain ⟨debt, rfl⟩ : ∃ debt, earned = -debt := ⟨-earned, (Int.neg_neg earned).symm⟩
    rw [Int.neg_tdiv, Int.tdiv_eq_ediv_of_nonneg (by omega)]
    split <;> omega
  · rw [Int.tdiv_eq_ediv_of_nonneg hnonneg, if_neg (by omega)]
    omega

/-- The quotient is rounded up. -/
theorem ceil_le_iff {d bw e : Int} (hbw : 0 < bw) :
    (if 0 < d % bw then d / bw + 1 else d / bw) ≤ e ↔ d ≤ bw * e := by
  have hdiv := Int.mul_ediv_add_emod d bw
  have hlt := Int.emod_lt_of_pos d hbw
  have h0 := Int.emod_nonneg d hbw.ne'
  constructor
  · intro h
    split at h <;> nlinarith
  · intro h
    split <;> nlinarith

theorem timeUntilSend_le_iff (h : p.Sound) (hbw : 0 < bw)
    (hfit : 1000000000 * p.maxDatagramSize < 2 ^ 63)
    (hlt : p.budgetAtLastSent < p.maxDatagramSize) :
    p.timeUntilSend bw ≤ t ↔ p.lastSentTime + 1000000 ≤ t ∧
      1000000000 * (p.maxDatagramSize - p.budgetAtLastSent) ≤ bw * (t - p.lastSentTime) := by
  have hleft := h.left
  simp only [timeUntilSend, if_neg (Int.not_le.mpr hlt)]
  generalize hdiff : 1000000000 * (p.maxDatagramSize - p.budgetAtLastSent) = diff
  have hceil := fun e => ceil_le_iff (d := diff) (e := e) (Int.natCast_pos.mpr hbw)
  have hle : diff ≤ bw * diff := le_mul_of_one_le_left (by omega) (by omega)
  have hpos := (hceil 0).mp
  have hsmall := (hceil diff).mpr hle
  rw [← hceil, Int.emod_eq_of_lt (by omega : 0 ≤ diff) (by omega)]
  generalize (if 0 < diff % (bw : Int) then diff / bw + 1 else diff / bw) = d at *
  rw [bmod_eq (by omega) (by omega)]
  omega

/-! ## Whole runs -/

/-- The packets `sends`, each with its time and size. -/
def sentAll (p : Pacer) (bw : Nat) (sends : List (Int × Int)) : Pacer :=
  sends.foldl (fun p s => p.sentPacket bw s.1 s.2) p

theorem Sound.sentAll {sends : List (Int × Int)} (h : p.Sound) :
    (p.sentAll bw sends).Sound ∧ (p.sentAll bw sends).maxDatagramSize = p.maxDatagramSize := by
  induction sends generalizing p with
  | nil => exact ⟨h, rfl⟩
  | cons s sends ih => exact ih (h.sentPacket s.1 s.2)

theorem sound_new {m : Int} (hm : 0 < m) : ((new bw).setMaxDatagramSize m).Sound :=
  ⟨(by decide : (0 : Int) ≤ 10 * 1280).trans (le_max_right _ _), hm⟩

/-- **The next packet may go** at an instant from the deadline on iff enough has been earned
then, in 64 bits, which is so as long as the product of bandwidth and time does not wrap; and
the budget stays within its bounds. -/
theorem pacer_lets_go_iff {bw : Nat} {m : Int} {sends : List (Int × Int)} {p : Pacer}
    (hbw : 0 < bw) (hm : 1200 ≤ m) (hmax : m ≤ 1452)
    (hp : p = ((new bw).setMaxDatagramSize m).sentAll bw sends) :
    (p.timeUntilSend bw ≠ 0 → ∀ now, p.timeUntilSend bw ≤ now → now - p.lastSentTime < 2 ^ 63 →
      (m ≤ p.budget bw now ↔ p.lastSentTime = 0 ∨ p.Earns bw now) ∧
      (bw * (now - p.lastSentTime) < 2 ^ 63 → p.Earns bw now)) ∧
    ∀ now, 0 ≤ p.budget bw now ∧ p.budget bw now ≤ p.maxBurstSize bw := by
  obtain ⟨hsound, rfl⟩ : p.Sound ∧ p.maxDatagramSize = m := by
    rw [hp]
    exact (sound_new (by omega)).sentAll
  refine ⟨?_, fun now => budget_bounds hsound⟩
  intro hwait now hnow hfit
  have hlt : p.budgetAtLastSent < p.maxDatagramSize := by
    by_contra hle
    exact hwait (if_pos (Int.not_lt.mp hle))
  obtain ⟨hdelay, hproduct⟩ := (timeUntilSend_le_iff hsound hbw (by omega) hlt).mp hnow
  have hmaxByteCount : p.maxDatagramSize ≤ maxByteCount := hmax.trans (by decide)
  refine ⟨le_budget_iff hsound hmaxByteCount hlt (by omega) hfit, fun hwrap => .inl ?_⟩
  rw [earned, bmod_eq (by omega) hwrap]
  exact hproduct

/-- Ten packets at once. -/
def burst (bw : Nat) : Pacer :=
  ((new bw).setMaxDatagramSize 1200).sentAll bw (List.replicate 10 (1, 1200))

theorem pacer_lets_go_iff_burst : (burst 1000000).timeUntilSend 1000000 = 1200001 ∧
    1200 ≤ (burst 1000000).budget 1000000 1200001 := by
  have hwait : (burst 1000000).timeUntilSend 1000000 = 1200001 := by decide +kernel
  have hgo := pacer_lets_go_iff (p := burst 1000000) (by decide) (by decide) (by decide) rfl
  obtain ⟨hiff, hearns⟩ := hgo.1 (by rw [hwait]; decide) _ hwait.le (by decide +kernel)
  exact ⟨hwait, hiff.mpr (.inr (hearns (by decide +kernel)))⟩

/-- At 1 MiB/s the product reaches 2^64 five hours after the burst: no budget then.  At 2^63 the
wrap is recognised. -/
theorem pacer_stalls : (burst (2 ^ 20)).timeUntilSend (2 ^ 20) = 1144411 ∧
    (burst (2 ^ 20)).budget (2 ^ 20) (1 + 2 ^ 44) = 0 ∧
    (burst (2 ^ 20)).budget (2 ^ 20) (1 + 2 ^ 43) = 12000 := by
  decide +kernel

end Pacer
end UQuic.Congestion
