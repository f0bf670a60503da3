/-
# `UQuic.AckHandler.PacketNumbers` — no packet number is used twice

A packet number is the nonce of its packet.  The numbers of a space come from a
generator, which skips one now and then; a PTO in the application data space takes one
more and throws it away; a Retry replaces the generator.  The history in turn panics if
a number is neither sent nor reported as skipped.

The run of a connection: numbers are looked at and taken, each number that is taken is
then sent, and everything else a handler does may happen in between.

    peeked    what the last `PeekPacketNumber` of a space returned, until a number is
              taken from the space
    pending   the number that was taken from a space and not sent yet
    popped    all numbers that `PopPacketNumber` returned, in order

## What is proved

`packetNumbers_increase`: along every run the numbers of each space increase, each is the
one that was looked at before, the generator skips at most one number at a time, and the
history does not panic.

## How

Between calls, the next number of the generator follows the highest number of the history,
or the one that is pending (`SpaceInv`).  Acknowledgements, losses and migration touch
neither (`Keeps`).
-/
import UQuic.AckHandler.FrameSettlement
import UQuic.Wire.Header

namespace UQuic.AckHandler

open List Except Function SentPacketHistory
open UQuic.Wire (AckFrame AckRange PacketNumberLen)

/-! ## Looking at a packet number -/

def packetNumberLengthForHeader (pn largestAcked : Int) : PacketNumberLen :=
  let numUnacked := if largestAcked = invalidPacketNumber then pn + 1 else pn - largestAcked
  if numUnacked < 2 ^ (16 - 1) then .two
  else if numUnacked < 2 ^ (24 - 1) then .three
  else .four

def SentPacketHandler.peekPacketNumber (h : SentPacketHandler) (encLevel : EncryptionLevel) :
    Except Failure (Nat × PacketNumberLen) :=
  match h.space encLevel with
  | none => .error .nilDereference
  | some s => .ok (s.pns.peek, packetNumberLengthForHeader s.pns.peek s.largestAcked)

/-- `uSentPacketHandler`; `none` is a length of zero.  It has all methods of the handler in it but
one. -/
structure USentPacketHandler where
  sentPacketHandler : SentPacketHandler
  initialPacketNumberLength : Option PacketNumberLen

/-- `PeekPacketNumber` of a `uSentPacketHandler`. -/
def USentPacketHandler.peekPacketNumber (h : USentPacketHandler) (encLevel : EncryptionLevel) :
    Except Failure (Nat × PacketNumberLen) :=
  match h.sentPacketHandler.space encLevel with
  | none => .error .nilDereference
  | some s =>
    match encLevel, h.initialPacketNumberLength with
    | .initial, some pnLen => .ok (s.pns.peek, pnLen)
    | _, _ => .ok (s.pns.peek, packetNumberLengthForHeader s.pns.peek s.largestAcked)

theorem peekPacketNumber_eq_ok {h : USentPacketHandler} {encLevel : EncryptionLevel} {pn : Nat}
    {pnLen : PacketNumberLen} (hpeek : h.peekPacketNumber encLevel = .ok (pn, pnLen)) :
    ∃ s, h.sentPacketHandler.space encLevel = some s ∧ s.pns.peek = pn := by
  rw [USentPacketHandler.peekPacketNumber] at hpeek
  split at hpeek
  · cases hpeek
  · rename_i s hs
    split at hpeek
    · cases hpeek
      exact ⟨s, hs, rfl⟩
    · cases hpeek
      exact ⟨s, hs, rfl⟩

/-! ## Generators -/

namespace PacketNumberGenerator

def next : PacketNumberGenerator → Nat
  | .sequential next => next
  | .skipping _ _ next _ => next

variable {g : PacketNumberGenerator} {rnd : Nat}

theorem pop_eq_peek (g : PacketNumberGenerator) (rnd : Nat) : (g.pop rnd).2.2 = g.peek := by
  cases g with
  | sequential next => rfl
  | skipping period maxPeriod next nextToSkip =>
    rw [pop, peek]
    split <;> rfl

/-- `Pop` goes on behind the number it returns, and skips the one before if it says so. -/
theorem next_pop (g : PacketNumberGenerator) (rnd : Nat) :
    (g.pop rnd).1.next = (g.pop rnd).2.2 + 1 ∧
      (g.pop rnd).2.2 = g.next + if (g.pop rnd).2.1 = true then 1 else 0 := by
  cases g with
  | sequential next => exact ⟨rfl, rfl⟩
  | skipping period maxPeriod next nextToSkip =>
    rw [pop]
    split
    · exact ⟨rfl, rfl⟩
    · exact ⟨rfl, rfl⟩

theorem next_le_peek (g : PacketNumberGenerator) : g.next ≤ g.peek := by
  have h := (next_pop g 0).2
  rw [pop_eq_peek] at h
  omega

theorem peek_new (initial : Nat) (isAppData : Bool) (rnd : Nat) :
    (new initial isAppData rnd).peek = initial ∧ (new initial isAppData rnd).next = initial := by
  cases isAppData with
  | false => exact ⟨rfl, rfl⟩
  | true =>
    refine ⟨if_neg ?_, rfl⟩
    omega

/-- What successive `Pop`s return. -/
def pops : PacketNumberGenerator → List Nat → List (Bool × Nat)
  | _, [] => []
  | g, rnd :: rnds => (g.pop rnd).2 :: pops (g.pop rnd).1 rnds

/-- Two successive `Pop`s: the second number follows the first, or one number is skipped; and not
twice in a row. -/
def Follows (a b : Bool × Nat) : Prop :=
  b = (false, a.2 + 1) ∨ b = (true, a.2 + 2) ∧ a.1 = false

/-- The number to skip lies ahead, by more than one if a number was just skipped. -/
def Ahead (skipped : Bool) : PacketNumberGenerator → Prop
  | .sequential _ => True
  | .skipping _ _ next nextToSkip => next ≤ nextToSkip ∧ (skipped = true → next < nextToSkip)

theorem Ahead.pop {skipped : Bool} (h : g.Ahead skipped) (rnd : Nat) :
    (g.pop rnd).1.Ahead (g.pop rnd).2.1 ∧ ((g.pop rnd).2.1 = true → skipped = false) := by
  cases g with
  | sequential next => exact ⟨trivial, by rintro ⟨⟩⟩
  | skipping period maxPeriod next nextToSkip =>
    obtain ⟨hle, hlt⟩ := h
    rw [PacketNumberGenerator.pop]
    split_ifs with heq
    · refine ⟨?_, fun _ => ?_⟩
      · show next + 2 ≤ next + 2 + 3 + rnd % (2 * period) ∧ (_ → next + 2 < _)
        omega
      · cases skipped with
        | false => rfl
        | true => exact absurd heq (Nat.ne_of_lt (hlt rfl))
    · exact ⟨⟨by omega, by rintro ⟨⟩⟩, by rintro ⟨⟩⟩

/-- The numbers follow each other. -/
theorem chain_pops : ∀ (rnds : List Nat) (g : PacketNumberGenerator) (a : Bool × Nat),
    g.next = a.2 + 1 → g.Ahead a.1 → List.IsChain Follows (a :: pops g rnds) := by
  intro rnds
  induction rnds with
  | nil =>
    intro g a _ _
    exact .singleton a
  | cons rnd rnds ih =>
    intro g a hnext hahead
    obtain ⟨hnext', hpn⟩ := next_pop g rnd
    obtain ⟨hahead', honce⟩ := hahead.pop rnd
    refine isChain_cons_cons.mpr ⟨?_, ih (g.pop rnd).1 (g.pop rnd).2 hnext' hahead'⟩
    cases hskip : (g.pop rnd).2.1 with
    | false =>
      rw [hskip, hnext, if_neg Bool.false_ne_true] at hpn
      exact .inl (Prod.ext hskip hpn)
    | true =>
      rw [hskip, hnext, if_pos rfl] at hpn
      exact .inr ⟨Prod.ext hskip hpn, honce hskip⟩

/-- **A generator never skips two numbers in a row.** -/
theorem pops_new (initial : Nat) (isAppData : Bool) (rnd : Nat) (rnds : List Nat) :
    List.IsChain Follows (pops (new initial isAppData rnd) rnds) := by
  cases rnds with
  | nil => exact .nil
  | cons r rnds =>
    have hahead : (new initial isAppData rnd).Ahead false := by
      cases isAppData with
      | false => trivial
      | true => exact ⟨by omega, by rintro ⟨⟩⟩
    exact chain_pops rnds _ _ (next_pop _ r).1 (hahead.pop r).1

end PacketNumberGenerator

/-! ## Histories -/

namespace SentPacketHistory

variable {history : SentPacketHistory} {pn : Int}

/-- The number is the first one, or the next. -/
def Awaits (history : SentPacketHistory) (pn : Int) : Prop :=
  history.highestPacketNumber = invalidPacketNumber ∨ history.highestPacketNumber + 1 = pn

/-- An operation that records a number. -/
def Records (f : SentPacketHistory → Except Failure SentPacketHistory) (pn : Int) : Prop :=
  ∀ history, history.Awaits pn → ∃ history', f history = .ok history' ∧
    history'.highestPacketNumber = pn

theorem records_of_check {op : SentPacketHistory → Except Failure SentPacketHistory}
    {f : SentPacketHistory → SentPacketHistory}
    (hop : ∀ history, op history = (history.checkSequentialPacketNumberUse pn).map f)
    (hf : ∀ history, (f history).highestPacketNumber = history.highestPacketNumber) :
    Records op pn := by
  intro history hawaits
  have hcheck : history.checkSequentialPacketNumberUse pn =
      .ok { history with highestPacketNumber := pn } := by
    refine if_neg ?_
    rintro ⟨hne, hne'⟩
    rcases hawaits with h | h
    · exact hne h
    · exact hne' h.symm
  refine ⟨f { history with highestPacketNumber := pn }, ?_, hf _⟩
  rw [hop, hcheck]
  rfl

theorem records_skippedPacket (pn : Int) : Records (·.skippedPacket pn) pn :=
  records_of_check (fun _ => rfl) fun _ => rfl

theorem records_sentNonAckElicitingPacket (pn : Int) :
    Records (·.sentNonAckElicitingPacket pn) pn := by
  refine records_of_check (fun _ => rfl) fun history => ?_
  split <;> rfl

end SentPacketHistory

namespace SentPacketHandler

open SentPacketHistory (Records)

variable {h h' h'' : SentPacketHandler} {s s' : PacketNumberSpace} {encLevel : EncryptionLevel}
  {pn : Int} {x : Except Failure SentPacketHandler}

/-! ## What uses no packet number -/

/-- No number was used: every space that is left has its generator and the highest number of its
history. -/
def Keeps (h h' : SentPacketHandler) : Prop :=
  ∀ l s', h'.space l = some s' → ∃ s, h.space l = some s ∧ s'.pns = s.pns ∧
    s'.history.highestPacketNumber = s.history.highestPacketNumber

theorem keeps_of_space (heq : ∀ l, h'.space l = h.space l) : Keeps h h' := fun l s' hs' =>
  ⟨s', (heq l).symm.trans hs', rfl, rfl⟩

theorem Keeps.refl (h : SentPacketHandler) : Keeps h h := keeps_of_space fun _ => rfl

theorem Keeps.trans (hk : Keeps h h') (hk' : Keeps h' h'') : Keeps h h'' := by
  intro l s'' hs''
  obtain ⟨s', hs', hpns', hhigh'⟩ := hk' l s'' hs''
  obtain ⟨s, hs, hpns, hhigh⟩ := hk l s' hs'
  exact ⟨s, hs, hpns'.trans hpns, hhigh'.trans hhigh⟩

theorem Trims.keeps (ht : h.Trims h') : Keeps h h' := by
  intro l s' hs'
  obtain ⟨s, hs, hts⟩ := ht.space l s' hs'
  exact ⟨s, hs, hts.pns, hts.history.highest⟩

/-- A computation that uses no number. -/
def Quiet (h : SentPacketHandler) (x : Except Failure SentPacketHandler) : Prop :=
  x.Meets (Keeps h) Failure.Sequential

theorem Trimming.quiet (hx : h.Trimming x) : Quiet h x :=
  Meets.mono hx fun _ ht => ht.keeps

theorem receivedAck_quiet (h : SentPacketHandler) (ack : AckFrame) (encLevel : EncryptionLevel)
    (rcvTime : Int) (rtt : RTT) :
    (h.receivedAck ack encLevel rcvTime rtt).Meets (fun r => Keeps h r.1) Failure.Sequential := by
  refine (receivedAck_cases h ack encLevel rcvTime rtt).mono fun r hr => ?_
  obtain ⟨h₁, ht, heq⟩ := hr
  have hvalidate : Keeps h (h.completeAddressValidation encLevel rcvTime rtt) := by
    rw [completeAddressValidation]
    split <;> exact keeps_of_space fun _ => rfl
  have hk := hvalidate.trans ht.keeps
  rcases heq with heq | heq
  · exact heq ▸ hk
  · exact heq ▸ hk.trans (keeps_of_space fun _ => rfl)

theorem Drops.keeps (hd : Drops h encLevel h') : Keeps h h' := by
  cases hd with
  | initial ht =>
    refine ht.keeps.trans fun l s hs => ?_
    cases l with
    | initial => cases hs
    | handshake | zeroRTT | oneRTT => exact ⟨s, hs, rfl, rfl⟩
  | handshake ht =>
    refine ht.keeps.trans fun l s hs => ?_
    cases l with
    | handshake => cases hs
    | initial | zeroRTT | oneRTT => exact ⟨s, hs, rfl, rfl⟩
  | zeroRTT ht => exact ht.keeps

theorem dropPackets_quiet (h : SentPacketHandler) (encLevel : EncryptionLevel) (now : Int)
    (rtt : RTT) : Quiet h (h.dropPackets encLevel now rtt) := by
  have hvalidate : Keeps h (h.validateOnDrop encLevel) := by
    rw [validateOnDrop]
    split <;> exact keeps_of_space fun _ => rfl
  refine (dropPackets_cases h encLevel now rtt).mono fun h' hcases => ?_
  rcases hcases with rfl | ⟨h₁, hd, rfl⟩
  · exact hvalidate
  · exact (hvalidate.trans hd.keeps).trans (keeps_of_space fun _ => rfl)

theorem migratedPath_quiet (h : SentPacketHandler) (now : Int) (rtt : RTT) :
    Quiet h (h.migratedPath now rtt) := by
  refine (migratedPath_cases h now rtt).mono fun h' hcases => ?_
  obtain ⟨h₁, ht, rfl⟩ := hcases
  exact ht.keeps.trans (keeps_of_space fun _ => rfl)

theorem receivedBytes_keeps (h : SentPacketHandler) (n : Nat) (t : Int) (rtt : RTT) :
    Keeps h (h.receivedBytes n t rtt) := by
  rw [receivedBytes]
  split <;> exact keeps_of_space fun _ => rfl

theorem receivedPacket_keeps (h : SentPacketHandler) (l : EncryptionLevel) (t : Int) (rtt : RTT) :
    Keeps h (h.receivedPacket l t rtt) := by
  rw [receivedPacket]
  split <;> exact keeps_of_space fun _ => rfl

/-! ## What uses packet numbers -/

/-- The spaces of `h'` are those of `h` with one replaced. -/
def Replaces (h : SentPacketHandler) (encLevel : EncryptionLevel) (s : PacketNumberSpace)
    (h' : SentPacketHandler) : Prop :=
  ∀ l, h'.space l = (h.setSpace s encLevel).space l

theorem popPacketNumber_eq (rnd : Nat) (hs : h.space encLevel = some s)
    (hawaits : s.history.Awaits s.pns.next) :
    ∃ s', h.popPacketNumber encLevel rnd = .ok (h.setSpace s' encLevel, s.pns.peek) ∧
      s'.pns.next = s.pns.peek + 1 ∧ s'.history.Awaits s.pns.peek := by
  obtain ⟨hnext, hpn⟩ := s.pns.next_pop rnd
  have hpeek := s.pns.pop_eq_peek rnd
  rw [hpeek] at hnext hpn
  rw [popPacketNumber, hs]
  dsimp only
  rw [hpeek]
  split_ifs at hpn ⊢ with hskip
  · have hprev : ((s.pns.peek : Nat) : Int) - 1 = s.pns.next := by omega
    obtain ⟨history', hok, hhigh⟩ := records_skippedPacket (s.pns.peek - 1) s.history
      (by rw [hprev]; exact hawaits)
    refine ⟨{ s with pns := (s.pns.pop rnd).1, history := history' }, ?_, hnext, .inr ?_⟩
    · have hok : s.history.skippedPacket (s.pns.peek - 1) = .ok history' := hok
      rw [hok]
      rfl
    · rw [hhigh]
      omega
  · rw [Nat.add_zero] at hpn
    exact ⟨{ s with pns := (s.pns.pop rnd).1 }, rfl, hnext, by rw [hpn]; exact hawaits⟩

theorem onHistory_records {f : SentPacketHistory → Except Failure SentPacketHistory}
    (hf : Records f pn) (hs : h.space encLevel = some s) (hawaits : s.history.Awaits pn) :
    ∃ history', h.onHistory encLevel f = .ok (h.setSpace { s with history := history' } encLevel) ∧
      history'.highestPacketNumber = pn := by
  obtain ⟨history', hok, hhigh⟩ := hf s.history hawaits
  refine ⟨history', ?_, hhigh⟩
  rw [onHistory, hs]
  dsimp only
  rw [hok]
  rfl

/-- What is replaced does not matter for what it is replaced by. -/
theorem space_setSpace_setSpace (hsame : ∀ l, h'.space l = (h.setSpace s encLevel).space l)
    (l : EncryptionLevel) : (h'.setSpace s' encLevel).space l =
    (h.setSpace s' encLevel).space l := by
  have hl := hsame l
  cases encLevel <;> cases l <;> first | rfl | exact hl

/-- A computation that sends the number which the history of its space awaits. -/
def Sends (h : SentPacketHandler) (encLevel : EncryptionLevel) (pn : Int)
    (x : Except Failure SentPacketHandler) : Prop :=
  ∀ s, h.space encLevel = some s → s.history.Awaits pn →
    ∃ h' s', x = .ok h' ∧ h.Replaces encLevel s' h' ∧ s'.pns = s.pns ∧
      s'.history.highestPacketNumber = pn

theorem sends_onHistory {f : SentPacketHistory → Except Failure SentPacketHistory}
    (hf : Records f pn) (h : SentPacketHandler) (encLevel : EncryptionLevel) :
    h.Sends encLevel pn (h.onHistory encLevel f) := by
  intro s hs hawaits
  obtain ⟨history', hok, hhigh⟩ := onHistory_records hf hs hawaits
  exact ⟨_, { s with history := history' }, hok, fun _ => rfl, rfl, hhigh⟩

theorem Sends.map {f : SentPacketHandler → SentPacketHandler} (hx : h.Sends encLevel pn x)
    (hf : ∀ h' l, (f h').space l = h'.space l) : h.Sends encLevel pn (x.map f) := by
  intro s hs hawaits
  obtain ⟨h', s', rfl, hreplaces, hrest⟩ := hx s hs hawaits
  exact ⟨f h', s', rfl, fun l => (hf h' l).trans (hreplaces l), hrest⟩

/-- What is set up in the space before sending does not matter. -/
theorem Sends.of_setSpace (s' : PacketNumberSpace) (hx : h'.Sends encLevel pn x)
    (hsame : ∀ l, h'.space l = (h.setSpace s' encLevel).space l) (hs : h.space encLevel = some s)
    (hpns : s'.pns = s.pns) (hhistory : s'.history = s.history) : h.Sends encLevel pn x := by
  intro t ht hawaits
  cases hs.symm.trans ht
  obtain ⟨h'', s'', hok, hreplaces, hpns', hhigh⟩ := hx s' ((hsame _).trans space_setSpace)
    (by rw [hhistory]; exact hawaits)
  exact ⟨h'', s'', hok, fun l => (hreplaces l).trans (space_setSpace_setSpace hsame l),
    hpns'.trans hpns,
    hhigh⟩

theorem sentPathProbe_sends (h : SentPacketHandler) (a : Sent) :
    h.Sends a.encLevel a.pn (h.sentPathProbe a) := by
  rw [sentPathProbe]
  refine sends_onHistory ?_ h a.encLevel
  exact records_of_check (fun _ => rfl) fun _ => rfl

theorem sentNonAckEliciting_sends (h : SentPacketHandler) (a : Sent) (rtt : RTT) :
    h.Sends a.encLevel a.pn (h.sentNonAckEliciting a rtt) := by
  refine (sends_onHistory (records_sentNonAckElicitingPacket _) h a.encLevel).map
    fun h' l => ?_
  split <;> rfl

theorem sentAckEliciting_sends (hs : h.space encLevel = some s) (a : Sent)
    (ha : a.encLevel = encLevel)
    (rtt : RTT) : h.Sends encLevel a.pn (h.sentAckEliciting s a rtt) := by
  subst ha
  refine Sends.map ?_ fun _ _ => rfl
  refine Sends.of_setSpace { s with lastAckElicitingPacketTime := a.time }
    (sends_onHistory ?_ _ a.encLevel) (fun _ => rfl) hs rfl rfl
  exact records_of_check (fun _ => rfl) fun _ => rfl

theorem sentPacket_sends (h : SentPacketHandler) (a : Sent) (rtt : RTT) :
    h.Sends a.encLevel a.pn (h.sentPacket a rtt) := by
  intro s hs hawaits
  rw [sentPacket, hs]
  dsimp only
  have hcounted : ∀ x, (({ h with bytesSent := h.bytesSent + a.size } : SentPacketHandler).setSpace
      { s with largestSent := a.pn } a.encLevel).Sends a.encLevel a.pn x →
      h.Sends a.encLevel a.pn x := by
    intro x hx
    refine Sends.of_setSpace { s with largestSent := a.pn } hx (fun l => ?_) hs rfl rfl
    cases a.encLevel <;> cases l <;> rfl
  split
  · exact hcounted _ (Sends.map (f := (·.setLossDetectionTimer a.time rtt))
      (sentPathProbe_sends _ a) fun _ _ => rfl) s hs hawaits
  · split
    · exact hcounted _ (sentNonAckEliciting_sends _ a rtt) s hs hawaits
    · exact hcounted _ (sentAckEliciting_sends space_setSpace a rfl rtt) s hs hawaits

/-! ### The PTO -/

/-- One number of the application data space may have been taken and thrown away. -/
def Advances (h h' : SentPacketHandler) : Prop :=
  Keeps h h' ∨ ∃ s', h.Replaces .oneRTT s' h' ∧ h.appDataPackets.pns.next < s'.pns.next ∧
    s'.history.highestPacketNumber + 1 = s'.pns.next

/-- The history of the application data space awaits the number of its generator. -/
def AppDataReady (h : SentPacketHandler) : Prop :=
  h.appDataPackets.history.Awaits h.appDataPackets.pns.next

theorem setPTOMode_advances (hready : h.AppDataReady) (rnd : Nat) (encLevel : EncryptionLevel) :
    (h.setPTOMode rnd encLevel).Meets (Advances h) Failure.Sequential := by
  cases encLevel with
  | initial | handshake => exact .inl (keeps_of_space fun _ => rfl)
  | zeroRTT => exact nofun
  | oneRTT =>
    have hspace : h.space .oneRTT = some h.appDataPackets := rfl
    obtain ⟨s', hpop, hnext, hawaits⟩ := popPacketNumber_eq rnd hspace hready
    have hspace' : (h.setSpace s' .oneRTT).space .oneRTT = some s' := rfl
    obtain ⟨history', hskip, hhigh⟩ := onHistory_records
      (records_skippedPacket _) hspace' hawaits
    rw [setPTOMode, hpop]
    dsimp only [Except.bind]
    rw [hskip]
    refine .inr ⟨{ s' with history := history' }, fun l => ?_, ?_, ?_⟩
    · cases l <;> rfl
    · have hle := h.appDataPackets.pns.next_le_peek
      show h.appDataPackets.pns.next < s'.pns.next
      omega
    · show history'.highestPacketNumber + 1 = s'.pns.next
      omega

theorem Advances.of_space (ha : Advances h' h'') (hsame : ∀ l, h'.space l = h.space l) :
    Advances h h'' := by
  rcases ha with hk | ⟨s', hreplaces, hlt, hhigh⟩
  · exact .inl ((keeps_of_space hsame).trans hk)
  · have happ : h'.appDataPackets = h.appDataPackets := Option.some.inj (hsame .oneRTT)
    refine .inr ⟨s', fun l => ?_, by rw [← happ]; exact hlt, hhigh⟩
    rw [hreplaces l]
    cases l with
    | initial => exact hsame .initial
    | handshake => exact hsame .handshake
    | zeroRTT | oneRTT => rfl

theorem lossOrPTO_advances (hready : h.AppDataReady) (now : Int) (rtt : RTT) (rnd : Nat) :
    (h.lossOrPTO now rtt rnd).Meets (Advances h) Failure.Sequential := by
  refine lossOrPTO_rule Failure.Plain.sequential
    (fun _ _ _ => .inl (keeps_of_space fun _ => rfl)) (fun l => ?_) fun l => ?_
  · exact Meets.mono (detectLostPackets_trims h now l rtt).quiet fun _ hk => .inl hk
  · have hready' : (h.countPTO 2).AppDataReady := hready
    exact (setPTOMode_advances hready' rnd l).mono fun _ ha => ha.of_space fun _ => rfl

theorem Keeps.appData (hk : Keeps h h') : h'.appDataPackets.pns = h.appDataPackets.pns ∧
    h'.appDataPackets.history.highestPacketNumber =
    h.appDataPackets.history.highestPacketNumber := by
  obtain ⟨s, hs, hrest⟩ := hk .oneRTT h'.appDataPackets rfl
  cases hs
  exact hrest

theorem onLossDetectionTimeout_advances (hready : h.AppDataReady) (now : Int) (rtt : RTT)
    (rnd : Nat) : (h.onLossDetectionTimeout now rtt rnd).Meets
      (fun h'' => ∃ h', Keeps h h' ∧ Advances h' h'') Failure.Sequential := by
  have hprobes : Quiet h (if h.handshakeConfirmed then h.detectLostPathProbes now else .ok h) := by
    split
    · exact (detectLostPathProbes_trims h now).quiet
    · exact Keeps.refl h
  refine Meets.map (Meets.bind hprobes fun h' hk => ?_) fun _ h => h
  obtain ⟨hpns, hhigh⟩ := hk.appData
  have hready' : h'.AppDataReady := by
    rw [AppDataReady, SentPacketHistory.Awaits, hpns, hhigh]
    exact hready
  refine (lossOrPTO_advances hready' now rtt rnd).mono fun h'' ha => ⟨h', hk, ?_⟩
  rcases ha with hk' | ⟨s', hreplaces, hrest⟩
  · exact .inl (hk'.trans (keeps_of_space fun _ => rfl))
  · exact .inr ⟨s', hreplaces, hrest⟩

/-! ### Retry -/

theorem queueForRetry_space (h : SentPacketHandler) (p : Packet) :
    (h.queueForRetry p).Meets (fun h' => ∀ l, h'.space l = h.space l) Failure.Sequential := by
  rw [queueForRetry]
  split
  · exact fun _ => rfl
  · rw [queueFramesForRetransmission]
    split
    · rintro ⟨⟩
    · exact fun _ => rfl

/-- The two spaces start again where they were. -/
theorem resetForRetry_renews (h : SentPacketHandler) (rnd : Nat) :
    (h.resetForRetry rnd).Meets (fun h' => ∃ s, h.initialPackets = some s ∧
      h'.space .initial = some (.new s.pns.peek false rnd) ∧
      h'.appDataPackets = .new h.appDataPackets.pns.peek true rnd ∧
      h'.space .handshake = h.space .handshake) Failure.Sequential := by
  rw [resetForRetry]
  split
  · rintro ⟨⟩
  · rename_i s hs
    have hq : ((s.history.entries ++ h.appDataPackets.history.entries).foldlM queueForRetry
        { h with bytesInFlight := 0 }).Meets (fun h' => ∀ l, h'.space l = h.space l)
        Failure.Sequential := by
      refine Meets.foldlM
        (I := fun _ (h' : SentPacketHandler) => ∀ l, h'.space l = h.space l) ?_ fun _ => rfl
      exact fun p _ h' hsame => (queueForRetry_space h' p).mono fun _ hsame' l =>
        (hsame' l).trans (hsame l)
    refine hq.map fun h' hsame => ⟨s, hs, rfl, ?_, hsame .handshake⟩
    have happ : h'.appDataPackets = h.appDataPackets := Option.some.inj (hsame .oneRTT)
    show PacketNumberSpace.new h'.appDataPackets.pns.peek true rnd = _
    rw [happ]

end SentPacketHandler

/-! ## The run of a connection -/

/-- The packet number spaces. -/
inductive SpaceID
  | initial
  | handshake
  | appData
  deriving DecidableEq, Repr

def SpaceID.of : EncryptionLevel → SpaceID
  | .initial => .initial
  | .handshake => .handshake
  | .zeroRTT | .oneRTT => .appData

/-- The handler, and what was asked of it. -/
structure Numbering where
  handler : USentPacketHandler
  peeked : SpaceID → Option Nat
  pending : SpaceID → Option Nat
  popped : SpaceID → List Nat

namespace Numbering

/-- `NewUAckHandler`. -/
def new (initialPN : Nat) (clientAddressValidated : Bool) (pers : Perspective) (rnd : Nat) :
    Numbering where
  handler := ⟨.new initialPN clientAddressValidated pers rnd, none⟩
  peeked _ := none
  pending _ := none
  popped _ := []

/-- What may happen. -/
inductive Event
  | peekPacketNumber (encLevel : EncryptionLevel)
  | setInitialPacketNumberLength (pnLen : Option PacketNumberLen)
  | call (c : SentPacketHandler.Call)

def withHandler (s : Numbering) (h : SentPacketHandler) : Numbering :=
  { s with handler := { s.handler with sentPacketHandler := h } }

/-- The number that a PTO took: the generator went on behind it. -/
def takenByPTO (h h' : SentPacketHandler) : List Nat :=
  if h'.appDataPackets.pns.next = h.appDataPackets.pns.next then []
  else [h'.appDataPackets.pns.next - 1]

def step (s : Numbering) : Event → Except Failure Numbering
  | .peekPacketNumber encLevel =>
    (s.handler.peekPacketNumber encLevel).map fun (pn, _) =>
      { s with peeked := Function.update s.peeked (.of encLevel) (some pn) }
  | .setInitialPacketNumberLength pnLen =>
    .ok { s with handler := { s.handler with initialPacketNumberLength := pnLen } }
  | .call (.popPacketNumber encLevel rnd) =>
    (s.handler.sentPacketHandler.popPacketNumber encLevel rnd).map fun (h, pn) =>
      { s.withHandler h with
        peeked := Function.update s.peeked (.of encLevel) none
        pending := Function.update s.pending (.of encLevel) (some pn)
        popped := Function.update s.popped (.of encLevel) (s.popped (.of encLevel) ++ [pn]) }
  | .call (.sentPacket a rtt) =>
    (s.handler.sentPacketHandler.sentPacket a rtt).map fun h =>
      { s.withHandler h with pending := Function.update s.pending (.of a.encLevel) none }
  | .call (.onLossDetectionTimeout now rtt rnd) =>
    (s.handler.sentPacketHandler.onLossDetectionTimeout now rtt rnd).map fun h =>
      { s.withHandler h with
        peeked := Function.update s.peeked .appData none
        popped := Function.update s.popped .appData
          (s.popped .appData ++ takenByPTO s.handler.sentPacketHandler h) }
  | .call c => (s.handler.sentPacketHandler.call c).map s.withHandler

/-- A number is sent before the next one is taken from its space, and before a timeout or a Retry
that may take one. -/
def Permitted (s : Numbering) : Event → Prop
  | .call (.popPacketNumber encLevel _) => s.pending (.of encLevel) = none
  | .call (.sentPacket a _) => s.pending (.of a.encLevel) = some a.pn
  | .call (.onLossDetectionTimeout ..) => s.pending .appData = none
  | .call (.resetForRetry _) => s.pending .initial = none ∧ s.pending .appData = none
  | _ => True

instance (s : Numbering) : (e : Event) → Decidable (s.Permitted e)
  | .call (.popPacketNumber encLevel _) =>
    inferInstanceAs (Decidable (s.pending (.of encLevel) = none))
  | .call (.sentPacket a _) => inferInstanceAs (Decidable (s.pending (.of a.encLevel) = some a.pn))
  | .call (.onLossDetectionTimeout ..) => inferInstanceAs (Decidable (s.pending .appData = none))
  | .call (.resetForRetry _) =>
    inferInstanceAs (Decidable (s.pending .initial = none ∧ s.pending .appData = none))
  | .peekPacketNumber _ | .setInitialPacketNumberLength _ | .call (.receivedAck ..)
  | .call (.queueProbePacket _) | .call (.dropPackets ..) | .call (.migratedPath ..)
  | .call (.receivedBytes ..) | .call (.receivedPacket ..) => .isTrue trivial

def machine (initialPN : Nat) (clientAddressValidated : Bool) (pers : Perspective) (rnd : Nat) :
    Machine Numbering Event :=
  (Machine.ofStep (new initialPN clientAddressValidated pers rnd)
    fun s e => (s.step e).toOption).guard Permitted

/-! ## The invariant -/

/-- A space, with what was asked of it. -/
structure SpaceInv (s : PacketNumberSpace) (peeked pending : Option Nat) (popped : List Nat) :
    Prop where
  awaits : s.history.Awaits ((pending.getD s.pns.next : Nat) : Int)
  next : ∀ pn ∈ pending, s.pns.next = pn + 1
  peek : ∀ pn ∈ peeked, s.pns.peek = pn
  below : ∀ pn ∈ popped, pn < s.pns.next

/-- The invariant of all spaces. -/
structure Inv (s : Numbering) : Prop where
  space : ∀ l sp, s.handler.sentPacketHandler.space l = some sp →
    SpaceInv sp (s.peeked (.of l)) (s.pending (.of l)) (s.popped (.of l))
  increasing : ∀ id, (s.popped id).Pairwise (· < ·)

variable {s s' : Numbering} {sp sp' : PacketNumberSpace} {peeked pending : Option Nat}
  {popped : List Nat}

theorem SpaceInv.congr (h : SpaceInv sp peeked pending popped) (hpns : sp'.pns = sp.pns)
    (hhigh : sp'.history.highestPacketNumber = sp.history.highestPacketNumber) :
    SpaceInv sp' peeked pending popped := by
  obtain ⟨hawaits, hnext, hpeek, hbelow⟩ := h
  refine ⟨?_, ?_, ?_, ?_⟩
  · rw [SentPacketHistory.Awaits, hpns, hhigh]
    exact hawaits
  · rw [hpns]
    exact hnext
  · rw [hpns]
    exact hpeek
  · rw [hpns]
    exact hbelow

theorem spaceInv_new (initial : Nat) (isAppData : Bool) (rnd : Nat)
    (hpeek : ∀ pn ∈ peeked, initial = pn) (hbelow : ∀ pn ∈ popped, pn < initial) :
    SpaceInv (.new initial isAppData rnd) peeked none popped := by
  obtain ⟨hp, hn⟩ := PacketNumberGenerator.peek_new initial isAppData rnd
  refine ⟨.inl rfl, nofun, ?_, ?_⟩
  · intro pn hpn
    exact hp.trans (hpeek pn hpn)
  · intro pn hpn
    exact Nat.lt_of_lt_of_eq (hbelow pn hpn) hn.symm

theorem Inv.new (initialPN : Nat) (validated : Bool) (pers : Perspective) (rnd : Nat) :
    Inv (new initialPN validated pers rnd) := by
  refine ⟨fun l sp hsp => ?_, fun _ => .nil⟩
  cases l with
  | initial | handshake | zeroRTT | oneRTT =>
    cases hsp
    exact spaceInv_new _ _ _ nofun nofun

theorem Inv.keeps (hi : s.Inv) {h : SentPacketHandler}
    (hk : SentPacketHandler.Keeps s.handler.sentPacketHandler h) : (s.withHandler h).Inv := by
  refine ⟨fun l sp' hsp' => ?_, hi.increasing⟩
  obtain ⟨sp, hsp, hpns, hhigh⟩ := hk l sp' hsp'
  exact (hi.space l sp hsp).congr hpns hhigh

/-- One space is replaced; what was asked of the others stays. -/
theorem Inv.replace (hi : s.Inv) (encLevel : EncryptionLevel)
    (hreplaces : s.handler.sentPacketHandler.Replaces encLevel sp' s'.handler.sentPacketHandler)
    (hsp' : SpaceInv sp' (s'.peeked (.of encLevel)) (s'.pending (.of encLevel))
      (s'.popped (.of encLevel)))
    (hothers : ∀ id, id ≠ .of encLevel → s'.peeked id = s.peeked id ∧ s'.pending id = s.pending id ∧
      s'.popped id = s.popped id)
    (hincreasing : (s'.popped (.of encLevel)).Pairwise (· < ·)) : s'.Inv := by
  refine ⟨fun l t ht => ?_, fun id => ?_⟩
  · rw [hreplaces l] at ht
    by_cases heq : SpaceID.of l = .of encLevel
    · have hsame : (s.handler.sentPacketHandler.setSpace sp' encLevel).space l = some sp' := by
        cases l <;> cases encLevel <;> first | rfl | cases heq
      cases hsame.symm.trans ht
      rw [heq]
      exact hsp'
    · have hother : (s.handler.sentPacketHandler.setSpace sp' encLevel).space l =
          s.handler.sentPacketHandler.space l := by
        cases l <;> cases encLevel <;> first | rfl | exact absurd rfl heq
      obtain ⟨hpeeked, hpending, hpopped⟩ := hothers (.of l) heq
      rw [hpeeked, hpending, hpopped]
      exact hi.space l t (hother.symm.trans ht)
  · by_cases heq : id = .of encLevel
    · rw [heq]
      exact hincreasing
    · rw [(hothers id heq).2.2]
      exact hi.increasing id

theorem pairwise_snoc {l : List Nat} {n m : Nat} (h : l.Pairwise (· < ·)) (hlt : ∀ k ∈ l, k < n)
    (hle : n ≤ m) : (l ++ [m]).Pairwise (· < ·) := by
  refine pairwise_append.mpr ⟨h, pairwise_singleton _ _, fun k hk m' hm' => ?_⟩
  rw [mem_singleton.mp hm']
  exact (hlt k hk).trans_le hle

variable {encLevel : EncryptionLevel} {rnd : Nat}

section

variable (hi : s.Inv)

include hi

theorem Inv.popPacketNumber (hp : s.pending (.of encLevel) = none)
    (hsp : s.handler.sentPacketHandler.space encLevel = some sp) (rnd : Nat) :
    ∃ sp', s.handler.sentPacketHandler.popPacketNumber encLevel rnd =
        .ok (s.handler.sentPacketHandler.setSpace sp' encLevel, sp.pns.peek) ∧
      SpaceInv sp' none (some sp.pns.peek) (s.popped (.of encLevel) ++ [sp.pns.peek]) := by
  have hinv := hi.space encLevel sp hsp
  rw [hp] at hinv
  obtain ⟨sp', hpop, hnext, hawaits⟩ :=
    SentPacketHandler.popPacketNumber_eq rnd hsp (hinv.awaits : sp.history.Awaits sp.pns.next)
  refine ⟨sp', hpop, hawaits, ?_, nofun, fun pn hpn => ?_⟩
  · rintro pn ⟨⟩
    exact hnext
  · have hle := sp.pns.next_le_peek
    rcases mem_append.mp hpn with hpn | hpn
    · have hlt := hinv.below pn hpn
      omega
    · rw [mem_singleton.mp hpn]
      omega

theorem Inv.step_pop (hp : s.pending (.of encLevel) = none) :
    (s.step (.call (.popPacketNumber encLevel rnd))).Meets Inv Failure.Sequential := by
  rw [step]
  cases hsp : s.handler.sentPacketHandler.space encLevel with
  | none =>
    rw [SentPacketHandler.popPacketNumber, hsp]
    rintro ⟨⟩
  | some sp =>
    obtain ⟨sp', hpop, hinv⟩ := hi.popPacketNumber hp hsp rnd
    rw [hpop]
    refine hi.replace encLevel (fun _ => rfl) ?_ (fun id hid => ?_) ?_
    · dsimp only
      rw [update_self, update_self, update_self]
      exact hinv
    · exact ⟨update_of_ne hid _ _, update_of_ne hid _ _, update_of_ne hid _ _⟩
    · dsimp only
      rw [update_self]
      exact pairwise_snoc (hi.increasing _) (hi.space encLevel sp hsp).below sp.pns.next_le_peek

theorem Inv.step_sent {a : SentPacketHandler.Sent} {rtt : RTT}
    (hp : s.pending (.of a.encLevel) = some a.pn) :
    (s.step (.call (.sentPacket a rtt))).Meets Inv Failure.Sequential := by
  rw [step]
  cases hsp : s.handler.sentPacketHandler.space a.encLevel with
  | none =>
    rw [SentPacketHandler.sentPacket, hsp]
    rintro ⟨⟩
  | some sp =>
    have hinv := hi.space a.encLevel sp hsp
    rw [hp] at hinv
    obtain ⟨h', sp', hsent, hreplaces, hpns, hhigh⟩ :=
      SentPacketHandler.sentPacket_sends _ a rtt sp hsp hinv.awaits
    have hnext := hinv.next a.pn rfl
    rw [hsent]
    refine hi.replace a.encLevel hreplaces ?_ (fun id hid => ⟨rfl, update_of_ne hid _ _, rfl⟩)
      (hi.increasing _)
    dsimp only
    rw [update_self]
    refine ⟨.inr ?_, by rintro _ ⟨⟩, ?_, ?_⟩
    · show sp'.history.highestPacketNumber + 1 = (sp'.pns.next : Nat)
      rw [hhigh, hpns, hnext]
      rfl
    · rw [hpns]
      exact hinv.peek
    · rw [hpns]
      exact hinv.below

theorem Inv.step_timeout {now : Int} {rtt : RTT} (hp : s.pending .appData = none) :
    (s.step (.call (.onLossDetectionTimeout now rtt rnd))).Meets Inv Failure.Sequential := by
  have hinv := hi.space .oneRTT _ rfl
  rw [show s.pending (.of .oneRTT) = none from hp] at hinv
  have hready : s.handler.sentPacketHandler.AppDataReady := hinv.awaits
  rw [step]
  refine (SentPacketHandler.onLossDetectionTimeout_advances hready now rtt
    rnd).map fun h'' hex => ?_
  obtain ⟨h', hk, ha⟩ := hex
  have hnext := congrArg PacketNumberGenerator.next hk.appData.1
  rcases ha with hk' | ⟨sp', hreplaces, hlt, hhigh⟩
  · -- no number was taken; what was looked at is forgotten all the same
    have hsame := hi.keeps (hk.trans hk')
    have hno : takenByPTO s.handler.sentPacketHandler h'' = [] :=
      if_pos (congrArg PacketNumberGenerator.next (hk.trans hk').appData.1)
    rw [hno, append_nil, update_eq_self]
    refine ⟨fun l sp hsp => ?_, hi.increasing⟩
    obtain ⟨hawaits, hpend, hpeek, hbelow⟩ := hsame.space l sp hsp
    refine ⟨hawaits, hpend, fun pn hpn => ?_, hbelow⟩
    by_cases heq : SpaceID.of l = .appData
    · dsimp only at hpn
      rw [heq, update_self] at hpn
      cases hpn
    · dsimp only at hpn
      rw [update_of_ne heq] at hpn
      exact hpeek pn hpn
  · have happ : h''.appDataPackets = sp' := Option.some.inj (hreplaces .oneRTT)
    have hlt' : s.handler.sentPacketHandler.appDataPackets.pns.next < sp'.pns.next :=
      by rw [← hnext]; exact hlt
    have htaken : takenByPTO s.handler.sentPacketHandler h'' = [sp'.pns.next - 1] := by
      rw [takenByPTO, happ, if_neg (Nat.ne_of_gt hlt')]
    rw [htaken]
    refine (hi.keeps hk).replace .oneRTT hreplaces ?_
      (fun id hid => ⟨update_of_ne hid _ _, rfl, update_of_ne hid _ _⟩) ?_
    · dsimp only [SpaceID.of]
      rw [update_self, update_self]
      refine ⟨?_, ?_, nofun, fun pn hpn => ?_⟩
      · show sp'.history.Awaits (((s.pending .appData).getD sp'.pns.next : Nat) : Int)
        rw [hp]
        exact .inr hhigh
      · show ∀ pn ∈ s.pending .appData, _
        rw [hp]
        exact nofun
      · rcases mem_append.mp hpn with hpn | hpn
        · exact Nat.lt_trans (hinv.below pn hpn) hlt'
        · rw [mem_singleton.mp hpn]
          omega
    · dsimp only [SpaceID.of]
      rw [update_self]
      exact pairwise_snoc (hi.increasing _) hinv.below (Nat.le_sub_one_of_lt hlt')

theorem Inv.step_retry (hp : s.pending .initial = none ∧ s.pending .appData = none) :
    (s.step (.call (.resetForRetry rnd))).Meets Inv Failure.Sequential := by
  have hstep : s.step (.call (.resetForRetry rnd)) =
      (s.handler.sentPacketHandler.resetForRetry rnd).map s.withHandler := rfl
  rw [hstep]
  · refine (SentPacketHandler.resetForRetry_renews _ rnd).map fun h' hex => ?_
    obtain ⟨sp, hsp, hinit, happ, hhand⟩ := hex
    refine ⟨fun l t ht => ?_, hi.increasing⟩
    have hrenew : ∀ {l : EncryptionLevel} {sp : PacketNumberSpace} {isAppData : Bool},
        s.handler.sentPacketHandler.space l = some sp → s.pending (.of l) = none →
        SpaceInv (.new sp.pns.peek isAppData rnd) (s.peeked (.of l)) (s.pending (.of l))
          (s.popped (.of l)) := by
      intro l sp isAppData hl hpend
      have hinv := hi.space l sp hl
      rw [hpend] at hinv ⊢
      exact spaceInv_new _ _ _ hinv.peek fun pn hpn =>
        (hinv.below pn hpn).trans_le sp.pns.next_le_peek
    cases l with
    | initial =>
      cases hinit.symm.trans ht
      exact hrenew (l := .initial) hsp hp.1
    | handshake => exact hi.space .handshake t (hhand.symm.trans ht)
    | zeroRTT | oneRTT =>
      cases (congrArg some happ).symm.trans ht
      exact hrenew (l := .oneRTT) rfl hp.2

theorem Inv.step_peek (encLevel : EncryptionLevel) :
    (s.step (.peekPacketNumber encLevel)).Meets Inv Failure.Sequential := by
  rw [step]
  cases hpeek : s.handler.peekPacketNumber encLevel with
  | error err =>
    rw [USentPacketHandler.peekPacketNumber] at hpeek
    split at hpeek
    · cases hpeek
      exact nofun
    · split at hpeek <;> cases hpeek
  | ok r =>
    obtain ⟨pn, pnLen⟩ := r
    obtain ⟨sp, hsp, hpn⟩ := peekPacketNumber_eq_ok hpeek
    refine ⟨fun l t ht => ?_, hi.increasing⟩
    obtain ⟨hawaits, hnext, hpeeked, hbelow⟩ := hi.space l t ht
    refine ⟨hawaits, hnext, ?_, hbelow⟩
    dsimp only
    by_cases heq : SpaceID.of l = .of encLevel
    · have hsame : s.handler.sentPacketHandler.space l =
          s.handler.sentPacketHandler.space encLevel := by
        cases l <;> cases encLevel <;> first | rfl | cases heq
      cases (hsame.symm.trans ht).symm.trans hsp
      rw [heq, update_self]
      rintro _ ⟨⟩
      exact hpn
    · rw [update_of_ne heq]
      exact hpeeked

theorem Inv.step_quiet {c : SentPacketHandler.Call}
    (hc : s.step (.call c) = (s.handler.sentPacketHandler.call c).map s.withHandler)
    (hquiet : SentPacketHandler.Quiet s.handler.sentPacketHandler
      (s.handler.sentPacketHandler.call c)) : (s.step (.call c)).Meets Inv Failure.Sequential := by
  rw [hc]
  exact Meets.map hquiet fun _ hk => hi.keeps hk

/-- **One event keeps the invariant**, and does not panic about a packet number. -/
theorem Inv.step : ∀ {e : Event}, s.Permitted e → (s.step e).Meets Inv Failure.Sequential
  | .peekPacketNumber encLevel, _ => hi.step_peek encLevel
  | .setInitialPacketNumberLength _, _ => { hi with }
  | .call (.popPacketNumber ..), hp => hi.step_pop hp
  | .call (.sentPacket ..), hp => hi.step_sent hp
  | .call (.onLossDetectionTimeout ..), hp => hi.step_timeout hp
  | .call (.resetForRetry _), hp => hi.step_retry hp
  | .call (.receivedAck ack encLevel rcvTime rtt), _ => hi.step_quiet rfl
      ((SentPacketHandler.receivedAck_quiet _ ack encLevel rcvTime rtt).map fun _ h => h)
  | .call (.queueProbePacket encLevel), _ => hi.step_quiet rfl
      ((SentPacketHandler.queueProbePacket_trims _ encLevel).map fun _ ht => ht.keeps)
  | .call (.dropPackets encLevel now rtt), _ => hi.step_quiet rfl
      (SentPacketHandler.dropPackets_quiet _ encLevel now rtt)
  | .call (.migratedPath now rtt), _ => hi.step_quiet rfl
      (SentPacketHandler.migratedPath_quiet _ now rtt)
  | .call (.receivedBytes n t rtt), _ => hi.step_quiet rfl
      (SentPacketHandler.receivedBytes_keeps _ n t rtt)
  | .call (.receivedPacket l t rtt), _ => hi.step_quiet rfl
      (SentPacketHandler.receivedPacket_keeps _ l t rtt)

end

theorem inv_of_run {initialPN : Nat} {validated : Bool} {pers : Perspective} {tr : List Event}
    (hrun : (machine initialPN validated pers rnd).Run tr s) : s.Inv := by
  refine Machine.Run.stable (I := Inv) ?_ ?_ hrun
  · rintro s rfl
    exact .new initialPN validated pers rnd
  · rintro s e s' hi ⟨hp, hstep⟩
    exact (hi.step hp).of_eq_ok (toOption_eq_some_iff.mp hstep)

/-- **Packet numbers are never reused.**  Along every run the numbers that are taken from a space
increase; each is the one that was last looked at, and larger than all before; the generator skips
at most one number at a time; and the panic of the history about a number is not reached. -/
theorem packetNumbers_increase (initialPN : Nat) (validated : Bool) (pers : Perspective) (rnd : Nat)
    (tr : List Event) (s : Numbering) (hrun : (machine initialPN validated pers rnd).Run tr s) :
    (∀ id, (s.popped id).Pairwise (· < ·)) ∧ (∀ encLevel rnd h pn, s.pending (.of encLevel) = none →
      s.handler.sentPacketHandler.popPacketNumber encLevel rnd = .ok (h, pn) →
      (∀ n ∈ s.popped (.of encLevel), n < pn) ∧ ∀ n ∈ s.peeked (.of encLevel), pn = n) ∧
    (∀ e, s.Permitted e → s.step e ≠ .error .nonSequential) ∧
    ∀ initial isAppData rnd rnds, List.IsChain PacketNumberGenerator.Follows
      ((PacketNumberGenerator.new initial isAppData rnd).pops rnds) := by
  have hi := inv_of_run hrun
  refine ⟨hi.increasing, fun encLevel rnd h pn hp hpop => ?_, fun e hp herr => ?_,
    PacketNumberGenerator.pops_new⟩
  · cases hsp : s.handler.sentPacketHandler.space encLevel with
    | none =>
      rw [SentPacketHandler.popPacketNumber, hsp] at hpop
      cases hpop
    | some sp =>
      obtain ⟨sp', hpop', -⟩ := hi.popPacketNumber hp hsp rnd
      obtain ⟨-, rfl⟩ := Prod.mk.inj (Except.ok.inj (hpop'.symm.trans hpop))
      have hinv := hi.space encLevel sp hsp
      exact ⟨fun n hn => (hinv.below n hn).trans_le sp.pns.next_le_peek, hinv.peek⟩
  · exact (hi.step hp).of_eq_error herr rfl

/-- An Initial packet is sent, a Retry comes, and the next number is looked at and taken. -/
def retryTrace : List Event :=
  [.peekPacketNumber .initial, .call (.popPacketNumber .initial 0),
    .call (.sentPacket ⟨1, 7, -1, [], [⟨0, true⟩], .initial, 1200, false, false⟩ ⟨1, 1, 1⟩),
    .call (.resetForRetry 0), .peekPacketNumber .initial, .call (.popPacketNumber .initial 0)]

def afterRetry : Numbering :=
  (retryTrace.foldlM (fun s e => if Permitted s e then (s.step e).toOption else none)
    (new 7 false .client 0)).getD (new 7 false .client 0)

theorem run_retryTrace : (machine 7 false .client 0).Run retryTrace afterRetry := by
  have hsome : (retryTrace.foldlM (fun s e => if Permitted s e then (s.step e).toOption else none)
      (new 7 false .client 0)).isSome := by decide +kernel
  obtain ⟨s, hs⟩ := Option.isSome_iff_exists.mp hsome
  rw [machine, Machine.run_guard_iff, afterRetry, hs, Option.getD_some]

theorem packetNumbers_increase_afterRetry :
    afterRetry.popped .initial = [7, 8] ∧ (afterRetry.popped .initial).Pairwise (· < ·) :=
  ⟨by decide +kernel,
    (packetNumbers_increase 7 false .client 0 retryTrace afterRetry run_retryTrace).1 .initial⟩

end Numbering

end UQuic.AckHandler
