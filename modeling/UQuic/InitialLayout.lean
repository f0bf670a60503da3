/-
# `UQuic.InitialLayout` — where the bytes of an Initial packet go

`prepareInitialPacket` takes CRYPTO frames off the queue or the stream, has their data
laid out anew and keeps what the layout carries.  Two properties of a list of CRYPTO
frames are followed through each of these steps:

    f.Carries S      every byte of the frame is the byte of `S` at its offset
    Covered fs o     some frame of the list carries the offset `o`

    stage            reorders the queue and puts part of it off
    takeFrames       cuts frames in two (`Cut`)
    marshal…         puts the data together and lays out a prefix of it
    keepFrame        cuts every frame at the end of that prefix

## What is proved

`Prepares.conserves`: whatever was waiting before is waiting afterwards or is carried by
the packet, and the CRYPTO frames on the wire cover the offsets of the recorded ones.
-/
import UQuic.InitialDatagram

namespace UQuic

open List Except
open Wire (AckFrame CryptoFrame ExtendedHeader Frame Reads Consecutive)
open QuicVarint (maxVarInt8)

/-! ## Bytes and offsets -/

/-- Every byte of the frame is the byte of `S` at its offset. -/
def Wire.CryptoFrame.Carries (S : List UInt8) (f : CryptoFrame) : Prop :=
  ∀ i b, f.data[i]? = some b → S[f.offset + i]? = some b

/-- Some frame carries the offset. -/
def Covered (fs : List CryptoFrame) (o : Nat) : Prop := ∃ f ∈ fs, f.Covers o

variable {data : List UInt8}

section Bytes

variable {S : List UInt8} {f : CryptoFrame} {fs gs : List CryptoFrame} {o : Nat}

theorem carries_append (h : f.Carries S) (p : List UInt8) : f.Carries (S ++ p) := by
  intro i b hb
  have hS := h i b hb
  obtain ⟨hlt, -⟩ := List.getElem?_eq_some_iff.mp hS
  rw [List.getElem?_append_left hlt, hS]

theorem carries_take (h : f.Carries S) (n : Nat) :
    CryptoFrame.Carries S ⟨f.offset, f.data.take n⟩ := by
  intro i b hb
  rw [List.getElem?_take] at hb
  split_ifs at hb
  exact h i b hb

theorem carries_drop (h : f.Carries S) (n : Nat) :
    CryptoFrame.Carries S ⟨f.offset + n, f.data.drop n⟩ := by
  intro i b hb
  rw [List.getElem?_drop] at hb
  show S[f.offset + n + i]? = some b
  rw [Nat.add_assoc]
  exact h _ b hb

/-- A part of the data that `S` carries from `base` on. -/
theorem carries_slice {base : Nat}
    (h : CryptoFrame.Carries S ⟨base, data⟩) {start : Nat} (hstart : base ≤ start) (n : Nat) :
    CryptoFrame.Carries S ⟨start, (data.drop (start - base)).take n⟩ := by
  have hdrop := carries_drop h (start - base)
  have hoff : base + (start - base) = start := Nat.add_sub_of_le hstart
  have htake := carries_take hdrop n
  simp only [hoff] at htake
  exact htake

@[simp] theorem covered_nil : ¬ Covered [] o := by
  rintro ⟨f, hf, -⟩
  cases hf

@[simp] theorem covered_cons : Covered (f :: fs) o ↔ f.Covers o ∨ Covered fs o := by
  simp only [Covered, mem_cons, exists_eq_or_imp]

@[simp] theorem covered_append : Covered (fs ++ gs) o ↔ Covered fs o ∨ Covered gs o := by
  simp only [Covered, mem_append, or_and_right, exists_or]

theorem covered_perm (h : fs.Perm gs) : Covered fs o ↔ Covered gs o := by
  simp only [Covered, h.mem_iff]

/-- Frames without a gap cover an interval. -/
theorem covered_consecutive : ∀ {base : Nat} {fs : List CryptoFrame}, Consecutive base fs →
    (Covered fs o ↔ base ≤ o ∧ o < base + (fs.flatMap (·.data)).length)
  | base, [], _ => by
    simp only [covered_nil, flatMap_nil, length_nil, false_iff]
    omega
  | base, f :: fs, h => by
    obtain ⟨hoff, hrest⟩ := h
    rw [covered_cons, covered_consecutive hrest, CryptoFrame.Covers, hoff, flatMap_cons,
      length_append]
    omega

/-- The data of frames without a gap, put together. -/
theorem carries_flatMap : ∀ {base : Nat} {fs : List CryptoFrame}, Consecutive base fs →
    (CryptoFrame.Carries S ⟨base, fs.flatMap (·.data)⟩ ↔ ∀ f ∈ fs, f.Carries S)
  | base, [], _ => by
    refine ⟨fun _ => nofun, fun _ i b hb => ?_⟩
    rw [flatMap_nil, List.getElem?_nil] at hb
    cases hb
  | base, f :: fs, h => by
    obtain ⟨hoff, hrest⟩ := h
    have ih := carries_flatMap hrest
    rw [flatMap_cons, forall_mem_cons, ← ih]
    constructor
    · intro hall
      refine ⟨fun i b hb => ?_, fun i b hb => ?_⟩
      · obtain ⟨hlt, -⟩ := List.getElem?_eq_some_iff.mp hb
        rw [hoff]
        exact hall i b (by rwa [List.getElem?_append_left hlt])
      · have := hall (f.data.length + i) b (by
          rwa [List.getElem?_append_right (Nat.le_add_right _ _), Nat.add_sub_cancel_left])
        rwa [← Nat.add_assoc] at this
    · rintro ⟨hf, hfs⟩ i b hb
      by_cases hlt : i < f.data.length
      · rw [List.getElem?_append_left hlt] at hb
        have := hf i b hb
        rwa [hoff] at this
      · rw [List.getElem?_append_right (Nat.le_of_not_lt hlt)] at hb
        have := hfs _ b hb
        rwa [Nat.add_assoc, Nat.add_sub_of_le (Nat.le_of_not_lt hlt)] at this

theorem consecutive_offset_le : ∀ {base : Nat} {fs : List CryptoFrame}, Consecutive base fs →
    ∀ f ∈ fs, base ≤ f.offset ∧ f.offset + f.data.length ≤ base + (fs.flatMap (·.data)).length
  | base, f :: fs, h, g, hg => by
    obtain ⟨hoff, hrest⟩ := h
    rw [flatMap_cons, length_append]
    rcases mem_cons.mp hg with rfl | hg
    · omega
    · have := consecutive_offset_le hrest g hg
      omega

theorem consecutive_prefix : ∀ {base : Nat} {fs gs : List CryptoFrame},
    Consecutive base (fs ++ gs) → Consecutive base fs
  | _, [], _, _ => trivial
  | _, _ :: _, _, h => ⟨h.1, consecutive_prefix h.2⟩

end Bytes

/-! ## Cutting frames -/

/-- Frames of the first list, each cut into consecutive parts, are the second list. -/
inductive Cut : List CryptoFrame → List CryptoFrame → Prop
  | refl (fs : List CryptoFrame) : Cut fs fs
  | take {f : CryptoFrame} {fs gs : List CryptoFrame} : Cut fs gs → Cut (f :: fs) (f :: gs)
  | split {g f left : CryptoFrame} {fs gs : List CryptoFrame} : CutInto g f left →
      Cut (left :: fs) gs → Cut (g :: fs) (f :: gs)

section Cut

variable {S : List UInt8} {fs gs : List CryptoFrame} {o : Nat} {g f left : CryptoFrame}

theorem CutInto.length_eq (h : CutInto g f left) :
    g.data.length = f.data.length + left.data.length := by
  rw [h.data_eq, length_append]

theorem CutInto.covers (h : CutInto g f left) : g.Covers o ↔ f.Covers o ∨ left.Covers o := by
  have hlen := h.length_eq
  rw [CryptoFrame.Covers, CryptoFrame.Covers, CryptoFrame.Covers, h.offset_eq, h.left_offset]
  omega

theorem CutInto.carries (h : CutInto g f left) (hg : g.Carries S) :
    f.Carries S ∧ left.Carries S := by
  have hcons : Consecutive g.offset [f, left] := ⟨h.offset_eq, by
    rw [h.left_offset], trivial⟩
  have hdata : [f, left].flatMap (·.data) = g.data := by
    rw [h.data_eq, flatMap_cons, flatMap_cons, flatMap_nil, append_nil]
  have hall := (carries_flatMap (S := S) hcons).mp (by rwa [hdata])
  exact ⟨hall f mem_cons_self, hall left (mem_cons_of_mem f mem_cons_self)⟩

theorem Cut.covered (h : Cut fs gs) : Covered fs o ↔ Covered gs o := by
  induction h with
  | refl => exact Iff.rfl
  | take _ ih => rw [covered_cons, covered_cons, ih]
  | split hcut _ ih => rw [covered_cons, covered_cons, ← ih, covered_cons, hcut.covers, or_assoc]

theorem Cut.carries (h : Cut fs gs) (hfs : ∀ f ∈ fs, f.Carries S) : ∀ g ∈ gs, g.Carries S := by
  induction h with
  | refl => exact hfs
  | take _ ih =>
    obtain ⟨hf, hfs⟩ := forall_mem_cons.mp hfs
    exact forall_mem_cons.mpr ⟨hf, ih hfs⟩
  | split hcut _ ih =>
    obtain ⟨hg, hfs⟩ := forall_mem_cons.mp hfs
    obtain ⟨hf, hleft⟩ := hcut.carries hg
    exact forall_mem_cons.mpr ⟨hf, ih (forall_mem_cons.mpr ⟨hleft, hfs⟩)⟩

theorem Cut.consecutive (h : Cut fs gs) : ∀ {base}, Consecutive base fs → Consecutive base gs := by
  induction h with
  | refl => exact id
  | take _ ih => exact fun hc => ⟨hc.1, ih hc.2⟩
  | @split g f left fs gs hcut _ ih =>
    rintro base ⟨hoff, hrest⟩
    refine ⟨hcut.offset_eq.trans hoff, ih ⟨?_, ?_⟩⟩
    · rw [hcut.left_offset, hoff]
    · rw [Nat.add_assoc, ← hcut.length_eq]
      exact hrest

end Cut

/-- The builders that are not given a layout of their own. -/
def FrameBuilder.Supported : FrameBuilder → Prop
  | .none => True
  | .frames fs => fs = []
  | .random _ => True

namespace UPacketPacker

open PacketPacker

/-! ## Collecting the frames -/

theorem contiguous_append : ∀ (stop : Nat) (fs : List CryptoFrame),
    (contiguous stop fs).1 ++ (contiguous stop fs).2 = fs
  | _, [] => rfl
  | stop, f :: fs => by
    rw [contiguous]
    split
    · exact congrArg (f :: ·) (contiguous_append _ fs)
    · rfl

theorem consecutive_contiguous : ∀ (stop : Nat) (fs : List CryptoFrame),
    Consecutive stop (contiguous stop fs).1
  | _, [] => trivial
  | stop, f :: fs => by
    rw [contiguous]
    split_ifs with hoff
    · exact ⟨hoff, consecutive_contiguous _ fs⟩
    · exact trivial

/-- Nothing is lost by staging, and what is staged has no gap. -/
theorem stage_spec (u : UPacketPacker) (fs : List CryptoFrame) :
    ((u.stage false fs).1 ++ (u.stage false fs).2).Perm fs ∧
      ∃ base, Consecutive base (u.stage false fs).1 := by
  simp only [stage, Bool.not_false, Bool.true_and, decide_eq_true_eq]
  split_ifs with hlen
  · have hperm := u.offsetSort.perm fs
    split
    · rename_i hsort
      rw [hsort] at hperm
      exact ⟨hperm, 0, trivial⟩
    · rename_i f rest hsort
      rw [hsort] at hperm
      refine ⟨?_, f.offset, rfl, consecutive_contiguous _ rest⟩
      rw [cons_append, contiguous_append]
      exact hperm
  · refine ⟨by rw [append_nil], ?_⟩
    cases fs with
    | nil => exact ⟨0, trivial⟩
    | cons f rest =>
      cases rest with
      | nil => exact ⟨f.offset, rfl, trivial⟩
      | cons g rest => exact absurd (Nat.succ_lt_succ (Nat.succ_pos _)) hlen

def Plain (fs : List OutgoingFrame) : Prop := ∀ f ∈ fs, f = .ping ∨ ∃ c, f = .crypto c

def cryptos (fs : List OutgoingFrame) : List CryptoFrame := fs.filterMap OutgoingFrame.crypto?

/-- What `GetInitialFrame` takes is cut off the queue. -/
theorem takeFrames_cut : ∀ {n : Nat} {m : Int} {q q' : LevelQueue} {fs : List OutgoingFrame}
    {l : Nat}, takeFrames n m q = .ok (fs, l, q') → (∀ f ∈ q.frames, f = .ping) →
    Cut q.cryptoData (cryptos fs ++ q'.cryptoData) ∧ Plain fs ∧ ∀ f ∈ q'.frames, f = .ping
  | 0, m, q, q', fs, l, h, hping => by
    cases h
    exact ⟨.refl _, nofun, hping⟩
  | n + 1, m, q, q', fs, l, h, hping => by
    obtain ⟨r, hr, h⟩ := bind_eq_ok_iff.mp h
    cases r with
    | none =>
      cases h
      exact ⟨.refl _, nofun, hping⟩
    | some r =>
      obtain ⟨f, q₁⟩ := r
      obtain ⟨frameLen, -, h⟩ := bind_eq_ok_iff.mp h
      obtain ⟨⟨fs', l', q₂⟩, htail, h⟩ := map_eq_ok_iff.mp h
      cases h
      cases getFrame_taken (orTooLarge_eq_ok hr) with
      | @crypto f rest hq =>
        obtain ⟨hcut, hplain, hping'⟩ := takeFrames_cut htail hping
        refine ⟨?_, forall_mem_cons.mpr ⟨.inr ⟨f, rfl⟩, hplain⟩, hping'⟩
        rw [hq]
        exact .take hcut
      | @split g f left rest hq hsplit =>
        obtain ⟨hcut, hplain, hping'⟩ := takeFrames_cut htail hping
        refine ⟨?_, forall_mem_cons.mpr ⟨.inr ⟨f, rfl⟩, hplain⟩, hping'⟩
        rw [hq]
        exact .split hsplit hcut
      | @other f rest hq =>
        rw [hq] at hping
        obtain ⟨rfl, hrest⟩ := forall_mem_cons.mp hping
        obtain ⟨hcut, hplain, hping'⟩ := takeFrames_cut htail hrest
        exact ⟨hcut, forall_mem_cons.mpr ⟨.inl rfl, hplain⟩, hping'⟩

/-- Where the frames of a crypto packet come from: the queue, the stream, or nowhere. -/
inductive Origin (stream : CryptoStream) (queue : LevelQueue) :
    List OutgoingFrame → CryptoStream → LevelQueue → Prop
  | queue {fs : List OutgoingFrame} {queue' : LevelQueue} : queue.hasData = true →
      Cut queue.cryptoData (cryptos fs ++ queue'.cryptoData) → Plain fs →
      (∀ f ∈ queue'.frames, f = .ping) → Origin stream queue fs stream queue'
  | stream (n : Nat) : queue.hasData = false → n ≤ stream.writeBuf.length →
      Origin stream queue [.crypto ⟨stream.writeOffset, stream.writeBuf.take n⟩]
        ⟨stream.writeOffset + n, stream.writeBuf.drop n⟩ queue
  | none : Origin stream queue [] stream queue

variable {fs : List OutgoingFrame}

theorem cryptoFrames_origin {stream stream' : CryptoStream} {queue queue' : LevelQueue} {m : Int}
    {l : Nat} (h : cryptoFrames stream queue m = .ok (fs, l, stream', queue'))
    (hping : ∀ f ∈ queue.frames, f = .ping) : Origin stream queue fs stream' queue' := by
  simp only [cryptoFrames] at h
  split at h
  · rename_i hq
    obtain ⟨⟨fs', l', q⟩, htake, h⟩ := map_eq_ok_iff.mp h
    cases h
    obtain ⟨hcut, hplain, hping'⟩ := takeFrames_cut htake hping
    exact .queue hq hcut hplain hping'
  · rename_i hq
    split at h
    · obtain ⟨⟨f, stream₁⟩, hpop, h⟩ := bind_eq_ok_iff.mp h
      obtain ⟨l', -, h⟩ := map_eq_ok_iff.mp h
      cases h
      obtain ⟨n, -, hpop⟩ := Option.map_eq_some_iff.mp (orTooLarge_eq_ok hpop)
      cases hpop
      exact .stream _ (Bool.eq_false_iff.mpr hq) (Nat.min_le_right _ _)
    · cases h
      exact .none

theorem collect_origin {u : UPacketPacker} {maxSize : Int} {onlyAck : Bool} {c : CryptoPacket}
    (h : u.collect maxSize onlyAck = .ok c)
    (hping : ∀ f ∈ u.retransmissionQueue.initial.frames, f = .ping) :
    Origin u.initialStream
      { u.retransmissionQueue.initial with
        cryptoData := (u.stage onlyAck u.retransmissionQueue.initial.cryptoData).1 }
      c.payload.frames c.stream c.queue := by
  simp only [collect, maybeGetCryptoPacket, eq_self, if_true] at h
  split at h
  · split at h
    · cases h
      exact .none
    · obtain ⟨l, -, h⟩ := map_eq_ok_iff.mp h
      cases h
      exact .none
  · split at h
    · cases h
      exact .none
    · obtain ⟨ackLen, -, h⟩ := bind_eq_ok_iff.mp h
      obtain ⟨hdrLen, -, h⟩ := bind_eq_ok_iff.mp h
      obtain ⟨⟨fs, l, stream', queue'⟩, hframes, h⟩ := map_eq_ok_iff.mp h
      cases h
      exact cryptoFrames_origin hframes hping

/-! ## Laying the data out anew -/

/-- `data` is read as the frames `fs`, and these carry the part of `cs` before `stop`. -/
structure Lays (cs : List CryptoFrame) (stop : Nat) (fs : List Frame) (data : List UInt8) :
    Prop where
  reads : Reads fs data
  carries : ∀ S, (∀ c ∈ cs, c.Carries S) → ∀ w ∈ fs.filterMap Frame.crypto?, w.Carries S
  covered : ∀ o, Covered (fs.filterMap Frame.crypto?) o ↔ Covered cs o ∧ o < stop

theorem foldl_offset {base : Nat} : ∀ (fs : List CryptoFrame), (∀ f ∈ fs, base ≤ f.offset) →
    fs.foldl (fun base f => if f.offset < base then f.offset else base) base = base
  | [], _ => rfl
  | f :: fs, h => by
    obtain ⟨hf, hfs⟩ := forall_mem_cons.mp h
    rw [foldl_cons, if_neg (Nat.not_lt.mpr hf)]
    exact foldl_offset fs hfs

theorem cryptoBaseOffset_eq {base : Nat} {cs : List CryptoFrame} (h : Consecutive base cs)
    (hne : cs ≠ []) : cryptoBaseOffset cs = base := by
  cases cs with
  | nil => exact absurd rfl hne
  | cons f fs =>
    obtain ⟨rfl, hrest⟩ := h
    refine foldl_offset fs fun g hg => ?_
    have := (consecutive_offset_le hrest g hg).1
    omega

section Build

open QUICRandomFrames (wireFrame effective Fits wireFrames frameBytes)

variable {base : Nat} {cs : List CryptoFrame}

/-- The frames of `QUICFrames` without a layout of its own. -/
def sameFrames (cs : List CryptoFrame) : List QUICFrame :=
  cs.map fun c => .crypto ⟨c.offset, c.data.length⟩

theorem mem_sameFrames {d : QUICFrameCrypto} (h : .crypto d ∈ sameFrames cs) :
    ∃ c ∈ cs, d = ⟨c.offset, c.data.length⟩ := by
  obtain ⟨c, hc, hd⟩ := mem_map.mp h
  cases hd
  exact ⟨c, hc, rfl⟩

/-- The length `0` stands for the rest of the data, which is in the packet anyway. -/
theorem sameFrames_inside (h : Consecutive base cs) : ∀ c ∈ cs, base ≤ c.offset ∧
    c.offset + effective (base + (cs.flatMap (·.data)).length) ⟨c.offset, c.data.length⟩ ≤
      base + (cs.flatMap (·.data)).length := by
  intro c hc
  have hle := consecutive_offset_le h c hc
  refine ⟨hle.1, ?_⟩
  rw [effective]
  split
  · dsimp only
    omega
  · exact hle.2

theorem sameFrames_fits (h : Consecutive base cs) (hne : cs ≠ []) :
    Fits (cs.flatMap (·.data)) base (sameFrames cs) where
  first := by
    cases cs with
    | nil => exact absurd rfl hne
    | cons f fs => exact ⟨⟨f.offset, f.data.length⟩, mem_cons_self, h.1⟩
  inside d hd := by
    obtain ⟨c, hc, rfl⟩ := mem_sameFrames hd
    exact sameFrames_inside h c hc

theorem filterMap_sameFrames (data : List UInt8) (base : Nat) (cs : List CryptoFrame) :
    ((sameFrames cs).flatMap (wireFrames data base)).filterMap Frame.crypto? =
      cs.map fun c => wireFrame data base ⟨c.offset, c.data.length⟩ := by
  induction cs with
  | nil => rfl
  | cons c cs ih =>
    rw [sameFrames, map_cons, flatMap_cons, filterMap_append, map_cons]
    exact congrArg (_ :: ·) ih

theorem build_lays (h : Consecutive base cs) (hne : cs ≠ []) (hbase : base ≤ maxVarInt8)
    {encoded : List UInt8}
    (hbuild : QUICFrames.build (cs.flatMap (·.data)) (sameFrames cs) = .ok encoded) :
    ∃ fs, Lays cs (base + (cs.flatMap (·.data)).length) fs encoded := by
  obtain ⟨rfl, henc⟩ := ((sameFrames_fits h hne).build_meets hbase).of_eq_ok hbuild
  refine ⟨_, QUICRandomFrames.reads_frames henc, fun S hS w hw => ?_, fun o => ?_⟩
  · rw [filterMap_sameFrames] at hw
    obtain ⟨c, hc, rfl⟩ := mem_map.mp hw
    exact carries_slice ((carries_flatMap h).mpr hS) (sameFrames_inside h c hc).1 _
  · rw [filterMap_sameFrames, covered_consecutive h]
    constructor
    · rintro ⟨w, hw, ho⟩
      obtain ⟨c, hc, rfl⟩ := mem_map.mp hw
      have hin := sameFrames_inside h c hc
      have hlen := QUICRandomFrames.length_wireFrame (c := ⟨c.offset, c.data.length⟩) hin
      have ho : c.offset ≤ o ∧ o < c.offset + _ := ho
      rw [hlen] at ho
      omega
    · rintro ⟨ho, -⟩
      obtain ⟨c, hc, hco⟩ := (covered_consecutive h).mpr ho
      refine ⟨_, mem_map_of_mem hc, hco.1, ?_⟩
      have hne : c.data.length ≠ 0 := by
        obtain ⟨hle, hlt⟩ := hco
        omega
      rw [QUICRandomFrames.length_wireFrame (sameFrames_inside h c hc), effective, if_neg hne]
      exact hco.2

end Build

/-- Every supported builder lays out a prefix of the data. -/
theorem layOut_lays {u : UPacketPacker} {base : Nat} {cs : List CryptoFrame}
    (hbuilder : u.uSpec.frameBuilder.Supported) (h : Consecutive base cs) (hne : cs ≠ [])
    (hbase : base ≤ maxVarInt8) {available : Int} {encoded : List UInt8} {consumed : Nat}
    (hlay : u.layOut cs (cs.flatMap (·.data)) available = .ok (encoded, consumed)) :
    ∃ fs, Lays cs (base + consumed) fs encoded := by
  simp only [layOut] at hlay
  split at hlay
  · obtain ⟨e, hbuild, he⟩ := map_eq_ok_iff.mp hlay
    cases he
    exact build_lays h hne hbase hbuild
  · obtain ⟨e, hbuild, he⟩ := map_eq_ok_iff.mp hlay
    cases he
    exact build_lays h hne hbase hbuild
  · rename_i q _
    rw [cryptoBaseOffset_eq h hne] at hlay
    have hq : q.checkBounds = .ok () := by
      obtain ⟨⟨⟩, hq, -⟩ := bind_eq_ok_iff.mp hlay
      exact hq
    obtain ⟨hconsumed, fs, hlayout, hreads⟩ :=
      (QUICRandomFrames.buildAtWithLimit_meets hq u.choices _ hbase _).of_eq_ok hlay
    obtain ⟨ws, hperm, hcons, hdata⟩ := hlayout.partition
    dsimp only at hconsumed hdata
    refine ⟨fs, hreads, fun S hS w hw => ?_, fun o => ?_⟩
    · have hall := carries_take ((carries_flatMap h).mpr hS) consumed
      dsimp only at hall
      rw [← hdata] at hall
      exact (carries_flatMap hcons).mp hall w (hperm.mem_iff.mpr hw)
    · rw [← covered_perm hperm, covered_consecutive hcons, covered_consecutive h, hdata,
        length_take]
      omega
  · rename_i fs hnil hfs
    rw [hfs] at hbuilder
    exact absurd hbuilder hnil

/-- CRYPTO frames on one side, PING frames on the other. -/
theorem appendSeparately_eq_ok : ∀ {fs : List OutgoingFrame} {preserved original p o : List UInt8},
    appendSeparately preserved original fs = .ok (p, o) → Plain fs →
    o = original ++ (cryptos fs).flatMap CryptoFrame.bytes ∧ (∀ c ∈ cryptos fs, c.Encodable) ∧
      ∃ bs gs, p = preserved ++ bs ∧ Reads gs bs ∧ gs.filterMap Frame.crypto? = []
  | [], preserved, original, p, o, h, _ => by
    cases h
    exact ⟨(append_nil _).symm, nofun, [], [], (append_nil _).symm, .nil, rfl⟩
  | f :: fs, preserved, original, p, o, h, hplain => by
    obtain ⟨hf, hfs⟩ := forall_mem_cons.mp hplain
    rcases hf with rfl | ⟨c, rfl⟩
    · obtain ⟨b, hb, h⟩ := bind_eq_ok_iff.mp h
      obtain ⟨rfl, -⟩ := OutgoingFrame.append_eq_some (orTooLarge_eq_ok hb)
      obtain ⟨ho, henc, bs, gs, rfl, hreads, hcrypto⟩ := appendSeparately_eq_ok h hfs
      refine ⟨ho, henc, 0x1 :: bs, .ping :: gs, ?_, Reads.append .ping hreads, hcrypto⟩
      rw [append_assoc]
      rfl
    · obtain ⟨b, hb, h⟩ := bind_eq_ok_iff.mp h
      obtain ⟨hc, rfl⟩ := (CryptoFrame.append_eq_some_iff _ _).mp (orTooLarge_eq_ok hb)
      obtain ⟨ho, henc, hrest⟩ := appendSeparately_eq_ok h hfs
      refine ⟨?_, forall_mem_cons.mpr ⟨hc, henc⟩, hrest⟩
      rw [ho, append_assoc]
      rfl

theorem Lays.prepend {cs : List CryptoFrame} {stop : Nat} {fs gs : List Frame}
    {data b : List UInt8} (h : Lays cs stop fs data) (hreads : Reads gs b)
    (hgs : gs.filterMap Frame.crypto? = []) : Lays cs stop (gs ++ fs) (b ++ data) where
  reads := hreads.append h.reads
  carries S hS := by
    rw [filterMap_append, hgs]
    exact h.carries S hS
  covered o := by
    rw [filterMap_append, hgs]
    exact h.covered o

theorem lays_nothing {cs : List CryptoFrame} {stop : Nat} (h : ∀ o, Covered cs o → stop ≤ o) :
    Lays cs stop [] [] where
  reads := .nil
  carries _ _ := nofun
  covered o := by
    refine ⟨fun ho => absurd ho covered_nil, fun ⟨hc, hlt⟩ => ?_⟩
    exact absurd hlt (Nat.not_lt.mpr (h o hc))

/-- **The payload carries the collected data up to `cryptoEnd`.** -/
theorem marshal_lays {u : UPacketPacker} (hbuilder : u.uSpec.frameBuilder.Supported) {pl : Payload}
    (hplain : Plain pl.frames) (hack : ∀ a, pl.ack = some a → a.Sendable) {base : Nat}
    (hcons : Consecutive base (cryptos pl.frames)) {maxSize : Int}
    {cryptoEnd : Nat} (h : u.marshalInitialPacketPayload pl maxSize = .ok (data, cryptoEnd)) :
    ∃ fs, Lays (cryptos pl.frames) cryptoEnd fs data := by
  obtain ⟨bytes, hb, h⟩ := bind_eq_ok_iff.mp h
  obtain ⟨_, acks, rfl, -, hacks, hnoCrypto⟩ := (appendAck_meets [] hack).of_eq_ok hb
  obtain ⟨⟨preserved, original⟩, hsep, h⟩ := bind_eq_ok_iff.mp h
  obtain ⟨rfl, henc, bs, gs, rfl, hreads, hgs⟩ := appendSeparately_eq_ok hsep hplain
  have hreads := hacks.append hreads
  have hgs : (acks ++ gs).filterMap Frame.crypto? = [] := by
    rw [filterMap_append, hnoCrypto, hgs]
    rfl
  simp only [nil_append] at h
  by_cases hne : cryptos pl.frames = []
  · rw [hne, flatMap_nil, isEmpty_nil, if_pos rfl] at h
    split_ifs at h
    cases h
    have hno : Lays [] 0 [] [] := lays_nothing fun o ho => absurd ho covered_nil
    have hlays := hno.prepend hreads hgs
    rw [hne]
    simp only [append_nil] at hlays
    exact ⟨_, hlays⟩
  · have hsome : ((cryptos pl.frames).flatMap CryptoFrame.bytes).isEmpty = false := by
      cases hcs : cryptos pl.frames with
      | nil => exact absurd hcs hne
      | cons c cs => rfl
    have hbase : base ≤ maxVarInt8 := by
      cases hcs : cryptos pl.frames with
      | nil => exact absurd hcs hne
      | cons c cs =>
        rw [hcs] at hcons henc
        have hoff := (henc c mem_cons_self).1
        rwa [hcons.1] at hoff
    have hcrypto : ((cryptos pl.frames).map Frame.crypto).filterMap Frame.crypto? =
        cryptos pl.frames := by
      rw [filterMap_map]
      exact filterMap_some
    rw [hsome, if_neg Bool.false_ne_true, u.clienthellod.read _ henc] at h
    dsimp only at h
    rw [u.clienthellod.reassemble base _ hcons] at h
    dsimp only at h
    split_ifs at h
    rw [hcrypto, cryptoBaseOffset_eq hcons hne] at h
    cases hlay : u.layOut (cryptos pl.frames) ((cryptos pl.frames).flatMap (·.data))
        (maxSize - (bytes ++ bs).length) with
    | error e =>
      rw [hlay] at h
      rw [combine.eq_def] at h
      split at h
      · split_ifs at h
        cases h
        -- only the control frames are sent
        have hno : Lays (cryptos pl.frames) base [] [] :=
          lays_nothing fun o ho => ((covered_consecutive hcons).mp ho).1
        have hlays := hno.prepend hreads hgs
        simp only [append_nil] at hlays
        exact ⟨_, hlays⟩
      · cases h
      · rename_i heq
        cases heq
    | ok r =>
      obtain ⟨encoded, consumed⟩ := r
      rw [hlay, combine] at h
      split_ifs at h
      cases h
      obtain ⟨fs, hlays⟩ := layOut_lays hbuilder hcons hne hbase hlay
      exact ⟨_, hlays.prepend hreads hgs⟩

/-! ## Keeping what the layout carries -/

/-- The bytes of a frame that the layout carries. -/
def keptLen (cryptoEnd : Nat) (c : CryptoFrame) : Nat := min (cryptoEnd - c.offset) c.data.length

/-- What is recorded for a frame of the packet. -/
def keptFrame (cryptoEnd : Nat) : OutgoingFrame → List OutgoingFrame
  | .crypto c =>
    if keptLen cryptoEnd c = 0 then []
    else [.crypto ⟨c.offset, c.data.take (keptLen cryptoEnd c)⟩]
  | .ping => [.ping]
  | .other bytes => [.other bytes]

/-- What goes back to where the frame came from. -/
def leftFrame (cryptoEnd : Nat) (c : CryptoFrame) : List CryptoFrame :=
  if keptLen cryptoEnd c < c.data.length then
    [⟨c.offset + keptLen cryptoEnd c, c.data.drop (keptLen cryptoEnd c)⟩]
  else []

variable {writeBuf : List UInt8}

section Keep

variable {e : Nat} {S : List UInt8} {f : OutgoingFrame}

theorem covered_keptFrame (f : OutgoingFrame) (o : Nat) :
    Covered (cryptos (keptFrame e f)) o ↔ Covered (cryptos [f]) o ∧ o < e := by
  cases f with
  | crypto c =>
    rw [show cryptos [.crypto c] = [c] from rfl, covered_cons, or_iff_left covered_nil, keptFrame]
    split_ifs with hz
    · refine iff_of_false covered_nil ?_
      simp only [CryptoFrame.Covers, keptLen] at hz ⊢
      omega
    · show Covered [_] o ↔ _
      rw [covered_cons, or_iff_left covered_nil]
      simp only [CryptoFrame.Covers, length_take, keptLen]
      omega
  | ping | other bytes =>
    show Covered [] o ↔ Covered [] o ∧ _
    simp only [covered_nil, false_and]

theorem covered_leftFrame (c : CryptoFrame) (o : Nat) :
    Covered (leftFrame e c) o ↔ c.Covers o ∧ e ≤ o := by
  rw [leftFrame]
  split_ifs with hall
  · rw [covered_cons, or_iff_left covered_nil]
    simp only [CryptoFrame.Covers, length_drop, keptLen]
    omega
  · refine iff_of_false covered_nil ?_
    simp only [CryptoFrame.Covers, keptLen] at hall ⊢
    omega

theorem carries_keptFrame (h : ∀ c ∈ cryptos [f], c.Carries S) :
    ∀ c ∈ cryptos (keptFrame e f), c.Carries S := by
  cases f with
  | crypto c =>
    rw [keptFrame]
    split
    · exact nofun
    · intro d hd
      rw [mem_singleton.mp (show d ∈ [_] from hd)]
      exact carries_take (h c mem_cons_self) _
  | ping | other bytes => exact h

theorem carries_leftFrame {c : CryptoFrame} (h : c.Carries S) :
    ∀ d ∈ leftFrame e c, d.Carries S := by
  rw [leftFrame]
  split
  · intro d hd
    rw [mem_singleton.mp hd]
    exact carries_drop h _
  · exact nofun

theorem cryptos_cons (f : OutgoingFrame) (fs : List OutgoingFrame) :
    cryptos (f :: fs) = cryptos [f] ++ cryptos fs := by
  rw [cryptos, cryptos, cryptos, ← filterMap_append, singleton_append]

theorem cryptos_append (fs gs : List OutgoingFrame) :
    cryptos (fs ++ gs) = cryptos fs ++ cryptos gs :=
  filterMap_append

/-- The recorded frames carry what comes before the end of the layout. -/
theorem covered_keptFrames (o : Nat) : ∀ fs : List OutgoingFrame,
    Covered (cryptos (fs.flatMap (keptFrame e))) o ↔ Covered (cryptos fs) o ∧ o < e
  | [] => by
    show Covered [] o ↔ Covered [] o ∧ _
    simp only [covered_nil, false_and]
  | f :: fs => by
    rw [flatMap_cons, cryptos_append, covered_append, covered_keptFrame,
      covered_keptFrames o fs, cryptos_cons f fs, covered_append, or_and_right]

theorem carries_keptFrames : ∀ {fs : List OutgoingFrame}, (∀ c ∈ cryptos fs, c.Carries S) →
    ∀ c ∈ cryptos (fs.flatMap (keptFrame e)), c.Carries S
  | [], _ => nofun
  | f :: fs, h => by
    rw [cryptos_cons f fs, forall_mem_append] at h
    rw [flatMap_cons, cryptos_append, forall_mem_append]
    exact ⟨carries_keptFrame h.1, carries_keptFrames h.2⟩

theorem covered_leftFrames (o : Nat) : ∀ cs : List CryptoFrame,
    Covered (cs.flatMap (leftFrame e)) o ↔ Covered cs o ∧ e ≤ o
  | [] => by
    show Covered [] o ↔ Covered [] o ∧ _
    simp only [covered_nil, false_and]
  | c :: cs => by
    rw [flatMap_cons, covered_append, covered_leftFrame, covered_leftFrames o cs,
      covered_cons, or_and_right]

theorem carries_leftFrames {cs : List CryptoFrame} (h : ∀ c ∈ cs, c.Carries S) :
    ∀ d ∈ cs.flatMap (leftFrame e), d.Carries S := by
  intro d hd
  obtain ⟨c, hc, hd⟩ := mem_flatMap.mp hd
  exact carries_leftFrame (h c hc) d hd

theorem plain_keptFrames (h : Plain fs) : Plain (fs.flatMap (keptFrame e)) := by
  intro g hg
  obtain ⟨f, hf, hg⟩ := mem_flatMap.mp hg
  rcases h f hf with rfl | ⟨c, rfl⟩
  · exact .inl (mem_singleton.mp hg)
  · rw [keptFrame] at hg
    split at hg
    · cases hg
    · exact .inr ⟨_, mem_singleton.mp hg⟩

theorem add_eq_ok {k k' : Kept} (h : k.add f = .ok k') :
    k' = { k with frames := k.frames ++ [f], length := k.length + framesTotal [f] } := by
  obtain ⟨l, hl, rfl⟩ := map_eq_ok_iff.mp h
  rw [(OutgoingFrame.length_eq_some (orTooLarge_eq_ok hl)).1]
  rfl

/-- One frame: the part that is kept is recorded, the rest is put back. -/
theorem keepFrame_eq_ok {hasRetransmission : Bool} {k k' : Kept}
    (h : k.keepFrame e hasRetransmission writeBuf f = .ok k') :
    k'.frames = k.frames ++ keptFrame e f ∧ k'.length = k.length + framesTotal (keptFrame e f) ∧
      (hasRetransmission = true → k'.stream = k.stream ∧
        k'.unsent = k.unsent ++ (cryptos [f]).flatMap (leftFrame e)) ∧
      (hasRetransmission = false → k'.unsent = k.unsent ∧ ∀ c, f = .crypto c →
        k'.stream = if keptLen e c < c.data.length then
          ⟨c.offset + keptLen e c, writeBuf.drop (keptLen e c)⟩ else k.stream) := by
  cases f with
  | ping | other bytes =>
    rw [add_eq_ok h]
    exact ⟨rfl, rfl, fun _ => ⟨rfl, (append_nil _).symm⟩, fun _ => ⟨rfl, by rintro _ ⟨⟩⟩⟩
  | crypto c =>
    obtain ⟨k₁, hk₁⟩ : ∃ k₁, k₁ = k.putBack hasRetransmission writeBuf c (keptLen e c) :=
      ⟨_, rfl⟩
    have hput : k₁.frames = k.frames ∧ k₁.length = k.length ∧
        (hasRetransmission = true → k₁.stream = k.stream ∧ k₁.unsent = k.unsent ++ leftFrame e c) ∧
        (hasRetransmission = false → k₁.unsent = k.unsent ∧
          k₁.stream = if keptLen e c < c.data.length then
            ⟨c.offset + keptLen e c, writeBuf.drop (keptLen e c)⟩ else k.stream) := by
      rw [hk₁, Kept.putBack, leftFrame]
      split
      · cases hasRetransmission with
        | true => exact ⟨rfl, rfl, fun _ => ⟨rfl, rfl⟩, by rintro ⟨⟩⟩
        | false => exact ⟨rfl, rfl, by rintro ⟨⟩, fun _ => ⟨rfl, rfl⟩⟩
      · exact ⟨rfl, rfl, fun _ => ⟨rfl, (append_nil _).symm⟩, fun _ => ⟨rfl, rfl⟩⟩
    obtain ⟨hframes, hlen, hback, hstream⟩ := hput
    have hleft : (cryptos [.crypto c]).flatMap (leftFrame e) = leftFrame e c :=
      append_nil _
    have h : (if keptLen e c = 0 then .ok k₁
        else k₁.add (.crypto ⟨c.offset, c.data.take (keptLen e c)⟩)) = .ok k' := by
      rw [hk₁]
      exact h
    rw [hleft, keptFrame]
    split_ifs at h with hz
    · cases h
      rw [if_pos hz, append_nil]
      exact ⟨hframes, hlen, hback, fun hf => ⟨(hstream hf).1, fun d hd => by
        cases hd
        exact (hstream hf).2⟩⟩
    · rw [if_neg hz, add_eq_ok h]
      refine ⟨?_, ?_, hback, fun hf => ⟨(hstream hf).1, fun d hd => by
        cases hd
        exact (hstream hf).2⟩⟩
      · rw [← hframes]
      · rw [← hlen]

/-- The loop over retransmissions: what is left goes back to the queue. -/
theorem keepFrames_eq_ok : ∀ {fs : List OutgoingFrame} {k k' : Kept},
    fs.foldlM (Kept.keepFrame e true writeBuf) k = .ok k' →
    k'.frames = k.frames ++ fs.flatMap (keptFrame e) ∧
      k'.length = k.length + framesTotal (fs.flatMap (keptFrame e)) ∧ k'.stream = k.stream ∧
      k'.unsent = k.unsent ++ (cryptos fs).flatMap (leftFrame e)
  | [], k, k', h => by
    cases h
    exact ⟨(append_nil _).symm, rfl, rfl, (append_nil _).symm⟩
  | f :: fs, k, k', h => by
    rw [foldlM_cons] at h
    obtain ⟨k₁, hk₁, h⟩ := bind_eq_ok_iff.mp h
    obtain ⟨hframes, hlen, hstream, hunsent⟩ := keepFrames_eq_ok h
    obtain ⟨hframes₁, hlength₁, hback, -⟩ := keepFrame_eq_ok hk₁
    obtain ⟨hstream₁, hunsent₁⟩ := hback rfl
    refine ⟨?_, ?_, hstream.trans hstream₁, ?_⟩
    · rw [hframes, hframes₁, flatMap_cons, append_assoc]
    · rw [hlen, hlength₁, flatMap_cons, framesTotal_append, Nat.add_assoc]
    · rw [hunsent, hunsent₁, cryptos_cons f fs, flatMap_append, append_assoc]

end Keep

/-! ## What waits to be sent -/

/-- What is still to be sent: the rest of the stream, and the frames of the queue. -/
def waiting (stream : CryptoStream) (queue : LevelQueue) : List CryptoFrame :=
  ⟨stream.writeOffset, stream.writeBuf⟩ :: queue.cryptoData

/-- The stream and the queue hold bytes of `S`, and the stream all of its end. -/
structure Holds (S : List UInt8) (stream : CryptoStream) (queue : LevelQueue) : Prop where
  carries : ∀ c ∈ waiting stream queue, c.Carries S
  stop_eq : stream.writeOffset + stream.writeBuf.length = S.length
  frames : ∀ f ∈ queue.frames, f = .ping

section Waiting

variable {S : List UInt8} {u : UPacketPacker}

/-- The copy of the queue has data if the queue has. -/
theorem hasData_stage (u : UPacketPacker) (q : LevelQueue) (h : q.hasData = true) :
    { q with cryptoData := (u.stage false q.cryptoData).1 }.hasData = true := by
  simp only [LevelQueue.hasData, Bool.or_eq_true, Bool.not_eq_true', isEmpty_eq_false_iff]
    at h ⊢
  refine h.imp_left fun hne hstage => hne ?_
  cases hq : q.cryptoData with
  | nil => rfl
  | cons f rest =>
    -- the first of the sorted frames is always staged
    simp only [hq, stage, Bool.not_false, Bool.true_and, decide_eq_true_eq] at hstage
    split_ifs at hstage
    split at hstage
    · rename_i hsort
      have hperm := u.offsetSort.perm (f :: rest)
      rw [hsort] at hperm
      exact hperm.symm.eq_nil
    · cases hstage

/-- The split at `cryptoEnd` of what was collected: one part is recorded, and the other
waits again. -/
structure Divides (S : List UInt8) (u : UPacketPacker) (k : Kept) (queue : LevelQueue) : Prop where
  holds : Holds S k.stream queue
  plain : Plain k.frames
  carries : ∀ c ∈ cryptos k.frames, c.Carries S
  covered : ∀ o, Covered (waiting u.initialStream u.retransmissionQueue.initial) o →
    Covered (waiting k.stream queue) o ∨ Covered (cryptos k.frames) o

/-- Frames of the queue: what is left goes to its front. -/
theorem divides_queue (hS : Holds S u.initialStream u.retransmissionQueue.initial) {e n : Nat}
    {queue' : LevelQueue} {k : Kept}
    (hcut : Cut (u.stage false u.retransmissionQueue.initial.cryptoData).1
      (cryptos fs ++ queue'.cryptoData)) (hplain : Plain fs)
    (hping : ∀ f ∈ queue'.frames, f = .ping)
    (hk : fs.foldlM (Kept.keepFrame e true writeBuf) ⟨[], [], u.initialStream, n⟩ = .ok k) :
    (∀ c ∈ cryptos fs, c.Carries S) ∧ Divides S u k { queue' with
      cryptoData := k.unsent ++ queue'.cryptoData ++
        (u.stage false u.retransmissionQueue.initial.cryptoData).2 } := by
  obtain ⟨hframes, -, hstream, hunsent⟩ := keepFrames_eq_ok hk
  rw [nil_append] at hframes hunsent
  obtain ⟨hperm, -⟩ := stage_spec u u.retransmissionQueue.initial.cryptoData
  obtain ⟨hbuf, hq⟩ := forall_mem_cons.mp hS.carries
  obtain ⟨hstaged, hdeferred⟩ := forall_mem_append.mp fun c hc => hq c (hperm.mem_iff.mp hc)
  obtain ⟨hfs, hrest⟩ := forall_mem_append.mp (hcut.carries hstaged)
  refine ⟨hfs, ⟨?_, ?_, hping⟩, ?_, ?_, fun o ho => ?_⟩
  · rw [hstream, hunsent]
    refine forall_mem_cons.mpr ⟨hbuf, ?_⟩
    exact forall_mem_append.mpr
      ⟨forall_mem_append.mpr ⟨carries_leftFrames hfs, hrest⟩, hdeferred⟩
  · rw [hstream]
    exact hS.stop_eq
  · rw [hframes]
    exact plain_keptFrames hplain
  · rw [hframes]
    exact carries_keptFrames hfs
  · rw [waiting, covered_cons, ← covered_perm hperm, covered_append, hcut.covered,
      covered_append] at ho
    rw [hstream, hframes, hunsent, waiting, covered_cons, covered_append, covered_append,
      covered_leftFrames, covered_keptFrames]
    rcases ho with ho | (ho | ho) | ho
    · exact .inl (.inl ho)
    · rcases Nat.lt_or_ge o e with hlt | hge
      · exact .inr ⟨ho, hlt⟩
      · exact .inl (.inr (.inl (.inl ⟨ho, hge⟩)))
    · exact .inl (.inr (.inl (.inr ho)))
    · exact .inl (.inr (.inr ho))

/-- A frame of the stream: the stream goes on where the layout ends. -/
theorem divides_stream (hS : Holds S u.initialStream u.retransmissionQueue.initial) {e m n : Nat}
    (hn : n ≤ u.initialStream.writeBuf.length) {k : Kept}
    (hk : [OutgoingFrame.crypto
        ⟨u.initialStream.writeOffset, u.initialStream.writeBuf.take n⟩].foldlM
      (Kept.keepFrame e false u.initialStream.writeBuf)
      ⟨[], [], ⟨u.initialStream.writeOffset + n, u.initialStream.writeBuf.drop n⟩, m⟩ = .ok k) :
    Divides S u k { u.retransmissionQueue.initial with
      cryptoData := k.unsent ++ (u.stage false u.retransmissionQueue.initial.cryptoData).1 ++
        (u.stage false u.retransmissionQueue.initial.cryptoData).2 } := by
  rw [foldlM_cons] at hk
  obtain ⟨k, hk, hnil⟩ := bind_eq_ok_iff.mp hk
  cases hnil
  obtain ⟨hframes, -, -, hback⟩ := keepFrame_eq_ok hk
  obtain ⟨hunsent, hstream⟩ := hback rfl
  have hstream := hstream _ rfl
  obtain ⟨hperm, -⟩ := stage_spec u u.retransmissionQueue.initial.cryptoData
  obtain ⟨hbuf, hq⟩ := forall_mem_cons.mp hS.carries
  obtain ⟨c, hc⟩ : ∃ c : CryptoFrame,
      c = ⟨u.initialStream.writeOffset, u.initialStream.writeBuf.take n⟩ := ⟨_, rfl⟩
  have hlen : c.data.length = n := by
    rw [hc]
    exact length_take_of_le hn
  have hle : keptLen e c ≤ n := hlen ▸ Nat.min_le_right _ _
  rw [← hc] at hframes hstream
  have hstream : k.stream = ⟨u.initialStream.writeOffset + keptLen e c,
      u.initialStream.writeBuf.drop (keptLen e c)⟩ := by
    rw [hstream]
    split_ifs with hall
    · rw [hc]
    · rw [show keptLen e c = n by omega]
  have hcarries : ∀ d ∈ cryptos [.crypto c], d.Carries S := by
    intro d hd
    rw [mem_singleton.mp (show d ∈ [c] from hd), hc]
    exact carries_take hbuf n
  rw [nil_append] at hframes
  refine ⟨⟨?_, ?_, hS.frames⟩, ?_, ?_, fun o ho => ?_⟩
  · rw [hstream, hunsent]
    refine forall_mem_cons.mpr ⟨carries_drop hbuf _, fun d hd => hq d ?_⟩
    exact hperm.mem_iff.mp hd
  · rw [hstream, ← hS.stop_eq, length_drop]
    show _ + _ + _ = _
    omega
  · have hplain : Plain ([.crypto c].flatMap (keptFrame e)) :=
      plain_keptFrames (forall_mem_singleton.mpr (.inr ⟨c, rfl⟩))
    rw [flatMap_singleton] at hplain
    rwa [hframes]
  · rw [hframes]
    exact carries_keptFrame hcarries
  · rw [waiting, covered_cons, ← covered_perm hperm] at ho
    rw [hstream, hframes, hunsent, nil_append, waiting, covered_cons, covered_keptFrame,
      show cryptos [.crypto c] = [c] from rfl, covered_cons, or_iff_left covered_nil, hc]
    rcases ho with ho | ho
    · have ho : u.initialStream.writeOffset ≤ o ∧
        o < u.initialStream.writeOffset + u.initialStream.writeBuf.length := ho
      simp only [CryptoFrame.Covers, keptLen, length_drop, length_take]
      omega
    · exact .inl (.inr ho)

end Waiting

/-! ## What a prepared packet conserves -/

/-- The CRYPTO frames that a receiver reads carry bytes of `S`, and cover the same offsets as
the recorded ones. -/
structure Faithful (S : List UInt8) (frames : List OutgoingFrame) (plaintext : List UInt8) :
    Prop where
  plain : Plain frames
  recorded : ∀ c ∈ cryptos frames, c.Carries S
  wire : ∃ fs, Reads fs plaintext ∧ (∀ w ∈ fs.filterMap Frame.crypto?, w.Carries S) ∧
    ∀ o, Covered (fs.filterMap Frame.crypto?) o ↔ Covered (cryptos frames) o

/-- A packet that a receiver reads no CRYPTO frame from, and that records no frame. -/
theorem faithful_nil {S plaintext : List UInt8} {fs : List Frame} (hreads : Reads fs plaintext)
    (hcrypto : fs.filterMap Frame.crypto? = []) : Faithful S [] plaintext := by
  refine ⟨nofun, nofun, fs, hreads, ?_, fun o => ?_⟩
  · rw [hcrypto]
    exact nofun
  · rw [hcrypto]
    exact Iff.rfl

/-- Nothing is lost: what was waiting waits, or is in the packet. -/
structure Conserves (S : List UInt8) (u : UPacketPacker) (r : Prepared) : Prop where
  holds : Holds S r.stream r.queue
  covered : ∀ o, Covered (waiting u.initialStream u.retransmissionQueue.initial) o →
    Covered (waiting r.stream r.queue) o ∨
      (r.data.isSome = true ∧ Covered (cryptos r.payload.frames) o)
  laid : ∀ data, r.data = some data → Faithful S r.payload.frames data ∧ r.payload.length ≠ 0
  unlaid : r.data = none → r.payload.length ≠ 0 →
    r.payload.frames = [] ∧ r.payload.streamFrames = [] ∧ r.payload.Consistent
  type_eq : ∀ hdr, r.hdr = some hdr → hdr.type = .initial

section Conserves

variable {S : List UInt8} {u : UPacketPacker} {maxSize : Int} {onlyAck : Bool}

theorem dropEmptyCrypto_consistent {pl pl' : Payload} (h : dropEmptyCrypto pl = .ok pl')
    (hpl : pl.Consistent) : pl'.Consistent := by
  rw [dropEmptyCrypto.eq_def] at h
  split at h
  · rename_i f hframes
    split at h
    · obtain ⟨l, hl, rfl⟩ := map_eq_ok_iff.mp h
      obtain ⟨-, rfl⟩ := (CryptoFrame.length_eq_some_iff l).mp (orTooLarge_eq_ok hl)
      obtain ⟨n, hn, hlen⟩ := hpl.length_eq
      refine ⟨hpl.ack, hpl.streamFrames, n, hn, ?_⟩
      rw [hframes, framesTotal_cons, framesTotal_nil] at hlen
      have hlen : pl.length = n + (f.bytes.length + 0) + Framer.streamTotal pl.streamFrames :=
        hlen
      show pl.length - f.bytes.length = n + 0 + Framer.streamTotal pl.streamFrames
      omega
    · cases h
      exact hpl
  · cases h
    exact hpl

/-- A frame takes at least its type. -/
theorem framesTotal_ne_zero (hplain : Plain fs) (hne : fs ≠ []) : framesTotal fs ≠ 0 := by
  cases fs with
  | nil => exact absurd rfl hne
  | cons f fs =>
    rw [framesTotal_cons]
    rcases hplain f mem_cons_self with rfl | ⟨c, rfl⟩
    · exact Nat.ne_of_gt (Nat.add_pos_left Nat.one_pos _)
    · refine Nat.ne_of_gt (Nat.add_pos_left ?_ _)
      rw [OutgoingFrame.bytes, CryptoFrame.length_bytes]
      omega

/-- A packet without a layout leaves the stream and the queue as they were. -/
theorem conserves_unlaid (hS : Holds S u.initialStream u.retransmissionQueue.initial)
    {hdr : Option ExtendedHeader} {pl : Payload}
    (hpl : pl.length ≠ 0 → pl.frames = [] ∧ pl.streamFrames = [] ∧ pl.Consistent)
    (htype : ∀ h, hdr = some h → h.type = .initial) :
    Conserves S u ⟨hdr, pl, none, u.initialStream, u.retransmissionQueue.initial⟩ :=
  ⟨hS, fun _ ho => .inl ho, nofun, fun _ => hpl, htype⟩

/-- A packet with a layout: what it carries is what is recorded. -/
theorem LaidOut.conserves (hbuilder : u.uSpec.frameBuilder.Supported)
    (hS : Holds S u.initialStream u.retransmissionQueue.initial) {hdr : ExtendedHeader}
    {hdrLen : Nat} {c : CryptoPacket} {cryptoEnd ackLen : Nat} {k : Kept}
    {r : Prepared} (hc : u.collect maxSize false = .ok c) (hhdr : c.hdr = some hdr)
    (hframes : c.payload.frames ≠ [])
    (h : LaidOut u hdr hdrLen c.payload c (u.stage false u.retransmissionQueue.initial.cryptoData).2
      maxSize data cryptoEnd ackLen k r) :
    Conserves S u r := by
  have hcollected := collect_collected hc
  have hk := h.kept
  obtain ⟨base, hstaged⟩ := (stage_spec u u.retransmissionQueue.initial.cryptoData).2
  have hsplit : Plain c.payload.frames ∧ (∀ d ∈ cryptos c.payload.frames, d.Carries S) ∧
      (∃ base, Consecutive base (cryptos c.payload.frames)) ∧
      k.frames = c.payload.frames.flatMap (keptFrame cryptoEnd) ∧
      k.length = ackLen + framesTotal k.frames ∧ Divides S u k { c.queue with
        cryptoData := k.unsent ++ c.queue.cryptoData ++
          (u.stage false u.retransmissionQueue.initial.cryptoData).2 } := by
    have horigin := collect_origin hc hS.frames
    generalize c.payload.frames = fs at *
    generalize c.stream = stream' at *
    generalize c.queue = queue' at *
    cases horigin with
    | queue hdata hcut hplain hping =>
      rw [stage_hasData u false _ hdata] at hk
      obtain ⟨hcarries, hdivides⟩ := divides_queue hS hcut hplain hping hk
      obtain ⟨hkept, hlen, -⟩ := keepFrames_eq_ok hk
      rw [nil_append] at hkept
      rw [← hkept] at hlen
      exact ⟨hplain, hcarries, ⟨base, consecutive_prefix (hcut.consecutive hstaged)⟩, hkept,
        hlen, hdivides⟩
    | stream n hdata hn =>
      have hdata : u.retransmissionQueue.initial.hasData = false := by
        refine Bool.eq_false_iff.mpr fun htrue => ?_
        rw [hasData_stage u _ htrue] at hdata
        cases hdata
      rw [hdata] at hk
      have hdivides := divides_stream hS hn hk
      rw [foldlM_cons] at hk
      obtain ⟨k, hk, hnil⟩ := bind_eq_ok_iff.mp hk
      cases hnil
      obtain ⟨hkept, hlen, -⟩ := keepFrame_eq_ok hk
      rw [nil_append] at hkept
      rw [← hkept] at hlen
      obtain ⟨hbuf, -⟩ := forall_mem_cons.mp hS.carries
      refine ⟨forall_mem_singleton.mpr (.inr ⟨_, rfl⟩), fun d hd => ?_, ⟨_, rfl, trivial⟩,
        ?_, hlen, hdivides⟩
      · rw [mem_singleton.mp (show d ∈ [_] from hd)]
        exact carries_take hbuf n
      · rw [flatMap_singleton]
        exact hkept
    | none => exact absurd rfl hframes
  obtain ⟨hplain, hcarries, ⟨base, hcons⟩, hkept, hlen, hdivides⟩ := hsplit
  obtain ⟨fs, hlays⟩ := marshal_lays hbuilder hplain hcollected.consistent.ack hcons h.marshalled
  have htype : hdr.type = .initial := by
    rw [hcollected.hdr hdr hhdr]
    rfl
  have hr := h.prepared
  by_cases hne : k.frames = []
  · rw [hne, isEmpty_nil, if_pos rfl] at hr
    rw [hr]
    refine ⟨hdivides.holds, fun o ho => ?_, nofun, fun _ _ => ⟨rfl, hcollected.streamFrames, ?_⟩,
      fun h' hh => Option.some.inj hh ▸ htype⟩
    · rcases hdivides.covered o ho with ho | ho
      · exact .inl ho
      · rw [hne] at ho
        exact absurd ho covered_nil
    · rw [hne, framesTotal_nil] at hlen
      refine ⟨hcollected.consistent.ack, hcollected.consistent.streamFrames,
        ackLen, h.ackLen_eq, ?_⟩
      rw [hcollected.streamFrames]
      exact hlen
  · rw [if_neg (by rwa [List.isEmpty_iff])] at hr
    rw [hr]
    refine ⟨hdivides.holds, fun o ho => (hdivides.covered o ho).imp_right fun ho => ⟨rfl, ho⟩, ?_,
      nofun, fun h' hh => Option.some.inj hh ▸ htype⟩
    intro data' hdata
    cases hdata
    refine ⟨⟨hdivides.plain, hdivides.carries, _,
      hlays.reads.append (QUICRandomFrames.reads_replicate _), ?_, fun o => ?_⟩, ?_⟩
    · rw [filterMap_append, filterMap_replicate_of_none rfl, append_nil]
      exact hlays.carries S hcarries
    · rw [filterMap_append, filterMap_replicate_of_none rfl, append_nil,
        hlays.covered, hkept, covered_keptFrames]
    · show k.length ≠ 0
      have := framesTotal_ne_zero hdivides.plain hne
      omega

/-- **A prepared packet conserves the crypto data.** -/
theorem Prepares.conserves {r : Prepared} (h : Prepares u maxSize onlyAck r)
    (hbuilder : u.uSpec.frameBuilder.Supported)
    (hS : Holds S u.initialStream u.retransmissionQueue.initial) : Conserves S u r := by
  have hready := h.ready
  cases h with
  | @nothing c pl hc hpl hnone =>
    have hempty := (collect_collected hc).empty hnone
    rw [hempty] at hpl
    cases hpl
    exact conserves_unlaid hS (fun hz => absurd rfl hz) nofun
  | @noFrames c pl hdr hc hpl hhdr hno =>
    have hcollected := collect_collected hc
    refine conserves_unlaid hS (fun hpos => ?_) fun h' hh => ?_
    · rcases hready with ⟨-, _, _, hready⟩ | ⟨-, hz | hnil⟩
      · cases hready.data_eq
      · exact absurd hz hpos
      · refine ⟨hnil, ?_, dropEmptyCrypto_consistent hpl hcollected.consistent⟩
        rcases dropEmptyCrypto_eq_ok hpl with rfl | ⟨-, -, hstream⟩
        · exact hcollected.streamFrames
        · rw [hstream, hcollected.streamFrames]
    · cases hh
      rw [hcollected.hdr hdr hhdr]
      rfl
  | @laidOut c pl hdr hdrLen r hc hpl hhdr hlen hmin honly hframes hlay =>
    cases honly
    rcases dropEmptyCrypto_eq_ok hpl with rfl | ⟨hnil, -, -⟩
    · obtain ⟨data, cryptoEnd, ackLen, k, hl⟩ := layOutInitial_eq_ok hlay
      exact hl.conserves hbuilder hS hc hhdr hframes
    · exact absurd hnil hframes

end Conserves

end UPacketPacker

end UQuic
