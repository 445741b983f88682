import Mathlib.Algebra.Order.BigOperators.Group.List
import Mathlib.Algebra.Order.Group.Nat
import Mathlib.Data.Finset.Card
import BurstIoT.KException
import BurstIoT.Packet
import BurstIoT.Library.MachineInt
import BurstIoT.Library.Tally

/-!
# Bursts

`Burst.h` and `Burst.cpp`: the burst record, how a packet is put into it (`AddPacket`, `AddSig`,
`PiggyBack`), its validation, its hash and the two comparisons.  `uniPktNum` is the `uint8_t` of the
source and wraps.

**Counters.**  `pktNum` and the counts of `packetDetail` only ever count up from zero, and are
followed as the numbers of what they have counted.  The `int`s that the source keeps are `intPktNum`
and `intDetail`: they count on with every signature (`int_addSig`), and are the numbers themselves
as long as these fit (`FitsInt`).  A burst that is given is one that fits; where a statement is
about what has been counted, it says what the `int`s are.  The same goes for every other `int` that
only counts up.

`packetDetail` is a tally of signatures, and `Burst.sigs` the multiset it stands for.  The
representation invariant is `Burst.WellFormed`; `AddSig` keeps it as long as `uniPktNum` does not
wrap, and always adds its signature to `sigs`.
-/

namespace BurstIoT

/-- `Burst`. -/
structure Burst where
  uniPktNum : UInt8 := 0
  pktNum : ℕ := 0
  instanceLabel : String
  firstPacketStamp : Timespec
  lastPacketStamp : Timespec
  packetDetail : List (Int16 × ℕ) := []
  deriving DecidableEq, Repr

namespace Burst

/-- `pktNum`, as the source has it. -/
def intPktNum (b : Burst) : ℤ := toInt b.pktNum

/-- `packetDetail`, as the source has it. -/
def intDetail (b : Burst) : List (Int16 × ℤ) :=
  b.packetDetail.map fun e => (e.1, toInt e.2)

/-- The counters of a burst are at most `INT_MAX`. -/
structure FitsInt (b : Burst) : Prop where
  pktNum : b.pktNum < 2 ^ 31
  counts : ∀ e ∈ b.packetDetail, e.2 < 2 ^ 31

@[simp] theorem map_fst_intDetail (b : Burst) :
    b.intDetail.map Prod.fst = b.packetDetail.map Prod.fst := by
  rw [intDetail, List.map_map]
  rfl

theorem map_snd_intDetail (b : Burst) :
    b.intDetail.map Prod.snd = (b.packetDetail.map Prod.snd).map toInt := by
  rw [intDetail, List.map_map, List.map_map]
  rfl

@[simp] theorem length_intDetail (b : Burst) : b.intDetail.length = b.packetDetail.length :=
  List.length_map ..

theorem FitsInt.intPktNum_eq {b : Burst} (h : b.FitsInt) : b.intPktNum = b.pktNum :=
  toInt_of_lt h.pktNum

theorem FitsInt.intDetail_eq {b : Burst} (h : b.FitsInt) :
    b.intDetail = b.packetDetail.map fun e => (e.1, (e.2 : ℤ)) :=
  List.map_congr_left fun e he => by rw [toInt_of_lt (h.counts e he)]

/-- A burst whose `pktNum` counts its entries fits if `pktNum` does. -/
theorem fitsInt_of_size {b : Burst} (h : b.pktNum = Tally.size b.packetDetail)
    (hfits : b.pktNum < 2 ^ 31) : b.FitsInt := by
  refine ⟨hfits, fun e he => lt_of_le_of_lt ?_ hfits⟩
  rw [h]
  exact List.le_sum_of_mem (List.mem_map_of_mem he)

/-! ## Building a burst -/

/-- `Burst::Burst(KDevice&)`. -/
def ofDevice (device : KDevice) : Burst where
  instanceLabel := device.instanceName
  firstPacketStamp := .zero
  lastPacketStamp := .zero

/-- `PiggyBack`: count the signature on the entry that has it, among the first `uniPktNum`. -/
def piggyBack (b : Burst) (sig : Int16) : Option Burst :=
  (Tally.bumpWithin b.uniPktNum.toNat sig b.packetDetail).map fun detail =>
    { b with packetDetail := detail, pktNum := b.pktNum + 1 }

/-- `AddSig`. -/
def addSig (b : Burst) (signedLen : Int16) : Burst :=
  match b.piggyBack signedLen with
  | some b' => b'
  | none =>
    { b with
      packetDetail := b.packetDetail ++ [(signedLen, 1)]
      pktNum := b.pktNum + 1
      uniPktNum := b.uniPktNum + 1 }

/-- `AddPacket`. -/
def addPacket (b : Burst) (packet : KPacket) : Burst :=
  b.addSig packet.signedLen

/-- `SetFirstPacketStamp`. -/
def setFirstPacketStamp (b : Burst) (packet : KPacket) : Burst :=
  { b with firstPacketStamp := packet.timestamp }

/-- `SetLastPacketStamp`. -/
def setLastPacketStamp (b : Burst) (packet : KPacket) : Burst :=
  { b with lastPacketStamp := packet.timestamp }

/-- `Burst::Burst(std::vector<std::shared_ptr<Burst>>)`: one burst out of many, every signature
added as often as it is counted. -/
def ofBursts (burstVec : List Burst) : Burst :=
  burstVec.foldl
    (fun merged burst =>
      burst.packetDetail.foldl (fun m e => (List.replicate e.2 e.1).foldl addSig m) merged)
    { instanceLabel := (burstVec.head?.map instanceLabel).getD ""
      firstPacketStamp := .zero
      lastPacketStamp := .zero }

/-- `ToString`: one line. -/
def toString (b : Burst) : Except Fault String := do
  let detail ← (List.range b.uniPktNum.toNat).foldlM
    (fun ss i => do
      let e ← at? b.packetDetail i
      return ss ++ "(" ++ e.1.toInt.repr ++ "X" ++ e.2.repr ++ ")") ""
  return "Device=" ++ b.instanceLabel ++ ",Uni=" ++ b.uniPktNum.toNat.repr ++ ",PktNum=" ++
    b.pktNum.repr ++ ",Detail=" ++ detail ++ "\n"

/-! ## Comparing bursts -/

/-- `operator<`: by the first stamp. -/
def earlierThan (a b : Burst) : Bool :=
  a.firstPacketStamp.earlier b.firstPacketStamp

theorem strictWeak_earlierThan : StrictWeak earlierThan :=
  Timespec.strictWeak_earlier.comap firstPacketStamp

/-- `operator==`: the two counters and the first `uniPktNum` entries. -/
def same (a b : Burst) : Bool :=
  a.uniPktNum == b.uniPktNum && a.pktNum == b.pktNum &&
    (List.range a.uniPktNum.toNat).all fun i => a.packetDetail[i]? == b.packetDetail[i]?

/-- `std::hash<Burst>`.  An entry that is counted but not there would be undefined. -/
def hash (lib : StdLib) (b : Burst) : UInt64 :=
  let seed := (List.range b.uniPktNum.toNat).foldl
    (fun seed i =>
      match b.packetDetail[i]? with
      | some e => seed ^^^ (lib.hashInt e.1.toInt <<< UInt64.ofNat (e.2 % 30))
      | none => seed)
    (lib.hashInt b.uniPktNum.toNat)
  seed ^^^ lib.hashUInt32 (UInt32.ofNat b.pktNum)

theorem same_iff {a b : Burst} : a.same b = true ↔
    a.uniPktNum = b.uniPktNum ∧ a.pktNum = b.pktNum ∧
      ∀ i < a.uniPktNum.toNat, a.packetDetail[i]? = b.packetDetail[i]? := by
  simp only [same, Bool.and_eq_true, beq_iff_eq, List.all_eq_true, List.mem_range, and_assoc]

theorem same_refl (a : Burst) : a.same a = true :=
  same_iff.mpr ⟨rfl, rfl, fun _ _ => rfl⟩

theorem same_symm {a b : Burst} (h : a.same b = true) : b.same a = true := by
  obtain ⟨huni, hpkt, hdetail⟩ := same_iff.mp h
  exact same_iff.mpr ⟨huni.symm, hpkt.symm, fun i hi => (hdetail i (by rw [huni]; exact hi)).symm⟩

theorem same_trans {a b c : Burst} (h : a.same b = true) (h' : b.same c = true) :
    a.same c = true := by
  obtain ⟨huni, hpkt, hdetail⟩ := same_iff.mp h
  obtain ⟨huni', hpkt', hdetail'⟩ := same_iff.mp h'
  refine same_iff.mpr ⟨huni.trans huni', hpkt.trans hpkt', fun i hi => ?_⟩
  rw [hdetail i hi, hdetail' i (by rw [← huni]; exact hi)]

/-- **Equal bursts have equal hashes.** -/
theorem hash_eq_of_same (lib : StdLib) {a b : Burst} (h : a.same b = true) :
    a.hash lib = b.hash lib := by
  obtain ⟨huni, hpkt, hdetail⟩ := same_iff.mp h
  have hfold : ∀ (l : List ℕ) (seed : UInt64), (∀ i ∈ l, i < a.uniPktNum.toNat) →
      l.foldl (fun seed i =>
        match a.packetDetail[i]? with
        | some e => seed ^^^ (lib.hashInt e.1.toInt <<< UInt64.ofNat (e.2 % 30))
        | none => seed) seed =
      l.foldl (fun seed i =>
        match b.packetDetail[i]? with
        | some e => seed ^^^ (lib.hashInt e.1.toInt <<< UInt64.ofNat (e.2 % 30))
        | none => seed) seed := by
    intro l
    induction l with
    | nil => exact fun _ _ => rfl
    | cons i l ih =>
      intro seed hl
      rw [List.foldl_cons, List.foldl_cons, hdetail i (hl i List.mem_cons_self)]
      exact ih _ fun j hj => hl j (List.mem_cons_of_mem i hj)
  rw [hash, hash, hfold _ _ fun i hi => List.mem_range.mp hi, huni, hpkt]

/-! ## Validation -/

/-- `Validate`, under the division parameters in force.  Numbers that agree agree as `int`s. -/
def validate (div : DivisionParam) (b : Burst) : Except Fault Unit :=
  let uniquePakcetNum := b.packetDetail.length
  let count := Tally.size b.packetDetail
  if b.instanceLabel.length = 0 then .error (.thrown .unknownBurstDevice)
  else if uniquePakcetNum ≠ b.uniPktNum.toNat then .error (.thrown .burstUniNumberMismatch)
  else if count ≠ b.pktNum then .error (.thrown .burstNumberMismatch)
  else if b.uniPktNum > div.burstMaxUnisig then .error (.thrown .burstUniNumberOverflow)
  else .ok ()

/-- Both counters agree with the entries: what `Validate` checks of them. -/
structure Counted (b : Burst) : Prop where
  uniPktNum : b.uniPktNum.toNat = b.packetDetail.length
  pktNum : b.pktNum = Tally.size b.packetDetail

/-- What a burst that `Validate` accepts has passed. -/
theorem counted_of_validate {div : DivisionParam} {b : Burst} (h : b.validate div = .ok ()) :
    b.Counted ∧ b.uniPktNum ≤ div.burstMaxUnisig := by
  rw [validate] at h
  split_ifs at h with hlabel huni hcount hover
  exact ⟨⟨(not_not.mp huni).symm, (not_not.mp hcount).symm⟩, UInt8.not_lt.mp hover⟩

/-! ## The multiset of signatures -/

/-- The signatures of a burst, each as often as it is counted. -/
def sigs (b : Burst) : Multiset Int16 :=
  Tally.total b.packetDetail

@[simp] theorem sigs_ofDevice (device : KDevice) : (ofDevice device).sigs = 0 := rfl

@[simp] theorem sigs_setFirstPacketStamp (b : Burst) (p : KPacket) :
    (b.setFirstPacketStamp p).sigs = b.sigs := rfl

@[simp] theorem sigs_setLastPacketStamp (b : Burst) (p : KPacket) :
    (b.setLastPacketStamp p).sigs = b.sigs := rfl

/-- What `AddSig` does: it counts an entry that has the signature, or appends one. -/
theorem addSig_cases (b : Burst) (sig : Int16) :
    (∃ (i : ℕ) (hi : i < b.packetDetail.length), b.packetDetail[i].1 = sig ∧
      b.addSig sig =
        { b with packetDetail := Tally.bump i b.packetDetail, pktNum := b.pktNum + 1 }) ∨
    (sig ∉ (b.packetDetail.take b.uniPktNum.toNat).map Prod.fst ∧
      b.addSig sig =
        { b with
          packetDetail := b.packetDetail ++ [(sig, 1)]
          pktNum := b.pktNum + 1
          uniPktNum := b.uniPktNum + 1 }) := by
  rw [addSig, piggyBack]
  cases hbump : Tally.bumpWithin b.uniPktNum.toNat sig b.packetDetail with
  | none => exact Or.inr ⟨Tally.bumpWithin_eq_none.mp hbump, rfl⟩
  | some detail =>
    obtain ⟨i, hi, hsig, rfl⟩ := Tally.bumpWithin_eq_some hbump
    exact Or.inl ⟨i, hi, hsig, rfl⟩

/-- **`AddSig` adds its signature**, whatever the state of the burst. -/
theorem sigs_addSig (b : Burst) (sig : Int16) : (b.addSig sig).sigs = sig ::ₘ b.sigs := by
  rcases addSig_cases b sig with ⟨i, hi, hsig, heq⟩ | ⟨-, heq⟩
  · rw [heq, sigs, Tally.total_bump hi, hsig]
    rfl
  · rw [heq, sigs, Tally.total_append]
    simp only [Tally.total_cons, Tally.total_nil, Multiset.replicate_one, add_zero]
    rw [add_comm, Multiset.singleton_add]
    rfl

/-- One more packet is counted. -/
theorem size_addSig (b : Burst) (sig : Int16) :
    Tally.size (b.addSig sig).packetDetail = Tally.size b.packetDetail + 1 := by
  have hcard := congrArg Multiset.card (sigs_addSig b sig)
  rw [Multiset.card_cons, sigs, sigs, Tally.card_total, Tally.card_total] at hcard
  exact hcard

@[simp] theorem pktNum_addSig (b : Burst) (sig : Int16) : (b.addSig sig).pktNum = b.pktNum + 1 := by
  rcases addSig_cases b sig with ⟨i, hi, -, heq⟩ | ⟨-, heq⟩ <;> rw [heq]

/-- **The `int`s count on**: `AddSig` adds one to `pktNum` and to the count of an entry, or appends
an entry. -/
theorem int_addSig (b : Burst) (sig : Int16) :
    (b.addSig sig).intPktNum = wrapInt (b.intPktNum + 1) ∧
      ((∃ i, (b.addSig sig).intDetail =
          b.intDetail.modify i fun e => (e.1, wrapInt (e.2 + 1))) ∨
        (b.addSig sig).intDetail = b.intDetail ++ [(sig, 1)]) := by
  refine ⟨?_, ?_⟩
  · rw [intPktNum, intPktNum, pktNum_addSig]
    exact (toInt_succ b.pktNum).symm
  · rcases addSig_cases b sig with ⟨i, -, -, heq⟩ | ⟨-, heq⟩
    · refine Or.inl ⟨i, ?_⟩
      rw [heq]
      exact Tally.map_bump toInt (fun n => wrapInt (n + 1)) (fun n => (toInt_succ n).symm) i
        b.packetDetail
    · refine Or.inr ?_
      have hone : toInt 1 = 1 := toInt_of_lt (by decide)
      rw [heq, intDetail, List.map_append, List.map_singleton, hone]
      rfl

@[simp] theorem instanceLabel_addSig (b : Burst) (sig : Int16) :
    (b.addSig sig).instanceLabel = b.instanceLabel := by
  rcases addSig_cases b sig with ⟨i, hi, -, heq⟩ | ⟨-, heq⟩ <;> rw [heq]

@[simp] theorem firstPacketStamp_addSig (b : Burst) (sig : Int16) :
    (b.addSig sig).firstPacketStamp = b.firstPacketStamp := by
  rcases addSig_cases b sig with ⟨i, hi, -, heq⟩ | ⟨-, heq⟩ <;> rw [heq]

/-! ## Merging -/

theorem pktNum_foldl_addSig (sigs : List Int16) (b : Burst) :
    (sigs.foldl addSig b).pktNum = b.pktNum + sigs.length := by
  induction sigs generalizing b with
  | nil => rfl
  | cons sig sigs ih =>
    rw [List.foldl_cons, ih, pktNum_addSig, List.length_cons]
    omega

theorem pktNum_foldl_detail (detail : List (Int16 × ℕ)) (b : Burst) :
    (detail.foldl (fun m e => (List.replicate e.2 e.1).foldl addSig m) b).pktNum =
      b.pktNum + Tally.size detail := by
  induction detail generalizing b with
  | nil => rfl
  | cons e detail ih =>
    rw [List.foldl_cons, ih, pktNum_foldl_addSig, List.length_replicate, Tally.size_cons,
      Nat.add_assoc]

/-- **A merged burst counts the packets of its parts**, also when `uniPktNum` wraps on the way. -/
theorem pktNum_ofBursts {burstVec : List Burst}
    (h : ∀ b ∈ burstVec, b.pktNum = Tally.size b.packetDetail) :
    (ofBursts burstVec).pktNum = (burstVec.map pktNum).sum := by
  have hfold : ∀ (l : List Burst) (m : Burst), (∀ b ∈ l, b.pktNum = Tally.size b.packetDetail) →
      (l.foldl (fun merged burst => burst.packetDetail.foldl
        (fun m e => (List.replicate e.2 e.1).foldl addSig m) merged) m).pktNum =
        m.pktNum + (l.map pktNum).sum := by
    intro l
    induction l with
    | nil => exact fun _ _ => rfl
    | cons b l ih =>
      intro m hl
      obtain ⟨hb, hl⟩ := List.forall_mem_cons.mp hl
      rw [List.foldl_cons, ih _ hl, pktNum_foldl_detail, List.map_cons, List.sum_cons, hb,
        Nat.add_assoc]
  rw [ofBursts, hfold _ _ h, Nat.zero_add]

/-! ## The representation invariant -/

/-- The representation invariant: distinct signatures with positive counts, and both counters
agree with the entries, so `uniPktNum` has not wrapped. -/
structure WellFormed (b : Burst) : Prop where
  nodup : (b.packetDetail.map Prod.fst).Nodup
  pos : ∀ e ∈ b.packetDetail, 0 < e.2
  pktNum : b.pktNum = Tally.size b.packetDetail
  uniPktNum : b.uniPktNum.toNat = b.packetDetail.length

namespace WellFormed

theorem ofDevice (device : KDevice) : (Burst.ofDevice device).WellFormed where
  nodup := List.nodup_nil
  pos := fun _ he => absurd he List.not_mem_nil
  pktNum := rfl
  uniPktNum := rfl

theorem counted {b : Burst} (h : b.WellFormed) : b.Counted :=
  ⟨h.uniPktNum, h.pktNum⟩

theorem card_sigs {b : Burst} (h : b.WellFormed) : b.sigs.card = b.pktNum := by
  rw [h.pktNum, sigs, Tally.card_total]

/-- A well-formed burst that has counted a packet has an entry. -/
theorem uniPktNum_pos {b : Burst} (h : b.WellFormed) (hb : 0 < b.pktNum) :
    0 < b.uniPktNum.toNat := by
  rw [h.uniPktNum]
  rw [h.pktNum] at hb
  cases hd : b.packetDetail with
  | nil => simp [hd] at hb
  | cons e t => simp

/-- The signatures are those of the entries. -/
theorem mem_sigs {b : Burst} (h : b.WellFormed) {sig : Int16} :
    sig ∈ b.sigs ↔ sig ∈ b.packetDetail.map Prod.fst := by
  rw [sigs, Tally.mem_total, List.mem_map]
  constructor
  · rintro ⟨n, hn, -⟩
    exact ⟨(sig, n), hn, rfl⟩
  · rintro ⟨⟨sig, n⟩, hn, rfl⟩
    exact ⟨n, hn, h.pos _ hn⟩

theorem toFinset_sigs {b : Burst} (h : b.WellFormed) :
    b.sigs.toFinset = (b.packetDetail.map Prod.fst).toFinset := by
  ext sig
  rw [Multiset.mem_toFinset, h.mem_sigs, List.mem_toFinset]

/-- The eight-bit counter counts the distinct signatures. -/
theorem uniPktNum_eq_card {b : Burst} (h : b.WellFormed) :
    b.uniPktNum.toNat = b.sigs.toFinset.card := by
  rw [h.toFinset_sigs, List.toFinset_card_of_nodup h.nodup, List.length_map]
  exact h.uniPktNum

/-- `AddSig` keeps the invariant if it finds the signature, or the eight-bit counter has room. -/
theorem addSig_of_mem_or_lt {b : Burst} (h : b.WellFormed) {sig : Int16}
    (hroom : sig ∈ b.sigs ∨ b.uniPktNum.toNat < 255) : (b.addSig sig).WellFormed := by
  have hsize : Tally.size (b.addSig sig).packetDetail = b.pktNum + 1 := by
    rw [size_addSig, h.pktNum]
  rcases addSig_cases b sig with ⟨i, hi, -, heq⟩ | ⟨hnew, heq⟩
  · rw [heq] at hsize ⊢
    refine ⟨?_, Tally.pos_of_mem_bump h.pos, hsize.symm, ?_⟩
    · rw [Tally.map_fst_bump]
      exact h.nodup
    · rw [Tally.length_bump]
      exact h.uniPktNum
  · rw [h.uniPktNum, List.take_length] at hnew
    rw [h.mem_sigs, or_iff_right hnew] at hroom
    rw [heq] at hsize ⊢
    refine ⟨?_, ?_, hsize.symm, ?_⟩
    · rw [List.map_append, List.map_cons, List.map_nil, List.nodup_append]
      refine ⟨h.nodup, List.nodup_singleton _, ?_⟩
      rintro a ha b hb rfl
      have hsig : a = sig := List.mem_singleton.mp hb
      exact hnew (hsig ▸ ha)
    · intro e he
      rcases List.mem_append.mp he with he | he
      · exact h.pos e he
      · rw [List.mem_singleton] at he
        rw [he]
        exact Nat.one_pos
    · show (b.uniPktNum + 1).toNat = _
      rw [UInt8.toNat_add, List.length_append, List.length_singleton, ← h.uniPktNum]
      exact Nat.mod_eq_of_lt (by
        show b.uniPktNum.toNat + 1 < 256
        omega)

/-- `AddSig` keeps the invariant while the eight-bit counter has room. -/
theorem addSig {b : Burst} (h : b.WellFormed) (hroom : b.uniPktNum.toNat < 255) (sig : Int16) :
    (b.addSig sig).WellFormed :=
  h.addSig_of_mem_or_lt (Or.inr hroom)

/-- **The `int`s of a well-formed burst** that has counted fewer than `2 ^ 31` packets are positive,
and sum up to `pktNum`. -/
theorem int_sound {b : Burst} (h : b.WellFormed) (hfits : b.pktNum < 2 ^ 31) :
    (∀ e ∈ b.intDetail, 0 < e.2) ∧ b.intPktNum = (b.intDetail.map Prod.snd).sum := by
  have hint := fitsInt_of_size h.pktNum hfits
  refine ⟨fun e he => ?_, ?_⟩
  · rw [hint.intDetail_eq, List.mem_map] at he
    obtain ⟨e, he, rfl⟩ := he
    exact Int.natCast_pos.mpr (h.pos e he)
  · have hsum : (b.intDetail.map Prod.snd).sum = (Tally.size b.packetDetail : ℕ) := by
      rw [map_snd_intDetail]
      exact (sum_toInt_eq_iff _).mpr fun n hn => by
        obtain ⟨e, he, rfl⟩ := List.mem_map.mp hn
        exact hint.counts e he
    rw [hint.intPktNum_eq, hsum, h.pktNum]

/-- Stamps do not matter to the invariant. -/
theorem setFirstPacketStamp {b : Burst} (h : b.WellFormed) (p : KPacket) :
    (b.setFirstPacketStamp p).WellFormed :=
  ⟨h.nodup, h.pos, h.pktNum, h.uniPktNum⟩

theorem setLastPacketStamp {b : Burst} (h : b.WellFormed) (p : KPacket) :
    (b.setLastPacketStamp p).WellFormed :=
  ⟨h.nodup, h.pos, h.pktNum, h.uniPktNum⟩

/-- The order of the entries does not matter either. -/
theorem of_perm {b : Burst} (h : b.WellFormed) {detail : List (Int16 × ℕ)}
    (hperm : detail.Perm b.packetDetail) : ({ b with packetDetail := detail }).WellFormed where
  nodup := ((hperm.map _).nodup_iff).mpr h.nodup
  pos := fun e he => h.pos e (hperm.mem_iff.mp he)
  pktNum := by
    rw [h.pktNum]
    exact ((hperm.map Prod.snd).sum_eq).symm
  uniPktNum := by rw [h.uniPktNum, hperm.length_eq]

/-- A well-formed burst with a label, and no more signatures than allowed, passes `Validate`. -/
theorem validate_eq_ok {b : Burst} {div : DivisionParam} (h : b.WellFormed)
    (hlabel : b.instanceLabel ≠ "") (huni : b.uniPktNum ≤ div.burstMaxUnisig) :
    b.validate div = .ok () := by
  have hlen : b.instanceLabel.length ≠ 0 := by
    rw [ne_eq, String.length_eq_zero_iff]
    exact hlabel
  have hcount : ¬ Tally.size b.packetDetail ≠ b.pktNum := not_not.mpr h.pktNum.symm
  have hover : ¬ b.uniPktNum > div.burstMaxUnisig := by
    rw [gt_iff_lt, UInt8.not_lt]
    exact huni
  rw [validate, if_neg hlen, if_neg (not_not.mpr h.uniPktNum.symm), if_neg hcount, if_neg hover]

end WellFormed

end Burst

end BurstIoT
