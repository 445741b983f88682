import Mathlib.Data.Multiset.OrderedMonoid
import BurstIoT.Burst

/-!
# `DeviceBurstGenerator`

The constructor cuts the packets of one device and one time slot into raw bursts, at gaps and at
overlong stretches (`longShortSplit`); the raw bursts closed for being overlong are pooled and
regrouped by flow hash (`separateBy5Tuple`); every short raw burst and every flow is then cut into
bursts by the three limits (`strictToBursts`), and the bursts are sorted by their first stamp and
internally by signature (`sortInOrder`).

The loops are folds over the packets with the source's variables as their state.  Two facts hold for
every setting of the limits:

* `sigs_deviceBurstGenerator`: the signatures counted by the bursts are those of the packets;
* a burst that takes a packet without being closed first had room for its signature
  (`room_of_not_cuts`), so `uniPktNum` never wraps.

With positive limits every burst is well formed and holds a packet (`generated_strictToBursts`).
-/

namespace BurstIoT
namespace DeviceBurstGenerator

/-! ## `LongShortSplit` -/

/-- The variables of `LongShortSplit`. -/
structure RawSplit where
  rawBurst : List KPacket := []
  shortBurstVec : List (List KPacket) := []
  longBurstVec : List (List KPacket) := []
  deriving DecidableEq, Repr

/-- `floorDiff`: the time since the last packet of the raw burst, zero when there is none. -/
def floorDiff (rawBurst : List KPacket) (packet : KPacket) : ℤ :=
  match rawBurst.getLast? with
  | some back => floorDuration packet.timestamp back.timestamp
  | none => 0

/-- The raw burst is not empty and lasts longer than `BURST_MAX_DURATION`. -/
def isOverlong (div : DivisionParam) (rawBurst : List KPacket) : Bool :=
  match rawBurst.getLast?, rawBurst.head? with
  | some back, some front => floorDuration back.timestamp front.timestamp > div.duration
  | _, _ => false

/-- One iteration of `LongShortSplit`. -/
def longShortStep (div : DivisionParam) (s : RawSplit) (packet : KPacket) : RawSplit :=
  if floorDiff s.rawBurst packet ≥ div.interval then
    { s with shortBurstVec := s.shortBurstVec ++ [s.rawBurst], rawBurst := [packet] }
  else if isOverlong div s.rawBurst then
    { s with longBurstVec := s.longBurstVec ++ [s.rawBurst], rawBurst := [packet] }
  else
    { s with rawBurst := s.rawBurst ++ [packet] }

/-- `LongShortSplit`.  The raw burst left over at the end goes to the short ones. -/
def longShortSplit (div : DivisionParam) (pktVec : List KPacket) : RawSplit :=
  let s := pktVec.foldl (longShortStep div) {}
  { s with shortBurstVec := s.shortBurstVec ++ [s.rawBurst], rawBurst := [] }

/-! ## `StrictToBursts` -/

/-- The variables of `StrictToBursts`.  The two differences keep their values from one iteration to
the next. -/
structure StrictState where
  burstVec : List Burst
  burst : Burst
  nearDiff : ℤ
  farDiff : ℤ
  deriving DecidableEq, Repr

/-- The variables before the loop. -/
def StrictState.init (device : KDevice) : StrictState where
  burstVec := []
  burst := .ofDevice device
  nearDiff := 0
  farDiff := 0

/-- The sentinel test on the first stamp, at the top of the loop. -/
def StrictState.stamped (s : StrictState) (packet : KPacket) : Burst :=
  if s.burst.firstPacketStamp.tvSec = 0 then s.burst.setFirstPacketStamp packet else s.burst

/-- The iteration up to the test: the first stamp, then the differences.  They are kept as they are
while `pktNum` is not positive: before the first packet, and from `2 ^ 31` packets on. -/
def StrictState.observe (s : StrictState) (packet : KPacket) : StrictState :=
  if (s.stamped packet).intPktNum > 0 then
    { s with
      burst := s.stamped packet
      nearDiff := floorDuration packet.timestamp (s.stamped packet).lastPacketStamp
      farDiff := floorDuration packet.timestamp (s.stamped packet).firstPacketStamp }
  else
    { s with burst := s.stamped packet }

/-- The test that closes the burst. -/
def StrictState.cuts (div : DivisionParam) (s : StrictState) : Bool :=
  s.burst.uniPktNum ≥ div.burstMaxUnisig || s.nearDiff ≥ div.interval || s.farDiff ≥ div.duration

/-- Closing the burst. -/
def StrictState.flush (device : KDevice) (s : StrictState) : StrictState :=
  { s with burstVec := s.burstVec ++ [s.burst], burst := .ofDevice device }

/-- One iteration of `StrictToBursts`. -/
def strictStep (div : DivisionParam) (device : KDevice) (s : StrictState) (packet : KPacket) :
    StrictState :=
  let s := s.observe packet
  let s := if s.cuts div then s.flush device else s
  { s with burst := (s.burst.addPacket packet).setLastPacketStamp packet }

/-- `StrictToBursts`. -/
def strictToBursts (div : DivisionParam) (device : KDevice) (packetVec : List KPacket) :
    List Burst :=
  let s := packetVec.foldl (strictStep div device) (.init device)
  s.burstVec ++ [s.burst]

/-! ## The rest of the constructor -/

/-- `m_flowMap`: packets by flow hash. -/
abbrev FlowMap : Type := UnorderedMap UInt64 (List KPacket)

/-- The key of a packet in `m_flowMap`: the hash, widened to `std::size_t`. -/
def flowKey (packet : KPacket) : UInt64 :=
  packet.hash5tuple.toUInt64

/-- `SeparateBy5Tuple`. -/
def separateBy5Tuple (longBurstVec : List (List KPacket)) : FlowMap :=
  longBurstVec.foldl (fun flowMap burst => flowMap.groupOnto flowKey burst) ∅

/-- `MakeNormalBurstVec`: what it appends to `m_burstVec`. -/
def makeNormalBurstVec (div : DivisionParam) (device : KDevice)
    (shortBurstVec : List (List KPacket)) : List Burst :=
  shortBurstVec.flatMap (strictToBursts div device)

/-- `MakeLongBurstVec`: what it appends to `m_burstVec`, in the order the map is traversed. -/
def makeLongBurstVec (lib : StdLib) (div : DivisionParam) (device : KDevice) (flowMap : FlowMap) :
    List Burst :=
  (lib.iterate flowMap).flatMap fun e => strictToBursts div device e.2

/-- The comparison of `SortInOrder` on two entries of `packetDetail`; the source compares them as
pairs of `int`. -/
def sigEarlier (a b : Int16 × ℕ) : Bool :=
  a.1.toInt < b.1.toInt

/-- The second loop of `SortInOrder`, on one burst. -/
def sortDetail (lib : StdLib) (b : Burst) : Burst :=
  { b with packetDetail := lib.sort sigEarlier b.packetDetail }

/-- `SortInOrder`. -/
def sortInOrder (lib : StdLib) (burstVec : List Burst) : List Burst :=
  (lib.sort Burst.earlierThan burstVec).map (sortDetail lib)

/-- `m_burstVec` before `SortInOrder`. -/
def unsortedBurstVec (lib : StdLib) (div : DivisionParam) (device : KDevice)
    (pktVec : List KPacket) : List Burst :=
  let split := longShortSplit div pktVec
  makeNormalBurstVec div device split.shortBurstVec ++
    makeLongBurstVec lib div device (separateBy5Tuple split.longBurstVec)

end DeviceBurstGenerator

open DeviceBurstGenerator in
/-- The constructor of `DeviceBurstGenerator`, and `GetBurstVec`. -/
def deviceBurstGenerator (lib : StdLib) (div : DivisionParam) (device : KDevice)
    (pktVec : List KPacket) : List Burst :=
  sortInOrder lib (unsortedBurstVec lib div device pktVec)

namespace DeviceBurstGenerator

variable {lib : StdLib} {div : DivisionParam} {device : KDevice}

/-! ## What one iteration does -/

theorem observe_burst (s : StrictState) (p : KPacket) : (s.observe p).burst = s.stamped p := by
  unfold StrictState.observe
  split_ifs <;> rfl

theorem observe_burstVec (s : StrictState) (p : KPacket) :
    (s.observe p).burstVec = s.burstVec := by
  unfold StrictState.observe
  split_ifs <;> rfl

@[simp] theorem sigs_observe (s : StrictState) (p : KPacket) :
    (s.observe p).burst.sigs = s.burst.sigs := by
  rw [observe_burst, StrictState.stamped]
  split_ifs <;> rfl

@[simp] theorem pktNum_stamped (s : StrictState) (p : KPacket) :
    (s.stamped p).pktNum = s.burst.pktNum := by
  rw [StrictState.stamped]
  split_ifs <;> rfl

@[simp] theorem intPktNum_stamped (s : StrictState) (p : KPacket) :
    (s.stamped p).intPktNum = s.burst.intPktNum :=
  congrArg toInt (pktNum_stamped s p)

@[simp] theorem pktNum_observe (s : StrictState) (p : KPacket) :
    (s.observe p).burst.pktNum = s.burst.pktNum := by
  rw [observe_burst, pktNum_stamped]

@[simp] theorem uniPktNum_observe (s : StrictState) (p : KPacket) :
    (s.observe p).burst.uniPktNum = s.burst.uniPktNum := by
  rw [observe_burst, StrictState.stamped]
  split_ifs <;> rfl

@[simp] theorem instanceLabel_observe (s : StrictState) (p : KPacket) :
    (s.observe p).burst.instanceLabel = s.burst.instanceLabel := by
  rw [observe_burst, StrictState.stamped]
  split_ifs <;> rfl

theorem wellFormed_observe {s : StrictState} (h : s.burst.WellFormed) (p : KPacket) :
    (s.observe p).burst.WellFormed := by
  rw [observe_burst, StrictState.stamped]
  split_ifs
  · exact h.setFirstPacketStamp p
  · exact h

/-- What the packet is put into: the burst of the iteration. -/
def putInto (p : KPacket) (b : Burst) : Burst :=
  (b.addPacket p).setLastPacketStamp p

variable (div device) in
/-- **The two outcomes of an iteration.** -/
theorem strictStep_cases (s : StrictState) (p : KPacket) :
    ((s.observe p).cuts div = true ∧
      (strictStep div device s p).burstVec = s.burstVec ++ [(s.observe p).burst] ∧
      (strictStep div device s p).burst = putInto p (.ofDevice device)) ∨
    ((s.observe p).cuts div = false ∧
      (strictStep div device s p).burstVec = s.burstVec ∧
      (strictStep div device s p).burst = putInto p (s.observe p).burst) := by
  rw [strictStep]
  dsimp only
  cases hc : (s.observe p).cuts div with
  | true =>
    refine Or.inl ⟨rfl, ?_, rfl⟩
    rw [if_pos rfl, StrictState.flush, observe_burstVec]
  | false =>
    refine Or.inr ⟨rfl, ?_, rfl⟩
    rw [if_neg Bool.false_ne_true, observe_burstVec]

@[simp] theorem sigs_putInto (p : KPacket) (b : Burst) :
    (putInto p b).sigs = p.signedLen ::ₘ b.sigs :=
  Burst.sigs_addSig b p.signedLen

/-! ## Conservation of signatures -/

/-- The signatures counted by a list of bursts together. -/
def blockSigs (bursts : List Burst) : Multiset Int16 :=
  (bursts.map Burst.sigs).sum

/-- The signatures of a list of packets. -/
def packetSigs (l : List KPacket) : Multiset Int16 :=
  (l.map KPacket.signedLen : List Int16)

@[simp] theorem blockSigs_nil : blockSigs [] = 0 := rfl

theorem blockSigs_cons (b : Burst) (bursts : List Burst) :
    blockSigs (b :: bursts) = b.sigs + blockSigs bursts :=
  List.sum_cons

@[simp] theorem blockSigs_append (a b : List Burst) :
    blockSigs (a ++ b) = blockSigs a + blockSigs b := by
  simp [blockSigs]

@[simp] theorem blockSigs_singleton (b : Burst) : blockSigs [b] = b.sigs := by
  simp [blockSigs]

theorem blockSigs_perm {a b : List Burst} (h : a.Perm b) : blockSigs a = blockSigs b :=
  (h.map _).sum_eq

@[simp] theorem packetSigs_nil : packetSigs [] = 0 := rfl

@[simp] theorem packetSigs_cons (p : KPacket) (l : List KPacket) :
    packetSigs (p :: l) = p.signedLen ::ₘ packetSigs l := rfl

@[simp] theorem packetSigs_append (a b : List KPacket) :
    packetSigs (a ++ b) = packetSigs a + packetSigs b := by
  simp [packetSigs, ← Multiset.coe_add]

theorem packetSigs_perm {a b : List KPacket} (h : a.Perm b) : packetSigs a = packetSigs b :=
  Multiset.coe_eq_coe.mpr (h.map _)

/-- The counts that the bursts of a block have of a signature, as the source has them. -/
def intCounts (bursts : List Burst) (sig : Int16) : List ℤ :=
  ((bursts.flatMap Burst.intDetail).filter fun e => e.1 = sig).map Prod.snd

theorem intCounts_eq (bursts : List Burst) (sig : Int16) :
    intCounts bursts sig =
      (((bursts.flatMap Burst.packetDetail).filter fun e => e.1 = sig).map Prod.snd).map toInt := by
  have hread : bursts.flatMap Burst.intDetail =
      (bursts.flatMap Burst.packetDetail).map fun e => (e.1, toInt e.2) := by
    rw [List.map_flatMap]
    rfl
  rw [intCounts, hread, List.filter_map, List.map_map, List.map_map]
  rfl

theorem count_blockSigs (bursts : List Burst) (sig : Int16) :
    (blockSigs bursts).count sig =
      (((bursts.flatMap Burst.packetDetail).filter fun e => e.1 = sig).map Prod.snd).sum := by
  have htotal : blockSigs bursts = Tally.total (bursts.flatMap Burst.packetDetail) := by
    induction bursts with
    | nil => rfl
    | cons b bursts ih =>
      rw [blockSigs_cons, ih, List.flatMap_cons, Tally.total_append]
      rfl
  rw [htotal, Tally.count_total]

/-- **The counts of a signature sum up to its packets** exactly if none of them exceeds an `int`. -/
theorem sum_intCounts_iff (bursts : List Burst) (sig : Int16) :
    (intCounts bursts sig).sum = ((blockSigs bursts).count sig : ℕ) ↔
      ∀ b ∈ bursts, ∀ e ∈ b.packetDetail, e.1 = sig → e.2 < 2 ^ 31 := by
  rw [intCounts_eq, count_blockSigs, sum_toInt_eq_iff]
  constructor
  · intro h b hb e he hsig
    refine h e.2 (List.mem_map_of_mem (List.mem_filter.mpr ⟨?_, decide_eq_true hsig⟩))
    exact List.mem_flatMap.mpr ⟨b, hb, he⟩
  · intro h n hn
    obtain ⟨e, he, rfl⟩ := List.mem_map.mp hn
    obtain ⟨he, hsig⟩ := List.mem_filter.mp he
    obtain ⟨b, hb, he⟩ := List.mem_flatMap.mp he
    exact h b hb e he (of_decide_eq_true hsig)

/-- Fewer than `2 ^ 31` packets of a signature are counted in full. -/
theorem sum_intCounts_of_lt {bursts : List Burst} {sig : Int16}
    (h : (blockSigs bursts).count sig < 2 ^ 31) :
    (intCounts bursts sig).sum = ((blockSigs bursts).count sig : ℕ) := by
  rw [count_blockSigs] at h ⊢
  rw [intCounts_eq, sum_toInt_eq_iff]
  exact fun n hn => lt_of_le_of_lt (List.le_sum_of_mem hn) h

/-- The signatures the loop has counted. -/
def StrictState.counted (s : StrictState) : Multiset Int16 :=
  blockSigs s.burstVec + s.burst.sigs

theorem counted_strictStep (s : StrictState) (p : KPacket) :
    (strictStep div device s p).counted = p.signedLen ::ₘ s.counted := by
  unfold StrictState.counted
  rcases strictStep_cases div device s p with ⟨-, hv, hb⟩ | ⟨-, hv, hb⟩
  · rw [hv, hb, sigs_putInto, blockSigs_append, blockSigs_singleton, sigs_observe,
      Burst.sigs_ofDevice, Multiset.add_cons, add_zero]
  · rw [hv, hb, sigs_putInto, sigs_observe, Multiset.add_cons]

variable (div device) in
theorem counted_foldl (l : List KPacket) (s : StrictState) :
    (l.foldl (strictStep div device) s).counted = packetSigs l + s.counted := by
  induction l generalizing s with
  | nil => simp
  | cons p l ih =>
    rw [List.foldl_cons, ih, counted_strictStep, packetSigs_cons, Multiset.add_cons,
      Multiset.cons_add]

/-- **`StrictToBursts` counts every packet once.** -/
theorem blockSigs_strictToBursts (l : List KPacket) :
    blockSigs (strictToBursts div device l) = packetSigs l := by
  have h := counted_foldl div device l (.init device)
  rw [strictToBursts, blockSigs_append, blockSigs_singleton]
  rw [StrictState.counted] at h
  rw [h]
  simp [StrictState.counted, StrictState.init]

/-- The packets the long-short loop has seen, in some order. -/
def RawSplit.seen (s : RawSplit) : List KPacket :=
  s.shortBurstVec.flatten ++ s.longBurstVec.flatten ++ s.rawBurst

theorem seen_longShortStep (s : RawSplit) (p : KPacket) :
    ((longShortStep div s p).seen).Perm (s.seen ++ [p]) := by
  rw [longShortStep]
  split_ifs
  · simp only [RawSplit.seen, List.flatten_append, List.flatten_cons, List.flatten_nil,
      List.append_nil, List.append_assoc]
    refine List.Perm.append_left _ ?_
    rw [← List.append_assoc, ← List.append_assoc]
    exact List.Perm.append_right _ List.perm_append_comm
  · simp only [RawSplit.seen, List.flatten_append, List.flatten_cons, List.flatten_nil,
      List.append_nil, List.append_assoc]
    exact List.Perm.refl _
  · simp only [RawSplit.seen, List.append_assoc]
    exact List.Perm.refl _

variable (div) in
theorem seen_foldl (l : List KPacket) (s : RawSplit) :
    ((l.foldl (longShortStep div) s).seen).Perm (s.seen ++ l) := by
  induction l generalizing s with
  | nil => simp
  | cons p l ih =>
    rw [List.foldl_cons]
    refine (ih _).trans ?_
    rw [show s.seen ++ p :: l = s.seen ++ [p] ++ l by simp]
    exact List.Perm.append_right l (seen_longShortStep s p)

/-- **`LongShortSplit` keeps every packet.** -/
theorem longShortSplit_perm (l : List KPacket) :
    ((longShortSplit div l).shortBurstVec.flatten ++
      (longShortSplit div l).longBurstVec.flatten).Perm l := by
  have h := seen_foldl div l {}
  refine List.Perm.trans ?_ h
  rw [longShortSplit]
  simp only [RawSplit.seen, List.flatten_append, List.flatten_cons, List.flatten_nil,
    List.append_nil, List.append_assoc]
  exact List.Perm.append_left _ List.perm_append_comm

/-- The flows hold the packets of the long raw bursts. -/
theorem separateBy5Tuple_eq (longBurstVec : List (List KPacket)) :
    separateBy5Tuple longBurstVec = UnorderedMap.groupOn flowKey longBurstVec.flatten := by
  have h : ∀ (L : List (List KPacket)) (m : FlowMap),
      L.foldl (fun flowMap burst => flowMap.groupOnto flowKey burst) m =
        m.groupOnto flowKey L.flatten := by
    intro L
    induction L with
    | nil => intro m; rfl
    | cons burst L ih =>
      intro m
      rw [List.foldl_cons, ih, List.flatten_cons, UnorderedMap.groupOnto,
        UnorderedMap.groupOnto, UnorderedMap.groupOnto, List.foldl_append]
  exact h longBurstVec ∅

theorem blockSigs_flatMap (L : List (List KPacket)) :
    blockSigs (L.flatMap (strictToBursts div device)) = packetSigs L.flatten := by
  induction L with
  | nil => rfl
  | cons l L ih =>
    rw [List.flatMap_cons, blockSigs_append, ih, blockSigs_strictToBursts, List.flatten_cons,
      packetSigs_append]

theorem makeLongBurstVec_eq (flowMap : FlowMap) :
    makeLongBurstVec lib div device flowMap =
      ((lib.iterate flowMap).map Prod.snd).flatMap (strictToBursts div device) := by
  rw [makeLongBurstVec, List.flatMap_map]

theorem blockSigs_unsortedBurstVec (l : List KPacket) :
    blockSigs (unsortedBurstVec lib div device l) = packetSigs l := by
  have hlong : packetSigs ((lib.iterate (separateBy5Tuple
      (longShortSplit div l).longBurstVec)).map Prod.snd).flatten =
      packetSigs (longShortSplit div l).longBurstVec.flatten := by
    refine packetSigs_perm ?_
    rw [← List.flatMap_def, separateBy5Tuple_eq]
    exact (lib.flatMap_iterate_perm _).trans (UnorderedMap.items_groupOn _ _)
  rw [unsortedBurstVec, blockSigs_append, makeNormalBurstVec, blockSigs_flatMap,
    makeLongBurstVec_eq, blockSigs_flatMap, hlong, ← packetSigs_append]
  exact packetSigs_perm (longShortSplit_perm l)

theorem strictWeak_sigEarlier : StrictWeak sigEarlier :=
  StrictWeak.of_key (fun e : Int16 × ℕ => e.1.toInt) fun a b => by simp [sigEarlier]

@[simp] theorem sigs_sortDetail (b : Burst) : (sortDetail lib b).sigs = b.sigs :=
  Tally.total_perm (lib.sort_perm strictWeak_sigEarlier b.packetDetail)

theorem blockSigs_sortInOrder (bursts : List Burst) :
    blockSigs (sortInOrder lib bursts) = blockSigs bursts := by
  have hmap : (sortInOrder lib bursts).map Burst.sigs =
      (lib.sort Burst.earlierThan bursts).map Burst.sigs := by
    rw [sortInOrder, List.map_map]
    exact List.map_congr_left fun b _ => sigs_sortDetail b
  rw [blockSigs, hmap]
  exact blockSigs_perm (lib.sort_perm Burst.strictWeak_earlierThan bursts)

/-- **The generator loses, repeats and invents nothing**: the signatures of its bursts are those of
the packets, for every setting of the limits. -/
theorem sigs_deviceBurstGenerator (l : List KPacket) :
    blockSigs (deviceBurstGenerator lib div device l) = packetSigs l := by
  rw [deviceBurstGenerator, blockSigs_sortInOrder, blockSigs_unsortedBurstVec]

/-! ## What a burst has counted -/

/-- **`pktNum` counts the entries**, for every setting of the limits. -/
theorem pktNum_strictToBursts (l : List KPacket) :
    ∀ b ∈ strictToBursts div device l, b.pktNum = Tally.size b.packetDetail := by
  have hput : ∀ (p : KPacket) (b : Burst), b.pktNum = Tally.size b.packetDetail →
      (putInto p b).pktNum = Tally.size (putInto p b).packetDetail := by
    intro p b hb
    show (b.addSig p.signedLen).pktNum = Tally.size (b.addSig p.signedLen).packetDetail
    rw [Burst.pktNum_addSig, Burst.size_addSig, hb]
  have hobserve : ∀ (p : KPacket) (s : StrictState),
      s.burst.pktNum = Tally.size s.burst.packetDetail →
        (s.observe p).burst.pktNum = Tally.size (s.observe p).burst.packetDetail := by
    intro p s hs
    rw [pktNum_observe, hs, observe_burst, StrictState.stamped]
    split_ifs <;> rfl
  have hloop : ∀ (l : List KPacket) (s : StrictState),
      (∀ b ∈ s.burstVec ++ [s.burst], b.pktNum = Tally.size b.packetDetail) →
        ∀ b ∈ (l.foldl (strictStep div device) s).burstVec ++
            [(l.foldl (strictStep div device) s).burst],
          b.pktNum = Tally.size b.packetDetail := by
    intro l
    induction l with
    | nil => exact fun _ h => h
    | cons p l ih =>
      intro s hs
      have hopen := hobserve p s (hs _ (List.mem_append_right _ (List.mem_singleton_self _)))
      refine ih _ fun b hb => ?_
      rcases strictStep_cases div device s p with ⟨-, hv, hburst⟩ | ⟨-, hv, hburst⟩
      · rw [hv, hburst, List.append_assoc, List.mem_append] at hb
        rcases hb with hb | hb
        · exact hs b (List.mem_append_left _ hb)
        · rcases List.mem_pair.mp hb with rfl | rfl
          · exact hopen
          · exact hput p _ rfl
      · rw [hv, hburst, List.mem_append, List.mem_singleton] at hb
        rcases hb with hb | rfl
        · exact hs b (List.mem_append_left _ hb)
        · exact hput p _ hopen
  exact hloop l (.init device) fun b hb => by
    obtain rfl : b = .ofDevice device := by simpa [StrictState.init] using hb
    rfl

theorem pktNum_eq_size {l : List KPacket} {b : Burst}
    (hb : b ∈ deviceBurstGenerator lib div device l) : b.pktNum = Tally.size b.packetDetail := by
  rw [deviceBurstGenerator, sortInOrder, List.mem_map] at hb
  obtain ⟨b', hb', rfl⟩ := hb
  rw [lib.mem_sort Burst.strictWeak_earlierThan, unsortedBurstVec, List.mem_append,
    makeNormalBurstVec, makeLongBurstVec, List.mem_flatMap, List.mem_flatMap] at hb'
  have hperm : (sortDetail lib b').packetDetail.Perm b'.packetDetail :=
    lib.sort_perm strictWeak_sigEarlier _
  have hsize : b'.pktNum = Tally.size b'.packetDetail := by
    rcases hb' with ⟨raw, -, hmem⟩ | ⟨e, -, hmem⟩
    · exact pktNum_strictToBursts raw b' hmem
    · exact pktNum_strictToBursts e.2 b' hmem
  exact hsize.trans ((hperm.map Prod.snd).sum_eq).symm

/-- **A burst counts no more packets than there are.** -/
theorem pktNum_le_length {l : List KPacket} {b : Burst}
    (hb : b ∈ deviceBurstGenerator lib div device l) : b.pktNum ≤ l.length := by
  have hcard : (blockSigs (deviceBurstGenerator lib div device l)).card = l.length := by
    rw [sigs_deviceBurstGenerator, packetSigs, Multiset.coe_card, List.length_map]
  have hle : b.sigs ≤ blockSigs (deviceBurstGenerator lib div device l) :=
    List.le_sum_of_mem (List.mem_map_of_mem hb)
  rw [pktNum_eq_size hb, ← Tally.card_total, ← hcard]
  exact Multiset.card_le_card hle

/-! ## Every burst is well formed -/

/-- What `TrainOneDevice` needs of a burst. -/
structure Generated (div : DivisionParam) (device : KDevice) (b : Burst) : Prop where
  wellFormed : b.WellFormed
  label : b.instanceLabel = device.instanceName
  pktNum_pos : 0 < b.pktNum
  uniPktNum_le : b.uniPktNum ≤ div.burstMaxUnisig

/-- A burst that the test lets pass has room for one more signature. -/
theorem room_of_not_cuts {s : StrictState} (h : s.cuts div = false) :
    s.burst.uniPktNum.toNat < div.burstMaxUnisig.toNat := by
  simp only [StrictState.cuts, Bool.or_eq_false_iff, decide_eq_false_iff_not] at h
  have hlt : s.burst.uniPktNum < div.burstMaxUnisig := UInt8.not_le.mp h.1.1
  exact UInt8.lt_iff_toNat_lt.mp hlt

theorem uniPktNum_putInto_le (p : KPacket) (b : Burst) :
    (putInto p b).uniPktNum.toNat ≤ b.uniPktNum.toNat + 1 := by
  have hadd : (putInto p b).uniPktNum = (b.addSig p.signedLen).uniPktNum := rfl
  rw [hadd]
  rcases Burst.addSig_cases b p.signedLen with ⟨i, hi, -, heq⟩ | ⟨-, heq⟩
  · rw [heq]
    exact Nat.le_succ _
  · rw [heq]
    show (b.uniPktNum + 1).toNat ≤ _
    rw [UInt8.toNat_add]
    exact Nat.mod_le _ _

/-- Putting a packet into a burst with room gives a generated burst. -/
theorem generated_putInto {b : Burst} {p : KPacket} (hb : b.WellFormed)
    (hlabel : b.instanceLabel = device.instanceName)
    (hroom : b.uniPktNum.toNat < div.burstMaxUnisig.toNat) :
    Generated div device (putInto p b) := by
  have hmax : div.burstMaxUnisig.toNat < 256 := div.burstMaxUnisig.toNat_lt
  have h255 : b.uniPktNum.toNat < 255 := by omega
  refine ⟨(hb.addSig h255 _).setLastPacketStamp p, ?_, ?_, ?_⟩
  · show (b.addSig p.signedLen).instanceLabel = _
    rw [Burst.instanceLabel_addSig, hlabel]
  · show 0 < (b.addSig p.signedLen).pktNum
    rw [Burst.pktNum_addSig]
    exact Nat.succ_pos _
  · rw [UInt8.le_iff_toNat_le]
    have := uniPktNum_putInto_le p b
    omega

/-- The invariant of `StrictToBursts` under positive limits: the closed bursts are generated, and so
is the open one once it holds a packet.  Before that no difference has been measured. -/
structure StrictState.Good (div : DivisionParam) (device : KDevice) (s : StrictState) : Prop where
  closed : ∀ b ∈ s.burstVec, Generated div device b
  opened : Generated div device s.burst ∨
    s.burst = .ofDevice device ∧ s.nearDiff = 0 ∧ s.farDiff = 0

theorem generated_observe {s : StrictState} (h : Generated div device s.burst) (p : KPacket) :
    Generated div device (s.observe p).burst := by
  refine ⟨wellFormed_observe h.wellFormed p, ?_, ?_, ?_⟩
  · rw [instanceLabel_observe, h.label]
  · rw [pktNum_observe]
    exact h.pktNum_pos
  · rw [uniPktNum_observe]
    exact h.uniPktNum_le

/-- The first packet of all is never cut off from the empty burst. -/
theorem not_cuts_of_fresh (hdiv : div.Positive) {s : StrictState} (p : KPacket)
    (hb : s.burst = .ofDevice device) (hnear : s.nearDiff = 0) (hfar : s.farDiff = 0) :
    (s.observe p).cuts div = false := by
  have hint := hdiv.one_le_interval
  have hdur := hdiv.one_le_duration
  have huni : (s.observe p).burst.uniPktNum.toNat = 0 := by
    rw [uniPktNum_observe, hb]
    rfl
  have hpkt : ¬ (s.stamped p).intPktNum > 0 := by
    rw [intPktNum_stamped, hb]
    exact toInt_zero.not_gt
  have hdiffs : (s.observe p).nearDiff = 0 ∧ (s.observe p).farDiff = 0 := by
    unfold StrictState.observe
    rw [if_neg hpkt]
    exact ⟨hnear, hfar⟩
  have hlt : ¬ (s.observe p).burst.uniPktNum ≥ div.burstMaxUnisig := by
    rw [ge_iff_le, UInt8.le_iff_toNat_le, huni]
    have := hdiv.unisig
    omega
  simp only [StrictState.cuts, Bool.or_eq_false_iff, decide_eq_false_iff_not]
  rw [hdiffs.1, hdiffs.2]
  exact ⟨⟨hlt, by omega⟩, by omega⟩

theorem good_strictStep (hdiv : div.Positive) {s : StrictState} (h : s.Good div device)
    (p : KPacket) : (strictStep div device s p).Good div device ∧
      Generated div device (strictStep div device s p).burst := by
  rcases strictStep_cases div device s p with ⟨hc, hv, hb⟩ | ⟨hc, hv, hb⟩
  · have hopen : Generated div device (s.observe p).burst := by
      rcases h.opened with hopen | ⟨hfresh, hnear, hfar⟩
      · exact generated_observe hopen p
      · rw [not_cuts_of_fresh hdiv p hfresh hnear hfar] at hc
        cases hc
    have hnew : Generated div device (strictStep div device s p).burst := by
      rw [hb]
      exact generated_putInto (.ofDevice device) rfl hdiv.unisig
    refine ⟨⟨?_, Or.inl hnew⟩, hnew⟩
    intro b hmem
    rw [hv, List.mem_append, List.mem_singleton] at hmem
    rcases hmem with hmem | rfl
    · exact h.closed b hmem
    · exact hopen
  · have hwf : (s.observe p).burst.WellFormed ∧
        (s.observe p).burst.instanceLabel = device.instanceName := by
      rcases h.opened with hopen | ⟨hfresh, -, -⟩
      · exact ⟨wellFormed_observe hopen.wellFormed p, by rw [instanceLabel_observe, hopen.label]⟩
      · rw [instanceLabel_observe, hfresh]
        exact ⟨wellFormed_observe (hfresh ▸ .ofDevice device) p, rfl⟩
    have hnew : Generated div device (strictStep div device s p).burst := by
      rw [hb]
      exact generated_putInto hwf.1 hwf.2 (room_of_not_cuts hc)
    refine ⟨⟨?_, Or.inl hnew⟩, hnew⟩
    rw [hv]
    exact h.closed

theorem good_foldl (hdiv : div.Positive) (l : List KPacket) (s : StrictState)
    (h : s.Good div device) : (l.foldl (strictStep div device) s).Good div device ∧
      (l ≠ [] → Generated div device (l.foldl (strictStep div device) s).burst) := by
  induction l generalizing s with
  | nil => exact ⟨h, fun hne => absurd rfl hne⟩
  | cons p l ih =>
    have hstep := good_strictStep hdiv h p
    obtain ⟨hgood, hgen⟩ := ih _ hstep.1
    refine ⟨hgood, fun _ => ?_⟩
    cases l with
    | nil => exact hstep.2
    | cons q l => exact hgen (List.cons_ne_nil q l)

/-- With positive limits every burst of `StrictToBursts` on a packet list with a packet in it holds
a packet, is well formed and obeys the limit on signatures. -/
theorem generated_strictToBursts (hdiv : div.Positive) {l : List KPacket} (hne : l ≠ []) :
    ∀ b ∈ strictToBursts div device l, Generated div device b := by
  have hinit : (StrictState.init device).Good div device :=
    ⟨fun b hb => absurd hb List.not_mem_nil, Or.inr ⟨rfl, rfl, rfl⟩⟩
  have h := good_foldl hdiv l _ hinit
  intro b hb
  rw [strictToBursts, List.mem_append, List.mem_singleton] at hb
  rcases hb with hb | rfl
  · exact h.1.closed b hb
  · exact h.2 hne

end DeviceBurstGenerator

end BurstIoT
