import BurstIoT.BlockFront
import BurstIoT.BurstDataset

/-!
# When the split is chronological

`TrainTestSplit` is meant to train on the earlier slots of a device and to test on the later ones.
It orders the blocks by the first stamp of their front burst.  By `front_cases` that stamp is one of
the slot, or `{0, 0}` for a slot with a lone tail (`ZeroFronted`).  So the sort moves the slots with
a lone tail to the front and keeps the others in order (`stableSort_blocks`), and the split is
chronological exactly when this carries no slot across the cut (`chronological_iff`).
-/

namespace BurstIoT
namespace Chronology

open Converter BurstDataset Division

variable {lib : StdLib} {div : DivisionParam} {deviceVec : List KDevice} {l : List KPacket}

/-- The block a packet is in: that of its device and slot. -/
def blockOf (lib : StdLib) (div : DivisionParam) (deviceVec : List KDevice) (l : List KPacket)
    (p : KPacket) : BurstBlock :=
  block lib div deviceVec p.deviceId (slotPackets div l p.deviceId (p.slotId div))

/-- Each device has every packet of its training blocks in an earlier slot than every packet of its
test blocks. -/
def Chronological (lib : StdLib) (div : DivisionParam) (deviceVec : List KDevice)
    (l : List KPacket) (ds : BurstDataset) : Prop :=
  ∀ d, ∀ p ∈ l, ∀ q ∈ l, p.deviceId = d → q.deviceId = d →
    blockOf lib div deviceVec l p ∈ ds.train d → blockOf lib div deviceVec l q ∈ ds.test d →
      p.slotId div < q.slotId div

/-- The block of a slot is sorted as if its first packet came at the time zero. -/
def ZeroFronted (div : DivisionParam) (l : List KPacket) (d : UInt16) (s : ℤ) : Prop :=
  HasLoneTail div (slotPackets div l d s)

/-! ## The block of a slot -/

theorem slotPackets_subset (d : UInt16) (s : ℤ) : slotPackets div l d s ⊆ l :=
  List.filter_sublist.subset

theorem slotId_of_mem_slotPackets {d : UInt16} {s : ℤ} {p : KPacket}
    (hp : p ∈ slotPackets div l d s) : p.slotId div = s :=
  (of_decide_eq_true (List.mem_filter.mp hp).2).2

/-- The slot a time stamp lies in. -/
def slotOf (div : DivisionParam) (t : Timespec) : ℤ :=
  t.tvSec.tdiv div.timeslot.toNat

variable (div) in
/-- Later stamps lie in no earlier slots. -/
theorem slotOf_mono {t t' : Timespec} (h : t ≤ t') (ht : 0 ≤ t.tvSec) :
    slotOf div t ≤ slotOf div t' := by
  have hle := Timespec.tvSec_le_of_le h
  rw [slotOf, slotOf, Int.tdiv_eq_ediv_of_nonneg ht, Int.tdiv_eq_ediv_of_nonneg (ht.trans hle)]
  rcases Nat.eq_zero_or_pos div.timeslot.toNat with hzero | hpos
  · rw [hzero, Nat.cast_zero, Int.ediv_zero, Int.ediv_zero]
  · exact Int.ediv_le_ediv (Int.natCast_pos.mpr hpos) hle

/-- A stamp after the epoch is later than that of a burst without a packet. -/
theorem zero_lt_of_one_le {t : Timespec} (h : 1 ≤ t.tvSec) : Timespec.zero < t := by
  rw [Timespec.lt_def]
  exact Or.inl (show (0 : ℤ) < t.tvSec by omega)

section Blocks

variable (lib) (hdiv : div.Positive) (hsec : ∀ p ∈ l, 1 ≤ p.timestamp.tvSec)
  (hreg : ∀ p ∈ l, p.deviceId.toNat < deviceVec.length) {d : UInt16} {s s' : ℤ}

include hreg in
theorem block_eq (hs : s ∈ deviceSlots div l d) :
    ∃ device, block lib div deviceVec d (slotPackets div l d s) =
      deviceBurstGenerator lib div device (slotPackets div l d s) := by
  obtain ⟨p, hp, rfl, -⟩ := mem_deviceSlots.mp hs
  have hlt := hreg p hp
  refine ⟨deviceVec[p.deviceId.toNat], ?_⟩
  rw [block, List.getElem?_eq_getElem hlt]
  rfl

include hreg in
theorem block_ne_nil (hs : s ∈ deviceSlots div l d) :
    block lib div deviceVec d (slotPackets div l d s) ≠ [] := by
  obtain ⟨device, heq⟩ := block_eq lib hreg hs
  rw [heq]
  exact deviceBurstGenerator_ne_nil _

include hdiv hsec hreg

/-- The front of the block of a slot: stamped in the slot, or not at all. -/
theorem front_block (hs : s ∈ deviceSlots div l d) :
    ∃ front, (block lib div deviceVec d (slotPackets div l d s)).head? = some front ∧
      (ZeroFronted div l d s ∧ front.firstPacketStamp = .zero ∨
        ¬ ZeroFronted div l d s ∧ 1 ≤ front.firstPacketStamp.tvSec ∧
          slotOf div front.firstPacketStamp = s) := by
  obtain ⟨device, heq⟩ := block_eq lib hreg hs
  have hne := slotPackets_ne_nil_iff.mpr hs
  obtain ⟨front, hfront, hstamp⟩ := front_cases lib device hdiv hne
    fun p hp => hsec p (slotPackets_subset d s hp)
  refine ⟨front, by rw [heq, hfront], ?_⟩
  rcases hstamp with hzero | ⟨hnot, p, hp, hstamp⟩
  · exact Or.inl hzero
  · refine Or.inr ⟨hnot, ?_, ?_⟩
    · rw [← hstamp]
      exact hsec p (slotPackets_subset d s hp)
    · rw [← hstamp]
      exact slotId_of_mem_slotPackets hp

/-- Different slots have different blocks: the last stamps lie in the slot. -/
theorem block_injective (hs : s ∈ deviceSlots div l d) (hs' : s' ∈ deviceSlots div l d)
    (h : block lib div deviceVec d (slotPackets div l d s) =
      block lib div deviceVec d (slotPackets div l d s')) : s = s' := by
  have hlast : ∀ t ∈ deviceSlots div l d,
      ∀ b ∈ block lib div deviceVec d (slotPackets div l d t),
        slotOf div b.lastPacketStamp = t := by
    intro t ht b hb
    obtain ⟨device, heq⟩ := block_eq lib hreg ht
    rw [heq] at hb
    obtain ⟨p, hp, hstamp⟩ := lastStamp_of_mem hdiv (slotPackets_ne_nil_iff.mpr ht)
      (fun p hp => hsec p (slotPackets_subset d t hp)) hb
    rw [← hstamp]
    exact slotId_of_mem_slotPackets hp
  obtain ⟨b, hb⟩ := List.exists_mem_of_ne_nil _ (block_ne_nil lib hreg hs)
  rw [← hlast s hs b hb, hlast s' hs' b (h ▸ hb)]

open Classical in
/-- **How `TrainTestSplit` orders the slots of a device**: those with a lone tail first, and
otherwise as they come. -/
theorem stableSort_blocks (d : UInt16) :
    stableSort frontEarlier ((deviceSlots div l d).map fun s =>
        block lib div deviceVec d (slotPackets div l d s)) =
      ((deviceSlots div l d).filter (fun s => ZeroFronted div l d s) ++
        (deviceSlots div l d).filter fun s => !ZeroFronted div l d s).map fun s =>
          block lib div deviceVec d (slotPackets div l d s) := by
  have hfront := fun s hs => front_block lib hdiv hsec hreg (d := d) (s := s) hs
  have hearlier : ∀ s ∈ deviceSlots div l d, ∀ s' ∈ deviceSlots div l d,
      ∃ t t', frontEarlier (block lib div deviceVec d (slotPackets div l d s))
          (block lib div deviceVec d (slotPackets div l d s')) = t.earlier t' ∧
        (ZeroFronted div l d s ∧ t = .zero ∨
          ¬ ZeroFronted div l d s ∧ 1 ≤ t.tvSec ∧ slotOf div t = s) ∧
        (ZeroFronted div l d s' ∧ t' = .zero ∨
          ¬ ZeroFronted div l d s' ∧ 1 ≤ t'.tvSec ∧ slotOf div t' = s') := by
    intro s hs s' hs'
    obtain ⟨front, hhead, hcase⟩ := hfront s hs
    obtain ⟨front', hhead', hcase'⟩ := hfront s' hs'
    refine ⟨_, _, ?_, hcase, hcase'⟩
    rw [frontEarlier, hhead, hhead']
    rfl
  rw [← map_stableSort]
  congr 1
  refine stableSort_eq_filter_append (fun s => decide (ZeroFronted div l d s)) _ ?_ ?_ ?_
  · intro s hs s' hs' hzero
    obtain ⟨t', t, heq, hcase', hcase⟩ := hearlier s' hs' s hs
    rw [heq, Timespec.earlier_eq_false_iff]
    rcases hcase with ⟨-, rfl⟩ | ⟨hnot, -⟩
    · rcases hcase' with ⟨-, rfl⟩ | ⟨-, hsec', -⟩
      · exact le_rfl
      · exact (zero_lt_of_one_le hsec').le
    · exact absurd (of_decide_eq_true hzero) hnot
  · intro s hs s' hs' hnot hzero
    obtain ⟨t', t, heq, hcase', hcase⟩ := hearlier s' hs' s hs
    rw [heq, Timespec.earlier_iff]
    rcases hcase' with ⟨-, rfl⟩ | ⟨hnot', -⟩
    · rcases hcase with ⟨hzero', -⟩ | ⟨-, hsec', -⟩
      · exact absurd hzero' (of_decide_eq_false hnot)
      · exact zero_lt_of_one_le hsec'
    · exact absurd (of_decide_eq_true hzero) hnot'
  · refine (pairwise_deviceSlots div l d).imp_of_mem ?_
    intro s s' hs hs' hlt hnot hnot'
    obtain ⟨t', t, heq, hcase', hcase⟩ := hearlier s' hs' s hs
    rw [heq, Timespec.earlier_eq_false_iff]
    rcases hcase with ⟨hzero, -⟩ | ⟨-, hsec₁, hslot⟩
    · exact absurd hzero (of_decide_eq_false hnot)
    · rcases hcase' with ⟨hzero, -⟩ | ⟨-, hsec₂, hslot'⟩
      · exact absurd hzero (of_decide_eq_false hnot')
      · by_contra hgt
        have := slotOf_mono div (not_le.mp hgt).le (by omega)
        omega

end Blocks

/-! ## The two halves of a device -/

/-- **The dataset that `FromPktDataset` returns**: the halves of the blocks of the slots, for each
device with a packet. -/
theorem fromPktDataset_lookup (lib : StdLib) {trainPercent : UInt8} (hslot : div.timeslot ≠ 0)
    (hpercent : trainPercent ≤ 100) (hne : l ≠ [])
    (hsec : ∀ p ∈ l, 0 ≤ p.timestamp.tvSec ∧ p.timestamp.tvSec < 2 ^ 63)
    (hreg : ∀ p ∈ l, p.deviceId.toNat < deviceVec.length) :
    ∃ ds, fromPktDataset lib div trainPercent deviceVec l = .ok ds ∧
      ∀ d, ds.trainset.lookup d = (if deviceSlots div l d = [] then none
          else some (trainHalf trainPercent ((deviceSlots div l d).map fun s =>
            block lib div deviceVec d (slotPackets div l d s)))) ∧
        ds.testset.lookup d = if deviceSlots div l d = [] then none
          else some (testHalf trainPercent ((deviceSlots div l d).map fun s =>
            block lib div deviceVec d (slotPackets div l d s))) := by
  obtain ⟨c, hok, hcontent⟩ := pktDatasetCvtoBursts_eq lib hslot hne hsec hreg
  have hlookup := (blocksOnly_of_ok hok).lookup_eq
  simp only [hcontent, List.map_eq_nil_iff] at hlookup
  have hblocks : ∀ d g, c.burstDatasetContent.lookup d = some g → ∀ b ∈ g, b ≠ [] := by
    intro d g hlook b hb
    rw [hlookup d] at hlook
    split_ifs at hlook
    obtain rfl := Option.some_inj.mp hlook
    obtain ⟨s, hs, rfl⟩ := List.mem_map.mp hb
    exact block_ne_nil lib hreg hs
  obtain ⟨ds, hds, hhalves⟩ := trainTestSplit_spec lib hpercent hblocks
  refine ⟨ds, ?_, fun d => ?_⟩
  · rw [fromPktDataset, hok]
    exact hds
  · rw [(hhalves d).1, (hhalves d).2, hlookup d]
    split_ifs
    · exact ⟨rfl, rfl⟩
    · exact ⟨rfl, rfl⟩

theorem fromPktDataset_spec (lib : StdLib) {trainPercent : UInt8} (hslot : div.timeslot ≠ 0)
    (hpercent : trainPercent ≤ 100) (hne : l ≠ [])
    (hsec : ∀ p ∈ l, 0 ≤ p.timestamp.tvSec ∧ p.timestamp.tvSec < 2 ^ 63)
    (hreg : ∀ p ∈ l, p.deviceId.toNat < deviceVec.length) :
    ∃ ds, fromPktDataset lib div trainPercent deviceVec l = .ok ds ∧
      ∀ d, ds.train d = trainHalf trainPercent ((deviceSlots div l d).map fun s =>
          block lib div deviceVec d (slotPackets div l d s)) ∧
        ds.test d = testHalf trainPercent ((deviceSlots div l d).map fun s =>
          block lib div deviceVec d (slotPackets div l d s)) := by
  obtain ⟨ds, hds, hhalves⟩ := fromPktDataset_lookup lib hslot hpercent hne hsec hreg
  refine ⟨ds, hds, fun d => ?_⟩
  rw [train, test, (hhalves d).1, (hhalves d).2]
  split_ifs with hslots
  · rw [hslots]
    exact ⟨List.take_nil.symm, List.drop_nil.symm⟩
  · exact ⟨rfl, rfl⟩

/-- The slots with a lone tail stay on their side of the cut: none lies after it, or every slot
before it has one. -/
def CleanCut (div : DivisionParam) (trainPercent : UInt8) (l : List KPacket) (d : UInt16) : Prop :=
  (∃ s ∈ (deviceSlots div l d).drop (trainNum trainPercent (deviceSlots div l d).length),
      ZeroFronted div l d s) →
    ∀ s ∈ (deviceSlots div l d).take (trainNum trainPercent (deviceSlots div l d).length),
      ZeroFronted div l d s

open Classical in
/-- **One device is split by time exactly when its cut is clean.** -/
theorem split_lt_iff_cleanCut (lib : StdLib) (trainPercent : UInt8) (hdiv : div.Positive)
    (hsec : ∀ p ∈ l, 1 ≤ p.timestamp.tvSec) (hreg : ∀ p ∈ l, p.deviceId.toNat < deviceVec.length)
    (d : UInt16) :
    (∀ s ∈ deviceSlots div l d, ∀ s' ∈ deviceSlots div l d,
      block lib div deviceVec d (slotPackets div l d s) ∈
          trainHalf trainPercent ((deviceSlots div l d).map fun s =>
            block lib div deviceVec d (slotPackets div l d s)) →
        block lib div deviceVec d (slotPackets div l d s') ∈
          testHalf trainPercent ((deviceSlots div l d).map fun s =>
            block lib div deviceVec d (slotPackets div l d s)) → s < s') ↔
      CleanCut div trainPercent l d := by
  have hperm : ((deviceSlots div l d).filter (fun s => decide (ZeroFronted div l d s)) ++
      (deviceSlots div l d).filter fun s => !decide (ZeroFronted div l d s)).Perm
        (deviceSlots div l d) := List.filter_append_perm _ _
  have hmem : ∀ (T : List ℤ) (s : ℤ), (∀ t ∈ T, t ∈ deviceSlots div l d) →
      s ∈ deviceSlots div l d →
      (block lib div deviceVec d (slotPackets div l d s) ∈
        T.map (fun s => block lib div deviceVec d (slotPackets div l d s)) ↔ s ∈ T) := by
    intro T s hT hs
    rw [List.mem_map]
    constructor
    · rintro ⟨t, ht, heq⟩
      rwa [← block_injective lib hdiv hsec hreg (hT t ht) hs heq]
    · exact fun h => ⟨s, h, rfl⟩
  have hcut := take_lt_drop_partition_iff (pairwise_deviceSlots div l d)
    (fun s => decide (ZeroFronted div l d s)) (trainNum trainPercent (deviceSlots div l d).length)
  simp only [decide_eq_true_eq] at hcut
  rw [CleanCut, ← hcut, trainHalf, testHalf, stableSort_blocks lib hdiv hsec hreg d,
    List.length_map, ← List.map_take, ← List.map_drop]
  constructor
  · intro h s hs s' hs'
    have hs₁ := hperm.mem_iff.mp (List.mem_of_mem_take hs)
    have hs₂ := hperm.mem_iff.mp (List.mem_of_mem_drop hs')
    exact h s hs₁ s' hs₂ (List.mem_map_of_mem hs) (List.mem_map_of_mem hs')
  · intro h s hs s' hs' htrain htest
    rw [hmem _ s (fun t ht => hperm.mem_iff.mp (List.mem_of_mem_take ht)) hs] at htrain
    rw [hmem _ s' (fun t ht => hperm.mem_iff.mp (List.mem_of_mem_drop ht)) hs'] at htest
    exact h s htrain s' htest

theorem fromPktDataset_nil (lib : StdLib) (trainPercent : UInt8) :
    fromPktDataset lib div trainPercent deviceVec [] = .error .undefined := by
  rw [fromPktDataset, pktDatasetCvtoBursts]
  split_ifs <;> rfl

end Chronology

open Chronology BurstDataset Converter in
/-- **The split is chronological if and only if the cut of every device is clean.**  For an empty
packet list the conversion is undefined. -/
theorem chronological_iff (lib : StdLib) (div : DivisionParam) (trainPercent : UInt8)
    (deviceVec : List KDevice) (l : List KPacket) (hdiv : div.Positive) (hslot : 1 ≤ div.timeslot)
    (hpercent : trainPercent ≤ 100)
    (hsec : ∀ p ∈ l, 1 ≤ p.timestamp.tvSec ∧ p.timestamp.tvSec < 2 ^ 63)
    (hreg : ∀ p ∈ l, p.deviceId.toNat < deviceVec.length) :
    (∃ ds, fromPktDataset lib div trainPercent deviceVec l = .ok ds ∧
        Chronological lib div deviceVec l ds) ↔
      l ≠ [] ∧ ∀ d, CleanCut div trainPercent l d := by
  have hzero : div.timeslot ≠ 0 := by
    intro h
    rw [h] at hslot
    exact absurd hslot (by decide)
  by_cases hne : l = []
  · subst hne
    rw [fromPktDataset_nil]
    constructor
    · rintro ⟨ds, hds, -⟩
      cases hds
    · exact fun h => absurd rfl h.1
  · obtain ⟨ds, hds, hhalves⟩ := fromPktDataset_spec lib hzero hpercent hne
      (fun p hp => ⟨by have := (hsec p hp).1; omega, (hsec p hp).2⟩) hreg
    have hdevice := fun d => split_lt_iff_cleanCut lib trainPercent hdiv
      (fun p hp => (hsec p hp).1) hreg d
    rw [hds]
    constructor
    · rintro ⟨ds', hds', hchron⟩
      obtain rfl := Except.ok.inj hds'
      refine ⟨hne, fun d => (hdevice d).mp ?_⟩
      intro s hs s' hs' htrain htest
      obtain ⟨p, hp, rfl, rfl⟩ := mem_deviceSlots.mp hs
      obtain ⟨q, hq, hqd, rfl⟩ := mem_deviceSlots.mp hs'
      refine hchron p.deviceId p hp q hq rfl hqd ?_ ?_
      · rw [(hhalves _).1]
        exact htrain
      · rw [(hhalves _).2, blockOf, hqd]
        exact htest
    · rintro ⟨-, hclean⟩
      refine ⟨ds, rfl, ?_⟩
      rintro d p hp q hq rfl hqd htrain htest
      refine (hdevice p.deviceId).mpr (hclean p.deviceId) _
        (mem_deviceSlots.mpr ⟨p, hp, rfl, rfl⟩) _
        (mem_deviceSlots.mpr ⟨q, hq, hqd, rfl⟩) ?_ ?_
      · rw [← (hhalves _).1]
        exact htrain
      · rw [← (hhalves _).2]
        rw [blockOf, hqd] at htest
        exact htest

open Chronology BurstDataset Converter Division in
/-- Sixteen heartbeats in the first slot, the last of them cut off, and three in the second. -/
theorem chronological_iff_heartbeats :
    let l := heartbeats 1 16 ++ heartbeats 1801 3
    ZeroFronted {} l 0 0 ∧ (∀ d, CleanCut {} 50 l d) ∧
      ∃ ds, fromPktDataset .insertion {} 50 [camera] l = .ok ds ∧
        Chronological .insertion {} [camera] l ds := by
  intro l
  have hdevice : ∀ p ∈ l, p.deviceId = 0 := by
    decide
  have hslots : deviceSlots {} l 0 = [0, 1] := by
    refine deviceSlots_eq (by decide) fun s => ⟨fun hs => ?_, ?_⟩
    · have hall : ∀ s ∈ [0, 1], ∃ p ∈ l, p.deviceId = 0 ∧ p.slotId {} = s := by
        decide
      exact hall s hs
    · rintro ⟨p, hp, -, rfl⟩
      exact (show ∀ p ∈ l, p.slotId {} ∈ [0, 1] by decide) p hp
  have hsec : ∀ s, ∀ p ∈ slotPackets {} l 0 s, 1 ≤ p.timestamp.tvSec := fun s p hp =>
    (show ∀ p ∈ l, 1 ≤ p.timestamp.tvSec by decide) p (slotPackets_subset 0 s hp)
  have hfront : ∀ s, slotPackets {} l 0 s ≠ [] → (ZeroFronted {} l 0 s ↔
      ∃ b ∈ deviceBurstGenerator .insertion {} camera (slotPackets {} l 0 s),
        b.firstPacketStamp = .zero) := fun s hne =>
    (exists_zero_iff_hasLoneTail .insertion camera (by decide) hne (hsec s)).symm
  have hzero : ZeroFronted {} l 0 0 := (hfront 0 (by decide +kernel)).mpr (by decide +kernel)
  have hone : ¬ ZeroFronted {} l 0 1 := fun h =>
    absurd ((hfront 1 (by decide +kernel)).mp h) (by decide +kernel)
  have hclean : ∀ d, CleanCut {} 50 l d := by
    rintro d ⟨s, hs, hzero⟩
    by_cases hd : d = 0
    · subst hd
      rw [hslots] at hs
      obtain rfl : s = 1 := List.mem_singleton.mp hs
      exact absurd hzero hone
    · obtain ⟨p, hp, hpd, -⟩ := mem_deviceSlots.mp (List.mem_of_mem_drop hs)
      exact absurd (hpd.symm.trans (hdevice p hp)) hd
  exact ⟨hzero, hclean, (chronological_iff .insertion {} 50 [camera] l (by decide) (by decide)
    (by decide) (by decide) (by decide)).mpr ⟨by decide, hclean⟩⟩

/-- Three heartbeats in the first slot and sixteen in the second. -/
def twoSlots : List KPacket :=
  heartbeats 1 3 ++ heartbeats 1801 16

open Chronology BurstDataset in
/-- **The second slot is trained on and the first one tested**, since the sixteenth heartbeat of the
second slot is cut off. -/
theorem not_chronological_twoSlots :
    TimeOrdered twoSlots ∧ (∀ p ∈ twoSlots, 1 ≤ p.timestamp.tvSec) ∧
      (∀ p ∈ twoSlots, p.deviceId.toNat < [camera].length) ∧ ({} : DivisionParam).Positive ∧
      ∃ ds, fromPktDataset .insertion {} 50 [camera] twoSlots = .ok ds ∧
        ¬ Chronological .insertion {} [camera] twoSlots ds := by
  have hsplit : ∃ ds, fromPktDataset .insertion {} 50 [camera] twoSlots = .ok ds ∧
      blockOf .insertion {} [camera] twoSlots ⟨0, 60, 7, ⟨1801, 0⟩⟩ ∈ ds.train 0 ∧
      blockOf .insertion {} [camera] twoSlots ⟨0, 60, 7, ⟨1, 0⟩⟩ ∈ ds.test 0 := by
    have hrun : (match fromPktDataset .insertion {} 50 [camera] twoSlots with
        | .ok ds => decide
            (blockOf .insertion {} [camera] twoSlots ⟨0, 60, 7, ⟨1801, 0⟩⟩ ∈ ds.train 0 ∧
              blockOf .insertion {} [camera] twoSlots ⟨0, 60, 7, ⟨1, 0⟩⟩ ∈ ds.test 0)
        | .error _ => false) = true := by
      decide +kernel
    cases hds : fromPktDataset .insertion {} 50 [camera] twoSlots with
    | error fault =>
      rw [hds] at hrun
      cases hrun
    | ok ds =>
      rw [hds] at hrun
      exact ⟨ds, rfl, of_decide_eq_true hrun⟩
  obtain ⟨ds, hds, htrain, htest⟩ := hsplit
  refine ⟨by unfold TimeOrdered; decide, by decide, by decide, by decide, ds, hds, ?_⟩
  intro h
  have := h 0 ⟨0, 60, 7, ⟨1801, 0⟩⟩ (by decide) ⟨0, 60, 7, ⟨1, 0⟩⟩ (by decide) rfl rfl htrain htest
  exact absurd this (by decide)

end BurstIoT
