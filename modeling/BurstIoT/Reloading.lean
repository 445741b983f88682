import Mathlib.Data.Rat.Floor
import BurstIoT.DatasetFiles

/-!
# Fresh and reloaded datasets

A burst dataset is split when it is made, and again when it is loaded.  The split sorts the blocks
in place, and what is saved are the sorted blocks; the split of the loaded dataset sorts them once
more.  Both give the same halves because the comparison of blocks is one by the stamp of the front
burst (`frontEarlier_iff`), so that sorting twice is sorting once (`stableSort_stableSort`).
-/

namespace BurstIoT
namespace BurstDataset

/-! ## Sorting by the front burst -/

/-- The first stamp of the front burst of a block. -/
def frontStamp (block : BurstBlock) : Timespec :=
  (block.head?.map Burst.firstPacketStamp).getD .zero

theorem frontEarlier_iff {a b : BurstBlock} (ha : a ≠ []) (hb : b ≠ []) :
    frontEarlier a b = true ↔ frontStamp a < frontStamp b := by
  cases a with
  | nil => exact absurd rfl ha
  | cons front a =>
    cases b with
    | nil => exact absurd rfl hb
    | cons front' b => exact Timespec.earlier_iff

/-- The comparison of the stamps. -/
def stampEarlier (a b : BurstBlock) : Bool :=
  (frontStamp a).earlier (frontStamp b)

theorem strictWeak_stampEarlier : StrictWeak stampEarlier :=
  Timespec.strictWeak_earlier.comap frontStamp

variable {burstGroup : List BurstBlock}

theorem stableSort_frontEarlier (h : ∀ b ∈ burstGroup, b ≠ []) :
    stableSort frontEarlier burstGroup = stableSort stampEarlier burstGroup := by
  refine stableSort_congr fun a ha b hb => ?_
  rw [Bool.eq_iff_iff, frontEarlier_iff (h a ha) (h b hb), stampEarlier, Timespec.earlier_iff]

/-- **The stable sort by the front stamp**: the blocks rearranged, in the order of the stamps, those
of one stamp in the order they had. -/
theorem stableSort_frontEarlier_spec (h : ∀ b ∈ burstGroup, b ≠ []) :
    (stableSort frontEarlier burstGroup).Perm burstGroup ∧
      (stableSort frontEarlier burstGroup).Pairwise (fun a b => frontStamp a ≤ frontStamp b) ∧
      ∀ t, (stableSort frontEarlier burstGroup).filter (fun b => frontStamp b = t) =
        burstGroup.filter fun b => frontStamp b = t := by
  refine ⟨stableSort_perm _ _, ?_, fun t => ?_⟩
  · rw [stableSort_frontEarlier h]
    exact (stableSort_pairwise strictWeak_stampEarlier burstGroup).imp
      fun hab => Timespec.earlier_eq_false_iff.mp hab
  · rw [stableSort_frontEarlier h]
    refine filter_stableSort strictWeak_stampEarlier _ fun a _ b _ ha hb => ?_
    rw [stampEarlier, of_decide_eq_true ha, of_decide_eq_true hb]
    exact Timespec.strictWeak_earlier.irrefl t

/-- **Sorting twice is sorting once.** -/
theorem stableSort_stableSort (h : ∀ b ∈ burstGroup, b ≠ []) :
    stableSort frontEarlier (stableSort frontEarlier burstGroup) =
      stableSort frontEarlier burstGroup := by
  have hsorted : ∀ b ∈ stableSort frontEarlier burstGroup, b ≠ [] := fun b hb =>
    h b ((mem_stableSort _).mp hb)
  rw [stableSort_frontEarlier hsorted, stableSort_frontEarlier h]
  exact stableSort_of_pairwise (stableSort_pairwise strictWeak_stampEarlier burstGroup)

/-- A training half of so many percent, rounded up. -/
theorem trainNum_eq_ceil (trainPercent : UInt8) (size : ℕ) :
    trainNum trainPercent size = ⌈(size * trainPercent.toNat : ℚ) / 100⌉₊ := by
  refine eq_of_forall_ge_iff fun n => ?_
  rw [Nat.ceil_le, div_le_iff₀ (by norm_num), trainNum]
  constructor
  · intro hn
    have hnat : size * trainPercent.toNat ≤ n * 100 := by omega
    exact_mod_cast hnat
  · intro hn
    have hnat : size * trainPercent.toNat ≤ n * 100 := by exact_mod_cast hn
    omega

theorem trainHalf_append_testHalf (trainPercent : UInt8) (burstGroup : List BurstBlock) :
    trainHalf trainPercent burstGroup ++ testHalf trainPercent burstGroup =
      stableSort frontEarlier burstGroup :=
  List.take_append_drop _ _

theorem length_trainHalf {trainPercent : UInt8} (h : trainPercent ≤ 100)
    (burstGroup : List BurstBlock) :
    (trainHalf trainPercent burstGroup).length = trainNum trainPercent burstGroup.length := by
  rw [trainHalf, List.length_take, length_stableSort, min_eq_left (trainNum_le h _)]

/-- The halves of the sorted blocks are those of the blocks. -/
theorem halves_stableSort (trainPercent : UInt8) (h : ∀ b ∈ burstGroup, b ≠ []) :
    trainHalf trainPercent (stableSort frontEarlier burstGroup) =
        trainHalf trainPercent burstGroup ∧
      testHalf trainPercent (stableSort frontEarlier burstGroup) =
        testHalf trainPercent burstGroup := by
  rw [trainHalf, testHalf, stableSort_stableSort h, length_stableSort]
  exact ⟨rfl, rfl⟩

end BurstDataset

open BurstDataset in
/-- **A reloaded dataset is split like a fresh one.**  For blocks with a burst in them and at most a
hundred percent: each device with `n` blocks has a training and a test half that together are its
blocks sorted stably by their front stamps, with `⌈n * TRAIN_PERCENT / 100⌉` of them for training;
and if the archive reads back the map that was written, every dataset that loads the file has the
same halves. -/
theorem reloaded_split (lib : StdLib) (boost : Boost)
    (hboost : ∀ rawMap d, (boost.bursts rawMap).lookup d = rawMap.lookup d) (div : DivisionParam)
    (trainPercent : UInt8) (hpercent : trainPercent ≤ 100)
    (rawMap : UnorderedMap UInt16 (List BurstBlock))
    (hblocks : ∀ d g, rawMap.lookup d = some g → ∀ b ∈ g, b ≠ []) (disk : Disk) :
    ∃ ds disk', ofContent lib div trainPercent rawMap disk = .ok (ds, disk') ∧
      (∀ d g, rawMap.lookup d = some g → ∃ train test,
        ds.trainset.lookup d = some train ∧ ds.testset.lookup d = some test ∧
        train ++ test = stableSort frontEarlier g ∧
        train.length = ⌈(g.length * trainPercent.toNat : ℚ) / 100⌉₊) ∧
      ∀ datasetName, Context.getBurstDatasetPath div datasetName =
          Context.getBurstDatasetPath div "" →
        ∃ loaded, ofName lib boost div trainPercent datasetName disk' = .ok loaded ∧
          ∀ d, loaded.trainset.lookup d = ds.trainset.lookup d ∧
            loaded.testset.lookup d = ds.testset.lookup d := by
  obtain ⟨ds, hok, hlookup⟩ := trainTestSplit_lookup lib hpercent hblocks
  refine ⟨ds, _, by rw [ofContent, hok]; rfl, fun d g hg => ?_, fun datasetName hpath => ?_⟩
  · obtain ⟨-, htrain, htest⟩ := hlookup d
    rw [hg, Option.map_some] at htrain htest
    refine ⟨_, _, htrain, htest, trainHalf_append_testHalf trainPercent g, ?_⟩
    rw [length_trainHalf hpercent, trainNum_eq_ceil]
  · have hsaved : ∀ d, (boost.bursts ds.rawMap).lookup d =
        (rawMap.lookup d).map (stableSort frontEarlier) := fun d =>
      (hboost ds.rawMap d).trans (hlookup d).1
    have hsavedBlocks : ∀ d g, (boost.bursts ds.rawMap).lookup d = some g → ∀ b ∈ g, b ≠ [] := by
      intro d g hg b hb
      rw [hsaved, Option.map_eq_some_iff] at hg
      obtain ⟨g, hg, rfl⟩ := hg
      exact hblocks d g hg b ((mem_stableSort _).mp hb)
    obtain ⟨loaded, hloaded, hhalves⟩ := trainTestSplit_spec lib hpercent hsavedBlocks
    refine ⟨loaded, ?_, fun d => ?_⟩
    · rw [ofName, load, hpath, serialize, IoTBurst.lookup_serialize_self]
      exact hloaded
    · rw [(hhalves d).1, (hhalves d).2, hsaved, (hlookup d).2.1, (hlookup d).2.2]
      cases hg : rawMap.lookup d with
      | none => exact ⟨rfl, rfl⟩
      | some g =>
        obtain ⟨htrain, htest⟩ := halves_stableSort trainPercent (hblocks d g hg)
        exact ⟨congrArg some htrain, congrArg some htest⟩

/-- A block of one burst. -/
def lampBlock (tvSec : ℤ) : BurstBlock :=
  [{ uniPktNum := 1, pktNum := 1, instanceLabel := "lamp", firstPacketStamp := ⟨tvSec, 0⟩
     lastPacketStamp := ⟨tvSec, 0⟩, packetDetail := [(60, 1)] }]

/-- Two blocks of the lamp, the later one first. -/
def lampBlocks : UnorderedMap UInt16 (List BurstBlock) :=
  AList.insert 1 [lampBlock 1801, lampBlock 1] ∅

open BurstDataset in
theorem reloaded_split_lamp : ∃ ds disk',
    ofContent .insertion {} 50 lampBlocks ∅ = .ok (ds, disk') ∧
      (∃ train test, ds.trainset.lookup 1 = some train ∧ ds.testset.lookup 1 = some test ∧
        train ++ test = [lampBlock 1, lampBlock 1801] ∧ train.length = 1) ∧
      ∃ loaded, ofName .insertion exactBoost {} 50 "" disk' = .ok loaded ∧
        ∀ d, loaded.trainset.lookup d = ds.trainset.lookup d ∧
          loaded.testset.lookup d = ds.testset.lookup d := by
  have hblocks : ∀ d g, lampBlocks.lookup d = some g → ∀ b ∈ g, b ≠ [] := by
    intro d g hg
    by_cases hd : d = 1
    · subst hd
      rw [lampBlocks, AList.lookup_insert] at hg
      obtain rfl := Option.some_inj.mp hg
      decide
    · rw [lampBlocks, AList.lookup_insert_ne hd] at hg
      cases hg
  obtain ⟨ds, disk', hok, hhalves, hloaded⟩ := reloaded_split .insertion exactBoost
    (fun _ _ => rfl) {} 50 (by decide) lampBlocks hblocks ∅
  obtain ⟨train, test, htrain, htest, happend, hlength⟩ := hhalves 1 [lampBlock 1801, lampBlock 1]
    (AList.lookup_insert _)
  refine ⟨ds, disk', hok, ⟨train, test, htrain, htest, happend.trans (by decide +kernel), ?_⟩,
    hloaded "" rfl⟩
  rw [hlength, ← trainNum_eq_ceil]
  rfl

end BurstIoT
