import BurstIoT.Converter

/-!
# The burst dataset and its split

`BurstDataset` holds, for each device, the blocks of its slots, and their division into a training
and a test half.  `TrainTestSplit` sorts the blocks of a device by the first stamp of their front
burst, with a stable sort, and gives the first `TRAIN_PERCENT` of them to the training half.

The split is modelled as it is used here, without `shuffle`.  `trainTestSplit_spec` gives the two
halves of every device, and that the split does not fail for a percentage of at most 100 and blocks
with a burst in them.
-/

namespace BurstIoT

/-- `BurstDataset`. -/
structure BurstDataset where
  rawMap : UnorderedMap UInt16 (List BurstBlock)
  trainset : UnorderedMap UInt16 (List BurstBlock) := ∅
  testset : UnorderedMap UInt16 (List BurstBlock) := ∅

namespace BurstDataset

/-! ## The split -/

/-- The comparison of two blocks: `*a.front() < *b.front()`. -/
def frontEarlier (a b : BurstBlock) : Bool :=
  match a.head?, b.head? with
  | some front, some front' => front.earlierThan front'
  | _, _ => false

/-- `std::ceil(size * TRAIN_PERCENT / 100.0)`. -/
def trainNum (trainPercent : UInt8) (size : ℕ) : ℕ :=
  (size * trainPercent.toNat + 99) / 100

/-- One iteration of `TrainTestSplit`.  Comparing a block without a burst, and a training half
larger than the whole, are undefined. -/
def splitDevice (trainPercent : UInt8) (ds : BurstDataset) (deviceId : UInt16)
    (burstGroup : List BurstBlock) : Except Fault BurstDataset :=
  let sorted := stableSort frontEarlier burstGroup
  let n := trainNum trainPercent sorted.length
  if 2 ≤ burstGroup.length ∧ [] ∈ burstGroup then .error .undefined
  else if sorted.length < n then .error .undefined
  else .ok {
    rawMap := AList.insert deviceId sorted ds.rawMap
    trainset := ds.trainset.emplace deviceId (sorted.take n)
    testset := ds.testset.emplace deviceId (sorted.drop n) }

/-- `TrainTestSplit`. -/
def trainTestSplit (lib : StdLib) (trainPercent : UInt8) (ds : BurstDataset) :
    Except Fault BurstDataset :=
  (lib.iterate ds.rawMap).foldlM (fun ds e => splitDevice trainPercent ds e.1 e.2) ds

/-- `BurstDataset::BurstDataset(rawMap, shuffle)`. -/
def ofRawMap (lib : StdLib) (trainPercent : UInt8)
    (rawMap : UnorderedMap UInt16 (List BurstBlock)) : Except Fault BurstDataset :=
  trainTestSplit lib trainPercent { rawMap }

/-- `FromPktDataset`: convert the packets and split the blocks. -/
def fromPktDataset (lib : StdLib) (div : DivisionParam) (trainPercent : UInt8)
    (deviceVec : List KDevice) (packetDataset : List KPacket) : Except Fault BurstDataset := do
  let converter ← Converter.pktDatasetCvtoBursts lib div deviceVec packetDataset
  ofRawMap lib trainPercent converter.burstDatasetContent

/-! ## What the split leaves -/

/-- The training half of the blocks of one device. -/
def trainHalf (trainPercent : UInt8) (burstGroup : List BurstBlock) : List BurstBlock :=
  (stableSort frontEarlier burstGroup).take (trainNum trainPercent burstGroup.length)

/-- The test half of the blocks of one device. -/
def testHalf (trainPercent : UInt8) (burstGroup : List BurstBlock) : List BurstBlock :=
  (stableSort frontEarlier burstGroup).drop (trainNum trainPercent burstGroup.length)

/-- The training half is no larger than the whole. -/
theorem trainNum_le {trainPercent : UInt8} (h : trainPercent ≤ 100) (size : ℕ) :
    trainNum trainPercent size ≤ size := by
  have hpercent : trainPercent.toNat ≤ 100 := UInt8.le_iff_toNat_le.mp h
  have hmul : size * trainPercent.toNat ≤ size * 100 := Nat.mul_le_mul_left size hpercent
  rw [trainNum]
  omega

theorem splitDevice_eq {trainPercent : UInt8} (h : trainPercent ≤ 100) (ds : BurstDataset)
    (deviceId : UInt16) {burstGroup : List BurstBlock} (hblocks : ∀ b ∈ burstGroup, b ≠ []) :
    splitDevice trainPercent ds deviceId burstGroup = .ok {
      rawMap := AList.insert deviceId (stableSort frontEarlier burstGroup) ds.rawMap
      trainset := ds.trainset.emplace deviceId (trainHalf trainPercent burstGroup)
      testset := ds.testset.emplace deviceId (testHalf trainPercent burstGroup) } := by
  have hempty : ¬ (2 ≤ burstGroup.length ∧ [] ∈ burstGroup) := fun hmem => hblocks [] hmem.2 rfl
  have hlong : ¬ burstGroup.length < trainNum trainPercent burstGroup.length :=
    Nat.not_lt.mpr (trainNum_le h _)
  rw [splitDevice, if_neg hempty, length_stableSort, if_neg hlong]
  rfl

/-- **What `TrainTestSplit` leaves**: each device has its blocks sorted, and their two halves. -/
theorem trainTestSplit_lookup (lib : StdLib) {trainPercent : UInt8} (h : trainPercent ≤ 100)
    {rawMap : UnorderedMap UInt16 (List BurstBlock)}
    (hblocks : ∀ d g, rawMap.lookup d = some g → ∀ b ∈ g, b ≠ []) :
    ∃ ds, ofRawMap lib trainPercent rawMap = .ok ds ∧
      ∀ d, ds.rawMap.lookup d = (rawMap.lookup d).map (stableSort frontEarlier) ∧
        ds.trainset.lookup d = (rawMap.lookup d).map (trainHalf trainPercent) ∧
        ds.testset.lookup d = (rawMap.lookup d).map (testHalf trainPercent) := by
  let I : List (UInt16 × List BurstBlock) → BurstDataset → Prop := fun done ds =>
    (∀ e ∈ done, ds.rawMap.lookup e.1 = some (stableSort frontEarlier e.2) ∧
      ds.trainset.lookup e.1 = some (trainHalf trainPercent e.2) ∧
      ds.testset.lookup e.1 = some (testHalf trainPercent e.2)) ∧
    ∀ d, d ∉ done.map Prod.fst → ds.rawMap.lookup d = rawMap.lookup d ∧
      ds.trainset.lookup d = none ∧ ds.testset.lookup d = none
  have hstep : ∀ done a rest, lib.iterate rawMap = done ++ a :: rest → ∀ ds, I done ds →
      ∃ ds', splitDevice trainPercent ds a.1 a.2 = .ok ds' ∧ I (done ++ [a]) ds' := by
    rintro done ⟨d, g⟩ rest hall ds ⟨hdone, hfresh⟩
    have hnew : d ∉ done.map Prod.fst :=
      UnorderedMap.fst_notMem_of_nodup (lib.nodup_iterate_keys rawMap) hall
    have hg : rawMap.lookup d = some g := by
      rw [← lib.mem_iterate, hall]
      exact List.mem_append_right _ List.mem_cons_self
    refine ⟨_, splitDevice_eq h ds d (hblocks d g hg), ?_, ?_⟩
    · rintro ⟨d', g'⟩ hmem
      dsimp only
      rw [UnorderedMap.lookup_emplace, UnorderedMap.lookup_emplace]
      rcases List.mem_append.mp hmem with hmem | hmem
      · have hne : d' ≠ d := fun heq => hnew (heq ▸ List.mem_map_of_mem hmem)
        rw [if_neg hne, if_neg hne, AList.lookup_insert_ne hne]
        exact hdone _ hmem
      · obtain ⟨rfl, rfl⟩ := Prod.mk.inj (List.mem_singleton.mp hmem)
        rw [if_pos rfl, if_pos rfl, (hfresh d' hnew).2.1, (hfresh d' hnew).2.2, AList.lookup_insert]
        exact ⟨rfl, rfl, rfl⟩
    · intro d' hmem
      rw [List.map_append, List.mem_append, not_or] at hmem
      have hne : d' ≠ d := fun heq => hmem.2 (heq ▸ List.mem_cons_self)
      dsimp only
      rw [UnorderedMap.lookup_emplace, UnorderedMap.lookup_emplace, if_neg hne, if_neg hne,
        AList.lookup_insert_ne hne]
      exact hfresh d' hmem.1
  obtain ⟨ds, hok, hdone, hfresh⟩ := CheckedLoop.foldlM_ok hstep
    (show I [] { rawMap } from
      ⟨fun _ he => absurd he List.not_mem_nil, fun _ _ => ⟨rfl, rfl, rfl⟩⟩)
  refine ⟨ds, hok, fun d => ?_⟩
  cases hlook : rawMap.lookup d with
  | some g => exact hdone (d, g) (lib.mem_iterate.mpr hlook)
  | none =>
    have hnone : d ∉ (lib.iterate rawMap).map Prod.fst := by
      intro hmem
      obtain ⟨⟨d', g⟩, he, rfl⟩ := List.mem_map.mp hmem
      rw [lib.mem_iterate.mp he] at hlook
      cases hlook
    rw [(hfresh d hnone).1, hlook]
    exact ⟨rfl, (hfresh d hnone).2⟩

/-- **The halves that `TrainTestSplit` leaves**: each device has the two halves of its blocks. -/
theorem trainTestSplit_spec (lib : StdLib) {trainPercent : UInt8} (h : trainPercent ≤ 100)
    {rawMap : UnorderedMap UInt16 (List BurstBlock)}
    (hblocks : ∀ d g, rawMap.lookup d = some g → ∀ b ∈ g, b ≠ []) :
    ∃ ds, ofRawMap lib trainPercent rawMap = .ok ds ∧
      ∀ d, ds.trainset.lookup d = (rawMap.lookup d).map (trainHalf trainPercent) ∧
        ds.testset.lookup d = (rawMap.lookup d).map (testHalf trainPercent) := by
  obtain ⟨ds, hok, hlookup⟩ := trainTestSplit_lookup lib h hblocks
  exact ⟨ds, hok, fun d => (hlookup d).2⟩

/-- The two halves are those of the same devices. -/
theorem mem_trainset_iff {lib : StdLib} {trainPercent : UInt8}
    {rawMap : UnorderedMap UInt16 (List BurstBlock)} {ds : BurstDataset}
    (h : ofRawMap lib trainPercent rawMap = .ok ds) (d : UInt16) :
    d ∈ ds.trainset ↔ d ∈ ds.testset := by
  let I : List (UInt16 × List BurstBlock) → BurstDataset → Prop := fun _ ds =>
    d ∈ ds.trainset ↔ d ∈ ds.testset
  refine CheckedLoop.foldlM_inv (I := I) _ [] (fun done e ds ds' _ hds hsplit => ?_) Iff.rfl h
  rw [splitDevice] at hsplit
  split_ifs at hsplit
  cases hsplit
  exact (UnorderedMap.mem_emplace.trans (or_congr_right hds)).trans UnorderedMap.mem_emplace.symm

/-- The two halves rearrange the blocks. -/
theorem trainHalf_append_testHalf_perm (trainPercent : UInt8) (burstGroup : List BurstBlock) :
    (trainHalf trainPercent burstGroup ++ testHalf trainPercent burstGroup).Perm burstGroup := by
  rw [trainHalf, testHalf, List.take_append_drop]
  exact stableSort_perm frontEarlier burstGroup

/-- The training blocks of a device: `trainset[d]`. -/
def train (ds : BurstDataset) (d : UInt16) : List BurstBlock :=
  (ds.trainset.lookup d).getD []

/-- The test blocks of a device: `testset[d]`. -/
def test (ds : BurstDataset) (d : UInt16) : List BurstBlock :=
  (ds.testset.lookup d).getD []

end BurstDataset
end BurstIoT
