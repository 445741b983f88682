import BurstIoT.Merging
import BurstIoT.Score
import BurstIoT.SplitVector
import BurstIoT.Training

/-!
# The classifier

`KBurstClassifier` is trained with the blocks of the training half, device by device, and predicts
the blocks of the test half, in epochs of four hours.  Both leave something in the statics of
`BurstGroupPolicy`: `addrAvgPktMap` has the median block size of each trained device, and keeps the
entry it has; `blockLevelDistribution` has the merged blocks of a device, and new ones are appended.

The tasks run here one after another, the devices in the order in which the maps are traversed.

The sizes of the blocks are counted as the bursts count; the packet filter reads the `int`.
-/

namespace BurstIoT

/-- `FilterParam`, as far as it is read, with its default value. -/
structure FilterParam where
  minBlockPktnum : UInt8 := 1
  deriving DecidableEq, Repr

/-- `TrainParam`, as far as it is read, with its default values. -/
structure TrainParam where
  trainPercent : UInt8 := 50
  enableMergeIdentical : Bool := true
  deriving DecidableEq, Repr

/-- `Config`, as far as it is read. -/
structure Config (F : Type) [Field F] where
  divisionParam : DivisionParam := {}
  filterParam : FilterParam := {}
  trainParam : TrainParam := {}
  classifyParam : TestParam F := {}

/-- The static maps of `BurstGroupPolicy`. -/
structure PolicyStatics where
  addrAvgPktMap : UnorderedMap UInt16 ℕ := ∅
  blockLevelDistribution : UnorderedMap UInt16 (List Burst) := ∅

/-- `BurstStat`. -/
structure BurstStat where
  deviceId : UInt16 := 0
  totalUniBurstNum : ℕ := 0
  counter : List ℕ := List.replicate 500 0
  deriving DecidableEq, Repr

/-- `KBurstClassifier`, without its score. -/
structure KBurstClassifier where
  train : List (List (List Burst))
  burstStats : List BurstStat := []
  deriving DecidableEq, Repr

/-- `EPOCH_TIMESLOT`, in hours. -/
def epochTimeslot : ℕ := 4

/-- `KBurstClassifier::KBurstClassifier`. -/
def KBurstClassifier.init (div : DivisionParam) : KBurstClassifier where
  train := (TrainStore.init div).train

namespace Classifier

/-! ## Training -/

/-- The number of packets of a block. -/
def blockPktNum (block : BurstBlock) : ℕ :=
  (block.map Burst.pktNum).sum

/-- `BlockAvgPktNum`: the median of the block sizes, as an `int`. -/
def blockAvgPktNum (burstGroups : List BurstBlock) : Except Fault ℕ :=
  let numVec := stableSort (fun a b => decide (a < b)) (burstGroups.map blockPktNum)
  let groupSize := burstGroups.length
  if groupSize % 2 = 1 then at? numVec (groupSize / 2)
  else do
    let low ← atInt? numVec ((groupSize : ℤ) / 2 - 1)
    let high ← at? numVec (groupSize / 2)
    return (low + high) / 2

variable {F : Type} [Field F] [LinearOrder F] [Elementary F]

/-- `trainMap` of `TrainOneDevice`: the merged bursts of a device. -/
def trainMap (lib : StdLib) (cfg : Config F) (burstGroups : List BurstBlock) :
    Except Fault (UnorderedMap BurstPtr ℕ) :=
  let trainMap := Merging.mergeStrictHash lib burstGroups
  if cfg.trainParam.enableMergeIdentical then Merging.mergeIdenticalKeys F lib trainMap
  else .ok trainMap

/-- `TrainOneDevice`.  A device number beyond `burstStats` is undefined. -/
def trainOneDevice (lib : StdLib) (cfg : Config F) (s : KBurstClassifier × PolicyStatics)
    (deviceId : UInt16) (burstGroups : List BurstBlock) :
    Except Fault (KBurstClassifier × PolicyStatics) := do
  let (classifier, statics) := s
  let middlePktNum ← blockAvgPktNum burstGroups
  let statics := { statics with
    addrAvgPktMap := statics.addrAvgPktMap.emplace deviceId middlePktNum
    blockLevelDistribution := burstGroups.foldl
      (fun distribution burstGroup =>
        distribution.update deviceId [] fun v => v ++ [Burst.ofBursts burstGroup])
      statics.blockLevelDistribution }
  let trainMap ← trainMap lib cfg burstGroups
  let store ← TrainStore.storeBursts cfg.divisionParam
    ((lib.iterate trainMap).map fun e => e.1.burst)
    { TrainStore.init cfg.divisionParam with train := classifier.train }
  if classifier.burstStats.length ≤ deviceId.toNat then .error .undefined
  else
    let stat : BurstStat :=
      { deviceId, totalUniBurstNum := store.uniBurstCount, counter := store.pktNumCount }
    return ({ train := store.train, burstStats := classifier.burstStats.set deviceId.toNat stat },
      statics)

/-- `Train`, on a new classifier. -/
def train (lib : StdLib) (cfg : Config F) (statics : PolicyStatics)
    (trainset : UnorderedMap UInt16 (List BurstBlock)) :
    Except Fault (KBurstClassifier × PolicyStatics) :=
  (lib.iterate trainset).foldlM (fun s e => trainOneDevice lib cfg s e.1 e.2)
    ({ KBurstClassifier.init cfg.divisionParam with
        burstStats := List.replicate trainset.keys.length {} }, statics)

/-! ## Prediction -/

/-- `PredictBurstGroup`: the policy of a block, and the cache. -/
def predictBurstGroup (lib : StdLib) (cfg : Config F) (train : List (List (List Burst)))
    (cache : PredictionCache F) (burstGroup : BurstBlock) :
    Except Fault (BurstGroupPolicy F × PredictionCache F) :=
  burstGroup.foldlM
    (fun s pBurst => do
      let (nearest, cache) ←
        Prediction.predictBurst lib cfg.divisionParam cfg.classifyParam train s.2 pBurst
      let policy ← s.1.addBurstPrediction nearest
      return (policy, cache))
    ({ testGroup := burstGroup }, cache)

/-- What a prediction task reads of the process. -/
structure PredictEnv (F : Type) [Field F] where
  lib : StdLib
  cfg : Config F
  context : Context
  train : List (List (List Burst))
  blockLevelDistribution : UnorderedMap UInt16 (List Burst)

/-- One iteration of `PredictGroups`: a block with fewer packets than allowed is left out, and takes
no index. -/
def predictBlock (env : PredictEnv F) (trueDevice : String)
    (s : Score F × PredictionCache F × ℕ) (burstGroup : BurstBlock) :
    Except Fault (Score F × PredictionCache F × ℕ) := do
  let (score, cache, index) := s
  if toInt (blockPktNum burstGroup) < env.cfg.filterParam.minBlockPktnum.toNat then return s
  else
    let (predictDevice, cache) ←
      predictBurstGroup env.lib env.cfg env.train cache burstGroup
    let score ← score.addPrediction env.lib env.cfg.classifyParam env.context
      env.blockLevelDistribution trueDevice predictDevice index
    return (score, cache, index + 1)

/-- `PredictGroups`. -/
def predictGroups (env : PredictEnv F) (s : Score F × PredictionCache F)
    (deviceGroups : List BurstBlock) (index : ℕ) : Except Fault (Score F × PredictionCache F) := do
  let group ← atChecked? deviceGroups 0
  let burst ← atChecked? group 0
  let (score, cache, _) ← deviceGroups.foldlM (predictBlock env burst.instanceLabel)
    (s.1, s.2, index)
  return (score, cache)

/-- The tasks of one device: its blocks in chunks of `epochSlotNum`, with the index of each chunk.
-/
def predictChunks (env : PredictEnv F) (epochSlotNum : ℕ) (s : Score F × PredictionCache F)
    (burstGroups : List BurstBlock) : Except Fault (Score F × PredictionCache F) :=
  match SplitVector.splitVector burstGroups epochSlotNum (burstGroups.length + 1) with
  | none => .error .diverges
  | some splittedVec => do
    let chunks ← splittedVec
    chunks.zipIdx.foldlM (fun s e => predictGroups env s e.1 (e.2 * epochSlotNum)) s

/-- One iteration of the second loop of `Predict`. -/
def predictOneDevice (env : PredictEnv F) (epochSlotNum : ℕ)
    (s : Score F × PolicyStatics × PredictionCache F) (deviceId : UInt16)
    (burstGroups : List BurstBlock) :
    Except Fault (Score F × PolicyStatics × PredictionCache F) := do
  let (score, statics, cache) := s
  let addrAvgPktMap := statics.addrAvgPktMap.update deviceId 0 id
  let score ← score.addPktAvgNum env.context deviceId ((addrAvgPktMap.lookup deviceId).getD 0)
  let (score, cache) ← predictChunks env epochSlotNum (score, cache) burstGroups
  return (score, { statics with addrAvgPktMap }, cache)

/-- `epochSlotNum`: how many blocks an epoch has. -/
def epochSlotNum (div : DivisionParam) : ℕ :=
  epochTimeslot * 3600 / div.timeslot.toNat

/-- `Predict`, on a new score and with the statics of `BurstGroupPolicy`.  Division by a zero
`TIMESLOT`, and of a test half by zero slots, are undefined. -/
def predict (lib : StdLib) (cfg : Config F) (context : Context) (classifier : KBurstClassifier)
    (statics : PolicyStatics) (cache : PredictionCache F)
    (testset : UnorderedMap UInt16 (List BurstBlock)) :
    Except Fault (Score F × PolicyStatics × PredictionCache F) :=
  let div := cfg.divisionParam
  let env : PredictEnv F :=
    { lib, cfg, context, train := classifier.train
      blockLevelDistribution := statics.blockLevelDistribution }
  if div.timeslot = 0 ∨ (epochSlotNum div = 0 ∧ testset.keys ≠ []) then .error .undefined
  else
    (lib.iterate testset).foldlM (fun s e => predictOneDevice env (epochSlotNum div) s e.1 e.2)
      ({}, statics, cache)

/-! ## Training goes through -/

/-- The blocks of a device that `TrainOneDevice` can work with: some, and of generated bursts whose
packets an `int` can count. -/
structure Trainable (div : DivisionParam) (burstGroups : List BurstBlock) : Prop where
  ne_nil : burstGroups ≠ []
  fits : ∀ block ∈ burstGroups, ∀ b ∈ block, b.pktNum < 2 ^ 31
  generated : ∃ device : KDevice, device.instanceName ≠ "" ∧
    ∀ block ∈ burstGroups, ∀ b ∈ block, DeviceBurstGenerator.Generated div device b

theorem blockAvgPktNum_ok {burstGroups : List BurstBlock} (hne : burstGroups ≠ []) :
    ∃ n, blockAvgPktNum burstGroups = .ok n := by
  let numVec := stableSort (fun a b => decide (a < b)) (burstGroups.map blockPktNum)
  have hlength : numVec.length = burstGroups.length := by
    rw [length_stableSort, List.length_map]
  have hpos : 0 < burstGroups.length := List.length_pos_iff.mpr hne
  have hhigh : burstGroups.length / 2 < numVec.length := by omega
  rw [blockAvgPktNum]
  split_ifs with hodd
  · exact ⟨_, at?_of_lt hhigh⟩
  · have hlow : ((burstGroups.length : ℤ) / 2 - 1).toNat < numVec.length := by omega
    rw [atInt?_of_lt (by omega) hlow, at?_of_lt hhigh]
    exact ⟨_, rfl⟩

theorem trainMap_ok (lib : StdLib) (cfg : Config F)
    (hroom : cfg.divisionParam.burstMaxUnisig ≤ 101) {device : KDevice}
    {burstGroups : List BurstBlock} (hgen : ∀ block ∈ burstGroups, ∀ b ∈ block,
      DeviceBurstGenerator.Generated cfg.divisionParam device b)
    (hfits : ∀ block ∈ burstGroups, ∀ b ∈ block, b.pktNum < 2 ^ 31) :
    ∃ map, trainMap lib cfg burstGroups = .ok map ∧
      ∀ b ∈ map, DeviceBurstGenerator.Generated cfg.divisionParam device b.burst ∧
        b.burst.pktNum < 2 ^ 31 := by
  let P : BurstPtr → Prop := fun b =>
    DeviceBurstGenerator.Generated cfg.divisionParam device b.burst ∧ b.burst.pktNum < 2 ^ 31
  have hdist : ∀ b b', P b → P b' → ∃ d : F, b.burst.distance b'.burst = .ok d := by
    intro b b' hb hb'
    have hmax : b'.burst.uniPktNum.toNat ≤ cfg.divisionParam.burstMaxUnisig.toNat :=
      UInt8.le_iff_toNat_le.mp hb'.1.uniPktNum_le
    have h101 : cfg.divisionParam.burstMaxUnisig.toNat ≤ 101 := UInt8.le_iff_toNat_le.mp hroom
    exact Burst.distance_ok hb.1.wellFormed.counted hb'.1.wellFormed.counted (hmax.trans h101)
  have hstrict : ∀ b ∈ Merging.mergeStrictHash lib burstGroups, P b := by
    intro b hb
    obtain ⟨block, hblock, hmem⟩ :=
      Merging.exists_block_of_mem_pointers (Merging.mem_pointers_of_mem_mergeStrictHash hb)
    exact ⟨hgen block hblock b.burst hmem, hfits block hblock b.burst hmem⟩
  rw [trainMap]
  split_ifs
  · exact Merging.mergeIdenticalKeys_ok hdist hstrict
  · exact ⟨_, rfl, hstrict⟩

/-- The tables of a classifier have their sizes. -/
structure Shaped (div : DivisionParam) (size : ℕ) (classifier : KBurstClassifier) : Prop where
  train : ({ TrainStore.init div with train := classifier.train }).Shaped div
  burstStats : classifier.burstStats.length = size

/-- **Training one device goes through** if its number lies within `burstStats`. -/
theorem trainOneDevice_ok {lib : StdLib} {cfg : Config F} {size : ℕ}
    (hindex : 1 ≤ cfg.divisionParam.burstMaxPacketIndex)
    (hroom : cfg.divisionParam.burstMaxUnisig ≤ 101) {s : KBurstClassifier × PolicyStatics}
    (hs : Shaped cfg.divisionParam size s.1) {deviceId : UInt16} (hid : deviceId.toNat < size)
    {burstGroups : List BurstBlock} (hgroups : Trainable cfg.divisionParam burstGroups) :
    ∃ s', trainOneDevice lib cfg s deviceId burstGroups = .ok s' ∧
      Shaped cfg.divisionParam size s'.1 := by
  obtain ⟨device, hname, hgen⟩ := hgroups.generated
  obtain ⟨middlePktNum, hmiddle⟩ := blockAvgPktNum_ok hgroups.ne_nil
  obtain ⟨map, hmap, hkeys⟩ := trainMap_ok lib cfg hroom hgen hgroups.fits
  have hmerged : ∀ b ∈ (lib.iterate map).map fun e => e.1.burst,
      DeviceBurstGenerator.Generated cfg.divisionParam device b ∧ b.pktNum < 2 ^ 31 := by
    intro b hb
    obtain ⟨e, he, rfl⟩ := List.mem_map.mp hb
    exact hkeys _ (lib.mem_of_mem_iterate he)
  obtain ⟨store, hstore, hshape⟩ := TrainStore.storeBursts_ok hname hindex
    (fun b hb => (hmerged b hb).1) (fun b hb => (hmerged b hb).2) hs.train
  have hstats : ¬ s.1.burstStats.length ≤ deviceId.toNat := by
    rw [hs.burstStats]
    omega
  rw [trainOneDevice, hmiddle]
  dsimp only [bind, Except.bind]
  rw [hmap]
  dsimp only
  rw [hstore]
  dsimp only
  rw [if_neg hstats]
  refine ⟨_, rfl, ⟨⟨List.length_replicate, hshape.rows, hshape.cells⟩, ?_⟩⟩
  exact (List.length_set ..).trans hs.burstStats

/-- What a trained device has passed. -/
theorem lt_of_trainOneDevice_ok {lib : StdLib} {cfg : Config F}
    {s s' : KBurstClassifier × PolicyStatics} {deviceId : UInt16} {burstGroups : List BurstBlock}
    (h : trainOneDevice lib cfg s deviceId burstGroups = .ok s') :
    deviceId.toNat < s.1.burstStats.length ∧
      s'.1.burstStats.length = s.1.burstStats.length := by
  obtain ⟨middlePktNum, -, h⟩ := CheckedLoop.bind_eq_ok.mp h
  obtain ⟨map, -, h⟩ := CheckedLoop.bind_eq_ok.mp h
  obtain ⟨store, -, h⟩ := CheckedLoop.bind_eq_ok.mp h
  dsimp only at h
  split_ifs at h with hstats
  cases h
  exact ⟨Nat.lt_of_not_le hstats, List.length_set ..⟩

variable {lib : StdLib} {cfg : Config F} {statics : PolicyStatics}
  {trainset : UnorderedMap UInt16 (List BurstBlock)}

variable (lib statics) in
/-- **Training goes through** if every device number is less than the number of devices. -/
theorem train_ok (hindex : 1 ≤ cfg.divisionParam.burstMaxPacketIndex)
    (hroom : cfg.divisionParam.burstMaxUnisig ≤ 101)
    (htrain : ∀ d g, trainset.lookup d = some g →
      d.toNat < trainset.keys.length ∧ Trainable cfg.divisionParam g) :
    ∃ s, train lib cfg statics trainset = .ok s := by
  let I : List (UInt16 × List BurstBlock) → KBurstClassifier × PolicyStatics → Prop :=
    fun _ s => Shaped cfg.divisionParam trainset.keys.length s.1
  have hstep : ∀ done e rest, lib.iterate trainset = done ++ e :: rest → ∀ s, I done s →
      ∃ s', trainOneDevice lib cfg s e.1 e.2 = .ok s' ∧ I (done ++ [e]) s' := by
    intro done e rest hall s hs
    have he : trainset.lookup e.1 = some e.2 := by
      rw [← lib.mem_iterate, hall]
      exact List.mem_append_right _ List.mem_cons_self
    obtain ⟨hid, hgroups⟩ := htrain e.1 e.2 he
    exact trainOneDevice_ok hindex hroom hs hid hgroups
  have hinit : I [] ({ KBurstClassifier.init cfg.divisionParam with
      burstStats := List.replicate trainset.keys.length {} }, statics) :=
    ⟨TrainStore.Shaped.init cfg.divisionParam, List.length_replicate⟩
  obtain ⟨s, hs, -⟩ := CheckedLoop.foldlM_ok hstep hinit
  exact ⟨s, hs⟩

/-- **Training that goes through** has met only device numbers less than the number of devices. -/
theorem lt_of_train_ok {s : KBurstClassifier × PolicyStatics}
    (h : train lib cfg statics trainset = .ok s) {d : UInt16} (hd : d ∈ trainset) :
    d.toNat < trainset.keys.length := by
  let I : List (UInt16 × List BurstBlock) → KBurstClassifier × PolicyStatics → Prop :=
    fun done s => s.1.burstStats.length = trainset.keys.length ∧
      ∀ e ∈ done, e.1.toNat < trainset.keys.length
  have hall := CheckedLoop.foldlM_inv (I := I) (lib.iterate trainset) []
    (fun done e s s' _ hs hstep => by
      obtain ⟨hlt, hlength⟩ := lt_of_trainOneDevice_ok hstep
      rw [hs.1] at hlt hlength
      refine ⟨hlength, fun e' he' => ?_⟩
      rcases List.mem_append.mp he' with he' | he'
      · exact hs.2 e' he'
      · rw [List.mem_singleton.mp he']
        exact hlt)
    ⟨List.length_replicate, fun _ he => absurd he List.not_mem_nil⟩ h
  obtain ⟨g, hg⟩ := lib.exists_mem_iterate hd
  exact hall.2 (d, g) (by rw [List.nil_append]; exact hg)

/-! ## Predicting nothing -/

/-- A device without test blocks gets its sheet, and nothing else. -/
theorem predictOneDevice_nil {env : PredictEnv F} {epochSlotNum : ℕ}
    {s : Score F × PolicyStatics × PredictionCache F} {deviceId : UInt16}
    (hreg : deviceId.toNat < env.context.deviceVec.length) :
    ∃ s', predictOneDevice env epochSlotNum s deviceId [] = .ok s' ∧
      s'.1.errBurstGroups = s.1.errBurstGroups ∧
      ∀ type, type ∈ s'.1.sheet ↔
        type = removeSuffix env.context.deviceVec[deviceId.toNat].instanceName ∨
          type ∈ s.1.sheet := by
  rw [predictOneDevice, Score.addPktAvgNum, Context.getDeviceById, at?_of_lt hreg]
  exact ⟨_, rfl, rfl, fun _ => UnorderedMap.mem_update⟩

theorem lt_of_predictOneDevice_ok {env : PredictEnv F} {epochSlotNum : ℕ}
    {s s' : Score F × PolicyStatics × PredictionCache F} {deviceId : UInt16}
    {burstGroups : List BurstBlock}
    (h : predictOneDevice env epochSlotNum s deviceId burstGroups = .ok s') :
    deviceId.toNat < env.context.deviceVec.length := by
  obtain ⟨score, hscore, -⟩ := CheckedLoop.bind_eq_ok.mp h
  obtain ⟨device, hdevice, -⟩ := CheckedLoop.bind_eq_ok.mp hscore
  exact (List.getElem?_eq_some_iff.mp (at?_eq_ok.mp hdevice)).1

/-- The score once some test halves without blocks have been predicted: the sheets of the types of
their devices, and no wrong predictions. -/
structure OnlySheets (context : Context) (done : List (UInt16 × List BurstBlock))
    (score : Score F) : Prop where
  errBurstGroups : score.errBurstGroups = []
  sheet : ∀ type, type ∈ score.sheet ↔ ∃ e ∈ done, ∃ device,
    context.deviceVec[e.1.toNat]? = some device ∧ removeSuffix device.instanceName = type

omit [Field F] [LinearOrder F] [Elementary F] in
theorem onlySheets_nil (context : Context) : OnlySheets context [] ({} : Score F) where
  errBurstGroups := rfl
  sheet := fun type => by
    refine ⟨fun h => absurd h (AList.notMem_empty type), ?_⟩
    rintro ⟨e, he, -⟩
    exact absurd he List.not_mem_nil

/-- **One more test half without blocks** adds the sheet of its type. -/
theorem OnlySheets.predictOneDevice {env : PredictEnv F} {epochSlotNum : ℕ}
    {done : List (UInt16 × List BurstBlock)} {s : Score F × PolicyStatics × PredictionCache F}
    (h : OnlySheets env.context done s.1) {e : UInt16 × List BurstBlock} (hnil : e.2 = [])
    (hreg : e.1.toNat < env.context.deviceVec.length) :
    ∃ s', Classifier.predictOneDevice env epochSlotNum s e.1 e.2 = .ok s' ∧
      OnlySheets env.context (done ++ [e]) s'.1 := by
  obtain ⟨s', hs', herr, hsheet⟩ :
      ∃ s', Classifier.predictOneDevice env epochSlotNum s e.1 [] = .ok s' ∧ _ :=
    predictOneDevice_nil hreg
  refine ⟨s', by rw [hnil]; exact hs', herr.trans h.errBurstGroups, fun type => ?_⟩
  rw [hsheet, h.sheet]
  constructor
  · rintro (rfl | ⟨e', he', hdevice⟩)
    · exact ⟨e, List.mem_append_right _ List.mem_cons_self, _,
        List.getElem?_eq_getElem hreg, rfl⟩
    · exact ⟨e', List.mem_append_left _ he', hdevice⟩
  · rintro ⟨e', he', device, hdevice, htype⟩
    rcases List.mem_append.mp he' with he' | he'
    · exact Or.inr ⟨e', he', device, hdevice, htype⟩
    · rw [List.mem_singleton.mp he', List.getElem?_eq_getElem hreg] at hdevice
      cases hdevice
      exact Or.inl htype.symm

variable {context : Context} {classifier : KBurstClassifier} {cache : PredictionCache F}
  {testset : UnorderedMap UInt16 (List BurstBlock)}

variable (lib statics classifier cache) in
/-- **A test half without blocks** gives a sheet for the type of each of its devices. -/
theorem predict_emptyHalves (hslot : cfg.divisionParam.timeslot ≠ 0)
    (hepoch : cfg.divisionParam.timeslot.toNat ≤ epochTimeslot * 3600)
    (hempty : ∀ d g, testset.lookup d = some g → g = [])
    (hreg : ∀ d ∈ testset, d.toNat < context.deviceVec.length) :
    ∃ s, predict lib cfg context classifier statics cache testset = .ok s ∧
      s.1.errBurstGroups = [] ∧
      ∀ type, type ∈ s.1.sheet ↔ ∃ d ∈ testset, ∃ device,
        context.deviceVec[d.toNat]? = some device ∧ removeSuffix device.instanceName = type := by
  have hpos : 0 < cfg.divisionParam.timeslot.toNat := by
    refine Nat.pos_of_ne_zero fun h => hslot (UInt16.toNat_inj.mp ?_)
    rw [h, UInt16.toNat_zero]
  have hdefined : ¬ (cfg.divisionParam.timeslot = 0 ∨
      (epochSlotNum cfg.divisionParam = 0 ∧ testset.keys ≠ [])) := by
    rintro (h | ⟨h, -⟩)
    · exact hslot h
    · exact absurd h (Nat.div_pos hepoch hpos).ne'
  have hmem : ∀ e ∈ lib.iterate testset, e.2 = [] ∧ e.1.toNat < context.deviceVec.length :=
    fun e he => ⟨hempty _ _ (lib.mem_iterate.mp he), hreg _ (lib.mem_of_mem_iterate he)⟩
  let env : PredictEnv F :=
    { lib, cfg, context, train := classifier.train
      blockLevelDistribution := statics.blockLevelDistribution }
  rw [predict, if_neg hdefined]
  obtain ⟨s, hs, herr, hsheet⟩ := CheckedLoop.foldlM_ok
    (I := fun done s => OnlySheets context done s.1) (l := lib.iterate testset)
    (s := ({}, statics, cache))
    (f := fun s e => predictOneDevice env (epochSlotNum cfg.divisionParam) s e.1 e.2)
    (fun done e rest hall s hs => by
      obtain ⟨hnil, hlt⟩ := hmem e (by
        rw [hall]
        exact List.mem_append_right _ List.mem_cons_self)
      exact OnlySheets.predictOneDevice hs hnil hlt)
    (onlySheets_nil context)
  refine ⟨s, hs, herr, fun type => ?_⟩
  rw [hsheet]
  constructor
  · rintro ⟨e, he, h⟩
    exact ⟨e.1, lib.mem_of_mem_iterate he, h⟩
  · rintro ⟨d, hd, h⟩
    obtain ⟨g, hg⟩ := lib.exists_mem_iterate hd
    exact ⟨(d, g), hg, h⟩

/-- **Predicting asks for the device of every test half.** -/
theorem lt_of_predict_ok {s : Score F × PolicyStatics × PredictionCache F}
    (h : predict lib cfg context classifier statics cache testset = .ok s) {d : UInt16}
    (hd : d ∈ testset) : d.toNat < context.deviceVec.length := by
  rw [predict] at h
  split_ifs at h
  let I : List (UInt16 × List BurstBlock) → Score F × PolicyStatics × PredictionCache F → Prop :=
    fun done _ => ∀ e ∈ done, e.1.toNat < context.deviceVec.length
  have hall := CheckedLoop.foldlM_inv (I := I) (lib.iterate testset) []
    (fun done e s s' _ hs hstep => by
      intro e' he'
      rcases List.mem_append.mp he' with he' | he'
      · exact hs e' he'
      · rw [List.mem_singleton.mp he']
        exact lt_of_predictOneDevice_ok hstep)
    (fun _ he => absurd he List.not_mem_nil) h
  obtain ⟨g, hg⟩ := lib.exists_mem_iterate hd
  exact hall (d, g) (by rw [List.nil_append]; exact hg)

end Classifier
end BurstIoT
