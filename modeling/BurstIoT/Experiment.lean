import BurstIoT.BurstDataset
import BurstIoT.Classifier
import BurstIoT.Combiner
import BurstIoT.PacketStore

/-!
# Experiments

`SingleExperiment` registers the devices of a dataset, sets the configuration, gets the bursts,
trains a new classifier with one half and predicts the other.  What outlives a call is the state of
the process: the device registry, the configuration, the static maps of `BurstGroupPolicy` and the
prediction cache, of which only the last is cleared.

The files a call finds are part of its arguments (`Experiment`), so that two processes can be
compared on the same packets.
-/

namespace BurstIoT

/-- What a call of `SingleExperiment` is given: its arguments, and the files of the dataset. -/
structure Experiment where
  cfg : List ℤ
  info : DatasetInfo
  deviceMappings : Option (List String)
  burstDataset : Option (UnorderedMap UInt16 (List BurstBlock)) := none
  pktDataset : Option (List KPacket) := none
  rawTraffic : List CaptureFile := []

/-- The lines of the mapping file that stand for devices: all but the first. -/
def Experiment.devices (call : Experiment) : List String :=
  (call.deviceMappings.getD []).tail

/-- What outlives a call. -/
structure Process (F : Type) [Field F] where
  context : Context := {}
  config : Config F := {}
  statics : PolicyStatics := {}
  cache : PredictionCache F := []

namespace Process

variable {F : Type} [Field F] [LinearOrder F] [Elementary F]

/-- A process before its first call. -/
def fresh : Process F := {}

/-- The configuration that a call sets.  An index past the end of the vector is undefined. -/
def configure (config : Config F) (cfg : List ℤ) : Except Fault (Config F) := do
  let trainPercent ← at? cfg 0
  let timeslot ← at? cfg 1
  let interval ← at? cfg 2
  let unisig ← at? cfg 3
  let duration ← at? cfg 4
  return { config with
    trainParam := { config.trainParam with trainPercent := .ofInt trainPercent }
    divisionParam := { config.divisionParam with
      timeslot := .ofInt timeslot
      burstMaxInterval := .ofInt interval
      burstMaxUnisig := .ofInt unisig
      burstMaxDuration := .ofInt duration } }

/-- `GetBurstDataset`: from the burst dataset if there is one, else from the packet dataset if there
is one, else from the capture files.  An exception while these are read is reported, and then no
dataset is returned. -/
def getBurstDataset (lib : StdLib) (config : Config F) (context : Context) (call : Experiment) :
    Except Fault BurstDataset :=
  let div := config.divisionParam
  let trainPercent := config.trainParam.trainPercent
  match call.burstDataset, call.pktDataset with
  | some rawMap, _ => BurstDataset.ofRawMap lib trainPercent rawMap
  | none, some packetDataset =>
    BurstDataset.fromPktDataset lib div trainPercent context.deviceVec packetDataset
  | none, none => do
    let packetDataset ← PacketStore.rawCvtoPktDataset lib context call.info call.rawTraffic
    BurstDataset.fromPktDataset lib div trainPercent context.deviceVec packetDataset

/-- `SingleExperiment`: the process it leaves, and its score. -/
def singleExperiment (lib : StdLib) (pcpp : PcapPlusPlus) (p : Process F) (call : Experiment) :
    Except Fault (Process F × Score F) := do
  let context ← Context.addDevices pcpp call.info call.deviceMappings p.context
  let config ← configure p.config call.cfg
  let burstDataset ← getBurstDataset lib config context call
  let (classifier, statics) ← Classifier.train lib config p.statics burstDataset.trainset
  let (score, statics, _) ←
    Classifier.predict lib config context classifier statics p.cache burstDataset.testset
  let addrAvgPktMap ← score.outputToFile context statics.addrAvgPktMap
  return ({ context, config, statics := { statics with addrAvgPktMap }, cache := [] }, score)

/-- One call after another. -/
def experiments (lib : StdLib) (pcpp : PcapPlusPlus) (p : Process F) (calls : List Experiment) :
    Except Fault (Process F) :=
  calls.foldlM (fun p call => do
    let (p, _) ← singleExperiment lib pcpp p call
    return p) p

variable {lib : StdLib} {pcpp : PcapPlusPlus}

/-! ## What a call reads and leaves -/

/-- The steps of a call that has returned. -/
theorem singleExperiment_eq_ok {p p' : Process F} {call : Experiment} {score : Score F} :
    singleExperiment lib pcpp p call = .ok (p', score) ↔
      ∃ context config ds trained predicted addrAvgPktMap,
        Context.addDevices pcpp call.info call.deviceMappings p.context = .ok context ∧
        configure p.config call.cfg = .ok config ∧
        getBurstDataset lib config context call = .ok ds ∧
        Classifier.train lib config p.statics ds.trainset = .ok trained ∧
        Classifier.predict lib config context trained.1 trained.2 p.cache ds.testset =
          .ok predicted ∧
        predicted.1.outputToFile context predicted.2.1.addrAvgPktMap = .ok addrAvgPktMap ∧
        p' = { context, config, statics := { predicted.2.1 with addrAvgPktMap }, cache := [] } ∧
        score = predicted.1 := by
  constructor
  · intro h
    obtain ⟨context, hcontext, h⟩ := CheckedLoop.bind_eq_ok.mp h
    obtain ⟨config, hconfig, h⟩ := CheckedLoop.bind_eq_ok.mp h
    obtain ⟨ds, hds, h⟩ := CheckedLoop.bind_eq_ok.mp h
    obtain ⟨trained, htrained, h⟩ := CheckedLoop.bind_eq_ok.mp h
    obtain ⟨predicted, hpredicted, h⟩ := CheckedLoop.bind_eq_ok.mp h
    obtain ⟨addrAvgPktMap, houtput, h⟩ := CheckedLoop.bind_eq_ok.mp h
    obtain ⟨rfl, rfl⟩ := Prod.mk.inj (Except.ok.inj h)
    exact ⟨context, config, ds, trained, predicted, addrAvgPktMap, hcontext, hconfig, hds, htrained,
      hpredicted, houtput, rfl, rfl⟩
  · rintro ⟨context, config, ds, trained, predicted, addrAvgPktMap, hcontext, hconfig, hds,
      htrained, hpredicted, houtput, rfl, rfl⟩
    rw [singleExperiment, hcontext]
    dsimp only [bind, Except.bind]
    rw [hconfig]
    dsimp only
    rw [hds]
    dsimp only
    rw [htrained]
    dsimp only
    rw [hpredicted]
    dsimp only
    rw [houtput]
    rfl

omit [LinearOrder F] [Elementary F] in
/-- **A call sets again what an earlier call has set** of the configuration. -/
theorem configure_configure {config config' : Config F} {cfg : List ℤ}
    (h : configure config cfg = .ok config') (cfg' : List ℤ) :
    configure config' cfg' = configure config cfg' := by
  obtain ⟨trainPercent, -, h⟩ := CheckedLoop.bind_eq_ok.mp h
  obtain ⟨timeslot, -, h⟩ := CheckedLoop.bind_eq_ok.mp h
  obtain ⟨interval, -, h⟩ := CheckedLoop.bind_eq_ok.mp h
  obtain ⟨unisig, -, h⟩ := CheckedLoop.bind_eq_ok.mp h
  obtain ⟨duration, -, h⟩ := CheckedLoop.bind_eq_ok.mp h
  cases h
  rfl

/-! ## The sweep over the parameters -/

/-- `GetMaxUniques`. -/
def getMaxUniques : List ℤ := [50]

/-- `GetMaxDurations`. -/
def getMaxDurations : List ℤ := [15]

/-- The loops of `LabelRateExperiment`: a call for each combination of the parameters and each
dataset.  `files` says what a call finds. -/
def sweep (lib : StdLib) (pcpp : PcapPlusPlus) (files : List ℤ → String → Experiment)
    (argArrays : List (List ℤ)) (datasetNames : List String) (fuel : ℕ) (p : Process F) :
    Option (Except Fault (Combiner × Process F)) :=
  Combiner.whileUnfinished (fun p cfg =>
    experiments lib pcpp p (datasetNames.map fun datasetName => { files cfg datasetName with cfg }))
    fuel (.ofArrays argArrays) p

/-- `LabelRateExperiment`. -/
def labelRateExperiment (lib : StdLib) (pcpp : PcapPlusPlus)
    (files : List ℤ → String → Experiment) (fuel : ℕ) (p : Process F) :
    Option (Except Fault (Combiner × Process F)) :=
  sweep lib pcpp files [[20], [1800], [2], getMaxUniques, getMaxDurations] ["UNSW201620"] fuel p

variable (lib pcpp) in
/-- **A sweep makes its calls in the order of the product**, and no other call. -/
theorem sweep_eq (argArrays : List (List ℤ)) (hne : argArrays ≠ [])
    (harrays : ∀ array ∈ argArrays, array ≠ []) :
    ∃ (cfgs : List (List ℤ)) (last : Combiner),
      cfgs.map (List.map some) =
        (MixedRadix.numerals (Combiner.lengths argArrays)).map (Combiner.elementsAt argArrays) ∧
      ∀ (files : List ℤ → String → Experiment) (datasetNames : List String) (fuel : ℕ)
        (p : Process F), (Combiner.lengths argArrays).prod < fuel →
          sweep lib pcpp files argArrays datasetNames fuel p =
            some ((experiments lib pcpp p (cfgs.flatMap fun cfg =>
              datasetNames.map fun datasetName => { files cfg datasetName with cfg })).map
                (last, ·)) := by
  obtain ⟨cfgs, last, hcfgs, hloop⟩ := Combiner.whileUnfinished_ofArrays hne harrays
  refine ⟨cfgs, last, hcfgs, fun files datasetNames fuel p hfuel => ?_⟩
  rw [sweep, hloop _ fuel p hfuel, experiments, ← CheckedLoop.foldlM_flatMap]
  rfl

/-- **`LabelRateExperiment` makes a single call**: each of its parameters has one value. -/
theorem labelRateExperiment_eq (files : List ℤ → String → Experiment) {fuel : ℕ}
    (hfuel : 1 < fuel) (p : Process F) :
    ∃ last, labelRateExperiment lib pcpp files fuel p =
      some ((experiments lib pcpp p [{ files [20, 1800, 2, 50, 15] "UNSW201620" with
        cfg := [20, 1800, 2, 50, 15] }]).map (last, ·)) := by
  obtain ⟨cfgs, last, hcfgs, hsweep⟩ := sweep_eq (F := F) lib pcpp
    [[20], [1800], [2], getMaxUniques, getMaxDurations] (by decide) (by decide)
  have hsome : Function.Injective (List.map (List.map (some : ℤ → Option ℤ))) :=
    List.map_injective_iff.mpr (List.map_injective_iff.mpr (Option.some_injective ℤ))
  obtain rfl : cfgs = [[20, 1800, 2, 50, 15]] := hsome (hcfgs.trans (by decide))
  exact ⟨last, hsweep files ["UNSW201620"] fuel p hfuel⟩

end Process
end BurstIoT
