import BurstIoT.CapturePieces
import BurstIoT.Experiment
import BurstIoT.Verdicts

/-!
# The long-term experiment

`NCSULongTermExperiment` trains a classifier with all blocks of one dataset and lets it predict all
blocks of another, which was captured later.  The score adds up over time: if the later capture is
cut into pieces, none of which has packets of a device in a slot of another piece, the experiments
with the pieces together count what the experiment with the whole counts (`longTerm_pieces`).

The conversion gives each piece its own blocks (`deviceBlocks_flatten_perm`), and the verdict on a
block does not depend on the other blocks (`Confusion`).
-/

namespace BurstIoT

open Converter Classifier

/-! ## The experiment -/

namespace Process

variable {F : Type} [Field F] [LinearOrder F] [Elementary F]

/-- The configuration that `NCSULongTermExperiment` sets. -/
def longTermConfig (config : Config F) : Config F :=
  { config with divisionParam := { config.divisionParam with timeslot := 1800 } }

/-- `NCSULongTermExperiment`: the process it leaves, and its score.  The files that it finds for the
two datasets are given; it is not given any parameters. -/
def ncsuLongTermExperiment (lib : StdLib) (pcpp : PcapPlusPlus) (p : Process F)
    (ncsu2020 ncsu2021 : Experiment) : Except Fault (Process F × Score F) := do
  let config := longTermConfig p.config
  let context ← Context.addDevices pcpp ncsu2020.info ncsu2020.deviceMappings p.context
  let context ← Context.addDevices pcpp ncsu2021.info ncsu2021.deviceMappings context
  let trainDataset ← getBurstDataset lib config context ncsu2020
  let testDataset ← getBurstDataset lib config context ncsu2021
  let (classifier, statics) ← Classifier.train lib config p.statics trainDataset.rawMap
  let (score, statics, _) ←
    Classifier.predict lib config context classifier statics p.cache testDataset.rawMap
  let addrAvgPktMap ← score.outputToFile context statics.addrAvgPktMap
  return ({ context, config, statics := { statics with addrAvgPktMap }, cache := [] }, score)

end Process

/-! ## Scores that add up -/

section Combined

variable {F : Type} [Field F] [LinearOrder F] [Elementary F]

/-- **A score that adds up**: it counts what the parts count together, and its wrong blocks are
those of the parts. -/
structure Combined (parts : List (Score F)) (score : Score F) : Prop where
  missNum : ∀ type, (score.sheetOf type).missNum =
    (parts.map fun part => (part.sheetOf type).missNum).sum
  TP : ∀ type, (score.sheetOf type).TP = (parts.map fun part => (part.sheetOf type).TP).sum
  FN : ∀ type, (score.sheetOf type).FN = (parts.map fun part => (part.sheetOf type).FN).sum
  FP : ∀ type, (score.sheetOf type).FP = (parts.map fun part => (part.sheetOf type).FP).sum
  errBurstGroups : score.errBurstGroups.Perm (parts.flatMap Score.errBurstGroups)

variable {env : PredictEnv F}

/-- **The verdicts on the whole** are those on the parts. -/
theorem combined_of_confusion {blocks : List (String × BurstBlock)} {score : Score F}
    {parts : List (List (String × BurstBlock))} {scores : List (Score F)}
    (h : Confusion env blocks score) (hparts : List.Forall₂ (Confusion env) parts scores)
    (hperm : blocks.Perm parts.flatten) : Combined scores score := by
  have hsum : ∀ (count : Score F → ℕ) (P : String × BurstBlock → Bool),
      (∀ part score, Confusion env part score → count score = part.countP P) →
      blocks.countP P = (scores.map count).sum := by
    intro count P hcount
    rw [hperm.countP_eq, List.countP_flatten]
    clear hperm
    induction hparts with
    | nil => rfl
    | cons hpart _ ih => rw [List.map_cons, List.map_cons, List.sum_cons, List.sum_cons, ih,
        hcount _ _ hpart]
  refine ⟨fun type => ?_, fun type => ?_, fun type => ?_, fun type => ?_, ?_⟩
  · exact (h.missNum type).trans (hsum _ _ fun _ _ hpart => hpart.missNum type)
  · exact (h.TP type).trans (hsum _ _ fun _ _ hpart => hpart.TP type)
  · exact (h.FN type).trans (hsum _ _ fun _ _ hpart => hpart.FN type)
  · exact (h.FP type).trans (hsum _ _ fun _ _ hpart => hpart.FP type)
  · refine h.errBurstGroups.trans ((hperm.filterMap _).trans ?_)
    clear hperm hsum
    induction hparts with
    | nil => exact .nil
    | cons hpart _ ih =>
      rw [List.flatten_cons, List.filterMap_append, List.flatMap_cons]
      exact hpart.errBurstGroups.symm.append ih

omit [Field F] [LinearOrder F] [Elementary F] in
/-- `OutputToFile` looks up the names of the wrong blocks, and nothing else. -/
theorem outputToFile_ok_iff {context : Context} {score : Score F}
    (addrAvgPktMap : UnorderedMap UInt16 ℕ) :
    (∃ m, score.outputToFile context addrAvgPktMap = .ok m) ↔
      ∀ debug ∈ score.errBurstGroups, debug.prediction = "unreliable" ∨
        debug.prediction ∈ context.allDevices := by
  rw [Score.outputToFile]
  induction score.errBurstGroups generalizing addrAvgPktMap with
  | nil => exact ⟨fun _ _ h => absurd h List.not_mem_nil, fun _ => ⟨addrAvgPktMap, rfl⟩⟩
  | cons debug rest ih =>
    rw [List.forall_mem_cons, List.foldlM_cons]
    by_cases hmiss : debug.prediction = "unreliable"
    · rw [if_pos hmiss]
      exact (ih addrAvgPktMap).trans ⟨fun h => ⟨Or.inl hmiss, h⟩, fun h => h.2⟩
    · rw [if_neg hmiss, Context.getDevice]
      cases hlook : context.allDevices.lookup debug.prediction with
      | none =>
        constructor
        · rintro ⟨m, h⟩
          cases h
        · exact fun h => absurd (h.1.resolve_left hmiss) (AList.lookup_eq_none.mp hlook)
      | some device =>
        have hmem := UnorderedMap.mem_of_lookup hlook
        exact (ih _).trans ⟨fun h => ⟨Or.inr hmem, h⟩, fun h => h.2⟩

end Combined

/-! ## The dataset of a capture -/

section Dataset

variable {lib : StdLib} {div : DivisionParam} {deviceVec : List KDevice} {l : List KPacket}

theorem instanceLabel_strictStep (div : DivisionParam) (device : KDevice) (pktVec : List KPacket)
    (s : DeviceBurstGenerator.StrictState)
    (h : s.burst.instanceLabel = device.instanceName ∧
      ∀ b ∈ s.burstVec, b.instanceLabel = device.instanceName) :
    (pktVec.foldl (DeviceBurstGenerator.strictStep div device) s).burst.instanceLabel =
        device.instanceName ∧
      ∀ b ∈ (pktVec.foldl (DeviceBurstGenerator.strictStep div device) s).burstVec,
        b.instanceLabel = device.instanceName := by
  induction pktVec generalizing s with
  | nil => exact h
  | cons p pktVec ih =>
    refine ih _ ?_
    rcases DeviceBurstGenerator.strictStep_cases div device s p with ⟨-, hv, hb⟩ | ⟨-, hv, hb⟩
    · rw [hv, hb]
      refine ⟨Burst.instanceLabel_addSig _ _, fun b hmem => ?_⟩
      rcases List.mem_append.mp hmem with hmem | hmem
      · exact h.2 b hmem
      · rw [List.mem_singleton.mp hmem, DeviceBurstGenerator.instanceLabel_observe]
        exact h.1
    · rw [hv, hb]
      refine ⟨(Burst.instanceLabel_addSig _ _).trans ?_, h.2⟩
      rw [DeviceBurstGenerator.instanceLabel_observe]
      exact h.1

/-- **The bursts of a device have its name.** -/
theorem instanceLabel_of_mem {device : KDevice} {pktVec : List KPacket} {b : Burst}
    (hb : b ∈ deviceBurstGenerator lib div device pktVec) :
    b.instanceLabel = device.instanceName := by
  obtain ⟨raw, -, b', hb', rfl⟩ := Division.mem_deviceBurstGenerator.mp hb
  obtain ⟨hopen, hclosed⟩ := instanceLabel_strictStep div device raw (.init device)
    ⟨rfl, fun b hb => absurd hb List.not_mem_nil⟩
  rw [DeviceBurstGenerator.strictToBursts] at hb'
  rcases List.mem_append.mp hb' with hb' | hb'
  · exact hclosed b' hb'
  · rw [List.mem_singleton.mp hb']
    exact hopen

/-- The type of a registered device. -/
def typeOf (deviceVec : List KDevice) (d : UInt16) : String :=
  removeSuffix ((deviceVec[d.toNat]?.map KDevice.instanceName).getD "")

theorem frontType_of_mem_deviceBlocks (hreg : ∀ p ∈ l, p.deviceId.toNat < deviceVec.length)
    {d : UInt16} {burstBlock : BurstBlock}
    (h : burstBlock ∈ deviceBlocks lib div deviceVec l d) :
    frontType burstBlock = some (typeOf deviceVec d) := by
  obtain ⟨s, hs, rfl⟩ := List.mem_map.mp h
  obtain ⟨p, hp, rfl, -⟩ := mem_deviceSlots.mp hs
  have hlt := hreg p hp
  have hlook := List.getElem?_eq_getElem hlt
  rw [block, typeOf, hlook, Option.map_some, Option.getD_some, frontType]
  dsimp only [createBurstVec]
  have hne : deviceBurstGenerator lib div deviceVec[p.deviceId.toNat]
    (slotPackets div l p.deviceId s) ≠ [] := Division.deviceBurstGenerator_ne_nil _
  obtain ⟨front, later, hblock⟩ := List.exists_cons_of_ne_nil hne
  rw [hblock, List.head?_cons, Option.map_some,
    instanceLabel_of_mem (hblock ▸ List.mem_cons_self)]

theorem length_deviceBlocks_le (lib : StdLib) (div : DivisionParam) (deviceVec : List KDevice)
    (l : List KPacket) (d : UInt16) :
    (deviceBlocks lib div deviceVec l d).length ≤ l.length := by
  rw [deviceBlocks, List.length_map, deviceSlots, Finset.length_sort]
  refine (List.toFinset_card_le _).trans ?_
  rw [List.length_map]
  exact List.length_filter_le _ _

/-- A map that has the blocks of a capture, in some order, and no device without a block. -/
structure HoldsBlocks (lib : StdLib) (div : DivisionParam) (deviceVec : List KDevice)
    (l : List KPacket) (rawMap : UnorderedMap UInt16 (List BurstBlock)) : Prop where
  perm : ∀ d, ((rawMap.lookup d).getD []).Perm (deviceBlocks lib div deviceVec l d)
  ne_nil : ∀ d ∈ rawMap, deviceBlocks lib div deviceVec l d ≠ []

/-- **What a capture is made into**: a dataset with its blocks. -/
theorem fromPktDataset_spec (lib : StdLib) (hslot : div.timeslot ≠ 0) {trainPercent : UInt8}
    (hpercent : trainPercent ≤ 100) (hne : l ≠ [])
    (hsec : ∀ p ∈ l, 0 ≤ p.timestamp.tvSec ∧ p.timestamp.tvSec < 2 ^ 63)
    (hreg : ∀ p ∈ l, p.deviceId.toNat < deviceVec.length) :
    ∃ ds, BurstDataset.fromPktDataset lib div trainPercent deviceVec l = .ok ds ∧
      HoldsBlocks lib div deviceVec l ds.rawMap := by
  obtain ⟨c, hc, hcontent⟩ := pktDatasetCvtoBursts_eq lib hslot hne hsec hreg
  have hcontent : ∀ d, c.content d = deviceBlocks lib div deviceVec l d := hcontent
  have hlookup := (blocksOnly_of_ok hc).lookup_eq
  have hblocks : ∀ d g, c.burstDatasetContent.lookup d = some g → ∀ b ∈ g, b ≠ [] := by
    intro d g hg b hb
    rw [hlookup, hcontent] at hg
    split_ifs at hg
    cases hg
    rintro rfl
    cases frontType_of_mem_deviceBlocks hreg hb
  obtain ⟨ds, hds, hsplit⟩ := BurstDataset.trainTestSplit_lookup lib hpercent hblocks
  have hraw : ∀ d, ds.rawMap.lookup d =
      (if deviceBlocks lib div deviceVec l d = [] then none
        else some (deviceBlocks lib div deviceVec l d)).map
          (stableSort BurstDataset.frontEarlier) := by
    intro d
    rw [(hsplit d).1, hlookup, hcontent]
  refine ⟨ds, CheckedLoop.bind_eq_ok.mpr ⟨c, hc, hds⟩, fun d => ?_, fun d hd hnil => ?_⟩
  · rw [hraw]
    split_ifs with hnil
    · rw [hnil]
      exact .nil
    · exact stableSort_perm _ _
  · refine absurd ?_ (AList.lookup_eq_none.not.mpr (not_not.mpr hd))
    rw [hraw, if_pos hnil]
    rfl

theorem HoldsBlocks.exists_packet {rawMap : UnorderedMap UInt16 (List BurstBlock)}
    (h : HoldsBlocks lib div deviceVec l rawMap) {d : UInt16} (hd : d ∈ rawMap) :
    ∃ p ∈ l, p.deviceId = d :=
  deviceSlots_ne_nil_iff.mp (List.map_eq_nil_iff.not.mp (h.ne_nil d hd))

/-- **It can be predicted**: the blocks are labelled with the type of their device. -/
theorem HoldsBlocks.testSet {context : Context}
    {rawMap : UnorderedMap UInt16 (List BurstBlock)}
    (h : HoldsBlocks lib div context.deviceVec l rawMap)
    (hreg : ∀ p ∈ l, p.deviceId.toNat < context.deviceVec.length) (hlen : l.length < 2 ^ 31) :
    TestSet context (typeOf context.deviceVec) rawMap where
  registered := fun d hd => by
    obtain ⟨p, hp, rfl⟩ := h.exists_packet hd
    exact hreg p hp
  length_lt := fun d blocks hd => by
    have hperm := h.perm d
    rw [hd, Option.getD_some] at hperm
    rw [hperm.length_eq]
    exact (length_deviceBlocks_le lib div _ l d).trans_lt hlen
  labelled := fun d blocks hd burstBlock hmem => by
    have hperm := h.perm d
    rw [hd, Option.getD_some] at hperm
    exact frontType_of_mem_deviceBlocks hreg (hperm.mem_iff.mp hmem)

/-- The blocks that are tested, device by device. -/
theorem HoldsBlocks.tested_perm {rawMap : UnorderedMap UInt16 (List BurstBlock)}
    (h : HoldsBlocks lib div deviceVec l rawMap) (filter : FilterParam) (type : UInt16 → String)
    {keys : List UInt16} (hnodup : keys.Nodup) (hkeys : ∀ p ∈ l, p.deviceId ∈ keys) :
    (tested lib filter type rawMap).Perm
      (keys.flatMap fun d => testedOf filter (type d) (deviceBlocks lib div deviceVec l d)) := by
  refine (lib.flatMap_iterate_perm_keys (f := fun d => testedOf filter (type d)) rawMap
    (fun _ => rfl) hnodup fun d hd => ?_).trans ?_
  · obtain ⟨p, hp, rfl⟩ := h.exists_packet hd
    exact hkeys p hp
  · refine List.Perm.flatMap_left _ fun d _ => ?_
    exact ((h.perm d).filter _).map _

theorem flatMap_comm_perm {α β γ : Type} (l : List α) (l' : List β) (f : α → β → List γ) :
    (l.flatMap fun a => l'.flatMap (f a)).Perm (l'.flatMap fun b => l.flatMap (f · b)) := by
  rw [← Multiset.coe_eq_coe]
  simp only [← Multiset.coe_bind]
  exact Multiset.bind_bind _ _

theorem testedOf_flatMap (filter : FilterParam) (type : String) {α : Type} (l : List α)
    (f : α → List BurstBlock) :
    testedOf filter type (l.flatMap f) = l.flatMap fun a => testedOf filter type (f a) := by
  rw [testedOf, List.filter_flatMap, List.map_flatMap]
  rfl

/-- The blocks of the pieces that are tested, piece by piece. -/
theorem tested_parts_perm {pieces : List (List KPacket)}
    {parts : List (UnorderedMap UInt16 (List BurstBlock))}
    (hparts : List.Forall₂ (HoldsBlocks lib div deviceVec) pieces parts) (filter : FilterParam)
    (type : UInt16 → String) {keys : List UInt16} (hnodup : keys.Nodup)
    (hkeys : ∀ piece ∈ pieces, ∀ p ∈ piece, p.deviceId ∈ keys) :
    (parts.map (tested lib filter type)).flatten.Perm
      (pieces.flatMap fun piece => keys.flatMap fun d =>
        testedOf filter (type d) (deviceBlocks lib div deviceVec piece d)) := by
  induction hparts with
  | nil => exact .nil
  | cons hpart _ ih =>
    rw [List.map_cons, List.flatten_cons, List.flatMap_cons]
    obtain ⟨hfirst, hrest⟩ := List.forall_mem_cons.mp hkeys
    exact (hpart.tested_perm filter type hnodup hfirst).append (ih hrest)

/-- **The blocks of the whole that are tested** are those of the pieces. -/
theorem tested_pieces {pieces : List (List KPacket)} (hapart : Apart div pieces)
    {whole : UnorderedMap UInt16 (List BurstBlock)}
    (hwhole : HoldsBlocks lib div deviceVec pieces.flatten whole)
    {parts : List (UnorderedMap UInt16 (List BurstBlock))}
    (hparts : List.Forall₂ (HoldsBlocks lib div deviceVec) pieces parts) (filter : FilterParam)
    (type : UInt16 → String) :
    (tested lib filter type whole).Perm (parts.map (tested lib filter type)).flatten := by
  let keys := (pieces.flatten.map KPacket.deviceId).dedup
  have hkeys : ∀ p ∈ pieces.flatten, p.deviceId ∈ keys := fun p hp =>
    List.mem_dedup.mpr (List.mem_map_of_mem hp)
  have hnodup : keys.Nodup := List.nodup_dedup _
  have hdevice : ∀ d, (testedOf filter (type d)
      (deviceBlocks lib div deviceVec pieces.flatten d)).Perm
        (pieces.flatMap fun piece =>
          testedOf filter (type d) (deviceBlocks lib div deviceVec piece d)) := by
    intro d
    rw [← testedOf_flatMap]
    exact ((deviceBlocks_flatten_perm hapart d).filter _).map _
  refine (hwhole.tested_perm filter type hnodup hkeys).trans ?_
  refine (List.Perm.flatMap_left _ fun d _ => hdevice d).trans ?_
  refine (flatMap_comm_perm _ _ _).trans (tested_parts_perm hparts filter type hnodup ?_).symm
  exact fun piece hpiece p hp => hkeys p (List.mem_flatten.mpr ⟨piece, hpiece, hp⟩)

end Dataset

/-! ## The experiment with a capture -/

section Run

variable {F : Type} [Field F] [LinearOrder F] [Elementary F]

/-- A block is judged, and reported: if it is missed or wrong, then with a name that is looked up.
-/
def Reported (env : PredictEnv F) (b : String × BurstBlock) : Prop :=
  ∃ predict, env.judge b.2 = .ok predict ∧
    (isHit env b = true ∨ predict.prediction = "unreliable" ∨
      predict.prediction ∈ env.context.allDevices)

variable {lib : StdLib} {cfg : Config F} {context : Context} {classifier : KBurstClassifier}
  {statics : PolicyStatics} {cache : PredictionCache F}
  {testset : UnorderedMap UInt16 (List BurstBlock)} {type : UInt16 → String}

/-- **Prediction and report go through** exactly when each block is reported. -/
theorem report_ok_iff (htest : TestSet context type testset)
    (hcache : (PredictEnv.ofCall lib cfg context classifier statics).RightCache cache)
    (hslot : 1 ≤ cfg.divisionParam.timeslot.toNat)
    (hmax : cfg.divisionParam.timeslot.toNat ≤ epochTimeslot * 3600) :
    (∃ s, predict lib cfg context classifier statics cache testset = .ok s ∧
      ∃ m, s.1.outputToFile context s.2.1.addrAvgPktMap = .ok m) ↔
      ∀ b ∈ tested lib cfg.filterParam type testset,
        Reported (.ofCall lib cfg context classifier statics) b := by
  let env : PredictEnv F := .ofCall lib cfg context classifier statics
  have hiff := predict_ok_iff htest hcache hslot hmax
  constructor
  · rintro ⟨s, hs, hreport⟩ b hb
    obtain ⟨predict, hjudge⟩ := hiff.mp ⟨s, hs⟩ b hb
    have herrs := (confusion_of_ok htest hcache hslot hmax hs).errBurstGroups
    refine ⟨predict, hjudge, ?_⟩
    cases hhit : isHit env b with
    | true => exact Or.inl rfl
    | false =>
      refine Or.inr ((outputToFile_ok_iff _).mp hreport predict (herrs.mem_iff.mpr ?_))
      refine List.mem_filterMap.mpr ⟨b, hb, ?_⟩
      rw [errOf, hhit, if_neg Bool.false_ne_true, hjudge]
      rfl
  · intro hall
    obtain ⟨s, hs⟩ := hiff.mpr fun b hb => (hall b hb).imp fun _ h => h.1
    have herrs := (confusion_of_ok htest hcache hslot hmax hs).errBurstGroups
    refine ⟨s, hs, (outputToFile_ok_iff _).mpr fun debug hdebug => ?_⟩
    obtain ⟨b, hb, herr⟩ := List.mem_filterMap.mp (herrs.mem_iff.mp hdebug)
    obtain ⟨predict, hjudge, hknown⟩ := hall b hb
    rw [errOf, hjudge] at herr
    split_ifs at herr with hhit
    cases herr
    exact hknown.resolve_left hhit

end Run

namespace Process

variable {F : Type} [Field F] [LinearOrder F] [Elementary F] {lib : StdLib} {pcpp : PcapPlusPlus}
  {p : Process F} {ncsu2020 ncsu2021 : Experiment}

/-- The steps of an experiment that has returned. -/
theorem ncsuLongTermExperiment_eq_ok {context₁ context : Context}
    (hcontext₁ : Context.addDevices pcpp ncsu2020.info ncsu2020.deviceMappings p.context =
      .ok context₁)
    (hcontext : Context.addDevices pcpp ncsu2021.info ncsu2021.deviceMappings context₁ =
      .ok context) {r : Process F × Score F} :
    ncsuLongTermExperiment lib pcpp p ncsu2020 ncsu2021 = .ok r ↔
      ∃ trainDataset testDataset trained predicted addrAvgPktMap,
        getBurstDataset lib (longTermConfig p.config) context ncsu2020 = .ok trainDataset ∧
        getBurstDataset lib (longTermConfig p.config) context ncsu2021 = .ok testDataset ∧
        Classifier.train lib (longTermConfig p.config) p.statics trainDataset.rawMap =
          .ok trained ∧
        Classifier.predict lib (longTermConfig p.config) context trained.1 trained.2 p.cache
          testDataset.rawMap = .ok predicted ∧
        predicted.1.outputToFile context predicted.2.1.addrAvgPktMap = .ok addrAvgPktMap ∧
        r = ({ context, config := longTermConfig p.config
               statics := { predicted.2.1 with addrAvgPktMap }, cache := [] }, predicted.1) := by
  rw [ncsuLongTermExperiment, hcontext₁]
  dsimp only [bind, Except.bind]
  rw [hcontext]
  constructor
  · intro h
    obtain ⟨trainDataset, htrain, h⟩ := CheckedLoop.bind_eq_ok.mp h
    obtain ⟨testDataset, htest, h⟩ := CheckedLoop.bind_eq_ok.mp h
    obtain ⟨trained, htrained, h⟩ := CheckedLoop.bind_eq_ok.mp h
    obtain ⟨predicted, hpredicted, h⟩ := CheckedLoop.bind_eq_ok.mp h
    obtain ⟨addrAvgPktMap, houtput, h⟩ := CheckedLoop.bind_eq_ok.mp h
    exact ⟨trainDataset, testDataset, trained, predicted, addrAvgPktMap, htrain, htest, htrained,
      hpredicted, houtput, (Except.ok.inj h).symm⟩
  · rintro ⟨trainDataset, testDataset, trained, predicted, addrAvgPktMap, htrain, htest, htrained,
      hpredicted, houtput, rfl⟩
    refine CheckedLoop.bind_eq_ok.mpr ⟨trainDataset, htrain, ?_⟩
    refine CheckedLoop.bind_eq_ok.mpr ⟨testDataset, htest, ?_⟩
    refine CheckedLoop.bind_eq_ok.mpr ⟨trained, htrained, ?_⟩
    refine CheckedLoop.bind_eq_ok.mpr ⟨predicted, hpredicted, ?_⟩
    exact CheckedLoop.bind_eq_ok.mpr ⟨addrAvgPktMap, houtput, rfl⟩

/-- The second dataset is found as a capture that has not been converted yet. -/
def withCapture (ncsu2021 : Experiment) (l : List KPacket) : Experiment :=
  { ncsu2021 with burstDataset := none, pktDataset := some l }

section Capture

variable {context₁ context : Context} {l : List KPacket}
  (hcontext₁ : Context.addDevices pcpp ncsu2020.info ncsu2020.deviceMappings p.context =
    .ok context₁)
  (hcontext : Context.addDevices pcpp ncsu2021.info ncsu2021.deviceMappings context₁ = .ok context)
  (hcache : p.cache = [])

include hcontext₁ hcontext hcache

/-- **When an experiment with a capture goes through**, and what it counts. -/
theorem withCapture_spec {ds : BurstDataset}
    (hds : BurstDataset.fromPktDataset lib (longTermConfig p.config).divisionParam
      p.config.trainParam.trainPercent context.deviceVec l = .ok ds)
    (htest : TestSet context (typeOf context.deviceVec) ds.rawMap) :
    ((∃ r, ncsuLongTermExperiment lib pcpp p ncsu2020 (withCapture ncsu2021 l) = .ok r) ↔
      ∃ trainDataset trained,
        getBurstDataset lib (longTermConfig p.config) context ncsu2020 = .ok trainDataset ∧
        Classifier.train lib (longTermConfig p.config) p.statics trainDataset.rawMap =
          .ok trained ∧
        ∀ b ∈ tested lib p.config.filterParam (typeOf context.deviceVec) ds.rawMap,
          Reported (.ofCall lib (longTermConfig p.config) context trained.1 trained.2) b) ∧
    ∀ r, ncsuLongTermExperiment lib pcpp p ncsu2020 (withCapture ncsu2021 l) = .ok r →
      ∀ trainDataset trained,
        getBurstDataset lib (longTermConfig p.config) context ncsu2020 = .ok trainDataset →
        Classifier.train lib (longTermConfig p.config) p.statics trainDataset.rawMap =
          .ok trained →
        Confusion (.ofCall lib (longTermConfig p.config) context trained.1 trained.2)
          (tested lib p.config.filterParam (typeOf context.deviceVec) ds.rawMap) r.2 := by
  have hcontext : Context.addDevices pcpp (withCapture ncsu2021 l).info
    (withCapture ncsu2021 l).deviceMappings context₁ = .ok context := hcontext
  have hget : getBurstDataset lib (longTermConfig p.config) context (withCapture ncsu2021 l) =
    .ok ds := hds
  have hright : ∀ trained : KBurstClassifier × PolicyStatics, (PredictEnv.ofCall lib
      (longTermConfig p.config) context trained.1 trained.2).RightCache p.cache := by
    intro trained
    rw [hcache]
    exact fun _ he => absurd he List.not_mem_nil
  have hslot : 1 ≤ (longTermConfig p.config).divisionParam.timeslot.toNat := by
    show 1 ≤ (1800 : UInt16).toNat
    decide
  have hmax : (longTermConfig p.config).divisionParam.timeslot.toNat ≤ epochTimeslot * 3600 := by
    show (1800 : UInt16).toNat ≤ epochTimeslot * 3600
    decide
  refine ⟨⟨?_, ?_⟩, ?_⟩
  · rintro ⟨r, hr⟩
    obtain ⟨trainDataset, testDataset, trained, predicted, m, htrain, htested, htrained,
      hpredicted, houtput, -⟩ := (ncsuLongTermExperiment_eq_ok hcontext₁ hcontext).mp hr
    obtain rfl := Except.ok.inj (hget.symm.trans htested)
    refine ⟨trainDataset, trained, htrain, htrained, ?_⟩
    exact (report_ok_iff htest (hright trained) hslot hmax).mp
      ⟨predicted, hpredicted, m, houtput⟩
  · rintro ⟨trainDataset, trained, htrain, htrained, hreported⟩
    obtain ⟨predicted, hpredicted, m, houtput⟩ :=
      (report_ok_iff htest (hright trained) hslot hmax).mpr hreported
    exact ⟨_, (ncsuLongTermExperiment_eq_ok hcontext₁ hcontext).mpr ⟨trainDataset, ds, trained,
      predicted, m, htrain, hget, htrained, hpredicted, houtput, rfl⟩⟩
  · intro r hr trainDataset' trained' htrain' htrained'
    obtain ⟨trainDataset, testDataset, trained, predicted, m, htrain, htested, htrained,
      hpredicted, -, rfl⟩ := (ncsuLongTermExperiment_eq_ok hcontext₁ hcontext).mp hr
    obtain rfl := Except.ok.inj (hget.symm.trans htested)
    obtain rfl := Except.ok.inj (htrain.symm.trans htrain')
    obtain rfl := Except.ok.inj (htrained.symm.trans htrained')
    exact confusion_of_ok htest (hright trained) hslot hmax hpredicted

end Capture

variable (lib pcpp p ncsu2020 ncsu2021) in
/-- **The long-term experiment adds up over time.**  Let the later capture be cut into pieces, of
which no two have packets of one device in one slot.  The experiment with the whole capture goes
through exactly when those with the pieces do, and then it counts, for every type, what they count
together; the blocks that are missed or wrong are theirs as well. -/
theorem longTerm_pieces {context₁ context : Context} {pieces : List (List KPacket)}
    (hcontext₁ : Context.addDevices pcpp ncsu2020.info ncsu2020.deviceMappings p.context =
      .ok context₁)
    (hcontext : Context.addDevices pcpp ncsu2021.info ncsu2021.deviceMappings context₁ =
      .ok context)
    (hcache : p.cache = []) (hpercent : p.config.trainParam.trainPercent ≤ 100)
    (hne : pieces ≠ []) (hpieces : ∀ piece ∈ pieces, piece ≠ [])
    (hsec : ∀ q ∈ pieces.flatten, 0 ≤ q.timestamp.tvSec ∧ q.timestamp.tvSec < 2 ^ 63)
    (hreg : ∀ q ∈ pieces.flatten, q.deviceId.toNat < context.deviceVec.length)
    (hlen : pieces.flatten.length < 2 ^ 31)
    (hapart : Apart (longTermConfig p.config).divisionParam pieces) :
    ((∃ r, ncsuLongTermExperiment lib pcpp p ncsu2020 (withCapture ncsu2021 pieces.flatten) =
        .ok r) ↔
      ∀ piece ∈ pieces, ∃ r,
        ncsuLongTermExperiment lib pcpp p ncsu2020 (withCapture ncsu2021 piece) = .ok r) ∧
    ∀ whole parts,
      ncsuLongTermExperiment lib pcpp p ncsu2020 (withCapture ncsu2021 pieces.flatten) =
        .ok whole →
      pieces.mapM (fun piece =>
        ncsuLongTermExperiment lib pcpp p ncsu2020 (withCapture ncsu2021 piece)) = .ok parts →
      Combined (parts.map Prod.snd) whole.2 := by
  let div := (longTermConfig p.config).divisionParam
  let type := typeOf context.deviceVec
  have hmake : ∀ l : List KPacket, l ≠ [] → (∀ q ∈ l, q ∈ pieces.flatten) →
      l.length < 2 ^ 31 → ∃ ds, BurstDataset.fromPktDataset lib div
        p.config.trainParam.trainPercent context.deviceVec l = .ok ds ∧
        HoldsBlocks lib div context.deviceVec l ds.rawMap ∧ TestSet context type ds.rawMap := by
    intro l hl hsub hlt
    have hslot : div.timeslot ≠ 0 := show (1800 : UInt16) ≠ 0 by decide
    obtain ⟨ds, hds, hholds⟩ := fromPktDataset_spec lib hslot hpercent hl
      (fun q hq => hsec q (hsub q hq)) fun q hq => hreg q (hsub q hq)
    exact ⟨ds, hds, hholds, hholds.testSet (fun q hq => hreg q (hsub q hq)) hlt⟩
  have hflatten : pieces.flatten ≠ [] := by
    obtain ⟨piece, hpiece⟩ := List.exists_mem_of_ne_nil pieces hne
    obtain ⟨q, hq⟩ := List.exists_mem_of_ne_nil piece (hpieces piece hpiece)
    exact List.ne_nil_of_mem (List.mem_flatten.mpr ⟨piece, hpiece, hq⟩)
  obtain ⟨ds, hds, hholds, htest⟩ := hmake _ hflatten (fun _ h => h) hlen
  have hpart : ∀ piece ∈ pieces, ∃ ds, BurstDataset.fromPktDataset lib div
      p.config.trainParam.trainPercent context.deviceVec piece = .ok ds ∧
      HoldsBlocks lib div context.deviceVec piece ds.rawMap ∧ TestSet context type ds.rawMap := by
    intro piece hpiece
    refine hmake piece (hpieces piece hpiece)
      (fun q hq => List.mem_flatten.mpr ⟨piece, hpiece, hq⟩) (lt_of_le_of_lt ?_ hlen)
    exact (List.sublist_flatten_of_mem hpiece).length_le
  have : Nonempty BurstDataset := ⟨ds⟩
  choose! dsOf hdsOf using hpart
  let testedIn (ds : BurstDataset) := tested lib p.config.filterParam type ds.rawMap
  have hperm : (testedIn ds).Perm ((pieces.map dsOf).map testedIn).flatten := by
    have hparts : List.Forall₂ (HoldsBlocks lib div context.deviceVec) pieces
        (pieces.map fun piece => (dsOf piece).rawMap) :=
      List.forall₂_map_right_iff.mpr (List.forall₂_same.mpr fun piece hpiece =>
        (hdsOf piece hpiece).2.1)
    have h := tested_pieces hapart hholds hparts p.config.filterParam type
    rw [List.map_map] at h ⊢
    exact h
  have hwhole := withCapture_spec hcontext₁ hcontext hcache hds htest
  have hpiece := fun piece hpiece => withCapture_spec hcontext₁ hcontext hcache
    (hdsOf piece hpiece).1 (hdsOf piece hpiece).2.2
  refine ⟨hwhole.1.trans ⟨?_, ?_⟩, ?_⟩
  · rintro ⟨trainDataset, trained, htrain, htrained, hreported⟩ piece hmem
    refine (hpiece piece hmem).1.mpr ⟨trainDataset, trained, htrain, htrained, fun b hb => ?_⟩
    refine hreported b (hperm.mem_iff.mpr (List.mem_flatten.mpr ⟨_, ?_, hb⟩))
    exact List.mem_map_of_mem (List.mem_map_of_mem hmem)
  · intro hall
    obtain ⟨first, hfirst⟩ := List.exists_mem_of_ne_nil pieces hne
    obtain ⟨trainDataset, trained, htrain, htrained, -⟩ :=
      (hpiece first hfirst).1.mp (hall first hfirst)
    refine ⟨trainDataset, trained, htrain, htrained, fun b hb => ?_⟩
    obtain ⟨blocks, hblocks, hb⟩ := List.mem_flatten.mp (hperm.mem_iff.mp hb)
    rw [List.map_map] at hblocks
    obtain ⟨piece, hmem, rfl⟩ := List.mem_map.mp hblocks
    obtain ⟨trainDataset', trained', htrain', htrained', hreported⟩ :=
      (hpiece piece hmem).1.mp (hall piece hmem)
    obtain rfl := Except.ok.inj (htrain.symm.trans htrain')
    obtain rfl := Except.ok.inj (htrained.symm.trans htrained')
    exact hreported b hb
  · intro whole parts hrun hparts
    obtain ⟨trainDataset, trained, htrain, htrained, -⟩ := hwhole.1.mp ⟨whole, hrun⟩
    refine combined_of_confusion (hwhole.2 whole hrun trainDataset trained htrain htrained)
      ?_ hperm
    rw [List.map_map, List.forall₂_map_left_iff, List.forall₂_map_right_iff]
    refine CheckedLoop.forall₂_of_mapM_ok hparts fun piece hmem r hr => ?_
    exact (hpiece piece hmem).2 r hr trainDataset trained htrain htrained

/-! ## One lamp -/

section Lamp

/-- A table of one cell, and a window around a burst that has no cells. -/
noncomputable def noWindow : Config ℝ where
  divisionParam := { burstMaxUnisig := 1, burstMaxPacketIndex := 1 }
  trainParam := { enableMergeIdentical := false }
  classifyParam := { unisigRange := 0 }

/-- A process that has registered nothing yet. -/
noncomputable def lampProcess : Process ℝ where
  config := noWindow

/-- In the first year there is one block of the lamp. -/
def lamp2020 : Experiment where
  cfg := []
  info := {}
  deviceMappings := some ["name,address", "lamp,10.0.0.2"]
  burstDataset := some (oneDevice 1)

/-- The second year brings no new devices. -/
def lamp2021 : Experiment where
  cfg := []
  info := {}
  deviceMappings := some ["name,address"]

/-- A packet of the lamp. -/
def lampPacket (tvSec : ℤ) : KPacket := ⟨0, 100, 7, ⟨tvSec, 0⟩⟩

/-- The block of a packet of the lamp. -/
def lampBlockAt (tvSec : ℤ) : BurstBlock :=
  [⟨1, 1, "lamp", ⟨tvSec, 0⟩, ⟨tvSec, 0⟩, [(100, 1)]⟩]

def lampRegistered : Context where
  allDevices := AList.insert "lamp" ⟨true, 0, "lamp", "lamp", "00:00:00:00:00:00", "10.0.0.2"⟩ ∅
  addressMap := AList.insert "10.0.0.2"
    ⟨true, 0, "lamp", "lamp", "00:00:00:00:00:00", "10.0.0.2"⟩ ∅
  deviceVec := [⟨true, 0, "lamp", "lamp", "00:00:00:00:00:00", "10.0.0.2"⟩]
  count := 1

/-- No burst is near the burst of a packet. -/
def lampPolicyAt (tvSec : ℤ) : BurstGroupPolicy ℝ where
  testGroup := lampBlockAt tvSec
  vPredictNames := [stringSet []]
  vPredictTrains := [[]]
  vDistance := [100]

/-- Its block is predicted as a block of the only device. -/
theorem judge_lamp (classifier : KBurstClassifier) (statics : PolicyStatics) (tvSec : ℤ) :
    (PredictEnv.ofCall .insertion (longTermConfig noWindow) lampRegistered classifier
      statics).judge (lampBlockAt tvSec) =
        .ok { lampPolicyAt tvSec with rankedGroup := [(1, "lamp")], prediction := "lamp" } := by
  let env : PredictEnv ℝ :=
    .ofCall .insertion (longTermConfig noWindow) lampRegistered classifier statics
  have hsearch : env.search ⟨1, 1, "lamp", ⟨tvSec, 0⟩, ⟨tvSec, 0⟩, [(100, 1)]⟩ =
    .ok ⟨100, []⟩ := rfl
  have hadd : ({ testGroup := lampBlockAt tvSec } : BurstGroupPolicy ℝ).addBurstPrediction
      ⟨100, []⟩ = .ok (lampPolicyAt tvSec) := by
    refine CheckedLoop.bind_eq_ok.mpr ⟨_, rfl, ?_⟩
    exact if_pos (by norm_num)
  have hpolicy : policyOf env (lampBlockAt tvSec) = .ok (lampPolicyAt tvSec) := by
    refine CheckedLoop.bind_eq_ok.mpr ⟨lampPolicyAt tvSec, ?_, rfl⟩
    exact CheckedLoop.bind_eq_ok.mpr ⟨_, hsearch, hadd⟩
  exact CheckedLoop.bind_eq_ok.mpr ⟨_, hpolicy, rfl⟩

/-- The experiment with one packet goes through. -/
theorem withCapture_lamp {tvSec : ℤ} (hsec : 0 ≤ tvSec ∧ tvSec < 2 ^ 63)
    (hblocks : deviceBlocks .insertion (longTermConfig noWindow).divisionParam
      lampRegistered.deviceVec [lampPacket tvSec] 0 = [lampBlockAt tvSec]) :
    ∃ r, ncsuLongTermExperiment .insertion canonicalPcapPlusPlus lampProcess lamp2020
      (withCapture lamp2021 [lampPacket tvSec]) = .ok r := by
  have hreg : ∀ q ∈ [lampPacket tvSec], q.deviceId.toNat < lampRegistered.deviceVec.length :=
    fun q hq => by
      rw [List.mem_singleton.mp hq]
      exact Nat.zero_lt_one
  let div := (longTermConfig noWindow).divisionParam
  have hslot : div.timeslot ≠ 0 := show (1800 : UInt16) ≠ 0 by decide
  have hpercent : lampProcess.config.trainParam.trainPercent ≤ 100 :=
    show ({} : TrainParam).trainPercent ≤ 100 by decide
  obtain ⟨ds, hds, hholds⟩ := fromPktDataset_spec .insertion hslot hpercent
    (List.cons_ne_nil (lampPacket tvSec) [])
    (fun q hq => by rw [List.mem_singleton.mp hq]; exact hsec) hreg
  have htest : TestSet lampRegistered (typeOf lampRegistered.deviceVec) ds.rawMap :=
    hholds.testSet hreg (show 1 < 2 ^ 31 by decide)
  -- the training with the first year
  have hgoes : (do
      let trainDataset ← getBurstDataset .insertion (longTermConfig noWindow) lampRegistered
        lamp2020
      Classifier.train .insertion (longTermConfig noWindow) {} trainDataset.rawMap).isOk =
        true := by
    decide +kernel
  obtain ⟨trained, htrained⟩ := CheckedLoop.exists_of_isOk hgoes
  obtain ⟨trainDataset, htrain, htrained⟩ := CheckedLoop.bind_eq_ok.mp htrained
  refine (withCapture_spec (p := lampProcess) rfl rfl rfl hds htest).1.mpr
    ⟨trainDataset, trained, htrain, htrained, fun b hb => ?_⟩
  -- the only block is the one of the packet
  obtain ⟨d, blocks, hd, hmem, -, htype⟩ := mem_tested.mp hb
  obtain ⟨q, hq, hdevice⟩ := hholds.exists_packet (UnorderedMap.mem_of_lookup hd)
  obtain rfl : d = 0 := by
    rw [← hdevice, List.mem_singleton.mp hq]
    rfl
  have hblock : b.2 = lampBlockAt tvSec := by
    have hperm := hholds.perm 0
    rw [hd, Option.getD_some, hblocks] at hperm
    exact List.mem_singleton.mp (hperm.mem_iff.mp hmem)
  have hjudge := judge_lamp trained.1 trained.2 tvSec
  rw [← hblock] at hjudge
  refine ⟨_, hjudge, Or.inl (decide_eq_true ⟨?_, ?_⟩)⟩
  · exact (verdict_of_judge hjudge).trans (congrArg some htype)
  · rw [← htype]
    decide

/-- The second year is predicted half an hour at a time. -/
theorem longTerm_pieces_lamp : ∃ whole parts,
    ncsuLongTermExperiment .insertion canonicalPcapPlusPlus lampProcess lamp2020
        (withCapture lamp2021 [lampPacket 1, lampPacket 1801]) = .ok whole ∧
      [[lampPacket 1], [lampPacket 1801]].mapM (fun piece =>
        ncsuLongTermExperiment .insertion canonicalPcapPlusPlus lampProcess lamp2020
          (withCapture lamp2021 piece)) = .ok parts ∧
      Combined (parts.map Prod.snd) whole.2 := by
  have hapart : Apart (longTermConfig lampProcess.config).divisionParam
      [[lampPacket 1], [lampPacket 1801]] := by
    show Apart { ({} : DivisionParam) with
      burstMaxUnisig := 1, burstMaxPacketIndex := 1, timeslot := 1800 } _
    unfold Apart Converter.Disjoint
    decide
  have hpercent : lampProcess.config.trainParam.trainPercent ≤ 100 :=
    show ({} : TrainParam).trainPercent ≤ 100 by decide
  have hpiece : ∀ piece ∈ [[lampPacket 1], [lampPacket 1801]], ∃ r,
      ncsuLongTermExperiment .insertion canonicalPcapPlusPlus lampProcess lamp2020
        (withCapture lamp2021 piece) = .ok r := by
    intro piece hmem
    rcases List.mem_pair.mp hmem with rfl | rfl
    · exact withCapture_lamp (by decide) (by decide +kernel)
    · exact withCapture_lamp (by decide) (by decide +kernel)
  obtain ⟨hiff, hcounts⟩ := longTerm_pieces .insertion canonicalPcapPlusPlus lampProcess lamp2020
    lamp2021 rfl rfl rfl hpercent (by decide) (by decide) (by decide) (by decide) (by decide)
    hapart
  obtain ⟨whole, hwhole⟩ := hiff.mpr hpiece
  obtain ⟨parts, hparts⟩ := CheckedLoop.mapM_ok hpiece
  exact ⟨whole, parts, hwhole, hparts, hcounts whole parts hwhole hparts⟩

end Lamp

end Process

end BurstIoT
