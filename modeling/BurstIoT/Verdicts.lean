import BurstIoT.PlainPrediction

/-!
# The verdicts of a prediction

A prediction asks a cache, cuts the blocks of a device into chunks, gives each chunk to a task and
goes over the devices in the order of a hash map.  None of this can be seen in the counts of its
score.  The bursts of a block vote with their own nearest bursts, the policy of the block decides,
and the type of the decision is the verdict on the block (`PredictEnv.verdict`); a sheet counts the
tested blocks by their true type and their verdict (`Confusion`).

A prediction goes through exactly when each tested block is judged (`predict_ok_iff`), and then it
counts the verdicts (`confusion_of_ok`).
-/

namespace BurstIoT
namespace Classifier

variable {F : Type} [Field F] [LinearOrder F] [Elementary F]

/-! ## The verdict on a block -/

/-- The policy of a block, with its prediction. -/
def PredictEnv.judge (env : PredictEnv F) (block : BurstBlock) :
    Except Fault (BurstGroupPolicy F) := do
  let predictDevice ← policyOf env block
  env.decide predictDevice

/-- The type that is predicted for a block. -/
def PredictEnv.verdict (env : PredictEnv F) (block : BurstBlock) : Option String :=
  match env.judge block with
  | .ok predict => some (removeSuffix predict.prediction)
  | .error _ => none

/-- The type of the front burst of a block. -/
def frontType (block : BurstBlock) : Option String :=
  block.head?.map fun burst => removeSuffix burst.instanceLabel

/-- The blocks of a device that are tested, with their type. -/
def testedOf (filter : FilterParam) (type : String) (blocks : List BurstBlock) :
    List (String × BurstBlock) :=
  (blocks.filter (passes filter)).map (type, ·)

/-- The blocks of a test set that are tested. -/
def tested (lib : StdLib) (filter : FilterParam) (type : UInt16 → String)
    (testset : UnorderedMap UInt16 (List BurstBlock)) : List (String × BurstBlock) :=
  (lib.iterate testset).flatMap fun e => testedOf filter (type e.1) e.2

theorem testedOf_append (filter : FilterParam) (type : String) (blocks blocks' : List BurstBlock) :
    testedOf filter type (blocks ++ blocks') =
      testedOf filter type blocks ++ testedOf filter type blocks' := by
  rw [testedOf, List.filter_append, List.map_append]
  rfl

/-- A block whose type is predicted. -/
def isHit (env : PredictEnv F) (b : String × BurstBlock) : Bool :=
  decide (env.verdict b.2 = some b.1 ∧ b.1 ≠ "unreliable")

/-- The policy of a block that is missed or wrong. -/
def errOf (env : PredictEnv F) (b : String × BurstBlock) : Option (BurstGroupPolicy F) :=
  if isHit env b then none else (env.judge b.2).toOption

/-- **A score that counts verdicts**: the blocks of a type that are missed, right and wrong, and the
blocks of other types that are taken for one of it. -/
structure Confusion (env : PredictEnv F) (blocks : List (String × BurstBlock)) (score : Score F) :
    Prop where
  missNum : ∀ type, (score.sheetOf type).missNum =
    blocks.countP fun b => b.1 = type ∧ env.verdict b.2 = some "unreliable"
  TP : ∀ type, (score.sheetOf type).TP =
    blocks.countP fun b => b.1 = type ∧ env.verdict b.2 = some type ∧ type ≠ "unreliable"
  FN : ∀ type, (score.sheetOf type).FN =
    blocks.countP fun b => b.1 = type ∧ env.verdict b.2 ≠ some type ∧
      env.verdict b.2 ≠ some "unreliable"
  FP : ∀ type, (score.sheetOf type).FP =
    blocks.countP fun b => b.1 ≠ type ∧ env.verdict b.2 = some type ∧ type ≠ "unreliable"
  errBurstGroups : score.errBurstGroups.Perm (blocks.filterMap (errOf env))

variable {env : PredictEnv F} {done : List (String × BurstBlock)} {score : Score F}

theorem Confusion.nil : Confusion env [] ({} : Score F) where
  missNum := fun _ => rfl
  TP := fun _ => rfl
  FN := fun _ => rfl
  FP := fun _ => rfl
  errBurstGroups := .nil

/-- A new average. -/
theorem Confusion.updateAvg (h : Confusion env done score) (type : String) (num : ℕ) :
    Confusion env done
      (score.updateSheet type fun sheet => { sheet with pktAvgNum := num }) where
  missNum := fun type' => by
    rw [Score.sheetOf_updateSheet, ← h.missNum]
    split_ifs <;> rfl
  TP := fun type' => by
    rw [Score.sheetOf_updateSheet, ← h.TP]
    split_ifs <;> rfl
  FN := fun type' => by
    rw [Score.sheetOf_updateSheet, ← h.FN]
    split_ifs <;> rfl
  FP := fun type' => by
    rw [Score.sheetOf_updateSheet, ← h.FP]
    split_ifs <;> rfl
  errBurstGroups := h.errBurstGroups

theorem verdict_of_judge {block : BurstBlock} {predict : BurstGroupPolicy F}
    (h : env.judge block = .ok predict) :
    env.verdict block = some (removeSuffix predict.prediction) := by
  rw [PredictEnv.verdict, h]

/-- The policies that a prediction pushes. -/
theorem errBurstGroups_addPredicted (score : Score F) {trueLabel : String} {block : BurstBlock}
    {predict : BurstGroupPolicy F} (h : env.judge block = .ok predict) (index : ℕ) :
    (score.addPredicted trueLabel predict index).errBurstGroups =
      score.errBurstGroups ++ (errOf env (removeSuffix trueLabel, block)).toList := by
  rw [errOf, isHit, verdict_of_judge h, h, Score.addPredicted]
  dsimp only
  by_cases hmiss : removeSuffix predict.prediction = "unreliable"
  · rw [if_pos hmiss, if_neg]
    · rfl
    · rw [hmiss, decide_eq_true_eq]
      rintro ⟨heq, hne⟩
      exact hne (Option.some_inj.mp heq).symm
  rw [if_neg hmiss]
  by_cases hright : removeSuffix predict.prediction = removeSuffix trueLabel
  · rw [if_pos hright, if_pos]
    · exact (List.append_nil _).symm
    · rw [hright, decide_eq_true_eq]
      exact ⟨rfl, hright ▸ hmiss⟩
  · rw [if_neg hright, if_neg]
    · rfl
    · rw [decide_eq_true_eq]
      exact fun hhit => hright (Option.some_inj.mp hhit.1)

/-! ## What a prediction counts for -/

/-- One more element, which counts when a name is given. -/
theorem countP_concat {α : Type} {P : α → Prop} [DecidablePred P] {x : α} {o : Option String}
    {type : String} (h : o = some type ↔ P x) (l : List α) :
    (l ++ [x]).countP (fun a => P a) = l.countP (fun a => P a) + o.toList.count type := by
  rw [List.countP_append, List.countP_singleton]
  by_cases hx : P x
  · rw [h.mpr hx, if_pos (decide_eq_true hx), Option.toList_some, List.count_singleton_self]
  · rw [if_neg (by simpa using hx)]
    cases o with
    | none => rfl
    | some name =>
      have hne : type ≠ name := fun heq => hx (h.mp (heq ▸ rfl))
      rw [Option.toList_some, List.count_eq_zero_of_not_mem fun hmem =>
        hne (List.mem_singleton.mp hmem)]

section Outcomes

variable (trueLabel prediction : String) (index : ℕ) (type : String)

theorem missType_ofPrediction :
    (Outcome.ofPrediction trueLabel prediction index).missType = some type ↔
      removeSuffix trueLabel = type ∧ removeSuffix prediction = "unreliable" := by
  rw [Outcome.ofPrediction]
  split_ifs <;> grind [Outcome.missType]

theorem truePositive_ofPrediction :
    (Outcome.ofPrediction trueLabel prediction index).truePositive = some type ↔
      removeSuffix trueLabel = type ∧ removeSuffix prediction = type ∧ type ≠ "unreliable" := by
  rw [Outcome.ofPrediction]
  split_ifs <;> grind [Outcome.truePositive]

theorem falseNegative_ofPrediction :
    (Outcome.ofPrediction trueLabel prediction index).falseNegative = some type ↔
      removeSuffix trueLabel = type ∧ removeSuffix prediction ≠ type ∧
        removeSuffix prediction ≠ "unreliable" := by
  rw [Outcome.ofPrediction]
  split_ifs <;> grind [Outcome.falseNegative]

theorem falsePositive_ofPrediction :
    (Outcome.ofPrediction trueLabel prediction index).falsePositive = some type ↔
      removeSuffix trueLabel ≠ type ∧ removeSuffix prediction = type ∧ type ≠ "unreliable" := by
  rw [Outcome.ofPrediction]
  split_ifs <;> grind [Outcome.falsePositive]

end Outcomes

/-- **One more prediction** counts the verdict on its block. -/
theorem Confusion.addPredicted (h : Confusion env done score) {trueLabel : String}
    {block : BurstBlock} {predict : BurstGroupPolicy F} (hjudge : env.judge block = .ok predict)
    (index : ℕ) : Confusion env (done ++ [(removeSuffix trueLabel, block)])
      (score.addPredicted trueLabel predict index) := by
  have hrec := score.recorded_addPredicted trueLabel predict index
  have hverdict := verdict_of_judge hjudge
  refine ⟨fun type => ?_, fun type => ?_, fun type => ?_, fun type => ?_, ?_⟩
  · rw [hrec.sheetOf, Outcome.missNum_effect, h.missNum]
    refine (countP_concat ?_ done).symm
    rw [missType_ofPrediction, hverdict, Option.some_inj]
  · rw [hrec.sheetOf, Outcome.TP_effect, h.TP]
    refine (countP_concat ?_ done).symm
    rw [truePositive_ofPrediction, hverdict, Option.some_inj]
  · rw [hrec.sheetOf, Outcome.FN_effect, h.FN]
    refine (countP_concat ?_ done).symm
    rw [falseNegative_ofPrediction, hverdict, ne_eq, ne_eq, ne_eq, ne_eq, Option.some_inj,
      Option.some_inj]
  · rw [hrec.sheetOf, Outcome.FP_effect, h.FP]
    refine (countP_concat ?_ done).symm
    rw [falsePositive_ofPrediction, hverdict, Option.some_inj]
  · rw [errBurstGroups_addPredicted score hjudge, List.filterMap_append]
    refine h.errBurstGroups.append (List.Perm.of_eq ?_)
    cases herr : errOf env (removeSuffix trueLabel, block) with
    | none => rw [List.filterMap_cons_none herr]; rfl
    | some predict => rw [List.filterMap_cons_some herr]; rfl

/-! ## A prediction goes through -/

/-- The variables of a task between two blocks. -/
def Counting (env : PredictEnv F) (done : List (String × BurstBlock))
    (s : Score F × PredictionCache F) : Prop :=
  Confusion env done s.1 ∧ env.RightCache s.2

/-- The blocks of a device have a front burst, of the type of the device. -/
def Labelled (type : String) (blocks : List BurstBlock) : Prop :=
  ∀ block ∈ blocks, frontType block = some type

/-- The blocks of a device that pass the filter are judged. -/
def Judged (env : PredictEnv F) (blocks : List BurstBlock) : Prop :=
  ∀ block ∈ blocks, passes env.cfg.filterParam block = true →
    ∃ predict, env.judge block = .ok predict

theorem votes_ok (bursts : List Burst) {predictDevice policy : BurstGroupPolicy F}
    {cache : PredictionCache F} (hcache : env.RightCache cache)
    (h : bursts.foldlM (addNearest env) predictDevice = .ok policy) :
    ∃ cache', bursts.foldlM (fun s burst => do
        let (nearest, cache) ← Prediction.predictBurst env.lib env.cfg.divisionParam
          env.cfg.classifyParam env.train s.2 burst
        let predictDevice ← s.1.addBurstPrediction nearest
        return (predictDevice, cache)) (predictDevice, cache) = .ok (policy, cache') ∧
      env.RightCache cache' := by
  induction bursts generalizing predictDevice cache with
  | nil =>
    cases h
    exact ⟨cache, rfl, hcache⟩
  | cons b bursts ih =>
    obtain ⟨voted, hvote, hrest⟩ := CheckedLoop.bind_eq_ok.mp h
    obtain ⟨nearest, hsearch, hvote⟩ := CheckedLoop.bind_eq_ok.mp hvote
    rcases Prediction.predictBurst_eq hcache b with ⟨n, cache₁, hpredict, hsearch', hright⟩ |
      ⟨fault, -, herror⟩
    · obtain rfl : nearest = n := Except.ok.inj (hsearch.symm.trans hsearch')
      obtain ⟨cache', hrun, hright'⟩ := ih hright hrest
      refine ⟨cache', CheckedLoop.bind_eq_ok.mpr ⟨(voted, cache₁), ?_, hrun⟩, hright'⟩
      refine CheckedLoop.bind_eq_ok.mpr ⟨_, hpredict, ?_⟩
      exact CheckedLoop.bind_eq_ok.mpr ⟨voted, hvote, rfl⟩
    · cases hsearch.symm.trans herror

/-- **The policy of a block does not depend on the cache.** -/
theorem predictBurstGroup_ok {cache : PredictionCache F} (hcache : env.RightCache cache)
    {burstGroup : BurstBlock} {policy : BurstGroupPolicy F}
    (h : policyOf env burstGroup = .ok policy) :
    ∃ cache', predictBurstGroup env.lib env.cfg env.train cache burstGroup =
      .ok (policy, cache') ∧ env.RightCache cache' :=
  votes_ok burstGroup hcache h

/-- **The blocks of a task.** -/
theorem predictBlocks_counting {type trueDevice : String} (htrue : removeSuffix trueDevice = type)
    {blocks : List BurstBlock} (hblocks : Judged env blocks)
    {s : Score F × PredictionCache F × ℕ} (hs : Counting env done (s.1, s.2.1)) :
    ∃ s', blocks.foldlM (predictBlock env trueDevice) s = .ok s' ∧
      Counting env (done ++ testedOf env.cfg.filterParam type blocks) (s'.1, s'.2.1) := by
  refine CheckedLoop.foldlM_ok (I := fun met (s : Score F × PredictionCache F × ℕ) =>
    Counting env (done ++ testedOf env.cfg.filterParam type met) (s.1, s.2.1))
    (fun met block rest hall s hs => ?_) ?_
  · have hblock : block ∈ blocks := by
      rw [hall]
      exact List.mem_append_right _ List.mem_cons_self
    rw [testedOf_append, ← List.append_assoc]
    by_cases hfilter : toInt (blockPktNum block) < env.cfg.filterParam.minBlockPktnum.toNat
    · have hnone : testedOf env.cfg.filterParam type [block] = [] := by
        rw [testedOf, List.filter_cons_of_neg (by simpa [passes] using hfilter)]
        rfl
      rw [hnone, List.append_nil]
      exact ⟨s, if_pos hfilter, hs⟩
    · have hpasses : passes env.cfg.filterParam block = true := by
        simpa [passes] using hfilter
      have hone : testedOf env.cfg.filterParam type [block] = [(type, block)] := by
        rw [testedOf, List.filter_cons_of_pos hpasses]
        rfl
      obtain ⟨predict, hjudge⟩ := hblocks block hblock hpasses
      obtain ⟨policy, hpolicy, hdecide⟩ := CheckedLoop.bind_eq_ok.mp hjudge
      obtain ⟨cache', hrun, hright⟩ := predictBurstGroup_ok hs.2 hpolicy
      have hnext : Confusion env (_ ++ [(removeSuffix trueDevice, block)])
        (s.1.addPredicted trueDevice predict s.2.2) := hs.1.addPredicted hjudge s.2.2
      rw [htrue] at hnext
      rw [hone]
      refine ⟨(s.1.addPredicted trueDevice predict s.2.2, cache', s.2.2 + 1), ?_, hnext, hright⟩
      rw [predictBlock, if_neg hfilter]
      refine CheckedLoop.bind_eq_ok.mpr ⟨(policy, cache'), hrun, ?_⟩
      refine CheckedLoop.bind_eq_ok.mpr ⟨s.1.addPredicted trueDevice predict s.2.2, ?_, rfl⟩
      exact CheckedLoop.bind_eq_ok.mpr ⟨predict, hdecide, rfl⟩
  · rw [testedOf, List.filter_nil, List.map_nil, List.append_nil]
    exact hs

/-- **A task.** -/
theorem predictGroups_counting {type : String} {blocks : List BurstBlock} (hne : blocks ≠ [])
    (hlabel : Labelled type blocks) (hblocks : Judged env blocks)
    {s : Score F × PredictionCache F} (hs : Counting env done s) (index : ℕ) :
    ∃ s', predictGroups env s blocks index = .ok s' ∧
      Counting env (done ++ testedOf env.cfg.filterParam type blocks) s' := by
  obtain ⟨group, rest, rfl⟩ := List.exists_cons_of_ne_nil hne
  obtain ⟨burst, hburst, htrue⟩ :=
    Option.map_eq_some_iff.mp (hlabel group List.mem_cons_self)
  obtain ⟨later, rfl⟩ := List.head?_eq_some_iff.mp hburst
  obtain ⟨s', hloop, hs'⟩ := predictBlocks_counting htrue hblocks (s := (s.1, s.2, index)) hs
  refine ⟨(s'.1, s'.2.1), ?_, hs'⟩
  refine CheckedLoop.bind_eq_ok.mpr ⟨burst :: later, rfl, ?_⟩
  refine CheckedLoop.bind_eq_ok.mpr ⟨burst, rfl, ?_⟩
  exact CheckedLoop.bind_eq_ok.mpr ⟨s', hloop, rfl⟩

/-- **The tasks of a device.** -/
theorem predictChunks_counting {e : ℕ} (he : 0 < e) (hroom : e < 2 ^ 31) {type : String}
    {blocks : List BurstBlock} (hlen : blocks.length < 2 ^ 31) (hlabel : Labelled type blocks)
    (hblocks : Judged env blocks) {s : Score F × PredictionCache F} (hs : Counting env done s) :
    ∃ s', predictChunks env e s blocks = .ok s' ∧
      Counting env (done ++ testedOf env.cfg.filterParam type blocks) s' := by
  obtain ⟨chunks, hsplit, hflat, -, -⟩ := exists_deviceTasks hlen he hroom
  have hchunk : ∀ c ∈ chunks.zipIdx, c.1 ≠ [] ∧ ∀ block ∈ c.1, block ∈ blocks := by
    intro c hc
    have hmem : c.1 ∈ chunks := List.fst_mem_of_mem_zipIdx hc
    obtain ⟨k, hk⟩ := List.mem_iff_getElem?.mp hmem
    refine ⟨(chunk_of_splitVector hlen he hroom hsplit hk).1, fun block hblock => ?_⟩
    rw [← hflat]
    exact List.mem_flatten.mpr ⟨c.1, hmem, hblock⟩
  have hdone : chunks.zipIdx.flatMap Prod.fst = blocks := by
    rw [List.flatMap_def, List.zipIdx_map_fst, hflat]
  rw [predictChunks, hsplit]
  show ∃ s', chunks.zipIdx.foldlM (fun s c => predictGroups env s c.1 (c.2 * e)) s = .ok s' ∧ _
  rw [← hdone]
  refine CheckedLoop.foldlM_ok (I := fun met s =>
    Counting env (done ++ testedOf env.cfg.filterParam type (met.flatMap Prod.fst)) s)
    (fun met c rest hall s hs => ?_) ?_
  · have hc : c ∈ chunks.zipIdx := by
      rw [hall]
      exact List.mem_append_right _ List.mem_cons_self
    obtain ⟨hne, hsub⟩ := hchunk c hc
    rw [List.flatMap_append, List.flatMap_singleton, testedOf_append, ← List.append_assoc]
    exact predictGroups_counting hne (fun block hblock => hlabel block (hsub block hblock))
      (fun block hblock => hblocks block (hsub block hblock)) hs (c.2 * e)
  · rw [List.flatMap_nil, testedOf, List.filter_nil, List.map_nil, List.append_nil]
    exact hs

/-- **A device.** -/
theorem predictOneDevice_counting {e : ℕ} (he : 0 < e) (hroom : e < 2 ^ 31) {type : String}
    {deviceId : UInt16} (hid : deviceId.toNat < env.context.deviceVec.length)
    {blocks : List BurstBlock} (hlen : blocks.length < 2 ^ 31) (hlabel : Labelled type blocks)
    (hblocks : Judged env blocks) {s : Score F × PolicyStatics × PredictionCache F}
    (hs : Counting env done (s.1, s.2.2)) :
    ∃ s', predictOneDevice env e s deviceId blocks = .ok s' ∧
      Counting env (done ++ testedOf env.cfg.filterParam type blocks) (s'.1, s'.2.2) := by
  obtain ⟨score, statics, cache⟩ := s
  let addrAvgPktMap := statics.addrAvgPktMap.update deviceId 0 id
  let averaged := score.updateSheet
    (removeSuffix env.context.deviceVec[deviceId.toNat].instanceName)
    fun sheet => { sheet with pktAvgNum := (addrAvgPktMap.lookup deviceId).getD 0 }
  have haverage : score.addPktAvgNum env.context deviceId
      ((addrAvgPktMap.lookup deviceId).getD 0) = .ok averaged :=
    CheckedLoop.bind_eq_ok.mpr ⟨_, at?_of_lt hid, rfl⟩
  obtain ⟨s', hchunks, hs'⟩ := predictChunks_counting he hroom hlen hlabel hblocks
    (s := (averaged, cache)) ⟨hs.1.updateAvg _ _, hs.2⟩
  refine ⟨(s'.1, { statics with addrAvgPktMap }, s'.2), ?_, hs'⟩
  refine CheckedLoop.bind_eq_ok.mpr ⟨averaged, haverage, ?_⟩
  exact CheckedLoop.bind_eq_ok.mpr ⟨s', hchunks, rfl⟩

/-- What is asked of a test set: its devices are registered, and have fewer blocks than an `int` can
count, with front bursts of their type. -/
structure TestSet (context : Context) (type : UInt16 → String)
    (testset : UnorderedMap UInt16 (List BurstBlock)) : Prop where
  registered : ∀ d ∈ testset, d.toNat < context.deviceVec.length
  length_lt : ∀ d blocks, testset.lookup d = some blocks → blocks.length < 2 ^ 31
  labelled : ∀ d blocks, testset.lookup d = some blocks → Labelled (type d) blocks

section Predict

variable {lib : StdLib} {cfg : Config F} {context : Context} {classifier : KBurstClassifier}
  {statics : PolicyStatics} {cache : PredictionCache F}
  {testset : UnorderedMap UInt16 (List BurstBlock)} {type : UInt16 → String}

/-- **A prediction whose blocks are judged** goes through, and counts the verdicts. -/
theorem predict_of_judged (htest : TestSet context type testset)
    (hcache : (PredictEnv.ofCall lib cfg context classifier statics).RightCache cache)
    (hslot : 1 ≤ cfg.divisionParam.timeslot.toNat)
    (hmax : cfg.divisionParam.timeslot.toNat ≤ epochTimeslot * 3600)
    (hjudged : ∀ d blocks, testset.lookup d = some blocks →
      Judged (.ofCall lib cfg context classifier statics) blocks) :
    ∃ s, predict lib cfg context classifier statics cache testset = .ok s ∧
      Confusion (.ofCall lib cfg context classifier statics)
        (tested lib cfg.filterParam type testset) s.1 := by
  let env : PredictEnv F := .ofCall lib cfg context classifier statics
  obtain ⟨hpos, hroom⟩ := epochSlotNum_bounds hslot hmax
  have hdefined : ¬ (cfg.divisionParam.timeslot = 0 ∨
      (epochSlotNum cfg.divisionParam = 0 ∧ testset.keys ≠ [])) := by
    rintro (hzero | ⟨hzero, -⟩)
    · rw [hzero] at hslot
      exact absurd hslot (by decide)
    · omega
  rw [predict, if_neg hdefined]
  obtain ⟨s, hrun, hs⟩ : ∃ s, (lib.iterate testset).foldlM
      (fun s e => predictOneDevice env (epochSlotNum cfg.divisionParam) s e.1 e.2)
      ({}, statics, cache) = .ok s ∧
        Counting env (tested lib cfg.filterParam type testset) (s.1, s.2.2) := by
    let I : List (UInt16 × List BurstBlock) → Score F × PolicyStatics × PredictionCache F → Prop :=
      fun met s =>
        Counting env (met.flatMap fun e => testedOf cfg.filterParam (type e.1) e.2) (s.1, s.2.2)
    have hstart : I [] ({}, statics, cache) := ⟨.nil, hcache⟩
    refine CheckedLoop.foldlM_ok (I := I) (fun met e rest hall s hs => ?_) hstart
    have he : testset.lookup e.1 = some e.2 := by
      rw [← lib.mem_iterate, hall]
      exact List.mem_append_right _ List.mem_cons_self
    dsimp only [I]
    rw [List.flatMap_append, List.flatMap_singleton]
    exact predictOneDevice_counting hpos hroom
      (htest.registered e.1 (UnorderedMap.mem_of_lookup he)) (htest.length_lt e.1 e.2 he)
      (htest.labelled e.1 e.2 he) (hjudged e.1 e.2 he) hs
  exact ⟨s, hrun, hs.1⟩

/-! ### Only then -/

theorem judged_of_blockEvents {trueDevice : String} {blocks : List BurstBlock} {index : ℕ}
    {events : List (ScoreEvent F)} (h : blockEvents env trueDevice blocks index = .ok events) :
    Judged env blocks := by
  induction blocks generalizing index events with
  | nil => exact fun block hblock => absurd hblock List.not_mem_nil
  | cons burstGroup rest ih =>
    rw [blockEvents] at h
    intro block hblock hpasses
    split_ifs at h with hfilter
    · rcases List.mem_cons.mp hblock with rfl | hblock
      · exact absurd hfilter (by simpa [passes] using hpasses)
      · exact ih h block hblock hpasses
    · obtain ⟨policy, hpolicy, h⟩ := CheckedLoop.bind_eq_ok.mp h
      obtain ⟨predict, hpredict, h⟩ := CheckedLoop.bind_eq_ok.mp h
      obtain ⟨later, hlater, -⟩ := CheckedLoop.bind_eq_ok.mp h
      rcases List.mem_cons.mp hblock with rfl | hblock
      · exact ⟨predict, CheckedLoop.bind_eq_ok.mpr ⟨policy, hpolicy, hpredict⟩⟩
      · exact ih hlater block hblock hpasses

/-- The tasks that main starts for a device have its blocks. -/
theorem exists_start_of_mem {e : ℕ} (he : 0 < e) (hroom : e < 2 ^ 31)
    {addrAvgPktMap : UnorderedMap UInt16 ℕ} {d : UInt16} {blocks : List BurstBlock}
    {actions : List MainAction} (h : deviceActions e addrAvgPktMap (d, blocks) = .ok actions)
    {block : BurstBlock} (hblock : block ∈ blocks) :
    ∃ task, MainAction.start task ∈ actions ∧ block ∈ task.smallGroups := by
  rw [deviceActions] at h
  split at h
  · cases h
  · rename_i tasks htasks
    cases tasks with
    | error fault => cases h
    | ok tasks =>
      cases h
      obtain ⟨hlen, chunks, hsplit, -, rfl⟩ := chunks_of_deviceTasks he hroom htasks
      obtain ⟨chunks', hsplit', hflat, -, -⟩ := exists_deviceTasks hlen he hroom
      obtain rfl := Except.ok.inj (Option.some_inj.mp (hsplit.symm.trans hsplit'))
      have hblock : block ∈ chunks.flatten := by
        rw [hflat]
        exact hblock
      obtain ⟨chunk, hchunk, hmem⟩ := List.mem_flatten.mp hblock
      obtain ⟨k, hk⟩ := List.mem_iff_getElem?.mp hchunk
      refine ⟨⟨chunk, (k * e : ℕ)⟩, List.mem_cons_of_mem _ (List.mem_map_of_mem ?_), hmem⟩
      refine List.mem_map.mpr ⟨(chunk, k), ?_, rfl⟩
      exact List.mem_iff_getElem?.mpr ⟨k, by rw [List.getElem?_zipIdx, hk]; simp⟩

/-- A task that main starts has blocks of a device. -/
theorem exists_blocks_of_start {div : DivisionParam} (hslot : 1 ≤ div.timeslot.toNat)
    (hmax : div.timeslot.toNat ≤ epochTimeslot * 3600) {addrAvgPktMap : UnorderedMap UInt16 ℕ}
    {actions : List (List MainAction)}
    (h : mainActions lib div addrAvgPktMap testset = .ok actions) {task : PredictTask}
    (htask : MainAction.start task ∈ actions.flatten) :
    ∃ d blocks, testset.lookup d = some blocks ∧ ∀ block ∈ task.smallGroups, block ∈ blocks := by
  obtain ⟨he, hroom⟩ := epochSlotNum_bounds hslot hmax
  obtain ⟨own, hown, htask⟩ := List.mem_flatten.mp htask
  obtain ⟨⟨d, blocks⟩, hd, hdevice⟩ := CheckedLoop.exists_of_mem_mapM_ok h hown
  refine ⟨d, blocks, lib.mem_iterate.mp hd, ?_⟩
  rw [deviceActions] at hdevice
  split at hdevice
  · cases hdevice
  · rename_i tasks htasks
    cases tasks with
    | error fault => cases hdevice
    | ok tasks =>
      cases hdevice
      rcases List.mem_cons.mp htask with heq | htask
      · cases heq
      obtain ⟨task', htask, heq⟩ := List.mem_map.mp htask
      cases heq
      obtain ⟨hlen, chunks, hsplit, -, rfl⟩ := chunks_of_deviceTasks he hroom htasks
      obtain ⟨chunks', hsplit', hflat, -, -⟩ := exists_deviceTasks hlen he hroom
      obtain rfl := Except.ok.inj (Option.some_inj.mp (hsplit.symm.trans hsplit'))
      obtain ⟨c, hc, rfl⟩ := List.mem_map.mp htask
      have hflat : chunks.flatten = blocks := hflat
      intro block hblock
      rw [← hflat]
      exact List.mem_flatten.mpr ⟨c.1, List.fst_mem_of_mem_zipIdx hc, hblock⟩

/-- **A prediction that goes through** has judged its blocks. -/
theorem judged_of_predict (hlen : ∀ d blocks, testset.lookup d = some blocks →
      blocks.length < 2 ^ 31)
    (hcache : (PredictEnv.ofCall lib cfg context classifier statics).RightCache cache)
    (hslot : 1 ≤ cfg.divisionParam.timeslot.toNat)
    (hmax : cfg.divisionParam.timeslot.toNat ≤ epochTimeslot * 3600)
    {s : Score F × PolicyStatics × PredictionCache F}
    (h : predict lib cfg context classifier statics cache testset = .ok s) {d : UInt16}
    {blocks : List BurstBlock} (hd : testset.lookup d = some blocks) :
    Judged (.ofCall lib cfg context classifier statics) blocks := by
  obtain ⟨he, hroom⟩ := epochSlotNum_bounds hslot hmax
  obtain ⟨actions, events, hactions, hevents, -⟩ := predict_events hslot hmax hcache hlen h
  intro block hblock hpasses
  obtain ⟨own, hown, hdevice⟩ :=
    CheckedLoop.exists_of_mapM_ok hactions (lib.mem_iterate.mpr hd)
  obtain ⟨task, htask, hmem⟩ := exists_start_of_mem he hroom hdevice hblock
  obtain ⟨ownEvents, -, hgroup⟩ :=
    CheckedLoop.exists_of_mapM_ok hevents (List.mem_flatten.mpr ⟨own, hown, htask⟩)
  obtain ⟨burst, -, hblocks⟩ := CheckedLoop.bind_eq_ok.mp hgroup
  exact judged_of_blockEvents hblocks block hmem hpasses

theorem mem_tested {filter : FilterParam} {b : String × BurstBlock} :
    b ∈ tested lib filter type testset ↔ ∃ d blocks, testset.lookup d = some blocks ∧
      b.2 ∈ blocks ∧ passes filter b.2 = true ∧ type d = b.1 := by
  rw [tested, List.mem_flatMap]
  constructor
  · rintro ⟨⟨d, blocks⟩, he, hb⟩
    obtain ⟨block, hblock, rfl⟩ := List.mem_map.mp hb
    obtain ⟨hmem, hpasses⟩ := List.mem_filter.mp hblock
    exact ⟨d, blocks, lib.mem_iterate.mp he, hmem, hpasses, rfl⟩
  · rintro ⟨d, blocks, hd, hmem, hpasses, htype⟩
    refine ⟨(d, blocks), lib.mem_iterate.mpr hd, ?_⟩
    exact List.mem_map.mpr ⟨b.2, List.mem_filter.mpr ⟨hmem, hpasses⟩, Prod.ext htype rfl⟩

/-- **A prediction goes through exactly when its blocks are judged.** -/
theorem predict_ok_iff (htest : TestSet context type testset)
    (hcache : (PredictEnv.ofCall lib cfg context classifier statics).RightCache cache)
    (hslot : 1 ≤ cfg.divisionParam.timeslot.toNat)
    (hmax : cfg.divisionParam.timeslot.toNat ≤ epochTimeslot * 3600) :
    (∃ s, predict lib cfg context classifier statics cache testset = .ok s) ↔
      ∀ b ∈ tested lib cfg.filterParam type testset, ∃ predict,
        (PredictEnv.ofCall lib cfg context classifier statics).judge b.2 = .ok predict := by
  constructor
  · rintro ⟨s, hs⟩ b hb
    obtain ⟨d, blocks, hd, hmem, hpasses, -⟩ := mem_tested.mp hb
    exact judged_of_predict htest.length_lt hcache hslot hmax hs hd b.2 hmem hpasses
  · intro hjudged
    obtain ⟨s, hs, -⟩ := predict_of_judged htest hcache hslot hmax
      fun d blocks hd block hmem hpasses =>
        hjudged (type d, block) (mem_tested.mpr ⟨d, blocks, hd, hmem, hpasses, rfl⟩)
    exact ⟨s, hs⟩

/-- **A prediction that goes through** counts the verdicts. -/
theorem confusion_of_ok (htest : TestSet context type testset)
    (hcache : (PredictEnv.ofCall lib cfg context classifier statics).RightCache cache)
    (hslot : 1 ≤ cfg.divisionParam.timeslot.toNat)
    (hmax : cfg.divisionParam.timeslot.toNat ≤ epochTimeslot * 3600)
    {s : Score F × PolicyStatics × PredictionCache F}
    (h : predict lib cfg context classifier statics cache testset = .ok s) :
    Confusion (.ofCall lib cfg context classifier statics)
      (tested lib cfg.filterParam type testset) s.1 := by
  obtain ⟨s', hs', hcounts⟩ := predict_of_judged htest hcache hslot hmax
    fun d blocks hd => judged_of_predict htest.length_lt hcache hslot hmax h hd
  obtain rfl := Except.ok.inj (h.symm.trans hs')
  exact hcounts

end Predict

end Classifier
end BurstIoT
