import BurstIoT.PredictionTasks
import BurstIoT.ScoreLog

/-!
# A prediction without its cache

What `Predict` does to its score, told without the cache and without the tasks: for each device an
average, and for each block that passes the filter the prediction that its bursts' own searches lead
to (`groupEvents`).  The main thread sets the averages and starts the tasks (`MainAction`).

The model of `Predict` runs the tasks one after another and asks the cache; its score shows these
events, in the order of the actions (`predict_events`).
-/

namespace BurstIoT
namespace Classifier

variable {F : Type} [Field F] [LinearOrder F] [Elementary F]

section Events

variable (env : PredictEnv F)

/-- The search for a test burst. -/
def PredictEnv.search (testBurst : Burst) : Except Fault (Nearest F) :=
  Prediction.search env.cfg.divisionParam env.cfg.classifyParam env.train testBurst

/-- One iteration of `PredictBurstGroup`. -/
def addNearest (predictDevice : BurstGroupPolicy F) (testBurst : Burst) :
    Except Fault (BurstGroupPolicy F) := do
  let nearest ← env.search testBurst
  predictDevice.addBurstPrediction nearest

/-- The policy of a block. -/
def policyOf (burstGroup : BurstBlock) : Except Fault (BurstGroupPolicy F) :=
  burstGroup.foldlM (addNearest env) { testGroup := burstGroup }

/-- `GenPrediction`, as `AddPrediction` calls it. -/
def PredictEnv.decide (predictDevice : BurstGroupPolicy F) : Except Fault (BurstGroupPolicy F) :=
  predictDevice.genPrediction env.lib env.cfg.classifyParam env.context env.blockLevelDistribution

/-- What the blocks of a task do to the score, from an index on. -/
def blockEvents (trueDevice : String) :
    List BurstBlock → ℕ → Except Fault (List (ScoreEvent F))
  | [], _ => .ok []
  | burstGroup :: rest, index =>
    if toInt (blockPktNum burstGroup) < env.cfg.filterParam.minBlockPktnum.toNat then
      blockEvents trueDevice rest index
    else do
      let predictDevice ← policyOf env burstGroup
      let predict ← env.decide predictDevice
      let events ← blockEvents trueDevice rest (index + 1)
      return ScoreEvent.ofPrediction trueDevice predict index ++ events

/-- What a task does to the score. -/
def groupEvents (deviceGroups : List BurstBlock) (index : ℕ) :
    Except Fault (List (ScoreEvent F)) := do
  let burst ← frontBurst deviceGroups
  blockEvents env burst.instanceLabel deviceGroups index

/-- What main does in the second loop of `Predict`. -/
inductive MainAction where
  | addPktAvgNum (deviceId : UInt16) (num : ℕ)
  | start (task : PredictTask)
  deriving DecidableEq, Repr

/-- What an action of main, with the task that it starts, does to the score. -/
def actionEvents : MainAction → Except Fault (List (ScoreEvent F))
  | .addPktAvgNum deviceId num => do
    let device ← env.context.getDeviceById deviceId
    return [.outcome (.averaged (removeSuffix device.instanceName) num)]
  | .start task => groupEvents env task.smallGroups task.index.toNat

end Events

/-- The actions for one device. -/
def deviceActions (epochSlotNum : ℕ) (addrAvgPktMap : UnorderedMap UInt16 ℕ)
    (e : UInt16 × List BurstBlock) : Except Fault (List MainAction) :=
  match deviceTasks epochSlotNum (e.2.length + 1) e.2 with
  | none => .error .diverges
  | some tasks => do
    let tasks ← tasks
    return .addPktAvgNum e.1 ((addrAvgPktMap.lookup e.1).getD 0) :: tasks.map .start

/-- The actions of main, device by device. -/
def mainActions (lib : StdLib) (div : DivisionParam) (addrAvgPktMap : UnorderedMap UInt16 ℕ)
    (testset : UnorderedMap UInt16 (List BurstBlock)) : Except Fault (List (List MainAction)) :=
  (lib.iterate testset).mapM (deviceActions (epochSlotNum div) addrAvgPktMap)

/-! ## The tasks one after another -/

variable {env : PredictEnv F} {log : List (ScoreEvent F)}

/-- The answered entries of a cache are right. -/
def PredictEnv.RightCache (env : PredictEnv F) (cache : PredictionCache F) : Prop :=
  Memo.Right env.search Prediction.answered cache

theorem predictBurstGroup_policyOf {cache : PredictionCache F} (hcache : env.RightCache cache)
    {burstGroup : BurstBlock} {s : BurstGroupPolicy F × PredictionCache F}
    (h : predictBurstGroup env.lib env.cfg env.train cache burstGroup = .ok s) :
    policyOf env burstGroup = .ok s.1 ∧ env.RightCache s.2 := by
  refine CheckedLoop.foldlM_inv (I := fun done s => done.foldlM (addNearest env)
    ({ testGroup := burstGroup } : BurstGroupPolicy F) = .ok s.1 ∧ env.RightCache s.2)
    burstGroup [] (fun done b s s' _ hs hstep => ?_) ⟨rfl, hcache⟩ h
  obtain ⟨⟨nearest, cache'⟩, hpredict, hstep⟩ := CheckedLoop.bind_eq_ok.mp hstep
  obtain ⟨policy, hpolicy, hstep⟩ := CheckedLoop.bind_eq_ok.mp hstep
  cases hstep
  rcases Prediction.predictBurst_eq hs.2 b with ⟨n, cache'', hok, hsearch, hright⟩ |
    ⟨fault, herror, -⟩
  · rw [hok] at hpredict
    cases hpredict
    refine ⟨?_, hright⟩
    rw [List.foldlM_append, hs.1]
    show [b].foldlM (addNearest env) s.1 = _
    rw [List.foldlM_cons, addNearest, PredictEnv.search, hsearch]
    exact CheckedLoop.bind_eq_ok.mpr ⟨policy, hpolicy, rfl⟩
  · rw [herror] at hpredict
    cases hpredict

/-- **The blocks of a task**, one after another. -/
theorem predictBlocks_events {trueDevice : String} (blocks : List BurstBlock)
    {log : List (ScoreEvent F)} {s s' : Score F × PredictionCache F × ℕ}
    (hcache : env.RightCache s.2.1) (hlog : Logged log s.1)
    (h : blocks.foldlM (predictBlock env trueDevice) s = .ok s') :
    ∃ events, blockEvents env trueDevice blocks s.2.2 = .ok events ∧
      Logged (log ++ events) s'.1 ∧ env.RightCache s'.2.1 := by
  induction blocks generalizing log s with
  | nil =>
    cases h
    exact ⟨[], rfl, (List.append_nil log).symm ▸ hlog, hcache⟩
  | cons burstGroup rest ih =>
    obtain ⟨s₁, hfirst, hrest⟩ := CheckedLoop.bind_eq_ok.mp h
    rw [predictBlock] at hfirst
    rw [blockEvents]
    split_ifs at hfirst ⊢ with hfilter
    · cases hfirst
      exact ih hcache hlog hrest
    · obtain ⟨⟨predictDevice, cache⟩, hgroup, hfirst⟩ := CheckedLoop.bind_eq_ok.mp hfirst
      obtain ⟨score, hscore, hfirst⟩ := CheckedLoop.bind_eq_ok.mp hfirst
      cases hfirst
      obtain ⟨predict, hpredict, hscore⟩ := CheckedLoop.bind_eq_ok.mp hscore
      cases hscore
      obtain ⟨hpolicy, hcache'⟩ := predictBurstGroup_policyOf hcache hgroup
      obtain ⟨events, hevents, hlogged, hright⟩ :=
        ih hcache' (hlog.addPredicted trueDevice predict s.2.2) hrest
      rw [List.append_assoc] at hlogged
      refine ⟨_, ?_, hlogged, hright⟩
      refine CheckedLoop.bind_eq_ok.mpr ⟨predictDevice, hpolicy, ?_⟩
      refine CheckedLoop.bind_eq_ok.mpr ⟨predict, hpredict, ?_⟩
      exact CheckedLoop.bind_eq_ok.mpr ⟨events, hevents, rfl⟩

theorem predictGroups_events {s s' : Score F × PredictionCache F} (hcache : env.RightCache s.2)
    (hlog : Logged log s.1) {deviceGroups : List BurstBlock} {index : ℕ}
    (h : predictGroups env s deviceGroups index = .ok s') :
    ∃ events, groupEvents env deviceGroups index = .ok events ∧ Logged (log ++ events) s'.1 ∧
      env.RightCache s'.2 := by
  obtain ⟨group, hgroup, h⟩ := CheckedLoop.bind_eq_ok.mp h
  obtain ⟨burst, hburst, h⟩ := CheckedLoop.bind_eq_ok.mp h
  obtain ⟨s₁, hloop, h⟩ := CheckedLoop.bind_eq_ok.mp h
  cases h
  obtain ⟨events, hevents, hlogged⟩ := predictBlocks_events deviceGroups hcache hlog hloop
  refine ⟨events, ?_, hlogged⟩
  exact CheckedLoop.bind_eq_ok.mpr ⟨burst,
    CheckedLoop.bind_eq_ok.mpr ⟨group, hgroup, hburst⟩, hevents⟩

/-- The tasks of a device, one after another. -/
theorem predictTasks_events (tasks : List PredictTask) {log : List (ScoreEvent F)}
    {s s' : Score F × PredictionCache F} (hcache : env.RightCache s.2) (hlog : Logged log s.1)
    (h : tasks.foldlM (fun s t => predictGroups env s t.smallGroups t.index.toNat) s = .ok s') :
    ∃ events, (tasks.map MainAction.start).mapM (actionEvents env) = .ok events ∧
      Logged (log ++ events.flatten) s'.1 ∧ env.RightCache s'.2 := by
  induction tasks generalizing log s with
  | nil =>
    cases h
    exact ⟨[], rfl, (List.append_nil log).symm ▸ hlog, hcache⟩
  | cons t tasks ih =>
    obtain ⟨s₁, hfirst, hrest⟩ := CheckedLoop.bind_eq_ok.mp h
    obtain ⟨events, hevents, hlogged, hright⟩ := predictGroups_events hcache hlog hfirst
    obtain ⟨more, hmore, hlogged, hright⟩ := ih hright hlogged hrest
    refine ⟨events :: more, ?_, ?_, hright⟩
    · rw [List.map_cons, List.mapM_cons]
      refine CheckedLoop.bind_eq_ok.mpr ⟨events, hevents, ?_⟩
      exact CheckedLoop.bind_eq_ok.mpr ⟨more, hmore, rfl⟩
    · rw [List.flatten_cons, ← List.append_assoc]
      exact hlogged

theorem predictOneDevice_events {epochSlotNum : ℕ} (hpos : 0 < epochSlotNum)
    (hroom : epochSlotNum < 2 ^ 31) {s s' : Score F × PolicyStatics × PredictionCache F}
    (hcache : env.RightCache s.2.2) (hlog : Logged log s.1) {deviceId : UInt16}
    {burstGroups : List BurstBlock} (hlen : burstGroups.length < 2 ^ 31)
    (h : predictOneDevice env epochSlotNum s deviceId burstGroups = .ok s') :
    ∃ actions events,
      deviceActions epochSlotNum s.2.1.addrAvgPktMap (deviceId, burstGroups) = .ok actions ∧
      actions.mapM (actionEvents env) = .ok events ∧ Logged (log ++ events.flatten) s'.1 ∧
      env.RightCache s'.2.2 ∧
      ∀ d, (s'.2.1.addrAvgPktMap.lookup d).getD 0 = (s.2.1.addrAvgPktMap.lookup d).getD 0 := by
  let num := (s.2.1.addrAvgPktMap.lookup deviceId).getD 0
  have hlookup : ∀ d, ((s.2.1.addrAvgPktMap.update deviceId 0 id).lookup d).getD 0 =
      (s.2.1.addrAvgPktMap.lookup d).getD 0 := by
    intro d
    by_cases hd : d = deviceId
    · rw [hd, UnorderedMap.lookup_update_self]
      rfl
    · rw [UnorderedMap.lookup_update_ne _ hd]
  obtain ⟨score, hscore, h⟩ := CheckedLoop.bind_eq_ok.mp h
  obtain ⟨s₁, hchunks, h⟩ := CheckedLoop.bind_eq_ok.mp h
  cases h
  obtain ⟨device, hdevice, hscore⟩ := CheckedLoop.bind_eq_ok.mp hscore
  cases hscore
  obtain ⟨tasks, htasks, hrun⟩ : ∃ tasks, _ ∧ predictChunks env epochSlotNum _ burstGroups = _ :=
    predictChunks_eq (_, s.2.2) hlen hpos hroom
  rw [hrun] at hchunks
  obtain ⟨events, hevents, hlogged, hright⟩ := predictTasks_events tasks hcache
    (hlog.updateAvg (removeSuffix device.instanceName) _) hchunks
  rw [hlookup] at hlogged
  refine ⟨.addPktAvgNum deviceId num :: tasks.map .start,
    [.outcome (.averaged (removeSuffix device.instanceName) num)] :: events, ?_, ?_, ?_, hright,
    hlookup⟩
  · rw [deviceActions, htasks]
    rfl
  · rw [List.mapM_cons]
    refine CheckedLoop.bind_eq_ok.mpr ⟨_, CheckedLoop.bind_eq_ok.mpr ⟨device, hdevice, rfl⟩, ?_⟩
    exact CheckedLoop.bind_eq_ok.mpr ⟨events, hevents, rfl⟩
  · rw [List.flatten_cons, ← List.append_assoc]
    exact hlogged

/-- The actions for a device read the averages only. -/
theorem deviceActions_congr {epochSlotNum : ℕ}
    {addrAvgPktMap addrAvgPktMap' : UnorderedMap UInt16 ℕ}
    (h : ∀ d, (addrAvgPktMap'.lookup d).getD 0 = (addrAvgPktMap.lookup d).getD 0) :
    deviceActions epochSlotNum addrAvgPktMap' = deviceActions epochSlotNum addrAvgPktMap := by
  ext1 e
  rw [deviceActions, deviceActions, h]

theorem predictDevices_events {epochSlotNum : ℕ} (hpos : 0 < epochSlotNum)
    (hroom : epochSlotNum < 2 ^ 31) (devices : List (UInt16 × List BurstBlock))
    {log : List (ScoreEvent F)} {s s' : Score F × PolicyStatics × PredictionCache F}
    (hcache : env.RightCache s.2.2) (hlog : Logged log s.1)
    (hlen : ∀ e ∈ devices, e.2.length < 2 ^ 31)
    (h : devices.foldlM (fun s e => predictOneDevice env epochSlotNum s e.1 e.2) s = .ok s') :
    ∃ actions events, devices.mapM (deviceActions epochSlotNum s.2.1.addrAvgPktMap) = .ok actions ∧
      actions.flatten.mapM (actionEvents env) = .ok events ∧
      Logged (log ++ events.flatten) s'.1 := by
  induction devices generalizing log s with
  | nil =>
    cases h
    exact ⟨[], [], rfl, rfl, (List.append_nil log).symm ▸ hlog⟩
  | cons e devices ih =>
    obtain ⟨hlene, hlen⟩ := List.forall_mem_cons.mp hlen
    obtain ⟨s₁, hfirst, hrest⟩ := CheckedLoop.bind_eq_ok.mp h
    obtain ⟨actions, events, hactions, hevents, hlogged, hright, haverages⟩ :=
      predictOneDevice_events hpos hroom hcache hlog hlene hfirst
    obtain ⟨moreActions, more, hmoreActions, hmore, hlogged⟩ := ih hright hlogged hlen hrest
    rw [deviceActions_congr haverages] at hmoreActions
    refine ⟨actions :: moreActions, events ++ more, ?_, ?_, ?_⟩
    · rw [List.mapM_cons]
      refine CheckedLoop.bind_eq_ok.mpr ⟨actions, hactions, ?_⟩
      exact CheckedLoop.bind_eq_ok.mpr ⟨moreActions, hmoreActions, rfl⟩
    · rw [List.flatten_cons, List.mapM_append]
      refine CheckedLoop.bind_eq_ok.mpr ⟨events, hevents, ?_⟩
      exact CheckedLoop.bind_eq_ok.mpr ⟨more, hmore, rfl⟩
    · rw [List.flatten_append, ← List.append_assoc]
      exact hlogged

variable {lib : StdLib} {cfg : Config F} {context : Context} {classifier : KBurstClassifier}
  {statics : PolicyStatics} {cache : PredictionCache F}
  {testset : UnorderedMap UInt16 (List BurstBlock)}

/-- What the tasks of a call of `Predict` read of the process. -/
def PredictEnv.ofCall (lib : StdLib) (cfg : Config F) (context : Context)
    (classifier : KBurstClassifier) (statics : PolicyStatics) : PredictEnv F :=
  { lib, cfg, context, train := classifier.train
    blockLevelDistribution := statics.blockLevelDistribution }

/-- **The score of a prediction** shows the events of main's actions, in their order. -/
theorem predict_events (hslot : 1 ≤ cfg.divisionParam.timeslot.toNat)
    (hmax : cfg.divisionParam.timeslot.toNat ≤ epochTimeslot * 3600)
    (hcache : (PredictEnv.ofCall lib cfg context classifier statics).RightCache cache)
    (hlen : ∀ d burstGroups, testset.lookup d = some burstGroups → burstGroups.length < 2 ^ 31)
    {s : Score F × PolicyStatics × PredictionCache F}
    (h : predict lib cfg context classifier statics cache testset = .ok s) :
    ∃ actions events,
      mainActions lib cfg.divisionParam statics.addrAvgPktMap testset = .ok actions ∧
      actions.flatten.mapM
        (actionEvents (PredictEnv.ofCall lib cfg context classifier statics)) = .ok events ∧
      Logged events.flatten s.1 := by
  obtain ⟨hpos, hroom⟩ := epochSlotNum_bounds hslot hmax
  rw [predict] at h
  split_ifs at h
  exact predictDevices_events hpos hroom (lib.iterate testset) hcache Logged.nil
    (fun e he => hlen e.1 e.2 (lib.mem_iterate.mp he)) h

end Classifier
end BurstIoT
