import BurstIoT.PredictionOutcome

/-!
# An experiment under any schedule

`SingleExperiment` trains a classifier and lets it predict, each with tasks of its own.  The order
of the training tasks decides in which order the cells of the train table are filled, and so in
which order the nearest bursts of a test burst come; nothing that is predicted depends on that
(`blockEvents_alike`).  With the schedule of the prediction (`score_of_reachable`), the sheets of an
experiment do not depend on any schedule, up to the order of their vectors
(`sheets_of_experiment`).
-/

namespace BurstIoT
namespace ScheduledExperiment

open StepSystem Interleaving TrainStore Classifier TrainOrder ParallelPrediction ScoreEvent

/-! ## The averages -/

/-- The average that an action inserts, under its device. -/
def averaged : TrainAction → Option (UInt16 × ℕ)
  | .average deviceId middlePktNum => some (deviceId, middlePktNum)
  | _ => none

section Averages

variable {div : DivisionParam} {lib : StdLib} {tasks : List TrainTask}
  {s s' : TrainState}

/-- **A run inserts its averages.** -/
theorem addrAvgPktMap_of_foldlM (log : List TrainAction) (h : log.foldlM (perform div) s = .ok s') :
    s'.statics.addrAvgPktMap =
      (log.filterMap averaged).foldl (fun m e => m.emplace e.1 e.2) s.statics.addrAvgPktMap := by
  refine CheckedLoop.foldlM_inv (I := fun done s' => s'.statics.addrAvgPktMap =
    (done.filterMap averaged).foldl (fun m e => m.emplace e.1 e.2) s.statics.addrAvgPktMap) log []
    (fun done a s₁ s₂ _ hs₁ hstep => ?_) rfl h
  rw [List.filterMap_append, List.foldl_append, ← hs₁]
  cases a with
  | average deviceId middlePktNum =>
    cases hstep
    rfl
  | level deviceId burstGroup =>
    cases hstep
    rfl
  | store deviceId burst =>
    obtain ⟨store, -, hstep⟩ := CheckedLoop.bind_eq_ok.mp hstep
    cases hstep
    rfl
  | stats deviceId =>
    rw [perform] at hstep
    split_ifs at hstep
    cases hstep
    rfl

theorem filterMap_averaged_actions (t : TrainTask) :
    (t.actions lib).filterMap averaged = [(t.deviceId, t.middlePktNum)] := by
  have hfirst : averaged (.average t.deviceId t.middlePktNum) =
    some (t.deviceId, t.middlePktNum) := rfl
  have hlevel : (t.burstGroups.map (TrainAction.level t.deviceId)).filterMap averaged = [] := by
    rw [List.filterMap_map]
    exact List.filterMap_eq_nil_iff.mpr fun _ _ => rfl
  have hstore : ((t.merged lib).map (TrainAction.store t.deviceId)).filterMap averaged = [] := by
    rw [List.filterMap_map]
    exact List.filterMap_eq_nil_iff.mpr fun _ _ => rfl
  rw [TrainTask.actions, List.filterMap_cons_some hfirst, List.filterMap_append,
    List.filterMap_append, hlevel, hstore]
  rfl

/-- **The averages after an interleaving** of tasks with distinct devices. -/
theorem lookup_average (hnodup : (tasks.map TrainTask.deviceId).Nodup) {schedule : List ℕ}
    {log : List TrainAction}
    (hlog : interleave (tasks.map (TrainTask.actions lib)) schedule = some log)
    (h : log.foldlM (perform div) s = .ok s') {d : UInt16} {num : ℕ} :
    s'.statics.addrAvgPktMap.lookup d = some num ↔
      s.statics.addrAvgPktMap.lookup d = some num ∨
        (s.statics.addrAvgPktMap.lookup d = none ∧
          (d, num) ∈ tasks.map fun t => (t.deviceId, t.middlePktNum)) := by
  have hperm : (log.filterMap averaged).Perm
      (tasks.map fun t => (t.deviceId, t.middlePktNum)) := by
    refine ((perm_of_interleave hlog).filterMap averaged).trans (List.Perm.of_eq ?_)
    rw [← List.flatMap_def, List.filterMap_flatMap]
    simp only [filterMap_averaged_actions]
    exact List.map_eq_flatMap.symm
  have hkeys : ((log.filterMap averaged).map Prod.fst).Nodup := by
    rw [(hperm.map Prod.fst).nodup_iff, List.map_map]
    exact hnodup
  rw [addrAvgPktMap_of_foldlM log h, UnorderedMap.lookup_foldl_emplace hkeys, hperm.mem_iff]

end Averages

/-! ## Policies -/

section Alike

variable {F : Type}

/-- Two policies that differ at most in the order of the nearest bursts of each test burst. -/
def Alike (policy policy' : BurstGroupPolicy F) : Prop :=
  ∃ trains, List.Forall₂ List.Perm policy.vPredictTrains trains ∧
    policy' = { policy with vPredictTrains := trains }

theorem Alike.refl (policy : BurstGroupPolicy F) : Alike policy policy :=
  ⟨_, List.forall₂_same.mpr fun _ _ => List.Perm.refl _, rfl⟩

/-- Two events that differ at most in that. -/
inductive EventAlike : ScoreEvent F → ScoreEvent F → Prop where
  | outcome (o : Outcome) : EventAlike (.outcome o) (.outcome o)
  | err {predict predict' : BurstGroupPolicy F} (h : Alike predict predict') :
      EventAlike (.err predict) (.err predict')

theorem outcomes_eq {log log' : List (ScoreEvent F)} (h : List.Forall₂ EventAlike log log') :
    outcomes log' = outcomes log := by
  induction h with
  | nil => rfl
  | cons he _ ih =>
    cases he with
    | outcome o => exact congrArg (o :: ·) ih
    | err _ => exact ih

theorem errs_alike {log log' : List (ScoreEvent F)} (h : List.Forall₂ EventAlike log log') :
    List.Forall₂ Alike (log.filterMap err?) (log'.filterMap err?) := by
  induction h with
  | nil => exact .nil
  | cons he _ ih =>
    cases he with
    | outcome o => exact ih
    | err hpredict => exact .cons hpredict ih

theorem ofPrediction_alike {predict predict' : BurstGroupPolicy F} (h : Alike predict predict')
    (trueLabel : String) (index : ℕ) :
    List.Forall₂ EventAlike (ofPrediction trueLabel predict index)
      (ofPrediction trueLabel predict' index) := by
  have hsame : predict'.prediction = predict.prediction := by
    obtain ⟨trains, -, rfl⟩ := h
    rfl
  rw [ofPrediction, ofPrediction, hsame]
  refine .cons (.outcome _) ?_
  split_ifs
  · exact .nil
  · exact .cons (.err h) .nil

variable [Field F] [LinearOrder F] [Elementary F]

/-- **A vote** does not see the order of the nearest bursts. -/
theorem Alike.addBurstPrediction {policy policy' voted : BurstGroupPolicy F}
    (h : Alike policy policy') {nearest nearest' : Nearest F}
    (hdistance : nearest'.distance = nearest.distance)
    (hnearest : nearest'.nearestVec.Perm nearest.nearestVec)
    (hvote : policy.addBurstPrediction nearest = .ok voted) :
    ∃ voted', policy'.addBurstPrediction nearest' = .ok voted' ∧ Alike voted voted' := by
  obtain ⟨trains, htrains, rfl⟩ := h
  obtain ⟨testBurst, htest, hvote⟩ := CheckedLoop.bind_eq_ok.mp hvote
  have hnames : stringSet (nearest'.nearestVec.map Burst.instanceLabel) =
      stringSet (nearest.nearestVec.map Burst.instanceLabel) := by
    rw [stringSet, stringSet, List.toFinset_eq_of_perm _ _ (hnearest.map _)]
  have hboth : List.Forall₂ List.Perm (policy.vPredictTrains ++ [nearest.nearestVec])
      (trains ++ [nearest'.nearestVec]) :=
    List.rel_append htrains (.cons hnearest.symm .nil)
  rw [BurstGroupPolicy.addBurstPrediction]
  dsimp only
  rw [← htrains.length_eq, htest, hnames, hdistance]
  dsimp only [bind, Except.bind] at hvote ⊢
  split_ifs at hvote ⊢ with hfar
  · cases hvote
    exact ⟨_, rfl, _, hboth, rfl⟩
  · cases hvote
    exact ⟨_, rfl, _, hboth, rfl⟩

omit [Elementary F] in
/-- The ranks do not see the order of the nearest bursts. -/
theorem rankNames_trains (policy : BurstGroupPolicy F) (trains : List (List Burst)) (lib : StdLib)
    (deviceVec : List KDevice) :
    ({ policy with vPredictTrains := trains } : BurstGroupPolicy F).rankNames lib deviceVec =
      { policy.rankNames lib deviceVec with vPredictTrains := trains } := by
  rw [BurstGroupPolicy.rankNames, BurstGroupPolicy.rankNames]
  dsimp only
  split_ifs <;> rfl

omit [Elementary F] in
/-- **The prediction** does not see the order of the nearest bursts. -/
theorem Alike.genPrediction {policy policy' predict : BurstGroupPolicy F} (h : Alike policy policy')
    {lib : StdLib} {cfg : TestParam F} {context : Context}
    {distribution distribution' : UnorderedMap UInt16 (List Burst)}
    (hlevel : ∀ d, (distribution'.lookup d).getD [] = (distribution.lookup d).getD [])
    (hpredict : policy.genPrediction lib cfg context distribution = .ok predict) :
    ∃ predict', policy'.genPrediction lib cfg context distribution' = .ok predict' ∧
      Alike predict predict' := by
  obtain ⟨trains, htrains, rfl⟩ := h
  rw [BurstGroupPolicy.genPrediction_congr fun d _ => hlevel d]
  have hsame : (policy.rankNames lib context.deviceVec).vPredictTrains =
      policy.vPredictTrains := by
    rw [BurstGroupPolicy.rankNames]
    split_ifs <;> rfl
  rw [← hsame] at htrains
  rw [BurstGroupPolicy.genPrediction] at hpredict ⊢
  rw [rankNames_trains]
  dsimp only at hpredict ⊢
  split at hpredict
  · cases hpredict
  · cases hpredict
    exact ⟨_, rfl, trains, htrains, rfl⟩
  · split_ifs at hpredict ⊢ with hclose
    · obtain ⟨⟨prediction, distance⟩, hclosest, hpredict⟩ := CheckedLoop.bind_eq_ok.mp hpredict
      cases hpredict
      rw [hclosest]
      exact ⟨_, rfl, trains, htrains, rfl⟩
    · cases hpredict
      exact ⟨_, rfl, trains, htrains, rfl⟩

omit [Elementary F] in
/-- Neither do the devices that are consulted. -/
theorem Alike.consulted {policy policy' : BurstGroupPolicy F} (h : Alike policy policy')
    (lib : StdLib) (cfg : TestParam F) (context : Context) :
    policy'.consulted lib cfg context = policy.consulted lib cfg context := by
  obtain ⟨trains, -, rfl⟩ := h
  rw [BurstGroupPolicy.consulted, rankNames_trains]
  rfl

end Alike

/-! ## Events -/

section Events

variable {F : Type} [Field F] [LinearOrder F] [Elementary F] {env env' : PredictEnv F}

/-- Two processes that differ at most in the order of the nearest bursts of each test burst. -/
structure EnvAlike (env env' : PredictEnv F) : Prop where
  lib : env'.lib = env.lib
  cfg : env'.cfg = env.cfg
  context : env'.context = env.context
  search : ∀ testBurst nearest, env.search testBurst = .ok nearest →
    ∃ nearest', env'.search testBurst = .ok nearest' ∧ nearest'.distance = nearest.distance ∧
      nearest'.nearestVec.Perm nearest.nearestVec
  level : ∀ d, env'.blockLevelDistribution.lookup d = env.blockLevelDistribution.lookup d

theorem EnvAlike.votes (h : EnvAlike env env') (bursts : List Burst)
    {policy policy' voted : BurstGroupPolicy F} (hpolicy : Alike policy policy')
    (hvotes : bursts.foldlM (addNearest env) policy = .ok voted) :
    ∃ voted', bursts.foldlM (addNearest env') policy' = .ok voted' ∧ Alike voted voted' := by
  induction bursts generalizing policy policy' with
  | nil =>
    cases hvotes
    exact ⟨policy', rfl, hpolicy⟩
  | cons testBurst bursts ih =>
    obtain ⟨policy₁, hfirst, hvotes⟩ := CheckedLoop.bind_eq_ok.mp hvotes
    obtain ⟨nearest, hsearch, hvote⟩ := CheckedLoop.bind_eq_ok.mp hfirst
    obtain ⟨nearest', hsearch', hdistance, hnearest⟩ := h.search testBurst nearest hsearch
    obtain ⟨policy₁', hvote', hpolicy₁⟩ := hpolicy.addBurstPrediction hdistance hnearest hvote
    obtain ⟨voted', hvotes', hvoted⟩ := ih hpolicy₁ hvotes
    refine ⟨voted', CheckedLoop.bind_eq_ok.mpr ⟨policy₁', ?_, hvotes'⟩, hvoted⟩
    exact CheckedLoop.bind_eq_ok.mpr ⟨nearest', hsearch', hvote'⟩

theorem EnvAlike.decide (h : EnvAlike env env') {policy policy' predict : BurstGroupPolicy F}
    (hpolicy : Alike policy policy') (hpredict : env.decide policy = .ok predict) :
    ∃ predict', env'.decide policy' = .ok predict' ∧ Alike predict predict' := by
  rw [PredictEnv.decide, h.lib, h.cfg, h.context]
  exact hpolicy.genPrediction (fun d => congrArg (·.getD []) (h.level d)) hpredict

/-- **The predictions of a task** do not see the order of the nearest bursts. -/
theorem blockEvents_alike (h : EnvAlike env env') {trueDevice : String} (blocks : List BurstBlock)
    {index : ℕ} {events : List (ScoreEvent F)}
    (hevents : blockEvents env trueDevice blocks index = .ok events) :
    ∃ events', blockEvents env' trueDevice blocks index = .ok events' ∧
      List.Forall₂ EventAlike events events' := by
  induction blocks generalizing index events with
  | nil =>
    cases hevents
    exact ⟨[], rfl, .nil⟩
  | cons burstGroup rest ih =>
    rw [blockEvents] at hevents ⊢
    rw [h.cfg]
    split_ifs at hevents ⊢ with hfilter
    · exact ih hevents
    · obtain ⟨policy, hpolicy, hevents⟩ := CheckedLoop.bind_eq_ok.mp hevents
      obtain ⟨predict, hpredict, hevents⟩ := CheckedLoop.bind_eq_ok.mp hevents
      obtain ⟨later, hlater, hevents⟩ := CheckedLoop.bind_eq_ok.mp hevents
      cases hevents
      obtain ⟨policy', hpolicy', halike⟩ := h.votes burstGroup (Alike.refl _) hpolicy
      obtain ⟨predict', hpredict', hboth⟩ := h.decide halike hpredict
      obtain ⟨later', hlater', hrest⟩ := ih hlater
      refine ⟨_, ?_, List.rel_append (ofPrediction_alike hboth trueDevice index) hrest⟩
      refine CheckedLoop.bind_eq_ok.mpr ⟨policy', hpolicy', ?_⟩
      refine CheckedLoop.bind_eq_ok.mpr ⟨predict', hpredict', ?_⟩
      exact CheckedLoop.bind_eq_ok.mpr ⟨later', hlater', rfl⟩

theorem actionEvents_alike (h : EnvAlike env env') {action : MainAction}
    {events : List (ScoreEvent F)} (hevents : actionEvents env action = .ok events) :
    ∃ events', actionEvents env' action = .ok events' ∧
      List.Forall₂ EventAlike events events' := by
  cases action with
  | addPktAvgNum deviceId num =>
    obtain ⟨device, hdevice, hevents⟩ := CheckedLoop.bind_eq_ok.mp hevents
    cases hevents
    rw [← h.context] at hdevice
    exact ⟨_, CheckedLoop.bind_eq_ok.mpr ⟨device, hdevice, rfl⟩, .cons (.outcome _) .nil⟩
  | start task =>
    obtain ⟨burst, hburst, hevents⟩ := CheckedLoop.bind_eq_ok.mp hevents
    obtain ⟨events', hevents', halike⟩ := blockEvents_alike h _ hevents
    exact ⟨events', CheckedLoop.bind_eq_ok.mpr ⟨burst, hburst, hevents'⟩, halike⟩

/-- **The events of main's actions** do not see the order of the nearest bursts. -/
theorem mapM_actionEvents_alike (h : EnvAlike env env') (actions : List MainAction)
    {events : List (List (ScoreEvent F))}
    (hevents : actions.mapM (actionEvents env) = .ok events) :
    ∃ events', actions.mapM (actionEvents env') = .ok events' ∧
      List.Forall₂ EventAlike events.flatten events'.flatten := by
  induction actions generalizing events with
  | nil =>
    cases hevents
    exact ⟨[], rfl, .nil⟩
  | cons action actions ih =>
    rw [List.mapM_cons] at hevents
    obtain ⟨first, hfirst, hevents⟩ := CheckedLoop.bind_eq_ok.mp hevents
    obtain ⟨rest, hrest, hevents⟩ := CheckedLoop.bind_eq_ok.mp hevents
    cases hevents
    obtain ⟨first', hfirst', halike⟩ := actionEvents_alike h hfirst
    obtain ⟨rest', hrest', hall⟩ := ih hrest
    refine ⟨first' :: rest', ?_, List.rel_append halike hall⟩
    rw [List.mapM_cons]
    refine CheckedLoop.bind_eq_ok.mpr ⟨first', hfirst', ?_⟩
    exact CheckedLoop.bind_eq_ok.mpr ⟨rest', hrest', rfl⟩

/-! ### Races -/

theorem EnvAlike.comesTo (h : EnvAlike env env') {task : PredictTask} {policy : BurstGroupPolicy F}
    (hpolicy : ComesTo env task policy) :
    ∃ policy', ComesTo env' task policy' ∧ Alike policy policy' := by
  obtain ⟨block, hblock, hpasses, hpolicy⟩ := hpolicy
  obtain ⟨policy', hpolicy', halike⟩ := h.votes block (Alike.refl _) hpolicy
  exact ⟨policy', ⟨block, hblock, h.cfg ▸ hpasses, hpolicy'⟩, halike⟩

theorem EnvAlike.misses (h : EnvAlike env env') {task : PredictTask} (hmiss : Misses env task) :
    Misses env' task := by
  obtain ⟨policy, predict, hpolicy, hdecide, hmiss⟩ := hmiss
  obtain ⟨policy', hpolicy', halike⟩ := h.comesTo hpolicy
  obtain ⟨predict', hdecide', trains, -, rfl⟩ := h.decide halike hdecide
  exact ⟨policy', _, hpolicy', hdecide', hmiss⟩

theorem EnvAlike.errs (h : EnvAlike env env') {task : PredictTask} (herr : Errs env task) :
    Errs env' task := by
  obtain ⟨burst, policy, predict, hfront, hpolicy, hdecide, herr⟩ := herr
  obtain ⟨policy', hpolicy', halike⟩ := h.comesTo hpolicy
  obtain ⟨predict', hdecide', trains, -, rfl⟩ := h.decide halike hdecide
  exact ⟨burst, policy', _, hfront, hpolicy', hdecide', herr⟩

theorem EnvAlike.reads (h : EnvAlike env env') {task : PredictTask} {d : UInt16}
    (hreads : Reads env task d) : Reads env' task d := by
  obtain ⟨policy, hpolicy, hd⟩ := hreads
  obtain ⟨policy', hpolicy', halike⟩ := h.comesTo hpolicy
  refine ⟨policy', hpolicy', ?_⟩
  rwa [h.lib, h.cfg, h.context, halike.consulted]

/-- **Tasks stay apart** in whatever order the nearest bursts come. -/
theorem EnvAlike.calm (h : EnvAlike env env') {actions : List MainAction}
    (hcalm : Calm env' actions) : Calm env actions := by
  have hapart : ∀ {task task' : PredictTask}, Apart env' task task' → Apart env task task' := by
    intro task task' hapart
    refine ⟨fun hboth => hapart.1 ⟨h.misses hboth.1, h.errs hboth.2⟩, ?_⟩
    rintro ⟨⟨d, hd, hnew⟩, d', hd'⟩
    refine hapart.2 ⟨⟨d, h.reads hd, ?_⟩, d', h.reads hd'⟩
    rwa [← AList.lookup_eq_none, h.level, AList.lookup_eq_none]
  exact hcalm.imp fun hboth => ⟨hapart hboth.1, hapart hboth.2⟩

end Events

/-! ## An experiment -/

section Experiment

variable {F : Type} [Field F] [LinearOrder F] [Elementary F] {lib : StdLib} {cfg : Config F}
  {statics : PolicyStatics} {trainset : UnorderedMap UInt16 (List BurstBlock)}
  {tasks : List TrainTask}

/-- Two tables with the same bursts in every cell are searched alike. -/
theorem search_alike {div : DivisionParam} {cfg : TestParam F}
    {train train' : List (List (List Burst))} (h : Filed div train) (h' : Filed div train')
    (hcells : ∀ i j, (cell train' i j).Perm (cell train i j)) {testBurst : Burst}
    {nearest : Nearest F} (hsearch : Prediction.search div cfg train testBurst = .ok nearest) :
    ∃ nearest', Prediction.search div cfg train' testBurst = .ok nearest' ∧
      nearest'.distance = nearest.distance ∧ nearest'.nearestVec.Perm nearest.nearestVec := by
  by_cases hcolumn : 1 ≤ div.burstMaxPacketIndex
  · exact Prediction.search_perm h h' hcolumn hcells hsearch
  · rw [eq_replicate_of_filed h' hcolumn, ← eq_replicate_of_filed h hcolumn]
    exact ⟨nearest, hsearch, rfl, List.Perm.refl _⟩

/-- **Two interleavings of the training tasks** leave processes that predict alike. -/
theorem envAlike_of_runs (htasks : trainTasks lib cfg trainset = .ok tasks)
    {schedule schedule' : List ℕ} {log log' : List TrainAction}
    (hlog : interleave (tasks.map (TrainTask.actions lib)) schedule = some log)
    (hlog' : interleave (tasks.map (TrainTask.actions lib)) schedule' = some log')
    {s s' : TrainState}
    (hrun : log.foldlM (perform cfg.divisionParam) (TrainState.init cfg statics trainset) = .ok s)
    (hrun' : log'.foldlM (perform cfg.divisionParam) (TrainState.init cfg statics trainset) =
      .ok s') (context : Context) :
    EnvAlike (PredictEnv.ofCall lib cfg context s.classifier s.statics)
        (PredictEnv.ofCall lib cfg context s'.classifier s'.statics) ∧
      ∀ d, (s'.statics.addrAvgPktMap.lookup d).getD 0 =
        (s.statics.addrAvgPktMap.lookup d).getD 0 := by
  obtain ⟨hfiled, htrained, hlevel⟩ := trained_of_run htasks hlog hrun
  obtain ⟨hfiled', htrained', hlevel'⟩ := trained_of_run htasks hlog' hrun'
  have hcells : ∀ i j, (cell s'.classifier.train i j).Perm (cell s.classifier.train i j) :=
    fun i j => (htrained'.cells i j).trans (htrained.cells i j).symm
  refine ⟨⟨rfl, rfl, rfl, fun testBurst nearest hsearch => ?_, fun d => ?_⟩, fun d => ?_⟩
  · exact search_alike hfiled hfiled' hcells hsearch
  · exact (hlevel' d).trans (hlevel d).symm
  · have hnodup := nodup_deviceId htasks
    have hsame : s'.statics.addrAvgPktMap.lookup d = s.statics.addrAvgPktMap.lookup d := by
      ext num
      exact (lookup_average hnodup hlog' hrun').trans (lookup_average hnodup hlog hrun).symm
    rw [hsame]

/-- **The sheets of an experiment do not depend on any schedule.**  If training and prediction go
through with their tasks one after another, any interleaving of the training tasks goes through as
well, and in what it leaves, main has the same actions for a prediction.  If the tasks of the
prediction stay apart when the training was done one task after another, then whatever main and the
prediction tasks do now, no state is racing and none of them fails.  Once main has its score back,
the sheets are those of the tasks one after another up to the order of their vectors, and the
policies of the blocks whose prediction was missed or wrong are the same ones, up to their order and
that of their nearest bursts. -/
theorem sheets_of_experiment {context : Context} {testset : UnorderedMap UInt16 (List BurstBlock)}
    (hslot : 1 ≤ cfg.divisionParam.timeslot.toNat)
    (hmax : cfg.divisionParam.timeslot.toNat ≤ epochTimeslot * 3600)
    (hlen : ∀ d burstGroups, testset.lookup d = some burstGroups → burstGroups.length < 2 ^ 31)
    (htotal : totalTasks cfg.divisionParam testset < 2 ^ 31)
    {trained : KBurstClassifier × PolicyStatics}
    (htrain : train lib cfg statics trainset = .ok trained)
    {alone : Score F × PolicyStatics × PredictionCache F}
    (hpredict : predict lib cfg context trained.1 trained.2 [] testset = .ok alone) :
    ∃ tasks actions, trainTasks lib cfg trainset = .ok tasks ∧
      mainActions lib cfg.divisionParam trained.2.addrAvgPktMap testset = .ok actions ∧
      ∀ schedule log, interleave (tasks.map (TrainTask.actions lib)) schedule = some log →
        ∃ s, log.foldlM (perform cfg.divisionParam) (TrainState.init cfg statics trainset) =
            .ok s ∧
          mainActions lib cfg.divisionParam s.statics.addrAvgPktMap testset = .ok actions ∧
          (Calm (PredictEnv.ofCall lib cfg context trained.1 trained.2) actions.flatten →
            ∀ s₁, Reachable (step (PredictEnv.ofCall lib cfg context s.classifier s.statics))
                (start (Classifier.taskNum lib cfg.divisionParam testset) [] actions.flatten) s₁ →
              ¬ Racing (PredictEnv.ofCall lib cfg context s.classifier s.statics) s₁ ∧
              (∀ fault, s₁.main ≠ .failed fault ∧ ∀ phase ∈ s₁.tasks, phase ≠ .failed fault) ∧
              (s₁.main = .returned → s₁.shared.score.SheetsAlike alone.1 ∧
                ∃ errs, s₁.shared.score.errBurstGroups.Perm errs ∧
                  List.Forall₂ Alike alone.1.errBurstGroups errs)) := by
  obtain ⟨tasks, schedule₀, log₀, s₀, htasks, hlog₀, hrun₀, rfl⟩ := train_interleaved htrain
  obtain ⟨actions, events₀, hactions, hevents₀, hlogged⟩ := predict_events hslot hmax
    (fun _ he => absurd he List.not_mem_nil) hlen hpredict
  refine ⟨tasks, actions, htasks, hactions, fun schedule log hlog => ?_⟩
  -- the other interleaving of the training goes through
  have hperm : log.Perm log₀ := (perm_of_interleave hlog).trans (perm_of_interleave hlog₀).symm
  have hperformed := performed_of_foldlM log₀ hrun₀
  obtain ⟨s, hrun⟩ := foldlM_perform_ok log (TrainState.ready_init cfg statics trainset)
    (fun b hb => hperformed.storable b ((hperm.filterMap _).mem_iff.mp hb))
    (fun d hd => hperformed.counted d ((hperm.filterMap _).mem_iff.mp hd))
  obtain ⟨halike, haverages⟩ := envAlike_of_runs htasks hlog₀ hlog hrun₀ hrun context
  obtain ⟨hback, -⟩ := envAlike_of_runs htasks hlog hlog₀ hrun hrun₀ context
  -- main has the same actions, with events that are alike
  obtain ⟨events, hevents, hboth⟩ := mapM_actionEvents_alike halike actions.flatten hevents₀
  rw [mainActions, ← deviceActions_congr haverages] at hactions
  refine ⟨s, hrun, hactions, fun hcalm s₁ hs₁ => ?_⟩
  rw [taskNum_eq hslot hmax htotal hactions] at hs₁
  obtain ⟨htrack, hsourced⟩ :=
    sourced_of_reachable (fun _ he => absurd he List.not_mem_nil) hevents hs₁
  refine ⟨hsourced.not_racing (hback.calm hcalm), fun fault => ⟨htrack.main_ne_failed fault,
    fun phase hphase => htrack.ne_failed hphase fault⟩, fun hreturned => ?_⟩
  obtain ⟨log₁, hlog₁, hperm₁, haverages₁⟩ := htrack.logged hreturned
  refine ⟨hlog₁.sheetsAlike hlogged ?_ ?_, events.flatten.filterMap err?, ?_, ?_⟩
  · rw [← outcomes_eq hboth]
    exact hperm₁.filterMap _
  · rw [haverages₁, averages, averages, outcomes_eq hboth]
  · rw [hlog₁.errBurstGroups]
    exact hperm₁.filterMap _
  · rw [hlogged.errBurstGroups]
    exact errs_alike hboth

end Experiment

open Separation in
/-- The home is trained by turns; then its two devices are predicted at once. -/
theorem sheets_of_experiment_home : ∃ (s : TrainState) (alone : Score ℝ)
    (actions : List (List MainAction)),
    homeLog.foldlM (perform {}) (TrainState.init ({} : Config ℝ) {} homeSet) = .ok s ∧
      mainActions .insertion {} s.statics.addrAvgPktMap homeSet = .ok actions ∧
      ∀ s₁, Reachable (step (homeEnv s))
          (start (Classifier.taskNum .insertion {} homeSet) [] actions.flatten) s₁ →
        ¬ Racing (homeEnv s) s₁ ∧
          (s₁.main = .returned → s₁.shared.score.SheetsAlike alone) := by
  obtain ⟨trained, htrain⟩ := train_home
  obtain ⟨tasks₀, schedule₀, log₀, s₀, htasks₀, hlog₀, hrun₀, rfl⟩ := train_interleaved htrain
  obtain rfl := Except.ok.inj (htasks₀.symm.trans trainTasks_home)
  obtain ⟨alone, halone⟩ := predict_home hlog₀ hrun₀
  obtain ⟨tasks, actions, htasks, hactions, hall⟩ := sheets_of_experiment (by decide) (by decide)
    length_lt_home (by rw [totalTasks_home]; decide) htrain halone
  obtain rfl := Except.ok.inj (htasks.symm.trans trainTasks_home)
  obtain ⟨s, hrun, hactions', hend⟩ := hall _ homeLog interleave_home
  refine ⟨s, alone.1, actions, hrun, hactions', fun s₁ hs₁ => ?_⟩
  obtain ⟨hrace, -, hscore⟩ := hend (calm_home hlog₀ hrun₀ hactions) s₁ hs₁
  exact ⟨hrace, fun hreturned => (hscore hreturned).1⟩

end ScheduledExperiment
end BurstIoT
