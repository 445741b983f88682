import BurstIoT.PredictionOutcome

/-!
# Names are never made up

A type that has a sheet is taken from a label of the test half, from the name of a device, or from
a prediction; and a prediction is a label of the training half, the type of a device, `unreliable`
or empty.  So whatever holds of the registered names, and of what `removeSuffix` leaves of them,
holds of all types and predictions of a score.

This is followed through the search, the votes, the decision and the sheets, for any set `P` of
names that is closed (`ClosedNames`), and holds whatever the tasks of the training and of the
prediction do in between (`named_of_reachable`).
-/

namespace BurstIoT

/-- A set of names that has what a decision may add: the empty name, `unreliable` and the types of
the devices. -/
structure ClosedNames (P : String → Prop) (deviceVec : List KDevice) : Prop where
  empty : P ""
  unreliable : P "unreliable"
  types : ∀ device ∈ deviceVec, P (removeSuffix device.instanceName)

/-- The bursts of the table have labels in `P`. -/
def TableNamed (P : String → Prop) (train : List (List (List Burst))) : Prop :=
  ∀ row ∈ train, ∀ cell ∈ row, ∀ b ∈ cell, P b.instanceLabel

/-- The bursts of a half have labels in `P`. -/
def HalfNamed (P : String → Prop) (half : UnorderedMap UInt16 (List BurstBlock)) : Prop :=
  ∀ d blocks, half.lookup d = some blocks → ∀ block ∈ blocks, ∀ b ∈ block, P b.instanceLabel

variable {F : Type} [Field F] [LinearOrder F] [Elementary F] {P : String → Prop}

theorem mem_of_atChecked? {α : Type} {v : List α} {i : ℕ} {a : α} (h : atChecked? v i = .ok a) :
    a ∈ v := by
  rw [atChecked?] at h
  split at h
  · rename_i hget
    cases h
    exact List.mem_of_getElem? hget
  · cases h

theorem mem_of_atInt? {α : Type} {v : List α} {i : ℤ} {a : α} (h : atInt? v i = .ok a) : a ∈ v := by
  rw [atInt?] at h
  split_ifs at h
  exact List.mem_of_getElem? (at?_eq_ok.mp h)

/-! ## From the table to the answers -/

namespace Prediction

theorem named_of_compare {testBurst t : Burst} {n n' : Nearest F}
    (hn : ∀ b ∈ n.nearestVec, P b.instanceLabel) (ht : P t.instanceLabel)
    (h : compare testBurst n t = .ok n') : ∀ b ∈ n'.nearestVec, P b.instanceLabel := by
  obtain ⟨distance, -, h⟩ := CheckedLoop.bind_eq_ok.mp h
  split_ifs at h with hcloser htie
  · cases h
    intro b hb
    rw [List.mem_singleton.mp hb]
    exact ht
  · cases h
    intro b hb
    rcases List.mem_append.mp hb with hb | hb
    · exact hn b hb
    · rw [List.mem_singleton.mp hb]
      exact ht
  · cases h
    exact hn

/-- **An answer has labels of the table.** -/
theorem named_of_search {div : DivisionParam} {cfg : TestParam F}
    {train : List (List (List Burst))} (htrain : TableNamed P train) {testBurst : Burst}
    {n : Nearest F} (h : search div cfg train testBurst = .ok n) :
    ∀ b ∈ n.nearestVec, P b.instanceLabel := by
  let I : Nearest F → Prop := fun n => ∀ b ∈ n.nearestVec, P b.instanceLabel
  have hcell : ∀ i j (n n' : Nearest F), I n → searchCell train testBurst n i j = .ok n' →
      I n' := by
    intro i j n n' hn h
    obtain ⟨row, hrow, h⟩ := CheckedLoop.bind_eq_ok.mp h
    obtain ⟨cell, hcell, h⟩ := CheckedLoop.bind_eq_ok.mp h
    refine CheckedLoop.foldlM_inv (I := fun _ n => I n) cell []
      (fun _ t n n' ht hn hstep => named_of_compare hn ?_ hstep) hn h
    exact htrain row (mem_of_atInt? hrow) cell (mem_of_atInt? hcell) t ht
  refine CheckedLoop.foldlM_inv (I := fun _ n => I n) _ [] (fun _ i n n' _ hn hrow => ?_)
    (fun b hb => absurd hb List.not_mem_nil) h
  exact CheckedLoop.foldlM_inv (I := fun _ n => I n) _ []
    (fun _ j n n' _ hn hstep => hcell i j n n' hn hstep) hn hrow

end Prediction

/-! ## From the answers to the decision -/

namespace BurstGroupPolicy

/-- A policy that knows names in `P` only, and has ranked none. -/
structure BucketNamed (P : String → Prop) (policy : BurstGroupPolicy F) : Prop where
  bucket : ∀ name ∈ policy.predictBucket, P name
  ranked : policy.rankedGroup = []
  prediction : policy.prediction = ""

theorem BucketNamed.addBurstPrediction {policy policy' : BurstGroupPolicy F}
    (hpolicy : BucketNamed P policy) {answer : Nearest F}
    (hanswer : ∀ b ∈ answer.nearestVec, P b.instanceLabel)
    (h : policy.addBurstPrediction answer = .ok policy') : BucketNamed P policy' := by
  have hvotes : ∀ (names : List String) (vote : F) (bucket : UnorderedMap String F),
      (∀ name ∈ names, P name) → (∀ name ∈ bucket, P name) →
      ∀ name ∈ names.foldl (fun bucket item => bucket.update item 0 (· + vote)) bucket, P name := by
    intro names vote
    induction names with
    | nil => exact fun _ _ hbucket => hbucket
    | cons item names ih =>
      intro bucket hnames hbucket
      obtain ⟨hitem, hnames⟩ := List.forall_mem_cons.mp hnames
      refine ih _ hnames fun name hname => ?_
      rcases UnorderedMap.mem_update.mp hname with rfl | hname
      · exact hitem
      · exact hbucket name hname
  obtain ⟨testBurst, -, h⟩ := CheckedLoop.bind_eq_ok.mp h
  dsimp only at h
  split_ifs at h
  · cases h
    exact ⟨hpolicy.bucket, hpolicy.ranked, hpolicy.prediction⟩
  · cases h
    refine ⟨hvotes _ _ _ (fun name hname => ?_) hpolicy.bucket, hpolicy.ranked,
      hpolicy.prediction⟩
    rw [stringSet, Finset.mem_sort, List.mem_toFinset] at hname
    obtain ⟨b, hb, rfl⟩ := List.mem_map.mp hname
    exact hanswer b hb

omit [Elementary F] in
/-- The ranked names are those of the bucket, or the types of the devices. -/
theorem BucketNamed.rankNames {deviceVec : List KDevice} (hP : ClosedNames P deviceVec)
    {policy : BurstGroupPolicy F} (h : BucketNamed P policy) (lib : StdLib) :
    (∀ e ∈ (policy.rankNames lib deviceVec).rankedGroup, P e.2) ∧
      P (policy.rankNames lib deviceVec).prediction := by
  by_cases hvotes : ∃ name score, Scored policy.predictBucket name score
  · obtain ⟨ranked, heq, hranked⟩ := rankNames_voted lib deviceVec h.ranked hvotes
    rw [heq]
    refine ⟨fun e he => ?_, ?_⟩
    · have hscored := (hranked.mem_iff e).mp (List.mem_reverse.mpr he)
      exact h.bucket e.2 (UnorderedMap.mem_of_lookup hscored.1)
    · show P policy.prediction
      rw [h.prediction]
      exact hP.empty
  · rw [rankNames_fallback lib deviceVec h.ranked hvotes]
    refine ⟨fun e he => ?_, hP.unreliable⟩
    obtain ⟨device, hdevice, rfl⟩ := List.mem_map.mp he
    exact hP.types device hdevice

omit [Field F] [Elementary F] in
/-- The loop over the ranks keeps its name or takes one of theirs. -/
theorem named_of_closestName {context : Context}
    {blockLevelDistribution : UnorderedMap UInt16 (List Burst)} {mergedBurst : Burst} {maxScore : F}
    {ranks : List (F × String)} (hranks : ∀ e ∈ ranks, P e.2) {best best' : String × ℕ}
    (hbest : P best.1)
    (h : closestName context blockLevelDistribution mergedBurst maxScore ranks best = .ok best') :
    P best'.1 := by
  have hcloser : ∀ (devName : String) (blocks : List Burst) (best : String × ℕ), P devName →
      P best.1 → P (closerBlocks mergedBurst devName blocks best).1 := by
    intro devName blocks
    induction blocks with
    | nil => exact fun _ _ hbest => hbest
    | cons block blocks ih =>
      intro best hname hbest
      refine ih _ hname ?_
      dsimp only
      split_ifs
      · exact hname
      · exact hbest
  induction ranks generalizing best with
  | nil =>
    cases h
    exact hbest
  | cons e ranks ih =>
    obtain ⟨devScore, devName⟩ := e
    obtain ⟨hname, hranks⟩ := List.forall_mem_cons.mp hranks
    rw [closestName] at h
    split_ifs at h
    · cases h
      exact hbest
    · obtain ⟨device, -, h⟩ := CheckedLoop.bind_eq_ok.mp h
      exact ih hranks (hcloser _ _ _ hname hbest) h

omit [Elementary F] in
/-- **The decision is a name of the bucket, the type of a device, `unreliable` or empty.** -/
theorem BucketNamed.genPrediction {context : Context} (hP : ClosedNames P context.deviceVec)
    {policy policy' : BurstGroupPolicy F} (hpolicy : BucketNamed P policy) {lib : StdLib}
    {cfg : TestParam F} {blockLevelDistribution : UnorderedMap UInt16 (List Burst)}
    (h : policy.genPrediction lib cfg context blockLevelDistribution = .ok policy') :
    P policy'.prediction := by
  obtain ⟨hranked, hprediction⟩ := hpolicy.rankNames hP lib
  rw [BurstGroupPolicy.genPrediction] at h
  dsimp only at h
  have hreverse : ∀ e ∈ (policy.rankNames lib context.deviceVec).rankedGroup.reverse, P e.2 :=
    fun e he => hranked e (List.mem_reverse.mp he)
  split at h
  · cases h
  · rename_i score name hranks
    cases h
    exact hreverse (score, name) (hranks ▸ List.mem_cons_self)
  · rename_i score name score' name' rest hranks
    rw [hranks] at hreverse
    split_ifs at h
    · obtain ⟨best, hclosest, h⟩ := CheckedLoop.bind_eq_ok.mp h
      cases h
      exact named_of_closestName hreverse hprediction hclosest
    · cases h
      exact hreverse (score, name) List.mem_cons_self

end BurstGroupPolicy

/-! ## From the decision to the sheets -/

namespace Classifier

open BurstGroupPolicy

/-- The names that an environment has. -/
structure EnvNamed (P : String → Prop) (env : PredictEnv F) : Prop where
  closed : ClosedNames P env.context.deviceVec
  table : TableNamed P env.train
  devices : ∀ device ∈ env.context.deviceVec, P device.instanceName

variable {env : PredictEnv F}

theorem bucketNamed_of_policyOf (henv : EnvNamed P env) {block : BurstBlock}
    {policy : BurstGroupPolicy F} (h : policyOf env block = .ok policy) : BucketNamed P policy := by
  have hstart : BucketNamed P ({ testGroup := block } : BurstGroupPolicy F) :=
    ⟨fun name hname => absurd hname (AList.notMem_empty name), rfl, rfl⟩
  refine CheckedLoop.foldlM_inv (I := fun _ policy => BucketNamed P policy) block []
    (fun _ b policy policy' _ hpolicy hstep => ?_) hstart h
  obtain ⟨nearest, hsearch, hvote⟩ := CheckedLoop.bind_eq_ok.mp hstep
  exact hpolicy.addBurstPrediction (Prediction.named_of_search henv.table hsearch) hvote

/-- **The prediction for a block.** -/
theorem named_of_judge (henv : EnvNamed P env) {block : BurstBlock} {predict : BurstGroupPolicy F}
    (h : env.judge block = .ok predict) : P predict.prediction := by
  obtain ⟨policy, hpolicy, hdecide⟩ := CheckedLoop.bind_eq_ok.mp h
  exact (bucketNamed_of_policyOf henv hpolicy).genPrediction henv.closed hdecide

/-- The type of a name in `P`. -/
def TypeNamed (P : String → Prop) (type : String) : Prop :=
  ∃ name, P name ∧ removeSuffix name = type

/-- An event that concerns types of names in `P`, or a policy whose prediction is in `P`. -/
def EventNamed (P : String → Prop) : ScoreEvent F → Prop
  | .outcome o => ∀ type ∈ o.types, TypeNamed P type
  | .err predict => P predict.prediction

omit [Field F] [LinearOrder F] [Elementary F] in
theorem eventNamed_ofPrediction {trueLabel : String} (htrue : P trueLabel)
    {predict : BurstGroupPolicy F} (hpredict : P predict.prediction) (index : ℕ) :
    ∀ event ∈ ScoreEvent.ofPrediction trueLabel predict index, EventNamed P event := by
  have htrueType : TypeNamed P (removeSuffix trueLabel) := ⟨trueLabel, htrue, rfl⟩
  have hpredictType : TypeNamed P (removeSuffix predict.prediction) :=
    ⟨predict.prediction, hpredict, rfl⟩
  have htypes : ∀ type ∈ (Outcome.ofPrediction trueLabel predict.prediction index).types,
      TypeNamed P type := by
    rw [Outcome.ofPrediction]
    split_ifs <;> simp [Outcome.types, htrueType, hpredictType]
  intro event hevent
  rw [ScoreEvent.ofPrediction] at hevent
  rcases List.mem_cons.mp hevent with rfl | hevent
  · exact htypes
  · split_ifs at hevent
    · exact absurd hevent List.not_mem_nil
    · rw [List.mem_singleton.mp hevent]
      exact hpredict

theorem eventNamed_of_blockEvents (henv : EnvNamed P env) {trueDevice : String}
    (htrue : P trueDevice) {blocks : List BurstBlock} {index : ℕ} {events : List (ScoreEvent F)}
    (h : blockEvents env trueDevice blocks index = .ok events) :
    ∀ event ∈ events, EventNamed P event := by
  induction blocks generalizing index events with
  | nil =>
    cases h
    exact fun event hevent => absurd hevent List.not_mem_nil
  | cons block rest ih =>
    rw [blockEvents] at h
    split_ifs at h
    · exact ih h
    · obtain ⟨policy, hpolicy, h⟩ := CheckedLoop.bind_eq_ok.mp h
      obtain ⟨predict, hpredict, h⟩ := CheckedLoop.bind_eq_ok.mp h
      obtain ⟨later, hlater, h⟩ := CheckedLoop.bind_eq_ok.mp h
      cases h
      have hjudge : env.judge block = .ok predict :=
        CheckedLoop.bind_eq_ok.mpr ⟨policy, hpolicy, hpredict⟩
      intro event hevent
      rcases List.mem_append.mp hevent with hevent | hevent
      · exact eventNamed_ofPrediction htrue (named_of_judge henv hjudge) index event hevent
      · exact ih hlater event hevent

/-- The blocks of a task have bursts with labels in `P`. -/
def ActionNamed (P : String → Prop) : MainAction → Prop
  | .addPktAvgNum _ _ => True
  | .start task => ∀ block ∈ task.smallGroups, ∀ b ∈ block, P b.instanceLabel

theorem eventNamed_of_actionEvents (henv : EnvNamed P env) {action : MainAction}
    (haction : ActionNamed P action) {events : List (ScoreEvent F)}
    (h : actionEvents env action = .ok events) : ∀ event ∈ events, EventNamed P event := by
  cases action with
  | addPktAvgNum deviceId num =>
    obtain ⟨device, hdevice, h⟩ := CheckedLoop.bind_eq_ok.mp h
    cases h
    have hmem : device ∈ env.context.deviceVec := List.mem_of_getElem? (at?_eq_ok.mp hdevice)
    intro event hevent
    rw [List.mem_singleton.mp hevent]
    intro type htype
    rw [List.mem_singleton.mp htype]
    exact ⟨device.instanceName, henv.devices device hmem, rfl⟩
  | start task =>
    obtain ⟨burst, hburst, hblocks⟩ := CheckedLoop.bind_eq_ok.mp h
    obtain ⟨block, hblock, hburst⟩ := CheckedLoop.bind_eq_ok.mp hburst
    have hblock : block ∈ task.smallGroups := mem_of_atChecked? hblock
    exact eventNamed_of_blockEvents henv (haction block hblock burst (mem_of_atChecked? hburst))
      hblocks

/-- The tasks that main starts have blocks of the test half. -/
theorem actionNamed_of_mainActions {lib : StdLib} {div : DivisionParam}
    (hslot : 1 ≤ div.timeslot.toNat) (hmax : div.timeslot.toNat ≤ epochTimeslot * 3600)
    {addrAvgPktMap : UnorderedMap UInt16 ℕ} {testset : UnorderedMap UInt16 (List BurstBlock)}
    (htest : HalfNamed P testset) {actions : List (List MainAction)}
    (h : mainActions lib div addrAvgPktMap testset = .ok actions) :
    ∀ action ∈ actions.flatten, ActionNamed P action := by
  intro action haction
  cases action with
  | addPktAvgNum deviceId num => trivial
  | start task =>
    obtain ⟨d, blocks, hd, hsub⟩ := exists_blocks_of_start hslot hmax h haction
    exact fun block hblock => htest d blocks hd block (hsub block hblock)

/-- A score whose types are those of names in `P`, and whose predictions are in `P`. -/
structure ScoreNamed (P : String → Prop) (score : Score F) : Prop where
  types : ∀ type ∈ score.sheet, TypeNamed P type
  predictions : ∀ policy ∈ score.errBurstGroups, P policy.prediction

omit [Field F] [LinearOrder F] [Elementary F] in
theorem scoreNamed_of_logged {log : List (ScoreEvent F)} {score : Score F}
    (hlog : Logged log score) (hevents : ∀ event ∈ log, EventNamed P event) :
    ScoreNamed P score := by
  refine ⟨fun type htype => ?_, fun policy hpolicy => ?_⟩
  · obtain ⟨o, ho, hmem⟩ := (hlog.mem type).mp htype
    obtain ⟨event, hevent, ho⟩ := List.mem_filterMap.mp ho
    cases event with
    | outcome o' =>
      obtain rfl : o' = o := Option.some_inj.mp ho
      exact hevents _ hevent type hmem
    | err predict => cases ho
  · rw [hlog.errBurstGroups] at hpolicy
    obtain ⟨event, hevent, heq⟩ := List.mem_filterMap.mp hpolicy
    cases event with
    | outcome o => cases heq
    | err predict =>
      obtain rfl : predict = policy := Option.some_inj.mp heq
      exact hevents _ hevent

/-! ## Any run -/

open TrainOrder in
/-- **A training stores labels of the training half**, in whatever order its tasks go on. -/
theorem tableNamed_of_trained {lib : StdLib} {cfg : Config F} {statics : PolicyStatics}
    {trainset : UnorderedMap UInt16 (List BurstBlock)} {tasks : List TrainTask} {s : TrainState}
    (htasks : trainTasks lib cfg trainset = .ok tasks)
    (htrained : Trained lib cfg statics trainset tasks s)
    (htrain : HalfNamed P trainset) : TableNamed P s.classifier.train := by
  intro row hrow cell hcell b hb
  obtain ⟨i, hi⟩ := List.mem_iff_getElem?.mp hrow
  obtain ⟨j, hj⟩ := List.mem_iff_getElem?.mp hcell
  have hmem : b ∈ TrainStore.cell s.classifier.train i j := by
    rw [TrainStore.cell, hi]
    show b ∈ (row[j]?).getD []
    rw [hj]
    exact hb
  obtain ⟨d, blocks, hd, block, hblock, hmem⟩ := Recall.exists_block_of_cell htasks htrained hmem
  exact htrain d blocks hd block hblock b hmem

section Runs

variable {lib : StdLib} {cfg : Config F} {context : Context} {classifier : KBurstClassifier}
  {statics : PolicyStatics} {cache : PredictionCache F}
  {testset : UnorderedMap UInt16 (List BurstBlock)}

open ParallelPrediction StepSystem

/-- **A prediction scores names in `P`**, alone and under any schedule of its tasks. -/
theorem scoreNamed_of_reachable
    (henv : EnvNamed P (PredictEnv.ofCall lib cfg context classifier statics))
    (htest : HalfNamed P testset) (hslot : 1 ≤ cfg.divisionParam.timeslot.toNat)
    (hmax : cfg.divisionParam.timeslot.toNat ≤ epochTimeslot * 3600)
    (hlen : ∀ d burstGroups, testset.lookup d = some burstGroups → burstGroups.length < 2 ^ 31)
    (htotal : totalTasks cfg.divisionParam testset < 2 ^ 31)
    (hcache : (PredictEnv.ofCall lib cfg context classifier statics).RightCache cache)
    {alone : Score F × PolicyStatics × PredictionCache F}
    (h : predict lib cfg context classifier statics cache testset = .ok alone) :
    ScoreNamed P alone.1 ∧ ∃ actions,
      mainActions lib cfg.divisionParam statics.addrAvgPktMap testset = .ok actions ∧
      (Calm (PredictEnv.ofCall lib cfg context classifier statics) actions.flatten →
        ∀ s, Reachable (step (PredictEnv.ofCall lib cfg context classifier statics))
            (start (Classifier.taskNum lib cfg.divisionParam testset) cache actions.flatten) s →
          ¬ Racing (PredictEnv.ofCall lib cfg context classifier statics) s ∧
          (s.main = .returned → ScoreNamed P s.shared.score)) := by
  obtain ⟨actions, events, hactions, hevents, hlogged⟩ := predict_events hslot hmax hcache hlen h
  have hnamed : ScoreNamed P alone.1 := by
    refine scoreNamed_of_logged hlogged fun event hevent => ?_
    obtain ⟨own, hown, hevent⟩ := List.mem_flatten.mp hevent
    obtain ⟨action, haction, hrun⟩ := CheckedLoop.exists_of_mem_mapM_ok hevents hown
    exact eventNamed_of_actionEvents henv
      (actionNamed_of_mainActions hslot hmax htest hactions action haction) hrun event hevent
  refine ⟨hnamed, ?_⟩
  obtain ⟨actions, hactions, hruns⟩ := alike_of_calm hslot hmax hlen htotal hcache h
  refine ⟨actions, hactions, fun hcalm s hs => ?_⟩
  obtain ⟨hfree, hscore⟩ := hruns hcalm s hs
  refine ⟨hfree, fun hreturned => ?_⟩
  obtain ⟨halike, herrs⟩ := hscore hreturned
  exact ⟨fun type htype => hnamed.types type ((halike.mem type).mp htype),
    fun policy hpolicy => hnamed.predictions policy (herrs.mem_iff.mp hpolicy)⟩

end Runs

/-- The names that some devices give: their own, their types, and the two that need no device. -/
def Given (deviceVec : List KDevice) (name : String) : Prop :=
  name = "" ∨ name = "unreliable" ∨ ∃ device ∈ deviceVec,
    name = device.instanceName ∨ name = removeSuffix device.instanceName

/-- The bursts of a half are labelled with names of registered devices. -/
def Labels (context : Context) (half : UnorderedMap UInt16 (List BurstBlock)) : Prop :=
  HalfNamed (fun name => ∃ device ∈ context.deviceVec, name = device.instanceName) half

theorem Labels.given {context : Context} {half : UnorderedMap UInt16 (List BurstBlock)}
    (h : Labels context half) : HalfNamed (Given context.deviceVec) half := by
  intro d blocks hd block hblock b hb
  obtain ⟨device, hdevice, heq⟩ := h d blocks hd block hblock b hb
  exact Or.inr (Or.inr ⟨device, hdevice, Or.inl heq⟩)

theorem closed_given (deviceVec : List KDevice) : ClosedNames (Given deviceVec) deviceVec where
  empty := Or.inl rfl
  unreliable := Or.inr (Or.inl rfl)
  types := fun device hdevice => Or.inr (Or.inr ⟨device, hdevice, Or.inr rfl⟩)

open TrainOrder Interleaving ParallelPrediction StepSystem in
/-- **Names are never made up.**  Let the bursts of both halves be labelled with names of registered
devices, and let any interleaving of the training tasks have gone through.  If `Predict` goes
through, then every type that has a sheet is the type of a given name, and every wrong block is
taken for a given name, where given are the names of the devices, their types, `unreliable` and the
empty name; and so it is whatever the tasks of the prediction do in between, if they stay apart. -/
theorem names_of_runs {lib : StdLib} {cfg : Config F} {context : Context} {statics : PolicyStatics}
    {trainset testset : UnorderedMap UInt16 (List BurstBlock)} (htrain : Labels context trainset)
    (htest : Labels context testset) {tasks : List TrainTask}
    (htasks : trainTasks lib cfg trainset = .ok tasks) {schedule : List ℕ} {log : List TrainAction}
    (hlog : interleave (tasks.map (TrainTask.actions lib)) schedule = some log) {s : TrainState}
    (hrun : log.foldlM (perform cfg.divisionParam) (TrainState.init cfg statics trainset) = .ok s)
    (hslot : 1 ≤ cfg.divisionParam.timeslot.toNat)
    (hmax : cfg.divisionParam.timeslot.toNat ≤ epochTimeslot * 3600)
    (hlen : ∀ d burstGroups, testset.lookup d = some burstGroups → burstGroups.length < 2 ^ 31)
    (htotal : totalTasks cfg.divisionParam testset < 2 ^ 31) {cache : PredictionCache F}
    (hcache : (PredictEnv.ofCall lib cfg context s.classifier s.statics).RightCache cache)
    {alone : Score F × PolicyStatics × PredictionCache F}
    (h : predict lib cfg context s.classifier s.statics cache testset = .ok alone) :
    ScoreNamed (Given context.deviceVec) alone.1 ∧ ∃ actions,
      mainActions lib cfg.divisionParam s.statics.addrAvgPktMap testset = .ok actions ∧
      (Calm (PredictEnv.ofCall lib cfg context s.classifier s.statics) actions.flatten →
        ∀ state, Reachable (step (PredictEnv.ofCall lib cfg context s.classifier s.statics))
            (start (Classifier.taskNum lib cfg.divisionParam testset) cache actions.flatten)
            state →
          ¬ Racing (PredictEnv.ofCall lib cfg context s.classifier s.statics) state ∧
          (state.main = .returned →
            ScoreNamed (Given context.deviceVec) state.shared.score)) := by
  obtain ⟨-, htrained, -⟩ := trained_of_run htasks hlog hrun
  have henv : EnvNamed (Given context.deviceVec)
      (PredictEnv.ofCall lib cfg context s.classifier s.statics) :=
    { closed := closed_given context.deviceVec
      table := tableNamed_of_trained htasks htrained htrain.given
      devices := fun device hdevice => Or.inr (Or.inr ⟨device, hdevice, Or.inl rfl⟩) }
  exact scoreNamed_of_reachable henv htest.given hslot hmax hlen htotal hcache h

open Separation TrainOrder in
theorem labels_home : Labels homeRegistry homeSet := by
  intro d blocks h block hblock b hb
  obtain ⟨b', rfl, hlabel⟩ := forall_home
    (P := fun _ b => ∃ device ∈ homeRegistry.deviceVec, b.instanceLabel = device.instanceName)
    ⟨homeLampDevice, List.mem_cons_self, rfl⟩ ⟨homeLampDevice, List.mem_cons_self, rfl⟩
    ⟨homePlugDevice, List.mem_cons_of_mem _ List.mem_cons_self, rfl⟩ h hblock
  rw [List.mem_singleton.mp hb]
  exact hlabel

open Separation TrainOrder ParallelPrediction StepSystem in
/-- The types of the lamp and the plug. -/
theorem names_of_runs_home : ∃ s alone actions,
    homeLog.foldlM (perform {}) (TrainState.init ({} : Config ℝ) {} homeSet) = .ok s ∧
      predict .insertion ({} : Config ℝ) homeRegistry s.classifier s.statics [] homeSet =
        .ok alone ∧
      ScoreNamed (Given [homeLampDevice, homePlugDevice]) alone.1 ∧
      mainActions .insertion {} s.statics.addrAvgPktMap homeSet = .ok actions ∧
      ∀ state, Reachable (step (homeEnv s))
          (start (Classifier.taskNum .insertion {} homeSet) [] actions.flatten) state →
        state.main = .returned →
          ScoreNamed (Given [homeLampDevice, homePlugDevice]) state.shared.score := by
  obtain ⟨s, hrun⟩ := run_home
  obtain ⟨alone, halone⟩ := predict_home interleave_home hrun
  obtain ⟨hnamed, actions, hactions, hall⟩ := names_of_runs labels_home labels_home trainTasks_home
    interleave_home hrun (by decide) (by decide) length_lt_home (by rw [totalTasks_home]; decide)
    (rightCache_nil (homeEnv s)) halone
  refine ⟨s, alone, actions, hrun, halone, hnamed, hactions, fun state hstate => ?_⟩
  exact (hall (calm_home interleave_home hrun hactions) state hstate).2

end Classifier

end BurstIoT
