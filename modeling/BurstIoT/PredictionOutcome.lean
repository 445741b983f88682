import BurstIoT.PredictionRaces
import BurstIoT.Separation

/-!
# The outcome of a prediction

What a prediction leaves does not depend on what its tasks do in between, as long as they stay
apart (`Calm`): no state is racing, no task fails, and once main has its score back, it is that of
the tasks one after another, up to the order of its vectors (`score_of_reachable`).

So what the tasks count one after another, they count under any schedule: the verdicts on the blocks
(`confusion_of_predict`), and one hit for each block if the devices are told apart, when the tasks
are sure to stay apart (`predict_flawless`).
-/

namespace BurstIoT
namespace ParallelPrediction

open StepSystem Classifier

/-- **The score does not depend on the schedule.**  If the tasks go through one after another and
stay apart, then whatever main and the tasks do, no state is racing and none of them fails; and once
main has its score back, every task is finished, the sheets are those of the tasks one after another
up to the order of their vectors, and so are the policies of the blocks whose prediction was missed
or wrong. -/
theorem score_of_reachable {F : Type} [Field F] [LinearOrder F] [Elementary F] {lib : StdLib}
    {cfg : Config F} {context : Context} {classifier : KBurstClassifier} {statics : PolicyStatics}
    {cache : PredictionCache F} {testset : UnorderedMap UInt16 (List BurstBlock)}
    (hslot : 1 ≤ cfg.divisionParam.timeslot.toNat)
    (hmax : cfg.divisionParam.timeslot.toNat ≤ epochTimeslot * 3600)
    (hlen : ∀ d burstGroups, testset.lookup d = some burstGroups → burstGroups.length < 2 ^ 31)
    (htotal : totalTasks cfg.divisionParam testset < 2 ^ 31)
    (hcache : (PredictEnv.ofCall lib cfg context classifier statics).RightCache cache)
    {alone : Score F × PolicyStatics × PredictionCache F}
    (h : predict lib cfg context classifier statics cache testset = .ok alone) :
    ∃ actions, mainActions lib cfg.divisionParam statics.addrAvgPktMap testset = .ok actions ∧
      (Calm (PredictEnv.ofCall lib cfg context classifier statics) actions.flatten →
        ∀ s, Reachable (step (PredictEnv.ofCall lib cfg context classifier statics))
            (start (Classifier.taskNum lib cfg.divisionParam testset) cache actions.flatten) s →
          ¬ Racing (PredictEnv.ofCall lib cfg context classifier statics) s ∧
          (∀ fault, s.main ≠ .failed fault ∧ ∀ phase ∈ s.tasks, phase ≠ .failed fault) ∧
          (s.main = .returned → (∀ phase ∈ s.tasks, phase = .finished) ∧
            s.shared.score.SheetsAlike alone.1 ∧
            s.shared.score.errBurstGroups.Perm alone.1.errBurstGroups)) := by
  obtain ⟨actions, events, hactions, hevents, hlogged⟩ :=
    predict_events hslot hmax hcache hlen h
  refine ⟨actions, hactions, fun hcalm s hs => ?_⟩
  rw [taskNum_eq hslot hmax htotal hactions] at hs
  obtain ⟨htrack, hsourced⟩ := sourced_of_reachable hcache hevents hs
  refine ⟨hsourced.not_racing hcalm, fun fault => ⟨htrack.main_ne_failed fault,
    fun phase hphase => htrack.ne_failed hphase fault⟩,
    fun hreturned => ⟨fun phase hphase => ?_, htrack.alike hlogged hreturned⟩⟩
  have hfinished := htrack.returned hreturned phase hphase
  cases phase with
  | finished => rfl
  | _ => cases hfinished

end ParallelPrediction

namespace Classifier

open ParallelPrediction StepSystem

section Confusion

variable {F : Type} [Field F] [LinearOrder F] [Elementary F]

/-- Scores that are alike count the same. -/
theorem Confusion.of_alike {env : PredictEnv F} {done : List (String × BurstBlock)}
    {score score' : Score F} (h : Confusion env done score) (halike : score'.SheetsAlike score)
    (herrs : score'.errBurstGroups.Perm score.errBurstGroups) : Confusion env done score' where
  missNum := fun type => (halike.sheetOf type).missNum.trans (h.missNum type)
  TP := fun type => (halike.sheetOf type).TP.trans (h.TP type)
  FN := fun type => (halike.sheetOf type).FN.trans (h.FN type)
  FP := fun type => (halike.sheetOf type).FP.trans (h.FP type)
  errBurstGroups := herrs.trans h.errBurstGroups

end Confusion

end Classifier

namespace Separation

open Classifier TrainStore BurstGroupPolicy ParallelPrediction StepSystem

/-! ## Devices that are told apart -/

/-- A score that is like one without an error has none. -/
theorem Flawless.of_alike {hits : List String} {score score' : Score ℝ} (h : Flawless hits score)
    (halike : score'.SheetsAlike score)
    (herrs : score'.errBurstGroups.Perm score.errBurstGroups) : Flawless hits score' where
  TP := fun type => (halike.sheetOf type).TP.trans (h.TP type)
  FN := fun type => (halike.sheetOf type).FN.trans (h.FN type)
  FP := fun type => (halike.sheetOf type).FP.trans (h.FP type)
  missNum := fun type => (halike.sheetOf type).missNum.trans (h.missNum type)
  errBurstGroups := List.perm_nil.mp (h.errBurstGroups ▸ herrs)

/-- **The policy of a distinctive block** consults trained devices only. -/
theorem mem_of_consulted {env : PredictEnv ℝ} (hprep : Prepared env) {type : String}
    {block : BurstBlock} (hblock : Distinctive env type block) {policy : BurstGroupPolicy ℝ}
    (hpolicy : policyOf env block = .ok policy) {d : UInt16}
    (hd : d ∈ policy.consulted env.lib env.cfg.classifyParam env.context) :
    d ∈ env.blockLevelDistribution := by
  obtain ⟨policy', hpolicy', -, hfresh, hvotes, htype⟩ := exists_votes hprep hblock
  obtain rfl : policy = policy' := Except.ok.inj (hpolicy.symm.trans hpolicy')
  obtain ⟨e, he, device, hdevice, rfl⟩ := exists_device_of_consulted hd
  obtain ⟨ranked, hranked, hdescending⟩ :=
    rankNames_voted env.lib env.context.deviceVec hfresh hvotes
  rw [hranked] at he
  have hscored := (hdescending.mem_iff e).mp (List.mem_reverse.mpr he)
  obtain ⟨-, -, merged, hmerged, -⟩ := htype e.2 (UnorderedMap.mem_of_lookup hscored.1)
  rw [blocksOf, Context.getDevice_eq_ok.mp hdevice] at hmerged
  by_contra hnone
  have hempty : merged ∈ (env.blockLevelDistribution.lookup device.devId).getD [] := hmerged
  rw [AList.lookup_eq_none.mpr hnone] at hempty
  exact absurd hempty List.not_mem_nil

/-- **The tasks of recognisable devices stay apart.** -/
theorem calm_of_testHalf {env : PredictEnv ℝ} (hprep : Prepared env) {lib : StdLib}
    {div : DivisionParam} {testset : UnorderedMap UInt16 (List BurstBlock)}
    {type : UInt16 → String} (htest : TestHalf env type testset) (hslot : 1 ≤ div.timeslot.toNat)
    (hmax : div.timeslot.toNat ≤ epochTimeslot * 3600) {addrAvgPktMap : UnorderedMap UInt16 ℕ}
    {actions : List (List MainAction)}
    (hactions : mainActions lib div addrAvgPktMap testset = .ok actions) :
    Calm env actions.flatten := by
  refine calm_of_tested hslot hmax hactions
    fun d blocks hd block hblock hpasses policy hpolicy => ?_
  have hdistinct := (htest.recognisable d blocks hd).distinctive block hblock
    (not_lt.mpr (of_decide_eq_true hpasses))
  refine ⟨fun predict hdecide => ?_, fun d' => mem_of_consulted hprep hdistinct hpolicy⟩
  obtain ⟨predict', hjudge, htype⟩ := predict_block hprep hdistinct
  obtain rfl : predict = predict' := by
    refine Except.ok.inj (Eq.trans ?_ hjudge)
    exact (CheckedLoop.bind_eq_ok.mpr ⟨policy, hpolicy, hdecide⟩).symm
  rw [htype]
  exact hdistinct.reliable

open TrainOrder Interleaving in
/-- **Devices that are told apart are recognised without an error.**  Let any interleaving of the
training tasks have gone through.  Of each block of the test half that passes the filter, let some
burst be within `1 / 2` of a training burst, and let its bursts share a signature with training
bursts of their own type only, as far as these are scanned.  Then `Predict` goes through, with one
hit for each of these blocks under its type, and neither a miss nor a wrong prediction; and so it
does whatever its tasks do in between, without a race. -/
theorem predict_flawless {lib : StdLib} {cfg : Config ℝ} {context : Context}
    {statics : PolicyStatics} {trainset testset : UnorderedMap UInt16 (List BurstBlock)}
    (hindex : 1 ≤ cfg.divisionParam.burstMaxPacketIndex)
    (h101 : cfg.divisionParam.burstMaxUnisig ≤ 101)
    (hslot : 1 ≤ cfg.divisionParam.timeslot.toNat)
    (hmax : cfg.divisionParam.timeslot.toNat ≤ epochTimeslot * 3600)
    (htrain : TrainHalf context trainset) {tasks : List TrainTask}
    (htasks : trainTasks lib cfg trainset = .ok tasks) {schedule : List ℕ}
    {log : List TrainAction}
    (hlog : interleave (tasks.map (TrainTask.actions lib)) schedule = some log) {s : TrainState}
    (hrun : log.foldlM (perform cfg.divisionParam) (TrainState.init cfg statics trainset) = .ok s)
    {type : UInt16 → String}
    (htest : TestHalf (.ofCall lib cfg context s.classifier s.statics) type testset)
    (htotal : totalTasks cfg.divisionParam testset < 2 ^ 31) {cache : PredictionCache ℝ}
    (hcache : (PredictEnv.ofCall lib cfg context s.classifier s.statics).RightCache cache) :
    (∃ alone, predict lib cfg context s.classifier s.statics cache testset = .ok alone ∧
      Flawless (allHits lib cfg.filterParam type testset) alone.1) ∧
    ∃ actions, mainActions lib cfg.divisionParam s.statics.addrAvgPktMap testset = .ok actions ∧
      ∀ st, Reachable (step (PredictEnv.ofCall lib cfg context s.classifier s.statics))
          (start (Classifier.taskNum lib cfg.divisionParam testset) cache actions.flatten) st →
        ¬ Racing (PredictEnv.ofCall lib cfg context s.classifier s.statics) st ∧
        (st.main = .returned →
          Flawless (allHits lib cfg.filterParam type testset) st.shared.score) := by
  have hprep : Prepared (.ofCall lib cfg context s.classifier s.statics) :=
    prepared_of_run hindex h101 htrain htasks hlog hrun
  obtain ⟨alone, halone, hflawless⟩ := predict_sound hprep htest hcache hslot hmax
  obtain ⟨actions, hactions, hruns⟩ :=
    alike_of_calm hslot hmax htest.length_lt htotal hcache halone
  have hcalm : Calm (PredictEnv.ofCall lib cfg context s.classifier s.statics) actions.flatten :=
    calm_of_testHalf hprep htest hslot hmax hactions
  refine ⟨⟨alone, halone, hflawless⟩, actions, hactions, fun st hst => ?_⟩
  obtain ⟨hfree, hscore⟩ := hruns hcalm st hst
  refine ⟨hfree, fun hreturned => ?_⟩
  obtain ⟨halike, herrs⟩ := hscore hreturned
  exact hflawless.of_alike halike herrs

/-! ## The home -/

section Home

open TrainOrder Interleaving

/-- Tested with what they were trained with, the tasks of the lamp and the plug stay apart. -/
theorem calm_home {schedule : List ℕ} {log : List TrainAction} {s : TrainState}
    (hlog : interleave (homeTasks.map (TrainTask.actions .insertion)) schedule = some log)
    (hrun : log.foldlM (perform {}) (TrainState.init ({} : Config ℝ) {} homeSet) = .ok s)
    {actions : List (List MainAction)} (hactions : mainActions .insertion
      ({} : Config ℝ).divisionParam s.statics.addrAvgPktMap homeSet = .ok actions) :
    Calm (homeEnv s) actions.flatten :=
  calm_of_testHalf (prepared_home hlog hrun) (testHalf_home hlog hrun) (by decide) (by decide)
    hactions

/-- The two devices need two tasks. -/
theorem totalTasks_home : totalTasks ({} : Config ℝ).divisionParam homeSet = 2 := by
  decide +kernel

/-- The lamp and the plug are predicted at once. -/
theorem score_of_reachable_home : ∃ s alone actions,
    homeLog.foldlM (perform {}) (TrainState.init ({} : Config ℝ) {} homeSet) = .ok s ∧
      predict .insertion ({} : Config ℝ) homeRegistry s.classifier s.statics [] homeSet =
        .ok alone ∧
      mainActions .insertion {} s.statics.addrAvgPktMap homeSet = .ok actions ∧
      ∀ st, Reachable (step (homeEnv s))
          (start (Classifier.taskNum .insertion {} homeSet) [] actions.flatten) st →
        ¬ Racing (homeEnv s) st ∧
          (st.main = .returned → st.shared.score.SheetsAlike alone.1) := by
  obtain ⟨s, hrun⟩ := run_home
  obtain ⟨alone, halone⟩ := predict_home interleave_home hrun
  obtain ⟨actions, hactions, hall⟩ := score_of_reachable (by decide) (by decide) length_lt_home
    (by rw [totalTasks_home]; decide) (rightCache_nil (homeEnv s)) halone
  refine ⟨s, alone, actions, hrun, halone, hactions, fun st hst => ?_⟩
  obtain ⟨hrace, -, hend⟩ := hall (calm_home interleave_home hrun hactions) st hst
  exact ⟨hrace, fun hreturned => (hend hreturned).2.1⟩

/-- Two hits for the lamp and one for the plug. -/
theorem predict_flawless_home : ∃ s alone,
    homeLog.foldlM (perform {}) (TrainState.init ({} : Config ℝ) {} homeSet) = .ok s ∧
      predict .insertion ({} : Config ℝ) homeRegistry s.classifier s.statics [] homeSet =
        .ok alone ∧ Flawless ["plug", "lamp", "lamp"] alone.1 := by
  obtain ⟨s, hrun⟩ := run_home
  have hindex : 1 ≤ ({} : Config ℝ).divisionParam.burstMaxPacketIndex := by decide
  obtain ⟨⟨alone, halone, hflawless⟩, -⟩ := predict_flawless hindex (by decide) (by decide)
    (by decide) trainHalf_home trainTasks_home interleave_home hrun
    (testHalf_home interleave_home hrun) (by rw [totalTasks_home]; decide)
    (rightCache_nil (homeEnv s))
  exact ⟨s, alone, hrun, halone, hflawless⟩

end Home

end Separation
end BurstIoT
