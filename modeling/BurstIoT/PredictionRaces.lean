import BurstIoT.ParallelPrediction
import BurstIoT.Verdicts

/-!
# Predictions without a race

Two things that the tasks of a prediction do to what they share are guarded by no lock.  The policy
of a missed block is pushed when `AddMiss` has let go of its lock; a push of another task at the
same time, even one under a lock, leaves the vector undefined.  And `GenPrediction` reads
`blockLevelDistribution` with `operator[]`, which inserts an entry for a device without one; so
nobody else may read there at the same time.

A state is **racing** if two tasks come to such steps at once.  Where no state is, the steps of the
tasks may be taken one after another, each as a whole.

What a task may come to is settled by its blocks (`Phase.OfTask`).  If of any two tasks one does not
miss a block while the other makes an error, and one does not miss an entry while the other reads
one (`Calm`), no reachable state is racing (`Sourced.not_racing`).  In particular this is so if no
block is missed and all consulted devices have been trained (`calm_of_tested`).
-/

namespace BurstIoT
namespace ParallelPrediction

open StepSystem Classifier ScoreEvent
open Prediction (sameKey answered)

variable {F : Type}

/-! ## Races -/

/-- The next step pushes a policy without a lock. -/
def Phase.Pushes : Phase F → Prop
  | .missed _ _ => True
  | _ => False

section Races

variable [Field F] [LinearOrder F] [Elementary F] (env : PredictEnv F)

/-- The next step pushes a policy, under a lock or not. -/
def Phase.Records : Phase F → Prop
  | .missed _ _ => True
  | .atBurst x predictDevice [] => ∃ predict, env.decide predictDevice = .ok predict ∧
      removeSuffix predict.prediction ≠ "unreliable" ∧
      removeSuffix predict.prediction ≠ removeSuffix x.trueDevice
  | _ => False

/-- The devices whose entries of `blockLevelDistribution` the next step reads. -/
def Phase.reads : Phase F → List UInt16
  | .atBurst _ predictDevice [] => predictDevice.consulted env.lib env.cfg.classifyParam env.context
  | _ => []

/-- Two tasks whose next steps touch the same thing without a lock between them. -/
def Conflict (phase phase' : Phase F) : Prop :=
  (phase.Pushes ∧ phase'.Records env) ∨
    ((∃ d ∈ phase.reads env, d ∉ env.blockLevelDistribution) ∧ phase'.reads env ≠ [])

/-- **A race**: the next steps of two tasks are in conflict. -/
def Racing (s : State F) : Prop :=
  ∃ (i j : ℕ) (phase phase' : Phase F), i ≠ j ∧ s.tasks[i]? = some phase ∧
    s.tasks[j]? = some phase' ∧ Conflict env phase phase'

/-! ## Tasks that stay apart -/

/-- A policy that a task comes to for one of its blocks. -/
def ComesTo (task : PredictTask) (policy : BurstGroupPolicy F) : Prop :=
  ∃ block ∈ task.smallGroups, passes env.cfg.filterParam block = true ∧
    policyOf env block = .ok policy

/-- A task that misses a block. -/
def Misses (task : PredictTask) : Prop :=
  ∃ policy predict, ComesTo env task policy ∧ env.decide policy = .ok predict ∧
    removeSuffix predict.prediction = "unreliable"

/-- A task that misses a block or takes it for another type than that of its first burst. -/
def Errs (task : PredictTask) : Prop :=
  ∃ burst policy predict, frontBurst task.smallGroups = .ok burst ∧ ComesTo env task policy ∧
    env.decide policy = .ok predict ∧ (removeSuffix predict.prediction = "unreliable" ∨
      removeSuffix predict.prediction ≠ removeSuffix burst.instanceLabel)

/-- A task that reads the entry of a device. -/
def Reads (task : PredictTask) (d : UInt16) : Prop :=
  ∃ policy, ComesTo env task policy ∧
    d ∈ policy.consulted env.lib env.cfg.classifyParam env.context

/-- A task that never gets into conflict with another. -/
def Apart (task task' : PredictTask) : Prop :=
  ¬ (Misses env task ∧ Errs env task') ∧
    ¬ ((∃ d, Reads env task d ∧ d ∉ env.blockLevelDistribution) ∧ ∃ d, Reads env task' d)

/-- The tasks among the actions of main. -/
def startedTasks (actions : List MainAction) : List PredictTask :=
  actions.filterMap fun action =>
    match action with
    | .start task => some task
    | .addPktAvgNum _ _ => none

/-- **A prediction without a race**: any two of its tasks stay apart. -/
def Calm (actions : List MainAction) : Prop :=
  (startedTasks actions).Pairwise fun task task' => Apart env task task' ∧ Apart env task' task

/-! ## What a task may come to -/

/-- The variables of `PredictGroups`, in a task. -/
structure Frame.OfTask (task : PredictTask) (x : Frame) : Prop where
  trueDevice : ∃ burst, frontBurst task.smallGroups = .ok burst ∧
    x.trueDevice = burst.instanceLabel
  ahead : ∀ block ∈ x.ahead, block ∈ task.smallGroups

/-- A policy that is on the way to one that a task comes to, with these bursts ahead. -/
def OnTheWay (task : PredictTask) (policy : BurstGroupPolicy F) (bursts : List Burst) : Prop :=
  ∃ block ∈ task.smallGroups, passes env.cfg.filterParam block = true ∧ ∃ met,
    met ++ bursts = block ∧ met.foldlM (addNearest env) { testGroup := block } = .ok policy

/-- Where a task may stand, by its blocks. -/
def Phase.OfTask (task : PredictTask) : Phase F → Prop
  | .entering deviceGroups _ => deviceGroups = task.smallGroups
  | .atBlock x => x.OfTask task
  | .atBurst x predictDevice bursts => x.OfTask task ∧ OnTheWay env task predictDevice bursts
  | .searching x predictDevice testBurst bursts =>
    x.OfTask task ∧ OnTheWay env task predictDevice (testBurst :: bursts)
  | .missed x _ => x.OfTask task ∧ Misses env task
  | .finished => True
  | .failed _ => True

variable {env} {task task' : PredictTask} {phase phase' : Phase F}

theorem Frame.OfTask.tail {x : Frame} (h : x.OfTask task) {burstGroup : BurstBlock}
    {ahead : List BurstBlock} (hahead : x.ahead = burstGroup :: ahead) (index : ℕ) :
    burstGroup ∈ task.smallGroups ∧ Frame.OfTask task ⟨x.trueDevice, ahead, index⟩ := by
  have hblocks := h.ahead
  rw [hahead] at hblocks
  obtain ⟨hfirst, hrest⟩ := List.forall_mem_cons.mp hblocks
  exact ⟨hfirst, h.trueDevice, hrest⟩

/-- The policy is complete when no burst is ahead. -/
theorem OnTheWay.comesTo {policy : BurstGroupPolicy F} (h : OnTheWay env task policy []) :
    ComesTo env task policy := by
  obtain ⟨block, hblock, hpasses, met, hmet, hpolicy⟩ := h
  rw [List.append_nil] at hmet
  rw [hmet] at hpolicy
  exact ⟨block, hblock, hpasses, hpolicy⟩

/-- The answer to the next burst. -/
theorem OnTheWay.answer {x : Frame} {predictDevice : BurstGroupPolicy F} {testBurst : Burst}
    {bursts : List Burst} (hx : x.OfTask task)
    (h : OnTheWay env task predictDevice (testBurst :: bursts)) {nearest : Nearest F}
    (hsearch : env.search testBurst = .ok nearest) :
    (Phase.answer x predictDevice bursts nearest).OfTask env task := by
  obtain ⟨block, hblock, hpasses, met, hmet, hpolicy⟩ := h
  rw [Phase.answer]
  split
  · rename_i policy hvote
    refine ⟨hx, block, hblock, hpasses, met ++ [testBurst], ?_, ?_⟩
    · rw [List.append_assoc, List.singleton_append, hmet]
    · rw [List.foldlM_append, hpolicy]
      show [testBurst].foldlM (addNearest env) predictDevice = _
      rw [List.foldlM_cons, addNearest, hsearch]
      exact CheckedLoop.bind_eq_ok.mpr ⟨policy, hvote, rfl⟩
  · trivial

/-- **A step keeps a task to its blocks**, if the entries that it may read are right. -/
theorem TaskMoved.ofTask {calls : List (Burst × Memo.Phase (Nearest F) Fault)}
    {shared shared' : Shared F} (h : TaskMoved env calls shared phase phase' shared')
    (hright : ∀ testBurst nearest, Memo.locked (sameKey env.lib) calls testBurst = false →
      Memo.find (sameKey env.lib) shared.table testBurst = some nearest →
        answered nearest = true → env.search testBurst = .ok nearest)
    (htask : phase.OfTask env task) : phase'.OfTask env task := by
  cases h with
  | enter hfront =>
    obtain rfl : _ = task.smallGroups := htask
    exact ⟨⟨_, hfront, rfl⟩, fun block hblock => hblock⟩
  | noFront _ => trivial
  | done _ => trivial
  | filter hahead _ => exact (Frame.OfTask.tail htask hahead _).2
  | take hahead hfilter =>
    obtain ⟨hblock, hx⟩ := Frame.OfTask.tail htask hahead _
    refine ⟨hx, _, hblock, ?_, [], rfl, rfl⟩
    exact decide_eq_true (not_lt.mp hfilter)
  | miss hdecide hmiss => exact ⟨htask.1, _, _, htask.2.comesTo, hdecide, hmiss⟩
  | add _ _ => exact ⟨htask.1.trueDevice, htask.1.ahead⟩
  | undecided _ => trivial
  | hit hfree hfind hans => exact htask.2.answer htask.1 (hright _ _ hfree hfind hans)
  | resume _ _ _ => exact htask
  | create _ _ => exact htask
  | search hsearch => exact htask.2.answer htask.1 hsearch
  | noSearch _ => trivial
  | push => exact ⟨htask.1.trueDevice, htask.1.ahead⟩

theorem misses_of_pushes (h : phase.OfTask env task) (hpush : phase.Pushes) : Misses env task := by
  cases phase with
  | missed x predict => exact h.2
  | _ => exact hpush.elim

theorem errs_of_records (h : phase.OfTask env task) (hrecord : phase.Records env) :
    Errs env task := by
  cases phase with
  | missed x predict =>
    obtain ⟨burst, hfront, -⟩ := h.1.trueDevice
    obtain ⟨policy, predict, hpolicy, hdecide, hmiss⟩ := h.2
    exact ⟨burst, policy, predict, hfront, hpolicy, hdecide, Or.inl hmiss⟩
  | atBurst x predictDevice bursts =>
    cases bursts with
    | nil =>
      obtain ⟨burst, hfront, htrue⟩ := h.1.trueDevice
      obtain ⟨predict, hdecide, -, hwrong⟩ := hrecord
      rw [htrue] at hwrong
      exact ⟨burst, _, predict, hfront, h.2.comesTo, hdecide, Or.inr hwrong⟩
    | cons testBurst bursts => exact hrecord.elim
  | _ => exact hrecord.elim

theorem reads_of_mem (h : phase.OfTask env task) {d : UInt16} (hd : d ∈ phase.reads env) :
    Reads env task d := by
  cases phase with
  | atBurst x predictDevice bursts =>
    cases bursts with
    | nil => exact ⟨predictDevice, h.2.comesTo, hd⟩
    | cons testBurst bursts => exact absurd hd List.not_mem_nil
  | _ => exact absurd hd List.not_mem_nil

/-- **Tasks that stay apart are never in conflict.** -/
theorem Apart.not_conflict (hapart : Apart env task task') (h : phase.OfTask env task)
    (h' : phase'.OfTask env task') : ¬ Conflict env phase phase' := by
  rintro (⟨hpush, hrecord⟩ | ⟨⟨d, hd, hnew⟩, hreads⟩)
  · exact hapart.1 ⟨misses_of_pushes h hpush, errs_of_records h' hrecord⟩
  · obtain ⟨d', hd'⟩ := List.exists_mem_of_ne_nil _ hreads
    exact hapart.2 ⟨⟨d, reads_of_mem h hd, hnew⟩, d', reads_of_mem h' hd'⟩

/-! ## What holds on the way -/

variable (env) in
/-- Every task stands where its blocks allow, and main has the others ahead. -/
structure Sourced (tasks : List PredictTask) (s : State F) : Prop where
  ofTask : ∀ (j : ℕ) (phase : Phase F), s.tasks[j]? = some phase →
    ∃ task, tasks[j]? = some task ∧ phase.OfTask env task
  ahead : ∀ ahead, s.main = .predicting ahead → startedTasks ahead = tasks.drop s.tasks.length

variable {tasks : List PredictTask} {s s' : State F}

omit [LinearOrder F] [Elementary F] in
theorem Sourced.start (cache : PredictionCache F) (taskNum : ℤ) (actions : List MainAction)
    [LinearOrder F] [Elementary F] (env : PredictEnv F) :
    Sourced env (startedTasks actions) (start taskNum cache actions) where
  ofTask := fun j phase hj => by cases hj
  ahead := fun ahead hahead => by
    cases hahead
    exact (List.drop_zero).symm

/-- **A step of main.** -/
theorem Sourced.main (h : Sourced env tasks s) (hstep : mainStep env s = some s') :
    Sourced env tasks s' := by
  cases mainStep_cases hstep with
  | @addPktAvgNum deviceId num ahead score hphase hscore =>
    have hahead : startedTasks ahead = tasks.drop s.tasks.length :=
      h.ahead (.addPktAvgNum deviceId num :: ahead) hphase
    refine ⟨h.ofTask, fun later hlater => ?_⟩
    cases hlater
    exact hahead
  | noDevice hphase hscore => exact ⟨h.ofTask, fun _ hlater => by cases hlater⟩
  | @start task ahead hphase =>
    have hahead : task :: startedTasks ahead = tasks.drop s.tasks.length :=
      h.ahead (.start task :: ahead) hphase
    refine ⟨fun j phase hj => ?_, fun later hlater => ?_⟩
    · rcases Nat.lt_or_ge j s.tasks.length with hlt | hge
      · rw [List.getElem?_append_left hlt] at hj
        exact h.ofTask j phase hj
      · rw [List.getElem?_append_right hge, List.getElem?_singleton] at hj
        split_ifs at hj with hzero
        cases hj
        obtain rfl : j = s.tasks.length := by omega
        refine ⟨task, ?_, rfl⟩
        rw [← Nat.add_zero s.tasks.length, ← List.getElem?_drop, ← hahead]
        rfl
    · cases hlater
      rw [List.length_append, List.length_singleton, ← List.drop_drop, ← hahead]
      rfl
  | passed hphase hcount => exact ⟨h.ofTask, fun _ hlater => by cases hlater⟩

/-- **Any step**, on the track. -/
theorem Sourced.next (h : Sourced env tasks s) {total : List (ScoreEvent F)} {taskNum : ℕ}
    (htrack : OnTrack env total taskNum s) {p : Party F} (hstep : step env s p = some s') :
    Sourced env tasks s' := by
  cases p with
  | main => exact h.main hstep
  | task j =>
    obtain ⟨phase, hj, hstep⟩ := Option.bind_eq_some_iff.mp hstep
    obtain ⟨⟨phase', shared'⟩, hmoved, hstep⟩ := Option.bind_eq_some_iff.mp hstep
    cases hstep
    have hlaw : Memo.Lawful (sameKey env.lib) env.search Prediction.blank answered :=
      Prediction.lawful env.lib env.cfg.divisionParam env.cfg.classifyParam env.train
    refine ⟨fun k other hk => ?_, fun ahead hahead => ?_⟩
    · rw [List.getElem?_set] at hk
      split_ifs at hk with hsame
      · cases hk
        subst hsame
        obtain ⟨task, htask, hphase⟩ := h.ofTask j phase hj
        refine ⟨task, htask, (taskStep_cases hmoved).ofTask ?_ hphase⟩
        exact fun testBurst nearest hfree hfind hans => htrack.truthful.find hlaw hfree hfind hans
      · exact h.ofTask k other hk
    · rw [List.length_set]
      exact h.ahead ahead hahead
  | write j nearest =>
    rw [step] at hstep
    split at hstep <;> cases hstep
    exact ⟨h.ofTask, h.ahead⟩

/-- **No race in a state of a calm prediction.** -/
theorem Sourced.not_racing {actions : List MainAction} (h : Sourced env (startedTasks actions) s)
    (hcalm : Calm env actions) : ¬ Racing env s := by
  rintro ⟨i, j, phase, phase', hne, hi, hj, hconflict⟩
  obtain ⟨task, htask, hphase⟩ := h.ofTask i phase hi
  obtain ⟨task', htask', hphase'⟩ := h.ofTask j phase' hj
  obtain ⟨hi, rfl⟩ := List.getElem?_eq_some_iff.mp htask
  obtain ⟨hj, rfl⟩ := List.getElem?_eq_some_iff.mp htask'
  have hall := List.pairwise_iff_getElem.mp hcalm
  rcases Nat.lt_or_gt_of_ne hne with hlt | hlt
  · exact (hall i j hi hj hlt).1.not_conflict hphase hphase' hconflict
  · exact (hall j i hj hi hlt).2.not_conflict hphase hphase' hconflict

/-- Every reachable state is on track, with its tasks where their blocks allow. -/
theorem sourced_of_reachable {cache : PredictionCache F} (hcache : env.RightCache cache)
    {actions : List MainAction} {events : List (List (ScoreEvent F))}
    (hevents : actions.mapM (actionEvents env) = .ok events)
    (hs : Reachable (step env) (start (actions.countP MainAction.isStart) cache actions) s) :
    OnTrack env events.flatten (actions.countP MainAction.isStart) s ∧
      Sourced env (startedTasks actions) s :=
  hs.invariant
    (I := fun s => OnTrack env events.flatten (actions.countP MainAction.isStart) s ∧
      Sourced env (startedTasks actions) s)
    ⟨OnTrack.start hcache hevents, Sourced.start cache _ actions env⟩
    fun _ _ _ h hstep => ⟨h.1.next hstep, h.2.next h.1 hstep⟩

/-! ## Calm predictions -/

/-- **A prediction without misses and without new entries is calm.** -/
theorem calm_of_tested {lib : StdLib} {div : DivisionParam}
    {testset : UnorderedMap UInt16 (List BurstBlock)} (hslot : 1 ≤ div.timeslot.toNat)
    (hmax : div.timeslot.toNat ≤ epochTimeslot * 3600) {addrAvgPktMap : UnorderedMap UInt16 ℕ}
    {actions : List (List MainAction)}
    (hactions : mainActions lib div addrAvgPktMap testset = .ok actions)
    (htested : ∀ d blocks, testset.lookup d = some blocks → ∀ block ∈ blocks,
      passes env.cfg.filterParam block = true → ∀ policy, policyOf env block = .ok policy →
        (∀ predict, env.decide policy = .ok predict →
          removeSuffix predict.prediction ≠ "unreliable") ∧
        ∀ d' ∈ policy.consulted env.lib env.cfg.classifyParam env.context,
          d' ∈ env.blockLevelDistribution) : Calm env actions.flatten := by
  have htask : ∀ task ∈ startedTasks actions.flatten, ∀ policy, ComesTo env task policy →
      (∀ predict, env.decide policy = .ok predict →
        removeSuffix predict.prediction ≠ "unreliable") ∧
      ∀ d' ∈ policy.consulted env.lib env.cfg.classifyParam env.context,
        d' ∈ env.blockLevelDistribution := by
    rintro task hstarted policy ⟨block, hblock, hpasses, hpolicy⟩
    obtain ⟨action, haction, htask⟩ := List.mem_filterMap.mp hstarted
    cases action with
    | addPktAvgNum deviceId num => cases htask
    | start task' =>
      cases htask
      obtain ⟨d, blocks, hd, hsub⟩ := exists_blocks_of_start hslot hmax hactions haction
      exact htested d blocks hd block (hsub block hblock) hpasses policy hpolicy
  have hapart : ∀ task ∈ startedTasks actions.flatten, ∀ task' : PredictTask,
      Apart env task task' := by
    refine fun task hstarted task' => ⟨?_, ?_⟩
    · rintro ⟨⟨policy, predict, hpolicy, hdecide, hmiss⟩, -⟩
      exact (htask task hstarted policy hpolicy).1 predict hdecide hmiss
    · rintro ⟨⟨d, ⟨policy, hpolicy, hd⟩, hnew⟩, -⟩
      exact hnew ((htask task hstarted policy hpolicy).2 d hd)
  exact List.pairwise_of_forall_mem_list fun task hmem task' hmem' =>
    ⟨hapart task hmem task', hapart task' hmem' task⟩

/-- **A calm prediction** has no race, and main gets back what the tasks score one after another. -/
theorem alike_of_calm {lib : StdLib} {cfg : Config F} {context : Context}
    {classifier : KBurstClassifier} {statics : PolicyStatics} {cache : PredictionCache F}
    {testset : UnorderedMap UInt16 (List BurstBlock)}
    (hslot : 1 ≤ cfg.divisionParam.timeslot.toNat)
    (hmax : cfg.divisionParam.timeslot.toNat ≤ epochTimeslot * 3600)
    (hlen : ∀ d burstGroups, testset.lookup d = some burstGroups → burstGroups.length < 2 ^ 31)
    (htotal : totalTasks cfg.divisionParam testset < 2 ^ 31)
    (hcache : (PredictEnv.ofCall lib cfg context classifier statics).RightCache cache)
    {alone : Score F × PolicyStatics × PredictionCache F}
    (h : predict lib cfg context classifier statics cache testset = .ok alone) :
    ∃ actions, mainActions lib cfg.divisionParam statics.addrAvgPktMap testset = .ok actions ∧
      (Calm (PredictEnv.ofCall lib cfg context classifier statics) actions.flatten →
        ∀ s, Reachable (step (PredictEnv.ofCall lib cfg context classifier statics))
            (start (Classifier.taskNum lib cfg.divisionParam testset) cache actions.flatten) s →
          ¬ Racing (PredictEnv.ofCall lib cfg context classifier statics) s ∧
          (s.main = .returned → s.shared.score.SheetsAlike alone.1 ∧
            s.shared.score.errBurstGroups.Perm alone.1.errBurstGroups)) := by
  obtain ⟨actions, events, hactions, hevents, hlogged⟩ := predict_events hslot hmax hcache hlen h
  refine ⟨actions, hactions, fun hcalm s hs => ?_⟩
  rw [taskNum_eq hslot hmax htotal hactions] at hs
  obtain ⟨htrack, hsourced⟩ := sourced_of_reachable hcache hevents hs
  exact ⟨hsourced.not_racing hcalm, htrack.alike hlogged⟩

end Races

end ParallelPrediction
end BurstIoT
