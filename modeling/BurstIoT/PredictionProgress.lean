import BurstIoT.PredictionOutcome

/-!
# A prediction comes to its end

The step system of `ParallelPrediction` neither blocks nor goes on forever.  A task waits only for
the lock of a burst, which a search holds, and a search can always go on; main waits only for tasks
that are not finished (`OnTrack.exists_step`).  And each step of main or of a task uses up some of
the work that the start has fixed (`step_rank`).  So main gets its score back, whoever moves
(`prediction_returns`).
-/

namespace BurstIoT
namespace ParallelPrediction

open StepSystem Classifier
open Prediction (sameKey blank answered)

variable {F : Type}

/-! ## Work -/

/-- The steps that a block takes at most: one to take it up, two for each burst, and two to enter
its prediction. -/
def blockRank (burstGroup : BurstBlock) : ℕ :=
  2 * burstGroup.length + 3

/-- The steps that the blocks ahead take at most, with `done()`. -/
def Frame.rank (x : Frame) : ℕ :=
  (x.ahead.map blockRank).sum + 1

/-- The steps that a task takes at most. -/
def Phase.rank : Phase F → ℕ
  | .entering deviceGroups _ => (deviceGroups.map blockRank).sum + 2
  | .atBlock x => x.rank
  | .atBurst x _ bursts => x.rank + 2 * bursts.length + 2
  | .searching x _ _ bursts => x.rank + 2 * bursts.length + 3
  | .missed x _ => x.rank + 1
  | .finished => 0
  | .failed _ => 0

/-- The steps that an action of main takes at most, with the task that it starts. -/
def actionRank : MainAction → ℕ
  | .addPktAvgNum _ _ => 1
  | .start task => (task.smallGroups.map blockRank).sum + 3

/-- The steps that the actions of main take at most, with the tasks that they start and `wait()`. -/
def MainPhase.rank : MainPhase → ℕ
  | .predicting ahead => (ahead.map actionRank).sum + 1
  | _ => 0

def State.rank (s : State F) : ℕ :=
  s.main.rank + (s.tasks.map Phase.rank).sum

/-- Main and the tasks take steps of their own; what a search leaves in its entry on its way counts
as none. -/
def Party.own : Party F → Bool
  | .write _ _ => false
  | _ => true

section Steps

variable [Field F] [LinearOrder F] [Elementary F] {env : PredictEnv F}

theorem rank_answer_le (x : Frame) (predictDevice : BurstGroupPolicy F) (bursts : List Burst)
    (nearest : Nearest F) :
    (Phase.answer x predictDevice bursts nearest).rank ≤ x.rank + 2 * bursts.length + 2 := by
  rw [Phase.answer]
  split
  · exact le_refl _
  · exact Nat.zero_le _

/-- **A step of a task** leaves it less to do. -/
theorem TaskMoved.rank {calls : List (Burst × Memo.Phase (Nearest F) Fault)}
    {shared shared' : Shared F} {phase phase' : Phase F}
    (h : TaskMoved env calls shared phase phase' shared') : phase'.rank < phase.rank := by
  cases h with
  | enter _ =>
    simp only [Phase.rank, Frame.rank]
    omega
  | filter hahead _ =>
    simp only [Phase.rank, Frame.rank, hahead, List.map_cons, List.sum_cons, blockRank]
    omega
  | take hahead _ =>
    simp only [Phase.rank, Frame.rank, hahead, List.map_cons, List.sum_cons, blockRank]
    omega
  | @hit x predictDevice _ bursts nearest _ _ _ =>
    refine (rank_answer_le x predictDevice bursts nearest).trans_lt ?_
    simp only [Phase.rank, List.length_cons]
    omega
  | @search x predictDevice _ bursts nearest _ =>
    refine (rank_answer_le x predictDevice bursts nearest).trans_lt ?_
    simp only [Phase.rank]
    omega
  | _ =>
    simp only [Phase.rank, Frame.rank, List.length_nil, List.length_cons]
    omega

omit [LinearOrder F] [Elementary F] in
/-- **A step of main** leaves less to do. -/
theorem rank_mainStep {s s' : State F} (h : mainStep env s = some s') : s'.rank < s.rank := by
  cases mainStep_cases h with
  | addPktAvgNum hmain hscore =>
    simp only [State.rank, hmain, MainPhase.rank, List.map_cons, List.sum_cons, actionRank]
    omega
  | noDevice hmain hscore =>
    simp only [State.rank, hmain, MainPhase.rank]
    omega
  | start hmain =>
    simp only [State.rank, hmain, MainPhase.rank, List.map_cons, List.sum_cons, actionRank,
      List.map_append, List.sum_append, List.map_nil, List.sum_nil, Phase.rank]
    omega
  | passed hmain hcount =>
    simp only [State.rank, hmain, MainPhase.rank, List.map_nil, List.sum_nil]
    omega

/-- **A step of one's own** leaves less to do, and what a search writes leaves as much. -/
theorem step_rank {s s' : State F} {p : Party F} (h : step env s p = some s') :
    s'.rank + (if p.own then 1 else 0) ≤ s.rank := by
  cases p with
  | main => exact rank_mainStep h
  | task j =>
    obtain ⟨phase, hj, h⟩ := Option.bind_eq_some_iff.mp h
    obtain ⟨⟨phase', shared'⟩, htask, h⟩ := Option.bind_eq_some_iff.mp h
    cases h
    have hphase := (taskStep_cases htask).rank
    have hsum := TaskPool.sum_map_set Phase.rank hj phase'
    have hown : (Party.task j : Party F).own = true := rfl
    simp only [State.rank, hown, if_true]
    omega
  | write j nearest =>
    rw [step] at h
    split at h <;> cases h
    exact le_refl _

/-- **The steps of a run** are no more than the work at its start. -/
theorem run_rank (moves : List (Party F)) {s s' : State F} (h : run (step env) s moves = some s') :
    moves.countP Party.own + s'.rank ≤ s.rank := by
  induction moves generalizing s with
  | nil =>
    obtain rfl : s = s' := Option.some_inj.mp h
    rw [List.countP_nil, Nat.zero_add]
  | cons p moves ih =>
    rw [run, List.foldlM_cons] at h
    obtain ⟨s₁, hstep, hrest⟩ := Option.bind_eq_some_iff.mp h
    have hfirst := step_rank hstep
    have hlater := ih hrest
    rw [List.countP_cons]
    omega

/-! ## Nobody waits forever -/

/-- A task that is not finished can move, unless it waits for a lock. -/
theorem exists_taskStep (calls : List (Burst × Memo.Phase (Nearest F) Fault)) (shared : Shared F)
    {phase : Phase F} (hopen : phase.isFinished = false) (hfail : ∀ fault, phase ≠ .failed fault)
    (hfree : ∀ testBurst, Memo.locked (sameKey env.lib) calls testBurst = false) :
    ∃ next, taskStep env calls shared phase = some next := by
  cases phase with
  | entering deviceGroups index =>
    rw [taskStep]
    split <;> exact ⟨_, rfl⟩
  | atBlock x =>
    rw [taskStep]
    split
    · exact ⟨_, rfl⟩
    · split_ifs <;> exact ⟨_, rfl⟩
  | atBurst x predictDevice bursts =>
    cases bursts with
    | nil =>
      rw [taskStep]
      split
      · split_ifs <;> exact ⟨_, rfl⟩
      · exact ⟨_, rfl⟩
    | cons testBurst bursts =>
      rw [taskStep, hfree, if_neg Bool.false_ne_true]
      split
      · split_ifs <;> exact ⟨_, rfl⟩
      · exact ⟨_, rfl⟩
  | searching x predictDevice testBurst bursts =>
    rw [taskStep]
    split <;> exact ⟨_, rfl⟩
  | missed x predict => exact ⟨_, rfl⟩
  | finished => cases hopen
  | failed fault => exact absurd rfl (hfail fault)

variable (env) in
theorem exists_step_task {s : State F} {j : ℕ} {phase : Phase F} (hj : s.tasks[j]? = some phase)
    (h : ∃ next, taskStep env (s.tasks.map Phase.call) s.shared phase = some next) :
    ∃ s', step env s (.task j) = some s' := by
  obtain ⟨⟨phase', shared'⟩, hnext⟩ := h
  rw [step, hj]
  dsimp only [bind, Option.bind]
  rw [hnext]
  exact ⟨_, rfl⟩

/-- **Somebody can move**, until main has its score back. -/
theorem OnTrack.exists_step {total : List (ScoreEvent F)} {taskNum : ℕ} {s : State F}
    (h : OnTrack env total taskNum s) (hmain : s.main ≠ .returned) :
    ∃ p s', Party.own p = true ∧ step env s p = some s' := by
  by_cases hsearch : ∃ (j : ℕ) (x : Frame) (predictDevice : BurstGroupPolicy F)
      (testBurst : Burst) (bursts : List Burst),
      s.tasks[j]? = some (.searching x predictDevice testBurst bursts)
  · -- a search waits for nobody
    obtain ⟨j, x, predictDevice, testBurst, bursts, hj⟩ := hsearch
    obtain ⟨s', hs'⟩ := exists_step_task env hj (by
      rw [taskStep]
      split <;> exact ⟨_, rfl⟩)
    exact ⟨.task j, s', rfl, hs'⟩
  have hfree : ∀ testBurst,
      Memo.locked (sameKey env.lib) (s.tasks.map Phase.call) testBurst = false := by
    intro testBurst
    rw [← Bool.not_eq_true, Memo.locked_iff]
    rintro ⟨j, c, hj, hlock, -⟩
    rw [List.getElem?_map] at hj
    obtain ⟨phase, hphase, rfl⟩ := Option.map_eq_some_iff.mp hj
    rw [call_of_not_searching fun x p b bs hp => hsearch ⟨j, x, p, b, bs, hp ▸ hphase⟩] at hlock
    cases hlock
  by_cases hall : ∀ phase ∈ s.tasks, phase.isFinished = true
  · -- every task is finished, and main goes on
    have hcount : s.tasks.countP Phase.isFinished = s.tasks.length :=
      List.countP_eq_length.mpr hall
    obtain ⟨log, plans, mainPlan, -, -, hplan, -⟩ := h.planned
    have hstarted := h.started
    have hwait := h.waitPrediction
    have hmove : ∃ s', step env s .main = some s' := by
      rw [step, mainStep]
      split
      · split <;> exact ⟨_, rfl⟩
      · exact ⟨_, rfl⟩
      · rename_i hphase
        rw [hphase] at hstarted
        have hnum : s.tasks.length = taskNum := hstarted
        rw [if_pos]
        · exact ⟨_, rfl⟩
        · rw [hwait, newWaitGroup]
          split_ifs <;> omega
      · rename_i hphase
        exact absurd hphase hmain
      · rename_i hphase
        rw [hphase] at hplan
        cases hplan
    obtain ⟨s', hs'⟩ := hmove
    exact ⟨.main, s', rfl, hs'⟩
  · -- some task is not finished, and no lock stops it
    push Not at hall
    obtain ⟨phase, hphase, hopen⟩ := hall
    obtain ⟨j, hj⟩ := List.mem_iff_getElem?.mp hphase
    obtain ⟨s', hs'⟩ := exists_step_task env hj
      (exists_taskStep _ _ (Bool.eq_false_of_not_eq_true hopen) (h.ne_failed hphase) hfree)
    exact ⟨.task j, s', rfl, hs'⟩

/-- From any state on track, some steps lead main to its score. -/
theorem OnTrack.exists_returned {total : List (ScoreEvent F)} {taskNum : ℕ} {s : State F}
    (h : OnTrack env total taskNum s) :
    ∃ s', Reachable (step env) s s' ∧ s'.main = .returned := by
  induction hrank : s.rank using Nat.strong_induction_on generalizing s with
  | _ n ih =>
    by_cases hmain : s.main = .returned
    · exact ⟨s, .start, hmain⟩
    · obtain ⟨p, s₁, hown, hstep⟩ := h.exists_step hmain
      have hless := step_rank hstep
      rw [hown, if_pos rfl] at hless
      obtain ⟨s', hs', hreturned⟩ := ih s₁.rank (by omega) (h.next hstep) rfl
      exact ⟨s', (Reachable.move p .start hstep).trans hs', hreturned⟩

end Steps

/-- **A prediction comes to its end.**  If the tasks go through one after another and stay apart,
then whatever main and the tasks have done so far, no two of them race, and they have taken no more
steps than the blocks and bursts allow; and unless main has its score back, one of them can take
another step, and some steps lead main to its score. -/
theorem prediction_returns [Field F] [LinearOrder F] [Elementary F] {lib : StdLib} {cfg : Config F}
    {context : Context} {classifier : KBurstClassifier} {statics : PolicyStatics}
    {cache : PredictionCache F} {testset : UnorderedMap UInt16 (List BurstBlock)}
    (hslot : 1 ≤ cfg.divisionParam.timeslot.toNat)
    (hmax : cfg.divisionParam.timeslot.toNat ≤ epochTimeslot * 3600)
    (hlen : ∀ d burstGroups, testset.lookup d = some burstGroups → burstGroups.length < 2 ^ 31)
    (htotal : totalTasks cfg.divisionParam testset < 2 ^ 31)
    (hcache : (PredictEnv.ofCall lib cfg context classifier statics).RightCache cache)
    {alone : Score F × PolicyStatics × PredictionCache F}
    (h : predict lib cfg context classifier statics cache testset = .ok alone) :
    ∃ actions, mainActions lib cfg.divisionParam statics.addrAvgPktMap testset = .ok actions ∧
      (Calm (PredictEnv.ofCall lib cfg context classifier statics) actions.flatten →
        ∀ moves s, run (step (PredictEnv.ofCall lib cfg context classifier statics))
            (start (Classifier.taskNum lib cfg.divisionParam testset) cache actions.flatten)
            moves = some s →
          ¬ Racing (PredictEnv.ofCall lib cfg context classifier statics) s ∧
          moves.countP Party.own ≤ (actions.flatten.map actionRank).sum + 1 ∧
          (s.main ≠ .returned →
            (∃ p s', Party.own p = true ∧
              step (PredictEnv.ofCall lib cfg context classifier statics) s p = some s') ∧
            ∃ s', Reachable (step (PredictEnv.ofCall lib cfg context classifier statics)) s s' ∧
              s'.main = .returned)) := by
  obtain ⟨actions, events, hactions, hevents, -⟩ := predict_events hslot hmax hcache hlen h
  refine ⟨actions, hactions, fun hcalm moves s hs => ?_⟩
  rw [taskNum_eq hslot hmax htotal hactions] at hs
  obtain ⟨htrack, hsourced⟩ := sourced_of_reachable hcache hevents (reachable_of_run moves _ hs)
  refine ⟨hsourced.not_racing hcalm, ?_, fun hmain => ⟨htrack.exists_step hmain,
    htrack.exists_returned⟩⟩
  exact (Nat.le_add_right _ _).trans (run_rank moves hs)

open Separation TrainOrder in
/-- The predictions of the lamp and the plug come to their end. -/
theorem prediction_returns_home : ∃ s actions,
    homeLog.foldlM (perform {}) (TrainState.init ({} : Config ℝ) {} homeSet) = .ok s ∧
      mainActions .insertion {} s.statics.addrAvgPktMap homeSet = .ok actions ∧
      (∀ moves st, run (step (homeEnv s))
          (start (Classifier.taskNum .insertion {} homeSet) [] actions.flatten) moves = some st →
        moves.countP Party.own ≤ (actions.flatten.map actionRank).sum + 1) ∧
      ∃ st, Reachable (step (homeEnv s))
          (start (Classifier.taskNum .insertion {} homeSet) [] actions.flatten) st ∧
        st.main = .returned := by
  obtain ⟨s, hrun⟩ := run_home
  obtain ⟨alone, halone⟩ := predict_home interleave_home hrun
  obtain ⟨actions, hactions, hall⟩ := prediction_returns (by decide) (by decide) length_lt_home
    (by rw [totalTasks_home]; decide) (rightCache_nil (homeEnv s)) halone
  have hend := hall (calm_home interleave_home hrun hactions)
  refine ⟨s, actions, hrun, hactions, fun moves st hst => (hend moves st hst).2.1, ?_⟩
  exact ((hend [] _ rfl).2.2 nofun).2

end ParallelPrediction
end BurstIoT
