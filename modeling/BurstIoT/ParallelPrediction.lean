import BurstIoT.Library.TaskPool
import BurstIoT.PlainPrediction

/-!
# The tasks of a prediction at once

`Predict` starts its tasks and waits for them; meanwhile they share the prediction cache, the score
and the `WaitGroup`.  Main and the tasks are the parties of one step system.  A step is what a party
does under one lock:

* `PredictBurst` takes the lock of its test burst and looks up its entry.  An answered entry is
  copied, and the lock is free again.  Otherwise the lock is kept for the search, which works in the
  entry: anything may stand there (`Party.write`) until the search is over.
* `AddPrediction` changes the sheets under `mutex`.  For a missed block the lock is free again when
  the policy is pushed, so that is a step of its own.  No lock guards this push, and none guards
  `GenPrediction`, which may insert into `blockLevelDistribution`; that such a step can be taken as
  one is the subject of `PredictionRaces`.
* `done()` lowers the count of the `WaitGroup`, and `wait()` passes once that is zero or less.

A task is a call of the shared table of `Memo` while it predicts a burst (`Phase.call`), so the
entries are right unless a search works in them.  What a task does to the score is then fixed from
its start (`Phase.plan`), and each step does the next part of it (`TaskMoved.plan`).  So every state
is on the track of the events that the tasks make one after another (`OnTrack.next`).
-/

namespace BurstIoT
namespace ParallelPrediction

open StepSystem Classifier ScoreEvent
open Prediction (sameKey blank answered)

variable {F : Type}

/-! ## States -/

/-- The variables of `PredictGroups`: `trueDevice`, the blocks that the loop has not come to, and
`index`. -/
structure Frame where
  trueDevice : String
  ahead : List BurstBlock
  index : ℕ
  deriving DecidableEq, Repr

/-- Where a task stands: before its first statement, before its next block, before the next of the
bursts of a block (or, if there is none left, before `AddPrediction`), in the search for a burst,
between `AddMiss` and the push behind it, behind `done()`, or where it has failed. -/
inductive Phase (F : Type) where
  | entering (deviceGroups : List BurstBlock) (index : ℕ)
  | atBlock (x : Frame)
  | atBurst (x : Frame) (predictDevice : BurstGroupPolicy F) (bursts : List Burst)
  | searching (x : Frame) (predictDevice : BurstGroupPolicy F) (testBurst : Burst)
      (bursts : List Burst)
  | missed (x : Frame) (predict : BurstGroupPolicy F)
  | finished
  | failed (fault : Fault)

/-- Where `Predict` stands: in its second loop with these actions ahead, behind `wait()`, or where
it has failed. -/
inductive MainPhase where
  | predicting (ahead : List MainAction)
  | returned
  | failed (fault : Fault)
  deriving DecidableEq, Repr

/-- What main and the tasks share. -/
structure Shared (F : Type) where
  waitPrediction : ℤ
  table : PredictionCache F
  score : Score F

structure State (F : Type) where
  main : MainPhase
  shared : Shared F
  tasks : List (Phase F)

/-- Who takes a step; `write` is what a search leaves in its entry on its way. -/
inductive Party (F : Type) where
  | main
  | task (j : ℕ)
  | write (j : ℕ) (nearest : Nearest F)

/-- The call of the shared table that a task is in: its burst is searched, or it waits for its next
burst.  A task without one waits for a burst without packets. -/
def Phase.call : Phase F → Burst × Memo.Phase (Nearest F) Fault
  | .atBurst _ _ (testBurst :: _) => (testBurst, .waiting)
  | .searching _ _ testBurst _ => (testBurst, .inside)
  | _ => (Burst.ofBursts [], .waiting)

def Phase.isFinished : Phase F → Bool
  | .finished => true
  | _ => false

/-- A `WaitGroup` with a count; one of zero or less never waits. -/
def newWaitGroup (n : ℤ) : ℤ :=
  if n ≤ 0 then -1 else n

/-- `Predict`, once it has counted its tasks, with a new score. -/
def start (taskNum : ℤ) (cache : PredictionCache F) (actions : List MainAction) : State F where
  main := .predicting actions
  shared := { waitPrediction := newWaitGroup taskNum, table := cache, score := {} }
  tasks := []

/-! ## Steps -/

section Steps

variable [Field F] [LinearOrder F] [Elementary F] (env : PredictEnv F)

/-- `AddBurstPrediction` of the nearest bursts. -/
def Phase.answer (x : Frame) (predictDevice : BurstGroupPolicy F) (bursts : List Burst)
    (nearest : Nearest F) : Phase F :=
  match predictDevice.addBurstPrediction nearest with
  | .ok predictDevice => .atBurst x predictDevice bursts
  | .error fault => .failed fault

/-- A step of a task, among the calls of all tasks. -/
def taskStep (calls : List (Burst × Memo.Phase (Nearest F) Fault)) (shared : Shared F) :
    Phase F → Option (Phase F × Shared F)
  | .entering deviceGroups index =>
    match frontBurst deviceGroups with
    | .ok burst => some (.atBlock ⟨burst.instanceLabel, deviceGroups, index⟩, shared)
    | .error fault => some (.failed fault, shared)
  | .atBlock x =>
    match x.ahead with
    | [] => some (.finished, { shared with waitPrediction := shared.waitPrediction - 1 })
    | burstGroup :: ahead =>
      if toInt (blockPktNum burstGroup) < env.cfg.filterParam.minBlockPktnum.toNat then
        some (.atBlock { x with ahead }, shared)
      else some (.atBurst { x with ahead } { testGroup := burstGroup } burstGroup, shared)
  | .atBurst x predictDevice [] =>
    match env.decide predictDevice with
    | .ok predict =>
      if removeSuffix predict.prediction = "unreliable" then
        some (.missed x predict,
          { shared with score := shared.score.addMiss x.trueDevice x.index })
      else
        some (.atBlock { x with index := x.index + 1 },
          { shared with score := shared.score.addPredicted x.trueDevice predict x.index })
    | .error fault => some (.failed fault, shared)
  | .atBurst x predictDevice (testBurst :: bursts) =>
    if Memo.locked (sameKey env.lib) calls testBurst then none
    else
      match Memo.find (sameKey env.lib) shared.table testBurst with
      | some nearest =>
        if answered nearest then some (.answer x predictDevice bursts nearest, shared)
        else some (.searching x predictDevice testBurst bursts, shared)
      | none =>
        some (.searching x predictDevice testBurst bursts,
          { shared with table := Memo.store (sameKey env.lib) shared.table testBurst blank })
  | .searching x predictDevice testBurst bursts =>
    match env.search testBurst with
    | .ok nearest =>
      some (.answer x predictDevice bursts nearest,
        { shared with table := Memo.store (sameKey env.lib) shared.table testBurst nearest })
    | .error fault => some (.failed fault, shared)
  | .missed x predict =>
    some (.atBlock { x with index := x.index + 1 },
      { shared with score := shared.score.pushErr predict })
  | .finished => none
  | .failed _ => none

/-- A step of main. -/
def mainStep (s : State F) : Option (State F) :=
  match s.main with
  | .predicting (.addPktAvgNum deviceId num :: ahead) =>
    match s.shared.score.addPktAvgNum env.context deviceId num with
    | .ok score => some { s with main := .predicting ahead, shared := { s.shared with score } }
    | .error fault => some { s with main := .failed fault }
  | .predicting (.start task :: ahead) =>
    some { s with
      main := .predicting ahead
      tasks := s.tasks ++ [.entering task.smallGroups task.index.toNat] }
  | .predicting [] =>
    if s.shared.waitPrediction ≤ 0 then some { s with main := .returned } else none
  | .returned => none
  | .failed _ => none

/-- A step of any party. -/
def step (s : State F) : Party F → Option (State F)
  | .main => mainStep env s
  | .task j => do
    let phase ← s.tasks[j]?
    let (phase, shared) ← taskStep env (s.tasks.map Phase.call) s.shared phase
    some { s with shared, tasks := s.tasks.set j phase }
  | .write j nearest =>
    match s.tasks[j]? with
    | some (.searching _ _ testBurst _) =>
      some { s with shared := { s.shared with
        table := Memo.store (sameKey env.lib) s.shared.table testBurst nearest } }
    | _ => none

/-! ## What a step does -/

/-- The steps of main. -/
inductive MainMoved (s : State F) : State F → Prop where
  | addPktAvgNum {deviceId : UInt16} {num : ℕ} {ahead : List MainAction} {score : Score F}
      (hphase : s.main = .predicting (.addPktAvgNum deviceId num :: ahead))
      (hscore : s.shared.score.addPktAvgNum env.context deviceId num = .ok score) :
      MainMoved s { s with main := .predicting ahead, shared := { s.shared with score } }
  | noDevice {deviceId : UInt16} {num : ℕ} {ahead : List MainAction} {fault : Fault}
      (hphase : s.main = .predicting (.addPktAvgNum deviceId num :: ahead))
      (hscore : s.shared.score.addPktAvgNum env.context deviceId num = .error fault) :
      MainMoved s { s with main := .failed fault }
  | start {task : PredictTask} {ahead : List MainAction}
      (hphase : s.main = .predicting (.start task :: ahead)) :
      MainMoved s { s with
        main := .predicting ahead
        tasks := s.tasks ++ [.entering task.smallGroups task.index.toNat] }
  | passed (hphase : s.main = .predicting []) (hcount : s.shared.waitPrediction ≤ 0) :
      MainMoved s { s with main := .returned }

/-- The steps of a task. -/
inductive TaskMoved (calls : List (Burst × Memo.Phase (Nearest F) Fault)) (shared : Shared F) :
    Phase F → Phase F → Shared F → Prop where
  | enter {deviceGroups : List BurstBlock} {index : ℕ} {burst : Burst}
      (hfront : frontBurst deviceGroups = .ok burst) :
      TaskMoved calls shared (.entering deviceGroups index)
        (.atBlock ⟨burst.instanceLabel, deviceGroups, index⟩) shared
  | noFront {deviceGroups : List BurstBlock} {index : ℕ} {fault : Fault}
      (hfront : frontBurst deviceGroups = .error fault) :
      TaskMoved calls shared (.entering deviceGroups index) (.failed fault) shared
  | done {x : Frame} (hahead : x.ahead = []) :
      TaskMoved calls shared (.atBlock x) .finished
        { shared with waitPrediction := shared.waitPrediction - 1 }
  | filter {x : Frame} {burstGroup : BurstBlock} {ahead : List BurstBlock}
      (hahead : x.ahead = burstGroup :: ahead)
      (hfilter : toInt (blockPktNum burstGroup) < env.cfg.filterParam.minBlockPktnum.toNat) :
      TaskMoved calls shared (.atBlock x) (.atBlock { x with ahead }) shared
  | take {x : Frame} {burstGroup : BurstBlock} {ahead : List BurstBlock}
      (hahead : x.ahead = burstGroup :: ahead)
      (hfilter : ¬ toInt (blockPktNum burstGroup) < env.cfg.filterParam.minBlockPktnum.toNat) :
      TaskMoved calls shared (.atBlock x)
        (.atBurst { x with ahead } { testGroup := burstGroup } burstGroup) shared
  | miss {x : Frame} {predictDevice predict : BurstGroupPolicy F}
      (hdecide : env.decide predictDevice = .ok predict)
      (hmiss : removeSuffix predict.prediction = "unreliable") :
      TaskMoved calls shared (.atBurst x predictDevice []) (.missed x predict)
        { shared with score := shared.score.addMiss x.trueDevice x.index }
  | add {x : Frame} {predictDevice predict : BurstGroupPolicy F}
      (hdecide : env.decide predictDevice = .ok predict)
      (hmiss : removeSuffix predict.prediction ≠ "unreliable") :
      TaskMoved calls shared (.atBurst x predictDevice [])
        (.atBlock { x with index := x.index + 1 })
        { shared with score := shared.score.addPredicted x.trueDevice predict x.index }
  | undecided {x : Frame} {predictDevice : BurstGroupPolicy F} {fault : Fault}
      (hdecide : env.decide predictDevice = .error fault) :
      TaskMoved calls shared (.atBurst x predictDevice []) (.failed fault) shared
  | hit {x : Frame} {predictDevice : BurstGroupPolicy F} {testBurst : Burst} {bursts : List Burst}
      {nearest : Nearest F} (hfree : Memo.locked (sameKey env.lib) calls testBurst = false)
      (hfind : Memo.find (sameKey env.lib) shared.table testBurst = some nearest)
      (hans : answered nearest = true) :
      TaskMoved calls shared (.atBurst x predictDevice (testBurst :: bursts))
        (.answer x predictDevice bursts nearest) shared
  | resume {x : Frame} {predictDevice : BurstGroupPolicy F} {testBurst : Burst}
      {bursts : List Burst} {nearest : Nearest F}
      (hfree : Memo.locked (sameKey env.lib) calls testBurst = false)
      (hfind : Memo.find (sameKey env.lib) shared.table testBurst = some nearest)
      (hans : answered nearest = false) :
      TaskMoved calls shared (.atBurst x predictDevice (testBurst :: bursts))
        (.searching x predictDevice testBurst bursts) shared
  | create {x : Frame} {predictDevice : BurstGroupPolicy F} {testBurst : Burst}
      {bursts : List Burst} (hfree : Memo.locked (sameKey env.lib) calls testBurst = false)
      (hfind : Memo.find (sameKey env.lib) shared.table testBurst = none) :
      TaskMoved calls shared (.atBurst x predictDevice (testBurst :: bursts))
        (.searching x predictDevice testBurst bursts)
        { shared with table := Memo.store (sameKey env.lib) shared.table testBurst blank }
  | search {x : Frame} {predictDevice : BurstGroupPolicy F} {testBurst : Burst}
      {bursts : List Burst} {nearest : Nearest F} (hsearch : env.search testBurst = .ok nearest) :
      TaskMoved calls shared (.searching x predictDevice testBurst bursts)
        (.answer x predictDevice bursts nearest)
        { shared with table := Memo.store (sameKey env.lib) shared.table testBurst nearest }
  | noSearch {x : Frame} {predictDevice : BurstGroupPolicy F} {testBurst : Burst}
      {bursts : List Burst} {fault : Fault} (hsearch : env.search testBurst = .error fault) :
      TaskMoved calls shared (.searching x predictDevice testBurst bursts) (.failed fault) shared
  | push {x : Frame} {predict : BurstGroupPolicy F} :
      TaskMoved calls shared (.missed x predict) (.atBlock { x with index := x.index + 1 })
        { shared with score := shared.score.pushErr predict }

variable {env}

omit [LinearOrder F] [Elementary F] in
theorem mainStep_cases {s s' : State F} (h : mainStep env s = some s') : MainMoved env s s' := by
  rw [mainStep] at h
  split at h
  · split at h <;> cases h
    · exact .addPktAvgNum ‹_› ‹_›
    · exact .noDevice ‹_› ‹_›
  · cases h
    exact .start ‹_›
  · split_ifs at h with hcount
    cases h
    exact .passed ‹_› hcount
  · cases h
  · cases h

theorem taskStep_cases {calls : List (Burst × Memo.Phase (Nearest F) Fault)}
    {shared shared' : Shared F} {phase phase' : Phase F}
    (h : taskStep env calls shared phase = some (phase', shared')) :
    TaskMoved env calls shared phase phase' shared' := by
  cases phase with
  | entering deviceGroups index =>
    rw [taskStep] at h
    split at h <;> cases h
    · exact .enter ‹_›
    · exact .noFront ‹_›
  | atBlock x =>
    rw [taskStep] at h
    split at h
    · cases h
      exact .done ‹_›
    · split_ifs at h with hfilter <;> cases h
      · exact .filter ‹_› hfilter
      · exact .take ‹_› hfilter
  | atBurst x predictDevice bursts =>
    cases bursts with
    | nil =>
      rw [taskStep] at h
      split at h
      · split_ifs at h with hmiss <;> cases h
        · exact .miss ‹_› hmiss
        · exact .add ‹_› hmiss
      · cases h
        exact .undecided ‹_›
    | cons testBurst bursts =>
      rw [taskStep] at h
      split_ifs at h with hlock
      rw [Bool.not_eq_true] at hlock
      split at h
      · split_ifs at h with hans <;> cases h
        · exact .hit hlock ‹_› hans
        · exact .resume hlock ‹_› (Bool.eq_false_of_not_eq_true hans)
      · cases h
        exact .create hlock ‹_›
  | searching x predictDevice testBurst bursts =>
    rw [taskStep] at h
    split at h <;> cases h
    · exact .search ‹_›
    · exact .noSearch ‹_›
  | missed x predict =>
    cases h
    exact .push
  | finished => cases h
  | failed fault => cases h

/-! ## What a task has ahead -/

variable (env) in
/-- The events of the current block, from its next burst on, and of the blocks behind it. -/
def burstPlan (x : Frame) (predictDevice : BurstGroupPolicy F) (bursts : List Burst) :
    Except Fault (List (ScoreEvent F)) := do
  let predictDevice ← bursts.foldlM (addNearest env) predictDevice
  let predict ← env.decide predictDevice
  let events ← blockEvents env x.trueDevice x.ahead (x.index + 1)
  return ofPrediction x.trueDevice predict x.index ++ events

variable (env) in
/-- The events that a task has ahead. -/
def Phase.plan : Phase F → Except Fault (List (ScoreEvent F))
  | .entering deviceGroups index => groupEvents env deviceGroups index
  | .atBlock x => blockEvents env x.trueDevice x.ahead x.index
  | .atBurst x predictDevice bursts => burstPlan env x predictDevice bursts
  | .searching x predictDevice testBurst bursts =>
    burstPlan env x predictDevice (testBurst :: bursts)
  | .missed x predict => do
    let events ← blockEvents env x.trueDevice x.ahead (x.index + 1)
    return .err predict :: events
  | .finished => .ok []
  | .failed fault => .error fault

theorem plan_answer {x : Frame} {predictDevice : BurstGroupPolicy F} {testBurst : Burst}
    {bursts : List Burst} {nearest : Nearest F} (hsearch : env.search testBurst = .ok nearest) :
    (Phase.answer x predictDevice bursts nearest).plan env =
      burstPlan env x predictDevice (testBurst :: bursts) := by
  rw [burstPlan, List.foldlM_cons, addNearest, hsearch, Phase.answer]
  dsimp only [bind, Except.bind]
  cases predictDevice.addBurstPrediction nearest with
  | ok predictDevice => rfl
  | error fault => rfl

/-- A task that has answers for all bursts of a block decides, and goes on with the other blocks. -/
theorem plan_atBurst_nil {x : Frame} {predictDevice : BurstGroupPolicy F}
    {events : List (ScoreEvent F)}
    (hplan : (Phase.atBurst x predictDevice []).plan env = .ok events) :
    ∃ predict rest, env.decide predictDevice = .ok predict ∧
      blockEvents env x.trueDevice x.ahead (x.index + 1) = .ok rest ∧
      events = ofPrediction x.trueDevice predict x.index ++ rest := by
  obtain ⟨_, ⟨⟩, hplan⟩ := CheckedLoop.bind_eq_ok.mp hplan
  obtain ⟨predict, hpredict, hplan⟩ := CheckedLoop.bind_eq_ok.mp hplan
  obtain ⟨rest, hrest, hplan⟩ := CheckedLoop.bind_eq_ok.mp hplan
  cases hplan
  exact ⟨predict, rest, hpredict, hrest, rfl⟩

omit [Field F] [LinearOrder F] [Elementary F] in
/-- The events of a missed block. -/
theorem ofPrediction_of_miss {predict : BurstGroupPolicy F} (trueLabel : String) (index : ℕ)
    (hmiss : removeSuffix predict.prediction = "unreliable") :
    ofPrediction trueLabel predict index =
      [.outcome (.missed (removeSuffix trueLabel) index), .err predict] := by
  rw [ofPrediction, Outcome.ofPrediction, if_pos hmiss]
  rfl

/-- **A step does the next part of the plan**, if the entries that it may read are right. -/
theorem TaskMoved.plan {calls : List (Burst × Memo.Phase (Nearest F) Fault)}
    {shared shared' : Shared F} {phase phase' : Phase F}
    (h : TaskMoved env calls shared phase phase' shared')
    (hright : ∀ testBurst nearest, Memo.locked (sameKey env.lib) calls testBurst = false →
      Memo.find (sameKey env.lib) shared.table testBurst = some nearest →
        answered nearest = true → env.search testBurst = .ok nearest)
    {events : List (ScoreEvent F)} (hplan : phase.plan env = .ok events) :
    ∃ done rest, events = done ++ rest ∧ phase'.plan env = .ok rest ∧ averages done = [] ∧
      ∀ log, Logged log shared.score → Logged (log ++ done) shared'.score := by
  have hsilent : phase'.plan env = .ok events → shared'.score = shared.score →
      ∃ done rest, events = done ++ rest ∧ phase'.plan env = .ok rest ∧ averages done = [] ∧
        ∀ log, Logged log shared.score → Logged (log ++ done) shared'.score := by
    intro hplan' hscore
    refine ⟨[], events, rfl, hplan', rfl, fun log hlog => ?_⟩
    rw [List.append_nil, hscore]
    exact hlog
  cases h with
  | enter hfront =>
    refine hsilent ?_ rfl
    obtain ⟨burst, hburst, hevents⟩ := CheckedLoop.bind_eq_ok.mp hplan
    cases hfront.symm.trans hburst
    exact hevents
  | noFront hfront =>
    obtain ⟨burst, hburst, -⟩ := CheckedLoop.bind_eq_ok.mp hplan
    cases hfront.symm.trans hburst
  | done hahead =>
    refine hsilent ?_ rfl
    rw [Phase.plan, hahead] at hplan
    exact hplan
  | filter hahead hfilter =>
    refine hsilent ?_ rfl
    rw [Phase.plan, hahead, blockEvents, if_pos hfilter] at hplan
    exact hplan
  | take hahead hfilter =>
    refine hsilent ?_ rfl
    rw [Phase.plan, hahead, blockEvents, if_neg hfilter] at hplan
    exact hplan
  | miss hdecide hmiss =>
    obtain ⟨predict, rest, hpredict, hrest, rfl⟩ := plan_atBurst_nil hplan
    cases hdecide.symm.trans hpredict
    rw [ofPrediction_of_miss _ _ hmiss]
    refine ⟨[_], _, rfl, ?_, rfl, fun log hlog => hlog.addMiss _ _⟩
    exact CheckedLoop.bind_eq_ok.mpr ⟨rest, hrest, rfl⟩
  | add hdecide hmiss =>
    obtain ⟨predict, rest, hpredict, hrest, rfl⟩ := plan_atBurst_nil hplan
    cases hdecide.symm.trans hpredict
    exact ⟨_, rest, rfl, hrest, averages_ofPrediction _ _ _,
      fun log hlog => hlog.addPredicted _ _ _⟩
  | undecided hdecide =>
    obtain ⟨predict, rest, hpredict, -, -⟩ := plan_atBurst_nil hplan
    cases hdecide.symm.trans hpredict
  | hit hfree hfind hans =>
    refine hsilent ?_ rfl
    rw [plan_answer (hright _ _ hfree hfind hans)]
    exact hplan
  | resume _ _ _ => exact hsilent hplan rfl
  | create _ _ => exact hsilent hplan rfl
  | search hsearch =>
    refine hsilent ?_ rfl
    rw [plan_answer hsearch]
    exact hplan
  | noSearch hsearch =>
    obtain ⟨predictDevice, hloop, -⟩ := CheckedLoop.bind_eq_ok.mp hplan
    obtain ⟨_, hfirst, -⟩ := CheckedLoop.bind_eq_ok.mp hloop
    obtain ⟨nearest, hnearest, -⟩ := CheckedLoop.bind_eq_ok.mp hfirst
    cases hsearch.symm.trans hnearest
  | push =>
    obtain ⟨rest, hrest, hplan⟩ := CheckedLoop.bind_eq_ok.mp hplan
    cases hplan
    exact ⟨[_], rest, rfl, hrest, rfl, fun log hlog => hlog.pushErr _⟩

/-! ## The entries of the cache -/

omit [Field F] [LinearOrder F] [Elementary F] in
/-- A task that searches no burst holds no lock. -/
theorem call_of_not_searching {phase : Phase F}
    (h : ∀ x predictDevice testBurst bursts, phase ≠ .searching x predictDevice testBurst bursts) :
    phase.call = (phase.call.1, .waiting) := by
  cases phase with
  | atBurst x predictDevice bursts => cases bursts <;> rfl
  | searching x predictDevice testBurst bursts => exact absurd rfl (h _ _ _ _)
  | _ => rfl

theorem answer_ne_searching {x : Frame} {predictDevice : BurstGroupPolicy F} {bursts : List Burst}
    {nearest : Nearest F} : ∀ x' predictDevice' testBurst bursts',
      Phase.answer x predictDevice bursts nearest ≠
        .searching x' predictDevice' testBurst bursts' := by
  intro x' predictDevice' testBurst bursts'
  rw [Phase.answer]
  split
  · exact nofun
  · exact nofun

/-- **The entries stay right** unless a search works in them, as long as no task fails. -/
theorem TaskMoved.truthful {calls : List (Burst × Memo.Phase (Nearest F) Fault)}
    {shared shared' : Shared F} {phase phase' : Phase F}
    (h : TaskMoved env calls shared phase phase' shared') {j : ℕ}
    (hj : calls[j]? = some phase.call) (hfail : ∀ fault, phase' ≠ .failed fault)
    (htrue : Memo.Truthful (sameKey env.lib) env.search answered ⟨shared.table, calls⟩) :
    Memo.Truthful (sameKey env.lib) env.search answered
      ⟨shared'.table, calls.set j phase'.call⟩ := by
  have hlaw : Memo.Lawful (sameKey env.lib) env.search blank answered :=
    Prediction.lawful env.lib env.cfg.divisionParam env.cfg.classifyParam env.train
  have hrestart : (∀ x p b bs, phase ≠ .searching x p b bs) →
      (∀ x p b bs, phase' ≠ .searching x p b bs) → shared'.table = shared.table →
      Memo.Truthful (sameKey env.lib) env.search answered
        ⟨shared'.table, calls.set j phase'.call⟩ := by
    intro hphase hphase' htable
    rw [call_of_not_searching hphase', htable]
    exact htrue.restart hj (by rw [call_of_not_searching hphase]; rfl) _
  cases h with
  | enter _ => exact hrestart nofun nofun rfl
  | noFront _ => exact absurd rfl (hfail _)
  | done _ => exact hrestart nofun nofun rfl
  | filter _ _ => exact hrestart nofun nofun rfl
  | take _ _ => exact hrestart nofun nofun rfl
  | miss _ _ => exact hrestart nofun nofun rfl
  | add _ _ => exact hrestart nofun nofun rfl
  | undecided _ => exact absurd rfl (hfail _)
  | hit _ _ _ => exact hrestart nofun answer_ne_searching rfl
  | resume hfree hfind hans =>
    refine htrue.step hlaw (m := .enter j) ?_
    rw [Memo.step, show calls[j]? = some (_, .waiting) from hj]
    simp only [hfree, hfind, hans, Bool.false_eq_true, if_false]
    rfl
  | create hfree hfind =>
    refine htrue.step hlaw (m := .enter j) ?_
    rw [Memo.step, show calls[j]? = some (_, .waiting) from hj]
    simp only [hfree, hfind, Bool.false_eq_true, if_false]
    rfl
  | @search x predictDevice testBurst bursts nearest hsearch =>
    have hleave : Memo.Truthful (sameKey env.lib) env.search answered
        ⟨Memo.store (sameKey env.lib) shared.table testBurst nearest,
          calls.set j (testBurst, .returned nearest)⟩ := by
      refine htrue.step hlaw (m := .leave j) ?_
      rw [Memo.step, show calls[j]? = some (testBurst, .inside) from hj]
      dsimp only
      rw [hsearch]
    have hlt : j < calls.length := (List.getElem?_eq_some_iff.mp hj).1
    have hnext := hleave.restart (List.getElem?_set_self hlt) rfl
      (Phase.answer x predictDevice bursts nearest).call.1
    rw [List.set_set] at hnext
    rw [call_of_not_searching answer_ne_searching]
    exact hnext
  | noSearch _ => exact absurd rfl (hfail _)
  | push => exact hrestart nofun nofun rfl

/-- A step lowers the count if it is the last one of the task. -/
theorem TaskMoved.waitPrediction {calls : List (Burst × Memo.Phase (Nearest F) Fault)}
    {shared shared' : Shared F} {phase phase' : Phase F}
    (h : TaskMoved env calls shared phase phase' shared') :
    phase.isFinished = false ∧ shared'.waitPrediction =
      shared.waitPrediction - if phase'.isFinished then 1 else 0 := by
  have hanswer : ∀ x predictDevice bursts nearest,
      (Phase.answer x predictDevice bursts nearest : Phase F).isFinished = false := by
    intro x predictDevice bursts nearest
    rw [Phase.answer]
    split <;> rfl
  cases h with
  | hit _ _ _ => exact ⟨rfl, by rw [hanswer]; exact (sub_zero _).symm⟩
  | search _ => exact ⟨rfl, by rw [hanswer]; exact (sub_zero _).symm⟩
  | done _ => exact ⟨rfl, rfl⟩
  | _ => exact ⟨rfl, (sub_zero _).symm⟩

/-! ## What holds on the way -/

def MainAction.isStart : MainAction → Bool
  | .addPktAvgNum _ _ => false
  | .start _ => true

variable (env) in
/-- The events of the actions that main has ahead, with the tasks that it is going to start. -/
def MainPhase.plan : MainPhase → Except Fault (List (ScoreEvent F))
  | .predicting ahead => do
    let events ← ahead.mapM (actionEvents env)
    return events.flatten
  | .returned => .ok []
  | .failed fault => .error fault

/-- How many tasks main is going to start. -/
def MainPhase.unstarted : MainPhase → ℕ
  | .predicting ahead => ahead.countP MainAction.isStart
  | _ => 0

variable (env) in
/-- **What holds on the way** from the start, where all of `total` is ahead of main, with the tasks
that it counts. -/
structure OnTrack (total : List (ScoreEvent F)) (taskNum : ℕ) (s : State F) : Prop where
  truthful : Memo.Truthful (sameKey env.lib) env.search answered
    ⟨s.shared.table, s.tasks.map Phase.call⟩
  planned : ∃ log plans mainPlan, Logged log s.shared.score ∧
    List.Forall₂ (fun phase plan => Phase.plan env phase = .ok plan) s.tasks plans ∧
    s.main.plan env = .ok mainPlan ∧ (log ++ (plans.flatten ++ mainPlan)).Perm total ∧
    averages log ++ averages mainPlan = averages total
  waitPrediction : s.shared.waitPrediction =
    newWaitGroup taskNum - s.tasks.countP Phase.isFinished
  started : s.tasks.length + s.main.unstarted = taskNum
  returned : s.main = .returned → ∀ phase ∈ s.tasks, phase.isFinished = true

variable {total : List (ScoreEvent F)} {taskNum : ℕ} {s s' : State F}

theorem OnTrack.start {cache : PredictionCache F} (hcache : env.RightCache cache)
    {actions : List MainAction} {events : List (List (ScoreEvent F))}
    (hevents : actions.mapM (actionEvents env) = .ok events) :
    OnTrack env events.flatten (actions.countP MainAction.isStart)
      (start (actions.countP MainAction.isStart) cache actions) where
  truthful :=
    { table := fun e he hans => Or.inl (hcache e he hans)
      returned := fun _ _ hmem => absurd hmem List.not_mem_nil
      failed := fun _ _ hmem => absurd hmem List.not_mem_nil }
  planned := by
    refine ⟨[], [], events.flatten, .nil, .nil, ?_, List.Perm.refl _, rfl⟩
    exact CheckedLoop.bind_eq_ok.mpr ⟨events, hevents, rfl⟩
  waitPrediction := (sub_zero _).symm
  started := Nat.zero_add _
  returned := nofun

/-- A task on track has not failed. -/
theorem OnTrack.ne_failed (h : OnTrack env total taskNum s) {phase : Phase F}
    (hphase : phase ∈ s.tasks) (fault : Fault) : phase ≠ .failed fault := by
  rintro rfl
  obtain ⟨log, plans, mainPlan, -, hplans, -⟩ := h.planned
  obtain ⟨j, hj⟩ := List.mem_iff_getElem?.mp hphase
  obtain ⟨plan, -, hplan⟩ := TaskPool.exists_plan hplans hj
  cases hplan

theorem OnTrack.main_ne_failed (h : OnTrack env total taskNum s) (fault : Fault) :
    s.main ≠ .failed fault := by
  intro hfailed
  obtain ⟨log, plans, mainPlan, -, -, hmain, -⟩ := h.planned
  rw [hfailed] at hmain
  cases hmain

/-- **A step of a task.** -/
theorem OnTrack.task (h : OnTrack env total taskNum s) {j : ℕ} {phase phase' : Phase F}
    {shared' : Shared F} (hj : s.tasks[j]? = some phase)
    (hmoved : TaskMoved env (s.tasks.map Phase.call) s.shared phase phase' shared') :
    OnTrack env total taskNum ⟨s.main, shared', s.tasks.set j phase'⟩ := by
  have hlaw : Memo.Lawful (sameKey env.lib) env.search blank answered :=
    Prediction.lawful env.lib env.cfg.divisionParam env.cfg.classifyParam env.train
  obtain ⟨log, plans, mainPlan, hlog, hplans, hmain, hperm, haverages⟩ := h.planned
  obtain ⟨plan, hplan, hphase⟩ := TaskPool.exists_plan hplans hj
  obtain ⟨done, rest, rfl, hrest, hdone, hlogged⟩ := hmoved.plan
    (fun testBurst nearest hfree hfind hans => h.truthful.find hlaw hfree hfind hans) hphase
  have hcall : (s.tasks.map Phase.call)[j]? = some phase.call := by
    rw [List.getElem?_map, hj]
    rfl
  have hfail : ∀ fault, phase' ≠ .failed fault := by
    rintro fault rfl
    cases hrest
  obtain ⟨hopen, hwait⟩ := hmoved.waitPrediction
  have hcount := TaskPool.countP_set Phase.isFinished hj phase'
  refine ⟨?_, ⟨log ++ done, plans.set j rest, mainPlan, hlogged log hlog,
    TaskPool.forall₂_set hplans hrest, hmain, ?_, ?_⟩, ?_, ?_, fun hreturned => ?_⟩
  · dsimp only
    rw [List.map_set]
    exact hmoved.truthful hcall hfail h.truthful
  · refine List.Perm.trans ?_ hperm
    rw [List.append_assoc]
    refine List.Perm.append_left log ?_
    rw [← List.append_assoc]
    exact (TaskPool.perm_flatten_set hplan).symm.append_right mainPlan
  · rw [averages_append, hdone, List.append_nil]
    exact haverages
  · have hstart := h.waitPrediction
    rw [hopen, if_neg Bool.false_ne_true] at hcount
    dsimp only
    rw [hwait, hstart]
    split_ifs at hcount ⊢ <;> omega
  · dsimp only
    rw [List.length_set]
    exact h.started
  · have hall := h.returned hreturned phase (List.mem_of_getElem? hj)
    rw [hopen] at hall
    cases hall

theorem plan_predicting_cons {action : MainAction} {ahead : List MainAction}
    {mainPlan : List (ScoreEvent F)}
    (h : (MainPhase.predicting (action :: ahead)).plan env = .ok mainPlan) :
    ∃ events rest, actionEvents env action = .ok events ∧
      (MainPhase.predicting ahead).plan env = .ok rest ∧ mainPlan = events ++ rest := by
  obtain ⟨lists, hlists, h⟩ := CheckedLoop.bind_eq_ok.mp h
  cases h
  rw [List.mapM_cons] at hlists
  obtain ⟨events, hevents, hlists⟩ := CheckedLoop.bind_eq_ok.mp hlists
  obtain ⟨rest, hrest, hlists⟩ := CheckedLoop.bind_eq_ok.mp hlists
  cases hlists
  exact ⟨events, rest.flatten, hevents, CheckedLoop.bind_eq_ok.mpr ⟨rest, hrest, rfl⟩, rfl⟩

/-- The predictions of a task set no average. -/
theorem averages_blockEvents {trueDevice : String} (blocks : List BurstBlock) {index : ℕ}
    {events : List (ScoreEvent F)} (h : blockEvents env trueDevice blocks index = .ok events) :
    averages events = [] := by
  induction blocks generalizing index events with
  | nil =>
    cases h
    rfl
  | cons burstGroup rest ih =>
    rw [blockEvents] at h
    split_ifs at h
    · exact ih h
    · obtain ⟨predictDevice, -, h⟩ := CheckedLoop.bind_eq_ok.mp h
      obtain ⟨predict, -, h⟩ := CheckedLoop.bind_eq_ok.mp h
      obtain ⟨later, hlater, h⟩ := CheckedLoop.bind_eq_ok.mp h
      cases h
      rw [averages_append, averages_ofPrediction, ih hlater]
      rfl

/-- **A step of main.** -/
theorem OnTrack.main (h : OnTrack env total taskNum s) (hstep : mainStep env s = some s') :
    OnTrack env total taskNum s' := by
  obtain ⟨log, plans, mainPlan, hlog, hplans, hmain, hperm, haverages⟩ := h.planned
  have hstarted := h.started
  have hwait := h.waitPrediction
  cases mainStep_cases hstep with
  | @addPktAvgNum deviceId num ahead score hphase hscore =>
    rw [hphase] at hmain hstarted
    obtain ⟨events, rest, hevents, hrest, rfl⟩ := plan_predicting_cons hmain
    obtain ⟨device, hdevice, hevents⟩ := CheckedLoop.bind_eq_ok.mp hevents
    cases hevents
    rw [Score.addPktAvgNum, hdevice] at hscore
    cases hscore
    refine ⟨h.truthful, ⟨_, plans, rest, hlog.updateAvg (removeSuffix device.instanceName) num,
      hplans, hrest, ?_, ?_⟩, hwait, hstarted, fun hreturned => by cases hreturned⟩
    · refine List.Perm.trans ?_ hperm
      rw [List.append_assoc]
      refine List.Perm.append_left log ?_
      rw [← List.append_assoc, ← List.append_assoc]
      exact List.perm_append_comm.append_right rest
    · rw [averages_append, List.append_assoc, ← averages_append]
      exact haverages
  | noDevice hphase hscore =>
    rw [hphase] at hmain
    obtain ⟨events, rest, hevents, -, -⟩ := plan_predicting_cons hmain
    obtain ⟨device, hdevice, -⟩ := CheckedLoop.bind_eq_ok.mp hevents
    rw [Score.addPktAvgNum, hdevice] at hscore
    cases hscore
  | start hphase =>
    rw [hphase] at hmain hstarted
    obtain ⟨events, rest, hevents, hrest, rfl⟩ := plan_predicting_cons hmain
    refine ⟨?_, ⟨log, plans ++ [events], rest, hlog, ?_, hrest, ?_, ?_⟩, ?_, ?_,
      fun hreturned => by cases hreturned⟩
    · dsimp only
      rw [List.map_append]
      exact h.truthful.join _
    · exact List.rel_append hplans (.cons hevents .nil)
    · rw [List.flatten_append, List.append_assoc, List.flatten_singleton]
      exact hperm
    · have hnone : averages events = [] := by
        obtain ⟨burst, -, hblocks⟩ := CheckedLoop.bind_eq_ok.mp hevents
        exact averages_blockEvents _ hblocks
      rw [averages_append events, hnone, List.nil_append] at haverages
      exact haverages
    · dsimp only
      rw [List.countP_append]
      exact hwait
    · dsimp only [MainPhase.unstarted] at hstarted ⊢
      rw [List.length_append, List.length_singleton]
      rw [List.countP_cons_of_pos rfl] at hstarted
      omega
  | passed hphase hcount =>
    rw [hphase] at hmain hstarted
    refine ⟨h.truthful, ⟨log, plans, mainPlan, hlog, hplans, hmain, hperm, haverages⟩, hwait,
      hstarted, fun _ => ?_⟩
    have hle := List.countP_le_length (p := Phase.isFinished) (l := s.tasks)
    rw [hwait, newWaitGroup] at hcount
    refine List.countP_eq_length.mp (show s.tasks.countP Phase.isFinished = s.tasks.length from ?_)
    have hnum : s.tasks.length = taskNum := hstarted
    split_ifs at hcount <;> omega

/-- **Any step.** -/
theorem OnTrack.next (h : OnTrack env total taskNum s) {p : Party F}
    (hstep : step env s p = some s') : OnTrack env total taskNum s' := by
  cases p with
  | main => exact h.main hstep
  | task j =>
    obtain ⟨phase, hj, hstep⟩ := Option.bind_eq_some_iff.mp hstep
    obtain ⟨⟨phase', shared'⟩, htask, hstep⟩ := Option.bind_eq_some_iff.mp hstep
    cases hstep
    exact h.task hj (taskStep_cases htask)
  | write j nearest =>
    rw [step] at hstep
    split at hstep
    · rename_i x predictDevice testBurst bursts hj
      cases hstep
      refine ⟨?_, h.planned, h.waitPrediction, h.started, h.returned⟩
      have hlaw : Memo.Lawful (sameKey env.lib) env.search blank answered :=
        Prediction.lawful env.lib env.cfg.divisionParam env.cfg.classifyParam env.train
      refine h.truthful.step hlaw (m := .write j nearest) ?_
      have hcall : (s.tasks.map Phase.call)[j]? = some (testBurst, .inside) := by
        rw [List.getElem?_map, hj]
        rfl
      rw [Memo.step, hcall]
    · cases hstep

/-- **What main gets back**, in terms of the events that were ahead of it. -/
theorem OnTrack.logged (h : OnTrack env total taskNum s) (hreturned : s.main = .returned) :
    ∃ log, Logged log s.shared.score ∧ log.Perm total ∧ averages log = averages total := by
  obtain ⟨log, plans, mainPlan, hlog, hplans, hmain, hperm, haverages⟩ := h.planned
  rw [hreturned] at hmain
  cases hmain
  have hempty : plans.flatten = [] := by
    refine List.flatten_eq_nil_iff.mpr fun plan hplan => ?_
    obtain ⟨j, hj⟩ := List.mem_iff_getElem?.mp hplan
    obtain ⟨phase, hphase, hplan⟩ := TaskPool.exists_plan hplans.flip hj
    have hfinished := h.returned hreturned phase (List.mem_of_getElem? hphase)
    cases phase with
    | finished => exact (Except.ok.inj hplan).symm
    | _ => cases hfinished
  rw [hempty, List.append_nil, List.append_nil] at hperm
  exact ⟨log, hlog, hperm, (List.append_nil _).symm.trans haverages⟩

/-- Once main has its score back, it is that of the events, up to their order. -/
theorem OnTrack.alike (h : OnTrack env total taskNum s) {score : Score F}
    (hlogged : Logged total score) (hreturned : s.main = .returned) :
    s.shared.score.SheetsAlike score ∧
      s.shared.score.errBurstGroups.Perm score.errBurstGroups := by
  obtain ⟨log, hlog, hperm, haverages⟩ := h.logged hreturned
  refine ⟨hlog.sheetsAlike hlogged (hperm.filterMap _) haverages, ?_⟩
  rw [hlog.errBurstGroups, hlogged.errBurstGroups]
  exact hperm.filterMap _

/-! ## The tasks that main counts -/

theorem countP_deviceActions {e : ℕ} (he : 0 < e) (hroom : e < 2 ^ 31)
    {addrAvgPktMap : UnorderedMap UInt16 ℕ} {d : UInt16 × List BurstBlock}
    {actions : List MainAction} (h : deviceActions e addrAvgPktMap d = .ok actions) :
    actions.countP MainAction.isStart = tasksNeeded e d.2.length := by
  rw [deviceActions] at h
  split at h
  · cases h
  · rename_i tasks htasks
    cases tasks with
    | error fault => cases h
    | ok tasks =>
      cases h
      obtain ⟨-, chunks, -, hcount, rfl⟩ := chunks_of_deviceTasks he hroom htasks
      rw [List.countP_cons_of_neg Bool.false_ne_true, ← hcount]
      refine (List.countP_eq_length.mpr fun a ha => ?_).trans (by simp)
      obtain ⟨t, -, rfl⟩ := List.mem_map.mp ha
      rfl

theorem countP_mainActions {e : ℕ} (he : 0 < e) (hroom : e < 2 ^ 31)
    {addrAvgPktMap : UnorderedMap UInt16 ℕ} (devices : List (UInt16 × List BurstBlock))
    {actions : List (List MainAction)}
    (h : devices.mapM (deviceActions e addrAvgPktMap) = .ok actions) :
    actions.flatten.countP MainAction.isStart =
      (devices.map fun d => tasksNeeded e d.2.length).sum := by
  induction devices generalizing actions with
  | nil =>
    cases h
    rfl
  | cons d devices ih =>
    rw [List.mapM_cons] at h
    obtain ⟨first, hfirst, h⟩ := CheckedLoop.bind_eq_ok.mp h
    obtain ⟨rest, hrest, h⟩ := CheckedLoop.bind_eq_ok.mp h
    cases h
    rw [List.flatten_cons, List.countP_append, countP_deviceActions he hroom hfirst, ih hrest,
      List.map_cons, List.sum_cons]

/-- **Main counts the tasks that it starts**, if they fit into an `int`. -/
theorem taskNum_eq {lib : StdLib} {div : DivisionParam}
    {testset : UnorderedMap UInt16 (List BurstBlock)} (hslot : 1 ≤ div.timeslot.toNat)
    (hmax : div.timeslot.toNat ≤ epochTimeslot * 3600) (htotal : totalTasks div testset < 2 ^ 31)
    {addrAvgPktMap : UnorderedMap UInt16 ℕ} {actions : List (List MainAction)}
    (h : mainActions lib div addrAvgPktMap testset = .ok actions) :
    Classifier.taskNum lib div testset = (actions.flatten.countP MainAction.isStart : ℕ) := by
  obtain ⟨he, hroom⟩ := epochSlotNum_bounds hslot hmax
  rw [← sum_tasksNeeded_iterate lib] at htotal
  rw [countP_mainActions he hroom _ h, Classifier.taskNum]
  have hcount := foldl_countTasks_eq he hroom (lib.iterate testset) 0 (by omega)
  rwa [Nat.zero_add] at hcount

end Steps

end ParallelPrediction
end BurstIoT
