import Mathlib.Data.List.Forall2
import BurstIoT.Instrumentor
import BurstIoT.Library.StepSystem

/-!
# Timers and sessions

An experiment calls `BeginSession`, trains, starts one `PredictGroups` task for each split of the
test blocks, waits for them, and calls `EndSession`.  A task calls `waitPrediction->done()` as its
last statement; its timer is a local object, so the event of the task is written after that call,
when the task returns.  Main does not wait for this: it may end the session first.

The file of a session is in the folder of the results, which nothing makes before `OutputToFile`
does, at the end of an experiment.  In a folder without results the session has no file.

Main and the tasks are one step system, whose state keeps the calls to the `Instrumentor` in the
order in which they are made, and the folders that have been made.  Each call is one move.
`WriteProfile` holds a mutex, `BeginSession` and `EndSession` do not; in the runs that are as meant
no task is left when main makes them.

In these runs a session begins only where its folder is there, main ends it only when the tasks have
returned, and no event is written once the counter of the events has wrapped.  All the files are
then complete and well formed; where main or a task goes on without, some schedule breaks the trace
(`traceWellFormed_iff`).
-/

namespace BurstIoT
namespace Profiling

open StepSystem Instrumentor

/-- What main does from one `BeginSession` to the `EndSession`: the events of its own timers before
and after the tasks, and the events that the timers of the tasks will write. -/
structure Session where
  name : String
  folder : String
  file : String
  before : List ProfileResult
  tasks : List ProfileResult
  after : List ProfileResult
  deriving DecidableEq, Repr

/-- Where `BeginSession` opens the file. -/
def Session.filepath (x : Session) : String :=
  x.folder ++ "/" ++ x.file

/-- All events of a session. -/
def Session.events (x : Session) : List ProfileResult :=
  x.before ++ (x.tasks ++ x.after)

/-- `SingleExperiment`: the timer of `Train` ends before `Predict` starts its tasks, the one of
`Predict` after the wait. -/
def singleExperiment (outputFolder stem : String) (training prediction : ProfileResult)
    (tasks : List ProfileResult) : Session where
  name := "Train and Prediction"
  folder := outputFolder ++ "/res"
  file := stem ++ ".json"
  before := [training]
  tasks := tasks
  after := [prediction]

/-- Where main stands: before `BeginSession` with sessions ahead; or in the session `x`, with
sessions `rest` after it, and events, tasks, events or only `EndSession` ahead. -/
inductive MainPhase where
  | beginSession (rest : List Session)
  | before (events : List ProfileResult) (x : Session) (rest : List Session)
  | start (tasks : List ProfileResult) (x : Session) (rest : List Session)
  | wait (x : Session) (rest : List Session)
  | after (events : List ProfileResult) (x : Session) (rest : List Session)
  | endSession (x : Session) (rest : List Session)
  deriving DecidableEq, Repr

/-- What a `PredictGroups` task does next: predict its blocks, call `waitPrediction->done()`, or
destroy its timer. -/
inductive TaskPhase where
  | predict
  | done
  | writeProfile
  | returned
  deriving DecidableEq, Repr

/-- A `PredictGroups` task, with the event of its timer. -/
structure PredictTask where
  result : ProfileResult
  phase : TaskPhase := .predict
  deriving DecidableEq, Repr

/-- Main, the count of `waitPrediction`, all tasks that have been started, the calls that have been
made, and the folders. -/
structure State where
  main : MainPhase
  waitPrediction : ℕ
  tasks : List PredictTask
  calls : List Call
  folders : List String
  deriving DecidableEq, Repr

/-- Who moves. -/
inductive Party where
  | main
  | task (j : ℕ)
  deriving DecidableEq, Repr

/-! ## The moves -/

/-- A folder is there if it has been made, or one in it. -/
def isFolder (folders : List String) (folder : String) : Bool :=
  folders.any fun made => (folder ++ "/").toList.isPrefixOf (made ++ "/").toList

/-- One move of main.  `OutputToFile` makes the folder of the results. -/
def mainStep (s : State) : Option State :=
  match s.main with
  | .beginSession [] => none
  | .beginSession (x :: rest) =>
    some { s with
      main := .before x.before x rest
      calls := s.calls ++ [.beginSession x.name x.filepath (isFolder s.folders x.folder)] }
  | .before (result :: events) x rest =>
    some { s with main := .before events x rest, calls := s.calls ++ [.writeProfile result] }
  | .before [] x rest =>
    some { s with main := .start x.tasks x rest, waitPrediction := x.tasks.length }
  | .start (result :: tasks) x rest =>
    some { s with main := .start tasks x rest, tasks := s.tasks ++ [{ result := result }] }
  | .start [] x rest => some { s with main := .wait x rest }
  | .wait x rest =>
    if s.waitPrediction = 0 then some { s with main := .after x.after x rest } else none
  | .after (result :: events) x rest =>
    some { s with main := .after events x rest, calls := s.calls ++ [.writeProfile result] }
  | .after [] x rest =>
    some { s with main := .endSession x rest, folders := x.folder :: s.folders }
  | .endSession _ rest =>
    some { s with main := .beginSession rest, calls := s.calls ++ [.endSession] }

/-- One move of task `j`. -/
def taskStep (s : State) (j : ℕ) : Option State :=
  match s.tasks[j]? with
  | none => none
  | some t =>
    match t.phase with
    | .predict => some { s with tasks := s.tasks.set j { t with phase := .done } }
    | .done =>
      some { s with
        tasks := s.tasks.set j { t with phase := .writeProfile }
        waitPrediction := s.waitPrediction - 1 }
    | .writeProfile =>
      some { s with
        tasks := s.tasks.set j { t with phase := .returned }
        calls := s.calls ++ [.writeProfile t.result] }
    | .returned => none

/-- One move. -/
def step (s : State) : Party → Option State
  | .main => mainStep s
  | .task j => taskStep s j

/-- Before the first session. -/
def started (folders : List String) (plan : List Session) : State where
  main := .beginSession plan
  waitPrediction := 0
  tasks := []
  calls := []
  folders := folders

/-- The call that the next move of a party makes. -/
def nextCall (s : State) : Party → Option Call
  | .main =>
    match s.main with
    | .beginSession (x :: _) =>
      some (.beginSession x.name x.filepath (isFolder s.folders x.folder))
    | .before (result :: _) _ _ => some (.writeProfile result)
    | .after (result :: _) _ _ => some (.writeProfile result)
    | .endSession _ _ => some .endSession
    | _ => none
  | .task j =>
    match s.tasks[j]? with
    | some { result := result, phase := .writeProfile } => some (.writeProfile result)
    | _ => none

/-- A session begins only where its folder is there, and ends only after all tasks have returned,
and no event is written once the counter has wrapped. -/
def orderly (s : State) (p : Party) : Bool :=
  match nextCall s p with
  | some .endSession => s.tasks.all fun t => t.phase = .returned
  | some c => (Instrumentor.after s.calls).ready c
  | none => true

/-! ## Well-formed traces -/

/-- A session that has ended has all its events, in some order. -/
structure Traced (x : Session) (t : Trace) : Prop where
  name : t.name = x.name
  filepath : t.filepath = x.filepath
  events : t.events.Perm x.events

/-- **The trace is well formed**: the calls are a profile of the planned sessions, so no event is
outside a session; and the files hold the header, the events of the session with single commas
between them and, when the session has ended, the footer. -/
def TraceWellFormed (plan : List Session) (calls : List Call) : Prop :=
  ∃ p, Profile.ofCalls calls = some p ∧ p.Written (Instrumentor.after calls) ∧
    List.Forall₂ Traced (plan.take p.closed.length) p.closed

/-! ## What is still to be written -/

/-- The session that main is in. -/
def MainPhase.current : MainPhase → Option Session
  | .beginSession _ => none
  | .before _ x _ | .start _ x _ | .wait x _ | .after _ x _ | .endSession x _ => some x

/-- The sessions that main has not begun. -/
def MainPhase.rest : MainPhase → List Session
  | .beginSession rest | .before _ _ rest | .start _ _ rest | .wait _ rest | .after _ _ rest
  | .endSession _ rest => rest

/-- The events of the session that neither main nor a task that has been started has written. -/
def MainPhase.pending : MainPhase → List ProfileResult
  | .beginSession _ => []
  | .before events x _ => events ++ (x.tasks ++ x.after)
  | .start tasks x _ => tasks ++ x.after
  | .wait x _ => x.after
  | .after events _ _ => events
  | .endSession _ _ => []

/-- How many tasks main has yet to start, once `waitPrediction` counts them. -/
def MainPhase.unstarted : MainPhase → ℕ
  | .start tasks _ _ => tasks.length
  | _ => 0

/-- No task of the session has been started. -/
def MainPhase.quiet : MainPhase → Bool
  | .beginSession _ | .before _ _ _ => true
  | _ => false

/-- Main is past `waitPrediction->wait()`. -/
def MainPhase.waited : MainPhase → Bool
  | .after _ _ _ | .endSession _ _ => true
  | _ => false

/-- The events of tasks that have not returned. -/
def unwritten (tasks : List PredictTask) : List ProfileResult :=
  (tasks.filter fun t => t.phase ≠ .returned).map PredictTask.result

/-- How many tasks have not called `done()`. -/
def predicting (tasks : List PredictTask) : ℕ :=
  tasks.countP fun t => t.phase = .predict ∨ t.phase = .done

theorem unwritten_append (tasks tasks' : List PredictTask) :
    unwritten (tasks ++ tasks') = unwritten tasks ++ unwritten tasks' := by
  unfold unwritten
  rw [List.filter_append, List.map_append]

theorem unwritten_of_returned {tasks : List PredictTask}
    (h : (tasks.all fun t => t.phase = .returned) = true) : unwritten tasks = [] := by
  unfold unwritten
  rw [List.filter_eq_nil_iff.mpr, List.map_nil]
  intro t ht
  have := List.all_eq_true.mp h t ht
  simpa using this

theorem predicting_append (tasks tasks' : List PredictTask) :
    predicting (tasks ++ tasks') = predicting tasks + predicting tasks' :=
  List.countP_append

theorem predicting_of_unwritten {tasks : List PredictTask} (h : unwritten tasks = []) :
    predicting tasks = 0 := by
  unfold predicting
  rw [List.countP_eq_zero]
  intro t ht
  have := List.filter_eq_nil_iff.mp (List.map_eq_nil_iff.mp h) t ht
  simp only [ne_eq, decide_not, Bool.not_eq_true', decide_eq_false_iff_not, not_not] at this
  rw [this]
  decide

/-- The task that moves stands between the others. -/
theorem exists_split {tasks : List PredictTask} {j : ℕ} {t : PredictTask}
    (hj : tasks[j]? = some t) :
    ∃ l₁ l₂, tasks = l₁ ++ ([t] ++ l₂) ∧ ∀ t', tasks.set j t' = l₁ ++ ([t'] ++ l₂) := by
  obtain ⟨hlt, rfl⟩ := List.getElem?_eq_some_iff.mp hj
  refine ⟨tasks.take j, tasks.drop (j + 1), ?_, fun t' => ?_⟩
  · rw [List.singleton_append, List.getElem_cons_drop, List.take_append_drop]
  · rw [List.set_eq_take_append_cons_drop, if_pos hlt]
    rfl

/-! ## Runs that are as meant -/

/-- The session that main is in is the one that is being written, and has its events in the trace
or ahead. -/
def During (x : Option Session) (t : Option Trace) (ahead : List ProfileResult) : Prop :=
  match x, t with
  | none, none => True
  | some x, some t =>
    t.name = x.name ∧ t.filepath = x.filepath ∧ (t.events ++ ahead).Perm x.events
  | _, _ => False

/-- What holds in a run that is as meant: the calls are the profile `p`, and main and the tasks
stand where `p` says. -/
structure Inv (plan : List Session) (s : State) (p : Profile) : Prop where
  calls : Profile.ofCalls s.calls = some p
  shows : Shows p (Instrumentor.after s.calls)
  counter : predicting s.tasks + s.main.unstarted = s.waitPrediction
  quiet : s.main.quiet = true → unwritten s.tasks = []
  waited : s.main.waited = true → predicting s.tasks = 0
  closed : ∃ ended, plan = ended ++ (s.main.current.toList ++ s.main.rest) ∧
    List.Forall₂ Traced ended p.closed
  current : During s.main.current p.current (unwritten s.tasks ++ s.main.pending)

theorem inv_started (folders : List String) (plan : List Session) :
    Inv plan (started folders plan) {} where
  calls := rfl
  shows := shows_start
  counter := rfl
  quiet := fun _ => rfl
  waited := nofun
  closed := ⟨[], rfl, .nil⟩
  current := trivial

variable {folders : List String} {plan : List Session} {s s' : State} {p : Profile}

/-- The trace is well formed in a run that is as meant. -/
theorem Inv.traceWellFormed (h : Inv plan s p) : TraceWellFormed plan s.calls := by
  obtain ⟨ended, hplan, hended⟩ := h.closed
  refine ⟨p, h.calls, h.shows.written, ?_⟩
  rw [hplan, ← hended.length_eq, List.take_left]
  exact hended

/-- In a session, a profile is being written. -/
theorem Inv.exists_trace (h : Inv plan s p) {x : Session} (hx : s.main.current = some x) :
    ∃ t, p = { closed := p.closed, current := some t } ∧ t.name = x.name ∧
      t.filepath = x.filepath ∧
      (t.events ++ (unwritten s.tasks ++ s.main.pending)).Perm x.events := by
  obtain ⟨closed, current⟩ := p
  have hcurrent := h.current
  rw [hx] at hcurrent
  cases current with
  | none => exact hcurrent.elim
  | some t => exact ⟨t, rfl, hcurrent⟩

/-- A call that the profile takes. -/
theorem Inv.call (h : Inv plan s p) {who : Party} {c : Call} {p' : Profile}
    (horderly : orderly s who = true) (hnext : nextCall s who = some c)
    (hp : p.call c = some p') :
    Profile.ofCalls (s.calls ++ [c]) = some p' ∧
      Shows p' (Instrumentor.after (s.calls ++ [c])) := by
  constructor
  · rw [Profile.ofCalls_append, h.calls]
    exact hp
  · rw [Instrumentor.after_append]
    refine h.shows.call hp ?_
    unfold orderly at horderly
    rw [hnext] at horderly
    cases c with
    | endSession => rfl
    | _ => exact horderly

/-- An event that is written goes from what is ahead to the trace. -/
theorem Inv.write (h : Inv plan s p) {who : Party} {result : ProfileResult} {x : Session}
    {ahead : List ProfileResult} (horderly : orderly s who = true)
    (hnext : nextCall s who = some (.writeProfile result)) (hx : s.main.current = some x)
    (hahead : (unwritten s.tasks ++ s.main.pending).Perm (result :: ahead)) :
    ∃ p', Profile.ofCalls (s.calls ++ [.writeProfile result]) = some p' ∧
      Shows p' (Instrumentor.after (s.calls ++ [.writeProfile result])) ∧
      p'.closed = p.closed ∧ During (some x) p'.current ahead := by
  obtain ⟨t, hp, hname, hfilepath, hperm⟩ := h.exists_trace hx
  rw [hp] at h
  obtain ⟨hcalls, hshows⟩ := h.call horderly hnext rfl
  refine ⟨_, hcalls, hshows, rfl, hname, hfilepath, ?_⟩
  show (t.events ++ [result] ++ ahead).Perm x.events
  rw [List.append_assoc, List.singleton_append]
  exact (hahead.symm.append_left t.events).trans hperm

/-- A session that ends after its tasks have returned has all its events. -/
theorem Inv.finish (h : Inv plan s p) {x : Session} {rest : List Session}
    (horderly : orderly s .main = true) (hmain : s.main = .endSession x rest) :
    ∃ p', Inv plan
      { s with main := .beginSession rest, calls := s.calls ++ [.endSession] } p' := by
  obtain ⟨ended, hplan, hended⟩ := h.closed
  have hnext : nextCall s .main = some .endSession := by
    unfold nextCall
    dsimp only
    rw [hmain]
  have hreturned : unwritten s.tasks = [] := by
    unfold orderly at horderly
    rw [hnext] at horderly
    exact unwritten_of_returned horderly
  have hcounter := h.counter
  obtain ⟨t, hp, hname, hfilepath, hperm⟩ := h.exists_trace (x := x) (by rw [hmain]; rfl)
  rw [hreturned, hmain] at hperm
  change (t.events ++ []).Perm x.events at hperm
  rw [List.append_nil] at hperm
  rw [hp] at h
  obtain ⟨hcalls, hshows⟩ := h.call horderly hnext rfl
  rw [hmain] at hcounter hplan
  refine ⟨_, hcalls, hshows, hcounter, fun _ => hreturned, nofun, ⟨ended ++ [x], ?_, ?_⟩, trivial⟩
  · rw [hplan, List.append_assoc]
    rfl
  · exact List.rel_append hended (.cons ⟨hname, hfilepath, hperm⟩ .nil)

/-- **A move of main** keeps the run as meant. -/
theorem Inv.mainStep (h : Inv plan s p) (horderly : orderly s .main = true)
    (hstep : mainStep s = some s') : ∃ p', Inv plan s' p' := by
  obtain ⟨main, waitPrediction, tasks, calls, folders⟩ := s
  obtain ⟨ended, hplan, hended⟩ := h.closed
  match main with
  | .beginSession [] => cases hstep
  | .beginSession (x :: rest) =>
    cases hstep
    obtain ⟨closed, current⟩ := p
    have hnone : current = none := by
      cases current with
      | none => rfl
      | some t => exact h.current.elim
    subst hnone
    obtain ⟨hcalls, hshows⟩ := h.call horderly rfl rfl
    refine ⟨_, hcalls, hshows, h.counter, h.quiet, nofun, ⟨ended, hplan, hended⟩, rfl, rfl, ?_⟩
    show ([] ++ (unwritten tasks ++ (x.before ++ (x.tasks ++ x.after)))).Perm x.events
    rw [h.quiet rfl]
    exact .refl _
  | .before (result :: events) x rest =>
    cases hstep
    obtain ⟨p', hcalls, hshows, hclosed, hcurrent⟩ := h.write horderly rfl rfl List.perm_middle
    exact ⟨p', hcalls, hshows, h.counter, h.quiet, nofun, ⟨ended, hplan, hclosed ▸ hended⟩,
      hcurrent⟩
  | .before [] x rest =>
    cases hstep
    refine ⟨p, h.calls, h.shows, ?_, nofun, nofun, ⟨ended, hplan, hended⟩, h.current⟩
    show predicting tasks + x.tasks.length = x.tasks.length
    rw [predicting_of_unwritten (h.quiet rfl), Nat.zero_add]
  | .start (result :: unstarted) x rest =>
    cases hstep
    refine ⟨p, h.calls, h.shows, ?_, nofun, nofun, ⟨ended, hplan, hended⟩, ?_⟩
    · have hcounter : predicting tasks + (unstarted.length + 1) = waitPrediction := h.counter
      show predicting (tasks ++ [{ result := result }]) + unstarted.length = waitPrediction
      rw [predicting_append, ← hcounter, Nat.add_assoc, Nat.add_comm unstarted.length]
      rfl
    · show During (some x) p.current
        (unwritten (tasks ++ [{ result := result }]) ++ (unstarted ++ x.after))
      rw [unwritten_append, List.append_assoc]
      exact h.current
  | .start [] x rest =>
    cases hstep
    exact ⟨p, h.calls, h.shows, h.counter, nofun, nofun, ⟨ended, hplan, hended⟩, h.current⟩
  | .wait x rest =>
    change (if waitPrediction = 0 then _ else none) = some s' at hstep
    split at hstep
    case isTrue hwait =>
      cases hstep
      exact ⟨p, h.calls, h.shows, h.counter, nofun, fun _ => h.counter.trans hwait,
        ⟨ended, hplan, hended⟩, h.current⟩
    case isFalse => cases hstep
  | .after (result :: events) x rest =>
    cases hstep
    obtain ⟨p', hcalls, hshows, hclosed, hcurrent⟩ := h.write horderly rfl rfl List.perm_middle
    exact ⟨p', hcalls, hshows, h.counter, nofun, h.waited, ⟨ended, hplan, hclosed ▸ hended⟩,
      hcurrent⟩
  | .after [] x rest =>
    cases hstep
    exact ⟨p, h.calls, h.shows, h.counter, nofun, h.waited, ⟨ended, hplan, hended⟩, h.current⟩
  | .endSession x rest =>
    cases hstep
    exact h.finish horderly rfl

/-- A task that is about to return makes a call. -/
theorem nextCall_task {j : ℕ} {result : ProfileResult}
    (hj : s.tasks[j]? = some { result := result, phase := .writeProfile }) :
    nextCall s (.task j) = some (.writeProfile result) := by
  unfold nextCall
  dsimp only
  rw [hj]

/-- A task that moves changes the number of tasks before `done()` by what it does itself. -/
theorem predicting_set {tasks : List PredictTask} {j : ℕ} {t : PredictTask} (t' : PredictTask)
    (hj : tasks[j]? = some t) :
    predicting (tasks.set j t') + predicting [t] = predicting tasks + predicting [t'] := by
  obtain ⟨l₁, l₂, htasks, hset⟩ := exists_split hj
  rw [hset, htasks]
  simp only [predicting_append]
  omega

/-- And the events to be written, by its own. -/
theorem unwritten_set {tasks : List PredictTask} {j : ℕ} {t : PredictTask} (t' : PredictTask)
    (hj : tasks[j]? = some t) :
    ∃ before after, unwritten tasks = before ++ (unwritten [t] ++ after) ∧
      unwritten (tasks.set j t') = before ++ (unwritten [t'] ++ after) := by
  obtain ⟨l₁, l₂, htasks, hset⟩ := exists_split hj
  refine ⟨unwritten l₁, unwritten l₂, ?_, ?_⟩
  · rw [htasks, unwritten_append, unwritten_append]
  · rw [hset, unwritten_append, unwritten_append]

/-- A task up to `done()` writes nothing, and counts down as it calls it. -/
theorem Inv.set (h : Inv plan s p) {j : ℕ} {t t' : PredictTask} {waitPrediction : ℕ}
    (hj : s.tasks[j]? = some t) (hunwritten : unwritten [t'] = unwritten [t])
    (hpredicting : predicting [t'] ≤ predicting [t])
    (hcounter : waitPrediction + predicting [t] = s.waitPrediction + predicting [t']) :
    Inv plan { s with tasks := s.tasks.set j t', waitPrediction := waitPrediction } p := by
  have hset := predicting_set t' hj
  have heq : unwritten (s.tasks.set j t') = unwritten s.tasks := by
    obtain ⟨before, after, htasks, htasks'⟩ := unwritten_set t' hj
    rw [htasks', htasks, hunwritten]
  refine ⟨h.calls, h.shows, ?_, fun hmain => heq.trans (h.quiet hmain), fun hmain => ?_, h.closed,
    ?_⟩
  · have := h.counter
    show predicting (s.tasks.set j t') + s.main.unstarted = waitPrediction
    omega
  · have := h.waited hmain
    show predicting (s.tasks.set j t') = 0
    omega
  · show During s.main.current p.current (unwritten (s.tasks.set j t') ++ s.main.pending)
    rw [heq]
    exact h.current

/-- A task that destroys its timer in an orderly run writes its event to the session of main. -/
theorem Inv.returned (h : Inv plan s p) {j : ℕ} {result : ProfileResult}
    (horderly : orderly s (.task j) = true)
    (hj : s.tasks[j]? = some { result := result, phase := .writeProfile }) :
    ∃ p', Inv plan { s with
      tasks := s.tasks.set j { result := result, phase := .returned }
      calls := s.calls ++ [.writeProfile result] } p' := by
  obtain ⟨before, after, htasks, htasks'⟩ :=
    unwritten_set { result := result, phase := .returned } hj
  change unwritten s.tasks = before ++ (result :: after) at htasks
  change _ = before ++ after at htasks'
  have hloud : s.main.quiet = false := by
    by_contra hquiet
    have hnil := h.quiet (Bool.not_eq_false _ ▸ hquiet)
    rw [htasks] at hnil
    exact List.append_ne_nil_of_right_ne_nil before (List.cons_ne_nil result after) hnil
  obtain ⟨x, hx⟩ : ∃ x, s.main.current = some x := by
    cases hmain : s.main with
    | beginSession rest =>
      rw [hmain] at hloud
      cases hloud
    | _ => exact ⟨_, rfl⟩
  have hahead : (unwritten s.tasks ++ s.main.pending).Perm
      (result :: (before ++ after ++ s.main.pending)) := by
    rw [htasks]
    exact List.perm_middle.append_right s.main.pending
  obtain ⟨p', hcalls, hshows, hclosed, hcurrent⟩ := h.write horderly (nextCall_task hj) hx hahead
  have hset : predicting (s.tasks.set j { result := result, phase := .returned }) =
      predicting s.tasks := predicting_set { result := result, phase := .returned } hj
  refine ⟨p', hcalls, hshows, ?_, fun hmain => ?_, fun hmain => hset.trans (h.waited hmain), ?_, ?_⟩
  · show predicting (s.tasks.set j _) + s.main.unstarted = s.waitPrediction
    rw [hset]
    exact h.counter
  · cases hloud.symm.trans hmain
  · rw [hclosed]
    exact h.closed
  · show During s.main.current p'.current (unwritten (s.tasks.set j _) ++ s.main.pending)
    rw [hx, htasks']
    exact hcurrent

/-- **A move of a task** keeps the run as meant. -/
theorem Inv.taskStep (h : Inv plan s p) {j : ℕ} (horderly : orderly s (.task j) = true)
    (hstep : taskStep s j = some s') : ∃ p', Inv plan s' p' := by
  unfold Profiling.taskStep at hstep
  cases hj : s.tasks[j]? with
  | none =>
    rw [hj] at hstep
    cases hstep
  | some t =>
    rw [hj] at hstep
    obtain ⟨result, phase⟩ := t
    cases phase with
    | predict =>
      cases hstep
      exact ⟨p, h.set hj rfl (Nat.le_refl 1) rfl⟩
    | done =>
      cases hstep
      have hpos : 0 < s.waitPrediction := by
        have hcounter := h.counter
        have hset := predicting_set { result := result, phase := .writeProfile } hj
        change _ + 1 = _ + 0 at hset
        omega
      exact ⟨p, h.set hj rfl (Nat.zero_le 1) (Nat.sub_add_cancel hpos)⟩
    | writeProfile =>
      cases hstep
      exact h.returned horderly hj
    | returned => cases hstep

/-- **Every state of a run that is as meant** is as meant. -/
theorem inv_of_reachable (h : Reachable (restrict step orderly) (started folders plan) s) :
    ∃ p, Inv plan s p := by
  refine Reachable.invariant (I := fun s => ∃ p, Inv plan s p) h ⟨{}, inv_started folders plan⟩ ?_
  rintro s who s' ⟨p, hs⟩ hstep
  obtain ⟨horderly, hstep⟩ := step_of_restrict hstep
  cases who with
  | main => exact hs.mainStep horderly hstep
  | task j => exact hs.taskStep horderly hstep

/-! ## Runs that go on without -/

theorem calls_of_mainStep (h : mainStep s = some s') :
    s'.calls = s.calls ++ (nextCall s .main).toList := by
  obtain ⟨main, waitPrediction, tasks, calls, folders⟩ := s
  match main with
  | .beginSession [] => cases h
  | .wait x rest =>
    change (if waitPrediction = 0 then _ else none) = some s' at h
    split at h
    · cases h
      exact (List.append_nil calls).symm
    · cases h
  | .beginSession (x :: rest) | .before (result :: events) x rest
  | .after (result :: events) x rest | .endSession x rest =>
    cases h
    rfl
  | .before [] x rest | .start (result :: unstarted) x rest | .start [] x rest | .after [] x rest =>
    cases h
    exact (List.append_nil calls).symm

theorem calls_of_taskStep {j : ℕ} (h : taskStep s j = some s') :
    s'.calls = s.calls ++ (nextCall s (.task j)).toList := by
  unfold taskStep at h
  unfold nextCall
  dsimp only
  cases hj : s.tasks[j]? with
  | none =>
    rw [hj] at h
    cases h
  | some t =>
    obtain ⟨result, phase⟩ := t
    rw [hj] at h
    cases phase with
    | predict | done =>
      cases h
      exact (List.append_nil s.calls).symm
    | writeProfile =>
      cases h
      rfl
    | returned => cases h

/-- Every move makes at most one call. -/
theorem calls_of_step {who : Party} (h : step s who = some s') :
    s'.calls = s.calls ++ (nextCall s who).toList := by
  cases who with
  | main => exact calls_of_mainStep h
  | task j => exact calls_of_taskStep h

/-- Only main ends a session. -/
theorem endSession_of_nextCall {who : Party} (h : nextCall s who = some .endSession) :
    who = .main ∧ ∃ x rest, s.main = .endSession x rest := by
  cases who with
  | main =>
    refine ⟨rfl, ?_⟩
    obtain ⟨main, waitPrediction, tasks, calls, folders⟩ := s
    match main with
    | .endSession x rest => exact ⟨x, rest, rfl⟩
    | .beginSession [] | .start _ _ _ | .wait _ _ | .before [] _ _ | .after [] _ _ => cases h
    | .beginSession (x :: rest) | .before (result :: events) x rest
    | .after (result :: events) x rest => cases h
  | task j =>
    unfold nextCall at h
    dsimp only at h
    split at h <;> cases h

/-- An event outside a session breaks the trace. -/
theorem not_traceWellFormed_of_none {calls : List Call} (h : Profile.ofCalls calls = none) :
    ¬ TraceWellFormed plan calls := by
  rintro ⟨p, hp, -⟩
  cases h.symm.trans hp

/-- So does a call for which the writer is not ready. -/
theorem Inv.not_traceWellFormed (h : Inv plan s p) {c : Call}
    (hready : (Instrumentor.after s.calls).ready c = false) :
    ¬ TraceWellFormed plan (s.calls ++ [c]) := by
  rintro ⟨p', hp', hwritten, -⟩
  rw [Profile.ofCalls_append, h.calls] at hp'
  rw [Instrumentor.after_append] at hwritten
  exact h.shows.not_written hp' hready hwritten

/-- A session whose file does not open breaks the trace, whatever has been before. -/
theorem not_traceWellFormed_unopened (calls : List Call) (name filepath : String) :
    ¬ TraceWellFormed plan (calls ++ [.beginSession name filepath false]) := by
  rintro ⟨p', hp', hwritten, -⟩
  rw [Profile.ofCalls_append] at hp'
  obtain ⟨p, hp, hcall⟩ := Option.bind_eq_some_iff.mp hp'
  rw [Instrumentor.after_append] at hwritten
  exact not_written_unopened (file_of_ofCalls calls hp) hcall hwritten

/-- An event after the end of a session is outside. -/
theorem ofCalls_late (calls : List Call) (result : ProfileResult) :
    Profile.ofCalls (calls ++ [.endSession] ++ [.writeProfile result]) = none := by
  rw [Profile.ofCalls_append, Profile.ofCalls_append]
  cases Profile.ofCalls calls with
  | none => rfl
  | some p =>
    obtain ⟨closed, current⟩ := p
    cases current with
    | none => rfl
    | some t => rfl

/-- **A session that ends before a task has returned** gets the event of the task too late. -/
theorem exists_broken_of_late {who : Party} (hnext : nextCall s who = some .endSession)
    (hstep : step s who = some s') {j : ℕ} {result : ProfileResult}
    (hj : s.tasks[j]? = some { result := result, phase := .writeProfile }) :
    ∃ s'', Reachable step s' s'' ∧ ¬ TraceWellFormed plan s''.calls := by
  have hcalls := calls_of_step hstep
  obtain ⟨rfl, x, rest, hmain⟩ := endSession_of_nextCall hnext
  have htask : s'.tasks[j]? = some { result := result, phase := .writeProfile } := by
    change mainStep s = some s' at hstep
    unfold mainStep at hstep
    rw [hmain] at hstep
    obtain rfl := Option.some_inj.mp hstep
    exact hj
  obtain ⟨s'', hlast⟩ : ∃ s'', step s' (.task j) = some s'' := by
    unfold step taskStep
    dsimp only
    rw [htask]
    exact ⟨_, rfl⟩
  refine ⟨s'', .move _ .start hlast, not_traceWellFormed_of_none ?_⟩
  rw [calls_of_step hlast, nextCall_task htask, hcalls, hnext]
  exact ofCalls_late s.calls result

/-- After the wait, a task that has not returned has its event to write. -/
theorem Inv.exists_late (h : Inv plan s p) (hwaited : s.main.waited = true)
    (hleft : (s.tasks.all fun t => t.phase = .returned) = false) :
    ∃ (j : ℕ) (result : ProfileResult),
      s.tasks[j]? = some { result := result, phase := .writeProfile } := by
  obtain ⟨t, ht, hphase⟩ := List.all_eq_false.mp hleft
  obtain ⟨j, hj⟩ := List.mem_iff_getElem?.mp ht
  have hpast := List.countP_eq_zero.mp (h.waited hwaited) t ht
  obtain ⟨result, phase⟩ := t
  cases phase with
  | predict | done => exact absurd rfl hpast
  | writeProfile => exact ⟨j, result, hj⟩
  | returned => exact absurd rfl hphase

/-- **Where a move does not keep to this**, some schedule breaks the trace. -/
theorem Inv.exists_broken (h : Inv plan s p) {who : Party} (hdisorder : orderly s who = false)
    (hstep : step s who = some s') :
    ∃ s'', Reachable step s' s'' ∧ ¬ TraceWellFormed plan s''.calls := by
  unfold orderly at hdisorder
  cases hnext : nextCall s who with
  | none =>
    rw [hnext] at hdisorder
    cases hdisorder
  | some c =>
    rw [hnext] at hdisorder
    cases c with
    | endSession =>
      obtain ⟨-, x, rest, hmain⟩ := endSession_of_nextCall hnext
      obtain ⟨j, result, hj⟩ := h.exists_late (by rw [hmain]; rfl) hdisorder
      exact exists_broken_of_late hnext hstep hj
    | _ =>
      refine ⟨s', .start, ?_⟩
      rw [calls_of_step hstep, hnext]
      exact h.not_traceWellFormed hdisorder

/-! ## A session with a task, or without its folder -/

variable (folders) (x : Session) (rest : List Session)

/-- Main writes its events, those before the tasks or those after them. -/
theorem exists_written (phase : List ProfileResult → MainPhase) (waitPrediction : ℕ)
    (tasks : List PredictTask)
    (hphase : ∀ result events calls,
      step { main := phase (result :: events), waitPrediction, tasks, calls, folders } .main =
        some { main := phase events, waitPrediction, tasks, folders,
               calls := calls ++ [.writeProfile result] })
    (events : List ProfileResult) (calls : List Call) :
    ∃ calls', Reachable step
      { main := phase events, waitPrediction, tasks, calls, folders }
      { main := phase [], waitPrediction, tasks, calls := calls', folders } := by
  induction events generalizing calls with
  | nil => exact ⟨calls, .start⟩
  | cons result events ih =>
    obtain ⟨calls', hreach⟩ := ih (calls ++ [.writeProfile result])
    exact ⟨calls', .trans (.move .main .start (hphase result events calls)) hreach⟩

/-- Main starts its tasks. -/
theorem reachable_start (waitPrediction : ℕ) (calls : List Call) (results : List ProfileResult)
    (tasks : List PredictTask) :
    Reachable step
      { main := .start results x rest, waitPrediction, tasks, calls, folders }
      { main := .start [] x rest, waitPrediction, calls, folders
        tasks := tasks ++ results.map fun result => { result := result } } := by
  induction results generalizing tasks with
  | nil =>
    rw [List.map_nil, List.append_nil]
    exact .start
  | cons result results ih =>
    have hreach := ih (tasks ++ [{ result := result }])
    rw [List.append_assoc] at hreach
    exact .trans (.move .main .start rfl) hreach

theorem getElem?_middle (l l' : List PredictTask) (t : PredictTask) :
    (l ++ t :: l')[l.length]? = some t := by
  rw [List.getElem?_append_right (Nat.le_refl _), Nat.sub_self]
  rfl

theorem set_middle (l l' : List PredictTask) (t t' : PredictTask) :
    (l ++ t :: l').set l.length t' = l ++ t' :: l' := by
  rw [List.set_append_right _ _ (Nat.le_refl _), Nat.sub_self]
  rfl

/-- A task runs to its timer. -/
theorem reachable_writeProfile (main : MainPhase) (waitPrediction : ℕ) (calls : List Call)
    (result : ProfileResult) (l l' : List PredictTask) :
    Reachable step
      { main, waitPrediction := waitPrediction + 1, calls, folders
        tasks := l ++ { result := result } :: l' }
      { main, waitPrediction, calls, folders
        tasks := l ++ { result := result, phase := .writeProfile } :: l' } := by
  have hpredict : step
      { main, waitPrediction := waitPrediction + 1, calls, folders
        tasks := l ++ { result := result } :: l' } (.task l.length) = some
      { main, waitPrediction := waitPrediction + 1, calls, folders
        tasks := l ++ { result := result, phase := .done } :: l' } := by
    unfold step taskStep
    simp only [getElem?_middle, set_middle]
  have hdone : step
      { main, waitPrediction := waitPrediction + 1, calls, folders
        tasks := l ++ { result := result, phase := .done } :: l' } (.task l.length) = some
      { main, waitPrediction, calls, folders
        tasks := l ++ { result := result, phase := .writeProfile } :: l' } := by
    unfold step taskStep
    simp only [getElem?_middle, set_middle, Nat.add_sub_cancel]
  exact .move _ (.move _ .start hpredict) hdone

/-- All tasks run to their timers. -/
theorem reachable_done (main : MainPhase) (calls : List Call) (results : List ProfileResult)
    (tasks : List PredictTask) :
    Reachable step
      { main, waitPrediction := results.length, calls, folders
        tasks := tasks ++ results.map fun result => { result := result } }
      { main, waitPrediction := 0, calls, folders
        tasks := tasks ++ results.map fun result =>
          { result := result, phase := .writeProfile } } := by
  induction results generalizing tasks with
  | nil => exact .start
  | cons result results ih =>
    have hreach := ih (tasks ++ [{ result := result, phase := .writeProfile }])
    rw [List.append_assoc, List.append_assoc] at hreach
    exact .trans (reachable_writeProfile folders main results.length calls result tasks _) hreach

/-- A session can come to its end with all its tasks at their timers. -/
theorem exists_waited (waitPrediction : ℕ) (tasks : List PredictTask) (calls : List Call) :
    ∃ calls', Reachable step
      { main := .beginSession (x :: rest), waitPrediction, tasks, calls, folders }
      { main := .endSession x rest, waitPrediction := 0, calls := calls'
        folders := x.folder :: folders
        tasks := tasks ++ x.tasks.map fun result =>
          { result := result, phase := .writeProfile } } := by
  obtain ⟨calls₁, hbefore⟩ := exists_written folders (.before · x rest) waitPrediction
    tasks (fun _ _ _ => rfl) x.before
    (calls ++ [.beginSession x.name x.filepath (isFolder folders x.folder)])
  have hstart := reachable_start folders x rest x.tasks.length calls₁ x.tasks tasks
  have hdone := reachable_done folders (.wait x rest) calls₁ x.tasks tasks
  obtain ⟨calls₂, hafter⟩ := exists_written folders (.after · x rest) 0
    (tasks ++ x.tasks.map fun result => { result := result, phase := .writeProfile })
    (fun _ _ _ => rfl) x.after calls₁
  refine ⟨calls₂, .trans (.trans (.move .main .start rfl) hbefore) ?_⟩
  refine .trans (.trans (.move .main .start rfl) hstart) ?_
  refine .trans (.trans (.move .main .start rfl) hdone) ?_
  exact .trans (.trans (.move .main .start rfl) hafter) (.move .main .start rfl)

/-- A folder in which a folder is made was there, if that one was. -/
theorem isFolder_of_cons {made folder : String} (hmade : isFolder folders made = true)
    (h : isFolder (made :: folders) folder = true) : isFolder folders folder = true := by
  unfold isFolder at h hmade ⊢
  rw [List.any_cons, Bool.or_eq_true] at h
  rcases h with h | h
  · obtain ⟨path, hpath, hprefix⟩ := List.any_eq_true.mp hmade
    refine List.any_eq_true.mpr ⟨path, hpath, ?_⟩
    rw [List.isPrefixOf_iff_prefix] at h hprefix ⊢
    exact h.trans hprefix
  · exact h

/-- **Where a session has a task or lacks its folder**, some schedule breaks the trace. -/
theorem exists_broken_of_plan (sessions : List Session) (waitPrediction : ℕ)
    (tasks : List PredictTask) (calls : List Call) (folders : List String)
    (h : ∃ x ∈ sessions, x.tasks ≠ [] ∨ isFolder folders x.folder = false) :
    ∃ s,
      Reachable step { main := .beginSession sessions, waitPrediction, tasks, calls, folders } s ∧
      ¬ TraceWellFormed plan s.calls := by
  induction sessions generalizing waitPrediction tasks calls folders with
  | nil =>
    obtain ⟨x, hx, -⟩ := h
    cases hx
  | cons x sessions ih =>
    rcases Bool.dichotomy (isFolder folders x.folder) with hfolder | hfolder
    · refine ⟨_, .move .main .start rfl, ?_⟩
      show ¬ TraceWellFormed plan
        (calls ++ [.beginSession x.name x.filepath (isFolder folders x.folder)])
      rw [hfolder]
      exact not_traceWellFormed_unopened calls x.name x.filepath
    · obtain ⟨calls', hreach⟩ :=
        exists_waited folders x sessions waitPrediction tasks calls
      cases hresults : x.tasks with
      | nil =>
        have hrest : ∃ y ∈ sessions,
            y.tasks ≠ [] ∨ isFolder (x.folder :: folders) y.folder = false := by
          obtain ⟨y, hy, hbad⟩ := h
          rcases List.mem_cons.mp hy with rfl | hy
          · rw [hfolder] at hbad
            rcases hbad with hbad | hbad
            · exact absurd hresults hbad
            · cases hbad
          · refine ⟨y, hy, hbad.imp_right fun hbad => ?_⟩
            by_contra hthere
            rw [isFolder_of_cons folders hfolder (Bool.not_eq_false _ ▸ hthere)] at hbad
            cases hbad
        obtain ⟨s, hs, hbroken⟩ := ih 0 _ _ _ hrest
        exact ⟨s, .trans (.move .main hreach rfl) hs, hbroken⟩
      | cons result results =>
        rw [hresults] at hreach
        have hend : step
            { main := .endSession x sessions, waitPrediction := 0, calls := calls'
              folders := x.folder :: folders
              tasks := tasks ++ (result :: results).map fun result =>
                { result := result, phase := .writeProfile } } .main = some
            { main := .beginSession sessions, waitPrediction := 0, calls := calls' ++ [.endSession]
              folders := x.folder :: folders
              tasks := tasks ++ (result :: results).map fun result =>
                { result := result, phase := .writeProfile } } := rfl
        obtain ⟨s, hs, hbroken⟩ := exists_broken_of_late rfl hend (getElem?_middle tasks _ _)
        exact ⟨s, .trans (.move .main hreach hend) hs, hbroken⟩

/-- **The trace is well formed** in every run in which a session begins only where its folder is
there, main ends it only after its tasks have returned, and no event is written once the counter has
wrapped.  Where a move does not keep to this, some schedule goes on to a broken trace; and whenever
a session has a task at all, or lacks its folder before the first one, some schedule does not. -/
theorem traceWellFormed_iff (folders : List String) (plan : List Session) :
    (∀ s, Reachable (restrict step orderly) (started folders plan) s →
      TraceWellFormed plan s.calls) ∧
      (∀ s who s', Reachable (restrict step orderly) (started folders plan) s →
        orderly s who = false → step s who = some s' →
          ∃ s'', Reachable step s' s'' ∧ ¬ TraceWellFormed plan s''.calls) ∧
      ((∃ x ∈ plan, x.tasks ≠ [] ∨ isFolder folders x.folder = false) →
        ∃ s, Reachable step (started folders plan) s ∧ ¬ TraceWellFormed plan s.calls) := by
  refine ⟨?_, ?_, fun h => exists_broken_of_plan plan 0 [] [] folders h⟩
  · intro s hs
    obtain ⟨p, hinv⟩ := inv_of_reachable hs
    exact hinv.traceWellFormed
  · intro s who s' hs hdisorder hstep
    obtain ⟨p, hinv⟩ := inv_of_reachable hs
    exact hinv.exists_broken hdisorder hstep

/-- The timers of `Train` and `Predict`, and the one of a task with three bursts of a lamp. -/
def trainTimer : ProfileResult where
  name := "Training Time"
  start := 0
  stop := 40
  threadId := "1"

def predictTimer : ProfileResult where
  name := "Predict"
  start := 41
  stop := 80
  threadId := "1"

def lampTimer : ProfileResult where
  name := "lamp3"
  start := 45
  stop := 90
  threadId := "2"

/-- An experiment with one task. -/
def lampExperiment : Session :=
  singleExperiment "F:/UNSW2016" "benchmark" trainTimer predictTimer [lampTimer]

/-- Main ends the session as soon as the task has called `done()`. -/
def hastyMoves : List Party :=
  [.main, .main, .main, .main, .main, .task 0, .task 0, .main, .main, .main, .main]

/-- The trace of the experiment without the event of its task. -/
def hastyTrace : Trace where
  name := lampExperiment.name
  filepath := lampExperiment.filepath
  events := [trainTimer, predictTimer]

def hastyCalls : List Call :=
  [.beginSession lampExperiment.name lampExperiment.filepath true, .writeProfile trainTimer,
    .writeProfile predictTimer, .endSession]

/-- **The event of a task can come after `EndSession`**; then it is lost, and the trace of the next
experiment begins with a comma.  And the first experiment in a new folder has no trace. -/
theorem not_traceWellFormed_lamp :
    (¬ ∀ s, Reachable step (started ["F:/UNSW2016/res"] [lampExperiment]) s →
      TraceWellFormed [lampExperiment] s.calls) ∧
    (∃ s, Reachable step (started ["F:/UNSW2016/res"] [lampExperiment, lampExperiment]) s ∧
      (Instrumentor.after s.calls).outputStream.file = some
        { filepath := lampExperiment.filepath, text := header ++ "," ++ trainTimer.text }) ∧
    ¬ ∀ s, Reachable step (started ["F:/UNSW2016"] [lampExperiment]) s →
      TraceWellFormed [lampExperiment] s.calls := by
  have hone : (run step (started ["F:/UNSW2016/res"] [lampExperiment])
      (hastyMoves ++ [.task 0])).map State.calls =
        some (hastyCalls ++ [.writeProfile lampTimer]) := by
    decide
  have htwo : (run step (started ["F:/UNSW2016/res"] [lampExperiment, lampExperiment])
      (hastyMoves ++ [.task 0, .main, .main])).map State.calls =
        some (hastyCalls ++ [.writeProfile lampTimer] ++
          [.beginSession lampExperiment.name lampExperiment.filepath true] ++
            [.writeProfile trainTimer]) := by
    decide
  have hnew : (run step (started ["F:/UNSW2016"] [lampExperiment]) [.main]).map State.calls =
      some ([] ++ [.beginSession lampExperiment.name lampExperiment.filepath false]) := by
    decide
  refine ⟨?_, ?_, ?_⟩
  · obtain ⟨s, hrun, hcalls⟩ := Option.map_eq_some_iff.mp hone
    intro hall
    refine not_traceWellFormed_of_none ?_ (hall s (reachable_of_run _ _ hrun))
    rw [hcalls]
    rfl
  · obtain ⟨s, hrun, hcalls⟩ := Option.map_eq_some_iff.mp htwo
    have hprofile : Profile.ofCalls hastyCalls = some { closed := [hastyTrace] } := rfl
    have hshows := (shows_of_calls hastyCalls (by decide) (by simp [hastyCalls]) hprofile).1
    have hfile := hshows.late_event rfl lampTimer trainTimer lampExperiment.name
      lampExperiment.filepath
    refine ⟨s, reachable_of_run _ _ hrun, ?_⟩
    rw [hcalls, after_append, after_append, after_append]
    exact hfile.1
  · obtain ⟨s, hrun, hcalls⟩ := Option.map_eq_some_iff.mp hnew
    intro hall
    refine not_traceWellFormed_unopened [] _ _ (hcalls ▸ hall s (reachable_of_run _ _ hrun))

end Profiling
end BurstIoT
