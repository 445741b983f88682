import BurstIoT.Library.Interleaving
import BurstIoT.NearestSearch

/-!
# The order of the training tasks

`Train` starts a task for each device.  The tasks share the train table, the statistics and the
static maps, and what a task does to these at once, under a lock, is a `TrainAction`; what it keeps
to itself are its counters.  The actions of a task are fixed once its bursts are merged
(`TrainTask.make`), and doing them one after another is `trainOneDevice` (`trainOneDevice_eq`).  The
model's `train` is one of the interleavings of the tasks (`train_interleaved`).

In an interleaving of the tasks the table is filled with the bursts in some order, and the blocks of
a device are appended in theirs (`performed_of_foldlM`).  So every cell holds the bursts of all
devices with its coordinates, and no test burst can tell one interleaving from another
(`train_order`).
-/

namespace BurstIoT
namespace TrainOrder

open Interleaving TrainStore Classifier

/-! ## Actions -/

/-- What a training task does at once. -/
inductive TrainAction where
  | average (deviceId : UInt16) (middlePktNum : ℕ)
  | level (deviceId : UInt16) (burstGroup : BurstBlock)
  | store (deviceId : UInt16) (burst : Burst)
  | stats (deviceId : UInt16)
  deriving DecidableEq, Repr

/-- The counters of a task: `pktNumCount` and `uniBurstCount`. -/
structure TaskCounts where
  pktNumCount : List ℕ := List.replicate 500 0
  uniBurstCount : ℕ := 0
  deriving DecidableEq, Repr

/-- What the tasks share, and the counters of each of them. -/
structure TrainState where
  classifier : KBurstClassifier
  statics : PolicyStatics
  counts : UInt16 → TaskCounts := fun _ => {}

/-- The variables of the loop over the merged bursts of a device. -/
def TrainState.store (s : TrainState) (deviceId : UInt16) : TrainStore where
  pktNumCount := (s.counts deviceId).pktNumCount
  uniBurstCount := (s.counts deviceId).uniBurstCount
  train := s.classifier.train

/-- Put them back. -/
def TrainState.setStore (s : TrainState) (deviceId : UInt16) (store : TrainStore) : TrainState :=
  { s with
    classifier := { s.classifier with train := store.train }
    counts := Function.update s.counts deviceId
      { pktNumCount := store.pktNumCount, uniBurstCount := store.uniBurstCount } }

/-- Push a block onto `blockLevelDistribution`. -/
def pushLevel (distribution : UnorderedMap UInt16 (List Burst)) (e : UInt16 × BurstBlock) :
    UnorderedMap UInt16 (List Burst) :=
  distribution.update e.1 [] fun v => v ++ [Burst.ofBursts e.2]

/-- Do an action.  A device number beyond `burstStats` is undefined. -/
def perform (div : DivisionParam) (s : TrainState) : TrainAction → Except Fault TrainState
  | .average deviceId middlePktNum =>
    .ok { s with statics := { s.statics with
      addrAvgPktMap := s.statics.addrAvgPktMap.emplace deviceId middlePktNum } }
  | .level deviceId burstGroup =>
    .ok { s with statics := { s.statics with
      blockLevelDistribution := pushLevel s.statics.blockLevelDistribution
        (deviceId, burstGroup) } }
  | .store deviceId burst => do
    let store ← storeBurst div (s.store deviceId) burst
    return s.setStore deviceId store
  | .stats deviceId =>
    if s.classifier.burstStats.length ≤ deviceId.toNat then .error .undefined
    else
      let stat : BurstStat :=
        { deviceId
          totalUniBurstNum := (s.counts deviceId).uniBurstCount
          counter := (s.counts deviceId).pktNumCount }
      .ok { s with classifier := { s.classifier with
        burstStats := s.classifier.burstStats.set deviceId.toNat stat } }

/-! ## Tasks -/

/-- A task of `Train`, with the map of the merged bursts of its device. -/
structure TrainTask where
  deviceId : UInt16
  burstGroups : List BurstBlock
  middlePktNum : ℕ
  trainMap : UnorderedMap BurstPtr ℕ

namespace TrainTask

/-- The merged bursts, in the order in which the map is traversed. -/
def merged (lib : StdLib) (t : TrainTask) : List Burst :=
  (lib.iterate t.trainMap).map fun e => e.1.burst

/-- The actions of a task, in order. -/
def actions (lib : StdLib) (t : TrainTask) : List TrainAction :=
  .average t.deviceId t.middlePktNum ::
    (t.burstGroups.map (.level t.deviceId) ++
      ((t.merged lib).map (.store t.deviceId) ++ [.stats t.deviceId]))

variable {F : Type} [Field F] [LinearOrder F] [Elementary F]

/-- What a task works out by itself: the median of the block sizes, and the merged bursts. -/
def make (lib : StdLib) (cfg : Config F) (e : UInt16 × List BurstBlock) :
    Except Fault TrainTask := do
  let middlePktNum ← blockAvgPktNum e.2
  let trainMap ← Classifier.trainMap lib cfg e.2
  return { deviceId := e.1, burstGroups := e.2, middlePktNum, trainMap }

theorem make_eq_ok {lib : StdLib} {cfg : Config F} {e : UInt16 × List BurstBlock} {t : TrainTask}
    (h : make lib cfg e = .ok t) : (t.deviceId, t.burstGroups) = e ∧
      blockAvgPktNum e.2 = .ok t.middlePktNum ∧
      Classifier.trainMap lib cfg e.2 = .ok t.trainMap := by
  obtain ⟨middlePktNum, hmiddle, h⟩ := CheckedLoop.bind_eq_ok.mp h
  obtain ⟨map, hmap, h⟩ := CheckedLoop.bind_eq_ok.mp h
  cases h
  exact ⟨rfl, hmiddle, hmap⟩

end TrainTask

/-! ## One task alone -/

variable {div : DivisionParam}

theorem foldlM_level (deviceId : UInt16) (burstGroups : List BurstBlock) (s : TrainState) :
    (burstGroups.map (TrainAction.level deviceId)).foldlM (perform div) s =
      .ok { s with statics := { s.statics with
        blockLevelDistribution := burstGroups.foldl
          (fun distribution burstGroup => pushLevel distribution (deviceId, burstGroup))
          s.statics.blockLevelDistribution } } := by
  induction burstGroups generalizing s with
  | nil => rfl
  | cons burstGroup burstGroups ih =>
    rw [List.map_cons, List.foldlM_cons, perform]
    exact ih _

@[simp] theorem store_setStore (s : TrainState) (deviceId : UInt16) (store : TrainStore) :
    (s.setStore deviceId store).store deviceId = store := by
  simp [TrainState.store, TrainState.setStore]

@[simp] theorem setStore_setStore (s : TrainState) (deviceId : UInt16) (store store' : TrainStore) :
    (s.setStore deviceId store).setStore deviceId store' = s.setStore deviceId store' := by
  simp [TrainState.setStore]

@[simp] theorem setStore_store (s : TrainState) (deviceId : UInt16) :
    s.setStore deviceId (s.store deviceId) = s := by
  simp [TrainState.setStore, TrainState.store]

/-- The loop over the merged bursts. -/
theorem foldlM_store (deviceId : UInt16) (bursts : List Burst) (s : TrainState) :
    (bursts.map (TrainAction.store deviceId)).foldlM (perform div) s =
      (storeBursts div bursts (s.store deviceId)).map (s.setStore deviceId) := by
  induction bursts generalizing s with
  | nil =>
    show Except.ok s = .ok (s.setStore deviceId (s.store deviceId))
    rw [setStore_store]
  | cons b bursts ih =>
    rw [List.map_cons, List.foldlM_cons, perform, storeBursts, List.foldlM_cons]
    cases storeBurst div (s.store deviceId) b with
    | error fault => rfl
    | ok store =>
      show (bursts.map (TrainAction.store deviceId)).foldlM (perform div)
        (s.setStore deviceId store) = _
      rw [ih, store_setStore]
      show (storeBursts div bursts store).map _ = (storeBursts div bursts store).map _
      cases storeBursts div bursts store with
      | error fault => rfl
      | ok store' => exact congrArg Except.ok (setStore_setStore s deviceId store store')

section Tasks

variable {F : Type} [Field F] [LinearOrder F] [Elementary F] {lib : StdLib} {cfg : Config F}

/-- **A task alone does what `trainOneDevice` does.** -/
theorem trainOneDevice_eq {t : TrainTask}
    (ht : TrainTask.make lib cfg (t.deviceId, t.burstGroups) = .ok t) {s : TrainState}
    (hcounts : s.counts t.deviceId = {}) :
    trainOneDevice lib cfg (s.classifier, s.statics) t.deviceId t.burstGroups =
      ((t.actions lib).foldlM (perform cfg.divisionParam) s).map
        fun s' => (s'.classifier, s'.statics) := by
  obtain ⟨-, hmiddle, hmap⟩ := TrainTask.make_eq_ok ht
  have hstart : ∀ statics, TrainState.store ⟨s.classifier, statics, s.counts⟩ t.deviceId =
      { TrainStore.init cfg.divisionParam with train := s.classifier.train } := by
    intro statics
    rw [TrainState.store, hcounts]
    rfl
  rw [TrainTask.actions, List.foldlM_cons, perform]
  dsimp only [bind, Except.bind]
  rw [List.foldlM_append, foldlM_level]
  dsimp only [bind, Except.bind]
  rw [List.foldlM_append, foldlM_store, hstart]
  rw [trainOneDevice, hmiddle]
  dsimp only [bind, Except.bind]
  rw [hmap]
  dsimp only
  have hmerged : t.merged lib = (lib.iterate t.trainMap).map fun e => e.1.burst := rfl
  rw [← hmerged]
  cases storeBursts cfg.divisionParam (t.merged lib)
    { TrainStore.init cfg.divisionParam with train := s.classifier.train } with
  | error fault => rfl
  | ok store =>
    show _ = Except.map _ ([TrainAction.stats t.deviceId].foldlM (perform cfg.divisionParam) _)
    rw [List.foldlM_cons, perform]
    dsimp only [TrainState.setStore]
    by_cases hstats : s.classifier.burstStats.length ≤ t.deviceId.toNat
    · simp only [hstats, if_true]
      rfl
    · simp only [hstats, if_false, Function.update_self]
      rfl

end Tasks

/-! ## What a run does -/

namespace TrainAction

/-- The burst that an action stores. -/
def stored : TrainAction → Option Burst
  | .store _ burst => some burst
  | _ => none

/-- The block that an action appends, under its device. -/
def leveled : TrainAction → Option (UInt16 × BurstBlock)
  | .level deviceId burstGroup => some (deviceId, burstGroup)
  | _ => none

/-- The device under which an action writes statistics. -/
def counted : TrainAction → Option UInt16
  | .stats deviceId => some deviceId
  | _ => none

end TrainAction

open TrainAction

/-- **What the actions of a log have done**: they have pushed the bursts and appended the blocks in
the order of the log. -/
structure Performed (div : DivisionParam) (log : List TrainAction) (s s' : TrainState) : Prop where
  storable : ∀ b ∈ log.filterMap stored, Storable div b
  counted : ∀ d ∈ log.filterMap TrainAction.counted, d.toNat < s.classifier.burstStats.length
  train : s'.classifier.train = (log.filterMap stored).foldl (pushBurst div) s.classifier.train
  distribution : s'.statics.blockLevelDistribution =
    (log.filterMap leveled).foldl pushLevel s.statics.blockLevelDistribution
  burstStats : s'.classifier.burstStats.length = s.classifier.burstStats.length

/-- One action. -/
theorem performed_of_perform {a : TrainAction} {s s' : TrainState} (h : perform div s a = .ok s') :
    Performed div [a] s s' := by
  cases a with
  | average deviceId middlePktNum =>
    cases h
    exact ⟨by simp [stored], by simp [TrainAction.counted], rfl, rfl, rfl⟩
  | level deviceId burstGroup =>
    cases h
    exact ⟨by simp [stored], by simp [TrainAction.counted], rfl, rfl, rfl⟩
  | store deviceId burst =>
    obtain ⟨store, hstore, h⟩ := CheckedLoop.bind_eq_ok.mp h
    cases h
    obtain ⟨hstorable, htrain, -⟩ := storeBurst_eq_ok hstore
    exact ⟨by simpa [stored] using hstorable, by simp [TrainAction.counted], htrain, rfl, rfl⟩
  | stats deviceId =>
    rw [perform] at h
    split_ifs at h with hlt
    cases h
    refine ⟨by simp [stored], ?_, rfl, rfl, List.length_set ..⟩
    simpa [TrainAction.counted] using hlt

/-- **A run that goes through.** -/
theorem performed_of_foldlM (log : List TrainAction) {s s' : TrainState}
    (h : log.foldlM (perform div) s = .ok s') : Performed div log s s' := by
  refine CheckedLoop.foldlM_inv (I := fun done s' => Performed div done s s') log []
    (fun done a s₁ s₂ _ hdone hstep => ?_) ⟨?_, ?_, rfl, rfl, rfl⟩ h
  · have ha := performed_of_perform hstep
    refine ⟨fun b hb => ?_, fun d hd => ?_, ?_, ?_, ha.burstStats.trans hdone.burstStats⟩
    · rw [List.filterMap_append, List.mem_append] at hb
      exact hb.elim (hdone.storable b) (ha.storable b)
    · rw [List.filterMap_append, List.mem_append] at hd
      exact hd.elim (hdone.counted d) fun hd => hdone.burstStats ▸ ha.counted d hd
    · rw [ha.train, hdone.train, List.filterMap_append, List.foldl_append]
    · rw [ha.distribution, hdone.distribution, List.filterMap_append, List.foldl_append]
  · exact fun _ hb => absurd hb List.not_mem_nil
  · exact fun _ hd => absurd hd List.not_mem_nil

/-- The tables have their sizes, for every task. -/
structure Ready (div : DivisionParam) (s : TrainState) : Prop where
  train : Filed div s.classifier.train
  counts : ∀ d, (s.counts d).pktNumCount.length = 500

theorem Ready.shaped {s : TrainState} (h : Ready div s) (d : UInt16) : (s.store d).Shaped div :=
  ⟨h.counts d, h.train.rows, h.train.columns⟩

/-- **An action goes through** if its burst can be stored, and its device is in range. -/
theorem perform_ok {s : TrainState} (h : Ready div s) {a : TrainAction}
    (hstored : ∀ b, a.stored = some b → Storable div b)
    (hcounted : ∀ d, a.counted = some d → d.toNat < s.classifier.burstStats.length) :
    ∃ s', perform div s a = .ok s' ∧ Ready div s' := by
  cases a with
  | average deviceId middlePktNum => exact ⟨_, rfl, h.train, h.counts⟩
  | level deviceId burstGroup => exact ⟨_, rfl, h.train, h.counts⟩
  | store deviceId burst =>
    have hb := hstored burst rfl
    rw [perform, storeBurst_of_storable (h.shaped deviceId) hb]
    refine ⟨_, rfl, h.train.pushBurst hb, fun d => ?_⟩
    dsimp only [TrainState.setStore]
    by_cases hd : d = deviceId
    · rw [hd, Function.update_self, List.length_modify]
      exact h.counts deviceId
    · rw [Function.update_of_ne hd]
      exact h.counts d
  | stats deviceId =>
    rw [perform, if_neg (Nat.not_le.mpr (hcounted deviceId rfl))]
    exact ⟨_, rfl, h.train, h.counts⟩

/-- **The same actions in another order go through as well.** -/
theorem foldlM_perform_ok (log : List TrainAction) {s : TrainState} (h : Ready div s)
    (hstored : ∀ b ∈ log.filterMap stored, Storable div b)
    (hcounted : ∀ d ∈ log.filterMap TrainAction.counted,
      d.toNat < s.classifier.burstStats.length) :
    ∃ s', log.foldlM (perform div) s = .ok s' := by
  obtain ⟨s', hs', -⟩ := CheckedLoop.foldlM_ok (l := log) (I := fun _ s' => Ready div s' ∧
      s'.classifier.burstStats.length = s.classifier.burstStats.length)
    (fun done a rest hall s₁ hs₁ => by
      have ha : a ∈ log := by
        rw [hall]
        exact List.mem_append_right _ List.mem_cons_self
      obtain ⟨s₂, hstep, hready⟩ := perform_ok hs₁.1
        (fun b hb => hstored b (List.mem_filterMap.mpr ⟨a, ha, hb⟩))
        (fun d hd => hs₁.2 ▸ hcounted d (List.mem_filterMap.mpr ⟨a, ha, hd⟩))
      exact ⟨s₂, hstep, hready, (performed_of_perform hstep).burstStats.trans hs₁.2⟩) ⟨h, rfl⟩
  exact ⟨s', hs'⟩

/-! ## Interleavings of the tasks -/

section Order

variable {F : Type} [Field F] [LinearOrder F] [Elementary F]

/-- What `Train` starts from. -/
def TrainState.init (cfg : Config F) (statics : PolicyStatics)
    (trainset : UnorderedMap UInt16 (List BurstBlock)) : TrainState where
  classifier := { KBurstClassifier.init cfg.divisionParam with
    burstStats := List.replicate trainset.keys.length {} }
  statics := statics

omit [LinearOrder F] [Elementary F] in
theorem TrainState.ready_init (cfg : Config F) (statics : PolicyStatics)
    (trainset : UnorderedMap UInt16 (List BurstBlock)) :
    Ready cfg.divisionParam (TrainState.init cfg statics trainset) where
  train := Filed.init cfg.divisionParam
  counts := fun _ => List.length_replicate

/-- The tasks of `Train`, in the order in which it starts them. -/
def trainTasks (lib : StdLib) (cfg : Config F) (trainset : UnorderedMap UInt16 (List BurstBlock)) :
    Except Fault (List TrainTask) :=
  (lib.iterate trainset).mapM (TrainTask.make lib cfg)

variable {lib : StdLib} {cfg : Config F} {trainset : UnorderedMap UInt16 (List BurstBlock)}
  {tasks : List TrainTask}

theorem mapM_make_eq_ok : ∀ {l : List (UInt16 × List BurstBlock)} {tasks : List TrainTask},
    l.mapM (TrainTask.make lib cfg) = .ok tasks →
      tasks.map (fun t => (t.deviceId, t.burstGroups)) = l ∧
        ∀ t ∈ tasks, TrainTask.make lib cfg (t.deviceId, t.burstGroups) = .ok t
  | [], tasks, h => by
    cases h
    exact ⟨rfl, fun _ ht => absurd ht List.not_mem_nil⟩
  | e :: l, tasks, h => by
    rw [List.mapM_cons] at h
    obtain ⟨t, ht, h⟩ := CheckedLoop.bind_eq_ok.mp h
    obtain ⟨rest, hrest, h⟩ := CheckedLoop.bind_eq_ok.mp h
    cases h
    obtain ⟨hmap, hall⟩ := mapM_make_eq_ok hrest
    have he := (TrainTask.make_eq_ok ht).1
    refine ⟨by rw [List.map_cons, he, hmap], fun t' ht' => ?_⟩
    rcases List.mem_cons.mp ht' with rfl | ht'
    · rw [he]
      exact ht
    · exact hall t' ht'

/-- The tasks are those of the devices. -/
theorem map_trainTasks (h : trainTasks lib cfg trainset = .ok tasks) :
    tasks.map (fun t => (t.deviceId, t.burstGroups)) = lib.iterate trainset :=
  (mapM_make_eq_ok h).1

/-- No two tasks have one device. -/
theorem nodup_deviceId (h : trainTasks lib cfg trainset = .ok tasks) :
    (tasks.map TrainTask.deviceId).Nodup := by
  have hmap : tasks.map TrainTask.deviceId = (lib.iterate trainset).map Prod.fst := by
    rw [← map_trainTasks h, List.map_map]
    rfl
  rw [hmap]
  exact lib.nodup_iterate_keys trainset

/-! ### The tasks one after another -/

/-- A task leaves the counters of the others alone. -/
theorem counts_of_actions {t : TrainTask} {s s' : TrainState}
    (h : (t.actions lib).foldlM (perform div) s = .ok s') {d : UInt16} (hd : d ≠ t.deviceId) :
    s'.counts d = s.counts d := by
  refine CheckedLoop.foldlM_inv (I := fun _ s' => s'.counts d = s.counts d) (t.actions lib) []
    (fun done a s₁ s₂ ha hs₁ hstep => ?_) rfl h
  rw [← hs₁]
  cases a with
  | average deviceId middlePktNum =>
    cases hstep
    rfl
  | level deviceId burstGroup =>
    cases hstep
    rfl
  | store deviceId burst =>
    have hdevice : deviceId = t.deviceId := by
      have hmem : (∃ b ∈ t.merged lib, b = burst) ∧ t.deviceId = deviceId := by
        simpa [TrainTask.actions] using ha
      exact hmem.2.symm
    obtain ⟨store, -, hstep⟩ := CheckedLoop.bind_eq_ok.mp hstep
    cases hstep
    exact Function.update_of_ne (hdevice ▸ hd) _ _
  | stats deviceId =>
    rw [perform] at hstep
    split_ifs at hstep
    cases hstep
    rfl

/-- Training devices one after another does the actions of their tasks one after another. -/
theorem foldlM_trainOneDevice (tasks : List TrainTask) {s : TrainState}
    (hmake : ∀ t ∈ tasks, TrainTask.make lib cfg (t.deviceId, t.burstGroups) = .ok t)
    (hnodup : (tasks.map TrainTask.deviceId).Nodup)
    (hcounts : ∀ t ∈ tasks, s.counts t.deviceId = {}) :
    (tasks.map fun t => (t.deviceId, t.burstGroups)).foldlM
        (fun s e => trainOneDevice lib cfg s e.1 e.2) (s.classifier, s.statics) =
      ((tasks.flatMap (TrainTask.actions lib)).foldlM (perform cfg.divisionParam) s).map
        fun s' => (s'.classifier, s'.statics) := by
  induction tasks generalizing s with
  | nil => rfl
  | cons t tasks ih =>
    obtain ⟨hfirst, hnodup⟩ := List.nodup_cons.mp hnodup
    rw [List.map_cons, List.foldlM_cons, List.flatMap_cons, List.foldlM_append,
      trainOneDevice_eq (hmake t List.mem_cons_self) (hcounts t List.mem_cons_self)]
    cases hrun : (t.actions lib).foldlM (perform cfg.divisionParam) s with
    | error fault => rfl
    | ok s' =>
      refine ih (fun t' ht' => hmake t' (List.mem_cons_of_mem t ht')) hnodup fun t' ht' => ?_
      have hne : t'.deviceId ≠ t.deviceId := fun heq =>
        hfirst (heq ▸ List.mem_map_of_mem ht')
      rw [counts_of_actions hrun hne]
      exact hcounts t' (List.mem_cons_of_mem t ht')

/-- Devices that have been trained have tasks. -/
theorem exists_tasks : ∀ (l : List (UInt16 × List BurstBlock))
    {s s' : KBurstClassifier × PolicyStatics},
    l.foldlM (fun s e => trainOneDevice lib cfg s e.1 e.2) s = .ok s' →
      ∃ tasks, l.mapM (TrainTask.make lib cfg) = .ok tasks
  | [], _, _, _ => ⟨[], rfl⟩
  | e :: l, s, s', h => by
    obtain ⟨s₁, hfirst, hrest⟩ := CheckedLoop.bind_eq_ok.mp h
    obtain ⟨tasks, htasks⟩ := exists_tasks l hrest
    obtain ⟨middlePktNum, hmiddle, hfirst⟩ := CheckedLoop.bind_eq_ok.mp hfirst
    obtain ⟨map, hmap, -⟩ := CheckedLoop.bind_eq_ok.mp hfirst
    refine ⟨⟨e.1, e.2, middlePktNum, map⟩ :: tasks, ?_⟩
    rw [List.mapM_cons, htasks, TrainTask.make, hmiddle]
    dsimp only [bind, Except.bind]
    rw [hmap]
    rfl

/-- **`Train` runs its tasks** one after another. -/
theorem train_eq {statics : PolicyStatics} {tasks : List TrainTask}
    (htasks : trainTasks lib cfg trainset = .ok tasks) :
    train lib cfg statics trainset =
      ((tasks.flatMap (TrainTask.actions lib)).foldlM (perform cfg.divisionParam)
        (TrainState.init cfg statics trainset)).map fun s => (s.classifier, s.statics) := by
  obtain ⟨hmap, hmake⟩ := mapM_make_eq_ok htasks
  have hsame := foldlM_trainOneDevice (s := TrainState.init cfg statics trainset) tasks hmake
    (nodup_deviceId htasks) fun _ _ => rfl
  rw [hmap] at hsame
  exact hsame

/-- **`Train` is one of the interleavings of its tasks.** -/
theorem train_interleaved {statics : PolicyStatics} {trained : KBurstClassifier × PolicyStatics}
    (h : train lib cfg statics trainset = .ok trained) :
    ∃ tasks schedule log s, trainTasks lib cfg trainset = .ok tasks ∧
      interleave (tasks.map (TrainTask.actions lib)) schedule = some log ∧
      log.foldlM (perform cfg.divisionParam) (TrainState.init cfg statics trainset) = .ok s ∧
      trained = (s.classifier, s.statics) := by
  obtain ⟨tasks, htasks⟩ := exists_tasks (lib.iterate trainset) h
  obtain ⟨schedule, hschedule⟩ :=
    exists_interleave_flatten (tasks.map (TrainTask.actions lib))
  rw [← List.flatMap_def] at hschedule
  rw [train_eq htasks] at h
  cases hrun : (tasks.flatMap (TrainTask.actions lib)).foldlM (perform cfg.divisionParam)
    (TrainState.init cfg statics trainset) with
  | error fault =>
    rw [hrun] at h
    cases h
  | ok s =>
    rw [hrun] at h
    exact ⟨tasks, schedule, _, s, htasks, hschedule, hrun, (Except.ok.inj h).symm⟩

/-! ### Any interleaving -/

/-- The block that an action appends under a device. -/
def leveledUnder (d : UInt16) (a : TrainAction) : Option (UInt16 × BurstBlock) :=
  a.leveled.filter fun e => e.1 = d

omit [Field F] [LinearOrder F] [Elementary F] in
theorem filterMap_stored_actions (lib : StdLib) (t : TrainTask) :
    (t.actions lib).filterMap stored = t.merged lib := by
  have hlevel : t.burstGroups.filterMap (stored ∘ TrainAction.level t.deviceId) = [] :=
    List.filterMap_eq_nil_iff.mpr fun _ _ => rfl
  have hstore : (t.merged lib).filterMap (stored ∘ TrainAction.store t.deviceId) = t.merged lib :=
    List.filterMap_some
  simp only [TrainTask.actions, List.filterMap_cons, List.filterMap_append, List.filterMap_map,
    List.filterMap_nil, stored]
  rw [hlevel, hstore, List.nil_append, List.append_nil]

omit [Field F] [LinearOrder F] [Elementary F] in
theorem filterMap_leveledUnder_actions (lib : StdLib) (d : UInt16) (t : TrainTask) :
    (t.actions lib).filterMap (leveledUnder d) =
      if t.deviceId = d then t.burstGroups.map (t.deviceId, ·) else [] := by
  have hstore : (t.merged lib).filterMap (leveledUnder d ∘ TrainAction.store t.deviceId) = [] :=
    List.filterMap_eq_nil_iff.mpr fun _ _ => rfl
  have hsplit : (t.actions lib).filterMap (leveledUnder d) =
      t.burstGroups.filterMap (leveledUnder d ∘ TrainAction.level t.deviceId) := by
    have haverage : leveledUnder d (.average t.deviceId t.middlePktNum) = none := rfl
    have hstats : [TrainAction.stats t.deviceId].filterMap (leveledUnder d) = [] := rfl
    rw [TrainTask.actions, List.filterMap_cons_none haverage, List.filterMap_append,
      List.filterMap_append, List.filterMap_map, List.filterMap_map, hstore, hstats,
      List.append_nil, List.append_nil]
  rw [hsplit]
  split_ifs with hd
  · rw [← List.filterMap_eq_map]
    refine List.filterMap_congr fun burstGroup _ => ?_
    simp [leveledUnder, leveled, hd]
  · refine List.filterMap_eq_nil_iff.mpr fun burstGroup _ => ?_
    simp [leveledUnder, leveled, hd]

variable {schedule : List ℕ} {log : List TrainAction}

/-- **The bursts of a log** are those of the tasks. -/
theorem perm_stored (hlog : interleave (tasks.map (TrainTask.actions lib)) schedule = some log) :
    (log.filterMap stored).Perm (tasks.flatMap (TrainTask.merged lib)) := by
  refine ((perm_of_interleave hlog).filterMap stored).trans (List.Perm.of_eq ?_)
  rw [← List.flatMap_def, List.filterMap_flatMap]
  simp only [filterMap_stored_actions]

/-- **The blocks of a device in a log** are its blocks, in order. -/
theorem leveled_log (htasks : trainTasks lib cfg trainset = .ok tasks)
    (hlog : interleave (tasks.map (TrainTask.actions lib)) schedule = some log) (d : UInt16) :
    log.filterMap (leveledUnder d) = ((trainset.lookup d).getD []).map (d, ·) := by
  have hother : ∀ i, (∀ (k : ℕ) (t : TrainTask), tasks[k]? = some t → k ≠ i → t.deviceId ≠ d) →
      log.filterMap (leveledUnder d) =
        (((tasks.map (TrainTask.actions lib))[i]?).getD []).filterMap (leveledUnder d) := by
    intro i hother
    refine filterMap_interleave hlog fun k l' hk hne => ?_
    rw [List.getElem?_map] at hk
    obtain ⟨t, ht, rfl⟩ := Option.map_eq_some_iff.mp hk
    rw [filterMap_leveledUnder_actions, if_neg (hother k t ht hne)]
  cases hlook : trainset.lookup d with
  | none =>
    rw [hother tasks.length fun k t ht _ => ?_, List.getElem?_eq_none (by rw [List.length_map])]
    · rfl
    · rintro rfl
      have hmem : (t.deviceId, t.burstGroups) ∈ lib.iterate trainset := by
        rw [← map_trainTasks htasks]
        exact List.mem_map_of_mem (List.mem_of_getElem? ht)
      rw [lib.mem_iterate.mp hmem] at hlook
      cases hlook
  | some burstGroups =>
    have hmem : (d, burstGroups) ∈ tasks.map fun t => (t.deviceId, t.burstGroups) := by
      rw [map_trainTasks htasks]
      exact lib.mem_iterate.mpr hlook
    obtain ⟨t, ht, heq⟩ := List.mem_map.mp hmem
    obtain ⟨rfl, rfl⟩ := Prod.mk.inj heq
    obtain ⟨i, hi⟩ := List.mem_iff_getElem?.mp ht
    rw [hother i fun k t' ht' hne hd => hne ?_, List.getElem?_map, hi, Option.map_some,
      Option.getD_some, filterMap_leveledUnder_actions, if_pos rfl]
    · rfl
    · have hk : (tasks.map TrainTask.deviceId)[k]? = some t.deviceId := by
        rw [List.getElem?_map, ht', Option.map_some, hd]
      have hi : (tasks.map TrainTask.deviceId)[i]? = some t.deviceId := by
        rw [List.getElem?_map, hi, Option.map_some]
      have hlt : k < (tasks.map TrainTask.deviceId).length :=
        (List.getElem?_eq_some_iff.mp hk).1
      exact (List.getElem?_inj hlt (nodup_deviceId htasks)).mp (hk.trans hi.symm)

/-- Looking up a device after blocks have been pushed. -/
theorem lookup_foldl_pushLevel (d : UInt16) (blocks : List (UInt16 × BurstBlock))
    (distribution : UnorderedMap UInt16 (List Burst)) :
    (blocks.foldl pushLevel distribution).lookup d =
      if blocks.filter (fun e => e.1 = d) = [] then distribution.lookup d
      else some ((distribution.lookup d).getD [] ++
        (blocks.filter fun e => e.1 = d).map fun e => Burst.ofBursts e.2) := by
  have hpush : ∀ (l : List (UInt16 × BurstBlock)) (v : List Burst),
      l.foldl (fun v e => v ++ [Burst.ofBursts e.2]) v =
        v ++ l.map fun e => Burst.ofBursts e.2 := by
    intro l v
    rw [← UnorderedMap.foldl_concat, List.foldl_map]
  rw [← hpush]
  exact UnorderedMap.lookup_foldl_update Prod.fst [] (fun v e => v ++ [Burst.ofBursts e.2]) d
    blocks distribution

/-- What a training has left, as far as the order of the tasks may matter. -/
structure Trained (lib : StdLib) (cfg : Config F) (statics : PolicyStatics)
    (trainset : UnorderedMap UInt16 (List BurstBlock)) (tasks : List TrainTask)
    (s : TrainState) : Prop where
  cells : ∀ i j, (cell s.classifier.train i j).Perm
    ((tasks.flatMap (TrainTask.merged lib)).filter fun b =>
      rowOf b = i ∧ columnOf cfg.divisionParam b = j)
  distribution : ∀ d, (s.statics.blockLevelDistribution.lookup d).getD [] =
    (statics.blockLevelDistribution.lookup d).getD [] ++
      ((trainset.lookup d).getD []).map Burst.ofBursts

variable {statics : PolicyStatics} {s : TrainState}

/-- **What an interleaving of the tasks has left.** -/
theorem trained_of_run (htasks : trainTasks lib cfg trainset = .ok tasks)
    (hlog : interleave (tasks.map (TrainTask.actions lib)) schedule = some log)
    (hrun : log.foldlM (perform cfg.divisionParam) (TrainState.init cfg statics trainset) =
      .ok s) :
    Filed cfg.divisionParam s.classifier.train ∧ Trained lib cfg statics trainset tasks s ∧
      ∀ d, s.statics.blockLevelDistribution.lookup d =
        if (trainset.lookup d).getD [] = [] then statics.blockLevelDistribution.lookup d
        else some ((statics.blockLevelDistribution.lookup d).getD [] ++
          ((trainset.lookup d).getD []).map Burst.ofBursts) := by
  have hperformed := performed_of_foldlM log hrun
  obtain ⟨hfiled, hcells⟩ := (Filed.init cfg.divisionParam).foldl_pushBurst _ hperformed.storable
  have htrain : s.classifier.train = (log.filterMap stored).foldl (pushBurst cfg.divisionParam)
    (TrainStore.init cfg.divisionParam).train := hperformed.train
  have hlookup : ∀ d, s.statics.blockLevelDistribution.lookup d =
      if (trainset.lookup d).getD [] = [] then statics.blockLevelDistribution.lookup d
      else some ((statics.blockLevelDistribution.lookup d).getD [] ++
        ((trainset.lookup d).getD []).map Burst.ofBursts) := by
    intro d
    have hblocks : (log.filterMap leveled).filter (fun e => e.1 = d) =
        ((trainset.lookup d).getD []).map (d, ·) := by
      rw [List.filter_filterMap]
      exact leveled_log htasks hlog d
    rw [hperformed.distribution, lookup_foldl_pushLevel, hblocks, List.map_map]
    simp only [List.map_eq_nil_iff]
    rfl
  refine ⟨htrain ▸ hfiled, ⟨fun i j => ?_, fun d => ?_⟩, hlookup⟩
  · rw [htrain, hcells, cell_init, List.nil_append]
    exact (perm_stored hlog).filter _
  · rw [hlookup]
    split_ifs with hnil
    · rw [hnil, List.map_nil, List.append_nil]
    · rfl

/-- A table without columns is a table without columns. -/
theorem eq_replicate_of_filed {train : List (List (List Burst))} (h : Filed div train)
    (hcolumn : ¬ 1 ≤ div.burstMaxPacketIndex) :
    train = List.replicate div.burstMaxUnisig.toNat [] := by
  refine List.eq_replicate_iff.mpr ⟨h.rows, fun row hrow => List.eq_nil_of_length_eq_zero ?_⟩
  rw [h.columns row hrow]
  omega

/-- **An uncached `PredictBurst`** on two tables with the same bursts in every cell. -/
theorem predictBurst_perm {div : DivisionParam} {cfg : TestParam F}
    {train train' : List (List (List Burst))} (h : Filed div train) (h' : Filed div train')
    (hcells : ∀ i j, (cell train' i j).Perm (cell train i j)) {cache : PredictionCache F}
    {testBurst : Burst} (huncached : Prediction.answered
      ((Memo.find (Prediction.sameKey lib) cache testBurst).getD Prediction.blank) = false)
    {n : Nearest F} {cache₁ : PredictionCache F}
    (hpredict : Prediction.predictBurst lib div cfg train cache testBurst = .ok (n, cache₁)) :
    ∃ n' cache₁', Prediction.predictBurst lib div cfg train' cache testBurst =
        .ok (n', cache₁') ∧ n'.distance = n.distance ∧
      stringSet (n'.nearestVec.map Burst.instanceLabel) =
        stringSet (n.nearestVec.map Burst.instanceLabel) := by
  by_cases hcolumn : 1 ≤ div.burstMaxPacketIndex
  · rw [Prediction.predictBurst_uncached huncached] at hpredict ⊢
    cases hsearch : Prediction.search div cfg train testBurst with
    | error fault =>
      rw [hsearch] at hpredict
      cases hpredict
    | ok nearest =>
      rw [hsearch] at hpredict
      cases hpredict
      obtain ⟨n', hsearch', hdistance, hnearest⟩ :=
        Prediction.search_perm h h' hcolumn hcells hsearch
      refine ⟨n', _, congrArg (Except.map _) hsearch', hdistance, ?_⟩
      rw [stringSet, stringSet, List.toFinset_eq_of_perm _ _ (hnearest.map _)]
  · rw [eq_replicate_of_filed h' hcolumn, ← eq_replicate_of_filed h hcolumn]
    exact ⟨n, cache₁, hpredict, rfl, rfl⟩

end Order

/-- **The order of the training tasks does not matter.**  Whatever interleaving of the tasks has
gone through, a cell of the table holds the bursts of all devices with its coordinates, each once,
and under every device are its blocks, in order.  Any other interleaving goes through as well, it
leaves the same cells up to their order and the same lists, and an uncached `PredictBurst` returns
the same distance and the same set of labels. -/
theorem train_order {F : Type} [Field F] [LinearOrder F] [Elementary F] {lib : StdLib}
    {cfg : Config F} {statics : PolicyStatics} {trainset : UnorderedMap UInt16 (List BurstBlock)}
    {tasks : List TrainTask} (htasks : trainTasks lib cfg trainset = .ok tasks)
    {schedule : List ℕ} {log : List TrainAction}
    (hlog : interleave (tasks.map (TrainTask.actions lib)) schedule = some log) {s : TrainState}
    (hrun : log.foldlM (perform cfg.divisionParam) (TrainState.init cfg statics trainset) =
      .ok s) :
    Trained lib cfg statics trainset tasks s ∧
      ∀ schedule' log', interleave (tasks.map (TrainTask.actions lib)) schedule' = some log' →
        ∃ s', log'.foldlM (perform cfg.divisionParam) (TrainState.init cfg statics trainset) =
            .ok s' ∧
          (∀ i j, (cell s'.classifier.train i j).Perm (cell s.classifier.train i j)) ∧
          (∀ d, s'.statics.blockLevelDistribution.lookup d =
            s.statics.blockLevelDistribution.lookup d) ∧
          ∀ (cache : PredictionCache F) (testBurst : Burst),
            Prediction.answered ((Memo.find (Prediction.sameKey lib) cache testBurst).getD
              Prediction.blank) = false →
            ∀ n cache₁, Prediction.predictBurst lib cfg.divisionParam cfg.classifyParam
                s.classifier.train cache testBurst = .ok (n, cache₁) →
              ∃ n' cache₁', Prediction.predictBurst lib cfg.divisionParam cfg.classifyParam
                  s'.classifier.train cache testBurst = .ok (n', cache₁') ∧
                n'.distance = n.distance ∧
                stringSet (n'.nearestVec.map Burst.instanceLabel) =
                  stringSet (n.nearestVec.map Burst.instanceLabel) := by
  obtain ⟨hfiled, htrained, hlookup⟩ := trained_of_run htasks hlog hrun
  refine ⟨htrained, fun schedule' log' hlog' => ?_⟩
  have hperm : log'.Perm log := (perm_of_interleave hlog').trans (perm_of_interleave hlog).symm
  have hperformed := performed_of_foldlM log hrun
  obtain ⟨s', hrun'⟩ := foldlM_perform_ok log' (TrainState.ready_init cfg statics trainset)
    (fun b hb => hperformed.storable b ((hperm.filterMap _).mem_iff.mp hb))
    (fun d hd => hperformed.counted d ((hperm.filterMap _).mem_iff.mp hd))
  obtain ⟨hfiled', htrained', hlookup'⟩ := trained_of_run htasks hlog' hrun'
  have hcells : ∀ i j, (cell s'.classifier.train i j).Perm (cell s.classifier.train i j) :=
    fun i j => (htrained'.cells i j).trans (htrained.cells i j).symm
  exact ⟨s', hrun', hcells, fun d => (hlookup' d).trans (hlookup d).symm,
    fun cache testBurst huncached n cache₁ hpredict =>
      predictBurst_perm hfiled hfiled' hcells huncached hpredict⟩

/-- A burst of two packets of sixty bytes, under a name. -/
def twoPackets (instanceLabel : String) : Burst where
  uniPktNum := 1
  pktNum := 2
  instanceLabel := instanceLabel
  firstPacketStamp := ⟨10, 0⟩
  lastPacketStamp := ⟨11, 0⟩
  packetDetail := [(60, 2)]

/-- A table of one cell. -/
noncomputable def oneCell : Config ℝ where
  divisionParam := { burstMaxUnisig := 1, burstMaxPacketIndex := 1 }
  trainParam := { enableMergeIdentical := false }

/-- A camera and a lamp. -/
def twoDevices : UnorderedMap UInt16 (List BurstBlock) :=
  AList.insert 0 [[twoPackets "camera"]] (AList.insert 1 [[twoPackets "lamp"]] ∅)

/-- Their tasks. -/
def twoTasks : List TrainTask :=
  [⟨0, [[twoPackets "camera"]], 2, AList.insert ⟨0, twoPackets "camera"⟩ 1 ∅⟩,
    ⟨1, [[twoPackets "lamp"]], 2, AList.insert ⟨0, twoPackets "lamp"⟩ 1 ∅⟩]

/-- Whichever device stores its burst first, both are in the one cell. -/
theorem train_order_twoDevices : ∃ log log' s s',
    interleave (twoTasks.map (TrainTask.actions .insertion)) [0, 0, 0, 0, 1, 1, 1, 1] =
        some log ∧
      interleave (twoTasks.map (TrainTask.actions .insertion)) [1, 1, 1, 0, 0, 0, 0, 1] =
        some log' ∧
      log.foldlM (perform oneCell.divisionParam) (TrainState.init oneCell {} twoDevices) = .ok s ∧
      log'.foldlM (perform oneCell.divisionParam) (TrainState.init oneCell {} twoDevices) =
        .ok s' ∧
      (cell s'.classifier.train 0 0).Perm (cell s.classifier.train 0 0) := by
  have htasks : trainTasks .insertion oneCell twoDevices = .ok twoTasks := rfl
  have hlog : interleave (twoTasks.map (TrainTask.actions .insertion)) [0, 0, 0, 0, 1, 1, 1, 1] =
      some (twoTasks.flatMap (TrainTask.actions .insertion)) := rfl
  have hstored : (twoTasks.flatMap (TrainTask.actions .insertion)).filterMap stored =
      [twoPackets "camera", twoPackets "lamp"] := rfl
  have hstorable : ∀ b ∈ (twoTasks.flatMap (TrainTask.actions .insertion)).filterMap stored,
      Storable oneCell.divisionParam b := by
    intro b hb
    rw [hstored] at hb
    rcases List.mem_cons.mp hb with rfl | hb
    · exact ⟨rfl, by decide, by decide, le_refl _⟩
    · rw [List.mem_singleton.mp hb]
      exact ⟨rfl, by decide, by decide, le_refl _⟩
  have hcounted : ∀ d ∈ (twoTasks.flatMap (TrainTask.actions .insertion)).filterMap
      TrainAction.counted, d.toNat < 2 := by
    intro d hd
    have hstats : (twoTasks.flatMap (TrainTask.actions .insertion)).filterMap
        TrainAction.counted = [0, 1] := rfl
    rw [hstats] at hd
    rcases List.mem_cons.mp hd with rfl | hd
    · decide
    · rw [List.mem_singleton.mp hd]
      decide
  have hlen : (TrainState.init oneCell {} twoDevices).classifier.burstStats.length = 2 := rfl
  obtain ⟨s, hrun⟩ := foldlM_perform_ok (twoTasks.flatMap (TrainTask.actions .insertion))
    (TrainState.ready_init oneCell {} twoDevices) hstorable (hlen ▸ hcounted)
  obtain ⟨s', hrun', hcells, -⟩ :=
    (train_order htasks hlog hrun).2 [1, 1, 1, 0, 0, 0, 0, 1] _ rfl
  exact ⟨_, _, s, s', hlog, rfl, hrun, hrun', hcells 0 0⟩

/-! ## A home of two devices -/

/-- The burst of the lamp, met again later. -/
def lampAgain : Burst :=
  { Prediction.lampBurst with firstPacketStamp := ⟨40, 0⟩, lastPacketStamp := ⟨41, 0⟩ }

/-- A burst of three packets of two hundred bytes. -/
def homePlug : Burst where
  uniPktNum := 1
  pktNum := 3
  instanceLabel := "plug"
  firstPacketStamp := ⟨20, 0⟩
  lastPacketStamp := ⟨22, 0⟩
  packetDetail := [(200, 3)]

/-- A lamp with two blocks, and a plug with one. -/
def homeSet : UnorderedMap UInt16 (List BurstBlock) :=
  AList.insert 1 [[homePlug]] (AList.insert 0 [[Prediction.lampBurst], [lampAgain]] ∅)

/-- The task of the lamp, which keeps its first burst for both. -/
def homeLampTask : TrainTask :=
  ⟨0, [[Prediction.lampBurst], [lampAgain]], 2, AList.insert ⟨0, Prediction.lampBurst⟩ 2 ∅⟩

def homePlugTask : TrainTask :=
  ⟨1, [[homePlug]], 3, AList.insert ⟨0, homePlug⟩ 1 ∅⟩

/-- Both tasks. -/
def homeTasks : List TrainTask := [homePlugTask, homeLampTask]

theorem trainTasks_home : trainTasks .insertion ({} : Config ℝ) homeSet = .ok homeTasks := rfl

/-- What the tasks do when they take turns. -/
def homeLog : List TrainAction :=
  [.average 0 2, .average 1 3, .level 0 [Prediction.lampBurst], .level 1 [homePlug],
    .store 1 homePlug, .level 0 [lampAgain], .store 0 Prediction.lampBurst, .stats 1, .stats 0]

theorem interleave_home :
    interleave (homeTasks.map (TrainTask.actions .insertion)) [1, 0, 1, 0, 0, 1, 1, 0, 1] =
      some homeLog := rfl

theorem storable_lampBurst : Storable {} Prediction.lampBurst :=
  ⟨by decide, by decide, by decide, by decide⟩

theorem storable_homePlug : Storable {} homePlug :=
  ⟨by decide, by decide, by decide, by decide⟩

/-- The home is trained, whatever turns its tasks take. -/
theorem run_home_perm {log : List TrainAction} (hperm : log.Perm homeLog) :
    ∃ s, log.foldlM (perform {}) (TrainState.init ({} : Config ℝ) {} homeSet) = .ok s := by
  have hstored : ∀ b ∈ homeLog.filterMap stored, Storable {} b := by
    intro b hb
    rcases List.mem_cons.mp hb with rfl | hb
    · exact storable_homePlug
    · rw [List.mem_singleton.mp hb]
      exact storable_lampBurst
  have hcounted : ∀ d ∈ homeLog.filterMap TrainAction.counted, d.toNat < 2 :=
    List.forall_mem_cons.mpr ⟨by decide, List.forall_mem_singleton.mpr (by decide)⟩
  have hlen : (TrainState.init ({} : Config ℝ) {} homeSet).classifier.burstStats.length = 2 := rfl
  exact foldlM_perform_ok log (TrainState.ready_init ({} : Config ℝ) {} homeSet)
    (fun b hb => hstored b ((hperm.filterMap _).mem_iff.mp hb))
    fun d hd => hlen ▸ hcounted d ((hperm.filterMap _).mem_iff.mp hd)

theorem run_home : ∃ s, homeLog.foldlM (perform {})
    (TrainState.init ({} : Config ℝ) {} homeSet) = .ok s :=
  run_home_perm (List.Perm.refl _)

/-- `Train` goes through. -/
theorem train_home : ∃ trained, train .insertion ({} : Config ℝ) {} homeSet = .ok trained := by
  obtain ⟨schedule, hschedule⟩ :=
    exists_interleave_flatten (homeTasks.map (TrainTask.actions .insertion))
  rw [← List.flatMap_def] at hschedule
  obtain ⟨s, hrun⟩ := run_home_perm ((perm_of_interleave hschedule).trans
    (perm_of_interleave interleave_home).symm)
  refine ⟨(s.classifier, s.statics), ?_⟩
  rw [train_eq trainTasks_home]
  exact congrArg (Except.map _) hrun

end TrainOrder
end BurstIoT
