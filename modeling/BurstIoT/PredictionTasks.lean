import BurstIoT.Classifier

/-!
# The tasks of a prediction

`Predict` counts its tasks beforehand and gives their number to a `WaitGroup`.  It then splits the
blocks of each device with `splitVector`, and starts a task of `PredictGroups` for each chunk, with
the index of its first block.

**Accounting.**  The first loop rounds `size / epochSlotNum` up, and `splitVector` makes as many
chunks; each starts behind full ones, so the indices are the positions of the chunks.  The numbers
of tasks and the ends of the chunks are kept in an `int`, while the vectors and the loop variable
have `std::size_t`: the tasks are accounted for exactly if no device has `2 ^ 31` blocks and all
devices together need fewer than `2 ^ 31` tasks (`tasksAccounted_iff`).
-/

namespace BurstIoT

namespace Classifier

/-! ## The two loops of `Predict` -/

/-- A task that `Predict` starts: what it passes to `PredictGroups`. -/
structure PredictTask where
  smallGroups : List BurstBlock
  index : ℤ
  deriving DecidableEq, Repr

/-- One iteration of the first loop. -/
def countTasks (epochSlotNum : ℕ) (taskNum : ℤ) (burstGroups : List BurstBlock) : ℤ :=
  let remain := toInt (burstGroups.length % epochSlotNum)
  let taskNum := wrapInt (taskNum + (burstGroups.length / epochSlotNum : ℕ))
  if remain > 0 then wrapInt (taskNum + 1) else taskNum

/-- `taskNum`, after the first loop. -/
def taskNum (lib : StdLib) (div : DivisionParam)
    (testset : UnorderedMap UInt16 (List BurstBlock)) : ℤ :=
  (lib.iterate testset).foldl (fun taskNum e => countTasks (epochSlotNum div) taskNum e.2) 0

/-- The inner loop of the second one: a task for each chunk. -/
def startTasks (epochSlotNum : ℕ) : List (List BurstBlock) → ℤ → List PredictTask
  | [], _ => []
  | smallGroups :: rest, index =>
    ⟨smallGroups, index⟩ :: startTasks epochSlotNum rest (wrapInt (index + epochSlotNum))

/-- The tasks of one device. -/
def deviceTasks (epochSlotNum fuel : ℕ) (burstGroups : List BurstBlock) :
    Option (Except Fault (List PredictTask)) :=
  (SplitVector.splitVector burstGroups epochSlotNum fuel).map fun splittedVec =>
    splittedVec.map fun chunks => startTasks epochSlotNum chunks 0

/-- The tasks of a device are as they should be: `splitVector` ends, with non-empty chunks of at
most `epochSlotNum` blocks that concatenate to the blocks of the device, each task starts with the
position of its chunk, and `at(0).at(0)` is defined in it. -/
structure DeviceAccounted (epochSlotNum : ℕ) (burstGroups : List BurstBlock)
    (tasks : List PredictTask) : Prop where
  started : ∃ fuel, deviceTasks epochSlotNum fuel burstGroups = some (.ok tasks)
  concatenated : tasks.flatMap PredictTask.smallGroups = burstGroups
  chunk : ∀ t ∈ tasks, t.smallGroups ≠ [] ∧ t.smallGroups.length ≤ epochSlotNum
  position : ∀ (k : ℕ) t, tasks[k]? = some t →
    t.index = ((tasks.take k).flatMap PredictTask.smallGroups).length
  front : ∀ t ∈ tasks, ∃ group burst,
    atChecked? t.smallGroups 0 = .ok group ∧ atChecked? group 0 = .ok burst

/-- The tasks of a prediction are accounted for: those of each device are as they should be, and
there are as many as the `WaitGroup` waits for. -/
def TasksAccounted (lib : StdLib) (div : DivisionParam)
    (testset : UnorderedMap UInt16 (List BurstBlock)) : Prop :=
  ∃ started : List (List PredictTask),
    List.Forall₂ (fun e tasks => DeviceAccounted (epochSlotNum div) e.2 tasks)
      (lib.iterate testset) started ∧
    taskNum lib div testset = started.flatten.length

/-- The number of tasks for `n` blocks. -/
def tasksNeeded (epochSlotNum n : ℕ) : ℕ :=
  (n + (epochSlotNum - 1)) / epochSlotNum

/-! ## Counting the tasks -/

theorem tasksNeeded_eq {e : ℕ} (he : 0 < e) (n : ℕ) :
    tasksNeeded e n = n / e + if 0 < n % e then 1 else 0 := by
  have hmod := Nat.div_add_mod n e
  have hlt := Nat.mod_lt n he
  rw [tasksNeeded, Nat.div_eq_iff he]
  split_ifs with h
  · rw [Nat.add_mul, Nat.mul_comm (n / e)]
    omega
  · rw [Nat.add_zero, Nat.mul_comm (n / e)]
    omega

/-- **One iteration of the first loop** adds the tasks of the device, while they fit. -/
theorem countTasks_eq {e : ℕ} (he : 0 < e) (hroom : e < 2 ^ 31) {n : ℕ}
    {burstGroups : List BurstBlock} (h : n + tasksNeeded e burstGroups.length < 2 ^ 31) :
    countTasks e n burstGroups = (n + tasksNeeded e burstGroups.length : ℕ) := by
  have hlt := Nat.mod_lt burstGroups.length he
  rw [tasksNeeded_eq he] at h ⊢
  rw [countTasks, toInt_of_lt (by omega), ← Nat.cast_add,
    wrapInt_natCast (by split_ifs at h <;> omega)]
  by_cases hrem : 0 < burstGroups.length % e
  · rw [if_pos hrem] at h ⊢
    rw [if_pos (by exact_mod_cast hrem), ← Nat.cast_add_one, wrapInt_natCast (by omega),
      Nat.add_assoc]
  · rw [if_neg (by exact_mod_cast hrem), if_neg hrem, Nat.add_zero]

theorem countTasks_lt (e : ℕ) (n : ℤ) (burstGroups : List BurstBlock) :
    countTasks e n burstGroups < 2 ^ 31 := by
  rw [countTasks]
  split_ifs
  · exact wrapInt_lt _
  · exact wrapInt_lt _

/-- **The first loop** counts the tasks of all devices, if they fit into an `int`. -/
theorem foldl_countTasks_eq {e : ℕ} (he : 0 < e) (hroom : e < 2 ^ 31)
    (l : List (UInt16 × List BurstBlock)) : ∀ n : ℕ,
    n + (l.map fun d => tasksNeeded e d.2.length).sum < 2 ^ 31 →
      l.foldl (fun taskNum d => countTasks e taskNum d.2) (n : ℤ) =
        (n + (l.map fun d => tasksNeeded e d.2.length).sum : ℕ) := by
  induction l with
  | nil =>
    intro n _
    rw [List.foldl_nil, List.map_nil, List.sum_nil, Nat.add_zero]
  | cons d l ih =>
    intro n h
    rw [List.map_cons, List.sum_cons] at h ⊢
    rw [List.foldl_cons, countTasks_eq he hroom (by omega), ih _ (by omega), Nat.add_assoc]

/-- What an `int` counts is less than `2 ^ 31`. -/
theorem foldl_countTasks_lt (e : ℕ) (l : List (UInt16 × List BurstBlock)) {n : ℤ}
    (h : n < 2 ^ 31) : l.foldl (fun taskNum d => countTasks e taskNum d.2) n < 2 ^ 31 := by
  induction l generalizing n with
  | nil => exact h
  | cons d l ih =>
    rw [List.foldl_cons]
    exact ih (countTasks_lt e n d.2)

/-! ## The chunks and their indices -/

theorem length_startTasks (e : ℕ) (chunks : List (List BurstBlock)) (index : ℤ) :
    (startTasks e chunks index).length = chunks.length := by
  induction chunks generalizing index with
  | nil => rfl
  | cons chunk chunks ih => rw [startTasks, List.length_cons, ih, List.length_cons]

/-- The chunks are passed on as they are. -/
theorem map_startTasks (e : ℕ) (chunks : List (List BurstBlock)) (index : ℤ) :
    (startTasks e chunks index).map PredictTask.smallGroups = chunks := by
  induction chunks generalizing index with
  | nil => rfl
  | cons chunk chunks ih => rw [startTasks, List.map_cons, ih]

/-- **The index grows by `epochSlotNum`** from chunk to chunk, while it fits into an `int`. -/
theorem startTasks_eq (e : ℕ) (chunks : List (List BurstBlock)) (i : ℕ)
    (h : i + (chunks.length - 1) * e < 2 ^ 31) :
    startTasks e chunks i = chunks.zipIdx.map fun c => ⟨c.1, (i + c.2 * e : ℕ)⟩ := by
  induction chunks generalizing i with
  | nil => rfl
  | cons chunk chunks ih =>
    rw [startTasks, List.zipIdx_cons', List.map_cons, List.map_map]
    cases chunks with
    | nil => simp [startTasks]
    | cons next rest =>
      rw [List.length_cons, List.length_cons, Nat.add_sub_cancel, Nat.add_mul, Nat.one_mul] at h
      rw [← Nat.cast_add, wrapInt_natCast (by omega),
        ih (i + e) (by rw [List.length_cons, Nat.add_sub_cancel]; omega)]
      congr 1
      · simp
      · refine List.map_congr_left fun c _ => ?_
        simp only [Function.comp_apply, Prod.map_fst, Prod.map_snd, id_eq, Nat.add_mul]
        congr 2
        omega

section Split

variable {burstGroups : List BurstBlock} {e : ℕ}

/-- **The tasks of a device with fewer than `2 ^ 31` blocks.** -/
theorem exists_deviceTasks (hlen : burstGroups.length < 2 ^ 31) (he : 0 < e) (hroom : e < 2 ^ 31) :
    ∃ chunks, SplitVector.splitVector burstGroups e (burstGroups.length + 1) =
        some (.ok chunks) ∧
      chunks.flatten = burstGroups ∧ chunks.length = tasksNeeded e burstGroups.length ∧
      startTasks e chunks 0 = chunks.zipIdx.map fun c => ⟨c.1, (c.2 * e : ℕ)⟩ := by
  obtain ⟨chunks, hrun, hflat, hcount⟩ := SplitVector.splitFrom_spec hlen he (by omega)
    (burstGroups.length + 1) 0 (by omega)
  refine ⟨chunks, hrun, hflat, hcount, ?_⟩
  have hstart := startTasks_eq e chunks 0 ?_
  · simpa using hstart
  · rw [hcount, Nat.sub_zero, Nat.zero_add]
    have hmul := Nat.div_mul_le_self (burstGroups.length + (e - 1)) e
    generalize (burstGroups.length + (e - 1)) / e = k at hmul ⊢
    rw [Nat.sub_mul]
    omega

/-- **The tasks are what the prediction of a device runs**, one after the other. -/
theorem predictChunks_eq {F : Type} [Field F] [LinearOrder F] [Elementary F] {env : PredictEnv F}
    (s : Score F × PredictionCache F) (hlen : burstGroups.length < 2 ^ 31) (he : 0 < e)
    (hroom : e < 2 ^ 31) : ∃ tasks,
      deviceTasks e (burstGroups.length + 1) burstGroups = some (.ok tasks) ∧
        predictChunks env e s burstGroups =
          tasks.foldlM (fun s t => predictGroups env s t.smallGroups t.index.toNat) s := by
  obtain ⟨chunks, hrun, -, -, hstart⟩ := exists_deviceTasks hlen he hroom
  refine ⟨startTasks e chunks 0, by rw [deviceTasks, hrun]; rfl, ?_⟩
  rw [predictChunks, hrun, hstart, List.foldlM_map]
  rfl

/-- A chunk with its place in the blocks of the device. -/
theorem chunk_of_splitVector (hlen : burstGroups.length < 2 ^ 31) (he : 0 < e) (hroom : e < 2 ^ 31)
    {fuel : ℕ} {chunks : List (List BurstBlock)}
    (hrun : SplitVector.splitVector burstGroups e fuel = some (.ok chunks)) {k : ℕ}
    {chunk : List BurstBlock} (hk : chunks[k]? = some chunk) :
    chunk ≠ [] ∧ chunk.length ≤ e ∧ (chunks.take k).flatten.length = k * e :=
  SplitVector.splitFrom_chunks hlen he (by omega) fuel 0 hrun k hk

/-- In a chunk of non-empty blocks, `at(0).at(0)` is defined. -/
theorem exists_front {chunk : List BurstBlock} (hne : chunk ≠ [])
    (hblocks : ∀ block ∈ chunk, block ≠ []) : ∃ group burst,
       atChecked? chunk 0 = .ok group ∧ atChecked? group 0 = .ok burst := by
  obtain ⟨group, rest, rfl⟩ := List.exists_cons_of_ne_nil hne
  obtain ⟨burst, later, rfl⟩ := List.exists_cons_of_ne_nil (hblocks group List.mem_cons_self)
  exact ⟨_, burst, rfl, rfl⟩

theorem deviceAccounted_of_lt (hlen : burstGroups.length < 2 ^ 31) (he : 0 < e)
    (hroom : e < 2 ^ 31) (hblocks : ∀ block ∈ burstGroups, block ≠ []) :
    ∃ tasks, DeviceAccounted e burstGroups tasks ∧
      tasks.length = tasksNeeded e burstGroups.length := by
  obtain ⟨chunks, hrun, hflat, hcount, hstart⟩ := exists_deviceTasks hlen he hroom
  have hmap := map_startTasks e chunks 0
  have hchunk : ∀ t ∈ startTasks e chunks 0, t.smallGroups ∈ chunks := by
    intro t ht
    rw [← hmap]
    exact List.mem_map_of_mem ht
  refine ⟨startTasks e chunks 0, ⟨⟨_, by rw [deviceTasks, hrun]; rfl⟩, ?_, ?_, ?_, ?_⟩, ?_⟩
  · rw [List.flatMap_def, hmap, hflat]
  · intro t ht
    obtain ⟨k, hk⟩ := List.mem_iff_getElem?.mp (hchunk t ht)
    obtain ⟨hne, hle, -⟩ := chunk_of_splitVector hlen he hroom hrun hk
    exact ⟨hne, hle⟩
  · intro k t hk
    have hblock : chunks[k]? = some t.smallGroups := by
      rw [← hmap, List.getElem?_map, hk]
      rfl
    have hindex : t.index = (k * e : ℕ) := by
      rw [hstart, List.getElem?_map, List.getElem?_zipIdx, hblock] at hk
      rw [← Option.some_inj.mp hk, Nat.zero_add]
    rw [List.flatMap_def, List.map_take, hmap,
      (chunk_of_splitVector hlen he hroom hrun hblock).2.2, hindex]
  · intro t ht
    obtain ⟨k, hk⟩ := List.mem_iff_getElem?.mp (hchunk t ht)
    refine exists_front (chunk_of_splitVector hlen he hroom hrun hk).1 fun block hblock => ?_
    refine hblocks block ?_
    rw [← hflat]
    exact List.mem_flatten.mpr ⟨_, hchunk t ht, hblock⟩
  · rw [length_startTasks, hcount]

/-- **A device whose tasks have been started** has fewer than `2 ^ 31` blocks, and a task for each
of its chunks. -/
theorem chunks_of_deviceTasks (he : 0 < e) (hroom : e < 2 ^ 31) {fuel : ℕ}
    {tasks : List PredictTask} (h : deviceTasks e fuel burstGroups = some (.ok tasks)) :
    burstGroups.length < 2 ^ 31 ∧ ∃ chunks,
      SplitVector.splitVector burstGroups e fuel = some (.ok chunks) ∧
      chunks.length = tasksNeeded e burstGroups.length ∧
      tasks = chunks.zipIdx.map fun c => ⟨c.1, (c.2 * e : ℕ)⟩ := by
  obtain ⟨splittedVec, hrun, hmap⟩ := Option.map_eq_some_iff.mp h
  obtain ⟨chunks, rfl, rfl⟩ : ∃ chunks, splittedVec = .ok chunks ∧
      startTasks e chunks 0 = tasks := by
    cases splittedVec with
    | error fault => cases hmap
    | ok chunks => exact ⟨chunks, rfl, Except.ok.inj hmap⟩
  have hlen := SplitVector.length_lt_of_splitFrom he hroom fuel 0 (by decide) hrun
  obtain ⟨chunks', hrun', -, hcount, hstart⟩ := exists_deviceTasks hlen he hroom
  obtain rfl := Except.ok.inj (SplitVector.splitFrom_unique _ _ _ hrun hrun')
  exact ⟨hlen, chunks, hrun, hcount, hstart⟩

/-- **A device whose tasks are as they should be** has fewer than `2 ^ 31` blocks. -/
theorem DeviceAccounted.length_lt {tasks : List PredictTask}
    (h : DeviceAccounted e burstGroups tasks) (he : 0 < e) (hroom : e < 2 ^ 31) :
    burstGroups.length < 2 ^ 31 ∧ tasks.length = tasksNeeded e burstGroups.length := by
  obtain ⟨fuel, hstarted⟩ := h.started
  obtain ⟨hlen, chunks, -, hcount, rfl⟩ := chunks_of_deviceTasks he hroom hstarted
  exact ⟨hlen, by rw [List.length_map, List.length_zipIdx, hcount]⟩

end Split

/-! ## All devices -/

/-- Devices whose tasks are as they should be have fewer than `2 ^ 31` blocks each. -/
theorem lengths_of_accounted {e : ℕ} (he : 0 < e) (hroom : e < 2 ^ 31)
    {l : List (UInt16 × List BurstBlock)} {started : List (List PredictTask)}
    (h : List.Forall₂ (fun d tasks => DeviceAccounted e d.2 tasks) l started) :
    (∀ d ∈ l, d.2.length < 2 ^ 31) ∧
      started.flatten.length = (l.map fun d => tasksNeeded e d.2.length).sum := by
  induction h with
  | nil => exact ⟨fun _ hd => absurd hd List.not_mem_nil, rfl⟩
  | cons hd _ ih =>
    obtain ⟨hlen, hcount⟩ := hd.length_lt he hroom
    refine ⟨List.forall_mem_cons.mpr ⟨hlen, ih.1⟩, ?_⟩
    rw [List.flatten_cons, List.length_append, hcount, ih.2, List.map_cons, List.sum_cons]

theorem exists_accounted {e : ℕ} (he : 0 < e) (hroom : e < 2 ^ 31)
    {l : List (UInt16 × List BurstBlock)} (hblocks : ∀ d ∈ l, ∀ block ∈ d.2, block ≠ [])
    (hlen : ∀ d ∈ l, d.2.length < 2 ^ 31) :
    ∃ started, List.Forall₂ (fun d tasks => DeviceAccounted e d.2 tasks) l started := by
  induction l with
  | nil => exact ⟨[], .nil⟩
  | cons d l ih =>
    obtain ⟨hd, hl⟩ := List.forall_mem_cons.mp hblocks
    obtain ⟨hlend, hlenl⟩ := List.forall_mem_cons.mp hlen
    obtain ⟨tasks, htasks, -⟩ := deviceAccounted_of_lt hlend he hroom hd
    obtain ⟨started, hall⟩ := ih hl hlenl
    exact ⟨tasks :: started, .cons htasks hall⟩

/-- An epoch has a slot, and not too many. -/
theorem epochSlotNum_bounds {div : DivisionParam} (hslot : 1 ≤ div.timeslot.toNat)
    (hmax : div.timeslot.toNat ≤ epochTimeslot * 3600) :
    0 < epochSlotNum div ∧ epochSlotNum div < 2 ^ 31 := by
  have hle := Nat.div_le_self (epochTimeslot * 3600) div.timeslot.toNat
  refine ⟨Nat.div_pos hmax hslot, ?_⟩
  rw [epochSlotNum]
  rw [epochTimeslot] at hle ⊢
  omega

/-- The tasks that the devices of a test set need together. -/
def totalTasks (div : DivisionParam) (testset : UnorderedMap UInt16 (List BurstBlock)) : ℕ :=
  (testset.entries.map fun d => tasksNeeded (epochSlotNum div) d.2.length).sum

theorem sum_tasksNeeded_iterate (lib : StdLib) (div : DivisionParam)
    (testset : UnorderedMap UInt16 (List BurstBlock)) :
    ((lib.iterate testset).map fun d => tasksNeeded (epochSlotNum div) d.2.length).sum =
      totalTasks div testset := by
  rw [((lib.iterate_perm testset).map fun d => tasksNeeded (epochSlotNum div) d.2.length).sum_eq,
    List.map_map]
  rfl

/-- **When the tasks of a prediction are accounted for.**  For every test set of non-empty blocks,
and every `TIMESLOT` up to the length of an epoch: if no device has `2 ^ 31` blocks, and the devices
together need fewer than `2 ^ 31` tasks. -/
theorem tasksAccounted_iff (lib : StdLib) (div : DivisionParam)
    (testset : UnorderedMap UInt16 (List BurstBlock)) (hslot : 1 ≤ div.timeslot.toNat)
    (hmax : div.timeslot.toNat ≤ epochTimeslot * 3600)
    (hblocks : ∀ d burstGroups, testset.lookup d = some burstGroups →
      ∀ block ∈ burstGroups, block ≠ []) :
    TasksAccounted lib div testset ↔
      (∀ d burstGroups, testset.lookup d = some burstGroups → burstGroups.length < 2 ^ 31) ∧
        totalTasks div testset < 2 ^ 31 := by
  obtain ⟨he, hroom⟩ := epochSlotNum_bounds hslot hmax
  rw [← sum_tasksNeeded_iterate lib]
  constructor
  · rintro ⟨started, hall, hnum⟩
    obtain ⟨hlen, hcount⟩ := lengths_of_accounted he hroom hall
    refine ⟨fun d burstGroups hd => hlen (d, burstGroups) (lib.mem_iterate.mpr hd), ?_⟩
    have hlt : taskNum lib div testset < 2 ^ 31 :=
      foldl_countTasks_lt (epochSlotNum div) (lib.iterate testset) (by decide)
    rw [hnum, hcount] at hlt
    exact_mod_cast hlt
  · rintro ⟨hlen, htotal⟩
    obtain ⟨started, hall⟩ := exists_accounted he hroom
      (l := lib.iterate testset)
      (fun d hd => hblocks d.1 d.2 (lib.mem_iterate.mp hd))
      (fun d hd => hlen d.1 d.2 (lib.mem_iterate.mp hd))
    refine ⟨started, hall, ?_⟩
    rw [(lengths_of_accounted he hroom hall).2, taskNum]
    have hcount := foldl_countTasks_eq he hroom (lib.iterate testset) 0 (by omega)
    rwa [Nat.zero_add] at hcount

/-! ## One device -/

/-- A block of one burst. -/
def smallBlock : BurstBlock :=
  [⟨1, 1, "lamp", .zero, .zero, [(100, 1)]⟩]

/-- A test set of one device with `n` blocks. -/
def oneDevice (n : ℕ) : UnorderedMap UInt16 (List BurstBlock) :=
  AList.singleton 0 (List.replicate n smallBlock)

theorem lookup_oneDevice {n : ℕ} {d : UInt16} {burstGroups : List BurstBlock} :
    (oneDevice n).lookup d = some burstGroups ↔
      d = 0 ∧ burstGroups = List.replicate n smallBlock := by
  rw [← Option.mem_def, AList.mem_lookup_iff]
  constructor
  · intro h
    cases List.mem_singleton.mp h
    exact ⟨rfl, rfl⟩
  · rintro ⟨rfl, rfl⟩
    exact List.mem_singleton_self _

theorem ne_nil_of_lookup_oneDevice {n : ℕ} : ∀ d burstGroups,
    (oneDevice n).lookup d = some burstGroups → ∀ block ∈ burstGroups, block ≠ [] := by
  intro d burstGroups h block hblock
  rw [(lookup_oneDevice.mp h).2] at hblock
  rw [(List.mem_replicate.mp hblock).2]
  exact List.cons_ne_nil _ _

/-- Twenty blocks are three tasks. -/
theorem tasksAccounted_twenty :
    (TasksAccounted .insertion {} (oneDevice 20) ↔
      (∀ d burstGroups, (oneDevice 20).lookup d = some burstGroups →
        burstGroups.length < 2 ^ 31) ∧ totalTasks {} (oneDevice 20) < 2 ^ 31) ∧
    totalTasks {} (oneDevice 20) = 3 :=
  ⟨tasksAccounted_iff .insertion {} _ (by decide) (by decide) ne_nil_of_lookup_oneDevice,
    by decide⟩

/-- **The chunk that ends at block `2 ^ 31` has no end that fits into an `int`.** -/
theorem not_tasksAccounted_long :
    (∀ d burstGroups, (oneDevice (2 ^ 31)).lookup d = some burstGroups →
      ∀ block ∈ burstGroups, block ≠ []) ∧
    1 ≤ ({} : DivisionParam).timeslot.toNat ∧
    ({} : DivisionParam).timeslot.toNat ≤ epochTimeslot * 3600 ∧
    ¬ TasksAccounted .insertion {} (oneDevice (2 ^ 31)) := by
  refine ⟨ne_nil_of_lookup_oneDevice, by decide, by decide, ?_⟩
  rintro ⟨started, hall, -⟩
  obtain ⟨he, hroom⟩ := @epochSlotNum_bounds {} (by decide) (by decide)
  have hmem : (0, List.replicate (2 ^ 31) smallBlock) ∈
      StdLib.insertion.iterate (oneDevice (2 ^ 31)) :=
    StdLib.insertion.mem_iterate.mpr (lookup_oneDevice.mpr ⟨rfl, rfl⟩)
  have hlen := (lengths_of_accounted he hroom hall).1 _ hmem
  rw [List.length_replicate] at hlen
  exact lt_irrefl _ hlen

end Classifier
end BurstIoT
