import BurstIoT.Library.Tiling
import BurstIoT.PredictionTasks
import BurstIoT.ScoreBookkeeping

/-!
# The result lines

`ToResultIndex` shows the predictions of a type in one line: it makes room for as many marks as the
sheet has indices, and puts a mark at each index.  That is as meant if the indices are the numbers
below their number, each once (`ScoreSheet.FillsLine`).

A task of `PredictGroups` numbers its predictions from the position of its chunk on, and counts only
the blocks that pass the packet filter.  A sheet belongs to a type, and all devices of a type number
from zero.  So a line has a mark twice if two devices of a type have predictions in the same chunk,
and a gap if a chunk with a block that is left out is not the last one.

Whatever the order of the tasks, the lines are filled exactly if the tasks of each type are
`Consecutive`: no two with a prediction start at the same index, and each with a prediction that
does not start at zero follows one without a block left out (`resultLines_iff`).
-/

namespace BurstIoT

open Tiling (Stretch Consecutive)

/-! ## The line of a sheet -/

namespace ScoreSheet

/-- The indices of a sheet: those of the misses, of the right and of the wrong predictions. -/
def indices (sheet : ScoreSheet) : List ℕ :=
  sheet.missIndexVector ++ sheet.correctVector ++ sheet.wrongVector

/-- `resultVector[index] = mark`, undefined past the end. -/
def putMark (mark : String) (resultVector : List String) (index : ℕ) :
    Except Fault (List String) :=
  if index < resultVector.length then .ok (resultVector.set index mark) else .error .undefined

/-- `resultVector`, as `ToResultIndex` fills it. -/
def resultVector (sheet : ScoreSheet) : Except Fault (List String) := do
  let len := sheet.wrongVector.length + sheet.missIndexVector.length + sheet.correctVector.length
  let resultVector ← sheet.missIndexVector.foldlM (putMark "◻") (List.replicate len "")
  let resultVector ← sheet.correctVector.foldlM (putMark "✔") resultVector
  sheet.wrongVector.foldlM (putMark "✖") resultVector

/-- `ToResultIndex`. -/
def toResultIndex (sheet : ScoreSheet) : Except Fault String := do
  let resultVector ← sheet.resultVector
  return resultVector.zipIdx.foldl
    (fun ss e => if e.2 % 100 = 0 then ss ++ e.1 ++ "\n" else ss ++ e.1) ""

/-- The outcomes of a sheet fill its line: their indices are the numbers below their number, each
once, `ToResultIndex` returns, and each outcome is shown by its mark. -/
structure FillsLine (sheet : ScoreSheet) : Prop where
  indices : sheet.indices.Perm (List.range sheet.indices.length)
  returns : ∃ text, sheet.toResultIndex = .ok text
  shows : ∃ shown, sheet.resultVector = .ok shown ∧ shown.length = sheet.indices.length ∧
    (∀ i ∈ sheet.missIndexVector, shown[i]? = some "◻") ∧
    (∀ i ∈ sheet.correctVector, shown[i]? = some "✔") ∧
    (∀ i ∈ sheet.wrongVector, shown[i]? = some "✖")

/-- The marks of a sheet, in the order in which they are put. -/
def marks (sheet : ScoreSheet) : List (ℕ × String) :=
  sheet.missIndexVector.map (·, "◻") ++ sheet.correctVector.map (·, "✔") ++
    sheet.wrongVector.map (·, "✖")

theorem map_fst_marks (sheet : ScoreSheet) : sheet.marks.map Prod.fst = sheet.indices := by
  simp [marks, indices, Function.comp_def]

/-- The three loops put the marks one after another. -/
theorem resultVector_eq (sheet : ScoreSheet) : sheet.resultVector =
    sheet.marks.foldlM (fun line m => putMark m.2 line m.1)
      (List.replicate sheet.indices.length "") := by
  have hlen : sheet.wrongVector.length + sheet.missIndexVector.length +
      sheet.correctVector.length = sheet.indices.length := by
    rw [indices, List.length_append, List.length_append]
    omega
  rw [marks, List.foldlM_append, List.foldlM_append, List.foldlM_map, bind_assoc, resultVector,
    hlen]
  simp only [List.foldlM_map]

/-- **Marks at distinct places of a line** are put there. -/
theorem foldlM_putMark {l : List (ℕ × String)} {line : List String}
    (hnodup : (l.map Prod.fst).Nodup) (hl : ∀ m ∈ l, m.1 < line.length) :
    ∃ line', l.foldlM (fun line m => putMark m.2 line m.1) line = .ok line' ∧
      line'.length = line.length ∧ ∀ m ∈ l, line'[m.1]? = some m.2 := by
  let I : List (ℕ × String) → List String → Prop := fun done line' =>
    line'.length = line.length ∧ ∀ m ∈ done, line'[m.1]? = some m.2
  refine CheckedLoop.foldlM_ok (I := I) (fun done m rest hall line' hI => ?_)
    ⟨rfl, fun _ hm => absurd hm List.not_mem_nil⟩
  obtain ⟨hlen, hput⟩ := hI
  have hm : m.1 < line'.length := by
    rw [hlen]
    exact hl m (by simp [hall])
  have hfresh : ∀ m' ∈ done, m.1 ≠ m'.1 := by
    intro m' hm' heq
    rw [hall, List.map_append, List.nodup_append'] at hnodup
    exact hnodup.2.2 (List.mem_map_of_mem hm') (by simp [heq])
  refine ⟨line'.set m.1 m.2, by rw [putMark, if_pos hm], by rw [List.length_set, hlen],
    fun m' hm' => ?_⟩
  rcases List.mem_append.mp hm' with hm' | hm'
  · rw [List.getElem?_set_ne (hfresh m' hm')]
    exact hput m' hm'
  · rw [List.mem_singleton.mp hm', List.getElem?_set_self hm]

/-- A mark past the end of the line is undefined. -/
theorem foldlM_putMark_past {l : List (ℕ × String)} {line : List String}
    (h : ∃ m ∈ l, line.length ≤ m.1) :
    l.foldlM (fun line m => putMark m.2 line m.1) line = .error .undefined := by
  induction l generalizing line with
  | nil =>
    obtain ⟨m, hm, -⟩ := h
    exact absurd hm List.not_mem_nil
  | cons m l ih =>
    rw [List.foldlM_cons]
    by_cases hm : m.1 < line.length
    · rw [putMark, if_pos hm]
      obtain ⟨m', hm', hpast⟩ := h
      have htail : m' ∈ l := (List.mem_cons.mp hm').resolve_left fun heq => by
        rw [heq] at hpast
        exact absurd hm (Nat.not_lt.mpr hpast)
      exact ih ⟨m', htail, by rwa [List.length_set]⟩
    · rw [putMark, if_neg hm]
      rfl

/-- **Indices that are the numbers below their number** fill the line. -/
theorem fillsLine_iff {sheet : ScoreSheet} :
    sheet.FillsLine ↔ sheet.indices.Perm (List.range sheet.indices.length) := by
  refine ⟨FillsLine.indices, fun h => ?_⟩
  have hnodup : (sheet.marks.map Prod.fst).Nodup := by
    rw [map_fst_marks]
    exact h.nodup_iff.mpr List.nodup_range
  have hlt : ∀ m ∈ sheet.marks, m.1 < (List.replicate sheet.indices.length "").length := by
    intro m hm
    rw [List.length_replicate]
    have hindex : m.1 ∈ sheet.indices := map_fst_marks sheet ▸ List.mem_map_of_mem hm
    exact List.mem_range.mp (h.mem_iff.mp hindex)
  obtain ⟨line, hrun, hlen, hput⟩ := foldlM_putMark hnodup hlt
  rw [← resultVector_eq] at hrun
  rw [List.length_replicate] at hlen
  refine ⟨h, ⟨_, by rw [toResultIndex, hrun]; rfl⟩, line, hrun, hlen, fun i hi => ?_,
    fun i hi => ?_, fun i hi => ?_⟩
  · exact hput (i, "◻") (by simp [marks, hi])
  · exact hput (i, "✔") (by simp [marks, hi])
  · exact hput (i, "✖") (by simp [marks, hi])

/-- **An index past the end of the line** is undefined. -/
theorem toResultIndex_past {sheet : ScoreSheet}
    (h : ∃ i ∈ sheet.indices, sheet.indices.length ≤ i) :
    sheet.toResultIndex = .error .undefined := by
  obtain ⟨i, hi, hpast⟩ := h
  rw [← map_fst_marks] at hi
  obtain ⟨m, hm, rfl⟩ := List.mem_map.mp hi
  rw [toResultIndex, resultVector_eq,
    foldlM_putMark_past ⟨m, hm, by rwa [List.length_replicate]⟩]
  rfl

end ScoreSheet

/-! ## The indices of a sheet -/

/-- What a prediction enters: the type of its true label, and its index. -/
def Outcome.entry : Outcome → Option (String × ℕ)
  | missed trueType index => some (trueType, index)
  | right trueType index => some (trueType, index)
  | wrong trueType _ index => some (trueType, index)
  | averaged _ _ => none

/-- The indices entered for a type. -/
def entriesOf (type : String) (entries : List (String × ℕ)) : List ℕ :=
  entries.filterMap fun e => if e.1 = type then some e.2 else none

theorem entriesOf_append (type : String) (entries entries' : List (String × ℕ)) :
    entriesOf type (entries ++ entries') = entriesOf type entries ++ entriesOf type entries' :=
  List.filterMap_append

theorem count_indices (sheet : ScoreSheet) (i : ℕ) : sheet.indices.count i =
    sheet.missIndexVector.count i + sheet.correctVector.count i + sheet.wrongVector.count i := by
  rw [ScoreSheet.indices, List.count_append, List.count_append]

/-- **What an outcome enters** goes to one of the three vectors of its type. -/
theorem Outcome.indices_effect (o : Outcome) (type : String) (sheet : ScoreSheet) :
    (o.effect type sheet).indices.Perm (sheet.indices ++ entriesOf type o.entry.toList) := by
  refine List.perm_iff_count.mpr fun i => ?_
  rw [List.count_append, count_indices, count_indices]
  cases o with
  | missed trueType index =>
    by_cases h : type = trueType
    · simp only [effect, h, if_true, entry, entriesOf, Option.toList_some, List.filterMap_cons,
        List.filterMap_nil, List.count_append]
      omega
    · simp [effect, entry, entriesOf, h, Ne.symm h]
  | right trueType index =>
    by_cases h : type = trueType
    · simp only [effect, h, if_true, entry, entriesOf, Option.toList_some, List.filterMap_cons,
        List.filterMap_nil, List.count_append]
      omega
    · simp [effect, entry, entriesOf, h, Ne.symm h]
  | wrong trueType predictType index =>
    have hvectors : ∀ sheet : ScoreSheet,
        (if type = predictType then { sheet with FP := sheet.FP + 1 } else sheet).missIndexVector =
          sheet.missIndexVector ∧
        (if type = predictType then { sheet with FP := sheet.FP + 1 } else sheet).correctVector =
          sheet.correctVector ∧
        (if type = predictType then { sheet with FP := sheet.FP + 1 } else sheet).wrongVector =
          sheet.wrongVector := by
      intro sheet
      split_ifs <;> exact ⟨rfl, rfl, rfl⟩
    obtain ⟨hmiss, hright, hwrong⟩ := hvectors sheet
    by_cases h : type = trueType
    · simp only [effect, if_pos h, entry, entriesOf, Option.toList_some, List.filterMap_cons,
        List.filterMap_nil, List.count_append, hmiss, hright, hwrong, if_pos h.symm]
      omega
    · simp [effect, entry, entriesOf, h, Ne.symm h, hmiss, hright, hwrong]
  | averaged type' num =>
    by_cases h : type = type' <;> simp [effect, entry, entriesOf, h]

/-- The outcome of a call enters what the call says. -/
theorem ScoreCall.entry_of_outcome {F : Type} [Field F] [LinearOrder F] [Elementary F]
    {env : Classifier.PredictEnv F} {call : ScoreCall F} {o : Outcome}
    (h : call.outcome env = some o) : o.entry = call.entry := by
  cases call with
  | addPrediction trueLabel predict index =>
    rw [outcome] at h
    split at h
    · cases h
      rw [Outcome.ofPrediction, entry]
      split_ifs <;> rfl
    · cases h
  | addPktAvgNum deviceId num =>
    rw [outcome] at h
    split at h
    · cases h
      rfl
    · cases h

/-- **The indices of a sheet** are those that the calls enter for its type. -/
theorem ScoreCall.indices_perm {F : Type} [Field F] [LinearOrder F] [Elementary F]
    {env : Classifier.PredictEnv F} {calls : List (ScoreCall F)} {score : Score F}
    (h : performAll env calls {} = .ok score) (type : String) :
    (score.sheetOf type).indices.Perm (entriesOf type (calls.filterMap entry)) := by
  let I : List Outcome → Score F → Prop := fun done score =>
    (score.sheetOf type).indices.Perm (entriesOf type (done.filterMap Outcome.entry))
  have hstart : I [] {} := List.Perm.refl []
  obtain ⟨hperm, hall⟩ := performAll_inv (I := I) (fun done o score score' hI ho => by
    show (score'.sheetOf type).indices.Perm _
    rw [ho.sheetOf, List.filterMap_append, entriesOf_append]
    refine (o.indices_effect type _).trans (hI.append (List.Perm.of_eq ?_))
    cases hentry : o.entry <;> simp [hentry]) calls hstart h
  refine hperm.trans (List.Perm.of_eq ?_)
  rw [List.nil_append, List.filterMap_filterMap]
  congr 1
  refine List.filterMap_congr fun call hcall => ?_
  obtain ⟨o, ho⟩ := Option.isSome_iff_exists.mp (hall call hcall)
  rw [ho, Option.bind_some, entry_of_outcome ho]

namespace Classifier

/-! ## The stretches of the tasks -/

/-- What the predictions of a task enter. -/
def PredictTask.entries (filter : FilterParam) (t : PredictTask) : List (String × ℕ) :=
  groupEntries filter t.smallGroups t.index.toNat

/-- The indices that a task enters for a type: from its own on, one for each block that passes the
filter. -/
def PredictTask.stretch (filter : FilterParam) (type : String) (t : PredictTask) :
    Option Stretch :=
  match frontBurst t.smallGroups with
  | .ok burst =>
    if removeSuffix burst.instanceLabel = type then
      some ⟨t.index.toNat, t.smallGroups.countP (passes filter)⟩
    else none
  | .error _ => none

/-- The tasks for a type, by their indices. -/
def stretches (filter : FilterParam) (type : String) (tasks : List PredictTask) : List Stretch :=
  tasks.filterMap (PredictTask.stretch filter type)

theorem entriesOf_entries (filter : FilterParam) (type : String) (t : PredictTask) :
    entriesOf type (t.entries filter) = Tiling.cells (t.stretch filter type).toList := by
  rw [PredictTask.entries, groupEntries, PredictTask.stretch]
  cases frontBurst t.smallGroups with
  | ok burst =>
    dsimp only
    rw [entriesOf, List.filterMap_map]
    split_ifs with h
    · simp [h, Tiling.cells, Stretch.cells]
    · simp [h, Tiling.cells]
  | error fault => rfl

theorem entriesOf_flatMap (filter : FilterParam) (type : String) (tasks : List PredictTask) :
    entriesOf type (tasks.flatMap (PredictTask.entries filter)) =
      Tiling.cells (stretches filter type tasks) := by
  induction tasks with
  | nil => rfl
  | cons t tasks ih =>
    rw [List.flatMap_cons, entriesOf_append, ih, entriesOf_entries, stretches, stretches,
      List.filterMap_cons]
    cases t.stretch filter type <;> simp [Tiling.cells]

variable {F : Type} [Field F] [LinearOrder F] [Elementary F]

/-- `calls` is what the tasks of a prediction do to its score, in any order: `tasks` are those that
`Predict` starts for the test set, and the predictions enter what the tasks number. -/
structure Ran (env : PredictEnv F) (testset : UnorderedMap UInt16 (List BurstBlock))
    (tasks : List PredictTask) (calls : List (ScoreCall F)) : Prop where
  started : ∃ started : List (List PredictTask),
    List.Forall₂ (fun e tasks => ∃ fuel,
      deviceTasks (epochSlotNum env.cfg.divisionParam) fuel e.2 = some (.ok tasks))
      (env.lib.iterate testset) started ∧ started.flatten = tasks
  entries : (calls.filterMap ScoreCall.entry).Perm
    (tasks.flatMap (PredictTask.entries env.cfg.filterParam))

theorem epochSlotNum_lt (div : DivisionParam) : epochSlotNum div < 2 ^ 31 :=
  (Nat.div_le_self _ _).trans_lt (by decide)

/-- The tasks of a device start at multiples of the chunk size, with no more blocks than that. -/
theorem fits_of_deviceTasks {e fuel : ℕ} (hroom : e < 2 ^ 31) {burstGroups : List BurstBlock}
    {tasks : List PredictTask} (h : deviceTasks e fuel burstGroups = some (.ok tasks)) :
    ∀ t ∈ tasks, e ∣ t.index.toNat ∧ t.smallGroups.length ≤ e := by
  intro t ht
  rcases Nat.eq_zero_or_pos e with rfl | he
  · -- with chunks of no blocks, only an empty list is split
    rcases List.eq_nil_or_concat burstGroups with rfl | ⟨front, last, rfl⟩
    · cases fuel with
      | zero => cases h
      | succ fuel =>
        cases h
        exact absurd ht List.not_mem_nil
    · rw [deviceTasks, SplitVector.splitVector, SplitVector.splitFrom_zero (by simp)] at h
      cases h
  · obtain ⟨hlen, chunks, hrun, -, rfl⟩ := chunks_of_deviceTasks he hroom h
    obtain ⟨c, hc, rfl⟩ := List.mem_map.mp ht
    have hk : chunks[c.2]? = some c.1 := List.mem_zipIdx_iff_getElem?.mp hc
    refine ⟨?_, (chunk_of_splitVector hlen he hroom hrun hk).2.1⟩
    rw [Int.toNat_natCast]
    exact Nat.dvd_mul_left e c.2

theorem fits_of_started {e : ℕ} (hroom : e < 2 ^ 31) {l : List (UInt16 × List BurstBlock)}
    {started : List (List PredictTask)} (h : List.Forall₂ (fun d tasks => ∃ fuel,
      deviceTasks e fuel d.2 = some (.ok tasks)) l started) :
    ∀ t ∈ started.flatten, e ∣ t.index.toNat ∧ t.smallGroups.length ≤ e := by
  induction h with
  | nil => exact fun t ht => absurd ht List.not_mem_nil
  | cons hd _ ih =>
    obtain ⟨fuel, hrun⟩ := hd
    intro t ht
    rw [List.flatten_cons, List.mem_append] at ht
    exact ht.elim (fits_of_deviceTasks hroom hrun t) (ih t)

omit [LinearOrder F] [Elementary F] in
theorem Ran.fits {env : PredictEnv F} {testset : UnorderedMap UInt16 (List BurstBlock)}
    {tasks : List PredictTask} {calls : List (ScoreCall F)} (h : Ran env testset tasks calls)
    (type : String) : ∀ s ∈ stretches env.cfg.filterParam type tasks,
      Tiling.Fits (epochSlotNum env.cfg.divisionParam) s := by
  intro s hs
  obtain ⟨t, ht, hstretch⟩ := List.mem_filterMap.mp hs
  obtain ⟨started, hall, rfl⟩ := h.started
  obtain ⟨hdvd, hlen⟩ := fits_of_started (epochSlotNum_lt _) hall t ht
  rw [PredictTask.stretch] at hstretch
  split at hstretch
  · split_ifs at hstretch
    cases hstretch
    exact ⟨hdvd, (List.countP_le_length).trans hlen⟩
  · cases hstretch

/-- **The model of `Predict` is one of the runs**: that in which the tasks come one after
another. -/
theorem predict_ran {lib : StdLib} {cfg : Config F} {context : Context}
    {classifier : KBurstClassifier} {statics : PolicyStatics} {cache : PredictionCache F}
    {testset : UnorderedMap UInt16 (List BurstBlock)}
    {s : Score F × PolicyStatics × PredictionCache F}
    (h : predict lib cfg context classifier statics cache testset = .ok s) :
    let env : PredictEnv F :=
      { lib, cfg, context, train := classifier.train
        blockLevelDistribution := statics.blockLevelDistribution }
    ∃ tasks calls, Ran env testset tasks calls ∧
      ScoreCall.performAll env calls {} = .ok s.1 := by
  intro env
  let e := epochSlotNum cfg.divisionParam
  rw [predict] at h
  split_ifs at h with hdefined
  let I : List (UInt16 × List BurstBlock) → Score F × PolicyStatics × PredictionCache F → Prop :=
    fun done s => ∃ started : List (List PredictTask),
      List.Forall₂ (fun d tasks => ∃ fuel, deviceTasks e fuel d.2 = some (.ok tasks)) done started ∧
      s.1.ReachedBy env (started.flatten.flatMap (PredictTask.entries cfg.filterParam))
  have hstart : I [] ({}, statics, cache) := ⟨[], .nil, [], rfl, rfl⟩
  obtain ⟨started, hall, calls, hrun, hentries⟩ := CheckedLoop.foldlM_inv (I := I)
    (lib.iterate testset) [] (fun done d s s' hd hs hstep => by
      obtain ⟨started, hall, hreached⟩ := hs
      have he : 0 < e := by
        refine Nat.pos_of_ne_zero fun hzero => hdefined (Or.inr ⟨hzero, fun hnil => ?_⟩)
        have hmem : d.1 ∈ testset.keys := lib.mem_of_mem_iterate hd
        rw [hnil] at hmem
        exact List.not_mem_nil hmem
      obtain ⟨chunks, hsplit, hreached'⟩ := predictOneDevice_reachedBy hreached hstep
      obtain ⟨hlen, chunks', hsplit', -, htasks⟩ := chunks_of_deviceTasks he (epochSlotNum_lt _)
        (show deviceTasks e (d.2.length + 1) d.2 = some (.ok (startTasks e chunks 0)) by
          rw [deviceTasks, hsplit]
          rfl)
      obtain rfl : chunks = chunks' := by
        rw [hsplit] at hsplit'
        exact Except.ok.inj (Option.some_inj.mp hsplit')
      refine ⟨started ++ [startTasks e chunks 0],
        List.rel_append hall (.cons ⟨d.2.length + 1, by rw [deviceTasks, hsplit]; rfl⟩ .nil), ?_⟩
      rw [List.flatten_append, List.flatten_singleton, List.flatMap_append, htasks,
        List.flatMap_map]
      exact hreached') hstart h
  exact ⟨started.flatten, calls, ⟨⟨started, hall, rfl⟩, List.Perm.of_eq hentries⟩, hrun⟩

/-- **When the result lines are filled.**  Whatever tasks a test set has, and in whatever order they
have run: if the tasks of each type are consecutive. -/
theorem resultLines_iff {env : PredictEnv F} {testset : UnorderedMap UInt16 (List BurstBlock)}
    {tasks : List PredictTask} {calls : List (ScoreCall F)} {score : Score F}
    (hran : Ran env testset tasks calls)
    (hrun : ScoreCall.performAll env calls {} = .ok score) :
    (∀ type, (score.sheetOf type).FillsLine) ↔
      ∀ type, Consecutive (epochSlotNum env.cfg.divisionParam)
        (stretches env.cfg.filterParam type tasks) := by
  refine forall_congr' fun type => ?_
  have hperm : (score.sheetOf type).indices.Perm
      (Tiling.cells (stretches env.cfg.filterParam type tasks)) := by
    rw [← entriesOf_flatMap]
    exact (ScoreCall.indices_perm hrun type).trans (hran.entries.filterMap _)
  rw [ScoreSheet.fillsLine_iff, ← Tiling.tiles_iff (hran.fits type), Tiling.Tiles,
    hperm.length_eq]
  exact ⟨hperm.symm.trans, hperm.trans⟩

/-! ## Lamps -/

/-- A prediction that takes a device for a lamp. -/
noncomputable def lampCall (e : String × ℕ) : ScoreCall ℝ :=
  .addPrediction e.1 (unanimous "lamp") e.2

theorem performAll_lampCalls {env : PredictEnv ℝ} (hlib : env.lib = .insertion)
    (entries : List (String × ℕ)) :
    ∃ score, ScoreCall.performAll env (entries.map lampCall) {} = .ok score := by
  refine ScoreCall.performAll_ok _ _ fun call hcall => ?_
  obtain ⟨e, -, rfl⟩ := List.mem_map.mp hcall
  rw [lampCall, outcome_unanimous hlib e.1 "lamp" e.2 (by decide)]
  rfl

theorem entries_lampCalls (entries : List (String × ℕ)) :
    (entries.map lampCall).filterMap ScoreCall.entry =
      entries.map fun e => (removeSuffix e.1, e.2) := by
  rw [List.filterMap_map]
  exact congrFun List.filterMap_eq_map entries

/-- Ten blocks of one lamp are two tasks. -/
def tenTasks : List PredictTask :=
  [⟨List.replicate 8 smallBlock, 0⟩, ⟨List.replicate 2 smallBlock, 8⟩]

/-- **Ten blocks of one lamp**, whose second task has run first. -/
theorem resultLines_tenBlocks : ∃ calls score, Ran lampEnv (oneDevice 10) tenTasks calls ∧
    ScoreCall.performAll lampEnv calls {} = .ok score ∧
      ∀ type, (score.sheetOf type).FillsLine := by
  let entries : List (String × ℕ) :=
    ([8, 9] ++ List.range 8).map fun i => ("lamp", i)
  obtain ⟨score, hrun⟩ := performAll_lampCalls (show lampEnv.lib = .insertion from rfl) entries
  have hran : Ran lampEnv (oneDevice 10) tenTasks (entries.map lampCall) := by
    refine ⟨⟨[tenTasks], .cons ⟨11, by decide +kernel⟩ .nil, rfl⟩, ?_⟩
    rw [entries_lampCalls]
    decide +kernel
  refine ⟨_, score, hran, hrun, (resultLines_iff hran hrun).mpr fun type => ?_⟩
  have hfilter : lampEnv.cfg.filterParam = {} := rfl
  have hslots : epochSlotNum lampEnv.cfg.divisionParam = 8 := rfl
  rw [hfilter, hslots]
  by_cases htype : type = "lamp"
  · have hstretches : stretches {} type tenTasks = [⟨0, 8⟩, ⟨8, 2⟩] := by
      rw [htype]
      decide +kernel
    rw [hstretches]
    exact ⟨by simp, by simp⟩
  · have hstretches : stretches {} type tenTasks = [] := by
      have hlamp : removeSuffix "lamp" = "lamp" := by decide +kernel
      simp [stretches, tenTasks, PredictTask.stretch, frontBurst, smallBlock, atChecked?, hlamp,
        Ne.symm htype, bind, Except.bind]
    rw [hstretches]
    exact ⟨.nil, by simp⟩

/-- A block with some packets of one length. -/
def packetBlock (instanceLabel : String) (pktNum : ℕ) : BurstBlock :=
  [⟨1, pktNum, instanceLabel, .zero, .zero, [(100, pktNum)]⟩]

/-- The registry of two lamps. -/
noncomputable def twoLampsEnv : PredictEnv ℝ :=
  { lampEnv with
    context := { deviceVec := [⟨true, 0, "lamp-1", "lamp", "", "10.0.0.2"⟩,
      ⟨true, 1, "lamp-2", "lamp", "", "10.0.0.3"⟩] } }

/-- Two lamps with one block each. -/
def twoLamps : UnorderedMap UInt16 (List BurstBlock) :=
  AList.insert 0 [packetBlock "lamp-1" 5] (AList.singleton 1 [packetBlock "lamp-2" 5])

/-- A lamp with nine blocks, of which the first has only one packet. -/
def nineBlocks : UnorderedMap UInt16 (List BurstBlock) :=
  AList.singleton 0 (packetBlock "lamp-1" 1 :: List.replicate 8 (packetBlock "lamp-1" 5))

/-- Blocks of fewer than two packets are left out. -/
noncomputable def filterEnv : PredictEnv ℝ :=
  { lampEnv with cfg := { filterParam := { minBlockPktnum := 2 } } }

/-- **Both lamps number from zero**, and their type has the index zero twice.  Of nine blocks
without the first one, seven are numbered from zero and one from eight, which is past the end. -/
theorem not_resultLines_lamps :
    (∃ tasks calls score, Ran twoLampsEnv twoLamps tasks calls ∧
      ScoreCall.performAll twoLampsEnv calls {} = .ok score ∧
        ¬ (score.sheetOf "lamp").FillsLine) ∧
    ∃ tasks calls score, Ran filterEnv nineBlocks tasks calls ∧
      ScoreCall.performAll filterEnv calls {} = .ok score ∧
        (score.sheetOf "lamp").toResultIndex = .error .undefined := by
  constructor
  · let entries : List (String × ℕ) := [("lamp-1", 0), ("lamp-2", 0)]
    obtain ⟨score, hrun⟩ :=
      performAll_lampCalls (show twoLampsEnv.lib = .insertion from rfl) entries
    refine ⟨[⟨[packetBlock "lamp-1" 5], 0⟩, ⟨[packetBlock "lamp-2" 5], 0⟩], _, score,
      ⟨⟨[[⟨[packetBlock "lamp-1" 5], 0⟩], [⟨[packetBlock "lamp-2" 5], 0⟩]],
        .cons ⟨2, by decide +kernel⟩ (.cons ⟨2, by decide +kernel⟩ .nil), rfl⟩, ?_⟩, hrun, ?_⟩
    · rw [entries_lampCalls]
      decide +kernel
    · intro hfills
      have hperm := ScoreCall.indices_perm hrun "lamp"
      rw [entries_lampCalls] at hperm
      have hnodup := hperm.nodup_iff.mp (hfills.indices.nodup_iff.mpr List.nodup_range)
      revert hnodup
      decide +kernel
  · let entries : List (String × ℕ) := ((List.range 7) ++ [8]).map fun i => ("lamp-1", i)
    obtain ⟨score, hrun⟩ := performAll_lampCalls (show filterEnv.lib = .insertion from rfl) entries
    refine ⟨[⟨packetBlock "lamp-1" 1 :: List.replicate 7 (packetBlock "lamp-1" 5), 0⟩,
      ⟨[packetBlock "lamp-1" 5], 8⟩], _, score,
      ⟨⟨[[⟨packetBlock "lamp-1" 1 :: List.replicate 7 (packetBlock "lamp-1" 5), 0⟩,
          ⟨[packetBlock "lamp-1" 5], 8⟩]],
        .cons ⟨10, by decide +kernel⟩ .nil, rfl⟩, ?_⟩, hrun, ?_⟩
    · rw [entries_lampCalls]
      decide +kernel
    · have hperm := ScoreCall.indices_perm hrun "lamp"
      rw [entries_lampCalls] at hperm
      refine ScoreSheet.toResultIndex_past ⟨8, hperm.mem_iff.mpr (by decide +kernel), ?_⟩
      rw [hperm.length_eq]
      decide +kernel

end Classifier
end BurstIoT
