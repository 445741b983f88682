import BurstIoT.DistanceSymmetry
import BurstIoT.MergeCoverage
import BurstIoT.SearchWindow
import BurstIoT.TrainOrder

/-!
# Recalling the training bursts

A test burst that equals a burst of the training half should be recognised.  After training, in any
order of the tasks, the table holds the kept bursts of every device in their cells, and nothing else
(`mem_cell_iff`).  A training burst for which a kept burst stands is the same as it, or near to it
by the distance of merging; so a search that scans the cell of the kept burst returns less than
`7 / 10`, and zero if it is the same (`predictBurst_recalls`).
-/

namespace BurstIoT
namespace Recall

open TrainStore TrainOrder Classifier Merging Prediction Interleaving

/-! ## What the table holds -/

section Table

variable {F : Type} [Field F] [LinearOrder F] [Elementary F] {lib : StdLib} {cfg : Config F}
  {statics : PolicyStatics} {trainset : UnorderedMap UInt16 (List BurstBlock)}
  {tasks : List TrainTask} {schedule : List ℕ} {log : List TrainAction} {s : TrainState}

theorem mem_merged {t : TrainTask} {b : Burst} :
    b ∈ t.merged lib ↔ ∃ k ∈ t.trainMap, k.burst = b := by
  rw [TrainTask.merged, List.mem_map]
  constructor
  · rintro ⟨e, he, rfl⟩
    exact ⟨e.1, lib.mem_of_mem_iterate he, rfl⟩
  · rintro ⟨k, hk, rfl⟩
    obtain ⟨n, hn⟩ := lib.exists_mem_iterate hk
    exact ⟨(k, n), hn, rfl⟩

/-- The task of a device. -/
theorem exists_task (htasks : trainTasks lib cfg trainset = .ok tasks) {d : UInt16}
    {burstGroups : List BurstBlock} (hd : trainset.lookup d = some burstGroups) :
    ∃ t ∈ tasks, t.burstGroups = burstGroups ∧
      Classifier.trainMap lib cfg burstGroups = .ok t.trainMap := by
  have hmem : (d, burstGroups) ∈ tasks.map fun t => (t.deviceId, t.burstGroups) := by
    rw [map_trainTasks htasks]
    exact lib.mem_iterate.mpr hd
  obtain ⟨t, ht, heq⟩ := List.mem_map.mp hmem
  obtain ⟨-, rfl⟩ := Prod.mk.inj heq
  exact ⟨t, ht, rfl, (TrainTask.make_eq_ok ((mapM_make_eq_ok htasks).2 t ht)).2.2⟩

omit [LinearOrder F] [Elementary F] in
/-- **The cells hold the kept bursts**, of all devices. -/
theorem mem_cell_iff (htrained : Trained lib cfg statics trainset tasks s) {i j : ℕ} {b : Burst} :
    b ∈ cell s.classifier.train i j ↔
      (∃ t ∈ tasks, ∃ k ∈ t.trainMap, k.burst = b) ∧
        rowOf b = i ∧ columnOf cfg.divisionParam b = j := by
  rw [(htrained.cells i j).mem_iff, List.mem_filter, List.mem_flatMap, decide_eq_true_iff]
  simp only [mem_merged]

/-- **A stored burst is a training burst.** -/
theorem exists_block_of_cell (htasks : trainTasks lib cfg trainset = .ok tasks)
    (htrained : Trained lib cfg statics trainset tasks s) {i j : ℕ} {t : Burst}
    (ht : t ∈ cell s.classifier.train i j) :
    ∃ d blocks, trainset.lookup d = some blocks ∧ ∃ block ∈ blocks, t ∈ block := by
  obtain ⟨⟨task, htask, k, hk, rfl⟩, -, -⟩ := (mem_cell_iff htrained).mp ht
  have hmake := (mapM_make_eq_ok htasks).2 task htask
  obtain ⟨rep, hcovers⟩ := covers_trainMap (TrainTask.make_eq_ok hmake).2.2
  obtain ⟨block, hblock, hmem⟩ := exists_block_of_mem_pointers (hcovers.self k hk).1
  refine ⟨task.deviceId, task.burstGroups, ?_, block, hblock, hmem⟩
  rw [← lib.mem_iterate, ← map_trainTasks htasks]
  exact List.mem_map_of_mem htask

end Table

/-! ## Near bursts -/

variable {lib : StdLib} {cfg : Config ℝ}

section Near

variable {div : DivisionParam} {param : TestParam ℝ} {train : List (List (List Burst))}
  {testBurst : Burst}

/-- The coordinates of a burst that is scanned lie in the window. -/
theorem mem_window_of_scans {b : Burst} (hb : Storable div b)
    (hscans : Scans div param testBurst b) :
    (rowOf b : ℤ) ∈ loopRange (iMin param testBurst) (iMax div param testBurst) ∧
      (columnOf div b : ℤ) ∈ loopRange (jMin div param testBurst) (jMax div param testBurst) := by
  rw [Scans, cellOf_of_storable hb, windowCells, List.mem_flatMap] at hscans
  obtain ⟨i, hi, hscans⟩ := hscans
  obtain ⟨j, hj, heq⟩ := List.mem_map.mp hscans
  obtain ⟨rfl, rfl⟩ := Prod.mk.inj heq
  exact ⟨hi, hj⟩

variable (div) in
/-- Equal bursts have the same coordinates. -/
theorem coordinates_congr {a b : Burst} (h : a.same b = true) :
    rowOf a = rowOf b ∧ columnOf div a = columnOf div b := by
  obtain ⟨huni, hpkt, -⟩ := Burst.same_iff.mp h
  rw [rowOf, rowOf, columnOf, columnOf, Burst.intPktNum, Burst.intPktNum, huni, hpkt]
  exact ⟨rfl, rfl⟩

/-- A burst of the window is at least as far as the distance returned. -/
theorem le_of_scans (h : Filed div train) {n : Nearest ℝ}
    (hn : RunningMinimum.Least 100 (distanceTo testBurst) (scanned div param train testBurst)
      (n.distance, n.nearestVec)) {b : Burst}
    (hb : b ∈ cell train (rowOf b) (columnOf div b)) (hscans : Scans div param testBurst b) {d : ℝ}
    (hd : testBurst.distance b = .ok d) : n.distance ≤ d := by
  obtain ⟨hrow, hcolumn⟩ := mem_window_of_scans (h.cells _ _ b hb).1 hscans
  rw [← distanceTo_eq hd]
  exact hn.le b (mem_scanned.mpr ⟨_, hrow, _, hcolumn, by simpa using hb⟩)

end Near

/-- **A kept burst is near to what it stands for**, unless a burst with another hash stands between:
seen from a test burst that equals `p`. -/
theorem distance_of_standsFor {burstGroups : List BurstBlock}
    (hsound : ∀ b ∈ burstGroups.flatten, b.WellFormed ∧ b.uniPktNum.toNat ≤ 101)
    {k p : BurstPtr} (hk : k ∈ pointers burstGroups) (hstands : StandsFor lib cfg burstGroups k p)
    (hhash : ∀ b ∈ burstGroups.flatten, b.hash lib = p.burst.hash lib → p.burst.same b = true)
    {testBurst : Burst} (hsame : testBurst.same p.burst = true)
    (hfits : testBurst.pktNum + 120 < 2 ^ 31) :
    ∃ d : ℝ, testBurst.distance k.burst = .ok d ∧ d < 7 / 10 ∧
      (cfg.trainParam.enableMergeIdentical = false → testBurst.same k.burst = true) := by
  have hptr : ∀ {p : BurstPtr}, p ∈ pointers burstGroups → p.burst ∈ burstGroups.flatten := by
    intro p hp
    rw [← map_burst_pointers]
    exact List.mem_map_of_mem hp
  obtain ⟨q, hfirst, hkq⟩ := hstands
  have hq := hptr (mem_pointers_of_mem_mergeStrictHash (firstOfHash_eq_some.mp hfirst).1)
  have hqhash : q.burst.hash lib = p.burst.hash lib :=
    eq_of_beq (sameHash_of_firstOfHash hfirst)
  have htest : testBurst.same q.burst = true :=
    Burst.same_trans hsame (hhash q.burst hq hqhash)
  have hsameCase : k = q → ∃ d : ℝ, testBurst.distance k.burst = .ok d ∧ d < 7 / 10 ∧
      (cfg.trainParam.enableMergeIdentical = false → testBurst.same k.burst = true) := by
    rintro rfl
    refine ⟨0, ?_, by norm_num, fun _ => htest⟩
    exact Burst.distance_of_same htest (hsound _ hq).1.counted (hsound _ hq).2
      ((Burst.same_iff.mp htest).2.1 ▸ hfits)
  rcases hkq with heq | ⟨hon, heq | ⟨-, d, hd, hnear⟩⟩
  · exact hsameCase heq
  · exact hsameCase heq
  · obtain ⟨hkwf, hkroom⟩ := hsound _ (hptr hk)
    obtain ⟨hqwf, hqroom⟩ := hsound _ hq
    refine ⟨d, ?_, ?_, fun hoff => ?_⟩
    · rw [Burst.distance_congr htest, Burst.distance_comm hqwf hkwf hqroom hkroom]
      exact hd
    · rcases hnear with hnear | ⟨-, hnear⟩
      · exact hnear.trans (by norm_num)
      · exact hnear
    · rw [hon] at hoff
      cases hoff

/-- **A training burst is recalled.**  Whatever interleaving of the training tasks has gone through,
a kept burst stands for each burst of a device, but for the rarest ones when the map is full.  A
test burst that equals a training burst, where no other burst shares its hash and the `int` has room
for the cut-off, is answered with a distance below `7 / 10` if the cell of the kept burst is
scanned; without `MergeIdenticalKeys` the distance is zero, and the kept burst is among those
returned. -/
theorem predictBurst_recalls {statics : PolicyStatics}
    {trainset : UnorderedMap UInt16 (List BurstBlock)} {tasks : List TrainTask}
    (htasks : trainTasks lib cfg trainset = .ok tasks) {schedule : List ℕ}
    {log : List TrainAction}
    (hlog : interleave (tasks.map (TrainTask.actions lib)) schedule = some log) {s : TrainState}
    (hrun : log.foldlM (perform cfg.divisionParam) (TrainState.init cfg statics trainset) = .ok s)
    {d : UInt16} {burstGroups : List BurstBlock} (hd : trainset.lookup d = some burstGroups)
    (hsound : ∀ b ∈ burstGroups.flatten, b.WellFormed ∧ b.uniPktNum.toNat ≤ 101) :
    ∃ map rep, Classifier.trainMap lib cfg burstGroups = .ok map ∧
      Covers lib cfg burstGroups map rep ∧
      ∀ p ∈ pointers burstGroups, ∀ k, rep p = some k →
        (∀ b ∈ burstGroups.flatten, b.hash lib = p.burst.hash lib → p.burst.same b = true) →
        ∀ testBurst, Testable cfg.divisionParam testBurst → testBurst.same p.burst = true →
          testBurst.pktNum + 120 < 2 ^ 31 →
          Scans cfg.divisionParam cfg.classifyParam testBurst k.burst →
        ∀ cache, Memo.Right
            (Prediction.search cfg.divisionParam cfg.classifyParam s.classifier.train)
            Prediction.answered cache →
          ∃ n cache', predictBurst lib cfg.divisionParam cfg.classifyParam s.classifier.train
              cache testBurst = .ok (n, cache') ∧ n.distance < 7 / 10 ∧
            (cfg.trainParam.enableMergeIdentical = false →
              n.distance = 0 ∧ k.burst ∈ n.nearestVec) := by
  obtain ⟨hfiled, htrained, -⟩ := trained_of_run htasks hlog hrun
  obtain ⟨t, ht, -, hmap⟩ := exists_task htasks hd
  obtain ⟨rep, hcovers⟩ := covers_trainMap hmap
  refine ⟨t.trainMap, rep, hmap, hcovers, ?_⟩
  intro p hp k hk hhash testBurst htest hsame hfits hscans cache hcache
  obtain ⟨hkmap, hstands⟩ := hcovers.stands p hp k hk
  have hcell : k.burst ∈ cell s.classifier.train (rowOf k.burst)
      (columnOf cfg.divisionParam k.burst) :=
    (mem_cell_iff htrained).mpr ⟨⟨t, ht, k, hkmap, rfl⟩, rfl, rfl⟩
  have hstorable := (hfiled.cells _ _ _ hcell).1
  obtain ⟨n, hsearch, hn⟩ : ∃ n, Prediction.search cfg.divisionParam cfg.classifyParam
      s.classifier.train testBurst = .ok n ∧ _ := search_least hfiled hstorable.column htest
  obtain ⟨dist, hdist, hnear, hexact⟩ :=
    distance_of_standsFor hsound (hcovers.self k hkmap).1 hstands hhash hsame hfits
  rcases predictBurst_eq hcache testBurst with ⟨n', cache', hpredict, hsearch', -⟩ |
    ⟨fault, -, herror⟩
  · obtain rfl : n = n' := Except.ok.inj (hsearch.symm.trans hsearch')
    have hle := le_of_scans hfiled hn hcell hscans hdist
    refine ⟨n, cache', hpredict, hle.trans_lt hnear, fun hoff => ?_⟩
    obtain ⟨hrow, hcolumn⟩ := mem_window_of_scans hstorable hscans
    obtain ⟨hrows, hcolumns⟩ := coordinates_congr cfg.divisionParam (hexact hoff)
    rw [← hrows] at hrow
    rw [← hcolumns] at hcolumn
    exact same_mem_nearestVec hfiled htest hn hrow hcolumn hfits hcell (hexact hoff)
  · rw [hsearch] at herror
    cases herror

/-! ## The home -/

theorem wellFormed_lampBurst : lampBurst.WellFormed :=
  ⟨by decide, by decide, by decide, by decide⟩

theorem wellFormed_lampAgain : lampAgain.WellFormed :=
  ⟨by decide, by decide, by decide, by decide⟩

theorem wellFormed_homePlug : homePlug.WellFormed :=
  ⟨by decide, by decide, by decide, by decide⟩

theorem fits_lampBurst : Fits {} ({} : TestParam ℝ) lampBurst :=
  ⟨by decide, by decide, by decide, by decide, by decide, by decide, by decide⟩

/-- The burst of the lamp is in its own window. -/
theorem scans_lampBurst : Scans {} ({} : TestParam ℝ) lampBurst lampBurst :=
  (scans_iff fits_lampBurst fits_lampBurst).mpr ⟨Or.inr ⟨by decide, by decide⟩,
    Or.inr ⟨by decide, by decide, Or.inl ⟨by decide, by decide⟩⟩⟩

/-- So is the burst of the plug. -/
theorem scans_homePlug : Scans {} ({} : TestParam ℝ) homePlug homePlug := by
  have hfits : Fits {} ({} : TestParam ℝ) homePlug :=
    ⟨by decide, by decide, by decide, by decide, by decide, by decide, by decide⟩
  exact (scans_iff hfits hfits).mpr ⟨Or.inr ⟨by decide, by decide⟩,
    Or.inr ⟨by decide, by decide, Or.inl ⟨by decide, by decide⟩⟩⟩

/-- The two bursts of the lamp. -/
theorem sound_lamp : ∀ b ∈ [[lampBurst], [lampAgain]].flatten,
    b.WellFormed ∧ b.uniPktNum.toNat ≤ 101 ∧ 1 ≤ b.pktNum := by
  intro b hb
  rcases List.mem_cons.mp hb with rfl | hb
  · exact ⟨wellFormed_lampBurst, by decide, by decide⟩
  · obtain rfl : b = lampAgain := List.mem_singleton.mp hb
    exact ⟨wellFormed_lampAgain, by decide, by decide⟩

/-- They are the same. -/
theorem same_lamp : ∀ b ∈ [[lampBurst], [lampAgain]].flatten, lampAgain.same b = true := by
  decide

/-- The first of them stands for the second. -/
theorem rep_lampAgain {map : UnorderedMap BurstPtr ℕ} {rep : BurstPtr → Option BurstPtr}
    (hmap : Classifier.trainMap .insertion ({} : Config ℝ) [[lampBurst], [lampAgain]] = .ok map)
    (hcovers : Covers .insertion ({} : Config ℝ) [[lampBurst], [lampAgain]] map rep) :
    rep ⟨1, lampAgain⟩ = some ⟨0, lampBurst⟩ := by
  obtain rfl : map = homeLampTask.trainMap := (Except.ok.inj hmap).symm
  have hmem : (⟨1, lampAgain⟩ : BurstPtr) ∈ pointers [[lampBurst], [lampAgain]] :=
    List.mem_cons_of_mem _ List.mem_cons_self
  cases hrep : rep ⟨1, lampAgain⟩ with
  | none =>
    have hfull := (hcovers.leftOut _ hmem hrep).2.1
    exact absurd hfull (by decide)
  | some k =>
    have hk := (hcovers.stands _ hmem k hrep).1
    rcases (AList.mem_insert _).mp hk with rfl | hk
    · rfl
    · exact absurd hk (AList.notMem_empty k)

/-- The second burst of the lamp, which has not been kept, is recalled by the first. -/
theorem predictBurst_recalls_lampAgain : ∃ s,
    homeLog.foldlM (perform {}) (TrainState.init ({} : Config ℝ) {} homeSet) = .ok s ∧
      ∃ (n : Nearest ℝ) (cache' : PredictionCache ℝ),
        predictBurst .insertion {} {} s.classifier.train [] lampAgain = .ok (n, cache') ∧
          n.distance < 7 / 10 := by
  obtain ⟨s, hrun⟩ := run_home
  obtain ⟨map, rep, hmap, hcovers, hrecalls⟩ :=
    predictBurst_recalls trainTasks_home interleave_home hrun (d := 0) rfl
      fun b hb => ⟨(sound_lamp b hb).1, (sound_lamp b hb).2.1⟩
  have hscans : Scans {} ({} : TestParam ℝ) lampAgain lampBurst := scans_lampBurst
  obtain ⟨n, cache', hpredict, hnear, -⟩ := hrecalls ⟨1, lampAgain⟩
    (List.mem_cons_of_mem _ List.mem_cons_self) ⟨0, lampBurst⟩ (rep_lampAgain hmap hcovers)
    (fun b hb _ => same_lamp b hb) lampAgain
    ⟨wellFormed_lampAgain.counted, by decide, by decide⟩ (Burst.same_refl lampAgain) (by decide)
    hscans [] (fun e he => absurd he List.not_mem_nil)
  exact ⟨s, hrun, n, cache', hpredict, hnear⟩

end Recall
end BurstIoT
