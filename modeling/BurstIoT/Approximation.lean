import BurstIoT.DistanceMetric
import BurstIoT.Recall

/-!
# What merging costs a search

Merging keeps one burst for many, so a search no longer meets every training burst.  It loses
little: by the triangle inequality a test burst is about as far from the kept burst as from the one
that it stands for, and the distance returned is at most that of any training burst, up to the
ratios of the lengths and the radius of merging (`predictBurst_approximates`).  Recalling a training
burst is the case of a test burst at distance zero.
-/

namespace BurstIoT
namespace Burst

/-! ## Equal bursts, seen from another one -/

theorem packetDetail_eq_of_same {a b : Burst} (ha : a.Counted) (hb : b.Counted)
    (h : a.same b = true) : a.packetDetail = b.packetDetail := by
  obtain ⟨huni, -, hdetail⟩ := same_iff.mp h
  refine List.ext_getElem? fun i => ?_
  by_cases hi : i < a.uniPktNum.toNat
  · exact hdetail i hi
  · have hia : a.packetDetail.length ≤ i := by
      rw [← ha.uniPktNum]
      exact not_lt.mp hi
    have hib : b.packetDetail.length ≤ i := by
      rw [← hb.uniPktNum, ← huni]
      exact not_lt.mp hi
    rw [List.getElem?_eq_none hia, List.getElem?_eq_none hib]

theorem nearValue_congr {c a b : Burst} (ha : a.Counted) (hb : b.Counted) (h : a.same b = true) :
    nearValue c a = nearValue c b := by
  have hpkt := (same_iff.mp h).2.1
  have hsigs : a.sigs = b.sigs := congrArg Tally.total (packetDetail_eq_of_same ha hb h)
  rw [nearValue, nearValue, lengthRatio, lengthRatio, hpkt, hsigs]

end Burst

namespace Recall

open TrainStore TrainOrder Classifier Merging Prediction Interleaving

variable {lib : StdLib} {cfg : Config ℝ}

/-! ## Near a training burst -/

/-- Bursts at distance less than one are within the cut-off. -/
theorem not_far_of_distance_lt {a b : Burst} {d : ℝ} (hd : a.distance b = .ok d) (hlt : d < 1) :
    ¬ Burst.Far a b := by
  intro hfar
  obtain rfl : (1 : ℝ) = d := Except.ok.inj ((Burst.distance_of_far hfar).symm.trans hd)
  exact lt_irrefl _ hlt

/-- **The kept burst is about as far as the burst it stands for.** -/
theorem distance_le_of_standsFor {burstGroups : List BurstBlock}
    (hsound : ∀ b ∈ burstGroups.flatten,
      b.WellFormed ∧ b.uniPktNum.toNat ≤ 101 ∧ 1 ≤ b.pktNum)
    {k p : BurstPtr} (hk : k ∈ pointers burstGroups) (hp : p ∈ pointers burstGroups)
    (hstands : StandsFor lib cfg burstGroups k p)
    (hhash : ∀ b ∈ burstGroups.flatten, b.hash lib = p.burst.hash lib → p.burst.same b = true)
    {testBurst : Burst} (htest : testBurst.WellFormed) (hpkt : 1 ≤ testBurst.pktNum)
    (hnear : ¬ Burst.Far testBurst p.burst) (hnear' : ¬ Burst.Far testBurst k.burst) :
    ∃ dp dk : ℝ, testBurst.distance p.burst = .ok dp ∧ testBurst.distance k.burst = .ok dk ∧
      dk ≤ Real.sqrt (Burst.lengthRatio p.burst k.burst) * dp +
        Real.sqrt (Burst.lengthRatio testBurst p.burst) * (7 / 10) ∧
      (cfg.trainParam.enableMergeIdentical = false → dk = dp) := by
  have hptr : ∀ {p : BurstPtr}, p ∈ pointers burstGroups → p.burst ∈ burstGroups.flatten := by
    intro p hp
    rw [← map_burst_pointers]
    exact List.mem_map_of_mem hp
  obtain ⟨hpwf, hproom, hppkt⟩ := hsound _ (hptr hp)
  obtain ⟨hkwf, hkroom, hkpkt⟩ := hsound _ (hptr hk)
  obtain ⟨d, hd, hlt, hoff⟩ := distance_of_standsFor
    (fun b hb => ⟨(hsound b hb).1, (hsound b hb).2.1⟩) hk hstands hhash
    (Burst.same_refl p.burst) (Burst.not_far_iff.mp hnear).2.2.2
  have hpk : ¬ Burst.Far p.burst k.burst := not_far_of_distance_lt hd (hlt.trans (by norm_num))
  obtain rfl : Burst.nearValue p.burst k.burst = d :=
    Except.ok.inj ((Burst.distance_of_near hpwf hkwf hkroom hpk).symm.trans hd)
  refine ⟨_, _, Burst.distance_of_near htest hpwf hproom hnear,
    Burst.distance_of_near htest hkwf hkroom hnear', ?_, fun h => ?_⟩
  · refine (Burst.nearValue_triangle hpkt hppkt hkpkt).trans (add_le_add_right ?_ _)
    exact mul_le_mul_of_nonneg_left hlt.le (Real.sqrt_nonneg _)
  · exact (Burst.nearValue_congr hpwf.counted hkwf.counted (hoff h)).symm

/-- **A search over the kept bursts is nearly one over all training bursts.**  Whatever interleaving
of the training tasks has gone through: for each training burst `p` that a kept burst stands for and
that shares its hash with equal bursts only, a test burst is answered with at most its distance
from `p`, scaled by the ratios of the lengths and increased by the radius of merging, if the cell of
the kept burst is scanned.  Without `MergeIdenticalKeys` it is answered with at most its distance
from `p`. -/
theorem predictBurst_approximates {statics : PolicyStatics}
    {trainset : UnorderedMap UInt16 (List BurstBlock)} {tasks : List TrainTask}
    (htasks : trainTasks lib cfg trainset = .ok tasks) {schedule : List ℕ}
    {log : List TrainAction}
    (hlog : interleave (tasks.map (TrainTask.actions lib)) schedule = some log) {s : TrainState}
    (hrun : log.foldlM (perform cfg.divisionParam) (TrainState.init cfg statics trainset) = .ok s)
    {d : UInt16} {burstGroups : List BurstBlock} (hd : trainset.lookup d = some burstGroups)
    (hsound : ∀ b ∈ burstGroups.flatten,
      b.WellFormed ∧ b.uniPktNum.toNat ≤ 101 ∧ 1 ≤ b.pktNum) :
    ∃ map rep, Classifier.trainMap lib cfg burstGroups = .ok map ∧
      Covers lib cfg burstGroups map rep ∧
      ∀ p ∈ pointers burstGroups, ∀ k, rep p = some k →
        (∀ b ∈ burstGroups.flatten, b.hash lib = p.burst.hash lib → p.burst.same b = true) →
        ∀ testBurst, Testable cfg.divisionParam testBurst → testBurst.WellFormed →
          ¬ Burst.Far testBurst p.burst → ¬ Burst.Far testBurst k.burst →
          Scans cfg.divisionParam cfg.classifyParam testBurst k.burst →
        ∀ cache, Memo.Right
            (Prediction.search cfg.divisionParam cfg.classifyParam s.classifier.train)
            Prediction.answered cache →
          ∃ n cache' dp, predictBurst lib cfg.divisionParam cfg.classifyParam s.classifier.train
              cache testBurst = .ok (n, cache') ∧ testBurst.distance p.burst = .ok dp ∧
            n.distance ≤ Real.sqrt (Burst.lengthRatio p.burst k.burst) * dp +
              Real.sqrt (Burst.lengthRatio testBurst p.burst) * (7 / 10) ∧
            (cfg.trainParam.enableMergeIdentical = false → n.distance ≤ dp) := by
  obtain ⟨hfiled, htrained, -⟩ := trained_of_run htasks hlog hrun
  obtain ⟨t, ht, -, hmap⟩ := exists_task htasks hd
  obtain ⟨rep, hcovers⟩ := covers_trainMap hmap
  refine ⟨t.trainMap, rep, hmap, hcovers, ?_⟩
  intro p hp k hk hhash testBurst htest hwf hnear hnear' hscans cache hcache
  obtain ⟨hkmap, hstands⟩ := hcovers.stands p hp k hk
  have hcell : k.burst ∈ cell s.classifier.train (rowOf k.burst)
      (columnOf cfg.divisionParam k.burst) :=
    (mem_cell_iff htrained).mpr ⟨⟨t, ht, k, hkmap, rfl⟩, rfl, rfl⟩
  have hstorable := (hfiled.cells _ _ _ hcell).1
  obtain ⟨n, hsearch, hn⟩ : ∃ n, Prediction.search cfg.divisionParam cfg.classifyParam
      s.classifier.train testBurst = .ok n ∧ _ := search_least hfiled hstorable.column htest
  obtain ⟨dp, dk, hdp, hdk, hle, hexact⟩ := distance_le_of_standsFor hsound
    (hcovers.self k hkmap).1 hp hstands hhash hwf htest.pktNum hnear hnear'
  rcases predictBurst_eq hcache testBurst with ⟨n', cache', hpredict, hsearch', -⟩ |
    ⟨fault, -, herror⟩
  · obtain rfl : n = n' := Except.ok.inj (hsearch.symm.trans hsearch')
    have hdist := le_of_scans hfiled hn hcell hscans hdk
    exact ⟨n, cache', dp, hpredict, hdp, hdist.trans hle, fun hoff => hdist.trans (hexact hoff).le⟩
  · rw [hsearch] at herror
    cases herror

/-- A burst like that of the lamp, twice as long. -/
def doubleBurst : Burst where
  uniPktNum := 1
  pktNum := 4
  instanceLabel := "lamp"
  firstPacketStamp := .zero
  lastPacketStamp := .zero
  packetDetail := [(60, 4)]

theorem wellFormed_double : doubleBurst.WellFormed :=
  ⟨by decide, by decide, by decide, by decide⟩

theorem scans_double : Scans {} ({} : TestParam ℝ) doubleBurst lampBurst := by
  have hdouble : Fits {} ({} : TestParam ℝ) doubleBurst :=
    ⟨by decide, by decide, by decide, by decide, by decide, by decide, by decide⟩
  exact (scans_iff hdouble fits_lampBurst).mpr ⟨Or.inr ⟨by decide, by decide⟩,
    Or.inr ⟨by decide, by decide, Or.inl ⟨by decide, by decide⟩⟩⟩

/-- The longer burst is answered about as if the second burst of the lamp had been kept. -/
theorem predictBurst_approximates_lampAgain : ∃ s,
    homeLog.foldlM (perform {}) (TrainState.init ({} : Config ℝ) {} homeSet) = .ok s ∧
      ∃ (n : Nearest ℝ) (cache' : PredictionCache ℝ) (dp : ℝ),
        predictBurst .insertion {} {} s.classifier.train [] doubleBurst = .ok (n, cache') ∧
          doubleBurst.distance lampAgain = .ok dp ∧
          n.distance ≤ Real.sqrt (Burst.lengthRatio lampAgain lampBurst) * dp +
            Real.sqrt (Burst.lengthRatio doubleBurst lampAgain) * (7 / 10) := by
  obtain ⟨s, hrun⟩ := run_home
  obtain ⟨map, rep, hmap, hcovers, happrox⟩ :=
    predictBurst_approximates trainTasks_home interleave_home hrun (d := 0) rfl sound_lamp
  obtain ⟨n, cache', dp, hpredict, hdp, hle, -⟩ := happrox ⟨1, lampAgain⟩
    (List.mem_cons_of_mem _ List.mem_cons_self) ⟨0, lampBurst⟩ (rep_lampAgain hmap hcovers)
    (fun b hb _ => same_lamp b hb)
    doubleBurst ⟨wellFormed_double.counted, by decide, by decide⟩ wellFormed_double (by decide)
    (by decide) scans_double [] (fun e he => absurd he List.not_mem_nil)
  exact ⟨s, hrun, n, cache', dp, hpredict, hdp, hle⟩

end Recall
end BurstIoT
