import BurstIoT.DistanceBounds
import BurstIoT.Library.RunningMinimum
import BurstIoT.Prediction
import BurstIoT.TrainTable

/-!
# The nearest bursts

An uncached `PredictBurst` scans the cells of a window around the test burst (`scanned`), and keeps
the nearest bursts as a running minimum.  On a filled table and with room for the eight-bit bound of
the window, the cells lie inside the table; a distance is below the hundred from which the minimum
starts, so the search returns the least distance and exactly the bursts at it (`search_least`).

**Own cell.**  The window is meant to contain the cell of the test burst, so that a training burst
that equals it is returned at distance zero.  It does unless an `int` overflows on the way: the
number of packets is added to the range of the window, and to the cut-off of the distance.
`predictBurst_nearest_iff` says exactly when all of this is as meant.  It also needs a column: a
table without columns has no cell, and the window starts before the first one.
-/

namespace BurstIoT
namespace Prediction

open TrainStore

section Search

variable {F : Type} [Field F] {div : DivisionParam} {cfg : TestParam F}
  {train : List (List (List Burst))} {testBurst : Burst}

/-! ## The window -/

theorem mem_loopRange {start stop x : ℤ} : x ∈ loopRange start stop ↔ start ≤ x ∧ x < stop := by
  rw [loopRange, List.mem_map]
  constructor
  · rintro ⟨i, hi, rfl⟩
    rw [List.mem_range] at hi
    omega
  · rintro ⟨hle, hlt⟩
    refine ⟨(x - start).toNat, ?_, by omega⟩
    rw [List.mem_range]
    omega

theorem toNat_min (a b : UInt8) : (min a b).toNat = min a.toNat b.toNat := by
  show (if a ≤ b then a else b).toNat = _
  rw [min_def]
  split_ifs with h h' h'
  · rfl
  · exact absurd (UInt8.le_iff_toNat_le.mp h) h'
  · exact absurd (UInt8.le_iff_toNat_le.mpr h') h
  · rfl

/-- The rows of the window are rows of the table. -/
theorem row_bounds {i : ℤ} (hi : i ∈ loopRange (iMin cfg testBurst) (iMax div cfg testBurst)) :
    0 ≤ i ∧ i.toNat < div.burstMaxUnisig.toNat := by
  obtain ⟨hmin, hmax⟩ := mem_loopRange.mp hi
  rw [iMin] at hmin
  rw [iMax, toNat_min] at hmax
  omega

/-- The columns of the window are columns of the table, if it has any. -/
theorem column_bounds (hcolumn : 1 ≤ div.burstMaxPacketIndex) {j : ℤ}
    (hj : j ∈ loopRange (jMin div cfg testBurst) (jMax div cfg testBurst)) :
    0 ≤ j ∧ j.toNat < div.burstMaxPacketIndex.toNat := by
  obtain ⟨hmin, hmax⟩ := mem_loopRange.mp hj
  rw [jMin] at hmin
  rw [jMax] at hmax
  omega

/-- The row of the test burst lies in the window. -/
theorem rowOf_mem_window (huni : 1 ≤ testBurst.uniPktNum.toNat)
    (hmax : testBurst.uniPktNum ≤ div.burstMaxUnisig) (hrange : 1 ≤ cfg.unisigRange.toNat)
    (hroom : testBurst.uniPktNum.toNat + cfg.unisigRange.toNat ≤ 255) :
    (rowOf testBurst : ℤ) ∈ loopRange (iMin cfg testBurst) (iMax div cfg testBurst) := by
  have hmax : testBurst.uniPktNum.toNat ≤ div.burstMaxUnisig.toNat :=
    UInt8.le_iff_toNat_le.mp hmax
  have hsum : (testBurst.uniPktNum + cfg.unisigRange).toNat =
      testBurst.uniPktNum.toNat + cfg.unisigRange.toNat := by
    rw [UInt8.toNat_add]
    omega
  rw [mem_loopRange, iMin, iMax, toNat_min, hsum, rowOf]
  omega

/-- **The column of the test burst lies in the window** if there is a column, and the upper bound
does not overflow. -/
theorem columnOf_mem_window_iff (hpkt : 1 ≤ testBurst.intPktNum) (hrange : 1 ≤ cfg.packetnumRange)
    (hint : cfg.packetnumRange < 2 ^ 31) :
    (columnOf div testBurst : ℤ) ∈ loopRange (jMin div cfg testBurst) (jMax div cfg testBurst) ↔
      1 ≤ div.burstMaxPacketIndex ∧ testBurst.intPktNum + cfg.packetnumRange < 2 ^ 31 := by
  obtain ⟨⟨k, hk⟩, hmin, hmax⟩ := wrapInt_spec (testBurst.intPktNum + cfg.packetnumRange)
  have hlt : testBurst.intPktNum < 2 ^ 31 := toInt_lt testBurst.pktNum
  have hlow : wrapInt (testBurst.intPktNum - cfg.packetnumRange) =
      testBurst.intPktNum - cfg.packetnumRange := wrapInt_of_mem (by omega) (by omega)
  rw [mem_loopRange, jMin, jMax, columnOf, hlow]
  constructor
  · -- a sum that has wrapped is negative, and a window without columns ends at zero
    omega
  · omega

/-! ## The cells scanned -/

/-- The bursts in the cells of the window, in the order in which they are met. -/
def scanned (div : DivisionParam) (cfg : TestParam F) (train : List (List (List Burst)))
    (testBurst : Burst) : List Burst :=
  (loopRange (iMin cfg testBurst) (iMax div cfg testBurst)).flatMap fun i =>
    (loopRange (jMin div cfg testBurst) (jMax div cfg testBurst)).flatMap fun j =>
      cell train i.toNat j.toNat

theorem mem_scanned {b : Burst} : b ∈ scanned div cfg train testBurst ↔
    ∃ i ∈ loopRange (iMin cfg testBurst) (iMax div cfg testBurst),
      ∃ j ∈ loopRange (jMin div cfg testBurst) (jMax div cfg testBurst),
        b ∈ cell train i.toNat j.toNat := by
  simp only [scanned, List.mem_flatMap]

variable [LinearOrder F] [Elementary F]

theorem searchCell_eq (h : Filed div train) {i j : ℤ} (hi : 0 ≤ i)
    (hrow : i.toNat < div.burstMaxUnisig.toNat) (hj : 0 ≤ j)
    (hcolumn : j.toNat < div.burstMaxPacketIndex.toNat) (n : Nearest F) :
    searchCell train testBurst n i j =
      (cell train i.toNat j.toNat).foldlM (compare testBurst) n := by
  have hrow : i.toNat < train.length := by
    rw [h.rows]
    exact hrow
  have hcolumn : j.toNat < (train[i.toNat]).length := by
    rw [h.columns _ (List.getElem_mem hrow)]
    exact hcolumn
  rw [searchCell, atInt?_of_lt hi hrow]
  dsimp only [bind, Except.bind]
  rw [atInt?_of_lt hj hcolumn, cell, List.getElem?_eq_getElem hrow]
  show _ = ((train[i.toNat][j.toNat]?).getD []).foldlM _ n
  rw [List.getElem?_eq_getElem hcolumn, Option.getD_some]

/-- **The search indexes the table in range only**, and goes over the bursts that it scans. -/
theorem search_eq (h : Filed div train) (hcolumn : 1 ≤ div.burstMaxPacketIndex) :
    search div cfg train testBurst =
      (scanned div cfg train testBurst).foldlM (compare testBurst) ⟨100, []⟩ := by
  rw [search, scanned, ← CheckedLoop.foldlM_flatMap]
  refine CheckedLoop.foldlM_congr _ _ fun i hi n => ?_
  rw [← CheckedLoop.foldlM_flatMap]
  refine CheckedLoop.foldlM_congr _ _ fun j hj n => ?_
  obtain ⟨hi, hrow⟩ := row_bounds hi
  obtain ⟨hj, hcell⟩ := column_bounds hcolumn hj
  exact searchCell_eq h hi hrow hj hcell n

/-! ## A running minimum -/

/-- The distance to a burst, where it is defined. -/
def distanceTo (testBurst b : Burst) : F :=
  (testBurst.distance b : Except Fault F).toOption.getD 0

omit [LinearOrder F] in
theorem distanceTo_eq {b : Burst} {d : F} (h : testBurst.distance b = .ok d) :
    distanceTo testBurst b = d := by
  rw [distanceTo, h]
  rfl

/-- **One comparison is one iteration of a running minimum**, if the distance is defined. -/
theorem compare_eq {b : Burst} {d : F} (h : testBurst.distance b = .ok d) (n : Nearest F) :
    ∃ n', compare testBurst n b = .ok n' ∧
      (n'.distance, n'.nearestVec) = RunningMinimum.keep d (n.distance, n.nearestVec) b := by
  rw [compare, h, RunningMinimum.keep]
  dsimp only [bind, Except.bind]
  split_ifs
  · exact ⟨_, rfl, rfl⟩
  · exact ⟨_, rfl, rfl⟩
  · exact ⟨_, rfl, rfl⟩

/-- **The search goes through if every distance is defined**, and returns the least one. -/
theorem search_of_defined (h : Filed div train) (hcolumn : 1 ≤ div.burstMaxPacketIndex)
    (hdefined : ∀ b ∈ scanned div cfg train testBurst,
      testBurst.distance b = .ok (distanceTo testBurst b : F)) :
    ∃ n, search div cfg train testBurst = .ok n ∧
      RunningMinimum.Least 100 (distanceTo testBurst) (scanned div cfg train testBurst)
        (n.distance, n.nearestVec) := by
  rw [search_eq h hcolumn]
  refine CheckedLoop.foldlM_ok (I := fun done (n : Nearest F) =>
    RunningMinimum.Least 100 (distanceTo testBurst) done (n.distance, n.nearestVec))
    (fun done b rest hall n hn => ?_) .nil
  have hb : b ∈ scanned div cfg train testBurst := by
    rw [hall]
    exact List.mem_append_right _ List.mem_cons_self
  obtain ⟨n', hcompare, hkeep⟩ := compare_eq (hdefined b hb) n
  refine ⟨n', hcompare, ?_⟩
  rw [hkeep]
  exact hn.append b

/-- **A search that has gone through** has met defined distances only, and returns the least. -/
theorem least_of_search (h : Filed div train) (hcolumn : 1 ≤ div.burstMaxPacketIndex)
    {n : Nearest F} (hsearch : search div cfg train testBurst = .ok n) :
    (∀ b ∈ scanned div cfg train testBurst,
      testBurst.distance b = .ok (distanceTo testBurst b : F)) ∧
    RunningMinimum.Least 100 (distanceTo testBurst) (scanned div cfg train testBurst)
      (n.distance, n.nearestVec) := by
  rw [search_eq h hcolumn] at hsearch
  refine CheckedLoop.foldlM_inv (I := fun done (n : Nearest F) =>
    (∀ b ∈ done, testBurst.distance b = .ok (distanceTo testBurst b : F)) ∧
      RunningMinimum.Least 100 (distanceTo testBurst) done (n.distance, n.nearestVec))
    _ [] (fun done b n n' _ hn hcompare => ?_)
    ⟨fun _ hb => absurd hb List.not_mem_nil, .nil⟩ hsearch
  obtain ⟨d, hd, -⟩ := CheckedLoop.bind_eq_ok.mp hcompare
  obtain ⟨n'', hcompare', hkeep⟩ := compare_eq hd n
  obtain rfl : n'' = n' := Except.ok.inj (hcompare'.symm.trans hcompare)
  obtain rfl : distanceTo testBurst b = d := distanceTo_eq hd
  refine ⟨fun c hc => ?_, ?_⟩
  · rcases List.mem_append.mp hc with hc | hc
    · exact hn.1 c hc
    · rw [List.mem_singleton.mp hc]
      exact hd
  · rw [hkeep]
    exact hn.2.append b

/-- **The order of the bursts in the cells** matters only to the order of those that are nearest. -/
theorem search_perm {train' : List (List (List Burst))} (h : Filed div train)
    (h' : Filed div train') (hcolumn : 1 ≤ div.burstMaxPacketIndex)
    (hcells : ∀ i j, (cell train' i j).Perm (cell train i j)) {n : Nearest F}
    (hsearch : search div cfg train testBurst = .ok n) :
    ∃ n', search div cfg train' testBurst = .ok n' ∧ n'.distance = n.distance ∧
      n'.nearestVec.Perm n.nearestVec := by
  have hscanned : (scanned div cfg train' testBurst).Perm (scanned div cfg train testBurst) :=
    List.Perm.flatMap_left _ fun i _ => List.Perm.flatMap_left _ fun j _ => hcells _ _
  obtain ⟨hdefined, hleast⟩ := least_of_search h hcolumn hsearch
  obtain ⟨n', hsearch', hleast'⟩ : ∃ n', search div cfg train' testBurst = .ok n' ∧
      RunningMinimum.Least 100 (distanceTo testBurst) (scanned div cfg train' testBurst)
        (n'.distance, n'.nearestVec) :=
    search_of_defined h' hcolumn fun b hb => hdefined b (hscanned.mem_iff.mp hb)
  obtain ⟨hdistance, hnearest⟩ := hleast.perm hleast' hscanned
  exact ⟨n', hsearch', hdistance, hnearest⟩

/-- An uncached call searches. -/
theorem predictBurst_uncached {lib : StdLib} {cache : PredictionCache F}
    (huncached : answered ((Memo.find (sameKey lib) cache testBurst).getD blank) = false) :
    predictBurst lib div cfg train cache testBurst = (search div cfg train testBurst).map
      fun n => (n, Memo.store (sameKey lib) cache testBurst n) := by
  rw [predictBurst, huncached, if_neg Bool.false_ne_true]
  cases search div cfg train testBurst <;> rfl

end Search

/-! ## The nearest -/

variable {div : DivisionParam} {cfg : TestParam ℝ} {train : List (List (List Burst))}
  {testBurst : Burst}

/-- What is asked of a test burst: its counters agree with its entries, it has a packet, and there
is room for the signatures. -/
structure Testable (div : DivisionParam) (testBurst : Burst) : Prop where
  counted : testBurst.Counted
  pktNum : 1 ≤ testBurst.pktNum
  room : div.burstMaxUnisig ≤ 101

/-- A burst of the table has a distance, below a hundred. -/
theorem Testable.distance_ok (ht : Testable div testBurst) {b : Burst} (hb : Storable div b) :
    testBurst.distance b = .ok (distanceTo testBurst b : ℝ) ∧
      (0 : ℝ) ≤ distanceTo testBurst b ∧ (distanceTo testBurst b : ℝ) < 100 := by
  have hroom : b.uniPktNum.toNat ≤ 101 :=
    hb.uniPktNum_le.trans (UInt8.le_iff_toNat_le.mp ht.room)
  obtain ⟨d, hd⟩ : ∃ d : ℝ, testBurst.distance b = .ok d :=
    Burst.distance_ok ht.counted hb.counted hroom
  rw [distanceTo_eq hd]
  exact ⟨hd, Burst.distance_bounds ht.counted hb.counted ht.pktNum hb.pktNum hd⟩

/-- **The search returns the least distance**, with the bursts at it. -/
theorem search_least (h : Filed div train) (hcolumn : 1 ≤ div.burstMaxPacketIndex)
    (ht : Testable div testBurst) : ∃ n, search div cfg train testBurst = .ok n ∧
      RunningMinimum.Least 100 (distanceTo testBurst) (scanned div cfg train testBurst)
        (n.distance, n.nearestVec) := by
  refine search_of_defined h hcolumn fun b hb => ?_
  obtain ⟨i, -, j, -, hcell⟩ := mem_scanned.mp hb
  exact (ht.distance_ok (h.cells _ _ b hcell).1).1

/-- `n` is the least distance of the scanned bursts, with exactly the bursts at that distance; there
are none only if nothing was scanned. -/
structure NearestAmong (testBurst : Burst) (scanned : List Burst) (n : Nearest ℝ) : Prop where
  le : ∀ b ∈ scanned, ∃ d : ℝ, testBurst.distance b = .ok d ∧ n.distance ≤ d
  nearestVec : n.nearestVec =
    scanned.filter fun b => testBurst.distance b = .ok n.distance
  nonempty : scanned ≠ [] → n.nearestVec ≠ []

theorem nearestAmong_of_least (h : Filed div train) (ht : Testable div testBurst) {n : Nearest ℝ}
    (hn : RunningMinimum.Least 100 (distanceTo testBurst) (scanned div cfg train testBurst)
      (n.distance, n.nearestVec)) :
    NearestAmong testBurst (scanned div cfg train testBurst) n := by
  have hdistance : ∀ b ∈ scanned div cfg train testBurst,
      testBurst.distance b = .ok (distanceTo testBurst b : ℝ) ∧
        (0 : ℝ) ≤ distanceTo testBurst b ∧ (distanceTo testBurst b : ℝ) < 100 := by
    intro b hb
    obtain ⟨i, -, j, -, hcell⟩ := mem_scanned.mp hb
    exact ht.distance_ok (h.cells _ _ b hcell).1
  refine ⟨fun b hb => ⟨_, (hdistance b hb).1, hn.le b hb⟩, ?_, fun hne => ?_⟩
  · refine hn.items.trans (List.filter_congr fun b hb => ?_)
    rw [(hdistance b hb).1]
    simp
  · obtain ⟨b, hb, hd⟩ := hn.exists_mem hne fun b hb => (hdistance b hb).2.2
    exact List.ne_nil_of_mem (hn.mem_items.mpr ⟨hb, hd⟩)

/-- **A training burst that equals the test burst** lies in its cell, and is returned at distance
zero if that cell is scanned and the burst is not too long for the cut-off. -/
theorem same_mem_nearestVec (h : Filed div train) (ht : Testable div testBurst) {n : Nearest ℝ}
    (hn : RunningMinimum.Least 100 (distanceTo testBurst) (scanned div cfg train testBurst)
      (n.distance, n.nearestVec))
    (hrow : (rowOf testBurst : ℤ) ∈ loopRange (iMin cfg testBurst) (iMax div cfg testBurst))
    (hcolumn : (columnOf div testBurst : ℤ) ∈
      loopRange (jMin div cfg testBurst) (jMax div cfg testBurst))
    (hfits : testBurst.pktNum + 120 < 2 ^ 31) {i j : ℕ} {b : Burst} (hb : b ∈ cell train i j)
    (hsame : testBurst.same b = true) : n.distance = 0 ∧ b ∈ n.nearestVec := by
  obtain ⟨hstorable, rfl, rfl⟩ := h.cells i j b hb
  obtain ⟨huni, hpkt, -⟩ := Burst.same_iff.mp hsame
  have hcell : rowOf b = rowOf testBurst ∧ columnOf div b = columnOf div testBurst := by
    rw [rowOf, rowOf, columnOf, columnOf, Burst.intPktNum, Burst.intPktNum, huni, hpkt]
    exact ⟨rfl, rfl⟩
  rw [hcell.1, hcell.2] at hb
  have hscanned : b ∈ scanned div cfg train testBurst :=
    mem_scanned.mpr ⟨_, hrow, _, hcolumn, by simpa using hb⟩
  have hzero : (distanceTo testBurst b : ℝ) = 0 :=
    distanceTo_eq (Burst.distance_of_same hsame hstorable.counted
      (hstorable.uniPktNum_le.trans (UInt8.le_iff_toNat_le.mp ht.room)) (hpkt ▸ hfits))
  -- no distance is negative, so that of this burst is the least
  have hle : n.distance ≤ 0 := hzero ▸ hn.le b hscanned
  have hge : 0 ≤ n.distance := by
    rcases hn.eq with heq | ⟨c, hc, hd⟩
    · have heq : n.distance = 100 := heq
      rw [heq]
      norm_num
    · have hd : distanceTo testBurst c = n.distance := hd
      obtain ⟨i, -, j, -, hc⟩ := mem_scanned.mp hc
      rw [← hd]
      exact (ht.distance_ok (h.cells _ _ c hc).1).2.1
  have hdistance : n.distance = 0 := le_antisymm hle hge
  exact ⟨hdistance, hn.mem_items.mpr ⟨hscanned, hzero.trans hdistance.symm⟩⟩

/-- What an uncached `PredictBurst` is meant to do: it indexes the table in range, returns the
nearest bursts among those it scans, and scans the cell of the test burst, so that a training burst
equal to it is returned at distance zero. -/
def FindsNearest (lib : StdLib) (div : DivisionParam) (cfg : TestParam ℝ)
    (train : List (List (List Burst))) (cache : PredictionCache ℝ) (testBurst : Burst) : Prop :=
  ∃ n cache', predictBurst lib div cfg train cache testBurst = .ok (n, cache') ∧
    NearestAmong testBurst (scanned div cfg train testBurst) n ∧
    (rowOf testBurst : ℤ) ∈ loopRange (iMin cfg testBurst) (iMax div cfg testBurst) ∧
    (columnOf div testBurst : ℤ) ∈ loopRange (jMin div cfg testBurst) (jMax div cfg testBurst) ∧
    ∀ i j, ∀ b ∈ cell train i j, testBurst.same b = true → n.distance = 0 ∧ b ∈ n.nearestVec

/-- A burst that is too long for the cut-off finds nothing at distance zero. -/
theorem NearestAmong.fits_of_zero {scanned : List Burst} {n : Nearest ℝ} {b : Burst}
    (h : NearestAmong testBurst scanned n) (hzero : n.distance = 0) (hb : b ∈ n.nearestVec) :
    testBurst.pktNum + 120 < 2 ^ 31 := by
  rw [h.nearestVec, List.mem_filter, decide_eq_true_iff] at hb
  have hnear : ¬ Burst.Far testBurst b := fun hfar => by
    have hone := Except.ok.inj ((Burst.distance_of_far hfar).symm.trans hb.2)
    exact one_ne_zero (hone.trans hzero)
  exact (Burst.not_far_iff.mp hnear).2.2.1

/-- **When an uncached `PredictBurst` finds the nearest bursts**: the table has a column, the number
of packets can be added to the range of the window, and also to the cut-off of the distance unless
no training burst equals the test burst. -/
theorem predictBurst_nearest_iff (lib : StdLib) (hfilled : Filled div train)
    (hcounted : testBurst.Counted) (hpkt : 1 ≤ testBurst.pktNum) (hfits : testBurst.pktNum < 2 ^ 31)
    (huni : 1 ≤ testBurst.uniPktNum.toNat) (hmax : testBurst.uniPktNum ≤ div.burstMaxUnisig)
    (h101 : div.burstMaxUnisig ≤ 101)
    (hroom : testBurst.uniPktNum.toNat + cfg.unisigRange.toNat ≤ 255)
    (hunisig : 1 ≤ cfg.unisigRange.toNat) (hpacketnum : 1 ≤ cfg.packetnumRange)
    (hint : cfg.packetnumRange < 2 ^ 31) {cache : PredictionCache ℝ}
    (huncached : answered ((Memo.find (sameKey lib) cache testBurst).getD blank) = false) :
    FindsNearest lib div cfg train cache testBurst ↔
      1 ≤ div.burstMaxPacketIndex ∧ testBurst.pktNum + cfg.packetnumRange < 2 ^ 31 ∧
        (testBurst.pktNum + 120 < 2 ^ 31 ∨
          ∀ i j, ∀ b ∈ cell train i j, testBurst.same b = false) := by
  have hvalue : testBurst.intPktNum = testBurst.pktNum := toInt_of_lt hfits
  have hcolumn : (columnOf div testBurst : ℤ) ∈
      loopRange (jMin div cfg testBurst) (jMax div cfg testBurst) ↔ _ :=
    columnOf_mem_window_iff (by omega) hpacketnum hint
  rw [hvalue] at hcolumn
  constructor
  · rintro ⟨n, cache', -, hnearest, -, hcol, hsame⟩
    obtain ⟨hindex, hwindow⟩ := hcolumn.mp hcol
    refine ⟨hindex, hwindow, or_iff_not_imp_right.mpr fun hstored => ?_⟩
    obtain ⟨i, j, b, hb, heq⟩ : ∃ i j, ∃ b ∈ cell train i j, testBurst.same b = true := by
      simpa using hstored
    obtain ⟨hzero, hmem⟩ := hsame i j b hb heq
    exact hnearest.fits_of_zero hzero hmem
  · rintro ⟨hindex, hwindow, hcut⟩
    have hfiled := hfilled.filed
    have ht : Testable div testBurst := ⟨hcounted, hpkt, h101⟩
    obtain ⟨n, hsearch, hn⟩ := search_least hfiled hindex ht
    have hrow := rowOf_mem_window huni hmax hunisig hroom
    have hcol := hcolumn.mpr ⟨hindex, hwindow⟩
    have hpredict : predictBurst lib div cfg train cache testBurst =
        .ok (n, Memo.store (sameKey lib) cache testBurst n) := by
      rw [predictBurst_uncached huncached, hsearch]
      rfl
    refine ⟨n, _, hpredict, nearestAmong_of_least hfiled ht hn, hrow, hcol,
      fun i j b hb hsame => ?_⟩
    rcases hcut with hcut | hnone
    · exact same_mem_nearestVec hfiled ht hn hrow hcol hcut hb hsame
    · rw [hnone i j b hb] at hsame
      cases hsame

/-- A burst of two packets of sixty bytes. -/
def lampBurst : Burst where
  uniPktNum := 1
  pktNum := 2
  instanceLabel := "lamp"
  firstPacketStamp := ⟨10, 0⟩
  lastPacketStamp := ⟨11, 0⟩
  packetDetail := [(60, 2)]

/-- The same from another device, twice as many packets, and one packet of another length. -/
def lampNeighbours : List Burst :=
  [⟨1, 2, "plug", ⟨20, 0⟩, ⟨20, 0⟩, [(60, 2)]⟩, ⟨1, 4, "hub", ⟨30, 0⟩, ⟨31, 0⟩, [(60, 4)]⟩,
    ⟨1, 1, "camera", ⟨40, 0⟩, ⟨40, 0⟩, [(100, 1)]⟩]

/-- A burst that has been stored, together with some others, finds itself and the one that equals
it. -/
theorem predictBurst_nearest_iff_lamp :
    ∃ st, storeBursts {} (lampBurst :: lampNeighbours) (TrainStore.init {}) = .ok st ∧
      FindsNearest .insertion {} {} st.train [] lampBurst ∧
      ∃ (n : Nearest ℝ) (cache' : PredictionCache ℝ),
        predictBurst .insertion {} {} st.train [] lampBurst = .ok (n, cache') ∧
          n.distance = 0 ∧ lampBurst ∈ n.nearestVec ∧
          lampNeighbours.head (by decide) ∈ n.nearestVec := by
  have hstorable : ∀ b ∈ lampBurst :: lampNeighbours, Storable {} b := by
    intro b hb
    simp only [lampNeighbours, List.mem_cons, List.not_mem_nil, or_false] at hb
    rcases hb with rfl | rfl | rfl | rfl <;>
      exact ⟨by decide, by decide, by decide, by decide⟩
  obtain ⟨st, hrun, -, htrain⟩ := storeBursts_of_storable hstorable (Shaped.init {})
  have hcells := ((Filed.init {}).foldl_pushBurst _ hstorable).2
  have hmem : ∀ b ∈ lampBurst :: lampNeighbours, b ∈ cell st.train (rowOf b) (columnOf {} b) := by
    intro b hb
    rw [htrain, hcells]
    exact List.mem_append_right _ (List.mem_filter.mpr ⟨hb, by simp⟩)
  have hfinds : FindsNearest .insertion {} {} st.train [] lampBurst :=
    (predictBurst_nearest_iff .insertion (Filled.init.storeBursts hrun)
      (hstorable lampBurst List.mem_cons_self).counted (by decide) (by decide) (by decide)
      (by decide) (by decide) (by decide) (by decide) (by decide) (by decide) rfl).mpr
      ⟨by decide, by decide, Or.inl (by decide)⟩
  obtain ⟨n, cache', hpredict, -, -, -, hsame⟩ := id hfinds
  obtain ⟨hzero, hlamp⟩ := hsame _ _ lampBurst (hmem _ List.mem_cons_self) (by decide)
  obtain ⟨-, hplug⟩ := hsame _ _ _ (hmem _ (List.mem_cons_of_mem _ (List.head_mem (by decide))))
    (by decide)
  exact ⟨st, hrun, hfinds, n, cache', hpredict, hzero, hlamp, hplug⟩

/-- A burst of so many packets that the range of the window cannot be added. -/
def endlessBurst : Burst where
  uniPktNum := 1
  pktNum := 2147483600
  instanceLabel := "camera"
  firstPacketStamp := ⟨10, 0⟩
  lastPacketStamp := ⟨11, 0⟩
  packetDetail := [(60, 2147483600)]

/-- **A burst that is too long for the window** is not found, although it has been stored: the upper
bound of the window overflows, and no column is scanned. -/
theorem not_findsNearest_endless :
    ∃ st, storeBurst {} (TrainStore.init {}) endlessBurst = .ok st ∧
      endlessBurst ∈ cell st.train (rowOf endlessBurst) (columnOf {} endlessBurst) ∧
      jMax {} ({} : TestParam ℝ) endlessBurst < 0 ∧
      scanned {} ({} : TestParam ℝ) st.train endlessBurst = [] ∧
      ¬ FindsNearest .insertion {} {} st.train [] endlessBurst := by
  have hstorable : Storable {} endlessBurst := ⟨by decide, by decide, by decide, by decide⟩
  have hstore := storeBurst_of_storable (Shaped.init {}) hstorable
  have hmem : endlessBurst ∈ cell (pushBurst {} (TrainStore.init {}).train endlessBurst)
      (rowOf endlessBurst) (columnOf {} endlessBurst) := by
    rw [(Filed.init {}).cell_pushBurst hstorable, if_pos ⟨rfl, rfl⟩]
    exact List.mem_append_right _ (List.mem_singleton_self _)
  have hend : jMax {} ({} : TestParam ℝ) endlessBurst < 0 := by decide
  have hwindow : loopRange (jMin {} ({} : TestParam ℝ) endlessBurst)
      (jMax {} ({} : TestParam ℝ) endlessBurst) = [] := by decide
  refine ⟨_, hstore, hmem, hend, ?_, ?_⟩
  · rw [scanned, hwindow]
    simp
  · rintro ⟨n, cache', -, -, -, hcol, -⟩
    rw [hwindow] at hcol
    cases hcol

end Prediction
end BurstIoT
