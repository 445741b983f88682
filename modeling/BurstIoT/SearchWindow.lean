import BurstIoT.NearestSearch

/-!
# The search window, seen from both bursts

A burst with `u` signatures and `p` packets is stored in row `u - 1` and column `p - 1`, the latter
cut off at the last column.  `PredictBurst` computes the bounds of its window from `u` and `p`
themselves, so the window reaches one cell further up than down, and it is cut off where the table
ends.

**The edges.**  Two bursts are inside each other's window as long as their counters differ by less
than the ranges, and neither sees the other beyond the ranges.  At a difference of just the range
only the smaller burst sees the larger one (`RowEdge`), and the same holds for the packets, where
the last column collects all longer bursts (`ColumnEdge`).  A bound that overflows is an edge as
well: the window of a burst is empty if the `int` cannot hold its number of packets with the range
added, and only the other burst may see it.  So the window is symmetric for a pair of bursts unless
they lie on such an edge and the other counter does not separate them (`scans_comm_iff`).
-/

namespace BurstIoT
namespace Prediction

open TrainStore

/-! ## The cells visited -/

section Cells

variable {F : Type} [Field F] (div : DivisionParam) (cfg : TestParam F)

/-- The cells an uncached `PredictBurst` visits, in their order. -/
def windowCells (testBurst : Burst) : List (ℤ × ℤ) :=
  (loopRange (iMin cfg testBurst) (iMax div cfg testBurst)).flatMap fun i =>
    (loopRange (jMin div cfg testBurst) (jMax div cfg testBurst)).map fun j => (i, j)

/-- The indices of `train` under which `TrainOneDevice` stores a burst. -/
def cellOf (b : Burst) : ℤ × ℤ :=
  (b.uniPktNum.toNat - 1, min b.intPktNum div.burstMaxPacketIndex - 1)

/-- `PredictBurst` on `s` scans the cell of `t`. -/
def Scans (s t : Burst) : Prop := cellOf div t ∈ windowCells div cfg s

instance (s t : Burst) : Decidable (Scans div cfg s t) :=
  inferInstanceAs (Decidable (cellOf div t ∈ windowCells div cfg s))

end Cells

variable {F : Type} [Field F] {div : DivisionParam} {cfg : TestParam F} {s t : Burst}

/-- The two loops of the search run over the cells of the window. -/
theorem search_eq_foldlM_windowCells [LinearOrder F] [Elementary F]
    (train : List (List (List Burst))) (testBurst : Burst) :
    search div cfg train testBurst = (windowCells div cfg testBurst).foldlM
      (fun n c => searchCell train testBurst n c.1 c.2) ⟨100, []⟩ := by
  rw [search, windowCells, ← CheckedLoop.foldlM_flatMap]
  simp only [List.foldlM_map]

/-- A burst that can be stored is stored in its cell. -/
theorem cellOf_of_storable (h : Storable div s) :
    cellOf div s = ((rowOf s : ℤ), (columnOf div s : ℤ)) := by
  have huni := h.uniPktNum
  obtain ⟨hcolumn, -⟩ := packetNumIndex_bounds h.intPktNum h.column
  rw [cellOf, rowOf, columnOf, Prod.mk.injEq]
  omega

/-! ## The edges of the window -/

section Edges

variable (div cfg s t)

/-- What the bursts and the configuration have to satisfy: the burst is not empty, it has a row, and
the upper bound on the rows of its window does not overflow.  The number of packets and the range
are `int`s. -/
structure Fits (s : Burst) : Prop where
  uniPktNum_pos : 1 ≤ s.uniPktNum.toNat
  pktNum_pos : 1 ≤ s.pktNum
  pktNum_lt : s.pktNum < 2 ^ 31
  le_packetnumRange : -2 ^ 31 ≤ cfg.packetnumRange
  packetnumRange_lt : cfg.packetnumRange < 2 ^ 31
  uniPktNum_le : s.uniPktNum ≤ div.burstMaxUnisig
  room : s.uniPktNum.toNat + cfg.unisigRange.toNat ≤ 255

/-- The numbers of signatures differ by less than the range. -/
def RowInside : Prop :=
  s.uniPktNum.toNat < t.uniPktNum.toNat + cfg.unisigRange.toNat ∧
    t.uniPktNum.toNat < s.uniPktNum.toNat + cfg.unisigRange.toNat

/-- `t` has more signatures than `s`, by just the range. -/
def RowEdge : Prop :=
  1 ≤ cfg.unisigRange.toNat ∧
    t.uniPktNum.toNat = s.uniPktNum.toNat + cfg.unisigRange.toNat

/-- The upper bound on the columns does not overflow.  A negative `burstMaxPacketIndex`, with which
there is no column at all, may be below the overflown bound, too. -/
def UpperFits (s : Burst) : Prop :=
  s.pktNum + cfg.packetnumRange < 2 ^ 31 ∨
    div.burstMaxPacketIndex ≤ s.pktNum + cfg.packetnumRange - 2 ^ 32

/-- The numbers of packets differ by less than the range; or both bursts are in the last column, and
a negative range leaves it in both windows.  No upper bound overflows. -/
def ColumnInside : Prop :=
  UpperFits div cfg s ∧ UpperFits div cfg t ∧
  (((s.pktNum : ℤ) < t.pktNum + cfg.packetnumRange ∧
    (t.pktNum : ℤ) < s.pktNum + cfg.packetnumRange) ∨
  (div.burstMaxPacketIndex ≤ s.pktNum ∧ div.burstMaxPacketIndex ≤ t.pktNum ∧
    div.burstMaxPacketIndex ≤ s.pktNum + cfg.packetnumRange ∧
    div.burstMaxPacketIndex ≤ t.pktNum + cfg.packetnumRange))

/-- The window of `s` ends with the column of `t`, which is longer than `s` by the range or more; or
both are in the last column, and a negative range leaves it in the window of `s` only. -/
def ColumnEnd : Prop :=
  (1 ≤ cfg.packetnumRange ∧ (s.pktNum : ℤ) < div.burstMaxPacketIndex ∧
    min (t.pktNum : ℤ) div.burstMaxPacketIndex ≤ s.pktNum + cfg.packetnumRange ∧
    s.pktNum + cfg.packetnumRange ≤ t.pktNum) ∨
  (cfg.packetnumRange < 0 ∧ div.burstMaxPacketIndex ≤ t.pktNum ∧
    div.burstMaxPacketIndex ≤ s.pktNum + cfg.packetnumRange ∧
    t.pktNum + cfg.packetnumRange < div.burstMaxPacketIndex)

/-- A bound overflows: the window of `s` reaches the column of `t`, but the upper bound of the
window of `t` has wrapped; or the range is negative, and the lower bound of the window of `s` has
wrapped to below the column of `t`. -/
def ColumnOverflow : Prop :=
  (UpperFits div cfg s ∧ ¬ UpperFits div cfg t ∧
    min (t.pktNum : ℤ) div.burstMaxPacketIndex ≤ s.pktNum + cfg.packetnumRange) ∨
  (cfg.packetnumRange < 0 ∧ (t.pktNum : ℤ) < div.burstMaxPacketIndex ∧
    (t.pktNum : ℤ) ≤ s.pktNum + cfg.packetnumRange ∧ 2 ^ 31 ≤ s.pktNum - cfg.packetnumRange)

/-- The window of `s` reaches the column of `t`, and not conversely. -/
def ColumnEdge : Prop :=
  ColumnEnd div cfg s t ∨ ColumnOverflow div cfg s t

/-- The two bursts lie on an edge of the window, and no counter separates them. -/
def OnEdge : Prop :=
  (RowEdge cfg s t ∧ (ColumnEdge div cfg s t ∨ ColumnInside div cfg s t)) ∨
    (RowInside cfg s t ∧ ColumnEdge div cfg s t)

instance (s : Burst) : Decidable (UpperFits div cfg s) :=
  inferInstanceAs (Decidable (_ ∨ _))

end Edges

theorem RowInside.symm (h : RowInside cfg s t) : RowInside cfg t s := ⟨h.2, h.1⟩

theorem RowEdge.not_inside (h : RowEdge cfg s t) : ¬ RowInside cfg s t := by
  rw [RowEdge] at h
  rw [RowInside]
  omega

theorem RowEdge.asymm (h : RowEdge cfg s t) : ¬ RowEdge cfg t s := by
  rw [RowEdge] at h ⊢
  omega

theorem ColumnInside.symm (h : ColumnInside div cfg s t) : ColumnInside div cfg t s := by
  obtain ⟨hs, ht, h⟩ := h
  exact ⟨ht, hs, by omega⟩

theorem ColumnEdge.not_inside (h : ColumnEdge div cfg s t) : ¬ ColumnInside div cfg s t := by
  rintro ⟨-, ht, hinside⟩
  rcases h with hend | ⟨-, ht', -⟩ | hoverflow
  · rw [ColumnEnd] at hend
    omega
  · exact ht' ht
  · omega

theorem ColumnEdge.asymm (hs : Fits div cfg s) (ht : Fits div cfg t)
    (h : ColumnEdge div cfg s t) : ¬ ColumnEdge div cfg t s := by
  have hslt := hs.pktNum_lt
  have htlt := ht.pktNum_lt
  rw [ColumnEdge, ColumnEnd, ColumnOverflow, UpperFits, UpperFits] at h ⊢
  omega

/-- The rows of the window. -/
theorem row_mem_window_iff (hs : Fits div cfg s) (ht : Fits div cfg t) :
    (cellOf div t).1 ∈ loopRange (iMin cfg s) (iMax div cfg s) ↔
      RowEdge cfg s t ∨ RowInside cfg s t := by
  have hsum : (s.uniPktNum + cfg.unisigRange).toNat =
      s.uniPktNum.toNat + cfg.unisigRange.toNat := by
    have hroom := hs.room
    rw [UInt8.toNat_add]
    omega
  have hpos := ht.uniPktNum_pos
  have hmax := UInt8.le_iff_toNat_le.mp ht.uniPktNum_le
  rw [mem_loopRange, iMin, iMax, toNat_min, hsum, cellOf, RowEdge, RowInside]
  omega

/-- The upper bound of the window reaches the column of `t`. -/
theorem upperBound_iff (hs : Fits div cfg s) (ht : Fits div cfg t) :
    min (t.pktNum : ℤ) div.burstMaxPacketIndex ≤ wrapInt (s.pktNum + cfg.packetnumRange) ↔
      UpperFits div cfg s ∧
        min (t.pktNum : ℤ) div.burstMaxPacketIndex ≤ s.pktNum + cfg.packetnumRange := by
  have hspos := hs.pktNum_pos
  have htpos := ht.pktNum_pos
  have hlt := hs.pktNum_lt
  have hlo := hs.le_packetnumRange
  have hhi := hs.packetnumRange_lt
  rw [UpperFits]
  by_cases hfits : s.pktNum + cfg.packetnumRange < 2 ^ 31
  · rw [wrapInt_of_mem (by omega) (by omega)]
    omega
  · rw [wrapInt_of_le (by omega) (by omega)]
    omega

/-- The lower bound of the window is not above the column of `t`: it wraps for negative ranges
only. -/
theorem lowerBound_iff (hs : Fits div cfg s) (ht : Fits div cfg t) :
    wrapInt (s.pktNum - cfg.packetnumRange) < t.pktNum ↔
      s.pktNum - cfg.packetnumRange < t.pktNum ∨ 2 ^ 31 ≤ s.pktNum - cfg.packetnumRange := by
  have hspos := hs.pktNum_pos
  have htpos := ht.pktNum_pos
  have hlt := hs.pktNum_lt
  have htlt := ht.pktNum_lt
  have hlo := hs.le_packetnumRange
  have hhi := hs.packetnumRange_lt
  by_cases hfits : s.pktNum - cfg.packetnumRange < 2 ^ 31
  · rw [wrapInt_of_mem (by omega) (by omega)]
    omega
  · rw [wrapInt_of_le (by omega) (by omega)]
    omega

/-- The columns of the window. -/
theorem column_mem_window_iff (hs : Fits div cfg s) (ht : Fits div cfg t) :
    (cellOf div t).2 ∈ loopRange (jMin div cfg s) (jMax div cfg s) ↔
      ColumnEdge div cfg s t ∨ ColumnInside div cfg s t := by
  have hspos := hs.pktNum_pos
  have htpos := ht.pktNum_pos
  have hslt := hs.pktNum_lt
  have htlt := ht.pktNum_lt
  have hupper := upperBound_iff hs ht
  have hlower := lowerBound_iff hs ht
  have hmem : (cellOf div t).2 ∈ loopRange (jMin div cfg s) (jMax div cfg s) ↔
      (wrapInt (s.pktNum - cfg.packetnumRange) < t.pktNum ∨ div.burstMaxPacketIndex ≤ t.pktNum) ∧
        min (t.pktNum : ℤ) div.burstMaxPacketIndex ≤ wrapInt (s.pktNum + cfg.packetnumRange) := by
    rw [mem_loopRange, jMin, jMax, cellOf,
      show s.intPktNum = s.pktNum from toInt_of_lt hs.pktNum_lt,
      show t.intPktNum = t.pktNum from toInt_of_lt ht.pktNum_lt]
    omega
  have hover : ∀ b : Burst, ¬ UpperFits div cfg b → 2 ^ 31 ≤ b.pktNum + cfg.packetnumRange ∧
      b.pktNum + cfg.packetnumRange - 2 ^ 32 < div.burstMaxPacketIndex := by
    intro b hb
    rw [UpperFits] at hb
    omega
  rw [hmem, hupper, hlower, ColumnEdge, ColumnEnd, ColumnOverflow, ColumnInside]
  by_cases hfits : UpperFits div cfg s
  · by_cases hfits' : UpperFits div cfg t
    · simp only [hfits, hfits', true_and, not_true, false_and, false_or]
      omega
    · obtain ⟨hsum, hmax⟩ := hover t hfits'
      have hcase := hfits
      rw [UpperFits] at hcase
      simp only [hfits, hfits', true_and, not_false_eq_true, false_and, and_false, or_false]
      omega
  · obtain ⟨hsum, hmax⟩ := hover s hfits
    simp only [hfits, false_and, and_false, false_or, or_false, false_iff]
    omega

theorem scans_iff (hs : Fits div cfg s) (ht : Fits div cfg t) : Scans div cfg s t ↔
    (RowEdge cfg s t ∨ RowInside cfg s t) ∧
      (ColumnEdge div cfg s t ∨ ColumnInside div cfg s t) := by
  rw [← row_mem_window_iff hs ht, ← column_mem_window_iff hs ht, Scans, windowCells,
    List.mem_flatMap]
  constructor
  · rintro ⟨i, hi, hmem⟩
    obtain ⟨j, hj, heq⟩ := List.mem_map.mp hmem
    rw [← heq]
    exact ⟨hi, hj⟩
  · rintro ⟨hrow, hcolumn⟩
    exact ⟨_, hrow, List.mem_map.mpr ⟨_, hcolumn, rfl⟩⟩

/-- **On an edge, the window of the smaller burst reaches the larger one**, and not conversely. -/
theorem onEdge_iff (hs : Fits div cfg s) (ht : Fits div cfg t) :
    OnEdge div cfg s t ↔ Scans div cfg s t ∧ ¬ Scans div cfg t s := by
  rw [scans_iff hs ht, scans_iff ht hs, OnEdge]
  constructor
  · rintro (⟨hrow, hcolumn⟩ | ⟨hrow, hcolumn⟩)
    · refine ⟨⟨Or.inl hrow, hcolumn⟩, fun h => ?_⟩
      rcases h.1 with hrow' | hrow'
      · exact hrow.asymm hrow'
      · exact hrow.not_inside hrow'.symm
    · refine ⟨⟨Or.inr hrow, Or.inl hcolumn⟩, fun h => ?_⟩
      rcases h.2 with hcolumn' | hcolumn'
      · exact hcolumn.asymm hs ht hcolumn'
      · exact hcolumn.not_inside hcolumn'.symm
  · rintro ⟨⟨hrow, hcolumn⟩, hnot⟩
    rcases hrow with hrow | hrow
    · exact Or.inl ⟨hrow, hcolumn⟩
    · rcases hcolumn with hcolumn | hcolumn
      · exact Or.inr ⟨hrow, hcolumn⟩
      · exact absurd ⟨Or.inr hrow.symm, Or.inr hcolumn.symm⟩ hnot

/-- **When the search window is symmetric**: the bursts do not lie on an edge of it. -/
theorem scans_comm_iff (hs : Fits div cfg s) (ht : Fits div cfg t) :
    (Scans div cfg s t ↔ Scans div cfg t s) ↔ ¬ OnEdge div cfg s t ∧ ¬ OnEdge div cfg t s := by
  rw [onEdge_iff hs ht, onEdge_iff ht hs]
  tauto

/-- Two bursts of one and two signatures, with the default ranges. -/
theorem scans_comm_iff_lamp :
    let lamp : Burst := ⟨1, 1, "lamp", .zero, .zero, [(100, 1)]⟩
    let hub : Burst := ⟨2, 3, "hub", .zero, .zero, [(-60, 1), (100, 2)]⟩
    (Scans {} ({} : TestParam ℝ) lamp hub ↔ Scans {} ({} : TestParam ℝ) hub lamp) ↔
      ¬ OnEdge {} ({} : TestParam ℝ) lamp hub ∧ ¬ OnEdge {} ({} : TestParam ℝ) hub lamp :=
  scans_comm_iff ⟨by decide, by decide, by decide, by decide, by decide, by decide, by decide⟩
    ⟨by decide, by decide, by decide, by decide, by decide, by decide, by decide⟩

/-- A burst of 21 packets of different lengths. -/
def sweep : Burst where
  uniPktNum := 21
  pktNum := 21
  instanceLabel := "hub"
  firstPacketStamp := .zero
  lastPacketStamp := .zero
  packetDetail := (List.range 21).map fun n : ℕ => (Int16.ofNat (100 + n), 1)

/-- With the default range of 20, a burst of one signature finds `sweep`, which does not find it. -/
theorem not_scans_comm_sweep :
    let lamp : Burst := ⟨1, 1, "lamp", .zero, .zero, [(100, 1)]⟩
    let cfg : TestParam ℝ := {}
    lamp.WellFormed ∧ sweep.WellFormed ∧ Fits {} cfg lamp ∧ Fits {} cfg sweep ∧
      Scans {} cfg lamp sweep ∧ ¬ Scans {} cfg sweep lamp := by
  intro lamp cfg
  have hlamp : Fits {} cfg lamp :=
    ⟨by decide, by decide, by decide, by decide, by decide, by decide, by decide⟩
  have hsweep : Fits {} cfg sweep :=
    ⟨by decide, by decide, by decide, by decide, by decide, by decide, by decide⟩
  have hedge : OnEdge {} cfg lamp sweep :=
    Or.inl ⟨⟨by decide, by decide⟩,
      Or.inr ⟨by decide, by decide, Or.inl ⟨by decide, by decide⟩⟩⟩
  exact ⟨⟨by decide, by decide, by decide, by decide⟩,
    ⟨by decide, by decide, by decide, by decide⟩, hlamp, hsweep,
    (onEdge_iff hlamp hsweep).mp hedge⟩

end Prediction
end BurstIoT
