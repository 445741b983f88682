import BurstIoT.DistanceSymmetry

/-!
# Three bursts

How far two bursts can be apart when both are near to a third one.  Over the reals, the distance of
two well-formed bursts within the cut-off is the square root of the gap between their distributions,
times that of the ratio of their lengths (`distance_of_near`).  The first factor satisfies the
triangle inequality, and the ratio of the lengths is multiplied on the way over a third burst
(`lengthRatio_le_mul`), so `Distance` satisfies the triangle inequality up to these ratios
(`distance_triangle`).  They cannot be left out: bursts with proportional counts are at distance
zero, and still a third burst is farther from the one whose length is more different from its own
(`distance_of_proportional`).

The other overload, `Distance(const Burst&)`, does not scale by the lengths, and halves the sum.  It
is at most one, and within its own cut-off of 100 packets it is a metric on distributions
(`distanceRef_metric`).
-/

namespace BurstIoT
namespace Burst

open Frequencies

/-! ## The ratio of the lengths -/

/-- The longer length over the shorter one. -/
noncomputable def lengthRatio (a b : Burst) : ℝ :=
  (max a.pktNum b.pktNum : ℕ) / (min a.pktNum b.pktNum : ℕ)

theorem lengthRatio_comm (a b : Burst) : lengthRatio a b = lengthRatio b a := by
  rw [lengthRatio, lengthRatio, max_comm, min_comm]

theorem lengthRatio_nonneg (a b : Burst) : 0 ≤ lengthRatio a b := by
  rw [lengthRatio]
  positivity

theorem lengthRatio_of_le {a b : Burst} (h : a.pktNum ≤ b.pktNum) :
    lengthRatio a b = (b.pktNum : ℝ) / a.pktNum := by
  rw [lengthRatio, max_eq_right h, min_eq_left h]

theorem lengthRatio_of_eq {a b : Burst} (h : a.pktNum = b.pktNum) (hapkt : 1 ≤ a.pktNum) :
    lengthRatio a b = 1 := by
  rw [lengthRatio_of_le h.le, ← h]
  exact div_self (Nat.cast_ne_zero.mpr (Nat.one_le_iff_ne_zero.mp hapkt))

theorem one_le_lengthRatio {a b : Burst} (hapkt : 1 ≤ a.pktNum) (hbpkt : 1 ≤ b.pktNum) :
    1 ≤ lengthRatio a b := by
  have hmin : (0 : ℝ) < (min a.pktNum b.pktNum : ℕ) := Nat.cast_pos.mpr (by omega)
  rw [lengthRatio, one_le_div hmin]
  exact_mod_cast min_le_max

/-- Either length over the other is at most the ratio. -/
theorem div_le_lengthRatio {a b : Burst} (hapkt : 1 ≤ a.pktNum) (hbpkt : 1 ≤ b.pktNum) :
    (b.pktNum : ℝ) / a.pktNum ≤ lengthRatio a b := by
  rcases le_total a.pktNum b.pktNum with h | h
  · exact (lengthRatio_of_le h).ge
  · have hpos : (0 : ℝ) < a.pktNum := Nat.cast_pos.mpr hapkt
    refine le_trans ?_ (one_le_lengthRatio hapkt hbpkt)
    rw [div_le_one hpos]
    exact_mod_cast h

/-- **On the way over a third burst the ratios are multiplied.** -/
theorem lengthRatio_le_mul {a b c : Burst} (hapkt : 1 ≤ a.pktNum) (hbpkt : 1 ≤ b.pktNum)
    (hcpkt : 1 ≤ c.pktNum) : lengthRatio a c ≤ lengthRatio a b * lengthRatio b c := by
  have hordered : ∀ {a c : Burst}, 1 ≤ a.pktNum → 1 ≤ c.pktNum → a.pktNum ≤ c.pktNum →
      lengthRatio a c ≤ lengthRatio a b * lengthRatio b c := by
    intro a c hapkt hcpkt h
    have hpos : (b.pktNum : ℝ) ≠ 0 := Nat.cast_ne_zero.mpr (by omega)
    calc lengthRatio a c = (b.pktNum : ℝ) / a.pktNum * ((c.pktNum : ℝ) / b.pktNum) := by
          rw [lengthRatio_of_le h]
          field_simp
      _ ≤ lengthRatio a b * lengthRatio b c :=
          mul_le_mul (div_le_lengthRatio hapkt hbpkt) (div_le_lengthRatio hbpkt hcpkt)
            (by positivity) (lengthRatio_nonneg a b)
  rcases le_total a.pktNum c.pktNum with h | h
  · exact hordered hapkt hcpkt h
  · rw [lengthRatio_comm a c, lengthRatio_comm a b, lengthRatio_comm b c, mul_comm]
    exact hordered hcpkt hapkt h

/-! ## The triangle inequality -/

theorem scaledGap_eq_mul (a b : Burst) : scaledGap a b = lengthRatio a b * gap a.sigs b.sigs := by
  rw [scaledGap, lengthRatio, mul_div_assoc, mul_comm]

/-- The distance within the cut-off: what the lengths and the distributions contribute. -/
noncomputable def nearValue (a b : Burst) : ℝ :=
  Real.sqrt (lengthRatio a b) * Real.sqrt (gap a.sigs b.sigs)

theorem distance_of_near {a b : Burst} (ha : a.WellFormed) (hb : b.WellFormed)
    (hbroom : b.uniPktNum.toNat ≤ 101) (hnear : ¬ Far a b) :
    a.distance b = .ok (nearValue a b) := by
  rw [distance_eq ha hb hbroom, if_neg hnear, scaledGap_eq_mul,
    Real.sqrt_mul (lengthRatio_nonneg a b), nearValue]

theorem nearValue_triangle {a b c : Burst} (hapkt : 1 ≤ a.pktNum) (hbpkt : 1 ≤ b.pktNum)
    (hcpkt : 1 ≤ c.pktNum) :
    nearValue a c ≤ Real.sqrt (lengthRatio b c) * nearValue a b +
      Real.sqrt (lengthRatio a b) * nearValue b c := by
  have hratio : Real.sqrt (lengthRatio a c) ≤
      Real.sqrt (lengthRatio a b) * Real.sqrt (lengthRatio b c) := by
    rw [← Real.sqrt_mul (lengthRatio_nonneg a b)]
    exact Real.sqrt_le_sqrt (lengthRatio_le_mul hapkt hbpkt hcpkt)
  calc nearValue a c
      ≤ (Real.sqrt (lengthRatio a b) * Real.sqrt (lengthRatio b c)) *
          (Real.sqrt (gap a.sigs b.sigs) + Real.sqrt (gap b.sigs c.sigs)) :=
        mul_le_mul hratio (sqrt_gap_triangle _ _ _) (Real.sqrt_nonneg _) (by positivity)
    _ = Real.sqrt (lengthRatio b c) * nearValue a b +
          Real.sqrt (lengthRatio a b) * nearValue b c := by
        rw [nearValue, nearValue]
        ring

/-- **The triangle inequality of `Distance`**, up to the ratios of the lengths: what is near to a
burst is near to its neighbours. -/
theorem distance_triangle {a b c : Burst} (ha : a.WellFormed) (hb : b.WellFormed)
    (hc : c.WellFormed) (hapkt : 1 ≤ a.pktNum) (hbpkt : 1 ≤ b.pktNum) (hcpkt : 1 ≤ c.pktNum)
    (hbroom : b.uniPktNum.toNat ≤ 101) (hcroom : c.uniPktNum.toNat ≤ 101) (hab : ¬ Far a b)
    (hbc : ¬ Far b c) (hac : ¬ Far a c) :
    ∃ dab dbc dac : ℝ, a.distance b = .ok dab ∧ b.distance c = .ok dbc ∧ a.distance c = .ok dac ∧
      dac ≤ Real.sqrt (lengthRatio b c) * dab + Real.sqrt (lengthRatio a b) * dbc :=
  ⟨_, _, _, distance_of_near ha hb hbroom hab, distance_of_near hb hc hcroom hbc,
    distance_of_near ha hc hcroom hac, nearValue_triangle hapkt hbpkt hcpkt⟩

/-- A burst of a lamp, the same twice as long, and one with a packet more. -/
theorem distance_triangle_lamp :
    let a : Burst := ⟨2, 3, "lamp", .zero, .zero, [(100, 2), (-60, 1)]⟩
    let b : Burst := ⟨2, 6, "lamp", .zero, .zero, [(-60, 2), (100, 4)]⟩
    let c : Burst := ⟨2, 4, "lamp", .zero, .zero, [(100, 2), (-60, 2)]⟩
    ∃ dab dbc dac : ℝ, a.distance b = .ok dab ∧ b.distance c = .ok dbc ∧ a.distance c = .ok dac ∧
      dac ≤ Real.sqrt (lengthRatio b c) * dab + Real.sqrt (lengthRatio a b) * dbc :=
  distance_triangle ⟨by decide, by decide, by decide, by decide⟩
    ⟨by decide, by decide, by decide, by decide⟩ ⟨by decide, by decide, by decide, by decide⟩
    (by decide) (by decide) (by decide) (by decide) (by decide) (by decide) (by decide) (by decide)

theorem gap_eq_zero_of_proportional {a b : Burst} (ha : a.WellFormed) (hb : b.WellFormed)
    (hapkt : 1 ≤ a.pktNum) (hbpkt : 1 ≤ b.pktNum) (h : Proportional a b) :
    gap a.sigs b.sigs = 0 :=
  (gap_eq_zero_iff (ha.sigs_ne_zero hapkt) (hb.sigs_ne_zero hbpkt)).mpr
    ((proportional_iff ha hb hapkt hbpkt).mp h)

/-- **Seen from a third burst**, bursts with proportional counts differ as their lengths do. -/
theorem distance_of_proportional {a b c : Burst} (ha : a.WellFormed) (hb : b.WellFormed)
    (hc : c.WellFormed) (hbpkt : 1 ≤ b.pktNum) (hcpkt : 1 ≤ c.pktNum)
    (hbroom : b.uniPktNum.toNat ≤ 101) (hcroom : c.uniPktNum.toNat ≤ 101) (hab : ¬ Far a b)
    (hac : ¬ Far a c) (h : Proportional b c) :
    ∃ dab dac : ℝ, a.distance b = .ok dab ∧ a.distance c = .ok dac ∧
      dac * Real.sqrt (lengthRatio a b) = dab * Real.sqrt (lengthRatio a c) := by
  refine ⟨_, _, distance_of_near ha hb hbroom hab, distance_of_near ha hc hcroom hac, ?_⟩
  rw [nearValue, nearValue]
  have hzero := gap_eq_zero_of_proportional hb hc hbpkt hcpkt h
  have hle : Real.sqrt (gap a.sigs c.sigs) ≤ Real.sqrt (gap a.sigs b.sigs) := by
    have htriangle := sqrt_gap_triangle a.sigs b.sigs c.sigs
    rwa [hzero, Real.sqrt_zero, add_zero] at htriangle
  have hge : Real.sqrt (gap a.sigs b.sigs) ≤ Real.sqrt (gap a.sigs c.sigs) := by
    have htriangle := sqrt_gap_triangle a.sigs c.sigs b.sigs
    rwa [gap_comm c.sigs b.sigs, hzero, Real.sqrt_zero, add_zero] at htriangle
  rw [le_antisymm hle hge]
  ring

/-! ## The other overload -/

section Model

variable {F : Type} [Field F] [Elementary F]

/-- One iteration of the second loop of `Distance(const Burst&)`: the frequency of an entry that is
not taken. -/
def addRemainderFreq (check : List Bool) (burst2 : Burst) (distance : F) (i : ℕ) :
    Except Fault F := do
  let taken ← at? check i
  if taken then return distance
  else
    let e ← at? burst2.packetDetail i
    return distance + (e.2 : F) / (burst2.pktNum : F)

/-- The cut-off of `Distance(const Burst&)`: more than 100 packets apart. -/
def FarRef (b burst2 : Burst) : Prop := Beyond 100 b burst2

instance (b burst2 : Burst) : Decidable (FarRef b burst2) :=
  inferInstanceAs (Decidable (Beyond 100 b burst2))

/-- `Distance(const Burst&)`.  Its first loop adds the same terms, from frequencies that it computes
first. -/
def distanceRef (b burst2 : Burst) : Except Fault F :=
  if FarRef b burst2 then .ok 1
  else do
    let (check, distance) ← (List.range b.uniPktNum.toNat).foldlM (addSigDistance b burst2)
      (List.replicate 101 false, (0 : F))
    let distance ← (List.range burst2.uniPktNum.toNat).foldlM
      (addRemainderFreq check burst2) distance
    return Elementary.sqrt (distance / 2)

end Model

theorem farRef_comm {a b : Burst} : FarRef a b ↔ FarRef b a :=
  beyond_comm

/-- Within the cut-off of the other overload, and not too long for that of `Distance`. -/
theorem not_far_of_not_farRef {a b : Burst} (h : ¬ FarRef a b) (hafits : a.pktNum + 120 < 2 ^ 31)
    (hbfits : b.pktNum + 120 < 2 ^ 31) : ¬ Far a b := by
  obtain ⟨hle, hle', -⟩ := (not_beyond_iff (by decide)).mp h
  exact not_far_iff.mpr (by omega)

theorem addRemainderFreq_ok {burst2 : Burst} (hburst2 : burst2.Counted) {check : List Bool} {i : ℕ}
    (hcheck : i < check.length) (hi : i < burst2.uniPktNum.toNat) (d : ℝ) :
    addRemainderFreq check burst2 d i =
      .ok (d + (burst2.leftCount check [i] : ℝ) / burst2.pktNum) := by
  have hdetail : i < burst2.packetDetail.length := hburst2.uniPktNum ▸ hi
  have hget := List.getElem?_eq_getElem hdetail
  rw [addRemainderFreq, at?_of_lt hcheck, at?_of_lt hdetail, leftCount, List.map_singleton,
    List.sum_singleton, List.getElem?_eq_getElem hcheck, countAt_eq hget]
  dsimp only [bind, Except.bind]
  cases check[i] with
  | true => simp [pure, Except.pure]
  | false => simp [pure, Except.pure]

/-- The second loop adds the frequencies of the entries that are left. -/
theorem addRemainderFreqs_ok {burst2 : Burst} (hburst2 : burst2.Counted) {check : List Bool}
    (hroom : burst2.uniPktNum.toNat ≤ check.length) (d : ℝ) :
    (List.range burst2.uniPktNum.toNat).foldlM (addRemainderFreq check burst2) d =
      .ok (d + (burst2.leftCount check (List.range burst2.uniPktNum.toNat) : ℝ) /
        burst2.pktNum) := by
  let I : List ℕ → ℝ → Prop := fun done x =>
    x = d + (burst2.leftCount check done : ℝ) / burst2.pktNum
  obtain ⟨x, hx, hI⟩ := CheckedLoop.foldlM_ok (I := I) (f := addRemainderFreq check burst2)
    (l := List.range burst2.uniPktNum.toNat) (s := d) (fun done i rest hall x hx => by
      have hi : i < burst2.uniPktNum.toNat := by
        rw [← List.mem_range, hall]
        exact List.mem_append_right _ List.mem_cons_self
      have hx : x = d + (burst2.leftCount check done : ℝ) / burst2.pktNum := hx
      refine ⟨_, addRemainderFreq_ok hburst2 (by omega) hi x, ?_⟩
      show _ = _
      rw [hx, leftCount, leftCount, leftCount, List.map_append, List.sum_append, Nat.cast_add,
        add_div, add_assoc]) (by simp [I, leftCount])
  rw [hx, show x = _ from hI]

/-- **`Distance(const Burst&)` in closed form.** -/
theorem distanceRef_eq {a b : Burst} (ha : a.WellFormed) (hb : b.WellFormed)
    (hbroom : b.uniPktNum.toNat ≤ 101) :
    a.distanceRef b =
      .ok (if FarRef a b then 1 else Real.sqrt (gap a.sigs b.sigs / 2)) := by
  rw [distanceRef]
  by_cases hfar : FarRef a b
  · rw [if_pos hfar, if_pos hfar]
  · rw [if_neg hfar, if_neg hfar]
    obtain ⟨check, hfirst, hmatched⟩ := firstLoop ha hb hbroom
    have hcheck : b.uniPktNum.toNat ≤ check.length := by
      rw [hmatched.length]
      exact hbroom
    rw [hfirst]
    dsimp only [bind, Except.bind]
    rw [addRemainderFreqs_ok hb.counted hcheck, leftCount_eq ha hb hmatched, ← gap_eq_sum_add]
    rfl

/-- The value of `Distance(const Burst&)`. -/
noncomputable def refValue (a b : Burst) : ℝ :=
  if FarRef a b then 1 else Real.sqrt (gap a.sigs b.sigs / 2)

theorem refValue_comm (a b : Burst) : refValue a b = refValue b a := by
  rw [refValue, refValue, gap_comm]
  simp only [farRef_comm]

theorem refValue_nonneg (a b : Burst) : 0 ≤ refValue a b := by
  rw [refValue]
  split_ifs
  · exact zero_le_one
  · exact Real.sqrt_nonneg _

theorem refValue_le_one {a b : Burst} (ha : a.WellFormed) (hb : b.WellFormed)
    (hapkt : 1 ≤ a.pktNum) (hbpkt : 1 ≤ b.pktNum) : refValue a b ≤ 1 := by
  rw [refValue]
  split_ifs
  · exact le_rfl
  · have htwo := gap_le_two (ha.sigs_ne_zero hapkt) (hb.sigs_ne_zero hbpkt)
    rw [Real.sqrt_le_one]
    linarith only [htwo]

theorem refValue_eq_zero_iff {a b : Burst} (ha : a.WellFormed) (hb : b.WellFormed)
    (hapkt : 1 ≤ a.pktNum) (hbpkt : 1 ≤ b.pktNum) (hnear : ¬ FarRef a b) :
    refValue a b = 0 ↔ Proportional a b := by
  rw [refValue, if_neg hnear, Real.sqrt_eq_zero (by have := gap_nonneg a.sigs b.sigs; positivity),
    div_eq_zero_iff, or_iff_left two_ne_zero,
    gap_eq_zero_iff (ha.sigs_ne_zero hapkt) (hb.sigs_ne_zero hbpkt),
    proportional_iff ha hb hapkt hbpkt]

theorem refValue_triangle {a b c : Burst} (ha : a.WellFormed) (hc : c.WellFormed)
    (hapkt : 1 ≤ a.pktNum) (hcpkt : 1 ≤ c.pktNum) (hac : ¬ FarRef a c) :
    refValue a c ≤ refValue a b + refValue b c := by
  have hone := refValue_le_one ha hc hapkt hcpkt
  by_cases hab : FarRef a b
  · -- the distance of the first two is one
    have hbc := refValue_nonneg b c
    rw [show refValue a b = 1 from if_pos hab]
    linarith only [hone, hbc]
  · by_cases hbc : FarRef b c
    · have hab := refValue_nonneg a b
      rw [show refValue b c = 1 from if_pos hbc]
      linarith only [hone, hab]
    · rw [refValue, refValue, refValue, if_neg hab, if_neg hbc, if_neg hac,
        Real.sqrt_div' _ zero_le_two, Real.sqrt_div' _ zero_le_two, Real.sqrt_div' _ zero_le_two,
        ← add_div]
      exact div_le_div_of_nonneg_right (sqrt_gap_triangle _ _ _) (Real.sqrt_nonneg 2)

/-- Within the cut-off of the other overload, `Distance` is this value scaled. -/
theorem distance_eq_refValue {a b : Burst} (ha : a.WellFormed) (hb : b.WellFormed)
    (hbroom : b.uniPktNum.toNat ≤ 101) (hnear : ¬ FarRef a b) (hafits : a.pktNum + 120 < 2 ^ 31)
    (hbfits : b.pktNum + 120 < 2 ^ 31) :
    a.distance b = .ok (Real.sqrt (2 * lengthRatio a b) * refValue a b) := by
  have hgap : gap a.sigs b.sigs = 2 * (gap a.sigs b.sigs / 2) := by ring
  have hfar := not_far_of_not_farRef hnear hafits hbfits
  rw [distance_of_near ha hb hbroom hfar, nearValue, refValue, if_neg hnear,
    Real.sqrt_mul zero_le_two]
  conv_lhs => rw [hgap, Real.sqrt_mul zero_le_two]
  congr 1
  ring

/-- **The other overload is a metric on distributions**: symmetric, between zero and one, zero
within the cut-off for proportional counts only, and with the triangle inequality for bursts within
the cut-off, by way of any burst.  `Distance` is the same up to the lengths. -/
theorem distanceRef_metric {a b c : Burst} (ha : a.WellFormed) (hb : b.WellFormed)
    (hc : c.WellFormed) (hapkt : 1 ≤ a.pktNum) (hbpkt : 1 ≤ b.pktNum) (hcpkt : 1 ≤ c.pktNum)
    (haroom : a.uniPktNum.toNat ≤ 101) (hbroom : b.uniPktNum.toNat ≤ 101)
    (hcroom : c.uniPktNum.toNat ≤ 101) :
    ∃ dab dbc dac : ℝ, a.distanceRef b = .ok dab ∧ b.distanceRef a = .ok dab ∧
      b.distanceRef c = .ok dbc ∧ a.distanceRef c = .ok dac ∧ 0 ≤ dab ∧ dab ≤ 1 ∧
      (¬ FarRef a b → (dab = 0 ↔ Proportional a b) ∧
        (a.pktNum + 120 < 2 ^ 31 → b.pktNum + 120 < 2 ^ 31 →
          a.distance b = .ok (Real.sqrt (2 * lengthRatio a b) * dab))) ∧
      (¬ FarRef a c → dac ≤ dab + dbc) := by
  refine ⟨refValue a b, refValue b c, refValue a c, distanceRef_eq ha hb hbroom, ?_,
    distanceRef_eq hb hc hcroom, distanceRef_eq ha hc hcroom, refValue_nonneg a b,
    refValue_le_one ha hb hapkt hbpkt, fun hnear => ?_, refValue_triangle ha hc hapkt hcpkt⟩
  · rw [refValue_comm]
    exact distanceRef_eq hb ha haroom
  · exact ⟨refValue_eq_zero_iff ha hb hapkt hbpkt hnear,
      distance_eq_refValue ha hb hbroom hnear⟩

/-- Two bursts of a lamp, and one with a packet more. -/
theorem distanceRef_metric_lamp :
    let a : Burst := ⟨2, 3, "lamp", .zero, .zero, [(100, 2), (-60, 1)]⟩
    let b : Burst := ⟨2, 6, "lamp", .zero, .zero, [(-60, 2), (100, 4)]⟩
    let c : Burst := ⟨2, 4, "lamp", .zero, .zero, [(100, 2), (-60, 2)]⟩
    ∃ dab dbc dac : ℝ, a.distanceRef b = .ok dab ∧ b.distanceRef a = .ok dab ∧
      b.distanceRef c = .ok dbc ∧ a.distanceRef c = .ok dac ∧ 0 ≤ dab ∧ dab ≤ 1 ∧
      (¬ FarRef a b → (dab = 0 ↔ Proportional a b) ∧
        (a.pktNum + 120 < 2 ^ 31 → b.pktNum + 120 < 2 ^ 31 →
          a.distance b = .ok (Real.sqrt (2 * lengthRatio a b) * dab))) ∧
      (¬ FarRef a c → dac ≤ dab + dbc) :=
  distanceRef_metric ⟨by decide, by decide, by decide, by decide⟩
    ⟨by decide, by decide, by decide, by decide⟩ ⟨by decide, by decide, by decide, by decide⟩
    (by decide) (by decide) (by decide) (by decide) (by decide) (by decide)

end Burst
end BurstIoT
