import BurstIoT.DistanceSymmetry

/-!
# The distance can exceed one

`Distance` returns 1 at once for bursts more than 120 packets apart.  The other overload halves the
sum before it takes the root, which keeps it within 1; in this one the halving is commented out, and
the value is at most 1 only where the distributions overlap enough for the ratio of the lengths
(`distance_le_one_iff`).  Two bursts without a common signature are at distance `√2` or more, and
then a burst of very different length looks closer (`not_distance_le_one_lampAndPlug`).
-/

namespace BurstIoT
namespace Burst

open Frequencies

/-- The distributions overlap enough for the ratio of the lengths. -/
def OverlapEnough (a b : Burst) : Prop :=
  2 * (1 - affinity a.sigs b.sigs) * (max a.pktNum b.pktNum : ℕ) ≤ (min a.pktNum b.pktNum : ℕ)

theorem scaledGap_le_one_iff {a b : Burst} (ha : a.WellFormed) (hb : b.WellFormed)
    (hapkt : 1 ≤ a.pktNum) (hbpkt : 1 ≤ b.pktNum) : scaledGap a b ≤ 1 ↔ OverlapEnough a b := by
  have hmin : (0 : ℝ) < (min a.pktNum b.pktNum : ℕ) := Nat.cast_pos.mpr (by omega)
  rw [scaledGap, div_le_one hmin,
    gap_eq_two_sub (ha.sigs_ne_zero hapkt) (hb.sigs_ne_zero hbpkt), OverlapEnough, mul_sub, mul_one]

/-- **When `Distance` is at most one**, and when no burst beyond the cut-off looks closer. -/
theorem distance_le_one_iff {a b : Burst} (ha : a.WellFormed) (hb : b.WellFormed)
    (hapkt : 1 ≤ a.pktNum) (hbpkt : 1 ≤ b.pktNum) (hbroom : b.uniPktNum.toNat ≤ 101) :
    ∃ d : ℝ, a.distance b = .ok d ∧ (d ≤ 1 ↔ Far a b ∨ OverlapEnough a b) ∧
      ∀ c, Far a c → ∃ d', a.distance c = .ok d' ∧ (d ≤ d' ↔ Far a b ∨ OverlapEnough a b) := by
  have hone : ((if Far a b then 1 else Real.sqrt (scaledGap a b) : ℝ) ≤ 1) ↔
      Far a b ∨ OverlapEnough a b := by
    by_cases hfar : Far a b
    · rw [if_pos hfar]
      exact ⟨fun _ => Or.inl hfar, fun _ => le_rfl⟩
    · rw [if_neg hfar, or_iff_right hfar, Real.sqrt_le_one, scaledGap_le_one_iff ha hb hapkt hbpkt]
  exact ⟨_, distance_eq ha hb hbroom, hone, fun c hc => ⟨1, distance_of_far hc, hone⟩⟩

/-- A burst and itself, twice as long. -/
theorem distance_le_one_iff_doubled :
    let a : Burst := ⟨2, 3, "lamp", .zero, .zero, [(100, 2), (-60, 1)]⟩
    let b : Burst := ⟨2, 6, "lamp", .zero, .zero, [(-60, 2), (100, 4)]⟩
    ∃ d : ℝ, a.distance b = .ok d ∧ (d ≤ 1 ↔ Far a b ∨ OverlapEnough a b) ∧
      ∀ c, Far a c → ∃ d', a.distance c = .ok d' ∧ (d ≤ d' ↔ Far a b ∨ OverlapEnough a b) :=
  distance_le_one_iff ⟨by decide, by decide, by decide, by decide⟩
    ⟨by decide, by decide, by decide, by decide⟩ (by decide) (by decide) (by decide)

/-! ## Bursts without a common signature -/

/-- Within the cut-off, bursts without a common signature are more than one apart. -/
theorem one_lt_distance_of_disjoint {a b : Burst} (ha : a.WellFormed) (hb : b.WellFormed)
    (hapkt : 1 ≤ a.pktNum) (hbpkt : 1 ≤ b.pktNum) (hbroom : b.uniPktNum.toNat ≤ 101)
    (hnear : ¬ Far a b) (hdisjoint : ∀ sig ∈ a.sigs, sig ∉ b.sigs) :
    ∃ d : ℝ, a.distance b = .ok d ∧ 1 < d := by
  refine ⟨_, distance_eq ha hb hbroom, ?_⟩
  rw [if_neg hnear, ← not_le, Real.sqrt_le_one, scaledGap_le_one_iff ha hb hapkt hbpkt,
    OverlapEnough, affinity_of_disjoint hdisjoint, sub_zero, mul_one, not_le]
  exact_mod_cast (show min a.pktNum b.pktNum < 2 * max a.pktNum b.pktNum by omega)

/-- A lamp and a plug that send one packet each, and a camera that sends 122 packets of a third
length: the camera looks closer to the lamp than the plug. -/
theorem not_distance_le_one_lampAndPlug :
    let lamp : Burst := ⟨1, 1, "lamp", .zero, .zero, [(100, 1)]⟩
    let plug : Burst := ⟨1, 1, "plug", .zero, .zero, [(200, 1)]⟩
    let camera : Burst := ⟨1, 122, "camera", .zero, .zero, [(300, 122)]⟩
    lamp.WellFormed ∧ plug.WellFormed ∧ camera.WellFormed ∧ Far lamp camera ∧
      ∃ d d' : ℝ, lamp.distance plug = .ok d ∧ lamp.distance camera = .ok d' ∧ ¬ d ≤ 1 ∧
        d' < d := by
  intro lamp plug camera
  have hlamp : lamp.WellFormed := ⟨by decide, by decide, by decide, by decide⟩
  have hplug : plug.WellFormed := ⟨by decide, by decide, by decide, by decide⟩
  have hcamera : camera.WellFormed := ⟨by decide, by decide, by decide, by decide⟩
  have hfar : Far lamp camera := by decide
  have hdisjoint : ∀ sig ∈ lamp.sigs, sig ∉ plug.sigs := by
    intro sig hsig hsig'
    obtain rfl : sig = 100 := List.mem_singleton.mp (hlamp.mem_sigs.mp hsig)
    exact absurd (List.mem_singleton.mp (hplug.mem_sigs.mp hsig')) (by decide)
  obtain ⟨d, hd, hlt⟩ := one_lt_distance_of_disjoint hlamp hplug (by decide) (by decide)
    (by decide) (by decide) hdisjoint
  exact ⟨hlamp, hplug, hcamera, hfar, d, 1, hd, distance_of_far hfar, not_le.mpr hlt, hlt⟩

end Burst
end BurstIoT
