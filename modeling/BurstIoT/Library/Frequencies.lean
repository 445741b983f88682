import Mathlib.Algebra.BigOperators.Field
import Mathlib.Algebra.Order.BigOperators.Group.Finset
import Mathlib.Analysis.Real.Sqrt
import Mathlib.Tactic.Linarith
import Mathlib.Tactic.Positivity

/-!
# Frequencies

How far two multisets are apart as distributions: `gap s t` adds up, over all elements, the squared
differences of the square roots of the two frequencies (twice the square of the Hellinger distance).
It is symmetric and not negative (`gap_comm`, `gap_nonneg`), and zero exactly when the counts are
proportional (`gap_eq_zero_iff`).

A loop that meets the elements of `s` first and those of `t` afterwards computes `gap_eq_sum_add`.
`gap_eq_two_sub` writes the gap with `affinity s t`, the sum of the geometric means of the two
frequencies, so that elements which only one of the two has do not count.

The square root of the gap satisfies the triangle inequality (`sqrt_gap_triangle`), and the gap is
at most two (`gap_le_two`).
-/

namespace BurstIoT
namespace Frequencies

variable {α : Type} [DecidableEq α] {s t : Multiset α}

/-- The frequency of an element. -/
noncomputable def freq (s : Multiset α) (a : α) : ℝ :=
  (s.count a : ℝ) / s.card

/-- The squared differences of the square roots of the frequencies. -/
noncomputable def gap (s t : Multiset α) : ℝ :=
  ∑ a ∈ s.toFinset ∪ t.toFinset, (Real.sqrt (freq s a) - Real.sqrt (freq t a)) ^ 2

/-- The geometric means of the frequencies. -/
noncomputable def affinity (s t : Multiset α) : ℝ :=
  ∑ a ∈ s.toFinset ∪ t.toFinset, Real.sqrt (freq s a * freq t a)

theorem freq_nonneg (s : Multiset α) (a : α) : 0 ≤ freq s a := by
  rw [freq]
  positivity

theorem freq_of_notMem {a : α} (h : a ∉ s) : freq s a = 0 := by
  rw [freq, Multiset.count_eq_zero.mpr h, Nat.cast_zero, zero_div]

theorem sum_freq (hs : s ≠ 0) {u : Finset α} (hu : s.toFinset ⊆ u) : ∑ a ∈ u, freq s a = 1 := by
  have hcard : (s.card : ℝ) ≠ 0 := Nat.cast_ne_zero.mpr (Multiset.card_eq_zero.not.mpr hs)
  have houtside : ∀ a ∈ u, a ∉ s.toFinset → freq s a = 0 := fun a _ ha =>
    freq_of_notMem fun hmem => ha (Multiset.mem_toFinset.mpr hmem)
  rw [← Finset.sum_subset hu houtside]
  simp only [freq]
  rw [← Finset.sum_div, ← Nat.cast_sum, Multiset.toFinset_sum_count_eq, div_self hcard]

/-! ## A symmetric measure that separates -/

theorem gap_comm (s t : Multiset α) : gap s t = gap t s := by
  rw [gap, gap, Finset.union_comm]
  exact Finset.sum_congr rfl fun a _ => sub_sq_comm _ _

theorem gap_nonneg (s t : Multiset α) : 0 ≤ gap s t :=
  Finset.sum_nonneg fun _ _ => sq_nonneg _

theorem freq_eq_iff (hs : s ≠ 0) (ht : t ≠ 0) (a : α) :
    freq s a = freq t a ↔ s.count a * t.card = t.count a * s.card := by
  have hcards : (s.card : ℝ) ≠ 0 := Nat.cast_ne_zero.mpr (Multiset.card_eq_zero.not.mpr hs)
  have hcardt : (t.card : ℝ) ≠ 0 := Nat.cast_ne_zero.mpr (Multiset.card_eq_zero.not.mpr ht)
  rw [freq, freq, div_eq_div_iff hcards hcardt]
  norm_cast

/-- **The gap is zero exactly when the counts are proportional.** -/
theorem gap_eq_zero_iff (hs : s ≠ 0) (ht : t ≠ 0) :
    gap s t = 0 ↔ ∀ a, s.count a * t.card = t.count a * s.card := by
  rw [gap, Finset.sum_eq_zero_iff_of_nonneg fun a _ => sq_nonneg _]
  constructor
  · intro h a
    rw [← freq_eq_iff hs ht]
    by_cases ha : a ∈ s.toFinset ∪ t.toFinset
    · have hsqrt := sub_eq_zero.mp (pow_eq_zero_iff two_ne_zero |>.mp (h a ha))
      exact (Real.sqrt_inj (freq_nonneg s a) (freq_nonneg t a)).mp hsqrt
    · rw [Finset.notMem_union, Multiset.mem_toFinset, Multiset.mem_toFinset] at ha
      rw [freq_of_notMem ha.1, freq_of_notMem ha.2]
  · intro h a _
    rw [(freq_eq_iff hs ht a).mpr (h a), sub_self, zero_pow two_ne_zero]

/-- Proportional counts are counts of the same elements. -/
theorem mem_iff_of_proportional (hs : s ≠ 0) (ht : t ≠ 0)
    (h : ∀ a, s.count a * t.card = t.count a * s.card) (a : α) : a ∈ s ↔ a ∈ t := by
  have hcards : 0 < s.card := Multiset.card_pos.mpr hs
  have hcardt : 0 < t.card := Multiset.card_pos.mpr ht
  rw [← Multiset.count_pos, ← Multiset.count_pos]
  constructor
  · intro ha
    exact Nat.pos_of_mul_pos_right (h a ▸ Nat.mul_pos ha hcardt)
  · intro ha
    exact Nat.pos_of_mul_pos_right ((h a).symm ▸ Nat.mul_pos ha hcards)

/-! ## Two ways to add it up -/

/-- **The elements of one side first**, then what the other side has besides. -/
theorem gap_eq_sum_add (s t : Multiset α) :
    gap s t = ∑ a ∈ s.toFinset, (Real.sqrt (freq s a) - Real.sqrt (freq t a)) ^ 2 +
      ∑ a ∈ t.toFinset \ s.toFinset, freq t a := by
  have hrest : ∀ a ∈ t.toFinset \ s.toFinset,
      (Real.sqrt (freq s a) - Real.sqrt (freq t a)) ^ 2 = freq t a := by
    intro a ha
    have hout : a ∉ s := fun hmem => (Finset.mem_sdiff.mp ha).2 (Multiset.mem_toFinset.mpr hmem)
    rw [freq_of_notMem hout, Real.sqrt_zero, zero_sub, neg_sq, Real.sq_sqrt (freq_nonneg t a)]
  rw [gap, ← Finset.union_sdiff_self_eq_union, Finset.sum_union Finset.disjoint_sdiff,
    Finset.sum_congr rfl hrest]

/-- **The gap is two less twice the affinity.** -/
theorem gap_eq_two_sub (hs : s ≠ 0) (ht : t ≠ 0) : gap s t = 2 - 2 * affinity s t := by
  have hterm : ∀ a, (Real.sqrt (freq s a) - Real.sqrt (freq t a)) ^ 2 =
      freq s a + freq t a - 2 * Real.sqrt (freq s a * freq t a) := by
    intro a
    rw [sub_sq, Real.sq_sqrt (freq_nonneg s a), Real.sq_sqrt (freq_nonneg t a),
      Real.sqrt_mul (freq_nonneg s a)]
    ring
  simp only [gap, hterm]
  rw [Finset.sum_sub_distrib, Finset.sum_add_distrib, sum_freq hs Finset.subset_union_left,
    sum_freq ht Finset.subset_union_right, ← Finset.mul_sum, affinity]
  ring

/-- Without a common element there is no affinity. -/
theorem affinity_of_disjoint (h : ∀ a ∈ s, a ∉ t) : affinity s t = 0 := by
  refine Finset.sum_eq_zero fun a _ => ?_
  by_cases ha : a ∈ s
  · rw [freq_of_notMem (h a ha), mul_zero, Real.sqrt_zero]
  · rw [freq_of_notMem ha, zero_mul, Real.sqrt_zero]

/-! ## The square root of the gap -/

theorem affinity_nonneg (s t : Multiset α) : 0 ≤ affinity s t :=
  Finset.sum_nonneg fun _ _ => Real.sqrt_nonneg _

theorem gap_le_two (hs : s ≠ 0) (ht : t ≠ 0) : gap s t ≤ 2 := by
  have haffinity := affinity_nonneg s t
  rw [gap_eq_two_sub hs ht]
  linarith only [haffinity]

/-- The gap, added up over any elements among which those of both are. -/
theorem gap_eq_sum {u : Finset α} (hu : s.toFinset ∪ t.toFinset ⊆ u) :
    gap s t = ∑ a ∈ u, (Real.sqrt (freq s a) - Real.sqrt (freq t a)) ^ 2 := by
  refine Finset.sum_subset hu fun a _ ha => ?_
  rw [Finset.notMem_union, Multiset.mem_toFinset, Multiset.mem_toFinset] at ha
  rw [freq_of_notMem ha.1, freq_of_notMem ha.2, sub_self, zero_pow two_ne_zero]

omit [DecidableEq α] in
/-- Minkowski's inequality for sums of squares. -/
theorem sqrt_sum_sq_add_le (u : Finset α) (f g : α → ℝ) :
    Real.sqrt (∑ a ∈ u, (f a + g a) ^ 2) ≤
      Real.sqrt (∑ a ∈ u, f a ^ 2) + Real.sqrt (∑ a ∈ u, g a ^ 2) := by
  have hf : 0 ≤ ∑ a ∈ u, f a ^ 2 := Finset.sum_nonneg fun a _ => sq_nonneg _
  have hg : 0 ≤ ∑ a ∈ u, g a ^ 2 := Finset.sum_nonneg fun a _ => sq_nonneg _
  have hcross := Real.sum_mul_le_sqrt_mul_sqrt u f g
  refine Real.sqrt_le_iff.mpr ⟨add_nonneg (Real.sqrt_nonneg _) (Real.sqrt_nonneg _), ?_⟩
  calc ∑ a ∈ u, (f a + g a) ^ 2
      = ∑ a ∈ u, f a ^ 2 + 2 * ∑ a ∈ u, f a * g a + ∑ a ∈ u, g a ^ 2 := by
        rw [Finset.mul_sum, ← Finset.sum_add_distrib, ← Finset.sum_add_distrib]
        exact Finset.sum_congr rfl fun a _ => by ring
    _ ≤ ∑ a ∈ u, f a ^ 2 + 2 * (Real.sqrt (∑ a ∈ u, f a ^ 2) * Real.sqrt (∑ a ∈ u, g a ^ 2)) +
        ∑ a ∈ u, g a ^ 2 := by linarith only [hcross]
    _ = (Real.sqrt (∑ a ∈ u, f a ^ 2) + Real.sqrt (∑ a ∈ u, g a ^ 2)) ^ 2 := by
        rw [add_sq, Real.sq_sqrt hf, Real.sq_sqrt hg]
        ring

/-- **The triangle inequality.** -/
theorem sqrt_gap_triangle (r s t : Multiset α) :
    Real.sqrt (gap r t) ≤ Real.sqrt (gap r s) + Real.sqrt (gap s t) := by
  let u : Finset α := r.toFinset ∪ s.toFinset ∪ t.toFinset
  have hrs : r.toFinset ∪ s.toFinset ⊆ u := Finset.subset_union_left
  have hst : s.toFinset ∪ t.toFinset ⊆ u :=
    Finset.union_subset_union_left Finset.subset_union_right
  have hrt : r.toFinset ∪ t.toFinset ⊆ u :=
    Finset.union_subset_union_left Finset.subset_union_left
  rw [gap_eq_sum hrs, gap_eq_sum hst, gap_eq_sum hrt]
  have hsplit : ∀ a, Real.sqrt (freq r a) - Real.sqrt (freq t a) =
      (Real.sqrt (freq r a) - Real.sqrt (freq s a)) +
        (Real.sqrt (freq s a) - Real.sqrt (freq t a)) := fun a => by ring
  simp only [hsplit]
  exact sqrt_sum_sq_add_le u _ _

end Frequencies
end BurstIoT
