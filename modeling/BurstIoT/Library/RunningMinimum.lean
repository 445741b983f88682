import Mathlib.Data.List.Perm.Basic
import Mathlib.Order.Lattice

/-!
# A running minimum with its ties

A loop that looks for the items at the least distance starts from a bound and from no item.  It
drops what it has kept when it meets a smaller distance, and keeps an item that ties (`keep`).

`Least top d l n` is what it leaves after the items `l`: the least of the bound and of their
distances, and exactly the items at that distance, in order.  `Least.append` is one iteration.  If
the bound lies above every distance, the distance is that of an item (`Least.exists_mem`).  The
distance does not depend on the order of the items, and what is kept depends on it up to its order
(`Least.perm`).
-/

namespace BurstIoT
namespace RunningMinimum

variable {α F : Type} [LinearOrder F]

/-- One iteration: drop what is farther, keep what ties. -/
def keep (distance : F) (n : F × List α) (a : α) : F × List α :=
  if distance < n.1 then (distance, [a])
  else if distance = n.1 then (n.1, n.2 ++ [a])
  else n

/-- What the loop leaves after the items `l`. -/
structure Least (top : F) (d : α → F) (l : List α) (n : F × List α) : Prop where
  le_top : n.1 ≤ top
  le : ∀ a ∈ l, n.1 ≤ d a
  eq : n.1 = top ∨ ∃ a ∈ l, d a = n.1
  items : n.2 = l.filter fun a => d a = n.1

namespace Least

variable {top : F} {d : α → F} {l : List α} {n : F × List α}

theorem nil : Least top d [] (top, []) where
  le_top := le_refl top
  le := fun _ ha => absurd ha List.not_mem_nil
  eq := Or.inl rfl
  items := rfl

/-- **One iteration.** -/
theorem append (h : Least top d l n) (a : α) : Least top d (l ++ [a]) (keep (d a) n a) := by
  have hmem : ∀ {b}, b ∈ l ++ [a] → b ∈ l ∨ b = a := fun {b} hb =>
    (List.mem_append.mp hb).imp id List.mem_singleton.mp
  rw [keep]
  split_ifs with hlt heq
  · refine ⟨hlt.le.trans h.le_top, fun b hb => ?_, Or.inr ⟨a, by simp, rfl⟩, ?_⟩
    · rcases hmem hb with hb | rfl
      · exact hlt.le.trans (h.le b hb)
      · exact le_refl _
    · -- every earlier item is farther
      have hnone : l.filter (fun b => d b = d a) = [] := by
        rw [List.filter_eq_nil_iff]
        intro b hb hd
        exact absurd (of_decide_eq_true hd) (hlt.trans_le (h.le b hb)).ne'
      rw [List.filter_append, hnone, List.filter_singleton]
      simp
  · refine ⟨h.le_top, fun b hb => ?_, h.eq.imp id fun ⟨b, hb, hd⟩ => ⟨b, by simp [hb], hd⟩, ?_⟩
    · rcases hmem hb with hb | rfl
      · exact h.le b hb
      · exact heq.ge
    · rw [List.filter_append, ← h.items, List.filter_singleton]
      simp [heq]
  · have hgt : n.1 < d a := lt_of_le_of_ne (not_lt.mp hlt) (Ne.symm heq)
    refine ⟨h.le_top, fun b hb => ?_, h.eq.imp id fun ⟨b, hb, hd⟩ => ⟨b, by simp [hb], hd⟩, ?_⟩
    · rcases hmem hb with hb | rfl
      · exact h.le b hb
      · exact hgt.le
    · rw [List.filter_append, ← h.items, List.filter_singleton]
      simp [heq]

/-- Under a bound that lies above every distance, some item is nearest. -/
theorem exists_mem (h : Least top d l n) (hl : l ≠ []) (htop : ∀ a ∈ l, d a < top) :
    ∃ a ∈ l, d a = n.1 := by
  rcases h.eq with heq | hmem
  · obtain ⟨a, ha⟩ := List.exists_mem_of_ne_nil l hl
    exact absurd (heq ▸ h.le a ha) (not_le.mpr (htop a ha))
  · exact hmem

theorem mem_items (h : Least top d l n) {a : α} : a ∈ n.2 ↔ a ∈ l ∧ d a = n.1 := by
  rw [h.items, List.mem_filter, decide_eq_true_iff]

/-- **The order of the items matters to nothing but the order of those that are kept.** -/
theorem perm {l' : List α} {n' : F × List α} (h : Least top d l n) (h' : Least top d l' n')
    (hl : l'.Perm l) : n'.1 = n.1 ∧ n'.2.Perm n.2 := by
  have hle : ∀ {k k' : List α} {m m' : F × List α}, Least top d k m → Least top d k' m' →
      k'.Perm k → m'.1 ≤ m.1 := by
    intro k k' m m' hm hm' hk
    rcases hm.eq with heq | ⟨a, ha, hd⟩
    · rw [heq]
      exact hm'.le_top
    · rw [← hd]
      exact hm'.le a (hk.mem_iff.mpr ha)
  have heq : n'.1 = n.1 := le_antisymm (hle h h' hl) (hle h' h hl.symm)
  refine ⟨heq, ?_⟩
  rw [h.items, h'.items, heq]
  exact hl.filter _

end Least

end RunningMinimum
end BurstIoT
