import Mathlib.Data.Finset.Range
import Mathlib.Data.List.Nodup
import Mathlib.Data.List.Pairwise

/-!
# Stretches of numbers

A stretch is a run of consecutive numbers, and some stretches together have `cells`.  They tile the
numbers below their total length when these are the cells, each once (`Tiles`).

Stretches of at most `e` numbers, each of which starts at a multiple of `e`, tile exactly if no two
of them start at the same number, unless one is empty, and each that is not empty, and does not
start at zero, follows a full one (`tiles_iff`).
-/

namespace BurstIoT
namespace Tiling

/-- A run of consecutive numbers. -/
structure Stretch where
  start : ℕ
  length : ℕ
  deriving DecidableEq, Repr

/-- The numbers of a stretch. -/
def Stretch.cells (s : Stretch) : List ℕ :=
  List.range' s.start s.length

theorem Stretch.mem_cells {s : Stretch} {i : ℕ} :
    i ∈ s.cells ↔ s.start ≤ i ∧ i < s.start + s.length :=
  List.mem_range'_1

/-- The numbers of some stretches. -/
def cells (l : List Stretch) : List ℕ :=
  l.flatMap Stretch.cells

/-- The stretches have the numbers below their total length, each once. -/
def Tiles (l : List Stretch) : Prop :=
  (cells l).Perm (List.range (cells l).length)

variable {e : ℕ} {l : List Stretch}

theorem mem_cells {i : ℕ} :
    i ∈ cells l ↔ ∃ s ∈ l, s.start ≤ i ∧ i < s.start + s.length := by
  rw [cells, List.mem_flatMap]
  exact exists_congr fun s => and_congr_right fun _ => Stretch.mem_cells

/-- Distinct numbers that come with all smaller ones are those below their number. -/
theorem perm_range_length {l : List ℕ} (hnodup : l.Nodup) (hdown : ∀ i ∈ l, ∀ j < i, j ∈ l) :
    l.Perm (List.range l.length) := by
  have hlt : ∀ i ∈ l, i < l.length := by
    intro i hi
    have hsubset : List.range (i + 1) ⊆ l := by
      intro j hj
      rcases Nat.lt_succ_iff_lt_or_eq.mp (List.mem_range.mp hj) with hlt | rfl
      · exact hdown i hi j hlt
      · exact hi
    have hle := (List.nodup_range.subperm hsubset).length_le
    rwa [List.length_range] at hle
  have hsub : l.Subperm (List.range l.length) :=
    hnodup.subperm fun i hi => List.mem_range.mpr (hlt i hi)
  exact hsub.perm_of_length_le (List.length_range).le

/-! ## Stretches in slots -/

/-- A stretch starts at a multiple of `e` and has at most `e` numbers. -/
def Fits (e : ℕ) (s : Stretch) : Prop :=
  e ∣ s.start ∧ s.length ≤ e

/-- No two stretches share a slot, unless one is empty, and each that is not empty is the first or
follows a full one. -/
structure Consecutive (e : ℕ) (l : List Stretch) : Prop where
  apart : l.Pairwise fun s s' => 0 < s.length → 0 < s'.length → s.start ≠ s'.start
  follows : ∀ s ∈ l, 0 < s.length → 0 < s.start → ⟨s.start - e, e⟩ ∈ l

/-- Multiples of `e` that differ are `e` apart. -/
theorem add_le_of_dvd {m n : ℕ} (hm : e ∣ m) (hn : e ∣ n) (h : m < n) : m + e ≤ n := by
  have hle := Nat.le_of_dvd (Nat.sub_pos_of_lt h) (Nat.dvd_sub hn hm)
  omega

/-- Stretches in different slots are disjoint. -/
theorem disjoint_cells {s s' : Stretch} (hs : Fits e s) (hs' : Fits e s')
    (h : 0 < s.length → 0 < s'.length → s.start ≠ s'.start) : s.cells.Disjoint s'.cells := by
  intro i hi hi'
  obtain ⟨hlo, hhi⟩ := Stretch.mem_cells.mp hi
  obtain ⟨hlo', hhi'⟩ := Stretch.mem_cells.mp hi'
  obtain ⟨hdvd, hlen⟩ := hs
  obtain ⟨hdvd', hlen'⟩ := hs'
  rcases Nat.lt_or_gt_of_ne (h (by omega) (by omega)) with hlt | hlt
  · have hle := add_le_of_dvd hdvd hdvd' hlt
    omega
  · have hle := add_le_of_dvd hdvd' hdvd hlt
    omega

theorem nodup_cells (hfits : ∀ s ∈ l, Fits e s) (hapart : l.Pairwise fun s s' =>
    0 < s.length → 0 < s'.length → s.start ≠ s'.start) : (cells l).Nodup := by
  rw [cells, List.nodup_flatMap]
  refine ⟨fun s _ => List.nodup_range', hapart.imp_of_mem fun hs hs' h => ?_⟩
  exact disjoint_cells (hfits _ hs) (hfits _ hs') h

theorem apart_of_nodup (h : (cells l).Nodup) : l.Pairwise fun s s' =>
    0 < s.length → 0 < s'.length → s.start ≠ s'.start := by
  rw [cells, List.nodup_flatMap] at h
  refine h.2.imp fun {s s'} hdisjoint hs hs' heq => ?_
  refine hdisjoint (Stretch.mem_cells.mpr ⟨le_refl s.start, by omega⟩) ?_
  rw [heq]
  exact Stretch.mem_cells.mpr ⟨le_refl s'.start, by omega⟩

/-- In consecutive stretches a number comes with all smaller ones. -/
theorem Consecutive.down (h : Consecutive e l) (hfits : ∀ s ∈ l, Fits e s) (i : ℕ) :
    i ∈ cells l → ∀ j < i, j ∈ cells l := by
  induction i with
  | zero => exact fun _ j hj => absurd hj (Nat.not_lt_zero j)
  | succ i ih =>
    intro hi j hj
    -- the number before `i + 1` is in the same stretch, or in the full one before it
    have hbefore : i ∈ cells l := by
      obtain ⟨s, hs, hlo, hhi⟩ := mem_cells.mp hi
      rcases Nat.lt_or_eq_of_le hlo with hlt | heq
      · exact mem_cells.mpr ⟨s, hs, by omega, by omega⟩
      · have hle : e ≤ s.start := Nat.le_of_dvd (by omega) (hfits s hs).1
        have hslot : 0 < e := by
          have hlen := (hfits s hs).2
          omega
        have hfull := h.follows s hs (by omega) (by omega)
        exact mem_cells.mpr ⟨_, hfull, by dsimp only; omega, by dsimp only; omega⟩
    rcases Nat.lt_succ_iff_lt_or_eq.mp hj with hlt | rfl
    · exact ih hbefore j hlt
    · exact hbefore

/-- **When stretches in slots tile.** -/
theorem tiles_iff (hfits : ∀ s ∈ l, Fits e s) : Tiles l ↔ Consecutive e l := by
  constructor
  · intro h
    have hmem : ∀ i, i ∈ cells l ↔ i < (cells l).length := fun i =>
      h.mem_iff.trans List.mem_range
    refine ⟨apart_of_nodup (h.nodup_iff.mpr List.nodup_range), fun s hs hlen hstart => ?_⟩
    have hcell : s.start ∈ cells l := mem_cells.mpr ⟨s, hs, le_refl _, by omega⟩
    have hlt := (hmem s.start).mp hcell
    have hbefore : s.start - 1 ∈ cells l := (hmem _).mpr (by omega)
    obtain ⟨s', hs', hlo, hhi⟩ := mem_cells.mp hbefore
    have hle := add_le_of_dvd (hfits s' hs').1 (hfits s hs).1 (by omega)
    have hmax := (hfits s' hs').2
    have heq : s' = ⟨s.start - e, e⟩ := by
      cases s'
      simp only [Stretch.mk.injEq]
      dsimp only at hlo hhi hle hmax
      omega
    exact heq ▸ hs'
  · intro h
    exact perm_range_length (nodup_cells hfits h.apart) fun i => h.down hfits i

end Tiling
end BurstIoT
