import Mathlib.Data.List.Basic
import Mathlib.Order.Nat

/-!
# The maximal segments of a list

A segment of a list is given by its first position and the one behind its last position.  It is
`Maximal` for a predicate if it is not empty, the predicate holds of its items, and it does not hold
of the items next to it, if there are any.

A scan from left to right looks for the first item that satisfies the predicate, and from there for
the first one that does not (`Stop`).  What lies between the two is a maximal segment, and the scan
leaves none out (`ListsBefore.next`).
-/

namespace BurstIoT
namespace Segments

variable {α : Type} {p : α → Bool} {l : List α}

/-- A maximal segment. -/
structure Maximal (p : α → Bool) (l : List α) (first last : ℕ) : Prop where
  lt : first < last
  le : last ≤ l.length
  inside : ∀ i (_ : i < l.length), first ≤ i → i < last → p l[i] = true
  before : ∀ i (_ : i < l.length), i + 1 = first → p l[i] = false
  behind : ∀ _ : last < l.length, p l[last] = false

/-- The maximal segments, from left to right. -/
structure Lists (p : α → Bool) (l : List α) (segments : List (ℕ × ℕ)) : Prop where
  ordered : segments.Pairwise fun e f => e.2 < f.1
  mem_iff : ∀ e, e ∈ segments ↔ Maximal p l e.1 e.2

/-- The items of a segment. -/
def items (l : List α) (segment : ℕ × ℕ) : List α :=
  (l.drop segment.1).take (segment.2 - segment.1)

/-- The items of a maximal segment are items of the list that satisfy the predicate. -/
theorem Maximal.of_mem_items {first last : ℕ} (h : Maximal p l first last) {a : α}
    (ha : a ∈ items l (first, last)) : a ∈ l ∧ p a = true := by
  obtain ⟨k, hk, rfl⟩ := List.mem_iff_getElem.mp ha
  obtain ⟨hinside, hlt⟩ : k < last - first ∧ first + k < l.length := by
    rw [items, List.length_take, List.length_drop] at hk
    omega
  have hget : (items l (first, last))[k] = l[first + k] := by
    simp only [items, List.getElem_take, List.getElem_drop]
  rw [hget]
  exact ⟨List.getElem_mem hlt,
    h.inside (first + k) hlt (Nat.le_add_right first k) (by omega)⟩

/-- No segment is listed twice. -/
theorem Lists.nodup {segments : List (ℕ × ℕ)} (h : Lists p l segments) : segments.Nodup := by
  refine h.ordered.imp_of_mem fun {e f} he _ hlt heq => ?_
  have := ((h.mem_iff e).mp he).lt
  rw [heq] at hlt this
  omega

/-- **There is one list of the maximal segments.** -/
theorem Lists.unique {segments segments' : List (ℕ × ℕ)} (h : Lists p l segments)
    (h' : Lists p l segments') : segments = segments' := by
  refine List.Perm.eq_of_pairwise (fun e f he hf hef hfe => ?_) h.ordered h'.ordered
    ((List.perm_ext_iff_of_nodup h.nodup h'.nodup).mpr fun e => ?_)
  · have := ((h.mem_iff e).mp he).lt
    have := ((h'.mem_iff f).mp hf).lt
    omega
  · rw [h.mem_iff, h'.mem_iff]

/-! ## A scan from left to right -/

/-- The first position from `start` on whose item satisfies the predicate, or the end of the
list. -/
structure Stop (p : α → Bool) (l : List α) (start stop : ℕ) : Prop where
  le : start ≤ stop
  le_length : stop ≤ l.length
  missed : ∀ i (_ : i < l.length), start ≤ i → i < stop → p l[i] = false
  found : ∀ _ : stop < l.length, p l[stop] = true

/-- The maximal segments that start before a position, from left to right. -/
structure ListsBefore (p : α → Bool) (l : List α) (bound : ℕ) (segments : List (ℕ × ℕ)) :
    Prop where
  ordered : segments.Pairwise fun e f => e.2 < f.1
  mem_iff : ∀ e, e ∈ segments ↔ Maximal p l e.1 e.2 ∧ e.1 < bound

/-- No segment reaches up to the position: the item before it does not satisfy the predicate. -/
def Fresh (p : α → Bool) (l : List α) (position : ℕ) : Prop :=
  ∀ i (_ : i < l.length), i + 1 = position → p l[i] = false

/-- Two stops that follow each other enclose a maximal segment. -/
theorem Maximal.of_stop {first last : ℕ} (hlt : first < l.length) (hfirst : p l[first] = true)
    (hfresh : Fresh p l first) (h : Stop (fun a => !p a) l first last) :
    Maximal p l first last where
  lt := by
    refine lt_of_le_of_ne h.le ?_
    rintro rfl
    have hfound := h.found hlt
    simp [hfirst] at hfound
  le := h.le_length
  inside := fun i hi hle hlt => by simpa using h.missed i hi hle hlt
  before := hfresh
  behind := fun hlast => by simpa using h.found hlast

/-- Of two maximal segments, the one that starts first ends before the other one starts. -/
theorem Maximal.lt_of_lt {first last first' last' : ℕ} (h : Maximal p l first last)
    (h' : Maximal p l first' last') (hlt : first < first') : last < first' := by
  by_contra hle
  have hlength : first' - 1 < l.length := by have := h'.lt; have := h'.le; omega
  have hin := h.inside (first' - 1) hlength (by omega) (by omega)
  rw [h'.before (first' - 1) hlength (by omega)] at hin
  cases hin

/-- A maximal segment is determined by its start. -/
theorem Maximal.last_unique {first last last' : ℕ} (h : Maximal p l first last)
    (h' : Maximal p l first last') : last = last' := by
  have hle : ∀ {last last'}, Maximal p l first last → Maximal p l first last' →
      last' ≤ last := by
    intro last last' h h'
    by_contra hlt
    have hlength : last < l.length := by have := h'.le; omega
    have hin := h'.inside last hlength h.lt.le (by omega)
    rw [h.behind hlength] at hin
    cases hin
  exact le_antisymm (hle h' h) (hle h h')

/-- Behind a maximal segment the next item of a segment is not adjacent. -/
theorem Maximal.lt_of_stop {first last next : ℕ} (h : Maximal p l first last)
    (hnext : Stop p l last next) (hlt : next < l.length) : last < next := by
  refine lt_of_le_of_ne hnext.le ?_
  rintro rfl
  have hfound := hnext.found hlt
  rw [h.behind hlt] at hfound
  cases hfound

/-- **The scan starts** at the first stop. -/
theorem ListsBefore.start {first : ℕ} (h : Stop p l 0 first) : ListsBefore p l first [] where
  ordered := .nil
  mem_iff := fun e => by
    refine ⟨fun he => absurd he List.not_mem_nil, fun ⟨hmax, hlt⟩ => ?_⟩
    have hlength : e.1 < l.length := hmax.lt.trans_le hmax.le
    have hin := hmax.inside e.1 hlength (le_refl _) hmax.lt
    rw [h.missed e.1 hlength (Nat.zero_le _) hlt] at hin
    cases hin

/-- **The scan leaves no segment out**: behind a maximal segment it goes on to the next stop. -/
theorem ListsBefore.next {segments : List (ℕ × ℕ)} {first last next : ℕ}
    (h : ListsBefore p l first segments) (hmax : Maximal p l first last)
    (hnext : Stop p l last next) : ListsBefore p l next (segments ++ [(first, last)]) where
  ordered := by
    rw [List.pairwise_append]
    refine ⟨h.ordered, List.pairwise_singleton _ _, fun e he f hf => ?_⟩
    obtain ⟨hmaxe, hlt⟩ := (h.mem_iff e).mp he
    rw [List.mem_singleton.mp hf]
    exact hmaxe.lt_of_lt hmax hlt
  mem_iff := fun e => by
    rw [List.mem_append, List.mem_singleton, h.mem_iff]
    have hlt := hmax.lt
    have hle := hnext.le
    constructor
    · rintro (⟨hmaxe, hbefore⟩ | rfl)
      · exact ⟨hmaxe, by omega⟩
      · exact ⟨hmax, by omega⟩
    · rintro ⟨hmaxe, hbefore⟩
      rcases lt_trichotomy e.1 first with hearlier | heq | hlater
      · exact Or.inl ⟨hmaxe, hearlier⟩
      · exact Or.inr (Prod.ext heq (Maximal.last_unique (heq ▸ hmaxe) hmax))
      · -- behind the segment, and before the next stop, there is no item to start with
        have hbehind := hmax.lt_of_lt hmaxe hlater
        have hlength : e.1 < l.length := hmaxe.lt.trans_le hmaxe.le
        have hin := hmaxe.inside e.1 hlength (le_refl _) hmaxe.lt
        rw [hnext.missed e.1 hlength hbehind.le hbefore] at hin
        cases hin

/-- Behind a maximal segment the next stop is fresh. -/
theorem Stop.fresh {start stop : ℕ} (h : Stop p l start stop)
    (hstart : start < stop ∨ Fresh p l start) : Fresh p l stop := by
  intro i hi heq
  by_cases hle : start ≤ i
  · exact h.missed i hi hle (by omega)
  · rcases hstart with hlt | hfresh
    · omega
    · exact hfresh i hi (by have := h.le; omega)

/-- **A scan that has reached the end** has listed the maximal segments. -/
theorem ListsBefore.lists {segments : List (ℕ × ℕ)} (h : ListsBefore p l l.length segments) :
    Lists p l segments where
  ordered := h.ordered
  mem_iff := fun e => by
    rw [h.mem_iff]
    exact ⟨And.left, fun hmax => ⟨hmax, hmax.lt.trans_le hmax.le⟩⟩

end Segments
end BurstIoT
