import Mathlib.Algebra.BigOperators.Group.Multiset.Basic
import Mathlib.Algebra.GroupWithZero.Nat
import Mathlib.Algebra.Order.Group.Multiset
import Mathlib.Data.Multiset.Replicate

/-!
# Tallies

A tally is a list of keys with a count each.  It stands for the multiset `total`, in which each key
occurs as often as its counts say; `bumpWithin n a` counts one more `a` on the first of the first
`n` entries that carries it.

When the keys are distinct, the count of a key is its multiplicity (`count_total_of_mem`).
-/

namespace BurstIoT
namespace Tally

variable {α : Type}

/-- The multiset a tally stands for. -/
def total (t : List (α × ℕ)) : Multiset α :=
  (t.map fun e => Multiset.replicate e.2 e.1).sum

/-- The sum of the counts. -/
def size (t : List (α × ℕ)) : ℕ :=
  (t.map Prod.snd).sum

@[simp] theorem total_nil : total ([] : List (α × ℕ)) = 0 := rfl

@[simp] theorem total_cons (e : α × ℕ) (t : List (α × ℕ)) :
    total (e :: t) = Multiset.replicate e.2 e.1 + total t := by
  simp [total]

@[simp] theorem total_append (s t : List (α × ℕ)) : total (s ++ t) = total s + total t := by
  simp [total]

theorem total_perm {s t : List (α × ℕ)} (h : s.Perm t) : total s = total t :=
  (h.map _).sum_eq

@[simp] theorem size_nil : size ([] : List (α × ℕ)) = 0 := rfl

@[simp] theorem size_cons (e : α × ℕ) (t : List (α × ℕ)) : size (e :: t) = e.2 + size t := by
  simp [size]

theorem card_total (t : List (α × ℕ)) : (total t).card = size t := by
  induction t with
  | nil => rfl
  | cons e t ih => simp [ih]

theorem mem_total {t : List (α × ℕ)} {a : α} :
    a ∈ total t ↔ ∃ n, (a, n) ∈ t ∧ 0 < n := by
  induction t with
  | nil => simp
  | cons e t ih =>
    obtain ⟨b, m⟩ := e
    rw [total_cons, Multiset.mem_add, ih, Multiset.mem_replicate]
    constructor
    · rintro (⟨hm, rfl⟩ | ⟨n, hn, hpos⟩)
      · exact ⟨m, List.mem_cons_self, Nat.pos_of_ne_zero hm⟩
      · exact ⟨n, List.mem_cons_of_mem _ hn, hpos⟩
    · rintro ⟨n, hn, hpos⟩
      rcases List.mem_cons.mp hn with heq | hn
      · cases heq
        exact Or.inl ⟨hpos.ne', rfl⟩
      · exact Or.inr ⟨n, hn, hpos⟩

/-! ## Counting one more -/

/-- One more on entry `i`. -/
def bump (i : ℕ) (t : List (α × ℕ)) : List (α × ℕ) :=
  t.modify i fun e => (e.1, e.2 + 1)

@[simp] theorem length_bump (i : ℕ) (t : List (α × ℕ)) : (bump i t).length = t.length := by
  simp [bump]

theorem map_fst_bump (i : ℕ) (t : List (α × ℕ)) : (bump i t).map Prod.fst = t.map Prod.fst := by
  induction t generalizing i with
  | nil => simp [bump]
  | cons e t ih =>
    simp only [bump] at ih
    cases i with
    | zero => simp [bump]
    | succ i => simp [bump, ih]

/-- Counts that are read in another type, in which counting on is `next`. -/
theorem map_bump {β : Type} (read : ℕ → β) (next : β → β) (h : ∀ n, read (n + 1) = next (read n))
    (i : ℕ) (t : List (α × ℕ)) : (bump i t).map (fun e => (e.1, read e.2)) =
      (t.map fun e => (e.1, read e.2)).modify i fun e => (e.1, next e.2) := by
  induction t generalizing i with
  | nil => simp [bump]
  | cons e t ih =>
    simp only [bump] at ih
    cases i with
    | zero => simp [bump, h]
    | succ i => simp [bump, ih]

theorem total_bump {i : ℕ} {t : List (α × ℕ)} (h : i < t.length) :
    total (bump i t) = t[i].1 ::ₘ total t := by
  induction t generalizing i with
  | nil => exact absurd h (Nat.not_lt_zero _)
  | cons e t ih =>
    simp only [bump] at ih
    cases i with
    | zero => simp [bump, Multiset.replicate_succ, Multiset.cons_add]
    | succ i =>
      have hi : i < t.length := by simpa using h
      simp [bump, ih hi, Multiset.add_cons]

theorem pos_of_mem_bump {i : ℕ} {t : List (α × ℕ)} (h : ∀ e ∈ t, 0 < e.2) :
    ∀ e ∈ bump i t, 0 < e.2 := by
  induction t generalizing i with
  | nil => simp [bump]
  | cons f t ih =>
    intro e he
    cases i with
    | zero =>
      simp only [bump, List.modify_zero_cons, List.mem_cons] at he
      rcases he with rfl | he
      · exact Nat.succ_pos _
      · exact h e (List.mem_cons_of_mem _ he)
    | succ i =>
      simp only [bump, List.modify_succ_cons, List.mem_cons] at he
      rcases he with rfl | he
      · exact h _ List.mem_cons_self
      · exact ih (fun x hx => h x (List.mem_cons_of_mem _ hx)) e he

variable [DecidableEq α]

/-- One more on the first of the first `n` entries that carries `a`, if there is one. -/
def bumpWithin (n : ℕ) (a : α) (t : List (α × ℕ)) : Option (List (α × ℕ)) :=
  ((t.take n).findIdx? fun e => e.1 = a).map fun i => bump i t

/-- What a successful search has found. -/
theorem bumpWithin_eq_some {n : ℕ} {a : α} {t t' : List (α × ℕ)} (h : bumpWithin n a t = some t') :
    ∃ (i : ℕ) (hi : i < t.length), t[i].1 = a ∧ t' = bump i t := by
  rw [bumpWithin, Option.map_eq_some_iff] at h
  obtain ⟨i, hfind, rfl⟩ := h
  rw [List.findIdx?_eq_some_iff_getElem] at hfind
  obtain ⟨hi, hkey, -⟩ := hfind
  have hi' : i < t.length := by
    rw [List.length_take] at hi
    omega
  refine ⟨i, hi', ?_, rfl⟩
  simpa using hkey

theorem bumpWithin_eq_none {n : ℕ} {a : α} {t : List (α × ℕ)} :
    bumpWithin n a t = none ↔ a ∉ (t.take n).map Prod.fst := by
  rw [bumpWithin, Option.map_eq_none_iff, List.findIdx?_eq_none_iff]
  simp only [List.mem_map, not_exists, not_and]
  constructor
  · intro h e he heq
    have := h e he
    simp [heq] at this
  · intro h e he
    simpa using h e he

/-- The multiplicity of a key is the sum of its counts. -/
theorem count_total (t : List (α × ℕ)) (a : α) :
    (total t).count a = ((t.filter fun e => e.1 = a).map Prod.snd).sum := by
  induction t with
  | nil => rfl
  | cons e t ih =>
    rw [total_cons, Multiset.count_add, Multiset.count_replicate, ih]
    by_cases h : e.1 = a
    · rw [if_pos h, List.filter_cons_of_pos (by simpa using h), List.map_cons, List.sum_cons]
    · rw [if_neg h, List.filter_cons_of_neg (by simpa using h), Nat.zero_add]

/-! ## Distinct keys -/

theorem count_total_eq_zero {t : List (α × ℕ)} {a : α} (h : a ∉ t.map Prod.fst) :
    (total t).count a = 0 := by
  rw [Multiset.count_eq_zero, mem_total]
  rintro ⟨n, hn, -⟩
  exact h (List.mem_map_of_mem hn)

theorem count_total_of_mem {t : List (α × ℕ)} (hnodup : (t.map Prod.fst).Nodup) {a : α} {n : ℕ}
    (h : (a, n) ∈ t) : (total t).count a = n := by
  induction t with
  | nil => simp at h
  | cons e t ih =>
    rw [List.map_cons, List.nodup_cons] at hnodup
    rw [total_cons, Multiset.count_add, Multiset.count_replicate]
    rcases List.mem_cons.mp h with rfl | h
    · rw [if_pos rfl, count_total_eq_zero hnodup.1, Nat.add_zero]
    · have hne : e.1 ≠ a := fun heq => hnodup.1 (heq ▸ List.mem_map_of_mem h)
      rw [if_neg hne, ih hnodup.2 h, Nat.zero_add]

end Tally
end BurstIoT
