import BurstIoT.Library.Tally
import BurstIoT.Library.UnorderedMap
import Mathlib.Data.Multiset.Filter

/-!
# Counts by representatives

A map of counts stands for a multiset, in which each key occurs as often as it is counted
(`toMultiset`).  `Represents` says that this multiset is another one with each element replaced by
the key that stands for it; the elements for which no key stands are left out.

A map that represents the keys of a map which represents `s` represents `s` itself
(`Represents.trans`).
-/

namespace BurstIoT
namespace UnorderedMap

variable {κ α : Type} [DecidableEq κ]

/-- The keys of a map of counts, each as often as it is counted. -/
def toMultiset (m : UnorderedMap κ ℕ) : Multiset κ :=
  Tally.total (m.entries.map fun e => (e.1, e.2))

theorem count_toMultiset (m : UnorderedMap κ ℕ) (k : κ) :
    m.toMultiset.count k = (m.lookup k).getD 0 := by
  have hkeys : ((m.entries.map fun e => (e.1, e.2)).map Prod.fst) = m.keys := by
    rw [List.map_map]
    rfl
  cases hlook : m.lookup k with
  | none =>
    refine Tally.count_total_eq_zero ?_
    rw [hkeys]
    exact AList.lookup_eq_none.mp hlook
  | some n =>
    refine Tally.count_total_of_mem ?_ ?_
    · rw [hkeys]
      exact m.keys_nodup
    · exact List.mem_map_of_mem ((List.mem_dlookup_iff m.nodupKeys).mp hlook)

theorem toMultiset_update (m : UnorderedMap κ ℕ) (k : κ) (n : ℕ) :
    toMultiset (m.update k 0 (· + n)) = m.toMultiset + Multiset.replicate n k := by
  refine Multiset.ext' fun k' => ?_
  rw [Multiset.count_add, Multiset.count_replicate, count_toMultiset, count_toMultiset]
  by_cases hk : k' = k
  · rw [hk, lookup_update_self, if_pos rfl]
    rfl
  · rw [lookup_update_ne _ hk, if_neg (Ne.symm hk), Nat.add_zero]

theorem toMultiset_emplace {m : UnorderedMap κ ℕ} {k : κ} (h : k ∉ m) (n : ℕ) :
    toMultiset (m.emplace k n) = m.toMultiset + Multiset.replicate n k := by
  refine Multiset.ext' fun k' => ?_
  rw [Multiset.count_add, Multiset.count_replicate, count_toMultiset, count_toMultiset,
    lookup_emplace]
  by_cases hk : k' = k
  · rw [hk, if_pos rfl, if_pos rfl, AList.lookup_eq_none.mpr h]
    exact (Nat.zero_add n).symm
  · rw [if_neg hk, if_neg (Ne.symm hk), Nat.add_zero]

/-! ## Representatives -/

/-- **The map counts the elements of `s` by the keys that stand for them**; `rep` says which key
stands for an element, and `R` what this means. -/
structure Represents (R : κ → α → Prop) (s : Multiset α) (m : UnorderedMap κ ℕ)
    (rep : α → Option κ) : Prop where
  stands : ∀ a ∈ s, ∀ k, rep a = some k → k ∈ m ∧ R k a
  counts : m.toMultiset = s.filterMap rep

variable {R : κ → α → Prop} {s : Multiset α} {m : UnorderedMap κ ℕ} {rep : α → Option κ}

/-- What a key counts. -/
theorem Represents.lookup {l : List α} (h : Represents R (l : Multiset α) m rep) {k : κ} {n : ℕ}
    (hn : m.lookup k = some n) : n = l.countP fun a => rep a == some k := by
  have hcount := count_toMultiset m k
  rw [h.counts, Multiset.filterMap_coe, Multiset.coe_count, List.count_filterMap, hn] at hcount
  exact hcount.symm

omit [DecidableEq κ] in
theorem filterMap_congr {rep rep' : α → Option κ} (h : ∀ a ∈ s, rep a = rep' a) :
    s.filterMap rep = s.filterMap rep' := by
  induction s using Quotient.inductionOn with
  | h l => exact congrArg _ (List.filterMap_congr h)

omit [DecidableEq κ] in
theorem filterMap_replicate {a : α} {k : κ} (h : rep a = some k) (n : ℕ) :
    (Multiset.replicate n a).filterMap rep = Multiset.replicate n k := by
  rw [← Multiset.coe_replicate, Multiset.filterMap_coe, List.filterMap_replicate, h]
  rfl

omit [DecidableEq κ] in
theorem represents_empty : Represents R 0 ∅ rep where
  stands := fun a ha => absurd ha (Multiset.notMem_zero a)
  counts := rfl

omit [DecidableEq κ] in
/-- **Representing what represents.** -/
theorem Represents.trans {lam : Type} [DecidableEq lam] {S : lam → κ → Prop}
    {m' : UnorderedMap lam ℕ} {rep' : κ → Option lam} (h : Represents R s m rep)
    (h' : Represents S m.toMultiset m' rep') :
    Represents (fun k' a => ∃ k ∈ m, R k a ∧ S k' k) s m' (fun a => (rep a).bind rep') where
  stands := by
    intro a ha k' hk'
    obtain ⟨k, hk, hkk'⟩ := Option.bind_eq_some_iff.mp hk'
    have hmem : k ∈ m.toMultiset := by
      rw [h.counts, Multiset.mem_filterMap]
      exact ⟨a, ha, hk⟩
    obtain ⟨hm, hR⟩ := h.stands a ha k hk
    obtain ⟨hm', hS⟩ := h'.stands k hmem k' hkk'
    exact ⟨hm', k, hm, hR, hS⟩
  counts := by
    rw [h'.counts, h.counts, Multiset.filterMap_filterMap]

omit [DecidableEq κ] in
/-- Elements for which no key stands. -/
theorem Represents.skip (h : Represents R s m rep) {t : Multiset α}
    (hnone : ∀ a ∈ t, rep a = none) : Represents R (s + t) m rep where
  stands := by
    intro a ha k hk
    rcases Multiset.mem_add.mp ha with ha | ha
    · exact h.stands a ha k hk
    · rw [hnone a ha] at hk
      cases hk
  counts := by
    have hzero : t.filterMap rep = 0 := by
      refine Multiset.eq_zero_of_forall_notMem fun k hk => ?_
      obtain ⟨a, ha, hak⟩ := (Multiset.mem_filterMap rep t).mp hk
      rw [hnone a ha] at hak
      cases hak
    rw [h.counts, Multiset.filterMap_add, hzero, add_zero]

variable [DecidableEq α]

omit [DecidableEq κ] in

/-- **More of an element**, for which the same key stands from now on as the one that is counted. -/
theorem Represents.add (h : Represents R s m rep) {m' : UnorderedMap κ ℕ} {a : α} {k : κ} {n : ℕ}
    (hnew : a ∉ s) (hm : ∀ k' ∈ m, k' ∈ m') (hk : k ∈ m') (hR : R k a)
    (hcount : m'.toMultiset = m.toMultiset + Multiset.replicate n k) :
    Represents R (s + Multiset.replicate n a) m' (Function.update rep a (some k)) where
  stands := by
    intro b hb k' hk'
    by_cases hba : b = a
    · rw [hba, Function.update_self] at hk'
      obtain rfl : k = k' := Option.some_inj.mp hk'
      exact ⟨hk, hba ▸ hR⟩
    · rw [Function.update_of_ne hba] at hk'
      rcases Multiset.mem_add.mp hb with hb | hb
      · exact ⟨hm k' (h.stands b hb k' hk').1, (h.stands b hb k' hk').2⟩
      · exact absurd (Multiset.eq_of_mem_replicate hb) hba
  counts := by
    have hold : s.filterMap (Function.update rep a (some k)) = s.filterMap rep := by
      refine filterMap_congr fun b hb => Function.update_of_ne ?_ _ _
      rintro rfl
      exact hnew hb
    rw [hcount, h.counts, Multiset.filterMap_add, hold,
      filterMap_replicate (Function.update_self a (some k) rep)]

end UnorderedMap
end BurstIoT
