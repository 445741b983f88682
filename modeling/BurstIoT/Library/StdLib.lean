import BurstIoT.Library.Sorting
import BurstIoT.Library.UnorderedMap

/-!
# What the standard library leaves open

`StdLib` is a C++ standard library, as far as its results are not determined: its `sort` rearranges
into some order the comparator allows, not necessarily a stable one, its `iterate` lists an
unordered map in some order, and its `std::hash` is some function.  Nothing is assumed of a `StdLib`
beyond what the standard promises, so a statement about every `StdLib` holds whichever library the
program is linked with.  `StdLib.insertion` is one of them, and computes.
-/

namespace BurstIoT

/-- A C++ standard library, as far as its results are not determined: `std::sort`, which may
permute entries that compare equal but sees entries through the comparator only, the order in which
an unordered map is traversed, and `std::hash` of an `int` and a `uint32_t`. -/
structure StdLib where
  sort : {α : Type} → (α → α → Bool) → List α → List α
  sort_perm : ∀ {α : Type} {lt : α → α → Bool}, StrictWeak lt → ∀ l, (sort lt l).Perm l
  sort_pairwise : ∀ {α : Type} {lt : α → α → Bool}, StrictWeak lt → ∀ l,
    (sort lt l).Pairwise fun a b => lt b a = false
  sort_map : ∀ {α β : Type} (f : α → β) (lt : β → β → Bool) (l : List α),
    (sort (fun a b => lt (f a) (f b)) l).map f = sort lt (l.map f)
  iterate : {κ ν : Type} → UnorderedMap κ ν → List (κ × ν)
  iterate_perm : ∀ {κ ν : Type} (m : UnorderedMap κ ν),
    (iterate m).Perm (m.entries.map fun e => (e.1, e.2))
  hashInt : ℤ → UInt64
  hashUInt32 : UInt32 → UInt64

namespace StdLib

/-- The library that sorts by insertion and traverses a map entry by entry. -/
def insertion : StdLib where
  sort := stableSort
  sort_perm := fun {_ lt} _ => stableSort_perm lt
  sort_pairwise := stableSort_pairwise
  sort_map := map_stableSort
  iterate := fun m => m.entries.map fun e => (e.1, e.2)
  iterate_perm := fun _ => List.Perm.refl _
  hashInt := fun i => UInt64.ofNat (i % 2 ^ 64).toNat
  hashUInt32 := UInt32.toUInt64

variable (lib : StdLib)

theorem mem_sort {α : Type} {lt : α → α → Bool} (h : StrictWeak lt) {l : List α} {a : α} :
    a ∈ lib.sort lt l ↔ a ∈ l :=
  (lib.sort_perm h l).mem_iff

theorem mem_iterate {κ ν : Type} [DecidableEq κ] {m : UnorderedMap κ ν} {k : κ} {v : ν} :
    (k, v) ∈ lib.iterate m ↔ m.lookup k = some v := by
  rw [(lib.iterate_perm m).mem_iff, AList.lookup, ← Option.mem_def,
    List.mem_dlookup_iff m.nodupKeys, List.mem_map]
  constructor
  · rintro ⟨⟨k', v'⟩, hmem, heq⟩
    cases heq
    exact hmem
  · intro hmem
    exact ⟨⟨k, v⟩, hmem, rfl⟩

theorem mem_of_mem_iterate {κ ν : Type} [DecidableEq κ] {m : UnorderedMap κ ν} {e : κ × ν}
    (h : e ∈ lib.iterate m) : e.1 ∈ m :=
  UnorderedMap.mem_of_lookup (lib.mem_iterate.mp h)

/-- Every key is met. -/
theorem exists_mem_iterate {κ ν : Type} [DecidableEq κ] {m : UnorderedMap κ ν} {k : κ}
    (h : k ∈ m) : ∃ v, (k, v) ∈ lib.iterate m := by
  obtain ⟨v, hv⟩ := UnorderedMap.exists_lookup h
  exact ⟨v, lib.mem_iterate.mpr hv⟩

@[simp] theorem iterate_empty {κ ν : Type} [DecidableEq κ] :
    lib.iterate (∅ : UnorderedMap κ ν) = [] :=
  (lib.iterate_perm (∅ : UnorderedMap κ ν)).eq_nil

@[simp] theorem iterate_singleton {κ ν : Type} [DecidableEq κ] (k : κ) (v : ν) :
    lib.iterate (AList.singleton k v : UnorderedMap κ ν) = [(k, v)] :=
  (lib.iterate_perm (AList.singleton k v)).eq_singleton

/-- No key is met twice. -/
theorem nodup_iterate_keys {κ ν : Type} (m : UnorderedMap κ ν) :
    ((lib.iterate m).map Prod.fst).Nodup := by
  have hkeys : ((m.entries.map fun e => (e.1, e.2)).map Prod.fst) = m.keys := by
    rw [List.map_map]
    rfl
  rw [((lib.iterate_perm m).map Prod.fst).nodup_iff, hkeys]
  exact m.keys_nodup

/-- Traversing a map of lists meets its contents. -/
theorem flatMap_iterate_perm {κ α : Type} (m : UnorderedMap κ (List α)) :
    ((lib.iterate m).flatMap Prod.snd).Perm (UnorderedMap.items m) := by
  have h := (lib.iterate_perm m).flatMap_right Prod.snd
  rwa [List.flatMap_map] at h

/-- Traversing a map of lists is visiting the keys, and perhaps others, in any order. -/
theorem flatMap_iterate_perm_keys {κ α β : Type} [DecidableEq κ] (m : UnorderedMap κ (List α))
    {f : κ → List α → List β} (hf : ∀ k, f k [] = []) {keys : List κ} (hnodup : keys.Nodup)
    (hkeys : ∀ k ∈ m, k ∈ keys) :
    ((lib.iterate m).flatMap fun e => f e.1 e.2).Perm
      (keys.flatMap fun k => f k ((m.lookup k).getD [])) := by
  have hvisit : (lib.iterate m).flatMap (fun e => f e.1 e.2) =
      ((lib.iterate m).map Prod.fst).flatMap fun k => f k ((m.lookup k).getD []) := by
    rw [List.flatMap_map]
    refine List.flatMap_congr fun e he => ?_
    rw [lib.mem_iterate.mp he, Option.getD_some]
  have hsame : ((lib.iterate m).map Prod.fst).Perm (keys.filter (· ∈ m)) := by
    rw [List.perm_ext_iff_of_nodup (lib.nodup_iterate_keys m) (hnodup.filter _)]
    intro k
    rw [List.mem_filter, decide_eq_true_eq, List.mem_map]
    constructor
    · rintro ⟨e, he, rfl⟩
      have hmem := lib.mem_of_mem_iterate he
      exact ⟨hkeys _ hmem, hmem⟩
    · rintro ⟨-, hmem⟩
      obtain ⟨v, hv⟩ := lib.exists_mem_iterate hmem
      exact ⟨(k, v), hv, rfl⟩
  have hothers : ∀ l : List κ, (l.filter (· ∈ m)).flatMap (fun k => f k ((m.lookup k).getD [])) =
      l.flatMap fun k => f k ((m.lookup k).getD []) := by
    intro l
    induction l with
    | nil => rfl
    | cons k l ih =>
      rw [List.flatMap_cons, ← ih]
      by_cases hk : k ∈ m
      · rw [List.filter_cons_of_pos (by simpa using hk), List.flatMap_cons]
      · have hnone : m.lookup k = none := AList.lookup_eq_none.mpr hk
        rw [List.filter_cons_of_neg (by simpa using hk), hnone, Option.getD_none, hf,
          List.nil_append]
  rw [hvisit, ← hothers keys]
  exact hsame.flatMap_right _

/-- **Any order of traversal** is that of some library. -/
theorem exists_iterate {κ ν : Type} (order : UnorderedMap κ ν → List (κ × ν))
    (horder : ∀ m, (order m).Perm (m.entries.map fun e => (e.1, e.2))) :
    ∃ lib : StdLib, ∀ m, lib.iterate m = order m := by
  -- the order for every type of map, which is the given one for this type
  have hall : ∀ (κ' ν' : Type) (m : UnorderedMap κ' ν'), ∃ l : List (κ' × ν'),
      l.Perm (m.entries.map fun e => (e.1, e.2)) ∧
        ∀ (hκ : κ' = κ) (hν : ν' = ν), l = hκ ▸ hν ▸ order (hκ ▸ hν ▸ m) := by
    intro κ' ν' m
    by_cases h : κ' = κ ∧ ν' = ν
    · obtain ⟨rfl, rfl⟩ := h
      exact ⟨order m, horder m, fun _ _ => rfl⟩
    · exact ⟨_, .refl _, fun hκ hν => absurd ⟨hκ, hν⟩ h⟩
  choose iterate hperm hiterate using hall
  exact ⟨{ insertion with
    iterate := fun {κ' ν'} m => iterate κ' ν' m
    iterate_perm := fun {κ' ν'} m => hperm κ' ν' m }, fun m => hiterate κ ν m rfl rfl⟩

end StdLib

end BurstIoT
