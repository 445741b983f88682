import Mathlib.Algebra.BigOperators.Group.List.Basic
import Mathlib.Algebra.GroupWithZero.Nat
import Mathlib.Data.List.AList

/-!
# Unordered maps

`std::unordered_map` as an association list without repeated keys.  `update` is `f(m[k])`, which
creates the entry it does not find; `emplace` is `m.insert({k, v})`, which leaves an entry it finds
alone; `groupOn` is the loop `m[key(a)].push_back(a)`.

The order of the entries carries no meaning: only `lookup`, membership, the sum of the values and,
of a map of counts, the `total` are read.
-/

namespace BurstIoT

/-- An unordered map from `κ` to `ν`. -/
abbrev UnorderedMap (κ ν : Type) : Type := AList fun _ : κ => ν

namespace UnorderedMap

variable {κ ν α : Type} [DecidableEq κ]

/-- `f(m[k])`, where a missing entry is created as `d`. -/
def update (m : UnorderedMap κ ν) (k : κ) (d : ν) (f : ν → ν) : UnorderedMap κ ν :=
  AList.insert k (f ((m.lookup k).getD d)) m

/-- `m.insert({k, v})`: an entry that exists is kept. -/
def emplace (m : UnorderedMap κ ν) (k : κ) (v : ν) : UnorderedMap κ ν :=
  if k ∈ m then m else AList.insert k v m

theorem exists_lookup {m : UnorderedMap κ ν} {k : κ} (h : k ∈ m) : ∃ v, m.lookup k = some v :=
  Option.isSome_iff_exists.mp (AList.lookup_isSome.mpr h)

theorem mem_of_lookup {m : UnorderedMap κ ν} {k : κ} {v : ν} (h : m.lookup k = some v) : k ∈ m := by
  rw [← AList.lookup_isSome, h]
  rfl

@[simp] theorem lookup_update_self (m : UnorderedMap κ ν) (k : κ) (d : ν) (f : ν → ν) :
    (m.update k d f).lookup k = some (f ((m.lookup k).getD d)) :=
  AList.lookup_insert m

theorem lookup_update_ne (m : UnorderedMap κ ν) {k k' : κ} (h : k' ≠ k) (d : ν) (f : ν → ν) :
    (m.update k d f).lookup k' = m.lookup k' :=
  AList.lookup_insert_ne h

theorem mem_update {m : UnorderedMap κ ν} {k k' : κ} {d : ν} {f : ν → ν} :
    k' ∈ m.update k d f ↔ k' = k ∨ k' ∈ m :=
  AList.mem_insert m

theorem mem_emplace {m : UnorderedMap κ ν} {k k' : κ} {v : ν} :
    k' ∈ m.emplace k v ↔ k' = k ∨ k' ∈ m := by
  rw [emplace]
  split_ifs with hk
  · constructor
    · exact Or.inr
    · rintro (rfl | h)
      · exact hk
      · exact h
  · exact AList.mem_insert m

theorem lookup_emplace (m : UnorderedMap κ ν) (k k' : κ) (v : ν) :
    (m.emplace k v).lookup k' = if k' = k then some ((m.lookup k).getD v) else m.lookup k' := by
  rw [emplace]
  split_ifs with hk heq heq
  · obtain ⟨w, hw⟩ := exists_lookup hk
    rw [heq, hw]
    rfl
  · rfl
  · rw [heq, AList.lookup_insert, AList.lookup_eq_none.mpr hk]
    rfl
  · exact AList.lookup_insert_ne heq

/-- **A map that keeps the first item of each key** still does after one more item. -/
theorem lookup_emplace_find? {m : UnorderedMap κ α} {l : List α} (key : α → κ)
    (h : ∀ k, m.lookup k = l.find? fun a => key a = k) (a : α) (k : κ) :
    (m.emplace (key a) a).lookup k = (l ++ [a]).find? fun a => key a = k := by
  rw [lookup_emplace, List.find?_append, h, h]
  by_cases heq : k = key a
  · subst heq
    rw [if_pos rfl]
    cases l.find? fun b => key b = key a with
    | some b => rfl
    | none => simp
  · rw [if_neg heq]
    cases l.find? fun b => key b = k with
    | some b => rfl
    | none => simp [Ne.symm heq]

omit [DecidableEq κ] in
/-- Of entries with distinct keys, none has the key of one before it. -/
theorem fst_notMem_of_nodup {l done rest : List (κ × ν)} {e : κ × ν}
    (hnodup : (l.map Prod.fst).Nodup) (hl : l = done ++ e :: rest) :
    e.1 ∉ done.map Prod.fst := by
  rw [hl, List.map_append, List.map_cons, List.nodup_append] at hnodup
  exact fun hin => hnodup.2.2 e.1 hin e.1 List.mem_cons_self rfl

/-- **Inserting entries with distinct keys** adds those whose key is not there. -/
theorem lookup_foldl_emplace {l : List (κ × ν)} (hnodup : (l.map Prod.fst).Nodup)
    (m : UnorderedMap κ ν) {k : κ} {v : ν} :
    (l.foldl (fun m e => m.emplace e.1 e.2) m).lookup k = some v ↔
      m.lookup k = some v ∨ (m.lookup k = none ∧ (k, v) ∈ l) := by
  induction l generalizing m with
  | nil => simp
  | cons e l ih =>
    obtain ⟨hfirst, hnodup⟩ := List.nodup_cons.mp hnodup
    rw [List.foldl_cons, ih hnodup, lookup_emplace, List.mem_cons]
    by_cases hk : k = e.1
    · have hlater : (k, v) ∉ l := fun h => hfirst (hk ▸ List.mem_map_of_mem h)
      have hentry : (k, v) = e ↔ e.2 = v := by
        rw [hk]
        exact ⟨fun h => (congrArg Prod.snd h).symm, fun h => h ▸ rfl⟩
      rw [if_pos hk, hentry, ← hk]
      cases m.lookup k with
      | none => simp [hlater]
      | some w => simp
    · have hentry : (k, v) ≠ e := fun h => hk (congrArg Prod.fst h)
      rw [if_neg hk, or_iff_right hentry]

/-! ## Grouping a list by a key -/

/-- **A loop that updates the entry of each item** runs, under each key, the updates of the items
with that key. -/
theorem lookup_foldl_update (key : α → κ) (d : ν) (f : ν → α → ν) (k : κ) (l : List α)
    (m : UnorderedMap κ ν) :
    (l.foldl (fun m a => m.update (key a) d fun v => f v a) m).lookup k =
      if l.filter (fun a => key a = k) = [] then m.lookup k
      else some ((l.filter fun a => key a = k).foldl f ((m.lookup k).getD d)) := by
  induction l generalizing m with
  | nil => simp
  | cons a l ih =>
    rw [List.foldl_cons, ih]
    by_cases hk : key a = k
    · subst hk
      rw [lookup_update_self]
      by_cases hl : l.filter (fun b => key b = key a) = []
      · simp [hl]
      · simp [hl]
    · rw [lookup_update_ne m (Ne.symm hk)]
      simp [hk]

/-- The loop `m[key(a)].push_back(a)` over a list. -/
def groupOnto (key : α → κ) (m : UnorderedMap κ (List α)) (l : List α) : UnorderedMap κ (List α) :=
  l.foldl (fun m a => m.update (key a) [] fun v => v ++ [a]) m

theorem foldl_concat (l v : List α) : l.foldl (fun v a => v ++ [a]) v = v ++ l := by
  induction l generalizing v with
  | nil => exact (List.append_nil v).symm
  | cons a l ih => rw [List.foldl_cons, ih, List.append_assoc, List.singleton_append]

/-- **Grouping keeps, under each key, the items with that key, in order.** -/
theorem lookup_groupOnto (key : α → κ) (k : κ) (l : List α) (m : UnorderedMap κ (List α)) :
    (groupOnto key m l).lookup k =
      if l.filter (fun a => key a = k) = [] then m.lookup k
      else some ((m.lookup k).getD [] ++ l.filter fun a => key a = k) := by
  rw [groupOnto, lookup_foldl_update key [] (fun v a => v ++ [a]), foldl_concat]

/-- Grouping a whole list. -/
def groupOn (key : α → κ) (l : List α) : UnorderedMap κ (List α) :=
  groupOnto key ∅ l

theorem lookup_groupOn (key : α → κ) (k : κ) (l : List α) :
    (groupOn key l).lookup k =
      if l.filter (fun a => key a = k) = [] then none
      else some (l.filter fun a => key a = k) := by
  rw [groupOn, lookup_groupOnto]
  simp

theorem lookup_groupOn_eq_some {key : α → κ} {k : κ} {l v : List α} :
    (groupOn key l).lookup k = some v ↔ v ≠ [] ∧ v = l.filter fun a => key a = k := by
  rw [lookup_groupOn]
  by_cases h : l.filter (fun a => key a = k) = []
  · rw [if_pos h, h]
    constructor
    · intro hv
      cases hv
    · rintro ⟨hne, rfl⟩
      exact absurd rfl hne
  · rw [if_neg h, Option.some_inj]
    constructor
    · rintro rfl
      exact ⟨h, rfl⟩
    · rintro ⟨-, rfl⟩
      rfl

/-- The contents of a map of lists, key after key. -/
def items (m : UnorderedMap κ (List α)) : List α :=
  m.entries.flatMap fun e => e.2

theorem perm_cons_erase {m : UnorderedMap κ ν} {k : κ} {v : ν} (h : m.lookup k = some v) :
    m.entries.Perm (⟨k, v⟩ :: (m.erase k).entries) := by
  show m.entries.Perm (AList.insert k v m).entries
  refine List.lookup_ext m.nodupKeys (AList.insert k v m).nodupKeys fun k' v' => ?_
  show v' ∈ m.lookup k' ↔ v' ∈ (AList.insert k v m).lookup k'
  by_cases hk : k' = k
  · rw [hk, h, AList.lookup_insert]
  · rw [AList.lookup_insert_ne hk]

theorem items_push (m : UnorderedMap κ (List α)) (k : κ) (a : α) :
    (items (m.update k [] fun v => v ++ [a])).Perm (a :: items m) := by
  have hnew : items (m.update k [] fun v => v ++ [a]) =
      ((m.lookup k).getD [] ++ [a]) ++ items (m.erase k) := rfl
  have hold : (items m).Perm ((m.lookup k).getD [] ++ items (m.erase k)) := by
    cases hl : m.lookup k with
    | none =>
      have hk : k ∉ m.entries.keys := AList.lookup_eq_none.mp hl
      have herase : (m.erase k).entries = m.entries := List.kerase_of_notMem_keys hk
      rw [items, items, herase]
      exact List.Perm.refl _
    | some v => exact (perm_cons_erase hl).flatMap_right _
  rw [hnew, List.append_assoc]
  refine List.Perm.trans ?_ (List.Perm.cons a hold.symm)
  exact List.perm_middle

/-- **Grouping keeps every item.** -/
theorem items_groupOnto (key : α → κ) (l : List α) (m : UnorderedMap κ (List α)) :
    (items (groupOnto key m l)).Perm (items m ++ l) := by
  induction l generalizing m with
  | nil =>
    rw [List.append_nil]
    exact List.Perm.refl _
  | cons a l ih =>
    refine (ih _).trans ?_
    refine ((items_push m (key a) a).append_right l).trans ?_
    exact List.perm_middle.symm

theorem items_groupOn (key : α → κ) (l : List α) : (items (groupOn key l)).Perm l :=
  items_groupOnto key l ∅

/-! ## The sum of the values -/

section Sum

variable {μ : Type} [AddCommMonoid μ]

/-- All values together. -/
def valueSum (m : UnorderedMap κ μ) : μ :=
  (m.entries.map fun e => e.2).sum

theorem valueSum_eq_add_erase (m : UnorderedMap κ μ) (k : κ) :
    valueSum m = (m.lookup k).getD 0 + valueSum (m.erase k) := by
  cases hl : m.lookup k with
  | none =>
    have hk : k ∉ m.entries.keys := AList.lookup_eq_none.mp hl
    have herase : (m.erase k).entries = m.entries := List.kerase_of_notMem_keys hk
    rw [valueSum, valueSum, herase, Option.getD_none, zero_add]
  | some v => exact ((perm_cons_erase hl).map fun e => e.2).sum_eq

/-- `m[k] += v`. -/
theorem valueSum_update (m : UnorderedMap κ μ) (k : κ) (v : μ) :
    valueSum (m.update k 0 (· + v)) = valueSum m + v := by
  have hnew : valueSum (m.update k 0 (· + v)) =
      (m.lookup k).getD 0 + v + valueSum (m.erase k) := rfl
  rw [hnew, valueSum_eq_add_erase m k]
  exact add_right_comm _ _ _

end Sum

/-! ## Maps of counts -/

/-- All counts together. -/
def total (m : UnorderedMap κ ℕ) : ℕ :=
  (m.entries.map fun e => e.2).sum

theorem total_eq_add_erase (m : UnorderedMap κ ℕ) (k : κ) :
    m.total = (m.lookup k).getD 0 + total (m.erase k) :=
  valueSum_eq_add_erase m k

/-- `m[k] += n`. -/
theorem total_update (m : UnorderedMap κ ℕ) (k : κ) (n : ℕ) :
    total (m.update k 0 (· + n)) = m.total + n :=
  valueSum_update m k n

theorem total_emplace {m : UnorderedMap κ ℕ} {k : κ} (h : k ∉ m) (n : ℕ) :
    total (m.emplace k n) = m.total + n := by
  have hnew : total (AList.insert k n m) = n + total (m.erase k) := rfl
  rw [emplace, if_neg h, hnew, total_eq_add_erase m k, AList.lookup_eq_none.mpr h,
    Option.getD_none]
  omega

/-- One step creates one key at most. -/
theorem length_keys_update_le (m : UnorderedMap κ ν) (k : κ) (d : ν) (f : ν → ν) :
    (m.update k d f).keys.length ≤ m.keys.length + 1 := by
  have hkeys : (m.update k d f).keys = k :: m.keys.erase k := AList.keys_insert m
  rw [hkeys, List.length_cons]
  exact Nat.succ_le_succ List.length_erase_le

theorem length_keys_emplace_le (m : UnorderedMap κ ν) (k : κ) (v : ν) :
    (m.emplace k v).keys.length ≤ m.keys.length + 1 := by
  rw [emplace]
  split_ifs
  · exact Nat.le_succ _
  · exact length_keys_update_le m k v fun _ => v

end UnorderedMap

end BurstIoT
