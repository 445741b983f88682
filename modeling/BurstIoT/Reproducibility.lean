import BurstIoT.MergeSeparation
import BurstIoT.MergeTies

/-!
# Is training reproducible?

The pointers of the training bursts are the keys of the maps that `MergeIdenticalKeys` traverses, so
the order of the traversals depends on where the bursts happen to lie.  Every choice that
`MergeStep` leaves open is taken by some traversal: one that starts with the burst that the count
goes to (`exists_traversal`), and one that lists the entries in the order in which they are merged.
So every run to a final state is that of some library (`exists_lib_of_final`).

The result is the same for all traversals, up to `operator==`, if every state that merging reaches
is settled; for what `MergeStrictHash` leaves, only then (`reproducible_iff`).
-/

namespace BurstIoT
namespace Merging

open Relation (ReflTransGen)
open Confluence (Final)

variable {F : Type} [Field F] [LinearOrder F] [Elementary F]

/-- The entries of a map. -/
def listed (map : UnorderedMap BurstPtr ℕ) : List (BurstPtr × ℕ) :=
  map.entries.map fun e => (e.1, e.2)

/-- The same bursts, compared by `operator==`, with the same counts. -/
def SameResult (map map' : UnorderedMap BurstPtr ℕ) : Prop :=
  ∃ l, l.Perm (listed map') ∧
    List.Forall₂ (fun e e' => e.1.burst.same e'.1.burst = true ∧ e.2 = e'.2) (listed map) l

/-- `MergeIdenticalKeys` has the same result, whatever the traversals. -/
def Reproducible (F : Type) [Field F] [LinearOrder F] [Elementary F]
    (input : UnorderedMap BurstPtr ℕ) : Prop :=
  ∀ (lib lib' : StdLib) (map map' : UnorderedMap BurstPtr ℕ),
    mergeIdenticalKeys F lib input = .ok map → mergeIdenticalKeys F lib' input = .ok map' →
      SameResult map map'

theorem mem_listed {map : UnorderedMap BurstPtr ℕ} {b : BurstPtr} {n : ℕ} :
    (b, n) ∈ listed map ↔ map.lookup b = some n :=
  StdLib.insertion.mem_iterate

/-! ## A traversal for each way -/

/-- The map once an entry has been merged in one of the ways. -/
def merged (map : UnorderedMap BurstPtr ℕ) (e : BurstPtr × ℕ) :
    Option BurstPtr → UnorderedMap BurstPtr ℕ
  | none => map.emplace e.1 e.2
  | some b => map.update b 0 (· + e.2)

theorem toFinmap_merged (map : UnorderedMap BurstPtr ℕ) (e : BurstPtr × ℕ) (t : Option BurstPtr) :
    (merged map e t).toFinmap = add map.toFinmap e t := by
  cases t with
  | none => exact toFinmap_emplace map e.1 e.2
  | some b => exact toFinmap_update map e.1 b e.2

theorem total_merged {map : UnorderedMap BurstPtr ℕ} {e : BurstPtr × ℕ} (hnew : e.1 ∉ map)
    (t : Option BurstPtr) : (merged map e t).total = map.total + e.2 := by
  cases t with
  | none => exact UnorderedMap.total_emplace hnew e.2
  | some b => exact UnorderedMap.total_update map b e.2

section Traversal

variable {map : UnorderedMap BurstPtr ℕ} {burst : BurstPtr} {lib : StdLib}

/-- A traversal that starts with a given key. -/
theorem exists_front {b : BurstPtr} (hb : b ∈ map.toFinmap.keys) :
    ∃ n rest, ((b, n) :: rest).Perm (listed map) := by
  obtain ⟨n, hn⟩ := UnorderedMap.exists_lookup (mem_keys_toFinmap.mp hb)
  exact ⟨n, _, (List.perm_cons_erase (mem_listed.mpr hn)).symm⟩

theorem findUltraSimilarFrom_eq_none {l : List (BurstPtr × ℕ)}
    (h : ∀ e ∈ l, ∃ d : F, e.1.burst.distance burst.burst = .ok d ∧ ¬ d < 1 / 5) :
    findUltraSimilarFrom F burst l = .ok none := by
  induction l with
  | nil => rfl
  | cons e rest ih =>
    obtain ⟨d, hd, hfar⟩ := h e List.mem_cons_self
    rw [findUltraSimilarFrom, hd]
    dsimp only [bind, Except.bind]
    rw [if_neg hfar]
    exact ih fun e' he' => h e' (List.mem_cons_of_mem e he')

theorem findUltraSimilarBurst_eq_none
    (hdist : ∀ b ∈ map, ∃ d : F, b.burst.distance burst.burst = .ok d)
    (h : ∀ b ∈ map.toFinmap.keys, ¬ Similar F b.burst burst.burst) :
    findUltraSimilarBurst F lib map burst = .ok none := by
  refine findUltraSimilarFrom_eq_none fun e he => ?_
  have hmem := lib.mem_of_mem_iterate he
  obtain ⟨d, hd⟩ := hdist e.1 hmem
  exact ⟨d, hd, fun hnear => h e.1 (mem_keys_toFinmap.mpr hmem) ⟨d, hd, hnear⟩⟩

/-- A traversal that starts with an ultra-similar burst finds it. -/
theorem findUltraSimilarBurst_front {b : BurstPtr} {n : ℕ} {rest : List (BurstPtr × ℕ)}
    (hfront : lib.iterate map = (b, n) :: rest) (h : Similar F b.burst burst.burst) :
    findUltraSimilarBurst F lib map burst = .ok (some b) := by
  obtain ⟨d, hd, hnear⟩ := h
  rw [findUltraSimilarBurst, hfront, findUltraSimilarFrom, hd]
  dsimp only [bind, Except.bind]
  rw [if_pos hnear]
  rfl

/-- A traversal that starts with a burst with the same signatures finds it. -/
theorem findItenticalKeysInMap_front {b : BurstPtr} {n : ℕ} {rest : List (BurstPtr × ℕ)}
    (hfront : lib.iterate map = (b, n) :: rest) (h : identicalKeys b.burst burst.burst = true) :
    findItenticalKeysInMap lib map burst = some b := by
  rw [findItenticalKeysInMap, hfront, List.find?_cons, h]
  rfl

/-- A traversal that starts with a burst with the same signatures, and with none that is
ultra-similar: the distance to that burst decides. -/
theorem mergeKey_front {num : ℕ} {b : BurstPtr} {n : ℕ} {rest : List (BurstPtr × ℕ)} {d : F}
    (hlarge : Large burst.burst)
    (hnone : findUltraSimilarBurst F lib map burst = .ok none)
    (hfront : lib.iterate map = (b, n) :: rest)
    (hidentical : identicalKeys b.burst burst.burst = true)
    (hd : b.burst.distance burst.burst = .ok d) :
    mergeKey F lib map burst num =
      if d < 7 / 10 then .ok (map.update b 0 (· + num)) else .ok (map.emplace burst num) := by
  rw [mergeKey, hnone, findItenticalKeysInMap_front hfront hidentical]
  refine (if_pos hlarge).trans ?_
  dsimp only [bind, Except.bind]
  rw [hd]
  rfl

/-- **For each way there is a traversal** that goes it. -/
theorem exists_traversal (num : ℕ) {t : Option BurstPtr}
    (hdist : ∀ b ∈ map, ∃ d : F, b.burst.distance burst.burst = .ok d)
    (h : Goes F map.toFinmap.keys burst t) :
    ∃ l, l.Perm (listed map) ∧ ∀ lib : StdLib, lib.iterate map = l →
      mergeKey F lib map burst num = .ok (merged map (burst, num) t) := by
  cases h with
  | small hsmall =>
    refine ⟨_, .refl _, fun lib _ => ?_⟩
    rw [mergeKey]
    exact if_neg hsmall
  | alone hlarge hsimilar hidentical =>
    refine ⟨_, .refl _, fun lib _ => ?_⟩
    have hnone : findItenticalKeysInMap lib map burst = none := by
      rw [findItenticalKeysInMap, Option.map_eq_none_iff, List.find?_eq_none]
      intro e he
      rw [hidentical e.1 (mem_keys_toFinmap.mpr (lib.mem_of_mem_iterate he))]
      exact Bool.false_ne_true
    rw [mergeKey, findUltraSimilarBurst_eq_none hdist hsimilar, hnone]
    exact if_pos hlarge
  | far hlarge hsimilar hmem hidentical hfar =>
    obtain ⟨n, rest, hperm⟩ := exists_front hmem
    refine ⟨_, hperm, fun lib hlib => ?_⟩
    obtain ⟨d, hd⟩ := hdist _ (mem_keys_toFinmap.mp hmem)
    have hnone : findUltraSimilarBurst F lib map burst = .ok none :=
      findUltraSimilarBurst_eq_none hdist hsimilar
    exact (mergeKey_front hlarge hnone hlib hidentical hd).trans
      (if_neg fun hnear => hfar ⟨d, hd, hnear⟩)
  | similar hlarge hmem hsimilar =>
    obtain ⟨n, rest, hperm⟩ := exists_front hmem
    refine ⟨_, hperm, fun lib hlib => ?_⟩
    rw [mergeKey, findUltraSimilarBurst_front hlib hsimilar]
    refine (if_pos hlarge).trans ?_
    cases findItenticalKeysInMap lib map burst <;> rfl
  | identical hlarge hsimilar hmem hidentical hnear =>
    obtain ⟨n, rest, hperm⟩ := exists_front hmem
    refine ⟨_, hperm, fun lib hlib => ?_⟩
    obtain ⟨d, hd, hlt⟩ := hnear
    have hnone : findUltraSimilarBurst F lib map burst = .ok none :=
      findUltraSimilarBurst_eq_none hdist hsimilar
    exact (mergeKey_front hlarge hnone hlib hidentical hd).trans (if_pos hlt)

end Traversal

/-! ## Every run is that of some library -/

/-- A run that has reached `s` is that of every library that traverses the maps up to then in an
order: it has merged the entries `l`, and the map is `map`.  As the counts are positive, the maps up
to then have a smaller total. -/
structure Realized (F : Type) [Field F] [LinearOrder F] [Elementary F]
    (input : UnorderedMap BurstPtr ℕ) (s : Pending) (l : List (BurstPtr × ℕ))
    (map : UnorderedMap BurstPtr ℕ) (order : UnorderedMap BurstPtr ℕ → List (BurstPtr × ℕ)) :
    Prop where
  perm : ∀ m, (order m).Perm (listed m)
  map_eq : map.toFinmap = s.map
  total : map.total = (l.map Prod.snd).sum
  entries : (l ++ s.rest.toList).Perm (listed input)
  sorted : l.Pairwise fun a b => toInt b.2 ≤ toInt a.2
  lighter : ∀ a ∈ l, ∀ f ∈ s.rest, toInt f.2 ≤ toInt a.2
  run : ∀ lib : StdLib, (∀ m : UnorderedMap BurstPtr ℕ, m.total < map.total →
    lib.iterate m = order m) → mergeKeys F lib l ∅ = .ok map

theorem realized_start (input : UnorderedMap BurstPtr ℕ) :
    Realized F input (start input) [] ∅ listed where
  perm := fun _ => .refl _
  map_eq := rfl
  total := rfl
  entries := List.toFinset_toList
    ((StdLib.insertion.nodup_iterate_keys input).of_map Prod.fst)
  sorted := .nil
  lighter := fun _ ha => absurd ha List.not_mem_nil
  run := fun _ _ => rfl

/-- The entry that is merged next, followed by the others in some order. -/
theorem toList_rest_after {s : Pending} {e : BurstPtr × ℕ} (he : e ∈ s.rest)
    (t : Option BurstPtr) : (e :: (s.after e t).rest.toList).Perm s.rest.toList := by
  have hlist := Finset.toList_insert (Finset.notMem_erase e s.rest)
  rw [Finset.insert_erase he] at hlist
  exact hlist.symm

/-- A run of the loop with one more entry. -/
theorem mergeKeys_concat {lib : StdLib} {l : List (BurstPtr × ℕ)}
    {map map' : UnorderedMap BurstPtr ℕ} {e : BurstPtr × ℕ}
    (hrun : mergeKeys F lib l ∅ = .ok map) (hroom : map.keys.length ≤ 1000)
    (hmerge : mergeKey F lib map e.1 e.2 = .ok map') :
    mergeKeys F lib (l ++ [e]) ∅ = .ok map' := by
  rw [mergeKeys_append, hrun]
  show mergeKeys F lib [e] map = _
  rw [mergeKeys, if_neg (Nat.not_lt.mpr hroom), hmerge]
  rfl

/-- **One more step** needs one more traversal. -/
theorem Realized.step {input : UnorderedMap BurstPtr ℕ} (hinput : ∀ b ∈ input, Comparable b.burst)
    (hdistinct : Distinct input) {s s' : Pending} (hproper : s.Proper input)
    {l : List (BurstPtr × ℕ)} {map : UnorderedMap BurstPtr ℕ}
    {order : UnorderedMap BurstPtr ℕ → List (BurstPtr × ℕ)} (h : Realized F input s l map order)
    (hstep : MergeStep F s s') : ∃ l' map' order', Realized F input s' l' map' order' := by
  classical
  cases hstep with | @merge e t hnext hgoes => ?_
  have hkeys : ∀ b, b ∈ map ↔ b ∈ s.map.keys := fun b => by
    rw [← h.map_eq, mem_keys_toFinmap]
  have hburst : Comparable e.1.burst :=
    hinput e.1 (UnorderedMap.mem_of_lookup (hproper.rest e hnext.mem))
  have hdist : ∀ b ∈ map, ∃ d : F, b.burst.distance e.1.burst = .ok d := fun b hb => by
    have hb := hinput b (hproper.keys b ((hkeys b).mp hb))
    exact Burst.distance_ok hb.wellFormed.counted hburst.wellFormed.counted hburst.room
  rw [← h.map_eq] at hgoes
  obtain ⟨front, hperm, hmerge⟩ := exists_traversal e.2 hdist hgoes
  have hnew : e.1 ∉ map := fun hb => hproper.fresh e hnext.mem ((hkeys e.1).mp hb)
  have hpos : 0 < e.2 := hdistinct.pos e.1 e.2 (hproper.rest e hnext.mem)
  have htotal := total_merged hnew t
  refine ⟨l ++ [e], merged map e t, fun m => if m = map then front else order m, ?_, ?_, ?_, ?_,
    ?_, ?_, ?_⟩
  · intro m
    split_ifs with hm
    · rw [hm]
      exact hperm
    · exact h.perm m
  · rw [toFinmap_merged, h.map_eq]
    rfl
  · rw [htotal, h.total, List.map_append, List.sum_append, List.map_singleton, List.sum_singleton]
  · refine .trans ?_ h.entries
    rw [List.append_assoc]
    exact (toList_rest_after hnext.mem t).append_left l
  · rw [List.pairwise_append]
    refine ⟨h.sorted, List.pairwise_singleton _ _, fun a ha b hb => ?_⟩
    rw [List.mem_singleton.mp hb]
    exact h.lighter a ha e hnext.mem
  · intro a ha f hf
    have hf := Finset.mem_of_mem_erase hf
    rcases List.mem_append.mp ha with ha | ha
    · exact h.lighter a ha f hf
    · rw [List.mem_singleton.mp ha]
      exact hnext.largest f hf
  · intro lib hlib
    have hfront : lib.iterate map = front := by
      rw [hlib map (by omega), if_pos rfl]
    have hdone : mergeKeys F lib l ∅ = .ok map := h.run lib fun m hm => by
      rw [hlib m (by omega), if_neg fun heq => by rw [heq] at hm; exact lt_irrefl _ hm]
    have hroom : map.keys.length ≤ 1000 := by
      rw [← card_keys_toFinmap, h.map_eq]
      exact hnext.room
    exact mergeKeys_concat hdone hroom (hmerge lib hfront)

theorem exists_realized {input : UnorderedMap BurstPtr ℕ} (hinput : ∀ b ∈ input, Comparable b.burst)
    (hdistinct : Distinct input) {s : Pending}
    (h : ReflTransGen (MergeStep F) (start input) s) :
    ∃ l map order, Realized F input s l map order := by
  induction h with
  | refl => exact ⟨_, _, _, realized_start input⟩
  | tail hrun hstep ih =>
    obtain ⟨l, map, order, hreal⟩ := ih
    exact hreal.step hinput hdistinct (Pending.proper_of_reachable hrun) hstep

/-- **Every run to a final state is that of some library.** -/
theorem exists_lib_of_final {input : UnorderedMap BurstPtr ℕ}
    (hinput : ∀ b ∈ input, Comparable b.burst) (hdistinct : Distinct input) {s : Pending}
    (h : ReflTransGen (MergeStep F) (start input) s) (hfinal : Final (MergeStep F) s) :
    ∃ (lib : StdLib) (map : UnorderedMap BurstPtr ℕ), map.toFinmap = s.map ∧
      mergeIdenticalKeys F lib input = .ok map := by
  classical
  obtain ⟨l, map, order, hreal⟩ := exists_realized hinput hdistinct h
  -- the entries that are left, in an order in which they could be merged
  let left := stableSort moreOften s.rest.toList
  have hleft : left.Perm s.rest.toList := stableSort_perm _ _
  have hall : (l ++ left).Perm (listed input) := (hleft.append_left l).trans hreal.entries
  have hsorted : (l ++ left).Pairwise fun a b => moreOften b a = false := by
    rw [List.pairwise_append]
    refine ⟨hreal.sorted.imp fun hle => decide_eq_false (not_lt.mpr hle),
      stableSort_pairwise strictWeak_moreOften _, fun a ha b hb => ?_⟩
    have hb : b ∈ s.rest := Finset.mem_toList.mp (hleft.mem_iff.mp hb)
    exact decide_eq_false (not_lt.mpr (hreal.lighter a ha b hb))
  obtain ⟨lib, hlib⟩ := StdLib.exists_iterate
    (fun m => if m = input then l ++ left else order m) fun m => by
      split_ifs with hm
      · rw [hm]
        exact hall
      · exact hreal.perm m
  have htotal : map.total ≤ input.total := by
    have hsum := (hall.map Prod.snd).sum_eq
    rw [List.map_append, List.sum_append, ← hreal.total, listed, List.map_map] at hsum
    have hinputTotal : (input.entries.map (Prod.snd ∘ fun e => (e.1, e.2))).sum = input.total := rfl
    omega
  have hentries : byCount lib input = l ++ left := by
    rw [byCount, hlib, if_pos rfl, stableSort_of_pairwise hsorted]
  have hdone : mergeKeys F lib l ∅ = .ok map := hreal.run lib fun m hm => by
    rw [hlib, if_neg fun heq => by rw [heq] at hm; omega]
  refine ⟨lib, map, hreal.map_eq, ?_⟩
  show mergeKeys F lib (byCount lib input) ∅ = _
  rw [hentries, mergeKeys_append, hdone]
  show mergeKeys F lib left map = _
  cases hcases : left with
  | nil => rfl
  | cons e rest =>
    have hne : s.rest.Nonempty := by
      refine ⟨e, Finset.mem_toList.mp (hleft.mem_iff.mp ?_)⟩
      rw [hcases]
      exact List.mem_cons_self
    have hfull := Pending.full_of_final hfinal hne
    rw [← hreal.map_eq, card_keys_toFinmap] at hfull
    rw [mergeKeys, if_pos hfull]

/-! ## Equal results -/

theorem sameResult_of_toFinmap_eq {map map' : UnorderedMap BurstPtr ℕ}
    (h : map.toFinmap = map'.toFinmap) : SameResult map map' :=
  ⟨listed map, (AList.toFinmap_eq.mp h).map _,
    List.forall₂_same.mpr fun e _ => ⟨Burst.same_refl e.1.burst, rfl⟩⟩

theorem exists_of_forall₂ {α β : Type} {R : α → β → Prop} {l : List α} {l' : List β}
    (h : List.Forall₂ R l l') {a : α} (ha : a ∈ l) : ∃ b ∈ l', R a b := by
  induction h with
  | nil => exact absurd ha List.not_mem_nil
  | cons hhead _ ih =>
    rcases List.mem_cons.mp ha with rfl | ha
    · exact ⟨_, List.mem_cons_self, hhead⟩
    · obtain ⟨b, hb, hR⟩ := ih ha
      exact ⟨b, List.mem_cons_of_mem _ hb, hR⟩

/-- Of bursts without two that are equal, equal results are the same. -/
theorem toFinmap_eq_of_sameResult {input map map' : UnorderedMap BurstPtr ℕ}
    (hdistinct : Distinct input) (hmap : ∀ b ∈ map, b ∈ input) (hmap' : ∀ b ∈ map', b ∈ input)
    (h : SameResult map map') : map.toFinmap = map'.toFinmap := by
  obtain ⟨l, hperm, hsame⟩ := h
  refine Finmap.ext_lookup fun b => Option.ext fun n => ?_
  rw [Finmap.lookup_toFinmap, Finmap.lookup_toFinmap]
  constructor
  · intro hn
    obtain ⟨⟨b', n'⟩, hmem, heq, rfl⟩ := exists_of_forall₂ hsame (mem_listed.mpr hn)
    have hlook : map'.lookup b' = some n := mem_listed.mp (hperm.mem_iff.mp hmem)
    rwa [hdistinct.apart b (hmap b (UnorderedMap.mem_of_lookup hn)) b'
      (hmap' b' (UnorderedMap.mem_of_lookup hlook)) heq]
  · intro hn
    have hmem : (b, n) ∈ l := hperm.mem_iff.mpr (mem_listed.mpr hn)
    obtain ⟨⟨b', n'⟩, hmem', heq, heq'⟩ := exists_of_forall₂ hsame.flip hmem
    dsimp only at heq heq'
    rw [heq'] at hmem'
    have hlook : map.lookup b' = some n := mem_listed.mp hmem'
    rwa [← hdistinct.apart b' (hmap b' (UnorderedMap.mem_of_lookup hlook)) b
      (hmap' b (UnorderedMap.mem_of_lookup hn)) heq]

/-- Where all libraries have equal results, all runs leave the same map. -/
theorem unique_of_reproducible {input : UnorderedMap BurstPtr ℕ}
    (hinput : ∀ b ∈ input, Comparable b.burst) (hdistinct : Distinct input)
    (h : Reproducible F input) : Unique F input := by
  intro s s' hs hfinal hs' hfinal'
  obtain ⟨lib, map, hmap, hrun⟩ := exists_lib_of_final hinput hdistinct hs hfinal
  obtain ⟨lib', map', hmap', hrun'⟩ := exists_lib_of_final hinput hdistinct hs' hfinal'
  have hkeys : ∀ b ∈ map, b ∈ input := fun b hb => by
    refine (Pending.proper_of_reachable hs).keys b ?_
    rwa [← hmap, mem_keys_toFinmap]
  have hkeys' : ∀ b ∈ map', b ∈ input := fun b hb => by
    refine (Pending.proper_of_reachable hs').keys b ?_
    rwa [← hmap', mem_keys_toFinmap]
  rw [← hmap, ← hmap']
  exact toFinmap_eq_of_sameResult hdistinct hkeys hkeys' (h lib lib' map map' hrun hrun')

/-- **When training is reproducible.**  For any input, if every state that merging can reach is
settled; and for bursts as `MergeStrictHash` leaves them, only then. -/
theorem reproducible_iff (input : UnorderedMap BurstPtr ℕ) :
    (Determined F input → Reproducible F input) ∧
      ((∀ b ∈ input, Comparable b.burst) → Distinct input →
        (Reproducible F input ↔ Determined F input)) := by
  have henough : Determined F input → Reproducible F input :=
    fun h lib lib' map map' hrun hrun' =>
      sameResult_of_toFinmap_eq (toFinmap_eq_of_determined h hrun hrun')
  refine ⟨henough, fun hinput hdistinct => ⟨fun h s hs => ?_, henough⟩⟩
  exact settled_of_unique hdistinct (unique_of_reproducible hinput hdistinct h) hs

/-! ## Bursts that have nothing to do with each other -/

/-- **Bursts of which no two can be merged** leave no choice, if there are at most a thousand. -/
theorem determined_of_apart {input : UnorderedMap BurstPtr ℕ} (hroom : input.keys.length ≤ 1000)
    (h : ∀ b ∈ input, ∀ b' ∈ input, b ≠ b' → ¬ Similar F b.burst b'.burst ∧
      identicalKeys b.burst b'.burst = false) : Determined F input := by
  intro s hs
  have hproper := Pending.proper_of_reachable hs
  have hmem : ∀ {e}, e ∈ s.rest → e.1 ∈ input := fun he =>
    UnorderedMap.mem_of_lookup (hproper.rest _ he)
  have hapart : ∀ {e}, e ∈ s.rest → ∀ b ∈ s.map.keys, ¬ Similar F b.burst e.1.burst ∧
      identicalKeys b.burst e.1.burst = false := fun he b hb =>
    h b (hproper.keys b hb) _ (hmem he) fun heq => hproper.fresh _ he (heq ▸ hb)
  have hnone : ∀ {e t}, e ∈ s.rest → Goes F s.map.keys e.1 t → t = none := by
    intro e t he ht
    cases ht with
    | small _ => rfl
    | alone _ _ _ => rfl
    | far _ _ _ _ _ => rfl
    | similar _ hb hsimilar => exact absurd hsimilar (hapart he _ hb).1
    | identical _ _ hb hidentical _ =>
      rw [(hapart he _ hb).2] at hidentical
      cases hidentical
  refine ⟨fun e hnext t t' ht ht' => ?_, fun e f he hf hne _ t ht => ⟨?_, ?_⟩⟩
  · rw [hnone hnext.mem ht, hnone hnext.mem ht']
  · have hsubset : insert e.1 s.map.keys ⊆ input.toFinmap.keys := by
      intro b hb
      rw [mem_keys_toFinmap]
      rcases Finset.mem_insert.mp hb with rfl | hb
      · exact hmem he.mem
      · exact hproper.keys b hb
    have hcard := Finset.card_le_card hsubset
    rw [Finset.card_insert_of_notMem (hproper.fresh e he.mem), card_keys_toFinmap] at hcard
    omega
  · rw [hnone hf.mem ht]
    by_cases hlarge : Large f.1.burst
    · have hall : ∀ b ∈ insert e.1 s.map.keys, ¬ Similar F b.burst f.1.burst ∧
          identicalKeys b.burst f.1.burst = false := by
        intro b hb
        rcases Finset.mem_insert.mp hb with rfl | hb
        · exact h _ (hmem he.mem) _ (hmem hf.mem) (hproper.ne_of_mem_after he.mem hf.mem hne)
        · exact hapart hf.mem b hb
      exact .alone hlarge (fun b hb => (hall b hb).1) fun b hb => (hall b hb).2
    · exact .small hlarge

/-- A thousand packets of another length. -/
def manyPtr : BurstPtr := ⟨2, ⟨1, 1000, "lamp", .zero, .zero, [(200, 1000)]⟩⟩

theorem comparable_manyPtr : Comparable manyPtr.burst :=
  ⟨⟨by decide, by decide, by decide, by decide⟩, by decide, by decide⟩

/-- Two bursts that were met once each. -/
def metOnce (b b' : BurstPtr) : UnorderedMap BurstPtr ℕ :=
  AList.insert b 1 (AList.singleton b' 1)

theorem mem_metOnce {b b' p : BurstPtr} : p ∈ metOnce b b' ↔ p = b ∨ p = b' := by
  rw [metOnce, AList.mem_insert]
  exact or_congr_right List.mem_singleton

/-- The seven packets and the thousand. -/
theorem reproducible_sevenPtr_manyPtr : Reproducible ℝ (metOnce sevenPtr manyPtr) ∧
    (Reproducible ℝ (metOnce sevenPtr manyPtr) ↔ Determined ℝ (metOnce sevenPtr manyPtr)) := by
  have hfar : ∀ b b' : BurstPtr, Burst.Far b.burst b'.burst → ¬ Similar ℝ b.burst b'.burst := by
    rintro b b' hfar ⟨d, hd, hnear⟩
    rw [Burst.distance_of_far hfar] at hd
    rw [← Except.ok.inj hd] at hnear
    norm_num at hnear
  have hapart : Determined ℝ (metOnce sevenPtr manyPtr) := by
    refine determined_of_apart (by decide) fun b hb b' hb' hne => ?_
    rcases mem_metOnce.mp hb with rfl | rfl <;> rcases mem_metOnce.mp hb' with rfl | rfl
    · exact absurd rfl hne
    · exact ⟨hfar _ _ (by decide), by decide⟩
    · exact ⟨hfar _ _ (by decide), by decide⟩
    · exact absurd rfl hne
  refine ⟨(reproducible_iff _).1 hapart, (reproducible_iff _).2 (fun b hb => ?_) ⟨?_, ?_⟩⟩
  · rcases mem_metOnce.mp hb with rfl | rfl
    · exact comparable_sevenPtr
    · exact comparable_manyPtr
  · intro b n hn
    rcases mem_metOnce.mp (UnorderedMap.mem_of_lookup hn) with rfl | rfl <;>
      · cases hn
        decide
  · intro b hb b' hb' hsame
    rcases mem_metOnce.mp hb with rfl | rfl <;> rcases mem_metOnce.mp hb' with rfl | rfl
    · rfl
    · exact absurd hsame (by decide)
    · exact absurd hsame (by decide)
    · rfl

/-! ## Two bursts that can be merged -/

/-- A library that traverses a map from its other end. -/
def reversed : StdLib where
  sort := stableSort
  sort_perm := fun {_ lt} _ => stableSort_perm lt
  sort_pairwise := stableSort_pairwise
  sort_map := map_stableSort
  iterate := fun m => (m.entries.map fun e => (e.1, e.2)).reverse
  iterate_perm := fun _ => List.reverse_perm _
  hashInt := StdLib.insertion.hashInt
  hashUInt32 := StdLib.insertion.hashUInt32

/-- **Two bursts met once each**, of which the first one that is met takes the count of the other
one. -/
theorem not_reproducible_lamp : (∀ b ∈ metOnce sevenPtr eightPtr, Comparable b.burst) ∧
    ¬ Reproducible ℝ (metOnce sevenPtr eightPtr) := by
  constructor
  · intro b hb
    rcases mem_metOnce.mp hb with rfl | rfl
    · exact comparable_sevenPtr
    · exact comparable_eightPtr
  · intro h
    obtain ⟨hseven, height⟩ := distance_sevenPtr_eightPtr
    have hrun : mergeIdenticalKeys ℝ .insertion (metOnce sevenPtr eightPtr) =
        .ok (AList.singleton sevenPtr 2) :=
      mergeKeys_pair .insertion (by decide) (by decide) hseven 1 1
    have hrun' : mergeIdenticalKeys ℝ reversed (metOnce sevenPtr eightPtr) =
        .ok (AList.singleton eightPtr 2) :=
      mergeKeys_pair reversed (by decide) (by decide) height 1 1
    obtain ⟨l, hperm, hsame⟩ := h _ _ _ _ hrun hrun'
    obtain ⟨e, he, heq, -⟩ := exists_of_forall₂ hsame (List.mem_singleton_self (sevenPtr, 2))
    have hmem : e = (eightPtr, 2) := List.mem_singleton.mp (hperm.mem_iff.mp he)
    rw [hmem] at heq
    exact absurd heq (by decide)

end Merging
end BurstIoT
