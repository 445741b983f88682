import BurstIoT.Classifier
import BurstIoT.Library.Representatives
import BurstIoT.MergeChoices
import BurstIoT.MergeWeight
import BurstIoT.StrictMerging

/-!
# What stands for a training burst

The classifier keeps a few of the bursts of a device, and a count for each.  Each burst of the
training half is given to one that is kept, or to none.  `MergeStrictHash` gives it to the first
burst with its hash (`represents_mergeStrictHash`).  `MergeIdenticalKeys` gives what it meets to
itself or to a burst that is near (`represents_mergeIdenticalKeys`), and what is left when the map
is full to none.  Taken together, this says which bursts a key of `trainMap` stands for, and that
its count is their number (`covers_trainMap`).
-/

namespace BurstIoT
namespace Merging

open UnorderedMap

variable {F : Type} [Field F] [LinearOrder F] [Elementary F] {lib : StdLib}

/-! ## `MergeStrictHash` -/

/-- The first burst with the hash of `p`. -/
def firstOfHash (lib : StdLib) (burstGroups : List BurstBlock) (p : BurstPtr) : Option BurstPtr :=
  (pointers burstGroups).find? (sameHash lib p)

theorem sameHash_of_firstOfHash {burstGroups : List BurstBlock} {p k : BurstPtr}
    (h : firstOfHash lib burstGroups p = some k) : sameHash lib p k = true :=
  List.find?_some h

/-- A burst is given to `k` if it has the hash of `k` and `k` is kept. -/
theorem firstOfHash_eq_some {burstGroups : List BurstBlock} {p k : BurstPtr} :
    firstOfHash lib burstGroups p = some k ↔
      k ∈ mergeStrictHash lib burstGroups ∧ sameHash lib k p = true := by
  rw [mem_mergeStrictHash]
  constructor
  · intro h
    have hsame := sameHash_of_firstOfHash h
    rw [← sameHash_congr hsame]
    exact ⟨h, beq_self_eq_true _⟩
  · rintro ⟨hfind, hsame⟩
    rw [firstOfHash, ← sameHash_congr hsame]
    exact hfind

variable (lib) in
theorem exists_firstOfHash {burstGroups : List BurstBlock} {p : BurstPtr}
    (hp : p ∈ pointers burstGroups) : ∃ k, firstOfHash lib burstGroups p = some k := by
  cases hfind : firstOfHash lib burstGroups p with
  | none => exact absurd (beq_self_eq_true _) (List.find?_eq_none.mp hfind p hp)
  | some k => exact ⟨k, rfl⟩

/-- **`MergeStrictHash` counts each burst for the first one with its hash.** -/
theorem represents_mergeStrictHash (lib : StdLib) (burstGroups : List BurstBlock) :
    Represents (fun k p => k.burst.hash lib = p.burst.hash lib)
      (pointers burstGroups : Multiset BurstPtr) (mergeStrictHash lib burstGroups)
      (firstOfHash lib burstGroups) where
  stands := fun p _ k hk => by
    obtain ⟨hmem, hsame⟩ := firstOfHash_eq_some.mp hk
    exact ⟨hmem, (eq_of_beq hsame).symm⟩
  counts := by
    refine Multiset.ext' fun k => ?_
    rw [count_toMultiset, Multiset.filterMap_coe, Multiset.coe_count, List.count_filterMap,
      lookup_mergeStrictHash]
    split_ifs with hfind
    · have hk : k ∈ mergeStrictHash lib burstGroups := mem_mergeStrictHash.mpr hfind
      refine List.countP_congr fun p _ => ?_
      rw [beq_iff_eq, firstOfHash_eq_some]
      exact ⟨fun hsame => ⟨hk, hsame⟩, fun h => h.2⟩
    · refine (List.countP_eq_zero.mpr fun p _ hp => hfind ?_).symm
      exact mem_mergeStrictHash.mp (firstOfHash_eq_some.mp (beq_iff_eq.mp hp)).1

/-! ## `MergeIdenticalKeys` -/

/-- **The burst `k` may be counted for `q`**: it is `q`, or `q` is large and near to it, where
bursts with the same signatures are near from farther away. -/
def Absorbs (F : Type) [Field F] [LinearOrder F] [Elementary F] (k q : BurstPtr) : Prop :=
  k = q ∨ (Large q.burst ∧ ∃ d : F, k.burst.distance q.burst = .ok d ∧
    (d < 1 / 5 ∨ identicalKeys k.burst q.burst = true ∧ d < 7 / 10))

theorem AddsTo.absorbs {map : UnorderedMap BurstPtr ℕ} {burst existing : BurstPtr}
    (h : AddsTo F lib map burst existing) : Absorbs F existing burst := by
  obtain ⟨d, hd, hnear⟩ := h.near
  refine Or.inr ⟨h.large, d, hd, hnear.imp_right fun hidentical => ?_⟩
  exact ⟨identicalKeys_of_findItenticalKeysInMap hidentical.1, hidentical.2⟩

/-- What the map represents once the entries `done` have been merged. -/
structure Absorbed (F : Type) [Field F] [LinearOrder F] [Elementary F]
    (done : List (BurstPtr × ℕ)) (map : UnorderedMap BurstPtr ℕ)
    (rep : BurstPtr → Option BurstPtr) : Prop where
  represents : Represents (Absorbs F) (Tally.total done) map rep
  self : ∀ k ∈ map, k ∈ done.map Prod.fst ∧ rep k = some k
  given : ∀ b, rep b = none ↔ b ∉ done.map Prod.fst

theorem absorbed_empty : Absorbed F [] ∅ fun _ => none where
  represents := represents_empty
  self := fun k hk => absurd hk (AList.notMem_empty k)
  given := fun _ => iff_of_true rfl List.not_mem_nil

/-- The entry `e` is counted for the key `k` of the new map. -/
theorem Absorbed.add {done : List (BurstPtr × ℕ)} {map map' : UnorderedMap BurstPtr ℕ}
    {rep : BurstPtr → Option BurstPtr} (h : Absorbed F done map rep) {e : BurstPtr × ℕ}
    (hnew : e.1 ∉ done.map Prod.fst) {k : BurstPtr} (habsorbs : Absorbs F k e.1)
    (hkeys : ∀ k' ∈ map', k' ∈ map ∨ k' = e.1 ∧ k = e.1) (hmap : ∀ k' ∈ map, k' ∈ map')
    (hk : k ∈ map') (hcount : map'.toMultiset = map.toMultiset + Multiset.replicate e.2 k) :
    Absorbed F (done ++ [e]) map' (Function.update rep e.1 (some k)) where
  represents := by
    have htotal : Tally.total (done ++ [e]) = Tally.total done + Multiset.replicate e.2 e.1 := by
      rw [Tally.total_append, Tally.total_cons, Tally.total_nil, add_zero]
    rw [htotal]
    refine h.represents.add (fun hmem => ?_) hmap hk habsorbs hcount
    obtain ⟨n, hn, -⟩ := Tally.mem_total.mp hmem
    exact hnew (List.mem_map.mpr ⟨(e.1, n), hn, rfl⟩)
  self := by
    intro k' hk'
    rw [List.map_append, List.mem_append]
    rcases hkeys k' hk' with hold | ⟨rfl, rfl⟩
    · have hne : k' ≠ e.1 := fun heq => hnew (heq ▸ (h.self k' hold).1)
      rw [Function.update_of_ne hne]
      exact ⟨Or.inl (h.self k' hold).1, (h.self k' hold).2⟩
    · rw [Function.update_self]
      exact ⟨Or.inr List.mem_cons_self, rfl⟩
  given := by
    intro b
    by_cases hb : b = e.1
    · subst hb
      rw [Function.update_self]
      refine iff_of_false (Option.some_ne_none k) fun hout => hout ?_
      rw [List.map_append, List.mem_append]
      exact Or.inr List.mem_cons_self
    · rw [Function.update_of_ne hb, h.given b, List.map_append, List.mem_append]
      exact not_congr (or_iff_left fun hin => hb (List.mem_singleton.mp hin)).symm

/-- **One iteration** gives its entry to a key of the map. -/
theorem Absorbed.step {done : List (BurstPtr × ℕ)} {map map' : UnorderedMap BurstPtr ℕ}
    {rep : BurstPtr → Option BurstPtr} (h : Absorbed F done map rep) {e : BurstPtr × ℕ}
    (hnew : e.1 ∉ done.map Prod.fst) (hmerge : mergeKey F lib map e.1 e.2 = .ok map') :
    ∃ rep', Absorbed F (done ++ [e]) map' rep' := by
  rcases mergeKey_cases hmerge with ⟨rfl, -⟩ | ⟨existing, rfl, hadds⟩
  · have hout : e.1 ∉ map := fun hmem => hnew (h.self e.1 hmem).1
    refine ⟨_, h.add hnew (Or.inl rfl) (fun k' hk' => ?_) (fun k' hk' => ?_) ?_
      (toMultiset_emplace hout e.2)⟩
    · rcases UnorderedMap.mem_emplace.mp hk' with rfl | hk'
      · exact Or.inr ⟨rfl, rfl⟩
      · exact Or.inl hk'
    · exact UnorderedMap.mem_emplace.mpr (Or.inr hk')
    · exact UnorderedMap.mem_emplace.mpr (Or.inl rfl)
  · refine ⟨_, h.add hnew hadds.absorbs (fun k' hk' => ?_) (fun k' hk' => ?_) ?_
      (toMultiset_update map existing e.2)⟩
    · rcases UnorderedMap.mem_update.mp hk' with rfl | hk'
      · exact Or.inl hadds.mem
      · exact Or.inl hk'
    · exact UnorderedMap.mem_update.mpr (Or.inr hk')
    · exact UnorderedMap.mem_update.mpr (Or.inl rfl)

theorem total_byCount (lib : StdLib) (input : UnorderedMap BurstPtr ℕ) :
    Tally.total (byCount lib input) = input.toMultiset :=
  Tally.total_perm ((byCount_perm lib input).trans (lib.iterate_perm input))

/-- **`MergeIdenticalKeys` counts each burst it is given for one that it keeps**, but for the rarest
ones when the map is full. -/
theorem represents_mergeIdenticalKeys {input map : UnorderedMap BurstPtr ℕ}
    (hrun : mergeIdenticalKeys F lib input = .ok map) : ∃ rep,
      Represents (Absorbs F) input.toMultiset map rep ∧
      (∀ k ∈ map, k ∈ input ∧ rep k = some k) ∧
      ∀ b n, input.lookup b = some n → rep b = none → 1000 < map.keys.length ∧
        ∀ c m, input.lookup c = some m → rep c ≠ none → toInt n ≤ toInt m := by
  let I : List (BurstPtr × ℕ) → UnorderedMap BurstPtr ℕ → Prop := fun done map =>
    ∃ rep, Absorbed F done map rep
  have hnodup := nodup_byCount_keys lib input
  obtain ⟨processed, leftOut, hl, ⟨rep, hrep⟩, hfull⟩ := mergeKeys_inv (I := I)
    (fun done e rest map map' hl _ _ hI hmerge => by
      obtain ⟨rep, hrep⟩ := hI
      exact hrep.step (UnorderedMap.fst_notMem_of_nodup hnodup hl) hmerge)
    ⟨_, absorbed_empty⟩ hrun
  have hl : byCount lib input = processed ++ leftOut := hl
  rw [hl, List.map_append, List.nodup_append] at hnodup
  have hmem : ∀ {b n}, input.lookup b = some n → (b, n) ∈ processed ++ leftOut := fun h =>
    hl ▸ mem_byCount.mpr h
  refine ⟨rep, ?_, fun k hk => ⟨?_, (hrep.self k hk).2⟩, fun b n hb hnone => ?_⟩
  · rw [← total_byCount lib input, hl, Tally.total_append]
    refine hrep.represents.skip fun b hb => (hrep.given b).mpr fun hdone => ?_
    obtain ⟨n, hn, -⟩ := Tally.mem_total.mp hb
    exact hnodup.2.2 b hdone b (List.mem_map_of_mem hn) rfl
  · obtain ⟨⟨b, n⟩, hmem, rfl⟩ := List.mem_map.mp (hrep.self k hk).1
    have hin : (b, n) ∈ byCount lib input := hl ▸ List.mem_append_left leftOut hmem
    exact UnorderedMap.mem_of_lookup (mem_byCount.mp hin)
  · have hleft : (b, n) ∈ leftOut := by
      rcases List.mem_append.mp (hmem hb) with hdone | hleft
      · exact absurd (List.mem_map_of_mem hdone) ((hrep.given b).mp hnone)
      · exact hleft
    refine ⟨hfull (List.ne_nil_of_mem hleft), fun c m hc hsome => ?_⟩
    have hpairwise := pairwise_byCount lib input
    rw [hl, List.pairwise_append] at hpairwise
    rcases List.mem_append.mp (hmem hc) with hdone | hout
    · exact hpairwise.2.2 (c, m) hdone (b, n) hleft
    · refine absurd ((hrep.given c).mpr fun hdone => ?_) hsome
      exact hnodup.2.2 c hdone c (List.mem_map_of_mem hout) rfl

end Merging

/-! ## Both together -/

namespace Classifier

open Merging

variable {F : Type} [Field F] [LinearOrder F] [Elementary F] {lib : StdLib} {cfg : Config F}

/-- **The kept burst `k` stands for `p`**: it may be counted for the first burst with the hash of
`p`, and is this one when `MergeIdenticalKeys` is not used. -/
def StandsFor (lib : StdLib) (cfg : Config F) (burstGroups : List BurstBlock)
    (k p : BurstPtr) : Prop :=
  ∃ q, firstOfHash lib burstGroups p = some q ∧
    (k = q ∨ cfg.trainParam.enableMergeIdentical = true ∧ Absorbs F k q)

/-- What `map` keeps of the bursts of a device; `rep` says which key stands for a burst. -/
structure Covers (lib : StdLib) (cfg : Config F) (burstGroups : List BurstBlock)
    (map : UnorderedMap BurstPtr ℕ) (rep : BurstPtr → Option BurstPtr) : Prop where
  self : ∀ k ∈ map, k ∈ pointers burstGroups ∧ rep k = some k
  stands : ∀ p ∈ pointers burstGroups, ∀ k, rep p = some k →
    k ∈ map ∧ StandsFor lib cfg burstGroups k p
  count : ∀ k n, map.lookup k = some n →
    n = (pointers burstGroups).countP fun p => rep p == some k
  leftOut : ∀ p ∈ pointers burstGroups, rep p = none →
    cfg.trainParam.enableMergeIdentical = true ∧ 1000 < map.keys.length ∧
      ∀ q ∈ pointers burstGroups, rep q ≠ none →
        toInt ((pointers burstGroups).countP (sameHash lib p)) ≤
          toInt ((pointers burstGroups).countP (sameHash lib q))

theorem covers_mergeStrictHash (burstGroups : List BurstBlock) :
    Covers lib cfg burstGroups (mergeStrictHash lib burstGroups) (firstOfHash lib burstGroups) where
  self := fun k hk => by
    refine ⟨mem_pointers_of_mem_mergeStrictHash hk, firstOfHash_eq_some.mpr ⟨hk, ?_⟩⟩
    exact beq_self_eq_true _
  stands := fun p hp k hk => by
    obtain ⟨hmem, -⟩ := (represents_mergeStrictHash lib burstGroups).stands p hp k hk
    exact ⟨hmem, k, hk, Or.inl rfl⟩
  count := fun k n hn => (represents_mergeStrictHash lib burstGroups).lookup hn
  leftOut := fun p hp hnone => by
    obtain ⟨k, hk⟩ := exists_firstOfHash lib hp
    rw [hnone] at hk
    cases hk

/-- The number of bursts with the hash of `p` is the count of the first of them. -/
theorem lookup_firstOfHash {burstGroups : List BurstBlock} {p k : BurstPtr}
    (h : firstOfHash lib burstGroups p = some k) :
    (mergeStrictHash lib burstGroups).lookup k =
      some ((pointers burstGroups).countP (sameHash lib p)) := by
  obtain ⟨hmem, hsame⟩ := firstOfHash_eq_some.mp h
  rw [lookup_mergeStrictHash, if_pos (mem_mergeStrictHash.mp hmem), sameHash_congr hsame]

theorem covers_mergeIdenticalKeys {burstGroups : List BurstBlock} {map : UnorderedMap BurstPtr ℕ}
    (hon : cfg.trainParam.enableMergeIdentical = true)
    (hrun : mergeIdenticalKeys F lib (mergeStrictHash lib burstGroups) = .ok map) :
    ∃ rep, Covers lib cfg burstGroups map rep := by
  obtain ⟨rep, hrep, hself, hleft⟩ := represents_mergeIdenticalKeys hrun
  have hboth := (represents_mergeStrictHash lib burstGroups).trans hrep
  refine ⟨fun p => (firstOfHash lib burstGroups p).bind rep, fun k hk => ?_, fun p hp k hk => ?_,
    fun k n hn => hboth.lookup hn, fun p hp hnone => ⟨hon, ?_⟩⟩
  · obtain ⟨hin, hk⟩ := hself k hk
    have hfirst : firstOfHash lib burstGroups k = some k :=
      firstOfHash_eq_some.mpr ⟨hin, beq_self_eq_true _⟩
    refine ⟨mem_pointers_of_mem_mergeStrictHash hin, ?_⟩
    rw [hfirst]
    exact hk
  · obtain ⟨q, hq⟩ := exists_firstOfHash lib hp
    have hrepq : rep q = some k := by
      rw [hq] at hk
      exact hk
    have hcounted : q ∈ (mergeStrictHash lib burstGroups).toMultiset := by
      rw [← Multiset.count_pos, UnorderedMap.count_toMultiset, lookup_firstOfHash hq]
      exact List.countP_pos_iff.mpr ⟨p, hp, beq_self_eq_true _⟩
    obtain ⟨hmem, habsorbs⟩ := hrep.stands q hcounted k hrepq
    exact ⟨hmem, q, hq, Or.inr ⟨hon, habsorbs⟩⟩
  · obtain ⟨b, hb⟩ := exists_firstOfHash lib hp
    rw [hb] at hnone
    obtain ⟨hfull, hrarest⟩ := hleft b _ (lookup_firstOfHash hb) hnone
    refine ⟨hfull, fun q hq hsome => ?_⟩
    obtain ⟨c, hc⟩ := exists_firstOfHash lib hq
    rw [hc] at hsome
    exact hrarest c _ (lookup_firstOfHash hc) hsome

/-- **What training keeps of a device's bursts**: each of them is given to a burst that stands for
it, and counted there; only when the map is full are the bursts of the rarest hashes left out. -/
theorem covers_trainMap {burstGroups : List BurstBlock} {map : UnorderedMap BurstPtr ℕ}
    (hrun : trainMap lib cfg burstGroups = .ok map) :
    ∃ rep, Covers lib cfg burstGroups map rep := by
  rw [trainMap] at hrun
  cases hmerge : cfg.trainParam.enableMergeIdentical with
  | false =>
    rw [hmerge] at hrun
    cases hrun
    exact ⟨_, covers_mergeStrictHash burstGroups⟩
  | true =>
    rw [hmerge] at hrun
    exact covers_mergeIdenticalKeys hmerge hrun

/-- **The counts that training keeps**, for a device of so few bursts that an `int` can count them:
the count of a kept burst is the number of those it stands for, and a hash that is left out is met
no more often than any that is not. -/
theorem trainMap_counts {burstGroups : List BurstBlock} {map : UnorderedMap BurstPtr ℕ}
    (hfew : burstGroups.flatten.length < 2 ^ 31) (hrun : trainMap lib cfg burstGroups = .ok map) :
    ∃ rep, Covers lib cfg burstGroups map rep ∧
      (∀ k n, map.lookup k = some n →
        toInt n = ((pointers burstGroups).countP fun p => rep p == some k : ℕ)) ∧
      ∀ p ∈ pointers burstGroups, rep p = none → ∀ q ∈ pointers burstGroups, rep q ≠ none →
        (pointers burstGroups).countP (sameHash lib p) ≤
          (pointers burstGroups).countP (sameHash lib q) := by
  obtain ⟨rep, hcovers⟩ := covers_trainMap hrun
  have hlen : (pointers burstGroups).length = burstGroups.flatten.length := by
    rw [← map_burst_pointers, List.length_map]
  have hfits : ∀ P : BurstPtr → Bool, toInt ((pointers burstGroups).countP P) =
      ((pointers burstGroups).countP P : ℕ) := fun P => by
    have hle : (pointers burstGroups).countP P ≤ (pointers burstGroups).length :=
      List.countP_le_length
    exact toInt_of_lt (by omega)
  refine ⟨rep, hcovers, fun k n hn => ?_, fun p hp hnone q hq hsome => ?_⟩
  · rw [hcovers.count k n hn, hfits]
  · have hrarest := (hcovers.leftOut p hp hnone).2.2 q hq hsome
    rw [hfits, hfits] at hrarest
    exact Int.ofNat_le.mp hrarest

/-- Two bursts of a lamp with the same packets, a longer one, and one of a plug between them. -/
theorem trainMap_counts_lampAndPlug :
    let lamp : Burst := ⟨1, 9, "lamp", .zero, .zero, [(100, 9)]⟩
    let long : Burst := ⟨1, 12, "lamp", .zero, .zero, [(100, 12)]⟩
    let plug : Burst := ⟨1, 7, "plug", .zero, .zero, [(200, 7)]⟩
    ∃ map rep, trainMap .insertion ({} : Config ℝ) [[lamp, plug], [lamp, long]] = .ok map ∧
      Covers .insertion ({} : Config ℝ) [[lamp, plug], [lamp, long]] map rep ∧
      ∀ k n, map.lookup k = some n → toInt n =
        ((pointers [[lamp, plug], [lamp, long]]).countP fun p => rep p == some k : ℕ) := by
  intro lamp long plug
  have hdist : ∀ b b' : BurstPtr, (b.burst.Counted ∧ b.burst.uniPktNum.toNat ≤ 101) →
      (b'.burst.Counted ∧ b'.burst.uniPktNum.toNat ≤ 101) →
      ∃ d : ℝ, b.burst.distance b'.burst = .ok d := fun b b' hb hb' =>
    Burst.distance_ok hb.1 hb'.1 hb'.2
  have hkeys : ∀ b ∈ mergeStrictHash .insertion [[lamp, plug], [lamp, long]],
      b.burst.Counted ∧ b.burst.uniPktNum.toNat ≤ 101 := by
    intro b hb
    obtain ⟨block, hblock, hb⟩ :=
      exists_block_of_mem_pointers (mem_pointers_of_mem_mergeStrictHash hb)
    have hbursts : b.burst ∈ [lamp, plug, lamp, long] :=
      List.mem_flatten.mpr ⟨block, hblock, hb⟩
    have hall : ∀ b ∈ [lamp, plug, lamp, long], b.Counted ∧ b.uniPktNum.toNat ≤ 101 := by
      intro b hb
      simp only [List.mem_cons, List.not_mem_nil, or_false] at hb
      rcases hb with rfl | rfl | rfl | rfl <;> exact ⟨⟨by decide, by decide⟩, by decide⟩
    exact hall _ hbursts
  obtain ⟨map, hmap⟩ : ∃ map,
      trainMap .insertion ({} : Config ℝ) [[lamp, plug], [lamp, long]] = .ok map := by
    obtain ⟨map, hmap, -⟩ := mergeIdenticalKeys_ok hdist hkeys
    exact ⟨map, hmap⟩
  obtain ⟨rep, hrep, hcounts, -⟩ := trainMap_counts (by decide) hmap
  exact ⟨map, rep, hmap, hrep, hcounts⟩

end Classifier
end BurstIoT
