import BurstIoT.DistanceSymmetry
import BurstIoT.Merging

/-!
# Merging conserves weight

Each entry that `MergeIdenticalKeys` processes gives its count either to its own key or to a key of
the map, so no count is lost (`Weighed.step`).  The loop stops at more than 1000 keys; as the
entries are sorted by their counts, what it leaves out are the entries with the smallest counts
(`mergeIdenticalKeys_conserves_int`).

**Counts.**  The counts that come in are `int`s.  They are added without looking at them, so that a
count of the result, as the source has it, is `toInt` of what has been added.  A sum that does not
fit is lost (`not_conserves_often`); the weight of the `int`s is the weight that came in exactly if
there is none.
-/

namespace BurstIoT
namespace Merging

variable {F : Type} [Field F] [LinearOrder F] [Elementary F] {lib : StdLib}

/-! ## The order of the entries -/

/-- The comparison of `MergeIdenticalKeys`. -/
def moreOften (a b : BurstPtr × ℕ) : Bool :=
  decide (toInt b.2 < toInt a.2)

theorem strictWeak_moreOften : StrictWeak moreOften :=
  StrictWeak.of_key (fun e => OrderDual.toDual (toInt e.2)) fun _ _ => decide_eq_true_iff

/-- The entries in the order in which they are merged. -/
def byCount (lib : StdLib) (input : UnorderedMap BurstPtr ℕ) : List (BurstPtr × ℕ) :=
  stableSort moreOften (lib.iterate input)

theorem byCount_perm (lib : StdLib) (input : UnorderedMap BurstPtr ℕ) :
    (byCount lib input).Perm (lib.iterate input) :=
  stableSort_perm _ _

theorem nodup_byCount_keys (lib : StdLib) (input : UnorderedMap BurstPtr ℕ) :
    ((byCount lib input).map Prod.fst).Nodup :=
  ((byCount_perm lib input).map Prod.fst).nodup_iff.mpr (lib.nodup_iterate_keys input)

theorem mem_byCount {input : UnorderedMap BurstPtr ℕ} {b : BurstPtr} {n : ℕ} :
    (b, n) ∈ byCount lib input ↔ input.lookup b = some n := by
  rw [(byCount_perm lib input).mem_iff, lib.mem_iterate]

theorem sum_byCount (lib : StdLib) (input : UnorderedMap BurstPtr ℕ) :
    ((byCount lib input).map Prod.snd).sum = input.total := by
  rw [(((byCount_perm lib input).trans (lib.iterate_perm input)).map Prod.snd).sum_nat,
    List.map_map]
  rfl

/-- No entry is merged before one with a larger count. -/
theorem pairwise_byCount (lib : StdLib) (input : UnorderedMap BurstPtr ℕ) :
    (byCount lib input).Pairwise fun a b => toInt b.2 ≤ toInt a.2 :=
  (stableSort_pairwise strictWeak_moreOften _).imp fun h =>
    not_lt.mp (decide_eq_false_iff_not.mp h)

/-! ## What the map weighs -/

/-- What the map holds once the entries `done` have been merged: every key is one of theirs, with
at least its own count, and the counts add up. -/
structure Weighed (done : List (BurstPtr × ℕ)) (map : UnorderedMap BurstPtr ℕ) : Prop where
  count_le : ∀ b n', map.lookup b = some n' → ∃ n, (b, n) ∈ done ∧ n ≤ n'
  total : map.total = (done.map Prod.snd).sum

theorem weighed_empty : Weighed [] ∅ where
  count_le b n' h := by cases h
  total := rfl

theorem Weighed.mem_keys {done : List (BurstPtr × ℕ)} {map : UnorderedMap BurstPtr ℕ}
    (h : Weighed done map) {b : BurstPtr} (hb : b ∈ map) : b ∈ done.map Prod.fst := by
  obtain ⟨n', hn'⟩ := UnorderedMap.exists_lookup hb
  obtain ⟨n, hn, -⟩ := h.count_le b n' hn'
  exact List.mem_map_of_mem hn

/-- A key of the map that receives a count. -/
theorem Weighed.update {done : List (BurstPtr × ℕ)} {map : UnorderedMap BurstPtr ℕ}
    (h : Weighed done map) (e : BurstPtr × ℕ) {existing : BurstPtr} (hmem : existing ∈ map) :
    Weighed (done ++ [e]) (map.update existing 0 (· + e.2)) where
  count_le b n' hn' := by
    by_cases hb : b = existing
    · subst hb
      obtain ⟨m', hm'⟩ := UnorderedMap.exists_lookup hmem
      rw [UnorderedMap.lookup_update_self, hm'] at hn'
      obtain ⟨n, hn, hle⟩ := h.count_le b m' hm'
      refine ⟨n, List.mem_append_left _ hn, ?_⟩
      rw [← Option.some_inj.mp hn']
      exact hle.trans (Nat.le_add_right _ _)
    · rw [UnorderedMap.lookup_update_ne _ hb] at hn'
      obtain ⟨n, hn, hle⟩ := h.count_le b n' hn'
      exact ⟨n, List.mem_append_left _ hn, hle⟩
  total := by
    rw [UnorderedMap.total_update, h.total, List.map_append, List.sum_append, List.map_singleton,
      List.sum_singleton]

/-- A key that is inserted. -/
theorem Weighed.emplace {done : List (BurstPtr × ℕ)} {map : UnorderedMap BurstPtr ℕ}
    (h : Weighed done map) {e : BurstPtr × ℕ} (hnew : e.1 ∉ map) :
    Weighed (done ++ [e]) (map.emplace e.1 e.2) where
  count_le b n' hn' := by
    rw [UnorderedMap.lookup_emplace] at hn'
    split_ifs at hn' with hb
    · rw [AList.lookup_eq_none.mpr hnew] at hn'
      refine ⟨e.2, List.mem_append_right _ ?_, (Option.some_inj.mp hn').le⟩
      rw [hb]
      exact List.mem_singleton_self e
    · obtain ⟨n, hn, hle⟩ := h.count_le b n' hn'
      exact ⟨n, List.mem_append_left _ hn, hle⟩
  total := by
    rw [UnorderedMap.total_emplace hnew, h.total, List.map_append, List.sum_append,
      List.map_singleton, List.sum_singleton]

/-- **One iteration conserves weight.** -/
theorem Weighed.step {done : List (BurstPtr × ℕ)} {map map' : UnorderedMap BurstPtr ℕ}
    (h : Weighed done map) {e : BurstPtr × ℕ} (hnew : e.1 ∉ done.map Prod.fst)
    (hmerge : mergeKey F lib map e.1 e.2 = .ok map') : Weighed (done ++ [e]) map' := by
  rcases mergeKey_cases hmerge with ⟨rfl, -⟩ | ⟨existing, rfl, hadds⟩
  · exact h.emplace fun hmem => hnew (h.mem_keys hmem)
  · exact h.update e hadds.mem

/-- One iteration creates one key at most. -/
theorem length_keys_mergeKey_le {map map' : UnorderedMap BurstPtr ℕ} {burst : BurstPtr} {num : ℕ}
    (h : mergeKey F lib map burst num = .ok map') : map'.keys.length ≤ map.keys.length + 1 := by
  rcases mergeKey_cases h with ⟨rfl, -⟩ | ⟨existing, rfl, -⟩
  · exact UnorderedMap.length_keys_emplace_le map burst num
  · exact UnorderedMap.length_keys_update_le map existing 0 (· + num)

/-! ## The whole loop -/

/-- All counts together, as the source has them. -/
def intTotal (map : UnorderedMap BurstPtr ℕ) : ℤ :=
  (map.entries.map fun e => toInt e.2).sum

/-- **The `int`s add up to the weight** exactly if each of them fits. -/
theorem intTotal_eq_iff (map : UnorderedMap BurstPtr ℕ) :
    intTotal map = map.total ↔ ∀ b n, map.lookup b = some n → n < 2 ^ 31 := by
  have hread : intTotal map = ((map.entries.map fun e => e.2).map toInt).sum := by
    rw [intTotal, List.map_map]
    rfl
  rw [hread, UnorderedMap.total, sum_toInt_eq_iff]
  constructor
  · intro h b n hn
    exact h n (List.mem_map_of_mem (AList.mem_lookup_iff.mp hn))
  · intro h n hn
    obtain ⟨⟨b, m⟩, he, rfl⟩ := List.mem_map.mp hn
    exact h b m (AList.mem_lookup_iff.mpr he)

/-- `map` is what merging the entries `processed` of `input`, one after the other, leaves; the
other entries are left out.  Weight is conserved, by the `int`s if they fit, and only the lightest
entries are left out, when the map is full. -/
structure Conserves (F : Type) [Field F] [LinearOrder F] [Elementary F] (lib : StdLib)
    (input map : UnorderedMap BurstPtr ℕ) (processed leftOut : List (BurstPtr × ℕ)) : Prop where
  run : processed.foldlM (fun map e => mergeKey F lib map e.1 e.2) ∅ = .ok map
  entries : (processed ++ leftOut).Perm (lib.iterate input)
  keys_le : map.keys.length ≤ 1001
  count_le : ∀ b n', map.lookup b = some n' → ∃ n, input.lookup b = some n ∧ n ≤ n' ∧
    (n' < 2 ^ 31 → n ≤ toInt n')
  total : map.total + (leftOut.map Prod.snd).sum = input.total
  intTotal_iff : intTotal map + ((leftOut.map Prod.snd).sum : ℕ) = input.total ↔
    ∀ b n', map.lookup b = some n' → n' < 2 ^ 31
  full : leftOut ≠ [] → 1000 < map.keys.length
  lightest : ∀ e ∈ leftOut, ∀ f ∈ processed, toInt e.2 ≤ toInt f.2

/-- **`MergeIdenticalKeys` conserves weight.** -/
theorem mergeIdenticalKeys_conserves_int (lib : StdLib) (input : UnorderedMap BurstPtr ℕ) :
    ((∀ b ∈ input, b.burst.Counted ∧ b.burst.uniPktNum.toNat ≤ 101) →
      ∃ map, mergeIdenticalKeys F lib input = .ok map) ∧
    ∀ map, mergeIdenticalKeys F lib input = .ok map →
      ∃ processed leftOut, Conserves F lib input map processed leftOut := by
  constructor
  · intro hinput
    have hdist : ∀ b b' : BurstPtr, (b.burst.Counted ∧ b.burst.uniPktNum.toNat ≤ 101) →
        (b'.burst.Counted ∧ b'.burst.uniPktNum.toNat ≤ 101) →
        ∃ d : F, b.burst.distance b'.burst = .ok d := fun b b' hb hb' =>
      Burst.distance_ok hb.1 hb'.1 hb'.2
    obtain ⟨map, hok, -⟩ : ∃ map, mergeIdenticalKeys F lib input = .ok map ∧ _ :=
      mergeIdenticalKeys_ok hdist hinput
    exact ⟨map, hok⟩
  · intro map hrun
    let I : List (BurstPtr × ℕ) → UnorderedMap BurstPtr ℕ → Prop := fun done map =>
      done.foldlM (fun map e => mergeKey F lib map e.1 e.2) ∅ = .ok map ∧
        map.keys.length ≤ 1001 ∧ Weighed done map
    obtain ⟨processed, leftOut, hl, ⟨hmerged, hkeys, hweighed⟩, hfull⟩ := mergeKeys_inv (I := I)
      (fun done e rest map map' hl _ hroom hI hmerge => by
        obtain ⟨hdone, -, hweighed⟩ := hI
        have hnew : e.1 ∉ done.map Prod.fst :=
          UnorderedMap.fst_notMem_of_nodup (nodup_byCount_keys lib input) hl
        refine ⟨?_, (length_keys_mergeKey_le hmerge).trans (by omega), hweighed.step hnew hmerge⟩
        rw [List.foldlM_append, hdone]
        show [e].foldlM (fun map e => mergeKey F lib map e.1 e.2) map = _
        rw [List.foldlM_cons, hmerge]
        rfl)
      ⟨rfl, Nat.zero_le _, weighed_empty⟩ hrun
    have hl : byCount lib input = processed ++ leftOut := hl
    have htotal : map.total + (leftOut.map Prod.snd).sum = input.total := by
      rw [← sum_byCount lib input, hl, List.map_append, List.sum_append, hweighed.total]
    refine ⟨processed, leftOut, hmerged, hl ▸ byCount_perm lib input, hkeys, ?_, htotal, ?_, hfull,
      ?_⟩
    · intro b n' hn'
      obtain ⟨n, hn, hle⟩ := hweighed.count_le b n' hn'
      have hmem : (b, n) ∈ byCount lib input := hl ▸ List.mem_append_left leftOut hn
      refine ⟨n, mem_byCount.mp hmem, hle, fun hfits => ?_⟩
      rw [toInt_of_lt hfits]
      exact Int.ofNat_le.mpr hle
    · rw [← intTotal_eq_iff, ← htotal, Nat.cast_add, add_left_inj]
    · intro e he f hf
      have hpairwise := pairwise_byCount lib input
      rw [hl, List.pairwise_append] at hpairwise
      exact hpairwise.2.2 f hf e he

/-! ## Two bursts that look alike -/

/-- Seven packets of one length. -/
def sevenPtr : BurstPtr := ⟨0, ⟨1, 7, "lamp", .zero, .zero, [(100, 7)]⟩⟩

/-- Eight packets of the same length. -/
def eightPtr : BurstPtr := ⟨1, ⟨1, 8, "lamp", .zero, .zero, [(100, 8)]⟩⟩

theorem wellFormed_sevenPtr : sevenPtr.burst.WellFormed :=
  ⟨by decide, by decide, by decide, by decide⟩

theorem wellFormed_eightPtr : eightPtr.burst.WellFormed :=
  ⟨by decide, by decide, by decide, by decide⟩

/-- Seven packets look like eight. -/
theorem distance_sevenPtr_eightPtr :
    sevenPtr.burst.distance eightPtr.burst = .ok (0 : ℝ) ∧
      eightPtr.burst.distance sevenPtr.burst = .ok (0 : ℝ) := by
  have hzero : sevenPtr.burst.distance eightPtr.burst = .ok (0 : ℝ) := by
    rw [Burst.distance_eq wellFormed_sevenPtr wellFormed_eightPtr (by decide),
      if_neg (by decide), (Burst.scaledGap_eq_zero_iff wellFormed_sevenPtr wellFormed_eightPtr
        (by decide) (by decide)).mpr ⟨fun sig => by simp [sevenPtr, eightPtr], ?_⟩, Real.sqrt_zero]
    intro sig m n hm hn
    cases List.mem_singleton.mp hm
    cases List.mem_singleton.mp hn
    rfl
  refine ⟨hzero, ?_⟩
  rw [Burst.distance_comm wellFormed_eightPtr wellFormed_sevenPtr (by decide) (by decide), hzero]

/-- The first of two bursts that look alike takes the count of the second one. -/
theorem mergeKeys_pair (lib : StdLib) {b b' : BurstPtr} (hlarge : Large b.burst)
    (hlarge' : Large b'.burst) (hdist : b.burst.distance b'.burst = .ok (0 : ℝ)) (n n' : ℕ) :
    mergeKeys ℝ lib [(b, n), (b', n')] ∅ = .ok (AList.singleton b (n + n')) := by
  have hfirst : mergeKey ℝ lib ∅ b n = .ok (AList.singleton b n) := by
    rw [mergeKey, findUltraSimilarBurst, findItenticalKeysInMap, lib.iterate_empty]
    exact if_pos hlarge
  have hsecond : mergeKey ℝ lib (AList.singleton b n) b' n' =
      .ok (AList.singleton b (n + n')) := by
    have hsimilar : findUltraSimilarBurst ℝ lib (AList.singleton b n) b' = .ok (some b) := by
      rw [findUltraSimilarBurst, lib.iterate_singleton, findUltraSimilarFrom, hdist]
      exact if_pos (by norm_num)
    have hlook : (AList.singleton b n : UnorderedMap BurstPtr ℕ).lookup b = some n :=
      lib.mem_iterate.mp (by rw [lib.iterate_singleton]; exact List.mem_singleton_self _)
    have hmerged : UnorderedMap.update (AList.singleton b n) b 0 (· + n') =
        AList.singleton b (n + n') := by
      rw [UnorderedMap.update, hlook]
      exact AList.insert_singleton_eq
    rw [mergeKey, hsimilar, ← hmerged]
    refine (if_pos hlarge').trans ?_
    cases findItenticalKeysInMap lib (AList.singleton b n) b' <;> rfl
  rw [mergeKeys, if_neg (by decide), hfirst]
  show mergeKeys ℝ lib [(b', n')] (AList.singleton b n) = _
  rw [mergeKeys, if_neg (by show ¬ 1 > 1000; decide), hsecond]
  rfl

/-- Seven packets met three times and eight packets met twice are merged into one entry. -/
theorem mergeIdenticalKeys_conserves_int_pair :
    let input : UnorderedMap BurstPtr ℕ := AList.insert eightPtr 2 (AList.singleton sevenPtr 3)
    mergeIdenticalKeys ℝ .insertion input = .ok (AList.singleton sevenPtr 5) ∧
      ∃ processed leftOut,
        Conserves ℝ .insertion input (AList.singleton sevenPtr 5) processed leftOut := by
  intro input
  have hrun : mergeIdenticalKeys ℝ .insertion input = .ok (AList.singleton sevenPtr 5) :=
    mergeKeys_pair .insertion (by decide) (by decide) distance_sevenPtr_eightPtr.1 3 2
  exact ⟨hrun, (mergeIdenticalKeys_conserves_int .insertion input).2 _ hrun⟩

/-- **Seven packets met as often as an `int` can count**, and eight packets once more. -/
theorem not_conserves_often :
    let input : UnorderedMap BurstPtr ℕ :=
      AList.insert eightPtr 1 (AList.singleton sevenPtr 2147483647)
    ∃ map, mergeIdenticalKeys ℝ .insertion input = .ok map ∧
      map.lookup sevenPtr = some 2147483648 ∧ toInt 2147483648 = -2147483648 ∧
        intTotal map = -2147483648 ∧ input.total = 2147483648 := by
  intro input
  have hrun : mergeIdenticalKeys ℝ .insertion input = .ok (AList.singleton sevenPtr 2147483648) :=
    mergeKeys_pair .insertion (by decide) (by decide) distance_sevenPtr_eightPtr.1 2147483647 1
  exact ⟨_, hrun, List.dlookup_cons_eq [] _ _, by decide, by decide, by decide⟩

end Merging
end BurstIoT
