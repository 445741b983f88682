import BurstIoT.DistanceSymmetry
import BurstIoT.MergeWeight

/-!
# Does merging leave mergeable bursts?

A large burst is inserted only if no burst of the map is ultra-similar to it, so the large bursts
that `MergeIdenticalKeys` keeps are at least 0.2 apart (`ultraSeparated_step`).  Of the bursts with
its signatures, however, only the first one that the traversal meets is compared with it, and there
may be several.  Two bursts with the same signatures that are less than 0.7 apart are both kept as
soon as another one with these signatures, which is farther away, comes first
(`not_noMergeablePair_camera`).

So no mergeable pair is left exactly when at each step the first burst found speaks for all large
bursts with its signatures (`FirstSpeaksForAll`, `noMergeablePair_iff`).
-/

namespace BurstIoT
namespace Merging

variable {lib : StdLib}

/-- What `Distance` is made for: a burst with a packet and at most 101 signatures. -/
structure Comparable (b : Burst) : Prop where
  wellFormed : b.WellFormed
  pktNum_pos : 1 ≤ b.pktNum
  room : b.uniPktNum.toNat ≤ 101

theorem Comparable.distance_comm {a b : Burst} (ha : Comparable a) (hb : Comparable b) :
    (a.distance b : Except Fault ℝ) = b.distance a :=
  Burst.distance_comm ha.wellFormed hb.wellFormed ha.room hb.room

/-- At least `bound` apart. -/
def Apart (bound : ℝ) (b b' : Burst) : Prop :=
  ∃ d : ℝ, b.distance b' = .ok d ∧ bound ≤ d

theorem Apart.symm {bound : ℝ} {b b' : Burst} (hb : Comparable b) (hb' : Comparable b')
    (h : Apart bound b b') : Apart bound b' b := by
  obtain ⟨d, hd, hle⟩ := h
  exact ⟨d, by rw [hb'.distance_comm hb, hd], hle⟩

/-- The same list of signatures. -/
theorem identicalKeys_iff {b burst : Burst} : identicalKeys b burst = true ↔
    b.packetDetail.map Prod.fst = burst.packetDetail.map Prod.fst := by
  rw [identicalKeys, Bool.and_eq_true, beq_iff_eq, List.all_eq_true]
  constructor
  · rintro ⟨hlength, hall⟩
    refine List.ext_getElem? fun i => ?_
    rw [List.getElem?_map, List.getElem?_map]
    by_cases hi : i < b.packetDetail.length
    · exact (eq_of_beq (hall i (List.mem_range.mpr hi))).symm
    · rw [List.getElem?_eq_none (by omega), List.getElem?_eq_none (by omega)]
  · intro h
    refine ⟨by simpa using congrArg List.length h, fun i _ => ?_⟩
    rw [beq_iff_eq, ← List.getElem?_map, ← List.getElem?_map, h]

/-! ## The bursts that are kept -/

/-- Any two different large bursts of the map are in a relation. -/
def LargePairs (R : Burst → Burst → Prop) (map : UnorderedMap BurstPtr ℕ) : Prop :=
  ∀ b ∈ map, ∀ b' ∈ map, b ≠ b' → Large b.burst → Large b'.burst → R b.burst b'.burst

/-- A burst that is inserted has to be compared with those of the map. -/
theorem LargePairs.emplace {R : Burst → Burst → Prop} {map : UnorderedMap BurstPtr ℕ}
    (h : LargePairs R map) {burst : BurstPtr} (num : ℕ)
    (hnew : Large burst.burst → ∀ b ∈ map, Large b.burst →
      R b.burst burst.burst ∧ R burst.burst b.burst) :
    LargePairs R (map.emplace burst num) := by
  intro b hb b' hb' hne hlarge hlarge'
  rcases UnorderedMap.mem_emplace.mp hb with heq | hold
  · rcases UnorderedMap.mem_emplace.mp hb' with heq' | hold'
    · exact absurd (heq.trans heq'.symm) hne
    · rw [heq] at hlarge ⊢
      exact (hnew hlarge b' hold' hlarge').2
  · rcases UnorderedMap.mem_emplace.mp hb' with heq' | hold'
    · rw [heq'] at hlarge' ⊢
      exact (hnew hlarge' b hold hlarge).1
    · exact h b hold b' hold' hne hlarge hlarge'

theorem LargePairs.update {R : Burst → Burst → Prop} {map : UnorderedMap BurstPtr ℕ}
    (h : LargePairs R map) {existing : BurstPtr} (hmem : existing ∈ map) (num : ℕ) :
    LargePairs R (map.update existing 0 (· + num)) := by
  have hkeys : ∀ b, b ∈ map.update existing 0 (· + num) → b ∈ map := by
    intro b hb
    rcases UnorderedMap.mem_update.mp hb with rfl | hb
    · exact hmem
    · exact hb
  exact fun b hb b' hb' => h b (hkeys b hb) b' (hkeys b' hb')

/-- At least 0.2 apart, and at least 0.7 if the signatures are the same. -/
structure Unmergeable (b b' : Burst) : Prop where
  ultra : Apart (1 / 5) b b'
  identical : b.packetDetail.map Prod.fst = b'.packetDetail.map Prod.fst → Apart (7 / 10) b b'

theorem Unmergeable.symm {b b' : Burst} (hb : Comparable b) (hb' : Comparable b')
    (h : Unmergeable b b') : Unmergeable b' b where
  ultra := h.ultra.symm hb hb'
  identical heq := (h.identical heq.symm).symm hb hb'

/-- **No two large bursts that are left could have been merged.** -/
def NoMergeablePair (map : UnorderedMap BurstPtr ℕ) : Prop :=
  LargePairs Unmergeable map

/-- The first burst found with the signatures of a large burst speaks for all large ones: where it
is too far to be merged with, so are they. -/
def FirstSpeaksForAll (lib : StdLib) (map : UnorderedMap BurstPtr ℕ) (burst : BurstPtr) : Prop :=
  Large burst.burst → findUltraSimilarBurst ℝ lib map burst = .ok none →
    ∀ first, findItenticalKeysInMap lib map burst = some first →
      Apart (7 / 10) first.burst burst.burst →
      ∀ b ∈ map, Large b.burst → identicalKeys b.burst burst.burst = true →
        Apart (7 / 10) b.burst burst.burst

theorem exists_findItenticalKeysInMap {map : UnorderedMap BurstPtr ℕ} {b burst : BurstPtr}
    (hb : b ∈ map) (h : identicalKeys b.burst burst.burst = true) :
    ∃ first, findItenticalKeysInMap lib map burst = some first := by
  obtain ⟨n, hn⟩ := lib.exists_mem_iterate hb
  have hfind : ((lib.iterate map).find? fun e => identicalKeys e.1.burst burst.burst).isSome := by
    rw [List.find?_isSome]
    exact ⟨(b, n), hn, h⟩
  obtain ⟨e, he⟩ := Option.isSome_iff_exists.mp hfind
  exact ⟨e.1, by rw [findItenticalKeysInMap, he]; rfl⟩

section Steps

variable {map map' : UnorderedMap BurstPtr ℕ} {burst : BurstPtr} {num : ℕ}

theorem Inserts.ultra (h : Inserts ℝ lib map burst) (hlarge : Large burst.burst) {b : BurstPtr}
    (hb : b ∈ map) : Apart (1 / 5) b.burst burst.burst := by
  obtain ⟨d, hd, hfar⟩ := far_of_findUltraSimilarBurst (h.not_similar hlarge) hb
  exact ⟨d, hd, not_lt.mp hfar⟩

/-- Where the first burst found speaks for all, a burst that is inserted is far from all. -/
theorem Inserts.unmergeable (h : Inserts ℝ lib map burst) (hfirst : FirstSpeaksForAll lib map burst)
    (hlarge : Large burst.burst) {b : BurstPtr} (hb : b ∈ map) (hblarge : Large b.burst) :
    Unmergeable b.burst burst.burst where
  ultra := h.ultra hlarge hb
  identical heq := by
    have hkeys := identicalKeys_iff.mpr heq
    obtain ⟨first, hfound⟩ : ∃ first, findItenticalKeysInMap lib map burst = some first :=
      exists_findItenticalKeysInMap hb hkeys
    obtain ⟨d, hd, hfar⟩ := h.not_identical hlarge first hfound
    exact hfirst hlarge (h.not_similar hlarge) first hfound ⟨d, hd, not_lt.mp hfar⟩ b hb hblarge
      hkeys

/-- **One iteration keeps large bursts 0.2 apart.** -/
theorem ultraSeparated_step (hmap : ∀ b ∈ map, Comparable b.burst) (hburst : Comparable burst.burst)
    (h : LargePairs (Apart (1 / 5)) map) (hmerge : mergeKey ℝ lib map burst num = .ok map') :
    LargePairs (Apart (1 / 5)) map' := by
  rcases mergeKey_cases hmerge with ⟨rfl, hinserts⟩ | ⟨existing, rfl, hadds⟩
  · refine h.emplace num fun hlarge b hb _ => ?_
    have hapart := hinserts.ultra hlarge hb
    exact ⟨hapart, hapart.symm (hmap b hb) hburst⟩
  · exact h.update hadds.mem num

/-- **One iteration leaves no mergeable pair** if the first burst found speaks for all. -/
theorem noMergeablePair_step (hmap : ∀ b ∈ map, Comparable b.burst)
    (hburst : Comparable burst.burst) (h : NoMergeablePair map)
    (hfirst : FirstSpeaksForAll lib map burst)
    (hmerge : mergeKey ℝ lib map burst num = .ok map') : NoMergeablePair map' := by
  rcases mergeKey_cases hmerge with ⟨rfl, hinserts⟩ | ⟨existing, rfl, hadds⟩
  · refine h.emplace num fun hlarge b hb hblarge => ?_
    have hpair := hinserts.unmergeable hfirst hlarge hb hblarge
    exact ⟨hpair, hpair.symm (hmap b hb) hburst⟩
  · exact h.update hadds.mem num

/-- Without an ultra-similar burst, and too far from the first one found, a burst is inserted. -/
theorem mem_of_mergeKey_of_far (hmerge : mergeKey ℝ lib map burst num = .ok map')
    (hsimilar : findUltraSimilarBurst ℝ lib map burst = .ok none) {first : BurstPtr}
    (hfound : findItenticalKeysInMap lib map burst = some first)
    (hfar : Apart (7 / 10) first.burst burst.burst) : burst ∈ map' := by
  rcases mergeKey_cases hmerge with ⟨rfl, -⟩ | ⟨existing, rfl, hadds⟩
  · exact UnorderedMap.mem_emplace.mpr (Or.inl rfl)
  · obtain ⟨d, hd, hnear | ⟨hexisting, hnear⟩⟩ := hadds.near
    · obtain ⟨d', hd', hfar'⟩ := far_of_findUltraSimilarBurst hsimilar hadds.mem
      cases hd.symm.trans hd'
      exact absurd hnear hfar'
    · cases hfound.symm.trans hexisting
      obtain ⟨d', hd', hle⟩ := hfar
      cases hd.symm.trans hd'
      exact absurd hnear (not_lt.mpr hle)

end Steps

/-! ## The whole loop -/

/-- Before each step of the loop, the first burst found speaks for all. -/
def FirstAlwaysSpeaksForAll (lib : StdLib) (input : UnorderedMap BurstPtr ℕ) : Prop :=
  ∀ done burst num rest map, byCount lib input = done ++ (burst, num) :: rest →
    mergeKeys ℝ lib done ∅ = .ok map → map.keys.length ≤ 1000 → FirstSpeaksForAll lib map burst

/-- The keys of the map are bursts that have been merged. -/
theorem mem_keys_of_mergeKeys {done : List (BurstPtr × ℕ)} {map : UnorderedMap BurstPtr ℕ}
    (h : mergeKeys ℝ lib done ∅ = .ok map) {b : BurstPtr} (hb : b ∈ map) :
    b ∈ done.map Prod.fst := by
  obtain ⟨processed, leftOut, hdone, hkeys, -⟩ := mergeKeys_inv
    (I := fun done map => ∀ b ∈ map, b ∈ done.map Prod.fst)
    (fun done e rest map map' _ _ _ hI hmerge b hb => by
      rw [List.map_append, List.mem_append, List.map_singleton, List.mem_singleton]
      rcases mergeKey_cases hmerge with ⟨rfl, -⟩ | ⟨existing, rfl, hadds⟩
      · rcases UnorderedMap.mem_emplace.mp hb with rfl | hb
        · exact Or.inr rfl
        · exact Or.inl (hI b hb)
      · rcases UnorderedMap.mem_update.mp hb with rfl | hb
        · exact Or.inl (hI b hadds.mem)
        · exact Or.inl (hI b hb))
    (fun b hb => absurd hb (AList.notMem_empty b)) h
  rw [hdone, List.map_append]
  exact List.mem_append_left _ (hkeys b hb)

/-- A pair that a step leaves is in the result. -/
theorem firstSpeaksForAll_of_noMergeablePair {input map' : UnorderedMap BurstPtr ℕ}
    (hrun : mergeIdenticalKeys ℝ lib input = .ok map') (h : NoMergeablePair map') :
    FirstAlwaysSpeaksForAll lib input := by
  intro done burst num rest map hl hdone hroom hlarge hsimilar first hfound hfar b hb hblarge hkeys
  have hrun : mergeKeys ℝ lib (byCount lib input) ∅ = .ok map' := hrun
  rw [hl, mergeKeys_append, hdone] at hrun
  have hrun : mergeKeys ℝ lib ((burst, num) :: rest) map = .ok map' := hrun
  rw [mergeKeys, if_neg (not_lt.mpr hroom)] at hrun
  obtain ⟨map₁, hmerge, hrest⟩ := CheckedLoop.bind_eq_ok.mp hrun
  have hburst : burst ∈ map' :=
    mem_of_mergeKeys hrest (mem_of_mergeKey_of_far hmerge hsimilar hfound hfar)
  have hb' : b ∈ map' := mem_of_mergeKeys hrest (mem_of_mergeKey hmerge hb)
  have hne : b ≠ burst := by
    rintro rfl
    exact UnorderedMap.fst_notMem_of_nodup (nodup_byCount_keys lib input) hl
      (mem_keys_of_mergeKeys hdone hb)
  exact (h b hb' burst hburst hne hblarge hlarge).identical (identicalKeys_iff.mp hkeys)

/-- **When `MergeIdenticalKeys` leaves no mergeable pair.**  The large bursts of the result are
always 0.2 apart. -/
theorem noMergeablePair_iff (lib : StdLib) {input : UnorderedMap BurstPtr ℕ}
    (hinput : ∀ b ∈ input, Comparable b.burst) :
    ∃ map, mergeIdenticalKeys ℝ lib input = .ok map ∧ LargePairs (Apart (1 / 5)) map ∧
      (NoMergeablePair map ↔ FirstAlwaysSpeaksForAll lib input) := by
  have hdist : ∀ b b' : BurstPtr, Comparable b.burst → Comparable b'.burst →
      ∃ d : ℝ, b.burst.distance b'.burst = .ok d := fun b b' hb hb' =>
    Burst.distance_ok hb.wellFormed.counted hb'.wellFormed.counted hb'.room
  obtain ⟨map, hrun, -⟩ : ∃ map, mergeIdenticalKeys ℝ lib input = .ok map ∧ _ :=
    mergeIdenticalKeys_ok hdist hinput
  have hall : ∀ e ∈ byCount lib input, Comparable e.1.burst := fun e he =>
    hinput _ (lib.mem_of_mem_iterate ((byCount_perm lib input).mem_iff.mp he))
  have hentry : ∀ {done e rest}, byCount lib input = done ++ e :: rest →
      Comparable e.1.burst ∧ ∀ {map : UnorderedMap BurstPtr ℕ},
        mergeKeys ℝ lib done ∅ = .ok map → ∀ b ∈ map, Comparable b.burst := by
    intro done e rest hl
    rw [hl] at hall
    refine ⟨hall e (List.mem_append_right _ List.mem_cons_self), fun hdone b hb => ?_⟩
    obtain ⟨e', he', rfl⟩ := List.mem_map.mp (mem_keys_of_mergeKeys hdone hb)
    exact hall e' (List.mem_append_left _ he')
  refine ⟨map, hrun, ?_, firstSpeaksForAll_of_noMergeablePair hrun, fun hfirst => ?_⟩
  · obtain ⟨-, -, -, hpairs, -⟩ := mergeKeys_inv (I := fun _ map => LargePairs (Apart (1 / 5)) map)
      (fun done e rest map map' hl hdone _ hI hmerge =>
        ultraSeparated_step ((hentry hl).2 hdone) (hentry hl).1 hI hmerge)
      (fun b hb => absurd hb (AList.notMem_empty b)) hrun
    exact hpairs
  · obtain ⟨-, -, -, hpairs, -⟩ := mergeKeys_inv (I := fun _ map => NoMergeablePair map)
      (fun done e rest map map' hl hdone hroom hI hmerge =>
        noMergeablePair_step ((hentry hl).2 hdone) (hentry hl).1 hI
          (hfirst done e.1 e.2 rest map hl hdone hroom) hmerge)
      (fun b hb => absurd hb (AList.notMem_empty b)) hrun
    exact hpairs

theorem comparable_sevenPtr : Comparable sevenPtr.burst :=
  ⟨wellFormed_sevenPtr, by decide, by decide⟩

theorem comparable_eightPtr : Comparable eightPtr.burst :=
  ⟨wellFormed_eightPtr, by decide, by decide⟩

/-- Seven packets and eight packets of one length, which become one entry. -/
theorem noMergeablePair_iff_pair :
    let input : UnorderedMap BurstPtr ℕ := AList.insert eightPtr 2 (AList.singleton sevenPtr 3)
    ∃ map, mergeIdenticalKeys ℝ .insertion input = .ok map ∧ map = AList.singleton sevenPtr 5 ∧
      LargePairs (Apart (1 / 5)) map ∧
      (NoMergeablePair map ↔ FirstAlwaysSpeaksForAll .insertion input) := by
  intro input
  have hcomparable : ∀ b ∈ input, Comparable b.burst := by
    intro b hb
    rcases (AList.mem_insert _).mp hb with rfl | hb
    · exact comparable_eightPtr
    · obtain rfl : b = sevenPtr := List.mem_singleton.mp hb
      exact comparable_sevenPtr
  have hmerged : mergeIdenticalKeys ℝ .insertion input = .ok (AList.singleton sevenPtr 5) :=
    mergeKeys_pair .insertion (by decide) (by decide) distance_sevenPtr_eightPtr.1 3 2
  obtain ⟨map, hrun, hpairs, hiff⟩ := noMergeablePair_iff .insertion hcomparable
  exact ⟨map, hrun, Except.ok.inj (hrun.symm.trans hmerged), hpairs, hiff⟩

/-! ## Three bursts of a camera -/

/-- 25 packets of two lengths, 9 and 16 of them. -/
def shortBurst : Burst := ⟨2, 25, "camera", .zero, .zero, [(100, 9), (200, 16)]⟩

/-- 146 packets of the two lengths. -/
def longBurst : Burst := ⟨2, 146, "camera", .zero, .zero, [(100, 73), (200, 73)]⟩

/-- 25 packets of the two lengths, 16 and 9 of them. -/
def mirrorBurst : Burst := ⟨2, 25, "camera", .zero, .zero, [(100, 16), (200, 9)]⟩

theorem comparable_shortBurst : Comparable shortBurst :=
  ⟨⟨by decide, by decide, by decide, by decide⟩, by decide, by decide⟩

theorem comparable_longBurst : Comparable longBurst :=
  ⟨⟨by decide, by decide, by decide, by decide⟩, by decide, by decide⟩

theorem comparable_mirrorBurst : Comparable mirrorBurst :=
  ⟨⟨by decide, by decide, by decide, by decide⟩, by decide, by decide⟩

open Burst Frequencies in
/-- The short bursts are between 0.2 and 0.7 apart. -/
theorem distance_shortBurst_mirrorBurst :
    shortBurst.distance mirrorBurst = .ok (Real.sqrt (2 / 25)) := by
  have hshort := comparable_shortBurst.wellFormed
  have hmirror := comparable_mirrorBurst.wellFormed
  have h3 : Real.sqrt (9 / 25) = 3 / 5 := by
    rw [show (9 / 25 : ℝ) = (3 / 5) ^ 2 by norm_num, Real.sqrt_sq (by norm_num)]
  have h4 : Real.sqrt (16 / 25) = 4 / 5 := by
    rw [show (16 / 25 : ℝ) = (4 / 5) ^ 2 by norm_num, Real.sqrt_sq (by norm_num)]
  have h₁ : freq shortBurst.sigs 100 = 9 / 25 := hshort.freq_eq (by decide)
  have h₂ : freq shortBurst.sigs 200 = 16 / 25 := hshort.freq_eq (by decide)
  have h₃ : freq mirrorBurst.sigs 100 = 16 / 25 := hmirror.freq_eq (by decide)
  have h₄ : freq mirrorBurst.sigs 200 = 9 / 25 := hmirror.freq_eq (by decide)
  have hsub : ∀ sig ∈ mirrorBurst.sigs, sig ∈ shortBurst.sigs := fun sig hsig =>
    hshort.mem_sigs.mpr (hmirror.mem_sigs.mp hsig)
  have hgap : gap shortBurst.sigs mirrorBurst.sigs = 2 / 25 := by
    rw [gap_eq_sum_entries hshort hsub]
    show (Real.sqrt (freq shortBurst.sigs 100) - Real.sqrt (freq mirrorBurst.sigs 100)) ^ 2 +
      ((Real.sqrt (freq shortBurst.sigs 200) - Real.sqrt (freq mirrorBurst.sigs 200)) ^ 2 + 0) = _
    rw [h₁, h₂, h₃, h₄, h3, h4]
    norm_num
  rw [distance_eq hshort hmirror comparable_mirrorBurst.room, if_neg (by decide), scaledGap, hgap]
  show Except.ok (Real.sqrt (2 / 25 * ((25 : ℕ) : ℝ) / ((25 : ℕ) : ℝ))) = _
  norm_num

def shortPtr : BurstPtr := ⟨0, shortBurst⟩

def longPtr : BurstPtr := ⟨1, longBurst⟩

def mirrorPtr : BurstPtr := ⟨2, mirrorBurst⟩

/-- The short burst was met three times, the long one twice, and the mirrored one once. -/
def cameraInput : UnorderedMap BurstPtr ℕ :=
  AList.insert shortPtr 3 (AList.insert longPtr 2 (AList.singleton mirrorPtr 1))

theorem comparable_cameraInput : ∀ b ∈ cameraInput, Comparable b.burst := by
  intro b hb
  rcases (AList.mem_insert _).mp hb with rfl | hb
  · exact comparable_shortBurst
  · rcases (AList.mem_insert _).mp hb with rfl | hb
    · exact comparable_longBurst
    · obtain rfl : b = mirrorPtr := List.mem_singleton.mp hb
      exact comparable_mirrorBurst

theorem byCount_cameraInput : byCount .insertion cameraInput =
    [(shortPtr, 3), (longPtr, 2)] ++ (mirrorPtr, 1) :: [] :=
  stableSort_of_pairwise (by decide)

/-- The long burst is inserted, being far from the short one. -/
theorem mergeKey_longPtr : mergeKey ℝ .insertion (AList.singleton shortPtr 3) longPtr 2 =
    .ok (AList.insert longPtr 2 (AList.singleton shortPtr 3)) := by
  have hfar : shortPtr.burst.distance longPtr.burst = .ok (1 : ℝ) :=
    Burst.distance_of_far (by decide)
  have hsimilar : findUltraSimilarBurst ℝ .insertion (AList.singleton shortPtr 3) longPtr =
      .ok none := by
    show findUltraSimilarFrom ℝ longPtr [(shortPtr, 3)] = _
    rw [findUltraSimilarFrom, hfar]
    show (if (1 : ℝ) < 1 / 5 then _ else _) = _
    rw [if_neg (by norm_num)]
    rfl
  have hidentical : findItenticalKeysInMap .insertion (AList.singleton shortPtr 3) longPtr =
      some shortPtr := by decide
  rw [mergeKey, if_pos (by decide), hsimilar, hidentical]
  dsimp only [bind, Except.bind]
  rw [hfar]
  dsimp only
  rw [if_neg (by norm_num)]
  rfl

theorem mergeKeys_shortPtr_longPtr :
    mergeKeys ℝ .insertion [(shortPtr, 3), (longPtr, 2)] ∅ =
      .ok (AList.insert longPtr 2 (AList.singleton shortPtr 3)) := by
  have hfirst : mergeKey ℝ .insertion ∅ shortPtr 3 = .ok (AList.singleton shortPtr 3) := by
    rw [mergeKey, if_pos (by decide)]
    rfl
  rw [mergeKeys, if_neg (by decide), hfirst]
  show mergeKeys ℝ .insertion [(longPtr, 2)] (AList.singleton shortPtr 3) = _
  rw [mergeKeys, if_neg (by decide), mergeKey_longPtr]
  rfl

/-- The mirrored burst is compared with the long one, which is found first, and kept beside the
short one. -/
theorem not_noMergeablePair_camera : (∀ b ∈ cameraInput, Comparable b.burst) ∧
    ∃ map, mergeIdenticalKeys ℝ .insertion cameraInput = .ok map ∧ ¬ NoMergeablePair map := by
  refine ⟨comparable_cameraInput, ?_⟩
  obtain ⟨map, hrun, -⟩ : ∃ map, mergeIdenticalKeys ℝ .insertion cameraInput = .ok map ∧ _ :=
    mergeIdenticalKeys_ok (P := fun b => Comparable b.burst) (fun b b' hb hb' =>
      Burst.distance_ok hb.wellFormed.counted hb'.wellFormed.counted hb'.room)
      comparable_cameraInput
  refine ⟨map, hrun, fun hpairs => ?_⟩
  have hlong : longPtr.burst.distance mirrorPtr.burst = .ok (1 : ℝ) :=
    Burst.distance_of_far (by decide)
  have hshort : shortPtr.burst.distance mirrorPtr.burst = .ok (Real.sqrt (2 / 25)) :=
    distance_shortBurst_mirrorBurst
  have hsimilar : findUltraSimilarBurst ℝ .insertion
      (AList.insert longPtr 2 (AList.singleton shortPtr 3)) mirrorPtr = .ok none := by
    show findUltraSimilarFrom ℝ mirrorPtr [(longPtr, 2), (shortPtr, 3)] = _
    have hfar : ¬ Real.sqrt (2 / 25) < 1 / 5 := by
      rw [not_lt, Real.le_sqrt' (by norm_num)]
      norm_num
    rw [findUltraSimilarFrom, hlong]
    show (if (1 : ℝ) < 1 / 5 then _ else _) = _
    rw [if_neg (by norm_num), findUltraSimilarFrom, hshort]
    show (if Real.sqrt (2 / 25) < 1 / 5 then _ else _) = _
    rw [if_neg hfar]
    rfl
  have hfirst := firstSpeaksForAll_of_noMergeablePair hrun hpairs _ mirrorPtr 1 [] _
    byCount_cameraInput mergeKeys_shortPtr_longPtr (by decide)
  obtain ⟨d, hd, hle⟩ := hfirst (by decide) hsimilar longPtr (by decide) ⟨1, hlong, by norm_num⟩
    shortPtr (by decide) (by decide) (by decide)
  cases hshort.symm.trans hd
  rw [Real.le_sqrt' (by norm_num)] at hle
  norm_num at hle

end Merging
end BurstIoT
