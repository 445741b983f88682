import BurstIoT.Converter
import BurstIoT.Distance

/-!
# Merging the training bursts of a device

`MergeStrictHash` keeps one burst for each hash value and counts how many bursts share it.
`MergeIdenticalKeys` goes over these from the most frequent one on, and adds the count of a larger
burst to a burst it has kept, if one is near enough.  Both maps are keyed by the pointers of the
bursts, so the order in which they are traversed says nothing; a pointer is a burst with an address.

Merging only drops bursts (`mem_pointers_of_mem_mergeStrictHash`, `mergeIdenticalKeys_ok`), and does
not fail on bursts with at most 101 signatures, for which `Distance` has room (`Burst.distance_ok`).
One iteration either inserts its burst or adds its count to a burst of the map (`mergeKey_cases`);
`mergeKeys_inv` is the rule for the loop.

The counts are counted like those of a burst; `MergeIdenticalKeys` compares the `int`s.
-/

namespace BurstIoT

/-- A `std::shared_ptr<Burst>`. -/
structure BurstPtr where
  addr : ℕ
  burst : Burst
  deriving DecidableEq, Repr

namespace Merging

/-- The pointers of the bursts of some blocks. -/
def pointers (burstGroups : List BurstBlock) : List BurstPtr :=
  burstGroups.flatten.zipIdx.map fun e => { addr := e.2, burst := e.1 }

/-! ## `MergeStrictHash` -/

/-- The variables of `MergeStrictHash`; a null pointer in `hashMap` is no entry. -/
structure StrictHash where
  trainMap : UnorderedMap BurstPtr ℕ := ∅
  hashMap : UnorderedMap UInt64 BurstPtr := ∅

/-- One iteration of the loop of `MergeStrictHash`. -/
def strictHashStep (lib : StdLib) (s : StrictHash) (burst : BurstPtr) : StrictHash :=
  let hash := burst.burst.hash lib
  match s.hashMap.lookup hash with
  | none =>
    { trainMap := s.trainMap.emplace burst 1, hashMap := AList.insert hash burst s.hashMap }
  | some existingBurst =>
    { s with trainMap := s.trainMap.update existingBurst 0 (· + 1) }

/-- `MergeStrictHash`. -/
def mergeStrictHash (lib : StdLib) (burstGroups : List BurstBlock) : UnorderedMap BurstPtr ℕ :=
  ((pointers burstGroups).foldl (strictHashStep lib) {}).trainMap

/-! ## `MergeIdenticalKeys` -/

/-- The comparison in `FindItenticalKeysInMap`: as many entries, with the same signatures one by
one. -/
def identicalKeys (b burst : Burst) : Bool :=
  b.packetDetail.length == burst.packetDetail.length &&
    (List.range b.packetDetail.length).all fun i =>
      burst.packetDetail[i]?.map Prod.fst == b.packetDetail[i]?.map Prod.fst

/-- `FindItenticalKeysInMap`. -/
def findItenticalKeysInMap (lib : StdLib) (map : UnorderedMap BurstPtr ℕ) (burst : BurstPtr) :
    Option BurstPtr :=
  ((lib.iterate map).find? fun e => identicalKeys e.1.burst burst.burst).map Prod.fst

variable (F : Type) [Field F] [LinearOrder F] [Elementary F]

/-- The loop of `FindUltraSimilarBurst`. -/
def findUltraSimilarFrom (burst : BurstPtr) : List (BurstPtr × ℕ) → Except Fault (Option BurstPtr)
  | [] => .ok none
  | (b, _) :: rest => do
    let distance : F ← b.burst.distance burst.burst
    if distance < 1 / 5 then return some b
    else findUltraSimilarFrom burst rest

/-- `FindUltraSimilarBurst`. -/
def findUltraSimilarBurst (lib : StdLib) (map : UnorderedMap BurstPtr ℕ) (burst : BurstPtr) :
    Except Fault (Option BurstPtr) :=
  findUltraSimilarFrom F burst (lib.iterate map)

/-- One iteration of `MergeIdenticalKeys`. -/
def mergeKey (lib : StdLib) (map : UnorderedMap BurstPtr ℕ) (burst : BurstPtr) (num : ℕ) :
    Except Fault (UnorderedMap BurstPtr ℕ) :=
  if burst.burst.uniPktNum > 10 ∨ burst.burst.pktNum > 6 then do
    let bIdentical := findItenticalKeysInMap lib map burst
    let bUSimilar ← findUltraSimilarBurst F lib map burst
    match bIdentical, bUSimilar with
    | none, none => return map.emplace burst num
    | _, some similar => return map.update similar 0 (· + num)
    | some identical, none =>
      let distance : F ← identical.burst.distance burst.burst
      if distance < 7 / 10 then return map.update identical 0 (· + num)
      else return map.emplace burst num
  else .ok (map.emplace burst num)

/-- The loop of `MergeIdenticalKeys`, which stops at more than 1000 keys. -/
def mergeKeys (lib : StdLib) :
    List (BurstPtr × ℕ) → UnorderedMap BurstPtr ℕ → Except Fault (UnorderedMap BurstPtr ℕ)
  | [], map => .ok map
  | (burst, num) :: rest, map =>
    if map.keys.length > 1000 then .ok map
    else do
      let map ← mergeKey F lib map burst num
      mergeKeys lib rest map

/-- `MergeIdenticalKeys`. -/
def mergeIdenticalKeys (lib : StdLib) (map : UnorderedMap BurstPtr ℕ) :
    Except Fault (UnorderedMap BurstPtr ℕ) :=
  mergeKeys F lib (stableSort (fun a b => decide (toInt b.2 < toInt a.2)) (lib.iterate map)) ∅

/-! ## What merging keeps -/

variable {F}

theorem exists_block_of_mem_pointers {burstGroups : List BurstBlock} {p : BurstPtr}
    (h : p ∈ pointers burstGroups) : ∃ block ∈ burstGroups, p.burst ∈ block := by
  obtain ⟨e, he, rfl⟩ := List.mem_map.mp h
  exact List.mem_flatten.mp (List.fst_mem_of_mem_zipIdx he)

/-- Every pointer in the variables of `MergeStrictHash` has a property. -/
structure StrictHash.All (P : BurstPtr → Prop) (s : StrictHash) : Prop where
  trainMap : ∀ b ∈ s.trainMap, P b
  hashMap : ∀ hash b, s.hashMap.lookup hash = some b → P b

theorem StrictHash.All.step {lib : StdLib} {P : BurstPtr → Prop} {s : StrictHash} (h : s.All P)
    {burst : BurstPtr} (hburst : P burst) : (strictHashStep lib s burst).All P := by
  rw [strictHashStep]
  cases hlook : s.hashMap.lookup (burst.burst.hash lib) with
  | none =>
    refine ⟨fun b hb => ?_, fun hash b hb => ?_⟩
    · rcases UnorderedMap.mem_emplace.mp hb with rfl | hb
      · exact hburst
      · exact h.trainMap b hb
    · by_cases heq : hash = burst.burst.hash lib
      · rw [heq, AList.lookup_insert] at hb
        cases hb
        exact hburst
      · rw [AList.lookup_insert_ne heq] at hb
        exact h.hashMap hash b hb
  | some existingBurst =>
    refine ⟨fun b hb => ?_, h.hashMap⟩
    rcases UnorderedMap.mem_update.mp hb with rfl | hb
    · exact h.hashMap _ _ hlook
    · exact h.trainMap b hb

/-- **`MergeStrictHash` keeps bursts of the blocks.** -/
theorem mem_pointers_of_mem_mergeStrictHash {lib : StdLib} {burstGroups : List BurstBlock}
    {b : BurstPtr} (h : b ∈ mergeStrictHash lib burstGroups) : b ∈ pointers burstGroups := by
  let P : BurstPtr → Prop := fun b => b ∈ pointers burstGroups
  have hall : ∀ (l : List BurstPtr) (s : StrictHash), (∀ b ∈ l, P b) → s.All P →
      (l.foldl (strictHashStep lib) s).All P := by
    intro l
    induction l with
    | nil => exact fun _ _ hs => hs
    | cons b l ih =>
      intro s hl hs
      exact ih _ (fun b' hb' => hl b' (List.mem_cons_of_mem b hb'))
        (hs.step (hl b List.mem_cons_self))
  have hstart : ({} : StrictHash).All P :=
    ⟨fun b hb => absurd hb (AList.notMem_empty b), fun _ _ hlook => by cases hlook⟩
  exact (hall _ _ (fun _ hb => hb) hstart).trainMap b h

section MergeIdentical

variable {lib : StdLib} {P : BurstPtr → Prop}

theorem findItenticalKeysInMap_all {map : UnorderedMap BurstPtr ℕ} (hmap : ∀ b ∈ map, P b)
    {burst b : BurstPtr} (h : findItenticalKeysInMap lib map burst = some b) : P b := by
  obtain ⟨e, he, rfl⟩ := Option.map_eq_some_iff.mp h
  exact hmap _ (lib.mem_of_mem_iterate (List.mem_of_find?_eq_some he))

theorem findUltraSimilarFrom_ok {burst : BurstPtr}
    (hdist : ∀ b, P b → ∃ d : F, b.burst.distance burst.burst = .ok d)
    {l : List (BurstPtr × ℕ)} (hl : ∀ e ∈ l, P e.1) :
    ∃ found, findUltraSimilarFrom F burst l = .ok found ∧ ∀ b, found = some b → P b := by
  induction l with
  | nil => exact ⟨none, rfl, fun b hb => by cases hb⟩
  | cons e rest ih =>
    obtain ⟨b, num⟩ := e
    have hb : P b := hl _ List.mem_cons_self
    obtain ⟨d, hd⟩ := hdist b hb
    rw [findUltraSimilarFrom, hd]
    dsimp only [bind, Except.bind]
    split_ifs
    · refine ⟨some b, rfl, fun b' hb' => ?_⟩
      cases hb'
      exact hb
    · exact ih fun e he => hl e (List.mem_cons_of_mem _ he)

/-- One iteration of `MergeIdenticalKeys` adds no key but that of its burst. -/
theorem mergeKey_ok (hdist : ∀ b b', P b → P b' → ∃ d : F, b.burst.distance b'.burst = .ok d)
    {map : UnorderedMap BurstPtr ℕ} (hmap : ∀ b ∈ map, P b) {burst : BurstPtr} (hburst : P burst)
    (num : ℕ) : ∃ map', mergeKey F lib map burst num = .ok map' ∧ ∀ b ∈ map', P b := by
  have hemplace : ∀ b ∈ map.emplace burst num, P b := by
    intro b hb
    rcases UnorderedMap.mem_emplace.mp hb with rfl | hb
    · exact hburst
    · exact hmap b hb
  have hupdate : ∀ existing, P existing → ∀ b ∈ map.update existing 0 (· + num), P b := by
    intro existing hexisting b hb
    rcases UnorderedMap.mem_update.mp hb with rfl | hb
    · exact hexisting
    · exact hmap b hb
  rw [mergeKey]
  split_ifs
  · obtain ⟨found, hfound, hsimilar⟩ := findUltraSimilarFrom_ok
      (fun b hb => hdist b burst hb hburst)
      (fun e (he : e ∈ lib.iterate map) => hmap _ (lib.mem_of_mem_iterate he))
    rw [findUltraSimilarBurst, hfound]
    dsimp only [bind, Except.bind]
    cases found with
    | some similar =>
      have hok := hupdate similar (hsimilar similar rfl)
      cases findItenticalKeysInMap lib map burst <;> exact ⟨_, rfl, hok⟩
    | none =>
      cases hidentical : findItenticalKeysInMap lib map burst with
      | none => exact ⟨_, rfl, hemplace⟩
      | some identical =>
        have hP := findItenticalKeysInMap_all hmap hidentical
        obtain ⟨d, hd⟩ := hdist identical burst hP hburst
        dsimp only
        rw [hd]
        dsimp only
        split_ifs
        · exact ⟨_, rfl, hupdate identical hP⟩
        · exact ⟨_, rfl, hemplace⟩
  · exact ⟨_, rfl, hemplace⟩

theorem mergeKeys_ok (hdist : ∀ b b', P b → P b' → ∃ d : F, b.burst.distance b'.burst = .ok d)
    {l : List (BurstPtr × ℕ)} {map : UnorderedMap BurstPtr ℕ} (hl : ∀ e ∈ l, P e.1)
    (hmap : ∀ b ∈ map, P b) : ∃ map', mergeKeys F lib l map = .ok map' ∧ ∀ b ∈ map', P b := by
  induction l generalizing map with
  | nil => exact ⟨map, rfl, hmap⟩
  | cons e rest ih =>
    obtain ⟨burst, num⟩ := e
    rw [mergeKeys]
    split_ifs
    · exact ⟨map, rfl, hmap⟩
    · obtain ⟨map', hok, hmap'⟩ :
          ∃ map', mergeKey F lib map burst num = .ok map' ∧ ∀ b ∈ map', P b :=
        mergeKey_ok hdist hmap (hl _ List.mem_cons_self) num
      rw [hok]
      exact ih (fun e he => hl e (List.mem_cons_of_mem _ he)) hmap'

/-- **`MergeIdenticalKeys` keeps bursts of its input**, and fails only if a distance does. -/
theorem mergeIdenticalKeys_ok
    (hdist : ∀ b b', P b → P b' → ∃ d : F, b.burst.distance b'.burst = .ok d)
    {map : UnorderedMap BurstPtr ℕ} (hmap : ∀ b ∈ map, P b) :
    ∃ map', mergeIdenticalKeys F lib map = .ok map' ∧ ∀ b ∈ map', P b := by
  refine mergeKeys_ok hdist (fun e he => ?_) fun b hb => absurd hb (AList.notMem_empty b)
  rw [mem_stableSort] at he
  exact hmap _ (lib.mem_of_mem_iterate he)

end MergeIdentical

/-! ## What one iteration has done -/

/-- The bursts that may be merged. -/
def Large (b : Burst) : Prop :=
  b.uniPktNum > 10 ∨ b.pktNum > 6

instance (b : Burst) : Decidable (Large b) :=
  inferInstanceAs (Decidable (_ ∨ _))

section Moves

variable {lib : StdLib} {map map' : UnorderedMap BurstPtr ℕ} {burst : BurstPtr} {num : ℕ}

theorem mem_of_findItenticalKeysInMap {identical : BurstPtr}
    (h : findItenticalKeysInMap lib map burst = some identical) : identical ∈ map :=
  findItenticalKeysInMap_all (P := fun b => b ∈ map) (fun _ hb => hb) h

theorem findUltraSimilarFrom_eq_some {l : List (BurstPtr × ℕ)} {similar : BurstPtr}
    (h : findUltraSimilarFrom F burst l = .ok (some similar)) :
    (∃ n, (similar, n) ∈ l) ∧ ∃ d : F, similar.burst.distance burst.burst = .ok d ∧ d < 1 / 5 := by
  induction l with
  | nil => cases h
  | cons e rest ih =>
    obtain ⟨b, n⟩ := e
    rw [findUltraSimilarFrom] at h
    obtain ⟨d, hd, h⟩ := CheckedLoop.bind_eq_ok.mp h
    split_ifs at h with hnear
    · cases h
      exact ⟨⟨n, List.mem_cons_self⟩, d, hd, hnear⟩
    · obtain ⟨⟨m, hm⟩, hdist⟩ := ih h
      exact ⟨⟨m, List.mem_cons_of_mem _ hm⟩, hdist⟩

theorem far_of_findUltraSimilarFrom {l : List (BurstPtr × ℕ)}
    (h : findUltraSimilarFrom F burst l = .ok none) {b : BurstPtr} {n : ℕ} (hb : (b, n) ∈ l) :
    ∃ d : F, b.burst.distance burst.burst = .ok d ∧ ¬ d < 1 / 5 := by
  induction l with
  | nil => exact absurd hb List.not_mem_nil
  | cons e rest ih =>
    obtain ⟨b', n'⟩ := e
    rw [findUltraSimilarFrom] at h
    obtain ⟨d, hd, h⟩ := CheckedLoop.bind_eq_ok.mp h
    split_ifs at h with hnear
    · cases h
    · rcases List.mem_cons.mp hb with heq | hb
      · cases heq
        exact ⟨d, hd, hnear⟩
      · exact ih h hb

/-- A search that finds nothing has met every burst of the map. -/
theorem far_of_findUltraSimilarBurst (h : findUltraSimilarBurst F lib map burst = .ok none)
    {b : BurstPtr} (hb : b ∈ map) :
    ∃ d : F, b.burst.distance burst.burst = .ok d ∧ ¬ d < 1 / 5 := by
  obtain ⟨n, hn⟩ := lib.exists_mem_iterate hb
  exact far_of_findUltraSimilarFrom h hn

/-- The burst is inserted: to a large burst nothing in the map is ultra-similar, and the first burst
found with its signatures is too far. -/
structure Inserts (F : Type) [Field F] [LinearOrder F] [Elementary F] (lib : StdLib)
    (map : UnorderedMap BurstPtr ℕ) (burst : BurstPtr) : Prop where
  not_similar : Large burst.burst → findUltraSimilarBurst F lib map burst = .ok none
  not_identical : Large burst.burst → ∀ identical,
    findItenticalKeysInMap lib map burst = some identical →
      ∃ d : F, identical.burst.distance burst.burst = .ok d ∧ ¬ d < 7 / 10

/-- The count goes to a burst of the map, which is ultra-similar or the first one found with the
same signatures. -/
structure AddsTo (F : Type) [Field F] [LinearOrder F] [Elementary F] (lib : StdLib)
    (map : UnorderedMap BurstPtr ℕ) (burst existing : BurstPtr) : Prop where
  mem : existing ∈ map
  large : Large burst.burst
  near : ∃ d : F, existing.burst.distance burst.burst = .ok d ∧
    (d < 1 / 5 ∨ findItenticalKeysInMap lib map burst = some existing ∧ d < 7 / 10)

/-- What one iteration has done, and whether the ultra-similar burst was the one. -/
theorem mergeKey_found (h : mergeKey F lib map burst num = .ok map') :
    (map' = map.emplace burst num ∧ Inserts F lib map burst) ∨
      ∃ existing, map' = map.update existing 0 (· + num) ∧ AddsTo F lib map burst existing ∧
        (findUltraSimilarBurst F lib map burst = .ok (some existing) ∨
          findUltraSimilarBurst F lib map burst = .ok none) := by
  rw [mergeKey] at h
  change (if Large burst.burst then _ else _) = _ at h
  by_cases hlarge : Large burst.burst
  · rw [if_pos hlarge] at h
    obtain ⟨found, hfound, h⟩ := CheckedLoop.bind_eq_ok.mp h
    cases found with
    | some similar =>
      obtain ⟨⟨n, hn⟩, d, hd, hnear⟩ := findUltraSimilarFrom_eq_some hfound
      refine Or.inr ⟨similar, ?_, ⟨lib.mem_of_mem_iterate hn, hlarge, d, hd, Or.inl hnear⟩,
        Or.inl hfound⟩
      cases hidentical : findItenticalKeysInMap lib map burst <;>
        · rw [hidentical] at h
          exact (Except.ok.inj h).symm
    | none =>
      cases hidentical : findItenticalKeysInMap lib map burst with
      | none =>
        rw [hidentical] at h
        refine Or.inl ⟨(Except.ok.inj h).symm, fun _ => hfound, fun _ identical heq => ?_⟩
        rw [hidentical] at heq
        cases heq
      | some identical =>
        rw [hidentical] at h
        obtain ⟨d, hd, h⟩ := CheckedLoop.bind_eq_ok.mp h
        split_ifs at h with hnear
        · have hmem := mem_of_findItenticalKeysInMap hidentical
          exact Or.inr ⟨identical, (Except.ok.inj h).symm,
            ⟨hmem, hlarge, d, hd, Or.inr ⟨hidentical, hnear⟩⟩, Or.inr hfound⟩
        · refine Or.inl ⟨(Except.ok.inj h).symm, fun _ => hfound, fun _ identical' heq => ?_⟩
          rw [hidentical] at heq
          cases heq
          exact ⟨d, hd, hnear⟩
  · rw [if_neg hlarge] at h
    exact Or.inl ⟨(Except.ok.inj h).symm, fun hl => absurd hl hlarge, fun hl => absurd hl hlarge⟩

/-- **What one iteration has done.** -/
theorem mergeKey_cases (h : mergeKey F lib map burst num = .ok map') :
    (map' = map.emplace burst num ∧ Inserts F lib map burst) ∨
      ∃ existing, map' = map.update existing 0 (· + num) ∧ AddsTo F lib map burst existing := by
  rcases mergeKey_found h with hinserts | ⟨existing, hmap, hadds, -⟩
  · exact Or.inl hinserts
  · exact Or.inr ⟨existing, hmap, hadds⟩

/-- No key is lost. -/
theorem mem_of_mergeKey (h : mergeKey F lib map burst num = .ok map') {b : BurstPtr}
    (hb : b ∈ map) : b ∈ map' := by
  rcases mergeKey_cases h with ⟨rfl, -⟩ | ⟨existing, rfl, -⟩
  · exact UnorderedMap.mem_emplace.mpr (Or.inr hb)
  · exact UnorderedMap.mem_update.mpr (Or.inr hb)

end Moves

/-! ## The loop -/

section Loop

variable {lib : StdLib}

theorem mergeKeys_append (done rest : List (BurstPtr × ℕ)) (map : UnorderedMap BurstPtr ℕ) :
    mergeKeys F lib (done ++ rest) map = mergeKeys F lib done map >>= mergeKeys F lib rest := by
  induction done generalizing map with
  | nil => rfl
  | cons e done ih =>
    rw [List.cons_append, mergeKeys, mergeKeys]
    split_ifs with hfull
    · cases rest with
      | nil => rfl
      | cons e' rest =>
        show _ = mergeKeys F lib (e' :: rest) map
        rw [mergeKeys, if_pos hfull]
    · rw [bind_assoc]
      congr 1
      funext map
      exact ih map

theorem mem_of_mergeKeys {l : List (BurstPtr × ℕ)} {map map' : UnorderedMap BurstPtr ℕ}
    (h : mergeKeys F lib l map = .ok map') {b : BurstPtr} (hb : b ∈ map) : b ∈ map' := by
  induction l generalizing map with
  | nil =>
    cases h
    exact hb
  | cons e rest ih =>
    rw [mergeKeys] at h
    split_ifs at h
    · cases h
      exact hb
    · obtain ⟨map₁, hstep, h⟩ := CheckedLoop.bind_eq_ok.mp h
      exact ih h (mem_of_mergeKey hstep hb)

/-- **The rule for the loop of `MergeIdenticalKeys`.**  `I done map` describes the map once the
entries `done` have been merged; entries are left only when the map is full. -/
theorem mergeKeys_inv {I : List (BurstPtr × ℕ) → UnorderedMap BurstPtr ℕ → Prop}
    {l : List (BurstPtr × ℕ)} {start map' : UnorderedMap BurstPtr ℕ}
    (hstep : ∀ done e rest map map', l = done ++ e :: rest →
      mergeKeys F lib done start = .ok map → map.keys.length ≤ 1000 → I done map →
      mergeKey F lib map e.1 e.2 = .ok map' → I (done ++ [e]) map')
    (h : I [] start) (hrun : mergeKeys F lib l start = .ok map') :
    ∃ processed leftOut, l = processed ++ leftOut ∧ I processed map' ∧
      (leftOut ≠ [] → 1000 < map'.keys.length) := by
  have hfrom : ∀ (rest done : List (BurstPtr × ℕ)) (map : UnorderedMap BurstPtr ℕ),
      l = done ++ rest → mergeKeys F lib done start = .ok map → I done map →
      mergeKeys F lib rest map = .ok map' →
      ∃ processed leftOut, l = processed ++ leftOut ∧ I processed map' ∧
        (leftOut ≠ [] → 1000 < map'.keys.length) := by
    intro rest
    induction rest with
    | nil =>
      intro done map hl _ hI hrun
      cases hrun
      exact ⟨done, [], hl, hI, fun hne => absurd rfl hne⟩
    | cons e rest ih =>
      intro done map hl hdone hI hrun
      rw [mergeKeys] at hrun
      split_ifs at hrun with hfull
      · cases hrun
        exact ⟨done, e :: rest, hl, hI, fun _ => hfull⟩
      · obtain ⟨map₁, hmerge, hrun⟩ := CheckedLoop.bind_eq_ok.mp hrun
        have hnext : mergeKeys F lib (done ++ [e]) start = .ok map₁ := by
          rw [mergeKeys_append, hdone]
          show mergeKeys F lib [e] map = _
          rw [mergeKeys, if_neg hfull, hmerge]
          rfl
        refine ih (done ++ [e]) map₁ ?_ hnext
          (hstep done e rest map map₁ hl hdone (not_lt.mp hfull) hI hmerge) hrun
        rw [hl, List.append_assoc, List.singleton_append]
  exact hfrom l [] start rfl rfl h hrun

end Loop

end Merging
end BurstIoT
