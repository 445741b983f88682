import BurstIoT.Merging

/-!
# Is merging by the hash exact?

`MergeStrictHash` should keep one burst of each class of equal bursts, with the size of the class
(`MergeExact`).  It compares hashes only, so what it keeps is the first burst of each hash, with the
number of bursts that share the hash (`lookup_mergeStrictHash`), which it counts in an `int`.  That
is the same exactly when no two different bursts share a hash, and no class has more bursts than an
`int` can count (`mergeExact_iff`).

Two different bursts can share a hash whatever `std::hash` of an `int` is, because the hash of a
burst shifts the hash of a signature by its count modulo thirty: sixty bytes once and a hundred
bytes thirty-one times hash like sixty bytes thirty-one times and a hundred bytes once
(`not_mergeExact_swapped`).  `PredictionCache`, which is keyed by the same hash, compares the bursts
after it.
-/

namespace BurstIoT
namespace Merging

variable {lib : StdLib}

/-! ## What the loop keeps -/

/-- Two pointers whose bursts have the same hash. -/
def sameHash (lib : StdLib) (p q : BurstPtr) : Bool :=
  q.burst.hash lib == p.burst.hash lib

/-- The variables of `MergeStrictHash` after some bursts: the first burst of each hash, and how many
bursts share its hash. -/
structure Merged (lib : StdLib) (done : List BurstPtr) (s : StrictHash) : Prop where
  hashMap : ∀ hash, s.hashMap.lookup hash = done.find? fun q => q.burst.hash lib == hash
  trainMap : ∀ p, s.trainMap.lookup p =
    if done.find? (sameHash lib p) = some p then some (done.countP (sameHash lib p)) else none

theorem sameHash_congr {p q : BurstPtr} (h : sameHash lib p q = true) :
    sameHash lib p = sameHash lib q := by
  ext r
  rw [sameHash, sameHash, eq_of_beq h]

/-- A burst of another hash changes nothing. -/
theorem Merged.append_other {done : List BurstPtr} {s : StrictHash} (h : Merged lib done s)
    {p burst : BurstPtr} (hother : sameHash lib p burst = false) : s.trainMap.lookup p =
      if (done ++ [burst]).find? (sameHash lib p) = some p then
        some ((done ++ [burst]).countP (sameHash lib p)) else none := by
  have hfind : [burst].find? (sameHash lib p) = none := by
    rw [List.find?_singleton, hother]
    rfl
  have hcount : [burst].countP (sameHash lib p) = 0 := by
    rw [List.countP_singleton, hother]
    rfl
  rw [h.trainMap, List.find?_append, hfind, Option.or_none, List.countP_append, hcount,
    Nat.add_zero]

/-- A pointer that is not kept for the hash of a burst is kept, or not, as before the burst. -/
theorem Merged.append_ne {done : List BurstPtr} {s : StrictHash} (h : Merged lib done s)
    {p q burst : BurstPtr} (hp : p ≠ q) (hold : done.find? (sameHash lib burst) ≠ some p)
    (hfind : (done ++ [burst]).find? (sameHash lib burst) = some q) : s.trainMap.lookup p =
      if (done ++ [burst]).find? (sameHash lib p) = some p then
        some ((done ++ [burst]).countP (sameHash lib p)) else none := by
  cases hsame : sameHash lib p burst with
  | true =>
    have hne : ¬ some q = some p := fun heq => hp (Option.some_inj.mp heq).symm
    rw [h.trainMap, sameHash_congr hsame, if_neg hold, hfind, if_neg hne]
  | false => exact h.append_other hsame

/-- The first burst of its hash is kept. -/
theorem Merged.step_first {done : List BurstPtr} {s : StrictHash} (h : Merged lib done s)
    {burst : BurstPtr} (hnone : done.find? (sameHash lib burst) = none) :
    Merged lib (done ++ [burst])
      { hashMap := AList.insert (burst.burst.hash lib) burst s.hashMap
        trainMap := s.trainMap.emplace burst 1 } := by
  have hself : sameHash lib burst burst = true := beq_self_eq_true _
  have hfind : (done ++ [burst]).find? (sameHash lib burst) = some burst := by
    rw [List.find?_append, hnone, Option.none_or, List.find?_singleton, hself]
    rfl
  refine ⟨fun hash => ?_, fun p => ?_⟩
  · by_cases heq : hash = burst.burst.hash lib
    · rw [heq, AList.lookup_insert]
      exact hfind.symm
    · rw [AList.lookup_insert_ne heq, h.hashMap, List.find?_append]
      simp [Ne.symm heq]
  · dsimp only
    rw [UnorderedMap.lookup_emplace]
    by_cases hp : p = burst
    · have hcount : done.countP (sameHash lib burst) = 0 := by
        rw [List.countP_eq_zero]
        exact List.find?_eq_none.mp hnone
      rw [if_pos hp, hp, h.trainMap, hnone, if_neg (by simp), hfind, if_pos rfl,
        List.countP_append, hcount, List.countP_singleton, hself]
      rfl
    · rw [if_neg hp]
      exact h.append_ne hp (by simp [hnone]) hfind

/-- A further burst of a hash is counted for the first one. -/
theorem Merged.step_again {done : List BurstPtr} {s : StrictHash} (h : Merged lib done s)
    {burst existingBurst : BurstPtr}
    (hold : done.find? (sameHash lib burst) = some existingBurst) :
    Merged lib (done ++ [burst])
      { s with trainMap := s.trainMap.update existingBurst 0 (· + 1) } := by
  have hself : sameHash lib burst burst = true := beq_self_eq_true _
  have hfind : (done ++ [burst]).find? (sameHash lib burst) = some existingBurst := by
    rw [List.find?_append, hold, Option.some_or]
  have hhash : sameHash lib burst existingBurst = true := List.find?_some hold
  refine ⟨fun hash => ?_, fun p => ?_⟩
  · rw [h.hashMap, List.find?_append]
    by_cases heq : hash = burst.burst.hash lib
    · rw [heq]
      show done.find? (sameHash lib burst) = (done.find? (sameHash lib burst)).or _
      rw [hold, Option.some_or]
    · simp [Ne.symm heq]
  · dsimp only
    by_cases hp : p = existingBurst
    · rw [hp, UnorderedMap.lookup_update_self, h.trainMap, ← sameHash_congr hhash, hold,
        if_pos rfl, hfind, if_pos rfl, List.countP_append, List.countP_singleton, hself]
      rfl
    · rw [UnorderedMap.lookup_update_ne _ hp]
      have hne : ¬ some existingBurst = some p := fun heq => hp (Option.some_inj.mp heq).symm
      exact h.append_ne hp (hold ▸ hne) hfind

/-- **One burst** of the loop. -/
theorem Merged.step {done : List BurstPtr} {s : StrictHash} (h : Merged lib done s)
    (burst : BurstPtr) : Merged lib (done ++ [burst]) (strictHashStep lib s burst) := by
  rw [strictHashStep]
  cases hlook : s.hashMap.lookup (burst.burst.hash lib) with
  | none => exact h.step_first ((h.hashMap _).symm.trans hlook)
  | some existingBurst => exact h.step_again ((h.hashMap _).symm.trans hlook)

theorem merged_foldl : ∀ (rest done : List BurstPtr) (s : StrictHash),
    Merged lib done s → Merged lib (done ++ rest) (rest.foldl (strictHashStep lib) s)
  | [], done, s, h => by
    rw [List.append_nil]
    exact h
  | burst :: rest, done, s, h => by
    have hlist : done ++ burst :: rest = (done ++ [burst]) ++ rest := by simp
    rw [hlist]
    exact merged_foldl rest (done ++ [burst]) _ (h.step burst)

theorem map_burst_pointers (burstGroups : List BurstBlock) :
    (pointers burstGroups).map BurstPtr.burst = burstGroups.flatten := by
  rw [pointers, List.map_map]
  exact List.zipIdx_map_fst 0 _

/-- **What `MergeStrictHash` returns**: the first burst of each hash, with the number of bursts that
share it. -/
theorem lookup_mergeStrictHash (lib : StdLib) (burstGroups : List BurstBlock) (p : BurstPtr) :
    (mergeStrictHash lib burstGroups).lookup p =
      if (pointers burstGroups).find? (sameHash lib p) = some p then
        some ((pointers burstGroups).countP (sameHash lib p)) else none :=
  (merged_foldl (pointers burstGroups) [] {} ⟨fun _ => rfl, fun _ => rfl⟩).trainMap p

/-! ## What it should keep -/

/-- **Merging is exact**: what is kept is one burst of each class of equal bursts, and the `int`
that is kept with it is the number of bursts of its class. -/
structure MergeExact (lib : StdLib) (burstGroups : List BurstBlock) : Prop where
  count : ∀ p n, (mergeStrictHash lib burstGroups).lookup p = some n →
    p ∈ pointers burstGroups ∧ toInt n = (burstGroups.flatten.countP (p.burst.same ·) : ℕ)
  one : ∀ b ∈ burstGroups.flatten, ∃! p, p ∈ mergeStrictHash lib burstGroups ∧
    p.burst.same b = true

/-- A key is the first burst of its hash. -/
theorem mem_mergeStrictHash {burstGroups : List BurstBlock} {p : BurstPtr} :
    p ∈ mergeStrictHash lib burstGroups ↔
      (pointers burstGroups).find? (sameHash lib p) = some p := by
  rw [← AList.lookup_isSome, lookup_mergeStrictHash]
  split_ifs with h <;> simp [h]

/-- The number of bursts that share the hash of `p`. -/
theorem countP_sameHash (burstGroups : List BurstBlock) (p : BurstPtr) :
    (pointers burstGroups).countP (sameHash lib p) =
      burstGroups.flatten.countP (fun b => b.hash lib == p.burst.hash lib) := by
  rw [← map_burst_pointers, List.countP_map]
  rfl

/-- The first burst that shares the hash of a burst is the key that stands for it. -/
theorem exists_mem_mergeStrictHash (lib : StdLib) {burstGroups : List BurstBlock} {b : Burst}
    (hb : b ∈ burstGroups.flatten) : ∃ p ∈ pointers burstGroups,
      p ∈ mergeStrictHash lib burstGroups ∧ p.burst.hash lib = b.hash lib := by
  rw [← map_burst_pointers] at hb
  obtain ⟨q, hq, rfl⟩ := List.mem_map.mp hb
  cases hfind : (pointers burstGroups).find? (sameHash lib q) with
  | none => exact absurd (beq_self_eq_true _) (List.find?_eq_none.mp hfind q hq)
  | some p =>
    have hsame : sameHash lib q p = true := List.find?_some hfind
    refine ⟨p, List.mem_of_find?_eq_some hfind, ?_, eq_of_beq hsame⟩
    rw [mem_mergeStrictHash, ← sameHash_congr hsame]
    exact hfind

/-- Two keys with the same hash are one. -/
theorem eq_of_mem_mergeStrictHash {burstGroups : List BurstBlock} {p q : BurstPtr}
    (hp : p ∈ mergeStrictHash lib burstGroups) (hq : q ∈ mergeStrictHash lib burstGroups)
    (hhash : q.burst.hash lib = p.burst.hash lib) : q = p := by
  have hsame : sameHash lib p q = true := beq_iff_eq.mpr hhash
  have hfind := mem_mergeStrictHash.mp hq
  rw [← sameHash_congr hsame, mem_mergeStrictHash.mp hp] at hfind
  exact (Option.some_inj.mp hfind).symm

/-- Where merging is exact, bursts that share a hash are equal: both are in the class of the key
that stands for them. -/
theorem MergeExact.same {burstGroups : List BurstBlock} (h : MergeExact lib burstGroups)
    {a b : Burst} (ha : a ∈ burstGroups.flatten) (hb : b ∈ burstGroups.flatten)
    (hhash : a.hash lib = b.hash lib) : a.same b = true := by
  obtain ⟨p, ⟨hp, hpa⟩, -⟩ := h.one a ha
  obtain ⟨q, ⟨hq, hqb⟩, -⟩ := h.one b hb
  have hkeys : q.burst.hash lib = p.burst.hash lib := by
    rw [Burst.hash_eq_of_same lib hqb, Burst.hash_eq_of_same lib hpa, hhash]
  rw [eq_of_mem_mergeStrictHash hp hq hkeys] at hqb
  exact Burst.same_trans (Burst.same_symm hpa) hqb

/-- Where equal hashes come from equal bursts, a key counts its class. -/
theorem lookup_of_hash_injective {burstGroups : List BurstBlock}
    (h : ∀ a ∈ burstGroups.flatten, ∀ b ∈ burstGroups.flatten,
      a.hash lib = b.hash lib → a.same b = true) {p : BurstPtr} {n : ℕ}
    (hlook : (mergeStrictHash lib burstGroups).lookup p = some n) :
    p ∈ pointers burstGroups ∧ p.burst ∈ burstGroups.flatten ∧
      n = burstGroups.flatten.countP (p.burst.same ·) := by
  have hfind := mem_mergeStrictHash.mp (UnorderedMap.mem_of_lookup hlook)
  have hp := List.mem_of_find?_eq_some hfind
  have hburst : p.burst ∈ burstGroups.flatten := by
    rw [← map_burst_pointers]
    exact List.mem_map_of_mem hp
  rw [lookup_mergeStrictHash, if_pos hfind, countP_sameHash, Option.some_inj] at hlook
  refine ⟨hp, hburst, hlook.symm.trans (List.countP_congr fun c hc => ?_)⟩
  rw [beq_iff_eq]
  exact ⟨fun hhash => h _ hburst c hc hhash.symm,
    fun hsame => (Burst.hash_eq_of_same lib hsame).symm⟩

/-- **When merging is exact**: exactly when no two different bursts share a hash, and an `int` can
count every class of equal bursts. -/
theorem mergeExact_iff (lib : StdLib) (burstGroups : List BurstBlock) :
    MergeExact lib burstGroups ↔
      (∀ a ∈ burstGroups.flatten, ∀ b ∈ burstGroups.flatten,
        a.hash lib = b.hash lib → a.same b = true) ∧
      ∀ b ∈ burstGroups.flatten, burstGroups.flatten.countP (b.same ·) < 2 ^ 31 := by
  constructor
  · intro h
    have hinj : ∀ a ∈ burstGroups.flatten, ∀ b ∈ burstGroups.flatten,
        a.hash lib = b.hash lib → a.same b = true := fun a ha b hb => h.same ha hb
    refine ⟨hinj, fun b hb => ?_⟩
    obtain ⟨p, ⟨hp, hpb⟩, -⟩ := h.one b hb
    obtain ⟨n, hlook⟩ := Option.isSome_iff_exists.mp (AList.lookup_isSome.mpr hp)
    have hn := (lookup_of_hash_injective hinj hlook).2.2
    have hint := (h.count p n hlook).2
    rw [← hn, toInt_eq_iff, hn] at hint
    rwa [List.countP_congr fun c _ => ⟨fun hbc => Burst.same_trans hpb hbc,
      fun hpc => Burst.same_trans (Burst.same_symm hpb) hpc⟩]
  · rintro ⟨hinj, hfew⟩
    refine ⟨fun p n hlook => ?_, fun b hb => ?_⟩
    · obtain ⟨hp, hburst, hn⟩ := lookup_of_hash_injective hinj hlook
      rw [hn]
      exact ⟨hp, toInt_of_lt (hfew _ hburst)⟩
    · obtain ⟨p, hp, hmem, hhash⟩ := exists_mem_mergeStrictHash lib hb
      have hburst : p.burst ∈ burstGroups.flatten := by
        rw [← map_burst_pointers]
        exact List.mem_map_of_mem hp
      exact ⟨p, ⟨hmem, hinj _ hburst b hb hhash⟩, fun q hq => eq_of_mem_mergeStrictHash hmem hq.1
        ((Burst.hash_eq_of_same lib hq.2).trans hhash.symm)⟩

/-! ## Two bursts that hash alike -/

/-- `num` packets of a signature, in one second. -/
def lampPackets (tvSec : ℤ) (signedLen : Int16) (num : ℕ) : List KPacket :=
  List.replicate num
    { deviceId := 0, signedLen := signedLen, hash5tuple := 7, timestamp := ⟨tvSec, 0⟩ }

/-- Sixty bytes once and a hundred bytes thirty-one times; ninety seconds later the other way
round. -/
def swappedPackets : List KPacket :=
  lampPackets 10 60 1 ++ lampPackets 10 100 31 ++ lampPackets 100 60 31 ++ lampPackets 100 100 1

/-- The block the generator makes of them. -/
def swappedBlock : BurstBlock :=
  Converter.createBurstVec .insertion {} swappedPackets
    ⟨true, 1, "lamp", "lamp", "", "10.0.0.2"⟩

theorem not_mergeExact_swapped : ¬ ∃ (hashInt : ℤ → UInt64) (hashUInt32 : UInt32 → UInt64),
    MergeExact { StdLib.insertion with hashInt := hashInt, hashUInt32 := hashUInt32 }
      [swappedBlock] := by
  rintro ⟨hashInt, hashUInt32, hexact⟩
  have hblock : swappedBlock =
      [⟨2, 32, "lamp", ⟨10, 0⟩, ⟨10, 0⟩, [(60, 1), (100, 31)]⟩,
        ⟨2, 32, "lamp", ⟨100, 0⟩, ⟨100, 0⟩, [(60, 31), (100, 1)]⟩] := by decide +kernel
  rw [hblock] at hexact
  have hsame := hexact.same List.mem_cons_self (List.mem_cons_of_mem _ List.mem_cons_self) rfl
  exact absurd hsame (by decide)

end Merging
end BurstIoT
