import Mathlib.Data.Finmap
import BurstIoT.Library.Confluence
import BurstIoT.MergeWeight

/-!
# The choices of merging

The order in which a map of pointers is traversed decides two things in `MergeIdenticalKeys`: which
of several suitable bursts a count goes to, and which of several bursts with the same count is
merged first.  `std::stable_sort` keeps the order of the traversal among the latter.

`MergeStep` leaves both open: some entry with the largest count is merged, in one of the ways `Goes`
that a traversal can lead to.  A run of `mergeKeys` is one of its runs to a final state, whatever
the traversal (`exists_run_of_mergeKeys`).

The ways depend on the keys of the map only.  So two steps commute unless one entry has two ways to
go, or the first of two entries with the same count is inserted and changes where the second one
goes (`Pending.Settled`, `diamond_of_settled`).
-/

namespace BurstIoT
namespace Merging

open Relation (ReflTransGen)

/-! ## Where a count goes -/

section Goes

variable (F : Type) [Field F] [LinearOrder F] [Elementary F]

/-- Near enough for `FindUltraSimilarBurst`. -/
def Similar (b burst : Burst) : Prop :=
  ∃ d : F, b.distance burst = .ok d ∧ d < 1 / 5

/-- Near enough for a burst with the same signatures. -/
def Near (b burst : Burst) : Prop :=
  ∃ d : F, b.distance burst = .ok d ∧ d < 7 / 10

/-- The ways in which a burst is merged into a map with some keys: it is inserted (`none`), or its
count goes to a key. -/
inductive Goes (keys : Finset BurstPtr) (burst : BurstPtr) : Option BurstPtr → Prop
  | small (hsmall : ¬ Large burst.burst) : Goes keys burst none
  | alone (hlarge : Large burst.burst)
      (hsimilar : ∀ b ∈ keys, ¬ Similar F b.burst burst.burst)
      (hidentical : ∀ b ∈ keys, identicalKeys b.burst burst.burst = false) : Goes keys burst none
  | far (hlarge : Large burst.burst) (hsimilar : ∀ b ∈ keys, ¬ Similar F b.burst burst.burst)
      {identical : BurstPtr} (hmem : identical ∈ keys)
      (hidentical : identicalKeys identical.burst burst.burst = true)
      (hfar : ¬ Near F identical.burst burst.burst) : Goes keys burst none
  | similar (hlarge : Large burst.burst) {b : BurstPtr} (hmem : b ∈ keys)
      (hsimilar : Similar F b.burst burst.burst) : Goes keys burst (some b)
  | identical (hlarge : Large burst.burst) (hsimilar : ∀ b ∈ keys, ¬ Similar F b.burst burst.burst)
      {b : BurstPtr} (hmem : b ∈ keys) (hidentical : identicalKeys b.burst burst.burst = true)
      (hnear : Near F b.burst burst.burst) : Goes keys burst (some b)

end Goes

/-- The contents of a map, without the order of its entries. -/
abbrev Counts : Type := Finmap fun _ : BurstPtr => ℕ

/-- Merge an entry in one of the ways. -/
def add (map : Counts) (e : BurstPtr × ℕ) : Option BurstPtr → Counts
  | none => if e.1 ∈ map then map else map.insert e.1 e.2
  | some b => map.insert b ((map.lookup b).getD 0 + e.2)

/-- What merging an entry does to the count of a burst. -/
def bump (e : BurstPtr × ℕ) (b : BurstPtr) (n : Option ℕ) : Option BurstPtr → Option ℕ
  | none => if b = e.1 then some (n.getD e.2) else n
  | some b' => if b = b' then some (n.getD 0 + e.2) else n

theorem lookup_add (map : Counts) (e : BurstPtr × ℕ) (t : Option BurstPtr) (b : BurstPtr) :
    (add map e t).lookup b = bump e b (map.lookup b) t := by
  cases t with
  | none =>
    rw [add, bump]
    split_ifs with hmem hb hb
    · obtain ⟨n, hn⟩ := Finmap.mem_iff.mp (hb ▸ hmem)
      rw [hn, Option.getD_some]
    · rfl
    · rw [hb, Finmap.lookup_insert, Finmap.lookup_eq_none.mpr hmem, Option.getD_none]
    · exact Finmap.lookup_insert_of_ne map hb
  | some b' =>
    rw [add, bump]
    split_ifs with hb
    · rw [hb, Finmap.lookup_insert]
    · exact Finmap.lookup_insert_of_ne map hb

theorem keys_add_none (map : Counts) (e : BurstPtr × ℕ) :
    (add map e none).keys = insert e.1 map.keys := by
  ext b
  rw [Finmap.mem_keys, Finset.mem_insert, Finmap.mem_keys, add]
  split_ifs with hmem
  · exact ⟨Or.inr, fun h => h.elim (fun hb => hb ▸ hmem) id⟩
  · exact Finmap.mem_insert

theorem keys_add_some {map : Counts} {b : BurstPtr} (hb : b ∈ map.keys) (e : BurstPtr × ℕ) :
    (add map e (some b)).keys = map.keys := by
  ext b'
  rw [Finmap.mem_keys, Finmap.mem_keys, add, Finmap.mem_insert]
  exact ⟨fun h => h.elim (fun heq => heq ▸ Finmap.mem_keys.mp hb) id, Or.inr⟩

/-- A key that a count goes to is one of the map. -/
theorem Goes.mem {F : Type} [Field F] [LinearOrder F] [Elementary F] {keys : Finset BurstPtr}
    {burst b : BurstPtr} (h : Goes F keys burst (some b)) : b ∈ keys := by
  cases h with
  | similar _ hmem _ => exact hmem
  | identical _ _ hmem _ _ => exact hmem

/-- **Two entries in either order**: what is added to the map is the same. -/
theorem add_comm {map : Counts} {e f : BurstPtr × ℕ} {t u : Option BurstPtr} (hne : e.1 ≠ f.1)
    (ht : ∀ b, t = some b → b ∈ map.keys) (hu : ∀ b, u = some b → b ∈ map.keys) :
    add (add map e t) f u = add (add map f u) e t := by
  refine Finmap.ext_lookup fun b => ?_
  have hsome : ∀ {w : Option BurstPtr}, (∀ b, w = some b → b ∈ map.keys) → w = some b →
      ∃ n, map.lookup b = some n := fun hw heq =>
    Finmap.mem_iff.mp (Finmap.mem_keys.mp (hw b heq))
  have ht := hsome ht
  have hu := hsome hu
  rw [lookup_add, lookup_add, lookup_add, lookup_add]
  generalize map.lookup b = n at ht hu ⊢
  cases t with
  | none =>
    cases u with
    | none =>
      simp only [bump]
      split_ifs with hf he he
      · exact absurd (he.symm.trans hf) hne
      · rfl
      · rfl
      · rfl
    | some y =>
      simp only [bump]
      split_ifs with hy he he
      · obtain ⟨m, rfl⟩ := hu (congrArg some hy.symm)
        rfl
      · rfl
      · rfl
      · rfl
  | some x =>
    cases u with
    | none =>
      simp only [bump]
      split_ifs with hf hx hx
      · obtain ⟨m, rfl⟩ := ht (congrArg some hx.symm)
        rfl
      · rfl
      · rfl
      · rfl
    | some y =>
      simp only [bump]
      split_ifs with hy hx hx
      · rw [Option.getD_some, Option.getD_some, Nat.add_right_comm]
      · rfl
      · rfl
      · rfl

section Steps

variable {F : Type} [Field F] [LinearOrder F] [Elementary F] {lib : StdLib}

/-! ## One iteration is one of the ways -/

theorem toFinmap_emplace (map : UnorderedMap BurstPtr ℕ) (burst : BurstPtr) (num : ℕ) :
    (map.emplace burst num).toFinmap = add map.toFinmap (burst, num) none := by
  refine Finmap.ext_lookup fun b => ?_
  rw [lookup_add, Finmap.lookup_toFinmap, Finmap.lookup_toFinmap, UnorderedMap.lookup_emplace,
    bump]
  split_ifs with hb
  · rw [hb]
  · rfl

theorem toFinmap_update (map : UnorderedMap BurstPtr ℕ) (burst b : BurstPtr) (num : ℕ) :
    (map.update b 0 (· + num)).toFinmap = add map.toFinmap (burst, num) (some b) := by
  refine Finmap.ext_lookup fun b' => ?_
  rw [lookup_add, Finmap.lookup_toFinmap, Finmap.lookup_toFinmap, bump]
  split_ifs with hb
  · rw [hb, UnorderedMap.lookup_update_self]
  · exact UnorderedMap.lookup_update_ne map hb 0 _

theorem mem_keys_toFinmap {map : UnorderedMap BurstPtr ℕ} {b : BurstPtr} :
    b ∈ map.toFinmap.keys ↔ b ∈ map := by
  rw [Finmap.mem_keys, Finmap.mem_toFinmap]

theorem card_keys_toFinmap (map : UnorderedMap BurstPtr ℕ) :
    map.toFinmap.keys.card = map.keys.length := by
  rw [Finset.card_def, Finmap.keys_val, Multiset.coe_card]

theorem not_similar_of_findUltraSimilarBurst {map : UnorderedMap BurstPtr ℕ} {burst : BurstPtr}
    (h : findUltraSimilarBurst F lib map burst = .ok none) :
    ∀ b ∈ map.toFinmap.keys, ¬ Similar F b.burst burst.burst := by
  rintro b hb ⟨d, hd, hnear⟩
  obtain ⟨d', hd', hfar⟩ := far_of_findUltraSimilarBurst h (mem_keys_toFinmap.mp hb)
  cases hd.symm.trans hd'
  exact hfar hnear

theorem not_identicalKeys_of_findItenticalKeysInMap {map : UnorderedMap BurstPtr ℕ}
    {burst : BurstPtr} (h : findItenticalKeysInMap lib map burst = none) :
    ∀ b ∈ map.toFinmap.keys, identicalKeys b.burst burst.burst = false := by
  intro b hb
  rw [findItenticalKeysInMap, Option.map_eq_none_iff, List.find?_eq_none] at h
  obtain ⟨n, hn⟩ := lib.exists_mem_iterate (mem_keys_toFinmap.mp hb)
  exact Bool.eq_false_iff.mpr (h (b, n) hn)

theorem identicalKeys_of_findItenticalKeysInMap {map : UnorderedMap BurstPtr ℕ}
    {burst identical : BurstPtr} (h : findItenticalKeysInMap lib map burst = some identical) :
    identicalKeys identical.burst burst.burst = true := by
  obtain ⟨e, he, rfl⟩ := Option.map_eq_some_iff.mp h
  exact List.find?_some (p := fun e : BurstPtr × ℕ => identicalKeys e.1.burst burst.burst) he

/-- **One iteration** of `MergeIdenticalKeys` merges its burst in one of the ways. -/
theorem mergeKey_goes {map map' : UnorderedMap BurstPtr ℕ} {burst : BurstPtr} {num : ℕ}
    (h : mergeKey F lib map burst num = .ok map') :
    ∃ t, Goes F map.toFinmap.keys burst t ∧ map'.toFinmap = add map.toFinmap (burst, num) t := by
  rcases mergeKey_found h with ⟨rfl, hinserts⟩ | ⟨existing, rfl, hadds, hfound⟩
  · refine ⟨none, ?_, toFinmap_emplace map burst num⟩
    by_cases hlarge : Large burst.burst
    · have hsimilar := not_similar_of_findUltraSimilarBurst (hinserts.not_similar hlarge)
      cases hidentical : findItenticalKeysInMap lib map burst with
      | none =>
        exact .alone hlarge hsimilar (not_identicalKeys_of_findItenticalKeysInMap hidentical)
      | some identical =>
        have hmem := mem_keys_toFinmap.mpr (mem_of_findItenticalKeysInMap hidentical)
        obtain ⟨d, hd, hfar⟩ := hinserts.not_identical hlarge identical hidentical
        refine .far hlarge hsimilar hmem (identicalKeys_of_findItenticalKeysInMap hidentical) ?_
        rintro ⟨d', hd', hnear⟩
        cases hd.symm.trans hd'
        exact hfar hnear
    · exact .small hlarge
  · refine ⟨some existing, ?_, toFinmap_update map burst existing num⟩
    have hmem := mem_keys_toFinmap.mpr hadds.mem
    rcases hfound with hfound | hfound
    · exact .similar hadds.large hmem (findUltraSimilarFrom_eq_some hfound).2
    · have hsimilar := not_similar_of_findUltraSimilarBurst hfound
      obtain ⟨d, hd, hnear | ⟨hidentical, hnear⟩⟩ := hadds.near
      · exact absurd ⟨d, hd, hnear⟩ (hsimilar existing hmem)
      · exact .identical hadds.large hsimilar hmem
          (identicalKeys_of_findItenticalKeysInMap hidentical) ⟨d, hd, hnear⟩

/-! ## Runs with choices -/

/-- A state of `MergeIdenticalKeys`: the map, and the entries that are still to be merged. -/
structure Pending where
  map : Counts
  rest : Finset (BurstPtr × ℕ)

namespace Pending

/-- An entry may be the next one: none that is left has a larger count, and the map is not full. -/
structure Next (s : Pending) (e : BurstPtr × ℕ) : Prop where
  mem : e ∈ s.rest
  largest : ∀ f ∈ s.rest, toInt f.2 ≤ toInt e.2
  room : s.map.keys.card ≤ 1000

/-- The state once an entry has been merged. -/
def after (s : Pending) (e : BurstPtr × ℕ) (t : Option BurstPtr) : Pending :=
  ⟨add s.map e t, s.rest.erase e⟩

/-- Nothing is left open: the next entry has one way to go, and if there are two with the same
count, inserting one of them leaves room for the other one and the ways that it has. -/
structure Settled (F : Type) [Field F] [LinearOrder F] [Elementary F] (s : Pending) : Prop where
  one : ∀ e, s.Next e → ∀ t t', Goes F s.map.keys e.1 t → Goes F s.map.keys e.1 t' → t = t'
  tied : ∀ e f, s.Next e → s.Next f → e ≠ f → Goes F s.map.keys e.1 none →
    ∀ t, Goes F s.map.keys f.1 t → s.map.keys.card < 1000 ∧ Goes F (insert e.1 s.map.keys) f.1 t

end Pending

/-- The next entry is merged in one of the ways. -/
inductive MergeStep (F : Type) [Field F] [LinearOrder F] [Elementary F] : Pending → Pending → Prop
  | merge {s : Pending} {e : BurstPtr × ℕ} {t : Option BurstPtr} (hnext : s.Next e)
      (hgoes : Goes F s.map.keys e.1 t) : MergeStep F s (s.after e t)

/-- The state before the loop. -/
def start (input : UnorderedMap BurstPtr ℕ) : Pending :=
  ⟨∅, (input.entries.map fun e => (e.1, e.2)).toFinset⟩

theorem toFinset_byCount (lib : StdLib) (input : UnorderedMap BurstPtr ℕ) :
    (byCount lib input).toFinset = (start input).rest :=
  List.toFinset_eq_of_perm _ _ ((byCount_perm lib input).trans (lib.iterate_perm input))

/-- **The loop of `MergeIdenticalKeys` is a run to a final state**, whatever the traversals. -/
theorem exists_run_of_mergeKeys {l : List (BurstPtr × ℕ)} {map map' : UnorderedMap BurstPtr ℕ}
    (hsorted : l.Pairwise fun a b => toInt b.2 ≤ toInt a.2) (hnodup : l.Nodup)
    (h : mergeKeys F lib l map = .ok map') :
    ∃ rest, ReflTransGen (MergeStep F) ⟨map.toFinmap, l.toFinset⟩ ⟨map'.toFinmap, rest⟩ ∧
      Confluence.Final (MergeStep F) ⟨map'.toFinmap, rest⟩ := by
  induction l generalizing map with
  | nil =>
    cases h
    refine ⟨_, .refl, ?_⟩
    rintro s' ⟨hnext, -⟩
    exact absurd hnext.mem (Finset.notMem_empty _)
  | cons e rest ih =>
    rw [mergeKeys] at h
    split_ifs at h with hfull
    · cases h
      refine ⟨_, .refl, ?_⟩
      rintro s' ⟨hnext, -⟩
      have hroom := hnext.room
      rw [card_keys_toFinmap] at hroom
      exact absurd hfull (not_lt.mpr hroom)
    · obtain ⟨map₁, hmerge, h⟩ := CheckedLoop.bind_eq_ok.mp h
      obtain ⟨t, hgoes, hadd⟩ := mergeKey_goes hmerge
      obtain ⟨left, hrun, hfinal⟩ := ih hsorted.of_cons (List.nodup_cons.mp hnodup).2 h
      refine ⟨left, .head ?_ hrun, hfinal⟩
      have hnext : Pending.Next ⟨map.toFinmap, (e :: rest).toFinset⟩ e := by
        refine ⟨by simp, fun f hf => ?_, by rw [card_keys_toFinmap]; exact not_lt.mp hfull⟩
        rcases List.mem_cons.mp (List.mem_toFinset.mp hf) with rfl | hf
        · exact le_refl _
        · exact List.rel_of_pairwise_cons hsorted hf
      have hstep := MergeStep.merge hnext hgoes
      rw [Pending.after, ← hadd] at hstep
      dsimp only at hstep
      have hrest : (e :: rest).toFinset.erase e = rest.toFinset := by
        rw [List.toFinset_cons, Finset.erase_insert]
        exact fun he => (List.nodup_cons.mp hnodup).1 (List.mem_toFinset.mp he)
      rwa [hrest] at hstep

theorem exists_run_of_mergeIdenticalKeys {input map : UnorderedMap BurstPtr ℕ}
    (h : mergeIdenticalKeys F lib input = .ok map) :
    ∃ rest, ReflTransGen (MergeStep F) (start input) ⟨map.toFinmap, rest⟩ ∧
      Confluence.Final (MergeStep F) ⟨map.toFinmap, rest⟩ := by
  have hrun := exists_run_of_mergeKeys (pairwise_byCount lib input)
    ((nodup_byCount_keys lib input).of_map Prod.fst) h
  rwa [toFinset_byCount] at hrun

/-! ## What the steps keep -/

namespace Pending

/-- What holds in every state: the entries that are left are those of the input that are not in the
map. -/
structure Proper (input : UnorderedMap BurstPtr ℕ) (s : Pending) : Prop where
  keys : ∀ b ∈ s.map.keys, b ∈ input
  rest : ∀ e ∈ s.rest, input.lookup e.1 = some e.2
  fresh : ∀ e ∈ s.rest, e.1 ∉ s.map.keys

theorem proper_start (input : UnorderedMap BurstPtr ℕ) : (start input).Proper input where
  keys := fun b hb => absurd hb (Finset.notMem_empty b)
  rest := fun e he => by
    have hmem := List.mem_toFinset.mp he
    exact (StdLib.insertion.mem_iterate (m := input)).mp hmem
  fresh := fun _ _ => Finset.notMem_empty _

/-- A key of the map after a step is one of before, or the burst that was merged. -/
theorem mem_keys_after {s : Pending} {e : BurstPtr × ℕ} {t : Option BurstPtr}
    (hgoes : Goes F s.map.keys e.1 t) {b : BurstPtr} (hb : b ∈ (s.after e t).map.keys) :
    b = e.1 ∨ b ∈ s.map.keys := by
  cases t with
  | none =>
    rw [after, keys_add_none] at hb
    exact Finset.mem_insert.mp hb
  | some x =>
    rw [after, keys_add_some hgoes.mem] at hb
    exact Or.inr hb

/-- The entries that are left have different bursts. -/
theorem Proper.ne_of_mem_after {input : UnorderedMap BurstPtr ℕ} {s : Pending}
    (h : s.Proper input) {e f : BurstPtr × ℕ} (he : e ∈ s.rest) (hf : f ∈ s.rest) (hne : e ≠ f) :
    e.1 ≠ f.1 := by
  intro heq
  have hlook := h.rest e he
  rw [heq, h.rest f hf] at hlook
  exact hne (Prod.ext heq (Option.some_inj.mp hlook).symm)

theorem Proper.step {input : UnorderedMap BurstPtr ℕ} (s s' : Pending) (h : s.Proper input)
    (hstep : MergeStep F s s') : s'.Proper input := by
  cases hstep with | @merge e t hnext hgoes => ?_
  refine ⟨fun b hb => ?_, fun f hf => h.rest f (Finset.mem_of_mem_erase hf), fun f hf hb => ?_⟩
  · rcases mem_keys_after hgoes hb with rfl | hb
    · exact UnorderedMap.mem_of_lookup (h.rest e hnext.mem)
    · exact h.keys b hb
  · obtain ⟨hne, hf⟩ := Finset.mem_erase.mp hf
    rcases mem_keys_after hgoes hb with heq | hb
    · exact h.ne_of_mem_after hf hnext.mem hne heq
    · exact h.fresh f hf hb

theorem proper_of_reachable {input : UnorderedMap BurstPtr ℕ} {s : Pending}
    (h : ReflTransGen (MergeStep F) (start input) s) : s.Proper input :=
  Confluence.keeps Proper.step h (proper_start input)

end Pending

/-! ## Settled states -/

/-- After one entry has been merged, another one with the same count goes the way that it had. -/
theorem MergeStep.other {s : Pending} (h : s.Settled F) {e f : BurstPtr × ℕ}
    {t u : Option BurstPtr} (he : s.Next e) (hf : s.Next f) (hne : e ≠ f)
    (ht : Goes F s.map.keys e.1 t) (hu : Goes F s.map.keys f.1 u) :
    MergeStep F (s.after e t) ((s.after e t).after f u) := by
  have hmem : f ∈ (s.after e t).rest := Finset.mem_erase.mpr ⟨Ne.symm hne, hf.mem⟩
  have hlargest : ∀ g ∈ (s.after e t).rest, toInt g.2 ≤ toInt f.2 := fun g hg =>
    hf.largest g (Finset.mem_of_mem_erase hg)
  cases t with
  | none =>
    obtain ⟨hroom, hgoes⟩ := h.tied e f he hf hne ht u hu
    have hkeys : (s.after e none).map.keys = insert e.1 s.map.keys := keys_add_none s.map e
    refine .merge ⟨hmem, hlargest, ?_⟩ (by rwa [hkeys])
    rw [hkeys]
    exact (Finset.card_insert_le _ _).trans hroom
  | some x =>
    have hkeys : (s.after e (some x)).map.keys = s.map.keys := keys_add_some ht.mem e
    exact .merge ⟨hmem, hlargest, by rw [hkeys]; exact hf.room⟩ (by rwa [hkeys])

/-- **Two steps from a settled state** lead to the same state, or commute. -/
theorem diamond_of_settled {input : UnorderedMap BurstPtr ℕ} {s b c : Pending}
    (hproper : s.Proper input) (h : s.Settled F) (hb : MergeStep F s b) (hc : MergeStep F s c) :
    b = c ∨ ∃ d, MergeStep F b d ∧ MergeStep F c d := by
  cases hb with | @merge e t he ht => ?_
  cases hc with | @merge f u hf hu => ?_
  by_cases hne : e = f
  · rw [← hne] at hu ⊢
    exact Or.inl (by rw [h.one e he t u ht hu])
  · refine Or.inr ⟨(s.after e t).after f u, .other h he hf hne ht hu, ?_⟩
    have hfst : e.1 ≠ f.1 := hproper.ne_of_mem_after he.mem hf.mem hne
    have hswap : (s.after e t).after f u = (s.after f u).after e t := by
      rw [Pending.after, Pending.after, Pending.after, Pending.after, Finset.erase_right_comm,
        add_comm hfst (fun b hb => (hb ▸ ht).mem) (fun b hb => (hb ▸ hu).mem)]
    rw [hswap]
    exact .other h hf he (Ne.symm hne) hu ht

/-- Every state that merging can reach is settled. -/
def Determined (F : Type) [Field F] [LinearOrder F] [Elementary F]
    (input : UnorderedMap BurstPtr ℕ) : Prop :=
  ∀ s, ReflTransGen (MergeStep F) (start input) s → s.Settled F

/-- **Where every state is settled**, the result does not depend on the traversals. -/
theorem toFinmap_eq_of_determined {lib lib' : StdLib} {input map map' : UnorderedMap BurstPtr ℕ}
    (h : Determined F input) (hrun : mergeIdenticalKeys F lib input = .ok map)
    (hrun' : mergeIdenticalKeys F lib' input = .ok map') : map.toFinmap = map'.toFinmap := by
  obtain ⟨rest, hreach, hfinal⟩ := exists_run_of_mergeIdenticalKeys hrun
  obtain ⟨rest', hreach', hfinal'⟩ := exists_run_of_mergeIdenticalKeys hrun'
  have hdiamond : Confluence.Diamond (MergeStep F) (start input) := fun a b c ha hb hc =>
    diamond_of_settled (Pending.proper_of_reachable ha) (h a ha) hb hc
  exact congrArg Pending.map (Confluence.final_unique hdiamond hreach hfinal hreach' hfinal')

end Steps

end Merging
end BurstIoT
