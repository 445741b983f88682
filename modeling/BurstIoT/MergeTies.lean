import BurstIoT.MergeChoices
import BurstIoT.StrictMerging

/-!
# Open choices show in the result

A choice that merging leaves open is never made up for.  A burst that is not inserted when it is
merged never becomes a key (`Pending.Spent`), and a key is never lost.  And since the steps look at
the keys only, two states with the same keys can take the same steps from then on, so that the count
of a key that differs goes on to differ.

So if all runs to a final state leave the same map, every state is settled (`settled_of_unique`).
This is so for what `MergeStrictHash` leaves, where every count is positive (`Distinct`).
-/

namespace BurstIoT
namespace Merging

open Relation (ReflTransGen)
open Confluence (Final)

/-- As `MergeStrictHash` leaves the bursts: with positive counts, and no two that are equal. -/
structure Distinct (input : UnorderedMap BurstPtr ℕ) : Prop where
  pos : ∀ b n, input.lookup b = some n → 0 < n
  apart : ∀ b ∈ input, ∀ b' ∈ input, b.burst.same b'.burst = true → b = b'

/-- **What `MergeStrictHash` leaves** has positive counts and no two equal bursts. -/
theorem distinct_mergeStrictHash (lib : StdLib) (burstGroups : List BurstBlock) :
    Distinct (mergeStrictHash lib burstGroups) where
  pos := fun b n hlook => by
    have hfind := mem_mergeStrictHash.mp (UnorderedMap.mem_of_lookup hlook)
    rw [lookup_mergeStrictHash, if_pos hfind, Option.some_inj] at hlook
    rw [← hlook, List.countP_pos_iff]
    exact ⟨b, List.mem_of_find?_eq_some hfind, beq_self_eq_true _⟩
  apart := fun b hb b' hb' hsame => by
    have hhash : sameHash lib b b' = true :=
      beq_iff_eq.mpr (Burst.hash_eq_of_same lib hsame).symm
    have hfind := mem_mergeStrictHash.mp hb
    rw [sameHash_congr hhash] at hfind
    exact Option.some_inj.mp (hfind.symm.trans (mem_mergeStrictHash.mp hb'))

variable {F : Type} [Field F] [LinearOrder F] [Elementary F]

/-! ## Every burst has a way to go -/

theorem exists_goes (F : Type) [Field F] [LinearOrder F] [Elementary F] (keys : Finset BurstPtr)
    (burst : BurstPtr) : ∃ t, Goes F keys burst t := by
  by_cases hlarge : Large burst.burst
  · by_cases hsimilar : ∃ b ∈ keys, Similar F b.burst burst.burst
    · obtain ⟨b, hmem, hb⟩ := hsimilar
      exact ⟨_, .similar hlarge hmem hb⟩
    · have hsimilar : ∀ b ∈ keys, ¬ Similar F b.burst burst.burst := fun b hmem hb =>
        hsimilar ⟨b, hmem, hb⟩
      by_cases hidentical : ∃ b ∈ keys, identicalKeys b.burst burst.burst = true
      · obtain ⟨b, hmem, hb⟩ := hidentical
        by_cases hnear : Near F b.burst burst.burst
        · exact ⟨_, .identical hlarge hsimilar hmem hb hnear⟩
        · exact ⟨_, .far hlarge hsimilar hmem hb hnear⟩
      · refine ⟨none, .alone hlarge hsimilar fun b hmem => Bool.eq_false_iff.mpr fun hb => ?_⟩
        exact hidentical ⟨b, hmem, hb⟩
  · exact ⟨none, .small hlarge⟩

namespace Pending

/-- A run ends when all entries are merged, or the map is full. -/
theorem full_of_final {s : Pending} (h : Final (MergeStep F) s) (hne : s.rest.Nonempty) :
    1000 < s.map.keys.card := by
  by_contra hroom
  obtain ⟨e, he, hlargest⟩ := s.rest.exists_max_image (fun e => toInt e.2) hne
  obtain ⟨t, ht⟩ := exists_goes F s.map.keys e.1
  exact h _ (.merge ⟨he, hlargest, Nat.not_lt.mp hroom⟩ ht)

theorem final_of_full {s : Pending} (h : 1000 < s.map.keys.card) : Final (MergeStep F) s := by
  rintro s' ⟨hnext, -⟩
  exact absurd hnext.room (Nat.not_le.mpr h)

theorem exists_final (s : Pending) :
    ∃ s', ReflTransGen (MergeStep F) s s' ∧ Final (MergeStep F) s' := by
  refine Confluence.exists_final (μ := fun s => s.rest.card) (fun s s' hstep => ?_) s
  cases hstep with | merge hnext _ => exact Finset.card_erase_lt_of_mem hnext.mem

/-! ## What the steps keep -/

/-- A key is not lost. -/
theorem mem_keys_step {b : BurstPtr} (s s' : Pending) (hb : b ∈ s.map.keys)
    (hstep : MergeStep F s s') : b ∈ s'.map.keys := by
  cases hstep with | @merge e t _ hgoes => ?_
  cases t with
  | none =>
    rw [after, keys_add_none]
    exact Finset.mem_insert_of_mem hb
  | some x => rwa [after, keys_add_some hgoes.mem]

/-- A burst that has been merged without being inserted. -/
structure Spent (b : BurstPtr) (s : Pending) : Prop where
  keys : b ∉ s.map.keys
  rest : ∀ e ∈ s.rest, b ≠ e.1

/-- **A burst that is not inserted never becomes a key.** -/
theorem Spent.step {b : BurstPtr} (s s' : Pending) (h : s.Spent b) (hstep : MergeStep F s s') :
    s'.Spent b := by
  cases hstep with | merge hnext hgoes => ?_
  refine ⟨fun hb => ?_, fun f hf => h.rest f (Finset.mem_of_mem_erase hf)⟩
  exact (mem_keys_after hgoes hb).elim (h.rest _ hnext.mem) h.keys

/-- Two states that differ in the count of a key, with the same keys and the same entries left. -/
structure Miscounts (x : BurstPtr) (s s' : Pending) : Prop where
  keys : s.map.keys = s'.map.keys
  rest : s.rest = s'.rest
  count : ∃ m n, s.map.lookup x = some m ∧ s'.map.lookup x = some n ∧ m ≠ n

theorem Miscounts.next {x : BurstPtr} {s s' : Pending} (h : Miscounts x s s') {e : BurstPtr × ℕ}
    (hnext : s.Next e) : s'.Next e where
  mem := h.rest ▸ hnext.mem
  largest := h.rest ▸ hnext.largest
  room := h.keys ▸ hnext.room

/-- **The same step** keeps the difference. -/
theorem Miscounts.step {x : BurstPtr} (s s' s₁ : Pending) (h : Miscounts x s s')
    (hstep : MergeStep F s s₁) : ∃ s₁', MergeStep F s' s₁' ∧ Miscounts x s₁ s₁' := by
  cases hstep with | @merge e t hnext hgoes => ?_
  have hgoes' : Goes F s'.map.keys e.1 t := h.keys ▸ hgoes
  refine ⟨s'.after e t, .merge (h.next hnext) hgoes', ?_, ?_, ?_⟩
  · cases t with
    | none => rw [after, after, keys_add_none, keys_add_none, h.keys]
    | some b => rw [after, after, keys_add_some hgoes.mem, keys_add_some hgoes'.mem, h.keys]
  · rw [after, after, h.rest]
  · obtain ⟨m, n, hm, hn, hne⟩ := h.count
    simp only [after, lookup_add, hm, hn]
    cases t with
    | none => exact ⟨m, n, by rw [bump]; split_ifs <;> rfl, by rw [bump]; split_ifs <;> rfl, hne⟩
    | some b =>
      rw [bump, bump]
      split_ifs
      · exact ⟨m + e.2, n + e.2, rfl, rfl, fun h => hne (Nat.add_right_cancel h)⟩
      · exact ⟨m, n, rfl, rfl, hne⟩

theorem Miscounts.final {x : BurstPtr} {s s' : Pending} (h : Miscounts x s s')
    (hfinal : Final (MergeStep F) s) : Final (MergeStep F) s' := by
  obtain ⟨m, n, hm, hn, hne⟩ := h.count
  have hsymm : Miscounts x s' s := ⟨h.keys.symm, h.rest.symm, n, m, hn, hm, hne.symm⟩
  intro s₁ hstep
  obtain ⟨s₁', hstep', -⟩ := hsymm.step s' s s₁ hstep
  exact hfinal s₁' hstep'

end Pending

/-! ## Open choices -/

/-- All runs to a final state leave the same map. -/
def Unique (F : Type) [Field F] [LinearOrder F] [Elementary F]
    (input : UnorderedMap BurstPtr ℕ) : Prop :=
  ∀ s s', ReflTransGen (MergeStep F) (start input) s → Final (MergeStep F) s →
    ReflTransGen (MergeStep F) (start input) s' → Final (MergeStep F) s' → s.map = s'.map

namespace Unique

variable {input : UnorderedMap BurstPtr ℕ} {s s' : Pending}

/-- No burst is a key in one run, and spent in another. -/
theorem not_spent (h : Unique F input) (hs : ReflTransGen (MergeStep F) (start input) s)
    (hs' : ReflTransGen (MergeStep F) (start input) s') {b : BurstPtr} (hb : b ∈ s.map.keys) :
    ¬ s'.Spent b := by
  intro hspent
  obtain ⟨r, hr, hfinal⟩ := s.exists_final (F := F)
  obtain ⟨r', hr', hfinal'⟩ := s'.exists_final (F := F)
  have hmem : b ∈ r.map.keys := Confluence.keeps Pending.mem_keys_step hr hb
  have hspent' : r'.Spent b := Confluence.keeps Pending.Spent.step hr' hspent
  rw [h r r' (hs.trans hr) hfinal (hs'.trans hr') hfinal'] at hmem
  exact hspent'.keys hmem

/-- No key has different counts in two runs that are the same otherwise. -/
theorem not_miscounts (h : Unique F input) (hs : ReflTransGen (MergeStep F) (start input) s)
    (hs' : ReflTransGen (MergeStep F) (start input) s') (x : BurstPtr) :
    ¬ Pending.Miscounts x s s' := by
  intro hdiff
  obtain ⟨r, hr, hfinal⟩ := s.exists_final (F := F)
  obtain ⟨r', hr', hdiff'⟩ := Confluence.run_of_lockstep Pending.Miscounts.step hr hdiff
  obtain ⟨m, n, hm, hn, hne⟩ := hdiff'.count
  rw [h r r' (hs.trans hr) hfinal (hs'.trans hr') (hdiff'.final hfinal), hn] at hm
  exact hne (Option.some_inj.mp hm).symm

end Unique

namespace Pending

variable {input : UnorderedMap BurstPtr ℕ} {s : Pending}

/-- A burst whose count went to a key is spent. -/
theorem Proper.spent_after (h : s.Proper input) {e : BurstPtr × ℕ} (he : e ∈ s.rest) {x : BurstPtr}
    (hx : x ∈ s.map.keys) : (s.after e (some x)).Spent e.1 where
  keys := by
    rw [after, keys_add_some hx]
    exact h.fresh e he
  rest := fun f hf => by
    obtain ⟨hne, hf⟩ := Finset.mem_erase.mp hf
    exact h.ne_of_mem_after he hf (Ne.symm hne)

/-- A count that goes to one of two keys. -/
theorem miscounts_after {s : Pending} {e : BurstPtr × ℕ} (hpos : 0 < e.2) {x y : BurstPtr}
    (hx : x ∈ s.map.keys) (hy : y ∈ s.map.keys) (hne : x ≠ y) :
    Miscounts x (s.after e (some x)) (s.after e (some y)) where
  keys := by rw [after, after, keys_add_some hx, keys_add_some hy]
  rest := rfl
  count := by
    obtain ⟨n, hn⟩ := Finmap.mem_iff.mp (Finmap.mem_keys.mp hx)
    refine ⟨n + e.2, n, ?_, ?_, by omega⟩
    · simp only [after, lookup_add, bump, hn, if_true, Option.getD_some]
    · simp only [after, lookup_add, bump, hn, if_neg hne]

theorem mem_keys_after_none (s : Pending) (e : BurstPtr × ℕ) :
    e.1 ∈ (s.after e none).map.keys := by
  rw [after, keys_add_none]
  exact Finset.mem_insert_self _ _

theorem card_keys_after_none (h : s.Proper input) {e : BurstPtr × ℕ} (he : e ∈ s.rest) :
    (s.after e none).map.keys.card = s.map.keys.card + 1 := by
  rw [after, keys_add_none, Finset.card_insert_of_notMem (h.fresh e he)]

/-- An entry that might have been the next one still may, if the map is not full. -/
theorem Next.after {e f : BurstPtr × ℕ} (hf : s.Next f) (hne : f ≠ e) {t : Option BurstPtr}
    (hroom : (s.after e t).map.keys.card ≤ 1000) : (s.after e t).Next f where
  mem := Finset.mem_erase.mpr ⟨hne, hf.mem⟩
  largest := fun g hg => hf.largest g (Finset.mem_of_mem_erase hg)
  room := hroom

end Pending

section Settled

variable {input : UnorderedMap BurstPtr ℕ} {s : Pending} (hdistinct : Distinct input)
  (hunique : Unique F input) (hs : ReflTransGen (MergeStep F) (start input) s)

include hdistinct hunique hs

/-- **Two ways to go** lead to different results: one inserts the burst and the other one does not,
or the count goes to different keys. -/
theorem one_of_unique {e : BurstPtr × ℕ} (hnext : s.Next e) {t t' : Option BurstPtr}
    (ht : Goes F s.map.keys e.1 t) (ht' : Goes F s.map.keys e.1 t') : t = t' := by
  have hproper := Pending.proper_of_reachable hs
  have hrun := hs.tail (.merge hnext ht)
  have hrun' := hs.tail (.merge hnext ht')
  cases t with
  | none =>
    cases t' with
    | none => rfl
    | some y =>
      exact absurd (hproper.spent_after hnext.mem ht'.mem)
        (hunique.not_spent hrun hrun' (s.mem_keys_after_none e))
  | some x =>
    cases t' with
    | none =>
      exact absurd (hproper.spent_after hnext.mem ht.mem)
        (hunique.not_spent hrun' hrun (s.mem_keys_after_none e))
    | some y =>
      by_contra hne
      have hpos : 0 < e.2 := hdistinct.pos e.1 e.2 (hproper.rest e hnext.mem)
      have hkeys : x ≠ y := fun heq => hne (congrArg some heq)
      exact hunique.not_miscounts hrun hrun' x
        (Pending.miscounts_after hpos ht.mem ht'.mem hkeys)

/-- **A map that the first of two entries fills** does not take the second one. -/
theorem card_lt_of_unique {e f : BurstPtr × ℕ} (he : s.Next e) (hf : s.Next f) (hne : e ≠ f)
    (hinsert : Goes F s.map.keys e.1 none) {t : Option BurstPtr}
    (ht : Goes F s.map.keys f.1 t) : s.map.keys.card < 1000 := by
  have hproper := Pending.proper_of_reachable hs
  by_contra hfull
  have hcard : s.map.keys.card = 1000 := le_antisymm he.room (Nat.not_lt.mp hfull)
  have hrun := hs.tail (.merge he hinsert)
  have hfinal : Final (MergeStep F) (s.after e none) :=
    Pending.final_of_full (by rw [Pending.card_keys_after_none hproper he.mem, hcard]; decide)
  have hrun' := hs.tail (.merge hf ht)
  cases t with
  | none =>
    -- whichever is inserted first fills the map
    have hfinal' : Final (MergeStep F) (s.after f none) :=
      Pending.final_of_full (by rw [Pending.card_keys_after_none hproper hf.mem, hcard]; decide)
    have hmem := s.mem_keys_after_none e
    rw [hunique _ _ hrun hfinal hrun' hfinal'] at hmem
    rcases Pending.mem_keys_after ht hmem with heq | hkey
    · exact hproper.ne_of_mem_after he.mem hf.mem hne heq
    · exact hproper.fresh e he.mem hkey
  | some y =>
    -- the second entry is counted only if it comes first
    have hkeys : (s.after f (some y)).map.keys = s.map.keys := keys_add_some ht.mem f
    have hproper' := Pending.proper_of_reachable hrun'
    have hnext : (s.after f (some y)).Next e :=
      he.after hne (by rw [hkeys]; exact he.room)
    have hlast := hrun'.tail (.merge hnext (hkeys ▸ hinsert))
    have hfinal' : Final (MergeStep F) ((s.after f (some y)).after e none) :=
      Pending.final_of_full (by
        rw [Pending.card_keys_after_none hproper' hnext.mem, hkeys, hcard]
        decide)
    obtain ⟨n, hn⟩ := Finmap.mem_iff.mp (Finmap.mem_keys.mp ht.mem)
    have hye : y ≠ e.1 := fun heq => hproper.fresh e he.mem (heq ▸ ht.mem)
    have hlook := congrArg (Finmap.lookup y) (hunique _ _ hrun hfinal hlast hfinal')
    simp only [Pending.after, lookup_add, bump, if_neg hye, if_true, hn, Option.getD_some,
      Option.some_inj] at hlook
    have hpos : 0 < f.2 := hdistinct.pos f.1 f.2 (hproper.rest f hf.mem)
    omega

/-- **The second of two entries** goes where it goes without the first one. -/
theorem goes_of_unique {e f : BurstPtr × ℕ} (he : s.Next e) (hf : s.Next f) (hne : e ≠ f)
    (hinsert : Goes F s.map.keys e.1 none) {t : Option BurstPtr}
    (ht : Goes F s.map.keys f.1 t) : Goes F (insert e.1 s.map.keys) f.1 t := by
  have hproper := Pending.proper_of_reachable hs
  have hroom := card_lt_of_unique hdistinct hunique hs he hf hne hinsert ht
  have hrun := hs.tail (.merge he hinsert)
  have hkeys : (s.after e none).map.keys = insert e.1 s.map.keys := keys_add_none s.map e
  have hnext : (s.after e none).Next f := hf.after hne.symm
    (by rw [Pending.card_keys_after_none hproper he.mem]; omega)
  obtain ⟨t', ht'⟩ := exists_goes F (s.after e none).map.keys f.1
  have hrun' := hrun.tail (.merge hnext ht')
  have hproper₁ := Pending.proper_of_reachable hrun
  -- the runs in which `f` comes first
  have hfirst := hs.tail (.merge hf ht)
  cases t with
  | none =>
    cases t' with
    | none => exact hkeys ▸ ht'
    | some z =>
      exact absurd (hproper₁.spent_after hnext.mem ht'.mem)
        (hunique.not_spent hfirst hrun' (s.mem_keys_after_none f))
  | some y =>
    have hsame : (s.after f (some y)).map.keys = s.map.keys := keys_add_some ht.mem f
    have hnext' : (s.after f (some y)).Next e := he.after hne (by rw [hsame]; exact he.room)
    have hinsert' : Goes F (s.after f (some y)).map.keys e.1 none := hsame ▸ hinsert
    have hboth := hfirst.tail (.merge hnext' hinsert')
    cases t' with
    | none =>
      have hspent := hproper.spent_after hf.mem ht.mem
      exact absurd (Pending.Spent.step _ _ hspent (.merge hnext' hinsert'))
        (hunique.not_spent hrun' hboth ((s.after e none).mem_keys_after_none f))
    | some z =>
      by_cases hyz : y = z
      · rw [hyz]
        exact hkeys ▸ ht'
      · refine absurd ?_ (hunique.not_miscounts hrun' hboth y)
        obtain ⟨n, hn⟩ := Finmap.mem_iff.mp (Finmap.mem_keys.mp ht.mem)
        have hye : y ≠ e.1 := fun heq => hproper.fresh e he.mem (heq ▸ ht.mem)
        have hpos : 0 < f.2 := hdistinct.pos f.1 f.2 (hproper.rest f hf.mem)
        refine ⟨?_, Finset.erase_right_comm, n, n + f.2, ?_, ?_, by omega⟩
        · rw [Pending.after, keys_add_some ht'.mem, hkeys, Pending.after, keys_add_none, hsame]
        · simp only [Pending.after, lookup_add, bump, if_neg hye, if_neg hyz, hn]
        · simp only [Pending.after, lookup_add, bump, if_neg hye, if_true, hn, Option.getD_some]

/-- **If all runs leave the same map, every state is settled.** -/
theorem settled_of_unique : s.Settled F where
  one := fun _ hnext _ _ ht ht' => one_of_unique hdistinct hunique hs hnext ht ht'
  tied := fun _ _ he hf hne hinsert _ ht =>
    ⟨card_lt_of_unique hdistinct hunique hs he hf hne hinsert ht,
      goes_of_unique hdistinct hunique hs he hf hne hinsert ht⟩

end Settled

end Merging
end BurstIoT
