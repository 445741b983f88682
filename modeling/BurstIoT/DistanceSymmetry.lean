import BurstIoT.DistanceBounds
import BurstIoT.Library.Frequencies

/-!
# The distance is symmetric

Over the reals, `Distance` of two well-formed bursts is a function of the multisets of their
signatures (`distance_eq`): within the cut-off, the square root of the gap between the two
distributions, scaled by the ratio of the lengths.

The first loop meets the entries of one burst and flags, in `arr_blk2_check`, the entries of the
other that have the same signature.  As signatures are distinct, an entry is flagged exactly when
its signature has been met (`Matched`), so an iteration adds the squared difference of the square
roots of the two frequencies, also where the other frequency is zero (`addEntry_ok`).  The second
loop is left with the signatures that only the other burst has (`leftCount_eq`).

The gap is symmetric and zero only for proportional counts, hence so is the distance within the
cut-off (`distance_symm_separates_iff`).  A burst that is too long for the cut-off is at distance
one even from itself.
-/

namespace BurstIoT
namespace Burst

open Frequencies

/-! ## Frequencies of signatures -/

theorem WellFormed.freq_eq {b : Burst} (h : b.WellFormed) {sig : Int16} {cnt : ℕ}
    (hmem : (sig, cnt) ∈ b.packetDetail) : freq b.sigs sig = (cnt : ℝ) / b.pktNum := by
  rw [freq, h.card_sigs, sigs, Tally.count_total_of_mem h.nodup hmem]

theorem WellFormed.sigs_ne_zero {b : Burst} (h : b.WellFormed) (hpkt : 1 ≤ b.pktNum) :
    b.sigs ≠ 0 := by
  rw [← Multiset.card_pos, h.card_sigs]
  exact hpkt

/-- A sum over the signatures is a sum over the entries. -/
theorem WellFormed.sum_sigs {b : Burst} (h : b.WellFormed) (g : Int16 → ℝ) :
    ∑ sig ∈ b.sigs.toFinset, g sig = (b.packetDetail.map fun e => g e.1).sum := by
  rw [h.toFinset_sigs, List.sum_toFinset _ h.nodup, List.map_map]
  rfl

/-! ## The first loop -/

/-- What an iteration of the first loop does with the entry it reads. -/
noncomputable def addEntry (b burst2 : Burst) (s : List Bool × ℝ) (e : Int16 × ℕ) :
    Except Fault (List Bool × ℝ) := do
  let found ← findMatch s.1 e.1 burst2.packetDetail (List.range burst2.uniPktNum.toNat)
  match found with
  | some (j, cnt2) =>
    return (s.1.set j true, s.2 + (Real.sqrt ((e.2 : ℝ) / b.pktNum) -
      Real.sqrt ((cnt2 : ℝ) / burst2.pktNum)) ^ 2)
  | none => return (s.1, s.2 + (e.2 : ℝ) / b.pktNum)

/-- A loop over the positions of a vector is a loop over its elements. -/
theorem foldlM_range_at? {α σ : Type} (v : List α) (f : σ → α → Except Fault σ) (s : σ) :
    (List.range v.length).foldlM (fun s i => at? v i >>= f s) s = v.foldlM f s := by
  induction v using List.reverseRecOn with
  | nil => rfl
  | append_singleton v a ih =>
    have hinit : ∀ i ∈ List.range v.length, ∀ s : σ,
        (at? (v ++ [a]) i >>= f s) = (at? v i >>= f s) := by
      intro i hi s
      rw [at?, at?, List.getElem?_append_left (List.mem_range.mp hi)]
    have hlast : at? (v ++ [a]) v.length = .ok a := by
      rw [at?_eq_ok, List.getElem?_concat_length]
    rw [List.length_append, List.length_singleton, List.range_succ, List.foldlM_append,
      List.foldlM_append, CheckedLoop.foldlM_congr _ s hinit, ih]
    congr 1
    funext s
    rw [List.foldlM_cons, List.foldlM_cons, hlast]
    rfl

theorem foldlM_addSigDistance {b : Burst} (hb : b.Counted) (burst2 : Burst) (s : List Bool × ℝ) :
    (List.range b.uniPktNum.toNat).foldlM (addSigDistance b burst2) s =
      b.packetDetail.foldlM (addEntry b burst2) s := by
  rw [hb.uniPktNum]
  exact foldlM_range_at? b.packetDetail (addEntry b burst2) s

/-- The flags of `arr_blk2_check` once the entries `done` have been met: flagged are the entries
with their signatures. -/
structure Matched (burst2 : Burst) (done : List (Int16 × ℕ)) (check : List Bool) : Prop where
  length : check.length = 101
  taken_iff : ∀ (j : ℕ) (e : Int16 × ℕ), burst2.packetDetail[j]? = some e →
    (check[j]? = some true ↔ e.1 ∈ done.map Prod.fst)

theorem matched_nil (burst2 : Burst) : Matched burst2 [] (List.replicate 101 false) where
  length := List.length_replicate
  taken_iff j e _ := by
    rw [List.getElem?_replicate]
    constructor
    · intro h
      split_ifs at h
      cases h
    · exact fun h => absurd h List.not_mem_nil

/-- A search that finds nothing has only met entries that are taken or have another signature. -/
theorem taken_of_findMatch_eq_none {check : List Bool} {sig : Int16} {detail : List (Int16 × ℕ)}
    {l : List ℕ} (h : findMatch check sig detail l = .ok none) {j cnt : ℕ} (hj : j ∈ l)
    (hentry : detail[j]? = some (sig, cnt)) : check[j]? = some true := by
  induction l with
  | nil => exact absurd hj List.not_mem_nil
  | cons i rest ih =>
    rw [findMatch] at h
    obtain ⟨taken, htaken, h⟩ := CheckedLoop.bind_eq_ok.mp h
    cases taken with
    | true =>
      rcases List.mem_cons.mp hj with rfl | hj
      · exact at?_eq_ok.mp htaken
      · exact ih h hj
    | false =>
      obtain ⟨e, he, h⟩ := CheckedLoop.bind_eq_ok.mp h
      split_ifs at h with hsig
      · cases h
      · rcases List.mem_cons.mp hj with rfl | hj
        · cases (at?_eq_ok.mp he).symm.trans hentry
          exact absurd rfl hsig
        · exact ih h hj

/-- **The search for a signature that has not been met** finds its entry, if there is one. -/
theorem Matched.findMatch_cases {burst2 : Burst} (hburst2 : burst2.WellFormed)
    (hroom : burst2.uniPktNum.toNat ≤ 101) {done : List (Int16 × ℕ)} {check : List Bool}
    (h : Matched burst2 done check) {sig : Int16} (hnew : sig ∉ done.map Prod.fst) :
    (sig ∉ burst2.sigs ∧ findMatch check sig burst2.packetDetail
        (List.range burst2.uniPktNum.toNat) = .ok none) ∨
      ∃ j cnt2, check[j]? = some false ∧ burst2.packetDetail[j]? = some (sig, cnt2) ∧
        findMatch check sig burst2.packetDetail (List.range burst2.uniPktNum.toNat) =
          .ok (some (j, cnt2)) := by
  have hinside : ∀ j ∈ List.range burst2.uniPktNum.toNat,
      j < check.length ∧ j < burst2.packetDetail.length := by
    intro j hj
    have hj : j < burst2.uniPktNum.toNat := List.mem_range.mp hj
    exact ⟨by rw [h.length]; omega, hburst2.uniPktNum ▸ hj⟩
  obtain ⟨found, hfound⟩ := findMatch_ok sig hinside
  cases found with
  | none =>
    refine Or.inl ⟨fun hmem => ?_, hfound⟩
    obtain ⟨⟨sig, cnt2⟩, hentry, rfl⟩ := List.mem_map.mp (hburst2.mem_sigs.mp hmem)
    obtain ⟨j, hj, hget⟩ := List.getElem_of_mem hentry
    have hget : burst2.packetDetail[j]? = some (sig, cnt2) := by
      rw [List.getElem?_eq_getElem hj, hget]
    have hrange : j ∈ List.range burst2.uniPktNum.toNat := by
      rw [List.mem_range, hburst2.uniPktNum]
      exact hj
    have htaken := taken_of_findMatch_eq_none hfound hrange hget
    exact hnew ((h.taken_iff j _ hget).mp htaken)
  | some e =>
    obtain ⟨-, hcheck, hentry⟩ := findMatch_eq_some hfound
    exact Or.inr ⟨e.1, e.2, hcheck, hentry, hfound⟩

/-- Flagging the entry that was found. -/
theorem Matched.set {burst2 : Burst} (hburst2 : burst2.WellFormed) {done : List (Int16 × ℕ)}
    {check : List Bool} (h : Matched burst2 done check) {e : Int16 × ℕ} {j cnt2 : ℕ}
    (hcheck : check[j]? = some false) (hentry : burst2.packetDetail[j]? = some (e.1, cnt2)) :
    Matched burst2 (done ++ [e]) (check.set j true) where
  length := by rw [List.length_set, h.length]
  taken_iff k f hf := by
    have hlt : j < check.length := (List.getElem?_eq_some_iff.mp hcheck).1
    have hsame : f.1 = e.1 ↔ j = k := by
      constructor
      · intro hkey
        have hj : (burst2.packetDetail.map Prod.fst)[j]? = some e.1 := by
          rw [List.getElem?_map, hentry]
          rfl
        have hk : (burst2.packetDetail.map Prod.fst)[k]? = some e.1 := by
          rw [List.getElem?_map, hf, ← hkey]
          rfl
        have hbound := (List.getElem?_eq_some_iff.mp hj).1
        exact (List.getElem?_inj hbound hburst2.nodup).mp (hj.trans hk.symm)
      · rintro rfl
        have heq : f = (e.1, cnt2) := Option.some_inj.mp (hf.symm.trans hentry)
        rw [heq]
    rw [List.map_append, List.mem_append, List.map_singleton, List.mem_singleton, hsame,
      List.getElem?_set]
    by_cases hjk : j = k
    · rw [if_pos hjk, if_pos hlt]
      exact ⟨fun _ => Or.inr hjk, fun _ => rfl⟩
    · rw [if_neg hjk, or_iff_left hjk]
      exact h.taken_iff k f hf

/-- Meeting an entry whose signature the other burst does not have. -/
theorem Matched.skip {burst2 : Burst} (hburst2 : burst2.WellFormed) {done : List (Int16 × ℕ)}
    {check : List Bool} (h : Matched burst2 done check) {e : Int16 × ℕ}
    (hout : e.1 ∉ burst2.sigs) : Matched burst2 (done ++ [e]) check where
  length := h.length
  taken_iff k f hf := by
    have hne : f.1 ≠ e.1 := by
      intro heq
      exact hout (hburst2.mem_sigs.mpr (heq ▸ List.mem_map_of_mem (List.mem_of_getElem? hf)))
    rw [List.map_append, List.mem_append, List.map_singleton, List.mem_singleton,
      or_iff_left hne]
    exact h.taken_iff k f hf

/-- **One iteration of the first loop** adds the squared difference of the square roots of the two
frequencies. -/
theorem addEntry_ok {b burst2 : Burst} (hb : b.WellFormed) (hburst2 : burst2.WellFormed)
    (hroom : burst2.uniPktNum.toNat ≤ 101) {done : List (Int16 × ℕ)} {s : List Bool × ℝ}
    (h : Matched burst2 done s.1) {e : Int16 × ℕ} (he : e ∈ b.packetDetail)
    (hnew : e.1 ∉ done.map Prod.fst) :
    ∃ check, addEntry b burst2 s e = .ok (check, s.2 +
        (Real.sqrt (freq b.sigs e.1) - Real.sqrt (freq burst2.sigs e.1)) ^ 2) ∧
      Matched burst2 (done ++ [e]) check := by
  have hfreq : freq b.sigs e.1 = (e.2 : ℝ) / b.pktNum := hb.freq_eq he
  rcases h.findMatch_cases hburst2 hroom hnew with
    ⟨hout, hfound⟩ | ⟨j, cnt2, hcheck, hentry, hfound⟩
  · refine ⟨s.1, ?_, h.skip hburst2 hout⟩
    rw [addEntry, hfound, freq_of_notMem hout, Real.sqrt_zero, sub_zero,
      Real.sq_sqrt (freq_nonneg _ _), hfreq]
    rfl
  · refine ⟨s.1.set j true, ?_, h.set hburst2 hcheck hentry⟩
    rw [addEntry, hfound, hfreq, hburst2.freq_eq (List.mem_of_getElem? hentry)]
    rfl

/-- **The first loop.** -/
theorem firstLoop {b burst2 : Burst} (hb : b.WellFormed) (hburst2 : burst2.WellFormed)
    (hroom : burst2.uniPktNum.toNat ≤ 101) :
    ∃ check, (List.range b.uniPktNum.toNat).foldlM (addSigDistance b burst2)
        (List.replicate 101 false, (0 : ℝ)) = .ok (check,
          ∑ sig ∈ b.sigs.toFinset,
            (Real.sqrt (freq b.sigs sig) - Real.sqrt (freq burst2.sigs sig)) ^ 2) ∧
      Matched burst2 b.packetDetail check := by
  let I : List (Int16 × ℕ) → List Bool × ℝ → Prop := fun done s =>
    Matched burst2 done s.1 ∧ s.2 = (done.map fun e =>
      (Real.sqrt (freq b.sigs e.1) - Real.sqrt (freq burst2.sigs e.1)) ^ 2).sum
  obtain ⟨⟨check, total⟩, hrun, hmatched, htotal⟩ := CheckedLoop.foldlM_ok (I := I)
    (f := addEntry b burst2) (l := b.packetDetail) (s := (List.replicate 101 false, (0 : ℝ)))
    (fun done e rest hall s hs => by
      obtain ⟨hmatched, htotal⟩ := hs
      have hmem : e ∈ b.packetDetail := by
        rw [hall]
        exact List.mem_append_right _ List.mem_cons_self
      have hnew : e.1 ∉ done.map Prod.fst := UnorderedMap.fst_notMem_of_nodup hb.nodup hall
      obtain ⟨check, hstep, hnext⟩ := addEntry_ok hb hburst2 hroom hmatched hmem hnew
      refine ⟨_, hstep, hnext, ?_⟩
      rw [List.map_append, List.sum_append, ← htotal, List.map_singleton, List.sum_singleton])
    ⟨matched_nil burst2, rfl⟩
  refine ⟨check, ?_, hmatched⟩
  have htotal : total = _ := htotal
  rw [foldlM_addSigDistance hb.counted, hrun, hb.sum_sigs, htotal]

/-! ## The second loop -/

/-- The packets that are left are those whose signature only the second burst has. -/
theorem leftCount_eq {b burst2 : Burst} (hb : b.WellFormed) (hburst2 : burst2.WellFormed)
    {check : List Bool} (h : Matched burst2 b.packetDetail check) :
    (burst2.leftCount check (List.range burst2.uniPktNum.toNat) : ℝ) / burst2.pktNum =
      ∑ sig ∈ burst2.sigs.toFinset \ b.sigs.toFinset, freq burst2.sigs sig := by
  have hlist : burst2.leftCount check (List.range burst2.uniPktNum.toNat) =
      (burst2.packetDetail.map fun e => if e.1 ∈ b.sigs then 0 else e.2).sum := by
    rw [leftCount, hburst2.uniPktNum]
    congr 1
    refine List.ext_getElem (by simp) fun j hj hj' => ?_
    have hlt : j < burst2.packetDetail.length := by simpa using hj
    have hget := List.getElem?_eq_getElem hlt
    have htaken := h.taken_iff j _ hget
    rw [← hb.mem_sigs] at htaken
    simp [htaken, countAt, hlt]
  have hfilter : burst2.sigs.toFinset \ b.sigs.toFinset =
      burst2.sigs.toFinset.filter (· ∉ b.sigs) := by
    ext sig
    simp
  have hfreq : ∀ e ∈ burst2.packetDetail,
      (if e.1 ∉ b.sigs then freq burst2.sigs e.1 else 0) =
        ((if e.1 ∈ b.sigs then 0 else e.2 : ℕ) : ℝ) / burst2.pktNum := by
    intro e he
    rw [hburst2.freq_eq he]
    by_cases hmem : e.1 ∈ b.sigs
    · simp [hmem]
    · simp [hmem]
  rw [hfilter, Finset.sum_filter, hburst2.sum_sigs, List.map_congr_left hfreq, hlist,
    Nat.cast_list_sum, List.map_map, div_eq_mul_inv, ← List.sum_map_mul_right]
  rfl

/-! ## The closed form -/

/-- The gap to a burst that has no further signatures, entry by entry. -/
theorem gap_eq_sum_entries {a b : Burst} (ha : a.WellFormed) (hsub : ∀ sig ∈ b.sigs, sig ∈ a.sigs) :
    gap a.sigs b.sigs = (a.packetDetail.map fun e =>
      (Real.sqrt (freq a.sigs e.1) - Real.sqrt (freq b.sigs e.1)) ^ 2).sum := by
  have hrest : b.sigs.toFinset \ a.sigs.toFinset = ∅ := by
    rw [Finset.sdiff_eq_empty_iff_subset]
    intro sig hsig
    exact Multiset.mem_toFinset.mpr (hsub sig (Multiset.mem_toFinset.mp hsig))
  rw [gap_eq_sum_add, hrest, Finset.sum_empty, add_zero, ha.sum_sigs]

/-- The gap between the distributions, scaled by the ratio of the lengths. -/
noncomputable def scaledGap (a b : Burst) : ℝ :=
  gap a.sigs b.sigs * (max a.pktNum b.pktNum : ℕ) / (min a.pktNum b.pktNum : ℕ)

theorem scaledGap_comm (a b : Burst) : scaledGap a b = scaledGap b a := by
  rw [scaledGap, scaledGap, gap_comm, max_comm, min_comm]

theorem scaledGap_nonneg (a b : Burst) : 0 ≤ scaledGap a b := by
  have hgap := gap_nonneg a.sigs b.sigs
  rw [scaledGap]
  positivity

/-- **`Distance` in closed form.** -/
theorem distance_eq {a b : Burst} (ha : a.WellFormed) (hb : b.WellFormed)
    (hroom : b.uniPktNum.toNat ≤ 101) :
    a.distance b = .ok (if Far a b then 1 else Real.sqrt (scaledGap a b)) := by
  by_cases hfar : Far a b
  · rw [distance_of_far hfar, if_pos hfar]
  · rw [if_neg hfar, distance, if_neg hfar]
    obtain ⟨check, hfirst, hmatched⟩ := firstLoop ha hb hroom
    have hcheck : b.uniPktNum.toNat ≤ check.length := by
      rw [hmatched.length]
      exact hroom
    obtain ⟨remain, hremain⟩ := addRemainders_ok hb.counted hcheck
    rw [hfirst]
    dsimp only [bind, Except.bind]
    rw [hremain]
    dsimp only
    rw [remainder_eq_leftCount hremain, leftCount_eq ha hb hmatched, ← gap_eq_sum_add, scaledGap]
    split_ifs with hlonger
    · rw [max_eq_left hlonger.le, min_eq_right hlonger.le]
      rfl
    · rw [max_eq_right (not_lt.mp hlonger), min_eq_left (not_lt.mp hlonger)]
      rfl

/-! ## Symmetry and separation -/

theorem distance_comm {a b : Burst} (ha : a.WellFormed) (hb : b.WellFormed)
    (haroom : a.uniPktNum.toNat ≤ 101) (hbroom : b.uniPktNum.toNat ≤ 101) :
    (a.distance b : Except Fault ℝ) = b.distance a := by
  rw [distance_eq ha hb hbroom, distance_eq hb ha haroom, scaledGap_comm]
  simp only [far_comm]

/-- The same signatures, with proportional counts. -/
structure Proportional (a b : Burst) : Prop where
  sigs : ∀ sig, sig ∈ a.packetDetail.map Prod.fst ↔ sig ∈ b.packetDetail.map Prod.fst
  counts : ∀ sig m n, (sig, m) ∈ a.packetDetail → (sig, n) ∈ b.packetDetail →
    m * b.pktNum = n * a.pktNum

theorem proportional_iff {a b : Burst} (ha : a.WellFormed) (hb : b.WellFormed)
    (hapkt : 1 ≤ a.pktNum) (hbpkt : 1 ≤ b.pktNum) :
    Proportional a b ↔
      ∀ sig, a.sigs.count sig * b.sigs.card = b.sigs.count sig * a.sigs.card := by
  rw [ha.card_sigs, hb.card_sigs]
  constructor
  · intro h sig
    by_cases hmem : sig ∈ a.packetDetail.map Prod.fst
    · obtain ⟨⟨sig, m⟩, hm, rfl⟩ := List.mem_map.mp hmem
      obtain ⟨⟨sig', n⟩, hn, heq⟩ := List.mem_map.mp ((h.sigs sig).mp hmem)
      obtain rfl : sig' = sig := heq
      rw [sigs, sigs, Tally.count_total_of_mem ha.nodup hm, Tally.count_total_of_mem hb.nodup hn]
      exact h.counts _ m n hm hn
    · rw [sigs, sigs, Tally.count_total_eq_zero hmem,
        Tally.count_total_eq_zero ((h.sigs sig).not.mp hmem), Nat.zero_mul, Nat.zero_mul]
  · intro h
    refine ⟨fun sig => ?_, fun sig m n hm hn => ?_⟩
    · rw [← ha.mem_sigs, ← hb.mem_sigs]
      rw [← ha.card_sigs, ← hb.card_sigs] at h
      exact mem_iff_of_proportional (ha.sigs_ne_zero hapkt) (hb.sigs_ne_zero hbpkt) h sig
    · have hsig := h sig
      rwa [sigs, sigs, Tally.count_total_of_mem ha.nodup hm,
        Tally.count_total_of_mem hb.nodup hn] at hsig

theorem scaledGap_eq_zero_iff {a b : Burst} (ha : a.WellFormed) (hb : b.WellFormed)
    (hapkt : 1 ≤ a.pktNum) (hbpkt : 1 ≤ b.pktNum) : scaledGap a b = 0 ↔ Proportional a b := by
  have hmax : ((max a.pktNum b.pktNum : ℕ) : ℝ) ≠ 0 := Nat.cast_ne_zero.mpr (by omega)
  have hmin : ((min a.pktNum b.pktNum : ℕ) : ℝ) ≠ 0 := Nat.cast_ne_zero.mpr (by omega)
  rw [scaledGap, div_eq_zero_iff, or_iff_left hmin, mul_eq_zero, or_iff_left hmax,
    gap_eq_zero_iff (ha.sigs_ne_zero hapkt) (hb.sigs_ne_zero hbpkt),
    proportional_iff ha hb hapkt hbpkt]

/-- What `Distance` is meant to be on two bursts: symmetric and not negative, and for lengths that
differ by at most 120 packets zero exactly for proportional counts. -/
def SeparatesSymmetrically (a b : Burst) : Prop :=
  ∃ d : ℝ, a.distance b = .ok d ∧ b.distance a = .ok d ∧ 0 ≤ d ∧
    (a.pktNum ≤ b.pktNum + 120 → b.pktNum ≤ a.pktNum + 120 → (d = 0 ↔ Proportional a b))

/-- **When `Distance` is symmetric, not negative and separates distributions**: always, but for
bursts with proportional counts and about the same length that are too long for the cut-off. -/
theorem distance_symm_separates_iff {a b : Burst} (ha : a.WellFormed) (hb : b.WellFormed)
    (hapkt : 1 ≤ a.pktNum) (hbpkt : 1 ≤ b.pktNum) (haroom : a.uniPktNum.toNat ≤ 101)
    (hbroom : b.uniPktNum.toNat ≤ 101) :
    SeparatesSymmetrically a b ↔
      (a.pktNum ≤ b.pktNum + 120 → b.pktNum ≤ a.pktNum + 120 → Proportional a b →
        a.pktNum + 120 < 2 ^ 31 ∧ b.pktNum + 120 < 2 ^ 31) := by
  have hdist := distance_eq ha hb hbroom
  constructor
  · rintro ⟨d, hd, -, -, hsep⟩ hle hle' hprop
    obtain rfl := Except.ok.inj (hdist.symm.trans hd)
    have hnear : ¬ Far a b := fun hfar => by
      have hone := (hsep hle hle').mpr hprop
      rw [if_pos hfar] at hone
      exact one_ne_zero hone
    exact (not_far_iff.mp hnear).2.2
  · intro hfits
    refine ⟨_, hdist, ?_, ?_, fun hle hle' => ?_⟩
    · rw [← distance_comm ha hb haroom hbroom, hdist]
    · split_ifs
      · exact zero_le_one
      · exact Real.sqrt_nonneg _
    · by_cases hfar : Far a b
      · rw [if_pos hfar]
        refine iff_of_false one_ne_zero fun hprop => ?_
        obtain ⟨hlt, hlt'⟩ := hfits hle hle' hprop
        exact not_far_iff.mpr ⟨hle, hle', hlt, hlt'⟩ hfar
      · rw [if_neg hfar, Real.sqrt_eq_zero (scaledGap_nonneg a b),
          scaledGap_eq_zero_iff ha hb hapkt hbpkt]

/-- Two packets of 100 bytes and one back, and twice as many in the other order. -/
theorem distance_symm_separates_iff_doubled :
    let a : Burst := ⟨2, 3, "lamp", .zero, .zero, [(100, 2), (-60, 1)]⟩
    let b : Burst := ⟨2, 6, "lamp", .zero, .zero, [(-60, 2), (100, 4)]⟩
    SeparatesSymmetrically a b ↔
      (3 ≤ 6 + 120 → 6 ≤ 3 + 120 → Proportional a b → 3 + 120 < 2 ^ 31 ∧ 6 + 120 < 2 ^ 31) :=
  distance_symm_separates_iff ⟨by decide, by decide, by decide, by decide⟩
    ⟨by decide, by decide, by decide, by decide⟩ (by decide) (by decide) (by decide) (by decide)

/-- A burst of as many packets of one length as are too many for the cut-off. -/
def longBurst : Burst where
  uniPktNum := 1
  pktNum := 2147483528
  instanceLabel := "lamp"
  firstPacketStamp := .zero
  lastPacketStamp := .zero
  packetDetail := [(100, 2147483528)]

/-- **A burst that is too long** is at distance one from itself. -/
theorem not_separatesSymmetrically_longBurst :
    longBurst.WellFormed ∧ longBurst.FitsInt ∧
      longBurst.distance longBurst = .ok (1 : ℝ) ∧ Proportional longBurst longBurst ∧
      ¬ SeparatesSymmetrically longBurst longBurst := by
  have hwf : longBurst.WellFormed := ⟨by decide, by decide, rfl, rfl⟩
  have hfits : longBurst.FitsInt := ⟨by decide, by decide⟩
  have hfar : Far longBurst longBurst := by decide
  have hprop : Proportional longBurst longBurst := by
    refine ⟨fun _ => Iff.rfl, fun sig m n hm hn => ?_⟩
    rw [(Prod.mk.inj (List.mem_singleton.mp hm)).2, (Prod.mk.inj (List.mem_singleton.mp hn)).2]
  refine ⟨hwf, hfits, distance_of_far hfar, hprop, ?_⟩
  rintro ⟨d, hd, -, -, hsep⟩
  obtain rfl := Except.ok.inj ((distance_of_far hfar).symm.trans hd)
  exact one_ne_zero ((hsep (by omega) (by omega)).mpr hprop)

end Burst
end BurstIoT
