import BurstIoT.DeviceBurstGenerator

/-!
# One burst out of a whole block

`Burst(std::vector<std::shared_ptr<Burst>>)` adds every signature of every burst, as often as it is
counted, with `AddSig`.  The counts therefore always add up (`sigs_ofBursts`).

**The counters.**  The entries stay distinct only as long as `AddSig` searches all of them, and it
searches the first `uniPktNum`, a counter of eight bits.  A block is not bounded as a single burst
is: the merged burst satisfies the representation invariant exactly if the bursts of the block have
no more than 255 signatures between them and no more packets than an `int` can count
(`mergesBlock_ofBursts_iff`).  With one signature more `uniPktNum` is back at zero, and `Validate`
would reject the merged burst (`not_mergesBlock_lengths`).
-/

namespace BurstIoT
namespace Burst

open DeviceBurstGenerator (blockSigs blockSigs_cons)

/-! ## The signatures added -/

/-- The signatures of a burst, each as often as it is counted, in the order of the entries. -/
def sigList (b : Burst) : List Int16 :=
  b.packetDetail.flatMap fun e => List.replicate e.2 e.1

theorem coe_sigList (b : Burst) : (b.sigList : Multiset Int16) = b.sigs := by
  rw [sigList, sigs]
  induction b.packetDetail with
  | nil => rfl
  | cons e detail ih =>
    rw [List.flatMap_cons, ← Multiset.coe_add, ih, Tally.total_cons, Multiset.coe_replicate]

theorem coe_flatMap_sigList (burstVec : List Burst) :
    (burstVec.flatMap sigList : Multiset Int16) = blockSigs burstVec := by
  induction burstVec with
  | nil => rfl
  | cons b rest ih =>
    rw [List.flatMap_cons, ← Multiset.coe_add, coe_sigList, ih, blockSigs_cons]

/-- The three loops are one loop over the signatures of the block. -/
theorem ofBursts_eq_foldl (burstVec : List Burst) :
    ofBursts burstVec = (burstVec.flatMap sigList).foldl addSig
      { instanceLabel := (burstVec.head?.map instanceLabel).getD ""
        firstPacketStamp := .zero
        lastPacketStamp := .zero } := by
  simp only [ofBursts, sigList, List.foldl_flatMap]

theorem sigs_foldl_addSig (added : List Int16) (b : Burst) :
    (added.foldl addSig b).sigs = b.sigs + added := by
  induction added generalizing b with
  | nil => exact (add_zero _).symm
  | cons sig added ih =>
    rw [List.foldl_cons, ih, sigs_addSig, ← Multiset.cons_coe, Multiset.cons_add, Multiset.add_cons]

/-- **No signature is lost**, also when `uniPktNum` wraps on the way. -/
theorem sigs_ofBursts (burstVec : List Burst) : (ofBursts burstVec).sigs = blockSigs burstVec := by
  rw [ofBursts_eq_foldl, sigs_foldl_addSig, coe_flatMap_sigList]
  exact zero_add _

/-! ## The counter -/

/-- **Adding signatures keeps the invariant** as long as there are no more than 255 of them. -/
theorem WellFormed.foldl_addSig {b : Burst} (h : b.WellFormed) (added : List Int16)
    (hroom : (b.sigs + added).toFinset.card ≤ 255) : (added.foldl Burst.addSig b).WellFormed := by
  induction added generalizing b with
  | nil => exact h
  | cons sig added ih =>
    have hsum : b.sigs + (sig :: added : List Int16) = (b.addSig sig).sigs + added := by
      rw [sigs_addSig, ← Multiset.cons_coe, Multiset.cons_add, Multiset.add_cons]
    refine ih (h.addSig_of_mem_or_lt ?_) (hsum ▸ hroom)
    by_cases hmem : sig ∈ b.sigs
    · exact Or.inl hmem
    · right
      -- the signature is one more, and still among at most 255
      have hsub : insert sig b.sigs.toFinset ⊆ (b.sigs + (sig :: added : List Int16)).toFinset := by
        intro x hx
        rw [Finset.mem_insert, Multiset.mem_toFinset] at hx
        rw [Multiset.mem_toFinset, Multiset.mem_add]
        rcases hx with rfl | hx
        · exact Or.inr (Multiset.mem_coe.mpr List.mem_cons_self)
        · exact Or.inl hx
      have hcard := Finset.card_le_card hsub
      rw [Finset.card_insert_of_notMem fun hin => hmem (Multiset.mem_toFinset.mp hin),
        ← h.uniPktNum_eq_card] at hcard
      omega

/-- The burst `merged` merges the bursts of a block: distinct signatures, those of the block, each
with the sum of its counts, and the two counters right. -/
structure MergesBlock (burstVec : List Burst) (merged : Burst) : Prop where
  nodup : (merged.intDetail.map Prod.fst).Nodup
  mem_iff : ∀ sig, sig ∈ merged.intDetail.map Prod.fst ↔ ∃ b ∈ burstVec, sig ∈ b.sigs
  count_eq : ∀ e ∈ merged.intDetail, e.2 = ((burstVec.map fun b => b.sigs.count e.1).sum : ℕ)
  uniPktNum_eq : merged.uniPktNum.toNat = merged.sigs.toFinset.card
  pktNum_eq : merged.intPktNum = ((burstVec.map pktNum).sum : ℕ)

theorem mem_blockSigs {burstVec : List Burst} {sig : Int16} :
    sig ∈ blockSigs burstVec ↔ ∃ b ∈ burstVec, sig ∈ b.sigs := by
  induction burstVec with
  | nil => simp [blockSigs]
  | cons b rest ih =>
    rw [blockSigs_cons, Multiset.mem_add, ih, List.exists_mem_cons_iff]

theorem count_blockSigs (burstVec : List Burst) (sig : Int16) :
    (blockSigs burstVec).count sig = (burstVec.map fun b => b.sigs.count sig).sum := by
  induction burstVec with
  | nil => rfl
  | cons b rest ih =>
    rw [blockSigs_cons, Multiset.count_add, ih, List.map_cons, List.sum_cons]

/-- **When merging a block keeps the burst invariant**: with no more than 255 signatures, and fewer
than `2 ^ 31` packets. -/
theorem mergesBlock_ofBursts_iff {burstVec : List Burst} (h : ∀ b ∈ burstVec, b.WellFormed) :
    MergesBlock burstVec (ofBursts burstVec) ↔
      (blockSigs burstVec).toFinset.card ≤ 255 ∧ (burstVec.map pktNum).sum < 2 ^ 31 := by
  have hpkt : (ofBursts burstVec).pktNum = (burstVec.map pktNum).sum :=
    pktNum_ofBursts fun b hb => (h b hb).pktNum
  constructor
  · intro hmerges
    constructor
    · rw [← sigs_ofBursts, ← hmerges.uniPktNum_eq]
      exact Nat.le_of_lt_succ (ofBursts burstVec).uniPktNum.toNat_lt
    · rw [← toInt_eq_iff, ← hmerges.pktNum_eq, intPktNum, hpkt]
  · rintro ⟨hroom, hfew⟩
    have hwf : (ofBursts burstVec).WellFormed := by
      rw [ofBursts_eq_foldl]
      have hsum : (0 : Multiset Int16) + (burstVec.flatMap sigList : List Int16) =
          blockSigs burstVec := by
        rw [coe_flatMap_sigList, zero_add]
      refine WellFormed.foldl_addSig ?_ _ (hsum ▸ hroom)
      exact ⟨List.nodup_nil, fun _ he => absurd he List.not_mem_nil, rfl, rfl⟩
    have hfits : (ofBursts burstVec).FitsInt := fitsInt_of_size hwf.pktNum (hpkt ▸ hfew)
    refine ⟨?_, fun sig => ?_, fun e he => ?_, hwf.uniPktNum_eq_card, ?_⟩
    · rw [map_fst_intDetail]
      exact hwf.nodup
    · rw [map_fst_intDetail, ← hwf.mem_sigs, sigs_ofBursts, mem_blockSigs]
    · rw [hfits.intDetail_eq, List.mem_map] at he
      obtain ⟨e, he, rfl⟩ := he
      rw [← count_blockSigs, ← sigs_ofBursts, sigs, Tally.count_total_of_mem hwf.nodup he]
    · rw [hfits.intPktNum_eq, hpkt]

/-- A lamp that sends two lengths, one of them in both bursts of a block. -/
theorem mergesBlock_ofBursts_lamp :
    let block : List Burst := [⟨2, 3, "lamp", .zero, .zero, [(-60, 1), (100, 2)]⟩,
      ⟨1, 4, "lamp", .zero, .zero, [(100, 4)]⟩]
    MergesBlock block (ofBursts block) ∧ ofBursts block =
      ⟨2, 7, "lamp", .zero, .zero, [(-60, 1), (100, 6)]⟩ := by
  intro block
  have hwf : ∀ b ∈ block, b.WellFormed := by
    intro b hb
    rcases List.mem_cons.mp hb with rfl | hb
    · exact ⟨by decide, by decide, by decide, by decide⟩
    · rw [List.mem_singleton.mp hb]
      exact ⟨by decide, by decide, by decide, by decide⟩
  exact ⟨(mergesBlock_ofBursts_iff hwf).mpr ⟨by decide, by decide⟩, by decide⟩

/-! ## Blocks that are too varied -/

theorem instanceLabel_foldl_addSig (added : List Int16) (b : Burst) :
    (added.foldl addSig b).instanceLabel = b.instanceLabel := by
  induction added generalizing b with
  | nil => rfl
  | cons sig added ih => rw [List.foldl_cons, ih, instanceLabel_addSig]

theorem card_toFinset_sigs_le (b : Burst) : b.sigs.toFinset.card ≤ b.packetDetail.length := by
  have hsub : b.sigs.toFinset ⊆ (b.packetDetail.map Prod.fst).toFinset := by
    intro sig hsig
    obtain ⟨n, hn, -⟩ := Tally.mem_total.mp (Multiset.mem_toFinset.mp hsig)
    exact List.mem_toFinset.mpr (List.mem_map_of_mem hn)
  calc b.sigs.toFinset.card ≤ (b.packetDetail.map Prod.fst).toFinset.card :=
        Finset.card_le_card hsub
    _ ≤ (b.packetDetail.map Prod.fst).length := List.toFinset_card_le _
    _ = b.packetDetail.length := List.length_map _

/-- **`Validate` rejects what the counter no longer counts.** -/
theorem validate_ofBursts_of_lt {div : DivisionParam} {burstVec : List Burst}
    (hlabel : (burstVec.head?.map instanceLabel).getD "" ≠ "")
    (hvaried : 255 < (blockSigs burstVec).toFinset.card) :
    (ofBursts burstVec).validate div = .error (.thrown .burstUniNumberMismatch) := by
  have hlabel' : (ofBursts burstVec).instanceLabel.length ≠ 0 := by
    rw [ofBursts_eq_foldl, instanceLabel_foldl_addSig, ne_eq, String.length_eq_zero_iff]
    exact hlabel
  have hlength : (ofBursts burstVec).packetDetail.length ≠
      (ofBursts burstVec).uniPktNum.toNat := by
    have hle := card_toFinset_sigs_le (ofBursts burstVec)
    have hlt := (ofBursts burstVec).uniPktNum.toNat_lt
    rw [sigs_ofBursts] at hle
    omega
  rw [validate, if_neg hlabel', if_pos hlength]

/-- A block of 256 bursts of one packet each, all of different lengths. -/
def lengths : List Burst :=
  (List.range 256).map fun n : ℕ => ⟨1, 1, "lamp", .zero, .zero, [(Int16.ofNat n, 1)]⟩

theorem lt_card_blockSigs_lengths : 255 < (blockSigs lengths).toFinset.card := by
  have hinj : Set.InjOn Int16.ofNat (Finset.range 256 : Finset ℕ) := by
    intro m hm n hn heq
    rw [Finset.mem_coe, Finset.mem_range] at hm hn
    have hint := congrArg Int16.toInt heq
    rw [Int16.toInt_ofNat_of_lt (by omega), Int16.toInt_ofNat_of_lt (by omega)] at hint
    omega
  have hsub : (Finset.range 256).image Int16.ofNat ⊆ (blockSigs lengths).toFinset := by
    refine Finset.image_subset_iff.mpr fun n hn => ?_
    rw [Multiset.mem_toFinset, mem_blockSigs]
    refine ⟨_, List.mem_map_of_mem (List.mem_range.mpr (Finset.mem_range.mp hn)), ?_⟩
    exact Tally.mem_total.mpr ⟨1, List.mem_singleton_self _, Nat.one_pos⟩
  calc 255 < (Finset.range 256).card := by rw [Finset.card_range]; omega
    _ = ((Finset.range 256).image Int16.ofNat).card := (Finset.card_image_of_injOn hinj).symm
    _ ≤ (blockSigs lengths).toFinset.card := Finset.card_le_card hsub

/-- The 256th length wraps the counter. -/
theorem not_mergesBlock_lengths :
    (∀ b ∈ lengths, b.WellFormed) ∧ ¬ MergesBlock lengths (ofBursts lengths) ∧
      (ofBursts lengths).validate {} = .error (.thrown .burstUniNumberMismatch) := by
  have hwf : ∀ b ∈ lengths, b.WellFormed := by
    intro b hb
    obtain ⟨n, -, rfl⟩ := List.mem_map.mp hb
    exact ⟨List.nodup_singleton _, by simp, rfl, rfl⟩
  refine ⟨hwf, fun h => ?_, ?_⟩
  · have hle : (blockSigs lengths).toFinset.card ≤ 255 := by
      rw [← sigs_ofBursts, ← h.uniPktNum_eq]
      exact Nat.le_of_lt_succ (ofBursts lengths).uniPktNum.toNat_lt
    exact absurd lt_card_blockSigs_lengths (not_lt.mpr hle)
  · refine @validate_ofBursts_of_lt {} lengths ?_ lt_card_blockSigs_lengths
    rw [lengths, List.head?_map, List.head?_range]
    decide

end Burst
end BurstIoT
