import BurstIoT.CanonicalForm

/-!
# The order of the flows

`MakeLongBurstVec` goes over `m_flowMap`, an unordered map, and appends the bursts of each flow.
The flows are cut one by one, so another order of the map, which `lib.iterate` stands for,
rearranges the bursts and leaves each of them as it is; and sorting the entries of a burst gives its
canonical form, whichever sort is used.

So two runs of the generator return the same bursts, with stamps, counts and entries
(`deviceBurstGenerator_perm`).  The final sort is not stable; where the first stamps of the bursts
are distinct it has only one result, and the vectors are identical.  No setting of the limits is
excluded: a burst is well formed under any of them (`made_strictToBursts`).
-/

namespace BurstIoT
namespace DeviceBurstGenerator

variable {div : DivisionParam} {device : KDevice}

/-! ## Bursts under any limits -/

/-- A burst of a device, under any setting of the limits. -/
structure Made (device : KDevice) (b : Burst) : Prop where
  wellFormed : b.WellFormed
  label : b.instanceLabel = device.instanceName

theorem Made.ofDevice (device : KDevice) : Made device (.ofDevice device) where
  wellFormed := .ofDevice device
  label := rfl

theorem Made.observe {s : StrictState} (h : Made device s.burst) (p : KPacket) :
    Made device (s.observe p).burst where
  wellFormed := wellFormed_observe h.wellFormed p
  label := by rw [instanceLabel_observe, h.label]

theorem Made.putInto {b : Burst} (h : Made device b) (hroom : b.uniPktNum.toNat < 255)
    (p : KPacket) : Made device (putInto p b) where
  wellFormed := (h.wellFormed.addSig hroom _).setLastPacketStamp p
  label := by
    show (b.addSig p.signedLen).instanceLabel = _
    rw [Burst.instanceLabel_addSig, h.label]

/-- The bursts of the loop are bursts of the device. -/
structure StrictState.Formed (device : KDevice) (s : StrictState) : Prop where
  closed : ∀ b ∈ s.burstVec, Made device b
  opened : Made device s.burst

/-- **One iteration** keeps the bursts well formed: a new burst has room for a signature, and the
test has left room in the open one. -/
theorem StrictState.Formed.step {s : StrictState} (h : s.Formed device) (p : KPacket) :
    (strictStep div device s p).Formed device := by
  rcases strictStep_cases div device s p with ⟨-, hv, hb⟩ | ⟨hc, hv, hb⟩
  · have hroom : (Burst.ofDevice device).uniPktNum.toNat < 255 := by
      show (0 : ℕ) < 255
      omega
    refine ⟨?_, ?_⟩
    · rw [hv]
      intro b hmem
      rcases List.mem_append.mp hmem with hmem | hmem
      · exact h.closed b hmem
      · rw [List.mem_singleton.mp hmem]
        exact h.opened.observe p
    · rw [hb]
      exact (Made.ofDevice device).putInto hroom p
  · have hroom := room_of_not_cuts hc
    have hmax : div.burstMaxUnisig.toNat < 256 := div.burstMaxUnisig.toNat_lt
    refine ⟨?_, ?_⟩
    · rw [hv]
      exact h.closed
    · rw [hb]
      exact (h.opened.observe p).putInto (by omega) p

theorem StrictState.Formed.foldl (l : List KPacket) {s : StrictState} (h : s.Formed device) :
    (l.foldl (strictStep div device) s).Formed device := by
  induction l generalizing s with
  | nil => exact h
  | cons p l ih => exact ih (h.step p)

theorem made_strictToBursts (l : List KPacket) :
    ∀ b ∈ strictToBursts div device l, Made device b := by
  have hinit : (StrictState.init device).Formed device :=
    ⟨fun _ hb => absurd hb List.not_mem_nil, .ofDevice device⟩
  have h : (l.foldl (strictStep div device) (.init device)).Formed device := hinit.foldl l
  intro b hb
  rw [strictToBursts, List.mem_append, List.mem_singleton] at hb
  rcases hb with hb | rfl
  · exact h.closed b hb
  · exact h.opened

/-! ## Two orders of the flow map -/

variable {lib lib' : StdLib}

theorem made_of_mem_unsortedBurstVec {l : List KPacket} {b : Burst}
    (hb : b ∈ unsortedBurstVec lib div device l) : Made device b := by
  obtain ⟨raw, -, hb⟩ := Division.mem_unsortedBurstVec.mp hb
  exact made_strictToBursts raw b hb

/-- **Every burst of the generator carries the name of its device.** -/
theorem instanceLabel_of_mem {l : List KPacket} {b : Burst}
    (hb : b ∈ deviceBurstGenerator lib div device l) : b.instanceLabel = device.instanceName := by
  rw [deviceBurstGenerator, sortInOrder, List.mem_map] at hb
  obtain ⟨b', hb', rfl⟩ := hb
  exact (made_of_mem_unsortedBurstVec ((lib.mem_sort Burst.strictWeak_earlierThan).mp hb')).label

/-- **The flows are cut one by one**: another order of the map rearranges their bursts. -/
theorem makeLongBurstVec_perm (flowMap : FlowMap) :
    (makeLongBurstVec lib div device flowMap).Perm (makeLongBurstVec lib' div device flowMap) :=
  ((lib.iterate_perm flowMap).trans (lib'.iterate_perm flowMap).symm).flatMap_right _

theorem unsortedBurstVec_perm (l : List KPacket) :
    (unsortedBurstVec lib div device l).Perm (unsortedBurstVec lib' div device l) :=
  (makeLongBurstVec_perm _).append_left _

/-- Sorting the entries of a well-formed burst has one result. -/
theorem sortDetail_eq {b : Burst} (h : b.WellFormed) : sortDetail lib b = sortDetail lib' b := by
  have heq : (sortDetail lib b).packetDetail = (sortDetail lib' b).packetDetail := by
    refine (Division.canonical_sortDetail h).packetDetail_eq (Division.canonical_sortDetail h) ?_
    rw [sigs_sortDetail, sigs_sortDetail]
  rw [sortDetail, sortDetail, Burst.mk.injEq]
  exact ⟨rfl, rfl, rfl, rfl, rfl, heq⟩

theorem sortInOrder_perm (burstVec : List Burst) :
    (sortInOrder lib burstVec).Perm (burstVec.map (sortDetail lib)) :=
  (lib.sort_perm Burst.strictWeak_earlierThan burstVec).map _

/-- The generator returns its bursts in the order of their first stamps. -/
theorem pairwise_sortInOrder (burstVec : List Burst) :
    (sortInOrder lib burstVec).Pairwise fun a b => a.firstPacketStamp ≤ b.firstPacketStamp :=
  List.pairwise_map.mpr <|
    (lib.sort_pairwise Burst.strictWeak_earlierThan burstVec).imp fun hab =>
      Timespec.earlier_eq_false_iff.mp hab

end DeviceBurstGenerator

open DeviceBurstGenerator in
/-- **The order of the flow map is irrelevant.**  Whatever the order in which `m_flowMap` is
traversed, and whatever the sort, `GetBurstVec` returns the same bursts, the same number of times;
if their first stamps are distinct it returns the same vector. -/
theorem deviceBurstGenerator_perm (lib lib' : StdLib) (div : DivisionParam) (device : KDevice)
    (l : List KPacket) :
    (deviceBurstGenerator lib div device l).Perm (deviceBurstGenerator lib' div device l) ∧
      (((deviceBurstGenerator lib div device l).map Burst.firstPacketStamp).Nodup →
        deviceBurstGenerator lib div device l = deviceBurstGenerator lib' div device l) := by
  have hperm : (deviceBurstGenerator lib div device l).Perm
      (deviceBurstGenerator lib' div device l) := by
    have hdetail : (unsortedBurstVec lib div device l).map (sortDetail lib) =
        (unsortedBurstVec lib div device l).map (sortDetail lib') :=
      List.map_congr_left fun b hb => sortDetail_eq (made_of_mem_unsortedBurstVec hb).wellFormed
    refine (sortInOrder_perm _).trans ?_
    rw [hdetail]
    exact ((unsortedBurstVec_perm l).map _).trans (sortInOrder_perm _).symm
  refine ⟨hperm, fun hstamps => ?_⟩
  refine hperm.eq_of_pairwise ?_ (pairwise_sortInOrder _) (pairwise_sortInOrder _)
  intro a b ha hb hab hba
  exact List.inj_on_of_nodup_map hstamps ha (hperm.mem_iff.mpr hb) (le_antisymm hab hba)

end BurstIoT
