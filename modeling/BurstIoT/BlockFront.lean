import BurstIoT.StartTimes

/-!
# The burst at the front of a block

Blocks are compared by the first stamp of their front burst.  That stamp is the smallest of the
block, and it is either the stamp of one of the packets or `{0, 0}`.  It is `{0, 0}` exactly when
the division of some raw run ends in a single packet that was cut off (`LoneTail`): such a packet
opens a burst, and no packet follows that would supply the stamp.
-/

namespace BurstIoT
namespace Division

open DeviceBurstGenerator

variable {lib : StdLib} {div : DivisionParam} {device : KDevice}

/-- The last piece of a raw run, as the loop cuts it, is a single packet and not the only piece. -/
def LoneTail (div : DivisionParam) (raw : List KPacket) : Prop :=
  ∃ p, ⟨[p], none⟩ ∈ (Run.runs (loopCut div) raw).tail

/-! ## The stamps of one raw run -/

/-- What a run and its successor hold are packets of the raw run. -/
theorem withNext_subset (hdiv : div.Positive) {raw : List KPacket} (hne : raw ≠ [])
    (hsec : ∀ p ∈ raw, 1 ≤ p.timestamp.tvSec) {e : Burst × Run KPacket}
    (he : e ∈ strictTrace div device raw) : withNext e.2 ⊆ raw := by
  have hrun : e.2 ∈ Run.runs (loopCut div) raw := by
    rw [← (strictTrace_spec device hdiv hne hsec).1]
    exact List.mem_map_of_mem he
  rw [withNext, List.append_subset]
  refine ⟨(Run.infix_of_mem_runs (loopCut div) hrun).subset, ?_⟩
  intro p hp
  exact Run.next_mem_of_mem_runs (loopCut div) hrun p (Option.mem_toList.mp hp)

theorem mem_of_takenStart {first : Bool} {l raw : List KPacket} {s : Timespec} (hsub : l ⊆ raw)
    (h : takenStart first l = some s) : ∃ p ∈ raw, p.timestamp = s := by
  obtain ⟨p, hp, rfl⟩ := exists_of_takenStart h
  exact ⟨p, hsub hp, rfl⟩

/-- The first stamp of a burst is that of a packet, unless there is none. -/
theorem firstStamp_cases (hdiv : div.Positive) {raw : List KPacket} (hne : raw ≠ [])
    (hsec : ∀ p ∈ raw, 1 ≤ p.timestamp.tvSec) {e : Burst × Run KPacket}
    (he : e ∈ strictTrace div device raw) :
    (∃ p ∈ raw, p.timestamp = e.1.firstPacketStamp) ∨
      e.1.firstPacketStamp = .zero ∧ e.2 ∈ (Run.runs (loopCut div) raw).tail ∧
        ∃ p, e.2 = ⟨[p], none⟩ := by
  have hsub := withNext_subset hdiv hne hsec he
  rcases mem_strictTrace_cases hdiv hne hsec he with hst | ⟨hst, htail⟩
  · obtain ⟨p, items, hitems⟩ := List.exists_cons_of_ne_nil hst.ne_nil
    have hstart : takenStart true (withNext e.2) = some p.timestamp := by
      rw [withNext, hitems]
      rfl
    have hfirst : takenStart true (withNext e.2) = some e.1.firstPacketStamp := by
      rw [hst.first_eq, hstart]
      rfl
    exact Or.inl (mem_of_takenStart hsub hfirst)
  · cases hstart : takenStart false (withNext e.2) with
    | some s =>
      have hfirst : takenStart false (withNext e.2) = some e.1.firstPacketStamp := by
        rw [hst.first_eq, hstart]
        rfl
      exact Or.inl (mem_of_takenStart hsub hfirst)
    | none =>
      refine Or.inr ⟨by rw [hst.first_eq, hstart]; rfl, htail, ?_⟩
      obtain ⟨p, items, hitems⟩ := List.exists_cons_of_ne_nil hst.ne_nil
      have hrest : items ++ e.2.next.toList = [] := by
        rw [takenStart, withNext, hitems] at hstart
        simpa using hstart
      obtain ⟨hnil, hnext⟩ := List.append_eq_nil_iff.mp hrest
      refine ⟨p, ?_⟩
      rcases e with ⟨b, items', next⟩
      cases next with
      | none =>
        dsimp only at hitems
        rw [hitems, hnil]
      | some q => cases hnext

/-- **A burst of a raw run keeps the stamp `{0, 0}` exactly when the run has a lone tail.** -/
theorem exists_zero_iff_loneTail (device : KDevice) (hdiv : div.Positive) {raw : List KPacket}
    (hne : raw ≠ []) (hsec : ∀ p ∈ raw, 1 ≤ p.timestamp.tvSec) :
    (∃ e ∈ strictTrace div device raw, e.1.firstPacketStamp = .zero) ↔ LoneTail div raw := by
  constructor
  · rintro ⟨e, he, hzero⟩
    rcases firstStamp_cases hdiv hne hsec he with ⟨p, hp, hstamp⟩ | ⟨-, htail, p, hlone⟩
    · have := hsec p hp
      rw [hstamp, hzero] at this
      exact absurd this (by decide)
    · rw [hlone] at htail
      exact ⟨p, htail⟩
  · rintro ⟨p, hp⟩
    obtain ⟨hruns, -, htail⟩ := strictTrace_spec device hdiv hne hsec
    rw [← hruns, ← List.map_tail] at hp
    obtain ⟨e, he, hlone⟩ := List.mem_map.mp hp
    refine ⟨e, List.mem_of_mem_tail he, ?_⟩
    rw [(htail e he).first_eq, hlone]
    rfl

/-! ## The stamps of a block -/

/-- A raw run of the packets has a lone tail. -/
def HasLoneTail (div : DivisionParam) (l : List KPacket) : Prop :=
  ∃ raw, IsRawRun div l raw ∧ LoneTail div raw

variable {l : List KPacket}

theorem mem_deviceBurstGenerator_trace {b : Burst} :
    b ∈ deviceBurstGenerator lib div device l ↔
      ∃ raw, IsRawRun div l raw ∧ ∃ e ∈ strictTrace div device raw, sortDetail lib e.1 = b := by
  rw [mem_deviceBurstGenerator]
  refine exists_congr fun raw => and_congr_right fun _ => ?_
  rw [← map_fst_strictTrace]
  constructor
  · rintro ⟨b', hb', rfl⟩
    obtain ⟨e, he, rfl⟩ := List.mem_map.mp hb'
    exact ⟨e, he, rfl⟩
  · rintro ⟨e, he, rfl⟩
    exact ⟨e.1, List.mem_map_of_mem he, rfl⟩

theorem firstStamp_of_mem (hdiv : div.Positive) (hne : l ≠ [])
    (hsec : ∀ p ∈ l, 1 ≤ p.timestamp.tvSec) {b : Burst}
    (hb : b ∈ deviceBurstGenerator lib div device l) :
    b.firstPacketStamp = .zero ∨ ∃ p ∈ l, p.timestamp = b.firstPacketStamp := by
  obtain ⟨raw, hraw, e, he, rfl⟩ := mem_deviceBurstGenerator_trace.mp hb
  have hrawsec : ∀ p ∈ raw, 1 ≤ p.timestamp.tvSec := fun p hp => hsec p (hraw.subset hp)
  rcases firstStamp_cases hdiv (hraw.ne_nil hdiv hne) hrawsec he with ⟨p, hp, hstamp⟩ | ⟨hz, -⟩
  · exact Or.inr ⟨p, hraw.subset hp, hstamp⟩
  · exact Or.inl hz

/-- The last stamp of a burst is always that of a packet. -/
theorem lastStamp_of_mem (hdiv : div.Positive) (hne : l ≠ [])
    (hsec : ∀ p ∈ l, 1 ≤ p.timestamp.tvSec) {b : Burst}
    (hb : b ∈ deviceBurstGenerator lib div device l) :
    ∃ p ∈ l, p.timestamp = b.lastPacketStamp := by
  obtain ⟨raw, hraw, e, he, rfl⟩ := mem_deviceBurstGenerator_trace.mp hb
  have hrawsec : ∀ p ∈ raw, 1 ≤ p.timestamp.tvSec := fun p hp => hsec p (hraw.subset hp)
  have hrawne := hraw.ne_nil hdiv hne
  have hlast : e.2.items.getLast?.map KPacket.timestamp = some e.1.lastPacketStamp := by
    rcases mem_strictTrace_cases hdiv hrawne hrawsec he with hst | ⟨hst, -⟩
    · exact hst.last_eq
    · exact hst.last_eq
  obtain ⟨p, hp, hstamp⟩ := Option.map_eq_some_iff.mp hlast
  have hmem : p ∈ raw := (mem_items_of_mem_strictTrace hdiv hrawne hrawsec he).subset
    (List.mem_of_getLast? hp)
  exact ⟨p, hraw.subset hmem, hstamp⟩

theorem exists_zero_iff_hasLoneTail (lib : StdLib) (device : KDevice) (hdiv : div.Positive)
    (hne : l ≠ []) (hsec : ∀ p ∈ l, 1 ≤ p.timestamp.tvSec) :
    (∃ b ∈ deviceBurstGenerator lib div device l, b.firstPacketStamp = .zero) ↔
      HasLoneTail div l := by
  have hiff : ∀ raw, IsRawRun div l raw →
      ((∃ e ∈ strictTrace div device raw, e.1.firstPacketStamp = .zero) ↔ LoneTail div raw) :=
    fun raw hraw => exists_zero_iff_loneTail device hdiv (hraw.ne_nil hdiv hne)
      fun p hp => hsec p (hraw.subset hp)
  constructor
  · rintro ⟨b, hb, hzero⟩
    obtain ⟨raw, hraw, e, he, rfl⟩ := mem_deviceBurstGenerator_trace.mp hb
    exact ⟨raw, hraw, (hiff raw hraw).mp ⟨e, he, hzero⟩⟩
  · rintro ⟨raw, hraw, htail⟩
    obtain ⟨e, he, hzero⟩ := (hiff raw hraw).mpr htail
    exact ⟨sortDetail lib e.1, mem_deviceBurstGenerator_trace.mpr ⟨raw, hraw, e, he, rfl⟩, hzero⟩

/-- The bursts of a block are listed by first stamp. -/
theorem pairwise_firstStamp (lib : StdLib) (div : DivisionParam) (device : KDevice)
    (l : List KPacket) : (deviceBurstGenerator lib div device l).Pairwise fun b b' =>
      b.firstPacketStamp ≤ b'.firstPacketStamp := by
  rw [deviceBurstGenerator, sortInOrder, List.pairwise_map]
  refine (lib.sort_pairwise Burst.strictWeak_earlierThan _).imp ?_
  intro b b' h
  exact Timespec.earlier_eq_false_iff.mp h

/-- **The front of a block.**  Its first stamp is `{0, 0}` if a raw run has a lone tail, and the
stamp of a packet otherwise. -/
theorem front_cases (lib : StdLib) (device : KDevice) (hdiv : div.Positive) (hne : l ≠ [])
    (hsec : ∀ p ∈ l, 1 ≤ p.timestamp.tvSec) :
    ∃ front, (deviceBurstGenerator lib div device l).head? = some front ∧
      (HasLoneTail div l ∧ front.firstPacketStamp = .zero ∨
        ¬ HasLoneTail div l ∧ ∃ p ∈ l, p.timestamp = front.firstPacketStamp) := by
  obtain ⟨front, rest, hblock⟩ :=
    List.exists_cons_of_ne_nil
      (show deviceBurstGenerator lib div device l ≠ [] from deviceBurstGenerator_ne_nil l)
  refine ⟨front, by rw [hblock]; rfl, ?_⟩
  have hmem : front ∈ deviceBurstGenerator lib div device l := by
    rw [hblock]
    exact List.mem_cons_self
  rw [← exists_zero_iff_hasLoneTail lib device hdiv hne hsec]
  rcases firstStamp_of_mem hdiv hne hsec hmem with hzero | ⟨p, hp, hstamp⟩
  · exact Or.inl ⟨⟨front, hmem, hzero⟩, hzero⟩
  · refine Or.inr ⟨?_, p, hp, hstamp⟩
    rintro ⟨b, hb, hzero⟩
    have hle : front.firstPacketStamp ≤ b.firstPacketStamp := by
      have hsorted := pairwise_firstStamp lib div device l
      rw [hblock] at hsorted hb
      rcases List.mem_cons.mp hb with rfl | hb
      · exact le_rfl
      · exact (List.pairwise_cons.mp hsorted).1 b hb
    have hsec' := Timespec.tvSec_le_of_le hle
    rw [hzero, ← hstamp] at hsec'
    have := hsec p hp
    have hz : Timespec.zero.tvSec = 0 := rfl
    omega

end Division
end BurstIoT
