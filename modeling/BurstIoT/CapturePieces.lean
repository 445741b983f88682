import BurstIoT.BurstDataset

/-!
# Captures in pieces

A capture can be converted piece by piece, as long as no device has packets of two pieces in one
slot (`Apart`): pieces of whole slots, of whole devices, or any mixture.  A block is divided from
the packets of its device and slot alone, so the blocks of the whole are those of the pieces
(`deviceBlocks_flatten_perm`); if the packets of a device in the pieces follow each other in time,
they come in the same order (`deviceBlocks_flatten`).
-/

namespace BurstIoT
namespace Converter

variable {lib : StdLib} {div : DivisionParam} {deviceVec : List KDevice}

/-- The blocks of a device, without the map. -/
def deviceBlocks (lib : StdLib) (div : DivisionParam) (deviceVec : List KDevice)
    (l : List KPacket) (d : UInt16) : List BurstBlock :=
  (deviceSlots div l d).map fun s => block lib div deviceVec d (slotPackets div l d s)

/-- No device has packets of both pieces in one slot. -/
def Disjoint (div : DivisionParam) (piece piece' : List KPacket) : Prop :=
  ∀ p ∈ piece, ∀ q ∈ piece', p.deviceId = q.deviceId → p.slotId div ≠ q.slotId div

/-- Pieces of which no two have packets of one device in one slot. -/
def Apart (div : DivisionParam) (pieces : List (List KPacket)) : Prop :=
  pieces.Pairwise (Disjoint div)

theorem Disjoint.symm {piece piece' : List KPacket} (h : Disjoint div piece piece') :
    Disjoint div piece' piece :=
  fun q hq p hp hdevice => (h p hp q hq hdevice.symm).symm

/-! ## The slots of the whole -/

/-- The slots of a piece have no packets of the others. -/
theorem slotPackets_eq_nil {piece piece' : List KPacket} (h : Disjoint div piece piece')
    {d : UInt16} {s : ℤ} (hs : s ∈ deviceSlots div piece d) : slotPackets div piece' d s = [] := by
  obtain ⟨p, hp, rfl, rfl⟩ := mem_deviceSlots.mp hs
  by_contra hne
  obtain ⟨q, hq, hdevice, hslot⟩ := mem_deviceSlots.mp (slotPackets_ne_nil_iff.mp hne)
  exact h p hp q hq hdevice.symm hslot.symm

theorem slotPackets_append (l l' : List KPacket) (d : UInt16) (s : ℤ) :
    slotPackets div (l ++ l') d s = slotPackets div l d s ++ slotPackets div l' d s :=
  List.filter_append l l'

/-- **A slot of a piece** has the packets of the piece, and no others. -/
theorem slotPackets_flatten {pieces : List (List KPacket)} (h : Apart div pieces)
    {piece : List KPacket} (hpiece : piece ∈ pieces) {d : UInt16} {s : ℤ}
    (hs : s ∈ deviceSlots div piece d) :
    slotPackets div pieces.flatten d s = slotPackets div piece d s := by
  induction pieces with
  | nil => exact absurd hpiece List.not_mem_nil
  | cons first pieces ih =>
    obtain ⟨hfirst, hrest⟩ := List.pairwise_cons.mp h
    rw [List.flatten_cons, slotPackets_append]
    rcases List.mem_cons.mp hpiece with rfl | hpiece
    · have hnil : slotPackets div pieces.flatten d s = [] := by
        refine slotPackets_eq_nil (fun p hp q hq => ?_) hs
        obtain ⟨piece', hpiece', hq⟩ := List.mem_flatten.mp hq
        exact hfirst piece' hpiece' p hp q hq
      rw [hnil, List.append_nil]
    · rw [slotPackets_eq_nil (hfirst piece hpiece).symm hs, List.nil_append, ih hrest hpiece]

theorem mem_deviceSlots_flatten {pieces : List (List KPacket)} {d : UInt16} {s : ℤ} :
    s ∈ deviceSlots div pieces.flatten d ↔ ∃ piece ∈ pieces, s ∈ deviceSlots div piece d := by
  rw [mem_deviceSlots]
  constructor
  · rintro ⟨p, hp, hd, hs⟩
    obtain ⟨piece, hpiece, hp⟩ := List.mem_flatten.mp hp
    exact ⟨piece, hpiece, mem_deviceSlots.mpr ⟨p, hp, hd, hs⟩⟩
  · rintro ⟨piece, hpiece, hs⟩
    obtain ⟨p, hp, hd, hs⟩ := mem_deviceSlots.mp hs
    exact ⟨p, List.mem_flatten.mpr ⟨piece, hpiece, hp⟩, hd, hs⟩

/-- **The slots of a device** are those that it has in the pieces, each once. -/
theorem deviceSlots_flatten_perm {pieces : List (List KPacket)} (h : Apart div pieces)
    (d : UInt16) : (deviceSlots div pieces.flatten d).Perm
      (pieces.flatMap fun piece => deviceSlots div piece d) := by
  have hnodup : (pieces.flatMap fun piece => deviceSlots div piece d).Nodup := by
    rw [List.nodup_flatMap]
    refine ⟨fun piece _ => (pairwise_deviceSlots div piece d).nodup, h.imp ?_⟩
    intro piece piece' hdisjoint s hs hs'
    exact absurd (slotPackets_eq_nil hdisjoint hs) (slotPackets_ne_nil_iff.mpr hs')
  rw [List.perm_ext_iff_of_nodup (pairwise_deviceSlots div _ d).nodup hnodup]
  intro s
  rw [mem_deviceSlots_flatten, List.mem_flatMap]

theorem map_deviceSlots_pieces {pieces : List (List KPacket)} (h : Apart div pieces)
    (d : UInt16) :
    (pieces.flatMap fun piece => deviceSlots div piece d).map (fun s =>
        block lib div deviceVec d (slotPackets div pieces.flatten d s)) =
      pieces.flatMap fun piece => deviceBlocks lib div deviceVec piece d := by
  rw [List.map_flatMap]
  refine List.flatMap_congr fun piece hpiece => List.map_congr_left fun s hs => ?_
  rw [slotPackets_flatten h hpiece hs]

/-- **The blocks of the whole** are those of the pieces. -/
theorem deviceBlocks_flatten_perm {pieces : List (List KPacket)} (h : Apart div pieces)
    (d : UInt16) : (deviceBlocks lib div deviceVec pieces.flatten d).Perm
      (pieces.flatMap fun piece => deviceBlocks lib div deviceVec piece d) := by
  rw [← map_deviceSlots_pieces h, deviceBlocks]
  exact (deviceSlots_flatten_perm h d).map _

/-- A device whose slots in the pieces follow each other. -/
def InTurn (div : DivisionParam) (pieces : List (List KPacket)) (d : UInt16) : Prop :=
  pieces.Pairwise fun piece piece' => ∀ p ∈ piece, ∀ q ∈ piece',
    p.deviceId = d → q.deviceId = d → p.slotId div < q.slotId div

/-- **The blocks of a device in turn** are in the order of the pieces. -/
theorem deviceBlocks_flatten {pieces : List (List KPacket)} (hapart : Apart div pieces)
    {d : UInt16} (h : InTurn div pieces d) : deviceBlocks lib div deviceVec pieces.flatten d =
      pieces.flatMap fun piece => deviceBlocks lib div deviceVec piece d := by
  have hsorted : (pieces.flatMap fun piece => deviceSlots div piece d).Pairwise (· < ·) := by
    rw [List.pairwise_flatMap]
    refine ⟨fun piece _ => pairwise_deviceSlots div piece d, h.imp ?_⟩
    intro piece piece' hlt s hs s' hs'
    obtain ⟨p, hp, hpd, rfl⟩ := mem_deviceSlots.mp hs
    obtain ⟨q, hq, hqd, rfl⟩ := mem_deviceSlots.mp hs'
    exact hlt p hp q hq hpd hqd
  have hslots : deviceSlots div pieces.flatten d =
      pieces.flatMap fun piece => deviceSlots div piece d := by
    refine deviceSlots_eq hsorted fun s => ?_
    rw [← mem_deviceSlots, (deviceSlots_flatten_perm hapart d).mem_iff]
  rw [deviceBlocks, hslots, map_deviceSlots_pieces hapart]

end Converter

open Converter in
/-- **A capture can be converted piece by piece.**  If no device has packets of two pieces in one
slot, the conversion of the whole and those of the pieces go through, and every device has, from the
whole, the blocks that it has from the pieces; when its packets in the pieces follow each other in
time, also in their order. -/
theorem pktDatasetCvtoBursts_pieces (lib : StdLib) (div : DivisionParam) (deviceVec : List KDevice)
    (pieces : List (List KPacket)) (hslot : 1 ≤ div.timeslot) (hne : pieces ≠ [])
    (hpieces : ∀ piece ∈ pieces, piece ≠ [])
    (hsec : ∀ p ∈ pieces.flatten, 0 ≤ p.timestamp.tvSec ∧ p.timestamp.tvSec < 2 ^ 63)
    (hreg : ∀ p ∈ pieces.flatten, p.deviceId.toNat < deviceVec.length)
    (hapart : Apart div pieces) :
    ∃ whole parts, pktDatasetCvtoBursts lib div deviceVec pieces.flatten = .ok whole ∧
      pieces.mapM (pktDatasetCvtoBursts lib div deviceVec) = .ok parts ∧
      ∀ d, (whole.content d).Perm (parts.flatMap fun part => part.content d) ∧
        (InTurn div pieces d → whole.content d = parts.flatMap fun part => part.content d) := by
  have hzero : div.timeslot ≠ 0 := by
    rintro h
    rw [h] at hslot
    exact absurd hslot (by decide)
  have hflatten : pieces.flatten ≠ [] := by
    obtain ⟨piece, hpiece⟩ := List.exists_mem_of_ne_nil pieces hne
    obtain ⟨p, hp⟩ := List.exists_mem_of_ne_nil piece (hpieces piece hpiece)
    exact List.ne_nil_of_mem (List.mem_flatten.mpr ⟨piece, hpiece, hp⟩)
  obtain ⟨whole, hwhole, hcontent⟩ := pktDatasetCvtoBursts_eq lib hzero hflatten hsec hreg
  have hpart : ∀ piece ∈ pieces, ∃ part, pktDatasetCvtoBursts lib div deviceVec piece = .ok part ∧
      ∀ d, part.content d = deviceBlocks lib div deviceVec piece d := by
    intro piece hpiece
    have hmem : ∀ p ∈ piece, p ∈ pieces.flatten := fun p hp =>
      List.mem_flatten.mpr ⟨piece, hpiece, hp⟩
    exact pktDatasetCvtoBursts_eq lib hzero (hpieces piece hpiece)
      (fun p hp => hsec p (hmem p hp)) fun p hp => hreg p (hmem p hp)
  obtain ⟨parts, hparts⟩ := CheckedLoop.mapM_ok fun piece hpiece =>
    (hpart piece hpiece).imp fun _ h => h.1
  have hblocks : ∀ d, (parts.flatMap fun part => part.content d) =
      pieces.flatMap fun piece => deviceBlocks lib div deviceVec piece d := by
    intro d
    rw [List.flatMap_def, List.flatMap_def]
    refine congrArg List.flatten (CheckedLoop.map_of_mapM_ok hparts fun piece hpiece part h => ?_)
    obtain ⟨part', hpart', hcontent⟩ := hpart piece hpiece
    obtain rfl := Except.ok.inj (h.symm.trans hpart')
    exact hcontent d
  refine ⟨whole, parts, hwhole, hparts, fun d => ?_⟩
  rw [hcontent, hblocks]
  exact ⟨deviceBlocks_flatten_perm hapart d, deviceBlocks_flatten hapart⟩

/-- A lamp and a plug, and packets of them in two slots. -/
theorem pktDatasetCvtoBursts_pieces_lampAndPlug :
    let deviceVec : List KDevice :=
      [⟨false, 0, "lamp", "lamp", "", "10.0.0.2"⟩, ⟨false, 1, "plug", "plug", "", "10.0.0.3"⟩]
    let pieces : List (List KPacket) :=
      [[⟨0, 60, 7, ⟨1, 0⟩⟩, ⟨1, 100, 3, ⟨1801, 0⟩⟩, ⟨0, 60, 7, ⟨2, 0⟩⟩],
        [⟨1, 100, 3, ⟨3, 0⟩⟩, ⟨0, 60, 7, ⟨1801, 0⟩⟩]]
    ∃ whole parts, Converter.pktDatasetCvtoBursts .insertion {} deviceVec pieces.flatten =
        .ok whole ∧
      pieces.mapM (Converter.pktDatasetCvtoBursts .insertion {} deviceVec) = .ok parts ∧
      whole.content 0 = (parts.flatMap fun part => part.content 0) ∧
      (whole.content 1).Perm (parts.flatMap fun part => part.content 1) := by
  intro deviceVec pieces
  have hapart : Converter.Apart {} pieces := by
    unfold Converter.Apart Converter.Disjoint
    decide
  have hturn : Converter.InTurn {} pieces 0 := by
    unfold Converter.InTurn
    decide
  obtain ⟨whole, parts, hwhole, hparts, hcontent⟩ := pktDatasetCvtoBursts_pieces .insertion
    {} deviceVec pieces (by decide) (by decide) (by decide) (by decide) (by decide) hapart
  exact ⟨whole, parts, hwhole, hparts, (hcontent 0).2 hturn, (hcontent 1).1⟩

end BurstIoT
