import Mathlib.Data.Finset.Sort
import Mathlib.Tactic.NormNum
import BurstIoT.Division
import BurstIoT.Library.CheckedLoop

/-!
# From packets to bursts: the `Converter`

`PktDatasetCvtoBursts` files every packet under its device and its time slot (`addPacket`), and then
`SplitSlots` goes over all devices and all slots between the first and the last one, takes out what
is filed there, divides it and appends the bursts as one block to the content of the device.

The first level of the map is keyed by `short` while the devices are numbered by `uint16_t`; a slot
that is not there and a slot that holds `nullptr` are the same to the source, and absent here.  The
slots are `time_t`, but `SplitSlots` runs over them as `std::size_t`.

The main result, `pktDatasetCvtoBursts_eq`, states the conversion without its map: the content of a
device lists, for its slots in increasing order, the division of the packets of that slot.
`pktDatasetCvtoBursts_spec` says the same of any time stamps, in the order the slots are visited.
-/

namespace BurstIoT

/-- `BurstBlock`. -/
abbrev BurstBlock : Type := List Burst

/-- The fields of `Converter` that turn packets into bursts. -/
structure Converter where
  deviceTimeRawVecMap : UnorderedMap Int16 (UnorderedMap ℤ (List KPacket)) := ∅
  burstDatasetContent : UnorderedMap UInt16 (List BurstBlock) := ∅

/-- The slot of a packet: `timestamp.tv_sec / TIMESLOT`. -/
def KPacket.slotId (div : DivisionParam) (packet : KPacket) : ℤ :=
  packet.timestamp.tvSec.tdiv div.timeslot.toNat

namespace Converter

/-! ## The conversion -/

/-- `AddPacket`. -/
def addPacket (c : Converter) (deviceId : UInt16) (slotId : ℤ) (packet : KPacket) : Converter :=
  { c with
    deviceTimeRawVecMap := c.deviceTimeRawVecMap.update deviceId.toInt16 ∅ fun timeRawVec =>
      timeRawVec.update slotId [] fun rawVec => rawVec ++ [packet] }

/-- `deviceTimeRawVecMap[deviceId][slotId]`, where a null pointer is `none`. -/
def rawVec (c : Converter) (deviceId : UInt16) (slotId : ℤ) : Option (List KPacket) :=
  (c.deviceTimeRawVecMap.lookup deviceId.toInt16).bind fun timeRawVec => timeRawVec.lookup slotId

/-- `burstDatasetContent[deviceId]`. -/
def content (c : Converter) (deviceId : UInt16) : List BurstBlock :=
  (c.burstDatasetContent.lookup deviceId).getD []

/-- `CreateBurstVec`. -/
def createBurstVec (lib : StdLib) (div : DivisionParam) (pktVec : List KPacket)
    (device : KDevice) : BurstBlock :=
  deviceBurstGenerator lib div device pktVec

/-- `SplitSlot`. -/
def splitSlot (lib : StdLib) (div : DivisionParam) (deviceVec : List KDevice) (c : Converter)
    (deviceId : UInt16) (slotId : ℤ) : Except Fault Converter :=
  match c.rawVec deviceId slotId with
  | none => .ok c
  | some pktVec => do
    let device ← at? deviceVec deviceId.toNat
    let burstBlock := createBurstVec lib div pktVec device
    return {
      burstDatasetContent := c.burstDatasetContent.update deviceId [] fun v => v ++ [burstBlock]
      deviceTimeRawVecMap := c.deviceTimeRawVecMap.update deviceId.toInt16 ∅ fun timeRawVec =>
        timeRawVec.erase slotId }

/-- A `time_t` as a `std::size_t`. -/
def sizeT (slotId : ℤ) : ℕ :=
  (slotId % 2 ^ 64).toNat

/-- A `std::size_t` as a `time_t`. -/
def timeT (slotId : ℕ) : ℤ :=
  (slotId : ℤ).bmod (2 ^ 64)

/-- The slots `start, …, stop - 1`, as they are passed to `SplitSlot`. -/
def slotRange (start stop : ℕ) : List ℤ :=
  (List.range' start (stop - start)).map timeT

/-- `SplitSlots(start, end)`. -/
def splitSlotsBetween (lib : StdLib) (div : DivisionParam) (deviceVec : List KDevice)
    (start stop : ℕ) (c : Converter) : Except Fault Converter :=
  (lib.iterate c.deviceTimeRawVecMap).foldlM
    (fun c e => (slotRange start stop).foldlM
      (fun c slotId => splitSlot lib div deviceVec c e.1.toUInt16 slotId) c) c

/-- The slots that hold packets: what `SplitSlots()` collects in a `std::set<std::size_t>`. -/
def timeSlots (c : Converter) : List ℕ :=
  c.deviceTimeRawVecMap.entries.flatMap fun e => e.2.keys.map sizeT

/-- `SplitSlots()`.  The first and the last element of an empty set are undefined. -/
def splitSlots (lib : StdLib) (div : DivisionParam) (deviceVec : List KDevice) (c : Converter) :
    Except Fault Converter :=
  match c.timeSlots.min?, c.timeSlots.max? with
  | some first, some last => do
    let c ← splitSlotsBetween lib div deviceVec first ((last + 1) % 2 ^ 64) c
    return { c with deviceTimeRawVecMap := ∅ }
  | _, _ => .error .undefined

/-- `PktDatasetCvtoBursts`, on a new converter.  Division by a zero `TIMESLOT` is undefined. -/
def pktDatasetCvtoBursts (lib : StdLib) (div : DivisionParam) (deviceVec : List KDevice)
    (packetDataset : List KPacket) : Except Fault Converter :=
  if div.timeslot = 0 then .error .undefined
  else splitSlots lib div deviceVec <|
    packetDataset.foldl (fun c packet => c.addPacket packet.deviceId (packet.slotId div) packet) {}

variable {lib : StdLib} {div : DivisionParam} {deviceVec : List KDevice}

/-! ## Packets, slots and blocks, without the map -/

/-- The packets of one device in one slot, in order. -/
def slotPackets (div : DivisionParam) (l : List KPacket) (d : UInt16) (s : ℤ) : List KPacket :=
  l.filter fun p => p.deviceId = d ∧ p.slotId div = s

/-- The slots in which a device has a packet, in increasing order. -/
def deviceSlots (div : DivisionParam) (l : List KPacket) (d : UInt16) : List ℤ :=
  ((l.filter fun p => p.deviceId = d).map (KPacket.slotId div)).toFinset.sort (· ≤ ·)

/-- The block of a packet list of a device. -/
def block (lib : StdLib) (div : DivisionParam) (deviceVec : List KDevice) (d : UInt16)
    (pktVec : List KPacket) : BurstBlock :=
  match deviceVec[d.toNat]? with
  | some device => createBurstVec lib div pktVec device
  | none => []

theorem mem_deviceSlots {l : List KPacket} {d : UInt16} {s : ℤ} :
    s ∈ deviceSlots div l d ↔ ∃ p ∈ l, p.deviceId = d ∧ p.slotId div = s := by
  rw [deviceSlots, Finset.mem_sort, List.mem_toFinset, List.mem_map]
  constructor
  · rintro ⟨p, hp, hs⟩
    obtain ⟨hmem, hd⟩ := List.mem_filter.mp hp
    exact ⟨p, hmem, of_decide_eq_true hd, hs⟩
  · rintro ⟨p, hmem, hd, hs⟩
    exact ⟨p, List.mem_filter.mpr ⟨hmem, decide_eq_true hd⟩, hs⟩

theorem deviceSlots_ne_nil_iff {l : List KPacket} {d : UInt16} :
    deviceSlots div l d ≠ [] ↔ ∃ p ∈ l, p.deviceId = d := by
  constructor
  · intro hne
    obtain ⟨s, hs⟩ := List.exists_mem_of_ne_nil _ hne
    obtain ⟨p, hp, hd, -⟩ := mem_deviceSlots.mp hs
    exact ⟨p, hp, hd⟩
  · rintro ⟨p, hp, hd⟩
    exact List.ne_nil_of_mem (mem_deviceSlots.mpr ⟨p, hp, hd, rfl⟩)

variable (div) in
theorem pairwise_deviceSlots (l : List KPacket) (d : UInt16) :
    (deviceSlots div l d).Pairwise (· < ·) :=
  (Finset.sortedLT_sort _).pairwise

/-- The slots are told by their members. -/
theorem deviceSlots_eq {l : List KPacket} {d : UInt16} {slots : List ℤ}
    (hpairwise : slots.Pairwise (· < ·))
    (hmem : ∀ s, s ∈ slots ↔ ∃ p ∈ l, p.deviceId = d ∧ p.slotId div = s) :
    deviceSlots div l d = slots := by
  refine List.Perm.eq_of_pairwise (fun a b _ _ hab hba => absurd (hab.trans hba) (lt_irrefl a))
    (pairwise_deviceSlots div l d) hpairwise ?_
  rw [List.perm_ext_iff_of_nodup (pairwise_deviceSlots div l d).nodup hpairwise.nodup]
  intro s
  rw [mem_deviceSlots, hmem]

theorem slotPackets_ne_nil_iff {l : List KPacket} {d : UInt16} {s : ℤ} :
    slotPackets div l d s ≠ [] ↔ s ∈ deviceSlots div l d := by
  rw [mem_deviceSlots, slotPackets]
  constructor
  · intro hne
    obtain ⟨p, hp⟩ := List.exists_mem_of_ne_nil _ hne
    obtain ⟨hmem, hp⟩ := List.mem_filter.mp hp
    exact ⟨p, hmem, of_decide_eq_true hp⟩
  · rintro ⟨p, hmem, hp⟩
    exact List.ne_nil_of_mem (List.mem_filter.mpr ⟨hmem, decide_eq_true hp⟩)

/-! ## Filing the packets -/

/-- The converter after the loop over the packets. -/
def filed (div : DivisionParam) (l : List KPacket) : Converter :=
  l.foldl (fun c packet => c.addPacket packet.deviceId (packet.slotId div) packet) {}

theorem foldl_addPacket (l : List KPacket) (c : Converter) :
    l.foldl (fun c packet => c.addPacket packet.deviceId (packet.slotId div) packet) c =
      { c with
        deviceTimeRawVecMap := l.foldl
          (fun m packet => m.update packet.deviceId.toInt16 ∅ fun timeRawVec =>
            timeRawVec.update (packet.slotId div) [] fun rawVec => rawVec ++ [packet])
          c.deviceTimeRawVecMap } := by
  induction l generalizing c with
  | nil => rfl
  | cons packet l ih => exact ih _

theorem toInt16_eq_iff {d d' : UInt16} : d.toInt16 = d'.toInt16 ↔ d = d' := by
  constructor
  · intro h
    have := congrArg Int16.toUInt16 h
    simpa using this
  · exact congrArg _

/-- Under a device, its packets are filed by slot. -/
theorem lookup_filed (l : List KPacket) (d : UInt16) :
    (filed div l).deviceTimeRawVecMap.lookup d.toInt16 =
      if l.filter (fun p => p.deviceId = d) = [] then none
      else some (UnorderedMap.groupOn (KPacket.slotId div) (l.filter fun p => p.deviceId = d)) := by
  rw [filed, foldl_addPacket]
  dsimp only
  refine (UnorderedMap.lookup_foldl_update (fun p : KPacket => p.deviceId.toInt16) ∅
    (fun (timeRawVec : UnorderedMap ℤ (List KPacket)) p =>
      timeRawVec.update (p.slotId div) [] fun rawVec => rawVec ++ [p]) d.toInt16 l ∅).trans ?_
  simp only [toInt16_eq_iff]
  rfl

/-- **The packets filed under a device and a slot** are those of the device in the slot. -/
theorem rawVec_filed (l : List KPacket) (d : UInt16) (s : ℤ) :
    (filed div l).rawVec d s =
      if slotPackets div l d s = [] then none else some (slotPackets div l d s) := by
  have hslot : (l.filter fun p => p.deviceId = d).filter (fun p => p.slotId div = s) =
      slotPackets div l d s := by
    rw [List.filter_filter, slotPackets]
    refine List.filter_congr fun p _ => ?_
    rw [Bool.decide_and, Bool.and_comm]
  rw [rawVec, lookup_filed]
  split_ifs with hdev hs hs
  · rfl
  · rw [← hslot, hdev] at hs
    exact absurd rfl hs
  · rw [Option.bind_some, UnorderedMap.lookup_groupOn, hslot, if_pos hs]
  · rw [Option.bind_some, UnorderedMap.lookup_groupOn, hslot, if_neg hs]

/-! ## One slot -/

variable (lib div) in
/-- **What `SplitSlot` does**: it takes the packets of the slot out, and their block is appended to
the content of the device. -/
theorem splitSlot_spec (c : Converter) (d : UInt16) (s : ℤ)
    (hreg : c.rawVec d s ≠ none → d.toNat < deviceVec.length) :
    ∃ c', splitSlot lib div deviceVec c d s = .ok c' ∧
      (∀ d' s', (d', s') ≠ (d, s) → c'.rawVec d' s' = c.rawVec d' s') ∧
      ∀ d', c'.content d' = c.content d' ++
        if d = d' then ((c.rawVec d s).map (block lib div deviceVec d)).toList else [] := by
  rw [splitSlot]
  cases hraw : c.rawVec d s with
  | none =>
    refine ⟨c, rfl, fun _ _ _ => rfl, fun d' => ?_⟩
    rw [Option.map_none, Option.toList_none, ite_self, List.append_nil]
  | some pktVec =>
    have hlt : d.toNat < deviceVec.length := hreg (by rw [hraw]; exact Option.some_ne_none _)
    dsimp only
    rw [at?_of_lt hlt]
    refine ⟨_, rfl, ?_, ?_⟩
    · intro d' s' hne
      rw [rawVec, rawVec]
      dsimp only
      by_cases hd : d' = d
      · subst hd
        have hs : s' ≠ s := fun h => hne (by rw [h])
        rw [rawVec] at hraw
        obtain ⟨timeRawVec, hlook, -⟩ := Option.bind_eq_some_iff.mp hraw
        rw [UnorderedMap.lookup_update_self, hlook, Option.bind_some, Option.bind_some,
          Option.getD_some, AList.lookup_erase_ne hs]
      · rw [UnorderedMap.lookup_update_ne _ (toInt16_eq_iff.not.mpr hd)]
    · intro d'
      rw [content, content]
      dsimp only
      have hblock : block lib div deviceVec d pktVec =
          createBurstVec lib div pktVec deviceVec[d.toNat] := by
        rw [block, List.getElem?_eq_getElem hlt]
      split_ifs with hd
      · subst hd
        rw [UnorderedMap.lookup_update_self, Option.getD_some, Option.map_some,
          Option.toList_some, hblock]
      · rw [UnorderedMap.lookup_update_ne _ (Ne.symm hd), List.append_nil]

/-! ## All slots -/

/-- The devices and slots in the order `SplitSlots` visits them. -/
def visits (lib : StdLib) (start stop : ℕ) (c : Converter) : List (UInt16 × ℤ) :=
  (lib.iterate c.deviceTimeRawVecMap).flatMap fun e =>
    (slotRange start stop).map fun s => (e.1.toUInt16, s)

theorem splitSlotsBetween_eq (start stop : ℕ) (c : Converter) :
    splitSlotsBetween lib div deviceVec start stop c =
      (visits lib start stop c).foldlM (fun c e => splitSlot lib div deviceVec c e.1 e.2) c := by
  rw [splitSlotsBetween, visits, ← CheckedLoop.foldlM_flatMap]
  simp only [List.foldlM_map]

/-- A slot that is not negative survives the passage through `std::size_t`. -/
theorem timeT_of_lt {n : ℕ} (h : n < 2 ^ 63) : timeT n = n := by
  have hlo : -(((2 ^ 64 : ℕ) : ℤ) / 2) ≤ n := by norm_num
  have hhi : (n : ℤ) < (((2 ^ 64 : ℕ) : ℤ) + 1) / 2 := by
    norm_num
    omega
  exact Int.bmod_eq_of_le hlo hhi

theorem timeT_sizeT {s : ℤ} (hs : 0 ≤ s) (h : s < 2 ^ 63) : (sizeT s : ℤ) = s := by
  rw [sizeT]
  omega

theorem slotRange_eq {start stop : ℕ} (h : stop ≤ 2 ^ 63) :
    slotRange start stop = (List.range' start (stop - start)).map Nat.cast := by
  rw [slotRange]
  refine List.map_congr_left fun n hn => timeT_of_lt ?_
  have := List.mem_range'_1.mp hn
  omega

theorem pairwise_slotRange {start stop : ℕ} (h : stop ≤ 2 ^ 63) :
    (slotRange start stop).Pairwise (· < ·) := by
  rw [slotRange_eq h, List.pairwise_map]
  refine (List.pairwise_lt_range' 1).imp ?_
  intro i j hij
  exact Int.ofNat_lt.mpr hij

theorem mem_slotRange {start stop : ℕ} (h : stop ≤ 2 ^ 63) {s : ℤ} :
    s ∈ slotRange start stop ↔ start ≤ s ∧ s < stop := by
  rw [slotRange_eq h, List.mem_map]
  constructor
  · rintro ⟨i, hi, rfl⟩
    have := List.mem_range'_1.mp hi
    omega
  · rintro ⟨hle, hlt⟩
    exact ⟨s.toNat, List.mem_range'_1.mpr (by omega), by omega⟩

/-- A `std::size_t` survives the passage through `time_t`. -/
theorem sizeT_timeT {n : ℕ} (h : n < 2 ^ 64) : sizeT (timeT n) = n := by
  have hmod : timeT n % 2 ^ 64 = (n : ℤ) % 2 ^ 64 := Int.bmod_emod
  rw [sizeT, hmod]
  omega

/-- No slot is visited twice. -/
theorem nodup_slotRange {start stop : ℕ} (h : stop ≤ 2 ^ 64) : (slotRange start stop).Nodup := by
  refine List.Nodup.map_on ?_ (List.nodup_range' 1)
  intro i hi j hj heq
  have hi := List.mem_range'_1.mp hi
  have hj := List.mem_range'_1.mp hj
  rw [← sizeT_timeT (show i < 2 ^ 64 by omega), heq, sizeT_timeT (by omega)]

variable (lib) in
/-- The visited devices, each once. -/
theorem nodup_devices (c : Converter) :
    ((lib.iterate c.deviceTimeRawVecMap).map fun e => e.1.toUInt16).Nodup := by
  have hinj : Function.Injective Int16.toUInt16 := by
    intro a b hab
    have := congrArg UInt16.toInt16 hab
    simpa using this
  have h := (lib.nodup_iterate_keys c.deviceTimeRawVecMap).map hinj
  rwa [List.map_map] at h

theorem nodup_visits {start stop : ℕ} (h : stop ≤ 2 ^ 64) (c : Converter) :
    (visits lib start stop c).Nodup := by
  rw [visits, List.nodup_flatMap]
  constructor
  · intro e _
    refine (nodup_slotRange h).map ?_
    intro s s' h
    exact (Prod.mk.inj h).2
  · refine (List.pairwise_map.mp (nodup_devices lib c)).imp ?_
    intro e e' hne v hv hv'
    obtain ⟨s, -, rfl⟩ := List.mem_map.mp hv
    obtain ⟨s', -, h⟩ := List.mem_map.mp hv'
    exact hne (Prod.mk.inj h).1.symm

/-- A loop over distinct keys that acts on one key acts at most once. -/
theorem flatMap_ite_key {α β κ : Type} [DecidableEq κ] (key : α → κ) (k : κ) (v : List β)
    (L : List α) (h : (L.map key).Nodup) :
    (L.flatMap fun a => if key a = k then v else []) = if k ∈ L.map key then v else [] := by
  induction L with
  | nil => rfl
  | cons a L ih =>
    obtain ⟨hnot, hnodup⟩ := List.nodup_cons.mp h
    rw [List.flatMap_cons, ih hnodup, List.map_cons]
    by_cases hk : key a = k
    · subst hk
      rw [if_pos rfl, if_neg hnot, if_pos List.mem_cons_self, List.append_nil]
    · rw [if_neg hk, List.nil_append]
      simp only [List.mem_cons, Ne.symm hk, false_or]

/-- What the visits bring to one device: the blocks of its slots, in order. -/
theorem flatMap_visits (start stop : ℕ) (c : Converter) (d : UInt16) :
    ((visits lib start stop c).flatMap fun e =>
        if e.1 = d then ((c.rawVec e.1 e.2).map (block lib div deviceVec e.1)).toList else []) =
      (slotRange start stop).flatMap fun s =>
        ((c.rawVec d s).map (block lib div deviceVec d)).toList := by
  have hdevice : ∀ e : Int16 × UnorderedMap ℤ (List KPacket),
      (((slotRange start stop).map fun s => (e.1.toUInt16, s)).flatMap fun e' =>
        if e'.1 = d then ((c.rawVec e'.1 e'.2).map (block lib div deviceVec e'.1)).toList else []) =
        if e.1.toUInt16 = d then (slotRange start stop).flatMap fun s =>
          ((c.rawVec d s).map (block lib div deviceVec d)).toList else [] := by
    intro e
    rw [List.flatMap_map]
    split_ifs with hd
    · subst hd
      rfl
    · rw [List.flatMap_eq_nil_iff]
      exact fun _ _ => rfl
  rw [visits, List.flatMap_assoc]
  simp only [hdevice]
  rw [flatMap_ite_key (fun e : Int16 × UnorderedMap ℤ (List KPacket) => e.1.toUInt16) d _ _
    (nodup_devices lib c)]
  split_ifs with hmem
  · rfl
  · -- a device that is not visited has nothing filed
    have hnone : c.deviceTimeRawVecMap.lookup d.toInt16 = none := by
      rw [Option.eq_none_iff_forall_ne_some]
      intro timeRawVec hlook
      refine hmem (List.mem_map.mpr ⟨(d.toInt16, timeRawVec), lib.mem_iterate.mpr hlook, ?_⟩)
      exact UInt16.toUInt16_toInt16 d
    rw [eq_comm, List.flatMap_eq_nil_iff]
    intro s _
    rw [rawVec, hnone]
    rfl

variable (lib div) in
/-- **What `SplitSlots` does**: it appends, to the content of every device, the blocks of its slots
in increasing order. -/
theorem splitSlotsBetween_spec (start : ℕ) {stop : ℕ} (h : stop ≤ 2 ^ 64) (c : Converter)
    (hreg : ∀ d s, c.rawVec d s ≠ none → d.toNat < deviceVec.length) :
    ∃ c', splitSlotsBetween lib div deviceVec start stop c = .ok c' ∧
      ∀ d, c'.content d = c.content d ++ (slotRange start stop).flatMap fun s =>
        ((c.rawVec d s).map (block lib div deviceVec d)).toList := by
  let I : List (UInt16 × ℤ) → Converter → Prop := fun done c' =>
    (∀ d s, (d, s) ∉ done → c'.rawVec d s = c.rawVec d s) ∧
      ∀ d, c'.content d = c.content d ++ done.flatMap fun e =>
        if e.1 = d then ((c.rawVec e.1 e.2).map (block lib div deviceVec e.1)).toList else []
  have hstep : ∀ done a rest, visits lib start stop c = done ++ a :: rest → ∀ c', I done c' →
      ∃ c'', splitSlot lib div deviceVec c' a.1 a.2 = .ok c'' ∧ I (done ++ [a]) c'' := by
    rintro done ⟨d, s⟩ rest hvisits c' ⟨hraw, hcontent⟩
    have hnew : (d, s) ∉ done := by
      have hnodup : (visits lib start stop c).Nodup := nodup_visits h c
      rw [hvisits, List.nodup_append] at hnodup
      exact fun hmem => hnodup.2.2 _ hmem _ List.mem_cons_self rfl
    have hsame : c'.rawVec d s = c.rawVec d s := hraw d s hnew
    obtain ⟨c'', hok, hframe, hblock⟩ := splitSlot_spec lib div c' d s
      (fun hne => hreg d s (by rwa [← hsame]))
    refine ⟨c'', hok, ?_, ?_⟩
    · intro d' s' hnot
      rw [List.mem_append, List.mem_singleton, not_or] at hnot
      rw [hframe d' s' hnot.2, hraw d' s' hnot.1]
    · intro d'
      rw [hblock d', hcontent d', hsame, List.flatMap_append, List.flatMap_cons,
        List.flatMap_nil, List.append_nil, List.append_assoc]
  obtain ⟨c', hok, -, hcontent⟩ := CheckedLoop.foldlM_ok hstep
    (show I [] c from ⟨fun _ _ _ => rfl, fun d => (List.append_nil _).symm⟩)
  refine ⟨c', ?_, ?_⟩
  · rw [splitSlotsBetween_eq]
    exact hok
  · intro d
    rw [hcontent d, flatMap_visits]

/-! ## The conversion, without its map -/

theorem lookup_isSome_iff_mem_keys {κ ν : Type} [DecidableEq κ] {m : UnorderedMap κ ν} {k : κ} :
    k ∈ m.keys ↔ m.lookup k ≠ none := by
  rw [← Option.isSome_iff_ne_none, AList.lookup_isSome]
  exact Iff.rfl

/-- The collected slots are those of the packets. -/
theorem mem_timeSlots_filed {l : List KPacket} {n : ℕ} :
    n ∈ (filed div l).timeSlots ↔ ∃ p ∈ l, sizeT (p.slotId div) = n := by
  have hraw : ∀ d s, (filed div l).rawVec d s ≠ none ↔
      ∃ p ∈ l, p.deviceId = d ∧ p.slotId div = s := by
    intro d s
    rw [← mem_deviceSlots, ← slotPackets_ne_nil_iff, rawVec_filed]
    split_ifs with h <;> simp [h]
  rw [timeSlots, List.mem_flatMap]
  constructor
  · rintro ⟨⟨k, timeRawVec⟩, hmem, hn⟩
    obtain ⟨s, hs, rfl⟩ := List.mem_map.mp hn
    have hlook : (filed div l).deviceTimeRawVecMap.lookup k = some timeRawVec :=
      AList.mem_lookup_iff.mpr hmem
    obtain ⟨p, hp, -, hslot⟩ := (hraw k.toUInt16 s).mp (by
      rw [rawVec, Int16.toInt16_toUInt16, hlook, Option.bind_some]
      exact lookup_isSome_iff_mem_keys.mp hs)
    exact ⟨p, hp, by rw [hslot]⟩
  · rintro ⟨p, hp, rfl⟩
    have hsome := (hraw p.deviceId (p.slotId div)).mpr ⟨p, hp, rfl, rfl⟩
    rw [rawVec] at hsome
    cases hlook : (filed div l).deviceTimeRawVecMap.lookup p.deviceId.toInt16 with
    | none =>
      rw [hlook] at hsome
      exact absurd rfl hsome
    | some timeRawVec =>
      rw [hlook, Option.bind_some] at hsome
      exact ⟨⟨_, timeRawVec⟩, AList.mem_lookup_iff.mp hlook,
        List.mem_map.mpr ⟨_, lookup_isSome_iff_mem_keys.mpr hsome, rfl⟩⟩

/-- A list that visits the slots of a device in increasing order, and perhaps others, visits them as
`deviceSlots` lists them. -/
theorem filter_slots_eq {l : List KPacket} {d : UInt16} {slots : List ℤ}
    (hsorted : slots.Pairwise (· < ·)) (hall : ∀ p ∈ l, p.slotId div ∈ slots) :
    slots.filter (fun s => slotPackets div l d s ≠ []) = deviceSlots div l d := by
  have hfilter : (slots.filter fun s => slotPackets div l d s ≠ []).Pairwise (· < ·) :=
    hsorted.sublist List.filter_sublist
  refine List.Perm.eq_of_pairwise (fun a b _ _ hab hba => absurd (hab.trans hba) (lt_irrefl a))
    hfilter (pairwise_deviceSlots div l d) ?_
  rw [List.perm_ext_iff_of_nodup hfilter.nodup (pairwise_deviceSlots div l d).nodup]
  intro s
  rw [List.mem_filter, decide_eq_true_eq, slotPackets_ne_nil_iff]
  constructor
  · exact fun h => h.2
  · intro h
    obtain ⟨p, hp, -, rfl⟩ := mem_deviceSlots.mp h
    exact ⟨hall p hp, h⟩

theorem flatMap_rawVec_filed (l : List KPacket) (d : UInt16) (f : List KPacket → BurstBlock)
    (slots : List ℤ) :
    (slots.flatMap fun s => (((filed div l).rawVec d s).map f).toList) =
      (slots.filter fun s => slotPackets div l d s ≠ []).map fun s =>
        f (slotPackets div l d s) := by
  induction slots with
  | nil => rfl
  | cons s slots ih =>
    rw [List.flatMap_cons, ih, rawVec_filed]
    by_cases h : slotPackets div l d s = []
    · rw [if_pos h, List.filter_cons_of_neg (by simp [h])]
      rfl
    · rw [if_neg h, List.filter_cons_of_pos (by simp [h])]
      rfl

theorem slotId_bounds {p : KPacket} (h : 0 ≤ p.timestamp.tvSec)
    (hlt : p.timestamp.tvSec < 2 ^ 63) : 0 ≤ p.slotId div ∧ p.slotId div < 2 ^ 63 := by
  have hle : p.timestamp.tvSec.tdiv div.timeslot.toNat ≤ p.timestamp.tvSec :=
    Int.tdiv_le_self _ h
  exact ⟨Int.tdiv_nonneg h (Int.natCast_nonneg _), lt_of_le_of_lt hle hlt⟩

/-- The slots from the first to the last one of a list, as `SplitSlots()` visits them. -/
def slotsBetween (slots : List ℕ) : List ℤ :=
  match slots.min?, slots.max? with
  | some first, some last => slotRange first ((last + 1) % 2 ^ 64)
  | _, _ => []

/-- Only the set of the slots matters. -/
theorem slotsBetween_congr {slots slots' : List ℕ} (h : ∀ n, n ∈ slots ↔ n ∈ slots') :
    slotsBetween slots = slotsBetween slots' := by
  have hmin : slots.min? = slots'.min? := by
    refine Option.ext fun n => ?_
    rw [List.min?_eq_some_iff, List.min?_eq_some_iff]
    simp only [h]
  have hmax : slots.max? = slots'.max? := by
    refine Option.ext fun n => ?_
    rw [List.max?_eq_some_iff, List.max?_eq_some_iff]
    simp only [h]
  rw [slotsBetween, slotsBetween, hmin, hmax]

/-- The slots that are visited for a packet list. -/
def slotsVisited (div : DivisionParam) (l : List KPacket) : List ℤ :=
  slotsBetween (l.map fun p => sizeT (p.slotId div))

variable (lib) in
/-- **The conversion, without its map.**  The content of a device lists the blocks of the slots that
are visited and hold packets of the device. -/
theorem pktDatasetCvtoBursts_spec (hslot : div.timeslot ≠ 0) {l : List KPacket} (hne : l ≠ [])
    (hreg : ∀ p ∈ l, p.deviceId.toNat < deviceVec.length) :
    ∃ c, pktDatasetCvtoBursts lib div deviceVec l = .ok c ∧
      ∀ d, c.content d = ((slotsVisited div l).filter fun s => slotPackets div l d s ≠ []).map
        fun s => block lib div deviceVec d (slotPackets div l d s) := by
  have hslots : (filed div l).timeSlots ≠ [] := by
    obtain ⟨p, hp⟩ := List.exists_mem_of_ne_nil l hne
    exact List.ne_nil_of_mem (mem_timeSlots_filed.mpr ⟨p, hp, rfl⟩)
  obtain ⟨first, hfirst⟩ : ∃ first, (filed div l).timeSlots.min? = some first :=
    Option.isSome_iff_exists.mp (by rw [List.isSome_min?_iff]; exact hslots)
  obtain ⟨last, hlast⟩ : ∃ last, (filed div l).timeSlots.max? = some last :=
    Option.isSome_iff_exists.mp (by rw [List.isSome_max?_iff]; exact hslots)
  have hvisited : slotRange first ((last + 1) % 2 ^ 64) = slotsVisited div l := by
    have hmem : ∀ n, n ∈ (filed div l).timeSlots ↔ n ∈ l.map fun p => sizeT (p.slotId div) := by
      intro n
      rw [mem_timeSlots_filed, List.mem_map]
    rw [slotsVisited, ← slotsBetween_congr hmem, slotsBetween, hfirst, hlast]
  have hregistered : ∀ d s, (filed div l).rawVec d s ≠ none → d.toNat < deviceVec.length := by
    intro d s h
    have hmem : s ∈ deviceSlots div l d := by
      rw [← slotPackets_ne_nil_iff]
      intro hnil
      rw [rawVec_filed, if_pos hnil] at h
      exact h rfl
    obtain ⟨p, hp, rfl, -⟩ := mem_deviceSlots.mp hmem
    exact hreg p hp
  have hstop : (last + 1) % 2 ^ 64 ≤ 2 ^ 64 := (Nat.mod_lt _ (by decide)).le
  obtain ⟨c, hok, hcontent⟩ := splitSlotsBetween_spec lib div first hstop _ hregistered
  refine ⟨{ c with deviceTimeRawVecMap := ∅ }, ?_, ?_⟩
  · rw [pktDatasetCvtoBursts, if_neg hslot]
    show splitSlots lib div deviceVec (filed div l) = _
    rw [splitSlots, hfirst, hlast]
    dsimp only
    rw [hok]
    rfl
  · intro d
    have hempty : (filed div l).content d = [] := by
      rw [filed, foldl_addPacket]
      rfl
    show c.content d = _
    rw [hcontent d, hempty, List.nil_append, flatMap_rawVec_filed, hvisited]

variable (div) in
/-- Packets from the epoch on: every slot lies in the range that is visited. -/
theorem slotsVisited_eq {l : List KPacket} (hne : l ≠ [])
    (hsec : ∀ p ∈ l, 0 ≤ p.timestamp.tvSec ∧ p.timestamp.tvSec < 2 ^ 63) :
    ∃ start stop : ℕ, stop ≤ 2 ^ 63 ∧ slotsVisited div l = slotRange start stop ∧
      ∀ p ∈ l, p.slotId div ∈ slotRange start stop := by
  let slots := l.map fun p => sizeT (p.slotId div)
  have hbounds : ∀ p ∈ l, 0 ≤ p.slotId div ∧ p.slotId div < 2 ^ 63 :=
    fun p hp => slotId_bounds (hsec p hp).1 (hsec p hp).2
  have hslots : slots ≠ [] := List.map_eq_nil_iff.not.mpr hne
  obtain ⟨first, hfirst⟩ : ∃ first, slots.min? = some first :=
    Option.isSome_iff_exists.mp (by rw [List.isSome_min?_iff]; exact hslots)
  obtain ⟨last, hlast⟩ : ∃ last, slots.max? = some last :=
    Option.isSome_iff_exists.mp (by rw [List.isSome_max?_iff]; exact hslots)
  have hmin := (List.min?_eq_some_iff.mp hfirst).2
  obtain ⟨hmem, hmax⟩ := List.max?_eq_some_iff.mp hlast
  have hlt : last < 2 ^ 63 := by
    obtain ⟨p, hp, heq⟩ := List.mem_map.mp hmem
    have h := timeT_sizeT (hbounds p hp).1 (hbounds p hp).2
    have := (hbounds p hp).2
    omega
  have hstop : (last + 1) % 2 ^ 64 = last + 1 := Nat.mod_eq_of_lt (by omega)
  have hle : last + 1 ≤ 2 ^ 63 := hlt
  refine ⟨first, last + 1, hle, ?_, ?_⟩
  · rw [slotsVisited, slotsBetween, hfirst, hlast]
    dsimp only
    rw [hstop]
  · intro p hp
    have hin : sizeT (p.slotId div) ∈ slots := List.mem_map.mpr ⟨p, hp, rfl⟩
    have hcast := timeT_sizeT (hbounds p hp).1 (hbounds p hp).2
    have h1 := hmin _ hin
    have h2 := hmax _ hin
    rw [mem_slotRange hle]
    omega

variable (lib) in
/-- **The conversion of packets from the epoch on.**  The content of a device lists the blocks of
its slots, in increasing order. -/
theorem pktDatasetCvtoBursts_eq (hslot : div.timeslot ≠ 0) {l : List KPacket} (hne : l ≠ [])
    (hsec : ∀ p ∈ l, 0 ≤ p.timestamp.tvSec ∧ p.timestamp.tvSec < 2 ^ 63)
    (hreg : ∀ p ∈ l, p.deviceId.toNat < deviceVec.length) :
    ∃ c, pktDatasetCvtoBursts lib div deviceVec l = .ok c ∧
      ∀ d, c.content d = (deviceSlots div l d).map fun s =>
        block lib div deviceVec d (slotPackets div l d s) := by
  obtain ⟨c, hok, hcontent⟩ := pktDatasetCvtoBursts_spec lib hslot hne hreg
  obtain ⟨start, stop, hstop, hvisited, hall⟩ := slotsVisited_eq div hne hsec
  refine ⟨c, hok, fun d => ?_⟩
  rw [hcontent d, hvisited, filter_slots_eq (pairwise_slotRange hstop) hall]

/-- Every device in the content has a block. -/
def BlocksOnly (c : Converter) : Prop :=
  ∀ d g, c.burstDatasetContent.lookup d = some g → g ≠ []

theorem BlocksOnly.splitSlot {c c' : Converter} (h : c.BlocksOnly) {d : UInt16} {s : ℤ}
    (hok : splitSlot lib div deviceVec c d s = .ok c') : c'.BlocksOnly := by
  rw [Converter.splitSlot] at hok
  cases hraw : c.rawVec d s with
  | none =>
    rw [hraw] at hok
    cases hok
    exact h
  | some pktVec =>
    rw [hraw] at hok
    obtain ⟨device, -, hok⟩ := CheckedLoop.bind_eq_ok.mp hok
    cases hok
    intro d' g hg
    by_cases hd : d' = d
    · subst hd
      rw [UnorderedMap.lookup_update_self] at hg
      cases hg
      exact List.append_ne_nil_of_right_ne_nil _ (List.cons_ne_nil _ _)
    · rw [UnorderedMap.lookup_update_ne _ hd] at hg
      exact h d' g hg

/-- **A device without a block is not in the content.** -/
theorem blocksOnly_of_ok {l : List KPacket} {c : Converter}
    (hok : pktDatasetCvtoBursts lib div deviceVec l = .ok c) : c.BlocksOnly := by
  have hempty : (filed div l).BlocksOnly := by
    rw [filed, foldl_addPacket]
    intro d g hg
    cases hg
  rw [pktDatasetCvtoBursts] at hok
  split_ifs at hok
  change splitSlots lib div deviceVec (filed div l) = .ok c at hok
  rw [splitSlots] at hok
  split at hok
  · rename_i first last _ _
    obtain ⟨c', hrun, hok⟩ := CheckedLoop.bind_eq_ok.mp hok
    cases hok
    show c'.BlocksOnly
    let I : List (Int16 × UnorderedMap ℤ (List KPacket)) → Converter → Prop :=
      fun _ c => c.BlocksOnly
    let J : List ℤ → Converter → Prop := fun _ c => c.BlocksOnly
    refine CheckedLoop.foldlM_inv (I := I) _ [] (fun _ _ _ _ _ h hrun => ?_) hempty hrun
    exact CheckedLoop.foldlM_inv (I := J) _ [] (fun _ _ _ _ _ h hok => h.splitSlot hok) h hrun
  · cases hok

theorem BlocksOnly.lookup_eq {c : Converter} (h : c.BlocksOnly) (d : UInt16) :
    c.burstDatasetContent.lookup d = if c.content d = [] then none else some (c.content d) := by
  rw [content]
  cases hlook : c.burstDatasetContent.lookup d with
  | none => rw [Option.getD_none, if_pos rfl]
  | some g => rw [Option.getD_some, if_neg (h d g hlook)]

/-- The signatures of a block are those of its packets. -/
theorem blockSigs_block {d : UInt16} (hreg : d.toNat < deviceVec.length) (pktVec : List KPacket) :
    DeviceBurstGenerator.blockSigs (block lib div deviceVec d pktVec) =
      DeviceBurstGenerator.packetSigs pktVec := by
  rw [block, List.getElem?_eq_getElem hreg]
  exact DeviceBurstGenerator.sigs_deviceBurstGenerator pktVec

open DeviceBurstGenerator in
/-- A block counts the packets of a list: each of them once (`sigs`), and the `int`s of a signature
sum up to its packets as long as each of them fits, as they do for fewer than `2 ^ 31` packets of
the signature. -/
structure CountsPackets (burstBlock : BurstBlock) (packets : List KPacket) : Prop where
  sigs : blockSigs burstBlock = packetSigs packets
  counts : ∀ sig, (intCounts burstBlock sig).sum = ((packetSigs packets).count sig : ℕ) ↔
    ∀ b ∈ burstBlock, ∀ e ∈ b.packetDetail, e.1 = sig → e.2 < 2 ^ 31
  few : ∀ sig, (packetSigs packets).count sig < 2 ^ 31 →
    (intCounts burstBlock sig).sum = ((packetSigs packets).count sig : ℕ)

theorem countsPackets_block {d : UInt16} (hreg : d.toNat < deviceVec.length)
    (pktVec : List KPacket) : CountsPackets (block lib div deviceVec d pktVec) pktVec := by
  have hsigs : DeviceBurstGenerator.blockSigs (block lib div deviceVec d pktVec) =
      DeviceBurstGenerator.packetSigs pktVec := blockSigs_block hreg pktVec
  refine ⟨hsigs, fun sig => ?_, fun sig hfew => ?_⟩
  · rw [← hsigs]
    exact DeviceBurstGenerator.sum_intCounts_iff _ sig
  · rw [← hsigs] at hfew ⊢
    exact DeviceBurstGenerator.sum_intCounts_of_lt hfew

end Converter

open Converter in
/-- **No packet is lost, duplicated or moved by the conversion.**  Each device has one block for
each slot in which it has a packet, in increasing slot order, and a block counts the packets of its
device and slot. -/
theorem pktDatasetCvtoBursts_conserves_int (lib : StdLib) (div : DivisionParam)
    (deviceVec : List KDevice) (l : List KPacket) (hslot : 1 ≤ div.timeslot) (hne : l ≠ [])
    (hsec : ∀ p ∈ l, 0 ≤ p.timestamp.tvSec ∧ p.timestamp.tvSec < 2 ^ 63)
    (hreg : ∀ p ∈ l, p.deviceId.toNat < deviceVec.length) :
    ∃ c, pktDatasetCvtoBursts lib div deviceVec l = .ok c ∧
      ∀ d, ∃ slots : List ℤ, slots.Pairwise (· < ·) ∧
        (∀ s, s ∈ slots ↔ ∃ p ∈ l, p.deviceId = d ∧ p.slotId div = s) ∧
        List.Forall₂
          (fun burstBlock s =>
            CountsPackets burstBlock (l.filter fun p => p.deviceId = d ∧ p.slotId div = s))
          (c.content d) slots := by
  have hzero : div.timeslot ≠ 0 := by
    rintro h
    rw [h] at hslot
    exact absurd hslot (by decide)
  obtain ⟨c, hok, hcontent⟩ := pktDatasetCvtoBursts_eq lib hzero hne hsec hreg
  refine ⟨c, hok, fun d => ⟨deviceSlots div l d, pairwise_deviceSlots div l d, ?_, ?_⟩⟩
  · exact fun s => mem_deviceSlots
  · rw [hcontent d, List.forall₂_map_left_iff, List.forall₂_same]
    intro s hs
    obtain ⟨p, hp, rfl, -⟩ := mem_deviceSlots.mp hs
    exact countsPackets_block (hreg p hp) _

/-- Packets of two devices.  The first sends in two slots, and pauses in the first of them. -/
def twoSenders : List KPacket :=
  [⟨0, 60, 7, ⟨1, 0⟩⟩, ⟨1, 80, 9, ⟨2, 0⟩⟩, ⟨0, 60, 7, ⟨2, 0⟩⟩, ⟨0, -40, 7, ⟨30, 0⟩⟩,
    ⟨0, 60, 7, ⟨1900, 0⟩⟩]

/-- The pause makes two bursts of the first block. -/
theorem pktDatasetCvtoBursts_conserves_int_twoSenders :
    let devices : List KDevice := [⟨false, 0, "a", "b", "c", "d"⟩, ⟨false, 1, "e", "f", "g", "h"⟩]
    (∃ c, Converter.pktDatasetCvtoBursts .insertion {} devices twoSenders = .ok c ∧
      ∀ d, ∃ slots : List ℤ, slots.Pairwise (· < ·) ∧
        (∀ s, s ∈ slots ↔ ∃ p ∈ twoSenders, p.deviceId = d ∧ p.slotId {} = s) ∧
        List.Forall₂
          (fun burstBlock s => Converter.CountsPackets burstBlock
            (twoSenders.filter fun p => p.deviceId = d ∧ p.slotId {} = s))
          (c.content d) slots) ∧
    (Converter.pktDatasetCvtoBursts .insertion {} devices twoSenders).toOption.map
        (fun c => ((c.content 0).map List.length, (c.content 1).map List.length)) =
      some ([2, 1], [1]) :=
  ⟨pktDatasetCvtoBursts_conserves_int .insertion {} _ _ (by decide) (by decide) (by decide)
    (by decide), by decide +kernel⟩

open Converter DeviceBurstGenerator in
/-- **A flood of packets**, all of them equal: the block is one burst, whose count is negative. -/
theorem not_conserves_flood :
    let lamp : KDevice := ⟨true, 0, "lamp", "lamp", "", "10.0.0.2"⟩
    ∃ c, pktDatasetCvtoBursts .insertion {} [lamp] Division.flood = .ok c ∧
      ∃ b, c.content 0 = [[b]] ∧ b.intDetail = [(60, -2147483648)] ∧
        (intCounts [b] 60).sum ≠
          ((packetSigs (Division.flood.filter fun p =>
            p.deviceId = 0 ∧ p.slotId {} = 0)).count 60 : ℕ) := by
  intro lamp
  have hmem : ∀ p ∈ Division.flood, p = Division.floodPacket :=
    fun p hp => List.eq_of_mem_replicate hp
  have hslot : ({} : DivisionParam).timeslot ≠ 0 := by decide
  have hreg : ∀ p ∈ Division.flood, p.deviceId.toNat < [lamp].length := by
    intro p hp
    rw [hmem p hp]
    decide
  obtain ⟨c, hok, hcontent⟩ := pktDatasetCvtoBursts_eq .insertion hslot Division.flood_ne_nil
    (fun p hp => by rw [hmem p hp]; decide) hreg
  have hall : ∀ p ∈ Division.flood, p.deviceId = 0 ∧ p.slotId {} = 0 := by
    intro p hp
    rw [hmem p hp]
    decide
  have hslots : deviceSlots {} Division.flood 0 = [0] := by
    refine deviceSlots_eq (List.pairwise_singleton _ _) fun s => ?_
    rw [List.mem_singleton]
    constructor
    · rintro rfl
      obtain ⟨p, hp⟩ := List.exists_mem_of_ne_nil _ Division.flood_ne_nil
      exact ⟨p, hp, hall p hp⟩
    · rintro ⟨p, hp, -, rfl⟩
      exact (hall p hp).2
  have hfilter : (Division.flood.filter fun p => p.deviceId = 0 ∧ p.slotId {} = 0) =
      Division.flood :=
    List.filter_eq_self.mpr fun p hp => decide_eq_true (hall p hp)
  refine ⟨c, hok, Division.repeated lamp Division.floodPacket 2147483648, ?_, ?_, ?_⟩
  · rw [hcontent 0, hslots, List.map_singleton, slotPackets, hfilter]
    exact congrArg (fun b => [b]) (Division.deviceBurstGenerator_flood .insertion lamp)
  · decide
  · have hsig : Division.floodPacket.signedLen = 60 := rfl
    rw [hfilter, Division.flood, packetSigs, List.map_replicate, Multiset.coe_count, hsig,
      List.count_replicate_self]
    decide

end BurstIoT
