import BurstIoT.PacketStore

/-!
# Two address maps

Whether a packet belongs to a device is asked of two maps.  The converter files every device of the
registry under the address that its own dataset maps by (`fileAddr`); the registry has filed it
under the address that the device was registered with (`getAddr`).  A device keeps the one of the
two that its mapping file gave, and the other is as PcapPlusPlus constructs it.

So the maps agree as long as all devices were registered by the same kind of address.  Where they
were not, the devices of the other kind are filed by the converter under the default address, which
the registry knows only if some device was registered with it (`addressesAgree_iff`).

`Indexed` says what a registry is after any calls of `AddDevices`.
-/

namespace BurstIoT

namespace KDevice

/-- The address that a device was not registered with is the default one. -/
def Unmapped (pcpp : PcapPlusPlus) (device : KDevice) : Prop :=
  if device.mappingIP then device.mac = pcpp.defaultMac else device.ipaddr = pcpp.defaultIPv4

theorem unmapped_ofLine (pcpp : PcapPlusPlus) (line : String) (mappingIP : Bool) (count : UInt16) :
    Unmapped pcpp (.ofLine pcpp line mappingIP count) := by
  rw [Unmapped, ofLine]
  cases mappingIP <;> rfl

end KDevice

namespace Context

/-! ## The calls of `AddDevices` -/

/-- A call of `AddDevices`: the entry of the dataset in `datasetInfoMaps`, and the lines of its
mapping file. -/
structure Registration where
  info : DatasetInfo
  deviceMappings : Option (List String)
  deriving DecidableEq, Repr

/-- Calls of `AddDevices`, one after another. -/
def register (pcpp : PcapPlusPlus) (context : Context) (calls : List Registration) :
    Except Fault Context :=
  calls.foldlM (fun context call => addDevices pcpp call.info call.deviceMappings context) context

theorem register_cons {pcpp : PcapPlusPlus} {first : String} {lines : List String}
    (call : Registration) (calls : List Registration) (context : Context)
    (hfirst : ¬ ['I', 'P'].isPrefixOf first.toList = true)
    (hmappings : call.deviceMappings = some (first :: lines)) :
    register pcpp context (call :: calls) =
      register pcpp (lines.foldl (addDevice pcpp call.info) context) calls := by
  rw [register, List.foldlM_cons, hmappings, addDevices_cons hfirst]
  rfl

/-- **The registry after any calls**: a device is found by the address it was registered with, the
first one of that address, and its number is its index. -/
structure Indexed (pcpp : PcapPlusPlus) (context : Context) : Prop where
  lookup_addressMap : ∀ addr, context.addressMap.lookup addr =
    context.deviceVec.find? fun device => device.getAddr = addr
  devId : ∀ i device, context.deviceVec[i]? = some device → device.devId = UInt16.ofNat i
  count : context.count = UInt16.ofNat context.deviceVec.length
  unmapped : ∀ device ∈ context.deviceVec, device.Unmapped pcpp

variable {pcpp : PcapPlusPlus} {context : Context}

theorem indexed_start : Indexed pcpp {} where
  lookup_addressMap _ := rfl
  devId _ _ h := by cases h
  count := rfl
  unmapped _ h := absurd h List.not_mem_nil

theorem indexed_addDevice (h : context.Indexed pcpp) (info : DatasetInfo) (line : String) :
    (addDevice pcpp info context line).Indexed pcpp where
  lookup_addressMap := UnorderedMap.lookup_emplace_find? KDevice.getAddr h.lookup_addressMap _
  devId i device hdevice := by
    rw [deviceVec_addDevice] at hdevice
    by_cases hi : i < context.deviceVec.length
    · rw [List.getElem?_append_left hi] at hdevice
      exact h.devId i device hdevice
    · rw [List.getElem?_append_right (Nat.not_lt.mp hi), List.getElem?_singleton] at hdevice
      split_ifs at hdevice with hlast
      have hi : i = context.deviceVec.length := by omega
      obtain rfl := Option.some_inj.mp hdevice
      rw [hi]
      exact h.count
  count := by
    rw [deviceVec_addDevice, List.length_append, List.length_singleton, UInt16.ofNat_add, ← h.count]
    rfl
  unmapped device hdevice := by
    rw [deviceVec_addDevice, List.mem_append, List.mem_singleton] at hdevice
    rcases hdevice with hdevice | rfl
    · exact h.unmapped device hdevice
    · exact KDevice.unmapped_ofLine pcpp line info.mappingIP context.count

/-- **What registering one line keeps**, any calls of `AddDevices` keep. -/
theorem register_inv {P : Context → Prop}
    (hstep : ∀ info line context, P context → P (addDevice pcpp info context line))
    {calls : List Registration} {context' : Context} (h : P context)
    (hok : register pcpp context calls = .ok context') : P context' := by
  have hlines : ∀ info (lines : List String) context, P context →
      P (lines.foldl (addDevice pcpp info) context) := by
    intro info lines
    induction lines with
    | nil => exact fun _ h => h
    | cons line lines ih => exact fun context h => ih _ (hstep info line context h)
  refine CheckedLoop.foldlM_inv (I := fun _ context => P context) calls [] ?_ h hok
  rintro done call context context' - hcontext hcall
  obtain ⟨lines, -, rfl⟩ := addDevices_eq_ok hcall
  exact hlines call.info lines.tail context hcontext

/-- **Any calls of `AddDevices` leave an indexed registry.** -/
theorem indexed_register {calls : List Registration} {context' : Context}
    (h : context.Indexed pcpp) (hok : register pcpp context calls = .ok context') :
    context'.Indexed pcpp :=
  register_inv (P := Indexed pcpp)
    (fun info line _ hcontext => indexed_addDevice hcontext info line)
    h hok

theorem Indexed.exists_lookup_iff (h : context.Indexed pcpp) {addr : String} :
    (∃ device, context.addressMap.lookup addr = some device) ↔
      ∃ device ∈ context.deviceVec, device.getAddr = addr := by
  rw [h.lookup_addressMap, ← Option.isSome_iff_exists, List.find?_isSome]
  simp

/-- The number of a registered device is the index of a device, also when the counter has
wrapped. -/
theorem Indexed.devId_lt (h : context.Indexed pcpp) {device : KDevice}
    (hdevice : device ∈ context.deviceVec) : device.devId.toNat < context.deviceVec.length := by
  obtain ⟨i, hi, rfl⟩ := List.mem_iff_getElem.mp hdevice
  rw [h.devId i _ (List.getElem?_eq_getElem hi), UInt16.toNat_ofNat']
  exact (Nat.mod_le i _).trans_lt hi

theorem getDeviceByAddr_eq_ok {addr : String} {device : KDevice} :
    context.getDeviceByAddr addr = .ok device ↔ context.addressMap.lookup addr = some device := by
  rw [getDeviceByAddr]
  cases context.addressMap.lookup addr <;> simp

end Context

/-! ## What the converter accepts -/

open PacketStore

/-- The address under which a device that was registered by the other kind of address is filed. -/
def DatasetInfo.defaultAddr (pcpp : PcapPlusPlus) (info : DatasetInfo) : String :=
  if info.mappingIP then pcpp.defaultIPv4 else pcpp.defaultMac

/-- **The address maps agree**: what the converter accepts is in the registry, and so `AddPacket`,
which leaves its own map as it is, never throws. -/
def AddressesAgree (context : Context) (info : DatasetInfo) : Prop :=
  (∀ addr, (ofDevices info context.deviceVec).isIoTAddr addr = true →
    ∃ device, context.getDeviceByAddr addr = .ok device) ∧
  ∀ store : PacketStore, store.addressMap = (ofDevices info context.deviceVec).addressMap →
    ∀ addr isSource rawPacket,
      addPacket context store addr isSource rawPacket ≠ .error (.thrown .deviceNotFound)

variable {pcpp : PcapPlusPlus} {context : Context} {info : DatasetInfo}

/-- `AddPacket` throws for an address that it accepts and does not find. -/
theorem addPacket_deviceNotFound_iff {store : PacketStore} {addr : String} (isSource : Bool)
    (rawPacket : RawPacket) :
    addPacket context store addr isSource rawPacket = .error (.thrown .deviceNotFound) ↔
      store.isIoTAddr addr = true ∧ context.addressMap.lookup addr = none := by
  rw [addPacket, Context.getDeviceByAddr]
  cases store.isIoTAddr addr with
  | false => simp
  | true =>
    rw [if_neg (by decide)]
    cases context.addressMap.lookup addr with
    | none => simp [bind, Except.bind]
    | some device =>
      cases hstat : at? store.devStat device.devId.toNat with
      | error fault =>
        obtain rfl := fault_of_at? hstat
        simp [bind, Except.bind, hstat]
      | ok stat => simp [bind, Except.bind, hstat, pure, Except.pure]

/-- The second half of the agreement follows from the first one. -/
theorem addressesAgree_iff_found : AddressesAgree context info ↔
    ∀ addr, (ofDevices info context.deviceVec).isIoTAddr addr = true →
      ∃ device, context.addressMap.lookup addr = some device := by
  simp only [AddressesAgree, Context.getDeviceByAddr_eq_ok]
  refine ⟨And.left, fun h => ⟨h, ?_⟩⟩
  rintro store haddr addr isSource rawPacket hthrow
  obtain ⟨hiot, hnone⟩ := (addPacket_deviceNotFound_iff _ _).mp hthrow
  obtain ⟨device, hdevice⟩ := h addr (by rw [isIoTAddr, ← haddr]; exact hiot)
  rw [hnone] at hdevice
  cases hdevice

/-- A device of the dataset's kind is filed as it was registered. -/
theorem fileAddr_of_same {device : KDevice} (h : device.mappingIP = info.mappingIP)
    (hkind : info.mappingIP = true ∨ info.mappingMac = true) :
    fileAddr info device = some device.getAddr := by
  rw [fileAddr, KDevice.getAddr, h]
  rcases hkind with hkind | hkind
  · rw [if_pos hkind, if_pos hkind]
  · rw [if_pos hkind]
    split_ifs <;> rfl

/-- A device of the other kind is filed under the default address. -/
theorem fileAddr_of_other {device : KDevice} (hunmapped : device.Unmapped pcpp)
    (h : device.mappingIP ≠ info.mappingIP)
    (hkind : info.mappingIP = true ∨ info.mappingMac = true) :
    fileAddr info device = some (info.defaultAddr pcpp) := by
  rw [KDevice.Unmapped] at hunmapped
  rw [fileAddr, DatasetInfo.defaultAddr]
  cases hinfo : info.mappingIP with
  | true =>
    have hmac : device.mappingIP = false := by simpa [hinfo] using h
    simp [hmac] at hunmapped
    simp [hunmapped]
  | false =>
    have hip : device.mappingIP = true := by simpa [hinfo] using h
    have hmac : info.mappingMac = true := by simpa [hinfo] using hkind
    simp [hip] at hunmapped
    simp [hunmapped, hmac]

theorem fileAddr_of_neither (device : KDevice) (hip : info.mappingIP = false)
    (hmac : info.mappingMac = false) : fileAddr info device = none := by
  rw [fileAddr, hip, hmac]
  rfl

/-- **When the two maps agree.**  After any calls of `AddDevices`, the converter of a dataset
accepts only addresses that the registry finds exactly when the dataset maps by no address at all,
or every registered device was registered by the dataset's kind of address, or some device was
registered with the default address of that kind. -/
theorem addressesAgree_iff (pcpp : PcapPlusPlus) (calls : List Context.Registration)
    (context : Context) (hcalls : Context.register pcpp {} calls = .ok context)
    (info : DatasetInfo) : AddressesAgree context info ↔
      (info.mappingIP = false ∧ info.mappingMac = false) ∨
      (∀ device ∈ context.deviceVec, device.mappingIP = info.mappingIP) ∨
      ∃ device ∈ context.deviceVec, device.getAddr = info.defaultAddr pcpp := by
  have hindexed := Context.indexed_register Context.indexed_start hcalls
  rw [addressesAgree_iff_found]
  simp only [isIoTAddr_ofDevices, hindexed.exists_lookup_iff]
  by_cases hkind : info.mappingIP = true ∨ info.mappingMac = true
  · have hneither : ¬ (info.mappingIP = false ∧ info.mappingMac = false) := by
      rintro ⟨hip, hmac⟩
      simp [hip, hmac] at hkind
    rw [or_iff_right hneither]
    constructor
    · intro hagree
      by_contra hnot
      rw [not_or] at hnot
      obtain ⟨hmixed, hdefault⟩ := hnot
      simp only [not_forall] at hmixed
      obtain ⟨device, hdevice, hother⟩ := hmixed
      exact hdefault (hagree _ ⟨device, hdevice,
        fileAddr_of_other (hindexed.unmapped device hdevice) hother hkind⟩)
    · rintro hcase addr ⟨device, hdevice, hfile⟩
      by_cases hsame : device.mappingIP = info.mappingIP
      · rw [fileAddr_of_same hsame hkind] at hfile
        exact ⟨device, hdevice, Option.some_inj.mp hfile⟩
      · rw [fileAddr_of_other (hindexed.unmapped device hdevice) hsame hkind] at hfile
        rw [← Option.some_inj.mp hfile]
        rcases hcase with hall | hdefault
        · exact absurd (hall device hdevice) hsame
        · exact hdefault
  · rw [not_or, Bool.not_eq_true, Bool.not_eq_true] at hkind
    refine ⟨fun _ => Or.inl hkind, ?_⟩
    rintro - addr ⟨device, -, hfile⟩
    rw [fileAddr_of_neither device hkind.1 hkind.2] at hfile
    cases hfile

/-! ## Two datasets of different kinds -/

/-- A dataset whose devices are told apart by MAC address. -/
def plugDataset : Context.Registration where
  info := { mappingMac := true, mappingIP := false }
  deviceMappings := some ["name,address", "plug,02:00:00:00:00:01"]

/-- A dataset whose devices are told apart by IP address. -/
def cameraDataset : Context.Registration where
  info := {}
  deviceMappings := some ["name,address", "camera,10.0.0.1"]

/-- The packet of a host that asks for an address. -/
def discoverPacket : RawPacket where
  isIPv4 := true
  isEthernet := true
  srcIPv4 := "0.0.0.0"
  dstIPv4 := "255.255.255.255"
  srcMac := "02:00:00:00:00:02"
  dstMac := "ff:ff:ff:ff:ff:ff"
  frameLength := 342
  hash5tuple := 0
  timestamp := ⟨1, 0⟩

theorem register_twoKinds : Context.register canonicalPcapPlusPlus {} [plugDataset, cameraDataset] =
    .ok (Context.addDevice canonicalPcapPlusPlus cameraDataset.info
      (Context.addDevice canonicalPcapPlusPlus plugDataset.info {} "plug,02:00:00:00:00:01")
      "camera,10.0.0.1") := by
  have hfirst : ¬ ['I', 'P'].isPrefixOf "name,address".toList = true := by decide +kernel
  rw [Context.register_cons plugDataset _ _ hfirst rfl,
    Context.register_cons cameraDataset _ _ hfirst rfl]
  rfl

/-- What the registry knows of the packet's source, and what the converter does. -/
theorem discover_twoKinds : ∀ context,
    Context.register canonicalPcapPlusPlus {} [plugDataset, cameraDataset] = .ok context →
      (ofDevices cameraDataset.info context.deviceVec).isIoTAddr discoverPacket.srcIPv4 = true ∧
      context.addressMap.lookup discoverPacket.srcIPv4 = none := by
  intro context h
  obtain rfl := Except.ok.inj (register_twoKinds.symm.trans h)
  decide +kernel

/-- The converter of one dataset agrees with the registry. -/
theorem addressesAgree_iff_plug : ∃ context,
    Context.register canonicalPcapPlusPlus {} [plugDataset, cameraDataset] = .ok context ∧
      (AddressesAgree context plugDataset.info ↔
        (plugDataset.info.mappingIP = false ∧ plugDataset.info.mappingMac = false) ∨
        (∀ device ∈ context.deviceVec, device.mappingIP = plugDataset.info.mappingIP) ∨
        ∃ device ∈ context.deviceVec,
          device.getAddr = plugDataset.info.defaultAddr canonicalPcapPlusPlus) :=
  ⟨_, register_twoKinds, addressesAgree_iff _ _ _ register_twoKinds plugDataset.info⟩

/-- **The maps need not agree**: the MAC dataset's device is filed under `0.0.0.0` by the converter
of the IP dataset, and a packet from there makes it throw. -/
theorem not_addressesAgree_twoKinds : ∃ context,
    Context.register canonicalPcapPlusPlus {} [plugDataset, cameraDataset] = .ok context ∧
      ¬ AddressesAgree context cameraDataset.info ∧
      addPacket context (ofDevices cameraDataset.info context.deviceVec) discoverPacket.srcIPv4 true
        discoverPacket = .error (.thrown .deviceNotFound) := by
  have hthrow := (addPacket_deviceNotFound_iff true discoverPacket).mpr
    (discover_twoKinds _ register_twoKinds)
  exact ⟨_, register_twoKinds, fun h => h.2 _ rfl _ _ _ hthrow, hthrow⟩

end BurstIoT
