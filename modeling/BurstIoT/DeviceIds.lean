import BurstIoT.FlowOrder
import BurstIoT.Registry

/-!
# The numbers of the devices

A device gets its number from the static counter of the constructor of `KDevice`, and is appended to
the vector that `GetDeviceById` indexes.  The two maps keep the first device of a name or of an
address, with its number.

In a registry of any calls of `AddDevices` a number is an index modulo `65536`
(`Context.Indexed`).  With fewer than `65536` lines it is the index itself, so `GetDeviceById` takes
the number of a device that was found back to this device (`getDeviceById_of_mem`), and a burst of
the packets that were stored under an address carries the name of a device with this address
(`ids_resolve`).
-/

namespace BurstIoT
namespace Context

variable {pcpp : PcapPlusPlus} {context : Context}

/-! ## Names -/

/-- A device is found by its name, the first one of that name. -/
def FoundByName (context : Context) : Prop :=
  ∀ name, context.allDevices.lookup name =
    context.deviceVec.find? fun device => device.instanceName = name

theorem foundByName_addDevice (h : context.FoundByName) (info : DatasetInfo) (line : String) :
    (addDevice pcpp info context line).FoundByName :=
  UnorderedMap.lookup_emplace_find? KDevice.instanceName h _

theorem foundByName_register {calls : List Registration}
    (hok : register pcpp {} calls = .ok context) : context.FoundByName :=
  register_inv (P := FoundByName)
    (fun info line _ hcontext => foundByName_addDevice hcontext info line) (fun _ => rfl) hok

/-! ## How many devices there are -/

/-- The lines of a mapping file that register a device: those after the first. -/
def Registration.deviceLines (call : Registration) : List String :=
  (call.deviceMappings.getD []).tail

theorem length_deviceVec_register {calls : List Registration}
    (hok : register pcpp {} calls = .ok context) :
    context.deviceVec.length = (calls.map fun call => call.deviceLines.length).sum := by
  refine CheckedLoop.foldlM_inv (I := fun (done : List Registration) (context : Context) =>
    context.deviceVec.length = (done.map fun call => call.deviceLines.length).sum)
    calls [] ?_ rfl hok
  rintro done call context context' - hcontext hcall
  obtain ⟨lines, hlines, rfl⟩ := addDevices_eq_ok hcall
  rw [length_deviceVec_foldl_addDevice, hcontext, List.map_append, List.sum_append,
    List.map_singleton, List.sum_singleton, Registration.deviceLines, hlines, Option.getD_some]

/-! ## Numbers and indices -/

/-- **The number of a registered device is its index**, while the counter has not wrapped. -/
theorem Indexed.getDeviceById_of_mem (h : context.Indexed pcpp)
    (hlength : context.deviceVec.length ≤ 65536) {device : KDevice}
    (hdevice : device ∈ context.deviceVec) : context.getDeviceById device.devId = .ok device := by
  obtain ⟨i, hi⟩ := List.mem_iff_getElem?.mp hdevice
  have hlt : i < context.deviceVec.length := (List.getElem?_eq_some_iff.mp hi).1
  have hid : device.devId.toNat = i := by
    rw [h.devId i device hi, UInt16.toNat_ofNat']
    exact Nat.mod_eq_of_lt (by omega)
  rw [getDeviceById, hid, at?_eq_ok, hi]

theorem Indexed.of_getDeviceByAddr (h : context.Indexed pcpp) {addr : String} {device : KDevice}
    (hfound : context.getDeviceByAddr addr = .ok device) :
    device ∈ context.deviceVec ∧ device.getAddr = addr := by
  rw [getDeviceByAddr_eq_ok, h.lookup_addressMap] at hfound
  exact ⟨List.mem_of_find?_eq_some hfound, by simpa using List.find?_some hfound⟩

theorem FoundByName.of_getDevice (h : context.FoundByName) {name : String} {device : KDevice}
    (hfound : context.getDevice name = .ok device) :
    device ∈ context.deviceVec ∧ device.instanceName = name := by
  rw [getDevice_eq_ok, h] at hfound
  exact ⟨List.mem_of_find?_eq_some hfound, by simpa using List.find?_some hfound⟩

end Context

/-! ## From an address to a label -/

/-- The bursts of a block of a registered device carry its name. -/
theorem instanceLabel_of_mem_block {context : Context} {device : KDevice}
    (hdevice : context.getDeviceById device.devId = .ok device) {lib : StdLib}
    {div : DivisionParam} {pktVec : List KPacket} {b : Burst}
    (hb : b ∈ Converter.block lib div context.deviceVec device.devId pktVec) :
    b.instanceLabel = device.instanceName := by
  rw [Context.getDeviceById, at?_eq_ok] at hdevice
  rw [Converter.block, hdevice] at hb
  exact DeviceBurstGenerator.instanceLabel_of_mem hb

/-- What `AddPacket` stores carries the number of the device with the address. -/
theorem PacketStore.addPacket_eq_ok_true {context : Context} {store store' : PacketStore}
    {addr : String} {isSource : Bool} {rawPacket : RawPacket} {device : KDevice}
    (hdevice : context.getDeviceByAddr addr = .ok device)
    (h : PacketStore.addPacket context store addr isSource rawPacket = .ok (true, store')) :
    store'.dataset = store.dataset ++ [PacketStore.seenFrom device.devId isSource rawPacket] := by
  rw [PacketStore.addPacket] at h
  by_cases hiot : (!store.isIoTAddr addr) = true
  · rw [if_pos hiot] at h
    cases h
  · rw [if_neg hiot] at h
    obtain ⟨device', hdevice', h⟩ := CheckedLoop.bind_eq_ok.mp h
    obtain rfl := Except.ok.inj (hdevice.symm.trans hdevice')
    obtain ⟨stat, -, h⟩ := CheckedLoop.bind_eq_ok.mp h
    obtain ⟨-, rfl⟩ := Prod.mk.inj (Except.ok.inj h)
    rfl

/-- **Ids resolve to the right device.**  After any calls of `AddDevices` on fewer than `65536`
lines, the number of the device found by an address or by a name is in range and the number of that
device; and the bursts of the packets that are stored under the address carry its name. -/
theorem ids_resolve (pcpp : PcapPlusPlus) (calls : List Context.Registration) (context : Context)
    (hcalls : Context.register pcpp {} calls = .ok context)
    (hlines : (calls.map fun call => call.deviceLines.length).sum < 65536) :
    (∀ addr device, context.getDeviceByAddr addr = .ok device →
      device.devId.toNat < context.deviceVec.length ∧
      context.getDeviceById device.devId = .ok device ∧ device.getAddr = addr ∧
      ∀ store isSource rawPacket store',
        PacketStore.addPacket context store addr isSource rawPacket = .ok (true, store') →
          ∃ packet, store'.dataset = store.dataset ++ [packet] ∧
            ∀ lib div pktVec,
              ∀ b ∈ Converter.block lib div context.deviceVec packet.deviceId pktVec,
              b.instanceLabel = device.instanceName) ∧
    ∀ name device, context.getDevice name = .ok device →
      device.devId.toNat < context.deviceVec.length ∧
      context.getDeviceById device.devId = .ok device ∧ device.instanceName = name := by
  have hindexed := Context.indexed_register Context.indexed_start hcalls
  have hlength : context.deviceVec.length ≤ 65536 := by
    rw [Context.length_deviceVec_register hcalls]
    exact hlines.le
  constructor
  · intro addr device hfound
    obtain ⟨hdevice, haddr⟩ := hindexed.of_getDeviceByAddr hfound
    have hid := hindexed.getDeviceById_of_mem hlength hdevice
    refine ⟨hindexed.devId_lt hdevice, hid, haddr, fun store isSource rawPacket store' hstore => ?_⟩
    exact ⟨_, PacketStore.addPacket_eq_ok_true hfound hstore,
      fun _ _ _ _ hb => instanceLabel_of_mem_block hid hb⟩
  · intro name device hfound
    obtain ⟨hdevice, hname⟩ := (Context.foundByName_register hcalls).of_getDevice hfound
    exact ⟨hindexed.devId_lt hdevice, hindexed.getDeviceById_of_mem hlength hdevice, hname⟩

/-- Two datasets of one device each. -/
theorem ids_resolve_twoKinds : ∃ context,
    Context.register canonicalPcapPlusPlus {} [plugDataset, cameraDataset] = .ok context ∧
      ∀ name device, context.getDevice name = .ok device →
        device.devId.toNat < context.deviceVec.length ∧
        context.getDeviceById device.devId = .ok device ∧ device.instanceName = name :=
  ⟨_, register_twoKinds, (ids_resolve _ _ _ register_twoKinds (by decide)).2⟩

end BurstIoT
