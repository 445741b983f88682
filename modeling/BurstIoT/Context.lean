import BurstIoT.KException
import BurstIoT.Names
import BurstIoT.Packet

/-!
# The device registry

`Context` keeps the devices of the mapping files, and is one object for the whole process.
`AddDevices` reads a file and registers a device for each line: in two maps, by name and by address,
which keep the entry they have, and in a vector, to which every device is appended.  The devices are
numbered by a static counter of the constructor of `KDevice`, which is kept here beside the maps.

Addresses are those of PcapPlusPlus, and a device keeps them as they print.
-/

namespace BurstIoT

/-- The address classes of PcapPlusPlus: how the address that a text denotes prints, and how a
default-constructed one does. -/
structure PcapPlusPlus where
  ipv4 : String → String
  mac : String → String
  defaultIPv4 : String
  defaultMac : String

/-- PcapPlusPlus on addresses that are written as they print. -/
def canonicalPcapPlusPlus : PcapPlusPlus where
  ipv4 := id
  mac := id
  defaultIPv4 := "0.0.0.0"
  defaultMac := "00:00:00:00:00:00"

/-- `DatasetInfo`: by which address the devices of the dataset are told apart, and where its files
are. -/
structure DatasetInfo where
  mappingMac : Bool := false
  mappingIP : Bool := true
  datasetFolder : String := "F:/UNSW"
  deriving DecidableEq, Repr

namespace KDevice

/-- `KDevice::KDevice`, with the value of its counter. -/
def ofLine (pcpp : PcapPlusPlus) (deviceAddressStr : String) (mappingIP : Bool) (count : UInt16) :
    KDevice :=
  let (deviceRawName, addrString) := splitPairStrByComma deviceAddressStr
  { mappingIP
    devId := count
    instanceName := makeFormattedName deviceRawName
    typeLabel := removeSuffix (makeFormattedName deviceRawName)
    mac := if mappingIP then pcpp.defaultMac else pcpp.mac addrString
    ipaddr := if mappingIP then pcpp.ipv4 addrString else pcpp.defaultIPv4 }

/-- `GetAddr`. -/
def getAddr (device : KDevice) : String :=
  if device.mappingIP then device.ipaddr else device.mac

end KDevice

/-- `Context`, with the counter of `KDevice`. -/
structure Context where
  allDevices : UnorderedMap String KDevice := ∅
  addressMap : UnorderedMap String KDevice := ∅
  deviceVec : List KDevice := []
  count : UInt16 := 0

namespace Context

/-! ## Registering devices -/

/-- `UpdateDeviceMap`. -/
def updateDeviceMap (context : Context) (device : KDevice) : Context :=
  { context with
    allDevices := context.allDevices.emplace device.instanceName device
    addressMap := context.addressMap.emplace device.getAddr device
    deviceVec := context.deviceVec ++ [device] }

/-- One line of a mapping file. -/
def addDevice (pcpp : PcapPlusPlus) (info : DatasetInfo) (context : Context) (line : String) :
    Context :=
  { context with count := context.count + 1 }.updateDeviceMap
    (.ofLine pcpp line info.mappingIP context.count)

/-- `ValidateDeviceMappingStream`, on the lines of the file if it is there: the lines that follow
the first one, which must not begin with `IP`. -/
def validateDeviceMappingStream (stream : Option (List String)) : Except Fault (List String) :=
  match stream with
  | none => .error (.thrown .deviceMappingOpenError)
  | some lines =>
    if ['I', 'P'].isPrefixOf (lines.head?.getD "").toList then
      .error (.thrown .deviceMappingTypeError)
    else .ok lines.tail

/-- `AddDevices`.  It catches the exceptions of the validation, reports them and exits. -/
def addDevices (pcpp : PcapPlusPlus) (info : DatasetInfo) (deviceMappings : Option (List String))
    (context : Context) : Except Fault Context := do
  let lines ← validateDeviceMappingStream deviceMappings
  return lines.foldl (addDevice pcpp info) context

/-- `ClearDevices`. -/
def clearDevices (context : Context) : Context :=
  { context with allDevices := ∅, addressMap := ∅, deviceVec := [] }

/-! ## Looking devices up -/

/-- `GetDevice`. -/
def getDevice (context : Context) (deviceName : String) : Except Fault KDevice :=
  match context.allDevices.lookup deviceName with
  | some device => .ok device
  | none => .error (.thrown .deviceNotFound)

theorem getDevice_eq_ok {context : Context} {name : String} {device : KDevice} :
    context.getDevice name = .ok device ↔ context.allDevices.lookup name = some device := by
  rw [getDevice]
  cases context.allDevices.lookup name <;> simp

/-- `GetDeviceByAddr`. -/
def getDeviceByAddr (context : Context) (addr : String) : Except Fault KDevice :=
  match context.addressMap.lookup addr with
  | some device => .ok device
  | none => .error (.thrown .deviceNotFound)

/-- `GetDeviceById`. -/
def getDeviceById (context : Context) (devid : UInt16) : Except Fault KDevice :=
  at? context.deviceVec devid.toNat

variable {pcpp : PcapPlusPlus} {info : DatasetInfo}

/-! ## What registering leaves -/

@[simp] theorem deviceVec_addDevice (context : Context) (line : String) :
    (addDevice pcpp info context line).deviceVec =
      context.deviceVec ++ [.ofLine pcpp line info.mappingIP context.count] := rfl

theorem length_deviceVec_foldl_addDevice (lines : List String) (context : Context) :
    (lines.foldl (addDevice pcpp info) context).deviceVec.length =
      context.deviceVec.length + lines.length := by
  induction lines generalizing context with
  | nil => rfl
  | cons line lines ih =>
    rw [List.foldl_cons, ih, deviceVec_addDevice, List.length_append, List.length_singleton,
      List.length_cons]
    omega

theorem addDevices_cons {first : String} (hfirst : ¬ ['I', 'P'].isPrefixOf first.toList = true)
    (lines : List String) (context : Context) :
    addDevices pcpp info (some (first :: lines)) context =
      .ok (lines.foldl (addDevice pcpp info) context) := by
  rw [addDevices, validateDeviceMappingStream, List.head?_cons, Option.getD_some, if_neg hfirst]
  rfl

/-- What `AddDevices` does: it registers the lines after the first. -/
theorem addDevices_eq_ok {deviceMappings : Option (List String)} {context context' : Context}
    (h : addDevices pcpp info deviceMappings context = .ok context') :
    ∃ lines, deviceMappings = some lines ∧
      context' = lines.tail.foldl (addDevice pcpp info) context := by
  cases deviceMappings with
  | none => cases h
  | some lines =>
    rw [addDevices, validateDeviceMappingStream] at h
    split_ifs at h
    · cases h
    · exact ⟨lines, rfl, (Except.ok.inj h).symm⟩

end Context
end BurstIoT
