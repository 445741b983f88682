import BurstIoT.Context
import BurstIoT.PacketDataset
import BurstIoT.RawReading
import BurstIoT.Library.CheckedLoop

/-!
# From capture files to the packet dataset

`RawCvtoPktDataset` reads the capture files and stores, for each packet and each of its two ends
that is a registered device, one `KPacket`.  Whether an address is one of a device is asked of the
converter's own map (`IsIoTAddr`), and the device itself is then looked up in the registry
(`GetDeviceByAddr`).

The tasks that share this work are the subject of `RawReading`; here the chunks of a file are stored
one after another, and the files in their order.
-/

namespace BurstIoT

/-- What PcapPlusPlus shows of a `RawPacket`. -/
structure RawPacket where
  isIPv4 : Bool
  isEthernet : Bool
  srcIPv4 : String
  dstIPv4 : String
  srcMac : String
  dstMac : String
  frameLength : ℤ
  hash5tuple : UInt32
  timestamp : Timespec
  deriving DecidableEq, Repr

/-- A capture file. -/
abbrev CaptureFile : Type := RawReading.RawFile RawPacket

/-- `DeviceStat`.  Its totals are `long`s that only count up, and are counted like the `int`s of a
burst. -/
structure DeviceStat where
  instanceName : String
  totalSend : ℕ := 0
  totalRecv : ℕ := 0
  deriving DecidableEq, Repr

/-- The fields of `Converter` that store packets: its address map, and `pkDataset` with its
statistics.  `usefulPktNum` is not initialized, and counted here from zero. -/
structure PacketStore where
  addressMap : UnorderedMap String KDevice := ∅
  dataset : List KPacket := []
  devStat : List DeviceStat := []
  usefulPktNum : ℕ := 0

namespace PacketStore

/-- The iteration of the constructor over `GetAllDevices()`. -/
def registerDevice (info : DatasetInfo) (store : PacketStore) (device : KDevice) : PacketStore :=
  { store with
    addressMap :=
      if info.mappingIP then store.addressMap.emplace device.ipaddr device
      else if info.mappingMac then store.addressMap.emplace device.mac device
      else store.addressMap
    devStat := store.devStat ++ [{ instanceName := device.instanceName }] }

/-- `Converter::Converter`. -/
def ofDevices (info : DatasetInfo) (deviceVec : List KDevice) : PacketStore :=
  deviceVec.foldl (registerDevice info) {}

/-- `IsIoTAddr`. -/
def isIoTAddr (store : PacketStore) (ipStr : String) : Bool :=
  (store.addressMap.lookup ipStr).isSome

/-- `signedLen`, before its sign is turned: the frame length, at most 3000, as a `short`. -/
def cutLength (len : ℤ) : Int16 :=
  Int16.ofInt (if len > 3000 then 3000 else len)

/-- The entry of a packet, as seen from a device that sends or receives it. -/
def seenFrom (devId : UInt16) (isSource : Bool) (rawPacket : RawPacket) : KPacket where
  deviceId := devId
  signedLen :=
    if isSource then cutLength rawPacket.frameLength else -cutLength rawPacket.frameLength
  hash5tuple := rawPacket.hash5tuple
  timestamp := rawPacket.timestamp

/-- `AddPacket`: store the entry of the device with the address, if there is one.  A device number
beyond `devStat` is undefined. -/
def addPacket (context : Context) (store : PacketStore) (addr : String) (isSource : Bool)
    (rawPacket : RawPacket) : Except Fault (Bool × PacketStore) :=
  if !store.isIoTAddr addr then .ok (false, store)
  else do
    let device ← context.getDeviceByAddr addr
    let devId := device.devId
    let stat ← at? store.devStat devId.toNat
    let stat :=
      if isSource then { stat with totalSend := stat.totalSend + 1 }
      else { stat with totalRecv := stat.totalRecv + 1 }
    return (true, { store with
      devStat := store.devStat.set devId.toNat stat
      dataset := store.dataset ++ [seenFrom devId isSource rawPacket] })

/-- One iteration of `StoreKPackets`, with `srcAddr` and `dstAddr` as the last one left them. -/
def storeKPacket (context : Context) (info : DatasetInfo)
    (s : PacketStore × String × String) (rawPacket : RawPacket) :
    Except Fault (PacketStore × String × String) :=
  let (store, srcAddr, dstAddr) := s
  if info.mappingIP && !rawPacket.isIPv4 then .ok s
  else if info.mappingMac && !rawPacket.isEthernet then .ok s
  else do
    let (srcAddr, dstAddr) :=
      if info.mappingIP then (rawPacket.srcIPv4, rawPacket.dstIPv4)
      else if info.mappingMac then (rawPacket.srcMac, rawPacket.dstMac)
      else (srcAddr, dstAddr)
    let (srcSucc, store) ← addPacket context store srcAddr true rawPacket
    let (dstSucc, store) ← addPacket context store dstAddr false rawPacket
    let usefulPktNum := if srcSucc || dstSucc then store.usefulPktNum + 1 else store.usefulPktNum
    return ({ store with usefulPktNum }, srcAddr, dstAddr)

/-- `StoreKPackets`. -/
def storeKPackets (context : Context) (info : DatasetInfo) (store : PacketStore)
    (rawVec : List RawPacket) : Except Fault PacketStore := do
  let (store, _, _) ← rawVec.foldlM (storeKPacket context info) (store, "", "")
  return store

/-- One file.  `splitVector` need not end. -/
def readFile (context : Context) (info : DatasetInfo) (store : PacketStore) :
    CaptureFile → Except Fault PacketStore
  | .noReader => .error (.thrown .pcapFormatError)
  | .notOpened => .error (.thrown .pcapCannotOpen)
  | .packets [] => .ok store
  | .packets rawVec =>
    match SplitVector.splitPackets rawVec with
    | none => .error .diverges
    | some splittedVec => do
      let chunks ← splittedVec
      chunks.foldlM (storeKPackets context info) store

/-- `RawCvtoPktDataset`. -/
def rawCvtoPktDataset (lib : StdLib) (context : Context) (info : DatasetInfo)
    (paths : List CaptureFile) : Except Fault (List KPacket) := do
  let store ← paths.foldlM (readFile context info) (ofDevices info context.deviceVec)
  PacketDataset.sort lib store.devStat.length store.dataset

/-! ## The addresses of the converter -/

/-- The address under which the constructor files a device. -/
def fileAddr (info : DatasetInfo) (device : KDevice) : Option String :=
  if info.mappingIP then some device.ipaddr
  else if info.mappingMac then some device.mac
  else none

theorem isIoTAddr_foldl {info : DatasetInfo} {addr : String} (l : List KDevice)
    (store : PacketStore) : (l.foldl (registerDevice info) store).isIoTAddr addr = true ↔
      store.isIoTAddr addr = true ∨ ∃ device ∈ l, fileAddr info device = some addr := by
  induction l generalizing store with
  | nil => simp
  | cons device l ih =>
    have hone : (registerDevice info store device).isIoTAddr addr = true ↔
        fileAddr info device = some addr ∨ store.isIoTAddr addr = true := by
      simp only [isIoTAddr, AList.lookup_isSome]
      rw [registerDevice, fileAddr]
      dsimp only
      split_ifs
      · rw [UnorderedMap.mem_emplace, Option.some_inj, eq_comm]
      · rw [UnorderedMap.mem_emplace, Option.some_inj, eq_comm]
      · simp
    rw [List.foldl_cons, ih, hone]
    simp only [List.mem_cons, exists_eq_or_imp]
    tauto

/-- **The converter accepts the addresses of the registered devices**, those that its dataset tells
them apart by. -/
theorem isIoTAddr_ofDevices {info : DatasetInfo} {deviceVec : List KDevice} {addr : String} :
    (ofDevices info deviceVec).isIoTAddr addr = true ↔
      ∃ device ∈ deviceVec, fileAddr info device = some addr := by
  rw [ofDevices, isIoTAddr_foldl]
  constructor
  · rintro (h | h)
    · cases h
    · exact h
  · exact Or.inr

/-- No device has sent or received anything yet. -/
theorem devStat_ofDevices (info : DatasetInfo) (deviceVec : List KDevice) :
    (ofDevices info deviceVec).devStat =
      deviceVec.map fun device => { instanceName := device.instanceName } := by
  have hfold : ∀ (l : List KDevice) (store : PacketStore),
      (l.foldl (registerDevice info) store).devStat =
        store.devStat ++ l.map fun device => { instanceName := device.instanceName } := by
    intro l
    induction l with
    | nil => exact fun _ => (List.append_nil _).symm
    | cons device l ih =>
      intro store
      rw [List.foldl_cons, ih, registerDevice, List.append_assoc]
      rfl
  exact hfold deviceVec {}

theorem length_devStat_ofDevices (info : DatasetInfo) (deviceVec : List KDevice) :
    (ofDevices info deviceVec).devStat.length = deviceVec.length := by
  rw [devStat_ofDevices, List.length_map]

theorem dataset_ofDevices (info : DatasetInfo) (deviceVec : List KDevice) :
    (ofDevices info deviceVec).dataset = [] := by
  have hfold : ∀ (l : List KDevice) (store : PacketStore),
      (l.foldl (registerDevice info) store).dataset = store.dataset := by
    intro l
    induction l with
    | nil => exact fun _ => rfl
    | cons device l ih =>
      intro store
      rw [List.foldl_cons, ih]
      rfl
  exact hfold deviceVec {}

/-! ## Reading a file -/

theorem readFile_of_split {context : Context} {info : DatasetInfo} {store : PacketStore}
    {rawVec : List RawPacket} {chunks : List (List RawPacket)} (hne : rawVec ≠ [])
    (hsplit : SplitVector.splitPackets rawVec = some (.ok chunks)) :
    readFile context info store (.packets rawVec) =
      chunks.foldlM (storeKPackets context info) store := by
  cases rawVec with
  | nil => exact absurd rfl hne
  | cons p rawVec =>
    rw [readFile, hsplit]
    · rfl
    · exact hne

/-! ## Storing a packet -/

variable {context : Context} {store : PacketStore} {addr : String} {device : KDevice}
  (isSource : Bool) (rawPacket : RawPacket)

theorem addPacket_registered (hiot : store.isIoTAddr addr = true)
    (hdevice : context.addressMap.lookup addr = some device)
    (hid : device.devId.toNat < store.devStat.length) :
    ∃ store', addPacket context store addr isSource rawPacket = .ok (true, store') ∧
      store'.addressMap = store.addressMap ∧ store'.devStat.length = store.devStat.length ∧
        store'.dataset = store.dataset ++ [seenFrom device.devId isSource rawPacket] := by
  rw [addPacket, hiot, if_neg (by decide), Context.getDeviceByAddr, hdevice]
  dsimp only [bind, Except.bind]
  rw [at?_of_lt hid]
  exact ⟨_, rfl, rfl, List.length_set .., rfl⟩

theorem addPacket_undefined (hiot : store.isIoTAddr addr = true)
    (hdevice : context.addressMap.lookup addr = some device)
    (hid : store.devStat.length ≤ device.devId.toNat) :
    addPacket context store addr isSource rawPacket = .error .undefined := by
  rw [addPacket, hiot, if_neg (by decide), Context.getDeviceByAddr, hdevice]
  dsimp only [bind, Except.bind]
  rw [at?, List.getElem?_eq_none hid]

end PacketStore
end BurstIoT
