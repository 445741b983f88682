import BurstIoT.Chronology
import BurstIoT.Experiment

/-!
# Are experiments isolated?

A call of `SingleExperiment` should report what it would report in a process of its own.  It does so
in a process whose registry is empty: then no earlier call has left anything that is read again
(`Clean`), the configuration being set and the cache cleared by each call.

It does not in any other process.  The devices of the earlier calls keep their numbers and
addresses, so a capture file of their address is attributed to them, whatever the mapping file of
the call says (`not_isolated`).  And if the devices are the same, `addrAvgPktMap` keeps the median
it has, also when the time slots change (`not_experimentIsolation`).
-/

namespace BurstIoT
namespace Process

variable {F : Type} [Field F] [LinearOrder F] [Elementary F] (lib : StdLib) (pcpp : PcapPlusPlus)

/-! ## The statement -/

/-- What a call reports: the sheet of each type, and the blocks that were missed or wrong with all
that is known of their prediction.  No device number occurs in it. -/
def report (r : Except Fault (Process F × Score F)) :
    Except Fault ((String → Option ScoreSheet) × List (BurstGroupPolicy F)) :=
  r.map fun e => (fun type => e.2.sheet.lookup type, e.2.errBurstGroups)

/-- Every call reports what it reports in a fresh process. -/
def Isolated (p : Process F) : Prop :=
  ∀ call, report (singleExperiment lib pcpp p call) =
    report (singleExperiment lib pcpp (fresh : Process F) call)

/-- Whatever calls have been made, a call reports what it reports in a fresh process. -/
def ExperimentIsolation (F : Type) [Field F] [LinearOrder F] [Elementary F] : Prop :=
  ∀ (calls : List Experiment) (p : Process F),
    experiments lib pcpp fresh calls = .ok p → p.Isolated lib pcpp

variable {lib pcpp}

/-! ## A process without devices -/

/-- Nothing is left of the earlier calls but what the next one sets. -/
structure Clean (p : Process F) : Prop where
  context : p.context = {}
  statics : p.statics = {}
  cache : p.cache = []
  config : ∀ cfg, configure p.config cfg = configure (fresh : Process F).config cfg

omit [LinearOrder F] [Elementary F] in
theorem Clean.fresh : (fresh : Process F).Clean :=
  ⟨rfl, rfl, rfl, fun _ => rfl⟩

theorem Clean.isolated {p : Process F} (h : p.Clean) : p.Isolated lib pcpp := by
  intro call
  have heq : singleExperiment lib pcpp p call =
      singleExperiment lib pcpp (Process.fresh : Process F) call := by
    rw [singleExperiment, singleExperiment, h.context, h.statics, h.cache, h.config]
    rfl
  rw [heq]

omit [LinearOrder F] [Elementary F] in
/-- A dataset comes from `TrainTestSplit`, so its halves are those of the same devices. -/
theorem mem_trainset_iff {config : Config F} {context : Context} {call : Experiment}
    {ds : BurstDataset} (h : getBurstDataset lib config context call = .ok ds) (d : UInt16) :
    d ∈ ds.trainset ↔ d ∈ ds.testset := by
  have hpkt : ∀ {deviceVec l}, BurstDataset.fromPktDataset lib config.divisionParam
      config.trainParam.trainPercent deviceVec l = .ok ds → (d ∈ ds.trainset ↔ d ∈ ds.testset) := by
    intro deviceVec l h
    obtain ⟨c, -, h⟩ := CheckedLoop.bind_eq_ok.mp h
    exact BurstDataset.mem_trainset_iff h d
  rw [getBurstDataset] at h
  split at h
  · exact BurstDataset.mem_trainset_iff h d
  · exact hpkt h
  · obtain ⟨l, -, h⟩ := CheckedLoop.bind_eq_ok.mp h
    exact hpkt h

/-- The registry after a call: that before it, and the lines of the mapping file. -/
theorem length_deviceVec_of_ok {p p' : Process F} {call : Experiment} {score : Score F}
    (h : singleExperiment lib pcpp p call = .ok (p', score)) :
    p'.context.deviceVec.length = p.context.deviceVec.length + call.devices.length := by
  obtain ⟨context, config, ds, trained, predicted, addr, hcontext, -, -, -, -, -, rfl, -⟩ :=
    singleExperiment_eq_ok.mp h
  obtain ⟨lines, hlines, rfl⟩ := Context.addDevices_eq_ok hcontext
  rw [Context.length_deviceVec_foldl_addDevice, Experiment.devices, hlines]
  rfl

/-- **A call without devices leaves nothing behind**: it can only have had no bursts. -/
theorem Clean.singleExperiment {p p' : Process F} (hp : p.Clean) {call : Experiment}
    {score : Score F} (h : singleExperiment lib pcpp p call = .ok (p', score))
    (hdevices : call.devices = []) : p'.Clean := by
  obtain ⟨context, config, ds, trained, predicted, addr, hcontext, hconfig, hds, htrained,
    hpredicted, houtput, rfl, -⟩ := singleExperiment_eq_ok.mp h
  obtain ⟨lines, hlines, rfl⟩ := Context.addDevices_eq_ok hcontext
  have hnone : lines.tail = [] := by
    rw [← hdevices, Experiment.devices, hlines]
    rfl
  rw [hnone, List.foldl_nil, hp.context] at hpredicted
  have htestset : ∀ d, d ∉ ds.testset := fun d hd =>
    absurd (Classifier.lt_of_predict_ok hpredicted hd) (Nat.not_lt_zero _)
  have hempty : ∀ m : UnorderedMap UInt16 (List BurstBlock), (∀ d, d ∉ m) → lib.iterate m = [] := by
    intro m hm
    rw [List.eq_nil_iff_forall_not_mem]
    exact fun e he => hm e.1 (lib.mem_of_mem_iterate he)
  have htrainset : ∀ d, d ∉ ds.trainset := fun d hd =>
    htestset d ((mem_trainset_iff hds d).mp hd)
  rw [Classifier.train, hempty _ htrainset] at htrained
  cases htrained
  rw [Classifier.predict, hempty _ htestset] at hpredicted
  split_ifs at hpredicted
  cases hpredicted
  cases houtput
  refine ⟨?_, hp.statics, rfl, fun cfg => ?_⟩
  · show lines.tail.foldl _ p.context = {}
    rw [hnone, List.foldl_nil, hp.context]
  · exact (configure_configure hconfig cfg).trans (hp.config cfg)

/-- **What a run of calls leaves**: as many devices as there were lines, and a clean process if
there were none. -/
theorem experiments_spec (calls : List Experiment) {p p' : Process F}
    (h : experiments lib pcpp p calls = .ok p') :
    p'.context.deviceVec.length =
        p.context.deviceVec.length + (calls.map fun call => call.devices.length).sum ∧
      ((∀ call ∈ calls, call.devices = []) → p.Clean → p'.Clean) := by
  induction calls generalizing p with
  | nil =>
    cases h
    exact ⟨rfl, fun _ hp => hp⟩
  | cons call calls ih =>
    obtain ⟨p₁, hone, hrest⟩ := CheckedLoop.bind_eq_ok.mp h
    obtain ⟨⟨p₂, score⟩, hcall, hone⟩ := CheckedLoop.bind_eq_ok.mp hone
    cases hone
    obtain ⟨hlength, hclean⟩ := ih hrest
    refine ⟨?_, fun hdevices hp => ?_⟩
    · rw [hlength, length_deviceVec_of_ok hcall, List.map_cons, List.sum_cons, Nat.add_assoc]
    · exact hclean (fun c hc => hdevices c (List.mem_cons_of_mem _ hc))
        (hp.singleExperiment hcall (hdevices call List.mem_cons_self))

/-! ## A process with devices -/

/-- A packet that a device sends to itself. -/
def probePacket (addr : String) : RawPacket where
  isIPv4 := true
  isEthernet := true
  srcIPv4 := addr
  dstIPv4 := addr
  srcMac := "02:00:00:00:00:01"
  dstMac := "02:00:00:00:00:01"
  frameLength := 60
  hash5tuple := 0
  timestamp := ⟨1, 0⟩

/-- A call with one device and nine packets of it, all of them for training. -/
def probe (addr name : String) : Experiment where
  cfg := [100, 1800, 2, 50, 15]
  info := {}
  deviceMappings := some ["name,address", name ++ ",10.0.0.1"]
  rawTraffic := [.packets (List.replicate 9 (probePacket addr))]

section Probe

open PacketStore

variable {context : Context} {store : PacketStore} {addr : String} {device : KDevice}

/-- Both ends of a probe's packet are asked for. -/
theorem storeKPacket_probe (store : PacketStore) :
    storeKPacket context {} (store, "", "") (probePacket addr) =
      (addPacket context store addr true (probePacket addr)).bind fun sent =>
        (addPacket context sent.2 addr false (probePacket addr)).bind fun received =>
          .ok ({ received.2 with
            usefulPktNum :=
              if sent.1 || received.1 then received.2.usefulPktNum + 1
              else received.2.usefulPktNum }, addr, addr) := rfl

theorem storeKPackets_probe (hdevice : context.addressMap.lookup addr = some device)
    (hiot : store.isIoTAddr addr = true) (hid : device.devId.toNat < store.devStat.length) :
    ∃ store', storeKPackets context {} store [probePacket addr] = .ok store' ∧
      store'.addressMap = store.addressMap ∧ store'.devStat.length = store.devStat.length ∧
        store'.dataset = store.dataset ++ [seenFrom device.devId true (probePacket addr),
          seenFrom device.devId false (probePacket addr)] := by
  obtain ⟨sent, hsent, haddr, hstat, hdataset⟩ :=
    addPacket_registered true (probePacket addr) hiot hdevice hid
  have hiot' : sent.isIoTAddr addr = true := by
    rw [isIoTAddr, haddr]
    exact hiot
  obtain ⟨received, hreceived, haddr', hstat', hdataset'⟩ :=
    addPacket_registered false (probePacket addr) hiot' hdevice (by rw [hstat]; exact hid)
  refine ⟨{ received with usefulPktNum := received.usefulPktNum + 1 }, ?_, haddr'.trans haddr,
    hstat'.trans hstat, ?_⟩
  · rw [storeKPackets, List.foldlM_cons, storeKPacket_probe, hsent]
    dsimp only [Except.bind]
    rw [hreceived]
    rfl
  · rw [hdataset', hdataset, List.append_assoc]
    rfl

/-- The file of the probe is read in nine chunks. -/
theorem readFile_probe (store : PacketStore) :
    readFile context {} store (.packets (List.replicate 9 (probePacket addr))) =
      (List.replicate 9 [probePacket addr]).foldlM (storeKPackets context {}) store := by
  have hunit : SplitVector.splitVector (List.replicate 9 ()) (SplitVector.chunkSize 9) 10 =
      some (.ok (List.replicate 9 [()])) := rfl
  have hmap := SplitVector.splitVector_map (fun _ => probePacket addr) (List.replicate 9 ())
    (SplitVector.chunkSize 9) 10
  rw [List.map_replicate, hunit] at hmap
  exact readFile_of_split (List.cons_ne_nil _ _) hmap

theorem isIoTAddr_probe (hfile : ∃ d ∈ context.deviceVec, d.ipaddr = addr) :
    (ofDevices {} context.deviceVec).isIoTAddr addr = true := by
  obtain ⟨d, hd, rfl⟩ := hfile
  exact isIoTAddr_ofDevices.mpr ⟨d, hd, rfl⟩

variable (lib) in
/-- **Reading the probe**: it has 18 packets, each of them one of the device registered for the
address. -/
theorem rawCvtoPktDataset_probe (hdevice : context.addressMap.lookup addr = some device)
    (hfile : ∃ d ∈ context.deviceVec, d.ipaddr = addr)
    (hid : device.devId.toNat < context.deviceVec.length) (name : String) :
    ∃ l, rawCvtoPktDataset lib context {} (probe addr name).rawTraffic = .ok l ∧ l ≠ [] ∧
      l.length = 18 ∧ ∀ k ∈ l, k.deviceId = device.devId ∧ k.timestamp = ⟨1, 0⟩ := by
  let size := context.deviceVec.length
  let I : List (List RawPacket) → PacketStore → Prop := fun done store =>
    store.isIoTAddr addr = true ∧ store.devStat.length = size ∧
      (∀ k ∈ store.dataset, k.deviceId = device.devId ∧ k.timestamp = ⟨1, 0⟩ ∧
        PacketDataset.validPacket size k = true) ∧
      (done ≠ [] → store.dataset ≠ []) ∧ store.dataset.length = 2 * done.length
  have hvalid : ∀ isSource, PacketDataset.validPacket size
      (seenFrom device.devId isSource (probePacket addr)) = true := by
    intro isSource
    have hnumber : ¬ device.devId.toNat ≥ size := Nat.not_le.mpr hid
    rw [PacketDataset.validPacket]
    cases isSource <;> exact if_neg hnumber
  have hstep : ∀ done chunk rest, List.replicate 9 [probePacket addr] = done ++ chunk :: rest →
      ∀ store, I done store →
        ∃ store', storeKPackets context {} store chunk = .ok store' ∧
          I (done ++ [chunk]) store' := by
    rintro done chunk rest hall store ⟨hiot, hlength, hdataset, -, hnum⟩
    obtain rfl : chunk = [probePacket addr] := by
      refine List.eq_of_mem_replicate (n := 9) ?_
      rw [hall]
      exact List.mem_append_right _ List.mem_cons_self
    obtain ⟨store', hok, haddr, hstat, hentries⟩ := storeKPackets_probe hdevice hiot
      (by rw [hlength]; exact hid)
    refine ⟨store', hok, by rw [isIoTAddr, haddr]; exact hiot, hstat.trans hlength, ?_,
      fun _ => ?_, ?_⟩
    · intro k hk
      rw [hentries, List.mem_append] at hk
      rcases hk with hk | hk
      · exact hdataset k hk
      · simp only [List.mem_cons, List.not_mem_nil, or_false] at hk
        rcases hk with rfl | rfl
        · exact ⟨rfl, rfl, hvalid true⟩
        · exact ⟨rfl, rfl, hvalid false⟩
    · rw [hentries]
      exact List.append_ne_nil_of_right_ne_nil _ (List.cons_ne_nil _ _)
    · rw [hentries, List.length_append, List.length_append, hnum]
      rfl
  obtain ⟨store, hok, -, hlength, hdataset, hne, hnum⟩ := CheckedLoop.foldlM_ok hstep
    (show I [] (ofDevices {} context.deviceVec) from
      ⟨isIoTAddr_probe hfile, length_devStat_ofDevices {} _,
        fun k hk => absurd (dataset_ofDevices {} _ ▸ hk) List.not_mem_nil,
        fun h => absurd rfl h, by rw [dataset_ofDevices]; rfl⟩)
  have hall : PacketDataset.valid store.devStat.length store.dataset = true := by
    rw [hlength]
    exact List.all_eq_true.mpr fun k hk => (hdataset k hk).2.2
  refine ⟨lib.sort KPacket.earlier store.dataset, ?_, ?_, ?_, fun k hk => ?_⟩
  · rw [rawCvtoPktDataset, probe, List.foldlM_cons, readFile_probe, hok]
    show PacketDataset.sort lib store.devStat.length store.dataset = _
    rw [PacketDataset.sort, if_pos hall]
  · have hperm := lib.sort_perm KPacket.strictWeak_earlier store.dataset
    exact fun h => hne (List.cons_ne_nil _ _) (List.nil_perm.mp (h ▸ hperm))
  · exact ((lib.sort_perm KPacket.strictWeak_earlier store.dataset).length_eq).trans hnum
  · have hmem := (lib.mem_sort KPacket.strictWeak_earlier).mp hk
    exact ⟨(hdataset k hmem).1, (hdataset k hmem).2.1⟩

variable (lib) in
/-- A device number beyond the registered devices is undefined. -/
theorem rawCvtoPktDataset_probe_undefined
    (hdevice : context.addressMap.lookup addr = some device)
    (hfile : ∃ d ∈ context.deviceVec, d.ipaddr = addr)
    (hid : context.deviceVec.length ≤ device.devId.toNat) (name : String) :
    rawCvtoPktDataset lib context {} (probe addr name).rawTraffic = .error .undefined := by
  have hone : storeKPackets context {} (ofDevices {} context.deviceVec) [probePacket addr] =
      .error .undefined := by
    have hfirst := addPacket_undefined true (probePacket addr) (isIoTAddr_probe hfile) hdevice
      (by rw [length_devStat_ofDevices]; exact hid)
    rw [storeKPackets, List.foldlM_cons, storeKPacket_probe, hfirst]
    rfl
  rw [rawCvtoPktDataset, probe, List.foldlM_cons, readFile_probe, List.replicate_succ,
    List.foldlM_cons, hone]
  rfl

/-- The half for training and the half for testing of a dataset of which all is for training. -/
theorem halves_hundred (blocks : List BurstBlock) :
    (BurstDataset.trainHalf 100 blocks).Perm blocks ∧ BurstDataset.testHalf 100 blocks = [] := by
  have hall : BurstDataset.trainNum 100 blocks.length = blocks.length := by
    rw [BurstDataset.trainNum, show (100 : UInt8).toNat = 100 from rfl]
    omega
  have hlength : (stableSort BurstDataset.frontEarlier blocks).length = blocks.length :=
    length_stableSort _ _
  have htest : BurstDataset.testHalf 100 blocks = [] := by
    rw [BurstDataset.testHalf, hall, ← hlength, List.drop_length]
  have hperm := BurstDataset.trainHalf_append_testHalf_perm 100 blocks
  rw [htest, List.append_nil] at hperm
  exact ⟨hperm, htest⟩

omit [LinearOrder F] [Elementary F] in
variable (lib) in
/-- **The dataset of the probe**: one device, with generated bursts for training and none for
testing. -/
theorem getBurstDataset_probe {config : Config F} (hpercent : config.trainParam.trainPercent = 100)
    (hslot : config.divisionParam.timeslot ≠ 0) (hdiv : config.divisionParam.Positive)
    (hdevice : context.addressMap.lookup addr = some device)
    (hfile : ∃ d ∈ context.deviceVec, d.ipaddr = addr)
    (hid : device.devId.toNat < context.deviceVec.length) (name : String) :
    ∃ ds, getBurstDataset lib config context (probe addr name) = .ok ds ∧
      (∀ d, d ∈ ds.testset ↔ d = device.devId) ∧
      (∀ d g, ds.testset.lookup d = some g → g = []) ∧
      ∀ d g, ds.trainset.lookup d = some g → d = device.devId ∧ g ≠ [] ∧
        ∀ block ∈ g, ∀ b ∈ block, DeviceBurstGenerator.Generated config.divisionParam
          context.deviceVec[device.devId.toNat] b ∧ b.pktNum < 2 ^ 31 := by
  obtain ⟨l, hl, hne, hlength, hpackets⟩ := rawCvtoPktDataset_probe lib hdevice hfile hid name
  have hsec : ∀ p ∈ l, 0 ≤ p.timestamp.tvSec ∧ p.timestamp.tvSec < 2 ^ 63 := by
    intro p hp
    rw [(hpackets p hp).2]
    decide
  have hreg : ∀ p ∈ l, p.deviceId.toNat < context.deviceVec.length := by
    intro p hp
    rw [(hpackets p hp).1]
    exact hid
  obtain ⟨ds, hds, hhalves⟩ := Chronology.fromPktDataset_lookup lib hslot
    (show (100 : UInt8) ≤ 100 from UInt8.le_refl 100) hne hsec hreg
  have hslots : ∀ d, Converter.deviceSlots config.divisionParam l d ≠ [] ↔ d = device.devId := by
    intro d
    rw [Converter.deviceSlots_ne_nil_iff]
    constructor
    · rintro ⟨p, hp, rfl⟩
      exact (hpackets p hp).1
    · rintro rfl
      obtain ⟨p, hp⟩ := List.exists_mem_of_ne_nil l hne
      exact ⟨p, hp, (hpackets p hp).1⟩
  refine ⟨ds, ?_, fun d => ?_, fun d g hg => ?_, fun d g hg => ?_⟩
  · rw [getBurstDataset]
    show (rawCvtoPktDataset lib context {} (probe addr name).rawTraffic >>= _) = _
    rw [hl, hpercent]
    exact hds
  · rw [← AList.lookup_isSome, (hhalves d).2]
    split_ifs with hnil
    · have hother : d ≠ device.devId := fun h => (hslots d).mpr h hnil
      simpa using hother
    · simpa using (hslots d).mp hnil
  · rw [(hhalves d).2] at hg
    split_ifs at hg
    rw [← Option.some_inj.mp hg]
    exact (halves_hundred _).2
  · rw [(hhalves d).1] at hg
    split_ifs at hg with hnil
    obtain rfl := Option.some_inj.mp hg
    obtain rfl : d = device.devId := (hslots d).mp hnil
    have hperm := (halves_hundred
      ((Converter.deviceSlots config.divisionParam l device.devId).map fun s =>
        Converter.block lib config.divisionParam context.deviceVec device.devId
          (Converter.slotPackets config.divisionParam l device.devId s))).1
    refine ⟨rfl, ?_, fun block hblock b hb => ?_⟩
    · intro h
      rw [h] at hperm
      exact hnil (List.map_eq_nil_iff.mp (List.nil_perm.mp hperm))
    · obtain ⟨s, hs, rfl⟩ := List.mem_map.mp (hperm.mem_iff.mp hblock)
      rw [Converter.block, List.getElem?_eq_getElem hid] at hb
      refine ⟨Division.generated_of_mem hdiv (Converter.slotPackets_ne_nil_iff.mpr hs) hb, ?_⟩
      have hle := DeviceBurstGenerator.pktNum_le_length hb
      have hfilter : (Converter.slotPackets config.divisionParam l device.devId s).length ≤
          l.length := List.length_filter_le ..
      omega

end Probe

/-- The device that the line of a probe registers. -/
theorem ofLine_probe (pcpp : PcapPlusPlus) {name : String} (hname : name = "a" ∨ name = "b")
    (count : UInt16) : KDevice.ofLine pcpp (name ++ ",10.0.0.1") true count =
      { mappingIP := true, devId := count, instanceName := name, typeLabel := name
        mac := pcpp.defaultMac, ipaddr := pcpp.ipv4 "10.0.0.1" } := by
  have hsplit : splitPairStrByComma (name ++ ",10.0.0.1") = (name, "10.0.0.1") := by
    rcases hname with rfl | rfl <;> decide +kernel
  have hformat : makeFormattedName name = name := by
    rcases hname with rfl | rfl <;> decide +kernel
  have htype : removeSuffix name = name := by
    rcases hname with rfl | rfl <;> decide +kernel
  rw [KDevice.ofLine, hsplit]
  dsimp only
  rw [hformat, htype]
  rfl

omit [LinearOrder F] [Elementary F] in
/-- The configuration that a probe sets. -/
theorem configure_probe (config : Config F) (addr name : String) :
    ∃ config', configure config (probe addr name).cfg = .ok config' ∧
      config'.trainParam.trainPercent = 100 ∧ config'.divisionParam.timeslot = 1800 ∧
      config'.divisionParam.burstMaxUnisig = 50 ∧ config'.divisionParam.Positive ∧
      config'.divisionParam.burstMaxPacketIndex = config.divisionParam.burstMaxPacketIndex :=
  have hinterval : 1 ≤ (UInt8.ofInt 2).toNat := by decide
  have hduration : 1 ≤ (UInt8.ofInt 15).toNat := by decide
  have hunisig : 1 ≤ (UInt8.ofInt 50).toNat := by decide
  ⟨_, rfl, rfl, rfl, rfl, ⟨hinterval, hduration, hunisig⟩, rfl⟩

/-- The registry in a probe: a new device behind the old ones, and the address it may share. -/
theorem addDevices_probe (context : Context) {name : String} (hname : name = "a" ∨ name = "b") :
    ∃ context', Context.addDevices pcpp (probe (pcpp.ipv4 "10.0.0.1") name).info
        (probe (pcpp.ipv4 "10.0.0.1") name).deviceMappings context = .ok context' ∧
      (∃ device, context'.deviceVec = context.deviceVec ++ [device] ∧
        device.instanceName = name ∧ device.ipaddr = pcpp.ipv4 "10.0.0.1") ∧
      ∃ device, context'.addressMap.lookup (pcpp.ipv4 "10.0.0.1") = some device ∧
        device.devId = ((context.addressMap.lookup (pcpp.ipv4 "10.0.0.1")).map
          KDevice.devId).getD context.count := by
  have hfirst : ¬ ['I', 'P'].isPrefixOf "name,address".toList = true := by decide +kernel
  have hlines : Context.validateDeviceMappingStream
      (some ["name,address", name ++ ",10.0.0.1"]) = .ok [name ++ ",10.0.0.1"] := if_neg hfirst
  refine ⟨Context.addDevice pcpp {} context (name ++ ",10.0.0.1"), ?_,
    ⟨_, Context.deviceVec_addDevice context _, ?_, ?_⟩, ?_⟩
  · rw [probe, Context.addDevices, hlines]
    rfl
  · rw [ofLine_probe pcpp hname]
  · rw [ofLine_probe pcpp hname]
  · show ∃ device, (UnorderedMap.emplace context.addressMap _ _).lookup _ = some device ∧ _
    rw [UnorderedMap.lookup_emplace, ofLine_probe pcpp hname]
    refine ⟨_, if_pos rfl, ?_⟩
    show ((context.addressMap.lookup (pcpp.ipv4 "10.0.0.1")).getD _).devId = _
    cases context.addressMap.lookup (pcpp.ipv4 "10.0.0.1") <;> rfl

/-- **In a fresh process a probe reports its device.** -/
theorem singleExperiment_probe_fresh (lib : StdLib) (pcpp : PcapPlusPlus) {name : String}
    (hname : name = "a" ∨ name = "b") :
    ∃ (p : Process F) (score : Score F), singleExperiment lib pcpp fresh
      (probe (pcpp.ipv4 "10.0.0.1") name) = .ok (p, score) ∧ name ∈ score.sheet := by
  obtain ⟨context, hcontext, ⟨entry, hvec, hentry, haddr⟩, device, hdevice, hnumber⟩ :=
    addDevices_probe ({} : Context) hname
  obtain ⟨config, hconfig, hpercent, hslot, hunisig, hdiv, hindex⟩ :=
    configure_probe (fresh : Process F).config (pcpp.ipv4 "10.0.0.1") name
  have hvec : context.deviceVec = [entry] := hvec
  have hnumber : device.devId = 0 := hnumber
  have hid : device.devId.toNat < context.deviceVec.length := by
    rw [hvec, hnumber]
    exact Nat.one_pos
  have hslot' : config.divisionParam.timeslot ≠ 0 := by
    rw [hslot]
    decide
  obtain ⟨ds, hds, htest, hempty, htrain⟩ := getBurstDataset_probe lib hpercent hslot' hdiv hdevice
    ⟨entry, by rw [hvec]; exact List.mem_singleton_self entry, haddr⟩ hid name
  have hget : ∀ h : device.devId.toNat < context.deviceVec.length,
      context.deviceVec[device.devId.toNat] = entry := by
    rw [hvec, hnumber]
    exact fun _ => rfl
  have htrainable : ∀ d g, ds.trainset.lookup d = some g →
      d.toNat < ds.trainset.keys.length ∧ Classifier.Trainable config.divisionParam g := by
    intro d g hg
    obtain ⟨rfl, hne, hgen⟩ := htrain d g hg
    have hmem : device.devId ∈ ds.trainset := UnorderedMap.mem_of_lookup hg
    refine ⟨?_, hne, fun block hblock b hb => (hgen block hblock b hb).2, entry, ?_, ?_⟩
    · rw [hnumber] at hmem ⊢
      exact List.length_pos_of_mem (AList.mem_keys.mp hmem)
    · rw [hentry]
      rcases hname with rfl | rfl <;> decide
    · rw [hget hid] at hgen
      exact fun block hblock b hb => (hgen block hblock b hb).1
  have hindex' : 1 ≤ config.divisionParam.burstMaxPacketIndex := by
    rw [hindex]
    show (1 : ℤ) ≤ 60
    decide
  have hepoch : config.divisionParam.timeslot.toNat ≤ epochTimeslot * 3600 := by
    rw [hslot]
    decide
  obtain ⟨trained, htrained⟩ := Classifier.train_ok lib (fresh : Process F).statics hindex'
    (by rw [hunisig]; decide) htrainable
  obtain ⟨predicted, hpredicted, herr, hsheet⟩ := Classifier.predict_emptyHalves lib trained.2
    trained.1 (fresh : Process F).cache hslot' hepoch hempty
    (fun d hd => by rw [(htest d).mp hd]; exact hid)
  refine ⟨_, predicted.1, singleExperiment_eq_ok.mpr ⟨context, config, ds, trained, predicted,
    predicted.2.1.addrAvgPktMap, hcontext, hconfig, hds, htrained, hpredicted, ?_, rfl, rfl⟩, ?_⟩
  · rw [Score.outputToFile, herr]
    rfl
  · refine (hsheet name).mpr ⟨device.devId, (htest _).mpr rfl, entry, ?_, ?_⟩
    · rw [List.getElem?_eq_getElem hid, hget hid]
    · rw [hentry]
      rcases hname with rfl | rfl <;> decide +kernel

/-- **With devices in the registry a probe reports one of them**, whatever its own device. -/
theorem exists_old_of_probe {p p' : Process F} {score : Score F} {name : String}
    (hname : name = "a" ∨ name = "b") (hold : p.context.deviceVec ≠ [])
    (h : singleExperiment lib pcpp p (probe (pcpp.ipv4 "10.0.0.1") name) = .ok (p', score))
    (hsheet : name ∈ score.sheet) :
    ∃ device, p.context.deviceVec[(((p.context.addressMap.lookup (pcpp.ipv4 "10.0.0.1")).map
        KDevice.devId).getD p.context.count).toNat]? = some device ∧
      removeSuffix device.instanceName = name := by
  obtain ⟨context, config, ds, trained, predicted, addrAvgPktMap, hcontext, hconfig, hds, htrained,
    hpredicted, -, -, rfl⟩ := singleExperiment_eq_ok.mp h
  obtain ⟨context', hcontext', ⟨entry, hvec, -, haddr⟩, device, hdevice, hnumber⟩ :=
    addDevices_probe p.context hname
  obtain ⟨config', hconfig', hpercent, hslot, -, hdiv, -⟩ :=
    configure_probe p.config (pcpp.ipv4 "10.0.0.1") name
  obtain rfl : context = context' := Except.ok.inj (hcontext.symm.trans hcontext')
  obtain rfl : config = config' := Except.ok.inj (hconfig.symm.trans hconfig')
  have hslot' : config.divisionParam.timeslot ≠ 0 := by
    rw [hslot]
    decide
  have hfile : ∃ d ∈ context.deviceVec, d.ipaddr = pcpp.ipv4 "10.0.0.1" :=
    ⟨entry, by rw [hvec]; exact List.mem_append_right _ List.mem_cons_self, haddr⟩
  rw [← hnumber]
  by_cases hid : device.devId.toNat < context.deviceVec.length
  · obtain ⟨ds', hds', htest, hempty, htrain⟩ :=
      getBurstDataset_probe lib hpercent hslot' hdiv hdevice hfile hid name
    obtain rfl : ds = ds' := Except.ok.inj (hds.symm.trans hds')
    have honly : ∀ d, d ∈ ds.trainset ↔ d = device.devId := fun d =>
      (mem_trainset_iff hds d).trans (htest d)
    have hkeys : ds.trainset.keys.length ≤ 1 := by
      have hsubset : ds.trainset.keys ⊆ [device.devId] := fun d hd =>
        List.mem_singleton.mpr ((honly d).mp (AList.mem_keys.mpr hd))
      exact (List.subperm_of_subset ds.trainset.keys_nodup hsubset).length_le
    have hlt := Classifier.lt_of_train_ok htrained ((honly _).mpr rfl)
    have hsmall : device.devId.toNat < p.context.deviceVec.length := by
      have hpos := List.length_pos_iff.mpr hold
      omega
    have hepoch : config.divisionParam.timeslot.toNat ≤ epochTimeslot * 3600 := by
      rw [hslot]
      decide
    obtain ⟨predicted', hpredicted', -, hsheet'⟩ := Classifier.predict_emptyHalves lib trained.2
      trained.1 p.cache hslot' hepoch hempty (fun d hd => by rw [(htest d).mp hd]; exact hid)
    obtain rfl : predicted = predicted' := Except.ok.inj (hpredicted.symm.trans hpredicted')
    obtain ⟨d, hd, found, hfound, htype⟩ := (hsheet' name).mp hsheet
    rw [(htest d).mp hd, hvec, List.getElem?_append_left hsmall] at hfound
    exact ⟨found, hfound, htype⟩
  · have hundefined : getBurstDataset lib config context (probe (pcpp.ipv4 "10.0.0.1") name) =
        .error .undefined := by
      rw [getBurstDataset]
      show (PacketStore.rawCvtoPktDataset lib context {} _ >>= _) = _
      rw [rawCvtoPktDataset_probe_undefined lib hdevice hfile (Nat.not_lt.mp hid)]
      rfl
    rw [hundefined] at hds
    cases hds

/-- **A process with a device in its registry is not isolated.** -/
theorem not_isolated {p : Process F} (hold : p.context.deviceVec ≠ []) : ¬ p.Isolated lib pcpp := by
  intro hisolated
  have hreported : ∀ name, name = "a" ∨ name = "b" → ∃ device,
      p.context.deviceVec[(((p.context.addressMap.lookup (pcpp.ipv4 "10.0.0.1")).map
        KDevice.devId).getD p.context.count).toNat]? = some device ∧
      removeSuffix device.instanceName = name := by
    intro name hname
    obtain ⟨q, score, hfresh, hmem⟩ := singleExperiment_probe_fresh (F := F) lib pcpp hname
    have heq := hisolated (probe (pcpp.ipv4 "10.0.0.1") name)
    rw [hfresh] at heq
    cases hstale : singleExperiment lib pcpp p (probe (pcpp.ipv4 "10.0.0.1") name) with
    | error fault =>
      rw [hstale] at heq
      cases heq
    | ok r =>
      rw [hstale] at heq
      have hsheets := congrFun (congrArg Prod.fst (Except.ok.inj heq)) name
      have hsheet : name ∈ r.2.sheet := by
        rw [← AList.lookup_isSome] at hmem ⊢
        rw [← hmem]
        exact congrArg Option.isSome hsheets
      exact exists_old_of_probe hname hold hstale hsheet
  obtain ⟨device, hdevice, ha⟩ := hreported "a" (Or.inl rfl)
  obtain ⟨device', hdevice', hb⟩ := hreported "b" (Or.inr rfl)
  obtain rfl : device = device' := Option.some_inj.mp (hdevice.symm.trans hdevice')
  rw [ha] at hb
  exact absurd hb (by decide)

end Process

open Process in
/-- **A process is isolated exactly when no earlier call has registered a device**: every further
call reports what it reports in a fresh process if and only if no mapping file so far has a line
after its first. -/
theorem experiments_isolated_iff {F : Type} [Field F] [LinearOrder F] [Elementary F] (lib : StdLib)
    (pcpp : PcapPlusPlus) (calls : List Experiment) (p : Process F)
    (h : experiments lib pcpp fresh calls = .ok p) :
    p.Isolated lib pcpp ↔ ∀ call ∈ calls, call.devices = [] := by
  obtain ⟨hlength, hclean⟩ := experiments_spec calls h
  constructor
  · intro hisolated call hcall
    have hnone : p.context.deviceVec = [] := by
      by_contra hold
      exact not_isolated hold hisolated
    have hzero : (calls.map fun call => call.devices.length).sum = 0 := by
      have hfresh : (fresh : Process F).context.deviceVec.length = 0 := rfl
      rw [hnone, hfresh, List.length_nil] at hlength
      omega
    exact List.length_eq_zero_iff.mp (List.sum_eq_zero_iff.mp hzero _ (List.mem_map_of_mem hcall))
  · exact fun hdevices => (hclean hdevices .fresh).isolated

/-! ## One dataset with two time slots -/

/-- A packet of the camera. -/
def cameraPacket (sec : ℤ) : RawPacket :=
  { Process.probePacket "10.0.0.1" with dstIPv4 := "10.0.0.2", timestamp := ⟨sec, 0⟩ }

/-- A camera that sends eight packets in the first quarter of an hour and one in the second, all of
them for training. -/
def cameraExperiment (timeslot : ℤ) : Experiment where
  cfg := [100, timeslot, 2, 50, 15]
  info := {}
  deviceMappings := some ["name,address", "camera,10.0.0.1"]
  rawTraffic := [.packets ([10, 20, 30, 40, 50, 60, 70, 80, 1000].map cameraPacket)]

open Process in
/-- The average number of packets that is reported for the camera. -/
noncomputable def cameraAverage (r : Except Fault (Process ℝ × Score ℝ)) : Option ℕ :=
  match report r with
  | .ok (sheets, _) => (sheets "camera").map ScoreSheet.pktAvgNum
  | .error _ => none

open Process in
theorem experiments_isolated_iff_camera :
    ∃ p : Process ℝ, experiments .insertion canonicalPcapPlusPlus fresh [cameraExperiment 1800] =
        .ok p ∧
      (p.Isolated .insertion canonicalPcapPlusPlus ↔
        ∀ call ∈ [cameraExperiment 1800], call.devices = []) := by
  have hok : (experiments .insertion canonicalPcapPlusPlus (fresh : Process ℝ)
      [cameraExperiment 1800]).isOk = true := by decide +kernel
  cases h : experiments .insertion canonicalPcapPlusPlus (fresh : Process ℝ)
      [cameraExperiment 1800] with
  | error fault =>
    rw [h] at hok
    cases hok
  | ok p => exact ⟨p, rfl, experiments_isolated_iff .insertion canonicalPcapPlusPlus _ p h⟩

open Process in
/-- **The average of an earlier experiment is reported again.**  With slots of half an hour the
camera has one block of nine packets.  With slots of a quarter it has blocks of eight and of one,
and the average is reported as four in a fresh process, but still as nine after the first
experiment. -/
theorem not_experimentIsolation :
    ¬ ExperimentIsolation .insertion canonicalPcapPlusPlus ℝ ∧
    cameraAverage (singleExperiment .insertion canonicalPcapPlusPlus fresh (cameraExperiment 900)) =
      some 4 ∧
    ∃ p, experiments .insertion canonicalPcapPlusPlus fresh [cameraExperiment 1800] = .ok p ∧
      cameraAverage (singleExperiment .insertion canonicalPcapPlusPlus p (cameraExperiment 900)) =
        some 9 := by
  have hfresh : cameraAverage (singleExperiment .insertion canonicalPcapPlusPlus fresh
      (cameraExperiment 900)) = some 4 := by decide +kernel
  have hstale : cameraAverage ((experiments .insertion canonicalPcapPlusPlus fresh
      [cameraExperiment 1800]).bind fun p =>
        singleExperiment .insertion canonicalPcapPlusPlus p (cameraExperiment 900)) = some 9 := by
    decide +kernel
  cases h : experiments .insertion canonicalPcapPlusPlus (fresh : Process ℝ)
      [cameraExperiment 1800] with
  | error fault =>
    rw [h] at hstale
    cases hstale
  | ok p =>
    rw [h] at hstale
    refine ⟨fun hisolation => ?_, hfresh, p, rfl, hstale⟩
    have heq := hisolation _ p h (cameraExperiment 900)
    rw [cameraAverage, ← heq, ← cameraAverage] at hfresh
    exact absurd (hfresh.symm.trans hstale) (by decide)

end BurstIoT
