import BurstIoT.DatasetPaths
import BurstIoT.Experiment
import BurstIoT.Storing

/-!
# The files of a dataset

`GetBurstDataset` looks for a saved burst dataset, then for a saved packet dataset, and builds what
it does not find.  What it builds is saved on the way: the packets by `PacketDataset::Serialize`,
the bursts by the constructor of `BurstDataset` that takes them.

The path of a file is made of a dataset's name.  The reader passes the name it was given; the
writers take that of their object, and neither `PacketDataset` nor a `BurstDataset` made of its
contents is ever given one.  So all that is saved goes to the folder of the default entry,
`F:/UNSW`, which is the folder of no dataset: what is built is not found again (`built_not_found`),
and the next build of any dataset writes the same files.

`Disk` is the file system as far as these files go, and `Boost` is what the archives of boost read
back.
-/

namespace BurstIoT

/-! ## Files -/

/-- What is in a file.  What the statistics and the traces say is left out. -/
inductive FileContent where
  | packets (dataset : List KPacket)
  | bursts (rawMap : UnorderedMap UInt16 (List BurstBlock))
  | stat
  | trace

/-- The files, by their paths. -/
abbrev Disk : Type := UnorderedMap String FileContent

/-- What an archive of boost reads back, of an object that was written to it. -/
structure Boost where
  packets : List KPacket → List KPacket
  bursts : UnorderedMap UInt16 (List BurstBlock) → UnorderedMap UInt16 (List BurstBlock)

/-- Write a file. -/
def Disk.write (disk : Disk) (path : String) (content : FileContent) : Disk :=
  AList.insert path content disk

/-- `Context::Serialize`: a binary archive, and one in text beside it. -/
def Context.serialize (disk : Disk) (obj : FileContent) (outFile : String) : Disk :=
  (disk.write outFile obj).write (outFile ++ ".txt") obj

namespace BurstDataset

/-- `Serialize`, of a dataset with the name `name`. -/
def serialize (div : DivisionParam) (name : String) (ds : BurstDataset) (disk : Disk) : Disk :=
  Context.serialize disk (.bursts ds.rawMap) (Context.getBurstDatasetPath div name)

/-- `Load`.  An archive of something else is undefined. -/
def load (boost : Boost) (div : DivisionParam) (name : String) (disk : Disk) :
    Except Fault (UnorderedMap UInt16 (List BurstBlock)) :=
  match disk.lookup (Context.getBurstDatasetPath div name) with
  | none => .error (.thrown .datasetPathNotExist)
  | some (.bursts rawMap) => .ok (boost.bursts rawMap)
  | some _ => .error .undefined

/-- `BurstDataset::BurstDataset(rawMap, shuffle)`, which splits and saves.  It leaves `name`
empty. -/
def ofContent (lib : StdLib) (div : DivisionParam) (trainPercent : UInt8)
    (rawMap : UnorderedMap UInt16 (List BurstBlock)) (disk : Disk) :
    Except Fault (BurstDataset × Disk) := do
  let ds ← ofRawMap lib trainPercent rawMap
  return (ds, ds.serialize div "" disk)

/-- `BurstDataset::BurstDataset(datasetName)`, which loads and splits. -/
def ofName (lib : StdLib) (boost : Boost) (div : DivisionParam) (trainPercent : UInt8)
    (datasetName : String) (disk : Disk) : Except Fault BurstDataset := do
  let rawMap ← load boost div datasetName disk
  ofRawMap lib trainPercent rawMap

end BurstDataset

/-- `PacketDataset::OutputStat` and `Serialize`.  Nothing sets `datasetName`. -/
def PacketDataset.save (dataset : List KPacket) (disk : Disk) : Disk :=
  Context.serialize (disk.write (Context.getPktDatasetStatPath "") .stat) (.packets dataset)
    (Context.getPacketDatasetPath "")

namespace IoTBurst

variable {F : Type} [Field F]

/-- `FromPktDataset`. -/
def fromPktDataset (lib : StdLib) (boost : Boost) (config : Config F) (context : Context)
    (datasetName : String) (disk : Disk) : Except Fault (BurstDataset × Disk) :=
  match disk.lookup (Context.getPacketDatasetPath datasetName) with
  | some (.packets packetDataset) => do
    let content ← burstDatasetContent lib config context.deviceVec (boost.packets packetDataset)
    BurstDataset.ofContent lib config.divisionParam config.trainParam.trainPercent content disk
  | _ => .error .undefined

/-- `FromRawPackets`. -/
def fromRawPackets (lib : StdLib) (config : Config F) (context : Context) (datasetName : String)
    (rawTraffic : List CaptureFile) (disk : Disk) : Except Fault (BurstDataset × Disk) := do
  let dataset ← PacketStore.rawCvtoPktDataset lib context (datasetInfo datasetName) rawTraffic
  let content ← burstDatasetContent lib config context.deviceVec dataset
  BurstDataset.ofContent lib config.divisionParam config.trainParam.trainPercent content
    (PacketDataset.save dataset disk)

/-- `GetBurstDataset`: the dataset, and the files it leaves.  Each way to it opens a trace. -/
def getBurstDataset (lib : StdLib) (boost : Boost) (config : Config F) (context : Context)
    (datasetName : String) (rawTraffic : List CaptureFile) (disk : Disk) :
    Except Fault (BurstDataset × Disk) :=
  if Context.getBurstDatasetPath config.divisionParam datasetName ∈ disk then do
    let disk := disk.write (Context.getTimerPath "Load_burstDataset.json" datasetName) .trace
    let ds ← BurstDataset.ofName lib boost config.divisionParam config.trainParam.trainPercent
      datasetName disk
    return (ds, disk)
  else if Context.getPacketDatasetPath datasetName ∈ disk then
    fromPktDataset lib boost config context datasetName
      (disk.write (Context.getTimerPath "Load_pktDataset.json" datasetName) .trace)
  else
    fromRawPackets lib config context datasetName rawTraffic
      (disk.write (Context.getTimerPath "Load_rawPackets.json" datasetName) .trace)

/-- What a call of `SingleExperiment` finds on the disk. -/
def found (boost : Boost) (div : DivisionParam) (datasetName : String)
    (rawTraffic : List CaptureFile) (disk : Disk) : Experiment where
  cfg := []
  info := datasetInfo datasetName
  deviceMappings := none
  burstDataset :=
    match disk.lookup (Context.getBurstDatasetPath div datasetName) with
    | some (.bursts rawMap) => some (boost.bursts rawMap)
    | _ => none
  pktDataset :=
    match disk.lookup (Context.getPacketDatasetPath datasetName) with
    | some (.packets dataset) => some (boost.packets dataset)
    | _ => none
  rawTraffic

/-! ## Paths in different folders -/

/-- The path is in the folder of the default entry. -/
def InDefaultFolder (path : String) : Prop :=
  ("F:/UNSW".toList ++ "/".toList) <+: path.toList

instance (path : String) : Decidable (InDefaultFolder path) :=
  inferInstanceAs (Decidable (_ <+: _))

theorem InDefaultFolder.append {path : String} (h : InDefaultFolder path) (suffix : String) :
    InDefaultFolder (path ++ suffix) := by
  rw [InDefaultFolder, String.toList_append]
  exact h.trans (List.prefix_append _ _)

/-- The bursts are in a folder of their own. -/
theorem exists_getBurstDatasetPath_eq (div : DivisionParam) (datasetName : String) :
    ∃ rest, (Context.getBurstDatasetPath div datasetName).toList =
      (datasetInfo datasetName).datasetFolder.toList ++ ("/".toList ++
        ("SlottedBurstDataset/".toList ++ rest)) := by
  have hslash : "/SlottedBurstDataset/".toList = "/".toList ++ "SlottedBurstDataset/".toList := by
    decide +kernel
  rw [getBurstDatasetPath_eq]
  simp only [String.toList_append, List.append_assoc, -String.reduceAppend, -String.reduceToList]
  rw [hslash, List.append_assoc]
  exact ⟨_, rfl⟩

/-- The paths that the name of no dataset gives. -/
theorem inDefaultFolder_unnamed (div : DivisionParam) :
    InDefaultFolder (Context.getPktDatasetStatPath "") ∧
      InDefaultFolder (Context.getPacketDatasetPath "") ∧
      InDefaultFolder (Context.getBurstDatasetPath div "") := by
  refine ⟨by decide +kernel, by decide +kernel, ?_⟩
  have hfolder : (datasetInfo "").datasetFolder = "F:/UNSW" := by decide +kernel
  obtain ⟨rest, hpath⟩ := exists_getBurstDatasetPath_eq div ""
  rw [InDefaultFolder, hpath, hfolder, ← List.append_assoc]
  exact List.prefix_append _ _

/-- The folder of a dataset is not the default one, nor in it, nor around it. -/
theorem folders_apart : ∀ datasetName ∈ datasetInfoMaps.keys,
    ¬ ("F:/UNSW".toList ++ "/".toList) <+:
        ((datasetInfo datasetName).datasetFolder.toList ++ "/".toList) ∧
    ¬ ((datasetInfo datasetName).datasetFolder.toList ++ "/".toList) <+:
        ("F:/UNSW".toList ++ "/".toList) := by
  decide +kernel

theorem not_inDefaultFolder {datasetName path : String} (hname : datasetName ∈ datasetInfoMaps)
    (h : ((datasetInfo datasetName).datasetFolder.toList ++ "/".toList) <+: path.toList) :
    ¬ InDefaultFolder path := by
  intro hdefault
  obtain ⟨hin, haround⟩ := folders_apart datasetName (AList.mem_keys.mpr hname)
  rcases List.prefix_or_prefix_of_prefix hdefault h with hprefix | hprefix
  · exact hin hprefix
  · exact haround hprefix

/-- A build of a dataset writes no file at the path. -/
def Untouched (datasetName path : String) : Prop :=
  ¬ InDefaultFolder path ∧ path ≠ Context.getTimerPath "Load_rawPackets.json" datasetName

/-- The file of the bursts is no trace. -/
theorem getBurstDatasetPath_ne_getTimerPath (div : DivisionParam) (datasetName : String)
    {name : String} (h : ¬ "SlottedBurstDataset/".toList <+: name.toList) :
    Context.getBurstDatasetPath div datasetName ≠ Context.getTimerPath name datasetName := by
  intro heq
  obtain ⟨rest, hpath⟩ := exists_getBurstDatasetPath_eq div datasetName
  have hlist := congrArg String.toList heq
  rw [hpath, Context.getTimerPath] at hlist
  simp only [String.toList_append, List.append_assoc, -String.reduceToList] at hlist
  refine h ?_
  rw [← List.append_cancel_left (List.append_cancel_left hlist)]
  exact List.prefix_append _ _

theorem untouched_burstDataset (div : DivisionParam) {datasetName : String}
    (hname : datasetName ∈ datasetInfoMaps) :
    Untouched datasetName (Context.getBurstDatasetPath div datasetName) := by
  obtain ⟨rest, hpath⟩ := exists_getBurstDatasetPath_eq div datasetName
  refine ⟨not_inDefaultFolder hname ?_,
    getBurstDatasetPath_ne_getTimerPath div datasetName (by decide +kernel)⟩
  rw [hpath, ← List.append_assoc]
  exact List.prefix_append _ _

theorem untouched_pktDataset {datasetName : String} (hname : datasetName ∈ datasetInfoMaps) :
    Untouched datasetName (Context.getPacketDatasetPath datasetName) := by
  have hall : ∀ datasetName ∈ datasetInfoMaps.keys,
      ((datasetInfo datasetName).datasetFolder.toList ++ "/".toList) <+:
        (Context.getPacketDatasetPath datasetName).toList ∧
      Context.getPacketDatasetPath datasetName ≠
        Context.getTimerPath "Load_rawPackets.json" datasetName := by
    decide +kernel
  obtain ⟨hfolder, hne⟩ := hall datasetName (AList.mem_keys.mpr hname)
  exact ⟨not_inDefaultFolder hname hfolder, hne⟩

/-- The file of the packets is no trace. -/
theorem getPacketDatasetPath_ne_getTimerPath (datasetName : String) :
    Context.getPacketDatasetPath datasetName ≠
      Context.getTimerPath "Load_pktDataset.json" datasetName := by
  intro heq
  have hpkt : ".pktDataset".toList.getLast? = some 't' := by decide +kernel
  have htrace : "Load_pktDataset.json".toList.getLast? = some 'n' := by decide +kernel
  have hlast := congrArg (fun path : String => path.toList.getLast?) heq
  simp only [Context.getPacketDatasetPath, Context.getTimerPath, String.toList_append,
    List.getLast?_append, hpkt, htrace, Option.some_or, -String.reduceToList] at hlast
  exact absurd (Option.some_inj.mp hlast) (by decide)

/-- **What a call gets** is what it gets from the files that it finds, if each of them is of the
kind that its path says. -/
theorem getBurstDataset_fst (lib : StdLib) (boost : Boost) (config : Config F) (context : Context)
    (datasetName : String) (rawTraffic : List CaptureFile) (disk : Disk)
    (hburst : ∀ content, disk.lookup
      (Context.getBurstDatasetPath config.divisionParam datasetName) = some content →
        ∃ rawMap, content = .bursts rawMap)
    (hpkt : ∀ content, disk.lookup (Context.getPacketDatasetPath datasetName) = some content →
      ∃ dataset, content = .packets dataset) :
    (getBurstDataset lib boost config context datasetName rawTraffic disk).map Prod.fst =
      Process.getBurstDataset lib config context
        (found boost config.divisionParam datasetName rawTraffic disk) := by
  have hsaved : ∀ rawMap (disk : Disk), (BurstDataset.ofContent lib config.divisionParam
      config.trainParam.trainPercent rawMap disk).map Prod.fst =
        BurstDataset.ofRawMap lib config.trainParam.trainPercent rawMap := by
    intro rawMap disk
    rw [BurstDataset.ofContent]
    cases BurstDataset.ofRawMap lib config.trainParam.trainPercent rawMap <;> rfl
  have hconvert : ∀ (dataset : List KPacket) (disk : Disk),
      (burstDatasetContent lib config context.deviceVec dataset >>= fun content =>
        BurstDataset.ofContent lib config.divisionParam config.trainParam.trainPercent content
          disk).map Prod.fst =
        BurstDataset.fromPktDataset lib config.divisionParam config.trainParam.trainPercent
          context.deviceVec dataset := by
    intro dataset disk
    rw [burstDatasetContent, BurstDataset.fromPktDataset]
    cases Converter.pktDatasetCvtoBursts lib config.divisionParam context.deviceVec dataset with
    | error fault => rfl
    | ok converter => exact hsaved converter.burstDatasetContent disk
  rw [getBurstDataset, Process.getBurstDataset, found]
  split_ifs with hb hp
  · obtain ⟨content, hcontent⟩ := UnorderedMap.exists_lookup hb
    obtain ⟨rawMap, rfl⟩ := hburst content hcontent
    have hne := getBurstDatasetPath_ne_getTimerPath config.divisionParam datasetName
      (show ¬ _ <+: "Load_burstDataset.json".toList by decide +kernel)
    dsimp only
    rw [BurstDataset.ofName, BurstDataset.load, Disk.write, AList.lookup_insert_ne hne, hcontent]
    show Except.map Prod.fst (BurstDataset.ofRawMap lib config.trainParam.trainPercent
      (boost.bursts rawMap) >>= _) = BurstDataset.ofRawMap lib config.trainParam.trainPercent
      (boost.bursts rawMap)
    cases BurstDataset.ofRawMap lib config.trainParam.trainPercent (boost.bursts rawMap) <;> rfl
  · obtain ⟨content, hcontent⟩ := UnorderedMap.exists_lookup hp
    obtain ⟨dataset, rfl⟩ := hpkt content hcontent
    rw [fromPktDataset, Disk.write,
      AList.lookup_insert_ne (getPacketDatasetPath_ne_getTimerPath datasetName), hcontent,
      AList.lookup_eq_none.mpr hb]
    exact hconvert (boost.packets dataset) _
  · rw [AList.lookup_eq_none.mpr hb, AList.lookup_eq_none.mpr hp, fromRawPackets]
    dsimp only
    cases PacketStore.rawCvtoPktDataset lib context (datasetInfo datasetName) rawTraffic with
    | error fault => rfl
    | ok dataset => exact hconvert dataset _

/-! ## What a build writes -/

theorem lookup_serialize {path outFile : String} (hout : InDefaultFolder outFile)
    (h : ¬ InDefaultFolder path) (disk : Disk) (obj : FileContent) :
    (Context.serialize disk obj outFile).lookup path = disk.lookup path := by
  have hne : path ≠ outFile := fun heq => h (heq ▸ hout)
  have hne' : path ≠ outFile ++ ".txt" := fun heq => h (heq ▸ hout.append ".txt")
  rw [Context.serialize, Disk.write, Disk.write, AList.lookup_insert_ne hne',
    AList.lookup_insert_ne hne]

theorem lookup_serialize_self (disk : Disk) (obj : FileContent) (outFile : String) :
    (Context.serialize disk obj outFile).lookup outFile = some obj := by
  have hne : outFile ≠ outFile ++ ".txt" := by
    intro heq
    have hlength := congrArg (fun path : String => path.toList.length) heq
    have htxt : ".txt".toList.length = 4 := by decide +kernel
    simp only [String.toList_append, List.length_append, htxt] at hlength
    omega
  rw [Context.serialize, Disk.write, Disk.write, AList.lookup_insert_ne hne, AList.lookup_insert]

/-- **A build from raw packets** leaves a file as it was, if it is outside the default folder. -/
theorem lookup_of_fromRawPackets {lib : StdLib} {config : Config F} {context : Context}
    {datasetName path : String} {rawTraffic : List CaptureFile} {disk disk' : Disk}
    {ds : BurstDataset} (h : ¬ InDefaultFolder path)
    (hok : fromRawPackets lib config context datasetName rawTraffic disk = .ok (ds, disk')) :
    disk'.lookup path = disk.lookup path := by
  obtain ⟨dataset, -, hok⟩ := CheckedLoop.bind_eq_ok.mp hok
  obtain ⟨content, -, hok⟩ := CheckedLoop.bind_eq_ok.mp hok
  obtain ⟨ds, -, hok⟩ := CheckedLoop.bind_eq_ok.mp hok
  cases hok
  obtain ⟨hstat, hpkt, hburst⟩ := inDefaultFolder_unnamed config.divisionParam
  have hne : path ≠ Context.getPktDatasetStatPath "" := fun heq => h (heq ▸ hstat)
  rw [BurstDataset.serialize, lookup_serialize hburst h, PacketDataset.save,
    lookup_serialize hpkt h, Disk.write, AList.lookup_insert_ne hne]

/-- A dataset that has been built from raw packets is found again: its packets and its bursts are
where they are looked for, and no saved file of another dataset is another one than before. -/
structure FoundAgain (div : DivisionParam) (datasetName : String) (ds : BurstDataset)
    (disk disk' : Disk) : Prop where
  packets : ∃ dataset, disk'.lookup (Context.getPacketDatasetPath datasetName) =
    some (.packets dataset)
  bursts : disk'.lookup (Context.getBurstDatasetPath div datasetName) = some (.bursts ds.rawMap)
  others : ∀ other ∈ datasetInfoMaps, other ≠ datasetName →
    disk'.lookup (Context.getPacketDatasetPath other) =
      disk.lookup (Context.getPacketDatasetPath other) ∧
    ∀ div', disk'.lookup (Context.getBurstDatasetPath div' other) =
      disk.lookup (Context.getBurstDatasetPath div' other)

section Build

variable {lib : StdLib} {boost : Boost} {config : Config F} {context : Context}
  {datasetName : String} {rawTraffic : List CaptureFile} {disk disk' : Disk} {ds : BurstDataset}

/-- A build leaves the two paths without a file. -/
theorem not_mem_of_build (hname : datasetName ∈ datasetInfoMaps)
    (hburst : Context.getBurstDatasetPath config.divisionParam datasetName ∉ disk)
    (hpkt : Context.getPacketDatasetPath datasetName ∉ disk)
    (hok : getBurstDataset lib boost config context datasetName rawTraffic disk = .ok (ds, disk')) :
    Context.getBurstDatasetPath config.divisionParam datasetName ∉ disk' ∧
      Context.getPacketDatasetPath datasetName ∉ disk' := by
  rw [getBurstDataset, if_neg hburst, if_neg hpkt] at hok
  have hkeep : ∀ path, Untouched datasetName path → path ∉ disk → path ∉ disk' := by
    rintro path ⟨hdefault, hne⟩ hpath
    rw [← AList.lookup_eq_none] at hpath ⊢
    rw [lookup_of_fromRawPackets hdefault hok, Disk.write, AList.lookup_insert_ne hne, hpath]
  exact ⟨hkeep _ (untouched_burstDataset _ hname) hburst, hkeep _ (untouched_pktDataset hname) hpkt⟩

/-- **Every dataset is saved in one place.**  The bursts of the last build are at the path of the
empty name, whatever dataset has been built. -/
theorem lookup_unnamed_of_build
    (hburst : Context.getBurstDatasetPath config.divisionParam datasetName ∉ disk)
    (hpkt : Context.getPacketDatasetPath datasetName ∉ disk)
    (hok : getBurstDataset lib boost config context datasetName rawTraffic disk = .ok (ds, disk')) :
    disk'.lookup (Context.getBurstDatasetPath config.divisionParam "") =
      some (.bursts ds.rawMap) := by
  rw [getBurstDataset, if_neg hburst, if_neg hpkt] at hok
  obtain ⟨dataset, -, hok⟩ := CheckedLoop.bind_eq_ok.mp hok
  obtain ⟨content, -, hok⟩ := CheckedLoop.bind_eq_ok.mp hok
  obtain ⟨ds, -, hok⟩ := CheckedLoop.bind_eq_ok.mp hok
  cases hok
  exact lookup_serialize_self _ _ _

theorem not_foundAgain {div : DivisionParam}
    (hpkt : Context.getPacketDatasetPath datasetName ∉ disk') :
    ¬ FoundAgain div datasetName ds disk disk' := by
  rintro ⟨⟨dataset, hfound⟩, -, -⟩
  rw [AList.lookup_eq_none.mpr hpkt] at hfound
  cases hfound

end Build
end IoTBurst

open IoTBurst in
/-- **A dataset that is built from raw packets is not found again.**  Whatever the dataset and the
configuration, the build leaves no file where the next call looks for the bursts or for the
packets. -/
theorem built_not_found {F : Type} [Field F] (lib : StdLib) (boost : Boost) (config : Config F)
    (context : Context) (datasetName : String) (hname : datasetName ∈ datasetInfoMaps)
    (rawTraffic : List CaptureFile) (disk : Disk)
    (hburst : Context.getBurstDatasetPath config.divisionParam datasetName ∉ disk)
    (hpkt : Context.getPacketDatasetPath datasetName ∉ disk) (ds : BurstDataset) (disk' : Disk)
    (hok : getBurstDataset lib boost config context datasetName rawTraffic disk =
      .ok (ds, disk')) :
    ¬ FoundAgain config.divisionParam datasetName ds disk disk' ∧
      Context.getBurstDatasetPath config.divisionParam datasetName ∉ disk' ∧
      Context.getPacketDatasetPath datasetName ∉ disk' := by
  obtain ⟨hburst', hpkt'⟩ := not_mem_of_build hname hburst hpkt hok
  exact ⟨not_foundAgain hpkt', hburst', hpkt'⟩

/-- One capture file with nine packets of the camera. -/
def cameraTrafficFile : List CaptureFile :=
  [.packets ([10, 20, 30, 40, 50, 60, 70, 80, 90].map (cameraTraffic true 60))]

/-- A boost that reads back what was written. -/
def exactBoost : Boost where
  packets := id
  bursts := id

open IoTBurst in
/-- The build of the camera's bursts as a dataset of that name, on an empty disk. -/
def cameraBuild (datasetName : String) : Except Fault (BurstDataset × Disk) := do
  let context ← Context.register canonicalPcapPlusPlus {} [cameraDataset]
  getBurstDataset .insertion exactBoost ({} : Config ℚ) context datasetName cameraTrafficFile ∅

open IoTBurst in
theorem cameraBuild_eq_ok {datasetName : String} (h : (cameraBuild datasetName).isOk = true) :
    ∃ context ds disk', getBurstDataset .insertion exactBoost ({} : Config ℚ) context datasetName
      cameraTrafficFile ∅ = .ok (ds, disk') := by
  cases hbuild : cameraBuild datasetName with
  | error fault =>
    rw [hbuild] at h
    cases h
  | ok built =>
    obtain ⟨context, -, hok⟩ := CheckedLoop.bind_eq_ok.mp hbuild
    exact ⟨context, built.1, built.2, hok⟩

open IoTBurst in
theorem built_not_found_camera : ∃ context ds disk',
    getBurstDataset .insertion exactBoost ({} : Config ℚ) context "UNSW2016" cameraTrafficFile ∅ =
      .ok (ds, disk') ∧
    ¬ FoundAgain {} "UNSW2016" ds ∅ disk' ∧
      Context.getBurstDatasetPath {} "UNSW2016" ∉ disk' ∧
      Context.getPacketDatasetPath "UNSW2016" ∉ disk' := by
  obtain ⟨context, ds, disk', hok⟩ := cameraBuild_eq_ok
    (show (cameraBuild "UNSW2016").isOk = true by decide +kernel)
  exact ⟨context, ds, disk', hok, built_not_found .insertion exactBoost {} context "UNSW2016"
    (by decide +kernel) cameraTrafficFile ∅ (AList.notMem_empty _) (AList.notMem_empty _) ds disk'
    hok⟩

open IoTBurst in
/-- **What is built need not be found again**: the bursts of the camera as those of `UNSW2016`. -/
theorem not_foundAgain_camera :
    ¬ ∀ (context : Context) (rawTraffic : List CaptureFile) (ds : BurstDataset) (disk' : Disk),
      getBurstDataset .insertion exactBoost ({} : Config ℚ) context "UNSW2016" rawTraffic ∅ =
        .ok (ds, disk') → FoundAgain {} "UNSW2016" ds ∅ disk' := by
  intro hclaim
  obtain ⟨context, ds, disk', hok⟩ := cameraBuild_eq_ok
    (show (cameraBuild "UNSW2016").isOk = true by decide +kernel)
  have hpkt := (not_mem_of_build (by decide +kernel) (AList.notMem_empty _) (AList.notMem_empty _)
    hok).2
  exact not_foundAgain hpkt (hclaim context cameraTrafficFile ds disk' hok)

end BurstIoT
