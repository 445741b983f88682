import BurstIoT.DatasetPaths
import BurstIoT.Experiment
import BurstIoT.ResultTable

/-!
# The files of the results

`OutputToFile` writes the table and the details of a score to the folder of the dataset, under a
name that is made of the configuration.  It does not ask whether there is a file of this name, and
only where the file does not open it adds the time to the name.

What is printed of the configuration can be read back as far as a call sets it (`eq_of_outpath_eq`),
with or without the time.  So a call overwrites the results of calls with its own parameters and its
own folder only (`holds_of_experimentsTo`), and a sweep keeps the results of all its combinations
(`sweep_keeps_results`), as long as the parameters fit into the fields that they are stored in.
-/

namespace BurstIoT

variable {F : Type} [Field F] [LinearOrder F] [Elementary F]

/-! ## The names of the files -/

/-- What `Config` keeps for its text only: no other function reads these fields, and none sets
them. -/
structure PrintedParam where
  minBurstNum : UInt8 := 1
  enableSimilar : Bool := false
  deriving DecidableEq, Repr

/-- `FilterParam::ToString`. -/
def FilterParam.toString (printed : PrintedParam) (filter : FilterParam) : String :=
  "Filter" ++
    "(pktN=" ++ filter.minBlockPktnum.toNat.repr ++ ")" ++
    "(burstN=" ++ printed.minBurstNum.toNat.repr ++ ")"

/-- `TrainParam::ToString`. -/
def TrainParam.toString (printed : PrintedParam) (train : TrainParam) : String :=
  "Train" ++
    "(Pcnt=" ++ train.trainPercent.toNat.repr ++ ")" ++
    "(Mer=" ++ train.enableMergeIdentical.toNat.repr ++ ")" ++
    "(Sim=" ++ printed.enableSimilar.toNat.repr ++ ")"

/-- `TestParam::ToString`. -/
def TestParam.toString (printFloat : Option F → String) (test : TestParam F) : String :=
  "Test" ++
    "(RngUni=" ++ test.unisigRange.toNat.repr ++ ")" ++
    "(RngPkt=" ++ Int.repr test.packetnumRange ++ "s)" ++
    "(Otpfm=" ++ printFloat (some test.minOutperform) ++ ")"

namespace Score

/-- `GetScoreStem`. -/
def getScoreStem (printFloat : Option F → String) (printed : PrintedParam) (config : Config F) :
    String :=
  config.divisionParam.toString ++ config.trainParam.toString printed ++
    config.classifyParam.toString printFloat ++ config.filterParam.toString printed

/-- `GetScoreOutpath`. -/
def getScoreOutpath (printFloat : Option F → String) (printed : PrintedParam) (config : Config F)
    (outFolder : String) : String :=
  outFolder ++ "/res/" ++ getScoreStem printFloat printed config

end Score

/-- A local time, as `localtime_s` gives it. -/
structure Tm where
  tmYear : ℤ
  tmMon : ℤ
  tmMday : ℤ
  tmHour : ℤ
  tmMin : ℤ
  tmSec : ℤ
  deriving DecidableEq, Repr

/-- `GetTimeSec`. -/
def getTimeSec (time : Tm) : String :=
  Int.repr time.tmYear ++ "-" ++ Int.repr time.tmMon ++ "-" ++ Int.repr time.tmMday ++ "-" ++
    Int.repr time.tmHour ++ "-" ++ Int.repr time.tmMin ++ "-" ++ Int.repr time.tmSec

/-! ## Writing -/

/-- The texts of the files of a disk, by path. -/
abbrev Files := UnorderedMap String String

namespace Score

/-- `OutputStringToFile`.  `canOpen` says where a stream opens. -/
def outputStringToFile (canOpen : String → Bool) (path str : String) (files : Files) :
    Except Fault Files :=
  if canOpen path then .ok (AList.insert path str files) else .error (.thrown .openError)

/-- One iteration of `WrongBurstGroupDetails`. -/
def addReport (printFloat : Option F → String) (context : Context)
    (ss : String × UnorderedMap UInt16 ℕ) (debug : BurstGroupPolicy F) :
    Except Fault (String × UnorderedMap UInt16 ℕ) := do
  let (report, addrAvgPktMap) ← debug.toString (fun x => printFloat (some x)) context ss.2
  return (ss.1 ++ report, addrAvgPktMap)

/-- `WrongBurstGroupDetails`: the text, and what the reports leave in `addrAvgPktMap`. -/
def wrongBurstGroupDetails (printFloat : Option F → String) (context : Context) (score : Score F)
    (addrAvgPktMap : UnorderedMap UInt16 ℕ) : Except Fault (String × UnorderedMap UInt16 ℕ) :=
  score.errBurstGroups.foldlM (addReport printFloat context) ("", addrAvgPktMap)

end Score

/-- What `OutputToFile` meets: where a stream opens, and the times at which a file that does not
open is tried again. -/
structure Opening where
  canOpen : String → Bool
  tableTime : Tm
  detailTime : Tm

/-- One of the two files of `OutputToFile`: where it does not open, it is given another name. -/
def Opening.write (opening : Opening) (time : Tm) (outpath suffix str : String) (files : Files) :
    Except Fault Files :=
  match Score.outputStringToFile opening.canOpen (outpath ++ suffix) str files with
  | .ok files => .ok files
  | .error _ =>
    Score.outputStringToFile opening.canOpen (outpath ++ getTimeSec time ++ suffix) str files

/-- The path that a file gets. -/
def Opening.path (opening : Opening) (time : Tm) (outpath suffix : String) : String :=
  if opening.canOpen (outpath ++ suffix) then outpath ++ suffix
  else outpath ++ getTimeSec time ++ suffix

theorem Opening.write_eq_ok {opening : Opening} {time : Tm} {outpath suffix str : String}
    {files files' : Files} (h : opening.write time outpath suffix str files = .ok files') :
    files' = AList.insert (opening.path time outpath suffix) str files := by
  rw [Opening.write, Score.outputStringToFile, Score.outputStringToFile] at h
  rw [Opening.path]
  by_cases hopen : opening.canOpen (outpath ++ suffix) = true
  · rw [if_pos hopen] at h ⊢
    exact (Except.ok.inj h).symm
  · rw [if_neg hopen] at h ⊢
    dsimp only at h
    split_ifs at h
    exact (Except.ok.inj h).symm

namespace Score

/-- `OutputToFile`.  The details are made once: made again for the other name, they are the same
(`wrongBurstGroupDetails_again`). -/
def writeToFile (lib : StdLib) (printFloat : Option F → String) (opening : Opening)
    (outpath : String) (context : Context) (score : Score F)
    (addrAvgPktMap : UnorderedMap UInt16 ℕ) (files : Files) :
    Except Fault (UnorderedMap UInt16 ℕ × Files) := do
  let files ← opening.write opening.tableTime outpath ".csv" (score.indexTable lib printFloat) files
  let (details, addrAvgPktMap) ← score.wrongBurstGroupDetails printFloat context addrAvgPktMap
  let files ← opening.write opening.detailTime outpath ".detail" details files
  return (addrAvgPktMap, files)

/-! ### The details -/

/-- Two maps of averages in which every device has the same one; a missing one is zero. -/
def SameAverages (m m' : UnorderedMap UInt16 ℕ) : Prop :=
  ∀ d, (m.lookup d).getD 0 = (m'.lookup d).getD 0

/-- Reading an average leaves the averages. -/
theorem sameAverages_update (m : UnorderedMap UInt16 ℕ) (d : UInt16) :
    SameAverages m (m.update d 0 id) := by
  intro d'
  by_cases hd : d' = d
  · rw [hd, UnorderedMap.lookup_update_self]
    rfl
  · rw [UnorderedMap.lookup_update_ne _ hd]

variable {printFloat : Option F → String} {context : Context} {score : Score F}
  {m m' m₁ : UnorderedMap UInt16 ℕ} {details : String}

omit [LinearOrder F] [Elementary F] in
/-- **A report reads the averages**, and no more of the map. -/
theorem addReport_of_sameAverages {ss ss' ss₁ : String × UnorderedMap UInt16 ℕ}
    {debug : BurstGroupPolicy F} (h : addReport printFloat context ss debug = .ok ss')
    (htext : ss.1 = ss₁.1) (hsame : SameAverages ss.2 ss₁.2) :
    SameAverages ss.2 ss'.2 ∧ ∃ ss₁', addReport printFloat context ss₁ debug = .ok ss₁' ∧
      ss'.1 = ss₁'.1 ∧ SameAverages ss'.2 ss₁'.2 := by
  obtain ⟨⟨report, m'⟩, hreport, h⟩ := CheckedLoop.bind_eq_ok.mp h
  cases h
  obtain ⟨missed, hmissed, hreport⟩ := CheckedLoop.bind_eq_ok.mp hreport
  dsimp only at hreport
  by_cases hunreliable : debug.prediction = "unreliable"
  · rw [if_pos hunreliable] at hreport
    cases hreport
    refine ⟨fun _ => rfl, _, CheckedLoop.bind_eq_ok.mpr ⟨_, CheckedLoop.bind_eq_ok.mpr
      ⟨missed, hmissed, if_pos hunreliable⟩, rfl⟩, ?_, hsame⟩
    rw [htext]
  · rw [if_neg hunreliable] at hreport
    obtain ⟨device, hdevice, hreport⟩ := CheckedLoop.bind_eq_ok.mp hreport
    cases hreport
    have hread := sameAverages_update ss.2 device.devId
    have hread₁ := sameAverages_update ss₁.2 device.devId
    refine ⟨hread, _, CheckedLoop.bind_eq_ok.mpr ⟨_, CheckedLoop.bind_eq_ok.mpr
      ⟨missed, hmissed, (if_neg hunreliable).trans
        (CheckedLoop.bind_eq_ok.mpr ⟨device, hdevice, rfl⟩)⟩, rfl⟩, ?_,
      fun d => (hread d).symm.trans ((hsame d).trans (hread₁ d))⟩
    rw [htext, hsame device.devId]

omit [LinearOrder F] [Elementary F] in
/-- **Made again, the details are the same**, and leave the averages that they have left. -/
theorem wrongBurstGroupDetails_again
    (h : score.wrongBurstGroupDetails printFloat context m = .ok (details, m')) :
    ∃ m'', score.wrongBurstGroupDetails printFloat context m' = .ok (details, m'') ∧
      SameAverages m' m'' := by
  have hleft : SameAverages m m' := CheckedLoop.foldlM_inv
    (I := fun _ (ss : String × UnorderedMap UInt16 ℕ) => SameAverages m ss.2) _ []
    (fun _ debug ss ss' _ hss hstep d => (hss d).trans
      ((addReport_of_sameAverages hstep rfl fun _ => rfl).1 d)) (fun _ => rfl) h
  obtain ⟨⟨text, m''⟩, hagain, rfl, hsame⟩ := CheckedLoop.foldlM_follows
    (R := fun (ss ss₁ : String × UnorderedMap UInt16 ℕ) => ss.1 = ss₁.1 ∧ SameAverages ss.2 ss₁.2)
    (g := addReport printFloat context)
    (fun ss ss₁ debug ss' hss hstep => (addReport_of_sameAverages hstep hss.1 hss.2).2)
    score.errBurstGroups (s := ("", m)) (t := ("", m')) ⟨rfl, hleft⟩ h
  exact ⟨m'', hagain, hsame⟩

omit [LinearOrder F] [Elementary F] in
/-- What the details leave in the averages is what `outputToFile` says. -/
theorem outputToFile_of_details
    (h : score.wrongBurstGroupDetails printFloat context m = .ok (details, m')) :
    score.outputToFile context m = .ok m' := by
  let read : UnorderedMap UInt16 ℕ → BurstGroupPolicy F → Except Fault (UnorderedMap UInt16 ℕ) :=
    fun addrAvgPktMap debug =>
      if debug.prediction = "unreliable" then .ok addrAvgPktMap
      else do
        let device ← context.getDevice debug.prediction
        return addrAvgPktMap.update device.devId 0 id
  have hstep : ∀ (ss : String × UnorderedMap UInt16 ℕ) (m : UnorderedMap UInt16 ℕ) debug ss',
      ss.2 = m → addReport printFloat context ss debug = .ok ss' →
        ∃ m', read m debug = .ok m' ∧ ss'.2 = m' := by
    rintro ss - debug ss' rfl hadd
    obtain ⟨⟨report, m'⟩, hreport, hadd⟩ := CheckedLoop.bind_eq_ok.mp hadd
    cases hadd
    obtain ⟨missed, -, hreport⟩ := CheckedLoop.bind_eq_ok.mp hreport
    refine ⟨m', ?_, rfl⟩
    dsimp only at hreport
    by_cases hunreliable : debug.prediction = "unreliable"
    · rw [if_pos hunreliable] at hreport
      cases hreport
      exact if_pos hunreliable
    · rw [if_neg hunreliable] at hreport
      obtain ⟨device, hdevice, hreport⟩ := CheckedLoop.bind_eq_ok.mp hreport
      cases hreport
      exact (if_neg hunreliable).trans (CheckedLoop.bind_eq_ok.mpr ⟨device, hdevice, rfl⟩)
  obtain ⟨m₁, hrun, rfl⟩ := CheckedLoop.foldlM_follows hstep score.errBurstGroups rfl h
  exact hrun

end Score

/-! ## What a path tells -/

open Spelling

/-- What is printed of the division parameters determines them, whatever follows. -/
theorem DivisionParam.toString_append_injective {div div' : DivisionParam} {rest rest' : List Char}
    (h : div.toString.toList ++ rest = div'.toString.toList ++ rest') :
    div = div' ∧ rest = rest' := by
  simp only [toList_toString, List.append_assoc, -String.reduceToList] at h
  have htexts : div.fields.map Prod.snd = div'.fields.map Prod.snd := by
    simp only [fields, List.map_cons, List.map_nil]
  obtain ⟨hfields, hrest⟩ := spell_append_injective htexts div.delimits_fields div.inNumeral_fields
    div'.inNumeral_fields (List.append_cancel_left (List.append_cancel_left h))
  refine ⟨toString_injective (String.toList_inj.mp ?_), hrest⟩
  rw [toList_toString, toList_toString, hfields]

/-- What is printed of the training parameters determines the share of the training half. -/
theorem TrainParam.percent_eq_of_toString {printed printed' : PrintedParam}
    {train train' : TrainParam} {rest rest' : List Char}
    (h : (train.toString printed).toList ++ rest = (train'.toString printed').toList ++ rest') :
    train.trainPercent = train'.trainPercent := by
  have htext : ∀ (printed : PrintedParam) (train : TrainParam) (rest : List Char), ∃ after,
      (train.toString printed).toList ++ rest =
        "Train(Pcnt=".toList ++ (train.trainPercent.toNat.repr.toList ++ (')' :: after)) := by
    intro printed train rest
    refine ⟨("(Mer=" ++ train.enableMergeIdentical.toNat.repr ++ ")" ++ "(Sim=" ++
      printed.enableSimilar.toNat.repr ++ ")").toList ++ rest, ?_⟩
    simp [TrainParam.toString, String.toList_append]
  obtain ⟨after, hafter⟩ := htext printed train rest
  obtain ⟨after', hafter'⟩ := htext printed' train' rest'
  rw [hafter, hafter'] at h
  have hparen : ∀ after : List Char, Delimits InNumeral (')' :: after) :=
    fun after => ⟨')', rfl, by decide⟩
  obtain ⟨hpercent, -⟩ := append_inj_of_delimits (fun _ => inNumeral_of_mem_repr)
    (fun _ => inNumeral_of_mem_repr) (hparen _) (hparen _) (List.append_cancel_left h)
  exact UInt8.toNat_inj.mp (repr_injective (String.toList_inj.mp hpercent))

theorem slash_notMem_repr (n : ℕ) : '/' ∉ n.repr.toList := by
  intro h
  exact absurd (isDigit_of_mem_repr h) (by decide)

theorem slash_notMem_intRepr (i : ℤ) : '/' ∉ (Int.repr i).toList := by
  intro h
  exact absurd (inNumeral_of_mem_intRepr h) (by decide)

theorem slash_notMem_getTimeSec (time : Tm) : '/' ∉ (getTimeSec time).toList := by
  have hminus : '/' ∉ "-".toList := by decide
  simp only [getTimeSec, String.toList_append, List.mem_append, slash_notMem_intRepr, hminus,
    or_self, not_false_eq_true, -String.reduceToList]

omit [LinearOrder F] [Elementary F] in
theorem slash_notMem_getScoreStem {printFloat : Option F → String} (printed : PrintedParam)
    {config : Config F}
    (hprint : '/' ∉ (printFloat (some config.classifyParam.minOutperform)).toList) :
    '/' ∉ (Score.getScoreStem printFloat printed config).toList := by
  unfold Score.getScoreStem DivisionParam.toString TrainParam.toString TestParam.toString
    FilterParam.toString
  simp only [String.toList_append, List.mem_append, slash_notMem_repr, slash_notMem_intRepr, hprint,
    or_false, -String.reduceAppend]
  simp

omit [LinearOrder F] [Elementary F] in
/-- **A path tells the folder, the division and the share of the training half.** -/
theorem eq_of_outpath_eq {printFloat : Option F → String} {printed : PrintedParam}
    {config config' : Config F} {folder folder' ending ending' : String}
    (hprint : '/' ∉ (printFloat (some config.classifyParam.minOutperform)).toList)
    (hprint' : '/' ∉ (printFloat (some config'.classifyParam.minOutperform)).toList)
    (hending : '/' ∉ ending.toList) (hending' : '/' ∉ ending'.toList)
    (h : Score.getScoreOutpath printFloat printed config folder ++ ending =
      Score.getScoreOutpath printFloat printed config' folder' ++ ending') :
    folder = folder' ∧ config.divisionParam = config'.divisionParam ∧
      config.trainParam.trainPercent = config'.trainParam.trainPercent := by
  have htext : ∀ (config : Config F) (folder ending : String),
      (Score.getScoreOutpath printFloat printed config folder ++ ending).toList =
        (folder.toList ++ "/res".toList) ++
          '/' :: ((Score.getScoreStem printFloat printed config).toList ++ ending.toList) := by
    intro config folder ending
    simp [Score.getScoreOutpath, String.toList_append]
  have hslash : ∀ {config : Config F} {ending : String},
      '/' ∉ (printFloat (some config.classifyParam.minOutperform)).toList → '/' ∉ ending.toList →
      '/' ∉ (Score.getScoreStem printFloat printed config).toList ++ ending.toList := by
    intro config ending hprint hending hmem
    exact (List.mem_append.mp hmem).elim (slash_notMem_getScoreStem printed hprint) hending
  have hlist := congrArg String.toList h
  rw [htext, htext] at hlist
  obtain ⟨hfolder, hstem⟩ := append_inj_of_last (hslash hprint hending) (hslash hprint' hending')
    hlist
  refine ⟨String.toList_inj.mp (List.append_cancel_right hfolder), ?_⟩
  simp only [Score.getScoreStem, String.toList_append, List.append_assoc] at hstem
  obtain ⟨hdiv, htrain⟩ := DivisionParam.toString_append_injective hstem
  exact ⟨hdiv, TrainParam.percent_eq_of_toString htrain⟩

/-- A path of a file is the path of the results, with an ending. -/
theorem Opening.exists_path_eq (opening : Opening) (time : Tm) (outpath : String) {suffix : String}
    (hsuffix : '/' ∉ suffix.toList) : ∃ ending : String, '/' ∉ ending.toList ∧
      opening.path time outpath suffix = outpath ++ ending := by
  rw [path]
  split_ifs
  · exact ⟨suffix, hsuffix, rfl⟩
  · refine ⟨getTimeSec time ++ suffix, ?_, String.append_assoc⟩
    rw [String.toList_append]
    exact fun hmem => (List.mem_append.mp hmem).elim (slash_notMem_getTimeSec time) hsuffix

theorem Opening.getLast?_path {opening : Opening} {time : Tm} {outpath suffix : String} {c : Char}
    (hc : suffix.toList.getLast? = some c) :
    (opening.path time outpath suffix).toList.getLast? = some c := by
  rw [path]
  split_ifs
  · rw [String.toList_append, List.getLast?_append, hc]
    rfl
  · rw [String.toList_append, List.getLast?_append, hc]
    rfl

/-! ## Experiments that write -/

/-- A call of `SingleExperiment`, and what it meets when it writes its results. -/
structure ReportedExperiment extends Experiment where
  opening : Opening

namespace Process

variable (lib : StdLib) (pcpp : PcapPlusPlus) (printFloat : Option F → String)
  (printed : PrintedParam)

/-- `SingleExperiment`: the process and the disk it leaves, and its score. -/
def singleExperimentTo (s : Process F × Files) (call : ReportedExperiment) :
    Except Fault ((Process F × Files) × Score F) := do
  let context ← Context.addDevices pcpp call.info call.deviceMappings s.1.context
  let config ← configure s.1.config call.cfg
  let burstDataset ← getBurstDataset lib config context call.toExperiment
  let (classifier, statics) ← Classifier.train lib config s.1.statics burstDataset.trainset
  let (score, statics, _) ←
    Classifier.predict lib config context classifier statics s.1.cache burstDataset.testset
  let (addrAvgPktMap, files) ← score.writeToFile lib printFloat call.opening
    (Score.getScoreOutpath printFloat printed config call.info.datasetFolder) context
    statics.addrAvgPktMap s.2
  return (({ context, config, statics := { statics with addrAvgPktMap }, cache := [] }, files),
    score)

/-- One call after another. -/
def experimentsTo (s : Process F × Files) (calls : List ReportedExperiment) :
    Except Fault (Process F × Files) :=
  calls.foldlM (fun s call => do
    let (s, _) ← singleExperimentTo lib pcpp printFloat printed s call
    return s) s

/-- The loops of `LabelRateExperiment`, with the files of the results. -/
def sweepTo (files : List ℤ → String → ReportedExperiment) (argArrays : List (List ℤ))
    (datasetNames : List String) (fuel : ℕ) (s : Process F × Files) :
    Option (Except Fault (Combiner × (Process F × Files))) :=
  Combiner.whileUnfinished (fun s cfg =>
    experimentsTo lib pcpp printFloat printed s
      (datasetNames.map fun datasetName => { files cfg datasetName with cfg }))
    fuel (.ofArrays argArrays) s

/-- The path of the table of a call under a configuration. -/
def tablePath (config : Config F) (call : ReportedExperiment) : String :=
  call.opening.path call.opening.tableTime
    (Score.getScoreOutpath printFloat printed config call.info.datasetFolder) ".csv"

/-- The path of the details of a call under a configuration. -/
def detailPath (config : Config F) (call : ReportedExperiment) : String :=
  call.opening.path call.opening.detailTime
    (Score.getScoreOutpath printFloat printed config call.info.datasetFolder) ".detail"

variable {lib pcpp printFloat printed}

/-- **What a call writes**: it makes the experiment, and writes its table and its details. -/
theorem singleExperimentTo_eq_ok {s s' : Process F × Files} {call : ReportedExperiment}
    {score : Score F}
    (h : singleExperimentTo lib pcpp printFloat printed s call = .ok (s', score)) :
    singleExperiment lib pcpp s.1 call.toExperiment = .ok (s'.1, score) ∧
      configure s.1.config call.cfg = .ok s'.1.config ∧ ∃ details m,
        score.wrongBurstGroupDetails printFloat s'.1.context s'.1.statics.addrAvgPktMap =
          .ok (details, m) ∧
        s'.2 = AList.insert (detailPath printFloat printed s'.1.config call) details
          (AList.insert (tablePath printFloat printed s'.1.config call)
            (score.indexTable lib printFloat) s.2) := by
  obtain ⟨context, hcontext, h⟩ := CheckedLoop.bind_eq_ok.mp h
  obtain ⟨config, hconfig, h⟩ := CheckedLoop.bind_eq_ok.mp h
  obtain ⟨ds, hds, h⟩ := CheckedLoop.bind_eq_ok.mp h
  obtain ⟨trained, htrained, h⟩ := CheckedLoop.bind_eq_ok.mp h
  obtain ⟨predicted, hpredicted, h⟩ := CheckedLoop.bind_eq_ok.mp h
  obtain ⟨⟨m', files⟩, hwrite, h⟩ := CheckedLoop.bind_eq_ok.mp h
  cases h
  obtain ⟨tabled, htable, hwrite⟩ := CheckedLoop.bind_eq_ok.mp hwrite
  obtain ⟨⟨details, left⟩, hdetails, hwrite⟩ := CheckedLoop.bind_eq_ok.mp hwrite
  obtain ⟨detailed, hdetail, hwrite⟩ := CheckedLoop.bind_eq_ok.mp hwrite
  cases hwrite
  obtain ⟨m, hagain, -⟩ := Score.wrongBurstGroupDetails_again hdetails
  refine ⟨?_, hconfig, details, m, hagain, ?_⟩
  · exact singleExperiment_eq_ok.mpr ⟨context, config, ds, trained, predicted, m', hcontext,
      hconfig, hds, htrained, hpredicted, Score.outputToFile_of_details hdetails, rfl, rfl⟩
  · rw [Opening.write_eq_ok hdetail, Opening.write_eq_ok htable]
    rfl

theorem exists_score {s s' : Process F × Files} {call : ReportedExperiment}
    (h : (do
      let (s, _) ← singleExperimentTo lib pcpp printFloat printed s call
      return s) = .ok s') :
    ∃ score, singleExperimentTo lib pcpp printFloat printed s call = .ok (s', score) := by
  obtain ⟨⟨t, score⟩, hcall, hnext⟩ := CheckedLoop.bind_eq_ok.mp h
  obtain rfl : t = s' := Except.ok.inj hnext
  exact ⟨score, hcall⟩

theorem experimentsTo_ok {calls : List ReportedExperiment}
    (h : ∀ call ∈ calls, ∀ s, ∃ r,
      singleExperimentTo lib pcpp printFloat printed s call = .ok r) (s : Process F × Files) :
    ∃ s', experimentsTo lib pcpp printFloat printed s calls = .ok s' := by
  obtain ⟨s', hrun, -⟩ := CheckedLoop.foldlM_ok (l := calls) (I := fun _ _ => True)
    (fun done call rest hall s _ => by
      have hmem : call ∈ calls := by
        rw [hall]
        exact List.mem_append_right _ List.mem_cons_self
      obtain ⟨r, hr⟩ := h call hmem s
      exact ⟨r.1, CheckedLoop.bind_eq_ok.mpr ⟨r, hr, rfl⟩, trivial⟩) trivial
  exact ⟨s', hrun⟩

/-- The texts of a score stand where the call has written them. -/
structure Holds (lib : StdLib) (printFloat : Option F → String) (printed : PrintedParam)
    (call : ReportedExperiment) (p : Process F) (score : Score F) (files : Files) : Prop where
  table : files.lookup (tablePath printFloat printed p.config call) =
    some (score.indexTable lib printFloat)
  details : ∃ details m, score.wrongBurstGroupDetails printFloat p.context
      p.statics.addrAvgPktMap = .ok (details, m) ∧
    files.lookup (detailPath printFloat printed p.config call) = some details

omit [LinearOrder F] [Elementary F] in
theorem tablePath_ne_detailPath (config : Config F) (call : ReportedExperiment) :
    tablePath printFloat printed config call ≠ detailPath printFloat printed config call := by
  intro h
  have hlast := congrArg (fun path : String => path.toList.getLast?) h
  simp only [tablePath, detailPath] at hlast
  rw [Opening.getLast?_path (show ".csv".toList.getLast? = some 'v' from rfl),
    Opening.getLast?_path (show ".detail".toList.getLast? = some 'l' from rfl)] at hlast
  exact absurd hlast (by decide)

/-! ## What is kept -/

omit [LinearOrder F] [Elementary F] in
/-- What a call sets of a configuration, and what it leaves. -/
theorem configure_eq_ok {config config' : Config F} {cfg : List ℤ}
    (h : configure config cfg = .ok config') :
    config' = { config with
      divisionParam := config'.divisionParam
      trainParam := { config.trainParam with
        trainPercent := config'.trainParam.trainPercent } } := by
  obtain ⟨trainPercent, -, h⟩ := CheckedLoop.bind_eq_ok.mp h
  obtain ⟨timeslot, -, h⟩ := CheckedLoop.bind_eq_ok.mp h
  obtain ⟨interval, -, h⟩ := CheckedLoop.bind_eq_ok.mp h
  obtain ⟨unisig, -, h⟩ := CheckedLoop.bind_eq_ok.mp h
  obtain ⟨duration, -, h⟩ := CheckedLoop.bind_eq_ok.mp h
  cases h
  rfl

/-- A process whose configuration comes from the given one by setting parameters. -/
structure ConfiguredFrom (config : Config F) (p : Process F) : Prop where
  configure : ∀ cfg, configure p.config cfg = Process.configure config cfg
  classifyParam : p.config.classifyParam = config.classifyParam

theorem ConfiguredFrom.singleExperimentTo {config : Config F} {s s' : Process F × Files}
    {call : ReportedExperiment} {score : Score F} (h : ConfiguredFrom config s.1)
    (hrun : singleExperimentTo lib pcpp printFloat printed s call = .ok (s', score)) :
    ConfiguredFrom config s'.1 := by
  obtain ⟨-, hconfig, -⟩ := singleExperimentTo_eq_ok hrun
  refine ⟨fun cfg => (configure_configure hconfig cfg).trans (h.configure cfg), ?_⟩
  rw [configure_eq_ok hconfig]
  exact h.classifyParam

variable {call : ReportedExperiment} {p : Process F} {score : Score F} {files : Files}

variable (printed) in
omit [LinearOrder F] [Elementary F] in
/-- **Calls with different parameters or folders write different files.** -/
theorem paths_ne {config config₁ config₂ : Config F} {call₁ call₂ : ReportedExperiment}
    (h₁ : configure config call₁.cfg = .ok config₁) (h₂ : configure config call₂.cfg = .ok config₂)
    (hprint : '/' ∉ (printFloat (some config.classifyParam.minOutperform)).toList)
    (hne : call₁.info.datasetFolder = call₂.info.datasetFolder →
      configure config call₁.cfg ≠ configure config call₂.cfg) {path : String}
    (hpath : path = tablePath printFloat printed config₁ call₁ ∨
      path = detailPath printFloat printed config₁ call₁) :
    path ≠ tablePath printFloat printed config₂ call₂ ∧
      path ≠ detailPath printFloat printed config₂ call₂ := by
  have hprint' : ∀ {cfg : List ℤ} {config' : Config F}, configure config cfg = .ok config' →
      '/' ∉ (printFloat (some config'.classifyParam.minOutperform)).toList := by
    intro cfg config' h
    rw [configure_eq_ok h]
    exact hprint
  have hending : ∀ ending₁ ending₂ : String, '/' ∉ ending₁.toList → '/' ∉ ending₂.toList →
      Score.getScoreOutpath printFloat printed config₁ call₁.info.datasetFolder ++ ending₁ ≠
        Score.getScoreOutpath printFloat printed config₂ call₂.info.datasetFolder ++ ending₂ := by
    intro ending₁ ending₂ hslash₁ hslash₂ heq
    obtain ⟨hfolder, hdiv, hpercent⟩ :=
      eq_of_outpath_eq (hprint' h₁) (hprint' h₂) hslash₁ hslash₂ heq
    refine hne hfolder ?_
    rw [h₁, h₂, configure_eq_ok h₁, configure_eq_ok h₂, hdiv, hpercent]
  have hcsv : '/' ∉ ".csv".toList := by decide
  have hdetail : '/' ∉ ".detail".toList := by decide
  obtain ⟨ending₁, hslash₁, rfl⟩ : ∃ ending₁ : String, '/' ∉ ending₁.toList ∧
      path = Score.getScoreOutpath printFloat printed config₁ call₁.info.datasetFolder ++
        ending₁ := by
    rcases hpath with rfl | rfl
    · exact call₁.opening.exists_path_eq _ _ hcsv
    · exact call₁.opening.exists_path_eq _ _ hdetail
  constructor
  · obtain ⟨ending₂, hslash₂, heq⟩ := call₂.opening.exists_path_eq call₂.opening.tableTime
      (Score.getScoreOutpath printFloat printed config₂ call₂.info.datasetFolder) hcsv
    rw [tablePath, heq]
    exact hending _ _ hslash₁ hslash₂
  · obtain ⟨ending₂, hslash₂, heq⟩ := call₂.opening.exists_path_eq call₂.opening.detailTime
      (Score.getScoreOutpath printFloat printed config₂ call₂.info.datasetFolder) hdetail
    rw [detailPath, heq]
    exact hending _ _ hslash₁ hslash₂

omit [Elementary F] in
theorem Holds.insert (h : Holds lib printFloat printed call p score files) {path text : String}
    (htable : tablePath printFloat printed p.config call ≠ path)
    (hdetail : detailPath printFloat printed p.config call ≠ path) :
    Holds lib printFloat printed call p score (AList.insert path text files) := by
  obtain ⟨details, m, hmake, hlookup⟩ := h.details
  refine ⟨?_, details, m, hmake, ?_⟩
  · rw [AList.lookup_insert_ne htable]
    exact h.table
  · rw [AList.lookup_insert_ne hdetail]
    exact hlookup

/-- **A result stays as long as no later call has its parameters and its folder.** -/
theorem holds_of_experimentsTo {s s' : Process F × Files} {before after : List ReportedExperiment}
    (hprint : '/' ∉ (printFloat (some s.1.config.classifyParam.minOutperform)).toList)
    (hrun : experimentsTo lib pcpp printFloat printed s (before ++ call :: after) = .ok s')
    (hlast : ∀ c ∈ after, call.info.datasetFolder = c.info.datasetFolder →
      configure s.1.config call.cfg ≠ configure s.1.config c.cfg) :
    ∃ s₁ s₂ score, experimentsTo lib pcpp printFloat printed s before = .ok s₁ ∧
      singleExperimentTo lib pcpp printFloat printed s₁ call = .ok (s₂, score) ∧
      Holds lib printFloat printed call s₂.1 score s'.2 := by
  rw [experimentsTo, List.foldlM_append] at hrun
  obtain ⟨s₁, hbefore, hrun⟩ := CheckedLoop.bind_eq_ok.mp hrun
  rw [List.foldlM_cons] at hrun
  obtain ⟨t, hcall, hafter⟩ := CheckedLoop.bind_eq_ok.mp hrun
  obtain ⟨score, hcall⟩ := exists_score hcall
  have hstart : ConfiguredFrom s.1.config s.1 := ⟨fun _ => rfl, rfl⟩
  have hfrom₁ : ConfiguredFrom s.1.config s₁.1 := by
    refine CheckedLoop.foldlM_inv (I := fun _ (s' : Process F × Files) =>
      ConfiguredFrom s.1.config s'.1) before [] (fun _ c u u' _ hu hstep => ?_) hstart hbefore
    obtain ⟨score', hstep⟩ := exists_score hstep
    exact hu.singleExperimentTo hstep
  obtain ⟨-, hconfig, details, m, hmake, hfiles⟩ := singleExperimentTo_eq_ok hcall
  rw [hfrom₁.configure] at hconfig
  have hholds : Holds lib printFloat printed call t.1 score t.2 := by
    refine ⟨?_, details, m, hmake, ?_⟩
    · rw [hfiles, AList.lookup_insert_ne (tablePath_ne_detailPath _ call), AList.lookup_insert]
    · rw [hfiles, AList.lookup_insert]
  refine ⟨s₁, t, score, hbefore, hcall, ?_⟩
  refine (CheckedLoop.foldlM_inv (I := fun _ (u : Process F × Files) =>
    ConfiguredFrom s.1.config u.1 ∧ Holds lib printFloat printed call t.1 score u.2) after []
    (fun _ c u u' hc hu hstep => ?_) ⟨hfrom₁.singleExperimentTo hcall, hholds⟩ hafter).2
  obtain ⟨score', hstep⟩ := exists_score hstep
  obtain ⟨-, hconfig', details', m', -, hfiles'⟩ := singleExperimentTo_eq_ok hstep
  rw [hu.1.configure] at hconfig'
  obtain ⟨htt, htd⟩ := paths_ne printed hconfig hconfig' hprint (hlast c hc)
    (Or.inl rfl)
  obtain ⟨hdt, hdd⟩ := paths_ne printed hconfig hconfig' hprint (hlast c hc)
    (Or.inr rfl)
  refine ⟨hu.1.singleExperimentTo hstep, ?_⟩
  rw [hfiles']
  exact (hu.2.insert htt hdt).insert htd hdd

/-! ## The results of a sweep -/

/-- The calls of a sweep: for each combination, one for each dataset. -/
def sweepCalls (files : List ℤ → String → ReportedExperiment) (argArrays : List (List ℤ))
    (datasetNames : List String) : List ReportedExperiment :=
  (Combiner.combinations argArrays).flatMap fun cfg =>
    datasetNames.map fun datasetName => { files cfg datasetName with cfg }

variable (lib pcpp printFloat printed) in
/-- **A sweep makes its calls in the order of the product**, and writes their results. -/
theorem sweepTo_eq {argArrays : List (List ℤ)} (hne : argArrays ≠ [])
    (harrays : ∀ array ∈ argArrays, array ≠ []) :
    (∀ cfg, cfg ∈ Combiner.combinations argArrays ↔ List.Forall₂ (· ∈ ·) cfg argArrays) ∧
      ∃ last : Combiner, ∀ (files : List ℤ → String → ReportedExperiment)
        (datasetNames : List String) (fuel : ℕ) (s : Process F × Files),
          (Combiner.lengths argArrays).prod < fuel →
            sweepTo lib pcpp printFloat printed files argArrays datasetNames fuel s =
              some ((experimentsTo lib pcpp printFloat printed s
                (sweepCalls files argArrays datasetNames)).map (last, ·)) := by
  obtain ⟨cfgs, last, hcfgs, hloop⟩ := Combiner.whileUnfinished_ofArrays hne harrays
  have hproduct := Combiner.mem_product hcfgs
  obtain rfl := Combiner.eq_combinations hcfgs
  refine ⟨hproduct, last, fun files datasetNames fuel s hfuel => ?_⟩
  rw [sweepTo, hloop _ fuel s hfuel, experimentsTo, sweepCalls, ← CheckedLoop.foldlM_flatMap]
  rfl

/-- The parameters that the fields of the configuration can hold. -/
def sizes : List ℤ := [256, 65536, 256, 256, 256]

/-- A combination fits when the arrays do. -/
theorem fits_of_mem {P : ℤ → ℤ → Prop} {cfg sizes : List ℤ} {arrays : List (List ℤ)}
    (h : List.Forall₂ (· ∈ ·) cfg arrays)
    (hfits : List.Forall₂ (fun array size => ∀ v ∈ array, P v size) arrays sizes) :
    List.Forall₂ P cfg sizes := by
  induction h generalizing sizes with
  | nil =>
    cases hfits
    exact .nil
  | cons hmem _ ih =>
    cases hfits with
    | cons harray hfits => exact .cons (harray _ hmem) (ih hfits)

theorem uint8_ofInt_injective {v w : ℤ} (hv : 0 ≤ v ∧ v < 256) (hw : 0 ≤ w ∧ w < 256)
    (h : UInt8.ofInt v = UInt8.ofInt w) : v = w := by
  have hnat := congrArg UInt8.toNat h
  simp [UInt8.ofInt] at hnat
  omega

theorem uint16_ofInt_injective {v w : ℤ} (hv : 0 ≤ v ∧ v < 65536) (hw : 0 ≤ w ∧ w < 65536)
    (h : UInt16.ofInt v = UInt16.ofInt w) : v = w := by
  have hnat := congrArg UInt16.toNat h
  simp [UInt16.ofInt] at hnat
  omega

omit [LinearOrder F] [Elementary F] in
/-- Parameters that fit are told apart by the configuration. -/
theorem configure_injective {config : Config F} {cfg cfg' : List ℤ}
    (hcfg : List.Forall₂ (fun v size => 0 ≤ v ∧ v < size) cfg sizes)
    (hcfg' : List.Forall₂ (fun v size => 0 ≤ v ∧ v < size) cfg' sizes)
    (h : configure config cfg = configure config cfg') : cfg = cfg' := by
  have hfive : ∀ {cfg : List ℤ}, List.Forall₂ (fun v size => 0 ≤ v ∧ v < size) cfg sizes →
      ∃ percent slot interval unisig duration, cfg = [percent, slot, interval, unisig, duration] ∧
        (0 ≤ percent ∧ percent < 256) ∧ (0 ≤ slot ∧ slot < 65536) ∧
        (0 ≤ interval ∧ interval < 256) ∧ (0 ≤ unisig ∧ unisig < 256) ∧
        (0 ≤ duration ∧ duration < 256) := by
    intro cfg hcfg
    match cfg, hcfg with
    | [_, _, _, _, _], .cons h₁ (.cons h₂ (.cons h₃ (.cons h₄ (.cons h₅ .nil)))) =>
      exact ⟨_, _, _, _, _, rfl, h₁, h₂, h₃, h₄, h₅⟩
  obtain ⟨percent, slot, interval, unisig, duration, rfl, h₁, h₂, h₃, h₄, h₅⟩ := hfive hcfg
  obtain ⟨percent', slot', interval', unisig', duration', rfl, h₁', h₂', h₃', h₄', h₅'⟩ :=
    hfive hcfg'
  have hconfig := Except.ok.inj h
  have htrain := congrArg Config.trainParam hconfig
  have hdiv := congrArg Config.divisionParam hconfig
  simp only [TrainParam.mk.injEq, DivisionParam.mk.injEq] at htrain hdiv
  obtain ⟨hinterval, hduration, hunisig, -, -, hslot⟩ := hdiv
  rw [uint8_ofInt_injective h₁ h₁' htrain.1, uint16_ofInt_injective h₂ h₂' hslot,
    uint8_ofInt_injective h₃ h₃' hinterval, uint8_ofInt_injective h₄ h₄' hunisig,
    uint8_ofInt_injective h₅ h₅' hduration]

/-- Parameters that do not fit can share a file: 276 percent are stored as 20. -/
example (config : Config ℚ) : configure config [276, 1800, 2, 50, 15] =
    configure config [20, 1800, 2, 50, 15] := rfl

/-- **A sweep keeps its results.**  Let every parameter fit into its field, and let the datasets
have folders of their own.  When a sweep has gone through, then for each combination of the
parameters and each dataset it has made a call, and whatever other names were given to files that
did not open, the table and the details that this call has made, after the calls before it, stand
where it has written them. -/
theorem sweep_keeps_results {report : List ℤ → String → ReportedExperiment}
    {argArrays : List (List ℤ)} (harrays : ∀ array ∈ argArrays, array ≠ [])
    (hfits : List.Forall₂ (fun array size => ∀ v ∈ array, 0 ≤ v ∧ v < size) argArrays sizes)
    {datasetNames : List String} (hinfo : ∀ cfg name, (report cfg name).info = datasetInfo name)
    (hfolders : ∀ name ∈ datasetNames, ∀ name' ∈ datasetNames,
      (datasetInfo name).datasetFolder = (datasetInfo name').datasetFolder → name = name')
    {s s' : Process F × Files}
    (hprint : '/' ∉ (printFloat (some s.1.config.classifyParam.minOutperform)).toList) {fuel : ℕ}
    (hfuel : (Combiner.lengths argArrays).prod < fuel) {last : Combiner}
    (hrun : sweepTo lib pcpp printFloat printed report argArrays datasetNames fuel s =
      some (.ok (last, s')))
    {cfg : List ℤ} (hcfg : List.Forall₂ (· ∈ ·) cfg argArrays) {name : String}
    (hname : name ∈ datasetNames) :
    ∃ before after s₁ s₂ score,
      sweepCalls report argArrays datasetNames =
        before ++ { report cfg name with cfg } :: after ∧
      experimentsTo lib pcpp printFloat printed s before = .ok s₁ ∧
      singleExperimentTo lib pcpp printFloat printed s₁ { report cfg name with cfg } =
        .ok (s₂, score) ∧
      Holds lib printFloat printed { report cfg name with cfg } s₂.1 score s'.2 := by
  have hne : argArrays ≠ [] := by
    rintro rfl
    cases hfits
  obtain ⟨hcfgs, last', hsweep⟩ := sweepTo_eq (F := F) lib pcpp printFloat printed hne harrays
  rw [hsweep report datasetNames fuel s hfuel] at hrun
  let calls := sweepCalls report argArrays datasetNames
  obtain ⟨t, hcalls, hlast⟩ : ∃ t, experimentsTo lib pcpp printFloat printed s calls = .ok t ∧
      (last', t) = (last, s') := by
    cases hcalls : experimentsTo lib pcpp printFloat printed s calls with
    | error fault =>
      rw [hcalls] at hrun
      cases hrun
    | ok t =>
      rw [hcalls] at hrun
      exact ⟨t, rfl, Except.ok.inj (Option.some.inj hrun)⟩
  obtain ⟨rfl, rfl⟩ := Prod.mk.inj hlast
  -- the last call with this combination and this dataset
  let call : ReportedExperiment := { report cfg name with cfg }
  have hmem : call ∈ calls.reverse := List.mem_reverse.mpr
    (List.mem_flatMap.mpr ⟨cfg, (hcfgs cfg).mpr hcfg, List.mem_map.mpr ⟨name, hname, rfl⟩⟩)
  obtain ⟨after, before, hsplit, hafter⟩ := List.eq_append_cons_of_mem hmem
  have hall : calls = before.reverse ++ call :: after.reverse := by
    rw [← List.reverse_reverse calls, hsplit]
    simp
  have hrange : ∀ {cfg : List ℤ}, cfg ∈ Combiner.combinations argArrays →
      List.Forall₂ (fun v size => 0 ≤ v ∧ v < size) cfg sizes := by
    intro cfg hmem
    exact fits_of_mem ((hcfgs cfg).mp hmem) hfits
  have hsplitted : experimentsTo lib pcpp printFloat printed s
      (before.reverse ++ call :: after.reverse) = .ok t := by
    rw [← hall]
    exact hcalls
  have hlater : ∀ c ∈ after.reverse, call.info.datasetFolder = c.info.datasetFolder →
      configure s.1.config call.cfg ≠ configure s.1.config c.cfg := by
    intro c hc hfolder hconfig
    have hcmem : c ∈ calls := by
      rw [hall]
      exact List.mem_append_right _ (List.mem_cons_of_mem _ hc)
    obtain ⟨cfg', hcfg', hcmem⟩ := List.mem_flatMap.mp hcmem
    obtain ⟨name', hname', rfl⟩ := List.mem_map.mp hcmem
    obtain rfl : cfg = cfg' := configure_injective (hrange ((hcfgs cfg).mpr hcfg)) (hrange hcfg')
      hconfig
    have hfolder' : (datasetInfo name).datasetFolder = (datasetInfo name').datasetFolder := by
      rw [← hinfo cfg name, ← hinfo cfg name']
      exact hfolder
    obtain rfl : name = name' := hfolders name hname name' hname' hfolder'
    exact hafter (List.mem_reverse.mp hc)
  obtain ⟨s₁, s₂, score, hresult⟩ := holds_of_experimentsTo hprint hsplitted hlater
  exact ⟨_, _, s₁, s₂, score, hall, hresult⟩

/-! ### A sweep over the home -/

open Separation TrainOrder Recall Prediction Classifier

/-- The lamp and the plug, met once more. -/
def lampLater : Burst :=
  { lampBurst with firstPacketStamp := ⟨70, 0⟩, lastPacketStamp := ⟨71, 0⟩ }

def plugLater : Burst :=
  { homePlug with firstPacketStamp := ⟨50, 0⟩, lastPacketStamp := ⟨52, 0⟩ }

/-- The bursts of the home: half of them are those that it is trained with. -/
def homeBursts : UnorderedMap UInt16 (List BurstBlock) :=
  AList.insert 0 [[lampBurst], [lampAgain], [lampLater]]
    (AList.insert 1 [[homePlug], [plugLater]] ∅)

def laterSet : UnorderedMap UInt16 (List BurstBlock) :=
  AList.insert 1 [[plugLater]] (AList.insert 0 [[lampLater]] ∅)

theorem testHalf_later {schedule : List ℕ} {log : List TrainAction} {s : TrainState}
    (hlog : Interleaving.interleave (homeTasks.map (TrainTask.actions .insertion)) schedule =
      some log)
    (hrun : log.foldlM (perform {}) (TrainState.init ({} : Config ℝ) {} homeSet) = .ok s) :
    TestHalf (homeEnv s) homeType laterSet := by
  have hlamp : Distinctive (homeEnv s) "lamp" [lampLater] := distinctive_home hlog hrun (by decide)
    ⟨by decide, by decide, by decide, by decide⟩ (by decide) (by decide) kept_homeLamp
    storable_lampBurst (by decide) (by decide) scans_lampBurst (by decide)
  have hplug : Distinctive (homeEnv s) "plug" [plugLater] := distinctive_home hlog hrun (by decide)
    ⟨by decide, by decide, by decide, by decide⟩ (by decide) (by decide) kept_homePlug
    storable_homePlug (by decide) (by decide) scans_homePlug (by decide)
  have hdevices : ∀ d ∈ laterSet.keys, d.toNat < 2 :=
    List.forall_mem_cons.mpr ⟨by decide, List.forall_mem_singleton.mpr (by decide)⟩
  have hlength : ∀ e ∈ laterSet.entries, e.2.length < 2 ^ 31 :=
    List.forall_mem_cons.mpr ⟨by decide, List.forall_mem_singleton.mpr (by decide)⟩
  refine testHalf_of_distinctive hdevices
    (fun d blocks h => hlength ⟨d, blocks⟩ (AList.mem_lookup_iff.mp h))
    fun d blocks h block hblock => ?_
  have hmem := AList.mem_lookup_iff.mp h
  rcases List.mem_cons.mp hmem with heq | hmem
  · cases heq
    exact ⟨plugLater, List.mem_singleton.mp hblock, by decide, hplug⟩
  · cases List.mem_singleton.mp hmem
    exact ⟨lampLater, List.mem_singleton.mp hblock, by decide, hlamp⟩

theorem ofRawMap_home : ∃ rawMap, BurstDataset.ofRawMap .insertion 50 homeBursts =
    .ok ⟨rawMap, homeSet, laterSet⟩ := ⟨_, rfl⟩

/-- A dataset without devices. -/
def emptyReport (name : String) : ReportedExperiment where
  cfg := []
  info := datasetInfo name
  deviceMappings := some ["name,address"]
  burstDataset := some ∅
  opening := ⟨fun _ => true, ⟨124, 0, 1, 0, 0, 0⟩, ⟨124, 0, 1, 0, 0, 0⟩⟩

/-- The dataset of the home. -/
def homeReport : ReportedExperiment :=
  { emptyReport "UNSW2016" with
    deviceMappings := homeMapping.deviceMappings, burstDataset := some homeBursts }

/-- The first call finds the home, and the others find no devices. -/
def sweepReport (cfg : List ℤ) (name : String) : ReportedExperiment :=
  if cfg.head? = some 50 ∧ name = "UNSW2016" then homeReport else emptyReport name

theorem sweepCalls_home : sweepCalls sweepReport [[50, 20], [1800], [2], [50], [15]]
    ["UNSW2016", "UNSW2018"] =
      [{ homeReport with cfg := [50, 1800, 2, 50, 15] },
        { emptyReport "UNSW2018" with cfg := [50, 1800, 2, 50, 15] },
        { emptyReport "UNSW2016" with cfg := [20, 1800, 2, 50, 15] },
        { emptyReport "UNSW2018" with cfg := [20, 1800, 2, 50, 15] }] := rfl

theorem addDevices_home : Context.addDevices canonicalPcapPlusPlus (datasetInfo "UNSW2016")
    homeMapping.deviceMappings {} = .ok homeRegistry := by
  have hinfo : (datasetInfo "UNSW2016").mappingIP = homeMapping.info.mappingIP := by
    decide +kernel
  have hsame : Context.addDevice canonicalPcapPlusPlus (datasetInfo "UNSW2016") =
      Context.addDevice canonicalPcapPlusPlus homeMapping.info := by
    funext context line
    rw [Context.addDevice, Context.addDevice, hinfo]
  have hregister := register_home
  rw [Context.register, List.foldlM_cons] at hregister
  obtain ⟨context, hcontext, hregister⟩ := CheckedLoop.bind_eq_ok.mp hregister
  cases hregister
  rw [Context.addDevices, hsame]
  exact hcontext

/-- The home is trained with the first half of its bursts, and the other half is predicted. -/
theorem singleExperimentTo_home : ∃ r, singleExperimentTo .insertion canonicalPcapPlusPlus
    (fun _ => "1.01") {} ((fresh : Process ℝ), ∅)
      { homeReport with cfg := [50, 1800, 2, 50, 15] } = .ok r := by
  obtain ⟨rawMap, hds⟩ := ofRawMap_home
  obtain ⟨trained, htrain⟩ := train_home
  obtain ⟨tasks, schedule, log, s, htasks, hlog, hrun, rfl⟩ := train_interleaved htrain
  obtain rfl := Except.ok.inj (htasks.symm.trans trainTasks_home)
  obtain ⟨predicted, hpredict, hflawless⟩ := predict_sound (prepared_home hlog hrun)
    (testHalf_later hlog hrun) (rightCache_nil _) (by decide) (by decide)
  have hwrite : ∃ r, predicted.1.writeToFile .insertion (fun _ => "1.01") homeReport.opening
      (Score.getScoreOutpath (fun _ => "1.01") {} ({} : Config ℝ) homeReport.info.datasetFolder)
      homeRegistry predicted.2.1.addrAvgPktMap ∅ = .ok r := by
    rw [Score.writeToFile, Score.wrongBurstGroupDetails, hflawless.errBurstGroups]
    exact ⟨_, rfl⟩
  obtain ⟨written, hwrite⟩ := hwrite
  exact ⟨_, CheckedLoop.bind_eq_ok.mpr ⟨_, addDevices_home, CheckedLoop.bind_eq_ok.mpr ⟨{}, rfl,
    CheckedLoop.bind_eq_ok.mpr ⟨_, hds, CheckedLoop.bind_eq_ok.mpr ⟨_, htrain,
      CheckedLoop.bind_eq_ok.mpr ⟨_, hpredict, CheckedLoop.bind_eq_ok.mpr ⟨_, hwrite, rfl⟩⟩⟩⟩⟩⟩⟩

/-- The configuration of a call for a dataset without devices. -/
noncomputable def emptyConfig (config : Config ℝ) (percent : ℤ) : Config ℝ :=
  { config with
    trainParam := { config.trainParam with trainPercent := .ofInt percent }
    divisionParam := { config.divisionParam with
      timeslot := 1800, burstMaxInterval := 2, burstMaxUnisig := 50, burstMaxDuration := 15 } }

theorem singleExperimentTo_empty (s : Process ℝ × Files) (percent : ℤ) (name : String) :
    ∃ r, singleExperimentTo .insertion canonicalPcapPlusPlus (fun _ => "1.01") {} s
      { emptyReport name with cfg := [percent, 1800, 2, 50, 15] } = .ok r := by
  have hcontext : Context.addDevices canonicalPcapPlusPlus (datasetInfo name)
      (some ["name,address"]) s.1.context = .ok s.1.context :=
    Context.addDevices_cons (by decide) [] s.1.context
  have hconfig : configure s.1.config [percent, 1800, 2, 50, 15] =
    .ok (emptyConfig s.1.config percent) := rfl
  have hds : getBurstDataset .insertion (emptyConfig s.1.config percent) s.1.context
    { emptyReport name with cfg := [percent, 1800, 2, 50, 15] }.toExperiment =
      .ok ⟨∅, ∅, ∅⟩ := rfl
  have htrain : ∃ classifier, Classifier.train .insertion (emptyConfig s.1.config percent)
    s.1.statics ∅ = .ok (classifier, s.1.statics) := ⟨_, rfl⟩
  obtain ⟨classifier, htrain⟩ := htrain
  have hpredict : Classifier.predict .insertion (emptyConfig s.1.config percent) s.1.context
      classifier s.1.statics s.1.cache ∅ = .ok ({}, s.1.statics, s.1.cache) := by
    have hslot : ¬((emptyConfig s.1.config percent).divisionParam.timeslot = 0 ∨
        (Classifier.epochSlotNum (emptyConfig s.1.config percent).divisionParam = 0 ∧
          (∅ : UnorderedMap UInt16 (List BurstBlock)).keys ≠ [])) := by
      rintro (hzero | ⟨-, hkeys⟩)
      · exact absurd hzero (show ¬(1800 : UInt16) = 0 by decide)
      · exact hkeys rfl
    exact if_neg hslot
  have hwrite : ∃ r, Score.writeToFile .insertion (fun _ => "1.01") (emptyReport name).opening
      (Score.getScoreOutpath (fun _ => "1.01") {} (emptyConfig s.1.config percent)
        (datasetInfo name).datasetFolder) s.1.context ({} : Score ℝ) s.1.statics.addrAvgPktMap
        s.2 = .ok r := ⟨_, rfl⟩
  obtain ⟨written, hwrite⟩ := hwrite
  exact ⟨_, CheckedLoop.bind_eq_ok.mpr ⟨_, hcontext, CheckedLoop.bind_eq_ok.mpr ⟨_, hconfig,
    CheckedLoop.bind_eq_ok.mpr ⟨_, hds, CheckedLoop.bind_eq_ok.mpr ⟨_, htrain,
      CheckedLoop.bind_eq_ok.mpr ⟨_, hpredict, CheckedLoop.bind_eq_ok.mpr ⟨_, hwrite, rfl⟩⟩⟩⟩⟩⟩⟩

/-- A sweep over two shares of the training half and two datasets goes through. -/
theorem sweepTo_home : ∃ last s', sweepTo .insertion canonicalPcapPlusPlus (fun _ => "1.01") {}
    sweepReport [[50, 20], [1800], [2], [50], [15]] ["UNSW2016", "UNSW2018"] 3
      ((fresh : Process ℝ), ∅) = some (.ok (last, s')) := by
  obtain ⟨-, last, hsweep⟩ := sweepTo_eq (F := ℝ) .insertion canonicalPcapPlusPlus
    (fun _ => "1.01") {} (show [[50, 20], [1800], [2], [50], [15]] ≠ [] by decide) (by decide)
  obtain ⟨⟨s₁, score⟩, hfirst⟩ := singleExperimentTo_home
  have hothers : ∃ s', experimentsTo .insertion canonicalPcapPlusPlus (fun _ => "1.01") {} s₁
      [{ emptyReport "UNSW2018" with cfg := [50, 1800, 2, 50, 15] },
        { emptyReport "UNSW2016" with cfg := [20, 1800, 2, 50, 15] },
        { emptyReport "UNSW2018" with cfg := [20, 1800, 2, 50, 15] }] = .ok s' := by
    refine experimentsTo_ok (fun call hcall s => ?_) s₁
    simp only [List.mem_cons, List.not_mem_nil, or_false] at hcall
    rcases hcall with rfl | rfl | rfl
    all_goals exact singleExperimentTo_empty s _ _
  obtain ⟨s', hrest⟩ := hothers
  refine ⟨last, s', ?_⟩
  rw [hsweep _ _ 3 _ (by decide), sweepCalls_home, experimentsTo, List.foldlM_cons, hfirst]
  exact congrArg (fun r => some (Except.map (last, ·) r)) hrest

/-- Of the four results, none is lost: the one of the home stands where the first call has written
it. -/
theorem sweep_keeps_results_home : ∃ last s',
    sweepTo .insertion canonicalPcapPlusPlus (fun _ => "1.01") {} sweepReport
        [[50, 20], [1800], [2], [50], [15]] ["UNSW2016", "UNSW2018"] 3 ((fresh : Process ℝ), ∅) =
      some (.ok (last, s')) ∧
    ∃ (before after : List ReportedExperiment) (s₁ s₂ : Process ℝ × Files) (score : Score ℝ),
      sweepCalls sweepReport [[50, 20], [1800], [2], [50], [15]] ["UNSW2016", "UNSW2018"] =
        before ++ { homeReport with cfg := [50, 1800, 2, 50, 15] } :: after ∧
      experimentsTo .insertion canonicalPcapPlusPlus (fun _ => "1.01") {} (fresh, ∅) before =
        .ok s₁ ∧
      singleExperimentTo .insertion canonicalPcapPlusPlus (fun _ => "1.01") {} s₁
        { homeReport with cfg := [50, 1800, 2, 50, 15] } = .ok (s₂, score) ∧
      Holds .insertion (fun _ => "1.01") {} { homeReport with cfg := [50, 1800, 2, 50, 15] }
        s₂.1 score s'.2 := by
  obtain ⟨last, s', hrun⟩ := sweepTo_home
  have hfits : List.Forall₂ (fun array size => ∀ v ∈ array, 0 ≤ v ∧ v < size)
      ([[50, 20], [1800], [2], [50], [15]] : List (List ℤ)) sizes :=
    .cons (by decide) (.cons (by decide) (.cons (by decide) (.cons (by decide)
      (.cons (by decide) .nil))))
  have hcfg : List.Forall₂ (· ∈ ·) [50, 1800, 2, 50, 15]
      ([[50, 20], [1800], [2], [50], [15]] : List (List ℤ)) :=
    .cons (by decide) (.cons (by decide) (.cons (by decide) (.cons (by decide)
      (.cons (by decide) .nil))))
  have hinfo : ∀ cfg name, (sweepReport cfg name).info = datasetInfo name := by
    intro cfg name
    rw [sweepReport]
    split_ifs with hhome
    · rw [hhome.2]
      rfl
    · rfl
  exact ⟨last, s', hrun, sweep_keeps_results (by decide) hfits hinfo (by decide) (by decide)
    (by decide) hrun hcfg List.mem_cons_self⟩

end Process
end BurstIoT
