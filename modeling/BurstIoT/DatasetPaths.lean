import BurstIoT.Classifier
import BurstIoT.Library.Spelling

/-!
# Where the files of a dataset are

The path functions of `Context`.  The folder of a dataset is looked up in `datasetInfoMaps` by its
name; the name of a file of bursts is made of the division parameters, as `DivisionParam::ToString`
prints them.

What is printed of the parameters determines them (`DivisionParam.toString_injective`): each value
is a decimal number, and no piece of the text around them begins with a digit or a sign.  So a file
of bursts is found only under the parameters it was made with (`conversion_eq_of_path_eq`).
-/

namespace BurstIoT

/-! ## The datasets -/

/-- `datasetInfoMaps`. -/
def datasetInfoMaps : UnorderedMap String DatasetInfo :=
  [("UNSW2016", ⟨false, true, "F:/UNSW2016"⟩), ("UNSW2018", ⟨true, false, "F:/UNSW2018"⟩),
    ("NCSU2020", ⟨false, true, "F:/NCSU2020"⟩), ("NCSU2021", ⟨false, true, "F:/NCSU2021"⟩),
    ("NEUKI2019", ⟨true, false, "F:/NEUKI2019"⟩), ("YT201804", ⟨false, true, "F:/YT201804"⟩),
    ("NEUSI2019", ⟨true, false, "F:/NEUSI2019"⟩),
    ("IOTBEHAV2021", ⟨true, false, "F:/IOTBEHAV2021"⟩),
    ("UNSW201620", ⟨false, true, "F:/UNSW201620"⟩)].foldl (fun m e => m.emplace e.1 e.2) ∅

/-- `datasetInfoMaps[datasetName]`.  A name that is not in the map is given a default entry. -/
def datasetInfo (datasetName : String) : DatasetInfo :=
  (datasetInfoMaps.lookup datasetName).getD {}

/-! ## The paths -/

/-- `DivisionParam::ToString`. -/
def DivisionParam.toString (div : DivisionParam) : String :=
  "Div" ++
    "(Slot=" ++ div.timeslot.toNat.repr ++ "s)" ++
    "(Intv=" ++ div.burstMaxInterval.toNat.repr ++ "s)" ++
    "(Unq=" ++ div.burstMaxUnisig.toNat.repr ++ ")" ++
    "(Dur=" ++ div.burstMaxDuration.toNat.repr ++ "s)" ++
    "(PktIndex=" ++ Int.repr div.burstMaxPacketIndex ++ ")" ++
    "(dvidshort=" ++ div.divideSmallBurstInFlow.toNat.repr ++ ")"

namespace Context

/-- `GetPacketDatasetPath`. -/
def getPacketDatasetPath (datasetName : String) : String :=
  (datasetInfo datasetName).datasetFolder ++ "/" ++ datasetName ++ ".pktDataset"

/-- `GetPktDatasetStatPath`. -/
def getPktDatasetStatPath (datasetName : String) : String :=
  (datasetInfo datasetName).datasetFolder ++ "/PktStat.csv"

/-- `GetTimerPath`. -/
def getTimerPath (name datasetName : String) : String :=
  (datasetInfo datasetName).datasetFolder ++ "/" ++ name

/-- `GetBurstDatasetPath`. -/
def getBurstDatasetPath (div : DivisionParam) (datasetName : String) : String :=
  (datasetInfo datasetName).datasetFolder ++ "/SlottedBurstDataset/" ++
    "【TIME_INTERVAL=" ++ div.timeslot.toNat.repr ++ "s】/" ++
    div.toString ++ ".burstDataset"

end Context

/-! ## The division parameters in a path -/

open Spelling

namespace DivisionParam

variable (div : DivisionParam)

/-- The numbers that `ToString` prints, each with the text that follows it. -/
def fields : List (List Char × List Char) :=
  [(div.timeslot.toNat.repr.toList, "s)".toList ++ "(Intv=".toList),
    (div.burstMaxInterval.toNat.repr.toList, "s)".toList ++ "(Unq=".toList),
    (div.burstMaxUnisig.toNat.repr.toList, ")".toList ++ "(Dur=".toList),
    (div.burstMaxDuration.toNat.repr.toList, "s)".toList ++ "(PktIndex=".toList),
    ((Int.repr div.burstMaxPacketIndex).toList, ")".toList ++ "(dvidshort=".toList),
    (div.divideSmallBurstInFlow.toNat.repr.toList, ")".toList)]

theorem toList_toString : div.toString.toList =
    "Div".toList ++ "(Slot=".toList ++ spell div.fields := by
  unfold DivisionParam.toString fields
  simp only [String.toList_append, -String.reduceAppend, -String.reduceToList]
  simp only [spell, List.append_assoc, List.append_nil, -String.reduceToList]

theorem delimits_fields : ∀ e ∈ div.fields, Delimits InNumeral e.2 := by
  have hs : Delimits InNumeral "s)".toList := ⟨'s', by decide +kernel, by decide⟩
  have hparen : Delimits InNumeral ")".toList := ⟨')', by decide +kernel, by decide⟩
  simp only [fields, List.forall_mem_cons]
  exact ⟨hs.append _, hs.append _, hparen.append _, hs.append _, hparen.append _, hparen,
    fun _ he => absurd he List.not_mem_nil⟩

theorem inNumeral_fields : ∀ e ∈ div.fields, ∀ c ∈ e.1, InNumeral c := by
  simp only [fields, List.forall_mem_cons]
  exact ⟨fun _ => inNumeral_of_mem_repr, fun _ => inNumeral_of_mem_repr,
    fun _ => inNumeral_of_mem_repr, fun _ => inNumeral_of_mem_repr,
    fun _ => inNumeral_of_mem_intRepr, fun _ => inNumeral_of_mem_repr,
    fun _ he => absurd he List.not_mem_nil⟩

/-- **The printed parameters determine them.** -/
theorem toString_injective {div div' : DivisionParam} (h : div.toString = div'.toString) :
    div = div' := by
  have hlist := congrArg String.toList h
  rw [toList_toString, toList_toString] at hlist
  have htexts : div.fields.map Prod.snd = div'.fields.map Prod.snd := by
    simp only [fields, List.map_cons, List.map_nil]
  have hfields : div.fields = div'.fields := spell_injective htexts div.delimits_fields
    div.inNumeral_fields div'.inNumeral_fields (List.append_cancel_left hlist)
  simp only [fields, List.cons.injEq, Prod.mk.injEq, and_true, String.toList_inj] at hfields
  obtain ⟨hslot, hinterval, hunisig, hduration, hindex, hdivide⟩ := hfields
  have hdivide : div.divideSmallBurstInFlow = div'.divideSmallBurstInFlow := by
    have hnat := repr_injective hdivide
    revert hnat
    cases div.divideSmallBurstInFlow <;> cases div'.divideSmallBurstInFlow <;> decide
  cases div
  cases div'
  simp only [DivisionParam.mk.injEq]
  exact ⟨UInt8.toNat_inj.mp (repr_injective hinterval),
    UInt8.toNat_inj.mp (repr_injective hduration), UInt8.toNat_inj.mp (repr_injective hunisig),
    hdivide, intRepr_injective hindex, UInt16.toNat_inj.mp (repr_injective hslot)⟩

end DivisionParam

/-- The path of a file of bursts: the folder, the length of the slots, and the parameters. -/
theorem getBurstDatasetPath_eq (div : DivisionParam) (datasetName : String) :
    (Context.getBurstDatasetPath div datasetName).toList =
      ((datasetInfo datasetName).datasetFolder ++ "/SlottedBurstDataset/" ++
        "【TIME_INTERVAL=").toList ++
      (div.timeslot.toNat.repr.toList ++ ("s】/".toList ++
        (div.toString.toList ++ ".burstDataset".toList))) := by
  unfold Context.getBurstDatasetPath
  simp only [String.toList_append, List.append_assoc, -String.reduceAppend, -String.reduceToList]

/-- **A path determines the parameters.** -/
theorem div_eq_of_path_eq {div div' : DivisionParam} {datasetName : String}
    (h : Context.getBurstDatasetPath div datasetName =
      Context.getBurstDatasetPath div' datasetName) : div = div' := by
  have hlist := congrArg String.toList h
  rw [getBurstDatasetPath_eq, getBurstDatasetPath_eq] at hlist
  have hs : ∀ rest, Delimits InNumeral ("s】/".toList ++ rest) :=
    Delimits.append ⟨'s', by decide +kernel, by decide⟩
  obtain ⟨-, htail⟩ := append_inj_of_delimits (fun _ => inNumeral_of_mem_repr)
    (fun _ => inNumeral_of_mem_repr) (hs _) (hs _) (List.append_cancel_left hlist)
  have htext := List.append_cancel_right (List.append_cancel_left htail)
  exact DivisionParam.toString_injective (String.toList_inj.mp htext)

/-- What a configuration makes of the packets of a dataset: the blocks of each device. -/
def burstDatasetContent {F : Type} [Field F] (lib : StdLib) (config : Config F)
    (deviceVec : List KDevice) (packetDataset : List KPacket) :
    Except Fault (UnorderedMap UInt16 (List BurstBlock)) :=
  (Converter.pktDatasetCvtoBursts lib config.divisionParam deviceVec packetDataset).map
    Converter.burstDatasetContent

/-- **A file of bursts is never taken for one of another division.**  Two configurations under which
the bursts of a dataset are kept in one file make the same bursts of the same packets. -/
theorem conversion_eq_of_path_eq {F : Type} [Field F] (lib : StdLib) (config config' : Config F)
    (datasetName : String)
    (h : Context.getBurstDatasetPath config.divisionParam datasetName =
      Context.getBurstDatasetPath config'.divisionParam datasetName)
    (deviceVec : List KDevice) (packetDataset : List KPacket) :
    burstDatasetContent lib config deviceVec packetDataset =
      burstDatasetContent lib config' deviceVec packetDataset := by
  rw [burstDatasetContent, burstDatasetContent, div_eq_of_path_eq h]

/-- The registry of a camera and a plug. -/
def cameraAndPlug : List KDevice :=
  [⟨true, 0, "camera", "camera", "", "10.0.0.1"⟩, ⟨true, 1, "plug", "plug", "", "10.0.0.2"⟩]

/-- Packets of both in two slots. -/
def cameraAndPlugPackets : List KPacket :=
  [⟨0, 60, 7, ⟨10, 0⟩⟩, ⟨1, 100, 3, ⟨11, 0⟩⟩, ⟨0, -80, 7, ⟨12, 0⟩⟩, ⟨0, 60, 8, ⟨1900, 0⟩⟩,
    ⟨1, 100, 3, ⟨1901, 0⟩⟩]

/-- Two configurations that differ in the training half only. -/
theorem conversion_eq_of_path_eq_percent :
    burstDatasetContent .insertion ({} : Config ℚ) cameraAndPlug cameraAndPlugPackets =
      burstDatasetContent .insertion ({ trainParam := { trainPercent := 80 } } : Config ℚ)
        cameraAndPlug cameraAndPlugPackets :=
  conversion_eq_of_path_eq .insertion _ _ "UNSW2016" rfl _ _

end BurstIoT
