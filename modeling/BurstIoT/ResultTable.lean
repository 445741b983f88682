import BurstIoT.DeviceIds
import BurstIoT.Library.Separated
import BurstIoT.Library.Spelling
import BurstIoT.NameFlow
import BurstIoT.Tokens

/-!
# The table of results

`IndexTable` writes what a score has counted: a header, a row for each type that has a sheet, in the
order of the hash table, and two rows of totals.  It quotes nothing.  Still the table can be read
back (`readTable_of_runs`): a type is a piece of a name of a mapping file, `SplitPairStrByComma` has
cut the names at the commas, and they are read line by line, so no cell has a comma or a new line.

The rows determine the counts (`sameCounts_of_tableRows`).  They come in another order when the
tasks of the prediction do, since a hash table remembers the order of insertion; the totals of the
counts are the same (`Score.SheetsAlike.sameTotals`), while the averages are sums of `float`s in
that order, and may differ in their last digits.
-/

namespace BurstIoT

variable {F : Type} [Field F] [LinearOrder F]

/-- How a stream prints an `int` that counts. -/
def printCount (n : ℕ) : String :=
  Int.repr (toInt n)

theorem printCount_injective {m n : ℕ} (h : printCount m = printCount n) : toInt m = toInt n := by
  rw [printCount, printCount] at h
  exact Spelling.intRepr_injective h

/-- `ToCsvString`.  `printFloat` is how a stream prints a `float`. -/
def ScoreSheet.toCsvString (printFloat : Option F → String) (sheet : ScoreSheet) : String :=
  sheet.TP.repr ++ "," ++ sheet.FN.repr ++ "," ++ sheet.FP.repr ++ "," ++
    printFloat sheet.recallRate ++ "," ++ printFloat sheet.precision ++ "," ++
    printFloat sheet.f1 ++ "," ++ printCount sheet.missNum ++ "," ++
    printFloat (some (sheet.pktAvgNum : F))

namespace Score

/-- `GetSummaryIndex`: its text. -/
def summaryText (lib : StdLib) (printFloat : Option F → String) (score : Score F) : String :=
  let total := score.getSummaryIndex lib
  "Total," ++ printCount total.TP ++ "," ++ printCount total.FN ++ "," ++ printCount total.FP ++
    "," ++ printFloat total.recallRate ++ "," ++ printFloat total.precision ++ "," ++
    printFloat total.f1 ++ "," ++ printCount total.missNum ++ "\n" ++
    "Total Accuracy," ++ printFloat total.totalAccuracy

/-- `IndexTable`. -/
def indexTable (lib : StdLib) (printFloat : Option F → String) (score : Score F) : String :=
  "device,TP,FN,FP,recall,precision,f1,miss,avgPktNum" ++ "\n" ++
    String.join ((lib.iterate score.sheet).map fun e =>
      e.1 ++ "," ++ e.2.toCsvString printFloat ++ "\n") ++
    score.summaryText lib printFloat

/-! ## The cells -/

/-- The first row. -/
def headerRow : List String :=
  ["device", "TP", "FN", "FP", "recall", "precision", "f1", "miss", "avgPktNum"]

/-- The row of a type. -/
def sheetRow (printFloat : Option F → String) (e : String × ScoreSheet) : List String :=
  [e.1, e.2.TP.repr, e.2.FN.repr, e.2.FP.repr, printFloat e.2.recallRate,
    printFloat e.2.precision, printFloat e.2.f1, printCount e.2.missNum,
    printFloat (some (e.2.pktAvgNum : F))]

/-- The row of the totals. -/
def totalRow (printFloat : Option F → String) (total : SummaryIndex F) : List String :=
  ["Total", printCount total.TP, printCount total.FN, printCount total.FP,
    printFloat total.recallRate, printFloat total.precision, printFloat total.f1,
    printCount total.missNum]

/-- The last row. -/
def accuracyRow (printFloat : Option F → String) (total : SummaryIndex F) : List String :=
  ["Total Accuracy", printFloat total.totalAccuracy]

/-- The rows of the types. -/
def typeRows (lib : StdLib) (printFloat : Option F → String) (score : Score F) :
    List (List String) :=
  (lib.iterate score.sheet).map (sheetRow printFloat)

/-- All rows. -/
def tableRows (lib : StdLib) (printFloat : Option F → String) (score : Score F) :
    List (List String) :=
  let total := score.getSummaryIndex lib
  (headerRow :: score.typeRows lib printFloat) ++ [totalRow printFloat total] ++
    [accuracyRow printFloat total]

/-- The text of a row. -/
def rowText (row : List String) : List Char :=
  [','].intercalate (row.map String.toList)

/-! ### The texts of the rows -/

theorem toList_headerRow :
    "device,TP,FN,FP,recall,precision,f1,miss,avgPktNum".toList = rowText headerRow := by
  simp [rowText, headerRow]

theorem toList_sheetRow (printFloat : Option F → String) (e : String × ScoreSheet) :
    (e.1 ++ "," ++ e.2.toCsvString printFloat).toList = rowText (sheetRow printFloat e) := by
  simp [rowText, sheetRow, ScoreSheet.toCsvString, String.toList_append]

omit [LinearOrder F] in
theorem toList_totalRow (printFloat : Option F → String) (total : SummaryIndex F) :
    ("Total," ++ printCount total.TP ++ "," ++ printCount total.FN ++ "," ++
      printCount total.FP ++ "," ++ printFloat total.recallRate ++ "," ++
      printFloat total.precision ++ "," ++ printFloat total.f1 ++ "," ++
      printCount total.missNum).toList =
        rowText (totalRow printFloat total) := by
  simp [rowText, totalRow, String.toList_append]

omit [LinearOrder F] in
theorem toList_accuracyRow (printFloat : Option F → String) (total : SummaryIndex F) :
    ("Total Accuracy," ++ printFloat total.totalAccuracy).toList =
      rowText (accuracyRow printFloat total) := by
  simp [rowText, accuracyRow, String.toList_append]

theorem toList_summaryText (lib : StdLib) (printFloat : Option F → String) (score : Score F) :
    (score.summaryText lib printFloat).toList =
      rowText (totalRow printFloat (score.getSummaryIndex lib)) ++ ['\n'] ++
        rowText (accuracyRow printFloat (score.getSummaryIndex lib)) := by
  have htotal := toList_totalRow printFloat (score.getSummaryIndex lib)
  have haccuracy := toList_accuracyRow printFloat (score.getSummaryIndex lib)
  rw [← htotal, ← haccuracy, ← String.toList_singleton, ← String.toList_append,
    ← String.toList_append, ← String.append_assoc]
  rfl

/-- A table is written row by row, and the last row does not end. -/
theorem table_concat (rows : List (List String)) (last : List String) :
    Separated.table ',' '\n' ((rows ++ [last]).map (List.map String.toList)) =
      (rows.flatMap fun row => rowText row ++ ['\n']) ++ rowText last := by
  rw [Separated.table, List.map_map, List.map_append, List.map_singleton,
    Separated.intercalate_concat, List.flatMap_map]
  rfl

/-- **`IndexTable` writes a table.** -/
theorem toList_indexTable (lib : StdLib) (printFloat : Option F → String) (score : Score F) :
    (score.indexTable lib printFloat).toList =
      Separated.table ',' '\n' ((score.tableRows lib printFloat).map (List.map String.toList)) := by
  let total := score.getSummaryIndex lib
  have hlines : (String.join ((lib.iterate score.sheet).map fun e =>
      e.1 ++ "," ++ e.2.toCsvString printFloat ++ "\n")).toList =
        ((lib.iterate score.sheet).map (sheetRow printFloat)).flatMap fun row =>
          rowText row ++ ['\n'] := by
    rw [String.toList_join, List.flatMap_map, List.flatMap_map]
    congr 1
    funext e
    rw [String.toList_append, toList_sheetRow]
    rfl
  have htable : Separated.table ',' '\n'
      ((score.tableRows lib printFloat).map (List.map String.toList)) =
        rowText headerRow ++ ['\n'] ++
          (((lib.iterate score.sheet).map (sheetRow printFloat)).flatMap fun row =>
            rowText row ++ ['\n']) ++
          (rowText (totalRow printFloat total) ++ ['\n'] ++
            rowText (accuracyRow printFloat total)) := by
    rw [tableRows, typeRows, table_concat, List.flatMap_append, List.flatMap_cons,
      List.flatMap_singleton, List.append_assoc, List.append_assoc]
  rw [htable, ← hlines, ← toList_summaryText, ← toList_headerRow, ← String.toList_singleton,
    ← String.toList_append, ← String.toList_append, ← String.toList_append]
  rfl

end Score

/-! ## Reading it back -/

/-- The cells of the rows of a text. -/
def readTable (text : String) : List (List String) :=
  (Separated.read ',' '\n' text.toList).map (List.map String.ofList)

/-- A text without the separators of a table. -/
def Plain (text : String) : Prop :=
  ',' ∉ text.toList ∧ '\n' ∉ text.toList

instance (text : String) : Decidable (Plain text) :=
  inferInstanceAs (Decidable (_ ∧ _))

theorem plain_repr (n : ℕ) : Plain n.repr := by
  constructor
  · exact fun h => absurd (Spelling.isDigit_of_mem_repr h) (by decide)
  · exact fun h => absurd (Spelling.isDigit_of_mem_repr h) (by decide)

theorem plain_printCount (n : ℕ) : Plain (printCount n) := by
  constructor
  · exact fun h => absurd (Spelling.inNumeral_of_mem_intRepr h) (by decide)
  · exact fun h => absurd (Spelling.inNumeral_of_mem_intRepr h) (by decide)

/-- What a text without separators is made of has none. -/
theorem Plain.of_subset {text text' : String} (h : Plain text)
    (hsub : ∀ c ∈ text'.toList, c ∈ text.toList) : Plain text' :=
  ⟨fun hmem => h.1 (hsub _ hmem), fun hmem => h.2 (hsub _ hmem)⟩

theorem Plain.removeSuffix {name : String} (h : Plain name) : Plain (removeSuffix name) := by
  refine h.of_subset fun c hc => ?_
  rw [BurstIoT.removeSuffix] at hc
  split at hc
  · exact hc
  · dsimp only at hc
    split_ifs at hc
    · rw [String.toList_ofList] at hc
      exact List.mem_of_mem_take hc
    · exact hc

namespace Score

/-- **A table without separators in its cells is read back.** -/
theorem readTable_indexTable {printFloat : Option F → String} (hprint : ∀ x, Plain (printFloat x))
    (lib : StdLib) {score : Score F} (hnames : ∀ type ∈ score.sheet, Plain type) :
    readTable (score.indexTable lib printFloat) = score.tableRows lib printFloat := by
  have hcells : ∀ row ∈ score.tableRows lib printFloat, row ≠ [] ∧ ∀ cell ∈ row, Plain cell := by
    intro row hrow
    rw [tableRows, List.mem_append, List.mem_append, List.mem_cons, List.mem_singleton,
      List.mem_singleton] at hrow
    rcases hrow with ((rfl | hrow) | rfl) | rfl
    · decide
    · obtain ⟨e, he, rfl⟩ := List.mem_map.mp hrow
      have hname := hnames e.1 (lib.mem_of_mem_iterate he)
      simp [sheetRow, hname, plain_repr, plain_printCount, hprint]
    · have htotal : Plain "Total" := by decide
      simp [totalRow, htotal, plain_printCount, hprint]
    · have haccuracy : Plain "Total Accuracy" := by decide
      simp [accuracyRow, haccuracy, hprint]
  have hrows : (score.tableRows lib printFloat).map (List.map String.toList) ≠ [] := by
    rw [tableRows]
    simp
  have hread := Separated.read_table (show (',' : Char) ≠ '\n' by decide) hrows
    fun row hrow => by
      obtain ⟨cells, hmem, rfl⟩ := List.mem_map.mp hrow
      refine ⟨by simpa using (hcells cells hmem).1, fun text htext => ?_⟩
      obtain ⟨cell, hcell, rfl⟩ := List.mem_map.mp htext
      exact (hcells cells hmem).2 cell hcell
  rw [readTable, toList_indexTable, hread, List.map_map]
  refine (List.map_congr_left fun row _ => ?_).trans (List.map_id _)
  rw [Function.comp_apply, List.map_map]
  exact (List.map_congr_left fun cell _ => String.ofList_toList).trans (List.map_id _)

/-- Two scores that have sheets for the same types, and the same counts in them, as they are
printed.
-/
def SameCounts (score score' : Score F) : Prop :=
  ∀ type, (type ∈ score.sheet ↔ type ∈ score'.sheet) ∧
    (score.sheetOf type).TP = (score'.sheetOf type).TP ∧
    (score.sheetOf type).FN = (score'.sheetOf type).FN ∧
    (score.sheetOf type).FP = (score'.sheetOf type).FP ∧
    toInt (score.sheetOf type).missNum = toInt (score'.sheetOf type).missNum

/-- **The rows determine the counts**, in whatever order a library goes through the sheets. -/
theorem sameCounts_of_tableRows {printFloat : Option F → String} {lib lib' : StdLib}
    {score score' : Score F}
    (h : score.tableRows lib printFloat = score'.tableRows lib' printFloat) :
    SameCounts score score' := by
  have hsheets : (lib.iterate score.sheet).map (sheetRow printFloat) =
      (lib'.iterate score'.sheet).map (sheetRow printFloat) := by
    rw [tableRows, tableRows, typeRows, typeRows] at h
    have hlen : ∀ row row' : List String, [row].length = [row'].length := fun _ _ => rfl
    have hfront := (List.append_inj' h (hlen _ _)).1
    exact (List.cons.inj (List.append_inj' hfront (hlen _ _)).1).2
  have hsheet : ∀ {lib lib' : StdLib} {score score' : Score F},
      (lib.iterate score.sheet).map (sheetRow printFloat) =
        (lib'.iterate score'.sheet).map (sheetRow printFloat) →
      ∀ type sheet, score.sheet.lookup type = some sheet →
        ∃ sheet', score'.sheet.lookup type = some sheet' ∧ sheet.TP = sheet'.TP ∧
          sheet.FN = sheet'.FN ∧ sheet.FP = sheet'.FP ∧
            toInt sheet.missNum = toInt sheet'.missNum := by
    intro lib lib' score score' hrows type sheet hlookup
    have hmem : sheetRow printFloat (type, sheet) ∈
        (lib'.iterate score'.sheet).map (sheetRow printFloat) := by
      rw [← hrows]
      exact List.mem_map_of_mem (lib.mem_iterate.mpr hlookup)
    obtain ⟨⟨type', sheet'⟩, he, hrow⟩ := List.mem_map.mp hmem
    simp only [sheetRow, List.cons.injEq] at hrow
    obtain ⟨rfl, hTP, hFN, hFP, -, -, -, hmiss, -⟩ := hrow
    exact ⟨sheet', lib'.mem_iterate.mp he, (Spelling.repr_injective hTP).symm,
      (Spelling.repr_injective hFN).symm, (Spelling.repr_injective hFP).symm,
      (printCount_injective hmiss).symm⟩
  intro type
  by_cases htype : type ∈ score.sheet
  · obtain ⟨sheet, hlookup⟩ := UnorderedMap.exists_lookup htype
    obtain ⟨sheet', hlookup', hTP, hFN, hFP, hmiss⟩ := hsheet hsheets type sheet hlookup
    rw [sheetOf, sheetOf, hlookup, hlookup']
    exact ⟨iff_of_true htype (UnorderedMap.mem_of_lookup hlookup'), hTP, hFN, hFP, hmiss⟩
  · have htype' : type ∉ score'.sheet := by
      intro hmem
      obtain ⟨sheet', hlookup'⟩ := UnorderedMap.exists_lookup hmem
      obtain ⟨sheet, hlookup, -⟩ := hsheet hsheets.symm type sheet' hlookup'
      exact htype (UnorderedMap.mem_of_lookup hlookup)
    have hnone : score.sheet.lookup type = none := AList.lookup_eq_none.mpr htype
    have hnone' : score'.sheet.lookup type = none := AList.lookup_eq_none.mpr htype'
    rw [sheetOf, sheetOf, hnone, hnone']
    exact ⟨iff_of_false htype htype', rfl, rfl, rfl, rfl⟩

end Score

/-! ## The order of the sheets -/

section Order

variable {sheet sheet' : ScoreSheet} {score score' : Score F}

theorem ScoreSheet.Alike.sheetRow (h : sheet.Alike sheet') (printFloat : Option F → String)
    (type : String) : Score.sheetRow printFloat (type, sheet) =
      Score.sheetRow printFloat (type, sheet') := by
  simp only [Score.sheetRow, ScoreSheet.f1, ScoreSheet.recallRate, ScoreSheet.precision, h.TP, h.FN,
    h.FP, h.missNum, h.pktAvgNum]

omit [Field F] [LinearOrder F] in
theorem Score.map_iterate {α : Type} (lib : StdLib) (score : Score F)
    (f : String × ScoreSheet → α) : (lib.iterate score.sheet).map f =
      ((lib.iterate score.sheet).map Prod.fst).map fun type => f (type, score.sheetOf type) := by
  rw [List.map_map]
  refine List.map_congr_left fun e he => ?_
  rw [Function.comp_apply, Score.sheetOf, lib.mem_iterate.mp he]
  rfl

omit [Field F] [LinearOrder F] in
/-- Two scores that are alike have their sheets in some order. -/
theorem Score.SheetsAlike.types_perm (h : score.SheetsAlike score') (lib : StdLib) :
    ((lib.iterate score.sheet).map Prod.fst).Perm ((lib.iterate score'.sheet).map Prod.fst) := by
  have hmem : ∀ {score : Score F} {type : String},
      type ∈ (lib.iterate score.sheet).map Prod.fst ↔ type ∈ score.sheet := by
    intro score type
    constructor
    · intro htype
      obtain ⟨e, he, rfl⟩ := List.mem_map.mp htype
      exact lib.mem_of_mem_iterate he
    · intro htype
      obtain ⟨sheet, he⟩ := lib.exists_mem_iterate htype
      exact List.mem_map.mpr ⟨(type, sheet), he, rfl⟩
  refine (List.perm_ext_iff_of_nodup (lib.nodup_iterate_keys _)
    (lib.nodup_iterate_keys _)).mpr fun type => ?_
  rw [hmem, hmem, h.mem]

/-- Two summaries that differ at most in their averages. -/
structure SummaryIndex.SameTotals (total total' : SummaryIndex F) : Prop where
  TP : total.TP = total'.TP
  FN : total.FN = total'.FN
  FP : total.FP = total'.FP
  missNum : total.missNum = total'.missNum
  totalAccuracy : total.totalAccuracy = total'.totalAccuracy

/-- **The totals of the counts do not depend on the order of the sheets.** -/
theorem Score.SheetsAlike.sameTotals (h : score.SheetsAlike score') (lib : StdLib) :
    (score.getSummaryIndex lib).SameTotals (score'.getSummaryIndex lib) := by
  have hsum : ∀ f : ScoreSheet → ℕ, (∀ type, f (score.sheetOf type) = f (score'.sheetOf type)) →
      ((lib.iterate score.sheet).map fun e => f e.2).sum =
        ((lib.iterate score'.sheet).map fun e => f e.2).sum := by
    intro f hf
    rw [score.map_iterate lib fun e => f e.2, score'.map_iterate lib fun e => f e.2]
    simp only [hf]
    exact ((h.types_perm lib).map _).sum_eq
  obtain ⟨hTP, hFN, hFP, hmiss⟩ :=
    foldl_add_counts (lib.iterate score.sheet) ({} : SummaryIndex F)
  obtain ⟨hTP', hFN', hFP', hmiss'⟩ :=
    foldl_add_counts (lib.iterate score'.sheet) ({} : SummaryIndex F)
  rw [hsum ScoreSheet.TP fun type => (h.sheetOf type).TP, ← hTP'] at hTP
  rw [hsum ScoreSheet.FN fun type => (h.sheetOf type).FN, ← hFN'] at hFN
  rw [hsum ScoreSheet.FP fun type => (h.sheetOf type).FP, ← hFP'] at hFP
  rw [hsum ScoreSheet.missNum fun type => (h.sheetOf type).missNum, ← hmiss'] at hmiss
  refine ⟨hTP, hFN, hFP, hmiss, ?_⟩
  rw [Score.getSummaryIndex, Score.getSummaryIndex]
  dsimp only
  rw [hTP, hFP]

/-- **Scores that are alike have the same rows**, up to their order. -/
theorem Score.SheetsAlike.typeRows_perm (h : score.SheetsAlike score') (lib : StdLib)
    (printFloat : Option F → String) :
    (score.typeRows lib printFloat).Perm (score'.typeRows lib printFloat) := by
  rw [Score.typeRows, Score.typeRows, score.map_iterate, score'.map_iterate]
  simp only [(h.sheetOf _).sheetRow]
  exact (h.types_perm lib).map _

end Order

/-! ## The names of a mapping file -/

/-- A token has no comma, and nothing that the line does not have. -/
theorem plain_splitPairStrByComma {line : String} (hline : '\n' ∉ line.toList) :
    Plain (splitPairStrByComma line).1 := by
  have htokens : ∀ token ∈ splitString line.toList [','],
      ∀ c ∈ token, c ∈ line.toList ∧ c ≠ ',' := by
    obtain ⟨all, hall, -⟩ := splitStringInto_spec line.toList [] [',']
    rw [splitString_eq hall]
    intro token htoken c hc
    obtain ⟨segment, hsegment, rfl⟩ := List.mem_map.mp htoken
    obtain ⟨hmem, hout⟩ := ((hall.mem_iff segment).mp hsegment).of_mem_items hc
    exact ⟨hmem, by simpa [inToken] using hout⟩
  rw [splitPairStrByComma]
  split
  · rename_i first second rest hsplit
    have hfirst := htokens first (by rw [hsplit]; exact List.mem_cons_self)
    constructor
    · rw [String.toList_ofList]
      exact fun hmem => (hfirst _ hmem).2 rfl
    · rw [String.toList_ofList]
      exact fun hmem => hline (hfirst _ hmem).1
  · decide

/-- `MakeFormattedName` adds no separator. -/
theorem Plain.makeFormattedName {name : String} (h : Plain name) :
    Plain (makeFormattedName name) := by
  have hout : ∀ d : Char, d ≠ '_' → d ∉ name.toList →
      d ∉ (BurstIoT.makeFormattedName name).toList := by
    intro d hd hout hmem
    rw [BurstIoT.makeFormattedName, String.toList_ofList] at hmem
    obtain ⟨c, hc, heq⟩ := List.mem_map.mp hmem
    split_ifs at heq
    · exact hd heq.symm
    · exact hout (heq ▸ hc)
  exact ⟨hout ',' (by decide) h.1, hout '\n' (by decide) h.2⟩

namespace Context

/-- **The devices of mapping files have plain names.** -/
theorem plain_register {pcpp : PcapPlusPlus} {calls : List Registration} {context : Context}
    (hlines : ∀ call ∈ calls, ∀ line ∈ call.deviceLines, '\n' ∉ line.toList)
    (hok : register pcpp {} calls = .ok context) :
    ∀ device ∈ context.deviceVec, Plain device.instanceName := by
  have hfold : ∀ (info : DatasetInfo) (lines : List String) (context : Context),
      (∀ line ∈ lines, '\n' ∉ line.toList) →
      (∀ device ∈ context.deviceVec, Plain device.instanceName) →
      ∀ device ∈ (lines.foldl (addDevice pcpp info) context).deviceVec,
        Plain device.instanceName := by
    intro info lines
    induction lines with
    | nil => exact fun _ _ hcontext => hcontext
    | cons line lines ih =>
      intro context hlines hcontext
      obtain ⟨hline, hlines⟩ := List.forall_mem_cons.mp hlines
      refine ih _ hlines fun device hdevice => ?_
      rw [deviceVec_addDevice, List.mem_append, List.mem_singleton] at hdevice
      rcases hdevice with hdevice | rfl
      · exact hcontext device hdevice
      · exact (plain_splitPairStrByComma hline).makeFormattedName
  refine CheckedLoop.foldlM_inv (I := fun _ (context : Context) =>
    ∀ device ∈ context.deviceVec, Plain device.instanceName) calls [] ?_
    (fun device hdevice => absurd hdevice List.not_mem_nil) hok
  rintro done call context context' hcall hcontext hadd
  obtain ⟨lines, hmappings, rfl⟩ := addDevices_eq_ok hadd
  refine hfold call.info lines.tail context (fun line hline => ?_) hcontext
  refine hlines call hcall line ?_
  rw [Registration.deviceLines, hmappings]
  exact hline

end Context

namespace Classifier

variable [Elementary F]

open TrainOrder Interleaving ParallelPrediction StepSystem in
/-- **A result can be read back.**  Let devices be registered from any mapping files, let the bursts
of both halves be labelled with their names, and let any interleaving of the training tasks have
gone through.  If numbers print without commas and new lines, then the table that `IndexTable`
writes for a prediction has, cell by cell, its header, a row for each type that has a sheet and the
two rows of the totals.  Whatever the tasks of the prediction do in between, if they stay apart,
this can be read from the table that is written in the end; the rows of the types are the same up to
their order, and so are the totals, but for the averages. -/
theorem readTable_of_runs {pcpp : PcapPlusPlus} {calls : List Context.Registration}
    {context : Context} (hlines : ∀ call ∈ calls, ∀ line ∈ call.deviceLines, '\n' ∉ line.toList)
    (hregister : Context.register pcpp {} calls = .ok context) {printFloat : Option F → String}
    (hprint : ∀ x, Plain (printFloat x)) {lib : StdLib} {cfg : Config F} {statics : PolicyStatics}
    {trainset testset : UnorderedMap UInt16 (List BurstBlock)} (htrain : Labels context trainset)
    (htest : Labels context testset) {tasks : List TrainTask}
    (htasks : trainTasks lib cfg trainset = .ok tasks) {schedule : List ℕ} {log : List TrainAction}
    (hlog : interleave (tasks.map (TrainTask.actions lib)) schedule = some log) {s : TrainState}
    (hrun : log.foldlM (perform cfg.divisionParam) (TrainState.init cfg statics trainset) = .ok s)
    (hslot : 1 ≤ cfg.divisionParam.timeslot.toNat)
    (hmax : cfg.divisionParam.timeslot.toNat ≤ epochTimeslot * 3600)
    (hlen : ∀ d burstGroups, testset.lookup d = some burstGroups → burstGroups.length < 2 ^ 31)
    (htotal : totalTasks cfg.divisionParam testset < 2 ^ 31) {cache : PredictionCache F}
    (hcache : (PredictEnv.ofCall lib cfg context s.classifier s.statics).RightCache cache)
    {alone : Score F × PolicyStatics × PredictionCache F}
    (h : predict lib cfg context s.classifier s.statics cache testset = .ok alone) :
    readTable (alone.1.indexTable lib printFloat) = alone.1.tableRows lib printFloat ∧ ∃ actions,
      mainActions lib cfg.divisionParam s.statics.addrAvgPktMap testset = .ok actions ∧
      (Calm (PredictEnv.ofCall lib cfg context s.classifier s.statics) actions.flatten →
        ∀ state, Reachable (step (PredictEnv.ofCall lib cfg context s.classifier s.statics))
            (start (Classifier.taskNum lib cfg.divisionParam testset) cache actions.flatten)
            state →
          ¬ Racing (PredictEnv.ofCall lib cfg context s.classifier s.statics) state ∧
          (state.main = .returned →
            readTable (state.shared.score.indexTable lib printFloat) =
                state.shared.score.tableRows lib printFloat ∧
              (state.shared.score.typeRows lib printFloat).Perm
                (alone.1.typeRows lib printFloat) ∧
              (state.shared.score.getSummaryIndex lib).SameTotals
                (alone.1.getSummaryIndex lib))) := by
  obtain ⟨-, htrained, -⟩ := trained_of_run htasks hlog hrun
  have hdevices := Context.plain_register hlines hregister
  have hlabels : ∀ {half : UnorderedMap UInt16 (List BurstBlock)}, Labels context half →
      HalfNamed Plain half := by
    intro half hhalf d blocks hd block hblock b hb
    obtain ⟨device, hdevice, heq⟩ := hhalf d blocks hd block hblock b hb
    rw [heq]
    exact hdevices device hdevice
  have henv : EnvNamed Plain (PredictEnv.ofCall lib cfg context s.classifier s.statics) :=
    { closed :=
        { empty := by decide
          unreliable := by decide
          types := fun device hdevice => (hdevices device hdevice).removeSuffix }
      table := tableNamed_of_trained htasks htrained (hlabels htrain)
      devices := hdevices }
  have hread : ∀ {score : Score F}, (∀ type ∈ score.sheet, TypeNamed Plain type) →
      readTable (score.indexTable lib printFloat) = score.tableRows lib printFloat := by
    intro score htypes
    refine Score.readTable_indexTable hprint lib fun type htype => ?_
    obtain ⟨name, hname, rfl⟩ := htypes type htype
    exact hname.removeSuffix
  obtain ⟨hnamed, -⟩ := scoreNamed_of_reachable henv (hlabels htest) hslot hmax hlen htotal hcache h
  obtain ⟨actions, hactions, hruns⟩ := alike_of_calm hslot hmax hlen htotal hcache h
  refine ⟨hread hnamed.types, actions, hactions, fun hcalm state hstate => ?_⟩
  obtain ⟨hfree, hscore⟩ := hruns hcalm state hstate
  refine ⟨hfree, fun hreturned => ?_⟩
  obtain ⟨halike, -⟩ := hscore hreturned
  exact ⟨hread fun type htype => hnamed.types type ((halike.mem type).mp htype),
    halike.typeRows_perm lib printFloat, halike.sameTotals lib⟩

/-! ## The home -/

/-- The mapping file of the home. -/
def homeMapping : Context.Registration where
  info := {}
  deviceMappings := some ["name,address", "lamp,10.0.0.2", "plug,10.0.0.3"]

open Separation in
theorem register_home :
    Context.register canonicalPcapPlusPlus {} [homeMapping] = .ok homeRegistry := by
  have hlamp : KDevice.ofLine canonicalPcapPlusPlus "lamp,10.0.0.2" true 0 = homeLampDevice := by
    decide +kernel
  have hplug : KDevice.ofLine canonicalPcapPlusPlus "plug,10.0.0.3" true 1 = homePlugDevice := by
    decide +kernel
  have hdevices : Context.addDevice canonicalPcapPlusPlus {}
      (Context.addDevice canonicalPcapPlusPlus {} {} "lamp,10.0.0.2") "plug,10.0.0.3" =
        homeRegistry := by
    rw [Context.addDevice, Context.addDevice, hlamp]
    show Context.updateDeviceMap _ (KDevice.ofLine canonicalPcapPlusPlus "plug,10.0.0.3" true 1) = _
    rw [hplug]
    rfl
  rw [Context.register_cons homeMapping [] {} (by decide) rfl]
  exact congrArg Except.ok hdevices

open Separation TrainOrder ParallelPrediction StepSystem in
/-- The table of the lamp and the plug is read back, whatever its numbers print as. -/
theorem readTable_of_runs_home : ∃ s alone actions,
    homeLog.foldlM (perform {}) (TrainState.init ({} : Config ℝ) {} homeSet) = .ok s ∧
      predict .insertion ({} : Config ℝ) homeRegistry s.classifier s.statics [] homeSet =
        .ok alone ∧
      readTable (alone.1.indexTable .insertion fun _ => "0.5") =
        (alone.1.tableRows .insertion fun _ => "0.5") ∧
      mainActions .insertion {} s.statics.addrAvgPktMap homeSet = .ok actions ∧
      ∀ state, Reachable (step (homeEnv s))
          (start (Classifier.taskNum .insertion {} homeSet) [] actions.flatten) state →
        state.main = .returned →
          (state.shared.score.typeRows .insertion fun _ => "0.5").Perm
            (alone.1.typeRows .insertion fun _ => "0.5") := by
  obtain ⟨s, hrun⟩ := run_home
  obtain ⟨alone, halone⟩ := predict_home interleave_home hrun
  have hlines : ∀ call ∈ [homeMapping], ∀ line ∈ call.deviceLines, '\n' ∉ line.toList := by
    decide
  have hprint : Plain "0.5" := by decide
  obtain ⟨hread, actions, hactions, hall⟩ := readTable_of_runs hlines register_home
    (fun _ => hprint) labels_home labels_home trainTasks_home interleave_home hrun (by decide)
    (by decide) length_lt_home (by rw [totalTasks_home]; decide) (rightCache_nil (homeEnv s)) halone
  refine ⟨s, alone, actions, hrun, halone, hread, hactions, fun state hstate hreturned => ?_⟩
  exact ((hall (calm_home interleave_home hrun hactions) state hstate).2 hreturned).2.1

end Classifier
end BurstIoT
