import BurstIoT.Policy

/-!
# The score of a prediction

`Score` keeps a sheet for each type of device and the policies of the blocks whose prediction was
missed or wrong.  A type is a name without its number (`removeSuffix`).

The three ratios of a sheet are computed when it is printed, from its counts; `GetSummaryIndex` is
here with its numbers, and without its text.  Of the other printing only the look-ups remain:
`ToString` of a wrong block looks up the device that was predicted, and exits if there is none.

**Numbers.**  `missNum` and the totals of `GetSummaryIndex` are `int`s; they are counted here, and
what is printed of a count `n` is `toInt n`, which is `n` for fewer than `2 ^ 31` predictions.  The
running sums of the ratios are `float`s, whose rounding depends on the order of the sheets; here
they are exact, so nothing is said of the averages in two orders.
-/

namespace BurstIoT

/-- `ScoreSheet`.  The average number of packets is a `float` that is only ever set from an `int`.
-/
structure ScoreSheet where
  missNum : ℕ := 0
  TP : ℕ := 0
  FN : ℕ := 0
  FP : ℕ := 0
  pktAvgNum : ℕ := 0
  missIndexVector : List ℕ := []
  correctVector : List ℕ := []
  wrongVector : List ℕ := []
  deriving DecidableEq, Repr

section Ratios

variable {F : Type} [Field F] [LinearOrder F]

/-- A quotient of two `float`s.  Wherever this divides by zero it divides zero, and the result is
not a number. -/
def quotient (x y : F) : Option F :=
  if y = 0 then none else some (x / y)

namespace ScoreSheet

/-- `Precision`. -/
def precision (sheet : ScoreSheet) : Option F :=
  quotient (sheet.TP : F) ((sheet.TP + sheet.FP : ℕ) : F)

/-- `Recall`. -/
def recallRate (sheet : ScoreSheet) : Option F :=
  quotient (sheet.TP : F) ((sheet.TP + sheet.FN : ℕ) : F)

/-- `F1`. -/
def f1 (sheet : ScoreSheet) : Option F := do
  let precision ← sheet.precision
  let recallRate ← sheet.recallRate
  quotient (2 * precision * recallRate) (precision + recallRate)

end ScoreSheet

/-- The numbers that `GetSummaryIndex` prints. -/
structure SummaryIndex (F : Type) [Field F] where
  TP : ℕ := 0
  FN : ℕ := 0
  FP : ℕ := 0
  missNum : ℕ := 0
  recallRate : Option F := some 0
  precision : Option F := some 0
  f1 : Option F := some 0
  totalAccuracy : Option F := none

/-- One iteration of `GetSummaryIndex`. -/
def SummaryIndex.add (total : SummaryIndex F) (scoresheet : ScoreSheet) : SummaryIndex F :=
  { total with
    TP := total.TP + scoresheet.TP
    FN := total.FN + scoresheet.FN
    FP := total.FP + scoresheet.FP
    missNum := total.missNum + scoresheet.missNum
    precision := do return (← total.precision) + (← scoresheet.precision)
    recallRate := do return (← total.recallRate) + (← scoresheet.recallRate)
    f1 := do return (← total.f1) + (← scoresheet.f1) }

end Ratios

/-- `Score`. -/
structure Score (F : Type) where
  sheet : UnorderedMap String ScoreSheet := ∅
  errBurstGroups : List (BurstGroupPolicy F) := []

namespace Score

variable {F : Type}

/-- `f(sheet[type])`. -/
def updateSheet (score : Score F) (type : String) (f : ScoreSheet → ScoreSheet) : Score F :=
  { score with sheet := score.sheet.update type {} f }

/-- `m_ErrBurstGroups.push_back`. -/
def pushErr (score : Score F) (predict : BurstGroupPolicy F) : Score F :=
  { score with errBurstGroups := score.errBurstGroups ++ [predict] }

/-- `AddMiss`. -/
def addMiss (score : Score F) (trueLabel : String) (missIndex : ℕ) : Score F :=
  score.updateSheet (removeSuffix trueLabel) fun sheet =>
    { sheet with
      missNum := sheet.missNum + 1
      missIndexVector := sheet.missIndexVector ++ [missIndex] }

/-- `AddPktAvgNum`. -/
def addPktAvgNum (context : Context) (score : Score F) (deviceId : UInt16) (num : ℕ) :
    Except Fault (Score F) := do
  let device ← context.getDeviceById deviceId
  return score.updateSheet (removeSuffix device.instanceName) fun sheet =>
    { sheet with pktAvgNum := num }

/-- `AddPrediction`, once `GenPrediction` has made the prediction. -/
def addPredicted (score : Score F) (trueLabel : String) (predict : BurstGroupPolicy F)
    (index : ℕ) : Score F :=
  let trueType := removeSuffix trueLabel
  let predictType := removeSuffix predict.prediction
  if predictType = "unreliable" then (score.addMiss trueLabel index).pushErr predict
  else if predictType = trueType then
    score.updateSheet trueType fun sheet =>
      { sheet with TP := sheet.TP + 1, correctVector := sheet.correctVector ++ [index] }
  else
    let score := score.updateSheet trueType fun sheet => { sheet with FN := sheet.FN + 1 }
    let score := score.updateSheet predictType fun sheet => { sheet with FP := sheet.FP + 1 }
    let score := score.updateSheet trueType fun sheet =>
      { sheet with wrongVector := sheet.wrongVector ++ [index] }
    score.pushErr predict

/-- `AddPrediction`. -/
def addPrediction [Field F] [LinearOrder F] [Elementary F] (lib : StdLib) (cfg : TestParam F)
    (context : Context) (blockLevelDistribution : UnorderedMap UInt16 (List Burst))
    (score : Score F) (trueLabel : String) (predict : BurstGroupPolicy F) (index : ℕ) :
    Except Fault (Score F) := do
  let predict ← predict.genPrediction lib cfg context blockLevelDistribution
  return score.addPredicted trueLabel predict index

/-- `OutputToFile`: what `ToString` of the wrong blocks leaves in `addrAvgPktMap`. -/
def outputToFile (context : Context) (score : Score F) (addrAvgPktMap : UnorderedMap UInt16 ℕ) :
    Except Fault (UnorderedMap UInt16 ℕ) :=
  score.errBurstGroups.foldlM
    (fun addrAvgPktMap debug =>
      if debug.prediction = "unreliable" then .ok addrAvgPktMap
      else do
        let device ← context.getDevice debug.prediction
        return addrAvgPktMap.update device.devId 0 id)
    addrAvgPktMap

/-- `GetSummaryIndex`. -/
def getSummaryIndex [Field F] [LinearOrder F] (lib : StdLib) (score : Score F) : SummaryIndex F :=
  let total : SummaryIndex F :=
    (lib.iterate score.sheet).foldl (fun total e => total.add e.2) {}
  let sheetSize : F := score.sheet.keys.length
  { total with
    recallRate := do quotient (← total.recallRate) sheetSize
    precision := do quotient (← total.precision) sheetSize
    f1 := do quotient (← total.f1) sheetSize
    totalAccuracy := quotient (total.TP : F) ((total.TP + total.FP : ℕ) : F) }

end Score
end BurstIoT
