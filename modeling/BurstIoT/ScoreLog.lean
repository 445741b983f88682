import BurstIoT.ScoreBookkeeping

/-!
# The log of a score

What the calls of `AddPrediction` and `AddPktAvgNum` do to a score, as a log: an `Outcome` for the
sheets, and the policy of a block whose prediction was missed or wrong for `m_ErrBurstGroups`.  For
a missed block these are two events, as `AddMiss` has released the lock when the policy is pushed;
for a wrong one they are one.

A log fixes the score that it leads to (`Logged`).  Of the order of the events only that of the
averages counts: logs with the same events and the same averages in the same order lead to scores
that differ in the order of their vectors at most (`Logged.sheetsAlike`).
-/

namespace BurstIoT

open Classifier (PredictEnv)

/-! ## The sheet of a type -/

namespace Outcome

/-- The index that goes to `missIndexVector` of a type. -/
def missIndex (type : String) : Outcome → Option ℕ
  | missed trueType index => if type = trueType then some index else none
  | _ => none

/-- The index that goes to `correctVector` of a type. -/
def correctIndex (type : String) : Outcome → Option ℕ
  | right trueType index => if type = trueType then some index else none
  | _ => none

/-- The index that goes to `wrongVector` of a type. -/
def wrongIndex (type : String) : Outcome → Option ℕ
  | wrong trueType _ index => if type = trueType then some index else none
  | _ => none

/-- A new average, with its type. -/
def average : Outcome → Option (String × ℕ)
  | averaged type num => some (type, num)
  | _ => none

/-- The last average of a type. -/
def lastAverage (type : String) (averages : List (String × ℕ)) : ℕ :=
  averages.foldl (fun num e => if type = e.1 then e.2 else num) 0

/-- The sheet of a type after some outcomes. -/
def sheetAfter (type : String) (done : List Outcome) : ScoreSheet where
  missNum := (done.filterMap missType).count type
  TP := (done.filterMap truePositive).count type
  FN := (done.filterMap falseNegative).count type
  FP := (done.filterMap falsePositive).count type
  pktAvgNum := lastAverage type (done.filterMap average)
  missIndexVector := done.filterMap (missIndex type)
  correctVector := done.filterMap (correctIndex type)
  wrongVector := done.filterMap (wrongIndex type)

variable (o : Outcome) (type : String) (sheet : ScoreSheet)

theorem missIndexVector_effect : (o.effect type sheet).missIndexVector =
    sheet.missIndexVector ++ (o.missIndex type).toList := by
  cases o <;> simp only [effect, missIndex] <;> split_ifs <;> simp

theorem correctVector_effect : (o.effect type sheet).correctVector =
    sheet.correctVector ++ (o.correctIndex type).toList := by
  cases o <;> simp only [effect, correctIndex] <;> split_ifs <;> simp

theorem wrongVector_effect : (o.effect type sheet).wrongVector =
    sheet.wrongVector ++ (o.wrongIndex type).toList := by
  cases o <;> simp only [effect, wrongIndex] <;> split_ifs <;> simp

theorem pktAvgNum_effect : (o.effect type sheet).pktAvgNum =
    o.average.toList.foldl (fun num e => if type = e.1 then e.2 else num) sheet.pktAvgNum := by
  cases o <;> simp only [effect, average] <;> split_ifs <;> simp [*]

attribute [ext] ScoreSheet

/-- **One more outcome** has its effect. -/
theorem sheetAfter_concat (done : List Outcome) :
    sheetAfter type (done ++ [o]) = o.effect type (sheetAfter type done) := by
  have hsplit : ∀ {β : Type} (f : Outcome → Option β),
      (done ++ [o]).filterMap f = done.filterMap f ++ (f o).toList := by
    intro β f
    rw [List.filterMap_append]
    cases h : f o <;> simp [h]
  ext1
  · rw [missNum_effect]
    exact count_filterMap_append _ _ _ _
  · rw [TP_effect]
    exact count_filterMap_append _ _ _ _
  · rw [FN_effect]
    exact count_filterMap_append _ _ _ _
  · rw [FP_effect]
    exact count_filterMap_append _ _ _ _
  · rw [pktAvgNum_effect]
    show lastAverage type ((done ++ [o]).filterMap average) = _
    rw [hsplit, lastAverage, List.foldl_append]
    rfl
  · rw [missIndexVector_effect]
    exact hsplit _
  · rw [correctVector_effect]
    exact hsplit _
  · rw [wrongVector_effect]
    exact hsplit _

end Outcome

/-! ## Events -/

/-- What happens to a score at once. -/
inductive ScoreEvent (F : Type) where
  | outcome (o : Outcome)
  | err (predict : BurstGroupPolicy F)

namespace ScoreEvent

variable {F : Type}

def outcome? : ScoreEvent F → Option Outcome
  | outcome o => some o
  | err _ => none

def err? : ScoreEvent F → Option (BurstGroupPolicy F)
  | outcome _ => none
  | err predict => some predict

/-- The outcomes of a log. -/
def outcomes (log : List (ScoreEvent F)) : List Outcome :=
  log.filterMap outcome?

/-- The averages of a log, which only main sets. -/
def averages (log : List (ScoreEvent F)) : List (String × ℕ) :=
  (outcomes log).filterMap Outcome.average

/-- The events of a prediction that has been made. -/
def ofPrediction (trueLabel : String) (predict : BurstGroupPolicy F) (index : ℕ) :
    List (ScoreEvent F) :=
  let o := Outcome.ofPrediction trueLabel predict.prediction index
  outcome o :: if o.truePositive.isSome then [] else [err predict]

theorem outcomes_append (log log' : List (ScoreEvent F)) :
    outcomes (log ++ log') = outcomes log ++ outcomes log' :=
  List.filterMap_append

theorem averages_append (log log' : List (ScoreEvent F)) :
    averages (log ++ log') = averages log ++ averages log' := by
  rw [averages, outcomes_append, List.filterMap_append]
  rfl

theorem outcomes_ofPrediction (trueLabel : String) (predict : BurstGroupPolicy F) (index : ℕ) :
    outcomes (ofPrediction trueLabel predict index) =
      [Outcome.ofPrediction trueLabel predict.prediction index] := by
  rw [ofPrediction]
  split_ifs <;> rfl

/-- A prediction sets no average. -/
theorem averages_ofPrediction (trueLabel : String) (predict : BurstGroupPolicy F) (index : ℕ) :
    averages (ofPrediction trueLabel predict index) = [] := by
  rw [averages, outcomes_ofPrediction, Outcome.ofPrediction]
  split_ifs <;> rfl

end ScoreEvent

open ScoreEvent

/-! ## The score that a log leads to -/

section Logged

variable {F : Type}

/-- The score after the events of a log. -/
structure Logged (log : List (ScoreEvent F)) (score : Score F) : Prop where
  mem : ∀ type, type ∈ score.sheet ↔ ∃ o ∈ outcomes log, type ∈ o.types
  sheetOf : ∀ type, score.sheetOf type = Outcome.sheetAfter type (outcomes log)
  errBurstGroups : score.errBurstGroups = log.filterMap err?

theorem Logged.nil : Logged [] ({} : Score F) where
  mem := fun type => ⟨fun h => absurd h (AList.notMem_empty type),
    fun ⟨_, ho, _⟩ => absurd ho List.not_mem_nil⟩
  sheetOf := fun _ => rfl
  errBurstGroups := rfl

variable {log : List (ScoreEvent F)} {score score' : Score F}

/-- A call whose outcome is recorded, and which pushes no policy. -/
theorem Logged.record (h : Logged log score) {o : Outcome} (ho : o.Recorded score score')
    (herr : score'.errBurstGroups = score.errBurstGroups) :
    Logged (log ++ [.outcome o]) score' where
  mem := fun type => by
    rw [ho.mem, h.mem, outcomes_append, or_comm]
    simp [outcomes, outcome?, or_and_right, exists_or]
  sheetOf := fun type => by
    rw [ho.sheetOf, h.sheetOf, outcomes_append]
    exact (Outcome.sheetAfter_concat o type _).symm
  errBurstGroups := by
    rw [herr, h.errBurstGroups, List.filterMap_append]
    exact (List.append_nil _).symm

/-- A policy is pushed. -/
theorem Logged.pushErr (h : Logged log score) (predict : BurstGroupPolicy F) :
    Logged (log ++ [.err predict]) (score.pushErr predict) where
  mem := fun type => by
    rw [Score.sheet_pushErr, h.mem, outcomes_append]
    simp [outcomes, outcome?]
  sheetOf := fun type => by
    rw [Score.sheetOf_pushErr, h.sheetOf, outcomes_append]
    exact congrArg _ (List.append_nil _).symm
  errBurstGroups := by
    rw [List.filterMap_append, ← h.errBurstGroups]
    rfl

/-- The new average of a type. -/
theorem Logged.updateAvg (h : Logged log score) (type : String) (num : ℕ) :
    Logged (log ++ [.outcome (.averaged type num)])
      (score.updateSheet type fun sheet => { sheet with pktAvgNum := num }) :=
  h.record (score.recorded_updateAvg type num) rfl

/-- `AddMiss`, which pushes no policy yet. -/
theorem Logged.addMiss (h : Logged log score) (trueLabel : String) (index : ℕ) :
    Logged (log ++ [.outcome (.missed (removeSuffix trueLabel) index)])
      (score.addMiss trueLabel index) := by
  refine h.record ⟨fun type => ?_, fun type => ?_⟩ rfl
  · rw [Score.addMiss, Score.mem_updateSheet, Outcome.types, List.mem_singleton]
  · rw [Score.addMiss, Score.sheetOf_updateSheet]
    rfl

/-- **A prediction that has been made.** -/
theorem Logged.addPredicted (h : Logged log score) (trueLabel : String)
    (predict : BurstGroupPolicy F) (index : ℕ) :
    Logged (log ++ ScoreEvent.ofPrediction trueLabel predict index)
      (score.addPredicted trueLabel predict index) := by
  have hrec := score.recorded_addPredicted trueLabel predict index
  rw [ScoreEvent.ofPrediction]
  rw [Outcome.ofPrediction] at hrec ⊢
  rw [Score.addPredicted] at hrec ⊢
  dsimp only at hrec ⊢
  by_cases hmiss : removeSuffix predict.prediction = "unreliable"
  · rw [if_pos hmiss, if_pos hmiss]
    have hboth := (h.addMiss trueLabel index).pushErr predict
    rw [List.append_assoc] at hboth
    exact hboth
  rw [if_neg hmiss, if_neg hmiss] at hrec ⊢
  by_cases hright : removeSuffix predict.prediction = removeSuffix trueLabel
  · rw [if_pos hright, if_pos hright] at hrec ⊢
    exact h.record hrec rfl
  · rw [if_neg hright, if_neg hright] at hrec ⊢
    -- the sheets are those before the push
    have hsheets : Logged (log ++ [.outcome (.wrong (removeSuffix trueLabel)
        (removeSuffix predict.prediction) index)])
        (((score.updateSheet (removeSuffix trueLabel) fun sheet =>
          { sheet with FN := sheet.FN + 1 }).updateSheet (removeSuffix predict.prediction)
            fun sheet => { sheet with FP := sheet.FP + 1 }).updateSheet (removeSuffix trueLabel)
              fun sheet => { sheet with wrongVector := sheet.wrongVector ++ [index] }) :=
      h.record ⟨hrec.mem, hrec.sheetOf⟩ rfl
    have hboth := hsheets.pushErr predict
    rw [List.append_assoc] at hboth
    exact hboth

/-- Two sheets that differ in the order of their vectors at most. -/
structure ScoreSheet.Alike (sheet sheet' : ScoreSheet) : Prop where
  missNum : sheet.missNum = sheet'.missNum
  TP : sheet.TP = sheet'.TP
  FN : sheet.FN = sheet'.FN
  FP : sheet.FP = sheet'.FP
  pktAvgNum : sheet.pktAvgNum = sheet'.pktAvgNum
  missIndexVector : sheet.missIndexVector.Perm sheet'.missIndexVector
  correctVector : sheet.correctVector.Perm sheet'.correctVector
  wrongVector : sheet.wrongVector.Perm sheet'.wrongVector

/-- Two scores with the same types, and sheets that are alike. -/
structure Score.SheetsAlike (score score' : Score F) : Prop where
  mem : ∀ type, type ∈ score.sheet ↔ type ∈ score'.sheet
  sheetOf : ∀ type, (score.sheetOf type).Alike (score'.sheetOf type)

/-- **The order of the outcomes** counts for the averages only. -/
theorem Logged.sheetsAlike {log' : List (ScoreEvent F)} (h : Logged log score)
    (h' : Logged log' score') (hperm : (outcomes log).Perm (outcomes log'))
    (haverages : averages log = averages log') : score.SheetsAlike score' where
  mem := fun type => by
    rw [h.mem, h'.mem]
    simp only [hperm.mem_iff]
  sheetOf := fun type => by
    rw [h.sheetOf, h'.sheetOf]
    exact
      { missNum := (hperm.filterMap _).count_eq type
        TP := (hperm.filterMap _).count_eq type
        FN := (hperm.filterMap _).count_eq type
        FP := (hperm.filterMap _).count_eq type
        pktAvgNum := congrArg (Outcome.lastAverage type) haverages
        missIndexVector := hperm.filterMap _
        correctVector := hperm.filterMap _
        wrongVector := hperm.filterMap _ }

end Logged
end BurstIoT
