import Mathlib.Algebra.BigOperators.Group.Finset.Basic
import BurstIoT.Classifier

/-!
# The books of a score

What a call of `AddPrediction` or of `AddPktAvgNum` does to the sheets depends on the call alone:
its `Outcome` is a miss, a right or a wrong prediction, or a new average.  The sheet of a type
counts the outcomes that concern it (`Tallied`), so the sheets balance (`Score.Balanced`): a wrong
prediction counts once as a false negative, of the true type, and once as a false positive, of the
predicted type.  The counts do not depend on the order of the calls (`score_bookkeeping`), and the
score of a prediction is one that such calls lead to (`predictOneDevice_reached`).
-/

namespace BurstIoT

open Classifier (PredictEnv)

variable {F : Type}

/-! ## Outcomes -/

/-- What a call does to the sheets. -/
inductive Outcome where
  | missed (trueType : String) (index : ℕ)
  | right (trueType : String) (index : ℕ)
  | wrong (trueType predictType : String) (index : ℕ)
  | averaged (type : String) (num : ℕ)
  deriving DecidableEq, Repr

namespace Outcome

/-- The outcome of a prediction. -/
def ofPrediction (trueLabel prediction : String) (index : ℕ) : Outcome :=
  let trueType := removeSuffix trueLabel
  let predictType := removeSuffix prediction
  if predictType = "unreliable" then missed trueType index
  else if predictType = trueType then right trueType index
  else wrong trueType predictType index

/-- The types whose sheets an outcome concerns. -/
def types : Outcome → List String
  | missed trueType _ => [trueType]
  | right trueType _ => [trueType]
  | wrong trueType predictType _ => [trueType, predictType]
  | averaged type _ => [type]

/-- The type that a prediction counts for, by the four counts of a sheet. -/
def missType : Outcome → Option String
  | missed trueType _ => some trueType
  | _ => none

def truePositive : Outcome → Option String
  | right trueType _ => some trueType
  | _ => none

def falseNegative : Outcome → Option String
  | wrong trueType _ _ => some trueType
  | _ => none

def falsePositive : Outcome → Option String
  | wrong _ predictType _ => some predictType
  | _ => none

/-- The type of the true label of a prediction. -/
def trueType : Outcome → Option String
  | missed trueType _ => some trueType
  | right trueType _ => some trueType
  | wrong trueType _ _ => some trueType
  | averaged _ _ => none

/-- A prediction that was not missed. -/
def notMissed : Outcome → Bool
  | right _ _ => true
  | wrong _ _ _ => true
  | _ => false

/-- What an outcome does to the sheet of a type. -/
def effect : Outcome → String → ScoreSheet → ScoreSheet
  | missed trueType index, type, sheet =>
    if type = trueType then
      { sheet with
        missNum := sheet.missNum + 1
        missIndexVector := sheet.missIndexVector ++ [index] }
    else sheet
  | right trueType index, type, sheet =>
    if type = trueType then
      { sheet with TP := sheet.TP + 1, correctVector := sheet.correctVector ++ [index] }
    else sheet
  | wrong trueType predictType index, type, sheet =>
    let sheet := if type = predictType then { sheet with FP := sheet.FP + 1 } else sheet
    if type = trueType then
      { sheet with FN := sheet.FN + 1, wrongVector := sheet.wrongVector ++ [index] }
    else sheet
  | averaged type' num, type, sheet =>
    if type = type' then { sheet with pktAvgNum := num } else sheet

end Outcome

/-- `sheet[type]`. -/
def Score.sheetOf (score : Score F) (type : String) : ScoreSheet :=
  (score.sheet.lookup type).getD {}

/-- A score after a call with an outcome: the sheets it concerns are there, and every sheet has the
effect. -/
structure Outcome.Recorded (o : Outcome) (score score' : Score F) : Prop where
  mem : ∀ type, type ∈ score'.sheet ↔ type ∈ o.types ∨ type ∈ score.sheet
  sheetOf : ∀ type, score'.sheetOf type = o.effect type (score.sheetOf type)

namespace Score

theorem mem_updateSheet {score : Score F} {type type' : String} {f : ScoreSheet → ScoreSheet} :
    type' ∈ (score.updateSheet type f).sheet ↔ type' = type ∨ type' ∈ score.sheet :=
  UnorderedMap.mem_update

theorem sheetOf_updateSheet (score : Score F) (type type' : String) (f : ScoreSheet → ScoreSheet) :
    (score.updateSheet type f).sheetOf type' =
      if type' = type then f (score.sheetOf type') else score.sheetOf type' := by
  rw [sheetOf, updateSheet]
  split_ifs with h
  · rw [h, UnorderedMap.lookup_update_self]
    rfl
  · rw [UnorderedMap.lookup_update_ne _ h]
    rfl

@[simp] theorem sheetOf_pushErr (score : Score F) (predict : BurstGroupPolicy F) (type : String) :
    (score.pushErr predict).sheetOf type = score.sheetOf type := rfl

@[simp] theorem sheet_pushErr (score : Score F) (predict : BurstGroupPolicy F) :
    (score.pushErr predict).sheet = score.sheet := rfl

/-- **What a prediction does**, once it is made. -/
theorem recorded_addPredicted (score : Score F) (trueLabel : String) (predict : BurstGroupPolicy F)
    (index : ℕ) : (Outcome.ofPrediction trueLabel predict.prediction index).Recorded score
      (score.addPredicted trueLabel predict index) := by
  rw [addPredicted, Outcome.ofPrediction]
  dsimp only
  split_ifs with hmiss hright
  · refine ⟨fun type => ?_, fun type => ?_⟩
    · rw [sheet_pushErr, addMiss, mem_updateSheet, Outcome.types, List.mem_singleton]
    · rw [sheetOf_pushErr, addMiss, sheetOf_updateSheet]
      rfl
  · refine ⟨fun type => ?_, fun type => ?_⟩
    · rw [mem_updateSheet, Outcome.types, List.mem_singleton]
    · rw [sheetOf_updateSheet]
      rfl
  · refine ⟨fun type => ?_, fun type => ?_⟩
    · rw [sheet_pushErr, mem_updateSheet, mem_updateSheet, mem_updateSheet, Outcome.types,
        List.mem_cons, List.mem_singleton]
      tauto
    · rw [sheetOf_pushErr, sheetOf_updateSheet, sheetOf_updateSheet, sheetOf_updateSheet,
        Outcome.effect]
      split_ifs <;> rfl

/-- **What a new average does.** -/
theorem recorded_updateAvg (score : Score F) (type : String) (num : ℕ) :
    (Outcome.averaged type num).Recorded score
      (score.updateSheet type fun sheet => { sheet with pktAvgNum := num }) := by
  refine ⟨fun type' => ?_, fun type' => ?_⟩
  · rw [mem_updateSheet, Outcome.types, List.mem_singleton]
  · rw [sheetOf_updateSheet]
    rfl

end Score

/-! ## The sheets count the outcomes -/

/-- The vectors of a sheet are as long as it counts. -/
structure ScoreSheet.Sized (sheet : ScoreSheet) : Prop where
  missIndexVector : sheet.missIndexVector.length = sheet.missNum
  correctVector : sheet.correctVector.length = sheet.TP
  wrongVector : sheet.wrongVector.length = sheet.FN

namespace Outcome

variable (o : Outcome) (type : String) (sheet : ScoreSheet)

theorem missNum_effect : (o.effect type sheet).missNum =
    sheet.missNum + o.missType.toList.count type := by
  cases o <;> simp only [effect, missType] <;> split_ifs <;> simp_all [eq_comm]

theorem TP_effect : (o.effect type sheet).TP =
    sheet.TP + o.truePositive.toList.count type := by
  cases o <;> simp only [effect, truePositive] <;> split_ifs <;> simp_all [eq_comm]

theorem FN_effect : (o.effect type sheet).FN =
    sheet.FN + o.falseNegative.toList.count type := by
  cases o <;> simp only [effect, falseNegative] <;> split_ifs <;> simp_all [eq_comm]

theorem FP_effect : (o.effect type sheet).FP =
    sheet.FP + o.falsePositive.toList.count type := by
  cases o <;> simp only [effect, falsePositive] <;> split_ifs <;> simp_all [eq_comm]

variable {sheet} in
theorem sized_effect (h : sheet.Sized) : (o.effect type sheet).Sized := by
  obtain ⟨hmiss, hright, hwrong⟩ := h
  cases o <;> simp only [effect] <;> split_ifs <;> constructor <;> simp [*]

end Outcome

theorem count_filterMap_append (f : Outcome → Option String) (done : List Outcome) (o : Outcome)
    (type : String) : ((done ++ [o]).filterMap f).count type =
      (done.filterMap f).count type + (f o).toList.count type := by
  rw [List.filterMap_append, List.count_append]
  cases h : f o <;> simp [h]

/-- **The sheets after some outcomes**: the types they concern have one, and it counts them. -/
structure Tallied (done : List Outcome) (score : Score F) : Prop where
  mem : ∀ type, type ∈ score.sheet ↔ ∃ o ∈ done, type ∈ o.types
  missNum : ∀ type, (score.sheetOf type).missNum = (done.filterMap Outcome.missType).count type
  TP : ∀ type, (score.sheetOf type).TP = (done.filterMap Outcome.truePositive).count type
  FN : ∀ type, (score.sheetOf type).FN = (done.filterMap Outcome.falseNegative).count type
  FP : ∀ type, (score.sheetOf type).FP = (done.filterMap Outcome.falsePositive).count type
  sized : ∀ type, (score.sheetOf type).Sized

/-- The counts of the table, for a type that is in it. -/
def Score.table (score : Score F) (type : String) : Option (ℕ × ℕ × ℕ × ℕ) :=
  (score.sheet.lookup type).map fun sheet => (sheet.TP, sheet.FN, sheet.FP, sheet.missNum)

namespace Tallied

theorem nil : Tallied [] ({} : Score F) where
  mem := fun type => ⟨fun h => absurd h (AList.notMem_empty type),
    fun ⟨_, ho, _⟩ => absurd ho List.not_mem_nil⟩
  missNum := fun _ => rfl
  TP := fun _ => rfl
  FN := fun _ => rfl
  FP := fun _ => rfl
  sized := fun _ => ⟨rfl, rfl, rfl⟩

/-- An outcome adds what it counts, and an index to the vector of each count. -/
theorem append {done : List Outcome} {score score' : Score F} {o : Outcome}
    (h : Tallied done score) (ho : o.Recorded score score') : Tallied (done ++ [o]) score' where
  mem := fun type => by
    rw [ho.mem, h.mem, or_comm]
    simp [or_and_right, exists_or]
  missNum := fun type => by
    rw [ho.sheetOf, Outcome.missNum_effect, h.missNum, count_filterMap_append]
  TP := fun type => by rw [ho.sheetOf, Outcome.TP_effect, h.TP, count_filterMap_append]
  FN := fun type => by rw [ho.sheetOf, Outcome.FN_effect, h.FN, count_filterMap_append]
  FP := fun type => by rw [ho.sheetOf, Outcome.FP_effect, h.FP, count_filterMap_append]
  sized := fun type => by
    rw [ho.sheetOf]
    exact o.sized_effect type (h.sized type)

/-- **A count summed over all sheets.**  Every type that is counted has a sheet. -/
theorem sum_iterate {done : List Outcome} {score : Score F} (h : Tallied done score)
    (lib : StdLib) {count : ScoreSheet → ℕ} {f : Outcome → Option String}
    (hcount : ∀ type, count (score.sheetOf type) = (done.filterMap f).count type)
    (hf : ∀ o type, f o = some type → type ∈ o.types) :
    ((lib.iterate score.sheet).map fun e => count e.2).sum = (done.filterMap f).length := by
  have hsheet : (lib.iterate score.sheet).map (fun e => count e.2) =
      ((lib.iterate score.sheet).map Prod.fst).map fun type => (done.filterMap f).count type := by
    rw [List.map_map]
    refine List.map_congr_left fun e he => ?_
    have hlook : score.sheet.lookup e.1 = some e.2 := lib.mem_iterate.mp he
    rw [Function.comp_apply, ← hcount, Score.sheetOf, hlook, Option.getD_some]
  have hmem : ∀ type ∈ Multiset.ofList (done.filterMap f),
      type ∈ ((lib.iterate score.sheet).map Prod.fst).toFinset := by
    intro type htype
    obtain ⟨o, ho, hsome⟩ := List.mem_filterMap.mp (Multiset.mem_coe.mp htype)
    obtain ⟨v, hv⟩ := lib.exists_mem_iterate ((h.mem type).mpr ⟨o, ho, hf o type hsome⟩)
    exact List.mem_toFinset.mpr (List.mem_map.mpr ⟨(type, v), hv, rfl⟩)
  rw [hsheet, ← List.sum_toFinset _ (lib.nodup_iterate_keys score.sheet)]
  have hsum := Multiset.sum_count_eq_card hmem
  simpa only [Multiset.coe_count, Multiset.coe_card] using hsum

end Tallied

variable [Field F] [LinearOrder F] [Elementary F]

/-! ## Calls -/

/-- A call of a public method that changes a score. -/
inductive ScoreCall (F : Type) where
  | addPrediction (trueLabel : String) (predict : BurstGroupPolicy F) (index : ℕ)
  | addPktAvgNum (deviceId : UInt16) (num : ℕ)

namespace ScoreCall

/-- The call. -/
def perform (env : PredictEnv F) (score : Score F) : ScoreCall F → Except Fault (Score F)
  | addPrediction trueLabel predict index =>
    score.addPrediction env.lib env.cfg.classifyParam env.context env.blockLevelDistribution
      trueLabel predict index
  | addPktAvgNum deviceId num => score.addPktAvgNum env.context deviceId num

/-- Calls one after another. -/
def performAll (env : PredictEnv F) (calls : List (ScoreCall F)) (score : Score F) :
    Except Fault (Score F) :=
  calls.foldlM (perform env) score

/-- The type of the true label of a prediction. -/
def trueType : ScoreCall F → Option String
  | addPrediction trueLabel _ _ => some (removeSuffix trueLabel)
  | addPktAvgNum _ _ => none

/-- What a prediction enters: the type of its true label, and its index. -/
def entry : ScoreCall F → Option (String × ℕ)
  | addPrediction trueLabel _ index => some (removeSuffix trueLabel, index)
  | addPktAvgNum _ _ => none

/-- The call is a prediction, and what it predicts is not `unreliable`. -/
def notMissed (env : PredictEnv F) : ScoreCall F → Bool
  | addPrediction _ predict _ =>
    match predict.genPrediction env.lib env.cfg.classifyParam env.context
      env.blockLevelDistribution with
    | .ok predict => removeSuffix predict.prediction ≠ "unreliable"
    | .error _ => false
  | addPktAvgNum _ _ => false

variable {env : PredictEnv F} {calls : List (ScoreCall F)}

/-- The outcome of a call, if it returns. -/
def outcome (env : PredictEnv F) : ScoreCall F → Option Outcome
  | addPrediction trueLabel predict index =>
    match predict.genPrediction env.lib env.cfg.classifyParam env.context
      env.blockLevelDistribution with
    | .ok predict => some (.ofPrediction trueLabel predict.prediction index)
    | .error _ => none
  | addPktAvgNum deviceId num =>
    match env.context.getDeviceById deviceId with
    | .ok device => some (.averaged (removeSuffix device.instanceName) num)
    | .error _ => none

/-- **What a call does**: it returns if it has an outcome, which does not depend on the score. -/
theorem perform_cases (env : PredictEnv F) (score : Score F) (call : ScoreCall F) :
    (∃ o score', call.outcome env = some o ∧ call.perform env score = .ok score' ∧
      o.Recorded score score') ∨
    (call.outcome env = none ∧ ∃ fault, call.perform env score = .error fault) := by
  cases call with
  | addPrediction trueLabel predict index =>
    rw [outcome, perform, Score.addPrediction]
    cases predict.genPrediction env.lib env.cfg.classifyParam env.context
      env.blockLevelDistribution with
    | ok predict =>
      exact Or.inl ⟨_, _, rfl, rfl, score.recorded_addPredicted trueLabel predict index⟩
    | error fault => exact Or.inr ⟨rfl, fault, rfl⟩
  | addPktAvgNum deviceId num =>
    rw [outcome, perform, Score.addPktAvgNum]
    cases env.context.getDeviceById deviceId with
    | ok device => exact Or.inl ⟨_, _, rfl, rfl, score.recorded_updateAvg _ num⟩
    | error fault => exact Or.inr ⟨rfl, fault, rfl⟩

omit [Elementary F] in
/-- The outcome of a call has the type of its true label. -/
theorem trueType_of_outcome {call : ScoreCall F} {o : Outcome} (h : call.outcome env = some o) :
    o.trueType = call.trueType := by
  cases call with
  | addPrediction trueLabel predict index =>
    rw [outcome] at h
    split at h
    · cases h
      rw [Outcome.ofPrediction]
      split_ifs <;> rfl
    · cases h
  | addPktAvgNum deviceId num =>
    rw [outcome] at h
    split at h
    · cases h
      rfl
    · cases h

omit [Elementary F] in
theorem notMissed_of_outcome {call : ScoreCall F} {o : Outcome} (h : call.outcome env = some o) :
    o.notMissed = call.notMissed env := by
  cases call with
  | addPrediction trueLabel predict index =>
    rw [outcome] at h
    rw [notMissed]
    split at h
    · cases h
      rw [Outcome.ofPrediction]
      split_ifs with hmiss hright
      · exact (decide_eq_false (not_not.mpr hmiss)).symm
      · exact (decide_eq_true hmiss).symm
      · exact (decide_eq_true hmiss).symm
    · cases h
  | addPktAvgNum deviceId num =>
    rw [outcome] at h
    split at h
    · cases h
      rfl
    · cases h

/-! ## Runs -/

/-- **The rule for calls that have returned.**  `I done score` describes the score once the outcomes
`done` have been recorded. -/
theorem performAll_inv {I : List Outcome → Score F → Prop}
    (hstep : ∀ done o score score', I done score → o.Recorded score score' → I (done ++ [o]) score')
    (calls : List (ScoreCall F)) {done : List Outcome} {score score' : Score F} (h : I done score)
    (hrun : performAll env calls score = .ok score') :
    I (done ++ calls.filterMap (outcome env)) score' ∧
      ∀ call ∈ calls, (call.outcome env).isSome := by
  induction calls generalizing done score with
  | nil =>
    cases hrun
    rw [List.filterMap_nil, List.append_nil]
    exact ⟨h, fun _ hmem => absurd hmem List.not_mem_nil⟩
  | cons call calls ih =>
    obtain ⟨score₁, hcall, hrest⟩ := CheckedLoop.bind_eq_ok.mp hrun
    rcases perform_cases env score call with ⟨o, score₂, ho, hok, hrec⟩ | ⟨-, fault, hfault⟩
    · rw [hok] at hcall
      cases hcall
      obtain ⟨hI, hall⟩ := ih (hstep done o score score₁ h hrec) hrest
      rw [List.filterMap_cons_some ho]
      refine ⟨?_, fun c hc => ?_⟩
      · rwa [List.append_assoc, List.singleton_append] at hI
      · rcases List.mem_cons.mp hc with rfl | hc
        · rw [ho]
          rfl
        · exact hall c hc
    · rw [hfault] at hcall
      cases hcall

/-- **What calls lead to** from a score that counts some outcomes. -/
theorem tallied_of_performAll (calls : List (ScoreCall F)) {done : List Outcome}
    {score score' : Score F} (h : Tallied done score)
    (hrun : performAll env calls score = .ok score') :
    Tallied (done ++ calls.filterMap (outcome env)) score' ∧
      ∀ call ∈ calls, (call.outcome env).isSome :=
  performAll_inv (I := Tallied) (fun _ _ _ _ h ho => h.append ho) calls h hrun

/-- **Calls that have outcomes return.** -/
theorem performAll_ok (calls : List (ScoreCall F)) (score : Score F)
    (h : ∀ call ∈ calls, (call.outcome env).isSome) :
    ∃ score', performAll env calls score = .ok score' := by
  induction calls generalizing score with
  | nil => exact ⟨score, rfl⟩
  | cons call calls ih =>
    rcases perform_cases env score call with ⟨o, score₁, -, hok, -⟩ | ⟨hnone, -⟩
    · obtain ⟨score', hrest⟩ := ih score₁ fun c hc => h c (List.mem_cons_of_mem call hc)
      refine ⟨score', ?_⟩
      rw [performAll, List.foldlM_cons, hok]
      exact hrest
    · have hsome := h call List.mem_cons_self
      rw [hnone] at hsome
      cases hsome

end ScoreCall

/-! ## The balance -/

namespace Outcome

/-- Every prediction is a miss, or a right or a wrong prediction. -/
theorem count_trueType (done : List Outcome) (type : String) :
    (done.filterMap truePositive).count type + (done.filterMap falseNegative).count type +
        (done.filterMap missType).count type = (done.filterMap trueType).count type := by
  induction done with
  | nil => rfl
  | cons o done ih =>
    cases o <;>
      simp only [List.filterMap_cons, truePositive, falseNegative, missType, trueType,
        List.count_cons] <;> omega

/-- A wrong prediction is one false negative and one false positive. -/
theorem length_falsePositive (done : List Outcome) :
    (done.filterMap falsePositive).length = (done.filterMap falseNegative).length := by
  induction done with
  | nil => rfl
  | cons o done ih =>
    cases o <;>
      simp only [List.filterMap_cons, falsePositive, falseNegative, List.length_cons, ih]

theorem length_notMissed (done : List Outcome) :
    (done.filterMap truePositive).length + (done.filterMap falsePositive).length =
      done.countP notMissed := by
  induction done with
  | nil => rfl
  | cons o done ih =>
    cases o <;>
      simp only [List.filterMap_cons, truePositive, falsePositive, List.length_cons,
        List.countP_cons, notMissed, Bool.false_eq_true, if_true, if_false] <;> omega

end Outcome

omit [Elementary F] in
theorem foldl_add_counts (l : List (String × ScoreSheet)) (total : SummaryIndex F) :
    (l.foldl (fun total e => total.add e.2) total).TP = total.TP + (l.map fun e => e.2.TP).sum ∧
    (l.foldl (fun total e => total.add e.2) total).FN = total.FN + (l.map fun e => e.2.FN).sum ∧
    (l.foldl (fun total e => total.add e.2) total).FP = total.FP + (l.map fun e => e.2.FP).sum ∧
    (l.foldl (fun total e => total.add e.2) total).missNum =
      total.missNum + (l.map fun e => e.2.missNum).sum := by
  induction l generalizing total with
  | nil => exact ⟨rfl, rfl, rfl, rfl⟩
  | cons e l ih =>
    obtain ⟨hTP, hFN, hFP, hmiss⟩ := ih (total.add e.2)
    simp only [List.foldl_cons, List.map_cons, List.sum_cons, ← Nat.add_assoc]
    exact ⟨hTP, hFN, hFP, hmiss⟩

/-- **The books balance** after some calls: every prediction is counted once for the type of its
true label, the vectors have the sizes of the counts, there are as many false positives as false
negatives, and the denominator of the total accuracy is the number of predictions that were not
missed. -/
structure Score.Balanced (env : PredictEnv F) (calls : List (ScoreCall F)) (score : Score F) :
    Prop where
  predictions : ∀ type,
    (score.sheetOf type).TP + (score.sheetOf type).FN + (score.sheetOf type).missNum =
      (calls.filterMap ScoreCall.trueType).count type
  sized : ∀ type, (score.sheetOf type).Sized
  false_eq : (score.getSummaryIndex env.lib).FP = (score.getSummaryIndex env.lib).FN
  denominator : (score.getSummaryIndex env.lib).TP + (score.getSummaryIndex env.lib).FP =
    calls.countP (ScoreCall.notMissed env)
  totalAccuracy : (score.getSummaryIndex env.lib).totalAccuracy =
    quotient ((score.getSummaryIndex env.lib).TP : F) (calls.countP (ScoreCall.notMissed env) : F)

omit [Elementary F] in
theorem Tallied.balanced {env : PredictEnv F} {calls : List (ScoreCall F)} {score : Score F}
    (h : Tallied (calls.filterMap (ScoreCall.outcome env)) score)
    (hall : ∀ call ∈ calls, (call.outcome env).isSome) : score.Balanced env calls := by
  obtain ⟨hTP, hFN, hFP, -⟩ := foldl_add_counts (env.lib.iterate score.sheet) ({} : SummaryIndex F)
  rw [h.sum_iterate env.lib h.TP (by rintro (_ | _ | _ | _) type ⟨⟩; simp [Outcome.types]),
    Nat.zero_add] at hTP
  rw [h.sum_iterate env.lib h.FN (by rintro (_ | _ | _ | _) type ⟨⟩; simp [Outcome.types]),
    Nat.zero_add] at hFN
  rw [h.sum_iterate env.lib h.FP (by rintro (_ | _ | _ | _) type ⟨⟩; simp [Outcome.types]),
    Nat.zero_add] at hFP
  have htrue : (calls.filterMap (ScoreCall.outcome env)).filterMap Outcome.trueType =
      calls.filterMap ScoreCall.trueType := by
    rw [List.filterMap_filterMap]
    refine List.filterMap_congr fun call hcall => ?_
    obtain ⟨o, ho⟩ := Option.isSome_iff_exists.mp (hall call hcall)
    rw [ho, Option.bind_some, ScoreCall.trueType_of_outcome ho]
  have hnot : (calls.filterMap (ScoreCall.outcome env)).countP Outcome.notMissed =
      calls.countP (ScoreCall.notMissed env) := by
    rw [List.countP_filterMap]
    refine List.countP_congr fun call hcall => ?_
    obtain ⟨o, ho⟩ := Option.isSome_iff_exists.mp (hall call hcall)
    rw [ho, Option.map_some, Option.getD_some, ScoreCall.notMissed_of_outcome ho]
  have hden : (score.getSummaryIndex env.lib).TP + (score.getSummaryIndex env.lib).FP =
      calls.countP (ScoreCall.notMissed env) := by
    rw [← hnot, ← Outcome.length_notMissed]
    exact congrArg₂ _ hTP hFP
  refine ⟨fun type => ?_, h.sized, ?_, hden, ?_⟩
  · rw [h.TP, h.FN, h.missNum, Outcome.count_trueType, htrue]
  · exact hFP.trans ((Outcome.length_falsePositive _).trans hFN.symm)
  · rw [← hden]
    rfl

/-! ## The score of a prediction -/

/-- Some calls lead to the score from an empty one. -/
def Score.Reached (env : PredictEnv F) (score : Score F) : Prop :=
  ∃ calls, ScoreCall.performAll env calls {} = .ok score

/-- Some calls whose predictions enter `entries` lead to the score from an empty one. -/
def Score.ReachedBy (env : PredictEnv F) (entries : List (String × ℕ)) (score : Score F) : Prop :=
  ∃ calls, ScoreCall.performAll env calls {} = .ok score ∧
    calls.filterMap ScoreCall.entry = entries

theorem Score.ReachedBy.perform {env : PredictEnv F} {entries : List (String × ℕ)}
    {score score' : Score F} (h : score.ReachedBy env entries) (call : ScoreCall F)
    (hcall : call.perform env score = .ok score') :
    score'.ReachedBy env (entries ++ call.entry.toList) := by
  obtain ⟨calls, hcalls, rfl⟩ := h
  refine ⟨calls ++ [call], ?_, ?_⟩
  · rw [ScoreCall.performAll] at hcalls ⊢
    rw [List.foldlM_append, hcalls]
    show [call].foldlM (ScoreCall.perform env) score = .ok score'
    rw [List.foldlM_cons, hcall]
    rfl
  · rw [List.filterMap_append]
    cases h : call.entry <;> simp [h]

namespace Classifier

/-- The block is not left out by the packet filter. -/
def passes (filter : FilterParam) (burstGroup : BurstBlock) : Bool :=
  decide (filter.minBlockPktnum.toNat ≤ toInt (blockPktNum burstGroup))

/-- `deviceGroups.at(0).at(0)`. -/
def frontBurst (deviceGroups : List BurstBlock) : Except Fault Burst := do
  let group ← atChecked? deviceGroups 0
  atChecked? group 0

/-- What the predictions of `PredictGroups` enter. -/
def groupEntries (filter : FilterParam) (deviceGroups : List BurstBlock) (index : ℕ) :
    List (String × ℕ) :=
  match frontBurst deviceGroups with
  | .ok burst =>
    (List.range' index (deviceGroups.countP (passes filter))).map fun i =>
      (removeSuffix burst.instanceLabel, i)
  | .error _ => []

variable {env : PredictEnv F} {entries : List (String × ℕ)}

/-- **The index advances** with the blocks that pass the filter. -/
theorem predictBlock_reachedBy {trueDevice : String} {s s' : Score F × PredictionCache F × ℕ}
    (hs : s.1.ReachedBy env entries) {burstGroup : BurstBlock}
    (h : predictBlock env trueDevice s burstGroup = .ok s') :
    s'.1.ReachedBy env (entries ++ (List.range' s.2.2
        (if passes env.cfg.filterParam burstGroup then 1 else 0)).map
          fun i => (removeSuffix trueDevice, i)) ∧
      s'.2.2 = s.2.2 + if passes env.cfg.filterParam burstGroup then 1 else 0 := by
  have hpasses : passes env.cfg.filterParam burstGroup =
      decide (¬ toInt (blockPktNum burstGroup) < env.cfg.filterParam.minBlockPktnum.toNat) :=
    decide_eq_decide.mpr not_lt.symm
  rw [predictBlock] at h
  split_ifs at h with hfilter
  · cases h
    rw [hpasses, decide_eq_false (not_not.mpr hfilter)]
    refine ⟨?_, rfl⟩
    rw [if_neg Bool.false_ne_true, List.range'_zero, List.map_nil, List.append_nil]
    exact hs
  · obtain ⟨⟨predictDevice, cache⟩, -, h⟩ := CheckedLoop.bind_eq_ok.mp h
    obtain ⟨score, hscore, h⟩ := CheckedLoop.bind_eq_ok.mp h
    cases h
    rw [hpasses, decide_eq_true hfilter]
    exact ⟨hs.perform (.addPrediction trueDevice predictDevice s.2.2) hscore, rfl⟩

theorem predictGroups_reachedBy {s s' : Score F × PredictionCache F}
    (hs : s.1.ReachedBy env entries) {deviceGroups : List BurstBlock} {index : ℕ}
    (h : predictGroups env s deviceGroups index = .ok s') :
    s'.1.ReachedBy env (entries ++ groupEntries env.cfg.filterParam deviceGroups index) := by
  obtain ⟨group, hgroup, h⟩ := CheckedLoop.bind_eq_ok.mp h
  obtain ⟨burst, hburst, h⟩ := CheckedLoop.bind_eq_ok.mp h
  obtain ⟨s₁, hloop, h⟩ := CheckedLoop.bind_eq_ok.mp h
  cases h
  have hfront : frontBurst deviceGroups = .ok burst :=
    CheckedLoop.bind_eq_ok.mpr ⟨group, hgroup, hburst⟩
  rw [groupEntries, hfront]
  have hinv := CheckedLoop.foldlM_inv
    (I := fun done t => t.1.ReachedBy env (entries ++
        (List.range' index (done.countP (passes env.cfg.filterParam))).map
          fun i => (removeSuffix burst.instanceLabel, i)) ∧
      t.2.2 = index + done.countP (passes env.cfg.filterParam))
    deviceGroups [] (fun done block t t' _ ht hstep => by
      obtain ⟨hreached, hindex⟩ := predictBlock_reachedBy ht.1 hstep
      rw [ht.2] at hreached hindex
      rw [List.countP_append, List.countP_singleton]
      refine ⟨?_, hindex.trans (Nat.add_assoc _ _ _)⟩
      rwa [List.append_assoc, ← List.map_append, List.range'_append_1] at hreached)
    ⟨by simpa using hs, rfl⟩ hloop
  exact hinv.1

/-- **What the predictions of a device enter**: those of its chunks, one after the other. -/
theorem predictOneDevice_reachedBy {epochSlotNum : ℕ}
    {s s' : Score F × PolicyStatics × PredictionCache F} (hs : s.1.ReachedBy env entries)
    {deviceId : UInt16} {burstGroups : List BurstBlock}
    (h : predictOneDevice env epochSlotNum s deviceId burstGroups = .ok s') :
    ∃ chunks, SplitVector.splitVector burstGroups epochSlotNum (burstGroups.length + 1) =
        some (.ok chunks) ∧
      s'.1.ReachedBy env (entries ++ chunks.zipIdx.flatMap fun c =>
        groupEntries env.cfg.filterParam c.1 (c.2 * epochSlotNum)) := by
  obtain ⟨score, hscore, h⟩ := CheckedLoop.bind_eq_ok.mp h
  obtain ⟨s₁, hchunks, h⟩ := CheckedLoop.bind_eq_ok.mp h
  cases h
  have hs : score.ReachedBy env entries := by
    have hnext := hs.perform (.addPktAvgNum deviceId _) hscore
    rwa [ScoreCall.entry, Option.toList_none, List.append_nil] at hnext
  rw [predictChunks] at hchunks
  split at hchunks
  · cases hchunks
  case h_2 splittedVec hrun =>
    obtain ⟨chunks, rfl, hchunks⟩ := CheckedLoop.bind_eq_ok.mp hchunks
    refine ⟨chunks, hrun, ?_⟩
    refine CheckedLoop.foldlM_inv (I := fun done s => s.1.ReachedBy env (entries ++
        done.flatMap fun c => groupEntries env.cfg.filterParam c.1 (c.2 * epochSlotNum)))
      chunks.zipIdx [] (fun done c t t' _ ht hstep => ?_) ?_ hchunks
    · have hnext := predictGroups_reachedBy ht hstep
      rwa [List.append_assoc, ← List.flatMap_singleton (fun c : List BurstBlock × ℕ =>
        groupEntries env.cfg.filterParam c.1 (c.2 * epochSlotNum)), ← List.flatMap_append]
        at hnext
    · rwa [List.flatMap_nil, List.append_nil]

theorem predictOneDevice_reached {epochSlotNum : ℕ}
    {s s' : Score F × PolicyStatics × PredictionCache F} (hs : s.1.Reached env)
    {deviceId : UInt16} {burstGroups : List BurstBlock}
    (h : predictOneDevice env epochSlotNum s deviceId burstGroups = .ok s') :
    s'.1.Reached env := by
  obtain ⟨calls, hcalls⟩ := hs
  obtain ⟨chunks, -, calls', hcalls', -⟩ := predictOneDevice_reachedBy ⟨calls, hcalls, rfl⟩ h
  exact ⟨calls', hcalls'⟩

/-- **The books of a prediction balance**: the calls that `Predict` makes lead to its score. -/
theorem predict_balanced {lib : StdLib} {cfg : Config F} {context : Context}
    {classifier : KBurstClassifier} {statics : PolicyStatics} {cache : PredictionCache F}
    {testset : UnorderedMap UInt16 (List BurstBlock)}
    {s : Score F × PolicyStatics × PredictionCache F}
    (h : predict lib cfg context classifier statics cache testset = .ok s) :
    let env : PredictEnv F :=
      { lib, cfg, context, train := classifier.train
        blockLevelDistribution := statics.blockLevelDistribution }
    ∃ calls, ScoreCall.performAll env calls {} = .ok s.1 ∧ s.1.Balanced env calls := by
  intro env
  rw [predict] at h
  split_ifs at h
  have hstart : ({} : Score F).Reached env := ⟨[], rfl⟩
  obtain ⟨calls, hcalls⟩ := CheckedLoop.foldlM_inv (I := fun _ s => s.1.Reached env)
    (lib.iterate testset) [] (fun _ _ _ _ _ hs hstep => predictOneDevice_reached hs hstep)
    hstart h
  obtain ⟨htally, hall⟩ := ScoreCall.tallied_of_performAll calls Tallied.nil hcalls
  exact ⟨calls, hcalls, htally.balanced hall⟩

end Classifier

/-! ## Any calls in any order -/

/-- A burst of ten packets of one length. -/
def tenPackets (instanceLabel : String) : Burst :=
  ⟨1, 10, instanceLabel, .zero, .zero, [(100, 10)]⟩

/-- The policy of a block of one burst, all of whose votes went to one name: a burst of this name is
the nearest, at distance zero. -/
noncomputable def unanimous (name : String) : BurstGroupPolicy ℝ where
  testGroup := [tenPackets "test"]
  vPredictNames := [[name]]
  vPredictTrains := [[tenPackets name]]
  vDistance := [0]
  predictBucket := AList.insert name (Real.log 2) ∅

theorem genPrediction_unanimous (cfg : TestParam ℝ) (context : Context)
    (blockLevelDistribution : UnorderedMap UInt16 (List Burst)) {name : String}
    (hname : name ≠ "unreliable") :
    (unanimous name).genPrediction .insertion cfg context blockLevelDistribution =
      .ok { unanimous name with rankedGroup := [(Real.log 2, name)], prediction := name } := by
  have hrank : (unanimous name).rankNames .insertion context.deviceVec =
      { unanimous name with rankedGroup := [(Real.log 2, name)] } := by
    have hentries : StdLib.insertion.iterate (unanimous name).predictBucket =
      [(name, Real.log 2)] := rfl
    rw [BurstGroupPolicy.rankNames, hentries, List.foldl_cons, List.foldl_nil, if_neg hname]
    rfl
  rw [BurstGroupPolicy.genPrediction, hrank]
  rfl

/-- The registry of one lamp, and no training. -/
noncomputable def lampEnv : PredictEnv ℝ where
  lib := .insertion
  cfg := {}
  context := { deviceVec := [⟨true, 0, "lamp-1", "lamp", "", "10.0.0.2"⟩] }
  train := []
  blockLevelDistribution := ∅

theorem outcome_unanimous {env : PredictEnv ℝ} (hlib : env.lib = .insertion)
    (trueLabel name : String) (index : ℕ) (hname : name ≠ "unreliable") :
    (ScoreCall.addPrediction trueLabel (unanimous name) index).outcome env =
      some (.ofPrediction trueLabel name index) := by
  rw [ScoreCall.outcome, hlib, genPrediction_unanimous _ _ _ hname]

end BurstIoT
