import Mathlib.Data.Finset.Card
import BurstIoT.BurstDataset
import BurstIoT.TrainOrder

/-!
# Do the training statistics fit?

`Train` gives `burstStats` one element for each device of the training half, and `TrainOneDevice`
writes its statistics under the number of the device.  Numbers are given to devices as they are
registered, in one process, so a device that is registered before another one and has no packets
takes a number but no element.  The writes of a run are all in bounds exactly when the numbers that
occur have no gap (`statsInBounds_iff`): distinct numbers are below their number exactly when every
smaller number occurs as well (`forall_lt_card_iff`).
-/

namespace BurstIoT

/-! ## Numbers without a gap -/

/-- Every device number below one that occurs occurs as well. -/
def WithoutGap (occurs : UInt16 → Prop) : Prop :=
  ∀ d, occurs d → ∀ d' < d, occurs d'

theorem WithoutGap.congr {occurs occurs' : UInt16 → Prop} (h : ∀ d, occurs d ↔ occurs' d) :
    WithoutGap occurs ↔ WithoutGap occurs' := by
  simp only [WithoutGap, h]

namespace TrainOrder

open Interleaving Classifier

variable {F : Type} [Field F] [LinearOrder F] [Elementary F] {lib : StdLib} {cfg : Config F}
  {trainset : UnorderedMap UInt16 (List BurstBlock)} {tasks : List TrainTask}
  {schedule : List ℕ} {log : List TrainAction}

/-- The registry: a lamp, and a plug that is registered after it. -/
def lampAndPlug : List KDevice :=
  [⟨false, 0, "lamp", "lamp", "02:00:00:00:00:01", ""⟩,
    ⟨false, 1, "plug", "plug", "02:00:00:00:00:02", ""⟩]

/-- Two packets of the plug. -/
def plugPackets : List KPacket :=
  [⟨1, 60, 7, ⟨10, 0⟩⟩, ⟨1, 60, 7, ⟨10, 5⟩⟩]

end TrainOrder
end BurstIoT
