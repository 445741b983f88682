import BurstIoT.Packet
import BurstIoT.KException

/-!
# `PacketDataset`

The packets that the `StoreKPackets` tasks have appended are checked and sorted by their stamps
before they are divided.  `Valid` reports the first packet that does not belong into the dataset;
what it prints, and its `__debugbreak`, are left out.
-/

namespace BurstIoT
namespace PacketDataset

/-- The test of `Valid` on one packet. -/
def validPacket (devStatSize : ℕ) (packet : KPacket) : Bool :=
  if packet.deviceId.toNat ≥ devStatSize then false
  else if packet.signedLen.toInt > 3000 || packet.signedLen.toInt < -3000 then false
  else if packet.timestamp.tvNsec = 0 ∧ packet.timestamp.tvSec = 0 then false
  else true

/-- `Valid`. -/
def valid (devStatSize : ℕ) (dataset : List KPacket) : Bool :=
  dataset.all (validPacket devStatSize)

/-- `Sort`. -/
def sort (lib : StdLib) (devStatSize : ℕ) (dataset : List KPacket) : Except Fault (List KPacket) :=
  if valid devStatSize dataset then .ok (lib.sort KPacket.earlier dataset)
  else .error (.thrown .invalidPkt)

variable {devStatSize : ℕ} {l l' : List KPacket}

/-- The order in which the packets were appended does not matter to `Valid`. -/
theorem valid_perm (h : l.Perm l') : valid devStatSize l = valid devStatSize l' := by
  rw [valid, valid, Bool.eq_iff_iff, List.all_eq_true, List.all_eq_true]
  simp only [h.mem_iff]

theorem deviceId_lt_of_valid (h : valid devStatSize l = true) {p : KPacket} (hp : p ∈ l) :
    p.deviceId.toNat < devStatSize := by
  have hvalid := List.all_eq_true.mp h p hp
  rw [validPacket] at hvalid
  split_ifs at hvalid
  omega

end PacketDataset
end BurstIoT
