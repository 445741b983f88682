import Mathlib.Data.Prod.Lex
import Mathlib.Order.Lattice
import Mathlib.Data.Int.Order.Basic
import BurstIoT.Library.StdLib

/-!
# Packets, time stamps and the division parameters

The records of `Burst.h` and `AConfig.h` that the burst division reads: `timespec`, `KPacket`,
`KDevice` and `DivisionParam`, with the comparison of time stamps, which `KPacket::operator<`,
`Burst::operator<` and `SortInOrder` each write out, and `FloorDuration`.

A `timespec` carries two integers; that the nanoseconds lie below a second is a predicate
(`Timespec.Normal`), assumed only where exact time is meant.
-/

namespace BurstIoT

/-! ## Time stamps -/

/-- `timespec`. -/
structure Timespec where
  tvSec : ℤ
  tvNsec : ℤ
  deriving DecidableEq, Repr

namespace Timespec

/-- The stamp `{0, 0}` of a burst that has seen no packet. -/
def zero : Timespec := ⟨0, 0⟩

/-- The nanoseconds are a fraction of a second. -/
def Normal (t : Timespec) : Prop := 0 ≤ t.tvNsec ∧ t.tvNsec < 1000000000

instance (t : Timespec) : Decidable t.Normal :=
  inferInstanceAs (Decidable (0 ≤ t.tvNsec ∧ t.tvNsec < 1000000000))

/-- Time stamps are ordered by seconds, then by nanoseconds. -/
instance : LinearOrder Timespec :=
  LinearOrder.lift' (fun t : Timespec => toLex (t.tvSec, t.tvNsec)) fun a b h => by
    have hpair : (a.tvSec, a.tvNsec) = (b.tvSec, b.tvNsec) := toLex.injective h
    cases a
    cases b
    simpa using hpair

theorem lt_def {a b : Timespec} :
    a < b ↔ a.tvSec < b.tvSec ∨ a.tvSec = b.tvSec ∧ a.tvNsec < b.tvNsec :=
  Prod.Lex.lt_iff

theorem le_def {a b : Timespec} :
    a ≤ b ↔ a.tvSec < b.tvSec ∨ a.tvSec = b.tvSec ∧ a.tvNsec ≤ b.tvNsec :=
  Prod.Lex.le_iff

/-- The comparison as the source writes it. -/
def earlier (a b : Timespec) : Bool :=
  if a.tvSec < b.tvSec then true
  else if a.tvSec > b.tvSec then false
  else if a.tvNsec < b.tvNsec then true
  else false

theorem earlier_iff {a b : Timespec} : a.earlier b = true ↔ a < b := by
  rw [lt_def, earlier]
  split_ifs with h₁ h₂ h₃
  · simp [h₁]
  · simp only [false_iff]
    omega
  · simp only [true_iff]
    omega
  · simp only [false_iff]
    omega

theorem earlier_eq_false_iff {a b : Timespec} : a.earlier b = false ↔ b ≤ a := by
  rw [← not_lt, ← earlier_iff, Bool.not_eq_true]

theorem strictWeak_earlier : StrictWeak earlier :=
  StrictWeak.of_key id fun _ _ => earlier_iff

theorem tvSec_le_of_le {a b : Timespec} (h : a ≤ b) : a.tvSec ≤ b.tvSec := by
  rw [le_def] at h
  omega

end Timespec

/-- `FloorDuration`: whole seconds from `start` to `stop`, rounded down. -/
def floorDuration (stop start : Timespec) : ℤ :=
  let sec := stop.tvSec - start.tvSec
  let nsec := stop.tvNsec - start.tvNsec
  if nsec < 0 then sec - 1 else sec

/-- A later end or an earlier start makes no duration shorter. -/
theorem floorDuration_mono {stop stop' start start' : Timespec} (hstop : stop ≤ stop')
    (hstart : start' ≤ start) : floorDuration stop start ≤ floorDuration stop' start' := by
  rw [Timespec.le_def] at hstop hstart
  rw [floorDuration, floorDuration]
  split_ifs <;> omega

theorem floorDuration_self (t : Timespec) : floorDuration t t = 0 := by
  rw [floorDuration]
  split_ifs <;> omega

/-- The stamp in nanoseconds. -/
def Timespec.nanos (t : Timespec) : ℤ := t.tvSec * 1000000000 + t.tvNsec

/-- **`FloorDuration` compared with whole seconds** is the exact difference compared with them. -/
theorem floorDuration_lt_iff {stop start : Timespec} (hstop : stop.Normal) (hstart : start.Normal)
    (n : ℤ) : floorDuration stop start < n ↔ stop.nanos - start.nanos < n * 1000000000 := by
  obtain ⟨h₁, h₂⟩ := hstop
  obtain ⟨h₃, h₄⟩ := hstart
  rw [floorDuration, Timespec.nanos, Timespec.nanos]
  split_ifs <;> omega

theorem Timespec.nanos_le_of_le {a b : Timespec} (ha : a.Normal) (hb : b.Normal) (h : a ≤ b) :
    a.nanos ≤ b.nanos := by
  obtain ⟨h₁, h₂⟩ := ha
  obtain ⟨h₃, h₄⟩ := hb
  rw [le_def] at h
  rw [nanos, nanos]
  omega

/-! ## Packets and devices -/

/-- `KPacket`: one packet as seen from one device. -/
structure KPacket where
  deviceId : UInt16
  signedLen : Int16
  hash5tuple : UInt32
  timestamp : Timespec
  deriving DecidableEq, Repr

/-- `KPacket::operator<`. -/
def KPacket.earlier (k₁ k₂ : KPacket) : Bool :=
  k₁.timestamp.earlier k₂.timestamp

theorem KPacket.strictWeak_earlier : StrictWeak KPacket.earlier :=
  Timespec.strictWeak_earlier.comap KPacket.timestamp

/-- A time-ordered packet list. -/
def TimeOrdered (l : List KPacket) : Prop :=
  l.Pairwise fun p q => p.timestamp ≤ q.timestamp

/-- `KDevice`.  The two addresses are kept as they print. -/
structure KDevice where
  mappingIP : Bool
  devId : UInt16
  instanceName : String
  typeLabel : String
  mac : String
  ipaddr : String
  deriving DecidableEq, Repr

/-! ## The division parameters -/

/-- `DivisionParam`, with its default values. -/
structure DivisionParam where
  burstMaxInterval : UInt8 := 2
  burstMaxDuration : UInt8 := 15
  burstMaxUnisig : UInt8 := 50
  divideSmallBurstInFlow : Bool := false
  burstMaxPacketIndex : ℤ := 60
  timeslot : UInt16 := 1800
  deriving DecidableEq, Repr

namespace DivisionParam

variable (div : DivisionParam)

/-- The limits as they are compared with a `time_t`. -/
def interval : ℤ := div.burstMaxInterval.toNat

def duration : ℤ := div.burstMaxDuration.toNat

/-- The three limits of a division are at least one. -/
structure Positive : Prop where
  interval : 1 ≤ div.burstMaxInterval.toNat
  duration : 1 ≤ div.burstMaxDuration.toNat
  unisig : 1 ≤ div.burstMaxUnisig.toNat

instance : Decidable div.Positive :=
  decidable_of_iff (1 ≤ div.burstMaxInterval.toNat ∧ 1 ≤ div.burstMaxDuration.toNat ∧
    1 ≤ div.burstMaxUnisig.toNat)
    ⟨fun h => ⟨h.1, h.2.1, h.2.2⟩, fun h => ⟨h.1, h.2, h.3⟩⟩

variable {div}

theorem Positive.one_le_interval (h : div.Positive) : 1 ≤ div.interval := by
  have := h.interval
  unfold DivisionParam.interval
  omega

theorem Positive.one_le_duration (h : div.Positive) : 1 ≤ div.duration := by
  have := h.duration
  unfold DivisionParam.duration
  omega

end DivisionParam

end BurstIoT
