import Mathlib.Data.Int.Order.Basic

/-!
# Failures

`KException::Code`, and `Fault`: how a run of the program goes wrong.  A function that can go wrong
returns an `Except Fault`; `undefined` stands for what the language leaves undefined, such as an
index past the end of a vector, `outOfRange` for the exception of `at`, and `diverges` for a loop
that does not end.
-/

namespace BurstIoT

/-- `KException::Code`. -/
inductive KException where
  | deviceMappingOpenError
  | deviceMappingTypeError
  | pcapFormatError
  | pcapCannotOpen
  | userSettingOpenError
  | outputError
  | filterError
  | writePcapError
  | emptyReorganizerBufferError
  | deviceThreadpoolError
  | notIpv4Packet
  | otherDevicePacket
  | burstNullptr
  | burstStrange
  | burstNumberMismatch
  | burstUniNumberMismatch
  | openError
  | unknownBurstDevice
  | burstUniNumberOverflow
  | deviceNotFound
  | shouldNotEmpty
  | notEthernetPacket
  | datasetPathNotExist
  | pcapTimeMess
  | clearError
  | invalidPkt
  deriving DecidableEq, Repr

/-- A run that does not return: an exception, undefined behaviour, or a loop without end. -/
inductive Fault where
  | thrown (code : KException)
  | undefined
  | outOfRange
  | diverges
  deriving DecidableEq, Repr

/-- `v[i]` on a vector: undefined past the end. -/
def at? {α : Type} (v : List α) (i : ℕ) : Except Fault α :=
  match v[i]? with
  | some a => .ok a
  | none => .error .undefined

theorem at?_of_lt {α : Type} {v : List α} {i : ℕ} (h : i < v.length) : at? v i = .ok v[i] := by
  rw [at?, List.getElem?_eq_getElem h]

theorem at?_eq_ok {α : Type} {v : List α} {i : ℕ} {a : α} : at? v i = .ok a ↔ v[i]? = some a := by
  rw [at?]
  cases v[i]? <;> simp

theorem fault_of_at? {α : Type} {v : List α} {i : ℕ} {fault : Fault} (h : at? v i = .error fault) :
    fault = .undefined := by
  rw [at?] at h
  cases hv : v[i]? with
  | none =>
    rw [hv] at h
    exact (Except.error.inj h).symm
  | some a =>
    rw [hv] at h
    cases h

/-- `v.at(i)`: throws past the end. -/
def atChecked? {α : Type} (v : List α) (i : ℕ) : Except Fault α :=
  match v[i]? with
  | some a => .ok a
  | none => .error .outOfRange

/-- `v[i]` with an index that has been computed as an `int`. -/
def atInt? {α : Type} (v : List α) (i : ℤ) : Except Fault α :=
  if i < 0 then .error .undefined else at? v i.toNat

theorem atInt?_of_lt {α : Type} {v : List α} {i : ℤ} (h₀ : 0 ≤ i) (h : i.toNat < v.length) :
    atInt? v i = .ok v[i.toNat] := by
  rw [atInt?, if_neg (not_lt.mpr h₀), at?_of_lt h]

/-- `f(v[i])` in place, with an index that has been computed as an `int`. -/
def modifyInt? {α : Type} (v : List α) (i : ℤ) (f : α → α) : Except Fault (List α) :=
  if i < 0 ∨ v.length ≤ i.toNat then .error .undefined else .ok (v.modify i.toNat f)

theorem modifyInt?_of_lt {α : Type} {v : List α} {i : ℤ} (h₀ : 0 ≤ i) (h : i.toNat < v.length)
    (f : α → α) : modifyInt? v i f = .ok (v.modify i.toNat f) := by
  rw [modifyInt?, if_neg]
  rintro (hneg | hlen)
  · exact not_lt.mpr h₀ hneg
  · exact Nat.not_le.mpr h hlen

end BurstIoT
