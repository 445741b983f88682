import Mathlib.Algebra.BigOperators.Group.List.Basic
import Mathlib.Algebra.Order.Group.Int
import Mathlib.Algebra.Ring.Int.Defs
import Mathlib.Algebra.Ring.Nat

/-!
# Machine integers

An `int` has 32 bits, as an `Int32`.  A sum that does not fit is taken modulo `2 ^ 32` into the
range from `-2 ^ 31` on (`wrapInt`), and so is an unsigned size that is kept in an `int` (`toInt`).

**Counters.**  A counter that starts at zero and is only ever added to may be followed as the
natural number of what it has counted.  The `int` is `toInt` of this number, as `toInt` turns sums
into wrapped sums (`toInt_add`).  It never exceeds the number, and is equal to it exactly below
`2 ^ 31` (`toInt_eq_iff`); so some counters sum up to what they have counted together exactly if
none of them has got there (`sum_toInt_eq_iff`).
-/

namespace BurstIoT

/-- The value of a sum that is kept in an `int`. -/
def wrapInt (n : ℤ) : ℤ :=
  (Int32.ofInt n).toInt

/-- A `std::size_t` as an `int`. -/
def toInt (size : ℕ) : ℤ :=
  (Int32.ofNat size).toInt

theorem wrapInt_eq_bmod (n : ℤ) : wrapInt n = n.bmod (2 ^ 32) :=
  Int32.toInt_ofInt

theorem toInt_eq_wrapInt (n : ℕ) : toInt n = wrapInt n :=
  Int32.toInt_ofNat'.trans (wrapInt_eq_bmod n).symm

/-! ## Wrapped sums -/

/-- An `int` differs from the sum by a multiple of `2 ^ 32`, and lies in its range. -/
theorem wrapInt_spec (n : ℤ) :
    (∃ k : ℤ, n = wrapInt n + 4294967296 * k) ∧
      -2147483648 ≤ wrapInt n ∧ wrapInt n < 2147483648 := by
  rw [wrapInt_eq_bmod]
  refine ⟨⟨n.bdiv (2 ^ 32), ?_⟩, Int.le_bmod (by decide), Int.bmod_lt (by decide)⟩
  exact (Int.bmod_add_bdiv n (2 ^ 32)).symm

/-- A sum in the range is kept as it is. -/
theorem wrapInt_of_mem {n : ℤ} (hlo : -2147483648 ≤ n) (hhi : n < 2147483648) : wrapInt n = n := by
  obtain ⟨⟨k, hk⟩, hmin, hmax⟩ := wrapInt_spec n
  omega

theorem wrapInt_natCast {n : ℕ} (h : n < 2 ^ 31) : wrapInt n = n :=
  wrapInt_of_mem (by omega) (by omega)

/-- An `int` is less than `2 ^ 31`. -/
theorem wrapInt_lt (n : ℤ) : wrapInt n < 2 ^ 31 :=
  (wrapInt_spec n).2.2

/-- A sum that is not below the range can only get smaller. -/
theorem wrapInt_le {n : ℤ} (h : -2147483648 ≤ n) : wrapInt n ≤ n := by
  obtain ⟨⟨k, hk⟩, hmin, hmax⟩ := wrapInt_spec n
  omega

/-- A sum above the range, of two in it, wraps once. -/
theorem wrapInt_of_le {n : ℤ} (hlo : 2147483648 ≤ n) (hhi : n < 4294967296) :
    wrapInt n = n - 4294967296 := by
  obtain ⟨⟨k, hk⟩, hmin, hmax⟩ := wrapInt_spec n
  omega

theorem wrapInt_neg {n : ℤ} (hlo : 2147483648 ≤ n) (hhi : n < 4294967296) : wrapInt n < 0 := by
  rw [wrapInt_of_le hlo hhi]
  omega

/-! ## Counters -/

theorem toInt_of_lt {n : ℕ} (h : n < 2 ^ 31) : toInt n = n :=
  (toInt_eq_wrapInt n).trans (wrapInt_natCast h)

/-- An `int` is less than `2 ^ 31`. -/
theorem toInt_lt (n : ℕ) : toInt n < 2 ^ 31 := by
  rw [toInt_eq_wrapInt]
  exact wrapInt_lt n

/-- From `2 ^ 31` on, an `int` is negative. -/
theorem toInt_neg {n : ℕ} (hlo : 2 ^ 31 ≤ n) (hhi : n < 2 ^ 32) : toInt n < 0 := by
  rw [toInt_eq_wrapInt]
  exact wrapInt_neg (by omega) (by omega)

theorem toInt_zero : toInt 0 = 0 := by
  decide

/-- **Counting on** is adding in the `int`. -/
theorem toInt_add (m n : ℕ) : wrapInt (toInt m + n) = toInt (m + n) := by
  have hcast : ((m + n : ℕ) : ℤ) = m + n := Int.natCast_add m n
  rw [toInt_eq_wrapInt, toInt_eq_wrapInt, hcast, wrapInt_eq_bmod, wrapInt_eq_bmod, wrapInt_eq_bmod]
  exact Int.bmod_add_bmod

theorem toInt_succ (n : ℕ) : wrapInt (toInt n + 1) = toInt (n + 1) :=
  toInt_add n 1

theorem toInt_le (n : ℕ) : toInt n ≤ n := by
  rw [toInt_eq_wrapInt]
  exact wrapInt_le (by omega)

/-- **A counter is what it has counted** exactly below `2 ^ 31`. -/
theorem toInt_eq_iff {n : ℕ} : toInt n = n ↔ n < 2 ^ 31 := by
  refine ⟨fun h => ?_, toInt_of_lt⟩
  have hlt := toInt_lt n
  omega

/-- **Counters sum up to what they have counted** exactly if all of them are below `2 ^ 31`. -/
theorem sum_toInt_eq_iff (l : List ℕ) :
    (l.map toInt).sum = (l.sum : ℕ) ↔ ∀ n ∈ l, n < 2 ^ 31 := by
  have hle : ∀ l : List ℕ, (l.map toInt).sum ≤ (l.sum : ℕ) := by
    intro l
    induction l with
    | nil => exact le_refl _
    | cons n l ih =>
      have hn := toInt_le n
      rw [List.map_cons, List.sum_cons, List.sum_cons]
      omega
  induction l with
  | nil => simp
  | cons n l ih =>
    have hn := toInt_le n
    have hl := hle l
    rw [List.map_cons, List.sum_cons, List.sum_cons, List.forall_mem_cons, ← toInt_eq_iff]
    constructor
    · intro h
      exact ⟨by omega, ih.mp (by omega)⟩
    · rintro ⟨h, h'⟩
      have hrest := ih.mpr h'
      omega

end BurstIoT
