import Mathlib.Algebra.Ring.Nat
import Mathlib.Data.Nat.Size
import Mathlib.Order.Nat
import Mathlib.Tactic.SplitIfs

/-!
# Natural numbers as floats

A floating-point number keeps the leading bits of an integer, 24 of them in a `float`.  An integer
of more bits lies between two multiples of a power of two, the unit in the last place (`ulp`), and
becomes the nearer one, or, half-way, the one with an even quotient (`roundBits`).

Rounding keeps what has few bits (`roundBits_of_lt`) and does not reverse the order
(`roundBits_mono`), so among rounded numbers a least one stays a least one; but different numbers
can become the same.
-/

namespace BurstIoT
namespace FloatRounding

/-- The unit in the last place of `n`, with `p` bits. -/
def ulp (p n : ℕ) : ℕ :=
  2 ^ (n.size - p)

/-- `n` with its leading `p` bits: rounded to the nearest, half-way to the even one. -/
def roundBits (p n : ℕ) : ℕ :=
  if 2 * (n % ulp p n) < ulp p n ∨ 2 * (n % ulp p n) = ulp p n ∧ n / ulp p n % 2 = 0 then
    n / ulp p n * ulp p n
  else (n / ulp p n + 1) * ulp p n

/-- An integer as a `float`. -/
def toFloat (n : ℕ) : ℕ :=
  roundBits 24 n

variable {p m n : ℕ}

theorem ulp_pos (p n : ℕ) : 0 < ulp p n :=
  Nat.two_pow_pos _

/-- **Few bits are kept.** -/
theorem roundBits_of_lt (h : n < 2 ^ p) : roundBits p n = n := by
  have hulp : ulp p n = 1 := by
    rw [ulp, Nat.sub_eq_zero_of_le (Nat.size_le.mpr h), Nat.pow_zero]
  rw [roundBits, hulp, Nat.mod_one, if_pos (Or.inl (by decide)), Nat.div_one, Nat.mul_one]

theorem le_roundBits (p n : ℕ) : n / ulp p n * ulp p n ≤ roundBits p n := by
  rw [roundBits]
  split_ifs
  · exact le_refl _
  · exact Nat.mul_le_mul_right _ (Nat.le_succ _)

theorem roundBits_le (p n : ℕ) : roundBits p n ≤ (n / ulp p n + 1) * ulp p n := by
  rw [roundBits]
  split_ifs
  · exact Nat.mul_le_mul_right _ (Nat.le_succ _)
  · exact le_refl _

/-- Numbers with one unit in the last place. -/
theorem roundBits_mono_of_ulp_eq (hle : m ≤ n) (hulp : ulp p m = ulp p n) :
    roundBits p m ≤ roundBits p n := by
  rcases (Nat.div_le_div_right hle : m / ulp p n ≤ n / ulp p n).lt_or_eq with hlt | heq
  · calc roundBits p m ≤ (m / ulp p n + 1) * ulp p n := hulp ▸ roundBits_le p m
      _ ≤ n / ulp p n * ulp p n := Nat.mul_le_mul_right _ hlt
      _ ≤ roundBits p n := le_roundBits p n
  · have hm := Nat.div_add_mod m (ulp p n)
    have hn := Nat.div_add_mod n (ulp p n)
    have hmod : m % ulp p n ≤ n % ulp p n := by
      rw [heq] at hm
      omega
    rw [roundBits, roundBits, hulp, heq]
    split_ifs with hdown hdown'
    · exact le_refl _
    · exact Nat.mul_le_mul_right _ (Nat.le_succ _)
    · omega
    · exact le_refl _

/-- A number is rounded up to the next power of two at most. -/
theorem roundBits_le_pow (hp : p ≤ m.size) : roundBits p m ≤ 2 ^ m.size := by
  have hpow : 2 ^ m.size = 2 ^ p * ulp p m := by
    rw [ulp, ← Nat.pow_add, Nat.add_sub_cancel' hp]
  have hquot : m / ulp p m < 2 ^ p := by
    rw [Nat.div_lt_iff_lt_mul (ulp_pos p m), ← hpow]
    exact Nat.lt_size_self m
  rw [hpow]
  exact (roundBits_le p m).trans (Nat.mul_le_mul_right _ hquot)

/-- It is rounded down to the power of two below it at most. -/
theorem pow_le_roundBits (hp : 0 < p) (hn : n ≠ 0) : 2 ^ (n.size - 1) ≤ roundBits p n := by
  have hsize : 0 < n.size := Nat.size_pos.mpr (Nat.pos_of_ne_zero hn)
  have hpow : 2 ^ (n.size - 1) = 2 ^ (n.size - 1 - (n.size - p)) * ulp p n := by
    rw [ulp, ← Nat.pow_add]
    congr 1
    omega
  have hle : 2 ^ (n.size - 1) ≤ n := Nat.lt_size.mp (by omega)
  rw [hpow]
  refine (Nat.mul_le_mul_right _ ?_).trans (le_roundBits p n)
  rwa [Nat.le_div_iff_mul_le (ulp_pos p n), ← hpow]

/-- **Rounding keeps the order.** -/
theorem roundBits_mono (hp : 0 < p) (hle : m ≤ n) : roundBits p m ≤ roundBits p n := by
  by_cases hm : m < 2 ^ p
  · rw [roundBits_of_lt hm]
    by_cases hn : n < 2 ^ p
    · rwa [roundBits_of_lt hn]
    · -- the larger number has more bits, so it stays at least `2 ^ p`
      have hsize : p ≤ n.size - 1 := by
        have := Nat.lt_size.mpr (not_lt.mp hn)
        omega
      have hne : n ≠ 0 := fun h => hn (h ▸ Nat.two_pow_pos p)
      exact hm.le.trans ((Nat.pow_le_pow_right (by decide) hsize).trans (pow_le_roundBits hp hne))
  · have hsize : p ≤ m.size := (Nat.lt_size.mpr (not_lt.mp hm)).le
    rcases (Nat.size_le_size hle).lt_or_eq with hlt | heq
    · have hne : n ≠ 0 := by
        rintro rfl
        exact absurd hlt (Nat.not_lt_zero _)
      refine (roundBits_le_pow hsize).trans (le_trans ?_ (pow_le_roundBits hp hne))
      exact Nat.pow_le_pow_right (by decide) (by omega)
    · exact roundBits_mono_of_ulp_eq hle (by rw [ulp, ulp, heq])

/-! ## The `float`s -/

theorem toFloat_mono (h : m ≤ n) : toFloat m ≤ toFloat n :=
  roundBits_mono (by decide) h

theorem toFloat_of_le (h : n ≤ 2 ^ 24) : toFloat n = n := by
  rcases h.lt_or_eq with hlt | rfl
  · exact roundBits_of_lt hlt
  · decide

/-- Integers of 25 bits: the first that a `float` does not have, and the next. -/
example : toFloat 16777217 = 16777216 ∧ toFloat 16777219 = 16777220 := by decide

end FloatRounding
end BurstIoT
