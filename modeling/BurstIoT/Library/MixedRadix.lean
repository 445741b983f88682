import Mathlib.Algebra.BigOperators.Group.List.Basic
import Mathlib.Data.List.Forall2
import Mathlib.Data.List.Range
import Mathlib.Order.Basic

/-!
# Numerals with mixed bases

A numeral over a list of bases has a digit below each base, the most significant one first.  Its
`value` numbers the numerals from zero: the values are those below the product of the bases
(`value_lt`, `isNumeral_numeral`), and they are ordered as the numerals are, lexicographically
(`value_lt_value`).  So `numerals` lists the numerals in lexicographic order.

An odometer advances from the last digit on.  What it does to the value is seen from
`value_concat`, which splits off the last digit.
-/

namespace BurstIoT
namespace MixedRadix

/-- A digit below each base. -/
def IsNumeral (bases v : List ℕ) : Prop :=
  List.Forall₂ (· < ·) v bases

/-- The value of a numeral, the first digit being the most significant one. -/
def value : List ℕ → List ℕ → ℕ
  | _ :: bases, d :: v => d * bases.prod + value bases v
  | _, _ => 0

/-- The numeral with a value. -/
def numeral : List ℕ → ℕ → List ℕ
  | [], _ => []
  | _ :: bases, n => n / bases.prod :: numeral bases (n % bases.prod)

/-- The numerals, by their values. -/
def numerals (bases : List ℕ) : List (List ℕ) :=
  (List.range bases.prod).map (numeral bases)

theorem value_lt {bases v : List ℕ} (h : IsNumeral bases v) : value bases v < bases.prod := by
  induction h with
  | nil => exact Nat.one_pos
  | @cons d b v bases hd _ ih =>
    rw [value, List.prod_cons]
    calc d * bases.prod + value bases v < d * bases.prod + bases.prod :=
          Nat.add_lt_add_left ih _
      _ = (d + 1) * bases.prod := (Nat.succ_mul d _).symm
      _ ≤ b * bases.prod := Nat.mul_le_mul_right _ hd

/-- The first numeral. -/
theorem isNumeral_zeros {bases : List ℕ} (h : ∀ b ∈ bases, 0 < b) :
    IsNumeral bases (List.replicate bases.length 0) ∧
      value bases (List.replicate bases.length 0) = 0 := by
  induction bases with
  | nil => exact ⟨.nil, rfl⟩
  | cons b bases ih =>
    obtain ⟨hnumeral, hvalue⟩ := ih fun b hb => h b (List.mem_cons_of_mem _ hb)
    rw [List.length_cons, List.replicate_succ]
    refine ⟨.cons (h b List.mem_cons_self) hnumeral, ?_⟩
    rw [value, hvalue, Nat.zero_mul]

/-- **A number below the product of the bases** is the value of its numeral. -/
theorem isNumeral_numeral {bases : List ℕ} {n : ℕ} (h : n < bases.prod) :
    IsNumeral bases (numeral bases n) ∧ value bases (numeral bases n) = n := by
  induction bases generalizing n with
  | nil =>
    rw [List.prod_nil] at h
    exact ⟨.nil, (Nat.lt_one_iff.mp h).symm⟩
  | cons b bases ih =>
    rw [List.prod_cons] at h
    have hpos : 0 < bases.prod := Nat.pos_of_mul_pos_left (Nat.zero_lt_of_lt h)
    obtain ⟨hnumeral, hvalue⟩ := ih (Nat.mod_lt n hpos)
    refine ⟨.cons ((Nat.div_lt_iff_lt_mul hpos).mpr h) hnumeral, ?_⟩
    rw [numeral, value, hvalue]
    exact Nat.div_add_mod' n bases.prod

/-- **The values are ordered as the numerals are.** -/
theorem value_lt_value {bases v w : List ℕ} (hv : IsNumeral bases v) (hw : IsNumeral bases w)
    (h : v < w) : value bases v < value bases w := by
  induction hv generalizing w with
  | nil =>
    cases hw
    exact absurd h (List.not_lt_nil [])
  | @cons d b v bases _ hv ih =>
    cases hw with | @cons e _ w _ _ hw => ?_
    rw [value, value]
    rcases List.cons_lt_cons_iff.mp h with hlt | ⟨rfl, hlt⟩
    · calc d * bases.prod + value bases v < d * bases.prod + bases.prod :=
            Nat.add_lt_add_left (value_lt hv) _
        _ = (d + 1) * bases.prod := (Nat.succ_mul d _).symm
        _ ≤ e * bases.prod := Nat.mul_le_mul_right _ hlt
        _ ≤ e * bases.prod + value bases w := Nat.le_add_right _ _
    · exact Nat.add_lt_add_left (ih hw hlt) _

/-- Numerals with the same value are the same. -/
theorem value_injective {bases v w : List ℕ} (hv : IsNumeral bases v) (hw : IsNumeral bases w)
    (h : value bases v = value bases w) : v = w := by
  rcases lt_trichotomy v w with hlt | heq | hlt
  · exact absurd h (value_lt_value hv hw hlt).ne
  · exact heq
  · exact absurd h (value_lt_value hw hv hlt).ne'

theorem numeral_value {bases v : List ℕ} (h : IsNumeral bases v) :
    numeral bases (value bases v) = v := by
  obtain ⟨hnumeral, hvalue⟩ := isNumeral_numeral (value_lt h)
  exact value_injective hnumeral h hvalue

/-! ## All numerals -/

theorem length_numerals (bases : List ℕ) : (numerals bases).length = bases.prod := by
  rw [numerals, List.length_map, List.length_range]

theorem mem_numerals {bases v : List ℕ} : v ∈ numerals bases ↔ IsNumeral bases v := by
  rw [numerals, List.mem_map]
  constructor
  · rintro ⟨n, hn, rfl⟩
    exact (isNumeral_numeral (List.mem_range.mp hn)).1
  · intro h
    exact ⟨value bases v, List.mem_range.mpr (value_lt h), numeral_value h⟩

/-- **The numerals are listed in lexicographic order.** -/
theorem pairwise_numerals (bases : List ℕ) : (numerals bases).Pairwise (· < ·) := by
  rw [numerals, List.pairwise_map]
  refine List.pairwise_lt_range.imp_of_mem fun {m n} hm hn hlt => ?_
  obtain ⟨hm, hmvalue⟩ := isNumeral_numeral (List.mem_range.mp hm)
  obtain ⟨hn, hnvalue⟩ := isNumeral_numeral (List.mem_range.mp hn)
  by_contra hle
  rcases (not_lt.mp hle).lt_or_eq with hgt | heq
  · have := value_lt_value hn hm hgt
    omega
  · rw [heq] at hnvalue
    omega

/-! ## The last digit -/

theorem IsNumeral.concat {bases v : List ℕ} (h : IsNumeral bases v) {b d : ℕ} (hd : d < b) :
    IsNumeral (bases ++ [b]) (v ++ [d]) :=
  List.rel_append h (.cons hd .nil)

theorem IsNumeral.exists_concat {bases v : List ℕ} {b : ℕ} (h : IsNumeral (bases ++ [b]) v) :
    ∃ u d, v = u ++ [d] ∧ IsNumeral bases u ∧ d < b := by
  have hinit := List.forall₂_take bases.length h
  have hlast := List.forall₂_drop bases.length h
  rw [List.take_left] at hinit
  rw [List.drop_left] at hlast
  obtain ⟨d, rest, hd, hrest, heq⟩ := List.forall₂_cons_right_iff.mp hlast
  rw [List.forall₂_nil_right_iff.mp hrest] at heq
  refine ⟨v.take bases.length, d, ?_, hinit, hd⟩
  rw [← heq, List.take_append_drop]

theorem value_concat {bases v : List ℕ} (h : v.length = bases.length) (b d : ℕ) :
    value (bases ++ [b]) (v ++ [d]) = value bases v * b + d := by
  induction bases generalizing v with
  | nil =>
    rw [List.length_nil, List.length_eq_zero_iff] at h
    rw [h]
    simp [value]
  | cons c bases ih =>
    cases v with
    | nil => cases h
    | cons e v =>
      rw [List.cons_append, List.cons_append, value, value, ih (Nat.succ.inj h),
        List.prod_append, List.prod_singleton, Nat.add_mul, Nat.mul_assoc, Nat.add_assoc]

end MixedRadix
end BurstIoT
