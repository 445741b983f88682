import Mathlib.Data.List.Induction
import Mathlib.Data.List.ReduceOption
import BurstIoT.KException
import BurstIoT.Library.CheckedLoop
import BurstIoT.Library.MixedRadix

/-!
# The combinations of the parameters

`Combiner.h` goes through the product of some arrays: `indices` is an odometer whose last position
turns fastest, and `getNext` returns the elements it points at and advances it.

While it is not finished, the indices are a numeral whose bases are the lengths of the arrays, and
one call adds one to its value (`getNext_ok`).  So the loop of `LabelRateExperiment` runs its body
on each combination once, in lexicographic order of the positions (`whileUnfinished_eq`).
-/

namespace BurstIoT

open MixedRadix (IsNumeral value numeral numerals value_concat)

/-- `Combiner`. -/
structure Combiner where
  arrays : List (List ℤ)
  indices : List ℕ
  finished : Bool
  deriving DecidableEq, Repr

namespace Combiner

/-- The constructor. -/
def ofArrays (arrays : List (List ℤ)) : Combiner where
  arrays
  indices := List.replicate arrays.length 0
  finished := false

/-- `isFinished`. -/
def isFinished (c : Combiner) : Bool :=
  c.finished

/-- One iteration of the first loop of `getNext`. -/
def pushElement (c : Combiner) (result : List ℤ) (i : ℕ) : Except Fault (List ℤ) := do
  let array ← at? c.arrays i
  let index ← at? c.indices i
  let element ← at? array index
  return result ++ [element]

/-- The second loop of `getNext`, at the position `i`: the indices, and whether it has set
`finished`. -/
def advance (arrays : List (List ℤ)) (indices : List ℕ) (i : ℕ) :
    Except Fault (List ℕ × Bool) :=
  if i < arrays.length then do
    let index ← at? indices i
    let indices := indices.set i (index + 1)
    let array ← at? arrays i
    if index + 1 ≥ array.length then
      let indices := indices.set i 0
      match i with
      | 0 => return (indices, true)
      | i + 1 => advance arrays indices i
    else return (indices, false)
  else .ok (indices, false)

/-- `getNext`.  Without arrays the second loop starts at `arrays.size() - 1`, which wraps around and
is no position either way. -/
def getNext (c : Combiner) : Except Fault (List ℤ × Combiner) :=
  if c.finished then .ok ([], c)
  else do
    let result ← (List.range c.arrays.length).foldlM c.pushElement []
    let (indices, finished) ← advance c.arrays c.indices (c.arrays.length - 1)
    return (result, { c with indices, finished })

/-- `while (!combiner.isFinished()) { cfg = combiner.getNext(); … }`.  `none` means that the fuel
has run out. -/
def whileUnfinished {σ : Type} (body : σ → List ℤ → Except Fault σ) :
    ℕ → Combiner → σ → Option (Except Fault (Combiner × σ))
  | 0, _, _ => none
  | fuel + 1, c, s =>
    if c.isFinished then some (.ok (c, s))
    else
      match c.getNext with
      | .error fault => some (.error fault)
      | .ok (cfg, c') =>
        match body s cfg with
        | .error fault => some (.error fault)
        | .ok s' => whileUnfinished body fuel c' s'

/-- What `getNext` returns until the combiner is finished. -/
def untilFinished (fuel : ℕ) (c : Combiner) : Option (Except Fault (Combiner × List (List ℤ))) :=
  whileUnfinished (fun results cfg => .ok (results ++ [cfg])) fuel c []

/-- The elements of some arrays at a position in each. -/
def elementsAt (arrays : List (List ℤ)) (v : List ℕ) : List (Option ℤ) :=
  List.zipWith (fun array index => array[index]?) arrays v

/-! ## One call -/

theorem at?_append_cons {α : Type} {front : List α} {i : ℕ} (h : front.length = i) (a : α)
    (behind : List α) : at? (front ++ a :: behind) i = .ok a := by
  rw [at?_eq_ok, ← h, List.getElem?_append_right (Nat.le_refl _), Nat.sub_self]
  rfl

def carry (arrays : List (List ℤ)) (indices : List ℕ) : ℕ → Except Fault (List ℕ × Bool)
  | 0 => .ok (indices, true)
  | i + 1 => advance arrays indices i

/-- One position of the odometer. -/
theorem advance_eq {front behind : List (List ℤ)} {v z : List ℕ} {i : ℕ}
    (hfront : front.length = i) (hv : v.length = i) (array : List ℤ) (d : ℕ) :
    advance (front ++ array :: behind) (v ++ d :: z) i =
      if d + 1 ≥ array.length then carry (front ++ array :: behind) (v ++ 0 :: z) i
      else .ok (v ++ (d + 1) :: z, false) := by
  have hlt : i < (front ++ array :: behind).length := by
    rw [List.length_append, List.length_cons]
    omega
  have hset : ∀ e e' : ℕ, (v ++ e :: z).set i e' = v ++ e' :: z := fun e e' => by
    rw [← hv, List.set_append_right _ _ (Nat.le_refl _), Nat.sub_self, List.set_cons_zero]
  rw [advance, if_pos hlt, at?_append_cons hfront, at?_append_cons hv]
  dsimp only [bind, Except.bind]
  rw [hset, hset]
  cases i with
  | zero => rfl
  | succ i => rfl

/-- The bases of the odometer. -/
def lengths (arrays : List (List ℤ)) : List ℕ :=
  arrays.map List.length

structure Advanced (arrays : List (List ℤ)) (v v' : List ℕ) (finished : Bool) : Prop where
  last : finished = true → value (lengths arrays) v + 1 = (lengths arrays).prod
  next : finished = false → IsNumeral (lengths arrays) v' ∧
    value (lengths arrays) v' = value (lengths arrays) v + 1

/-- **The odometer adds one.** -/
theorem carry_append (front : List (List ℤ)) {v : List ℕ}
    (hv : IsNumeral (lengths front) v) (behind : List (List ℤ)) (z : List ℕ) :
    ∃ v' finished, carry (front ++ behind) (v ++ z) front.length = .ok (v' ++ z, finished) ∧
      Advanced front v v' finished := by
  induction front using List.reverseRecOn generalizing v behind z with
  | nil =>
    cases hv
    exact ⟨[], true, rfl, fun _ => rfl, fun h => absurd h (by decide)⟩
  | append_singleton front array ih =>
    have hlengths : lengths (front ++ [array]) = lengths front ++ [array.length] :=
      List.map_append ..
    rw [hlengths] at hv
    obtain ⟨u, d, rfl, hu, hd⟩ := hv.exists_concat
    have hlength : u.length = (lengths front).length := hu.length_eq
    have hfront : u.length = front.length := by
      rw [hlength, lengths, List.length_map]
    rw [List.length_append, List.length_singleton, carry, List.append_assoc, List.append_assoc]
    show ∃ v' finished, advance (front ++ array :: behind) (u ++ d :: z) front.length = _ ∧ _
    rw [advance_eq rfl hfront]
    by_cases hcarry : d + 1 ≥ array.length
    · obtain ⟨u', finished, hrun, hlast, hnext⟩ := ih hu (array :: behind) (0 :: z)
      have hdigit : d + 1 = array.length := le_antisymm hd hcarry
      rw [if_pos hcarry, hrun]
      refine ⟨u' ++ [0], finished, by rw [List.append_assoc]; rfl, fun h => ?_, fun h => ?_⟩
      · rw [hlengths, value_concat hlength, List.prod_append, List.prod_singleton, ← hlast h,
          Nat.succ_mul, Nat.add_assoc, hdigit]
      · obtain ⟨hu', hvalue⟩ := hnext h
        rw [hlengths, value_concat hlength, value_concat hu'.length_eq, hvalue]
        refine ⟨hu'.concat (Nat.zero_lt_of_lt hd), ?_⟩
        rw [Nat.succ_mul, Nat.add_assoc, Nat.add_assoc, hdigit, Nat.add_zero]
    · rw [if_neg hcarry]
      refine ⟨u ++ [d + 1], false, by rw [List.append_assoc]; rfl,
        fun h => absurd h (by decide), fun _ => ?_⟩
      rw [hlengths, value_concat hlength, value_concat hlength]
      exact ⟨hu.concat (Nat.not_le.mp hcarry), rfl⟩

/-- The first loop collects the elements. -/
theorem pushElements_ok {c : Combiner} (hc : IsNumeral (lengths c.arrays) c.indices) {n : ℕ}
    (hn : n ≤ c.arrays.length) :
    ∃ result, (List.range n).foldlM c.pushElement [] = .ok result ∧
      result.map some = (elementsAt c.arrays c.indices).take n := by
  induction n with
  | zero => exact ⟨[], rfl, rfl⟩
  | succ n ih =>
    obtain ⟨result, hrun, hresult⟩ := ih (Nat.le_of_succ_le hn)
    have hlength : c.indices.length = c.arrays.length := by
      rw [hc.length_eq, lengths, List.length_map]
    have hindices : n < c.indices.length := by omega
    have hlt : c.indices[n] < c.arrays[n].length := by
      have := hc.get (i := n) hindices (by rw [lengths, List.length_map]; exact hn)
      simpa [lengths] using this
    refine ⟨result ++ [c.arrays[n][c.indices[n]]], ?_, ?_⟩
    · rw [List.range_succ, List.foldlM_append, hrun]
      show [n].foldlM c.pushElement result = _
      rw [List.foldlM_cons, pushElement, at?_of_lt hn, at?_of_lt hindices]
      dsimp only [bind, Except.bind]
      rw [at?_of_lt hlt]
      rfl
    · rw [List.map_append, hresult, List.take_add_one]
      congr 1
      rw [elementsAt, List.getElem?_zipWith, List.getElem?_eq_getElem hn,
        List.getElem?_eq_getElem hindices]
      simp [hlt]

/-- **A call before the end** returns the elements at the indices, and adds one to their value. -/
theorem getNext_ok {c : Combiner} (hfinished : c.finished = false) (hne : c.arrays ≠ [])
    (hc : IsNumeral (lengths c.arrays) c.indices) :
    ∃ result c', c.getNext = .ok (result, c') ∧
      result.map some = elementsAt c.arrays c.indices ∧ c'.arrays = c.arrays ∧
      Advanced c.arrays c.indices c'.indices c'.finished := by
  obtain ⟨result, hpush, hresult⟩ := pushElements_ok hc (Nat.le_refl _)
  obtain ⟨indices, finished, hcarry, hadvanced⟩ := carry_append c.arrays hc [] []
  rw [List.append_nil, List.append_nil, List.append_nil] at hcarry
  have hadvance : advance c.arrays c.indices (c.arrays.length - 1) = .ok (indices, finished) := by
    rw [← hcarry]
    obtain ⟨n, hn⟩ := Nat.exists_eq_succ_of_ne_zero (mt List.length_eq_zero_iff.mp hne)
    rw [hn]
    rfl
  refine ⟨result, { c with indices, finished }, ?_, ?_, rfl, hadvanced⟩
  · rw [getNext, if_neg (by rw [hfinished]; decide), hpush]
    dsimp only [bind, Except.bind]
    rw [hadvance]
    rfl
  · rw [hresult, List.take_of_length_le]
    rw [elementsAt, List.length_zipWith]
    exact Nat.min_le_left _ _

/-! ## The loop -/

/-- The combiner after some calls, as many as the value of its indices. -/
structure Counts (arrays : List (List ℤ)) (n : ℕ) (c : Combiner) : Prop where
  arrays_eq : c.arrays = arrays
  finished : c.finished = decide (n = (lengths arrays).prod)
  indices : n < (lengths arrays).prod →
    IsNumeral (lengths arrays) c.indices ∧ value (lengths arrays) c.indices = n

theorem counts_ofArrays {arrays : List (List ℤ)} (harrays : ∀ array ∈ arrays, array ≠ []) :
    Counts arrays 0 (ofArrays arrays) := by
  have hpos : ∀ b ∈ lengths arrays, 0 < b := by
    intro b hb
    obtain ⟨array, harray, rfl⟩ := List.mem_map.mp hb
    exact List.length_pos_iff.mpr (harrays array harray)
  have hzeros := MixedRadix.isNumeral_zeros hpos
  rw [lengths, List.length_map] at hzeros
  have hprod : 0 < (lengths arrays).prod := Nat.zero_lt_of_lt (MixedRadix.value_lt hzeros.1)
  exact ⟨rfl, (decide_eq_false hprod.ne).symm, fun _ => hzeros⟩

/-- **One more call.** -/
theorem Counts.getNext {arrays : List (List ℤ)} (hne : arrays ≠ []) {n : ℕ} {c : Combiner}
    (h : Counts arrays n c) (hn : n < (lengths arrays).prod) :
    ∃ result c', c.getNext = .ok (result, c') ∧
      result.map some = elementsAt arrays (numeral (lengths arrays) n) ∧
      Counts arrays (n + 1) c' := by
  obtain ⟨hnumeral, hvalue⟩ := h.indices hn
  have hfinished : c.finished = false := h.finished.trans (decide_eq_false hn.ne)
  have harrays := h.arrays_eq
  obtain ⟨result, c', hrun, hresult, harrays', hlast, hnext⟩ :=
    getNext_ok hfinished (harrays ▸ hne) (harrays ▸ hnumeral)
  rw [harrays] at hresult harrays' hlast hnext
  rw [hvalue] at hlast hnext
  refine ⟨result, c', hrun, ?_, harrays', ?_, fun hlt => ?_⟩
  · rw [hresult, ← hvalue, MixedRadix.numeral_value hnumeral]
  · cases hc' : c'.finished with
    | true => exact (decide_eq_true (hlast hc')).symm
    | false =>
      obtain ⟨hnumeral', hvalue'⟩ := hnext hc'
      have hlt := MixedRadix.value_lt hnumeral'
      exact (decide_eq_false (by omega)).symm
  · refine hnext ?_
    cases hc' : c'.finished with
    | true => exact absurd (hlast hc') hlt.ne
    | false => rfl

/-- **The loop runs its body on the combinations that are left**, one after another. -/
theorem whileUnfinished_eq {arrays : List (List ℤ)} (hne : arrays ≠ []) (m : ℕ) {n : ℕ}
    (hn : n + m = (lengths arrays).prod) {c : Combiner} (h : Counts arrays n c) :
    ∃ (results : List (List ℤ)) (last : Combiner), results.map (List.map some) =
        (List.range' n m).map (fun k => elementsAt arrays (numeral (lengths arrays) k)) ∧
      Counts arrays (lengths arrays).prod last ∧
      ∀ {σ : Type} (body : σ → List ℤ → Except Fault σ) (fuel : ℕ) (s : σ), m < fuel →
        whileUnfinished body fuel c s = some ((results.foldlM body s).map (last, ·)) := by
  induction m generalizing n c with
  | zero =>
    obtain rfl : n = (lengths arrays).prod := hn
    have hfinished : c.isFinished = true := h.finished.trans (decide_eq_true rfl)
    refine ⟨[], c, rfl, h, fun body fuel s hfuel => ?_⟩
    obtain ⟨fuel, rfl⟩ := Nat.exists_eq_succ_of_ne_zero hfuel.ne'
    rw [whileUnfinished, if_pos hfinished]
    rfl
  | succ m ih =>
    have hlt : n < (lengths arrays).prod := by omega
    have hfinished : c.isFinished = false := h.finished.trans (decide_eq_false hlt.ne)
    obtain ⟨result, c', hrun, hresult, hc'⟩ := h.getNext hne hlt
    obtain ⟨results, last, hresults, hlast, hloop⟩ := ih (by omega) hc'
    refine ⟨result :: results, last, ?_, hlast, fun body fuel s hfuel => ?_⟩
    · rw [List.map_cons, hresult, hresults, List.range'_succ, List.map_cons]
    · obtain ⟨fuel, rfl⟩ := Nat.exists_eq_succ_of_ne_zero (Nat.zero_lt_of_lt hfuel).ne'
      rw [whileUnfinished, if_neg (by rw [hfinished]; decide), hrun, List.foldlM_cons]
      dsimp only
      cases hbody : body s result with
      | error fault => rfl
      | ok s' => exact hloop body fuel s' (Nat.lt_of_succ_lt_succ hfuel)

theorem foldlM_push (l done : List (List ℤ)) :
    l.foldlM (fun results cfg => (.ok (results ++ [cfg]) : Except Fault (List (List ℤ)))) done =
      .ok (done ++ l) := by
  induction l generalizing done with
  | nil => rw [List.append_nil]; rfl
  | cons cfg l ih =>
    rw [List.foldlM_cons]
    exact (ih (done ++ [cfg])).trans (by rw [List.append_assoc]; rfl)

theorem mem_numerals_lengths {arrays : List (List ℤ)} {v : List ℕ} :
    v ∈ numerals (lengths arrays) ↔
      List.Forall₂ (fun index array => index < array.length) v arrays := by
  rw [MixedRadix.mem_numerals, IsNumeral, lengths, List.forall₂_map_right_iff]

/-- **Without arrays** the loop does not end: each call returns the empty vector, and none is the
last one. -/
theorem whileUnfinished_ofArrays_nil {σ : Type} (body : σ → List ℤ → Except Fault σ) {s : σ}
    (hbody : body s [] = .ok s) (fuel : ℕ) : whileUnfinished body fuel (ofArrays []) s = none := by
  induction fuel with
  | zero => rfl
  | succ fuel ih =>
    have hnext : (ofArrays []).getNext = .ok ([], ofArrays []) := rfl
    rw [whileUnfinished, if_neg (by decide), hnext]
    dsimp only
    rw [hbody]
    exact ih

/-- **The loop runs its body on the product**, in lexicographic order. -/
theorem whileUnfinished_ofArrays {arrays : List (List ℤ)} (hne : arrays ≠ [])
    (harrays : ∀ array ∈ arrays, array ≠ []) :
    ∃ (cfgs : List (List ℤ)) (last : Combiner),
      cfgs.map (List.map some) = (numerals (lengths arrays)).map (elementsAt arrays) ∧
      ∀ {σ : Type} (body : σ → List ℤ → Except Fault σ) (fuel : ℕ) (s : σ),
        (lengths arrays).prod < fuel →
          whileUnfinished body fuel (ofArrays arrays) s =
            some ((cfgs.foldlM body s).map (last, ·)) := by
  obtain ⟨cfgs, last, hcfgs, -, hloop⟩ := whileUnfinished_eq hne (lengths arrays).prod
    (Nat.zero_add _) (counts_ofArrays harrays)
  refine ⟨cfgs, last, ?_, hloop⟩
  rw [hcfgs, numerals, List.map_map, List.range_eq_range']
  rfl

/-- A combination takes an element of each array. -/
theorem exists_elementsAt {arrays : List (List ℤ)} {cfg : List ℤ} :
    (∃ v, List.Forall₂ (fun index array => index < array.length) v arrays ∧
        elementsAt arrays v = cfg.map some) ↔ List.Forall₂ (· ∈ ·) cfg arrays := by
  constructor
  · rintro ⟨v, hv, helements⟩
    induction hv generalizing cfg with
    | nil =>
      obtain rfl : cfg = [] := List.map_eq_nil_iff.mp helements.symm
      exact .nil
    | cons _ _ ih =>
      obtain ⟨a, cfg, rfl, ha, hcfg⟩ := List.map_eq_cons_iff.mp helements.symm
      exact .cons (List.mem_of_getElem? ha.symm) (ih hcfg.symm)
  · intro h
    induction h with
    | nil => exact ⟨[], .nil, rfl⟩
    | @cons a array cfg arrays ha _ ih =>
      obtain ⟨v, hv, helements⟩ := ih
      obtain ⟨i, hi⟩ := List.mem_iff_getElem?.mp ha
      refine ⟨i :: v, .cons (List.getElem?_eq_some_iff.mp hi).1 hv, ?_⟩
      rw [List.map_cons, ← helements, ← hi]
      rfl

/-- **The product** has the combinations that take an element of each array, and no others. -/
theorem mem_product {arrays cfgs : List (List ℤ)}
    (hcfgs : cfgs.map (List.map some) = (numerals (lengths arrays)).map (elementsAt arrays))
    (cfg : List ℤ) : cfg ∈ cfgs ↔ List.Forall₂ (· ∈ ·) cfg arrays := by
  have hsome : Function.Injective (List.map (some : ℤ → Option ℤ)) :=
    List.map_injective_iff.mpr fun _ _ heq => Option.some.inj heq
  rw [← List.mem_map_of_injective hsome, hcfgs, List.mem_map, ← exists_elementsAt]
  simp only [mem_numerals_lengths]

/-- The combinations, in the order in which `getNext` returns them. -/
def combinations (arrays : List (List ℤ)) : List (List ℤ) :=
  (numerals (lengths arrays)).map fun v => (elementsAt arrays v).reduceOption

theorem eq_combinations {arrays cfgs : List (List ℤ)}
    (hcfgs : cfgs.map (List.map some) = (numerals (lengths arrays)).map (elementsAt arrays)) :
    cfgs = combinations arrays := by
  have hread := congrArg (List.map List.reduceOption) hcfgs
  have hsome : List.reduceOption ∘ List.map (some : ℤ → Option ℤ) = id := by
    funext cfg
    exact List.filterMap_map.trans List.filterMap_some
  rw [List.map_map, List.map_map, hsome, List.map_id] at hread
  exact hread

/-- **`Combiner` goes through the product.**  For arrays with elements, the calls of `getNext` until
`isFinished` are as many as there are positions in the product; they return the elements at the
positions in lexicographic order, each once, and the calls after them the empty vector. -/
theorem untilFinished_product (arrays : List (List ℤ)) (hne : arrays ≠ [])
    (harrays : ∀ array ∈ arrays, array ≠ []) :
    ∃ (positions : List (List ℕ)) (results : List (List ℤ)) (last : Combiner),
      positions.length = (arrays.map List.length).prod ∧ positions.Pairwise (· < ·) ∧
      (∀ v, v ∈ positions ↔ List.Forall₂ (fun index array => index < array.length) v arrays) ∧
      results.map (List.map some) = positions.map (elementsAt arrays) ∧
      (∀ fuel, (arrays.map List.length).prod < fuel →
        untilFinished fuel (ofArrays arrays) = some (.ok (last, results))) ∧
      last.isFinished = true ∧ last.getNext = .ok ([], last) := by
  obtain ⟨results, last, hresults, hlast, hloop⟩ :=
    whileUnfinished_eq hne (lengths arrays).prod (Nat.zero_add _) (counts_ofArrays harrays)
  have hfinished : last.finished = true := hlast.finished.trans (decide_eq_true rfl)
  refine ⟨numerals (lengths arrays), results, last, MixedRadix.length_numerals _,
    MixedRadix.pairwise_numerals _, fun v => mem_numerals_lengths, ?_, fun fuel hfuel => ?_,
    hfinished, if_pos hfinished⟩
  · rw [hresults, numerals, List.map_map, List.range_eq_range']
    rfl
  · rw [untilFinished, hloop _ fuel [] hfuel, foldlM_push]
    rfl

theorem untilFinished_product_pair :
    ∃ (positions : List (List ℕ)) (results : List (List ℤ)) (last : Combiner),
      positions.length = 2 ∧ positions.Pairwise (· < ·) ∧
      (∀ v, v ∈ positions ↔
        List.Forall₂ (fun index (array : List ℤ) => index < array.length) v [[20, 30], [1800]]) ∧
      results.map (List.map some) = positions.map (elementsAt [[20, 30], [1800]]) ∧
      (∀ fuel, 2 < fuel →
        untilFinished fuel (ofArrays [[20, 30], [1800]]) = some (.ok (last, results))) ∧
      last.isFinished = true ∧ last.getNext = .ok ([], last) :=
  untilFinished_product [[20, 30], [1800]] (by decide) (by decide)

end Combiner
end BurstIoT
