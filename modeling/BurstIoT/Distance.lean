import Mathlib.Analysis.Real.Sqrt
import Mathlib.Analysis.SpecialFunctions.Log.Basic
import BurstIoT.Burst
import BurstIoT.Library.CheckedLoop

/-!
# The distance of two bursts

`Burst::Distance` compares the frequencies of signatures: shared signatures by the difference of the
square roots, the others by their frequency, and all of it scaled by the ratio of the two lengths.
The numbers are those of any field with a square root (`Elementary`), so exact reals are one choice;
how `float` rounds is left out.

The distance reads of a burst no more than `operator==` compares (`distance_congr`), and it does not
fail on bursts whose counters agree with their entries as long as the array `arr_blk2_check` has
room for the entries of the second one (`distance_ok`).

Bursts of very different lengths are given the distance one at once.  The lengths are compared after
adding the cut-off to them as `int`s, so this also happens to bursts that are too long for the sum
(`not_beyond_iff`).
-/

namespace BurstIoT

/-- The functions of `cmath` that are used on numbers. -/
class Elementary (F : Type) where
  sqrt : F → F
  log : F → F

noncomputable instance : Elementary ℝ where
  sqrt := Real.sqrt
  log := Real.log

section Numerals

/-! The constants of the source that are read as numbers of `F`. -/

instance atLeastTwo_two : Nat.AtLeastTwo 2 := ⟨by decide⟩

instance atLeastTwo_five : Nat.AtLeastTwo 5 := ⟨by decide⟩

instance atLeastTwo_seven : Nat.AtLeastTwo 7 := ⟨by decide⟩

instance atLeastTwo_ten : Nat.AtLeastTwo 10 := ⟨by decide⟩

instance atLeastTwo_hundred : Nat.AtLeastTwo 100 := ⟨by decide⟩

instance atLeastTwo_hundredOne : Nat.AtLeastTwo 101 := ⟨by decide⟩

end Numerals

namespace Burst

variable {F : Type} [Field F] [Elementary F]

/-- The search for a signature among the entries of the other burst that are not yet taken
(`arr_blk2_check`): the position and the count. -/
def findMatch (check : List Bool) (sig : Int16) (detail : List (Int16 × ℕ)) :
    List ℕ → Except Fault (Option (ℕ × ℕ))
  | [] => .ok none
  | j :: rest => do
    let taken ← at? check j
    if taken then findMatch check sig detail rest
    else
      let e ← at? detail j
      if e.1 = sig then return some (j, e.2)
      else findMatch check sig detail rest

/-- One iteration of the first loop of `Distance`. -/
def addSigDistance (b burst2 : Burst) (s : List Bool × F) (i : ℕ) :
    Except Fault (List Bool × F) := do
  let e ← at? b.packetDetail i
  let found ← findMatch s.1 e.1 burst2.packetDetail (List.range burst2.uniPktNum.toNat)
  match found with
  | some (j, cnt2) =>
    return (s.1.set j true, s.2 + (Elementary.sqrt ((e.2 : F) / (b.pktNum : F)) -
      Elementary.sqrt ((cnt2 : F) / (burst2.pktNum : F))) ^ 2)
  | none => return (s.1, s.2 + (e.2 : F) / (b.pktNum : F))

/-- One iteration of the second loop of `Distance`: the packets of the entries not taken. -/
def addRemainder (check : List Bool) (detail : List (Int16 × ℕ)) (cnt2Remain : ℕ) (i : ℕ) :
    Except Fault ℕ := do
  let taken ← at? check i
  if taken then return cnt2Remain
  else
    let e ← at? detail i
    return cnt2Remain + e.2

/-- The test of a cut-off: the lengths are more than `limit` packets apart.  The sums are `int`s. -/
def Beyond (limit : ℕ) (b burst2 : Burst) : Prop :=
  (burst2.pktNum : ℤ) > wrapInt (b.pktNum + limit) ∨
    (b.pktNum : ℤ) > wrapInt (burst2.pktNum + limit)

instance (limit : ℕ) (b burst2 : Burst) : Decidable (Beyond limit b burst2) :=
  inferInstanceAs (Decidable (_ ∨ _))

/-- The cut-off of `Distance`: more than 120 packets apart. -/
def Far (b burst2 : Burst) : Prop := Beyond 120 b burst2

instance (b burst2 : Burst) : Decidable (Far b burst2) :=
  inferInstanceAs (Decidable (Beyond 120 b burst2))

/-- `Distance`.  `arr_blk2_check` has 101 elements. -/
def distance (b burst2 : Burst) : Except Fault F :=
  if Far b burst2 then .ok 1
  else do
    let (check, distance) ← (List.range b.uniPktNum.toNat).foldlM (addSigDistance b burst2)
      (List.replicate 101 false, (0 : F))
    let cnt2Remain ← (List.range burst2.uniPktNum.toNat).foldlM
      (addRemainder check burst2.packetDetail) 0
    let distance := distance + (cnt2Remain : F) / (burst2.pktNum : F)
    if b.pktNum > burst2.pktNum then
      return Elementary.sqrt (distance * (b.pktNum : F) / (burst2.pktNum : F))
    else
      return Elementary.sqrt (distance * (burst2.pktNum : F) / (b.pktNum : F))

/-! ## The cut-off -/

theorem beyond_comm {limit : ℕ} {a b : Burst} : Beyond limit a b ↔ Beyond limit b a :=
  or_comm

/-- **Within a cut-off** are lengths that differ by at most the limit, and neither of which is so
long that adding the limit overflows. -/
theorem not_beyond_iff {limit : ℕ} (hlimit : limit < 2 ^ 31) {a b : Burst} :
    ¬ Beyond limit a b ↔ a.pktNum ≤ b.pktNum + limit ∧ b.pktNum ≤ a.pktNum + limit ∧
      a.pktNum + limit < 2 ^ 31 ∧ b.pktNum + limit < 2 ^ 31 := by
  obtain ⟨⟨k, hk⟩, hmin, hmax⟩ := wrapInt_spec (a.pktNum + limit)
  obtain ⟨⟨k', hk'⟩, hmin', hmax'⟩ := wrapInt_spec (b.pktNum + limit)
  rw [Beyond, not_or, gt_iff_lt, gt_iff_lt, not_lt, not_lt]
  constructor
  · rintro ⟨hle, hle'⟩
    -- both lengths are below `2 ^ 31`, so a sum that has wrapped is negative
    omega
  · rintro ⟨hle, hle', hlt, hlt'⟩
    omega

theorem far_comm {a b : Burst} : Far a b ↔ Far b a :=
  beyond_comm

theorem not_far_iff {a b : Burst} :
    ¬ Far a b ↔ a.pktNum ≤ b.pktNum + 120 ∧ b.pktNum ≤ a.pktNum + 120 ∧
      a.pktNum + 120 < 2 ^ 31 ∧ b.pktNum + 120 < 2 ^ 31 :=
  not_beyond_iff (by decide)

/-- Bursts of one length are within the cut-off, unless they are too long for it. -/
theorem not_far_of_eq {a b : Burst} (h : a.pktNum = b.pktNum) (hfits : b.pktNum + 120 < 2 ^ 31) :
    ¬ Far a b :=
  not_far_iff.mpr (by omega)

/-- The cut-off reads the lengths only. -/
theorem far_congr {a b : Burst} (h : a.pktNum = b.pktNum) (c : Burst) : Far a c ↔ Far b c := by
  unfold Far Beyond
  rw [h]

/-- Beyond the cut-off the distance is one. -/
theorem distance_of_far {a b : Burst} (h : Far a b) : (a.distance b : Except Fault F) = .ok 1 :=
  if_pos h

/-- **Equal bursts have equal distances.** -/
theorem distance_congr {a b : Burst} (h : a.same b = true) (burst2 : Burst) :
    (a.distance burst2 : Except Fault F) = b.distance burst2 := by
  obtain ⟨huni, hpkt, hdetail⟩ := same_iff.mp h
  have hloop : ∀ s : List Bool × F,
      (List.range a.uniPktNum.toNat).foldlM (addSigDistance a burst2) s =
        (List.range b.uniPktNum.toNat).foldlM (addSigDistance b burst2) s := by
    intro s
    rw [← huni]
    refine CheckedLoop.foldlM_congr _ s fun i hi s => ?_
    rw [addSigDistance, addSigDistance, at?, at?, hdetail i (List.mem_range.mp hi), hpkt]
  rw [distance, distance, hloop, hpkt]
  simp only [far_congr hpkt burst2]

/-! ## The distance is defined -/

theorem findMatch_ok {check : List Bool} (sig : Int16) {detail : List (Int16 × ℕ)} {l : List ℕ}
    (h : ∀ j ∈ l, j < check.length ∧ j < detail.length) :
    ∃ found, findMatch check sig detail l = .ok found := by
  induction l with
  | nil => exact ⟨none, rfl⟩
  | cons j rest ih =>
    obtain ⟨hcheck, hdetail⟩ := h j List.mem_cons_self
    obtain ⟨found, hfound⟩ := ih fun i hi => h i (List.mem_cons_of_mem j hi)
    rw [findMatch, at?_of_lt hcheck, at?_of_lt hdetail]
    dsimp only [bind, Except.bind]
    split_ifs
    · exact ⟨found, hfound⟩
    · exact ⟨_, rfl⟩
    · exact ⟨found, hfound⟩

theorem addSigDistance_ok {b burst2 : Burst} (hburst2 : burst2.Counted) {s : List Bool × F}
    (hroom : burst2.uniPktNum.toNat ≤ s.1.length) {i : ℕ} (hi : i < b.packetDetail.length) :
    ∃ s', addSigDistance b burst2 s i = .ok s' ∧ s'.1.length = s.1.length := by
  have hinside : ∀ j ∈ List.range burst2.uniPktNum.toNat,
      j < s.1.length ∧ j < burst2.packetDetail.length := by
    intro j hj
    have hj : j < burst2.uniPktNum.toNat := List.mem_range.mp hj
    exact ⟨by omega, hburst2.uniPktNum ▸ hj⟩
  obtain ⟨found, hfound⟩ := findMatch_ok b.packetDetail[i].1 hinside
  rw [addSigDistance, at?_of_lt hi]
  dsimp only [bind, Except.bind]
  rw [hfound]
  cases found with
  | none => exact ⟨_, rfl, rfl⟩
  | some e => exact ⟨_, rfl, List.length_set ..⟩

theorem addRemainder_ok {check : List Bool} {detail : List (Int16 × ℕ)} {i : ℕ}
    (hcheck : i < check.length) (hdetail : i < detail.length) (cnt2Remain : ℕ) :
    ∃ cnt, addRemainder check detail cnt2Remain i = .ok cnt := by
  rw [addRemainder, at?_of_lt hcheck, at?_of_lt hdetail]
  dsimp only [bind, Except.bind]
  split_ifs
  · exact ⟨_, rfl⟩
  · exact ⟨_, rfl⟩

/-- The second loop does not fail when there is a flag for every entry. -/
theorem addRemainders_ok {burst2 : Burst} (hburst2 : burst2.Counted) {check : List Bool}
    (hroom : burst2.uniPktNum.toNat ≤ check.length) :
    ∃ remain, (List.range burst2.uniPktNum.toNat).foldlM
      (addRemainder check burst2.packetDetail) 0 = .ok remain := by
  let J : List ℕ → ℕ → Prop := fun _ _ => True
  obtain ⟨remain, hremain, -⟩ := CheckedLoop.foldlM_ok (I := J)
    (f := addRemainder check burst2.packetDetail) (l := List.range burst2.uniPktNum.toNat)
    (s := 0) (fun done i rest hall cnt _ => by
      have hi : i < burst2.uniPktNum.toNat := by
        rw [← List.mem_range, hall]
        exact List.mem_append_right _ List.mem_cons_self
      have hcheck : i < check.length := by omega
      obtain ⟨cnt', hcnt'⟩ := addRemainder_ok hcheck (hburst2.uniPktNum ▸ hi) cnt
      exact ⟨cnt', hcnt', trivial⟩) trivial
  exact ⟨remain, hremain⟩

/-- **`Distance` has room for 101 entries**, and does not fail on bursts whose counters agree with
their entries. -/
theorem distance_ok {b burst2 : Burst} (hb : b.Counted) (hburst2 : burst2.Counted)
    (hroom : burst2.uniPktNum.toNat ≤ 101) : ∃ d : F, b.distance burst2 = .ok d := by
  rw [distance]
  by_cases hfar : Far b burst2
  · rw [if_pos hfar]
    exact ⟨1, rfl⟩
  · rw [if_neg hfar]
    let I : List ℕ → List Bool × F → Prop := fun _ s => s.1.length = 101
    obtain ⟨s, hs, hlength⟩ := CheckedLoop.foldlM_ok (I := I)
      (f := addSigDistance b burst2) (l := List.range b.uniPktNum.toNat)
      (s := (List.replicate 101 false, (0 : F))) (fun done i rest hall s hs => by
        have hi : i < b.packetDetail.length := by
          rw [← hb.uniPktNum, ← List.mem_range, hall]
          exact List.mem_append_right _ List.mem_cons_self
        have hs : s.1.length = 101 := hs
        have hcheck : burst2.uniPktNum.toNat ≤ s.1.length := by omega
        obtain ⟨s', hs', hlength⟩ := addSigDistance_ok hburst2 hcheck hi
        exact ⟨s', hs', hlength.trans hs⟩) List.length_replicate
    have hcheck : burst2.uniPktNum.toNat ≤ s.1.length := by
      rw [show s.1.length = 101 from hlength]
      exact hroom
    obtain ⟨remain, hremain⟩ := addRemainders_ok hburst2 hcheck
    rw [hs]
    dsimp only [bind, Except.bind]
    rw [hremain]
    dsimp only
    split_ifs
    · exact ⟨_, rfl⟩
    · exact ⟨_, rfl⟩

end Burst
end BurstIoT
