import Mathlib.Tactic.Linarith
import BurstIoT.Distance

/-!
# Bounds on the distance

Over the reals, `Distance` lies between zero and a hundred, from which `PredictBurst` starts.  The
first loop adds, for an entry, at most its frequency and that of the entry it takes
(`addSigDistance_le`), the second loop the frequencies of the entries that are left, so the sum is
at most two.  It is scaled by the ratio of the lengths, which is at most 121, since bursts whose
lengths differ by more than 120 packets are at distance one (`distance_bounds`).

A burst is at distance zero from any burst it equals, unless it is too long for the cut-off: entry
after entry takes the one at its own position (`distance_of_same`).
-/

namespace BurstIoT
namespace Burst

/-- The count of an entry, zero where there is none. -/
def countAt (b : Burst) (i : ℕ) : ℕ :=
  (b.packetDetail[i]?.map Prod.snd).getD 0

theorem countAt_eq {b : Burst} {i : ℕ} {e : Int16 × ℕ} (h : b.packetDetail[i]? = some e) :
    b.countAt i = e.2 := by
  rw [countAt, h]
  rfl

theorem sum_countAt {b : Burst} (h : b.Counted) :
    ((List.range b.uniPktNum.toNat).map b.countAt).sum = b.pktNum := by
  have hlist : (List.range b.packetDetail.length).map b.countAt =
      b.packetDetail.map Prod.snd := by
    refine List.ext_getElem (by simp) fun i hi hi' => ?_
    have hlt : i < b.packetDetail.length := by simpa using hi
    simp [countAt, hlt]
  rw [h.uniPktNum, h.pktNum, hlist]
  rfl

/-! ## Entries taken and entries left -/

/-- The packets of the entries that are taken, among the first ones. -/
def takenCount (b : Burst) (check : List Bool) (l : List ℕ) : ℕ :=
  (l.map fun j => if check[j]? = some true then b.countAt j else 0).sum

/-- The packets of the entries that are left. -/
def leftCount (b : Burst) (check : List Bool) (l : List ℕ) : ℕ :=
  (l.map fun j => if check[j]? = some true then 0 else b.countAt j).sum

theorem takenCount_add_leftCount (b : Burst) (check : List Bool) (l : List ℕ) :
    b.takenCount check l + b.leftCount check l = (l.map b.countAt).sum := by
  rw [takenCount, leftCount, ← List.sum_map_add]
  congr 1
  refine List.map_congr_left fun j _ => ?_
  split_ifs <;> omega

/-- Taking an entry. -/
theorem takenCount_set (b : Burst) {check : List Bool} {j : ℕ} (hj : check[j]? = some false)
    {l : List ℕ} (hnodup : l.Nodup) (hmem : j ∈ l) :
    b.takenCount (check.set j true) l = b.takenCount check l + b.countAt j := by
  have hlt : j < check.length := (List.getElem?_eq_some_iff.mp hj).1
  have hother : ∀ k, k ≠ j → (check.set j true)[k]? = check[k]? := fun k hk =>
    List.getElem?_set_ne (Ne.symm hk)
  have hskip : ∀ l : List ℕ, j ∉ l →
      b.takenCount (check.set j true) l = b.takenCount check l := by
    intro l hl
    rw [takenCount, takenCount]
    congr 1
    refine List.map_congr_left fun k hk => ?_
    rw [hother k (ne_of_mem_of_not_mem hk hl)]
  induction l with
  | nil => exact absurd hmem List.not_mem_nil
  | cons k l ih =>
    obtain ⟨hk, hnodup⟩ := List.nodup_cons.mp hnodup
    have hcons : ∀ check : List Bool, b.takenCount check (k :: l) =
        (if check[k]? = some true then b.countAt k else 0) + b.takenCount check l :=
      fun check => List.sum_cons
    rw [hcons, hcons]
    by_cases heq : j = k
    · subst heq
      rw [hskip l hk, hj, List.getElem?_set_self hlt, if_pos rfl, if_neg (by decide)]
      omega
    · rw [ih hnodup ((List.mem_cons.mp hmem).resolve_left heq), hother k (Ne.symm heq)]
      omega

/-- An entry that is found has the signature and is not taken yet. -/
theorem findMatch_eq_some {check : List Bool} {sig : Int16} {detail : List (Int16 × ℕ)}
    {l : List ℕ} {j cnt : ℕ} (h : findMatch check sig detail l = .ok (some (j, cnt))) :
    j ∈ l ∧ check[j]? = some false ∧ detail[j]? = some (sig, cnt) := by
  induction l with
  | nil => cases h
  | cons i rest ih =>
    have hrest : findMatch check sig detail rest = .ok (some (j, cnt)) →
        j ∈ i :: rest ∧ check[j]? = some false ∧ detail[j]? = some (sig, cnt) := fun h =>
      ⟨List.mem_cons_of_mem i (ih h).1, (ih h).2⟩
    rw [findMatch] at h
    obtain ⟨taken, htaken, h⟩ := CheckedLoop.bind_eq_ok.mp h
    cases taken with
    | true => exact hrest h
    | false =>
      obtain ⟨e, he, h⟩ := CheckedLoop.bind_eq_ok.mp h
      split_ifs at h with hsig
      · obtain ⟨rfl, rfl⟩ := Prod.mk.inj (Option.some_inj.mp (Except.ok.inj h))
        rw [← hsig]
        exact ⟨List.mem_cons_self, at?_eq_ok.mp htaken, at?_eq_ok.mp he⟩
      · exact hrest h

/-! ## The distance is small -/

/-- The difference of two square roots. -/
theorem sq_sqrt_sub_sqrt_le {p q : ℝ} (hp : 0 ≤ p) (hq : 0 ≤ q) :
    (Real.sqrt p - Real.sqrt q) ^ 2 ≤ p + q := by
  have hprod : 0 ≤ Real.sqrt p * Real.sqrt q := mul_nonneg (Real.sqrt_nonneg p) (Real.sqrt_nonneg q)
  have hp' := Real.sq_sqrt hp
  have hq' := Real.sq_sqrt hq
  nlinarith only [hprod, hp', hq']

/-- **One iteration of the first loop** adds at most the frequencies of the entry and of the entry
it takes. -/
theorem addSigDistance_le {b burst2 : Burst} {s s' : List Bool × ℝ} {i : ℕ}
    (h : addSigDistance b burst2 s i = .ok s') :
    s'.2 + (burst2.takenCount s.1 (List.range burst2.uniPktNum.toNat) : ℝ) / burst2.pktNum ≤
      s.2 + (b.countAt i : ℝ) / b.pktNum +
        (burst2.takenCount s'.1 (List.range burst2.uniPktNum.toNat) : ℝ) / burst2.pktNum := by
  obtain ⟨e, he, h⟩ := CheckedLoop.bind_eq_ok.mp h
  obtain ⟨found, hfound, h⟩ := CheckedLoop.bind_eq_ok.mp h
  have hcount : b.countAt i = e.2 := countAt_eq (at?_eq_ok.mp he)
  cases found with
  | none =>
    cases h
    rw [hcount]
  | some match2 =>
    obtain ⟨j, cnt2⟩ := match2
    cases h
    obtain ⟨hj, hcheck, hentry⟩ := findMatch_eq_some hfound
    have hterm : (Real.sqrt ((e.2 : ℝ) / b.pktNum) - Real.sqrt ((cnt2 : ℝ) / burst2.pktNum)) ^ 2 ≤
        (e.2 : ℝ) / b.pktNum + (cnt2 : ℝ) / burst2.pktNum :=
      sq_sqrt_sub_sqrt_le (by positivity) (by positivity)
    rw [takenCount_set burst2 hcheck List.nodup_range hj, countAt_eq hentry, hcount, Nat.cast_add,
      add_div]
    show s.2 + (Real.sqrt _ - Real.sqrt _) ^ 2 + _ ≤ _
    linarith only [hterm]

/-- The second loop counts the packets of the entries that are left. -/
theorem addRemainder_eq {burst2 : Burst} {check : List Bool} {cnt cnt' i : ℕ}
    (h : addRemainder check burst2.packetDetail cnt i = .ok cnt') :
    cnt' = cnt + burst2.leftCount check [i] := by
  obtain ⟨taken, htaken, h⟩ := CheckedLoop.bind_eq_ok.mp h
  have hcheck : check[i]? = some taken := at?_eq_ok.mp htaken
  rw [leftCount, List.map_singleton, List.sum_singleton, hcheck]
  cases taken with
  | true =>
    cases h
    rfl
  | false =>
    obtain ⟨e, he, h⟩ := CheckedLoop.bind_eq_ok.mp h
    cases h
    rw [if_neg (by decide), countAt_eq (at?_eq_ok.mp he)]

/-- The second loop has counted the packets of all entries that are left. -/
theorem remainder_eq_leftCount {burst2 : Burst} {check : List Bool} {l : List ℕ} {cnt2Remain : ℕ}
    (h : l.foldlM (addRemainder check burst2.packetDetail) 0 = .ok cnt2Remain) :
    cnt2Remain = burst2.leftCount check l := by
  refine CheckedLoop.foldlM_inv (I := fun done cnt => cnt = burst2.leftCount check done)
    _ [] (fun done i cnt cnt' _ hinv hstep => ?_) rfl h
  rw [addRemainder_eq hstep, hinv, leftCount, leftCount, leftCount, List.map_append,
    List.sum_append]

/-- **What the two loops add up to is at most two.** -/
theorem loops_le_two {b burst2 : Burst} (hb : b.Counted) (hburst2 : burst2.Counted)
    {s : List Bool × ℝ} {cnt2Remain : ℕ}
    (hs : (List.range b.uniPktNum.toNat).foldlM (addSigDistance b burst2)
      (List.replicate 101 false, (0 : ℝ)) = .ok s)
    (hremain : (List.range burst2.uniPktNum.toNat).foldlM
      (addRemainder s.1 burst2.packetDetail) 0 = .ok cnt2Remain) :
    s.2 + (cnt2Remain : ℝ) / burst2.pktNum ≤ 2 := by
  have hloop : s.2 ≤ (((List.range b.uniPktNum.toNat).map b.countAt).sum : ℝ) / b.pktNum +
      (burst2.takenCount s.1 (List.range burst2.uniPktNum.toNat) : ℝ) / burst2.pktNum := by
    refine CheckedLoop.foldlM_inv (I := fun done s =>
      s.2 ≤ (((done.map b.countAt).sum : ℕ) : ℝ) / b.pktNum +
        (burst2.takenCount s.1 (List.range burst2.uniPktNum.toNat) : ℝ) / burst2.pktNum)
      _ [] (fun done i s s' _ hinv hstep => ?_) ?_ hs
    · have hle := addSigDistance_le hstep
      rw [List.map_append, List.sum_append, List.map_singleton, List.sum_singleton, Nat.cast_add,
        add_div]
      linarith only [hinv, hle]
    · show (0 : ℝ) ≤ _
      positivity
  have htotal : burst2.takenCount s.1 (List.range burst2.uniPktNum.toNat) + cnt2Remain =
      burst2.pktNum := by
    rw [remainder_eq_leftCount hremain, takenCount_add_leftCount, sum_countAt hburst2]
  have htotal : (burst2.takenCount s.1 (List.range burst2.uniPktNum.toNat) : ℝ) / burst2.pktNum +
      (cnt2Remain : ℝ) / burst2.pktNum ≤ 1 := by
    rw [← add_div, ← Nat.cast_add, htotal]
    exact div_self_le_one _
  rw [sum_countAt hb] at hloop
  have hone : (b.pktNum : ℝ) / b.pktNum ≤ 1 := div_self_le_one _
  linarith only [hloop, hone, htotal]

/-- A sum of at most two, scaled by a ratio of lengths that differ by at most 120. -/
theorem sqrt_scaled_lt {x : ℝ} (hx : x ≤ 2) {m n : ℕ} (hn : 1 ≤ n) (hmn : m ≤ n + 120) :
    Real.sqrt (x * m / n) < 100 := by
  have hratio : (m : ℝ) / n ≤ 121 := by
    rw [div_le_iff₀ (by exact_mod_cast hn)]
    have hle : m ≤ 121 * n := by omega
    exact_mod_cast hle
  have hscaled : x * m / n ≤ 2 * 121 := by
    rw [mul_div_assoc]
    calc x * ((m : ℝ) / n) ≤ 2 * ((m : ℝ) / n) := by gcongr
      _ ≤ 2 * 121 := by gcongr
  rw [Real.sqrt_lt' (by norm_num)]
  linarith only [hscaled]

/-- **The distance of two bursts** whose counters agree with their entries lies between zero and a
hundred. -/
theorem distance_bounds {b burst2 : Burst} (hb : b.Counted) (hburst2 : burst2.Counted)
    (hpkt : 1 ≤ b.pktNum) (hpkt2 : 1 ≤ burst2.pktNum) {d : ℝ} (h : b.distance burst2 = .ok d) :
    0 ≤ d ∧ d < 100 := by
  rw [distance] at h
  by_cases hfar : Far b burst2
  · rw [if_pos hfar] at h
    cases h
    norm_num
  · rw [if_neg hfar] at h
    obtain ⟨s, hs, h⟩ := CheckedLoop.bind_eq_ok.mp h
    obtain ⟨cnt2Remain, hremain, h⟩ := CheckedLoop.bind_eq_ok.mp h
    have hnear := not_far_iff.mp hfar
    have htwo := loops_le_two hb hburst2 hs hremain
    dsimp only at h
    split_ifs at h with hlonger
    · cases h
      exact ⟨Real.sqrt_nonneg _, sqrt_scaled_lt htwo hpkt2 (by omega)⟩
    · cases h
      exact ⟨Real.sqrt_nonneg _, sqrt_scaled_lt htwo hpkt (by omega)⟩

/-! ## Equal bursts are at distance zero -/

/-- The flags of `arr_blk2_check` once the first `n` entries are taken. -/
def takenFlags (n : ℕ) : List Bool :=
  List.replicate n true ++ List.replicate (101 - n) false

theorem getElem?_takenFlags {n : ℕ} (hn : n ≤ 101) (j : ℕ) :
    (takenFlags n)[j]? = if j < n then some true else if j < 101 then some false else none := by
  rw [takenFlags, List.getElem?_append, List.length_replicate, List.getElem?_replicate,
    List.getElem?_replicate]
  split_ifs <;> first | rfl | omega

theorem set_takenFlags {n : ℕ} (hn : n < 101) :
    (takenFlags n).set n true = takenFlags (n + 1) := by
  refine List.ext_getElem? fun j => ?_
  rw [getElem?_takenFlags hn, List.getElem?_set, getElem?_takenFlags hn.le]
  have hlength : (takenFlags n).length = 101 := by
    rw [takenFlags, List.length_append, List.length_replicate, List.length_replicate]
    omega
  rw [hlength]
  split_ifs <;> first | rfl | omega

/-- With the first entries taken, the search for the next signature ends at its own entry. -/
theorem findMatch_takenFlags {b : Burst} {i : ℕ} (hi : i < 101) {e : Int16 × ℕ}
    (he : b.packetDetail[i]? = some e) {start num : ℕ} (hle : start ≤ i) (hlt : i < start + num) :
    findMatch (takenFlags i) e.1 b.packetDetail (List.range' start num) = .ok (some (i, e.2)) := by
  induction num generalizing start with
  | zero => omega
  | succ num ih =>
    have hflag : at? (takenFlags i) start = .ok (decide (start < i)) := by
      rw [at?_eq_ok, getElem?_takenFlags hi.le]
      by_cases hstart : start < i
      · simp [hstart]
      · simp [hstart, show start < 101 by omega]
    rw [List.range'_succ, findMatch, hflag]
    by_cases hstart : start < i
    · rw [decide_eq_true hstart]
      exact ih (by omega) (by omega)
    · have heq : start = i := by omega
      rw [decide_eq_false hstart, heq, at?_eq_ok.mpr he]
      show (if e.1 = e.1 then _ else _) = _
      rw [if_pos rfl]
      rfl

theorem addSigDistance_takenFlags {b : Burst} (hb : b.Counted) (hroom : b.uniPktNum.toNat ≤ 101)
    {i : ℕ} (hi : i < b.uniPktNum.toNat) :
    addSigDistance b b (takenFlags i, (0 : ℝ)) i = .ok (takenFlags (i + 1), 0) := by
  have hlt : i < b.packetDetail.length := hb.uniPktNum ▸ hi
  have hmatch := findMatch_takenFlags (by omega) (List.getElem?_eq_getElem hlt) (Nat.zero_le i)
    (show i < 0 + b.uniPktNum.toNat by omega)
  rw [addSigDistance, at?_of_lt hlt]
  dsimp only [bind, Except.bind]
  rw [List.range_eq_range', hmatch]
  dsimp only
  rw [set_takenFlags (by omega), sub_self]
  norm_num
  rfl

/-- A burst takes its own entries one by one, and leaves none. -/
theorem distance_self {b : Burst} (hb : b.Counted) (hroom : b.uniPktNum.toNat ≤ 101)
    (hfits : b.pktNum + 120 < 2 ^ 31) : b.distance b = .ok (0 : ℝ) := by
  have hfirst : ∀ n ≤ b.uniPktNum.toNat, (List.range n).foldlM (addSigDistance b b)
      (List.replicate 101 false, (0 : ℝ)) = .ok (takenFlags n, 0) := by
    intro n
    induction n with
    | zero => exact fun _ => rfl
    | succ n ih =>
      intro hn
      rw [List.range_succ, List.foldlM_append, ih (by omega)]
      show [n].foldlM (addSigDistance b b) (takenFlags n, (0 : ℝ)) = _
      rw [List.foldlM_cons, addSigDistance_takenFlags hb hroom hn]
      rfl
  have hsecond : ∀ n ≤ b.uniPktNum.toNat, (List.range n).foldlM
      (addRemainder (takenFlags b.uniPktNum.toNat) b.packetDetail) 0 = .ok 0 := by
    intro n
    induction n with
    | zero => exact fun _ => rfl
    | succ n ih =>
      intro hn
      have htaken : at? (takenFlags b.uniPktNum.toNat) n = .ok true := by
        rw [at?_eq_ok, getElem?_takenFlags hroom, if_pos (show n < _ from hn)]
      rw [List.range_succ, List.foldlM_append, ih (by omega)]
      show [n].foldlM (addRemainder (takenFlags b.uniPktNum.toNat) b.packetDetail) 0 = _
      rw [List.foldlM_cons, addRemainder, htaken]
      rfl
  rw [distance, if_neg (not_far_of_eq rfl hfits), hfirst _ le_rfl]
  dsimp only [bind, Except.bind]
  rw [hsecond _ le_rfl]
  dsimp only
  rw [if_neg (lt_irrefl _), Nat.cast_zero, zero_div, zero_add, zero_mul, zero_div]
  exact congrArg Except.ok Real.sqrt_zero

/-- **Equal bursts are at distance zero.** -/
theorem distance_of_same {b burst2 : Burst} (h : b.same burst2 = true)
    (hburst2 : burst2.Counted) (hroom : burst2.uniPktNum.toNat ≤ 101)
    (hfits : burst2.pktNum + 120 < 2 ^ 31) : b.distance burst2 = .ok (0 : ℝ) := by
  rw [distance_congr h]
  exact distance_self hburst2 hroom hfits

end Burst
end BurstIoT
