import BurstIoT.DistanceSymmetry

/-!
# The room of the check array

`Distance` keeps a flag for each entry of the other burst, in an `std::array` of 101 elements.  The
loops that read it are bounded by the number of signatures of that burst, which `Validate` bounds by
`BURST_MAX_UNISIG`, a `uint8_t` that may be up to 255.

`UsesCheck` says which elements are used.  The search for a signature may stop early, but the second
loop asks for every entry.  So of two bursts that are compared at all, with more than 101 entries in
the second one, the element 101 is used, which is not there (`usesCheck_of_lt`).
-/

namespace BurstIoT
namespace Burst

variable {F : Type} [Field F] [Elementary F] {a b : Burst}

/-- The first loop of `Distance`, before an iteration. -/
def compared (F : Type) [Field F] [Elementary F] (a b : Burst) (i : ℕ) :
    Except Fault (List Bool × F) :=
  (List.range i).foldlM (addSigDistance a b) (List.replicate 101 false, (0 : F))

/-- `a.Distance(b)` uses an element of `arr_blk2_check`: in the search for a signature, when those
before it have not matched, or in the second loop. -/
inductive UsesCheck (F : Type) [Field F] [Elementary F] (a b : Burst) : ℕ → Prop
  | search {i j : ℕ} {s : List Bool × F} {e : Int16 × ℕ} (hnear : ¬ Far a b)
      (hi : i < a.uniPktNum.toNat) (hs : compared F a b i = .ok s)
      (he : at? a.packetDetail i = .ok e) (hj : j < b.uniPktNum.toNat)
      (hmissed : findMatch s.1 e.1 b.packetDetail (List.range j) = .ok none) : UsesCheck F a b j
  | remainder {j : ℕ} {s : List Bool × F} {cnt2Remain : ℕ} (hnear : ¬ Far a b)
      (hs : compared F a b a.uniPktNum.toNat = .ok s) (hj : j < b.uniPktNum.toNat)
      (hcnt : (List.range j).foldlM (addRemainder s.1 b.packetDetail) 0 = .ok cnt2Remain) :
      UsesCheck F a b j

theorem UsesCheck.lt {j : ℕ} (h : UsesCheck F a b j) : j < b.uniPktNum.toNat := by
  cases h with
  | search _ _ _ _ hj _ => exact hj
  | remainder _ _ hj _ => exact hj

theorem UsesCheck.not_far {j : ℕ} (h : UsesCheck F a b j) : ¬ Far a b := by
  cases h with
  | search hnear _ _ _ _ _ => exact hnear
  | remainder hnear _ _ _ => exact hnear

/-! ## The size of the array -/

theorem length_addSigDistance {s s' : List Bool × F} {i : ℕ}
    (h : addSigDistance a b s i = .ok s') : s'.1.length = s.1.length := by
  obtain ⟨e, -, h⟩ := CheckedLoop.bind_eq_ok.mp h
  obtain ⟨found, -, h⟩ := CheckedLoop.bind_eq_ok.mp h
  cases found with
  | none =>
    cases h
    rfl
  | some entry =>
    cases h
    exact List.length_set ..

theorem length_compared {i : ℕ} {s : List Bool × F} (h : compared F a b i = .ok s) :
    s.1.length = 101 :=
  CheckedLoop.foldlM_inv (I := fun _ s => s.1.length = 101) _ []
    (fun _ _ _ _ _ hs hstep => (length_addSigDistance hstep).trans hs) List.length_replicate h

/-! ## The element that is not there -/

/-- A signature that is found is found before any further entry is asked for. -/
theorem findMatch_append {check : List Bool} {sig : Int16} {detail : List (Int16 × ℕ)}
    {l : List ℕ} {found : ℕ × ℕ} (h : findMatch check sig detail l = .ok (some found))
    (l' : List ℕ) : findMatch check sig detail (l ++ l') = .ok (some found) := by
  induction l with
  | nil => cases h
  | cons j rest ih =>
    rw [findMatch] at h
    obtain ⟨taken, htaken, h⟩ := CheckedLoop.bind_eq_ok.mp h
    rw [List.cons_append, findMatch, htaken]
    dsimp only [bind, Except.bind]
    cases taken with
    | true => exact ih h
    | false =>
      obtain ⟨e, he, h⟩ := CheckedLoop.bind_eq_ok.mp h
      simp only [he, Bool.false_eq_true, if_false]
      by_cases hsig : e.1 = sig
      · rw [if_pos hsig] at h ⊢
        exact h
      · rw [if_neg hsig] at h ⊢
        exact ih h

/-- The second loop gets as far as the array goes. -/
theorem addRemainders_to {check : List Bool} {detail : List (Int16 × ℕ)} {n : ℕ}
    (hcheck : n ≤ check.length) (hdetail : n ≤ detail.length) :
    ∃ cnt2Remain, (List.range n).foldlM (addRemainder check detail) 0 = .ok cnt2Remain := by
  induction n with
  | zero => exact ⟨0, rfl⟩
  | succ n ih =>
    obtain ⟨cnt, hcnt⟩ := ih (Nat.le_of_succ_le hcheck) (Nat.le_of_succ_le hdetail)
    obtain ⟨cnt', hcnt'⟩ : ∃ cnt', addRemainder check detail cnt n = .ok cnt' :=
      addRemainder_ok hcheck hdetail cnt
    refine ⟨cnt', ?_⟩
    rw [List.range_succ, List.foldlM_append, hcnt]
    show [n].foldlM (addRemainder check detail) cnt = _
    rw [List.foldlM_cons, hcnt']
    rfl

theorem addRemainder_lt {check : List Bool} {detail : List (Int16 × ℕ)} {cnt cnt' j : ℕ}
    (h : addRemainder check detail cnt j = .ok cnt') : j < check.length := by
  obtain ⟨taken, htaken, -⟩ := CheckedLoop.bind_eq_ok.mp h
  exact (List.getElem?_eq_some_iff.mp (at?_eq_ok.mp htaken)).1

/-- And it gets no further. -/
theorem le_length_of_addRemainders {check : List Bool} {detail : List (Int16 × ℕ)}
    {n cnt2Remain : ℕ} (h : (List.range n).foldlM (addRemainder check detail) 0 = .ok cnt2Remain) :
    n ≤ check.length := by
  cases n with
  | zero => exact Nat.zero_le _
  | succ n =>
    rw [List.range_succ, List.foldlM_append] at h
    obtain ⟨cnt, -, h⟩ := CheckedLoop.bind_eq_ok.mp h
    rw [List.foldlM_cons] at h
    obtain ⟨cnt', hstep, -⟩ := CheckedLoop.bind_eq_ok.mp h
    exact addRemainder_lt hstep

/-- **Of a burst with more than 101 entries** the element 101 is used. -/
theorem usesCheck_of_lt (ha : a.Counted) (hb : b.Counted) (hnear : ¬ Far a b)
    (hlt : 101 < b.uniPktNum.toNat) : UsesCheck F a b 101 := by
  have hdetail : 101 < b.packetDetail.length := hb.uniPktNum ▸ hlt
  cases hcompared : compared F a b a.uniPktNum.toNat with
  | ok s =>
    have hcheck : 101 ≤ s.1.length := (length_compared hcompared).ge
    obtain ⟨cnt2Remain, hcnt⟩ := addRemainders_to hcheck hdetail.le
    exact .remainder hnear hcompared hlt hcnt
  | error fault =>
    -- the search of the first iteration that fails has passed all 101 elements
    obtain ⟨i, s, hi, hs, herror⟩ := CheckedLoop.exists_of_foldlM_range_error hcompared
    have hdetaila : i < a.packetDetail.length := ha.uniPktNum ▸ hi
    have hs : compared F a b i = .ok s := hs
    refine .search hnear hi hs (at?_of_lt hdetaila) hlt ?_
    have hinside : ∀ j ∈ List.range 101, j < s.1.length ∧ j < b.packetDetail.length := by
      intro j hj
      have hj := List.mem_range.mp hj
      have := length_compared hs
      omega
    obtain ⟨found, hfound⟩ := findMatch_ok a.packetDetail[i].1 hinside
    cases found with
    | none => exact hfound
    | some found =>
      obtain ⟨more, hmore⟩ := Nat.exists_eq_add_of_le hlt.le
      rw [addSigDistance, at?_of_lt hdetaila] at herror
      dsimp only [bind, Except.bind] at herror
      rw [hmore, List.range_add, findMatch_append hfound] at herror
      cases herror

/-! ## The bound -/

/-- All elements that are used are there. -/
def ChecksInside (F : Type) [Field F] [Elementary F] (a b : Burst) : Prop :=
  ∀ j, UsesCheck F a b j → j < 101

theorem checksInside_iff (ha : a.Counted) (hb : b.Counted) :
    ChecksInside F a b ↔ Far a b ∨ b.uniPktNum.toNat ≤ 101 := by
  constructor
  · intro h
    by_contra hout
    obtain ⟨hnear, hlt⟩ := not_or.mp hout
    exact absurd (h 101 (usesCheck_of_lt ha hb hnear (Nat.not_le.mp hlt))) (lt_irrefl 101)
  · rintro (hfar | hle) j hj
    · exact absurd hfar hj.not_far
    · exact hj.lt.trans_le hle

/-- **`Distance` is defined** exactly if all elements that it uses are there. -/
theorem distance_defined_iff (ha : a.Counted) (hb : b.Counted) :
    (∃ d : F, a.distance b = .ok d) ↔ ChecksInside F a b := by
  rw [checksInside_iff ha hb]
  constructor
  · rintro ⟨d, h⟩
    by_cases hfar : Far a b
    · exact Or.inl hfar
    · rw [distance] at h
      change (if Far a b then _ else _) = _ at h
      rw [if_neg hfar] at h
      obtain ⟨s, hs, h⟩ := CheckedLoop.bind_eq_ok.mp h
      obtain ⟨cnt2Remain, hcnt, -⟩ := CheckedLoop.bind_eq_ok.mp h
      have hle := le_length_of_addRemainders hcnt
      rw [length_compared hs] at hle
      exact Or.inr hle
  · rintro (hfar | hle)
    · exact ⟨1, if_pos hfar⟩
    · exact distance_ok ha hb hle

/-- A burst of packets of different lengths. -/
def distinctLengths (n : ℕ) : Burst :=
  { uniPktNum := UInt8.ofNat n
    pktNum := n
    instanceLabel := "lamp"
    firstPacketStamp := .zero
    lastPacketStamp := .zero
    packetDetail := (List.range n).map fun i => (Int16.ofNat i, 1) }

theorem counted_distinctLengths : (distinctLengths 102).Counted :=
  ⟨by decide +kernel, by decide +kernel⟩

theorem validate_distinctLengths {div : DivisionParam} (h : 101 < div.burstMaxUnisig) :
    (distinctLengths 102).validate div = .ok () := by
  have hlt : 101 < div.burstMaxUnisig.toNat := UInt8.lt_iff_toNat_lt.mp h
  have hcounted := counted_distinctLengths
  have hover : ¬ (distinctLengths 102).uniPktNum > div.burstMaxUnisig := by
    rw [gt_iff_lt, UInt8.not_lt, UInt8.le_iff_toNat_le]
    exact hlt
  rw [validate, if_neg (by decide +kernel), if_neg (not_not.mpr hcounted.uniPktNum.symm),
    if_neg (not_not.mpr hcounted.pktNum.symm), if_neg hover]

theorem usesCheck_distinctLengths :
    UsesCheck F (distinctLengths 102) (distinctLengths 102) 101 :=
  usesCheck_of_lt counted_distinctLengths counted_distinctLengths (by decide) (by decide +kernel)

/-- **The array is large enough for a limit of up to 101**, and for no other one.  Of bursts that
pass `Validate`, `a.Distance(b)` stays inside it exactly if they are not compared, or `b` has at
most 101 signatures. -/
theorem checksInside_validated_iff (F : Type) [Field F] [Elementary F] (div : DivisionParam) :
    ((∀ a b : Burst, a.validate div = .ok () → b.validate div = .ok () →
      ∀ j, UsesCheck F a b j → j < 101) ↔ div.burstMaxUnisig ≤ 101) ∧
    ∀ a b : Burst, a.validate div = .ok () → b.validate div = .ok () →
      ((∀ j, UsesCheck F a b j → j < 101) ↔ Far a b ∨ b.uniPktNum ≤ 101) := by
  have hpair : ∀ a b : Burst, a.validate div = .ok () → b.validate div = .ok () →
      ((∀ j, UsesCheck F a b j → j < 101) ↔ Far a b ∨ b.uniPktNum ≤ 101) := fun a b ha hb => by
    rw [UInt8.le_iff_toNat_le]
    exact checksInside_iff (counted_of_validate ha).1 (counted_of_validate hb).1
  refine ⟨⟨fun h => ?_, fun hle a b ha hb => ?_⟩, hpair⟩
  · by_contra hlt
    have hvalid := validate_distinctLengths (UInt8.not_le.mp hlt)
    exact absurd (h _ _ hvalid hvalid 101 usesCheck_distinctLengths) (lt_irrefl 101)
  · exact (hpair a b ha hb).mpr (Or.inr (UInt8.le_trans (counted_of_validate hb).2 hle))

/-- **A burst of 102 different lengths** passes `Validate` under a limit of 102, and its distance to
itself uses the element 101. -/
theorem not_checksInside_distinctLengths :
    ¬ ∀ (div : DivisionParam) (a b : Burst), a.validate div = .ok () → b.validate div = .ok () →
      ∀ j, UsesCheck ℝ a b j → j < 101 := by
  intro h
  have hvalid : (distinctLengths 102).validate { burstMaxUnisig := 102 } = .ok () :=
    validate_distinctLengths (by decide)
  exact absurd (h _ _ _ hvalid hvalid 101 usesCheck_distinctLengths) (lt_irrefl 101)

end Burst
end BurstIoT
