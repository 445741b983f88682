import Mathlib.Data.List.Sort

/-!
# Sorting by a comparator

A comparator is a Boolean function `lt`; a sort asks that it be a strict weak order (`StrictWeak`).
For such an `lt`, `stableSort lt` is the stable arrangement, computed by insertion.  It commutes
with a map that the comparator is read through (`map_stableSort`), and when the comparator only
separates two classes it is a partition (`stableSort_eq_filter_append`).  Such a partition of an
increasing list can be cut at a position without mixing the halves only as
`take_lt_drop_partition_iff` says.
-/

namespace BurstIoT

/-! ## Comparators -/

/-- A comparator the sorting functions accept: irreflexive, and "not greater" is transitive. -/
structure StrictWeak {α : Type} (lt : α → α → Bool) : Prop where
  irrefl : ∀ a, lt a a = false
  asymm : ∀ a b, lt a b = true → lt b a = false
  trans_not : ∀ a b c, lt b a = false → lt c b = false → lt c a = false

/-- Comparing by a key of a linear order. -/
theorem StrictWeak.of_key {α β : Type} [LinearOrder β] {lt : α → α → Bool} (key : α → β)
    (h : ∀ a b, lt a b = true ↔ key a < key b) : StrictWeak lt := by
  have hf : ∀ a b, lt a b = false ↔ key b ≤ key a := by
    intro a b
    rw [← not_lt, ← h, Bool.not_eq_true]
  refine ⟨fun a => (hf a a).mpr le_rfl, fun a b hab => ?_, fun a b c hba hcb => ?_⟩
  · exact (hf b a).mpr ((h a b).mp hab).le
  · exact (hf c a).mpr (((hf b a).mp hba).trans ((hf c b).mp hcb))

theorem StrictWeak.total {α : Type} {lt : α → α → Bool} (h : StrictWeak lt) :
    Std.Total fun a b => lt b a = false := ⟨fun a b => by
  cases hba : lt b a with
  | false => exact Or.inl rfl
  | true => exact Or.inr (h.asymm b a hba)⟩

/-- A comparator stays strict weak when it is read through a function. -/
theorem StrictWeak.comap {α β : Type} {lt : β → β → Bool} (h : StrictWeak lt) (f : α → β) :
    StrictWeak fun a b => lt (f a) (f b) :=
  ⟨fun a => h.irrefl (f a), fun a b => h.asymm (f a) (f b),
    fun a b c => h.trans_not (f a) (f b) (f c)⟩

/-! ## The stable sort -/

section Stable

variable {α β : Type} (lt : α → α → Bool)

/-- `std::stable_sort`: entries that compare equal keep their order. -/
def stableSort (l : List α) : List α :=
  l.insertionSort fun a b => lt b a = false

theorem stableSort_perm (l : List α) : (stableSort lt l).Perm l :=
  List.perm_insertionSort _ l

@[simp] theorem length_stableSort (l : List α) : (stableSort lt l).length = l.length :=
  (stableSort_perm lt l).length_eq

@[simp] theorem mem_stableSort {l : List α} {a : α} : a ∈ stableSort lt l ↔ a ∈ l :=
  (stableSort_perm lt l).mem_iff

variable {lt}

theorem stableSort_pairwise (h : StrictWeak lt) (l : List α) :
    (stableSort lt l).Pairwise fun a b => lt b a = false := by
  have htotal : Std.Total fun a b => lt b a = false := h.total
  have htrans : IsTrans α fun a b => lt b a = false := ⟨h.trans_not⟩
  exact List.pairwise_insertionSort _ l

/-- What is sorted already stays as it is. -/
theorem stableSort_of_pairwise {l : List α} (h : l.Pairwise fun a b => lt b a = false) :
    stableSort lt l = l :=
  h.insertionSort_eq

/-- Only the comparisons of the entries matter. -/
theorem stableSort_congr {lt' : α → α → Bool} {l : List α}
    (h : ∀ a ∈ l, ∀ b ∈ l, lt a b = lt' a b) : stableSort lt l = stableSort lt' l := by
  have hmap := List.map_insertionSort (fun a b => lt b a = false) (fun a b => lt' b a = false) id l
    fun a ha b hb => by rw [h b hb a ha]; rfl
  rwa [List.map_id, List.map_id] at hmap

/-- **The sort is stable**: entries of which none is before another keep their order. -/
theorem filter_stableSort (h : StrictWeak lt) (P : α → Bool) {l : List α}
    (hP : ∀ a ∈ l, ∀ b ∈ l, P a = true → P b = true → lt b a = false) :
    (stableSort lt l).filter P = l.filter P := by
  have htotal : Std.Total fun a b => lt b a = false := h.total
  have htrans : IsTrans α fun a b => lt b a = false := ⟨h.trans_not⟩
  have hpair : (l.filter P).Pairwise fun a b => lt b a = false := by
    refine List.pairwise_of_forall_mem_list fun a ha b hb => ?_
    obtain ⟨hal, hPa⟩ := List.mem_filter.mp ha
    obtain ⟨hbl, hPb⟩ := List.mem_filter.mp hb
    exact hP a hal b hbl hPa hPb
  have hsub : ((l.filter P).filter P).Sublist ((stableSort lt l).filter P) :=
    (List.sublist_insertionSort hpair List.filter_sublist).filter P
  simp only [List.filter_filter, Bool.and_self] at hsub
  exact (hsub.eq_of_length ((stableSort_perm lt l).filter P).length_eq.symm).symm

/-- Sorting by a key and then forgetting all but the key's data is sorting the data. -/
theorem map_stableSort (f : α → β) (lt : β → β → Bool) (l : List α) :
    (stableSort (fun a b => lt (f a) (f b)) l).map f = stableSort lt (l.map f) :=
  List.map_insertionSort _ _ f l fun _ _ _ _ => Iff.rfl

/-- **A two-valued stable sort is a partition.**  When the comparator puts the entries with `P`
before the others, and is indifferent or already respected inside each of the two classes, the
stable sort lists first the entries with `P` and then the others, both in their old order. -/
theorem stableSort_eq_filter_append (P : α → Bool) :
    ∀ l : List α, (∀ a ∈ l, ∀ b ∈ l, P a = true → lt b a = false) →
      (∀ a ∈ l, ∀ b ∈ l, P a = false → P b = true → lt b a = true) →
      l.Pairwise (fun a b => P a = false → P b = false → lt b a = false) →
      stableSort lt l = l.filter P ++ l.filter fun a => !P a
  | [], _, _, _ => rfl
  | a :: l, hlow, hhigh, hpair => by
    have ih : stableSort lt l = l.filter P ++ l.filter fun a => !P a :=
      stableSort_eq_filter_append P l
        (fun x hx y hy => hlow x (List.mem_cons_of_mem _ hx) y (List.mem_cons_of_mem _ hy))
        (fun x hx y hy => hhigh x (List.mem_cons_of_mem _ hx) y (List.mem_cons_of_mem _ hy))
        (List.pairwise_cons.mp hpair).2
    have hstep : stableSort lt (a :: l) =
        List.orderedInsert (fun a b => lt b a = false) a (stableSort lt l) := rfl
    cases ha : P a with
    | true =>
      have hall : ∀ b ∈ l, lt b a = false := fun b hb =>
        hlow a List.mem_cons_self b (List.mem_cons_of_mem _ hb) ha
      have hcons : stableSort lt (a :: l) = a :: stableSort lt l :=
        List.insertionSort_cons_of_forall_rel _ hall
      rw [hcons, ih]
      simp [ha]
    | false =>
      have hskip : ∀ b ∈ l.filter P, lt b a = true := by
        intro b hb
        obtain ⟨hbl, hPb⟩ := List.mem_filter.mp hb
        exact hhigh a List.mem_cons_self b (List.mem_cons_of_mem _ hbl) ha hPb
      have hstop : ∀ b ∈ l.filter (fun a => !P a), lt b a = false := by
        intro b hb
        obtain ⟨hbl, hPb⟩ := List.mem_filter.mp hb
        exact (List.pairwise_cons.mp hpair).1 b hbl ha (by simpa using hPb)
      have hinsert : ∀ F G : List α, (∀ b ∈ F, lt b a = true) → (∀ b ∈ G, lt b a = false) →
          List.orderedInsert (fun a b => lt b a = false) a (F ++ G) = F ++ a :: G := by
        intro F G hF hG
        induction F with
        | nil =>
          cases G with
          | nil => rfl
          | cons g G => simp [hG g List.mem_cons_self]
        | cons f F ihF =>
          have hf : lt f a = true := hF f List.mem_cons_self
          rw [List.cons_append, List.orderedInsert, if_neg (by simp [hf]),
            ihF fun b hb => hF b (List.mem_cons_of_mem _ hb)]
          rfl
      rw [hstep, ih, hinsert _ _ hskip hstop]
      simp [ha]

end Stable

/-! ## Cutting an increasing list -/

section Cutoff

variable {α : Type} [LinearOrder α] {S : List α}

/-- A rearrangement of an increasing list that puts its smaller elements first, up to `k`, has the
same first `k` elements. -/
theorem take_perm_of_take_lt_drop (hS : S.Pairwise (· < ·)) {T : List α} (hT : T.Perm S) (k : ℕ)
    (hlt : ∀ a ∈ T.take k, ∀ b ∈ T.drop k, a < b) : (T.take k).Perm (S.take k) := by
  have hsort : ∀ l : List α, (l.insertionSort (· ≤ ·)).Perm l := List.perm_insertionSort _
  have hsorted : ((T.take k).insertionSort (· ≤ ·) ++ (T.drop k).insertionSort (· ≤ ·)) = S := by
    refine List.Perm.eq_of_pairwise' (r := (· ≤ ·)) ?_ (hS.imp le_of_lt) ?_
    · rw [List.pairwise_append]
      refine ⟨List.pairwise_insertionSort _ _, List.pairwise_insertionSort _ _, ?_⟩
      intro a ha b hb
      exact (hlt a ((hsort _).mem_iff.mp ha) b ((hsort _).mem_iff.mp hb)).le
    · refine ((hsort _).append (hsort _)).trans ?_
      rw [List.take_append_drop]
      exact hT
  have hlen : ((T.take k).insertionSort (· ≤ ·)).length = min k S.length := by
    rw [List.length_insertionSort, List.length_take, hT.length_eq]
  have htake : S.take k = (T.take k).insertionSort (· ≤ ·) := by
    rcases Nat.le_total k S.length with hk | hk
    · rw [min_eq_left hk] at hlen
      rw [← hsorted]
      exact List.take_left' hlen
    · have hdrop : T.drop k = [] := List.drop_eq_nil_of_le (by rw [hT.length_eq]; exact hk)
      rw [hdrop, List.insertionSort_nil, List.append_nil] at hsorted
      rw [hsorted, List.take_of_length_le hk]
  rw [htake]
  exact (hsort _).symm

/-- An increasing list is cut in two by any position. -/
theorem lt_of_mem_take_of_mem_drop (hS : S.Pairwise (· < ·)) {k : ℕ} {a b : α} (ha : a ∈ S.take k)
    (hb : b ∈ S.drop k) : a < b := by
  have h : (S.take k ++ S.drop k).Pairwise (· < ·) := by rwa [List.take_append_drop]
  exact (List.pairwise_append.mp h).2.2 a ha b hb

/-- **When a partition keeps an increasing list cut in two.**  Of an increasing list with the
elements of `P` moved to the front, the first `k` lie below the others exactly when the move does
not carry an element across: no element of `P` lies after the first `k`, or these are all in `P`. -/
theorem take_lt_drop_partition_iff (hS : S.Pairwise (· < ·)) (P : α → Bool) (k : ℕ) :
    (∀ a ∈ (S.filter P ++ S.filter fun a => !P a).take k,
      ∀ b ∈ (S.filter P ++ S.filter fun a => !P a).drop k, a < b) ↔
      ((∃ b ∈ S.drop k, P b = true) → ∀ a ∈ S.take k, P a = true) := by
  have hperm : (S.filter P ++ S.filter fun a => !P a).Perm S := List.filter_append_perm P S
  have hparts : ∀ Q : α → Bool, S.filter Q = (S.take k).filter Q ++ (S.drop k).filter Q := by
    intro Q
    rw [← List.filter_append, List.take_append_drop]
  constructor
  · rintro hlt ⟨b, hb, hPb⟩ a ha
    have hsame := take_perm_of_take_lt_drop hS hperm k hlt
    by_contra hPa
    -- the first `k` hold an element outside `P`, so they hold all of `P`
    have ha' : a ∈ (S.filter P ++ S.filter fun a => !P a).take k := hsame.mem_iff.mpr ha
    have hfull : (S.filter P).length ≤ k := by
      by_contra hlong
      rw [List.take_append_of_le_length (by omega)] at ha'
      exact hPa (List.mem_filter.mp (List.mem_of_mem_take ha')).2
    have hb' : b ∈ S.take k := by
      rw [← hsame.mem_iff, List.take_append, List.take_of_length_le hfull]
      exact List.mem_append_left _ (List.mem_filter.mpr ⟨List.mem_of_mem_drop hb, hPb⟩)
    exact lt_irrefl b (lt_of_mem_take_of_mem_drop hS hb' hb)
  · intro hcond
    rcases Nat.le_total S.length k with hk | hk
    · rw [List.drop_eq_nil_of_le (by rw [hperm.length_eq]; exact hk)]
      exact fun _ _ _ hb => absurd hb List.not_mem_nil
    · -- either way the moved list is cut at `k` into parts of the two halves
      have hcut : ∃ A B, S.filter P ++ S.filter (fun a => !P a) = A ++ B ∧ A.length = k ∧
          A ⊆ S.take k ∧ B ⊆ S.drop k := by
        have hlen : (S.take k).length = k := List.length_take_of_le hk
        by_cases hafter : ∃ b ∈ S.drop k, P b = true
        · have hall := hcond hafter
          have hfirst : (S.take k).filter P = S.take k := List.filter_eq_self.mpr hall
          have hrest : (S.take k).filter (fun a => !P a) = [] := by
            rw [List.filter_eq_nil_iff]
            intro a ha
            simp [hall a ha]
          refine ⟨S.take k, (S.drop k).filter P ++ (S.drop k).filter fun a => !P a, ?_, hlen,
            List.Subset.refl _, ?_⟩
          · rw [hparts P, hparts fun a => !P a, hfirst, hrest, List.nil_append, List.append_assoc]
          · exact List.append_subset.mpr ⟨List.filter_sublist.subset, List.filter_sublist.subset⟩
        · have hnone : ∀ b ∈ S.drop k, ¬ P b = true := fun b hb hPb => hafter ⟨b, hb, hPb⟩
          have hfirst : (S.drop k).filter P = [] := List.filter_eq_nil_iff.mpr hnone
          have hrest : (S.drop k).filter (fun a => !P a) = S.drop k :=
            List.filter_eq_self.mpr fun b hb => by simpa using hnone b hb
          refine ⟨(S.take k).filter P ++ (S.take k).filter fun a => !P a, S.drop k, ?_, ?_, ?_,
            List.Subset.refl _⟩
          · rw [hparts P, hparts fun a => !P a, hfirst, hrest, List.append_nil, List.append_assoc]
          · rw [(List.filter_append_perm P (S.take k)).length_eq, hlen]
          · exact List.append_subset.mpr ⟨List.filter_sublist.subset, List.filter_sublist.subset⟩
      obtain ⟨A, B, hAB, hlen, hA, hB⟩ := hcut
      intro a ha b hb
      rw [hAB, List.take_left' hlen] at ha
      rw [hAB, List.drop_left' hlen] at hb
      exact lt_of_mem_take_of_mem_drop hS (hA ha) (hB hb)

end Cutoff

end BurstIoT
