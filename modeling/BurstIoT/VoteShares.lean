import BurstIoT.Classifier
import BurstIoT.Votes

/-!
# How the votes are shared

`PredictBurstGroup` asks for the answer of each burst and hands it to `AddBurstPrediction`, which
finds the burst of an answer by the number of answers before it.  So the three vectors of the policy
run along the group (`Aligned`).

**Shares.**  The ballots of one burst have the same weight and add up to `log(uniPktNum + 1) /
(sqrt(distance) + 1)`, however many names its answer has; a burst whose answer is far or empty casts
none.  The bucket therefore sums up what the bursts have to give away (`valueSum_predictBucket`).
The weight depends on the burst, the distance and the set of the names only, so the bucket stays the
same if the bursts are rearranged, or the training bursts inside the answers (`votes_shared`).
-/

namespace BurstIoT
namespace BurstGroupPolicy

/-! ## The calls of `PredictBurstGroup` -/

section Calls

variable {F : Type} [Field F] [LinearOrder F] [Elementary F]

/-- `PredictBurstGroup` hands the answers of `PredictBurst` to `AddBurstPrediction`, in their
order. -/
theorem predictBurstGroup_eq_ok {lib : StdLib} {cfg : Config F} {train : List (List (List Burst))}
    {cache cache' : PredictionCache F} {burstGroup : BurstBlock} {policy : BurstGroupPolicy F} :
    Classifier.predictBurstGroup lib cfg train cache burstGroup = .ok (policy, cache') ↔
      ∃ answers, Prediction.predictBursts lib cfg.divisionParam cfg.classifyParam train cache
          burstGroup = .ok (answers, cache') ∧
        addBurstPredictions burstGroup answers = .ok policy := by
  rw [Classifier.predictBurstGroup]
  simp only [addBurstPredictions]
  generalize ({ testGroup := burstGroup } : BurstGroupPolicy F) = start
  induction burstGroup generalizing start cache with
  | nil =>
    constructor
    · intro h
      obtain ⟨rfl, rfl⟩ := Prod.mk.inj (Except.ok.inj h)
      exact ⟨[], rfl, rfl⟩
    · rintro ⟨answers, hanswers, hpolicy⟩
      obtain ⟨rfl, rfl⟩ := Prod.mk.inj (Except.ok.inj hanswers)
      cases hpolicy
      rfl
  | cons pBurst rest ih =>
    rw [List.foldlM_cons, CheckedLoop.bind_eq_ok, Prediction.predictBursts]
    simp only [CheckedLoop.bind_eq_ok, Prod.exists]
    constructor
    · rintro ⟨next, cache₁, ⟨nearest, cache₂, hnearest, next', hnext, heq⟩, hrest⟩
      obtain ⟨rfl, rfl⟩ := Prod.mk.inj (Except.ok.inj heq)
      obtain ⟨answers, hanswers, hpolicy⟩ := (ih _).mp hrest
      refine ⟨nearest :: answers, ⟨nearest, _, hnearest, answers, cache', hanswers, rfl⟩, ?_⟩
      rw [List.foldlM_cons, hnext]
      exact hpolicy
    · rintro ⟨answers, ⟨nearest, cache₁, hnearest, answers', cache₂, hanswers, heq⟩, hpolicy⟩
      obtain ⟨rfl, rfl⟩ := Prod.mk.inj (Except.ok.inj heq)
      rw [List.foldlM_cons, CheckedLoop.bind_eq_ok] at hpolicy
      obtain ⟨next, hnext, hpolicy⟩ := hpolicy
      exact ⟨next, cache₁, ⟨nearest, cache₁, hnearest, next, hnext, rfl⟩,
        (ih _).mpr ⟨answers', hanswers, hpolicy⟩⟩

/-! ## The vectors of the policy -/

/-- The vectors of a policy run along its group and its answers. -/
structure Aligned (testGroup : BurstBlock) (answers : List (Nearest F))
    (policy : BurstGroupPolicy F) : Prop where
  testGroup_eq : policy.testGroup = testGroup
  trains_eq : policy.vPredictTrains = answers.map Nearest.nearestVec
  distance_eq : policy.vDistance = answers.map Nearest.distance
  names_eq : policy.vPredictNames = answers.map answerNames

theorem Aligned.addBurstPrediction {testGroup : BurstBlock} {answers : List (Nearest F)}
    {policy policy' : BurstGroupPolicy F} (h : Aligned testGroup answers policy)
    {answer : Nearest F} (hok : policy.addBurstPrediction answer = .ok policy') :
    Aligned testGroup (answers ++ [answer]) policy' := by
  have htrains : policy.vPredictTrains ++ [answer.nearestVec] =
      (answers ++ [answer]).map Nearest.nearestVec := by
    rw [h.trains_eq, List.map_append, List.map_singleton]
  have hdistance : policy.vDistance ++ [answer.distance] =
      (answers ++ [answer]).map Nearest.distance := by
    rw [h.distance_eq, List.map_append, List.map_singleton]
  have hnames : policy.vPredictNames ++ [answerNames answer] =
      (answers ++ [answer]).map answerNames := by
    rw [h.names_eq, List.map_append, List.map_singleton]
  obtain ⟨testBurst, -, hok⟩ := CheckedLoop.bind_eq_ok.mp hok
  dsimp only at hok
  -- the vectors grow before the distance is looked at
  split_ifs at hok
  · cases hok
    exact ⟨h.testGroup_eq, htrains, hdistance, hnames⟩
  · cases hok
    exact ⟨h.testGroup_eq, htrains, hdistance, hnames⟩

theorem aligned_of_ok {testGroup : BurstBlock} {answers : List (Nearest F)}
    {policy : BurstGroupPolicy F} (h : addBurstPredictions testGroup answers = .ok policy) :
    Aligned testGroup answers policy :=
  CheckedLoop.foldlM_inv (I := fun done policy => Aligned testGroup done policy) answers []
    (fun _ _ _ _ _ haligned hstep => haligned.addBurstPrediction hstep) ⟨rfl, rfl, rfl, rfl⟩ h

end Calls

/-! ## The sum of the bucket -/

section Shares

variable {F : Type} [Field F]

/-- **Counting ballots adds their weights to the bucket.** -/
theorem valueSum_count (bucket : UnorderedMap String F) (cast : List (String × F)) :
    UnorderedMap.valueSum (count bucket cast) =
      UnorderedMap.valueSum bucket + (cast.map Prod.snd).sum := by
  induction cast generalizing bucket with
  | nil => exact (add_zero _).symm
  | cons ballot rest ih =>
    have hcount : count bucket (ballot :: rest) =
        count (bucket.update ballot.1 0 (· + ballot.2)) rest := rfl
    rw [hcount, ih, UnorderedMap.valueSum_update, List.map_cons, List.sum_cons, add_assoc]

end Shares

/-- An answer that is near enough, and has bursts. -/
def Counts (answer : Nearest ℝ) : Prop :=
  answer.distance ≤ 1 / 2 ∧ answer.nearestVec ≠ []

noncomputable instance (answer : Nearest ℝ) : Decidable (Counts answer) :=
  inferInstanceAs (Decidable (_ ∧ _))

/-- What a burst has to give away. -/
noncomputable def share (e : Burst × Nearest ℝ) : ℝ :=
  Real.log ((e.1.uniPktNum.toNat : ℝ) + 1) / (Real.sqrt e.2.distance + 1)

theorem answerNames_eq_nil {F : Type} {answer : Nearest F} :
    answerNames answer = [] ↔ answer.nearestVec = [] := by
  rw [answerNames, stringSet, ← List.length_eq_zero_iff, Finset.length_sort,
    Finset.card_eq_zero, List.toFinset_eq_empty_iff, List.map_eq_nil_iff]

/-- **The ballots of one burst add up to its share**, or there are none. -/
theorem sum_ballots (e : Burst × Nearest ℝ) :
    ((ballots e).map Prod.snd).sum = if Counts e.2 then share e else 0 := by
  rw [ballots]
  by_cases hfar : e.2.distance > 1 / 2
  · rw [if_pos hfar, if_neg fun h => not_le.mpr hfar h.1]
    rfl
  · rw [if_neg hfar, List.map_map]
    have hsum : ((answerNames e.2).map (Prod.snd ∘ fun name => (name, vote e.1 e.2))).sum =
        ((answerNames e.2).length : ℝ) * vote e.1 e.2 := by
      show ((answerNames e.2).map fun _ => vote e.1 e.2).sum = _
      rw [List.map_const', List.sum_replicate, nsmul_eq_mul]
    rw [hsum]
    by_cases hnil : e.2.nearestVec = []
    · rw [if_neg fun h => h.2 hnil, answerNames_eq_nil.mpr hnil, List.length_nil, Nat.cast_zero,
        zero_mul]
    · have hne : ((answerNames e.2).length : ℝ) ≠ 0 := by
        rw [Nat.cast_ne_zero, ne_eq, List.length_eq_zero_iff, answerNames_eq_nil]
        exact hnil
      rw [if_pos ⟨not_lt.mp hfar, hnil⟩]
      show _ * (Real.log _ / (_ * _)) = share e
      rw [← mul_div_assoc, mul_div_mul_left _ _ hne, share]
      rfl

/-- **The bucket sums up the shares.** -/
theorem Voted.valueSum_predictBucket {testGroup : BurstBlock} {answers : List (Nearest ℝ)}
    {policy : BurstGroupPolicy ℝ} (h : Voted testGroup answers policy) :
    UnorderedMap.valueSum policy.predictBucket =
      (((testGroup.zip answers).filter fun e => Counts e.2).map share).sum := by
  have hempty : UnorderedMap.valueSum (∅ : UnorderedMap String ℝ) = 0 := rfl
  rw [h.bucket_eq, valueSum_count, hempty, zero_add, allBallots]
  generalize testGroup.zip answers = group
  induction group with
  | nil => rfl
  | cons e rest ih =>
    rw [List.flatMap_cons, List.map_append, List.sum_append, sum_ballots, ih]
    by_cases hcounts : Counts e.2
    · simp [hcounts]
    · simp [hcounts]

/-! ## Rearranged answers -/

/-- The same burst at the same distance, with the same names in its answer. -/
structure Alike (e e' : Burst × Nearest ℝ) : Prop where
  burst_eq : e.1 = e'.1
  distance_eq : e.2.distance = e'.2.distance
  label_iff : ∀ name, (∃ b ∈ e.2.nearestVec, b.instanceLabel = name) ↔
    ∃ b ∈ e'.2.nearestVec, b.instanceLabel = name

theorem Alike.ballots_eq {e e' : Burst × Nearest ℝ} (h : Alike e e') : ballots e = ballots e' := by
  have hnames : answerNames e.2 = answerNames e'.2 := by
    have hset : (e.2.nearestVec.map Burst.instanceLabel).toFinset =
        (e'.2.nearestVec.map Burst.instanceLabel).toFinset := by
      ext name
      simpa only [List.mem_toFinset, List.mem_map] using h.label_iff name
    rw [answerNames, answerNames, stringSet, stringSet, hset]
  rw [ballots, ballots, vote, vote, h.burst_eq, h.distance_eq, hnames]

/-- The bursts of a group with their answers in another order, and the training bursts inside the
answers rearranged. -/
def Rearranged (group group' : List (Burst × Nearest ℝ)) : Prop :=
  ∃ permuted, group'.Perm permuted ∧ List.Forall₂ Alike permuted group

theorem Rearranged.ballots_perm {group group' : List (Burst × Nearest ℝ)}
    (h : Rearranged group group') : (group'.flatMap ballots).Perm (group.flatMap ballots) := by
  obtain ⟨permuted, hperm, halike⟩ := h
  have heq : permuted.flatMap ballots = group.flatMap ballots := by
    induction halike generalizing group' with
    | nil => rfl
    | cons hhead _ ih =>
      rw [List.flatMap_cons, List.flatMap_cons, hhead.ballots_eq, ih (List.Perm.refl _)]
  rw [← heq]
  exact hperm.flatMap_right ballots

/-- **Votes are shared fairly.**  With an answer for every burst of the group, the calls of
`AddBurstPrediction` go through, and `PredictBurstGroup` makes them; the vectors of the policy run
along the group, the bucket sums up the shares of the bursts, and it stays the same under
rearranging. -/
theorem votes_shared {burstGroup : BurstBlock} {answers : List (Nearest ℝ)}
    (hlength : answers.length = burstGroup.length) :
    ∃ policy, addBurstPredictions burstGroup answers = .ok policy ∧
      (∀ lib cfg train cache cache',
        Prediction.predictBursts lib cfg.divisionParam cfg.classifyParam train cache burstGroup =
            .ok (answers, cache') →
          Classifier.predictBurstGroup lib cfg train cache burstGroup = .ok (policy, cache')) ∧
      policy.testGroup = burstGroup ∧
      (policy.vPredictTrains = answers.map Nearest.nearestVec ∧
        policy.vDistance = answers.map Nearest.distance ∧
        policy.vPredictNames = answers.map answerNames ∧
        policy.vPredictTrains.length = burstGroup.length ∧
        policy.vDistance.length = burstGroup.length ∧
        policy.vPredictNames.length = burstGroup.length) ∧
      UnorderedMap.valueSum policy.predictBucket =
        (((burstGroup.zip answers).filter fun e => Counts e.2).map share).sum ∧
      ∀ burstGroup' answers', answers'.length = burstGroup'.length →
        Rearranged (burstGroup.zip answers) (burstGroup'.zip answers') →
          ∃ policy', addBurstPredictions burstGroup' answers' = .ok policy' ∧
            ∀ name, policy'.predictBucket.lookup name = policy.predictBucket.lookup name := by
  obtain ⟨policy, hpolicy⟩ := addBurstPredictions_ok hlength.le
  have haligned := aligned_of_ok hpolicy
  have hvoted := voted_of_ok hpolicy
  refine ⟨policy, hpolicy, ?_, haligned.testGroup_eq, ?_, hvoted.valueSum_predictBucket, ?_⟩
  · intro lib cfg train cache cache' hanswers
    exact predictBurstGroup_eq_ok.mpr ⟨answers, hanswers, hpolicy⟩
  · refine ⟨haligned.trains_eq, haligned.distance_eq, haligned.names_eq, ?_, ?_, ?_⟩
    · rw [haligned.trains_eq, List.length_map, hlength]
    · rw [haligned.distance_eq, List.length_map, hlength]
    · rw [haligned.names_eq, List.length_map, hlength]
  · intro burstGroup' answers' hlength' hrearranged
    obtain ⟨policy', hpolicy'⟩ := addBurstPredictions_ok hlength'.le
    refine ⟨policy', hpolicy', fun name => ?_⟩
    rw [(voted_of_ok hpolicy').lookup_predictBucket, hvoted.lookup_predictBucket]
    exact tally_perm hrearranged.ballots_perm name

/-- One burst, which a burst of the lamp and two of the plug equal, and one which a burst of the
plug equals: each gives away `log 2`, also when they come in the other order. -/
theorem votes_shared_lampAndPlug :
    let short (name : String) : Burst := ⟨1, 1, name, .zero, .zero, [(100, 1)]⟩
    let long (name : String) : Burst := ⟨1, 1, name, .zero, .zero, [(200, 1)]⟩
    ∃ policy policy' : BurstGroupPolicy ℝ,
      addBurstPredictions [short "test", long "test"]
          [⟨0, [short "lamp", short "plug", short "plug"]⟩, ⟨0, [long "plug"]⟩] = .ok policy ∧
        UnorderedMap.valueSum policy.predictBucket = Real.log 2 + Real.log 2 ∧
        addBurstPredictions [long "test", short "test"]
            [⟨0, [long "plug"]⟩, ⟨0, [short "plug", short "lamp", short "plug"]⟩] = .ok policy' ∧
          ∀ name, policy'.predictBucket.lookup name = policy.predictBucket.lookup name := by
  intro short long
  let answers : List (Nearest ℝ) :=
    [⟨0, [short "lamp", short "plug", short "plug"]⟩, ⟨0, [long "plug"]⟩]
  let answers' : List (Nearest ℝ) :=
    [⟨0, [long "plug"]⟩, ⟨0, [short "plug", short "lamp", short "plug"]⟩]
  have hlength : answers.length = [short "test", long "test"].length := rfl
  have hlength' : answers'.length = [long "test", short "test"].length := rfl
  obtain ⟨policy, hpolicy, -, -, -, hsum, hall⟩ := votes_shared hlength
  have hrearranged : Rearranged ([short "test", long "test"].zip answers)
      ([long "test", short "test"].zip answers') := by
    refine ⟨[(short "test", ⟨0, [short "plug", short "lamp", short "plug"]⟩),
      (long "test", ⟨0, [long "plug"]⟩)], List.Perm.swap _ _ _, .cons ⟨rfl, rfl, fun name => ?_⟩
      (.cons ⟨rfl, rfl, fun name => Iff.rfl⟩ .nil)⟩
    simp only [List.mem_cons, List.not_mem_nil, or_false, exists_eq_or_imp, exists_eq_left]
    tauto
  obtain ⟨policy', hpolicy', hsame⟩ := hall _ _ hlength' hrearranged
  refine ⟨policy, policy', hpolicy, hsum.trans ?_, hpolicy', hsame⟩
  have hshort : ((short "test").uniPktNum.toNat : ℝ) + 1 = 2 := by
    show ((1 : ℕ) : ℝ) + 1 = 2
    norm_num
  have hlong : ((long "test").uniPktNum.toNat : ℝ) + 1 = 2 := hshort
  simp [answers, Counts, share, hshort, hlong]

end BurstGroupPolicy
end BurstIoT
