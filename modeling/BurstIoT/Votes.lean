import BurstIoT.Policy

/-!
# What a policy has counted

`AddBurstPrediction` is called once for each burst of the group, with the answer of `PredictBurst`.
Here the bucket is read off the bursts and their answers.  An answer that is near enough casts one
ballot for each name among its bursts (`ballots`), and the score of a name in the bucket is the sum
of its ballots (`lookup_predictBucket`).  Over exact numbers the scores therefore do not depend on
the order of the bursts (`lookup_predictBucket_perm`).
-/

namespace BurstIoT
namespace BurstGroupPolicy

/-! ## Ballots -/

section Ballots

variable {F : Type} [Field F]

/-- Counting ballots. -/
def count (bucket : UnorderedMap String F) (cast : List (String × F)) : UnorderedMap String F :=
  cast.foldl (fun bucket ballot => bucket.update ballot.1 0 fun score => score + ballot.2) bucket

/-- The score of a name, if a ballot was cast for it. -/
def tally (cast : List (String × F)) (name : String) : Option F :=
  let mine := cast.filter fun ballot => ballot.1 = name
  if mine = [] then none else some (mine.map Prod.snd).sum

theorem lookup_count (cast : List (String × F)) (name : String) :
    (count ∅ cast).lookup name = tally cast name := by
  rw [count, UnorderedMap.lookup_foldl_update Prod.fst 0 fun score ballot => score + ballot.2]
  rw [tally, AList.lookup_empty, Option.getD_none, List.sum_eq_foldl, List.foldl_map]

/-- **The order of the ballots does not matter.** -/
theorem tally_perm {cast cast' : List (String × F)} (h : cast'.Perm cast) (name : String) :
    tally cast' name = tally cast name := by
  have hmine := h.filter fun ballot => ballot.1 = name
  have hnil : cast'.filter (fun ballot => ballot.1 = name) = [] ↔
      cast.filter (fun ballot => ballot.1 = name) = [] := by
    rw [← List.length_eq_zero_iff, ← List.length_eq_zero_iff, hmine.length_eq]
  rw [tally, tally]
  simp only [hnil, (hmine.map Prod.snd).sum_eq]

theorem tally_isSome {cast : List (String × F)} {name : String} :
    (tally cast name).isSome = true ↔ ∃ ballot ∈ cast, ballot.1 = name := by
  rw [tally]
  simp only [List.filter_eq_nil_iff, decide_eq_true_eq]
  split_ifs with h
  · simp only [Option.isSome_none, Bool.false_eq_true, false_iff, not_exists, not_and]
    exact h
  · push Not at h
    simpa using h

end Ballots

/-! ## The calls of `AddBurstPrediction` -/

variable {F : Type} [Field F] [LinearOrder F] [Elementary F]

/-- The names among the bursts of an answer. -/
def answerNames (answer : Nearest F) : List String :=
  stringSet (answer.nearestVec.map Burst.instanceLabel)

/-- The weight of each ballot that a burst casts with its answer. -/
def vote (testBurst : Burst) (answer : Nearest F) : F :=
  Elementary.log ((testBurst.uniPktNum.toNat : F) + 1) /
    (((answerNames answer).length : F) * (Elementary.sqrt answer.distance + 1))

/-- The ballots of a burst with its answer. -/
def ballots (e : Burst × Nearest F) : List (String × F) :=
  if e.2.distance > 1 / 2 then []
  else (answerNames e.2).map fun name => (name, vote e.1 e.2)

/-- The ballots of the bursts that have their answers. -/
def allBallots (testGroup : BurstBlock) (answers : List (Nearest F)) : List (String × F) :=
  (testGroup.zip answers).flatMap ballots

/-- `AddBurstPrediction` with one answer after the other, on a new policy. -/
def addBurstPredictions (testGroup : BurstBlock) (answers : List (Nearest F)) :
    Except Fault (BurstGroupPolicy F) :=
  answers.foldlM addBurstPrediction { testGroup }

/-- A policy that has got the answers `answers` and has made no prediction yet. -/
structure Voted (testGroup : BurstBlock) (answers : List (Nearest F))
    (policy : BurstGroupPolicy F) : Prop where
  group_eq : policy.testGroup = testGroup
  length_le : answers.length ≤ testGroup.length
  length_trains : policy.vPredictTrains.length = answers.length
  bucket_eq : policy.predictBucket = count ∅ (allBallots testGroup answers)
  ranked_eq : policy.rankedGroup = []
  prediction_eq : policy.prediction = ""

theorem zip_concat {α β : Type} {l : List α} {done : List β} {a : α} (b : β)
    (h : l[done.length]? = some a) : l.zip (done ++ [b]) = l.zip done ++ [(a, b)] := by
  induction done generalizing l with
  | nil =>
    cases l with
    | nil => cases h
    | cons x l =>
      obtain rfl : x = a := Option.some_inj.mp h
      simp
  | cons c done ih =>
    cases l with
    | nil => cases h
    | cons x l =>
      rw [List.length_cons, List.getElem?_cons_succ] at h
      rw [List.cons_append, List.zip_cons_cons, List.zip_cons_cons, ih h, List.cons_append]

/-- **One call** counts the ballots of its burst. -/
theorem Voted.addBurstPrediction {testGroup : BurstBlock} {answers : List (Nearest F)}
    {policy policy' : BurstGroupPolicy F} (h : Voted testGroup answers policy)
    {answer : Nearest F} (hok : policy.addBurstPrediction answer = .ok policy') :
    Voted testGroup (answers ++ [answer]) policy' := by
  obtain ⟨testBurst, hat, hok⟩ := CheckedLoop.bind_eq_ok.mp hok
  rw [at?_eq_ok, h.group_eq, h.length_trains] at hat
  have hlt : answers.length < testGroup.length := (List.getElem?_eq_some_iff.mp hat).1
  have hall : allBallots testGroup (answers ++ [answer]) =
      allBallots testGroup answers ++ ballots (testBurst, answer) := by
    rw [allBallots, zip_concat answer hat, List.flatMap_append, List.flatMap_singleton]
    rfl
  have hlen : (answers ++ [answer]).length ≤ testGroup.length := by
    rw [List.length_append, List.length_singleton]
    omega
  have htrains : (policy.vPredictTrains ++ [answer.nearestVec]).length =
      (answers ++ [answer]).length := by
    rw [List.length_append, List.length_append, h.length_trains]
    rfl
  dsimp only at hok
  split_ifs at hok with hfar
  · have hnone : ballots (testBurst, answer) = [] := if_pos hfar
    cases hok
    refine ⟨h.group_eq, hlen, htrains, ?_, h.ranked_eq, h.prediction_eq⟩
    rw [hall, hnone, List.append_nil]
    exact h.bucket_eq
  · have hcast : ballots (testBurst, answer) =
        (answerNames answer).map fun name => (name, vote testBurst answer) := if_neg hfar
    cases hok
    refine ⟨h.group_eq, hlen, htrains, ?_, h.ranked_eq, h.prediction_eq⟩
    rw [hall, hcast, count, List.foldl_append, List.foldl_map, ← count, ← h.bucket_eq]
    rfl

/-- **The policy that has got all its answers.** -/
theorem voted_of_ok {testGroup : BurstBlock} {answers : List (Nearest F)}
    {policy : BurstGroupPolicy F} (h : addBurstPredictions testGroup answers = .ok policy) :
    Voted testGroup answers policy := by
  have hstart : Voted testGroup ([] : List (Nearest F)) { testGroup } :=
    ⟨rfl, Nat.zero_le _, rfl, by rw [allBallots, List.zip_nil_right]; rfl, rfl, rfl⟩
  exact CheckedLoop.foldlM_inv (I := fun done policy => Voted testGroup done policy) answers []
    (fun _ _ _ _ _ hvoted hstep => hvoted.addBurstPrediction hstep) hstart h

/-- **There is a burst for every answer**: then the calls do not fail. -/
theorem addBurstPredictions_ok {testGroup : BurstBlock} {answers : List (Nearest F)}
    (h : answers.length ≤ testGroup.length) :
    ∃ policy, addBurstPredictions testGroup answers = .ok policy := by
  let I : List (Nearest F) → BurstGroupPolicy F → Prop := fun done policy =>
    policy.testGroup = testGroup ∧ policy.vPredictTrains.length = done.length
  have hstep : ∀ done answer rest, answers = done ++ answer :: rest → ∀ policy, I done policy →
      ∃ policy', addBurstPrediction policy answer = .ok policy' ∧ I (done ++ [answer]) policy' := by
    intro done answer rest hanswers policy ⟨hgroup, hlength⟩
    have hlt : policy.vPredictTrains.length < policy.testGroup.length := by
      rw [hanswers, List.length_append, List.length_cons] at h
      rw [hgroup, hlength]
      omega
    have hlength' : (policy.vPredictTrains ++ [answer.nearestVec]).length =
        (done ++ [answer]).length := by
      rw [List.length_append, List.length_append, hlength]
      rfl
    rw [addBurstPrediction, at?_of_lt hlt]
    dsimp only [bind, Except.bind]
    split_ifs
    · exact ⟨_, rfl, hgroup, hlength'⟩
    · exact ⟨_, rfl, hgroup, hlength'⟩
  obtain ⟨policy, hpolicy, -⟩ := CheckedLoop.foldlM_ok hstep
    (show I [] ({ testGroup } : BurstGroupPolicy F) from ⟨rfl, rfl⟩)
  exact ⟨policy, hpolicy⟩

/-- The score of a name is the sum of its ballots. -/
theorem Voted.lookup_predictBucket {testGroup : BurstBlock} {answers : List (Nearest F)}
    {policy : BurstGroupPolicy F} (h : Voted testGroup answers policy) (name : String) :
    policy.predictBucket.lookup name = tally (allBallots testGroup answers) name := by
  rw [h.bucket_eq, lookup_count]

/-- **The names with a score** are the labels of the answers that are near enough. -/
theorem Voted.mem_predictBucket {testGroup : BurstBlock} {answers : List (Nearest F)}
    {policy : BurstGroupPolicy F} (h : Voted testGroup answers policy) (name : String) :
    name ∈ policy.predictBucket ↔ ∃ e ∈ testGroup.zip answers, ¬ e.2.distance > 1 / 2 ∧
      ∃ b ∈ e.2.nearestVec, b.instanceLabel = name := by
  have hballot : ∀ e : Burst × Nearest F, (∃ ballot ∈ ballots e, ballot.1 = name) ↔
      ¬ e.2.distance > 1 / 2 ∧ ∃ b ∈ e.2.nearestVec, b.instanceLabel = name := by
    intro e
    rw [ballots]
    split_ifs with hfar
    · exact iff_of_false nofun fun h => h.1 hfar
    · rw [and_iff_right hfar]
      simp [answerNames, stringSet]
  rw [← AList.lookup_isSome, h.lookup_predictBucket, tally_isSome, allBallots]
  simp only [List.mem_flatMap, ← hballot]
  constructor
  · rintro ⟨ballot, ⟨e, he, hcast⟩, hname⟩
    exact ⟨e, he, ballot, hcast, hname⟩
  · rintro ⟨e, he, ballot, hcast, hname⟩
    exact ⟨ballot, ⟨e, he, hcast⟩, hname⟩

/-- **Over exact numbers the scores do not depend on the order of the bursts.** -/
theorem Voted.lookup_predictBucket_perm {testGroup testGroup' : BurstBlock}
    {answers answers' : List (Nearest F)} {policy policy' : BurstGroupPolicy F}
    (h : Voted testGroup answers policy) (h' : Voted testGroup' answers' policy')
    (hperm : (testGroup'.zip answers').Perm (testGroup.zip answers)) (name : String) :
    policy'.predictBucket.lookup name = policy.predictBucket.lookup name := by
  rw [h.lookup_predictBucket, h'.lookup_predictBucket]
  exact tally_perm (hperm.flatMap_right ballots) name

end BurstGroupPolicy
end BurstIoT
