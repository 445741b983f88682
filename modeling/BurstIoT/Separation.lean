import BurstIoT.ClosestLabel
import BurstIoT.DistanceRange
import BurstIoT.Library.TaskPool
import BurstIoT.Recall
import BurstIoT.Verdicts
import BurstIoT.VoteShares

/-!
# Devices that are told apart

A burst votes only for names at a distance of at most `1 / 2`.  Beyond the cut-off the distance is
1, and bursts without a common signature are more than 1 apart, so whatever gets a vote shares a
signature with a burst of the block (`shares_of_vote`).  And whatever is predicted has got a vote,
unless there were none (`genPrediction_scored`).

So if the test bursts of a device share signatures with training bursts of its own type only, and
every block has a burst near to a training burst, then `Predict` goes through and makes no error
(`predict_sound`).
-/

namespace BurstIoT
namespace Separation

open Classifier Prediction TrainStore BurstGroupPolicy

/-! ## Votes -/

/-- Two bursts with a signature in common. -/
def SharesSignature (a b : Burst) : Prop :=
  ∃ sig ∈ a.sigs, sig ∈ b.sigs

instance (a b : Burst) : Decidable (SharesSignature a b) :=
  Multiset.decidableExistsMultiset

/-- **Near bursts share a signature.** -/
theorem shares_of_distance_le {a b : Burst} (ha : a.WellFormed) (hb : b.WellFormed)
    (hapkt : 1 ≤ a.pktNum) (hbpkt : 1 ≤ b.pktNum) (hbroom : b.uniPktNum.toNat ≤ 101) {d : ℝ}
    (hd : a.distance b = .ok d) (hle : d ≤ 1 / 2) : SharesSignature a b := by
  by_contra hnone
  have hdisjoint : ∀ sig ∈ a.sigs, sig ∉ b.sigs := fun sig hsig hsig' => hnone ⟨sig, hsig, hsig'⟩
  by_cases hfar : Burst.Far a b
  · rw [Burst.distance_of_far hfar] at hd
    obtain rfl : (1 : ℝ) = d := Except.ok.inj hd
    norm_num at hle
  · obtain ⟨d', hd', hlt⟩ :=
      Burst.one_lt_distance_of_disjoint ha hb hapkt hbpkt hbroom hfar hdisjoint
    obtain rfl : d' = d := Except.ok.inj (hd'.symm.trans hd)
    linarith

/-- A number of packets of which no difference becomes `INT_MAX` as a `float`. -/
def FloatCount (n : ℕ) : Prop := 0 < n ∧ n ≤ 2147483584

instance (n : ℕ) : Decidable (FloatCount n) :=
  inferInstanceAs (Decidable (0 < n ∧ n ≤ 2147483584))

/-- What is asked of the process: the table has its sizes, and its bursts belong to registered
devices that have been trained with a block. -/
structure Prepared (env : PredictEnv ℝ) : Prop where
  filed : Filed env.cfg.divisionParam env.train
  column : 1 ≤ env.cfg.divisionParam.burstMaxPacketIndex
  room : env.cfg.divisionParam.burstMaxUnisig ≤ 101
  wellFormed : ∀ i j, ∀ t ∈ cell env.train i j, t.WellFormed
  known : ∀ i j, ∀ t ∈ cell env.train i j, env.context.Knows t.instanceLabel ∧
    ∃ block ∈ blocksOf env.context env.blockLevelDistribution t.instanceLabel,
      FloatCount block.pktNum

/-- What is asked of a test block of a device of the given type. -/
structure Distinctive (env : PredictEnv ℝ) (type : String) (block : BurstBlock) : Prop where
  wellFormed : ∀ b ∈ block, b.WellFormed ∧ 1 ≤ b.pktNum
  count : FloatCount (Burst.ofBursts block).pktNum
  reliable : type ≠ "unreliable"
  near : ∃ b ∈ block, ∃ t ∈ scanned env.cfg.divisionParam env.cfg.classifyParam env.train b,
    ∃ d : ℝ, b.distance t = .ok d ∧ d ≤ 1 / 2
  apart : ∀ b ∈ block, ∀ t ∈ scanned env.cfg.divisionParam env.cfg.classifyParam env.train b,
    SharesSignature b t → removeSuffix t.instanceLabel = type

variable {env : PredictEnv ℝ}

theorem exists_cell_of_scanned {b t : Burst}
    (h : t ∈ scanned env.cfg.divisionParam env.cfg.classifyParam env.train b) :
    ∃ i j, t ∈ cell env.train i j := by
  obtain ⟨i, -, j, -, hcell⟩ := mem_scanned.mp h
  exact ⟨_, _, hcell⟩

/-- The answer to a burst of a block. -/
theorem exists_nearestAmong (hprep : Prepared env) {b : Burst} (hb : b.WellFormed)
    (hpkt : 1 ≤ b.pktNum) : ∃ n, env.search b = .ok n ∧ NearestAmong b
      (scanned env.cfg.divisionParam env.cfg.classifyParam env.train b) n := by
  have htest : Testable env.cfg.divisionParam b := ⟨hb.counted, hpkt, hprep.room⟩
  obtain ⟨n, hsearch, hn⟩ := search_least hprep.filed hprep.column htest
  exact ⟨n, hsearch, nearestAmong_of_least hprep.filed htest hn⟩

/-- `AddBurstPrediction` goes through while a burst is left. -/
theorem addBurstPrediction_ok {policy : BurstGroupPolicy ℝ} (answer : Nearest ℝ)
    (hlt : policy.vPredictTrains.length < policy.testGroup.length) :
    ∃ policy', policy.addBurstPrediction answer = .ok policy' := by
  rw [addBurstPrediction, at?_of_lt hlt]
  dsimp only [bind, Except.bind]
  split_ifs
  · exact ⟨_, rfl⟩
  · exact ⟨_, rfl⟩

/-- **The answers to a block.** -/
theorem predictBurstGroup_answers (hprep : Prepared env) {block : BurstBlock}
    (hblock : ∀ b ∈ block, b.WellFormed ∧ 1 ≤ b.pktNum) {cache : PredictionCache ℝ}
    (hcache : env.RightCache cache) :
    ∃ policy cache' answers,
      predictBurstGroup env.lib env.cfg env.train cache block = .ok (policy, cache') ∧
        env.RightCache cache' ∧ Voted block answers policy ∧
        List.Forall₂ (fun b n => env.search b = .ok n) block answers := by
  let I : BurstBlock → BurstGroupPolicy ℝ × PredictionCache ℝ → Prop := fun done s =>
    ∃ answers, Voted block answers s.1 ∧ env.RightCache s.2 ∧
      List.Forall₂ (fun b n => env.search b = .ok n) done answers
  obtain ⟨⟨policy, cache'⟩, hrun, answers, hvoted, hright, hanswers⟩ :
      ∃ s, predictBurstGroup env.lib env.cfg env.train cache block = .ok s ∧ I block s := by
    refine CheckedLoop.foldlM_ok (I := I) (fun done b rest hall s hs => ?_) ?_
    · obtain ⟨answers, hvoted, hright, hanswers⟩ := hs
      have hb : b ∈ block := by
        rw [hall]
        exact List.mem_append_right _ List.mem_cons_self
      obtain ⟨hwf, hpkt⟩ := hblock b hb
      obtain ⟨n, hsearch, -⟩ := exists_nearestAmong hprep hwf hpkt
      rcases predictBurst_eq hright b with ⟨n', cache', hpredict, hsearch', hright'⟩ |
        ⟨fault, -, herror⟩
      · obtain rfl : n = n' := Except.ok.inj (hsearch.symm.trans hsearch')
        have hlt : s.1.vPredictTrains.length < s.1.testGroup.length := by
          rw [hvoted.length_trains, hvoted.group_eq, ← hanswers.length_eq, hall,
            List.length_append, List.length_cons]
          omega
        obtain ⟨policy', hpolicy⟩ := addBurstPrediction_ok n hlt
        refine ⟨(policy', cache'), ?_, answers ++ [n], hvoted.addBurstPrediction hpolicy, hright',
          List.rel_append hanswers (.cons hsearch .nil)⟩
        refine CheckedLoop.bind_eq_ok.mpr ⟨_, hpredict, ?_⟩
        exact CheckedLoop.bind_eq_ok.mpr ⟨_, hpolicy, rfl⟩
      · have herror : env.search b = .error fault := herror
        rw [hsearch] at herror
        cases herror
    · exact ⟨[], ⟨rfl, Nat.zero_le _, rfl, by rw [allBallots, List.zip_nil_right]; rfl, rfl, rfl⟩,
        hcache, .nil⟩
  exact ⟨policy, cache', answers, hrun, hright, hvoted, hanswers⟩

/-- **Who gets a vote**: only labels of training bursts that share a signature with a burst of the
block. -/
theorem shares_of_vote (hprep : Prepared env) {block : BurstBlock}
    (hblock : ∀ b ∈ block, b.WellFormed ∧ 1 ≤ b.pktNum) {answers : List (Nearest ℝ)}
    {policy : BurstGroupPolicy ℝ} (hvoted : Voted block answers policy)
    (hanswers : List.Forall₂ (fun b n => env.search b = .ok n) block answers) {name : String}
    (hname : name ∈ policy.predictBucket) :
    ∃ b ∈ block, ∃ t ∈ scanned env.cfg.divisionParam env.cfg.classifyParam env.train b,
      SharesSignature b t ∧ t.instanceLabel = name := by
  obtain ⟨⟨b, n⟩, he, hnear, t, ht, hlabel⟩ := (hvoted.mem_predictBucket name).mp hname
  have hb : b ∈ block := (List.of_mem_zip he).1
  obtain ⟨hwf, hpkt⟩ := hblock b hb
  obtain ⟨n', hsearch, hn⟩ := exists_nearestAmong hprep hwf hpkt
  obtain rfl : n' = n := Except.ok.inj (hsearch.symm.trans (List.forall₂_zip hanswers he))
  rw [hn.nearestVec] at ht
  obtain ⟨ht, hdist⟩ := List.mem_filter.mp ht
  obtain ⟨i, j, hcell⟩ := exists_cell_of_scanned ht
  have hstorable := (hprep.filed.cells i j t hcell).1
  have hroom : t.uniPktNum.toNat ≤ 101 :=
    hstorable.uniPktNum_le.trans (UInt8.le_iff_toNat_le.mp hprep.room)
  exact ⟨b, hb, t, ht, shares_of_distance_le hwf (hprep.wellFormed i j t hcell) hpkt
    hstorable.pktNum hroom (of_decide_eq_true hdist) (not_lt.mp hnear), hlabel⟩

/-- A block with a burst near to a training burst has a vote. -/
theorem exists_vote (hprep : Prepared env) {type : String} {block : BurstBlock}
    (hblock : Distinctive env type block) {answers : List (Nearest ℝ)}
    {policy : BurstGroupPolicy ℝ} (hvoted : Voted block answers policy)
    (hanswers : List.Forall₂ (fun b n => env.search b = .ok n) block answers) :
    ∃ name, name ∈ policy.predictBucket := by
  obtain ⟨b, hb, t, ht, d, hd, hle⟩ := hblock.near
  obtain ⟨hwf, hpkt⟩ := hblock.wellFormed b hb
  obtain ⟨n, hsearch, hn⟩ := exists_nearestAmong hprep hwf hpkt
  obtain ⟨i, hi⟩ := List.mem_iff_getElem?.mp hb
  have hmem : (b, n) ∈ block.zip answers := by
    obtain ⟨n', hn', hsearch'⟩ := TaskPool.exists_plan hanswers hi
    obtain rfl : n = n' := Except.ok.inj (hsearch.symm.trans hsearch')
    refine List.mem_of_getElem? (i := i) ?_
    rw [List.getElem?_zip_eq_some]
    exact ⟨hi, hn'⟩
  obtain ⟨d', hd', hled⟩ := hn.le t ht
  obtain rfl : d' = d := Except.ok.inj (hd'.symm.trans hd)
  obtain ⟨t', ht'⟩ := List.exists_mem_of_ne_nil _ (hn.nonempty (List.ne_nil_of_mem ht))
  exact ⟨t'.instanceLabel, (hvoted.mem_predictBucket _).mpr
    ⟨(b, n), hmem, not_lt.mpr (hled.trans hle), t', ht', rfl⟩⟩

/-- An empty cache is right. -/
theorem rightCache_nil {F : Type} [Field F] [LinearOrder F] [Elementary F] (env : PredictEnv F) :
    env.RightCache [] :=
  fun _ he => absurd he List.not_mem_nil

/-! ## The prediction -/

theorem gap_lt {a b : Burst} (ha : FloatCount a.pktNum) (hb : FloatCount b.pktNum) :
    gap a b < maxGap := by
  obtain ⟨hapos, hamax⟩ := ha
  obtain ⟨hbpos, hbmax⟩ := hb
  rw [gap, Burst.intPktNum, Burst.intPktNum, toInt_of_lt (by omega), toInt_of_lt (by omega),
    wrapInt_of_mem (by omega) (by omega)]
  exact toFloat_lt_maxGap (by omega)

/-- **What is predicted has got a vote**, if there are votes and each is for a registered name that
has been trained with a block. -/
theorem genPrediction_scored (lib : StdLib) (cfg : TestParam ℝ) (context : Context)
    (blockLevelDistribution : UnorderedMap UInt16 (List Burst)) {policy : BurstGroupPolicy ℝ}
    (hfresh : policy.rankedGroup = [])
    (hvotes : ∃ name score, Scored policy.predictBucket name score)
    (hcount : FloatCount (Burst.ofBursts policy.testGroup).pktNum)
    (hknown : ∀ name score, Scored policy.predictBucket name score → context.Knows name ∧
      ∃ block ∈ blocksOf context blockLevelDistribution name, FloatCount block.pktNum) :
    ∃ policy', policy.genPrediction lib cfg context blockLevelDistribution = .ok policy' ∧
      ∃ score, Scored policy.predictBucket policy'.prediction score := by
  rcases genPrediction_cases lib cfg context blockLevelDistribution hfresh hvotes with
    ⟨name, score, ranked, hscored, -, -, hgen⟩ | ⟨names, ranked, hseveral, hnames, hgen⟩
  · exact ⟨_, hgen, score, hscored⟩
  · have hscored : ∀ name ∈ names, ∃ score, Scored policy.predictBucket name score := by
      intro name hname
      obtain ⟨score, hscored, -⟩ := (hnames name).mp hname
      exact ⟨score, hscored⟩
    have hall : ∀ name ∈ names, context.Knows name := by
      intro name hname
      obtain ⟨score, hscored⟩ := hscored name hname
      exact (hknown name score hscored).1
    rw [foldlM_ask hall] at hgen
    refine ⟨_, hgen, ?_⟩
    rcases closest_cases (offers context blockLevelDistribution
      (Burst.ofBursts policy.testGroup) names) policy.prediction maxGap with
      ⟨hfar, -⟩ | ⟨nearest, hmem, -, -, hbest⟩
    · -- the first name has an offer within the range of an `int`
      obtain ⟨name, hname, -⟩ := hseveral
      obtain ⟨score, hname'⟩ := hscored name hname
      obtain ⟨-, block, hblock, hpkt⟩ := hknown name score hname'
      have hoffer := hfar (name, _) (mem_offers.mpr ⟨hname, block, hblock, rfl⟩)
      exact absurd (gap_lt hcount hpkt) (not_lt.mpr hoffer)
    · show ∃ score, Scored policy.predictBucket (List.foldl closer _ _).1 score
      rw [hbest]
      exact hscored _ (mem_offers.mp hmem).1

/-- **The votes of a distinctive block**: there are some, and each is for a registered name of its
type that has been trained with a block. -/
theorem exists_votes (hprep : Prepared env) {type : String} {block : BurstBlock}
    (hblock : Distinctive env type block) :
    ∃ policy, policyOf env block = .ok policy ∧ policy.testGroup = block ∧
      policy.rankedGroup = [] ∧ (∃ name score, Scored policy.predictBucket name score) ∧
      ∀ name ∈ policy.predictBucket, removeSuffix name = type ∧ env.context.Knows name ∧
        ∃ merged ∈ blocksOf env.context env.blockLevelDistribution name,
          FloatCount merged.pktNum := by
  obtain ⟨policy, cache', answers, hrun, -, hvoted, hanswers⟩ :=
    predictBurstGroup_answers hprep hblock.wellFormed (rightCache_nil env)
  have htype : ∀ name ∈ policy.predictBucket, removeSuffix name = type ∧
      env.context.Knows name ∧ ∃ merged ∈ blocksOf env.context env.blockLevelDistribution name,
        FloatCount merged.pktNum := by
    intro name hname
    obtain ⟨b, hb, t, ht, hshares, rfl⟩ :=
      shares_of_vote hprep hblock.wellFormed hvoted hanswers hname
    obtain ⟨i, j, hcell⟩ := exists_cell_of_scanned ht
    exact ⟨hblock.apart b hb t ht hshares, hprep.known i j t hcell⟩
  refine ⟨policy, (predictBurstGroup_policyOf (rightCache_nil env) hrun).1, hvoted.group_eq,
    hvoted.ranked_eq, ?_, htype⟩
  obtain ⟨name, hname⟩ := exists_vote hprep hblock hvoted hanswers
  obtain ⟨score, hscore⟩ := UnorderedMap.exists_lookup hname
  refine ⟨name, score, hscore, ?_⟩
  rintro rfl
  exact hblock.reliable (htype _ hname).1.symm

/-- **A distinctive block is predicted to be what it is.** -/
theorem predict_block (hprep : Prepared env) {type : String} {block : BurstBlock}
    (hblock : Distinctive env type block) :
    ∃ predict, env.judge block = .ok predict ∧ removeSuffix predict.prediction = type := by
  obtain ⟨policy, hpolicy, hgroup, hranked, hvotes, htype⟩ := exists_votes hprep hblock
  obtain ⟨predict, hdecide, score, hscored⟩ := genPrediction_scored env.lib env.cfg.classifyParam
    env.context env.blockLevelDistribution hranked hvotes (hgroup ▸ hblock.count)
    fun name score hscored => (htype name (UnorderedMap.mem_of_lookup hscored.1)).2
  refine ⟨predict, ?_, (htype _ (UnorderedMap.mem_of_lookup hscored.1)).1⟩
  exact CheckedLoop.bind_eq_ok.mpr ⟨policy, hpolicy, hdecide⟩

/-! ## The score -/

/-- **A score without an error**: every sheet has as many hits as its type occurs among `hits`. -/
structure Flawless (hits : List String) (score : Score ℝ) : Prop where
  TP : ∀ type, (score.sheetOf type).TP = hits.count type
  FN : ∀ type, (score.sheetOf type).FN = 0
  FP : ∀ type, (score.sheetOf type).FP = 0
  missNum : ∀ type, (score.sheetOf type).missNum = 0
  errBurstGroups : score.errBurstGroups = []

/-- The hits that the blocks of a device amount to: one for each that passes the filter. -/
def hitsOf (filter : FilterParam) (type : String) (blocks : List BurstBlock) : List String :=
  (blocks.filter fun block => !decide (toInt (blockPktNum block) < filter.minBlockPktnum.toNat)).map
    fun _ => type

theorem hitsOf_eq (filter : FilterParam) (type : String) (blocks : List BurstBlock) :
    hitsOf filter type blocks = (testedOf filter type blocks).map Prod.fst := by
  rw [hitsOf, testedOf, List.map_map]
  refine congrArg (List.map _) (List.filter_congr fun block _ => ?_)
  rw [passes, ← decide_not, decide_eq_decide, not_lt]

/-- What is asked of the test blocks of a device: none is empty, the bursts are of the type of the
device, and the blocks that pass the filter are distinctive. -/
structure Recognisable (env : PredictEnv ℝ) (type : String) (blocks : List BurstBlock) : Prop where
  ne_nil : ∀ block ∈ blocks, block ≠ []
  label : ∀ block ∈ blocks, ∀ b ∈ block, removeSuffix b.instanceLabel = type
  distinctive : ∀ block ∈ blocks,
    ¬ toInt (blockPktNum block) < env.cfg.filterParam.minBlockPktnum.toNat →
    Distinctive env type block

theorem Recognisable.labelled {type : String} {blocks : List BurstBlock}
    (h : Recognisable env type blocks) : Labelled type blocks := by
  intro block hblock
  obtain ⟨burst, later, rfl⟩ := List.exists_cons_of_ne_nil (h.ne_nil block hblock)
  exact congrArg some (h.label _ hblock burst List.mem_cons_self)

/-- **Verdicts without an error** make a score without an error. -/
theorem flawless_of_confusion {blocks : List (String × BurstBlock)} {score : Score ℝ}
    (h : Confusion env blocks score)
    (hhit : ∀ b ∈ blocks, env.verdict b.2 = some b.1 ∧ b.1 ≠ "unreliable") :
    Flawless (blocks.map Prod.fst) score where
  TP := fun type => by
    rw [h.TP, List.count_eq_countP, List.countP_map]
    refine List.countP_congr fun b hb => ?_
    obtain ⟨hverdict, hreliable⟩ := hhit b hb
    rw [decide_eq_true_eq, Function.comp_apply, beq_iff_eq, hverdict]
    exact ⟨fun hb => hb.1, fun heq => ⟨heq, heq ▸ rfl, heq ▸ hreliable⟩⟩
  FN := fun type => by
    rw [h.FN, List.countP_eq_zero]
    intro b hb hfalse
    obtain ⟨htype, hverdict, -⟩ := of_decide_eq_true hfalse
    exact hverdict (htype ▸ (hhit b hb).1)
  FP := fun type => by
    rw [h.FP, List.countP_eq_zero]
    intro b hb hfalse
    obtain ⟨htype, hverdict, -⟩ := of_decide_eq_true hfalse
    exact htype (Option.some_inj.mp ((hhit b hb).1.symm.trans hverdict))
  missNum := fun type => by
    rw [h.missNum, List.countP_eq_zero]
    intro b hb hfalse
    obtain ⟨-, hverdict⟩ := of_decide_eq_true hfalse
    exact (hhit b hb).2 (Option.some_inj.mp ((hhit b hb).1.symm.trans hverdict))
  errBurstGroups := by
    refine List.perm_nil.mp (h.errBurstGroups.trans (List.Perm.of_eq ?_))
    exact List.filterMap_eq_nil_iff.mpr fun b hb => if_pos (decide_eq_true (hhit b hb))

/-- The hits that a test half amounts to. -/
def allHits (lib : StdLib) (filter : FilterParam) (type : UInt16 → String)
    (testset : UnorderedMap UInt16 (List BurstBlock)) : List String :=
  (lib.iterate testset).flatMap fun e => hitsOf filter (type e.1) e.2

theorem allHits_eq (lib : StdLib) (filter : FilterParam) (type : UInt16 → String)
    (testset : UnorderedMap UInt16 (List BurstBlock)) :
    allHits lib filter type testset = (tested lib filter type testset).map Prod.fst := by
  rw [allHits, tested, List.map_flatMap]
  simp only [hitsOf_eq]

/-- What is asked of a test half; `type` says of which type a device is. -/
structure TestHalf (env : PredictEnv ℝ) (type : UInt16 → String)
    (testset : UnorderedMap UInt16 (List BurstBlock)) : Prop where
  registered : ∀ d ∈ testset, d.toNat < env.context.deviceVec.length
  length_lt : ∀ d blocks, testset.lookup d = some blocks → blocks.length < 2 ^ 31
  recognisable : ∀ d blocks, testset.lookup d = some blocks → Recognisable env (type d) blocks

/-- **All devices.** -/
theorem predict_sound {lib : StdLib} {cfg : Config ℝ} {context : Context}
    {classifier : KBurstClassifier} {statics : PolicyStatics} {cache : PredictionCache ℝ}
    {testset : UnorderedMap UInt16 (List BurstBlock)} {type : UInt16 → String}
    (hprep : Prepared (.ofCall lib cfg context classifier statics))
    (htest : TestHalf (.ofCall lib cfg context classifier statics) type testset)
    (hcache : (PredictEnv.ofCall lib cfg context classifier statics).RightCache cache)
    (hslot : 1 ≤ cfg.divisionParam.timeslot.toNat)
    (hmax : cfg.divisionParam.timeslot.toNat ≤ epochTimeslot * 3600) :
    ∃ s, predict lib cfg context classifier statics cache testset = .ok s ∧
      Flawless (allHits lib cfg.filterParam type testset) s.1 := by
  have hjudge : ∀ d blocks, testset.lookup d = some blocks → ∀ block ∈ blocks,
      passes cfg.filterParam block = true → ∃ predict,
        (PredictEnv.ofCall lib cfg context classifier statics).judge block = .ok predict ∧
          removeSuffix predict.prediction = type d ∧ type d ≠ "unreliable" := by
    intro d blocks hd block hblock hpasses
    have hdistinct := (htest.recognisable d blocks hd).distinctive block hblock
      (not_lt.mpr (of_decide_eq_true hpasses))
    obtain ⟨predict, hpredict, htype⟩ := predict_block hprep hdistinct
    exact ⟨predict, hpredict, htype, hdistinct.reliable⟩
  have hset : TestSet context type testset :=
    ⟨htest.registered, htest.length_lt,
      fun d blocks hd => (htest.recognisable d blocks hd).labelled⟩
  obtain ⟨s, hs, hcounts⟩ := predict_of_judged hset hcache hslot hmax
    fun d blocks hd block hblock hpasses => (hjudge d blocks hd block hblock hpasses).imp
      fun _ h => h.1
  refine ⟨s, hs, ?_⟩
  rw [allHits_eq]
  refine flawless_of_confusion hcounts fun b hb => ?_
  obtain ⟨d, blocks, hd, hblock, hpasses, htype⟩ := mem_tested.mp hb
  obtain ⟨predict, hpredict, hright, hreliable⟩ := hjudge d blocks hd b.2 hblock hpasses
  rw [verdict_of_judge hpredict, hright, htype]
  exact ⟨rfl, htype ▸ hreliable⟩

/-! ## After a training -/

section Trained

open TrainOrder Interleaving Merging

/-- What is asked of a training half: its bursts are well formed and labelled with the registered
name of their device, and its blocks have packets. -/
structure TrainHalf (context : Context) (trainset : UnorderedMap UInt16 (List BurstBlock)) :
    Prop where
  wellFormed : ∀ d blocks, trainset.lookup d = some blocks → ∀ block ∈ blocks, ∀ b ∈ block,
    b.WellFormed
  label : ∀ d blocks, trainset.lookup d = some blocks → ∀ block ∈ blocks, ∀ b ∈ block,
    ∃ device, context.allDevices.lookup b.instanceLabel = some device ∧ device.devId = d
  count : ∀ d blocks, trainset.lookup d = some blocks → ∀ block ∈ blocks,
    FloatCount (Burst.ofBursts block).pktNum

variable {lib : StdLib} {cfg : Config ℝ} {context : Context} {statics : PolicyStatics}
  {trainset : UnorderedMap UInt16 (List BurstBlock)} {tasks : List TrainTask} {s : TrainState}

/-- **A training prepares the process.** -/
theorem prepared_of_run (hindex : 1 ≤ cfg.divisionParam.burstMaxPacketIndex)
    (h101 : cfg.divisionParam.burstMaxUnisig ≤ 101) (htrain : TrainHalf context trainset)
    (htasks : trainTasks lib cfg trainset = .ok tasks) {schedule : List ℕ}
    {log : List TrainAction}
    (hlog : interleave (tasks.map (TrainTask.actions lib)) schedule = some log)
    (hrun : log.foldlM (perform cfg.divisionParam) (TrainState.init cfg statics trainset) =
      .ok s) : Prepared (.ofCall lib cfg context s.classifier s.statics) := by
  obtain ⟨hfiled, htrained, -⟩ := trained_of_run htasks hlog hrun
  refine ⟨hfiled, hindex, h101, fun i j t ht => ?_, fun i j t ht => ?_⟩
  · obtain ⟨d, blocks, hd, block, hblock, hmem⟩ := Recall.exists_block_of_cell htasks htrained ht
    exact htrain.wellFormed d blocks hd block hblock t hmem
  · obtain ⟨d, blocks, hd, block, hblock, hmem⟩ := Recall.exists_block_of_cell htasks htrained ht
    obtain ⟨device, hlook, rfl⟩ := htrain.label d blocks hd block hblock t hmem
    refine ⟨AList.lookup_isSome.mp (Option.isSome_of_mem hlook), Burst.ofBursts block, ?_,
      htrain.count _ blocks hd block hblock⟩
    show Burst.ofBursts block ∈ blocksOf context s.statics.blockLevelDistribution t.instanceLabel
    rw [blocksOf, hlook]
    show Burst.ofBursts block ∈ (s.statics.blockLevelDistribution.lookup device.devId).getD []
    rw [htrained.distribution, hd]
    exact List.mem_append_right _ (List.mem_map_of_mem hblock)

end Trained

/-! ## The home -/

section Home

open TrainOrder Recall Prediction

/-- The lamp, as it is registered. -/
def homeLampDevice : KDevice := ⟨true, 0, "lamp", "lamp", "00:00:00:00:00:00", "10.0.0.2"⟩

/-- The plug, as it is registered. -/
def homePlugDevice : KDevice := ⟨true, 1, "plug", "plug", "00:00:00:00:00:00", "10.0.0.3"⟩

/-- Both devices. -/
def homeRegistry : Context where
  allDevices := AList.insert "plug" homePlugDevice (AList.insert "lamp" homeLampDevice ∅)
  addressMap := AList.insert "10.0.0.3" homePlugDevice (AList.insert "10.0.0.2" homeLampDevice ∅)
  deviceVec := [homeLampDevice, homePlugDevice]
  count := 2

/-- Their types. -/
def homeType (d : UInt16) : String :=
  if d = 0 then "lamp" else "plug"

/-- What a prediction of the home reads, after a training. -/
noncomputable abbrev homeEnv (s : TrainState) : PredictEnv ℝ :=
  .ofCall .insertion {} homeRegistry s.classifier s.statics

/-- What holds of the bursts of the home holds of its blocks, which have one burst each. -/
theorem forall_home {P : UInt16 → Burst → Prop} (hlamp : P 0 lampBurst) (hagain : P 0 lampAgain)
    (hplug : P 1 homePlug) {d : UInt16} {blocks : List BurstBlock}
    (h : homeSet.lookup d = some blocks) {block : BurstBlock} (hblock : block ∈ blocks) :
    ∃ b, block = [b] ∧ P d b := by
  by_cases hone : d = 1
  · subst hone
    obtain rfl : [[homePlug]] = blocks := Option.some_inj.mp h
    exact ⟨homePlug, List.mem_singleton.mp hblock, hplug⟩
  by_cases hzero : d = 0
  · subst hzero
    obtain rfl : [[lampBurst], [lampAgain]] = blocks := Option.some_inj.mp h
    rcases List.mem_cons.mp hblock with rfl | hblock
    · exact ⟨lampBurst, rfl, hlamp⟩
    · exact ⟨lampAgain, List.mem_singleton.mp hblock, hagain⟩
  · rw [homeSet, AList.lookup_insert_ne hone, AList.lookup_insert_ne hzero,
      AList.lookup_empty] at h
    cases h

theorem length_lt_home : ∀ d blocks, homeSet.lookup d = some blocks → blocks.length < 2 ^ 31 := by
  intro d blocks h
  have hle : ∀ e ∈ homeSet.entries, e.2.length < 2 ^ 31 := by
    decide
  exact hle ⟨d, blocks⟩ (AList.mem_lookup_iff.mp h)

theorem trainHalf_home : TrainHalf homeRegistry homeSet where
  wellFormed := fun d blocks h block hblock b hb => by
    obtain ⟨b', rfl, hwf⟩ := forall_home (P := fun _ b => b.WellFormed) wellFormed_lampBurst
      wellFormed_lampAgain ⟨by decide, by decide, by decide, by decide⟩ h hblock
    rwa [List.mem_singleton.mp hb]
  label := fun d blocks h block hblock b hb => by
    obtain ⟨b', rfl, hlabel⟩ := forall_home
      (P := fun d b => ∃ device, homeRegistry.allDevices.lookup b.instanceLabel = some device ∧
        device.devId = d)
      ⟨homeLampDevice, rfl, rfl⟩ ⟨homeLampDevice, rfl, rfl⟩ ⟨homePlugDevice, rfl, rfl⟩ h hblock
    rwa [List.mem_singleton.mp hb]
  count := fun d blocks h block hblock => by
    obtain ⟨b', rfl, hcount⟩ := forall_home
      (P := fun _ b => FloatCount (Burst.ofBursts [b]).pktNum) (by decide) (by decide) (by decide)
      h hblock
    exact hcount

theorem kept_homeLamp : ∃ task ∈ homeTasks, ∃ k ∈ task.trainMap, k.burst = lampBurst :=
  ⟨homeLampTask, List.mem_cons_of_mem _ List.mem_cons_self, _,
    (AList.mem_insert _).mpr (Or.inl rfl), rfl⟩

theorem kept_homePlug : ∃ task ∈ homeTasks, ∃ k ∈ task.trainMap, k.burst = homePlug :=
  ⟨homePlugTask, List.mem_cons_self, _, (AList.mem_insert _).mpr (Or.inl rfl), rfl⟩

/-- Blocks of one distinctive burst each, of the two devices, can be tested. -/
theorem testHalf_of_distinctive {s : TrainState} {testset : UnorderedMap UInt16 (List BurstBlock)}
    (hdevices : ∀ d ∈ testset.keys, d.toNat < 2)
    (hlength : ∀ d blocks, testset.lookup d = some blocks → blocks.length < 2 ^ 31)
    (hblocks : ∀ d blocks, testset.lookup d = some blocks → ∀ block ∈ blocks, ∃ b, block = [b] ∧
      removeSuffix b.instanceLabel = homeType d ∧ Distinctive (homeEnv s) (homeType d) [b]) :
    TestHalf (homeEnv s) homeType testset := by
  refine ⟨fun d hd => hdevices d (AList.mem_keys.mp hd), hlength, fun d blocks h => ⟨?_, ?_, ?_⟩⟩
  · intro block hblock
    obtain ⟨b, rfl, -⟩ := hblocks d blocks h block hblock
    exact List.cons_ne_nil _ _
  · intro block hblock b hb
    obtain ⟨b', rfl, htype, -⟩ := hblocks d blocks h block hblock
    rwa [List.mem_singleton.mp hb]
  · intro block hblock _
    obtain ⟨b, rfl, -, hdistinct⟩ := hblocks d blocks h block hblock
    exact hdistinct

section Trained

open Interleaving

variable {schedule : List ℕ} {log : List TrainAction} {s : TrainState}
  (hlog : interleave (homeTasks.map (TrainTask.actions .insertion)) schedule = some log)
  (hrun : log.foldlM (perform {}) (TrainState.init ({} : Config ℝ) {} homeSet) = .ok s)

include hlog hrun

/-- A block of a burst that equals a stored one, and that shares signatures with its own device
only. -/
theorem distinctive_home
    {type : String} (htype : type ≠ "unreliable") {b : Burst} (hwf : b.WellFormed)
    (hpkt : 1 ≤ b.pktNum) (hcount : FloatCount (Burst.ofBursts [b]).pktNum) {t : Burst}
    (hkept : ∃ task ∈ homeTasks, ∃ k ∈ task.trainMap, k.burst = t) (hstorable : Storable {} t)
    (hsame : b.same t = true) (hroom : t.pktNum + 120 < 2 ^ 31)
    (hscans : Scans {} ({} : TestParam ℝ) b t)
    (hapart : ∀ t' ∈ [lampBurst, lampAgain, homePlug],
      SharesSignature b t' → removeSuffix t'.instanceLabel = type) :
    Distinctive (homeEnv s) type [b] := by
  obtain ⟨hfiled, htrained, -⟩ := trained_of_run trainTasks_home hlog hrun
  have hcell : t ∈ cell s.classifier.train (rowOf t) (columnOf {} t) :=
    (mem_cell_iff htrained).mpr ⟨hkept, rfl, rfl⟩
  obtain ⟨hrow, hcolumn⟩ := mem_window_of_scans hstorable hscans
  refine ⟨fun b' hb' => ?_, hcount, htype, ?_, fun b' hb' t' ht' hshares => ?_⟩
  · rw [List.mem_singleton.mp hb']
    exact ⟨hwf, hpkt⟩
  · refine ⟨b, List.mem_cons_self, t, mem_scanned.mpr ⟨_, hrow, _, hcolumn, ?_⟩, 0, ?_,
      by norm_num⟩
    · rw [Int.toNat_natCast, Int.toNat_natCast]
      exact hcell
    · rw [Burst.distance_congr hsame]
      exact Burst.distance_self hstorable.counted
        (hstorable.uniPktNum_le.trans (by decide)) hroom
  · obtain ⟨i, j, ht'⟩ := exists_cell_of_scanned ht'
    obtain ⟨d, blocks, h, block, hblock, hmem⟩ :=
      exists_block_of_cell trainTasks_home htrained ht'
    obtain ⟨b'', rfl, hin⟩ := forall_home (P := fun _ b => b ∈ [lampBurst, lampAgain, homePlug])
      List.mem_cons_self (by simp) (by simp) h hblock
    rw [List.mem_singleton.mp hb'] at hshares
    rw [List.mem_singleton.mp hmem] at hshares ⊢
    exact hapart b'' hin hshares

/-- What the home was trained with can be tested. -/
theorem testHalf_home :
    TestHalf (homeEnv s) homeType homeSet := by
  have hdevices : ∀ d ∈ homeSet.keys, d.toNat < 2 :=
    List.forall_mem_cons.mpr ⟨by decide, List.forall_mem_singleton.mpr (by decide)⟩
  refine testHalf_of_distinctive hdevices length_lt_home fun d blocks h block hblock => ?_
  exact forall_home (P := fun d b =>
      removeSuffix b.instanceLabel = homeType d ∧ Distinctive (homeEnv s) (homeType d) [b])
    ⟨by decide, distinctive_home hlog hrun (by decide) wellFormed_lampBurst (by decide) (by decide)
      kept_homeLamp storable_lampBurst (Burst.same_refl _) (by decide) scans_lampBurst (by decide)⟩
    ⟨by decide, distinctive_home hlog hrun (by decide) wellFormed_lampAgain (by decide) (by decide)
      kept_homeLamp storable_lampBurst (by decide) (by decide) scans_lampBurst (by decide)⟩
    ⟨by decide, distinctive_home hlog hrun (by decide) wellFormed_homePlug (by decide) (by decide)
      kept_homePlug storable_homePlug (Burst.same_refl _) (by decide) scans_homePlug (by decide)⟩
    h hblock

/-- The training prepares the process. -/
theorem prepared_home :
    Prepared (homeEnv s) :=
  prepared_of_run (by decide) (by decide) trainHalf_home trainTasks_home hlog hrun

/-- The prediction of the home goes through. -/
theorem predict_home :
    ∃ alone, predict .insertion ({} : Config ℝ) homeRegistry s.classifier s.statics [] homeSet =
      .ok alone := by
  obtain ⟨alone, halone, -⟩ := predict_sound (prepared_home hlog hrun) (testHalf_home hlog hrun)
    (rightCache_nil _) (by decide) (by decide)
  exact ⟨alone, halone⟩

end Trained

end Home

end Separation
end BurstIoT
