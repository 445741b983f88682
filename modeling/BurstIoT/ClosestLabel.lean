import BurstIoT.KnownNames
import BurstIoT.TrainOrder

/-!
# The choice among close candidates

Among the names whose score is within `MIN_OUTPERFORM` of the best, `GenPrediction` is meant to
return one whose training blocks come closest to the block at hand in their number of packets.
`IsChoice` says so of a name, in terms of the blocks themselves and not of the merged bursts that
stand for them.  The two agree because a merged burst counts all packets of its parts, even if it
has more signatures than `uniPktNum` can count (`Burst.pktNum_ofBursts`).

**Rounding.**  The least difference so far is kept in a `float`, so what comes closest is a block at
the least *rounded* difference.  Up to `2 ^ 24` packets that is the difference itself; beyond, a
block that is one packet farther away may be as near (`not_isChoice_id`).

`genPrediction_isChoice` is the main result.  Nothing in `IsChoice` depends on the order in which
the bursts were added or the bucket is traversed, so where only one name is a choice, neither does
what is returned.
-/

namespace BurstIoT
namespace BurstGroupPolicy

open Classifier TrainOrder

/-! ## The closest training block -/

/-- The blocks that the device of a name was trained with. -/
def trainedBlocks (context : Context) (trained : List (UInt16 × BurstBlock)) (name : String) :
    List BurstBlock :=
  match context.allDevices.lookup name with
  | some device => (trained.filter fun e => e.1 = device.devId).map Prod.snd
  | none => []

/-- The difference of two blocks in their number of packets. -/
def blockGap (testGroup block : BurstBlock) : ℕ :=
  ((blockPktNum testGroup : ℤ) - blockPktNum block).natAbs

/-- A burst whose packets are those of its entries. -/
def Sized (block : BurstBlock) : Prop :=
  ∀ b ∈ block, b.pktNum = Tally.size b.packetDetail

instance (block : BurstBlock) : Decidable (Sized block) :=
  inferInstanceAs (Decidable (∀ b ∈ block, b.pktNum = Tally.size b.packetDetail))

/-- A number of packets, as an `int` that has not overflown counts them. -/
def IntCount (n : ℕ) : Prop := 0 < n ∧ n ≤ 2147483647

instance (n : ℕ) : Decidable (IntCount n) :=
  inferInstanceAs (Decidable (0 < n ∧ n ≤ 2147483647))

theorem pktNum_ofBursts_of_sized {block : BurstBlock} (h : Sized block) :
    (Burst.ofBursts block).pktNum = blockPktNum block :=
  Burst.pktNum_ofBursts h

theorem intPktNum_ofBursts {block : BurstBlock} (h : Sized block)
    (hcount : IntCount (blockPktNum block)) :
    (Burst.ofBursts block).intPktNum = blockPktNum block := by
  obtain ⟨-, hle⟩ := hcount
  rw [Burst.intPktNum, pktNum_ofBursts_of_sized h, toInt_of_lt (by omega)]

/-- **The difference that `GenPrediction` compares** is the rounded difference of the blocks. -/
theorem gap_ofBursts {testGroup block : BurstBlock} (hgroup : Sized testGroup)
    (hblock : Sized block) (hcount : IntCount (blockPktNum testGroup))
    (hcount' : IntCount (blockPktNum block)) :
    gap (Burst.ofBursts testGroup) (Burst.ofBursts block) =
      FloatRounding.toFloat (blockGap testGroup block) := by
  rw [gap, intPktNum_ofBursts hgroup hcount, intPktNum_ofBursts hblock hcount']
  obtain ⟨-, hle⟩ := hcount
  obtain ⟨-, hle'⟩ := hcount'
  rw [wrapInt_of_mem (by omega) (by omega), blockGap]

/-- The differences that become less than `INT_MAX` does. -/
theorem toFloat_lt_maxGap {n : ℕ} (h : n < 2147483584) : FloatRounding.toFloat n < maxGap :=
  lt_of_le_of_lt (FloatRounding.toFloat_mono (Nat.le_sub_one_of_lt h)) (by decide)

/-- The merged bursts of a name are those of its blocks. -/
theorem blocksOf_foldl_pushLevel (context : Context) (trained : List (UInt16 × BurstBlock))
    (name : String) :
    blocksOf context (trained.foldl pushLevel ∅) name =
      (trainedBlocks context trained name).map Burst.ofBursts := by
  rw [blocksOf, trainedBlocks]
  cases context.allDevices.lookup name with
  | none => rfl
  | some device =>
    dsimp only
    rw [lookup_foldl_pushLevel, AList.lookup_empty, Option.getD_none, List.nil_append, List.map_map]
    split_ifs with hnone
    · rw [hnone]
      rfl
    · rfl

theorem mem_trained_of_mem_trainedBlocks {context : Context} {trained : List (UInt16 × BurstBlock)}
    {name : String} {block : BurstBlock} (h : block ∈ trainedBlocks context trained name) :
    ∃ d, (d, block) ∈ trained := by
  rw [trainedBlocks] at h
  split at h
  · obtain ⟨e, he, rfl⟩ := List.mem_map.mp h
    exact ⟨e.1, List.mem_of_mem_filter he⟩
  · cases h

section Choice

variable {F : Type} [Field F] [LinearOrder F]

/-- A name within `MIN_OUTPERFORM` of the best score, one of whose training blocks is at the least
difference from the block at hand among the blocks of all such names, after rounding. -/
def IsChoice (round : ℕ → ℕ) (cfg : TestParam F) (context : Context)
    (trained : List (UInt16 × BurstBlock)) (bucket : UnorderedMap String F)
    (testGroup : BurstBlock) (name : String) : Prop :=
  Contender cfg bucket name ∧ ∃ block ∈ trainedBlocks context trained name,
    ∀ other, Contender cfg bucket other → ∀ block' ∈ trainedBlocks context trained other,
      round (blockGap testGroup block) ≤ round (blockGap testGroup block')

/-- The names in the bucket are registered, different from `unreliable`, and have been trained. -/
def Usable (context : Context) (trained : List (UInt16 × BurstBlock))
    (bucket : UnorderedMap String F) : Prop :=
  ∀ name ∈ bucket,
    context.Knows name ∧ name ≠ "unreliable" ∧ trainedBlocks context trained name ≠ []

variable {cfg : TestParam F} {context : Context} {trained : List (UInt16 × BurstBlock)}

section Congr

variable {bucket bucket' : UnorderedMap String F} {testGroup testGroup' : BurstBlock}

theorem contender_congr (hlookup : ∀ name, bucket'.lookup name = bucket.lookup name)
    (name : String) : Contender cfg bucket' name ↔ Contender cfg bucket name := by
  simp only [Contender, Scored, hlookup]

theorem blockGap_congr (hcount : blockPktNum testGroup' = blockPktNum testGroup)
    (block : BurstBlock) : blockGap testGroup' block = blockGap testGroup block := by
  rw [blockGap, hcount, blockGap]

/-- **What is a choice depends on the scores and on the number of packets only.** -/
theorem isChoice_congr {round : ℕ → ℕ} (hlookup : ∀ name, bucket'.lookup name = bucket.lookup name)
    (hcount : blockPktNum testGroup' = blockPktNum testGroup) (name : String) :
    IsChoice round cfg context trained bucket' testGroup' name ↔
      IsChoice round cfg context trained bucket testGroup name := by
  simp only [IsChoice, contender_congr hlookup, blockGap_congr hcount]

end Congr

theorem blockPktNum_perm {testGroup reordered : BurstBlock} (hperm : reordered.Perm testGroup) :
    blockPktNum reordered = blockPktNum testGroup :=
  (hperm.map Burst.pktNum).sum_eq

/-- What is asked of the blocks: their bursts count their packets, and an `int` counts those of a
block. -/
structure Countable (trained : List (UInt16 × BurstBlock)) (testGroup : BurstBlock) : Prop where
  group : Sized testGroup
  count : IntCount (blockPktNum testGroup)
  sized : ∀ e ∈ trained, Sized e.2
  counts : ∀ e ∈ trained, IntCount (blockPktNum e.2)

/-- The differences from the training blocks of a name. -/
theorem Countable.gap_eq {testGroup : BurstBlock} (h : Countable trained testGroup) {name : String}
    {block : BurstBlock} (hblock : block ∈ trainedBlocks context trained name) :
    gap (Burst.ofBursts testGroup) (Burst.ofBursts block) =
      FloatRounding.toFloat (blockGap testGroup block) := by
  obtain ⟨d, hd⟩ := mem_trained_of_mem_trainedBlocks hblock
  exact gap_ofBursts h.group (h.sized _ hd) h.count (h.counts _ hd)

theorem Countable.perm {testGroup reordered : BurstBlock} (h : Countable trained testGroup)
    (hperm : reordered.Perm testGroup) : Countable trained reordered where
  group b hb := h.group b (hperm.mem_iff.mp hb)
  count := by
    rw [blockPktNum_perm hperm]
    exact h.count
  sized := h.sized
  counts := h.counts

/-- Where rounding keeps all differences, a choice among the rounded ones is one among the exact
ones. -/
theorem IsChoice.of_keep {round : ℕ → ℕ} {bucket : UnorderedMap String F} {testGroup : BurstBlock}
    {name : String} (h : IsChoice round cfg context trained bucket testGroup name)
    (hkeep : ∀ e ∈ trained, round (blockGap testGroup e.2) = blockGap testGroup e.2) :
    IsChoice id cfg context trained bucket testGroup name := by
  obtain ⟨hcontender, block, hblock, hle⟩ := h
  have hkept : ∀ name, ∀ block ∈ trainedBlocks context trained name,
      round (blockGap testGroup block) = blockGap testGroup block := by
    intro name block hblock
    obtain ⟨d, hd⟩ := mem_trained_of_mem_trainedBlocks hblock
    exact hkeep _ hd
  refine ⟨hcontender, block, hblock, fun other hother block' hblock' => ?_⟩
  have hrounded := hle other hother block' hblock'
  rwa [hkept _ block hblock, hkept _ block' hblock'] at hrounded

/-- The nearest of the offers of all contenders makes its name a choice. -/
theorem isChoice_of_nearest {bucket : UnorderedMap String F} {testGroup : BurstBlock}
    (h : Countable trained testGroup) {names : List String}
    (hnames : ∀ name, name ∈ names ↔ Contender cfg bucket name) {nearest : String × ℕ}
    (hmem : nearest ∈
      offers context (trained.foldl pushLevel ∅) (Burst.ofBursts testGroup) names)
    (hle : ∀ offer ∈ offers context (trained.foldl pushLevel ∅) (Burst.ofBursts testGroup) names,
      nearest.2 ≤ offer.2) :
    IsChoice FloatRounding.toFloat cfg context trained bucket testGroup nearest.1 := by
  obtain ⟨hname, merged, hmerged, heq⟩ := mem_offers.mp hmem
  rw [blocksOf_foldl_pushLevel] at hmerged
  obtain ⟨block, hblock, rfl⟩ := List.mem_map.mp hmerged
  refine ⟨(hnames _).mp hname, block, hblock, fun other hother block' hblock' => ?_⟩
  have hoffer := hle (other, gap (Burst.ofBursts testGroup) (Burst.ofBursts block'))
    (mem_offers.mpr ⟨(hnames other).mpr hother, Burst.ofBursts block', ?_, rfl⟩)
  · rw [← heq, h.gap_eq hblock] at hoffer
    rwa [h.gap_eq hblock'] at hoffer
  · rw [blocksOf_foldl_pushLevel]
    exact List.mem_map_of_mem hblock'

omit [Field F] [LinearOrder F] in
theorem Usable.of_scored {bucket : UnorderedMap String F} (h : Usable context trained bucket)
    {name : String} {score : F} (hscored : Scored bucket name score) :
    context.Knows name ∧ trainedBlocks context trained name ≠ [] := by
  have hmem : name ∈ bucket := UnorderedMap.mem_of_lookup hscored.1
  exact ⟨(h name hmem).1, (h name hmem).2.2⟩

/-- If there are several contenders, one of them has a training block that is not so far off that
the search passes over it. -/
def Findable (cfg : TestParam F) (context : Context) (trained : List (UInt16 × BurstBlock))
    (bucket : UnorderedMap String F) (testGroup : BurstBlock) : Prop :=
  (∃ name other, name ≠ other ∧ Contender cfg bucket name ∧ Contender cfg bucket other) →
    ∃ name, Contender cfg bucket name ∧ ∃ block ∈ trainedBlocks context trained name,
      blockGap testGroup block < 2147483584

theorem findable_congr {bucket bucket' : UnorderedMap String F} {testGroup testGroup' : BurstBlock}
    (hlookup : ∀ name, bucket'.lookup name = bucket.lookup name)
    (hcount : blockPktNum testGroup' = blockPktNum testGroup) :
    Findable cfg context trained bucket' testGroup' ↔
      Findable cfg context trained bucket testGroup := by
  simp only [Findable, contender_congr hlookup, blockGap_congr hcount]

/-- **A lone contender is the choice.** -/
theorem isChoice_of_only (round : ℕ → ℕ) {bucket : UnorderedMap String F} {testGroup : BurstBlock}
    {name : String} (hname : Contender cfg bucket name)
    (honly : ∀ other, Contender cfg bucket other → other = name)
    (hblocks : trainedBlocks context trained name ≠ []) :
    IsChoice round cfg context trained bucket testGroup name := by
  let distance := fun block => round (blockGap testGroup block)
  obtain ⟨block, hblock⟩ :
      ∃ block, (trainedBlocks context trained name).argmin distance = some block :=
    Option.ne_none_iff_exists'.mp fun hnone => hblocks (List.argmin_eq_none.mp hnone)
  refine ⟨hname, block, List.argmin_mem hblock, fun other hother block' hblock' => ?_⟩
  rw [honly other hother] at hblock'
  exact List.le_of_mem_argmin (f := distance) hblock' hblock

/-- **Asking for all contenders**, from any name on, ends at a choice. -/
theorem isChoice_foldl_closer {bucket : UnorderedMap String F} {testGroup : BurstBlock}
    (h : Countable trained testGroup)
    (hfind : ∃ name, Contender cfg bucket name ∧ ∃ block ∈ trainedBlocks context trained name,
      blockGap testGroup block < 2147483584) {names : List String} (start : String)
    (hnames : ∀ name, name ∈ names ↔ Contender cfg bucket name) :
    IsChoice FloatRounding.toFloat cfg context trained bucket testGroup
      ((offers context (trained.foldl pushLevel ∅) (Burst.ofBursts testGroup) names).foldl
        closer (start, maxGap)).1 := by
  rcases closest_cases (offers context (trained.foldl pushLevel ∅)
    (Burst.ofBursts testGroup) names) start maxGap with
    ⟨hfar, -⟩ | ⟨nearest, hmem, -, hle, hbest⟩
  · obtain ⟨name, hname, block, hblock, hlt⟩ := hfind
    have hoffer : maxGap ≤ gap (Burst.ofBursts testGroup) (Burst.ofBursts block) :=
      hfar (name, _) (mem_offers.mpr ⟨(hnames name).mpr hname, Burst.ofBursts block, by
        rw [blocksOf_foldl_pushLevel]
        exact List.mem_map_of_mem hblock, rfl⟩)
    rw [h.gap_eq hblock] at hoffer
    exact absurd (toFloat_lt_maxGap hlt) (not_lt.mpr hoffer)
  · rw [hbest]
    exact isChoice_of_nearest h hnames hmem hle

variable [IsStrictOrderedRing F]

/-- **The prediction is a choice.** -/
theorem genPrediction_isChoice (lib : StdLib) (hmin : 0 ≤ cfg.minOutperform)
    {policy : BurstGroupPolicy F} (hfresh : policy.rankedGroup = [])
    (h : Countable trained policy.testGroup)
    (hbucket : ∃ name, name ∈ policy.predictBucket)
    (husable : Usable context trained policy.predictBucket)
    (hfind : Findable cfg context trained policy.predictBucket policy.testGroup) :
    ∃ policy', policy.genPrediction lib cfg context (trained.foldl pushLevel ∅) = .ok policy' ∧
      IsChoice FloatRounding.toFloat cfg context trained policy.predictBucket policy.testGroup
        policy'.prediction := by
  have hvotes : ∃ name score, Scored policy.predictBucket name score := by
    obtain ⟨name, hname⟩ := hbucket
    obtain ⟨score, hscore⟩ := UnorderedMap.exists_lookup hname
    exact ⟨name, score, hscore, (husable name hname).2.1⟩
  rcases genPrediction_cases lib cfg context (trained.foldl pushLevel ∅) hfresh hvotes with
    ⟨name, score, ranked, hscored, hbest, honly, hgen⟩ | ⟨names, ranked, hseveral, hnames, hgen⟩
  · have hname : Contender cfg policy.predictBucket name :=
      (contender_iff hscored hbest name).mpr ⟨score, hscored, by linarith⟩
    exact ⟨_, hgen, isChoice_of_only _ hname honly (husable.of_scored hscored).2⟩
  · have hall : ∀ name ∈ names, context.Knows name := by
      intro name hname
      obtain ⟨score, hscored, -⟩ := (hnames name).mp hname
      exact (husable.of_scored hscored).1
    rw [foldlM_ask hall] at hgen
    obtain ⟨name, hname, other, hother, hne⟩ := hseveral
    exact ⟨_, hgen, isChoice_foldl_closer h
      (hfind ⟨name, other, hne, (hnames name).mp hname, (hnames other).mp hother⟩) _ hnames⟩

end Choice

end BurstGroupPolicy

open BurstGroupPolicy Classifier TrainOrder in
/-- **The choice among close candidates.**  Merged bursts count all packets of their blocks.  With
trained names in the bucket, `GenPrediction` returns one within `MIN_OUTPERFORM` of the best score
whose closest training block is at the least difference among all of these, rounded to a `float`,
unless several are in question and all of them too far off.  Up to `2 ^ 24` packets that is the
difference itself.  If there is only one such name, it is returned whatever the order of the bursts
and of the bucket. -/
theorem genPrediction_closest {F : Type} [Field F] [LinearOrder F] [IsStrictOrderedRing F]
    [Elementary F] (lib : StdLib) (cfg : TestParam F) (context : Context)
    (trained : List (UInt16 × BurstBlock)) (testGroup : BurstBlock) (answers : List (Nearest F))
    (policy : BurstGroupPolicy F) (hmin : 0 ≤ cfg.minOutperform)
    (hpolicy : addBurstPredictions testGroup answers = .ok policy)
    (h : Countable trained testGroup)
    (hbucket : ∃ name, name ∈ policy.predictBucket)
    (husable : Usable context trained policy.predictBucket)
    (hfind : Findable cfg context trained policy.predictBucket testGroup) :
    ((Burst.ofBursts testGroup).intPktNum = blockPktNum testGroup ∧
      ∀ e ∈ trained, (Burst.ofBursts e.2).intPktNum = blockPktNum e.2) ∧
    ∃ policy', policy.genPrediction lib cfg context (trained.foldl pushLevel ∅) = .ok policy' ∧
      IsChoice FloatRounding.toFloat cfg context trained policy.predictBucket testGroup
        policy'.prediction ∧
      ((∀ e ∈ trained, blockGap testGroup e.2 ≤ 2 ^ 24) →
        IsChoice id cfg context trained policy.predictBucket testGroup policy'.prediction) ∧
      ((∀ name, IsChoice FloatRounding.toFloat cfg context trained policy.predictBucket testGroup
          name → name = policy'.prediction) →
        ∀ (otherLib : StdLib) (reordered : BurstBlock) (answers' : List (Nearest F))
          (other : BurstGroupPolicy F), reordered.Perm testGroup →
          (reordered.zip answers').Perm (testGroup.zip answers) →
          addBurstPredictions reordered answers' = .ok other →
          ∃ other', other.genPrediction otherLib cfg context (trained.foldl pushLevel ∅) =
              .ok other' ∧ other'.prediction = policy'.prediction) := by
  have hvoted := voted_of_ok hpolicy
  refine ⟨⟨intPktNum_ofBursts h.group h.count,
    fun e he => intPktNum_ofBursts (h.sized e he) (h.counts e he)⟩, ?_⟩
  obtain ⟨policy', hgen, hchoice⟩ := genPrediction_isChoice lib hmin hvoted.ranked_eq
    (hvoted.group_eq ▸ h) hbucket husable (hvoted.group_eq ▸ hfind)
  rw [hvoted.group_eq] at hchoice
  refine ⟨policy', hgen, hchoice, fun hsmall => ?_, ?_⟩
  · exact hchoice.of_keep fun e he => FloatRounding.toFloat_of_le (hsmall e he)
  · intro honly otherLib reordered answers' other hperm hzip hother
    have hvoted' := voted_of_ok hother
    have hlookup := hvoted.lookup_predictBucket_perm hvoted' hzip
    have hmem : ∀ name, name ∈ other.predictBucket ↔ name ∈ policy.predictBucket := by
      intro name
      rw [← AList.lookup_isSome, ← AList.lookup_isSome, hlookup]
    have hcount' := blockPktNum_perm hperm
    obtain ⟨name, hname⟩ := hbucket
    obtain ⟨other', hgen', hchoice'⟩ := genPrediction_isChoice otherLib hmin hvoted'.ranked_eq
      (hvoted'.group_eq ▸ h.perm hperm) ⟨name, (hmem name).mpr hname⟩
      (fun name hname => husable name ((hmem name).mp hname))
      (hvoted'.group_eq ▸ (findable_congr hlookup hcount').mpr hfind)
    rw [hvoted'.group_eq, isChoice_congr hlookup hcount'] at hchoice'
    exact ⟨other', hgen', honly _ hchoice'⟩

/-! ## A lamp and a plug -/

/-- A burst of packets of one length. -/
def packets (instanceLabel : String) (n : ℕ) : Burst :=
  { threePackets with instanceLabel, pktNum := n, packetDetail := [(60, n)] }

/-- The lamp and the plug have been trained with a block each. -/
def lampAndPlugBlocks (m n : ℕ) : List (UInt16 × BurstBlock) :=
  [(0, [packets "lamp-1" m]), (1, [packets "plug-2" n])]

/-- Bursts of both are equally near. -/
noncomputable def bothNear : Nearest ℝ := ⟨0, [threePackets, plugPackets]⟩

open BurstGroupPolicy in
/-- The policy of a block to which both are equally near. -/
theorem exists_policy_bothNear (n : ℕ) : ∃ (policy : BurstGroupPolicy ℝ) (vote : ℝ),
    addBurstPredictions [packets "lamp-1" n] [bothNear] = .ok policy ∧
      policy.predictBucket = ((∅ : UnorderedMap String ℝ).update "lamp-1" 0 (· + vote)).update
        "plug-2" 0 (· + vote) := by
  obtain ⟨policy, hpolicy⟩ : ∃ policy,
      addBurstPredictions [packets "lamp-1" n] [bothNear] = .ok policy :=
    addBurstPredictions_ok (le_refl 1)
  have hnear : ¬ bothNear.distance > 1 / 2 := by
    show ¬ (0 : ℝ) > 1 / 2
    norm_num
  have hbucket := (voted_of_ok hpolicy).bucket_eq
  rw [allBallots, List.zip_cons_cons, List.zip_nil_right, List.flatMap_singleton, ballots,
    if_neg hnear] at hbucket
  have hnames : answerNames bothNear = ["lamp-1", "plug-2"] :=
    (List.toFinset_sort (· ≤ ·) (by decide)).mpr (by decide +kernel)
  rw [hnames] at hbucket
  exact ⟨policy, _, hpolicy, hbucket⟩

open BurstGroupPolicy in
theorem trainedBlocks_lampAndPlug (m n : ℕ) :
    trainedBlocks lampAndPlugContext (lampAndPlugBlocks m n) "lamp-1" = [[packets "lamp-1" m]] ∧
      trainedBlocks lampAndPlugContext (lampAndPlugBlocks m n) "plug-2" =
        [[packets "plug-2" n]] := by
  have hids : (lampAndPlugContext.allDevices.lookup "lamp-1").map KDevice.devId = some 0 ∧
      (lampAndPlugContext.allDevices.lookup "plug-2").map KDevice.devId = some 1 := by
    decide +kernel
  obtain ⟨lamp, hlamp, hlampId⟩ := Option.map_eq_some_iff.mp hids.1
  obtain ⟨plug, hplug, hplugId⟩ := Option.map_eq_some_iff.mp hids.2
  rw [trainedBlocks, trainedBlocks, hlamp, hplug]
  dsimp only
  rw [hlampId, hplugId]
  exact ⟨rfl, rfl⟩

section BothNear

open BurstGroupPolicy

theorem knows_lampAndPlug (m n : ℕ) : ∀ name ∈ ["lamp-1", "plug-2"],
    lampAndPlugContext.Knows name ∧ name ≠ "unreliable" ∧
      trainedBlocks lampAndPlugContext (lampAndPlugBlocks m n) name ≠ [] := by
  obtain ⟨hlamp, hplug⟩ := trainedBlocks_lampAndPlug m n
  intro name hname
  simp only [List.mem_cons, List.not_mem_nil, or_false] at hname
  rcases hname with rfl | rfl
  · rw [hlamp]
    exact ⟨show _ ∈ lampAndPlugContext.allDevices.keys by decide +kernel, by decide,
      List.cons_ne_nil _ _⟩
  · rw [hplug]
    exact ⟨show _ ∈ lampAndPlugContext.allDevices.keys by decide +kernel, by decide,
      List.cons_ne_nil _ _⟩

/-- What the merged blocks of the two devices offer. -/
theorem offers_lampAndPlug (block : Burst) (m n : ℕ) :
    offers lampAndPlugContext ((lampAndPlugBlocks m n).foldl TrainOrder.pushLevel ∅) block
        ["lamp-1", "plug-2"] =
      [("lamp-1", gap block (.ofBursts [packets "lamp-1" m])),
        ("plug-2", gap block (.ofBursts [packets "plug-2" n]))] := by
  obtain ⟨hlamp, hplug⟩ := trainedBlocks_lampAndPlug m n
  rw [offers, List.flatMap_cons, List.flatMap_singleton, blocksOf_foldl_pushLevel,
    blocksOf_foldl_pushLevel, hlamp, hplug]
  rfl

variable {policy : BurstGroupPolicy ℝ} {score : ℝ}
  (hiterate : StdLib.insertion.iterate policy.predictBucket =
    [("plug-2", score), ("lamp-1", score)])

include hiterate

theorem lookup_bothNear (name : String) (score' : ℝ) :
    policy.predictBucket.lookup name = some score' ↔
      name ∈ ["lamp-1", "plug-2"] ∧ score' = score := by
  rw [← StdLib.insertion.mem_iterate, hiterate]
  simp only [List.mem_cons, Prod.mk.injEq, List.not_mem_nil, or_false]
  tauto

/-- Both names are in question. -/
theorem contender_bothNear (name : String) :
    Contender {} policy.predictBucket name ↔ name ∈ ["lamp-1", "plug-2"] := by
  have hlookup := lookup_bothNear hiterate
  constructor
  · rintro ⟨score', hname, -⟩
    exact ((hlookup name score').mp hname.1).1
  · intro hname
    refine ⟨score, ⟨(hlookup _ _).mpr ⟨hname, rfl⟩, (knows_lampAndPlug 1 1 name hname).2.1⟩, ?_⟩
    intro other score' hother
    rw [((hlookup other score').mp hother.1).2]
    show score ≤ score + 101 / 100
    linarith

theorem rankNames_bothNear (hranked : policy.rankedGroup = []) :
    policy.rankNames .insertion lampAndPlugContext.deviceVec =
      { policy with rankedGroup := [(score, "plug-2"), (score, "lamp-1")] } := by
  have hinsert : multimapInsert (multimapInsert [] score "plug-2") score "lamp-1" =
      [(score, "plug-2"), (score, "lamp-1")] := by
    simp [multimapInsert]
  have hloop : [("plug-2", score), ("lamp-1", score)].foldl (fun ranked e =>
      if e.1 = "unreliable" then ranked else multimapInsert ranked e.2 e.1) [] =
        [(score, "plug-2"), (score, "lamp-1")] := by
    rw [← hinsert]
    rfl
  rw [rankNames, hiterate, hranked, hloop, if_neg (List.cons_ne_nil _ _)]

end BothNear

open BurstGroupPolicy in
/-- **Both are in question**, and are asked for one after the other. -/
theorem genPrediction_bothNear (k m n : ℕ) : ∃ policy policy' : BurstGroupPolicy ℝ,
    addBurstPredictions [packets "lamp-1" k] [bothNear] = .ok policy ∧
      Usable lampAndPlugContext (lampAndPlugBlocks m n) policy.predictBucket ∧
      (∀ name, Contender {} policy.predictBucket name ↔ name ∈ ["lamp-1", "plug-2"]) ∧
      policy.genPrediction .insertion {} lampAndPlugContext
        ((lampAndPlugBlocks m n).foldl TrainOrder.pushLevel ∅) = .ok policy' ∧
      policy'.prediction = (closer (closer ("", maxGap)
        ("lamp-1", gap (.ofBursts [packets "lamp-1" k]) (.ofBursts [packets "lamp-1" m])))
        ("plug-2", gap (.ofBursts [packets "lamp-1" k]) (.ofBursts [packets "plug-2" n]))).1 := by
  obtain ⟨policy, vote, hpolicy, hbucket⟩ := exists_policy_bothNear k
  have hvoted := voted_of_ok hpolicy
  let score : ℝ := 0 + vote
  have hiterate : StdLib.insertion.iterate policy.predictBucket =
      [("plug-2", score), ("lamp-1", score)] := by
    rw [hbucket]
    rfl
  have hgen : policy.genPrediction .insertion {} lampAndPlugContext
      ((lampAndPlugBlocks m n).foldl TrainOrder.pushLevel ∅) = _ :=
    genPrediction_close (rankNames_bothNear hiterate hvoted.ranked_eq) rfl
      (show score - score ≤ 101 / 100 by norm_num)
  have htop : ([(score, "lamp-1"), (score, "plug-2")].takeWhile fun e =>
      !decide (e.1 < score - (101 / 100 : ℝ))) = [(score, "lamp-1"), (score, "plug-2")] := by
    norm_num
  rw [htop, foldlM_ask, hvoted.group_eq, hvoted.prediction_eq] at hgen
  · refine ⟨policy, _, hpolicy, fun name hname => ?_, contender_bothNear hiterate, hgen, ?_⟩
    · obtain ⟨score', hscore'⟩ := UnorderedMap.exists_lookup hname
      exact knows_lampAndPlug m n name ((lookup_bothNear hiterate name score').mp hscore').1
    · dsimp only
      rw [List.map_cons, List.map_singleton, offers_lampAndPlug, List.foldl_cons, List.foldl_cons,
        List.foldl_nil]
  · exact fun name hname => (knows_lampAndPlug m n name hname).1

section Packets

open BurstGroupPolicy Classifier

theorem sized_packets (name : String) (n : ℕ) : Sized [packets name n] := by
  intro b hb
  rw [List.mem_singleton.mp hb]
  exact (Nat.add_zero n).symm

theorem blockPktNum_packets (name : String) (n : ℕ) : blockPktNum [packets name n] = n :=
  Nat.add_zero n

theorem countable_lampAndPlugBlocks {m n : ℕ} (hm : IntCount m) (hn : IntCount n) :
    Countable (lampAndPlugBlocks m n) [packets "lamp-1" 1] := by
  refine ⟨sized_packets _ _, ⟨by decide, by decide⟩, fun e he => ?_, fun e he => ?_⟩ <;>
    rcases List.mem_cons.mp he with rfl | he
  · exact sized_packets _ _
  · rw [List.mem_singleton.mp he]
    exact sized_packets _ _
  · exact (blockPktNum_packets "lamp-1" m).symm ▸ hm
  · rw [List.mem_singleton.mp he]
    exact (blockPktNum_packets "plug-2" n).symm ▸ hn

/-- The difference from a block of one packet. -/
theorem gap_packets {n : ℕ} (hn : IntCount n) (name : String) :
    gap (.ofBursts [packets "lamp-1" 1]) (.ofBursts [packets name n]) =
      FloatRounding.toFloat (n - 1) := by
  have hone : IntCount (blockPktNum [packets "lamp-1" 1]) := by decide
  rw [gap_ofBursts (sized_packets _ _) (sized_packets _ _) hone
    ((blockPktNum_packets name n).symm ▸ hn), blockGap, blockPktNum_packets, blockPktNum_packets]
  obtain ⟨hpos, -⟩ := hn
  congr 1
  omega

end Packets

open BurstGroupPolicy in
/-- The lamp was trained with a block of four packets, the plug with one of six, and the block at
hand has one packet. -/
theorem genPrediction_closest_lampAndPlug : ∃ policy policy' : BurstGroupPolicy ℝ,
    addBurstPredictions [packets "lamp-1" 1] [bothNear] = .ok policy ∧
      policy.genPrediction .insertion {} lampAndPlugContext
        ((lampAndPlugBlocks 4 6).foldl TrainOrder.pushLevel ∅) = .ok policy' ∧
      IsChoice id {} lampAndPlugContext (lampAndPlugBlocks 4 6) policy.predictBucket
        [packets "lamp-1" 1] policy'.prediction := by
  obtain ⟨policy, -, hpolicy, husable, hcontender, -⟩ := genPrediction_bothNear 1 4 6
  have hbucket : ∃ name, name ∈ policy.predictBucket := by
    obtain ⟨score, hscored, -⟩ := (hcontender "lamp-1").mpr List.mem_cons_self
    exact ⟨_, UnorderedMap.mem_of_lookup hscored.1⟩
  have hfind : Findable {} lampAndPlugContext (lampAndPlugBlocks 4 6) policy.predictBucket
      [packets "lamp-1" 1] := by
    intro _
    refine ⟨"lamp-1", (hcontender _).mpr List.mem_cons_self, [packets "lamp-1" 4], ?_, by decide⟩
    rw [(trainedBlocks_lampAndPlug 4 6).1]
    exact List.mem_cons_self
  obtain ⟨-, policy', hgen, -, hexact, -⟩ := genPrediction_closest .insertion ({} : TestParam ℝ)
    lampAndPlugContext (lampAndPlugBlocks 4 6) [packets "lamp-1" 1] [bothNear] policy (by norm_num)
    hpolicy (countable_lampAndPlugBlocks (by decide) (by decide)) hbucket husable hfind
  exact ⟨policy, policy', hpolicy, hgen, hexact (by decide)⟩

open BurstGroupPolicy in
/-- **A block that is farther away may be taken**, if the difference rounds to the same `float`: the
lamp is predicted, whose block is 16777217 packets away, and not the plug, whose block is 16777216
packets away.  And if the blocks of both are nearly `INT_MAX` away, none is taken at all. -/
theorem not_isChoice_id :
    (∃ policy policy' : BurstGroupPolicy ℝ,
      addBurstPredictions [packets "lamp-1" 1] [bothNear] = .ok policy ∧
        Countable (lampAndPlugBlocks 16777218 16777217) [packets "lamp-1" 1] ∧
        Usable lampAndPlugContext (lampAndPlugBlocks 16777218 16777217) policy.predictBucket ∧
        policy.genPrediction .insertion {} lampAndPlugContext
          ((lampAndPlugBlocks 16777218 16777217).foldl TrainOrder.pushLevel ∅) = .ok policy' ∧
        policy'.prediction = "lamp-1" ∧
        ¬ IsChoice id {} lampAndPlugContext (lampAndPlugBlocks 16777218 16777217)
          policy.predictBucket [packets "lamp-1" 1] policy'.prediction) ∧
    ∃ policy policy' : BurstGroupPolicy ℝ,
      addBurstPredictions [packets "lamp-1" 1] [bothNear] = .ok policy ∧
        Countable (lampAndPlugBlocks 2147483647 2147483646) [packets "lamp-1" 1] ∧
        Usable lampAndPlugContext (lampAndPlugBlocks 2147483647 2147483646) policy.predictBucket ∧
        policy.genPrediction .insertion {} lampAndPlugContext
          ((lampAndPlugBlocks 2147483647 2147483646).foldl TrainOrder.pushLevel ∅) = .ok policy' ∧
        policy'.prediction = "" ∧
        ¬ IsChoice id {} lampAndPlugContext (lampAndPlugBlocks 2147483647 2147483646)
          policy.predictBucket [packets "lamp-1" 1] policy'.prediction := by
  constructor
  · obtain ⟨policy, policy', hpolicy, husable, hcontender, hgen, hprediction⟩ :=
      genPrediction_bothNear 1 16777218 16777217
    rw [gap_packets (by decide), gap_packets (by decide)] at hprediction
    have hname : policy'.prediction = "lamp-1" := hprediction.trans (by decide)
    refine ⟨policy, policy', hpolicy, countable_lampAndPlugBlocks (by decide) (by decide), husable,
      hgen, hname, ?_⟩
    rw [hname]
    rintro ⟨-, block, hblock, hle⟩
    obtain ⟨hlamp, hplug⟩ := trainedBlocks_lampAndPlug 16777218 16777217
    rw [hlamp] at hblock
    have hfarther := hle "plug-2" ((hcontender _).mpr (List.mem_cons_of_mem _ List.mem_cons_self))
      [packets "plug-2" 16777217] (by rw [hplug]; exact List.mem_cons_self)
    rw [List.mem_singleton.mp hblock] at hfarther
    exact absurd hfarther (by decide)
  · obtain ⟨policy, policy', hpolicy, husable, hcontender, hgen, hprediction⟩ :=
      genPrediction_bothNear 1 2147483647 2147483646
    rw [gap_packets (by decide), gap_packets (by decide)] at hprediction
    have hname : policy'.prediction = "" := hprediction.trans (by decide)
    refine ⟨policy, policy', hpolicy, countable_lampAndPlugBlocks (by decide) (by decide), husable,
      hgen, hname, ?_⟩
    rw [hname]
    rintro ⟨hempty, -⟩
    exact absurd ((hcontender "").mp hempty) (by decide)

end BurstIoT
