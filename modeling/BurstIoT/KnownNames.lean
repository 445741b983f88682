import BurstIoT.Ranking
import BurstIoT.Registry

/-!
# Names that nobody has registered

`GenPrediction` asks the registry for the device of every name it considers, and `ToString` asks for
the device of the name it has returned.  The names with votes are labels of training bursts, so they
are names of registered devices.  But without votes the devices are ranked by their names without
the number, and the registry knows a device by its full name only.

`meetsNoUnknown_iff` says when neither function meets `DEVICE_NOT_FOUND`.  With votes, the only way
to fail is to consider several names of which none has a training block, and to return the empty
name that the prediction started with (`Decided`).  Without votes, the shortened names must
themselves be registered (`FallbackKnown`): two devices called `lamp-1` and `plug-2` are enough to
break it.
-/

namespace BurstIoT

namespace Context

variable {pcpp : PcapPlusPlus} {info : DatasetInfo}

/-- Registering a device makes its name known. -/
theorem knows_addDevice (context : Context) (line name : String) :
    (addDevice pcpp info context line).Knows name ↔
      name = (KDevice.ofLine pcpp line info.mappingIP context.count).instanceName ∨
        context.Knows name :=
  UnorderedMap.mem_emplace

/-- A registry that knows the names of its devices, and no others. -/
def Named (context : Context) : Prop :=
  ∀ name, context.Knows name ↔ ∃ device ∈ context.deviceVec, device.instanceName = name

theorem named_addDevice {context : Context} (h : context.Named) (line : String) :
    (addDevice pcpp info context line).Named := by
  intro name
  rw [knows_addDevice, h name, deviceVec_addDevice]
  constructor
  · rintro (rfl | ⟨device, hdevice, hname⟩)
    · exact ⟨_, List.mem_append_right _ List.mem_cons_self, rfl⟩
    · exact ⟨device, List.mem_append_left _ hdevice, hname⟩
  · rintro ⟨device, hdevice, hname⟩
    rcases List.mem_append.mp hdevice with hdevice | hdevice
    · exact Or.inr ⟨device, hdevice, hname⟩
    · rw [List.mem_singleton.mp hdevice] at hname
      exact Or.inl hname.symm

/-- **After any calls of `AddDevices`** the registry knows the names of its devices. -/
theorem named_register {calls : List Registration} {context : Context}
    (h : register pcpp {} calls = .ok context) : context.Named := by
  refine register_inv (P := Named) (fun _ line _ hcontext => named_addDevice hcontext line) ?_ h
  exact fun name =>
    ⟨fun h => absurd h (AList.notMem_empty name), fun ⟨_, h, _⟩ => absurd h List.not_mem_nil⟩

end Context

/-! ## The report meets no other exception -/

theorem at?_ne_thrown {α : Type} (v : List α) (i : ℕ) (code : KException) :
    at? v i ≠ .error (.thrown code) := by
  intro h
  cases fault_of_at? h

theorem Burst.toString_ne_thrown (b : Burst) (code : KException) :
    b.toString ≠ .error (.thrown code) := by
  refine CheckedLoop.bind_ne_error (CheckedLoop.foldlM_ne_error (fun ss i => ?_) _ _)
    fun detail => nofun
  exact CheckedLoop.bind_ne_error (at?_ne_thrown _ i code) fun e => nofun

namespace BurstGroupPolicy

variable {F : Type} [Field F] [LinearOrder F]

omit [Field F] [LinearOrder F] in
theorem missedBurst_ne_thrown (printFloat : F → String) (policy : BurstGroupPolicy F) (i : ℕ)
    (testBurst : Burst) (code : KException) :
    policy.missedBurst printFloat i testBurst ≠ .error (.thrown code) := by
  refine CheckedLoop.bind_ne_error (at?_ne_thrown _ i code) fun predictNames => ?_
  split_ifs
  · exact nofun
  · refine CheckedLoop.bind_ne_error (testBurst.toString_ne_thrown code) fun test => ?_
    refine CheckedLoop.bind_ne_error (at?_ne_thrown _ i code) fun distance => ?_
    refine CheckedLoop.bind_ne_error (at?_ne_thrown _ i code) fun predictTrains => ?_
    refine CheckedLoop.bind_ne_error (CheckedLoop.foldlM_ne_error (fun ss burst => ?_) _ _)
      fun _ => nofun
    exact CheckedLoop.bind_ne_error (burst.toString_ne_thrown code) fun _ => nofun

omit [LinearOrder F] in
/-- **`ToString` fails to find a device only for the name that was returned.** -/
theorem toString_ne_thrown (printFloat : F → String) {context : Context}
    (addrAvgPktMap : UnorderedMap UInt16 ℕ) {policy : BurstGroupPolicy F}
    (h : policy.prediction ≠ "unreliable" → context.Knows policy.prediction) (code : KException) :
    policy.toString printFloat context addrAvgPktMap ≠ .error (.thrown code) := by
  refine CheckedLoop.bind_ne_error (CheckedLoop.foldlM_ne_error (fun ss e => ?_) _ _)
    fun missed => ?_
  · exact CheckedLoop.bind_ne_error (missedBurst_ne_thrown printFloat policy _ _ code)
      fun _ => nofun
  · dsimp only
    split_ifs with hunreliable
    · exact nofun
    · obtain ⟨device, -, hget⟩ := Context.getDevice_of_knows (h hunreliable)
      rw [hget]
      exact nofun

/-! ## The names that are met -/

section Fallback

/-- Neither `GenPrediction` nor `ToString` asks for a name that is not registered, and the name that
is returned is registered, unless it is `unreliable`. -/
def MeetsNoUnknown (lib : StdLib) (cfg : TestParam F) (context : Context)
    (blockLevelDistribution : UnorderedMap UInt16 (List Burst)) (printFloat : F → String)
    (addrAvgPktMap : UnorderedMap UInt16 ℕ) (policy : BurstGroupPolicy F) : Prop :=
  ∃ policy', policy.genPrediction lib cfg context blockLevelDistribution = .ok policy' ∧
    (policy'.prediction ≠ "unreliable" → context.Knows policy'.prediction) ∧
    policy'.toString printFloat context addrAvgPktMap ≠ .error (.thrown .deviceNotFound)

/-- With votes: if there are several contenders, one of them has a training block, or the empty name
is registered. -/
def Decided (cfg : TestParam F) (context : Context)
    (blockLevelDistribution : UnorderedMap UInt16 (List Burst)) (policy : BurstGroupPolicy F) :
    Prop :=
  (∃ name other, name ≠ other ∧ Contender cfg policy.predictBucket name ∧
    Contender cfg policy.predictBucket other) →
  context.Knows "" ∨ ∃ name, Contender cfg policy.predictBucket name ∧
    ∃ block ∈ blocksOf context blockLevelDistribution name,
      gap (.ofBursts policy.testGroup) block < maxGap

/-- Without votes: the names of the devices, without their numbers, are registered.  A negative
`MIN_OUTPERFORM` leaves the last device only. -/
def FallbackKnown (cfg : TestParam F) (context : Context) : Prop :=
  if 0 ≤ cfg.minOutperform then
    ∀ device ∈ context.deviceVec, context.Knows (removeSuffix device.instanceName)
  else
    ∀ device ∈ context.deviceVec.getLast?, removeSuffix device.instanceName ≠ "unreliable" →
      context.Knows (removeSuffix device.instanceName)

variable {lib : StdLib} {cfg : TestParam F} {context : Context}
  {blockLevelDistribution : UnorderedMap UInt16 (List Burst)} {printFloat : F → String}
  {addrAvgPktMap : UnorderedMap UInt16 ℕ} {policy : BurstGroupPolicy F}

/-- A prediction that has been made meets no unknown name if the name is known. -/
theorem meetsNoUnknown_of_ok {policy' : BurstGroupPolicy F}
    (h : policy.genPrediction lib cfg context blockLevelDistribution = .ok policy') :
    MeetsNoUnknown lib cfg context blockLevelDistribution printFloat addrAvgPktMap policy ↔
      (policy'.prediction ≠ "unreliable" → context.Knows policy'.prediction) := by
  constructor
  · rintro ⟨policy'', heq, hknown, -⟩
    rw [h] at heq
    cases heq
    exact hknown
  · exact fun hknown => ⟨policy', h, hknown, toString_ne_thrown printFloat addrAvgPktMap hknown _⟩

theorem not_meetsNoUnknown_of_error {fault : Fault}
    (h : policy.genPrediction lib cfg context blockLevelDistribution = .error fault) :
    ¬ MeetsNoUnknown lib cfg context blockLevelDistribution printFloat addrAvgPktMap policy := by
  rintro ⟨policy', heq, -⟩
  rw [h] at heq
  cases heq

variable [IsStrictOrderedRing F]

/-- **Without votes** `GenPrediction` asks for all shortened names, or returns the last one. -/
theorem genPrediction_fallback (lib : StdLib) (cfg : TestParam F)
    (blockLevelDistribution : UnorderedMap UInt16 (List Burst))
    (hdevices : 2 ≤ context.deviceVec.length) (hfresh : policy.rankedGroup = [])
    (hvotes : ¬ ∃ name score, Scored policy.predictBucket name score) :
    ∃ ranked,
      (0 ≤ cfg.minOutperform →
        policy.genPrediction lib cfg context blockLevelDistribution = (do
          let best ← (context.deviceVec.reverse.map fun d => removeSuffix d.instanceName).foldlM
            (ask context blockLevelDistribution (Burst.ofBursts policy.testGroup))
            ("unreliable", maxGap)
          return { policy with rankedGroup := ranked, prediction := best.1 })) ∧
      (¬ 0 ≤ cfg.minOutperform → ∀ device ∈ context.deviceVec.getLast?,
        policy.genPrediction lib cfg context blockLevelDistribution =
          .ok { policy with
            rankedGroup := ranked, prediction := removeSuffix device.instanceName }) := by
  let rank := fun device : KDevice => ((1 : F), removeSuffix device.instanceName)
  have hrank := rankNames_fallback lib context.deviceVec hfresh hvotes
  obtain ⟨last, second, rest, hT⟩ : ∃ last second rest,
      context.deviceVec.reverse = last :: second :: rest := by
    match h : context.deviceVec.reverse, List.length_reverse ▸ hdevices with
    | last :: second :: rest, _ => exact ⟨last, second, rest, rfl⟩
  have hranks : (context.deviceVec.map rank).reverse =
      rank last :: rank second :: rest.map rank := by
    rw [← List.map_reverse, hT]
    rfl
  refine ⟨context.deviceVec.map rank, fun hmin => ?_, fun hmin device hdevice => ?_⟩
  · have hall : (rank last :: rank second :: rest.map rank).takeWhile
        (fun e => !decide (e.1 < 1 - cfg.minOutperform)) =
          (context.deviceVec.reverse).map rank := by
      rw [hT]
      refine List.takeWhile_eq_self_iff.mpr fun e he => ?_
      have he : e ∈ (last :: second :: rest).map rank := he
      obtain ⟨device, -, rfl⟩ := List.mem_map.mp he
      simpa [rank] using hmin
    rw [genPrediction_close hrank hranks (by rwa [sub_self]), hall, List.map_map]
    rfl
  · rw [← List.head?_reverse, hT] at hdevice
    obtain rfl : last = device := Option.some_inj.mp hdevice
    exact genPrediction_apart hrank hranks (by rwa [sub_self])

/-- **Without votes** the shortened names of the devices must be registered. -/
theorem meetsNoUnknown_fallback_iff (hdevices : 2 ≤ context.deviceVec.length)
    (hfresh : policy.rankedGroup = [])
    (hvotes : ¬ ∃ name score, Scored policy.predictBucket name score) :
    MeetsNoUnknown lib cfg context blockLevelDistribution printFloat addrAvgPktMap policy ↔
      FallbackKnown cfg context := by
  obtain ⟨ranked, hasks, hlast⟩ :=
    genPrediction_fallback lib cfg blockLevelDistribution hdevices hfresh hvotes
  rw [FallbackKnown]
  split_ifs with hmin
  · have hnames : (∀ name ∈ context.deviceVec.reverse.map fun d => removeSuffix d.instanceName,
        context.Knows name) ↔
          ∀ device ∈ context.deviceVec, context.Knows (removeSuffix device.instanceName) := by
      simp
    rw [← hnames]
    have hgen := hasks hmin
    by_cases hall : ∀ name ∈ context.deviceVec.reverse.map fun d => removeSuffix d.instanceName,
        context.Knows name
    · rw [foldlM_ask hall] at hgen
      rw [meetsNoUnknown_of_ok hgen]
      refine iff_of_true (fun hreliable => ?_) hall
      rcases closest_cases (offers context blockLevelDistribution
        (Burst.ofBursts policy.testGroup) _) "unreliable" maxGap with
        ⟨-, hstart⟩ | ⟨o, ho, -, -, hname⟩
      · exact absurd hstart hreliable
      · show context.Knows (List.foldl closer _ _).1
        rw [hname]
        exact hall o.1 (mem_offers.mp ho).1
    · push Not at hall
      rw [foldlM_ask_error hall] at hgen
      refine iff_of_false (not_meetsNoUnknown_of_error hgen) ?_
      push Not
      exact hall
  · obtain ⟨device, hdevice⟩ : ∃ device, context.deviceVec.getLast? = some device :=
      ⟨_, List.getLast?_eq_some_getLast (List.ne_nil_of_length_pos (by omega))⟩
    rw [meetsNoUnknown_of_ok (hlast hmin device hdevice), hdevice]
    simp

/-- **With votes** for registered names, the contenders are asked for. -/
theorem meetsNoUnknown_voted_iff (hfresh : policy.rankedGroup = [])
    (hprediction : policy.prediction = "")
    (hknown : ∀ name score, Scored policy.predictBucket name score → context.Knows name)
    (hvotes : ∃ name score, Scored policy.predictBucket name score) :
    MeetsNoUnknown lib cfg context blockLevelDistribution printFloat addrAvgPktMap policy ↔
      Decided cfg context blockLevelDistribution policy := by
  rcases genPrediction_cases lib cfg context blockLevelDistribution hfresh hvotes with
    ⟨name, score, ranked, hscored, -, honly, hgen⟩ | ⟨names, ranked, hseveral, hnames, hgen⟩
  · rw [meetsNoUnknown_of_ok hgen]
    refine iff_of_true (fun _ => hknown name score hscored) ?_
    rintro ⟨first, second, hne, hfirst, hsecond⟩
    exact absurd ((honly first hfirst).trans (honly second hsecond).symm) hne
  · have hall : ∀ name ∈ names, context.Knows name := by
      intro name hname
      obtain ⟨score, hscored, -⟩ := (hnames name).mp hname
      exact hknown name score hscored
    rw [foldlM_ask hall, hprediction] at hgen
    rw [meetsNoUnknown_of_ok hgen]
    obtain ⟨name, hname, other, hother, hne⟩ := hseveral
    have hcontest : ∃ name other, name ≠ other ∧ Contender cfg policy.predictBucket name ∧
        Contender cfg policy.predictBucket other :=
      ⟨name, other, hne, (hnames name).mp hname, (hnames other).mp hother⟩
    have hdecided : Decided cfg context blockLevelDistribution policy ↔ context.Knows "" ∨
        ∃ name, Contender cfg policy.predictBucket name ∧
          ∃ block ∈ blocksOf context blockLevelDistribution name,
            gap (.ofBursts policy.testGroup) block < maxGap :=
      ⟨fun h => h hcontest, fun h _ => h⟩
    rw [hdecided]
    rcases closest_cases (offers context blockLevelDistribution
      (Burst.ofBursts policy.testGroup) names) "" maxGap with
      ⟨hfar, hstart⟩ | ⟨o, ho, hclose, -, hbest⟩
    · -- no block is close enough, and the prediction is still empty
      have hnone : ¬ ∃ name, Contender cfg policy.predictBucket name ∧
          ∃ block ∈ blocksOf context blockLevelDistribution name,
            gap (.ofBursts policy.testGroup) block < maxGap := by
        rintro ⟨name, hcontender, block, hblock, hlt⟩
        have := hfar (name, _) (mem_offers.mpr ⟨(hnames name).mpr hcontender, block, hblock, rfl⟩)
        exact absurd hlt (not_lt.mpr this)
      dsimp only
      rw [hstart, or_iff_left hnone]
      exact ⟨fun h => h (by decide), fun h _ => h⟩
    · obtain ⟨hmem, block, hblock, heq⟩ := mem_offers.mp ho
      refine iff_of_true (fun _ => ?_) (Or.inr ⟨o.1, (hnames o.1).mp hmem, block, hblock, ?_⟩)
      · show context.Knows (List.foldl closer _ _).1
        rw [hbest]
        exact hall o.1 hmem
      · rw [heq]
        exact hclose

omit [IsStrictOrderedRing F] in
/-- A name is ranked if some answer that is near enough has a burst of that label. -/
theorem exists_label_of_scored [Elementary F] {testGroup : BurstBlock} {answers : List (Nearest F)}
    (h : Voted testGroup answers policy) {name : String} {score : F}
    (hscored : Scored policy.predictBucket name score) :
    ∃ answer ∈ answers, ∃ b ∈ answer.nearestVec, b.instanceLabel = name := by
  have hmem : name ∈ policy.predictBucket := UnorderedMap.mem_of_lookup hscored.1
  obtain ⟨e, he, -, b, hb, hname⟩ := (h.mem_predictBucket name).mp hmem
  exact ⟨e.2, (List.of_mem_zip he).2, b, hb, hname⟩

end Fallback

end BurstGroupPolicy

open BurstGroupPolicy in
/-- **Prediction never asks for an unknown device** exactly when the names it falls back to are
known.  Let a policy have its answers, made of bursts with registered labels.  If the bucket has a
name other than `unreliable`, then of several contenders one must have a training block, or the
empty name be registered.  If it has none, the names of the devices without their numbers must be
registered. -/
theorem meetsNoUnknown_iff {F : Type} [Field F] [LinearOrder F] [IsStrictOrderedRing F]
    [Elementary F] (lib : StdLib) (cfg : TestParam F) (context : Context)
    (blockLevelDistribution : UnorderedMap UInt16 (List Burst)) (printFloat : F → String)
    (addrAvgPktMap : UnorderedMap UInt16 ℕ) (testGroup : BurstBlock) (answers : List (Nearest F))
    (policy : BurstGroupPolicy F) (hdevices : 2 ≤ context.deviceVec.length)
    (hpolicy : addBurstPredictions testGroup answers = .ok policy)
    (hlabels : ∀ answer ∈ answers, ∀ b ∈ answer.nearestVec, context.Knows b.instanceLabel) :
    MeetsNoUnknown lib cfg context blockLevelDistribution printFloat addrAvgPktMap policy ↔
      ((∃ name score, Scored policy.predictBucket name score) →
        Decided cfg context blockLevelDistribution policy) ∧
      ((¬ ∃ name score, Scored policy.predictBucket name score) → FallbackKnown cfg context) := by
  have hvoted := voted_of_ok hpolicy
  by_cases hvotes : ∃ name score, Scored policy.predictBucket name score
  · have hknown : ∀ name score, Scored policy.predictBucket name score → context.Knows name := by
      intro name score hscored
      obtain ⟨answer, hanswer, b, hb, rfl⟩ := exists_label_of_scored hvoted hscored
      exact hlabels answer hanswer b hb
    rw [meetsNoUnknown_voted_iff hvoted.ranked_eq hvoted.prediction_eq hknown hvotes]
    exact ⟨fun h => ⟨fun _ => h, fun hno => absurd hvotes hno⟩, fun h => h.1 hvotes⟩
  · rw [meetsNoUnknown_fallback_iff hdevices hvoted.ranked_eq hvotes]
    exact ⟨fun h => ⟨fun hyes => absurd hyes hvotes, fun _ => h⟩, fun h => h.2 hvotes⟩

/-! ## A lamp and a plug -/

/-- The mapping file of a lamp and a plug. -/
def lampAndPlug : Context.Registration where
  info := {}
  deviceMappings := some ["name,address", "lamp-1,10.0.0.2", "plug-2,10.0.0.3"]

/-- A burst of three packets of one signature. -/
def threePackets : Burst where
  uniPktNum := 1
  pktNum := 3
  instanceLabel := "lamp-1"
  firstPacketStamp := ⟨1, 0⟩
  lastPacketStamp := ⟨2, 0⟩
  packetDetail := [(60, 3)]

/-- The registry of the lamp and the plug. -/
def lampAndPlugContext : Context :=
  ["lamp-1,10.0.0.2", "plug-2,10.0.0.3"].foldl (Context.addDevice canonicalPcapPlusPlus {}) {}

theorem register_lampAndPlug :
    Context.register canonicalPcapPlusPlus {} [lampAndPlug] = .ok lampAndPlugContext :=
  Context.register_cons lampAndPlug [] {} (by decide) rfl

theorem two_le_lampAndPlug : 2 ≤ lampAndPlugContext.deviceVec.length := by decide +kernel

/-- A burst of the plug with as many packets. -/
def plugPackets : Burst :=
  { threePackets with instanceLabel := "plug-2" }

/-- What the lamp and the plug have been trained with. -/
def lampAndPlugLevels : UnorderedMap UInt16 (List Burst) :=
  AList.insert 1 [plugPackets] (AList.insert 0 [threePackets] ∅)

open BurstGroupPolicy in
/-- With votes for both, which have been trained, no unknown device is asked for. -/
theorem meetsNoUnknown_lampAndPlug : ∃ policy : BurstGroupPolicy ℝ,
    addBurstPredictions [threePackets] [⟨0, [threePackets, plugPackets]⟩] = .ok policy ∧
      MeetsNoUnknown .insertion {} lampAndPlugContext lampAndPlugLevels (fun _ => "") ∅ policy := by
  let answer : Nearest ℝ := ⟨0, [threePackets, plugPackets]⟩
  obtain ⟨policy, hpolicy⟩ : ∃ policy, addBurstPredictions [threePackets] [answer] = .ok policy :=
    addBurstPredictions_ok (le_refl 1)
  have hvoted := voted_of_ok hpolicy
  have hnear : ¬ answer.distance > 1 / 2 := by
    show ¬ (0 : ℝ) > 1 / 2
    norm_num
  have hlamp : "lamp-1" ∈ policy.predictBucket :=
    (hvoted.mem_predictBucket _).mpr ⟨(threePackets, answer), List.mem_cons_self, hnear,
      threePackets, List.mem_cons_self, rfl⟩
  have huse : ∀ b ∈ [threePackets, plugPackets],
      b.instanceLabel ∈ lampAndPlugContext.allDevices.keys ∧
      ∃ block ∈ blocksOf lampAndPlugContext lampAndPlugLevels b.instanceLabel,
        gap (.ofBursts [threePackets]) block < maxGap := by
    decide +kernel
  have hlabels : ∀ other ∈ [answer], ∀ b ∈ other.nearestVec,
      lampAndPlugContext.Knows b.instanceLabel := by
    intro other hother b hb
    rw [List.mem_singleton.mp hother] at hb
    exact (huse b hb).1
  refine ⟨policy, hpolicy,
    (meetsNoUnknown_iff .insertion {} lampAndPlugContext lampAndPlugLevels _ ∅ [threePackets]
      [answer] policy two_le_lampAndPlug hpolicy hlabels).mpr ⟨fun _ => ?_, ?_⟩⟩
  · rintro ⟨name, _, _, hname, _⟩
    obtain ⟨score, hscored, -⟩ := id hname
    obtain ⟨other, hother, b, hb, rfl⟩ := exists_label_of_scored hvoted hscored
    rw [List.mem_singleton.mp hother] at hb
    obtain ⟨block, hblock, hgap⟩ := (huse b hb).2
    exact Or.inr ⟨_, hname, block, hblock, hvoted.group_eq.symm ▸ hgap⟩
  · intro hnone
    obtain ⟨score, hscore⟩ := UnorderedMap.exists_lookup hlamp
    exact absurd ⟨"lamp-1", score, hscore, by decide⟩ hnone

/-- The policy of a block of this burst, to which nothing is near. -/
noncomputable def missedPolicy : BurstGroupPolicy ℝ where
  testGroup := [threePackets]
  vPredictNames := [stringSet []]
  vPredictTrains := [[]]
  vDistance := [100]

theorem addBurstPredictions_missed :
    BurstGroupPolicy.addBurstPredictions [threePackets] [⟨100, []⟩] = .ok missedPolicy := by
  have hfar : (100 : ℝ) > 1 / 2 := by norm_num
  have hstep : ({ testGroup := [threePackets] } : BurstGroupPolicy ℝ).addBurstPrediction
      ⟨100, []⟩ = .ok missedPolicy := by
    rw [BurstGroupPolicy.addBurstPrediction]
    dsimp only [bind, Except.bind, at?, List.length_nil, List.getElem?_cons_zero]
    rw [if_pos hfar]
    rfl
  rw [BurstGroupPolicy.addBurstPredictions, List.foldlM_cons, hstep]
  rfl

/-- **A burst that is near to nothing** makes `GenPrediction` ask for `plug`, which nobody has
registered. -/
theorem not_meetsNoUnknown_lampAndPlug :
    Context.register canonicalPcapPlusPlus {} [lampAndPlug] = .ok lampAndPlugContext ∧
      lampAndPlugContext.deviceVec.map KDevice.instanceName = ["lamp-1", "plug-2"] ∧
      BurstGroupPolicy.addBurstPredictions [threePackets] [⟨100, []⟩] = .ok missedPolicy ∧
      missedPolicy.genPrediction .insertion {} lampAndPlugContext ∅ =
        .error (.thrown .deviceNotFound) ∧
      ¬ BurstGroupPolicy.MeetsNoUnknown .insertion {} lampAndPlugContext ∅ (fun _ => "") ∅
        missedPolicy := by
  have hvotes : ¬ ∃ name score, BurstGroupPolicy.Scored missedPolicy.predictBucket name score := by
    rintro ⟨name, score, hscored, -⟩
    cases hscored
  obtain ⟨ranked, hasks, -⟩ := BurstGroupPolicy.genPrediction_fallback .insertion
    ({} : TestParam ℝ) ∅ two_le_lampAndPlug
    (BurstGroupPolicy.voted_of_ok addBurstPredictions_missed).ranked_eq hvotes
  have hunknown : ∃ name ∈ lampAndPlugContext.deviceVec.reverse.map
      (fun d => removeSuffix d.instanceName), ¬ lampAndPlugContext.Knows name := by
    refine ⟨"plug", by decide +kernel, ?_⟩
    show ¬ "plug" ∈ lampAndPlugContext.allDevices.keys
    decide +kernel
  have hgen := hasks (by norm_num)
  rw [BurstGroupPolicy.foldlM_ask_error hunknown] at hgen
  exact ⟨register_lampAndPlug, by decide +kernel, addBurstPredictions_missed, hgen,
    BurstGroupPolicy.not_meetsNoUnknown_of_error hgen⟩

end BurstIoT
