import Mathlib.Data.Finset.Sort
import Mathlib.Data.String.Basic
import BurstIoT.Context
import BurstIoT.Converter
import BurstIoT.Library.FloatRounding
import BurstIoT.Prediction

/-!
# The policy of a burst group

`BurstGroupPolicy` collects, for the bursts of one block, the answers of `PredictBurst`, and lets
each answer that is near enough vote for the names of its bursts.  `GenPrediction` ranks the names
and chooses among the best ones the one whose training blocks come closest in their number of
packets.

The training blocks (`blockLevelDistribution`) and the devices belong to the whole process.  The
loop of `GenPrediction` reads the blocks with `operator[]`, so it creates the entries that are
missing.  They are empty and change no prediction (`genPrediction_congr`), so they are left out
here; `consulted` are the devices whose entries are read.
-/

namespace BurstIoT

/-- A `std::set<std::string>`, in its order. -/
def stringSet (names : List String) : List String :=
  names.toFinset.sort (· ≤ ·)

/-- `rankedGroup.insert({key, value})`, on a `std::multimap` in its order: behind the entries whose
key is no greater. -/
def multimapInsert {F : Type} [LinearOrder F] (map : List (F × String)) (key : F)
    (value : String) : List (F × String) :=
  map.takeWhile (fun e => decide (e.1 ≤ key)) ++
    (key, value) :: map.dropWhile (fun e => decide (e.1 ≤ key))

/-- `BurstGroupPolicy`. -/
structure BurstGroupPolicy (F : Type) where
  testGroup : BurstBlock
  vPredictNames : List (List String) := []
  vPredictTrains : List (List Burst) := []
  vDistance : List F := []
  predictBucket : UnorderedMap String F := ∅
  rankedGroup : List (F × String) := []
  prediction : String := ""

namespace BurstGroupPolicy

variable {F : Type} [Field F] [LinearOrder F] [Elementary F]

/-! ## The votes -/

/-- `AddBurstPrediction`. -/
def addBurstPrediction (policy : BurstGroupPolicy F) (predictTrains : Nearest F) :
    Except Fault (BurstGroupPolicy F) := do
  let testBurst ← at? policy.testGroup policy.vPredictTrains.length
  let minDistance := predictTrains.distance
  let predictNames := stringSet (predictTrains.nearestVec.map Burst.instanceLabel)
  let policy := { policy with
    vPredictTrains := policy.vPredictTrains ++ [predictTrains.nearestVec]
    vDistance := policy.vDistance ++ [minDistance]
    vPredictNames := policy.vPredictNames ++ [predictNames] }
  if minDistance > 1 / 2 then return policy
  else
    let vote : F := Elementary.log ((testBurst.uniPktNum.toNat : F) + 1) /
      ((predictNames.length : F) * (Elementary.sqrt minDistance + 1))
    return { policy with
      predictBucket := predictNames.foldl
        (fun bucket item => bucket.update item 0 (· + vote)) policy.predictBucket }

/-! ## The choice -/

/-- The difference of two numbers of packets, an `int`, as the `float` that it is compared as. -/
def gap (mergedBurst trainMergedBurst : Burst) : ℕ :=
  FloatRounding.toFloat (wrapInt (mergedBurst.intPktNum - trainMergedBurst.intPktNum)).natAbs

/-- `INT_MAX` as a `float`. -/
def maxGap : ℕ := FloatRounding.toFloat 2147483647

/-- The inner loop of `GenPrediction`, over the training blocks of a device: the closest one so
far. -/
def closerBlocks (mergedBurst : Burst) (devName : String) (trainMergedBursts : List Burst)
    (best : String × ℕ) : String × ℕ :=
  trainMergedBursts.foldl
    (fun best trainMergedBurst =>
      let distance := gap mergedBurst trainMergedBurst
      if distance < best.2 then (devName, distance) else best)
    best

/-- The loop of `GenPrediction` over the ranks, from the highest on, until they are too low. -/
def closestName (context : Context) (blockLevelDistribution : UnorderedMap UInt16 (List Burst))
    (mergedBurst : Burst) (maxScore : F) :
    List (F × String) → String × ℕ → Except Fault (String × ℕ)
  | [], best => .ok best
  | (devScore, devName) :: rest, best =>
    if devScore < maxScore then .ok best
    else do
      let device ← context.getDevice devName
      closestName context blockLevelDistribution mergedBurst maxScore rest
        (closerBlocks mergedBurst devName
          ((blockLevelDistribution.lookup device.devId).getD []) best)

/-- The names that `GenPrediction` ranks: those with votes, or all types of the devices, with one
vote each.  In the second case the prediction starts as `unreliable`. -/
def rankNames (lib : StdLib) (deviceVec : List KDevice) (policy : BurstGroupPolicy F) :
    BurstGroupPolicy F :=
  let rankedGroup := (lib.iterate policy.predictBucket).foldl
    (fun ranked e => if e.1 = "unreliable" then ranked else multimapInsert ranked e.2 e.1)
    policy.rankedGroup
  if rankedGroup = [] then
    { policy with
      prediction := "unreliable"
      rankedGroup := deviceVec.foldl
        (fun ranked device => multimapInsert ranked 1 (removeSuffix device.instanceName)) [] }
  else { policy with rankedGroup }

/-- `GenPrediction`: the policy with its `prediction`.  The last element of an empty map is
undefined. -/
def genPrediction (lib : StdLib) (cfg : TestParam F) (context : Context)
    (blockLevelDistribution : UnorderedMap UInt16 (List Burst)) (policy : BurstGroupPolicy F) :
    Except Fault (BurstGroupPolicy F) :=
  let policy := policy.rankNames lib context.deviceVec
  match policy.rankedGroup.reverse with
  | [] => .error .undefined
  | [(_, name)] => .ok { policy with prediction := name }
  | (score, name) :: (score', name') :: rest =>
    if score - score' ≤ cfg.minOutperform then do
      let (prediction, _) ← closestName context blockLevelDistribution
        (Burst.ofBursts policy.testGroup) (score - cfg.minOutperform)
        ((score, name) :: (score', name') :: rest) (policy.prediction, maxGap)
      return { policy with prediction }
    else .ok { policy with prediction := name }

/-! ### The entries that are read -/

/-- The devices that the loop over the ranks comes to. -/
def consultedFrom (context : Context) (maxScore : F) : List (F × String) → List UInt16
  | [] => []
  | (devScore, devName) :: rest =>
    if devScore < maxScore then []
    else
      match context.getDevice devName with
      | .ok device => device.devId :: consultedFrom context maxScore rest
      | .error _ => []

/-- The devices whose entries of `blockLevelDistribution` are read by `GenPrediction`. -/
def consulted (lib : StdLib) (cfg : TestParam F) (context : Context)
    (policy : BurstGroupPolicy F) : List UInt16 :=
  match (policy.rankNames lib context.deviceVec).rankedGroup.reverse with
  | (score, name) :: (score', name') :: rest =>
    if score - score' ≤ cfg.minOutperform then
      consultedFrom context (score - cfg.minOutperform) ((score, name) :: (score', name') :: rest)
    else []
  | _ => []

omit [Field F] [Elementary F] in
theorem exists_device_of_consultedFrom {context : Context} {maxScore : F}
    {ranks : List (F × String)} {d : UInt16} (h : d ∈ consultedFrom context maxScore ranks) :
    ∃ e ∈ ranks, ∃ device, context.getDevice e.2 = .ok device ∧ device.devId = d := by
  induction ranks with
  | nil => exact absurd h List.not_mem_nil
  | cons e ranks ih =>
    rw [consultedFrom] at h
    split_ifs at h
    · exact absurd h List.not_mem_nil
    · split at h
      · rename_i device hdevice
        rcases List.mem_cons.mp h with rfl | h
        · exact ⟨e, List.mem_cons_self, device, hdevice, rfl⟩
        · obtain ⟨e', he', hnamed⟩ := ih h
          exact ⟨e', List.mem_cons_of_mem _ he', hnamed⟩
      · exact absurd h List.not_mem_nil

omit [Elementary F] in
/-- A consulted device has a ranked name. -/
theorem exists_device_of_consulted {lib : StdLib} {cfg : TestParam F} {context : Context}
    {policy : BurstGroupPolicy F} {d : UInt16} (h : d ∈ policy.consulted lib cfg context) :
    ∃ e ∈ (policy.rankNames lib context.deviceVec).rankedGroup, ∃ device,
      context.getDevice e.2 = .ok device ∧ device.devId = d := by
  rw [consulted] at h
  split at h
  · rename_i score name score' name' rest hranks
    split_ifs at h
    · obtain ⟨e, he, hdevice⟩ := exists_device_of_consultedFrom h
      exact ⟨e, List.mem_reverse.mp (hranks ▸ he), hdevice⟩
    · exact absurd h List.not_mem_nil
  · exact absurd h List.not_mem_nil

omit [Field F] [Elementary F] in
theorem closestName_congr {context : Context}
    {blockLevelDistribution blockLevelDistribution' : UnorderedMap UInt16 (List Burst)}
    {maxScore : F} (mergedBurst : Burst) (ranks : List (F × String)) (best : String × ℕ)
    (h : ∀ d ∈ consultedFrom context maxScore ranks,
      (blockLevelDistribution'.lookup d).getD [] = (blockLevelDistribution.lookup d).getD []) :
    closestName context blockLevelDistribution' mergedBurst maxScore ranks best =
      closestName context blockLevelDistribution mergedBurst maxScore ranks best := by
  induction ranks generalizing best with
  | nil => rfl
  | cons e ranks ih =>
    rw [closestName, closestName]
    rw [consultedFrom] at h
    split_ifs at h ⊢ with hlow
    · rfl
    · cases hdevice : context.getDevice e.2 with
      | error fault => rfl
      | ok device =>
        rw [hdevice] at h
        obtain ⟨hfirst, hrest⟩ := List.forall_mem_cons.mp h
        show closestName _ _ _ _ _ (closerBlocks _ _ _ _) = _
        rw [hfirst, ih _ hrest]
        rfl

omit [Elementary F] in
/-- **A prediction reads the entries of the consulted devices only**, and a missing entry counts as
an empty one. -/
theorem genPrediction_congr {lib : StdLib} {cfg : TestParam F} {context : Context}
    {blockLevelDistribution blockLevelDistribution' : UnorderedMap UInt16 (List Burst)}
    {policy : BurstGroupPolicy F} (h : ∀ d ∈ policy.consulted lib cfg context,
      (blockLevelDistribution'.lookup d).getD [] = (blockLevelDistribution.lookup d).getD []) :
    policy.genPrediction lib cfg context blockLevelDistribution' =
      policy.genPrediction lib cfg context blockLevelDistribution := by
  rw [genPrediction, genPrediction]
  rw [consulted] at h
  dsimp only at h ⊢
  split
  · rfl
  · rfl
  · rename_i score name score' name' rest hranks
    rw [hranks] at h
    dsimp only at h
    split_ifs at h ⊢
    · rw [closestName_congr _ _ _ h]
    · rfl

/-! ## The report -/

/-- One iteration of the loop of `ToString`: what it says of a burst whose type is not among the
names predicted for it. -/
def missedBurst (printFloat : F → String) (policy : BurstGroupPolicy F) (i : ℕ)
    (testBurst : Burst) : Except Fault String := do
  let predictNames ← at? policy.vPredictNames i
  if predictNames.any fun name => removeSuffix name == removeSuffix testBurst.instanceLabel then
    return ""
  else
    let test ← testBurst.toString
    let distance ← at? policy.vDistance i
    let predictTrains ← at? policy.vPredictTrains i
    let bursts ← predictTrains.foldlM (fun ss burst => do return ss ++ (← burst.toString)) ""
    return "index=" ++ i.repr ++ "\n" ++ "test" ++ test ++ "prediction names" ++
      String.join (predictNames.map fun name => "," ++ name) ++ "\n" ++
      "Attention prediction bursts:" ++ "\n" ++ "Distance:" ++ printFloat distance ++ "\n" ++
      bursts ++ "\n"

/-- `ToString`, on a policy that has made its prediction: the text, and what reading
`addrAvgPktMap` leaves in it.  The exception of `GetDevice` is caught, reported, and ends the
program. -/
def toString (printFloat : F → String) (context : Context) (addrAvgPktMap : UnorderedMap UInt16 ℕ)
    (policy : BurstGroupPolicy F) : Except Fault (String × UnorderedMap UInt16 ℕ) := do
  let missed ← policy.testGroup.zipIdx.foldlM
    (fun ss e => do return ss ++ (← policy.missedBurst printFloat e.2 e.1)) ""
  let report := missed ++ "total burst num:" ++ policy.testGroup.length.repr ++ "\n" ++
    "prediction rank:" ++ "\n" ++
    String.join (policy.rankedGroup.map fun bucket => bucket.2 ++ printFloat bucket.1 ++ "\n") ++
    "final prediction:" ++ policy.prediction ++ "\n"
  if policy.prediction = "unreliable" then
    return (report ++ "--------------" ++ "\n", addrAvgPktMap)
  else
    let device ← context.getDevice policy.prediction
    let avgPktNum := (addrAvgPktMap.lookup device.devId).getD 0
    return (report ++ "prediction pktNum:" ++ printFloat avgPktNum ++ "\n" ++
      "--------------" ++ "\n", addrAvgPktMap.update device.devId 0 id)

end BurstGroupPolicy
end BurstIoT
