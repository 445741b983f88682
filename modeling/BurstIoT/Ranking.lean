import Mathlib.Data.List.TakeWhile
import BurstIoT.Votes

/-!
# How `GenPrediction` chooses

The names with votes are ranked in a multimap by their scores, and the choice is made among those
whose score is within `MIN_OUTPERFORM` of the best.  `Contender` says which names these are, from
the bucket alone.  `genPrediction_cases` says what `GenPrediction` does with them: there is a leader
with no other contender, which is returned; or there are several, and it asks for the device of each
and keeps the name whose training block comes closest (`ask`, `closest_cases`).  The order in which
the contenders are met depends on the library, which names are contenders does not.

Without votes every device is ranked by its name without the number, and all with the same score
(`genPrediction_fallback`).
-/

namespace BurstIoT

/-- A name that the registry has a device for. -/
def Context.Knows (context : Context) (name : String) : Prop :=
  name ∈ context.allDevices

theorem Context.getDevice_of_knows {context : Context} {name : String} (h : context.Knows name) :
    ∃ device, context.allDevices.lookup name = some device ∧
      context.getDevice name = .ok device := by
  obtain ⟨device, hdevice⟩ := UnorderedMap.exists_lookup h
  exact ⟨device, hdevice, by rw [getDevice, hdevice]⟩

theorem Context.getDevice_of_not_knows {context : Context} {name : String}
    (h : ¬ context.Knows name) : context.getDevice name = .error (.thrown .deviceNotFound) := by
  rw [getDevice, AList.lookup_eq_none.mpr h]

namespace BurstGroupPolicy

/-! ## The multimap -/

section Multimap

variable {F : Type} [LinearOrder F]

theorem multimapInsert_perm (map : List (F × String)) (key : F) (value : String) :
    (multimapInsert map key value).Perm ((key, value) :: map) := by
  rw [multimapInsert]
  refine List.perm_middle.trans (List.Perm.cons _ ?_)
  rw [List.takeWhile_append_dropWhile]

/-- The entries are ordered by their keys. -/
def Sorted (map : List (F × String)) : Prop :=
  map.Pairwise fun a b => a.1 ≤ b.1

theorem le_of_mem_dropWhile {map : List (F × String)} (h : Sorted map) (key : F) :
    ∀ e ∈ map.dropWhile (fun e => decide (e.1 ≤ key)), key ≤ e.1 := by
  induction map with
  | nil => exact nofun
  | cons a map ih =>
    rw [Sorted, List.pairwise_cons] at h
    rw [List.dropWhile_cons]
    split_ifs with hkey
    · exact ih h.2
    · have hlt : key ≤ a.1 := (not_le.mp (by simpa using hkey)).le
      exact List.forall_mem_cons.mpr ⟨hlt, fun e he => hlt.trans (h.1 e he)⟩

theorem sorted_multimapInsert {map : List (F × String)} (h : Sorted map) (key : F)
    (value : String) : Sorted (multimapInsert map key value) := by
  rw [multimapInsert, Sorted, List.pairwise_append, List.pairwise_cons]
  have hbefore : ∀ e ∈ map.takeWhile (fun e => decide (e.1 ≤ key)), e.1 ≤ key := fun e he =>
    of_decide_eq_true (List.mem_takeWhile_imp (p := fun e : F × String => decide (e.1 ≤ key)) he)
  have hbehind := le_of_mem_dropWhile h key
  refine ⟨h.sublist (List.takeWhile_sublist _), ⟨hbehind, h.sublist (List.dropWhile_sublist _)⟩, ?_⟩
  intro a ha b hb
  rcases List.mem_cons.mp hb with rfl | hb
  · exact hbefore a ha
  · exact (hbefore a ha).trans (hbehind b hb)

/-- Inserting one entry after the other. -/
theorem foldl_multimapInsert {α : Type} (key : α → F) (value : α → String) (l : List α)
    {map : List (F × String)} (h : Sorted map) :
    Sorted (l.foldl (fun map a => multimapInsert map (key a) (value a)) map) ∧
      (l.foldl (fun map a => multimapInsert map (key a) (value a)) map).Perm
        (l.map (fun a => (key a, value a)) ++ map) := by
  induction l generalizing map with
  | nil => exact ⟨h, List.Perm.refl map⟩
  | cons a l ih =>
    obtain ⟨hsorted, hperm⟩ := ih (sorted_multimapInsert h (key a) (value a))
    refine ⟨hsorted, hperm.trans ?_⟩
    exact ((multimapInsert_perm map (key a) (value a)).append_left _).trans List.perm_middle

/-- Entries with one key stay in the order in which they are inserted. -/
theorem foldl_multimapInsert_const {α : Type} (key : F) (value : α → String) (l : List α)
    (map : List (F × String)) (h : ∀ e ∈ map, e.1 ≤ key) :
    l.foldl (fun map a => multimapInsert map key (value a)) map =
      map ++ l.map fun a => (key, value a) := by
  induction l generalizing map with
  | nil => exact (List.append_nil map).symm
  | cons a l ih =>
    have hlast : multimapInsert map key (value a) = map ++ [(key, value a)] := by
      rw [multimapInsert, List.takeWhile_eq_self_iff.mpr fun e he => decide_eq_true (h e he),
        List.dropWhile_eq_nil_iff.mpr fun e he => decide_eq_true (h e he)]
    rw [List.foldl_cons, hlast, ih, List.append_assoc]
    · rfl
    · refine List.forall_mem_append.mpr ⟨h, List.forall_mem_singleton.mpr (le_refl key)⟩

/-- In descending order, the scores that are high enough come first. -/
theorem mem_takeWhile_of_descending {ranks : List (F × String)}
    (h : ranks.Pairwise fun a b => b.1 ≤ a.1) (maxScore : F) (e : F × String) :
    e ∈ ranks.takeWhile (fun e => !decide (e.1 < maxScore)) ↔ e ∈ ranks ∧ maxScore ≤ e.1 := by
  induction ranks with
  | nil => simp
  | cons a ranks ih =>
    rw [List.pairwise_cons] at h
    rw [List.takeWhile_cons]
    by_cases hlow : a.1 < maxScore
    · have hnone : ¬ (e ∈ a :: ranks ∧ maxScore ≤ e.1) := by
        rintro ⟨he, hhigh⟩
        rcases List.mem_cons.mp he with rfl | he
        · exact absurd hlow (not_lt.mpr hhigh)
        · exact absurd (hhigh.trans (h.1 e he)) (not_le.mpr hlow)
      simp only [hlow, hnone]
      simp
    · simp only [hlow, decide_false, Bool.not_false, if_true, List.mem_cons, ih h.2]
      constructor
      · rintro (rfl | ⟨he, hhigh⟩)
        · exact ⟨Or.inl rfl, not_lt.mp hlow⟩
        · exact ⟨Or.inr he, hhigh⟩
      · rintro ⟨rfl | he, hhigh⟩
        · exact Or.inl rfl
        · exact Or.inr ⟨he, hhigh⟩

/-- A name that is ranked, with its score. -/
def Scored (bucket : UnorderedMap String F) (name : String) (score : F) : Prop :=
  bucket.lookup name = some score ∧ name ≠ "unreliable"

/-- The ranks of the names with votes, from the highest score down. -/
structure Descending (bucket : UnorderedMap String F) (ranks : List (F × String)) : Prop where
  mem_iff : ∀ e, e ∈ ranks ↔ Scored bucket e.2 e.1
  pairwise : ranks.Pairwise fun a b => b.1 ≤ a.1
  nodup : (ranks.map Prod.snd).Nodup

namespace Descending

variable {bucket : UnorderedMap String F} {name : String} {score : F} {rest : List (F × String)}

theorem scored_top (h : Descending bucket ((score, name) :: rest)) : Scored bucket name score :=
  (h.mem_iff (score, name)).mp List.mem_cons_self

theorem le_top (h : Descending bucket ((score, name) :: rest)) (other : String) (score' : F)
    (hother : Scored bucket other score') : score' ≤ score := by
  rcases List.mem_cons.mp ((h.mem_iff (score', other)).mpr hother) with heq | hrest
  · rw [(Prod.mk.inj heq).1]
  · exact (List.pairwise_cons.mp h.pairwise).1 _ hrest

theorem scored_second {name₂ : String} {score₂ : F}
    (h : Descending bucket ((score, name) :: (score₂, name₂) :: rest)) :
    Scored bucket name₂ score₂ :=
  (h.mem_iff (score₂, name₂)).mp (List.mem_cons_of_mem _ List.mem_cons_self)

theorem top_ne_second {name₂ : String} {score₂ : F}
    (h : Descending bucket ((score, name) :: (score₂, name₂) :: rest)) : name ≠ name₂ := by
  rintro rfl
  exact (List.nodup_cons.mp h.nodup).1 List.mem_cons_self

/-- No other name has a higher score than the second. -/
theorem le_second {name₂ : String} {score₂ : F}
    (h : Descending bucket ((score, name) :: (score₂, name₂) :: rest)) {other : String}
    {score' : F} (hother : Scored bucket other score') (hne : other ≠ name) : score' ≤ score₂ := by
  rcases List.mem_cons.mp ((h.mem_iff (score', other)).mpr hother) with heq | hrest
  · exact absurd (Prod.mk.inj heq).2 hne
  · rcases List.mem_cons.mp hrest with heq | hrest
    · rw [(Prod.mk.inj heq).1]
    · exact (List.pairwise_cons.mp (List.pairwise_cons.mp h.pairwise).2).1 _ hrest

end Descending

end Multimap

variable {F : Type} [Field F] [LinearOrder F]

/-! ## Asking for the devices -/

/-- The training blocks of the device that has the name. -/
def blocksOf (context : Context) (blockLevelDistribution : UnorderedMap UInt16 (List Burst))
    (name : String) : List Burst :=
  match context.allDevices.lookup name with
  | some device => (blockLevelDistribution.lookup device.devId).getD []
  | none => []

/-- One iteration of the loop over the ranks, on a name that it does not skip. -/
def ask (context : Context) (blockLevelDistribution : UnorderedMap UInt16 (List Burst))
    (mergedBurst : Burst) (best : String × ℕ) (devName : String) :
    Except Fault (String × ℕ) := do
  let device ← context.getDevice devName
  return closerBlocks mergedBurst devName
    ((blockLevelDistribution.lookup device.devId).getD []) best

variable {context : Context} {blockLevelDistribution : UnorderedMap UInt16 (List Burst)}
  {mergedBurst : Burst}

omit [Field F] in
/-- **The loop asks for the names down to the first score that is too low.** -/
theorem closestName_eq (maxScore : F) (ranks : List (F × String)) (best : String × ℕ) :
    closestName context blockLevelDistribution mergedBurst maxScore ranks best =
      ((ranks.takeWhile fun e => !decide (e.1 < maxScore)).map Prod.snd).foldlM
        (ask context blockLevelDistribution mergedBurst) best := by
  induction ranks generalizing best with
  | nil => rfl
  | cons e ranks ih =>
    obtain ⟨devScore, devName⟩ := e
    rw [closestName]
    split_ifs with hlow
    · simp [hlow]
      rfl
    · rw [List.takeWhile_cons_of_pos (by simpa using hlow), List.map_cons, List.foldlM_cons, ask]
      cases context.getDevice devName with
      | error fault => rfl
      | ok device => exact ih _

/-- What an iteration does with one training block. -/
def closer (best offer : String × ℕ) : String × ℕ :=
  if offer.2 < best.2 then offer else best

/-- The training blocks of some names, by their differences. -/
def offers (context : Context) (blockLevelDistribution : UnorderedMap UInt16 (List Burst))
    (mergedBurst : Burst) (names : List String) : List (String × ℕ) :=
  names.flatMap fun name => (blocksOf context blockLevelDistribution name).map fun block =>
    (name, gap mergedBurst block)

theorem mem_offers {names : List String} {offer : String × ℕ} :
    offer ∈ offers context blockLevelDistribution mergedBurst names ↔
      offer.1 ∈ names ∧ ∃ block ∈ blocksOf context blockLevelDistribution offer.1,
        gap mergedBurst block = offer.2 := by
  obtain ⟨name, distance⟩ := offer
  simp only [offers, List.mem_flatMap, List.mem_map, Prod.mk.injEq]
  constructor
  · rintro ⟨name', hname, block, hblock, rfl, rfl⟩
    exact ⟨hname, block, hblock, rfl⟩
  · rintro ⟨hname, block, hblock, rfl⟩
    exact ⟨name, hname, block, hblock, rfl, rfl⟩

/-- **Asking for names that are known** goes through their training blocks. -/
theorem foldlM_ask {names : List String} (h : ∀ name ∈ names, context.Knows name)
    (best : String × ℕ) :
    names.foldlM (ask context blockLevelDistribution mergedBurst) best =
      .ok ((offers context blockLevelDistribution mergedBurst names).foldl closer best) := by
  induction names generalizing best with
  | nil => rfl
  | cons name names ih =>
    obtain ⟨device, hlookup, hget⟩ := Context.getDevice_of_knows (h name List.mem_cons_self)
    have hask : ask context blockLevelDistribution mergedBurst best name =
        .ok (((blocksOf context blockLevelDistribution name).map fun block =>
          (name, gap mergedBurst block)).foldl closer best) := by
      rw [ask, hget, blocksOf, hlookup, List.foldl_map]
      rfl
    rw [List.foldlM_cons, hask, offers, List.flatMap_cons, List.foldl_append]
    exact ih (fun other hother => h other (List.mem_cons_of_mem name hother)) _

/-- **Asking for a name that is not known** ends with the exception. -/
theorem foldlM_ask_error {names : List String} (h : ∃ name ∈ names, ¬ context.Knows name)
    (best : String × ℕ) :
    names.foldlM (ask context blockLevelDistribution mergedBurst) best =
      .error (.thrown .deviceNotFound) := by
  induction names generalizing best with
  | nil =>
    obtain ⟨name, hname, -⟩ := h
    cases hname
  | cons name names ih =>
    rw [List.foldlM_cons, ask]
    by_cases hname : context.Knows name
    · obtain ⟨device, -, hget⟩ := Context.getDevice_of_knows hname
      rw [hget]
      obtain ⟨other, hother, hunknown⟩ := h
      refine ih ⟨other, (List.mem_cons.mp hother).resolve_left ?_, hunknown⟩ _
      rintro rfl
      exact hunknown hname
    · rw [Context.getDevice_of_not_knows hname]
      rfl

/-- **The nearest offer so far.** -/
theorem foldl_closer (offers : List (String × ℕ)) (best : String × ℕ) :
    (offers.foldl closer best).2 ≤ best.2 ∧
      (∀ offer ∈ offers, (offers.foldl closer best).2 ≤ offer.2) ∧
      (offers.foldl closer best = best ∨
        ∃ offer ∈ offers, offer.2 < best.2 ∧ offers.foldl closer best = offer) := by
  induction offers generalizing best with
  | nil => exact ⟨le_refl _, nofun, Or.inl rfl⟩
  | cons offer offers ih =>
    obtain ⟨hle, hmin, hfrom⟩ := ih (closer best offer)
    rw [List.foldl_cons]
    have hstep : (closer best offer).2 ≤ best.2 ∧ (closer best offer).2 ≤ offer.2 ∧
        (closer best offer = best ∨ offer.2 < best.2 ∧ closer best offer = offer) := by
      rw [closer]
      split_ifs with hlt
      · exact ⟨hlt.le, le_refl _, Or.inr ⟨hlt, rfl⟩⟩
      · exact ⟨le_refl _, not_lt.mp hlt, Or.inl rfl⟩
    refine ⟨hle.trans hstep.1, ?_, ?_⟩
    · exact List.forall_mem_cons.mpr ⟨hle.trans hstep.2.1, hmin⟩
    · rcases hfrom with heq | ⟨other, hother, hlt, heq⟩
      · rw [heq]
        exact hstep.2.2.imp id fun h => ⟨offer, List.mem_cons_self, h⟩
      · exact Or.inr ⟨other, List.mem_cons_of_mem offer hother, hlt.trans_le hstep.1, heq⟩

/-- **The first name is kept only if no offer is below the bound**; otherwise a nearest offer is
taken. -/
theorem closest_cases (offers : List (String × ℕ)) (start : String) (bound : ℕ) :
    ((∀ offer ∈ offers, bound ≤ offer.2) ∧ (offers.foldl closer (start, bound)).1 = start) ∨
      ∃ nearest ∈ offers, nearest.2 < bound ∧ (∀ offer ∈ offers, nearest.2 ≤ offer.2) ∧
        (offers.foldl closer (start, bound)).1 = nearest.1 := by
  obtain ⟨-, hmin, hfrom⟩ := foldl_closer offers (start, bound)
  rcases hfrom with heq | ⟨nearest, hnearest, hlt, heq⟩
  · refine Or.inl ⟨fun offer hoffer => ?_, by rw [heq]⟩
    have hle := hmin offer hoffer
    rwa [heq] at hle
  · rw [heq] at hmin ⊢
    exact Or.inr ⟨nearest, hnearest, hlt, hmin, rfl⟩

/-! ## Scores and contenders -/

/-- A name whose score is within `MIN_OUTPERFORM` of the best. -/
def Contender (cfg : TestParam F) (bucket : UnorderedMap String F) (name : String) : Prop :=
  ∃ score, Scored bucket name score ∧
    ∀ other score', Scored bucket other score' → score' ≤ score + cfg.minOutperform

variable {cfg : TestParam F} {policy : BurstGroupPolicy F}

/-- **The ranks of a bucket with votes**: the names with their scores, in order. -/
theorem rankNames_voted (lib : StdLib) (deviceVec : List KDevice) (hfresh : policy.rankedGroup = [])
    (hvotes : ∃ name score, Scored policy.predictBucket name score) :
    ∃ ranked, policy.rankNames lib deviceVec = { policy with rankedGroup := ranked } ∧
      Descending policy.predictBucket ranked.reverse := by
  let entries := (lib.iterate policy.predictBucket).filter fun e => e.1 ≠ "unreliable"
  let ranked := entries.foldl (fun ranked e => multimapInsert ranked e.2 e.1) []
  have hloop : (lib.iterate policy.predictBucket).foldl (fun ranked e =>
      if e.1 = "unreliable" then ranked else multimapInsert ranked e.2 e.1) policy.rankedGroup =
        ranked := by
    rw [hfresh]
    show _ = entries.foldl _ _
    rw [List.foldl_filter]
    congr 1
    funext ranked e
    by_cases h : e.1 = "unreliable" <;> simp [h]
  obtain ⟨hsorted, hperm⟩ :=
    foldl_multimapInsert (F := F) Prod.snd Prod.fst entries List.Pairwise.nil
  rw [List.append_nil] at hperm
  have hmem : ∀ e, e ∈ ranked.reverse ↔ Scored policy.predictBucket e.2 e.1 := by
    rintro ⟨score, name⟩
    rw [List.mem_reverse, hperm.mem_iff, List.mem_map]
    constructor
    · rintro ⟨⟨name', score'⟩, he, heq⟩
      obtain ⟨rfl, rfl⟩ := Prod.mk.inj heq
      obtain ⟨hmem, hne⟩ := List.mem_filter.mp he
      exact ⟨lib.mem_iterate.mp hmem, of_decide_eq_true hne⟩
    · rintro ⟨hlookup, hne⟩
      exact ⟨(name, score), List.mem_filter.mpr ⟨lib.mem_iterate.mpr hlookup, decide_eq_true hne⟩,
        rfl⟩
  have hnodup : (ranked.reverse.map Prod.snd).Nodup := by
    rw [List.map_reverse, List.nodup_reverse, (hperm.map Prod.snd).nodup_iff, List.map_map]
    exact (lib.nodup_iterate_keys _).sublist (List.filter_sublist.map Prod.fst)
  refine ⟨ranked, ?_, hmem, List.pairwise_reverse.mpr hsorted, hnodup⟩
  obtain ⟨name, score, hscored⟩ := hvotes
  have hne : ranked ≠ [] :=
    List.ne_nil_of_mem (List.mem_reverse.mp ((hmem (score, name)).mpr hscored))
  rw [rankNames, hloop, if_neg hne]

/-- **The ranks without votes**: every device by its name without the number, each with one vote. -/
theorem rankNames_fallback (lib : StdLib) (deviceVec : List KDevice)
    (hfresh : policy.rankedGroup = [])
    (hvotes : ¬ ∃ name score, Scored policy.predictBucket name score) :
    policy.rankNames lib deviceVec =
      { policy with
        prediction := "unreliable"
        rankedGroup := deviceVec.map fun device => (1, removeSuffix device.instanceName) } := by
  have hloop : ∀ l : List (String × F), (∀ e ∈ l, e.1 = "unreliable") →
      l.foldl (fun ranked e =>
        if e.1 = "unreliable" then ranked else multimapInsert ranked e.2 e.1) [] = [] := by
    intro l hl
    induction l with
    | nil => rfl
    | cons e l ih =>
      rw [List.foldl_cons, if_pos (hl e List.mem_cons_self)]
      exact ih fun e he => hl e (List.mem_cons_of_mem _ he)
  have hall : ∀ e ∈ lib.iterate policy.predictBucket, e.1 = "unreliable" := by
    intro e he
    by_contra hne
    exact hvotes ⟨e.1, e.2, lib.mem_iterate.mp he, hne⟩
  have hconst := foldl_multimapInsert_const (1 : F)
    (fun device : KDevice => removeSuffix device.instanceName) deviceVec [] nofun
  rw [rankNames, hfresh, hloop _ hall, if_pos rfl, hconst, List.nil_append]

/-- What `GenPrediction` does once there are two ranks: if they are close, it asks for the names of
the ranks that are high enough. -/
theorem genPrediction_close {lib : StdLib} {ranked : BurstGroupPolicy F} {score score' : F}
    {name name' : String} {rest : List (F × String)}
    (hrank : policy.rankNames lib context.deviceVec = ranked)
    (hranks : ranked.rankedGroup.reverse = (score, name) :: (score', name') :: rest)
    (hgap : score - score' ≤ cfg.minOutperform) :
    policy.genPrediction lib cfg context blockLevelDistribution = (do
      let best ← ((((score, name) :: (score', name') :: rest).takeWhile
          fun e => !decide (e.1 < score - cfg.minOutperform)).map Prod.snd).foldlM
        (ask context blockLevelDistribution (Burst.ofBursts ranked.testGroup))
        (ranked.prediction, maxGap)
      return { ranked with prediction := best.1 }) := by
  rw [genPrediction, hrank]
  dsimp only
  rw [hranks]
  dsimp only
  rw [if_pos hgap, closestName_eq]

/-- If they are not, the first is returned. -/
theorem genPrediction_apart {lib : StdLib} {ranked : BurstGroupPolicy F} {score score' : F}
    {name name' : String} {rest : List (F × String)}
    (hrank : policy.rankNames lib context.deviceVec = ranked)
    (hranks : ranked.rankedGroup.reverse = (score, name) :: (score', name') :: rest)
    (hgap : ¬ score - score' ≤ cfg.minOutperform) :
    policy.genPrediction lib cfg context blockLevelDistribution =
      .ok { ranked with prediction := name } := by
  rw [genPrediction, hrank]
  dsimp only
  rw [hranks]
  dsimp only
  rw [if_neg hgap]

section Choice

variable [IsStrictOrderedRing F]

/-- The contenders, measured from the best score. -/
theorem contender_iff {bucket : UnorderedMap String F} {name : String} {score : F}
    (h : Scored bucket name score)
    (hbest : ∀ other score', Scored bucket other score' → score' ≤ score) (other : String) :
    Contender cfg bucket other ↔
      ∃ score', Scored bucket other score' ∧ score - cfg.minOutperform ≤ score' := by
  constructor
  · rintro ⟨score', hother, hclose⟩
    exact ⟨score', hother, sub_le_iff_le_add.mpr (hclose name score h)⟩
  · rintro ⟨score', hother, hhigh⟩
    exact ⟨score', hother, fun third score'' hthird =>
      (hbest third score'' hthird).trans (sub_le_iff_le_add.mp hhigh)⟩

/-- A leader with no other contender is returned. -/
def Leads (lib : StdLib) (cfg : TestParam F) (context : Context)
    (blockLevelDistribution : UnorderedMap UInt16 (List Burst)) (policy : BurstGroupPolicy F) :
    Prop :=
  ∃ name score ranked, Scored policy.predictBucket name score ∧
    (∀ other score', Scored policy.predictBucket other score' → score' ≤ score) ∧
    (∀ other, Contender cfg policy.predictBucket other → other = name) ∧
    policy.genPrediction lib cfg context blockLevelDistribution =
      .ok { policy with rankedGroup := ranked, prediction := name }

/-- Several contenders are asked for, one after the other. -/
def Contested (lib : StdLib) (cfg : TestParam F) (context : Context)
    (blockLevelDistribution : UnorderedMap UInt16 (List Burst)) (policy : BurstGroupPolicy F) :
    Prop :=
  ∃ (names : List String) (ranked : List (F × String)),
    (∃ name ∈ names, ∃ other ∈ names, name ≠ other) ∧
    (∀ name, name ∈ names ↔ Contender cfg policy.predictBucket name) ∧
    policy.genPrediction lib cfg context blockLevelDistribution = (do
      let best ← names.foldlM
        (ask context blockLevelDistribution (Burst.ofBursts policy.testGroup))
        (policy.prediction, maxGap)
      return { policy with rankedGroup := ranked, prediction := best.1 })

variable {lib : StdLib} {ranked : List (F × String)} {name name₂ : String} {score score₂ : F}
  {rest : List (F × String)}

omit [IsStrictOrderedRing F] in
/-- A single name leads. -/
theorem leads_of_single
    (hrank : policy.rankNames lib context.deviceVec = { policy with rankedGroup := ranked })
    (hranks : ranked.reverse = [(score, name)])
    (h : Descending policy.predictBucket [(score, name)]) :
    Leads lib cfg context blockLevelDistribution policy := by
  refine ⟨name, score, ranked, h.scored_top, h.le_top, ?_, ?_⟩
  · rintro other ⟨score', hother, -⟩
    have heq := List.mem_singleton.mp ((h.mem_iff (score', other)).mpr hother)
    exact (Prod.mk.inj heq).2
  · rw [genPrediction, hrank]
    dsimp only
    rw [hranks]

/-- The first name leads if the second is not close. -/
theorem leads_of_apart
    (hrank : policy.rankNames lib context.deviceVec = { policy with rankedGroup := ranked })
    (hranks : ranked.reverse = (score, name) :: (score₂, name₂) :: rest)
    (h : Descending policy.predictBucket ((score, name) :: (score₂, name₂) :: rest))
    (hgap : ¬ score - score₂ ≤ cfg.minOutperform) :
    Leads lib cfg context blockLevelDistribution policy := by
  refine ⟨name, score, ranked, h.scored_top, h.le_top, fun other hother => ?_,
    genPrediction_apart hrank hranks hgap⟩
  obtain ⟨score', hscored, hhigh⟩ := (contender_iff h.scored_top h.le_top other).mp hother
  by_contra hne
  have hle : score' ≤ score₂ := h.le_second hscored hne
  exact hgap (by linarith)

/-- If the second name is close, the names that are asked for are the contenders. -/
theorem contested_of_close
    (hrank : policy.rankNames lib context.deviceVec = { policy with rankedGroup := ranked })
    (hranks : ranked.reverse = (score, name) :: (score₂, name₂) :: rest)
    (h : Descending policy.predictBucket ((score, name) :: (score₂, name₂) :: rest))
    (hgap : score - score₂ ≤ cfg.minOutperform) :
    Contested lib cfg context blockLevelDistribution policy := by
  have hvisit : ∀ other, other ∈ (((score, name) :: (score₂, name₂) :: rest).takeWhile
      fun e => !decide (e.1 < score - cfg.minOutperform)).map Prod.snd ↔
        Contender cfg policy.predictBucket other := by
    intro other
    rw [contender_iff h.scored_top h.le_top, List.mem_map]
    simp only [mem_takeWhile_of_descending h.pairwise, h.mem_iff]
    constructor
    · rintro ⟨⟨score', other'⟩, he, rfl⟩
      exact ⟨score', he⟩
    · rintro ⟨score', he⟩
      exact ⟨(score', other), he, rfl⟩
  have hsecond : score₂ ≤ score := h.le_top name₂ score₂ h.scored_second
  refine ⟨_, ranked, ⟨name, (hvisit name).mpr ?_, name₂, (hvisit name₂).mpr ?_, h.top_ne_second⟩,
    hvisit, genPrediction_close hrank hranks hgap⟩
  · exact (contender_iff h.scored_top h.le_top name).mpr ⟨score, h.scored_top, by linarith⟩
  · exact (contender_iff h.scored_top h.le_top name₂).mpr ⟨score₂, h.scored_second, by linarith⟩

/-- **`GenPrediction` with votes.** -/
theorem genPrediction_cases (lib : StdLib) (cfg : TestParam F) (context : Context)
    (blockLevelDistribution : UnorderedMap UInt16 (List Burst)) (hfresh : policy.rankedGroup = [])
    (hvotes : ∃ name score, Scored policy.predictBucket name score) :
    Leads lib cfg context blockLevelDistribution policy ∨
      Contested lib cfg context blockLevelDistribution policy := by
  obtain ⟨ranked, hrank, hranked⟩ := rankNames_voted lib context.deviceVec hfresh hvotes
  cases hranks : ranked.reverse with
  | nil =>
    obtain ⟨name, score, hscored⟩ := hvotes
    have hmem := (hranked.mem_iff (score, name)).mpr hscored
    rw [hranks] at hmem
    exact absurd hmem List.not_mem_nil
  | cons top rest =>
    rw [hranks] at hranked
    cases rest with
    | nil => exact Or.inl (leads_of_single hrank hranks hranked)
    | cons second rest =>
      by_cases hgap : top.1 - second.1 ≤ cfg.minOutperform
      · exact Or.inr (contested_of_close hrank hranks hranked hgap)
      · exact Or.inl (leads_of_apart hrank hranks hranked hgap)

end Choice

end BurstGroupPolicy
end BurstIoT
