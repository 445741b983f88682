import BurstIoT.Distance
import BurstIoT.Library.Memo

/-!
# Predicting one burst, and the prediction cache

`PredictBurst` searches the train table for the bursts nearest to a test burst.  The cells it
searches are given by a window around the two counters of the test burst (`search`).  The result is
kept in a cache that all prediction tasks share, keyed by the test burst: an `unordered_map` with
the hash and the equality of bursts, and one lock for each key.

The search reads of the test burst only what `operator==` compares (`search_congr`), so the cache is
an instance of the shared table of `Memo`, and no call can tell it from the search itself
(`predictBurst_transparent`): neither when calls run one after the other, nor when calls on
different keys overlap.
-/

namespace BurstIoT

/-- `TestParam`, with its default values. -/
structure TestParam (F : Type) [Field F] where
  unisigRange : UInt8 := 20
  packetnumRange : ℤ := 60
  minOutperform : F := 101 / 100

/-- What `PredictBurst` returns, and a cache entry: a distance and the bursts at it. -/
structure Nearest (F : Type) where
  distance : F
  nearestVec : List Burst
  deriving DecidableEq

/-- `BurstCache`: the entries, with their keys. -/
abbrev PredictionCache (F : Type) : Type := List (Burst × Nearest F)

namespace Prediction

section Window

variable {F : Type} [Field F] (div : DivisionParam) (cfg : TestParam F) (testBurst : Burst)

/-! ## The search -/

def iMin : ℤ := max ((testBurst.uniPktNum.toNat : ℤ) - cfg.unisigRange.toNat) 0

/-- The upper bound is computed in eight bits. -/
def iMax : ℤ := (min (testBurst.uniPktNum + cfg.unisigRange) div.burstMaxUnisig).toNat

/-- The bounds on the packets are computed in an `int`. -/
def jMin : ℤ :=
  min (max (wrapInt (testBurst.intPktNum - cfg.packetnumRange)) 0) (div.burstMaxPacketIndex - 1)

def jMax : ℤ :=
  min (wrapInt (testBurst.intPktNum + cfg.packetnumRange)) div.burstMaxPacketIndex

/-- The values of a loop variable. -/
def loopRange (start stop : ℤ) : List ℤ :=
  (List.range (stop - start).toNat).map fun i : ℕ => start + i

end Window

variable {F : Type} [Field F] [LinearOrder F] [Elementary F]

/-- One iteration of the innermost loop: keep the nearest bursts. -/
def compare (testBurst : Burst) (n : Nearest F) (trainBurst : Burst) :
    Except Fault (Nearest F) := do
  let distance ← testBurst.distance trainBurst
  if distance < n.distance then return ⟨distance, [trainBurst]⟩
  else if distance = n.distance then return { n with nearestVec := n.nearestVec ++ [trainBurst] }
  else return n

/-- One cell of the train table. -/
def searchCell (train : List (List (List Burst))) (testBurst : Burst) (n : Nearest F) (i j : ℤ) :
    Except Fault (Nearest F) := do
  let row ← atInt? train i
  let cell ← atInt? row j
  cell.foldlM (compare testBurst) n

/-- The search of `PredictBurst`, from no nearest burst and the distance 100. -/
def search (div : DivisionParam) (cfg : TestParam F) (train : List (List (List Burst)))
    (testBurst : Burst) : Except Fault (Nearest F) :=
  (loopRange (iMin cfg testBurst) (iMax div cfg testBurst)).foldlM
    (fun n i => (loopRange (jMin div cfg testBurst) (jMax div cfg testBurst)).foldlM
      (fun n j => searchCell train testBurst n i j) n)
    ⟨100, []⟩

/-! ## The cache -/

/-- The key equality of the cache: the hashes agree, and then `operator==`. -/
def sameKey (lib : StdLib) (a b : Burst) : Bool :=
  a.hash lib == b.hash lib && a.same b

/-- `nearestVec.size() != 0`. -/
def answered (n : Nearest F) : Bool :=
  !n.nearestVec.isEmpty

/-- A new cache entry, `std::pair<float, BurstVec>()`. -/
def blank : Nearest F := ⟨0, []⟩

/-- `PredictBurst`: `Query`, which creates the entry it does not find, and on an empty entry the
search, whose result is left in it. -/
def predictBurst (lib : StdLib) (div : DivisionParam) (cfg : TestParam F)
    (train : List (List (List Burst))) (cache : PredictionCache F) (testBurst : Burst) :
    Except Fault (Nearest F × PredictionCache F) :=
  let entry := (Memo.find (sameKey lib) cache testBurst).getD blank
  if answered entry then .ok (entry, cache)
  else do
    let nearest ← search div cfg train testBurst
    return (nearest, Memo.store (sameKey lib) cache testBurst nearest)

/-- `PredictBurst` on one burst after the other. -/
def predictBursts (lib : StdLib) (div : DivisionParam) (cfg : TestParam F)
    (train : List (List (List Burst))) :
    PredictionCache F → List Burst → Except Fault (List (Nearest F) × PredictionCache F)
  | cache, [] => .ok ([], cache)
  | cache, testBurst :: rest => do
    let (nearest, cache) ← predictBurst lib div cfg train cache testBurst
    let (nearests, cache) ← predictBursts lib div cfg train cache rest
    return (nearest :: nearests, cache)

/-! ## Equal bursts are searched alike -/

variable {lib : StdLib} {div : DivisionParam} {cfg : TestParam F}
  {train : List (List (List Burst))}

theorem sameKey_iff {a b : Burst} : sameKey lib a b = true ↔ a.same b = true := by
  rw [sameKey, Bool.and_eq_true, beq_iff_eq]
  exact ⟨fun h => h.2, fun h => ⟨Burst.hash_eq_of_same lib h, h⟩⟩

theorem compare_congr {a b : Burst} (h : a.same b = true) :
    (compare a : Nearest F → Burst → Except Fault (Nearest F)) = compare b := by
  funext n trainBurst
  rw [compare, compare, Burst.distance_congr h]

/-- **Every field the search reads is fixed by `operator==`.** -/
theorem search_congr {a b : Burst} (h : a.same b = true) :
    search div cfg train a = search div cfg train b := by
  obtain ⟨huni, hpkt, -⟩ := Burst.same_iff.mp h
  have hcell : (fun (n : Nearest F) (i j : ℤ) => searchCell train a n i j) =
      fun n i j => searchCell train b n i j := by
    funext n i j
    rw [searchCell, searchCell, compare_congr h]
  have hwindow : iMin cfg a = iMin cfg b ∧ iMax div cfg a = iMax div cfg b ∧
      jMin div cfg a = jMin div cfg b ∧ jMax div cfg a = jMax div cfg b := by
    refine ⟨?_, ?_, ?_, ?_⟩
    · rw [iMin, iMin, huni]
    · rw [iMax, iMax, huni]
    · rw [jMin, jMin, Burst.intPktNum, Burst.intPktNum, hpkt]
    · rw [jMax, jMax, Burst.intPktNum, Burst.intPktNum, hpkt]
  rw [search, search, hwindow.1, hwindow.2.1, hwindow.2.2.1, hwindow.2.2.2]
  simp only [funext_iff] at hcell
  simp only [hcell]

/-- **The cache is a shared table of the search.** -/
theorem lawful (lib : StdLib) (div : DivisionParam) (cfg : TestParam F)
    (train : List (List (List Burst))) :
    Memo.Lawful (sameKey lib) (search div cfg train) blank answered where
  refl := fun k => sameKey_iff.mpr k.same_refl
  symm := fun _ _ h => sameKey_iff.mpr (Burst.same_symm (sameKey_iff.mp h))
  trans := fun _ _ _ h h' =>
    sameKey_iff.mpr (Burst.same_trans (sameKey_iff.mp h) (sameKey_iff.mp h'))
  respects := fun _ _ h => search_congr (sameKey_iff.mp h)
  blank := rfl

/-- A call that runs alone takes the moves of the shared table. -/
theorem run_of_predictBurst {cache cache' : PredictionCache F} {testBurst : Burst} {n : Nearest F}
    (h : predictBurst lib div cfg train cache testBurst = .ok (n, cache')) :
    ∃ moves, StepSystem.run (Memo.step (sameKey lib) (search div cfg train) blank answered)
      ⟨cache, [(testBurst, .waiting)]⟩ moves = some ⟨cache', [(testBurst, .returned n)]⟩ := by
  have hlaw := lawful lib div cfg train
  rw [predictBurst] at h
  split_ifs at h with hans
  · -- the entry is found, as a blank one is not answered
    obtain ⟨rfl, rfl⟩ := Prod.mk.inj (Except.ok.inj h)
    refine ⟨[.enter 0], ?_⟩
    cases hfind : Memo.find (sameKey lib) cache testBurst with
    | none =>
      rw [hfind] at hans
      cases hans
    | some entry =>
      rw [hfind, Option.getD_some] at hans
      show (Memo.step _ _ _ _ _ (Memo.Move.enter 0)).bind some = _
      rw [Memo.step]
      simp [Memo.locked, Memo.Phase.locks, hfind, hans]
  · obtain ⟨nearest, hsearch, h⟩ := CheckedLoop.bind_eq_ok.mp h
    obtain ⟨rfl, rfl⟩ := Prod.mk.inj (Except.ok.inj h)
    refine ⟨[.enter 0, .leave 0], ?_⟩
    cases hfind : Memo.find (sameKey lib) cache testBurst with
    | none =>
      simp [StepSystem.run, Memo.step, Memo.locked, Memo.Phase.locks, hfind, hsearch,
        Memo.store_store hlaw.refl]
    | some entry =>
      rw [hfind, Option.getD_some] at hans
      simp [StepSystem.run, Memo.step, Memo.locked, Memo.Phase.locks, hfind, hans, hsearch]

theorem predictBurst_eq {cache : PredictionCache F}
    (hright : Memo.Right (search div cfg train) answered cache) (testBurst : Burst) :
    (∃ n cache', predictBurst lib div cfg train cache testBurst = .ok (n, cache') ∧
      search div cfg train testBurst = .ok n ∧
        Memo.Right (search div cfg train) answered cache') ∨
    ∃ fault, predictBurst lib div cfg train cache testBurst = .error fault ∧
      search div cfg train testBurst = .error fault := by
  have hlaw := lawful lib div cfg train
  rw [predictBurst]
  split_ifs with hans
  · exact Or.inl ⟨_, _, rfl, hright.find hlaw hans, hright⟩
  · cases hsearch : search div cfg train testBurst with
    | error fault => exact Or.inr ⟨fault, rfl, rfl⟩
    | ok nearest => exact Or.inl ⟨_, _, rfl, rfl, hright.store hlaw hsearch⟩

theorem predictBursts_eq (tests : List Burst) {cache : PredictionCache F}
    (hright : Memo.Right (search div cfg train) answered cache) :
    (predictBursts lib div cfg train cache tests).map Prod.fst =
      tests.mapM (search div cfg train) := by
  induction tests generalizing cache with
  | nil => rfl
  | cons testBurst rest ih =>
    rw [predictBursts, List.mapM_cons]
    rcases predictBurst_eq hright testBurst with ⟨n, cache', hpredict, hsearch, hright'⟩ |
      ⟨fault, hpredict, hsearch⟩
    · rw [hpredict, hsearch]
      dsimp only [bind, Except.bind]
      rw [← ih hright']
      cases predictBursts lib div cfg train cache' rest with
      | error fault => rfl
      | ok results => rfl
    · rw [hpredict, hsearch]
      rfl

end Prediction

open Prediction in
/-- **The prediction cache is transparent.**  Starting with an empty cache, calls of `PredictBurst`
in any order return what the searches return, each to its own test burst; and so do calls that
overlap, in any interleaving in which a call holds the lock of its key.  There, if no search fails,
some call can always go on until all have returned. -/
theorem predictBurst_transparent {F : Type} [Field F] [LinearOrder F] [Elementary F] (lib : StdLib)
    (div : DivisionParam) (cfg : TestParam F) (train : List (List (List Burst)))
    (tests : List Burst) :
    (predictBursts lib div cfg train [] tests).map Prod.fst = tests.mapM (search div cfg train) ∧
      ∀ s, StepSystem.Reachable
          (Memo.step (sameKey lib) (search div cfg train) blank answered) (Memo.start tests) s →
        (∀ testBurst nearest, (testBurst, .returned nearest) ∈ s.calls →
          search div cfg train testBurst = .ok nearest) ∧
        ((∀ testBurst ∈ tests, ∃ nearest, search div cfg train testBurst = .ok nearest) →
          ∀ testBurst phase, (testBurst, phase) ∈ s.calls →
            (∀ nearest, phase ≠ .returned nearest) →
              ∃ m s',
                Memo.step (sameKey lib) (search div cfg train) blank answered s m = some s') := by
  have hlaw := lawful lib div cfg train
  refine ⟨predictBursts_eq tests fun _ he => absurd he List.not_mem_nil, fun s hs => ⟨?_, ?_⟩⟩
  · intro testBurst nearest hmem
    exact Memo.returned_eq hlaw hs hmem
  · intro hok testBurst phase hmem hopen
    exact Memo.exists_move hlaw hs hok hmem hopen

end BurstIoT
