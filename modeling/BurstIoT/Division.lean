import BurstIoT.DeviceBurstGenerator
import BurstIoT.Library.Runs

/-!
# The two divisions, as cuts of a packet list

`LongShortSplit` and `StrictToBursts` both cut a list into runs.  Here the cuts are read off the
packets alone, with no burst and no loop variable:

* `rawCut` is the rule of `LongShortSplit`, and `longShortSplit_eq` says that its raw bursts are the
  runs of that rule, the long ones being those closed for being overlong (`closedLong`);
* `IsRawRun` collects what `StrictToBursts` is applied to: the short raw bursts and the flows of the
  long ones.  `mem_deviceBurstGenerator` reduces the generator to `StrictToBursts` on each of these.

Equal packets are never cut apart (`deviceBurstGenerator_replicate`).
-/

namespace BurstIoT
namespace Division

open DeviceBurstGenerator

variable {lib : StdLib} {div : DivisionParam} {device : KDevice}

/-! ## Raw bursts -/

/-- The rule of `LongShortSplit`: cut at a gap, and after an overlong stretch. -/
def rawCut (div : DivisionParam) (_ : List (Run KPacket)) (run : List KPacket) (p : KPacket) :
    Bool :=
  floorDiff run p ≥ div.interval || isOverlong div run

/-- A raw burst is long when no gap follows it but another packet does. -/
def closedLong (div : DivisionParam) (r : Run KPacket) : Bool :=
  match r.next with
  | some p => !decide (floorDiff r.items p ≥ div.interval)
  | none => false

/-- The raw bursts of a packet list. -/
def rawRuns (div : DivisionParam) (l : List KPacket) : List (Run KPacket) :=
  Run.runs (rawCut div) l

/-- The short raw bursts. -/
def shortRuns (div : DivisionParam) (l : List KPacket) : List (List KPacket) :=
  ((rawRuns div l).filter fun r => !closedLong div r).map Run.items

/-- The long raw bursts. -/
def longRuns (div : DivisionParam) (l : List KPacket) : List (List KPacket) :=
  ((rawRuns div l).filter (closedLong div)).map Run.items

/-- **`LongShortSplit` computes the raw bursts.** -/
theorem longShortSplit_eq (l : List KPacket) :
    (longShortSplit div l).shortBurstVec = shortRuns div l ∧
      (longShortSplit div l).longBurstVec = longRuns div l := by
  let I : List (Run KPacket) → List KPacket → RawSplit → Prop := fun closed run s =>
    s.rawBurst = run ∧
      s.shortBurstVec = (closed.filter fun r => !closedLong div r).map Run.items ∧
      s.longBurstVec = (closed.filter (closedLong div)).map Run.items
  have hcut : ∀ closed run s p, True → I closed run s → rawCut div closed run p = true →
      I (closed ++ [⟨run, some p⟩]) [p] (longShortStep div s p) := by
    rintro closed run s p - ⟨rfl, hshort, hlong⟩ hc
    by_cases hgap : floorDiff s.rawBurst p ≥ div.interval
    · have hkind : closedLong div ⟨s.rawBurst, some p⟩ = false := by simp [closedLong, hgap]
      rw [longShortStep, if_pos hgap]
      simp [I, hkind, hshort, hlong]
    · have hkind : closedLong div ⟨s.rawBurst, some p⟩ = true := by simp [closedLong, hgap]
      have hover : isOverlong div s.rawBurst = true := by simpa [rawCut, hgap] using hc
      rw [longShortStep, if_neg hgap, if_pos hover]
      simp [I, hkind, hshort, hlong]
  have hext : ∀ closed run s p, True → I closed run s → rawCut div closed run p = false →
      I closed (run ++ [p]) (longShortStep div s p) := by
    rintro closed run s p - ⟨rfl, hshort, hlong⟩ hc
    simp only [rawCut, Bool.or_eq_false_iff, decide_eq_false_iff_not] at hc
    rw [longShortStep, if_neg hc.1, if_neg (by simp [hc.2])]
    exact ⟨rfl, hshort, hlong⟩
  obtain ⟨closed, run, ⟨hraw, hshort, hlong⟩, hruns⟩ :=
    Run.foldl_runs hcut hext (s := ({} : RawSplit)) ⟨rfl, rfl, rfl⟩
      (fun p (_ : p ∈ l) => trivial)
  have hlast : closedLong div ⟨run, none⟩ = false := rfl
  rw [longShortSplit, shortRuns, longRuns, rawRuns, hruns]
  simp [hraw, hshort, hlong, hlast]

/-- No gap precedes the first packet, and nothing is overlong before it. -/
theorem rawCut_nil (hdiv : div.Positive) (closed : List (Run KPacket)) (p : KPacket) :
    rawCut div closed [] p = false := by
  have hint := hdiv.one_le_interval
  simp only [rawCut, floorDiff, isOverlong, List.getLast?_nil, Bool.or_false]
  exact decide_eq_false (by omega)

/-! ## Raw runs -/

/-- The packets of the long raw bursts. -/
def longPackets (div : DivisionParam) (l : List KPacket) : List KPacket :=
  (longRuns div l).flatten

/-- The packets of one flow among the long raw bursts. -/
def flow (div : DivisionParam) (l : List KPacket) (key : UInt64) : List KPacket :=
  (longPackets div l).filter fun p => flowKey p = key

/-- A packet list that `StrictToBursts` is applied to: a short raw burst, or one flow. -/
inductive IsRawRun (div : DivisionParam) (l : List KPacket) : List KPacket → Prop where
  | short {raw : List KPacket} : raw ∈ shortRuns div l → IsRawRun div l raw
  | flow (key : UInt64) : Division.flow div l key ≠ [] → IsRawRun div l (Division.flow div l key)

theorem mem_iterate_flows {l : List KPacket} {key : UInt64} {raw : List KPacket} :
    (key, raw) ∈ lib.iterate (separateBy5Tuple (longShortSplit div l).longBurstVec) ↔
      raw ≠ [] ∧ raw = flow div l key := by
  rw [lib.mem_iterate, separateBy5Tuple_eq, (longShortSplit_eq l).2,
    UnorderedMap.lookup_groupOn_eq_some]
  rfl

/-- The bursts before the sort are those of the raw runs. -/
theorem mem_unsortedBurstVec {l : List KPacket} {b : Burst} :
    b ∈ unsortedBurstVec lib div device l ↔
      ∃ raw, IsRawRun div l raw ∧ b ∈ strictToBursts div device raw := by
  rw [unsortedBurstVec, List.mem_append, makeNormalBurstVec, makeLongBurstVec,
    List.mem_flatMap, List.mem_flatMap, (longShortSplit_eq l).1]
  constructor
  · rintro (⟨raw, hraw, hb⟩ | ⟨⟨key, raw⟩, hraw, hb⟩)
    · exact ⟨raw, .short hraw, hb⟩
    · obtain ⟨hne, rfl⟩ := mem_iterate_flows.mp hraw
      exact ⟨_, .flow key hne, hb⟩
  · rintro ⟨raw, hraw, hb⟩
    cases hraw with
    | short hmem => exact Or.inl ⟨raw, hmem, hb⟩
    | flow key hne => exact Or.inr ⟨(key, _), mem_iterate_flows.mpr ⟨hne, rfl⟩, hb⟩

/-- **The bursts of the generator** are those of the raw runs, with their entries sorted. -/
theorem mem_deviceBurstGenerator {l : List KPacket} {b : Burst} :
    b ∈ deviceBurstGenerator lib div device l ↔
      ∃ raw, IsRawRun div l raw ∧ ∃ b' ∈ strictToBursts div device raw, sortDetail lib b' = b := by
  rw [deviceBurstGenerator, sortInOrder, List.mem_map]
  simp only [lib.mem_sort Burst.strictWeak_earlierThan, mem_unsortedBurstVec]
  constructor
  · rintro ⟨b', ⟨raw, hraw, hb'⟩, heq⟩
    exact ⟨raw, hraw, b', hb', heq⟩
  · rintro ⟨raw, hraw, b', hb', heq⟩
    exact ⟨b', ⟨raw, hraw, hb'⟩, heq⟩

/-- Every packet of a raw run is a packet of the list. -/
theorem IsRawRun.subset {l raw : List KPacket} (h : IsRawRun div l raw) : raw ⊆ l := by
  have hitems : ∀ r ∈ rawRuns div l, r.items ⊆ l := fun r hr =>
    (Run.infix_of_mem_runs _ hr).subset
  cases h with
  | short hmem =>
    obtain ⟨r, hr, rfl⟩ := List.mem_map.mp hmem
    exact hitems r (List.mem_of_mem_filter hr)
  | flow key _ =>
    intro p hp
    obtain ⟨items, hmem, hp'⟩ := List.mem_flatten.mp (List.mem_of_mem_filter hp)
    obtain ⟨r, hr, rfl⟩ := List.mem_map.mp hmem
    exact hitems r (List.mem_of_mem_filter hr) hp'

/-- A raw run of a packet list holds a packet. -/
theorem IsRawRun.ne_nil (hdiv : div.Positive) {l raw : List KPacket} (hne : l ≠ [])
    (h : IsRawRun div l raw) : raw ≠ [] := by
  cases h with
  | short hmem =>
    obtain ⟨r, hr, rfl⟩ := List.mem_map.mp hmem
    exact Run.items_ne_nil_of_mem_runs (rawCut_nil hdiv) hne r (List.mem_of_mem_filter hr)
  | flow key hflow => exact hflow

/-- The raw bursts of one class, put together, keep the order of the packets. -/
theorem flatten_runs_sublist (P : Run KPacket → Bool) (l : List KPacket) :
    (((rawRuns div l).filter P).map Run.items).flatten.Sublist l := by
  have h : (rawRuns div l).flatMap Run.items = l := Run.flatMap_items_runs l
  have hsub : (((rawRuns div l).filter P).flatMap Run.items).Sublist
      ((rawRuns div l).flatMap Run.items) := List.filter_sublist.flatMap Run.items
  rwa [h, List.flatMap_def] at hsub

/-- **A raw run keeps the order of the packets.** -/
theorem IsRawRun.sublist {l raw : List KPacket} (h : IsRawRun div l raw) : raw.Sublist l := by
  cases h with
  | short hmem =>
    exact (List.sublist_flatten_of_mem hmem).trans (flatten_runs_sublist _ l)
  | flow key _ =>
    exact List.filter_sublist.trans (flatten_runs_sublist _ l)

theorem IsRawRun.timeOrdered {l raw : List KPacket} (h : IsRawRun div l raw)
    (hl : TimeOrdered l) : TimeOrdered raw :=
  List.Pairwise.sublist h.sublist hl

variable (div) in
/-- Some packet list is always a raw run: the last raw burst is short. -/
theorem exists_isRawRun (l : List KPacket) : ∃ raw, IsRawRun div l raw := by
  obtain ⟨closed, run, hruns⟩ := Run.exists_runsFrom_eq_concat (rawCut div) l [] []
  refine ⟨run, .short ?_⟩
  rw [shortRuns, rawRuns, Run.runs, hruns]
  exact List.mem_map.mpr ⟨⟨run, none⟩,
    List.mem_filter.mpr ⟨List.mem_append_right _ List.mem_cons_self, rfl⟩, rfl⟩

/-! ## The bursts of the generator -/

/-- **Every burst of the generator** is well formed, carries the name of the device, holds a packet
and obeys the limit on signatures. -/
theorem generated_of_mem (hdiv : div.Positive) {l : List KPacket} (hne : l ≠ []) {b : Burst}
    (hb : b ∈ deviceBurstGenerator lib div device l) : Generated div device b := by
  obtain ⟨raw, hraw, b', hb', rfl⟩ := mem_deviceBurstGenerator.mp hb
  have h := generated_strictToBursts hdiv (hraw.ne_nil hdiv hne) b' hb'
  have hperm : (sortDetail lib b').packetDetail.Perm b'.packetDetail :=
    lib.sort_perm strictWeak_sigEarlier _
  exact ⟨h.wellFormed.of_perm hperm, h.label, h.pktNum_pos, h.uniPktNum_le⟩

/-- A packet list gives at least one burst. -/
theorem deviceBurstGenerator_ne_nil (l : List KPacket) :
    deviceBurstGenerator lib div device l ≠ [] := by
  obtain ⟨raw, hraw⟩ := exists_isRawRun div l
  have hmem : ((raw.foldl (strictStep div device) (.init device)).burst) ∈
      strictToBursts div device raw := by
    rw [strictToBursts]
    exact List.mem_append_right _ List.mem_cons_self
  exact List.ne_nil_of_mem (mem_deviceBurstGenerator.mpr ⟨raw, hraw, _, hmem, rfl⟩)

/-! ## Equal packets -/

/-- A burst of `n` packets that all equal `p`. -/
def repeated (device : KDevice) (p : KPacket) (n : ℕ) : Burst where
  uniPktNum := 1
  pktNum := n
  instanceLabel := device.instanceName
  firstPacketStamp := p.timestamp
  lastPacketStamp := p.timestamp
  packetDetail := [(p.signedLen, n)]

/-- The loop of `LongShortSplit` collects equal packets. -/
theorem foldl_longShortStep_replicate (hdiv : div.Positive) (p : KPacket) (n : ℕ) :
    (List.replicate n p).foldl (longShortStep div) {} = { rawBurst := List.replicate n p } := by
  have hinterval := hdiv.one_le_interval
  have hduration := hdiv.one_le_duration
  have hloop : ∀ k, (List.replicate n p).foldl (longShortStep div)
      { rawBurst := List.replicate k p } = { rawBurst := List.replicate (k + n) p } := by
    induction n with
    | zero => exact fun _ => rfl
    | succ n ih =>
      intro k
      have hgap : ¬ floorDiff (List.replicate k p) p ≥ div.interval := by
        cases k with
        | zero => simpa [floorDiff] using by omega
        | succ k => simpa [floorDiff, List.getLast?_replicate, floorDuration_self] using by omega
      have hlong : isOverlong div (List.replicate k p) = false := by
        cases k with
        | zero => rfl
        | succ k =>
          simpa [isOverlong, List.getLast?_replicate, List.head?_replicate, floorDuration_self]
            using by omega
      have hstep : longShortStep div { rawBurst := List.replicate k p } p =
          { rawBurst := List.replicate (k + 1) p } := by
        rw [longShortStep, if_neg hgap, hlong, if_neg Bool.false_ne_true, List.replicate_succ']
      rw [List.replicate_succ, List.foldl_cons, hstep, ih (k + 1), Nat.add_assoc, Nat.add_comm 1]
  have h := hloop 0
  rwa [Nat.zero_add] at h

/-- Equal packets are one raw burst. -/
theorem longShortSplit_replicate (hdiv : div.Positive) (p : KPacket) (n : ℕ) :
    longShortSplit div (List.replicate n p) = { shortBurstVec := [List.replicate n p] } := by
  rw [longShortSplit, foldl_longShortStep_replicate hdiv p n]
  rfl

/-- One more packet of the same signature. -/
theorem putInto_repeated (device : KDevice) (p : KPacket) (n : ℕ) :
    putInto p (repeated device p (n + 1)) = repeated device p (n + 2) := by
  have hbump : Tally.bumpWithin 1 p.signedLen [(p.signedLen, n + 1)] =
      some [(p.signedLen, n + 2)] := by
    simp [Tally.bumpWithin, Tally.bump]
  have hone : (1 : UInt8).toNat = 1 := rfl
  rw [putInto, Burst.addPacket, Burst.addSig, Burst.piggyBack, repeated, hone, hbump]
  rfl

/-- The loop after the first of some equal packets. -/
theorem strictStep_repeated (hdiv : div.Positive) (huni : 2 ≤ div.burstMaxUnisig.toNat)
    (p : KPacket) (n : ℕ) :
    strictStep div device ⟨[], repeated device p (n + 1), 0, 0⟩ p =
      ⟨[], repeated device p (n + 2), 0, 0⟩ := by
  have hinterval := hdiv.one_le_interval
  have hduration := hdiv.one_le_duration
  have hstamped : (⟨[], repeated device p (n + 1), 0, 0⟩ : StrictState).stamped p =
      repeated device p (n + 1) := by
    rw [StrictState.stamped]
    split_ifs <;> rfl
  have hobserve : (⟨[], repeated device p (n + 1), 0, 0⟩ : StrictState).observe p =
      ⟨[], repeated device p (n + 1), 0, 0⟩ := by
    -- the differences are 0, measured or kept
    rw [StrictState.observe, hstamped]
    split_ifs
    · simp [repeated, floorDuration_self]
    · rfl
  have hcuts : (⟨[], repeated device p (n + 1), 0, 0⟩ : StrictState).cuts div = false := by
    have hroom : ¬ (1 : UInt8) ≥ div.burstMaxUnisig := by
      rw [ge_iff_le, UInt8.le_iff_toNat_le]
      show ¬ div.burstMaxUnisig.toNat ≤ 1
      omega
    simp only [StrictState.cuts, repeated, Bool.or_eq_false_iff]
    exact ⟨⟨decide_eq_false hroom, decide_eq_false (by omega)⟩, decide_eq_false (by omega)⟩
  rw [strictStep, hobserve, hcuts, if_neg Bool.false_ne_true]
  exact congrArg (fun b => (⟨[], b, 0, 0⟩ : StrictState)) (putInto_repeated device p n)

/-- The loop of `StrictToBursts` counts equal packets in one burst. -/
theorem foldl_strictStep_replicate (hdiv : div.Positive) (huni : 2 ≤ div.burstMaxUnisig.toNat)
    (p : KPacket) (n : ℕ) :
    (List.replicate (n + 1) p).foldl (strictStep div device) (.init device) =
      ⟨[], repeated device p (n + 1), 0, 0⟩ := by
  induction n with
  | zero =>
    have hcuts := not_cuts_of_fresh hdiv p (s := .init device) rfl rfl rfl
    show strictStep div device (.init device) p = _
    rw [strictStep, hcuts, if_neg Bool.false_ne_true]
    rfl
  | succ n ih =>
    rw [List.replicate_succ', List.foldl_append, ih]
    exact strictStep_repeated hdiv huni p n

/-- **Equal packets are one burst**, however many they are. -/
theorem deviceBurstGenerator_replicate (hdiv : div.Positive)
    (huni : 2 ≤ div.burstMaxUnisig.toNat) (p : KPacket) (n : ℕ) :
    deviceBurstGenerator lib div device (List.replicate (n + 1) p) =
      [repeated device p (n + 1)] := by
  have hunsorted : unsortedBurstVec lib div device (List.replicate (n + 1) p) =
      [repeated device p (n + 1)] := by
    rw [unsortedBurstVec, longShortSplit_replicate hdiv]
    dsimp only
    rw [makeNormalBurstVec, List.flatMap_singleton, strictToBursts,
      foldl_strictStep_replicate hdiv huni, makeLongBurstVec]
    show _ ++ (lib.iterate (∅ : FlowMap)).flatMap _ = _
    rw [lib.iterate_empty]
    rfl
  have hsort : lib.sort Burst.earlierThan [repeated device p (n + 1)] =
      [repeated device p (n + 1)] :=
    List.perm_singleton.mp (lib.sort_perm Burst.strictWeak_earlierThan _)
  have hdetail : lib.sort sigEarlier [(p.signedLen, n + 1)] = [(p.signedLen, n + 1)] :=
    List.perm_singleton.mp (lib.sort_perm strictWeak_sigEarlier _)
  rw [deviceBurstGenerator, hunsorted, sortInOrder, hsort, List.map_singleton, sortDetail]
  show [{ repeated device p (n + 1) with
    packetDetail := lib.sort sigEarlier [(p.signedLen, n + 1)] }] = _
  rw [hdetail]
  rfl

/-- A packet of 60 bytes. -/
def floodPacket : KPacket := ⟨0, 60, 7, ⟨1, 0⟩⟩

/-- As many packets as an `int` cannot count. -/
def flood : List KPacket := List.replicate 2147483648 floodPacket

theorem flood_ne_nil : flood ≠ [] :=
  List.ne_nil_of_length_pos (by rw [flood, List.length_replicate]; exact Nat.succ_pos _)

theorem deviceBurstGenerator_flood (lib : StdLib) (device : KDevice) :
    deviceBurstGenerator lib {} device flood = [repeated device floodPacket 2147483648] :=
  deviceBurstGenerator_replicate (by decide) (by decide) floodPacket 2147483647

end Division
end BurstIoT
