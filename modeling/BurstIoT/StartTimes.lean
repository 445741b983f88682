import BurstIoT.Stamps

/-!
# When the stamps of bursts are right

`generatorTrace` is the generator with the packets of every burst recorded.  `StampsExact` is what
the stamps are for: the first and the last stamp are those of the first and the last packet put into
the burst, so the stamps are in order and the bursts are listed by their real start times.

`stampsExact_iff` says when this holds, by a condition on the packets (`StampSafe`): divide every
raw run by the intended rule; each packet that opens a run other than the first must be followed by
one with the same time stamp.  A single cut at a packet with a later successor, or with none, is
enough to break it: with the default limits, a device that sends one packet a second breaks it at
its sixteenth packet (`not_stampsExact_heartbeats`).
-/

namespace BurstIoT
namespace Division

open DeviceBurstGenerator

variable {lib : StdLib} {div : DivisionParam} {device : KDevice}

/-! ## The two rules agree where packets are repeated -/

/-- Two rules that agree on the first run, and on later runs whose second packet repeats the stamp
of the first, give the same runs if these turn out to repeat it. -/
theorem runsFrom_eq_of_repeated {c c' : List (Run KPacket) → List KPacket → KPacket → Bool}
    (hagree : ∀ closed run p,
      closed = [] ∨ (∃ a b rest, run ++ [p] = a :: b :: rest ∧ b.timestamp = a.timestamp) →
        c closed run p = c' closed run p) :
    ∀ (l : List KPacket) (closed : List (Run KPacket)) (run : List KPacket),
      (closed ≠ [] → run ≠ []) → (∀ r ∈ (Run.runsFrom c closed run l).tail, Repeated r) →
        Run.runsFrom c closed run l = Run.runsFrom c' closed run l
  | [], _, _, _, _ => rfl
  | p :: l, closed, run, hne, hrep => by
    have hsame : c closed run p = c' closed run p := by
      refine hagree closed run p ?_
      cases closed with
      | nil => exact Or.inl rfl
      | cons d ds =>
        refine Or.inr ?_
        obtain ⟨r, later, heq, hpre, -⟩ := Run.exists_runsFrom_eq c (p :: l) (d :: ds) run
        rw [heq] at hrep
        obtain ⟨a, b, ha, hb, hab⟩ := hrep r (by simp)
        obtain ⟨t, ht⟩ := hpre
        obtain ⟨x, xs, hrun⟩ := List.exists_cons_of_ne_nil (hne (List.cons_ne_nil d ds))
        obtain ⟨y, ys, hys⟩ := List.exists_cons_of_ne_nil
          (show xs ++ [p] ≠ [] by simp)
        have hwith : withNext r = x :: y :: (ys ++ t) := by
          rw [withNext, ← ht, hrun, List.take_succ_cons, List.take_zero, List.cons_append, hys]
          rfl
        rw [hwith] at ha hb
        obtain rfl : x = a := by simpa using ha
        obtain rfl : y = b := by simpa using hb
        exact ⟨x, y, ys, by rw [hrun, List.cons_append, hys], hab⟩
    rw [Run.runsFrom] at hrep ⊢
    rw [Run.runsFrom, ← hsame]
    split_ifs with hc
    · rw [if_pos hc] at hrep
      exact runsFrom_eq_of_repeated hagree l _ _ (fun _ => List.cons_ne_nil p []) hrep
    · rw [if_neg hc] at hrep
      exact runsFrom_eq_of_repeated hagree l _ _ (fun _ => by simp) hrep

variable (div) in
theorem loopCut_eq_intendedCut (closed : List (Run KPacket)) (run : List KPacket) (p : KPacket)
    (h : closed = [] ∨
      ∃ a b rest, run ++ [p] = a :: b :: rest ∧ b.timestamp = a.timestamp) :
    loopCut div closed run p = intendedCut div closed run p := by
  rw [loopCut, intendedCut]
  cases run with
  | nil => rfl
  | cons a run =>
    rw [if_neg (List.cons_ne_nil a run)]
    rcases h with rfl | ⟨x, y, rest, hxy, hstamp⟩
    · rfl
    · obtain ⟨rfl, hrest⟩ := List.cons.inj hxy
      cases closed with
      | nil => rfl
      | cons d ds =>
        have hcons : a :: run ++ [p] = a :: y :: rest := by rw [← hrest]; rfl
        rw [hcons]
        show limits div (some y.timestamp) (a :: run) p = _
        rw [hstamp]
        rfl

/-- **The loop divides as intended, and every later run starts with a repeated stamp, or neither
rule gives such a division.** -/
theorem repeated_loopCut_iff (raw : List KPacket) :
    (∀ r ∈ (Run.runs (loopCut div) raw).tail, Repeated r) ↔
      ∀ r ∈ (Run.runs (intendedCut div) raw).tail, Repeated r := by
  constructor
  · intro h
    have heq := runsFrom_eq_of_repeated (loopCut_eq_intendedCut div) raw [] []
      (fun hne => absurd rfl hne) h
    rw [Run.runs, ← heq]
    exact h
  · intro h
    have heq := runsFrom_eq_of_repeated
      (fun closed run p hp => (loopCut_eq_intendedCut div closed run p hp).symm) raw [] []
      (fun hne => absurd rfl hne) h
    rw [Run.runs, ← heq]
    exact h

/-! ## One raw run -/

/-- The first burst is always stamped from its first packet. -/
theorem Stamped.exact {e : Burst × Run KPacket} (h : Stamped true e) :
    e.2.items.head?.map KPacket.timestamp = some e.1.firstPacketStamp := by
  obtain ⟨p, items, hitems⟩ := List.exists_cons_of_ne_nil h.ne_nil
  rw [h.first_eq, takenStart, withNext, hitems]
  rfl

/-- A later burst is stamped from its first packet exactly when the next one repeats the stamp. -/
theorem Stamped.exact_iff {e : Burst × Run KPacket} (h : Stamped false e)
    (hsec : ∀ p ∈ e.2.items, 1 ≤ p.timestamp.tvSec) :
    e.2.items.head?.map KPacket.timestamp = some e.1.firstPacketStamp ↔ Repeated e.2 := by
  obtain ⟨p, items, hitems⟩ := List.exists_cons_of_ne_nil h.ne_nil
  have hp : 1 ≤ p.timestamp.tvSec := hsec p (by rw [hitems]; exact List.mem_cons_self)
  have hwith : withNext e.2 = p :: (items ++ e.2.next.toList) := by
    rw [withNext, hitems]
    rfl
  rw [h.first_eq, takenStart, Repeated, hwith, hitems]
  cases items ++ e.2.next.toList with
  | nil =>
    constructor
    · intro hz
      have hzero : p.timestamp = .zero := Option.some_inj.mp hz
      rw [hzero] at hp
      exact absurd hp (by decide)
    · rintro ⟨_, _, -, hq, -⟩
      cases hq
  | cons q rest =>
    constructor
    · intro hpq
      exact ⟨p, q, rfl, rfl, (Option.some_inj.mp hpq).symm⟩
    · rintro ⟨p', q', hp', hq', hpq⟩
      obtain rfl : p = p' := Option.some_inj.mp hp'
      obtain rfl : q = q' := Option.some_inj.mp hq'
      exact congrArg some hpq.symm

theorem mem_items_of_mem_strictTrace (hdiv : div.Positive) {raw : List KPacket} (hne : raw ≠ [])
    (hsec : ∀ p ∈ raw, 1 ≤ p.timestamp.tvSec) {e : Burst × Run KPacket}
    (he : e ∈ strictTrace div device raw) : e.2.items <:+: raw := by
  show e.2.items <:+: raw
  refine Run.infix_of_mem_runs (loopCut div) ?_
  rw [← (strictTrace_spec device hdiv hne hsec).1]
  exact List.mem_map_of_mem he

theorem mem_strictTrace_cases (hdiv : div.Positive) {raw : List KPacket} (hne : raw ≠ [])
    (hsec : ∀ p ∈ raw, 1 ≤ p.timestamp.tvSec) {e : Burst × Run KPacket}
    (he : e ∈ strictTrace div device raw) :
    Stamped true e ∨ Stamped false e ∧ e.2 ∈ (Run.runs (loopCut div) raw).tail := by
  obtain ⟨hruns, hhead, htail⟩ := strictTrace_spec device hdiv hne hsec
  cases htr : strictTrace div device raw with
  | nil =>
    rw [htr] at he
    cases he
  | cons d ds =>
    rw [htr] at he hruns hhead htail
    rcases List.mem_cons.mp he with rfl | he
    · exact Or.inl (hhead e rfl)
    · refine Or.inr ⟨htail e he, ?_⟩
      rw [← hruns]
      exact List.mem_map_of_mem he

variable (device) in
/-- **The first stamps of a raw run** are right exactly when, in its intended division, every packet
that opens a later run is followed by one with the same stamp. -/
theorem first_exact_iff (hdiv : div.Positive) {raw : List KPacket} (hne : raw ≠ [])
    (hsec : ∀ p ∈ raw, 1 ≤ p.timestamp.tvSec) :
    (∀ e ∈ strictTrace div device raw,
      e.2.items.head?.map KPacket.timestamp = some e.1.firstPacketStamp) ↔
      ∀ r ∈ (Run.runs (intendedCut div) raw).tail, Repeated r := by
  rw [← repeated_loopCut_iff]
  obtain ⟨hruns, hhead, htail⟩ := strictTrace_spec device hdiv hne hsec
  have hitems : ∀ e ∈ strictTrace div device raw, ∀ p ∈ e.2.items, 1 ≤ p.timestamp.tvSec :=
    fun e he p hp => hsec p ((mem_items_of_mem_strictTrace hdiv hne hsec he).subset hp)
  constructor
  · intro h r hr
    rw [← hruns, ← List.map_tail] at hr
    obtain ⟨e, he, rfl⟩ := List.mem_map.mp hr
    have hmem := List.mem_of_mem_tail he
    exact ((htail e he).exact_iff (hitems e hmem)).mp (h e hmem)
  · intro h e he
    rcases mem_strictTrace_cases hdiv hne hsec he with hst | ⟨hst, hmem⟩
    · exact hst.exact
    · exact (hst.exact_iff (hitems e he)).mpr (h _ hmem)

/-! ## The generator with its packets recorded -/

/-- `m_burstVec` before the sort, with the packets of every burst. -/
def unsortedTrace (lib : StdLib) (div : DivisionParam) (device : KDevice) (l : List KPacket) :
    List (Burst × Run KPacket) :=
  (longShortSplit div l).shortBurstVec.flatMap (strictTrace div device) ++
    (lib.iterate (separateBy5Tuple (longShortSplit div l).longBurstVec)).flatMap
      fun e => strictTrace div device e.2

/-- `GetBurstVec`, with the packets of every burst. -/
def generatorTrace (lib : StdLib) (div : DivisionParam) (device : KDevice) (l : List KPacket) :
    List (Burst × Run KPacket) :=
  (lib.sort (fun a b => a.1.earlierThan b.1) (unsortedTrace lib div device l)).map
    fun e => (sortDetail lib e.1, e.2)

theorem map_fst_unsortedTrace (l : List KPacket) :
    (unsortedTrace lib div device l).map Prod.fst = unsortedBurstVec lib div device l := by
  rw [unsortedTrace, unsortedBurstVec, makeNormalBurstVec, makeLongBurstVec, List.map_append,
    List.map_flatMap, List.map_flatMap]
  simp only [map_fst_strictTrace]

/-- **Recording the packets changes nothing in `GetBurstVec`.** -/
theorem map_fst_generatorTrace (l : List KPacket) :
    (generatorTrace lib div device l).map Prod.fst = deviceBurstGenerator lib div device l := by
  rw [deviceBurstGenerator, sortInOrder, ← map_fst_unsortedTrace, ← lib.sort_map, List.map_map,
    generatorTrace, List.map_map]
  rfl

theorem strictWeak_traceEarlier :
    StrictWeak fun a b : Burst × Run KPacket => a.1.earlierThan b.1 :=
  Burst.strictWeak_earlierThan.comap Prod.fst

theorem mem_generatorTrace {l : List KPacket} {e : Burst × Run KPacket} :
    e ∈ generatorTrace lib div device l ↔
      ∃ raw, IsRawRun div l raw ∧
        ∃ d ∈ strictTrace div device raw, (sortDetail lib d.1, d.2) = e := by
  rw [generatorTrace, List.mem_map]
  simp only [lib.mem_sort strictWeak_traceEarlier, unsortedTrace, List.mem_append,
    List.mem_flatMap, (longShortSplit_eq l).1]
  constructor
  · rintro ⟨d, ⟨raw, hraw, hd⟩ | ⟨⟨key, raw⟩, hraw, hd⟩, rfl⟩
    · exact ⟨raw, .short hraw, d, hd, rfl⟩
    · obtain ⟨hne, rfl⟩ := mem_iterate_flows.mp hraw
      exact ⟨_, .flow key hne, d, hd, rfl⟩
  · rintro ⟨raw, hraw, d, hd, rfl⟩
    cases hraw with
    | short hmem => exact ⟨d, Or.inl ⟨raw, hmem, hd⟩, rfl⟩
    | flow key hne => exact ⟨d, Or.inr ⟨(key, _), mem_iterate_flows.mpr ⟨hne, rfl⟩, hd⟩, rfl⟩

/-! ## The stamps of the generator -/

/-- What the stamps are for. -/
structure StampsExact (tr : List (Burst × Run KPacket)) : Prop where
  first : ∀ e ∈ tr, e.2.items.head?.map KPacket.timestamp = some e.1.firstPacketStamp
  last : ∀ e ∈ tr, e.2.items.getLast?.map KPacket.timestamp = some e.1.lastPacketStamp
  ordered : ∀ e ∈ tr, e.1.firstPacketStamp ≤ e.1.lastPacketStamp
  sorted : tr.Pairwise fun e e' =>
    ∀ p ∈ e.2.items.head?, ∀ q ∈ e'.2.items.head?, p.timestamp ≤ q.timestamp

/-- In the intended division of every raw run, each packet that opens a run other than the first is
followed by a packet with the same time stamp. -/
def StampSafe (div : DivisionParam) (l : List KPacket) : Prop :=
  ∀ raw, IsRawRun div l raw → ∀ r ∈ (Run.runs (intendedCut div) raw).tail, Repeated r

/-- In a time-ordered list the first packet is not later than the last. -/
theorem head_le_getLast {l : List KPacket} (h : TimeOrdered l) {p q : KPacket}
    (hp : l.head? = some p) (hq : l.getLast? = some q) : p.timestamp ≤ q.timestamp := by
  cases l with
  | nil => cases hp
  | cons a l =>
    obtain rfl : a = p := by simpa using hp
    have hmem : q ∈ a :: l := List.mem_of_getLast? hq
    rcases List.mem_cons.mp hmem with rfl | hmem
    · exact le_rfl
    · exact (List.pairwise_cons.mp h).1 q hmem

/-- Right first stamps make the order of the bursts right. -/
theorem sorted_of_first {l : List KPacket}
    (hfirst : ∀ e ∈ generatorTrace lib div device l,
      e.2.items.head?.map KPacket.timestamp = some e.1.firstPacketStamp) :
    (generatorTrace lib div device l).Pairwise fun e e' =>
      ∀ p ∈ e.2.items.head?, ∀ q ∈ e'.2.items.head?, p.timestamp ≤ q.timestamp := by
  have hsort : (generatorTrace lib div device l).Pairwise fun e e' =>
      e.1.firstPacketStamp ≤ e'.1.firstPacketStamp := by
    rw [generatorTrace, List.pairwise_map]
    refine (lib.sort_pairwise strictWeak_traceEarlier _).imp ?_
    intro e e' h
    exact Timespec.earlier_eq_false_iff.mp h
  refine hsort.imp_of_mem ?_
  intro e e' he he' hle p hp q hq
  have h1 := hfirst e he
  have h2 := hfirst e' he'
  rw [Option.mem_def.mp hp, Option.map_some, Option.some_inj] at h1
  rw [Option.mem_def.mp hq, Option.map_some, Option.some_inj] at h2
  rw [h1, h2]
  exact hle

end Division

open Division DeviceBurstGenerator in
/-- **The stamps of the generator are exact if and only if no packet opens a later run of a raw run
unrepeated.**  The bursts are those `GetBurstVec` returns, each with the packets put into it. -/
theorem stampsExact_iff (lib : StdLib) (div : DivisionParam) (device : KDevice)
    (l : List KPacket) (hdiv : div.Positive) (hne : l ≠ []) (hord : TimeOrdered l)
    (hsec : ∀ p ∈ l, 1 ≤ p.timestamp.tvSec) :
    (generatorTrace lib div device l).map Prod.fst = deviceBurstGenerator lib div device l ∧
      (StampsExact (generatorTrace lib div device l) ↔ StampSafe div l) := by
  have hrawsec : ∀ raw, IsRawRun div l raw → ∀ p ∈ raw, 1 ≤ p.timestamp.tvSec :=
    fun raw hraw p hp => hsec p (hraw.subset hp)
  refine ⟨map_fst_generatorTrace l, ?_⟩
  constructor
  · intro h raw hraw
    refine (first_exact_iff device hdiv (hraw.ne_nil hdiv hne) (hrawsec raw hraw)).mp ?_
    intro d hd
    exact h.first (sortDetail lib d.1, d.2) (mem_generatorTrace.mpr ⟨raw, hraw, d, hd, rfl⟩)
  · intro h
    have hfirst : ∀ e ∈ generatorTrace lib div device l,
        e.2.items.head?.map KPacket.timestamp = some e.1.firstPacketStamp := by
      intro e he
      obtain ⟨raw, hraw, d, hd, rfl⟩ := mem_generatorTrace.mp he
      exact (first_exact_iff device hdiv (hraw.ne_nil hdiv hne) (hrawsec raw hraw)).mpr
        (h raw hraw) d hd
    have hlast : ∀ e ∈ generatorTrace lib div device l,
        e.2.items.getLast?.map KPacket.timestamp = some e.1.lastPacketStamp := by
      intro e he
      obtain ⟨raw, hraw, d, hd, rfl⟩ := mem_generatorTrace.mp he
      rcases mem_strictTrace_cases hdiv (hraw.ne_nil hdiv hne) (hrawsec raw hraw) hd
        with hst | ⟨hst, -⟩
      · exact hst.last_eq
      · exact hst.last_eq
    refine ⟨hfirst, hlast, ?_, sorted_of_first hfirst⟩
    intro e he
    have hfe := hfirst e he
    have hle := hlast e he
    obtain ⟨raw, hraw, d, hd, rfl⟩ := mem_generatorTrace.mp he
    have hitems : TimeOrdered d.2.items :=
      List.Pairwise.sublist (mem_items_of_mem_strictTrace hdiv (hraw.ne_nil hdiv hne)
        (hrawsec raw hraw) hd).sublist (hraw.timeOrdered hord)
    obtain ⟨p, hp, hpe⟩ := Option.map_eq_some_iff.mp hfe
    obtain ⟨q, hq, hqe⟩ := Option.map_eq_some_iff.mp hle
    rw [← hpe, ← hqe]
    exact head_le_getLast hitems hp hq

/-! ## A packet a second -/

/-- A device. -/
def camera : KDevice where
  mappingIP := false
  devId := 0
  instanceName := "camera"
  typeLabel := "camera"
  mac := "00:00:00:00:00:01"
  ipaddr := "10.0.0.1"

/-- Packets of one flow and one signature, one in each of `n` seconds. -/
def heartbeats (start : ℤ) (n : ℕ) : List KPacket :=
  (List.range n).map fun i : ℕ => ⟨0, 60, 7, ⟨start + i, 0⟩⟩

theorem timeOrdered_heartbeats (start : ℤ) (n : ℕ) : TimeOrdered (heartbeats start n) := by
  rw [heartbeats, TimeOrdered, List.pairwise_map]
  refine List.pairwise_lt_range.imp ?_
  intro i j hij
  rw [Timespec.le_def]
  exact Or.inl (show start + (i : ℤ) < start + j by omega)

theorem heartbeats_ne_nil (start : ℤ) {n : ℕ} (hn : 0 < n) : heartbeats start n ≠ [] := by
  rw [heartbeats, ne_eq, List.map_eq_nil_iff, List.range_eq_nil]
  omega

/-- Sixteen heartbeats and a seventeenth with the stamp of the sixteenth: the limit on the duration
cuts before the two last ones, and the burst of these is stamped from the second of them. -/
theorem stampsExact_iff_heartbeats :
    let l := heartbeats 1 16 ++ heartbeats 16 1
    (Division.generatorTrace .insertion {} camera l).map Prod.fst =
        deviceBurstGenerator .insertion {} camera l ∧
      (Division.generatorTrace .insertion {} camera l).map (fun e => e.2.items.length) = [15, 2] ∧
      Division.StampSafe {} l := by
  intro l
  have hord : TimeOrdered l := by
    rw [TimeOrdered]
    decide
  obtain ⟨hbursts, hiff⟩ := stampsExact_iff .insertion {} camera l (by decide) (by decide) hord
    (by decide)
  refine ⟨hbursts, by decide +kernel, hiff.mp ⟨?_, ?_, ?_, ?_⟩⟩ <;> decide +kernel

/-- **The sixteenth heartbeat is cut off, and its burst keeps the stamp `{0, 0}`**, which also puts
it before the burst of the first fifteen. -/
theorem not_stampsExact_heartbeats :
    heartbeats 1 16 ≠ [] ∧ TimeOrdered (heartbeats 1 16) ∧
      (∀ p ∈ heartbeats 1 16, 1 ≤ p.timestamp.tvSec ∧ p.timestamp.tvSec / 1800 = 0) ∧
      ({} : DivisionParam).Positive ∧
      (deviceBurstGenerator .insertion {} camera (heartbeats 1 16)).map
          (fun b => (b.firstPacketStamp, b.lastPacketStamp)) =
        [(⟨0, 0⟩, ⟨16, 0⟩), (⟨1, 0⟩, ⟨15, 0⟩)] ∧
      ¬ Division.StampsExact
        (Division.generatorTrace .insertion {} camera (heartbeats 1 16)) := by
  refine ⟨heartbeats_ne_nil 1 (by decide), timeOrdered_heartbeats 1 16, by decide, by decide,
    by decide +kernel, ?_⟩
  intro h
  have hwrong : ∃ e ∈ Division.generatorTrace .insertion {} camera (heartbeats 1 16),
      e.2.items.head?.map KPacket.timestamp ≠ some e.1.firstPacketStamp := by
    decide +kernel
  obtain ⟨e, he, hne⟩ := hwrong
  exact hne (h.first e he)

end BurstIoT
