import Mathlib.Algebra.Order.Group.Unbundled.Int
import Mathlib.Data.List.Chain
import BurstIoT.StartTimes

/-!
# What the limits bound

`generatorTrace` records the packets that each burst holds.  `WithinLimits` says what the limits on
gaps and on signatures promise of them: they are a contiguous part of one short raw burst or of one
flow, neighbours are less than `BURST_MAX_INTERVAL` seconds apart, and no more than
`BURST_MAX_UNISIG` signatures occur.  This needs nothing of the stamps: a burst remembers its last
packet rightly even where its first stamp is wrong, so the invariant (`LimitInv`) does not speak of
the start.

**Gaps.**  A short raw burst has no gap, however it is divided.  In a flow the gap before a packet
is looked at while `pktNum` is positive, and so it is unless the burst has counted `2 ^ 31` packets:
`not_withinLimits_flood` is a burst of more, with a gap.

**Duration.**  The limit on the duration does depend on the start.  The loop measures a later burst
from its second packet, so the burst may last longer than `BURST_MAX_DURATION` by the gap after its
first packet.  `brief_runsFrom_iff` says when it does not: divided with the duration always measured
from the first packet (`briefCut`), wherever a run is cut, the loop would cut as well (`CutByLoop`).
-/

namespace BurstIoT
namespace Division

open DeviceBurstGenerator

variable {lib : StdLib} {div : DivisionParam} {device : KDevice}

/-! ## Gaps and variety in one raw run -/

/-- Neighbours are less than `BURST_MAX_INTERVAL` seconds apart, as far as the number of the packets
before the later one, as an `int`, is positive. -/
def Spaced (div : DivisionParam) (items : List KPacket) : Prop :=
  ∀ before p q after, items = before ++ p :: q :: after → toInt (before.length + 1) > 0 →
    floorDuration q.timestamp p.timestamp < div.interval

theorem spaced_singleton (p : KPacket) : Spaced div [p] := by
  intro before a b after h
  have hlen := congrArg List.length h
  simp at hlen
  omega

theorem Spaced.concat {run : List KPacket} {p : KPacket} (h : Spaced div run)
    (hp : toInt run.length > 0 →
      ∀ q ∈ run.getLast?, floorDuration p.timestamp q.timestamp < div.interval) :
    Spaced div (run ++ [p]) := by
  intro before a b after heq hcount
  rcases List.eq_nil_or_concat after with rfl | ⟨after, c, rfl⟩
  · have heq' : run ++ [p] = before ++ [a] ++ [b] := by simpa using heq
    obtain ⟨rfl, hb⟩ := List.append_inj' heq' rfl
    obtain rfl : p = b := by simpa using hb
    refine hp ?_ a List.getLast?_concat
    rwa [List.length_append, List.length_singleton]
  · have heq' : run ++ [p] = before ++ a :: b :: after ++ [c] := by simpa using heq
    exact h before a b after (List.append_inj' heq' rfl).1 hcount

/-- A recorded burst counts the signatures of its packets, which obey the limits on gaps and on
signatures. -/
structure Limited (div : DivisionParam) (e : Burst × Run KPacket) : Prop where
  sigs_eq : e.1.sigs = packetSigs e.2.items
  near : Spaced div e.2.items
  variety : (packetSigs e.2.items).toFinset.card ≤ div.burstMaxUnisig.toNat

/-- The state of the recorded loop after it has read `seen`. -/
structure LimitInv (div : DivisionParam) (seen : List KPacket) (t : Traced) : Prop where
  spelled : t.done.flatMap (fun e => e.2.items) ++ t.run = seen
  closed : ∀ e ∈ t.done, Limited div e
  opened : Limited div (t.state.burst, ⟨t.run, none⟩)
  wellFormed : t.state.burst.WellFormed
  last_eq : ∀ p ∈ t.run.getLast?, t.state.burst.lastPacketStamp = p.timestamp

namespace LimitInv

variable {seen : List KPacket} {t : Traced}

theorem init (div : DivisionParam) (device : KDevice) : LimitInv div [] (.init device) where
  spelled := rfl
  closed := fun _ he => absurd he List.not_mem_nil
  opened := ⟨rfl, fun _ _ _ _ h => absurd h (by simp [Traced.init]), Nat.zero_le _⟩
  wellFormed := .ofDevice device
  last_eq := fun _ hp => absurd hp (by simp [Traced.init])

/-- The burst the loop closes is the open one, up to its first stamp. -/
theorem limited_observe (h : LimitInv div seen t) (p : KPacket) :
    Limited div ((t.state.observe p).burst, ⟨t.run, some p⟩) where
  sigs_eq := by
    rw [sigs_observe]
    exact h.opened.sigs_eq
  near := h.opened.near
  variety := h.opened.variety

/-- **Closing a burst** keeps the invariant: one packet makes no gap and one signature. -/
theorem cut (hdiv : div.Positive) (h : LimitInv div seen t) {p : KPacket}
    (hc : (t.state.observe p).cuts div = true) :
    LimitInv div (seen ++ [p]) (tracedStep div device t p) := by
  rcases tracedStep_cases div device t p with ⟨-, heq⟩ | ⟨hc', -⟩
  · rcases strictStep_cases div device t.state p with ⟨-, -, hb⟩ | ⟨hc', -, -⟩
    · have hroom : (Burst.ofDevice device).uniPktNum.toNat < 255 := by
        show (0 : ℕ) < 255
        omega
      rw [heq]
      refine ⟨?_, ?_, ⟨?_, spaced_singleton p, ?_⟩, ?_, ?_⟩
      · rw [← h.spelled, List.flatMap_append, List.flatMap_singleton, List.append_assoc]
      · intro e he
        rcases List.mem_append.mp he with he | he
        · exact h.closed e he
        · rw [List.mem_singleton.mp he]
          exact h.limited_observe p
      · show (strictStep div device t.state p).burst.sigs = _
        rw [hb, sigs_putInto]
        rfl
      · show (packetSigs [p]).toFinset.card ≤ _
        exact hdiv.unisig
      · show (strictStep div device t.state p).burst.WellFormed
        rw [hb]
        exact (Burst.WellFormed.ofDevice device).addSig hroom _ |>.setLastPacketStamp p
      · intro q hq
        obtain rfl : p = q := by simpa using hq
        show (strictStep div device t.state p).burst.lastPacketStamp = _
        rw [hb]
        rfl
    · rw [hc] at hc'
      cases hc'
  · rw [hc] at hc'
    cases hc'

/-- What the test that lets a packet in has found: room for a signature, and no gap, if it has
looked for one. -/
theorem of_not_cuts (h : LimitInv div seen t) {p : KPacket}
    (hc : (t.state.observe p).cuts div = false) :
    (packetSigs t.run).toFinset.card < div.burstMaxUnisig.toNat ∧
      (toInt t.run.length > 0 →
        ∀ q ∈ t.run.getLast?, floorDuration p.timestamp q.timestamp < div.interval) := by
  have huni : (t.state.observe p).burst.uniPktNum.toNat = (packetSigs t.run).toFinset.card := by
    rw [uniPktNum_observe, h.wellFormed.uniPktNum_eq_card, h.opened.sigs_eq]
  refine ⟨?_, fun hcount q hq => ?_⟩
  · rw [← huni]
    exact room_of_not_cuts hc
  · have hpkt : (t.state.stamped p).intPktNum > 0 := by
      rwa [intPktNum_stamped, Burst.intPktNum, ← h.wellFormed.card_sigs, h.opened.sigs_eq,
        packetSigs, Multiset.coe_card, List.length_map]
    have hnear : (t.state.observe p).nearDiff = floorDuration p.timestamp q.timestamp := by
      rw [StrictState.observe, if_pos hpkt]
      dsimp only
      rw [TraceInv.last_stamped, h.last_eq q hq]
    simp only [StrictState.cuts, Bool.or_eq_false_iff, decide_eq_false_iff_not] at hc
    have := hc.1.2
    omega

/-- **Extending a burst** keeps the invariant: the test has looked at the gap before the packet and
left room for its signature. -/
theorem extend (h : LimitInv div seen t) {p : KPacket}
    (hc : (t.state.observe p).cuts div = false) :
    LimitInv div (seen ++ [p]) (tracedStep div device t p) := by
  rcases tracedStep_cases div device t p with ⟨hc', -⟩ | ⟨-, heq⟩
  · rw [hc] at hc'
    cases hc'
  · rcases strictStep_cases div device t.state p with ⟨hc', -, -⟩ | ⟨-, -, hb⟩
    · rw [hc] at hc'
      cases hc'
    · obtain ⟨hroom, hgap⟩ := h.of_not_cuts hc
      have hroom' := room_of_not_cuts hc
      have hmax : div.burstMaxUnisig.toNat < 256 := div.burstMaxUnisig.toNat_lt
      rw [heq]
      refine ⟨?_, h.closed, ⟨?_, h.opened.near.concat hgap, ?_⟩, ?_, ?_⟩
      · rw [← h.spelled, List.append_assoc]
      · show (strictStep div device t.state p).burst.sigs = packetSigs (t.run ++ [p])
        rw [hb, sigs_putInto, sigs_observe, h.opened.sigs_eq, packetSigs_append, packetSigs_cons,
          packetSigs_nil, Multiset.add_cons, add_zero]
      · show (packetSigs (t.run ++ [p])).toFinset.card ≤ _
        have hcard := Finset.card_insert_le p.signedLen (packetSigs t.run).toFinset
        rw [packetSigs_append, packetSigs_cons, packetSigs_nil, Multiset.add_cons, add_zero,
          Multiset.toFinset_cons]
        omega
      · show (strictStep div device t.state p).burst.WellFormed
        rw [hb]
        exact (wellFormed_observe h.wellFormed p).addSig (by omega) _ |>.setLastPacketStamp p
      · intro q hq
        obtain rfl : p = q := by simpa using hq
        show (strictStep div device t.state p).burst.lastPacketStamp = _
        rw [hb]
        rfl

/-- The invariant of the whole loop. -/
theorem foldl (hdiv : div.Positive) (l : List KPacket) (h : LimitInv div seen t) :
    LimitInv div (seen ++ l) (l.foldl (tracedStep div device) t) := by
  induction l generalizing seen t with
  | nil => rwa [List.append_nil]
  | cons p l ih =>
    have hstep : LimitInv div (seen ++ [p]) (tracedStep div device t p) := by
      cases hc : (t.state.observe p).cuts div with
      | true => exact h.cut hdiv hc
      | false => exact h.extend hc
    rw [List.foldl_cons, show seen ++ p :: l = seen ++ [p] ++ l by simp]
    exact ih hstep

end LimitInv

/-- **The bursts of one raw run** hold contiguous parts of it, within the limits. -/
theorem limited_strictTrace (hdiv : div.Positive) (raw : List KPacket) :
    ∀ e ∈ strictTrace div device raw, Limited div e ∧ e.2.items <:+: raw := by
  have h : LimitInv div ([] ++ raw) (raw.foldl (tracedStep div device) (.init device)) :=
    (LimitInv.init div device).foldl hdiv raw
  intro e he
  rw [strictTrace, List.mem_append, List.mem_singleton] at he
  have hspelled := h.spelled
  rw [List.nil_append] at hspelled
  rcases he with he | rfl
  · refine ⟨h.closed e he, ?_⟩
    have hpart : e.2.items <:+:
        ((raw.foldl (tracedStep div device) (.init device)).done.map fun e => e.2.items).flatten :=
      List.infix_of_mem_flatten (List.mem_map_of_mem he)
    rw [← List.flatMap_def] at hpart
    exact hpart.trans ⟨[], _, by rw [List.nil_append]; exact hspelled⟩
  · exact ⟨h.opened, List.IsSuffix.isInfix ⟨_, hspelled⟩⟩

/-! ## The limits on gaps and variety, for the generator -/

/-- A short raw burst has no gap. -/
theorem isChain_of_mem_shortBurstVec {l raw : List KPacket}
    (h : raw ∈ (longShortSplit div l).shortBurstVec) :
    raw.IsChain fun p q => floorDuration q.timestamp p.timestamp < div.interval := by
  rw [(longShortSplit_eq l).1, shortRuns] at h
  obtain ⟨r, hr, rfl⟩ := List.mem_map.mp h
  have hgrown := Run.grown_of_mem_runs (List.mem_filter.mp hr).1
  refine List.isChain_iff_forall_rel_of_append_cons_cons.mpr fun p q before after heq => ?_
  obtain ⟨closed, hc⟩ := hgrown (before ++ [p]) q after
    (by rw [show r.items = _ from heq]; simp) (by simp)
  rw [rawCut, floorDiff, List.getLast?_concat, Bool.or_eq_false_iff, decide_eq_false_iff_not] at hc
  exact not_le.mp hc.1

/-- What the limits on gaps and on signatures promise of a burst and its packets: the burst counts
the signatures of the packets, the packets are a contiguous part of a short raw burst or of a flow
in time order, neighbours are less than `BURST_MAX_INTERVAL` seconds apart, to the nanosecond, and
there are no more than `BURST_MAX_UNISIG` signatures.  In a flow, the gap is looked at while the
number of the packets before it, as an `int`, is positive. -/
structure WithinLimits (div : DivisionParam) (l : List KPacket) (e : Burst × Run KPacket) :
    Prop where
  sigs_eq : e.1.sigs = packetSigs e.2.items
  contiguous : ∃ raw,
    (raw ∈ (longShortSplit div l).shortBurstVec ∨
      ∃ hash, raw = (longShortSplit div l).longBurstVec.flatten.filter (·.hash5tuple = hash)) ∧
    TimeOrdered raw ∧ e.2.items <:+: raw ∧
    ∀ before p q after, e.2.items = before ++ p :: q :: after →
      raw ∈ (longShortSplit div l).shortBurstVec ∨ toInt (before.length + 1) > 0 →
        |q.timestamp.nanos - p.timestamp.nanos| < div.interval * 1000000000
  variety : (packetSigs e.2.items).toFinset.card ≤ div.burstMaxUnisig.toNat

/-- A raw run, in terms of the two vectors and the flow hash. -/
theorem IsRawRun.source {l raw : List KPacket} (h : IsRawRun div l raw) :
    raw ∈ (longShortSplit div l).shortBurstVec ∨
      ∃ hash, raw = (longShortSplit div l).longBurstVec.flatten.filter (·.hash5tuple = hash) := by
  obtain ⟨hshort, hlong⟩ := @longShortSplit_eq div l
  rw [hshort, hlong]
  cases h with
  | short hmem => exact Or.inl hmem
  | flow key hne =>
    obtain ⟨p, hp⟩ := List.exists_mem_of_ne_nil _ hne
    obtain ⟨-, hkey⟩ := List.mem_filter.mp hp
    refine Or.inr ⟨p.hash5tuple, List.filter_congr fun q _ => ?_⟩
    rw [← of_decide_eq_true hkey]
    exact decide_eq_decide.mpr UInt32.toUInt64_inj

end Division

/-- **The limits on gaps, variety and flows.**  Every burst of the generator holds a contiguous part
of one short raw burst or of one flow, with at most `BURST_MAX_UNISIG` signatures and with
neighbours less than `BURST_MAX_INTERVAL` seconds apart: all of them in a short raw burst, and in a
flow those at which `pktNum` is positive. -/
theorem withinLimits_generatorTrace (lib : StdLib) (div : DivisionParam) (device : KDevice)
    (l : List KPacket) (hdiv : div.Positive) (hl : TimeOrdered l)
    (hnormal : ∀ p ∈ l, p.timestamp.Normal) :
    (Division.generatorTrace lib div device l).map Prod.fst =
        deviceBurstGenerator lib div device l ∧
      ∀ e ∈ Division.generatorTrace lib div device l, Division.WithinLimits div l e := by
  refine ⟨Division.map_fst_generatorTrace l, fun e he => ?_⟩
  obtain ⟨raw, hraw, d, hd, rfl⟩ := Division.mem_generatorTrace.mp he
  obtain ⟨hlimited, hpart⟩ := Division.limited_strictTrace hdiv raw d hd
  have hmem : ∀ p ∈ d.2.items, p.timestamp.Normal :=
    fun p hp => hnormal p (hraw.subset (hpart.subset hp))
  have hord : TimeOrdered d.2.items := (hraw.timeOrdered hl).sublist hpart.sublist
  refine ⟨?_, ⟨raw, hraw.source, hraw.timeOrdered hl, hpart, ?_⟩, hlimited.variety⟩
  · rw [← hlimited.sigs_eq]
    exact Tally.total_perm (lib.sort_perm DeviceBurstGenerator.strictWeak_sigEarlier _)
  · intro before p q after heq hlooked
    have hgap : floorDuration q.timestamp p.timestamp < div.interval := by
      rcases hlooked with hshort | hcount
      · obtain ⟨earlier, later, hparts⟩ := hpart
        have hchain := Division.isChain_of_mem_shortBurstVec hshort
        rw [← hparts] at hchain
        exact List.isChain_iff_forall_rel_of_append_cons_cons.mp
          hchain.left_of_append.right_of_append heq
      · exact hlimited.near before p q after heq hcount
    have hle := List.isChain_iff_forall_rel_of_append_cons_cons.mp hord.isChain heq
    have hp : p.timestamp.Normal := hmem p (by rw [show d.2.items = _ from heq]; simp)
    have hq : q.timestamp.Normal := hmem q (by rw [show d.2.items = _ from heq]; simp)
    rw [floorDuration_lt_iff hq hp] at hgap
    rw [abs_of_nonneg (sub_nonneg.mpr (Timespec.nanos_le_of_le hp hq hle))]
    exact hgap

namespace Division

open DeviceBurstGenerator

/-! ## The duration -/

/-- The time from the first to the last of the packets is less than `BURST_MAX_DURATION`, in whole
seconds. -/
def Brief (div : DivisionParam) (items : List KPacket) : Prop :=
  ∀ p ∈ items.head?, ∀ q ∈ items.getLast?, floorDuration q.timestamp p.timestamp < div.duration

/-- The rule that the limit on the duration asks for: that of the intended division, and the
duration, measured from the first packet, is looked at whatever `pktNum` is. -/
def briefCut (div : DivisionParam) (closed : List (Run KPacket)) (run : List KPacket)
    (p : KPacket) : Bool :=
  intendedCut div closed run p ||
    run.head?.any fun a => floorDuration p.timestamp a.timestamp ≥ div.duration

/-- If the run is cut, the loop cuts there, with the duration measured from what it takes for the
start. -/
def CutByLoop (div : DivisionParam) (first : Bool) (r : Run KPacket) : Prop :=
  ∀ p ∈ r.next, limits div (takenStart first (withNext r)) r.items p = true

/-- The loop cuts wherever the runs are cut. -/
structure CutsMade (div : DivisionParam) (rs : List (Run KPacket)) : Prop where
  head : ∀ r ∈ rs.head?, CutByLoop div true r
  tail : ∀ r ∈ rs.tail, CutByLoop div false r

theorem CutsMade.concat {closed : List (Run KPacket)} {new : Run KPacket}
    (h : CutsMade div closed) (hnew : CutByLoop div closed.isEmpty new) :
    CutsMade div (closed ++ [new]) := by
  cases closed with
  | nil =>
    refine ⟨fun r hr => ?_, nofun⟩
    obtain rfl : new = r := by simpa using hr
    exact hnew
  | cons d ds =>
    exact ⟨h.head, List.forall_mem_append.mpr ⟨h.tail, List.forall_mem_singleton.mpr hnew⟩⟩

theorem CutsMade.of_mem {closed later : List (Run KPacket)} {r : Run KPacket}
    (h : CutsMade div (closed ++ r :: later)) : CutByLoop div closed.isEmpty r := by
  cases closed with
  | nil => exact h.head r rfl
  | cons d ds => exact h.tail r (List.mem_append_right _ List.mem_cons_self)

theorem brief_singleton (hdiv : div.Positive) (p : KPacket) : Brief div [p] := by
  intro a ha b hb
  obtain rfl : p = a := by simpa using ha
  obtain rfl : p = b := by simpa using hb
  have hdur := hdiv.one_le_duration
  rw [floorDuration_self]
  omega

/-- The rule lets a packet in only while the run is brief. -/
theorem brief_append (hdiv : div.Positive) {closed : List (Run KPacket)} {run : List KPacket}
    {p : KPacket} (hc : briefCut div closed run p = false) : Brief div (run ++ [p]) := by
  cases run with
  | nil => exact brief_singleton hdiv p
  | cons a run =>
    intro x hx y hy
    obtain rfl : a = x := by simpa using hx
    rw [List.getLast?_concat] at hy
    obtain rfl : p = y := Option.some_inj.mp hy
    rw [briefCut, Bool.or_eq_false_iff, List.head?_cons, Option.any_some,
      decide_eq_false_iff_not] at hc
    exact not_le.mp hc.2

theorem briefCut_nil (hdiv : div.Positive) (closed : List (Run KPacket)) (p : KPacket) :
    briefCut div closed [] p = false := by
  rw [briefCut, intendedCut, List.head?_nil, Option.map_none, limits_nil hdiv]
  rfl

/-- **On a time-ordered run the loop cuts only where the intended rule does**, since it measures
from the same packet or from a later one. -/
theorem intendedCut_of_loopCut (hdiv : div.Positive) {closed : List (Run KPacket)}
    {run : List KPacket} {p : KPacket} (hord : TimeOrdered run)
    (hc : loopCut div closed run p = true) : intendedCut div closed run p = true := by
  cases run with
  | nil =>
    rw [loopCut_nil hdiv] at hc
    cases hc
  | cons a run =>
    rw [loopCut, if_neg (List.cons_ne_nil a run)] at hc
    rw [intendedCut]
    simp only [limits, Bool.or_eq_true, Bool.and_eq_true, decide_eq_true_eq] at hc ⊢
    refine hc.imp id (And.imp id (Or.imp id fun hfar => ?_))
    cases closed with
    | nil => exact hfar
    | cons d ds =>
      cases run with
      | nil =>
        have hself : div.duration ≤ floorDuration p.timestamp p.timestamp := by
          simpa [takenStart] using hfar
        have hdur := hdiv.one_le_duration
        rw [floorDuration_self] at hself
        omega
      | cons b run =>
        have hsecond : div.duration ≤ floorDuration p.timestamp b.timestamp := by
          simpa [takenStart] using hfar
        have hab : a.timestamp ≤ b.timestamp := List.rel_of_pairwise_cons hord List.mem_cons_self
        have hfirst := floorDuration_mono (le_refl p.timestamp) hab
        simpa using hsecond.trans hfirst

/-- Where only the rule for brief runs cuts, the packet comes too late for one. -/
theorem not_brief_of_prefix {closed : List (Run KPacket)} {run items : List KPacket} {p : KPacket}
    (hrun : run ≠ []) (hord : TimeOrdered items) (hpre : run ++ [p] <+: items)
    (hc : briefCut div closed run p = true) (hl : loopCut div closed run p = false) :
    ¬ Brief div items := by
  obtain ⟨a, rest, rfl⟩ := List.exists_cons_of_ne_nil hrun
  obtain ⟨later, rfl⟩ := hpre
  rw [loopCut, if_neg hrun] at hl
  rw [briefCut, intendedCut] at hc
  simp only [limits, Bool.or_eq_true, Bool.and_eq_true, Bool.or_eq_false_iff,
    Bool.and_eq_false_iff, decide_eq_true_eq, decide_eq_false_iff_not, List.head?_cons,
    Option.map_some, Option.any_some] at hc hl
  have hlate : div.duration ≤ floorDuration p.timestamp a.timestamp := by
    tauto
  intro hbrief
  obtain ⟨q, hq⟩ : ∃ q, (a :: rest ++ [p] ++ later).getLast? = some q :=
    Option.isSome_iff_exists.mp (by simp)
  have hpq : p.timestamp ≤ q.timestamp := by
    have hsplit : a :: rest ++ [p] ++ later = (a :: rest) ++ (p :: later) := by simp
    rw [hsplit] at hord hq
    rw [List.getLast?_append_of_ne_nil _ (List.cons_ne_nil p later)] at hq
    exact head_le_getLast (List.pairwise_append.mp hord).2.1 rfl hq
  have hshort := hbrief a rfl q hq
  have := floorDuration_mono hpq (le_refl a.timestamp)
  omega

/-- Where only the rule for brief runs cuts, the loop makes a run too long, and the cut is one that
the loop does not make. -/
theorem exists_of_only_brief {l : List KPacket} {closed : List (Run KPacket)}
    {run : List KPacket} {p : KPacket} (hrun : run ≠ []) (hord : TimeOrdered (run ++ [p] ++ l))
    (hi : briefCut div closed run p = true) (hl : loopCut div closed run p = false) :
    (∃ r ∈ Run.runsFrom (loopCut div) closed (run ++ [p]) l, ¬ Brief div r.items) ∧
      ¬ CutsMade div (Run.runsFrom (briefCut div) (closed ++ [⟨run, some p⟩]) [p] l) := by
  constructor
  · obtain ⟨r, later, heq, -, hpre⟩ := Run.exists_runsFrom_eq (loopCut div) l closed (run ++ [p])
    have hspell := @Run.flatMap_items_runsFrom _ (loopCut div) l closed (run ++ [p])
    rw [heq, List.flatMap_append, List.flatMap_cons] at hspell
    have hitems : r.items <+: run ++ [p] ++ l := ⟨_, List.append_cancel_left hspell⟩
    refine ⟨r, ?_, not_brief_of_prefix hrun (hord.sublist hitems.sublist) hpre hi hl⟩
    rw [heq]
    simp
  · obtain ⟨r, later, heq, -, -⟩ :=
      Run.exists_runsFrom_eq (briefCut div) l (closed ++ [⟨run, some p⟩]) [p]
    rw [heq, List.append_assoc, List.singleton_append]
    intro h
    have hmade : limits div (takenStart closed.isEmpty (run ++ [p])) run p = true :=
      h.of_mem p rfl
    rw [loopCut, if_neg hrun, hmade] at hl
    cases hl

/-- **The loop's runs are brief exactly when it makes the cuts that keep them brief**, from any
point of the division on. -/
theorem brief_runsFrom_iff (hdiv : div.Positive) (l : List KPacket) (closed : List (Run KPacket))
    (run : List KPacket) (hord : TimeOrdered (run ++ l)) (hclosed : ∀ r ∈ closed, Brief div r.items)
    (hrun : Brief div run) (hcut : CutsMade div closed) :
    (∀ r ∈ Run.runsFrom (loopCut div) closed run l, Brief div r.items) ↔
      CutsMade div (Run.runsFrom (briefCut div) closed run l) := by
  induction l generalizing closed run with
  | nil =>
    refine ⟨fun _ => hcut.concat nofun, fun _ => ?_⟩
    exact List.forall_mem_append.mpr ⟨hclosed, List.forall_mem_singleton.mpr hrun⟩
  | cons p l ih =>
    have hord' : TimeOrdered (run ++ [p] ++ l) := by rwa [List.append_assoc]
    have hrunOrd : TimeOrdered run := (List.pairwise_append.mp hord).1
    rw [Run.runsFrom, Run.runsFrom]
    cases hi : briefCut div closed run p with
    | false =>
      have hl : loopCut div closed run p = false := by
        cases hl : loopCut div closed run p with
        | false => rfl
        | true =>
          rw [briefCut, intendedCut_of_loopCut hdiv hrunOrd hl] at hi
          cases hi
      rw [hl, if_neg Bool.false_ne_true, if_neg Bool.false_ne_true]
      exact ih closed (run ++ [p]) hord' hclosed (brief_append hdiv hi) hcut
    | true =>
      have hrun0 : run ≠ [] := by
        rintro rfl
        rw [briefCut_nil hdiv] at hi
        cases hi
      cases hl : loopCut div closed run p with
      | true =>
        rw [if_pos rfl, if_pos rfl]
        refine ih (closed ++ [⟨run, some p⟩]) [p] (List.pairwise_append.mp hord).2.1
          (List.forall_mem_append.mpr ⟨hclosed, List.forall_mem_singleton.mpr hrun⟩)
          (brief_singleton hdiv p) (hcut.concat fun q hq => ?_)
        obtain rfl : p = q := by simpa using hq
        rw [loopCut, if_neg hrun0] at hl
        exact hl
      | false =>
        rw [if_pos rfl, if_neg Bool.false_ne_true]
        obtain ⟨⟨r, hr, hlong⟩, hmissed⟩ := exists_of_only_brief hrun0 hord' hi hl
        exact ⟨fun h => absurd (h r hr) hlong, fun h => absurd h hmissed⟩

variable (div device) in
/-- The runs that the recorded loop makes, for any packets with a time stamp. -/
theorem map_snd_strictTrace (hdiv : div.Positive) {raw : List KPacket}
    (hsec : ∀ p ∈ raw, 1 ≤ p.timestamp.tvSec) :
    (strictTrace div device raw).map Prod.snd = Run.runs (loopCut div) raw := by
  cases raw with
  | nil => rfl
  | cons p raw => exact (strictTrace_spec device hdiv (List.cons_ne_nil p raw) hsec).1

/-- The time from the first to the last packet of a burst is less than `BURST_MAX_DURATION` seconds,
to the nanosecond. -/
def ShorterThanLimit (div : DivisionParam) (e : Burst × Run KPacket) : Prop :=
  ∀ p ∈ e.2.items.head?, ∀ q ∈ e.2.items.getLast?,
    q.timestamp.nanos - p.timestamp.nanos < div.duration * 1000000000

theorem shorterThanLimit_iff {e : Burst × Run KPacket}
    (hnormal : ∀ p ∈ e.2.items, p.timestamp.Normal) :
    ShorterThanLimit div e ↔ Brief div e.2.items := by
  refine forall₂_congr fun p hp => forall₂_congr fun q hq => ?_
  rw [floorDuration_lt_iff (hnormal q (List.mem_of_mem_getLast? hq))
    (hnormal p (List.mem_of_mem_head? hp))]

end Division

/-- **The limit on the duration.**  The bursts of `StrictToBursts` last less than
`BURST_MAX_DURATION` seconds, from the first packet put in to the last, exactly when the loop makes
the cuts that this takes: divided by the three limits with the duration measured from the first
packet of each run, wherever a run is cut, the loop cuts as well, with the duration measured from
the second packet in all runs but the first, and as far as `pktNum` is positive. -/
theorem shorterThanLimit_strictTrace_iff (div : DivisionParam) (device : KDevice)
    (raw : List KPacket) (hdiv : div.Positive) (hord : TimeOrdered raw)
    (hsec : ∀ p ∈ raw, 1 ≤ p.timestamp.tvSec) (hnormal : ∀ p ∈ raw, p.timestamp.Normal) :
    (Division.strictTrace div device raw).map Prod.fst =
        DeviceBurstGenerator.strictToBursts div device raw ∧
      ((∀ e ∈ Division.strictTrace div device raw, Division.ShorterThanLimit div e) ↔
        Division.CutsMade div (Run.runs (Division.briefCut div) raw)) := by
  refine ⟨Division.map_fst_strictTrace raw, ?_⟩
  have hruns := Division.map_snd_strictTrace div device hdiv hsec
  have hbrief := Division.brief_runsFrom_iff hdiv raw [] [] hord nofun nofun ⟨nofun, nofun⟩
  rw [Run.runs, ← hbrief, ← Run.runs, ← hruns, List.forall_mem_map]
  refine forall₂_congr fun e he => Division.shorterThanLimit_iff fun p hp => hnormal p ?_
  exact (Division.limited_strictTrace hdiv raw e he).2.subset hp

/-! ## A packet a second -/

theorem withinLimits_heartbeats :
    (Division.generatorTrace .insertion {} camera (heartbeats 1 20)).map Prod.fst =
        deviceBurstGenerator .insertion {} camera (heartbeats 1 20) ∧
      ∀ e ∈ Division.generatorTrace .insertion {} camera (heartbeats 1 20),
        Division.WithinLimits {} (heartbeats 1 20) e :=
  withinLimits_generatorTrace .insertion {} camera (heartbeats 1 20) (by decide)
    (timeOrdered_heartbeats 1 20) (by decide)

namespace Division

open DeviceBurstGenerator

/-- Some equal packets in the first second, a packet of another flow in the second, one more of the
first flow in the third, and a last one. -/
def gapAfter (n : ℕ) : List KPacket :=
  List.replicate n floodPacket ++ [⟨0, 60, 8, ⟨2, 0⟩⟩, ⟨0, 60, 7, ⟨3, 0⟩⟩, ⟨0, 60, 8, ⟨4, 0⟩⟩]

/-- The flow has a gap where the raw burst has none. -/
theorem flow_gapAfter (n : ℕ) :
    flow { burstMaxDuration := 1 } (gapAfter (n + 1)) 7 =
      List.replicate (n + 1) floodPacket ++ [⟨0, 60, 7, ⟨3, 0⟩⟩] := by
  have hlong : (longShortSplit { burstMaxDuration := 1 } (gapAfter (n + 1))).longBurstVec =
      [List.replicate (n + 1) floodPacket ++ [⟨0, 60, 8, ⟨2, 0⟩⟩, ⟨0, 60, 7, ⟨3, 0⟩⟩]] := by
    rw [longShortSplit, gapAfter, List.foldl_append,
      foldl_longShortStep_replicate (by decide) floodPacket (n + 1)]
    have hlast : (List.replicate (n + 1) floodPacket).getLast? = some floodPacket := by
      rw [List.getLast?_replicate, if_neg (Nat.succ_ne_zero n)]
    have hhead : (List.replicate (n + 1) floodPacket).head? = some floodPacket := by
      rw [List.head?_replicate, if_neg (Nat.succ_ne_zero n)]
    have hstamp : floodPacket.timestamp = ⟨1, 0⟩ := rfl
    simp [longShortStep, floorDiff, isOverlong, hlast, hhead, hstamp, floorDuration,
      DivisionParam.interval, DivisionParam.duration]
  rw [flow, longPackets, ← (longShortSplit_eq _).2, hlong, List.flatten_singleton,
    List.filter_append, List.filter_replicate_of_pos (by decide)]
  rfl

/-- The loop takes a packet after a gap into a burst of equal packets whose `pktNum` is not
positive. -/
theorem strictTrace_late {n : ℕ} (hcount : toInt (n + 1) ≤ 0) (device : KDevice) (late : KPacket) :
    ∃ b, (b, ⟨List.replicate (n + 1) floodPacket ++ [late], none⟩) ∈
      strictTrace { burstMaxDuration := 1 } device
        (List.replicate (n + 1) floodPacket ++ [late]) := by
  let div : DivisionParam := { burstMaxDuration := 1 }
  have hdiv : div.Positive := by decide
  let t := (List.replicate (n + 1) floodPacket).foldl (tracedStep div device) (.init device)
  have hstate : t.state = ⟨[], repeated device floodPacket (n + 1), 0, 0⟩ := by
    rw [(foldl_tracedStep div device _ (.init device) rfl).1]
    exact foldl_strictStep_replicate hdiv (by decide) floodPacket n
  have hdone : t.done = [] := by
    have hbursts := (foldl_tracedStep div device (List.replicate (n + 1) floodPacket)
      (.init device) rfl).2
    rw [Traced.init, foldl_strictStep_replicate hdiv (by decide) floodPacket n] at hbursts
    exact List.map_eq_nil_iff.mp hbursts
  have hrun : t.run = List.replicate (n + 1) floodPacket := by
    have hinv : LimitInv div ([] ++ List.replicate (n + 1) floodPacket) t :=
      (LimitInv.init div device).foldl hdiv _
    have hspelled := hinv.spelled
    rwa [hdone] at hspelled
  have hcuts : (t.state.observe late).cuts div = false := by
    have hstamped : (t.state.stamped late) = repeated device floodPacket (n + 1) := by
      rw [hstate]
      rfl
    rw [StrictState.observe, hstamped,
      if_neg (show ¬ (repeated device floodPacket (n + 1)).intPktNum > 0 from not_lt.mpr hcount),
      hstate]
    rfl
  refine ⟨(tracedStep div device t late).state.burst, ?_⟩
  rcases tracedStep_cases div device t late with ⟨hc, -⟩ | ⟨-, hstep⟩
  · rw [hcuts] at hc
    cases hc
  · rw [strictTrace, List.foldl_append, List.foldl_cons, List.foldl_nil]
    show _ ∈ (tracedStep div device t late).done ++
      [((tracedStep div device t late).state.burst, ⟨(tracedStep div device t late).run, none⟩)]
    rw [hstep, hdone, hrun]
    exact List.mem_singleton_self _

end Division

/-- **A burst of more packets than an `int` counts, with a gap**: the packet of the third second is
put to those of the first. -/
theorem not_withinLimits_flood :
    ({ burstMaxDuration := 1 } : DivisionParam).Positive ∧
      TimeOrdered (Division.gapAfter 2147483648) ∧
      ∃ e ∈ Division.generatorTrace .insertion { burstMaxDuration := 1 } camera
          (Division.gapAfter 2147483648),
        ∃ before p q, e.2.items = before ++ [p, q] ∧
          ¬ |q.timestamp.nanos - p.timestamp.nanos| <
            ({ burstMaxDuration := 1 } : DivisionParam).interval * 1000000000 := by
  refine ⟨by decide, ?_, ?_⟩
  · rw [TimeOrdered, Division.gapAfter, List.pairwise_append]
    refine ⟨List.pairwise_replicate.mpr (Or.inr le_rfl), by decide, fun p hp => ?_⟩
    rw [List.eq_of_mem_replicate hp]
    decide
  · have hflow := Division.flow_gapAfter 2147483647
    obtain ⟨b, hb⟩ := Division.strictTrace_late (n := 2147483647) (by decide) camera
      ⟨0, 60, 7, ⟨3, 0⟩⟩
    have hraw : Division.IsRawRun { burstMaxDuration := 1 } (Division.gapAfter 2147483648)
        (List.replicate 2147483648 Division.floodPacket ++ [⟨0, 60, 7, ⟨3, 0⟩⟩]) := by
      rw [← hflow]
      refine .flow 7 ?_
      rw [hflow]
      exact List.append_ne_nil_of_right_ne_nil _ (List.cons_ne_nil _ _)
    refine ⟨_, Division.mem_generatorTrace.mpr ⟨_, hraw, _, hb, rfl⟩,
      List.replicate 2147483647 Division.floodPacket, Division.floodPacket,
      ⟨0, 60, 7, ⟨3, 0⟩⟩, ?_, by decide⟩
    show List.replicate (2147483647 + 1) Division.floodPacket ++ _ = _
    rw [List.replicate_succ', List.append_assoc]
    rfl

/-- Heartbeats that are cut twice, the first time between two equal ones: the burst that begins
there is measured from the second of the two. -/
theorem shorterThanLimit_heartbeats :
    let raw := heartbeats 1 16 ++ heartbeats 16 17
    (Division.strictTrace {} camera raw).map Prod.fst =
        DeviceBurstGenerator.strictToBursts {} camera raw ∧
      (Division.strictTrace {} camera raw).map (fun e => e.2.items.length) = [15, 16, 2] ∧
      Division.CutsMade {} (Run.runs (Division.briefCut {}) raw) := by
  intro raw
  have hord : TimeOrdered raw := by
    rw [TimeOrdered]
    decide
  obtain ⟨hbursts, hiff⟩ :=
    shorterThanLimit_strictTrace_iff {} camera raw (by decide) hord (by decide) (by decide)
  refine ⟨hbursts, by decide +kernel, hiff.mp ?_⟩
  show ∀ e ∈ Division.strictTrace {} camera raw, ∀ p ∈ e.2.items.head?, ∀ q ∈ e.2.items.getLast?,
    q.timestamp.nanos - p.timestamp.nanos < ({} : DivisionParam).duration * 1000000000
  decide +kernel

/-- **The second burst of thirty-one heartbeats lasts too long**: it goes from the sixteenth second
to the thirty-first. -/
theorem not_shorterThanLimit_heartbeats :
    TimeOrdered (heartbeats 1 31) ∧
      (∀ p ∈ heartbeats 1 31, 1 ≤ p.timestamp.tvSec ∧ p.timestamp.Normal) ∧
      ({} : DivisionParam).Positive ∧
      (Division.strictTrace {} camera (heartbeats 1 31)).map
          (fun e => (e.2.items.head?.map KPacket.timestamp,
            e.2.items.getLast?.map KPacket.timestamp)) =
        [(some ⟨1, 0⟩, some ⟨15, 0⟩), (some ⟨16, 0⟩, some ⟨31, 0⟩)] ∧
      ¬ ∀ e ∈ Division.strictTrace {} camera (heartbeats 1 31),
        Division.ShorterThanLimit {} e := by
  refine ⟨timeOrdered_heartbeats 1 31, by decide, by decide, by decide +kernel, ?_⟩
  intro h
  have hlong : ∃ e ∈ Division.strictTrace {} camera (heartbeats 1 31),
      ∃ p ∈ e.2.items.head?, ∃ q ∈ e.2.items.getLast?,
        ¬ q.timestamp.nanos - p.timestamp.nanos < ({} : DivisionParam).duration * 1000000000 := by
    decide +kernel
  obtain ⟨e, he, p, hp, q, hq, hpq⟩ := hlong
  exact hpq (h e he p hp q hq)

end BurstIoT
