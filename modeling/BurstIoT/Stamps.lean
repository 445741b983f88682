import Mathlib.Data.Finset.Card
import BurstIoT.Division

/-!
# The time stamps of bursts

`strictTrace` runs the loop of `StrictToBursts` and records, with every burst, the packets put into
it and the packet that closed it.  The record changes nothing (`map_fst_strictTrace`), and its runs
are a cut of the packets: by the three limits, with the time measured from what the loop takes for
the start (`loopCut`).

That start is right for the first burst only.  A burst opened by a cut has no first stamp yet when
its first packet is put into it; the next packet supplies it (`takenStart`).  The intended rule
(`intendedCut`) measures from the first packet of the run.  The two rules divide a list alike, and
the stamps are right, exactly when every packet that opens a later run is followed by a packet with
the same time stamp (`Repeated`).

Both rules look at the time only while `pktNum` is positive.  From `2 ^ 31` packets on it is not,
and the loop keeps the differences that let the last packet in.
-/

namespace BurstIoT
namespace Division

open DeviceBurstGenerator

variable {lib : StdLib} {div : DivisionParam} {device : KDevice}

/-! ## The loop with its packets recorded -/

/-- The loop state, the closed bursts with their packets, and the packets of the open burst. -/
structure Traced where
  state : StrictState
  done : List (Burst × Run KPacket)
  run : List KPacket

/-- One iteration of `StrictToBursts`, recorded. -/
def tracedStep (div : DivisionParam) (device : KDevice) (t : Traced) (packet : KPacket) : Traced :=
  if (t.state.observe packet).cuts div then
    { state := strictStep div device t.state packet
      done := t.done ++ [((t.state.observe packet).burst, ⟨t.run, some packet⟩)]
      run := [packet] }
  else
    { state := strictStep div device t.state packet
      done := t.done
      run := t.run ++ [packet] }

/-- The record before the loop. -/
def Traced.init (device : KDevice) : Traced where
  state := .init device
  done := []
  run := []

/-- The bursts of `StrictToBursts`, each with the packets put into it. -/
def strictTrace (div : DivisionParam) (device : KDevice) (raw : List KPacket) :
    List (Burst × Run KPacket) :=
  let t := raw.foldl (tracedStep div device) (.init device)
  t.done ++ [(t.state.burst, ⟨t.run, none⟩)]

variable (div device) in
theorem tracedStep_cases (t : Traced) (p : KPacket) :
    ((t.state.observe p).cuts div = true ∧
      tracedStep div device t p =
        ⟨strictStep div device t.state p,
          t.done ++ [((t.state.observe p).burst, ⟨t.run, some p⟩)], [p]⟩) ∨
    ((t.state.observe p).cuts div = false ∧
      tracedStep div device t p = ⟨strictStep div device t.state p, t.done, t.run ++ [p]⟩) := by
  rw [tracedStep]
  cases (t.state.observe p).cuts div with
  | true => exact Or.inl ⟨rfl, rfl⟩
  | false => exact Or.inr ⟨rfl, rfl⟩

variable (div device) in
theorem foldl_tracedStep (l : List KPacket) (t : Traced)
    (h : t.done.map Prod.fst = t.state.burstVec) :
    (l.foldl (tracedStep div device) t).state = l.foldl (strictStep div device) t.state ∧
      (l.foldl (tracedStep div device) t).done.map Prod.fst =
        (l.foldl (strictStep div device) t.state).burstVec := by
  induction l generalizing t with
  | nil => exact ⟨rfl, h⟩
  | cons p l ih =>
    have hstate : (tracedStep div device t p).state = strictStep div device t.state p := by
      rcases tracedStep_cases div device t p with ⟨-, heq⟩ | ⟨-, heq⟩ <;>
        rw [heq]
    have hdone : (tracedStep div device t p).done.map Prod.fst =
        (strictStep div device t.state p).burstVec := by
      rcases tracedStep_cases div device t p with ⟨hc, heq⟩ | ⟨hc, heq⟩
      · rcases strictStep_cases div device t.state p with ⟨-, hv, -⟩ | ⟨hc', -, -⟩
        · rw [heq, hv, List.map_append, h]
          rfl
        · rw [hc] at hc'
          cases hc'
      · rcases strictStep_cases div device t.state p with ⟨hc', -, -⟩ | ⟨-, hv, -⟩
        · rw [hc] at hc'
          cases hc'
        · rw [heq, hv, h]
    have ih := ih (tracedStep div device t p) (by rw [hdone, hstate])
    rw [hstate] at ih
    exact ih

/-- **Recording the packets changes no burst.** -/
theorem map_fst_strictTrace (raw : List KPacket) :
    (strictTrace div device raw).map Prod.fst = strictToBursts div device raw := by
  obtain ⟨hstate, hdone⟩ := foldl_tracedStep div device raw (.init device) rfl
  rw [strictTrace, strictToBursts, List.map_append, hdone, hstate]
  rfl

/-! ## The rule of the loop, and the intended rule -/

/-- The three limits, with the duration measured from `start`.  The time is looked at while the
number of the packets, as an `int`, is positive. -/
def limits (div : DivisionParam) (start : Option Timespec) (run : List KPacket) (p : KPacket) :
    Bool :=
  (packetSigs run).toFinset.card ≥ div.burstMaxUnisig.toNat ||
    toInt run.length > 0 && (floorDiff run p ≥ div.interval ||
      start.any fun s => floorDuration p.timestamp s ≥ div.duration)

/-- The intended rule: the duration of a run is measured from its first packet. -/
def intendedCut (div : DivisionParam) (_ : List (Run KPacket)) (run : List KPacket) (p : KPacket) :
    Bool :=
  limits div (run.head?.map KPacket.timestamp) run p

/-- What the loop takes for the start of a burst that is followed by `l` from its first packet on:
the first packet for the first burst, the second one for every later burst. -/
def takenStart (first : Bool) (l : List KPacket) : Option Timespec :=
  (if first then l else l.tail).head?.map KPacket.timestamp

/-- The rule of the loop. -/
def loopCut (div : DivisionParam) (closed : List (Run KPacket)) (run : List KPacket)
    (p : KPacket) : Bool :=
  limits div (if run = [] then none else takenStart closed.isEmpty (run ++ [p])) run p

/-- Neither rule cuts before the first packet. -/
theorem limits_nil (hdiv : div.Positive) (p : KPacket) : limits div none [] p = false := by
  have hunisig := hdiv.unisig
  have hsigs : decide ((packetSigs []).toFinset.card ≥ div.burstMaxUnisig.toNat) = false :=
    decide_eq_false (by
      rw [packetSigs_nil, Multiset.toFinset_zero, Finset.card_empty]
      omega)
  have hcount : decide (toInt ([] : List KPacket).length > 0) = false :=
    decide_eq_false toInt_zero.not_gt
  rw [limits, hsigs, hcount]
  rfl

theorem loopCut_nil (hdiv : div.Positive) (closed : List (Run KPacket)) (p : KPacket) :
    loopCut div closed [] p = false := by
  rw [loopCut, if_pos rfl]
  exact limits_nil hdiv p

/-- The packets of a run, and the one that closed it. -/
def withNext (r : Run KPacket) : List KPacket :=
  r.items ++ r.next.toList

/-- The packet that opens the run is followed by one with the same time stamp. -/
def Repeated (r : Run KPacket) : Prop :=
  ∃ p q, (withNext r).head? = some p ∧ (withNext r).tail.head? = some q ∧
    q.timestamp = p.timestamp

/-- What the loop leaves in a burst. -/
structure Stamped (first : Bool) (e : Burst × Run KPacket) : Prop where
  ne_nil : e.2.items ≠ []
  first_eq : e.1.firstPacketStamp = (takenStart first (withNext e.2)).getD .zero
  last_eq : e.2.items.getLast?.map KPacket.timestamp = some e.1.lastPacketStamp
  sigs_eq : e.1.sigs = packetSigs e.2.items

/-- A further burst, stamped as the first or as a later one. -/
theorem stamped_concat {first : Bool} {done : List (Burst × Run KPacket)}
    {new : Burst × Run KPacket} (hfirst : first = done.isEmpty) (hnew : Stamped first new)
    (hhead : ∀ e ∈ done.head?, Stamped true e) (htail : ∀ e ∈ done.tail, Stamped false e) :
    (∀ e ∈ (done ++ [new]).head?, Stamped true e) ∧
      ∀ e ∈ (done ++ [new]).tail, Stamped false e := by
  subst hfirst
  cases done with
  | nil =>
    refine ⟨fun e he => ?_, nofun⟩
    obtain rfl : new = e := by simpa using he
    exact hnew
  | cons d ds =>
    refine ⟨hhead, fun e he => ?_⟩
    rcases List.mem_append.mp he with he | he
    · exact htail e he
    · rw [List.mem_singleton.mp he]
      exact hnew

/-! ## The invariant of the recorded loop -/

/-- The state of the recorded loop after closing `closed` and collecting `run`. -/
structure TraceInv (div : DivisionParam) (closed : List (Run KPacket)) (run : List KPacket)
    (t : Traced) : Prop where
  run_eq : t.run = run
  done_eq : t.done.map Prod.snd = closed
  head : ∀ e ∈ t.done.head?, Stamped true e
  tail : ∀ e ∈ t.done.tail, Stamped false e
  ne_nil : closed ≠ [] → run ≠ []
  sec : ∀ p ∈ run, 1 ≤ p.timestamp.tvSec
  wellFormed : t.state.burst.WellFormed
  sigs_eq : t.state.burst.sigs = packetSigs run
  first_eq : t.state.burst.firstPacketStamp = (takenStart closed.isEmpty run).getD .zero
  last_eq : ∀ p ∈ run.getLast?, t.state.burst.lastPacketStamp = p.timestamp
  near : toInt run.length ≤ 0 → t.state.nearDiff < div.interval
  far : toInt run.length ≤ 0 → t.state.farDiff < div.duration

theorem takenStart_append {first : Bool} {run : List KPacket} {s : Timespec}
    (h : takenStart first run = some s) (p : KPacket) :
    takenStart first (run ++ [p]) = some s := by
  unfold takenStart at h ⊢
  cases first with
  | true =>
    cases run with
    | nil => simp at h
    | cons a run => simpa using h
  | false =>
    cases run with
    | nil => simp at h
    | cons a run =>
      cases run with
      | nil => simp at h
      | cons b run => simpa using h

theorem takenStart_eq_none {first : Bool} {run : List KPacket} (hrun : first = false → run ≠ [])
    (h : takenStart first run = none) (p : KPacket) :
    takenStart first (run ++ [p]) = some p.timestamp := by
  unfold takenStart at h ⊢
  cases first with
  | true =>
    cases run with
    | nil => simp
    | cons a run => simp at h
  | false =>
    cases run with
    | nil => exact absurd rfl (hrun rfl)
    | cons a run =>
      cases run with
      | nil => simp
      | cons b run => simp at h

/-- A start the loop has taken is the stamp of one of the packets. -/
theorem exists_of_takenStart {first : Bool} {l : List KPacket} {s : Timespec}
    (h : takenStart first l = some s) : ∃ p ∈ l, p.timestamp = s := by
  rw [takenStart, Option.map_eq_some_iff] at h
  obtain ⟨p, hp, rfl⟩ := h
  refine ⟨p, ?_, rfl⟩
  cases first with
  | true => exact List.mem_of_mem_head? hp
  | false => exact List.mem_of_mem_tail (List.mem_of_mem_head? hp)

namespace TraceInv

variable {closed : List (Run KPacket)} {run : List KPacket} {t : Traced}

theorem pktNum_eq (h : TraceInv div closed run t) : t.state.burst.pktNum = run.length := by
  rw [← h.wellFormed.card_sigs, h.sigs_eq]
  simp [packetSigs]

theorem isEmpty_eq (h : TraceInv div closed run t) : closed.isEmpty = t.done.isEmpty := by
  rw [← h.done_eq, List.isEmpty_map]

theorem isEmpty_ne_nil (h : TraceInv div closed run t) : closed.isEmpty = false → run ≠ [] := by
  intro hc
  refine h.ne_nil fun hnil => ?_
  rw [hnil] at hc
  cases hc

/-- The sentinel test leaves the start the loop takes. -/
theorem first_stamped (h : TraceInv div closed run t) (p : KPacket) :
    (t.state.stamped p).firstPacketStamp =
      (takenStart closed.isEmpty (run ++ [p])).getD .zero := by
  cases hs : takenStart closed.isEmpty run with
  | none =>
    have hzero : t.state.burst.firstPacketStamp = .zero := by
      rw [h.first_eq, hs]
      rfl
    rw [takenStart_eq_none h.isEmpty_ne_nil hs p, StrictState.stamped, hzero]
    rfl
  | some s =>
    obtain ⟨q, hq, hqs⟩ := exists_of_takenStart hs
    have hstamp : t.state.burst.firstPacketStamp = s := by
      rw [h.first_eq, hs]
      rfl
    have hsec : ¬ s.tvSec = 0 := by
      have := h.sec q hq
      rw [hqs] at this
      omega
    rw [takenStart_append hs p, StrictState.stamped, hstamp, if_neg hsec, hstamp]
    rfl

theorem last_stamped (t : Traced) (p : KPacket) :
    (t.state.stamped p).lastPacketStamp = t.state.burst.lastPacketStamp := by
  rw [StrictState.stamped]
  split_ifs <;> rfl

/-- The counter of signatures counts the distinct ones. -/
theorem uniPktNum_eq (h : TraceInv div closed run t) :
    t.state.burst.uniPktNum.toNat = (packetSigs run).toFinset.card := by
  rw [h.wellFormed.uniPktNum_eq_card, h.sigs_eq]

/-- **The test of the loop is the rule `loopCut`.** -/
theorem cuts_eq (h : TraceInv div closed run t) (p : KPacket) :
    (t.state.observe p).cuts div = loopCut div closed run p := by
  have huni : decide ((t.state.observe p).burst.uniPktNum ≥ div.burstMaxUnisig) =
      decide ((packetSigs run).toFinset.card ≥ div.burstMaxUnisig.toNat) := by
    rw [uniPktNum_observe, ← h.uniPktNum_eq]
    exact decide_eq_decide.mpr UInt8.le_iff_toNat_le
  have hcount : (t.state.stamped p).intPktNum = toInt run.length := by
    rw [intPktNum_stamped, Burst.intPktNum, h.pktNum_eq]
  rw [StrictState.cuts, loopCut, limits, huni]
  by_cases hpkt : toInt run.length > 0
  · have hrun : run ≠ [] := by
      rintro rfl
      exact absurd hpkt toInt_zero.not_gt
    have hlast : (t.state.observe p).nearDiff = floorDiff run p := by
      rw [StrictState.observe, hcount, if_pos hpkt, floorDiff]
      have hsome : run.getLast? = some (run.getLast hrun) := List.getLast?_eq_some_getLast hrun
      rw [hsome]
      dsimp only
      rw [last_stamped, h.last_eq _ hsome]
    have hstart : ∃ s, takenStart closed.isEmpty (run ++ [p]) = some s := by
      cases hs : takenStart closed.isEmpty run with
      | none => exact ⟨_, takenStart_eq_none h.isEmpty_ne_nil hs p⟩
      | some s => exact ⟨s, takenStart_append hs p⟩
    obtain ⟨s, hs⟩ := hstart
    have hfar : (t.state.observe p).farDiff = floorDuration p.timestamp s := by
      rw [StrictState.observe, hcount, if_pos hpkt]
      dsimp only
      rw [h.first_stamped p, hs]
      rfl
    rw [hlast, hfar, if_neg hrun, hs, Option.any_some, decide_eq_true hpkt, Bool.true_and,
      Bool.or_assoc]
  · -- the differences are those that the last packet has passed with
    have hnear : ¬ (t.state.observe p).nearDiff ≥ div.interval := by
      rw [StrictState.observe, hcount, if_neg hpkt]
      exact not_le.mpr (h.near (not_lt.mp hpkt))
    have hfar : ¬ (t.state.observe p).farDiff ≥ div.duration := by
      rw [StrictState.observe, hcount, if_neg hpkt]
      exact not_le.mpr (h.far (not_lt.mp hpkt))
    rw [decide_eq_false hnear, decide_eq_false hfar, decide_eq_false hpkt, Bool.false_and,
      Bool.or_false, Bool.or_false]

theorem init (hdiv : div.Positive) (device : KDevice) : TraceInv div [] [] (.init device) where
  run_eq := rfl
  done_eq := rfl
  head := fun _ he => absurd he (by simp [Traced.init])
  tail := fun _ he => absurd he (by simp [Traced.init])
  ne_nil := fun h => absurd rfl h
  sec := fun _ hp => absurd hp List.not_mem_nil
  wellFormed := .ofDevice device
  sigs_eq := rfl
  first_eq := rfl
  last_eq := fun _ hp => absurd hp (by simp)
  near := fun _ => hdiv.one_le_interval
  far := fun _ => hdiv.one_le_duration

/-- The open burst, when it is closed, is stamped as the loop stamps bursts. -/
theorem stamped_observe (h : TraceInv div closed run t) (hrun : run ≠ []) (p : KPacket) :
    Stamped closed.isEmpty ((t.state.observe p).burst, ⟨run, some p⟩) where
  ne_nil := hrun
  first_eq := by
    rw [observe_burst]
    exact h.first_stamped p
  last_eq := by
    have hsome : run.getLast? = some (run.getLast hrun) := List.getLast?_eq_some_getLast hrun
    show run.getLast?.map KPacket.timestamp = _
    rw [observe_burst, last_stamped, h.last_eq _ hsome, hsome]
    rfl
  sigs_eq := by
    rw [sigs_observe]
    exact h.sigs_eq

/-- Closing a burst keeps the invariant. -/
theorem cut (hdiv : div.Positive) (h : TraceInv div closed run t) {p : KPacket}
    (hp : 1 ≤ p.timestamp.tvSec) (hc : (t.state.observe p).cuts div = true) :
    TraceInv div (closed ++ [⟨run, some p⟩]) [p] (tracedStep div device t p) := by
  have hrun : run ≠ [] := by
    rintro rfl
    rw [h.cuts_eq, loopCut_nil hdiv] at hc
    cases hc
  have hclosed : (closed ++ [(⟨run, some p⟩ : Run KPacket)]).isEmpty = false := by simp
  rcases tracedStep_cases div device t p with ⟨-, heq⟩ | ⟨hc', -⟩
  · rcases strictStep_cases div device t.state p with ⟨-, -, hb⟩ | ⟨hc', -, -⟩
    · obtain ⟨hhead, htail⟩ :=
        stamped_concat h.isEmpty_eq (h.stamped_observe hrun p) h.head h.tail
      have hroom : (Burst.ofDevice device).uniPktNum.toNat < 255 := by
        show (0 : ℕ) < 255
        omega
      have hone : ¬ toInt [p].length ≤ 0 := by
        show ¬ toInt 1 ≤ 0
        decide
      rw [heq, h.run_eq]
      refine ⟨rfl, ?_, hhead, htail, fun _ => List.cons_ne_nil _ _, ?_, ?_, ?_, ?_, ?_, ?_, ?_⟩
      · rw [List.map_append, h.done_eq]
        rfl
      · intro q hq
        rw [List.mem_singleton] at hq
        rw [hq]
        exact hp
      · show (strictStep div device t.state p).burst.WellFormed
        rw [hb]
        exact (Burst.WellFormed.ofDevice device).addSig hroom _ |>.setLastPacketStamp p
      · show (strictStep div device t.state p).burst.sigs = _
        rw [hb, sigs_putInto]
        rfl
      · show (strictStep div device t.state p).burst.firstPacketStamp = _
        rw [hb, hclosed]
        exact Burst.firstPacketStamp_addSig _ _
      · intro q hq
        obtain rfl : p = q := by simpa using hq
        show (strictStep div device t.state p).burst.lastPacketStamp = _
        rw [hb]
        rfl
      · exact fun hpkt => absurd hpkt hone
      · exact fun hpkt => absurd hpkt hone
    · rw [hc] at hc'
      cases hc'
  · rw [hc] at hc'
    cases hc'

variable (div device) in
/-- The differences that have let a packet in are below the limits. -/
theorem diffs_of_not_cuts {s : StrictState} {p : KPacket} (hc : (s.observe p).cuts div = false) :
    (strictStep div device s p).nearDiff < div.interval ∧
      (strictStep div device s p).farDiff < div.duration := by
  have hstep : (strictStep div device s p).nearDiff = (s.observe p).nearDiff ∧
      (strictStep div device s p).farDiff = (s.observe p).farDiff := by
    rw [strictStep, hc, if_neg Bool.false_ne_true]
    exact ⟨rfl, rfl⟩
  rw [hstep.1, hstep.2]
  simp only [StrictState.cuts, Bool.or_eq_false_iff, decide_eq_false_iff_not, not_le] at hc
  exact ⟨hc.1.2, hc.2⟩

/-- Extending the open burst keeps the invariant. -/
theorem extend (h : TraceInv div closed run t) {p : KPacket} (hp : 1 ≤ p.timestamp.tvSec)
    (hc : (t.state.observe p).cuts div = false) :
    TraceInv div closed (run ++ [p]) (tracedStep div device t p) := by
  rcases tracedStep_cases div device t p with ⟨hc', -⟩ | ⟨-, heq⟩
  · rw [hc] at hc'
    cases hc'
  · rcases strictStep_cases div device t.state p with ⟨hc', -, -⟩ | ⟨-, -, hb⟩
    · rw [hc] at hc'
      cases hc'
    · have hroom := room_of_not_cuts hc
      have hmax : div.burstMaxUnisig.toNat < 256 := div.burstMaxUnisig.toNat_lt
      have hne : run ++ [p] ≠ [] := by simp
      obtain ⟨hnear, hfar⟩ := diffs_of_not_cuts div device hc
      rw [heq]
      refine ⟨by rw [h.run_eq], h.done_eq, h.head, h.tail, fun _ => hne, ?_, ?_, ?_, ?_, ?_,
        fun _ => hnear, fun _ => hfar⟩
      · intro q hq
        rcases List.mem_append.mp hq with hq | hq
        · exact h.sec q hq
        · rw [List.mem_singleton] at hq
          rw [hq]
          exact hp
      · show (strictStep div device t.state p).burst.WellFormed
        rw [hb]
        exact (wellFormed_observe h.wellFormed p).addSig (by omega) _ |>.setLastPacketStamp p
      · show (strictStep div device t.state p).burst.sigs = _
        rw [hb, sigs_putInto, sigs_observe, h.sigs_eq, packetSigs_append, packetSigs_cons,
          packetSigs_nil, Multiset.add_cons, add_zero]
      · show (strictStep div device t.state p).burst.firstPacketStamp = _
        rw [hb, ← h.first_stamped p, ← observe_burst]
        exact Burst.firstPacketStamp_addSig _ _
      · intro q hq
        obtain rfl : p = q := by simpa using hq
        show (strictStep div device t.state p).burst.lastPacketStamp = _
        rw [hb]
        rfl

end TraceInv

variable (device) in
/-- **What `StrictToBursts` leaves in its bursts.**  Its runs are the cut of the packets by the
rule of the loop; the first burst is stamped from its first packet, the later ones from the packet
after it. -/
theorem strictTrace_spec (hdiv : div.Positive) {raw : List KPacket} (hne : raw ≠ [])
    (hsec : ∀ p ∈ raw, 1 ≤ p.timestamp.tvSec) :
    (strictTrace div device raw).map Prod.snd = Run.runs (loopCut div) raw ∧
      (∀ e ∈ (strictTrace div device raw).head?, Stamped true e) ∧
      ∀ e ∈ (strictTrace div device raw).tail, Stamped false e := by
  have hcut : ∀ closed run t p, 1 ≤ p.timestamp.tvSec → TraceInv div closed run t →
      loopCut div closed run p = true →
      TraceInv div (closed ++ [⟨run, some p⟩]) [p] (tracedStep div device t p) :=
    fun closed run t p hp h hc => h.cut hdiv hp (by rw [h.cuts_eq, hc])
  have hext : ∀ closed run t p, 1 ≤ p.timestamp.tvSec → TraceInv div closed run t →
      loopCut div closed run p = false →
      TraceInv div closed (run ++ [p]) (tracedStep div device t p) :=
    fun closed run t p hp h hc => h.extend hp (by rw [h.cuts_eq, hc])
  obtain ⟨closed, run, h, hruns⟩ := Run.foldl_runs hcut hext (TraceInv.init hdiv device) hsec
  have hrun : run ≠ [] :=
    Run.items_ne_nil_of_mem_runs (loopCut_nil hdiv) hne ⟨run, none⟩
      (by rw [hruns]; exact List.mem_append_right _ List.mem_cons_self)
  -- the burst left open is stamped like the closed ones
  have hlast : Stamped closed.isEmpty
      ((raw.foldl (tracedStep div device) (.init device)).state.burst, ⟨run, none⟩) := by
    have hsome : run.getLast? = some (run.getLast hrun) := List.getLast?_eq_some_getLast hrun
    refine ⟨hrun, ?_, ?_, h.sigs_eq⟩
    · rw [h.first_eq, withNext, Option.toList_none, List.append_nil]
    · rw [h.last_eq _ hsome, hsome]
      rfl
  rw [strictTrace, h.run_eq]
  refine ⟨?_, stamped_concat h.isEmpty_eq hlast h.head h.tail⟩
  rw [List.map_append, h.done_eq, hruns]
  rfl

end Division
end BurstIoT
