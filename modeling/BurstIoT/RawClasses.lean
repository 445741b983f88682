import Mathlib.Data.List.SplitBy
import BurstIoT.StartTimes

/-!
# Short and long raw bursts

The two vectors of `LongShortSplit` are meant to tell the raw bursts apart by their span
(`ClassedByDuration`).  The loop looks at the span only when the next packet comes and no gap lies
before it, so a raw burst that its last packet made overlong counts as short if a gap or the end of
the list follows.

`classedByDuration_iff` says when this does not happen.  Split the packets at the gaps
(`gapFree`), and in each piece count off stretches that each end with the first packet more than
`BURST_MAX_DURATION` seconds after their own first one; what remains is `openStretch`.  The classes
are right exactly when no piece ends together with such a stretch.  One more packet after a raw
burst is enough to change its class (`not_classedByDuration_heartbeats`).
-/

namespace BurstIoT
namespace Division

open DeviceBurstGenerator

variable {div : DivisionParam}

/-! ## The classes -/

/-- Long raw bursts last more than `BURST_MAX_DURATION` seconds and short ones do not, so the class
of a raw burst can be told from its own packets. -/
structure ClassedByDuration (div : DivisionParam) (s : RawSplit) : Prop where
  long : ∀ raw ∈ s.longBurstVec, isOverlong div raw = true
  short : ∀ raw ∈ s.shortBurstVec, isOverlong div raw = false
  own : ∀ raw ∈ s.shortBurstVec ++ s.longBurstVec,
    (raw ∈ s.longBurstVec ↔ isOverlong div raw = true)

/-- The gaps of a list, and the pieces between them. -/
def near (div : DivisionParam) (p q : KPacket) : Bool :=
  floorDuration q.timestamp p.timestamp < div.interval

def gapFree (div : DivisionParam) (l : List KPacket) : List (List KPacket) :=
  l.splitBy (near div)

/-- Count off the overlong stretches of a piece, and keep what remains. -/
def openStretch (div : DivisionParam) (piece : List KPacket) : List KPacket :=
  piece.foldl (fun run p => if isOverlong div run then [p] else run ++ [p]) []

theorem openStretch_append (piece : List KPacket) (p : KPacket) :
    openStretch div (piece ++ [p]) =
      if isOverlong div (openStretch div piece) then [p] else openStretch div piece ++ [p] := by
  rw [openStretch, List.foldl_append]
  rfl

@[simp] theorem openStretch_singleton (p : KPacket) : openStretch div [p] = [p] := rfl

/-- What remains ends where the piece ends. -/
theorem getLast?_openStretch (piece : List KPacket) :
    (openStretch div piece).getLast? = piece.getLast? := by
  induction piece using List.reverseRecOn with
  | nil => rfl
  | append_singleton piece p _ =>
    rw [openStretch_append]
    split_ifs <;> simp

theorem floorDiff_openStretch (piece : List KPacket) (p : KPacket) :
    floorDiff (openStretch div piece) p = floorDiff piece p := by
  rw [floorDiff, floorDiff, getLast?_openStretch]

/-! ## One pass over the list -/

/-- A raw burst is in its class if it is long or not overlong. -/
def InClass (div : DivisionParam) (r : Run KPacket) : Prop :=
  closedLong div r = false → isOverlong div r.items = false

theorem inClass_gap {run : List KPacket} {p : KPacket} (h : floorDiff run p ≥ div.interval) :
    InClass div ⟨run, some p⟩ ↔ isOverlong div run = false := by
  simp [InClass, closedLong, h]

theorem inClass_noGap {run : List KPacket} {p : KPacket} (h : ¬ floorDiff run p ≥ div.interval) :
    InClass div ⟨run, some p⟩ := by
  simp [InClass, closedLong, h]

theorem inClass_end {run : List KPacket} :
    InClass div ⟨run, none⟩ ↔ isOverlong div run = false := by
  simp [InClass, closedLong]

/-- A gap ends the piece before it. -/
theorem gapFree_append_gap {piece : List KPacket} {p q : KPacket} (l : List KPacket)
    (hpiece : piece.IsChain fun p q => near div p q = true) (hq : piece.getLast? = some q)
    (hfar : near div q p = false) :
    gapFree div (piece ++ p :: l) = piece :: gapFree div ([p] ++ l) := by
  have hne : piece ≠ [] := by
    rintro rfl
    cases hq
  have hcut : ∀ x ∈ piece.getLast?, ∀ y ∈ (p :: l).head?, near div x y = false := by
    intro x hx y hy
    obtain rfl : q = x := Option.some_inj.mp (hq.symm.trans hx)
    obtain rfl : p = y := Option.some_inj.mp hy
    exact hfar
  rw [gapFree, List.splitBy_append hcut, List.splitBy_of_isChain hne hpiece]
  rfl

/-- Without a gap, the piece goes on. -/
theorem isChain_concat_near {piece : List KPacket} {p q : KPacket}
    (hpiece : piece.IsChain fun p q => near div p q = true) (hq : piece.getLast? = some q)
    (hnear : near div q p = true) : (piece ++ [p]).IsChain fun p q => near div p q = true := by
  refine List.isChain_append.mpr ⟨hpiece, List.isChain_singleton p, fun x hx y hy => ?_⟩
  obtain rfl : q = x := Option.some_inj.mp (hq.symm.trans hx)
  obtain rfl : p = y := Option.some_inj.mp hy
  exact hnear

/-- **From any point of the division on**: after the piece `piece` without a gap, of which
`openStretch` is the open raw burst, the raw bursts are in their classes exactly when no piece is
overlong at its end. -/
theorem inClass_runsFrom_iff (l : List KPacket) (closed : List (Run KPacket))
    {piece : List KPacket} (hne : piece ≠ [])
    (hpiece : piece.IsChain fun p q => near div p q = true) :
    (∀ r ∈ Run.runsFrom (rawCut div) closed (openStretch div piece) l, InClass div r) ↔
      (∀ r ∈ closed, InClass div r) ∧
        ∀ piece' ∈ gapFree div (piece ++ l), isOverlong div (openStretch div piece') = false := by
  induction l generalizing closed piece with
  | nil =>
    rw [Run.runsFrom, List.append_nil, gapFree, List.splitBy_of_isChain hne hpiece,
      List.forall_mem_append, List.forall_mem_singleton, List.forall_mem_singleton, inClass_end]
  | cons p l ih =>
    obtain ⟨q, hq⟩ : ∃ q, piece.getLast? = some q := ⟨_, List.getLast?_eq_some_getLast hne⟩
    have hdiff : floorDiff piece p = floorDuration p.timestamp q.timestamp := by
      rw [floorDiff, hq]
    have hsplit : piece ++ p :: l = piece ++ [p] ++ l := by simp
    rw [Run.runsFrom, rawCut, floorDiff_openStretch]
    by_cases hgap : floorDiff piece p ≥ div.interval
    · -- a gap ends the piece, and the open raw burst is put with the short ones
      have hfar : near div q p = false := by
        rw [hdiff] at hgap
        exact decide_eq_false (not_lt.mpr hgap)
      have hrest := ih (closed ++ [⟨openStretch div piece, some p⟩]) (List.cons_ne_nil p [])
        (List.isChain_singleton p)
      rw [openStretch_singleton] at hrest
      rw [decide_eq_true hgap, Bool.true_or, if_pos rfl, hrest, gapFree_append_gap l hpiece hq hfar,
        List.forall_mem_append, List.forall_mem_singleton, List.forall_mem_cons, inClass_gap,
        and_assoc]
      rw [floorDiff_openStretch]
      exact hgap
    · have hnear : (piece ++ [p]).IsChain fun p q => near div p q = true := by
        refine isChain_concat_near hpiece hq ?_
        rw [hdiff] at hgap
        exact decide_eq_true (not_le.mp hgap)
      have hopen := @openStretch_append div piece p
      have hne' : piece ++ [p] ≠ [] := by simp
      rw [decide_eq_false hgap, Bool.false_or, hsplit]
      cases hover : isOverlong div (openStretch div piece) with
      | true =>
        -- a stretch is complete, and the open raw burst is put with the long ones
        rw [hover, if_pos rfl] at hopen
        have hlong : InClass div ⟨openStretch div piece, some p⟩ :=
          inClass_noGap (by rwa [floorDiff_openStretch])
        have hrest := ih (closed ++ [⟨openStretch div piece, some p⟩]) hne' hnear
        rw [hopen, List.forall_mem_append, List.forall_mem_singleton] at hrest
        rw [if_pos rfl, hrest]
        simp only [hlong, and_true]
      | false =>
        rw [hover, if_neg Bool.false_ne_true] at hopen
        rw [if_neg Bool.false_ne_true, ← hopen]
        exact ih closed hne' hnear

/-- The raw bursts of a list are in their classes exactly when none of its pieces is overlong at its
end. -/
theorem inClass_rawRuns_iff (l : List KPacket) :
    (∀ r ∈ rawRuns div l, InClass div r) ↔
      ∀ piece ∈ gapFree div l, isOverlong div (openStretch div piece) = false := by
  cases l with
  | nil => simp [rawRuns, Run.runs, Run.runsFrom, gapFree, inClass_end, isOverlong]
  | cons p l =>
    have hempty : InClass div ⟨[], some p⟩ := fun _ => rfl
    have hrest := fun closed => inClass_runsFrom_iff l closed (List.cons_ne_nil p [])
      (List.isChain_singleton (R := fun p q => near div p q = true) p)
    simp only [openStretch_singleton, List.singleton_append] at hrest
    rw [rawRuns, Run.runs, Run.runsFrom]
    split_ifs
    · rw [hrest, List.nil_append, List.forall_mem_singleton]
      simp only [hempty, true_and]
    · rw [List.nil_append, hrest]
      exact and_iff_right fun r hr => absurd hr List.not_mem_nil

/-- Long raw bursts are overlong: only then does the loop cut where there is no gap. -/
theorem isOverlong_of_mem_longRuns {l raw : List KPacket} (h : raw ∈ longRuns div l) :
    isOverlong div raw = true := by
  obtain ⟨⟨items, next⟩, hr, rfl⟩ := List.mem_map.mp h
  obtain ⟨hmem, hlong⟩ := List.mem_filter.mp hr
  cases next with
  | none => cases hlong
  | some p =>
    obtain ⟨_, hcut⟩ := Run.exists_cut_of_mem_runs hmem p rfl
    simp only [closedLong, Bool.not_eq_true', decide_eq_false_iff_not] at hlong
    simpa [rawCut, hlong] using hcut

end Division

/-- **Short and long.**  The class of every raw burst follows from its span exactly when no piece of
the packets between two gaps ends together with a stretch longer than `BURST_MAX_DURATION`, counted
off from the start of the piece. -/
theorem classedByDuration_iff (div : DivisionParam) (l : List KPacket) :
    Division.ClassedByDuration div (DeviceBurstGenerator.longShortSplit div l) ↔
      ∀ piece ∈ Division.gapFree div l,
        DeviceBurstGenerator.isOverlong div (Division.openStretch div piece) = false := by
  obtain ⟨hshort, hlong⟩ := @Division.longShortSplit_eq div l
  have hshorts : (∀ raw ∈ Division.shortRuns div l,
      DeviceBurstGenerator.isOverlong div raw = false) ↔
        ∀ r ∈ Division.rawRuns div l, Division.InClass div r := by
    rw [Division.shortRuns, List.forall_mem_map]
    simp only [List.mem_filter, Bool.not_eq_true', and_imp]
    rfl
  rw [← Division.inClass_rawRuns_iff, ← hshorts]
  constructor
  · intro h
    rw [← hshort]
    exact h.short
  · intro h
    have hlongs : ∀ raw ∈ (DeviceBurstGenerator.longShortSplit div l).longBurstVec,
        DeviceBurstGenerator.isOverlong div raw = true := by
      rw [hlong]
      exact fun raw => Division.isOverlong_of_mem_longRuns
    refine ⟨hlongs, by rwa [hshort], fun raw hraw => ⟨hlongs raw, fun hover => ?_⟩⟩
    rcases List.mem_append.mp hraw with hraw | hraw
    · rw [hshort] at hraw
      rw [h raw hraw] at hover
      cases hover
    · exact hraw

/-- **The raw burst of seventeen heartbeats is short or long** according to what follows it:
nothing, or an eighteenth heartbeat.  It spans sixteen seconds. -/
theorem not_classedByDuration_heartbeats :
    TimeOrdered (heartbeats 1 17) ∧ TimeOrdered (heartbeats 1 18) ∧
      heartbeats 1 17 ∈ (DeviceBurstGenerator.longShortSplit {} (heartbeats 1 17)).shortBurstVec ∧
      heartbeats 1 17 ∈ (DeviceBurstGenerator.longShortSplit {} (heartbeats 1 18)).longBurstVec ∧
      floorDuration ⟨17, 0⟩ ⟨1, 0⟩ > ({} : DivisionParam).duration ∧
      ¬ Division.ClassedByDuration {}
        (DeviceBurstGenerator.longShortSplit {} (heartbeats 1 17)) := by
  have hmem : heartbeats 1 17 ∈
      (DeviceBurstGenerator.longShortSplit {} (heartbeats 1 17)).shortBurstVec := by
    decide +kernel
  have hover : DeviceBurstGenerator.isOverlong {} (heartbeats 1 17) = true := by decide +kernel
  refine ⟨timeOrdered_heartbeats 1 17, timeOrdered_heartbeats 1 18, hmem, by decide +kernel,
    by decide, fun h => ?_⟩
  rw [h.short _ hmem] at hover
  cases hover

end BurstIoT
