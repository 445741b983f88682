import Mathlib.Data.List.Basic

/-!
# Systems that take steps

A system is a partial step function: `step s i` is the state after the move `i`, or `none` when the
move is not possible in `s`.  A state is reachable when some list of moves leads to it; what holds
at the start and is kept by every move holds of every reachable state
(`Reachable.invariant`).  `run` replays a list of moves, and computes.  `restrict` keeps the moves
that a condition on the state allows.
-/

namespace BurstIoT
namespace StepSystem

variable {σ ι : Type} (step : σ → ι → Option σ)

/-- Replay a list of moves. -/
def run (s : σ) (moves : List ι) : Option σ :=
  moves.foldlM step s

/-- The states that some moves lead to. -/
inductive Reachable (start : σ) : σ → Prop where
  | start : Reachable start start
  | move {s s' : σ} (i : ι) : Reachable start s → step s i = some s' → Reachable start s'

/-- Only the moves that `allowed` lets through. -/
def restrict (allowed : σ → ι → Bool) (s : σ) (i : ι) : Option σ :=
  if allowed s i then step s i else none

variable {step}

/-- **The rule of invariants.** -/
theorem Reachable.invariant {start s : σ} {I : σ → Prop} (h : Reachable step start s)
    (hstart : I start) (hmove : ∀ s i s', I s → step s i = some s' → I s') : I s := by
  induction h with
  | start => exact hstart
  | move i _ hstep ih => exact hmove _ i _ ih hstep

theorem Reachable.trans {s s' s'' : σ} (h : Reachable step s s') (h' : Reachable step s' s'') :
    Reachable step s s'' := by
  induction h' with
  | start => exact h
  | move i _ hstep ih => exact .move i ih hstep

theorem step_of_restrict {allowed : σ → ι → Bool} {s s' : σ} {i : ι}
    (h : restrict step allowed s i = some s') : allowed s i = true ∧ step s i = some s' := by
  unfold restrict at h
  split at h
  · exact ⟨‹_›, h⟩
  · cases h

theorem restrict_of_step {allowed : σ → ι → Bool} {s s' : σ} {i : ι}
    (hallowed : allowed s i = true) (h : step s i = some s') :
    restrict step allowed s i = some s' := by
  unfold restrict
  rw [if_pos hallowed, h]

/-- Fewer moves reach fewer states. -/
theorem Reachable.of_restrict {allowed : σ → ι → Bool} {start s : σ}
    (h : Reachable (restrict step allowed) start s) : Reachable step start s := by
  induction h with
  | start => exact .start
  | move i _ hstep ih => exact .move i ih (step_of_restrict hstep).2

/-- Replaying moves leads to reachable states. -/
theorem reachable_of_run (moves : List ι) (s : σ) {s' : σ} (h : run step s moves = some s') :
    Reachable step s s' := by
  induction moves generalizing s with
  | nil =>
    obtain rfl : s = s' := Option.some_inj.mp h
    exact .start
  | cons i moves ih =>
    rw [run, List.foldlM_cons] at h
    obtain ⟨s₁, hstep, hrest⟩ := Option.bind_eq_some_iff.mp h
    exact Reachable.trans (.move i .start hstep) (ih s₁ hrest)

end StepSystem
end BurstIoT
