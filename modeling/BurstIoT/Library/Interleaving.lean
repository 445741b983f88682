import Mathlib.Data.List.Basic

/-!
# Interleavings

Several parties each append the entries of a list of their own to one log.  A schedule names, for
every entry of the log, the party that appends it, and `interleave` is the log of a schedule.  Every
log is a permutation of the lists put together (`perm_of_interleave`), and keeps the order of the
entries that only one party has (`filterMap_interleave`).  One of the schedules lets the parties run
one after the other (`exists_interleave_flatten`).
-/

namespace BurstIoT
namespace Interleaving

variable {α : Type}

/-- The log in which the parties append the entries of their lists in the order of the schedule, if
the schedule fits the lists. -/
def interleave (ls : List (List α)) : List ℕ → Option (List α)
  | [] => if ls.all List.isEmpty then some [] else none
  | i :: schedule =>
    match ls[i]? with
    | some (a :: rest) => (interleave (ls.set i rest) schedule).map (a :: ·)
    | _ => none

theorem interleave_nil {ls : List (List α)} {l : List α} :
    interleave ls [] = some l ↔ (∀ l' ∈ ls, l' = []) ∧ l = [] := by
  rw [interleave]
  split_ifs with hempty
  · have hall : ∀ l' ∈ ls, l' = [] := by simpa using hempty
    constructor
    · intro h
      exact ⟨hall, (Option.some_inj.mp h).symm⟩
    · rintro ⟨-, rfl⟩
      rfl
  · constructor
    · rintro ⟨⟩
    · rintro ⟨hall, -⟩
      exact absurd (by simpa using hall) hempty

theorem interleave_cons {ls : List (List α)} {i : ℕ} {schedule : List ℕ} {l : List α} :
    interleave ls (i :: schedule) = some l ↔
      ∃ a rest l', ls[i]? = some (a :: rest) ∧ interleave (ls.set i rest) schedule = some l' ∧
        a :: l' = l := by
  rw [interleave]
  constructor
  · intro h
    split at h
    · rename_i a rest hi
      obtain ⟨l', hl', rfl⟩ := Option.map_eq_some_iff.mp h
      exact ⟨a, rest, l', hi, hl', rfl⟩
    · cases h
  · rintro ⟨a, rest, l', hi, hl', rfl⟩
    rw [hi]
    exact Option.map_eq_some_iff.mpr ⟨l', hl', rfl⟩

/-- Taking the first entry off one list takes it out of the whole. -/
theorem perm_flatten_set {a : α} {rest : List α} {ls : List (List α)} {i : ℕ}
    (h : ls[i]? = some (a :: rest)) : ls.flatten.Perm (a :: (ls.set i rest).flatten) := by
  induction ls generalizing i with
  | nil => cases h
  | cons l ls ih =>
    cases i with
    | zero =>
      obtain rfl : l = a :: rest := Option.some_inj.mp h
      exact List.Perm.refl _
    | succ i =>
      rw [List.set_cons_succ, List.flatten_cons, List.flatten_cons]
      have h : ls[i]? = some (a :: rest) := h
      exact ((ih h).append_left l).trans List.perm_middle

/-- **Every log holds the entries of all parties**, each once. -/
theorem perm_of_interleave {schedule : List ℕ} : ∀ {ls : List (List α)} {l : List α},
    interleave ls schedule = some l → l.Perm ls.flatten := by
  induction schedule with
  | nil =>
    intro ls l h
    obtain ⟨hall, rfl⟩ := interleave_nil.mp h
    rw [List.flatten_eq_nil_iff.mpr hall]
  | cons i schedule ih =>
    intro ls l h
    obtain ⟨a, rest, l', hi, hl', rfl⟩ := interleave_cons.mp h
    exact ((ih hl').cons a).trans (perm_flatten_set hi).symm

/-- **What only one party contributes** is in the log in the order of its list. -/
theorem filterMap_interleave {β : Type} {f : α → Option β} {i : ℕ} {schedule : List ℕ} :
    ∀ {ls : List (List α)} {l : List α}, interleave ls schedule = some l →
      (∀ k l', ls[k]? = some l' → k ≠ i → l'.filterMap f = []) →
        l.filterMap f = ((ls[i]?).getD []).filterMap f := by
  induction schedule with
  | nil =>
    intro ls l h _
    obtain ⟨hall, rfl⟩ := interleave_nil.mp h
    cases hi : ls[i]? with
    | none => rfl
    | some l' => rw [Option.getD_some, hall l' (List.mem_of_getElem? hi)]
  | cons k schedule ih =>
    intro ls l h hother
    obtain ⟨a, rest, l', hk, hl', rfl⟩ := interleave_cons.mp h
    have hlt : k < ls.length := (List.getElem?_eq_some_iff.mp hk).1
    by_cases hki : k = i
    · subst hki
      have hrest := ih hl' fun k' l'' hk' hne => by
        rw [List.getElem?_set_ne (Ne.symm hne)] at hk'
        exact hother k' l'' hk' hne
      rw [List.getElem?_set_self hlt, Option.getD_some] at hrest
      rw [hk, Option.getD_some]
      cases ha : f a with
      | none => rw [List.filterMap_cons_none ha, List.filterMap_cons_none ha, hrest]
      | some b => rw [List.filterMap_cons_some ha, List.filterMap_cons_some ha, hrest]
    · have hnone := hother k _ hk hki
      have ha : f a = none := by
        rw [List.filterMap_eq_nil_iff] at hnone
        exact hnone a List.mem_cons_self
      have hrest := ih hl' fun k' l'' hk' hne => by
        by_cases hkk : k = k'
        · subst hkk
          rw [List.getElem?_set_self hlt] at hk'
          cases hk'
          rwa [List.filterMap_cons_none ha] at hnone
        · rw [List.getElem?_set_ne hkk] at hk'
          exact hother k' l'' hk' hne
      rw [List.getElem?_set_ne hki] at hrest
      rw [List.filterMap_cons_none ha, hrest]

/-- A party that has nothing left does not matter. -/
theorem interleave_nil_cons (ls : List (List α)) (schedule : List ℕ) :
    interleave ([] :: ls) (schedule.map (· + 1)) = interleave ls schedule := by
  induction schedule generalizing ls with
  | nil => rfl
  | cons i schedule ih =>
    rw [List.map_cons, interleave, interleave, List.getElem?_cons_succ]
    split
    · rw [List.set_cons_succ, ih]
    · rfl

/-- The first party runs alone. -/
theorem interleave_replicate_append (l : List α) (ls : List (List α)) (schedule : List ℕ) :
    interleave (l :: ls) (List.replicate l.length 0 ++ schedule) =
      (interleave ([] :: ls) schedule).map (l ++ ·) := by
  induction l with
  | nil => simp
  | cons a l ih =>
    rw [List.length_cons, List.replicate_succ, List.cons_append, interleave]
    show (interleave (l :: ls) (List.replicate l.length 0 ++ schedule)).map (a :: ·) = _
    rw [ih, Option.map_map]
    rfl

/-- **The parties may run one after the other.** -/
theorem exists_interleave_flatten (ls : List (List α)) :
    ∃ schedule, interleave ls schedule = some ls.flatten := by
  induction ls with
  | nil => exact ⟨[], rfl⟩
  | cons l ls ih =>
    obtain ⟨schedule, hschedule⟩ := ih
    refine ⟨List.replicate l.length 0 ++ schedule.map (· + 1), ?_⟩
    rw [interleave_replicate_append, interleave_nil_cons, hschedule, List.flatten_cons,
      Option.map_some]

end Interleaving
end BurstIoT
