import Mathlib.Algebra.BigOperators.Group.List.Basic
import Mathlib.Algebra.GroupWithZero.Nat
import Mathlib.Data.List.Forall2
import Mathlib.Data.List.Perm.Basic

/-!
# A pool of tasks

The tasks of a pool are a list, and the task that moves is replaced in it (`List.set`).  What is
known of every task by itself is a relation between the tasks and a list of plans, entry by entry;
what is known of all of them is a sum over the tasks, or the plans put together.  Here is what one
move changes of each.
-/

namespace BurstIoT
namespace TaskPool

variable {α β : Type} {R : α → β → Prop} {tasks : List α} {plans : List β} {i : ℕ} {a : α}

/-- The plan of the task that moves. -/
theorem exists_plan (h : List.Forall₂ R tasks plans) (hi : tasks[i]? = some a) :
    ∃ b, plans[i]? = some b ∧ R a b := by
  induction h generalizing i with
  | nil => cases hi
  | cons hab _ ih =>
    cases i with
    | zero =>
      cases hi
      exact ⟨_, rfl, hab⟩
    | succ i => exact ih hi

/-- The other tasks keep their plans. -/
theorem forall₂_set {a' : α} {b' : β} (h : List.Forall₂ R tasks plans) (hab : R a' b') :
    List.Forall₂ R (tasks.set i a') (plans.set i b') := by
  induction h generalizing i with
  | nil => exact .nil
  | cons hfirst hrest ih =>
    cases i with
    | zero => exact .cons hab hrest
    | succ i => exact .cons hfirst ih

/-- **A task has done the first part of its plan.** -/
theorem perm_flatten_set {lists : List (List β)} {done rest : List β}
    (hi : lists[i]? = some (done ++ rest)) :
    lists.flatten.Perm (done ++ (lists.set i rest).flatten) := by
  induction lists generalizing i with
  | nil => cases hi
  | cons l lists ih =>
    cases i with
    | zero =>
      obtain rfl : l = done ++ rest := Option.some_inj.mp hi
      rw [List.flatten_cons, List.set_cons_zero, List.flatten_cons, List.append_assoc]
    | succ i =>
      rw [List.set_cons_succ, List.flatten_cons, List.flatten_cons]
      have hrest : lists.flatten.Perm (done ++ (lists.set i rest).flatten) := ih hi
      refine (hrest.append_left l).trans ?_
      rw [← List.append_assoc, ← List.append_assoc]
      exact List.perm_append_comm.append_right _

/-- **One summand changes.** -/
theorem sum_map_set (f : α → ℕ) (hi : tasks[i]? = some a) (a' : α) :
    ((tasks.set i a').map f).sum + f a = (tasks.map f).sum + f a' := by
  induction tasks generalizing i with
  | nil => cases hi
  | cons b tasks ih =>
    cases i with
    | zero =>
      cases hi
      rw [List.set_cons_zero, List.map_cons, List.map_cons, List.sum_cons, List.sum_cons]
      rw [Nat.add_comm (f a'), Nat.add_right_comm, Nat.add_comm _ (f a)]
    | succ i =>
      have hrest := ih hi
      rw [List.set_cons_succ, List.map_cons, List.map_cons, List.sum_cons, List.sum_cons,
        Nat.add_assoc, hrest, Nat.add_assoc]

/-- How many tasks have a property. -/
theorem countP_set (p : α → Bool) (hi : tasks[i]? = some a) (a' : α) :
    (tasks.set i a').countP p + (if p a then 1 else 0) =
      tasks.countP p + if p a' then 1 else 0 := by
  obtain ⟨hlt, rfl⟩ := List.getElem?_eq_some_iff.mp hi
  have hpos : p tasks[i] = true → 0 < tasks.countP p := fun h =>
    List.countP_pos_iff.mpr ⟨tasks[i], List.getElem_mem hlt, h⟩
  rw [List.countP_set hlt]
  split_ifs with hp
  · have := hpos hp
    omega
  · have := hpos hp
    omega
  · rfl
  · rfl

end TaskPool
end BurstIoT
