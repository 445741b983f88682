import Mathlib.Data.List.Basic

/-!
# Cutting a list into runs

A loop that collects items and, on some items, closes what it has collected and starts afresh cuts
its input into runs.  Whether it cuts before an item is a function `cut` of the runs closed so far,
the open run and the item.

`runs cut l` lists the runs, each with the item that closed it.  The runs spell the list
(`flatMap_items_runs`), and the loop itself is connected to them by one rule, `foldl_runs`: an
invariant kept by closing and by extending holds of the final state and the runs of the input.
-/

namespace BurstIoT

/-- A run of items, and the item that follows it. -/
structure Run (α : Type) where
  items : List α
  next : Option α
  deriving DecidableEq, Repr

namespace Run

variable {α σ : Type}

/-- Cut a list into runs, given the runs closed so far and the open run. -/
def runsFrom (cut : List (Run α) → List α → α → Bool) :
    List (Run α) → List α → List α → List (Run α)
  | closed, run, [] => closed ++ [⟨run, none⟩]
  | closed, run, a :: rest =>
    if cut closed run a then runsFrom cut (closed ++ [⟨run, some a⟩]) [a] rest
    else runsFrom cut closed (run ++ [a]) rest

/-- Cut a list into runs. -/
def runs (cut : List (Run α) → List α → α → Bool) (l : List α) : List (Run α) :=
  runsFrom cut [] [] l

variable {cut : List (Run α) → List α → α → Bool}

/-- **The runs spell the list.** -/
theorem flatMap_items_runsFrom (l : List α) (closed : List (Run α)) (run : List α) :
    (runsFrom cut closed run l).flatMap items = closed.flatMap items ++ (run ++ l) := by
  induction l generalizing closed run with
  | nil => simp [runsFrom]
  | cons a rest ih =>
    rw [runsFrom]
    split_ifs
    · rw [ih]
      simp
    · rw [ih]
      simp

theorem flatMap_items_runs (l : List α) : (runs cut l).flatMap items = l := by
  rw [runs, flatMap_items_runsFrom]
  simp

/-- **The rule for the loop.**  `I closed run s` describes the state `s` of a loop that has closed
the runs `closed` and collected `run`.  If closing and extending keep it, for the items that satisfy
`Q`, it holds at the end of a list of such items, with the runs of the list. -/
theorem foldl_runsFrom {step : σ → α → σ} {I : List (Run α) → List α → σ → Prop} {Q : α → Prop}
    (hcut : ∀ closed run s a, Q a → I closed run s → cut closed run a = true →
      I (closed ++ [⟨run, some a⟩]) [a] (step s a))
    (hext : ∀ closed run s a, Q a → I closed run s → cut closed run a = false →
      I closed (run ++ [a]) (step s a)) (l : List α) (closed : List (Run α)) (run : List α) (s : σ)
    (hQ : ∀ a ∈ l, Q a) (h : I closed run s) :
    ∃ closed' run', I closed' run' (l.foldl step s) ∧
      runsFrom cut closed run l = closed' ++ [⟨run', none⟩] := by
  induction l generalizing closed run s with
  | nil => exact ⟨closed, run, h, rfl⟩
  | cons a rest ih =>
    have hrest : ∀ b ∈ rest, Q b := fun b hb => hQ b (List.mem_cons_of_mem a hb)
    have ha : Q a := hQ a List.mem_cons_self
    rw [List.foldl_cons, runsFrom]
    cases hc : cut closed run a with
    | true =>
      rw [if_pos rfl]
      exact ih _ _ _ hrest (hcut closed run s a ha h hc)
    | false =>
      rw [if_neg Bool.false_ne_true]
      exact ih _ _ _ hrest (hext closed run s a ha h hc)

theorem foldl_runs {step : σ → α → σ} {I : List (Run α) → List α → σ → Prop} {Q : α → Prop}
    (hcut : ∀ closed run s a, Q a → I closed run s → cut closed run a = true →
      I (closed ++ [⟨run, some a⟩]) [a] (step s a))
    (hext : ∀ closed run s a, Q a → I closed run s → cut closed run a = false →
      I closed (run ++ [a]) (step s a)) {s : σ} (h : I [] [] s) {l : List α}
    (hQ : ∀ a ∈ l, Q a) :
    ∃ closed run, I closed run (l.foldl step s) ∧ runs cut l = closed ++ [⟨run, none⟩] :=
  foldl_runsFrom hcut hext l [] [] s hQ h

/-! ## The shape of the runs -/

variable (cut) in
/-- The runs closed before are kept, and the open run is extended or closed. -/
theorem exists_runsFrom_eq (l : List α) (closed : List (Run α)) (run : List α) :
    ∃ r later, runsFrom cut closed run l = closed ++ r :: later ∧
      run ++ l.take 1 <+: r.items ++ r.next.toList ∧ run <+: r.items := by
  induction l generalizing closed run with
  | nil => exact ⟨⟨run, none⟩, [], rfl, List.prefix_rfl, List.prefix_rfl⟩
  | cons a rest ih =>
    rw [runsFrom]
    split_ifs
    · obtain ⟨r, later, heq, -⟩ := ih (closed ++ [⟨run, some a⟩]) [a]
      refine ⟨⟨run, some a⟩, r :: later, ?_, List.prefix_rfl, List.prefix_rfl⟩
      rw [heq, List.append_assoc]
      rfl
    · obtain ⟨r, later, heq, -, hpre⟩ := ih closed (run ++ [a])
      refine ⟨r, later, heq, ?_, (List.prefix_append run [a]).trans hpre⟩
      exact hpre.trans (List.prefix_append _ _)

/-- When nothing is cut off an empty run, no run is empty. -/
theorem items_ne_nil_of_mem_runsFrom (hcut : ∀ closed a, cut closed [] a = false)
    (l : List α) (closed : List (Run α)) (run : List α) (hclosed : ∀ r ∈ closed, r.items ≠ [])
    (hne : run ≠ [] ∨ l ≠ []) : ∀ r ∈ runsFrom cut closed run l, r.items ≠ [] := by
  induction l generalizing closed run with
  | nil =>
    intro r hr
    rw [runsFrom, List.mem_append, List.mem_singleton] at hr
    rcases hr with hr | rfl
    · exact hclosed r hr
    · exact hne.resolve_right fun h => h rfl
  | cons a rest ih =>
    rw [runsFrom]
    split_ifs with hc
    · refine ih _ [a] (fun r' hr' => ?_) (Or.inl (List.cons_ne_nil a []))
      rw [List.mem_append, List.mem_singleton] at hr'
      rcases hr' with hr' | rfl
      · exact hclosed r' hr'
      · rintro rfl
        rw [hcut] at hc
        exact Bool.false_ne_true hc
    · exact ih closed (run ++ [a]) hclosed (Or.inl (by simp))

theorem items_ne_nil_of_mem_runs (hcut : ∀ closed a, cut closed [] a = false) {l : List α}
    (hne : l ≠ []) : ∀ r ∈ runs cut l, r.items ≠ [] :=
  items_ne_nil_of_mem_runsFrom hcut l [] [] (fun _ hr => absurd hr List.not_mem_nil) (Or.inr hne)

/-- A run that an item has closed was cut off before that item. -/
theorem exists_cut_of_mem_runsFrom (l : List α) (closed : List (Run α)) (run : List α)
    (hclosed : ∀ r ∈ closed, ∀ a ∈ r.next, ∃ before, cut before r.items a = true) :
    ∀ r ∈ runsFrom cut closed run l, ∀ a ∈ r.next, ∃ before, cut before r.items a = true := by
  induction l generalizing closed run with
  | nil =>
    intro r hr
    rw [runsFrom, List.mem_append, List.mem_singleton] at hr
    rcases hr with hr | rfl
    · exact hclosed r hr
    · exact nofun
  | cons b rest ih =>
    rw [runsFrom]
    split_ifs with hc
    · refine ih _ _ fun r hr => ?_
      rw [List.mem_append, List.mem_singleton] at hr
      rcases hr with hr | rfl
      · exact hclosed r hr
      · intro a ha
        obtain rfl : b = a := Option.some_inj.mp ha
        exact ⟨closed, hc⟩
    · exact ih _ _ hclosed

theorem exists_cut_of_mem_runs {l : List α} {r : Run α} (hr : r ∈ runs cut l) :
    ∀ a ∈ r.next, ∃ before, cut before r.items a = true :=
  exists_cut_of_mem_runsFrom l [] [] nofun r hr

/-- Every item but the first of a run was let in when the run held the items before it. -/
def Grown (cut : List (Run α) → List α → α → Bool) (items : List α) : Prop :=
  ∀ before a after, items = before ++ a :: after → before ≠ [] →
    ∃ closed, cut closed before a = false

theorem grown_nil : Grown cut [] := by
  intro before a after h
  exact absurd h (by simp)

theorem grown_singleton (a : α) : Grown cut [a] := by
  intro before b after h hne
  have hlen := congrArg List.length h
  have hpos := List.length_pos_iff.mpr hne
  simp at hlen
  omega

theorem Grown.concat {closed : List (Run α)} {run : List α} {a : α} (h : Grown cut run)
    (hc : cut closed run a = false) : Grown cut (run ++ [a]) := by
  intro before b after heq hne
  rcases List.eq_nil_or_concat after with rfl | ⟨after, c, rfl⟩
  · obtain ⟨rfl, hb⟩ := List.append_inj' heq rfl
    obtain rfl : a = b := by simpa using hb
    exact ⟨closed, hc⟩
  · have heq' : run ++ [a] = before ++ b :: after ++ [c] := by simpa using heq
    exact h before b after (List.append_inj' heq' rfl).1 hne

theorem grown_of_mem_runsFrom (l : List α) (closed : List (Run α)) (run : List α)
    (hclosed : ∀ r ∈ closed, Grown cut r.items) (hrun : Grown cut run) :
    ∀ r ∈ runsFrom cut closed run l, Grown cut r.items := by
  induction l generalizing closed run with
  | nil => exact List.forall_mem_append.mpr ⟨hclosed, List.forall_mem_singleton.mpr hrun⟩
  | cons a rest ih =>
    rw [runsFrom]
    split_ifs with hc
    · exact ih _ _ (List.forall_mem_append.mpr ⟨hclosed, List.forall_mem_singleton.mpr hrun⟩)
        (grown_singleton a)
    · exact ih _ _ hclosed (hrun.concat (Bool.eq_false_iff.mpr hc))

theorem grown_of_mem_runs {l : List α} {r : Run α} (hr : r ∈ runs cut l) : Grown cut r.items :=
  grown_of_mem_runsFrom l [] [] nofun grown_nil r hr

variable (cut) in
/-- There is always a last run, with nothing after it. -/
theorem exists_runsFrom_eq_concat (l : List α) (closed : List (Run α)) (run : List α) :
    ∃ closed' run', runsFrom cut closed run l = closed' ++ [⟨run', none⟩] := by
  induction l generalizing closed run with
  | nil => exact ⟨closed, run, rfl⟩
  | cons a rest ih =>
    rw [runsFrom]
    split_ifs
    · exact ih _ _
    · exact ih _ _

variable (cut) in
/-- A run is a contiguous part of the list. -/
theorem infix_of_mem_runs {l : List α} {r : Run α} (hr : r ∈ runs cut l) : r.items <:+: l := by
  have h : r.items <:+: ((runs cut l).map items).flatten :=
    List.infix_of_mem_flatten (List.mem_map_of_mem hr)
  rwa [← List.flatMap_def, flatMap_items_runs] at h

variable (cut) in
/-- The item that follows a run is an item of the list. -/
theorem next_mem_of_mem_runsFrom (l : List α) (closed : List (Run α)) (run : List α)
    {r : Run α} (hr : r ∈ runsFrom cut closed run l) (hnew : r ∉ closed) : ∀ a ∈ r.next, a ∈ l := by
  induction l generalizing closed run with
  | nil =>
    intro a ha
    rw [runsFrom, List.mem_append, List.mem_singleton] at hr
    rcases hr with hr | rfl
    · exact absurd hr hnew
    · cases ha
  | cons b rest ih =>
    intro a ha
    rw [runsFrom] at hr
    split_ifs at hr
    · by_cases hclosed : r ∈ closed ++ [⟨run, some b⟩]
      · rw [List.mem_append, List.mem_singleton] at hclosed
        obtain rfl := hclosed.resolve_left hnew
        obtain rfl : b = a := Option.some_inj.mp ha
        exact List.mem_cons_self
      · exact List.mem_cons_of_mem b (ih _ _ hr hclosed a ha)
    · exact List.mem_cons_of_mem b (ih _ _ hr hnew a ha)

variable (cut) in
theorem next_mem_of_mem_runs {l : List α} {r : Run α} (hr : r ∈ runs cut l) :
    ∀ a ∈ r.next, a ∈ l :=
  next_mem_of_mem_runsFrom cut l [] [] hr List.not_mem_nil

end Run

end BurstIoT
