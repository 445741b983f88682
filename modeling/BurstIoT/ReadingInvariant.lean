import BurstIoT.ReadingMoves

/-!
# What holds while the files are read

For each file, the tasks that the reader has started, those that have finished, the `done()` calls
of the reader and the counter are tied together (`Inv.counters`, `Inv.vecs`).  A run without a
misuse keeps the invariant, from either start (`inv_of_reachable`).
-/

namespace BurstIoT
namespace RawReading

open StepSystem

variable {α β : Type}

/-! ## The progress of the reader -/

section Progress

variable (files : List (RawFile α))

/-- How many tasks of file `i` the reader has started. -/
def startedOf : ReaderPhase → ℕ → ℕ
  | .file k, i => if i < k then (chunksOf files i).length else 0
  | .splitting k, i => if i < k then (chunksOf files i).length else 0
  | .start k started, i =>
    if i < k then (chunksOf files i).length else if i = k then started else 0
  | .fill k _, i => if i ≤ k then (chunksOf files i).length else 0
  | .waitGc, i => (chunksOf files i).length
  | .sorted, i => (chunksOf files i).length
  | .failed k _, i => if i < k then (chunksOf files i).length else 0

/-- How many `done()` calls for file `i` the reader has made. -/
def callsOf : ReaderPhase → ℕ → ℕ
  | .file k, i => if i < k then fillsOf files i else 0
  | .splitting k, i => if i < k then fillsOf files i else 0
  | .start k _, i => if i < k then fillsOf files i else 0
  | .fill k calls, i => if i < k then fillsOf files i else if i = k then calls else 0
  | .waitGc, i => fillsOf files i
  | .sorted, i => fillsOf files i
  | .failed k _, i => if i < k then fillsOf files i else 0

/-- How many entries of `rawPacketVec` the reader has set. -/
def loadedTo : ReaderPhase → ℕ
  | .file k => k
  | .splitting k => k + 1
  | .start k _ => k + 1
  | .fill k _ => k + 1
  | .waitGc => files.length
  | .sorted => files.length
  | .failed k _ => k

/-- The reader is within its loops. -/
def ReaderOk : ReaderPhase → Prop
  | .file k => k ≤ files.length
  | .start k started => k < files.length ∧ started ≤ (chunksOf files k).length
  | .fill k calls => k < files.length ∧ calls ≤ fillsOf files k
  | _ => True

variable {files}

theorem chunksOf_of_le {i : ℕ} (h : files.length ≤ i) : chunksOf files i = [] := by
  rw [chunksOf, List.getElem?_eq_none h]

theorem fillsOf_of_le {i : ℕ} (h : files.length ≤ i) : fillsOf files i = 0 := by
  rw [fillsOf, List.getElem?_eq_none h]

theorem startedOf_le {reader : ReaderPhase} (h : ReaderOk files reader) (i : ℕ) :
    startedOf files reader i ≤ (chunksOf files i).length := by
  cases reader with
  | start k started =>
    rw [startedOf]
    split_ifs with hlt heq
    · exact Nat.le_refl _
    · rw [heq]
      exact h.2
    · exact Nat.zero_le _
  | waitGc => exact Nat.le_refl _
  | sorted => exact Nat.le_refl _
  | _ =>
    rw [startedOf]
    split_ifs <;> omega

theorem callsOf_le {reader : ReaderPhase} (h : ReaderOk files reader) (i : ℕ) :
    callsOf files reader i ≤ fillsOf files i := by
  cases reader with
  | fill k calls =>
    rw [callsOf]
    split_ifs with hlt heq
    · exact Nat.le_refl _
    · rw [heq]
      exact h.2
    · exact Nat.zero_le _
  | waitGc => exact Nat.le_refl _
  | sorted => exact Nat.le_refl _
  | _ =>
    rw [callsOf]
    split_ifs <;> omega

/-- The reader sets the entry of a file before it does anything else with the file. -/
theorem lt_loadedTo {reader : ReaderPhase} {i : ℕ} (hi : i < files.length)
    (h : 0 < startedOf files reader i + callsOf files reader i) : i < loadedTo files reader := by
  cases reader with
  | waitGc => exact hi
  | sorted => exact hi
  | _ =>
    rw [startedOf, callsOf] at h
    rw [loadedTo]
    split_ifs at h <;> omega

/-- With at most `STORE_MULTITHREAD` chunks, tasks and calls make up no more. -/
theorem chunks_add_fills_le {i : ℕ} (h : (chunksOf files i).length ≤ storeMultithread) :
    (chunksOf files i).length + fillsOf files i ≤ storeMultithread := by
  cases hfile : files[i]? with
  | none =>
    rw [chunksOf, fillsOf, hfile]
    exact Nat.zero_le _
  | some file =>
    cases file with
    | packets rawVec =>
      have hfills : fillsOf files i = SplitVector.fillers (chunksOf files i).length := by
        rw [fillsOf, hfile]
        cases rawVec with
        | nil =>
          rw [chunksOf, hfile]
          rfl
        | cons p rawVec => rfl
      rw [hfills]
      exact Nat.le_of_eq (SplitVector.fillers_of_le h)
    | noReader =>
      rw [chunksOf, fillsOf, hfile]
      exact Nat.zero_le _
    | notOpened =>
      rw [chunksOf, fillsOf, hfile]
      exact Nat.zero_le _

/-! The reader goes from one phase to the next with the same tasks started and the same calls made. -/

theorem startedOf_length (k : ℕ) :
    startedOf files .waitGc k = startedOf files (.file files.length) k := by
  rw [startedOf, startedOf]
  split_ifs with hk
  · rfl
  · rw [chunksOf_of_le (Nat.not_lt.mp hk), List.length_nil]

theorem callsOf_length (k : ℕ) :
    callsOf files .waitGc k = callsOf files (.file files.length) k := by
  rw [callsOf, callsOf]
  split_ifs with hk
  · rfl
  · exact fillsOf_of_le (Nat.not_lt.mp hk)

theorem startedOf_allStarted (i k : ℕ) :
    startedOf files (.fill i 0) k = startedOf files (.start i (chunksOf files i).length) k := by
  rw [startedOf, startedOf]
  rcases lt_trichotomy k i with hlt | rfl | hgt
  · rw [if_pos hlt.le, if_pos hlt]
  · rw [if_pos (le_refl k), if_neg (lt_irrefl k), if_pos rfl]
  · rw [if_neg (Nat.not_le.mpr hgt), if_neg hgt.not_gt, if_neg hgt.ne']

theorem startedOf_start_zero (i k : ℕ) :
    startedOf files (.start i 0) k = startedOf files (.file i) k := by
  rw [startedOf, startedOf, ite_self]

theorem callsOf_fill_zero (i k : ℕ) : callsOf files (.fill i 0) k = callsOf files (.file i) k := by
  rw [callsOf, callsOf, ite_self]

theorem startedOf_next (i calls k : ℕ) :
    startedOf files (.file (i + 1)) k = startedOf files (.fill i calls) k := by
  rw [startedOf, startedOf]
  simp only [Nat.lt_succ_iff]

theorem callsOf_allFilled (i k : ℕ) :
    callsOf files (.file (i + 1)) k = callsOf files (.fill i (fillsOf files i)) k := by
  rw [callsOf, callsOf]
  rcases lt_trichotomy k i with hlt | rfl | hgt
  · rw [if_pos (Nat.lt_succ_of_lt hlt), if_pos hlt]
  · rw [if_pos (Nat.lt_succ_self k), if_neg (lt_irrefl k), if_pos rfl]
  · rw [if_neg (by omega), if_neg hgt.not_gt, if_neg hgt.ne']

end Progress

/-! ## The tasks of a file -/

/-- The tasks of file `i`, in the order of their start. -/
def tasksOf (tasks : List (StoreTask α β)) (i : ℕ) : List (StoreTask α β) :=
  tasks.filter fun t => t.index == i

/-- How many tasks of file `i` have finished. -/
def finishedOf (tasks : List (StoreTask α β)) (i : ℕ) : ℕ :=
  (tasksOf tasks i).countP StoreTask.finished

theorem finishedOf_le (tasks : List (StoreTask α β)) (i : ℕ) :
    finishedOf tasks i ≤ (tasksOf tasks i).length :=
  List.countP_le_length

theorem tasksOf_append (tasks : List (StoreTask α β)) (t : StoreTask α β) (i : ℕ) :
    tasksOf (tasks ++ [t]) i = tasksOf tasks i ++ if t.index = i then [t] else [] := by
  rw [tasksOf, List.filter_append, ← tasksOf, List.filter_cons, List.filter_nil]
  by_cases h : t.index = i <;> simp [h]

theorem finishedOf_cons (u : StoreTask α β) (tasks : List (StoreTask α β)) (i : ℕ) :
    finishedOf (u :: tasks) i = finishedOf [u] i + finishedOf tasks i := by
  rw [finishedOf, finishedOf, finishedOf, tasksOf, tasksOf, tasksOf, ← List.countP_append,
    ← List.filter_append, List.singleton_append]

theorem finishedOf_append (tasks : List (StoreTask α β)) (t : StoreTask α β) (i : ℕ) :
    finishedOf (tasks ++ [t]) i = finishedOf tasks i + finishedOf [t] i := by
  rw [finishedOf, finishedOf, finishedOf, tasksOf, tasksOf, tasksOf, ← List.countP_append,
    ← List.filter_append]

/-- A task that has not finished does not count. -/
theorem finishedOf_running {t : StoreTask α β} (h : t.finished = false) (i : ℕ) :
    finishedOf [t] i = 0 := by
  rw [finishedOf, List.countP_eq_zero]
  intro u hu
  rw [List.mem_singleton.mp (List.mem_of_mem_filter hu), h]
  exact Bool.false_ne_true

theorem finishedOf_ended {t : StoreTask α β} (h : t.finished = true) (i : ℕ) :
    finishedOf [t] i = if t.index = i then 1 else 0 := by
  rw [finishedOf, tasksOf, List.filter_cons, List.filter_nil]
  by_cases heq : t.index = i
  · rw [if_pos heq, if_pos (beq_iff_eq.mpr heq), List.countP_singleton, h, if_pos rfl]
  · rw [if_neg heq, if_neg (mt beq_iff_eq.mp heq), List.countP_nil]

/-- A move of a task keeps its file and its packets. -/
theorem tasksOf_set_rawVec {t : StoreTask α β} (t' : StoreTask α β) (hindex : t'.index = t.index)
    (hvec : t'.rawVec = t.rawVec) (i : ℕ) (tasks : List (StoreTask α β)) (j : ℕ)
    (h : tasks[j]? = some t) :
    (tasksOf (tasks.set j t') i).map StoreTask.rawVec =
      (tasksOf tasks i).map StoreTask.rawVec := by
  induction tasks generalizing j with
  | nil => cases h
  | cons u tasks ih =>
    cases j with
    | zero =>
      obtain rfl : u = t := Option.some_inj.mp h
      simp only [tasksOf, List.set_cons_zero, List.filter_cons, hindex]
      split_ifs <;> simp [hvec]
    | succ j =>
      have ih := ih j h
      simp only [tasksOf, List.set_cons_succ, List.filter_cons] at ih ⊢
      split_ifs
      · rw [List.map_cons, List.map_cons, ih]
      · exact ih

/-- A move of a task changes the number of finished tasks by what it does itself. -/
theorem finishedOf_set {t : StoreTask α β} (t' : StoreTask α β) (i : ℕ)
    (tasks : List (StoreTask α β)) (j : ℕ) (h : tasks[j]? = some t) :
    finishedOf (tasks.set j t') i + finishedOf [t] i = finishedOf tasks i + finishedOf [t'] i := by
  induction tasks generalizing j with
  | nil => cases h
  | cons u tasks ih =>
    cases j with
    | zero =>
      obtain rfl : u = t := Option.some_inj.mp h
      rw [List.set_cons_zero, finishedOf_cons t' tasks, finishedOf_cons u tasks]
      omega
    | succ j =>
      have ih := ih j h
      rw [List.set_cons_succ, finishedOf_cons u (tasks.set j t'), finishedOf_cons u tasks]
      omega

/-! ## The progress of the garbage collection -/

section Collection

variable (files : List (RawFile α))

/-- How many counters stand in `storeCounter`. -/
def standing : GcPhase → ℕ
  | .done => 0
  | .finished => 0
  | gc => pushed files gc

/-- How many counters have been waited for. -/
def passedTo : GcPhase → ℕ
  | .assign => 0
  | .push _ => 0
  | .wait i => i
  | .clear i => i + 1
  | _ => files.length

/-- How many entries of `rawPacketVec` have been cleared. -/
def clearedTo : GcPhase → ℕ
  | .assign => 0
  | .push _ => 0
  | .wait i => i
  | .clear i => i
  | _ => files.length

/-- How many counters have been deleted. -/
def deletedTo : GcPhase → ℕ
  | .delete i => i
  | .drop => files.length
  | _ => 0

/-- The count of `gcTask`. -/
def gcCount : GcPhase → Option ℤ
  | .assign => none
  | .finished => some 0
  | _ => some 1

/-- `GarbageCollection` is within its loops. -/
def GcOk : GcPhase → Prop
  | .push i => i ≤ files.length
  | .wait i => i ≤ files.length
  | .clear i => i < files.length
  | .delete i => i ≤ files.length
  | _ => True

/-- The counter of file `i` once `work` tasks and calls are done. -/
def counterAt (gc : GcPhase) (work i : ℕ) : Option (Option ℤ) :=
  if i < standing files gc then
    if i < deletedTo files gc then some none else some (some ((storeMultithread : ℤ) - work))
  else none

/-- The packets of file `i`. -/
def rawVecAt (gc : GcPhase) (reader : ReaderPhase) (i : ℕ) : RawVec :=
  if i < clearedTo files gc then .cleared
  else if i < loadedTo files reader then .loaded
  else .null

/-- The tasks of file `i` that have finished, and the calls for it that the reader has made. -/
def workOf (s : State α β) (i : ℕ) : ℕ :=
  finishedOf s.tasks i + callsOf files s.reader i

/-- **The invariant of the reading**, for runs without a misuse. -/
structure Inv (s : State α β) : Prop where
  reader : ReaderOk files s.reader
  gc : GcOk files s.gc
  gcTask : s.gcTask = gcCount s.gc
  sorted : s.reader = .sorted → s.gc = .finished
  rawVecs : ∀ i < files.length, s.rawPacketVec[i]? = some (rawVecAt files s.gc s.reader i)
  counters : ∀ i, s.storeCounter[i]? = counterAt files s.gc (workOf files s i) i
  fresh : ∀ i, pushed files s.gc ≤ i → workOf files s i = 0
  passed : ∀ i < passedTo files s.gc, storeMultithread ≤ workOf files s i
  vecs : ∀ i, (tasksOf s.tasks i).map StoreTask.rawVec =
    (chunksOf files i).take (startedOf files s.reader i)
  quiet : ∀ t ∈ s.tasks, t.finished = true → t.ahead = [] ∧ t.appends = []

variable {files}

theorem inv_started : Inv files (started files : State α β) where
  reader := Nat.zero_le _
  gc := trivial
  gcTask := rfl
  sorted := by rintro ⟨⟩
  rawVecs i hi := List.getElem?_replicate_of_lt hi
  counters i := rfl
  fresh i _ := by
    show 0 + callsOf files (.file 0) i = 0
    rw [callsOf, if_neg (Nat.not_lt_zero i)]
  passed i hi := absurd hi (Nat.not_lt_zero i)
  vecs i := by
    show [] = (chunksOf files i).take (startedOf files (.file 0) i)
    rw [startedOf, if_neg (Nat.not_lt_zero i), List.take_zero]
  quiet := by rintro t ⟨⟩

theorem workOf_countersMade (i : ℕ) : workOf files (countersMade files : State α β) i = 0 := by
  show 0 + callsOf files (.file 0) i = 0
  rw [callsOf, if_neg (Nat.not_lt_zero i)]

theorem inv_countersMade : Inv files (countersMade files : State α β) where
  reader := Nat.zero_le _
  gc := Nat.zero_le _
  gcTask := rfl
  sorted := by rintro ⟨⟩
  rawVecs i hi := List.getElem?_replicate_of_lt hi
  counters i := by
    rw [workOf_countersMade]
    exact List.getElem?_replicate
  fresh i _ := workOf_countersMade i
  passed i hi := absurd hi (Nat.not_lt_zero i)
  vecs i := (inv_started (β := β)).vecs i
  quiet := by rintro t ⟨⟩

theorem Inv.length_storeCounter {s : State α β} (h : Inv files s) :
    s.storeCounter.length = standing files s.gc := by
  have hiff : ∀ i, s.storeCounter.length ≤ i ↔ standing files s.gc ≤ i := by
    intro i
    rw [← List.getElem?_eq_none_iff, h.counters, counterAt]
    split_ifs with hstand hdel <;> simp <;> omega
  exact Nat.le_antisymm ((hiff _).mpr (Nat.le_refl _)) ((hiff _).mp (Nat.le_refl _))

/-- A counter that stands counts the tasks and calls that are left. -/
theorem Inv.count_eq {s : State α β} (h : Inv files s) {i : ℕ} {count : ℤ}
    (hi : s.storeCounter[i]? = some (some count)) :
    count = (storeMultithread : ℤ) - workOf files s i := by
  rw [h.counters, counterAt] at hi
  split_ifs at hi
  · cases hi
  · exact (Option.some_inj.mp (Option.some_inj.mp hi)).symm

theorem standing_le (gc : GcPhase) : standing files gc ≤ pushed files gc := by
  cases gc <;> exact by first | exact Nat.le_refl _ | exact Nat.zero_le _

/-- A counter that stands, or stood, has been pushed. -/
theorem Inv.lt_pushed {s : State α β} (h : Inv files s) {i : ℕ} {counter : Option ℤ}
    (hi : s.storeCounter[i]? = some counter) : i < pushed files s.gc := by
  have hlt : i < s.storeCounter.length := (List.getElem?_eq_some_iff.mp hi).1
  rw [h.length_storeCounter] at hlt
  exact Nat.lt_of_lt_of_le hlt (standing_le s.gc)

theorem Inv.le_work {s : State α β} (h : Inv files s) {i : ℕ} {count : ℤ}
    (hi : s.storeCounter[i]? = some (some count)) (hzero : count ≤ 0) :
    storeMultithread ≤ workOf files s i := by
  have hleft := h.count_eq hi
  omega

/-! ## The moves of the garbage collection -/

theorem counterAt_push (i work k : ℕ) : counterAt files (.push i) work k =
    if k < i then some (some ((storeMultithread : ℤ) - work)) else none := by
  show (if k < i then if k < 0 then some none else _ else none) = _
  rw [if_neg (Nat.not_lt_zero k)]

theorem counterAt_delete (i work k : ℕ) : counterAt files (.delete i) work k =
    if k < files.length then
      if k < i then some none else some (some ((storeMultithread : ℤ) - work))
    else none :=
  rfl

theorem rawVecAt_wait (reader : ReaderPhase) (i k : ℕ) : rawVecAt files (.wait i) reader k =
    if k < i then .cleared else if k < loadedTo files reader then .loaded else .null :=
  rfl

/-- A pushed counter counts from `STORE_MULTITHREAD`. -/
theorem counters_push {storeCounter : List (Option ℤ)} {work : ℕ → ℕ} {i : ℕ}
    (hlen : storeCounter.length = i) (hfresh : work i = 0)
    (h : ∀ k, storeCounter[k]? = counterAt files (.push i) (work k) k) (k : ℕ) :
    (storeCounter ++ [some (storeMultithread : ℤ)])[k]? =
      counterAt files (.push (i + 1)) (work k) k := by
  rw [counterAt_push]
  rcases Nat.lt_trichotomy k i with hk | rfl | hk
  · rw [List.getElem?_append_left (hlen ▸ hk), h k, counterAt_push, if_pos hk, if_pos (by omega)]
  · rw [← hlen, List.getElem?_concat_length, hlen, if_pos (Nat.lt_succ_self k), hfresh,
      Int.natCast_zero, Int.sub_zero]
  · rw [List.getElem?_eq_none (by rw [List.length_append, hlen, List.length_singleton]; omega),
      if_neg (by omega)]

theorem counters_delete {storeCounter : List (Option ℤ)} {work : ℕ → ℕ} {i : ℕ}
    (hi : i < files.length) (hlen : storeCounter.length = files.length)
    (h : ∀ k, storeCounter[k]? = counterAt files (.delete i) (work k) k) (k : ℕ) :
    (storeCounter.set i none)[k]? = counterAt files (.delete (i + 1)) (work k) k := by
  rw [counterAt_delete]
  by_cases heq : i = k
  · rw [← heq, List.getElem?_set_self (hlen ▸ hi), if_pos hi, if_pos (Nat.lt_succ_self i)]
  · rw [List.getElem?_set_ne heq, h k, counterAt_delete]
    split_ifs <;> first | rfl | omega

theorem rawVecs_clear {rawPacketVec : List RawVec} {reader : ReaderPhase} {i : ℕ}
    (h : ∀ k < files.length, rawPacketVec[k]? = some (rawVecAt files (.clear i) reader k)) {k : ℕ}
    (hk : k < files.length) :
    (rawPacketVec.set i .cleared)[k]? = some (rawVecAt files (.wait (i + 1)) reader k) := by
  have hold : _ = some (rawVecAt files (.wait i) reader k) := h k hk
  have hlen : k < rawPacketVec.length := (List.getElem?_eq_some_iff.mp hold).1
  rw [rawVecAt_wait]
  by_cases heq : i = k
  · rw [← heq, List.getElem?_set_self (heq ▸ hlen), if_pos (Nat.lt_succ_self i)]
  · rw [List.getElem?_set_ne heq, hold, rawVecAt_wait]
    split_ifs <;> first | rfl | omega

/-- A move of `GarbageCollection` keeps the invariant. -/
theorem Inv.afterGc {s s' : State α β} (h : Inv files s) (hmove : GcMove files s s')
    (hok : s'.misuse = none) : Inv files s' := by
  obtain ⟨rawPacketVec, storeCounter, gcTask, gc, reader, tasks, dataset, misuse⟩ := s
  cases hmove with
  | assign hgc =>
    cases hgc
    exact { h with gc := Nat.zero_le _, gcTask := rfl, sorted := fun hr => nomatch h.sorted hr }
  | @push i hgc hi =>
    cases hgc
    exact { h with
      gc := hi
      sorted := fun hr => nomatch h.sorted hr
      counters := counters_push h.length_storeCounter (h.fresh i (Nat.le_refl i)) h.counters
      fresh := fun k hk => h.fresh k (Nat.le_of_succ_le hk) }
  | allPushed hgc hi =>
    cases hgc
    obtain rfl := Nat.le_antisymm h.gc (Nat.not_lt.mp hi)
    exact { h with gc := Nat.zero_le _, sorted := fun hr => nomatch h.sorted hr }
  | wait hgc hi hcounter hcount =>
    cases hgc
    refine { h with
      gc := hi
      sorted := fun hr => nomatch h.sorted hr
      passed := fun k hk => ?_ }
    rcases Nat.lt_succ_iff_lt_or_eq.mp hk with hk | rfl
    · exact h.passed k hk
    · exact h.le_work hcounter hcount
  | allWaited hgc hi =>
    cases hgc
    obtain rfl := Nat.le_antisymm h.gc (Nat.not_lt.mp hi)
    exact { h with gc := Nat.zero_le _, sorted := fun hr => nomatch h.sorted hr }
  | clear hgc hloaded =>
    cases hgc
    exact { h with
      gc := h.gc
      sorted := fun hr => nomatch h.sorted hr
      rawVecs := fun _ => rawVecs_clear h.rawVecs }
  | notLoaded hgc hloaded => cases hok
  | delete hgc hi =>
    cases hgc
    exact { h with
      gc := hi
      sorted := fun hr => nomatch h.sorted hr
      counters := counters_delete hi h.length_storeCounter h.counters }
  | allDeleted hgc hi =>
    cases hgc
    obtain rfl := Nat.le_antisymm h.gc (Nat.not_lt.mp hi)
    exact { h with gc := trivial, sorted := fun hr => nomatch h.sorted hr }
  | drop hgc =>
    cases hgc
    exact { h with
      gc := trivial
      sorted := fun hr => nomatch h.sorted hr
      counters := fun _ => rfl }
  | finish hgc =>
    cases hgc
    exact { h with
      gc := trivial
      gcTask := congrArg (Option.map (· - 1)) h.gcTask
      sorted := fun _ => rfl
      counters := fun k => h.counters k }

/-! ## The moves of the reader and of the tasks -/

/-- A call of `done()` that is no misuse finds its counter. -/
theorem exists_count {s : State α β} {i : ℕ} (hok : (done files s i).misuse = none) :
    ∃ count : ℤ, s.storeCounter[i]? = some (some count) ∧
      done files s i = { s with storeCounter := s.storeCounter.set i (some (count - 1)) } := by
  rw [done] at hok ⊢
  split at hok
  · rename_i count hcount
    exact ⟨count, hcount, rfl⟩
  · cases hok

theorem counters_done {storeCounter : List (Option ℤ)} {gc : GcPhase} {work work' : ℕ → ℕ}
    {i : ℕ} {count : ℤ} (hi : storeCounter[i]? = some (some count))
    (hwork : ∀ k, work' k = work k + if i = k then 1 else 0)
    (h : ∀ k, storeCounter[k]? = counterAt files gc (work k) k) (k : ℕ) :
    (storeCounter.set i (some (count - 1)))[k]? = counterAt files gc (work' k) k := by
  have hlt : i < storeCounter.length := (List.getElem?_eq_some_iff.mp hi).1
  rw [hwork k]
  by_cases heq : i = k
  · subst heq
    have hold := h i
    rw [List.getElem?_set_self hlt, if_pos rfl]
    rw [hi, counterAt] at hold
    rw [counterAt]
    split_ifs at hold ⊢
    · cases hold
    · have hcount := Option.some_inj.mp (Option.some_inj.mp hold)
      rw [hcount, Int.natCast_add, Int.natCast_one, Int.sub_sub]
  · rw [List.getElem?_set_ne heq, if_neg heq, h k, Nat.add_zero]

/-- **A call of `done()`** after a move of the reader or of a task keeps the invariant. -/
theorem Inv.afterDone {s : State α β} (h : Inv files s) {reader : ReaderPhase}
    {tasks : List (StoreTask α β)} {i : ℕ} (hreader : ReaderOk files reader)
    (hsorted : reader = .sorted → s.gc = .finished)
    (hloaded : loadedTo files reader = loadedTo files s.reader)
    (htasks : ∀ k, (tasksOf tasks k).map StoreTask.rawVec =
      (chunksOf files k).take (startedOf files reader k))
    (hquiet : ∀ t ∈ tasks, t.finished = true → t.ahead = [] ∧ t.appends = [])
    (hwork : ∀ k, finishedOf tasks k + callsOf files reader k =
      workOf files s k + if i = k then 1 else 0)
    (hok : (done files { s with reader := reader, tasks := tasks } i).misuse = none) :
    Inv files (done files { s with reader := reader, tasks := tasks } i) := by
  obtain ⟨count, hcount, heq⟩ := exists_count hok
  have hi : s.storeCounter[i]? = some (some count) := hcount
  rw [heq]
  exact { h with
    reader := hreader
    sorted := hsorted
    rawVecs := fun k hk => by
      rw [h.rawVecs k hk, rawVecAt, rawVecAt]
      dsimp only
      rw [hloaded]
    counters := counters_done hi hwork h.counters
    fresh := fun k hk => by
      have hne : i ≠ k := fun heq => absurd (h.lt_pushed hi) (Nat.not_lt.mpr (heq ▸ hk))
      show finishedOf tasks k + callsOf files reader k = 0
      rw [hwork, if_neg hne, h.fresh k hk]
    passed := fun k hk => by
      show _ ≤ finishedOf tasks k + callsOf files reader k
      rw [hwork]
      exact Nat.le_add_right_of_le (h.passed k hk)
    vecs := htasks
    quiet := hquiet }

/-- A move of the reader between two files, or between its two loops over one, neither starts a task
nor calls `done()`. -/
theorem Inv.move {s : State α β} (h : Inv files s) {reader : ReaderPhase}
    {rawPacketVec : List RawVec} (hreader : ReaderOk files reader)
    (hsorted : reader = .sorted → s.gc = .finished)
    (hvecs : ∀ k < files.length, rawPacketVec[k]? = some (rawVecAt files s.gc reader k))
    (hstarted : ∀ k, startedOf files reader k = startedOf files s.reader k)
    (hcalls : ∀ k, callsOf files reader k = callsOf files s.reader k) :
    Inv files { s with reader := reader, rawPacketVec := rawPacketVec } := by
  have hwork : ∀ k, workOf files { s with reader := reader, rawPacketVec := rawPacketVec } k =
      workOf files s k := fun k => congrArg (finishedOf s.tasks k + ·) (hcalls k)
  exact { h with
    reader := hreader
    sorted := hsorted
    rawVecs := hvecs
    counters := fun k => by rw [hwork k]; exact h.counters k
    fresh := fun k hk => by rw [hwork k]; exact h.fresh k hk
    passed := fun k hk => by rw [hwork k]; exact h.passed k hk
    vecs := fun k => by
      rw [hstarted k]
      exact h.vecs k }

theorem clearedTo_le (gc : GcPhase) : clearedTo files gc ≤ passedTo files gc := by
  cases gc <;> simp [clearedTo, passedTo]

/-- Only tasks that have been started have finished. -/
theorem Inv.finished_le {s : State α β} (h : Inv files s) (i : ℕ) :
    finishedOf s.tasks i ≤ startedOf files s.reader i := by
  have hlen := congrArg List.length (h.vecs i)
  rw [List.length_map, List.length_take] at hlen
  have hle := finishedOf_le s.tasks i
  omega

/-- The packets of a file are not cleared before the reader has read them. -/
theorem Inv.rawVecs_load {s : State α β} {i : ℕ} (h : Inv files s) (hfile : s.reader = .file i)
    {reader : ReaderPhase} (hloaded : loadedTo files reader = i + 1) {k : ℕ}
    (hk : k < files.length) :
    (s.rawPacketVec.set i .loaded)[k]? = some (rawVecAt files s.gc reader k) := by
  have hnot : clearedTo files s.gc ≤ i := by
    by_contra hcleared
    have hten := h.passed i (Nat.lt_of_lt_of_le (Nat.not_le.mp hcleared) (clearedTo_le s.gc))
    have hfin := h.finished_le i
    rw [workOf, hfile, callsOf, if_neg (Nat.lt_irrefl i)] at hten
    rw [hfile, startedOf, if_neg (Nat.lt_irrefl i)] at hfin
    exact absurd (Nat.le_trans hten hfin) (by decide)
  have hold := h.rawVecs k hk
  have hlen : k < s.rawPacketVec.length := (List.getElem?_eq_some_iff.mp hold).1
  rw [rawVecAt, hloaded]
  by_cases heq : i = k
  · rw [← heq, List.getElem?_set_self (heq ▸ hlen), if_neg (Nat.not_lt.mpr hnot),
      if_pos (Nat.lt_succ_self i)]
  · rw [List.getElem?_set_ne heq, hold, rawVecAt, hfile, loadedTo]
    split_ifs <;> first | rfl | omega

/-- The next task of a file is its next chunk. -/
theorem tasksOf_start {tasks : List (StoreTask α β)} {i started : ℕ} {chunk : List α}
    (hchunk : (chunksOf files i)[started]? = some chunk)
    (h : ∀ k, (tasksOf tasks k).map StoreTask.rawVec =
      (chunksOf files k).take (startedOf files (.start i started) k)) (k : ℕ) :
    (tasksOf (tasks ++ [⟨i, chunk, chunk, [], false⟩]) k).map StoreTask.rawVec =
      (chunksOf files k).take (startedOf files (.start i (started + 1)) k) := by
  rw [tasksOf_append, List.map_append, h k]
  by_cases heq : i = k
  · rw [if_pos heq, ← heq, startedOf, startedOf, if_neg (Nat.lt_irrefl i), if_pos rfl,
      if_neg (Nat.lt_irrefl i), if_pos rfl, List.take_add_one, hchunk]
    rfl
  · rw [if_neg heq, List.map_nil, List.append_nil, startedOf, startedOf]
    split_ifs <;> first | rfl | omega

/-- `gcTask` counts down when `GarbageCollection` has finished. -/
theorem finished_of_gcCount {gc : GcPhase} {count : ℤ} (h : gcCount gc = some count)
    (hzero : count ≤ 0) : gc = .finished := by
  cases gc with
  | finished => rfl
  | assign => cases h
  | _ =>
    obtain rfl := Option.some_inj.mp h
    exact absurd hzero (by decide)

/-- A task that is started counts for the reader no more, and is not finished. -/
theorem Inv.afterStart {s : State α β} (h : Inv files s) {i started : ℕ} {chunk : List α}
    (hreader : s.reader = .start i started) (hchunk : (chunksOf files i)[started]? = some chunk) :
    Inv files { s with
      tasks := s.tasks ++ [{ index := i, rawVec := chunk, ahead := chunk }]
      reader := .start i (started + 1) } := by
  obtain ⟨rawPacketVec, storeCounter, gcTask, gc, reader, tasks, dataset, misuse⟩ := s
  cases hreader
  have hlt : started < (chunksOf files i).length := (List.getElem?_eq_some_iff.mp hchunk).1
  have hwork : ∀ k, finishedOf (tasks ++ [⟨i, chunk, chunk, [], false⟩]) k +
      callsOf files (.start i (started + 1)) k =
        finishedOf tasks k + callsOf files (.start i started) k :=
    fun k => by rw [finishedOf_append, finishedOf_running rfl, Nat.add_zero, callsOf, callsOf]
  exact { h with
    reader := ⟨h.reader.1, hlt⟩
    sorted := nofun
    counters := fun k => by
      rw [workOf, hwork k]
      exact h.counters k
    fresh := fun k hk => (hwork k).trans (h.fresh k hk)
    passed := fun k hk => by
      rw [workOf, hwork k]
      exact h.passed k hk
    vecs := tasksOf_start hchunk h.vecs
    quiet := fun t ht hfin => by
      rcases List.mem_append.mp ht with ht | ht
      · exact h.quiet t ht hfin
      · rw [List.mem_singleton.mp ht] at hfin
        cases hfin }

/-- A move of the reader keeps the invariant. -/
theorem Inv.afterReader {s s' : State α β} (h : Inv files s) (hmove : ReaderMove files s s')
    (hok : s'.misuse = none) : Inv files s' := by
  obtain ⟨rawPacketVec, storeCounter, gcTask, gc, reader, tasks, dataset, misuse⟩ := s
  cases hmove with
  | noFile hreader hfile =>
    cases hreader
    obtain rfl := Nat.le_antisymm h.reader (List.getElem?_eq_none_iff.mp hfile)
    exact h.move trivial nofun h.rawVecs startedOf_length callsOf_length
  | noReader hreader hfile =>
    cases hreader
    exact h.move trivial nofun h.rawVecs (fun _ => rfl) (fun _ => rfl)
  | notOpened hreader hfile =>
    cases hreader
    exact h.move trivial nofun h.rawVecs (fun _ => rfl) (fun _ => rfl)
  | @noPackets i hreader hfile =>
    cases hreader
    have hi : i < files.length := (List.getElem?_eq_some_iff.mp hfile).1
    have hchunks : chunksOf files i = [] := by
      rw [chunksOf, hfile]
      rfl
    refine h.move ⟨hi, Nat.zero_le _⟩ nofun (fun k => h.rawVecs_load rfl rfl) (fun k => ?_)
      (callsOf_fill_zero i)
    rw [startedOf_allStarted, hchunks, List.length_nil, startedOf_start_zero]
  | @endless i rawVec hreader hfile hne hsplit =>
    cases hreader
    exact h.move trivial nofun (fun k => h.rawVecs_load rfl rfl) (fun _ => rfl) (fun _ => rfl)
  | cutOutside hreader hfile hne hsplit => cases hok
  | @packets i rawVec splittedVec hreader hfile hne hsplit =>
    cases hreader
    have hi : i < files.length := (List.getElem?_eq_some_iff.mp hfile).1
    exact h.move ⟨hi, Nat.zero_le _⟩ nofun (fun k => h.rawVecs_load rfl rfl)
      (startedOf_start_zero i) (fun _ => rfl)
  | @start i started chunk hreader hchunk =>
    cases hreader
    exact h.afterStart rfl hchunk
  | @allStarted i started hreader hchunk =>
    cases hreader
    obtain rfl : started = (chunksOf files i).length :=
      Nat.le_antisymm h.reader.2 (List.getElem?_eq_none_iff.mp hchunk)
    exact h.move ⟨h.reader.1, Nat.zero_le _⟩ nofun h.rawVecs (startedOf_allStarted i)
      (callsOf_fill_zero i)
  | fill hreader hcalls =>
    cases hreader
    refine h.afterDone ⟨h.reader.1, hcalls⟩ nofun rfl h.vecs h.quiet (fun k => ?_) hok
    rw [workOf, Nat.add_assoc]
    congr 1
    rw [callsOf, callsOf]
    split_ifs <;> omega
  | @allFilled i calls hreader hcalls =>
    cases hreader
    obtain rfl : calls = fillsOf files i := Nat.le_antisymm h.reader.2 (Nat.not_lt.mp hcalls)
    exact h.move h.reader.1 nofun h.rawVecs (startedOf_next i _) (callsOf_allFilled i)
  | noGcTask hreader hgcTask => cases hok
  | sort hreader hgcTask hcount =>
    cases hreader
    cases hgcTask
    obtain rfl := finished_of_gcCount h.gcTask.symm hcount
    exact h.move (show ReaderOk files .sorted from trivial) (fun _ => rfl) h.rawVecs
      (fun _ => rfl) (fun _ => rfl)

theorem quiet_set {tasks : List (StoreTask α β)} {j : ℕ} {t' : StoreTask α β}
    (h : ∀ t ∈ tasks, t.finished = true → t.ahead = [] ∧ t.appends = [])
    (h' : t'.finished = true → t'.ahead = [] ∧ t'.appends = []) :
    ∀ t ∈ tasks.set j t', t.finished = true → t.ahead = [] ∧ t.appends = [] := by
  intro t ht
  rcases List.mem_or_eq_of_mem_set ht with ht | rfl
  · exact h t ht
  · exact h'

/-- A move of a task that does not end it keeps the invariant. -/
theorem Inv.advance {s : State α β} (h : Inv files s) {j : ℕ} {t t' : StoreTask α β}
    {dataset : List β} (hj : s.tasks[j]? = some t) (hindex : t'.index = t.index)
    (hvec : t'.rawVec = t.rawVec) (hrun : t.finished = false) (hrun' : t'.finished = false) :
    Inv files { s with tasks := s.tasks.set j t', dataset := dataset } := by
  have hwork : ∀ k, workOf files { s with tasks := s.tasks.set j t', dataset := dataset } k =
      workOf files s k := by
    intro k
    have hset := finishedOf_set t' k s.tasks j hj
    rw [finishedOf_running hrun, finishedOf_running hrun'] at hset
    exact congrArg (· + _) hset
  exact { h with
    counters := fun k => by rw [hwork k]; exact h.counters k
    fresh := fun k hk => by rw [hwork k]; exact h.fresh k hk
    passed := fun k hk => by rw [hwork k]; exact h.passed k hk
    vecs := fun k => (tasksOf_set_rawVec t' hindex hvec k s.tasks j hj).trans (h.vecs k)
    quiet := quiet_set h.quiet fun hfin => absurd (hrun'.symm.trans hfin) Bool.false_ne_true }

/-- A move of a task keeps the invariant. -/
theorem Inv.afterTask {store : α → List β} {s s' : State α β} {j : ℕ} {t : StoreTask α β}
    (h : Inv files s) (hj : s.tasks[j]? = some t) (hrun : t.finished = false)
    (hmove : TaskMove files store s j t s') (hok : s'.misuse = none) : Inv files s' := by
  cases hmove with
  | append happends => exact h.advance hj rfl rfl hrun hrun
  | next happends hahead => exact h.advance hj rfl rfl hrun hrun
  | finish happends hahead =>
    let t' : StoreTask α β := { t with finished := true }
    have hindex : t'.index = t.index := rfl
    have htasks : ∀ k, (tasksOf (s.tasks.set j t') k).map StoreTask.rawVec = _ := fun k =>
      (tasksOf_set_rawVec t' hindex rfl k s.tasks j hj).trans (h.vecs k)
    refine h.afterDone h.reader h.sorted rfl htasks
      (quiet_set h.quiet fun _ => ⟨hahead, happends⟩) (fun k => ?_) hok
    have hset := finishedOf_set t' k s.tasks j hj
    rw [finishedOf_running hrun, finishedOf_ended rfl, Nat.add_zero] at hset
    rw [hset, workOf, Nat.add_right_comm]

/-- **A move without a misuse** keeps the invariant. -/
theorem Inv.after {store : α → List β} {s s' : State α β} {p : Party} (h : Inv files s)
    (hstep : step files store s p = some s') (hok : s'.misuse = none) : Inv files s' := by
  cases step_cases hstep with
  | reader hmove => exact h.afterReader hmove hok
  | gc hmove => exact h.afterGc hmove hok
  | task hj hrun hmove => exact h.afterTask hj hrun hmove hok

/-- **A run without a misuse** keeps the invariant. -/
theorem inv_of_reachable {store : α → List β} {s₀ s : State α β} (h₀ : Inv files s₀)
    (h : Reachable (step files store) s₀ s) (hok : s.misuse = none) : Inv files s := by
  let I : State α β → Prop := fun s => s.misuse = none → Inv files s
  have hI : I s := by
    refine Reachable.invariant (I := I) h (fun _ => h₀) ?_
    intro s p s' ih hstep hok
    exact (ih (misuse_of_step hstep)).after hstep hok
  exact hI hok

end Collection

end RawReading
end BurstIoT
