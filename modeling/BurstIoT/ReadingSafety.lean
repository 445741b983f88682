import BurstIoT.ReadingInvariant

/-!
# Raw packets outlive their readers

With all counters made before the reader starts, and no file in more than `STORE_MULTITHREAD`
chunks, no call goes wrong, the packets of a file are cleared only after all its tasks have
processed them, and the dataset is sorted only after all tasks of all files
(`rawPackets_outlive_tasks`).
-/

namespace BurstIoT
namespace RawReading

open StepSystem

variable {α β : Type} {files : List (RawFile α)}

/-- The tasks of file `i` are exactly its chunks, and each of them has processed all its packets. -/
def Processed (files : List (RawFile α)) (s : State α β) (i : ℕ) : Prop :=
  (tasksOf s.tasks i).map StoreTask.rawVec = chunksOf files i ∧
    ∀ t ∈ tasksOf s.tasks i, t.finished = true ∧ t.ahead = [] ∧ t.appends = []

/-- Where `splitVector` returns, it returns at most `STORE_MULTITHREAD` chunks. -/
def FewChunks (files : List (RawFile α)) : Prop :=
  ∀ (i : ℕ) (rawVec : List α), files[i]? = some (.packets rawVec) →
    ∀ outcome, SplitVector.splitPackets rawVec = some outcome →
      ∃ splittedVec, outcome = .ok splittedVec ∧ splittedVec.length ≤ storeMultithread

theorem FewChunks.length_le (hfew : FewChunks files) (i : ℕ) :
    (chunksOf files i).length ≤ storeMultithread := by
  rw [chunksOf]
  split
  · rename_i rawVec hfile
    split
    · rename_i splittedVec hsplit
      obtain ⟨_, hok, hle⟩ := hfew i rawVec hfile _ hsplit
      injection hok with heq
      rwa [heq]
    · exact Nat.zero_le _
  · exact Nat.zero_le _

/-- All counters have been made. -/
def CountersMade : GcPhase → Prop
  | .assign => False
  | .push _ => False
  | _ => True

/-! ## When the work on a file is complete -/

/-- **The work on a file is complete** once its counter is down. -/
theorem Inv.processed {s : State α β} (h : Inv files s) (hfew : FewChunks files) {i : ℕ}
    (hwork : storeMultithread ≤ workOf files s i) : Processed files s i := by
  have hfin := h.finished_le i
  have hstarted := startedOf_le h.reader i
  have hcalls := callsOf_le h.reader i
  have hmax := chunks_add_fills_le (hfew.length_le i)
  rw [workOf] at hwork
  have hvecs : (tasksOf s.tasks i).map StoreTask.rawVec = chunksOf files i := by
    rw [h.vecs i]
    exact List.take_of_length_le (by omega)
  have hlen : (tasksOf s.tasks i).length = (chunksOf files i).length := by
    rw [← hvecs, List.length_map]
  have hall : finishedOf s.tasks i = (tasksOf s.tasks i).length := by omega
  refine ⟨hvecs, fun t ht => ?_⟩
  have hfinished := List.countP_eq_length.mp hall t ht
  exact ⟨hfinished, h.quiet t (List.mem_of_mem_filter ht) hfinished⟩

/-- Nothing is to be done past the last file. -/
theorem Inv.processed_of_le {s : State α β} (h : Inv files s) {i : ℕ} (hi : files.length ≤ i) :
    Processed files s i := by
  have hvecs := h.vecs i
  rw [chunksOf_of_le hi, List.take_nil] at hvecs
  have hnone : tasksOf s.tasks i = [] := List.map_eq_nil_iff.mp hvecs
  refine ⟨by rw [hnone, chunksOf_of_le hi, List.map_nil], fun t ht => ?_⟩
  rw [hnone] at ht
  cases ht

/-- A file whose packets are cleared has been waited for. -/
theorem Inv.passed_of_cleared {s : State α β} (h : Inv files s) {i : ℕ} (hi : i < files.length)
    (hcleared : s.rawPacketVec[i]? = some .cleared) : i < passedTo files s.gc := by
  rw [h.rawVecs i hi] at hcleared
  have hvec := Option.some_inj.mp hcleared
  rw [rawVecAt] at hvec
  split_ifs at hvec with hlt
  exact Nat.lt_of_lt_of_le hlt (clearedTo_le s.gc)

/-- While a task runs, not all tasks of its file have finished. -/
theorem Inv.running_lt {s : State α β} (h : Inv files s) {j : ℕ} {t : StoreTask α β}
    (hj : s.tasks[j]? = some t) (hrun : t.finished = false) :
    finishedOf s.tasks t.index < startedOf files s.reader t.index := by
  have hlen := congrArg List.length (h.vecs t.index)
  rw [List.length_map, List.length_take] at hlen
  have hle := finishedOf_le s.tasks t.index
  have hne : finishedOf s.tasks t.index ≠ (tasksOf s.tasks t.index).length := by
    intro hall
    have hmem : t ∈ tasksOf s.tasks t.index :=
      List.mem_filter.mpr ⟨List.mem_of_getElem? hj, beq_self_eq_true t.index⟩
    have hfin := List.countP_eq_length.mp hall t hmem
    exact Bool.false_ne_true (hrun.symm.trans hfin)
  omega

/-! ## No call goes wrong -/

/-- A counter that has been made stands until it has been waited for. -/
theorem CountersMade.stands_or_passed {gc : GcPhase} (hmade : CountersMade gc) {i : ℕ}
    (hi : i < files.length) :
    i < standing files gc ∧ ¬ i < deletedTo files gc ∨ i < passedTo files gc := by
  cases gc with
  | assign => exact hmade.elim
  | push k => exact hmade.elim
  | wait k => exact Or.inl ⟨hi, Nat.not_lt_zero i⟩
  | clear k => exact Or.inl ⟨hi, Nat.not_lt_zero i⟩
  | _ => exact Or.inr hi

/-- A call of `done()` finds its counter as long as work is left. -/
theorem Inv.misuse_done {s s₁ : State α β} (h : Inv files s) (hmade : CountersMade s.gc)
    {i : ℕ} (hi : i < files.length) (hwork : workOf files s i < storeMultithread)
    (hcounters : s₁.storeCounter = s.storeCounter) (hok : s₁.misuse = none) :
    (done files s₁ i).misuse = none := by
  rcases hmade.stands_or_passed hi with ⟨hstands, hdeleted⟩ | hpassed
  · have hcount := h.counters i
    rw [counterAt, if_pos hstands, if_neg hdeleted, ← hcounters] at hcount
    rw [done, hcount]
    exact hok
  · exact absurd (h.passed i hpassed) (Nat.not_le.mpr hwork)

theorem Inv.misuse_reader {s s' : State α β} (h : Inv files s) (hfew : FewChunks files)
    (hmade : CountersMade s.gc) (hok : s.misuse = none) (hmove : ReaderMove files s s') :
    s'.misuse = none := by
  cases hmove with
  | @fill i calls hreader hcalls =>
    have hreaderOk := h.reader
    rw [hreader] at hreaderOk
    refine h.misuse_done hmade hreaderOk.1 ?_ rfl hok
    have hfin := Nat.le_trans (h.finished_le i) (startedOf_le h.reader i)
    have hmax := chunks_add_fills_le (hfew.length_le i)
    rw [workOf, hreader, callsOf, if_neg (Nat.lt_irrefl i), if_pos rfl]
    omega
  | noGcTask hreader hgcTask =>
    rw [h.gcTask] at hgcTask
    cases hgc : s.gc with
    | assign =>
      rw [hgc] at hmade
      exact hmade.elim
    | _ =>
      rw [hgc] at hgcTask
      cases hgcTask
  | @cutOutside i rawVec fault hreader hfile hne hsplit =>
    obtain ⟨_, hok, -⟩ := hfew i rawVec hfile _ hsplit
    cases hok
  | _ => exact hok

theorem Inv.misuse_gc {s s' : State α β} (h : Inv files s) (hok : s.misuse = none)
    (hmove : GcMove files s s') : s'.misuse = none := by
  cases hmove with
  | @notLoaded i hgc hloaded =>
    have hi := h.gc
    have hten := h.passed i
    have hvec := h.rawVecs i
    rw [hgc] at hi hten hvec
    have hprogress : 0 < startedOf files s.reader i + callsOf files s.reader i := by
      have hwork := hten (Nat.lt_succ_self i)
      have hfin := h.finished_le i
      rw [workOf, storeMultithread] at hwork
      omega
    have hnot : ¬ i < clearedTo files (.clear i) := Nat.lt_irrefl i
    refine absurd ?_ hloaded
    rw [hvec hi, rawVecAt, if_neg hnot, if_pos (lt_loadedTo hi hprogress)]
  | _ => exact hok

theorem Inv.misuse_task {store : α → List β} {s s' : State α β} {j : ℕ} {t : StoreTask α β}
    (h : Inv files s) (hfew : FewChunks files) (hmade : CountersMade s.gc)
    (hok : s.misuse = none) (hj : s.tasks[j]? = some t) (hrun : t.finished = false)
    (hmove : TaskMove files store s j t s') : s'.misuse = none := by
  cases hmove with
  | append happends => exact hok
  | next happends hahead => exact hok
  | finish happends hahead =>
    have hlt := h.running_lt hj hrun
    have hstarted := startedOf_le h.reader t.index
    have hcalls := callsOf_le h.reader t.index
    have hmax := chunks_add_fills_le (hfew.length_le t.index)
    have hi : t.index < files.length := by
      by_contra hover
      rw [chunksOf_of_le (Nat.not_lt.mp hover), List.length_nil] at hstarted
      omega
    refine h.misuse_done hmade hi ?_ rfl hok
    rw [workOf]
    omega

/-! ## The counters stay made -/

theorem CountersMade.after_gc {s s' : State α β} (hmade : CountersMade s.gc)
    (hmove : GcMove files s s') : CountersMade s'.gc := by
  cases hmove with
  | assign hgc =>
    rw [hgc] at hmade
    exact hmade.elim
  | push hgc hi =>
    rw [hgc] at hmade
    exact hmade.elim
  | notLoaded hgc hloaded => exact hmade
  | _ => trivial

theorem CountersMade.after {store : α → List β} {s s' : State α β} {p : Party}
    (hmade : CountersMade s.gc) (hstep : step files store s p = some s') :
    CountersMade s'.gc := by
  cases step_cases hstep with
  | reader hmove =>
    rw [hmove.gc]
    exact hmade
  | gc hmove => exact hmade.after_gc hmove
  | task hj hrun hmove =>
    rw [hmove.gc]
    exact hmade

/-! ## Every run -/

/-- The invariant of the runs with all counters made. -/
structure Safe (files : List (RawFile α)) (s : State α β) : Prop where
  inv : Inv files s
  made : CountersMade s.gc
  misuse : s.misuse = none

theorem Safe.after {store : α → List β} {s s' : State α β} {p : Party} (hfew : FewChunks files)
    (h : Safe files s) (hstep : step files store s p = some s') : Safe files s' := by
  have hok : s'.misuse = none := by
    cases step_cases hstep with
    | reader hmove => exact h.inv.misuse_reader hfew h.made h.misuse hmove
    | gc hmove => exact h.inv.misuse_gc h.misuse hmove
    | task hj hrun hmove => exact h.inv.misuse_task hfew h.made h.misuse hj hrun hmove
  exact ⟨h.inv.after hstep hok, h.made.after hstep, hok⟩

theorem safe_of_reachable {store : α → List β} {s : State α β} (hfew : FewChunks files)
    (h : Reachable (step files store) (countersMade files) s) : Safe files s := by
  refine Reachable.invariant (I := Safe files) h ⟨inv_countersMade, trivial, rfl⟩ ?_
  intro s p s' hs hstep
  exact hs.after hfew hstep

/-- **Raw packets outlive their readers.** -/
theorem rawPackets_outlive_tasks {store : α → List β} {s : State α β} (hfew : FewChunks files)
    (h : Reachable (step files store) (countersMade files) s) :
    (∀ i, s.rawPacketVec[i]? = some .cleared → Processed files s i) ∧
      (s.reader = .sorted → ∀ i, Processed files s i) ∧ s.misuse = none := by
  have hs := safe_of_reachable hfew h
  have hpassed : ∀ i, (i < files.length → i < passedTo files s.gc) → Processed files s i := by
    intro i hpass
    by_cases hi : i < files.length
    · exact hs.inv.processed hfew (hs.inv.passed i (hpass hi))
    · exact hs.inv.processed_of_le (Nat.not_lt.mp hi)
  refine ⟨fun i hcleared => ?_, fun hsorted i => ?_, hs.misuse⟩
  · exact hpassed i fun hi => hs.inv.passed_of_cleared hi hcleared
  · refine hpassed i fun hi => ?_
    rw [hs.inv.sorted hsorted]
    exact hi

/-- A file with nine packets, and one without packets. -/
def twoFiles : List (RawFile ℕ) :=
  [.packets [1, 2, 3, 4, 5, 6, 7, 8, 9], .packets []]

/-- The tasks run between the moves of the reader, the last one first, and `GarbageCollection` comes
at the end. -/
def twoFilesSchedule : List Party :=
  List.replicate 10 .reader ++
    (List.range 9).reverse.flatMap (fun j => List.replicate 3 (.task j)) ++
    List.replicate 16 .reader ++ List.replicate 10 .gc ++ [.reader]

/-- The state in which this run ends. -/
def twoFilesEnd : State ℕ ℕ where
  rawPacketVec := [.cleared, .cleared]
  storeCounter := []
  gcTask := some 0
  gc := .finished
  reader := .sorted
  tasks := [1, 2, 3, 4, 5, 6, 7, 8, 9].map fun p =>
    { index := 0, rawVec := [p], ahead := [], finished := true }
  dataset := [9, 8, 7, 6, 5, 4, 3, 2, 1]
  misuse := none

theorem rawPackets_outlive_tasks_twoFiles :
    run (step twoFiles fun p => [p]) (countersMade twoFiles) twoFilesSchedule = some twoFilesEnd ∧
      (∀ i, twoFilesEnd.rawPacketVec[i]? = some .cleared → Processed twoFiles twoFilesEnd i) ∧
      (twoFilesEnd.reader = .sorted → ∀ i, Processed twoFiles twoFilesEnd i) ∧
      twoFilesEnd.misuse = none := by
  have hrun : run (step twoFiles fun p => [p]) (countersMade twoFiles) twoFilesSchedule =
      some twoFilesEnd := by
    decide +kernel
  have hfew : FewChunks twoFiles := by
    intro i rawVec hfile outcome hsplit
    match i with
    | 0 =>
      cases hfile
      cases hsplit
      exact ⟨_, rfl, by decide⟩
    | 1 =>
      cases hfile
      cases hsplit
      exact ⟨_, rfl, by decide⟩
    | i + 2 => cases hfile
  exact ⟨hrun, rawPackets_outlive_tasks hfew (reachable_of_run twoFilesSchedule _ hrun)⟩

end RawReading
end BurstIoT
