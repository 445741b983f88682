import Mathlib.Tactic.SplitIfs
import BurstIoT.RawReading

/-!
# What one move can do

The three step functions are read off once, branch by branch: `ReaderMove`, `GcMove` and `TaskMove`
list what a party can do, with the conditions under which it does so.  Everything that is kept along
a run is then shown by cases over these moves.
-/

namespace BurstIoT
namespace RawReading

variable {α β : Type}

/-! ## The moves of each party -/

/-- What `RawCvtoPktDataset` can do next. -/
inductive ReaderMove (files : List (RawFile α)) (s : State α β) : State α β → Prop where
  | noFile {i : ℕ} (hreader : s.reader = .file i) (hfile : files[i]? = none) :
      ReaderMove files s { s with reader := .waitGc }
  | noReader {i : ℕ} (hreader : s.reader = .file i) (hfile : files[i]? = some .noReader) :
      ReaderMove files s { s with reader := .failed i .pcapFormatError }
  | notOpened {i : ℕ} (hreader : s.reader = .file i) (hfile : files[i]? = some .notOpened) :
      ReaderMove files s { s with reader := .failed i .pcapCannotOpen }
  | noPackets {i : ℕ} (hreader : s.reader = .file i) (hfile : files[i]? = some (.packets [])) :
      ReaderMove files s
        { s with rawPacketVec := s.rawPacketVec.set i .loaded, reader := .fill i 0 }
  | endless {i : ℕ} {rawVec : List α} (hreader : s.reader = .file i)
      (hfile : files[i]? = some (.packets rawVec)) (hne : rawVec ≠ [])
      (hsplit : SplitVector.splitPackets rawVec = none) :
      ReaderMove files s
        { s with rawPacketVec := s.rawPacketVec.set i .loaded, reader := .splitting i }
  | cutOutside {i : ℕ} {rawVec : List α} {fault : Fault} (hreader : s.reader = .file i)
      (hfile : files[i]? = some (.packets rawVec)) (hne : rawVec ≠ [])
      (hsplit : SplitVector.splitPackets rawVec = some (.error fault)) :
      ReaderMove files s { s with misuse := some (.cutOutside i) }
  | packets {i : ℕ} {rawVec : List α} {splittedVec : List (List α)} (hreader : s.reader = .file i)
      (hfile : files[i]? = some (.packets rawVec)) (hne : rawVec ≠ [])
      (hsplit : SplitVector.splitPackets rawVec = some (.ok splittedVec)) :
      ReaderMove files s
        { s with rawPacketVec := s.rawPacketVec.set i .loaded, reader := .start i 0 }
  | start {i started : ℕ} {chunk : List α} (hreader : s.reader = .start i started)
      (hchunk : (chunksOf files i)[started]? = some chunk) :
      ReaderMove files s
        { s with
          tasks := s.tasks ++ [{ index := i, rawVec := chunk, ahead := chunk }]
          reader := .start i (started + 1) }
  | allStarted {i started : ℕ} (hreader : s.reader = .start i started)
      (hchunk : (chunksOf files i)[started]? = none) :
      ReaderMove files s { s with reader := .fill i 0 }
  | fill {i calls : ℕ} (hreader : s.reader = .fill i calls) (hcalls : calls < fillsOf files i) :
      ReaderMove files s (done files { s with reader := .fill i (calls + 1) } i)
  | allFilled {i calls : ℕ} (hreader : s.reader = .fill i calls)
      (hcalls : ¬ calls < fillsOf files i) :
      ReaderMove files s { s with reader := .file (i + 1) }
  | noGcTask (hreader : s.reader = .waitGc) (hgcTask : s.gcTask = none) :
      ReaderMove files s { s with misuse := some .waitBeforeAssign }
  | sort {count : ℤ} (hreader : s.reader = .waitGc) (hgcTask : s.gcTask = some count)
      (hcount : count ≤ 0) :
      ReaderMove files s { s with reader := .sorted }

/-- What `GarbageCollection` can do next. -/
inductive GcMove (files : List (RawFile α)) (s : State α β) : State α β → Prop where
  | assign (hgc : s.gc = .assign) : GcMove files s { s with gcTask := some 1, gc := .push 0 }
  | push {i : ℕ} (hgc : s.gc = .push i) (hi : i < files.length) :
      GcMove files s
        { s with
          storeCounter := s.storeCounter ++ [some (storeMultithread : ℤ)], gc := .push (i + 1) }
  | allPushed {i : ℕ} (hgc : s.gc = .push i) (hi : ¬ i < files.length) :
      GcMove files s { s with gc := .wait 0 }
  | wait {i : ℕ} {count : ℤ} (hgc : s.gc = .wait i) (hi : i < files.length)
      (hcounter : s.storeCounter[i]? = some (some count)) (hcount : count ≤ 0) :
      GcMove files s { s with gc := .clear i }
  | allWaited {i : ℕ} (hgc : s.gc = .wait i) (hi : ¬ i < files.length) :
      GcMove files s { s with gc := .delete 0 }
  | clear {i : ℕ} (hgc : s.gc = .clear i) (hloaded : s.rawPacketVec[i]? = some .loaded) :
      GcMove files s { s with rawPacketVec := s.rawPacketVec.set i .cleared, gc := .wait (i + 1) }
  | notLoaded {i : ℕ} (hgc : s.gc = .clear i) (hloaded : ¬ s.rawPacketVec[i]? = some .loaded) :
      GcMove files s { s with misuse := some (.clearBeforeLoad i) }
  | delete {i : ℕ} (hgc : s.gc = .delete i) (hi : i < files.length) :
      GcMove files s { s with storeCounter := s.storeCounter.set i none, gc := .delete (i + 1) }
  | allDeleted {i : ℕ} (hgc : s.gc = .delete i) (hi : ¬ i < files.length) :
      GcMove files s { s with gc := .drop }
  | drop (hgc : s.gc = .drop) : GcMove files s { s with storeCounter := [], gc := .done }
  | finish (hgc : s.gc = .done) :
      GcMove files s { s with gcTask := s.gcTask.map (· - 1), gc := .finished }

/-- What the `StoreKPackets` task `t`, the `j`-th one, can do next. -/
inductive TaskMove (files : List (RawFile α)) (store : α → List β) (s : State α β) (j : ℕ)
    (t : StoreTask α β) : State α β → Prop where
  | append {b : β} {rest : List β} (happends : t.appends = b :: rest) :
      TaskMove files store s j t
        { s with tasks := s.tasks.set j { t with appends := rest }, dataset := s.dataset ++ [b] }
  | next {p : α} {rest : List α} (happends : t.appends = []) (hahead : t.ahead = p :: rest) :
      TaskMove files store s j t
        { s with tasks := s.tasks.set j { t with ahead := rest, appends := store p } }
  | finish (happends : t.appends = []) (hahead : t.ahead = []) :
      TaskMove files store s j t
        (done files { s with tasks := s.tasks.set j { t with finished := true } } t.index)

/-- What a party can do next. -/
inductive Move (files : List (RawFile α)) (store : α → List β) (s : State α β) :
    Party → State α β → Prop where
  | reader {s' : State α β} (hmove : ReaderMove files s s') : Move files store s .reader s'
  | gc {s' : State α β} (hmove : GcMove files s s') : Move files store s .gc s'
  | task {j : ℕ} {t : StoreTask α β} {s' : State α β} (hj : s.tasks[j]? = some t)
      (hrun : t.finished = false) (hmove : TaskMove files store s j t s') :
      Move files store s (.task j) s'

variable {files : List (RawFile α)} {store : α → List β} {s s' : State α β}

theorem readerStep_cases (hstep : readerStep files s = some s') : ReaderMove files s s' := by
  unfold readerStep at hstep
  split at hstep
  · rename_i i hreader
    split at hstep
    · rename_i hfile
      cases hstep
      exact .noFile hreader hfile
    · rename_i hfile
      cases hstep
      exact .noReader hreader hfile
    · rename_i hfile
      cases hstep
      exact .notOpened hreader hfile
    · rename_i hfile
      cases hstep
      exact .noPackets hreader hfile
    · rename_i rawVec hne hfile
      split at hstep <;> rename_i hsplit <;> cases hstep
      · exact .endless hreader hfile hne hsplit
      · exact .cutOutside hreader hfile hne hsplit
      · exact .packets hreader hfile hne hsplit
  · cases hstep
  · rename_i i started hreader
    split at hstep <;> rename_i hchunk <;> cases hstep
    · exact .start hreader hchunk
    · exact .allStarted hreader hchunk
  · rename_i i calls hreader
    split_ifs at hstep with hcalls <;> cases hstep
    · exact .fill hreader hcalls
    · exact .allFilled hreader hcalls
  · rename_i hreader
    split at hstep <;> rename_i hgcTask
    · cases hstep
      exact .noGcTask hreader hgcTask
    · split_ifs at hstep with hcount
      cases hstep
      exact .sort hreader hgcTask hcount
  · cases hstep
  · cases hstep

theorem gcStep_cases (hstep : gcStep files s = some s') : GcMove files s s' := by
  unfold gcStep at hstep
  split at hstep
  · rename_i hgc
    cases hstep
    exact .assign hgc
  · rename_i i hgc
    split_ifs at hstep with hi <;> cases hstep
    · exact .push hgc hi
    · exact .allPushed hgc hi
  · rename_i i hgc
    split_ifs at hstep with hi
    · split at hstep
      · rename_i count hcounter
        split_ifs at hstep with hcount
        cases hstep
        exact .wait hgc hi hcounter hcount
      · cases hstep
    · cases hstep
      exact .allWaited hgc hi
  · rename_i i hgc
    split_ifs at hstep with hloaded <;> cases hstep
    · exact .clear hgc hloaded
    · exact .notLoaded hgc hloaded
  · rename_i i hgc
    split_ifs at hstep with hi <;> cases hstep
    · exact .delete hgc hi
    · exact .allDeleted hgc hi
  · rename_i hgc
    cases hstep
    exact .drop hgc
  · rename_i hgc
    cases hstep
    exact .finish hgc
  · cases hstep

theorem taskStep_cases {j : ℕ} (hstep : taskStep files store s j = some s') :
    ∃ t, s.tasks[j]? = some t ∧ t.finished = false ∧ TaskMove files store s j t s' := by
  unfold taskStep at hstep
  split at hstep
  · cases hstep
  · rename_i t hj
    split_ifs at hstep with hfinished
    refine ⟨t, hj, Bool.not_eq_true _ ▸ hfinished, ?_⟩
    split at hstep
    · rename_i b rest _ happends
      cases hstep
      exact .append happends
    · rename_i p rest happends hahead
      cases hstep
      exact .next happends hahead
    · rename_i happends hahead
      cases hstep
      exact .finish happends hahead

/-- A state in which somebody moves has seen no misuse. -/
theorem misuse_of_step {p : Party} (hstep : step files store s p = some s') : s.misuse = none := by
  unfold step at hstep
  split_ifs at hstep with hmisuse
  exact Option.not_isSome_iff_eq_none.mp hmisuse

/-- **What a step can do.** -/
theorem step_cases {p : Party} (hstep : step files store s p = some s') :
    Move files store s p s' := by
  rw [step_eq (misuse_of_step hstep)] at hstep
  cases p with
  | reader => exact .reader (readerStep_cases hstep)
  | gc => exact .gc (gcStep_cases hstep)
  | task j =>
    obtain ⟨t, hj, hrun, hmove⟩ := taskStep_cases hstep
    exact .task hj hrun hmove

/-! ## What a move leaves alone -/

@[simp] theorem done_gc (s : State α β) (i : ℕ) : (done files s i).gc = s.gc := by
  unfold done
  split <;> rfl

@[simp] theorem done_reader (s : State α β) (i : ℕ) : (done files s i).reader = s.reader := by
  unfold done
  split <;> rfl

@[simp] theorem done_tasks (s : State α β) (i : ℕ) : (done files s i).tasks = s.tasks := by
  unfold done
  split <;> rfl

@[simp] theorem done_dataset (s : State α β) (i : ℕ) : (done files s i).dataset = s.dataset := by
  unfold done
  split <;> rfl

/-- Only `GarbageCollection` changes where it stands. -/
theorem ReaderMove.gc (h : ReaderMove files s s') : s'.gc = s.gc := by
  cases h <;> simp

theorem TaskMove.gc {j : ℕ} {t : StoreTask α β} (h : TaskMove files store s j t s') :
    s'.gc = s.gc := by
  cases h <;> simp

/-- Only the reader changes where it stands. -/
theorem GcMove.reader (h : GcMove files s s') : s'.reader = s.reader := by
  cases h <;> rfl

theorem TaskMove.reader {j : ℕ} {t : StoreTask α β} (h : TaskMove files store s j t s') :
    s'.reader = s.reader := by
  cases h <;> simp

end RawReading
end BurstIoT
