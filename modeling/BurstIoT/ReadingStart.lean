import BurstIoT.ReadingInvariant

/-!
# Counters before they are used

`GarbageCollection` makes the counters itself, and it is started as a task like any other: nothing
keeps the reader from going on before the counters are there.  A run in which the reader does wait
for the counter of a file, before it starts the tasks of the file and before it calls `done()`, and
for `gcTask`, is as meant; wherever the reader goes on without, there is a schedule that runs into a
counter that is not there.  Only if the reader does not come past the first file, no schedule does
(`countersBeforeUse_iff`): the file does not open, or `splitVector` has too few packets to return or
too many to cut.
-/

namespace BurstIoT
namespace RawReading

open StepSystem

variable {α β : Type}

/-- The call comes before `GarbageCollection` has made what it goes through. -/
def Misuse.early : Misuse → Bool
  | .doneBeforePush _ => true
  | .waitBeforeAssign => true
  | _ => false

/-- An early call has been made. -/
def Early (s : State α β) : Prop :=
  ∃ m, s.misuse = some m ∧ m.early = true

/-- The counter is there before the reader starts a task that will use it, and before the reader
uses it itself. -/
def ready (files : List (RawFile α)) (s : State α β) : Party → Bool
  | .reader =>
    match s.reader with
    | .start i started => (chunksOf files i).length ≤ started || i < pushed files s.gc
    | .fill i calls => fillsOf files i ≤ calls || i < pushed files s.gc
    | .waitGc => s.gcTask.isSome
    | _ => true
  | _ => true

/-- The first file cannot be opened, and the reader leaves `RawCvtoPktDataset` with an exception. -/
def FirstUnopened (files : List (RawFile α)) : Prop :=
  files[0]? = some .noReader ∨ files[0]? = some .notOpened

/-- The first file has packets, but too few or too many for `splitVector` to give its chunks. -/
def FirstUnsplit (files : List (RawFile α)) : Prop :=
  ∃ rawVec : List α, files[0]? = some (.packets rawVec) ∧ rawVec ≠ [] ∧
    (rawVec.length < 9 ∨ 2 ^ 31 ≤ rawVec.length)

/-- The reader does not come past the first file. -/
def FirstStops (files : List (RawFile α)) : Prop :=
  FirstUnopened files ∨ FirstUnsplit files

variable {files : List (RawFile α)} {store : α → List β}

/-! ## Runs that wait for the counters -/

/-- Every task has a counter, and no call was early. -/
structure Waiting (files : List (RawFile α)) (s : State α β) : Prop where
  gc : GcOk files s.gc
  tasks : ∀ t ∈ s.tasks, t.index < pushed files s.gc
  early : ¬ Early s

theorem not_early_done {s : State α β} {i : ℕ} (hi : i < pushed files s.gc) (h : ¬ Early s) :
    ¬ Early (done files s i) := by
  unfold done
  split
  · exact h
  · rw [if_pos hi]
    rintro ⟨m, hm, hearly⟩
    obtain rfl := Option.some_inj.mp hm
    cases hearly

theorem Waiting.done {s : State α β} {i : ℕ} (h : Waiting files s)
    (hi : i < pushed files s.gc) : Waiting files (done files s i) := by
  have hearly := not_early_done hi h.early
  unfold RawReading.done at hearly ⊢
  split at hearly
  · exact ⟨h.gc, h.tasks, hearly⟩
  · exact ⟨h.gc, h.tasks, hearly⟩

theorem Waiting.reader {s s' : State α β} (h : Waiting files s)
    (hready : ready files s .reader = true) (hmove : ReaderMove files s s') :
    Waiting files s' := by
  cases hmove with
  | @start i started chunk hreader hchunk =>
    have hlt := (List.getElem?_eq_some_iff.mp hchunk).1
    have hpushed : i < pushed files s.gc := by
      simp only [ready, hreader, Bool.or_eq_true, decide_eq_true_eq] at hready
      omega
    refine ⟨h.gc, fun t ht => ?_, h.early⟩
    rcases List.mem_append.mp ht with ht | ht
    · exact h.tasks t ht
    · rw [List.mem_singleton.mp ht]
      exact hpushed
  | @fill i calls hreader hcalls =>
    have hpushed : i < pushed files s.gc := by
      simp only [ready, hreader, Bool.or_eq_true, decide_eq_true_eq] at hready
      omega
    exact Waiting.done ⟨h.gc, h.tasks, h.early⟩ hpushed
  | noGcTask hreader hgcTask =>
    simp only [ready, hreader, hgcTask] at hready
    cases hready
  | cutOutside hreader hfile hne hsplit =>
    refine ⟨h.gc, h.tasks, ?_⟩
    rintro ⟨m, hm, hearly⟩
    obtain rfl := Option.some_inj.mp hm
    cases hearly
  | _ => exact ⟨h.gc, h.tasks, h.early⟩

theorem Waiting.collect {s s' : State α β} (h : Waiting files s) (hmove : GcMove files s s') :
    Waiting files s' := by
  obtain ⟨rawPacketVec, storeCounter, gcTask, gc, reader, tasks, dataset, misuse⟩ := s
  cases hmove with
  | assign hgc =>
    cases hgc
    exact ⟨Nat.zero_le _, h.tasks, h.early⟩
  | push hgc hi =>
    cases hgc
    exact ⟨hi, fun t ht => Nat.lt_succ_of_lt (h.tasks t ht), h.early⟩
  | allPushed hgc hi =>
    cases hgc
    obtain rfl := Nat.le_antisymm h.gc (Nat.not_lt.mp hi)
    exact ⟨Nat.zero_le _, h.tasks, h.early⟩
  | wait hgc hi hcounter hcount =>
    cases hgc
    exact ⟨hi, h.tasks, h.early⟩
  | allWaited hgc hi =>
    cases hgc
    exact ⟨Nat.zero_le _, h.tasks, h.early⟩
  | clear hgc hloaded =>
    cases hgc
    exact ⟨h.gc, h.tasks, h.early⟩
  | notLoaded hgc hloaded =>
    refine ⟨h.gc, h.tasks, ?_⟩
    rintro ⟨m, hm, hearly⟩
    obtain rfl := Option.some_inj.mp hm
    cases hearly
  | delete hgc hi =>
    cases hgc
    exact ⟨hi, h.tasks, h.early⟩
  | allDeleted hgc hi =>
    cases hgc
    exact ⟨trivial, h.tasks, h.early⟩
  | drop hgc =>
    cases hgc
    exact ⟨trivial, h.tasks, h.early⟩
  | finish hgc =>
    cases hgc
    exact ⟨trivial, h.tasks, h.early⟩

/-- A task that moves keeps its counter. -/
theorem Waiting.set {s : State α β} {j : ℕ} {t : StoreTask α β} (t' : StoreTask α β)
    {dataset : List β} (h : Waiting files s) (hj : s.tasks[j]? = some t)
    (hindex : t'.index = t.index) :
    Waiting files { s with tasks := s.tasks.set j t', dataset := dataset } := by
  refine ⟨h.gc, fun u hu => ?_, h.early⟩
  rcases List.mem_or_eq_of_mem_set hu with hu | rfl
  · exact h.tasks u hu
  · rw [hindex]
    exact h.tasks t (List.mem_of_getElem? hj)

theorem Waiting.task {s s' : State α β} {j : ℕ} {t : StoreTask α β} (h : Waiting files s)
    (hj : s.tasks[j]? = some t) (hmove : TaskMove files store s j t s') : Waiting files s' := by
  cases hmove with
  | append happends => exact h.set _ hj rfl
  | next happends hahead => exact h.set _ hj rfl
  | finish happends hahead =>
    exact (h.set { t with finished := true } hj rfl).done (h.tasks t (List.mem_of_getElem? hj))

/-- **No call is early** as long as the reader waits for the counters. -/
theorem waiting_of_reachable {s : State α β}
    (h : Reachable (restrict (step files store) (ready files)) (started files) s) :
    Waiting files s := by
  refine Reachable.invariant (I := Waiting files) h ⟨trivial, nofun, nofun⟩ ?_
  intro s p s' hs hstep
  obtain ⟨hready, hstep⟩ := step_of_restrict hstep
  cases step_cases hstep with
  | reader hmove => exact hs.reader hready hmove
  | gc hmove => exact hs.collect hmove
  | task hj hrun hmove => exact hs.task hj hmove

/-! ## Runs in which the reader goes on without -/

theorem early_done {s : State α β} {i : ℕ} (hcounter : s.storeCounter.length ≤ i)
    (hpushed : pushed files s.gc ≤ i) : Early (done files s i) := by
  unfold done
  rw [List.getElem?_eq_none hcounter, if_neg (Nat.not_lt.mpr hpushed)]
  exact ⟨.doneBeforePush i, rfl, rfl⟩

/-- What a task does next. -/
theorem step_task {s : State α β} {j : ℕ} {t : StoreTask α β} (hok : s.misuse = none)
    (hj : s.tasks[j]? = some t) (hrun : t.finished = false) :
    step files store s (.task j) =
      match t.appends, t.ahead with
      | b :: rest, _ =>
        some { s with
          tasks := s.tasks.set j { t with appends := rest }, dataset := s.dataset ++ [b] }
      | [], p :: rest =>
        some { s with tasks := s.tasks.set j { t with ahead := rest, appends := store p } }
      | [], [] =>
        some (done files { s with
          tasks := s.tasks.set j { t with finished := true } } t.index) := by
  rw [step_eq hok]
  dsimp only
  unfold taskStep
  rw [hj]
  exact if_neg (by rw [hrun]; exact Bool.false_ne_true)

/-- A task without a counter can run to its call of `done()`. -/
theorem exists_early_of_task {j : ℕ} (s : State α β) (t : StoreTask α β) (hok : s.misuse = none)
    (hj : s.tasks[j]? = some t) (hrun : t.finished = false)
    (hcounter : s.storeCounter.length ≤ t.index) (hpushed : pushed files s.gc ≤ t.index) :
    ∃ s' : State α β, Reachable (step files store) s s' ∧ Early s' := by
  have hself : ∀ t' : StoreTask α β, (s.tasks.set j t')[j]? = some t' := fun t' =>
    List.getElem?_set_self (List.getElem?_eq_some_iff.mp hj).1
  match happends : t.appends, hahead : t.ahead with
  | b :: rest, _ =>
    have hmove : step files store s (.task j) = some { s with
        tasks := s.tasks.set j { t with appends := rest }, dataset := s.dataset ++ [b] } := by
      rw [step_task hok hj hrun, happends]
    obtain ⟨s', hreach, hearly⟩ := exists_early_of_task
      { s with tasks := s.tasks.set j { t with appends := rest }, dataset := s.dataset ++ [b] }
      { t with appends := rest } hok (hself _) hrun hcounter hpushed
    exact ⟨s', Reachable.trans (.move _ .start hmove) hreach, hearly⟩
  | [], p :: rest =>
    have hmove : step files store s (.task j) = some { s with
        tasks := s.tasks.set j { t with ahead := rest, appends := store p } } := by
      rw [step_task hok hj hrun, happends, hahead]
    obtain ⟨s', hreach, hearly⟩ := exists_early_of_task
      { s with tasks := s.tasks.set j { t with ahead := rest, appends := store p } }
      { t with ahead := rest, appends := store p } hok (hself _) hrun hcounter hpushed
    exact ⟨s', Reachable.trans (.move _ .start hmove) hreach, hearly⟩
  | [], [] =>
    have hmove : step files store s (.task j) = some (done files
        { s with tasks := s.tasks.set j { t with finished := true } } t.index) := by
      rw [step_task hok hj hrun, happends, hahead]
    exact ⟨_, .move _ .start hmove, early_done hcounter hpushed⟩
  termination_by (t.ahead.length, t.appends.length)
  decreasing_by
  · rw [happends]
    exact Prod.Lex.right _ (Nat.lt_succ_self _)
  · rw [hahead]
    exact Prod.Lex.left _ _ (Nat.lt_succ_self _)

/-- **Where the reader does not wait**, some schedule is early. -/
theorem exists_early_of_not_ready {s s' : State α β} (h : Inv files s)
    (hunready : ready files s .reader = false)
    (hstep : step files store s .reader = some s') :
    ∃ s'' : State α β, Reachable (step files store) s' s'' ∧ Early s'' := by
  have hok := misuse_of_step hstep
  have hlen := Nat.le_trans (Nat.le_of_eq h.length_storeCounter) (standing_le s.gc)
  cases step_cases hstep with
  | reader hmove =>
    cases hmove with
    | @start i started chunk hreader hchunk =>
      simp only [ready, hreader, Bool.or_eq_false_iff, decide_eq_false_iff_not, Nat.not_le,
        Nat.not_lt] at hunready
      exact exists_early_of_task _ _ hok List.getElem?_concat_length rfl
        (Nat.le_trans hlen hunready.2) hunready.2
    | @fill i calls hreader hcalls =>
      simp only [ready, hreader, Bool.or_eq_false_iff, decide_eq_false_iff_not, Nat.not_le,
        Nat.not_lt] at hunready
      exact ⟨_, .start, early_done (Nat.le_trans hlen hunready.2) hunready.2⟩
    | noGcTask hreader hgcTask => exact ⟨_, .start, .waitBeforeAssign, rfl, rfl⟩
    | allStarted hreader hchunk =>
      have hall := List.getElem?_eq_none_iff.mp hchunk
      simp only [ready, hreader, Bool.or_eq_false_iff, decide_eq_false_iff_not] at hunready
      exact absurd hall hunready.1
    | allFilled hreader hcalls =>
      simp only [ready, hreader, Bool.or_eq_false_iff, decide_eq_false_iff_not] at hunready
      exact absurd (Nat.not_lt.mp hcalls) hunready.1
    | sort hreader hgcTask hcount =>
      simp only [ready, hreader, hgcTask] at hunready
      cases hunready
    | _ hreader =>
      simp only [ready, hreader] at hunready
      cases hunready

/-! ## The first file -/

/-- The reader is at the first file, or has stopped there. -/
def AtFirst (reader : ReaderPhase) : Prop :=
  reader = .file 0 ∨ reader = .splitting 0 ∨ ∃ code, reader = .failed 0 code

theorem FirstStops.not_none (hfirst : FirstStops files) : files[0]? ≠ none := by
  rcases hfirst with (hfirst | hfirst) | ⟨rawVec, hfirst, -, -⟩ <;> rw [hfirst] <;> nofun

theorem FirstStops.not_empty (hfirst : FirstStops files) : files[0]? ≠ some (.packets []) := by
  intro hfile
  rcases hfirst with (hfirst | hfirst) | ⟨rawVec, hfirst, hne, -⟩
  · cases hfirst.symm.trans hfile
  · cases hfirst.symm.trans hfile
  · cases hfirst.symm.trans hfile
    exact hne rfl

/-- `splitVector` returns no chunks of the first file. -/
theorem FirstStops.not_split (hfirst : FirstStops files) {rawVec : List α}
    (hfile : files[0]? = some (.packets rawVec)) (splittedVec : List (List α)) :
    SplitVector.splitPackets rawVec ≠ some (.ok splittedVec) := by
  rcases hfirst with (hfirst | hfirst) | ⟨rawVec', hfirst, hne, hfew | hlong⟩
  · cases hfirst.symm.trans hfile
  · cases hfirst.symm.trans hfile
  · cases hfirst.symm.trans hfile
    rw [SplitVector.splitPackets_of_few hne hfew]
    nofun
  · cases hfirst.symm.trans hfile
    exact SplitVector.splitPackets_ne_ok_of_long hlong splittedVec

/-- A reader that does not come past the first file stays there. -/
theorem ReaderMove.stays {s s' : State α β} (hmove : ReaderMove files s s')
    (hfirst : FirstStops files) (hat : AtFirst s.reader) : AtFirst s'.reader := by
  have hbegin : ∀ {i : ℕ}, s.reader = .file i → i = 0 := by
    intro i hreader
    rcases hat with hat | hat | ⟨code, hat⟩
    · exact ReaderPhase.file.inj (hreader.symm.trans hat)
    · cases hreader.symm.trans hat
    · cases hreader.symm.trans hat
  have hnot : ∀ {phase : ReaderPhase}, s.reader = phase → AtFirst phase := fun h => h ▸ hat
  cases hmove with
  | noFile hreader hfile =>
    obtain rfl := hbegin hreader
    exact absurd hfile hfirst.not_none
  | noReader hreader hfile =>
    obtain rfl := hbegin hreader
    exact Or.inr (Or.inr ⟨_, rfl⟩)
  | notOpened hreader hfile =>
    obtain rfl := hbegin hreader
    exact Or.inr (Or.inr ⟨_, rfl⟩)
  | noPackets hreader hfile =>
    obtain rfl := hbegin hreader
    exact absurd hfile hfirst.not_empty
  | endless hreader hfile hne hsplit =>
    obtain rfl := hbegin hreader
    exact Or.inr (Or.inl rfl)
  | cutOutside hreader hfile hne hsplit => exact hat
  | packets hreader hfile hne hsplit =>
    obtain rfl := hbegin hreader
    exact absurd hsplit (hfirst.not_split hfile _)
  | _ hreader => rcases hnot hreader with hat | hat | ⟨code, hat⟩ <;> cases hat

/-- A reader that does not come past the first file uses no counter. -/
theorem reachable_of_stops {s : State α β} (hfirst : FirstStops files)
    (h : Reachable (step files store) (started files) s) :
    AtFirst s.reader ∧
      Reachable (restrict (step files store) (ready files)) (started files) s := by
  induction h with
  | start => exact ⟨Or.inl rfl, .start⟩
  | @move s s' p hreach hstep ih =>
    obtain ⟨hat, hwait⟩ := ih
    have hready : ready files s p = true := by
      cases p with
      | reader =>
        unfold ready
        rcases hat with hat | hat | ⟨code, hat⟩ <;> rw [hat]
      | _ => rfl
    refine ⟨?_, .move p hwait (restrict_of_step hready hstep)⟩
    cases step_cases hstep with
    | reader hmove => exact hmove.stays hfirst hat
    | gc hmove => exact hmove.reader ▸ hat
    | task hj hrun hmove => exact hmove.reader ▸ hat

theorem exists_early_of_unready {s : State α β}
    (hreach : Reachable (step files store) (started files) s) (hok : s.misuse = none)
    (hunready : ready files s .reader = false) (hmoves : (readerStep files s).isSome = true) :
    ∃ s' : State α β, Reachable (step files store) (started files) s' ∧ Early s' := by
  obtain ⟨s₁, hmove⟩ := Option.isSome_iff_exists.mp hmoves
  have hstep : step files store s .reader = some s₁ := (step_eq hok _).trans hmove
  obtain ⟨s', hrest, hearly⟩ :=
    exists_early_of_not_ready (inv_of_reachable inv_started hreach hok) hunready hstep
  exact ⟨s', Reachable.trans (.move _ hreach hstep) hrest, hearly⟩

/-- Before `GarbageCollection` has begun, the first call of the reader is early. -/
theorem exists_early_of_fill {s : State α β}
    (hreach : Reachable (step files store) (started files) s) (hok : s.misuse = none)
    (hgc : s.gc = .assign) (hreader : s.reader = .fill 0 0) (hfills : 0 < fillsOf files 0) :
    ∃ s' : State α β, Reachable (step files store) (started files) s' ∧ Early s' := by
  refine exists_early_of_unready hreach hok ?_ ?_
  · unfold ready
    rw [hreader, hgc]
    simp only [pushed, Bool.or_eq_false_iff, decide_eq_false_iff_not]
    exact ⟨Nat.not_le.mpr hfills, rfl⟩
  · unfold readerStep
    rw [hreader]
    dsimp only
    rw [if_pos hfills]
    rfl

/-- So is the first call of a task that is started before. -/
theorem exists_early_of_start {s : State α β}
    (hreach : Reachable (step files store) (started files) s) (hok : s.misuse = none)
    (hgc : s.gc = .assign) (hreader : s.reader = .start 0 0)
    (hchunks : 0 < (chunksOf files 0).length) :
    ∃ s' : State α β, Reachable (step files store) (started files) s' ∧ Early s' := by
  refine exists_early_of_unready hreach hok ?_ ?_
  · unfold ready
    rw [hreader, hgc]
    simp only [pushed, Bool.or_eq_false_iff, decide_eq_false_iff_not]
    exact ⟨Nat.not_le.mpr hchunks, rfl⟩
  · unfold readerStep
    rw [hreader]
    dsimp only
    rw [List.getElem?_eq_getElem hchunks]
    rfl

/-- A reader that comes past the first file is at a counter at once. -/
theorem exists_early_of_not_stops (store : α → List β) (hfirst : ¬ FirstStops files) :
    ∃ s : State α β, Reachable (step files store) (started files) s ∧ Early s := by
  let opened : ReaderPhase → State α β := fun reader => { started files with
    rawPacketVec := (started files : State α β).rawPacketVec.set 0 .loaded, reader := reader }
  have hmove : ∀ s : State α β, readerStep files (started files) = some s →
      Reachable (step files store) (started files) s :=
    fun s hmove => .move .reader .start ((step_eq rfl _).trans hmove)
  match hfirstFile : (files[0]? : Option (RawFile α)) with
  | none =>
    have hfile : readerStep files (started files : State α β) =
        some { started files with reader := .waitGc } := by
      simp only [readerStep, started, hfirstFile]
    exact exists_early_of_unready (hmove _ hfile) rfl rfl rfl
  | some .noReader => exact absurd (Or.inl (Or.inl hfirstFile)) hfirst
  | some .notOpened => exact absurd (Or.inl (Or.inr hfirstFile)) hfirst
  | some (.packets []) =>
    have hfile : readerStep files (started files : State α β) = some (opened (.fill 0 0)) := by
      simp only [readerStep, started, hfirstFile, opened]
    have hfills : fillsOf files 0 = storeMultithread := by rw [fillsOf, hfirstFile]
    exact exists_early_of_fill (hmove _ hfile) rfl rfl rfl (hfills ▸ by decide)
  | some (.packets (p :: ps)) =>
    have hnine : 9 ≤ (p :: ps).length := by
      by_contra hfew
      exact hfirst (Or.inr ⟨_, hfirstFile, List.cons_ne_nil p ps, Or.inl (Nat.not_le.mp hfew)⟩)
    have hlong : (p :: ps).length < 2 ^ 31 := by
      by_contra hlong
      exact hfirst (Or.inr ⟨_, hfirstFile, List.cons_ne_nil p ps, Or.inr (Nat.not_lt.mp hlong)⟩)
    obtain ⟨splittedVec, hsplit, -, hlength⟩ := SplitVector.splitPackets_spec hnine hlong
    have hfile : readerStep files (started files : State α β) = some (opened (.start 0 0)) := by
      simp only [readerStep, started, hfirstFile, hsplit, opened]
    have hchunks : chunksOf files 0 = splittedVec := by
      simp only [chunksOf, hfirstFile, hsplit]
    exact exists_early_of_start (hmove _ hfile) rfl rfl rfl (by rw [hchunks]; omega)

/-- **Counters are made before they are used** in every run in which the reader waits for them;
where it does not, some schedule is early.  All schedules are as meant exactly when the reader does
not come past the first file. -/
theorem countersBeforeUse_iff (files : List (RawFile α)) (store : α → List β) :
    (∀ s, Reachable (restrict (step files store) (ready files)) (started files) s → ¬ Early s) ∧
      (∀ s s', Reachable (restrict (step files store) (ready files)) (started files) s →
        ready files s .reader = false → step files store s .reader = some s' →
          ∃ s'', Reachable (step files store) s' s'' ∧ Early s'') ∧
      ((∀ s, Reachable (step files store) (started files) s → ¬ Early s) ↔ FirstStops files) := by
  refine ⟨fun s hs => (waiting_of_reachable hs).early, ?_, ?_, ?_⟩
  · intro s s' hs hunready hstep
    exact exists_early_of_not_ready
      (inv_of_reachable inv_started hs.of_restrict (misuse_of_step hstep)) hunready hstep
  · intro hall
    by_contra hfirst
    obtain ⟨s, hs, hearly⟩ := exists_early_of_not_stops store hfirst
    exact hall s hs hearly
  · intro hfirst s hs
    exact (waiting_of_reachable (reachable_of_stops hfirst hs).2).early

/-- A file with nine packets. -/
def ninePackets : List (RawFile ℕ) := [.packets [1, 2, 3, 4, 5, 6, 7, 8, 9]]

/-- **A task can finish before its counter is there**, and a reader without files waits for a
`gcTask` that is not there. -/
theorem not_countersBeforeUse_ninePackets :
    (¬ ∀ s : State ℕ ℕ, Reachable (step ninePackets fun p => [p]) (started ninePackets) s →
      ¬ Early s) ∧
    ¬ ∀ s : State ℕ ℕ, Reachable (step [] fun p => [p]) (started []) s → ¬ Early s := by
  have hdone : ((run (step ninePackets fun p => [p]) (started ninePackets)
      [.reader, .reader, .task 0, .task 0, .task 0]).map State.misuse :
        Option (Option Misuse)) = some (some (.doneBeforePush 0)) := by
    decide +kernel
  have hwait : ((run (step [] fun p : ℕ => [p]) (started []) [.reader, .reader]).map
      State.misuse) = some (some .waitBeforeAssign) := by
    decide
  constructor
  · obtain ⟨s, hrun, hmisuse⟩ := Option.map_eq_some_iff.mp hdone
    exact fun hall => hall s (reachable_of_run _ _ hrun) ⟨_, hmisuse, rfl⟩
  · obtain ⟨s, hrun, hmisuse⟩ := Option.map_eq_some_iff.mp hwait
    exact fun hall => hall s (reachable_of_run _ _ hrun) ⟨_, hmisuse, rfl⟩

end RawReading
end BurstIoT
