import BurstIoT.Library.StepSystem
import BurstIoT.SplitVector

/-!
# Reading the capture files

`RawCvtoPktDataset` reads the files one after another and starts a `StoreKPackets` task for each
chunk of a file.  A further task, `GarbageCollection`, makes the counters, waits for the counter of
each file, frees its packets, and in the end lets the reader go on to `PacketDataset::Sort`.

The three kinds of parties are one step system.  A `WaitGroup` is its count, and `wait()` passes
once the count is zero or less.  A call through a counter that is not there ends the run: the state
records it as a misuse, and no party moves any more.

The chunks of a file are those that `splitVector` returns for its packets.  It need not return: with
fewer than nine packets the reader is in its loop for ever, and from `2 ^ 31` packets on it cuts
where the vector is not, which ends the run as a misuse does.

A packet is a value of `α`, and `store` gives what `StoreKPackets` appends to the packet dataset for
it, one `AddPacket` after another.
-/

namespace BurstIoT
namespace RawReading

variable {α β : Type}

/-- A file as `getReader`, `open` and `getNextPackets` show it. -/
inductive RawFile (α : Type) where
  | noReader
  | notOpened
  | packets (rawVec : List α)
  deriving DecidableEq, Repr

/-- One `StoreKPackets` task: its arguments, the packets ahead of it, and what it has still to
append for the packet it works on. -/
structure StoreTask (α β : Type) where
  index : ℕ
  rawVec : List α
  ahead : List α
  appends : List β := []
  finished : Bool := false
  deriving DecidableEq, Repr

/-- Where `GarbageCollection` stands. -/
inductive GcPhase where
  | assign
  | push (i : ℕ)
  | wait (i : ℕ)
  | clear (i : ℕ)
  | delete (i : ℕ)
  | drop
  | done
  | finished
  deriving DecidableEq, Repr

/-- Where `RawCvtoPktDataset` stands: before file `i`, for ever in `splitVector` on its packets,
with `started` tasks of file `i`, with `calls` of `done()` made for file `i`, before
`gcTask->wait()`, after it, or left by an exception. -/
inductive ReaderPhase where
  | file (i : ℕ)
  | splitting (i : ℕ)
  | start (i started : ℕ)
  | fill (i calls : ℕ)
  | waitGc
  | sorted
  | failed (i : ℕ) (code : KException)
  deriving DecidableEq, Repr

/-- An entry of `rawPacketVec`. -/
inductive RawVec where
  | null
  | loaded
  | cleared
  deriving DecidableEq, Repr

/-- A call through a pointer or an entry that is not there, or a cut where the vector is not. -/
inductive Misuse where
  | cutOutside (i : ℕ)
  | doneBeforePush (i : ℕ)
  | doneAfterDelete (i : ℕ)
  | waitBeforeAssign
  | clearBeforeLoad (i : ℕ)
  deriving DecidableEq, Repr

/-- The converter and its parties. -/
structure State (α β : Type) where
  rawPacketVec : List RawVec
  storeCounter : List (Option ℤ)
  gcTask : Option ℤ
  gc : GcPhase
  reader : ReaderPhase
  tasks : List (StoreTask α β)
  dataset : List β
  misuse : Option Misuse
  deriving DecidableEq, Repr

/-- Who moves. -/
inductive Party where
  | reader
  | gc
  | task (j : ℕ)
  deriving DecidableEq, Repr

/-! ## The files -/

variable (files : List (RawFile α))

/-- `splittedVec` of file `i`. -/
def chunksOf (i : ℕ) : List (List α) :=
  match files[i]? with
  | some (.packets rawVec) =>
    match SplitVector.splitPackets rawVec with
    | some (.ok splittedVec) => splittedVec
    | _ => []
  | _ => []

/-- How often the reader calls `done()` on the counter of file `i`. -/
def fillsOf (i : ℕ) : ℕ :=
  match files[i]? with
  | some (.packets []) => storeMultithread
  | some (.packets _) => SplitVector.fillers (chunksOf files i).length
  | _ => 0

/-! ## The moves -/

/-- How many counters `GarbageCollection` has pushed. -/
def pushed : GcPhase → ℕ
  | .assign => 0
  | .push i => i
  | _ => files.length

/-- `storeCounter[i]->done()`. -/
def done (s : State α β) (i : ℕ) : State α β :=
  match s.storeCounter[i]? with
  | some (some count) => { s with storeCounter := s.storeCounter.set i (some (count - 1)) }
  | _ =>
    let misuse := if i < pushed files s.gc then .doneAfterDelete i else .doneBeforePush i
    { s with misuse := some misuse }

/-- One move of `RawCvtoPktDataset`. -/
def readerStep (s : State α β) : Option (State α β) :=
  match s.reader with
  | .file i =>
    match files[i]? with
    | none => some { s with reader := .waitGc }
    | some .noReader => some { s with reader := .failed i .pcapFormatError }
    | some .notOpened => some { s with reader := .failed i .pcapCannotOpen }
    | some (.packets []) =>
      some { s with rawPacketVec := s.rawPacketVec.set i .loaded, reader := .fill i 0 }
    | some (.packets rawVec) =>
      match SplitVector.splitPackets rawVec with
      | none =>
        some { s with rawPacketVec := s.rawPacketVec.set i .loaded, reader := .splitting i }
      | some (.error _) => some { s with misuse := some (.cutOutside i) }
      | some (.ok _) =>
        some { s with rawPacketVec := s.rawPacketVec.set i .loaded, reader := .start i 0 }
  | .splitting _ => none
  | .start i started =>
    match (chunksOf files i)[started]? with
    | some chunk =>
      some { s with
        tasks := s.tasks ++ [{ index := i, rawVec := chunk, ahead := chunk }]
        reader := .start i (started + 1) }
    | none => some { s with reader := .fill i 0 }
  | .fill i calls =>
    if calls < fillsOf files i then some (done files { s with reader := .fill i (calls + 1) } i)
    else some { s with reader := .file (i + 1) }
  | .waitGc =>
    match s.gcTask with
    | none => some { s with misuse := some .waitBeforeAssign }
    | some count => if count ≤ 0 then some { s with reader := .sorted } else none
  | .sorted => none
  | .failed _ _ => none

/-- One move of `GarbageCollection`. -/
def gcStep (s : State α β) : Option (State α β) :=
  match s.gc with
  | .assign => some { s with gcTask := some 1, gc := .push 0 }
  | .push i =>
    if i < files.length then
      some { s with
        storeCounter := s.storeCounter ++ [some (storeMultithread : ℤ)], gc := .push (i + 1) }
    else some { s with gc := .wait 0 }
  | .wait i =>
    if i < files.length then
      match s.storeCounter[i]? with
      | some (some count) => if count ≤ 0 then some { s with gc := .clear i } else none
      | _ => none
    else some { s with gc := .delete 0 }
  | .clear i =>
    if s.rawPacketVec[i]? = some .loaded then
      some { s with rawPacketVec := s.rawPacketVec.set i .cleared, gc := .wait (i + 1) }
    else some { s with misuse := some (.clearBeforeLoad i) }
  | .delete i =>
    if i < files.length then
      some { s with storeCounter := s.storeCounter.set i none, gc := .delete (i + 1) }
    else some { s with gc := .drop }
  | .drop => some { s with storeCounter := [], gc := .done }
  | .done => some { s with gcTask := s.gcTask.map (· - 1), gc := .finished }
  | .finished => none

/-- One move of task `j`: append a packet, take the next one, or call `done()` at the end. -/
def taskStep (store : α → List β) (s : State α β) (j : ℕ) : Option (State α β) :=
  match s.tasks[j]? with
  | none => none
  | some t =>
    if t.finished then none
    else
      match t.appends, t.ahead with
      | b :: rest, _ =>
        some { s with
          tasks := s.tasks.set j { t with appends := rest }, dataset := s.dataset ++ [b] }
      | [], p :: rest =>
        some { s with tasks := s.tasks.set j { t with ahead := rest, appends := store p } }
      | [], [] =>
        some (done files { s with tasks := s.tasks.set j { t with finished := true } } t.index)

variable (store : α → List β)

/-- One move of one party. -/
def step (s : State α β) (p : Party) : Option (State α β) :=
  if s.misuse.isSome then none
  else
    match p with
    | .reader => readerStep files s
    | .gc => gcStep files s
    | .task j => taskStep files store s j

variable {files store} in
theorem step_eq {s : State α β} (hok : s.misuse = none) (p : Party) :
    step files store s p =
      match p with
      | .reader => readerStep files s
      | .gc => gcStep files s
      | .task j => taskStep files store s j :=
  if_neg (by rw [hok]; exact Bool.false_ne_true)

/-- The state in which `RawCvtoPktDataset` has started `GarbageCollection`. -/
def started : State α β where
  rawPacketVec := List.replicate files.length .null
  storeCounter := []
  gcTask := none
  gc := .assign
  reader := .file 0
  tasks := []
  dataset := []
  misuse := none

/-- The same with all counters made. -/
def countersMade : State α β :=
  { started files with
    storeCounter := List.replicate files.length (some (storeMultithread : ℤ))
    gcTask := some 1
    gc := .wait 0 }

end RawReading
end BurstIoT
