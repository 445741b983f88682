import Mathlib.Data.List.Induction
import BurstIoT.SplitVector

/-!
# The profile writer

`Instrumentor` writes a trace of timed events: `BeginSession` opens a file and writes the header,
each timer that ends writes its event with `WriteProfile`, and `EndSession` writes the footer and
closes the file.  A comma goes before an event when `m_ProfileCount`, an `int` that wraps, is
greater than zero.  `BeginSession` does not look whether the file has opened: where it has not, all
that the session writes is lost.

Below the writer stands what a trace is (`Profile`): sessions one after another, each with its
events.  A list of calls is read as a profile, unless some call comes outside a session or a session
begins inside another.  `Shows.call` says that the writer keeps up with the profile, call by call,
as long as the files open and the counter has not wrapped, and `shows_of_calls` that it does over a
whole list of calls.  Where it is not ready for a call (`Shows.not_written`), the header or a comma
is missing, and an event that comes between two sessions leaves the counter at one for the next
session (`Shows.late_event`).
-/

namespace BurstIoT

/-- A `ProfileResult`.  The thread is given as it is printed. -/
structure ProfileResult where
  name : String
  start : ℤ
  stop : ℤ
  threadId : String
  deriving DecidableEq, Repr

/-- The double quotes of a name become single ones. -/
def ProfileResult.quoted (result : ProfileResult) : String :=
  result.name.map fun c => if c = '"' then Char.ofNat 39 else c

/-- What `WriteProfile` writes for an event. -/
def ProfileResult.text (result : ProfileResult) : String :=
  "\x7b" ++ "\"cat\":\"function\"," ++ "\"dur\":" ++ toString (result.stop - result.start) ++ "," ++
    "\"name\":\"" ++ result.quoted ++ "\"," ++ "\"ph\":\"X\"," ++ "\"pid\":0," ++
    "\"tid\":" ++ result.threadId ++ "," ++ "\"ts\":" ++ toString result.start ++ "\x7d"

/-- A file with what has been written to it. -/
structure Output where
  filepath : String
  text : String
  deriving DecidableEq, Repr

/-- `m_OutputStream`: the open file, and whether the stream is in a good state. -/
structure OutputStream where
  file : Option Output := none
  good : Bool := true
  deriving DecidableEq, Repr

/-- The `Instrumentor`, with the files it has closed and what it has printed. -/
structure Instrumentor where
  currentSession : Option String := none
  outputStream : OutputStream := {}
  profileCount : ℤ := 0
  files : List Output := []
  cout : List String := []
  deriving DecidableEq, Repr

namespace Instrumentor

/-! ## The stream -/

/-- `m_OutputStream.open(filepath)`.  An open stream cannot be opened again, and a closed one only
where the file system lets it. -/
def openStream (I : Instrumentor) (filepath : String) (canOpen : Bool) : Instrumentor :=
  match I.outputStream.file with
  | none =>
    if canOpen then { I with outputStream := { file := some { filepath := filepath, text := "" } } }
    else { I with outputStream := { file := none, good := false } }
  | some file => { I with outputStream := { file := some file, good := false } }

/-- `m_OutputStream << text`.  What goes to a closed stream, or to one that is not good, is lost. -/
def write (I : Instrumentor) (text : String) : Instrumentor :=
  match I.outputStream with
  | { file := some file, good := true } =>
    { I with outputStream := { file := some { file with text := file.text ++ text } } }
  | { file := file, good := _ } => { I with outputStream := { file := file, good := false } }

/-- `m_OutputStream.close()`. -/
def closeStream (I : Instrumentor) : Instrumentor :=
  match I.outputStream.file with
  | none => { I with outputStream := { file := none, good := false } }
  | some file =>
    { I with outputStream := { I.outputStream with file := none }, files := I.files ++ [file] }

/-! ## The calls -/

/-- What `WriteHeader` writes. -/
def header : String :=
  "\x7b\"otherData\": \x7b\x7d,\"traceEvents\":["

/-- What `WriteFooter` writes. -/
def footer : String :=
  "]\x7d"

/-- `WriteHeader`. -/
def writeHeader (I : Instrumentor) : Instrumentor :=
  I.write header

/-- `WriteFooter`. -/
def writeFooter (I : Instrumentor) : Instrumentor :=
  I.write footer

/-- `BeginSession`. -/
def beginSession (I : Instrumentor) (name filepath : String) (canOpen : Bool) : Instrumentor :=
  let I :=
    if I.profileCount ≠ 0 then
      { I with cout := I.cout ++ ["something wrong m_profile count is not 0"] }
    else I
  let I := (I.openStream filepath canOpen).writeHeader
  { I with currentSession := some name }

/-- `EndSession`. -/
def endSession (I : Instrumentor) : Instrumentor :=
  let I := I.writeFooter.closeStream
  { I with currentSession := none, profileCount := 0 }

/-- `WriteProfile`. -/
def writeProfile (I : Instrumentor) (result : ProfileResult) : Instrumentor :=
  let I' := { I with profileCount := wrapInt (I.profileCount + 1) }
  let I' := if 0 < I.profileCount then I'.write "," else I'
  I'.write result.text

/-- A call to the `Instrumentor`; at `BeginSession`, whether the file can be opened. -/
inductive Call where
  | beginSession (name filepath : String) (canOpen : Bool)
  | writeProfile (result : ProfileResult)
  | endSession
  deriving DecidableEq, Repr

/-- One call. -/
def call (I : Instrumentor) : Call → Instrumentor
  | .beginSession name filepath canOpen => I.beginSession name filepath canOpen
  | .writeProfile result => I.writeProfile result
  | .endSession => I.endSession

/-- The file opens, and the counter has not wrapped. -/
def ready (I : Instrumentor) : Call → Bool
  | .beginSession _ _ canOpen => canOpen
  | .writeProfile _ => 0 ≤ I.profileCount
  | .endSession => true

/-- The `Instrumentor` after some calls. -/
def after (calls : List Call) : Instrumentor :=
  calls.foldl call {}

theorem after_append (calls : List Call) (c : Call) :
    after (calls ++ [c]) = (after calls).call c := by
  unfold after
  rw [List.foldl_append]
  rfl

end Instrumentor

open Instrumentor

/-! ## Profiles -/

/-- A session of a profile. -/
structure Trace where
  name : String
  filepath : String
  events : List ProfileResult := []
  deriving DecidableEq, Repr

/-- The sessions that have ended, and the one that has not. -/
structure Profile where
  closed : List Trace := []
  current : Option Trace := none
  deriving DecidableEq, Repr

namespace Trace

/-- The file of a session that has not ended: the header, and the events with single commas between
them. -/
def opened (t : Trace) : Output where
  filepath := t.filepath
  text := header ++ ",".intercalate (t.events.map ProfileResult.text)

/-- The file of a session: the header, the events with single commas between them, the footer. -/
def output (t : Trace) : Output where
  filepath := t.filepath
  text := t.opened.text ++ footer

end Trace

namespace Profile

/-- A call read as a part of a profile: a session begins outside all sessions, an event is written
in a session, and only a session ends. -/
def call : Profile → Call → Option Profile
  | { closed, current := none }, .beginSession name filepath _ =>
    some { closed := closed, current := some { name := name, filepath := filepath } }
  | { closed, current := some t }, .writeProfile result =>
    some { closed := closed, current := some { t with events := t.events ++ [result] } }
  | { closed, current := some t }, .endSession =>
    some { closed := closed ++ [t], current := none }
  | _, _ => none

/-- The profile that a list of calls is, if it is one. -/
def ofCalls (calls : List Call) : Option Profile :=
  calls.foldlM call {}

theorem ofCalls_append (calls : List Call) (c : Call) :
    ofCalls (calls ++ [c]) = (ofCalls calls).bind fun p => p.call c := by
  unfold ofCalls
  rw [List.foldlM_append]
  cases List.foldlM call {} calls with
  | none => rfl
  | some p =>
    show (p.call c).bind some = p.call c
    exact Option.bind_fun_some _

/-- **The files are as they should be**: each session's file is its output. -/
def Written (p : Profile) (I : Instrumentor) : Prop :=
  I.files = p.closed.map Trace.output ∧ I.outputStream.file = p.current.map Trace.opened

/-- The number of events of the current session. -/
def count (p : Profile) : ℕ :=
  match p.current with
  | none => 0
  | some t => t.events.length

end Profile

/-! ## The writer keeps up -/

/-- The `Instrumentor` has written the profile, and is ready for the next call. -/
structure Shows (p : Profile) (I : Instrumentor) : Prop where
  written : p.Written I
  good : p.current ≠ none → I.outputStream.good = true
  currentSession : I.currentSession = p.current.map Trace.name
  profileCount : I.profileCount = toInt p.count
  short : p.count ≤ 2 ^ 31
  cout : I.cout = []

theorem shows_start : Shows {} {} where
  written := ⟨rfl, rfl⟩
  good := fun h => absurd rfl h
  currentSession := rfl
  profileCount := toInt_zero.symm
  short := Nat.zero_le _
  cout := rfl

theorem toInt_two_pow : toInt (2 ^ 31) = -2 ^ 31 := by
  decide

/-- One more event: with a comma before it, unless it is the first one. -/
theorem Trace.opened_append (t : Trace) (result : ProfileResult) :
    ({ t with events := t.events ++ [result] } : Trace).opened.text =
      t.opened.text ++ (if t.events = [] then "" else ",") ++ result.text := by
  unfold Trace.opened
  rw [List.map_append]
  by_cases hempty : t.events = []
  · rw [hempty, if_pos rfl]
    simp
  · have hne : t.events.map ProfileResult.text ≠ [] := fun h => hempty (List.map_eq_nil_iff.mp h)
    rw [if_neg hempty, List.map_singleton,
      String.intercalate_append_of_ne_nil hne (List.cons_ne_nil _ _), String.intercalate_singleton]
    simp only [String.append_assoc]

namespace Instrumentor

/-- What is written to a good stream is appended to its file. -/
theorem write_of_good {I : Instrumentor} {file : Output} (hfile : I.outputStream.file = some file)
    (hgood : I.outputStream.good = true) (text : String) :
    I.write text =
      { I with outputStream := { file := some { file with text := file.text ++ text } } } := by
  obtain ⟨currentSession, ⟨file', good⟩, profileCount, files, cout⟩ := I
  cases hfile
  cases hgood
  rfl

/-- `WriteProfile` in a session. -/
theorem writeProfile_of_good {I : Instrumentor} {file : Output}
    (hfile : I.outputStream.file = some file) (hgood : I.outputStream.good = true)
    (result : ProfileResult) :
    I.writeProfile result =
      { I with
        profileCount := wrapInt (I.profileCount + 1)
        outputStream := { file := some { file with
          text := file.text ++ (if 0 < I.profileCount then "," else "") ++ result.text } } } := by
  obtain ⟨currentSession, ⟨file', good⟩, profileCount, files, cout⟩ := I
  cases hfile
  cases hgood
  unfold writeProfile
  dsimp only
  by_cases hpos : 0 < profileCount
  · rw [if_pos hpos, if_pos hpos]
    rfl
  · rw [if_neg hpos, if_neg hpos, String.append_empty]
    rfl

end Instrumentor

/-- A session whose file does not open has no header. -/
theorem not_written_unopened {p p' : Profile} {I : Instrumentor}
    (hfile : p.current = none → I.outputStream.file = none) {name filepath : String}
    (hp : p.call (.beginSession name filepath false) = some p') :
    ¬ p'.Written (I.beginSession name filepath false) := by
  obtain ⟨closed, current⟩ := p
  obtain ⟨currentSession, ⟨file, good⟩, profileCount, files, cout⟩ := I
  cases current with
  | some t => cases hp
  | none =>
    cases hp
    obtain rfl : file = none := hfile rfl
    rintro ⟨-, hopened⟩
    unfold beginSession at hopened
    dsimp only at hopened
    split at hopened <;> cases hopened

namespace Shows

variable {p p' : Profile} {I : Instrumentor}

/-- Between sessions no file is open. -/
theorem file_of_closed (h : Shows p I) (hcurrent : p.current = none) :
    I.outputStream.file = none := by
  rw [h.written.2, hcurrent]
  rfl

/-- Between sessions the counter is zero. -/
theorem beginSession (h : Shows p I) {name filepath : String}
    (hp : p.call (.beginSession name filepath true) = some p') :
    Shows p' (I.beginSession name filepath true) := by
  obtain ⟨closed, current⟩ := p
  obtain ⟨currentSession, ⟨file, good⟩, profileCount, files, cout⟩ := I
  cases current with
  | some t => cases hp
  | none =>
    cases hp
    obtain rfl : file = none := h.written.2
    obtain rfl : profileCount = 0 := h.profileCount.trans toInt_zero
    obtain rfl : cout = [] := h.cout
    have hshort : (0 : ℕ) ≤ 2 ^ 31 := Nat.zero_le _
    refine ⟨⟨h.written.1, ?_⟩, fun _ => rfl, rfl, toInt_zero.symm, hshort, rfl⟩
    show some (Output.mk filepath ("" ++ header)) = some (Output.mk filepath (header ++ ""))
    rw [String.empty_append, String.append_empty]

theorem endSession (h : Shows p I) (hp : p.call .endSession = some p') :
    Shows p' I.endSession := by
  obtain ⟨closed, current⟩ := p
  cases current with
  | none => cases hp
  | some t =>
    cases hp
    have hclose : I.endSession = { I with
        currentSession := none
        outputStream := {}
        profileCount := 0
        files := I.files ++ [t.output] } := by
      unfold Instrumentor.endSession writeFooter
      rw [write_of_good h.written.2 (h.good (Option.some_ne_none t))]
      rfl
    rw [hclose]
    have hshort : (0 : ℕ) ≤ 2 ^ 31 := Nat.zero_le _
    refine ⟨⟨?_, rfl⟩, fun hne => absurd rfl hne, rfl, toInt_zero.symm, hshort, h.cout⟩
    show I.files ++ [t.output] = (closed ++ [t]).map Trace.output
    rw [h.written.1, List.map_append]
    rfl

/-- The counter has not wrapped: it is the number of events. -/
theorem count_lt (h : Shows p I) (hcount : 0 ≤ I.profileCount) :
    p.count < 2 ^ 31 ∧ I.profileCount = p.count := by
  have hlt : p.count < 2 ^ 31 := by
    refine Nat.lt_of_le_of_ne h.short fun heq => ?_
    rw [h.profileCount, heq, toInt_two_pow] at hcount
    exact absurd hcount (by decide)
  exact ⟨hlt, h.profileCount.trans (toInt_of_lt hlt)⟩

/-- The counter has wrapped: the session has `2 ^ 31` events. -/
theorem count_eq (h : Shows p I) (hcount : I.profileCount < 0) : p.count = 2 ^ 31 := by
  by_contra hne
  have hlt : p.count < 2 ^ 31 := Nat.lt_of_le_of_ne h.short hne
  rw [h.profileCount, toInt_of_lt hlt] at hcount
  omega

theorem writeProfile (h : Shows p I) (hcount : 0 ≤ I.profileCount) {result : ProfileResult}
    (hp : p.call (.writeProfile result) = some p') : Shows p' (I.writeProfile result) := by
  obtain ⟨closed, current⟩ := p
  cases current with
  | none => cases hp
  | some t =>
    cases hp
    obtain ⟨hshort, heq⟩ := h.count_lt hcount
    change t.events.length < 2 ^ 31 at hshort
    change I.profileCount = (t.events.length : ℕ) at heq
    have hcomma : (if 0 < I.profileCount then "," else "") =
        if t.events = [] then "" else "," := by
      rw [heq]
      cases t.events with
      | nil => rfl
      | cons e events =>
        have hpos : (0 : ℤ) < ((e :: events).length : ℕ) :=
          Int.natCast_pos.mpr (Nat.succ_pos events.length)
        rw [if_pos hpos, if_neg (List.cons_ne_nil e events)]
    rw [writeProfile_of_good h.written.2 (h.good (Option.some_ne_none t)), hcomma]
    refine ⟨⟨h.written.1, ?_⟩, fun _ => rfl, h.currentSession, ?_, ?_, h.cout⟩
    · show some (Output.mk _ _) = some (Trace.opened _)
      rw [← Trace.opened_append]
      rfl
    · show wrapInt (I.profileCount + 1) = toInt (t.events ++ [result]).length
      rw [h.profileCount, toInt_succ, List.length_append]
      rfl
    · show (t.events ++ [result]).length ≤ 2 ^ 31
      rw [List.length_append, List.length_singleton]
      exact hshort

/-- **The writer keeps up with the profile**, call by call, as long as it is ready for them. -/
theorem call (h : Shows p I) {c : Call} (hp : p.call c = some p') (hready : I.ready c = true) :
    Shows p' (I.call c) := by
  cases c with
  | beginSession name filepath canOpen =>
    obtain rfl : canOpen = true := hready
    exact h.beginSession hp
  | writeProfile result => exact h.writeProfile (of_decide_eq_true hready) hp
  | endSession => exact h.endSession hp

/-- Once the counter has wrapped, an event is written without its comma. -/
theorem not_written_wrapped (h : Shows p I) (hcount : I.profileCount < 0) {result : ProfileResult}
    (hp : p.call (.writeProfile result) = some p') : ¬ p'.Written (I.writeProfile result) := by
  obtain ⟨closed, current⟩ := p
  cases current with
  | none => cases hp
  | some t =>
    cases hp
    have hlen : t.events.length = 2 ^ 31 := h.count_eq hcount
    have hne : t.events ≠ [] := fun hempty => by
      rw [hempty] at hlen
      cases hlen
    rw [writeProfile_of_good h.written.2 (h.good (Option.some_ne_none t)),
      if_neg (Int.not_lt.mpr (Int.le_of_lt hcount))]
    rintro ⟨-, hfile⟩
    have htext : t.opened.text ++ "" ++ result.text = t.opened.text ++ "," ++ result.text := by
      have := congrArg Output.text (Option.some_inj.mp hfile)
      rw [Trace.opened_append, if_neg hne] at this
      exact this
    have hlength := congrArg String.length htext
    simp at hlength

/-- **Where the writer is not ready for a call**, it does not keep up. -/
theorem not_written (h : Shows p I) {c : Call} (hp : p.call c = some p')
    (hready : I.ready c = false) : ¬ p'.Written (I.call c) := by
  cases c with
  | beginSession name filepath canOpen =>
    obtain rfl : canOpen = false := hready
    exact not_written_unopened h.file_of_closed hp
  | writeProfile result =>
    exact h.not_written_wrapped (Int.not_le.mp (of_decide_eq_false hready)) hp
  | endSession => cases hready

/-- **An event after the end of a session** is lost, and the next session begins with a comma. -/
theorem late_event (h : Shows p I) (hcurrent : p.current = none) (late result : ProfileResult)
    (name filepath : String) :
    (((I.writeProfile late).beginSession name filepath true).writeProfile
        result).outputStream.file =
        some { filepath := filepath, text := header ++ "," ++ result.text } ∧
      (I.writeProfile late).files = I.files := by
  obtain ⟨currentSession, ⟨file, good⟩, profileCount, files, cout⟩ := I
  obtain ⟨closed, current⟩ := p
  obtain rfl : current = none := hcurrent
  obtain rfl : file = none := h.written.2
  obtain rfl : profileCount = 0 := h.profileCount.trans toInt_zero
  refine ⟨?_, rfl⟩
  show some (Output.mk filepath ("" ++ header ++ "," ++ result.text)) = _
  rw [String.empty_append]

end Shows

/-! ## The writer on its own -/

/-- Each call adds at most one event. -/
theorem Profile.count_call {p p' : Profile} {c : Call} (h : p.call c = some p') :
    p'.count ≤ p.count + 1 := by
  obtain ⟨closed, current⟩ := p
  cases current with
  | none =>
    cases c with
    | beginSession name filepath canOpen =>
      cases h
      exact Nat.zero_le _
    | writeProfile result => cases h
    | endSession => cases h
  | some t =>
    cases c with
    | beginSession name filepath canOpen => cases h
    | writeProfile result =>
      cases h
      exact Nat.le_of_eq (List.length_append ..)
    | endSession =>
      cases h
      exact Nat.zero_le _

/-- After the end of a session no file is open. -/
theorem file_of_ofCalls (calls : List Call) {p : Profile} (h : Profile.ofCalls calls = some p)
    (hcurrent : p.current = none) : (after calls).outputStream.file = none := by
  induction calls using List.reverseRecOn with
  | nil => rfl
  | append_singleton calls c _ =>
    rw [Profile.ofCalls_append] at h
    obtain ⟨⟨closed, current⟩, -, hp⟩ := Option.bind_eq_some_iff.mp h
    cases c with
    | beginSession name filepath canOpen =>
      cases current with
      | some t => cases hp
      | none =>
        cases hp
        cases hcurrent
    | writeProfile result =>
      cases current with
      | none => cases hp
      | some t =>
        cases hp
        cases hcurrent
    | endSession =>
      rw [after_append]
      show (Instrumentor.closeStream _).outputStream.file = none
      unfold closeStream
      split <;> rfl

/-- **Calls that are a profile** are written as one, up to `2 ^ 31` of them, where the files open.
-/
theorem shows_of_calls (calls : List Call) (hlen : calls.length ≤ 2 ^ 31)
    (hopen : ∀ name filepath, Call.beginSession name filepath false ∉ calls) {p : Profile}
    (h : Profile.ofCalls calls = some p) : Shows p (after calls) ∧ p.count ≤ calls.length := by
  induction calls using List.reverseRecOn generalizing p with
  | nil =>
    cases h
    exact ⟨shows_start, Nat.zero_le _⟩
  | append_singleton calls c ih =>
    rw [List.length_append, List.length_singleton] at hlen
    rw [Profile.ofCalls_append] at h
    obtain ⟨p₀, hp₀, hp⟩ := Option.bind_eq_some_iff.mp h
    obtain ⟨hshows, hcount⟩ := ih (Nat.le_of_succ_le hlen)
      (fun name filepath hmem => hopen name filepath (List.mem_append_left _ hmem)) hp₀
    have hlt : p₀.count < 2 ^ 31 := Nat.lt_of_le_of_lt hcount hlen
    rw [after_append]
    refine ⟨hshows.call hp ?_, ?_⟩
    · cases c with
      | beginSession name filepath canOpen =>
        cases canOpen with
        | true => rfl
        | false =>
          exact absurd (List.mem_append_right _ (List.mem_singleton.mpr rfl)) (hopen name filepath)
      | writeProfile result =>
        refine decide_eq_true ?_
        rw [hshows.profileCount, toInt_of_lt hlt]
        exact Int.natCast_nonneg _
      | endSession => rfl
    · rw [List.length_append, List.length_singleton]
      exact Nat.le_trans (Profile.count_call hp) (Nat.succ_le_succ hcount)

end BurstIoT
