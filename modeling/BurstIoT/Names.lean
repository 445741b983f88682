import Mathlib.Data.List.Basic
import Mathlib.Order.Basic

/-!
# Names

The string functions of `Utils.cpp` and `KDevice.h`: `SplitString`, `SplitPairStrByComma`,
`removeSuffix` and `MakeFormattedName`.  A string is read as the list of its characters, and a
position that may be `npos` is an `Option ℕ`.

The loop of `SplitString` is run with fuel, and `none` means that the fuel has run out.
`splitLoop_isSome` says that it does not.
-/

namespace BurstIoT

/-! ## Splitting -/

/-- The first position from `pos` on whose character passes the test. -/
def findFrom (test : Char → Bool) (s : List Char) (pos : Option ℕ) : Option ℕ :=
  pos.bind fun pos => ((s.drop pos).findIdx? test).map (pos + ·)

/-- `find_first_not_of`. -/
def findFirstNotOf (s delimiters : List Char) (pos : Option ℕ) : Option ℕ :=
  findFrom (fun c => !delimiters.contains c) s pos

/-- `find_first_of`. -/
def findFirstOf (s delimiters : List Char) (pos : Option ℕ) : Option ℕ :=
  findFrom delimiters.contains s pos

/-- `s.substr(lastPos, pos - lastPos)`. -/
def substrTo (s : List Char) (lastPos : ℕ) (pos : Option ℕ) : List Char :=
  match pos with
  | some pos => (s.drop lastPos).take (pos - lastPos)
  | none => s.drop lastPos

/-- The loop of `SplitString`.  It goes on while `lastPos` or `pos` is a position; `pos` is found
from `lastPos` on, so it is none when `lastPos` is none. -/
def splitLoop (s delimiters : List Char) : ℕ → Option ℕ → Option (List (List Char))
  | 0, _ => none
  | _ + 1, none => some []
  | fuel + 1, some lastPos =>
    let pos := findFirstOf s delimiters (some lastPos)
    (splitLoop s delimiters fuel (findFirstNotOf s delimiters pos)).map
      (substrTo s lastPos pos :: ·)

/-- `SplitString`, onto an empty vector. -/
def splitString (s delimiters : List Char) : List (List Char) :=
  (splitLoop s delimiters (s.length + 2) (findFirstNotOf s delimiters (some 0))).getD []

/-- `SplitPairStrByComma`. -/
def splitPairStrByComma (s : String) : String × String :=
  match splitString s.toList [','] with
  | first :: second :: _ => (String.ofList first, String.ofList second)
  | _ => ("", "")

theorem findFrom_eq_some {test : Char → Bool} {s : List Char} {pos i : ℕ}
    (h : findFrom test s (some pos) = some i) :
    pos ≤ i ∧ ∃ (hi : i < s.length), test s[i] = true := by
  obtain ⟨k, hk, rfl⟩ := Option.map_eq_some_iff.mp h
  obtain ⟨hlt, htest, -⟩ := List.findIdx?_eq_some_iff_getElem.mp hk
  rw [List.length_drop] at hlt
  refine ⟨Nat.le_add_right pos k, by omega, ?_⟩
  rwa [List.getElem_drop] at htest

/-- The loop gets on: the next token starts behind this one. -/
theorem lt_of_next {s delimiters : List Char} {lastPos next : ℕ}
    (hlast : findFirstNotOf s delimiters (some lastPos) = some lastPos)
    (h : findFirstNotOf s delimiters (findFirstOf s delimiters (some lastPos)) = some next) :
    lastPos < next ∧ next < s.length := by
  cases hpos : findFirstOf s delimiters (some lastPos) with
  | none =>
    rw [hpos] at h
    cases h
  | some pos =>
    rw [hpos] at h
    obtain ⟨hle, hpos, hdelim⟩ := findFrom_eq_some hpos
    obtain ⟨hle', hnext, -⟩ := findFrom_eq_some h
    obtain ⟨-, hlast, hother⟩ := findFrom_eq_some hlast
    have hne : lastPos ≠ pos := by
      rintro rfl
      rw [hdelim] at hother
      cases hother
    exact ⟨by omega, hnext⟩

/-- A token starts at a character that is no delimiter, so searching from there finds it. -/
theorem findFirstNotOf_self {s delimiters : List Char} {pos : Option ℕ} {i : ℕ}
    (h : findFirstNotOf s delimiters pos = some i) :
    findFirstNotOf s delimiters (some i) = some i := by
  cases pos with
  | none => cases h
  | some pos =>
    obtain ⟨-, hi, htest⟩ := findFrom_eq_some h
    show ((s.drop i).findIdx? _).map (i + ·) = some i
    rw [List.drop_eq_getElem_cons hi, List.findIdx?_cons, htest]
    rfl

/-- **The loop of `SplitString` ends**, after at most one round for each character. -/
theorem splitLoop_isSome {s delimiters : List Char} : ∀ (fuel : ℕ) {lastPos : Option ℕ},
    (∀ i, lastPos = some i →
      findFirstNotOf s delimiters (some i) = some i ∧ s.length - i < fuel) → 0 < fuel →
      (splitLoop s delimiters fuel lastPos).isSome = true
  | 0, _, _, hfuel => absurd hfuel (Nat.lt_irrefl 0)
  | _ + 1, none, _, _ => rfl
  | fuel + 1, some lastPos, hpos, _ => by
    obtain ⟨hself, hroom⟩ := hpos lastPos rfl
    obtain ⟨-, hlt, -⟩ := findFrom_eq_some hself
    rw [splitLoop, Option.isSome_map]
    refine splitLoop_isSome fuel (fun i hi => ?_) (by omega)
    obtain ⟨hnext, hle⟩ := lt_of_next hself hi
    exact ⟨findFirstNotOf_self hi, by omega⟩

/-! ## Names of devices and of types -/

/-- `rfind`: the last position of a character. -/
def rfind (c : Char) (s : List Char) : Option ℕ :=
  (s.reverse.findIdx? (· == c)).map fun i => s.length - 1 - i

/-- `removeSuffix`: cut off the last `-` if only digits follow it. -/
def removeSuffix (str : String) : String :=
  match rfind '-' str.toList with
  | none => str
  | some found =>
    let allDigits := (str.toList.drop (found + 1)).all Char.isDigit
    if allDigits then String.ofList (str.toList.take found) else str

/-- `MakeFormattedName`. -/
def makeFormattedName (name : String) : String :=
  String.ofList <| name.toList.map fun c => if c = '/' ∨ c = ' ' ∨ c = ':' then '_' else c

end BurstIoT
