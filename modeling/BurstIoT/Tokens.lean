import BurstIoT.KException
import BurstIoT.Library.Segments
import BurstIoT.Names

/-!
# The tokens of a line

The loop of `SplitString` as it is written, with both of its positions: `lastPos` and `pos` are
found from each other, either may be `npos`, and `substr` is given `pos - lastPos` even where `pos`
is `npos`.  `splitLoop` keeps `lastPos` only, and does the same (`splitStringLoop_eq`).

A token is a maximal segment without a delimiter.  At the head of the loop `lastPos` is where the
next one starts, or `npos` if there is none, and the tokens so far are those before it
(`splitStringLoop_spec`).  So `SplitString` appends the maximal segments (`splitStringInto_spec`).
-/

namespace BurstIoT

open Segments (Maximal Lists ListsBefore Stop Fresh items)

/-- `s.substr(lastPos, pos - lastPos)`.  It throws behind the end.  If `pos` is `npos`, or lies
before `lastPos`, the difference is more than what is left. -/
def substr (s : List Char) (lastPos pos : Option ℕ) : Except Fault (List Char) :=
  match lastPos, pos with
  | none, _ => .error .outOfRange
  | some lastPos, none =>
    if lastPos > s.length then .error .outOfRange else .ok (s.drop lastPos)
  | some lastPos, some pos =>
    if lastPos > s.length then .error .outOfRange
    else if pos < lastPos then .ok (s.drop lastPos)
    else .ok ((s.drop lastPos).take (pos - lastPos))

/-- The loop of `SplitString`, onto a vector of tokens. -/
def splitStringLoop (s delimiters : List Char) :
    ℕ → Option ℕ → Option ℕ → List (List Char) → Option (Except Fault (List (List Char)))
  | 0, _, _, _ => none
  | fuel + 1, lastPos, pos, tokens =>
    if pos ≠ none ∨ lastPos ≠ none then
      match substr s lastPos pos with
      | .error fault => some (.error fault)
      | .ok token =>
        let lastPos := findFirstNotOf s delimiters pos
        let pos := findFirstOf s delimiters lastPos
        splitStringLoop s delimiters fuel lastPos pos (tokens ++ [token])
    else some (.ok tokens)

/-- `SplitString`. -/
def splitStringInto (s : List Char) (tokens : List (List Char)) (delimiters : List Char)
    (fuel : ℕ) : Option (Except Fault (List (List Char))) :=
  let lastPos := findFirstNotOf s delimiters (some 0)
  let pos := findFirstOf s delimiters lastPos
  splitStringLoop s delimiters fuel lastPos pos tokens

/-- A character of a token. -/
def inToken (delimiters : List Char) (c : Char) : Bool :=
  !delimiters.contains c

/-! ## The searches -/

variable {s delimiters : List Char}

/-- **A search stops** at the first character that passes the test, or at the end. -/
theorem stop_findFrom (test : Char → Bool) {start : ℕ} (hstart : start ≤ s.length) :
    Stop test s start ((findFrom test s (some start)).getD s.length) := by
  show Stop test s start ((((s.drop start).findIdx? test).map (start + ·)).getD s.length)
  cases hfind : (s.drop start).findIdx? test with
  | none =>
    refine ⟨hstart, le_refl _, fun i hi hle _ => ?_, fun h => absurd h (lt_irrefl _)⟩
    refine List.findIdx?_eq_none_iff.mp hfind s[i] ?_
    rw [List.mem_drop_iff_getElem]
    exact ⟨i - start, by omega, by simp [Nat.add_sub_cancel' hle]⟩
  | some k =>
    obtain ⟨hk, hfound, hmissed⟩ := List.findIdx?_eq_some_iff_getElem.mp hfind
    rw [List.length_drop] at hk
    refine ⟨Nat.le_add_right _ _, by simp; omega, fun i hi hle hlt => ?_, fun _ => ?_⟩
    · have hlt : i < start + k := hlt
      have := hmissed (i - start) (by omega)
      simpa [Nat.add_sub_cancel' hle] using this
    · simpa using hfound

/-- A search from `npos` on stops at the end. -/
theorem stop_findFrom_of_found (test test' : Char → Bool) {pos : Option ℕ} :
    Stop test s ((findFrom test' s pos).getD s.length)
      ((findFrom test s (findFrom test' s pos)).getD s.length) := by
  cases hpos : findFrom test' s pos with
  | none =>
    exact ⟨le_refl _, le_refl _, fun i hi hle _ => absurd hi (Nat.not_lt.mpr hle),
      fun h => absurd h (lt_irrefl _)⟩
  | some start =>
    cases pos with
    | none => cases hpos
    | some _ => exact stop_findFrom test (findFrom_eq_some hpos).2.1.le

variable (delimiters)

theorem stop_findFirstNotOf {start : ℕ} (hstart : start ≤ s.length) :
    Stop (inToken delimiters) s start
      ((findFirstNotOf s delimiters (some start)).getD s.length) :=
  stop_findFrom _ hstart

theorem stop_findFirstOf {start : ℕ} (hstart : start ≤ s.length) :
    Stop (fun c => !inToken delimiters c) s start
      ((findFirstOf s delimiters (some start)).getD s.length) := by
  have htest : (fun c => !inToken delimiters c) = delimiters.contains := by
    funext c
    rw [inToken, Bool.not_not]
  rw [htest]
  exact stop_findFrom _ hstart

/-- The next token is found from where the last one has stopped. -/
theorem stop_next (lastPos : Option ℕ) :
    Stop (inToken delimiters) s ((findFirstOf s delimiters lastPos).getD s.length)
      ((findFirstNotOf s delimiters (findFirstOf s delimiters lastPos)).getD s.length) :=
  stop_findFrom_of_found _ _

variable {delimiters}

/-! ## The loop -/

/-- What the loop appends for a token. -/
theorem substr_findFirstOf {lastPos : ℕ} (hle : lastPos ≤ s.length) :
    substr s (some lastPos) (findFirstOf s delimiters (some lastPos)) =
      .ok (substrTo s lastPos (findFirstOf s delimiters (some lastPos))) := by
  cases hpos : findFirstOf s delimiters (some lastPos) with
  | none => exact if_neg (Nat.not_lt.mpr hle)
  | some pos =>
    obtain ⟨hlast, -⟩ := findFrom_eq_some hpos
    exact (if_neg (Nat.not_lt.mpr hle)).trans (if_neg (Nat.not_lt.mpr hlast))

/-- A token is what lies in its segment. -/
theorem substrTo_eq_items (lastPos : ℕ) (pos : Option ℕ) :
    substrTo s lastPos pos = items s (lastPos, pos.getD s.length) := by
  cases pos with
  | none =>
    show s.drop lastPos = (s.drop lastPos).take (s.length - lastPos)
    rw [← List.length_drop, List.take_length]
  | some pos => rfl

/-- **Keeping one position is enough.** -/
theorem splitStringLoop_eq (fuel : ℕ) {lastPos : Option ℕ} (tokens : List (List Char))
    (hself : ∀ i, lastPos = some i → findFirstNotOf s delimiters (some i) = some i) :
    splitStringLoop s delimiters fuel lastPos (findFirstOf s delimiters lastPos) tokens =
      (splitLoop s delimiters fuel lastPos).map fun rest => .ok (tokens ++ rest) := by
  induction fuel generalizing lastPos tokens with
  | zero => rfl
  | succ fuel ih =>
    cases lastPos with
    | none =>
      rw [splitStringLoop, splitLoop, Option.map_some, List.append_nil]
      exact if_neg (by simp [findFirstOf, findFrom])
    | some i =>
      obtain ⟨-, hlt, -⟩ := findFrom_eq_some (hself i rfl)
      rw [splitStringLoop, if_pos (Or.inr (Option.some_ne_none i)), substr_findFirstOf hlt.le,
        splitLoop, Option.map_map]
      refine (ih (tokens ++ [substrTo s i (findFirstOf s delimiters (some i))])
        fun j hj => findFirstNotOf_self hj).trans ?_
      congr 1
      funext rest
      rw [List.append_assoc]
      rfl

/-- The loop at its head: the tokens so far, and where the next one starts. -/
structure AtHead (s delimiters : List Char) (lastPos : Option ℕ) (segments : List (ℕ × ℕ)) :
    Prop where
  start : ∀ i, lastPos = some i → ∃ h : i < s.length, inToken delimiters s[i] = true
  fresh : ∀ i, lastPos = some i → Fresh (inToken delimiters) s i
  lists : ListsBefore (inToken delimiters) s (lastPos.getD s.length) segments

theorem start_of_findFirstNotOf {pos : Option ℕ} (i : ℕ)
    (h : findFirstNotOf s delimiters pos = some i) :
    ∃ h : i < s.length, inToken delimiters s[i] = true :=
  (findFrom_eq_some (findFirstNotOf_self h)).2

theorem atHead_start : AtHead s delimiters (findFirstNotOf s delimiters (some 0)) [] := by
  have hstop := stop_findFirstNotOf delimiters (Nat.zero_le s.length)
  refine ⟨start_of_findFirstNotOf, fun i hi => ?_, .start hstop⟩
  rw [hi] at hstop
  refine hstop.fresh (Or.inr ?_)
  intro j _ h
  cases h

/-- **One iteration** appends the next maximal segment. -/
theorem AtHead.next {i : ℕ} {segments : List (ℕ × ℕ)}
    (h : AtHead s delimiters (some i) segments) :
    ∃ last, i < last ∧
      substr s (some i) (findFirstOf s delimiters (some i)) = .ok (items s (i, last)) ∧
      last ≤ (findFirstNotOf s delimiters
        (findFirstOf s delimiters (some i))).getD s.length ∧
      AtHead s delimiters (findFirstNotOf s delimiters (findFirstOf s delimiters (some i)))
        (segments ++ [(i, last)]) := by
  obtain ⟨hlt, hin⟩ := h.start i rfl
  have hlast := stop_findFirstOf delimiters hlt.le
  have hmax := Maximal.of_stop hlt hin (h.fresh i rfl) hlast
  have hnext := stop_next (s := s) delimiters (some i)
  refine ⟨_, hmax.lt, ?_, hnext.le, start_of_findFirstNotOf, fun j hj => ?_,
    h.lists.next hmax hnext⟩
  · rw [substr_findFirstOf hlt.le, substrTo_eq_items]
  · -- the next token starts behind the delimiter that ends this one
    obtain ⟨hjlt, -⟩ := start_of_findFirstNotOf j hj
    rw [hj] at hnext
    exact hnext.fresh (Or.inl (hmax.lt_of_stop hnext hjlt))

/-- **The loop appends the maximal segments.** -/
theorem splitStringLoop_spec (tokens : List (List Char)) (fuel : ℕ) {lastPos : Option ℕ}
    {segments : List (ℕ × ℕ)} (h : AtHead s delimiters lastPos segments)
    (hfuel : s.length - lastPos.getD s.length < fuel) :
    ∃ all, Lists (inToken delimiters) s all ∧
      splitStringLoop s delimiters fuel lastPos (findFirstOf s delimiters lastPos)
        (tokens ++ segments.map (items s)) = some (.ok (tokens ++ all.map (items s))) := by
  induction fuel generalizing lastPos segments with
  | zero => exact absurd hfuel (Nat.not_lt_zero _)
  | succ fuel ih =>
    cases lastPos with
    | none =>
      refine ⟨segments, h.lists.lists, ?_⟩
      rw [splitStringLoop]
      exact if_neg (by simp [findFirstOf, findFrom])
    | some i =>
      obtain ⟨last, hlt, hsubstr, hle, hnext⟩ := h.next
      have hlength := (h.start i rfl).1
      rw [Option.getD_some] at hfuel
      obtain ⟨all, hall, hrun⟩ := ih hnext (by omega)
      refine ⟨all, hall, ?_⟩
      rw [splitStringLoop, if_pos (Or.inr (Option.some_ne_none i)), hsubstr]
      rw [List.map_append, ← List.append_assoc] at hrun
      exact hrun

/-- **`SplitString` ends, and appends the maximal segments.** -/
theorem splitStringInto_spec (s : List Char) (tokens : List (List Char))
    (delimiters : List Char) :
    ∃ all, Lists (inToken delimiters) s all ∧ ∀ fuel, s.length < fuel →
      splitStringInto s tokens delimiters fuel = some (.ok (tokens ++ all.map (items s))) := by
  have hstart : AtHead s delimiters (findFirstNotOf s delimiters (some 0)) [] := atHead_start
  have hrun := fun fuel hfuel => splitStringLoop_spec tokens fuel hstart hfuel
  obtain ⟨all, hall, -⟩ := hrun (s.length + 1) (by omega)
  refine ⟨all, hall, fun fuel hfuel => ?_⟩
  obtain ⟨all', hall', hrun⟩ := hrun fuel (by omega)
  rw [hall.unique hall']
  rw [List.map_nil, List.append_nil] at hrun
  exact hrun

/-- The tokens that `splitLoop` leaves are those of `SplitString`. -/
theorem splitString_eq {all : List (ℕ × ℕ)} (h : Lists (inToken delimiters) s all) :
    splitString s delimiters = all.map (items s) := by
  obtain ⟨all', hall', hrun⟩ := splitStringInto_spec s [] delimiters
  have hloop := hrun (s.length + 2) (by omega)
  rw [splitStringInto, splitStringLoop_eq _ _ fun i hi => findFirstNotOf_self hi] at hloop
  obtain ⟨rest, hrest, heq⟩ := Option.map_eq_some_iff.mp hloop
  rw [splitString, hrest, h.unique hall']
  exact Except.ok.inj heq

/-- **`SplitString` and `SplitPairStrByComma`.**  For every string, every vector of tokens and every
set of delimiters, the loop of `SplitString` ends and has appended the maximal segments without a
delimiter, in order; and `SplitPairStrByComma` returns the first two of them, or two empty strings
if there are fewer. -/
theorem splitString_segments :
    (∀ (s : List Char) (tokens : List (List Char)) (delimiters : List Char),
      ∃ all, Lists (fun c => !delimiters.contains c) s all ∧ ∀ fuel, s.length < fuel →
        splitStringInto s tokens delimiters fuel = some (.ok (tokens ++ all.map (items s)))) ∧
    ∀ s : String, ∃ all, Lists (fun c => !([','].contains c)) s.toList all ∧
      splitPairStrByComma s = match all.map (items s.toList) with
        | first :: second :: _ => (String.ofList first, String.ofList second)
        | _ => ("", "") := by
  refine ⟨fun s tokens delimiters => splitStringInto_spec s tokens delimiters, fun s => ?_⟩
  obtain ⟨all, hall, -⟩ := splitStringInto_spec s.toList [] [',']
  refine ⟨all, hall, ?_⟩
  show (match splitString s.toList [','] with
    | first :: second :: _ => (String.ofList first, String.ofList second)
    | _ => ("", "")) = _
  rw [splitString_eq hall]

end BurstIoT
