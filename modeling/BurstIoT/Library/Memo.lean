import BurstIoT.Library.StepSystem

/-!
# A shared table of answers

Many calls of one function `f` share a table of answers, keyed up to an equality `same`.  A call
takes the lock of its key, looks up its entry, and returns it if it holds an answer.  Otherwise it
works on the entry in place: it may leave anything there (`Move.write`) until it is done, and then
the entry holds `f` of its key and the lock is free again.  A call on which `f` fails keeps its
lock.

When `f` takes equal keys to equal answers and a new entry holds no answer, no call can tell the
table from `f` itself, however the calls are interleaved (`returned_eq`), and no call waits forever
for the others (`exists_move`).  A caller that makes one call after another, or comes in later, does
not change that (`Truthful.restart`, `Truthful.join`).
-/

namespace BurstIoT
namespace Memo

open StepSystem

variable {κ ρ ε : Type}

/-- How far a call has come. -/
inductive Phase (ρ ε : Type) where
  | waiting
  | inside
  | returned (r : ρ)
  | failed (e : ε)
  deriving DecidableEq, Repr

/-- The call holds the lock of its key. -/
def Phase.locks : Phase ρ ε → Bool
  | inside => true
  | failed _ => true
  | _ => false

/-- The table and the calls, each with its key. -/
structure State (κ ρ ε : Type) where
  table : List (κ × ρ)
  calls : List (κ × Phase ρ ε)
  deriving DecidableEq, Repr

/-- The moves of the call with a given number. -/
inductive Move (ρ : Type) where
  | enter (i : ℕ)
  | write (i : ℕ) (r : ρ)
  | leave (i : ℕ)
  deriving DecidableEq, Repr

variable (same : κ → κ → Bool)

/-- The entry of a key. -/
def find (table : List (κ × ρ)) (k : κ) : Option ρ :=
  (table.find? fun e => same e.1 k).map Prod.snd

/-- Write the entry of a key, which is created if there is none. -/
def store (table : List (κ × ρ)) (k : κ) (r : ρ) : List (κ × ρ) :=
  if table.any fun e => same e.1 k then
    table.map fun e => if same e.1 k then (e.1, r) else e
  else table ++ [(k, r)]

/-- Some call holds the lock of the key. -/
def locked (calls : List (κ × Phase ρ ε)) (k : κ) : Bool :=
  calls.any fun c => c.2.locks && same c.1 k

variable (f : κ → Except ε ρ) (blank : ρ) (answered : ρ → Bool)

/-- One move of one call. -/
def step (s : State κ ρ ε) : Move ρ → Option (State κ ρ ε)
  | .enter i =>
    match s.calls[i]? with
    | some (k, .waiting) =>
      if locked same s.calls k then none
      else
        match find same s.table k with
        | some r =>
          if answered r then some { s with calls := s.calls.set i (k, .returned r) }
          else some { s with calls := s.calls.set i (k, .inside) }
        | none =>
          some { table := store same s.table k blank, calls := s.calls.set i (k, .inside) }
    | _ => none
  | .write i r =>
    match s.calls[i]? with
    | some (k, .inside) => some { s with table := store same s.table k r }
    | _ => none
  | .leave i =>
    match s.calls[i]? with
    | some (k, .inside) =>
      match f k with
      | .ok r =>
        some { table := store same s.table k r, calls := s.calls.set i (k, .returned r) }
      | .error e => some { s with calls := s.calls.set i (k, .failed e) }
    | _ => none

/-- All calls wait, and the table is empty. -/
def start (keys : List κ) : State κ ρ ε where
  table := []
  calls := keys.map fun k => (k, .waiting)

/-! ## Entries and locks -/

variable {same f blank answered}

theorem exists_of_find {table : List (κ × ρ)} {k : κ} {r : ρ} (h : find same table k = some r) :
    ∃ e ∈ table, same e.1 k = true ∧ e.2 = r := by
  obtain ⟨e, he, rfl⟩ := Option.map_eq_some_iff.mp h
  exact ⟨e, List.mem_of_find?_eq_some he, by simpa using List.find?_some he, rfl⟩

/-- After a write an entry is the written one, or an old one of another key. -/
theorem mem_store (hrefl : ∀ k, same k k = true) {table : List (κ × ρ)} {k : κ} {r : ρ}
    {e : κ × ρ} (h : e ∈ store same table k r) :
    (e ∈ table ∧ same e.1 k = false) ∨ (same e.1 k = true ∧ e.2 = r) := by
  rw [store] at h
  split_ifs at h with hany
  · obtain ⟨e', he', heq⟩ := List.mem_map.mp h
    split_ifs at heq with hkey
    · rw [← heq]
      exact Or.inr ⟨hkey, rfl⟩
    · rw [← heq]
      exact Or.inl ⟨he', by simpa using hkey⟩
  · rcases List.mem_append.mp h with h | h
    · have hnone : ∀ e ∈ table, ¬ same e.1 k = true := by simpa using hany
      exact Or.inl ⟨h, by simpa using hnone e h⟩
    · rw [List.mem_singleton.mp h]
      exact Or.inr ⟨hrefl k, rfl⟩

theorem locked_iff {calls : List (κ × Phase ρ ε)} {k : κ} :
    locked same calls k = true ↔
      ∃ (j : ℕ) (c : κ × Phase ρ ε), calls[j]? = some c ∧ c.2.locks = true ∧
        same c.1 k = true := by
  rw [locked, List.any_eq_true]
  constructor
  · rintro ⟨c, hc, hlock⟩
    obtain ⟨j, hj⟩ := List.mem_iff_getElem?.mp hc
    rw [Bool.and_eq_true] at hlock
    exact ⟨j, c, hj, hlock.1, hlock.2⟩
  · rintro ⟨j, c, hj, hlock, hsame⟩
    exact ⟨c, List.mem_of_getElem? hj, by rw [hlock, hsame]; rfl⟩

/-- A lock is kept when another call moves, or a call without a lock. -/
theorem locked_set {calls : List (κ × Phase ρ ε)} {i : ℕ} {k k' : κ} {phase phase' : Phase ρ ε}
    (hi : calls[i]? = some (k, phase))
    (hkeep : phase.locks = true → phase'.locks = true ∨ same k k' = false)
    (h : locked same calls k' = true) : locked same (calls.set i (k, phase')) k' = true := by
  obtain ⟨j, c, hj, hlock, hsame⟩ := locked_iff.mp h
  refine locked_iff.mpr ?_
  have hlt : i < calls.length := (List.getElem?_eq_some_iff.mp hi).1
  by_cases hij : i = j
  · subst hij
    obtain rfl : (k, phase) = c := Option.some_inj.mp (hi.symm.trans hj)
    rcases hkeep hlock with hlock' | hnot
    · exact ⟨i, (k, phase'), List.getElem?_set_self hlt, hlock', hsame⟩
    · rw [hnot] at hsame
      cases hsame
  · exact ⟨j, c, by rw [List.getElem?_set_ne hij]; exact hj, hlock, hsame⟩

/-! ## What a move does -/

/-- The five kinds of moves. -/
inductive Moved (same : κ → κ → Bool) (f : κ → Except ε ρ) (blank : ρ) (answered : ρ → Bool)
    (s : State κ ρ ε) : Move ρ → State κ ρ ε → Prop where
  | hit {i : ℕ} {k : κ} {r : ρ} (hi : s.calls[i]? = some (k, .waiting))
      (hfree : locked same s.calls k = false) (hfind : find same s.table k = some r)
      (hans : answered r = true) :
      Moved same f blank answered s (.enter i) { s with calls := s.calls.set i (k, .returned r) }
  | miss {i : ℕ} {k : κ} {table : List (κ × ρ)} (hi : s.calls[i]? = some (k, .waiting))
      (hfree : locked same s.calls k = false)
      (htable : table = s.table ∨ table = store same s.table k blank) :
      Moved same f blank answered s (.enter i)
        { table := table, calls := s.calls.set i (k, .inside) }
  | write {i : ℕ} {k : κ} {r : ρ} (hi : s.calls[i]? = some (k, .inside)) :
      Moved same f blank answered s (.write i r) { s with table := store same s.table k r }
  | answer {i : ℕ} {k : κ} {r : ρ} (hi : s.calls[i]? = some (k, .inside)) (hf : f k = .ok r) :
      Moved same f blank answered s (.leave i)
        { table := store same s.table k r, calls := s.calls.set i (k, .returned r) }
  | failure {i : ℕ} {k : κ} {e : ε} (hi : s.calls[i]? = some (k, .inside))
      (hf : f k = .error e) :
      Moved same f blank answered s (.leave i) { s with calls := s.calls.set i (k, .failed e) }

theorem step_cases {s s' : State κ ρ ε} {m : Move ρ}
    (h : step same f blank answered s m = some s') : Moved same f blank answered s m s' := by
  cases m with
  | enter i =>
    rw [step] at h
    split at h
    · rename_i k hi
      split_ifs at h with hlock
      rw [Bool.not_eq_true] at hlock
      split at h
      · rename_i r hfind
        split_ifs at h with hans <;> cases h
        · exact .hit hi hlock hfind hans
        · exact .miss hi hlock (Or.inl rfl)
      · cases h
        exact .miss hi hlock (Or.inr rfl)
    · cases h
  | write i r =>
    rw [step] at h
    split at h
    · rename_i k hi
      cases h
      exact .write hi
    · cases h
  | leave i =>
    rw [step] at h
    split at h
    · rename_i k hi
      split at h
      · rename_i r hf
        cases h
        exact .answer hi hf
      · rename_i e hf
        cases h
        exact .failure hi hf
    · cases h

/-! ## Transparency -/

/-- What the table and the calls say about `f`: an answered entry is right unless a call is working
on it, and finished calls are right. -/
structure Truthful (same : κ → κ → Bool) (f : κ → Except ε ρ) (answered : ρ → Bool)
    (s : State κ ρ ε) : Prop where
  table : ∀ e ∈ s.table, answered e.2 = true → f e.1 = .ok e.2 ∨ locked same s.calls e.1 = true
  returned : ∀ k r, (k, .returned r) ∈ s.calls → f k = .ok r
  failed : ∀ k e, (k, .failed e) ∈ s.calls → f k = .error e

theorem Truthful.start (keys : List κ) :
    Truthful same f answered (start keys : State κ ρ ε) where
  table := fun _ he => absurd he List.not_mem_nil
  returned := fun k r hmem => by simp [Memo.start] at hmem
  failed := fun k e hmem => by simp [Memo.start] at hmem

/-- The assumptions on the keys: `same` is an equivalence that `f` respects, and a new entry holds
no answer. -/
structure Lawful (same : κ → κ → Bool) (f : κ → Except ε ρ) (blank : ρ) (answered : ρ → Bool) :
    Prop where
  refl : ∀ k, same k k = true
  symm : ∀ a b, same a b = true → same b a = true
  trans : ∀ a b c, same a b = true → same b c = true → same a c = true
  respects : ∀ a b, same a b = true → f a = f b
  blank : answered blank = false

/-- An answered entry is right for every key that it is the entry of, unless the key is locked. -/
theorem Truthful.find (hlaw : Lawful same f blank answered) {s : State κ ρ ε}
    (h : Truthful same f answered s) {k : κ} {r : ρ} (hfree : locked same s.calls k = false)
    (hfind : Memo.find same s.table k = some r) (hans : answered r = true) : f k = .ok r := by
  obtain ⟨e, he, hsame, rfl⟩ := exists_of_find hfind
  rw [← hlaw.respects e.1 k hsame]
  refine (h.table e he hans).resolve_right fun hlock => ?_
  obtain ⟨j, c, hj, hc, hce⟩ := locked_iff.mp hlock
  have hlocked : locked same s.calls k = true :=
    locked_iff.mpr ⟨j, c, hj, hc, hlaw.trans _ _ _ hce hsame⟩
  rw [hfree] at hlocked
  cases hlocked

/-- A call that moves leaves the answers of the others. -/
theorem Truthful.set {s : State κ ρ ε} (h : Truthful same f answered s) {i : ℕ} {k : κ}
    {phase : Phase ρ ε} {table : List (κ × ρ)}
    (htable : ∀ e ∈ table, answered e.2 = true →
      f e.1 = .ok e.2 ∨ locked same (s.calls.set i (k, phase)) e.1 = true)
    (hreturned : ∀ r, phase = .returned r → f k = .ok r)
    (hfailed : ∀ e, phase = .failed e → f k = .error e) :
    Truthful same f answered { table := table, calls := s.calls.set i (k, phase) } where
  table := htable
  returned k' r hmem := by
    rcases List.mem_or_eq_of_mem_set hmem with hmem | heq
    · exact h.returned k' r hmem
    · cases heq
      exact hreturned r rfl
  failed k' e hmem := by
    rcases List.mem_or_eq_of_mem_set hmem with hmem | heq
    · exact h.failed k' e hmem
    · cases heq
      exact hfailed e rfl

/-- A call that waits holds no lock, so all locks stay when it moves. -/
theorem locked_set_waiting {calls : List (κ × Phase ρ ε)} {i : ℕ} {k k' : κ}
    {phase : Phase ρ ε} (hi : calls[i]? = some (k, .waiting))
    (h : locked same calls k' = true) : locked same (calls.set i (k, phase)) k' = true :=
  locked_set hi (fun hlocks => by cases hlocks) h

theorem Truthful.step (hlaw : Lawful same f blank answered) {s s' : State κ ρ ε} {m : Move ρ}
    (h : Truthful same f answered s) (hstep : step same f blank answered s m = some s') :
    Truthful same f answered s' := by
  cases step_cases hstep with
  | hit hi hfree hfind hans =>
    refine h.set (fun e he hans => ?_) ?_ nofun
    · exact (h.table e he hans).imp_right (locked_set_waiting hi)
    · rintro r' ⟨⟩
      exact h.find hlaw hfree hfind hans
  | miss hi hfree htable =>
    refine h.set (fun e he hans => ?_) nofun nofun
    have hold : e ∈ s.table := by
      rcases htable with rfl | rfl
      · exact he
      · rcases mem_store hlaw.refl he with ⟨hold, -⟩ | ⟨-, hblank⟩
        · exact hold
        · rw [hblank, hlaw.blank] at hans
          cases hans
    exact (h.table e hold hans).imp_right (locked_set_waiting hi)
  | write hi =>
    refine ⟨fun e he hans => ?_, h.returned, h.failed⟩
    rcases mem_store hlaw.refl he with ⟨hold, -⟩ | ⟨hsame, -⟩
    · exact h.table e hold hans
    · exact Or.inr (locked_iff.mpr ⟨_, _, hi, rfl, hlaw.symm _ _ hsame⟩)
  | answer hi hf =>
    refine h.set (fun e he hans => ?_) ?_ nofun
    · rcases mem_store hlaw.refl he with ⟨hold, hother⟩ | ⟨hsame, heq⟩
      · refine (h.table e hold hans).imp_right (locked_set hi fun _ => Or.inr ?_)
        rw [← Bool.not_eq_true] at hother ⊢
        exact fun hke => hother (hlaw.symm _ _ hke)
      · rw [heq, hlaw.respects _ _ hsame]
        exact Or.inl hf
    · rintro r' ⟨⟩
      exact hf
  | failure hi hf =>
    refine h.set (fun e he hans => ?_) nofun ?_
    · exact (h.table e he hans).imp_right (locked_set hi fun _ => Or.inl rfl)
    · rintro e' ⟨⟩
      exact hf

theorem truthful_of_reachable (hlaw : Lawful same f blank answered) {keys : List κ}
    {s : State κ ρ ε} (h : Reachable (step same f blank answered) (start keys) s) :
    Truthful same f answered s :=
  h.invariant (.start keys) fun _ _ _ hs hstep => hs.step hlaw hstep

/-- **The table is transparent**: whatever the interleaving, a call that returns returns `f` of its
key. -/
theorem returned_eq (hlaw : Lawful same f blank answered) {keys : List κ} {s : State κ ρ ε}
    (h : Reachable (step same f blank answered) (start keys) s) {k : κ} {r : ρ}
    (hmem : (k, .returned r) ∈ s.calls) : f k = .ok r :=
  (truthful_of_reachable hlaw h).returned k r hmem

theorem map_fst_set {calls : List (κ × Phase ρ ε)} {i : ℕ} {k : κ} {phase : Phase ρ ε}
    (hi : calls[i]? = some (k, phase)) (phase' : Phase ρ ε) :
    (calls.set i (k, phase')).map Prod.fst = calls.map Prod.fst := by
  obtain ⟨hlt, hget⟩ := List.getElem?_eq_some_iff.mp hi
  have hlt' : i < (calls.map Prod.fst).length := by
    rw [List.length_map]
    exact hlt
  have hsame : k = (calls.map Prod.fst)[i] := by
    rw [List.getElem_map, hget]
  rw [List.map_set]
  show (calls.map Prod.fst).set i k = _
  rw [hsame, List.set_getElem_self]

/-- No call changes its key. -/
theorem keys_of_reachable {keys : List κ} {s : State κ ρ ε}
    (h : Reachable (step same f blank answered) (start keys) s) : s.calls.map Prod.fst = keys := by
  let I : State κ ρ ε → Prop := fun s => s.calls.map Prod.fst = keys
  refine Reachable.invariant (I := I) h ?_ fun s m s' hs hstep => ?_
  · show (start keys : State κ ρ ε).calls.map Prod.fst = keys
    rw [start, List.map_map]
    exact List.map_id keys
  · show s'.calls.map Prod.fst = keys
    rw [← show s.calls.map Prod.fst = keys from hs]
    cases step_cases hstep with
    | write hi => rfl
    | _ hi => exact map_fst_set hi _

/-- **Nothing waits forever**: where `f` does not fail, a call that has not returned can move, or
another one can. -/
theorem exists_move (hlaw : Lawful same f blank answered) {keys : List κ} {s : State κ ρ ε}
    (h : Reachable (step same f blank answered) (start keys) s)
    (hkeys : ∀ k ∈ keys, ∃ r, f k = .ok r) {k : κ} {phase : Phase ρ ε}
    (hmem : (k, phase) ∈ s.calls) (hopen : ∀ r, phase ≠ .returned r) :
    ∃ m s', step same f blank answered s m = some s' := by
  have htrue := truthful_of_reachable hlaw h
  have hok : ∀ c ∈ s.calls, ∃ r, f c.1 = .ok r := by
    intro c hc
    refine hkeys c.1 ?_
    rw [← keys_of_reachable h]
    exact List.mem_map_of_mem hc
  by_cases hinside : ∃ k', (k', Phase.inside) ∈ s.calls
  · obtain ⟨k', hk'⟩ := hinside
    obtain ⟨i, hi⟩ := List.mem_iff_getElem?.mp hk'
    obtain ⟨r, hr⟩ := hok _ hk'
    have hmove : ∃ s', step same f blank answered s (.leave i) = some s' := by
      rw [step, hi]
      dsimp only
      rw [hr]
      exact ⟨_, rfl⟩
    obtain ⟨s', hs'⟩ := hmove
    exact ⟨_, s', hs'⟩
  · have hfree : ∀ k', locked same s.calls k' = false := by
      intro k'
      rw [← Bool.not_eq_true, locked_iff]
      rintro ⟨j, ⟨k'', phase'⟩, hj, hlock, -⟩
      have hc := List.mem_of_getElem? hj
      cases phase' with
      | waiting => cases hlock
      | inside => exact hinside ⟨k'', hc⟩
      | returned r => cases hlock
      | failed e =>
        obtain ⟨r, hr⟩ := hok _ hc
        rw [htrue.failed k'' e hc] at hr
        cases hr
    cases phase with
    | waiting =>
      obtain ⟨i, hi⟩ := List.mem_iff_getElem?.mp hmem
      have hmove : ∃ s', step same f blank answered s (.enter i) = some s' := by
        rw [step, hi]
        dsimp only
        rw [hfree k, if_neg Bool.false_ne_true]
        cases find same s.table k with
        | none => exact ⟨_, rfl⟩
        | some r =>
          dsimp only
          split_ifs
          · exact ⟨_, rfl⟩
          · exact ⟨_, rfl⟩
      obtain ⟨s', hs'⟩ := hmove
      exact ⟨_, s', hs'⟩
    | inside => exact absurd ⟨k, hmem⟩ hinside
    | returned r => exact absurd rfl (hopen r)
    | failed e =>
      obtain ⟨r, hr⟩ := hok _ hmem
      rw [htrue.failed k e hmem] at hr
      cases hr

/-! ## Callers that make one call after another -/

/-- A call that holds no lock may be given up for any other. -/
theorem locked_set_of_not_locks {calls : List (κ × Phase ρ ε)} {i : ℕ} {c c' : κ × Phase ρ ε}
    {k : κ} (hi : calls[i]? = some c) (hfree : c.2.locks = false)
    (h : locked same calls k = true) : locked same (calls.set i c') k = true := by
  obtain ⟨j, d, hj, hlock, hsame⟩ := locked_iff.mp h
  have hij : i ≠ j := by
    rintro rfl
    obtain rfl : c = d := Option.some_inj.mp (hi.symm.trans hj)
    rw [hfree] at hlock
    cases hlock
  exact locked_iff.mpr ⟨j, d, by rw [List.getElem?_set_ne hij]; exact hj, hlock, hsame⟩

/-- **A caller whose call is over** may wait for the next one. -/
theorem Truthful.restart {s : State κ ρ ε} (h : Truthful same f answered s) {i : ℕ}
    {c : κ × Phase ρ ε} (hi : s.calls[i]? = some c) (hfree : c.2.locks = false) (k : κ) :
    Truthful same f answered { s with calls := s.calls.set i (k, .waiting) } :=
  h.set (fun e he hans => (h.table e he hans).imp_right (locked_set_of_not_locks hi hfree)) nofun
    nofun

/-- **A new caller** waits for its first call. -/
theorem Truthful.join {s : State κ ρ ε} (h : Truthful same f answered s) (k : κ) :
    Truthful same f answered { s with calls := s.calls ++ [(k, .waiting)] } where
  table := fun e he hans => (h.table e he hans).imp_right fun hlock => by
    rw [locked, List.any_append, Bool.or_eq_true]
    exact Or.inl hlock
  returned := fun k' r hmem => by
    rcases List.mem_append.mp hmem with hmem | hmem
    · exact h.returned k' r hmem
    · cases List.mem_singleton.mp hmem
  failed := fun k' e hmem => by
    rcases List.mem_append.mp hmem with hmem | hmem
    · exact h.failed k' e hmem
    · cases List.mem_singleton.mp hmem

/-! ## One call after the other -/

/-- The answered entries of the table are right. -/
def Right (f : κ → Except ε ρ) (answered : ρ → Bool) (table : List (κ × ρ)) : Prop :=
  ∀ e ∈ table, answered e.2 = true → f e.1 = .ok e.2

theorem Right.find (hlaw : Lawful same f blank answered) {table : List (κ × ρ)}
    (h : Right f answered table) {k : κ} (hans : answered ((find same table k).getD blank) = true) :
    f k = .ok ((find same table k).getD blank) := by
  cases hfind : Memo.find same table k with
  | none =>
    rw [hfind, Option.getD_none, hlaw.blank] at hans
    cases hans
  | some r =>
    obtain ⟨e, he, hsame, rfl⟩ := exists_of_find hfind
    rw [hfind] at hans
    rw [← hlaw.respects e.1 k hsame]
    exact h e he hans

theorem Right.store (hlaw : Lawful same f blank answered) {table : List (κ × ρ)}
    (h : Right f answered table) {k : κ} {r : ρ} (hr : f k = .ok r) :
    Right f answered (store same table k r) := by
  intro e he hans
  rcases mem_store hlaw.refl he with ⟨hold, -⟩ | ⟨hsame, heq⟩
  · exact h e hold hans
  · rw [heq, hlaw.respects _ _ hsame]
    exact hr

/-- The second of two writes counts. -/
theorem store_store (hrefl : ∀ k, same k k = true) (table : List (κ × ρ)) (k : κ) (r r' : ρ) :
    store same (store same table k r) k r' = store same table k r' := by
  by_cases hany : (table.any fun e => same e.1 k) = true
  · have hmap : ((table.map fun e => if same e.1 k = true then (e.1, r) else e).any
        fun e => same e.1 k) = true := by
      obtain ⟨e, he, hkey⟩ := List.any_eq_true.mp hany
      rw [List.any_map, List.any_eq_true]
      exact ⟨e, he, by simp [hkey]⟩
    rw [store, store, store, if_pos hany, if_pos hmap, if_pos hany, List.map_map]
    refine List.map_congr_left fun e _ => ?_
    by_cases hkey : same e.1 k = true
    · simp [hkey]
    · simp [hkey]
  · have hlast : ((table ++ [(k, r)]).any fun e => same e.1 k) = true := by
      rw [List.any_append, Bool.or_eq_true]
      exact Or.inr (by simp [hrefl])
    have hnone : ∀ e ∈ table, ¬ same e.1 k = true := by simpa using hany
    have hkeep : (table.map fun e => if same e.1 k = true then (e.1, r') else e) = table := by
      refine (List.map_congr_left fun e he => ?_).trans (List.map_id table)
      rw [if_neg (hnone e he)]
      rfl
    rw [store, store, store, if_neg hany, if_pos hlast, if_neg hany, List.map_append, hkeep]
    simp [hrefl]

end Memo
end BurstIoT
