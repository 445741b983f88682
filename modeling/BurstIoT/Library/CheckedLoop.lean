import Mathlib.Data.List.Basic
import Mathlib.Data.List.Forall2

/-!
# Loops that can fail

A loop whose body can fail is `List.foldlM` in `Except`.  `foldlM_ok` is its rule for total
correctness: an invariant on the items met so far, which the body keeps without failing, holds at
the end, and the loop does not fail.  `foldlM_inv` is the rule for partial correctness, where the
loop is known to have returned, and `exists_of_foldlM_range_error` says where a loop has failed.
`foldlM_flatMap` flattens a loop inside a loop, and `foldlM_congr` compares two loops body by body.

A list whose elements can fail is mapped by `List.mapM`: what it returns are the results of the
elements (`mapM_eq_ok`), and it does not fail if none of them does (`mapM_ok`).
-/

namespace BurstIoT
namespace CheckedLoop

variable {ε σ α β : Type} {f : σ → α → Except ε σ}

/-- What a computation that has returned has done. -/
theorem bind_eq_ok {x : Except ε α} {g : α → Except ε β} {b : β} :
    (x >>= g) = .ok b ↔ ∃ a, x = .ok a ∧ g a = .ok b := by
  constructor
  · intro h
    cases x with
    | error e => cases h
    | ok a => exact ⟨a, rfl, h⟩
  · rintro ⟨a, rfl, h⟩
    exact h

theorem exists_of_isOk {x : Except ε α} (h : x.isOk = true) : ∃ a, x = .ok a := by
  cases x with
  | error e => cases h
  | ok a => exact ⟨a, rfl⟩

theorem foldlM_ok_from {l : List α} {I : List α → σ → Prop}
    (hstep : ∀ done a rest, l = done ++ a :: rest → ∀ s, I done s →
      ∃ s', f s a = .ok s' ∧ I (done ++ [a]) s') (rest done : List α) (hl : l = done ++ rest)
    (s : σ) (h : I done s) : ∃ s', rest.foldlM f s = .ok s' ∧ I l s' := by
  induction rest generalizing done s with
  | nil =>
    rw [List.append_nil] at hl
    rw [hl]
    exact ⟨s, rfl, h⟩
  | cons a rest ih =>
    obtain ⟨s', hs', hI⟩ := hstep done a rest hl s h
    have hl' : l = (done ++ [a]) ++ rest := by rw [hl, List.append_assoc]; rfl
    obtain ⟨s'', hs'', hl''⟩ := ih (done ++ [a]) hl' s' hI
    refine ⟨s'', ?_, hl''⟩
    rw [List.foldlM_cons, hs']
    exact hs''

/-- **The rule for a loop that can fail.**  `I done s` describes the state `s` once the items `done`
have been met. -/
theorem foldlM_ok {l : List α} {I : List α → σ → Prop}
    (hstep : ∀ done a rest, l = done ++ a :: rest → ∀ s, I done s →
      ∃ s', f s a = .ok s' ∧ I (done ++ [a]) s') {s : σ} (h : I [] s) :
    ∃ s', l.foldlM f s = .ok s' ∧ I l s' :=
  foldlM_ok_from hstep l [] rfl s h

/-- **The rule for a loop that has returned.**  `I done s` describes the state `s` once the items
`done` have been met. -/
theorem foldlM_inv {I : List α → σ → Prop} (rest done : List α) {s s' : σ}
    (hstep : ∀ done a s s', a ∈ rest → I done s → f s a = .ok s' → I (done ++ [a]) s')
    (h : I done s) (hrun : rest.foldlM f s = .ok s') : I (done ++ rest) s' := by
  induction rest generalizing done s with
  | nil =>
    cases hrun
    rw [List.append_nil]
    exact h
  | cons a rest ih =>
    rw [List.foldlM_cons] at hrun
    obtain ⟨s₁, hs₁, hrest⟩ := bind_eq_ok.mp hrun
    have hnext := hstep done a s s₁ List.mem_cons_self h hs₁
    have hlist : done ++ a :: rest = (done ++ [a]) ++ rest := by
      rw [List.append_assoc, List.singleton_append]
    rw [hlist]
    exact ih (done ++ [a])
      (fun done b t t' hb => hstep done b t t' (List.mem_cons_of_mem a hb)) hnext hrest

/-- **A loop follows another** whose steps it can make, as long as the states are related. -/
theorem foldlM_follows {τ : Type} {g : τ → α → Except ε τ} {R : σ → τ → Prop}
    (hstep : ∀ s t a s', R s t → f s a = .ok s' → ∃ t', g t a = .ok t' ∧ R s' t') (l : List α)
    {s s' : σ} {t : τ} (hR : R s t) (h : l.foldlM f s = .ok s') :
    ∃ t', l.foldlM g t = .ok t' ∧ R s' t' := by
  induction l generalizing s t with
  | nil =>
    cases h
    exact ⟨t, rfl, hR⟩
  | cons a l ih =>
    rw [List.foldlM_cons] at h
    obtain ⟨s₁, hs₁, h⟩ := bind_eq_ok.mp h
    obtain ⟨t₁, ht₁, hR₁⟩ := hstep s t a s₁ hR hs₁
    obtain ⟨t', ht', hR'⟩ := ih hR₁ h
    refine ⟨t', ?_, hR'⟩
    rw [List.foldlM_cons, ht₁]
    exact ht'

/-- **A loop over indices that has failed** has come to an index that its body has failed on. -/
theorem exists_of_foldlM_range_error {f : σ → ℕ → Except ε σ} {n : ℕ} {s : σ} {e : ε}
    (h : (List.range n).foldlM f s = .error e) :
    ∃ i s', i < n ∧ (List.range i).foldlM f s = .ok s' ∧ f s' i = .error e := by
  induction n with
  | zero => cases h
  | succ n ih =>
    rw [List.range_succ, List.foldlM_append] at h
    cases hn : (List.range n).foldlM f s with
    | error e' =>
      rw [hn] at h
      cases h
      obtain ⟨i, s', hi, hs', herror⟩ := ih hn
      exact ⟨i, s', Nat.lt_succ_of_lt hi, hs', herror⟩
    | ok s' =>
      rw [hn] at h
      change [n].foldlM f s' = _ at h
      rw [List.foldlM_cons] at h
      cases hlast : f s' n with
      | error e' =>
        rw [hlast] at h
        cases h
        exact ⟨n, s', Nat.lt_succ_self n, hn, hlast⟩
      | ok s₁ =>
        rw [hlast] at h
        cases h

/-- A failure that neither part can have, the whole cannot have. -/
theorem bind_ne_error {x : Except ε α} {g : α → Except ε β} {e : ε} (hx : x ≠ .error e)
    (hg : ∀ a, g a ≠ .error e) : (x >>= g) ≠ .error e := by
  cases x with
  | error e' => exact fun h => hx (congrArg Except.error (Except.error.inj h))
  | ok a => exact hg a

theorem foldlM_ne_error {e : ε} (h : ∀ s a, f s a ≠ .error e) (l : List α) (s : σ) :
    l.foldlM f s ≠ .error e := by
  induction l generalizing s with
  | nil => exact nofun
  | cons a l ih =>
    rw [List.foldlM_cons]
    exact bind_ne_error (h s a) fun s' => ih s'

/-- A loop inside a loop is one loop. -/
theorem foldlM_flatMap (g : β → List α) (L : List β) (s : σ) :
    L.foldlM (fun s b => (g b).foldlM f s) s = (L.flatMap g).foldlM f s := by
  induction L generalizing s with
  | nil => rfl
  | cons b L ih =>
    rw [List.foldlM_cons, List.flatMap_cons, List.foldlM_append]
    congr 1
    ext s'
    exact ih s'

/-- Two loops agree when their bodies agree on the items. -/
theorem foldlM_congr {g : σ → α → Except ε σ} (l : List α) (s : σ)
    (h : ∀ a ∈ l, ∀ s, f s a = g s a) : l.foldlM f s = l.foldlM g s := by
  induction l generalizing s with
  | nil => rfl
  | cons a l ih =>
    rw [List.foldlM_cons, List.foldlM_cons, h a List.mem_cons_self]
    congr 1
    ext s'
    exact ih s' fun b hb => h b (List.mem_cons_of_mem a hb)

/-- A list that has been mapped without a failure has been mapped element by element. -/
theorem mapM_eq_ok {g : α → Except ε β} {l : List α} {r : List β} :
    l.mapM g = .ok r ↔ List.Forall₂ (fun a b => g a = .ok b) l r := by
  induction l generalizing r with
  | nil =>
    rw [List.forall₂_nil_left_iff]
    constructor
    · exact fun h => (Except.ok.inj h).symm
    · rintro rfl
      rfl
  | cons a l ih =>
    rw [List.mapM_cons, bind_eq_ok, List.forall₂_cons_left_iff]
    constructor
    · rintro ⟨b, hb, h⟩
      obtain ⟨rest, hrest, h⟩ := bind_eq_ok.mp h
      exact ⟨b, rest, hb, ih.mp hrest, (Except.ok.inj h).symm⟩
    · rintro ⟨b, rest, hb, hrest, rfl⟩
      exact ⟨b, hb, bind_eq_ok.mpr ⟨rest, ih.mpr hrest, rfl⟩⟩

theorem exists_of_mapM_ok {g : α → Except ε β} {l : List α} {r : List β}
    (h : l.mapM g = .ok r) {a : α} (ha : a ∈ l) : ∃ b ∈ r, g a = .ok b := by
  rw [mapM_eq_ok] at h
  induction h with
  | nil => exact absurd ha List.not_mem_nil
  | cons hb _ ih =>
    rcases List.mem_cons.mp ha with rfl | ha
    · exact ⟨_, List.mem_cons_self, hb⟩
    · obtain ⟨b, hmem, hb⟩ := ih ha
      exact ⟨b, List.mem_cons_of_mem _ hmem, hb⟩

/-- Every result is that of an item. -/
theorem exists_of_mem_mapM_ok {g : α → Except ε β} {l : List α} {r : List β}
    (h : l.mapM g = .ok r) {b : β} (hb : b ∈ r) : ∃ a ∈ l, g a = .ok b := by
  rw [mapM_eq_ok] at h
  induction h with
  | nil => exact absurd hb List.not_mem_nil
  | cons ha _ ih =>
    rcases List.mem_cons.mp hb with rfl | hb
    · exact ⟨_, List.mem_cons_self, ha⟩
    · obtain ⟨a, hmem, ha⟩ := ih hb
      exact ⟨a, List.mem_cons_of_mem _ hmem, ha⟩

/-- What is known of each result is known of all. -/
theorem forall₂_of_mapM_ok {g : α → Except ε β} {R : α → β → Prop} {l : List α} {r : List β}
    (h : l.mapM g = .ok r) (hR : ∀ a ∈ l, ∀ b, g a = .ok b → R a b) : List.Forall₂ R l r := by
  rw [mapM_eq_ok] at h
  induction h with
  | nil => exact .nil
  | cons hb _ ih =>
    refine .cons (hR _ List.mem_cons_self _ hb) (ih fun a ha => ?_)
    exact hR a (List.mem_cons_of_mem _ ha)

theorem map_of_mapM_ok {γ : Type} {g : α → Except ε β} {f : β → γ} {f' : α → γ} {l : List α}
    {r : List β} (h : l.mapM g = .ok r) (hf : ∀ a ∈ l, ∀ b, g a = .ok b → f b = f' a) :
    r.map f = l.map f' := by
  have hall : List.Forall₂ (fun a b => f' a = f b) l r :=
    forall₂_of_mapM_ok h fun a ha b hb => (hf a ha b hb).symm
  clear h hf
  induction hall with
  | nil => rfl
  | cons hab _ ih => rw [List.map_cons, List.map_cons, ← hab, ih]

/-- **A list whose elements can be mapped** can be mapped. -/
theorem mapM_ok {g : α → Except ε β} {l : List α} (h : ∀ a ∈ l, ∃ b, g a = .ok b) :
    ∃ r, l.mapM g = .ok r := by
  induction l with
  | nil => exact ⟨[], rfl⟩
  | cons a l ih =>
    obtain ⟨b, hb⟩ := h a List.mem_cons_self
    obtain ⟨r, hr⟩ := ih fun a' ha' => h a' (List.mem_cons_of_mem a ha')
    exact ⟨b :: r, mapM_eq_ok.mpr (.cons hb (mapM_eq_ok.mp hr))⟩

end CheckedLoop
end BurstIoT
