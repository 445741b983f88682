import Mathlib.Data.List.Basic
import Mathlib.Logic.Relation

/-!
# Steps that do not depend on their order

A relation `r` takes steps, several of which may be possible in a state; a state is final if there
are none.  If any two steps from a state that can be reached lead to the same state or meet again
after one more step each (`Diamond`), then all runs that end do so in the same state
(`final_unique`).

Conversely, runs from two related states can be kept in lockstep (`run_of_lockstep`), so that a
difference that no step removes is there at the end as well.
-/

namespace BurstIoT
namespace Confluence

open Relation (ReflTransGen)

variable {σ : Type} {r : σ → σ → Prop}

/-- No step is possible. -/
def Final (r : σ → σ → Prop) (s : σ) : Prop :=
  ∀ s', ¬ r s s'

/-- Any two steps from a reachable state lead to the same state, or meet after one more step. -/
def Diamond (r : σ → σ → Prop) (start : σ) : Prop :=
  ∀ a b c, ReflTransGen r start a → r a b → r a c → b = c ∨ ∃ d, r b d ∧ r c d

/-- What every step keeps, every run keeps. -/
theorem keeps {I : σ → Prop} (hstep : ∀ s s', I s → r s s' → I s') {s s' : σ}
    (h : ReflTransGen r s s') (hs : I s) : I s' := by
  induction h with
  | refl => exact hs
  | tail _ hlast ih => exact hstep _ _ ih hlast

theorem eq_of_final {s s' : σ} (hfinal : Final r s) (h : ReflTransGen r s s') : s' = s := by
  rcases Relation.ReflTransGen.cases_head h with heq | ⟨s₁, hstep, -⟩
  · exact heq.symm
  · exact absurd hstep (hfinal s₁)

/-- **Runs that end, end in the same state**, where the order of two steps does not matter. -/
theorem final_unique {start s s' : σ} (hdiamond : Diamond r start) (h : ReflTransGen r start s)
    (hs : Final r s) (h' : ReflTransGen r start s') (hs' : Final r s') : s = s' := by
  -- the steps between reachable states
  let q : σ → σ → Prop := fun a b => ReflTransGen r start a ∧ r a b
  have hlift : ∀ {a}, ReflTransGen r start a → ReflTransGen q start a := by
    intro a ha
    induction ha with
    | refl => exact .refl
    | tail hfront hlast ih => exact ih.tail ⟨hfront, hlast⟩
  have hjoin : ∀ a b c, q a b → q a c → ∃ d, Relation.ReflGen q b d ∧ ReflTransGen q c d := by
    rintro a b c ⟨ha, hb⟩ ⟨-, hc⟩
    rcases hdiamond a b c ha hb hc with rfl | ⟨d, hbd, hcd⟩
    · exact ⟨b, .refl, .refl⟩
    · exact ⟨d, .single ⟨ha.tail hb, hbd⟩, .single ⟨ha.tail hc, hcd⟩⟩
  obtain ⟨d, hd, hd'⟩ := Relation.church_rosser hjoin (hlift h) (hlift h')
  have hback : ∀ {a b}, ReflTransGen q a b → ReflTransGen r a b :=
    fun hab => Relation.ReflTransGen.mono (fun _ _ => And.right) _ _ hab
  rw [← eq_of_final hs (hback hd), eq_of_final hs' (hback hd')]

/-- A run can be taken to its end, if each step makes a measure smaller. -/
theorem exists_final {μ : σ → ℕ} (hμ : ∀ s s', r s s' → μ s' < μ s) (s : σ) :
    ∃ s', ReflTransGen r s s' ∧ Final r s' := by
  induction hn : μ s using Nat.strongRecOn generalizing s with
  | _ n ih =>
    by_cases hfinal : Final r s
    · exact ⟨s, .refl, hfinal⟩
    · obtain ⟨s₁, hstep⟩ := not_forall_not.mp hfinal
      obtain ⟨s', hrun, hend⟩ := ih (μ s₁) (hn ▸ hμ s s₁ hstep) s₁ rfl
      exact ⟨s', .head hstep hrun, hend⟩

/-- **A run can be followed** from a related state, if each step can be. -/
theorem run_of_lockstep {S : σ → σ → Prop}
    (hstep : ∀ a b a', S a b → r a a' → ∃ b', r b b' ∧ S a' b') {a b a' : σ}
    (h : ReflTransGen r a a') (hab : S a b) : ∃ b', ReflTransGen r b b' ∧ S a' b' := by
  induction h with
  | refl => exact ⟨b, .refl, hab⟩
  | tail _ hlast ih =>
    obtain ⟨b₁, hrun, hab₁⟩ := ih
    obtain ⟨b', hb', hab'⟩ := hstep _ _ _ hab₁ hlast
    exact ⟨b', hrun.tail hb', hab'⟩

end Confluence
end BurstIoT
