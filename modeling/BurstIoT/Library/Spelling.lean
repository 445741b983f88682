import Mathlib.Data.Int.Notation
import Mathlib.Data.List.Basic

/-!
# Texts with values in them

A text that is printed from a fixed frame and some values is read back as soon as every piece of the
frame that follows a value begins with a character that no value contains: the values are then
determined by the text (`spell_append_injective`).

The values of interest are decimal numbers, whose characters are digits and a sign.
-/

namespace BurstIoT
namespace Spelling

variable {α : Type}

/-- Values, each with the piece of text that follows it. -/
def spell : List (List α × List α) → List α
  | [] => []
  | (value, text) :: rest => value ++ (text ++ spell rest)

/-- The text begins with an item that is none of a value. -/
def Delimits (inValue : α → Prop) (text : List α) : Prop :=
  ∃ a ∈ text.head?, ¬ inValue a

/-- **A delimiter ends the value**, wherever it stands. -/
theorem append_inj_of_delimits {inValue : α → Prop} : ∀ {v v' s s' : List α},
    (∀ a ∈ v, inValue a) → (∀ a ∈ v', inValue a) → Delimits inValue s → Delimits inValue s' →
      v ++ s = v' ++ s' → v = v' ∧ s = s'
  | [], [], _, _, _, _, _, _, h => ⟨rfl, h⟩
  | [], b :: v', s, s', _, hv', ⟨c, hc, hout⟩, _, h => by
    obtain rfl : b = c := by
      rw [List.nil_append] at h
      rw [h] at hc
      exact Option.some_inj.mp hc
    exact absurd (hv' b List.mem_cons_self) hout
  | a :: v, [], s, s', hv, _, _, ⟨c, hc, hout⟩, h => by
    obtain rfl : a = c := by
      rw [List.nil_append] at h
      rw [← h] at hc
      exact Option.some_inj.mp hc
    exact absurd (hv a List.mem_cons_self) hout
  | a :: v, b :: v', s, s', hv, hv', hs, hs', h => by
    obtain ⟨hhead, htail⟩ := List.cons_eq_cons.mp h
    obtain ⟨hvalue, hrest⟩ := append_inj_of_delimits (fun c hc => hv c (List.mem_cons_of_mem a hc))
      (fun c hc => hv' c (List.mem_cons_of_mem b hc)) hs hs' htail
    exact ⟨by rw [hhead, hvalue], hrest⟩

theorem Delimits.append {inValue : α → Prop} {text : List α} (h : Delimits inValue text)
    (rest : List α) : Delimits inValue (text ++ rest) := by
  obtain ⟨a, ha, hout⟩ := h
  cases text with
  | nil => cases ha
  | cons b text => exact ⟨a, ha, hout⟩

/-- **The values can be read back** from the text, whatever follows it. -/
theorem spell_append_injective {inValue : α → Prop} : ∀ {l l' : List (List α × List α)}
    {rest rest' : List α}, l.map Prod.snd = l'.map Prod.snd →
      (∀ e ∈ l, Delimits inValue e.2) → (∀ e ∈ l, ∀ a ∈ e.1, inValue a) →
        (∀ e ∈ l', ∀ a ∈ e.1, inValue a) →
          spell l ++ rest = spell l' ++ rest' → l = l' ∧ rest = rest'
  | [], [], _, _, _, _, _, _, h => ⟨rfl, h⟩
  | [], _ :: _, _, _, htext, _, _, _, _ => by cases htext
  | _ :: _, [], _, _, htext, _, _, _, _ => by cases htext
  | (v, t) :: l, (v', t') :: l', rest, rest', htext, hdelim, hv, hv', h => by
    obtain ⟨ht, htail⟩ := List.cons_eq_cons.mp htext
    obtain rfl : t = t' := ht
    have hdel : Delimits inValue t := hdelim (v, t) List.mem_cons_self
    rw [spell, spell, List.append_assoc, List.append_assoc, List.append_assoc,
      List.append_assoc] at h
    obtain ⟨hvalue, hrest⟩ := append_inj_of_delimits (hv (v, t) List.mem_cons_self)
      (hv' (v', t) List.mem_cons_self) (hdel.append _) (hdel.append _) h
    obtain rfl : v = v' := hvalue
    obtain ⟨rfl, hend⟩ := spell_append_injective htail
      (fun e he => hdelim e (List.mem_cons_of_mem _ he))
      (fun e he => hv e (List.mem_cons_of_mem _ he)) (fun e he => hv' e (List.mem_cons_of_mem _ he))
      (List.append_cancel_left hrest)
    exact ⟨rfl, hend⟩

/-- The values can be read back from the text alone. -/
theorem spell_injective {inValue : α → Prop} {l l' : List (List α × List α)}
    (htext : l.map Prod.snd = l'.map Prod.snd) (hdelim : ∀ e ∈ l, Delimits inValue e.2)
    (hv : ∀ e ∈ l, ∀ a ∈ e.1, inValue a) (hv' : ∀ e ∈ l', ∀ a ∈ e.1, inValue a)
    (h : spell l = spell l') : l = l' :=
  (spell_append_injective htext hdelim hv hv'
    ((List.append_nil _).trans (h.trans (List.append_nil _).symm))).1

/-- What stands before the last separator, and what stands after it. -/
theorem append_inj_of_last {sep : α} {front front' last last' : List α} (h : sep ∉ last)
    (h' : sep ∉ last') (heq : front ++ sep :: last = front' ++ sep :: last') :
    front = front' ∧ last = last' := by
  have hreverse : ∀ front last : List α, (front ++ sep :: last).reverse =
      last.reverse ++ sep :: front.reverse := by
    intro front last
    simp
  have hsep : ∀ l : List α, Delimits (· ≠ sep) (sep :: l) := fun l => ⟨sep, rfl, fun hne => hne rfl⟩
  have hin : ∀ {last : List α}, sep ∉ last → ∀ a ∈ last.reverse, a ≠ sep := by
    rintro last hlast a ha rfl
    exact hlast (List.mem_reverse.mp ha)
  have hrev := congrArg List.reverse heq
  rw [hreverse, hreverse] at hrev
  obtain ⟨hlast, hfront⟩ := append_inj_of_delimits (hin h) (hin h') (hsep _) (hsep _) hrev
  exact ⟨List.reverse_injective (List.cons.inj hfront).2, List.reverse_injective hlast⟩

/-! ## Decimal numbers -/

/-- The characters of a decimal number. -/
def InNumeral (c : Char) : Prop := c.isDigit = true ∨ c = '-'

instance (c : Char) : Decidable (InNumeral c) :=
  inferInstanceAs (Decidable (c.isDigit = true ∨ c = '-'))

theorem isDigit_of_mem_repr {n : ℕ} {c : Char} (h : c ∈ n.repr.toList) : c.isDigit = true := by
  rw [Nat.toList_repr] at h
  exact Nat.isDigit_of_mem_toDigits (by decide) (by decide) h

theorem inNumeral_of_mem_repr {n : ℕ} {c : Char} (h : c ∈ n.repr.toList) : InNumeral c :=
  Or.inl (isDigit_of_mem_repr h)

theorem inNumeral_of_mem_intRepr {i : ℤ} {c : Char} (h : c ∈ (Int.repr i).toList) :
    InNumeral c := by
  rw [Int.repr_eq_if] at h
  split_ifs at h
  · exact inNumeral_of_mem_repr h
  · rw [String.toList_append, List.mem_append] at h
    rcases h with h | h
    · exact Or.inr (by simpa using h)
    · exact inNumeral_of_mem_repr h

/-- A number can be read back. -/
theorem repr_injective {m n : ℕ} (h : m.repr = n.repr) : m = n := by
  have hdigits := congrArg (fun s : String => Nat.ofDigitChars 10 s.toList 0) h
  simpa only [Nat.toList_repr, Nat.ofDigitChars_ten_toDigits] using hdigits

theorem repr_ne_minus (m n : ℕ) : m.repr ≠ "-" ++ n.repr := by
  intro h
  have hminus : '-' ∈ m.repr.toList := by
    rw [h, String.toList_append]
    exact List.mem_append_left _ (by decide +kernel)
  exact absurd (isDigit_of_mem_repr hminus) (by decide)

theorem intRepr_injective {i j : ℤ} (h : Int.repr i = Int.repr j) : i = j := by
  rw [Int.repr_eq_if, Int.repr_eq_if] at h
  split_ifs at h with hi hj hj
  · have hnat := repr_injective h
    omega
  · exact absurd h (repr_ne_minus _ _)
  · exact absurd h.symm (repr_ne_minus _ _)
  · have hnat := repr_injective (String.append_right_inj _ |>.mp h)
    omega

end Spelling
end BurstIoT
