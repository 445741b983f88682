import Mathlib.Data.List.Basic

/-!
# Tables with separators

A table is written as a text with one item between the cells of a row and another between the rows.
It is read back by splitting the text at the second and what is left at the first, if neither of
them is in a cell and there are no empty rows (`read_table`).
-/

namespace BurstIoT
namespace Separated

variable {α : Type}

/-- The text of a table. -/
def table (cell line : α) (rows : List (List (List α))) : List α :=
  [line].intercalate (rows.map [cell].intercalate)

/-- The cells of the rows of a text. -/
def read [BEq α] (cell line : α) (text : List α) : List (List (List α)) :=
  (text.splitOn line).map fun row => row.splitOn cell

/-- **A loop that ends each text with the separator** has written all but the last one. -/
theorem intercalate_concat (sep : List α) (l : List (List α)) (a : List α) :
    sep.intercalate (l ++ [a]) = (l.flatMap fun text => text ++ sep) ++ a := by
  induction l with
  | nil => exact List.intercalate_singleton
  | cons b l ih =>
    have hne : l ++ [a] ≠ [] := List.append_ne_nil_of_right_ne_nil l (List.cons_ne_nil a [])
    rw [List.cons_append, List.intercalate_cons_of_ne_nil hne, ih, List.flatMap_cons]
    simp only [List.append_assoc]

/-- An item that is neither in a text nor between two. -/
theorem notMem_intercalate {sep a : α} (hsep : a ≠ sep) {l : List (List α)}
    (h : ∀ text ∈ l, a ∉ text) : a ∉ [sep].intercalate l := by
  rcases List.eq_nil_or_concat l with rfl | ⟨front, last, rfl⟩
  · exact List.not_mem_nil
  · rw [List.concat_eq_append] at h ⊢
    rw [intercalate_concat, List.mem_append, List.mem_flatMap]
    rintro (⟨text, htext, hmem⟩ | hmem)
    · rcases List.mem_append.mp hmem with hmem | hmem
      · exact h text (List.mem_append_left _ htext) hmem
      · exact hsep (List.mem_singleton.mp hmem)
    · exact h last (List.mem_append_right _ List.mem_cons_self) hmem

/-- **A table can be read back.** -/
theorem read_table [BEq α] [LawfulBEq α] {cell line : α} (hne : cell ≠ line)
    {rows : List (List (List α))} (hrows : rows ≠ [])
    (h : ∀ row ∈ rows, row ≠ [] ∧ ∀ text ∈ row, cell ∉ text ∧ line ∉ text) :
    read cell line (table cell line rows) = rows := by
  have hlines : ∀ text ∈ rows.map [cell].intercalate, line ∉ text := by
    intro text htext
    obtain ⟨row, hrow, rfl⟩ := List.mem_map.mp htext
    exact notMem_intercalate (Ne.symm hne) fun text htext => ((h row hrow).2 text htext).2
  rw [read, table, List.splitOn_intercalate line hlines (by simpa using hrows), List.map_map]
  refine (List.map_congr_left fun row hrow => ?_).trans (List.map_id rows)
  obtain ⟨hcells, htexts⟩ := h row hrow
  exact List.splitOn_intercalate cell (fun text htext => (htexts text htext).1) hcells

end Separated
end BurstIoT
