import ShapeFlow.Exploration
import ShapeFlow.TypeGraph.Basic

/-!
# Sets of pairs of types

A comparison of two types meets pairs of types.  They are kept in a table with one row
for each left side, which lists the right sides it was met with: a type is rarely
compared with more than a few others at a time, so the rows stay short.
-/

namespace ShapeFlow

/-- A set of pairs of types, as the list of right sides for each left side. -/
structure PairTable where
  rows : Array (List TypeId) := #[]

namespace PairTable

/-- Whether a pair is in the table. -/
def has (table : PairTable) (pair : TypeId × TypeId) : Bool :=
  match table.rows[pair.1.index]? with
  | some row => row.contains pair.2
  | none => false

/-- The rows of a table, with empty ones behind them up to the given number. -/
def padded (rows : Array (List TypeId)) (number : Nat) : Array (List TypeId) :=
  if number ≤ rows.size then rows else rows ++ Array.replicate (number - rows.size) []

/-- Add a pair. -/
def add (table : PairTable) (pair : TypeId × TypeId) : PairTable :=
  ⟨(padded table.rows (pair.1.index + 1)).modify pair.1.index (pair.2 :: ·)⟩

theorem le_size_padded (rows : Array (List TypeId)) (number : Nat) :
    number ≤ (padded rows number).size := by
  unfold padded
  split
  · assumption
  · simp only [Array.size_append, Array.size_replicate]
    omega

/-- Empty rows are as good as no rows. -/
theorem contains_padded (rows : Array (List TypeId)) (number index : Nat) (type : TypeId) :
    (∃ row, (padded rows number)[index]? = some row ∧ row.contains type = true) ↔
      ∃ row, rows[index]? = some row ∧ row.contains type = true := by
  unfold padded
  split
  · exact Iff.rfl
  · by_cases hindex : index < rows.size
    · rw [Array.getElem?_append_left hindex]
    · have hbehind : ∀ row, (Array.replicate (number - rows.size)
          ([] : List TypeId))[index - rows.size]? = some row → row = [] := by
        intro row hrow
        rw [Array.getElem?_replicate] at hrow
        split at hrow
        · exact (Option.some.inj hrow).symm
        · simp at hrow
      have hnone : rows[index]? = none := Array.getElem?_eq_none (by omega)
      rw [Array.getElem?_append_right (by omega), hnone]
      constructor
      · rintro ⟨row, hrow, hcontains⟩
        simp [hbehind row hrow] at hcontains
      · rintro ⟨row, hrow, -⟩
        simp at hrow

/-- A pair is in the table exactly when its row lists it. -/
theorem has_iff (table : PairTable) (pair : TypeId × TypeId) :
    table.has pair = true ↔
      ∃ row, table.rows[pair.1.index]? = some row ∧ row.contains pair.2 = true := by
  unfold has
  split <;> simp_all

/-- Adding a pair adds that pair and no other. -/
theorem has_add (table : PairTable) (pair other : TypeId × TypeId) :
    (table.add pair).has other = true ↔ other = pair ∨ table.has other = true := by
  obtain ⟨left, right⟩ := pair
  obtain ⟨otherLeft, otherRight⟩ := other
  rw [has_iff, has_iff, ← contains_padded table.rows (left.index + 1)]
  have hsize := le_size_padded table.rows (left.index + 1)
  simp only [add, Array.getElem?_modify, Prod.mk.injEq]
  by_cases hleft : left = otherLeft
  · subst hleft
    rw [if_pos rfl, Array.getElem?_eq_getElem (by omega)]
    simp only [Option.map_some, Option.some.injEq, exists_eq_left', List.contains_cons,
      Bool.or_eq_true, beq_iff_eq, true_and]
  · have hindex : left.index ≠ otherLeft.index := fun h => hleft (by
      cases left; cases otherLeft; simp_all)
    have hleft' : ¬ otherLeft = left := fun h => hleft h.symm
    simp [hindex, hleft']

instance : Ledger PairTable (TypeId × TypeId) where
  blank := {}
  has := has
  add := add
  has_blank _ := by simp [has]
  has_add := has_add

end PairTable

end ShapeFlow
