import Mathlib

set_option relaxedAutoImplicit false
set_option autoImplicit false

/-!
# Matchings as Boolean matrices

A partial matching between two types, given by its Boolean incidence matrix, the two moves an
alternating path is made of, and the exchange rule a dual certificate gives.

## Main definitions

* `Matching.setCell` — overwrite one entry.
* `Matching.IsMatching` — at most one entry per row and per column.
* `Matching.marks` — the number of entries.
* `Matching.NearTight` — a dual certificate of optimality up to a slack `ε`.

## Main results

* `Matching.IsMatching.add`, `Matching.IsMatching.move` — the two moves keep a matching.
* `Matching.IsMatching.all_rows_of_all_cols` — a matching that fills all columns of a square
  matrix fills all rows.
* `Matching.IsMatching.marks_succ` — one row more in use is one entry more.
* `Matching.NearTight.exchange` — swapping the columns of two rows gains less than `2ε`.
-/

namespace Matching

variable {α β : Type}

/-- Write one cell of a Boolean matrix. -/
def setCell [DecidableEq α] [DecidableEq β] (m : α → β → Bool) (i : α) (j : β) (v : Bool) :
    α → β → Bool := fun a b => if a = i ∧ b = j then v else m a b

/-- Every row and every column has at most one entry. -/
structure IsMatching (s : α → β → Bool) : Prop where
  row : ∀ {i j j'}, s i j = true → s i j' = true → j = j'
  col : ∀ {i i' j}, s i j = true → s i' j = true → i = i'

/-- Row `i` has an entry. -/
def RowUsed (s : α → β → Bool) (i : α) : Prop := ∃ j, s i j = true

/-- Column `j` has an entry. -/
def ColUsed (s : α → β → Bool) (j : β) : Prop := ∃ i, s i j = true

section Moves

variable [DecidableEq α] [DecidableEq β] {s : α → β → Bool}

/-- The entries after setting a cell to true: the cell and the old entries. -/
theorem setCell_true_iff {i : α} {j : β} {a : α} {b : β} :
    setCell s i j true a b = true ↔ (a = i ∧ b = j) ∨ s a b = true := by
  unfold setCell
  split_ifs with h
  · simp [h]
  · simp [h]

/-- The entries after setting a cell to false: the old entries but for the cell. -/
theorem setCell_false_iff {i : α} {j : β} {a : α} {b : β} :
    setCell s i j false a b = true ↔ ¬(a = i ∧ b = j) ∧ s a b = true := by
  unfold setCell
  split_ifs with h
  · simp [h]
  · simp [h]

/-- Adding an entry in an empty row and an empty column keeps a matching. -/
theorem IsMatching.add (hs : IsMatching s) {i : α} {j : β} (hi : ¬RowUsed s i)
    (hj : ¬ColUsed s j) : IsMatching (setCell s i j true) where
  row {a b b'} h h' := by
    rw [setCell_true_iff] at h h'
    rcases h with ⟨rfl, rfl⟩ | h <;> rcases h' with ⟨h1, h2⟩ | h'
    · exact h2.symm
    · exact absurd ⟨b', h'⟩ hi
    · exact absurd ⟨b, h1 ▸ h⟩ hi
    · exact hs.row h h'
  col {a a' b} h h' := by
    rw [setCell_true_iff] at h h'
    rcases h with ⟨rfl, rfl⟩ | h <;> rcases h' with ⟨h1, h2⟩ | h'
    · exact h1.symm
    · exact absurd ⟨a', h'⟩ hj
    · exact absurd ⟨a, h2 ▸ h⟩ hj
    · exact hs.col h h'

/-- The entries after moving the entry of column `j` from row `r` to row `i`. -/
theorem move_iff {i r : α} {j : β} {a : α} {b : β} (hir : i ≠ r) :
    setCell (setCell s i j true) r j false a b = true ↔
      (a = i ∧ b = j) ∨ (¬(a = r ∧ b = j) ∧ s a b = true) := by
  rw [setCell_false_iff, setCell_true_iff]
  constructor
  · rintro ⟨h1, h2 | h2⟩
    · exact Or.inl h2
    · exact Or.inr ⟨h1, h2⟩
  · rintro (⟨rfl, rfl⟩ | ⟨h1, h2⟩)
    · exact ⟨fun h => hir h.1, Or.inl ⟨rfl, rfl⟩⟩
    · exact ⟨h1, Or.inr h2⟩

/-- Moving an entry within its column to an empty row keeps a matching. -/
theorem IsMatching.move (hs : IsMatching s) {i r : α} {j : β} (hi : ¬RowUsed s i)
    (hr : s r j = true) : IsMatching (setCell (setCell s i j true) r j false) := by
  have hir : i ≠ r := by rintro rfl; exact hi ⟨j, hr⟩
  refine ⟨fun {a b b'} h h' => ?_, fun {a a' b} h h' => ?_⟩
  · rw [move_iff hir] at h h'
    rcases h with ⟨rfl, rfl⟩ | ⟨-, h⟩ <;> rcases h' with ⟨h1, h2⟩ | ⟨-, h'⟩
    · exact h2.symm
    · exact absurd ⟨b', h'⟩ hi
    · exact absurd ⟨b, h1 ▸ h⟩ hi
    · exact hs.row h h'
  · rw [move_iff hir] at h h'
    rcases h with ⟨rfl, rfl⟩ | ⟨h0, h⟩ <;> rcases h' with ⟨h1, h2⟩ | ⟨h0', h'⟩
    · exact h1.symm
    · exact absurd ⟨hs.col h' hr, rfl⟩ h0'
    · exact absurd ⟨hs.col (h2 ▸ h) hr, h2⟩ h0
    · exact hs.col h h'

/-- The rows in use after a move: the target is in use, the origin is not. -/
theorem IsMatching.rowUsed_move (hs : IsMatching s) {i r : α} {j : β} (hi : ¬RowUsed s i)
    (hr : s r j = true) (a : α) :
    RowUsed (setCell (setCell s i j true) r j false) a ↔ a = i ∨ (a ≠ r ∧ RowUsed s a) := by
  have hir : i ≠ r := by rintro rfl; exact hi ⟨j, hr⟩
  constructor
  · rintro ⟨b, hb⟩
    rw [move_iff hir] at hb
    rcases hb with ⟨rfl, -⟩ | ⟨h0, hb⟩
    · exact Or.inl rfl
    · exact Or.inr ⟨by rintro rfl; exact h0 ⟨rfl, hs.row hb hr⟩, b, hb⟩
  · rintro (rfl | ⟨har, b, hb⟩)
    · exact ⟨j, (move_iff hir).mpr (Or.inl ⟨rfl, rfl⟩)⟩
    · exact ⟨b, (move_iff hir).mpr (Or.inr ⟨fun h => har h.1, hb⟩)⟩

/-- A move frees no column. -/
theorem colUsed_move {i r : α} {j : β} (hir : i ≠ r) {b : β} (hb : ColUsed s b) :
    ColUsed (setCell (setCell s i j true) r j false) b := by
  obtain ⟨a, ha⟩ := hb
  by_cases h : a = r ∧ b = j
  · exact ⟨i, (move_iff hir).mpr (Or.inl ⟨rfl, h.2⟩)⟩
  · exact ⟨a, (move_iff hir).mpr (Or.inr ⟨h, ha⟩)⟩

end Moves

/-- In a square matrix, a matching that uses every row uses every column. -/
theorem IsMatching.all_cols_of_all_rows [Finite α] {s : α → α → Bool} (hs : IsMatching s)
    (h : ∀ i, RowUsed s i) : ∀ j, ColUsed s j := by
  choose f hf using h
  have hinj : Function.Injective f := fun a b hab => hs.col (hf a) (hab ▸ hf b)
  intro j
  obtain ⟨i, rfl⟩ := (Finite.injective_iff_surjective.mp hinj) j
  exact ⟨i, hf i⟩

/-- In a square matrix, a matching that uses every column uses every row. -/
theorem IsMatching.all_rows_of_all_cols [Finite α] {s : α → α → Bool} (hs : IsMatching s)
    (h : ∀ j, ColUsed s j) : ∀ i, RowUsed s i :=
  IsMatching.all_cols_of_all_rows (s := fun j i => s i j) ⟨hs.col, hs.row⟩ h

/-! ## Counting -/

section Count

variable [Fintype α] [Fintype β] {s s' : α → β → Bool}

/-- The number of entries. -/
def marks (s : α → β → Bool) : ℕ := (Finset.univ.filter fun z : α × β => s z.1 z.2 = true).card

open Classical in
/-- A matching has one entry for each row in use. -/
theorem IsMatching.marks_eq (hs : IsMatching s) :
    marks s = (Finset.univ.filter fun i => RowUsed s i).card := by
  refine Finset.card_nbij Prod.fst ?_ ?_ ?_
  · intro z hz
    rw [Finset.mem_coe, Finset.mem_filter] at hz ⊢
    exact ⟨Finset.mem_univ _, z.2, hz.2⟩
  · intro z hz w hw hzw
    rw [Finset.mem_coe, Finset.mem_filter] at hz hw
    have hrow : z.1 = w.1 := hzw
    rw [hrow] at hz
    exact Prod.ext hrow (hs.row hz.2 hw.2)
  · intro i hi
    obtain ⟨j, hj⟩ := (Finset.mem_filter.mp hi).2
    exact ⟨(i, j), by simp [hj], rfl⟩

/-- A matching has at most one entry for each row. -/
theorem IsMatching.marks_le (hs : IsMatching s) : marks s ≤ Fintype.card α := by
  classical
  rw [hs.marks_eq]
  exact Finset.card_le_univ _

/-- A matching that uses one row more has one entry more. -/
theorem IsMatching.marks_succ (hs : IsMatching s) (hs' : IsMatching s') {i : α}
    (hi : ¬RowUsed s i) (h : ∀ a, RowUsed s' a ↔ a = i ∨ RowUsed s a) :
    marks s' = marks s + 1 := by
  classical
  have hrows : (Finset.univ.filter fun a => RowUsed s' a) =
      insert i (Finset.univ.filter fun a => RowUsed s a) := by
    ext a
    simp [h]
  rw [hs.marks_eq, hs'.marks_eq, hrows, Finset.card_insert_of_notMem (by simpa using hi)]

end Count

/-! ## Dual certificates -/

section Dual

variable {R : Type} [Field R] [LinearOrder R] [IsStrictOrderedRing R]

/-- Row and column potentials below the cost everywhere, and within `ε` of it on every cell of
the matching: the certificate that the matching is optimal up to `ε` per cell. -/
def NearTight (c : α → β → R) (ε : R) (s : α → β → Bool) : Prop :=
  ∃ (u : α → R) (v : β → R), (∀ i j, u i + v j ≤ c i j) ∧
    ∀ i j, s i j = true → c i j < u i + v j + ε

/-- Swapping the columns of two matched rows gains less than `2ε`. -/
theorem NearTight.exchange {c : α → β → R} {ε : R} {s : α → β → Bool} (h : NearTight c ε s)
    {i i' : α} {j j' : β} (hij : s i j = true) (hij' : s i' j' = true) :
    c i j + c i' j' < c i j' + c i' j + 2 * ε := by
  obtain ⟨u, v, hle, hlt⟩ := h
  have h1 := hlt i j hij
  have h2 := hlt i' j' hij'
  have h3 := hle i j'
  have h4 := hle i' j
  linarith

end Dual

end Matching
